import ExtractFlow.EvaluationErrors

/-!
# The limits of operators

The calculations catch `TypeError` and `ZeroDivisionError`.  An operator on two
operands raises another exception only at a limit of the interpreter: an integer
that no float holds meets a float, the quotient of two integers is such a number, a
sequence is repeated beyond the length it can have.  The limits are conditions on
the operands.

What the interpreter and its libraries raise is not code of the repository.
`LibraryErrors` lists what is documented of it: the range of a double, the digits
`str` prints, and the classes of exceptions of each library function.

## Main definitions

* `BuiltinErr.caught`, `Breaks` — an operation raises what the calculations do not catch.
* `floatLimit`, `PyVal.hasLongInt`, `sumTooLarge`, `roundsTooLarge` — the limits of numbers.
* `LibraryErrors` — the exceptions of the interpreter and the libraries.
* `BinaryBreaks` — the operands break an operator.

## Main results

* `div_breaks_iff`, `mul_breaks_iff`, `mod_breaks_iff` — the operators, one by one.
* `binOp_aborts_iff` — an operator raises what is not caught exactly at a limit.
-/

namespace ExtractFlow

/-! ### What is not caught -/

/-- The calculations catch the exception: it is one of the two builtin classes they name. -/
def BuiltinErr.caught : BuiltinErr → Bool
  | .typeError => true
  | .zeroDivisionError => true
  | _ => false

/-- The operation raises an exception the calculations do not catch; what it returns or raises
otherwise does not matter. -/
def Breaks {α : Type} (x : Except BuiltinErr α) : Prop := Raises (fun e => e.caught = false) x

/-- Inside an evaluation too. -/
def Aborts {α : Type} (x : Except EvalErr α) : Prop := Raises (fun e => e.caught = false) x

section Breaks

variable {α β : Type}

theorem not_breaks_ok (a : α) : ¬ Breaks (.ok a : Except BuiltinErr α) := not_raises_ok a

theorem breaks_error (e : BuiltinErr) :
    Breaks (.error e : Except BuiltinErr α) ↔ e.caught = false := raises_error e

theorem not_breaks_typeError : ¬ Breaks (.error .typeError : Except BuiltinErr α) :=
  (breaks_error _).not.mpr (by decide)

theorem breaks_bind {x : Except BuiltinErr α} {f : α → Except BuiltinErr β} :
    Breaks (x >>= f) ↔ Breaks x ∨ ∃ a, x = .ok a ∧ Breaks (f a) := raises_bind

theorem breaks_map {x : Except BuiltinErr α} {f : α → β} : Breaks (x.map f) ↔ Breaks x := by
  cases x with
  | ok a => exact iff_of_false (not_breaks_ok (f a)) (not_breaks_ok a)
  | error e => exact (breaks_error e).trans (breaks_error e).symm

/-- A library function without a result raises `OverflowError`. -/
theorem breaks_elim {x : Option α} {f : α → β} :
    Breaks (x.elim (.error .overflowError) fun a => .ok (f a)) ↔ x = none := by
  cases x with
  | none => exact iff_of_true ((breaks_error _).mpr rfl) rfl
  | some a => exact iff_of_false (not_breaks_ok _) (by simp)

theorem not_aborts_ok (a : α) : ¬ Aborts (.ok a : Except EvalErr α) := not_raises_ok a

theorem not_aborts_formula (e : FormulaError) :
    ¬ Aborts (.error (.formula e) : Except EvalErr α) :=
  (raises_error (EvalErr.formula e)).not.mpr (by simp [EvalErr.caught])

theorem not_aborts_typeError : ¬ Aborts (raiseTypeError : Except EvalErr α) :=
  (raises_error (EvalErr.builtin .typeError)).not.mpr (by decide)

theorem aborts_bind {x : Except EvalErr α} {f : α → Except EvalErr β} :
    Aborts (x >>= f) ↔ Aborts x ∨ ∃ a, x = .ok a ∧ Aborts (f a) := raises_bind

/-- An operation of Python inside an evaluation. -/
theorem aborts_builtin {x : Except BuiltinErr α} : Aborts (builtin x) ↔ Breaks x := by
  cases x with
  | ok a => exact iff_of_false (not_aborts_ok a) (not_breaks_ok a)
  | error e =>
    refine (raises_error (EvalErr.builtin e)).trans (Iff.trans ?_ (breaks_error e).symm)
    cases e <;> simp [EvalErr.caught, BuiltinErr.caught]

end Breaks

/-! ### The limits of numbers -/

/-- The integers from here on are too large for a float: they are nearer to `2 ^ 1024`
than to the largest double, or just between. -/
def floatLimit : ℤ := 2 ^ 1024 - 2 ^ 970

/-- The number of digits that `str` prints of an integer. -/
def maxStrDigits : ℕ := 4300

mutual

/-- An integer of too many digits is in the text of the value. -/
def PyVal.hasLongInt : PyVal → Bool
  | .int i => decide (maxStrDigits < (Nat.toDigits 10 i.natAbs).length)
  | .list items => hasLongIntList items
  | .tuple items => hasLongIntList items
  | .dict items => hasLongIntItems items
  | .none | .bool _ | .float _ | .str _ | .function _ | .view _ _ | .object _ => false

def PyVal.hasLongIntList : List PyVal → Bool
  | [] => false
  | v :: vs => PyVal.hasLongInt v || PyVal.hasLongIntList vs

def PyVal.hasLongIntItems : List (String × PyVal) → Bool
  | [] => false
  | (_, v) :: items => PyVal.hasLongInt v || PyVal.hasLongIntItems items

end

/-- A sum with floats in it meets an integer too large for one: the total of the integers
before the first float, or an integer after it. -/
def sumTooLarge : ℤ → List (ℤ ⊕ PyFloat) → Bool
  | _, [] => false
  | total, .inl i :: rest => sumTooLarge (total + i) rest
  | total, .inr _ :: rest => decide (floatLimit ≤ |total|) ||
      rest.any (Sum.elim (fun i => decide (floatLimit ≤ |i|)) fun _ => false)

/-- Rounded to so many decimal places the float is too large for one. -/
def roundsTooLarge : PyFloat → ℤ → Bool
  | .fin q, n => decide ((floatLimit : ℚ) ≤ |roundHalfEven (q * 10 ^ n) * (10 : ℚ) ^ (-n)|)
  | _, _ => false

/-- What is documented of the exceptions of the interpreter and the libraries. -/
structure LibraryErrors (py : Python) : Prop where
  ofInt : ∀ i, py.floats.ofInt i = none ↔ floatLimit ≤ |i|
  divInt : ∀ i j, j ≠ 0 → (py.floats.divInt i j = none ↔ floatLimit * |j| ≤ |i|)
  roundTo : ∀ x n, py.floats.roundTo x n = none ↔ roundsTooLarge x n = true
  sum : ∀ numbers, numbers.any (·.isRight) = true →
    (py.floats.sum numbers = none ↔ sumTooLarge 0 numbers = true)
  str : ∀ v, (∃ s, py.text.str v = .ok s) ↔ v.hasLongInt = false
  /-- `str`, `float` and `format` raise no `TypeError` on what the helpers give them. -/
  strError : ∀ v e, py.text.str v = .error e → e.caught = false
  floatOfError : ∀ s e, py.text.floatOf s = .error e → e.caught = false
  formatError : ∀ x spec e, py.text.format x spec = .error e → e.caught = false
  /-- Every float has a text with two decimal places. -/
  formatAmount : ∀ x, ∃ s, py.text.format x ",.2f" = .ok s
  fromIsoFormat : ∀ s e, py.fromIsoFormat s = .error e → ∃ msg, e = .valueError msg
  parseDateText : ∀ s e, py.parseDateText s = .error e →
    e = .typeError ∨ (∃ msg, e = .valueError msg) ∨ e = .overflowError
  /-- Bytes, complex numbers and methods know no other exception for these. -/
  order : ∀ op a b e, py.foreign.order op a b = .error e → e = .typeError
  unary : ∀ op kind e, py.foreign.unary op kind = .error e → e = .typeError
  iterate : ∀ kind e, py.foreign.iterate kind = .error e → e = .typeError
  sumStart : ∀ kind e, py.foreign.sumStart kind = .error e → e = .typeError
  call : ∀ kind args kwargs e, py.foreign.call kind args kwargs = .error e → e = .typeError

theorem not_breaks_of_typeError {α : Type} {x : Except BuiltinErr α}
    (h : ∀ e, x = .error e → e = .typeError) : ¬ Breaks x := by
  rintro ⟨e, he, hcaught⟩
  rw [h e he] at hcaught
  cases hcaught

/-! ### The operands of an operator -/

/-- An integer too large for a float meets a float. -/
def OverflowsBeside (a b : PyVal) : Prop :=
  match a.num?, b.num? with
  | some (.inl i), some (.inr _) => floatLimit ≤ |i|
  | some (.inr _), some (.inl j) => floatLimit ≤ |j|
  | _, _ => False

/-- The quotient of two integers is too large for a float. -/
def QuotientOverflows (a b : PyVal) : Prop :=
  match a.num?, b.num? with
  | some (.inl i), some (.inl j) => floatLimit * |j| ≤ |i|
  | _, _ => False

/-- The operator of a class that is not spelled out, such as bytes or complex numbers. -/
def ForeignBreaks (py : Python) (op : BinOperator) (a b : PyVal) : Prop :=
  (a.isForeign || b.isForeign) = true ∧ Breaks (py.foreign.binary op a b)

/-- The operands break an operator on numbers. -/
def NumericBreaks (py : Python) (op : BinOperator) (a b : PyVal) : Prop :=
  ForeignBreaks py op a b ∨ OverflowsBeside a b

/-- The sequence and the count of a product that repeats a sequence. -/
def repetition (a b : PyVal) : Option (PyVal × ℤ) :=
  match Python.isSequence a, Python.isSequence b, a.num?, b.num? with
  | true, _, _, some (.inl n) => some (a, n)
  | _, true, some (.inl n), _ => some (b, n)
  | _, _, _, _ => none

/-- The count is no index, or the items are more than the sequence can hold. -/
def RepeatOverflows (a : PyVal) (n : ℤ) : Prop :=
  maxSize < n ∨ n < -maxSize - 1 ∨
    match a with
    | .str s => maxSize < n * s.length
    | .list items => maxListSize < n * items.length
    | .tuple items => maxTupleSize < n * items.length
    | _ => False

/-- **The operands break an operator**: it raises what the calculations do not catch. -/
def BinaryBreaks (py : Python) (op : BinOperator) (a b : PyVal) : Prop :=
  match op with
  | .add | .sub => NumericBreaks py op a b
  | .mult => (∃ seq n, repetition a b = some (seq, n) ∧ RepeatOverflows seq n) ∨
      NumericBreaks py .mult a b
  | .div => py.eq b (.int 0) = false ∧ (NumericBreaks py .div a b ∨ QuotientOverflows a b)
  | .mod =>
      match a with
      | .str s => Breaks (py.text.printf s b)
      | a => NumericBreaks py .mod a b
  | .floorDiv | .pow | .lShift | .rShift | .bitOr | .bitXor | .bitAnd | .matMult => False

section Operators

variable {py : Python} {a b : PyVal}

theorem num?_of_isForeign {v : PyVal} (h : v.isForeign = true) : v.num? = none := by
  cases v <;> first | rfl | cases h

theorem isForeign_of_num? {v : PyVal} {n : ℤ ⊕ PyFloat} (h : v.num? = some n) :
    v.isForeign = false := by
  cases v <;> first | rfl | cases h

theorem not_foreignBreaks {op : BinOperator} (ha : a.isForeign = false) (hb : b.isForeign = false) :
    ¬ ForeignBreaks py op a b := by
  rintro ⟨h, -⟩
  rw [ha, hb] at h
  cases h

theorem not_overflowsBeside (h : a.num? = none ∨ b.num? = none) : ¬ OverflowsBeside a b := by
  unfold OverflowsBeside
  rcases h with h | h
  · rw [h]
    exact id
  · rw [h]
    cases a.num? with
    | none => exact id
    | some n => cases n <;> exact id

/-- A conversion to a float breaks on an integer that is too large. -/
theorem numToFloat_breaks_iff (laws : LibraryErrors py) (n : ℤ ⊕ PyFloat) :
    Breaks (py.numToFloat n) ↔ ∃ i, n = .inl i ∧ floatLimit ≤ |i| := by
  cases n with
  | inl i =>
    refine (breaks_elim (f := id)).trans ((laws.ofInt i).trans ?_)
    simp
  | inr x => exact iff_of_false (not_breaks_ok x) (by simp)

/-- **An operator on numbers breaks** on an operand of a class that is not spelled out, on
an integer beside a float, or where its integers break it. -/
theorem numeric_breaks_iff (laws : LibraryErrors py) {op : BinOperator}
    {onInt : ℤ → ℤ → Except BuiltinErr PyVal}
    {onFloat : PyFloat → PyFloat → Except BuiltinErr PyVal}
    (hfloat : ∀ x y, ¬ Breaks (onFloat x y)) :
    Breaks (py.numeric op onInt onFloat a b) ↔ NumericBreaks py op a b ∨
      ∃ i j, a.num? = some (.inl i) ∧ b.num? = some (.inl j) ∧ Breaks (onInt i j) := by
  unfold Python.numeric NumericBreaks
  by_cases hforeign : (a.isForeign || b.isForeign) = true
  · -- an object is no number, so the class of the object decides
    have hnone : a.num? = none ∨ b.num? = none :=
      (Bool.or_eq_true_iff.mp hforeign).imp num?_of_isForeign num?_of_isForeign
    have hints : ¬ ∃ i j, a.num? = some (.inl i) ∧ b.num? = some (.inl j) ∧
        Breaks (onInt i j) := by
      rintro ⟨i, j, hi, hj, -⟩
      rcases hnone with h | h
      · rw [h] at hi; cases hi
      · rw [h] at hj; cases hj
    rw [if_pos hforeign, or_iff_left hints, or_iff_left (not_overflowsBeside hnone)]
    exact ⟨fun h => ⟨hforeign, h⟩, fun h => h.2⟩
  · rw [if_neg hforeign, or_iff_right fun h : ForeignBreaks py op a b => hforeign h.1]
    unfold OverflowsBeside
    cases ha : a.num? with
    | none => simp [not_breaks_typeError]
    | some m =>
      cases hb : b.num? with
      | none => cases m <;> simp [not_breaks_typeError]
      | some n =>
        -- the operands are converted in order, and a float converts to itself
        cases m with
        | inl i =>
          cases n with
          | inl j => simp
          | inr y => simp [breaks_bind, numToFloat_breaks_iff laws, hfloat]
        | inr x =>
          have hx : py.numToFloat (.inr x) = .ok x := rfl
          cases n with
          | inl j => simp [hx, Failing.bind_of_ok, breaks_bind, numToFloat_breaks_iff laws, hfloat]
          | inr y => simp [breaks_bind, numToFloat_breaks_iff laws, hfloat]

theorem add_breaks_iff (laws : LibraryErrors py) :
    Breaks (py.add a b) ↔ BinaryBreaks py .add a b := by
  have hnumeric : Breaks (py.numeric .add (fun i j => .ok (.int (i + j)))
      (fun x y => .ok (.float (py.floats.add x y))) a b) ↔ NumericBreaks py .add a b := by
    rw [numeric_breaks_iff laws fun x y => not_breaks_ok _]
    simp [not_breaks_ok]
  -- two texts, two lists or two tuples are put together
  have hsequences : ∀ {v : PyVal}, a.isForeign = false → b.isForeign = false → a.num? = none →
      (Breaks (.ok v : Except BuiltinErr PyVal) ↔ BinaryBreaks py .add a b) := by
    intro v ha hb hnone
    refine iff_of_false (not_breaks_ok v) ?_
    rintro (h | h)
    · exact not_foreignBreaks ha hb h
    · exact not_overflowsBeside (Or.inl hnone) h
  unfold Python.add
  split
  · exact hsequences rfl rfl rfl
  · exact hsequences rfl rfl rfl
  · exact hsequences rfl rfl rfl
  · exact hnumeric

theorem sub_breaks_iff (laws : LibraryErrors py) :
    Breaks (py.sub a b) ↔ BinaryBreaks py .sub a b := by
  refine (numeric_breaks_iff laws fun x y => not_breaks_ok _).trans ?_
  simp [not_breaks_ok, BinaryBreaks]

theorem repeatSeq_breaks_iff (seq : PyVal) (n : ℤ) :
    Breaks (Python.repeatSeq seq n) ↔ RepeatOverflows seq n := by
  have hlimit : ∀ {limit length : ℤ} {e : BuiltinErr} {v : PyVal}, e.caught = false →
      (Breaks (if n * length > limit then .error e else .ok v) ↔ limit < n * length) := by
    intro limit length e v he
    split
    · exact iff_of_true ((breaks_error e).mpr he) (by omega)
    · exact iff_of_false (not_breaks_ok v) (by omega)
  unfold Python.repeatSeq RepeatOverflows
  split
  · exact iff_of_true ((breaks_error _).mpr rfl) (by omega)
  · rename_i hcount
    rw [or_iff_right fun h => hcount (Or.inl h), or_iff_right fun h => hcount (Or.inr h)]
    cases seq with
    | str s => exact hlimit rfl
    | list items | tuple items => exact hlimit rfl
    | none | bool | int | float | dict | function | view | object =>
      exact iff_of_false not_breaks_typeError id

/-- A product repeats a sequence, or is one of numbers. -/
theorem mul_eq (py : Python) (a b : PyVal) : py.mul a b =
    (repetition a b).elim (py.numeric .mult (fun i j => .ok (.int (i * j)))
      (fun x y => .ok (.float (py.floats.mul x y))) a b) fun p => Python.repeatSeq p.1 p.2 := by
  unfold Python.mul repetition
  cases Python.isSequence a <;> cases Python.isSequence b <;>
    rcases a.num? with _ | _ | _ <;> rcases b.num? with _ | _ | _ <;> rfl

/-- What repeats a sequence is no product of numbers. -/
theorem not_numericBreaks_of_repetition {p : PyVal × ℤ} (h : repetition a b = some p) :
    ¬ NumericBreaks py .mult a b := by
  have hsequence : ∀ {v : PyVal}, Python.isSequence v = true →
      v.isForeign = false ∧ v.num? = none := by
    intro v hv
    cases v <;> first | exact ⟨rfl, rfl⟩ | cases hv
  unfold repetition at h
  rintro (hbreaks | hbeside)
  · split at h
    · rename_i ha hn
      exact not_foreignBreaks (hsequence ha).1 (isForeign_of_num? hn) hbreaks
    · rename_i hb hn _
      exact not_foreignBreaks (isForeign_of_num? hn) (hsequence hb).1 hbreaks
    · cases h
  · split at h
    · rename_i ha hn
      exact not_overflowsBeside (Or.inl (hsequence ha).2) hbeside
    · rename_i hb hn _
      exact not_overflowsBeside (Or.inr (hsequence hb).2) hbeside
    · cases h

/-- A product breaks on numbers that overflow, and on a sequence that would be too long. -/
theorem mul_breaks_iff (laws : LibraryErrors py) :
    Breaks (py.mul a b) ↔ BinaryBreaks py .mult a b := by
  rw [mul_eq]
  unfold BinaryBreaks
  cases hrepetition : repetition a b with
  | some p =>
    have hno : ¬ NumericBreaks py .mult a b := not_numericBreaks_of_repetition hrepetition
    refine (repeatSeq_breaks_iff p.1 p.2).trans ⟨fun h => Or.inl ⟨p.1, p.2, rfl, h⟩, ?_⟩
    rintro (⟨seq, n, hp, h⟩ | h)
    · obtain rfl := Option.some.inj hp
      exact h
    · exact absurd h hno
  | none =>
    refine (numeric_breaks_iff laws fun x y => not_breaks_ok _).trans ?_
    simp [not_breaks_ok]

/-- An operand that is not equal to 0 is no integer 0. -/
theorem ne_zero_of_eq {j : ℤ} (hzero : py.eq b (.int 0) = false) (hj : b.num? = some (.inl j)) :
    j ≠ 0 := by
  rintro rfl
  cases b with
  | bool c =>
    cases c with
    | false => simp [Python.eq, PyVal.isForeign, PyVal.number?, PyFloat.eq] at hzero
    | true => simp [PyVal.num?] at hj
  | int i =>
    obtain rfl : i = 0 := by simpa [PyVal.num?] using hj
    simp [Python.eq, PyVal.isForeign, PyVal.number?, PyFloat.eq] at hzero
  | none | float | str | list | tuple | dict | function | view | object =>
    simp [PyVal.num?] at hj

/-- A quotient breaks on numbers that overflow, and when no float is as large as it is. -/
theorem div_breaks_iff (laws : LibraryErrors py) (hzero : py.eq b (.int 0) = false) :
    Breaks (py.div a b) ↔ NumericBreaks py .div a b ∨ QuotientOverflows a b := by
  refine (numeric_breaks_iff laws fun x y => not_breaks_ok _).trans (or_congr_right ?_)
  have hquotient : ∀ i j, b.num? = some (.inl j) →
      (Breaks ((py.floats.divInt i j).elim (.error .overflowError) fun x => .ok (PyVal.float x)) ↔
        floatLimit * |j| ≤ |i|) := by
    intro i j hj
    rw [breaks_elim, laws.divInt i j (ne_zero_of_eq hzero hj)]
  unfold QuotientOverflows
  constructor
  · rintro ⟨i, j, hi, hj, h⟩
    rw [hi, hj]
    exact (hquotient i j hj).mp h
  · intro h
    split at h
    · rename_i i j hi hj
      exact ⟨i, j, hi, hj, (hquotient i j hj).mpr h⟩
    · exact h.elim

/-- A remainder breaks on numbers that overflow, and a format on what its text asks for. -/
theorem mod_breaks_iff (laws : LibraryErrors py) :
    Breaks (py.mod a b) ↔ BinaryBreaks py .mod a b := by
  -- a remainder by 0 is caught
  have hint : ∀ i j, ¬ Breaks (if j = 0 then (.error .zeroDivisionError : Except BuiltinErr PyVal)
      else .ok (.int (Int.fmod i j))) := by
    intro i j
    split
    · exact (breaks_error _).not.mpr (by decide)
    · exact not_breaks_ok _
  have hfloat : ∀ x y, ¬ Breaks (if y = .fin 0
      then (.error .zeroDivisionError : Except BuiltinErr PyVal)
      else .ok (.float (py.floats.mod x y))) := by
    intro x y
    split
    · exact (breaks_error _).not.mpr (by decide)
    · exact not_breaks_ok _
  cases a with
  | str s => exact Iff.rfl
  | none | bool | int | float | list | tuple | dict | function | view | object =>
    simp only [Python.mod, BinaryBreaks]
    rw [numeric_breaks_iff laws hfloat]
    simp [hint]

/-- **An operator raises what is not caught exactly when its operands break it.** -/
theorem binOp_aborts_iff (laws : LibraryErrors py) (op : BinOperator) :
    Aborts (py.binOp op a b) ↔ BinaryBreaks py op a b := by
  cases op with
  | add => exact aborts_builtin.trans (add_breaks_iff laws)
  | sub => exact aborts_builtin.trans (sub_breaks_iff laws)
  | mult => exact aborts_builtin.trans (mul_breaks_iff laws)
  | div =>
    rw [Python.binOp, BinaryBreaks]
    cases hzero : py.eq b (.int 0) with
    | true =>
      rw [if_pos rfl]
      exact iff_of_false ((raises_error _).not.mpr (by decide)) (by simp)
    | false =>
      rw [if_neg (by decide), aborts_builtin, div_breaks_iff laws hzero]
      simp
  | mod => exact aborts_builtin.trans (mod_breaks_iff laws)
  | floorDiv | pow | lShift | rShift | bitOr | bitXor | bitAnd | matMult =>
    exact iff_of_false (not_aborts_formula _) id

/-! ### Signs, comparisons and iteration -/

theorem not_aborts_unaryOp (laws : LibraryErrors py) (op : UnaryOperator) (v : PyVal) :
    ¬ Aborts (py.unaryOp op v) := by
  cases op with
  | uSub =>
    rw [Python.unaryOp, aborts_builtin]
    unfold Python.neg
    split
    · exact not_breaks_of_typeError (laws.unary _ _)
    · split
      · exact not_breaks_ok _
      · exact not_breaks_ok _
      · exact not_breaks_typeError
  | uAdd =>
    rw [Python.unaryOp, aborts_builtin]
    unfold Python.pos
    split
    · exact not_breaks_of_typeError (laws.unary _ _)
    · split
      · exact not_breaks_ok _
      · exact not_breaks_ok _
      · exact not_breaks_typeError
  | not | invert => exact not_aborts_formula _

/-- **A comparison raises nothing but a `TypeError`**: lists and tuples compare items, and
the items numbers, texts or objects. -/
theorem not_breaks_order (laws : LibraryErrors py) (op : CmpOp) (a b : PyVal) :
    ¬ Breaks (py.order op a b) := by
  -- By the recursion of the comparison: texts, lists, tuples, objects, numbers, and the rest.
  refine Python.order.induct py (fun a b => ¬ Breaks (py.order op a b))
    (fun as bs => ¬ Breaks (py.orderList op as bs)) ?_ ?_ ?_ ?_ ?_ ?_ ?_ ?_ ?_ a b
  · intro a b
    rw [Python.order]
    exact not_breaks_ok _
  · intro a b ih
    rwa [Python.order]
  · intro a b ih
    rwa [Python.order]
  · intro a b hstr hlist htuple hforeign
    rw [Python.order.eq_4 py op a b hstr hlist htuple, if_pos hforeign]
    exact not_breaks_of_typeError (laws.order op a b)
  · intro a b hstr hlist htuple hforeign x y hy hx
    rw [Python.order.eq_4 py op a b hstr hlist htuple, if_neg hforeign, hx, hy]
    exact not_breaks_ok _
  · intro a b hstr hlist htuple hforeign hnumbers
    rw [Python.order.eq_4 py op a b hstr hlist htuple, if_neg hforeign]
    split
    · rename_i x y hx hy
      exact (hnumbers x y hx hy).elim
    · exact not_breaks_typeError
  · intro a as b bs heq ih
    rwa [Python.orderList, if_pos heq]
  · intro a as b bs heq ih
    rwa [Python.orderList, if_neg heq]
  · intro as bs hends
    rw [Python.orderList.eq_2 py op as bs hends]
    exact not_breaks_ok _

theorem not_breaks_compare (laws : LibraryErrors py) (op : CmpOp) (a b : PyVal) :
    ¬ Breaks (py.compare op a b) := by
  unfold Python.compare
  cases op with
  | lt | ltE | gt | gtE => exact not_breaks_order laws _ a b
  | eq | notEq | is | isNot | «in» | notIn => exact not_breaks_ok _

theorem not_breaks_iterate (laws : LibraryErrors py) (v : PyVal) : ¬ Breaks (py.iterate v) := by
  cases v with
  | list | tuple | str | dict => exact not_breaks_ok _
  | object kind => exact not_breaks_of_typeError (laws.iterate kind)
  | none | bool | int | float | function | view => exact not_breaks_typeError

/-- `float` breaks on a text that is no numeral and on an integer that is too large. -/
def FloatBreaks (py : Python) (v : PyVal) : Prop :=
  match v with
  | .str s => ∀ x, py.text.floatOf s ≠ .ok x
  | .object kind => Breaks (py.foreign.toFloat kind)
  | v => ∃ i, v.num? = some (.inl i) ∧ floatLimit ≤ |i|

theorem toFloat_breaks_iff (laws : LibraryErrors py) (v : PyVal) :
    Breaks (py.toFloat v) ↔ FloatBreaks py v := by
  have hnumber : ∀ n : Option (ℤ ⊕ PyFloat), Breaks (n.elim (.error .typeError) py.numToFloat) ↔
      ∃ i, n = some (.inl i) ∧ floatLimit ≤ |i| := by
    intro n
    cases n with
    | none => exact iff_of_false not_breaks_typeError (by simp)
    | some n => simpa using numToFloat_breaks_iff laws n
  cases v with
  | str s =>
    rw [Python.toFloat, FloatBreaks]
    constructor
    · rintro ⟨e, he, -⟩ x hx
      rw [he] at hx
      cases hx
    · intro hno
      cases hfloat : py.text.floatOf s with
      | ok x => exact absurd hfloat (hno x)
      | error e => exact (breaks_error e).mpr (laws.floatOfError s e hfloat)
  | object kind => exact Iff.rfl
  | none | bool | int | float | list | tuple | dict | function | view =>
    simp only [Python.toFloat, FloatBreaks]
    exact hnumber _

end Operators

end ExtractFlow
