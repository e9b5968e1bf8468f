import ExtractFlow.OperatorLimits

/-!
# The limits of helpers

Most helpers raise nothing but a `TypeError` whatever they are called on: `count`,
`coalesce`, `iff`, `lookup` and the three that measure the time between two dates.
The others have arguments they do not survive: `min` and `max` an empty list without a
default, `floor`, `ceil` and `round` an infinity or the not-a-number,
`format_currency` and `format_percent` a text that is no numeral, `sum`, `avg` and
`convert_unit` the limits of the operators they apply.

A call binds its arguments first, so each of the conditions is one on the values of the
parameters.

## Main definitions

* `SumBreaks`, `AvgBreaks`, `ExtremumBreaks`, `RoundBreaks`, `ConvertUnitBreaks`,
  `FormatCurrencyBreaks`, `FormatPercentBreaks` — the arguments break a helper.
* `HelperBreaks` — the same of every helper, by name.
* `CallBreaks` — the call of a value breaks.

## Main results

* `callHelperWith_aborts_iff` — a helper raises what is not caught exactly then.
* `callValue_aborts_iff` — so does the call of a value.
-/

namespace ExtractFlow

/-! ### What breaks a helper -/

/-- The items break a sum: numbers by their size, other items by an addition. -/
def AdditionsBreak (py : Python) (items : List PyVal) (start : PyVal) : Prop :=
  match (start :: items).mapM PyVal.num? with
  | some numbers => sumTooLarge 0 numbers = true
  | none => ∃ before item after total, items = before ++ item :: after ∧
      before.foldlM py.add start = .ok total ∧ BinaryBreaks py .add total item

/-- The arguments of `sum`, its first one iterated: a text is no start, and with any other the
additions are made in turn. -/
def SumBreaks (py : Python) (items : List PyVal) (start : PyVal) : Prop :=
  match start with
  | .str _ => False
  | .object kind => py.foreign.sumStart kind = .ok () ∧ AdditionsBreak py items start
  | start => AdditionsBreak py items start

/-- The numbers among the values have no sum, or their sum has no quotient by their count. -/
def AvgBreaks (py : Python) (values : PyVal) : Prop :=
  ∃ items numbers, py.iterate values = .ok items ∧
    numbers = (items.filter fun v => v.num?.isSome) ∧ numbers ≠ [] ∧
    (SumBreaks py numbers (.int 0) ∨ ∃ total, py.sumFrom numbers (.int 0) = .ok total ∧
      BinaryBreaks py .div total (.int numbers.length))

/-- The key of `min` and `max` on an item; without a key it is the item. -/
def keyOf (callKey : PyVal → PyVal → Except EvalErr PyVal) (kwargs : Kwargs) (item : PyVal) :
    Except EvalErr PyVal :=
  match PyVal.dictGet kwargs "key" with
  | none => .ok item
  | some .none => .ok item
  | some f => callKey f item

/-- The best of some items, the first of them to begin with. -/
def bestOf (better : PyVal → PyVal → Except BuiltinErr Bool) (key : PyVal → Except EvalErr PyVal) :
    List PyVal → Except EvalErr PyVal
  | [] => .ok .none
  | item :: rest => do best better key (item, ← key item) rest

/-- The key breaks on an item, after the items before it were compared. -/
def KeyBreaks (better : PyVal → PyVal → Except BuiltinErr Bool)
    (key : PyVal → Except EvalErr PyVal) (breaks : PyVal → Prop) (items : List PyVal) : Prop :=
  ∃ before item after, items = before ++ item :: after ∧
    (∃ v, bestOf better key before = .ok v) ∧ breaks item

/-- `min` and `max` get one argument without items and no default, or a key that breaks. -/
def ExtremumBreaks (py : Python) (op : CmpOp) (callKey : PyVal → PyVal → Except EvalErr PyVal)
    (keyBreaks : PyVal → PyVal → Prop) (args : List PyVal) (kwargs : Kwargs) : Prop :=
  let breaks := fun item => ∃ f, PyVal.dictGet kwargs "key" = some f ∧ f.isNone = false ∧
    keyBreaks f item
  (kwargs.any fun kw => kw.1 != "default" && kw.1 != "key") = false ∧
    match args with
    | [] => False
    | [iterable] => ∃ items, py.iterate iterable = .ok items ∧
        ((items = [] ∧ PyVal.dictGet kwargs "default" = none) ∨
          KeyBreaks (py.order op) (keyOf callKey kwargs) breaks items)
    | items => PyVal.dictGet kwargs "default" = none ∧
        KeyBreaks (py.order op) (keyOf callKey kwargs) breaks items

/-- An infinity or the not-a-number. -/
def PyFloat.isNonFinite : PyFloat → Bool
  | .fin _ => false
  | _ => true

/-- The argument of `floor` and `ceil`. -/
def IntegralBreaks (v : PyVal) : Prop := ∃ x, v.num? = some (.inr x) ∧ x.isNonFinite = true

/-- A float that is not finite has no nearest integer, and a rounded one may be too large. -/
def RoundBreaks (number ndigits : PyVal) : Prop :=
  match number.num?, ndigits, ndigits.num? with
  | some (.inr x), .none, _ => x.isNonFinite = true
  | some (.inr x), _, some (.inl n) => roundsTooLarge x n = true
  | _, _, _ => False

/-- The container is an object of a class that is not spelled out, such as bytes. -/
def ContainsBreaks (py : Python) (container item : PyVal) : Prop :=
  match container with
  | .object kind => Breaks (py.foreign.contains kind item)
  | _ => False

/-- The conversions of `convert_unit`: an operator and its second operand. -/
def unitConversion : PyVal → PyVal → Option (BinOperator × ℕ)
  | .str "days", .str "months" => some (.div, 30)
  | .str "months", .str "days" => some (.mult, 30)
  | .str "years", .str "months" => some (.mult, 12)
  | .str "months", .str "years" => some (.div, 12)
  | _, _ => none

/-- The number breaks the conversion of its units, or units that have none are too long for
the message. -/
def ConvertUnitBreaks (py : Python) (number fromUnit toUnit : PyVal) : Prop :=
  number.isNone = false ∧ py.eq fromUnit toUnit = false ∧
    fromUnit.hashable = true ∧ toUnit.hashable = true ∧
    match unitConversion fromUnit toUnit with
    | some (op, n) => BinaryBreaks py op number (.int n)
    | none => fromUnit.hasLongInt = true ∨ toUnit.hasLongInt = true

/-- The amount is no number `float` takes, or the currency has no text. -/
def FormatCurrencyBreaks (py : Python) (amount currency : PyVal) : Prop :=
  amount.isNone = false ∧ (currency.hasLongInt = true ∨ FloatBreaks py amount)

/-- The value is no number `float` takes, or the places make no format. -/
def FormatPercentBreaks (py : Python) (value decimalPlaces : PyVal) : Prop :=
  value.isNone = false ∧ (FloatBreaks py value ∨ ∃ x, py.toFloat value = .ok x ∧
    (decimalPlaces.hasLongInt = true ∨ ∃ places, py.text.str decimalPlaces = .ok places ∧
      ∀ text, py.text.format x s!".{places}f" ≠ .ok text))

/-- The arguments of a call bind to the parameters, and break the function as their values. -/
def BoundBreaks (params : List Param) (args : List PyVal) (kwargs : Kwargs)
    (breaks : List PyVal → Prop) : Prop :=
  ∃ bound, bindArgs params args kwargs = .ok bound ∧ breaks bound

/-- **The arguments break a helper**: its call raises what the calculations do not catch. -/
def HelperBreaks (py : Python) (callKey : PyVal → PyVal → Except EvalErr PyVal)
    (keyBreaks : PyVal → PyVal → Prop) (name : String) (args : List PyVal) (kwargs : Kwargs) :
    Prop :=
  match name with
  | "sum" => BoundBreaks [.positional, .optional "start" (.int 0)] args kwargs fun
      | [iterable, start] => ∃ items, py.iterate iterable = .ok items ∧ SumBreaks py items start
      | _ => False
  | "avg" => BoundBreaks [.required "values"] args kwargs fun
      | [values] => AvgBreaks py values
      | _ => False
  | "min" => ExtremumBreaks py .lt callKey keyBreaks args kwargs
  | "max" => ExtremumBreaks py .gt callKey keyBreaks args kwargs
  | "round" => BoundBreaks [.required "number", .optional "ndigits" .none] args kwargs fun
      | [number, ndigits] => RoundBreaks number ndigits
      | _ => False
  | "floor" | "ceil" => BoundBreaks [.positional] args kwargs fun
      | [v] => IntegralBreaks v
      | _ => False
  | "contains" => BoundBreaks [.required "container", .required "item"] args kwargs fun
      | [container, item] => ContainsBreaks py container item
      | _ => False
  | "convert_unit" =>
      BoundBreaks [.required "number", .required "from_unit", .required "to_unit"] args kwargs fun
      | [number, fromUnit, toUnit] => ConvertUnitBreaks py number fromUnit toUnit
      | _ => False
  | "format_currency" =>
      BoundBreaks [.required "amount", .optional "currency" (.str "USD")] args kwargs fun
      | [amount, currency] => FormatCurrencyBreaks py amount currency
      | _ => False
  | "format_percent" =>
      BoundBreaks [.required "value", .optional "decimal_places" (.int 2)] args kwargs fun
      | [value, decimalPlaces] => FormatPercentBreaks py value decimalPlaces
      | _ => False
  -- `count`, `coalesce`, `iff`, `lookup` and the helpers on dates
  | _ => False

/-- The call of a key breaks: a helper, whose own key would be no function. -/
def KeyCallBreaks (py : Python) (f item : PyVal) : Prop :=
  match f with
  | .function name =>
      HelperBreaks py (fun _ _ => raiseTypeError) (fun _ _ => False) name [item] []
  | _ => False

/-- **The call of a value breaks**: it is a helper, and its arguments break it. -/
def CallBreaks (py : Python) (f : PyVal) (args : List PyVal) (kwargs : Kwargs) : Prop :=
  match f with
  | .function name => HelperBreaks py py.callKey (KeyCallBreaks py) name args kwargs
  | _ => False

/-! ### Sums -/

section Sums

variable {py : Python} {a b : PyVal}

/-- The value of an integer, or of a truth value. -/
def PyVal.IsInt (v : PyVal) : Prop := ∃ i, v.num? = some (.inl i)

theorem add_of_ints {i j : ℤ} (ha : a.num? = some (.inl i)) (hb : b.num? = some (.inl j)) :
    py.add a b = .ok (.int (i + j)) := by
  have hnumeric : py.add a b = py.numeric .add (fun i j => .ok (.int (i + j)))
      (fun x y => .ok (.float (py.floats.add x y))) a b := by
    cases a with
    | bool | int | float => rfl
    | none | str | list | tuple | dict | function | view | object => cases ha
  rw [hnumeric, Python.numeric, isForeign_of_num? ha, isForeign_of_num? hb, ha, hb]
  rfl

/-- Integers add up to an integer. -/
theorem foldlM_add_of_ints : ∀ {items : List PyVal} {start : PyVal}, start.IsInt →
    (∀ v ∈ items, v.IsInt) → ∃ total, items.foldlM py.add start = .ok total ∧ total.IsInt := by
  intro items
  induction items with
  | nil => exact fun hstart _ => ⟨_, rfl, hstart⟩
  | cons item items ih =>
    rintro start ⟨i, hi⟩ hitems
    obtain ⟨⟨j, hj⟩, hrest⟩ := List.forall_mem_cons.mp hitems
    rw [List.foldlM_cons, Failing.bind_of_ok (add_of_ints hi hj)]
    exact ih ⟨i + j, rfl⟩ hrest

theorem isInt_of_mapM : ∀ {items : List PyVal} {numbers : List (ℤ ⊕ PyFloat)},
    items.mapM PyVal.num? = some numbers → numbers.any (·.isRight) = false →
      ∀ v ∈ items, v.IsInt := by
  intro items
  induction items with
  | nil => intro numbers _ _ v hv; cases hv
  | cons item items ih =>
    intro numbers h hints
    rw [List.mapM_cons] at h
    obtain ⟨n, hn, h⟩ := Option.bind_eq_some_iff.mp h
    obtain ⟨rest, hrest, h⟩ := Option.bind_eq_some_iff.mp h
    obtain rfl := Option.some.inj h
    rw [List.any_cons, Bool.or_eq_false_iff] at hints
    refine List.forall_mem_cons.mpr ⟨?_, ih hrest hints.2⟩
    cases n with
    | inl i => exact ⟨i, hn⟩
    | inr x => exact absurd hints.1 (by simp)

theorem isSome_mapM_num? : ∀ {items : List PyVal}, (∀ v ∈ items, v.num?.isSome = true) →
    ∃ numbers, items.mapM PyVal.num? = some numbers := by
  intro items
  induction items with
  | nil => exact fun _ => ⟨[], rfl⟩
  | cons item items ih =>
    intro h
    obtain ⟨hitem, hrest⟩ := List.forall_mem_cons.mp h
    obtain ⟨n, hn⟩ := Option.isSome_iff_exists.mp hitem
    obtain ⟨numbers, hnumbers⟩ := ih hrest
    exact ⟨n :: numbers, by rw [List.mapM_cons, hn, hnumbers]; rfl⟩

/-- A sum without floats is not too large. -/
theorem not_sumTooLarge : ∀ {numbers : List (ℤ ⊕ PyFloat)} {total : ℤ},
    numbers.any (·.isRight) = false → ¬ sumTooLarge total numbers = true := by
  intro numbers
  induction numbers with
  | nil => exact fun _ h => by cases h
  | cons n numbers ih =>
    intro total h
    rw [List.any_cons, Bool.or_eq_false_iff] at h
    cases n with
    | inl i => exact ih h.2
    | inr x => exact absurd h.1 (by simp)

theorem sumItems_breaks_iff (laws : LibraryErrors py) (items : List PyVal) (start : PyVal) :
    Breaks (py.sumItems items start) ↔ AdditionsBreak py items start := by
  unfold Python.sumItems AdditionsBreak
  cases hnumbers : (start :: items).mapM PyVal.num? with
  | some numbers =>
    dsimp only
    cases hfloats : numbers.any (·.isRight) with
    | true =>
      rw [if_pos rfl, breaks_elim]
      exact laws.sum numbers hfloats
    | false =>
      -- integers have no limit
      rw [if_neg (by decide)]
      obtain ⟨hstart, hitems⟩ := List.forall_mem_cons.mp (isInt_of_mapM hnumbers hfloats)
      obtain ⟨total, htotal, -⟩ := foldlM_add_of_ints hstart hitems
      rw [htotal]
      exact iff_of_false (not_breaks_ok total) (not_sumTooLarge hfloats)
  | none =>
    dsimp only
    constructor
    · rintro ⟨e, he, hcaught⟩
      obtain ⟨before, item, after, total, hitems, hbefore, hadd⟩ := Failing.foldlM_error_iff.mp he
      exact ⟨before, item, after, total, hitems, hbefore,
        (add_breaks_iff laws).mp ⟨e, hadd, hcaught⟩⟩
    · rintro ⟨before, item, after, total, hitems, hbefore, hbreaks⟩
      obtain ⟨e, he, hcaught⟩ := (add_breaks_iff laws).mpr hbreaks
      exact ⟨e, Failing.foldlM_error_iff.mpr ⟨before, item, after, total, hitems, hbefore, he⟩,
        hcaught⟩

theorem sumFrom_breaks_iff (laws : LibraryErrors py) (items : List PyVal) (start : PyVal) :
    Breaks (py.sumFrom items start) ↔ SumBreaks py items start := by
  cases start with
  | str s => exact iff_of_false not_breaks_typeError id
  | object kind =>
    rw [Python.sumFrom, breaks_bind, or_iff_right (not_breaks_of_typeError (laws.sumStart kind))]
    simp only [sumItems_breaks_iff laws, SumBreaks]
    constructor
    · rintro ⟨_, hstart, h⟩
      exact ⟨hstart, h⟩
    · rintro ⟨hstart, h⟩
      exact ⟨(), hstart, h⟩
  | none | bool | int | float | list | tuple | dict | function | view =>
    simp only [Python.sumFrom, SumBreaks]
    exact sumItems_breaks_iff laws items _

/-- The sum of numbers is a number. -/
theorem isForeign_of_sumFrom {numbers : List PyVal} {total : PyVal}
    (hnumbers : ∀ v ∈ numbers, v.num?.isSome = true)
    (h : py.sumFrom numbers (.int 0) = .ok total) : total.isForeign = false := by
  obtain ⟨ns, hns⟩ : ∃ ns, (.int 0 :: numbers).mapM PyVal.num? = some ns :=
    isSome_mapM_num? (List.forall_mem_cons.mpr ⟨rfl, hnumbers⟩)
  have h : py.sumItems numbers (.int 0) = .ok total := h
  unfold Python.sumItems at h
  rw [hns] at h
  dsimp only at h
  cases hfloats : ns.any (·.isRight) with
  | true =>
    rw [hfloats, if_pos rfl] at h
    cases hsum : py.floats.sum ns with
    | none => rw [hsum] at h; cases h
    | some x =>
      rw [hsum] at h
      obtain rfl := Except.ok.inj h
      rfl
  | false =>
    rw [hfloats, if_neg (by decide)] at h
    obtain ⟨hstart, hitems⟩ := List.forall_mem_cons.mp (isInt_of_mapM hns hfloats)
    obtain ⟨total', htotal, i, hi⟩ := foldlM_add_of_ints hstart hitems
    obtain rfl := Except.ok.inj (htotal.symm.trans h)
    exact isForeign_of_num? hi

/-- A quotient of numbers is a float. -/
theorem div_float (ha : a.isForeign = false) (hb : b.isForeign = false) {v : PyVal}
    (h : py.div a b = .ok v) : ∃ x, v = .float x := by
  unfold Python.div Python.numeric at h
  rw [ha, hb, if_neg (by decide)] at h
  split at h
  · rename_i i j _ _
    dsimp only at h
    cases hdiv : py.floats.divInt i j with
    | none => rw [hdiv] at h; cases h
    | some x =>
      rw [hdiv] at h
      obtain rfl := Except.ok.inj h
      exact ⟨x, rfl⟩
  · obtain ⟨x, -, h⟩ := Failing.bind_ok.mp h
    obtain ⟨y, -, h⟩ := Failing.bind_ok.mp h
    obtain rfl := Except.ok.inj h
    exact ⟨_, rfl⟩
  · cases h

theorem eq_int_zero {n : ℕ} (h : n ≠ 0) : py.eq (.int n) (.int 0) = false := by
  simp [Python.eq, PyVal.isForeign, PyVal.number?, PyFloat.eq, h]

theorem avg_breaks_iff (laws : LibraryErrors py) (values : PyVal) :
    Breaks (py.avg values) ↔ AvgBreaks py values := by
  unfold Python.avg AvgBreaks
  rw [breaks_bind, or_iff_right (not_breaks_iterate laws values)]
  refine exists_congr fun items => ?_
  generalize hnumbers : (items.filter fun v => v.num?.isSome) = numbers
  have hnum : ∀ v ∈ numbers, v.num?.isSome = true := by
    intro v hv
    rw [← hnumbers] at hv
    exact (List.mem_filter.mp hv).2
  have hbody : Breaks (if numbers.isEmpty then (.ok .none : Except BuiltinErr PyVal) else do
      let total ← py.sumFrom numbers (.int 0)
      let mean ← py.div total (.int numbers.length)
      return .float (← py.toFloat mean)) ↔ numbers ≠ [] ∧
        (SumBreaks py numbers (.int 0) ∨ ∃ total, py.sumFrom numbers (.int 0) = .ok total ∧
          BinaryBreaks py .div total (.int numbers.length)) := by
    cases numbers with
    | nil => exact iff_of_false (not_breaks_ok _) (fun h => h.1 rfl)
    | cons n numbers =>
      have hzero : py.eq (.int (n :: numbers).length) (.int 0) = false := eq_int_zero (by simp)
      rw [if_neg (by simp), breaks_bind, sumFrom_breaks_iff laws]
      refine Iff.trans (or_congr_right (exists_congr fun total => and_congr_right fun htotal => ?_))
        (and_iff_right (List.cons_ne_nil n numbers)).symm
      have hforeign : total.isForeign = false := isForeign_of_sumFrom hnum htotal
      rw [breaks_bind, div_breaks_iff laws hzero, BinaryBreaks]
      simp only [hzero, true_and]
      refine or_iff_left ?_
      -- the mean is a float already
      rintro ⟨mean, hmean, hbreaks⟩
      obtain ⟨x, rfl⟩ := div_float hforeign rfl hmean
      exact not_breaks_ok _ hbreaks
  constructor
  · rintro ⟨hitems, h⟩
    exact ⟨numbers, hitems, rfl, hbody.mp h⟩
  · rintro ⟨numbers', hitems, rfl, h⟩
    exact ⟨hitems, hbody.mpr h⟩

end Sums

/-! ### The best item -/

section Best

variable {py : Python} {better : PyVal → PyVal → Except BuiltinErr Bool}
  {key : PyVal → Except EvalErr PyVal} {breaks : PyVal → Prop}

/-- The search for the best item aborts where the key does. -/
theorem best_aborts_iff (hbetter : ∀ v w, ¬ Breaks (better v w))
    (hkey : ∀ v, Aborts (key v) ↔ breaks v) : ∀ {rest : List PyVal} {first : PyVal × PyVal},
    Aborts (best better key first rest) ↔ ∃ before next after, rest = before ++ next :: after ∧
      (∃ v, best better key first before = .ok v) ∧ breaks next := by
  -- over the items: the key is called on each until one call aborts
  intro rest
  induction rest with
  | nil =>
    rintro ⟨item, value⟩
    refine iff_of_false (not_aborts_ok item) ?_
    rintro ⟨before, next, after, hrest, -⟩
    simp at hrest
  | cons next rest ih =>
    rintro ⟨item, value⟩
    rw [best, aborts_bind, hkey]
    constructor
    · rintro (h | ⟨candidate, hcandidate, h⟩)
      · exact ⟨[], next, rest, rfl, ⟨item, rfl⟩, h⟩
      · rcases aborts_bind.mp h with h | ⟨wins, hwins, h⟩
        · exact absurd (aborts_builtin.mp h) (hbetter _ _)
        · -- the winner of the two goes on
          have hstep : ∀ before, best better key (item, value) (next :: before) =
              best better key (if wins then (next, candidate) else (item, value)) before := by
            intro before
            rw [best, hcandidate, Failing.bind_of_ok rfl, hwins, Failing.bind_of_ok rfl]
            cases wins <;> rfl
          have h : Aborts (best better key (if wins then (next, candidate) else (item, value))
              rest) := by
            cases wins <;> exact h
          obtain ⟨before, broken, after, rfl, ⟨v, hv⟩, hbreaks⟩ := ih.mp h
          exact ⟨next :: before, broken, after, rfl, ⟨v, (hstep before).trans hv⟩, hbreaks⟩
    · rintro ⟨before, broken, after, hrest, ⟨v, hv⟩, hbreaks⟩
      cases before with
      | nil =>
        obtain ⟨rfl, rfl⟩ := List.cons.inj hrest
        exact Or.inl hbreaks
      | cons first before =>
        obtain ⟨rfl, rfl⟩ := List.cons.inj hrest
        rw [best] at hv
        obtain ⟨candidate, hcandidate, hv⟩ := Failing.bind_ok.mp hv
        obtain ⟨wins, hwins, hv⟩ := Failing.bind_ok.mp hv
        refine Or.inr ⟨candidate, hcandidate, aborts_bind.mpr (Or.inr ⟨wins, hwins, ?_⟩)⟩
        cases wins with
        | true => exact ih.mpr ⟨before, broken, after, rfl, ⟨v, hv⟩, hbreaks⟩
        | false => exact ih.mpr ⟨before, broken, after, rfl, ⟨v, hv⟩, hbreaks⟩

theorem bestOf_aborts_iff (hbetter : ∀ v w, ¬ Breaks (better v w))
    (hkey : ∀ v, Aborts (key v) ↔ breaks v) (items : List PyVal) :
    Aborts (bestOf better key items) ↔ KeyBreaks better key breaks items := by
  unfold KeyBreaks
  cases items with
  | nil =>
    refine iff_of_false (not_aborts_ok _) ?_
    rintro ⟨before, item, after, hitems, -⟩
    simp at hitems
  | cons item rest =>
    rw [bestOf, aborts_bind, hkey]
    constructor
    · rintro (h | ⟨value, hvalue, h⟩)
      · exact ⟨[], item, rest, rfl, ⟨.none, rfl⟩, h⟩
      · obtain ⟨before, broken, after, rfl, ⟨v, hv⟩, hbreaks⟩ :=
          (best_aborts_iff hbetter hkey).mp h
        exact ⟨item :: before, broken, after, rfl,
          ⟨v, by rw [bestOf, hvalue, Failing.bind_of_ok rfl, hv]⟩, hbreaks⟩
    · rintro ⟨before, broken, after, hitems, ⟨v, hv⟩, hbreaks⟩
      -- The key breaks on the first item, or on one behind a best so far.
      cases before with
      | nil =>
        obtain ⟨rfl, rfl⟩ := List.cons.inj hitems
        exact Or.inl hbreaks
      | cons first before =>
        obtain ⟨rfl, rfl⟩ := List.cons.inj hitems
        rw [bestOf] at hv
        obtain ⟨value, hvalue, hv⟩ := Failing.bind_ok.mp hv
        exact Or.inr ⟨value, hvalue,
          (best_aborts_iff hbetter hkey).mpr ⟨before, broken, after, rfl, ⟨v, hv⟩, hbreaks⟩⟩

/-- The key of a call aborts where the function it names does. -/
theorem keyOf_aborts_iff {callKey : PyVal → PyVal → Except EvalErr PyVal}
    {keyBreaks : PyVal → PyVal → Prop} (hkey : ∀ f v, Aborts (callKey f v) ↔ keyBreaks f v)
    (kwargs : Kwargs) (item : PyVal) : Aborts (keyOf callKey kwargs item) ↔
      ∃ f, PyVal.dictGet kwargs "key" = some f ∧ f.isNone = false ∧ keyBreaks f item := by
  unfold keyOf
  split
  · rename_i hnone
    exact iff_of_false (not_aborts_ok _) (by simp [hnone])
  · rename_i hnone
    refine iff_of_false (not_aborts_ok _) ?_
    rintro ⟨f, hf, hno, -⟩
    obtain rfl := Option.some.inj (hnone.symm.trans hf)
    cases hno
  · rename_i f hno hf
    rw [hkey]
    constructor
    · intro h
      refine ⟨f, hf, ?_, h⟩
      cases f with
      | none => exact (hno rfl).elim
      | _ => rfl
    · rintro ⟨f', hf', -, h⟩
      obtain rfl := Option.some.inj (hf.symm.trans hf')
      exact h

/-- **`min` and `max` break** on no items without a default, and where their key does. -/
theorem extremum_aborts_iff (laws : LibraryErrors py)
    {callKey : PyVal → PyVal → Except EvalErr PyVal}
    {keyBreaks : PyVal → PyVal → Prop} (hkey : ∀ f v, Aborts (callKey f v) ↔ keyBreaks f v)
    (name : String) (op : CmpOp) (args : List PyVal) (kwargs : Kwargs) :
    Aborts (py.extremum name op callKey args kwargs) ↔
      ExtremumBreaks py op callKey keyBreaks args kwargs := by
  have hbest : ∀ items, Aborts (bestOf (py.order op) (keyOf callKey kwargs) items) ↔ _ :=
    bestOf_aborts_iff (not_breaks_order laws op) (keyOf_aborts_iff hkey kwargs)
  unfold Python.extremum ExtremumBreaks
  cases hkwargs : kwargs.any fun kw => kw.1 != "default" && kw.1 != "key" with
  | true =>
    rw [if_pos rfl]
    exact iff_of_false not_aborts_typeError (fun h => by cases h.1)
  | false =>
    rw [if_neg (by decide)]
    refine Iff.trans ?_ (and_iff_right rfl).symm
    -- no argument, an iterable, or the items themselves
    match args with
    | [] => exact iff_of_false not_aborts_typeError id
    | [iterable] =>
      dsimp only
      rw [aborts_bind, aborts_builtin, or_iff_right (not_breaks_iterate laws iterable)]
      refine exists_congr fun items => and_congr builtin_ok ?_
      cases items with
      | nil =>
        have hno : ¬ KeyBreaks (py.order op) (keyOf callKey kwargs) (fun item =>
            ∃ f, PyVal.dictGet kwargs "key" = some f ∧ f.isNone = false ∧ keyBreaks f item) [] := by
          rintro ⟨before, item, after, hitems, -⟩
          simp at hitems
        rw [or_iff_left hno]
        cases hdefault : PyVal.dictGet kwargs "default" with
        | none => exact iff_of_true ⟨_, rfl, rfl⟩ ⟨rfl, rfl⟩
        | some v => exact iff_of_false (not_aborts_ok v) (by simp)
      | cons item rest =>
        rw [or_iff_right (by simp)]
        exact hbest (item :: rest)
    | item :: next :: rest =>
      dsimp only
      cases hdefault : PyVal.dictGet kwargs "default" with
      | none =>
        rw [if_neg (by decide)]
        exact (hbest (item :: next :: rest)).trans (and_iff_right rfl).symm
      | some v =>
        rw [if_pos (Option.isSome_some)]
        exact iff_of_false not_aborts_typeError (by simp)

end Best

/-! ### Numbers, units and texts -/

section Functions

variable {py : Python}

theorem intOfFloat_breaks_iff (f : ℚ → ℤ) (x : PyFloat) :
    Breaks (intOfFloat f x) ↔ x.isNonFinite = true := by
  cases x with
  | fin q => exact iff_of_false (not_breaks_ok _) (by simp [PyFloat.isNonFinite])
  | inf | negInf | nan => exact iff_of_true ((breaks_error _).mpr rfl) rfl

theorem integral_breaks_iff (f : ℚ → ℤ) (v : PyVal) :
    Breaks (integral f v) ↔ IntegralBreaks v := by
  unfold integral IntegralBreaks
  rcases v.num? with _ | i | x
  · exact iff_of_false not_breaks_typeError (by simp)
  · exact iff_of_false (not_breaks_ok _) (by simp)
  · exact (intOfFloat_breaks_iff f x).trans (by simp)

theorem round_breaks_iff (laws : LibraryErrors py) (number ndigits : PyVal) :
    Breaks (py.round number ndigits) ↔ RoundBreaks number ndigits := by
  unfold Python.round RoundBreaks
  rcases number.num? with _ | i | x
  · exact iff_of_false not_breaks_typeError id
  · -- an integer is rounded to an integer
    have hint : ∀ n, ¬ Breaks (if (0 : ℤ) ≤ n then (.ok (.int i) : Except BuiltinErr PyVal)
        else .ok (.int (roundHalfEven (i / 10 ^ n.natAbs) * 10 ^ n.natAbs))) := by
      intro n
      split <;> exact not_breaks_ok _
    cases ndigits with
    | none => exact iff_of_false (not_breaks_ok _) id
    | bool | int => exact iff_of_false (hint _) id
    | float | str | list | tuple | dict | function | view | object =>
      exact iff_of_false not_breaks_typeError id
  · cases ndigits with
    | none => exact intOfFloat_breaks_iff roundHalfEven x
    | bool | int => exact breaks_elim.trans (laws.roundTo x _)
    | float | str | list | tuple | dict | function | view | object =>
      exact iff_of_false not_breaks_typeError id

theorem contains_breaks_iff (container item : PyVal) :
    Breaks (py.contains container item) ↔ ContainsBreaks py container item := by
  cases container with
  | object kind => exact Iff.rfl
  | str s =>
    refine iff_of_false ?_ id
    cases item with
    | str t => exact not_breaks_ok _
    | _ => exact not_breaks_typeError
  | dict items =>
    refine iff_of_false ?_ id
    rw [Python.contains]
    split
    · exact not_breaks_ok _
    · exact not_breaks_typeError
  | none | list | tuple => exact iff_of_false (not_breaks_ok _) id
  | bool | int | float | function | view => exact iff_of_false not_breaks_typeError id

theorem not_breaks_lookup (mapping key default : PyVal) :
    ¬ Breaks (py.lookup mapping key default) := by
  unfold Python.lookup
  split
  · split
    · exact not_breaks_ok _
    · exact not_breaks_typeError
  · exact not_breaks_ok _

theorem str_breaks_iff (laws : LibraryErrors py) (v : PyVal) :
    Breaks (py.text.str v) ↔ v.hasLongInt = true := by
  cases hstr : py.text.str v with
  | ok s =>
    refine iff_of_false (not_breaks_ok s) ?_
    rw [(laws.str v).mp ⟨s, hstr⟩]
    decide
  | error e =>
    refine iff_of_true ((breaks_error e).mpr (laws.strError v e hstr)) ?_
    by_contra hshort
    obtain ⟨s, hs⟩ := (laws.str v).mpr (by simpa using hshort)
    rw [hstr] at hs
    cases hs

/-- The message about units that have no conversion needs the texts of both. -/
theorem unsupportedConversion_aborts_iff (laws : LibraryErrors py) (fromUnit toUnit : PyVal) :
    Aborts (do
      let source ← builtin (py.text.str fromUnit)
      let target ← builtin (py.text.str toUnit)
      throw (.formula (.unsupportedConversion source target)) : Except EvalErr PyVal) ↔
      fromUnit.hasLongInt = true ∨ toUnit.hasLongInt = true := by
  rw [aborts_bind, aborts_builtin, str_breaks_iff laws]
  constructor
  · rintro (h | ⟨source, -, h⟩)
    · exact Or.inl h
    · rcases aborts_bind.mp h with h | ⟨target, -, h⟩
      · exact Or.inr ((str_breaks_iff laws toUnit).mp (aborts_builtin.mp h))
      · exact absurd h (not_aborts_formula _)
  · intro h
    cases hlong : fromUnit.hasLongInt with
    | true => exact Or.inl rfl
    | false =>
      obtain ⟨source, hsource⟩ := (laws.str fromUnit).mpr hlong
      have htarget : toUnit.hasLongInt = true := by simpa [hlong] using h
      exact Or.inr ⟨source, builtin_ok.mpr hsource, aborts_bind.mpr
        (Or.inl (aborts_builtin.mpr ((str_breaks_iff laws toUnit).mpr htarget)))⟩

/-- Units with a conversion: the operator is applied. -/
theorem convertUnit_of_some {number fromUnit toUnit : PyVal} {op : BinOperator} {n : ℕ}
    (hnone : number.isNone = false) (heq : py.eq fromUnit toUnit = false)
    (h : unitConversion fromUnit toUnit = some (op, n)) :
    py.convertUnit number fromUnit toUnit = py.binOp op number (.int n) := by
  have hdiv : ∀ n : ℕ, n ≠ 0 → py.binOp .div number (.int n) = builtin (py.div number (.int n)) := by
    intro n hn
    rw [Python.binOp, eq_int_zero hn]
    rfl
  unfold unitConversion at h
  split at h
  · obtain ⟨rfl, rfl⟩ := Prod.mk.inj (Option.some.inj h)
    rw [hdiv 30 (by decide)]
    simp [Python.convertUnit, hnone, heq, PyVal.hashable]
  · obtain ⟨rfl, rfl⟩ := Prod.mk.inj (Option.some.inj h)
    simp [Python.convertUnit, hnone, heq, PyVal.hashable, Python.binOp]
  · obtain ⟨rfl, rfl⟩ := Prod.mk.inj (Option.some.inj h)
    simp [Python.convertUnit, hnone, heq, PyVal.hashable, Python.binOp]
  · obtain ⟨rfl, rfl⟩ := Prod.mk.inj (Option.some.inj h)
    rw [hdiv 12 (by decide)]
    simp [Python.convertUnit, hnone, heq, PyVal.hashable]
  · cases h

/-- Units without one: the message needs the texts of both. -/
theorem convertUnit_of_none (laws : LibraryErrors py) {number fromUnit toUnit : PyVal}
    (hnone : number.isNone = false) (heq : py.eq fromUnit toUnit = false)
    (hhash : (fromUnit.hashable && toUnit.hashable) = true)
    (h : unitConversion fromUnit toUnit = none) :
    Aborts (py.convertUnit number fromUnit toUnit) ↔
      fromUnit.hasLongInt = true ∨ toUnit.hasLongInt = true := by
  unfold Python.convertUnit
  rw [hnone, heq, hhash, if_neg (by decide), if_neg (by decide)]
  split
  · cases h
  · cases h
  · cases h
  · cases h
  · exact unsupportedConversion_aborts_iff laws _ _

/-- `convert_unit` breaks where the operation that its units select breaks on the number, or where
they select none and cannot be printed. -/
theorem convertUnit_aborts_iff (laws : LibraryErrors py) (number fromUnit toUnit : PyVal) :
    Aborts (py.convertUnit number fromUnit toUnit) ↔
      ConvertUnitBreaks py number fromUnit toUnit := by
  unfold ConvertUnitBreaks
  cases hnone : number.isNone with
  | true =>
    unfold Python.convertUnit
    rw [hnone]
    exact iff_of_false (not_aborts_ok number) (by simp)
  | false =>
    cases heq : py.eq fromUnit toUnit with
    | true =>
      unfold Python.convertUnit
      rw [heq, Bool.or_true]
      exact iff_of_false (not_aborts_ok number) (by simp)
    | false =>
      cases hhash : fromUnit.hashable && toUnit.hashable with
      | false =>
        unfold Python.convertUnit
        rw [hnone, heq, hhash, if_neg (by decide), if_pos (by decide)]
        refine iff_of_false not_aborts_typeError ?_
        rintro ⟨-, -, hfrom, hto, -⟩
        rw [hfrom, hto] at hhash
        cases hhash
      | true =>
        obtain ⟨hfrom, hto⟩ := Bool.and_eq_true_iff.mp hhash
        simp only [hfrom, hto, true_and]
        -- a pair of units that is known multiplies or divides; for any other the message is made
        cases hconversion : unitConversion fromUnit toUnit with
        | some p =>
          rw [convertUnit_of_some hnone heq hconversion]
          exact binOp_aborts_iff laws p.1
        | none => exact convertUnit_of_none laws hnone heq hhash hconversion

theorem formatCurrency_breaks_iff (laws : LibraryErrors py) (amount currency : PyVal) :
    Breaks (py.formatCurrency amount currency) ↔ FormatCurrencyBreaks py amount currency := by
  unfold Python.formatCurrency FormatCurrencyBreaks
  cases hnone : amount.isNone with
  | true => exact iff_of_false (not_breaks_ok _) (by simp)
  | false =>
    rw [if_neg (by decide), breaks_bind, str_breaks_iff laws]
    refine Iff.trans ?_ (and_iff_right rfl).symm
    constructor
    · rintro (h | ⟨label, -, h⟩)
      · exact Or.inl h
      · rcases breaks_bind.mp h with h | ⟨x, -, h⟩
        · exact Or.inr ((toFloat_breaks_iff laws amount).mp h)
        · -- a float always has a text with two places
          obtain ⟨text, htext⟩ := laws.formatAmount x
          rw [htext] at h
          exact absurd h (not_breaks_ok _)
    · intro h
      cases hlong : currency.hasLongInt with
      | true => exact Or.inl rfl
      | false =>
        obtain ⟨label, hlabel⟩ := (laws.str currency).mpr hlong
        have hamount : FloatBreaks py amount := by simpa [hlong] using h
        exact Or.inr ⟨label, hlabel,
          breaks_bind.mpr (Or.inl ((toFloat_breaks_iff laws amount).mpr hamount))⟩

theorem format_breaks_iff (laws : LibraryErrors py) (x : PyFloat) (spec : String) :
    Breaks (py.text.format x spec) ↔ ∀ text, py.text.format x spec ≠ .ok text := by
  cases hformat : py.text.format x spec with
  | ok text => exact iff_of_false (not_breaks_ok text) (fun h => h text rfl)
  | error e =>
    exact iff_of_true ((breaks_error e).mpr (laws.formatError x spec e hformat)) (by simp)

theorem formatPercent_breaks_iff (laws : LibraryErrors py) (value decimalPlaces : PyVal) :
    Breaks (py.formatPercent value decimalPlaces) ↔ FormatPercentBreaks py value decimalPlaces := by
  unfold Python.formatPercent FormatPercentBreaks
  cases hnone : value.isNone with
  | true => exact iff_of_false (not_breaks_ok _) (by simp)
  | false =>
    rw [if_neg (by decide), breaks_bind, toFloat_breaks_iff laws]
    refine Iff.trans (or_congr_right (exists_congr fun x => and_congr_right fun _ => ?_))
      (and_iff_right rfl).symm
    rw [breaks_bind, str_breaks_iff laws]
    refine or_congr_right (exists_congr fun places => and_congr_right fun _ => ?_)
    rw [breaks_bind, format_breaks_iff laws]
    exact or_iff_left fun ⟨text, _, h⟩ => not_breaks_ok _ h

/-! ### Dates -/

/-- A text that is no date has no date: the exceptions of both parsers are handled. -/
theorem not_breaks_parseDate (laws : LibraryErrors py) (value : PyVal) :
    ¬ Breaks (py.parseDate value) := by
  have htext : ∀ s, ¬ Breaks (py.parseDate (.str s)) := by
    intro s
    unfold Python.parseDate
    dsimp only
    cases hiso : py.fromIsoFormat s with
    | ok d => exact not_breaks_ok _
    | error e =>
      obtain ⟨msg, rfl⟩ := laws.fromIsoFormat s e hiso
      dsimp only
      cases hdate : py.parseDateText s with
      | ok d => exact not_breaks_ok _
      | error e =>
        rcases laws.parseDateText s e hdate with rfl | ⟨msg, rfl⟩ | rfl
        · exact not_breaks_ok _
        · exact not_breaks_ok _
        · exact not_breaks_ok _
  unfold Python.parseDate
  dsimp only
  split
  · exact htext _
  · exact not_breaks_ok _

theorem not_breaks_between (laws : LibraryErrors py) (measure : Date → Date → ℤ)
    (start stop : PyVal) : ¬ Breaks (py.between measure start stop) := by
  unfold Python.between
  rw [breaks_bind, or_iff_right (not_breaks_parseDate laws start)]
  rintro ⟨left, -, h⟩
  rw [breaks_bind, or_iff_right (not_breaks_parseDate laws stop)] at h
  obtain ⟨right, -, h⟩ := h
  cases left <;> cases right <;> exact not_breaks_ok _ h

/-- The time between two dates is a number, or nothing. -/
theorem not_aborts_optionalInt {x : Except BuiltinErr (Option ℤ)} (h : ¬ Breaks x) :
    ¬ Aborts (optionalInt x) := by
  unfold optionalInt
  rw [aborts_builtin, breaks_map]
  exact h

end Functions

/-! ### The call of a helper -/

section Calls

variable {py : Python}

/-- A call that does not bind raises a `TypeError`. -/
theorem not_aborts_bindArgs (params : List Param) (args : List PyVal) (kwargs : Kwargs) :
    ¬ Aborts (bindArgs params args kwargs) := by
  unfold bindArgs
  dsimp only
  split
  · exact not_aborts_typeError
  · split
    · exact not_aborts_typeError
    · rintro ⟨e, he, hcaught⟩
      cases hvalues : (params.drop args.length).mapM fun p : Param => p.value kwargs with
      | ok values => rw [hvalues] at he; cases he
      | error e' =>
        rw [hvalues] at he
        obtain rfl := Except.error.inj he
        obtain ⟨p, -, hp⟩ := Failing.exists_of_mapM_error hvalues
        unfold Param.value at hp
        split at hp
        · cases hp
        · cases hp
        · obtain rfl := Except.error.inj hp
          cases hcaught

theorem bindCall_aborts_iff {params : List Param} {args : List PyVal} {kwargs : Kwargs}
    {body : List PyVal → Except EvalErr PyVal} {breaks : List PyVal → Prop}
    (hbody : ∀ vs, Aborts (body vs) ↔ breaks vs) :
    Aborts (bindCall params args kwargs body) ↔ BoundBreaks params args kwargs breaks := by
  unfold bindCall BoundBreaks
  rw [aborts_bind, or_iff_right (not_aborts_bindArgs params args kwargs)]
  exact exists_congr fun vs => and_congr_right fun _ => hbody vs

/-- A function that no arguments break. -/
theorem not_aborts_bindCall {params : List Param} {args : List PyVal} {kwargs : Kwargs}
    {body : List PyVal → Except EvalErr PyVal} (hbody : ∀ vs, ¬ Aborts (body vs)) :
    ¬ Aborts (bindCall params args kwargs body) := by
  intro h
  obtain ⟨vs, -, h⟩ := (bindCall_aborts_iff fun vs => Iff.rfl).mp h
  exact hbody vs h

theorem one_aborts_iff {f : PyVal → Except EvalErr PyVal} {breaks : PyVal → Prop}
    (h : ∀ v, Aborts (f v) ↔ breaks v) (vs : List PyVal) :
    Aborts (match vs with
      | [v] => f v
      | _ => raiseTypeError) ↔
    match vs with
      | [v] => breaks v
      | _ => False := by
  rcases vs with _ | ⟨v, _ | ⟨w, vs⟩⟩
  · exact iff_of_false not_aborts_typeError id
  · exact h v
  · exact iff_of_false not_aborts_typeError id

theorem two_abort_iff {f : PyVal → PyVal → Except EvalErr PyVal} {breaks : PyVal → PyVal → Prop}
    (h : ∀ v w, Aborts (f v w) ↔ breaks v w) (vs : List PyVal) :
    Aborts (match vs with
      | [v, w] => f v w
      | _ => raiseTypeError) ↔
    match vs with
      | [v, w] => breaks v w
      | _ => False := by
  rcases vs with _ | ⟨v, _ | ⟨w, _ | ⟨x, vs⟩⟩⟩
  · exact iff_of_false not_aborts_typeError id
  · exact iff_of_false not_aborts_typeError id
  · exact h v w
  · exact iff_of_false not_aborts_typeError id

theorem three_abort_iff {f : PyVal → PyVal → PyVal → Except EvalErr PyVal}
    {breaks : PyVal → PyVal → PyVal → Prop} (h : ∀ v w x, Aborts (f v w x) ↔ breaks v w x)
    (vs : List PyVal) :
    Aborts (match vs with
      | [v, w, x] => f v w x
      | _ => raiseTypeError) ↔
    match vs with
      | [v, w, x] => breaks v w x
      | _ => False := by
  rcases vs with _ | ⟨v, _ | ⟨w, _ | ⟨x, _ | ⟨y, vs⟩⟩⟩⟩
  · exact iff_of_false not_aborts_typeError id
  · exact iff_of_false not_aborts_typeError id
  · exact iff_of_false not_aborts_typeError id
  · exact h v w x
  · exact iff_of_false not_aborts_typeError id

/-- The helpers on dates. -/
theorem not_aborts_dates {measure : PyVal → PyVal → Except BuiltinErr (Option ℤ)}
    {params : List Param} {args : List PyVal} {kwargs : Kwargs}
    (h : ∀ start stop, ¬ Breaks (measure start stop)) :
    ¬ Aborts (bindCall params args kwargs fun
      | [start, stop] => optionalInt (measure start stop)
      | _ => raiseTypeError) := by
  refine not_aborts_bindCall fun vs => ?_
  split
  · exact not_aborts_optionalInt (h _ _)
  · exact not_aborts_typeError

/-- **A helper raises what is not caught exactly when its arguments break it.** -/
theorem callHelperWith_aborts_iff (laws : LibraryErrors py)
    {callKey : PyVal → PyVal → Except EvalErr PyVal} {keyBreaks : PyVal → PyVal → Prop}
    (hkey : ∀ f v, Aborts (callKey f v) ↔ keyBreaks f v) (name : String) (args : List PyVal)
    (kwargs : Kwargs) :
    Aborts (py.callHelperWith callKey name args kwargs) ↔
      HelperBreaks py callKey keyBreaks name args kwargs := by
  unfold Python.callHelperWith
  -- one case for each name, in the order of the code
  split
  · refine bindCall_aborts_iff (two_abort_iff fun iterable start => ?_)
    rw [aborts_builtin, breaks_bind, or_iff_right (not_breaks_iterate laws iterable)]
    simp only [sumFrom_breaks_iff laws]
  · exact bindCall_aborts_iff (one_aborts_iff fun values =>
      aborts_builtin.trans (avg_breaks_iff laws values))
  · exact extremum_aborts_iff laws hkey _ _ args kwargs
  · exact extremum_aborts_iff laws hkey _ _ args kwargs
  · refine iff_of_false (not_aborts_bindCall fun vs => ?_) id
    split
    · exact not_aborts_ok _
    · exact not_aborts_typeError
  · exact bindCall_aborts_iff (two_abort_iff fun number ndigits =>
      aborts_builtin.trans (round_breaks_iff laws number ndigits))
  · exact bindCall_aborts_iff (one_aborts_iff fun v =>
      aborts_builtin.trans (integral_breaks_iff Int.floor v))
  · exact bindCall_aborts_iff (one_aborts_iff fun v =>
      aborts_builtin.trans (integral_breaks_iff Int.ceil v))
  · refine iff_of_false ?_ id
    split
    · exact not_aborts_ok _
    · exact not_aborts_typeError
  · exact iff_of_false (not_aborts_dates fun start stop => not_breaks_between laws _ start stop) id
  · exact iff_of_false (not_aborts_dates fun start stop => not_breaks_between laws _ start stop) id
  · refine iff_of_false (not_aborts_dates fun start stop => ?_) id
    rw [Python.yearsBetween, breaks_map]
    exact not_breaks_between laws _ start stop
  · refine bindCall_aborts_iff (two_abort_iff fun container item => ?_)
    rw [aborts_builtin, breaks_map]
    exact contains_breaks_iff container item
  · refine iff_of_false (not_aborts_bindCall fun vs => ?_) id
    split
    · exact aborts_builtin.not.mpr (not_breaks_lookup _ _ _)
    · exact not_aborts_typeError
  · exact bindCall_aborts_iff (three_abort_iff fun number fromUnit toUnit =>
      convertUnit_aborts_iff laws number fromUnit toUnit)
  · exact bindCall_aborts_iff (two_abort_iff fun amount currency =>
      aborts_builtin.trans (formatCurrency_breaks_iff laws amount currency))
  · exact bindCall_aborts_iff (two_abort_iff fun value decimalPlaces =>
      aborts_builtin.trans (formatPercent_breaks_iff laws value decimalPlaces))
  · refine iff_of_false (not_aborts_bindCall fun vs => ?_) id
    split
    · exact not_aborts_ok _
    · exact not_aborts_typeError
  · -- there is no helper of another name
    refine iff_of_false not_aborts_typeError fun h => ?_
    unfold HelperBreaks at h
    split at h <;> first | exact h | contradiction

theorem callKey_aborts_iff (laws : LibraryErrors py) (f item : PyVal) :
    Aborts (py.callKey f item) ↔ KeyCallBreaks py f item := by
  cases f with
  | function name =>
    exact callHelperWith_aborts_iff laws (fun f v => iff_of_false not_aborts_typeError id) name
      [item] []
  | object kind =>
    exact iff_of_false
      (aborts_builtin.not.mpr (not_breaks_of_typeError (laws.call kind [item] []))) id
  | none | bool | int | float | str | list | tuple | dict | view =>
    exact iff_of_false not_aborts_typeError id

/-- **The call of a value raises what is not caught exactly when it breaks.** -/
theorem callValue_aborts_iff (laws : LibraryErrors py) (f : PyVal) (args : List PyVal)
    (kwargs : Kwargs) : Aborts (py.callValue f args kwargs) ↔ CallBreaks py f args kwargs := by
  cases f with
  | function name => exact callHelperWith_aborts_iff laws (callKey_aborts_iff laws) name args kwargs
  | object kind =>
    exact iff_of_false
      (aborts_builtin.not.mpr (not_breaks_of_typeError (laws.call kind args kwargs))) id
  | none | bool | int | float | str | list | tuple | dict | view =>
    exact iff_of_false not_aborts_typeError id

end Calls

end ExtractFlow
