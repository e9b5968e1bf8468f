import ExtractFlow.Evaluator

/-!
# Chains of comparisons

`visit_Compare` takes a chain from left to right and stops at the first pair that
does not satisfy its operator.  It tests six operators; a pair under one of the
other four — `is`, `is not`, `in` and `not in` — meets no test and passes, and
nothing rejects the operator.

The meaning of those four is a parameter: what is proved holds for any.

## Main definitions

* `CmpOp.implemented`, `Python.Means` — the operators.
* `ChainHolds`, `ChainBreaks` — what Python says about a chain.
* `ComparisonSound` — the evaluator agrees, and rejects what it does not implement.
* `OperandRejected` — the chain does not get past one of its operands.

## Main results

* `visitCompare_true`, `visitCompare_false` — chains of implemented operators.
* `comparison_sound_iff` — the chains on which the evaluator is sound.
-/

namespace ExtractFlow

/-! ### The meaning of a chain -/

/-- `visit_Compare` has a test for the operator; a pair under any other operator passes untested. -/
def CmpOp.implemented : CmpOp → Bool
  | .eq | .notEq | .lt | .ltE | .gt | .gtE => true
  | .is | .isNot | .in | .notIn => false

/-- The pair satisfies the operator, in Python; `missing` is the meaning of the four
that the evaluator has no test for. -/
def Python.Means (py : Python) (missing : CmpOp → PyVal → PyVal → Prop) (op : CmpOp)
    (a b : PyVal) : Prop :=
  match op with
  | .eq => py.eq a b = true
  | .notEq => py.eq a b = false
  | .lt | .ltE | .gt | .gtE => py.order op a b = .ok true
  | .is | .isNot | .in | .notIn => missing op a b

/-- The evaluation raises `FormulaValidationError`. -/
def IsRejected {α : Type} (x : Except EvalErr α) : Prop := ∃ e, x = .error (.formula e)

section Meaning

variable (py : Python) (missing : CmpOp → PyVal → PyVal → Prop) (context : Context)

/-- From a left operand on, every pair satisfies its operator, as Python means a chain. -/
inductive ChainHolds : PyVal → List (CmpOp × Node) → Prop
  | nil (v) : ChainHolds v []
  | cons (v op n rest w) : py.visit context n = .ok w → py.Means missing op v w →
      ChainHolds w rest → ChainHolds v ((op, n) :: rest)

/-- From a left operand on, some pair does not satisfy its operator. -/
inductive ChainBreaks : PyVal → List (CmpOp × Node) → Prop
  | here (v op n rest w) : py.visit context n = .ok w → ¬py.Means missing op v w →
      ChainBreaks v ((op, n) :: rest)
  | next (v op n rest w) : py.visit context n = .ok w → ChainBreaks w rest →
      ChainBreaks v ((op, n) :: rest)

/-- From a left operand on, an operand is rejected: the pairs before it pass their
tests, those without a test included. -/
inductive OperandRejected : PyVal → List (CmpOp × Node) → Prop
  | here (v op n rest) : IsRejected (py.visit context n) → OperandRejected v ((op, n) :: rest)
  | next (v op n rest w) : py.visit context n = .ok w →
      (op.implemented = true → py.Means missing op v w) → OperandRejected w rest →
      OperandRejected v ((op, n) :: rest)

end Meaning

/-- The evaluator agrees with Python about a chain, in a context of field values. -/
structure ComparisonSound (py : Python) (missing : CmpOp → PyVal → PyVal → Prop)
    (context : Context) (left : Node) (rest : List (CmpOp × Node)) : Prop where
  holds : py.evaluateTree (.compare left rest) context = .ok (.bool true) →
    ∃ v, py.visit (wrapContext context) left = .ok v ∧
      ChainHolds py missing (wrapContext context) v rest
  breaks : py.evaluateTree (.compare left rest) context = .ok (.bool false) →
    ∃ v, py.visit (wrapContext context) left = .ok v ∧
      ChainBreaks py missing (wrapContext context) v rest
  rejects : (∃ p ∈ rest, p.1.implemented = false) →
    IsRejected (py.evaluateTree (.compare left rest) context)

/-- What comes before the chain is decided includes an operand that is rejected. -/
def ChainRejected (py : Python) (missing : CmpOp → PyVal → PyVal → Prop) (context : Context)
    (left : Node) (rest : List (CmpOp × Node)) : Prop :=
  IsRejected (py.visit context left) ∨
    ∃ v, py.visit context left = .ok v ∧ OperandRejected py missing context v rest

/-! ### One pair -/

section Pairs

variable {py : Python} {missing : CmpOp → PyVal → PyVal → Prop} {op : CmpOp} {a b : PyVal}

/-- A test passes when the pair satisfies the operator. -/
theorem compare_true_iff (h : op.implemented = true) :
    py.compare op a b = .ok true ↔ py.Means missing op a b := by
  cases op with
  | eq | lt | ltE | gt | gtE => simp [Python.compare, Python.Means]
  | notEq => simp [Python.compare, Python.Means]
  | is | isNot | «in» | notIn => cases h

/-- A test fails when it does not. -/
theorem not_means_of_compare_false (h : op.implemented = true)
    (hcompare : py.compare op a b = .ok false) : ¬py.Means missing op a b := by
  intro hmeans
  rw [← compare_true_iff h, hcompare] at hmeans
  cases hmeans

/-- Without a test every pair passes. -/
theorem compare_of_missing (h : op.implemented = false) : py.compare op a b = .ok true := by
  cases op with
  | eq | notEq | lt | ltE | gt | gtE => cases h
  | is | isNot | «in» | notIn => rfl

/-- A pair passes when it satisfies its operator, if that has a test. -/
theorem compare_passes_iff :
    py.compare op a b = .ok true ↔ (op.implemented = true → py.Means missing op a b) := by
  cases h : op.implemented with
  | true =>
    have hiff : py.compare op a b = .ok true ↔ py.Means missing op a b := compare_true_iff h
    simp [hiff]
  | false => simp [compare_of_missing h]

end Pairs

/-! ### Chains -/

section Chains

variable {py : Python} {missing : CmpOp → PyVal → PyVal → Prop} {context : Context}

/-- The evaluation of a chain ends in `b` at its first pair, or goes on from there. -/
theorem visitCompare_cons_ok {v : PyVal} {op : CmpOp} {n : Node} {rest : List (CmpOp × Node)}
    {b : Bool} (h : py.visitCompare context v ((op, n) :: rest) = .ok b) :
    ∃ w, py.visit context n = .ok w ∧
      ((py.compare op v w = .ok true ∧ py.visitCompare context w rest = .ok b) ∨
        (py.compare op v w = .ok false ∧ b = false)) := by
  rw [Python.visitCompare] at h
  obtain ⟨w, hw, h⟩ := Failing.bind_ok.mp h
  obtain ⟨passes, hpasses, h⟩ := Failing.bind_ok.mp h
  have hcompare := builtin_ok.mp hpasses
  refine ⟨w, hw, ?_⟩
  cases passes with
  | true => exact Or.inl ⟨hcompare, h⟩
  | false => exact Or.inr ⟨hcompare, (Except.ok.inj h).symm⟩

/-- **A chain of implemented operators that returns true holds**: every pair was compared. -/
theorem visitCompare_true : ∀ {rest : List (CmpOp × Node)} {v : PyVal},
    (∀ p ∈ rest, p.1.implemented = true) → py.visitCompare context v rest = .ok true →
      ChainHolds py missing context v rest := by
  intro rest
  induction rest with
  | nil => intro v _ _; exact .nil v
  | cons p rest ih =>
    intro v himplemented h
    obtain ⟨op, n⟩ := p
    obtain ⟨w, hw, ⟨hcompare, h⟩ | ⟨-, h⟩⟩ := visitCompare_cons_ok h
    · refine .cons v op n rest w hw ?_ (ih (fun p hp => himplemented p (by simp [hp])) h)
      exact (compare_true_iff (himplemented (op, n) (by simp))).mp hcompare
    · cases h

/-- **A chain of implemented operators that returns false breaks** at the pair it stopped at. -/
theorem visitCompare_false : ∀ {rest : List (CmpOp × Node)} {v : PyVal},
    (∀ p ∈ rest, p.1.implemented = true) → py.visitCompare context v rest = .ok false →
      ChainBreaks py missing context v rest := by
  intro rest
  induction rest with
  | nil =>
    intro v _ h
    rw [Python.visitCompare] at h
    cases h
  | cons p rest ih =>
    intro v himplemented h
    obtain ⟨op, n⟩ := p
    obtain ⟨w, hw, ⟨-, h⟩ | ⟨hcompare, -⟩⟩ := visitCompare_cons_ok h
    · exact .next v op n rest w hw (ih (fun p hp => himplemented p (by simp [hp])) h)
    · exact .here v op n rest w hw
        (not_means_of_compare_false (himplemented (op, n) (by simp)) hcompare)

/-- No comparison raises `FormulaValidationError`. -/
theorem not_isRejected_builtin {α : Type} (x : Except BuiltinErr α) : ¬IsRejected (builtin x) := by
  rintro ⟨e, he⟩
  cases x <;> cases he

/-- **A chain is rejected with one of its operands**: with the first that is rejected when the chain
was not decided before it. -/
theorem visitCompare_isRejected_iff : ∀ {rest : List (CmpOp × Node)} {v : PyVal},
    IsRejected (py.visitCompare context v rest) ↔ OperandRejected py missing context v rest := by
  intro rest
  induction rest with
  | nil =>
    intro v
    refine iff_of_false ?_ (fun h => by cases h)
    rintro ⟨e, he⟩
    rw [Python.visitCompare] at he
    cases he
  | cons p rest ih =>
    intro v
    obtain ⟨op, n⟩ := p
    constructor
    · rintro ⟨e, he⟩
      rw [Python.visitCompare] at he
      rcases Failing.bind_error.mp he with he | ⟨w, hw, he⟩
      · exact .here v op n rest ⟨e, he⟩
      -- the operand has a value, and comparing it raises no error of the language
      rcases Failing.bind_error.mp he with he | ⟨passes, hpasses, he⟩
      · exact absurd ⟨e, he⟩ (not_isRejected_builtin _)
      cases passes with
      | true =>
        exact .next v op n rest w hw (compare_passes_iff.mp (builtin_ok.mp hpasses))
          (ih.mp ⟨e, he⟩)
      | false => cases he
    · intro h
      rw [Python.visitCompare]
      cases h with
      | here _ _ _ _ h =>
        obtain ⟨e, he⟩ := h
        exact ⟨e, Failing.bind_of_error he⟩
      | next _ _ _ _ w hw hpasses h =>
        obtain ⟨e, he⟩ := ih.mpr h
        refine ⟨e, ?_⟩
        rw [Failing.bind_of_ok hw, compare_passes_iff.mpr hpasses]
        exact he

variable {left : Node} {rest : List (CmpOp × Node)}

/-- The value of a chain. -/
theorem evaluateTree_compare_ok {b : Bool}
    (h : py.evaluateTree (.compare left rest) context = .ok (.bool b)) :
    ∃ v, py.visit (wrapContext context) left = .ok v ∧
      py.visitCompare (wrapContext context) v rest = .ok b := by
  unfold Python.evaluateTree at h
  obtain ⟨v, hv, h⟩ := Failing.bind_ok.mp h
  rw [Python.visit] at hv
  obtain ⟨l, hl, hv⟩ := Failing.bind_ok.mp hv
  obtain ⟨c, hc, hv⟩ := Failing.bind_ok.mp hv
  obtain rfl := Except.ok.inj hv
  obtain rfl : c = b := by simpa [unwrapValue, pure, Except.pure] using h
  exact ⟨l, hl, hc⟩

theorem evaluateTree_compare_isRejected_iff :
    IsRejected (py.evaluateTree (.compare left rest) context) ↔
      ChainRejected py missing (wrapContext context) left rest := by
  unfold Python.evaluateTree ChainRejected
  rw [Python.visit]
  constructor
  · rintro ⟨e, he⟩
    rcases Failing.bind_error.mp he with he | ⟨_, _, he⟩
    · rcases Failing.bind_error.mp he with he | ⟨v, hv, he⟩
      · exact Or.inl ⟨e, he⟩
      · rcases Failing.bind_error.mp he with he | ⟨_, _, he⟩
        · exact Or.inr ⟨v, hv, visitCompare_isRejected_iff.mp ⟨e, he⟩⟩
        · cases he
    · cases he
  · rintro (⟨e, he⟩ | ⟨v, hv, h⟩)
    · exact ⟨e, by rw [he]; rfl⟩
    · obtain ⟨e, he⟩ := visitCompare_isRejected_iff.mpr h
      exact ⟨e, by rw [hv, Failing.bind_of_ok rfl, he]; rfl⟩

/-- **The evaluator is sound on a chain** exactly when it implements every operator,
or rejects an operand before the chain is decided. -/
theorem comparison_sound_iff : ComparisonSound py missing context left rest ↔
    (∀ p ∈ rest, p.1.implemented = true) ∨
      ChainRejected py missing (wrapContext context) left rest := by
  constructor
  · intro h
    by_cases himplemented : ∀ p ∈ rest, p.1.implemented = true
    · exact Or.inl himplemented
    · have hmissing : ∃ p ∈ rest, p.1.implemented = false := by simpa using himplemented
      exact Or.inr (evaluateTree_compare_isRejected_iff.mp (h.rejects hmissing))
  · rintro (himplemented | h)
    · refine ⟨fun htrue => ?_, fun hfalse => ?_, ?_⟩
      · obtain ⟨v, hv, hrest⟩ := evaluateTree_compare_ok htrue
        exact ⟨v, hv, visitCompare_true himplemented hrest⟩
      · obtain ⟨v, hv, hrest⟩ := evaluateTree_compare_ok hfalse
        exact ⟨v, hv, visitCompare_false himplemented hrest⟩
      · rintro ⟨p, hp, hmissing⟩
        rw [himplemented p hp] at hmissing
        cases hmissing
    -- a rejected chain returns nothing that could be wrong
    · have hrejected := evaluateTree_compare_isRejected_iff.mpr h
      obtain ⟨e, he⟩ := hrejected
      refine ⟨fun htrue => ?_, fun hfalse => ?_, fun _ => ⟨e, he⟩⟩
      · rw [he] at htrue
        cases htrue
      · rw [he] at hfalse
        cases hfalse

end Chains

/-- **`1 in [2]` is true**: the evaluator has no test for `in`, and does not reject it. -/
theorem membership_passes :
    ¬∀ (py : Python) (missing : CmpOp → PyVal → PyVal → Prop) (context : Context) (left : Node)
      (rest : List (CmpOp × Node)), ComparisonSound py missing context left rest := by
  intro hall
  obtain ⟨e, he⟩ := (hall (plainPython []) (fun _ _ _ => False) [] (.constant (.int 1))
    [(.in, .list [.constant (.int 2)])]).rejects ⟨_, List.mem_singleton_self _, rfl⟩
  cases he

end ExtractFlow
