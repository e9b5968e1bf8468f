import ExtractFlow.Evaluator

/-!
# Three conditionals

A formula has three ways to leave an operand out: the call `if(c, a, b)`, which
`compile_formula` reads as a call of the helper `iff`, the conditional expression
`a if c else b`, and the operators `and` and `or`.  Only the conditional
expression leaves it out of the evaluation.  A call evaluates its arguments before
the helper sees them, and `visit_BoolOp` all of its operands, so the failure of an
operand that is not needed is the failure of the formula.

Two more things set the forms apart.  A field called `iff` hides the helper; and a
view of an empty object is true, while the empty object it is unwrapped to is false.

## Main definitions

* `ifCall`, `Python.truthOf`.
* `IfHarmless`, `AndHarmless`, `OrHarmless` — nothing sets the two forms apart.

## Main results

* `ifCall_agrees_iff`, `and_agrees_iff`, `or_agrees_iff` — each pair of forms.
* `conditionals_agree_iff` — all of them.
-/

namespace ExtractFlow

/-- The tree of `if(condition, whenTrue, whenFalse)`, as it is parsed after the rewriting: a call of
`iff`. -/
def ifCall (condition whenTrue whenFalse : Node) : Node :=
  .call (.name "iff") [condition, whenTrue, whenFalse] []

/-- The conditional expression that `c and a` or `c or a` stands for. -/
def operatorIfExp (op : BoolOperator) (c a : Node) : Node :=
  match op with
  | .and => .ifExp c a (.constant (.bool false))
  | .or => .ifExp c (.constant (.bool true)) a

/-- The truth value of the first operand that decides alone. -/
def BoolOperator.stop : BoolOperator → Bool
  | .and => false
  | .or => true

/-- The truth value of what an evaluation returns, or its exception. -/
def Python.truthOf (py : Python) (x : Except EvalErr PyVal) : Except EvalErr Bool :=
  x.map py.truthy

/-- A view of an empty object. -/
def PyVal.isEmptyView : PyVal → Bool
  | .view _ items => items.isEmpty
  | _ => false

section Harmless

variable (py : Python) (context : Context) (c a b : Node)

/-- Nothing sets `if(c, a, b)` and `a if c else b` apart. -/
structure IfHarmless : Prop where
  /-- Where all three have values, no field hides the helper. -/
  named : ∀ v x y, py.visit (wrapContext context) c = .ok v →
    py.visit (wrapContext context) a = .ok x → py.visit (wrapContext context) b = .ok y →
    PyVal.dictGet context "iff" = none
  /-- Where the first is chosen and has a value, the second has one. -/
  whenTrue : ∀ v x, py.visit (wrapContext context) c = .ok v → py.truthy v = true →
    py.visit (wrapContext context) a = .ok x → ∃ y, py.visit (wrapContext context) b = .ok y
  /-- Where the second is chosen and the first fails, the second fails as it does. -/
  whenFalse : ∀ v e, py.visit (wrapContext context) c = .ok v → py.truthy v = false →
    py.visit (wrapContext context) a = .error e → py.visit (wrapContext context) b = .error e

/-- Nothing sets `c and a`, or `c or a`, and its conditional expression apart. -/
structure OperandHarmless (op : BoolOperator) : Prop where
  /-- Where the first decides, the second has a value. -/
  decided : ∀ v, py.visit (wrapContext context) c = .ok v → py.truthy v = op.stop →
    ∃ x, py.visit (wrapContext context) a = .ok x
  /-- Where it does not, the second is no empty object. -/
  chosen : ∀ v x, py.visit (wrapContext context) c = .ok v → py.truthy v = !op.stop →
    py.visit (wrapContext context) a = .ok x → x.isEmptyView = false

end Harmless

/-! ### The forms, one by one -/

section Forms

variable {py : Python} {context : Context} {c a b : Node}

/-- Unwrapping makes an empty object false. -/
theorem truthy_unwrapValue (py : Python) (v : PyVal) :
    py.truthy (unwrapValue v) = (py.truthy v && !v.isEmptyView) := by
  cases v with
  | view id items => cases items with
    | nil => rfl
    | cons p items => rfl
  | list items => cases items with
    | nil => rfl
    | cons v items => rfl
  | none | bool | int | float | str | tuple | dict | function | object =>
    simp [unwrapValue, PyVal.isEmptyView]

theorem truthy_of_isEmptyView {v : PyVal} (h : v.isEmptyView = true) : py.truthy v = true := by
  cases v with
  | view id items => rfl
  | none | bool | int | float | str | list | tuple | dict | function | object =>
    simp [PyVal.isEmptyView] at h

/-- The helper chooses. -/
theorem callHelper_iff (v x y : PyVal) :
    py.callHelper "iff" [v, x, y] [] = .ok (if py.truthy v = true then x else y) := by
  rfl

theorem visit_ifExp (context : Context) (c a b : Node) :
    py.visit context (.ifExp c a b) = (py.visit context c >>= fun v =>
      if py.truthy v then py.visit context a else py.visit context b) := by
  rw [Python.visit]

theorem visit_ifCall (context : Context) (c a b : Node) :
    py.visit context (ifCall c a b) = (visitName context "iff" >>= fun fn =>
      py.visit context c >>= fun v => py.visit context a >>= fun x =>
        py.visit context b >>= fun y => py.callValue fn [v, x, y] []) := by
  unfold ifCall
  rw [Python.visit, if_pos (by decide), Python.visit]
  simp only [Python.visitList, Python.visitKeywords]
  cases visitName context "iff" with
  | error e => rfl
  | ok fn =>
    cases py.visit context c with
    | error e => rfl
    | ok v =>
      cases py.visit context a with
      | error e => rfl
      | ok x =>
        cases py.visit context b with
        | error e => rfl
        | ok y => rfl

theorem visit_boolOp_pair (context : Context) (op : BoolOperator) (c a : Node) :
    py.visit context (.boolOp op [c, a]) = (py.visit context c >>= fun v =>
      py.visit context a >>= fun x => .ok (.bool (py.boolOp op [v, x]))) := by
  rw [Python.visit]
  simp only [Python.visitList]
  cases py.visit context c with
  | error e => rfl
  | ok v =>
    cases py.visit context a with
    | error e => rfl
    | ok x => rfl

/-- **`if(c, a, b)` is `a if c else b`** where nothing sets them apart. -/
theorem ifCall_agrees_iff (hjson : PyVal.isJsonItems context = true) :
    py.evaluateTree (ifCall c a b) context = py.evaluateTree (.ifExp c a b) context ↔
      IfHarmless py context c a b := by
  obtain ⟨fn, hfn, hcall⟩ : ∃ fn, visitName (wrapContext context) "iff" = .ok fn ∧ _ :=
    visitName_helper py hjson (by decide)
  unfold Python.evaluateTree
  rw [visit_ifCall, visit_ifExp, hfn, Failing.bind_of_ok rfl]
  simp only [hcall, callHelper_iff]
  cases hc : py.visit (wrapContext context) c with
  | error e => exact iff_of_true rfl ⟨by simp [hc], by simp [hc], by simp [hc]⟩
  | ok v =>
    have hharmless : IfHarmless py context c a b ↔
        (∀ x y, py.visit (wrapContext context) a = .ok x →
          py.visit (wrapContext context) b = .ok y → PyVal.dictGet context "iff" = none) ∧
        (∀ x, py.truthy v = true → py.visit (wrapContext context) a = .ok x →
          ∃ y, py.visit (wrapContext context) b = .ok y) ∧
        ∀ e, py.truthy v = false → py.visit (wrapContext context) a = .error e →
          py.visit (wrapContext context) b = .error e := by
      constructor
      · rintro ⟨hnamed, htrue, hfalse⟩
        exact ⟨fun x y => hnamed v x y hc, fun x => htrue v x hc, fun e => hfalse v e hc⟩
      · rintro ⟨hnamed, htrue, hfalse⟩
        refine ⟨?_, ?_, ?_⟩ <;> intro v' <;> rw [hc]
        · rintro x y ⟨⟩
          exact hnamed x y
        · rintro x ⟨⟩
          exact htrue x
        · rintro e ⟨⟩
          exact hfalse e
    rw [hharmless]
    -- both sides are decided by the outcome of each branch and the value of the test
    cases ht : py.truthy v <;> cases py.visit (wrapContext context) a <;>
      cases py.visit (wrapContext context) b <;> cases PyVal.dictGet context "iff" <;>
        simp [bind, Except.bind, pure, Except.pure, raiseTypeError, ht, eq_comm]

theorem visit_operatorIfExp (context : Context) (op : BoolOperator) (c a : Node) :
    py.visit context (operatorIfExp op c a) = (py.visit context c >>= fun v =>
      if py.truthy v = op.stop then .ok (.bool op.stop) else py.visit context a) := by
  cases op with
  | and =>
    unfold operatorIfExp
    rw [visit_ifExp, Python.visit]
    refine congrArg _ (funext fun v => ?_)
    cases h : py.truthy v <;> simp [BoolOperator.stop]
  | or =>
    unfold operatorIfExp
    rw [visit_ifExp, Python.visit]
    refine congrArg _ (funext fun v => ?_)
    cases h : py.truthy v <;> simp [BoolOperator.stop]

/-- The first operand decides, or the second does. -/
theorem boolOp_pair (op : BoolOperator) (v x : PyVal) :
    py.boolOp op [v, x] = if py.truthy v = op.stop then op.stop else py.truthy x := by
  cases op <;> cases hv : py.truthy v <;> simp [Python.boolOp, BoolOperator.stop, hv]

/-- **`c and a` is as true as `a if c else False`, and `c or a` as `True if c else a`**
where nothing sets them apart. -/
theorem operator_agrees_iff (op : BoolOperator) :
    py.truthOf (py.evaluateTree (.boolOp op [c, a]) context) =
        py.truthOf (py.evaluateTree (operatorIfExp op c a) context) ↔
      OperandHarmless py context c a op := by
  unfold Python.evaluateTree Python.truthOf
  rw [visit_boolOp_pair, visit_operatorIfExp]
  cases hc : py.visit (wrapContext context) c with
  | error e => exact iff_of_true rfl ⟨by simp [hc], by simp [hc]⟩
  | ok v =>
    -- the first operand has the value v, so the conditions are about v alone
    have hharmless : OperandHarmless py context c a op ↔
        (py.truthy v = op.stop → ∃ x, py.visit (wrapContext context) a = .ok x) ∧
        ∀ x, py.truthy v = !op.stop → py.visit (wrapContext context) a = .ok x →
          x.isEmptyView = false := by
      constructor
      · rintro ⟨hdecided, hchosen⟩
        exact ⟨hdecided v hc, fun x => hchosen v x hc⟩
      · rintro ⟨hdecided, hchosen⟩
        refine ⟨?_, ?_⟩ <;> intro v' <;> rw [hc]
        · rintro ⟨⟩
          exact hdecided
        · rintro x ⟨⟩
          exact hchosen x
    rw [hharmless]
    have hunwrap : ∀ b, unwrapValue (.bool b) = .bool b := fun _ => rfl
    have htruth : ∀ b, py.truthy (.bool b) = b := fun _ => rfl
    by_cases hv : py.truthy v = op.stop
    · -- the first operand decides
      cases ha : py.visit (wrapContext context) a with
      | error e => simp [bind, Except.bind, pure, Except.pure, Except.map, hv]
      | ok x =>
        simp [bind, Except.bind, pure, Except.pure, Except.map, hv, boolOp_pair, hunwrap, htruth]
    · have hv' : py.truthy v = !op.stop := by
        cases h : py.truthy v <;> cases h' : op.stop <;> simp_all
      -- the second operand is the value of one form, and its truth that of the other
      cases ha : py.visit (wrapContext context) a with
      | error e => simp [bind, Except.bind, Except.map, hv']
      | ok x =>
        have hvalue := truthy_unwrapValue py x
        cases hx : x.isEmptyView with
        | true =>
          rw [hx, truthy_of_isEmptyView hx] at hvalue
          simp [bind, Except.bind, pure, Except.pure, Except.map, hv', boolOp_pair, hunwrap, htruth,
            hvalue, hx, truthy_of_isEmptyView hx]
        | false =>
          rw [hx, Bool.not_false, Bool.and_true] at hvalue
          simp [bind, Except.bind, pure, Except.pure, Except.map, hv', boolOp_pair, hunwrap, htruth,
            hvalue, hx]

/-- **When the three conditionals agree**: when no operand that one form leaves out fails in
another, and the context neither hides the helper nor yields a view of an empty object. -/
theorem conditionals_agree_iff (hjson : PyVal.isJsonItems context = true) :
    (py.evaluateTree (ifCall c a b) context = py.evaluateTree (.ifExp c a b) context ↔
      IfHarmless py context c a b) ∧
    ∀ op : BoolOperator, py.truthOf (py.evaluateTree (.boolOp op [c, a]) context) =
        py.truthOf (py.evaluateTree (operatorIfExp op c a) context) ↔
      OperandHarmless py context c a op :=
  ⟨ifCall_agrees_iff hjson, operator_agrees_iff⟩

end Forms

/-- The tree of `1 / 0`. -/
def divideByZero : Node := .binOp (.constant (.int 1)) .div (.constant (.int 0))

/-- The tree of `total > 10`. -/
def overTen : Node := .compare (.name "total") [(.gt, .constant (.int 10))]

/-- A total of 12. -/
def twelve : Context := [("total", .int 12)]

/-- The forms agree on a total that is over ten, on a test that fails itself, and not where the
branch that is left out divides by zero. -/
theorem conditionals_agree_iff_total :
    (plainPython []).evaluateTree (ifCall overTen (.name "total") (.constant (.int 0))) twelve =
        (plainPython []).evaluateTree
          (.ifExp overTen (.name "total") (.constant (.int 0))) twelve ∧
      (∀ op, OperandHarmless (plainPython []) twelve overTen (.name "total") op) ∧
      IfHarmless (plainPython []) twelve divideByZero (.name "total") (.constant (.int 0)) ∧
      ¬IfHarmless (plainPython []) twelve overTen (.name "total") divideByZero := by
  have htest : (plainPython []).visit (wrapContext twelve) overTen = .ok (.bool true) := rfl
  refine ⟨?_, ?_, ?_, ?_⟩
  · refine (conditionals_agree_iff rfl).1.mpr ⟨fun _ _ _ _ _ _ => rfl, fun _ _ _ _ _ => ⟨_, rfl⟩, ?_⟩
    intro v e hv hfalse
    obtain rfl := Except.ok.inj (htest.symm.trans hv)
    cases hfalse
  · intro op
    refine ((conditionals_agree_iff (b := .constant .none) rfl).2 op).mp ?_
    cases op with
    | and => rfl
    | or => rfl
  · exact (conditionals_agree_iff rfl).1.mp rfl
  · intro hharmless
    have hagree := (conditionals_agree_iff rfl).1.mpr hharmless
    cases hagree

/-- **`if(False, 1 / 0, 0)` fails**, and `1 / 0 if False else 0` does not. -/
theorem conditionals_differ :
    ¬∀ (py : Python) (context : Context) (c a b : Node), PyVal.isJsonItems context = true →
      py.evaluateTree (ifCall c a b) context = py.evaluateTree (.ifExp c a b) context ∧
      ∀ op : BoolOperator, py.truthOf (py.evaluateTree (.boolOp op [c, a]) context) =
        py.truthOf (py.evaluateTree (operatorIfExp op c a) context) := by
  intro hall
  have h := (hall (plainPython []) [] (.constant (.bool false)) divideByZero (.constant (.int 0))
    rfl).1
  cases h

end ExtractFlow
