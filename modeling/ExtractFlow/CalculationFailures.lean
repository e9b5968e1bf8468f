import ExtractFlow.CalculationLocality
import ExtractFlow.EvaluationErrors

/-!
# Failures of calculated fields

The loop of `evaluate_calculated_fields` catches three classes of exceptions
around the evaluation of a formula and nothing around what follows: the rounding
of an amount, the text of the value and the comparison with the bounds.  What it
does not catch aborts the run, and with it every other calculated field.

`Escapes` follows the exceptions through a turn: an operation of the formula raises
another class than the three, or the amount, the text or a bound raises.  A run
returns exactly when none does, and then every failure is in the result of its field.
What raises, on which arguments, is the subject of the module on the limits of
calculations.

## Main definitions

* `Escapes` — an exception leaves the turn of a field.
* `NothingEscapes` — none does, in the contexts that hold what the formulas name.
* `RecordedFailure` — a failure in the result of its field.

## Main results

* `turn_returns_iff` — a turn returns when nothing escapes.
* `evaluateCalculatedFields_returns_iff` — so does a run.
* `recordedFailure_of_turn` — a turn that returns records the failure of its formula.
* `evaluateCalculatedFields_turns` — a run that returns is one of turns, in order.
-/

namespace ExtractFlow

/-! ### The outcome of a formula -/

/-- The `try` block of a turn, before its handlers. -/
def Python.formulaOutcome (py : Python) (d : CalculatedFieldDefinition) (available : List String)
    (context : Context) : Except EvalErr PyVal := do
  py.validateFormula d.formula available
  py.evaluate d.formula context

/-- What the handlers make of an exception they catch. -/
def failureFindings (d : CalculatedFieldDefinition) : EvalErr → Findings
  | .builtin .zeroDivisionError =>
      applyErrorHandling d.errorHandling.onDivideByZero "Division by zero."
        "Division by zero returned null by policy."
  | .builtin _ => missingInput d
  | .formula e =>
      if e.message = attributeAccessMessage then missingInput d else { errors := [e.message] }

section Outcome

variable {py : Python} {sets : SetOrder} {num : PyNumeric} {available : List String}
  {context : Context} {d : CalculatedFieldDefinition}

theorem evaluateFormula_of_ok {v : PyVal} (h : py.formulaOutcome d available context = .ok v) :
    evaluateFormula (py.engine sets) d available context = .ok (v, {}) := by
  obtain ⟨⟨⟩, hvalid, hvalue⟩ := Failing.bind_ok.mp h
  unfold evaluateFormula
  simp only [Python.engine, hvalid, hvalue]
  rfl

theorem evaluateFormula_of_error {e : EvalErr}
    (h : py.formulaOutcome d available context = .error e) :
    evaluateFormula (py.engine sets) d available context =
      if e.caught then .ok (.none, failureFindings d e) else .error e.toPyErr := by
  have herror : (do (py.engine sets).validateFormula d.formula available
                    (py.engine sets).evaluate d.formula context : Except PyErr PyVal) =
      .error e.toPyErr := by
    simp only [Python.engine]
    rcases Failing.bind_error.mp h with hvalid | ⟨⟨⟩, hvalid, hvalue⟩
    · rw [hvalid]
      rfl
    · rw [hvalid, hvalue]
      rfl
  unfold evaluateFormula
  rw [herror]
  cases e with
  | formula e => rfl
  | builtin e => cases e <;> rfl

/-- **Every failure that is caught leaves an error or a note.** -/
theorem failureFindings_ne (d : CalculatedFieldDefinition) (e : EvalErr) :
    (failureFindings d e).errors ≠ [] ∨
      buildCalculationNotes (failureFindings d e).notes ≠ buildCalculationNotes [] := by
  have hpolicy : ∀ policy msg, (applyErrorHandling policy msg
        "Missing input returned null by policy.").errors ≠ [] ∨
      buildCalculationNotes (applyErrorHandling policy msg
        "Missing input returned null by policy.").notes ≠ buildCalculationNotes [] := by
    intro policy msg
    cases policy with
    | returnNullAndFlagReview => exact Or.inl (List.cons_ne_nil _ _)
    | returnNull =>
      refine Or.inr ?_
      show buildCalculationNotes ["Missing input returned null by policy."] ≠
        buildCalculationNotes []
      decide
  unfold failureFindings
  split
  · cases d.errorHandling.onDivideByZero with
    | returnNullAndFlagReview => exact Or.inl (List.cons_ne_nil _ _)
    | returnNull => exact Or.inr (by decide)
  · exact hpolicy _ _
  · split
    · exact hpolicy _ _
    · exact Or.inl (List.cons_ne_nil _ _)

end Outcome

/-! ### What escapes -/

/-- The value becomes an amount of money. -/
def isAmount (d : CalculatedFieldDefinition) (v : PyVal) : Bool :=
  d.outputType == .currency && v.isNumber

/-- What follows the evaluation of the formula raises, on the value of the formula. -/
inductive Rejected (num : PyNumeric) (d : CalculatedFieldDefinition) (v : PyVal) : Prop
  /-- The value is no decimal number that has cents. -/
  | amount (e : PyErr) : isAmount d v = true → num.roundCents v = .error e → Rejected num d v
  /-- The value has no text. -/
  | display (e : PyErr) : isAmount d v = false → v.isNone = false → num.display v = .error e →
      Rejected num d v
  /-- A bound meets a value that is no number. -/
  | bound : isAmount d v = false → (boundCandidate v).isNone = false →
      (boundCandidate v).isNumber = false →
      d.validation.min.isSome = true ∨ d.validation.max.isSome = true → Rejected num d v

/-- An exception leaves the turn of the field, and with it the loop: nothing around the turn catches
it. -/
inductive Escapes (py : Python) (num : PyNumeric) (available : List String) (context : Context)
    (d : CalculatedFieldDefinition) : Prop
  /-- An operation of the formula raises an exception that is not caught. -/
  | operation (tree : Node) : py.compileFormula d.formula = .ok tree →
      (∀ id ∈ tree.names, id ∈ allowedFunctions ∨ id ∈ available) →
      Hits (fun e => e.caught = false) py (wrapContext context) tree →
      Escapes py num available context d
  /-- What follows raises. -/
  | value (v : PyVal) : py.formulaOutcome d available context = .ok v → Rejected num d v →
      Escapes py num available context d

section Turn

variable {py : Python} {sets : SetOrder} {num : PyNumeric} {available : List String}
  {context : Context} {d : CalculatedFieldDefinition}

/-- The formula raises what is not caught when it gets to an operation that does. -/
theorem outcome_uncaught_iff {tree : Node} (htree : py.compileFormula d.formula = .ok tree) :
    Raises (fun e => e.caught = false) (py.formulaOutcome d available context) ↔
      (∀ id ∈ tree.names, id ∈ allowedFunctions ∨ id ∈ available) ∧
        Hits (fun e => e.caught = false) py (wrapContext context) tree := by
  have hnames := formulaNames_of_compile htree
  have hevaluate : Raises (fun e => e.caught = false) (py.evaluate d.formula context) ↔
      Hits (fun e => e.caught = false) py (wrapContext context) tree := by
    unfold Python.evaluate
    rw [htree, Failing.bind_of_ok rfl, raises_map, raises_visit_iff]
  have hvalid : py.validateFormula d.formula available = .ok () ↔
      (∃ tree, py.compileFormula d.formula = .ok tree) ∧
        ∀ id ∈ tree.names, id ∈ allowedFunctions ∨ id ∈ available := by
    rw [validateFormula_ok_iff, hnames]
  unfold Python.formulaOutcome
  by_cases hknown : ∀ id ∈ tree.names, id ∈ allowedFunctions ∨ id ∈ available
  · rw [hvalid.mpr ⟨⟨tree, htree⟩, hknown⟩, Failing.bind_of_ok rfl, hevaluate]
    exact ⟨fun h => ⟨hknown, h⟩, fun h => h.2⟩
  · refine iff_of_false ?_ fun h => hknown h.1
    -- the only exception of the check is a formula error
    have hcaught : ¬ Raises (fun e => e.caught = false) (py.validateFormula d.formula available) := by
      unfold Python.validateFormula
      rw [htree, Failing.bind_of_ok rfl]
      split
      · exact (raises_error _).not.mpr (by simp [EvalErr.caught])
      · exact not_raises_ok _
    rw [raises_bind]
    rintro (h | ⟨⟨⟩, h, -⟩)
    · exact hcaught h
    · exact hknown (hvalid.mp h).2

/-- A bound can be compared with what is null or a number. -/
theorem boundErrors_returns_iff {candidate : PyVal} {bound : Option PyFloat}
    {breaks : PyVal → PyFloat → Except PyErr Bool} {msg : String}
    (hbreaks : ∀ m, (∃ b, breaks candidate m = .ok b) ↔ candidate.isNumber = true) :
    (∃ errors, boundErrors candidate bound breaks msg = .ok errors) ↔
      bound.isSome = false ∨ candidate.isNone = true ∨ candidate.isNumber = true := by
  cases bound with
  | none => exact iff_of_true ⟨_, rfl⟩ (Or.inl rfl)
  | some m =>
    simp only [boundErrors, Option.isSome_some, Bool.true_eq_false, false_or]
    cases hnone : candidate.isNone with
    | true => exact iff_of_true ⟨_, rfl⟩ (Or.inl rfl)
    | false =>
      rw [if_neg (by decide), ← hbreaks m]
      simp only [Bool.false_eq_true, false_or]
      constructor
      · rintro ⟨errors, h⟩
        obtain ⟨b, hb, -⟩ := Failing.map_ok.mp h
        exact ⟨b, hb⟩
      · rintro ⟨b, hb⟩
        exact ⟨_, Failing.map_ok.mpr ⟨b, hb, rfl⟩⟩

theorem ltFloat_returns_iff (v : PyVal) (m : PyFloat) :
    (∃ b, v.ltFloat m = .ok b) ↔ v.isNumber = true := by
  unfold PyVal.ltFloat PyVal.isNumber
  cases v.number? with
  | none => simp
  | some x => simp

theorem gtFloat_returns_iff (v : PyVal) (m : PyFloat) :
    (∃ b, v.gtFloat m = .ok b) ↔ v.isNumber = true := by
  unfold PyVal.gtFloat PyVal.isNumber
  cases v.number? with
  | none => simp
  | some x => simp

/-- The bounds of a field can be compared with a value. -/
def Comparable (rule : ValidationRule) (candidate : PyVal) : Prop :=
  (rule.min.isSome = false ∧ rule.max.isSome = false) ∨ candidate.isNone = true ∨
    candidate.isNumber = true

theorem validateCalculatedField_returns_iff {result : CalculatedFieldResult}
    {rule : ValidationRule} :
    (∃ r, validateCalculatedField result rule = .ok r) ↔
      Comparable rule (boundCandidate result.calculatedValue) := by
  have hboth : (∃ r, validateCalculatedField result rule = .ok r) ↔
      (∃ low, boundErrors (boundCandidate result.calculatedValue) rule.min PyVal.ltFloat
          "Calculated value is below minimum." = .ok low) ∧
        ∃ high, boundErrors (boundCandidate result.calculatedValue) rule.max PyVal.gtFloat
          "Calculated value is above maximum." = .ok high := by
    unfold validateCalculatedField
    constructor
    · rintro ⟨r, h⟩
      obtain ⟨low, hlow, h⟩ := Failing.bind_ok.mp h
      obtain ⟨high, hhigh, -⟩ := Failing.bind_ok.mp h
      exact ⟨⟨low, hlow⟩, high, hhigh⟩
    · rintro ⟨⟨low, hlow⟩, high, hhigh⟩
      exact ⟨_, Failing.bind_ok.mpr ⟨low, hlow, Failing.bind_ok.mpr ⟨high, hhigh, rfl⟩⟩⟩
  rw [hboth, boundErrors_returns_iff (ltFloat_returns_iff _),
    boundErrors_returns_iff (gtFloat_returns_iff _)]
  unfold Comparable
  tauto

/-- What a turn does with the value of its formula. -/
theorem turn_of_evaluateFormula {tree : Node} (htree : py.compileFormula d.formula = .ok tree)
    {v : PyVal} {findings : Findings}
    (h : evaluateFormula (py.engine sets) d available context = .ok (v, findings)) :
    (∃ r, evaluateCalculatedField (py.engine sets) num available context d = .ok r) ↔
      ∃ p, normalizeCalculatedOutput num d v = .ok p ∧
        Comparable d.validation (boundCandidate p.1) := by
  obtain ⟨refs, hrefs, -, -⟩ := collectFormulaReferences_returns sets htree available
  have hdepends : resultDependencies (py.engine sets) d available = .ok (sortedNames refs) := by
    unfold resultDependencies
    rw [hrefs]
  unfold evaluateCalculatedField
  rw [h, Failing.bind_of_ok rfl, hdepends]
  constructor
  · rintro ⟨r, hr⟩
    obtain ⟨p, hp, hr⟩ := Failing.bind_ok.mp hr
    obtain ⟨depends, -, hr⟩ := Failing.bind_ok.mp hr
    exact ⟨p, hp, validateCalculatedField_returns_iff.mp ⟨r, hr⟩⟩
  · rintro ⟨p, hp, hcomparable⟩
    simp only [hp]
    exact validateCalculatedField_returns_iff.mpr hcomparable

/-- A null value is no amount, and has an empty text. -/
theorem normalizeCalculatedOutput_none :
    normalizeCalculatedOutput num d .none = .ok (.none, "") := by
  unfold normalizeCalculatedOutput
  have hamount : ¬ (d.outputType == .currency && PyVal.none.isNumber) = true := by
    simp [PyVal.isNumber, PyVal.number?]
  rw [if_neg hamount]
  rfl

/-- A value passes what follows the evaluation when it is not rejected. -/
theorem normalize_returns_iff (v : PyVal) :
    (∃ p, normalizeCalculatedOutput num d v = .ok p ∧
        Comparable d.validation (boundCandidate p.1)) ↔ ¬ Rejected num d v := by
  unfold normalizeCalculatedOutput
  cases hamount : isAmount d v with
  | true =>
    have hif : (d.outputType == .currency && v.isNumber) = true := hamount
    rw [if_pos hif]
    cases hcents : num.roundCents v with
    | error e =>
      refine iff_of_false ?_ fun hno => hno (.amount e hamount hcents)
      rintro ⟨p, hp, -⟩
      cases hp
    | ok amount =>
      -- an amount is a number, which every bound compares with
      refine iff_of_true ⟨_, rfl, Or.inr (Or.inr rfl)⟩ fun h => ?_
      cases h with
      | amount e _ hcents' => rw [hcents] at hcents'; cases hcents'
      | display e hno _ _ => rw [hamount] at hno; cases hno
      | bound hno _ _ _ => rw [hamount] at hno; cases hno
  | false =>
    have hif : (d.outputType == .currency && v.isNumber) = false := hamount
    have hcomparable : Comparable d.validation (boundCandidate v) ↔
        ¬ ((boundCandidate v).isNone = false ∧ (boundCandidate v).isNumber = false ∧
          (d.validation.min.isSome = true ∨ d.validation.max.isSome = true)) := by
      unfold Comparable
      cases d.validation.min.isSome <;> cases d.validation.max.isSome <;>
        cases (boundCandidate v).isNone <;> cases (boundCandidate v).isNumber <;> simp
    have hrejected : Rejected num d v ↔ (v.isNone = false ∧ ∃ e, num.display v = .error e) ∨
        ¬ Comparable d.validation (boundCandidate v) := by
      rw [hcomparable, not_not]
      constructor
      · intro h
        cases h with
        | amount e hyes _ => rw [hamount] at hyes; cases hyes
        | display e _ hnone hdisplay => exact Or.inl ⟨hnone, e, hdisplay⟩
        | bound _ hnone hnumber hbound => exact Or.inr ⟨hnone, hnumber, hbound⟩
      · rintro (⟨hnone, e, hdisplay⟩ | ⟨hnone, hnumber, hbound⟩)
        · exact .display e hamount hnone hdisplay
        · exact .bound hamount hnone hnumber hbound
    rw [if_neg (by rw [hif]; decide), hrejected, not_or, not_not]
    cases hnone : v.isNone with
    | true =>
      rw [if_pos rfl]
      constructor
      · rintro ⟨p, hp, h⟩
        obtain rfl := Except.ok.inj hp
        exact ⟨by simp, h⟩
      · exact fun h => ⟨_, rfl, h.2⟩
    | false =>
      rw [if_neg (by decide)]
      constructor
      · rintro ⟨p, hp, h⟩
        obtain ⟨text, htext, rfl⟩ := Failing.map_ok.mp hp
        refine ⟨?_, h⟩
        rintro ⟨-, e, he⟩
        rw [htext] at he
        cases he
      · rintro ⟨hdisplay, h⟩
        cases htext : num.display v with
        | error e => exact absurd ⟨rfl, e, htext⟩ hdisplay
        | ok text => exact ⟨_, rfl, h⟩

/-- **The turn of a field returns exactly when nothing escapes**, if its formula can be parsed. -/
theorem turn_returns_iff {tree : Node} (htree : py.compileFormula d.formula = .ok tree) :
    (∃ r, evaluateCalculatedField (py.engine sets) num available context d = .ok r) ↔
      ¬ Escapes py num available context d := by
  have huncaught : Raises (fun e => e.caught = false) (py.formulaOutcome d available context) ↔
      (∀ id ∈ tree.names, id ∈ allowedFunctions ∨ id ∈ available) ∧
        Hits (fun e => e.caught = false) py (wrapContext context) tree :=
    outcome_uncaught_iff htree
  have hescapes : Escapes py num available context d ↔
      Raises (fun e => e.caught = false) (py.formulaOutcome d available context) ∨
        ∃ v, py.formulaOutcome d available context = .ok v ∧ Rejected num d v := by
    constructor
    · intro h
      cases h with
      | operation tree' htree' hknown hhits =>
        exact Or.inl ((outcome_uncaught_iff htree').mpr ⟨hknown, hhits⟩)
      | value v hv hrejected => exact Or.inr ⟨v, hv, hrejected⟩
    · rintro (h | ⟨v, hv, hrejected⟩)
      · exact .operation tree htree (huncaught.mp h).1 (huncaught.mp h).2
      · exact .value v hv hrejected
  rw [hescapes]
  cases houtcome : py.formulaOutcome d available context with
  | error e =>
    have hformula : evaluateFormula (py.engine sets) d available context =
        if e.caught then .ok (.none, failureFindings d e) else .error e.toPyErr :=
      evaluateFormula_of_error houtcome
    simp only [raises_error, reduceCtorEq, false_and, exists_false, or_false]
    cases hcaught : e.caught with
    | true =>
      rw [hcaught, if_pos rfl] at hformula
      refine iff_of_true ((turn_of_evaluateFormula htree hformula).mpr ?_) (by decide)
      -- the bounds let a null value pass
      exact ⟨(.none, ""), normalizeCalculatedOutput_none, Or.inr (Or.inl rfl)⟩
    | false =>
      rw [hcaught, if_neg (by decide)] at hformula
      refine iff_of_false ?_ (by simp)
      rintro ⟨r, hr⟩
      unfold evaluateCalculatedField at hr
      rw [hformula] at hr
      cases hr
  | ok v =>
    rw [turn_of_evaluateFormula htree (evaluateFormula_of_ok houtcome), normalize_returns_iff]
    have hok : ¬ Raises (fun e => e.caught = false) (.ok v : Except EvalErr PyVal) :=
      not_raises_ok v
    simp [hok]

end Turn

/-! ### What is recorded -/

/-- A failure in the result of its field: no value, and an error or a policy's note. -/
def RecordedFailure (r : CalculatedFieldResult) : Prop :=
  r.calculatedValue = .none ∧
    (r.validationErrors ≠ [] ∨ r.calculationNotes ≠ buildCalculationNotes [])

theorem validateCalculatedField_kept {result result' : CalculatedFieldResult}
    {rule : ValidationRule} (h : validateCalculatedField result rule = .ok result') :
    result'.calculatedValue = result.calculatedValue ∧
      result'.calculationNotes = result.calculationNotes := by
  unfold validateCalculatedField at h
  obtain ⟨low, -, h⟩ := Failing.bind_ok.mp h
  obtain ⟨high, -, h⟩ := Failing.bind_ok.mp h
  obtain rfl := Except.ok.inj h
  exact ⟨rfl, rfl⟩

/-- **A turn that returns records the failure of its formula** in the result, as an error or as a
note. -/
theorem recordedFailure_of_turn {py : Python} {sets : SetOrder} {num : PyNumeric}
    {available : List String} {context : Context} {d : CalculatedFieldDefinition}
    {r : CalculatedFieldResult} {e : EvalErr}
    (hturn : evaluateCalculatedField (py.engine sets) num available context d = .ok r)
    (houtcome : py.formulaOutcome d available context = .error e) : RecordedFailure r := by
  unfold evaluateCalculatedField at hturn
  obtain ⟨⟨raw, findings⟩, hformula, hturn⟩ := Failing.bind_ok.mp hturn
  obtain ⟨⟨value, displayValue⟩, hnormalize, hturn⟩ := Failing.bind_ok.mp hturn
  obtain ⟨dependsOn, -, hturn⟩ := Failing.bind_ok.mp hturn
  rw [evaluateFormula_of_error houtcome] at hformula
  split at hformula
  · obtain ⟨rfl, rfl⟩ := Prod.mk.inj (Except.ok.inj hformula)
    rw [normalizeCalculatedOutput_none] at hnormalize
    obtain ⟨rfl, -⟩ := Prod.mk.inj (Except.ok.inj hnormalize)
    obtain ⟨hvalue, hnotes⟩ := validateCalculatedField_kept hturn
    obtain ⟨-, -, -, more, hmore⟩ := validateCalculatedField_spec hturn
    refine ⟨hvalue, ?_⟩
    rw [hnotes, hmore]
    rcases failureFindings_ne d e with herrors | hnotes
    · exact Or.inl fun hnil => herrors (List.append_eq_nil_iff.mp hnil).1
    · exact Or.inr hnotes
  · cases hformula

/-! ### Runs -/

section Run

variable {py : Python} {num : PyNumeric} {t : ExtractionTemplate}
  {fields : List CalculatedFieldDefinition} {extracted : List ExtractionFieldResult}

/-- No exception leaves the turn of a field, in a context that holds what its formula
names: the extracted values, and the values of the fields before it. -/
def NothingEscapes (py : Python) (num : PyNumeric) (fields : List CalculatedFieldDefinition)
    (extracted : List ExtractionFieldResult) : Prop :=
  ∀ d ∈ fields, ∀ (res : CalculatedFieldDefinition → CalculatedFieldResult) (context : Context),
    (∀ d' ∈ fields, d'.name ∈ py.formulaNames d.formula →
      ResultIn py num fields extracted d' (res d')) →
    Valuation py (extractedContext extracted) fields d res context →
    ¬ Escapes py num (availableNames fields extracted) context d

/-- **A run returns exactly when nothing escapes** from the turn of any field, in the context that
its dependencies make. -/
theorem evaluateCalculatedFields_returns_iff (sets : SetOrder) (h : Accepted py t)
    (hperm : fields.Perm t.calculatedFields) :
    (∃ results, evaluateCalculatedFields (py.engine sets) num fields extracted = .ok results) ↔
      NothingEscapes py num fields extracted := by
  have hparses : ∀ d ∈ fields, ∃ tree, py.compileFormula d.formula = .ok tree :=
    fun d hd => (h.formulas d (hperm.mem_iff.mp hd)).parses
  constructor
  · rintro ⟨results, hrun⟩ d hd res context hres hvaluation
    obtain ⟨ordered, horder, hresults⟩ := evaluateCalculatedFields_hasResult h hperm hrun
    obtain ⟨r, -, hr⟩ :=
      resultOf_of_forall₂ horder.ordered_nodup hresults (horder.perm.mem_iff.mpr hd)
    obtain ⟨tree, htree⟩ := hparses d hd
    cases hr with
    | turn _ _ res' context' sets' _ hres' hvaluation' hturn =>
      have hagree := hvaluation.agree hvaluation' fun d' hd' hid =>
        (hres d' hd' hid).unique (hres' d' hd' hid)
      -- the turn of the run was in a context that agrees on what the formula names
      have hsame : evaluateCalculatedField (py.engine sets') num (availableNames fields extracted)
          context d = evaluateCalculatedField (py.engine sets') num
            (availableNames fields extracted) context' d :=
        turn_congr (fun _ _ => Iff.rfl) hagree
      exact (turn_returns_iff htree).mp ⟨r, hsame.trans hturn⟩
  · intro hnothing
    obtain ⟨ordered, hordered, horder⟩ := h.inOrder sets hperm
    -- field by field, each turn finds the results of those before it
    have hloop : ∃ st, ordered.foldlM
        (calculationTurn (py.engine sets) num (availableNames fields extracted))
        ([], extractedContext extracted) = .ok st ∧
          LoopInv py num (availableNames fields extracted) (extractedContext extracted) fields
            ordered st := by
      refine Failing.foldlM_returns (I := LoopInv py num (availableNames fields extracted)
        (extractedContext extracted) fields) ?_ loopInv_nil
      intro seen d after hsplit st hinv
      have hd : d ∈ fields := horder.perm.mem_iff.mp (by simp [hsplit])
      obtain ⟨res, hres, hvaluation⟩ := hinv.valuation horder hsplit
      obtain ⟨tree, htree⟩ := hparses d hd
      obtain ⟨r, hturn⟩ : ∃ r, evaluateCalculatedField (py.engine sets) num
          (availableNames fields extracted) st.2 d = .ok r :=
        (turn_returns_iff htree).mpr (hnothing d hd res st.2 hres hvaluation)
      exact ⟨_, Failing.bind_ok.mpr ⟨r, hturn, rfl⟩, (hinv.step horder hsplit hturn).2⟩
    obtain ⟨st, hloop, -⟩ := hloop
    refine ⟨st.1, ?_⟩
    rw [evaluateCalculatedFields_eq, hordered, Failing.bind_of_ok rfl, hloop]
    rfl

/-- A run that returns is a run of turns, one for each field, after those it refers to. -/
theorem evaluateCalculatedFields_turns {sets : SetOrder} (h : Accepted py t)
    {results : List CalculatedFieldResult}
    (hrun : evaluateCalculatedFields (py.engine sets) num t.calculatedFields extracted =
      .ok results) :
    ∃ turns, CalculationRun (py.engine sets) num (availableNames t.calculatedFields extracted)
        (extractedContext extracted) turns ∧
      turns.map Turn.result = results ∧
      InOrder py t.calculatedFields (turns.map Turn.definition) := by
  obtain ⟨ordered, hordered, horder⟩ := h.inOrder sets (List.Perm.refl t.calculatedFields)
  rw [evaluateCalculatedFields_eq, hordered, Failing.bind_of_ok rfl] at hrun
  obtain ⟨st, hloop, hst⟩ := Failing.bind_ok.mp hrun
  obtain rfl := Except.ok.inj hst
  obtain ⟨turns, hturns, rfl, hresults⟩ := run_of_loop hloop
  exact ⟨turns, hturns, by simpa using hresults.symm, horder⟩

end Run

end ExtractFlow
