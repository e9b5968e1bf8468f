import ExtractFlow.CalculationFailures
import ExtractFlow.UncaughtErrors

/-!
# The limits of calculations

A run of the calculations aborts exactly when a calculated field meets one of a few
limits, and each of them is a condition on the arguments of a step.  In the formula: an
operation on operands that break it, such as the minimum of no items, the floor of an
infinity, the currency text of a word, or an integer too large for the float beside it.
After the formula: an amount without cents, an integer too long to print, or a bound on a
value that is no number.  Whatever else goes wrong is recorded on the field.

## Main definitions

* `PyVal.hasCents`, `Unfit` — the values a field takes, by its output type and its bounds.
* `NumericErrors` — what is documented of `Decimal` and `str`.
* `MeetsLimit`, `NoLimitMet` — the turn of a field meets a limit, and no turn does.

## Main results

* `escapes_iff_meetsLimit` — an exception leaves a turn exactly at a limit.
* `one_result_each_iff` — every field has one result, and every failure is recorded, exactly
  when no field meets a limit.
* `empty_min_aborts` — the minimum of an empty list aborts the run.
-/

namespace ExtractFlow

/-! ### The limits of a field -/

/-- A number with cents: written out to two places it has at most 28 digits, or it is the
not-a-number.  A truth value is written as a word. -/
def PyVal.hasCents : PyVal → Bool
  | .int i => decide (|i| < 10 ^ 26)
  | .float (.fin q) => decide (|q| < 10 ^ 26)
  | .float .nan => true
  | _ => false

/-- What is documented of `Decimal` and of `str`: which numbers have cents, and which values can be
printed. -/
structure NumericErrors (num : PyNumeric) : Prop where
  roundCents : ∀ v : PyVal, v.isNumber = true →
    ((∃ x, num.roundCents v = .ok x) ↔ v.hasCents = true)
  display : ∀ v, (∃ s, num.display v = .ok s) ↔ v.hasLongInt = false

/-- The output type or a bound of the field does not take the value. -/
inductive Unfit (d : CalculatedFieldDefinition) (v : PyVal) : Prop
  /-- A currency number without cents: a truth value, an infinity, or 10 ^ 26 and beyond. -/
  | amount : isAmount d v = true → v.hasCents = false → Unfit d v
  /-- An integer too long for the text of the value. -/
  | display : isAmount d v = false → v.hasLongInt = true → Unfit d v
  /-- A bound meets a value that is neither null nor a number. -/
  | bound : isAmount d v = false → (boundCandidate v).isNone = false →
      (boundCandidate v).isNumber = false →
      d.validation.min.isSome = true ∨ d.validation.max.isSome = true → Unfit d v

/-- The turn of the field meets a limit, in its formula or with the value of it. -/
inductive MeetsLimit (py : Python) (available : List String) (context : Context)
    (d : CalculatedFieldDefinition) : Prop
  /-- The formula gets to an operation that its operands break. -/
  | operation (tree : Node) (op : FormulaOperation) : py.compileFormula d.formula = .ok tree →
      (∀ id ∈ tree.names, id ∈ allowedFunctions ∨ id ∈ available) →
      Performs py (wrapContext context) tree op → op.Breaks py →
      MeetsLimit py available context d
  /-- Its value is one that the field does not take. -/
  | value (v : PyVal) : py.formulaOutcome d available context = .ok v → Unfit d v →
      MeetsLimit py available context d

/-- No field meets a limit, in a context that holds what its formula names: the extracted
values, and the values of the fields before it. -/
def NoLimitMet (py : Python) (num : PyNumeric) (fields : List CalculatedFieldDefinition)
    (extracted : List ExtractionFieldResult) : Prop :=
  ∀ d ∈ fields, ∀ (res : CalculatedFieldDefinition → CalculatedFieldResult) (context : Context),
    (∀ d' ∈ fields, d'.name ∈ py.formulaNames d.formula →
      ResultIn py num fields extracted d' (res d')) →
    Valuation py (extractedContext extracted) fields d res context →
    ¬ MeetsLimit py (availableNames fields extracted) context d

section Limits

variable {py : Python} {num : PyNumeric} {available : List String} {context : Context}
  {d : CalculatedFieldDefinition}

/-- A computation raises exactly when it does not return. -/
theorem exists_error_iff {α : Type} (x : Except PyErr α) :
    (∃ e, x = .error e) ↔ ¬ ∃ a, x = .ok a := by
  cases x with
  | ok a => exact iff_of_false (fun ⟨e, he⟩ => by cases he) (fun h => h ⟨a, rfl⟩)
  | error e => exact iff_of_true ⟨e, rfl⟩ (fun ⟨a, ha⟩ => by cases ha)

theorem roundCents_error_iff (hnum : NumericErrors num) {v : PyVal} (hv : v.isNumber = true) :
    (∃ e, num.roundCents v = .error e) ↔ v.hasCents = false := by
  rw [exists_error_iff, hnum.roundCents v hv]
  simp

theorem display_error_iff (hnum : NumericErrors num) (v : PyVal) :
    (∃ e, num.display v = .error e) ↔ v.hasLongInt = true := by
  rw [exists_error_iff, hnum.display v]
  simp

/-- What follows the formula raises on the values the field does not take. -/
theorem rejected_iff_unfit (hnum : NumericErrors num) (v : PyVal) :
    Rejected num d v ↔ Unfit d v := by
  have hnumber : isAmount d v = true → v.isNumber = true := fun h =>
    (Bool.and_eq_true_iff.mp h).2
  constructor
  · intro h
    cases h with
    | amount e hamount he =>
      exact .amount hamount ((roundCents_error_iff hnum (hnumber hamount)).mp ⟨e, he⟩)
    | display e hamount _ he => exact .display hamount ((display_error_iff hnum v).mp ⟨e, he⟩)
    | bound hamount hnone hno hbound => exact .bound hamount hnone hno hbound
  · intro h
    cases h with
    | amount hamount hcents =>
      obtain ⟨e, he⟩ := (roundCents_error_iff hnum (hnumber hamount)).mpr hcents
      exact .amount e hamount he
    | display hamount hlong =>
      obtain ⟨e, he⟩ := (display_error_iff hnum v).mpr hlong
      refine .display e hamount ?_ he
      -- a null value has no integer in it
      cases v with
      | none => cases hlong
      | _ => rfl
    | bound hamount hnone hno hbound => exact .bound hamount hnone hno hbound

/-- **An exception leaves the turn of a field exactly when the turn meets a limit.** -/
theorem escapes_iff_meetsLimit (hpy : LibraryErrors py) (hnum : NumericErrors num) :
    Escapes py num available context d ↔ MeetsLimit py available context d := by
  constructor
  · intro h
    cases h with
    | operation tree htree hknown hhits =>
      obtain ⟨op, hop, hbreaks⟩ := (hits_uncaught_iff hpy tree).mp hhits
      exact .operation tree op htree hknown hop hbreaks
    | value v hv hrejected => exact .value v hv ((rejected_iff_unfit hnum v).mp hrejected)
  · intro h
    cases h with
    | operation tree op htree hknown hop hbreaks =>
      exact .operation tree htree hknown ((hits_uncaught_iff hpy tree).mpr ⟨op, hop, hbreaks⟩)
    | value v hv hunfit => exact .value v hv ((rejected_iff_unfit hnum v).mpr hunfit)

theorem nothingEscapes_iff_noLimitMet (hpy : LibraryErrors py) (hnum : NumericErrors num)
    {fields : List CalculatedFieldDefinition} {extracted : List ExtractionFieldResult} :
    NothingEscapes py num fields extracted ↔ NoLimitMet py num fields extracted := by
  unfold NothingEscapes NoLimitMet
  simp only [escapes_iff_meetsLimit hpy hnum]

end Limits

/-- **Every field has one result, and every failure is recorded, exactly when no field meets
a limit.** -/
theorem one_result_each_iff (py : Python) (sets₀ sets : SetOrder) (num : PyNumeric)
    (hpy : LibraryErrors py) (hnum : NumericErrors num)
    (checkSchema : PyVal → Option String) (t : ExtractionTemplate)
    (extracted : List ExtractionFieldResult)
    (hvalid : validateTemplate (py.engine sets₀) checkSchema t = .ok ()) :
    (∃ turns : List Turn,
      evaluateCalculatedFields (py.engine sets) num t.calculatedFields extracted =
        .ok (turns.map Turn.result) ∧
      CalculationRun (py.engine sets) num (availableNames t.calculatedFields extracted)
        (extractedContext extracted) turns ∧
      (turns.map Turn.definition).Perm t.calculatedFields ∧
      ∀ turn ∈ turns, turn.result.fieldName = turn.definition.name ∧
        ∀ e, py.formulaOutcome turn.definition (availableNames t.calculatedFields extracted)
          turn.context = .error e → RecordedFailure turn.result) ↔
      NoLimitMet py num t.calculatedFields extracted := by
  have haccepted := accepted_of_validateTemplate hvalid
  rw [← nothingEscapes_iff_noLimitMet hpy hnum,
    ← evaluateCalculatedFields_returns_iff sets haccepted (List.Perm.refl _)]
  constructor
  · rintro ⟨turns, hrun, -⟩
    exact ⟨_, hrun⟩
  · rintro ⟨results, hrun⟩
    -- A run that returns gave every field its turn, and a turn records what it caught.
    obtain ⟨turns, hturns, rfl, horder⟩ := evaluateCalculatedFields_turns haccepted hrun
    refine ⟨turns, hrun, hturns, horder.perm, fun turn hturn => ?_⟩
    have hstep := hturns.turn hturn
    exact ⟨(evaluateCalculatedField_spec hstep).1, fun e he => recordedFailure_of_turn hstep he⟩

/-! ### An interpreter with the limits -/

/-- What `str` says of an integer of too many digits. -/
def digitLimitMessage : String :=
  "Exceeds the limit (4300 digits) for integer string conversion"

/-- An interpreter with the limits of the real one, for formulas that calculate no floats and
no texts. -/
def limitedPython (formulas : List (String × Node)) : Python :=
  { plainPython formulas with
    floats := { (plainPython formulas).floats with
      ofInt := fun i => if floatLimit ≤ |i| then none else some (.fin i)
      divInt := fun i j => if floatLimit * |j| ≤ |i| then none else some (.fin (i / j))
      roundTo := fun x n => if roundsTooLarge x n then none else some x
      sum := fun numbers => if sumTooLarge 0 numbers then none else some .nan }
    text := { (plainPython formulas).text with
      str := fun v => if v.hasLongInt then .error (.valueError digitLimitMessage) else .ok "" } }

theorem limitedPython_errors (formulas : List (String × Node)) :
    LibraryErrors (limitedPython formulas) where
  ofInt i := by simp [limitedPython]
  divInt i j _ := by simp [limitedPython]
  roundTo x n := by simp [limitedPython]
  sum numbers _ := by simp [limitedPython]
  -- Only an integer of too many digits has no text.
  str v := by cases h : v.hasLongInt <;> simp [limitedPython, h]
  strError v e h := by
    cases hlong : v.hasLongInt with
    | true =>
      simp only [limitedPython, hlong, if_true, Except.error.injEq] at h
      rw [← h]
      rfl
    | false => simp [limitedPython, hlong] at h
  floatOfError s e h := by
    obtain rfl := Except.error.inj h
    rfl
  formatError x spec e h := by cases h
  formatAmount x := ⟨"", rfl⟩
  fromIsoFormat s e h := ⟨"", (Except.error.inj h).symm⟩
  parseDateText s e h := Or.inr (Or.inl ⟨"", (Except.error.inj h).symm⟩)
  order op a b e h := (Except.error.inj h).symm
  unary op kind e h := (Except.error.inj h).symm
  iterate kind e h := (Except.error.inj h).symm
  sumStart kind e h := (Except.error.inj h).symm
  call kind args kwargs e h := (Except.error.inj h).symm

/-- The texts and amounts of that interpreter. -/
def limitedNumeric : PyNumeric where
  roundCents v :=
    if v.hasCents then .ok (v.number?.getD .nan) else .error (.other "InvalidOperation")
  formatAmount _ := ""
  str _ := ""
  display v := if v.hasLongInt then .error (.valueError digitLimitMessage) else .ok ""

theorem limitedNumeric_errors : NumericErrors limitedNumeric where
  roundCents v _ := by cases h : v.hasCents <;> simp [limitedNumeric, h]
  display v := by cases h : v.hasLongInt <;> simp [limitedNumeric, h]

/-- The sum of the items and twice the sum have values, and the division by zero is recorded. -/
theorem one_result_each_iff_chain : ∃ turns : List Turn,
    evaluateCalculatedFields ((limitedPython chainFormulas).engine insertionOrder) limitedNumeric
        chainTemplate.calculatedFields (itemsResults [.int 1, .int 2]) =
      .ok (turns.map Turn.result) ∧
    (turns.map Turn.definition).Perm chainTemplate.calculatedFields ∧
    (turns.map Turn.result).map CalculatedFieldResult.fieldName = ["total", "double", "rate"] ∧
    ∃ turn ∈ turns, turn.result.fieldName = "rate" ∧ RecordedFailure turn.result := by
  have hvalid : validateTemplate ((limitedPython chainFormulas).engine insertionOrder)
      (fun _ => none) chainTemplate = .ok () := rfl
  obtain ⟨results, hresults, hnames, rate, hrate, hname, hrecorded⟩ : ∃ results,
      evaluateCalculatedFields ((limitedPython chainFormulas).engine insertionOrder) limitedNumeric
        chainTemplate.calculatedFields (itemsResults [.int 1, .int 2]) = .ok results ∧
      results.map CalculatedFieldResult.fieldName = ["total", "double", "rate"] ∧
      ∃ rate, results[2]? = some rate ∧ rate.fieldName = "rate" ∧ RecordedFailure rate :=
    ⟨_, rfl, rfl, _, rfl, rfl, rfl, Or.inl (List.cons_ne_nil _ _)⟩
  -- The run returns, so no field meets a limit.
  have hlimits : NoLimitMet (limitedPython chainFormulas) limitedNumeric
      chainTemplate.calculatedFields (itemsResults [.int 1, .int 2]) :=
    (nothingEscapes_iff_noLimitMet (limitedPython_errors _) limitedNumeric_errors).mp
      ((evaluateCalculatedFields_returns_iff insertionOrder (accepted_of_validateTemplate hvalid)
        (List.Perm.refl _)).mp ⟨results, hresults⟩)
  obtain ⟨turns, hrun, -, hperm, -⟩ := (one_result_each_iff (limitedPython chainFormulas)
    insertionOrder insertionOrder limitedNumeric (limitedPython_errors _) limitedNumeric_errors
    (fun _ => none) chainTemplate (itemsResults [.int 1, .int 2]) hvalid).mpr hlimits
  obtain rfl := Except.ok.inj (hresults.symm.trans hrun)
  obtain ⟨turn, hturn, rfl⟩ := List.mem_map.mp (List.mem_of_getElem? hrate)
  exact ⟨turns, hrun, hperm, hnames, turn, hturn, hname, hrecorded⟩

/-- **The minimum of an empty list aborts the run**, and no other field gets its result. -/
theorem empty_min_aborts :
    ¬ ∀ (py : Python) (sets₀ sets : SetOrder) (num : PyNumeric)
      (checkSchema : PyVal → Option String) (t : ExtractionTemplate)
      (extracted : List ExtractionFieldResult),
      LibraryErrors py → NumericErrors num →
      validateTemplate (py.engine sets₀) checkSchema t = .ok () →
      (∀ r ∈ extracted, r.normalizedValue.isJson = true) →
      ∃ results, evaluateCalculatedFields (py.engine sets) num t.calculatedFields extracted =
        .ok results := by
  intro hclaim
  obtain ⟨results, hrun⟩ := hclaim (limitedPython [minFormula]) insertionOrder insertionOrder
    limitedNumeric (fun _ => none) (itemsTemplate "min(items)") (itemsResults [])
    (limitedPython_errors _) limitedNumeric_errors rfl
    (by simp [itemsResults, PyVal.isJson, PyVal.isJsonList])
  have haborts : evaluateCalculatedFields ((limitedPython [minFormula]).engine insertionOrder)
      limitedNumeric (itemsTemplate "min(items)").calculatedFields (itemsResults []) =
        .error (.valueError "min() iterable argument is empty") := rfl
  rw [haborts] at hrun
  cases hrun

end ExtractFlow
