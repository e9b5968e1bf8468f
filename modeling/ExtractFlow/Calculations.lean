import ExtractFlow.Lib.Failing
import ExtractFlow.Formulas

/-!
# Calculated fields

`evaluate_calculated_fields` (`shared/extraction_core/calculations.py`): the
fields in dependency order, each evaluated in a context that its predecessors
extend, its failures turned into validation errors or notes by the field's
policies, and the outcome checked against the field's bounds.

`PyNumeric` is what the output format takes from Python's decimal and float
arithmetic.

## Main definitions

* `evaluateCalculatedField` — one turn of the loop.
* `evaluateCalculatedFields` — the loop.
* `validateCalculatedField`, `normalizeCalculatedOutput`, `applyErrorHandling`.

## Main results

* `validateCalculatedField_spec` — a field is flagged when it was, or has errors.
* `evaluateCalculatedField_spec` — when it is flagged: its definition asks, or errors.
* `evaluateCalculatedFields_spec` — the same of every result of the loop.
-/

namespace ExtractFlow

/-- Decimal and float arithmetic and formatting. They are a parameter; what a result needs to know
about them is a hypothesis of it. -/
structure PyNumeric where
  /-- `float(Decimal(str(v)).quantize(Decimal("0.01"), rounding=ROUND_HALF_UP))`. -/
  roundCents : PyVal → Except PyErr PyFloat
  /-- `f"{amount:,.2f}"`. -/
  formatAmount : PyFloat → String
  /-- `str(v)` of a JSON value. -/
  str : PyVal → String
  /-- `str(v)` of the value of a formula, which an integer of too many digits does not have. -/
  display : PyVal → Except PyErr String

/-! ### Validation -/

/-- `value.get("amount")` of a dictionary with that key, else the value. -/
def boundCandidate : PyVal → PyVal
  | .dict items => (PyVal.dictGet items "amount").getD (.dict items)
  | v => v

/-- The errors of one bound: none without a bound or a value. -/
def boundErrors (candidate : PyVal) (bound : Option PyFloat)
    (breaks : PyVal → PyFloat → Except PyErr Bool) (msg : String) : Except PyErr (List String) :=
  match bound with
  | some m =>
      if candidate.isNone then .ok []
      else (breaks candidate m).map fun broken => if broken then [msg] else []
  | none => .ok []

/-- `validate_calculated_field`: the result with the errors of the null check and of the two bounds
behind those it had. -/
def validateCalculatedField (result : CalculatedFieldResult) (rule : ValidationRule) :
    Except PyErr CalculatedFieldResult := do
  let value := result.calculatedValue
  let nullErrors :=
    if value.isNone && !rule.allowNull then ["Calculated value is null."] else []
  let candidate := boundCandidate value
  let low ← boundErrors candidate rule.min PyVal.ltFloat "Calculated value is below minimum."
  let high ← boundErrors candidate rule.max PyVal.gtFloat "Calculated value is above maximum."
  let errors := result.validationErrors ++ nullErrors ++ low ++ high
  return { result with
    validationErrors := errors
    validationStatus := if errors.isEmpty then .valid else .invalid
    requiresReview := result.requiresReview || !errors.isEmpty }

/-! ### Output and policies -/

/-- `isinstance(value, int | float | Decimal)`; a `bool` is an `int`. -/
def PyVal.isNumber (v : PyVal) : Bool := v.number?.isSome

/-- `normalize_calculated_output`: the value that is stored and the text that is shown. Only a
number of currency type is rounded; a missing currency is USD. -/
def normalizeCalculatedOutput (num : PyNumeric) (definition : CalculatedFieldDefinition)
    (value : PyVal) : Except PyErr (PyVal × String) :=
  if definition.outputType == .currency && value.isNumber then do
    let declared := (definition.format.bind FormatRule.currency).getD ""
    let currency := if declared = "" then "USD" else declared
    let amount ← num.roundCents value
    return (.dict [("amount", .float amount), ("currency", .str currency)],
      s!"{currency} {num.formatAmount amount}")
  else if value.isNone then .ok (value, "")
  else (num.display value).map fun text => (value, text)

/-- What an evaluation leaves behind beside its value: errors make the field invalid, notes
do not. -/
structure Findings where
  errors : List String := []
  notes : List String := []

/-- `apply_error_handling`: the policy decides whether a failure is an error or only a note. -/
def applyErrorHandling (policy : ErrorPolicy) (flaggedError note : String) : Findings :=
  match policy with
  | .returnNullAndFlagReview => { errors := [flaggedError] }
  | .returnNull => { notes := [note] }

/-- The message of `visit_Attribute` on a value without attributes. -/
def attributeAccessMessage : String :=
  "Attribute access is only supported on structured field values."

/-- The missing-input policy of a field. -/
def missingInput (definition : CalculatedFieldDefinition) : Findings :=
  applyErrorHandling definition.errorHandling.onMissingInput "Missing input."
    "Missing input returned null by policy."

/-- The `try` block of the loop: the value, and what the handlers make of an
exception.  Other exceptions leave the loop. -/
def evaluateFormula (engine : FormulaEngine) (definition : CalculatedFieldDefinition)
    (available : List String) (context : List (String × PyVal)) :
    Except PyErr (PyVal × Findings) :=
  match (do engine.validateFormula definition.formula available
            engine.evaluate definition.formula context : Except PyErr PyVal) with
  | .ok value => .ok (value, {})
  | .error .zeroDivisionError =>
      .ok (.none, applyErrorHandling definition.errorHandling.onDivideByZero "Division by zero."
        "Division by zero returned null by policy.")
  | .error .typeError => .ok (.none, missingInput definition)
  | .error (.formulaValidationError msg) =>
      .ok (.none,
        if msg = attributeAccessMessage then missingInput definition else { errors := [msg] })
  | .error e => .error e

/-- `build_calculation_notes`. -/
def buildCalculationNotes (notes : List String) : String :=
  " ".intercalate ("Deterministic formula evaluation." :: notes)

/-- The `depends_on` of a result. -/
def resultDependencies (engine : FormulaEngine) (definition : CalculatedFieldDefinition)
    (available : List String) : Except PyErr (List String) :=
  match engine.collectFormulaReferences definition.formula available with
  | .ok refs => .ok (sortedNames refs)
  | .error (.formulaValidationError _) => .ok definition.dependsOn
  | .error e => .error e

/-! ### The loop -/

/-- One turn of the loop: the formula is checked and evaluated, and the value is formatted and
checked in its turn. -/
def evaluateCalculatedField (engine : FormulaEngine) (num : PyNumeric) (available : List String)
    (context : List (String × PyVal)) (definition : CalculatedFieldDefinition) :
    Except PyErr CalculatedFieldResult := do
  let (raw, findings) ← evaluateFormula engine definition available context
  let (value, displayValue) ← normalizeCalculatedOutput num definition raw
  let dependsOn ← resultDependencies engine definition available
  validateCalculatedField
    { fieldName := definition.name, label := definition.label
      outputType := definition.outputType, formula := definition.formula
      dependsOn := dependsOn, calculatedValue := value, displayValue := displayValue
      validationErrors := findings.errors
      calculationNotes := buildCalculationNotes findings.notes
      requiresReview := !findings.errors.isEmpty || definition.requiresReview }
    definition.validation

/-- The context the extracted fields make. -/
def extractedContext (fields : List ExtractionFieldResult) : List (String × PyVal) :=
  fields.foldl (fun context field => PyVal.dictSet context field.fieldName field.normalizedValue) []

/-- `evaluate_calculated_fields`: the fields in dependency order, each in a context that holds the
extracted values and the calculated values before it. -/
def evaluateCalculatedFields (engine : FormulaEngine) (num : PyNumeric)
    (definitions : List CalculatedFieldDefinition) (fields : List ExtractionFieldResult) :
    Except PyErr (List CalculatedFieldResult) := do
  let available := (fields.map ExtractionFieldResult.fieldName ++
    definitions.map CalculatedFieldDefinition.name).dedup
  let ordered ← topologicallySortCalculatedFields engine definitions
  let (results, _) ← ordered.foldlM
    (fun (results, context) definition => do
      let result ← evaluateCalculatedField engine num available context definition
      return (results ++ [result],
        PyVal.dictSet context definition.name result.calculatedValue))
    (([] : List CalculatedFieldResult), extractedContext fields)
  return results

/-! ### Flags and errors -/

theorem validateCalculatedField_spec {result result' : CalculatedFieldResult}
    {rule : ValidationRule} (h : validateCalculatedField result rule = .ok result') :
    result'.requiresReview = (result.requiresReview || !result'.validationErrors.isEmpty) ∧
      result'.validationStatus = (if result'.validationErrors.isEmpty then .valid else .invalid) ∧
      result'.fieldName = result.fieldName ∧
      ∃ more, result'.validationErrors = result.validationErrors ++ more := by
  unfold validateCalculatedField at h
  obtain ⟨low, -, h⟩ := Failing.bind_ok.mp h
  obtain ⟨high, -, h⟩ := Failing.bind_ok.mp h
  obtain rfl := Except.ok.inj h
  exact ⟨rfl, rfl, rfl, _, by simp only [List.append_assoc]; rfl⟩

/-- **What the turn of one field decides**: it is flagged when its definition asks for
review or the evaluation leaves errors. -/
theorem evaluateCalculatedField_spec {engine : FormulaEngine} {num : PyNumeric}
    {available : List String} {context : List (String × PyVal)}
    {definition : CalculatedFieldDefinition} {result : CalculatedFieldResult}
    (h : evaluateCalculatedField engine num available context definition = .ok result) :
    result.fieldName = definition.name ∧
      result.requiresReview = (definition.requiresReview || !result.validationErrors.isEmpty) := by
  unfold evaluateCalculatedField at h
  obtain ⟨⟨raw, findings⟩, -, h⟩ := Failing.bind_ok.mp h
  obtain ⟨⟨value, displayValue⟩, -, h⟩ := Failing.bind_ok.mp h
  obtain ⟨dependsOn, -, h⟩ := Failing.bind_ok.mp h
  obtain ⟨hreview, -, hname, more, hmore⟩ := validateCalculatedField_spec h
  refine ⟨hname, ?_⟩
  rw [hreview, hmore]
  -- an error the evaluation found is still among the errors
  cases findings.errors <;> simp

/-- Every calculated result is that of a definition, flagged as its turn decides. -/
theorem evaluateCalculatedFields_spec {engine : FormulaEngine} {num : PyNumeric}
    {definitions : List CalculatedFieldDefinition} {fields : List ExtractionFieldResult}
    {results : List CalculatedFieldResult}
    (h : evaluateCalculatedFields engine num definitions fields = .ok results) :
    ∀ c ∈ results, ∃ d ∈ definitions, c.fieldName = d.name ∧
      c.requiresReview = (d.requiresReview || !c.validationErrors.isEmpty) := by
  unfold evaluateCalculatedFields at h
  obtain ⟨ordered, hordered, h⟩ := Failing.bind_ok.mp h
  obtain ⟨⟨results', context⟩, hloop, h⟩ := Failing.bind_ok.mp h
  obtain rfl := Except.ok.inj h
  refine Failing.foldlM_invariant (I := fun st : List CalculatedFieldResult × _ =>
    ∀ c ∈ st.1, ∃ d ∈ definitions, c.fieldName = d.name ∧
      c.requiresReview = (d.requiresReview || !c.validationErrors.isEmpty)) ?_ hloop (by simp)
  intro d hd st st' hst hturn
  obtain ⟨result, hresult, hturn⟩ := Failing.bind_ok.mp hturn
  obtain rfl := Except.ok.inj hturn
  intro c hc
  rcases List.mem_append.mp hc with hc | hc
  · exact hst c hc
  · obtain rfl := List.mem_singleton.mp hc
    exact ⟨d, mem_of_mem_topologicallySort hordered hd, evaluateCalculatedField_spec hresult⟩

end ExtractFlow
