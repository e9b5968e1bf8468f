import ExtractFlow.Calculations

/-!
# The template contract

The validators of `ExtractionTemplate`: unique field names, calculated fields
whose formulas parse, refer to what they declare and form no cycle, and the
examples a LangExtract template needs.  The API validates a definition when it
stores it, and both programs validate it again when they load it.

`checkSchema` is the JSON Schema library's verdict on a field schema: the
message of its error, if it has one.

## Main definitions

* `validateUniqueNames`, `validateCalculatedFieldContract`,
  `validateLangextractContract` — the model validators.
* `validateTemplate` — all of them, in order.
* `Runtime` — the formula engine, Python's arithmetic and the schema library.

## Main results

* `validateTemplate_nodup` — an accepted template has distinct field names.
* `validateTemplate_provider` — outside LangExtract the provider settings do not matter.
-/

namespace ExtractFlow

/-! ### Python text -/

/-- `str.isspace` of one character. -/
def isPySpace (c : Char) : Bool :=
  c.toNat ∈ [9, 10, 11, 12, 13, 28, 29, 30, 31, 32, 133, 160, 5760, 8192, 8193, 8194, 8195, 8196,
    8197, 8198, 8199, 8200, 8201, 8202, 8232, 8233, 8239, 8287, 12288]

/-- A digit is no white space. -/
theorem isPySpace_of_isDigit {c : Char} (h : c.isDigit = true) : isPySpace c = false := by
  have hdigit : 48 ≤ c.toNat ∧ c.toNat ≤ 57 := Char.isDigit_iff_toNat.mp h
  unfold isPySpace
  simp only [List.mem_cons, List.not_mem_nil, or_false, decide_eq_false_iff_not]
  omega

/-- The letters of a stripped text. -/
def stripChars (cs : List Char) : List Char :=
  ((cs.dropWhile isPySpace).reverse.dropWhile isPySpace).reverse

/-- `s.strip()`. -/
def pyStrip (s : String) : String := String.ofList (stripChars s.toList)

/-- `repr(s)` of printable text. -/
def pyRepr (s : String) : String :=
  let quote := if s.toList.contains '\'' && !s.toList.contains '"' then '"' else '\''
  let escape := fun c : Char =>
    if c = '\\' then ['\\', '\\'] else if c = '\n' then ['\\', 'n']
    else if c = '\r' then ['\\', 'r'] else if c = '\t' then ['\\', 't']
    else if c = quote then ['\\', c] else [c]
  String.ofList ([quote] ++ s.toList.flatMap escape ++ [quote])

/-- `str` of a list of strings. -/
def pyReprList (names : List String) : String :=
  "[" ++ ", ".intercalate (names.map pyRepr) ++ "]"

/-! ### The validators -/

/-- The names of a template, extracted fields first. -/
def ExtractionTemplate.fieldNames (t : ExtractionTemplate) : List String :=
  t.extractedFields.map ExtractionFieldDefinition.name ++
    t.calculatedFields.map CalculatedFieldDefinition.name

/-- `validate_field_schema_definition` of every field. -/
def validateFieldSchemas (checkSchema : PyVal → Option String) (t : ExtractionTemplate) :
    Except PyErr Unit :=
  t.extractedFields.forM fun field =>
    match field.fieldSchema.bind checkSchema with
    | some msg => .error (.valueError s!"Field schema is not a valid JSON Schema: {msg}")
    | none => .ok ()

/-- `validate_unique_names`: no two fields of a template share a name, whether they are extracted or
calculated. -/
def validateUniqueNames (t : ExtractionTemplate) : Except PyErr Unit :=
  if t.fieldNames.Nodup then .ok ()
  else .error (.valueError "Field names must be unique across extracted and calculated fields.")

/-- A formula check of the contract, its error reported under the field's name. -/
def checkFormula (engine : FormulaEngine) (definition : CalculatedFieldDefinition)
    (names : List String) : Except PyErr Unit :=
  match engine.validateFormula definition.formula names with
  | .error (.formulaValidationError msg) =>
      .error (.valueError s!"Calculated field '{definition.name}' formula is invalid: {msg}")
  | outcome => outcome

/-- The turn of one calculated field in `validate_calculated_field_contract`. -/
def checkCalculatedField (engine : FormulaEngine) (t : ExtractionTemplate)
    (definition : CalculatedFieldDefinition) : Except PyErr Unit := do
  let calculated := t.calculatedFields.map CalculatedFieldDefinition.name
  let usable := (t.extractedFields.filter ExtractionFieldDefinition.usableInFormulas).map
    ExtractionFieldDefinition.name
  let blocked := (t.extractedFields.filter fun f => !f.usableInFormulas).map
    ExtractionFieldDefinition.name
  checkFormula engine definition t.fieldNames
  let refs ← engine.collectFormulaReferences definition.formula t.fieldNames
  let blockedReferences := sortedNames (refs.filter (· ∈ blocked))
  if blockedReferences ≠ [] then
    throw <| .valueError <| s!"Calculated field '{definition.name}' references extracted fields " ++
      "that are not usable in formulas: " ++ ", ".intercalate blockedReferences ++ "."
  checkFormula engine definition (usable ++ calculated)
  let available ← engine.collectFormulaReferences definition.formula (usable ++ calculated)
  let referenced := sortedNames available
  let declared := definition.dependsOn.insertionSort (· ≤ ·)
  if declared ≠ referenced then
    throw <| .valueError <| s!"Calculated field '{definition.name}' depends_on must match " ++
      s!"referenced fields. Declared: {pyReprList declared}. " ++
      s!"Referenced: {pyReprList referenced}."

/-- `validate_calculated_field_contract`: every formula is checked by itself, and then the sort has
to find an order for all of them. -/
def validateCalculatedFieldContract (engine : FormulaEngine) (t : ExtractionTemplate) :
    Except PyErr Unit := do
  t.calculatedFields.forM (checkCalculatedField engine t)
  match topologicallySortCalculatedFields engine t.calculatedFields with
  | .ok _ => return ()
  | .error (.formulaValidationError msg) =>
      throw <| .valueError s!"Calculated field dependency graph is invalid: {msg}"
  | .error e => throw e

/-- The extraction `extractionIndex` of example `exampleIndex` names a field. -/
def checkExampleExtraction (names : List String) (exampleIndex extractionIndex : ℕ)
    (extraction : LangExtractExampleExtraction) : Except PyErr Unit :=
  if extraction.extractionClass ∈ names then .ok ()
  else
    let listed := ", ".intercalate (sortedNames names)
    let available := if listed = "" then "(no extracted fields defined)" else listed
    .error <| .valueError <| s!"LangExtract example {exampleIndex} extraction " ++
      s!"{extractionIndex} references unknown field '{extraction.extractionClass}'. " ++
      s!"Available extracted fields: {available}."

/-- `validate_langextract_contract`: a template of a LangExtract provider has a prompt and examples,
which name fields of the template only and cover the required ones. -/
def validateLangextractContract (t : ExtractionTemplate) : Except PyErr Unit :=
  if usesLangextractProvider t.llmProviderSettings.providerType t.llmProviderSettings.apiStyle then
    match t.langextractConfig with
    | none => .error (.valueError "LangExtract templates require langextract_config.")
    | some config => do
        let names := t.extractedFields.map ExtractionFieldDefinition.name
        if pyStrip config.promptDescription = "" then
          throw <| .valueError "LangExtract templates require a non-empty prompt_description."
        if config.examples.isEmpty then
          throw <| .valueError "LangExtract templates require at least one example."
        (config.examples.zipIdx 1).forM fun (example', i) =>
          (example'.extractions.zipIdx 1).forM fun (extraction, k) =>
            checkExampleExtraction names i k extraction
        let covered := config.examples.flatMap fun e =>
          e.extractions.map LangExtractExampleExtraction.extractionClass
        let required := (t.extractedFields.filter ExtractionFieldDefinition.required).map
          ExtractionFieldDefinition.name
        let missing := sortedNames (required.filter (· ∉ covered))
        if missing ≠ [] then
          throw <| .valueError <| "LangExtract examples must cover every required extracted " ++
            "field. Missing example coverage for: " ++ ", ".intercalate missing ++ "."
  else .ok ()

/-- `ExtractionTemplate.model_validate` of a stored definition: the four validators in turn, of
which the first that fails raises. -/
def validateTemplate (engine : FormulaEngine) (checkSchema : PyVal → Option String)
    (t : ExtractionTemplate) : Except PyErr Unit := do
  validateFieldSchemas checkSchema t
  validateUniqueNames t
  validateCalculatedFieldContract engine t
  validateLangextractContract t

/-- What both programs take from their libraries to calculate and to validate. -/
structure Runtime where
  engine : FormulaEngine
  num : PyNumeric
  checkSchema : PyVal → Option String

/-- A library without formulas or schemas. -/
def plainRuntime : Runtime where
  engine :=
    { validateFormula := fun _ _ => .ok ()
      evaluate := fun _ _ => .ok .none
      collectFormulaReferences := fun _ _ => .ok [] }
  num :=
    { roundCents := fun _ => .ok (.fin 0), formatAmount := fun _ => "", str := fun _ => ""
      display := fun _ => .ok "" }
  checkSchema := fun _ => none

/-! ### Accepted templates -/

/-- An accepted template has distinct field names, so a name stands for one field. -/
theorem validateTemplate_nodup {engine : FormulaEngine} {checkSchema : PyVal → Option String}
    {t : ExtractionTemplate} (h : validateTemplate engine checkSchema t = .ok ()) :
    t.fieldNames.Nodup := by
  unfold validateTemplate at h
  obtain ⟨_, -, h⟩ := Failing.bind_ok.mp h
  obtain ⟨_, hunique, -⟩ := Failing.bind_ok.mp h
  unfold validateUniqueNames at hunique
  split at hunique
  · next hnodup => exact hnodup
  · cases hunique

/-- Outside LangExtract the validators do not look at the provider settings, so an accepted template
stays acceptable with others. -/
theorem validateTemplate_provider {engine : FormulaEngine} {checkSchema : PyVal → Option String}
    {t : ExtractionTemplate} {settings : LLMProviderSettings}
    (h : validateTemplate engine checkSchema t = .ok ())
    (hplain : usesLangextractProvider settings.providerType settings.apiStyle = false) :
    validateTemplate engine checkSchema { t with llmProviderSettings := settings } = .ok () := by
  unfold validateTemplate at h ⊢
  obtain ⟨⟨⟩, hschemas, h⟩ := Failing.bind_ok.mp h
  obtain ⟨⟨⟩, hunique, h⟩ := Failing.bind_ok.mp h
  obtain ⟨⟨⟩, hcalculated, -⟩ := Failing.bind_ok.mp h
  refine Failing.bind_ok.mpr ⟨(), hschemas, Failing.bind_ok.mpr ⟨(), hunique, ?_⟩⟩
  refine Failing.bind_ok.mpr ⟨(), hcalculated, ?_⟩
  simp [validateLangextractContract, hplain]

end ExtractFlow
