import ExtractFlow.Parser
import ExtractFlow.Provider
import ExtractFlow.ProviderPolicy
import ExtractFlow.Reconcile
import ExtractFlow.Redaction
import ExtractFlow.Summary

/-!
# Extraction

`execute_extraction` (`worker/app/services/executor.py`), cut where the text is
handed to the provider: `prepareExtraction` is everything before
`provider.extract`, the rest turns the provider's results into the summary that
is stored.  The progress reports between the stages are the points of
`process_once`, and its log lines are left out.

## Main definitions

* `ExtractionWorld` — what the extraction takes from libraries and providers.
* `prepareExtraction`, `sanitizeRedactedProviderResults`, `executeExtraction`.

## Main results

* `prepareExtraction_checks` — what settings reach the provider.
* `executeExtraction_flags` — the summary lists exactly the fields it flags.
* `executeExtraction_names` — its extracted fields are those of the template.
-/

namespace ExtractFlow

/-- What an extraction takes from libraries, from files and from providers, as functions of what it
hands them. -/
structure ExtractionWorld where
  rt : Runtime
  fields : FieldLibrary
  /-- The spans a recognizer finds: entity type, text. -/
  analyze : String → String → List (ℕ × ℕ)
  /-- Reading a file. -/
  read : DocumentReader → String → Except PyErr String
  run : AdapterRun

/-! ### Before the provider -/

/-- The settings of a job: its override, or the template's. -/
def effectiveSettings (template : ExtractionTemplate) (override : Option LLMProviderSettings) :
    LLMProviderSettings := override.getD template.llmProviderSettings

/-- The checks of the deployment's policy, as the worker raises them. -/
def checkExternalProcessing (deployment : DeploymentSettings) (settings : LLMProviderSettings) :
    Except PyErr Unit :=
  match externalProcessingViolation deployment settings with
  | some msg => .error (.valueError msg)
  | none => .ok ()

/-- The text: given, or parsed from the file. -/
def loadText (w : ExtractionWorld) (deployment : DeploymentSettings) (documentPath : String)
    (parsedText : Option String) : Except PyErr String :=
  match parsedText with
  | some text => .ok text
  | none => parseDocument w.fields.lowerCase deployment.doclingEnabled w.read documentPath

/-- The suffixes the worker refuses to redact. -/
def executorSpreadsheetSuffixes : List (List Char) :=
  [['.', 'c', 's', 'v'], ['.', 'x', 'l', 's', 'x']]

/-- The worker's message about a spreadsheet. -/
def spreadsheetUnsupportedMessage : String :=
  "This deployment requires redaction before external provider processing, and spreadsheet " ++
    "documents are not yet supported by the Presidio redaction flow."

/-- The text goes to an external provider and has to be redacted. -/
def needsRedaction (deployment : DeploymentSettings) (settings : LLMProviderSettings) : Bool :=
  settings.allowExternalProcessing && deployment.requireRedactionForExternalProcessing

/-- The note about a redaction. -/
def redactionNote (redaction : RedactionResult) : String :=
  let spans := redaction.spanCount
  let types := redaction.entityCounts.length
  s!"External provider text redaction applied for {spans} spans across {types} entity types."

/-- The text the provider gets, and the note about its redaction. -/
def redactForProvider (w : ExtractionWorld) (deployment : DeploymentSettings)
    (settings : LLMProviderSettings) (documentPath text : String) :
    Except PyErr (String × Option String) :=
  if needsRedaction deployment settings then
    if lowerEndsWith w.fields.lowerCase documentPath executorSpreadsheetSuffixes then
      .error (.valueError spreadsheetUnsupportedMessage)
    else do
      let redaction ← redactText w.analyze text deployment.configuredRedactionEntities
      return (redaction.text, some (redactionNote redaction))
  else .ok (text, none)

/-- What reaches the provider: the settings of the job, the text it is handed, and the note about
its redaction. -/
structure PreparedExtraction where
  settings : LLMProviderSettings
  text : String
  redactionNote : Option String

/-- `execute_extraction` up to `provider.extract`: the template is validated and the policy checked,
and the text is loaded and, where that is required, redacted. -/
def prepareExtraction (w : ExtractionWorld) (deployment : DeploymentSettings)
    (documentPath : String) (template : ExtractionTemplate)
    (override : Option LLMProviderSettings) (parsedText : Option String) :
    Except PyErr PreparedExtraction := do
  validateTemplate w.rt.engine w.rt.checkSchema template
  let settings := effectiveSettings template override
  checkExternalProcessing deployment settings
  let text ← loadText w deployment documentPath parsedText
  let (text, note) ← redactForProvider w deployment settings documentPath text
  return { settings := settings, text := text, redactionNote := note }

/-! ### After the provider -/

/-- The mask occurs in the evidence or in the extracted text of a result. -/
def ExtractionFieldResult.isMasked (result : ExtractionFieldResult) : Bool :=
  maskChar ∈ result.sourceText.toList ||
    match result.extractedValue with
    | .str s => maskChar ∈ s.toList
    | _ => false

/-- The note on a result whose evidence was redacted. -/
def redactedEvidenceNote : String :=
  "External-provider evidence contained redacted spans, so the extracted value was cleared for " ++
    "review."

/-- The turn of one result in `sanitize_redacted_provider_results`. -/
def sanitizeRedactedProviderResult (result : ExtractionFieldResult) : ExtractionFieldResult :=
  if result.isMasked then
    { result with
      extractedValue := .none
      normalizedValue := .none
      requiresReview := true
      extractionNotes := appendNote result.extractionNotes redactedEvidenceNote }
  else result

/-- `sanitize_redacted_provider_results`, for a redacted text. -/
def sanitizeIfRedacted (deployment : DeploymentSettings) (settings : LLMProviderSettings)
    (results : List ExtractionFieldResult) : List ExtractionFieldResult :=
  if needsRedaction deployment settings then results.map sanitizeRedactedProviderResult
  else results

/-- The summary of an extraction. -/
def extractionSummary (documentId : ℕ) (template : ExtractionTemplate)
    (settings : LLMProviderSettings) (extracted : List ExtractionFieldResult)
    (calculated : List CalculatedFieldResult) (notes : List String) :
    ExtractionValidationSummary where
  documentId := toString documentId
  documentType := template.documentType
  templateName := template.templateName
  templateVersion := template.templateVersion
  llmProvider := settings
  extractionStatus := "completed"
  extractedFields := extracted
  calculatedFields := calculated
  documentLevelNotes := notes
  fieldsRequiringReview :=
    (extracted.filter ExtractionFieldResult.requiresReview).map ExtractionFieldResult.fieldName ++
      (calculated.filter CalculatedFieldResult.requiresReview).map CalculatedFieldResult.fieldName

/-- `execute_extraction`: the summary that is stored for the job, or what it fails with. -/
def executeExtraction (w : ExtractionWorld) (deployment : DeploymentSettings)
    (documentPath : String) (documentId : ℕ) (template : ExtractionTemplate)
    (override : Option LLMProviderSettings) (parsedText : Option String) :
    Except PyErr ExtractionValidationSummary := do
  let prepared ← prepareExtraction w deployment documentPath template override parsedText
  let results ← providerExtract w.run prepared.text template prepared.settings
  let (extracted, notes) ← reconcileExtractedFields w.fields w.rt.num template.confidenceRule
    template.extractedFields (sanitizeIfRedacted deployment prepared.settings results)
  let calculated ← evaluateCalculatedFields w.rt.engine w.rt.num template.calculatedFields extracted
  (extractionSummary documentId template prepared.settings extracted calculated
    (notes ++ prepared.redactionNote.toList)).modelDump

/-! ### What reaches the provider -/

/-- **What settings reach the provider**: of an accepted template, those the
policy does not object to. -/
theorem prepareExtraction_checks {w : ExtractionWorld} {deployment : DeploymentSettings}
    {documentPath : String} {template : ExtractionTemplate}
    {override : Option LLMProviderSettings} {parsedText : Option String}
    {prepared : PreparedExtraction}
    (h : prepareExtraction w deployment documentPath template override parsedText =
      .ok prepared) :
    validateTemplate w.rt.engine w.rt.checkSchema template = .ok () ∧
      prepared.settings = effectiveSettings template override ∧
      externalProcessingViolation deployment prepared.settings = none := by
  unfold prepareExtraction at h
  obtain ⟨⟨⟩, hvalid, h⟩ := Failing.bind_ok.mp h
  obtain ⟨⟨⟩, hcheck, h⟩ := Failing.bind_ok.mp h
  obtain ⟨text, -, h⟩ := Failing.bind_ok.mp h
  obtain ⟨⟨redacted, note⟩, -, h⟩ := Failing.bind_ok.mp h
  obtain rfl := Except.ok.inj h
  refine ⟨hvalid, rfl, ?_⟩
  unfold checkExternalProcessing at hcheck
  split at hcheck
  · cases hcheck
  · next hnone => exact hnone

/-! ### What is stored -/

/-- What an extraction that returned did. -/
theorem executeExtraction_spec {w : ExtractionWorld} {deployment : DeploymentSettings}
    {documentPath : String} {documentId : ℕ} {template : ExtractionTemplate}
    {override : Option LLMProviderSettings} {parsedText : Option String}
    {summary : ExtractionValidationSummary}
    (h : executeExtraction w deployment documentPath documentId template override parsedText =
      .ok summary) :
    ∃ prepared results extracted calculated notes notes',
      prepareExtraction w deployment documentPath template override parsedText = .ok prepared ∧
      reconcileExtractedFields w.fields w.rt.num template.confidenceRule template.extractedFields
        results = .ok (extracted, notes) ∧
      (extractionSummary documentId template prepared.settings extracted calculated notes').modelDump =
        .ok summary := by
  unfold executeExtraction at h
  obtain ⟨prepared, hprepared, h⟩ := Failing.bind_ok.mp h
  obtain ⟨results, -, h⟩ := Failing.bind_ok.mp h
  obtain ⟨⟨extracted, notes⟩, hreconciled, h⟩ := Failing.bind_ok.mp h
  obtain ⟨calculated, -, hdump⟩ := Failing.bind_ok.mp h
  exact ⟨prepared, _, extracted, calculated, notes, _, hprepared, hreconciled, hdump⟩

/-- **The summary lists exactly the fields it flags** for review, each by its name. -/
theorem executeExtraction_flags {w : ExtractionWorld} {deployment : DeploymentSettings}
    {documentPath : String} {documentId : ℕ} {template : ExtractionTemplate}
    {override : Option LLMProviderSettings} {parsedText : Option String}
    {summary : ExtractionValidationSummary}
    (h : executeExtraction w deployment documentPath documentId template override parsedText =
      .ok summary) : summary.fieldsRequiringReview = summary.flaggedNames := by
  obtain ⟨prepared, results, extracted, calculated, notes, notes', -, -, hdump⟩ :=
    executeExtraction_spec h
  rw [(modelDump_fields hdump).2.2, modelDump_flaggedNames hdump]
  rfl

/-- **The extracted fields of a summary are those of the template**, in order and
without repetition. -/
theorem executeExtraction_names {w : ExtractionWorld} {deployment : DeploymentSettings}
    {documentPath : String} {documentId : ℕ} {template : ExtractionTemplate}
    {override : Option LLMProviderSettings} {parsedText : Option String}
    {summary : ExtractionValidationSummary}
    (h : executeExtraction w deployment documentPath documentId template override parsedText =
      .ok summary) :
    summary.extractedFields.map ExtractionFieldResult.fieldName =
        template.extractedFields.map ExtractionFieldDefinition.name ∧
      (summary.extractedFields.map ExtractionFieldResult.fieldName).Nodup := by
  obtain ⟨prepared, results, extracted, calculated, notes, notes', hprepared, hreconciled, hdump⟩ :=
    executeExtraction_spec h
  have hnames : summary.extractedFields.map ExtractionFieldResult.fieldName =
      template.extractedFields.map ExtractionFieldDefinition.name := by
    rw [← reconcileExtractedFields_names hreconciled]
    have hdumped := (modelDump_fields hdump).1
    exact map_fieldName_of_modelDump hdumped
  refine ⟨hnames, ?_⟩
  rw [hnames]
  exact (List.nodup_append.mp (validateTemplate_nodup (prepareExtraction_checks hprepared).1)).1

/-! ### A world that does not answer -/

/-- A world whose libraries and files answer nothing. -/
def silentWorld : ExtractionWorld where
  rt := plainRuntime
  fields :=
    { schemaErrors := fun _ _ => .ok [], regexMatch := fun _ _ => .ok true
      extractOne := fun _ _ => none, isAlnum := Char.isAlphanum
      lowerCase := .asciiOnly, formatScore := fun _ => "" }
  analyze := fun _ _ => []
  read := fun _ _ => .ok ""
  run := fun _ _ _ _ => .ok []

/-- A template that validates. -/
def invoiceTemplate : ExtractionTemplate where
  templateName := "Invoice"
  documentType := "invoice"

end ExtractFlow
