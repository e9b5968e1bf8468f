import ExtractFlow.Lib.UtcTime
import ExtractFlow.Values

/-!
# Templates, provider settings and extraction results

The pydantic models shared by the API and the worker
(`shared/extraction_core/models.py`): what a template declares, what provider
settings select, and the validation summary a run stores.  A model whose
validator constrains its fields carries the constraint as a field, so settings
the validator rejects cannot be built.

## Main definitions

* `ExtractionFieldDefinition`, `CalculatedFieldDefinition`, `ExtractionTemplate`.
* `LLMProviderSettings` — with `validate_langextract_constraints` as a field.
* `ExtractionFieldResult`, `CalculatedFieldResult`, `ExtractionValidationSummary`.
* `ReviewFieldEdit`, `ReviewEditPayload`.
-/

namespace ExtractFlow

/-! ### Field definitions -/

/-- The type of a field, which decides how its value is normalized and checked. -/
inductive DataType where
  | text | paragraph | number | currency | percentage | date | boolean | category
  | multiSelect | unitValue | structuredObject | table | list | jsonObject
  | citationBacked | calculated
  deriving DecidableEq, Repr, Inhabited

/-- The string a data type is stored as. -/
def DataType.value : DataType → String
  | .text => "text"
  | .paragraph => "paragraph"
  | .number => "number"
  | .currency => "currency"
  | .percentage => "percentage"
  | .date => "date"
  | .boolean => "boolean"
  | .category => "category"
  | .multiSelect => "multi_select"
  | .unitValue => "unit_value"
  | .structuredObject => "structured_object"
  | .table => "table"
  | .list => "list"
  | .jsonObject => "json_object"
  | .citationBacked => "citation_backed_answer"
  | .calculated => "calculated"

/-- What a template asks of the value of a field; a bound that is absent is not checked. -/
structure ValidationRule where
  allowNull : Bool := true
  min : Option PyFloat := none
  max : Option PyFloat := none
  regex : Option String := none
  currency : Option String := none
  maxLength : Option ℤ := none
  allowedValues : List String := []
  deriving Repr, Inhabited

/-- How the value of a calculated field is shown; of its attributes only the currency is read. -/
structure FormatRule where
  currency : Option String := none
  deriving Repr, Inhabited

/-- What a run-time failure of a formula becomes. -/
inductive ErrorPolicy where
  | returnNullAndFlagReview
  | returnNull
  deriving DecidableEq, Repr, Inhabited

/-- What a calculated field does about a division by zero and about an input that is missing. -/
structure ErrorHandlingRule where
  onDivideByZero : ErrorPolicy := .returnNullAndFlagReview
  onMissingInput : ErrorPolicy := .returnNullAndFlagReview
  deriving Repr, Inhabited

/-- What a template says about a field that is extracted from the document. -/
structure ExtractionFieldDefinition where
  name : String
  label : String
  type : DataType
  required : Bool := false
  citationRequired : Bool := true
  usableInFormulas : Bool := true
  allowNull : Bool := true
  allowedValues : List String := []
  validation : ValidationRule := {}
  fieldSchema : Option PyVal := none
  deriving Repr, Inhabited

/-- What a template says about a field that is calculated of others, by a formula over
their names. -/
structure CalculatedFieldDefinition where
  name : String
  label : String
  outputType : DataType
  formula : String
  dependsOn : List String := []
  format : Option FormatRule := none
  validation : ValidationRule := {}
  errorHandling : ErrorHandlingRule := {}
  requiresReview : Bool := false
  deriving Repr, Inhabited

/-! ### Provider settings -/

inductive ProviderMode where
  | local | cloud
  deriving DecidableEq, Repr, Inhabited

/-- The protocol a provider speaks, which selects the adapter. -/
inductive ApiStyle where
  | mock | openaiCompatible | azureOpenai | langextract
  deriving DecidableEq, Repr, Inhabited

/-- `uses_langextract_provider`. -/
def usesLangextractProvider (providerType : String) (apiStyle : ApiStyle) : Bool :=
  providerType == "langextract" || apiStyle == .langextract

theorem mock_langextractConstraints : usesLangextractProvider "mock" .mock = true →
    "mock" = "langextract" ∧ ApiStyle.mock = .langextract ∧ ProviderMode.local = .local ∧
      false = false := by decide

/-- Provider settings. The last field is what `validate_langextract_constraints` checks, so settings
it rejects cannot be built. -/
structure LLMProviderSettings where
  mode : ProviderMode := .local
  providerType : String := "mock"
  apiStyle : ApiStyle := .mock
  baseUrl : Option String := none
  apiKeyEnvVar : Option String := none
  apiKeyRequired : Bool := false
  deployment : Option String := none
  apiVersion : Option String := none
  model : String := "mock-extractor"
  allowExternalProcessing : Bool := false
  retryCount : ℤ := 2
  chunkSize : ℤ := 16000
  langextractMaxDocumentChars : Option ℤ := some 160000
  langextractConstraints : usesLangextractProvider providerType apiStyle = true →
    providerType = "langextract" ∧ apiStyle = .langextract ∧ mode = .local ∧
      allowExternalProcessing = false := by first | exact mock_langextractConstraints | decide
  deriving Repr

instance : Inhabited LLMProviderSettings := ⟨{}⟩

/-! ### Templates -/

/-- What a LangExtract example finds in its text: a class, the text it is found in,
and attributes. -/
structure LangExtractExampleExtraction where
  extractionClass : String
  extractionText : String
  attributes : List (String × PyVal) := []
  deriving Repr, Inhabited

structure LangExtractExample where
  text : String
  extractions : List LangExtractExampleExtraction := []
  deriving Repr, Inhabited

structure LangExtractConfig where
  promptDescription : String
  examples : List LangExtractExample := []
  deriving Repr, Inhabited

/-- The definition that a template version stores: what to extract, what to calculate, and with
which provider. -/
structure ExtractionTemplate where
  templateName : String
  templateVersion : String := "1.0.0"
  documentType : String
  llmProviderSettings : LLMProviderSettings := {}
  langextractConfig : Option LangExtractConfig := none
  extractedFields : List ExtractionFieldDefinition := []
  calculatedFields : List CalculatedFieldDefinition := []
  reviewRequiredOnLowConfidence : Bool := true
  minimumConfidenceThreshold : PyFloat := .fin (mkRat 3 4)
  deriving Repr, Inhabited

/-! ### Results -/

/-- `validation_status`: a free string column, of which the code writes four
values. -/
inductive ValidationStatus where
  | pending | valid | invalid | reviewed
  | other (s : String)
  deriving DecidableEq, Repr, Inhabited

/-- What a run found for a field: the value as it was read and as it was normalized, where it stands
in the document, and what the validation says about it. -/
structure ExtractionFieldResult where
  fieldName : String
  label : String
  dataType : DataType
  extractedValue : PyVal := .none
  normalizedValue : PyVal := .none
  confidenceScore : PyFloat := .fin 0
  sourceText : String := ""
  charStart : Option ℤ := none
  charEnd : Option ℤ := none
  pageNumber : Option ℤ := none
  locationReference : String := ""
  validationStatus : ValidationStatus := .pending
  validationErrors : List String := []
  extractionNotes : String := ""
  requiresReview : Bool := false
  deriving Repr, Inhabited

/-- What a run calculated for a field, with the formula and the fields it was calculated of. -/
structure CalculatedFieldResult where
  fieldName : String
  label : String
  outputType : DataType
  formula : String
  dependsOn : List String
  calculatedValue : PyVal := .none
  displayValue : String := ""
  validationStatus : ValidationStatus := .pending
  validationErrors : List String := []
  calculationNotes : String := ""
  requiresReview : Bool := false
  deriving Repr, Inhabited

/-- The summary of a run, which is stored with the job and which reviews rewrite. -/
structure ExtractionValidationSummary where
  documentId : String
  documentType : String
  templateName : String
  templateVersion : String
  llmProvider : LLMProviderSettings
  extractionStatus : String
  extractedFields : List ExtractionFieldResult
  calculatedFields : List CalculatedFieldResult := []
  documentLevelNotes : List String := []
  fieldsRequiringReview : List String := []
  reviewedAt : Option UtcTime := none
  deriving Repr, Inhabited

/-! ### Storing a summary

`model_dump(mode="json")` turns every value of a summary into its JSON form and
raises when one has none.  Reading the stored dictionary back with
`model_validate` gives the dumped summary, so the result column is modelled by
the summary itself. -/

/-- The JSON form of one extracted field. -/
def ExtractionFieldResult.modelDump (f : ExtractionFieldResult) :
    Except PyErr ExtractionFieldResult := do
  let extracted ← f.extractedValue.dump
  let normalized ← f.normalizedValue.dump
  return { f with extractedValue := extracted, normalizedValue := normalized }

/-- The JSON form of one calculated field. -/
def CalculatedFieldResult.modelDump (c : CalculatedFieldResult) :
    Except PyErr CalculatedFieldResult := do
  let value ← c.calculatedValue.dump
  return { c with calculatedValue := value }

/-- `summary.model_dump(mode="json")`. -/
def ExtractionValidationSummary.modelDump (s : ExtractionValidationSummary) :
    Except PyErr ExtractionValidationSummary := do
  let extracted ← s.extractedFields.mapM ExtractionFieldResult.modelDump
  let calculated ← s.calculatedFields.mapM CalculatedFieldResult.modelDump
  return { s with extractedFields := extracted, calculatedFields := calculated }

/-! ### Review payloads -/

/-- The value a reviewer gives to one field. -/
structure ReviewFieldEdit where
  fieldName : String
  normalizedValue : PyVal
  extractedValue : PyVal := .none
  reason : String := ""
  deriving Repr, Inhabited

/-- A review: the edits, whether to calculate again, and from which confidence on a field is
approved without an edit. -/
structure ReviewEditPayload where
  reviewer : String := "local-user"
  edits : List ReviewFieldEdit := []
  recalculate : Bool := true
  approveHighConfidenceMin : Option PyFloat := none
  deriving Repr, Inhabited

end ExtractFlow
