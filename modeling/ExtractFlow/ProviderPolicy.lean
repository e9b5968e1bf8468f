import ExtractFlow.Lib.LowerCase
import ExtractFlow.TemplateContract

/-!
# The API's provider policy

What the API checks before it queues a job: `enforce_provider_policy` and
`validate_job_provider` (`backend/app/api/routes.py`), and
`enforce_spreadsheet_external_processing_policy`
(`backend/app/services/external_processing_policy.py`).

All of them ask the settings whether they `allow_external_processing`; none
looks at the mode or at the API style.

## Main definitions

* `DeploymentSettings` — the environment both programs read.
* `enforceProviderPolicy`, `validateJobProvider`.
* `enforceSpreadsheetExternalProcessingPolicy`.

## Main results

* `enforceProviderPolicy_iff` — which settings the policy accepts.
* `validateJobProvider_iff` — outside LangExtract only the policy can reject a
  valid template.
-/

namespace ExtractFlow

/-- The settings of a deployment that the policy reads, with the defaults of the configuration. -/
structure DeploymentSettings where
  allowExternalProcessing : Bool := true
  requireRedactionForExternalProcessing : Bool := false
  presidioRedactionEnabled : Bool := true
  configuredRedactionEntities : List String :=
    ["EMAIL_ADDRESS", "PHONE_NUMBER", "CREDIT_CARD", "US_SSN", "IBAN_CODE", "IP_ADDRESS"]
  doclingEnabled : Bool := true
  deriving Repr, Inhabited

/-! ### Messages -/

/-- The message about a deployment without external processing. -/
def externalDisabledMessage : String :=
  "This deployment disables external provider processing. Choose a local provider or enable " ++
    "ALLOW_EXTERNAL_PROCESSING."

/-- The message about a deployment whose redaction is required and disabled. -/
def redactionDisabledMessage : String :=
  "This deployment requires document redaction before external provider processing, but Presidio " ++
    "redaction is disabled. Enable PRESIDIO_REDACTION_ENABLED or disable " ++
    "REQUIRE_REDACTION_FOR_EXTERNAL_PROCESSING."

/-- The API's message about a spreadsheet. -/
def spreadsheetPolicyMessage : String :=
  "This deployment requires redaction before external provider processing, and spreadsheet " ++
    "documents are not yet supported for that path. Use a local provider or export the sheet to PDF."

/-! ### The policy -/

/-- The two checks the API and the worker share: the message of the one that
fails. -/
def externalProcessingViolation (deployment : DeploymentSettings)
    (settings : LLMProviderSettings) : Option String :=
  if settings.allowExternalProcessing && !deployment.allowExternalProcessing then
    some externalDisabledMessage
  else if settings.allowExternalProcessing && deployment.requireRedactionForExternalProcessing &&
      !deployment.presidioRedactionEnabled then
    some redactionDisabledMessage
  else none

/-- `enforce_provider_policy`: a request that violates the policy of the deployment is refused with
the reason. -/
def enforceProviderPolicy (deployment : DeploymentSettings) (settings : LLMProviderSettings) :
    Except PyErr Unit :=
  match externalProcessingViolation deployment settings with
  | some msg => .error (.httpException 400 msg)
  | none => .ok ()

/-- `ExtractionTemplate.model_validate` of the effective definition; only a
`ValueError` becomes a response. -/
def validateEffectiveTemplate (rt : Runtime) (template : ExtractionTemplate) :
    Except PyErr ExtractionTemplate :=
  match validateTemplate rt.engine rt.checkSchema template with
  | .ok () => .ok template
  | .error (.valueError msg) => .error (.httpException 422 msg)
  | .error e => .error e

/-- `require_reachable_provider`, for LangExtract only; `probe` is the probe of the
endpoint. -/
def requireReachable (probe : LLMProviderSettings → Except PyErr Unit)
    (settings : LLMProviderSettings) : Except PyErr Unit :=
  if usesLangextractProvider settings.providerType settings.apiStyle then probe settings
  else .ok ()

/-- `validate_job_provider`: the policy, then the template under the settings of the job, and last
whether a LangExtract endpoint answers. -/
def validateJobProvider (rt : Runtime) (probe : LLMProviderSettings → Except PyErr Unit)
    (deployment : DeploymentSettings) (template : ExtractionTemplate)
    (effective : LLMProviderSettings) : Except PyErr ExtractionTemplate := do
  enforceProviderPolicy deployment effective
  let effectiveTemplate ←
    validateEffectiveTemplate rt { template with llmProviderSettings := effective }
  requireReachable probe effective
  return effectiveTemplate

/-- `SPREADSHEET_SUFFIXES` of the policy. -/
def policySpreadsheetSuffixes : List (List Char) :=
  [['.', 'c', 's', 'v'], ['.', 'x', 'l', 's', 'x'], ['.', 'x', 'l', 's']]

/-- `name.lower().endswith(suffixes)`. -/
def lowerEndsWith (lc : LowerCase) (name : String) (suffixes : List (List Char)) : Bool :=
  suffixes.any fun suffix => suffix.isSuffixOf (lc.lower name).toList

/-- `enforce_spreadsheet_external_processing_policy` on a document of that original filename: where
redaction is required, spreadsheets are not sent out at all. -/
def enforceSpreadsheetExternalProcessingPolicy (lc : LowerCase) (deployment : DeploymentSettings)
    (originalFilename : String) (settings : LLMProviderSettings) : Except PyErr Unit :=
  if !settings.allowExternalProcessing then .ok ()
  else if !deployment.requireRedactionForExternalProcessing then .ok ()
  else if !lowerEndsWith lc originalFilename policySpreadsheetSuffixes then .ok ()
  else .error (.httpException 400 spreadsheetPolicyMessage)

/-! ### What the policy accepts -/

/-- Where external processing is disabled, the shared checks fail exactly for
settings that declare it. -/
theorem externalProcessingViolation_of_disabled {deployment : DeploymentSettings}
    (hoff : deployment.allowExternalProcessing = false) (settings : LLMProviderSettings) :
    externalProcessingViolation deployment settings =
      if settings.allowExternalProcessing then some externalDisabledMessage else none := by
  unfold externalProcessingViolation
  cases settings.allowExternalProcessing <;> simp [hoff]

/-- **Which settings the policy accepts**: those that violate none of its rules. -/
theorem enforceProviderPolicy_iff {deployment : DeploymentSettings}
    {settings : LLMProviderSettings} :
    enforceProviderPolicy deployment settings = .ok () ↔
      externalProcessingViolation deployment settings = none := by
  unfold enforceProviderPolicy
  split <;> simp_all

/-- **Outside LangExtract only the policy can reject a valid template**, whatever the mode or the
address in the settings. -/
theorem validateJobProvider_iff {rt : Runtime} {probe : LLMProviderSettings → Except PyErr Unit}
    {deployment : DeploymentSettings} {template : ExtractionTemplate}
    {effective : LLMProviderSettings}
    (hvalid : validateTemplate rt.engine rt.checkSchema template = .ok ())
    (hplain : usesLangextractProvider effective.providerType effective.apiStyle = false) :
    (∃ t, validateJobProvider rt probe deployment template effective = .ok t) ↔
      externalProcessingViolation deployment effective = none := by
  constructor
  · rintro ⟨t, h⟩
    unfold validateJobProvider at h
    obtain ⟨_, hpolicy, -⟩ := Failing.bind_ok.mp h
    exact enforceProviderPolicy_iff.mp hpolicy
  · intro h
    have heffective : validateEffectiveTemplate rt
        { template with llmProviderSettings := effective } =
          .ok { template with llmProviderSettings := effective } := by
      unfold validateEffectiveTemplate
      rw [validateTemplate_provider hvalid hplain]
    refine ⟨_, Failing.bind_ok.mpr ⟨(), enforceProviderPolicy_iff.mpr h, Failing.bind_ok.mpr
      ⟨_, heffective, Failing.bind_ok.mpr ⟨(), ?_, rfl⟩⟩⟩⟩
    simp [requireReachable, hplain]

end ExtractFlow
