import ExtractFlow.ExtractionReadiness

/-!
# Copying a schema

The schema editor opens a definition as a draft under a name of its own
(`buildDraftTemplateFromDefinition`, `frontend/src/App.tsx`), and saves the draft as a new
definition that has everything else of the one it was opened from (`buildTemplatePayload`).
Examples go through the rows of the editor and are built again; a definition for another
provider than LangExtract is saved without a LangExtract configuration.

## Main definitions

* `TemplateDefinition`, `DraftTemplate` — a definition and its draft.
* `buildTemplatePayload`, `buildDraftTemplateFromDefinition` — the way out of the editor, and
  into it.

## Main results

* `buildTemplatePayload_copy` — what the copy of an accepted schema is.
* `copy_eq_iff` — when it is the schema but for the name.
-/

namespace ExtractFlow

open Js Failing

/-- A definition, as the interface holds it: with a description that extractions do not read. -/
structure TemplateDefinition extends ExtractionTemplate where
  description : String := ""

/-- What the schema editor holds of a definition, as far as a copy shows it. -/
structure DraftTemplate extends LangExtractDraftShape where
  templateName : String
  documentType : String
  description : String
  templateVersion : String
  localOnly : Bool

/-- `buildTemplatePayload` of a draft that was opened from the seed: the seed with the draft’s own
entries, and a LangExtract configuration built of its rows. -/
def buildTemplatePayload (draft : DraftTemplate) (provider : Option LLMProviderSettings)
    (seed : TemplateDefinition) : Except String TemplateDefinition := do
  let effectiveProvider := provider.getD seed.llmProviderSettings
  let usesLangExtractConfig := effectiveProvider.apiStyle == .langextract ||
    seed.llmProviderSettings.apiStyle == .langextract
  let langextractPromptDescription := trim draft.langextractPromptDescription
  let parsedLangExtractExamples ←
    if usesLangExtractConfig then
      buildLangExtractExamples draft.langextractExamples seed.validFieldNames
        seed.requiredFieldNames
    else .ok []
  let langextractConfig : Option LangExtractConfig :=
    if usesLangExtractConfig && (langextractPromptDescription ≠ "" ||
        !parsedLangExtractExamples.isEmpty) then
      some { promptDescription := langextractPromptDescription
             examples := parsedLangExtractExamples }
    else none
  return { seed with
    templateName := draft.templateName
    templateVersion := draft.templateVersion
    documentType := draft.documentType
    description := draft.description
    llmProviderSettings := effectiveProvider
    langextractConfig := langextractConfig }

/-- `buildDraftTemplateFromDefinition`: the draft of a copy, with the examples as rows of texts. -/
def buildDraftTemplateFromDefinition (definition : TemplateDefinition) : DraftTemplate where
  templateName := definition.templateName ++ " Copy"
  documentType := definition.documentType
  description := definition.description
  templateVersion := definition.templateVersion
  localOnly := !definition.llmProviderSettings.allowExternalProcessing
  langextractPromptDescription :=
    (definition.langextractConfig.map LangExtractConfig.promptDescription).getD ""
  langextractExamples := buildDraftLangExtractExamples definition.langextractConfig

/-- The configuration that is saved: under LangExtract with its prompt trimmed, else none. -/
def TemplateDefinition.savedConfig (d : TemplateDefinition) : Option LangExtractConfig :=
  if d.llmProviderSettings.apiStyle = .langextract then
    d.langextractConfig.map fun config =>
      { config with promptDescription := trim config.promptDescription }
  else none

/-- The LangExtract examples, if there are any, were built for the fields of the definition. -/
def TemplateDefinition.ExamplesBuilt (d : TemplateDefinition) : Prop :=
  ∀ config, d.langextractConfig = some config → config.examples ≠ [] →
    ∃ drafts, buildLangExtractExamples drafts d.validFieldNames d.requiredFieldNames =
      .ok config.examples

section Copy

variable {rt : Runtime} {d : TemplateDefinition}

/-- An accepted template for LangExtract has a configuration with examples. -/
theorem langextractConfig_of_accepted
    (hvalid : validateTemplate rt.engine rt.checkSchema d.toExtractionTemplate = .ok ())
    (hstyle : d.llmProviderSettings.apiStyle = .langextract) :
    ∃ config, d.langextractConfig = some config ∧ config.examples ≠ [] := by
  have huses : usesLangextractProvider d.llmProviderSettings.providerType
      d.llmProviderSettings.apiStyle = true := by
    unfold usesLangextractProvider
    rw [hstyle]
    exact Bool.or_true _
  have hcontract := (validateTemplate_effective d.llmProviderSettings hvalid).mp hvalid
  obtain ⟨config, hconfig, hcontract⟩ :=
    (validateLangextractContract_iff _).mp hcontract huses
  exact ⟨config, hconfig, hcontract.examples⟩

variable (rt d) in
/-- **The copy of an accepted schema** differs in its name, and in the LangExtract
configuration as far as that is not saved as it is. -/
theorem buildTemplatePayload_copy
    (hvalid : validateTemplate rt.engine rt.checkSchema d.toExtractionTemplate = .ok ())
    (hbuilt : d.ExamplesBuilt) :
    buildTemplatePayload (buildDraftTemplateFromDefinition d) none d =
      .ok { d with
        templateName := d.templateName ++ " Copy"
        langextractConfig := d.savedConfig } := by
  by_cases hstyle : d.llmProviderSettings.apiStyle = .langextract
  · obtain ⟨config, hconfig, hexamples⟩ := langextractConfig_of_accepted hvalid hstyle
    obtain ⟨drafts, hdrafts⟩ := hbuilt config hconfig hexamples
    have hagain := buildLangExtractExamples_draft hdrafts
    have hnonempty : config.examples.isEmpty = false := List.isEmpty_eq_false_iff.mpr hexamples
    unfold buildTemplatePayload buildDraftTemplateFromDefinition TemplateDefinition.savedConfig
    simp only [Option.getD_none, hstyle, hconfig, beq_self_eq_true, Bool.or_self, if_true,
      buildDraftLangExtractExamples, Option.map_some, Option.getD_some]
    rw [bind_of_ok hagain, hnonempty, Bool.not_false, Bool.or_true, Bool.and_self, if_pos rfl]
    rfl
  · unfold buildTemplatePayload buildDraftTemplateFromDefinition TemplateDefinition.savedConfig
    have hother : (d.llmProviderSettings.apiStyle == ApiStyle.langextract) = false := by
      rw [beq_eq_false_iff_ne]
      exact hstyle
    simp only [Option.getD_none, hother, Bool.or_self, Bool.false_eq_true, if_false, hstyle,
      Bool.false_and]
    rfl

/-- **When the copy loses nothing** but its name: when the configuration it saves is the one that
was there. -/
theorem copy_eq_iff
    (hvalid : validateTemplate rt.engine rt.checkSchema d.toExtractionTemplate = .ok ())
    (hbuilt : d.ExamplesBuilt) :
    (∃ p, buildTemplatePayload (buildDraftTemplateFromDefinition d) none d = .ok p ∧
        p = { d with templateName := p.templateName }) ↔
      d.savedConfig = d.langextractConfig := by
  rw [buildTemplatePayload_copy rt d hvalid hbuilt]
  constructor
  · rintro ⟨p, hp, hsame⟩
    obtain rfl := Except.ok.inj hp
    exact congrArg (fun p => p.langextractConfig) hsame
  · intro hsaved
    exact ⟨_, rfl, by rw [hsaved]⟩

end Copy

/-! ### A vendor -/

/-- An example of a vendor, with attributes. -/
def vendorExample : LangExtractExample where
  text := "Vendor: Acme"
  extractions := [
    { extractionClass := "vendor", extractionText := "Acme"
      attributes := [("currency", .str "USD"), ("aliases", .list [.str "ACME", .str "Acme Inc"])] }]

/-- A schema with that example. -/
def vendorSchema (promptDescription : String) (settings : LLMProviderSettings) :
    TemplateDefinition where
  templateName := "Invoice"
  documentType := "invoice"
  llmProviderSettings := settings
  langextractConfig := some { promptDescription := promptDescription, examples := [vendorExample] }
  extractedFields := [{ name := "vendor", label := "Vendor", type := .text, required := true }]

theorem examplesBuilt_vendorSchema (promptDescription : String)
    (settings : LLMProviderSettings) : (vendorSchema promptDescription settings).ExamplesBuilt := by
  intro config hconfig _
  obtain rfl := Option.some.inj hconfig
  exact ⟨[draftExample vendorExample], rfl⟩

/-- The copy of a LangExtract schema keeps its example, and trims its prompt. -/
theorem buildTemplatePayload_copy_vendor :
    buildTemplatePayload
        (buildDraftTemplateFromDefinition (vendorSchema "Vendors. " langextractSettings)) none
        (vendorSchema "Vendors. " langextractSettings) =
      .ok { vendorSchema "Vendors." langextractSettings with templateName := "Invoice Copy" } :=
  (buildTemplatePayload_copy plainRuntime (vendorSchema "Vendors. " langextractSettings) rfl
    (examplesBuilt_vendorSchema _ _)).trans rfl

/-- **A schema of the mock loses its configuration** when it is copied, as it is saved for another
provider. -/
theorem copy_drops_config :
    ¬ ∀ (rt : Runtime) (d : TemplateDefinition),
      validateTemplate rt.engine rt.checkSchema d.toExtractionTemplate = .ok () →
      d.ExamplesBuilt →
      ∃ p, buildTemplatePayload (buildDraftTemplateFromDefinition d) none d = .ok p ∧
        p = { d with templateName := p.templateName } := by
  intro hclaim
  have hvalid : validateTemplate plainRuntime.engine plainRuntime.checkSchema
      (vendorSchema "Vendors." {}).toExtractionTemplate = .ok () := rfl
  have hbuilt := examplesBuilt_vendorSchema "Vendors." {}
  have hsaved := (copy_eq_iff hvalid hbuilt).mp (hclaim plainRuntime _ hvalid hbuilt)
  cases hsaved

end ExtractFlow
