import ExtractFlow.FormulaContract
import ExtractFlow.LangExtractDrafts
import ExtractFlow.Lib.Checked
import ExtractFlow.ProviderPolicy

/-!
# Whether an extraction may run

Before a job is queued with LangExtract, the interface and the API both ask whether the
template has what LangExtract needs.  `getLangExtractExtractionReadiness`
(`frontend/src/langextract.ts`) asks on trimmed texts for examples, for a prompt and for the
coverage of the required fields; the API validates the definition with the provider that is
to run.  A template that was stored for another provider was never held to that contract.

The interface does not ask whether the examples name known fields, and it counts a field as
covered when a class is its name up to white space.

## Main definitions

* `LangextractContract` — what the API wants of a LangExtract configuration.
* `getLangExtractExtractionReadiness` — the question of the interface.
* `Covers`, `NamesFields` — the coverage up to white space, and the exact naming of fields.

## Main results

* `validateLangextractContract_iff` — when the API is content.
* `ready_iff` — when the interface is.
* `readiness_iff` — when both answer alike.
-/

namespace ExtractFlow

open Js Failing

/-! ### The contract of the API -/

/-- The names of the extracted fields. -/
def ExtractionTemplate.validFieldNames (t : ExtractionTemplate) : List String :=
  t.extractedFields.map ExtractionFieldDefinition.name

/-- The names of the required ones. -/
def ExtractionTemplate.requiredFieldNames (t : ExtractionTemplate) : List String :=
  (t.extractedFields.filter ExtractionFieldDefinition.required).map ExtractionFieldDefinition.name

/-- The classes of the examples are names of fields, and every required field is among
them. -/
structure NamesFields (t : ExtractionTemplate) (config : LangExtractConfig) : Prop where
  known : ∀ c ∈ exampleClasses config.examples, c ∈ t.validFieldNames
  covered : ∀ name ∈ t.requiredFieldNames, name ∈ exampleClasses config.examples

/-- What the API wants of a LangExtract configuration: a prompt, examples, and in these the names of
fields only, with every required one. -/
structure LangextractContract (t : ExtractionTemplate) (config : LangExtractConfig) : Prop where
  prompt : pyStrip config.promptDescription ≠ ""
  examples : config.examples ≠ []
  names : NamesFields t config

theorem checkExampleExtraction_checked (names : List String) (i k : ℕ)
    (extraction : LangExtractExampleExtraction) :
    Checked (checkExampleExtraction names i k extraction) (extraction.extractionClass ∈ names)
      () := by
  unfold checkExampleExtraction
  split_ifs with h
  · exact (Checked.ok ()).congr (by simp [h]) rfl
  · exact ⟨fun hmem => absurd hmem h, fun _ => ⟨_, rfl⟩⟩

theorem sortedNames_eq_nil_iff {names : List String} : sortedNames names = [] ↔ names = [] := by
  simp only [List.eq_nil_iff_forall_not_mem, mem_sortedNames]

/-- **When the API is content** with a template: when it needs no LangExtract, or has a
configuration that keeps the contract. -/
theorem validateLangextractContract_iff (t : ExtractionTemplate) :
    validateLangextractContract t = .ok () ↔
      (usesLangextractProvider t.llmProviderSettings.providerType
        t.llmProviderSettings.apiStyle = true →
          ∃ config, t.langextractConfig = some config ∧ LangextractContract t config) := by
  unfold validateLangextractContract
  split_ifs with huses
  · rw [imp_iff_right huses]
    cases hconfig : t.langextractConfig with
    | none => simp
    | some config =>
      have hexample := fun (example' : LangExtractExample) (i : ℕ) =>
        Checked.forM_zipIdx (f := fun entry => checkExampleExtraction
            t.validFieldNames i entry.2 entry.1) 1
          fun extraction (_ : extraction ∈ example'.extractions) k =>
            checkExampleExtraction_checked t.validFieldNames i k extraction
      have hclasses := Checked.forM_zipIdx (f := fun entry : LangExtractExample × ℕ =>
          (entry.1.extractions.zipIdx 1).forM fun entry' => checkExampleExtraction
            t.validFieldNames entry.2 entry'.2 entry'.1) 1
        fun example' (_ : example' ∈ config.examples) i => hexample example' i
      -- the checks in the order of the code; each raises exactly when its condition fails
      refine Iff.trans (Checked.ok_iff (Checked.guard (Checked.guard
        (Checked.bind hclasses (Checked.guard (Checked.ok _)))))) ?_
      rw [List.isEmpty_iff, not_ne_iff, sortedNames_eq_nil_iff]
      simp only [List.filter_eq_nil_iff, decide_eq_true_iff, not_not]
      constructor
      · rintro ⟨⟨hprompt, hexamples, hknown, hcovered, -⟩, -⟩
        refine ⟨config, rfl, hprompt, hexamples, ?_, hcovered⟩
        intro c hc
        obtain ⟨example', he, hmem⟩ := List.mem_flatMap.mp hc
        obtain ⟨extraction, hx, rfl⟩ := List.mem_map.mp hmem
        exact hknown example' he extraction hx
      · rintro ⟨_, hsome, hprompt, hexamples, hknown, hcovered⟩
        obtain rfl := Option.some.inj hsome
        exact ⟨⟨hprompt, hexamples, fun example' he extraction hx => hknown _
          (List.mem_flatMap.mpr ⟨example', he, List.mem_map_of_mem hx⟩), hcovered, trivial⟩,
          trivial⟩
  · exact ⟨fun _ h => absurd h huses, fun _ => rfl⟩

/-- The other validators do not look at the provider. -/
theorem validateTemplate_effective {engine : FormulaEngine} {checkSchema : PyVal → Option String}
    {t : ExtractionTemplate} (settings : LLMProviderSettings)
    (h : validateTemplate engine checkSchema t = .ok ()) :
    validateTemplate engine checkSchema { t with llmProviderSettings := settings } = .ok () ↔
      validateLangextractContract { t with llmProviderSettings := settings } = .ok () := by
  unfold validateTemplate at h ⊢
  obtain ⟨⟨⟩, hschemas, h⟩ := Failing.bind_ok.mp h
  obtain ⟨⟨⟩, hunique, h⟩ := Failing.bind_ok.mp h
  obtain ⟨⟨⟩, hcalculated, -⟩ := Failing.bind_ok.mp h
  constructor
  · intro h'
    obtain ⟨_, -, h'⟩ := Failing.bind_ok.mp h'
    obtain ⟨_, -, h'⟩ := Failing.bind_ok.mp h'
    obtain ⟨_, -, h'⟩ := Failing.bind_ok.mp h'
    exact h'
  · intro hcontract
    exact Failing.bind_ok.mpr ⟨(), hschemas, Failing.bind_ok.mpr ⟨(), hunique,
      Failing.bind_ok.mpr ⟨(), hcalculated, hcontract⟩⟩⟩

/-- Nor does the contract. -/
theorem langextractContract_effective {t : ExtractionTemplate} (settings : LLMProviderSettings)
    (config : LangExtractConfig) :
    LangextractContract { t with llmProviderSettings := settings } config ↔
      LangextractContract t config :=
  ⟨fun h => ⟨h.prompt, h.examples, h.names.known, h.names.covered⟩,
    fun h => ⟨h.prompt, h.examples, h.names.known, h.names.covered⟩⟩

theorem validateEffectiveTemplate_ok_iff {rt : Runtime} {t : ExtractionTemplate} :
    (∃ e, validateEffectiveTemplate rt t = .ok e) ↔
      validateTemplate rt.engine rt.checkSchema t = .ok () := by
  unfold validateEffectiveTemplate
  cases validateTemplate rt.engine rt.checkSchema t with
  | ok => simp
  | error e => cases e <;> simp

/-! ### The question of the interface -/

/-- The answer of the interface: whether the extraction may be started, and why not. -/
structure LangExtractReadiness where
  ready : Bool
  message : Option String
  deriving DecidableEq, Repr

/-- `isLangExtractProviderSettings`. -/
def isLangExtractProviderSettings (settings : LLMProviderSettings) : Bool :=
  settings.providerType == "langextract" && settings.apiStyle == .langextract

/-- The answer to a configuration without examples. -/
def examplesWanting : LangExtractReadiness where
  ready := false
  message := some "Add LangExtract examples in the schema builder before running extraction."

/-- `getLangExtractExtractionReadiness`: the first thing that is wanting is reported; without
LangExtract nothing is asked. -/
def getLangExtractExtractionReadiness (definition : ExtractionTemplate)
    (providerOverride : Option LLMProviderSettings) : LangExtractReadiness :=
  let settings := providerOverride.getD definition.llmProviderSettings
  if !isLangExtractProviderSettings settings then { ready := true, message := none }
  else
    match definition.langextractConfig with
    | none => examplesWanting
    | some config =>
        if config.examples.isEmpty then examplesWanting
        else
          let coverage := getLangExtractFieldCoverage (exampleClasses config.examples)
            definition.validFieldNames definition.requiredFieldNames
          if coverage.missingRequiredFields ≠ [] then
            { ready := false
              message := some ("LangExtract examples must cover every required field. Missing: " ++
                ", ".intercalate coverage.missingRequiredFields ++ ".") }
          else if trim config.promptDescription = "" then
            { ready := false
              message := some ("Add a LangExtract prompt description in the schema builder " ++
                "before running extraction.") }
          else { ready := true, message := none }

/-- Every required field is the class of an extraction, up to white space; a blank name needs
none. -/
def Covers (t : ExtractionTemplate) (config : LangExtractConfig) : Prop :=
  ∀ name ∈ t.requiredFieldNames, trim name ≠ "" →
    ∃ c ∈ exampleClasses config.examples, trim c = trim name

section Readiness

variable {t : ExtractionTemplate} {config : LangExtractConfig}

/-- Required fields are fields. -/
theorem mem_validFieldNames {name : String} (h : name ∈ t.requiredFieldNames) :
    name ∈ t.validFieldNames := by
  obtain ⟨field, hfield, rfl⟩ := List.mem_map.mp h
  exact List.mem_map_of_mem (List.mem_of_mem_filter hfield)

theorem covers_iff :
    (getLangExtractFieldCoverage (exampleClasses config.examples) t.validFieldNames
        t.requiredFieldNames).missingRequiredFields = [] ↔ Covers t config := by
  rw [missingRequiredFields_eq_nil_iff]
  constructor
  · intro h name hname hne
    have hmem := h (trim name) (mem_trimmedNames.mpr ⟨hne, name, hname, rfl⟩)
    exact (mem_trimmedNames.mp (mem_coveredFieldSet.mp hmem).1).2
  · intro h trimmed htrimmed
    obtain ⟨hne, name, hname, rfl⟩ := mem_trimmedNames.mp htrimmed
    refine mem_coveredFieldSet.mpr ⟨mem_trimmedNames.mpr ⟨hne, h name hname hne⟩, .inr ?_⟩
    exact mem_trimmedNames.mpr ⟨hne, name, mem_validFieldNames hname, rfl⟩

/-- Fields that are named exactly are covered. -/
theorem NamesFields.covers (h : NamesFields t config) : Covers t config :=
  fun name hname _ => ⟨name, h.covered name hname, rfl⟩

/-- **When the interface is content** with a template for LangExtract: it has examples that cover
the required fields, and a prompt. -/
theorem ready_iff {providerOverride : Option LLMProviderSettings}
    (hlangextract : isLangExtractProviderSettings
      (providerOverride.getD t.llmProviderSettings) = true) :
    (getLangExtractExtractionReadiness t providerOverride).ready = true ↔
      ∃ config, t.langextractConfig = some config ∧ config.examples ≠ [] ∧ Covers t config ∧
        trim config.promptDescription ≠ "" := by
  unfold getLangExtractExtractionReadiness
  simp only [hlangextract, Bool.not_true, Bool.false_eq_true, if_false]
  cases hconfig : t.langextractConfig with
  | none => simp [examplesWanting]
  | some config =>
    simp only [Option.some.injEq, exists_eq_left', ← covers_iff]
    split_ifs with hempty hmissing hprompt
    · simp [examplesWanting, List.isEmpty_iff.mp hempty]
    · simp [hmissing]
    · simp [hprompt]
    · have hexamples : config.examples ≠ [] := fun h => hempty (List.isEmpty_iff.mpr h)
      simp [hexamples, not_ne_iff.mp hmissing, hprompt]

/-! ### The two answers -/

/-- Both programs want a prompt; white space is not the same to both. -/
def SamePrompt (config : LangExtractConfig) : Prop :=
  trim config.promptDescription = "" ↔ pyStrip config.promptDescription = ""

/-- The examples, where the interface finds them to cover the fields, name fields exactly and
their prompt is blank to both programs or to none; or they do not, and the interface finds the
prompt blank. -/
def AnswersAlike (t : ExtractionTemplate) : Prop :=
  ∀ config, t.langextractConfig = some config → config.examples ≠ [] → Covers t config →
    (NamesFields t config ∧ SamePrompt config) ∨
      (¬ NamesFields t config ∧ trim config.promptDescription = "")

/-- The two contracts, told apart by the condition. -/
theorem ready_iff_contract_iff :
    ((∃ config, t.langextractConfig = some config ∧ config.examples ≠ [] ∧ Covers t config ∧
        trim config.promptDescription ≠ "") ↔
      ∃ config, t.langextractConfig = some config ∧ LangextractContract t config) ↔
      AnswersAlike t := by
  unfold AnswersAlike SamePrompt
  cases hconfig : t.langextractConfig with
  | none => simp
  | some config =>
    have hcontract : LangextractContract t config ↔ pyStrip config.promptDescription ≠ "" ∧
        config.examples ≠ [] ∧ NamesFields t config :=
      ⟨fun h => ⟨h.prompt, h.examples, h.names⟩, fun h => ⟨h.1, h.2.1, h.2.2⟩⟩
    simp only [Option.some.injEq, exists_eq_left', forall_eq', hcontract]
    by_cases hexamples : config.examples = []
    · simp [hexamples]
    · by_cases hcovers : Covers t config
      · -- both are asked for the prompt, and the API for the names
        simp only [hexamples, hcovers, ne_eq, not_false_eq_true, true_and, forall_const]
        by_cases hnames : NamesFields t config
        · simp only [hnames, and_true, true_and, not_true_eq_false, false_and, or_false]
          exact not_iff_not
        · simp [hnames]
      · have hnames : ¬ NamesFields t config := fun h => hcovers h.covers
        simp [hcovers, hnames]

/-- **When the interface and the API answer alike**, for a stored template that is to run
with LangExtract. -/
theorem readiness_iff (rt : Runtime) (t : ExtractionTemplate)
    (providerOverride : Option LLMProviderSettings)
    (hstored : validateTemplate rt.engine rt.checkSchema t = .ok ())
    (hlangextract : usesLangextractProvider
      (providerOverride.getD t.llmProviderSettings).providerType
      (providerOverride.getD t.llmProviderSettings).apiStyle = true) :
    ((getLangExtractExtractionReadiness t providerOverride).ready = true ↔
      ∃ effective, validateEffectiveTemplate rt
        { t with llmProviderSettings := providerOverride.getD t.llmProviderSettings } =
          .ok effective) ↔ AnswersAlike t := by
  obtain ⟨htype, hstyle, -⟩ :=
    (providerOverride.getD t.llmProviderSettings).langextractConstraints hlangextract
  have hsettings : isLangExtractProviderSettings
      (providerOverride.getD t.llmProviderSettings) = true := by
    unfold isLangExtractProviderSettings
    rw [htype, hstyle]
    rfl
  rw [ready_iff hsettings, validateEffectiveTemplate_ok_iff, validateTemplate_effective _ hstored,
    validateLangextractContract_iff, imp_iff_right hlangextract]
  simp only [langextractContract_effective]
  exact ready_iff_contract_iff

end Readiness

/-! ### A class that is no field -/

theorem langextractSettings_constraints :
    usesLangextractProvider "langextract" .langextract = true → "langextract" = "langextract" ∧
      ApiStyle.langextract = .langextract ∧ ProviderMode.local = .local ∧ false = false := by
  decide

/-- The settings of LangExtract. -/
def langextractSettings : LLMProviderSettings where
  providerType := "langextract"
  apiStyle := .langextract
  langextractConstraints := langextractSettings_constraints

/-- A configuration with one example of these classes. -/
def classesConfig (classes : List String) : LangExtractConfig where
  promptDescription := "Extract the vendor."
  examples := [{ text := "Vendor: Acme", extractions := classes.map fun c =>
    { extractionClass := c, extractionText := "Acme" } }]

/-- A template of the mock with that configuration. -/
def classesTemplate (classes : List String) : ExtractionTemplate where
  templateName := "Invoice"
  documentType := "invoice"
  langextractConfig := some (classesConfig classes)
  extractedFields := [{ name := "vendor", label := "Vendor", type := .text, required := true }]

/-- Both are content with an example of the vendor, which is the one required field. -/
theorem readiness_vendor :
    (getLangExtractExtractionReadiness (classesTemplate ["vendor"])
        (some langextractSettings)).ready = true ↔
      ∃ effective, validateEffectiveTemplate plainRuntime
        { classesTemplate ["vendor"] with
          llmProviderSettings := (some langextractSettings).getD {} } = .ok effective := by
  refine (readiness_iff plainRuntime (classesTemplate ["vendor"]) (some langextractSettings) rfl
    rfl).mpr ?_
  intro config hconfig _ _
  obtain rfl : classesConfig ["vendor"] = config := Option.some.inj hconfig
  refine .inl ⟨⟨?_, ?_⟩, ?_⟩
  · decide
  · decide
  · unfold SamePrompt
    decide

/-- **The interface lets a template run that the API rejects**: it does not look at classes that
name no field. -/
theorem unknown_class_ready :
    ¬ ∀ (rt : Runtime) (t : ExtractionTemplate) (providerOverride : Option LLMProviderSettings),
      validateTemplate rt.engine rt.checkSchema t = .ok () →
      usesLangextractProvider (providerOverride.getD t.llmProviderSettings).providerType
        (providerOverride.getD t.llmProviderSettings).apiStyle = true →
      ((getLangExtractExtractionReadiness t providerOverride).ready = true ↔
        ∃ effective, validateEffectiveTemplate rt
          { t with llmProviderSettings := providerOverride.getD t.llmProviderSettings } =
            .ok effective) := by
  intro hclaim
  have hready : (getLangExtractExtractionReadiness (classesTemplate ["vendor", "total"])
      (some langextractSettings)).ready = true := by decide
  obtain ⟨_, hok⟩ := (hclaim plainRuntime (classesTemplate ["vendor", "total"])
    (some langextractSettings) rfl rfl).mp hready
  cases hok

end ExtractFlow
