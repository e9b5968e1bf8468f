import ExtractFlow.Lib.JsValues
import ExtractFlow.Models

/-!
# The form of a custom provider

The settings of a custom provider are edited in a form of texts (`frontend/src/App.tsx`):
`buildCustomProviderDraftFromSettings` fills it, `validateCustomProviderDraft` checks it, and
`buildCustomProviderSettings` makes settings of it again.

A number is read as `Number(text) || fallback`.  The fallback is meant for a text that is no
number, which the check has ruled out by then; it takes the place of nought, too, and a blank
text counts as nought.

## Main definitions

* `ProviderSettings`, `CustomProviderDraft` — settings, and the form.
* `buildCustomProviderSettings`, `validateCustomProviderDraft`,
  `buildCustomProviderDraftFromSettings`.
* `SavedProfile`, `Survives`, `Kept` — a profile that was saved, that it comes back, and when.
* `TypedNumbers` — the numbers are those that were typed.

## Main results

* `survives_iff`, `typedNumbers_iff` — when settings come back, and when numbers are kept.
* `provider_form_iff` — both.
-/

namespace ExtractFlow

open Js

/-! ### Settings and drafts -/

/-- `ProviderSettings`, as the interface holds them: what JSON has no value for may be missing. -/
structure ProviderSettings (ν : Type) where
  mode : ProviderMode
  providerType : String
  providerLabel : Option String
  apiStyle : ApiStyle
  baseUrl : Option String
  apiKeyEnvVar : Option String
  apiKeyRequired : Bool
  deployment : Option String
  apiVersion : Option String
  model : String
  temperature : ν
  maxTokens : ν
  supportsJsonMode : Bool
  allowExternalProcessing : Bool
  timeoutSeconds : Option ν
  retryCount : Option ν
  chunkSize : Option ν
  deriving Repr

/-- The API styles that the form offers; settings may have others. -/
inductive CustomApiStyle where
  | openaiCompatible | azureOpenai
  deriving DecidableEq, Repr

def CustomApiStyle.toApiStyle : CustomApiStyle → ApiStyle
  | openaiCompatible => .openaiCompatible
  | azureOpenai => .azureOpenai

/-- What the form holds: choices, and texts for everything that is typed. -/
structure CustomProviderDraft where
  label : String
  mode : ProviderMode
  apiStyle : CustomApiStyle
  providerType : String
  baseUrl : String
  apiKeyEnvVar : String
  model : String
  deployment : String
  apiVersion : String
  allowExternalProcessing : Bool
  supportsJsonMode : Bool
  temperature : String
  maxTokens : String
  timeoutSeconds : String
  retryCount : String
  chunkSize : String
  deriving Repr

/-- The texts that are read as numbers. -/
def CustomProviderDraft.numericTexts (input : CustomProviderDraft) : List String :=
  [input.temperature, input.maxTokens, input.timeoutSeconds, input.retryCount, input.chunkSize]

section Form

variable {ν : Type} [DecidableEq ν] (num : JsNumbers ν)

/-- A number of the program, by its text. -/
def numeral (text : String) : ν := (num.number text).getD num.zero

/-- `Number(text) || fallback`. -/
def numberOr (text : String) (fallback : ν) : ν :=
  match num.number text with
  | none => fallback
  | some n => if n = num.zero then fallback else n

/-- `text || null`. -/
def textOrNull (text : String) : Option String := if text = "" then none else some text

/-- `Number.isFinite(Number(text))`. -/
def isNumeric (text : String) : Bool := (num.number text).any num.isFinite

/-- `buildCustomProviderSettings`: the settings of a draft. Texts are trimmed, and each number has a
fallback. -/
def buildCustomProviderSettings (input : CustomProviderDraft) : ProviderSettings ν :=
  let isAzure := input.apiStyle == .azureOpenai
  let trimmedBaseUrl := trim input.baseUrl
  let trimmedApiKeyEnvVar := trim input.apiKeyEnvVar
  let trimmedDeployment := trim input.deployment
  let trimmedApiVersion := trim input.apiVersion
  { mode := input.mode
    providerType := trim input.providerType
    providerLabel := some (trim input.label)
    apiStyle := input.apiStyle.toApiStyle
    baseUrl := textOrNull trimmedBaseUrl
    apiKeyEnvVar := textOrNull trimmedApiKeyEnvVar
    apiKeyRequired := input.mode == .cloud || trimmedApiKeyEnvVar ≠ ""
    deployment := if isAzure then textOrNull trimmedDeployment else none
    apiVersion := if isAzure then textOrNull trimmedApiVersion else none
    model := trim input.model
    temperature := numberOr num input.temperature (numeral num "0.1")
    maxTokens := numberOr num input.maxTokens (numeral num "6000")
    supportsJsonMode := input.supportsJsonMode
    allowExternalProcessing := input.allowExternalProcessing
    timeoutSeconds := some (numberOr num input.timeoutSeconds (numeral num "120"))
    retryCount := some (numberOr num input.retryCount (numeral num "2"))
    chunkSize := some (numberOr num input.chunkSize (numeral num "16000")) }

/-- `validateCustomProviderDraft`: the first thing that is wrong with the draft, if anything is. -/
def validateCustomProviderDraft (input : CustomProviderDraft) : Option String :=
  if trim input.label = "" then some "Custom provider label is required."
  else if trim input.providerType = "" then some "Custom provider type is required."
  else if trim input.baseUrl = "" then some "Custom provider base URL is required."
  else if trim input.model = "" then some "Custom provider model is required."
  else if input.apiStyle = .azureOpenai ∧ trim input.deployment = "" then
    some "Azure deployment is required."
  else if input.apiStyle = .azureOpenai ∧ trim input.apiVersion = "" then
    some "Azure API version is required."
  else if ¬ isNumeric num input.temperature then some "Temperature must be numeric."
  else if ¬ isNumeric num input.maxTokens then some "Max tokens must be numeric."
  else if ¬ isNumeric num input.timeoutSeconds then some "Timeout seconds must be numeric."
  else if ¬ isNumeric num input.retryCount then some "Retry count must be numeric."
  else if ¬ isNumeric num input.chunkSize then some "Chunk size must be numeric."
  else none

/-- `buildCustomProviderDraftFromSettings`: the draft that the form starts from, with the texts of
the numbers and defaults for what is missing. -/
def buildCustomProviderDraftFromSettings (settings : ProviderSettings ν) :
    CustomProviderDraft where
  label := settings.providerLabel.getD settings.providerType
  mode := settings.mode
  apiStyle := if settings.apiStyle = .azureOpenai then .azureOpenai else .openaiCompatible
  providerType := settings.providerType
  baseUrl := settings.baseUrl.getD ""
  apiKeyEnvVar := settings.apiKeyEnvVar.getD ""
  model := settings.model
  deployment := settings.deployment.getD ""
  apiVersion := settings.apiVersion.getD "2024-10-21"
  allowExternalProcessing := settings.allowExternalProcessing
  supportsJsonMode := settings.supportsJsonMode
  temperature := num.toStr settings.temperature
  maxTokens := num.toStr settings.maxTokens
  timeoutSeconds := num.toStr (settings.timeoutSeconds.getD (numeral num "120"))
  retryCount := num.toStr (settings.retryCount.getD (numeral num "2"))
  chunkSize := num.toStr (settings.chunkSize.getD (numeral num "16000"))

end Form

/-! ### Coming back -/

/-- The text has something in it and no white space at its ends. -/
def TrimmedText (s : String) : Prop := trim s = s ∧ s ≠ ""

section ComingBack

variable {ν : Type} [DecidableEq ν] (num : JsNumbers ν)

/-- None of the fallbacks is nought, as their literals say. -/
structure NonzeroFallbacks : Prop where
  temperature : numeral num "0.1" ≠ num.zero
  maxTokens : numeral num "6000" ≠ num.zero
  timeoutSeconds : numeral num "120" ≠ num.zero
  retryCount : numeral num "2" ≠ num.zero
  chunkSize : numeral num "16000" ≠ num.zero

/-- The settings of a saved profile of one of the two styles. -/
structure SavedProfile (settings : ProviderSettings ν) : Prop where
  style : settings.apiStyle = .openaiCompatible ∨ settings.apiStyle = .azureOpenai
  label : ∃ label, settings.providerLabel = some label ∧ TrimmedText label
  providerType : TrimmedText settings.providerType
  baseUrl : ∃ url, settings.baseUrl = some url ∧ TrimmedText url
  model : TrimmedText settings.model
  temperature : num.isFinite settings.temperature = true
  maxTokens : num.isFinite settings.maxTokens = true
  timeoutSeconds : ∃ n, settings.timeoutSeconds = some n ∧ num.isFinite n = true
  retryCount : ∃ n, settings.retryCount = some n ∧ num.isFinite n = true
  chunkSize : ∃ n, settings.chunkSize = some n ∧ num.isFinite n = true

/-- The settings came back: what the form can show of them is what it makes again. -/
structure Survives (settings after : ProviderSettings ν) : Prop where
  temperature : after.temperature = settings.temperature
  maxTokens : after.maxTokens = settings.maxTokens
  timeoutSeconds : after.timeoutSeconds = settings.timeoutSeconds
  retryCount : after.retryCount = settings.retryCount
  chunkSize : after.chunkSize = settings.chunkSize
  mode : after.mode = settings.mode
  apiStyle : after.apiStyle = settings.apiStyle
  baseUrl : after.baseUrl = settings.baseUrl
  model : after.model = settings.model
  deployment : after.deployment = settings.deployment
  allowExternalProcessing : after.allowExternalProcessing = settings.allowExternalProcessing

/-- No number is nought; and only Azure has a deployment, with no white space at its ends. -/
structure Kept (settings : ProviderSettings ν) : Prop where
  temperature : settings.temperature ≠ num.zero
  maxTokens : settings.maxTokens ≠ num.zero
  timeoutSeconds : settings.timeoutSeconds ≠ some num.zero
  retryCount : settings.retryCount ≠ some num.zero
  chunkSize : settings.chunkSize ≠ some num.zero
  deployment : ∀ deployment ∈ settings.deployment,
    settings.apiStyle = .azureOpenai ∧ TrimmedText deployment

/-- The numbers of the settings are those that were typed in the form. -/
structure TypedNumbers (input : CustomProviderDraft) (settings : ProviderSettings ν) : Prop where
  temperature : num.number input.temperature = some settings.temperature
  maxTokens : num.number input.maxTokens = some settings.maxTokens
  timeoutSeconds : num.number input.timeoutSeconds = settings.timeoutSeconds
  retryCount : num.number input.retryCount = settings.retryCount
  chunkSize : num.number input.chunkSize = settings.chunkSize

end ComingBack

section Results

variable {ν : Type} [DecidableEq ν] {num : JsNumbers ν}

/-- **A number is kept if it is not nought.** -/
theorem numberOr_toStr_iff {n fallback : ν} (h : fallback ≠ num.zero) :
    numberOr num (num.toStr n) fallback = n ↔ n ≠ num.zero := by
  unfold numberOr
  rw [num.number_toStr]
  dsimp only
  split_ifs with hzero
  · rw [hzero]
    exact iff_of_false h fun hne => hne rfl
  · exact iff_of_true rfl hzero

/-- So is a typed number. -/
theorem number_eq_numberOr_iff {text : String} {fallback : ν} (h : fallback ≠ num.zero)
    (hnumeric : isNumeric num text = true) :
    num.number text = some (numberOr num text fallback) ↔ num.number text ≠ some num.zero := by
  unfold isNumeric at hnumeric
  unfold numberOr
  cases hnumber : num.number text with
  | none =>
    rw [hnumber] at hnumeric
    cases hnumeric
  | some n =>
    dsimp only
    split_ifs with hzero
    · rw [hzero]
      exact iff_of_false (fun hsame => h (Option.some.inj hsame).symm) fun hne => hne rfl
    · exact iff_of_true rfl fun hsame => hzero (Option.some.inj hsame)

theorem textOrNull_trim {s : String} (h : TrimmedText s) : textOrNull (trim s) = some s := by
  unfold textOrNull
  rw [h.1, if_neg h.2]

/-- A number that is there. -/
theorem some_numberOr_iff {field : Option ν} {fallback : ν} (h : fallback ≠ num.zero)
    (hfield : ∃ n, field = some n ∧ num.isFinite n = true) :
    some (numberOr num (num.toStr (field.getD fallback)) fallback) = field ↔
      field ≠ some num.zero := by
  obtain ⟨n, rfl, -⟩ := hfield
  rw [Option.getD_some, Option.some.injEq, ne_eq, Option.some.injEq]
  exact numberOr_toStr_iff h

theorem textOrNull_deployment_iff (deployment : Option String) :
    textOrNull (trim (deployment.getD "")) = deployment ↔ ∀ d ∈ deployment, TrimmedText d := by
  cases deployment with
  | none => exact iff_of_true rfl nofun
  | some d =>
    simp only [Option.getD_some, Option.mem_def, Option.some.injEq, forall_eq']
    constructor
    · intro h
      unfold textOrNull at h
      split_ifs at h with hempty
      have hsame := Option.some.inj h
      exact ⟨hsame, fun hnil => hempty (hsame.trans hnil)⟩
    · exact textOrNull_trim

/-- The API style goes through the form. -/
theorem toApiStyle_formStyle {style : ApiStyle}
    (h : style = .openaiCompatible ∨ style = .azureOpenai) :
    (if style = .azureOpenai then CustomApiStyle.azureOpenai else .openaiCompatible).toApiStyle =
      style := by
  rcases h with rfl | rfl <;> rfl

/-- When a deployment comes back. -/
theorem deployment_iff {style : ApiStyle} (h : style = .openaiCompatible ∨ style = .azureOpenai)
    (deployment : Option String) :
    (if ((if style = .azureOpenai then CustomApiStyle.azureOpenai else .openaiCompatible) ==
        .azureOpenai) = true then textOrNull (trim (deployment.getD "")) else none) = deployment ↔
      ∀ d ∈ deployment, style = .azureOpenai ∧ TrimmedText d := by
  rcases h with rfl | rfl
  · cases deployment with
    | none => exact iff_of_true rfl nofun
    | some d => exact iff_of_false nofun fun h => nomatch (h d rfl).1
  · refine (textOrNull_deployment_iff deployment).trans ?_
    exact forall₂_congr fun d _ => (and_iff_right rfl).symm

/-- **When settings come back** from the form: when none of their numbers is nought, and a
deployment is there for Azure only. -/
theorem survives_iff (hfallbacks : NonzeroFallbacks num) {settings : ProviderSettings ν}
    (hsaved : SavedProfile num settings) :
    Survives settings
        (buildCustomProviderSettings num (buildCustomProviderDraftFromSettings num settings)) ↔
      Kept num settings := by
  obtain ⟨url, hurl, hurlText⟩ := hsaved.baseUrl
  have htimeout := some_numberOr_iff hfallbacks.timeoutSeconds hsaved.timeoutSeconds
  have hretry := some_numberOr_iff hfallbacks.retryCount hsaved.retryCount
  have hchunk := some_numberOr_iff hfallbacks.chunkSize hsaved.chunkSize
  have hdeployment := deployment_iff hsaved.style settings.deployment
  have hbaseUrl : textOrNull (trim (settings.baseUrl.getD "")) = settings.baseUrl := by
    rw [hurl, Option.getD_some, textOrNull_trim hurlText]
  -- Each number and the deployment survive by themselves; the rest comes back in any case.
  unfold buildCustomProviderSettings buildCustomProviderDraftFromSettings
  dsimp only
  constructor
  · intro h
    exact ⟨(numberOr_toStr_iff hfallbacks.temperature).mp h.temperature,
      (numberOr_toStr_iff hfallbacks.maxTokens).mp h.maxTokens, htimeout.mp h.timeoutSeconds,
      hretry.mp h.retryCount, hchunk.mp h.chunkSize, hdeployment.mp h.deployment⟩
  · intro h
    exact
      { temperature := (numberOr_toStr_iff hfallbacks.temperature).mpr h.temperature
        maxTokens := (numberOr_toStr_iff hfallbacks.maxTokens).mpr h.maxTokens
        timeoutSeconds := htimeout.mpr h.timeoutSeconds
        retryCount := hretry.mpr h.retryCount
        chunkSize := hchunk.mpr h.chunkSize
        mode := rfl
        apiStyle := toApiStyle_formStyle hsaved.style
        baseUrl := hbaseUrl
        model := hsaved.model.1
        deployment := hdeployment.mpr h.deployment
        allowExternalProcessing := rfl }

/-- A check that found nothing wrong, before others that did not either. -/
theorem none_of_check {α : Type} {c : Prop} [Decidable c] {message : α} {rest : Option α}
    (h : (if c then some message else rest) = none) : ¬ c ∧ rest = none := by
  by_cases hc : c
  · rw [if_pos hc] at h
    cases h
  · rw [if_neg hc] at h
    exact ⟨hc, h⟩

omit [DecidableEq ν] in
/-- The texts of an accepted draft are numbers. -/
theorem isNumeric_of_valid {input : CustomProviderDraft}
    (h : validateCustomProviderDraft num input = none) :
    ∀ text ∈ input.numericTexts, isNumeric num text = true := by
  unfold validateCustomProviderDraft at h
  obtain ⟨-, h⟩ := none_of_check h
  obtain ⟨-, h⟩ := none_of_check h
  obtain ⟨-, h⟩ := none_of_check h
  obtain ⟨-, h⟩ := none_of_check h
  obtain ⟨-, h⟩ := none_of_check h
  obtain ⟨-, h⟩ := none_of_check h
  obtain ⟨htemperature, h⟩ := none_of_check h
  obtain ⟨hmax, h⟩ := none_of_check h
  obtain ⟨htimeout, h⟩ := none_of_check h
  obtain ⟨hretry, h⟩ := none_of_check h
  obtain ⟨hchunk, -⟩ := none_of_check h
  rw [not_not] at htemperature hmax htimeout hretry hchunk
  unfold CustomProviderDraft.numericTexts
  rw [List.forall_mem_cons, List.forall_mem_cons, List.forall_mem_cons, List.forall_mem_cons,
    List.forall_mem_singleton]
  exact ⟨htemperature, hmax, htimeout, hretry, hchunk⟩

/-- **When the numbers are those that were typed**: when none of the texts stands for nought, which
the fallback would replace. -/
theorem typedNumbers_iff (hfallbacks : NonzeroFallbacks num) {input : CustomProviderDraft}
    (hvalid : validateCustomProviderDraft num input = none) :
    TypedNumbers num input (buildCustomProviderSettings num input) ↔
      ∀ text ∈ input.numericTexts, num.number text ≠ some num.zero := by
  have hnumeric := isNumeric_of_valid hvalid
  unfold CustomProviderDraft.numericTexts at hnumeric ⊢
  rw [List.forall_mem_cons, List.forall_mem_cons, List.forall_mem_cons, List.forall_mem_cons,
    List.forall_mem_singleton] at hnumeric ⊢
  obtain ⟨htemperature, hmax, htimeout, hretry, hchunk⟩ := hnumeric
  have htemperature := number_eq_numberOr_iff hfallbacks.temperature htemperature
  have hmax := number_eq_numberOr_iff hfallbacks.maxTokens hmax
  have htimeout := number_eq_numberOr_iff hfallbacks.timeoutSeconds htimeout
  have hretry := number_eq_numberOr_iff hfallbacks.retryCount hretry
  have hchunk := number_eq_numberOr_iff hfallbacks.chunkSize hchunk
  rw [← htemperature, ← hmax, ← htimeout, ← hretry, ← hchunk]
  constructor
  · intro h
    exact ⟨h.temperature, h.maxTokens, h.timeoutSeconds, h.retryCount, h.chunkSize⟩
  · rintro ⟨htemperature, hmax, htimeout, hretry, hchunk⟩
    exact ⟨htemperature, hmax, htimeout, hretry, hchunk⟩

variable (num) in
/-- **When settings survive the form**, and when the form keeps the numbers that were typed. -/
theorem provider_form_iff (hfallbacks : NonzeroFallbacks num) :
    (∀ settings, SavedProfile num settings →
      (Survives settings
          (buildCustomProviderSettings num (buildCustomProviderDraftFromSettings num settings)) ↔
        Kept num settings)) ∧
    ∀ input, validateCustomProviderDraft num input = none →
      (TypedNumbers num input (buildCustomProviderSettings num input) ↔
        ∀ text ∈ input.numericTexts, num.number text ≠ some num.zero) :=
  ⟨fun _ hsaved => survives_iff hfallbacks hsaved,
    fun _ hvalid => typedNumbers_iff hfallbacks hvalid⟩

end Results

/-! ### The numbers of the form -/

/-- Nought and the fallbacks, which are numbers enough to lose a nought. -/
inductive FormNumber where
  | zero | tenth | two | oneTwenty | sixThousand | sixteenThousand
  deriving DecidableEq, Repr

namespace FormNumber

/-- The text of the number. -/
def text : FormNumber → String
  | zero => "0"
  | tenth => "0.1"
  | two => "2"
  | oneTwenty => "120"
  | sixThousand => "6000"
  | sixteenThousand => "16000"

/-- The number of a text; a blank text is nought. -/
def read (s : String) : Option FormNumber :=
  if trim s = "" then some zero
  else [zero, tenth, two, oneTwenty, sixThousand, sixteenThousand].find? fun n => n.text == trim s

end FormNumber

/-- These numbers and their texts. -/
def formNumbers : JsNumbers FormNumber where
  toStr := FormNumber.text
  number := FormNumber.read
  isFinite _ := true
  zero := .zero
  number_toStr n := by cases n <;> decide
  literal_toStr n _ := by cases n <;> decide
  isFinite_zero := rfl
  number_blank _ h := if_pos h

theorem formNumbers_nonzero : NonzeroFallbacks formNumbers where
  temperature := by decide
  maxTokens := by decide
  timeoutSeconds := by decide
  retryCount := by decide
  chunkSize := by decide

/-- A gateway of that temperature. -/
def gateway (temperature : FormNumber) : ProviderSettings FormNumber where
  mode := .local
  providerType := "private_gateway"
  providerLabel := some "Private Gateway"
  apiStyle := .openaiCompatible
  baseUrl := some "http://localhost:8001/v1"
  apiKeyEnvVar := none
  apiKeyRequired := false
  deployment := none
  apiVersion := none
  model := "document-extractor-default"
  temperature := temperature
  maxTokens := .sixThousand
  supportsJsonMode := true
  allowExternalProcessing := false
  timeoutSeconds := some .oneTwenty
  retryCount := some .two
  chunkSize := some .sixteenThousand

theorem savedProfile_gateway (temperature : FormNumber) :
    SavedProfile formNumbers (gateway temperature) where
  style := .inl rfl
  label := ⟨_, rfl, by decide, by decide⟩
  providerType := show TrimmedText "private_gateway" from ⟨by decide, by decide⟩
  baseUrl := ⟨_, rfl, by decide, by decide⟩
  model := show TrimmedText "document-extractor-default" from ⟨by decide, by decide⟩
  temperature := rfl
  maxTokens := rfl
  timeoutSeconds := ⟨_, rfl, rfl⟩
  retryCount := ⟨_, rfl, rfl⟩
  chunkSize := ⟨_, rfl, rfl⟩

/-- A gateway of temperature a tenth survives, and its draft keeps the numbers. -/
theorem provider_form_gateway :
    Survives (gateway .tenth) (buildCustomProviderSettings formNumbers
        (buildCustomProviderDraftFromSettings formNumbers (gateway .tenth))) ∧
      TypedNumbers formNumbers (buildCustomProviderDraftFromSettings formNumbers (gateway .tenth))
        (buildCustomProviderSettings formNumbers
          (buildCustomProviderDraftFromSettings formNumbers (gateway .tenth))) := by
  obtain ⟨hsurvives, htyped⟩ := provider_form_iff formNumbers formNumbers_nonzero
  refine ⟨(hsurvives _ (savedProfile_gateway .tenth)).mpr ?_, (htyped _ (by decide)).mpr ?_⟩
  · exact ⟨by decide, by decide, by decide, by decide, by decide, nofun⟩
  · decide

/-- **A temperature of nought does not survive**: the form makes a tenth of it. -/
theorem zero_temperature_lost :
    ¬ ∀ (ν : Type) (_ : DecidableEq ν) (num : JsNumbers ν), NonzeroFallbacks num →
      (∀ settings, SavedProfile num settings → Survives settings
        (buildCustomProviderSettings num (buildCustomProviderDraftFromSettings num settings))) ∧
      ∀ input, validateCustomProviderDraft num input = none →
        TypedNumbers num input (buildCustomProviderSettings num input) := by
  intro hclaim
  obtain ⟨hsurvives, -⟩ := hclaim FormNumber inferInstance formNumbers formNumbers_nonzero
  have hkept := (survives_iff formNumbers_nonzero (savedProfile_gateway .zero)).mp
    (hsurvives _ (savedProfile_gateway .zero))
  exact hkept.temperature rfl

end ExtractFlow
