import ExtractFlow.LangExtractDrafts
import ExtractFlow.Lib.Utf16

/-!
# The guidance on a LangExtract draft

Beside the drafts of examples the editor says what the draft still wants
(`getLangExtractDraftGuidance`): a prompt of some length, two complete examples, no incomplete
one, and every required field in an example.  Each that is wanting gives a message, and a draft
that wants nothing is told so in a message, too.

The draft counts as ready when there is one message — which is so when nothing is wanting, but
also when one thing is.

## Main definitions

* `getLangExtractDraftGuidance` — the messages and the verdict.
* `DraftCheck`, `DraftCheck.Holds` — the four checks.
* `failedChecks` — those that do not hold of a draft.

## Main results

* `length_draftMessages` — a message for each check that failed.
* `isReady_iff` — the verdict is that at most one check failed.
* `draftGuidance_iff` — the verdict is right unless exactly one check failed.
-/

namespace ExtractFlow

open Js

/-- `s.length`. -/
def jsLength (s : String) : ℕ := (Utf16.encode s.toList).length

/-- What the editor shows beside the drafts: a verdict and messages. -/
structure LangExtractDraftGuidance where
  isReady : Bool
  messages : List String
  deriving Repr

/-! ### The messages -/

/-- What the prompt wants, trimmed. -/
def promptMessages (promptDescription : String) : List String :=
  if promptDescription = "" then
    ["Add a prompt that names the target facts, grounding expectations, and when ambiguous " ++
      "matches should stay review-required."]
  else if jsLength promptDescription < 80 then
    ["Strengthen the prompt with edge cases or review guidance so the extraction rules are more " ++
      "specific than the field labels alone."]
  else []

/-- What the number of complete examples wants. -/
def exampleMessages (completeCount : ℕ) : List String :=
  if completeCount = 0 then
    ["Finish at least one complete grounded example before saving this draft."]
  else if completeCount = 1 then
    ["Add a second complete example with different wording or layout so LangExtract does not " ++
      "overfit a single document pattern."]
  else []

/-- What the incomplete examples want. -/
def incompleteMessages (incompleteExampleCount : ℕ) : List String :=
  if 0 < incompleteExampleCount then
    let plural := if incompleteExampleCount = 1 then "" else "s"
    [s!"{incompleteExampleCount} example draft{plural} still need complete source text, field " ++
      "names, spans, or attribute values."]
  else []

/-- What the coverage wants. -/
def coverageMessages (missingRequiredFields : List String) : List String :=
  if missingRequiredFields = [] then []
  else
    ["Cover the remaining required fields in complete examples: " ++
      ", ".intercalate missingRequiredFields ++ "."]

/-- What the draft wants. -/
def draftMessages (draft : LangExtractDraftShape)
    (validFieldNames requiredFieldNames : List String) : List String :=
  let completeExamples := draft.langextractExamples.filter isDraftExampleComplete
  let coverage := getLangExtractFieldCoverage (draftClasses completeExamples) validFieldNames
    requiredFieldNames
  promptMessages (trim draft.langextractPromptDescription) ++
    exampleMessages completeExamples.length ++
    incompleteMessages (draft.langextractExamples.length - completeExamples.length) ++
    coverageMessages coverage.missingRequiredFields

/-- `getLangExtractDraftGuidance`: a message for each thing that is wanting, or the one that says
that nothing is. The verdict counts the messages. -/
def getLangExtractDraftGuidance (draft : LangExtractDraftShape)
    (validFieldNames requiredFieldNames : List String) : LangExtractDraftGuidance :=
  let collected := draftMessages draft validFieldNames requiredFieldNames
  let messages :=
    if collected = [] then
      ["This draft has a usable prompt, multiple complete examples, and required field " ++
        "coverage. Next, vary layouts and phrasing before shipping."]
    else collected
  { isReady := messages.length == 1, messages := messages }

/-! ### The checks -/

/-- What a draft is checked for; each check has a message of its own. -/
inductive DraftCheck where
  | promptLong | twoComplete | noneIncomplete | requiredCovered
  deriving DecidableEq, Repr

namespace DraftCheck

/-- All of them, in the order of their messages. -/
def all : List DraftCheck := [promptLong, twoComplete, noneIncomplete, requiredCovered]

theorem mem_all (check : DraftCheck) : check ∈ all := by
  cases check <;> decide

variable (draft : LangExtractDraftShape) (validFieldNames requiredFieldNames : List String)

/-- The draft passes.  A field is covered by an extraction of its name; where field names are
known, it is one of them. -/
def Holds : DraftCheck → Prop
  | promptLong => 80 ≤ jsLength (trim draft.langextractPromptDescription)
  | twoComplete => 2 ≤ (draft.langextractExamples.filter isDraftExampleComplete).length
  | noneIncomplete => ∀ e ∈ draft.langextractExamples, isDraftExampleComplete e = true
  | requiredCovered => ∀ name ∈ trimmedNames requiredFieldNames,
      (trimmedNames validFieldNames = [] ∨ name ∈ trimmedNames validFieldNames) ∧
        ∃ e ∈ draft.langextractExamples, isDraftExampleComplete e = true ∧
          ∃ extraction ∈ e.extractions, trim extraction.extractionClass = name

instance : DecidablePred (Holds draft validFieldNames requiredFieldNames) := fun check =>
  match check with
  | promptLong => inferInstanceAs (Decidable (_ ≤ _))
  | twoComplete => inferInstanceAs (Decidable (_ ≤ _))
  | noneIncomplete => inferInstanceAs (Decidable (∀ e ∈ draft.langextractExamples, _))
  | requiredCovered => inferInstanceAs (Decidable (∀ name ∈ trimmedNames requiredFieldNames, _))

end DraftCheck

/-- The checks that do not hold of the draft, in the order of their messages. -/
def failedChecks (draft : LangExtractDraftShape)
    (validFieldNames requiredFieldNames : List String) : List DraftCheck :=
  DraftCheck.all.filter fun check => ¬ check.Holds draft validFieldNames requiredFieldNames

section Guidance

variable {draft : LangExtractDraftShape} {validFieldNames requiredFieldNames : List String}

theorem failedChecks_eq_nil_iff :
    failedChecks draft validFieldNames requiredFieldNames = [] ↔
      ∀ check : DraftCheck, check.Holds draft validFieldNames requiredFieldNames := by
  unfold failedChecks
  simp [List.filter_eq_nil_iff, DraftCheck.mem_all]

/-! ### Messages and checks -/

theorem length_promptMessages (s : String) :
    (promptMessages s).length = if 80 ≤ jsLength s then 0 else 1 := by
  unfold promptMessages
  by_cases hempty : s = ""
  · subst hempty
    rfl
  · by_cases hlong : 80 ≤ jsLength s
    · rw [if_neg hempty, if_neg (by omega), if_pos hlong]
      rfl
    · rw [if_neg hempty, if_pos (by omega), if_neg hlong]
      rfl

theorem length_exampleMessages (n : ℕ) :
    (exampleMessages n).length = if 2 ≤ n then 0 else 1 := by
  unfold exampleMessages
  split_ifs <;> first | rfl | omega

theorem length_incompleteMessages (n : ℕ) :
    (incompleteMessages n).length = if n = 0 then 0 else 1 := by
  unfold incompleteMessages
  split_ifs <;> first | rfl | omega

theorem length_coverageMessages (names : List String) :
    (coverageMessages names).length = if names = [] then 0 else 1 := by
  unfold coverageMessages
  split_ifs <;> rfl

/-- No example is incomplete when as many are complete as there are. -/
theorem noneIncomplete_iff (examples : List DraftLangExtractExample) :
    examples.length - (examples.filter isDraftExampleComplete).length = 0 ↔
      ∀ e ∈ examples, isDraftExampleComplete e = true := by
  have hle := List.length_filter_le isDraftExampleComplete examples
  rw [← List.length_filter_eq_length_iff]
  omega

/-- No required field is missing when each is covered. -/
theorem requiredCovered_iff :
    (getLangExtractFieldCoverage
        (draftClasses (draft.langextractExamples.filter isDraftExampleComplete))
        validFieldNames requiredFieldNames).missingRequiredFields = [] ↔
      DraftCheck.requiredCovered.Holds draft validFieldNames requiredFieldNames := by
  have hclass : ∀ name, (∃ c ∈ draftClasses (draft.langextractExamples.filter
        isDraftExampleComplete), trim c = name) ↔
      ∃ e ∈ draft.langextractExamples, isDraftExampleComplete e = true ∧
        ∃ extraction ∈ e.extractions, trim extraction.extractionClass = name := by
    intro name
    simp only [draftClasses, List.mem_flatMap, List.mem_filter, List.mem_map]
    constructor
    · rintro ⟨_, ⟨e, ⟨he, hcomplete⟩, extraction, hextraction, rfl⟩, htrim⟩
      exact ⟨e, he, hcomplete, extraction, hextraction, htrim⟩
    · rintro ⟨e, he, hcomplete, extraction, hextraction, htrim⟩
      exact ⟨_, ⟨e, ⟨he, hcomplete⟩, extraction, hextraction, rfl⟩, htrim⟩
  rw [missingRequiredFields_eq_nil_iff]
  unfold DraftCheck.Holds
  refine forall₂_congr fun name hname => ?_
  have hne : name ≠ "" := (mem_trimmedNames.mp hname).1
  rw [mem_coveredFieldSet, mem_trimmedNames, hclass, and_iff_right hne, and_comm]

/-- **A message for each check that failed**, and none for the others. -/
theorem length_draftMessages :
    (draftMessages draft validFieldNames requiredFieldNames).length =
      (failedChecks draft validFieldNames requiredFieldNames).length := by
  have hprompt : (promptMessages (trim draft.langextractPromptDescription)).length =
      if DraftCheck.promptLong.Holds draft validFieldNames requiredFieldNames then 0 else 1 :=
    length_promptMessages _
  have hexamples :
      (exampleMessages (draft.langextractExamples.filter isDraftExampleComplete).length).length =
      if DraftCheck.twoComplete.Holds draft validFieldNames requiredFieldNames then 0 else 1 :=
    length_exampleMessages _
  have hincomplete : (incompleteMessages (draft.langextractExamples.length -
        (draft.langextractExamples.filter isDraftExampleComplete).length)).length =
      if DraftCheck.noneIncomplete.Holds draft validFieldNames requiredFieldNames
        then 0 else 1 := by
    rw [length_incompleteMessages]
    exact if_congr (noneIncomplete_iff _) rfl rfl
  have hcoverage : (coverageMessages (getLangExtractFieldCoverage (draftClasses
        (draft.langextractExamples.filter isDraftExampleComplete)) validFieldNames
        requiredFieldNames).missingRequiredFields).length =
      if DraftCheck.requiredCovered.Holds draft validFieldNames requiredFieldNames
        then 0 else 1 := by
    rw [length_coverageMessages]
    exact if_congr requiredCovered_iff rfl rfl
  -- The messages are those four lists, and each check adds one or none to both sides.
  unfold draftMessages failedChecks
  rw [← List.countP_eq_length_filter, DraftCheck.all]
  simp only [List.length_append, hprompt, hexamples, hincomplete, hcoverage, List.countP_cons,
    List.countP_nil, decide_eq_true_iff, ite_not]
  omega

/-- **The verdict is that at most one check failed**: both no failure and one failure give a single
message. -/
theorem isReady_iff :
    (getLangExtractDraftGuidance draft validFieldNames requiredFieldNames).isReady = true ↔
      (failedChecks draft validFieldNames requiredFieldNames).length ≤ 1 := by
  have hlength : (draftMessages draft validFieldNames requiredFieldNames).length =
      (failedChecks draft validFieldNames requiredFieldNames).length := length_draftMessages
  unfold getLangExtractDraftGuidance
  by_cases hempty : draftMessages draft validFieldNames requiredFieldNames = []
  · rw [hempty, List.length_nil] at hlength
    simp only [hempty, if_true, List.length_singleton, beq_self_eq_true, true_iff]
    omega
  · have hpos := List.length_pos_iff.mpr hempty
    simp only [hempty, if_false, beq_iff_eq]
    omega

/-- A draft that passes, with known field names, can be built. -/
theorem buildable_of_checks
    (h : ∀ check : DraftCheck, check.Holds draft validFieldNames requiredFieldNames)
    (hknown : ∀ e ∈ draft.langextractExamples, ∀ extraction ∈ e.extractions,
      ClassKnown (trimmedNames validFieldNames) extraction) :
    Buildable draft.langextractExamples validFieldNames requiredFieldNames := by
  have hcomplete : ∀ e ∈ draft.langextractExamples, isDraftExampleComplete e = true :=
    h .noneIncomplete
  have hcovered := requiredCovered_iff.mpr (h .requiredCovered)
  rw [List.filter_eq_self.mpr hcomplete] at hcovered
  exact ⟨hcomplete, hknown, hcovered⟩

variable (draft validFieldNames requiredFieldNames) in
/-- **When the verdict is right**, and the builder agrees with it: unless exactly one
check failed. -/
theorem draftGuidance_iff :
    (((getLangExtractDraftGuidance draft validFieldNames requiredFieldNames).isReady = true ↔
        ∀ check : DraftCheck, check.Holds draft validFieldNames requiredFieldNames) ∧
      ((getLangExtractDraftGuidance draft validFieldNames requiredFieldNames).isReady = true →
        (∀ e ∈ draft.langextractExamples, ∀ extraction ∈ e.extractions,
          ClassKnown (trimmedNames validFieldNames) extraction) →
        ∃ examples, buildLangExtractExamples draft.langextractExamples validFieldNames
          requiredFieldNames = .ok examples)) ↔
      (failedChecks draft validFieldNames requiredFieldNames).length ≠ 1 := by
  rw [isReady_iff, ← failedChecks_eq_nil_iff, ← List.length_eq_zero_iff]
  constructor
  · rintro ⟨hready, -⟩ hone
    have hnone := hready.mp (by omega)
    omega
  · intro hne
    refine ⟨by omega, fun hready hknown => ?_⟩
    have hnil : failedChecks draft validFieldNames requiredFieldNames = [] :=
      List.length_eq_zero_iff.mp (by omega)
    exact (buildLangExtractExamples_checked _ _ _).returns_iff.mpr
      (buildable_of_checks (failedChecks_eq_nil_iff.mp hnil) hknown)

end Guidance

/-! ### One thing wanting -/

/-- A draft of an example with one extraction. -/
def oneExtraction (text extractionClass : String) : DraftLangExtractExample where
  text := text
  extractions :=
    [{ extractionClass := extractionClass, extractionText := text, attributes := [] }]

/-- Two complete examples, and no prompt. -/
def promptless : LangExtractDraftShape where
  langextractPromptDescription := ""
  langextractExamples := [oneExtraction "Acme Corp" "vendor", oneExtraction "Pine LLC" "vendor"]

/-- **A draft without a prompt counts as ready**, as the one message it gets is counted like the one
that says that nothing is wanting. -/
theorem promptless_is_ready :
    ¬ ∀ (draft : LangExtractDraftShape) (validFieldNames requiredFieldNames : List String),
      ((getLangExtractDraftGuidance draft validFieldNames requiredFieldNames).isReady = true ↔
        ∀ check : DraftCheck, check.Holds draft validFieldNames requiredFieldNames) ∧
      ((getLangExtractDraftGuidance draft validFieldNames requiredFieldNames).isReady = true →
        (∀ e ∈ draft.langextractExamples, ∀ extraction ∈ e.extractions,
          ClassKnown (trimmedNames validFieldNames) extraction) →
        ∃ examples, buildLangExtractExamples draft.langextractExamples validFieldNames
          requiredFieldNames = .ok examples) := by
  intro hclaim
  have hone : (failedChecks promptless ["vendor"] ["vendor"]).length = 1 := by decide
  have hlong := (hclaim promptless ["vendor"] ["vendor"]).1.mp (isReady_iff.mpr hone.le)
    .promptLong
  exact absurd hlong (by decide)

end ExtractFlow
