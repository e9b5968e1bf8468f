import ExtractFlow.Chunking
import ExtractFlow.Entities
import ExtractFlow.Feedback
import ExtractFlow.ParsedText
import Mathlib.Data.List.Perm.Subperm

/-!
# Suggestions from reviewed fields

`_build_candidate_suggestion` (`backend/app/services/langextract_feedback.py`).  The
text around a reviewed field becomes an example for LangExtract, and the fields whose
spans lie in it become its extractions.

The window is clipped to the document and stripped, and each field's text is stripped
as well.  Still every extraction stands in the example as it is, since what a strip
takes away is white space only; and the edited field itself passes every check the
other fields are put to.  So two of the reasons to skip an edit never come up.

## Main definitions

* `SkipReason`, `LangExtractFeedbackSuggestion`.
* `buildCandidateSuggestion` — the suggestion of one edit.
* `LangExtractFeedbackSuggestion.SelfConsistent` — what a suggestion promises.

## Main results

* `contextualExtraction_eq_some_iff` — which fields become extractions.
* `suggestions_self_consistent` — every suggestion keeps its promise, and the last two
  reasons never come up.
-/

namespace ExtractFlow

open Utf16

/-! ### The program -/

/-- `CONTEXT_RADIUS`. -/
def contextRadius : ℤ := 160

/-- Why an edit has no suggestion; each is counted in the answer of the API. -/
inductive SkipReason where
  | missingDocumentText | missingTargetField | missingGrounding | spanOverride | spanMismatch
  | emptyContext | noContextualExtractions
  deriving DecidableEq, Repr

/-- `LangExtractFeedbackSuggestionExtractionResponse`: an extraction of the example, as LangExtract
is shown it. -/
structure LangExtractFeedbackSuggestionExtraction where
  extractionClass : String
  extractionText : String
  attributes : List (String × PyVal) := []
  deriving Repr, Inhabited

/-- `LangExtractFeedbackSuggestionResponse`: an example, and the edits that suggest it. -/
structure LangExtractFeedbackSuggestion where
  key : String
  templateVersionId : ℕ
  exampleText : String
  extractions : List LangExtractFeedbackSuggestionExtraction
  occurrenceCount : ℕ
  sourceResultIds : List ℕ := []
  sourceFieldNames : List String := []
  lastReviewedAt : Option UtcTime := none
  deriving Repr, Inhabited

namespace ExtractionFieldResult

/-- `_field_is_grounded`. -/
def isGrounded (field : ExtractionFieldResult) : Bool :=
  match field.charStart, field.charEnd with
  | some start, some stop => decide (0 ≤ start ∧ start ≤ stop)
  | _, _ => false

/-- `_field_has_span_override`. -/
def hasSpanOverride (field : ExtractionFieldResult) : Bool :=
  match field.extractedValue with
  | .none => false
  | .str value => pyStrip value != pyStrip field.sourceText
  | _ => true

/-- `_get_feedback_extraction_text`. -/
def feedbackExtractionText (field : ExtractionFieldResult) : Option String :=
  if pyStrip field.sourceText = "" then none
  else if field.hasSpanOverride then none
  else some (pyStrip field.sourceText)

/-- `_field_matches_document_span`, of a field with offsets that are not negative. -/
def matchesDocumentSpan (field : ExtractionFieldResult) (documentText : String) : Bool :=
  match field.charStart, field.charEnd with
  | some start, some stop =>
      if (documentText.length : ℤ) < stop then false
      else pyStrip (pySlice documentText start stop) == pyStrip field.sourceText
  | _, _ => false

/-- The first part of what the fields are sorted by. -/
def contextStart (field : ExtractionFieldResult) : ℤ := field.charStart.getD (10 ^ 9)

/-- The order of the fields: by their starts, then by their names. -/
def comesBefore (f g : ExtractionFieldResult) : Bool :=
  decide (f.contextStart < g.contextStart) ||
    (f.contextStart == g.contextStart && decide (f.fieldName ≤ g.fieldName))

end ExtractionFieldResult

/-- `_build_context_window`. -/
def buildContextWindow (text : String) (start stop : ℤ) : ℤ × ℤ :=
  (max 0 (start - contextRadius), min text.length (stop + contextRadius))

/-- The field's span lies in the window. -/
def ExtractionFieldResult.liesIn (field : ExtractionFieldResult) (window : ℤ × ℤ) : Bool :=
  match field.charStart, field.charEnd with
  | some start, some stop => !(decide (start < window.1) || decide (window.2 < stop))
  | _, _ => false

section Candidate

variable (lib : FeedbackLibrary) (fieldDefinitions : String → Option ExtractionFieldDefinition)

/-- The extraction of a field, once its text is known. -/
def feedbackExtraction (field : ExtractionFieldResult) (text : String) :
    LangExtractFeedbackSuggestionExtraction where
  extractionClass := field.fieldName
  extractionText := text
  attributes := buildLangextractFeedbackAttributes lib (fieldDefinitions field.fieldName)
    field.normalizedValue

/-- The loop's body: the extraction of a field, unless the field is passed over. -/
def contextualExtraction (documentText : String) (window : ℤ × ℤ)
    (field : ExtractionFieldResult) : Option LangExtractFeedbackSuggestionExtraction :=
  if !field.isGrounded then none
  else if !field.liesIn window then none
  else if !field.matchesDocumentSpan documentText then none
  else field.feedbackExtractionText.map (feedbackExtraction lib fieldDefinitions field)

/-- The fields in the order of the loop. -/
def contextFields (summary : ExtractionValidationSummary) : List ExtractionFieldResult :=
  summary.extractedFields.mergeSort ExtractionFieldResult.comesBefore

/-- `_build_candidate_suggestion`.  `suggestionKey` is `_build_suggestion_key`, a digest of
the example and its extractions. -/
def buildCandidateSuggestion
    (suggestionKey : String → List LangExtractFeedbackSuggestionExtraction → String)
    (templateVersionId resultId : ℕ) (summary : ExtractionValidationSummary)
    (documentText : String) (reviewEdit : ReviewEdit) :
    Except SkipReason LangExtractFeedbackSuggestion :=
  match summary.extractedFields.find? fun field => field.fieldName == reviewEdit.fieldName with
  | none => .error .missingTargetField
  | some target =>
      if !target.isGrounded || pyStrip target.sourceText == "" then .error .missingGrounding
      else if target.hasSpanOverride then .error .spanOverride
      else if !target.matchesDocumentSpan documentText then .error .spanMismatch
      else
        let window := buildContextWindow documentText (target.charStart.getD 0)
          (target.charEnd.getD 0)
        let exampleText := pyStrip (pySlice documentText window.1 window.2)
        if exampleText = "" then .error .emptyContext
        else
          let extraction := contextualExtraction lib fieldDefinitions documentText window
          let extractions := (contextFields summary).filterMap extraction
          let targetIncluded := (contextFields summary).any fun field =>
            (extraction field).isSome && field.fieldName == target.fieldName
          if !targetIncluded || extractions.isEmpty then .error .noContextualExtractions
          else .ok {
            key := suggestionKey exampleText extractions
            templateVersionId := templateVersionId
            exampleText := exampleText
            extractions := extractions
            occurrenceCount := 1
            sourceResultIds := [resultId]
            sourceFieldNames := [reviewEdit.fieldName]
            lastReviewedAt := summary.reviewedAt }

/-! ### What a suggestion promises -/

/-- The extractions are those of fields of the summary, in the order of their starts, with
the edited field among them; and each text stands in the example. -/
structure LangExtractFeedbackSuggestion.SelfConsistent (summary : ExtractionValidationSummary)
    (reviewEdit : ReviewEdit) (suggestion : LangExtractFeedbackSuggestion) : Prop where
  nonblank : ∀ extraction ∈ suggestion.extractions, pyStrip extraction.extractionText ≠ ""
  verbatim : ∀ extraction ∈ suggestion.extractions,
    extraction.extractionText.toList <:+: suggestion.exampleText.toList
  ordered : ∃ fields : List ExtractionFieldResult,
    suggestion.extractions = fields.map (fun field =>
      feedbackExtraction lib fieldDefinitions field (pyStrip field.sourceText)) ∧
    fields.Subperm summary.extractedFields ∧
    (∀ field ∈ fields, field.isGrounded = true) ∧
    (fields.Pairwise fun f g => ∃ start ∈ f.charStart, ∃ start' ∈ g.charStart, start ≤ start') ∧
    ∃ target ∈ fields, summary.extractedFields.find?
      (fun field => field.fieldName == reviewEdit.fieldName) = some target

end Candidate

/-! ### Fields that become extractions -/

section Fields

variable {lib : FeedbackLibrary} {fieldDefinitions : String → Option ExtractionFieldDefinition}
  {documentText : String} {window : ℤ × ℤ} {field target : ExtractionFieldResult}

theorem feedbackExtractionText_eq_some_iff {text : String} :
    field.feedbackExtractionText = some text ↔
      pyStrip field.sourceText ≠ "" ∧ field.hasSpanOverride = false ∧
        text = pyStrip field.sourceText := by
  unfold ExtractionFieldResult.feedbackExtractionText
  split
  next hblank => exact iff_of_false (fun h => by cases h) fun h => h.1 hblank
  next hblank =>
    split
    next hoverride =>
      exact iff_of_false (fun h => by cases h) fun h => by rw [hoverride] at h; cases h.2.1
    next hoverride =>
      rw [Bool.not_eq_true] at hoverride
      exact ⟨fun h => ⟨hblank, hoverride, (Option.some.inj h).symm⟩, fun h => h.2.2 ▸ rfl⟩

/-- **Which fields become extractions**, and what their extractions are: the field lies in the
window, its text is that of its span, and no edit has moved it. -/
theorem contextualExtraction_eq_some_iff {extraction : LangExtractFeedbackSuggestionExtraction} :
    contextualExtraction lib fieldDefinitions documentText window field = some extraction ↔
      field.isGrounded = true ∧ field.liesIn window = true ∧
        field.matchesDocumentSpan documentText = true ∧ pyStrip field.sourceText ≠ "" ∧
        field.hasSpanOverride = false ∧
        feedbackExtraction lib fieldDefinitions field (pyStrip field.sourceText) = extraction := by
  unfold contextualExtraction
  cases field.isGrounded with
  | false => simp
  | true =>
    cases field.liesIn window with
    | false => simp
    | true =>
      cases field.matchesDocumentSpan documentText with
      | false => simp
      | true =>
        simp only [Bool.not_true, Bool.false_eq_true, if_false, Option.map_eq_some_iff,
          feedbackExtractionText_eq_some_iff, true_and]
        constructor
        · rintro ⟨_, ⟨hblank, hoverride, rfl⟩, hextraction⟩
          exact ⟨hblank, hoverride, hextraction⟩
        · rintro ⟨hblank, hoverride, hextraction⟩
          exact ⟨_, ⟨hblank, hoverride, rfl⟩, hextraction⟩

theorem isGrounded_iff : field.isGrounded = true ↔
    ∃ start ∈ field.charStart, ∃ stop ∈ field.charEnd, 0 ≤ start ∧ start ≤ stop := by
  unfold ExtractionFieldResult.isGrounded
  cases field.charStart with
  | none => simp
  | some start =>
    cases field.charEnd with
    | none => simp
    | some stop => simp

theorem liesIn_iff : field.liesIn window = true ↔
    ∃ start ∈ field.charStart, ∃ stop ∈ field.charEnd, window.1 ≤ start ∧ stop ≤ window.2 := by
  unfold ExtractionFieldResult.liesIn
  cases field.charStart with
  | none => simp
  | some start =>
    cases field.charEnd with
    | none => simp
    | some stop => simp

theorem matchesDocumentSpan_iff : field.matchesDocumentSpan documentText = true ↔
    ∃ start ∈ field.charStart, ∃ stop ∈ field.charEnd, stop ≤ documentText.length ∧
      pyStrip (pySlice documentText start stop) = pyStrip field.sourceText := by
  unfold ExtractionFieldResult.matchesDocumentSpan
  cases field.charStart with
  | none => simp
  | some start =>
    cases field.charEnd with
    | none => simp
    | some stop => simp

/-- A field lies in its own window. -/
theorem liesIn_own (hgrounded : target.isGrounded = true)
    (hmatches : target.matchesDocumentSpan documentText = true) :
    target.liesIn (buildContextWindow documentText (target.charStart.getD 0)
      (target.charEnd.getD 0)) = true := by
  obtain ⟨start, hstart, stop, hstop, hpos, -⟩ := isGrounded_iff.mp hgrounded
  obtain ⟨_, _, stop', hstop', hlength, -⟩ := matchesDocumentSpan_iff.mp hmatches
  obtain rfl : stop = stop' := Option.mem_unique hstop hstop'
  refine liesIn_iff.mpr ⟨start, hstart, stop, hstop, ?_, ?_⟩
  · rw [Option.mem_def.mp hstart]
    show max 0 (start - contextRadius) ≤ start
    unfold contextRadius
    omega
  · rw [Option.mem_def.mp hstop]
    show stop ≤ min (documentText.length : ℤ) (stop + contextRadius)
    unfold contextRadius
    omega

/-- **The text of a field in the window stands in the stripped window.** -/
theorem sourceText_in_window (hlies : field.liesIn window = true)
    (hmatches : field.matchesDocumentSpan documentText = true) :
    (pyStrip field.sourceText).toList <:+:
      (pyStrip (pySlice documentText window.1 window.2)).toList := by
  obtain ⟨start, hstart, stop, hstop, hleft, hright⟩ := liesIn_iff.mp hlies
  obtain ⟨start', hstart', stop', hstop', -, hspan⟩ := matchesDocumentSpan_iff.mp hmatches
  obtain rfl : start = start' := Option.mem_unique hstart hstart'
  obtain rfl : stop = stop' := Option.mem_unique hstop hstop'
  -- the field's text is a stripped slice, and the window a wider one
  rw [← hspan]
  unfold pyStrip pySlice
  simp only [String.toList_ofList, stripChars_eq_trim]
  exact Trim.trim_of_piece (slice_of_le _ (Int.toNat_le_toNat hleft) (Int.toNat_le_toNat hright))

theorem comesBefore_iff {f g : ExtractionFieldResult} : f.comesBefore g = true ↔
    f.contextStart < g.contextStart ∨
      f.contextStart = g.contextStart ∧ f.fieldName ≤ g.fieldName := by
  unfold ExtractionFieldResult.comesBefore
  rw [Bool.or_eq_true, Bool.and_eq_true, decide_eq_true_eq, decide_eq_true_eq, beq_iff_eq]

theorem comesBefore_trans (f g h : ExtractionFieldResult) (hfg : f.comesBefore g = true)
    (hgh : g.comesBefore h = true) : f.comesBefore h = true := by
  rw [comesBefore_iff] at *
  rcases hfg with hfg | ⟨hfg, hnames⟩
  · left
    omega
  · rcases hgh with hgh | ⟨hgh, hnames'⟩
    · left
      omega
    · exact .inr ⟨hfg.trans hgh, String.le_trans hnames hnames'⟩

theorem comesBefore_total (f g : ExtractionFieldResult) :
    (f.comesBefore g || g.comesBefore f) = true := by
  rw [Bool.or_eq_true, comesBefore_iff, comesBefore_iff]
  rcases Int.lt_trichotomy f.contextStart g.contextStart with hlt | heq | hgt
  · exact .inl (.inl hlt)
  · rcases String.le_total f.fieldName g.fieldName with hle | hle
    · exact .inl (.inr ⟨heq, hle⟩)
    · exact .inr (.inr ⟨heq.symm, hle⟩)
  · exact .inr (.inl hgt)

/-- The fields of the loop are in the order of their starts, as far as they have any. -/
theorem contextFields_pairwise (summary : ExtractionValidationSummary) :
    (contextFields summary).Pairwise fun f g => ∀ start ∈ f.charStart, ∀ start' ∈ g.charStart,
      start ≤ start' := by
  refine (List.pairwise_mergeSort comesBefore_trans comesBefore_total _).imp fun {f g} hle => ?_
  intro start hstart start' hstart'
  have hf : f.contextStart = start := by
    rw [ExtractionFieldResult.contextStart, Option.mem_def.mp hstart, Option.getD_some]
  have hg : g.contextStart = start' := by
    rw [ExtractionFieldResult.contextStart, Option.mem_def.mp hstart', Option.getD_some]
  rcases comesBefore_iff.mp hle with hlt | ⟨heq, -⟩ <;> omega

end Fields

/-! ### Suggestions -/

section Suggestions

variable {lib : FeedbackLibrary} {fieldDefinitions : String → Option ExtractionFieldDefinition}
  {suggestionKey : String → List LangExtractFeedbackSuggestionExtraction → String}
  {templateVersionId resultId : ℕ} {summary : ExtractionValidationSummary} {documentText : String}
  {reviewEdit : ReviewEdit}

/-- The fields of the loop that become extractions. -/
theorem filterMap_contextualExtraction (lib : FeedbackLibrary)
    (fieldDefinitions : String → Option ExtractionFieldDefinition) (documentText : String)
    (window : ℤ × ℤ) : ∀ fields : List ExtractionFieldResult,
    fields.filterMap (contextualExtraction lib fieldDefinitions documentText window) =
      (fields.filter fun field =>
        (contextualExtraction lib fieldDefinitions documentText window field).isSome).map
        fun field => feedbackExtraction lib fieldDefinitions field (pyStrip field.sourceText) := by
  intro fields
  induction fields with
  | nil => rfl
  | cons field fields ih =>
    cases hextraction : contextualExtraction lib fieldDefinitions documentText window field with
    | none =>
      rw [List.filterMap_cons_none hextraction, ih, List.filter_cons_of_neg (by simp [hextraction])]
    | some extraction =>
      obtain ⟨-, -, -, -, -, rfl⟩ := contextualExtraction_eq_some_iff.mp hextraction
      rw [List.filterMap_cons_some hextraction, ih, List.filter_cons_of_pos (by simp [hextraction]),
        List.map_cons]

/-- **What becomes of an edit**: one of four reasons to skip it, or the suggestion of a
window that holds the edited field. -/
theorem buildCandidateSuggestion_cases :
    (∃ reason, buildCandidateSuggestion lib fieldDefinitions suggestionKey templateVersionId
        resultId summary documentText reviewEdit = .error reason ∧
      reason ≠ .emptyContext ∧ reason ≠ .noContextualExtractions) ∨
    ∃ target window, summary.extractedFields.find?
        (fun field => field.fieldName == reviewEdit.fieldName) = some target ∧
      (contextualExtraction lib fieldDefinitions documentText window target).isSome = true ∧
      buildCandidateSuggestion lib fieldDefinitions suggestionKey templateVersionId resultId
        summary documentText reviewEdit = .ok {
          key := suggestionKey (pyStrip (pySlice documentText window.1 window.2))
            ((contextFields summary).filterMap
              (contextualExtraction lib fieldDefinitions documentText window))
          templateVersionId := templateVersionId
          exampleText := pyStrip (pySlice documentText window.1 window.2)
          extractions := (contextFields summary).filterMap
            (contextualExtraction lib fieldDefinitions documentText window)
          occurrenceCount := 1
          sourceResultIds := [resultId]
          sourceFieldNames := [reviewEdit.fieldName]
          lastReviewedAt := summary.reviewedAt } := by
  unfold buildCandidateSuggestion
  cases hfind : summary.extractedFields.find?
      fun field => field.fieldName == reviewEdit.fieldName with
  | none => exact .inl ⟨_, rfl, by decide, by decide⟩
  | some target =>
    dsimp only
    split
    next => exact .inl ⟨_, rfl, by decide, by decide⟩
    next hgrounding =>
      split
      next => exact .inl ⟨_, rfl, by decide, by decide⟩
      next hoverride =>
        split
        next => exact .inl ⟨_, rfl, by decide, by decide⟩
        next hmatches =>
          simp only [Bool.or_eq_true, Bool.not_eq_true', beq_iff_eq, not_or, Bool.not_eq_false]
            at hgrounding hmatches
          rw [Bool.not_eq_true] at hoverride
          -- the edited field passes every check of the loop, so the last two reasons are dead
          obtain ⟨hgrounded, hblank⟩ := hgrounding
          have hlies := liesIn_own hgrounded hmatches
          generalize buildContextWindow documentText (target.charStart.getD 0)
            (target.charEnd.getD 0) = window at hlies ⊢
          have hextraction : contextualExtraction lib fieldDefinitions documentText window target =
              some (feedbackExtraction lib fieldDefinitions target (pyStrip target.sourceText)) :=
            contextualExtraction_eq_some_iff.mpr
              ⟨hgrounded, hlies, hmatches, hblank, hoverride, rfl⟩
          have hloop : target ∈ contextFields summary :=
            List.mem_mergeSort.mpr (List.mem_of_find?_eq_some hfind)
          have hexample : pyStrip (pySlice documentText window.1 window.2) ≠ "" := by
            intro hempty
            have hinfix := sourceText_in_window hlies hmatches
            rw [hempty, String.toList_empty, List.infix_nil, String.toList_eq_nil_iff] at hinfix
            exact hblank hinfix
          have hincluded : ((contextFields summary).any fun field =>
              (contextualExtraction lib fieldDefinitions documentText window field).isSome &&
                field.fieldName == target.fieldName) = true :=
            List.any_eq_true.mpr ⟨target, hloop, by simp [hextraction]⟩
          have hextractions : ((contextFields summary).filterMap
              (contextualExtraction lib fieldDefinitions documentText window)).isEmpty = false :=
            List.isEmpty_eq_false_iff_exists_mem.mpr
              ⟨_, List.mem_filterMap.mpr ⟨target, hloop, hextraction⟩⟩
          refine .inr ⟨target, window, rfl, Option.isSome_of_eq_some hextraction, ?_⟩
          rw [if_neg hexample, hincluded, hextractions]
          rfl

/-- **Suggestions are self-consistent**, and an edit is never skipped for an empty context
or for want of extractions. -/
theorem suggestions_self_consistent (lib : FeedbackLibrary)
    (fieldDefinitions : String → Option ExtractionFieldDefinition)
    (suggestionKey : String → List LangExtractFeedbackSuggestionExtraction → String)
    (templateVersionId resultId : ℕ) (summary : ExtractionValidationSummary)
    (documentText : String) (reviewEdit : ReviewEdit) :
    (∀ suggestion, buildCandidateSuggestion lib fieldDefinitions suggestionKey templateVersionId
        resultId summary documentText reviewEdit = .ok suggestion →
      suggestion.SelfConsistent lib fieldDefinitions summary reviewEdit) ∧
    buildCandidateSuggestion lib fieldDefinitions suggestionKey templateVersionId resultId summary
      documentText reviewEdit ≠ .error .emptyContext ∧
    buildCandidateSuggestion lib fieldDefinitions suggestionKey templateVersionId resultId summary
      documentText reviewEdit ≠ .error .noContextualExtractions := by
  rcases buildCandidateSuggestion_cases with ⟨reason, hbuild, hcontext, hcontextual⟩ |
    ⟨target, window, hfind, hextraction, hbuild⟩
  · rw [hbuild]
    refine ⟨nofun, fun h => hcontext (Except.error.inj h), fun h => ?_⟩
    exact hcontextual (Except.error.inj h)
  · rw [hbuild]
    refine ⟨fun suggestion h => ?_, nofun, nofun⟩
    obtain rfl := Except.ok.inj h
    have hfields := filterMap_contextualExtraction lib fieldDefinitions documentText window
      (contextFields summary)
    -- every field that has become an extraction is grounded, so the sort has spans to compare
    have hgrounded : ∀ field ∈ (contextFields summary).filter fun field =>
        (contextualExtraction lib fieldDefinitions documentText window field).isSome,
        field.isGrounded = true := by
      intro field hfield
      obtain ⟨extraction, hextraction⟩ := Option.isSome_iff_exists.mp (List.mem_filter.mp hfield).2
      exact (contextualExtraction_eq_some_iff.mp hextraction).1
    refine ⟨?_, ?_, _, hfields, ?_, ?_, ?_, target, ?_, hfind⟩
    · intro extraction hextraction
      obtain ⟨field, -, hfield⟩ := List.mem_filterMap.mp hextraction
      obtain ⟨-, -, -, hblank, -, rfl⟩ := contextualExtraction_eq_some_iff.mp hfield
      show pyStrip (pyStrip field.sourceText) ≠ ""
      rwa [pyStrip_idem]
    · intro extraction hextraction
      obtain ⟨field, -, hfield⟩ := List.mem_filterMap.mp hextraction
      obtain ⟨-, hlies, hmatches, -, -, rfl⟩ := contextualExtraction_eq_some_iff.mp hfield
      exact sourceText_in_window hlies hmatches
    · exact List.filter_sublist.subperm.trans (List.mergeSort_perm _ _).subperm
    · exact hgrounded
    · have hsorted := (contextFields_pairwise summary).filter fun field =>
        (contextualExtraction lib fieldDefinitions documentText window field).isSome
      refine hsorted.imp_of_mem fun {f g} hf hg hle => ?_
      obtain ⟨start, hf, -⟩ := isGrounded_iff.mp (hgrounded f hf)
      obtain ⟨start', hg, -⟩ := isGrounded_iff.mp (hgrounded g hg)
      exact ⟨start, hf, start', hg, hle start hf start' hg⟩
    · exact List.mem_filter.mpr
        ⟨List.mem_mergeSort.mpr (List.mem_of_find?_eq_some hfind), hextraction⟩

end Suggestions

/-! ### Two fields of an invoice -/

/-- A summary with a vendor and a total. -/
def invoiceSummary : ExtractionValidationSummary where
  documentId := "1"
  documentType := "invoice"
  templateName := "Invoice"
  templateVersion := "1.0.0"
  llmProvider := {}
  extractionStatus := "completed"
  extractedFields :=
    [{ fieldName := "vendor", label := "Vendor", dataType := .text, sourceText := "ACME",
       charStart := some 0, charEnd := some 4 },
     { fieldName := "total", label := "Total", dataType := .text, sourceText := "12.00 ",
       charStart := some 10, charEnd := some 16 }]

/-- The edit of the total. -/
def invoiceEdit : ReviewEdit where
  resultId := 1
  fieldName := "total"
  previousValue := .none
  newValue := .none

/-- Both fields of an invoice stand in the suggestion for its total, in the order of the text. -/
theorem invoice_suggested :
    ∃ suggestion, buildCandidateSuggestion wholeLibrary (fun _ => none) (fun text _ => text) 1 1
        invoiceSummary "ACME owes 12.00 now" invoiceEdit = .ok suggestion ∧
      suggestion.extractions.map (·.extractionText) = ["ACME", "12.00"] ∧
      suggestion.SelfConsistent wholeLibrary (fun _ => none) invoiceSummary invoiceEdit := by
  have hconsistent := (suggestions_self_consistent wholeLibrary (fun _ => none)
    (fun text _ => text) 1 1 invoiceSummary "ACME owes 12.00 now" invoiceEdit).1
  have hfields : contextFields invoiceSummary = invoiceSummary.extractedFields :=
    List.mergeSort_of_pairwise (by decide)
  have htexts : (buildCandidateSuggestion wholeLibrary (fun _ => none) (fun text _ => text) 1 1
      invoiceSummary "ACME owes 12.00 now" invoiceEdit).toOption.map
        (fun suggestion => suggestion.extractions.map (·.extractionText)) =
      some ["ACME", "12.00"] := by
    unfold buildCandidateSuggestion
    rw [hfields]
    decide +kernel
  cases hbuild : buildCandidateSuggestion wholeLibrary (fun _ => none) (fun text _ => text) 1 1
      invoiceSummary "ACME owes 12.00 now" invoiceEdit with
  | error reason =>
    rw [hbuild] at htexts
    cases htexts
  | ok suggestion =>
    rw [hbuild] at htexts
    exact ⟨suggestion, rfl, Option.some.inj htexts, hconsistent suggestion hbuild⟩

end ExtractFlow
