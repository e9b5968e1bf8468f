import ExtractFlow.FeedbackSuggestions
import ExtractFlow.Lib.Gathered
import ExtractFlow.Lib.Keyed
import ExtractFlow.StorageReferences
import ExtractFlow.Tenancy

/-!
# The account of the feedback suggestions

`list_langextract_feedback_suggestions` (`backend/app/services/langextract_feedback.py`).
The edits of a template version's results become suggestions; those with the same key are
merged, some are dismissed, and every edit without a suggestion is counted under the
reason it was skipped for.

An edit belongs to one result, and a result comes up once in the join.  So the loop meets
every edit once, and either skips it or lets it count for one suggestion: the numbers of
the diagnostics add up.  The database may return the rows of both queries in any order.

## Main definitions

* `FeedbackRow`, `Database.feedbackResults`, `Database.feedbackEdits` — the rows of the queries.
* `feedbackTally` — the loop over results and edits.
* `listLangextractFeedbackSuggestions` — the response.
* `FeedbackAccounts` — what the numbers promise.

## Main results

* `FeedbackTally.total_addEdit`, `total_addRow` — every edit is counted once.
* `grouped_feedbackTally` — the suggestions are gathered by key from the edits that have one.
* `feedback_accounts` — the numbers add up.
-/

namespace ExtractFlow

open Gathered

/-! ### The queries -/

/-- A row of the join of results, jobs and documents, as the first query returns it. -/
structure FeedbackRow where
  resultId : ℕ
  result : ExtractionResult
  documentId : ℕ
  document : Document
  deriving Repr

/-- A result joined with its job and its document. -/
def Database.feedbackRow (db : Database) (versionId : ℕ) (version : TemplateVersion)
    (r : ℕ × ExtractionResult) : Option FeedbackRow :=
  (findOwned version.tenantId db.extractionJobs r.2.jobId).bind fun job =>
    if job.templateVersionId = versionId then
      (findOwned version.tenantId db.documents job.documentId).map fun document =>
        ⟨r.1, r.2, job.documentId, document⟩
    else none

/-- The results of a version, with their documents, in the order of the table. -/
def Database.feedbackResults (db : Database) (versionId : ℕ) (version : TemplateVersion) :
    List FeedbackRow :=
  (allOwned version.tenantId db.extractionResults).filterMap (db.feedbackRow versionId version)

/-- The edits of the results, which the second query asks for by their keys. -/
def Database.feedbackEdits (db : Database) (version : TemplateVersion) (resultIds : List ℕ) :
    List (ℕ × ReviewEdit) :=
  allOwned version.tenantId db.reviewEdits fun e => e.resultId ∈ resultIds

/-- `_get_dismissed_suggestion_keys`: the set of the keys. -/
def Database.getDismissedSuggestionKeys (db : Database) (tenantId : String)
    (templateVersionId : ℕ) (suggestionKeys : List String) : List String :=
  if suggestionKeys.isEmpty then []
  else ((allOwned tenantId db.feedbackDecisions fun d =>
    d.templateVersionId == templateVersionId && d.dismissed &&
      suggestionKeys.contains d.suggestionKey).map fun row => row.2.suggestionKey).dedup

/-! ### The text of a document -/

/-- What the suggestions are built with: the library, the files the texts are read from, and the
hash that makes the keys. -/
structure FeedbackEnvironment where
  lib : FeedbackLibrary
  /-- `_build_suggestion_key`. -/
  suggestionKey : String → List LangExtractFeedbackSuggestionExtraction → String
  machine : Machine
  /-- How many symbolic links a path may follow. -/
  fuel : ℕ
  dataDir : List Char
  /-- The text of the file at a real path, if it is there and is UTF-8. -/
  textAt : List RealPath.Name → Option String
  /-- The content type of a document. -/
  contentType : ℕ → String

/-- `_read_document_text`. -/
def FeedbackEnvironment.readDocumentText (env : FeedbackEnvironment) (documentId : ℕ)
    (document : Document) : Option String :=
  let candidates := (document.parsedTextPath.filter (· != "")).toList ++
    if document.storedPath ≠ "" ∧ "text".toList <:+: (env.contentType documentId).toList then
      [document.storedPath]
    else []
  candidates.findSome? fun candidate =>
    (resolveStoragePath env.machine env.fuel candidate env.dataDir).bind fun path =>
      readManagedDocumentText (env.textAt path)

/-! ### The loop -/

/-- What the loop keeps: the suggestions by key, and the counter of the skipped edits. -/
structure FeedbackTally where
  grouped : List LangExtractFeedbackSuggestion := []
  skipCounts : SkipReason → ℕ := fun _ => 0

/-- `skip_counts[reason] += n`. -/
def FeedbackTally.skip (tally : FeedbackTally) (reason : SkipReason) (n : ℕ) : FeedbackTally :=
  { tally with
    skipCounts := fun r => if r = reason then tally.skipCounts r + n else tally.skipCounts r }

/-- The later of two review times. -/
def laterReview (existing candidate : Option UtcTime) : Option UtcTime :=
  match candidate, existing with
  | none, _ => existing
  | some time, none => some time
  | some time, some latest => if time ≤ latest then some latest else some time

/-- A suggestion and one more edit with its key. -/
def LangExtractFeedbackSuggestion.absorb (existing : LangExtractFeedbackSuggestion)
    (resultId : ℕ) (fieldName : String) (candidate : LangExtractFeedbackSuggestion) :
    LangExtractFeedbackSuggestion :=
  { existing with
    occurrenceCount := existing.occurrenceCount + 1
    sourceResultIds :=
      if resultId ∈ existing.sourceResultIds then existing.sourceResultIds
      else existing.sourceResultIds ++ [resultId]
    sourceFieldNames :=
      if fieldName ∈ existing.sourceFieldNames then existing.sourceFieldNames
      else existing.sourceFieldNames ++ [fieldName]
    lastReviewedAt := laterReview existing.lastReviewedAt candidate.lastReviewedAt }

/-- An edit with its result, and the suggestion that was made of it. -/
structure ReviewedCandidate where
  row : FeedbackRow
  edit : ReviewEdit
  candidate : LangExtractFeedbackSuggestion

/-- The dictionary `grouped`. -/
def suggestionGatherer : Gatherer ReviewedCandidate LangExtractFeedbackSuggestion String where
  key c := c.candidate.key
  groupKey s := s.key
  start c := c.candidate
  absorb s c := s.absorb c.row.resultId c.edit.fieldName c.candidate
  groupKey_start _ := rfl
  groupKey_absorb _ _ := rfl

/-- `field_definitions.get(name)`. -/
def ExtractionTemplate.fieldDefinition (template : ExtractionTemplate) (name : String) :
    Option ExtractionFieldDefinition :=
  template.extractedFields.reverse.find? fun field => field.name == name

/-- `edits_by_result[result.id]`. -/
def FeedbackRow.edits (row : FeedbackRow) (edits : List (ℕ × ReviewEdit)) : List (ℕ × ReviewEdit) :=
  edits.filter fun edit => edit.2.resultId == row.resultId

section Loop

variable (env : FeedbackEnvironment) (versionId : ℕ) (version : TemplateVersion)

/-- The suggestion of one edit. -/
def FeedbackRow.candidate (row : FeedbackRow) (documentText : String) (edit : ℕ × ReviewEdit) :
    Except SkipReason LangExtractFeedbackSuggestion :=
  buildCandidateSuggestion env.lib version.definition.fieldDefinition env.suggestionKey versionId
    row.resultId row.result.resultJson documentText edit.2

/-- The inner loop's body. -/
def FeedbackTally.addEdit (row : FeedbackRow) (documentText : String) (tally : FeedbackTally)
    (edit : ℕ × ReviewEdit) : FeedbackTally :=
  match row.candidate env versionId version documentText edit with
  | .error reason => tally.skip reason 1
  | .ok candidate =>
      { tally with grouped := suggestionGatherer.insert tally.grouped ⟨row, edit.2, candidate⟩ }

/-- The outer loop's body. -/
def FeedbackTally.addRow (edits : List (ℕ × ReviewEdit)) (tally : FeedbackTally)
    (row : FeedbackRow) : FeedbackTally :=
  if (row.edits edits).isEmpty then tally
  else
    let documentText := (env.readDocumentText row.documentId row.document).getD ""
    if documentText = "" then tally.skip .missingDocumentText (row.edits edits).length
    else (row.edits edits).foldl (addEdit env versionId version row documentText) tally

/-- The loop over the results, each with its document and its edits. -/
def feedbackTally (rows : List FeedbackRow) (edits : List (ℕ × ReviewEdit)) : FeedbackTally :=
  rows.foldl (FeedbackTally.addRow env versionId version edits) {}

end Loop

/-! ### The response -/

/-- `LangExtractFeedbackDiagnosticsResponse`: how many edits there were, and what became of them. -/
structure LangExtractFeedbackDiagnostics where
  reviewedResultCount : ℕ := 0
  reviewedEditCount : ℕ := 0
  generatedSuggestionCount : ℕ := 0
  dismissedSuggestionCount : ℕ := 0
  visibleSuggestionCount : ℕ := 0
  skippedMissingDocumentText : ℕ := 0
  skippedMissingTargetField : ℕ := 0
  skippedMissingGrounding : ℕ := 0
  skippedSpanOverride : ℕ := 0
  skippedSpanMismatch : ℕ := 0
  skippedEmptyContext : ℕ := 0
  skippedNoContextualExtractions : ℕ := 0
  deriving Repr

/-- `LangExtractFeedbackSuggestionListResponse`, the suggestions that were not dismissed with the
diagnostics. -/
structure LangExtractFeedbackSuggestionList where
  suggestions : List LangExtractFeedbackSuggestion := []
  diagnostics : LangExtractFeedbackDiagnostics := {}
  deriving Repr

/-- `isoformat()` of a UTC time. -/
def isoformatUtc (time : UtcTime) : String :=
  String.ofList (Decimal.pad 4 time.year ++ '-' :: Decimal.pad 2 time.month ++
    '-' :: Decimal.pad 2 time.day ++ 'T' :: Decimal.pad 2 time.hour ++
    ':' :: Decimal.pad 2 time.minute ++ ':' :: Decimal.pad 2 time.second ++
    (if time.microsecond = 0 then [] else '.' :: Decimal.pad 6 time.microsecond) ++
    "+00:00".toList)

/-- The text of the last review the suggestions are sorted by. -/
def LangExtractFeedbackSuggestion.reviewText (s : LangExtractFeedbackSuggestion) : String :=
  (s.lastReviewedAt.map isoformatUtc).getD ""

/-- The order of the response: the most frequent first, then by the last review and the key. -/
def LangExtractFeedbackSuggestion.comesBefore (s t : LangExtractFeedbackSuggestion) : Bool :=
  decide (t.occurrenceCount < s.occurrenceCount) ||
    (s.occurrenceCount == t.occurrenceCount &&
      (!decide (t.reviewText ≤ s.reviewText) ||
        (s.reviewText == t.reviewText && decide (s.key ≤ t.key))))

/-- `list_langextract_feedback_suggestions`, given the rows of its two queries in the order
the database returns them. -/
def listLangextractFeedbackSuggestions (env : FeedbackEnvironment) (db : Database)
    (versionId : ℕ) (version : TemplateVersion) (rows : List FeedbackRow)
    (edits : List (ℕ × ReviewEdit)) : LangExtractFeedbackSuggestionList :=
  let settings := version.definition.llmProviderSettings
  if !usesLangextractProvider settings.providerType settings.apiStyle then {}
  else if rows.isEmpty then {}
  else
    let tally := feedbackTally env versionId version rows edits
    let dismissedKeys := db.getDismissedSuggestionKeys version.tenantId versionId
      (tally.grouped.map (·.key))
    let suggestions := (tally.grouped.filter fun s => !dismissedKeys.contains s.key).mergeSort
      LangExtractFeedbackSuggestion.comesBefore
    { suggestions := suggestions
      diagnostics := {
        reviewedResultCount := rows.length
        reviewedEditCount := edits.length
        generatedSuggestionCount := tally.grouped.length
        dismissedSuggestionCount := dismissedKeys.length
        visibleSuggestionCount := suggestions.length
        skippedMissingDocumentText := tally.skipCounts .missingDocumentText
        skippedMissingTargetField := tally.skipCounts .missingTargetField
        skippedMissingGrounding := tally.skipCounts .missingGrounding
        skippedSpanOverride := tally.skipCounts .spanOverride
        skippedSpanMismatch := tally.skipCounts .spanMismatch
        skippedEmptyContext := tally.skipCounts .emptyContext
        skippedNoContextualExtractions := tally.skipCounts .noContextualExtractions } }

/-! ### What the numbers promise -/

/-- The sum of the counters. -/
def LangExtractFeedbackDiagnostics.skipped (d : LangExtractFeedbackDiagnostics) : ℕ :=
  d.skippedMissingDocumentText + d.skippedMissingTargetField + d.skippedMissingGrounding +
    d.skippedSpanOverride + d.skippedSpanMismatch + d.skippedEmptyContext +
    d.skippedNoContextualExtractions

/-- The edits of a result that have a suggestion. -/
def rowCandidates (env : FeedbackEnvironment) (versionId : ℕ) (version : TemplateVersion)
    (edits : List (ℕ × ReviewEdit)) (row : FeedbackRow) : List ReviewedCandidate :=
  let documentText := (env.readDocumentText row.documentId row.document).getD ""
  if documentText = "" then []
  else (row.edits edits).filterMap fun edit =>
    (row.candidate env versionId version documentText edit).toOption.map fun candidate =>
      ⟨row, edit.2, candidate⟩

/-- The edits merged into the suggestion of a key. -/
def mergedEdits (env : FeedbackEnvironment) (versionId : ℕ) (version : TemplateVersion)
    (rows : List FeedbackRow) (edits : List (ℕ × ReviewEdit)) (key : String) :
    List ReviewedCandidate :=
  (rows.flatMap (rowCandidates env versionId version edits)).filter fun c => c.candidate.key == key

/-- The latest of some review times, where no time is before every time. -/
structure IsLatest (latest : Option UtcTime) (times : List (Option UtcTime)) : Prop where
  mem : latest ∈ times
  le : ∀ time, some time ∈ times → ∃ last ∈ latest, time ≤ last

/-- **The account**: every edit is counted in one suggestion or under one reason, the generated
suggestions are the shown ones and the dismissed ones, and a suggestion names the edits that were
merged into it. -/
structure FeedbackAccounts (merged : String → List ReviewedCandidate)
    (generated : List LangExtractFeedbackSuggestion)
    (response : LangExtractFeedbackSuggestionList) : Prop where
  edits : response.diagnostics.reviewedEditCount =
    (generated.map (·.occurrenceCount)).sum + response.diagnostics.skipped
  keys : (generated.map (·.key)).Nodup
  generatedCount : response.diagnostics.generatedSuggestionCount = generated.length
  visible : response.suggestions.Subperm generated ∧
    response.diagnostics.visibleSuggestionCount = response.suggestions.length
  parts : response.diagnostics.generatedSuggestionCount =
    response.diagnostics.visibleSuggestionCount + response.diagnostics.dismissedSuggestionCount
  occurrences : ∀ s ∈ generated, s.occurrenceCount = (merged s.key).length
  results : ∀ s ∈ generated, s.sourceResultIds.Nodup
  latest : ∀ s ∈ generated,
    IsLatest s.lastReviewedAt ((merged s.key).map fun c => c.row.result.resultJson.reviewedAt)

/-! ### Review times -/

section Times

variable {latest time : Option UtcTime} {times : List (Option UtcTime)}

theorem laterReview_none : laterReview latest none = latest := by
  cases latest <;> rfl

/-- The later of the latest and one more time is the latest of all. -/
theorem IsLatest.laterReview (h : IsLatest latest times) (time : Option UtcTime) :
    IsLatest (laterReview latest time) (times ++ [time]) := by
  cases time with
  | none =>
    rw [laterReview_none]
    refine ⟨List.mem_append_left _ h.mem, fun t ht => h.le t ?_⟩
    simpa using ht
  | some time =>
    cases latest with
    | none =>
      refine ⟨by simp [ExtractFlow.laterReview], fun t ht => ⟨time, rfl, ?_⟩⟩
      rcases List.mem_append.mp ht with ht | ht
      · obtain ⟨_, hlast, -⟩ := h.le t ht
        cases hlast
      · obtain rfl : t = time := by simpa using ht
        exact UtcTime.le_refl t
    | some last =>
      unfold ExtractFlow.laterReview
      dsimp only
      -- Two times: the greater is kept, and the other is below it.
      split
      next hle =>
        refine ⟨List.mem_append_left _ h.mem, fun t ht => ?_⟩
        rcases List.mem_append.mp ht with ht | ht
        · exact h.le t ht
        · obtain rfl : t = time := by simpa using ht
          exact ⟨last, rfl, hle⟩
      next hlt =>
        refine ⟨by simp, fun t ht => ⟨time, rfl, ?_⟩⟩
        rcases List.mem_append.mp ht with ht | ht
        · obtain ⟨last', hlast, hle⟩ := h.le t ht
          obtain rfl : last = last' := Option.some.inj hlast
          exact Nat.le_of_lt (Nat.lt_of_le_of_lt hle (Nat.lt_of_not_le hlt))
        · obtain rfl : t = time := by simpa using ht
          exact UtcTime.le_refl t

end Times

/-! ### One edit and one result -/

section Steps

variable {env : FeedbackEnvironment} {versionId : ℕ} {version : TemplateVersion}
  {row : FeedbackRow} {documentText : String} {edit : ℕ × ReviewEdit}
  {edits : List (ℕ × ReviewEdit)} {tally : FeedbackTally}

/-- The number of edits counted so far. -/
def FeedbackTally.total (tally : FeedbackTally) : ℕ :=
  (tally.grouped.map (·.occurrenceCount)).sum + (tally.skipCounts .missingDocumentText +
    tally.skipCounts .missingTargetField + tally.skipCounts .missingGrounding +
    tally.skipCounts .spanOverride + tally.skipCounts .spanMismatch +
    tally.skipCounts .emptyContext + tally.skipCounts .noContextualExtractions)

theorem FeedbackTally.total_skip (reason : SkipReason) (n : ℕ) :
    (tally.skip reason n).total = tally.total + n := by
  unfold total skip
  cases reason <;> simp <;> omega

/-- A new suggestion stands for one edit, and has the time of its result. -/
theorem FeedbackRow.candidate_ok {candidate : LangExtractFeedbackSuggestion}
    (h : row.candidate env versionId version documentText edit = .ok candidate) :
    candidate.occurrenceCount = 1 ∧ candidate.sourceResultIds = [row.resultId] ∧
      candidate.lastReviewedAt = row.result.resultJson.reviewedAt := by
  unfold FeedbackRow.candidate at h
  rcases @buildCandidateSuggestion_cases env.lib version.definition.fieldDefinition
      env.suggestionKey versionId row.resultId row.result.resultJson documentText edit.2 with
    ⟨reason, hbuild, -⟩ | ⟨target, window, -, -, hbuild⟩
  · rw [hbuild] at h
    cases h
  · rw [hbuild] at h
    obtain rfl := Except.ok.inj h
    exact ⟨rfl, rfl, rfl⟩

/-- **Every edit is counted once**: for a reason, or for a suggestion. -/
theorem FeedbackTally.total_addEdit :
    (addEdit env versionId version row documentText tally edit).total = tally.total + 1 := by
  unfold addEdit
  cases hcandidate : row.candidate env versionId version documentText edit with
  | error reason => exact total_skip reason 1
  | ok candidate =>
    have hsum : ((suggestionGatherer.insert tally.grouped ⟨row, edit.2, candidate⟩).map
        (·.occurrenceCount)).sum = (tally.grouped.map (·.occurrenceCount)).sum + 1 :=
      suggestionGatherer.sum_insert (FeedbackRow.candidate_ok hcandidate).1 (fun _ => rfl) _
    unfold total
    dsimp only
    rw [hsum]
    omega

theorem FeedbackTally.total_foldl_addEdit : ∀ (edits : List (ℕ × ReviewEdit))
    (tally : FeedbackTally),
    (edits.foldl (addEdit env versionId version row documentText) tally).total =
      tally.total + edits.length := by
  intro edits
  induction edits with
  | nil => exact fun _ => rfl
  | cons edit edits ih =>
    intro tally
    rw [List.foldl_cons, ih, total_addEdit, List.length_cons]
    omega

/-- The edits of a result are counted once each, whether they make a suggestion, join one or are
skipped. -/
theorem FeedbackTally.total_addRow :
    (addRow env versionId version edits tally row).total =
      tally.total + (row.edits edits).length := by
  unfold addRow
  split
  next hnone => rw [List.isEmpty_iff.mp hnone, List.length_nil, Nat.add_zero]
  next =>
    dsimp only
    split
    next => exact total_skip _ _
    next => exact total_foldl_addEdit _ _

/-- The suggestion of an edit goes to the group of its key. -/
theorem FeedbackTally.grouped_addEdit :
    (addEdit env versionId version row documentText tally edit).grouped =
      (((row.candidate env versionId version documentText edit).toOption.map fun candidate =>
        (⟨row, edit.2, candidate⟩ : ReviewedCandidate)).toList).foldl suggestionGatherer.insert
          tally.grouped := by
  unfold addEdit
  cases row.candidate env versionId version documentText edit with
  | error reason => rfl
  | ok candidate => rfl

theorem FeedbackTally.grouped_foldl_addEdit : ∀ (edits : List (ℕ × ReviewEdit))
    (tally : FeedbackTally),
    (edits.foldl (addEdit env versionId version row documentText) tally).grouped =
      (edits.filterMap fun edit =>
        (row.candidate env versionId version documentText edit).toOption.map fun candidate =>
          (⟨row, edit.2, candidate⟩ : ReviewedCandidate)).foldl suggestionGatherer.insert
            tally.grouped := by
  intro edits
  induction edits with
  | nil => exact fun _ => rfl
  | cons edit edits ih =>
    intro tally
    rw [List.foldl_cons, ih, grouped_addEdit]
    cases hcandidate : (row.candidate env versionId version documentText edit).toOption with
    | none => rw [List.filterMap_cons_none (by rw [hcandidate]; rfl)]; rfl
    | some candidate => rw [List.filterMap_cons_some (by rw [hcandidate]; rfl)]; rfl

/-- The suggestions of a result go to the groups of their keys. -/
theorem FeedbackTally.grouped_addRow :
    (addRow env versionId version edits tally row).grouped =
      (rowCandidates env versionId version edits row).foldl suggestionGatherer.insert
        tally.grouped := by
  unfold addRow rowCandidates
  dsimp only
  split
  next hnone =>
    rw [List.isEmpty_iff.mp hnone, List.filterMap_nil, ite_self]
    rfl
  next =>
    split
    next => rfl
    next => exact grouped_foldl_addEdit _ _

end Steps

/-! ### The whole loop -/

section Loop

variable {env : FeedbackEnvironment} {versionId : ℕ} {version : TemplateVersion}
  {rows : List FeedbackRow} {edits : List (ℕ × ReviewEdit)}

theorem FeedbackTally.total_foldl_addRow : ∀ (rows : List FeedbackRow) (tally : FeedbackTally),
    (rows.foldl (addRow env versionId version edits) tally).total =
      tally.total + (rows.flatMap fun row => row.edits edits).length := by
  intro rows
  induction rows with
  | nil => exact fun _ => rfl
  | cons row rows ih =>
    intro tally
    rw [List.foldl_cons, ih, total_addRow, List.flatMap_cons, List.length_append]
    omega

theorem FeedbackTally.grouped_foldl_addRow : ∀ (rows : List FeedbackRow) (tally : FeedbackTally),
    (rows.foldl (addRow env versionId version edits) tally).grouped =
      (rows.flatMap (rowCandidates env versionId version edits)).foldl suggestionGatherer.insert
        tally.grouped := by
  intro rows
  induction rows with
  | nil => exact fun _ => rfl
  | cons row rows ih =>
    intro tally
    rw [List.foldl_cons, ih, grouped_addRow, List.flatMap_cons, List.foldl_append]

/-- **Every edit is counted once**, when the results are distinct and have all edits. -/
theorem total_feedbackTally (hrows : (rows.map (·.resultId)).Nodup)
    (hedits : ∀ edit ∈ edits, edit.2.resultId ∈ rows.map (·.resultId)) :
    (feedbackTally env versionId version rows edits).total = edits.length := by
  have hperm := perm_flatMap_filter hrows hedits
  rw [List.flatMap_map] at hperm
  unfold feedbackTally
  rw [FeedbackTally.total_foldl_addRow, ← hperm.length_eq]
  exact Nat.zero_add _

/-- **The suggestions are gathered by key** from the edits that have one. -/
theorem grouped_feedbackTally : (feedbackTally env versionId version rows edits).grouped =
    suggestionGatherer.gather (rows.flatMap (rowCandidates env versionId version edits)) :=
  FeedbackTally.grouped_foldl_addRow rows {}

end Loop

/-! ### One suggestion -/

section Suggestion

/-- A suggestion that stands for its edit alone, as it is before anything is merged into it. -/
structure ReviewedCandidate.Fresh (c : ReviewedCandidate) : Prop where
  occurrenceCount : c.candidate.occurrenceCount = 1
  sourceResultIds : c.candidate.sourceResultIds = [c.row.resultId]
  lastReviewedAt : c.candidate.lastReviewedAt = c.row.result.resultJson.reviewedAt

theorem fresh_of_mem_rowCandidates {env : FeedbackEnvironment} {versionId : ℕ}
    {version : TemplateVersion} {row : FeedbackRow} {edits : List (ℕ × ReviewEdit)}
    {c : ReviewedCandidate} (hc : c ∈ rowCandidates env versionId version edits row) :
    c.Fresh := by
  unfold rowCandidates at hc
  dsimp only at hc
  split at hc
  next => cases hc
  next =>
    obtain ⟨edit, -, hedit⟩ := List.mem_filterMap.mp hc
    obtain ⟨candidate, hcandidate, rfl⟩ := Option.map_eq_some_iff.mp hedit
    cases hbuild : row.candidate env versionId version _ edit with
    | error reason =>
      rw [hbuild] at hcandidate
      cases hcandidate
    | ok candidate' =>
      rw [hbuild] at hcandidate
      obtain rfl : candidate' = candidate := Option.some.inj hcandidate
      obtain ⟨hcount, hresults, hreviewed⟩ := FeedbackRow.candidate_ok hbuild
      exact ⟨hcount, hresults, hreviewed⟩

/-- **What edits make of a suggestion**: it counts them, names each of their results once,
and has the latest of their times. -/
theorem foldl_absorb_spec {first : ReviewedCandidate} (hfirst : first.Fresh) :
    ∀ {rest : List ReviewedCandidate}, (∀ c ∈ rest, c.Fresh) →
      (rest.foldl suggestionGatherer.absorb first.candidate).occurrenceCount =
          (first :: rest).length ∧
        (rest.foldl suggestionGatherer.absorb first.candidate).sourceResultIds.Nodup ∧
        IsLatest (rest.foldl suggestionGatherer.absorb first.candidate).lastReviewedAt
          ((first :: rest).map fun c => c.row.result.resultJson.reviewedAt) := by
  intro rest
  induction rest using List.reverseRecOn with
  | nil =>
    refine fun _ => ⟨hfirst.occurrenceCount, ?_, ?_⟩
    · rw [List.foldl_nil, hfirst.sourceResultIds]
      exact List.nodup_singleton _
    · rw [List.foldl_nil, hfirst.lastReviewedAt]
      refine ⟨List.mem_singleton_self _, fun time htime => ⟨time, ?_, UtcTime.le_refl time⟩⟩
      exact (List.mem_singleton.mp htime).symm
  | append_singleton rest c ih =>
    intro hrest
    obtain ⟨hcount, hnodup, hlatest⟩ := ih fun c hc => hrest c (List.mem_append_left _ hc)
    have hc : c.Fresh := hrest c (List.mem_append_right _ (List.mem_singleton_self c))
    rw [List.foldl_concat]
    -- One more edit: the count grows by one, a new result is named, the later time is kept.
    generalize rest.foldl suggestionGatherer.absorb first.candidate = s at *
    refine ⟨?_, ?_, ?_⟩
    · show s.occurrenceCount + 1 = _
      rw [hcount, ← List.cons_append, List.length_append]
      rfl
    · show (if c.row.resultId ∈ s.sourceResultIds then s.sourceResultIds
        else s.sourceResultIds ++ [c.row.resultId]).Nodup
      split
      next => exact hnodup
      next hnew =>
        rw [← List.concat_eq_append]
        exact hnodup.concat hnew
    · show IsLatest (laterReview s.lastReviewedAt c.candidate.lastReviewedAt) _
      rw [hc.lastReviewedAt, ← List.cons_append, List.map_append]
      exact hlatest.laterReview _

end Suggestion

/-! ### The account -/

section Account

variable {env : FeedbackEnvironment} {db : Database} {versionId : ℕ} {version : TemplateVersion}

theorem resultId_feedbackRow {r : ℕ × ExtractionResult} {row : FeedbackRow}
    (h : db.feedbackRow versionId version r = some row) : row.resultId = r.1 := by
  unfold Database.feedbackRow at h
  obtain ⟨job, -, h⟩ := Option.bind_eq_some_iff.mp h
  split at h
  next =>
    obtain ⟨document, -, rfl⟩ := Option.map_eq_some_iff.mp h
    rfl
  next => cases h

/-- A result comes up once. -/
theorem nodup_feedbackResults (db : Database) (versionId : ℕ) (version : TemplateVersion) :
    ((db.feedbackResults versionId version).map (·.resultId)).Nodup := by
  unfold Database.feedbackResults
  refine List.pairwise_map.mpr (List.pairwise_filterMap.mpr ?_)
  have hkeys := List.pairwise_map.mp db.extractionResults.nodup
  refine (hkeys.filter _).imp fun {r r'} hne row hrow row' hrow' hsame => hne ?_
  rw [← resultId_feedbackRow hrow, ← resultId_feedbackRow hrow', hsame]

theorem resultId_of_mem_feedbackEdits {ids : List ℕ} {edit : ℕ × ReviewEdit}
    (h : edit ∈ db.feedbackEdits version ids) : edit.2.resultId ∈ ids := by
  have hselected := (List.mem_filter.mp h).2
  rw [Bool.and_eq_true, decide_eq_true_eq] at hselected
  exact hselected.2

/-- The dismissed keys are distinct, and are keys asked for. -/
theorem getDismissedSuggestionKeys_spec (db : Database) (tenantId : String) (versionId : ℕ)
    (keys : List String) :
    (db.getDismissedSuggestionKeys tenantId versionId keys).Nodup ∧
      db.getDismissedSuggestionKeys tenantId versionId keys ⊆ keys := by
  unfold Database.getDismissedSuggestionKeys
  split
  next => exact ⟨List.nodup_nil, List.nil_subset _⟩
  next =>
    refine ⟨List.nodup_dedup _, fun key hkey => ?_⟩
    obtain ⟨row, hrow, rfl⟩ := List.mem_map.mp (List.mem_dedup.mp hkey)
    have hselected := (List.mem_filter.mp hrow).2
    rw [Bool.and_eq_true, Bool.and_eq_true] at hselected
    exact List.contains_iff_mem.mp hselected.2.2

/-- **The account adds up**, in whatever order the database returns the rows. -/
theorem feedback_accounts (env : FeedbackEnvironment) (db : Database) (versionId : ℕ)
    (version : TemplateVersion) (rows : List FeedbackRow) (edits : List (ℕ × ReviewEdit))
    (hlangextract : usesLangextractProvider version.definition.llmProviderSettings.providerType
      version.definition.llmProviderSettings.apiStyle = true)
    (hrows : rows.Perm (db.feedbackResults versionId version)) (hne : rows ≠ [])
    (hedits : edits.Perm (db.feedbackEdits version (rows.map (·.resultId)))) :
    FeedbackAccounts (mergedEdits env versionId version rows edits)
      (feedbackTally env versionId version rows edits).grouped
      (listLangextractFeedbackSuggestions env db versionId version rows edits) := by
  have htotal : (feedbackTally env versionId version rows edits).total = edits.length := by
    refine total_feedbackTally ?_ fun edit hedit => ?_
    · exact (hrows.map _).nodup_iff.mpr (nodup_feedbackResults db versionId version)
    · exact resultId_of_mem_feedbackEdits (hedits.subset hedit)
  have hkeys : ((feedbackTally env versionId version rows edits).grouped.map (·.key)).Nodup := by
    rw [grouped_feedbackTally]
    exact suggestionGatherer.nodup_gather _
  have hgroups : ∀ s ∈ (feedbackTally env versionId version rows edits).grouped,
      s.occurrenceCount = (mergedEdits env versionId version rows edits s.key).length ∧
        s.sourceResultIds.Nodup ∧
        IsLatest s.lastReviewedAt ((mergedEdits env versionId version rows edits s.key).map
          fun c => c.row.result.resultJson.reviewedAt) := by
    -- a suggestion is made of the edits with its key, in the order of the loop
    intro s hs
    rw [grouped_feedbackTally] at hs
    obtain ⟨first, rest, hmerged, hs⟩ := suggestionGatherer.eq_foldl_of_mem_gather hs
    have hmerged : mergedEdits env versionId version rows edits s.key = first :: rest := hmerged
    have hfresh : ∀ c ∈ first :: rest, c.Fresh := by
      intro c hc
      rw [← hmerged] at hc
      obtain ⟨row, -, hc⟩ := List.mem_flatMap.mp (List.mem_filter.mp hc).1
      exact fresh_of_mem_rowCandidates hc
    rw [hmerged, hs]
    exact foldl_absorb_spec (hfresh first (List.mem_cons_self ..))
      fun c hc => hfresh c (List.mem_cons_of_mem _ hc)
  obtain ⟨hdismissed, hsubset⟩ := getDismissedSuggestionKeys_spec db version.tenantId versionId
    ((feedbackTally env versionId version rows edits).grouped.map (·.key))
  have hparts := Keyed.length_filter_not_add hkeys hdismissed hsubset
  unfold listLangextractFeedbackSuggestions
  dsimp only
  rw [hlangextract, Bool.not_true, if_neg Bool.false_ne_true,
    if_neg (by rwa [List.isEmpty_iff])]
  refine ⟨htotal.symm, hkeys, rfl, ⟨?_, rfl⟩, ?_, fun s hs => (hgroups s hs).1,
    fun s hs => (hgroups s hs).2.1, fun s hs => (hgroups s hs).2.2⟩
  · exact (List.mergeSort_perm _ _).subperm.trans List.filter_sublist.subperm
  · rw [List.length_mergeSort]
    exact hparts.symm

end Account

/-! ### Edits of two invoices -/

/-- A version that extracts with LangExtract. -/
def langextractVersion : TemplateVersion where
  templateId := 1
  version := "1.0.0"
  definition :=
    { templateName := "Invoice", documentType := "invoice",
      llmProviderSettings := { providerType := "langextract", apiStyle := .langextract } }

/-- An invoice with two edits, one of them of a field that is not there. -/
def reviewedInvoice : Database where
  documents := Table.empty.insert { originalFilename := "a.txt", storedPath := "a.txt" }
  extractionJobs := Table.empty.insert { documentId := 1, templateVersionId := 1 }
  extractionResults := Table.empty.insert { jobId := 1, resultJson := invoiceSummary }
  reviewEdits := (Table.empty.insert invoiceEdit).insert { invoiceEdit with fieldName := "date" }

/-- A machine where every file is the invoice. -/
def invoiceEnvironment : FeedbackEnvironment where
  lib := wholeLibrary
  suggestionKey text _ := text
  machine := linkedMachine
  fuel := 1
  dataDir := "/data".toList
  textAt _ := some "ACME owes 12.00 now"
  contentType _ := "text/plain"

/-- The invoice and another with the same text, whose total is edited as well; the suggestion of
the two edits is dismissed. -/
def reviewedInvoices : Database :=
  { reviewedInvoice with
    documents := reviewedInvoice.documents.insert { originalFilename := "b.txt", storedPath := "a.txt" }
    extractionJobs :=
      reviewedInvoice.extractionJobs.insert { documentId := 2, templateVersionId := 1 }
    extractionResults :=
      reviewedInvoice.extractionResults.insert { jobId := 2, resultJson := invoiceSummary }
    reviewEdits := reviewedInvoice.reviewEdits.insert { invoiceEdit with resultId := 2 }
    feedbackDecisions :=
      Table.empty.insert { templateVersionId := 1, suggestionKey := "ACME owes 12.00 now" } }

/-- The rows of its queries. -/
def invoiceRows : List FeedbackRow := reviewedInvoices.feedbackResults 1 langextractVersion

def invoiceEdits : List (ℕ × ReviewEdit) :=
  reviewedInvoices.feedbackEdits langextractVersion (invoiceRows.map (·.resultId))

/-- The edit of the total has a suggestion; its key is the text here. -/
theorem invoice_candidate {row : FeedbackRow} (h : row.result.resultJson = invoiceSummary)
    (id resultId : ℕ) :
    ∃ candidate, row.candidate invoiceEnvironment 1 langextractVersion "ACME owes 12.00 now"
        (id, { invoiceEdit with resultId := resultId }) = .ok candidate ∧
      candidate.key = "ACME owes 12.00 now" := by
  have hfields : contextFields invoiceSummary = invoiceSummary.extractedFields :=
    List.mergeSort_of_pairwise (by decide)
  have hkey : (row.candidate invoiceEnvironment 1 langextractVersion "ACME owes 12.00 now"
      (id, { invoiceEdit with resultId := resultId })).toOption.map (·.key) =
        some "ACME owes 12.00 now" := by
    unfold FeedbackRow.candidate
    rw [h]
    unfold buildCandidateSuggestion
    rw [hfields]
    rfl
  cases hcandidate : row.candidate invoiceEnvironment 1 langextractVersion "ACME owes 12.00 now"
      (id, { invoiceEdit with resultId := resultId }) with
  | error reason =>
    rw [hcandidate] at hkey
    cases hkey
  | ok candidate =>
    rw [hcandidate] at hkey
    exact ⟨candidate, rfl, Option.some.inj hkey⟩

/-- Both edits of a total are merged, and the edit of no field is left out. -/
theorem invoice_merged :
    (mergedEdits invoiceEnvironment 1 langextractVersion invoiceRows invoiceEdits
      "ACME owes 12.00 now").length = 2 := by
  obtain ⟨row, row', hrows, hsummary, hsummary', htext, htext', hedits, hedits'⟩ :
      ∃ row row', invoiceRows = [row, row'] ∧ row.result.resultJson = invoiceSummary ∧
        row'.result.resultJson = invoiceSummary ∧
        invoiceEnvironment.readDocumentText row.documentId row.document =
          some "ACME owes 12.00 now" ∧
        invoiceEnvironment.readDocumentText row'.documentId row'.document =
          some "ACME owes 12.00 now" ∧
        row.edits invoiceEdits =
          [(1, invoiceEdit), (2, { invoiceEdit with fieldName := "date" })] ∧
        row'.edits invoiceEdits = [(3, { invoiceEdit with resultId := 2 })] :=
    ⟨_, _, rfl, rfl, rfl, by decide +kernel, by decide +kernel, rfl, rfl⟩
  -- Both edits of the total make a candidate, and the candidates have one key.
  obtain ⟨total, htotal, hkey⟩ := invoice_candidate hsummary 1 1
  obtain ⟨total', htotal', hkey'⟩ := invoice_candidate hsummary' 3 2
  obtain ⟨reason, hdate⟩ : ∃ reason, row.candidate invoiceEnvironment 1 langextractVersion
      "ACME owes 12.00 now" (2, { invoiceEdit with fieldName := "date" }) = .error reason := by
    unfold FeedbackRow.candidate
    rw [hsummary]
    exact ⟨_, rfl⟩
  have hrow : rowCandidates invoiceEnvironment 1 langextractVersion invoiceEdits row =
      [⟨row, invoiceEdit, total⟩] := by
    unfold rowCandidates
    rw [htext, hedits, Option.getD_some, if_neg (by decide)]
    have htotal : row.candidate invoiceEnvironment 1 langextractVersion "ACME owes 12.00 now"
        (1, invoiceEdit) = .ok total := htotal
    simp [htotal, hdate, Except.toOption]
  have hrow' : rowCandidates invoiceEnvironment 1 langextractVersion invoiceEdits row' =
      [⟨row', { invoiceEdit with resultId := 2 }, total'⟩] := by
    unfold rowCandidates
    rw [htext', hedits', Option.getD_some, if_neg (by decide)]
    simp [htotal', Except.toOption]
  unfold mergedEdits
  rw [hrows, List.flatMap_cons, List.flatMap_singleton, hrow, hrow']
  simp [hkey, hkey']

/-- The three edits are accounted for. -/
theorem invoice_accounts :
    invoiceRows.length = 2 ∧ invoiceEdits.length = 3 ∧
    FeedbackAccounts (mergedEdits invoiceEnvironment 1 langextractVersion invoiceRows invoiceEdits)
      (feedbackTally invoiceEnvironment 1 langextractVersion invoiceRows invoiceEdits).grouped
      (listLangextractFeedbackSuggestions invoiceEnvironment reviewedInvoices 1 langextractVersion
        invoiceRows invoiceEdits) ∧
    (mergedEdits invoiceEnvironment 1 langextractVersion invoiceRows invoiceEdits
      "ACME owes 12.00 now").length = 2 := by
  refine ⟨by decide, by decide, ?_, ?_⟩
  · exact feedback_accounts invoiceEnvironment reviewedInvoices 1 langextractVersion _ _
      (by decide) (.refl _) (List.isEmpty_eq_false_iff.mp (by decide)) (.refl _)
  · exact invoice_merged

end ExtractFlow
