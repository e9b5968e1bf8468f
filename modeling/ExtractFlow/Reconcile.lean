import ExtractFlow.FieldValidation

/-!
# Reconciliation

`reconcile_extracted_fields` (`shared/extraction_core/dry_run.py`): one result
for each field definition, the best scored of the provider's candidates or a
placeholder, validated, and flagged for several candidates, for missing evidence
and for a low confidence.

## Main definitions

* `ExtractionScore`, `bestCandidate` — `max` by `score_extraction_result`.
* `reconcileField`, `reconcileExtractedFields`.

## Main results

* `bestCandidate_mem` — the best candidate is one of them.
* `reconcileExtractedFields_names` — the results are those of the definitions, in order.
-/

namespace ExtractFlow

/-! ### Scores -/

/-- The tuple of `score_extraction_result`: how much evidence there is, the confidence, and the
length of the text that is cited. -/
structure ExtractionScore where
  evidence : ℕ
  confidence : PyFloat
  sourceLength : ℕ

/-- `score_extraction_result`. -/
def scoreExtractionResult (result : ExtractionFieldResult) : ExtractionScore where
  evidence := (if result.normalizedValue.isNone then 0 else 1) +
    if result.sourceText = "" then 0 else 1
  confidence := result.confidenceScore
  sourceLength := result.sourceText.length

/-- Python's `>` on the tuples: decided at the first place where they differ. -/
def ExtractionScore.gt (a b : ExtractionScore) : Bool :=
  if a.evidence ≠ b.evidence then b.evidence < a.evidence
  else if !a.confidence.eq b.confidence then b.confidence.lt a.confidence
  else b.sourceLength < a.sourceLength

/-- `max(candidates, key=score_extraction_result)` of a list that is not empty:
the first of the candidates no other is above. -/
def bestCandidate (first : ExtractionFieldResult) (rest : List ExtractionFieldResult) :
    ExtractionFieldResult :=
  rest.foldl
    (fun best candidate =>
      if (scoreExtractionResult candidate).gt (scoreExtractionResult best) then candidate else best)
    first

/-! ### One field -/

/-- `build_missing_field_result`. -/
def buildMissingFieldResult (definition : ExtractionFieldDefinition) : ExtractionFieldResult where
  fieldName := definition.name
  label := definition.label
  dataType := definition.type
  extractionNotes := "Provider response did not include this schema field."
  requiresReview := true

/-- The result a field starts from. -/
def selectCandidate (definition : ExtractionFieldDefinition)
    (candidates : List ExtractionFieldResult) : ExtractionFieldResult :=
  match candidates with
  | [] => buildMissingFieldResult definition
  | [candidate] => candidate
  | first :: rest =>
      let best := bestCandidate first rest
      let count := candidates.length
      { best with
        requiresReview := true
        extractionNotes := appendNote best.extractionNotes <|
          s!"Selected highest-confidence match from {count} chunk candidates." }

/-- The check of the citation. -/
def requireCitation (definition : ExtractionFieldDefinition) (result : ExtractionFieldResult) :
    ExtractionFieldResult :=
  if definition.citationRequired && result.sourceText == "" then
    { result with
      validationErrors := result.validationErrors ++ ["Citation evidence is required."]
      validationStatus := .invalid
      requiresReview := true }
  else result

/-- What a template asks of confidence scores: a threshold, and whether a score below it asks for
review. -/
structure ConfidenceRule where
  reviewRequiredOnLowConfidence : Bool
  minimumConfidenceThreshold : PyFloat

/-- The confidence rule of a template. -/
def ExtractionTemplate.confidenceRule (template : ExtractionTemplate) : ConfidenceRule where
  reviewRequiredOnLowConfidence := template.reviewRequiredOnLowConfidence
  minimumConfidenceThreshold := template.minimumConfidenceThreshold

/-- The check of the confidence. -/
def flagLowConfidence (lib : FieldLibrary) (rule : ConfidenceRule)
    (result : ExtractionFieldResult) : ExtractionFieldResult :=
  if rule.reviewRequiredOnLowConfidence && !result.normalizedValue.isNone &&
      result.confidenceScore.lt rule.minimumConfidenceThreshold then
    let score := lib.formatScore result.confidenceScore
    let threshold := lib.formatScore rule.minimumConfidenceThreshold
    { result with
      requiresReview := true
      extractionNotes := appendNote result.extractionNotes <|
        s!"Confidence {score} is below the {threshold} review threshold." }
  else result

/-- The turn of one definition: its candidates are those results that have its name, one of them is
selected, and the rules write on it. -/
def reconcileField (lib : FieldLibrary) (num : PyNumeric) (rule : ConfidenceRule)
    (providerResults : List ExtractionFieldResult) (definition : ExtractionFieldDefinition) :
    Except PyErr ExtractionFieldResult := do
  let candidates := providerResults.filter fun r => r.fieldName == definition.name
  let result ← validateExtractedField lib num definition (selectCandidate definition candidates)
  return flagLowConfidence lib rule (requireCitation definition result)

/-! ### All fields -/

/-- The notes about results no definition asked for. -/
def unexpectedFieldNotes (definitions : List ExtractionFieldDefinition)
    (providerResults : List ExtractionFieldResult) : List String :=
  (providerResults.filter fun r =>
      r.fieldName ∉ definitions.map ExtractionFieldDefinition.name).map fun r =>
    let name := r.fieldName
    s!"Provider returned unexpected field '{name}'."

/-- `reconcile_extracted_fields`: a result for each definition, and a note about each result that no
definition asks for. -/
def reconcileExtractedFields (lib : FieldLibrary) (num : PyNumeric) (rule : ConfidenceRule)
    (definitions : List ExtractionFieldDefinition)
    (providerResults : List ExtractionFieldResult) :
    Except PyErr (List ExtractionFieldResult × List String) := do
  let reconciled ← definitions.mapM (reconcileField lib num rule providerResults)
  return (reconciled, unexpectedFieldNotes definitions providerResults)

/-! ### Names -/

/-- **The best candidate is one of them**, so nothing is invented for a field that
has candidates. -/
theorem bestCandidate_mem : ∀ {rest : List ExtractionFieldResult} {first : ExtractionFieldResult},
    bestCandidate first rest ∈ first :: rest := by
  intro rest
  induction rest with
  | nil => intro first; exact List.mem_cons_self ..
  | cons candidate rest ih =>
    intro first
    have hmem : bestCandidate first (candidate :: rest) ∈
        (if (scoreExtractionResult candidate).gt (scoreExtractionResult first) then candidate
          else first) :: rest := ih
    rcases List.mem_cons.mp hmem with hbest | hrest
    · rw [hbest]
      split <;> simp
    · exact List.mem_cons_of_mem _ (List.mem_cons_of_mem _ hrest)

theorem selectCandidate_fieldName {definition : ExtractionFieldDefinition}
    {candidates : List ExtractionFieldResult}
    (h : ∀ r ∈ candidates, r.fieldName = definition.name) :
    (selectCandidate definition candidates).fieldName = definition.name := by
  unfold selectCandidate
  split
  · rfl
  · exact h _ (List.mem_cons_self ..)
  · next first rest _ => exact h (bestCandidate first rest) bestCandidate_mem

theorem reconcileField_name {lib : FieldLibrary} {num : PyNumeric} {rule : ConfidenceRule}
    {providerResults : List ExtractionFieldResult} {definition : ExtractionFieldDefinition}
    {result : ExtractionFieldResult}
    (h : reconcileField lib num rule providerResults definition = .ok result) :
    result.fieldName = definition.name := by
  unfold reconcileField at h
  obtain ⟨validated, hvalidated, h⟩ := Failing.bind_ok.mp h
  obtain rfl := Except.ok.inj h
  have hname : validated.fieldName = definition.name := by
    rw [(validateExtractedField_spec hvalidated).1]
    exact selectCandidate_fieldName fun r hr => by simpa using (List.mem_filter.mp hr).2
  have hcitation : (requireCitation definition validated).fieldName = validated.fieldName := by
    unfold requireCitation
    split <;> rfl
  have hconfidence : (flagLowConfidence lib rule
      (requireCitation definition validated)).fieldName =
        (requireCitation definition validated).fieldName := by
    unfold flagLowConfidence
    split <;> rfl
  rw [hconfidence, hcitation, hname]

/-- **The results are those of the definitions, in order**: no field is missing and none is there
twice. -/
theorem reconcileExtractedFields_names {lib : FieldLibrary} {num : PyNumeric}
    {rule : ConfidenceRule} {definitions : List ExtractionFieldDefinition}
    {providerResults reconciled : List ExtractionFieldResult} {notes : List String}
    (h : reconcileExtractedFields lib num rule definitions providerResults =
      .ok (reconciled, notes)) :
    reconciled.map ExtractionFieldResult.fieldName =
      definitions.map ExtractionFieldDefinition.name := by
  unfold reconcileExtractedFields at h
  obtain ⟨fields, hfields, h⟩ := Failing.bind_ok.mp h
  obtain ⟨rfl, -⟩ := Prod.mk.inj (Except.ok.inj h)
  exact Failing.map_of_mapM (fun _ _ hturn => reconcileField_name hturn) hfields

end ExtractFlow
