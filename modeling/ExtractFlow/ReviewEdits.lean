import ExtractFlow.Entities
import ExtractFlow.Summary
import ExtractFlow.TemplateContract

/-!
# Review edits

`apply_review_edits` (`backend/app/services/result_service.py`): a threshold
approval, a bulk approval when the payload asks for nothing else, the single
edits with one `ReviewEdit` row each, the recalculation, and the new summary.

The request is cut in two at its database session: `reviewOutcome` computes the
new summary and the rows from the result it loaded, and `Database.commitReview`
writes them.  `result_json` is one column and is written whole.

## Main definitions

* `fieldIndex`, `setField` — the field a name stands for: the last of that name.
* `approveHighConfidence`, `approveAll`, `applyEdits`, `recalculate`.
* `reviewOutcome`, `Database.commitReview`, `applyReviewEdits`.

## Main results

* `fieldIndex_setField_self`, `fieldIndex_setField_ne` — an edit changes one field.
* `reviewOutcome_spec` — what a review that returns computed.
-/

namespace ExtractFlow

/-! ### Flags -/

/-- `recompute_fields_requiring_review`. -/
def recomputeFieldsRequiringReview (s : ExtractionValidationSummary) :
    ExtractionValidationSummary :=
  { s with fieldsRequiringReview := s.flaggedNames }

/-- Mark an extracted field reviewed. -/
def ExtractionFieldResult.approve (f : ExtractionFieldResult) : ExtractionFieldResult :=
  { f with validationStatus := .reviewed, requiresReview := false }

/-- Mark a calculated field reviewed. -/
def CalculatedFieldResult.approve (c : CalculatedFieldResult) : CalculatedFieldResult :=
  { c with validationStatus := .reviewed, requiresReview := false }

/-! ### The field of a name -/

/-- `field_index[name]`: the last field of that name, since a later one overwrites an earlier in the
index. -/
def fieldIndex : List ExtractionFieldResult → String → Option ExtractionFieldResult
  | [], _ => none
  | f :: fs, name =>
      (fieldIndex fs name).orElse fun _ => if f.fieldName = name then some f else none

/-- Change the last field of a name, which is the one the index refers to, and leave the others. -/
def setField : List ExtractionFieldResult → String →
    (ExtractionFieldResult → ExtractionFieldResult) → List ExtractionFieldResult
  | [], _, _ => []
  | f :: fs, name, u =>
      if (fieldIndex fs name).isSome then f :: setField fs name u
      else if f.fieldName = name then u f :: fs
      else f :: fs

/-! ### The steps of a review -/

/-- The approval of flagged fields at or above a confidence threshold; what is invalid stays
flagged. -/
def approveHighConfidence (threshold : PyFloat) (fields : List ExtractionFieldResult) :
    List ExtractionFieldResult :=
  fields.map fun f =>
    if !f.requiresReview || f.validationStatus == .invalid then f
    else if threshold.le f.confidenceScore then f.approve
    else f

/-- The bulk approval: every flagged field is approved, the extracted and the calculated ones. -/
def approveAll (s : ExtractionValidationSummary) : ExtractionValidationSummary :=
  { s with
    extractedFields := s.extractedFields.map fun f => if f.requiresReview then f.approve else f
    calculatedFields := s.calculatedFields.map fun c => if c.requiresReview then c.approve else c }

/-- What a payload approves before its edits. -/
def approvals (payload : ReviewEditPayload) (s : ExtractionValidationSummary) :
    ExtractionValidationSummary :=
  match payload.approveHighConfidenceMin with
  | some threshold =>
      { s with extractedFields := approveHighConfidence threshold s.extractedFields }
  | none => if payload.edits.isEmpty then approveAll s else s

/-- The field an edit leaves. -/
def ReviewFieldEdit.apply (edit : ReviewFieldEdit) (f : ExtractionFieldResult) :
    ExtractionFieldResult :=
  { f with
    normalizedValue := edit.normalizedValue
    extractedValue := if edit.extractedValue.isNone then f.extractedValue else edit.extractedValue
    validationStatus := .reviewed
    requiresReview := false }

/-- The row of an edit. -/
def ReviewFieldEdit.row (edit : ReviewFieldEdit) (tenant : String) (resultId : ℕ)
    (reviewer : String) (target : ExtractionFieldResult) : ReviewEdit where
  tenantId := tenant
  resultId := resultId
  reviewer := reviewer
  fieldName := edit.fieldName
  previousValue := target.normalizedValue
  newValue := edit.normalizedValue
  reason := edit.reason

/-- The loop over the edits: the fields and the rows it leaves. -/
def applyEdits (tenant : String) (resultId : ℕ) (reviewer : String) :
    List ReviewFieldEdit → List ExtractionFieldResult →
      Except PyErr (List ExtractionFieldResult × List ReviewEdit)
  | [], fields => .ok (fields, [])
  | edit :: edits, fields =>
      match fieldIndex fields edit.fieldName with
      | none => .error (.keyError edit.fieldName)
      | some target => do
          let (fields, rows) ← applyEdits tenant resultId reviewer edits
            (setField fields edit.fieldName edit.apply)
          return (fields, edit.row tenant resultId reviewer target :: rows)

/-- The template version of a result, through its job. -/
def Database.templateVersionOf (db : Database) (result : ExtractionResult) :
    Option TemplateVersion :=
  match db.extractionJobs.get result.jobId with
  | some job =>
      if job.tenantId = result.tenantId then
        (db.templateVersions.get job.templateVersionId).filter
          fun v => v.tenantId == result.tenantId
      else none
  | none => none

/-- The calculated fields after a recalculation: those it does not flag are
reviewed. -/
def markReviewed (fields : List CalculatedFieldResult) : List CalculatedFieldResult :=
  fields.map fun c => if c.requiresReview then c else { c with validationStatus := .reviewed }

/-- The recalculation of a review: the calculated fields anew, from the values as they are after the
edits; nothing without a template version. -/
def recalculate (rt : Runtime) (version : Option TemplateVersion)
    (s : ExtractionValidationSummary) : Except PyErr ExtractionValidationSummary :=
  match version with
  | none => .ok s
  | some version => do
      validateTemplate rt.engine rt.checkSchema version.definition
      let calculated ← evaluateCalculatedFields rt.engine rt.num
        version.definition.calculatedFields s.extractedFields
      return { s with calculatedFields := markReviewed calculated }

/-- The recalculation, when the payload asks for it. -/
def recalculateIfAsked (rt : Runtime) (payload : ReviewEditPayload)
    (version : Option TemplateVersion) (s : ExtractionValidationSummary) :
    Except PyErr ExtractionValidationSummary :=
  if payload.recalculate then recalculate rt version s else .ok s

/-! ### The request -/

/-- What a review computes from the result it loaded: the summary to store and
the rows to add. -/
def reviewOutcome (rt : Runtime) (db : Database) (resultId : ℕ) (result : ExtractionResult)
    (payload : ReviewEditPayload) (now : UtcTime) :
    Except PyErr (ExtractionValidationSummary × List ReviewEdit) := do
  let approved := approvals payload result.resultJson
  let (fields, rows) ← applyEdits result.tenantId resultId payload.reviewer payload.edits
    approved.extractedFields
  let edited := { approved with extractedFields := fields }
  let recalculated ← recalculateIfAsked rt payload (db.templateVersionOf result) edited
  let summary ← { recomputeFieldsRequiringReview recalculated with
    reviewedAt := some now }.modelDump
  return (summary, rows)

/-- The audit metadata of a review. -/
def reviewMetadata (db : Database) (resultId : ℕ) (result : ExtractionResult)
    (payload : ReviewEditPayload) : List (String × PyVal) :=
  let document := match db.extractionJobs.get result.jobId with
    | some job => if job.tenantId = result.tenantId then .int job.documentId else .none
    | none => PyVal.none
  [("result_id", .int resultId), ("job_id", .int result.jobId), ("document_id", document),
    ("field_names", .list (payload.edits.map fun e => .str e.fieldName)),
    ("edit_count", .int payload.edits.length)]

/-- The commit of a review: the whole result, a row for each edit, and the event, in one
transaction. -/
def Database.commitReview (db : Database) (resultId : ℕ) (result : ExtractionResult)
    (payload : ReviewEditPayload) (summary : ExtractionValidationSummary)
    (rows : List ReviewEdit) : Database :=
  { db with
    extractionResults := db.extractionResults.update resultId fun r =>
      { r with resultJson := summary, reviewStatus := .reviewed }
    reviewEdits := rows.foldl Table.insert db.reviewEdits
    auditEvents := db.auditEvents.insert
      { tenantId := result.tenantId, actor := payload.reviewer, action := "review.saved",
        objectType := "result", objectId := resultId,
        metadata := reviewMetadata db resultId result payload } }

/-- `apply_review_edits`: the database as the review leaves it, or the error that leaves it as it
was. -/
def applyReviewEdits (rt : Runtime) (db : Database) (resultId : ℕ) (result : ExtractionResult)
    (payload : ReviewEditPayload) (now : UtcTime) : Except PyErr Database := do
  let (summary, rows) ← reviewOutcome rt db resultId result payload now
  return db.commitReview resultId result payload summary rows

/-! ### One field at a time -/

section FieldIndex

variable {fields : List ExtractionFieldResult} {name name' : String}
  {u : ExtractionFieldResult → ExtractionFieldResult}

theorem fieldIndex_cons (f : ExtractionFieldResult) (fs : List ExtractionFieldResult)
    (name : String) :
    fieldIndex (f :: fs) name =
      (fieldIndex fs name).orElse fun _ => if f.fieldName = name then some f else none := rfl

/-- The field of a name carries it. -/
theorem fieldName_of_fieldIndex {f : ExtractionFieldResult} (h : fieldIndex fields name = some f) :
    f.fieldName = name := by
  induction fields with
  | nil => simp [fieldIndex] at h
  | cons g fs ih =>
    rw [fieldIndex_cons] at h
    cases hfs : fieldIndex fs name with
    | some f' =>
      rw [hfs] at h
      exact ih (hfs.trans h)
    | none =>
      rw [hfs] at h
      by_cases hg : g.fieldName = name
      · simp only [Option.orElse_none, if_pos hg, Option.some.injEq] at h
        exact h ▸ hg
      · simp [hg] at h

theorem fieldIndex_mem {f : ExtractionFieldResult} (h : fieldIndex fields name = some f) :
    f ∈ fields := by
  induction fields with
  | nil => simp [fieldIndex] at h
  | cons g fs ih =>
    rw [fieldIndex_cons] at h
    cases hfs : fieldIndex fs name with
    | some f' =>
      rw [hfs] at h
      exact List.mem_cons_of_mem _ (ih (hfs.trans h))
    | none =>
      rw [hfs] at h
      by_cases hg : g.fieldName = name
      · simp only [Option.orElse_none, if_pos hg, Option.some.injEq] at h
        exact h ▸ List.mem_cons_self ..
      · simp [hg] at h

/-- The field of the name that is changed is the changed one, if there is a field of that name. -/
theorem fieldIndex_setField_self (hu : ∀ f, (u f).fieldName = f.fieldName) :
    fieldIndex (setField fields name u) name = (fieldIndex fields name).map u := by
  induction fields with
  | nil => rfl
  | cons f fs ih =>
    rw [setField, fieldIndex_cons]
    cases hfs : fieldIndex fs name with
    | some g => simp [fieldIndex_cons, ih, hfs]
    | none =>
      by_cases hf : f.fieldName = name
      · simp [fieldIndex_cons, hfs, hf, hu]
      · simp [fieldIndex_cons, hfs, hf]

/-- The fields of all other names are what they were. -/
theorem fieldIndex_setField_ne (hu : ∀ f, (u f).fieldName = f.fieldName) (h : name' ≠ name) :
    fieldIndex (setField fields name u) name' = fieldIndex fields name' := by
  induction fields with
  | nil => rfl
  | cons f fs ih =>
    rw [setField]
    split
    · rw [fieldIndex_cons, fieldIndex_cons, ih]
    · split
      · next hf => simp [fieldIndex_cons, hu, hf, Ne.symm h]
      · rfl

/-- Changing a field adds and removes none. -/
theorem map_fieldName_setField (hu : ∀ f, (u f).fieldName = f.fieldName) :
    (setField fields name u).map ExtractionFieldResult.fieldName =
      fields.map ExtractionFieldResult.fieldName := by
  induction fields with
  | nil => rfl
  | cons f fs ih =>
    rw [setField]
    split
    · rw [List.map_cons, List.map_cons, ih]
    · split
      · rw [List.map_cons, List.map_cons, hu]
      · rfl

end FieldIndex

/-- A change of every field that keeps the names. -/
theorem fieldIndex_map {g : ExtractionFieldResult → ExtractionFieldResult}
    (hg : ∀ f, (g f).fieldName = f.fieldName) (fields : List ExtractionFieldResult)
    (name : String) : fieldIndex (fields.map g) name = (fieldIndex fields name).map g := by
  induction fields with
  | nil => rfl
  | cons f fs ih =>
    rw [List.map_cons, fieldIndex_cons, fieldIndex_cons, ih, hg]
    cases fieldIndex fs name <;> simp [apply_ite (Option.map g)]

/-- Of fields with distinct names, each is the field of its name. -/
theorem fieldIndex_of_mem {fields : List ExtractionFieldResult}
    (hnames : (fields.map ExtractionFieldResult.fieldName).Nodup) {f : ExtractionFieldResult}
    (hf : f ∈ fields) : fieldIndex fields f.fieldName = some f := by
  induction fields with
  | nil => cases hf
  | cons g fs ih =>
    obtain ⟨hnot, hrest⟩ := List.nodup_cons.mp hnames
    rw [fieldIndex_cons]
    rcases List.mem_cons.mp hf with rfl | hf
    · cases hfs : fieldIndex fs f.fieldName with
      | none => rw [Option.orElse_none, if_pos rfl]
      | some f' =>
        refine absurd ?_ hnot
        rw [← fieldName_of_fieldIndex hfs]
        exact List.mem_map_of_mem (fieldIndex_mem hfs)
    · rw [ih hrest hf, Option.orElse_some]

/-- An edit keeps the name of its field. -/
theorem fieldName_apply (edit : ReviewFieldEdit) (f : ExtractionFieldResult) :
    (edit.apply f).fieldName = f.fieldName := rfl

/-- One turn of the loop over the edits. -/
theorem applyEdits_cons {tenant reviewer : String} {resultId : ℕ} {edit : ReviewFieldEdit}
    {edits : List ReviewFieldEdit} {fields fields' : List ExtractionFieldResult}
    {rows : List ReviewEdit}
    (h : applyEdits tenant resultId reviewer (edit :: edits) fields = .ok (fields', rows)) :
    ∃ target rows', fieldIndex fields edit.fieldName = some target ∧
      applyEdits tenant resultId reviewer edits (setField fields edit.fieldName edit.apply) =
        .ok (fields', rows') ∧
      rows = edit.row tenant resultId reviewer target :: rows' := by
  rw [applyEdits] at h
  split at h
  · cases h
  · next target htarget =>
    obtain ⟨⟨fields'', rows'⟩, hrest, h⟩ := Failing.bind_ok.mp h
    obtain ⟨rfl, rfl⟩ : fields'' = fields' ∧
        edit.row tenant resultId reviewer target :: rows' = rows := by
      simpa [pure, Except.pure] using h
    exact ⟨target, rows', htarget, hrest, rfl⟩

/-- There is a row for every edit. -/
theorem applyEdits_rowNames {tenant reviewer : String} {resultId : ℕ}
    {edits : List ReviewFieldEdit} {fields fields' : List ExtractionFieldResult}
    {rows : List ReviewEdit}
    (h : applyEdits tenant resultId reviewer edits fields = .ok (fields', rows)) :
    rows.map ReviewEdit.fieldName = edits.map ReviewFieldEdit.fieldName := by
  induction edits generalizing fields rows with
  | nil =>
    obtain ⟨-, rfl⟩ := Prod.mk.inj (Except.ok.inj h)
    rfl
  | cons edit edits ih =>
    obtain ⟨target, rows', -, hrest, rfl⟩ := applyEdits_cons h
    rw [List.map_cons, List.map_cons, ih hrest]
    rfl

/-! ### Storing the fields -/

/-- The stored field of a name is the stored form of the field of that name. -/
theorem fieldIndex_modelDump {fields fields' : List ExtractionFieldResult}
    (h : List.Forall₂ (fun f f' => ExtractionFieldResult.modelDump f = .ok f') fields fields')
    (name : String) :
    (fieldIndex fields name = none ∧ fieldIndex fields' name = none) ∨
      ∃ f f', fieldIndex fields name = some f ∧ fieldIndex fields' name = some f' ∧
        f.modelDump = .ok f' := by
  induction h with
  | nil => exact Or.inl ⟨rfl, rfl⟩
  | @cons f f' fs fs' hf _ ih =>
    have hname := (extracted_modelDump_spec hf).2.1
    rcases ih with ⟨hnone, hnone'⟩ | ⟨g, g', hg, hg', hdump⟩
    · by_cases hfn : f.fieldName = name
      · refine Or.inr ⟨f, f', ?_, ?_, hf⟩
        · simp [fieldIndex_cons, hnone, hfn]
        · simp [fieldIndex_cons, hnone', hname, hfn]
      · refine Or.inl ⟨?_, ?_⟩
        · simp [fieldIndex_cons, hnone, hfn]
        · simp [fieldIndex_cons, hnone', hname, hfn]
    · exact Or.inr ⟨g, g', by simp [fieldIndex_cons, hg], by simp [fieldIndex_cons, hg'], hdump⟩

/-! ### What a review computes -/

/-- A recalculation keeps the extracted fields. -/
theorem recalculate_extractedFields {rt : Runtime} {version : Option TemplateVersion}
    {s s' : ExtractionValidationSummary} (h : recalculate rt version s = .ok s') :
    s'.extractedFields = s.extractedFields := by
  unfold recalculate at h
  split at h
  · obtain rfl := Except.ok.inj h
    rfl
  · obtain ⟨_, -, h⟩ := Failing.bind_ok.mp h
    obtain ⟨calculated, -, h⟩ := Failing.bind_ok.mp h
    obtain rfl := Except.ok.inj h
    rfl

/-- **What a review that returns computed**: the fields after the edits, the
calculated fields after the recalculation if there is one, and the list of the
names they flag. -/
theorem reviewOutcome_spec {rt : Runtime} {db : Database} {resultId : ℕ}
    {result : ExtractionResult} {payload : ReviewEditPayload} {now : UtcTime}
    {summary : ExtractionValidationSummary} {rows : List ReviewEdit}
    (h : reviewOutcome rt db resultId result payload now = .ok (summary, rows)) :
    ∃ fields recalculated,
      applyEdits result.tenantId resultId payload.reviewer payload.edits
        (approvals payload result.resultJson).extractedFields = .ok (fields, rows) ∧
      recalculateIfAsked rt payload (db.templateVersionOf result)
          { approvals payload result.resultJson with extractedFields := fields } =
        .ok recalculated ∧
      recalculated.extractedFields = fields ∧
      ({ recomputeFieldsRequiringReview recalculated with
        reviewedAt := some now } : ExtractionValidationSummary).modelDump = .ok summary := by
  unfold reviewOutcome at h
  obtain ⟨⟨fields, rows'⟩, hedits, h⟩ := Failing.bind_ok.mp h
  obtain ⟨recalculated, hrecalculated, h⟩ := Failing.bind_ok.mp h
  obtain ⟨summary', hdump, h⟩ := Failing.bind_ok.mp h
  obtain ⟨rfl, rfl⟩ : summary' = summary ∧ rows' = rows := by
    simpa [pure, Except.pure] using h
  refine ⟨fields, recalculated, hedits, hrecalculated, ?_, hdump⟩
  unfold recalculateIfAsked at hrecalculated
  split at hrecalculated
  · exact recalculate_extractedFields hrecalculated
  · obtain rfl := Except.ok.inj hrecalculated
    rfl

/-- The list a review stores names exactly the fields it leaves flagged. -/
theorem reviewOutcome_flags {rt : Runtime} {db : Database} {resultId : ℕ}
    {result : ExtractionResult} {payload : ReviewEditPayload} {now : UtcTime}
    {summary : ExtractionValidationSummary} {rows : List ReviewEdit}
    (h : reviewOutcome rt db resultId result payload now = .ok (summary, rows)) :
    summary.fieldsRequiringReview = summary.flaggedNames := by
  obtain ⟨fields, recalculated, -, -, -, hdump⟩ := reviewOutcome_spec h
  rw [(modelDump_fields hdump).2.2, modelDump_flaggedNames hdump]
  rfl

end ExtractFlow
