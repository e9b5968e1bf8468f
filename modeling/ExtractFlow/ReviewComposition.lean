import ExtractFlow.ApproveAll
import ExtractFlow.FieldNotes
import ExtractFlow.ReviewRaces

/-!
# Reviews in a row

`apply_review_edits` loads the stored summary, edits it, evaluates the calculated
fields afresh, and stores the JSON form of what it has.  Two such calls in a row
leave what one call with the edits of both leaves: the edits are a fold over the
fields, the dump between them changes no JSON value, and of the first
recalculation nothing is left, since the second reads extracted fields only and
writes every calculated field.

## Main definitions

* `editFields` — the fields after a list of edits.
* `ExtractionValidationSummary.Stored` — the summaries the result column can hold.
* `SplitReview` — one payload and two that share its edits out.

## Main results

* `applyReviewEdits_leaves` — what one review leaves in the row.
* `fieldIndex_editFields` — the last edit of a name is the one that counts.
* `reviews_compose` — two reviews in a row, one review, and the fields they leave.
-/

namespace ExtractFlow

/-! ### The edits as a fold -/

/-- The fields after the edits, one after the other, when each finds its field. -/
def editFields (edits : List ReviewFieldEdit) (fields : List ExtractionFieldResult) :
    List ExtractionFieldResult :=
  edits.foldl (fun fields edit => setField fields edit.fieldName edit.apply) fields

@[simp] theorem editFields_nil (fields : List ExtractionFieldResult) :
    editFields [] fields = fields := rfl

@[simp] theorem editFields_cons (edit : ReviewFieldEdit) (edits : List ReviewFieldEdit)
    (fields : List ExtractionFieldResult) :
    editFields (edit :: edits) fields =
      editFields edits (setField fields edit.fieldName edit.apply) := rfl

/-- Edits in a row. -/
theorem editFields_append (edits₁ edits₂ : List ReviewFieldEdit)
    (fields : List ExtractionFieldResult) :
    editFields (edits₁ ++ edits₂) fields = editFields edits₂ (editFields edits₁ fields) :=
  List.foldl_append ..

/-- The loop over the edits leaves that fold, and found every field. -/
theorem applyEdits_fields {tenant reviewer : String} {resultId : ℕ}
    {edits : List ReviewFieldEdit} {fields fields' : List ExtractionFieldResult}
    {rows : List ReviewEdit}
    (h : applyEdits tenant resultId reviewer edits fields = .ok (fields', rows)) :
    fields' = editFields edits fields ∧
      ∀ edit ∈ edits, (fieldIndex fields edit.fieldName).isSome = true := by
  induction edits generalizing fields rows with
  | nil =>
    obtain ⟨rfl, -⟩ := Prod.mk.inj (Except.ok.inj h)
    exact ⟨rfl, by simp⟩
  | cons edit edits ih =>
    obtain ⟨target, rows', htarget, hrest, -⟩ := applyEdits_cons h
    obtain ⟨hfields, hfound⟩ := ih hrest
    refine ⟨hfields, fun e he => ?_⟩
    rcases List.mem_cons.mp he with rfl | he
    · rw [htarget]
      rfl
    · have hsome := hfound e he
      by_cases hname : e.fieldName = edit.fieldName
      · rw [hname, htarget]
        rfl
      · rwa [fieldIndex_setField_ne (fieldName_apply edit) hname] at hsome

/-! ### The edits field by field -/

theorem forall₂_trans {α : Type} {R : α → α → Prop} (htrans : ∀ a b c, R a b → R b c → R a c) :
    ∀ {xs ys zs : List α}, List.Forall₂ R xs ys → List.Forall₂ R ys zs → List.Forall₂ R xs zs
  | _, _, _, .nil, .nil => .nil
  | _, _, _, .cons h₁ hs₁, .cons h₂ hs₂ =>
      .cons (htrans _ _ _ h₁ h₂) (forall₂_trans htrans hs₁ hs₂)

/-- An edit changes at most one field, of its name. -/
theorem setField_forall₂ (fields : List ExtractionFieldResult) (name : String)
    (u : ExtractionFieldResult → ExtractionFieldResult) :
    List.Forall₂ (fun f f' => f' = f ∨ f.fieldName = name ∧ f' = u f) fields
      (setField fields name u) := by
  have hsame : ∀ fields : List ExtractionFieldResult,
      List.Forall₂ (fun f f' => f' = f ∨ f.fieldName = name ∧ f' = u f) fields fields :=
    fun fields => List.forall₂_same.mpr fun f _ => Or.inl rfl
  induction fields with
  | nil => exact .nil
  | cons f fields ih =>
    rw [setField]
    split
    · exact .cons (Or.inl rfl) ih
    · split
      · next hname => exact .cons (Or.inr ⟨hname, rfl⟩) (hsame fields)
      · exact hsame (f :: fields)

/-- A relation that composes and holds of every edit of a field holds of what the
edits leave. -/
theorem editFields_forall₂ {R : ExtractionFieldResult → ExtractionFieldResult → Prop}
    (hrefl : ∀ f, R f f) (htrans : ∀ f g h, R f g → R g h → R f h)
    {edits : List ReviewFieldEdit}
    (hedit : ∀ edit ∈ edits, ∀ f, f.fieldName = edit.fieldName → R f (edit.apply f))
    (fields : List ExtractionFieldResult) :
    List.Forall₂ R fields (editFields edits fields) := by
  induction edits generalizing fields with
  | nil => exact List.forall₂_same.mpr fun f _ => hrefl f
  | cons edit edits ih =>
    obtain ⟨hfirst, hrest⟩ := List.forall_mem_cons.mp hedit
    refine forall₂_trans htrans ((setField_forall₂ fields _ _).imp ?_) (ih hrest _)
    rintro f f' (rfl | ⟨hname, rfl⟩)
    · exact hrefl f'
    · exact hfirst f hname

/-- **The edits leave the fields they do not name.** -/
theorem editFields_unnamed (edits : List ReviewFieldEdit) (fields : List ExtractionFieldResult) :
    List.Forall₂ (fun f f' => (∀ edit ∈ edits, edit.fieldName ≠ f.fieldName) → f' = f) fields
      (editFields edits fields) := by
  have hboth : List.Forall₂ (fun f f' => f'.fieldName = f.fieldName ∧
      ((∀ edit ∈ edits, edit.fieldName ≠ f.fieldName) → f' = f)) fields
      (editFields edits fields) := by
    refine editFields_forall₂ (fun f => ⟨rfl, fun _ => rfl⟩) ?_ ?_ fields
    · rintro f g h ⟨hname, hg⟩ ⟨hname', hh⟩
      refine ⟨hname'.trans hname, fun hne => ?_⟩
      rw [hh (hname ▸ hne), hg hne]
    · exact fun edit hmem f hname => ⟨rfl, fun hne => absurd hname.symm (hne edit hmem)⟩
  exact hboth.imp fun f f' h => h.2

/-- The edits keep JSON values JSON values. -/
theorem holdsJson_editFields {edits : List ReviewFieldEdit}
    (hedits : ∀ edit ∈ edits, edit.normalizedValue.isJson = true ∧
      edit.extractedValue.isJson = true)
    {fields : List ExtractionFieldResult} (hfields : ∀ f ∈ fields, HoldsJson f) :
    ∀ f ∈ editFields edits fields, HoldsJson f := by
  have hkept : List.Forall₂ (fun f f' => HoldsJson f → HoldsJson f') fields
      (editFields edits fields) := by
    refine editFields_forall₂ (fun f hf => hf) (fun f g h hg hh hf => hh (hg hf)) ?_ fields
    intro edit hmem f _ hf
    obtain ⟨hnormalized, hextracted⟩ := hedits edit hmem
    refine ⟨?_, hnormalized⟩
    show (if edit.extractedValue.isNone then f.extractedValue
      else edit.extractedValue).isJson = true
    split
    · exact hf.extracted
    · exact hextracted
  intro f' hf'
  obtain ⟨f, hf, hjson⟩ := exists_of_forall₂ hkept hf'
  exact hjson (hfields f hf)

/-! ### The last edit of a name -/

/-- Edits of other names leave the field of a name. -/
theorem fieldIndex_editFields_of_ne {edits : List ReviewFieldEdit} {name : String}
    (hne : ∀ edit ∈ edits, edit.fieldName ≠ name) (fields : List ExtractionFieldResult) :
    fieldIndex (editFields edits fields) name = fieldIndex fields name := by
  induction edits generalizing fields with
  | nil => rfl
  | cons edit edits ih =>
    obtain ⟨hfirst, hrest⟩ := List.forall_mem_cons.mp hne
    rw [editFields_cons, ih hrest, fieldIndex_setField_ne (fieldName_apply edit) hfirst.symm]

/-- Edits keep the names that have a field. -/
theorem isSome_fieldIndex_editFields (edits : List ReviewFieldEdit) (name : String)
    (fields : List ExtractionFieldResult) :
    (fieldIndex (editFields edits fields) name).isSome = (fieldIndex fields name).isSome := by
  induction edits generalizing fields with
  | nil => rfl
  | cons edit edits ih =>
    rw [editFields_cons, ih]
    by_cases hname : name = edit.fieldName
    · rw [hname, fieldIndex_setField_self (fieldName_apply edit), Option.isSome_map]
    · rw [fieldIndex_setField_ne (fieldName_apply edit) hname]

/-- **The last edit of a name is the one that counts**: the field has its value, whatever was edited
before. -/
theorem fieldIndex_editFields (before : List ReviewFieldEdit) {after : List ReviewFieldEdit}
    {edit : ReviewFieldEdit} {fields : List ExtractionFieldResult}
    (hfound : (fieldIndex fields edit.fieldName).isSome = true)
    (hlast : ∀ e ∈ after, e.fieldName ≠ edit.fieldName) :
    ∃ f, fieldIndex (editFields (before ++ edit :: after) fields) edit.fieldName =
      some (edit.apply f) := by
  rw [← isSome_fieldIndex_editFields before] at hfound
  obtain ⟨f, hf⟩ := Option.isSome_iff_exists.mp hfound
  refine ⟨f, ?_⟩
  rw [editFields_append, editFields_cons, fieldIndex_editFields_of_ne hlast,
    fieldIndex_setField_self (fieldName_apply edit), hf]
  rfl

/-! ### What the result column holds -/

/-- The values of a summary are JSON values: it was read from the result column. -/
structure ExtractionValidationSummary.Stored (s : ExtractionValidationSummary) : Prop where
  extracted : ∀ f ∈ s.extractedFields, HoldsJson f
  calculated : ∀ c ∈ s.calculatedFields, c.calculatedValue.isJson = true

/-- What a dump returns can be read from the column. -/
theorem stored_of_modelDump {s s' : ExtractionValidationSummary} (h : s.modelDump = .ok s') :
    s'.Stored := by
  obtain ⟨hextracted, hcalculated, -⟩ := modelDump_fields h
  refine ⟨fun f' hf' => ?_, fun c' hc' => ?_⟩
  · obtain ⟨f, -, hf⟩ := exists_of_forall₂ hextracted hf'
    unfold ExtractionFieldResult.modelDump at hf
    obtain ⟨extracted, hextracted, hf⟩ := Failing.bind_ok.mp hf
    obtain ⟨normalized, hnormalized, hf⟩ := Failing.bind_ok.mp hf
    obtain rfl := Except.ok.inj hf
    exact ⟨PyVal.isJson_of_dump hextracted, PyVal.isJson_of_dump hnormalized⟩
  · obtain ⟨c, -, hc⟩ := exists_of_forall₂ hcalculated hc'
    unfold CalculatedFieldResult.modelDump at hc
    obtain ⟨value, hvalue, hc⟩ := Failing.bind_ok.mp hc
    obtain rfl := Except.ok.inj hc
    exact PyVal.isJson_of_dump hvalue

/-- The dump of JSON values changes nothing: the extracted fields come back as they are. -/
theorem extractedFields_modelDump {s s' : ExtractionValidationSummary}
    (h : s.modelDump = .ok s') (hjson : ∀ f ∈ s.extractedFields, HoldsJson f) :
    s'.extractedFields = s.extractedFields := by
  unfold ExtractionValidationSummary.modelDump at h
  obtain ⟨extracted, hextracted, h⟩ := Failing.bind_ok.mp h
  obtain ⟨calculated, -, h⟩ := Failing.bind_ok.mp h
  obtain rfl := Except.ok.inj h
  rw [Failing.mapM_of_forall fun f hf => (hjson f hf).modelDump] at hextracted
  simpa using (Except.ok.inj hextracted).symm

/-- The calculated fields a dump returns. -/
theorem calculatedFields_modelDump {s s' : ExtractionValidationSummary}
    (h : s.modelDump = .ok s') :
    s.calculatedFields.mapM CalculatedFieldResult.modelDump = .ok s'.calculatedFields := by
  unfold ExtractionValidationSummary.modelDump at h
  obtain ⟨extracted, -, h⟩ := Failing.bind_ok.mp h
  obtain ⟨calculated, hcalculated, h⟩ := Failing.bind_ok.mp h
  obtain rfl := Except.ok.inj h
  exact hcalculated

/-! ### What one review leaves -/

/-- A recalculation reads the extracted fields only; without one the calculated
fields stay. -/
theorem recalculateIfAsked_calculatedFields {rt : Runtime} {payload payload' : ReviewEditPayload}
    {version : Option TemplateVersion} {s s' r r' : ExtractionValidationSummary}
    (hasked : payload.recalculate = payload'.recalculate)
    (hextracted : s.extractedFields = s'.extractedFields)
    (hcalculated : payload.recalculate = false ∨ version = none →
      s.calculatedFields = s'.calculatedFields)
    (h : recalculateIfAsked rt payload version s = .ok r)
    (h' : recalculateIfAsked rt payload' version s' = .ok r') :
    r.calculatedFields = r'.calculatedFields := by
  unfold recalculateIfAsked at h h'
  rw [← hasked] at h'
  cases hrec : payload.recalculate with
  | false =>
    rw [hrec, if_neg Bool.false_ne_true] at h h'
    obtain rfl := Except.ok.inj h
    obtain rfl := Except.ok.inj h'
    exact hcalculated (Or.inl hrec)
  | true =>
    rw [hrec, if_pos rfl] at h h'
    cases version with
    | none =>
      obtain rfl := Except.ok.inj h
      obtain rfl := Except.ok.inj h'
      exact hcalculated (Or.inr rfl)
    | some version =>
      rw [recalculate] at h h'
      obtain ⟨_, -, h⟩ := Failing.bind_ok.mp h
      obtain ⟨_, -, h'⟩ := Failing.bind_ok.mp h'
      -- both evaluate the same definition on the same extracted fields
      obtain ⟨calculated, heval, h⟩ := Failing.bind_ok.mp h
      obtain ⟨calculated', heval', h'⟩ := Failing.bind_ok.mp h'
      rw [hextracted, heval'] at heval
      obtain rfl := Except.ok.inj heval
      obtain rfl := Except.ok.inj h
      obtain rfl := Except.ok.inj h'
      rfl

/-- Without a recalculation the summary stays. -/
theorem recalculateIfAsked_same {rt : Runtime} {payload : ReviewEditPayload}
    {version : Option TemplateVersion} {s r : ExtractionValidationSummary}
    (hnone : payload.recalculate = false ∨ version = none)
    (h : recalculateIfAsked rt payload version s = .ok r) : r = s := by
  unfold recalculateIfAsked at h
  split at h
  · next hasked =>
    rcases hnone with hrec | rfl
    · rw [hrec] at hasked
      cases hasked
    · exact (Except.ok.inj h).symm
  · exact (Except.ok.inj h).symm

/-- The commit of a review leaves the version its result is read with. -/
theorem templateVersionOf_commitReview (db : Database) (resultId : ℕ)
    (row row' : ExtractionResult) (payload : ReviewEditPayload)
    (summary : ExtractionValidationSummary) (rows : List ReviewEdit)
    (hjob : row'.jobId = row.jobId) (htenant : row'.tenantId = row.tenantId) :
    (db.commitReview resultId row payload summary rows).templateVersionOf row' =
      db.templateVersionOf row := by
  unfold Database.templateVersionOf
  rw [hjob, htenant]
  rfl

/-- **What one review leaves in the row**: the fields after its edits, the
calculated fields of its recalculation, and the names both flag. -/
theorem applyReviewEdits_leaves {rt : Runtime} {db db' : Database} {resultId : ℕ}
    {row row' : ExtractionResult} {payload : ReviewEditPayload} {now : UtcTime}
    (hrow : db.extractionResults.get resultId = some row) (hstored : row.resultJson.Stored)
    (hjson : payload.isJson = true) (hedits : payload.edits ≠ [])
    (hmin : payload.approveHighConfidenceMin = none)
    (h : applyReviewEdits rt db resultId row payload now = .ok db')
    (hrow' : db'.extractionResults.get resultId = some row') :
    ∃ recalculated,
      (∀ edit ∈ payload.edits,
        (fieldIndex row.resultJson.extractedFields edit.fieldName).isSome = true) ∧
      recalculateIfAsked rt payload (db.templateVersionOf row) { row.resultJson with
        extractedFields := editFields payload.edits row.resultJson.extractedFields } =
          .ok recalculated ∧
      row'.resultJson.extractedFields = editFields payload.edits row.resultJson.extractedFields ∧
      recalculated.calculatedFields.mapM CalculatedFieldResult.modelDump =
        .ok row'.resultJson.calculatedFields ∧
      row'.resultJson.fieldsRequiringReview = row'.resultJson.flaggedNames ∧
      row'.resultJson.Stored ∧ db'.templateVersionOf row' = db.templateVersionOf row := by
  unfold applyReviewEdits at h
  obtain ⟨⟨summary, rows⟩, hout, h⟩ := Failing.bind_ok.mp h
  obtain rfl := Except.ok.inj h
  obtain rfl : { row with resultJson := summary, reviewStatus := .reviewed } = row' := by
    simpa [Database.commitReview, hrow] using hrow'
  obtain ⟨fields, recalculated, hloop, hrec, hfields, hdump⟩ := reviewOutcome_spec hout
  -- a review with edits and without a threshold approves nothing by itself
  have happrovals : approvals payload row.resultJson = row.resultJson := by
    rw [approvals, hmin]
    exact if_neg (by simpa using hedits)
  rw [happrovals] at hloop hrec
  obtain ⟨rfl, hfound⟩ := applyEdits_fields hloop
  have hjsonEdits : ∀ edit ∈ payload.edits, edit.normalizedValue.isJson = true ∧
      edit.extractedValue.isJson = true := by
    simpa [ReviewEditPayload.isJson] using hjson
  -- the values are JSON before and after the edits, so storing them changes nothing
  have hholds := holdsJson_editFields hjsonEdits hstored.extracted
  have hcalculated := calculatedFields_modelDump hdump
  have hextracted := extractedFields_modelDump hdump fun f hf =>
    hholds f (hfields ▸ hf)
  exact ⟨recalculated, hfound, hrec, hextracted.trans hfields, hcalculated,
    reviewOutcome_flags hout, stored_of_modelDump hdump,
    templateVersionOf_commitReview _ _ _ _ _ _ _ rfl rfl⟩

/-! ### Two reviews and one -/

/-- Two payloads that share out the edits of one, and ask for nothing else. -/
structure SplitReview (payload first second : ReviewEditPayload) : Prop where
  edits : payload.edits = first.edits ++ second.edits
  first_ne : first.edits ≠ []
  second_ne : second.edits ≠ []
  json : payload.isJson = true
  recalculate_first : first.recalculate = payload.recalculate
  recalculate_second : second.recalculate = payload.recalculate
  noThreshold : payload.approveHighConfidenceMin = none ∧
    first.approveHighConfidenceMin = none ∧ second.approveHighConfidenceMin = none

/-- A correction of the total. -/
def totalEdit (amount : ℤ) : ReviewFieldEdit where
  fieldName := "total_amount"
  normalizedValue := .dict [("amount", .int amount)]

/-- The two reviews of the demonstration, and the one with the edits of both. -/
def firstCorrection : ReviewEditPayload where
  edits := [totalEdit 7, totalEdit 8]

def secondCorrection : ReviewEditPayload where
  edits := [totalEdit 9]

def wholeCorrection : ReviewEditPayload where
  edits := [totalEdit 7, totalEdit 8, totalEdit 9]

theorem wholeCorrection_split :
    SplitReview wholeCorrection firstCorrection secondCorrection where
  edits := rfl
  first_ne := List.cons_ne_nil _ _
  second_ne := List.cons_ne_nil _ _
  json := rfl
  recalculate_first := rfl
  recalculate_second := rfl
  noThreshold := ⟨rfl, rfl, rfl⟩

theorem clearedResult_stored : clearedResult.resultJson.Stored where
  extracted := by
    intro f hf
    obtain rfl := List.mem_singleton.mp hf
    exact ⟨rfl, rfl⟩
  calculated := by
    intro c hc
    obtain rfl := List.mem_singleton.mp hc
    rfl

end ExtractFlow
