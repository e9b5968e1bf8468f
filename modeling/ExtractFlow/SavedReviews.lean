import ExtractFlow.ReviewComposition
import ExtractFlow.ReviewDrafts

/-!
# Saving a review

`handleSaveReview` (`frontend/src/App.tsx`) parses the draft of every field, compares the
JSON with that of the field, and sends those that differ as edits to `apply_review_edits`.
The API takes a request without edits for an approval of everything.

So a field that nobody touched is left alone if its value comes back from its draft, and if
there is an edit of some other field, or nothing to approve about this one.

## Main definitions

* `buildReviewEditsForResult` — the edits of a save.
* `Touched` — the draft of a field is not the one it had at first.
* `LeftAlone` — the stored field is as it was, and has no `ReviewEdit` row.

## Main results

* `save_builds_iff` — when the edits can be built.
* `untouched_left_alone_iff` — when a save leaves alone what nobody touched.
-/

namespace ExtractFlow

open JsonText JsObject Js

/-! ### The request -/

/-- How values get to the browser and back; what arrives there is built by `JSON.parse`. -/
structure ReviewWire (ν : Type) where
  send : PyVal → Json ν
  send_canon : ∀ v, canon (send v) = send v
  receive : Json ν → PyVal

/-- An edit, as it is sent to the API. -/
structure ReviewEditRequest (ν : Type) where
  fieldName : String
  normalizedValue : Json ν
  reason : String

/-- What `reviewDrafts[fieldName]` is: a property of every object, if there is no draft. -/
inductive DraftEntry where
  | text (s : String)
  | missing
  | inherited

def draftEntry (reviewDrafts : List (String × String)) (fieldName : String) : DraftEntry :=
  match get reviewDrafts fieldName with
  | some s => .text s
  | none =>
      if fieldName = "__proto__" ∨ fieldName ∈ inheritedMethods then .inherited else .missing

/-- `getFieldDefinition`. -/
def getFieldDefinition (template : Option (List TemplateFieldDefinition)) (fieldName : String) :
    Option TemplateFieldDefinition :=
  template.bind fun fields => fields.find? fun item => item.name == fieldName

section Request

variable {ν : Type} (wire : ReviewWire ν)

/-- A field of a result, as the browser reads it. -/
def sentField (f : ExtractionFieldResult) : ReviewField ν where
  fieldName := f.fieldName
  label := f.label
  dataType := some f.dataType.value
  normalizedValue := wire.send f.normalizedValue
  extractedValue := wire.send f.extractedValue
  normalized_canon := wire.send_canon _
  extracted_canon := wire.send_canon _

variable (browser : ReviewBrowser ν) (reviewDrafts : List (String × String))
  (template : Option (List TemplateFieldDefinition))

/-- `reviewDrafts[name] ?? getInitialReviewDraft(field, definition)`, unless it is no text. -/
def usedDraft (field : ReviewField ν) : Option String :=
  match draftEntry reviewDrafts field.fieldName with
  | .text s => some s
  | .missing => some <|
      getInitialReviewDraft browser field (getFieldDefinition template field.fieldName)
  | .inherited => none

/-- The value of the draft that is used. -/
def parseUsedDraft (field : ReviewField ν) : Except String (Json ν) :=
  match usedDraft browser reviewDrafts template field with
  | none => .error "raw.trim is not a function"
  | some draft =>
      parseReviewDraft browser field draft (getFieldDefinition template field.fieldName)

/-- The edit of a field, if its draft has another value. -/
def buildReviewEdit (field : ReviewField ν) :
    Except String (Option (ReviewEditRequest ν)) := do
  let parsed ← parseUsedDraft browser reviewDrafts template field
  if browser.num.compact parsed = browser.num.compact field.value then return none
  else
    return some
      { fieldName := field.fieldName, normalizedValue := parsed
        reason := "Updated from extraction workspace" }

/-- `buildReviewEditsForResult`: an edit for each field whose draft makes another value, or the
message for the first draft that cannot be read. -/
def buildReviewEditsForResult (fields : List (ReviewField ν)) :
    Except String (List (ReviewEditRequest ν)) := do
  let edits ← fields.mapM (buildReviewEdit browser reviewDrafts template)
  return edits.filterMap id

/-- What `handleSaveReview` sends, as the API reads it. -/
def saveRequest (edits : List (ReviewEditRequest ν)) : ReviewEditPayload where
  reviewer := "local-ui"
  edits := edits.map fun edit =>
    { fieldName := edit.fieldName, normalizedValue := wire.receive edit.normalizedValue
      reason := edit.reason }
  recalculate := true
  approveHighConfidenceMin := none

/-! ### What a save is to leave alone -/

/-- The draft of the field is another one than the form started with. -/
def Touched (field : ReviewField ν) : Prop :=
  usedDraft browser reviewDrafts template field ≠
    some (getInitialReviewDraft browser field (getFieldDefinition template field.fieldName))

/-- The draft means what the field has. -/
def Unchanged (field : ReviewField ν) : Prop :=
  Restores browser (parseUsedDraft browser reviewDrafts template field) field.value

/-- The stored field has what it had, and there is no row of an edit of it. -/
def LeftAlone (summary : ExtractionValidationSummary) (rows : List ReviewEdit)
    (f : ExtractionFieldResult) : Prop :=
  (∃ f', fieldIndex summary.extractedFields f.fieldName = some f' ∧
    f'.normalizedValue = f.normalizedValue ∧ f'.validationStatus = f.validationStatus ∧
    f'.requiresReview = f.requiresReview) ∧
  ∀ row ∈ rows, row.fieldName ≠ f.fieldName

end Request

section Results

variable {ν : Type} {wire : ReviewWire ν} {browser : ReviewBrowser ν}
  {reviewDrafts : List (String × String)} {template : Option (List TemplateFieldDefinition)}

/-! ### Building the edits -/

/-- The edit of a field, if its draft is parsed. -/
theorem buildReviewEdit_ok_iff {field : ReviewField ν} {edit : Option (ReviewEditRequest ν)} :
    buildReviewEdit browser reviewDrafts template field = .ok edit ↔
      ∃ parsed, parseUsedDraft browser reviewDrafts template field = .ok parsed ∧
        edit = if browser.num.compact parsed = browser.num.compact field.value then none
          else some { fieldName := field.fieldName, normalizedValue := parsed
                      reason := "Updated from extraction workspace" } := by
  unfold buildReviewEdit
  rw [Failing.bind_ok]
  refine exists_congr fun parsed => and_congr_right fun _ => ?_
  split_ifs
  · exact ⟨fun h => (Except.ok.inj h).symm, fun h => congrArg Except.ok h.symm⟩
  · exact ⟨fun h => (Except.ok.inj h).symm, fun h => congrArg Except.ok h.symm⟩

/-- The edits can be built when each draft that is used can be parsed. -/
theorem build_returns_iff (fields : List (ReviewField ν)) :
    (∃ edits, buildReviewEditsForResult browser reviewDrafts template fields = .ok edits) ↔
      ∀ field ∈ fields, ∃ parsed, parseUsedDraft browser reviewDrafts template field =
        .ok parsed := by
  have hone : ∀ field, (∃ edit, buildReviewEdit browser reviewDrafts template field = .ok edit) ↔
      ∃ parsed, parseUsedDraft browser reviewDrafts template field = .ok parsed := by
    intro field
    simp only [buildReviewEdit_ok_iff]
    exact ⟨fun h => ⟨_, h.choose_spec.choose_spec.1⟩,
      fun ⟨parsed, h⟩ => ⟨_, parsed, h, rfl⟩⟩
  simp only [← hone]
  rw [← Failing.mapM_returns_iff]
  unfold buildReviewEditsForResult
  constructor
  · rintro ⟨edits, h⟩
    obtain ⟨all, hall, -⟩ := Failing.bind_ok.mp h
    exact ⟨all, hall⟩
  · rintro ⟨all, hall⟩
    exact ⟨_, Failing.bind_of_ok hall⟩

/-- An edit is that of a field. -/
theorem edit_of_field {fields : List (ReviewField ν)} {edits : List (ReviewEditRequest ν)}
    (h : buildReviewEditsForResult browser reviewDrafts template fields = .ok edits)
    {edit : ReviewEditRequest ν} (hedit : edit ∈ edits) :
    ∃ field ∈ fields, edit.fieldName = field.fieldName := by
  obtain ⟨all, hall, h⟩ := Failing.bind_ok.mp h
  obtain rfl := Except.ok.inj h
  obtain ⟨edit', hmem, rfl⟩ := List.mem_filterMap.mp hedit
  obtain ⟨field, hfield, hbuilt⟩ := Keyed.exists_of_mem_right (Failing.mapM_forall₂ hall) hmem
  obtain ⟨parsed, -, hsome⟩ := buildReviewEdit_ok_iff.mp hbuilt
  split_ifs at hsome
  refine ⟨field, hfield, ?_⟩
  have hedit : edit = _ := Option.some.inj hsome
  rw [hedit]

/-- **Which fields have an edit**: those whose draft means something else. -/
theorem edited_iff {fields : List (ReviewField ν)} {edits : List (ReviewEditRequest ν)}
    (h : buildReviewEditsForResult browser reviewDrafts template fields = .ok edits)
    {field : ReviewField ν} (hfield : field ∈ fields)
    (hnames : (fields.map ReviewField.fieldName).Nodup) :
    (∃ edit ∈ edits, edit.fieldName = field.fieldName) ↔
      ¬ Unchanged browser reviewDrafts template field := by
  obtain ⟨all, hall, h⟩ := Failing.bind_ok.mp h
  obtain rfl := Except.ok.inj h
  have hbuilt := Failing.mapM_forall₂ hall
  constructor
  · rintro ⟨edit, hedit, hname⟩ hunchanged
    obtain ⟨edit', hmem, rfl⟩ := List.mem_filterMap.mp hedit
    obtain ⟨field', hfield', hedit'⟩ := Keyed.exists_of_mem_right hbuilt hmem
    obtain ⟨parsed, hparsed, hsome⟩ := buildReviewEdit_ok_iff.mp hedit'
    split_ifs at hsome with hsame
    have hedited : edit.fieldName = field'.fieldName := by
      rw [Option.some.injEq] at hsome
      rw [hsome]
    -- names are distinct, so it is the edit of this field
    obtain rfl : field' = field :=
      List.inj_on_of_nodup_map hnames hfield' hfield (hedited.symm.trans hname)
    obtain ⟨parsed', hparsed', hsame'⟩ := hunchanged
    obtain rfl := Except.ok.inj (hparsed.symm.trans hparsed')
    exact hsame hsame'
  · intro hchanged
    obtain ⟨edit, hmem, hedit⟩ := Keyed.exists_of_mem_left hbuilt hfield
    obtain ⟨parsed, hparsed, rfl⟩ := buildReviewEdit_ok_iff.mp hedit
    have hsame : ¬ browser.num.compact parsed = browser.num.compact field.value :=
      fun hsame => hchanged ⟨parsed, hparsed, hsame⟩
    rw [if_neg hsame] at hmem
    exact ⟨_, List.mem_filterMap.mpr ⟨_, hmem, rfl⟩, rfl⟩

/-! ### What the API makes of them -/

section Api

variable {rt : Runtime} {db : Database} {resultId : ℕ} {result : ExtractionResult}
  {payload : ReviewEditPayload} {now : UtcTime} {summary : ExtractionValidationSummary}
  {rows : List ReviewEdit} {f : ExtractionFieldResult}

/-- A field that no edit names is approved, if there is no edit at all; else it stays. -/
theorem unnamed_after_review (hmin : payload.approveHighConfidenceMin = none)
    (hstored : result.resultJson.Stored)
    (hnames : (result.resultJson.extractedFields.map ExtractionFieldResult.fieldName).Nodup)
    (hout : reviewOutcome rt db resultId result payload now = .ok (summary, rows))
    (hf : f ∈ result.resultJson.extractedFields)
    (hne : ∀ edit ∈ payload.edits, edit.fieldName ≠ f.fieldName) :
    fieldIndex summary.extractedFields f.fieldName =
      some (if payload.edits.isEmpty = true ∧ f.requiresReview = true then f.approve else f) := by
  obtain ⟨fields, recalculated, hedits, -, hfields, hdump⟩ := reviewOutcome_spec hout
  obtain ⟨rfl, -⟩ := applyEdits_fields hedits
  have hindex := fieldIndex_of_mem hnames hf
  -- without edits all flagged fields are approved, and with some nothing is
  have happroved : fieldIndex (approvals payload result.resultJson).extractedFields f.fieldName =
      some (if payload.edits.isEmpty = true ∧ f.requiresReview = true then f.approve else f) := by
    unfold approvals
    rw [hmin]
    dsimp only
    by_cases hempty : payload.edits.isEmpty = true
    · rw [if_pos hempty]
      unfold approveAll
      dsimp only
      rw [fieldIndex_map (fun g => by split <;> rfl), hindex, Option.map_some]
      simp only [hempty, true_and]
    · rw [if_neg hempty, hindex, if_neg fun h => hempty h.1]
  have hjson : HoldsJson
      (if payload.edits.isEmpty = true ∧ f.requiresReview = true then f.approve else f) := by
    obtain ⟨hextracted, hnormalized⟩ := hstored.extracted f hf
    split
    · exact ⟨hextracted, hnormalized⟩
    · exact ⟨hextracted, hnormalized⟩
  have hdumped := (modelDump_fields hdump).1
  rw [show ({ recomputeFieldsRequiringReview recalculated with reviewedAt := some now } :
    ExtractionValidationSummary).extractedFields = _ from hfields] at hdumped
  rcases fieldIndex_modelDump hdumped f.fieldName with ⟨hnone, -⟩ | ⟨g, g', hg, hg', hgdump⟩
  · rw [fieldIndex_editFields_of_ne hne, happroved] at hnone
    cases hnone
  · rw [fieldIndex_editFields_of_ne hne, happroved] at hg
    obtain rfl := Option.some.inj hg
    rw [hjson.modelDump] at hgdump
    rw [hg', Except.ok.inj hgdump]

/-- **When a review leaves a field alone**: when it does not name it, and names another one or
finds nothing to approve. -/
theorem leftAlone_iff (hmin : payload.approveHighConfidenceMin = none)
    (hstored : result.resultJson.Stored)
    (hnames : (result.resultJson.extractedFields.map ExtractionFieldResult.fieldName).Nodup)
    (hout : reviewOutcome rt db resultId result payload now = .ok (summary, rows))
    (hf : f ∈ result.resultJson.extractedFields) :
    LeftAlone summary rows f ↔
      (∀ edit ∈ payload.edits, edit.fieldName ≠ f.fieldName) ∧
        (payload.edits = [] → f.requiresReview = false) := by
  obtain ⟨fields, recalculated, hedits, -⟩ := reviewOutcome_spec hout
  have hrows : (∀ row ∈ rows, row.fieldName ≠ f.fieldName) ↔
      ∀ edit ∈ payload.edits, edit.fieldName ≠ f.fieldName := by
    have hmap := applyEdits_rowNames hedits
    have hleft : (∀ name ∈ rows.map ReviewEdit.fieldName, name ≠ f.fieldName) ↔
        ∀ row ∈ rows, row.fieldName ≠ f.fieldName := List.forall_mem_map
    rw [← hleft, hmap, List.forall_mem_map]
  unfold LeftAlone
  rw [hrows, and_comm]
  refine and_congr_right fun hne => ?_
  rw [unnamed_after_review hmin hstored hnames hout hf hne]
  simp only [Option.some.injEq, exists_eq_left']
  -- the field is approved along with everything, or nothing happens to it
  by_cases happrove : payload.edits.isEmpty = true ∧ f.requiresReview = true
  · rw [if_pos happrove]
    refine iff_of_false ?_ ?_
    · rintro ⟨-, -, hreview⟩
      exact Bool.false_ne_true (hreview.trans happrove.2)
    · intro h
      rw [h (List.isEmpty_iff.mp happrove.1)] at happrove
      exact Bool.false_ne_true happrove.2
  · rw [if_neg happrove]
    refine iff_of_true ⟨rfl, rfl, rfl⟩ fun hempty => ?_
    rw [not_and, Bool.not_eq_true] at happrove
    exact happrove (List.isEmpty_iff.mpr hempty)

end Api

/-! ### Fields that nobody touched -/

section Saving

variable {rt : Runtime} {db : Database} {resultId : ℕ} {result : ExtractionResult}
  {edits : List (ReviewEditRequest ν)} {now : UtcTime} {summary : ExtractionValidationSummary}
  {rows : List ReviewEdit}

/-- The request names the fields of the edits. -/
theorem saveRequest_names (name : String) :
    (∀ edit ∈ (saveRequest wire edits).edits, edit.fieldName ≠ name) ↔
      ¬ ∃ edit ∈ edits, edit.fieldName = name := by
  unfold saveRequest
  rw [List.forall_mem_map]
  simp only [not_exists, not_and, ne_eq]

theorem saveRequest_eq_nil_iff : (saveRequest wire edits).edits = [] ↔ edits = [] :=
  List.map_eq_nil_iff

/-- What nobody touched means what it was made of. -/
theorem unchanged_iff_comesBack {field : ReviewField ν}
    (h : ¬ Touched browser reviewDrafts template field) :
    Unchanged browser reviewDrafts template field ↔
      ComesBack browser field (getFieldDefinition template field.fieldName) := by
  have hdraft := not_not.mp h
  unfold Unchanged parseUsedDraft
  rw [hdraft]
  exact draft_comesBack_iff browser field _

/-- **When the edits can be built**: when the drafts of the reviewer can be parsed, and those that
nobody touched were made of values that they can be parsed to. -/
theorem save_builds_iff (browser : ReviewBrowser ν) (reviewDrafts : List (String × String))
    (template : Option (List TemplateFieldDefinition)) (fields : List (ReviewField ν)) :
    (∃ edits, buildReviewEditsForResult browser reviewDrafts template fields = .ok edits) ↔
      (∀ field ∈ fields, Touched browser reviewDrafts template field →
        ∃ parsed, parseUsedDraft browser reviewDrafts template field = .ok parsed) ∧
      ∀ field ∈ fields, ¬ Touched browser reviewDrafts template field →
        DraftReadable browser field (getFieldDefinition template field.fieldName) := by
  have huntouched : ∀ field, ¬ Touched browser reviewDrafts template field →
      ((∃ parsed, parseUsedDraft browser reviewDrafts template field = .ok parsed) ↔
        DraftReadable browser field (getFieldDefinition template field.fieldName)) := by
    intro field h
    have hdraft := not_not.mp h
    unfold parseUsedDraft
    rw [hdraft]
    exact draft_readable_iff browser field _
  rw [build_returns_iff]
  constructor
  · exact fun h => ⟨fun field hfield _ => h field hfield,
      fun field hfield hnot => (huntouched field hnot).mp (h field hfield)⟩
  · rintro ⟨htouched, hreadable⟩ field hfield
    by_cases h : Touched browser reviewDrafts template field
    · exact htouched field hfield h
    · exact (huntouched field h).mpr (hreadable field hfield h)

/-- There is no edit if every draft means what it was made of. -/
theorem edits_eq_nil_iff {fields : List (ReviewField ν)}
    (h : buildReviewEditsForResult browser reviewDrafts template fields = .ok edits)
    (hnames : (fields.map ReviewField.fieldName).Nodup) :
    edits = [] ↔ ∀ field ∈ fields, Unchanged browser reviewDrafts template field := by
  constructor
  · rintro rfl field hfield
    refine not_not.mp fun hchanged => ?_
    obtain ⟨edit, hedit, -⟩ := (edited_iff h hfield hnames).mpr hchanged
    cases hedit
  · intro hunchanged
    cases edits with
    | nil => rfl
    | cons edit rest =>
      -- the first edit is that of some field, which then has changed
      obtain ⟨field, hfield, hname⟩ := edit_of_field h List.mem_cons_self
      exact absurd (hunchanged field hfield)
        ((edited_iff h hfield hnames).mp ⟨edit, List.mem_cons_self, hname⟩)

/-- **When a save leaves alone what nobody touched**: when the values come back from their
drafts, and something else was changed or nothing is to be approved. -/
theorem untouched_left_alone_iff (wire : ReviewWire ν) (browser : ReviewBrowser ν)
    (reviewDrafts : List (String × String)) (template : Option (List TemplateFieldDefinition))
    (hstored : result.resultJson.Stored)
    (hnames : (result.resultJson.extractedFields.map ExtractionFieldResult.fieldName).Nodup)
    (hbuild : buildReviewEditsForResult browser reviewDrafts template
      (result.resultJson.extractedFields.map (sentField wire)) = .ok edits)
    (hout : reviewOutcome rt db resultId result (saveRequest wire edits) now =
      .ok (summary, rows)) :
    (∀ f ∈ result.resultJson.extractedFields,
        ¬ Touched browser reviewDrafts template (sentField wire f) → LeftAlone summary rows f) ↔
      (∀ f ∈ result.resultJson.extractedFields,
        ¬ Touched browser reviewDrafts template (sentField wire f) →
          ComesBack browser (sentField wire f) (getFieldDefinition template f.fieldName)) ∧
      ((∃ f ∈ result.resultJson.extractedFields,
          Touched browser reviewDrafts template (sentField wire f) ∧
            ¬ Unchanged browser reviewDrafts template (sentField wire f)) ∨
        ∀ f ∈ result.resultJson.extractedFields,
          ¬ Touched browser reviewDrafts template (sentField wire f) →
            f.requiresReview = false) := by
  have hsentNames : ((result.resultJson.extractedFields.map (sentField wire)).map
      ReviewField.fieldName).Nodup := by
    rw [List.map_map]
    exact hnames
  -- field by field: no edit names it, and no approval of everything takes it along
  have hone : ∀ f ∈ result.resultJson.extractedFields,
      (LeftAlone summary rows f ↔
        Unchanged browser reviewDrafts template (sentField wire f) ∧
          (edits = [] → f.requiresReview = false)) := by
    intro f hf
    rw [leftAlone_iff rfl hstored hnames hout hf, saveRequest_names, saveRequest_eq_nil_iff]
    have hedited := edited_iff hbuild (List.mem_map_of_mem hf) hsentNames
    rw [show f.fieldName = (sentField wire f).fieldName from rfl, hedited, not_not]
  have hempty : edits = [] ↔ ∀ f ∈ result.resultJson.extractedFields,
      Unchanged browser reviewDrafts template (sentField wire f) := by
    rw [edits_eq_nil_iff hbuild hsentNames, List.forall_mem_map]
  constructor
  · intro halone
    have hcomes : ∀ f ∈ result.resultJson.extractedFields,
        ¬ Touched browser reviewDrafts template (sentField wire f) →
          Unchanged browser reviewDrafts template (sentField wire f) :=
      fun f hf huntouched => ((hone f hf).mp (halone f hf huntouched)).1
    refine ⟨fun f hf huntouched =>
      (unchanged_iff_comesBack huntouched).mp (hcomes f hf huntouched), ?_⟩
    by_cases hchanged : edits = []
    · exact Or.inr fun f hf huntouched =>
        ((hone f hf).mp (halone f hf huntouched)).2 hchanged
    · -- some draft means something else, and that one was touched
      rw [hempty, not_forall] at hchanged
      obtain ⟨f, hchanged⟩ := hchanged
      obtain ⟨hf, hchanged⟩ := Classical.not_imp.mp hchanged
      exact Or.inl ⟨f, hf, not_not.mp fun h => hchanged (hcomes f hf h), hchanged⟩
  · rintro ⟨hcomes, hother⟩ f hf huntouched
    refine (hone f hf).mpr
      ⟨(unchanged_iff_comesBack huntouched).mpr (hcomes f hf huntouched), fun hnone => ?_⟩
    rcases hother with ⟨g, hg, -, hchanged⟩ | hnothing
    · exact absurd (hempty.mp hnone g hg) hchanged
    · exact hnothing f hf huntouched

end Saving

end Results

/-! ### A review of two fields -/

/-- A wire for truth values and texts in records. -/
def recordWire : ReviewWire (Fin 10) where
  send
    | .dict [("value", .str s)] => .obj [("value", .str s)]
    | .bool b => .bool b
    | _ => .null
  send_canon v := by
    split <;> rfl
  receive
    | .obj [("value", .str s)] => .dict [("value", .str s)]
    | .bool b => .bool b
    | _ => .none

/-- A vendor, as the form saves it. -/
def vendorField : ExtractionFieldResult where
  fieldName := "vendor"
  label := "Vendor"
  dataType := .text
  normalizedValue := .dict [("value", .str "Acme")]

/-- A bill that is not known to be paid. -/
def paidField : ExtractionFieldResult where
  fieldName := "paid"
  label := "Paid"
  dataType := .boolean
  requiresReview := true

def paidResult : ExtractionResult where
  jobId := 1
  resultJson := { emptySummary with extractedFields := [vendorField, paidField] }

theorem paidResult_stored : paidResult.resultJson.Stored where
  extracted := by
    intro f hf
    rcases List.mem_cons.mp hf with rfl | hf
    · exact ⟨rfl, rfl⟩
    · obtain rfl := List.mem_singleton.mp hf
      exact ⟨rfl, rfl⟩
  calculated := by
    intro c hc
    cases hc

/-- The vendor is left alone when the bill is marked as paid. -/
theorem untouched_left_alone_vendor :
    ∃ summary rows,
      reviewOutcome plainRuntime (oneJobDb queuedJob) 1 paidResult
        (saveRequest recordWire [⟨"paid", .bool true, "Updated from extraction workspace"⟩])
        .epoch = .ok (summary, rows) ∧ LeftAlone summary rows vendorField := by
  obtain ⟨summary, rows, hout⟩ : ∃ summary rows,
      reviewOutcome plainRuntime (oneJobDb queuedJob) 1 paidResult
        (saveRequest recordWire [⟨"paid", .bool true, "Updated from extraction workspace"⟩])
        .epoch = .ok (summary, rows) := ⟨_, _, rfl⟩
  have hbuild : buildReviewEditsForResult digitBrowser [("paid", "true")] none
      (paidResult.resultJson.extractedFields.map (sentField recordWire)) =
        .ok [⟨"paid", .bool true, "Updated from extraction workspace"⟩] := rfl
  have hpaid : Touched digitBrowser [("paid", "true")] none (sentField recordWire paidField) := by
    show some "true" ≠ some ""
    decide
  have hchanged : ¬ Unchanged digitBrowser [("paid", "true")] none
      (sentField recordWire paidField) := by
    rintro ⟨parsed, hparsed, hsame⟩
    obtain rfl : Json.bool true = parsed := Except.ok.inj hparsed
    exact absurd hsame (by decide)
  refine ⟨summary, rows, hout, ?_⟩
  refine (untouched_left_alone_iff recordWire digitBrowser [("paid", "true")] none
    paidResult_stored (by decide) hbuild hout).mpr ?_ vendorField List.mem_cons_self
      fun htouched => htouched rfl
  -- The vendor was not touched, and the only edit is about the field that was.
  refine ⟨fun f hf huntouched => ?_,
    Or.inl ⟨paidField, List.mem_cons_of_mem _ List.mem_cons_self, hpaid, hchanged⟩⟩
  rcases List.mem_cons.mp hf with rfl | hf
  · exact Or.inr ⟨"Acme", by decide, rfl⟩
  · obtain rfl := List.mem_singleton.mp hf
    exact absurd hpaid huntouched

end ExtractFlow
