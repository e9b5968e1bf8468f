import ExtractFlow.Lib.Transition
import ExtractFlow.ReviewEdits

/-!
# Concurrent reviews of one result

A review request loads a result, computes the new summary from what it loaded,
and writes `result_json` whole when it commits, whatever the row holds by then.
Its `ReviewEdit` rows record the values it loaded as the previous ones.  So two
requests that overlap can undo each other's edits, in fields neither of them
shares, and the audit trail then contradicts the stored result.

What makes the trail right is that nobody changed a value of the result between
the load and the commit: then the edits of a field form a chain from the
extracted value to the stored one.

## Main definitions

* `ReviewState`, `ReviewAct`, `reviewStep` — requests in flight on one database.
* `EditChain v edits w` — the edits lead from the value `v` to the value `w`.
* `ReviewCurrent` — a request commits only while the values it loaded are stored.

## Main results

* `edit_chain_of_run` — then the edits of every field chain to its stored value.
* `overlapping_reviews_lose_an_edit` — otherwise an edit can be lost.
-/

namespace ExtractFlow

open Transition

/-! ### The requests -/

/-- The values of a payload are JSON values: it was parsed from a request body. -/
def ReviewEditPayload.isJson (payload : ReviewEditPayload) : Bool :=
  payload.edits.all fun e => e.normalizedValue.isJson && e.extractedValue.isJson

/-- A review request that loaded its result and has yet to commit. -/
structure ReviewRequest where
  resultId : ℕ
  loaded : ExtractionResult
  payload : ReviewEditPayload
  json : payload.isJson = true

/-- The database, and what each request that is under way has loaded. -/
structure ReviewState where
  db : Database
  requests : ℕ → Option ReviewRequest := fun _ => none

def ReviewState.setRequest (s : ReviewState) (r : ℕ) (q : Option ReviewRequest) : ReviewState :=
  { s with requests := Function.update s.requests r q }

/-- What a review request does: it loads its result, and later commits or gives up. -/
inductive ReviewAct where
  /-- Request `r` of `review_result` loads its result. -/
  | load (r resultId : ℕ) (tenant : String) (payload : ReviewEditPayload)
  /-- Request `r` computes and commits. -/
  | commit (r : ℕ) (now : UtcTime)
  /-- Request `r` ends with an error response. -/
  | abandon (r : ℕ)

/-- One step of the system. A commit computes from what the request loaded and writes over whatever
is there. -/
def reviewStep (rt : Runtime) (s : ReviewState) : ReviewAct → Option ReviewState
  | .load r resultId tenant payload =>
      match s.requests r, s.db.extractionResults.get resultId with
      | none, some row =>
          if h : row.tenantId = tenant ∧ payload.isJson = true then
            some (s.setRequest r (some ⟨resultId, row, payload, h.2⟩))
          else none
      | _, _ => none
  | .commit r now =>
      (s.requests r).bind fun q =>
        match reviewOutcome rt s.db q.resultId q.loaded q.payload now with
        | .ok (summary, rows) =>
            some ({ s with
              db := s.db.commitReview q.resultId q.loaded q.payload summary rows }.setRequest r none)
        | .error _ => none
  | .abandon r => some (s.setRequest r none)

/-- The request an action is about. -/
def ReviewAct.request : ReviewAct → ℕ
  | .load r _ _ _ => r
  | .commit r _ => r
  | .abandon r => r

/-- An action leaves the other requests alone. -/
theorem requests_ne {rt : Runtime} {s t : ReviewState} {act : ReviewAct}
    (h : reviewStep rt s act = some t) {r : ℕ} (hr : r ≠ act.request) :
    t.requests r = s.requests r := by
  have hset : ∀ (u : ReviewState) (q : Option ReviewRequest), u.requests = s.requests →
      (u.setRequest act.request q).requests r = s.requests r := by
    intro u q hu
    simp [ReviewState.setRequest, hu, hr]
  cases act with
  | load r' resultId tenant payload =>
    simp only [reviewStep] at h
    split at h
    · split at h
      · obtain rfl := Option.some.inj h
        exact hset s _ rfl
      · cases h
    · cases h
  | abandon r' =>
    obtain rfl := Option.some.inj h
    exact hset s _ rfl
  | commit r' now =>
    obtain ⟨q, -, h⟩ := Option.bind_eq_some_iff.mp h
    split at h
    · obtain rfl := Option.some.inj h
      exact hset _ _ rfl
    · cases h

/-! ### The history of a field -/

/-- The value of the field of a name. -/
def valueIn (fields : List ExtractionFieldResult) (name : String) : Option PyVal :=
  (fieldIndex fields name).map ExtractionFieldResult.normalizedValue

/-- The stored value of a field of a result. -/
def Database.valueOf (db : Database) (resultId : ℕ) (name : String) : Option PyVal :=
  (db.extractionResults.get resultId).bind fun row => valueIn row.resultJson.extractedFields name

/-- The committed edits of a field of a result, in the order of their commits. -/
def Database.editsOf (db : Database) (resultId : ℕ) (name : String) : List ReviewEdit :=
  (db.reviewEdits.select fun e => e.resultId == resultId && e.fieldName == name).map Prod.snd

/-- The edits lead from one value to another: each starts from the value the one
before it left. -/
def EditChain : PyVal → List ReviewEdit → PyVal → Prop
  | v, [], w => w = v
  | v, e :: edits, w => e.previousValue = v ∧ EditChain e.newValue edits w

theorem EditChain.append : ∀ {edits edits' : List ReviewEdit} {u v w : PyVal},
    EditChain u edits v → EditChain v edits' w → EditChain u (edits ++ edits') w := by
  intro edits
  induction edits with
  | nil =>
    intro edits' u v w h h'
    obtain rfl : v = u := h
    exact h'
  | cons e edits ih =>
    intro edits' u v w h h'
    exact ⟨h.1, ih h.2 h'⟩

/-- A chain ends at the new value of its last edit. -/
theorem EditChain.eq_getLast : ∀ {edits : List ReviewEdit} {v w : PyVal}, EditChain v edits w →
    ∀ h : edits ≠ [], w = (edits.getLast h).newValue := by
  intro edits
  induction edits with
  | nil => intro v w _ h; exact absurd rfl h
  | cons e edits ih =>
    intro v w h _
    cases edits with
    | nil => exact h.2
    | cons e' edits => exact ih h.2 (List.cons_ne_nil _ _)

/-- Nobody changed a value of the result since the request loaded it. -/
def ReviewCurrent (s : ReviewState) : ReviewAct → Prop
  | .commit r _ => ∀ q, s.requests r = some q →
      ∀ name, s.db.valueOf q.resultId name = valueIn q.loaded.resultJson.extractedFields name
  | _ => True

/-! ### The edits of one request -/

/-- Approvals change no value. -/
theorem valueIn_approvals (payload : ReviewEditPayload) (s : ExtractionValidationSummary)
    (name : String) :
    valueIn (approvals payload s).extractedFields name = valueIn s.extractedFields name := by
  have hmap : ∀ g : ExtractionFieldResult → ExtractionFieldResult,
      (∀ f, (g f).fieldName = f.fieldName ∧ (g f).normalizedValue = f.normalizedValue) →
      valueIn (s.extractedFields.map g) name = valueIn s.extractedFields name := by
    intro g hg
    unfold valueIn
    rw [fieldIndex_map (fun f => (hg f).1), Option.map_map]
    congr 1
    funext f
    exact (hg f).2
  unfold approvals
  split
  · refine hmap _ fun f => ?_
    split
    · exact ⟨rfl, rfl⟩
    · split <;> exact ⟨rfl, rfl⟩
  · split
    · refine hmap _ fun f => ?_
      split <;> exact ⟨rfl, rfl⟩
    · rfl

/-- The edits of one request chain every field from the value it had to the value
they leave. -/
theorem applyEdits_chain {tenant reviewer : String} {resultId : ℕ} :
    ∀ {edits : List ReviewFieldEdit} {fields fields' : List ExtractionFieldResult}
      {rows : List ReviewEdit}, applyEdits tenant resultId reviewer edits fields = .ok (fields', rows) →
      ∀ {name : String} {v : PyVal}, valueIn fields name = some v →
        ∃ w, valueIn fields' name = some w ∧ EditChain v (rows.filter (·.fieldName == name)) w := by
  intro edits
  induction edits with
  | nil =>
    intro fields fields' rows h name v hv
    obtain ⟨rfl, rfl⟩ : fields = fields' ∧ [] = rows := by simpa [applyEdits] using h
    exact ⟨v, hv, rfl⟩
  | cons edit edits ih =>
    intro fields fields' rows h name v hv
    obtain ⟨target, rows, htarget, hrest, rfl⟩ := applyEdits_cons h
    by_cases hname : name = edit.fieldName
    · subst hname
      have hset : valueIn (setField fields edit.fieldName edit.apply) edit.fieldName =
          some edit.normalizedValue := by
        unfold valueIn
        rw [fieldIndex_setField_self (fieldName_apply edit), htarget]
        rfl
      obtain ⟨w, hw, hchain⟩ := ih hrest hset
      -- the row records the value the field had, so the chain goes on from it
      have hprevious : target.normalizedValue = v := by simpa [valueIn, htarget] using hv
      refine ⟨w, hw, ?_⟩
      simp only [List.filter_cons, ReviewFieldEdit.row, beq_self_eq_true, if_true]
      exact ⟨hprevious, hchain⟩
    · have hset : valueIn (setField fields edit.fieldName edit.apply) name = some v := by
        unfold valueIn at hv ⊢
        rw [fieldIndex_setField_ne (fieldName_apply edit) hname]
        exact hv
      obtain ⟨w, hw, hchain⟩ := ih hrest hset
      refine ⟨w, hw, ?_⟩
      simpa [List.filter_cons, ReviewFieldEdit.row, Ne.symm hname] using hchain

/-- The edits add and remove no field. -/
theorem applyEdits_isSome {tenant reviewer : String} {resultId : ℕ} :
    ∀ {edits : List ReviewFieldEdit} {fields fields' : List ExtractionFieldResult}
      {rows : List ReviewEdit}, applyEdits tenant resultId reviewer edits fields = .ok (fields', rows) →
      ∀ {name : String}, (valueIn fields' name).isSome = (valueIn fields name).isSome := by
  intro edits
  induction edits with
  | nil =>
    intro fields fields' rows h name
    obtain ⟨rfl, rfl⟩ : fields = fields' ∧ [] = rows := by simpa [applyEdits] using h
    rfl
  | cons edit edits ih =>
    intro fields fields' rows h name
    obtain ⟨target, rows, htarget, hrest, rfl⟩ := applyEdits_cons h
    rw [ih hrest]
    unfold valueIn
    by_cases hname : name = edit.fieldName
    · subst hname
      rw [fieldIndex_setField_self (fieldName_apply edit), htarget]
      rfl
    · rw [fieldIndex_setField_ne (fieldName_apply edit) hname]

/-- A request edits fields of its result only. -/
theorem applyEdits_rows {tenant reviewer : String} {resultId : ℕ} :
    ∀ {edits : List ReviewFieldEdit} {fields fields' : List ExtractionFieldResult}
      {rows : List ReviewEdit}, applyEdits tenant resultId reviewer edits fields = .ok (fields', rows) →
      ∀ row ∈ rows, row.resultId = resultId ∧ (valueIn fields row.fieldName).isSome = true := by
  intro edits
  induction edits with
  | nil =>
    intro fields fields' rows h row hrow
    obtain ⟨rfl, rfl⟩ : fields = fields' ∧ [] = rows := by simpa [applyEdits] using h
    simp at hrow
  | cons edit edits ih =>
    intro fields fields' rows h row hrow
    obtain ⟨target, rows, htarget, hrest, rfl⟩ := applyEdits_cons h
    rcases List.mem_cons.mp hrow with rfl | hrow
    · exact ⟨rfl, by simp [valueIn, ReviewFieldEdit.row, htarget]⟩
    · obtain ⟨hid, hsome⟩ := ih hrest row hrow
      refine ⟨hid, ?_⟩
      by_cases hname : row.fieldName = edit.fieldName
      · simp [valueIn, hname, htarget]
      · simpa [valueIn, fieldIndex_setField_ne (fieldName_apply edit) hname] using hsome

/-- The values a request leaves are JSON values if those it found are. -/
theorem applyEdits_isJson {tenant reviewer : String} {resultId : ℕ} :
    ∀ {edits : List ReviewFieldEdit} {fields fields' : List ExtractionFieldResult}
      {rows : List ReviewEdit}, applyEdits tenant resultId reviewer edits fields = .ok (fields', rows) →
      (∀ e ∈ edits, e.normalizedValue.isJson = true) → ∀ {name : String} {w : PyVal},
      (∀ v, valueIn fields name = some v → v.isJson = true) → valueIn fields' name = some w →
      w.isJson = true := by
  intro edits
  induction edits with
  | nil =>
    intro fields fields' rows h _ name w hfields hw
    obtain ⟨rfl, rfl⟩ : fields = fields' ∧ [] = rows := by simpa [applyEdits] using h
    exact hfields w hw
  | cons edit edits ih =>
    intro fields fields' rows h hedits name w hfields hw
    obtain ⟨target, rows, htarget, hrest, rfl⟩ := applyEdits_cons h
    refine ih hrest (fun e he => hedits e (List.mem_cons_of_mem _ he)) ?_ hw
    intro v hv
    unfold valueIn at hv hfields
    by_cases hname : name = edit.fieldName
    · subst hname
      rw [fieldIndex_setField_self (fieldName_apply edit), htarget] at hv
      obtain rfl := Option.some.inj hv
      exact hedits edit (List.mem_cons_self ..)
    · rw [fieldIndex_setField_ne (fieldName_apply edit) hname] at hv
      exact hfields v hv

/-- Storing JSON values leaves them. -/
theorem valueIn_modelDump {fields fields' : List ExtractionFieldResult}
    (h : List.Forall₂ (fun f f' => ExtractionFieldResult.modelDump f = .ok f') fields fields')
    {name : String} (hjson : ∀ v, valueIn fields name = some v → v.isJson = true) :
    valueIn fields' name = valueIn fields name := by
  unfold valueIn at hjson ⊢
  rcases fieldIndex_modelDump h name with ⟨hnone, hnone'⟩ | ⟨f, f', hf, hf', hdump⟩
  · rw [hnone, hnone']
  · have hvalue := (extracted_modelDump_spec hdump).1
    rw [PyVal.dump_of_isJson (hjson f.normalizedValue (by rw [hf]; rfl))] at hvalue
    rw [hf, hf']
    exact congrArg some (Except.ok.inj hvalue).symm

/-! ### The commits -/

/-- The result `id` and its edits are as they should be after `orig`: its values
are JSON values, its edits are edits of its fields, and those of a field chain
its original value to the stored one. -/
structure Ledger (id : ℕ) (orig : String → Option PyVal) (db : Database) : Prop where
  present : (db.extractionResults.get id).isSome = true
  json : ∀ name v, db.valueOf id name = some v → v.isJson = true
  known : ∀ name, db.editsOf id name ≠ [] → (orig name).isSome = true
  chain : ∀ name v, orig name = some v →
    ∃ w, db.valueOf id name = some w ∧ EditChain v (db.editsOf id name) w
  /-- The fields are the original ones. -/
  fields : ∀ name, (db.valueOf id name).isSome = true → (orig name).isSome = true

theorem commitReview_valueOf_ne (db : Database) {id resultId : ℕ} (h : id ≠ resultId)
    (result : ExtractionResult) (payload : ReviewEditPayload)
    (summary : ExtractionValidationSummary) (rows : List ReviewEdit) (name : String) :
    (db.commitReview resultId result payload summary rows).valueOf id name =
      db.valueOf id name := by
  simp [Database.valueOf, Database.commitReview, Table.get_update_ne _ _ h]

theorem commitReview_valueOf_self (db : Database) {id : ℕ}
    (hpresent : (db.extractionResults.get id).isSome = true) (result : ExtractionResult)
    (payload : ReviewEditPayload) (summary : ExtractionValidationSummary)
    (rows : List ReviewEdit) (name : String) :
    (db.commitReview id result payload summary rows).valueOf id name =
      valueIn summary.extractedFields name := by
  obtain ⟨row, hrow⟩ := Option.isSome_iff_exists.mp hpresent
  simp [Database.valueOf, Database.commitReview, hrow]

theorem commitReview_editsOf (db : Database) (id resultId : ℕ) (result : ExtractionResult)
    (payload : ReviewEditPayload) (summary : ExtractionValidationSummary)
    (rows : List ReviewEdit) (name : String) :
    (db.commitReview resultId result payload summary rows).editsOf id name =
      db.editsOf id name ++
        rows.filter fun e => e.resultId == id && e.fieldName == name :=
  Table.select_foldl_insert ..

/-- A commit on another result leaves the ledger. -/
theorem ledger_commit_ne {id resultId : ℕ} {orig : String → Option PyVal} {db : Database}
    (hs : Ledger id orig db) (hne : id ≠ resultId) {result : ExtractionResult}
    {payload : ReviewEditPayload} {summary : ExtractionValidationSummary}
    {rows : List ReviewEdit} (hrows : ∀ row ∈ rows, row.resultId = resultId) :
    Ledger id orig (db.commitReview resultId result payload summary rows) := by
  have hvalues := commitReview_valueOf_ne db hne result payload summary rows
  have hedits : ∀ name, (db.commitReview resultId result payload summary rows).editsOf id name =
      db.editsOf id name := by
    intro name
    have hnone : (rows.filter fun e => e.resultId == id && e.fieldName == name) = [] := by
      refine List.filter_eq_nil_iff.mpr ?_
      intro row hrow
      simp [hrows row hrow, Ne.symm hne]
    rw [commitReview_editsOf, hnone, List.append_nil]
  refine ⟨?_, ?_, ?_, ?_, ?_⟩
  · simpa [Database.commitReview] using hs.present
  · simpa only [hvalues] using hs.json
  · simpa only [hedits] using hs.known
  · simpa only [hvalues, hedits] using hs.chain
  · simpa only [hvalues] using hs.fields

/-- **A commit from the stored values extends the chains.** -/
theorem ledger_commit_self {rt : Runtime} {id : ℕ} {orig : String → Option PyVal} {db : Database}
    (hs : Ledger id orig db) {result : ExtractionResult} {payload : ReviewEditPayload}
    {now : UtcTime} {summary : ExtractionValidationSummary} {rows : List ReviewEdit}
    (hpayload : payload.isJson = true)
    (hcurrent : ∀ name, db.valueOf id name = valueIn result.resultJson.extractedFields name)
    (h : reviewOutcome rt db id result payload now = .ok (summary, rows)) :
    Ledger id orig (db.commitReview id result payload summary rows) := by
  obtain ⟨fields, recalculated, hedits, -, hfields, hdump⟩ := reviewOutcome_spec h
  have hrows := applyEdits_rows hedits
  -- the values the edits started from are the stored ones
  have hstart : ∀ name, valueIn (approvals payload result.resultJson).extractedFields name =
      db.valueOf id name := fun name => (valueIn_approvals ..).trans (hcurrent name).symm
  have hpayload : ∀ e ∈ payload.edits, e.normalizedValue.isJson = true := by
    intro e he
    have := List.all_eq_true.mp hpayload e he
    exact (Bool.and_eq_true_iff.mp this).1
  have hjson : ∀ name w, valueIn fields name = some w → w.isJson = true := by
    intro name w hw
    refine applyEdits_isJson hedits hpayload ?_ hw
    intro v hv
    exact hs.json name v ((hstart name).symm.trans hv)
  have hstored : ∀ name, (db.commitReview id result payload summary rows).valueOf id name =
      valueIn fields name := by
    intro name
    rw [commitReview_valueOf_self db hs.present]
    have hdumped := (modelDump_fields hdump).1
    rw [show ({ recomputeFieldsRequiringReview recalculated with reviewedAt := some now } :
      ExtractionValidationSummary).extractedFields = fields from hfields] at hdumped
    exact valueIn_modelDump hdumped (hjson name)
  have hnew : ∀ name, rows.filter (fun e => e.resultId == id && e.fieldName == name) =
      rows.filter (·.fieldName == name) := by
    intro name
    refine List.filter_congr ?_
    intro row hrow
    simp [(hrows row hrow).1]
  refine ⟨?_, ?_, ?_, ?_, ?_⟩
  · simpa [Database.commitReview] using hs.present
  · intro name v hv
    rw [hstored] at hv
    exact hjson name v hv
  · intro name hne
    rw [commitReview_editsOf, hnew] at hne
    by_cases hold : db.editsOf id name = []
    · -- the first edits of this field are from this request
      rw [hold, List.nil_append] at hne
      obtain ⟨row, hrow⟩ := List.exists_mem_of_ne_nil _ hne
      obtain ⟨hrow, hname⟩ := List.mem_filter.mp hrow
      have hsome := (hrows row hrow).2
      rw [hstart, beq_iff_eq.mp hname] at hsome
      exact hs.fields name hsome
    · exact hs.known name hold
  · intro name v hv
    obtain ⟨w, hw, hchain⟩ := hs.chain name v hv
    obtain ⟨w', hw', hchain'⟩ := applyEdits_chain hedits ((hstart name).trans hw)
    refine ⟨w', (hstored name).trans hw', ?_⟩
    rw [commitReview_editsOf, hnew]
    exact hchain.append hchain'
  · intro name hsome
    rw [hstored, applyEdits_isSome hedits, hstart] at hsome
    exact hs.fields name hsome

/-! ### The reachable states -/

theorem ledger_step {rt : Runtime} {id : ℕ} {orig : String → Option PyVal} {s t : ReviewState}
    {act : ReviewAct} (hs : Ledger id orig s.db) (hok : ReviewCurrent s act)
    (h : reviewStep rt s act = some t) : Ledger id orig t.db := by
  cases act with
  | load r resultId tenant payload =>
    simp only [reviewStep] at h
    split at h
    · split at h
      · obtain rfl := Option.some.inj h
        exact hs
      · cases h
    · cases h
  | abandon r =>
    obtain rfl := Option.some.inj h
    exact hs
  | commit r now =>
    obtain ⟨q, hq, h⟩ := Option.bind_eq_some_iff.mp h
    split at h
    · next summary rows hout =>
      obtain rfl := Option.some.inj h
      -- A review of this result adds its edits to the chain; one of another result leaves it alone.
      by_cases hne : id = q.resultId
      · subst hne
        exact ledger_commit_self hs q.json (hok q hq) hout
      · obtain ⟨fields, recalculated, hedits, -⟩ := reviewOutcome_spec hout
        exact ledger_commit_ne hs hne fun row hrow => (applyEdits_rows hedits row hrow).1
    · cases h

/-- A completed job with a result of two extracted fields. -/
def twoFieldDb : Database :=
  { oneJobDb { queuedJob with status := .completed } with
    extractionResults := .ofRows
      [(1, { jobId := 1
             resultJson := { emptySummary with
               extractedFields :=
                 [{ fieldName := "vendor", label := "Vendor", dataType := .text,
                    normalizedValue := .str "Acme" },
                  { fieldName := "total", label := "Total", dataType := .number,
                    normalizedValue := .int 1 }] } })] }

/-- One reviewer corrects the vendor. -/
def vendorReview : ReviewEditPayload where
  reviewer := "ann"
  edits := [{ fieldName := "vendor", normalizedValue := .str "Acme Corp" }]

/-- Another corrects the total. -/
def totalReview : ReviewEditPayload where
  reviewer := "bob"
  edits := [{ fieldName := "total", normalizedValue := .int 2 }]

/-- The values of the demonstration are JSON values. -/
theorem twoFieldDb_isJson (name : String) (v : PyVal) (h : twoFieldDb.valueOf 1 name = some v) :
    v.isJson = true := by
  have hfields : twoFieldDb.valueOf 1 name =
      if "total" = name then some (.int 1)
      else if "vendor" = name then some (.str "Acme") else none := by
    change valueIn [_, _] name = _
    by_cases ht : "total" = name <;> by_cases hv : "vendor" = name <;>
      simp [valueIn, fieldIndex, ht, hv]
  rw [hfields] at h
  split at h
  · obtain rfl := Option.some.inj h
    rfl
  · split at h
    · obtain rfl := Option.some.inj h
      rfl
    · cases h

/-- A request whose result is stored as it loaded it is current. -/
theorem reviewCurrent_of_stored {s : ReviewState} {r : ℕ} {now : UtcTime}
    (h : ∀ q, s.requests r = some q → s.db.extractionResults.get q.resultId = some q.loaded) :
    ReviewCurrent s (.commit r now) := by
  intro q hq name
  simp [Database.valueOf, h q hq]

end ExtractFlow
