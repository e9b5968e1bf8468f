import ExtractFlow.StoredResults

/-!
# The audit trail

A review, a retry, a cancellation and the two ends of a job each write their rows
and one audit event in one commit.  So the log can be held against the tables:
the edits it speaks of are the rows of `review_edits`, one for one and in order,
a job has a final status only if an event says so, and a completion names the
result its job still has.

The commits of uploads, of new jobs and of exports add their event after the row
is committed; they add no event of these kinds.

## Main definitions

* `EditLine`, `AuditEvent.editLines` — what an event says of the edits of a review.
* `JobStatus.action` — the action of the event behind a final status.
* `Logged` — the log agrees with the tables.
* `LogWrite db event db'` — a commit with at most one event, which says what it did.

## Main results

* `Logged.write` — such a commit keeps the log in agreement.
* `audit_trail_of_run` — the log agrees with the tables in every reachable state.
-/

namespace ExtractFlow

open Transition Table

/-! ### What the log says -/

/-- An edit of a field in a review, as the log and the table both have it. -/
structure EditLine where
  tenantId : String
  resultId : ℕ
  reviewer : String
  fieldName : String
  deriving DecidableEq, Repr

def ReviewEdit.line (e : ReviewEdit) : EditLine where
  tenantId := e.tenantId
  resultId := e.resultId
  reviewer := e.reviewer
  fieldName := e.fieldName

/-- The text of a JSON string. -/
def PyVal.text? : PyVal → Option String
  | .str s => some s
  | _ => Option.none

/-- The `field_names` of the metadata. -/
def AuditEvent.fieldNames (e : AuditEvent) : List String :=
  match PyVal.dictGet e.metadata "field_names" with
  | some (.list names) => names.filterMap PyVal.text?
  | _ => []

/-- The edits an event speaks of: those of a review, made by its actor. -/
def AuditEvent.editLines (e : AuditEvent) : List EditLine :=
  if e.action = "review.saved" then
    e.fieldNames.map fun name => ⟨e.tenantId, e.objectId, e.actor, name⟩
  else []

theorem editLines_of_ne {e : AuditEvent} (h : e.action ≠ "review.saved") : e.editLines = [] :=
  if_neg h

/-- The action of the event behind a final status. A job that waits or runs has none. -/
def JobStatus.action : JobStatus → Option String
  | .completed => some "job.completed"
  | .failed => some "job.failed"
  | .cancelled => some "job.cancelled"
  | .queued | .running => none

/-- The event says that a job of the tenant came to its status by the action. -/
structure AuditEvent.Explains (e : AuditEvent) (tenant action : String) (job : ℕ) : Prop where
  tenant : e.tenantId = tenant
  action : e.action = action
  objectType : e.objectType = "job"
  object : e.objectId = job

/-- The event names the one result its job has. -/
def AuditEvent.NamesResult (db : Database) (e : AuditEvent) : Prop :=
  ∃ id result, PyVal.dictGet e.metadata "result_id" = some (.int (id : ℕ)) ∧
    db.resultsOf e.objectId = [(id, result)]

/-- **The log agrees with the tables**: its edits are those of `review_edits`, every final
status has its event, and a completion names the one result of its job. -/
structure Logged (db : Database) : Prop where
  edits : db.reviewEdits.rows.map (fun p => p.2.line) =
    db.auditEvents.rows.flatMap fun p => p.2.editLines
  jobs : ∀ j row action, db.extractionJobs.get j = some row → row.status.action = some action →
    ∃ id e, db.auditEvents.get id = some e ∧ e.Explains row.tenantId action j
  completions : ∀ id e, db.auditEvents.get id = some e → e.action = "job.completed" →
    e.NamesResult db
  single : ∀ j, (db.resultsOf j).length ≤ 1

/-! ### Commits with at most one event -/

/-- **A commit whose event, if any, says what it did**: its edits are those of the event, a job
it gives a final status is the event's, and a completion it reports left a result. -/
structure LogWrite (db : Database) (event : Option AuditEvent) (db' : Database) : Prop where
  events : db'.auditEvents = event.elim db.auditEvents db.auditEvents.insert
  edits : db'.reviewEdits.rows.map (fun p => p.2.line) =
    db.reviewEdits.rows.map (fun p => p.2.line) ++ event.elim [] AuditEvent.editLines
  results : ∀ j id r, db.resultsOf j = [(id, r)] → ∃ r', db'.resultsOf j = [(id, r')]
  single : ∀ j, (db.resultsOf j).length ≤ 1 → (db'.resultsOf j).length ≤ 1
  jobs : ∀ j row action, db'.extractionJobs.get j = some row → row.status.action = some action →
    (∃ row', db.extractionJobs.get j = some row' ∧ row'.status = row.status ∧
      row'.tenantId = row.tenantId) ∨ ∃ e, event = some e ∧ e.Explains row.tenantId action j
  completion : ∀ e, event = some e → e.action = "job.completed" → e.NamesResult db'

section LogWrites

variable {db db' : Database} {event : Option AuditEvent}

/-- The events that were there stay. -/
theorem LogWrite.event_stays (h : LogWrite db event db') {id : ℕ} {e : AuditEvent}
    (he : db.auditEvents.get id = some e) : db'.auditEvents.get id = some e := by
  rw [h.events]
  cases event with
  | none => exact he
  | some e' => exact get_insert_of_get e' he

/-- An event after the commit was there before, or is the commit's own. -/
theorem LogWrite.event_cases (h : LogWrite db event db') {id : ℕ} {e : AuditEvent}
    (he : db'.auditEvents.get id = some e) : db.auditEvents.get id = some e ∨ event = some e := by
  rw [h.events] at he
  cases event with
  | none => exact Or.inl he
  | some e' =>
    have he : (db.auditEvents.insert e').get id = some e := he
    by_cases hid : id = db.auditEvents.nextId
    · subst hid
      rw [get_insert_self] at he
      exact Or.inr he
    · rw [get_insert_ne _ _ hid] at he
      exact Or.inl he

/-- **Such a commit keeps the log in agreement**, since it adds to both sides alike. -/
theorem Logged.write (hlog : Logged db) (h : LogWrite db event db') : Logged db' := by
  refine ⟨?_, fun j row action hrow haction => ?_, fun id e he haction => ?_,
    fun j => h.single j (hlog.single j)⟩
  · rw [h.edits, hlog.edits, h.events]
    cases event with
    | none => simp
    | some e => simp [Table.insert]
  · rcases h.jobs j row action hrow haction with ⟨row', hrow', hstatus, htenant⟩ | ⟨e, rfl, he⟩
    · obtain ⟨id, e, he, hexplains⟩ := hlog.jobs j row' action hrow' (hstatus ▸ haction)
      exact ⟨id, e, h.event_stays he, htenant ▸ hexplains⟩
    · refine ⟨db.auditEvents.nextId, e, ?_, he⟩
      rw [h.events]
      exact get_insert_self _ _
  · rcases h.event_cases he with hold | hnew
    · obtain ⟨rid, result, hmetadata, hresult⟩ := hlog.completions id e hold haction
      obtain ⟨result', hresult'⟩ := h.results _ _ _ hresult
      exact ⟨rid, result', hmetadata, hresult'⟩
    · exact h.completion e hnew haction

/-- A commit to other tables, with an event of another kind. -/
theorem logWrite_of_eq (hevents : db'.auditEvents = event.elim db.auditEvents db.auditEvents.insert)
    (hedits : db'.reviewEdits = db.reviewEdits)
    (hresults : db'.extractionResults = db.extractionResults)
    (hjobs : ∀ j row action, db'.extractionJobs.get j = some row →
      row.status.action = some action →
      (∃ row', db.extractionJobs.get j = some row' ∧ row'.status = row.status ∧
        row'.tenantId = row.tenantId) ∨ ∃ e, event = some e ∧ e.Explains row.tenantId action j)
    (hkind : ∀ e, event = some e → e.action ≠ "review.saved" ∧ e.action ≠ "job.completed") :
    LogWrite db event db' where
  events := hevents
  edits := by
    rw [hedits]
    cases event with
    | none => simp
    -- An event of another kind tells of no edit.
    | some e => simp [editLines_of_ne (hkind e rfl).1]
  results := by
    intro j id r h
    refine ⟨r, ?_⟩
    unfold Database.resultsOf at h ⊢
    rwa [hresults]
  single := by
    intro j h
    unfold Database.resultsOf at h ⊢
    rwa [hresults]
  jobs := hjobs
  completion := fun e he haction => absurd haction (hkind e he).2

/-- The jobs stay. -/
theorem jobs_of_eq (hjobs : db'.extractionJobs = db.extractionJobs) :
    ∀ j row action, db'.extractionJobs.get j = some row → row.status.action = some action →
      (∃ row', db.extractionJobs.get j = some row' ∧ row'.status = row.status ∧
        row'.tenantId = row.tenantId) ∨ ∃ e, event = some e ∧ e.Explains row.tenantId action j := by
  intro j row action hrow _
  rw [hjobs] at hrow
  exact Or.inl ⟨row, hrow, rfl, rfl⟩

/-- A commit that writes neither jobs nor events. -/
theorem logWrite_none (hevents : db'.auditEvents = db.auditEvents)
    (hedits : db'.reviewEdits = db.reviewEdits)
    (hresults : db'.extractionResults = db.extractionResults)
    (hjobs : db'.extractionJobs = db.extractionJobs) : LogWrite db none db' := by
  refine logWrite_of_eq hevents hedits hresults (jobs_of_eq hjobs) fun e he => ?_
  cases he

/-- The flush of a job: its status stays, is not final, or is explained by the event. -/
theorem jobs_of_flush {job : ℕ} {loaded new : ExtractionJob}
    (h : ∀ stored action, db.extractionJobs.get job = some stored →
      new.status ≠ loaded.status → new.status.action = some action →
      ∃ e, event = some e ∧ e.Explains stored.tenantId action job) :
    ∀ j row action,
      (db.extractionJobs.update job (ExtractionJob.flush loaded new)).get j = some row →
      row.status.action = some action →
      (∃ row', db.extractionJobs.get j = some row' ∧ row'.status = row.status ∧
        row'.tenantId = row.tenantId) ∨ ∃ e, event = some e ∧ e.Explains row.tenantId action j := by
  intro j row action hrow haction
  by_cases hj : j = job
  · subst hj
    rw [get_update_self] at hrow
    obtain ⟨stored, hstored, rfl⟩ := Option.map_eq_some_iff.mp hrow
    rw [flush_status] at haction
    by_cases hsame : new.status = loaded.status
    · refine Or.inl ⟨stored, hstored, ?_, rfl⟩
      rw [flush_status, hsame, writeBack_same]
    · rw [writeBack_of_ne hsame] at haction
      exact Or.inr (h stored action hstored hsame haction)
  · rw [get_update_ne _ _ hj] at hrow
    exact Or.inl ⟨row, hrow, rfl, rfl⟩

end LogWrites

/-! ### The commits of the requests -/

section Requests

variable {db : Database}

theorem createTemplate_log (name description documentType : String)
    (definition : ExtractionTemplate) (tenant : String) (createdAt : ℕ) :
    LogWrite db none
      (db.createTemplate name description documentType definition tenant createdAt) :=
  logWrite_none rfl rfl rfl rfl

theorem setSuggestionDismissed_log {db' : Database} {versionId id : ℕ}
    {version : TemplateVersion} {key : String} {dismissed : Bool}
    (h : db.setSuggestionDismissed versionId version key dismissed = some (db', id)) :
    LogWrite db none db' := by
  unfold Database.setSuggestionDismissed at h
  split at h
  · obtain ⟨rfl, -⟩ := Prod.mk.inj (Option.some.inj h)
    exact logWrite_none rfl rfl rfl rfl
  · split at h
    · obtain ⟨rfl, -⟩ := Prod.mk.inj (Option.some.inj h)
      exact logWrite_none rfl rfl rfl rfl
    · cases h

theorem uploadDocument_log (db : Database) (tenant actor filename contentType reference : String) :
    ∃ event, LogWrite db event
      (db.uploadDocument tenant actor filename contentType reference) := by
  refine ⟨some _, logWrite_of_eq rfl rfl rfl (jobs_of_eq rfl) fun e he => ?_⟩
  obtain rfl := Option.some.inj he
  exact ⟨by simp, by simp⟩

theorem createJob_log (tenant actor : String) (document version : ℕ)
    (override : Option LLMProviderSettings) (createdAt : ℕ) :
    ∃ event, LogWrite db event
      (db.createJob tenant actor document version override createdAt) := by
  refine ⟨some _, logWrite_of_eq rfl rfl rfl (fun j row action hrow haction => ?_) fun e he => ?_⟩
  · by_cases hj : j = db.extractionJobs.nextId
    · -- the new job is queued
      subst hj
      have hrow : (db.extractionJobs.insert _).get db.extractionJobs.nextId = some row := hrow
      rw [get_insert_self] at hrow
      obtain rfl := Option.some.inj hrow
      cases haction
    · have hrow : (db.extractionJobs.insert _).get j = some row := hrow
      rw [get_insert_ne _ _ hj] at hrow
      exact Or.inl ⟨row, hrow, rfl, rfl⟩
  · obtain rfl := Option.some.inj he
    exact ⟨by simp, by simp⟩

/-- A retry leaves no final status, and a cancellation reports its own. -/
theorem commitRequest_log {tenant : String} {q : Request} (h : RequestOwned tenant db q)
    (actor : String) : ∃ event, LogWrite db event (db.commitRequest actor q) := by
  cases q with
  | retry job loaded document checked =>
    refine ⟨some _, logWrite_of_eq rfl rfl rfl (jobs_of_flush ?_) fun e he => ?_⟩
    · intro stored action _ _ haction
      cases haction
    · obtain rfl := Option.some.inj he
      exact ⟨by simp, by simp⟩
  | cancel job loaded document checked =>
    refine ⟨some _, logWrite_of_eq rfl rfl rfl (jobs_of_flush ?_) fun e he => ?_⟩
    · intro stored action hstored _ haction
      refine ⟨_, rfl, ?_, Option.some.inj haction, rfl, rfl⟩
      have htenant : stored.tenantId = tenant := h.job.tenant hstored
      exact h.loaded.trans htenant.symm
    · obtain rfl := Option.some.inj he
      exact ⟨by simp, by simp⟩

theorem commitExport_log (result : ExtractionResult) (record : ExportRecord) :
    ∃ event, LogWrite db event (db.commitExport result record) := by
  refine ⟨some _, logWrite_of_eq rfl rfl rfl (jobs_of_eq rfl) fun e he => ?_⟩
  obtain rfl := Option.some.inj he
  exact ⟨by simp, by simp⟩

/-- The rows of the edits, as lines. -/
theorem applyEdits_lines {tenant reviewer : String} {resultId : ℕ} {edits : List ReviewFieldEdit} :
    ∀ {fields fields' : List ExtractionFieldResult} {rows : List ReviewEdit},
      applyEdits tenant resultId reviewer edits fields = .ok (fields', rows) →
      rows.map ReviewEdit.line =
        edits.map fun e => ⟨tenant, resultId, reviewer, e.fieldName⟩ := by
  induction edits with
  | nil =>
    intro fields fields' rows h
    obtain ⟨-, rfl⟩ := Prod.mk.inj (Except.ok.inj h)
    rfl
  | cons edit edits ih =>
    intro fields fields' rows h
    obtain ⟨target, rows', -, hrest, rfl⟩ := applyEdits_cons h
    rw [List.map_cons, List.map_cons, ih hrest]
    rfl

/-- The metadata of a review lists its edits. -/
theorem fieldNames_review (resultId : ℕ) (result : ExtractionResult) (payload : ReviewEditPayload)
    (tenant actor : String) :
    AuditEvent.fieldNames
      { tenantId := tenant, actor := actor, action := "review.saved", objectType := "result"
        objectId := resultId, metadata := reviewMetadata db resultId result payload } =
      payload.edits.map ReviewFieldEdit.fieldName := by
  show (payload.edits.map fun e => PyVal.str e.fieldName).filterMap PyVal.text? = _
  rw [List.filterMap_map]
  show payload.edits.filterMap (fun e => some e.fieldName) = _
  simp [List.filterMap_eq_map']

/-- The rows after several inserts. -/
theorem map_insertAll {ρ β : Type} (g : ρ → β) : ∀ (rs : List ρ) (t : Table ρ),
    (rs.foldl Table.insert t).rows.map (fun p => g p.2) =
      t.rows.map (fun p => g p.2) ++ rs.map g := by
  intro rs
  induction rs with
  | nil => simp
  | cons r rs ih =>
    intro t
    rw [List.foldl_cons, ih]
    simp [Table.insert]

/-- **The commit of a review** adds the edits its event lists. -/
theorem commitReview_log {rt : Runtime} {resultId : ℕ} {loaded : ExtractionResult}
    {payload : ReviewEditPayload} {now : UtcTime} {summary : ExtractionValidationSummary}
    {rows : List ReviewEdit}
    (hout : reviewOutcome rt db resultId loaded payload now = .ok (summary, rows)) :
    ∃ event, LogWrite db event (db.commitReview resultId loaded payload summary rows) := by
  obtain ⟨fields, recalculated, hedits, -⟩ := reviewOutcome_spec hout
  have hupdated : ∀ j, (db.commitReview resultId loaded payload summary rows).resultsOf j =
      updateRows (db.resultsOf j) resultId fun r =>
        { r with resultJson := summary, reviewStatus := .reviewed } :=
    fun _ => select_update fun _ => rfl
  refine ⟨some _, rfl, ?_, ?_, fun j hj => ?_, jobs_of_eq rfl, fun e he haction => ?_⟩
  · show (rows.foldl Table.insert db.reviewEdits).rows.map (fun p => p.2.line) = _
    rw [map_insertAll ReviewEdit.line, applyEdits_lines hedits]
    simp only [Option.elim_some, AuditEvent.editLines, if_true, fieldNames_review, List.map_map]
    rfl
  · intro j id r hresult
    rw [hupdated, hresult]
    simp only [updateRows, List.map_cons, List.map_nil]
    split
    · exact ⟨_, rfl⟩
    · exact ⟨r, rfl⟩
  · rw [hupdated]
    simpa [updateRows] using hj
  · obtain rfl := Option.some.inj he
    exact absurd haction (by simp)

end Requests

/-! ### The commits of the workers -/

section Workers

variable {db db' : Database} {job : ℕ}

/-- What is saved for a job is its one result, under the key it had if it had one. -/
theorem saveResult_named (h : (db.resultsOf job).length ≤ 1) (tenant : String)
    (summary : ExtractionValidationSummary) :
    (∃ r, (db.saveResult job tenant summary).1.resultsOf job =
      [((db.saveResult job tenant summary).2, r)]) ∧
    ∀ id r, db.resultsOf job = [(id, r)] → (db.saveResult job tenant summary).2 = id := by
  unfold Database.saveResult
  split
  · next hrows =>
    have hempty : (db.extractionResults.select fun r => r.jobId == job) = [] := hrows
    refine ⟨⟨{ tenantId := tenant, jobId := job, resultJson := summary }, ?_⟩, fun id r hr => ?_⟩
    · simp [Database.resultsOf, hempty]
    · rw [hrows] at hr
      cases hr
  · next id row rest hrows =>
    obtain rfl : rest = [] := by simpa [hrows] using h
    refine ⟨⟨{ row with tenantId := tenant, resultJson := summary, reviewStatus := .pending }, ?_⟩,
      fun id' r hr => ?_⟩
    · refine (resultsOf_update db job id tenant summary).trans ?_
      simp [hrows, updateRows]
    · rw [hrows] at hr
      simp only [List.cons.injEq, Prod.mk.injEq, and_true] at hr
      exact hr.1

/-- **The commit that completes a job** logs it with the result it wrote, new or rewritten. -/
theorem commitCompletion_log (hsingle : (db.resultsOf job).length ≤ 1)
    {stored loaded : ExtractionJob} (hget : db.extractionJobs.get job = some stored)
    (summary : ExtractionValidationSummary) :
    ∃ event, LogWrite db event (db.commitCompletion job stored loaded summary) := by
  obtain ⟨⟨r, hresult⟩, hkey⟩ := saveResult_named hsingle stored.tenantId summary
  have hresultsOf : ∀ j, (db.commitCompletion job stored loaded summary).resultsOf j =
      (db.saveResult job stored.tenantId summary).1.resultsOf j := fun _ => rfl
  have hother : (db.saveResult job stored.tenantId summary).1.auditEvents = db.auditEvents ∧
      (db.saveResult job stored.tenantId summary).1.reviewEdits = db.reviewEdits := by
    unfold Database.saveResult
    split <;> exact ⟨rfl, rfl⟩
  -- The result of the job is the one just saved, whether the row was there before or not.
  let event : AuditEvent :=
    { tenantId := stored.tenantId, actor := "worker", action := "job.completed"
      objectType := "job", objectId := job
      metadata := [("job_id", .int job), ("document_id", .int stored.documentId),
        ("result_id", .int (db.saveResult job stored.tenantId summary).2)] }
  refine ⟨some event, ?_, ?_, ?_, fun j hj => ?_, ?_, ?_⟩
  · show (db.saveResult job stored.tenantId summary).1.auditEvents.insert event = _
    rw [hother.1]
    rfl
  · show (db.saveResult job stored.tenantId summary).1.reviewEdits.rows.map _ = _
    rw [hother.2, Option.elim_some, editLines_of_ne (by simp [event]), List.append_nil]
  · intro j id r' hj
    rw [hresultsOf]
    by_cases hne : j = job
    · subst hne
      exact ⟨r, by rw [hresult, hkey id r' hj]⟩
    · exact ⟨r', by rw [saveResult_resultsOf_ne db hne, hj]⟩
  · rw [hresultsOf]
    by_cases hne : j = job
    · rw [hne, hresult]
      simp
    · rwa [saveResult_resultsOf_ne db hne]
  · intro j row action hrow haction
    rw [commitCompletion_jobs] at hrow
    refine jobs_of_flush (fun stored' action' hstored' _ haction' => ?_) j row action hrow haction
    obtain rfl := Option.some.inj (hget.symm.trans hstored')
    exact ⟨event, rfl, rfl, Option.some.inj haction', rfl, rfl⟩
  · intro e he _
    obtain rfl := Option.some.inj he
    exact ⟨_, r, rfl, (hresultsOf job).trans hresult⟩

/-- **A step of `process_once`** is such a commit, unless it gives up a job whose document or
template version is missing. -/
theorem ProcessMove.log {stored : ExtractionJob} {pc : Pc} {act : WorkerAct} {pc' : Option Pc}
    (hmove : ProcessMove job db stored pc act db' pc')
    (hget : db.extractionJobs.get job = some stored)
    (hsingle : (db.resultsOf job).length ≤ 1) (hpc : ∀ loaded, pc ≠ .missing loaded) :
    ∃ event, LogWrite db event db' := by
  have hflush : ∀ (loaded : ExtractionJob) (stage : JobStage),
      ∀ j row action, (db.extractionJobs.update job
          (ExtractionJob.flush loaded (loaded.atStage stage))).get j = some row →
        row.status.action = some action →
        (∃ row', db.extractionJobs.get j = some row' ∧ row'.status = row.status ∧
          row'.tenantId = row.tenantId) ∨
          ∃ e, (none : Option AuditEvent) = some e ∧ e.Explains row.tenantId action j :=
    fun loaded stage => jobs_of_flush fun _ _ _ hne _ => absurd rfl hne
  have hquiet : ∀ e : AuditEvent, none = some e →
      e.action ≠ "review.saved" ∧ e.action ≠ "job.completed" := by
    intro e he
    cases he
  -- A report of progress changes no status, and the two ends of a job log themselves.
  cases hmove
  case missing loaded => exact absurd rfl (hpc loaded)
  case start loaded document =>
    exact ⟨none, logWrite_of_eq rfl rfl rfl (hflush loaded .parsing) hquiet⟩
  case report loaded stage stages =>
    exact ⟨none, logWrite_of_eq rfl rfl rfl (hflush loaded stage) hquiet⟩
  case complete loaded result => exact commitCompletion_log hsingle hget result
  case fail committed loaded msg =>
    refine ⟨some _, logWrite_of_eq rfl rfl rfl (jobs_of_flush ?_) fun e he => ?_⟩
    · intro stored' action hstored' _ haction
      obtain rfl := Option.some.inj (hget.symm.trans hstored')
      exact ⟨_, rfl, rfl, Option.some.inj haction, rfl, rfl⟩
    · obtain rfl := Option.some.inj he
      exact ⟨by simp, by simp⟩
  all_goals exact ⟨none, logWrite_none rfl rfl rfl rfl⟩

end Workers

/-! ### The system -/

/-- **The invariant**: the log agrees with the tables, and no worker gives up a job for a missing
document or template version. -/
structure LogInv (s : TenantState) : Prop where
  tenants : TenantInv s
  logged : Logged s.db
  workers : ∀ w j loaded, s.queue.workers w ≠ .busy j (.missing loaded)

section Steps

variable {cfg : TenantConfig} {s t : TenantState}

/-- The claim of a job gives it no final status. -/
theorem claim_log (db : Database) (j w : ℕ) :
    LogWrite db none { db with extractionJobs := db.extractionJobs.update j (·.claim w) } := by
  refine logWrite_of_eq rfl rfl rfl (fun j' row action hrow haction => ?_) fun e he => ?_
  · by_cases hj : j' = j
    · subst hj
      have hrow : (db.extractionJobs.update j' (·.claim w)).get j' = some row := hrow
      rw [get_update_self] at hrow
      obtain ⟨stored, -, rfl⟩ := Option.map_eq_some_iff.mp hrow
      cases haction
    · have hrow : (db.extractionJobs.update j (·.claim w)).get j' = some row := hrow
      rw [get_update_ne _ _ hj] at hrow
      exact Or.inl ⟨row, hrow, rfl, rfl⟩
  · cases he

/-- **The steps of the workers.** -/
theorem logInv_worker (hs : LogInv s) {w : ℕ} {act : WorkerAct} {queue : QueueState}
    (hstep : workerStep s.queue w act = some queue)
    (htenants : TenantInv { s with queue := queue }) : LogInv { s with queue := queue } := by
  have hmoved : ∀ {db' : Database} {ph : Phase} {event : Option AuditEvent} (writer : Option ℕ),
      LogWrite s.db event db' → (∀ j loaded, ph ≠ .busy j (.missing loaded)) →
      queue = { s.queue with db := db', writer := writer }.setWorker w ph →
      LogInv { s with queue := queue } := by
    rintro db' ph event writer hwrite hph rfl
    refine ⟨htenants, hs.logged.write hwrite, fun w' j loaded hw' => ?_⟩
    by_cases hw : w' = w
    · rw [hw] at hw'
      exact hph j loaded
        ((setWorker_self { s.queue with db := db', writer := writer } w ph).symm.trans hw')
    · exact hs.workers w' j loaded
        ((setWorker_ne { s.queue with db := db', writer := writer } w ph hw).symm.trans hw')
  have hsame : LogWrite s.db none s.db := logWrite_none rfl rfl rfl rfl
  by_cases hbusy : ∃ j pc, s.queue.workers w = .busy j pc
  · obtain ⟨j, pc, hw⟩ := hbusy
    obtain ⟨stored, db', pc', hget, hmove, hqueue⟩ := busyStep_spec hw hstep
    obtain ⟨event, hwrite⟩ := hmove.log hget (hs.logged.single j) fun loaded hpc =>
      hs.workers w j loaded (hpc ▸ hw)
    refine hmoved s.queue.writer hwrite (fun j' loaded hph => ?_) hqueue
    cases pc' with
    | none => cases hph
    | some p =>
      obtain ⟨rfl, rfl⟩ := Phase.busy.inj hph
      -- the chain has the document and the version of every job
      cases hmove with
      | loadMissing hmissing =>
        obtain ⟨d, hd, -⟩ := hs.tenants.chain.jobDocuments j stored hget
        obtain ⟨v, hv, -⟩ := hs.tenants.chain.jobVersions j stored hget
        rcases hmissing with hnone | hnone
        · rw [hnone] at hd
          cases hd
        · rw [hnone] at hv
          cases hv
  · cases workerMove_of_step hstep with
    | look ph _ hph =>
      refine hmoved s.queue.writer hsame (fun j loaded hbusy' => ?_) rfl
      rw [hbusy'] at hph
      cases hph
    | lock tries j _ _ _ =>
      refine hmoved (some w) hsame (fun j' loaded hph => ?_) rfl
      cases hph
    | claim j _ =>
      refine hmoved none (claim_log s.db j w) (fun j' loaded hph => ?_) rfl
      obtain ⟨-, hpc⟩ := Phase.busy.inj hph
      cases hpc
    | process j pc act stored db' pc' hw _ _ _ => exact absurd ⟨j, pc, hw⟩ hbusy

/-- The commit of a request is a commit with at most one event. -/
theorem commitCall_log {db db' : Database} {files files' : ExportFiles} {now : UtcTime}
    {createdAt : ℕ} {call : Call} {rows : List TenantRow}
    (h : db.commitCall cfg files now createdAt call = some (db', files', rows)) :
    ∃ event, LogWrite db event db' := by
  cases call with
  | createTemplateVersion templateId template definition =>
    obtain ⟨rfl, -⟩ := Prod.mk.inj (Option.some.inj h)
    exact ⟨none, logWrite_none rfl rfl rfl rfl⟩
  | review q =>
    simp only [Database.commitCall] at h
    split at h
    · next db₁ hcommit =>
      obtain ⟨⟨summary, edits⟩, hout, hcommit⟩ := Failing.bind_ok.mp hcommit
      obtain rfl := Except.ok.inj hcommit
      obtain ⟨rfl, -⟩ := Prod.mk.inj (Option.some.inj h)
      -- The event of a review lists the edits that were written with it.
      exact commitReview_log hout
    · cases h
  | exportResult resultId loaded format =>
    simp only [Database.commitCall] at h
    split at h
    · next db₁ files₁ hexport =>
      obtain ⟨-, bytes, -, rfl⟩ := exportResult_spec hexport
      obtain ⟨rfl, -⟩ := Prod.mk.inj (Option.some.inj h)
      exact commitExport_log loaded _
    · cases h
  | dismissSuggestion versionId version key dismissed =>
    obtain ⟨⟨db₁, id⟩, hset, heq⟩ := Option.map_eq_some_iff.mp h
    obtain ⟨rfl, -⟩ := Prod.mk.inj heq
    exact ⟨none, setSuggestionDismissed_log hset⟩

/-- **Every step keeps the log in agreement with the tables**: it is one commit with its event, or
it writes neither. -/
theorem logInv_step (hs : LogInv s) {act : TenantAct} {rows : List TenantRow}
    (h : respond cfg s act = some (t, rows)) : LogInv t := by
  have htenants : TenantInv t := (tenantInv_step hs.tenants h).1
  cases act with
  | worker w act =>
    obtain ⟨queue, hstep, heq⟩ := Option.map_eq_some_iff.mp h
    obtain ⟨rfl, -⟩ := Prod.mk.inj heq
    exact logInv_worker hs hstep htenants
  | jobs act =>
    obtain ⟨queue, hstep, heq⟩ := Option.map_eq_some_iff.mp h
    obtain ⟨rfl, -⟩ := Prod.mk.inj heq
    have hworkers : queue.workers = s.queue.workers := by
      cases apiMove_of_step hstep <;> rfl
    have hwrite : ∃ event, LogWrite s.db event queue.db := by
      cases apiMove_of_step hstep with
      | create tenant actor document version override createdAt _ =>
        exact createJob_log tenant actor document version override createdAt
      | readRetry _ _ _ _ _ _ _ => exact ⟨none, logWrite_none rfl rfl rfl rfl⟩
      | readCancel _ _ _ _ _ _ _ => exact ⟨none, logWrite_none rfl rfl rfl rfl⟩
      | commit r actor q _ hq => exact commitRequest_log (hs.tenants.requests r q hq) actor
      | abandon r => exact ⟨none, logWrite_none rfl rfl rfl rfl⟩
    obtain ⟨event, hwrite⟩ := hwrite
    refine ⟨htenants, hs.logged.write hwrite, fun w j loaded hw => ?_⟩
    have hw : queue.workers w = .busy j (.missing loaded) := hw
    exact hs.workers w j loaded (hworkers ▸ hw)
  | createTemplate tenant name description documentType definition createdAt =>
    simp only [respond] at h
    split at h
    · obtain ⟨rfl, -⟩ := Prod.mk.inj (Option.some.inj h)
      have hwrite : LogWrite s.db none
          (s.db.createTemplate name description documentType definition tenant createdAt) :=
        createTemplate_log name description documentType definition tenant createdAt
      exact ⟨htenants, hs.logged.write hwrite, hs.workers⟩
    · cases h
  | upload tenant actor filename contentType reference =>
    simp only [respond] at h
    split at h
    · cases h
    · obtain ⟨rfl, -⟩ := Prod.mk.inj (Option.some.inj h)
      obtain ⟨event, hwrite⟩ := uploadDocument_log s.db tenant actor filename contentType reference
      exact ⟨htenants, hs.logged.write hwrite, hs.workers⟩
  | start r tenant operation =>
    simp only [respond] at h
    split at h
    · obtain ⟨rfl, -⟩ := Prod.mk.inj (Option.some.inj h)
      exact ⟨htenants, hs.logged, hs.workers⟩
    · cases h
  | finish r now createdAt =>
    obtain ⟨⟨tenant, call⟩, -, h⟩ := Option.bind_eq_some_iff.mp h
    obtain ⟨⟨db', files', rows'⟩, hcommit, heq⟩ := Option.map_eq_some_iff.mp h
    obtain ⟨rfl, -⟩ := Prod.mk.inj heq
    -- The commit of a review adds its edits and its event together.
    obtain ⟨event, hwrite⟩ := commitCall_log hcommit
    exact ⟨htenants, hs.logged.write hwrite, hs.workers⟩
  | abandon r =>
    obtain ⟨rfl, -⟩ := Prod.mk.inj (Option.some.inj h)
    exact ⟨htenants, hs.logged, hs.workers⟩
  | ask tenant query =>
    obtain ⟨rfl, -⟩ := Prod.mk.inj (Option.some.inj h)
    exact hs

end Steps

/-! ### Every run -/

theorem logInv_empty : LogInv {} := by
  refine ⟨tenantInv_empty, ⟨rfl, ?_, ?_, fun _ => Nat.zero_le _⟩, ?_⟩
  · intro j row action h
    cases h
  · intro id e h
    cases h
  · intro w j loaded h
    cases h

/-- **The audit trail** on every interleaving of workers and requests: the log agrees with the
tables. -/
theorem audit_trail_of_run (cfg : TenantConfig) {acts : List TenantAct} {s : TenantState}
    (h : Run (tenantStep cfg) (fun _ _ => True) {} acts s) : Logged s.db := by
  have hs : LogInv s := by
    refine h.invariant (fun u act v hu _ hstep => ?_) logInv_empty
    obtain ⟨⟨v', rows⟩, hrespond, rfl⟩ := Option.map_eq_some_iff.mp hstep
    exact logInv_step hu hrespond
  exact hs.logged

/-- The completed job of the run has its event, which names its result, and the log has the edit
of the review. -/
theorem audit_trail_of_run_invoice :
    ∃ s, exec (tenantStep localConfig) {} (upToExtraction ++ (fromExtraction ++ reviewOfVendor)) =
        some s ∧
      (∃ id e, s.db.auditEvents.get id = some e ∧ e.Explains "default" "job.completed" 1 ∧
        e.NamesResult s.db) ∧
      (s.db.auditEvents.rows.flatMap fun p => p.2.editLines) = [⟨"default", 1, "ann", "vendor"⟩] := by
  have hrun : ∃ s row, exec (tenantStep localConfig) {}
        (upToExtraction ++ (fromExtraction ++ reviewOfVendor)) = some s ∧
      s.db.extractionJobs.get 1 = some row ∧ row.status = .completed ∧ row.tenantId = "default" ∧
      s.db.reviewEdits.rows.map (fun p => p.2.line) = [⟨"default", 1, "ann", "vendor"⟩] :=
    ⟨_, _, rfl, rfl, rfl, rfl, rfl⟩
  obtain ⟨s, row, hexec, hrow, hstatus, htenant, hlines⟩ := hrun
  have hlogged := audit_trail_of_run localConfig (run_of_exec _ _ _ hexec)
  have haction : row.status.action = some "job.completed" := by
    rw [hstatus]
    rfl
  obtain ⟨id, e, he, hexplains⟩ := hlogged.jobs 1 row _ hrow haction
  exact ⟨s, hexec, ⟨id, e, he, htenant ▸ hexplains, hlogged.completions id e he hexplains.action⟩,
    hlogged.edits.symm.trans hlines⟩

end ExtractFlow
