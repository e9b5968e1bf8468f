import ExtractFlow.Entities

/-!
# Processing one claimed job

`process_once` of the worker, after `claim_next_job` returned a job, cut at the
points between which another session may commit.  A point of the program
(`Pc`) carries the rows the session holds loaded there: a commit expires them,
and the next access reads them again, so which copy a later `UPDATE` is computed
from is part of the behaviour.

What the world decides — that a step raises, the text a parse yields, the
summary an extraction returns — is the action.  An action a point does not admit
is refused.

## Main definitions

* `Pc` — the points of `process_once`; `WorkerAct` — what may happen at one.
* `processStep job db pc act` — one step, on the committed database.
* `Pc.active` — between the claim and the terminal commit.
* `ProcessMove` — the steps, one constructor each.

## Main results

* `processMove_of_step` — `processStep` takes only these steps.
* `ProcessMove.jobs_self`, `ProcessMove.jobs_ne` — what a step does to the job table.
* `ProcessMove.quiet` — a step that does not commit changes no table.
-/

namespace ExtractFlow

/-! ### Database statements of the worker -/

/-- The status the job `j` is stored with. -/
def Database.statusOf (db : Database) (j : ℕ) : Option JobStatus :=
  (db.extractionJobs.get j).map ExtractionJob.status

/-- `UPDATE extraction_jobs ... WHERE id = job` at a commit of the worker's
session: the changed columns of a row it loaded as `loaded`. -/
def Database.commitJob (db : Database) (job : ℕ) (loaded new : ExtractionJob) : Database :=
  { db with extractionJobs := db.extractionJobs.update job (ExtractionJob.flush loaded new) }

def Database.setDocumentStatus (db : Database) (document : ℕ) (status : DocumentStatus) :
    Database :=
  { db with documents := db.documents.update document fun d => { d with status := status } }

/-- `record_worker_audit`. -/
def Database.recordWorkerAudit (db : Database) (tenant action : String) (job : ℕ)
    (metadata : List (String × PyVal)) : Database :=
  { db with
    auditEvents := db.auditEvents.insert
      { tenantId := tenant, actor := "worker", action := action, objectType := "job",
        objectId := job, metadata := metadata } }

/-- Create the result of a job, or rewrite the one there. -/
def Database.saveResult (db : Database) (job : ℕ) (tenant : String)
    (summary : ExtractionValidationSummary) : Database × ℕ :=
  match db.resultsOf job with
  | [] =>
      ({ db with
          extractionResults := db.extractionResults.insert
            { tenantId := tenant, jobId := job, resultJson := summary, reviewStatus := .pending } },
        db.extractionResults.nextId)
  | (id, _) :: _ =>
      ({ db with
          extractionResults := db.extractionResults.update id fun r =>
            { r with tenantId := tenant, resultJson := summary, reviewStatus := .pending } }, id)

/-- The job as both failure paths leave it. -/
def ExtractionJob.failWith (job : ExtractionJob) (msg : String) : ExtractionJob :=
  { job with
    status := .failed
    errorMessage := some msg
    progressStage := some .failed
    progressPct := 0 }

/-- The job as the completion leaves it. -/
def ExtractionJob.succeed (job : ExtractionJob) : ExtractionJob :=
  { job with status := .completed, progressStage := some .completed, progressPct := 100 }

/-- `update_job_progress`: the job reported at a stage. -/
def ExtractionJob.atStage (job : ExtractionJob) (stage : JobStage) : ExtractionJob :=
  { job with
    progressStage := some stage
    progressPct := (jobStageProgressPct stage).getD job.progressPct }

/-- `ensure_job_tenant_consistency`: the exception it raises, if it does. -/
def ensureJobTenantConsistency (job : ExtractionJob) (document : Document)
    (version : TemplateVersion) : Option String :=
  if job.tenantId = document.tenantId ∧ document.tenantId = version.tenantId then none
  else some <| "Tenant mismatch between job, document, and template version. " ++
    s!"job={job.tenantId}, document={document.tenantId}, template_version={version.tenantId}."

/-! ### The points of `process_once` -/

/-- The stages `execute_extraction` reports, in order. -/
def executionStages : List JobStage := [.parsing, .extracting, .validating, .calculating]

/-- The points of `process_once` after the claim, in the order of the code, with the rows that are
loaded there. -/
inductive Pc where
  /-- About to read the job, its document and its template version. -/
  | load
  /-- Document or template version missing: about to commit the failure. -/
  | missing (loaded : ExtractionJob)
  /-- About to report the early failure in the status file. -/
  | missingStatus
  | checkTenants (loaded : ExtractionJob) (document : Document) (version : TemplateVersion)
  /-- About to commit `document.status = "processing"` and the first progress report. -/
  | reportStart (loaded : ExtractionJob) (document : Document)
  | statusRunning
  | materialize
  | parse
  /-- About to commit `document.parsed_text_path`. -/
  | storeText (path : String)
  /-- The first `is_job_cancelled`. -/
  | checkParsed
  /-- Inside `execute_extraction`, with the stages still to report.  The job is
  loaded when nothing was committed since it was last read. -/
  | extract (loaded : Option ExtractionJob) (stages : List JobStage)
  /-- Inside `update_job_progress`, about to commit. -/
  | report (loaded : ExtractionJob) (stage : JobStage) (stages : List JobStage)
  /-- The second `is_job_cancelled`. -/
  | checkExtracted (result : ExtractionValidationSummary)
  /-- About to commit the completion. -/
  | complete (loaded : ExtractionJob) (result : ExtractionValidationSummary)
  | statusCompleted
  /-- The handler's `db.refresh(job)`.  `committed` tells whether this run
  already made a terminal commit. -/
  | refresh (committed : Bool) (msg : String)
  /-- The handler, about to commit the failure. -/
  | fail (committed : Bool) (loaded : ExtractionJob) (msg : String)
  | statusFailed
  /-- `finalize_cancelled_job`, about to commit; `handled` inside the handler. -/
  | finalize (handled committed : Bool)
  | statusIdle (handled : Bool)

/-- What happens at a point: what the step returns, or that it raises. -/
inductive WorkerAct where
  /-- The step goes through. -/
  | next
  /-- The step raises an exception whose text is `msg`. -/
  | raise (msg : String)
  /-- The `SELECT` of a claim returns this candidate. -/
  | select (candidate : Option ℕ)
  /-- The document was parsed and its text stored at `path`. -/
  | parsed (path : String)
  /-- The extraction returned a summary. -/
  | extracted (result : ExtractionValidationSummary)
  deriving Inhabited

/-- The run is between the claim and its terminal commit, so the job is still its own. -/
def Pc.active : Pc → Bool
  | .missingStatus | .statusCompleted | .statusFailed | .statusIdle _ => false
  | .refresh committed _ | .fail committed _ _ | .finalize _ committed => !committed
  | _ => true

/-- The step out of this point commits. -/
def Pc.commits : Pc → Bool
  | .missing _ | .reportStart _ _ | .storeText _ | .report _ _ _ | .complete _ _
  | .fail _ _ _ | .finalize _ _ => true
  | _ => false

/-- Inside the try block before the completion, at a step that may raise. -/
def Pc.mayRaise : Pc → Bool
  | .reportStart _ _ | .statusRunning | .materialize | .parse | .extract _ _
  | .report _ _ _ => true
  | _ => false

/-- The commit that completes a job: the result, the job, the document and the
audit event in one transaction. -/
def Database.commitCompletion (db : Database) (job : ℕ) (stored loaded : ExtractionJob)
    (result : ExtractionValidationSummary) : Database :=
  let (db, resultId) := db.saveResult job stored.tenantId result
  ((db.commitJob job loaded loaded.succeed).setDocumentStatus stored.documentId .completed)
    |>.recordWorkerAudit stored.tenantId "job.completed" job
      [("job_id", .int job), ("document_id", .int stored.documentId), ("result_id", .int resultId)]

/-- The commit of the failure handler. -/
def Database.commitFailure (db : Database) (job : ℕ) (stored loaded : ExtractionJob)
    (msg : String) : Database :=
  ((db.commitJob job loaded (loaded.failWith msg)).setDocumentStatus stored.documentId .failed)
    |>.recordWorkerAudit stored.tenantId "job.failed" job
      [("job_id", .int job), ("document_id", .int stored.documentId), ("reason", .str msg)]

/-- The commit of the first progress report, with the document's new status. -/
def Database.commitStart (db : Database) (job : ℕ) (loaded : ExtractionJob) (id : ℕ)
    (document : Document) : Database :=
  let db := db.commitJob job loaded (loaded.atStage .parsing)
  { db with
    documents := db.documents.update id fun d =>
      { d with status := writeBack document.status .processing d.status } }

def Database.setParsedTextPath (db : Database) (document : ℕ) (path : String) : Database :=
  { db with
    documents := db.documents.update document fun d => { d with parsedTextPath := some path } }

/-- The error of the early failure path. -/
def missingMessage : String := "Document or template version missing."

/-- One step of `process_once` on the job `job`, whose row is `stored`: from the
committed database to the committed database and the next point; `none` as a
point is the end. -/
def stepFrom (job : ℕ) (stored : ExtractionJob) (db : Database) (pc : Pc) (act : WorkerAct) :
    Option (Database × Option Pc) :=
  match pc, act with
  | .load, .next =>
      match db.documents.get stored.documentId,
          db.templateVersions.get stored.templateVersionId with
      | some document, some version => some (db, some (.checkTenants stored document version))
      | _, _ => some (db, some (.missing stored))
  | .missing loaded, .next =>
      some (db.commitJob job loaded (loaded.failWith missingMessage), some .missingStatus)
  | .missingStatus, .next => some (db, none)
  -- outside the try block: the exception leaves `process_once`
  | .missingStatus, .raise _ => some (db, none)
  | .checkTenants loaded document version, .next =>
      match ensureJobTenantConsistency loaded document version with
      | none => some (db, some (.reportStart loaded document))
      | some msg => some (db, some (.refresh false msg))
  | .reportStart loaded document, .next =>
      some (db.commitStart job loaded stored.documentId document, some .statusRunning)
  | .reportStart _ _, .raise msg => some (db, some (.refresh false msg))
  | .statusRunning, .next => some (db, some .materialize)
  | .statusRunning, .raise msg => some (db, some (.refresh false msg))
  | .materialize, .next => some (db, some .parse)
  | .materialize, .raise msg => some (db, some (.refresh false msg))
  | .parse, .parsed path => some (db, some (.storeText path))
  | .parse, .raise msg => some (db, some (.refresh false msg))
  | .storeText path, .next =>
      some (db.setParsedTextPath stored.documentId path, some .checkParsed)
  | .checkParsed, .next =>
      if stored.status = .cancelled then some (db, some (.finalize false false))
      else some (db, some (.extract (some stored) executionStages))
  | .extract loaded (stage :: stages), .next =>
      -- `db.get` answers from the session when the job is still loaded
      some (db, some (.report (loaded.getD stored) stage stages))
  | .extract _ [], .extracted result => some (db, some (.checkExtracted result))
  | .extract _ _, .raise msg => some (db, some (.refresh false msg))
  | .report loaded stage stages, .next =>
      some (db.commitJob job loaded (loaded.atStage stage), some (.extract none stages))
  | .report _ _ _, .raise msg => some (db, some (.refresh false msg))
  | .checkExtracted result, .next =>
      if stored.status = .cancelled then some (db, some (.finalize false false))
      else some (db, some (.complete stored result))
  | .complete loaded result, .next =>
      some (db.commitCompletion job stored loaded result, some .statusCompleted)
  | .statusCompleted, .next => some (db, none)
  -- inside the try block: the handler runs although the completion is committed
  | .statusCompleted, .raise msg => some (db, some (.refresh true msg))
  | .refresh committed msg, .next =>
      if stored.status = .cancelled then some (db, some (.finalize true committed))
      else some (db, some (.fail committed stored msg))
  | .fail _ loaded msg, .next =>
      some (db.commitFailure job stored loaded msg, some .statusFailed)
  | .statusFailed, .next => some (db, none)
  | .statusFailed, .raise _ => some (db, none)
  | .finalize handled _, .next =>
      some (db.setDocumentStatus stored.documentId .uploaded, some (.statusIdle handled))
  | .statusIdle _, .next => some (db, none)
  | .statusIdle handled, .raise msg =>
      if handled then some (db, none) else some (db, some (.refresh true msg))
  | _, _ => none

/-- One step of `process_once` on the claimed job, which has to be in its table. -/
def processStep (job : ℕ) (db : Database) (pc : Pc) (act : WorkerAct) :
    Option (Database × Option Pc) :=
  (db.extractionJobs.get job).bind fun stored => stepFrom job stored db pc act

/-! ### The steps, one by one -/

/-- The steps of `process_once` on the job `job`, stored as `stored`: for each the point, what
happens, and what is committed. -/
inductive ProcessMove (job : ℕ) (db : Database) (stored : ExtractionJob) :
    Pc → WorkerAct → Database → Option Pc → Prop
  | load {document version} : db.documents.get stored.documentId = some document →
      db.templateVersions.get stored.templateVersionId = some version →
      ProcessMove job db stored .load .next db (some (.checkTenants stored document version))
  | loadMissing : (db.documents.get stored.documentId = none ∨
        db.templateVersions.get stored.templateVersionId = none) →
      ProcessMove job db stored .load .next db (some (.missing stored))
  | missing (loaded) : ProcessMove job db stored (.missing loaded) .next
      (db.commitJob job loaded (loaded.failWith missingMessage)) (some .missingStatus)
  | missingStatus (act) : ProcessMove job db stored .missingStatus act db none
  | tenantsAgree (loaded document version) :
      ensureJobTenantConsistency loaded document version = none →
      ProcessMove job db stored (.checkTenants loaded document version) .next db
        (some (.reportStart loaded document))
  | tenantsDiffer (loaded document version msg) :
      ensureJobTenantConsistency loaded document version = some msg →
      ProcessMove job db stored (.checkTenants loaded document version) .next db
        (some (.refresh false msg))
  | start (loaded document) : ProcessMove job db stored (.reportStart loaded document) .next
      (db.commitStart job loaded stored.documentId document) (some .statusRunning)
  | statusRunning : ProcessMove job db stored .statusRunning .next db (some .materialize)
  | materialize : ProcessMove job db stored .materialize .next db (some .parse)
  | parsed (path) : ProcessMove job db stored .parse (.parsed path) db (some (.storeText path))
  | storeText (path) : ProcessMove job db stored (.storeText path) .next
      (db.setParsedTextPath stored.documentId path) (some .checkParsed)
  | parsedLive : stored.status ≠ .cancelled →
      ProcessMove job db stored .checkParsed .next db (some (.extract (some stored) executionStages))
  | parsedCancelled : stored.status = .cancelled →
      ProcessMove job db stored .checkParsed .next db (some (.finalize false false))
  | beginReport (loaded stage stages) :
      ProcessMove job db stored (.extract loaded (stage :: stages)) .next db
        (some (.report (loaded.getD stored) stage stages))
  | report (loaded stage stages) : ProcessMove job db stored (.report loaded stage stages) .next
      (db.commitJob job loaded (loaded.atStage stage)) (some (.extract none stages))
  | extracted (loaded result) : ProcessMove job db stored (.extract loaded []) (.extracted result) db
      (some (.checkExtracted result))
  | extractedLive (result) : stored.status ≠ .cancelled →
      ProcessMove job db stored (.checkExtracted result) .next db (some (.complete stored result))
  | extractedCancelled (result) : stored.status = .cancelled →
      ProcessMove job db stored (.checkExtracted result) .next db (some (.finalize false false))
  | complete (loaded result) : ProcessMove job db stored (.complete loaded result) .next
      (db.commitCompletion job stored loaded result) (some .statusCompleted)
  | statusCompleted : ProcessMove job db stored .statusCompleted .next db none
  /-- A step inside the try block raises before the terminal commit. -/
  | raise (pc : Pc) (msg) : pc.mayRaise = true →
      ProcessMove job db stored pc (.raise msg) db (some (.refresh false msg))
  /-- The status write after the completion raises. -/
  | raiseCompleted (msg) :
      ProcessMove job db stored .statusCompleted (.raise msg) db (some (.refresh true msg))
  | refreshLive (committed msg) : stored.status ≠ .cancelled →
      ProcessMove job db stored (.refresh committed msg) .next db (some (.fail committed stored msg))
  | refreshCancelled (committed msg) : stored.status = .cancelled →
      ProcessMove job db stored (.refresh committed msg) .next db (some (.finalize true committed))
  | fail (committed loaded msg) : ProcessMove job db stored (.fail committed loaded msg) .next
      (db.commitFailure job stored loaded msg) (some .statusFailed)
  | statusFailed (act) : ProcessMove job db stored .statusFailed act db none
  | finalize (handled committed) : ProcessMove job db stored (.finalize handled committed) .next
      (db.setDocumentStatus stored.documentId .uploaded) (some (.statusIdle handled))
  | statusIdle (handled act) : ProcessMove job db stored (.statusIdle handled) act db none
  /-- The status write after a cancellation the checks found raises. -/
  | raiseIdle (msg) :
      ProcessMove job db stored (.statusIdle false) (.raise msg) db (some (.refresh true msg))

theorem processMove_load {job : ℕ} {stored : ExtractionJob} {db db' : Database}
    {pc' : Option Pc} (h : stepFrom job stored db .load .next = some (db', pc')) :
    ProcessMove job db stored .load .next db' pc' := by
  simp only [stepFrom] at h
  split at h
  · next document version hd hv =>
    simp only [Option.some.injEq, Prod.mk.injEq] at h
    obtain ⟨rfl, rfl⟩ := h
    exact .load hd hv
  · next hno =>
    simp only [Option.some.injEq, Prod.mk.injEq] at h
    obtain ⟨rfl, rfl⟩ := h
    refine .loadMissing ?_
    cases hd : db.documents.get stored.documentId with
    | none => exact Or.inl rfl
    | some document =>
      cases hv : db.templateVersions.get stored.templateVersionId with
      | none => exact Or.inr rfl
      | some version => exact absurd hv (hno document version hd)

theorem processMove_of_stepFrom {job : ℕ} {stored : ExtractionJob} {db db' : Database} {pc : Pc}
    {act : WorkerAct} {pc' : Option Pc} (h : stepFrom job stored db pc act = some (db', pc')) :
    ProcessMove job db stored pc act db' pc' := by
  have hload := @processMove_load job stored db db' pc'
  unfold stepFrom at h
  split at h
  -- the points that branch on what they read: the load, and the tests
  case h_1 => exact hload h
  case h_5 =>
    split at h <;> simp only [Option.some.injEq, Prod.mk.injEq] at h <;> obtain ⟨rfl, rfl⟩ := h
    · next hnone => exact .tenantsAgree _ _ _ hnone
    · next hsome => exact .tenantsDiffer _ _ _ _ hsome
  case h_31 =>
    split at h <;> simp only [Option.some.injEq, Prod.mk.injEq] at h <;> obtain ⟨rfl, rfl⟩ := h
    · exact .statusIdle _ _
    · next hnot =>
      rw [Bool.not_eq_true] at hnot
      subst hnot
      exact .raiseIdle _
  all_goals first
    | (split at h <;> simp only [Option.some.injEq, Prod.mk.injEq] at h <;>
        obtain ⟨rfl, rfl⟩ := h <;> constructor <;> assumption)
    | (simp only [Option.some.injEq, Prod.mk.injEq] at h
       obtain ⟨rfl, rfl⟩ := h
       constructor <;> rfl)
    | cases h

/-- **`processStep` takes only these steps**, so what they all keep a run keeps. -/
theorem processMove_of_step {job : ℕ} {db db' : Database} {pc : Pc} {act : WorkerAct}
    {pc' : Option Pc} (h : processStep job db pc act = some (db', pc')) :
    ∃ stored, db.extractionJobs.get job = some stored ∧
      ProcessMove job db stored pc act db' pc' := by
  unfold processStep at h
  obtain ⟨stored, hget, h⟩ := Option.bind_eq_some_iff.mp h
  exact ⟨stored, hget, processMove_of_stepFrom h⟩

/-! ### What a step changes -/

section Statements

variable (db : Database) (job document : ℕ) (loaded new stored : ExtractionJob)

@[simp] theorem commitJob_jobs : (db.commitJob job loaded new).extractionJobs =
    db.extractionJobs.update job (ExtractionJob.flush loaded new) := rfl

@[simp] theorem commitJob_results :
    (db.commitJob job loaded new).extractionResults = db.extractionResults := rfl

@[simp] theorem commitJob_documents : (db.commitJob job loaded new).documents = db.documents := rfl

@[simp] theorem commitJob_auditEvents :
    (db.commitJob job loaded new).auditEvents = db.auditEvents := rfl

@[simp] theorem setDocumentStatus_jobs (status : DocumentStatus) :
    (db.setDocumentStatus document status).extractionJobs = db.extractionJobs := rfl

@[simp] theorem setDocumentStatus_results (status : DocumentStatus) :
    (db.setDocumentStatus document status).extractionResults = db.extractionResults := rfl

@[simp] theorem setDocumentStatus_auditEvents (status : DocumentStatus) :
    (db.setDocumentStatus document status).auditEvents = db.auditEvents := rfl

@[simp] theorem setParsedTextPath_jobs (path : String) :
    (db.setParsedTextPath document path).extractionJobs = db.extractionJobs := rfl

@[simp] theorem setParsedTextPath_results (path : String) :
    (db.setParsedTextPath document path).extractionResults = db.extractionResults := rfl

@[simp] theorem setParsedTextPath_auditEvents (path : String) :
    (db.setParsedTextPath document path).auditEvents = db.auditEvents := rfl

@[simp] theorem commitStart_jobs (id : ℕ) (d : Document) :
    (db.commitStart job loaded id d).extractionJobs =
      db.extractionJobs.update job (ExtractionJob.flush loaded (loaded.atStage .parsing)) := rfl

@[simp] theorem commitStart_results (id : ℕ) (d : Document) :
    (db.commitStart job loaded id d).extractionResults = db.extractionResults := rfl

@[simp] theorem commitStart_auditEvents (id : ℕ) (d : Document) :
    (db.commitStart job loaded id d).auditEvents = db.auditEvents := rfl

@[simp] theorem saveResult_jobs (tenant : String) (summary : ExtractionValidationSummary) :
    (db.saveResult job tenant summary).1.extractionJobs = db.extractionJobs := by
  unfold Database.saveResult
  split <;> rfl

@[simp] theorem saveResult_documents (tenant : String) (summary : ExtractionValidationSummary) :
    (db.saveResult job tenant summary).1.documents = db.documents := by
  unfold Database.saveResult
  split <;> rfl

@[simp] theorem saveResult_auditEvents (tenant : String)
    (summary : ExtractionValidationSummary) :
    (db.saveResult job tenant summary).1.auditEvents = db.auditEvents := by
  unfold Database.saveResult
  split <;> rfl

theorem commitCompletion_eq (result : ExtractionValidationSummary) :
    db.commitCompletion job stored loaded result =
      ((((db.saveResult job stored.tenantId result).1.commitJob job loaded
          loaded.succeed).setDocumentStatus stored.documentId .completed).recordWorkerAudit
        stored.tenantId "job.completed" job
        [("job_id", .int job), ("document_id", .int stored.documentId),
          ("result_id", .int (db.saveResult job stored.tenantId result).2)]) := rfl

@[simp] theorem commitCompletion_jobs (result : ExtractionValidationSummary) :
    (db.commitCompletion job stored loaded result).extractionJobs =
      db.extractionJobs.update job (ExtractionJob.flush loaded loaded.succeed) := by
  simp [commitCompletion_eq, Database.recordWorkerAudit]

@[simp] theorem commitFailure_jobs (msg : String) :
    (db.commitFailure job stored loaded msg).extractionJobs =
      db.extractionJobs.update job (ExtractionJob.flush loaded (loaded.failWith msg)) := rfl

@[simp] theorem commitFailure_results (msg : String) :
    (db.commitFailure job stored loaded msg).extractionResults = db.extractionResults := rfl

end Statements

/-- A flush never touches the foreign keys and the tenant of a job. -/
@[simp] theorem flush_documentId (loaded new stored : ExtractionJob) :
    (ExtractionJob.flush loaded new stored).documentId = stored.documentId := rfl

@[simp] theorem flush_templateVersionId (loaded new stored : ExtractionJob) :
    (ExtractionJob.flush loaded new stored).templateVersionId = stored.templateVersionId := rfl

@[simp] theorem flush_tenantId (loaded new stored : ExtractionJob) :
    (ExtractionJob.flush loaded new stored).tenantId = stored.tenantId := rfl

@[simp] theorem flush_status (loaded new stored : ExtractionJob) :
    (ExtractionJob.flush loaded new stored).status =
      writeBack loaded.status new.status stored.status := rfl

section Effects

variable {job : ℕ} {db db' : Database} {stored : ExtractionJob} {pc : Pc} {act : WorkerAct}
  {pc' : Option Pc}

/-- A step that does not commit changes no table, so nobody else sees it. -/
theorem ProcessMove.quiet (h : ProcessMove job db stored pc act db' pc')
    (hc : pc.commits = false) : db' = db := by
  cases h <;> first | rfl | simp [Pc.commits] at hc

/-- A step touches no job but its own, at whatever point it is. -/
theorem ProcessMove.jobs_ne (h : ProcessMove job db stored pc act db' pc') {j : ℕ} (hj : j ≠ job) :
    db'.extractionJobs.get j = db.extractionJobs.get j := by
  cases h <;> simp [Table.get_update_ne _ _ hj]

/-- A step keeps its job, and sets the status to completed or failed if to anything. -/
theorem ProcessMove.jobs_self (h : ProcessMove job db stored pc act db' pc')
    (hget : db.extractionJobs.get job = some stored) :
    ∃ row, db'.extractionJobs.get job = some row ∧
      (row.status = stored.status ∨ row.status = .completed ∨ row.status = .failed) := by
  have written : ∀ loaded new : ExtractionJob,
      new.status = loaded.status ∨ new.status = .completed ∨ new.status = .failed →
      ∃ row, (db.extractionJobs.update job (ExtractionJob.flush loaded new)).get job = some row ∧
        (row.status = stored.status ∨ row.status = .completed ∨ row.status = .failed) := by
    intro loaded new hnew
    refine ⟨ExtractionJob.flush loaded new stored, by simp [hget], ?_⟩
    rw [flush_status]
    rcases hnew with hnew | hnew
    · rw [hnew]; exact Or.inl (writeBack_same _ _)
    · rcases writeBack_eq_or loaded.status new.status stored.status with h | h
      · exact Or.inl h
      · rw [h]; exact Or.inr hnew
  cases h
  case missing loaded => exact written loaded (loaded.failWith _) (Or.inr (Or.inr rfl))
  case complete loaded result =>
    rw [commitCompletion_jobs]
    exact written loaded loaded.succeed (Or.inr (Or.inl rfl))
  case fail committed loaded msg => exact written loaded (loaded.failWith msg) (Or.inr (Or.inr rfl))
  case start loaded document => exact written loaded (loaded.atStage .parsing) (Or.inl rfl)
  case report loaded stage stages => exact written loaded (loaded.atStage stage) (Or.inl rfl)
  all_goals exact ⟨stored, by simpa using hget, Or.inl rfl⟩

/-- The results of a job after the row with key `id` was rewritten. -/
theorem resultsOf_update (db : Database) (j id : ℕ) (tenant : String)
    (summary : ExtractionValidationSummary) :
    (db.extractionResults.update id fun r =>
        { r with tenantId := tenant, resultJson := summary, reviewStatus := .pending }).select
      (fun r => r.jobId == j) =
    Table.updateRows (db.resultsOf j) id fun r =>
      { r with tenantId := tenant, resultJson := summary, reviewStatus := .pending } :=
  Table.select_update fun _ => rfl

/-- Saving the result of one job leaves the results of the others. -/
theorem saveResult_resultsOf_ne (db : Database) {job j : ℕ} (hj : j ≠ job) (tenant : String)
    (summary : ExtractionValidationSummary) :
    (db.saveResult job tenant summary).1.resultsOf j = db.resultsOf j := by
  unfold Database.saveResult
  split
  · simp [Database.resultsOf, Ne.symm hj]
  · next id row rest hrows =>
    obtain ⟨hmem, hjob⟩ : (id, row) ∈ db.extractionResults.rows ∧ row.jobId = job := by
      have : (id, row) ∈ db.resultsOf job := hrows ▸ List.mem_cons_self ..
      simpa [Database.resultsOf, Table.mem_select] using this
    -- the row rewritten belongs to `job`, so its key is not among the results of `j`
    have hkey : id ∉ (db.resultsOf j).map Prod.fst := by
      intro hid
      obtain ⟨⟨id', r⟩, hr, rfl⟩ := List.mem_map.mp hid
      obtain ⟨hr, hrj⟩ := Table.mem_select.mp hr
      obtain rfl := Option.some.inj ((Table.get_of_mem hmem).symm.trans (Table.get_of_mem hr))
      exact hj ((beq_iff_eq.mp hrj).symm.trans hjob)
    exact (resultsOf_update db j id tenant summary).trans (Table.updateRows_of_notMem _ hkey)

/-- Saving the result of a job with at most one leaves exactly that summary. -/
theorem saveResult_resultsOf (db : Database) {job : ℕ} (h : (db.resultsOf job).length ≤ 1)
    (tenant : String) (summary : ExtractionValidationSummary) :
    ∃ id r, (db.saveResult job tenant summary).1.resultsOf job = [(id, r)] ∧
      r.resultJson = summary := by
  unfold Database.saveResult
  split
  · next hrows =>
    have hempty : (db.extractionResults.select fun r => r.jobId == job) = [] := hrows
    let row : ExtractionResult := { tenantId := tenant, jobId := job, resultJson := summary }
    exact ⟨db.extractionResults.nextId, row, by simp [Database.resultsOf, hempty, row], rfl⟩
  · next id row rest hrows =>
    obtain rfl : rest = [] := by simpa [hrows] using h
    let row' : ExtractionResult :=
      { row with tenantId := tenant, resultJson := summary, reviewStatus := .pending }
    refine ⟨id, row', (resultsOf_update db job id tenant summary).trans ?_, rfl⟩
    simp [hrows, Table.updateRows, row']

/-- A step leaves the results of the other jobs. -/
theorem ProcessMove.resultsOf_ne (h : ProcessMove job db stored pc act db' pc') {j : ℕ}
    (hj : j ≠ job) : db'.resultsOf j = db.resultsOf j := by
  cases h
  case complete loaded result => exact saveResult_resultsOf_ne db hj stored.tenantId result
  all_goals rfl

/-- A run that made its terminal commit does not take it back. -/
theorem ProcessMove.active_of_active {p : Pc} (h : ProcessMove job db stored pc act db' (some p))
    (hp : p.active = true) : pc.active = true := by
  cases h <;> simp_all [Pc.active]
  case raise hmay => revert hmay; cases pc <;> simp [Pc.mayRaise]

end Effects

end ExtractFlow
