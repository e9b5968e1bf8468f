import ExtractFlow.Lib.Transition
import ExtractFlow.Worker

/-!
# The job queue: workers and API requests on one database

Any number of workers poll the queue while any number of API requests create,
cancel and retry jobs.  The state is the committed database, the holder of the
write lock, the point each worker is at and the requests in flight; an action is
one statement of one of them, so a list of actions is an interleaving.

The claim is the one of the polling path: a `SELECT` of the oldest queued job,
an `UPDATE` guarded by `status = 'queued'`, and the commit.  Between the last two
the worker holds the write lock of the database, and nobody else writes.  A
request reads the job and checks its status in one transaction and writes it
back by primary key at its commit, whatever the row holds by then.

## Main definitions

* `Phase` — where a worker is; `Request` — a request that passed its checks.
* `QueueState`, `QueueAct`, `queueStep` — the system.
* `QueueState.Idle` — nobody is in the middle of anything.
* `QueueState.Active s w j` — worker `w` is processing job `j`.

* `WorkerMove`, `ApiMove` — the steps of a worker and of a request, one constructor each.

## Main results

* `workerMove_of_step`, `apiMove_of_step` — the system takes only these steps.
* `commitRequest_get` — what the commit of a request leaves of a job.
* `jobs_persist` — no step deletes a job.
* `lockInv_step` — an uncommitted claim keeps everybody else from writing.
-/

namespace ExtractFlow

/-! ### State -/

/-- Where a worker is: looking for a job, claiming one, or processing the one it claimed. -/
inductive Phase where
  | idle
  /-- In `claim_next_job`, with this many attempts left. -/
  | selecting (tries : ℕ)
  /-- The candidate is read, the guarded `UPDATE` not yet run. -/
  | selected (tries job : ℕ)
  /-- The guarded `UPDATE` matched the row and is not yet committed. -/
  | claiming (job : ℕ)
  /-- In `process_once`, after the claim. -/
  | busy (job : ℕ) (pc : Pc)

/-- A request that read its job as `loaded`, passed its checks and has yet to
commit. -/
inductive Request where
  | retry (job : ℕ) (loaded : ExtractionJob) (document : Document)
      (checked : loaded.status = .failed)
  | cancel (job : ℕ) (loaded : ExtractionJob) (document : Document)
      (checked : loaded.status = .queued ∨ loaded.status = .running)

/-- The job a request is about. -/
def Request.job : Request → ℕ
  | .retry job _ _ _ => job
  | .cancel job _ _ _ => job

/-- The state all workers and requests share, and where each of them is. -/
structure QueueState where
  db : Database
  /-- The worker holding the write lock over an uncommitted claim. -/
  writer : Option ℕ := none
  workers : ℕ → Phase := fun _ => .idle
  requests : ℕ → Option Request := fun _ => none

/-- No worker and no request is in the middle of anything, as when the system starts. -/
structure QueueState.Idle (s : QueueState) : Prop where
  writer : s.writer = none
  workers : ∀ w, s.workers w = .idle
  requests : ∀ r, s.requests r = none

def QueueState.setWorker (s : QueueState) (w : ℕ) (ph : Phase) : QueueState :=
  { s with workers := Function.update s.workers w ph }

def QueueState.setRequest (s : QueueState) (r : ℕ) (q : Option Request) : QueueState :=
  { s with requests := Function.update s.requests r q }

/-- Worker `w` is between its claim of the job `j` and its terminal commit. -/
def QueueState.Active (s : QueueState) (w j : ℕ) : Prop :=
  ∃ pc : Pc, s.workers w = .busy j pc ∧ pc.active = true

/-! ### The claim -/

/-- `SELECT id ... WHERE status = 'queued' ORDER BY created_at LIMIT 1` may return `j`. -/
def Database.isOldestQueued (db : Database) (j : ℕ) : Bool :=
  match db.extractionJobs.get j with
  | some row => row.status == .queued &&
      (db.extractionJobs.select fun r => r.status == .queued).all
        fun q => row.createdAt ≤ q.2.createdAt
  | none => false

/-- The row the guarded `UPDATE` of the claim writes. -/
def ExtractionJob.claim (job : ExtractionJob) (w : ℕ) : ExtractionJob :=
  { job with status := .running, workerId := some w, attemptCount := job.attemptCount + 1 }

/-- The attempts `claim_next_job` makes. -/
def claimAttempts : ℕ := 5

/-- One statement of worker `w`. -/
def workerStep (s : QueueState) (w : ℕ) (act : WorkerAct) : Option QueueState :=
  match s.workers w, act with
  | .idle, .next => some (s.setWorker w (.selecting claimAttempts))
  | .selecting 0, .next => some (s.setWorker w .idle)
  | .selecting (_ + 1), .select none =>
      if (s.db.extractionJobs.select fun r => r.status == .queued).isEmpty then
        some (s.setWorker w .idle)
      else none
  | .selecting (tries + 1), .select (some j) =>
      if s.db.isOldestQueued j then some (s.setWorker w (.selected tries j)) else none
  | .selected tries j, .next =>
      if s.writer.isSome then none
      else if s.db.statusOf j = some .queued then
        some ({ s with writer := some w }.setWorker w (.claiming j))
      else
        -- no row matched: roll back and look for another job
        some (s.setWorker w (.selecting tries))
  | .claiming j, .next =>
      let db := { s.db with extractionJobs := s.db.extractionJobs.update j (·.claim w) }
      some ({ s with db := db, writer := none }.setWorker w (.busy j .load))
  | .busy j pc, act =>
      if pc.commits && s.writer.isSome then none
      else (processStep j s.db pc act).map fun p =>
        { s with db := p.1 }.setWorker w (p.2.elim .idle (.busy j))
  | _, _ => none

/-! ### The requests -/

/-- `retry_failed_job`. -/
def retryFailedJob (job : ExtractionJob) : ExtractionJob :=
  { job with
    status := .queued
    errorMessage := none
    progressStage := some .queued
    progressPct := 0
    workerId := none }

/-- `cancel_job`. -/
def cancelJob (job : ExtractionJob) : ExtractionJob :=
  { job with
    status := .cancelled
    errorMessage := some "Cancelled by operator."
    progressStage := some .cancelled
    progressPct := 0
    workerId := none }

/-- The status `cancel_job` gives the document. -/
def cancelDocumentStatus (status : DocumentStatus) : DocumentStatus :=
  if status = .queued ∨ status = .processing then .uploaded else status

/-- `record_audit_event` for a job. -/
def Database.recordJobAudit (db : Database) (tenant actor action : String) (job : ℕ)
    (metadata : List (String × PyVal)) : Database :=
  { db with
    auditEvents := db.auditEvents.insert
      { tenantId := tenant, actor := actor, action := action, objectType := "job",
        objectId := job, metadata := metadata } }

/-- The commit of a request: the job by primary key, the document, the audit event. -/
def Database.commitRequest (db : Database) (actor : String) : Request → Database
  | .retry job loaded document _ =>
      let db := db.commitJob job loaded (retryFailedJob loaded)
      { db with
        documents := db.documents.update loaded.documentId fun d =>
          { d with status := writeBack document.status .queued d.status } }
        |>.recordJobAudit loaded.tenantId actor "job.retried" job
          [("job_id", .int job), ("document_id", .int loaded.documentId)]
  | .cancel job loaded document _ =>
      let db := db.commitJob job loaded (cancelJob loaded)
      { db with
        documents := db.documents.update loaded.documentId fun d =>
          { d with
            status := writeBack document.status (cancelDocumentStatus document.status) d.status } }
        |>.recordJobAudit loaded.tenantId actor "job.cancelled" job
          [("job_id", .int job), ("document_id", .int loaded.documentId)]

/-- What an API request does. Reading and committing are two steps, between which others come. -/
inductive ApiAct where
  /-- `create_job`, past its validation. -/
  | createJob (tenant actor : String) (document version : ℕ)
      (override : Option LLMProviderSettings) (createdAt : ℕ)
  /-- Request `r` of `retry_job` reads the job and checks it.  The provider
  checks that follow can only end the request. -/
  | readRetry (r : ℕ) (tenant : String) (job : ℕ)
  /-- Request `r` of `cancel_job_route` reads the job and checks it. -/
  | readCancel (r : ℕ) (tenant : String) (job : ℕ)
  /-- Request `r` commits. -/
  | commit (r : ℕ) (actor : String)
  /-- Request `r` ends with an error response. -/
  | abandon (r : ℕ)

/-- The job and the document of a request, both of the tenant. -/
def Database.requestRows (db : Database) (tenant : String) (job : ℕ) :
    Option (ExtractionJob × Document) :=
  match db.extractionJobs.get job with
  | some row =>
      match db.documents.get row.documentId with
      | some document =>
          if row.tenantId = tenant ∧ document.tenantId = tenant then some (row, document)
          else none
      | none => none
  | none => none

/-- The tenant owns the template version. -/
def Database.hasTemplateVersion (db : Database) (tenant : String) (version : ℕ) : Bool :=
  (db.templateVersions.get version).any fun v => v.tenantId == tenant

/-- `create_job`: the new row, and the document queued. -/
def Database.createJob (db : Database) (tenant actor : String) (document version : ℕ)
    (override : Option LLMProviderSettings) (createdAt : ℕ) : Database :=
  let job := db.extractionJobs.nextId
  { db with
    extractionJobs := db.extractionJobs.insert
      { tenantId := tenant, documentId := document, templateVersionId := version,
        providerOverride := override, progressStage := some .queued, progressPct := 0,
        createdAt := createdAt } }
    |>.setDocumentStatus document .queued
    |>.recordJobAudit tenant actor "job.queued" job
      [("job_id", .int job), ("document_id", .int document), ("template_version_id", .int version)]

/-- One step of an API request. -/
def apiStep (s : QueueState) : ApiAct → Option QueueState
  | .createJob tenant actor document version override createdAt =>
      if s.writer.isSome then none
      else
        match s.db.documents.get document, s.db.templateVersions.get version with
        | some d, some v =>
            if d.tenantId = tenant ∧ v.tenantId = tenant then
              some { s with db := s.db.createJob tenant actor document version override createdAt }
            else none
        | _, _ => none
  | .readRetry r tenant job =>
      match s.requests r, s.db.requestRows tenant job with
      | none, some (row, document) =>
          if h : row.status = .failed ∧ s.db.hasTemplateVersion tenant row.templateVersionId then
            some (s.setRequest r (some (.retry job row document h.1)))
          else none
      | _, _ => none
  | .readCancel r tenant job =>
      match s.requests r, s.db.requestRows tenant job with
      | none, some (row, document) =>
          if h : row.status = .queued ∨ row.status = .running then
            some (s.setRequest r (some (.cancel job row document h)))
          else none
      | _, _ => none
  | .commit r actor =>
      if s.writer.isSome then none
      else (s.requests r).map fun q =>
        { s with db := s.db.commitRequest actor q }.setRequest r none
  | .abandon r => some (s.setRequest r none)

/-! ### The system -/

/-- A statement of a worker or of a request; a list of them is an interleaving. -/
inductive QueueAct where
  | worker (w : ℕ) (act : WorkerAct)
  | api (act : ApiAct)

/-- One step of the system, which is refused where the statement cannot run. -/
def queueStep (s : QueueState) : QueueAct → Option QueueState
  | .worker w act => workerStep s w act
  | .api act => apiStep s act

/-! ### The state accessors -/

section Accessors

variable (s : QueueState) (w r : ℕ) (ph : Phase) (q : Option Request)

@[simp] theorem setWorker_db : (s.setWorker w ph).db = s.db := rfl
@[simp] theorem setWorker_writer : (s.setWorker w ph).writer = s.writer := rfl
@[simp] theorem setWorker_requests : (s.setWorker w ph).requests = s.requests := rfl
@[simp] theorem setRequest_db : (s.setRequest r q).db = s.db := rfl
@[simp] theorem setRequest_writer : (s.setRequest r q).writer = s.writer := rfl
@[simp] theorem setRequest_workers : (s.setRequest r q).workers = s.workers := rfl

@[simp] theorem setWorker_self : (s.setWorker w ph).workers w = ph := by
  simp [QueueState.setWorker]

theorem setWorker_ne {w' : ℕ} (h : w' ≠ w) : (s.setWorker w ph).workers w' = s.workers w' := by
  simp [QueueState.setWorker, h]

@[simp] theorem setRequest_self : (s.setRequest r q).requests r = q := by
  simp [QueueState.setRequest]

theorem setRequest_ne {r' : ℕ} (h : r' ≠ r) :
    (s.setRequest r q).requests r' = s.requests r' := by
  simp [QueueState.setRequest, h]

end Accessors

/-! ### The steps, one by one -/

/-- Polling or waiting: the worker holds no job and no lock. -/
def Phase.looking : Phase → Bool
  | .idle | .selecting _ | .selected _ _ => true
  | .claiming _ | .busy _ _ => false

/-- The state after the claim of the job `j` by worker `w` commits. -/
def QueueState.claimed (s : QueueState) (w j : ℕ) : QueueState :=
  { s with
    db := { s.db with extractionJobs := s.db.extractionJobs.update j (·.claim w) }
    writer := none }.setWorker w (.busy j .load)

/-- The steps of worker `w`: it looks, locks, claims, or processes. -/
inductive WorkerMove (s : QueueState) (w : ℕ) : QueueState → Prop
  /-- It looks for a job: nothing but its phase changes. -/
  | look (ph : Phase) : (s.workers w).looking = true → ph.looking = true →
      WorkerMove s w (s.setWorker w ph)
  /-- The guarded `UPDATE` of a claim matches. -/
  | lock (tries j : ℕ) : s.workers w = .selected tries j → s.writer = none →
      s.db.statusOf j = some .queued →
      WorkerMove s w ({ s with writer := some w }.setWorker w (.claiming j))
  | claim (j : ℕ) : s.workers w = .claiming j → WorkerMove s w (s.claimed w j)
  /-- It processes the job it claimed; a commit needs the write lock free. -/
  | process (j : ℕ) (pc : Pc) (act : WorkerAct) (stored : ExtractionJob) (db' : Database)
      (pc' : Option Pc) : s.workers w = .busy j pc → (pc.commits = true → s.writer = none) →
      s.db.extractionJobs.get j = some stored → ProcessMove j s.db stored pc act db' pc' →
      WorkerMove s w ({ s with db := db' }.setWorker w (pc'.elim .idle (.busy j)))

/-- A worker takes no other steps than these. -/
theorem workerMove_of_step {s t : QueueState} {w : ℕ} {act : WorkerAct}
    (h : workerStep s w act = some t) : WorkerMove s w t := by
  unfold workerStep at h
  split at h
  case h_1 hw => obtain rfl := Option.some.inj h; exact .look _ (by simp [hw, Phase.looking]) rfl
  case h_2 hw => obtain rfl := Option.some.inj h; exact .look _ (by simp [hw, Phase.looking]) rfl
  case h_3 tries hw =>
    split at h
    · obtain rfl := Option.some.inj h
      exact .look _ (by simp [hw, Phase.looking]) rfl
    · cases h
  case h_4 tries j hw =>
    split at h
    · obtain rfl := Option.some.inj h
      exact .look _ (by simp [hw, Phase.looking]) rfl
    · cases h
  case h_5 tries j hw =>
    split at h
    · cases h
    · next hfree =>
      split at h
      · next hqueued =>
        obtain rfl := Option.some.inj h
        exact .lock tries j hw (by simpa using hfree) hqueued
      · obtain rfl := Option.some.inj h
        exact .look _ (by simp [hw, Phase.looking]) rfl
  case h_6 j hw => obtain rfl := Option.some.inj h; exact .claim j hw
  -- the worker has a job: its step is one of `process_once`
  case h_7 j pc hw =>
    split at h
    · cases h
    · next hfree =>
      obtain ⟨⟨db', pc'⟩, hstep, rfl⟩ := Option.map_eq_some_iff.mp h
      obtain ⟨stored, hget, htrans⟩ := processMove_of_step hstep
      refine .process j pc _ stored db' pc' hw ?_ hget htrans
      intro hcommits
      simpa [hcommits] using hfree
  case h_8 => cases h

/-- The steps of the requests: only the insert of a job and the commit of a request write. -/
inductive ApiMove (s : QueueState) : ApiAct → QueueState → Prop
  | create (tenant actor document version override createdAt) : s.writer = none →
      ApiMove s (.createJob tenant actor document version override createdAt)
        { s with db := s.db.createJob tenant actor document version override createdAt }
  | readRetry (r tenant job row document checked) : s.db.extractionJobs.get job = some row →
      ApiMove s (.readRetry r tenant job) (s.setRequest r (some (.retry job row document checked)))
  | readCancel (r tenant job row document checked) : s.db.extractionJobs.get job = some row →
      ApiMove s (.readCancel r tenant job)
        (s.setRequest r (some (.cancel job row document checked)))
  | commit (r actor q) : s.writer = none → s.requests r = some q →
      ApiMove s (.commit r actor)
        ({ s with db := s.db.commitRequest actor q }.setRequest r none)
  | abandon (r) : ApiMove s (.abandon r) (s.setRequest r none)

/-- A request works on the row that is stored. -/
theorem requestRows_get {db : Database} {tenant : String} {job : ℕ} {row : ExtractionJob}
    {document : Document} (h : db.requestRows tenant job = some (row, document)) :
    db.extractionJobs.get job = some row := by
  unfold Database.requestRows at h
  split at h
  · next row' hrow =>
    split at h
    · split at h
      · simp only [Option.some.injEq, Prod.mk.injEq] at h
        rw [hrow, h.1]
      · cases h
    · cases h
  · cases h

/-- A request takes no other steps than these. -/
theorem apiMove_of_step {s t : QueueState} {act : ApiAct} (h : apiStep s act = some t) :
    ApiMove s act t := by
  cases act with
  | createJob tenant actor document version override createdAt =>
    simp only [apiStep] at h
    split at h
    · cases h
    · next hfree =>
      split at h
      · split at h
        · obtain rfl := Option.some.inj h
          exact .create _ _ _ _ _ _ (by simpa using hfree)
        · cases h
      · cases h
  -- a job is read by a request only when its status allows it
  | readRetry r tenant job =>
    simp only [apiStep] at h
    split at h
    · next row document _ hrows =>
      split at h
      · next hfailed =>
        obtain rfl := Option.some.inj h
        exact .readRetry r tenant job row document hfailed.1 (requestRows_get hrows)
      · cases h
    · cases h
  | readCancel r tenant job =>
    simp only [apiStep] at h
    split at h
    · next row document _ hrows =>
      split at h
      · next hlive =>
        obtain rfl := Option.some.inj h
        exact .readCancel r tenant job row document hlive (requestRows_get hrows)
      · cases h
    · cases h
  | commit r actor =>
    simp only [apiStep] at h
    split at h
    · cases h
    · next hfree =>
      obtain ⟨q, hq, rfl⟩ := Option.map_eq_some_iff.mp h
      exact .commit r actor q (by simpa using hfree) hq
  | abandon r => obtain rfl := Option.some.inj h; exact .abandon r

/-! ### What the requests change -/

/-- The row the commit of a request writes, from the row it loaded. -/
def Request.newRow : Request → ExtractionJob
  | .retry _ loaded _ _ => retryFailedJob loaded
  | .cancel _ loaded _ _ => cancelJob loaded

/-- The row a request loaded. -/
def Request.loaded : Request → ExtractionJob
  | .retry _ loaded _ _ => loaded
  | .cancel _ loaded _ _ => loaded

theorem commitRequest_jobs (db : Database) (actor : String) (q : Request) :
    (db.commitRequest actor q).extractionJobs =
      db.extractionJobs.update q.job (ExtractionJob.flush q.loaded q.newRow) := by
  cases q <;> rfl

/-- A request touches no job but its own, whatever it read. -/
theorem commitRequest_get (db : Database) (actor : String) (q : Request) {j : ℕ}
    (hj : j ≠ q.job) :
    (db.commitRequest actor q).extractionJobs.get j = db.extractionJobs.get j := by
  rw [commitRequest_jobs]
  exact Table.get_update_ne _ _ hj

/-- A new job leaves the jobs there. -/
theorem createJob_get {db : Database} {j : ℕ} {row : ExtractionJob}
    (h : db.extractionJobs.get j = some row) (tenant actor : String) (document version : ℕ)
    (override : Option LLMProviderSettings) (createdAt : ℕ) :
    (db.createJob tenant actor document version override createdAt).extractionJobs.get j =
      some row :=
  Table.get_insert_of_get _ h

/-- The status of the job after the commit of a request. -/
theorem commitRequest_statusOf (db : Database) (actor : String) (q : Request) :
    (db.commitRequest actor q).statusOf q.job = (db.statusOf q.job).map fun _ => q.newRow.status := by
  unfold Database.statusOf
  rw [commitRequest_jobs, Table.get_update_self, Option.map_map, Option.map_map]
  congr 1
  funext row
  -- the check of the request says that the status it writes is a change
  have hchange : q.newRow.status ≠ q.loaded.status := by
    cases q with
    | retry job loaded document checked => simp [Request.newRow, Request.loaded, retryFailedJob,
        checked]
    | cancel job loaded document checked =>
      rcases checked with h | h <;> simp [Request.newRow, Request.loaded, cancelJob, h]
  exact writeBack_of_ne hchange

/-! ### What a step leaves -/

/-- A worker moves no other worker, and a request moves none. -/
theorem workers_ne {s t : QueueState} {act : QueueAct} (h : queueStep s act = some t) {w : ℕ}
    (hw : ∀ a, act ≠ .worker w a) : t.workers w = s.workers w := by
  cases act with
  | worker w' act =>
    have hne : w ≠ w' := by
      rintro rfl
      exact hw act rfl
    cases workerMove_of_step h with
    | look | lock | process => exact setWorker_ne _ _ _ hne
    | claim => exact setWorker_ne _ _ _ hne
  | api act => cases apiMove_of_step h <;> rfl

/-- **No step deletes a job**; its row is only ever rewritten. -/
theorem jobs_persist {s t : QueueState} {act : QueueAct} (h : queueStep s act = some t) {j : ℕ}
    (hj : (s.db.extractionJobs.get j).isSome = true) :
    (t.db.extractionJobs.get j).isSome = true := by
  cases act with
  | worker w act =>
    cases workerMove_of_step h with
    | look | lock => exact hj
    | claim j' => simpa [QueueState.claimed] using hj
    | process j' pc act stored db' pc' hw hfree hget hmove =>
      by_cases hne : j = j'
      · obtain ⟨row, hrow, -⟩ := hmove.jobs_self hget
        exact Option.isSome_iff_exists.mpr ⟨row, hne ▸ hrow⟩
      · rw [setWorker_db, hmove.jobs_ne hne]
        exact hj
  | api act =>
    cases apiMove_of_step h with
    | create =>
      obtain ⟨row, hrow⟩ := Option.isSome_iff_exists.mp hj
      exact Option.isSome_iff_exists.mpr ⟨row, createJob_get hrow _ _ _ _ _ _⟩
    | readRetry | readCancel | abandon => exact hj
    | commit r actor q =>
      rw [setRequest_db, commitRequest_jobs, Table.get_update_isSome]
      exact hj

/-! ### The write lock -/

/-- A worker about to commit its claim holds the lock, over a queued job. -/
def LockInv (s : QueueState) : Prop :=
  ∀ w j, s.workers w = .claiming j → s.writer = some w ∧ s.db.statusOf j = some .queued

theorem lockInv_worker {s t : QueueState} {w : ℕ} (hs : LockInv s) (h : WorkerMove s w t) :
    LockInv t := by
  intro w' j' hw'
  cases h with
  | look ph _ hlook =>
    by_cases hne : w' = w
    · subst hne
      rw [setWorker_self] at hw'
      simp [hw', Phase.looking] at hlook
    · exact hs w' j' ((setWorker_ne s w ph hne).symm.trans hw')
  | lock tries j _ hfree hqueued =>
    by_cases hne : w' = w
    · subst hne
      rw [setWorker_self] at hw'
      obtain rfl : j = j' := by simpa using hw'
      exact ⟨rfl, hqueued⟩
    · rw [setWorker_ne _ _ _ hne] at hw'
      have := (hs w' j' hw').1
      simp [hfree] at this
  | claim j hw =>
    by_cases hne : w' = w
    · subst hne
      simp [QueueState.claimed] at hw'
    · simp only [QueueState.claimed, setWorker_ne _ _ _ hne] at hw'
      have := (hs w' j' hw').1
      rw [(hs w j hw).1] at this
      exact absurd (Option.some.inj this).symm hne
  | process j pc act stored db' pc' hw hfree hget hmove =>
    by_cases hne : w' = w
    · subst hne
      rw [setWorker_self] at hw'
      cases pc' <;> simp at hw'
    · rw [setWorker_ne _ _ _ hne] at hw'
      obtain ⟨hlock, hqueued⟩ := hs w' j' hw'
      -- the lock is held, so this step commits nothing
      have hquiet : pc.commits = false := by
        by_contra hcommits
        rw [hfree (by simpa using hcommits)] at hlock
        cases hlock
      obtain rfl := hmove.quiet hquiet
      exact ⟨hlock, hqueued⟩

theorem lockInv_api {s t : QueueState} {act : ApiAct} (hs : LockInv s) (h : ApiMove s act t) :
    LockInv t := by
  intro w j hw
  cases h with
  | create tenant actor document version override createdAt hfree =>
    have := (hs w j hw).1
    simp [hfree] at this
  | readRetry | readCancel | abandon => exact hs w j hw
  | commit r actor q hfree hq =>
    have := (hs w j hw).1
    simp [hfree] at this

/-- **An uncommitted claim keeps everybody else from writing**, and the lock is held for nothing
else. -/
theorem lockInv_step {s t : QueueState} {act : QueueAct} (hs : LockInv s)
    (h : queueStep s act = some t) : LockInv t := by
  cases act with
  | worker w act => exact lockInv_worker hs (workerMove_of_step h)
  | api act => exact lockInv_api hs (apiMove_of_step h)

theorem lockInv_of_idle {s : QueueState} (h : s.Idle) : LockInv s := by
  intro w j hw
  rw [h.workers w] at hw
  cases hw

end ExtractFlow
