import ExtractFlow.JobQueue

/-!
# The status of a document and its jobs

Requests one after the other, and any number of workers.  A document has one
status column, which five operations write: a new job and a retry set it to
`queued`, the start of a run to `processing`, and the end of one — completion,
failure, cancellation — to `completed`, `failed` or `uploaded`.  Each thinks of
its own job.  An end overwrites what another job of the document needs, and a
cancellation forgets that an earlier job completed.

A worker on a job knows more than the row: until its terminal commit the job is
running or cancelled, and nobody else works on it.

## Main definitions

* `SequentialAct`, `sequentialStep` — the system with atomic requests.
* `DocumentStatusOk` — the statuses reflect the jobs.
* `EndsAlone` — a job ends while its document has no other to lose.
* `Pc.admits`, `Pc.engaged`, `WorkerInv` — what a worker knows of its job.
* `JobMove` — one job of one document changed its status.

## Main results

* `workerInv_step` — the workers' knowledge is kept.
* `documentStatusOk_step` — a step that ends a job alone keeps the statuses right.
* `document_status_reflects_jobs` — so they are in every state of a run.
* `cancel_forgets_queued_job` — without that condition they may not be.
-/

namespace ExtractFlow

open Transition

/-! ### The system -/

/-- A statement of a worker, or a whole request: requests do not interleave here. -/
inductive SequentialAct where
  | worker (w : ℕ) (act : WorkerAct)
  | createJob (tenant actor : String) (document version : ℕ)
      (override : Option LLMProviderSettings) (createdAt : ℕ)
  | retry (tenant actor : String) (job : ℕ)
  | cancel (tenant actor : String) (job : ℕ)

/-- One step: a statement of a worker, or a request from its read to its commit. -/
def sequentialStep (s : QueueState) : SequentialAct → Option QueueState
  | .worker w act => workerStep s w act
  | .createJob tenant actor document version override createdAt =>
      apiStep s (.createJob tenant actor document version override createdAt)
  | .retry tenant actor job =>
      (apiStep s (.readRetry 0 tenant job)).bind fun s => apiStep s (.commit 0 actor)
  | .cancel tenant actor job =>
      (apiStep s (.readCancel 0 tenant job)).bind fun s => apiStep s (.commit 0 actor)

/-! ### The property -/

/-- A job of the document `d` has a status with `p`. -/
def Database.JobOn (db : Database) (d : ℕ) (p : JobStatus → Prop) : Prop :=
  ∃ j row, db.extractionJobs.get j = some row ∧ row.documentId = d ∧ p row.status

/-- Queued or running. -/
def JobStatus.Live (status : JobStatus) : Prop := status = .queued ∨ status = .running

instance : DecidablePred JobStatus.Live := fun status =>
  inferInstanceAs (Decidable (status = .queued ∨ status = .running))

/-- The status of a document reflects its jobs: while one is running or queued it says so, and once
one is completed it does not say that nothing was done. -/
structure StatusReflects (db : Database) (d : ℕ) (status : DocumentStatus) : Prop where
  running : db.JobOn d (· = .running) → status = .processing ∨ status = .queued
  queued : db.JobOn d (· = .queued) → status ≠ .uploaded ∧ status ≠ .completed ∧ status ≠ .failed
  completed : db.JobOn d (· = .completed) → ¬ db.JobOn d JobStatus.Live → status ≠ .uploaded

/-- The statuses of all documents reflect their jobs, as far as a status can tell about several. -/
def DocumentStatusOk (db : Database) : Prop :=
  ∀ d document, db.documents.get d = some document → StatusReflects db d document.status

/-! ### The condition -/

/-- No other job of the document of `j` has a status with `p`. -/
def Database.NoOther (db : Database) (j : ℕ) (p : JobStatus → Prop) : Prop :=
  ∀ row j' row', db.extractionJobs.get j = some row → db.extractionJobs.get j' = some row' →
    j' ≠ j → row'.documentId = row.documentId → ¬ p row'.status

/-- Queued, running or completed. -/
def JobStatus.LiveOrDone (status : JobStatus) : Prop := status.Live ∨ status = .completed

/-- The commit that ends the job `j` finds no other job of the document to lose:
for a completion or a failure none queued or running, for a finalisation none
completed either. -/
def Pc.mayEnd (db : Database) (j : ℕ) : Pc → Prop
  | .complete _ _ | .fail _ _ _ => db.NoOther j JobStatus.Live
  | .finalize _ _ => db.NoOther j JobStatus.LiveOrDone
  | _ => True

/-- A job ends while its document has no other to lose: none that is queued or running, and for a
cancellation none that is completed. -/
def EndsAlone (s : QueueState) : SequentialAct → Prop
  | .worker w _ =>
      match s.workers w with
      | .busy j pc => pc.mayEnd s.db j
      | _ => True
  | .cancel _ _ j => s.db.NoOther j JobStatus.LiveOrDone
  | _ => True

/-! ### What a worker knows of its job -/

/-- The statuses the job may have while its worker is at this point. -/
def Pc.admits : Pc → JobStatus → Prop
  | .missingStatus, _ | .statusFailed, _ => True
  | .statusCompleted, status | .fail true _ _, status => status = .completed
  | .refresh true _, status => status = .completed ∨ status = .cancelled
  | .finalize _ _, status | .statusIdle _, status => status = .cancelled
  | _, status => status = .running ∨ status = .cancelled

/-- The copy of the job a point is about to end it from. -/
def Pc.CopyOk : Pc → Prop
  | .complete loaded _ => loaded.status = .running
  | .fail _ loaded _ => loaded.status = .running ∨ loaded.status = .completed
  | _ => True

/-- The worker may still write the job, so no other worker must be on it. -/
def Pc.engaged : Pc → Bool
  | .missingStatus | .statusFailed => false
  | _ => true

/-- What the workers know of their jobs: at each point which statuses the stored row may have, and
that nobody else is on the job. -/
structure WorkerInv (s : QueueState) : Prop where
  lock : LockInv s
  knows : ∀ w j pc, s.workers w = .busy j pc →
    ∃ row, s.db.extractionJobs.get j = some row ∧ pc.admits row.status ∧ pc.CopyOk
  unique : ∀ w w' j pc pc', s.workers w = .busy j pc → s.workers w' = .busy j pc' →
    pc.engaged = true → pc'.engaged = true → w = w'

theorem workerInv_of_idle {s : QueueState} (h : s.Idle) : WorkerInv s where
  lock := lockInv_of_idle h
  knows w j pc hw := by
    rw [h.workers w] at hw
    cases hw
  unique w w' j pc pc' hw := by
    rw [h.workers w] at hw
    cases hw

/-- A point that admits a queued or a failed job is past its terminal commit. -/
theorem Pc.released_of_admits {pc : Pc} {status : JobStatus}
    (hstatus : status = .queued ∨ status = .failed) (h : pc.admits status) :
    pc = .missingStatus ∨ pc = .statusFailed := by
  cases pc with
  | missingStatus => exact Or.inl rfl
  | statusFailed => exact Or.inr rfl
  | refresh committed msg => cases committed <;> rcases hstatus with rfl | rfl <;> simp [admits] at h
  | fail committed loaded msg =>
    cases committed <;> rcases hstatus with rfl | rfl <;> simp [admits] at h
  | _ => rcases hstatus with rfl | rfl <;> simp [admits] at h

/-- A point past its terminal commit admits anything and never writes again. -/
theorem Pc.admits_of_not_engaged {pc : Pc} (h : pc.engaged = false) (status : JobStatus) :
    pc.admits status := by
  cases pc <;> simp [engaged] at h <;> trivial

theorem Pc.not_engaged_of_admits {pc : Pc} {status : JobStatus}
    (hstatus : status = .queued ∨ status = .failed) (h : pc.admits status) :
    pc.engaged = false := by
  rcases released_of_admits hstatus h with rfl | rfl <;> rfl

/-- Whoever admits a running job admits its cancellation. -/
theorem Pc.admits_cancelled {pc : Pc} (h : pc.admits .running) : pc.admits .cancelled := by
  cases pc with
  | missingStatus | statusFailed => trivial
  | refresh committed msg => cases committed <;> simp [admits] at h ⊢
  | fail committed loaded msg => cases committed <;> simp [admits] at h ⊢
  | _ => simp [admits] at h ⊢

/-- A worker past its terminal commit only leaves. -/
theorem ProcessMove.leaves {job : ℕ} {db db' : Database} {stored : ExtractionJob} {pc : Pc}
    {act : WorkerAct} {pc' : Option Pc} (h : ProcessMove job db stored pc act db' pc')
    (hpc : pc.engaged = false) : db' = db ∧ pc' = none := by
  cases h
  case raise hmay => revert hmay hpc; cases pc <;> simp [Pc.mayRaise, Pc.engaged]
  all_goals first
    | exact ⟨rfl, rfl⟩
    | simp [Pc.engaged] at hpc

/-- **What a worker knows of its job is what its next point needs.** -/
theorem ProcessMove.knows {job : ℕ} {db db' : Database} {stored : ExtractionJob} {pc : Pc}
    {act : WorkerAct} {p : Pc} (h : ProcessMove job db stored pc act db' (some p))
    (hget : db.extractionJobs.get job = some stored) (hadmits : pc.admits stored.status)
    (hcopy : pc.CopyOk) :
    ∃ row, db'.extractionJobs.get job = some row ∧ p.admits row.status ∧ p.CopyOk := by
  -- a write back that leaves the status
  have same : ∀ loaded new : ExtractionJob, new.status = loaded.status →
      ∃ row, (db.extractionJobs.update job (ExtractionJob.flush loaded new)).get job = some row ∧
        row.status = stored.status := by
    intro loaded new hnew
    refine ⟨ExtractionJob.flush loaded new stored, by simp [hget], ?_⟩
    rw [flush_status, hnew, writeBack_same]
  cases h
  case load => exact ⟨stored, hget, hadmits, trivial⟩
  case loadMissing => exact ⟨stored, hget, hadmits, trivial⟩
  case missing loaded =>
    exact ⟨ExtractionJob.flush loaded (loaded.failWith missingMessage) stored, by simp [hget],
      trivial, trivial⟩
  case tenantsAgree => exact ⟨stored, hget, hadmits, trivial⟩
  case tenantsDiffer => exact ⟨stored, hget, hadmits, trivial⟩
  case start loaded document =>
    obtain ⟨row, hrow, hstatus⟩ := same loaded (loaded.atStage .parsing) rfl
    exact ⟨row, hrow, hstatus.symm ▸ hadmits, trivial⟩
  case statusRunning => exact ⟨stored, hget, hadmits, trivial⟩
  case materialize => exact ⟨stored, hget, hadmits, trivial⟩
  case parsed => exact ⟨stored, hget, hadmits, trivial⟩
  case storeText => exact ⟨stored, hget, hadmits, trivial⟩
  case parsedLive => exact ⟨stored, hget, hadmits, trivial⟩
  case parsedCancelled hcancelled => exact ⟨stored, hget, hcancelled, trivial⟩
  case beginReport => exact ⟨stored, hget, hadmits, trivial⟩
  case report loaded stage stages =>
    obtain ⟨row, hrow, hstatus⟩ := same loaded (loaded.atStage stage) rfl
    exact ⟨row, hrow, hstatus.symm ▸ hadmits, trivial⟩
  case extracted => exact ⟨stored, hget, hadmits, trivial⟩
  case extractedLive result hlive =>
    exact ⟨stored, hget, hadmits, hadmits.resolve_right hlive⟩
  case extractedCancelled hcancelled => exact ⟨stored, hget, hcancelled, trivial⟩
  case complete loaded result =>
    refine ⟨ExtractionJob.flush loaded loaded.succeed stored, by simp [hget], ?_, trivial⟩
    have hrunning : loaded.status = .running := hcopy
    have hchange : loaded.succeed.status ≠ loaded.status := by simp [ExtractionJob.succeed, hrunning]
    exact writeBack_of_ne hchange
  case raise msg hmay =>
    refine ⟨stored, hget, ?_, trivial⟩
    revert hmay hadmits
    cases pc <;> simp [Pc.mayRaise, Pc.admits]
  case raiseCompleted => exact ⟨stored, hget, Or.inl hadmits, trivial⟩
  case refreshLive committed msg hlive =>
    cases committed with
    | false =>
      have hrunning : stored.status = .running := hadmits.resolve_right hlive
      exact ⟨stored, hget, hadmits, Or.inl hrunning⟩
    | true =>
      have hdone : stored.status = .completed := hadmits.resolve_right hlive
      exact ⟨stored, hget, hdone, Or.inr hdone⟩
  case refreshCancelled hcancelled => exact ⟨stored, hget, hcancelled, trivial⟩
  case fail committed loaded msg =>
    exact ⟨ExtractionJob.flush loaded (loaded.failWith msg) stored, by simp [hget],
      trivial, trivial⟩
  case finalize => exact ⟨stored, hget, hadmits, trivial⟩
  case raiseIdle => exact ⟨stored, hget, Or.inr hadmits, trivial⟩

/-! ### The requests, whole -/

/-- The state after a request on the job `j` committed what it had read just before. -/
structure RequestMove (s : QueueState) (actor : String) (q : Request) (document : Document)
    (t : QueueState) : Prop where
  free : s.writer = none
  stored : s.db.extractionJobs.get q.job = some q.loaded
  document : s.db.documents.get q.loaded.documentId = some document
  db : t.db = s.db.commitRequest actor q
  workers : t.workers = s.workers
  writer : t.writer = none

theorem requestRows_document {db : Database} {tenant : String} {job : ℕ} {row : ExtractionJob}
    {document : Document} (h : db.requestRows tenant job = some (row, document)) :
    db.documents.get row.documentId = some document := by
  unfold Database.requestRows at h
  split at h
  · next row' hrow =>
    split at h
    · next document' hdocument =>
      split at h
      · simp only [Option.some.injEq, Prod.mk.injEq] at h
        rw [← h.1, hdocument, h.2]
      · cases h
    · cases h
  · cases h

/-- The commit of the request just read. -/
theorem requestMove_of_commit {s t : QueueState} {actor : String} {q : Request}
    {document : Document} (hjob : s.db.extractionJobs.get q.job = some q.loaded)
    (hdocument : s.db.documents.get q.loaded.documentId = some document)
    (h : apiStep (s.setRequest 0 (some q)) (.commit 0 actor) = some t) :
    RequestMove s actor q document t := by
  cases apiMove_of_step h with
  | commit _ _ q' hfree hq =>
    rw [setRequest_self] at hq
    obtain rfl := Option.some.inj hq
    exact ⟨hfree, hjob, hdocument, rfl, rfl, hfree⟩

/-- A retry works on the failed job it read. -/
theorem requestMove_of_retry {s t : QueueState} {tenant actor : String} {job : ℕ}
    (h : sequentialStep s (.retry tenant actor job) = some t) :
    ∃ row document checked, RequestMove s actor (.retry job row document checked) document t := by
  obtain ⟨u, hread, hcommit⟩ := Option.bind_eq_some_iff.mp h
  simp only [apiStep] at hread
  split at hread
  · next row document _ hrows =>
    split at hread
    · next hfailed =>
      obtain rfl := Option.some.inj hread
      exact ⟨row, document, hfailed.1,
        requestMove_of_commit (requestRows_get hrows) (requestRows_document hrows) hcommit⟩
    · cases hread
  · cases hread

/-- A cancellation works on the queued or running job it read. -/
theorem requestMove_of_cancel {s t : QueueState} {tenant actor : String} {job : ℕ}
    (h : sequentialStep s (.cancel tenant actor job) = some t) :
    ∃ row document checked, RequestMove s actor (.cancel job row document checked) document t := by
  obtain ⟨u, hread, hcommit⟩ := Option.bind_eq_some_iff.mp h
  simp only [apiStep] at hread
  split at hread
  · next row document _ hrows =>
    split at hread
    · next hlive =>
      obtain rfl := Option.some.inj hread
      exact ⟨row, document, hlive,
        requestMove_of_commit (requestRows_get hrows) (requestRows_document hrows) hcommit⟩
    · cases hread
  · cases hread

/-- The request writes the row it computed from the one that is stored. -/
theorem RequestMove.row {s t : QueueState} {actor : String} {q : Request} {document : Document}
    (h : RequestMove s actor q document t) :
    ∃ row, t.db.extractionJobs.get q.job = some row ∧ row.status = q.newRow.status ∧
      row.documentId = q.loaded.documentId := by
  refine ⟨ExtractionJob.flush q.loaded q.newRow q.loaded, ?_, ?_, rfl⟩
  · rw [h.db, commitRequest_jobs, Table.get_update_self, h.stored]
    rfl
  · rw [flush_status, writeBack_self]

theorem RequestMove.jobs_ne {s t : QueueState} {actor : String} {q : Request}
    {document : Document} (h : RequestMove s actor q document t) {j : ℕ} (hj : j ≠ q.job) :
    t.db.extractionJobs.get j = s.db.extractionJobs.get j := by
  rw [h.db]
  exact commitRequest_get s.db actor q hj

/-! ### The workers' knowledge is kept -/

/-- An update of the row of one job, which every worker on it admits. -/
theorem workerInv_of_row {s t : QueueState} (hs : WorkerInv s) (hlock : LockInv t)
    (hworkers : t.workers = s.workers) {j : ℕ} {row : ExtractionJob}
    (hrow : t.db.extractionJobs.get j = some row)
    (hne : ∀ j' row', j' ≠ j → s.db.extractionJobs.get j' = some row' →
      t.db.extractionJobs.get j' = some row')
    (hadmits : ∀ w pc, s.workers w = .busy j pc → pc.admits row.status) : WorkerInv t where
  lock := hlock
  knows w j' pc hw := by
    rw [hworkers] at hw
    obtain ⟨row', hget, hknows, hcopy⟩ := hs.knows w j' pc hw
    by_cases hj : j' = j
    · subst hj
      exact ⟨row, hrow, hadmits w pc hw, hcopy⟩
    · exact ⟨row', hne j' row' hj hget, hknows, hcopy⟩
  unique w w' j' pc pc' hw hw' := by
    rw [hworkers] at hw hw'
    exact hs.unique w w' j' pc pc' hw hw'

theorem workerInv_request {s t : QueueState} {actor : String} {q : Request} {document : Document}
    (hs : WorkerInv s) (h : RequestMove s actor q document t) : WorkerInv t := by
  obtain ⟨row, hrow, hstatus, -⟩ := h.row
  refine workerInv_of_row hs ?_ h.workers hrow ?_ ?_
  · intro w j hw
    rw [h.workers] at hw
    have hlock := (hs.lock w j hw).1
    rw [h.free] at hlock
    cases hlock
  · intro j' row' hj hget
    rw [h.jobs_ne hj]
    exact hget
  · intro w pc hw
    obtain ⟨stored, hget, hadmits, -⟩ := hs.knows w q.job pc hw
    obtain rfl := Option.some.inj (h.stored.symm.trans hget)
    rw [hstatus]
    cases q with
    | retry job loaded document' checked =>
      -- the job failed, so nobody on it writes any more
      exact Pc.admits_of_not_engaged (Pc.not_engaged_of_admits (Or.inr checked) hadmits) _
    | cancel job loaded document' checked =>
      rcases checked with hqueued | hrunning
      · exact Pc.admits_of_not_engaged (Pc.not_engaged_of_admits (Or.inl hqueued) hadmits) _
      · have hadmits : pc.admits loaded.status := hadmits
        rw [hrunning] at hadmits
        exact Pc.admits_cancelled hadmits

theorem workerInv_look {s : QueueState} (hs : WorkerInv s) {w : ℕ} {ph : Phase}
    (hph : ∀ j pc, ph ≠ .busy j pc) (hlock : LockInv (s.setWorker w ph)) :
    WorkerInv (s.setWorker w ph) := by
  have old : ∀ w' j pc, (s.setWorker w ph).workers w' = .busy j pc → s.workers w' = .busy j pc := by
    intro w' j pc hw'
    by_cases hne : w' = w
    · subst hne
      rw [setWorker_self] at hw'
      exact absurd hw' (hph j pc)
    · rwa [setWorker_ne s w ph hne] at hw'
  refine ⟨hlock, ?_, ?_⟩
  · intro w' j pc hw'
    exact hs.knows w' j pc (old w' j pc hw')
  · intro w₁ w₂ j pc₁ pc₂ h₁ h₂
    exact hs.unique w₁ w₂ j pc₁ pc₂ (old w₁ j pc₁ h₁) (old w₂ j pc₂ h₂)

/-- Nobody who may still write the job of an uncommitted claim works on it. -/
theorem WorkerInv.claiming {s : QueueState} (hs : WorkerInv s) {w w' j : ℕ} {pc : Pc}
    (hw : s.workers w = .claiming j) (hw' : s.workers w' = .busy j pc) : pc.engaged = false := by
  obtain ⟨row, hget, hadmits, -⟩ := hs.knows w' j pc hw'
  have hqueued : row.status = .queued := by
    have := (hs.lock w j hw).2
    simpa [Database.statusOf, hget] using this
  exact Pc.not_engaged_of_admits (Or.inl hqueued) hadmits

theorem workerInv_claim {s : QueueState} (hs : WorkerInv s) {w j : ℕ}
    (hw : s.workers w = .claiming j) (hlock : LockInv (s.claimed w j)) :
    WorkerInv (s.claimed w j) := by
  have old : ∀ w', w' ≠ w → (s.claimed w j).workers w' = s.workers w' := by
    intro w' hne
    exact setWorker_ne _ w _ hne
  have new : (s.claimed w j).workers w = .busy j .load := setWorker_self _ w _
  have hjobs : (s.claimed w j).db.extractionJobs = s.db.extractionJobs.update j (·.claim w) := rfl
  refine ⟨hlock, ?_, ?_⟩
  · intro w' j' pc hw'
    rw [hjobs, Table.get_update]
    by_cases hne : w' = w
    · subst hne
      obtain ⟨rfl, rfl⟩ : j = j' ∧ Pc.load = pc := by simpa using new.symm.trans hw'
      obtain ⟨row, hget, -⟩ := Option.map_eq_some_iff.mp (hs.lock _ _ hw).2
      exact ⟨row.claim w', by simp [hget], Or.inl rfl, trivial⟩
    · rw [old w' hne] at hw'
      obtain ⟨row, hget, hadmits, hcopy⟩ := hs.knows w' j' pc hw'
      by_cases hj : j' = j
      · subst hj
        exact ⟨row.claim w, by simp [hget],
          Pc.admits_of_not_engaged (hs.claiming hw hw') _, hcopy⟩
      · exact ⟨row, by simpa [hj] using hget, hadmits, hcopy⟩
  · intro w₁ w₂ j' pc₁ pc₂ h₁ h₂ he₁ he₂
    -- an engaged worker on `j` after the claim is the claimer
    have claimer : ∀ w' pc, (s.claimed w j).workers w' = .busy j pc → pc.engaged = true → w' = w := by
      intro w' pc hw' he
      by_contra hne
      rw [old w' hne] at hw'
      rw [hs.claiming hw hw'] at he
      cases he
    by_cases hj : j' = j
    · subst hj
      rw [claimer w₁ pc₁ h₁ he₁, claimer w₂ pc₂ h₂ he₂]
    · have other : ∀ w' pc, (s.claimed w j).workers w' = .busy j' pc → s.workers w' = .busy j' pc := by
        intro w' pc hw'
        by_cases hne : w' = w
        · subst hne
          rw [new] at hw'
          simp only [Phase.busy.injEq] at hw'
          exact absurd hw'.1.symm hj
        · rwa [old w' hne] at hw'
      exact hs.unique w₁ w₂ j' pc₁ pc₂ (other w₁ pc₁ h₁) (other w₂ pc₂ h₂) he₁ he₂

theorem workerInv_process {s : QueueState} (hs : WorkerInv s) {w j : ℕ} {pc : Pc}
    {act : WorkerAct} {stored : ExtractionJob} {db' : Database} {pc' : Option Pc}
    (hw : s.workers w = .busy j pc) (hget : s.db.extractionJobs.get j = some stored)
    (hmove : ProcessMove j s.db stored pc act db' pc')
    (hlock : LockInv ({ s with db := db' }.setWorker w (pc'.elim .idle (.busy j)))) :
    WorkerInv ({ s with db := db' }.setWorker w (pc'.elim .idle (.busy j))) := by
  set t := { s with db := db' }.setWorker w (pc'.elim .idle (.busy j)) with ht
  have old : ∀ w', w' ≠ w → t.workers w' = s.workers w' := by
    intro w' hne
    exact setWorker_ne _ w _ hne
  have new : t.workers w = pc'.elim .idle (.busy j) := setWorker_self _ w _
  obtain ⟨row, hrow, hadmits, hcopy⟩ := hs.knows w j pc hw
  obtain rfl := Option.some.inj (hget.symm.trans hrow)
  -- whoever else is on the job writes nothing more, unless this worker only leaves
  have others : ∀ w' p, w' ≠ w → s.workers w' = .busy j p → pc.engaged = true →
      p.engaged = false := by
    intro w' p hne hw' he
    by_contra hp
    exact hne (hs.unique w' w j p pc hw' hw (by simpa using hp) he)
  refine ⟨hlock, ?_, ?_⟩
  · intro w' j' p hw'
    by_cases hne : w' = w
    · subst hne
      rw [new] at hw'
      cases pc' with
      | none => cases hw'
      | some p' =>
        obtain ⟨rfl, rfl⟩ : j = j' ∧ p' = p := by simpa using hw'
        exact hmove.knows hget hadmits hcopy
    · rw [old w' hne] at hw'
      obtain ⟨row', hget', hadmits', hcopy'⟩ := hs.knows w' j' p hw'
      by_cases hj : j' = j
      · subst hj
        cases he : pc.engaged with
        | false =>
          obtain ⟨rfl, -⟩ := hmove.leaves he
          exact ⟨row', hget', hadmits', hcopy'⟩
        | true =>
          obtain ⟨new, hnew, -⟩ := hmove.jobs_self hget
          exact ⟨new, hnew, Pc.admits_of_not_engaged (others w' p hne hw' he) _, hcopy'⟩
      · refine ⟨row', ?_, hadmits', hcopy'⟩
        exact (hmove.jobs_ne hj).trans hget'
  · intro w₁ w₂ j' p₁ p₂ h₁ h₂ he₁ he₂
    -- this worker was engaged before, if it is after
    have before : ∀ w' p, t.workers w' = .busy j' p → p.engaged = true →
        ∃ p', s.workers w' = .busy j' p' ∧ p'.engaged = true := by
      intro w' p hw' he
      by_cases hne : w' = w
      · subst hne
        rw [new] at hw'
        cases pc' with
        | none => cases hw'
        | some p' =>
          obtain ⟨rfl, rfl⟩ : j = j' ∧ p' = p := by simpa using hw'
          refine ⟨pc, hw, ?_⟩
          by_contra hpc
          have := (hmove.leaves (by simpa using hpc)).2
          cases this
      · exact ⟨p, (old w' hne).symm.trans hw', he⟩
    obtain ⟨p₁', h₁, he₁⟩ := before w₁ p₁ h₁ he₁
    obtain ⟨p₂', h₂, he₂⟩ := before w₂ p₂ h₂ he₂
    exact hs.unique w₁ w₂ j' p₁' p₂' h₁ h₂ he₁ he₂

theorem workerInv_create {s : QueueState} (hs : WorkerInv s) (tenant actor : String)
    (document version : ℕ) (override : Option LLMProviderSettings) (createdAt : ℕ)
    (hfree : s.writer = none) :
    WorkerInv { s with db := s.db.createJob tenant actor document version override createdAt } where
  lock := by
    intro w j hw
    have hlock := (hs.lock w j hw).1
    rw [hfree] at hlock
    cases hlock
  knows w j pc hw := by
    obtain ⟨row, hget, hknows⟩ := hs.knows w j pc hw
    exact ⟨row, createJob_get hget _ _ _ _ _ _, hknows⟩
  unique := hs.unique

/-- **The workers’ knowledge is kept** by every step, of workers and requests alike. -/
theorem workerInv_step {s t : QueueState} {act : SequentialAct} (hs : WorkerInv s)
    (h : sequentialStep s act = some t) : WorkerInv t := by
  cases act with
  | worker w act =>
    have hmove := workerMove_of_step h
    have hlock := lockInv_worker hs.lock hmove
    cases hmove with
    | look ph _ hlook =>
      refine workerInv_look hs ?_ hlock
      rintro j pc rfl
      cases hlook
    | lock tries j _ hfree _ =>
      -- the lock changes neither the rows nor who is busy
      have hs' : WorkerInv { s with writer := some w } := by
        refine ⟨?_, hs.knows, hs.unique⟩
        intro w' j' hw'
        have := (hs.lock w' j' hw').1
        rw [hfree] at this
        cases this
      exact workerInv_look hs' (by simp) hlock
    | claim j hw => exact workerInv_claim hs hw hlock
    | process j pc act stored db' pc' hw _ hget hmove =>
      exact workerInv_process hs hw hget hmove hlock
  | createJob tenant actor document version override createdAt =>
    have hstep : apiStep s (.createJob tenant actor document version override createdAt) = some t :=
      h
    cases apiMove_of_step hstep with
    | create _ _ _ _ _ _ hfree => exact workerInv_create hs _ _ _ _ _ _ hfree
  | retry tenant actor job =>
    obtain ⟨row, document, checked, hmove⟩ := requestMove_of_retry h
    exact workerInv_request hs hmove
  | cancel tenant actor job =>
    obtain ⟨row, document, checked, hmove⟩ := requestMove_of_cancel h
    exact workerInv_request hs hmove

/-! ### What a change of one job does to the statuses -/

/-- The job `j` of the document `d` went from one status to another, or kept it;
the other jobs stayed. -/
structure JobMove (db db' : Database) (j d : ℕ) (old new : JobStatus) : Prop where
  old : ∃ row, db.extractionJobs.get j = some row ∧ row.documentId = d ∧ row.status = old
  new : ∃ row, db'.extractionJobs.get j = some row ∧ row.documentId = d ∧ row.status = new
  others : ∀ i, i ≠ j → db'.extractionJobs.get i = db.extractionJobs.get i

section Moves

variable {db db' : Database} {j d e : ℕ} {old new : JobStatus} {status : DocumentStatus}
  {p : JobStatus → Prop}

/-- A row written back under the job's own document. -/
theorem jobMove_update (db' : Database) {stored : ExtractionJob}
    {f : ExtractionJob → ExtractionJob}
    (hget : db.extractionJobs.get j = some stored)
    (hdocument : (f stored).documentId = stored.documentId)
    (hjobs : db'.extractionJobs = db.extractionJobs.update j f) :
    JobMove db db' j stored.documentId stored.status (f stored).status where
  old := ⟨stored, hget, rfl, rfl⟩
  new := ⟨f stored, by rw [hjobs, Table.get_update_self, hget]; rfl, hdocument, rfl⟩
  others i hi := by
    rw [hjobs]
    exact Table.get_update_ne _ _ hi

theorem JobMove.jobOn (h : JobMove db db' j d old new) (hon : db'.JobOn e p) :
    (e = d ∧ p new) ∨ ∃ i row, i ≠ j ∧ db.extractionJobs.get i = some row ∧
      row.documentId = e ∧ p row.status := by
  obtain ⟨i, row, hget, hdocument, hp⟩ := hon
  by_cases hi : i = j
  · subst hi
    obtain ⟨row', hget', hdocument', hstatus'⟩ := h.new
    obtain rfl := Option.some.inj (hget.symm.trans hget')
    exact Or.inl ⟨hdocument.symm.trans hdocument', hstatus' ▸ hp⟩
  · rw [h.others i hi] at hget
    exact Or.inr ⟨i, row, hi, hget, hdocument, hp⟩

theorem JobMove.jobOn_mpr (h : JobMove db db' j d old new) (hon : db.JobOn e p)
    (hkeep : e = d → p old → p new) : db'.JobOn e p := by
  obtain ⟨i, row, hget, hdocument, hp⟩ := hon
  by_cases hi : i = j
  · subst hi
    obtain ⟨row', hget', hdocument', hstatus'⟩ := h.old
    obtain rfl := Option.some.inj (hget.symm.trans hget')
    obtain ⟨row'', hget'', hdocument'', hstatus''⟩ := h.new
    refine ⟨i, row'', hget'', hdocument''.trans (hdocument'.symm.trans hdocument), ?_⟩
    rw [hstatus'']
    exact hkeep (hdocument.symm.trans hdocument') (hstatus' ▸ hp)
  · exact ⟨i, row, (h.others i hi).trans hget, hdocument, hp⟩

/-- The other documents have the jobs they had. -/
theorem JobMove.jobOn_iff_of_ne (h : JobMove db db' j d old new) (he : e ≠ d) :
    db'.JobOn e p ↔ db.JobOn e p := by
  constructor
  · intro hon
    rcases h.jobOn hon with ⟨rfl, -⟩ | ⟨i, row, -, hrow⟩
    · exact absurd rfl he
    · exact ⟨i, row, hrow⟩
  · intro hon
    exact h.jobOn_mpr hon fun hd => absurd hd he

/-- Statuses look at the jobs only through `JobOn`. -/
theorem StatusReflects.congr (hs : StatusReflects db d status)
    (h : ∀ p : JobStatus → Prop, db'.JobOn d p ↔ db.JobOn d p) : StatusReflects db' d status where
  running hrun := hs.running ((h _).mp hrun)
  queued hqueued := hs.queued ((h _).mp hqueued)
  completed hdone hlive := hs.completed ((h _).mp hdone) fun hon => hlive ((h _).mpr hon)

/-- A document without live jobs may have any status, `uploaded` only when none is
completed. -/
theorem statusReflects_of_quiet (hlive : ¬ db.JobOn d JobStatus.Live)
    (hdone : status = .uploaded → ¬ db.JobOn d (· = .completed)) : StatusReflects db d status where
  running := by
    rintro ⟨i, row, hget, hdocument, hrunning⟩
    exact absurd ⟨i, row, hget, hdocument, Or.inr hrunning⟩ hlive
  queued := by
    rintro ⟨i, row, hget, hdocument, hqueued⟩
    exact absurd ⟨i, row, hget, hdocument, Or.inl hqueued⟩ hlive
  completed hon _ huploaded := hdone huploaded hon

/-- A queued document is always right, and so is one in progress. -/
theorem statusReflects_waiting (h : status = .queued ∨ status = .processing) :
    StatusReflects db d status where
  running _ := h.symm
  queued _ := by rcases h with rfl | rfl <;> decide
  completed _ _ := by rcases h with rfl | rfl <;> decide

/-- No other job of the document is like that, nor is this one now. -/
theorem JobMove.not_jobOn (h : JobMove db db' j d old new) (hother : db.NoOther j p)
    (hnew : ¬ p new) : ¬ db'.JobOn d p := by
  intro hon
  rcases h.jobOn hon with ⟨-, hp⟩ | ⟨i, row, hi, hget, hdocument, hp⟩
  · exact hnew hp
  · obtain ⟨row', hget', hdocument', -⟩ := h.old
    exact hother row' i row hget' hget hi (hdocument.trans hdocument'.symm) hp

/-- Statuses of the documents after a change about the document `d`. -/
theorem documentStatusOk_of (hs : DocumentStatusOk db)
    (hdocuments : ∀ e, e ≠ d → db'.documents.get e = db.documents.get e)
    (hjobs : ∀ e, e ≠ d → ∀ p, db'.JobOn e p ↔ db.JobOn e p)
    (hself : ∀ document, db'.documents.get d = some document → StatusReflects db' d document.status) :
    DocumentStatusOk db' := by
  intro e document hget
  by_cases he : e = d
  · subst he
    exact hself document hget
  · rw [hdocuments e he] at hget
    exact (hs e document hget).congr (hjobs e he)

/-- The rule for a step that leaves the documents. -/
theorem JobMove.statusOk (h : JobMove db db' j d old new) (hs : DocumentStatusOk db)
    (hdocuments : ∀ e document, db'.documents.get e = some document →
      ∃ document', db.documents.get e = some document' ∧ document.status = document'.status)
    (hself : ∀ status, StatusReflects db d status → StatusReflects db' d status) :
    DocumentStatusOk db' := by
  intro e document hget
  obtain ⟨document', hget', hstatus⟩ := hdocuments e document hget
  rw [hstatus]
  by_cases he : e = d
  · subst he
    exact hself _ (hs e document' hget')
  · exact (hs e document' hget').congr fun p => h.jobOn_iff_of_ne he

/-- The rule for a step that writes the status of the document. -/
theorem JobMove.statusOk_write (h : JobMove db db' j d old new) (hs : DocumentStatusOk db)
    {f : Document → Document} (hdocuments : db'.documents = db.documents.update d f)
    (hself : ∀ document, db.documents.get d = some document →
      StatusReflects db' d (f document).status) : DocumentStatusOk db' := by
  refine documentStatusOk_of (d := d) hs ?_ ?_ ?_
  · intro e he
    rw [hdocuments]
    exact Table.get_update_ne _ _ he
  · intro e he p
    exact h.jobOn_iff_of_ne he
  · intro document hget
    rw [hdocuments, Table.get_update_self] at hget
    obtain ⟨document', hget', rfl⟩ := Option.map_eq_some_iff.mp hget
    exact hself document' hget'

/-- A job that keeps its status changes nothing for its document. -/
theorem JobMove.reflects_same (h : JobMove db db' j d old old)
    (hs : StatusReflects db d status) : StatusReflects db' d status := by
  refine hs.congr fun p => ⟨?_, fun hon => h.jobOn_mpr hon fun _ hp => hp⟩
  intro hon
  rcases h.jobOn hon with ⟨-, hp⟩ | ⟨i, row, -, hrow⟩
  · obtain ⟨row, hget, hdocument, hstatus⟩ := h.old
    exact ⟨j, row, hget, hdocument, hstatus ▸ hp⟩
  · exact ⟨i, row, hrow⟩

/-- The claim of a queued job. -/
theorem JobMove.reflects_claim (h : JobMove db db' j d .queued .running)
    (hs : StatusReflects db d status) : StatusReflects db' d status := by
  obtain ⟨row, hget, hdocument, hstatus⟩ := h.old
  obtain ⟨huploaded, hcompleted, hfailed⟩ := hs.queued ⟨j, row, hget, hdocument, hstatus⟩
  have hwaiting : status = .queued ∨ status = .processing := by
    cases status <;> simp at huploaded hcompleted hfailed ⊢
  exact statusReflects_waiting hwaiting

/-- The early failure of a job that was running or cancelled. -/
theorem JobMove.reflects_missing (h : JobMove db db' j d old .failed)
    (hold : old = .running ∨ old = .cancelled) (hs : StatusReflects db d status) :
    StatusReflects db' d status := by
  obtain ⟨row, hget, hdocument, hstatus⟩ := h.old
  rcases hold with rfl | rfl
  · exact statusReflects_waiting (hs.running ⟨j, row, hget, hdocument, hstatus⟩).symm
  · have back : ∀ {p : JobStatus → Prop}, ¬ p .failed → db'.JobOn d p → db.JobOn d p := by
      intro p hp hon
      rcases h.jobOn hon with ⟨-, hfailed⟩ | ⟨i, row, -, hrow⟩
      · exact absurd hfailed hp
      · exact ⟨i, row, hrow⟩
    refine ⟨fun hon => hs.running (back (by simp) hon), fun hon => hs.queued (back (by simp) hon), ?_⟩
    intro hdone hlive
    refine hs.completed (back (by simp) hdone) fun hon => hlive (h.jobOn_mpr hon ?_)
    rintro - (hc | hc) <;> cases hc

end Moves

/-! ### The statuses keep reflecting the jobs -/

theorem commitCompletion_documents (db : Database) (job : ℕ) (stored loaded : ExtractionJob)
    (result : ExtractionValidationSummary) :
    (db.commitCompletion job stored loaded result).documents =
      db.documents.update stored.documentId fun d => { d with status := .completed } := by
  rw [commitCompletion_eq]
  simp only [Database.recordWorkerAudit, Database.setDocumentStatus, commitJob_documents,
    saveResult_documents]

/-- A step of a worker on its job keeps the statuses right, as long as it ends the job only when
that is alone. -/
theorem statusOk_process {db db' : Database} {j : ℕ} {stored : ExtractionJob} {pc : Pc}
    {act : WorkerAct} {pc' : Option Pc} (hs : DocumentStatusOk db)
    (hget : db.extractionJobs.get j = some stored)
    (hmove : ProcessMove j db stored pc act db' pc') (hadmits : pc.admits stored.status)
    (hcopy : pc.CopyOk) (hend : pc.mayEnd db j) : DocumentStatusOk db' := by
  -- the points that commit, one by one; the others change nothing
  cases hmove
  case missing loaded =>
    have hmv := jobMove_update (db.commitJob j loaded (loaded.failWith missingMessage))
      hget (flush_documentId loaded (loaded.failWith missingMessage) stored) rfl
    refine hmv.statusOk hs (fun e document hdoc => ⟨document, hdoc, rfl⟩) ?_
    intro status hstatus
    rw [flush_status] at hmv
    rcases writeBack_eq_or loaded.status (loaded.failWith missingMessage).status stored.status
      with hsame | hfailed
    · rw [hsame] at hmv
      exact hmv.reflects_same hstatus
    · rw [hfailed] at hmv
      exact hmv.reflects_missing hadmits hstatus
  case start loaded document =>
    have hmv := jobMove_update (db.commitStart j loaded stored.documentId document)
      hget (flush_documentId loaded (loaded.atStage .parsing) stored) rfl
    rw [flush_status, show (loaded.atStage .parsing).status = loaded.status from rfl,
      writeBack_same] at hmv
    refine hmv.statusOk_write hs rfl ?_
    intro d hd
    rcases writeBack_eq_or document.status .processing d.status with hsame | hprocessing
    · simp only [hsame]
      exact hmv.reflects_same (hs _ d hd)
    · simp only [hprocessing]
      exact statusReflects_waiting (Or.inr rfl)
  case storeText path =>
    intro e document hdoc
    have hjobs : ∀ p, (db.setParsedTextPath stored.documentId path).JobOn e p ↔ db.JobOn e p :=
      fun p => Iff.rfl
    unfold Database.setParsedTextPath at hdoc
    simp only [Table.get_update] at hdoc
    split at hdoc
    · obtain ⟨d, hd, rfl⟩ := Option.map_eq_some_iff.mp hdoc
      exact (hs e d hd).congr hjobs
    · exact (hs e document hdoc).congr hjobs
  case report loaded stage stages =>
    have hmv := jobMove_update (db.commitJob j loaded (loaded.atStage stage))
      hget (flush_documentId loaded (loaded.atStage stage) stored) rfl
    rw [flush_status, show (loaded.atStage stage).status = loaded.status from rfl,
      writeBack_same] at hmv
    exact hmv.statusOk hs (fun e document hdoc => ⟨document, hdoc, rfl⟩)
      fun status hstatus => hmv.reflects_same hstatus
  case complete loaded result =>
    have hmv := jobMove_update (db.commitCompletion j stored loaded result)
      hget (flush_documentId loaded loaded.succeed stored) (commitCompletion_jobs ..)
    have hrunning : loaded.status = .running := hcopy
    rw [flush_status, writeBack_of_ne (by simp [ExtractionJob.succeed, hrunning])] at hmv
    refine hmv.statusOk_write hs (commitCompletion_documents ..) fun d hd => ?_
    exact statusReflects_of_quiet
      (hmv.not_jobOn hend (by simp [ExtractionJob.succeed, JobStatus.Live])) (by simp)
  case fail committed loaded msg =>
    have hmv := jobMove_update (db.commitFailure j stored loaded msg)
      hget (flush_documentId loaded (loaded.failWith msg) stored) (commitFailure_jobs ..)
    have hchange : (loaded.failWith msg).status ≠ loaded.status := by
      rcases (hcopy : loaded.status = .running ∨ loaded.status = .completed) with h | h <;>
        simp [ExtractionJob.failWith, h]
    rw [flush_status, writeBack_of_ne hchange] at hmv
    refine hmv.statusOk_write (f := fun d => { d with status := .failed }) hs rfl fun d hd => ?_
    exact statusReflects_of_quiet
      (hmv.not_jobOn hend (by simp [ExtractionJob.failWith, JobStatus.Live])) (by simp)
  case finalize handled committed =>
    have hcancelled : stored.status = .cancelled := hadmits
    have hmv : JobMove db (db.setDocumentStatus stored.documentId .uploaded) j stored.documentId
        stored.status stored.status :=
      ⟨⟨stored, hget, rfl, rfl⟩, ⟨stored, hget, rfl, rfl⟩, fun _ _ => rfl⟩
    have hnone := hmv.not_jobOn hend (by simp [hcancelled, JobStatus.LiveOrDone, JobStatus.Live])
    refine hmv.statusOk_write (f := fun d => { d with status := .uploaded }) hs rfl fun d hd => ?_
    refine statusReflects_of_quiet ?_ ?_
    · rintro ⟨i, row, hrow, hdocument, hlive⟩
      exact hnone ⟨i, row, hrow, hdocument, Or.inl hlive⟩
    · rintro - ⟨i, row, hrow, hdocument, hdone⟩
      exact hnone ⟨i, row, hrow, hdocument, Or.inr hdone⟩
  all_goals exact hs

/-- A claim that commits: the job was queued and is running. -/
theorem statusOk_claim {s : QueueState} {w j : ℕ} (hinv : LockInv s) (hs : DocumentStatusOk s.db)
    (hw : s.workers w = .claiming j) : DocumentStatusOk (s.claimed w j).db := by
  obtain ⟨row, hget, hqueued⟩ := Option.map_eq_some_iff.mp (hinv w j hw).2
  have hmv := jobMove_update ((s.claimed w j).db) (f := (·.claim w)) hget rfl rfl
  rw [hqueued] at hmv
  exact hmv.statusOk hs (fun e document hdoc => ⟨document, hdoc, rfl⟩)
    fun status hstatus => hmv.reflects_claim hstatus

/-- A new job, with its document queued. -/
theorem statusOk_create {db : Database} (hs : DocumentStatusOk db) (tenant actor : String)
    (document version : ℕ) (override : Option LLMProviderSettings) (createdAt : ℕ) :
    DocumentStatusOk (db.createJob tenant actor document version override createdAt) := by
  refine documentStatusOk_of (d := document) hs ?_ ?_ ?_
  · intro e he
    exact Table.get_update_ne _ _ he
  · intro e he p
    constructor
    · rintro ⟨i, row, hget, hdocument, hp⟩
      by_cases hi : i = db.extractionJobs.nextId
      · subst hi
        obtain rfl := Option.some.inj ((Table.get_insert_self db.extractionJobs _).symm.trans hget)
        exact absurd hdocument.symm he
      · exact ⟨i, row, (Table.get_insert_ne db.extractionJobs _ hi).symm.trans hget, hdocument, hp⟩
    · rintro ⟨i, row, hget, hrow⟩
      exact ⟨i, row, createJob_get hget _ _ _ _ _ _, hrow⟩
  · intro d hd
    have hupdate : (db.documents.update document fun d => { d with status := .queued }).get
        document = some d := hd
    rw [Table.get_update_self] at hupdate
    obtain ⟨d', -, rfl⟩ := Option.map_eq_some_iff.mp hupdate
    exact statusReflects_waiting (Or.inl rfl)

/-- What the commit of a request does to the job it read. -/
theorem RequestMove.jobMove {s t : QueueState} {actor : String} {q : Request}
    {document : Document} (h : RequestMove s actor q document t) :
    JobMove s.db t.db q.job q.loaded.documentId q.loaded.status q.newRow.status := by
  obtain ⟨row, hrow, hstatus, hdocument⟩ := h.row
  exact ⟨⟨_, h.stored, rfl, rfl⟩, ⟨row, hrow, hdocument, hstatus⟩, fun i hi => h.jobs_ne hi⟩

theorem statusOk_retry {s t : QueueState} {actor : String} {job : ℕ} {row : ExtractionJob}
    {document : Document} {checked} (hs : DocumentStatusOk s.db)
    (h : RequestMove s actor (.retry job row document checked) document t) :
    DocumentStatusOk t.db := by
  refine h.jobMove.statusOk_write
    (f := fun d => { d with status := writeBack document.status .queued d.status }) hs ?_ ?_
  · rw [h.db]
    rfl
  · intro d hd
    obtain rfl := Option.some.inj (h.document.symm.trans hd)
    refine statusReflects_waiting (Or.inl ?_)
    exact writeBack_self _ _

theorem statusOk_cancel {s t : QueueState} {actor : String} {job : ℕ} {row : ExtractionJob}
    {document : Document} {checked} (hs : DocumentStatusOk s.db)
    (h : RequestMove s actor (.cancel job row document checked) document t)
    (halone : s.db.NoOther job JobStatus.LiveOrDone) : DocumentStatusOk t.db := by
  have hnone := h.jobMove.not_jobOn halone (by simp [Request.newRow, cancelJob,
    JobStatus.LiveOrDone, JobStatus.Live])
  refine h.jobMove.statusOk_write
    (f := fun d => { d with
      status := writeBack document.status (cancelDocumentStatus document.status) d.status }) hs ?_ ?_
  · rw [h.db]
    rfl
  · intro d hd
    refine statusReflects_of_quiet ?_ ?_
    · rintro ⟨i, row', hrow, hdocument, hlive⟩
      exact hnone ⟨i, row', hrow, hdocument, Or.inl hlive⟩
    · rintro - ⟨i, row', hrow, hdocument, hdone⟩
      exact hnone ⟨i, row', hrow, hdocument, Or.inr hdone⟩

/-- One step keeps the statuses right, if it ends no job whose document has another to lose. -/
theorem documentStatusOk_step {s t : QueueState} {act : SequentialAct} (hinv : WorkerInv s)
    (hs : DocumentStatusOk s.db) (halone : EndsAlone s act) (h : sequentialStep s act = some t) :
    DocumentStatusOk t.db := by
  cases act with
  | worker w act =>
    cases workerMove_of_step h with
    | look | lock => exact hs
    | claim j hw => exact statusOk_claim hinv.lock hs hw
    | process j pc act stored db' pc' hw _ hget hmove =>
      obtain ⟨row, hrow, hadmits, hcopy⟩ := hinv.knows w j pc hw
      obtain rfl := Option.some.inj (hget.symm.trans hrow)
      have hend : pc.mayEnd s.db j := by simpa only [EndsAlone, hw] using halone
      exact statusOk_process hs hget hmove hadmits hcopy hend
  | createJob tenant actor document version override createdAt =>
    have hstep : apiStep s (.createJob tenant actor document version override createdAt) = some t :=
      h
    cases apiMove_of_step hstep with
    | create => exact statusOk_create hs _ _ _ _ _ _
  | retry tenant actor job =>
    obtain ⟨row, document, checked, hmove⟩ := requestMove_of_retry h
    exact statusOk_retry hs hmove
  | cancel tenant actor job =>
    obtain ⟨row, document, checked, hmove⟩ := requestMove_of_cancel h
    exact statusOk_cancel hs hmove halone

/-- **When jobs end alone, the status of every document reflects its jobs** in
every state of a run. -/
theorem document_status_reflects_jobs {s t : QueueState} {acts : List SequentialAct}
    (hidle : s.Idle) (hstart : DocumentStatusOk s.db)
    (hrun : Run sequentialStep EndsAlone s acts t) : DocumentStatusOk t.db := by
  have hinv : WorkerInv t ∧ DocumentStatusOk t.db := by
    refine hrun.invariant (I := fun s => WorkerInv s ∧ DocumentStatusOk s.db) ?_
      ⟨workerInv_of_idle hidle, hstart⟩
    rintro s act t ⟨hinv, hs⟩ halone hstep
    exact ⟨workerInv_step hinv hstep, documentStatusOk_step hinv hs halone hstep⟩
  exact hinv.2

/-! ### Two jobs of one document -/

/-- One document and one template version, without jobs. -/
def noJobDb : Database := { oneJobDb queuedJob with extractionJobs := .empty }

/-- Two jobs are created, and the first is cancelled before a worker takes it. -/
def twoJobsOneCancelled : List SequentialAct :=
  [.createJob "default" "local-user" 1 1 none 1, .createJob "default" "local-user" 1 1 none 2,
    .cancel "default" "local-user" 1]

/-- The same document, which a job has completed. -/
def finishedDb : Database :=
  { oneJobDb { queuedJob with status := .completed } with
    documents := .ofRows
      [(1, { originalFilename := "a.txt", storedPath := "uploads/a.txt", status := .completed })] }

/-- What worker 0 does on the second job until it is about to complete it. -/
def secondJobChoices : List WorkerAct :=
  [.next, .select (some 2), .next, .next] ++ List.replicate 5 .next ++ [.parsed "parsed/1.txt"] ++
    List.replicate 10 .next ++ [.extracted emptySummary, .next]

/-- A second job is created, claimed and processed. -/
def secondJobProcessed : List SequentialAct :=
  .createJob "default" "local-user" 1 1 none 2 :: secondJobChoices.map (.worker 0)

theorem noJobDb_statusOk : DocumentStatusOk noJobDb := by
  intro d document _
  have none_on : ∀ p, ¬ noJobDb.JobOn d p := by
    rintro p ⟨j, row, hget, -⟩
    cases hget
  exact statusReflects_of_quiet (none_on _) fun _ => none_on _

/-- No other job of the document has such a status when none of the other rows has. -/
theorem Database.noOther_of_rows {db : Database} {j : ℕ} {p : JobStatus → Prop}
    {statuses : List (ℕ × JobStatus)}
    (hrows : db.extractionJobs.rows.map (fun q => (q.1, q.2.status)) = statuses)
    (h : ∀ q ∈ statuses, q.1 ≠ j → ¬ p q.2) : db.NoOther j p := by
  intro _ j' row' _ hget hne _
  refine h (j', row'.status) ?_ hne
  exact hrows ▸ List.mem_map.mpr ⟨(j', row'), Table.mem_of_get hget, rfl⟩

theorem finishedDb_statusOk : DocumentStatusOk finishedDb := by
  intro d document hdocument
  have hlive : ¬ finishedDb.JobOn d JobStatus.Live := by
    rintro ⟨j, row, hget, -, hlive⟩
    obtain rfl := (Prod.mk.inj (List.mem_singleton.mp (Table.mem_of_get hget))).2
    rcases hlive with h | h <;> cases h
  refine statusReflects_of_quiet hlive fun huploaded => ?_
  obtain rfl := (Prod.mk.inj (List.mem_singleton.mp (Table.mem_of_get hdocument))).2
  cases huploaded

/-- The run that completes a job beside a finished one keeps the statuses right. -/
theorem document_status_reflects_jobs_completed :
    ∃ t, Run sequentialStep EndsAlone { db := finishedDb }
        (secondJobProcessed ++ [.worker 0 .next]) t ∧
      t.db.statusOf 1 = some .completed ∧ t.db.statusOf 2 = some .completed ∧
      DocumentStatusOk t.db := by
  have hrun : ∃ t, Run sequentialStep EndsAlone { db := finishedDb }
      (secondJobProcessed ++ [.worker 0 .next]) t ∧
      t.db.statusOf 1 = some .completed ∧ t.db.statusOf 2 = some .completed := by
    have hrows : ∀ q ∈ [(1, JobStatus.completed), (2, JobStatus.running)], q.1 ≠ 2 →
        ¬ q.2.Live := by decide
    refine ⟨?t, ?run, ?first, ?second⟩
    case run =>
      iterate 23 refine .cons rfl trivial ?_
      refine .cons rfl ?alone ?rest
      -- the completion of the second job: the first has ended
      case alone => exact Database.noOther_of_rows (j := 2) rfl hrows
      case rest =>
        show Run _ _ _ [] _
        exact .nil _
    case first => rfl
    case second => rfl
  obtain ⟨t, hrun, hfirst, hsecond⟩ := hrun
  exact ⟨t, hrun, hfirst, hsecond, document_status_reflects_jobs
    ⟨rfl, fun _ => rfl, fun _ => rfl⟩ finishedDb_statusOk hrun⟩

/-- **A cancellation forgets the other job of the document**, which is `uploaded`
while that job is queued. -/
theorem cancel_forgets_queued_job :
    ¬ ∀ s t acts, s.Idle → DocumentStatusOk s.db →
      Run sequentialStep (fun _ _ => True) s acts t → DocumentStatusOk t.db := by
  intro hclaim
  obtain ⟨t, ht, huploaded, hqueued⟩ : ∃ t,
      exec sequentialStep { db := noJobDb } twoJobsOneCancelled = some t ∧
      (∃ document, t.db.documents.get 1 = some document ∧ document.status = .uploaded) ∧
      (∃ row, t.db.extractionJobs.get 2 = some row ∧ row.documentId = 1 ∧ row.status = .queued) :=
    ⟨_, rfl, ⟨_, rfl, rfl⟩, ⟨_, rfl, rfl, rfl⟩⟩
  have hok := hclaim { db := noJobDb } t twoJobsOneCancelled
    ⟨rfl, fun _ => rfl, fun _ => rfl⟩ noJobDb_statusOk (run_of_exec _ _ _ ht)
  obtain ⟨document, hget, hstatus⟩ := huploaded
  obtain ⟨row, hrow⟩ := hqueued
  exact ((hok 1 document hget).queued ⟨2, row, hrow⟩).1 hstatus

end ExtractFlow
