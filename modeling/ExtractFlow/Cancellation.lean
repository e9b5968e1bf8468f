import ExtractFlow.DoubleProcessing

/-!
# What a cancel stops

`cancel_job` commits `status = 'cancelled'` whatever a worker is doing.  The
worker looks for it at two `is_job_cancelled` tests and in the `db.refresh` of
its failure handler, and writes the job at other points: at every progress
report, at the completion, at the failure.  So a cancel is final exactly while
the worker's next access to the job is one of the tests.  A retry that read the
job as failed and is committed after the cancel undoes it too.

## Main definitions

* `Pc.checksFirst` — the next access to the job from here is a test.
* `CancelHeeded` — the discipline: cancels commit at such points only, retries
  on failed jobs only.
* `CancelInv` — what holds of a cancelled job from then on.

## Main results

* `cancel_is_final` — under the discipline no later step of a worker changes the
  job or its results.
* `cancel_can_be_lost` — without it, one does.
-/

namespace ExtractFlow

open Transition

/-- The next access to the job from this point is a test of its status, or
there is none. -/
def Pc.checksFirst : Pc → Bool
  | .load | .missing _ | .checkTenants _ _ _ | .reportStart _ _ | .extract _ (_ :: _)
  | .report _ _ _ | .complete _ _ | .fail _ _ _ => false
  | _ => true

/-- No worker writes the job `j` before it tests its status. -/
def QueueState.TestsBeforeWriting (s : QueueState) (j : ℕ) : Prop :=
  ∀ w pc, s.workers w = .busy j pc → pc.checksFirst = true

/-- A cancel is committed while every worker on its job is about to test the
status, a retry while its job is stored as failed. -/
def CancelHeeded (s : QueueState) : QueueAct → Prop
  | .api (.commit r _) =>
      match s.requests r with
      | some (.cancel job _ _ _) => s.TestsBeforeWriting job
      | some (.retry job _ _ _) => s.db.statusOf job = some .failed
      | none => True
  | _ => True

/-- What `cancel_job` writes of a job and a worker overwrites. -/
def Database.progressOf (db : Database) (j : ℕ) : Option (JobStatus × Option JobStage × ℕ) :=
  (db.extractionJobs.get j).map fun row => (row.status, row.progressStage, row.progressPct)

/-- The job `j` is cancelled, and nobody is past the test that would tell. -/
structure CancelInv (j : ℕ) (s : QueueState) : Prop where
  cancelled : s.db.statusOf j = some .cancelled
  claiming : ∀ w, s.workers w ≠ .claiming j
  tests : s.TestsBeforeWriting j

/-! ### A worker on a cancelled job -/

section CancelledJob

variable {job : ℕ} {db db' : Database} {stored : ExtractionJob} {pc : Pc} {act : WorkerAct}
  {pc' : Option Pc}

/-- From a point that tests first, a cancelled job is neither written nor given
a result, and the next point tests first again. -/
theorem ProcessMove.heeds (h : ProcessMove job db stored pc act db' pc')
    (hpc : pc.checksFirst = true) (hstored : stored.status = .cancelled) :
    db'.extractionJobs = db.extractionJobs ∧ db'.extractionResults = db.extractionResults ∧
      ∀ p, pc' = some p → p.checksFirst = true := by
  cases h <;> simp_all [Pc.checksFirst]

end CancelledJob

/-! ### The invariant of a cancelled job -/

section Preservation

variable {s t : QueueState} {j : ℕ}

theorem cancelInv_worker {w : ℕ} (hs : CancelInv j s) (h : WorkerMove s w t) :
    CancelInv j t := by
  obtain ⟨hcancelled, hclaiming, htests⟩ := hs
  -- a worker that moves to a phase harmless to `j` harms `j` no more than before
  have hphase : ∀ {u : QueueState} {ph : Phase}, u.workers = s.workers →
      u.db.statusOf j = some .cancelled → ph ≠ .claiming j →
      (∀ pc, ph = .busy j pc → pc.checksFirst = true) → CancelInv j (u.setWorker w ph) := by
    intro u ph hworkers hstatus hph hpc
    refine ⟨hstatus, ?_, ?_⟩
    · intro w'
      by_cases hne : w' = w
      · subst hne
        rwa [setWorker_self]
      · rw [setWorker_ne _ _ _ hne, hworkers]
        exact hclaiming w'
    · intro w' pc hw'
      by_cases hne : w' = w
      · subst hne
        rw [setWorker_self] at hw'
        exact hpc pc hw'
      · rw [setWorker_ne _ _ _ hne, hworkers] at hw'
        exact htests w' pc hw'
  cases h with
  | look ph _ hlook =>
    refine hphase rfl hcancelled ?_ ?_
    · rintro rfl
      simp [Phase.looking] at hlook
    · rintro pc rfl
      simp [Phase.looking] at hlook
  | lock tries j' _ _ hqueued =>
    refine hphase rfl hcancelled ?_ (by simp)
    rintro ⟨⟩
    rw [hcancelled] at hqueued
    cases hqueued
  | claim j' hw =>
    have hne : j ≠ j' := fun h => hclaiming w (h ▸ hw)
    refine hphase rfl ?_ (by simp) ?_
    · simpa [Database.statusOf, Table.get_update_ne _ _ hne] using hcancelled
    · rintro pc ⟨⟩
      exact absurd rfl hne
  | process j' pc act stored db' pc' hw _ hget hmove =>
    by_cases hne : j = j'
    · subst hne
      have hstored : stored.status = .cancelled := by
        simpa [Database.statusOf, hget] using hcancelled
      obtain ⟨hjobs, -, hpc'⟩ := hmove.heeds (htests w pc hw) hstored
      refine hphase rfl ?_ ?_ ?_
      · simpa [Database.statusOf, hjobs] using hcancelled
      · cases pc' <;> simp
      · intro p hp
        cases pc' with
        | none => simp at hp
        | some p' => exact hpc' p (by simpa using hp)
    · refine hphase rfl ?_ ?_ ?_
      · simpa [Database.statusOf, hmove.jobs_ne hne] using hcancelled
      · cases pc' <;> simp
      · intro p hp
        cases pc' with
        | none => simp at hp
        | some p' => exact absurd (by simpa using hp : j' = j ∧ p' = p).1.symm hne

/-- A commit on a cancelled job is another cancel. -/
theorem cancelInv_api {act : ApiAct} (hs : CancelInv j s) (hok : CancelHeeded s (.api act))
    (h : ApiMove s act t) : CancelInv j t := by
  obtain ⟨hcancelled, hclaiming, htests⟩ := hs
  cases h with
  | create tenant actor document version override createdAt hfree =>
    refine ⟨?_, hclaiming, htests⟩
    obtain ⟨row, hrow, hstatus⟩ := Option.map_eq_some_iff.mp hcancelled
    exact Option.map_eq_some_iff.mpr ⟨row, createJob_get hrow _ _ _ _ _ _, hstatus⟩
  | readRetry | readCancel | abandon => exact ⟨hcancelled, hclaiming, htests⟩
  | commit r actor q hfree hq =>
    refine ⟨?_, hclaiming, htests⟩
    by_cases hj : j = q.job
    · subst hj
      cases q with
      | retry job loaded document checked =>
        simp only [CancelHeeded, hq] at hok
        rw [show (Request.retry job loaded document checked).job = job from rfl, hok] at hcancelled
        cases hcancelled
      | cancel job loaded document checked =>
        rw [setRequest_db, commitRequest_statusOf, hcancelled]
        rfl
    · rw [setRequest_db, Database.statusOf, commitRequest_get s.db actor q hj]
      exact hcancelled

theorem cancelInv_step {act : QueueAct} (hs : CancelInv j s) (hok : CancelHeeded s act)
    (h : queueStep s act = some t) : CancelInv j t := by
  cases act with
  | worker w act => exact cancelInv_worker hs (workerMove_of_step h)
  | api act => exact cancelInv_api hs hok (apiMove_of_step h)

/-- No step of a worker changes a cancelled job or its results. -/
theorem worker_frame_of_cancelInv {w : ℕ} (hs : CancelInv j s) (h : WorkerMove s w t) :
    t.db.progressOf j = s.db.progressOf j ∧ t.db.resultsOf j = s.db.resultsOf j := by
  cases h with
  | look | lock => exact ⟨rfl, rfl⟩
  | claim j' hw =>
    have hne : j ≠ j' := fun h => hs.claiming w (h ▸ hw)
    refine ⟨?_, rfl⟩
    simp [Database.progressOf, QueueState.claimed, Table.get_update_ne _ _ hne]
  | process j' pc act stored db' pc' hw _ hget hmove =>
    by_cases hne : j = j'
    · subst hne
      have hstored : stored.status = .cancelled := by
        simpa [Database.statusOf, hget] using hs.cancelled
      obtain ⟨hjobs, hresults, -⟩ := hmove.heeds (hs.tests w pc hw) hstored
      simp [Database.progressOf, Database.resultsOf, hjobs, hresults]
    · simp [Database.progressOf, hmove.jobs_ne hne, hmove.resultsOf_ne hne]

end Preservation

/-! ### Cancel commits -/

/-- The job of a request in flight is there. -/
def RequestInv (s : QueueState) : Prop :=
  ∀ r q, s.requests r = some q → (s.db.extractionJobs.get q.job).isSome = true

theorem requestInv_step {s t : QueueState} {act : QueueAct} (hs : RequestInv s)
    (h : queueStep s act = some t) : RequestInv t := by
  -- a request that was in flight before keeps its job
  have hold : ∀ r q, s.requests r = some q → (t.db.extractionJobs.get q.job).isSome = true :=
    fun r q hq => jobs_persist h (hs r q hq)
  have hset : ∀ {u : QueueState} {r : ℕ} {new : Option Request}, u.requests = s.requests →
      (∀ r q, s.requests r = some q → (u.db.extractionJobs.get q.job).isSome = true) →
      (∀ q, new = some q → (u.db.extractionJobs.get q.job).isSome = true) →
      RequestInv (u.setRequest r new) := by
    intro u r new hreq hkeep hnew r' q hq
    by_cases hne : r' = r
    · subst hne
      rw [setRequest_self] at hq
      exact hnew q hq
    · rw [setRequest_ne _ _ _ hne, hreq] at hq
      exact hkeep r' q hq
  cases act with
  | worker w act => cases workerMove_of_step h <;> exact hold
  | api act =>
    cases apiMove_of_step h with
    | create => exact hold
    | readRetry r tenant job row document checked hrow
    | readCancel r tenant job row document checked hrow =>
      refine hset rfl hold ?_
      rintro q ⟨⟩
      exact Option.isSome_iff_exists.mpr ⟨row, hrow⟩
    | commit r actor q hfree hq => exact hset rfl hold (by simp)
    | abandon r => exact hset rfl hold (by simp)

/-- The commit of a cancel establishes the invariant. -/
theorem cancelInv_of_commit {s t : QueueState} {r : ℕ} {actor : String} {job : ℕ}
    {loaded : ExtractionJob} {document : Document}
    {checked : loaded.status = .queued ∨ loaded.status = .running} (hlock : LockInv s)
    (hreq : RequestInv s) (hr : s.requests r = some (.cancel job loaded document checked))
    (hok : CancelHeeded s (.api (.commit r actor)))
    (h : queueStep s (.api (.commit r actor)) = some t) : CancelInv job t := by
  have hmove : ApiMove s (.commit r actor) t := apiMove_of_step h
  cases hmove with
  | commit _ _ q hfree hq =>
    obtain rfl := Option.some.inj (hr.symm.trans hq)
    refine ⟨?_, ?_, ?_⟩
    · obtain ⟨row, hrow⟩ := Option.isSome_iff_exists.mp (hreq r _ hr)
      have hrow : s.db.extractionJobs.get job = some row := hrow
      have hstatus := commitRequest_statusOf s.db actor (.cancel job loaded document checked)
      simp only [Request.job, Database.statusOf, hrow, Option.map_some] at hstatus
      exact hstatus
    · intro w hw
      have := (hlock w job hw).1
      simp [hfree] at this
    · have htests : s.TestsBeforeWriting job := by simpa only [CancelHeeded, hr] using hok
      exact htests

/-- **A cancel that is heeded is final.**  When it is committed while the workers
on its job are about to test its status, and so is every later cancel, and no
later retry is stale, no step of a worker after the cancel changes the status,
the stage or the percentage of the job, or its results. -/
theorem cancel_is_final {s u v t t' : QueueState} {as bs : List QueueAct} (hs : s.Idle)
    (has : Run queueStep (fun _ _ => True) s as u) {r : ℕ} {actor : String} {job : ℕ}
    {loaded : ExtractionJob} {document : Document}
    {checked : loaded.status = .queued ∨ loaded.status = .running}
    (hr : u.requests r = some (.cancel job loaded document checked))
    (hok : CancelHeeded u (.api (.commit r actor)))
    (hcommit : queueStep u (.api (.commit r actor)) = some v)
    (hbs : Run queueStep CancelHeeded v bs t) {w : ℕ} {act : WorkerAct}
    (hstep : queueStep t (.worker w act) = some t') :
    t'.db.progressOf job = t.db.progressOf job ∧ t'.db.resultsOf job = t.db.resultsOf job := by
  have hlock : LockInv u :=
    has.invariant (fun _ _ _ hinv _ hstep => lockInv_step hinv hstep) (lockInv_of_idle hs)
  have hreq : RequestInv u := by
    refine has.invariant (fun _ _ _ hinv _ hstep => requestInv_step hinv hstep) ?_
    intro r q hq
    rw [hs.requests r] at hq
    cases hq
  have hinv : CancelInv job t :=
    hbs.invariant (fun _ _ _ hinv hok hstep => cancelInv_step hinv hok hstep)
      (cancelInv_of_commit hlock hreq hr hok hcommit)
  exact worker_frame_of_cancelInv hinv (workerMove_of_step hstep)

/-! ### Two cancels -/

/-- Worker 0 claims the job, parses its document and stores the text. -/
def parseJobOne : List QueueAct :=
  claimJobOne 0 ++ List.replicate 5 (.worker 0 .next) ++
    [.worker 0 (.parsed "parsed/1.txt"), .worker 0 .next]

/-- Worker 0 parsed the document of job 1, nobody else is doing anything, and a
cancel of the job is read. -/
theorem parsed_and_cancelling : ∃ u, exec queueStep { db := oneJobDb queuedJob }
      (parseJobOne ++ [.api (.readCancel 1 "default" 1)]) = some u ∧
    (∃ loaded document checked, u.requests 1 = some (.cancel 1 loaded document checked)) ∧
    u.workers 0 = .busy 1 .checkParsed ∧
    ∃ v t t', queueStep u (.api (.commit 1 "ann")) = some v ∧
      queueStep v (.worker 0 .next) = some t ∧ queueStep t (.worker 0 .next) = some t' :=
  ⟨_, rfl, ⟨_, _, _, rfl⟩, rfl, _, _, _, rfl, rfl, rfl⟩

/-- A cancel committed while the worker is about to test the status: its next
steps find the job cancelled and leave it. -/
theorem cancel_is_final_after_parsing :
    ∃ u v t t', exec queueStep { db := oneJobDb queuedJob }
        (parseJobOne ++ [.api (.readCancel 1 "default" 1)]) = some u ∧
      queueStep u (.api (.commit 1 "ann")) = some v ∧
      queueStep v (.worker 0 .next) = some t ∧ queueStep t (.worker 0 .next) = some t' ∧
      t'.db.progressOf 1 = t.db.progressOf 1 ∧ t'.db.resultsOf 1 = t.db.resultsOf 1 := by
  have hidle : QueueState.Idle { db := oneJobDb queuedJob } := ⟨rfl, fun _ => rfl, fun _ => rfl⟩
  obtain ⟨u, hu, ⟨loaded, document, checked, hr⟩, hbusy, v, t, t', hv, ht, ht'⟩ :=
    parsed_and_cancelling
  have hothers : ∀ w, w ≠ 0 → u.workers w = .idle := by
    intro w hw
    have hrun : Run queueStep (fun _ act => ∀ a, act ≠ .worker w a) _ _ u :=
      run_of_exec_of_forall _ _ _ (by simp [parseJobOne, claimJobOne, Ne.symm hw]) hu
    exact hrun.invariant (fun s act s' hs hok hstep => (workers_ne hstep hok).trans hs) rfl
  have hheeded : CancelHeeded u (.api (.commit 1 "ann")) := by
    simp only [CancelHeeded, hr]
    intro w pc hw
    by_cases h0 : w = 0
    · rw [h0, hbusy] at hw
      obtain ⟨-, rfl⟩ : 1 = 1 ∧ Pc.checkParsed = pc := by simpa using hw
      rfl
    · rw [hothers w h0] at hw
      cases hw
  exact ⟨u, v, t, t', hu, hv, ht, ht',
    cancel_is_final hidle (run_of_exec _ _ _ hu) hr hheeded hv (.cons ht trivial (.nil t)) ht'⟩

/-- **A cancel can be lost.**  Committed between the last test and the
completion, it is overwritten and the result is stored. -/
theorem cancel_can_be_lost :
    ¬ ∀ (s u v t t' : QueueState) (as bs : List QueueAct) (r : ℕ) (actor : String) (job : ℕ)
      (loaded : ExtractionJob) (document : Document)
      (checked : loaded.status = .queued ∨ loaded.status = .running) (w : ℕ) (act : WorkerAct),
      s.Idle → Run queueStep (fun _ _ => True) s as u →
      u.requests r = some (.cancel job loaded document checked) →
      queueStep u (.api (.commit r actor)) = some v →
      Run queueStep (fun _ _ => True) v bs t → queueStep t (.worker w act) = some t' →
      t'.db.progressOf job = t.db.progressOf job ∧ t'.db.resultsOf job = t.db.resultsOf job := by
  intro hclaim
  have hidle : QueueState.Idle { db := oneJobDb queuedJob } := ⟨rfl, fun _ => rfl, fun _ => rfl⟩
  -- One worker runs up to the completion, and the cancel is committed in front of it.
  have hrun : ∃ u v t', exec queueStep { db := oneJobDb queuedJob }
      (parseJobOne ++ List.replicate 9 (.worker 0 .next) ++
        [.worker 0 (.extracted emptySummary), .worker 0 .next,
          .api (.readCancel 1 "default" 1)]) = some u ∧
      (∃ loaded document checked, u.requests 1 = some (.cancel 1 loaded document checked)) ∧
      queueStep u (.api (.commit 1 "ann")) = some v ∧
      queueStep v (.worker 0 .next) = some t' ∧
      v.db.progressOf 1 = some (.cancelled, some .cancelled, 0) ∧
      t'.db.progressOf 1 = some (.completed, some .completed, 100) :=
    ⟨_, _, _, rfl, ⟨_, _, _, rfl⟩, rfl, rfl, rfl, rfl⟩
  obtain ⟨u, v, t', hu, ⟨loaded, document, checked, hr⟩, hv, ht', hbefore, hafter⟩ := hrun
  have := (hclaim _ u v v t' _ [] 1 "ann" 1 loaded document checked 0 .next hidle
    (run_of_exec _ _ _ hu) hr hv (.nil v) ht').1
  rw [hbefore, hafter] at this
  exact absurd this (by decide)

end ExtractFlow
