import ExtractFlow.JobQueue

/-!
# At most one worker processes a job

The claim is a compare-and-set on `status = 'queued'`, so two polling workers
never get the same job.  What can still hand a job to a second worker is a row
set back to `queued` under the first one.  Only `retry_job` writes that status
to a row that exists, and it writes it to whatever the row holds at its commit:
a retry that read `failed` before another retry was committed and claimed puts
a running job back into the queue.

The invariant behind the positive half: a worker holding the lock claims a job
that is stored as queued, a worker processing a job does not, and there is at
most one of the latter.  A retry commit is the only step that can break it, and
only when it lands on a job a worker is processing.

## Main definitions

* `ClaimInv` — the invariant.
* `RetryUncontended` — no retry is committed on a job a worker is processing.

## Main results

* `active_unique` — without such a commit, one worker per job in every reachable state.
* `stale_retry_doubles` — with one, two.
-/

namespace ExtractFlow

open Transition

/-- The lock, the stored status and the phases of the workers agree. -/
structure ClaimInv (s : QueueState) : Prop where
  lock : LockInv s
  /-- A job being processed is there, and not queued. -/
  active : ∀ w j, s.Active w j → ∃ row, s.db.extractionJobs.get j = some row ∧ row.status ≠ .queued
  /-- One worker per job. -/
  unique : ∀ w w' j, s.Active w j → s.Active w' j → w = w'

/-- A retry is committed only while no worker is processing its job. -/
def RetryUncontended (s : QueueState) : QueueAct → Prop
  | .api (.commit r _) => ∀ job loaded document checked,
      s.requests r = some (.retry job loaded document checked) → ∀ w, ¬ s.Active w job
  | _ => True

theorem claimInv_of_idle {s : QueueState} (h : s.Idle) : ClaimInv s where
  lock := lockInv_of_idle h
  active w j hw := by
    obtain ⟨pc, hbusy, -⟩ := hw
    rw [h.workers w] at hbusy
    cases hbusy
  unique w w' j hw _ := by
    obtain ⟨pc, hbusy, -⟩ := hw
    rw [h.workers w] at hbusy
    cases hbusy

/-! ### Phases after a step -/

section Phases

variable {s : QueueState} {w : ℕ} {ph : Phase}

/-- Another worker's step leaves a worker where it is. -/
theorem active_setWorker_ne {w' j : ℕ} (h : w' ≠ w) :
    (s.setWorker w ph).Active w' j ↔ s.Active w' j := by
  simp only [QueueState.Active, setWorker_ne s w ph h]

/-- A step that moves a worker without making it active, and leaves the store,
creates no activity. -/
theorem active_of_setWorker {w' j : ℕ} (hph : ∀ j pc, ph = .busy j pc → pc.active = false)
    (h : (s.setWorker w ph).Active w' j) : w' ≠ w ∧ s.Active w' j := by
  by_cases hw : w' = w
  · subst hw
    obtain ⟨pc, hbusy, hactive⟩ := h
    rw [setWorker_self] at hbusy
    simp [hph j pc hbusy] at hactive
  · exact ⟨hw, (active_setWorker_ne hw).mp h⟩

end Phases

/-! ### Preservation -/

/-- A worker that ends up processing nothing, over the same store. -/
theorem claimInv_setWorker {s : QueueState} {w : ℕ} {ph : Phase} {writer : Option ℕ}
    (hs : ClaimInv s) (hph : ∀ j pc, ph = .busy j pc → pc.active = false)
    (hlock : LockInv ({ s with writer := writer }.setWorker w ph)) :
    ClaimInv ({ s with writer := writer }.setWorker w ph) where
  lock := hlock
  active w' j hw' := hs.active w' j (active_of_setWorker hph hw').2
  unique w' w'' j hw' hw'' :=
    hs.unique w' w'' j (active_of_setWorker hph hw').2 (active_of_setWorker hph hw'').2

/-- **A committed claim is the only one.**  The job was queued until now, so
nobody was processing it. -/
theorem claimInv_claimed {s : QueueState} {w j : ℕ} (hs : ClaimInv s)
    (hw : s.workers w = .claiming j) : ClaimInv (s.claimed w j) := by
  obtain ⟨row, hrow, hstatus⟩ := Option.map_eq_some_iff.mp (hs.lock w j hw).2
  have hnobody : ∀ w', ¬ s.Active w' j := by
    intro w' hactive
    obtain ⟨row', hrow', hne⟩ := hs.active w' j hactive
    rw [hrow] at hrow'
    obtain rfl := Option.some.inj hrow'
    exact hne hstatus
  -- another worker's activity is what it was
  have hother : ∀ w' j', w' ≠ w → (s.claimed w j).Active w' j' → s.Active w' j' ∧ j' ≠ j := by
    intro w' j' hne hactive
    have hbefore : s.Active w' j' := by
      simpa only [QueueState.Active, QueueState.claimed, setWorker_ne _ _ _ hne] using hactive
    exact ⟨hbefore, fun h => hnobody w' (h ▸ hbefore)⟩
  have hself : ∀ j', (s.claimed w j).Active w j' → j' = j := by
    rintro j' ⟨pc, hbusy, -⟩
    simp only [QueueState.claimed, setWorker_self, Phase.busy.injEq] at hbusy
    exact hbusy.1.symm
  refine ⟨lockInv_worker hs.lock (.claim j hw), ?_, ?_⟩
  · intro w' j' hactive
    by_cases hne : w' = w
    · subst hne
      obtain rfl := hself j' hactive
      exact ⟨row.claim w', by simp [QueueState.claimed, hrow], by simp [ExtractionJob.claim]⟩
    · obtain ⟨hbefore, hj'⟩ := hother w' j' hne hactive
      obtain ⟨row', hrow', hstatus'⟩ := hs.active w' j' hbefore
      exact ⟨row', by simpa [QueueState.claimed, Table.get_update_ne _ _ hj'] using hrow', hstatus'⟩
  · intro w' w'' j' hw' hw''
    by_cases hne : w' = w <;> by_cases hne' : w'' = w
    · rw [hne, hne']
    · subst hne
      exact absurd (hself j' hw') (hother w'' j' hne' hw'').2
    · subst hne'
      exact absurd (hself j' hw'') (hother w' j' hne hw').2
    · exact hs.unique w' w'' j' (hother w' j' hne hw').1 (hother w'' j' hne' hw'').1

/-- A step of `process_once` never puts a job back into the queue. -/
theorem claimInv_process {s : QueueState} {w j : ℕ} {pc : Pc} {act : WorkerAct}
    {stored : ExtractionJob} {db' : Database} {pc' : Option Pc} (hs : ClaimInv s)
    (hw : s.workers w = .busy j pc) (hfree : pc.commits = true → s.writer = none)
    (hget : s.db.extractionJobs.get j = some stored)
    (hmove : ProcessMove j s.db stored pc act db' pc') :
    ClaimInv ({ s with db := db' }.setWorker w (pc'.elim .idle (.busy j))) := by
  -- whoever is active afterwards was active before
  have hbefore : ∀ w' j', ({ s with db := db' }.setWorker w (pc'.elim .idle (.busy j))).Active w' j' →
      s.Active w' j' := by
    intro w' j' hactive
    by_cases hne : w' = w
    · subst hne
      obtain ⟨p, hbusy, hp⟩ := hactive
      rw [setWorker_self] at hbusy
      cases pc' with
      | none => simp at hbusy
      | some p' =>
        obtain ⟨rfl, rfl⟩ : j = j' ∧ p' = p := by simpa using hbusy
        exact ⟨pc, hw, hmove.active_of_active hp⟩
    · simpa only [QueueState.Active, setWorker_ne _ _ _ hne] using hactive
  refine ⟨lockInv_worker hs.lock (.process j pc act stored db' pc' hw hfree hget hmove), ?_, ?_⟩
  · intro w' j' hactive
    obtain ⟨row, hrow, hstatus⟩ := hs.active w' j' (hbefore w' j' hactive)
    by_cases hj : j' = j
    · subst hj
      rw [hget] at hrow
      obtain rfl := Option.some.inj hrow
      obtain ⟨row', hrow', hsame | hdone | hfailed⟩ := hmove.jobs_self hget
      · exact ⟨row', hrow', hsame ▸ hstatus⟩
      · exact ⟨row', hrow', by simp [hdone]⟩
      · exact ⟨row', hrow', by simp [hfailed]⟩
    · exact ⟨row, (hmove.jobs_ne hj).trans hrow, hstatus⟩
  · intro w' w'' j' hw' hw''
    exact hs.unique w' w'' j' (hbefore w' j' hw') (hbefore w'' j' hw'')

theorem claimInv_worker {s t : QueueState} {w : ℕ} (hs : ClaimInv s) (h : WorkerMove s w t) :
    ClaimInv t := by
  have hlock := lockInv_worker hs.lock h
  cases h with
  | look ph _ hlook =>
    refine claimInv_setWorker hs ?_ hlock
    intro j pc hph
    simp [hph, Phase.looking] at hlook
  | lock tries j _ hfree hqueued => exact claimInv_setWorker hs (by simp) hlock
  | claim j hw => exact claimInv_claimed hs hw
  | process j pc act stored db' pc' hw hfree hget hmove =>
    exact claimInv_process hs hw hfree hget hmove

/-- A step that moves no worker and keeps every job being processed out of the
queue. -/
theorem claimInv_write {s t : QueueState} (hs : ClaimInv s) (hlock : LockInv t)
    (hworkers : t.workers = s.workers)
    (hactive : ∀ w j, s.Active w j →
      ∃ row, t.db.extractionJobs.get j = some row ∧ row.status ≠ .queued) : ClaimInv t := by
  have hsame : ∀ w j, t.Active w j ↔ s.Active w j := by
    intro w j
    simp only [QueueState.Active, hworkers]
  refine ⟨hlock, ?_, ?_⟩
  · intro w j hw
    exact hactive w j ((hsame w j).mp hw)
  · intro w w' j hw hw'
    exact hs.unique w w' j ((hsame w j).mp hw) ((hsame w' j).mp hw')

/-- The commit of a request keeps the jobs being processed out of the queue: a
cancel writes `cancelled`, and a retry is about a job nobody processes. -/
theorem active_commitRequest {s : QueueState} {actor : String} {q : Request} (hs : ClaimInv s)
    (hok : ∀ job loaded document checked, q = .retry job loaded document checked →
      ∀ w, ¬ s.Active w job) {w j : ℕ} (hactive : s.Active w j) :
    ∃ row, (s.db.commitRequest actor q).extractionJobs.get j = some row ∧ row.status ≠ .queued := by
  obtain ⟨row, hrow, hstatus⟩ := hs.active w j hactive
  by_cases hj : j = q.job
  · cases q with
    | retry job loaded document checked =>
      have hjob : j = job := hj
      exact absurd (hjob ▸ hactive) (hok job loaded document checked rfl w)
    | cancel job loaded document checked =>
      obtain rfl : j = job := hj
      have hcancelled := commitRequest_statusOf s.db actor (.cancel j loaded document checked)
      simp only [Database.statusOf, Request.job, hrow, Option.map_some] at hcancelled
      obtain ⟨row', hrow', hstatus'⟩ := Option.map_eq_some_iff.mp hcancelled
      exact ⟨row', hrow', by simp [hstatus', Request.newRow, cancelJob]⟩
  · exact ⟨row, (commitRequest_get s.db actor q hj).trans hrow, hstatus⟩

theorem claimInv_api {s t : QueueState} {act : ApiAct} (hs : ClaimInv s)
    (hok : RetryUncontended s (.api act)) (h : ApiMove s act t) : ClaimInv t := by
  have hlock := lockInv_api hs.lock h
  cases h with
  | create tenant actor document version override createdAt hfree =>
    refine claimInv_write hs hlock rfl ?_
    intro w j hactive
    obtain ⟨row, hrow, hstatus⟩ := hs.active w j hactive
    exact ⟨row, createJob_get hrow _ _ _ _ _ _, hstatus⟩
  | readRetry | readCancel | abandon => exact claimInv_write hs hlock rfl hs.active
  | commit r actor q hfree hq =>
    refine claimInv_write hs hlock rfl ?_
    intro w j hactive
    refine active_commitRequest hs ?_ hactive
    intro job loaded document checked hretry
    exact hok job loaded document checked (hretry ▸ hq)

/-- **One step of the system keeps the invariant**, unless it commits a retry of
a job being processed. -/
theorem claimInv_step {s t : QueueState} {act : QueueAct} (hs : ClaimInv s)
    (hok : RetryUncontended s act) (h : queueStep s act = some t) : ClaimInv t := by
  cases act with
  | worker w act => exact claimInv_worker hs (workerMove_of_step h)
  | api act => exact claimInv_api hs hok (apiMove_of_step h)

/-! ### The reachable states -/

/-- Worker `w` polls the queue, finds job 1 and claims it. -/
def claimJobOne (w : ℕ) : List QueueAct :=
  [.worker w .next, .worker w (.select (some 1)), .worker w .next, .worker w .next]

/-- **No double processing.**  In every state that is reached without a retry
committed on a job being processed, at most one worker is between its claim of a
given job and its terminal commit. -/
theorem active_unique {s t : QueueState} {as : List QueueAct} (hs : s.Idle)
    (hrun : Run queueStep RetryUncontended s as t) {j w w' : ℕ} (hw : t.Active w j)
    (hw' : t.Active w' j) : w = w' := by
  have hinv : ClaimInv t :=
    hrun.invariant (fun _ _ _ hinv hok hstep => claimInv_step hinv hok hstep) (claimInv_of_idle hs)
  exact hinv.unique w w' j hw hw'

/-- A retry of the failed job, and its claim: worker 0 is the one processing it. -/
theorem active_unique_after_retry :
    ∃ t, exec queueStep { db := oneJobDb (queuedJob.failWith "boom") }
        ([.api (.readRetry 1 "default" 1), .api (.commit 1 "ann")] ++ claimJobOne 0) = some t ∧
      t.Active 0 1 ∧ ∀ w, t.Active w 1 → w = 0 := by
  have hidle : QueueState.Idle { db := oneJobDb (queuedJob.failWith "boom") } := ⟨rfl, fun _ => rfl, fun _ => rfl⟩
  have hfree : ∀ s : QueueState, (∀ w, s.workers w = .idle) →
      RetryUncontended s (.api (.commit 1 "ann")) := by
    rintro s hs job loaded document checked - w ⟨pc, hbusy, -⟩
    rw [hs w] at hbusy
    cases hbusy
  have hrun : ∃ t, Run queueStep RetryUncontended { db := oneJobDb (queuedJob.failWith "boom") }
      ([.api (.readRetry 1 "default" 1), .api (.commit 1 "ann")] ++ claimJobOne 0) t ∧
      t.Active 0 1 :=
    ⟨_, .cons rfl trivial (.cons rfl (hfree _ fun _ => rfl) (.cons rfl trivial
      (.cons rfl trivial (.cons rfl trivial (.cons rfl trivial (.nil _)))))), ⟨_, rfl, rfl⟩⟩
  obtain ⟨t, hrun, hactive⟩ := hrun
  exact ⟨t, hrun.exec_eq, hactive, fun w hw => active_unique hidle hrun hw hactive⟩

/-! ### A stale retry -/

/-- Two retries read the failed job, and each is committed before a claim. -/
def staleRetrySchedule : List QueueAct :=
  [.api (.readRetry 1 "default" 1), .api (.readRetry 2 "default" 1), .api (.commit 1 "ann")] ++
    claimJobOne 0 ++ [.api (.commit 2 "bob")] ++ claimJobOne 1

/-- **A stale retry hands a job to a second worker**: it read the job as failed, and sets it back
when the job is running again. -/
theorem stale_retry_doubles :
    ¬ ∀ (s t : QueueState) (as : List QueueAct), s.Idle →
      Run queueStep (fun _ _ => True) s as t →
      ∀ j w w', t.Active w j → t.Active w' j → w = w' := by
  intro hclaim
  have hidle : QueueState.Idle { db := oneJobDb (queuedJob.failWith "boom") } := ⟨rfl, fun _ => rfl, fun _ => rfl⟩
  have hrun : ∃ t, exec queueStep { db := oneJobDb (queuedJob.failWith "boom") } staleRetrySchedule = some t ∧
      t.workers 0 = .busy 1 .load ∧ t.workers 1 = .busy 1 .load := ⟨_, rfl, rfl, rfl⟩
  obtain ⟨t, ht, h0, h1⟩ := hrun
  have := hclaim _ _ _ hidle (run_of_exec _ _ _ ht) 1 0 1 ⟨_, h0, rfl⟩ ⟨_, h1, rfl⟩
  exact absurd this (by decide)

end ExtractFlow
