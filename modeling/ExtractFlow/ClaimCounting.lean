import ExtractFlow.JobQueue

/-!
# Claims are counted

The calls of `claim_next_job` on the polling path, with jobs being inserted and
cancelled meanwhile.  A call is a worker from its first `SELECT` to the job it
returns: a candidate is read in one statement, the `UPDATE` guarded by
`status = 'queued'` is another, and any statement of another call or request may
come between the two.

What carries the results is the write lock.  From the guarded `UPDATE` to its
commit nobody else writes, so the row the commit turns to `running` is still the
queued row the guard saw, and the commit is the only statement that turns a
queued row to `running` or adds to `attempt_count`.

## Main definitions

* `ClaimScope` — the statements of claims, inserts and cancels.
* `QueueState.returns s a` — the call the statement `a` ends, with the job it returns.
* `returned s as` — the calls that return a job in a run, in order.
* `Database.attemptsOf` — the `attempt_count` of a job.

## Main results

* `returns_iff` — a call returns a job exactly when it leaves `claim_next_job` with it.
* `claimed_iff_returns` — a step turns a queued job to running exactly when it returns it.
* `attemptsOf_step` — a step adds to `attempt_count` what it returns.
* `Withdrawn`, `withdrawn_step` — a cancelled job stays out of the queue.
* `claims_are_counted` — the four facts about every run.
-/

namespace ExtractFlow

open Transition

/-! ### The calls -/

/-- Not past `claim_next_job`. -/
def Phase.calling : Phase → Bool
  | .busy _ _ => false
  | _ => true

/-- The statements of the calls of `claim_next_job`, the inserts and the cancels:
no call is past its return, and nobody retries a job. -/
def ClaimScope (s : QueueState) : QueueAct → Prop
  | .worker w _ => (s.workers w).calling = true
  | .api (.readRetry _ _ _) => False
  | .api _ => True

/-- The call that returns a job at this statement, with the job. -/
def QueueState.returns (s : QueueState) : QueueAct → Option (ℕ × ℕ)
  | .worker w .next =>
      match s.workers w with
      | .claiming j => some (w, j)
      | _ => none
  | _ => none

/-- The calls that return a job in a run, in order, with their jobs. -/
def returned (s : QueueState) (as : List QueueAct) : List (ℕ × ℕ) :=
  outputs queueStep QueueState.returns s as

/-- The `attempt_count` of the job `j`; nought before its insert. -/
def Database.attemptsOf (db : Database) (j : ℕ) : ℕ :=
  ((db.extractionJobs.get j).map ExtractionJob.attemptCount).getD 0

/-- The job `j` is queued, and no queued job is older. -/
def Database.OldestQueued (db : Database) (j : ℕ) : Prop :=
  ∃ row, db.extractionJobs.get j = some row ∧ row.status = .queued ∧
    ∀ k other, db.extractionJobs.get k = some other → other.status = .queued →
      row.createdAt ≤ other.createdAt

/-- The statement is one of the call `w`. -/
def QueueAct.isOf (w : ℕ) : QueueAct → Bool
  | .worker w' _ => w' == w
  | .api _ => false

/-- What the `SELECT` of a claim may return is the oldest queued job. -/
theorem oldestQueued_of_isOldestQueued {db : Database} {j : ℕ}
    (h : db.isOldestQueued j = true) : db.OldestQueued j := by
  unfold Database.isOldestQueued at h
  split at h
  · next row hrow =>
    simp only [Bool.and_eq_true, beq_iff_eq, List.all_eq_true, decide_eq_true_eq] at h
    refine ⟨row, hrow, h.1, ?_⟩
    intro k other hother hqueued
    have hmem : (k, other) ∈ db.extractionJobs.select fun r => r.status == .queued :=
      Table.mem_select.mpr ⟨Table.mem_of_get hother, by simp [hqueued]⟩
    exact h.2 _ hmem
  · cases h

/-! ### One statement of a call -/

/-- The statements of the calls of `claim_next_job`: a worker in scope looks for
a job, takes the lock on one, or commits its claim. -/
theorem claimMove_of_step {s t : QueueState} {w : ℕ} {act : WorkerAct}
    (hscope : ClaimScope s (.worker w act)) (h : queueStep s (.worker w act) = some t) :
    (∃ ph, ph.looking = true ∧ (s.workers w).looking = true ∧ t = s.setWorker w ph) ∨
      (∃ tries j, s.workers w = .selected tries j ∧
        t = { s with writer := some w }.setWorker w (.claiming j)) ∨
      ∃ j, s.workers w = .claiming j ∧ t = s.claimed w j := by
  cases workerMove_of_step h with
  | look ph hfrom hto => exact Or.inl ⟨ph, hto, hfrom, rfl⟩
  | lock tries j hw hfree hqueued => exact Or.inr (Or.inl ⟨tries, j, hw, rfl⟩)
  | claim j hw => exact Or.inr (Or.inr ⟨j, hw, rfl⟩)
  | process j pc act stored db' pc' hw =>
    rw [ClaimScope, hw] at hscope
    cases hscope

/-- A call returns at the commit of its claim. -/
theorem returns_eq_some {s : QueueState} {a : QueueAct} {w j : ℕ} :
    s.returns a = some (w, j) ↔ a = .worker w .next ∧ s.workers w = .claiming j := by
  constructor
  · intro h
    unfold QueueState.returns at h
    split at h
    · next w' =>
      split at h
      · next j' hw' =>
        obtain ⟨rfl, rfl⟩ : w' = w ∧ j' = j := by simpa using h
        exact ⟨rfl, hw'⟩
      · cases h
    · cases h
  · rintro ⟨rfl, hw⟩
    simp only [QueueState.returns, hw]

/-- The one statement of a call that holds the lock is its commit. -/
theorem returns_of_claiming {s t : QueueState} {w j : ℕ} {act : WorkerAct}
    (h : queueStep s (.worker w act) = some t) (hw : s.workers w = .claiming j) :
    s.returns (.worker w act) = some (w, j) := by
  cases act with
  | next => exact returns_eq_some.mpr ⟨rfl, hw⟩
  | raise | select | parsed | extracted => simp [queueStep, workerStep, hw] at h

/-- **A call returns the job it leaves `claim_next_job` with**, and returns one only when
it leaves. -/
theorem returns_iff {s t : QueueState} {a : QueueAct} (hscope : ClaimScope s a)
    (h : queueStep s a = some t) {w j : ℕ} :
    s.returns a = some (w, j) ↔
      (s.workers w).calling = true ∧ t.workers w = .busy j .load := by
  rw [returns_eq_some]
  constructor
  · rintro ⟨rfl, hw⟩
    refine ⟨by simp [hw, Phase.calling], ?_⟩
    rcases claimMove_of_step hscope h with ⟨ph, -, hfrom, -⟩ | ⟨tries, j', hw', -⟩ | ⟨j', hw', rfl⟩
    · simp [hw, Phase.looking] at hfrom
    · simp [hw] at hw'
    · rw [hw] at hw'
      obtain rfl := Phase.claiming.inj hw'
      simp [QueueState.claimed]
  · rintro ⟨hcalling, hbusy⟩
    -- a statement of somebody else leaves the call where it is
    have hmine : ∃ act, a = .worker w act := by
      by_contra hno
      rw [workers_ne h fun act hact => hno ⟨act, hact⟩] at hbusy
      rw [hbusy] at hcalling
      cases hcalling
    obtain ⟨act, rfl⟩ := hmine
    rcases claimMove_of_step hscope h with ⟨ph, hto, -, rfl⟩ | ⟨tries, j', hw', rfl⟩ | ⟨j', hw', rfl⟩
    · rw [setWorker_self] at hbusy
      simp [hbusy, Phase.looking] at hto
    · rw [setWorker_self] at hbusy
      cases hbusy
    · simp only [QueueState.claimed, setWorker_self, Phase.busy.injEq] at hbusy
      obtain ⟨rfl, -⟩ := hbusy
      exact returns_eq_some.mp (returns_of_claiming h hw')

/-! ### What a statement does to a job -/

/-- A statement that returns nothing for `j` and is no request's leaves `j`. -/
theorem get_worker_of_not_returned {s t : QueueState} {w : ℕ} {act : WorkerAct}
    (hscope : ClaimScope s (.worker w act)) (h : queueStep s (.worker w act) = some t) {j : ℕ}
    (hj : s.workers w ≠ .claiming j) :
    t.db.extractionJobs.get j = s.db.extractionJobs.get j := by
  rcases claimMove_of_step hscope h with ⟨ph, -, -, rfl⟩ | ⟨tries, j', -, rfl⟩ | ⟨j', hw', rfl⟩
  · rfl
  · rfl
  · have hne : j ≠ j' := by
      rintro rfl
      exact hj hw'
    simp only [QueueState.claimed, setWorker_db]
    exact Table.get_update_ne _ _ hne

/-- A call that returns is at the commit of its claim, and the commit writes the
claimed row. -/
theorem get_returned {s t : QueueState} {a : QueueAct} (h : queueStep s a = some t) {w j : ℕ}
    (hret : s.returns a = some (w, j)) :
    t.db.extractionJobs.get j = (s.db.extractionJobs.get j).map (·.claim w) := by
  obtain ⟨rfl, hw⟩ := returns_eq_some.mp hret
  simp only [queueStep, workerStep, hw, Option.some.injEq] at h
  subst h
  simp only [setWorker_db]
  exact Table.get_update_self _ _ _

/-- A request writes neither `running` nor an attempt count. -/
theorem statusOf_api {s t : QueueState} {act : ApiAct} (h : apiStep s act = some t) {j : ℕ}
    (hrunning : t.db.statusOf j = some .running) : s.db.statusOf j = some .running := by
  cases apiMove_of_step h with
  | create tenant actor document version override createdAt hfree =>
    by_cases hj : j = s.db.extractionJobs.nextId
    · subst hj
      simp [Database.statusOf, Database.createJob, Database.setDocumentStatus,
        Database.recordJobAudit] at hrunning
    · simpa only [Database.statusOf, Database.createJob, Database.setDocumentStatus,
        Database.recordJobAudit, Table.get_insert_ne _ _ hj] using hrunning
  | readRetry | readCancel | abandon => exact hrunning
  | commit r actor q hfree hq =>
    rw [setRequest_db] at hrunning
    by_cases hj : j = q.job
    · subst hj
      rw [commitRequest_statusOf] at hrunning
      obtain ⟨status, -, hnew⟩ := Option.map_eq_some_iff.mp hrunning
      cases q <;> simp [Request.newRow, retryFailedJob, cancelJob] at hnew
    · rwa [Database.statusOf, commitRequest_get _ _ _ hj] at hrunning

theorem attemptsOf_api {s t : QueueState} {act : ApiAct} (h : apiStep s act = some t) (j : ℕ) :
    t.db.attemptsOf j = s.db.attemptsOf j := by
  unfold Database.attemptsOf
  cases apiMove_of_step h with
  | create tenant actor document version override createdAt hfree =>
    by_cases hj : j = s.db.extractionJobs.nextId
    · subst hj
      simp [Database.createJob, Database.setDocumentStatus, Database.recordJobAudit]
    · simp only [Database.createJob, Database.setDocumentStatus, Database.recordJobAudit,
        Table.get_insert_ne _ _ hj]
  | readRetry | readCancel | abandon => rfl
  | commit r actor q hfree hq =>
    rw [setRequest_db]
    by_cases hj : j = q.job
    · subst hj
      -- the column is not among those a retry or a cancel changes
      have hsame : q.newRow.attemptCount = q.loaded.attemptCount := by cases q <;> rfl
      rw [commitRequest_jobs, Table.get_update_self, Option.map_map]
      simp [Function.comp_def, ExtractionJob.flush, hsame]
    · rw [commitRequest_get _ _ _ hj]

/-- **A step turns a queued job to running exactly when a call returns it.** -/
theorem claimed_iff_returns {s t : QueueState} {a : QueueAct} (hlock : LockInv s)
    (hscope : ClaimScope s a) (h : queueStep s a = some t) (j : ℕ) :
    (s.db.statusOf j = some .queued ∧ t.db.statusOf j = some .running) ↔
      ∃ w, s.returns a = some (w, j) := by
  constructor
  · rintro ⟨hqueued, hrunning⟩
    cases a with
    | api act =>
      have := statusOf_api h hrunning
      rw [hqueued] at this
      cases this
    | worker w act =>
      by_cases hw : s.workers w = .claiming j
      · exact ⟨w, returns_of_claiming h hw⟩
      · rw [Database.statusOf, get_worker_of_not_returned hscope h hw] at hrunning
        rw [Database.statusOf, hrunning] at hqueued
        cases hqueued
  · rintro ⟨w, hret⟩
    have hqueued := (hlock w j (returns_eq_some.mp hret).2).2
    refine ⟨hqueued, ?_⟩
    rw [Database.statusOf, get_returned h hret]
    obtain ⟨row, hrow, -⟩ := Option.map_eq_some_iff.mp hqueued
    simp [hrow, ExtractionJob.claim]

/-- **A step adds to `attempt_count` what it returns**: one for the job that is returned, and
nothing for any other. -/
theorem attemptsOf_step {s t : QueueState} {a : QueueAct} (hlock : LockInv s)
    (hscope : ClaimScope s a) (h : queueStep s a = some t) (j : ℕ) :
    t.db.attemptsOf j =
      s.db.attemptsOf j + (((s.returns a).toList).map Prod.snd).count j := by
  by_cases hret : ∃ w, s.returns a = some (w, j)
  · obtain ⟨w, hret⟩ := hret
    obtain ⟨row, hrow, -⟩ :=
      Option.map_eq_some_iff.mp (hlock w j (returns_eq_some.mp hret).2).2
    rw [Database.attemptsOf, get_returned h hret, Database.attemptsOf, hrow, hret]
    simp [ExtractionJob.claim]
  · have hcount : (((s.returns a).toList).map Prod.snd).count j = 0 := by
      rw [List.count_eq_zero]
      intro hmem
      obtain ⟨⟨w, j'⟩, hwj, rfl⟩ := List.mem_map.mp hmem
      exact hret ⟨w, Option.mem_toList.mp hwj⟩
    rw [hcount, Nat.add_zero]
    cases a with
    | api act => exact attemptsOf_api h j
    | worker w act =>
      have hw : s.workers w ≠ .claiming j := fun hw => hret ⟨w, returns_of_claiming h hw⟩
      rw [Database.attemptsOf, get_worker_of_not_returned hscope h hw, Database.attemptsOf]

/-! ### Cancelled jobs -/

/-- Every request in flight is a cancel of a job that is there. -/
def OnlyCancels (s : QueueState) : Prop :=
  ∀ r q, s.requests r = some q → q.newRow.status = .cancelled ∧
    (s.db.extractionJobs.get q.job).isSome = true

/-- The job `j` is cancelled, and no call holds the lock on it. -/
structure Withdrawn (j : ℕ) (s : QueueState) : Prop where
  cancelled : s.db.statusOf j = some .cancelled
  claiming : ∀ w, s.workers w ≠ .claiming j

theorem onlyCancels_of_idle {s : QueueState} (h : s.Idle) : OnlyCancels s := by
  intro r q hq
  rw [h.requests r] at hq
  cases hq

/-- The requests of a state with the jobs of another and no new request. -/
theorem onlyCancels_mono {s t : QueueState} (hs : OnlyCancels s)
    (hjobs : ∀ j, (s.db.extractionJobs.get j).isSome = true →
      (t.db.extractionJobs.get j).isSome = true)
    (hreq : ∀ r q, t.requests r = some q → s.requests r = some q) : OnlyCancels t := by
  intro r q hq
  obtain ⟨hcancel, hthere⟩ := hs r q (hreq r q hq)
  exact ⟨hcancel, hjobs q.job hthere⟩

theorem onlyCancels_step {s t : QueueState} {a : QueueAct} (hs : OnlyCancels s)
    (hscope : ClaimScope s a) (h : queueStep s a = some t) : OnlyCancels t := by
  have hjobs := fun j => @jobs_persist s t a h j
  cases a with
  | worker w act =>
    refine onlyCancels_mono hs hjobs ?_
    intro r q hq
    rcases claimMove_of_step hscope h with ⟨ph, -, -, rfl⟩ | ⟨tries, j', -, rfl⟩ | ⟨j', -, rfl⟩ <;>
      exact hq
  | api act =>
    -- a request that is taken out of flight leaves the others
    have hdrop : ∀ (u : QueueState) (r : ℕ), u.requests = s.requests →
        ∀ r' q, (u.setRequest r none).requests r' = some q → s.requests r' = some q := by
      intro u r hu r' q hq
      by_cases hne : r' = r
      · subst hne
        rw [setRequest_self] at hq
        cases hq
      · rwa [setRequest_ne _ _ _ hne, hu] at hq
    cases apiMove_of_step h with
    | create => exact onlyCancels_mono hs hjobs fun r q hq => hq
    | readRetry => exact hscope.elim
    | readCancel r tenant job row document checked hget =>
      intro r' q hq
      by_cases hne : r' = r
      · subst hne
        rw [setRequest_self] at hq
        obtain rfl := Option.some.inj hq
        exact ⟨rfl, by simp [Request.job, hget]⟩
      · rw [setRequest_ne _ _ _ hne] at hq
        exact hs r' q hq
    | commit r actor q hfree hq => exact onlyCancels_mono hs hjobs (hdrop _ r rfl)
    | abandon r => exact onlyCancels_mono hs hjobs (hdrop _ r rfl)

/-- The commit of a cancel withdraws the job: it needs the write lock free, so no
call is between its `UPDATE` of the job and its commit. -/
theorem withdrawn_of_commit {s t : QueueState} {r : ℕ} {actor : String} {q : Request}
    (hlock : LockInv s) (hcancels : OnlyCancels s) (hq : s.requests r = some q)
    (h : queueStep s (.api (.commit r actor)) = some t) : Withdrawn q.job t := by
  obtain ⟨hcancel, hthere⟩ := hcancels r q hq
  have hmove : ApiMove s (.commit r actor) t := apiMove_of_step h
  cases hmove with
  | commit _ _ q' hfree hq' =>
    rw [hq] at hq'
    obtain rfl := Option.some.inj hq'
    constructor
    · obtain ⟨row, hrow⟩ := Option.isSome_iff_exists.mp hthere
      rw [setRequest_db, commitRequest_statusOf, hcancel]
      simp [Database.statusOf, hrow]
    · intro w hw
      have hheld := (hlock w q.job hw).1
      rw [hfree] at hheld
      cases hheld

/-- **A cancelled job stays out of the queue**: no claim and no request sets it back. -/
theorem withdrawn_step {s t : QueueState} {a : QueueAct} {j : ℕ} (hs : Withdrawn j s)
    (hcancels : OnlyCancels s) (hscope : ClaimScope s a) (h : queueStep s a = some t) :
    Withdrawn j t := by
  obtain ⟨hcancelled, hclaiming⟩ := hs
  cases a with
  | worker w act =>
    constructor
    · rw [Database.statusOf, get_worker_of_not_returned hscope h (hclaiming w)]
      exact hcancelled
    · intro w' hw'
      by_cases hne : w' = w
      · subst hne
        cases workerMove_of_step h with
        | look ph _ hlook =>
          rw [setWorker_self] at hw'
          simp [hw', Phase.looking] at hlook
        -- the guard asks for a queued row, and this one is cancelled
        | lock tries j' _ _ hqueued =>
          rw [setWorker_self] at hw'
          obtain rfl := Phase.claiming.inj hw'
          rw [hcancelled] at hqueued
          cases hqueued
        | claim j' => simp [QueueState.claimed] at hw'
        | process j' pc act stored db' pc' hw =>
          rw [ClaimScope, hw] at hscope
          cases hscope
      · rw [workers_ne h fun act' hact => hne (QueueAct.worker.inj hact).1.symm] at hw'
        exact hclaiming w' hw'
  | api act =>
    constructor
    · cases apiMove_of_step h with
      | create =>
        obtain ⟨row, hrow, hstatus⟩ := Option.map_eq_some_iff.mp hcancelled
        rw [Database.statusOf, createJob_get hrow, Option.map_some, hstatus]
      | readRetry | readCancel | abandon => exact hcancelled
      | commit r actor q hfree hq =>
        rw [setRequest_db]
        by_cases hj : j = q.job
        · subst hj
          rw [commitRequest_statusOf, hcancelled, (hcancels r q hq).1]
          rfl
        · rw [Database.statusOf, commitRequest_get _ _ _ hj]
          exact hcancelled
    · intro w hw
      rw [workers_ne h fun act' hact => by cases hact] at hw
      exact hclaiming w hw

/-! ### The candidate of a call -/

/-- The call `w` has read `j` as the oldest queued job, and since then taken
`tail`: nothing, or the guarded `UPDATE`. -/
def Selected (s : QueueState) (as : List QueueAct) (w j : ℕ) (tail : List QueueAct) : Prop :=
  ∃ pre post u, as = pre ++ .worker w (.select (some j)) :: post ∧
    Run queueStep ClaimScope s pre u ∧ u.db.OldestQueued j ∧ post.filter (·.isOf w) = tail

/-- A statement of somebody else adds nothing to a call. -/
theorem Selected.other {s : QueueState} {as tail : List QueueAct} {w j : ℕ} {a : QueueAct}
    (h : Selected s as w j tail) (ha : a.isOf w = false) : Selected s (as ++ [a]) w j tail := by
  obtain ⟨pre, post, u, rfl, hrun, hold, htail⟩ := h
  exact ⟨pre, post ++ [a], u, by simp, hrun, hold, by simp [ha, htail]⟩

/-- A candidate is what the last `SELECT` of the call read, and only statements of others came since
then. -/
structure SelectInv (s : QueueState) (as : List QueueAct) (t : QueueState) : Prop where
  run : Run queueStep ClaimScope s as t
  selected : ∀ w tries j, t.workers w = .selected tries j → Selected s as w j []
  claiming : ∀ w j, t.workers w = .claiming j → Selected s as w j [.worker w .next]

/-- A call has a candidate after the `SELECT` that returned it, which returns the oldest
queued job. -/
theorem select_of_step {s t : QueueState} {w tries j : ℕ} {act : WorkerAct}
    (hscope : ClaimScope s (.worker w act)) (h : queueStep s (.worker w act) = some t)
    (ht : t.workers w = .selected tries j) :
    act = .select (some j) ∧ s.db.OldestQueued j := by
  simp only [queueStep, workerStep] at h
  split at h
  case h_1 | h_2 =>
    obtain rfl := Option.some.inj h
    simp at ht
  case h_3 =>
    split at h
    · obtain rfl := Option.some.inj h
      simp at ht
    · cases h
  case h_4 tries' j' _ =>
    split at h
    -- the only statement that leaves a call with a candidate
    · next holdest =>
      obtain rfl := Option.some.inj h
      rw [setWorker_self] at ht
      obtain ⟨-, rfl⟩ := Phase.selected.inj ht
      exact ⟨rfl, oldestQueued_of_isOldestQueued holdest⟩
    · cases h
  case h_5 =>
    split at h
    · cases h
    · split at h <;> obtain rfl := Option.some.inj h <;> simp at ht
  case h_6 =>
    obtain rfl := Option.some.inj h
    simp at ht
  case h_7 j' pc hw =>
    rw [ClaimScope, hw] at hscope
    cases hscope
  case h_8 => cases h

/-- A call takes the lock by the `UPDATE` of its candidate. -/
theorem update_of_step {s t : QueueState} {w j : ℕ} {act : WorkerAct}
    (hscope : ClaimScope s (.worker w act)) (h : queueStep s (.worker w act) = some t)
    (ht : t.workers w = .claiming j) : act = .next ∧ ∃ tries, s.workers w = .selected tries j := by
  rcases claimMove_of_step hscope h with ⟨ph, hto, -, rfl⟩ | ⟨tries, j', hw, rfl⟩ | ⟨j', -, rfl⟩
  · rw [setWorker_self] at ht
    simp [ht, Phase.looking] at hto
  · rw [setWorker_self] at ht
    obtain rfl := Phase.claiming.inj ht
    refine ⟨?_, tries, hw⟩
    cases act with
    | next => rfl
    | raise | select | parsed | extracted => simp [queueStep, workerStep, hw] at h
  · simp [QueueState.claimed] at ht

theorem selectInv_of_idle {s : QueueState} (h : s.Idle) : SelectInv s [] s where
  run := .nil s
  selected w tries j hw := by
    rw [h.workers w] at hw
    cases hw
  claiming w j hw := by
    rw [h.workers w] at hw
    cases hw

theorem selectInv_step {s t u : QueueState} {as : List QueueAct} {a : QueueAct}
    (hs : SelectInv s as t) (hscope : ClaimScope t a) (h : queueStep t a = some u) :
    SelectInv s (as ++ [a]) u := by
  obtain ⟨hrun, hselected, hclaiming⟩ := hs
  -- a call is where it was, unless the statement is its own
  have hmine : ∀ w, a.isOf w = false → u.workers w = t.workers w := by
    intro w hw
    refine workers_ne h fun act hact => ?_
    simp [hact, QueueAct.isOf] at hw
  refine ⟨hrun.snoc h hscope, ?_, ?_⟩
  · intro w tries j hw
    cases ha : a.isOf w with
    | false => exact (hselected w tries j (hmine w ha ▸ hw)).other ha
    | true =>
      cases a with
      | api act => cases ha
      | worker w' act =>
        obtain rfl : w' = w := by simpa [QueueAct.isOf] using ha
        obtain ⟨rfl, hold⟩ := select_of_step hscope h hw
        exact ⟨as, [], t, rfl, hrun, hold, rfl⟩
  · intro w j hw
    cases ha : a.isOf w with
    | false => exact (hclaiming w j (hmine w ha ▸ hw)).other ha
    | true =>
      cases a with
      | api act => cases ha
      | worker w' act =>
        obtain rfl : w' = w := by simpa [QueueAct.isOf] using ha
        obtain ⟨rfl, tries, hw⟩ := update_of_step hscope h hw
        obtain ⟨pre, post, v, rfl, hpre, hold, hpost⟩ := hselected w' tries j hw
        refine ⟨pre, post ++ [.worker w' .next], v, by simp, hpre, hold, ?_⟩
        rw [List.filter_append, hpost, List.filter_cons, if_pos ha]
        rfl

/-! ### Every run -/

/-- What holds in every state a run of calls, inserts and cancels reaches. -/
structure ClaimCountInv (s : QueueState) (as : List QueueAct) (t : QueueState) : Prop where
  lock : LockInv t
  cancels : OnlyCancels t
  select : SelectInv s as t

theorem claimCountInv_of_run {s t : QueueState} {as : List QueueAct} (hs : s.Idle)
    (hrun : Run queueStep ClaimScope s as t) : ClaimCountInv s as t := by
  have hinv : ∀ pre : List QueueAct, ClaimCountInv s pre s → ClaimCountInv s (pre ++ as) t :=
    hrun.trace_invariant (I := ClaimCountInv s) fun as u a v hu hscope hstep =>
      ⟨lockInv_step hu.lock hstep, onlyCancels_step hu.cancels hscope hstep,
        selectInv_step hu.select hscope hstep⟩
  exact hinv [] ⟨lockInv_of_idle hs, onlyCancels_of_idle hs, selectInv_of_idle hs⟩

/-- The attempts of a job over a run. -/
theorem attemptsOf_of_run {s t : QueueState} {as : List QueueAct} (hlock : LockInv s)
    (hrun : Run queueStep ClaimScope s as t) (j : ℕ) :
    t.db.attemptsOf j = s.db.attemptsOf j + ((returned s as).map Prod.snd).count j := by
  have hcount : LockInv s → t.db.attemptsOf j =
      s.db.attemptsOf j + ((returned s as).map Prod.snd).count j :=
    hrun.outputs_invariant
      (R := fun s bs t => LockInv s → t.db.attemptsOf j =
        s.db.attemptsOf j + (bs.map Prod.snd).count j)
      (by simp)
      (by
        intro s a t bs u hscope hstep ih hlock
        rw [ih (lockInv_step hlock hstep), attemptsOf_step hlock hscope hstep, List.map_append,
          List.count_append, Nat.add_assoc])
  exact hcount hlock

/-- A withdrawn job is not returned any more. -/
theorem not_returned_of_withdrawn {s t : QueueState} {as : List QueueAct} {j : ℕ}
    (hs : Withdrawn j s) (hcancels : OnlyCancels s) (hrun : Run queueStep ClaimScope s as t) :
    j ∉ (returned s as).map Prod.snd := by
  have hforall : ∀ b ∈ returned s as, b.2 ≠ j :=
    hrun.outputs_forall (I := fun s => Withdrawn j s ∧ OnlyCancels s) (P := fun b : ℕ × ℕ => b.2 ≠ j)
      (fun u a v hu hscope hstep =>
        ⟨withdrawn_step hu.1 hu.2 hscope hstep, onlyCancels_step hu.2 hscope hstep⟩)
      (by
        rintro u a ⟨w, j'⟩ hu hret rfl
        exact hu.1.claiming w (returns_eq_some.mp hret).2)
      ⟨hs, hcancels⟩
  intro hmem
  obtain ⟨b, hb, rfl⟩ := List.mem_map.mp hmem
  exact hforall b hb rfl

/-- **Claims are counted.**  In every interleaving of the statements of any number
of calls with inserts and cancels, after any run `as`: the next statement turns a
queued job to running exactly when one call, and only one, returns it there; the
`attempt_count` of a job has grown by the number of times it was returned; a job
whose cancel is committed next is in no later run returned; and a job returned next
was queued, with the least `created_at`, when its call last ran the `SELECT`. -/
theorem claims_are_counted {s t : QueueState} {as : List QueueAct} (hs : s.Idle)
    (hrun : Run queueStep ClaimScope s as t) :
    (∀ a u, ClaimScope t a → queueStep t a = some u → ∀ j,
      (t.db.statusOf j = some .queued ∧ u.db.statusOf j = some .running) ↔
        ∃! w, t.returns a = some (w, j)) ∧
    (∀ j, t.db.attemptsOf j = s.db.attemptsOf j + ((returned s as).map Prod.snd).count j) ∧
    (∀ r actor job loaded document checked u bs v,
      t.requests r = some (.cancel job loaded document checked) →
      queueStep t (.api (.commit r actor)) = some u → Run queueStep ClaimScope u bs v →
      job ∉ (returned u bs).map Prod.snd) ∧
    ∀ a w j, t.returns a = some (w, j) → Selected s as w j [.worker w .next] := by
  have hinv := claimCountInv_of_run hs hrun
  refine ⟨?_, attemptsOf_of_run (lockInv_of_idle hs) hrun, ?_, ?_⟩
  · intro a u hscope hstep j
    -- Only one call can be at this statement, since a step is one worker's.
    rw [claimed_iff_returns hinv.lock hscope hstep j]
    constructor
    · rintro ⟨w, hw⟩
      refine ⟨w, hw, ?_⟩
      intro w' hw'
      have heq := hw'.symm.trans hw
      exact (Prod.mk.inj (Option.some.inj heq)).1
    · exact fun h => h.exists
  · intro r actor job loaded document checked u bs v hq hstep hrest
    -- The commit leaves the job cancelled, and no later step makes it queued again.
    have hscope : ClaimScope t (.api (.commit r actor)) := trivial
    exact not_returned_of_withdrawn (withdrawn_of_commit hinv.lock hinv.cancels hq hstep)
      (onlyCancels_step hinv.cancels hscope hstep) hrest
  · intro a w j hret
    exact hinv.select.claiming w j (returns_eq_some.mp hret).2

/-- Two calls race for the job: both read it, the second finds no row to update. -/
theorem claims_are_counted_race :
    ∃ t, exec queueStep { db := oneJobDb queuedJob }
        ([.worker 1 .next, .worker 1 (.select (some 1))] ++
          [.worker 0 .next, .worker 0 (.select (some 1)), .worker 0 .next, .worker 0 .next] ++
          [.worker 1 .next]) = some t ∧
      t.db.attemptsOf 1 = 1 ∧ t.workers 1 = .selecting 4 := by
  have hidle : QueueState.Idle { db := oneJobDb queuedJob } := ⟨rfl, fun _ => rfl, fun _ => rfl⟩
  have hrun : ∃ t, Run queueStep ClaimScope { db := oneJobDb queuedJob }
      ([.worker 1 .next, .worker 1 (.select (some 1))] ++
        [.worker 0 .next, .worker 0 (.select (some 1)), .worker 0 .next, .worker 0 .next] ++
        [.worker 1 .next]) t ∧ t.workers 1 = .selecting 4 :=
    ⟨_, .cons rfl rfl (.cons rfl rfl (.cons rfl rfl (.cons rfl rfl (.cons rfl rfl (.cons rfl rfl
      (.cons rfl rfl (.nil _))))))), rfl⟩
  obtain ⟨t, hrun, hwhere⟩ := hrun
  exact ⟨t, hrun.exec_eq, (claims_are_counted hidle hrun).2.1 1, hwhere⟩

end ExtractFlow
