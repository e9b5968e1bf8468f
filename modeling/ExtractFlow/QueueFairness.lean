import ExtractFlow.ClaimCounting
import Mathlib.Data.List.Nodup

/-!
# How long a queued job waits

Jobs are claimed in the order of their creation, but a worker reads its candidate
in one statement and claims it in another, so a job may be overtaken.  While a job
is queued every `SELECT` of the queue returns one that was created no later, so a
job created later is claimed only by a worker that had read it before, and by each
such worker once.  A job created no later is claimed only when it is queued, and
there is one such job less after its claim: new ones come only from a retry of an
old job, or from an insert with an earlier time.

All workers, requests and ends of calls are in the runs here: nothing is assumed
but that the job stays queued.

## Main definitions

* `Database.Waiting j c` — the job `j`, created at `c`, is queued.
* `Database.ahead j c` — the other queued jobs created no later than `c`.
* `Phase.candidate` — the job a worker has read and not yet claimed.
* `overtakers`, `joins` — who claims a later job in a run, and which jobs come in ahead.

## Main results

* `createdBy_step` — no step changes when a job was created.
* `queued_of_step` — a job is queued by its insert or by a retry, or it was queued.
* `candidate_of_step` — while `j` waits no worker reads a job created later.
* `ahead_step` — a claim of a job ahead takes it from the jobs ahead.
* `waiting_is_bounded` — the claims a job waits for.
-/

namespace ExtractFlow

open Transition

/-! ### Ahead of a job -/

/-- The job `k` is there and was created no later than `c`. -/
def Database.createdBy (db : Database) (c k : ℕ) : Bool :=
  (db.extractionJobs.get k).any fun row => row.createdAt ≤ c

/-- The job `j`, created at `c`, is queued and waits for its claim. -/
def Database.Waiting (db : Database) (j c : ℕ) : Prop :=
  ∃ row, db.extractionJobs.get j = some row ∧ row.status = .queued ∧ row.createdAt = c

/-- The queued jobs created no later than `c`, without `j`: those that are claimed before it if
nobody interferes. -/
def Database.ahead (db : Database) (j c : ℕ) : List ℕ :=
  (db.extractionJobs.keysWhere fun row => row.status == .queued && row.createdAt ≤ c).filter
    (· != j)

/-- The job a worker has read and not yet claimed, with which it may still overtake. -/
def Phase.candidate : Phase → Option ℕ
  | .selected _ k => some k
  | .claiming k => some k
  | _ => none

/-- The worker that claims at this statement a job created after `c`. -/
def QueueState.overtakes (c : ℕ) (s : QueueState) (a : QueueAct) : Option ℕ :=
  ((s.returns a).filter fun call => !s.db.createdBy c call.2).map Prod.fst

/-- The job other than `j`, created no later than `c`, that is claimed at this statement. -/
def QueueState.precedes (j c : ℕ) (s : QueueState) (a : QueueAct) : Option ℕ :=
  ((s.returns a).filter fun call => s.db.createdBy c call.2 && call.2 != j).map Prod.snd

/-- The job that comes in ahead of `j` at this statement: an insert with a time up to
`c`, or the commit of a retry of a job created by then. -/
def QueueState.joinsAhead (j c : ℕ) (s : QueueState) : QueueAct → Option ℕ
  | .api (.createJob _ _ _ _ _ createdAt) =>
      if createdAt ≤ c then some s.db.extractionJobs.nextId else none
  | .api (.commit r _) =>
      match s.requests r with
      | some (.retry k _ _ _) => if s.db.createdBy c k && k != j then some k else none
      | _ => none
  | _ => none

/-- The workers that claim in a run a job created after `c`. -/
def overtakers (c : ℕ) (s : QueueState) (as : List QueueAct) : List ℕ :=
  outputs queueStep (QueueState.overtakes c) s as

/-- The jobs other than `j`, created no later than `c`, that a run claims. -/
def preceders (j c : ℕ) (s : QueueState) (as : List QueueAct) : List ℕ :=
  outputs queueStep (QueueState.precedes j c) s as

/-- The jobs that come in ahead of `j` in a run: by a retry, or by an insert with an
earlier time. -/
def joins (j c : ℕ) (s : QueueState) (as : List QueueAct) : List ℕ :=
  outputs queueStep (QueueState.joinsAhead j c) s as

theorem createdBy_iff {db : Database} {c k : ℕ} :
    db.createdBy c k = true ↔
      ∃ row, db.extractionJobs.get k = some row ∧ row.createdAt ≤ c := by
  simp [Database.createdBy, Option.any_eq_true]

theorem mem_ahead {db : Database} {j c k : ℕ} :
    k ∈ db.ahead j c ↔ db.statusOf k = some .queued ∧ db.createdBy c k = true ∧ k ≠ j := by
  unfold Database.ahead
  rw [List.mem_filter, Table.mem_keysWhere, createdBy_iff, Database.statusOf]
  constructor
  · rintro ⟨⟨row, hrow, hp⟩, hne⟩
    simp only [Bool.and_eq_true, beq_iff_eq, decide_eq_true_eq] at hp
    exact ⟨by simp [hrow, hp.1], ⟨row, hrow, hp.2⟩, by simpa using hne⟩
  · rintro ⟨hqueued, ⟨row, hrow, hc⟩, hne⟩
    rw [hrow] at hqueued
    have hstatus : row.status = .queued := by simpa using hqueued
    exact ⟨⟨row, hrow, by simp [hstatus, hc]⟩, by simpa using hne⟩

theorem nodup_ahead (db : Database) (j c : ℕ) : (db.ahead j c).Nodup :=
  (Table.nodup_keysWhere _ _).filter _

/-! ### When a job was created -/

/-- A step of a worker keeps when its job was created. -/
theorem ProcessMove.createdAt {job : ℕ} {db db' : Database} {stored : ExtractionJob} {pc : Pc}
    {act : WorkerAct} {pc' : Option Pc} (h : ProcessMove job db stored pc act db' pc')
    (hget : db.extractionJobs.get job = some stored) :
    (db'.extractionJobs.get job).map (·.createdAt) = some stored.createdAt := by
  cases h <;> simp [hget, ExtractionJob.flush]

/-- **No step changes when a job was created**; only an insert adds a job. -/
theorem createdAt_step {s t : QueueState} {a : QueueAct} (h : queueStep s a = some t) (k : ℕ) :
    (t.db.extractionJobs.get k).map (·.createdAt) =
        (s.db.extractionJobs.get k).map (·.createdAt) ∨
      ∃ tenant actor document version override createdAt,
        a = .api (.createJob tenant actor document version override createdAt) ∧
        k = s.db.extractionJobs.nextId ∧
        (t.db.extractionJobs.get k).map (·.createdAt) = some createdAt := by
  cases a with
  | worker w act =>
    left
    cases workerMove_of_step h with
    | look | lock => rfl
    | claim j =>
      rw [QueueState.claimed, setWorker_db, Table.get_update]
      split
      · rw [Option.map_map]
        rfl
      · rfl
    | process j pc act stored db' pc' hw hfree hget hmove =>
      rw [setWorker_db]
      by_cases hk : k = j
      · subst hk
        rw [hmove.createdAt hget, hget]
        rfl
      · rw [hmove.jobs_ne hk]
  | api act =>
    cases apiMove_of_step h with
    | create tenant actor document version override createdAt hfree =>
      -- the new row has the time of the insert, and no other row is touched
      by_cases hk : k = s.db.extractionJobs.nextId
      · right
        refine ⟨tenant, actor, document, version, override, createdAt, rfl, hk, ?_⟩
        rw [hk]
        simp [Database.createJob, Database.setDocumentStatus, Database.recordJobAudit]
      · left
        simp only [Database.createJob, Database.setDocumentStatus, Database.recordJobAudit,
          Table.get_insert_ne _ _ hk]
    | readRetry | readCancel | abandon => exact Or.inl rfl
    | commit r actor q hfree hq =>
      left
      rw [setRequest_db, commitRequest_jobs, Table.get_update]
      split
      · rw [Option.map_map]
        rfl
      · rfl

/-- A job that is there stays created when it was. -/
theorem createdBy_step {s t : QueueState} {a : QueueAct} {c k : ℕ} (h : queueStep s a = some t)
    (hk : s.db.createdBy c k = true) : t.db.createdBy c k = true := by
  obtain ⟨row, hrow, hc⟩ := createdBy_iff.mp hk
  rcases createdAt_step h k with hsame | ⟨_, _, _, _, _, createdAt, _, hnext, _⟩
  · rw [hrow, Option.map_some] at hsame
    obtain ⟨row', hrow', heq⟩ := Option.map_eq_some_iff.mp hsame
    exact createdBy_iff.mpr ⟨row', hrow', heq ▸ hc⟩
  · -- the key of an insert is free
    rw [hnext, Table.get_nextId] at hrow
    cases hrow

/-- A job created by the time `c` was, unless it is inserted with such a time. -/
theorem createdBy_of_step {s t : QueueState} {a : QueueAct} {j c k : ℕ}
    (h : queueStep s a = some t) (hk : t.db.createdBy c k = true) :
    s.db.createdBy c k = true ∨ s.joinsAhead j c a = some k := by
  obtain ⟨row, hrow, hc⟩ := createdBy_iff.mp hk
  rcases createdAt_step h k with hsame | ⟨_, _, _, _, _, createdAt, rfl, rfl, hnew⟩
  · left
    rw [hrow, Option.map_some] at hsame
    obtain ⟨row', hrow', heq⟩ := Option.map_eq_some_iff.mp hsame.symm
    exact createdBy_iff.mpr ⟨row', hrow', heq.symm ▸ hc⟩
  · right
    rw [hrow, Option.map_some, Option.some.injEq] at hnew
    subst hnew
    simp [QueueState.joinsAhead, hc]

/-! ### Which steps queue a job -/

/-- **A job is queued by its insert or by the commit of a retry, or it was queued.** -/
theorem queued_of_step {s t : QueueState} {a : QueueAct} {k : ℕ} (h : queueStep s a = some t)
    (hk : t.db.statusOf k = some .queued) :
    s.db.statusOf k = some .queued ∨
      (∃ tenant actor document version override createdAt,
        a = .api (.createJob tenant actor document version override createdAt) ∧
        k = s.db.extractionJobs.nextId) ∨
      ∃ r actor loaded document checked, a = .api (.commit r actor) ∧
        s.requests r = some (.retry k loaded document checked) := by
  cases a with
  | worker w act =>
    left
    cases workerMove_of_step h with
    | look | lock => exact hk
    | claim j =>
      rw [Database.statusOf, QueueState.claimed, setWorker_db, Table.get_update] at hk
      split at hk
      · -- the claimed job runs
        obtain ⟨row, -, hrow⟩ := Option.map_eq_some_iff.mp (Option.map_map .. ▸ hk)
        cases hrow
      · exact hk
    | process j pc act stored db' pc' hw hfree hget hmove =>
      rw [setWorker_db, Database.statusOf] at hk
      by_cases hne : k = j
      · subst hne
        obtain ⟨row, hrow, hstatus⟩ := hmove.jobs_self hget
        rw [hrow, Option.map_some, Option.some.injEq] at hk
        rw [Database.statusOf, hget, Option.map_some]
        -- a run leaves its job as it was, completed or failed
        rcases hstatus with hstatus | hstatus | hstatus
        · rw [← hstatus, hk]
        · rw [hk] at hstatus
          cases hstatus
        · rw [hk] at hstatus
          cases hstatus
      · rwa [hmove.jobs_ne hne] at hk
  | api act =>
    cases apiMove_of_step h with
    | create tenant actor document version override createdAt hfree =>
      by_cases hne : k = s.db.extractionJobs.nextId
      · exact Or.inr (Or.inl ⟨tenant, actor, document, version, override, createdAt, rfl, hne⟩)
      · left
        simpa only [Database.statusOf, Database.createJob, Database.setDocumentStatus,
          Database.recordJobAudit, Table.get_insert_ne _ _ hne] using hk
    | readRetry | readCancel | abandon => exact Or.inl hk
    | commit r actor q hfree hq =>
      rw [setRequest_db] at hk
      by_cases hne : k = q.job
      · subst hne
        rw [commitRequest_statusOf] at hk
        obtain ⟨status, -, hnew⟩ := Option.map_eq_some_iff.mp hk
        cases q with
        | retry job loaded document checked =>
          exact Or.inr (Or.inr ⟨r, actor, loaded, document, checked, rfl, hq⟩)
        | cancel job loaded document checked => cases hnew
      · left
        rwa [Database.statusOf, commitRequest_get _ _ _ hne] at hk

/-- What is ahead of `j` was, or comes in. -/
theorem mem_ahead_of_step {s t : QueueState} {a : QueueAct} {j c k : ℕ}
    (h : queueStep s a = some t) (hk : k ∈ t.db.ahead j c) :
    k ∈ s.db.ahead j c ∨ s.joinsAhead j c a = some k := by
  obtain ⟨hqueued, hcreated, hne⟩ := mem_ahead.mp hk
  rcases createdBy_of_step (j := j) h hcreated with hcreated | hjoins
  · rcases queued_of_step h hqueued with hqueued |
      ⟨_, _, _, _, _, createdAt, -, hnext⟩ | ⟨r, actor, loaded, document, checked, rfl, hq⟩
    · exact Or.inl (mem_ahead.mpr ⟨hqueued, hcreated, hne⟩)
    · -- the key of an insert was not created before
      obtain ⟨row, hrow, -⟩ := createdBy_iff.mp hcreated
      rw [hnext, Table.get_nextId] at hrow
      cases hrow
    · right
      simp [QueueState.joinsAhead, hq, hcreated, hne]
  · exact Or.inr hjoins

/-! ### Jobs ahead -/

theorem precedes_eq_some {s : QueueState} {a : QueueAct} {j c k : ℕ} :
    s.precedes j c a = some k ↔
      (∃ w, s.returns a = some (w, k)) ∧ s.db.createdBy c k = true ∧ k ≠ j := by
  unfold QueueState.precedes
  rw [Option.map_eq_some_iff]
  constructor
  · rintro ⟨⟨w, k'⟩, hret, rfl⟩
    obtain ⟨hret, hp⟩ := Option.filter_eq_some_iff.mp hret
    simp only [Bool.and_eq_true, bne_iff_ne, ne_eq] at hp
    exact ⟨⟨w, hret⟩, hp.1, hp.2⟩
  · rintro ⟨⟨w, hret⟩, hcreated, hne⟩
    exact ⟨(w, k), Option.filter_eq_some_iff.mpr ⟨hret, by simp [hcreated, hne]⟩, rfl⟩

/-- The job a claim returns was queued and runs from there. -/
theorem returned_queued {s t : QueueState} {a : QueueAct} {w k : ℕ} (hlock : LockInv s)
    (h : queueStep s a = some t) (hret : s.returns a = some (w, k)) :
    s.db.statusOf k = some .queued ∧ t.db.statusOf k = some .running := by
  have hqueued := (hlock w k (returns_eq_some.mp hret).2).2
  refine ⟨hqueued, ?_⟩
  obtain ⟨row, hrow, -⟩ := Option.map_eq_some_iff.mp hqueued
  rw [Database.statusOf, get_returned h hret, hrow]
  rfl

/-- **A claim of a job ahead takes it from the jobs ahead**, and no other statement
puts one there than those that come in. -/
theorem ahead_step {s t : QueueState} {a : QueueAct} {j c : ℕ} (hlock : LockInv s)
    (h : queueStep s a = some t) :
    (s.precedes j c a).toList.length + (t.db.ahead j c).length ≤
      (s.joinsAhead j c a).toList.length + (s.db.ahead j c).length := by
  -- what was claimed is not ahead any more
  have hclaimed : ∀ k ∈ (s.precedes j c a).toList, k ∉ t.db.ahead j c := by
    intro k hk hahead
    obtain ⟨⟨w, hret⟩, -, -⟩ := precedes_eq_some.mp (Option.mem_toList.mp hk)
    have hqueued := (mem_ahead.mp hahead).1
    rw [(returned_queued hlock h hret).2] at hqueued
    cases hqueued
  have hnodup : ((s.precedes j c a).toList ++ t.db.ahead j c).Nodup := by
    apply List.Nodup.append
    · cases s.precedes j c a <;> simp
    · exact nodup_ahead _ _ _
    · exact fun k hk => hclaimed k hk
  have hsub : (s.precedes j c a).toList ++ t.db.ahead j c ⊆
      (s.joinsAhead j c a).toList ++ s.db.ahead j c := by
    intro k hk
    rw [List.mem_append, Option.mem_toList]
    rcases List.mem_append.mp hk with hk | hk
    · obtain ⟨⟨w, hret⟩, hcreated, hne⟩ := precedes_eq_some.mp (Option.mem_toList.mp hk)
      exact Or.inr (mem_ahead.mpr ⟨(returned_queued hlock h hret).1, hcreated, hne⟩)
    · exact (mem_ahead_of_step h hk).symm
  have hlength := hnodup.length_le_of_subset hsub
  simpa only [List.length_append] using hlength

/-- The jobs ahead over a run. -/
theorem ahead_of_run {ok : QueueState → QueueAct → Prop} {s t : QueueState} {as : List QueueAct}
    (hrun : Run queueStep ok s as t) (hlock : LockInv s) (j c : ℕ) :
    (preceders j c s as).length + (t.db.ahead j c).length ≤
      (joins j c s as).length + (s.db.ahead j c).length := by
  unfold preceders joins
  induction hrun with
  | nil s => simp [outputs]
  | cons hstep _ _ ih =>
    have hrest := ih (lockInv_step hlock hstep)
    have hfirst := ahead_step (j := j) (c := c) hlock hstep
    rw [outputs_cons hstep, outputs_cons hstep, List.length_append, List.length_append]
    omega

/-! ### Jobs behind -/

/-- A worker has read the job `k` and not yet claimed it, and `k` was created after `c`. -/
def QueueState.ReadLater (s : QueueState) (c w : ℕ) : Prop :=
  ∃ k, (s.workers w).candidate = some k ∧ s.db.createdBy c k = false

theorem overtakes_eq_some {s : QueueState} {a : QueueAct} {c w : ℕ} :
    s.overtakes c a = some w ↔ ∃ k, s.returns a = some (w, k) ∧ s.db.createdBy c k = false := by
  unfold QueueState.overtakes
  rw [Option.map_eq_some_iff]
  constructor
  · rintro ⟨⟨w', k⟩, hret, rfl⟩
    obtain ⟨hret, hp⟩ := Option.filter_eq_some_iff.mp hret
    exact ⟨k, hret, by simpa using hp⟩
  · rintro ⟨k, hret, hlater⟩
    exact ⟨(w, k), Option.filter_eq_some_iff.mpr ⟨hret, by simp [hlater]⟩, rfl⟩

/-- What the queue gives first was created no later than a job that waits in it. -/
theorem createdBy_of_isOldestQueued {db : Database} {j c k : ℕ} (hj : db.Waiting j c)
    (hk : db.isOldestQueued k = true) : db.createdBy c k = true := by
  obtain ⟨row, hrow, hqueued, rfl⟩ := hj
  obtain ⟨row', hrow', -, hleast⟩ := oldestQueued_of_isOldestQueued hk
  exact createdBy_iff.mpr ⟨row', hrow', hleast j row hrow hqueued⟩

/-- **While `j` waits no worker reads a job created later**: a candidate of that
kind was the worker's before the step. -/
theorem readLater_of_step {s t : QueueState} {a : QueueAct} {j c w : ℕ}
    (h : queueStep s a = some t) (hj : s.db.Waiting j c) (hw : t.ReadLater c w) :
    s.ReadLater c w := by
  obtain ⟨k, hcand, hlater⟩ := hw
  -- the job was not created by then before the step either
  have hbefore : s.db.createdBy c k = false := by
    rw [Bool.eq_false_iff]
    intro hcreated
    rw [createdBy_step h hcreated] at hlater
    cases hlater
  refine ⟨k, ?_, hbefore⟩
  by_cases hmine : ∃ act, a = .worker w act
  · obtain ⟨act, rfl⟩ := hmine
    simp only [queueStep, workerStep] at h
    split at h
    case h_1 | h_2 =>
      obtain rfl := Option.some.inj h
      simp [Phase.candidate] at hcand
    case h_3 =>
      split at h
      · obtain rfl := Option.some.inj h
        simp [Phase.candidate] at hcand
      · cases h
    case h_4 tries k' _ =>
      split at h
      · next holdest =>
        -- the `SELECT` returns a job created no later
        obtain rfl := Option.some.inj h
        simp only [setWorker_self, Phase.candidate, Option.some.injEq] at hcand
        rw [← hcand, createdBy_of_isOldestQueued hj holdest] at hbefore
        cases hbefore
      · cases h
    case h_5 tries k' hsel =>
      split at h
      · cases h
      · split at h
        · obtain rfl := Option.some.inj h
          rw [hsel]
          simpa [Phase.candidate] using hcand
        · obtain rfl := Option.some.inj h
          simp [Phase.candidate] at hcand
    case h_6 =>
      obtain rfl := Option.some.inj h
      simp [Phase.candidate] at hcand
    case h_7 k' pc _ =>
      split at h
      · cases h
      · obtain ⟨⟨db', pc'⟩, -, rfl⟩ := Option.map_eq_some_iff.mp h
        cases pc' <;> simp [Phase.candidate] at hcand
    case h_8 => cases h
  · rwa [workers_ne h fun act hact => hmine ⟨act, hact⟩] at hcand

/-- A worker that returns has no candidate any more. -/
theorem not_readLater_of_returns {s t : QueueState} {a : QueueAct} {c w k : ℕ}
    (h : queueStep s a = some t) (hret : s.returns a = some (w, k)) : ¬ t.ReadLater c w := by
  obtain ⟨rfl, hw⟩ := returns_eq_some.mp hret
  simp only [queueStep, workerStep, hw, Option.some.injEq] at h
  subst h
  rintro ⟨k', hcand, -⟩
  simp [Phase.candidate] at hcand

/-- **A job is overtaken only by the workers that had read a later one, and by each
of them once.** -/
theorem overtakers_of_run {s t : QueueState} {as : List QueueAct} {j c : ℕ}
    (hrun : Run queueStep (fun u _ => u.db.Waiting j c) s as t) :
    (overtakers c s as).Nodup ∧ ∀ w ∈ overtakers c s as, s.ReadLater c w := by
  refine hrun.outputs_invariant
    (R := fun s bs _ => bs.Nodup ∧ ∀ w ∈ bs, s.ReadLater c w) (by simp) ?_
  rintro s a t bs u hj hstep ⟨hnodup, hread⟩
  have hback : ∀ w ∈ bs, s.ReadLater c w := fun w hw => readLater_of_step hstep hj (hread w hw)
  cases hout : s.overtakes c a with
  | none => exact ⟨hnodup, hback⟩
  | some w =>
    obtain ⟨k, hret, hlater⟩ := overtakes_eq_some.mp hout
    constructor
    · -- the worker that claims has no candidate left to claim
      refine List.nodup_cons.mpr ⟨fun hw => ?_, hnodup⟩
      exact not_readLater_of_returns hstep hret (hread w hw)
    · intro w' hw'
      rcases List.mem_cons.mp hw' with rfl | hw'
      · refine ⟨k, ?_, hlater⟩
        rw [(returns_eq_some.mp hret).2]
        rfl
      · exact hback w' hw'

/-! ### Every run -/

/-- A claim is of `j`, of a job ahead or of one created later. -/
theorem claims_split {ok : QueueState → QueueAct → Prop} {s t : QueueState} {as : List QueueAct}
    (hrun : Run queueStep ok s as t) (j c : ℕ) :
    ((returned s as).filter fun call => call.2 != j).length ≤
      (overtakers c s as).length + (preceders j c s as).length := by
  unfold returned overtakers preceders
  induction hrun with
  | nil s => simp [outputs]
  | @cons s u t a as hstep _ _ ih =>
    rw [outputs_cons hstep, outputs_cons hstep, outputs_cons hstep, List.filter_append,
      List.length_append, List.length_append, List.length_append]
    have hfirst : ((s.returns a).toList.filter fun call => call.2 != j).length ≤
        (s.overtakes c a).toList.length + (s.precedes j c a).toList.length := by
      unfold QueueState.overtakes QueueState.precedes
      cases s.returns a with
      | none => simp
      | some call =>
        cases hcreated : s.db.createdBy c call.2 <;> cases hj : call.2 != j <;>
          simp [Option.filter, hcreated, hj]
    omega

/-- **A waiting job waits for boundedly many claims.**  In every reachable state, and
in every interleaving of workers and requests that follows while the job `j` stays
queued: a job created later is claimed only by a worker that had read it before the run
began, and by each such worker at most once; and the claims of other jobs in the run,
with the jobs still ahead of `j` at its end, are no more than those workers, the jobs
ahead of `j` at its start and the jobs that come in ahead by a retry or an earlier time. -/
theorem waiting_is_bounded {s₀ s t : QueueState} {before as : List QueueAct} {j c : ℕ}
    (hidle : s₀.Idle) (hbefore : Run queueStep (fun _ _ => True) s₀ before s)
    (hrun : Run queueStep (fun u _ => u.db.Waiting j c) s as t) :
    (overtakers c s as).Nodup ∧
    (∀ w ∈ overtakers c s as, ∃ k, (s.workers w).candidate = some k ∧
      s.db.createdBy c k = false) ∧
    ((returned s as).filter fun call => call.2 != j).length + (t.db.ahead j c).length ≤
      (overtakers c s as).length + (joins j c s as).length + (s.db.ahead j c).length := by
  have hlock : LockInv s :=
    hbefore.invariant (fun _ _ _ hu _ hstep => lockInv_step hu hstep) (lockInv_of_idle hidle)
  obtain ⟨hnodup, hread⟩ := overtakers_of_run hrun
  have hahead := ahead_of_run hrun hlock j c
  have hsplit := claims_split hrun j c
  exact ⟨hnodup, hread, by omega⟩

/-- Worker 0 claims the job it has read, then worker 1 reads the job 2 and claims it. -/
def overtakenRun : List QueueAct :=
  [.worker 0 .next, .worker 0 .next, .worker 1 .next, .worker 1 (.select (some 2)),
    .worker 1 .next, .worker 1 .next]

/-- The job 2 comes in with an earlier time than the job 1 that worker 0 has read:
worker 0 overtakes it, and nobody else does. -/
theorem waiting_is_bounded_overtaken :
    ∃ s t, exec queueStep { db := oneJobDb { queuedJob with createdAt := 5 } }
        [.worker 0 .next, .worker 0 (.select (some 1)),
          .api (.createJob "default" "alice" 1 1 none 3)] = some s ∧
      exec queueStep s overtakenRun = some t ∧ overtakers 3 s overtakenRun = [0] ∧
      ((returned s overtakenRun).filter fun call => call.2 != 2).length ≤ 1 := by
  have hidle : QueueState.Idle { db := oneJobDb { queuedJob with createdAt := 5 } } :=
    ⟨rfl, fun _ => rfl, fun _ => rfl⟩
  have hruns : ∃ s, Run queueStep (fun _ _ => True)
      { db := oneJobDb { queuedJob with createdAt := 5 } }
      [.worker 0 .next, .worker 0 (.select (some 1)),
        .api (.createJob "default" "alice" 1 1 none 3)] s ∧
      ∃ t, Run queueStep (fun u _ => u.db.Waiting 2 3) s overtakenRun t ∧
        overtakers 3 s overtakenRun = [0] ∧ joins 2 3 s overtakenRun = [] ∧
        s.db.ahead 2 3 = [] :=
    ⟨_, .cons rfl trivial (.cons rfl trivial (.cons rfl trivial (.nil _))),
      _, .cons rfl ⟨_, rfl, rfl, rfl⟩ (.cons rfl ⟨_, rfl, rfl, rfl⟩ (.cons rfl ⟨_, rfl, rfl, rfl⟩
        (.cons rfl ⟨_, rfl, rfl, rfl⟩ (.cons rfl ⟨_, rfl, rfl, rfl⟩
          (.cons rfl ⟨_, rfl, rfl, rfl⟩ (.nil _)))))), rfl, rfl, rfl⟩
  obtain ⟨s, hbefore, t, hrun, hover, hjoins, hahead⟩ := hruns
  refine ⟨s, t, hbefore.exec_eq, hrun.exec_eq, hover, ?_⟩
  have hbound := (waiting_is_bounded hidle hbefore hrun).2.2
  rw [hover, hjoins, hahead] at hbound
  simp only [List.length_cons, List.length_nil] at hbound
  omega

end ExtractFlow
