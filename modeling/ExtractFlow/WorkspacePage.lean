import ExtractFlow.Entities
import ExtractFlow.Lib.Transition
import ExtractFlow.WorkspaceUrl

/-!
# The selected job of the workspace

The page selects a job, filters the jobs by status and shows both in its address
(`frontend/src/App.tsx`).  Two effects of the page start it off: the first reads the
address, the second picks the job that needs attention most.  Both wait for the jobs to
be loaded and for `workspaceSeeded` to be false.

An effect sees the values of the render it belongs to, and what it sets is seen by the
next render only.  So when the jobs arrive both effects run, each with `workspaceSeeded`
false, and the second selects its job over the one that the first took from the address.

The renders and the effects are steps of their own here, and any handler may run in
between.  An effect runs after a render that changed one of the values it depends on; it
may run after any other as well, since a list that was loaded again is another list.

The page selects a document, a template and a version along with a job, and sets the drafts
of its review form.  No effect of this module reads them, so they are not part of the state;
what is said of the selection here is said of the selected job, the filter and the address.

## Main definitions

* `Workspace`, `Page` — the state of the component, and the page around it.
* `urlEffect`, `prioritizeEffect` — the two effects.
* `PageAct`, `pageStep` — renders, effects and handlers.

## Main results

* `freshInv_step` — the jobs of an unseeded render were not there before.
* `sameWorkspace_step` — the job and the result of an address change nothing.
* `link_never_decides` — the address a page is loaded with does not decide which job it
  selects, nor which one it selects when the jobs arrive.
* `filterInv_step`, `filter_in_address` — the filter is the one in the address.
-/

namespace ExtractFlow

open Js Transition

/-! ### The component -/

/-- `JobRecord`, as far as the selection goes: the key of the job and its status. -/
structure WorkspaceJob (ν : Type) where
  id : ν
  status : JobStatus
  deriving DecidableEq

/-- `ResultEnvelope`, as far as the selection goes: its key and the fields that need review. -/
structure WorkspaceResult (ν : Type) where
  resultId : ν
  fieldsRequiringReview : List String
  deriving DecidableEq

/-- The state of the component that the selection reads, as one render sees it. -/
structure Workspace (ν : Type) where
  jobs : List (WorkspaceJob ν) := []
  resultsByJob : List (ν × WorkspaceResult ν) := []
  selectedJobId : Option ν := none
  jobStatusFilter : Option String
  workspaceSeeded : Bool := false
  deriving DecidableEq

/-- The page: the last two renders, what was set since, and the address. -/
structure Page (ν : Type) where
  /-- The render before the last. -/
  before : Option (Workspace ν)
  rendered : Workspace ν
  /-- What the next render will see. -/
  queued : Workspace ν
  /-- `window.location.search`. -/
  search : String
  /-- The effects of the last render have not run. -/
  due : Bool

section Component

variable {ν : Type} [DecidableEq ν] (num : JsNumbers ν)

/-- `resultsByJob[jobId]`. -/
def Workspace.resultOf (w : Workspace ν) (jobId : ν) : Option (WorkspaceResult ν) :=
  (w.resultsByJob.find? fun entry => entry.1 == jobId).map Prod.snd

/-- `selectedResultForExport`; a job with the number nought counts as none. -/
def Workspace.selectedResultForExport (w : Workspace ν) : Option (WorkspaceResult ν) :=
  (w.selectedJobId.filter fun id => id != num.zero).bind w.resultOf

/-- The page when it is loaded. -/
def Page.load (search : String) : Page ν :=
  let w : Workspace ν := { jobStatusFilter := (parseWorkspaceSearch num search).status }
  { before := none, rendered := w, queued := w, search := search, due := true }

/-- `replaceWorkspaceUrl`. -/
def Page.replaceUrl (p : Page ν) (state : WorkspaceUrlState ν) : Page ν :=
  { p with search := locationSearch (buildWorkspaceSearch num state) }

/-- `setJobStatusFilter`. -/
def Page.setFilter (p : Page ν) (status : Option String) : Page ν :=
  { p with queued := { p.queued with jobStatusFilter := status } }

/-- `setSelectedJobId`. -/
def Page.setSelected (p : Page ν) (jobId : Option ν) : Page ν :=
  { p with queued := { p.queued with selectedJobId := jobId } }

/-- `setWorkspaceSeeded(true)`. -/
def Page.setSeeded (p : Page ν) : Page ν :=
  { p with queued := { p.queued with workspaceSeeded := true } }

/-- `syncJobSelection`, with the values of the last render: the selected job and the address.
What else it selects and resets is not part of the state. -/
def Page.syncJobSelection (p : Page ν) (jobId : ν) : Page ν :=
  (p.setSelected (some jobId)).replaceUrl num
    { jobId := some jobId
      resultId := (p.rendered.resultOf jobId).map WorkspaceResult.resultId
      status := p.rendered.jobStatusFilter }

theorem syncJobSelection_search (p : Page ν) (jobId : ν) :
    (p.syncJobSelection num jobId).search = locationSearch (buildWorkspaceSearch num
      { jobId := some jobId
        resultId := (p.rendered.resultOf jobId).map WorkspaceResult.resultId
        status := p.rendered.jobStatusFilter }) := rfl

/-! ### The effects -/

/-- The job an address names: by its own number, or by that of its result. -/
def Workspace.targetJobId (w : Workspace ν) (url : WorkspaceUrlState ν) : Option ν :=
  url.jobId.or <| (url.resultId.filter fun id => id != num.zero).bind fun resultId =>
    (w.jobs.find? fun job =>
      (w.resultOf job.id).any fun result => result.resultId == resultId).map WorkspaceJob.id

/-- The first effect takes the status from the address. -/
def Page.readStatus (p : Page ν) (url : WorkspaceUrlState ν) : Page ν :=
  if url.status ≠ p.rendered.jobStatusFilter then p.setFilter url.status else p

/-- The first effect selects the job of the address. -/
def Page.openTarget (p : Page ν) (url : WorkspaceUrlState ν) : Page ν :=
  if p.rendered.jobs = [] ∨ p.rendered.workspaceSeeded = true then p
  else
    match (p.rendered.targetJobId num url).filter (fun id => id != num.zero) with
    | some target =>
        if some target ≠ p.rendered.selectedJobId then (p.syncJobSelection num target).setSeeded
        else p
    | none => p

/-- The effect that reads the address: the filter first, and then the job or the result it names. -/
def urlEffect (p : Page ν) : Page ν :=
  let url := parseWorkspaceSearch num p.search
  (p.readStatus url).openTarget num url

/-- A job with fields to review, else one that waits or runs, else the first. -/
def Workspace.prioritizedJob (w : Workspace ν) : Option (WorkspaceJob ν) :=
  (w.jobs.find? fun job =>
      (w.resultOf job.id).any fun result => 0 < result.fieldsRequiringReview.length).or
    ((w.jobs.find? fun job => job.status == .queued || job.status == .running).or w.jobs.head?)

/-- The effect that picks the job which needs attention most, unless the page is seeded or has no
jobs. -/
def prioritizeEffect (p : Page ν) : Page ν :=
  if p.rendered.workspaceSeeded = true ∨ p.rendered.jobs = [] then p
  else
    (match p.rendered.prioritizedJob with
      | some job => p.syncJobSelection num job.id
      | none => p).setSeeded

/-- A value the second effect depends on changed; `syncJobSelection` changes with the
filter. -/
def Page.prioritizeDue (p : Page ν) : Bool :=
  p.before.all fun w => decide (¬ (w.jobs = p.rendered.jobs ∧
    w.resultsByJob = p.rendered.resultsByJob ∧ w.jobStatusFilter = p.rendered.jobStatusFilter ∧
    w.workspaceSeeded = p.rendered.workspaceSeeded))

/-- A value the first effect depends on changed: one of those of the second, or the
selected job. -/
def Page.urlDue (p : Page ν) : Bool :=
  p.before.all fun w => decide (w ≠ p.rendered)

/-- The first effect runs: always with the second. -/
def Page.reads (p : Page ν) (urlAgain prioritizeAgain : Bool) : Bool :=
  urlAgain || (prioritizeAgain || p.prioritizeDue) || p.urlDue

/-! ### Steps -/

/-- What happens to the page: React renders it and runs its effects, and handlers set what
they set. -/
inductive PageAct (ν : Type) where
  | render
  /-- The effects of a render; they may run for a list that was loaded again. -/
  | effects (urlAgain prioritizeAgain : Bool)
  | setJobs (jobs : List (WorkspaceJob ν))
  | setResults (resultsByJob : List (ν × WorkspaceResult ν))
  /-- An upload, a new job, a retry, or a reload without the selected job. -/
  | setSelected (jobId : Option ν)
  | selectJob (jobId : ν)
  | startNewExtraction
  | changeFilter (status : Option String)

/-- One step of the page. A handler sets what the next render will see, and writes the address at
once. -/
def pageStep (p : Page ν) : PageAct ν → Option (Page ν)
  | .render =>
      -- the effects of a render run before the next one
      if p.due then none
      else some { p with before := some p.rendered, rendered := p.queued, due := true }
  | .effects urlAgain prioritizeAgain =>
      if p.due then
        let done := { p with due := false }
        let read := if p.reads urlAgain prioritizeAgain then urlEffect num done else done
        some (if prioritizeAgain || p.prioritizeDue then prioritizeEffect num read else read)
      else none
  | .setJobs jobs => some { p with queued := { p.queued with jobs := jobs } }
  | .setResults results => some { p with queued := { p.queued with resultsByJob := results } }
  | .setSelected jobId => some (p.setSelected jobId)
  | .selectJob jobId => some (p.setSeeded.syncJobSelection num jobId)
  | .startNewExtraction => some (p.setSeeded.setSelected none)
  | .changeFilter status =>
      some ((p.setFilter status).replaceUrl num
        { jobId := p.rendered.selectedJobId
          resultId := (p.rendered.selectedResultForExport num).map WorkspaceResult.resultId
          status := status })

end Component

/-! ### What the effects do -/

section Effects

variable {ν : Type} [DecidableEq ν] {num : JsNumbers ν} {p : Page ν}

/-- The status in the address of a page. -/
def Page.urlStatus (num : JsNumbers ν) (p : Page ν) : Option String :=
  (parseWorkspaceSearch num p.search).status

/-- The filter after the first effect. -/
def Page.readFilter (num : JsNumbers ν) (p : Page ν) : Option String :=
  if p.urlStatus num ≠ p.rendered.jobStatusFilter then p.urlStatus num
  else p.queued.jobStatusFilter

omit [DecidableEq ν] in
theorem readStatus_eq :
    p.readStatus (parseWorkspaceSearch num p.search) = p.setFilter (p.readFilter num) := by
  unfold Page.readStatus Page.readFilter Page.urlStatus
  split <;> rfl

/-- A page that is seeded or has no jobs stays where it is. -/
theorem openTarget_quiet (h : p.rendered.jobs = [] ∨ p.rendered.workspaceSeeded = true)
    (url : WorkspaceUrlState ν) : p.openTarget num url = p :=
  if_pos h

theorem prioritizeEffect_quiet (h : p.rendered.jobs = [] ∨ p.rendered.workspaceSeeded = true) :
    prioritizeEffect num p = p :=
  if_pos h.symm

/-- The first effect selects a job or none. -/
theorem openTarget_cases (num : JsNumbers ν) (url : WorkspaceUrlState ν) :
    p.openTarget num url = p ∨
    ∃ target, p.openTarget num url = (p.syncJobSelection num target).setSeeded := by
  unfold Page.openTarget
  split
  · exact Or.inl rfl
  · split
    · next target _ =>
      split
      · exact Or.inr ⟨target, rfl⟩
      · exact Or.inl rfl
    · exact Or.inl rfl

/-- A list with jobs has one to pick. -/
theorem exists_prioritizedJob {w : Workspace ν} (h : w.jobs ≠ []) :
    ∃ job, w.prioritizedJob = some job := by
  rw [← Option.isSome_iff_exists]
  obtain ⟨job, jobs, hjobs⟩ := List.exists_cons_of_ne_nil h
  simp [Workspace.prioritizedJob, hjobs]

theorem jobs_ne_nil_of_prioritizedJob {w : Workspace ν} {job : WorkspaceJob ν}
    (h : w.prioritizedJob = some job) : w.jobs ≠ [] := by
  intro hnil
  simp [Workspace.prioritizedJob, hnil] at h

/-- The second effect selects the job it picks. -/
theorem prioritizeEffect_unseeded {job : WorkspaceJob ν}
    (hseeded : p.rendered.workspaceSeeded = false)
    (hjob : p.rendered.prioritizedJob = some job) :
    prioritizeEffect num p = (p.syncJobSelection num job.id).setSeeded := by
  have hjobs := jobs_ne_nil_of_prioritizedJob hjob
  unfold prioritizeEffect
  rw [if_neg (by simp [hseeded, hjobs]), hjob]

/-- **The jobs arrive**: after both effects the job that is picked is selected, and of
the address only the status was read. -/
theorem effects_unseeded {job : WorkspaceJob ν} (hseeded : p.rendered.workspaceSeeded = false)
    (hjob : p.rendered.prioritizedJob = some job) :
    prioritizeEffect num (urlEffect num p) =
      ((p.setFilter (p.readFilter num)).syncJobSelection num job.id).setSeeded := by
  unfold urlEffect
  simp only
  rw [readStatus_eq]
  generalize hq : p.setFilter (p.readFilter num) = q
  have hrendered : q.rendered = p.rendered := by rw [← hq]; rfl
  rw [← hrendered] at hseeded hjob
  rcases openTarget_cases (p := q) num (parseWorkspaceSearch num p.search) with h | ⟨target, h⟩
  · rw [h]
    exact prioritizeEffect_unseeded hseeded hjob
  · -- the selection of the first effect is set again
    rw [h]
    exact prioritizeEffect_unseeded (p := (q.syncJobSelection num target).setSeeded) hseeded hjob

/-- Elsewhere the effects read the filter only. -/
theorem effects_quiet (num : JsNumbers ν)
    (h : p.rendered.jobs = [] ∨ p.rendered.workspaceSeeded = true) :
    urlEffect num p = p.setFilter (p.readFilter num) ∧ prioritizeEffect num p = p := by
  refine ⟨?_, prioritizeEffect_quiet h⟩
  unfold urlEffect
  simp only
  rw [readStatus_eq]
  exact openTarget_quiet (p := p.setFilter (p.readFilter num)) h _

end Effects

/-! ### A render that is not seeded -/

section Fresh

variable {ν : Type} [DecidableEq ν] {num : JsNumbers ν} {p q : Page ν}

/-- A page is seeded by the effects of its first render with jobs. -/
structure FreshInv (p : Page ν) : Prop where
  seeded : p.rendered.workspaceSeeded = true → p.queued.workspaceSeeded = true
  done : p.due = false → p.rendered.jobs ≠ [] → p.queued.workspaceSeeded = true
  fresh : p.due = true → ∀ w, p.before = some w → p.rendered.jobs ≠ [] →
    p.rendered.workspaceSeeded = false → w.jobs = []

/-- The jobs of a render that is not seeded are a change for both effects. -/
theorem FreshInv.prioritizeDue (h : FreshInv p) (hdue : p.due = true) (hjobs : p.rendered.jobs ≠ [])
    (hseeded : p.rendered.workspaceSeeded = false) : p.prioritizeDue = true := by
  unfold Page.prioritizeDue
  rw [Option.all_eq_true]
  intro w hw
  have hnil := h.fresh hdue w hw hjobs hseeded
  rw [decide_eq_true_eq]
  rintro ⟨hsame, -⟩
  rw [hnil] at hsame
  exact hjobs hsame.symm

/-- **What the effects of a reachable page do**: on a render with jobs that is not
seeded both run, elsewhere at most the filter is read. -/
theorem FreshInv.effects (h : FreshInv p) {urlAgain prioritizeAgain : Bool}
    (hstep : pageStep num p (.effects urlAgain prioritizeAgain) = some q) :
    p.due = true ∧
    ((∃ job, p.rendered.prioritizedJob = some job ∧ p.rendered.workspaceSeeded = false ∧
        q = (((({ p with due := false } : Page ν).setFilter
          (p.readFilter num)).syncJobSelection num job.id)).setSeeded) ∨
      ((p.rendered.jobs = [] ∨ p.rendered.workspaceSeeded = true) ∧
        q = if p.reads urlAgain prioritizeAgain then
          ({ p with due := false } : Page ν).setFilter (p.readFilter num)
          else { p with due := false })) := by
  simp only [pageStep] at hstep
  split at hstep
  · next hdue =>
    refine ⟨hdue, ?_⟩
    obtain rfl := Option.some.inj hstep
    by_cases hquiet : p.rendered.jobs = [] ∨ p.rendered.workspaceSeeded = true
    · refine Or.inr ⟨hquiet, ?_⟩
      rw [(effects_quiet (p := { p with due := false }) num hquiet).1]
      -- the second effect does nothing, if it runs at all
      split
      · split
        · exact prioritizeEffect_quiet (p := Page.setFilter _ _) hquiet
        · exact prioritizeEffect_quiet (p := { p with due := false }) hquiet
      · rfl
    · left
      have hjobs : p.rendered.jobs ≠ [] := fun hnil => hquiet (Or.inl hnil)
      have hseeded : p.rendered.workspaceSeeded = false := by
        rw [← Bool.not_eq_true]
        exact fun hs => hquiet (Or.inr hs)
      obtain ⟨job, hjob⟩ := exists_prioritizedJob hjobs
      have hprioritizes := h.prioritizeDue hdue hjobs hseeded
      refine ⟨job, hjob, hseeded, ?_⟩
      rw [if_pos (by simp [hprioritizes]), if_pos (by simp [Page.reads, hprioritizes])]
      exact effects_unseeded (p := { p with due := false }) hseeded hjob
  · cases hstep

/-- **The jobs of a render that is not seeded were not there before.** -/
theorem freshInv_step {a : PageAct ν} (h : FreshInv p) (hstep : pageStep num p a = some q) :
    FreshInv q := by
  cases a with
  | render =>
    simp only [pageStep] at hstep
    split at hstep
    · cases hstep
    · next hdue =>
      obtain rfl := Option.some.inj hstep
      refine ⟨fun hs => hs, fun hdone => (by cases hdone), ?_⟩
      rintro - w hw hjobs hseeded
      obtain rfl := Option.some.inj hw
      by_contra hne
      have hqueued := h.done (by simpa using hdue) hne
      rw [hqueued] at hseeded
      cases hseeded
  | effects urlAgain prioritizeAgain =>
    -- Either the effect picks a job and the page is seeded, or there is nothing to pick from.
    obtain ⟨-, ⟨job, hjob, hseeded, rfl⟩ | ⟨hquiet, rfl⟩⟩ := h.effects hstep
    · exact ⟨fun _ => rfl, fun _ _ => rfl, fun hdue => by cases hdue⟩
    · split
      · refine ⟨h.seeded, fun _ hjobs => ?_, fun hdue => by cases hdue⟩
        exact h.seeded (hquiet.resolve_left hjobs)
      · refine ⟨h.seeded, fun _ hjobs => ?_, fun hdue => by cases hdue⟩
        exact h.seeded (hquiet.resolve_left hjobs)
  | setJobs | setResults | setSelected =>
    obtain rfl := Option.some.inj hstep
    exact ⟨h.seeded, h.done, h.fresh⟩
  | selectJob | startNewExtraction =>
    obtain rfl := Option.some.inj hstep
    exact ⟨fun _ => rfl, fun _ _ => rfl, h.fresh⟩
  | changeFilter =>
    obtain rfl := Option.some.inj hstep
    exact ⟨h.seeded, h.done, h.fresh⟩

omit [DecidableEq ν] in
theorem freshInv_load (num : JsNumbers ν) (search : String) : FreshInv (Page.load num search) :=
  ⟨fun h => h, fun _ hjobs => absurd rfl hjobs, fun _ _ hbefore => by cases hbefore⟩

theorem freshInv_of_run {search : String} {as : List (PageAct ν)}
    (hrun : Run (pageStep num) (fun _ _ => True) (Page.load num search) as p) : FreshInv p :=
  hrun.invariant (fun _ _ _ h _ hstep => freshInv_step h hstep) (freshInv_load num search)

end Fresh

/-! ### Two addresses -/

section Links

variable {ν : Type} [DecidableEq ν] {num : JsNumbers ν} {p p' q : Page ν}

/-- Two pages that differ in their address only, which has the same status in both and is
the one the page was loaded with in both, or the same. -/
structure SameWorkspace (num : JsNumbers ν) (search search' : String) (p p' : Page ν) : Prop where
  eq : p' = { p with search := p'.search }
  status : p'.urlStatus num = p.urlStatus num
  address : p'.search = p.search ∨ (p.search = search ∧ p'.search = search')

omit [DecidableEq ν] in
/-- An address that both pages wrote is the same. -/
theorem sameWorkspace_written {search search' : String} (p : Page ν) :
    SameWorkspace num search search' p p :=
  ⟨rfl, rfl, Or.inl rfl⟩

/-- **The job and the result of an address change nothing**: the pages take the same
steps. -/
theorem sameWorkspace_step {search search' : String} {a : PageAct ν} (hfresh : FreshInv p)
    (h : SameWorkspace num search search' p p') (hstep : pageStep num p a = some q) :
    ∃ q', pageStep num p' a = some q' ∧ SameWorkspace num search search' q q' := by
  obtain ⟨heq, hstatus, haddress⟩ := h
  generalize p'.search = s' at heq hstatus haddress
  subst heq
  have hfilter : Page.readFilter num { p with search := s' } = p.readFilter num := by
    unfold Page.readFilter
    rw [hstatus]
  cases a with
  | render =>
    simp only [pageStep] at hstep ⊢
    split at hstep
    · cases hstep
    · next hdue =>
      obtain rfl := Option.some.inj hstep
      exact ⟨_, if_neg hdue, rfl, hstatus, haddress⟩
  | effects urlAgain prioritizeAgain =>
    have hfresh' : FreshInv { p with search := s' } := ⟨hfresh.seeded, hfresh.done, hfresh.fresh⟩
    obtain ⟨hdue, hdid⟩ := hfresh.effects hstep
    obtain ⟨q', hq'⟩ : ∃ q', pageStep num { p with search := s' }
        (.effects urlAgain prioritizeAgain) = some q' := by
      simp only [pageStep]
      rw [if_pos hdue]
      exact ⟨_, rfl⟩
    refine ⟨q', hq', ?_⟩
    obtain ⟨-, hdid'⟩ := hfresh'.effects hq'
    rw [hfilter] at hdid'
    rcases hdid with ⟨job, hjob, hseeded, rfl⟩ | ⟨hquiet, rfl⟩
    · -- both select the job that is picked, and write the same address
      rcases hdid' with ⟨job', hjob', -, rfl⟩ | ⟨hquiet, -⟩
      · obtain rfl := Option.some.inj (hjob.symm.trans hjob')
        exact sameWorkspace_written _
      · rcases hquiet with hnil | hseeded'
        · exact absurd hnil (jobs_ne_nil_of_prioritizedJob hjob)
        · have hboth : p.rendered.workspaceSeeded = true := hseeded'
          rw [hseeded] at hboth
          cases hboth
    · -- both read the filter, or none does
      rcases hdid' with ⟨job', hjob', hseeded', -⟩ | ⟨-, rfl⟩
      · rcases hquiet with hnil | hseeded
        · exact absurd hnil (jobs_ne_nil_of_prioritizedJob hjob')
        · have hboth : p.rendered.workspaceSeeded = false := hseeded'
          rw [hseeded] at hboth
          cases hboth
      · have hreads : Page.reads { p with search := s' } urlAgain prioritizeAgain =
            p.reads urlAgain prioritizeAgain := rfl
        rw [hreads]
        split
        · exact ⟨rfl, hstatus, haddress⟩
        · exact ⟨rfl, hstatus, haddress⟩
  | setJobs | setResults | setSelected | startNewExtraction =>
    obtain rfl := Option.some.inj hstep
    exact ⟨_, rfl, rfl, hstatus, haddress⟩
  | selectJob | changeFilter =>
    obtain rfl := Option.some.inj hstep
    exact ⟨_, rfl, sameWorkspace_written _⟩

theorem sameWorkspace_of_run {search search' : String} {as : List (PageAct ν)}
    (hrun : Run (pageStep num) (fun _ _ => True) p as q) (hfresh : FreshInv p)
    (h : SameWorkspace num search search' p p') :
    ∃ q', Run (pageStep num) (fun _ _ => True) p' as q' ∧
      SameWorkspace num search search' q q' := by
  induction hrun generalizing p' with
  | nil p => exact ⟨p', .nil p', h⟩
  | cons hstep _ _ ih =>
    obtain ⟨r', hstep', hsame⟩ := sameWorkspace_step hfresh h hstep
    obtain ⟨q', hrun', hq'⟩ := ih (freshInv_step hfresh hstep) hsame
    exact ⟨q', .cons hstep' trivial hrun', hq'⟩

omit [DecidableEq ν] in
theorem sameWorkspace_load {search search' : String}
    (h : (parseWorkspaceSearch num search').status = (parseWorkspaceSearch num search).status) :
    SameWorkspace num search search' (Page.load num search) (Page.load num search') := by
  refine ⟨?_, h, Or.inr ⟨rfl, rfl⟩⟩
  unfold Page.load
  rw [h]

/-- **The job and the result in the address of a page never decide which job it selects.**
Take any run of a page, and load it with another address of the same status: the page takes
the same steps to the same jobs, selected job, filter and seeding, and the addresses are the
same once the page wrote its own.  And in every run, when the jobs arrive on a page that is
not seeded, the selected job is the one picked for attention, and it is the one in the
address. -/
theorem link_never_decides {search search' : String} {as : List (PageAct ν)}
    (hstatus : (parseWorkspaceSearch num search').status = (parseWorkspaceSearch num search).status)
    (hrun : Run (pageStep num) (fun _ _ => True) (Page.load num search) as p) :
    (∃ p', Run (pageStep num) (fun _ _ => True) (Page.load num search') as p' ∧
      p'.rendered = p.rendered ∧ p'.queued = p.queued ∧
      (p'.search = p.search ∨ (p.search = search ∧ p'.search = search'))) ∧
    ∀ urlAgain prioritizeAgain q, pageStep num p (.effects urlAgain prioritizeAgain) = some q →
      p.rendered.jobs ≠ [] → p.rendered.workspaceSeeded = false →
      ∃ job, p.rendered.prioritizedJob = some job ∧ q.queued.selectedJobId = some job.id ∧
        (parseWorkspaceSearch num q.search).jobId = some job.id := by
  constructor
  · obtain ⟨p', hrun', hsame⟩ :=
      sameWorkspace_of_run hrun (freshInv_load num search) (sameWorkspace_load hstatus)
    refine ⟨p', hrun', ?_, ?_, hsame.address⟩
    · rw [hsame.eq]
    · rw [hsame.eq]
  · intro urlAgain prioritizeAgain q hstep hjobs hseeded
    obtain ⟨-, ⟨job, hjob, -, rfl⟩ | ⟨hquiet, -⟩⟩ := (freshInv_of_run hrun).effects hstep
    · refine ⟨job, hjob, rfl, ?_⟩
      show (parseWorkspaceSearch num (locationSearch (buildWorkspaceSearch num _))).jobId = _
      rw [locationSearch_build, parse_build]
    · rcases hquiet with hnil | hseeded'
      · exact absurd hnil hjobs
      · rw [hseeded] at hseeded'
        cases hseeded'

/-- The effects of the first render find no jobs, and the filter in the address. -/
theorem effects_load (search : String) (urlAgain prioritizeAgain : Bool) :
    pageStep num (Page.load num search) (.effects urlAgain prioritizeAgain) =
      some { Page.load num search with due := false } := by
  obtain ⟨q, hq⟩ : ∃ q, pageStep num (Page.load num search)
      (.effects urlAgain prioritizeAgain) = some q := ⟨_, rfl⟩
  rw [hq]
  have hread : (Page.load num search).readFilter num =
      (Page.load num search).queued.jobStatusFilter := by
    unfold Page.readFilter
    split <;> rfl
  obtain ⟨-, ⟨job, hjob, -, -⟩ | ⟨-, rfl⟩⟩ := (freshInv_load num search).effects hq
  · cases hjob
  · rw [hread]
    split <;> rfl

/-- A queued job and a completed one. -/
def twoJobs (queued completed : Fin 10) : List (WorkspaceJob (Fin 10)) :=
  [⟨queued, .queued⟩, ⟨completed, .completed⟩]

/-- A link to the job 7 opens the job 3. -/
theorem link_never_decides_seven :
    ∃ search p q, (parseWorkspaceSearch oneDigit search).jobId = some 7 ∧
      Run (pageStep oneDigit) (fun _ _ => True) (Page.load oneDigit search)
        [.effects false false, .setJobs (twoJobs 3 7), .render] p ∧
      pageStep oneDigit p (.effects false false) = some q ∧ q.queued.selectedJobId = some 3 := by
  have hlink := parse_build oneDigit { jobId := some 7, resultId := none, status := none }
  generalize buildWorkspaceSearch oneDigit { jobId := some 7, resultId := none, status := none } =
    search at hlink
  have hrun : ∃ p, Run (pageStep oneDigit) (fun _ _ => True) (Page.load oneDigit search)
      [.effects false false, .setJobs (twoJobs 3 7), .render] p ∧ p.due = true ∧
      p.rendered.workspaceSeeded = false ∧ p.rendered.jobs = twoJobs 3 7 ∧
      p.rendered.resultsByJob = [] :=
    ⟨_, .cons (effects_load search false false) trivial
      (.cons rfl trivial (.cons rfl trivial (.nil _))), rfl, rfl, rfl, rfl⟩
  obtain ⟨p, hrun, hdue, hseeded, hjobs, hresults⟩ := hrun
  have hjob : p.rendered.prioritizedJob = some ⟨3, .queued⟩ := by
    simp [Workspace.prioritizedJob, Workspace.resultOf, hjobs, hresults, twoJobs]
  obtain ⟨q, hq⟩ : ∃ q, pageStep oneDigit p (.effects false false) = some q := by
    simp only [pageStep]
    rw [if_pos hdue]
    exact ⟨_, rfl⟩
  obtain ⟨job, hpicked, hselected, -⟩ :=
    (link_never_decides rfl hrun).2 false false q hq (by simp [hjobs, twoJobs]) hseeded
  obtain rfl := Option.some.inj (hjob.symm.trans hpicked)
  exact ⟨search, p, q, by rw [hlink], hrun, hq, hselected⟩

end Links

/-! ### The filter -/

section Filter

variable {ν : Type} [DecidableEq ν] {num : JsNumbers ν} {p q : Page ν}

/-- The filter is the one in the address, or the next effect to read it sees a change. -/
def FilterInv (num : JsNumbers ν) (p : Page ν) : Prop :=
  shownStatus p.queued.jobStatusFilter = shownStatus (p.urlStatus num) ∨
    p.queued.jobStatusFilter ≠ p.rendered.jobStatusFilter ∨
    (p.due = true ∧ ∀ w, p.before = some w → w.jobStatusFilter ≠ p.rendered.jobStatusFilter)

omit [DecidableEq ν] in
/-- The status of an address that was written. -/
theorem urlStatus_written {state : WorkspaceUrlState ν}
    (h : p.search = locationSearch (buildWorkspaceSearch num state)) :
    p.urlStatus num = shownStatus state.status := by
  rw [Page.urlStatus, h, locationSearch_build, parse_build]

omit [DecidableEq ν] in
theorem urlStatus_replaceUrl (p : Page ν) (state : WorkspaceUrlState ν) :
    (p.replaceUrl num state).urlStatus num = shownStatus state.status :=
  urlStatus_written rfl

omit [DecidableEq ν] in
/-- An address is written with the filter that was set. -/
theorem filterInv_replaceUrl {p : Page ν} {state : WorkspaceUrlState ν}
    (h : p.queued.jobStatusFilter = state.status) : FilterInv num (p.replaceUrl num state) := by
  left
  rw [urlStatus_replaceUrl, shownStatus_shownStatus, ← h]
  rfl

/-- A selection writes the filter of the render, which is the next one or is to be read. -/
theorem filterInv_select (p : Page ν) (jobId : ν) :
    FilterInv num (p.syncJobSelection num jobId).setSeeded := by
  have hurl : (p.syncJobSelection num jobId).setSeeded.urlStatus num =
      shownStatus p.rendered.jobStatusFilter :=
    urlStatus_written (p := (p.syncJobSelection num jobId).setSeeded)
      (syncJobSelection_search num p jobId)
  by_cases heq : p.queued.jobStatusFilter = p.rendered.jobStatusFilter
  · left
    rw [hurl, shownStatus_shownStatus, ← heq]
    rfl
  · exact Or.inr (Or.inl heq)

omit [DecidableEq ν] in
/-- The filter that the first effect leaves. -/
theorem readFilter_or (num : JsNumbers ν) (p : Page ν) : p.readFilter num = p.urlStatus num ∨
    (p.urlStatus num = p.rendered.jobStatusFilter ∧
      p.readFilter num = p.queued.jobStatusFilter) := by
  unfold Page.readFilter
  split
  · exact Or.inl rfl
  · next hsame => exact Or.inr ⟨not_not.mp hsame, rfl⟩

omit [DecidableEq ν] in
/-- After the first effect the filter is the one in the address, or is to be read. -/
theorem filterInv_read (p : Page ν) :
    FilterInv num (({ p with due := false } : Page ν).setFilter (p.readFilter num)) := by
  rcases readFilter_or num p with hread | ⟨hurl, hread⟩
  · left
    exact congrArg shownStatus hread
  · rw [hread]
    by_cases heq : p.queued.jobStatusFilter = p.rendered.jobStatusFilter
    · left
      exact congrArg shownStatus (heq.trans hurl.symm)
    · exact Or.inr (Or.inl heq)

/-- A filter that changed is read. -/
theorem reads_of_filter (h : ∀ w, p.before = some w →
    w.jobStatusFilter ≠ p.rendered.jobStatusFilter) (urlAgain prioritizeAgain : Bool) :
    p.reads urlAgain prioritizeAgain = true := by
  have hurl : p.urlDue = true := by
    unfold Page.urlDue
    rw [Option.all_eq_true]
    intro w hw
    rw [decide_eq_true_eq]
    intro heq
    exact h w hw (by rw [heq])
  simp [Page.reads, hurl]

/-- **A step leaves the filter the one in the address, or to be read.** -/
theorem filterInv_step {a : PageAct ν} (hfresh : FreshInv p) (h : FilterInv num p)
    (hstep : pageStep num p a = some q) : FilterInv num q := by
  cases a with
  | render =>
    simp only [pageStep] at hstep
    split at hstep
    · cases hstep
    · next hdue =>
      obtain rfl := Option.some.inj hstep
      rcases h with hsame | hne | ⟨hdue', -⟩
      · exact Or.inl hsame
      · refine Or.inr (Or.inr ⟨rfl, ?_⟩)
        intro w hw
        obtain rfl := Option.some.inj hw
        exact Ne.symm hne
      · exact absurd hdue' hdue
  | effects urlAgain prioritizeAgain =>
    -- What is picked is written to the address with the filter; what is read comes from there.
    obtain ⟨-, ⟨job, -, -, rfl⟩ | ⟨-, rfl⟩⟩ := hfresh.effects hstep
    · exact filterInv_select _ job.id
    · split
      · exact filterInv_read p
      · next hreads =>
        rcases h with hsame | hne | ⟨-, hbefore⟩
        · exact Or.inl hsame
        · exact Or.inr (Or.inl hne)
        · exact absurd (reads_of_filter hbefore urlAgain prioritizeAgain) hreads
  | setJobs | setResults | setSelected | startNewExtraction =>
    obtain rfl := Option.some.inj hstep
    exact h
  | selectJob jobId =>
    obtain rfl := Option.some.inj hstep
    exact filterInv_select p jobId
  | changeFilter status =>
    obtain rfl := Option.some.inj hstep
    exact filterInv_replaceUrl rfl

/-- **The filter of a page is the one in its address**, an empty one counting as none: in
every run of a page, whatever address it was loaded with, when its effects have run and
no other filter was set since. -/
theorem filter_in_address {search : String} {as : List (PageAct ν)}
    (hrun : Run (pageStep num) (fun _ _ => True) (Page.load num search) as p)
    (hdue : p.due = false) (hset : p.queued.jobStatusFilter = p.rendered.jobStatusFilter) :
    shownStatus p.rendered.jobStatusFilter =
      shownStatus (parseWorkspaceSearch num p.search).status := by
  have hinv : FreshInv p ∧ FilterInv num p :=
    hrun.invariant (I := fun p => FreshInv p ∧ FilterInv num p)
      (fun _ _ _ h _ hstep => ⟨freshInv_step h.1 hstep, filterInv_step h.1 h.2 hstep⟩)
      ⟨freshInv_load num search, Or.inl rfl⟩
  rcases hinv.2 with hsame | hne | ⟨hdue', -⟩
  · rw [← hset]
    exact hsame
  · exact absurd hset hne
  · rw [hdue] at hdue'
    cases hdue'

/-- The failed jobs are filtered. -/
theorem filter_in_address_failed :
    ∃ search p, Run (pageStep oneDigit) (fun _ _ => True) (Page.load oneDigit search)
        [.effects false false, .changeFilter (some "failed"), .render, .effects false false] p ∧
      p.rendered.jobStatusFilter = some "failed" ∧
      shownStatus (some "failed") =
        shownStatus (parseWorkspaceSearch oneDigit p.search).status := by
  -- the filter is set on a page without jobs
  have hchanged : ∀ p q : Page (Fin 10), pageStep oneDigit p (.changeFilter (some "failed")) =
      some q → q.queued.jobStatusFilter = some "failed" ∧ q.urlStatus oneDigit = some "failed" ∧
        q.due = p.due ∧ q.queued.jobs = p.queued.jobs := by
    intro p q hstep
    obtain rfl := Option.some.inj hstep
    exact ⟨rfl, urlStatus_replaceUrl _ _, rfl, rfl⟩
  obtain ⟨p₂, hp₂⟩ : ∃ p₂, pageStep oneDigit { Page.load oneDigit "" with due := false }
      (.changeFilter (some "failed")) = some p₂ := ⟨_, rfl⟩
  obtain ⟨hqueued, hurl, hdue₂, hjobs⟩ := hchanged _ p₂ hp₂
  obtain ⟨r, hr, hdue, hrendered, hsame⟩ : ∃ r, pageStep oneDigit p₂ .render = some r ∧
      r.due = true ∧ r.rendered = p₂.queued ∧ r.queued = p₂.queued ∧
      r.urlStatus oneDigit = p₂.urlStatus oneDigit := by
    simp only [pageStep]
    rw [hdue₂]
    exact ⟨_, rfl, rfl, rfl, rfl, rfl⟩
  have hrun : Run (pageStep oneDigit) (fun _ _ => True) (Page.load oneDigit "")
      [.effects false false, .changeFilter (some "failed"), .render] r :=
    .cons (effects_load "" false false) trivial (.cons hp₂ trivial (.cons hr trivial (.nil r)))
  rw [← hsame.1] at hqueued
  rw [← hsame.2] at hurl
  obtain ⟨p, hp⟩ : ∃ p, pageStep oneDigit r (.effects false false) = some p := by
    simp only [pageStep]
    rw [if_pos hdue]
    exact ⟨_, rfl⟩
  have hrendered' : r.rendered.jobStatusFilter = some "failed" := by
    rw [hrendered, ← hsame.1, hqueued]
  have hread : r.readFilter oneDigit = some "failed" := by
    rw [Page.readFilter, hurl, hrendered', hqueued, if_neg (fun h => h rfl)]
  have hwhole := hrun.snoc hp trivial
  obtain ⟨-, ⟨job, hjob, -, -⟩ | ⟨-, hp'⟩⟩ := (freshInv_of_run hrun).effects hp
  · exact absurd (by rw [hrendered, hjobs]; rfl) (jobs_ne_nil_of_prioritizedJob hjob)
  · rw [hread] at hp'
    have hsettled : p.due = false ∧ p.queued.jobStatusFilter = some "failed" ∧
        p.rendered.jobStatusFilter = some "failed" := by
      rw [hp']
      split
      · exact ⟨rfl, rfl, hrendered'⟩
      · exact ⟨rfl, hqueued, hrendered'⟩
    obtain ⟨hdone, hqueued', hrendered''⟩ := hsettled
    have hfilter := filter_in_address hwhole hdone (hqueued'.trans hrendered''.symm)
    exact ⟨"", p, hwhole, hrendered'', hrendered'' ▸ hfilter⟩

end Filter

end ExtractFlow
