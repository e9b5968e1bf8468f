import ExtractFlow.Lib.Transition
import ExtractFlow.Worker

/-!
# How a run of `process_once` ends

One worker, no concurrent request.  A run ends completed or failed: the job and
its document in that status, the result of the job replaced or left, one audit
event.  Two ways to end are neither.  The early failure path, when the document
or the template version is missing, writes no audit event and leaves the
document; and the status file of a completed run is written inside the try
block, so that an exception there fails a job whose completion is committed.

## Main definitions

* `loneStep` — `process_once` by itself, with the point it is at.
* `CompletedRun`, `FailedRun` — the two consistent outcomes.
* `NoRaiseAfterCompletion` — the status write of a completed run goes through.

## Main results

* `ends_consistent_iff` — a run ends in exactly one of the two outcomes if and only
  if the rows are there and that status write goes through.
* `length_le_of_run`, `exists_step` — every run is over after at most 31 steps,
  and no point is stuck.
-/

namespace ExtractFlow

/-- `process_once` on the job `job` by itself; at `none` it is over. -/
def loneStep (job : ℕ) (s : Database × Option Pc) (act : WorkerAct) :
    Option (Database × Option Pc) :=
  s.2.bind fun pc => processStep job s.1 pc act

/-- The audit events of an action on a job. -/
def Database.jobEvents (db : Database) (action : String) (job : ℕ) : ℕ :=
  (db.auditEvents.select fun e =>
    e.action == action && e.objectType == "job" && e.objectId == job).length

/-- The job and its document completed, the result is the summary this run
extracted, and there is one more `job.completed`. -/
structure CompletedRun (job : ℕ) (claimed : ExtractionJob) (before after : Database)
    (acts : List WorkerAct) : Prop where
  status : after.statusOf job = some .completed
  document : (after.documents.get claimed.documentId).map Document.status = some .completed
  result : ∃ summary id row, WorkerAct.extracted summary ∈ acts ∧
    after.resultsOf job = [(id, row)] ∧ row.resultJson = summary
  completedEvents : after.jobEvents "job.completed" job = before.jobEvents "job.completed" job + 1
  failedEvents : after.jobEvents "job.failed" job = before.jobEvents "job.failed" job

/-- The job failed with a message, its document failed if there is one, its
result untouched, and one more `job.failed`. -/
structure FailedRun (job : ℕ) (claimed : ExtractionJob) (before after : Database) : Prop where
  status : ∃ row, after.extractionJobs.get job = some row ∧ row.status = .failed ∧
    row.errorMessage.isSome = true
  document : ∀ d, after.documents.get claimed.documentId = some d → d.status = .failed
  result : after.resultsOf job = before.resultsOf job
  completedEvents : after.jobEvents "job.completed" job = before.jobEvents "job.completed" job
  failedEvents : after.jobEvents "job.failed" job = before.jobEvents "job.failed" job + 1

/-- The status file of a completed run is written without an exception. -/
def NoRaiseAfterCompletion (s : Database × Option Pc) (act : WorkerAct) : Prop :=
  s.2 = some .statusCompleted → ∀ msg, act ≠ .raise msg

/-! ### Inside the try block -/

/-- The copy of the job a point holds loaded. -/
def Pc.loaded? : Pc → Option ExtractionJob
  | .missing loaded | .checkTenants loaded _ _ | .reportStart loaded _ | .report loaded _ _
  | .complete loaded _ | .fail _ loaded _ => some loaded
  | .extract loaded _ => loaded
  | _ => none

/-- The summary a point carries. -/
def Pc.summary? : Pc → Option ExtractionValidationSummary
  | .checkExtracted result | .complete _ result => some result
  | _ => none

/-- Before the terminal commit, and not on the way of a cancelled job or of a
missing row. -/
def Pc.inTry : Pc → Bool
  | .missing _ | .missingStatus | .statusCompleted | .refresh true _ | .fail true _ _
  | .statusFailed | .finalize _ _ | .statusIdle _ => false
  | _ => true

/-- A copy of the claimed job, up to the progress columns that the run itself rewrites. -/
structure OfClaim (claimed row : ExtractionJob) : Prop where
  status : row.status = .running
  errorMessage : row.errorMessage = claimed.errorMessage
  documentId : row.documentId = claimed.documentId
  templateVersionId : row.templateVersionId = claimed.templateVersionId

/-- Until the terminal commit the job is running and the results and the audit
events are those from before the run. -/
structure InTry (job : ℕ) (claimed : ExtractionJob) (before : Database) (acts : List WorkerAct)
    (db : Database) (pc : Pc) : Prop where
  point : pc.inTry = true
  job : ∃ row, db.extractionJobs.get job = some row ∧ OfClaim claimed row
  document : (db.documents.get claimed.documentId).isSome = true
  version : (db.templateVersions.get claimed.templateVersionId).isSome = true
  results : db.extractionResults = before.extractionResults
  audit : db.auditEvents = before.auditEvents
  loaded : ∀ row, pc.loaded? = some row → OfClaim claimed row
  summary : ∀ result, pc.summary? = some result → .extracted result ∈ acts

/-- The invariant of a run whose rows are there and whose last status write goes
through. -/
def LoneInv (job : ℕ) (claimed : ExtractionJob) (before : Database) (acts : List WorkerAct)
    (s : Database × Option Pc) : Prop :=
  match s.2 with
  | none => CompletedRun job claimed before s.1 acts ∨ FailedRun job claimed before s.1
  | some .statusCompleted => CompletedRun job claimed before s.1 acts
  | some .statusFailed => FailedRun job claimed before s.1
  | some pc => InTry job claimed before acts s.1 pc

theorem LoneInv.of_inTry {job : ℕ} {claimed : ExtractionJob} {before db : Database}
    {acts : List WorkerAct} {pc : Pc} (h : InTry job claimed before acts db pc) :
    LoneInv job claimed before acts (db, some pc) := by
  have hpoint := h.point
  cases pc <;> first | exact h | simp [Pc.inTry] at hpoint

section Outcomes

variable {job : ℕ} {claimed : ExtractionJob} {before db : Database} {acts : List WorkerAct}

/-- A report keeps the claimed job but for its progress. -/
theorem OfClaim.report {row : ExtractionJob} (h : OfClaim claimed row) (loaded : ExtractionJob)
    (stage : JobStage) :
    OfClaim claimed (ExtractionJob.flush loaded (loaded.atStage stage) row) :=
  ⟨(writeBack_same _ _).trans h.status, (writeBack_same _ _).trans h.errorMessage,
    h.documentId, h.templateVersionId⟩

/-- Inside the try block, a commit that keeps the claimed job, the results and
the audit events. -/
theorem InTry.write {pc : Pc} (h : InTry job claimed before acts db pc) (db' : Database)
    (pc' : Pc) (act : WorkerAct)
    (hjob : ∃ row, db'.extractionJobs.get job = some row ∧ OfClaim claimed row)
    (hdocument : ∀ id, (db'.documents.get id).isSome = (db.documents.get id).isSome)
    (hframe : db'.templateVersions = db.templateVersions ∧
      db'.extractionResults = db.extractionResults ∧ db'.auditEvents = db.auditEvents)
    (hpc : pc'.inTry = true ∧ pc'.loaded? = none ∧ pc'.summary? = none) :
    InTry job claimed before (acts ++ [act]) db' pc' := by
  obtain ⟨hversion, hresults, haudit⟩ := hframe
  obtain ⟨htry, hloaded, hsummary⟩ := hpc
  refine ⟨htry, hjob, ?_, ?_, ?_, ?_, ?_, ?_⟩
  · rw [hdocument]; exact h.document
  · rw [hversion]; exact h.version
  · rw [hresults]; exact h.results
  · rw [haudit]; exact h.audit
  · simp [hloaded]
  · simp [hsummary]

/-- Inside the try block, a step that writes nothing. -/
theorem InTry.advance {pc : Pc} (h : InTry job claimed before acts db pc) (pc' : Pc)
    (act : WorkerAct) (hpc : pc'.inTry = true)
    (hloaded : ∀ row, pc'.loaded? = some row → OfClaim claimed row)
    (hsummary : ∀ result, pc'.summary? = some result → .extracted result ∈ acts ++ [act]) :
    InTry job claimed before (acts ++ [act]) db pc' :=
  ⟨hpc, h.job, h.document, h.version, h.results, h.audit, hloaded, hsummary⟩

/-- An audit event of a job counts for its action only. -/
theorem jobEvents_recordWorkerAudit (db : Database) (tenant action action' : String) (job : ℕ)
    (metadata : List (String × PyVal)) :
    (db.recordWorkerAudit tenant action job metadata).jobEvents action' job =
      db.jobEvents action' job + if action = action' then 1 else 0 := by
  unfold Database.jobEvents Database.recordWorkerAudit
  rw [Table.select_insert, List.length_append]
  by_cases h : action = action' <;> simp [h]

theorem jobEvents_congr (db : Database) {db' : Database} (h : db'.auditEvents = db.auditEvents)
    (action : String) (job : ℕ) : db'.jobEvents action job = db.jobEvents action job := by
  simp only [Database.jobEvents, h]

/-- **The completion commit** makes a consistent completed state. -/
theorem InTry.completed {result : ExtractionValidationSummary} {stored loaded : ExtractionJob}
    (h : InTry job claimed before acts db (.complete loaded result))
    (hget : db.extractionJobs.get job = some stored)
    (hunique : (before.resultsOf job).length ≤ 1) (act : WorkerAct) :
    CompletedRun job claimed before (db.commitCompletion job stored loaded result)
      (acts ++ [act]) := by
  obtain ⟨row, hrow, hof⟩ := h.job
  obtain rfl := Option.some.inj (hget.symm.trans hrow)
  have hloaded : OfClaim claimed loaded := h.loaded loaded rfl
  have hresults : db.resultsOf job = before.resultsOf job := by
    simp only [Database.resultsOf, h.results]
  -- The commit writes one event, and it says that the job is completed.
  have hevents : ∀ action, (db.commitCompletion job stored loaded result).jobEvents action job =
      before.jobEvents action job + if "job.completed" = action then 1 else 0 := by
    intro action
    rw [commitCompletion_eq, jobEvents_recordWorkerAudit, jobEvents_congr before]
    simp only [setDocumentStatus_auditEvents, commitJob_auditEvents, saveResult_auditEvents, h.audit]
  refine ⟨?_, ?_, ?_, ?_, ?_⟩
  · rw [Database.statusOf, commitCompletion_jobs, Table.get_update_self, hget]
    exact congrArg some (writeBack_of_ne (by simp [ExtractionJob.succeed, hloaded.status]))
  · obtain ⟨d, hd⟩ := Option.isSome_iff_exists.mp h.document
    have hdocs : (db.commitCompletion job stored loaded result).documents =
        db.documents.update stored.documentId fun d => { d with status := .completed } := by
      rw [commitCompletion_eq]
      simp [Database.recordWorkerAudit, Database.setDocumentStatus]
    rw [hdocs, hof.documentId, Table.get_update_self, hd]
    rfl
  · obtain ⟨id, r, hr, hsummary⟩ := saveResult_resultsOf db (hresults ▸ hunique) stored.tenantId result
    exact ⟨result, id, r, List.mem_append_left _ (h.summary result rfl), hr, hsummary⟩
  · rw [hevents]; rfl
  · rw [hevents]; rfl

/-- **The failure commit** makes a consistent failed state. -/
theorem InTry.failed {stored loaded : ExtractionJob} {msg : String}
    (h : InTry job claimed before acts db (.fail false loaded msg))
    (hget : db.extractionJobs.get job = some stored) :
    FailedRun job claimed before (db.commitFailure job stored loaded msg) := by
  obtain ⟨row, hrow, hof⟩ := h.job
  obtain rfl := Option.some.inj (hget.symm.trans hrow)
  have hloaded : OfClaim claimed loaded := h.loaded loaded rfl
  -- The commit writes one event, and it says that the job failed.
  have hevents : ∀ action, (db.commitFailure job stored loaded msg).jobEvents action job =
      before.jobEvents action job + if "job.failed" = action then 1 else 0 := by
    intro action
    unfold Database.commitFailure
    rw [jobEvents_recordWorkerAudit, jobEvents_congr before]
    simp only [setDocumentStatus_auditEvents, commitJob_auditEvents, h.audit]
  refine ⟨?_, ?_, ?_, ?_, ?_⟩
  · refine ⟨ExtractionJob.flush loaded (loaded.failWith msg) stored, ?_, ?_, ?_⟩
    · rw [commitFailure_jobs, Table.get_update_self, hget]
      rfl
    · exact writeBack_of_ne (by simp [ExtractionJob.failWith, hloaded.status])
    · change (writeBack loaded.errorMessage (some msg) stored.errorMessage).isSome = true
      rw [hof.errorMessage, ← hloaded.errorMessage, writeBack_self]
      rfl
  · intro d hd
    have hdocs : (db.commitFailure job stored loaded msg).documents =
        db.documents.update stored.documentId fun d => { d with status := .failed } := rfl
    rw [hdocs, hof.documentId, Table.get_update_self] at hd
    obtain ⟨d', -, rfl⟩ := Option.map_eq_some_iff.mp hd
    rfl
  · simp only [Database.resultsOf, commitFailure_results, h.results]
  · rw [hevents]; rfl
  · rw [hevents]; rfl

end Outcomes

/-! ### One step of a lone run -/

section LoneRun

variable {job : ℕ} {claimed : ExtractionJob} {before : Database}

theorem loneStep_cases {s t : Database × Option Pc} {act : WorkerAct}
    (h : loneStep job s act = some t) : ∃ pc stored, s.2 = some pc ∧
      s.1.extractionJobs.get job = some stored ∧ ProcessMove job s.1 stored pc act t.1 t.2 := by
  obtain ⟨pc, hpc, hstep⟩ := Option.bind_eq_some_iff.mp h
  obtain ⟨stored, hget, hmove⟩ := processMove_of_step hstep
  exact ⟨pc, stored, hpc, hget, hmove⟩

/-- From a point inside the try block, one step. -/
theorem LoneInv.of_inTry_step {acts : List WorkerAct} {db db' : Database} {pc : Pc}
    {pc' : Option Pc} {stored : ExtractionJob} {act : WorkerAct}
    (hunique : (before.resultsOf job).length ≤ 1) (h : InTry job claimed before acts db pc)
    (hget : db.extractionJobs.get job = some stored)
    (hmove : ProcessMove job db stored pc act db' pc') :
    LoneInv job claimed before (acts ++ [act]) (db', pc') := by
  obtain ⟨row, hrow, hof⟩ := h.job
  obtain rfl := Option.some.inj (hget.symm.trans hrow)
  have hpoint := h.point
  have hloaded := h.loaded
  have hsummary := h.summary
  -- nobody cancels, so the tests find the job running
  have hlive : stored.status ≠ .cancelled := by simp [hof.status]
  have hpass : ∀ {pc' : Pc}, pc'.inTry = true → pc'.loaded? = none → pc'.summary? = none →
      ∀ act, LoneInv job claimed before (acts ++ [act]) (db, some pc') := by
    intro pc' hpc hnone hnone' act
    exact .of_inTry (h.advance pc' act hpc (by simp [hnone]) (by simp [hnone']))
  cases hmove
  case load document version hd hv =>
    exact .of_inTry (h.advance _ _ rfl (by rintro _ ⟨⟩; exact hof) (by simp [Pc.summary?]))
  case loadMissing hnone =>
    rw [hof.documentId, hof.templateVersionId] at hnone
    rcases hnone with hnone | hnone
    · simpa [hnone] using h.document
    · simpa [hnone] using h.version
  case tenantsAgree loaded document version _ =>
    exact .of_inTry (h.advance _ _ rfl (by rintro _ ⟨⟩; exact hloaded loaded rfl)
      (by simp [Pc.summary?]))
  case start loaded document =>
    refine .of_inTry (h.write (db.commitStart job loaded stored.documentId document)
      .statusRunning _ ?_ ?_ ⟨rfl, rfl, rfl⟩ ⟨rfl, rfl, rfl⟩)
    · exact ⟨_, by rw [commitStart_jobs, Table.get_update_self, hget]; rfl, hof.report loaded .parsing⟩
    · intro id
      exact Table.get_update_isSome ..
  case storeText path =>
    refine .of_inTry (h.write (db.setParsedTextPath stored.documentId path) .checkParsed _
      ⟨stored, hget, hof⟩ ?_ ⟨rfl, rfl, rfl⟩ ⟨rfl, rfl, rfl⟩)
    intro id
    exact Table.get_update_isSome ..
  case parsedLive =>
    exact .of_inTry (h.advance _ _ rfl (by rintro _ ⟨⟩; exact hof) (by simp [Pc.summary?]))
  case beginReport loaded stage stages =>
    refine .of_inTry (h.advance _ _ rfl ?_ (by simp [Pc.summary?]))
    rintro _ ⟨⟩
    cases loaded with
    | none => exact hof
    | some row => exact hloaded row rfl
  case report loaded stage stages =>
    refine .of_inTry (h.write (db.commitJob job loaded (loaded.atStage stage))
      (.extract none stages) _ ?_ (fun _ => rfl) ⟨rfl, rfl, rfl⟩ ⟨rfl, rfl, rfl⟩)
    exact ⟨_, by rw [commitJob_jobs, Table.get_update_self, hget]; rfl, hof.report loaded stage⟩
  case extracted loaded result =>
    exact .of_inTry (h.advance _ _ rfl (by simp [Pc.loaded?]) (by rintro _ ⟨⟩; simp))
  case extractedLive result _ =>
    refine .of_inTry (h.advance _ _ rfl (by rintro _ ⟨⟩; exact hof) ?_)
    rintro _ ⟨⟩
    exact List.mem_append_left _ (hsummary result rfl)
  case complete loaded result => exact h.completed hget hunique _
  case refreshLive committed msg _ =>
    cases committed with
    | false => exact .of_inTry (h.advance _ _ rfl (by rintro _ ⟨⟩; exact hof) (by simp [Pc.summary?]))
    | true => simp [Pc.inTry] at hpoint
  case fail committed loaded msg =>
    cases committed with
    | false => exact h.failed hget
    | true => simp [Pc.inTry] at hpoint
  case parsedCancelled hc | extractedCancelled hc | refreshCancelled hc => exact absurd hc hlive
  case missing | missingStatus | statusCompleted | raiseCompleted | statusFailed | finalize
    | statusIdle | raiseIdle => simp [Pc.inTry] at hpoint
  all_goals exact hpass rfl rfl rfl _

/-- **One step of a lone run**, with the last status write going through. -/
theorem loneInv_step (hunique : (before.resultsOf job).length ≤ 1) {acts : List WorkerAct}
    {s t : Database × Option Pc} {act : WorkerAct} (hs : LoneInv job claimed before acts s)
    (hok : NoRaiseAfterCompletion s act) (h : loneStep job s act = some t) :
    LoneInv job claimed before (acts ++ [act]) t := by
  obtain ⟨db, pc⟩ := s
  obtain ⟨db', pc'⟩ := t
  obtain ⟨pc, stored, rfl, hget, hmove⟩ := loneStep_cases h
  by_cases htry : pc.inTry = true
  · have hin : InTry job claimed before acts db pc := by
      cases pc <;> first | exact hs | simp [Pc.inTry] at htry
    exact .of_inTry_step hunique hin hget hmove
  · cases hmove
    case statusCompleted =>
      have hs : CompletedRun job claimed before db acts := hs
      obtain ⟨summary, id, row, hmem, hrow, hsummary⟩ := hs.result
      exact Or.inl { hs with
        result := ⟨summary, id, row, List.mem_append_left _ hmem, hrow, hsummary⟩ }
    case raiseCompleted msg => exact absurd rfl (hok rfl msg)
    case statusFailed => exact Or.inr hs
    -- the other points outside the try block are not reached
    case missing | missingStatus | finalize | statusIdle | raiseIdle => exact absurd hs.point htry
    case raise hmay => exact absurd (by revert hmay; cases pc <;> simp [Pc.mayRaise, Pc.inTry]) htry
    case refreshLive committed msg _ | refreshCancelled committed msg _ | fail committed loaded msg =>
      cases committed with
      | false => simp [Pc.inTry] at htry
      | true => exact absurd hs.point htry
    all_goals simp [Pc.inTry] at htry

/-! ### The two ways to end inconsistently -/

/-- After an exception at the status write of a completed run. -/
def RaisedAfterCompletion (job : ℕ) (before : Database) (s : Database × Option Pc) : Prop :=
  s.1.jobEvents "job.completed" job = before.jobEvents "job.completed" job + 1 ∧
    match s.2 with
    | some (.refresh true _) => s.1.statusOf job = some .completed ∧
        s.1.jobEvents "job.failed" job = before.jobEvents "job.failed" job
    | some (.fail true _ _) =>
        s.1.jobEvents "job.failed" job = before.jobEvents "job.failed" job
    | some .statusFailed | none =>
        s.1.jobEvents "job.failed" job = before.jobEvents "job.failed" job + 1
    | _ => False

theorem raisedAfterCompletion_step {s t : Database × Option Pc} {act : WorkerAct}
    (hs : RaisedAfterCompletion job before s) (h : loneStep job s act = some t) :
    RaisedAfterCompletion job before t := by
  obtain ⟨db, pc⟩ := s
  obtain ⟨db', pc'⟩ := t
  obtain ⟨pc, stored, rfl, hget, hmove⟩ := loneStep_cases h
  obtain ⟨hcompleted, hs⟩ := hs
  cases hmove
  case refreshLive committed msg _ =>
    cases committed with
    | false => exact hs.elim
    | true => exact ⟨hcompleted, hs.2⟩
  case refreshCancelled committed msg hc =>
    cases committed with
    | false => exact hs.elim
    | true =>
      have hstatus := hs.1
      simp [Database.statusOf, hget, hc] at hstatus
  -- The handler fails the job it has just completed, and logs that, too.
  case fail committed loaded msg =>
    cases committed with
    | false => exact hs.elim
    | true =>
      have hevents : ∀ action, (db.commitFailure job stored loaded msg).jobEvents action job =
          db.jobEvents action job + if "job.failed" = action then 1 else 0 :=
        fun action => jobEvents_recordWorkerAudit _ _ _ _ _ _
      refine ⟨(hevents _).trans ?_, (hevents _).trans ?_⟩
      · exact hcompleted
      · exact congrArg (· + 1) hs
  case statusFailed => exact ⟨hcompleted, hs⟩
  case raise msg hmay => cases pc <;> first | exact hs.elim | simp [Pc.mayRaise] at hmay
  all_goals exact hs.elim

/-- On the early failure path. -/
def OnEarlyFailure (job : ℕ) (claimed : ExtractionJob) (before : Database)
    (s : Database × Option Pc) : Prop :=
  s.1.auditEvents = before.auditEvents ∧
    match s.2 with
    | some .load => s.1 = before ∧ before.extractionJobs.get job = some claimed
    | some (.missing _) | some .missingStatus | none => True
    | _ => False

theorem onEarlyFailure_step (hmissing : before.documents.get claimed.documentId = none ∨
      before.templateVersions.get claimed.templateVersionId = none)
    {s t : Database × Option Pc} {act : WorkerAct} (hs : OnEarlyFailure job claimed before s)
    (h : loneStep job s act = some t) : OnEarlyFailure job claimed before t := by
  obtain ⟨db, pc⟩ := s
  obtain ⟨db', pc'⟩ := t
  obtain ⟨pc, stored, rfl, hget, hmove⟩ := loneStep_cases h
  obtain ⟨haudit, hs⟩ := hs
  cases hmove
  case load document version hd hv =>
    obtain ⟨rfl, hclaimed⟩ := hs
    obtain rfl := Option.some.inj (hget.symm.trans hclaimed)
    rcases hmissing with hnone | hnone
    · simp [hd] at hnone
    · simp [hv] at hnone
  case loadMissing => exact ⟨haudit, trivial⟩
  case missing loaded => exact ⟨haudit, trivial⟩
  case missingStatus => exact ⟨haudit, trivial⟩
  case raise msg hmay => cases pc <;> first | exact hs.elim | simp [Pc.mayRaise] at hmay
  all_goals exact hs.elim

end LoneRun

/-! ### The outcome -/

/-- A run with its rows there, whose last status write goes through, ends
completed or failed. -/
theorem loneInv_of_run {job : ℕ} {claimed : ExtractionJob} {before : Database}
    (hclaimed : before.extractionJobs.get job = some claimed) (hrunning : claimed.status = .running)
    (hunique : (before.resultsOf job).length ≤ 1)
    (hdocument : (before.documents.get claimed.documentId).isSome = true)
    (hversion : (before.templateVersions.get claimed.templateVersionId).isSome = true)
    {acts : List WorkerAct} {s : Database × Option Pc}
    (hrun : Transition.Run (loneStep job) NoRaiseAfterCompletion (before, some .load) acts s) :
    LoneInv job claimed before acts s := by
  have hstart : LoneInv job claimed before [] (before, some .load) :=
    .of_inTry ⟨rfl, ⟨claimed, hclaimed, hrunning, rfl, rfl, rfl⟩, hdocument, hversion, rfl, rfl,
      by simp [Pc.loaded?], by simp [Pc.summary?]⟩
  simpa using hrun.trace_invariant
    (fun _ _ _ _ hinv hok hstep => loneInv_step hunique hinv hok hstep) [] hstart

/-- The two outcomes exclude each other. -/
theorem not_failedRun_of_completedRun {job : ℕ} {claimed : ExtractionJob}
    {before after : Database} {acts : List WorkerAct}
    (h : CompletedRun job claimed before after acts) :
    ¬ FailedRun job claimed before after := by
  intro hfailed
  have := h.completedEvents.symm.trans hfailed.completedEvents
  omega

/-- **A run of `process_once` ends consistently** — completed or failed, and not
both — if and only if the document and the template version are there and the
status write that follows the completion does not raise. -/
theorem ends_consistent_iff {job : ℕ} {claimed : ExtractionJob} {before after : Database}
    {acts : List WorkerAct} (hclaimed : before.extractionJobs.get job = some claimed)
    (hrunning : claimed.status = .running) (hunique : (before.resultsOf job).length ≤ 1)
    (hrun : Transition.Run (loneStep job) (fun _ _ => True) (before, some .load) acts
      (after, none)) :
    Xor (CompletedRun job claimed before after acts) (FailedRun job claimed before after) ↔
      (before.documents.get claimed.documentId).isSome = true ∧
        (before.templateVersions.get claimed.templateVersionId).isSome = true ∧
        Transition.Run (loneStep job) NoRaiseAfterCompletion (before, some .load) acts
          (after, none) := by
  constructor
  · intro hxor
    have houtcome : CompletedRun job claimed before after acts ∨
        FailedRun job claimed before after := hxor.imp And.left And.left
    -- both rows are there, or no audit event is written
    have hrows : ¬ (before.documents.get claimed.documentId = none ∨
        before.templateVersions.get claimed.templateVersionId = none) := by
      intro hmissing
      have hearly : OnEarlyFailure job claimed before (after, none) :=
        hrun.invariant (fun _ _ _ hinv _ hstep => onEarlyFailure_step hmissing hinv hstep)
          ⟨rfl, rfl, hclaimed⟩
      have hevents := jobEvents_congr before hearly.1
      rcases houtcome with h | h
      · have := h.completedEvents
        rw [hevents] at this
        omega
      · have := h.failedEvents
        rw [hevents] at this
        omega
    obtain ⟨hdocument, hversion⟩ := not_or.mp hrows
    have hdocument := Option.isSome_iff_ne_none.mpr hdocument
    have hversion := Option.isSome_iff_ne_none.mpr hversion
    refine ⟨hdocument, hversion, ?_⟩
    rcases (hrun.ok_or_first_violation :
      Transition.Run (loneStep job) NoRaiseAfterCompletion _ _ _ ∨ _) with hok | hviolated
    · exact hok
    · -- the first violation is an exception right after the completion
      obtain ⟨⟨db, pc⟩, v, act, bs, cs, rfl, hbs, hno, hstep, hcs⟩ := hviolated
      simp only [NoRaiseAfterCompletion, not_forall, not_not] at hno
      obtain ⟨rfl, msg, rfl⟩ := hno
      have hcompleted : CompletedRun job claimed before db bs :=
        loneInv_of_run hclaimed hrunning hunique hdocument hversion hbs
      obtain ⟨pc, stored, hpc, hget, hmove⟩ := loneStep_cases hstep
      obtain rfl := Option.some.inj hpc
      have hraised : RaisedAfterCompletion job before v := by
        obtain ⟨db', pc'⟩ := v
        cases hmove with
        | raiseCompleted =>
          exact ⟨hcompleted.completedEvents, hcompleted.status, hcompleted.failedEvents⟩
        | raise _ _ hmay => simp [Pc.mayRaise] at hmay
      have hend : RaisedAfterCompletion job before (after, none) :=
        hcs.invariant (fun _ _ _ hinv _ hstep => raisedAfterCompletion_step hinv hstep) hraised
      obtain ⟨hone, hone'⟩ := hend
      rcases houtcome with h | h
      · have := h.failedEvents.symm.trans hone'
        omega
      · have := h.completedEvents.symm.trans hone
        omega
  · rintro ⟨hdocument, hversion, hok⟩
    rcases loneInv_of_run hclaimed hrunning hunique hdocument hversion hok with h | h
    · exact Or.inl ⟨h, not_failedRun_of_completedRun h⟩
    · exact Or.inr ⟨h, fun hc => not_failedRun_of_completedRun hc h⟩

/-- The job as a worker claims it. -/
def claimedJob : ExtractionJob :=
  { queuedJob with status := .running, workerId := some 0, attemptCount := 1 }

/-- The choices of a run that extracts a summary. -/
def completingChoices : List WorkerAct :=
  List.replicate 5 .next ++ [.parsed "parsed/1.txt"] ++ List.replicate 10 .next ++
    [.extracted emptySummary] ++ List.replicate 2 .next

/-- A run in which every step goes through completes, and is consistent in just one of the
two ways. -/
theorem ends_consistent_completing :
    ∃ after, Transition.exec (loneStep 1) (oneJobDb claimedJob, some .load)
        (completingChoices ++ [.next]) = some (after, none) ∧
      Xor (CompletedRun 1 claimedJob (oneJobDb claimedJob) after (completingChoices ++ [.next]))
        (FailedRun 1 claimedJob (oneJobDb claimedJob) after) := by
  have hend : ∃ after, Transition.exec (loneStep 1) (oneJobDb claimedJob, some .load)
      (completingChoices ++ [.next]) = some (after, none) := ⟨_, rfl⟩
  obtain ⟨after, hafter⟩ := hend
  have hok : Transition.Run (loneStep 1) NoRaiseAfterCompletion (oneJobDb claimedJob, some .load)
      (completingChoices ++ [.next]) (after, none) :=
    Transition.run_of_exec_of_forall _ _ _
      (by simp [completingChoices, NoRaiseAfterCompletion]) hafter
  exact ⟨after, hafter, (ends_consistent_iff rfl rfl (by decide)
    (Transition.run_of_exec _ _ _ hafter)).mpr ⟨rfl, rfl, hok⟩⟩

/-- **A run can end in neither outcome**: the completion is committed, the status
write raises, and the job is failed with both audit events. -/
theorem completed_run_can_fail :
    ¬ ∀ (job : ℕ) (claimed : ExtractionJob) (before after : Database) (acts : List WorkerAct),
      before.extractionJobs.get job = some claimed → claimed.status = .running →
      (before.resultsOf job).length ≤ 1 →
      Transition.Run (loneStep job) (fun _ _ => True) (before, some .load) acts (after, none) →
      Xor (CompletedRun job claimed before after acts) (FailedRun job claimed before after) := by
  intro hclaim
  have hend : ∃ after, Transition.exec (loneStep 1) (oneJobDb claimedJob, some .load)
      (completingChoices ++ [.raise "disk full", .next, .next, .next]) = some (after, none) ∧
      after.jobEvents "job.completed" 1 = 1 ∧ after.jobEvents "job.failed" 1 = 1 :=
    ⟨_, rfl, rfl, rfl⟩
  obtain ⟨after, hafter, hcompleted, hfailed⟩ := hend
  rcases hclaim 1 claimedJob _ after _ rfl rfl (by decide) (Transition.run_of_exec _ _ _ hafter)
    with ⟨h, -⟩ | ⟨h, -⟩
  · have := h.failedEvents
    rw [hfailed] at this
    exact absurd this (by decide)
  · have := h.completedEvents
    rw [hcompleted] at this
    exact absurd this (by decide)

/-! ### Every run is over -/

/-- An upper bound on the steps left. -/
def Pc.rank : Pc → ℕ
  | .load => 30
  | .checkTenants _ _ _ => 29
  | .reportStart _ _ => 28
  | .statusRunning => 27
  | .materialize => 26
  | .parse => 25
  | .storeText _ => 24
  | .checkParsed => 23
  | .extract _ stages => 14 + 2 * stages.length
  | .report _ _ stages => 14 + 2 * stages.length + 1
  | .checkExtracted _ => 13
  | .complete _ _ => 12
  | .finalize false _ => 12
  | .statusCompleted => 11
  | .statusIdle false => 11
  | .refresh _ _ => 10
  | .finalize true _ => 9
  | .statusIdle true => 8
  | .fail _ _ _ => 9
  | .statusFailed => 8
  | .missing _ => 2
  | .missingStatus => 1

theorem rank_lt {job : ℕ} {db db' : Database} {stored : ExtractionJob} {pc pc' : Pc}
    {act : WorkerAct} (h : ProcessMove job db stored pc act db' (some pc')) :
    pc'.rank < pc.rank := by
  cases h
  case raise msg hmay => cases pc <;> simp [Pc.mayRaise] at hmay <;> simp [Pc.rank] <;> omega
  case beginReport loaded stage stages => simp only [Pc.rank, List.length_cons]; omega
  case finalize handled committed => cases handled <;> simp [Pc.rank]
  all_goals simp [Pc.rank, executionStages]

/-- **No run takes more steps than the rank of its first point.** -/
theorem length_le_of_run {job : ℕ} {acts : List WorkerAct} : ∀ {db : Database} {pc : Pc}
    {t : Database × Option Pc},
    Transition.Run (loneStep job) (fun _ _ => True) (db, some pc) acts t →
      acts.length ≤ pc.rank + 1 := by
  induction acts with
  | nil => intro db pc t _; exact Nat.zero_le _
  | cons act acts ih =>
    intro db pc t h
    cases h with
    | @cons _ v _ _ _ hstep _ hrest =>
      obtain ⟨_, stored, hpc, hget, hmove⟩ := loneStep_cases hstep
      obtain rfl := Option.some.inj hpc
      obtain ⟨db', pc'⟩ := v
      cases pc' with
      | some pc' =>
        have hlen := ih hrest
        have hrank := rank_lt hmove
        simp only [List.length_cons]
        omega
      | none =>
        cases hrest with
        | nil => simp
        | cons hstep' => simp [loneStep] at hstep'

/-- **No point is stuck**: as long as the job is there, some step can be taken. -/
theorem exists_step {job : ℕ} {db : Database} {stored : ExtractionJob}
    (hget : db.extractionJobs.get job = some stored) (pc : Pc) :
    ∃ act t, loneStep job (db, some pc) act = some t := by
  have hstep : ∀ act, loneStep job (db, some pc) act = stepFrom job stored db pc act := by
    intro act
    simp [loneStep, processStep, hget]
  simp only [hstep]
  cases pc with
  | parse => exact ⟨.parsed "", _, rfl⟩
  | extract loaded stages =>
    cases stages with
    | nil => exact ⟨.raise "", _, rfl⟩
    | cons stage stages => exact ⟨.next, _, rfl⟩
  -- The database answers one way or the other.
  | load =>
    refine ⟨.next, ?_⟩
    simp only [stepFrom]
    split <;> exact ⟨_, rfl⟩
  | checkTenants =>
    refine ⟨.next, ?_⟩
    simp only [stepFrom]
    split <;> exact ⟨_, rfl⟩
  | checkParsed | checkExtracted | refresh =>
    refine ⟨.next, ?_⟩
    simp only [stepFrom]
    split <;> exact ⟨_, rfl⟩
  | _ => exact ⟨.next, _, rfl⟩

end ExtractFlow
