import ExtractFlow.Lib.Transition
import ExtractFlow.Executor
import ExtractFlow.Exports
import ExtractFlow.Worker

/-!
# The life of a result

Worker completions, reviews and exports, one after the other, on one database
and one exports root: a completion stores what `execute_extraction` returned, a
review rewrites it, and an export writes a file of it and records the hash.

What providers answer, which payloads reviewers send and what the clock reads is
part of the action; the clock does not run backwards.

## Main definitions

* `FlowConfig`, `FlowState`, `FlowAct`, `flowStep` — the system.
* `FlowMove` — its steps, one constructor each.

## Main results

* `flowMove_of_step` — `flowStep` takes only these steps.
* `FlowMove.results` — where the stored results of a state come from.
* `FlowMove.exports` — where its export records come from.
-/

namespace ExtractFlow

open Transition

/-! ### The system -/

/-- What stays the same during a run: the libraries, the deployment, and where exports are kept. -/
structure FlowConfig where
  world : ExtractionWorld
  deployment : DeploymentSettings
  backend : StorageBackend
  lib : ExportLibrary

/-- The database, the exports, and the time of the last review or export. -/
structure FlowState where
  db : Database
  files : ExportFiles := {}
  clock : UtcTime := .epoch

/-- A completion, a review or an export, with what it gets from outside. -/
inductive FlowAct where
  /-- A worker completes the job `job`, whose document was parsed to `text`; the
  providers answer `run`. -/
  | complete (job : ℕ) (documentPath text : String) (run : AdapterRun)
  /-- A request of `review_result`. -/
  | review (resultId : ℕ) (payload : ReviewEditPayload) (now : UtcTime)
  /-- A request of `export_result_endpoint`. -/
  | exportResult (resultId : ℕ) (format : ExportFormat) (reviewer : Option String) (now : UtcTime)

/-- The completion of a job: its extraction, stored. -/
def completeJob (cfg : FlowConfig) (s : FlowState) (job : ℕ) (documentPath text : String)
    (run : AdapterRun) : Option FlowState :=
  (s.db.extractionJobs.get job).bind fun row =>
    (s.db.templateVersions.get row.templateVersionId).bind fun version =>
      match executeExtraction { cfg.world with run := run } cfg.deployment documentPath
          row.documentId version.definition row.providerOverride (some text) with
      | .ok summary => some { s with db := s.db.commitCompletion job row row summary }
      | .error _ => none

/-- A review of the result as it is stored. -/
def reviewStored (cfg : FlowConfig) (s : FlowState) (resultId : ℕ)
    (payload : ReviewEditPayload) (now : UtcTime) : Option FlowState :=
  (s.db.extractionResults.get resultId).bind fun row =>
    match applyReviewEdits cfg.world.rt s.db resultId row payload now with
    | .ok db => some { s with db := db, clock := now }
    | .error _ => none

/-- An export of the result as it is stored. -/
def exportStored (cfg : FlowConfig) (s : FlowState) (resultId : ℕ) (format : ExportFormat)
    (reviewer : Option String) (now : UtcTime) : Option FlowState :=
  (s.db.extractionResults.get resultId).bind fun row =>
    match exportResult cfg.backend cfg.lib s.db s.files resultId row format reviewer now with
    | .ok (db, files) => some { db := db, files := files, clock := now }
    | .error _ => none

/-- One step of the system; what happened before the last reading of the clock is refused. -/
def flowStep (cfg : FlowConfig) (s : FlowState) : FlowAct → Option FlowState
  | .complete job documentPath text run => completeJob cfg s job documentPath text run
  | .review resultId payload now =>
      if s.clock ≤ now then reviewStored cfg s resultId payload now else none
  | .exportResult resultId format reviewer now =>
      if s.clock ≤ now then exportStored cfg s resultId format reviewer now else none

theorem flowStep_review {cfg : FlowConfig} {s : FlowState} {resultId : ℕ}
    {payload : ReviewEditPayload} {now : UtcTime} (hclock : s.clock ≤ now) :
    flowStep cfg s (.review resultId payload now) = reviewStored cfg s resultId payload now :=
  if_pos hclock

theorem flowStep_exportResult {cfg : FlowConfig} {s : FlowState} {resultId : ℕ}
    {format : ExportFormat} {reviewer : Option String} {now : UtcTime} (hclock : s.clock ≤ now) :
    flowStep cfg s (.exportResult resultId format reviewer now) =
      exportStored cfg s resultId format reviewer now :=
  if_pos hclock

/-! ### The steps -/

/-- The steps of the system, with what each wrote and what it was computed from. -/
inductive FlowMove (cfg : FlowConfig) (s : FlowState) : FlowAct → FlowState → Prop
  | complete {job : ℕ} {documentPath text : String} {run : AdapterRun} {row : ExtractionJob}
      {version : TemplateVersion} {summary : ExtractionValidationSummary} :
      s.db.extractionJobs.get job = some row →
      executeExtraction { cfg.world with run := run } cfg.deployment documentPath row.documentId
          version.definition row.providerOverride (some text) = .ok summary →
      FlowMove cfg s (.complete job documentPath text run)
        { s with db := s.db.commitCompletion job row row summary }
  | review {resultId : ℕ} {payload : ReviewEditPayload} {now : UtcTime} {row : ExtractionResult}
      {summary : ExtractionValidationSummary} {rows : List ReviewEdit} :
      s.db.extractionResults.get resultId = some row →
      reviewOutcome cfg.world.rt s.db resultId row payload now = .ok (summary, rows) →
      FlowMove cfg s (.review resultId payload now)
        { s with db := s.db.commitReview resultId row payload summary rows, clock := now }
  | exportResult {resultId : ℕ} {format : ExportFormat} {reviewer : Option String} {now : UtcTime}
      {row : ExtractionResult} {db : Database} {files : ExportFiles} :
      s.db.extractionResults.get resultId = some row →
      exportResult cfg.backend cfg.lib s.db s.files resultId row format reviewer now =
        .ok (db, files) →
      FlowMove cfg s (.exportResult resultId format reviewer now)
        { db := db, files := files, clock := now }

/-- `flowStep` takes only these steps, each on rows that are stored. -/
theorem flowMove_of_step {cfg : FlowConfig} {s t : FlowState} {act : FlowAct}
    (h : flowStep cfg s act = some t) : FlowMove cfg s act t := by
  cases act with
  | complete job documentPath text run =>
    obtain ⟨row, hrow, h⟩ := Option.bind_eq_some_iff.mp h
    obtain ⟨version, -, h⟩ := Option.bind_eq_some_iff.mp h
    split at h
    · next summary hexecute =>
      obtain rfl := Option.some.inj h
      exact .complete hrow hexecute
    · cases h
  | review resultId payload now =>
    rw [flowStep] at h
    split at h
    · obtain ⟨row, hrow, h⟩ := Option.bind_eq_some_iff.mp h
      split at h
      · next db hreview =>
        obtain rfl := Option.some.inj h
        -- the review is its outcome, committed
        obtain ⟨⟨summary, rows⟩, hout, hcommit⟩ := Failing.bind_ok.mp hreview
        obtain rfl := Except.ok.inj hcommit
        exact .review hrow hout
      · cases h
    · cases h
  | exportResult resultId format reviewer now =>
    rw [flowStep] at h
    split at h
    · obtain ⟨row, hrow, h⟩ := Option.bind_eq_some_iff.mp h
      split at h
      · next db files hexport =>
        obtain rfl := Option.some.inj h
        exact .exportResult hrow hexport
      · cases h
    · cases h

/-! ### Where results and records come from -/

section Origins

variable {cfg : FlowConfig} {s t : FlowState} {act : FlowAct}

/-- A completion creates no export record. -/
theorem commitCompletion_exports {db : Database} {job : ℕ} {stored loaded : ExtractionJob}
    {summary : ExtractionValidationSummary} :
    (db.commitCompletion job stored loaded summary).exports = db.exports := by
  change (db.saveResult job stored.tenantId summary).1.exports = db.exports
  unfold Database.saveResult
  split <;> rfl

/-- The results after a completion: those before, and one with its summary. -/
theorem commitCompletion_results {db : Database} {job : ℕ} {stored loaded : ExtractionJob}
    {summary : ExtractionValidationSummary} {id : ℕ} {row : ExtractionResult}
    (h : (db.commitCompletion job stored loaded summary).extractionResults.get id = some row) :
    db.extractionResults.get id = some row ∨ row.resultJson = summary := by
  have h : (db.saveResult job stored.tenantId summary).1.extractionResults.get id = some row := h
  unfold Database.saveResult at h
  split at h
  · by_cases hid : id = db.extractionResults.nextId
    · subst hid
      rw [Table.get_insert_self] at h
      exact Or.inr (Option.some.inj h ▸ rfl)
    · rw [Table.get_insert_ne _ _ hid] at h
      exact Or.inl h
  · next id' _ _ _ =>
    by_cases hid : id = id'
    · subst hid
      rw [Table.get_update_self] at h
      obtain ⟨row', -, rfl⟩ := Option.map_eq_some_iff.mp h
      exact Or.inr rfl
    · rw [Table.get_update_ne _ _ hid] at h
      exact Or.inl h

/-- **Where the stored results come from**: from the state before, from an
extraction, or from a review. -/
theorem FlowMove.results (h : FlowMove cfg s act t) {id : ℕ} {row : ExtractionResult}
    (hrow : t.db.extractionResults.get id = some row) :
    s.db.extractionResults.get id = some row ∨
      (∃ w documentPath documentId template override text,
        executeExtraction w cfg.deployment documentPath documentId template override text =
          .ok row.resultJson) ∨
      ∃ resultId loaded payload now rows,
        reviewOutcome cfg.world.rt s.db resultId loaded payload now =
          .ok (row.resultJson, rows) := by
  cases h with
  | complete _ hexecute =>
    rcases commitCompletion_results hrow with hrow | hsummary
    · exact Or.inl hrow
    · exact Or.inr (Or.inl ⟨_, _, _, _, _, _, hsummary ▸ hexecute⟩)
  | @review resultId payload now loaded summary rows _ hout =>
    by_cases hid : id = resultId
    · subst hid
      simp only [Database.commitReview, Table.get_update_self] at hrow
      obtain ⟨row', -, rfl⟩ := Option.map_eq_some_iff.mp hrow
      exact Or.inr (Or.inr ⟨_, _, _, _, _, hout⟩)
    · simp only [Database.commitReview, Table.get_update_ne _ _ hid] at hrow
      exact Or.inl hrow
  | @exportResult _ _ _ _ _ db files _ hexport =>
    obtain ⟨-, bytes, -, rfl⟩ := exportResult_spec hexport
    exact Or.inl hrow

/-- **Where the export records come from**: from the state before, or from an
export of the result as it is stored. -/
theorem FlowMove.exports (h : FlowMove cfg s act t) {k : ℕ} {record : ExportRecord}
    (hrecord : t.db.exports.get k = some record) :
    s.db.exports.get k = some record ∨
      ∃ row, s.db.extractionResults.get record.resultId = some row ∧
        record.tenantId = row.tenantId ∧ assertExportAllowed s.db row = .ok () := by
  cases h with
  | complete _ _ => exact Or.inl (commitCompletion_exports ▸ hrecord)
  | review _ _ => exact Or.inl hrecord
  | @exportResult resultId _ _ _ row db files hrow hexport =>
    obtain ⟨hgate, bytes, -, rfl⟩ := exportResult_spec hexport
    simp only [Database.commitExport] at hrecord
    by_cases hk : k = s.db.exports.nextId
    · subst hk
      rw [Table.get_insert_self] at hrecord
      obtain rfl := Option.some.inj hrecord
      exact Or.inr ⟨row, hrow, rfl, hgate⟩
    · rw [Table.get_insert_ne _ _ hk] at hrecord
      exact Or.inl hrecord

end Origins

end ExtractFlow
