import ExtractFlow.Lib.Table
import ExtractFlow.Models

/-!
# The database

The rows of `backend/app/models/entities.py` (the worker's `models.py` maps the
same tables), and the database as one record of tables.  Columns no modelled
function reads — `claimed_at`, `updated_at`, the content type of an upload —
are left out.

## Main definitions

* `JobStatus`, `JobStage`, `jobStageProgressPct` — the job columns' values.
* `Document`, `Template`, `TemplateVersion`, `LangExtractFeedbackDecision`, `ExtractionJob`,
  `ExtractionResult`, `ReviewEdit`, `ExportRecord`, `AuditEvent`, `Setting`.
* `Database` — the tables.
-/

namespace ExtractFlow

/-! ### Jobs -/

/-- The state of a job, as the queue sees it. -/
inductive JobStatus where
  | queued | running | completed | failed | cancelled
  deriving DecidableEq, Repr, Inhabited

/-- How far the worker is with a job; it is shown to the user only. -/
inductive JobStage where
  | queued | parsing | extracting | validating | calculating | completed | failed
  /-- Written by `cancel_job` only; it has no entry in `JOB_STAGE_PROGRESS_PCT`. -/
  | cancelled
  deriving DecidableEq, Repr, Inhabited

/-- `JOB_STAGE_PROGRESS_PCT.get(stage)`: the percentage that a stage is shown as, if it has one. -/
def jobStageProgressPct : JobStage → Option ℕ
  | .queued => some 0
  | .parsing => some 15
  | .extracting => some 45
  | .validating => some 70
  | .calculating => some 85
  | .completed => some 100
  | .failed => some 0
  | .cancelled => none

/-- A job: one document to be extracted with one template version. -/
structure ExtractionJob where
  tenantId : String := "default"
  documentId : ℕ
  templateVersionId : ℕ
  providerOverride : Option LLMProviderSettings := none
  status : JobStatus := .queued
  errorMessage : Option String := none
  /-- The claiming worker's `host:pid`, as the index of the worker. -/
  workerId : Option ℕ := none
  attemptCount : ℕ := 0
  progressStage : Option JobStage := none
  progressPct : ℕ := 0
  createdAt : ℕ := 0
  deriving Repr, Inhabited

/-- Write back a job a session loaded as `loaded` and changed to `new`. -/
def ExtractionJob.flush (loaded new stored : ExtractionJob) : ExtractionJob :=
  { stored with
    status := writeBack loaded.status new.status stored.status
    errorMessage := writeBack loaded.errorMessage new.errorMessage stored.errorMessage
    workerId := writeBack loaded.workerId new.workerId stored.workerId
    attemptCount := writeBack loaded.attemptCount new.attemptCount stored.attemptCount
    progressStage := writeBack loaded.progressStage new.progressStage stored.progressStage
    progressPct := writeBack loaded.progressPct new.progressPct stored.progressPct }

/-! ### Documents, templates, results -/

inductive DocumentStatus where
  | uploaded | queued | processing | completed | failed
  deriving DecidableEq, Repr, Inhabited

/-- An uploaded document, with the references under which the file and its parsed text
are stored. -/
structure Document where
  tenantId : String := "default"
  originalFilename : String
  storedPath : String
  parsedTextPath : Option String := none
  status : DocumentStatus := .uploaded
  deriving Repr, Inhabited

structure Template where
  tenantId : String := "default"
  name : String
  description : String := ""
  documentType : String
  deriving Repr, Inhabited

/-- A version of a template. Versions are added, and none is ever rewritten. -/
structure TemplateVersion where
  tenantId : String := "default"
  templateId : ℕ
  version : String
  definition : ExtractionTemplate
  createdAt : ℕ := 0
  deriving Repr, Inhabited

structure LangExtractFeedbackDecision where
  tenantId : String := "default"
  templateVersionId : ℕ
  suggestionKey : String
  dismissed : Bool := true
  deriving Repr, Inhabited

inductive ReviewStatus where
  | pending | reviewed
  deriving DecidableEq, Repr, Inhabited

/-- The result of a job, which its reviews edit in place. -/
structure ExtractionResult where
  tenantId : String := "default"
  jobId : ℕ
  resultJson : ExtractionValidationSummary
  reviewStatus : ReviewStatus := .pending
  deriving Repr, Inhabited

/-- One edit of a review, kept with the value that it replaced. -/
structure ReviewEdit where
  tenantId : String := "default"
  resultId : ℕ
  reviewer : String := "local-user"
  fieldName : String
  previousValue : PyVal
  newValue : PyVal
  reason : String := ""
  deriving Repr, Inhabited

/-! ### Exports, audit events, settings -/

inductive ExportFormat where
  | json | csv | excel
  deriving DecidableEq, Repr, Inhabited

/-- An export that was written, with the checksum of what was written then. -/
structure ExportRecord where
  tenantId : String := "default"
  resultId : ℕ
  exportFormat : ExportFormat
  filePath : String
  contentSha256 : String
  exportedAt : UtcTime
  reviewer : String
  templateVersionId : Option ℕ
  deriving Repr, Inhabited

/-- An entry of the audit trail: who did what to which object. -/
structure AuditEvent where
  tenantId : String := "default"
  actor : String := "system"
  action : String
  objectType : String
  objectId : ℕ
  metadata : List (String × PyVal) := []
  deriving Repr, Inhabited

/-- A setting of the workspace under its key; those of one tenant carry its name in the key. -/
structure Setting where
  key : String
  value : PyVal
  deriving Repr, Inhabited

/-! ### The database -/

/-- The tables. A key of one may name a row of another, but the database itself does not check that
the row is there. -/
structure Database where
  documents : Table Document := .empty
  templates : Table Template := .empty
  templateVersions : Table TemplateVersion := .empty
  extractionJobs : Table ExtractionJob := .empty
  extractionResults : Table ExtractionResult := .empty
  reviewEdits : Table ReviewEdit := .empty
  exports : Table ExportRecord := .empty
  feedbackDecisions : Table LangExtractFeedbackDecision := .empty
  auditEvents : Table AuditEvent := .empty
  settings : Table Setting := .empty
  deriving Repr, Inhabited

/-- The results of a job.  The column is unique, so there is at most one. -/
def Database.resultsOf (db : Database) (job : ℕ) : List (ℕ × ExtractionResult) :=
  db.extractionResults.select fun r => r.jobId == job

/-! ### A database with one job -/

/-- One document and one template version, with a job on them. -/
def oneJobDb (job : ExtractionJob) : Database where
  documents := .ofRows [(1, { originalFilename := "a.txt", storedPath := "uploads/a.txt" })]
  templateVersions := .ofRows
    [(1, { templateId := 1, version := "1.0.0",
           definition := { templateName := "Invoice", documentType := "invoice" } })]
  extractionJobs := .ofRows [(1, job)] (by simp)

/-- The job after `create_job`. -/
def queuedJob : ExtractionJob where
  documentId := 1
  templateVersionId := 1
  progressStage := some .queued

/-- The summary of an extraction without fields. -/
def emptySummary : ExtractionValidationSummary where
  documentId := "1"
  documentType := "invoice"
  templateName := "Invoice"
  templateVersion := "1.0.0"
  llmProvider := {}
  extractionStatus := "completed"
  extractedFields := []

end ExtractFlow
