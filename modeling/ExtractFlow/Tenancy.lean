import ExtractFlow.Exports
import ExtractFlow.JobQueue
import ExtractFlow.ReviewRaces

/-!
# The operations of a tenant

Every handler of the API takes the tenant it was called with and filters its
queries by it (`backend/app/api/routes.py`); a row it creates gets the tenant of
the row it found.  Two paths do not filter: the versions of a template
(`template.versions`), and the worker's reads by primary key.

The system: any number of workers and of requests of any tenants on one
database.  A request first reads the row it is about and commits later, whatever
was committed in between.  A request whose row is missing, or that fails a
check, ends without a write and has no step.

## Main definitions

* `Tenanted` — rows with a tenant; `findOwned`, `allOwned` — the filtered queries.
* `Database.listTemplates`, `Database.createTemplate`, `Database.createTemplateVersion`,
  `Database.uploadDocument`, `Database.setSuggestionDismissed`.
* `Query`, `Database.answer` — the read requests.
* `Operation`, `Call` — what a request asks for, and the request with the row it read.
* `TenantState`, `TenantAct`, `respond`, `tenantStep` — the system, with its responses.
-/

namespace ExtractFlow

/-! ### Rows with a tenant -/

/-- A table with a column `tenant_id`. All tables of the API have one. -/
class Tenanted (ρ : Type) where
  tenantOf : ρ → String

open Tenanted (tenantOf)

instance : Tenanted Document := ⟨Document.tenantId⟩
instance : Tenanted Template := ⟨Template.tenantId⟩
instance : Tenanted TemplateVersion := ⟨TemplateVersion.tenantId⟩
instance : Tenanted ExtractionJob := ⟨ExtractionJob.tenantId⟩
instance : Tenanted ExtractionResult := ⟨ExtractionResult.tenantId⟩
instance : Tenanted ReviewEdit := ⟨ReviewEdit.tenantId⟩
instance : Tenanted ExportRecord := ⟨ExportRecord.tenantId⟩
instance : Tenanted LangExtractFeedbackDecision := ⟨LangExtractFeedbackDecision.tenantId⟩
instance : Tenanted AuditEvent := ⟨AuditEvent.tenantId⟩

/-- `query(T).filter(T.id == id, T.tenant_id == tenant).first()`: a row of another tenant is as good
as missing. -/
def findOwned {ρ : Type} [Tenanted ρ] (tenant : String) (t : Table ρ) (id : ℕ) : Option ρ :=
  (t.get id).filter fun r => tenantOf r == tenant

/-- `query(T).filter(T.tenant_id == tenant, ...).all()`, with whatever further conditions the route
gives. -/
def allOwned {ρ : Type} [Tenanted ρ] (tenant : String) (t : Table ρ)
    (also : ρ → Bool := fun _ => true) : List (ℕ × ρ) :=
  t.select fun r => tenantOf r == tenant && also r

/-- A row that a response is made of, with its primary key, whatever table it is from. -/
inductive TenantRow where
  | document (id : ℕ) (row : Document)
  | template (id : ℕ) (row : Template)
  | templateVersion (id : ℕ) (row : TemplateVersion)
  | job (id : ℕ) (row : ExtractionJob)
  | result (id : ℕ) (row : ExtractionResult)
  | reviewEdit (id : ℕ) (row : ReviewEdit)
  | exportRecord (id : ℕ) (row : ExportRecord)
  | feedbackDecision (id : ℕ) (row : LangExtractFeedbackDecision)
  | auditEvent (id : ℕ) (row : AuditEvent)

/-- The tenant of a row. -/
def TenantRow.tenantId : TenantRow → String
  | .document _ row => row.tenantId
  | .template _ row => row.tenantId
  | .templateVersion _ row => row.tenantId
  | .job _ row => row.tenantId
  | .result _ row => row.tenantId
  | .reviewEdit _ row => row.tenantId
  | .exportRecord _ row => row.tenantId
  | .feedbackDecision _ row => row.tenantId
  | .auditEvent _ row => row.tenantId

/-! ### Templates -/

/-- `template.versions`: the versions by their foreign key, of whatever tenant. -/
def Database.versionsOf (db : Database) (templateId : ℕ) : List (ℕ × TemplateVersion) :=
  db.templateVersions.select fun v => v.templateId == templateId

/-- `max(template.versions, key=created_at)`: the first of the latest. -/
def latestVersion : List (ℕ × TemplateVersion) → Option (ℕ × TemplateVersion)
  | [] => none
  | first :: rest => some <|
      rest.foldl (fun best v => if best.2.createdAt < v.2.createdAt then v else best) first

/-- An entry of the list of `list_templates`: a template and the latest of its versions. -/
structure TemplateEntry where
  id : ℕ
  template : Template
  latest : Option (ℕ × TemplateVersion)

def TemplateEntry.rows (e : TemplateEntry) : List TenantRow :=
  .template e.id e.template :: e.latest.toList.map fun v => .templateVersion v.1 v.2

/-- `list_templates`: the templates of the tenant. Their versions come through the relationship,
without a filter of their own. -/
def Database.listTemplates (db : Database) (tenant : String) : List TemplateEntry :=
  (allOwned tenant db.templates).map fun t => ⟨t.1, t.2, latestVersion (db.versionsOf t.1)⟩

/-- `create_template`: the template and its first version, both with the tenant of the request. -/
def Database.createTemplate (db : Database) (name description documentType : String)
    (definition : ExtractionTemplate) (tenant : String) (createdAt : ℕ) : Database :=
  { db with
    templates := db.templates.insert
      { tenantId := tenant, name := name, description := description,
        documentType := documentType }
    templateVersions := db.templateVersions.insert
      { tenantId := tenant, templateId := db.templates.nextId,
        version := definition.templateVersion, definition := definition,
        createdAt := createdAt } }

/-- `create_template_version`: a version with the tenant of the template it was found for. -/
def Database.createTemplateVersion (db : Database) (templateId : ℕ) (template : Template)
    (definition : ExtractionTemplate) (createdAt : ℕ) : Database :=
  { db with
    templateVersions := db.templateVersions.insert
      { tenantId := template.tenantId, templateId := templateId,
        version := definition.templateVersion, definition := definition,
        createdAt := createdAt } }

/-! ### Uploads -/

/-- `upload_document`, once the file is stored at `reference`: the row of the document and the event
of the upload. -/
def Database.uploadDocument (db : Database) (tenant actor filename contentType reference : String) :
    Database :=
  let id := db.documents.nextId
  { db with
    documents := db.documents.insert
      { tenantId := tenant, originalFilename := filename, storedPath := reference }
    auditEvents := db.auditEvents.insert
      { tenantId := tenant, actor := actor, action := "document.uploaded",
        objectType := "document", objectId := id,
        metadata := [("document_id", .int id), ("original_filename", .str filename),
          ("content_type", .str contentType)] } }

/-! ### Feedback suggestions -/

/-- The rows `list_langextract_feedback_suggestions` builds its suggestions from: the
results of the version with their documents, and their edits. -/
def Database.feedbackRows (db : Database) (versionId : ℕ) (version : TemplateVersion) :
    List TenantRow :=
  let settings := version.definition.llmProviderSettings
  if usesLangextractProvider settings.providerType settings.apiStyle then
    let joined := (allOwned version.tenantId db.extractionResults).filterMap fun r =>
      (findOwned version.tenantId db.extractionJobs r.2.jobId).bind fun job =>
        if job.templateVersionId = versionId then
          (findOwned version.tenantId db.documents job.documentId).map fun document =>
            (r, job.documentId, document)
        else none
    let ids := joined.map fun row => row.1.1
    joined.flatMap (fun row => [.result row.1.1 row.1.2, .document row.2.1 row.2.2]) ++
      (allOwned version.tenantId db.reviewEdits fun e => e.resultId ∈ ids).map fun e =>
        .reviewEdit e.1 e.2
  else []

/-- `set_langextract_feedback_suggestion_dismissed`: the decision there is rewritten, or
one is added unless the unique constraint forbids it. -/
def Database.setSuggestionDismissed (db : Database) (versionId : ℕ) (version : TemplateVersion)
    (key : String) (dismissed : Bool) : Option (Database × ℕ) :=
  match allOwned version.tenantId db.feedbackDecisions fun d =>
      d.templateVersionId == versionId && d.suggestionKey == key with
  | (id, _) :: _ =>
      some ({ db with
        feedbackDecisions := db.feedbackDecisions.update id fun d =>
          { d with dismissed := dismissed } }, id)
  | [] =>
      if (db.feedbackDecisions.select fun d =>
          d.templateVersionId == versionId && d.suggestionKey == key).isEmpty then
        some ({ db with
          feedbackDecisions := db.feedbackDecisions.insert
            { tenantId := version.tenantId, templateVersionId := versionId,
              suggestionKey := key, dismissed := dismissed } },
          db.feedbackDecisions.nextId)
      else none

/-! ### Read requests -/

/-- What a tenant may ask to see, one constructor a read route. -/
inductive Query where
  | templates
  | templateVersions (templateId : ℕ)
  | suggestions (versionId : ℕ)
  | documents
  | document (id : ℕ)
  | jobs
  | jobResult (job : ℕ)
  | exports
  | exportRecord (id : ℕ)
  /-- With the filters of the request. -/
  | auditEvents (also : AuditEvent → Bool)

/-- The rows the response to a query is made of; none when it is a 404. -/
def Database.answer (db : Database) (tenant : String) : Query → List TenantRow
  | .templates => (db.listTemplates tenant).flatMap TemplateEntry.rows
  | .templateVersions templateId =>
      (allOwned tenant db.templateVersions fun v => v.templateId == templateId).map fun v =>
        .templateVersion v.1 v.2
  | .suggestions versionId =>
      match findOwned tenant db.templateVersions versionId with
      | some version => .templateVersion versionId version :: db.feedbackRows versionId version
      | none => []
  | .documents => (allOwned tenant db.documents).map fun d => .document d.1 d.2
  | .document id => (findOwned tenant db.documents id).toList.map (.document id)
  | .jobs => (allOwned tenant db.extractionJobs).map fun j => .job j.1 j.2
  | .jobResult job =>
      (allOwned tenant db.extractionResults fun r => r.jobId == job).head?.toList.map fun r =>
        .result r.1 r.2
  | .exports =>
      -- an entry shows the job of its result, when the tenant has the result
      (allOwned tenant db.exports).flatMap fun e => .exportRecord e.1 e.2 ::
        (findOwned tenant db.extractionResults e.2.resultId).toList.map (.result e.2.resultId)
  | .exportRecord id => (findOwned tenant db.exports id).toList.map (.exportRecord id)
  | .auditEvents also => (allOwned tenant db.auditEvents also).map fun e => .auditEvent e.1 e.2

/-! ### Requests in flight -/

/-- What a request asks for, with what its path and its body carry. -/
inductive Operation where
  | createTemplateVersion (templateId : ℕ) (definition : ExtractionTemplate)
  | review (resultId : ℕ) (payload : ReviewEditPayload)
  | exportResult (resultId : ℕ) (format : ExportFormat)
  | dismissSuggestion (versionId : ℕ) (key : String) (dismissed : Bool)

/-- A request that read the row it is about and has yet to commit. -/
inductive Call where
  | createTemplateVersion (templateId : ℕ) (template : Template) (definition : ExtractionTemplate)
  | review (request : ReviewRequest)
  | exportResult (resultId : ℕ) (loaded : ExtractionResult) (format : ExportFormat)
  | dismissSuggestion (versionId : ℕ) (version : TemplateVersion) (key : String)
      (dismissed : Bool)

/-- The row an operation is about, of the tenant; a 404 otherwise. -/
def Database.readCall (db : Database) (tenant : String) : Operation → Option Call
  | .createTemplateVersion templateId definition =>
      (findOwned tenant db.templates templateId).map fun template =>
        .createTemplateVersion templateId template definition
  | .review resultId payload =>
      if h : payload.isJson = true then
        (findOwned tenant db.extractionResults resultId).map fun loaded =>
          .review ⟨resultId, loaded, payload, h⟩
      else none
  | .exportResult resultId format =>
      (findOwned tenant db.extractionResults resultId).map fun loaded =>
        .exportResult resultId loaded format
  | .dismissSuggestion versionId key dismissed =>
      (findOwned tenant db.templateVersions versionId).map fun version =>
        .dismissSuggestion versionId version key dismissed

/-- What the requests take from the deployment and do not change. -/
structure TenantConfig where
  rt : Runtime
  backend : StorageBackend
  lib : ExportLibrary

/-- The commit of a request at a time, with the row its response shows after the
refresh. -/
def Database.commitCall (cfg : TenantConfig) (db : Database) (files : ExportFiles) (now : UtcTime)
    (createdAt : ℕ) : Call → Option (Database × ExportFiles × List TenantRow)
  | .createTemplateVersion templateId template definition =>
      let id := db.templateVersions.nextId
      let db := db.createTemplateVersion templateId template definition createdAt
      some (db, files, (db.templateVersions.get id).toList.map (.templateVersion id))
  | .review request =>
      match applyReviewEdits cfg.rt db request.resultId request.loaded request.payload now with
      | .ok db =>
          some (db, files,
            (db.extractionResults.get request.resultId).toList.map (.result request.resultId))
      | .error _ => none
  | .exportResult resultId loaded format =>
      let id := db.exports.nextId
      match exportResult cfg.backend cfg.lib db files resultId loaded format none now with
      | .ok (db, files) => some (db, files, (db.exports.get id).toList.map (.exportRecord id))
      | .error _ => none
  | .dismissSuggestion versionId version key dismissed =>
      (db.setSuggestionDismissed versionId version key dismissed).map fun p =>
        (p.1, files, (p.1.feedbackDecisions.get p.2).toList.map (.feedbackDecision p.2))

/-! ### The system -/

structure TenantState where
  /-- The database, the workers, and the retries and cancellations in flight. -/
  queue : QueueState := { db := {} }
  /-- The tenant each of those requests was called with. -/
  callers : ℕ → String := fun _ => ""
  /-- The other requests in flight, with the tenant each was called with. -/
  calls : ℕ → Option (String × Call) := fun _ => none
  files : ExportFiles := {}

/-- The database. -/
abbrev TenantState.db (s : TenantState) : Database := s.queue.db

def TenantState.setDb (s : TenantState) (db : Database) : TenantState :=
  { s with queue := { s.queue with db := db } }

inductive TenantAct where
  | worker (w : ℕ) (act : WorkerAct)
  /-- `create_job`, `retry_job` and `cancel_job_route`. -/
  | jobs (act : ApiAct)
  | createTemplate (tenant name description documentType : String)
      (definition : ExtractionTemplate) (createdAt : ℕ)
  | upload (tenant actor filename contentType reference : String)
  /-- Request `r` reads its row. -/
  | start (r : ℕ) (tenant : String) (operation : Operation)
  /-- Request `r` commits. -/
  | finish (r : ℕ) (now : UtcTime) (createdAt : ℕ)
  /-- Request `r` ends with an error response. -/
  | abandon (r : ℕ)
  | ask (tenant : String) (query : Query)

/-- The tenant an action of a request was called with; workers have none. -/
def TenantState.caller (s : TenantState) : TenantAct → Option String
  | .worker _ _ => none
  | .jobs (.createJob tenant _ _ _ _ _) => some tenant
  | .jobs (.readRetry _ tenant _) => some tenant
  | .jobs (.readCancel _ tenant _) => some tenant
  | .jobs (.commit r _) => some (s.callers r)
  | .jobs (.abandon r) => some (s.callers r)
  | .createTemplate tenant _ _ _ _ _ => some tenant
  | .upload tenant _ _ _ _ => some tenant
  | .start _ tenant _ => some tenant
  | .finish r _ _ => (s.calls r).map Prod.fst
  | .abandon r => (s.calls r).map Prod.fst
  | .ask tenant _ => some tenant

/-- The job a request responds with, if it responds now. -/
def QueueState.respondedJob (s : QueueState) : ApiAct → Option ℕ
  | .createJob _ _ _ _ _ _ => some s.db.extractionJobs.nextId
  | .commit r _ => (s.requests r).map Request.job
  | _ => none

/-- The tenants of the requests about jobs, after an action. -/
def TenantState.noteCaller (s : TenantState) : ApiAct → ℕ → String
  | .readRetry r tenant _ => Function.update s.callers r tenant
  | .readCancel r tenant _ => Function.update s.callers r tenant
  | _ => s.callers

/-- One step of the system, with the rows of the response it sends. -/
def respond (cfg : TenantConfig) (s : TenantState) :
    TenantAct → Option (TenantState × List TenantRow)
  | .worker w act => (workerStep s.queue w act).map fun queue => ({ s with queue := queue }, [])
  | .jobs act => (apiStep s.queue act).map fun queue =>
      ({ s with queue := queue, callers := s.noteCaller act },
        (s.queue.respondedJob act).toList.flatMap fun job =>
          (queue.db.extractionJobs.get job).toList.map (.job job))
  | .createTemplate tenant name description documentType definition createdAt =>
      if (allOwned tenant s.db.templates fun t => t.name == name).isEmpty then
        let db := s.db.createTemplate name description documentType definition tenant createdAt
        -- the response is the last entry of the list
        some (s.setDb db, (db.listTemplates tenant).getLast?.toList.flatMap TemplateEntry.rows)
      else none
  | .upload tenant actor filename contentType reference =>
      if filename = "" then none
      else
        let id := s.db.documents.nextId
        let db := s.db.uploadDocument tenant actor filename contentType reference
        some (s.setDb db, (db.documents.get id).toList.map (.document id))
  | .start r tenant operation =>
      match s.calls r, s.db.readCall tenant operation with
      | none, some call =>
          some ({ s with calls := Function.update s.calls r (some (tenant, call)) }, [])
      | _, _ => none
  | .finish r now createdAt =>
      (s.calls r).bind fun p =>
        (s.db.commitCall cfg s.files now createdAt p.2).map fun out =>
          ({ s.setDb out.1 with files := out.2.1, calls := Function.update s.calls r none }, out.2.2)
  | .abandon r => some ({ s with calls := Function.update s.calls r none }, [])
  | .ask tenant query => some (s, s.db.answer tenant query)

/-- One step of the system, without what the request responds. -/
def tenantStep (cfg : TenantConfig) (s : TenantState) (act : TenantAct) : Option TenantState :=
  (respond cfg s act).map Prod.fst

end ExtractFlow
