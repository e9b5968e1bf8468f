import ExtractFlow.Lib.ForeignKeys
import ExtractFlow.Tenancy

/-!
# The tenant chain

Every row has the tenant of the row it refers to: a version that of its template,
a job that of its document and of its version, a result that of its job, an edit
and an export that of their result.  No operation changes the tenant or a foreign
key of a row, so the chain survives every write whose own row is linked, and what
a request read stays a row of its tenant until it commits.

With the chain the paths without a filter are safe: the versions of a tenant's
template are the tenant's, and the worker finds a job, a document and a version
of one tenant.

## Main definitions

* `TenantChain` — the links.
* `WritesOnly tenant db db'` — every row that differs is a row of the tenant.
* `TenantChange` — a write of a tenant, that keeps the chain.
* `TenantInv` — the invariant, with what workers and requests hold loaded.

## Main results

* `TenantChange.trans` and the writes of each table.
* `tenantInv_step` — every step keeps the invariant and writes the caller's rows.
* `tenant_chain_of_run` — the chain, and the confinement of responses and writes.
-/

namespace ExtractFlow

open Transition Table
open Tenanted (tenantOf)

/-! ### The chain -/

/-- **Every row has the tenant of the row it refers to**, along each of the seven foreign keys. -/
structure TenantChain (db : Database) : Prop where
  templateVersions : Linked TemplateVersion.templateId TemplateVersion.tenantId Template.tenantId
    db.templateVersions db.templates
  jobDocuments : Linked ExtractionJob.documentId ExtractionJob.tenantId Document.tenantId
    db.extractionJobs db.documents
  jobVersions : Linked ExtractionJob.templateVersionId ExtractionJob.tenantId
    TemplateVersion.tenantId db.extractionJobs db.templateVersions
  results : Linked ExtractionResult.jobId ExtractionResult.tenantId ExtractionJob.tenantId
    db.extractionResults db.extractionJobs
  reviewEdits : Linked ReviewEdit.resultId ReviewEdit.tenantId ExtractionResult.tenantId
    db.reviewEdits db.extractionResults
  exports : Linked ExportRecord.resultId ExportRecord.tenantId ExtractionResult.tenantId
    db.exports db.extractionResults
  feedbackDecisions : Linked LangExtractFeedbackDecision.templateVersionId
    LangExtractFeedbackDecision.tenantId TemplateVersion.tenantId db.feedbackDecisions
    db.templateVersions

/-- The database without rows. -/
theorem tenantChain_empty : TenantChain {} :=
  ⟨linked_empty _ _ _ _, linked_empty _ _ _ _, linked_empty _ _ _ _, linked_empty _ _ _ _,
    linked_empty _ _ _ _, linked_empty _ _ _ _, linked_empty _ _ _ _⟩

/-- The rows that others refer to stay where they are and keep their tenants, so links into them
survive. -/
structure KeepsTenants (db db' : Database) : Prop where
  documents : Keeps Document.tenantId db.documents db'.documents
  templates : Keeps Template.tenantId db.templates db'.templates
  templateVersions : Keeps TemplateVersion.tenantId db.templateVersions db'.templateVersions
  jobs : Keeps ExtractionJob.tenantId db.extractionJobs db'.extractionJobs
  results : Keeps ExtractionResult.tenantId db.extractionResults db'.extractionResults

theorem KeepsTenants.refl (db : Database) : KeepsTenants db db :=
  ⟨.refl _ _, .refl _ _, .refl _ _, .refl _ _, .refl _ _⟩

theorem KeepsTenants.trans {db db' db'' : Database} (h : KeepsTenants db db')
    (h' : KeepsTenants db' db'') : KeepsTenants db db'' :=
  ⟨h.documents.trans h'.documents, h.templates.trans h'.templates,
    h.templateVersions.trans h'.templateVersions, h.jobs.trans h'.jobs,
    h.results.trans h'.results⟩

/-- The rows of `t` that differ in `t'` are rows of the tenant. -/
abbrev OnlyOf {ρ : Type} [Tenanted ρ] (tenant : String) (t t' : Table ρ) : Prop :=
  ChangesOnly (fun r => tenantOf r = tenant) t t'

/-- **Every row that differs is a row of the tenant**, before and after. -/
structure WritesOnly (tenant : String) (db db' : Database) : Prop where
  documents : OnlyOf tenant db.documents db'.documents
  templates : OnlyOf tenant db.templates db'.templates
  templateVersions : OnlyOf tenant db.templateVersions db'.templateVersions
  jobs : OnlyOf tenant db.extractionJobs db'.extractionJobs
  results : OnlyOf tenant db.extractionResults db'.extractionResults
  reviewEdits : OnlyOf tenant db.reviewEdits db'.reviewEdits
  exports : OnlyOf tenant db.exports db'.exports
  feedbackDecisions : OnlyOf tenant db.feedbackDecisions db'.feedbackDecisions
  auditEvents : OnlyOf tenant db.auditEvents db'.auditEvents

theorem WritesOnly.refl (tenant : String) (db : Database) : WritesOnly tenant db db :=
  ⟨.refl _ _, .refl _ _, .refl _ _, .refl _ _, .refl _ _, .refl _ _, .refl _ _, .refl _ _,
    .refl _ _⟩

theorem WritesOnly.trans {tenant : String} {db db' db'' : Database}
    (h : WritesOnly tenant db db') (h' : WritesOnly tenant db' db'') :
    WritesOnly tenant db db'' :=
  ⟨h.documents.trans h'.documents, h.templates.trans h'.templates,
    h.templateVersions.trans h'.templateVersions, h.jobs.trans h'.jobs,
    h.results.trans h'.results, h.reviewEdits.trans h'.reviewEdits, h.exports.trans h'.exports,
    h.feedbackDecisions.trans h'.feedbackDecisions, h.auditEvents.trans h'.auditEvents⟩

/-! ### The writes of a tenant -/

/-- A write of rows of the tenant that keeps the chain and what others refer to. -/
structure TenantChange (tenant : String) (db db' : Database) : Prop where
  chain : TenantChain db'
  keeps : KeepsTenants db db'
  writes : WritesOnly tenant db db'

/-- The row of a key is there, and a row of the tenant. -/
def Owned {ρ : Type} [Tenanted ρ] (tenant : String) (t : Table ρ) (id : ℕ) : Prop :=
  ∃ r, t.get id = some r ∧ tenantOf r = tenant

theorem owned_of_findOwned {ρ : Type} [Tenanted ρ] {tenant : String} {t : Table ρ} {id : ℕ} {r : ρ}
    (h : findOwned tenant t id = some r) : t.get id = some r ∧ tenantOf r = tenant := by
  obtain ⟨hget, htenant⟩ := Option.filter_eq_some_iff.mp h
  exact ⟨hget, by simpa using htenant⟩

theorem Owned.keeps {ρ : Type} [Tenanted ρ] {tenant : String} {t t' : Table ρ} {id : ℕ}
    (h : Owned tenant t id) (hkeeps : Keeps tenantOf t t') : Owned tenant t' id := by
  obtain ⟨r, hr, htenant⟩ := h
  obtain ⟨r', hr', heq⟩ := hkeeps id r hr
  exact ⟨r', hr', heq.trans htenant⟩

/-- What the row of a key is, once one row of it is known to be the tenant's. -/
theorem Owned.tenant {ρ : Type} [Tenanted ρ] {tenant : String} {t : Table ρ} {id : ℕ}
    (h : Owned tenant t id) {r : ρ} (hr : t.get id = some r) : tenantOf r = tenant := by
  obtain ⟨r', hr', htenant⟩ := h
  rwa [← Option.some.inj (hr.symm.trans hr')] at htenant

section Writes

variable {tenant : String} {db db' db'' : Database}

theorem TenantChange.refl (h : TenantChain db) : TenantChange tenant db db :=
  ⟨h, .refl db, .refl tenant db⟩

/-- Two changes for the same tenant, one after the other, are one change. -/
theorem TenantChange.trans (h : TenantChange tenant db db') (h' : TenantChange tenant db' db'') :
    TenantChange tenant db db'' :=
  ⟨h'.chain, h.keeps.trans h'.keeps, h.writes.trans h'.writes⟩

/-- An audit event. -/
theorem tenantChange_audit (h : TenantChain db) {event : AuditEvent}
    (hevent : event.tenantId = tenant) :
    TenantChange tenant db { db with auditEvents := db.auditEvents.insert event } where
  chain := { h with }
  keeps := { KeepsTenants.refl db with }
  writes := { WritesOnly.refl tenant db with auditEvents := changesOnly_insert hevent }

/-- A document of the tenant, rewritten. -/
theorem tenantChange_updateDocument (h : TenantChain db) {id : ℕ} {g : Document → Document}
    (hg : ∀ d, (g d).tenantId = d.tenantId)
    (hid : ∀ d, db.documents.get id = some d → d.tenantId = tenant) :
    TenantChange tenant db { db with documents := db.documents.update id g } := by
  have hkeeps : Keeps Document.tenantId db.documents (db.documents.update id g) :=
    keeps_update fun d _ => hg d
  refine ⟨{ h with jobDocuments := h.jobDocuments.target hkeeps },
    { KeepsTenants.refl db with documents := hkeeps },
    { WritesOnly.refl tenant db with documents := changesOnly_update fun d hd => ?_ }⟩
  exact ⟨hid d hd, (hg d).trans (hid d hd)⟩

/-- A job of the tenant, rewritten without its tenant and its foreign keys. -/
theorem tenantChange_updateJob (h : TenantChain db) {id : ℕ} {g : ExtractionJob → ExtractionJob}
    (hg : ∀ j, (g j).tenantId = j.tenantId ∧ (g j).documentId = j.documentId ∧
      (g j).templateVersionId = j.templateVersionId)
    (hid : ∀ j, db.extractionJobs.get id = some j → j.tenantId = tenant) :
    TenantChange tenant db { db with extractionJobs := db.extractionJobs.update id g } := by
  have hkeeps : Keeps ExtractionJob.tenantId db.extractionJobs (db.extractionJobs.update id g) :=
    keeps_update fun j _ => (hg j).1
  refine ⟨{ h with
      jobDocuments := h.jobDocuments.update fun j _ => ⟨(hg j).2.1, (hg j).1⟩
      jobVersions := h.jobVersions.update fun j _ => ⟨(hg j).2.2, (hg j).1⟩
      results := h.results.target hkeeps },
    { KeepsTenants.refl db with jobs := hkeeps },
    { WritesOnly.refl tenant db with jobs := changesOnly_update fun j hj => ?_ }⟩
  exact ⟨hid j hj, (hg j).1.trans (hid j hj)⟩

/-- A result of the tenant, rewritten without its tenant and its job. -/
theorem tenantChange_updateResult (h : TenantChain db) {id : ℕ}
    {g : ExtractionResult → ExtractionResult}
    (hg : ∀ r, db.extractionResults.get id = some r →
      r.tenantId = tenant ∧ (g r).tenantId = tenant ∧ (g r).jobId = r.jobId) :
    TenantChange tenant db { db with extractionResults := db.extractionResults.update id g } := by
  have hsame : ∀ r, db.extractionResults.get id = some r → (g r).tenantId = r.tenantId :=
    fun r hr => (hg r hr).2.1.trans (hg r hr).1.symm
  have hkeeps : Keeps ExtractionResult.tenantId db.extractionResults
      (db.extractionResults.update id g) := keeps_update hsame
  refine ⟨{ h with
      results := h.results.update fun r hr => ⟨(hg r hr).2.2, hsame r hr⟩
      reviewEdits := h.reviewEdits.target hkeeps
      exports := h.exports.target hkeeps },
    { KeepsTenants.refl db with results := hkeeps },
    { WritesOnly.refl tenant db with results := changesOnly_update fun r hr => ?_ }⟩
  exact ⟨(hg r hr).1, (hg r hr).2.1⟩

/-- A new document. -/
theorem tenantChange_insertDocument (h : TenantChain db) {d : Document} (hd : d.tenantId = tenant) :
    TenantChange tenant db { db with documents := db.documents.insert d } where
  chain := { h with jobDocuments := h.jobDocuments.target (keeps_insert _ _ d) }
  keeps := { KeepsTenants.refl db with documents := keeps_insert _ _ d }
  writes := { WritesOnly.refl tenant db with documents := changesOnly_insert hd }

/-- A new template. -/
theorem tenantChange_insertTemplate (h : TenantChain db) {t : Template} (ht : t.tenantId = tenant) :
    TenantChange tenant db { db with templates := db.templates.insert t } where
  chain := { h with templateVersions := h.templateVersions.target (keeps_insert _ _ t) }
  keeps := { KeepsTenants.refl db with templates := keeps_insert _ _ t }
  writes := { WritesOnly.refl tenant db with templates := changesOnly_insert ht }

/-- A new version of a template of the tenant. -/
theorem tenantChange_insertVersion (h : TenantChain db) {v : TemplateVersion}
    (hv : v.tenantId = tenant) (howned : Owned tenant db.templates v.templateId) :
    TenantChange tenant db { db with templateVersions := db.templateVersions.insert v } := by
  obtain ⟨t, ht, htenant⟩ := howned
  have hkeeps := keeps_insert TemplateVersion.tenantId db.templateVersions v
  exact ⟨{ h with
      templateVersions := h.templateVersions.insert ⟨t, ht, htenant.trans hv.symm⟩
      jobVersions := h.jobVersions.target hkeeps
      feedbackDecisions := h.feedbackDecisions.target hkeeps },
    { KeepsTenants.refl db with templateVersions := hkeeps },
    { WritesOnly.refl tenant db with templateVersions := changesOnly_insert hv }⟩

/-- A new job on a document and a version of the tenant. -/
theorem tenantChange_insertJob (h : TenantChain db) {j : ExtractionJob} (hj : j.tenantId = tenant)
    (hdocument : Owned tenant db.documents j.documentId)
    (hversion : Owned tenant db.templateVersions j.templateVersionId) :
    TenantChange tenant db { db with extractionJobs := db.extractionJobs.insert j } := by
  obtain ⟨d, hd, hdtenant⟩ := hdocument
  obtain ⟨v, hv, hvtenant⟩ := hversion
  have hkeeps := keeps_insert ExtractionJob.tenantId db.extractionJobs j
  exact ⟨{ h with
      jobDocuments := h.jobDocuments.insert ⟨d, hd, hdtenant.trans hj.symm⟩
      jobVersions := h.jobVersions.insert ⟨v, hv, hvtenant.trans hj.symm⟩
      results := h.results.target hkeeps },
    { KeepsTenants.refl db with jobs := hkeeps },
    { WritesOnly.refl tenant db with jobs := changesOnly_insert hj }⟩

/-- A new result of a job of the tenant. -/
theorem tenantChange_insertResult (h : TenantChain db) {r : ExtractionResult}
    (hr : r.tenantId = tenant) (howned : Owned tenant db.extractionJobs r.jobId) :
    TenantChange tenant db { db with extractionResults := db.extractionResults.insert r } := by
  obtain ⟨j, hj, htenant⟩ := howned
  have hkeeps := keeps_insert ExtractionResult.tenantId db.extractionResults r
  exact ⟨{ h with
      results := h.results.insert ⟨j, hj, htenant.trans hr.symm⟩
      reviewEdits := h.reviewEdits.target hkeeps
      exports := h.exports.target hkeeps },
    { KeepsTenants.refl db with results := hkeeps },
    { WritesOnly.refl tenant db with results := changesOnly_insert hr }⟩

/-- New edits of a result of the tenant. -/
theorem tenantChange_insertEdits (h : TenantChain db) {edits : List ReviewEdit}
    (hedits : ∀ e ∈ edits, e.tenantId = tenant ∧ Owned tenant db.extractionResults e.resultId) :
    TenantChange tenant db
      { db with reviewEdits := edits.foldl Table.insert db.reviewEdits } where
  chain :=
    { h with
      reviewEdits := h.reviewEdits.insertAll fun e he => by
        obtain ⟨htenant, r, hr, hrtenant⟩ := hedits e he
        exact ⟨r, hr, hrtenant.trans htenant.symm⟩ }
  keeps := { KeepsTenants.refl db with }
  writes :=
    { WritesOnly.refl tenant db with
      reviewEdits := changesOnly_insertAll fun e he => (hedits e he).1 }

/-- A new export of a result of the tenant. -/
theorem tenantChange_insertExport (h : TenantChain db) {e : ExportRecord} (he : e.tenantId = tenant)
    (howned : Owned tenant db.extractionResults e.resultId) :
    TenantChange tenant db { db with exports := db.exports.insert e } := by
  obtain ⟨r, hr, htenant⟩ := howned
  exact ⟨{ h with exports := h.exports.insert ⟨r, hr, htenant.trans he.symm⟩ },
    { KeepsTenants.refl db with },
    { WritesOnly.refl tenant db with exports := changesOnly_insert he }⟩

/-- A new decision about a version of the tenant. -/
theorem tenantChange_insertDecision (h : TenantChain db) {d : LangExtractFeedbackDecision}
    (hd : d.tenantId = tenant) (howned : Owned tenant db.templateVersions d.templateVersionId) :
    TenantChange tenant db { db with feedbackDecisions := db.feedbackDecisions.insert d } := by
  obtain ⟨v, hv, htenant⟩ := howned
  exact ⟨{ h with feedbackDecisions := h.feedbackDecisions.insert ⟨v, hv, htenant.trans hd.symm⟩ },
    { KeepsTenants.refl db with },
    { WritesOnly.refl tenant db with feedbackDecisions := changesOnly_insert hd }⟩

/-- A decision of the tenant, dismissed or taken back. -/
theorem tenantChange_updateDecision (h : TenantChain db) {id : ℕ} {dismissed : Bool}
    (hid : ∀ d, db.feedbackDecisions.get id = some d → d.tenantId = tenant) :
    TenantChange tenant db
      { db with
        feedbackDecisions := db.feedbackDecisions.update id fun d =>
          { d with dismissed := dismissed } } where
  chain := { h with feedbackDecisions := h.feedbackDecisions.update fun _ _ => ⟨rfl, rfl⟩ }
  keeps := { KeepsTenants.refl db with }
  writes :=
    { WritesOnly.refl tenant db with
      feedbackDecisions := changesOnly_update fun d hd => ⟨hid d hd, hid d hd⟩ }

end Writes

/-! ### The operations -/

section Operations

variable {tenant : String} {db : Database}

/-- The row of an insert is a row of its tenant. -/
theorem owned_insert {ρ : Type} [Tenanted ρ] {t : Table ρ} {r : ρ} (h : tenantOf r = tenant) :
    Owned tenant (t.insert r) t.nextId := ⟨r, get_insert_self t r, h⟩

theorem createTemplate_change (h : TenantChain db) (name description documentType : String)
    (definition : ExtractionTemplate) (createdAt : ℕ) :
    TenantChange tenant db
      (db.createTemplate name description documentType definition tenant createdAt) := by
  have htemplate : TenantChange tenant db
      { db with
        templates := db.templates.insert
          { tenantId := tenant, name := name, description := description,
            documentType := documentType } } := tenantChange_insertTemplate h rfl
  refine htemplate.trans (tenantChange_insertVersion htemplate.chain rfl ?_)
  exact owned_insert rfl

theorem createTemplateVersion_change (h : TenantChain db) {templateId : ℕ} {template : Template}
    (htemplate : template.tenantId = tenant) (howned : Owned tenant db.templates templateId)
    (definition : ExtractionTemplate) (createdAt : ℕ) :
    TenantChange tenant db (db.createTemplateVersion templateId template definition createdAt) :=
  tenantChange_insertVersion h htemplate howned

theorem uploadDocument_change (h : TenantChain db)
    (actor filename contentType reference : String) :
    TenantChange tenant db (db.uploadDocument tenant actor filename contentType reference) := by
  have hdocument : TenantChange tenant db
      { db with
        documents := db.documents.insert
          { tenantId := tenant, originalFilename := filename, storedPath := reference } } :=
    tenantChange_insertDocument h rfl
  exact hdocument.trans (tenantChange_audit hdocument.chain rfl)

theorem setSuggestionDismissed_change (h : TenantChain db) {versionId : ℕ}
    {version : TemplateVersion} (hversion : version.tenantId = tenant)
    (howned : Owned tenant db.templateVersions versionId) {key : String} {dismissed : Bool}
    {db' : Database} {id : ℕ}
    (hset : db.setSuggestionDismissed versionId version key dismissed = some (db', id)) :
    TenantChange tenant db db' ∧ Owned tenant db'.feedbackDecisions id := by
  unfold Database.setSuggestionDismissed at hset
  split at hset
  · next id' d rest hrows =>
    obtain ⟨rfl, rfl⟩ := Prod.mk.inj (Option.some.inj hset)
    -- The query found a decision of the tenant, which is updated.
    have hmem : (id', d) ∈ allOwned version.tenantId db.feedbackDecisions fun d =>
        d.templateVersionId == versionId && d.suggestionKey == key := hrows ▸ List.mem_cons_self ..
    obtain ⟨hd, hp⟩ := mem_select.mp hmem
    have hget := get_of_mem hd
    have htenant : d.tenantId = tenant := by
      simp only [Bool.and_eq_true, beq_iff_eq] at hp
      exact hp.1.trans hversion
    refine ⟨tenantChange_updateDecision h fun d' hd' => ?_, { d with dismissed := dismissed }, ?_,
      htenant⟩
    · rwa [← Option.some.inj (hget.symm.trans hd')]
    · rw [get_update_self, hget]
      rfl
  · split at hset
    · obtain ⟨rfl, rfl⟩ := Prod.mk.inj (Option.some.inj hset)
      exact ⟨tenantChange_insertDecision h hversion howned, owned_insert hversion⟩
    · cases hset

theorem createJob_change (h : TenantChain db) {document version : ℕ}
    (hdocument : Owned tenant db.documents document)
    (hversion : Owned tenant db.templateVersions version) (actor : String)
    (override : Option LLMProviderSettings) (createdAt : ℕ) :
    TenantChange tenant db (db.createJob tenant actor document version override createdAt) := by
  have hjob : TenantChange tenant db
      { db with
        extractionJobs := db.extractionJobs.insert
          { tenantId := tenant, documentId := document, templateVersionId := version,
            providerOverride := override, progressStage := some .queued, progressPct := 0,
            createdAt := createdAt } } := tenantChange_insertJob h rfl hdocument hversion
  have hstatus := hjob.trans (tenantChange_updateDocument hjob.chain
    (g := fun d => { d with status := .queued }) (fun _ => rfl) fun d hd => hdocument.tenant hd)
  exact hstatus.trans (tenantChange_audit hstatus.chain rfl)

/-- The flush of a job writes neither its tenant nor its foreign keys. -/
theorem commitJob_change (h : TenantChain db) {job : ℕ}
    (howned : Owned tenant db.extractionJobs job) (loaded new : ExtractionJob) :
    TenantChange tenant db (db.commitJob job loaded new) :=
  tenantChange_updateJob h (fun _ => ⟨rfl, rfl, rfl⟩) fun _ hj => howned.tenant hj

theorem commitRequest_change (h : TenantChain db) {q : Request} (htenant : q.loaded.tenantId = tenant)
    (hjob : Owned tenant db.extractionJobs q.job)
    (hdocument : Owned tenant db.documents q.loaded.documentId) (actor : String) :
    TenantChange tenant db (db.commitRequest actor q) := by
  have hcommit := commitJob_change h hjob q.loaded q.newRow
  cases q with
  | retry job loaded document checked =>
    have hstatus := hcommit.trans (tenantChange_updateDocument hcommit.chain
      (g := fun d => { d with status := writeBack document.status .queued d.status })
      (fun _ => rfl) fun d hd => hdocument.tenant hd)
    exact hstatus.trans (tenantChange_audit hstatus.chain htenant)
  | cancel job loaded document checked =>
    have hstatus := hcommit.trans (tenantChange_updateDocument hcommit.chain
      (g := fun d => { d with
        status := writeBack document.status (cancelDocumentStatus document.status) d.status })
      (fun _ => rfl) fun d hd => hdocument.tenant hd)
    exact hstatus.trans (tenantChange_audit hstatus.chain htenant)

/-- The edits of a review have the tenant of the result it loaded. -/
theorem applyEdits_tenant {resultId : ℕ} {reviewer : String} : ∀ {edits : List ReviewFieldEdit}
    {fields fields' : List ExtractionFieldResult} {rows : List ReviewEdit},
    applyEdits tenant resultId reviewer edits fields = .ok (fields', rows) →
    ∀ e ∈ rows, e.tenantId = tenant := by
  intro edits
  induction edits with
  | nil =>
    intro fields fields' rows h e he
    obtain ⟨-, rfl⟩ := Prod.mk.inj (Except.ok.inj h)
    cases he
  | cons edit edits ih =>
    intro fields fields' rows h e he
    obtain ⟨target, rest, -, hrest, rfl⟩ := applyEdits_cons h
    rcases List.mem_cons.mp he with rfl | he
    · rfl
    · exact ih hrest e he

theorem commitReview_change (h : TenantChain db) {rt : Runtime} {resultId : ℕ}
    {loaded : ExtractionResult} {payload : ReviewEditPayload} {now : UtcTime}
    {summary : ExtractionValidationSummary} {rows : List ReviewEdit}
    (hloaded : loaded.tenantId = tenant) (howned : Owned tenant db.extractionResults resultId)
    (hout : reviewOutcome rt db resultId loaded payload now = .ok (summary, rows)) :
    TenantChange tenant db (db.commitReview resultId loaded payload summary rows) := by
  obtain ⟨fields, recalculated, hedits, -⟩ := reviewOutcome_spec hout
  have hresult : TenantChange tenant db
      { db with
        extractionResults := db.extractionResults.update resultId fun r =>
          { r with resultJson := summary, reviewStatus := .reviewed } } :=
    tenantChange_updateResult h fun r hr => by
      have htenant : r.tenantId = tenant := howned.tenant hr
      exact ⟨htenant, htenant, rfl⟩
  have hrows : ∀ e ∈ rows, e.tenantId = tenant ∧
      Owned tenant (db.extractionResults.update resultId fun r =>
        { r with resultJson := summary, reviewStatus := .reviewed }) e.resultId := by
    intro e he
    refine ⟨(applyEdits_tenant hedits e he).trans hloaded, ?_⟩
    rw [(applyEdits_rows hedits e he).1]
    exact howned.keeps hresult.keeps.results
  have hall := hresult.trans (tenantChange_insertEdits hresult.chain hrows)
  exact hall.trans (tenantChange_audit hall.chain hloaded)

theorem commitExport_change (h : TenantChain db) {result : ExtractionResult}
    {record : ExportRecord} (hresult : result.tenantId = tenant)
    (hrecord : record.tenantId = tenant)
    (howned : Owned tenant db.extractionResults record.resultId) :
    TenantChange tenant db (db.commitExport result record) := by
  have hexport := tenantChange_insertExport h hrecord howned
  exact hexport.trans (tenantChange_audit hexport.chain hresult)

/-! ### The worker -/

/-- The job a worker saves the result of owns the result there. -/
theorem saveResult_change (h : TenantChain db) {job : ℕ} {stored : ExtractionJob}
    (hget : db.extractionJobs.get job = some stored) (summary : ExtractionValidationSummary) :
    TenantChange stored.tenantId db (db.saveResult job stored.tenantId summary).1 := by
  unfold Database.saveResult
  split
  · exact tenantChange_insertResult h rfl ⟨stored, hget, rfl⟩
  · next id r rest hrows =>
    have hmem : (id, r) ∈ db.resultsOf job := hrows ▸ List.mem_cons_self ..
    obtain ⟨hr, hjob⟩ := mem_select.mp hmem
    refine tenantChange_updateResult h fun r' hr' => ⟨?_, rfl, rfl⟩
    obtain rfl := Option.some.inj ((get_of_mem hr).symm.trans hr')
    -- the chain links the result to this job
    obtain ⟨j, hj, htenant⟩ := h.results id r hr'
    rw [beq_iff_eq.mp hjob, hget] at hj
    rw [Option.some.inj hj, htenant]

/-- **A step of `process_once` writes rows of the job's tenant.** -/
theorem ProcessMove.change (h : TenantChain db) {job : ℕ} {stored : ExtractionJob} {pc : Pc}
    {act : WorkerAct} {db' : Database} {pc' : Option Pc}
    (hget : db.extractionJobs.get job = some stored)
    (hmove : ProcessMove job db stored pc act db' pc') :
    TenantChange stored.tenantId db db' := by
  have howned : Owned stored.tenantId db.extractionJobs job := ⟨stored, hget, rfl⟩
  have hdocument : ∀ {db' : Database}, TenantChange stored.tenantId db db' →
      ∀ d, db'.documents.get stored.documentId = some d → d.tenantId = stored.tenantId := by
    intro db' hchange d hd
    have hlinked : Owned stored.tenantId db.documents stored.documentId :=
      h.jobDocuments job stored hget
    have hkept : Owned stored.tenantId db'.documents stored.documentId :=
      hlinked.keeps hchange.keeps.documents
    exact hkept.tenant hd
  -- the terminal commits: the job, the document and an audit event
  have hterminal : ∀ {db' : Database} (loaded new : ExtractionJob) (status : DocumentStatus)
      (action : String) (metadata : List (String × PyVal)),
      TenantChange stored.tenantId db db' →
      TenantChange stored.tenantId db
        (((db'.commitJob job loaded new).setDocumentStatus stored.documentId status)
          |>.recordWorkerAudit stored.tenantId action job metadata) := by
    intro db' loaded new status action metadata hchange
    have hjob := hchange.trans
      (commitJob_change hchange.chain (howned.keeps hchange.keeps.jobs) loaded new)
    have hstatus := hjob.trans (tenantChange_updateDocument hjob.chain
      (g := fun d => { d with status := status }) (fun _ => rfl) (hdocument hjob))
    exact hstatus.trans (tenantChange_audit hstatus.chain rfl)
  cases hmove
  case missing loaded => exact commitJob_change h howned _ _
  case start loaded document =>
    have hjob := commitJob_change h howned loaded (loaded.atStage .parsing)
    exact hjob.trans (tenantChange_updateDocument hjob.chain (fun _ => rfl) (hdocument hjob))
  case storeText path =>
    exact tenantChange_updateDocument h (fun _ => rfl) (hdocument (.refl h))
  case report loaded stage stages => exact commitJob_change h howned _ _
  case complete loaded result =>
    exact hterminal loaded loaded.succeed .completed "job.completed" _
      (saveResult_change h hget result)
  case fail committed loaded msg =>
    exact hterminal loaded (loaded.failWith msg) .failed "job.failed" _ (.refl h)
  case finalize handled committed =>
    exact tenantChange_updateDocument h (fun _ => rfl) (hdocument (.refl h))
  all_goals exact .refl h

end Operations

/-! ### The invariant -/

section Loaded

variable {tenant : String} {db db' : Database}

/-- A retry or a cancellation is about a job and a document of its caller. -/
structure RequestOwned (tenant : String) (db : Database) (q : Request) : Prop where
  loaded : q.loaded.tenantId = tenant
  job : Owned tenant db.extractionJobs q.job
  document : Owned tenant db.documents q.loaded.documentId

theorem RequestOwned.keeps {q : Request} (h : RequestOwned tenant db q)
    (hkeeps : KeepsTenants db db') : RequestOwned tenant db' q :=
  ⟨h.loaded, h.job.keeps hkeeps.jobs, h.document.keeps hkeeps.documents⟩

/-- The other requests are about a row of their caller. -/
def CallOwned (tenant : String) (db : Database) : Call → Prop
  | .createTemplateVersion id template _ =>
      template.tenantId = tenant ∧ Owned tenant db.templates id
  | .review q => q.loaded.tenantId = tenant ∧ Owned tenant db.extractionResults q.resultId
  | .exportResult id loaded _ => loaded.tenantId = tenant ∧ Owned tenant db.extractionResults id
  | .dismissSuggestion id version _ _ =>
      version.tenantId = tenant ∧ Owned tenant db.templateVersions id

theorem CallOwned.keeps {call : Call} (h : CallOwned tenant db call)
    (hkeeps : KeepsTenants db db') : CallOwned tenant db' call := by
  cases call with
  | createTemplateVersion id template definition => exact ⟨h.1, h.2.keeps hkeeps.templates⟩
  | review q => exact ⟨h.1, h.2.keeps hkeeps.results⟩
  | exportResult id loaded format => exact ⟨h.1, h.2.keeps hkeeps.results⟩
  | dismissSuggestion id version key dismissed => exact ⟨h.1, h.2.keeps hkeeps.templateVersions⟩

/-- What a request finds by a filtered query is its caller's. -/
theorem callOwned_of_readCall {operation : Operation} {call : Call}
    (h : db.readCall tenant operation = some call) : CallOwned tenant db call := by
  cases operation with
  | createTemplateVersion templateId definition =>
    obtain ⟨template, hfind, rfl⟩ := Option.map_eq_some_iff.mp h
    obtain ⟨hget, htenant⟩ := owned_of_findOwned hfind
    exact ⟨htenant, template, hget, htenant⟩
  | review resultId payload =>
    simp only [Database.readCall] at h
    split at h
    · obtain ⟨loaded, hfind, rfl⟩ := Option.map_eq_some_iff.mp h
      obtain ⟨hget, htenant⟩ := owned_of_findOwned hfind
      exact ⟨htenant, loaded, hget, htenant⟩
    · cases h
  | exportResult resultId format =>
    obtain ⟨loaded, hfind, rfl⟩ := Option.map_eq_some_iff.mp h
    obtain ⟨hget, htenant⟩ := owned_of_findOwned hfind
    exact ⟨htenant, loaded, hget, htenant⟩
  | dismissSuggestion versionId key dismissed =>
    obtain ⟨version, hfind, rfl⟩ := Option.map_eq_some_iff.mp h
    obtain ⟨hget, htenant⟩ := owned_of_findOwned hfind
    exact ⟨htenant, version, hget, htenant⟩

theorem requestRows_owned {job : ℕ} {row : ExtractionJob} {document : Document}
    (h : db.requestRows tenant job = some (row, document)) :
    row.tenantId = tenant ∧ Owned tenant db.extractionJobs job ∧
      Owned tenant db.documents row.documentId := by
  have hget := requestRows_get h
  unfold Database.requestRows at h
  rw [hget] at h
  split at h
  · next row' hrow =>
    obtain rfl := Option.some.inj hrow
    split at h
    · next document' hdocument =>
      split at h
      · next htenants =>
        exact ⟨htenants.1, ⟨row, hget, htenants.1⟩, document', hdocument, htenants.2⟩
      · cases h
    · cases h
  · cases h

end Loaded

/-- **The invariant**: the chain, what a worker loaded is of one tenant, and what a request
read is its caller's. -/
structure TenantInv (s : TenantState) : Prop where
  chain : TenantChain s.db
  workers : ∀ w j job document version,
    s.queue.workers w = .busy j (.checkTenants job document version) →
      ensureJobTenantConsistency job document version = none
  requests : ∀ r q, s.queue.requests r = some q → RequestOwned (s.callers r) s.db q
  calls : ∀ r tenant call, s.calls r = some (tenant, call) → CallOwned tenant s.db call

/-! ### The workers' steps -/

section Workers

variable {s : TenantState} {w : ℕ} {queue : QueueState}

/-- The chain makes the worker's check pass. -/
theorem ensure_of_chain {db : Database} (h : TenantChain db) {job : ℕ} {stored : ExtractionJob}
    {document : Document} {version : TemplateVersion}
    (hget : db.extractionJobs.get job = some stored)
    (hdocument : db.documents.get stored.documentId = some document)
    (hversion : db.templateVersions.get stored.templateVersionId = some version) :
    ensureJobTenantConsistency stored document version = none := by
  obtain ⟨d, hd, hdtenant⟩ := h.jobDocuments job stored hget
  obtain ⟨v, hv, hvtenant⟩ := h.jobVersions job stored hget
  obtain rfl := Option.some.inj (hd.symm.trans hdocument)
  obtain rfl := Option.some.inj (hv.symm.trans hversion)
  unfold ensureJobTenantConsistency
  rw [hdtenant, hvtenant, if_pos ⟨rfl, rfl⟩]

/-- The worker comes to the check with the rows it has just read. -/
theorem ProcessMove.ensure {db db' : Database} (h : TenantChain db) {job : ℕ}
    {stored loaded : ExtractionJob} {pc : Pc} {act : WorkerAct} {document : Document}
    {version : TemplateVersion} (hget : db.extractionJobs.get job = some stored)
    (hmove : ProcessMove job db stored pc act db' (some (.checkTenants loaded document version))) :
    ensureJobTenantConsistency loaded document version = none := by
  cases hmove with
  | load hdocument hversion => exact ensure_of_chain h hget hdocument hversion

/-- A worker that takes a step leaves the others where they are. -/
theorem workers_setWorker {t : QueueState} {ph : Phase}
    (hother : ∀ w' j job document version,
      t.workers w' = .busy j (.checkTenants job document version) →
        ensureJobTenantConsistency job document version = none)
    (hph : ∀ j job document version, ph = .busy j (.checkTenants job document version) →
      ensureJobTenantConsistency job document version = none) :
    ∀ w' j job document version,
      (t.setWorker w ph).workers w' = .busy j (.checkTenants job document version) →
        ensureJobTenantConsistency job document version = none := by
  intro w' j job document version hw'
  by_cases hw : w' = w
  · rw [hw, setWorker_self] at hw'
    exact hph j job document version hw'
  · rw [setWorker_ne _ _ _ hw] at hw'
    exact hother w' j job document version hw'

/-- What a step of a worker writes, and where it leaves the worker. -/
theorem tenantInv_worker (hs : TenantInv s) (h : WorkerMove s.queue w queue) :
    TenantInv { s with queue := queue } := by
  -- the requests keep what they read
  have hinv : ∀ (tenant : String) {db' : Database} {ph : Phase} {writer : Option ℕ},
      TenantChange tenant s.db db' →
      (∀ j job document version, ph = .busy j (.checkTenants job document version) →
        ensureJobTenantConsistency job document version = none) →
      TenantInv
        { s with queue := { s.queue with db := db', writer := writer }.setWorker w ph } := by
    intro tenant db' ph writer hchange hph
    refine ⟨hchange.chain, workers_setWorker (t := { s.queue with db := db', writer := writer })
      hs.workers hph, ?_, ?_⟩
    · exact fun r q hq => (hs.requests r q hq).keeps hchange.keeps
    · exact fun r tenant call hcall => (hs.calls r tenant call hcall).keeps hchange.keeps
  cases h with
  | look ph _ hph =>
    refine hinv "" (.refl hs.chain) fun j job document version heq => ?_
    rw [heq] at hph
    cases hph
  | lock tries j _ _ _ =>
    refine hinv "" (.refl hs.chain) fun j job document version heq => ?_
    cases heq
  | claim j _ =>
    cases hget : s.db.extractionJobs.get j with
    | none =>
      have hnone : ∀ row, s.db.extractionJobs.get j = some row → row.tenantId = "" := by
        intro row hrow
        rw [hget] at hrow
        cases hrow
      refine hinv _ (tenantChange_updateJob hs.chain (fun _ => ⟨rfl, rfl, rfl⟩) hnone) ?_
      intro j job document version heq
      cases heq
    | some row =>
      have howned : Owned row.tenantId s.db.extractionJobs j := ⟨row, hget, rfl⟩
      refine hinv _ (tenantChange_updateJob hs.chain (fun _ => ⟨rfl, rfl, rfl⟩)
        fun _ hrow => howned.tenant hrow) ?_
      intro j job document version heq
      cases heq
  | process j pc act stored db' pc' _ _ hget hmove =>
    refine hinv _ (ProcessMove.change hs.chain hget hmove) fun j' job document version heq => ?_
    cases pc' with
    | none => cases heq
    | some pc' =>
      obtain ⟨rfl, rfl⟩ : j = j' ∧ pc' = .checkTenants job document version := by
        simpa using heq
      exact ProcessMove.ensure hs.chain hget hmove

end Workers

/-! ### Responses -/

/-- Every row of a response is a row of the tenant. -/
def ShowsOnly (tenant : String) (rows : List TenantRow) : Prop := ∀ row ∈ rows, row.tenantId = tenant

section Responses

variable {tenant : String} {db : Database}

/-- A row read back by its key. -/
theorem showsOnly_get {ρ : Type} [Tenanted ρ] {t : Table ρ} {id : ℕ} {row : ρ → TenantRow}
    (hrow : ∀ r, (row r).tenantId = tenantOf r) (h : Owned tenant t id) :
    ShowsOnly tenant ((t.get id).toList.map row) := by
  intro x hx
  obtain ⟨r, hr, rfl⟩ := List.mem_map.mp hx
  rw [hrow]
  exact h.tenant (Option.mem_toList.mp hr)

/-- The row of a filtered query by its key. -/
theorem showsOnly_find {ρ : Type} [Tenanted ρ] {t : Table ρ} {id : ℕ} {row : ρ → TenantRow}
    (hrow : ∀ r, (row r).tenantId = tenantOf r) :
    ShowsOnly tenant ((findOwned tenant t id).toList.map row) := by
  intro x hx
  obtain ⟨r, hr, rfl⟩ := List.mem_map.mp hx
  rw [hrow]
  exact (owned_of_findOwned (Option.mem_toList.mp hr)).2

theorem tenantOf_of_mem_allOwned {ρ : Type} [Tenanted ρ] {t : Table ρ} {also : ρ → Bool}
    {p : ℕ × ρ} (h : p ∈ allOwned tenant t also) : (p ∈ t.rows) ∧ tenantOf p.2 = tenant := by
  obtain ⟨hmem, hp⟩ := mem_select.mp h
  rw [Bool.and_eq_true, beq_iff_eq] at hp
  exact ⟨hmem, hp.1⟩

/-- The rows of a filtered query. -/
theorem showsOnly_all {ρ : Type} [Tenanted ρ] {rows : List (ℕ × ρ)} {row : ℕ × ρ → TenantRow}
    (hrow : ∀ p, (row p).tenantId = tenantOf p.2) (h : ∀ p ∈ rows, tenantOf p.2 = tenant) :
    ShowsOnly tenant (rows.map row) := by
  intro x hx
  obtain ⟨p, hp, rfl⟩ := List.mem_map.mp hx
  rw [hrow]
  exact h p hp

theorem latestVersion_mem : ∀ {versions : List (ℕ × TemplateVersion)} {v : ℕ × TemplateVersion},
    latestVersion versions = some v → v ∈ versions := by
  intro versions v h
  cases versions with
  | nil => cases h
  | cons first rest =>
    have hfold : ∀ (rest : List (ℕ × TemplateVersion)) (best : ℕ × TemplateVersion),
        rest.foldl (fun best v => if best.2.createdAt < v.2.createdAt then v else best) best ∈
          best :: rest := by
      intro rest
      induction rest with
      | nil => exact fun best => List.mem_cons_self ..
      | cons v rest ih =>
        intro best
        rcases List.mem_cons.mp (ih (if best.2.createdAt < v.2.createdAt then v else best)) with
          hbest | hrest
        · rw [List.foldl_cons, hbest]
          split <;> simp
        · exact List.mem_cons_of_mem _ (List.mem_cons_of_mem _ hrest)
    rw [← Option.some.inj h]
    exact hfold rest first

/-- **The unfiltered versions of a tenant's template are the tenant's.** -/
theorem showsOnly_listTemplates (h : TenantChain db) :
    ∀ e ∈ db.listTemplates tenant, ShowsOnly tenant e.rows := by
  intro e he
  obtain ⟨⟨id, template⟩, ht, rfl⟩ := List.mem_map.mp he
  obtain ⟨hmem, htenant⟩ := tenantOf_of_mem_allOwned ht
  intro row hrow
  rcases List.mem_cons.mp hrow with rfl | hrow
  · exact htenant
  · obtain ⟨⟨k, v⟩, hv, rfl⟩ := List.mem_map.mp hrow
    obtain ⟨hv, hlink⟩ := mem_select.mp (latestVersion_mem (Option.mem_toList.mp hv))
    obtain ⟨t, ht, hvtenant⟩ := h.templateVersions k v (get_of_mem hv)
    rw [beq_iff_eq.mp hlink, get_of_mem hmem] at ht
    obtain rfl := Option.some.inj ht
    exact hvtenant.symm.trans htenant

/-- The suggestions are built from rows of the version's tenant. -/
theorem showsOnly_feedbackRows (versionId : ℕ) {version : TemplateVersion}
    (hversion : version.tenantId = tenant) :
    ShowsOnly tenant (db.feedbackRows versionId version) := by
  subst hversion
  unfold Database.feedbackRows
  simp only
  split
  · intro row hrow
    rcases List.mem_append.mp hrow with hrow | hrow
    · obtain ⟨⟨⟨id, r⟩, documentId, document⟩, hjoined, hrow⟩ := List.mem_flatMap.mp hrow
      obtain ⟨⟨id', r'⟩, hr, hjoin⟩ := List.mem_filterMap.mp hjoined
      obtain ⟨job, -, hjoin⟩ := Option.bind_eq_some_iff.mp hjoin
      -- The result is the tenant's by the filter, and so is the document it was joined with.
      split at hjoin
      · obtain ⟨document', hdocument, heq⟩ := Option.map_eq_some_iff.mp hjoin
        obtain ⟨⟨rfl, rfl⟩, rfl, rfl⟩ : (id' = id ∧ r' = r) ∧ job.documentId = documentId ∧
            document' = document := by simpa using heq
        have hresult : r'.tenantId = version.tenantId := (tenantOf_of_mem_allOwned hr).2
        have hdocument : document'.tenantId = version.tenantId := (owned_of_findOwned hdocument).2
        simp only [List.mem_cons, List.not_mem_nil, or_false] at hrow
        rcases hrow with rfl | rfl
        · exact hresult
        · exact hdocument
      · cases hjoin
    · obtain ⟨⟨id, e⟩, he, rfl⟩ := List.mem_map.mp hrow
      exact (tenantOf_of_mem_allOwned he).2
  · intro row hrow
    cases hrow

/-- **A read request shows rows of its caller only**, those it reaches through a relationship
included. -/
theorem showsOnly_answer (h : TenantChain db) (query : Query) :
    ShowsOnly tenant (db.answer tenant query) := by
  cases query with
  | templates =>
    intro row hrow
    obtain ⟨e, he, hrow⟩ := List.mem_flatMap.mp hrow
    exact showsOnly_listTemplates h e he row hrow
  | templateVersions templateId =>
    exact showsOnly_all (fun _ => rfl) fun p hp => (tenantOf_of_mem_allOwned hp).2
  | suggestions versionId =>
    -- The version is the caller's, and so are the results that refer to it.
    simp only [Database.answer]
    split
    · next version hfind =>
      have hversion : version.tenantId = tenant := (owned_of_findOwned hfind).2
      intro row hrow
      rcases List.mem_cons.mp hrow with rfl | hrow
      · exact hversion
      · exact showsOnly_feedbackRows versionId hversion row hrow
    · intro row hrow
      cases hrow
  | documents => exact showsOnly_all (fun _ => rfl) fun p hp => (tenantOf_of_mem_allOwned hp).2
  | document id => exact showsOnly_find fun _ => rfl
  | jobs => exact showsOnly_all (fun _ => rfl) fun p hp => (tenantOf_of_mem_allOwned hp).2
  | jobResult job =>
    refine showsOnly_all (fun _ => rfl) fun p hp => ?_
    exact (tenantOf_of_mem_allOwned (List.mem_of_mem_head? (Option.mem_toList.mp hp))).2
  | exports =>
    intro row hrow
    obtain ⟨e, he, hrow⟩ := List.mem_flatMap.mp hrow
    rcases List.mem_cons.mp hrow with rfl | hrow
    · exact (tenantOf_of_mem_allOwned he).2
    · exact showsOnly_find (t := db.extractionResults) (fun _ => rfl) row hrow
  | exportRecord id => exact showsOnly_find fun _ => rfl
  | auditEvents also =>
    exact showsOnly_all (fun _ => rfl) fun p hp => (tenantOf_of_mem_allOwned hp).2

end Responses

/-! ### The requests' steps -/

section Requests

variable {cfg : TenantConfig} {s : TenantState} {tenant : String}

/-- What a step of a request with a tenant has to keep. -/
def Confined (s : TenantState) (tenant : String) (t : TenantState) (rows : List TenantRow) : Prop :=
  ShowsOnly tenant rows ∧ WritesOnly tenant s.db t.db

theorem showsOnly_nil : ShowsOnly tenant [] := fun _ h => nomatch h

/-- The commit of a request writes and shows rows of its caller. -/
theorem commitCall_change (hchain : TenantChain s.db) {files files' : ExportFiles} {now : UtcTime}
    {createdAt : ℕ} {call : Call} {db' : Database} {rows : List TenantRow}
    (hcall : CallOwned tenant s.db call)
    (h : s.db.commitCall cfg files now createdAt call = some (db', files', rows)) :
    TenantChange tenant s.db db' ∧ ShowsOnly tenant rows := by
  cases call with
  | createTemplateVersion templateId template definition =>
    obtain ⟨rfl, -, rfl⟩ : _ = db' ∧ files = files' ∧ _ = rows := by
      simpa [Database.commitCall] using h
    -- What the request read is still there with its tenant, which the new row takes over.
    obtain ⟨htemplate, howned⟩ := hcall
    refine ⟨createTemplateVersion_change hchain htemplate howned definition createdAt, ?_⟩
    exact showsOnly_get (fun _ => rfl) (owned_insert htemplate)
  | review q =>
    obtain ⟨hloaded, howned⟩ := hcall
    simp only [Database.commitCall] at h
    split at h
    · next db₁ hreview =>
      obtain ⟨⟨summary, edits⟩, hout, hcommit⟩ := Failing.bind_ok.mp hreview
      obtain rfl := Except.ok.inj hcommit
      obtain ⟨rfl, -, rfl⟩ : _ = db' ∧ files = files' ∧ _ = rows := by simpa using h
      have hchange := commitReview_change hchain hloaded howned hout
      exact ⟨hchange, showsOnly_get (fun _ => rfl) (howned.keeps hchange.keeps.results)⟩
    · cases h
  | exportResult resultId loaded format =>
    obtain ⟨hloaded, howned⟩ := hcall
    simp only [Database.commitCall] at h
    split at h
    · next db₁ files₁ hexport =>
      obtain ⟨-, bytes, -, rfl⟩ := exportResult_spec hexport
      obtain ⟨rfl, -, rfl⟩ : _ = db' ∧ files₁ = files' ∧ _ = rows := by simpa using h
      refine ⟨commitExport_change hchain hloaded hloaded howned, ?_⟩
      exact showsOnly_get (fun _ => rfl) (owned_insert hloaded)
    · cases h
  | dismissSuggestion versionId version key dismissed =>
    obtain ⟨hversion, howned⟩ := hcall
    obtain ⟨⟨db₁, id⟩, hset, heq⟩ := Option.map_eq_some_iff.mp h
    obtain ⟨rfl, -, rfl⟩ : db₁ = db' ∧ files = files' ∧ _ = rows := by simpa using heq
    obtain ⟨hchange, hrow⟩ := setSuggestionDismissed_change hchain hversion howned hset
    exact ⟨hchange, showsOnly_get (fun _ => rfl) hrow⟩

/-- What the requests hold survives a write that keeps the tenants. -/
theorem TenantInv.setDb (hs : TenantInv s) {db' : Database} (hchange : TenantChange tenant s.db db') :
    TenantInv (s.setDb db') :=
  ⟨hchange.chain, hs.workers, fun r q hq => (hs.requests r q hq).keeps hchange.keeps,
    fun r _ call hcall => (hs.calls r _ call hcall).keeps hchange.keeps⟩

/-- A request may end. -/
theorem TenantInv.endCall (hs : TenantInv s) (r : ℕ) {files : ExportFiles} :
    TenantInv { s with files := files, calls := Function.update s.calls r none } := by
  refine ⟨hs.chain, hs.workers, hs.requests, fun r' tenant' call hcall => ?_⟩
  by_cases hr : r' = r
  · rw [hr] at hcall
    simp at hcall
  · refine hs.calls r' tenant' call ?_
    rw [← hcall]
    exact (Function.update_of_ne hr _ _).symm

/-- A request about a job that read its rows, and the end of one. -/
theorem TenantInv.setRequest (hs : TenantInv s) {r : ℕ} {q : Option Request} {callers : ℕ → String}
    (hcallers : ∀ r', r' ≠ r → callers r' = s.callers r')
    (hq : ∀ q', q = some q' → RequestOwned (callers r) s.db q') :
    TenantInv { s with queue := s.queue.setRequest r q, callers := callers } := by
  refine ⟨hs.chain, hs.workers, fun r' q' hq' => ?_, hs.calls⟩
  by_cases hr : r' = r
  · rw [hr]
    refine hq q' ?_
    rw [← hq', hr]
    exact (setRequest_self s.queue r q).symm
  · show RequestOwned (callers r') s.db q'
    rw [hcallers r' hr]
    refine hs.requests r' q' ?_
    rw [← hq']
    exact (setRequest_ne s.queue r q hr).symm

/-- **The steps of the requests about jobs.** -/
theorem tenantInv_jobs (hs : TenantInv s) {act : ApiAct} {t : TenantState} {rows : List TenantRow}
    (h : respond cfg s (.jobs act) = some (t, rows)) :
    TenantInv t ∧ ∀ tenant, s.caller (.jobs act) = some tenant → Confined s tenant t rows := by
  obtain ⟨queue, hstep, heq⟩ := Option.map_eq_some_iff.mp h
  obtain ⟨rfl, rfl⟩ := Prod.mk.inj heq
  cases act with
  | createJob tenant actor document version override createdAt =>
    simp only [apiStep] at hstep
    split at hstep
    · cases hstep
    · split at hstep
      · next d v hdocument hversion =>
        split at hstep
        · next htenants =>
          obtain rfl := Option.some.inj hstep
          have hchange := createJob_change hs.chain ⟨d, hdocument, htenants.1⟩
            ⟨v, hversion, htenants.2⟩ actor override createdAt
          refine ⟨hs.setDb hchange, fun tenant' htenant' => ?_⟩
          obtain rfl := Option.some.inj htenant'
          let jobs := (s.db.createJob tenant actor document version override
            createdAt).extractionJobs
          have hshows : ShowsOnly tenant ((jobs.get s.db.extractionJobs.nextId).toList.map
              (.job s.db.extractionJobs.nextId)) :=
            showsOnly_get (fun _ => rfl) (owned_insert rfl)
          refine ⟨?_, hchange.writes⟩
          simpa [QueueState.respondedJob] using hshows
        · cases hstep
      · cases hstep
  | readRetry r tenant job =>
    simp only [apiStep] at hstep
    split at hstep
    · next row document _ hrows =>
      split at hstep
      · next hfailed =>
        obtain rfl := Option.some.inj hstep
        -- The request only reads: the rows it holds from now on are its caller's.
        obtain ⟨hrow, hjob, hdocument⟩ := requestRows_owned hrows
        refine ⟨hs.setRequest (fun r' hr => Function.update_of_ne hr _ _) fun q' hq' => ?_,
          fun tenant' _ => ⟨showsOnly_nil, .refl _ _⟩⟩
        obtain rfl := Option.some.inj hq'
        rw [TenantState.noteCaller, Function.update_self]
        exact ⟨hrow, hjob, hdocument⟩
      · cases hstep
    · cases hstep
  | readCancel r tenant job =>
    simp only [apiStep] at hstep
    split at hstep
    · next row document _ hrows =>
      split at hstep
      · next hlive =>
        obtain rfl := Option.some.inj hstep
        obtain ⟨hrow, hjob, hdocument⟩ := requestRows_owned hrows
        refine ⟨hs.setRequest (fun r' hr => Function.update_of_ne hr _ _) fun q' hq' => ?_,
          fun tenant' _ => ⟨showsOnly_nil, .refl _ _⟩⟩
        obtain rfl := Option.some.inj hq'
        rw [TenantState.noteCaller, Function.update_self]
        exact ⟨hrow, hjob, hdocument⟩
      · cases hstep
    · cases hstep
  | commit r actor =>
    simp only [apiStep] at hstep
    split at hstep
    · cases hstep
    · obtain ⟨q, hq, rfl⟩ := Option.map_eq_some_iff.mp hstep
      have howned := hs.requests r q hq
      -- The rows were the caller's when they were read, and no step changes a tenant.
      have hchange := commitRequest_change hs.chain howned.loaded howned.job howned.document actor
      refine ⟨(hs.setDb hchange).setRequest (fun _ _ => rfl) (by simp), fun tenant' htenant' => ?_⟩
      obtain rfl := Option.some.inj htenant'
      have hshows : ShowsOnly (s.callers r)
          (((s.db.commitRequest actor q).extractionJobs.get q.job).toList.map (.job q.job)) :=
        showsOnly_get (fun _ => rfl) (howned.job.keeps hchange.keeps.jobs)
      refine ⟨?_, hchange.writes⟩
      simpa [QueueState.respondedJob, hq] using hshows
  | abandon r =>
    obtain rfl := Option.some.inj hstep
    refine ⟨hs.setRequest (fun _ _ => rfl) (by simp), fun tenant' _ => ⟨showsOnly_nil, .refl _ _⟩⟩

/-- **Every step keeps the invariant, and a step of a request shows and writes rows of the
tenant it was called with.** -/
theorem tenantInv_step (hs : TenantInv s) {act : TenantAct} {t : TenantState}
    {rows : List TenantRow} (h : respond cfg s act = some (t, rows)) :
    TenantInv t ∧ ∀ tenant, s.caller act = some tenant → Confined s tenant t rows := by
  cases act with
  | worker w act =>
    obtain ⟨queue, hstep, heq⟩ := Option.map_eq_some_iff.mp h
    obtain ⟨rfl, rfl⟩ := Prod.mk.inj heq
    -- A worker has no caller, so there is nothing to confine.
    refine ⟨tenantInv_worker hs (workerMove_of_step hstep), fun tenant' htenant' => ?_⟩
    cases htenant'
  | jobs act => exact tenantInv_jobs hs h
  | createTemplate tenant name description documentType definition createdAt =>
    simp only [respond] at h
    split at h
    · obtain ⟨rfl, rfl⟩ := Prod.mk.inj (Option.some.inj h)
      have hchange : TenantChange tenant s.db
          (s.db.createTemplate name description documentType definition tenant createdAt) :=
        createTemplate_change hs.chain name description documentType definition createdAt
      refine ⟨hs.setDb hchange, fun tenant' htenant' => ?_⟩
      obtain rfl := Option.some.inj htenant'
      refine ⟨?_, hchange.writes⟩
      intro row hrow
      obtain ⟨e, he, hrow⟩ := List.mem_flatMap.mp hrow
      have he := List.mem_of_getLast? (Option.mem_toList.mp he)
      exact showsOnly_listTemplates hchange.chain e he row hrow
    · cases h
  | upload tenant actor filename contentType reference =>
    simp only [respond] at h
    split at h
    · cases h
    · obtain ⟨rfl, rfl⟩ := Prod.mk.inj (Option.some.inj h)
      have hchange : TenantChange tenant s.db
          (s.db.uploadDocument tenant actor filename contentType reference) :=
        uploadDocument_change hs.chain actor filename contentType reference
      refine ⟨hs.setDb hchange, fun tenant' htenant' => ?_⟩
      obtain rfl := Option.some.inj htenant'
      exact ⟨showsOnly_get (fun _ => rfl) (owned_insert rfl), hchange.writes⟩
  | start r tenant operation =>
    simp only [respond] at h
    split at h
    · next call _ hcall =>
      obtain ⟨rfl, rfl⟩ := Prod.mk.inj (Option.some.inj h)
      refine ⟨⟨hs.chain, hs.workers, hs.requests, fun r' tenant' call' hcall' => ?_⟩,
        fun tenant' _ => ⟨showsOnly_nil, .refl _ _⟩⟩
      dsimp only at hcall'
      -- The new request owns what it has just read; the others still own what they read.
      by_cases hr : r' = r
      · subst hr
        rw [Function.update_self] at hcall'
        obtain ⟨rfl, rfl⟩ := Prod.mk.inj (Option.some.inj hcall')
        exact callOwned_of_readCall hcall
      · rw [Function.update_of_ne hr] at hcall'
        exact hs.calls r' tenant' call' hcall'
    · cases h
  | finish r now createdAt =>
    obtain ⟨⟨tenant, call⟩, hcall, h⟩ := Option.bind_eq_some_iff.mp h
    obtain ⟨⟨db', files', rows'⟩, hcommit, heq⟩ := Option.map_eq_some_iff.mp h
    obtain ⟨rfl, rfl⟩ := Prod.mk.inj heq
    obtain ⟨hchange, hshows⟩ := commitCall_change hs.chain (hs.calls r tenant call hcall) hcommit
    refine ⟨(hs.setDb hchange).endCall r, fun tenant' htenant' => ?_⟩
    obtain rfl : tenant = tenant' := by simpa [TenantState.caller, hcall] using htenant'
    exact ⟨hshows, hchange.writes⟩
  | abandon r =>
    obtain ⟨rfl, rfl⟩ := Prod.mk.inj (Option.some.inj h)
    exact ⟨hs.endCall r, fun tenant' _ => ⟨showsOnly_nil, .refl _ _⟩⟩
  | ask tenant query =>
    obtain ⟨rfl, rfl⟩ := Prod.mk.inj (Option.some.inj h)
    refine ⟨hs, fun tenant' htenant' => ?_⟩
    obtain rfl := Option.some.inj htenant'
    exact ⟨showsOnly_answer hs.chain query, .refl _ _⟩

end Requests

/-! ### Every run -/

/-- The state without rows, requests or workers at work. -/
theorem tenantInv_empty : TenantInv {} :=
  ⟨tenantChain_empty, fun _ _ _ _ _ h => (nomatch h), fun _ _ h => (nomatch h),
    fun _ _ _ h => (nomatch h)⟩

theorem tenantInv_of_run {cfg : TenantConfig} {acts : List TenantAct} {s : TenantState}
    (h : Run (tenantStep cfg) (fun _ _ => True) {} acts s) : TenantInv s := by
  refine h.invariant (fun s act t hs _ hstep => ?_) tenantInv_empty
  obtain ⟨⟨t', rows⟩, hrespond, rfl⟩ := Option.map_eq_some_iff.mp hstep
  exact (tenantInv_step hs hrespond).1

/-- **The tenant chain.**  In every reachable state every row has the tenant of the row it
refers to, no worker finds its job, document and version of different tenants, and a step of
a request called with a tenant shows and writes rows of that tenant only. -/
theorem tenant_chain_of_run (cfg : TenantConfig) (acts : List TenantAct) (s : TenantState)
    (h : Run (tenantStep cfg) (fun _ _ => True) {} acts s) :
    TenantChain s.db ∧
    (∀ w j job document version,
      s.queue.workers w = .busy j (.checkTenants job document version) →
        ensureJobTenantConsistency job document version = none) ∧
    ∀ act tenant t rows, respond cfg s act = some (t, rows) → s.caller act = some tenant →
      (∀ row ∈ rows, row.tenantId = tenant) ∧ WritesOnly tenant s.db t.db := by
  have hs := tenantInv_of_run h
  refine ⟨hs.chain, hs.workers, fun act tenant t rows hrespond hcaller => ?_⟩
  exact (tenantInv_step hs hrespond).2 tenant hcaller

/-- A deployment with local storage and empty files. -/
def localConfig : TenantConfig where
  rt := plainRuntime
  backend := .local
  lib :=
    { jsonBytes := fun _ => [], csvBytes := fun _ => [], workbookBytes := fun _ _ => []
      jsonText := fun _ => "", sha256 := fun _ => "" }

/-- Two tenants with a template of one name; the first one queues a job on it. -/
def twoTenants : List TenantAct :=
  let definition : ExtractionTemplate := { templateName := "Invoice", documentType := "invoice" }
  [.createTemplate "acme" "Invoice" "" "invoice" definition 0,
    .createTemplate "umbrella" "Invoice" "" "invoice" definition 1,
    .upload "acme" "ann" "a.txt" "text/plain" "uploads/a.txt",
    .jobs (.createJob "acme" "ann" 1 1 none 2)]

theorem tenant_chain_of_two_tenants :
    ∃ s, exec (tenantStep localConfig) {} twoTenants = some s ∧
      s.db.extractionJobs.rows.length = 1 ∧ TenantChain s.db := by
  refine ⟨_, rfl, rfl, ?_⟩
  exact (tenant_chain_of_run localConfig twoTenants _ (run_of_exec _ _ _ rfl)).1

end ExtractFlow
