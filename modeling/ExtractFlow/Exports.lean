import ExtractFlow.ReviewEdits

/-!
# Exports

`assert_export_allowed` and `export_result` of `backend/app/services/result_service.py`,
with the parts of `storage.py` and `blob_store.py` they use: the file name made
from the result, the format and a one-second time stamp, the file written under
the exports root, and the hash of what is read back.

The exports root is a directory, or a bucket with a local cache in front of it
that is filled on the first read of an object and never refreshed.

The encoders of the three formats and the hash come from libraries
(`ExportLibrary`); the rows of the tables are computed here.

## Main definitions

* `getTenantBoolSetting`, `assertExportAllowed` — the gate.
* `buildExportReference` — the file name.
* `ExportFiles`, `ExportFiles.write`, `ExportFiles.materialize` — the exports root.
* `exportResult`.

## Main results

* `assertExportAllowed_iff` — when the gate lets a result through.
* `buildExportReference_inj` — the name determines the result, the format and the second.
* `exportResult_spec` — what an export that returns did.
-/

namespace ExtractFlow

/-! ### The gate -/

/-- `build_tenant_setting_key`. -/
def buildTenantSettingKey (tenant name : String) : String := s!"tenant:{tenant}:{name}"

/-- `get_tenant_bool_setting` with the default `False`: a truth value, or an object with one under
`enabled`. -/
def Database.getTenantBoolSetting (db : Database) (tenant name : String) : Bool :=
  match (db.settings.select fun s => s.key == buildTenantSettingKey tenant name).head? with
  | none => false
  | some (_, setting) =>
      match setting.value with
      | .bool b => b
      | .dict items => ((PyVal.dictGet items "enabled").map PyVal.truthy).getD false
      | _ => false

/-- The message of a blocked export. -/
def exportBlockedMessage : String :=
  "Export blocked until review is cleared. Save review decisions for all fields requiring review."

/-- `assert_export_allowed`: with the setting of the tenant on, a result is exported only once it
was reviewed and no field asks for review. -/
def assertExportAllowed (db : Database) (result : ExtractionResult) : Except PyErr Unit :=
  if !db.getTenantBoolSetting result.tenantId "export.require_review_cleared" then .ok ()
  else if result.reviewStatus == .pending || !result.resultJson.fieldsRequiringReview.isEmpty then
    .error (.valueError exportBlockedMessage)
  else .ok ()

/-! ### File names -/

/-- `_EXPORT_SUFFIX_BY_FORMAT`. -/
def ExportFormat.suffix : ExportFormat → String
  | .json => "json"
  | .csv => "csv"
  | .excel => "xlsx"

/-- The name of a format. -/
def ExportFormat.value : ExportFormat → String
  | .json => "json"
  | .csv => "csv"
  | .excel => "excel"

/-- The letters of `build_export_reference`, with the time stamp of `now`. -/
def exportReferenceChars (resultId : ℕ) (format : ExportFormat) (now : UtcTime) : List Char :=
  "result-".toList ++ (toString resultId).toList ++ ['-'] ++ now.stamp ++ ['.'] ++
    format.suffix.toList

/-- `build_export_reference`: the reference an export is stored under, with the time in whole
seconds. -/
def buildExportReference (resultId : ℕ) (format : ExportFormat) (now : UtcTime) : String :=
  String.ofList (exportReferenceChars resultId format now)

/-! ### File contents -/

abbrev Bytes := List UInt8

/-- What the exports take from libraries: the JSON text of a summary, the CSV
text and the workbook of a table, the JSON text of one value, and SHA-256. -/
structure ExportLibrary where
  jsonBytes : ExtractionValidationSummary → Bytes
  csvBytes : List (List String) → Bytes
  workbookBytes : List (List String) → UtcTime → Bytes
  jsonText : PyVal → String
  sha256 : Bytes → String

/-- The stored text of a validation status. -/
def ValidationStatus.text : ValidationStatus → String
  | .pending => "pending"
  | .valid => "valid"
  | .invalid => "invalid"
  | .reviewed => "reviewed"
  | .other s => s

/-- The rows of the CSV and Excel exports. -/
def exportRows (lib : ExportLibrary) (s : ExtractionValidationSummary) : List (List String) :=
  let flag := fun b : Bool => if b then "True" else "False"
  [["field_name", "label", "kind", "value", "status", "requires_review"]] ++
    (s.extractedFields.map fun f => [f.fieldName, f.label, "extracted",
      lib.jsonText f.normalizedValue, f.validationStatus.text, flag f.requiresReview]) ++
    s.calculatedFields.map fun c => [c.fieldName, c.label, "calculated",
      lib.jsonText c.calculatedValue, c.validationStatus.text, flag c.requiresReview]

/-- The bytes `write_result_export_file` writes; a workbook carries the time. -/
def renderExport (lib : ExportLibrary) (format : ExportFormat) (s : ExtractionValidationSummary)
    (now : UtcTime) : Bytes :=
  match format with
  | .json => lib.jsonBytes s
  | .csv => lib.csvBytes (exportRows lib s)
  | .excel => lib.workbookBytes (exportRows lib s) now

/-! ### The exports root -/

/-- `STORAGE_BACKEND`: where files are kept. -/
inductive StorageBackend where
  | local | s3
  deriving DecidableEq, Repr, Inhabited

/-- The files of the exports root, by reference, and the local copies of bucket
objects. -/
structure ExportFiles where
  stored : String → Option Bytes := fun _ => none
  cache : String → Option Bytes := fun _ => none

/-- Write a file under the exports root, over whatever was there. -/
def ExportFiles.write (files : ExportFiles) (reference : String) (bytes : Bytes) : ExportFiles :=
  { files with stored := Function.update files.stored reference (some bytes) }

/-- `materialize` and `read_bytes`: what is read, and the cache afterwards. From a bucket an object
is read once, and then from its copy. -/
def ExportFiles.materialize (backend : StorageBackend) (files : ExportFiles)
    (reference : String) : Option (Bytes × ExportFiles) :=
  match backend with
  | .local => (files.stored reference).map fun bytes => (bytes, files)
  | .s3 =>
      match files.cache reference with
      | some bytes => some (bytes, files)
      | none => (files.stored reference).map fun bytes =>
          (bytes, { files with cache := Function.update files.cache reference (some bytes) })

/-! ### The export -/

/-- `_latest_reviewer`. -/
def Database.latestReviewer (db : Database) (resultId : ℕ) (result : ExtractionResult) :
    Option String :=
  ((db.reviewEdits.select fun e =>
    e.resultId == resultId && e.tenantId == result.tenantId).getLast?).map fun e => e.2.reviewer

/-- The job of a result, of the same tenant. -/
def Database.jobOf (db : Database) (result : ExtractionResult) : Option ExtractionJob :=
  (db.extractionJobs.get result.jobId).filter fun job => job.tenantId == result.tenantId

/-- `reviewer or _latest_reviewer(...) or "local-user"`. -/
def Database.exportReviewer (db : Database) (resultId : ℕ) (result : ExtractionResult)
    (reviewer : Option String) : String :=
  match reviewer.filter (· != "") with
  | some name => name
  | none => ((db.latestReviewer resultId result).filter (· != "")).getD "local-user"

/-- The record of an export whose file holds `bytes`. -/
def Database.exportRecord (db : Database) (lib : ExportLibrary) (resultId : ℕ)
    (result : ExtractionResult) (format : ExportFormat) (reviewer : Option String)
    (now : UtcTime) (bytes : Bytes) : ExportRecord where
  tenantId := result.tenantId
  resultId := resultId
  exportFormat := format
  filePath := buildExportReference resultId format now
  contentSha256 := lib.sha256 bytes
  exportedAt := now
  reviewer := db.exportReviewer resultId result reviewer
  templateVersionId := (db.jobOf result).map ExtractionJob.templateVersionId

/-- The commits of an export: the record, and the audit event about it. -/
def Database.commitExport (db : Database) (result : ExtractionResult) (record : ExportRecord) :
    Database :=
  { db with
    exports := db.exports.insert record
    auditEvents := db.auditEvents.insert
      { tenantId := result.tenantId, actor := record.reviewer, action := "export.created",
        objectType := "export", objectId := db.exports.nextId,
        metadata :=
          [("result_id", .int record.resultId), ("job_id", .int result.jobId),
            ("document_id", ((db.jobOf result).map fun j => PyVal.int j.documentId).getD .none),
            ("export_format", .str record.exportFormat.value),
            ("content_sha256", .str record.contentSha256)] } }

/-- `export_result`: the file is written and read back, and the record says the hash of what was
read. -/
def exportResult (backend : StorageBackend) (lib : ExportLibrary) (db : Database)
    (files : ExportFiles) (resultId : ℕ) (result : ExtractionResult) (format : ExportFormat)
    (reviewer : Option String) (now : UtcTime) : Except PyErr (Database × ExportFiles) := do
  assertExportAllowed db result
  let reference := buildExportReference resultId format now
  let files := files.write reference (renderExport lib format result.resultJson now)
  match files.materialize backend reference with
  | none => throw (.other "FileNotFoundError")
  | some (bytes, files) =>
      return (db.commitExport result
        (db.exportRecord lib resultId result format reviewer now bytes), files)

/-! ### What the gate checks -/

/-- The gate lets a result through when it is off, or the result was reviewed and
its list is empty. -/
theorem assertExportAllowed_iff {db : Database} {result : ExtractionResult} :
    assertExportAllowed db result = .ok () ↔
      db.getTenantBoolSetting result.tenantId "export.require_review_cleared" = false ∨
        result.reviewStatus ≠ .pending ∧ result.resultJson.fieldsRequiringReview = [] := by
  unfold assertExportAllowed
  split
  · next hoff =>
    have hoff : db.getTenantBoolSetting result.tenantId "export.require_review_cleared" = false := by
      simpa using hoff
    simp [hoff]
  · next hon =>
    have hon : db.getTenantBoolSetting result.tenantId "export.require_review_cleared" = true := by
      simpa using hon
    simp [hon]

/-! ### Names and files -/

/-- The last letter of a suffix. -/
def ExportFormat.lastLetter : ExportFormat → Char
  | .json => 'n'
  | .csv => 'v'
  | .excel => 'x'

theorem suffix_getLast (format : ExportFormat) :
    format.suffix.toList.getLast? = some format.lastLetter := by
  cases format <;> decide

theorem suffix_getLast_inj {format format' : ExportFormat}
    (h : some format.lastLetter = some format'.lastLetter) : format = format' := by
  revert h
  cases format <;> cases format' <;> decide

/-- **The file name determines the result, the format and the second**, and nothing finer than the
second. -/
theorem buildExportReference_inj {id id' : ℕ} {format format' : ExportFormat}
    {now now' : UtcTime}
    (h : buildExportReference id format now = buildExportReference id' format' now') :
    id = id' ∧ format = format' ∧ now.SameSecond now' := by
  have h : exportReferenceChars id format now = exportReferenceChars id' format' now' :=
    String.ofList_injective h
  unfold exportReferenceChars at h
  have hformat : format = format' := suffix_getLast_inj <| by
    have hlast := congrArg List.getLast? h
    simpa only [List.getLast?_append, suffix_getLast, Option.some_or] using hlast
  subst hformat
  obtain ⟨h, -⟩ := List.append_inj' h rfl
  obtain ⟨h, -⟩ := List.append_inj' h rfl
  obtain ⟨h, hstamp⟩ := List.append_inj' h (by simp)
  obtain ⟨h, -⟩ := List.append_inj' h rfl
  exact ⟨Decimal.toString_inj (List.append_cancel_left h), rfl, UtcTime.stamp_eq_iff.mp hstamp⟩

/-- Without a stale copy in the cache, what is read back is what was written. -/
theorem materialize_write {backend : StorageBackend} {files : ExportFiles} {reference : String}
    {bytes : Bytes} (hcache : backend = .s3 → ∀ b, files.cache reference = some b → b = bytes) :
    ∃ files', (files.write reference bytes).materialize backend reference = some (bytes, files') ∧
      files'.stored = Function.update files.stored reference (some bytes) ∧
      ∀ r b, files'.cache r = some b → files.cache r = some b ∨ (r = reference ∧ b = bytes) := by
  cases backend with
  | «local» =>
    exact ⟨files.write reference bytes, by simp [ExportFiles.materialize, ExportFiles.write], rfl,
      fun r b h => Or.inl h⟩
  | s3 =>
    cases hc : files.cache reference with
    -- There is a copy already; it is not stale, so it has the bytes that were written.
    | some b =>
      obtain rfl := hcache rfl b hc
      exact ⟨files.write reference b, by simp [ExportFiles.materialize, ExportFiles.write, hc], rfl,
        fun r b' h => Or.inl h⟩
    | none =>
      refine ⟨{ files.write reference bytes with
        cache := Function.update files.cache reference (some bytes) }, ?_, rfl, ?_⟩
      · simp [ExportFiles.materialize, ExportFiles.write, hc]
      · intro r b h
        by_cases hr : r = reference
        · subst hr
          simp only [Function.update_self, Option.some.injEq] at h
          exact Or.inr ⟨rfl, h.symm⟩
        · simp only [Function.update_of_ne hr] at h
          exact Or.inl h

/-! ### What an export did -/

/-- **What an export that returns did**: the gate let the result through, the file
was written under its name and read back, and the record of what was read was
committed. -/
theorem exportResult_spec {backend : StorageBackend} {lib : ExportLibrary} {db db' : Database}
    {files files' : ExportFiles} {resultId : ℕ} {result : ExtractionResult}
    {format : ExportFormat} {reviewer : Option String} {now : UtcTime}
    (h : exportResult backend lib db files resultId result format reviewer now =
      .ok (db', files')) :
    assertExportAllowed db result = .ok () ∧
      ∃ bytes,
        (files.write (buildExportReference resultId format now)
            (renderExport lib format result.resultJson now)).materialize backend
          (buildExportReference resultId format now) = some (bytes, files') ∧
        db' = db.commitExport result
          (db.exportRecord lib resultId result format reviewer now bytes) := by
  unfold exportResult at h
  obtain ⟨⟨⟩, hgate, h⟩ := Failing.bind_ok.mp h
  refine ⟨hgate, ?_⟩
  dsimp only at h
  split at h
  · cases h
  · next bytes files₁ hread =>
    obtain ⟨rfl, rfl⟩ := Prod.mk.inj (Except.ok.inj h)
    exact ⟨bytes, hread, rfl⟩

end ExtractFlow
