import ExtractFlow.ResultFlow

/-!
# The hashes of the exports

An export record keeps the hash of its file.  The name of the file holds the
result, the format and the second, so a later export of the same result in the
same format and second overwrites it; and a bucket's local copy, filled by the
first of them, is read back instead of the file of the second.

The record stays right exactly as long as such an overwrite writes the bytes that
are there.

## Main definitions

* `OverwritesNothing` — an export finds no earlier record under its name, or its
  own bytes.
* `FilesMatch` — the invariant: records, files and local copies agree.

## Main results

* `export_integrity` — then every record's hash is that of its file.
* `reexport_overwrites` — an export in the same second after a review breaks one.
-/

namespace ExtractFlow

open Transition

/-- Under the name of an export there is no earlier record, or the bytes the
export is going to write. -/
def OverwritesNothing (cfg : FlowConfig) (s : FlowState) : FlowAct → Prop
  | .exportResult resultId format _ now =>
      ∀ row, s.db.extractionResults.get resultId = some row →
        ∀ k record, s.db.exports.get k = some record → record.resultId = resultId →
          record.exportFormat = format → record.exportedAt.SameSecond now →
          s.files.stored record.filePath =
            some (renderExport cfg.lib format row.resultJson now)
  | _ => True

/-- Records, files and local copies agree: a record names the file its export wrote, holds the hash
of what is there, and a local copy has the bytes of the file it was made from. -/
structure FilesMatch (cfg : FlowConfig) (s : FlowState) : Prop where
  named : ∀ k record, s.db.exports.get k = some record →
    record.filePath = buildExportReference record.resultId record.exportFormat record.exportedAt
  hashed : ∀ k record, s.db.exports.get k = some record →
    ∃ bytes, s.files.stored record.filePath = some bytes ∧
      record.contentSha256 = cfg.lib.sha256 bytes
  /-- A local copy is a copy of the file. -/
  cached : ∀ reference bytes, s.files.cache reference = some bytes →
    s.files.stored reference = some bytes
  /-- Only exported files have local copies. -/
  recorded : ∀ reference bytes, s.files.cache reference = some bytes →
    ∃ k record, s.db.exports.get k = some record ∧ record.filePath = reference

section Step

variable {cfg : FlowConfig} {s : FlowState} {resultId : ℕ} {format : ExportFormat}
  {reviewer : Option String} {now : UtcTime} {row : ExtractionResult}

/-- An earlier record under the name of an export has its bytes. -/
theorem stored_of_filePath (hs : FilesMatch cfg s)
    (hrow : s.db.extractionResults.get resultId = some row)
    (hok : OverwritesNothing cfg s (.exportResult resultId format reviewer now)) {k : ℕ}
    {record : ExportRecord} (hrecord : s.db.exports.get k = some record)
    (hpath : record.filePath = buildExportReference resultId format now) :
    s.files.stored (buildExportReference resultId format now) =
      some (renderExport cfg.lib format row.resultJson now) := by
  obtain ⟨hid, hformat, hsecond⟩ :=
    buildExportReference_inj ((hs.named k record hrecord).symm.trans hpath)
  rw [← hpath]
  exact hok row hrow k record hrecord hid hformat hsecond

/-- An export keeps the match. -/
theorem filesMatch_export (hs : FilesMatch cfg s)
    (hrow : s.db.extractionResults.get resultId = some row)
    (hok : OverwritesNothing cfg s (.exportResult resultId format reviewer now))
    {db : Database} {files : ExportFiles}
    (hexport : exportResult cfg.backend cfg.lib s.db s.files resultId row format reviewer now =
      .ok (db, files)) :
    FilesMatch cfg { db := db, files := files, clock := now } := by
  obtain ⟨-, bytes, hread, rfl⟩ := exportResult_spec hexport
  have hstored : ∀ {k record}, s.db.exports.get k = some record →
      record.filePath = buildExportReference resultId format now →
      s.files.stored (buildExportReference resultId format now) =
        some (renderExport cfg.lib format row.resultJson now) :=
    fun hrecord hpath => stored_of_filePath hs hrow hok hrecord hpath
  -- a local copy under the name is a copy of the bytes to write
  have hcopy : cfg.backend = .s3 → ∀ b,
      s.files.cache (buildExportReference resultId format now) = some b →
      b = renderExport cfg.lib format row.resultJson now := by
    intro _ b hb
    obtain ⟨k, record, hrecord, hpath⟩ := hs.recorded _ b hb
    exact Option.some.inj ((hs.cached _ b hb).symm.trans (hstored hrecord hpath))
  obtain ⟨files', hread', hfiles, hcache⟩ := materialize_write hcopy
  obtain ⟨rfl, rfl⟩ := Prod.mk.inj (Option.some.inj (hread'.symm.trans hread))
  -- a record of the new state is an old one or the new one
  have hrecords : ∀ {k record},
      (s.db.exports.insert (s.db.exportRecord cfg.lib resultId row format reviewer now
        (renderExport cfg.lib format row.resultJson now))).get k = some record →
      s.db.exports.get k = some record ∨
        record = s.db.exportRecord cfg.lib resultId row format reviewer now
          (renderExport cfg.lib format row.resultJson now) := by
    intro k record hk
    by_cases hid : k = s.db.exports.nextId
    · rw [hid, Table.get_insert_self] at hk
      exact Or.inr (Option.some.inj hk).symm
    · rw [Table.get_insert_ne _ _ hid] at hk
      exact Or.inl hk
  refine ⟨?_, ?_, ?_, ?_⟩
  · intro k record hk
    rcases hrecords hk with hk | rfl
    · exact hs.named k record hk
    · rfl
  · intro k record hk
    rw [hfiles]
    rcases hrecords hk with hk | rfl
    · obtain ⟨b, hb, hsha⟩ := hs.hashed k record hk
      by_cases hpath : record.filePath = buildExportReference resultId format now
      · rw [hpath, hstored hk hpath] at hb
        exact ⟨b, by rw [hpath, Function.update_self, hb], hsha⟩
      · exact ⟨b, by rw [Function.update_of_ne hpath, hb], hsha⟩
    · exact ⟨_, Function.update_self .., rfl⟩
  · intro reference b hb
    rw [hfiles]
    rcases hcache reference b hb with hb | ⟨rfl, rfl⟩
    · by_cases href : reference = buildExportReference resultId format now
      · subst href
        obtain ⟨k, record, hk, hpath⟩ := hs.recorded _ b hb
        rw [Function.update_self, ← hstored hk hpath]
        exact hs.cached _ b hb
      · rw [Function.update_of_ne href]
        exact hs.cached reference b hb
    · exact Function.update_self ..
  · intro reference b hb
    rcases hcache reference b hb with hb | ⟨rfl, rfl⟩
    · obtain ⟨k, record, hk, hpath⟩ := hs.recorded reference b hb
      exact ⟨k, record, Table.get_insert_of_get _ hk, hpath⟩
    · exact ⟨_, _, Table.get_insert_self .., rfl⟩

end Step

/-- A step whose export overwrites nothing keeps the match. -/
theorem filesMatch_step {cfg : FlowConfig} {s t : FlowState} {act : FlowAct}
    (hs : FilesMatch cfg s) (hok : OverwritesNothing cfg s act)
    (hstep : flowStep cfg s act = some t) : FilesMatch cfg t := by
  cases flowMove_of_step hstep with
  | @complete job _ _ _ row _ summary _ _ =>
    have hexports : (s.db.commitCompletion job row row summary).exports = s.db.exports :=
      commitCompletion_exports
    refine ⟨?_, ?_, hs.cached, ?_⟩
    · rw [hexports]
      exact hs.named
    · rw [hexports]
      exact hs.hashed
    · rw [hexports]
      exact hs.recorded
  | review _ _ => exact ⟨hs.named, hs.hashed, hs.cached, hs.recorded⟩
  | exportResult hrow hexport => exact filesMatch_export hs hrow hok hexport

/-- **Export integrity.**  As long as no export overwrites other bytes, the hash of
every record ever created is that of the bytes stored under its path. -/
theorem export_integrity {cfg : FlowConfig} {s t : FlowState} {acts : List FlowAct}
    (hexports : ∀ k, s.db.exports.get k = none) (hcache : ∀ r, s.files.cache r = none)
    (hrun : Run (flowStep cfg) (OverwritesNothing cfg) s acts t) {k : ℕ} {record : ExportRecord}
    (hrecord : t.db.exports.get k = some record) :
    ∃ bytes, t.files.stored record.filePath = some bytes ∧
      record.contentSha256 = cfg.lib.sha256 bytes := by
  have hstart : FilesMatch cfg s := by
    refine ⟨?_, ?_, ?_, ?_⟩
    · intro k record hk
      rw [hexports k] at hk
      cases hk
    · intro k record hk
      rw [hexports k] at hk
      cases hk
    · intro r b hb
      rw [hcache r] at hb
      cases hb
    · intro r b hb
      rw [hcache r] at hb
      cases hb
  have hmatch : FilesMatch cfg t :=
    Run.invariant (fun _ _ _ hs hok hstep => filesMatch_step hs hok hstep) hrun hstart
  exact hmatch.hashed k record hrecord

/-! ### Two exports in one second -/

/-- A library whose JSON text of a summary is the text values of its fields, and
whose hash is the bytes themselves. -/
def plainLibrary : ExportLibrary where
  jsonBytes s := (s.extractedFields.map fun f =>
    match f.normalizedValue with
    | .str text => text.toList.map Char.toUInt8
    | _ => []).flatten
  csvBytes _ := []
  workbookBytes _ _ := []
  jsonText _ := ""
  sha256 bytes := String.ofList (bytes.map Char.ofUInt8)

theorem plainLibrary_sha256_injective : Function.Injective plainLibrary.sha256 := by
  intro bytes bytes' h
  refine List.map_injective_iff.mpr ?_ (String.ofList_injective h)
  intro b b' hb
  exact UInt8.toUInt32_inj.mp (congrArg Char.val hb)

/-- An exports root in a directory, and no gate. -/
def directoryConfig : FlowConfig where
  world := silentWorld
  deployment := {}
  backend := .local
  lib := plainLibrary

/-- A completed job whose one field was read. -/
def readState : FlowState where
  db := { oneJobDb { queuedJob with status := .completed } with
    extractionResults := .ofRows [(1,
      { jobId := 1
        resultJson := { emptySummary with
          extractedFields :=
            [{ fieldName := "vendor", label := "Vendor", dataType := .text,
               normalizedValue := .str "Acme", validationStatus := .valid }] } })] }

/-- The correction a reviewer sends between two exports. -/
def renameVendor : ReviewEditPayload where
  edits := [{ fieldName := "vendor", normalizedValue := .str "Ajax" }]
  reviewer := "ann"

/-- An export, a correction and an export in another format, all in one second:
the first file is still the one that was hashed. -/
theorem export_integrity_two_formats :
    ∃ t record, Run (flowStep directoryConfig) (OverwritesNothing directoryConfig) readState
        [.exportResult 1 .json none .epoch, .review 1 renameVendor .epoch,
          .exportResult 1 .csv none .epoch] t ∧
      t.db.exports.get 1 = some record ∧
      ∃ bytes, t.files.stored record.filePath = some bytes ∧
        record.contentSha256 = plainLibrary.sha256 bytes := by
  have hsteps : ∃ t u v first record,
      exportStored directoryConfig readState 1 .json none .epoch = some t ∧
      t.clock = .epoch ∧
      reviewStored directoryConfig t 1 renameVendor .epoch = some u ∧
      u.clock = .epoch ∧ u.db.exports.rows = [(1, first)] ∧ first.exportFormat = .json ∧
      exportStored directoryConfig u 1 .csv none .epoch = some v ∧
      v.db.exports.get 1 = some record :=
    ⟨_, _, _, _, _, rfl, rfl, rfl, rfl, rfl, rfl, rfl, rfl⟩
  obtain ⟨t, u, v, first, record, hexport, ht, hreview, hu, hrows, hjson, hexport', hrecord⟩ :=
    hsteps
  -- The second export is in another format, so it has a file of its own.
  have hok : OverwritesNothing directoryConfig u (.exportResult 1 .csv none .epoch) := by
    intro row _ k record hk _ hformat
    have hmem := Table.mem_of_get hk
    rw [hrows] at hmem
    obtain ⟨-, rfl⟩ := Prod.mk.inj (List.mem_singleton.mp hmem)
    rw [hjson] at hformat
    cases hformat
  have hrun : Run (flowStep directoryConfig) (OverwritesNothing directoryConfig) readState
      [.exportResult 1 .json none .epoch, .review 1 renameVendor .epoch,
        .exportResult 1 .csv none .epoch] v := by
    refine .cons ((flowStep_exportResult (UtcTime.le_refl _)).trans hexport) ?_
      (.cons ((flowStep_review (ht ▸ UtcTime.le_refl _)).trans hreview) trivial
        (.cons ((flowStep_exportResult (hu ▸ UtcTime.le_refl _)).trans hexport') hok (.nil v)))
    intro row _ k record hk
    cases hk
  exact ⟨v, record, hrun, hrecord,
    export_integrity (fun _ => rfl) (fun _ => rfl) hrun hrecord⟩

/-- **Without that discipline it fails**: export, correct, and export again in the
same format and second, and the first record's hash is not that of its file. -/
theorem reexport_overwrites :
    ¬ ∀ (cfg : FlowConfig) (s t : FlowState) (acts : List FlowAct),
      Function.Injective cfg.lib.sha256 →
      (∀ k, s.db.exports.get k = none) → (∀ r, s.files.cache r = none) →
      Run (flowStep cfg) (fun _ _ => True) s acts t →
      ∀ k record, t.db.exports.get k = some record →
        ∃ bytes, t.files.stored record.filePath = some bytes ∧
          record.contentSha256 = cfg.lib.sha256 bytes := by
  intro hclaim
  have hsteps : ∃ t u v record bytes,
      exportStored directoryConfig readState 1 .json none .epoch = some t ∧
      t.clock = .epoch ∧
      reviewStored directoryConfig t 1 renameVendor .epoch = some u ∧
      u.clock = .epoch ∧
      exportStored directoryConfig u 1 .json none .epoch = some v ∧
      v.db.exports.get 1 = some record ∧ v.files.stored record.filePath = some bytes ∧
      record.contentSha256 = plainLibrary.sha256 ("Acme".toList.map Char.toUInt8) ∧
      bytes = "Ajax".toList.map Char.toUInt8 :=
    ⟨_, _, _, _, _, rfl, rfl, rfl, rfl, rfl, rfl, by simp; rfl, rfl, rfl⟩
  obtain ⟨t, u, v, record, bytes, hexport, ht, hreview, hu, hexport', hrecord, hstored, hsha,
    rfl⟩ := hsteps
  -- No condition on the steps: the second export writes the file of the first.
  have hrun : Run (flowStep directoryConfig) (fun _ _ => True) readState
      [.exportResult 1 .json none .epoch, .review 1 renameVendor .epoch,
        .exportResult 1 .json none .epoch] v :=
    .cons ((flowStep_exportResult (UtcTime.le_refl _)).trans hexport) trivial
      (.cons ((flowStep_review (ht ▸ UtcTime.le_refl _)).trans hreview) trivial
        (.cons ((flowStep_exportResult (hu ▸ UtcTime.le_refl _)).trans hexport') trivial (.nil v)))
  obtain ⟨bytes, hbytes, hsha'⟩ := hclaim directoryConfig readState v _
    plainLibrary_sha256_injective (fun _ => rfl) (fun _ => rfl) hrun 1 record hrecord
  obtain rfl := Option.some.inj (hstored.symm.trans hbytes)
  rw [hsha] at hsha'
  exact absurd (plainLibrary_sha256_injective hsha') (by decide)

end ExtractFlow
