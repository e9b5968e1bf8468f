import ExtractFlow.Lib.Keyed
import ExtractFlow.Evaluator
import ExtractFlow.Executor
import ExtractFlow.FieldNotes
import ExtractFlow.MockExtract

/-!
# The dry run of a schema

`run_schema_dry_run` (`shared/extraction_core/dry_run.py`) shows an operator what
a template makes of a sample text before it is published.  The worker makes the
same of the text through `execute_extraction`, when its provider is the mock: it
splits the text into chunks, asks the adapter for each, and notes the chunk on
every result.  A text that fits one chunk is one chunk, stripped as the dry run
strips it, so the two differ in that note.

And in one more thing: the worker stores its summary in JSON form, the dry run
returns its values as they are.  A formula may leave a value without a JSON form;
then the worker fails where the dry run reports.

## Main definitions

* `SchemaDryRunFieldResult`, `SchemaDryRunResponse`, `runSchemaDryRun`.
* `ExtractionWorld.withMock` — a world whose mock adapter is the mock extractor.
* `ShowsField`, `ReportsAlike` — a report and a summary say the same.

## Main results

* `providerExtract_mock` — the mock's results for a text that fits one chunk.
* `mockExtraction_alike` — both pipelines fail alike or compute alike.
* `dry_run_agrees_with_worker` — what the dry run reports is what the worker stores.
* `dry_run_reports_unstorable_value` — it may report what the worker cannot store.
-/

namespace ExtractFlow

/-! ### The report -/

/-- What the dry run shows of a field: its result, without the citation. -/
structure SchemaDryRunFieldResult where
  fieldName : String
  label : String
  dataType : String
  validationStatus : ValidationStatus
  validationErrors : List String := []
  requiresReview : Bool := false
  confidenceScore : PyFloat := .fin 0
  extractedValue : Option String := none
  normalizedValue : PyVal := .none
  sourceText : String := ""
  extractionNotes : String := ""
  deriving Repr, Inhabited

/-- What the dry run answers: the errors of the schema, or what it makes of the sample text. -/
structure SchemaDryRunResponse where
  ok : Bool
  schemaErrors : List String := []
  documentLevelNotes : List String := []
  extractedFields : List SchemaDryRunFieldResult := []
  calculatedFields : List CalculatedFieldResult := []
  fieldsRequiringReview : List String := []
  summary : Option ExtractionValidationSummary := none
  deriving Repr, Inhabited

/-- The row of a field. -/
def dryRunField (num : PyNumeric) (field : ExtractionFieldResult) : SchemaDryRunFieldResult where
  fieldName := field.fieldName
  label := field.label
  dataType := field.dataType.value
  validationStatus := field.validationStatus
  validationErrors := field.validationErrors
  requiresReview := field.requiresReview
  confidenceScore := field.confidenceScore
  extractedValue :=
    if field.extractedValue.isNone then none else some (num.str field.extractedValue)
  normalizedValue := field.normalizedValue
  sourceText := field.sourceText
  extractionNotes := field.extractionNotes

/-- The settings of the template, with the mock in place of its provider. -/
def mockSettings (settings : LLMProviderSettings) : LLMProviderSettings :=
  { settings with
    providerType := "mock"
    apiStyle := .mock
    langextractConstraints := fun h => absurd h (by decide) }

/-- The response about the outcome of a dry run. -/
def dryRunResponse (num : PyNumeric) (template : ExtractionTemplate)
    (extracted : List ExtractionFieldResult) (notes : List String)
    (calculated : List CalculatedFieldResult) : SchemaDryRunResponse :=
  let summary : ExtractionValidationSummary :=
    { extractionSummary 0 template (mockSettings template.llmProviderSettings) extracted calculated
        notes with documentId := "dry-run" }
  let hasInvalid := extracted.any (fun field => field.validationStatus == .invalid) ||
    calculated.any fun field => !field.validationErrors.isEmpty
  { ok := !hasInvalid
    documentLevelNotes := notes
    extractedFields := extracted.map (dryRunField num)
    calculatedFields := calculated
    fieldsRequiringReview := summary.fieldsRequiringReview
    summary := some summary }

/-- `run_schema_dry_run`: a template that is not valid is reported, and a valid one is run on the
stripped text. -/
def runSchemaDryRun (w : ExtractionWorld) (lib : MockLibrary) (template : ExtractionTemplate)
    (sampleText : String) : Except PyErr SchemaDryRunResponse :=
  let strippedText := pyStrip sampleText
  if strippedText = "" then
    .ok { ok := false, schemaErrors := ["Sample text is required for a dry run."] }
  else
    match validateTemplate w.rt.engine w.rt.checkSchema template with
    | .error (.valueError msg) => .ok { ok := false, schemaErrors := [s!"Value error, {msg}"] }
    | .error e => .error e
    | .ok () => do
        let (extracted, notes) ← reconcileExtractedFields w.fields w.rt.num
          template.confidenceRule template.extractedFields
          (mockExtractFields lib w.fields.lowerCase strippedText template)
        let calculated ←
          evaluateCalculatedFields w.rt.engine w.rt.num template.calculatedFields extracted
        return dryRunResponse w.rt.num template extracted notes calculated

/-! ### The worker with the mock -/

/-- The world in which the mock’s adapter is `MockProviderAdapter`, and all others are as
they were. -/
def ExtractionWorld.withMock (w : ExtractionWorld) (lib : MockLibrary) : ExtractionWorld :=
  { w with
    run := fun adapter text template settings =>
      match adapter with
      | .mock => .ok (mockExtractFields lib w.fields.lowerCase text template)
      | _ => w.run adapter text template settings }

/-- The suffix of a note on a text of one chunk. -/
def oneChunkSuffix : String := " Chunk 1/1."

/-- The results of the mock for one chunk. -/
def chunkNoted (r : ExtractionFieldResult) : ExtractionFieldResult :=
  r.withNotes (r.extractionNotes ++ oneChunkSuffix)

theorem noteChunk_one {r : ExtractionFieldResult} (h : r.extractionNotes ≠ "") :
    noteChunk 1 1 r = chunkNoted r := by
  have hsuffix : (s!"{r.extractionNotes} Chunk {1}/{1}." : String) =
      r.extractionNotes ++ oneChunkSuffix := by
    show r.extractionNotes ++ " Chunk " ++ "1" ++ "/" ++ "1" ++ "." = _
    simp only [String.append_assoc]
    rfl
  simp only [noteChunk, if_neg h]
  rw [hsuffix]
  rfl

/-- The mock's notes begin with a letter. -/
theorem startsPlain_mockExtractField (lib : MockLibrary) (lc : LowerCase) (text : List Char)
    (field : ExtractionFieldDefinition) :
    StartsPlain (mockExtractField lib lc text field).extractionNotes := by
  rcases mockExtractField_note lib lc text field with h | h <;> rw [h]
  · exact ⟨'N', mockMissedNote.toList.tail, rfl, rfl⟩
  · exact ⟨'M', mockUsedNote.toList.tail, rfl, rfl⟩

/-- Settings of the mock are not those of LangExtract. -/
theorem plain_of_mock {settings : LLMProviderSettings}
    (h : ProviderAdapter.mock.supports settings = true) :
    usesLangextractProvider settings.providerType settings.apiStyle = false := by
  by_contra hlang
  obtain ⟨htype, hstyle, -⟩ := settings.langextractConstraints (by simpa using hlang)
  simp [ProviderAdapter.supports, htype, hstyle] at h

/-- A text that fits is one chunk, stripped. -/
theorem splitTextIntoChunks_one {text : String} {chunkSize : ℤ} (htext : pyStrip text ≠ "")
    (hsize : chunkSize ≤ 0 ∨ ((pyStrip text).length : ℤ) ≤ chunkSize) :
    splitTextIntoChunks text chunkSize = [pyStrip text] := by
  have hne : (stripChars text.toList).isEmpty = false := by
    rw [List.isEmpty_eq_false_iff]
    intro hempty
    exact htext (by rw [pyStrip, hempty])
  have hlength : (pyStrip text).length = (stripChars text.toList).length := by
    rw [pyStrip, String.length_ofList]
  rw [hlength] at hsize
  unfold splitTextIntoChunks
  simp only [hne, Bool.false_eq_true, if_false, if_pos hsize]
  rfl

/-- **The mock’s results for a text that fits one chunk**: those of the stripped text, each with a
note about the chunk. -/
theorem providerExtract_mock (w : ExtractionWorld) (lib : MockLibrary) {text : String}
    (template : ExtractionTemplate) {settings : LLMProviderSettings}
    (hmock : ProviderAdapter.mock.supports settings = true) (htext : pyStrip text ≠ "")
    (hsize : settings.chunkSize ≤ 0 ∨ ((pyStrip text).length : ℤ) ≤ settings.chunkSize) :
    providerExtract (w.withMock lib).run text template settings =
      .ok ((mockExtractFields lib w.fields.lowerCase (pyStrip text) template).map chunkNoted) := by
  have hadapter : adapterOf settings = some .mock := by
    rw [adapterOf, List.find?_cons, hmock]
  unfold providerExtract
  rw [hadapter]
  simp only [plain_of_mock hmock, Bool.false_eq_true, if_false,
    splitTextIntoChunks_one htext hsize, ExtractionWorld.withMock]
  have hnoted : (mockExtractFields lib w.fields.lowerCase (pyStrip text) template).map
      (noteChunk 1 1) =
        (mockExtractFields lib w.fields.lowerCase (pyStrip text) template).map chunkNoted := by
    refine List.map_congr_left fun r hr => noteChunk_one ?_
    obtain ⟨field, -, rfl⟩ := List.mem_map.mp hr
    exact (startsPlain_mockExtractField lib w.fields.lowerCase _ field).ne_empty
  rw [← hnoted]
  show Except.ok ([_].flatten) = _
  rw [List.flatten_singleton]
  rfl

/-! ### Both pipelines -/

/-- The worker's result is the dry run's, with the chunk noted after the mock's note. -/
def SameButChunk (shown stored : ExtractionFieldResult) : Prop :=
  ∃ note rest, (note = mockMissedNote ∨ note = mockUsedNote) ∧
    shown.extractionNotes = note ++ rest ∧
    stored = shown.withNotes (note ++ oneChunkSuffix ++ rest)

/-- One field, from the mock's result and from the noted one. -/
theorem finishField_alike (lib : FieldLibrary) (num : PyNumeric) (rule : ConfidenceRule)
    (definition : ExtractionFieldDefinition) {r : ExtractionFieldResult}
    (hstart : StartsPlain r.extractionNotes)
    (hnote : r.extractionNotes = mockMissedNote ∨ r.extractionNotes = mockUsedNote) :
    Failing.Alike SameButChunk (finishField lib num rule definition r)
      (finishField lib num rule definition (chunkNoted r)) := by
  obtain ⟨added, hadds⟩ := finishField_addsNotes lib num rule definition r
  have hself := hadds r.extractionNotes hstart
  rw [chunkNoted, hadds _ (hstart.append _)]
  cases hr : finishField lib num rule definition r with
  | error e => exact .error e
  | ok v =>
    -- the notes of `v` are those of `r` and what was added
    have hv : v = v.withNotes (r.extractionNotes ++ added) := by
      have hsame : finishField lib num rule definition (r.withNotes r.extractionNotes) = .ok v := hr
      rw [hself, hr] at hsame
      exact (Except.ok.inj hsame).symm
    refine .ok ⟨r.extractionNotes, added, hnote, ?_, rfl⟩
    rw [hv, withNotes_notes]

/-- The mock has one candidate for each field. -/
theorem candidates_mock (lib : MockLibrary) (lc : LowerCase) (text : String)
    (f : ExtractionFieldResult → ExtractionFieldResult) {template : ExtractionTemplate}
    (hnodup : (template.extractedFields.map ExtractionFieldDefinition.name).Nodup)
    (hname : ∀ r, (f r).fieldName = r.fieldName) {definition : ExtractionFieldDefinition}
    (hd : definition ∈ template.extractedFields) :
    ((mockExtractFields lib lc text template).map f).filter
        (fun r => r.fieldName == definition.name) =
      [f (mockExtractField lib lc text.toList definition)] := by
  have hmap : (mockExtractFields lib lc text template).map f =
      template.extractedFields.map fun d => f (mockExtractField lib lc text.toList d) := by
    rw [mockExtractFields, List.map_map]
    rfl
  have hfilter : ((fun r : ExtractionFieldResult => r.fieldName == definition.name) ∘
      fun d => f (mockExtractField lib lc text.toList d)) =
        fun d : ExtractionFieldDefinition => d.name == definition.name := by
    funext d
    show ((f (mockExtractField lib lc text.toList d)).fieldName == definition.name) = _
    rw [hname]
    rfl
  rw [hmap, List.filter_map, hfilter, Keyed.filter_eq hnodup hd]
  rfl

/-- No result of the mock is unexpected. -/
theorem unexpectedFieldNotes_mock (lib : MockLibrary) (lc : LowerCase) (text : String)
    (f : ExtractionFieldResult → ExtractionFieldResult) (template : ExtractionTemplate)
    (hname : ∀ r, (f r).fieldName = r.fieldName) :
    unexpectedFieldNotes template.extractedFields
      ((mockExtractFields lib lc text template).map f) = [] := by
  have hnone : ((mockExtractFields lib lc text template).map f).filter
      (fun r => r.fieldName ∉ template.extractedFields.map ExtractionFieldDefinition.name) = [] := by
    rw [List.filter_eq_nil_iff]
    intro r hr
    obtain ⟨r', hr', rfl⟩ := List.mem_map.mp hr
    obtain ⟨d, hd, rfl⟩ := List.mem_map.mp hr'
    simp only [hname, decide_not, Bool.not_eq_true', decide_eq_false_iff_not, not_not]
    exact List.mem_map_of_mem hd
  rw [unexpectedFieldNotes, hnone, List.map_nil]

/-- Both reconciliations: the same results but for the chunk, JSON values, and no notes. -/
theorem reconcile_alike (lib : MockLibrary) (fields : FieldLibrary) (num : PyNumeric)
    (text : String) {template : ExtractionTemplate}
    (hnodup : (template.extractedFields.map ExtractionFieldDefinition.name).Nodup) :
    Failing.Alike (fun shown stored => List.Forall₂ SameButChunk shown.1 stored.1 ∧
        (∀ r ∈ shown.1, HoldsJson r) ∧ shown.2 = [] ∧ stored.2 = [])
      (reconcileExtractedFields fields num template.confidenceRule template.extractedFields
        (mockExtractFields lib fields.lowerCase text template))
      (reconcileExtractedFields fields num template.confidenceRule template.extractedFields
        ((mockExtractFields lib fields.lowerCase text template).map chunkNoted)) := by
  have hid : mockExtractFields lib fields.lowerCase text template =
      (mockExtractFields lib fields.lowerCase text template).map id := (List.map_id _).symm
  -- the turn of one definition: one candidate in both, which differ in their notes
  have hturn : ∀ d ∈ template.extractedFields, Failing.Alike
      (fun shown stored => SameButChunk shown stored ∧ HoldsJson shown)
      (reconcileField fields num template.confidenceRule
        (mockExtractFields lib fields.lowerCase text template) d)
      (reconcileField fields num template.confidenceRule
        ((mockExtractFields lib fields.lowerCase text template).map chunkNoted) d) := by
    intro d hd
    rw [reconcileField_eq, reconcileField_eq, hid, List.map_map,
      candidates_mock lib fields.lowerCase text id hnodup (fun _ => rfl) hd,
      candidates_mock lib fields.lowerCase text (chunkNoted ∘ id) hnodup (fun _ => rfl) hd]
    have halike := finishField_alike fields num template.confidenceRule d
      (startsPlain_mockExtractField lib fields.lowerCase text.toList d)
      (mockExtractField_note lib fields.lowerCase text.toList d)
    obtain ⟨hextracted, hnormalized⟩ := mockExtractField_isJson lib fields.lowerCase text.toList d
    show Failing.Alike _ (finishField fields num template.confidenceRule d
      (mockExtractField lib fields.lowerCase text.toList d)) (finishField fields num
        template.confidenceRule d (chunkNoted (mockExtractField lib fields.lowerCase text.toList d)))
    cases hshown : finishField fields num template.confidenceRule d
      (mockExtractField lib fields.lowerCase text.toList d) with
    | error e =>
      rw [halike.raises hshown]
      exact .error e
    | ok shown =>
      obtain ⟨stored, hstored, hsame⟩ := halike.returns hshown
      rw [hstored]
      exact .ok ⟨hsame, HoldsJson.finishField ⟨hextracted, hnormalized⟩ hshown⟩
  unfold reconcileExtractedFields
  refine (Failing.mapM_alike hturn).bind fun shown stored hall => .ok ?_
  obtain ⟨hsame, hjson⟩ := (List.forall₂_and_left _ _).mp (hall.imp fun _ _ h => ⟨h.2, h.1⟩)
  refine ⟨hjson, hsame, ?_, ?_⟩
  · dsimp only
    rw [hid]
    exact unexpectedFieldNotes_mock lib fields.lowerCase text id template fun _ => rfl
  · exact unexpectedFieldNotes_mock lib fields.lowerCase text chunkNoted template fun _ => rfl

/-! ### Calculated fields and the summary -/

/-- The calculations see the names and the values of the extracted fields. -/
theorem evaluateCalculatedFields_congr (engine : FormulaEngine) (num : PyNumeric)
    (definitions : List CalculatedFieldDefinition) {fields fields' : List ExtractionFieldResult}
    (h : fields.map (fun f => (f.fieldName, f.normalizedValue)) =
      fields'.map fun f => (f.fieldName, f.normalizedValue)) :
    evaluateCalculatedFields engine num definitions fields =
      evaluateCalculatedFields engine num definitions fields' := by
  have hnames : fields.map ExtractionFieldResult.fieldName =
      fields'.map ExtractionFieldResult.fieldName := by
    have hfst := congrArg (List.map Prod.fst) h
    rw [List.map_map, List.map_map] at hfst
    exact hfst
  have hcontext : ∀ fields : List ExtractionFieldResult, extractedContext fields =
      (fields.map fun f => (f.fieldName, f.normalizedValue)).foldl
        (fun context p => PyVal.dictSet context p.1 p.2) [] := by
    intro fields
    rw [List.foldl_map]
    rfl
  unfold evaluateCalculatedFields
  rw [hnames, hcontext, h, ← hcontext]

theorem SameButChunk.values {shown stored : ExtractionFieldResult} (h : SameButChunk shown stored) :
    (stored.fieldName, stored.normalizedValue) = (shown.fieldName, shown.normalizedValue) := by
  obtain ⟨note, rest, -, -, rfl⟩ := h
  rfl

theorem HoldsJson.of_sameButChunk {shown stored : ExtractionFieldResult} (h : HoldsJson shown)
    (hsame : SameButChunk shown stored) : HoldsJson stored := by
  obtain ⟨note, rest, -, -, rfl⟩ := hsame
  exact ⟨h.extracted, h.normalized⟩

/-- A row of the report shows the stored field, but for the chunk in its notes. -/
def ShowsField (num : PyNumeric) (row : SchemaDryRunFieldResult) (stored : ExtractionFieldResult) :
    Prop :=
  ∃ note rest, (note = mockMissedNote ∨ note = mockUsedNote) ∧
    row.extractionNotes = note ++ rest ∧
    stored.extractionNotes = note ++ oneChunkSuffix ++ rest ∧
    row = { dryRunField num stored with extractionNotes := row.extractionNotes }

/-- The report of the dry run and the stored summary say the same: the extracted
fields but for the chunk in their notes, the calculated fields in JSON form, the
fields to review, and the notes. -/
structure ReportsAlike (num : PyNumeric) (report : SchemaDryRunResponse)
    (summary : ExtractionValidationSummary) : Prop where
  extracted : List.Forall₂ (ShowsField num) report.extractedFields summary.extractedFields
  calculated : report.calculatedFields.mapM CalculatedFieldResult.modelDump =
    .ok summary.calculatedFields
  review : report.fieldsRequiringReview = summary.fieldsRequiringReview
  notes : report.documentLevelNotes = summary.documentLevelNotes

/-- The report says what the worker computed before it stores it. -/
structure ComputedAlike (num : PyNumeric) (report : SchemaDryRunResponse)
    (summary : ExtractionValidationSummary) : Prop where
  extracted : List.Forall₂ (ShowsField num) report.extractedFields summary.extractedFields
  calculated : report.calculatedFields = summary.calculatedFields
  review : report.fieldsRequiringReview = summary.fieldsRequiringReview
  notes : report.documentLevelNotes = summary.documentLevelNotes
  json : ∀ r ∈ summary.extractedFields, HoldsJson r

theorem showsField_of_sameButChunk (num : PyNumeric) {shown stored : ExtractionFieldResult}
    (h : SameButChunk shown stored) : ShowsField num (dryRunField num shown) stored := by
  obtain ⟨note, rest, hnote, hshown, rfl⟩ := h
  exact ⟨note, rest, hnote, hshown, rfl, rfl⟩

/-- The worker's summary is stored when its calculated fields have JSON forms. -/
theorem modelDump_summary {extracted : List ExtractionFieldResult}
    (hjson : ∀ r ∈ extracted, HoldsJson r) {summary : ExtractionValidationSummary}
    (hextracted : summary.extractedFields = extracted) :
    summary.modelDump = (summary.calculatedFields.mapM CalculatedFieldResult.modelDump).map
      fun calculated => { summary with calculatedFields := calculated } := by
  have hdump : extracted.mapM ExtractionFieldResult.modelDump = .ok extracted := by
    clear hextracted
    induction extracted with
    | nil => rfl
    | cons r rest ih =>
      rw [List.mapM_cons, (hjson r (List.mem_cons_self ..)).modelDump,
        ih fun r' hr' => hjson r' (List.mem_cons_of_mem _ hr')]
      rfl
  subst hextracted
  unfold ExtractionValidationSummary.modelDump
  rw [hdump, Failing.bind_of_ok rfl]
  cases summary.calculatedFields.mapM CalculatedFieldResult.modelDump <;> rfl

/-- A summary that was computed is stored with the JSON forms of its calculated fields. -/
theorem ComputedAlike.stored {num : PyNumeric} {report : SchemaDryRunResponse}
    {summary : ExtractionValidationSummary} {calculated : List CalculatedFieldResult}
    (h : ComputedAlike num report summary)
    (hdump : summary.calculatedFields.mapM CalculatedFieldResult.modelDump = .ok calculated) :
    summary.modelDump = .ok { summary with calculatedFields := calculated } ∧
      ReportsAlike num report { summary with calculatedFields := calculated } := by
  refine ⟨?_, h.extracted, ?_, h.review, h.notes⟩
  · rw [modelDump_summary h.json rfl, hdump]
    rfl
  · rw [h.calculated]
    exact hdump

/-- The names to review agree. -/
theorem flagged_of_sameButChunk {shown stored : List ExtractionFieldResult}
    (h : List.Forall₂ SameButChunk shown stored) :
    (stored.filter ExtractionFieldResult.requiresReview).map ExtractionFieldResult.fieldName =
      (shown.filter ExtractionFieldResult.requiresReview).map ExtractionFieldResult.fieldName := by
  refine flagged_forall₂ ExtractionFieldResult.requiresReview ExtractionFieldResult.fieldName ?_ h
  rintro shown stored ⟨note, rest, -, -, rfl⟩
  exact ⟨rfl, rfl⟩

/-- The worker's run on the mock's results, up to the storing of the summary: the
extraction of a text that fits one chunk, with no redaction. -/
def mockSummary (w : ExtractionWorld) (lib : MockLibrary) (documentId : ℕ)
    (template : ExtractionTemplate) (settings : LLMProviderSettings) (text : String) :
    Except PyErr ExtractionValidationSummary := do
  let (extracted, notes) ← reconcileExtractedFields w.fields w.rt.num template.confidenceRule
    template.extractedFields
    ((mockExtractFields lib w.fields.lowerCase (pyStrip text) template).map chunkNoted)
  let calculated ← evaluateCalculatedFields w.rt.engine w.rt.num template.calculatedFields extracted
  return extractionSummary documentId template settings extracted calculated notes

section Agreement

variable {w : ExtractionWorld} {lib : MockLibrary} {deployment : DeploymentSettings}
  {documentPath : String} {documentId : ℕ} {template : ExtractionTemplate}
  {override : Option LLMProviderSettings} {text : String}

/-- What the worker does with the mock: it computes the summary of the text, and stores it. -/
theorem executeExtraction_mock
    (hmock : ProviderAdapter.mock.supports (effectiveSettings template override) = true)
    (hpolicy : externalProcessingViolation deployment (effectiveSettings template override) = none)
    (hplain : needsRedaction deployment (effectiveSettings template override) = false)
    (hvalid : validateTemplate w.rt.engine w.rt.checkSchema template = .ok ())
    (htext : pyStrip text ≠ "")
    (hsize : (effectiveSettings template override).chunkSize ≤ 0 ∨
      ((pyStrip text).length : ℤ) ≤ (effectiveSettings template override).chunkSize) :
    executeExtraction (w.withMock lib) deployment documentPath documentId template override
        (some text) =
      (mockSummary w lib documentId template (effectiveSettings template override) text) >>=
        fun summary => summary.modelDump := by
  -- nothing is forbidden and nothing is redacted, so the text arrives as it is
  have hprepared : prepareExtraction (w.withMock lib) deployment documentPath template override
      (some text) = .ok { settings := effectiveSettings template override, text := text
                          redactionNote := none } := by
    have hcheck : checkExternalProcessing deployment (effectiveSettings template override) =
        .ok () := by rw [checkExternalProcessing, hpolicy]
    have hredact : redactForProvider (w.withMock lib) deployment (effectiveSettings template override)
        documentPath text = .ok (text, none) := by
      simp only [redactForProvider, hplain, Bool.false_eq_true, if_false]
    have hvalid' : validateTemplate (w.withMock lib).rt.engine (w.withMock lib).rt.checkSchema
        template = .ok () := hvalid
    have hload : loadText (w.withMock lib) deployment documentPath (some text) = .ok text := rfl
    unfold prepareExtraction
    rw [Failing.bind_of_ok hvalid']
    dsimp only
    rw [Failing.bind_of_ok hcheck, Failing.bind_of_ok hload, Failing.bind_of_ok hredact]
    rfl
  have hsanitize : ∀ results, sanitizeIfRedacted deployment (effectiveSettings template override)
      results = results := fun results => by
    simp only [sanitizeIfRedacted, hplain, Bool.false_eq_true, if_false]
  unfold executeExtraction mockSummary
  rw [Failing.bind_of_ok hprepared]
  dsimp only
  rw [Failing.bind_of_ok (providerExtract_mock w lib template hmock htext hsize), hsanitize]
  show (reconcileExtractedFields w.fields w.rt.num _ _ _ >>= _) = _
  cases hrec : reconcileExtractedFields w.fields w.rt.num template.confidenceRule
      template.extractedFields
      ((mockExtractFields lib w.fields.lowerCase (pyStrip text) template).map chunkNoted) with
  | error e => rfl
  | ok reconciled =>
    obtain ⟨extracted, notes⟩ := reconciled
    rw [Failing.bind_of_ok rfl, Failing.bind_of_ok rfl]
    show (evaluateCalculatedFields w.rt.engine w.rt.num template.calculatedFields extracted >>= _) = _
    cases evaluateCalculatedFields w.rt.engine w.rt.num template.calculatedFields extracted with
    | error e => rfl
    | ok calculated =>
      rw [Failing.bind_of_ok rfl, Option.toList_none, List.append_nil]
      rfl

/-- **Both pipelines fail alike or compute alike**, up to the storing of the summary. -/
theorem mockExtraction_alike (lib : MockLibrary) (documentId : ℕ) (settings : LLMProviderSettings)
    (hvalid : validateTemplate w.rt.engine w.rt.checkSchema template = .ok ())
    (htext : pyStrip text ≠ "") :
    Failing.Alike (ComputedAlike w.rt.num) (runSchemaDryRun w lib template text)
      (mockSummary w lib documentId template settings text) := by
  have hnodup := (List.nodup_append.mp (validateTemplate_nodup hvalid)).1
  unfold runSchemaDryRun mockSummary
  simp only [if_neg htext, hvalid]
  refine (reconcile_alike lib w.fields w.rt.num (pyStrip text) hnodup).bind ?_
  rintro ⟨shown, notes⟩ ⟨stored, notes'⟩ ⟨hsame, hjson, hnotes, hnotes'⟩
  obtain rfl : notes = [] := hnotes
  obtain rfl : notes' = [] := hnotes'
  have hvalues : stored.map (fun f => (f.fieldName, f.normalizedValue)) =
      shown.map fun f => (f.fieldName, f.normalizedValue) :=
    Keyed.map_eq_of_forall₂ (fun _ _ h => h.values) hsame
  dsimp only
  rw [evaluateCalculatedFields_congr w.rt.engine w.rt.num template.calculatedFields hvalues]
  refine (Failing.Alike.refl (R := Eq) (fun _ => rfl) _).bind ?_
  rintro calculated _ rfl
  refine .ok ⟨?_, rfl, ?_, rfl, ?_⟩
  · refine List.forall₂_map_left_iff.mpr (hsame.imp ?_)
    exact fun _ _ h => showsField_of_sameButChunk w.rt.num h
  · simp only [dryRunResponse, extractionSummary, flagged_of_sameButChunk hsame]
  · -- the stored results hold the values of the shown ones
    intro r hr
    obtain ⟨r', hr', hrr'⟩ := Keyed.exists_of_mem_right hsame hr
    exact (hjson r' hr').of_sameButChunk hrr'

end Agreement

/-! ### Two samples -/

/-- The mock with ASCII classes. -/
def asciiMock : MockLibrary where
  isDecimal := Char.isDigit
  isWord := fun c => c.isAlphanum || c == '_'
  parseFloat := fun _ => .fin 0

/-- A template that looks for the vendor. -/
def vendorTemplate : ExtractionTemplate :=
  { invoiceTemplate with
    extractedFields := [{ name := "vendor", label := "Vendor", type := .text }] }

/-- A formula that names a helper. -/
def sumFormula : String × Node := ("sum", .name "sum")

/-- The world that parses it. -/
def sumWorld : ExtractionWorld :=
  { silentWorld with
    rt := { plainRuntime with engine := (plainPython [sumFormula]).engine insertionOrder } }

/-- A template whose total is the helper itself. -/
def sumTemplate : ExtractionTemplate :=
  { invoiceTemplate with
    calculatedFields := [{ name := "total", label := "Total", outputType := .number
                           formula := "sum" }] }

end ExtractFlow
