import ExtractFlow.Executor

/-!
# What keeps text in the house

Two promises of the deployment's settings, checked at two places each: the API
before it queues a job, and the worker before it hands the text to the provider.

* With external processing disabled, no job runs on an adapter that posts the
  text.  Both places ask the settings whether they declare external processing,
  not which adapter they select, so the promise holds exactly for settings that
  declare it.
* With redaction required, no spreadsheet goes to an external provider.  Both
  places have their own list of suffixes, and the worker's lacks one.

## Main results

* `external_off_iff` — when both places refuse an external adapter.
* `spreadsheet_gates_agree_iff` — when they treat a document alike.
-/

namespace ExtractFlow

/-! ### Disabled external processing -/

/-- The API answers a job with an error. -/
def ApiRejects (rt : Runtime) (probe : LLMProviderSettings → Except PyErr Unit)
    (deployment : DeploymentSettings) (template : ExtractionTemplate)
    (effective : LLMProviderSettings) : Prop :=
  ¬ ∃ t, validateJobProvider rt probe deployment template effective = .ok t

/-- The worker raises before it hands the text to the provider. -/
def WorkerRaises (w : ExtractionWorld) (deployment : DeploymentSettings) (documentPath : String)
    (template : ExtractionTemplate) (override : Option LLMProviderSettings)
    (parsedText : Option String) : Prop :=
  ¬ ∃ prepared, prepareExtraction w deployment documentPath template override parsedText =
    .ok prepared

/-- **When external processing stays off.**  Where the deployment disables it, the
API and the worker refuse settings that send the text out exactly when those
declare external processing themselves. -/
theorem external_off_iff {w : ExtractionWorld} {probe : LLMProviderSettings → Except PyErr Unit}
    {deployment : DeploymentSettings} {documentPath : String} {template : ExtractionTemplate}
    {override : Option LLMProviderSettings} {parsedText : Option String}
    (hoff : deployment.allowExternalProcessing = false)
    (hvalid : validateTemplate w.rt.engine w.rt.checkSchema template = .ok ())
    (hsends : SendsTextOut (effectiveSettings template override)) :
    ApiRejects w.rt probe deployment template (effectiveSettings template override) ∧
        WorkerRaises w deployment documentPath template override parsedText ↔
      (effectiveSettings template override).allowExternalProcessing = true := by
  have hviolation := externalProcessingViolation_of_disabled hoff
    (effectiveSettings template override)
  rw [ApiRejects, validateJobProvider_iff hvalid hsends.plain, hviolation]
  constructor
  · rintro ⟨hapi, -⟩
    by_contra hno
    simp [hno] at hapi
  · intro hdeclared
    refine ⟨by simp [hdeclared], ?_⟩
    rintro ⟨prepared, hprepared⟩
    obtain ⟨-, hsettings, hnone⟩ := prepareExtraction_checks hprepared
    rw [hsettings, hviolation, hdeclared] at hnone
    cases hnone

/-! ### A deployment without external processing -/

/-- A hosted model, declared external or not. -/
def hostedSettings (declared : Bool) : LLMProviderSettings where
  mode := .cloud
  providerType := "openai"
  apiStyle := .openaiCompatible
  baseUrl := some "https://api.openai.com/v1"
  allowExternalProcessing := declared
  langextractConstraints := by decide +revert

theorem hostedSettings_sendsTextOut (declared : Bool) : SendsTextOut (hostedSettings declared) where
  cloud := rfl
  style := Or.inl rfl
  notMock := by decide +revert

/-- Settings that declare themselves external are refused at both places when external processing is
off. -/
theorem external_off_declared :
    ApiRejects plainRuntime (fun _ => .ok ()) { allowExternalProcessing := false } invoiceTemplate
        (hostedSettings true) ∧
      WorkerRaises silentWorld { allowExternalProcessing := false } "uploads/a.txt" invoiceTemplate
        (some (hostedSettings true)) (some "Total: 10") :=
  (@external_off_iff silentWorld (fun _ => .ok ()) { allowExternalProcessing := false }
    "uploads/a.txt" invoiceTemplate (some (hostedSettings true)) (some "Total: 10") rfl rfl
    (hostedSettings_sendsTextOut true)).mpr rfl

/-- **Settings that do not declare themselves are accepted at both places**: the
job is queued, and the text is handed to an adapter that posts it. -/
theorem undeclared_provider_sends_text_out :
    ¬ ∀ (w : ExtractionWorld) (probe : LLMProviderSettings → Except PyErr Unit)
        (deployment : DeploymentSettings) (documentPath : String) (template : ExtractionTemplate)
        (override : Option LLMProviderSettings) (parsedText : Option String),
      deployment.allowExternalProcessing = false →
      validateTemplate w.rt.engine w.rt.checkSchema template = .ok () →
      SendsTextOut (effectiveSettings template override) →
      ApiRejects w.rt probe deployment template (effectiveSettings template override) ∧
        WorkerRaises w deployment documentPath template override parsedText := by
  intro hclaim
  obtain ⟨-, hworker⟩ := hclaim silentWorld (fun _ => .ok ()) { allowExternalProcessing := false }
    "uploads/a.txt" invoiceTemplate (some (hostedSettings false)) (some "Total: 10") rfl rfl
    (hostedSettings_sendsTextOut false)
  exact hworker ⟨_, rfl⟩

/-! ### Spreadsheets that cannot be redacted -/

/-- The API refuses the document as a spreadsheet. -/
def ApiRejectsSheet (lc : LowerCase) (deployment : DeploymentSettings) (filename : String)
    (settings : LLMProviderSettings) : Prop :=
  enforceSpreadsheetExternalProcessingPolicy lc deployment filename settings =
    .error (.httpException 400 spreadsheetPolicyMessage)

/-- The worker refuses the document as a spreadsheet. -/
def WorkerRejectsSheet (w : ExtractionWorld) (deployment : DeploymentSettings)
    (documentPath : String) (template : ExtractionTemplate)
    (override : Option LLMProviderSettings) (parsedText : Option String) : Prop :=
  prepareExtraction w deployment documentPath template override parsedText =
    .error (.valueError spreadsheetUnsupportedMessage)

/-- The path the worker gets for a file uploaded under a name: the name after a
hyphen. -/
def uploadedPath (pre filename : String) : String := pre ++ "-" ++ filename

/-- A suffix without a hyphen of a text that ends with a hyphen and a name is a
suffix of the name. -/
theorem suffix_of_hyphen {u pre name : List Char} (hu : '-' ∉ u) (h : u <:+ pre ++ '-' :: name) :
    u <:+ name := by
  rcases List.suffix_or_suffix_of_suffix h (List.suffix_append pre _) with h' | h'
  · rcases List.suffix_cons_iff.mp h' with rfl | h'
    · exact absurd (List.mem_cons_self ..) hu
    · exact h'
  · exact absurd (h'.mem (List.mem_cons_self ..)) hu

/-- A suffix that the three lists name: letters of ASCII, without a hyphen. -/
structure SheetSuffix (t : List Char) : Prop where
  plain : PlainText t
  noHyphen : '-' ∉ t

theorem sheetSuffix_of_mem {t : List Char} (h : t ∈ policySpreadsheetSuffixes) :
    SheetSuffix t := by
  simp only [policySpreadsheetSuffixes, List.mem_cons, List.not_mem_nil, or_false] at h
  rcases h with rfl | rfl | rfl <;> exact ⟨by decide, by decide⟩

/-- The letters that lower to such a suffix have no hyphen either. -/
theorem SheetSuffix.noHyphen_of_map {t u : List Char} (ht : SheetSuffix t)
    (hu : u.map Char.toLower = t) : '-' ∉ u := by
  intro h
  exact ht.noHyphen (hu ▸ List.mem_map.mpr ⟨'-', h, rfl⟩)

theorem lowerEndsWith_iff {lc : LowerCase} {name : String} {suffixes : List (List Char)}
    (hplain : ∀ t ∈ suffixes, SheetSuffix t) :
    lowerEndsWith lc name suffixes = true ↔
      ∃ u, u <:+ name.toList ∧ u.map Char.toLower ∈ suffixes := by
  unfold lowerEndsWith
  rw [List.any_eq_true]
  constructor
  · rintro ⟨t, ht, hsuffix⟩
    rw [List.isSuffixOf_iff_suffix, LowerCase.suffix_lower_iff (hplain t ht).plain] at hsuffix
    obtain ⟨u, hu, rfl⟩ := hsuffix
    exact ⟨u, hu, ht⟩
  · rintro ⟨u, hu, ht⟩
    refine ⟨u.map Char.toLower, ht, ?_⟩
    rw [List.isSuffixOf_iff_suffix, LowerCase.suffix_lower_iff (hplain _ ht).plain]
    exact ⟨u, hu, rfl⟩

/-- The path of an upload ends with a suffix of a list when the name does. -/
theorem lowerEndsWith_uploadedPath {lc : LowerCase} {pre filename : String}
    {suffixes : List (List Char)} (hplain : ∀ t ∈ suffixes, SheetSuffix t) :
    lowerEndsWith lc (uploadedPath pre filename) suffixes = lowerEndsWith lc filename suffixes := by
  rw [Bool.eq_iff_iff, lowerEndsWith_iff hplain, lowerEndsWith_iff hplain]
  have hpath : (uploadedPath pre filename).toList = pre.toList ++ '-' :: filename.toList := by
    simp [uploadedPath, String.toList_append]
  rw [hpath]
  constructor
  · rintro ⟨u, hu, ht⟩
    exact ⟨u, suffix_of_hyphen ((hplain _ ht).noHyphen_of_map rfl) hu, ht⟩
  · rintro ⟨u, hu, ht⟩
    exact ⟨u, hu.trans ((List.suffix_cons _ _).trans (List.suffix_append _ _)), ht⟩

/-- What the parser reads as a spreadsheet has a name with one of the suffixes. -/
theorem lowerEndsWith_of_readsAsSpreadsheet {lc : LowerCase} {pre filename : String}
    (hbase : '/' ∉ filename.toList)
    (h : ReadsAsSpreadsheet lc (uploadedPath pre filename)) :
    lowerEndsWith lc filename policySpreadsheetSuffixes = true := by
  have hpath : (uploadedPath pre filename).toList = pre.toList ++ '-' :: filename.toList := by
    simp [uploadedPath, String.toList_append]
  rw [lowerEndsWith_iff fun t => sheetSuffix_of_mem]
  have ht : SheetSuffix (lowerSuffix lc (uploadedPath pre filename)) := sheetSuffix_of_mem h
  have hmap := (LowerCase.lower_eq_iff ht.plain).mp rfl
  rw [String.toList_ofList] at hmap
  obtain ⟨part, hname⟩ := pathName_append hbase pre.toList
  have hsuffix := pathSuffix_suffix (uploadedPath pre filename).toList
  rw [hpath, hname, ← hpath] at hsuffix
  exact ⟨_, suffix_of_hyphen (ht.noHyphen_of_map hmap) hsuffix, hmap ▸ h⟩

/-- The policy's suffixes are the worker's and one more. -/
theorem lowerEndsWith_policy (lc : LowerCase) (filename : String) :
    lowerEndsWith lc filename policySpreadsheetSuffixes =
      (lowerEndsWith lc filename executorSpreadsheetSuffixes ||
        lowerEndsWith lc filename [['.', 'x', 'l', 's']]) := by
  simp only [lowerEndsWith, policySpreadsheetSuffixes, executorSpreadsheetSuffixes, List.any_cons,
    List.any_nil, Bool.or_false, Bool.or_assoc]

/-- A name that ends with the suffix the worker lacks ends with none it has. -/
theorem lowerEndsWith_executor_of_xls {lc : LowerCase} {filename : String}
    (h : lowerEndsWith lc filename [['.', 'x', 'l', 's']] = true) :
    lowerEndsWith lc filename executorSpreadsheetSuffixes = false := by
  have hxls : ∀ t ∈ [['.', 'x', 'l', 's']], SheetSuffix t := by
    rintro t ht
    obtain rfl := List.mem_singleton.mp ht
    exact ⟨by decide, by decide⟩
  have hexecutor : ∀ t ∈ executorSpreadsheetSuffixes, SheetSuffix t := by
    rintro t ht
    simp only [executorSpreadsheetSuffixes, List.mem_cons, List.not_mem_nil, or_false] at ht
    rcases ht with rfl | rfl <;> exact ⟨by decide, by decide⟩
  -- the last letter tells them apart
  have hlast : ∀ {u : List Char} {t : List Char}, u <:+ filename.toList →
      u.map Char.toLower = t → t ≠ [] →
      (filename.toList.getLast?).map Char.toLower = t.getLast? := by
    rintro u t ⟨s, hs⟩ rfl hne
    have hu : u ≠ [] := by simpa using hne
    rw [← hs, List.getLast?_append_of_ne_nil _ hu, List.getLast?_map]
  rw [lowerEndsWith_iff hxls] at h
  obtain ⟨u, hu, hmap⟩ := h
  have hs := hlast hu (List.mem_singleton.mp hmap) (by decide)
  rw [Bool.eq_false_iff, ne_eq, lowerEndsWith_iff hexecutor]
  rintro ⟨v, hv, hmem⟩
  simp only [executorSpreadsheetSuffixes, List.mem_cons, List.not_mem_nil, or_false] at hmem
  rcases hmem with hmem | hmem
  · rw [hlast hv hmem (by decide)] at hs
    exact absurd hs (by decide)
  · rw [hlast hv hmem (by decide)] at hs
    exact absurd hs (by decide)

/-- When the API refuses a spreadsheet. -/
theorem apiRejectsSheet_iff {lc : LowerCase} {deployment : DeploymentSettings} {filename : String}
    {settings : LLMProviderSettings}
    (hrequired : deployment.requireRedactionForExternalProcessing = true) :
    ApiRejectsSheet lc deployment filename settings ↔
      settings.allowExternalProcessing = true ∧
        lowerEndsWith lc filename policySpreadsheetSuffixes = true := by
  unfold ApiRejectsSheet enforceSpreadsheetExternalProcessingPolicy
  cases settings.allowExternalProcessing <;>
    cases lowerEndsWith lc filename policySpreadsheetSuffixes <;> simp [hrequired]

/-- The message about an entity type is not the one about a spreadsheet. -/
theorem entityTypeMessage_ne (entityType : String) :
    s!"Unsupported Presidio redaction entity type: {entityType}." ≠
      spreadsheetUnsupportedMessage := by
  intro h
  have hfirst := congrArg (fun s => s.toList.head?) h
  have hunsupported :
      "Unsupported Presidio redaction entity type: ".toList.head? = some 'U' := by decide
  have hspreadsheet : spreadsheetUnsupportedMessage.toList.head? = some 'T' := by
    decide +kernel
  rw [hspreadsheet] at hfirst
  simp only [String.toList_append, List.head?_append, toString, hunsupported,
    Option.some_or] at hfirst
  exact absurd hfirst (by decide)

/-- A redaction raises for an unsupported entity type only, and says so. -/
theorem redactText_ne_spreadsheet {analyze : String → String → List (ℕ × ℕ)} {text : String}
    {entityTypes : List String} :
    redactText analyze text entityTypes ≠ .error (.valueError spreadsheetUnsupportedMessage) := by
  intro h
  unfold redactText recognizedSpans at h
  rcases Failing.bind_error.mp h with h | ⟨spans, -, h⟩
  · rcases Failing.bind_error.mp h with h | ⟨spans, -, h⟩
    · obtain ⟨entityType, -, h⟩ := Failing.exists_of_mapM_error h
      split at h
      · cases h
      · exact entityTypeMessage_ne entityType (PyErr.valueError.inj (Except.error.inj h))
    · cases h
  · cases h

/-- The worker's policy check, in a deployment that redacts. -/
theorem checkExternalProcessing_of_redacting {deployment : DeploymentSettings}
    (henabled : deployment.presidioRedactionEnabled = true) (settings : LLMProviderSettings) :
    checkExternalProcessing deployment settings =
      if settings.allowExternalProcessing && !deployment.allowExternalProcessing then
        .error (.valueError externalDisabledMessage)
      else .ok () := by
  unfold checkExternalProcessing externalProcessingViolation
  cases settings.allowExternalProcessing <;> cases deployment.allowExternalProcessing <;>
    simp [henabled]

/-- The worker's text, in a deployment that requires redaction, is refused as a
spreadsheet for its suffix only. -/
theorem redactForProvider_eq_error_iff {w : ExtractionWorld} {deployment : DeploymentSettings}
    {settings : LLMProviderSettings} {documentPath text : String}
    (hrequired : deployment.requireRedactionForExternalProcessing = true) :
    redactForProvider w deployment settings documentPath text =
        .error (.valueError spreadsheetUnsupportedMessage) ↔
      settings.allowExternalProcessing = true ∧
        lowerEndsWith w.fields.lowerCase documentPath executorSpreadsheetSuffixes = true := by
  unfold redactForProvider needsRedaction
  rw [hrequired, Bool.and_true]
  split
  · next hexternal =>
    split
    · next hsheet => simp [hexternal, hsheet]
    · next hsheet =>
      simp only [hexternal, hsheet, and_false, iff_false, Bool.false_eq_true]
      intro h
      rcases Failing.bind_error.mp h with h | ⟨redaction, -, h⟩
      · exact redactText_ne_spreadsheet h
      · cases h
  · next hexternal => simp [hexternal]

/-- When the worker refuses a spreadsheet: when the job is an external one that the deployment
allows, and the path has one of its two suffixes. -/
theorem workerRejectsSheet_iff {w : ExtractionWorld} {deployment : DeploymentSettings}
    {documentPath : String} {template : ExtractionTemplate}
    {override : Option LLMProviderSettings} {parsedText : Option String} {text : String}
    (hrequired : deployment.requireRedactionForExternalProcessing = true)
    (henabled : deployment.presidioRedactionEnabled = true)
    (hvalid : validateTemplate w.rt.engine w.rt.checkSchema template = .ok ())
    (htext : loadText w deployment documentPath parsedText = .ok text) :
    WorkerRejectsSheet w deployment documentPath template override parsedText ↔
      (effectiveSettings template override).allowExternalProcessing = true ∧
        deployment.allowExternalProcessing = true ∧
        lowerEndsWith w.fields.lowerCase documentPath executorSpreadsheetSuffixes = true := by
  have hcheck := checkExternalProcessing_of_redacting henabled (effectiveSettings template override)
  unfold WorkerRejectsSheet prepareExtraction
  rw [Failing.bind_of_ok hvalid]
  cases hallowed : (effectiveSettings template override).allowExternalProcessing &&
      !deployment.allowExternalProcessing with
  -- the policy refuses the job before its text is looked at
  | true =>
    rw [hallowed, if_pos rfl] at hcheck
    rw [Failing.bind_of_error hcheck]
    rw [Bool.and_eq_true, Bool.not_eq_true'] at hallowed
    have hmessage : externalDisabledMessage ≠ spreadsheetUnsupportedMessage := by decide
    simp [hallowed.2, hmessage]
  | false =>
    rw [hallowed, if_neg Bool.false_ne_true] at hcheck
    rw [Failing.bind_of_ok hcheck, Failing.bind_of_ok htext, Failing.bind_error,
      redactForProvider_eq_error_iff hrequired]
    constructor
    · rintro (⟨hexternal, hsheet⟩ | ⟨⟨redacted, note⟩, -, h⟩)
      · exact ⟨hexternal, by simpa [hexternal] using hallowed, hsheet⟩
      · cases h
    · rintro ⟨hexternal, -, hsheet⟩
      exact Or.inl ⟨hexternal, hsheet⟩

/-- **When the two places agree on spreadsheets.**  In a deployment that requires
redaction and has it enabled: external processing is not asked for, or the file
is no spreadsheet, or the deployment allows external processing and the file has
one of the suffixes the worker knows. -/
theorem spreadsheet_gates_agree_iff {w : ExtractionWorld} {deployment : DeploymentSettings}
    {template : ExtractionTemplate} {override : Option LLMProviderSettings}
    {parsedText : Option String} {pre filename text : String}
    (hrequired : deployment.requireRedactionForExternalProcessing = true)
    (henabled : deployment.presidioRedactionEnabled = true)
    (hvalid : validateTemplate w.rt.engine w.rt.checkSchema template = .ok ())
    (htext : loadText w deployment (uploadedPath pre filename) parsedText = .ok text)
    (hbase : '/' ∉ filename.toList) :
    ((ApiRejectsSheet w.fields.lowerCase deployment filename (effectiveSettings template override) ↔
          WorkerRejectsSheet w deployment (uploadedPath pre filename) template override
            parsedText) ∧
        ((effectiveSettings template override).allowExternalProcessing = true →
          ReadsAsSpreadsheet w.fields.lowerCase (uploadedPath pre filename) →
          ApiRejectsSheet w.fields.lowerCase deployment filename
              (effectiveSettings template override) ∧
            WorkerRejectsSheet w deployment (uploadedPath pre filename) template override
              parsedText)) ↔
      (effectiveSettings template override).allowExternalProcessing = false ∨
        lowerEndsWith w.fields.lowerCase filename policySpreadsheetSuffixes = false ∨
        deployment.allowExternalProcessing = true ∧
          lowerEndsWith w.fields.lowerCase filename [['.', 'x', 'l', 's']] = false := by
  have hworkerSuffixes : ∀ t ∈ executorSpreadsheetSuffixes, SheetSuffix t := fun t ht =>
    sheetSuffix_of_mem (by
      simp only [executorSpreadsheetSuffixes, policySpreadsheetSuffixes, List.mem_cons] at ht ⊢
      tauto)
  rw [apiRejectsSheet_iff hrequired, workerRejectsSheet_iff hrequired henabled hvalid htext,
    lowerEndsWith_uploadedPath hworkerSuffixes]
  have hreads : ReadsAsSpreadsheet w.fields.lowerCase (uploadedPath pre filename) →
      lowerEndsWith w.fields.lowerCase filename policySpreadsheetSuffixes = true :=
    lowerEndsWith_of_readsAsSpreadsheet hbase
  have hpolicy := lowerEndsWith_policy w.fields.lowerCase filename
  have hxls : lowerEndsWith w.fields.lowerCase filename [['.', 'x', 'l', 's']] = true →
      lowerEndsWith w.fields.lowerCase filename executorSpreadsheetSuffixes = false :=
    lowerEndsWith_executor_of_xls
  cases hexternal : (effectiveSettings template override).allowExternalProcessing with
  | false => simp
  | true =>
    cases hsheet : lowerEndsWith w.fields.lowerCase filename policySpreadsheetSuffixes with
    | false =>
      -- no spreadsheet for the API, and so none for the worker or the parser
      rw [hsheet] at hreads hpolicy
      have hworker : lowerEndsWith w.fields.lowerCase filename executorSpreadsheetSuffixes = false :=
        (Bool.or_eq_false_iff.mp hpolicy.symm).1
      have hparser : ¬ ReadsAsSpreadsheet w.fields.lowerCase (uploadedPath pre filename) :=
        fun h => Bool.false_ne_true (hreads h)
      simp [hworker, hparser]
    | true =>
      rw [hsheet] at hpolicy
      cases hxlsname : lowerEndsWith w.fields.lowerCase filename [['.', 'x', 'l', 's']] with
      | false =>
        -- a suffix the worker knows: only the deployment can make a difference
        have hworker : lowerEndsWith w.fields.lowerCase filename executorSpreadsheetSuffixes =
            true := by simpa [hxlsname] using hpolicy.symm
        cases deployment.allowExternalProcessing <;> simp [hworker]
      | true =>
        -- the suffix the worker lacks
        simp [hxls hxlsname]

/-- A deployment that allows external processing of redacted text. -/
def redactingDeployment : DeploymentSettings where
  requireRedactionForExternalProcessing := true

/-- A suffix that both know is refused at both places, in whatever case it is written. -/
theorem spreadsheet_gates_agree_csv :
    (ApiRejectsSheet .asciiOnly redactingDeployment "Report.CSV" (hostedSettings true) ↔
        WorkerRejectsSheet silentWorld redactingDeployment (uploadedPath "uploads/7f" "Report.CSV")
          invoiceTemplate (some (hostedSettings true)) (some "a,b")) ∧
      ((hostedSettings true).allowExternalProcessing = true →
        ReadsAsSpreadsheet .asciiOnly (uploadedPath "uploads/7f" "Report.CSV") →
        ApiRejectsSheet .asciiOnly redactingDeployment "Report.CSV" (hostedSettings true) ∧
          WorkerRejectsSheet silentWorld redactingDeployment (uploadedPath "uploads/7f" "Report.CSV")
            invoiceTemplate (some (hostedSettings true)) (some "a,b")) :=
  (@spreadsheet_gates_agree_iff silentWorld redactingDeployment invoiceTemplate
    (some (hostedSettings true)) (some "a,b") "uploads/7f" "Report.CSV" "a,b" rfl rfl rfl rfl
    (by decide)).mpr (Or.inr (Or.inr ⟨rfl, by decide⟩))

/-- **The suffix the worker lacks**: the API refuses `Report.xls` and the parser
reads it as a spreadsheet, but the worker sends it on. -/
theorem worker_accepts_xls :
    ¬ ∀ (w : ExtractionWorld) (deployment : DeploymentSettings) (template : ExtractionTemplate)
        (override : Option LLMProviderSettings) (parsedText : Option String)
        (pre filename text : String),
      deployment.requireRedactionForExternalProcessing = true →
      deployment.presidioRedactionEnabled = true →
      validateTemplate w.rt.engine w.rt.checkSchema template = .ok () →
      loadText w deployment (uploadedPath pre filename) parsedText = .ok text →
      '/' ∉ filename.toList →
      (ApiRejectsSheet w.fields.lowerCase deployment filename (effectiveSettings template override) ↔
          WorkerRejectsSheet w deployment (uploadedPath pre filename) template override
            parsedText) ∧
        ((effectiveSettings template override).allowExternalProcessing = true →
          ReadsAsSpreadsheet w.fields.lowerCase (uploadedPath pre filename) →
          ApiRejectsSheet w.fields.lowerCase deployment filename
              (effectiveSettings template override) ∧
            WorkerRejectsSheet w deployment (uploadedPath pre filename) template override
              parsedText) := by
  intro hclaim
  obtain ⟨-, hboth⟩ := hclaim silentWorld redactingDeployment invoiceTemplate
    (some (hostedSettings true)) (some "a,b") "uploads/7f" "Report.xls" "a,b" rfl rfl rfl rfl
    (by decide)
  obtain ⟨-, hworker⟩ := hboth rfl (by unfold ReadsAsSpreadsheet; decide)
  have hsuffix := ((workerRejectsSheet_iff rfl rfl rfl rfl).mp hworker).2.2
  exact absurd hsuffix (by decide)

end ExtractFlow
