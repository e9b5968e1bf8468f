import ExtractFlow.Lib.Checked
import ExtractFlow.Lib.JsValues
import ExtractFlow.Models

/-!
# Drafts of LangExtract examples

The editor of a schema (`frontend/src/langextract.ts`) keeps the examples of a LangExtract
configuration as drafts: the attributes of an extraction are rows, and a list of texts is
one text, a line for an item.  `buildLangExtractExamples` makes examples of drafts again, of
which everything is trimmed and nothing may be empty.

## Main definitions

* `DraftLangExtractExample` — a draft; `buildDraftLangExtractExamples` — the drafts of examples.
* `getLangExtractFieldCoverage` — which fields the examples cover.
* `isDraftExampleComplete` — nothing of the draft is empty.
* `buildLangExtractExamples` — the examples of drafts.

## Main results

* `buildLangExtractExamples_checked` — when drafts become examples, and which.
* `buildLangExtractExamples_draft` — examples that were built are built again of their drafts.
-/

namespace ExtractFlow

open Js JsObject Failing

/-! ### Drafts -/

/-- Whether the value of an attribute is one text or a list of texts, a line for each. -/
inductive AttributeKind where
  | string
  | stringArray
  deriving DecidableEq, Repr

/-- A row of the editor: an attribute as it was typed. -/
structure DraftLangExtractAttribute where
  key : String
  value : String
  valueKind : AttributeKind
  deriving Repr

structure DraftLangExtractExtraction where
  extractionClass : String
  extractionText : String
  attributes : List DraftLangExtractAttribute
  deriving Repr

structure DraftLangExtractExample where
  text : String
  extractions : List DraftLangExtractExtraction
  deriving Repr

/-- What the editor keeps of a LangExtract configuration: the prompt and the examples as they were
typed. -/
structure LangExtractDraftShape where
  langextractPromptDescription : String
  langextractExamples : List DraftLangExtractExample
  deriving Repr

/-- The items of a list of texts. -/
def textItems (items : List PyVal) : List String :=
  items.filterMap fun item =>
    match item with
    | .str s => some s
    | _ => none

@[simp] theorem textItems_map_str (texts : List String) : textItems (texts.map .str) = texts := by
  unfold textItems
  rw [List.filterMap_map]
  exact List.filterMap_some

/-- The row of an attribute, whose value is a text or a list of texts. -/
def draftAttribute (entry : String × PyVal) : DraftLangExtractAttribute :=
  match entry.2 with
  | .list items =>
      { key := entry.1, valueKind := .stringArray, value := joinLines (textItems items) }
  | .str s => { key := entry.1, value := s, valueKind := .string }
  | _ => { key := entry.1, value := "", valueKind := .string }

/-- The draft of an extraction. -/
def draftExtraction (extraction : LangExtractExampleExtraction) : DraftLangExtractExtraction where
  extractionClass := extraction.extractionClass
  extractionText := extraction.extractionText
  attributes := extraction.attributes.map draftAttribute

/-- The draft of an example. -/
def draftExample (example' : LangExtractExample) : DraftLangExtractExample where
  text := example'.text
  extractions := example'.extractions.map draftExtraction

/-- `buildDraftLangExtractExamples`: the drafts of a configuration’s examples, and none without a
configuration. -/
def buildDraftLangExtractExamples (config : Option LangExtractConfig) :
    List DraftLangExtractExample :=
  match config with
  | some config => config.examples.map draftExample
  | none => []

/-! ### Coverage -/

/-- The names, trimmed, without the empty ones. -/
def trimmedNames (names : List String) : List String := (names.map trim).filter (· ≠ "")

/-- Which fields the examples have extractions for, and which required fields they have none for. -/
structure LangExtractFieldCoverage where
  coveredFields : List String
  coveredRequiredFields : List String
  missingRequiredFields : List String
  deriving DecidableEq, Repr

/-- `coveredFieldSet`, of the classes of the examples' extractions. -/
def coveredFieldSet (classes validFieldNames : List String) : List String :=
  (trimmedNames classes).filter fun c =>
    (trimmedNames validFieldNames).isEmpty || decide (c ∈ trimmedNames validFieldNames)

/-- `getLangExtractFieldCoverage`: the fields and the required fields that are among the classes of
the extractions. -/
def getLangExtractFieldCoverage (classes validFieldNames requiredFieldNames : List String) :
    LangExtractFieldCoverage where
  coveredFields := validFieldNames.filter (· ∈ coveredFieldSet classes validFieldNames)
  coveredRequiredFields :=
    (trimmedNames requiredFieldNames).filter (· ∈ coveredFieldSet classes validFieldNames)
  missingRequiredFields :=
    (trimmedNames requiredFieldNames).filter (· ∉ coveredFieldSet classes validFieldNames)

theorem mem_trimmedNames {names : List String} {name : String} :
    name ∈ trimmedNames names ↔ name ≠ "" ∧ ∃ n ∈ names, trim n = name := by
  unfold trimmedNames
  rw [List.mem_filter, List.mem_map, decide_eq_true_iff, and_comm]

theorem mem_coveredFieldSet {classes validFieldNames : List String} {name : String} :
    name ∈ coveredFieldSet classes validFieldNames ↔ name ∈ trimmedNames classes ∧
      (trimmedNames validFieldNames = [] ∨ name ∈ trimmedNames validFieldNames) := by
  unfold coveredFieldSet
  rw [List.mem_filter, Bool.or_eq_true, List.isEmpty_iff, decide_eq_true_iff]

/-- When no required field is missing. -/
theorem missingRequiredFields_eq_nil_iff
    {classes validFieldNames requiredFieldNames : List String} :
    (getLangExtractFieldCoverage classes validFieldNames
        requiredFieldNames).missingRequiredFields = [] ↔
      ∀ name ∈ trimmedNames requiredFieldNames, name ∈ coveredFieldSet classes validFieldNames := by
  unfold getLangExtractFieldCoverage
  simp only [List.filter_eq_nil_iff, decide_eq_true_iff, not_not]

/-- The classes of drafts. -/
def draftClasses (examples : List DraftLangExtractExample) : List String :=
  examples.flatMap fun e => e.extractions.map DraftLangExtractExtraction.extractionClass

/-- The classes of examples. -/
def exampleClasses (examples : List LangExtractExample) : List String :=
  examples.flatMap fun e => e.extractions.map LangExtractExampleExtraction.extractionClass

/-! ### Completeness -/

/-- The lines of a text, trimmed, without the empty ones. -/
def filledLines (value : String) : List String := ((lines value).map trim).filter (· ≠ "")

/-- `isDraftAttributeComplete`. -/
def isDraftAttributeComplete (row : DraftLangExtractAttribute) : Bool :=
  if trim row.key = "" then false
  else
    match row.valueKind with
    | .stringArray => (lines row.value).any fun line => trim line ≠ ""
    | .string => trim row.value ≠ ""

/-- `isDraftExtractionComplete`. -/
def isDraftExtractionComplete (extraction : DraftLangExtractExtraction) : Bool :=
  trim extraction.extractionClass ≠ "" && trim extraction.extractionText ≠ "" &&
    extraction.attributes.all isDraftAttributeComplete

/-- `isDraftExampleComplete`: there is a text and there are extractions, and each of these is
complete. -/
def isDraftExampleComplete (example' : DraftLangExtractExample) : Bool :=
  trim example'.text ≠ "" && !example'.extractions.isEmpty &&
    example'.extractions.all isDraftExtractionComplete

/-! ### The builder -/

/-- The beginning of a message about an extraction, its place counted from one. -/
def extractionPlace (exampleIndex extractionIndex : ℕ) : String :=
  s!"LangExtract example {exampleIndex + 1} extraction {extractionIndex + 1}"

/-- The entry of an attribute. -/
def buildAttribute (exampleIndex extractionIndex : ℕ)
    (row : DraftLangExtractAttribute × ℕ) : Except String (String × PyVal) :=
  let place := extractionPlace exampleIndex extractionIndex
  let number := row.2 + 1
  let key := trim row.1.key
  if key = "" then .error s!"{place} attribute {number} needs a name."
  else
    match row.1.valueKind with
    | .stringArray =>
        let values := filledLines row.1.value
        if values = [] then .error s!"{place} attribute {number} needs at least one value."
        else .ok (key, .list (values.map .str))
    | .string =>
        let value := trim row.1.value
        if value = "" then .error s!"{place} attribute {number} needs a value."
        else .ok (key, .str value)

/-- A text, or a list of texts. -/
def isAttributeValue : PyVal → Bool
  | .str _ => true
  | .list items => items.all fun item =>
      match item with
      | .str _ => true
      | _ => false
  | _ => false

/-- `validateLangExtractAttributes`, of an object. -/
def validateLangExtractAttributes (attributes : List (String × PyVal))
    (exampleIndex extractionIndex : ℕ) : Except String Unit :=
  match attributes.find? fun entry => !isAttributeValue entry.2 with
  | none => .ok ()
  | some entry =>
      let name := entry.1
      let exampleNumber := exampleIndex + 1
      let extraction := extractionIndex + 1
      .error (s!"LangExtract examples[{exampleNumber}].extractions[{extraction}].attributes." ++
        s!"{name} must be a string or string array.")

/-- An extraction. -/
def buildExtraction (knownFields : List String) (exampleIndex : ℕ)
    (extraction : DraftLangExtractExtraction × ℕ) : Except String LangExtractExampleExtraction :=
  let place := extractionPlace exampleIndex extraction.2
  let extractionClass := trim extraction.1.extractionClass
  let extractionText := trim extraction.1.extractionText
  if extractionClass = "" then .error s!"{place} needs a field name."
  else if knownFields ≠ [] ∧ extractionClass ∉ knownFields then
    .error (s!"{place} references unknown field \"{extractionClass}\". Available fields: " ++
      ", ".intercalate knownFields.eraseDups ++ ".")
  else if extractionText = "" then .error s!"{place} needs source text."
  else do
    let entries ← extraction.1.attributes.zipIdx.mapM (buildAttribute exampleIndex extraction.2)
    let attributes := ofEntries entries
    validateLangExtractAttributes attributes exampleIndex extraction.2
    return { extractionClass := extractionClass, extractionText := extractionText
             attributes := attributes }

/-- An example. -/
def buildExample (knownFields : List String) (example' : DraftLangExtractExample × ℕ) :
    Except String LangExtractExample :=
  let number := example'.2 + 1
  let text := trim example'.1.text
  if text = "" then .error s!"LangExtract example {number} needs source text."
  else if example'.1.extractions = [] then
    .error s!"LangExtract example {number} needs at least one extraction."
  else do
    let extractions ← example'.1.extractions.zipIdx.mapM (buildExtraction knownFields example'.2)
    return { text := text, extractions := extractions }

/-- `buildLangExtractExamples`: the examples that are saved, or the message about the first draft
that is wanting. -/
def buildLangExtractExamples (examples : List DraftLangExtractExample)
    (validFieldNames requiredFieldNames : List String) :
    Except String (List LangExtractExample) := do
  let parsed ← examples.zipIdx.mapM (buildExample (trimmedNames validFieldNames))
  let coverage := getLangExtractFieldCoverage (exampleClasses parsed) validFieldNames
    requiredFieldNames
  if coverage.missingRequiredFields ≠ [] then
    throw ("LangExtract examples must cover every required extracted field. Missing example " ++
      "coverage for: " ++ ", ".intercalate coverage.missingRequiredFields ++ ".")
  return parsed

/-! ### What is built -/

/-- The entry of a complete row. -/
def builtAttribute (row : DraftLangExtractAttribute) : String × PyVal :=
  (trim row.key,
    match row.valueKind with
    | .stringArray => .list ((filledLines row.value).map .str)
    | .string => .str (trim row.value))

/-- The extraction of a complete draft. -/
def builtExtraction (extraction : DraftLangExtractExtraction) : LangExtractExampleExtraction where
  extractionClass := trim extraction.extractionClass
  extractionText := trim extraction.extractionText
  attributes := ofEntries (extraction.attributes.map builtAttribute)

/-- The example of a complete draft. -/
def builtExample (example' : DraftLangExtractExample) : LangExtractExample where
  text := trim example'.text
  extractions := example'.extractions.map builtExtraction

/-- The class of the extraction is one of the known fields, if any are known. -/
def ClassKnown (knownFields : List String) (extraction : DraftLangExtractExtraction) : Prop :=
  knownFields = [] ∨ trim extraction.extractionClass ∈ knownFields

theorem filledLines_eq_nil_iff {value : String} :
    filledLines value = [] ↔ ((lines value).any fun line => trim line ≠ "") = false := by
  unfold filledLines
  simp

theorem buildAttribute_checked (exampleIndex extractionIndex : ℕ)
    (row : DraftLangExtractAttribute) (i : ℕ) :
    Checked (buildAttribute exampleIndex extractionIndex (row, i))
      (isDraftAttributeComplete row = true) (builtAttribute row) := by
  unfold buildAttribute isDraftAttributeComplete builtAttribute
  cases hkind : row.valueKind with
  | string => exact (Checked.ok _).guard.guard.congr (by simp) rfl
  | stringArray =>
    refine (Checked.ok _).guard.guard.congr ?_ rfl
    rw [filledLines_eq_nil_iff]
    simp

theorem isAttributeValue_builtAttribute (row : DraftLangExtractAttribute) :
    isAttributeValue (builtAttribute row).2 = true := by
  unfold builtAttribute
  cases row.valueKind with
  | string => rfl
  | stringArray => simp [isAttributeValue]

/-- The attributes that were built are texts and lists of texts. -/
theorem validateLangExtractAttributes_built (rows : List DraftLangExtractAttribute)
    (exampleIndex extractionIndex : ℕ) :
    validateLangExtractAttributes (ofEntries (rows.map builtAttribute)) exampleIndex
      extractionIndex = .ok () := by
  unfold validateLangExtractAttributes
  have hnone : ((ofEntries (rows.map builtAttribute)).find? fun entry =>
      !isAttributeValue entry.2) = none := by
    rw [List.find?_eq_none]
    intro entry hentry
    obtain ⟨row, -, rfl⟩ := List.mem_map.mp (mem_ofEntries hentry)
    simp [isAttributeValue_builtAttribute row]
  rw [hnone]

theorem buildExtraction_checked (knownFields : List String) (exampleIndex : ℕ)
    (extraction : DraftLangExtractExtraction) (i : ℕ) :
    Checked (buildExtraction knownFields exampleIndex (extraction, i))
      (isDraftExtractionComplete extraction = true ∧ ClassKnown knownFields extraction)
      (builtExtraction extraction) := by
  have hentries := Checked.mapM_zipIdx 0
    (fun row (_ : row ∈ extraction.attributes) => buildAttribute_checked exampleIndex i row)
  have hvalid : Checked (validateLangExtractAttributes
      (ofEntries (extraction.attributes.map builtAttribute)) exampleIndex i) True () := by
    rw [validateLangExtractAttributes_built]
    exact Checked.ok ()
  have hbody := hentries.bind (f := fun entries => do
    validateLangExtractAttributes (ofEntries entries) exampleIndex i
    return LangExtractExampleExtraction.mk (trim extraction.extractionClass)
      (trim extraction.extractionText) (ofEntries entries)) (hvalid.bind (Checked.ok _))
  unfold buildExtraction
  refine Checked.congr (Checked.guard (Checked.guard (Checked.guard hbody))) ?_ rfl
  unfold isDraftExtractionComplete ClassKnown
  simp only [Bool.and_eq_true, decide_eq_true_iff, List.all_eq_true, not_and, not_not, ne_eq]
  constructor
  · rintro ⟨hclass, hknown, htext, hrows, -, -⟩
    exact ⟨⟨⟨hclass, htext⟩, hrows⟩, or_iff_not_imp_left.mpr hknown⟩
  · rintro ⟨⟨⟨hclass, htext⟩, hrows⟩, hknown⟩
    exact ⟨hclass, or_iff_not_imp_left.mp hknown, htext, hrows, trivial, trivial⟩

theorem buildExample_checked (knownFields : List String) (example' : DraftLangExtractExample)
    (i : ℕ) :
    Checked (buildExample knownFields (example', i))
      (isDraftExampleComplete example' = true ∧
        ∀ extraction ∈ example'.extractions, ClassKnown knownFields extraction)
      (builtExample example') := by
  have hextractions := Checked.mapM_zipIdx 0
    (fun extraction (_ : extraction ∈ example'.extractions) =>
      buildExtraction_checked knownFields i extraction)
  have hbody := hextractions.bind (f := fun extractions =>
    pure (LangExtractExample.mk (trim example'.text) extractions)) (Checked.ok _)
  unfold buildExample
  refine Checked.congr (Checked.guard (Checked.guard hbody)) ?_ rfl
  unfold isDraftExampleComplete
  simp only [Bool.and_eq_true, decide_eq_true_iff, List.all_eq_true, Bool.not_eq_true',
    List.isEmpty_eq_false_iff]
  constructor
  · rintro ⟨htext, hne, hall, -⟩
    exact ⟨⟨⟨htext, hne⟩, fun e he => (hall e he).1⟩, fun e he => (hall e he).2⟩
  · rintro ⟨⟨⟨htext, hne⟩, hcomplete⟩, hknown⟩
    exact ⟨htext, hne, fun e he => ⟨hcomplete e he, hknown e he⟩, trivial⟩

/-! ### The builder and the coverage -/

@[simp] theorem trimmedNames_map_trim (names : List String) :
    trimmedNames (names.map trim) = trimmedNames names := by
  have htrim : trim ∘ trim = trim := funext trim_trim
  unfold trimmedNames
  rw [List.map_map, htrim]

theorem exampleClasses_built (examples : List DraftLangExtractExample) :
    exampleClasses (examples.map builtExample) = (draftClasses examples).map trim := by
  unfold exampleClasses draftClasses
  rw [List.flatMap_map, List.map_flatMap]
  refine List.flatMap_congr fun example' _ => ?_
  rw [builtExample, List.map_map, List.map_map]
  rfl

/-- The built examples cover what their drafts cover. -/
theorem coverage_built (examples : List DraftLangExtractExample)
    (validFieldNames requiredFieldNames : List String) :
    getLangExtractFieldCoverage (exampleClasses (examples.map builtExample)) validFieldNames
        requiredFieldNames =
      getLangExtractFieldCoverage (draftClasses examples) validFieldNames requiredFieldNames := by
  unfold getLangExtractFieldCoverage coveredFieldSet
  rw [exampleClasses_built, trimmedNames_map_trim]

/-- The drafts can be built: each is complete, each class is the name of a field, and each required
field is in some example. -/
structure Buildable (examples : List DraftLangExtractExample)
    (validFieldNames requiredFieldNames : List String) : Prop where
  complete : ∀ example' ∈ examples, isDraftExampleComplete example' = true
  known : ∀ example' ∈ examples, ∀ extraction ∈ example'.extractions,
    ClassKnown (trimmedNames validFieldNames) extraction
  covered : (getLangExtractFieldCoverage (draftClasses examples) validFieldNames
    requiredFieldNames).missingRequiredFields = []

/-- **Drafts become examples when they are complete, name known fields and cover the required
ones.** -/
theorem buildLangExtractExamples_checked (examples : List DraftLangExtractExample)
    (validFieldNames requiredFieldNames : List String) :
    Checked (buildLangExtractExamples examples validFieldNames requiredFieldNames)
      (Buildable examples validFieldNames requiredFieldNames) (examples.map builtExample) := by
  have hparsed := Checked.mapM_zipIdx 0 (fun example' (_ : example' ∈ examples) =>
    buildExample_checked (trimmedNames validFieldNames) example')
  unfold buildLangExtractExamples
  refine Checked.congr (Checked.bind hparsed (Checked.guard (Checked.ok _))) ?_ rfl
  rw [coverage_built, not_not]
  constructor
  · rintro ⟨hall, hcovered, -⟩
    exact ⟨fun e he => (hall e he).1, fun e he => (hall e he).2, hcovered⟩
  · rintro ⟨hcomplete, hknown, hcovered⟩
    exact ⟨fun e he => ⟨hcomplete e he, hknown e he⟩, hcovered, trivial⟩

/-! ### Examples become drafts again -/

/-- The lines that were kept have no line feed. -/
theorem not_mem_of_mem_filledLines {value item : String} (h : item ∈ filledLines value) :
    '\n' ∉ item.toList := by
  obtain ⟨line, hline, rfl⟩ := List.mem_map.mp (List.mem_filter.mp h).1
  exact fun hmem => not_mem_of_mem_lines hline (mem_of_mem_trim hmem)

/-- Filled lines are the filled lines of the text they make. -/
theorem filledLines_joinLines {value : String} (h : filledLines value ≠ []) :
    filledLines (joinLines (filledLines value)) = filledLines value := by
  have hself : ∀ item ∈ filledLines value, trim item = item ∧ item ≠ "" := by
    intro item hitem
    obtain ⟨hline, hne⟩ := List.mem_filter.mp hitem
    obtain ⟨line, -, rfl⟩ := List.mem_map.mp hline
    exact ⟨trim_trim line, by simpa using hne⟩
  rw [filledLines, lines_joinLines h fun item => not_mem_of_mem_filledLines]
  rw [JsObject.map_eq_self_iff.mpr fun item hitem => (hself item hitem).1,
    List.filter_eq_self.mpr fun item hitem => by simpa using (hself item hitem).2]

/-- The row of an entry that was built is complete, and makes the entry again. -/
theorem draftAttribute_built {row : DraftLangExtractAttribute}
    (h : isDraftAttributeComplete row = true) :
    isDraftAttributeComplete (draftAttribute (builtAttribute row)) = true ∧
      builtAttribute (draftAttribute (builtAttribute row)) = builtAttribute row := by
  unfold isDraftAttributeComplete at h
  split at h
  · cases h
  next hkey =>
  unfold builtAttribute
  cases hkind : row.valueKind with
  | string =>
    rw [hkind] at h
    have hvalue : trim row.value ≠ "" := by simpa using h
    simp [draftAttribute, isDraftAttributeComplete, hkey, hvalue]
  | stringArray =>
    rw [hkind] at h
    have hany : ((lines row.value).any fun line => trim line ≠ "") = true := h
    have hfilled : filledLines row.value ≠ [] := by
      rw [ne_eq, filledLines_eq_nil_iff, hany]
      exact nofun
    -- the lines that were kept are trimmed and filled, so they are kept again
    have hagain := filledLines_joinLines hfilled
    have hcomplete : ((lines (joinLines (filledLines row.value))).any
        fun line => trim line ≠ "") = true := by
      rw [← Bool.not_eq_false, ← filledLines_eq_nil_iff, hagain]
      exact hfilled
    simp only [draftAttribute, textItems_map_str, isDraftAttributeComplete, trim_trim,
      hkey, if_false, hcomplete, hagain, and_self]

theorem draftExtraction_built {extraction : DraftLangExtractExtraction}
    (h : isDraftExtractionComplete extraction = true) :
    isDraftExtractionComplete (draftExtraction (builtExtraction extraction)) = true ∧
      builtExtraction (draftExtraction (builtExtraction extraction)) =
        builtExtraction extraction := by
  unfold isDraftExtractionComplete at h
  simp only [Bool.and_eq_true, decide_eq_true_iff, List.all_eq_true] at h
  obtain ⟨⟨hclass, htext⟩, hrows⟩ := h
  -- every property of the object comes from a row
  have hentries : ∀ entry ∈ (builtExtraction extraction).attributes,
      isDraftAttributeComplete (draftAttribute entry) = true ∧
        builtAttribute (draftAttribute entry) = entry := by
    intro entry hentry
    obtain ⟨row, hrow, rfl⟩ := List.mem_map.mp (mem_ofEntries hentry)
    exact draftAttribute_built (hrows row hrow)
  constructor
  · unfold isDraftExtractionComplete
    simp only [Bool.and_eq_true, decide_eq_true_iff, List.all_eq_true]
    refine ⟨⟨?_, ?_⟩, ?_⟩
    · rw [draftExtraction, builtExtraction, trim_trim]
      exact hclass
    · rw [draftExtraction, builtExtraction, trim_trim]
      exact htext
    · intro row hrow
      obtain ⟨entry, hentry, rfl⟩ := List.mem_map.mp hrow
      exact (hentries entry hentry).1
  · have hagain : (draftExtraction (builtExtraction extraction)).attributes.map builtAttribute =
        (builtExtraction extraction).attributes := by
      rw [draftExtraction, List.map_map]
      exact JsObject.map_eq_self_iff.mpr fun entry hentry => (hentries entry hentry).2
    rw [builtExtraction, hagain, builtExtraction, ofEntries_of_inOrder (inOrder_ofEntries _),
      draftExtraction, trim_trim, trim_trim]

theorem draftExample_built {example' : DraftLangExtractExample}
    (h : isDraftExampleComplete example' = true) :
    isDraftExampleComplete (draftExample (builtExample example')) = true ∧
      builtExample (draftExample (builtExample example')) = builtExample example' := by
  unfold isDraftExampleComplete at h
  simp only [Bool.and_eq_true, decide_eq_true_iff, List.all_eq_true, Bool.not_eq_true',
    List.isEmpty_eq_false_iff] at h
  obtain ⟨⟨htext, hne⟩, hall⟩ := h
  constructor
  · unfold isDraftExampleComplete
    simp only [Bool.and_eq_true, decide_eq_true_iff, List.all_eq_true, Bool.not_eq_true',
      List.isEmpty_eq_false_iff, draftExample, builtExample, trim_trim, ne_eq,
      List.map_eq_nil_iff]
    refine ⟨⟨htext, hne⟩, ?_⟩
    simp only [List.forall_mem_map]
    exact fun e he => (draftExtraction_built (hall e he)).1
  · have hagain : ((example'.extractions.map builtExtraction).map draftExtraction).map
        builtExtraction = example'.extractions.map builtExtraction := by
      rw [List.map_map, List.map_map]
      exact List.map_congr_left fun e he => (draftExtraction_built (hall e he)).2
    simp only [builtExample, draftExample, trim_trim, hagain]

/-- The drafts of built examples name the same classes, but for white space. -/
theorem draftClasses_draft (examples : List LangExtractExample) :
    draftClasses (examples.map draftExample) = exampleClasses examples := by
  unfold exampleClasses draftClasses
  rw [List.flatMap_map]
  refine List.flatMap_congr fun example' _ => ?_
  rw [draftExample, List.map_map]
  rfl

/-- **Examples that were built are built again of their drafts**, without an error and without a
change. -/
theorem buildLangExtractExamples_draft {drafts : List DraftLangExtractExample}
    {examples : List LangExtractExample} {validFieldNames requiredFieldNames : List String}
    (h : buildLangExtractExamples drafts validFieldNames requiredFieldNames = .ok examples) :
    buildLangExtractExamples (examples.map draftExample) validFieldNames requiredFieldNames =
      .ok examples := by
  obtain ⟨hbuildable, rfl⟩ := (buildLangExtractExamples_checked _ _ _).ok_iff.mp h
  refine (buildLangExtractExamples_checked _ _ _).ok_iff.mpr ⟨⟨?_, ?_, ?_⟩, ?_⟩
  · simp only [List.forall_mem_map]
    exact fun e he => (draftExample_built (hbuildable.complete e he)).1
  · simp only [List.forall_mem_map]
    intro e he extraction hextraction
    obtain ⟨built, hbuilt, rfl⟩ := List.mem_map.mp hextraction
    obtain ⟨draft, hdraft, rfl⟩ := List.mem_map.mp hbuilt
    have hclass : trim (draftExtraction (builtExtraction draft)).extractionClass =
        trim draft.extractionClass := trim_trim draft.extractionClass
    unfold ClassKnown
    rw [hclass]
    exact hbuildable.known e he draft hdraft
  · rw [draftClasses_draft, coverage_built]
    exact hbuildable.covered
  · rw [List.map_map, List.map_map]
    exact List.map_congr_left fun e he => (draftExample_built (hbuildable.complete e he)).2

end ExtractFlow
