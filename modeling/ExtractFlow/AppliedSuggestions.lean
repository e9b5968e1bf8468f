import ExtractFlow.FeedbackAccounting
import ExtractFlow.LangExtractDrafts

/-!
# Suggestions that were applied

A suggestion that is added to a draft becomes rows of the editor, as an example does
(`buildDraftLangExtractExampleFromSuggestion`).  The editor then tells the suggestions that
were applied from the others by comparing drafts and suggestions
(`doesDraftLangExtractExampleMatchSuggestion`, `frontend/src/langextract.ts`): both are
trimmed, their attributes sorted, and their JSON compared.  A draft with anything blank in it
matches nothing.

In a draft the items of a list are lines of one text, so an item of several lines becomes
several items.  And what Python does not strip may be blank to JavaScript.

## Main definitions

* `buildDraftLangExtractExampleFromSuggestion`, `doesDraftLangExtractExampleMatchSuggestion`.
* `received` — a suggestion as the interface reads it from the API.
* `Recognised` — nothing is blank, and no item has several lines.

## Main results

* `buildComparableDraftExample_eq` — what a draft is compared as.
* `matches_iff` — when the draft of a suggestion matches it.
* `applied_suggestion_iff` — when a suggestion of the API does.
-/

namespace ExtractFlow

open Js JsObject JsonText

/-! ### The program -/

structure LangExtractSuggestionShape where
  exampleText : String
  extractions : List LangExtractExampleExtraction
  deriving Repr

/-- `buildDraftLangExtractExampleFromSuggestion`: the text as it is, the values of the attributes as
the lines an editor shows. -/
def buildDraftLangExtractExampleFromSuggestion (suggestion : LangExtractSuggestionShape) :
    DraftLangExtractExample where
  text := suggestion.exampleText
  extractions := suggestion.extractions.map draftExtraction

/-- `s.replace(/\r\n/g, "\n")`. -/
def unixLineEnds : List Char → List Char
  | '\r' :: '\n' :: cs => '\n' :: unixLineEnds cs
  | c :: cs => c :: unixLineEnds cs
  | [] => []

/-- `normalizeComparableText`. -/
def normalizeComparableText (value : String) : String :=
  trim (String.ofList (unixLineEnds value.toList))

section Program

-- `left.localeCompare(right) <= 0`, in the locale of the browser
variable (collate : String → String → Bool)

/-- The entries sorted by their keys, as an object. -/
def sortedObject (entries : List (String × PyVal)) : List (String × PyVal) :=
  ofEntries (entries.mergeSort fun left right => collate left.1 right.1)

/-- The entry of a row, unless something of it is blank. -/
def comparableRow (row : DraftLangExtractAttribute) : Option (String × PyVal) :=
  let key := trim row.key
  if key = "" then none
  else
    match row.valueKind with
    | .stringArray =>
        let values := filledLines row.value
        if values = [] then none else some (key, .list (values.map .str))
    | .string =>
        let value := trim row.value
        if value = "" then none else some (key, .str value)

/-- `buildComparableDraftAttributes`. -/
def buildComparableDraftAttributes (rows : List DraftLangExtractAttribute) :
    Option (List (String × PyVal)) :=
  (rows.mapM comparableRow).map (sortedObject collate)

/-- The entry of an attribute. -/
def comparableEntry (entry : String × PyVal) : String × PyVal :=
  (trim entry.1,
    match entry.2 with
    | .list items => .list (((textItems items).map trim).filter (· ≠ "") |>.map .str)
    | .str s => .str (trim s)
    | v => v)

/-- `buildComparableSuggestionAttributes`. -/
def buildComparableSuggestionAttributes (attributes : List (String × PyVal)) :
    List (String × PyVal) :=
  sortedObject collate (attributes.map comparableEntry)

/-- The extraction of a draft, unless something of it is blank. -/
def comparableExtraction (extraction : DraftLangExtractExtraction) :
    Option LangExtractExampleExtraction :=
  let extractionClass := trim extraction.extractionClass
  let extractionText := trim extraction.extractionText
  if extractionClass = "" ∨ extractionText = "" then none
  else (buildComparableDraftAttributes collate extraction.attributes).map fun attributes =>
    { extractionClass := extractionClass, extractionText := extractionText
      attributes := attributes }

/-- `buildComparableDraftExample`. -/
def buildComparableDraftExample (example' : DraftLangExtractExample) :
    Option LangExtractExample :=
  let text := normalizeComparableText example'.text
  if text = "" ∨ example'.extractions = [] then none
  else (example'.extractions.mapM (comparableExtraction collate)).map fun extractions =>
    { text := text, extractions := extractions }

/-- `buildComparableSuggestion`. -/
def buildComparableSuggestion (suggestion : LangExtractSuggestionShape) : LangExtractExample where
  text := normalizeComparableText suggestion.exampleText
  extractions := suggestion.extractions.map fun extraction =>
    { extractionClass := trim extraction.extractionClass
      extractionText := trim extraction.extractionText
      attributes := buildComparableSuggestionAttributes collate extraction.attributes }

variable {ν : Type}

/-- The JSON value of an attribute. -/
def attributeJson : PyVal → Json ν
  | .str s => .str s
  | .list items => .arr ((textItems items).map .str)
  | _ => .null

/-- The JSON value of an extraction. -/
def extractionJson (extraction : LangExtractExampleExtraction) : Json ν :=
  .obj [("extraction_class", .str extraction.extractionClass),
    ("extraction_text", .str extraction.extractionText),
    ("attributes", .obj (extraction.attributes.map fun kv => (kv.1, attributeJson kv.2)))]

/-- The JSON value of what is compared. -/
def comparableJson (example' : LangExtractExample) : Json ν :=
  .obj [("text", .str example'.text),
    ("extractions", .arr (example'.extractions.map extractionJson))]

/-- `doesDraftLangExtractExampleMatchSuggestion`: the JSON texts of both, after trimming and
sorting. A draft that is not complete matches nothing. -/
def doesDraftLangExtractExampleMatchSuggestion (num : JsNumbers ν)
    (example' : DraftLangExtractExample) (suggestion : LangExtractSuggestionShape) : Bool :=
  match buildComparableDraftExample collate example' with
  | none => false
  | some comparableExample =>
      num.compact (comparableJson comparableExample) ==
        num.compact (comparableJson (buildComparableSuggestion collate suggestion))

/-- `getAppliedLangExtractSuggestionKeys`. -/
def getAppliedLangExtractSuggestionKeys (num : JsNumbers ν)
    (examples : List DraftLangExtractExample)
    (suggestions : List (String × LangExtractSuggestionShape)) : List String :=
  (suggestions.filter fun suggestion => examples.any fun example' =>
    doesDraftLangExtractExampleMatchSuggestion collate num example' suggestion.2).map Prod.fst

end Program

/-- A suggestion of the API, as the interface reads it: of two attributes of one name the later
wins. -/
def LangExtractFeedbackSuggestion.received (s : LangExtractFeedbackSuggestion) :
    LangExtractSuggestionShape where
  exampleText := s.exampleText
  extractions := s.extractions.map fun extraction =>
    { extractionClass := extraction.extractionClass, extractionText := extraction.extractionText
      attributes := ofEntries extraction.attributes }

/-! ### What is compared -/

/-- JavaScript counts both line ends as white space. -/
theorem normalizeComparableText_eq_empty_iff (value : String) :
    normalizeComparableText value = "" ↔ trim value = "" := by
  have hblank : ∀ cs : List Char, (∀ c ∈ unixLineEnds cs, isJsSpace c = true) ↔
      ∀ c ∈ cs, isJsSpace c = true := by
    intro cs
    induction cs using unixLineEnds.induct with
    | case1 cs ih =>
      rw [unixLineEnds, List.forall_mem_cons, List.forall_mem_cons, List.forall_mem_cons, ih]
      exact (and_iff_right (by decide)).symm
    | case2 c cs hne ih =>
      rw [unixLineEnds, List.forall_mem_cons, List.forall_mem_cons, ih]
      exact hne
    | case3 => exact Iff.rfl
  rw [normalizeComparableText, trim_eq_empty_iff, trim_eq_empty_iff, String.toList_ofList, hblank]

/-- All or nothing. -/
theorem mapM_guard {α β : Type} {P : α → Bool} {f : α → Option β} {g : α → β}
    (h : ∀ a, f a = if P a = true then some (g a) else none) (xs : List α) :
    xs.mapM f = if xs.all P = true then some (xs.map g) else none := by
  induction xs with
  | nil => rfl
  | cons x xs ih =>
    rw [List.mapM_cons, ih, h, List.all_cons, List.map_cons]
    cases P x with
    | false => rfl
    | true =>
      cases xs.all P with
      | false => rfl
      | true => rfl

/-- A row is compared as the entry that is built of it. -/
theorem comparableRow_eq (row : DraftLangExtractAttribute) :
    comparableRow row =
      if isDraftAttributeComplete row = true then some (builtAttribute row) else none := by
  unfold comparableRow isDraftAttributeComplete builtAttribute
  by_cases hkey : trim row.key = ""
  · simp [hkey]
  · cases hkind : row.valueKind with
    | string => by_cases hvalue : trim row.value = "" <;> simp [hkey, hvalue]
    | stringArray =>
      simp only [hkey, if_false, filledLines_eq_nil_iff]
      cases (lines row.value).any fun line => trim line ≠ "" <;> rfl

section Compared

variable {collate : String → String → Bool}

/-- What a complete draft of an extraction is compared as. -/
def comparedExtraction (collate : String → String → Bool)
    (extraction : DraftLangExtractExtraction) : LangExtractExampleExtraction where
  extractionClass := trim extraction.extractionClass
  extractionText := trim extraction.extractionText
  attributes := sortedObject collate (extraction.attributes.map builtAttribute)

theorem comparableExtraction_eq (extraction : DraftLangExtractExtraction) :
    comparableExtraction collate extraction =
      if isDraftExtractionComplete extraction = true
        then some (comparedExtraction collate extraction) else none := by
  unfold comparableExtraction buildComparableDraftAttributes isDraftExtractionComplete
  rw [mapM_guard comparableRow_eq]
  by_cases hclass : trim extraction.extractionClass = ""
  · simp [hclass]
  · by_cases htext : trim extraction.extractionText = ""
    · simp [htext]
    · cases hrows : extraction.attributes.all isDraftAttributeComplete with
      | false => simp [hclass, htext]
      | true =>
        simp only [hclass, htext, or_self, if_false, if_true, Option.map_some, ne_eq,
          not_false_eq_true, decide_true, Bool.and_self]
        rfl

/-- **What a draft is compared as**, if it is complete: its trimmed text and its extractions, each
with its attributes in order. -/
theorem buildComparableDraftExample_eq (example' : DraftLangExtractExample) :
    buildComparableDraftExample collate example' =
      if isDraftExampleComplete example' = true then
        some { text := normalizeComparableText example'.text
               extractions := example'.extractions.map (comparedExtraction collate) }
      else none := by
  unfold buildComparableDraftExample isDraftExampleComplete
  rw [mapM_guard comparableExtraction_eq]
  by_cases htext : trim example'.text = ""
  · simp [htext, normalizeComparableText_eq_empty_iff]
  · by_cases hnil : example'.extractions = []
    · simp [hnil]
    · cases hall : example'.extractions.all isDraftExtractionComplete with
      | false => simp
      | true =>
        have hempty : example'.extractions.isEmpty = false := List.isEmpty_eq_false_iff.mpr hnil
        simp only [normalizeComparableText_eq_empty_iff, htext, hnil, or_self, if_false, if_true,
          Option.map_some, ne_eq, not_false_eq_true, decide_true, hempty, Bool.not_false,
          Bool.and_self]

end Compared

/-! ### Filled lines -/

/-- The lines of some letters, trimmed, without the empty ones. -/
def filledPieces (cs : List Char) : List (List Char) :=
  ((cs.splitOn '\n').map (Trim.trim isJsSpace)).filter (· ≠ [])

theorem filledLines_eq (value : String) :
    filledLines value = (filledPieces value.toList).map String.ofList := by
  have htrim : trim ∘ String.ofList = String.ofList ∘ Trim.trim isJsSpace := by
    funext piece
    rw [Function.comp_apply, trim, String.toList_ofList]
    rfl
  have hempty : ((fun s : String => decide (s ≠ "")) ∘ String.ofList) =
      fun piece : List Char => decide (piece ≠ []) := by
    funext piece
    rw [Function.comp_apply, decide_eq_decide]
    exact not_congr String.ofList_eq_empty_iff
  unfold filledLines filledPieces lines
  rw [List.map_map, htrim, ← List.map_map, List.filter_map, hempty]

/-- White space in front makes no line. -/
theorem filledPieces_cons {c : Char} {cs : List Char} (h : isJsSpace c = true) :
    filledPieces (c :: cs) = filledPieces cs := by
  unfold filledPieces
  rw [List.splitOn_cons_eq_if_modifyHead]
  split_ifs with hfeed
  · rfl
  · obtain ⟨first, rest, hsplit⟩ := List.exists_cons_of_ne_nil (List.splitOn_ne_nil '\n' cs)
    have hfirst : Trim.trim isJsSpace (c :: first) = Trim.trim isJsSpace first :=
      Trim.trim_dropped_append (List.forall_mem_singleton.mpr h)
    rw [hsplit, List.modifyHead_cons, List.map_cons, List.map_cons, hfirst]

theorem filledPieces_append {pre cs : List Char} (h : ∀ c ∈ pre, isJsSpace c = true) :
    filledPieces (pre ++ cs) = filledPieces cs := by
  induction pre with
  | nil => rfl
  | cons c pre ih =>
    obtain ⟨hc, hpre⟩ := List.forall_mem_cons.mp h
    rw [List.cons_append, filledPieces_cons hc, ih hpre]

/-- White space alone makes no line, anything else does. -/
theorem filledPieces_eq_nil_iff {cs : List Char} :
    filledPieces cs = [] ↔ ∀ c ∈ cs, isJsSpace c = true := by
  induction cs with
  | nil => simp [filledPieces, Trim.trim]
  | cons c cs ih =>
    by_cases hc : isJsSpace c = true
    · rw [filledPieces_cons hc, ih, List.forall_mem_cons, and_iff_right hc]
    · have hfeed : (c == '\n') = false := by
        rw [beq_eq_false_iff_ne]
        rintro rfl
        exact hc (by decide)
      obtain ⟨first, rest, hsplit⟩ := List.exists_cons_of_ne_nil (List.splitOn_ne_nil '\n' cs)
      have hstays : Trim.trim isJsSpace (c :: first) ≠ [] :=
        fun hnil => hc (Trim.trim_eq_nil_iff.mp hnil c List.mem_cons_self)
      refine iff_of_false ?_ fun h => hc (h c List.mem_cons_self)
      unfold filledPieces
      rw [List.splitOn_cons_eq_if_modifyHead, hfeed, if_neg Bool.false_ne_true, hsplit,
        List.modifyHead_cons, List.map_cons, List.filter_cons_of_pos (by simpa using hstays)]
      exact List.cons_ne_nil _ _

/-- A line between white space. -/
theorem filledPieces_line {line post : List Char} (hline : '\n' ∉ line)
    (hpost : ∀ c ∈ post, isJsSpace c = true) :
    filledPieces (line ++ post) = [Trim.trim isJsSpace line].filter (· ≠ []) := by
  by_cases hfeed : '\n' ∈ post
  · obtain ⟨first, rest, rfl, hfirst⟩ := List.eq_append_cons_of_mem hfeed
    have hrest : filledPieces rest = [] := filledPieces_eq_nil_iff.mpr fun c hc =>
      hpost c (List.mem_append_right _ (List.mem_cons_of_mem _ hc))
    have hnot : '\n' ∉ line ++ first := fun h => (List.mem_append.mp h).elim hline hfirst
    unfold filledPieces at hrest ⊢
    rw [← List.append_assoc, List.splitOn_append_cons_self, List.map_append, List.filter_append,
      hrest, List.append_nil, List.splitOn_eq_singleton hnot, List.map_singleton,
      Trim.trim_append_dropped fun c hc => hpost c (List.mem_append_left _ hc)]
  · have hnot : '\n' ∉ line ++ post := fun h => (List.mem_append.mp h).elim hline hfeed
    unfold filledPieces
    rw [List.splitOn_eq_singleton hnot, List.map_singleton, Trim.trim_append_dropped hpost]

theorem filledLines_ne_nil_iff {value : String} : filledLines value ≠ [] ↔ trim value ≠ "" := by
  rw [filledLines_eq, ne_eq, List.map_eq_nil_iff, filledPieces_eq_nil_iff, ← trim_eq_empty_iff]

/-- A text of one line. -/
theorem filledLines_of_oneLine {value : String} (h : '\n' ∉ (trim value).toList) :
    filledLines value = [trim value].filter (· ≠ "") := by
  obtain ⟨pre, post, hsplit, hpre, hpost⟩ := Trim.trim_split isJsSpace value.toList
  rw [toList_trim] at h
  rw [filledLines_eq, hsplit, List.append_assoc, filledPieces_append hpre,
    filledPieces_line h hpost, Trim.trim_idem]
  unfold trim
  by_cases hnil : Trim.trim isJsSpace value.toList = []
  · simp [hnil]
  · simp [hnil, String.ofList_eq_empty_iff]

theorem filledLines_joinLines_flatMap (items : List String) :
    filledLines (joinLines items) = items.flatMap filledLines := by
  by_cases hnil : items = []
  · rw [hnil]
    rfl
  · rw [filledLines, lines_joinLines_flatMap hnil, List.map_flatMap, List.filter_flatMap]
    rfl

/-- **Items are kept as lines if and only if none has several lines.** -/
theorem flatMap_filledLines_iff (items : List String) :
    items.flatMap filledLines = (items.map trim).filter (· ≠ "") ↔
      ∀ item ∈ items, '\n' ∉ (trim item).toList := by
  constructor
  · intro h item hitem hfeed
    have hne : trim item ≠ "" := by
      intro hempty
      rw [hempty] at hfeed
      cases hfeed
    have hmem : trim item ∈ items.flatMap filledLines := by
      rw [h]
      exact List.mem_filter.mpr ⟨List.mem_map_of_mem hitem, by simpa using hne⟩
    obtain ⟨item', -, hline⟩ := List.mem_flatMap.mp hmem
    exact not_mem_of_mem_filledLines hline hfeed
  · intro h
    induction items with
    | nil => rfl
    | cons item items ih =>
      obtain ⟨hitem, hitems⟩ := List.forall_mem_cons.mp h
      rw [List.flatMap_cons, filledLines_of_oneLine hitem, ih hitems, List.map_cons,
        ← List.filter_append, List.singleton_append]

/-! ### When a suggestion is recognised -/

/-- The value is a text or a list of texts with something in it. -/
def Filled : PyVal → Prop
  | .str s => trim s ≠ ""
  | .list items => ∃ item ∈ textItems items, trim item ≠ ""
  | _ => False

/-- No item of a list has several lines, but for white space at its ends. -/
def OneLined : PyVal → Prop
  | .list items => ∀ item ∈ textItems items, '\n' ∉ (trim item).toList
  | _ => True

/-- The attributes under their trimmed names; of two with the same name the later stays. -/
def survivingAttributes (collate : String → String → Bool) (attributes : List (String × PyVal)) :
    List (String × PyVal) :=
  sortedObject collate (attributes.map fun entry => (trim entry.1, entry.2))

/-- Nothing of the suggestion is blank, and no list has an item of several lines. -/
structure Recognised (collate : String → String → Bool) (s : LangExtractSuggestionShape) :
    Prop where
  text : trim s.exampleText ≠ ""
  extractions : s.extractions ≠ []
  named : ∀ extraction ∈ s.extractions,
    trim extraction.extractionClass ≠ "" ∧ trim extraction.extractionText ≠ ""
  filled : ∀ extraction ∈ s.extractions, ∀ entry ∈ extraction.attributes,
    trim entry.1 ≠ "" ∧ Filled entry.2
  oneLined : ∀ extraction ∈ s.extractions,
    ∀ entry ∈ survivingAttributes collate extraction.attributes, OneLined entry.2

/-- The row of an attribute is complete when there is something in it. -/
theorem isDraftAttributeComplete_draft (entry : String × PyVal) :
    isDraftAttributeComplete (draftAttribute entry) = true ↔
      trim entry.1 ≠ "" ∧ Filled entry.2 := by
  obtain ⟨key, v⟩ := entry
  by_cases hkey : trim key = ""
  · cases v <;> simp [draftAttribute, isDraftAttributeComplete, hkey]
  · cases v with
    | str s =>
      simp only [draftAttribute, isDraftAttributeComplete, hkey, if_false, ne_eq, Filled,
        not_false_eq_true, true_and]
      exact decide_eq_true_iff
    | list items =>
      have hlines : ((lines (joinLines (textItems items))).any fun line => trim line ≠ "") = true ↔
          ∃ item ∈ textItems items, trim item ≠ "" := by
        rw [← Bool.not_eq_false, ← filledLines_eq_nil_iff, filledLines_joinLines_flatMap,
          List.flatMap_eq_nil_iff]
        simp only [not_forall, exists_prop, ← ne_eq, filledLines_ne_nil_iff]
      simp only [draftAttribute, isDraftAttributeComplete, hkey, if_false, ne_eq, Filled,
        not_false_eq_true, true_and]
      exact hlines
    | none | bool | int | float | tuple | dict | function | view | object =>
      have hempty : trim "" = "" := rfl
      simp [draftAttribute, isDraftAttributeComplete, hkey, Filled, hempty]

theorem isDraftExampleComplete_draft (s : LangExtractSuggestionShape) :
    isDraftExampleComplete (buildDraftLangExtractExampleFromSuggestion s) = true ↔
      trim s.exampleText ≠ "" ∧ s.extractions ≠ [] ∧
        (∀ extraction ∈ s.extractions,
          trim extraction.extractionClass ≠ "" ∧ trim extraction.extractionText ≠ "") ∧
        ∀ extraction ∈ s.extractions, ∀ entry ∈ extraction.attributes,
          trim entry.1 ≠ "" ∧ Filled entry.2 := by
  unfold isDraftExampleComplete buildDraftLangExtractExampleFromSuggestion
  simp only [Bool.and_eq_true, decide_eq_true_iff, Bool.not_eq_true', List.isEmpty_eq_false_iff,
    ne_eq, List.map_eq_nil_iff, List.all_eq_true, List.forall_mem_map, isDraftExtractionComplete,
    draftExtraction, isDraftAttributeComplete_draft]
  constructor
  · rintro ⟨⟨htext, hne⟩, hall⟩
    exact ⟨htext, hne, fun x hx => (hall x hx).1, fun x hx => (hall x hx).2⟩
  · rintro ⟨htext, hne, hnamed, hfilled⟩
    exact ⟨⟨htext, hne⟩, fun x hx => ⟨hnamed x hx, hfilled x hx⟩⟩

/-! ### The two sides -/

section Sides

variable {collate : String → String → Bool}

/-- The sorting looks at the keys only. -/
theorem sortedObject_map (f : PyVal → PyVal) (entries : List (String × PyVal)) :
    sortedObject collate (entries.map fun entry => (entry.1, f entry.2)) =
      (sortedObject collate entries).map fun entry => (entry.1, f entry.2) := by
  have hsort : (entries.mergeSort fun left right => collate left.1 right.1).map
      (fun entry => (entry.1, f entry.2)) =
      (entries.map fun entry => (entry.1, f entry.2)).mergeSort
        fun left right => collate left.1 right.1 :=
    List.map_mergeSort fun _ _ _ _ => rfl
  unfold sortedObject
  rw [← hsort, ofEntries_map]

/-- What becomes of a value in the draft. -/
def draftedValue : PyVal → PyVal
  | .list items => .list (((textItems items).flatMap filledLines).map .str)
  | .str s => .str (trim s)
  | _ => .str ""

/-- What becomes of it on the other side. -/
def suggestedValue : PyVal → PyVal
  | .list items => .list (((textItems items).map trim).filter (· ≠ "") |>.map .str)
  | .str s => .str (trim s)
  | v => v

theorem comparedExtraction_draft (extraction : LangExtractExampleExtraction) :
    (comparedExtraction collate (draftExtraction extraction)).attributes =
      (survivingAttributes collate extraction.attributes).map fun entry =>
        (entry.1, draftedValue entry.2) := by
  have hentry : ∀ entry : String × PyVal,
      builtAttribute (draftAttribute entry) = (trim entry.1, draftedValue entry.2) := by
    rintro ⟨key, v⟩
    cases v with
    | list items =>
      simp only [draftAttribute, builtAttribute, draftedValue, filledLines_joinLines_flatMap]
    | str | none | bool | int | float | tuple | dict | function | view | object => rfl
  have hmap : (extraction.attributes.map draftAttribute).map builtAttribute =
      (extraction.attributes.map fun entry => (trim entry.1, entry.2)).map fun entry =>
        (entry.1, draftedValue entry.2) := by
    rw [List.map_map, List.map_map]
    exact List.map_congr_left fun entry _ => hentry entry
  unfold survivingAttributes
  rw [← sortedObject_map, ← hmap]
  rfl

theorem buildComparableSuggestionAttributes_eq (attributes : List (String × PyVal)) :
    buildComparableSuggestionAttributes collate attributes =
      (survivingAttributes collate attributes).map fun entry =>
        (entry.1, suggestedValue entry.2) := by
  unfold buildComparableSuggestionAttributes survivingAttributes
  rw [← sortedObject_map, List.map_map]
  rfl

end Sides

/-! ### The texts that are compared -/

section Texts

variable {ν : Type} {num : JsNumbers ν} {collate : String → String → Bool}

theorem str_injective : Function.Injective (Json.str : String → Json ν) :=
  fun _ _ h => Json.str.inj h

/-- The two values of an attribute are the same if and only if no item has several lines. -/
theorem attributeJson_eq_iff {v : PyVal} (h : Filled v) :
    (attributeJson (draftedValue v) : Json ν) = attributeJson (suggestedValue v) ↔ OneLined v := by
  cases v with
  | str s => exact iff_of_true rfl trivial
  | list items =>
    simp only [draftedValue, suggestedValue, attributeJson, textItems_map_str, Json.arr.injEq,
      (List.map_injective_iff.mpr str_injective).eq_iff, OneLined]
    exact flatMap_filledLines_iff _
  | none | bool | int | float | tuple | dict | function | view | object => exact h.elim

/-- Numbers do not occur. -/
theorem written_attributeJson (v : PyVal) :
    (attributeJson v : Json ν).written num.format = attributeJson v := by
  cases v with
  | list items =>
    rw [attributeJson, Json.written, Json.writtenItems_eq, List.map_map]
    rfl
  | str | none | bool | int | float | tuple | dict | function | view | object => rfl

theorem written_extractionJson (extraction : LangExtractExampleExtraction) :
    (extractionJson extraction : Json ν).written num.format = extractionJson extraction := by
  simp only [extractionJson, Json.written, Json.writtenEntries_eq, List.map_cons, List.map_nil,
    List.map_map, Function.comp_def, written_attributeJson]

theorem written_comparableJson (example' : LangExtractExample) :
    (comparableJson example' : Json ν).written num.format = comparableJson example' := by
  simp only [comparableJson, Json.written, Json.writtenEntries_eq, Json.writtenItems_eq,
    List.map_cons, List.map_nil, List.map_map, Function.comp_def, written_extractionJson]

/-- The two sides of an extraction. -/
theorem extractionJson_eq_iff {extraction : LangExtractExampleExtraction}
    (h : ∀ entry ∈ extraction.attributes, Filled entry.2) :
    (extractionJson (comparedExtraction collate (draftExtraction extraction)) : Json ν) =
        extractionJson
          { extractionClass := trim extraction.extractionClass
            extractionText := trim extraction.extractionText
            attributes := buildComparableSuggestionAttributes collate extraction.attributes } ↔
      ∀ entry ∈ survivingAttributes collate extraction.attributes, OneLined entry.2 := by
  have hfilled : ∀ entry ∈ survivingAttributes collate extraction.attributes, Filled entry.2 := by
    intro entry hentry
    obtain ⟨entry', hentry', rfl⟩ := List.mem_map.mp
      (List.mem_mergeSort.mp (mem_ofEntries hentry))
    exact h entry' hentry'
  unfold extractionJson
  rw [comparedExtraction_draft, buildComparableSuggestionAttributes_eq]
  have hclass : (comparedExtraction collate (draftExtraction extraction)).extractionClass =
      trim extraction.extractionClass := rfl
  have htext : (comparedExtraction collate (draftExtraction extraction)).extractionText =
      trim extraction.extractionText := rfl
  simp only [hclass, htext, List.map_map, Json.obj.injEq, List.cons.injEq, Prod.mk.injEq,
    true_and, and_true, List.map_inj_left, Function.comp_apply]
  exact forall₂_congr fun entry hentry => attributeJson_eq_iff (hfilled entry hentry)

variable (num collate) in
/-- **When the draft of a suggestion matches it**: exactly when each of its extractions comes back
from the editor as it was. -/
theorem matches_iff (s : LangExtractSuggestionShape) :
    doesDraftLangExtractExampleMatchSuggestion collate num
        (buildDraftLangExtractExampleFromSuggestion s) s = true ↔
      Recognised collate s := by
  have hcomplete := isDraftExampleComplete_draft s
  unfold doesDraftLangExtractExampleMatchSuggestion
  rw [buildComparableDraftExample_eq]
  split_ifs with h
  · obtain ⟨htext, hne, hnamed, hfilled⟩ := hcomplete.mp h
    -- the texts are the same on both sides, so the extractions decide
    have hsame : (num.compact (comparableJson
          { text := normalizeComparableText
              (buildDraftLangExtractExampleFromSuggestion s).text
            extractions := (buildDraftLangExtractExampleFromSuggestion s).extractions.map
              (comparedExtraction collate) }) =
          num.compact (comparableJson (buildComparableSuggestion collate s))) ↔
        ∀ extraction ∈ s.extractions,
          ∀ entry ∈ survivingAttributes collate extraction.attributes, OneLined entry.2 := by
      rw [JsNumbers.compact_eq_iff, written_comparableJson, written_comparableJson]
      unfold comparableJson buildComparableSuggestion buildDraftLangExtractExampleFromSuggestion
      simp only [List.map_map, Json.obj.injEq, List.cons.injEq, Prod.mk.injEq, true_and, and_true,
        Json.arr.injEq, List.map_inj_left, Function.comp_apply]
      exact forall₂_congr fun extraction hextraction => extractionJson_eq_iff
        fun entry hentry => (hfilled extraction hextraction entry hentry).2
    simp only [beq_iff_eq, hsame]
    exact ⟨fun honeLined => ⟨htext, hne, hnamed, hfilled, honeLined⟩, fun hs => hs.oneLined⟩
  · refine iff_of_false not_false fun hs => h (hcomplete.mpr ?_)
    exact ⟨hs.text, hs.extractions, hs.named, hs.filled⟩

variable (num collate) in
/-- **When a suggestion of the API matches the draft it was added as**, and is shown as applied. -/
theorem applied_suggestion_iff (s : LangExtractFeedbackSuggestion) :
    (doesDraftLangExtractExampleMatchSuggestion collate num
        (buildDraftLangExtractExampleFromSuggestion s.received) s.received = true ↔
      Recognised collate s.received) ∧
    ∀ key : String, key ∈ getAppliedLangExtractSuggestionKeys collate num
        [buildDraftLangExtractExampleFromSuggestion s.received] [(key, s.received)] ↔
      Recognised collate s.received := by
  refine ⟨matches_iff num collate s.received, fun key => ?_⟩
  unfold getAppliedLangExtractSuggestionKeys
  rw [List.mem_map, ← matches_iff num collate s.received]
  constructor
  · rintro ⟨suggestion, hsuggestion, -⟩
    obtain ⟨hmem, hmatches⟩ := List.mem_filter.mp hsuggestion
    obtain rfl := List.mem_singleton.mp hmem
    rwa [List.any_cons, List.any_nil, Bool.or_false] at hmatches
  · intro hmatches
    refine ⟨(key, s.received), List.mem_filter.mpr ⟨List.mem_singleton_self _, ?_⟩, rfl⟩
    rwa [List.any_cons, List.any_nil, Bool.or_false]

end Texts

/-! ### An item of two lines -/

/-- A summary with a list, of which an item has two lines. -/
def aliasesSummary : ExtractionValidationSummary :=
  { invoiceSummary with
    extractedFields :=
      [{ fieldName := "aliases", label := "Aliases", dataType := .list, sourceText := "ACME"
         charStart := some 0, charEnd := some 4
         normalizedValue := .list [.str "Acme\nInc"] }] }

/-- The edit of the list. -/
def aliasesEdit : ReviewEdit := { invoiceEdit with fieldName := "aliases" }

/-- A version with the list. -/
def aliasesVersion : TemplateVersion :=
  { langextractVersion with
    definition :=
      { langextractVersion.definition with
        extractedFields := [{ name := "aliases", label := "Aliases", type := .list }] } }

/-- The reviewed invoice. -/
def reviewedAliases : Database :=
  { reviewedInvoice with
    extractionResults := Table.empty.insert { jobId := 1, resultJson := aliasesSummary }
    reviewEdits := Table.empty.insert aliasesEdit }

/-- The rows of the queries. -/
def aliasesRows : List FeedbackRow := reviewedAliases.feedbackResults 1 aliasesVersion

def aliasesEdits : List (ℕ × ReviewEdit) :=
  reviewedAliases.feedbackEdits aliasesVersion (aliasesRows.map (·.resultId))

/-- What the list becomes. -/
def aliasesExtraction : LangExtractFeedbackSuggestionExtraction where
  extractionClass := "aliases"
  extractionText := "ACME"
  attributes := [("value", .list [.str "Acme\nInc"])]

theorem aliases_candidate {row : FeedbackRow} (h : row.result.resultJson = aliasesSummary) :
    (row.candidate invoiceEnvironment 1 aliasesVersion "ACME owes 12.00 now"
      (1, aliasesEdit)).toOption.map (·.extractions) = some [aliasesExtraction] := by
  have hfields : contextFields aliasesSummary = aliasesSummary.extractedFields :=
    List.mergeSort_singleton _
  unfold FeedbackRow.candidate
  rw [h]
  unfold buildCandidateSuggestion
  rw [hfields]
  rfl

theorem aliases_text : invoiceEnvironment.readDocumentText 1
    { originalFilename := "a.txt", storedPath := "a.txt" } = some "ACME owes 12.00 now" := by
  decide +kernel

/-- The suggestion is one the API really returns, for an edit of a field with aliases. -/
theorem aliases_returned :
    ∃ s ∈ (listLangextractFeedbackSuggestions invoiceEnvironment reviewedAliases 1 aliasesVersion
      aliasesRows aliasesEdits).suggestions, s.extractions = [aliasesExtraction] := by
  obtain ⟨row, hrows, hsummary, htext, hedits⟩ : ∃ row, aliasesRows = [row] ∧
      row.result.resultJson = aliasesSummary ∧
      invoiceEnvironment.readDocumentText row.documentId row.document =
        some "ACME owes 12.00 now" ∧ row.edits aliasesEdits = [(1, aliasesEdit)] :=
    ⟨_, rfl, rfl, aliases_text, rfl⟩
  have hextractions := aliases_candidate hsummary
  cases hcandidate : row.candidate invoiceEnvironment 1 aliasesVersion "ACME owes 12.00 now"
      (1, aliasesEdit) with
  | error reason =>
    rw [hcandidate] at hextractions
    cases hextractions
  | ok candidate =>
    rw [hcandidate] at hextractions
    refine ⟨candidate, ?_, Option.some.inj hextractions⟩
    -- The only edit makes the only candidate, so it is the only suggestion, and none is dismissed.
    have hcandidates : rowCandidates invoiceEnvironment 1 aliasesVersion aliasesEdits row =
        [⟨row, aliasesEdit, candidate⟩] := by
      unfold rowCandidates
      rw [htext, hedits, Option.getD_some, if_neg (by decide), List.filterMap_cons_some,
        List.filterMap_nil]
      rw [hcandidate]
      rfl
    have hgrouped : (feedbackTally invoiceEnvironment 1 aliasesVersion aliasesRows
        aliasesEdits).grouped = [candidate] := by
      rw [grouped_feedbackTally, hrows, List.flatMap_singleton, hcandidates]
      rfl
    have hdismissed : reviewedAliases.getDismissedSuggestionKeys aliasesVersion.tenantId 1
        [candidate.key] = [] := rfl
    unfold listLangextractFeedbackSuggestions
    dsimp only
    rw [hgrouped, List.map_singleton, hdismissed, hrows]
    simp [aliasesVersion, langextractVersion, usesLangextractProvider]

/-- **A suggestion of the API that does not match the draft it was added as.** -/
theorem several_lines_do_not_match :
    ¬ ∀ (ν : Type) (num : JsNumbers ν) (collate : String → String → Bool)
        (env : FeedbackEnvironment) (db : Database) (versionId : ℕ) (version : TemplateVersion)
        (rows : List FeedbackRow) (edits : List (ℕ × ReviewEdit)),
      rows.Perm (db.feedbackResults versionId version) →
      edits.Perm (db.feedbackEdits version (rows.map (·.resultId))) →
      ∀ s ∈ (listLangextractFeedbackSuggestions env db versionId version rows edits).suggestions,
        doesDraftLangExtractExampleMatchSuggestion collate num
          (buildDraftLangExtractExampleFromSuggestion s.received) s.received = true := by
  intro hclaim
  obtain ⟨s, hs, hextractions⟩ := aliases_returned
  have hmatches := hclaim (Fin 10) oneDigit (fun _ _ => true) invoiceEnvironment reviewedAliases 1
    aliasesVersion aliasesRows aliasesEdits (.refl _) (.refl _) s hs
  have hrecognised := (matches_iff oneDigit (fun _ _ => true) s.received).mp hmatches
  have hmem : LangExtractExampleExtraction.mk "aliases" "ACME"
      (ofEntries [("value", .list [.str "Acme\nInc"])]) ∈ s.received.extractions := by
    unfold LangExtractFeedbackSuggestion.received
    rw [hextractions]
    exact List.mem_singleton.mpr rfl
  -- If it matched, every item of the list would be one line, and one of them is two.
  have honeLined := hrecognised.oneLined _ hmem ("value", .list [.str "Acme\nInc"]) (by
    unfold survivingAttributes sortedObject
    have hobject : ofEntries [("value", PyVal.list [.str "Acme\nInc"])] =
        [("value", .list [.str "Acme\nInc"])] := rfl
    rw [hobject, List.map_singleton, List.mergeSort_singleton]
    exact List.mem_singleton.mpr rfl)
  exact honeLined "Acme\nInc" (List.mem_singleton.mpr rfl) (by decide)

end ExtractFlow
