import Mathlib.Data.List.TakeWhile
import ExtractFlow.Lib.Utf16
import ExtractFlow.TemplateContract

/-!
# Parsed text and cited evidence

A LangExtract field cites the parsed text by two offsets.  The worker writes the
text to a file, the API reads it back and serves it, and the review panel of the
frontend cuts it at the offsets to highlight the evidence.

The worker counts code points; the panel counts UTF-16 code units.  And a file
read in text mode has its line ends normalised.

## Main definitions

* `citation` — the citing part of `build_langextract_result`.
* `readManagedDocumentText`, `getDocumentParsedText` — what the API serves.
* `panelSegments` — the segments of `ParsedTextPanel`.
* `ShowsEvidence` — the panel highlights the cited text, in the whole text.

## Main results

* `evidence_shown_iff` — every citation of a text is shown right if and only if the
  text is of the basic plane, without carriage returns, and not blank.
-/

namespace ExtractFlow

open Utf16

/-! ### The worker -/

/-- What a field cites: a piece of the parsed text, and the offsets of the piece in code points. -/
structure Citation where
  sourceText : String := ""
  charStart : Option ℤ := none
  charEnd : Option ℤ := none

/-- `text[start:end]` with offsets that are not negative. -/
def pySlice (text : String) (start stop : ℤ) : String :=
  String.ofList (slice text.toList start.toNat stop.toNat)

/-- The citation of `build_langextract_result`: only an extraction with an interval in the text has
one, and the others cite nothing. -/
def citation (text : String) (start stop : Option ℤ) : Citation :=
  match start, stop with
  | some start, some stop =>
      if 0 ≤ start ∧ start ≤ stop then
        { sourceText := pySlice text start stop, charStart := start, charEnd := stop }
      else {}
  | _, _ => {}

/-- The text `parse_and_persist_document_text` writes, as the file holds it. -/
def persistDocumentText (text : String) : String := text

/-! ### The API -/

/-- Line ends, as reading a file in text mode normalises them. -/
def universalNewlines : List Char → List Char
  | '\r' :: '\n' :: cs => '\n' :: universalNewlines cs
  | '\r' :: cs => '\n' :: universalNewlines cs
  | c :: cs => c :: universalNewlines cs
  | [] => []

/-- `read_managed_document_text` of a file, if it is there: its text, unless blank. -/
def readManagedDocumentText (file : Option String) : Option String :=
  file.bind fun text =>
    let content := String.ofList (universalNewlines text.toList)
    if pyStrip content = "" then none else some content

/-- `get_document_parsed_text`: the parsed text, if one was stored and can be read, and otherwise
the upload, when it is text. -/
def getDocumentParsedText (parsedText upload : Option String) : Option String :=
  (readManagedDocumentText parsedText).orElse fun _ => readManagedDocumentText upload

/-! ### The panel -/

/-- A JavaScript string: its code units. -/
abbrev JsString := List ℕ

/-- A string as the frontend has it after parsing the JSON. -/
def toJs (s : String) : JsString := encode s.toList

/-- A segment of the panel, as it is shown: its text, and whether it is highlighted. -/
structure TextSegment where
  text : JsString
  highlighted : Bool
  deriving DecidableEq, Repr

/-- The `segments` of `ParsedTextPanel`: what is before the evidence, the evidence, and what is
behind it; the whole text where the offsets do not fit it. -/
def panelSegments (text : JsString) (start stop : Option ℤ) : List TextSegment :=
  match start, stop with
  | some start, some stop =>
      if text = [] ∨ start < 0 ∨ stop ≤ start ∨ (text.length : ℤ) < stop then [⟨text, false⟩]
      else
        [⟨text.take start.toNat, false⟩, ⟨slice text start.toNat stop.toNat, true⟩,
          ⟨text.drop stop.toNat, false⟩].filter fun segment => 0 < segment.text.length
  | _, _ => [⟨text, false⟩]

/-- The panel's segments for a citation of `text`, whose upload is `upload` when it
is a text itself. -/
def shownSegments (text : String) (upload : Option String) (cited : Citation) :
    List TextSegment :=
  let served := getDocumentParsedText (some (persistDocumentText text)) upload
  panelSegments ((served.map toJs).getD []) cited.charStart cited.charEnd

/-- The panel highlights exactly the cited text, and shows the whole text. -/
def ShowsEvidence (text : String) (upload : Option String) (start stop : ℕ) : Prop :=
  let cited := citation text (some start) (some stop)
  let segments := shownSegments text upload cited
  (segments.filter TextSegment.highlighted).map TextSegment.text = [toJs cited.sourceText] ∧
    (segments.map TextSegment.text).flatten = toJs text

/-- A text that both programs count alike and that survives the file. -/
structure Faithful (text : String) : Prop where
  basic : ∀ c ∈ text.toList, Basic c
  noReturn : '\r' ∉ text.toList
  notBlank : ∃ c ∈ text.toList, isPySpace c = false

/-! ### What is served -/

theorem return_notMem_universalNewlines : ∀ cs : List Char, '\r' ∉ universalNewlines cs := by
  intro cs
  fun_induction universalNewlines cs with
  | case1 cs ih => simpa using ih
  | case2 cs _ ih => simpa using ih
  | case3 c cs _ hc ih =>
    have hne : '\r' ≠ c := fun h => hc h.symm
    simp [hne, ih]
  | case4 => simp

/-- A text without carriage returns is read back as it is. -/
theorem universalNewlines_of_notMem : ∀ {cs : List Char}, '\r' ∉ cs → universalNewlines cs = cs := by
  intro cs
  fun_induction universalNewlines cs with
  | case1 cs ih => intro h; simp at h
  | case2 cs _ ih => intro h; simp at h
  | case3 c cs _ _ ih =>
    intro h
    rw [ih fun hmem => h (List.mem_cons_of_mem c hmem)]
  | case4 => intro _; rfl

/-- `strip` leaves nothing of a blank text, and of no other. -/
theorem pyStrip_eq_empty_iff {s : String} :
    pyStrip s = "" ↔ ∀ c ∈ s.toList, isPySpace c = true := by
  have hnil : pyStrip s = "" ↔ stripChars s.toList = [] := by
    rw [pyStrip, ← String.toList_inj, String.toList_ofList]
    rfl
  rw [hnil, stripChars, List.reverse_eq_nil_iff, List.dropWhile_eq_nil_iff]
  simp only [List.mem_reverse]
  constructor
  · intro h
    -- what is left begins with no space, so nothing is left
    have hdrop : s.toList.dropWhile isPySpace = [] := by
      cases hrest : s.toList.dropWhile isPySpace with
      | nil => rfl
      | cons c cs =>
        have hhead := List.head_dropWhile_not isPySpace (hrest ▸ List.cons_ne_nil c cs)
        have hc := h c (hrest ▸ List.mem_cons_self ..)
        simp only [hrest, List.head_cons] at hhead
        rw [hc] at hhead
        cases hhead
    exact List.dropWhile_eq_nil_iff.mp hdrop
  · intro h c hc
    exact h c (List.dropWhile_subset _ hc)

/-- What a file yields has no carriage return and is not blank. -/
theorem readManagedDocumentText_spec {file : Option String} {content : String}
    (h : readManagedDocumentText file = some content) :
    '\r' ∉ content.toList ∧ ∃ c ∈ content.toList, isPySpace c = false := by
  obtain ⟨text, -, h⟩ := Option.bind_eq_some_iff.mp h
  dsimp only at h
  split at h
  · cases h
  · next hstrip =>
    obtain rfl := Option.some.inj h
    rw [String.toList_ofList]
    refine ⟨return_notMem_universalNewlines _, ?_⟩
    rw [pyStrip_eq_empty_iff] at hstrip
    simpa using hstrip

/-- A faithful text is served as it is. -/
theorem getDocumentParsedText_of_plain {text : String} (hreturn : '\r' ∉ text.toList)
    (hblank : ∃ c ∈ text.toList, isPySpace c = false) (upload : Option String) :
    getDocumentParsedText (some (persistDocumentText text)) upload = some text := by
  have hread : readManagedDocumentText (some text) = some text := by
    unfold readManagedDocumentText
    rw [Option.bind_some, universalNewlines_of_notMem hreturn, String.ofList_toList]
    refine if_neg ?_
    intro hstrip
    obtain ⟨c, hc, hspace⟩ := hblank
    rw [pyStrip_eq_empty_iff.mp hstrip c hc] at hspace
    cases hspace
  unfold getDocumentParsedText persistDocumentText
  rw [hread]
  rfl

/-- What is served has no carriage return and is not blank. -/
theorem getDocumentParsedText_spec {parsedText upload : Option String} {served : String}
    (h : getDocumentParsedText parsedText upload = some served) :
    '\r' ∉ served.toList ∧ ∃ c ∈ served.toList, isPySpace c = false := by
  unfold getDocumentParsedText at h
  cases hparsed : readManagedDocumentText parsedText with
  | some content =>
    rw [hparsed] at h
    obtain rfl := Option.some.inj h
    exact readManagedDocumentText_spec hparsed
  | none =>
    rw [hparsed] at h
    exact readManagedDocumentText_spec h

/-! ### What the panel shows -/

/-- The segments make up the text they are cut from. -/
theorem flatten_panelSegments (text : JsString) (start stop : Option ℤ) :
    ((panelSegments text start stop).map TextSegment.text).flatten = text := by
  have hempty : ∀ segments : List TextSegment,
      ((segments.filter fun segment => 0 < segment.text.length).map TextSegment.text).flatten =
        (segments.map TextSegment.text).flatten := by
    intro segments
    induction segments with
    | nil => rfl
    | cons segment segments ih =>
      obtain ⟨text, highlighted⟩ := segment
      cases text <;> simp [ih]
  unfold panelSegments
  split
  · next start stop =>
    split
    · simp
    · next hrange =>
      rw [hempty]
      have hle : start.toNat ≤ stop.toNat := by omega
      simpa [List.append_assoc] using slice_parts text hle
  · simp

/-- The highlighted segments of a range inside the text are its slice. -/
theorem highlighted_panelSegments {text : JsString} {start stop : ℕ} (hlt : start < stop)
    (hle : stop ≤ text.length) :
    ((panelSegments text (some start) (some stop)).filter TextSegment.highlighted).map
      TextSegment.text = [slice text start stop] := by
  have hne : text ≠ [] := by
    rintro rfl
    simp at hle
    omega
  have hpos : 0 < (slice text start stop).length := by
    unfold slice
    rw [List.length_drop, List.length_take]
    omega
  have hrange : ¬ (text = [] ∨ (start : ℤ) < 0 ∨ (stop : ℤ) ≤ start ∨
      (text.length : ℤ) < stop) := by
    rintro (h | h | h | h)
    · exact hne h
    all_goals omega
  unfold panelSegments
  simp only [if_neg hrange, Int.toNat_natCast, List.filter_filter]
  simp only [List.filter_cons, List.filter_nil, Bool.false_and, Bool.true_and,
    Bool.false_eq_true, if_false, decide_eq_true_eq, if_pos hpos, List.map_cons, List.map_nil]

/-- A highlighted segment is no longer than its range. -/
theorem length_of_highlighted {text : JsString} {start stop : ℕ} {segment : TextSegment}
    (h : segment ∈ (panelSegments text (some start) (some stop)).filter TextSegment.highlighted) :
    segment.text.length ≤ stop - start := by
  obtain ⟨hmem, hhigh⟩ := List.mem_filter.mp h
  unfold panelSegments at hmem
  dsimp only at hmem
  split at hmem
  · obtain rfl := List.mem_singleton.mp hmem
    cases hhigh
  · have hmem := (List.mem_filter.mp hmem).1
    simp only [List.mem_cons, List.not_mem_nil, or_false] at hmem
    rcases hmem with rfl | rfl | rfl
    · cases hhigh
    · simpa using length_slice_le text start stop
    · cases hhigh

/-! ### The evidence -/

theorem citation_of_lt (text : String) {start stop : ℕ} (h : start < stop) :
    citation text (some start) (some stop) =
      { sourceText := pySlice text start stop, charStart := some start, charEnd := some stop } := by
  have : (0 : ℤ) ≤ start ∧ (start : ℤ) ≤ stop := by omega
  exact if_pos this

/-- A citation with no pair before its end is shown right, when the text survives
the file. -/
theorem showsEvidence_of_basic {text : String} (hreturn : '\r' ∉ text.toList)
    (hblank : ∃ c ∈ text.toList, isPySpace c = false) (upload : Option String) {start stop : ℕ}
    (hlt : start < stop) (hle : stop ≤ text.toList.length)
    (hbasic : ∀ c ∈ text.toList.take stop, Basic c) : ShowsEvidence text upload start stop := by
  have hlen : stop ≤ (toJs text).length := Nat.le_trans hle (length_le_encode _)
  unfold ShowsEvidence shownSegments
  rw [citation_of_lt text hlt, getDocumentParsedText_of_plain hreturn hblank]
  refine ⟨?_, flatten_panelSegments ..⟩
  refine (highlighted_panelSegments hlt hlen).trans ?_
  unfold toJs pySlice
  rw [slice_encode hle hbasic, String.toList_ofList, Int.toNat_natCast, Int.toNat_natCast]

/-- A text one of whose citations is shown in the whole text survives the file. -/
theorem served_of_showsEvidence {text : String} {upload : Option String} {start stop : ℕ}
    (hne : text ≠ "") (h : ShowsEvidence text upload start stop) :
    '\r' ∉ text.toList ∧ ∃ c ∈ text.toList, isPySpace c = false := by
  have hwhole := h.2
  unfold shownSegments at hwhole
  rw [flatten_panelSegments] at hwhole
  cases hserved : getDocumentParsedText (some (persistDocumentText text)) upload with
  | none =>
    rw [hserved] at hwhole
    have hnil : text.toList = [] := encode_injective hwhole.symm
    exact absurd (String.toList_inj.mp hnil) hne
  | some served =>
    rw [hserved] at hwhole
    have hsame : served.toList = text.toList := encode_injective hwhole
    obtain rfl := String.toList_inj.mp hsame
    exact getDocumentParsedText_spec hserved

/-- A character that is shown right as a citation of its own is one unit. -/
theorem basic_of_showsEvidence {text : String} {upload : Option String} {i : ℕ}
    (hi : i < text.toList.length) (h : ShowsEvidence text upload i (i + 1)) :
    Basic text.toList[i] := by
  have hshown := h.1
  simp only [citation_of_lt text (Nat.lt_succ_self i), shownSegments] at hshown
  have hcited : toJs (pySlice text i (i + 1 : ℕ)) = unitsOf text.toList[i] := by
    unfold toJs pySlice
    rw [String.toList_ofList, Int.toNat_natCast, Int.toNat_natCast, slice_succ hi]
    exact List.append_nil _
  rw [hcited] at hshown
  have hmem : unitsOf text.toList[i] ∈ [unitsOf text.toList[i]] := List.mem_singleton_self _
  rw [← hshown] at hmem
  obtain ⟨segment, hsegment, htext⟩ := List.mem_map.mp hmem
  -- the cited character would be two units, and the range is one
  by_contra hpair
  have hshort := length_of_highlighted hsegment
  rw [htext, length_unitsOf hpair] at hshort
  omega

/-- **Which texts show their evidence.**  Every citation of a text is highlighted
exactly, in the whole text, if and only if the text is empty or faithful; and in a
text that survives the file a citation is, as soon as there is no surrogate pair
before its end. -/
theorem evidence_shown_iff (text : String) (upload : Option String) :
    ((∀ start stop, start < stop → stop ≤ text.toList.length →
        ShowsEvidence text upload start stop) ↔ text = "" ∨ Faithful text) ∧
      ∀ start stop, start < stop → stop ≤ text.toList.length → '\r' ∉ text.toList →
        (∃ c ∈ text.toList, isPySpace c = false) →
        (∀ c ∈ text.toList.take stop, Basic c) → ShowsEvidence text upload start stop := by
  refine ⟨⟨?_, ?_⟩, ?_⟩
  · intro h
    by_cases hne : text = ""
    · exact Or.inl hne
    · have hlen : 0 < text.toList.length := by
        refine List.length_pos_iff.mpr ?_
        exact fun hnil => hne (String.toList_inj.mp hnil)
      -- the text must be served as it was, and each letter can be cited by itself
      obtain ⟨hreturn, hblank⟩ := served_of_showsEvidence hne (h 0 1 (by omega) hlen)
      refine Or.inr ⟨?_, hreturn, hblank⟩
      intro c hc
      obtain ⟨i, hi, rfl⟩ := List.getElem_of_mem hc
      exact basic_of_showsEvidence hi (h i (i + 1) (by omega) hi)
  · rintro (rfl | hfaithful) start stop hlt hle
    · simp at hle
      omega
    · exact showsEvidence_of_basic hfaithful.noReturn hfaithful.notBlank upload hlt hle
        fun c hc => hfaithful.basic c (List.mem_of_mem_take hc)
  · intro start stop hlt hle hreturn hblank hbasic
    exact showsEvidence_of_basic hreturn hblank upload hlt hle hbasic

/-- **Behind a pair the evidence is off by one**: the panel highlights half of the
first character where the field cites the letter after it. -/
theorem evidence_behind_pair :
    ¬ ∀ (text : String) (upload : Option String) (start stop : ℕ), start < stop →
      stop ≤ text.toList.length → ShowsEvidence text upload start stop := by
  intro h
  let text := String.ofList ['😀', 'a']
  have htext : text.toList = ['😀', 'a'] := String.toList_ofList
  have hshown := (h text none 1 2 (by decide) (by rw [htext]; decide)).1
  have hblank : ∃ c ∈ text.toList, isPySpace c = false := by
    rw [htext]
    exact ⟨'a', List.mem_cons_of_mem _ (List.mem_singleton_self 'a'), by decide⟩
  have hserved : getDocumentParsedText (some (persistDocumentText text)) none = some text :=
    getDocumentParsedText_of_plain (by rw [htext]; decide) hblank none
  simp only [shownSegments, hserved, citation_of_lt text (show 1 < 2 by decide), toJs, pySlice,
    Option.map_some, Option.getD_some, htext, String.toList_ofList] at hshown
  revert hshown
  decide

end ExtractFlow
