import Mathlib.Data.List.Dedup
import Mathlib.Data.List.Sort
import ExtractFlow.NormalText
import ExtractFlow.Parser

/-!
# The text of a PDF

`parse_pdf_with_docling` (`worker/app/services/parser.py`): Docling yields the items of a
document with the page each stands on.  The items of a page become one block of the text,
behind a line `[Page n]`; without any, the whole text stands behind `[Page 1]`.  A pass
whose text is too short is repeated with character recognition, if that is enabled.

What counts as short is decided on the text with its page lines.

## Main definitions

* `DoclingDocument`, `pdfPages`, `pdfText` — what a pass yields, and its text.
* `parsePdfWithDocling` — the two passes.
* `ownLetters`, `markerLetters` — what the document and the parser contribute.

## Main results

* `ocr_decision` — which pass is returned.
-/

namespace ExtractFlow

/-! ### Pages -/

/-- An item of a Docling document: its text, if any, and the page of each place it comes
from. -/
structure DoclingItem where
  text : Option String
  prov : List (Option ℤ)

/-- What a conversion yields: items with the pages they stand on, and the text of the whole. -/
structure DoclingDocument where
  items : List DoclingItem
  exportToText : String

/-- The text of an item. -/
def itemText (item : DoclingItem) : List Char := normalizeText (item.text.getD "").toList

/-- The page of the first place an item comes from. -/
def itemPage (item : DoclingItem) : Option ℤ := item.prov.head?.join

/-- The items that have a text and a page. -/
def pageEntries (items : List DoclingItem) : List (ℤ × List Char) :=
  items.filterMap fun item =>
    if (itemText item).isEmpty then none else (itemPage item).map fun page => (page, itemText item)

/-- `sorted(page_lines)`. -/
def pageNumbers (entries : List (ℤ × List Char)) : List ℤ :=
  (entries.map Prod.fst).dedup.insertionSort (· ≤ ·)

/-- `page_lines[page]`. -/
def pageLines (entries : List (ℤ × List Char)) (page : ℤ) : List (List Char) :=
  (entries.filter fun entry => entry.1 = page).map Prod.snd

/-- `_collect_docling_page_chunks`: the pages and their texts. -/
def collectDoclingPageChunks (items : List DoclingItem) : List (ℤ × List Char) :=
  (pageNumbers (pageEntries items)).filterMap fun page =>
    let text := normalizeText (['\n'].intercalate (pageLines (pageEntries items) page))
    if text.isEmpty then none else some (page, text)

/-- The pages of a pass: without items, the whole text as the first page. -/
def pdfPages (doc : DoclingDocument) : List (ℤ × List Char) :=
  if (collectDoclingPageChunks doc.items).isEmpty then
    let fallback := normalizeText doc.exportToText.toList
    if fallback.isEmpty then [] else [(1, fallback)]
  else collectDoclingPageChunks doc.items

/-- The line in front of a page. -/
def pageMarker (page : ℤ) : List Char :=
  ['[', 'P', 'a', 'g', 'e', ' '] ++ (toString page).toList ++ [']']

/-- A page as it stands in the text. -/
def pageChunk (chunk : ℤ × List Char) : List Char := pageMarker chunk.1 ++ '\n' :: chunk.2

/-- `_parse_pdf_with_docling_mode`: the pages behind their lines, with an empty line between each
two. -/
def pdfText (doc : DoclingDocument) : List Char :=
  stripChars (['\n', '\n'].intercalate ((pdfPages doc).map pageChunk))

section Pages

/-- The text of an item is normal. -/
theorem normal_of_mem_pageEntries {items : List DoclingItem} {entry : ℤ × List Char}
    (h : entry ∈ pageEntries items) : Normal entry.2 ∧ entry.2 ≠ [] := by
  obtain ⟨item, -, hitem⟩ := List.mem_filterMap.mp h
  split at hitem
  · cases hitem
  next hne =>
    obtain ⟨page, -, rfl⟩ := Option.map_eq_some_iff.mp hitem
    exact ⟨normal_normalizeText _, by simpa [List.isEmpty_iff] using hne⟩

theorem mem_pageLines {entries : List (ℤ × List Char)} {page : ℤ} {text : List Char} :
    text ∈ pageLines entries page ↔ (page, text) ∈ entries := by
  unfold pageLines
  simp

theorem mem_pageNumbers {entries : List (ℤ × List Char)} {page : ℤ} :
    page ∈ pageNumbers entries ↔ ∃ text, (page, text) ∈ entries := by
  unfold pageNumbers
  simp

/-- A page that has a number has lines. -/
theorem pageLines_ne_nil {entries : List (ℤ × List Char)} {page : ℤ}
    (h : page ∈ pageNumbers entries) : pageLines entries page ≠ [] := by
  obtain ⟨text, htext⟩ := mem_pageNumbers.mp h
  exact List.ne_nil_of_mem (mem_pageLines.mpr htext)

/-- **The text of a page** is that of its items, joined: normalising it again takes nothing
away. -/
theorem collectDoclingPageChunks_eq (items : List DoclingItem) :
    collectDoclingPageChunks items = (pageNumbers (pageEntries items)).map fun page =>
      (page, ['\n'].intercalate (pageLines (pageEntries items) page)) := by
  unfold collectDoclingPageChunks
  rw [← List.filterMap_eq_map]
  refine List.filterMap_congr fun page hpage => ?_
  have hnormal : ∀ text ∈ pageLines (pageEntries items) page, Normal text ∧ text ≠ [] :=
    fun text ht => normal_of_mem_pageEntries (mem_pageLines.mp ht)
  have hne : ['\n'].intercalate (pageLines (pageEntries items) page) ≠ [] := by
    cases hlines : pageLines (pageEntries items) page with
    | nil => exact absurd hlines (pageLines_ne_nil hpage)
    | cons text texts =>
      rw [hlines] at hnormal
      cases text with
      | nil => exact absurd rfl (hnormal [] (List.mem_cons_self ..)).2
      | cons c cs => simp
  dsimp only
  rw [normalizeText_of_normal (normal_intercalate hnormal), if_neg (by simpa using hne)]
  rfl

end Pages

/-! ### The two passes -/

/-- The characters of a text that are no white space; `"".join(text.split())` has these. -/
def letters (text : List Char) : ℕ := text.countP fun c => !isPySpace c

/-- `has_meaningful_text`. -/
def hasMeaningfulText (text : List Char) (threshold : ℕ := 24) : Bool :=
  decide (threshold ≤ letters text)

/-- The error of a document without usable text. -/
def noUsableText : PyErr :=
  .runtimeError "Docling PDF parsing produced no usable text, including OCR retry."

/-- `parse_pdf_with_docling`; `convert` is a pass of Docling, with character recognition or
without. -/
def parsePdfWithDocling (convert : Bool → Except PyErr DoclingDocument) (ocrRetry : Bool) :
    Except PyErr (List Char) := do
  let plain ← convert false
  if hasMeaningfulText (pdfText plain) then return pdfText plain
  if ocrRetry then
    let ocr ← convert true
    if hasMeaningfulText (pdfText ocr) then return pdfText ocr
  throw noUsableText

/-! ### What is counted -/

/-- The letters of the document’s own text, without those of the lines that the parser adds. -/
def ownLetters (doc : DoclingDocument) : ℕ :=
  ((pdfPages doc).map fun chunk => letters chunk.2).sum

/-- The letters of the page lines the parser adds, which are counted as if they were
the document’s. -/
def markerLetters (doc : DoclingDocument) : ℕ :=
  ((pdfPages doc).map fun chunk => letters (pageMarker chunk.1)).sum

section Letters

theorem letters_append (a b : List Char) : letters (a ++ b) = letters a + letters b :=
  List.countP_append

theorem letters_of_spaces {cs : List Char} (h : ∀ c ∈ cs, isPySpace c = true) :
    letters cs = 0 := by
  refine List.countP_eq_zero.mpr fun c hc => ?_
  rw [h c hc]
  decide

/-- Stripping takes no letter away. -/
theorem letters_stripChars (cs : List Char) : letters (stripChars cs) = letters cs := by
  obtain ⟨pre, post, hsplit, hpre, hpost⟩ := Trim.trim_split isPySpace cs
  have hsum : letters cs = letters pre + letters (stripChars cs) + letters post := by
    rw [← letters_append, ← letters_append]
    exact congrArg letters hsplit
  rw [hsum, letters_of_spaces hpre, letters_of_spaces hpost]
  omega

/-- The letters of joined texts are theirs. -/
theorem letters_intercalate {sep : List Char} (hsep : letters sep = 0) :
    ∀ texts : List (List Char), letters (sep.intercalate texts) = (texts.map letters).sum := by
  intro texts
  induction texts with
  | nil => rfl
  | cons text rest ih =>
    cases rest with
    | nil => simp [List.intercalate]
    | cons next rest =>
      have hjoin : sep.intercalate (text :: next :: rest) =
          text ++ (sep ++ sep.intercalate (next :: rest)) := by
        simp [List.intercalate, List.intersperse]
      rw [hjoin, letters_append, letters_append, hsep, ih, Nat.zero_add]
      rfl

/-- **The letters of the text** are the document's own and those of the page lines. -/
theorem letters_pdfText (doc : DoclingDocument) :
    letters (pdfText doc) = ownLetters doc + markerLetters doc := by
  have hchunk : ∀ chunk : ℤ × List Char, letters (pageChunk chunk) =
      letters chunk.2 + letters (pageMarker chunk.1) := by
    intro chunk
    have hnewline : letters ('\n' :: chunk.2) = letters chunk.2 :=
      List.countP_cons_of_neg (by decide)
    rw [pageChunk, letters_append, hnewline, Nat.add_comm]
  unfold pdfText ownLetters markerLetters
  rw [letters_stripChars, letters_intercalate (by decide), List.map_map, ← List.sum_map_add]
  exact congrArg List.sum (List.map_congr_left fun chunk _ => hchunk chunk)

/-- A text with a letter in it counts. -/
theorem letters_pos {cs : List Char} {c : Char} (hc : c ∈ cs) (hletter : isPySpace c = false) :
    1 ≤ letters cs := by
  refine List.countP_pos_iff.mpr ⟨c, hc, ?_⟩
  rw [hletter]
  rfl

/-- The text of an integer has a letter. -/
theorem letters_toString (page : ℤ) : 1 ≤ letters (toString page).toList := by
  have hnat : ∀ n : ℕ, 1 ≤ letters (toString n).toList := by
    intro n
    have hdigits : (toString n).toList = Nat.toDigits 10 n := Nat.toList_repr
    rw [hdigits]
    cases hcs : Nat.toDigits 10 n with
    | nil => exact absurd hcs Nat.toDigits_ne_nil
    | cons c cs =>
      have hmem : c ∈ Nat.toDigits 10 n := hcs ▸ List.mem_cons_self
      have hdigit : c.isDigit = true := Nat.isDigit_of_mem_toDigits (by decide) (by decide) hmem
      exact letters_pos List.mem_cons_self (isPySpace_of_isDigit hdigit)
  cases page with
  | ofNat n => exact hnat n
  | negSucc n =>
    have hminus : '-' ∈ (toString (Int.negSucc n)).toList := by
      show '-' ∈ ("-" ++ Nat.repr (Nat.succ n)).toList
      rw [String.toList_append]
      exact List.mem_append_left _ (by decide)
    exact letters_pos hminus (by decide)

/-- A page line has seven letters at least. -/
theorem letters_pageMarker (page : ℤ) : 7 ≤ letters (pageMarker page) := by
  have hname : letters ['[', 'P', 'a', 'g', 'e', ' '] = 5 := by decide
  have hclose : letters [']'] = 1 := by decide
  have hnumber := letters_toString page
  unfold pageMarker
  rw [letters_append, letters_append, hname, hclose]
  omega

end Letters

/-! ### The decision -/

/-- The passes yield the two documents. -/
def passes (plain ocr : DoclingDocument) (doOcr : Bool) : Except PyErr DoclingDocument :=
  .ok (if doOcr then ocr else plain)

/-- The first pass that qualifies, the second if it is enabled. -/
def firstQualified (qualifies : DoclingDocument → Prop) [DecidablePred qualifies]
    (plain ocr : DoclingDocument) (ocrRetry : Bool) : Except PyErr (List Char) :=
  if qualifies plain then .ok (pdfText plain)
  else if ocrRetry = true ∧ qualifies ocr then .ok (pdfText ocr)
  else .error noUsableText

/-- **Which pass is returned**: the first whose text has enough letters, those of the page
lines included, at least seven a page. -/
theorem ocr_decision (plain ocr : DoclingDocument) (ocrRetry : Bool) :
    parsePdfWithDocling (passes plain ocr) ocrRetry =
        firstQualified (fun doc => 24 ≤ ownLetters doc + markerLetters doc) plain ocr ocrRetry ∧
      ∀ doc, 7 * (pdfPages doc).length ≤ markerLetters doc := by
  constructor
  · have hmeaningful : ∀ doc, hasMeaningfulText (pdfText doc) =
        decide (24 ≤ ownLetters doc + markerLetters doc) := by
      intro doc
      rw [hasMeaningfulText, letters_pdfText]
    unfold parsePdfWithDocling firstQualified passes
    refine (Failing.bind_of_ok rfl).trans ?_
    simp only [Bool.false_eq_true, if_false, hmeaningful, decide_eq_true_eq]
    -- The first pass is kept if it has enough letters, and the second is asked for otherwise.
    by_cases hplain : 24 ≤ ownLetters plain + markerLetters plain
    · rw [if_pos hplain, if_pos hplain]
      rfl
    · rw [if_neg hplain, if_neg hplain]
      cases ocrRetry with
      | false => rfl
      | true =>
        refine (Failing.bind_of_ok rfl).trans ?_
        simp only [if_true, true_and]
        by_cases hocr : 24 ≤ ownLetters ocr + markerLetters ocr
        · rw [if_pos hocr, if_pos hocr]
          rfl
        · rw [if_neg hocr, if_neg hocr]
          rfl
  · intro doc
    unfold markerLetters
    generalize pdfPages doc = chunks
    -- By induction on the pages: every marker has seven letters at least.
    induction chunks with
    | nil => exact Nat.le_refl 0
    | cons chunk chunks ih =>
      have hseven := letters_pageMarker chunk.1
      simp only [List.length_cons, List.map_cons, List.sum_cons]
      omega

/-- A table of totals on one page. -/
def totalsTable : DoclingDocument where
  items := [⟨some "Docling totals table", [some 1]⟩]
  exportToText := ""

/-- **Eighteen letters are enough** on one page: its line has the other seven. -/
theorem markers_count :
    ownLetters totalsTable = 18 ∧
      parsePdfWithDocling (passes totalsTable totalsTable) true =
        .ok "[Page 1]\nDocling totals table".toList ∧
      parsePdfWithDocling (passes totalsTable totalsTable) true ≠
        firstQualified (fun doc => 24 ≤ ownLetters doc) totalsTable totalsTable true := by
  refine ⟨by decide, by decide, ?_⟩
  decide

end ExtractFlow
