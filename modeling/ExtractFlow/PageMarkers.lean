import ExtractFlow.Lib.DecimalDigits
import ExtractFlow.Lib.Scanning
import ExtractFlow.PdfText

/-!
# Page markers

The parser writes the page of a text into the text: a line `[Page n]` stands in front of
every page.  The provider reads it back (`infer_page_reference`,
`worker/app/services/provider.py`): of the matches of `\[Page (?P<page>\d+)\]` up to a
position, the last one names the page.

The text of a document may have such a piece itself.  The page is recovered at every
position of every item just in case all pieces of the items' own texts that look like a
marker name the page they stand on.

## Main definitions

* `pageMarkerMatch`, `inferPageReference` — the pattern, and `infer_page_reference`.
* `textSegments` — the text as its page lines and its items.
* `PagesRecovered` — at every position of an item its page is inferred.
* `MarkersAreOwn` — what looks like a marker in an item names the item's page.

## Main results

* `pdfText_eq_intercalate`, `mem_textSegments` — the text is that of its segments, and the
  items are among them.
* `pages_recovered_iff` — when the pages are recovered.
-/

namespace ExtractFlow

/-! ### Reading a page back -/

/-- The letters in front of the number. -/
def pageOpen : List Char := ['[', 'P', 'a', 'g', 'e', ' ']

/-- `PAGE_MARKER_PATTERN` at the head of a text: the page, and the length of the match. -/
def pageMarkerMatch (digits : DecimalDigits) (cs : List Char) : Option (ℤ × ℕ) :=
  if pageOpen.isPrefixOf cs then
    let number := (cs.drop 6).takeWhile digits.isDecimal
    if number.isEmpty then none
    else if (cs.drop (6 + number.length)).head? = some ']' then
      some (digits.number number, number.length + 7)
    else none
  else none

/-- `infer_page_reference`: the page of the last marker that starts at the position or before it;
the loop over the matches stops behind the position. -/
def inferPageReference (digits : DecimalDigits) (text : List Char) :
    Option ℕ → Option ℤ × String
  | none => (none, "")
  | some start =>
      match ((Scanning.findFrom (pageMarkerMatch digits) 0 0 text).takeWhile
        fun found => decide (found.1 ≤ start)).getLast? with
      | some (_, page) => (some page, s!"Page {page}")
      | none => (none, "")

/-! ### The segments of the text -/

/-- A page: its line, and its items with the page they stand on. -/
def pageSegments (entries : List (ℤ × List Char)) (page : ℤ) : List (Option ℤ × List Char) :=
  (none, pageMarker page) :: (pageLines entries page).map fun text => (some page, text)

/-- The text of a document, in segments: an empty line stands between two pages. -/
def textSegments (items : List DoclingItem) : List (Option ℤ × List Char) :=
  [(none, [])].intercalate
    ((pageNumbers (pageEntries items)).map (pageSegments (pageEntries items)))

/-- **Every item's page is recovered**, at every position of the item in the text. -/
def PagesRecovered (digits : DecimalDigits) (doc : DoclingDocument) : Prop :=
  ∀ before page text after,
    textSegments doc.items = before ++ (some page, text) :: after →
      ∀ p < text.length, (inferPageReference digits (pdfText doc)
        (some (Scanning.start (before.map Prod.snd) + p))).1 = some page

/-- What looks like a marker in an item names the page of the item. -/
def MarkersAreOwn (digits : DecimalDigits) (items : List DoclingItem) : Prop :=
  ∀ entry ∈ pageEntries items,
    ∀ found ∈ Scanning.findFrom (pageMarkerMatch digits) 0 0 entry.2, found.2 = entry.1

instance (digits : DecimalDigits) (items : List DoclingItem) :
    Decidable (MarkersAreOwn digits items) :=
  inferInstanceAs (Decidable (∀ entry ∈ pageEntries items, ∀ found ∈ _, _))

/-! ### The pattern -/

section Pattern

variable {digits : DecimalDigits}

/-- **What the pattern matches**: the opening, at least one decimal digit, and the bracket; the page
is the number in digits. -/
theorem pageMarkerMatch_eq_some_iff {cs : List Char} {page : ℤ} {n : ℕ} :
    pageMarkerMatch digits cs = some (page, n) ↔
      ∃ number rest, cs = pageOpen ++ (number ++ ']' :: rest) ∧ number ≠ [] ∧
        (∀ c ∈ number, digits.isDecimal c = true) ∧ page = digits.number number ∧
        n = number.length + 7 := by
  have hclose : digits.isDecimal ']' = false :=
    digits.isDecimal_eq_false (by decide) (by decide)
  unfold pageMarkerMatch
  constructor
  · intro h
    split at h
    next hopen =>
      obtain ⟨tail, rfl⟩ := List.isPrefixOf_iff_prefix.mp hopen
      have hdrop : (pageOpen ++ tail).drop 6 = tail := rfl
      dsimp only at h
      rw [hdrop] at h
      split at h
      · cases h
      next hne =>
        split at h
        next hhead =>
          rw [← List.drop_drop, hdrop] at hhead
          obtain ⟨rest, hrest⟩ := List.head?_eq_some_iff.mp hhead
          obtain ⟨rfl, rfl⟩ := Prod.mk.inj (Option.some.inj h)
          refine ⟨tail.takeWhile digits.isDecimal, rest, ?_, by simpa using hne,
            fun c hc => List.mem_takeWhile_imp hc, rfl, rfl⟩
          rw [← hrest, List.prefix_iff_eq_append.mp (List.takeWhile_prefix _)]
        next => cases h
    next => cases h
  · rintro ⟨number, rest, rfl, hne, hnumber, rfl, rfl⟩
    have hdrop : (pageOpen ++ (number ++ ']' :: rest)).drop 6 = number ++ ']' :: rest := rfl
    -- the bracket is no digit, so the digits end there
    have htake : (number ++ ']' :: rest).takeWhile digits.isDecimal = number := by
      rw [List.takeWhile_append_of_pos hnumber, List.takeWhile_cons_of_neg (by simp [hclose]),
        List.append_nil]
    rw [if_pos (List.isPrefixOf_iff_prefix.mpr (List.prefix_append _ _))]
    dsimp only
    rw [hdrop, htake, if_neg (by simpa using hne), ← List.drop_drop, hdrop, List.drop_left,
      if_pos List.head?_cons]

/-- A character that is no digit is not in the number of a marker. -/
theorem not_mem_marker {c : Char} {before number : List Char} (hbefore : c ∉ before)
    (hnumber : ∀ d ∈ number, digits.isDecimal d = true) (hc : digits.isDecimal c = false)
    (hclose : c ≠ ']') : c ∉ before ++ (number ++ [']']) := by
  intro hmem
  rcases List.mem_append.mp hmem with hmem | hmem
  · exact hbefore hmem
  · rcases List.mem_append.mp hmem with hmem | hmem
    · rw [hnumber _ hmem] at hc
      cases hc
    · exact hclose (List.mem_singleton.mp hmem)

theorem pageMarkerMatch_nil : pageMarkerMatch digits [] = none := rfl

/-- Behind its first letter a match has no bracket that opens. -/
theorem nonOverlapping_pageMarkerMatch : Scanning.NonOverlapping (pageMarkerMatch digits) := by
  intro cs page n hmatch k hk hkn
  obtain ⟨number, rest, rfl, -, hnumber, rfl, rfl⟩ := pageMarkerMatch_eq_some_iff.mp hmatch
  cases hinside : pageMarkerMatch digits ((pageOpen ++ (number ++ ']' :: rest)).drop k) with
  | none => rfl
  | some found =>
    obtain ⟨other, after, hdrop, -⟩ := pageMarkerMatch_eq_some_iff.mp hinside
    have hopen : (pageOpen ++ (number ++ ']' :: rest))[k]? = some '[' := by
      rw [← List.head?_drop, hdrop]
      rfl
    have hsplit : pageOpen ++ (number ++ ']' :: rest) =
        '[' :: (['P', 'a', 'g', 'e', ' '] ++ (number ++ [']'])) ++ rest := by
      simp [pageOpen]
    obtain ⟨k, rfl⟩ : ∃ j, k = j + 1 := ⟨k - 1, by omega⟩
    rw [hsplit, List.getElem?_append_left (by simp; omega), List.getElem?_cons_succ] at hopen
    exact absurd (List.mem_of_getElem? hopen) (not_mem_marker (by decide) hnumber
      (digits.isDecimal_eq_false (by decide) (by decide)) (by decide))

/-- No match goes over the end of a line. -/
theorem stopsAt_pageMarkerMatch : Scanning.StopsAt (pageMarkerMatch digits) '\n' where
  nil := pageMarkerMatch_nil
  append cs rest := by
    refine Option.ext fun found => ?_
    obtain ⟨page, n⟩ := found
    rw [pageMarkerMatch_eq_some_iff, pageMarkerMatch_eq_some_iff]
    constructor
    · rintro ⟨number, after, hcs, hne, hnumber, hpage, hn⟩
      have hfree : Segments.Free '\n' (pageOpen ++ (number ++ [']'])) :=
        not_mem_marker (by decide) hnumber
          (digits.isDecimal_eq_false (by decide) (by decide)) (by decide)
      have hprefix : pageOpen ++ (number ++ [']']) <+: cs ++ Segments.join '\n' [rest] :=
        ⟨after, by simp [hcs]⟩
      obtain ⟨after', hafter⟩ := (Segments.prefix_append_join hfree).mp hprefix
      exact ⟨number, after', by simp [← hafter], hne, hnumber, hpage, hn⟩
    · rintro ⟨number, after, rfl, hne, hnumber, hpage, hn⟩
      exact ⟨number, after ++ '\n' :: rest, by simp, hne, hnumber, hpage, hn⟩

/-- A page line is a match from its first letter to its last. -/
theorem pageMarkerMatch_pageMarker {page : ℤ} (hpage : 0 ≤ page) :
    pageMarkerMatch digits (pageMarker page) = some (page, (pageMarker page).length) := by
  obtain ⟨n, rfl⟩ := Int.eq_ofNat_of_zero_le hpage
  have htext : (toString (n : ℤ)).toList = Nat.toDigits 10 n := Nat.toList_repr
  refine pageMarkerMatch_eq_some_iff.mpr
    ⟨Nat.toDigits 10 n, [], ?_, Nat.toDigits_ne_nil, ?_, ?_, ?_⟩
  · rw [pageMarker, htext, List.append_assoc]
    rfl
  · exact fun c hc => digits.isDecimal_of_isDigit
      (Nat.isDigit_of_mem_toDigits (by decide) (by decide) hc)
  · rw [digits.number_toDigits]
  · rw [pageMarker, htext]
    simp

end Pattern

/-! ### The segments -/

section SegmentsOfText

/-- The items of a document are segments of its text, and no others have a page. -/
theorem mem_textSegments {items : List DoclingItem} {page : ℤ} {text : List Char} :
    (some page, text) ∈ textSegments items ↔ (page, text) ∈ pageEntries items := by
  have hne : ((some page, text) : Option ℤ × List Char) ≠ (none, []) := by simp
  unfold textSegments
  rw [Scanning.mem_intercalate hne]
  constructor
  · rintro ⟨block, hblock, hmem⟩
    obtain ⟨number, -, rfl⟩ := List.mem_map.mp hblock
    rcases List.mem_cons.mp hmem with heq | hmem
    · cases heq
    · obtain ⟨line, hline, heq⟩ := List.mem_map.mp hmem
      cases heq
      exact mem_pageLines.mp hline
  · intro hentry
    refine ⟨pageSegments (pageEntries items) page,
      List.mem_map_of_mem (mem_pageNumbers.mpr ⟨text, hentry⟩), ?_⟩
    exact List.mem_cons_of_mem _ (List.mem_map_of_mem (mem_pageLines.mpr hentry))

/-- A page line has no white space at its ends. -/
theorem trimmed_pageMarker (page : ℤ) : Trim.Trimmed isPySpace (pageMarker page) := by
  constructor
  · intro c rest h
    obtain ⟨rfl, -⟩ := List.cons.inj h
    decide
  · intro init c h
    unfold pageMarker at h
    obtain ⟨-, hlast⟩ := List.append_inj' h rfl
    obtain ⟨rfl, -⟩ := List.cons.inj hlast
    decide

/-- A page as it stands in the text is its line and its items, joined. -/
theorem pageChunk_eq {entries : List (ℤ × List Char)} {page : ℤ} (h : page ∈ pageNumbers entries) :
    pageChunk (page, ['\n'].intercalate (pageLines entries page)) =
      ['\n'].intercalate ((pageSegments entries page).map Prod.snd) := by
  have hlines : ((pageLines entries page).map fun text => ((some page : Option ℤ), text)).map
      Prod.snd = pageLines entries page := by
    rw [List.map_map]
    exact List.map_id _
  rw [pageSegments, List.map_cons, hlines,
    List.intercalate_cons_of_ne_nil (pageLines_ne_nil h), List.append_assoc]
  rfl

/-- A page as it stands in the text has no white space at its ends. -/
theorem trimmed_pageChunk {items : List DoclingItem} {page : ℤ} :
    ∀ text ∈ (pageSegments (pageEntries items) page).map Prod.snd,
      Trim.Trimmed isPySpace text ∧ text ≠ [] := by
  intro text htext
  rw [pageSegments, List.map_cons, List.map_map] at htext
  rcases List.mem_cons.mp htext with rfl | htext
  · exact ⟨trimmed_pageMarker page, List.cons_ne_nil _ _⟩
  · obtain ⟨line, hline, rfl⟩ := List.mem_map.mp htext
    obtain ⟨hnormal, hne⟩ := normal_of_mem_pageEntries (mem_pageLines.mp hline)
    exact ⟨hnormal.trimmed, hne⟩

/-- **The text is that of its segments**: markers, items and empty lines, joined by line feeds. -/
theorem pdfText_eq_intercalate {doc : DoclingDocument} (h : pageEntries doc.items ≠ []) :
    pdfText doc = Scanning.intercalate '\n' ((textSegments doc.items).map Prod.snd) := by
  have hpages : pdfPages doc = collectDoclingPageChunks doc.items := by
    obtain ⟨entry, rest, hcons⟩ := List.exists_cons_of_ne_nil h
    have hpage : entry.1 ∈ pageNumbers (pageEntries doc.items) :=
      mem_pageNumbers.mpr ⟨entry.2, hcons ▸ List.mem_cons_self ..⟩
    unfold pdfPages
    rw [collectDoclingPageChunks_eq, if_neg]
    rw [List.isEmpty_map, List.isEmpty_iff]
    exact List.ne_nil_of_mem hpage
  have hchunks : (pdfPages doc).map pageChunk = ((pageNumbers (pageEntries doc.items)).map
      fun page => (pageSegments (pageEntries doc.items) page).map Prod.snd).map
        ['\n'].intercalate := by
    rw [hpages, collectDoclingPageChunks_eq, List.map_map, List.map_map]
    exact List.map_congr_left fun page hpage => pageChunk_eq hpage
  -- no page begins or ends with white space, so nothing is trimmed off the whole
  have htrimmed : ∀ chunk ∈ (pdfPages doc).map pageChunk,
      Trim.Trimmed isPySpace chunk ∧ chunk ≠ [] := by
    intro chunk hchunk
    rw [hchunks, List.map_map] at hchunk
    obtain ⟨page, -, rfl⟩ := List.mem_map.mp hchunk
    refine ⟨Trim.trimmed_intercalate ['\n'] trimmed_pageChunk, ?_⟩
    simp [pageSegments, pageMarker]
  calc pdfText doc
      = ['\n', '\n'].intercalate ((pdfPages doc).map pageChunk) :=
        Trim.trim_of_trimmed (Trim.trimmed_intercalate _ htrimmed)
    _ = ['\n'].intercalate ([[]].intercalate ((pageNumbers (pageEntries doc.items)).map
          fun page => (pageSegments (pageEntries doc.items) page).map Prod.snd)) := by
        rw [hchunks]
        refine Scanning.intercalate_blocks '\n' fun block hblock => ?_
        obtain ⟨page, -, rfl⟩ := List.mem_map.mp hblock
        exact List.cons_ne_nil _ _
    _ = ['\n'].intercalate ((textSegments doc.items).map Prod.snd) := by
        rw [textSegments, Scanning.map_intercalate, List.map_map]
        rfl
    _ = Scanning.intercalate '\n' ((textSegments doc.items).map Prod.snd) :=
        (Scanning.intercalate_eq _ _).symm

/-- Where a segment starts, its text stands in the text. -/
theorem segment_prefix_drop {doc : DoclingDocument}
    {before after : List (Option ℤ × List Char)} {page : ℤ} {text : List Char}
    (h : textSegments doc.items = before ++ (some page, text) :: after) :
    text <+: (pdfText doc).drop (Scanning.start (before.map Prod.snd)) := by
  have hmem : (some page, text) ∈ textSegments doc.items := by
    rw [h]
    simp
  rw [pdfText_eq_intercalate (List.ne_nil_of_mem (mem_textSegments.mp hmem)), h, List.map_append,
    List.map_cons]
  exact Scanning.drop_start_intercalate

end SegmentsOfText

/-! ### The pages -/

section Recovery

variable {digits : DecimalDigits} {doc : DoclingDocument}

/-- The page that is inferred is the one of the marker read last. -/
theorem inferPageReference_fst (text : List Char) (start : ℕ) :
    (inferPageReference digits text (some start)).1 =
      Scanning.valueAt (pageMarkerMatch digits) none text start := by
  have hlast : (((Scanning.findFrom (pageMarkerMatch digits) 0 0 text).takeWhile
      fun found => decide (found.1 ≤ 0 + start)).getLast?.map Prod.snd).or none =
      Scanning.valueAt (pageMarkerMatch digits) none text start :=
    Scanning.last_findFrom nonOverlapping_pageMarkerMatch
      fun k hk => absurd hk (Nat.not_lt_zero k)
  rw [Nat.zero_add, Option.or_none] at hlast
  rw [← hlast, inferPageReference]
  cases ((Scanning.findFrom (pageMarkerMatch digits) 0 0 text).takeWhile
    fun found => decide (found.1 ≤ start)).getLast? <;> rfl

/-- What looks like a marker in an item, wherever it begins. -/
theorem MarkersAreOwn.match_eq {items : List DoclingItem} (h : MarkersAreOwn digits items)
    {entry : ℤ × List Char} (hentry : entry ∈ pageEntries items) :
    ∀ k page n, pageMarkerMatch digits (entry.2.drop k) = some (page, n) → page = entry.1 := by
  intro k page n hmatch
  have hfound : (0 + k, page) ∈ Scanning.findFrom (pageMarkerMatch digits) 0 0 entry.2 :=
    Scanning.mem_findFrom_of_match nonOverlapping_pageMarkerMatch pageMarkerMatch_nil
      (fun j hj => absurd hj (Nat.not_lt_zero j)) hmatch
  exact h entry hentry _ hfound

/-- If all markers in the items are their own, every item is read as on its page. -/
theorem tracks_textSegments {items : List DoclingItem} (h : MarkersAreOwn digits items)
    (hpages : ∀ entry ∈ pageEntries items, 0 < entry.1) :
    Scanning.Tracks (pageMarkerMatch digits) none (textSegments items) := by
  refine Scanning.tracks_intercalate (fun block hblock current => ?_) none
  obtain ⟨page, hpage, rfl⟩ := List.mem_map.mp hblock
  obtain ⟨text, hentry⟩ := mem_pageNumbers.mp hpage
  refine ⟨fun a ha => (by cases ha), ?_⟩
  rw [Scanning.valueAfter_of_match nonOverlapping_pageMarkerMatch
    (pageMarkerMatch_pageMarker (le_of_lt (hpages _ hentry))) pageMarkerMatch_nil le_rfl]
  exact Scanning.tracks_of_forall fun line hline => h.match_eq (mem_pageLines.mp hline)

/-- **When the pages are recovered**: just in case everything that looks like a marker in
an item names the page the item stands on. -/
theorem pages_recovered_iff (digits : DecimalDigits) (doc : DoclingDocument)
    (hpages : ∀ entry ∈ pageEntries doc.items, 0 < entry.1) :
    PagesRecovered digits doc ↔ MarkersAreOwn digits doc.items := by
  constructor
  · -- at the position of a marker in an item, that marker is the last
    intro hrecovered entry hentry found hfound
    obtain ⟨k, n, hmatch⟩ := Scanning.match_of_mem_findFrom hfound
    obtain ⟨before, after, hsplit⟩ := List.append_of_mem (mem_textSegments.mpr hentry)
    have hk : k < entry.2.length := by
      by_contra hge
      rw [List.drop_eq_nil_of_le (Nat.le_of_not_lt hge), pageMarkerMatch_nil] at hmatch
      cases hmatch
    have hpage := hrecovered before entry.1 entry.2 after hsplit k hk
    rw [inferPageReference_fst, pdfText_eq_intercalate (List.ne_nil_of_mem hentry), hsplit,
      List.map_append, List.map_cons, Scanning.valueAt_intercalate stopsAt_pageMarkerMatch hk,
      Scanning.valueAt_of_match pageMarkerMatch_nil hmatch] at hpage
    exact Option.some.inj hpage
  · intro hown before page text after hsplit p hp
    have hentry : (page, text) ∈ pageEntries doc.items := by
      refine mem_textSegments.mp ?_
      rw [hsplit]
      simp
    rw [inferPageReference_fst, pdfText_eq_intercalate (List.ne_nil_of_mem hentry)]
    exact (tracks_textSegments hown hpages).valueAt_intercalate stopsAt_pageMarkerMatch hsplit hp

/-- A clause and a reference to it, the later page first. -/
def twoPages : DoclingDocument where
  items := [⟨some "The fee is due.", [some 2]⟩, ⟨some "Fee: see [Page 1]", [some 1]⟩]
  exportToText := ""

/-- The clause stands behind the first page and the marker of its own, and both pages are
recovered. -/
theorem pages_recovered_twoPages :
    "The fee is due.".toList <+: (pdfText twoPages).drop (Scanning.start
      ["[Page 1]".toList, "Fee: see [Page 1]".toList, [], "[Page 2]".toList]) ∧
    PagesRecovered DecimalDigits.asciiOnly twoPages := by
  have hsegments : textSegments twoPages.items =
      [(none, "[Page 1]".toList), (some 1, "Fee: see [Page 1]".toList), (none, []),
        (none, "[Page 2]".toList)] ++ (some 2, "The fee is due.".toList) :: [] := by decide
  exact ⟨segment_prefix_drop hsegments,
    (pages_recovered_iff DecimalDigits.asciiOnly twoPages (by decide)).mpr (by decide)⟩

/-- An item of the first page that refers to the ninth. -/
def pageReference : DoclingDocument where
  items := [⟨some "See [Page 9]", [some 1]⟩]
  exportToText := ""

/-- **A reference is taken for a marker**: at its position the ninth page is inferred. -/
theorem reference_is_taken_for_marker :
    textSegments pageReference.items =
        [(none, "[Page 1]".toList), (some 1, "See [Page 9]".toList)] ∧
      inferPageReference DecimalDigits.asciiOnly (pdfText pageReference) (some 13) =
        (some 9, "Page 9") ∧
      ¬ PagesRecovered DecimalDigits.asciiOnly pageReference := by
  refine ⟨by decide, by decide, fun h => ?_⟩
  have hpage := h [(none, "[Page 1]".toList)] 1 "See [Page 9]".toList [] (by decide) 4 (by decide)
  exact absurd hpage (by decide)

end Recovery

end ExtractFlow
