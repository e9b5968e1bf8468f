import ExtractFlow.Lib.Regex
import ExtractFlow.MaskedSpans

/-!
# The recognizers

The regular expressions of `_RECOGNIZERS` (`worker/app/services/redaction.py`), matched over
the text without regard to case.  Which characters are letters of words, digits, spaces, or
letters up to case is a table of the library; it is fixed on ASCII alone.

A text is redacted and redacted again.  What the second pass finds runs over characters the
first left, so it is there in the text; only its word boundaries may be new, where a mask has
cut a word.

## Main definitions

* `CharTable` — the table.
* `CharTable.recognizers`, `CharTable.analyze` — the recognizers, and what they find.
* `MaskedLetter` — a letter the spans mask.
* `CutOut` — a stretch that a pattern matches where the masks cut words.

## Main results

* `mem_ends_masked_iff` — what a pattern matches in the masked text.
* `redacts_once_iff` — when a second pass finds nothing.
-/

namespace ExtractFlow

open Regex

/-! ### Characters -/

/-- The characters the library's classes have.  `letter` is the class `[A-Za-z]` without
regard to case. -/
structure CharTable where
  word : Char → Bool
  digit : Char → Bool
  space : Char → Bool
  letter : Char → Bool
  word_ascii : ∀ c, c.toNat < 128 → word c = (c.isAlphanum || c == '_')
  digit_ascii : ∀ c, c.toNat < 128 → digit c = c.isDigit
  space_printable : ∀ c, 32 ≤ c.toNat → c.toNat < 127 → space c = (c == ' ')
  letter_ascii : ∀ c, c.toNat < 128 → letter c = c.isAlpha
  isPySpace_of_digit : ∀ c, digit c = true → isPySpace c = false
  isPySpace_of_letter : ∀ c, letter c = true → isPySpace c = false

/-- An entry of `_RECOGNIZERS`: the expression between its word boundaries, if it has them. -/
structure Recognizer where
  core : Regex
  bounded : Bool

/-- The expression. -/
def Recognizer.pattern (r : Recognizer) : Regex :=
  if r.bounded then .all [.boundary, r.core, .boundary] else r.core

namespace CharTable

variable (table : CharTable)

/-- `\d{n}`. -/
def digits (n : ℕ) : Regex := .exactly n (.char table.digit)

/-- `[a-zA-Z0-9._%+-]+@[a-zA-Z0-9.-]+\.[A-Za-z]{2,}`. -/
def email : Regex := .all [
  .many false 1 none (.char fun c =>
    table.letter c || c.isDigit || ['.', '_', '%', '+', '-'].contains c),
  .lit '@',
  .many false 1 none (.char fun c => table.letter c || c.isDigit || ['.', '-'].contains c),
  .lit '.',
  .many false 2 none (.char table.letter)]

/-- `[\s.-]?`. -/
def separator : Regex := .optional (.char fun c => table.space c || ['.', '-'].contains c)

/-- `(?:(?:\+?1[\s.-]?)?(?:\(\d{3}\)|\d{3})[\s.-]?\d{3}[\s.-]?\d{4})`. -/
def phone : Regex := .all [
  .optional (.all [.optional (.lit '+'), .lit '1', table.separator]),
  .alt (.all [.lit '(', table.digits 3, .lit ')']) (table.digits 3),
  table.separator,
  table.digits 3,
  table.separator,
  table.digits 4]

/-- `(?:\d[ -]*?){13,16}`. -/
def creditCard : Regex :=
  .many false 13 (some 16) (.seq (.char table.digit) (.many true 0 none (.char [' ', '-'].contains)))

/-- `\d{3}-\d{2}-\d{4}`. -/
def ssn : Regex := .all [table.digits 3, .lit '-', table.digits 2, .lit '-', table.digits 4]

/-- `[A-Z]{2}\d{2}[A-Z0-9]{11,30}`. -/
def iban : Regex := .all [
  .exactly 2 (.char table.letter),
  table.digits 2,
  .many false 11 (some 30) (.char fun c => table.letter c || c.isDigit)]

/-- `25[0-5]|2[0-4]\d|1?\d?\d`. -/
def octet : Regex :=
  .alt (.all [.lit '2', .lit '5', .char ['0', '1', '2', '3', '4', '5'].contains])
    (.alt (.all [.lit '2', .char ['0', '1', '2', '3', '4'].contains, .char table.digit])
      (.all [.optional (.lit '1'), .optional (.char table.digit), .char table.digit]))

/-- `(?:(?:25[0-5]|2[0-4]\d|1?\d?\d)\.){3}(?:25[0-5]|2[0-4]\d|1?\d?\d)`. -/
def ipAddress : Regex := .all [.exactly 3 (.seq table.octet (.lit '.')), table.octet]

/-- `_RECOGNIZERS`: the entity types with their patterns; all but the one for telephone numbers ask
for word boundaries at both ends. -/
def recognizers : List (String × Recognizer) := [
  ("EMAIL_ADDRESS", { core := table.email, bounded := true }),
  ("PHONE_NUMBER", { core := table.phone, bounded := false }),
  ("CREDIT_CARD", { core := table.creditCard, bounded := true }),
  ("US_SSN", { core := table.ssn, bounded := true }),
  ("IBAN_CODE", { core := table.iban, bounded := true }),
  ("IP_ADDRESS", { core := table.ipAddress, bounded := true })]

/-- `_RECOGNIZERS.get(entity_type)`. -/
def recognizer (entityType : String) : Option Recognizer :=
  (table.recognizers.find? (·.1 == entityType)).map Prod.snd

/-- The spans `analyze` returns for an entity type: the leftmost matches that do not overlap, and
none for a type without a recognizer. -/
def analyze (entityType text : String) : List (ℕ × ℕ) :=
  match table.recognizer entityType with
  | some r => findAll table.word text.toList r.pattern
  | none => []

/-- The supported types are those with a recognizer. -/
theorem map_fst_recognizers : table.recognizers.map Prod.fst = supportedEntityTypes := rfl

theorem recognizer_of_supported {entityType : String} (h : entityType ∈ supportedEntityTypes) :
    ∃ r, table.recognizer entityType = some r := by
  rw [← table.map_fst_recognizers] at h
  obtain ⟨entry, hentry, rfl⟩ := List.mem_map.mp h
  cases hfind : table.recognizers.find? (·.1 == entry.1) with
  | none => exact absurd (List.find?_eq_none.mp hfind entry hentry) (by simp)
  | some found =>
    refine ⟨found.2, ?_⟩
    unfold recognizer
    rw [hfind]
    rfl

/-! ### What the patterns match -/

section Classes

theorem digit_mask : table.digit maskChar = false := table.digit_ascii _ (by decide)

theorem letter_mask : table.letter maskChar = false := table.letter_ascii _ (by decide)

theorem space_mask : table.space maskChar = false :=
  table.space_printable _ (by decide) (by decide)

theorem word_mask : table.word maskChar = false := table.word_ascii _ (by decide)

/-- A class without the mask. -/
theorem ne_mask {members : Char → Bool} (h : members maskChar = false) (c : Char)
    (hc : members c = true) : c ≠ maskChar := by
  rintro rfl
  rw [h] at hc
  cases hc

theorem isPySpace_of_mem {cs : List Char} (h : cs.all (fun c => !isPySpace c) = true) (c : Char)
    (hc : cs.contains c = true) : isPySpace c = false := by
  have hc := List.all_eq_true.mp h c (List.contains_iff_mem.mp hc)
  simpa using hc

end Classes

/-- What holds of every recognizer's expression: a match is not empty, has no mask in it and
starts with no white space; and there is no word boundary in it. -/
structure Fits (r : Regex) : Prop where
  consumes : r.consumes = true
  plain : r.plain = true
  within : r.Within (· ≠ maskChar)
  starts : r.Starts (isPySpace · = false)

theorem within_digits (n : ℕ) : (table.digits n).Within (· ≠ maskChar) :=
  ne_mask table.digit_mask

theorem starts_digits (n : ℕ) : (table.digits n).Starts (isPySpace · = false) :=
  table.isPySpace_of_digit

theorem fits_email : Fits table.email where
  consumes := rfl
  plain := rfl
  within := by
    have hlocal : (table.letter maskChar || maskChar.isDigit ||
        ['.', '_', '%', '+', '-'].contains maskChar) = false := by
      rw [table.letter_mask]
      decide
    have hdomain : (table.letter maskChar || maskChar.isDigit || ['.', '-'].contains maskChar) =
        false := by
      rw [table.letter_mask]
      decide
    exact ⟨ne_mask hlocal, within_lit.mpr (by decide), ne_mask hdomain,
      within_lit.mpr (by decide), ne_mask table.letter_mask, trivial⟩
  starts := by
    refine ⟨fun c hc => ?_, Or.inl rfl⟩
    rcases Bool.or_eq_true _ _ |>.mp hc with hc | hc
    · rcases Bool.or_eq_true _ _ |>.mp hc with hc | hc
      · exact table.isPySpace_of_letter c hc
      · exact isPySpace_of_isDigit hc
    · exact isPySpace_of_mem (by decide) c hc

theorem within_separator : table.separator.Within (· ≠ maskChar) := by
  refine ne_mask ?_
  rw [table.space_mask]
  decide

theorem fits_phone : Fits table.phone where
  consumes := rfl
  plain := rfl
  within :=
    ⟨⟨within_lit.mpr (by decide), within_lit.mpr (by decide), table.within_separator, trivial⟩,
      ⟨⟨within_lit.mpr (by decide), table.within_digits 3, within_lit.mpr (by decide), trivial⟩,
        table.within_digits 3⟩,
      table.within_separator, table.within_digits 3, table.within_separator,
      table.within_digits 4, trivial⟩
  starts :=
    ⟨⟨starts_lit.mpr (by decide), Or.inr ⟨starts_lit.mpr (by decide), Or.inl rfl⟩⟩,
      Or.inr ⟨⟨⟨starts_lit.mpr (by decide), Or.inl rfl⟩, table.starts_digits 3⟩, Or.inl rfl⟩⟩

theorem fits_creditCard : Fits table.creditCard where
  consumes := rfl
  plain := rfl
  within := ⟨ne_mask table.digit_mask, ne_mask (by decide)⟩
  starts := ⟨table.isPySpace_of_digit, Or.inl rfl⟩

theorem fits_ssn : Fits table.ssn where
  consumes := rfl
  plain := rfl
  within := ⟨table.within_digits 3, within_lit.mpr (by decide), table.within_digits 2,
    within_lit.mpr (by decide), table.within_digits 4, trivial⟩
  starts := ⟨table.starts_digits 3, Or.inl rfl⟩

theorem fits_iban : Fits table.iban where
  consumes := rfl
  plain := rfl
  within := by
    refine ⟨ne_mask table.letter_mask, table.within_digits 2, ne_mask ?_, trivial⟩
    rw [table.letter_mask]
    decide
  starts := ⟨table.isPySpace_of_letter, Or.inl rfl⟩

theorem within_octet : table.octet.Within (· ≠ maskChar) :=
  ⟨⟨within_lit.mpr (by decide), within_lit.mpr (by decide), ne_mask (by decide), trivial⟩,
    ⟨within_lit.mpr (by decide), ne_mask (by decide), ne_mask table.digit_mask, trivial⟩,
    within_lit.mpr (by decide), ne_mask table.digit_mask, ne_mask table.digit_mask, trivial⟩

theorem starts_octet : table.octet.Starts (isPySpace · = false) :=
  ⟨⟨starts_lit.mpr (by decide), Or.inl rfl⟩, ⟨starts_lit.mpr (by decide), Or.inl rfl⟩,
    starts_lit.mpr (by decide), Or.inr ⟨table.isPySpace_of_digit,
      Or.inr ⟨table.isPySpace_of_digit, Or.inl rfl⟩⟩⟩

theorem fits_ipAddress : Fits table.ipAddress where
  consumes := rfl
  plain := rfl
  within := ⟨⟨table.within_octet, within_lit.mpr (by decide)⟩, table.within_octet, trivial⟩
  starts := ⟨⟨table.starts_octet, Or.inl rfl⟩, Or.inl rfl⟩

/-- **Every recognizer's expression fits.** -/
theorem fits_of_recognizer {entityType : String} {r : Recognizer}
    (h : table.recognizer entityType = some r) : Fits r.core := by
  obtain ⟨entry, hentry, rfl⟩ := Option.map_eq_some_iff.mp h
  have hmem := List.mem_of_find?_eq_some hentry
  have hall : ∀ entry ∈ table.recognizers, Fits entry.2.core := by
    simp only [recognizers, List.forall_mem_cons]
    exact ⟨table.fits_email, table.fits_phone, table.fits_creditCard, table.fits_ssn,
      table.fits_iban, table.fits_ipAddress, List.forall_mem_nil _⟩
  exact hall entry hmem

end CharTable

/-! ### The masked text -/

section Masked

variable {table : CharTable} {spans : List RedactionSpan} {text : String} {r : Regex}
  {i j k : ℕ}

/-- The spans mask the letter at the position: one of them has it, and it is no white space, which
is never masked. -/
def MaskedLetter (spans : List RedactionSpan) (text : List Char) (k : ℕ) : Prop :=
  Covered spans k ∧ text[k]?.any (fun c => !isPySpace c) = true

instance (spans : List RedactionSpan) (text : List Char) (k : ℕ) :
    Decidable (MaskedLetter spans text k) := inferInstanceAs (Decidable (_ ∧ _))

theorem maskedLetter_congr {spans' : List RedactionSpan}
    (h : ∀ i, Covered spans i ↔ Covered spans' i) {text : List Char} {k : ℕ} :
    MaskedLetter spans text k ↔ MaskedLetter spans' text k := and_congr (h k) Iff.rfl

theorem getElem?_of_masked (h : MaskedLetter spans text.toList k) :
    (maskText text spans).toList[k]? = some maskChar := by
  obtain ⟨hcovered, hany⟩ := h
  obtain ⟨c, hc, hspace⟩ := Option.any_eq_true _ _ |>.mp hany
  rw [getElem?_maskText, hc, Option.map_some, maskedAt,
    if_pos ⟨hcovered, by simpa using hspace⟩]

theorem getElem?_of_not_masked (h : ¬ MaskedLetter spans text.toList k) :
    (maskText text spans).toList[k]? = text.toList[k]? := by
  rw [getElem?_maskText]
  cases hc : text.toList[k]? with
  | none => rfl
  | some c =>
    refine congrArg some (if_neg fun hmask => h ⟨hmask.1, ?_⟩)
    rw [hc, Option.any_some, hmask.2]
    rfl

/-- A masked letter is no letter of a word. -/
theorem wordAt_of_masked (h : MaskedLetter spans text.toList k) :
    wordAt table.word (maskText text spans).toList k = false := by
  rw [wordAt, getElem?_of_masked h]
  exact table.word_mask

theorem wordAt_of_not_masked (h : ¬ MaskedLetter spans text.toList k) :
    wordAt table.word (maskText text spans).toList k = wordAt table.word text.toList k := by
  rw [wordAt, getElem?_of_not_masked h, wordAt]

/-- **A stretch that is cut out**: the expression matches it, no span masks a letter of it, and
each end is a word boundary, or is next to a masked letter and has a letter of a word inside. -/
structure CutOut (table : CharTable) (spans : List RedactionSpan) (text : List Char) (core : Regex)
    (i j : ℕ) : Prop where
  mem : j ∈ ends table.word text core i
  free : ∀ k, i ≤ k → k < j → ¬ MaskedLetter spans text k
  left : if 0 < i ∧ MaskedLetter spans text (i - 1) then wordAt table.word text i = true
    else isBoundary table.word text i = true
  right : if MaskedLetter spans text j then wordAt table.word text (j - 1) = true
    else isBoundary table.word text j = true

/-- A match of the masked text is one of the text, over letters that are not masked. -/
theorem mem_ends_masked_iff (hfits : CharTable.Fits r) :
    j ∈ ends table.word (maskText text spans).toList r i ↔
      j ∈ ends table.word text.toList r i ∧
        ∀ k, i ≤ k → k < j → ¬ MaskedLetter spans text.toList k := by
  have hlength := length_maskText text spans
  constructor
  · intro hmem
    have hfree : ∀ k, i ≤ k → k < j → ¬ MaskedLetter spans text.toList k := by
      intro k hik hkj hmasked
      obtain ⟨c, hc, hne⟩ := forall_of_mem_ends hfits.within hmem k hik hkj
      rw [getElem?_of_masked hmasked] at hc
      exact hne (Option.some.inj hc).symm
    refine ⟨mem_ends_of_agree hlength (fun k hik hkj => ?_) hfits.plain le_rfl le_rfl hmem, hfree⟩
    exact getElem?_of_not_masked (hfree k hik hkj)
  · rintro ⟨hmem, hfree⟩
    refine mem_ends_of_agree hlength.symm (fun k hik hkj => ?_) hfits.plain le_rfl le_rfl hmem
    exact (getElem?_of_not_masked (hfree k hik hkj)).symm

/-- Where a word begins in the masked text. -/
theorem isBoundary_left (h : ¬ MaskedLetter spans text.toList i) :
    isBoundary table.word (maskText text spans).toList i = true ↔
      if 0 < i ∧ MaskedLetter spans text.toList (i - 1) then wordAt table.word text.toList i = true
      else isBoundary table.word text.toList i = true := by
  unfold isBoundary
  rw [wordAt_of_not_masked h]
  by_cases hbefore : MaskedLetter spans text.toList (i - 1)
  · rw [wordAt_of_masked hbefore]
    by_cases hpos : 0 < i
    · rw [if_pos ⟨hpos, hbefore⟩]
      simp
    · rw [if_neg fun h => hpos h.1]
      simp [hpos]
  · rw [wordAt_of_not_masked hbefore, if_neg fun h => hbefore h.2]

/-- Where a word ends. -/
theorem isBoundary_right (hpos : 0 < j) (h : ¬ MaskedLetter spans text.toList (j - 1)) :
    isBoundary table.word (maskText text spans).toList j = true ↔
      if MaskedLetter spans text.toList j then wordAt table.word text.toList (j - 1) = true
      else isBoundary table.word text.toList j = true := by
  unfold isBoundary
  rw [wordAt_of_not_masked h]
  by_cases hbehind : MaskedLetter spans text.toList j
  · rw [wordAt_of_masked hbehind, if_pos hbehind]
    simp [hpos]
  · rw [wordAt_of_not_masked hbehind, if_neg hbehind]

/-- A match between word boundaries. -/
theorem mem_ends_bounded {text : List Char} {core : Regex} :
    j ∈ ends table.word text (.all [.boundary, core, .boundary]) i ↔
      isBoundary table.word text i = true ∧ j ∈ ends table.word text core i ∧
        isBoundary table.word text j = true := by
  have hlast : ∀ k, j ∈ ends table.word text (.all [.boundary]) k ↔
      j = k ∧ isBoundary table.word text k = true := by
    intro k
    have hseq : j ∈ ends table.word text (.all [.boundary]) k ↔
        ∃ m ∈ ends table.word text .boundary k, j ∈ ends table.word text .empty m := mem_ends_seq
    have hempty : ∀ m, j ∈ ends table.word text .empty m ↔ j = m := fun m => List.mem_singleton
    simp only [hseq, hempty, mem_ends_boundary]
    constructor
    · rintro ⟨m, ⟨rfl, hbound⟩, rfl⟩
      exact ⟨rfl, hbound⟩
    · rintro ⟨rfl, hbound⟩
      exact ⟨j, ⟨rfl, hbound⟩, rfl⟩
  have hcore : ∀ k, j ∈ ends table.word text (.all [core, .boundary]) k ↔
      ∃ m ∈ ends table.word text core k, j ∈ ends table.word text (.all [.boundary]) m :=
    fun k => mem_ends_seq
  -- The expression is a sequence of three: a boundary, the core, a boundary.
  have hfirst : j ∈ ends table.word text (.all [.boundary, core, .boundary]) i ↔
      ∃ m ∈ ends table.word text .boundary i,
        j ∈ ends table.word text (.all [core, .boundary]) m := mem_ends_seq
  simp only [hfirst, hcore, hlast, mem_ends_boundary]
  constructor
  · rintro ⟨m, ⟨rfl, hbound⟩, k, hk, rfl, hend⟩
    exact ⟨hbound, hk, hend⟩
  · rintro ⟨hbound, hmem, hend⟩
    exact ⟨i, ⟨rfl, hbound⟩, j, hmem, rfl, hend⟩

theorem consumes_pattern {recognizer : Recognizer} (hfits : CharTable.Fits recognizer.core) :
    recognizer.pattern.consumes = true := by
  unfold Recognizer.pattern
  split
  · show (false || (recognizer.core.consumes || (false || false))) = true
    rw [hfits.consumes]
    rfl
  · exact hfits.consumes

end Masked

/-! ### The second pass -/

section SecondPass

variable {table : CharTable} {text : String} {entityTypes : List String}

/-- The spans of all entity types. -/
def CharTable.recognized (table : CharTable) (text : String) (entityTypes : List String) :
    List RedactionSpan :=
  entityTypes.flatMap fun entityType =>
    (table.analyze entityType text).map fun (start, stop) => ⟨start, stop, entityType⟩

/-- Redaction finds the spans of all entity types, if they are supported. -/
theorem recognizedSpans_eq (h : ∀ entityType ∈ entityTypes, entityType ∈ supportedEntityTypes) :
    recognizedSpans table.analyze text entityTypes = .ok (table.recognized text entityTypes) := by
  unfold recognizedSpans
  rw [Failing.mapM_of_forall fun entityType htype => if_pos (h entityType htype)]
  rfl

/-- The texts the two passes leave. -/
theorem redactText_eq (table : CharTable) (text : String) {entityTypes : List String}
    (h : ∀ entityType ∈ entityTypes, entityType ∈ supportedEntityTypes) :
    ∃ result, redactText table.analyze text entityTypes = .ok result ∧
      result.text = maskText text (mergeSpans (table.recognized text entityTypes)) ∧
      result.spanCount = (mergeSpans (table.recognized text entityTypes)).length := by
  unfold redactText
  rw [recognizedSpans_eq h]
  exact ⟨_, rfl, rfl, rfl⟩

/-- No spans are merged to none only. -/
theorem mergeSpans_eq_nil_iff (hspans : ∀ span ∈ table.recognized text entityTypes,
    span.start < span.stop) :
    mergeSpans (table.recognized text entityTypes) = [] ↔
      table.recognized text entityTypes = [] := by
  constructor
  · intro hnil
    refine List.eq_nil_iff_forall_not_mem.mpr fun span hspan => ?_
    have hcovered : Covered (table.recognized text entityTypes) span.start :=
      ⟨span, hspan, le_rfl, hspans span hspan⟩
    rw [← covered_mergeSpans, hnil] at hcovered
    exact not_covered_nil hcovered
  · intro hnil
    rw [hnil, mergeSpans_nil]

theorem mem_recognized {span : RedactionSpan} :
    span ∈ table.recognized text entityTypes ↔ span.entityType ∈ entityTypes ∧
      (span.start, span.stop) ∈ table.analyze span.entityType text := by
  unfold CharTable.recognized
  rw [List.mem_flatMap]
  constructor
  · rintro ⟨entityType, htype, hspan⟩
    obtain ⟨⟨start, stop⟩, hfound, rfl⟩ := List.mem_map.mp hspan
    exact ⟨htype, hfound⟩
  · rintro ⟨htype, hfound⟩
    exact ⟨span.entityType, htype, List.mem_map.mpr ⟨_, hfound, rfl⟩⟩

theorem analyze_eq {entityType : String} {r : Recognizer}
    (hr : table.recognizer entityType = some r) :
    table.analyze entityType text = findAll table.word text.toList r.pattern := by
  unfold CharTable.analyze
  rw [hr]

/-- A span is not empty. -/
theorem lt_of_mem_recognized : ∀ span ∈ table.recognized text entityTypes,
    span.start < span.stop := by
  intro span hspan
  obtain ⟨-, hfound⟩ := mem_recognized.mp hspan
  cases hr : table.recognizer span.entityType with
  | none =>
    unfold CharTable.analyze at hfound
    rw [hr] at hfound
    cases hfound
  | some r =>
    rw [analyze_eq hr] at hfound
    exact lt_of_mem_ends (consumes_pattern (table.fits_of_recognizer hr))
      (mem_ends_of_mem_findFrom hfound)

/-- Nothing is recognized where no pattern matches. -/
theorem recognized_eq_nil_iff
    (h : ∀ entityType ∈ entityTypes, entityType ∈ supportedEntityTypes) :
    table.recognized text entityTypes = [] ↔ ∀ entityType ∈ entityTypes, ∀ r,
      table.recognizer entityType = some r → ∀ i j, j ∉ ends table.word text.toList r.pattern i := by
  unfold CharTable.recognized
  rw [List.flatMap_eq_nil_iff]
  refine forall₂_congr fun entityType htype => ?_
  obtain ⟨r, hr⟩ := table.recognizer_of_supported (h entityType htype)
  rw [List.map_eq_nil_iff, analyze_eq hr,
    findAll_eq_nil_iff (consumes_pattern (table.fits_of_recognizer hr))]
  constructor
  · intro hnone r' hr'
    rw [hr] at hr'
    obtain rfl := Option.some.inj hr'
    exact hnone
  · intro hall
    exact hall r hr

/-- **A match starts at a masked letter.** -/
theorem maskedLetter_of_mem_ends {entityType : String} {r : Recognizer}
    (htype : entityType ∈ entityTypes) (hr : table.recognizer entityType = some r) {i j : ℕ}
    (hpattern : j ∈ ends table.word text.toList r.pattern i)
    (hcore : j ∈ ends table.word text.toList r.core i) :
    MaskedLetter (table.recognized text entityTypes) text.toList i := by
  have hfits := table.fits_of_recognizer hr
  obtain ⟨found, hfound, hruns⟩ := exists_findAll (consumes_pattern hfits) hpattern
  obtain ⟨c, hc, hspace⟩ :=
    first_of_mem_ends hfits.starts hcore (lt_of_mem_ends hfits.consumes hcore)
  refine ⟨⟨⟨found.1, found.2, entityType⟩, mem_recognized.mpr ⟨htype, ?_⟩, hruns⟩, ?_⟩
  · rw [analyze_eq hr]
    exact hfound
  · rw [hc, Option.any_some, hspace]
    rfl

/-- A mask cuts a word: a stretch is cut out for the pattern of one of the types that has word
boundaries. -/
def CutsWord (table : CharTable) (text : String) (entityTypes : List String) : Prop :=
  ∃ entityType ∈ entityTypes, ∃ r, table.recognizer entityType = some r ∧ r.bounded = true ∧
    ∃ i j, CutOut table (table.recognized text entityTypes) text.toList r.core i j

/-- **What a pattern matches in the redacted text** is cut out of the text. -/
theorem mem_ends_redacted_iff {entityType : String} {r : Recognizer}
    (htype : entityType ∈ entityTypes) (hr : table.recognizer entityType = some r) {i j : ℕ} :
    j ∈ ends table.word (maskText text
        (mergeSpans (table.recognized text entityTypes))).toList r.pattern i ↔
      r.bounded = true ∧ CutOut table (table.recognized text entityTypes) text.toList r.core i j := by
  have hfits := table.fits_of_recognizer hr
  have hmasked : ∀ k, MaskedLetter (mergeSpans (table.recognized text entityTypes)) text.toList k ↔
      MaskedLetter (table.recognized text entityTypes) text.toList k :=
    fun k => maskedLetter_congr (covered_mergeSpans _)
  by_cases hbounded : r.bounded = true
  · have hpattern : r.pattern = .all [.boundary, r.core, .boundary] := if_pos hbounded
    rw [hpattern, mem_ends_bounded, mem_ends_masked_iff hfits]
    constructor
    · rintro ⟨hleft, ⟨hmem, hfree⟩, hright⟩
      have hij := lt_of_mem_ends hfits.consumes hmem
      rw [isBoundary_left (hfree i le_rfl hij)] at hleft
      rw [isBoundary_right (by omega) (hfree (j - 1) (by omega) (by omega))] at hright
      simp only [hmasked] at hfree hleft hright
      exact ⟨hbounded, hmem, hfree, hleft, hright⟩
    · rintro ⟨-, hmem, hfree, hleft, hright⟩
      have hij := lt_of_mem_ends hfits.consumes hmem
      simp only [← hmasked] at hfree hleft hright
      rw [← isBoundary_left (hfree i le_rfl hij)] at hleft
      rw [← isBoundary_right (by omega) (hfree (j - 1) (by omega) (by omega))] at hright
      exact ⟨hleft, ⟨hmem, hfree⟩, hright⟩
  · have hpattern : r.pattern = r.core := if_neg hbounded
    rw [hpattern, mem_ends_masked_iff hfits]
    refine iff_of_false ?_ fun h => hbounded h.1
    -- without word boundaries the match is one of the text, and starts at a masked letter
    rintro ⟨hmem, hfree⟩
    have hstart := maskedLetter_of_mem_ends htype hr (hpattern ▸ hmem) hmem
    exact hfree i le_rfl (lt_of_mem_ends hfits.consumes hmem) ((hmasked i).mpr hstart)

/-- **When a second pass finds nothing**: when no mask cuts a word. -/
theorem redacts_once_iff (table : CharTable) (text : String) {entityTypes : List String}
    (hsupported : ∀ entityType ∈ entityTypes, entityType ∈ supportedEntityTypes) :
    ∃ first second, redactText table.analyze text entityTypes = .ok first ∧
      redactText table.analyze first.text entityTypes = .ok second ∧
      ((second.spanCount = 0 ∧ second.text = first.text) ↔ ¬ CutsWord table text entityTypes) := by
  obtain ⟨first, hfirst, htext, -⟩ := redactText_eq table text hsupported
  obtain ⟨second, hsecond, htext', hcount⟩ := redactText_eq table first.text hsupported
  refine ⟨first, second, hfirst, hsecond, ?_⟩
  have hnothing : second.spanCount = 0 ↔ table.recognized first.text entityTypes = [] := by
    rw [hcount, List.length_eq_zero_iff, mergeSpans_eq_nil_iff lt_of_mem_recognized]
  have hunchanged : second.spanCount = 0 → second.text = first.text := by
    intro hzero
    rw [htext', hnothing.mp hzero, mergeSpans_nil]
    exact String.ofList_toList
  rw [and_iff_left_of_imp hunchanged, hnothing, recognized_eq_nil_iff hsupported, htext]
  constructor
  · rintro hnone ⟨entityType, htype, r, hr, hbounded, i, j, hcut⟩
    exact hnone entityType htype r hr i j ((mem_ends_redacted_iff htype hr).mpr ⟨hbounded, hcut⟩)
  · intro hnocut entityType htype r hr i j hmem
    obtain ⟨hbounded, hcut⟩ := (mem_ends_redacted_iff htype hr).mp hmem
    exact hnocut ⟨entityType, htype, r, hr, hbounded, i, j, hcut⟩

end SecondPass

/-! ### ASCII -/

theorem isPySpace_of_isAlpha {c : Char} (h : c.isAlpha = true) : isPySpace c = false := by
  have hletter : (65 ≤ c.toNat ∧ c.toNat ≤ 90) ∨ 97 ≤ c.toNat ∧ c.toNat ≤ 122 := by
    have hcases : (decide (c.val ≥ 65 ∧ c.val ≤ 90) ||
        (decide (c.val ≥ 97) && decide (c.val ≤ 122))) = true := h
    simpa [UInt32.le_iff_toNat_le] using hcases
  unfold isPySpace
  simp only [List.mem_cons, List.not_mem_nil, or_false, decide_eq_false_iff_not]
  omega

/-- The table of ASCII. -/
def asciiTable : CharTable where
  word c := c.isAlphanum || c == '_'
  digit c := c.isDigit
  space c := c == ' '
  letter c := c.isAlpha
  word_ascii _ _ := rfl
  digit_ascii _ _ := rfl
  space_printable _ _ _ := rfl
  letter_ascii _ _ := rfl
  isPySpace_of_digit _ := isPySpace_of_isDigit
  isPySpace_of_letter _ := isPySpace_of_isAlpha

/-- A phone number and an address, with both types and one more. -/
theorem redacts_once_phone :
    ∃ first second, redactText asciiTable.analyze "555 010 0199 or ann@example.org"
        ["PHONE_NUMBER", "EMAIL_ADDRESS", "US_SSN"] = .ok first ∧
      redactText asciiTable.analyze first.text ["PHONE_NUMBER", "EMAIL_ADDRESS", "US_SSN"] =
        .ok second ∧
      ((second.spanCount = 0 ∧ second.text = first.text) ↔
        ¬ CutsWord asciiTable "555 010 0199 or ann@example.org"
          ["PHONE_NUMBER", "EMAIL_ADDRESS", "US_SSN"]) :=
  redacts_once_iff asciiTable "555 010 0199 or ann@example.org" (by decide)

/-- **A number is left behind a mask**: the letters before it made it no social security
number, until they are masked. -/
theorem number_left_behind_mask :
    ∃ first second, redactText asciiTable.analyze "2125551234567-12-3456"
        ["PHONE_NUMBER", "US_SSN"] = .ok first ∧
      redactText asciiTable.analyze first.text ["PHONE_NUMBER", "US_SSN"] = .ok second ∧
      first.text = "**********567-12-3456" ∧ second.text = "*********************" ∧
      second.spanCount = 1 ∧ ¬ (second.spanCount = 0 ∧ second.text = first.text) := by
  refine ⟨_, _, rfl, rfl, ?_, ?_, ?_, ?_⟩ <;> decide +kernel

end ExtractFlow
