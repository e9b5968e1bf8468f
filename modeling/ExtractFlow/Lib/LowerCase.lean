import Mathlib.Data.List.Basic
import Mathlib.Tactic.Common

/-!
# Lower-casing and suffixes

Lower-casing a text, as Unicode has it: the image of a letter may have several
letters and may depend on the text around it.  Of the tables only this much is
assumed: ASCII letters have their ASCII images, no image is empty, and the image
of a letter beyond ASCII has no ASCII letter other than `i` and `k` (the dotted
capital I and the Kelvin sign have such images).

A text of ASCII letters without `i` and `k` is then a suffix of the lower-case
form exactly when a suffix of the text itself has it as its ASCII lower-case
form.  So a test of a file name for such a suffix is a test of its last letters.

## Main definitions

* `LowerCase`, `LowerCase.lower` — a lower-casing, and its action on a text.
* `PlainText` — ASCII letters other than `i` and `k`.

## Main results

* `LowerCase.suffix_lower_iff` — which plain suffixes the lower-case form has.
* `LowerCase.lower_eq_iff` — which texts have a plain lower-case form.
-/

/-- A lower-casing: the image of a letter between the text before it and the text
after it. -/
structure LowerCase where
  lowerAt : List Char → Char → List Char → List Char
  lowerAt_ascii : ∀ pre c post, c.toNat < 128 → lowerAt pre c post = [c.toLower]
  lowerAt_ne_nil : ∀ pre c post, lowerAt pre c post ≠ []
  lowerAt_beyond : ∀ pre c post, 128 ≤ c.toNat → ∀ d ∈ lowerAt pre c post,
    d.toNat < 128 → d = 'i' ∨ d = 'k'

namespace LowerCase

/-- A character that is no capital letter of ASCII is its own lower-case form. -/
theorem toLower_of_not_upper {c : Char} (h : ¬ (c.val ≥ 'A'.val ∧ c.val ≤ 'Z'.val)) :
    c.toLower = c :=
  dif_neg h

theorem toLower_beyond {c d : Char} (hc : 128 ≤ c.toNat) (hd : d ∈ [c.toLower])
    (hlow : d.toNat < 128) : d = 'i' ∨ d = 'k' := by
  obtain rfl := List.mem_singleton.mp hd
  have hupper : ¬ (c.val ≥ 'A'.val ∧ c.val ≤ 'Z'.val) := by
    rintro ⟨-, hle⟩
    have : c.toNat ≤ 90 := hle
    omega
  rw [toLower_of_not_upper hupper] at hlow
  omega

/-- The lower-casing that leaves everything beyond ASCII as it is. -/
def asciiOnly : LowerCase where
  lowerAt _ c _ := [c.toLower]
  lowerAt_ascii _ _ _ _ := rfl
  lowerAt_ne_nil _ _ _ := List.cons_ne_nil _ _
  lowerAt_beyond _ _ _ hc _ hd hlow := toLower_beyond hc hd hlow

/-- The lower-case form of a text that comes after `pre`. -/
def lowerFrom (lc : LowerCase) : List Char → List Char → List Char
  | _, [] => []
  | pre, c :: cs => lc.lowerAt pre c cs ++ lowerFrom lc (pre ++ [c]) cs

/-- The lower-case form of a text. -/
def lowerChars (lc : LowerCase) (cs : List Char) : List Char := lc.lowerFrom [] cs

/-- The lower-case form of a string: the images of its letters, one after the other. -/
def lower (lc : LowerCase) (s : String) : String := String.ofList (lc.lowerChars s.toList)

end LowerCase

/-- ASCII letters, and neither `i` nor `k` among them: no letter beyond ASCII has an image that
contains one of these. -/
def PlainText (t : List Char) : Prop := ∀ c ∈ t, c.toNat < 128 ∧ c ≠ 'i' ∧ c ≠ 'k'

instance (t : List Char) : Decidable (PlainText t) := List.decidableBAll _ t

theorem PlainText.of_suffix {s t : List Char} (ht : PlainText t) (h : s <:+ t) : PlainText s :=
  fun c hc => ht c (h.mem hc)

/-- The ASCII lower-case form is ASCII only for ASCII letters. -/
theorem ascii_of_toLower {c : Char} (h : c.toLower.toNat < 128) : c.toNat < 128 := by
  by_cases hupper : c.val ≥ 'A'.val ∧ c.val ≤ 'Z'.val
  · have : c.toNat ≤ 90 := hupper.2
    omega
  · rwa [LowerCase.toLower_of_not_upper hupper] at h

namespace LowerCase

variable {lc : LowerCase} {t : List Char}

/-- A letter whose image meets a plain text is an ASCII letter. -/
theorem ascii_of_mem_lowerAt {pre post : List Char} {c d : Char} (ht : PlainText t)
    (hd : d ∈ lc.lowerAt pre c post) (hdt : d ∈ t) : c.toNat < 128 := by
  by_contra hc
  obtain ⟨hascii, hi, hk⟩ := ht d hdt
  rcases lc.lowerAt_beyond pre c post (by omega) d hd hascii with h | h
  · exact hi h
  · exact hk h

/-- A text of ASCII letters has its letters' ASCII forms. -/
theorem lowerFrom_of_ascii : ∀ {cs pre : List Char}, (∀ c ∈ cs, c.toNat < 128) →
    lc.lowerFrom pre cs = cs.map Char.toLower := by
  intro cs
  induction cs with
  | nil => intro pre _; rfl
  | cons c cs ih =>
    intro pre h
    rw [lowerFrom, lc.lowerAt_ascii pre c cs (h c (List.mem_cons_self ..)),
      ih fun d hd => h d (List.mem_cons_of_mem _ hd)]
    rfl

/-- Only texts of ASCII letters have a plain lower-case form. -/
theorem ascii_of_plain : ∀ {cs pre : List Char}, PlainText (lc.lowerFrom pre cs) →
    ∀ c ∈ cs, c.toNat < 128 := by
  intro cs
  induction cs with
  | nil => intro pre _ c hc; exact absurd hc List.not_mem_nil
  | cons c cs ih =>
    intro pre h d hd
    rw [lowerFrom] at h
    rcases List.mem_cons.mp hd with rfl | hd
    · obtain ⟨e, he⟩ := List.exists_mem_of_ne_nil _ (lc.lowerAt_ne_nil pre d cs)
      exact ascii_of_mem_lowerAt h he (List.mem_append_left _ he)
    · exact ih (h.of_suffix (List.suffix_append ..)) d hd

/-- **Which plain suffixes a lower-case form has.** -/
theorem suffix_lowerFrom_iff (ht : PlainText t) : ∀ {cs pre : List Char},
    t <:+ lc.lowerFrom pre cs ↔ ∃ u, u <:+ cs ∧ u.map Char.toLower = t := by
  intro cs
  induction cs with
  | nil =>
    intro pre
    simp only [lowerFrom, List.suffix_nil]
    constructor
    · rintro rfl
      exact ⟨[], rfl, rfl⟩
    · rintro ⟨u, rfl, rfl⟩
      rfl
  | cons c cs ih =>
    intro pre
    rw [lowerFrom]
    constructor
    · intro h
      rcases List.suffix_or_suffix_of_suffix h (List.suffix_append _ _) with h' | ⟨s, rfl⟩
      · obtain ⟨u, hu, hmap⟩ := ih.mp h'
        exact ⟨u, hu.trans (List.suffix_cons c cs), hmap⟩
      · have hs : s <:+ lc.lowerAt pre c cs := List.suffix_append_self_iff.mp h
        have hascii : ∀ d ∈ cs, d.toNat < 128 :=
          ascii_of_plain (ht.of_suffix (List.suffix_append ..))
        rw [lowerFrom_of_ascii hascii] at ht ⊢
        cases s with
        | nil => exact ⟨cs, List.suffix_cons c cs, rfl⟩
        | cons d s =>
          -- the suffix reaches into the image of the first letter
          have hc : c.toNat < 128 :=
            ascii_of_mem_lowerAt ht (hs.mem (List.mem_cons_self ..)) (List.mem_cons_self ..)
          rw [lc.lowerAt_ascii pre c cs hc] at hs
          have hs : d :: s = [c.toLower] :=
            hs.eq_of_length (by
              have hle := hs.length_le
              rw [List.length_cons, List.length_singleton] at hle ⊢
              omega)
          exact ⟨c :: cs, List.suffix_rfl, by rw [hs]; rfl⟩
    · rintro ⟨u, hu, rfl⟩
      rcases List.suffix_cons_iff.mp hu with rfl | hu
      · have hascii : ∀ d ∈ c :: cs, d.toNat < 128 := fun d hd =>
          ascii_of_toLower (ht _ (List.mem_map_of_mem hd)).1
        have hlower : lc.lowerFrom pre (c :: cs) = (c :: cs).map Char.toLower :=
          lowerFrom_of_ascii hascii
        rw [lowerFrom] at hlower
        exact hlower.symm ▸ List.suffix_rfl
      · exact (ih.mpr ⟨u, hu, rfl⟩).trans (List.suffix_append ..)

/-! ### The ends of a text -/

/-- The last letter has its image at the end, as it is after all the others. -/
theorem lowerFrom_concat : ∀ (cs : List Char) (pre : List Char) (c : Char),
    ∃ front, lc.lowerFrom pre (cs ++ [c]) = front ++ lc.lowerAt (pre ++ cs) c [] := by
  intro cs
  induction cs with
  | nil =>
    intro pre c
    refine ⟨[], ?_⟩
    simp [lowerFrom]
  | cons d cs ih =>
    intro pre c
    obtain ⟨front, hfront⟩ := ih (pre ++ [d]) c
    refine ⟨lc.lowerAt pre d (cs ++ [c]) ++ front, ?_⟩
    rw [List.cons_append, lowerFrom, hfront, List.append_assoc, List.append_assoc]
    rfl

/-- A letter with a plain letter in its image is one of ASCII. -/
theorem toLower_of_mem_lowerAt {pre post : List Char} {c d : Char} (hd : PlainText [d])
    (h : d ∈ lc.lowerAt pre c post) : c.toLower = d := by
  have hascii := ascii_of_mem_lowerAt hd h (List.mem_singleton_self d)
  rw [lc.lowerAt_ascii pre c post hascii] at h
  exact (List.mem_singleton.mp h).symm

/-- A form that begins with a plain letter is that of a text that begins with it. -/
theorem toLower_head {d c : Char} {cs rest : List Char} (hd : PlainText [d])
    (h : lc.lowerChars (c :: cs) = d :: rest) : c.toLower = d := by
  obtain ⟨e, image, himage⟩ := List.exists_cons_of_ne_nil (lc.lowerAt_ne_nil [] c cs)
  rw [lowerChars, lowerFrom, himage, List.cons_append] at h
  obtain ⟨rfl, -⟩ := List.cons.inj h
  have hmem : e ∈ lc.lowerAt [] c cs := himage ▸ List.mem_cons_self
  exact toLower_of_mem_lowerAt hd hmem

/-- A form that ends with a plain letter is that of a text that ends with it. -/
theorem toLower_last {d c : Char} {cs init : List Char} (hd : PlainText [d])
    (h : lc.lowerChars (cs ++ [c]) = init ++ [d]) : c.toLower = d := by
  obtain ⟨front, hfront⟩ := lc.lowerFrom_concat cs [] c
  rw [lowerChars, hfront] at h
  have hlast := congrArg List.getLast? h
  rw [List.getLast?_append_of_ne_nil _ (lc.lowerAt_ne_nil _ _ _), List.getLast?_concat] at hlast
  have hmem : d ∈ lc.lowerAt ([] ++ cs) c [] := List.mem_of_getLast? hlast
  exact toLower_of_mem_lowerAt hd hmem

/-! ### Strings -/

/-- **Which plain suffixes the lower-case form of a string has**: those that are the ASCII
lower-case form of a suffix of the string itself. -/
theorem suffix_lower_iff (ht : PlainText t) {s : String} :
    t <:+ (lc.lower s).toList ↔ ∃ u, u <:+ s.toList ∧ u.map Char.toLower = t := by
  rw [lower, String.toList_ofList]
  exact suffix_lowerFrom_iff ht

/-- **Which strings have a plain lower-case form**: those that have it letter by letter, as ASCII
has it. -/
theorem lower_eq_iff (ht : PlainText t) {s : String} :
    (lc.lower s).toList = t ↔ s.toList.map Char.toLower = t := by
  rw [lower, String.toList_ofList]
  constructor
  · rintro rfl
    exact (lowerFrom_of_ascii (ascii_of_plain ht)).symm
  · rintro rfl
    exact lowerFrom_of_ascii fun d hd => ascii_of_toLower (ht _ (List.mem_map_of_mem hd)).1

end LowerCase
