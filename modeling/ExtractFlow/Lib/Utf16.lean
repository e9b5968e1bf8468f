import Mathlib.Data.List.Basic
import Mathlib.Data.List.Infix
import Mathlib.Tactic.Common

/-!
# Text as code points and as UTF-16 code units

One program counts a text in code points, another in UTF-16 code units.  A
character of the basic plane is one unit; every other is two, a surrogate pair.

An offset means the same in both counts as long as no pair stands before it, so a
slice of the units is the encoding of the slice of the characters.  It means
something else behind a pair, and a pair is never one unit.

## Main definitions

* `Utf16.encode`, `Utf16.decode` — the code units of a text, and the text of code units.
* `Utf16.Basic c` — the character is one unit.
* `Utf16.slice xs s e` — the elements from `s` to `e`.

## Main results

* `encode_injective` — the units determine the text.
* `slice_encode` — a slice of the units, up to a point with no pair before it.
-/

namespace Utf16

/-- The code units of a character. -/
def unitsOf (c : Char) : List ℕ :=
  if c.toNat < 0x10000 then [c.toNat]
  else [0xD800 + (c.toNat - 0x10000) / 0x400, 0xDC00 + (c.toNat - 0x10000) % 0x400]

/-- The code units of a text: those of its characters, one after the other. -/
def encode (cs : List Char) : List ℕ := cs.flatMap unitsOf

/-- The character is of the basic plane, so that it is one code unit and not a surrogate pair. -/
def Basic (c : Char) : Prop := c.toNat < 0x10000

instance (c : Char) : Decidable (Basic c) := inferInstanceAs (Decidable (_ < _))

/-- The elements from position `s` up to position `e`, which is not included; nothing where `e` is
not behind `s`. -/
def slice {α : Type*} (xs : List α) (s e : ℕ) : List α := (xs.take e).drop s

/-- A narrower slice is a piece of a wider one. -/
theorem slice_of_le {α : Type*} (xs : List α) {s e s' e' : ℕ} (hs : s ≤ s') (he : e' ≤ e) :
    slice xs s' e' <:+: slice xs s e := by
  unfold slice
  have hfront : (xs.take e').drop s' <:+ (xs.take e').drop s := List.drop_suffix_drop_left _ hs
  have hback : (xs.take e').drop s <+: (xs.take e).drop s :=
    List.IsPrefix.drop (List.take_prefix_take_left he) s
  exact hfront.isInfix.trans hback.isInfix

@[simp] theorem encode_nil : encode [] = [] := rfl

@[simp] theorem encode_cons (c : Char) (cs : List Char) :
    encode (c :: cs) = unitsOf c ++ encode cs := rfl

theorem encode_append (cs ds : List Char) : encode (cs ++ ds) = encode cs ++ encode ds :=
  List.flatMap_append

theorem unitsOf_basic {c : Char} (h : Basic c) : unitsOf c = [c.toNat] := if_pos h

theorem length_unitsOf {c : Char} (h : ¬ Basic c) : (unitsOf c).length = 2 := by
  have hunits : unitsOf c =
      [0xD800 + (c.toNat - 0x10000) / 0x400, 0xDC00 + (c.toNat - 0x10000) % 0x400] := if_neg h
  rw [hunits]
  rfl

theorem length_unitsOf_pos (c : Char) : 0 < (unitsOf c).length := by
  unfold unitsOf
  split <;> simp

theorem length_le_encode (cs : List Char) : cs.length ≤ (encode cs).length := by
  induction cs with
  | nil => exact Nat.le_refl 0
  | cons c cs ih =>
    have := length_unitsOf_pos c
    rw [encode_cons, List.length_append, List.length_cons]
    omega

/-! ### The units determine the text -/

/-- A character is not in the range of the surrogates. -/
theorem not_surrogate (c : Char) : c.toNat < 0xD800 ∨ 0xE000 ≤ c.toNat := by
  have h := c.valid
  unfold UInt32.isValidChar Nat.isValidChar at h
  have : c.toNat = c.val.toNat := rfl
  omega

theorem toNat_lt (c : Char) : c.toNat < 0x110000 := by
  have h := c.valid
  unfold UInt32.isValidChar Nat.isValidChar at h
  have : c.toNat = c.val.toNat := rfl
  omega

/-- The character of a unit; a lone surrogate is read as the replacement character. -/
def charOfUnit (u : ℕ) : Char := if 0xD800 ≤ u ∧ u < 0xE000 then Char.ofNat 0xFFFD else Char.ofNat u

/-- The text of units: a high surrogate and a low one are a character. -/
def decode : List ℕ → List Char
  | [] => []
  | [u] => [charOfUnit u]
  | u :: l :: rest =>
      if (0xD800 ≤ u ∧ u < 0xDC00) ∧ 0xDC00 ≤ l ∧ l < 0xE000 then
        Char.ofNat (0x10000 + (u - 0xD800) * 0x400 + (l - 0xDC00)) :: decode rest
      else charOfUnit u :: decode (l :: rest)

theorem decode_unitsOf_append (c : Char) (us : List ℕ) :
    decode (unitsOf c ++ us) = c :: decode us := by
  have hc := not_surrogate c
  have hc' := toNat_lt c
  have hself : Char.ofNat c.toNat = c := Char.ofNat_toNat c
  by_cases hbasic : Basic c
  · have hunit : charOfUnit c.toNat = c := by
      rw [charOfUnit, if_neg (by omega), hself]
    rw [unitsOf_basic hbasic, List.singleton_append]
    cases us with
    | nil => rw [decode, decode, hunit]
    | cons l us => rw [decode, if_neg (by omega), hunit]
  · have hhigh : 0x10000 ≤ c.toNat := Nat.le_of_not_lt hbasic
    have hunits : unitsOf c =
        [0xD800 + (c.toNat - 0x10000) / 0x400, 0xDC00 + (c.toNat - 0x10000) % 0x400] :=
      if_neg hbasic
    rw [hunits, List.cons_append, List.cons_append, List.nil_append, decode, if_pos (by omega)]
    have hpair : 0x10000 + (0xD800 + (c.toNat - 0x10000) / 0x400 - 0xD800) * 0x400 +
        (0xDC00 + (c.toNat - 0x10000) % 0x400 - 0xDC00) = c.toNat := by omega
    rw [hpair, hself]

/-- The units of a text are read as the text. -/
theorem decode_encode (cs : List Char) : decode (encode cs) = cs := by
  induction cs with
  | nil => rfl
  | cons c cs ih => rw [encode_cons, decode_unitsOf_append, ih]

/-- **The units determine the text**: no two texts have the same code units. -/
theorem encode_injective : Function.Injective encode :=
  Function.LeftInverse.injective decode_encode

/-! ### Slices -/

/-- A text of the basic plane has as many units as characters. -/
theorem encode_basic {cs : List Char} (h : ∀ c ∈ cs, Basic c) :
    encode cs = cs.map Char.toNat := by
  induction cs with
  | nil => rfl
  | cons c cs ih =>
    rw [encode_cons, unitsOf_basic (h c (List.mem_cons_self ..)),
      ih fun d hd => h d (List.mem_cons_of_mem c hd)]
    rfl

/-- **A slice of the units** up to a point with no pair before it is the encoding
of the slice of the characters. -/
theorem slice_encode {cs : List Char} {s e : ℕ} (he : e ≤ cs.length)
    (h : ∀ c ∈ cs.take e, Basic c) : slice (encode cs) s e = encode (slice cs s e) := by
  have hsplit : encode cs = encode (cs.take e) ++ encode (cs.drop e) := by
    rw [← encode_append, List.take_append_drop]
  have hlen : (encode (cs.take e)).length = e := by
    rw [encode_basic h, List.length_map, List.length_take]
    omega
  have htake : (encode cs).take e = (cs.take e).map Char.toNat := by
    rw [hsplit, List.take_append_of_le_length (by omega), List.take_of_length_le (by omega),
      encode_basic h]
  have hslice : ∀ c ∈ slice cs s e, Basic c := fun c hc => h c (List.mem_of_mem_drop hc)
  rw [encode_basic hslice]
  unfold slice
  rw [htake, List.map_drop]

/-- The three parts of a list at two positions make it up. -/
theorem slice_parts {α : Type*} (xs : List α) {s e : ℕ} (h : s ≤ e) :
    xs.take s ++ slice xs s e ++ xs.drop e = xs := by
  have htake : xs.take s = (xs.take e).take s := by
    rw [List.take_take, Nat.min_eq_left h]
  unfold slice
  rw [htake, List.take_append_drop, List.take_append_drop]

theorem length_slice_le {α : Type*} (xs : List α) (s e : ℕ) : (slice xs s e).length ≤ e - s := by
  unfold slice
  rw [List.length_drop, List.length_take]
  omega

/-- One position is one element. -/
theorem slice_succ {α : Type*} {xs : List α} {i : ℕ} (h : i < xs.length) :
    slice xs i (i + 1) = [xs[i]] := by
  unfold slice
  rw [List.take_succ_eq_append_getElem h, List.drop_append]
  simp [Nat.min_eq_left (Nat.le_of_lt h)]

end Utf16
