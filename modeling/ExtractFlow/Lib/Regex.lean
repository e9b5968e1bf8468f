import Mathlib.Data.List.Basic
import Mathlib.Order.Lattice
import Mathlib.Tactic.Common

/-!
# Regular expressions, matched by backtracking

An expression is tried at a position of a text and gives the positions where it may end, the
preferred one first.  The search for all matches goes from left to right and takes the
preferred end.  Which ends there are does not depend on the preference; it depends on the
characters the match runs over and, at word boundaries, on those beside it.

## Main definitions

* `Regex` — expressions with classes of characters, word boundaries and counted repetition.
* `Regex.ends` — where a match may end, in order of preference.
* `Regex.findAll` — the leftmost matches that do not overlap.
* `Regex.consumes`, `Regex.plain` — no match is empty; there is no word boundary.
* `Regex.Within`, `Regex.Starts` — what every character of a match is, and its first.

## Main results

* `Regex.mem_ends_of_agree` — a plain expression matches in a text as in one with the same
  characters there.
* `Regex.exists_findAll` — where a match could start, one of those found runs.
* `Regex.findAll_eq_nil_iff` — when nothing is found.
-/

/-- Regular expressions: classes of characters, word boundaries, sequences, alternatives, and
repetitions, which prefer as many turns as they can take or as few. -/
inductive Regex where
  /-- One character of a class. -/
  | char (members : Char → Bool)
  /-- A word boundary. -/
  | boundary
  | empty
  | seq (r s : Regex)
  | alt (r s : Regex)
  /-- At least so many times, and at most so many if there is a bound. -/
  | many (lazy : Bool) (least : ℕ) (most : Option ℕ) (r : Regex)

namespace Regex

/-- One expression after the other. -/
def all (rs : List Regex) : Regex := rs.foldr seq empty

/-- A character as it is written. -/
def lit (c : Char) : Regex := char (· == c)

/-- Exactly so many times. -/
def exactly (n : ℕ) (r : Regex) : Regex := many false n (some n) r

/-- Once, if possible. -/
def optional (r : Regex) : Regex := many false 0 (some 1) r

/-! ### Matching -/

/-- Exactly so many steps. -/
def times (step : ℕ → List ℕ) : ℕ → ℕ → List ℕ
  | 0, i => [i]
  | n + 1, i => (step i).flatMap (times step n)

/-- So many steps at most: as many as possible first, or as few. -/
def upTo (lazy : Bool) (step : ℕ → List ℕ) : ℕ → ℕ → List ℕ
  | 0, i => [i]
  | n + 1, i =>
      if lazy then i :: (step i).flatMap (upTo lazy step n)
      else (step i).flatMap (upTo lazy step n) ++ [i]

section Matching

variable (word : Char → Bool) (text : List Char)

/-- A letter of a word stands at the position. -/
def wordAt (i : ℕ) : Bool := text[i]?.any word

/-- A word begins or ends at the position. -/
def isBoundary (i : ℕ) : Bool := (decide (0 < i) && wordAt word text (i - 1)) != wordAt word text i

/-- Where a match that starts at the position may end, in the order in which backtracking tries
them. -/
def ends : Regex → ℕ → List ℕ
  | char members, i => if text[i]?.any members then [i + 1] else []
  | boundary, i => if isBoundary word text i then [i] else []
  | empty, i => [i]
  | seq r s, i => (ends r i).flatMap (ends s)
  | alt r s, i => ends r i ++ ends s i
  | many lazy least most r, i =>
      (times (ends r) least i).flatMap
        (upTo lazy (ends r) (most.elim text.length (· - least)))

/-- The matches from the position on. -/
def findFrom (r : Regex) : ℕ → ℕ → List (ℕ × ℕ)
  | 0, _ => []
  | turns + 1, i =>
      match (ends word text r i).head? with
      | some j => (i, j) :: findFrom r turns (max j (i + 1))
      | none => findFrom r turns (i + 1)

/-- **All matches**: the leftmost first, each with its preferred end, and the next one searched for
from there on. -/
def findAll (r : Regex) : List (ℕ × ℕ) := findFrom word text r (text.length + 1) 0

end Matching

/-! ### What a match may be -/

/-- No match is empty: the expression runs over at least one character. -/
def consumes : Regex → Bool
  | char _ => true
  | boundary | empty => false
  | seq r s => consumes r || consumes s
  | alt r s => consumes r && consumes s
  | many _ least _ r => decide (0 < least) && consumes r

/-- There is no word boundary in it, so that what it matches does not depend on the characters
beside the match. -/
def plain : Regex → Bool
  | char _ | empty => true
  | boundary => false
  | seq r s | alt r s => plain r && plain s
  | many _ _ _ r => plain r

/-- Every class of it has only such characters, so a match runs over no others. -/
def Within (P : Char → Prop) : Regex → Prop
  | char members => ∀ c, members c = true → P c
  | boundary | empty => True
  | seq r s | alt r s => Within P r ∧ Within P s
  | many _ _ _ r => Within P r

/-- Every class that a match may start with has only such characters; a class behind a part that may
be empty counts as well. -/
def Starts (P : Char → Prop) : Regex → Prop
  | char members => ∀ c, members c = true → P c
  | boundary | empty => True
  | seq r s => Starts P r ∧ (consumes r = true ∨ Starts P s)
  | alt r s => Starts P r ∧ Starts P s
  | many _ _ _ r => Starts P r

section Shapes

variable {P : Char → Prop} {r : Regex} {rs : List Regex}

theorem within_lit {c : Char} : (lit c).Within P ↔ P c := by
  constructor
  · intro h
    exact h c (beq_self_eq_true c)
  · intro h d hd
    rwa [eq_of_beq hd]

theorem starts_lit {c : Char} : (lit c).Starts P ↔ P c := within_lit

end Shapes

section Steps

variable {step step' : ℕ → List ℕ}

theorem mem_times_succ {n i j : ℕ} :
    j ∈ times step (n + 1) i ↔ ∃ k ∈ step i, j ∈ times step n k := List.mem_flatMap

/-- Up to so many steps: the positions reached by some number of steps within the bound, whether as
many or as few as possible are preferred. -/
theorem mem_upTo {lazy : Bool} : ∀ {n i j : ℕ},
    j ∈ upTo lazy step n i ↔ ∃ k ≤ n, j ∈ times step k i := by
  intro n
  induction n with
  | zero =>
    intro i j
    simp [upTo, times]
  | succ n ih =>
    intro i j
    -- the order of the two parts is the preference; which positions they hold is the same
    have hturn : j ∈ upTo lazy step (n + 1) i ↔
        j = i ∨ ∃ m ∈ step i, j ∈ upTo lazy step n m := by
      have hupTo : upTo lazy step (n + 1) i =
          if lazy then i :: (step i).flatMap (upTo lazy step n)
          else (step i).flatMap (upTo lazy step n) ++ [i] := rfl
      rw [hupTo]
      cases lazy <;> simp [or_comm]
    rw [hturn]
    constructor
    · rintro (rfl | ⟨m, hm, hj⟩)
      · exact ⟨0, Nat.zero_le _, List.mem_singleton_self _⟩
      · obtain ⟨k, hk, hj⟩ := ih.mp hj
        exact ⟨k + 1, Nat.succ_le_succ hk, mem_times_succ.mpr ⟨m, hm, hj⟩⟩
    · rintro ⟨k, hk, hj⟩
      cases k with
      | zero => exact Or.inl (List.mem_singleton.mp hj)
      | succ k =>
        obtain ⟨m, hm, hj⟩ := mem_times_succ.mp hj
        exact Or.inr ⟨m, hm, ih.mpr ⟨k, Nat.le_of_succ_le_succ hk, hj⟩⟩

/-- Steps that go nowhere back. -/
theorem le_of_mem_times (hstep : ∀ i, ∀ j ∈ step i, i ≤ j) : ∀ {n i j : ℕ},
    j ∈ times step n i → i ≤ j := by
  intro n
  induction n with
  | zero => intro i j hj; exact le_of_eq (List.mem_singleton.mp hj).symm
  | succ n ih =>
    intro i j hj
    obtain ⟨k, hk, hj⟩ := mem_times_succ.mp hj
    exact le_trans (hstep i k hk) (ih hj)

/-- Steps that go on. -/
theorem lt_of_mem_times (hstep : ∀ i, ∀ j ∈ step i, i < j) : ∀ {n i j : ℕ}, 0 < n →
    j ∈ times step n i → i < j := by
  intro n i j hn hj
  cases n with
  | zero => exact absurd hn (Nat.lt_irrefl 0)
  | succ n =>
    obtain ⟨k, hk, hj⟩ := mem_times_succ.mp hj
    exact lt_of_lt_of_le (hstep i k hk)
      (le_of_mem_times (fun i j hj => Nat.le_of_lt (hstep i j hj)) hj)

/-- Steps that stay below a bound. -/
theorem mem_times_le {bound : ℕ} (hstep : ∀ i, ∀ j ∈ step i, j ≤ max i bound) : ∀ {n i j : ℕ},
    j ∈ times step n i → j ≤ max i bound := by
  intro n
  induction n with
  | zero => intro i j hj; exact (List.mem_singleton.mp hj) ▸ le_max_left ..
  | succ n ih =>
    intro i j hj
    obtain ⟨k, hk, hj⟩ := mem_times_succ.mp hj
    exact le_trans (ih hj) (max_le (hstep i k hk) (le_max_right ..))

/-- What holds of all positions a step goes over holds of those that many steps go over. -/
theorem forall_of_mem_times {Q : ℕ → Prop}
    (hstep : ∀ i, ∀ j ∈ step i, ∀ k, i ≤ k → k < j → Q k) : ∀ {n i j : ℕ},
    j ∈ times step n i → ∀ k, i ≤ k → k < j → Q k := by
  intro n
  induction n with
  | zero =>
    intro i j hj k hik hkj
    obtain rfl := List.mem_singleton.mp hj
    omega
  | succ n ih =>
    intro i j hj k hik hkj
    obtain ⟨m, hm, hj⟩ := mem_times_succ.mp hj
    by_cases hkm : k < m
    · exact hstep i m hm k hik hkm
    · exact ih hj k (by omega) hkj

/-- What holds where a step starts that goes on holds where such steps start. -/
theorem of_mem_times {Q : ℕ → Prop} (hle : ∀ i, ∀ j ∈ step i, i ≤ j)
    (hstep : ∀ i, ∀ j ∈ step i, i < j → Q i) : ∀ {n i j : ℕ},
    j ∈ times step n i → i < j → Q i := by
  intro n
  induction n with
  | zero =>
    intro i j hj hij
    obtain rfl := List.mem_singleton.mp hj
    omega
  | succ n ih =>
    intro i j hj hij
    obtain ⟨m, hm, hj⟩ := mem_times_succ.mp hj
    rcases Nat.lt_or_eq_of_le (hle i m hm) with him | rfl
    · exact hstep i m hm him
    · exact ih hj hij

/-- Steps within a stretch are steps of whatever has them there. -/
theorem mem_times_of_agree {a b : ℕ} (hle : ∀ i, ∀ j ∈ step i, i ≤ j)
    (hagree : ∀ i j, a ≤ i → j ≤ b → j ∈ step i → j ∈ step' i) : ∀ {n i j : ℕ}, a ≤ i → j ≤ b →
      j ∈ times step n i → j ∈ times step' n i := by
  intro n
  induction n with
  | zero => exact fun _ _ hj => hj
  | succ n ih =>
    intro i j hi hj hmem
    obtain ⟨k, hk, hmem⟩ := mem_times_succ.mp hmem
    have hik := hle i k hk
    have hkj := le_of_mem_times hle hmem
    exact mem_times_succ.mpr
      ⟨k, hagree i k hi (le_trans hkj hj) hk, ih (le_trans hi hik) hj hmem⟩

end Steps

section Ends

variable {word : Char → Bool} {text text' : List Char} {r : Regex} {i j : ℕ}

theorem mem_ends_seq {s : Regex} :
    j ∈ ends word text (seq r s) i ↔ ∃ k ∈ ends word text r i, j ∈ ends word text s k :=
  List.mem_flatMap

theorem mem_ends_alt {s : Regex} :
    j ∈ ends word text (alt r s) i ↔ j ∈ ends word text r i ∨ j ∈ ends word text s i :=
  List.mem_append

theorem mem_ends_boundary :
    j ∈ ends word text boundary i ↔ j = i ∧ isBoundary word text i = true := by
  unfold ends
  split
  · next h => simp [h]
  · next h => simp [h]

theorem mem_ends_char {members : Char → Bool} :
    j ∈ ends word text (char members) i ↔ j = i + 1 ∧ text[i]?.any members = true := by
  unfold ends
  split
  · next h => simp [h]
  · next h => simp [h]

theorem mem_ends_many {lazy : Bool} {least : ℕ} {most : Option ℕ} :
    j ∈ ends word text (many lazy least most r) i ↔
      ∃ k ∈ times (ends word text r) least i,
        ∃ n ≤ most.elim text.length (· - least), j ∈ times (ends word text r) n k := by
  have hmany : j ∈ ends word text (many lazy least most r) i ↔
      ∃ k ∈ times (ends word text r) least i,
        j ∈ upTo lazy (ends word text r) (most.elim text.length (· - least)) k := List.mem_flatMap
  rw [hmany]
  simp only [mem_upTo]

/-- A match does not end before it starts. -/
theorem le_of_mem_ends : ∀ {r : Regex} {i j : ℕ}, j ∈ ends word text r i → i ≤ j := by
  intro r
  induction r with
  | char members => intro i j hj; exact (mem_ends_char.mp hj).1 ▸ Nat.le_succ i
  | boundary => intro i j hj; exact le_of_eq (mem_ends_boundary.mp hj).1.symm
  | empty => intro i j hj; exact le_of_eq (List.mem_singleton.mp hj).symm
  | seq r s ihr ihs =>
    intro i j hj
    obtain ⟨k, hk, hj⟩ := mem_ends_seq.mp hj
    exact le_trans (ihr hk) (ihs hj)
  | alt r s ihr ihs =>
    intro i j hj
    rcases mem_ends_alt.mp hj with hj | hj
    · exact ihr hj
    · exact ihs hj
  | many lazy least most r ih =>
    intro i j hj
    obtain ⟨k, hk, n, -, hj⟩ := mem_ends_many.mp hj
    exact le_trans (le_of_mem_times (fun _ _ => ih) hk) (le_of_mem_times (fun _ _ => ih) hj)

/-- A match ends in the text: it does not run over its end. -/
theorem mem_ends_le : ∀ {r : Regex} {i j : ℕ}, j ∈ ends word text r i →
    j ≤ max i text.length := by
  intro r
  induction r with
  | char members =>
    intro i j hj
    obtain ⟨rfl, hany⟩ := mem_ends_char.mp hj
    obtain ⟨c, hc, -⟩ := Option.any_eq_true _ _ |>.mp hany
    obtain ⟨hi, -⟩ := List.getElem?_eq_some_iff.mp hc
    exact le_trans hi (le_max_right ..)
  | boundary => intro i j hj; exact (mem_ends_boundary.mp hj).1 ▸ le_max_left ..
  | empty => intro i j hj; exact (List.mem_singleton.mp hj) ▸ le_max_left ..
  | seq r s ihr ihs =>
    intro i j hj
    obtain ⟨k, hk, hj⟩ := mem_ends_seq.mp hj
    exact le_trans (ihs hj) (max_le (ihr hk) (le_max_right ..))
  | alt r s ihr ihs =>
    intro i j hj
    rcases mem_ends_alt.mp hj with hj | hj
    · exact ihr hj
    · exact ihs hj
  -- the turns that have to be made, and then those that may
  | many lazy least most r ih =>
    intro i j hj
    obtain ⟨k, hk, n, -, hj⟩ := mem_ends_many.mp hj
    exact le_trans (mem_times_le (fun _ _ => ih) hj)
      (max_le (mem_times_le (fun _ _ => ih) hk) (le_max_right ..))

/-- **A consuming expression goes on**: its matches end behind where they start, so a search for all
of them comes to an end. -/
theorem lt_of_mem_ends : ∀ {r : Regex} {i j : ℕ}, r.consumes = true → j ∈ ends word text r i →
    i < j := by
  intro r
  induction r with
  | char members => intro i j _ hj; exact (mem_ends_char.mp hj).1 ▸ Nat.lt_succ_self i
  | boundary => intro i j h; cases h
  | empty => intro i j h; cases h
  -- one of the two parts consumes, and the other does not go back
  | seq r s ihr ihs =>
    intro i j h hj
    obtain ⟨k, hk, hj⟩ := mem_ends_seq.mp hj
    rcases Bool.or_eq_true _ _ |>.mp h with h | h
    · exact lt_of_lt_of_le (ihr h hk) (le_of_mem_ends hj)
    · exact lt_of_le_of_lt (le_of_mem_ends hk) (ihs h hj)
  | alt r s ihr ihs =>
    intro i j h hj
    obtain ⟨hr, hs⟩ := Bool.and_eq_true _ _ |>.mp h
    rcases mem_ends_alt.mp hj with hj | hj
    · exact ihr hr hj
    · exact ihs hs hj
  | many lazy least most r ih =>
    intro i j h hj
    obtain ⟨hleast, hr⟩ := Bool.and_eq_true _ _ |>.mp h
    obtain ⟨k, hk, n, -, hj⟩ := mem_ends_many.mp hj
    exact lt_of_lt_of_le (lt_of_mem_times (fun _ _ => ih hr) (of_decide_eq_true hleast) hk)
      (le_of_mem_times (fun _ _ => le_of_mem_ends) hj)

/-- **A plain expression sees only the characters it runs over**: it matches in another text
of the same length that has them. -/
theorem mem_ends_of_agree {a b : ℕ} (hlength : text.length = text'.length)
    (hagree : ∀ k, a ≤ k → k < b → text[k]? = text'[k]?) : ∀ {r : Regex} {i j : ℕ},
      r.plain = true → a ≤ i → j ≤ b → j ∈ ends word text r i → j ∈ ends word text' r i := by
  intro r
  induction r with
  | char members =>
    intro i j _ hi hj hmem
    obtain ⟨rfl, hany⟩ := mem_ends_char.mp hmem
    exact mem_ends_char.mpr ⟨rfl, (hagree i hi hj) ▸ hany⟩
  -- a word boundary looks beside the match, which `plain` rules out
  | boundary => intro i j h; cases h
  | empty => exact fun _ _ _ hmem => hmem
  | seq r s ihr ihs =>
    intro i j h hi hj hmem
    obtain ⟨hr, hs⟩ := Bool.and_eq_true _ _ |>.mp h
    obtain ⟨k, hk, hmem⟩ := mem_ends_seq.mp hmem
    exact mem_ends_seq.mpr ⟨k, ihr hr hi (le_trans (le_of_mem_ends hmem) hj) hk,
      ihs hs (le_trans hi (le_of_mem_ends hk)) hj hmem⟩
  | alt r s ihr ihs =>
    intro i j h hi hj hmem
    obtain ⟨hr, hs⟩ := Bool.and_eq_true _ _ |>.mp h
    rcases mem_ends_alt.mp hmem with hmem | hmem
    · exact mem_ends_alt.mpr (Or.inl (ihr hr hi hj hmem))
    · exact mem_ends_alt.mpr (Or.inr (ihs hs hi hj hmem))
  | many lazy least most r ih =>
    intro i j h hi hj hmem
    obtain ⟨k, hk, n, hn, hmem⟩ := mem_ends_many.mp hmem
    have hsteps : ∀ {n i j : ℕ}, a ≤ i → j ≤ b → j ∈ times (ends word text r) n i →
        j ∈ times (ends word text' r) n i :=
      mem_times_of_agree (fun _ _ => le_of_mem_ends) fun _ _ => ih h
    have hik := le_of_mem_times (fun _ _ => le_of_mem_ends) hk
    have hkj := le_of_mem_times (fun _ _ => le_of_mem_ends) hmem
    rw [mem_ends_many, ← hlength]
    exact ⟨k, hsteps hi (le_trans hkj hj) hk, n, hn, hsteps (le_trans hi hik) hj hmem⟩

/-- **What every character of a match is**: one of those that the classes of the expression have. -/
theorem forall_of_mem_ends {P : Char → Prop} : ∀ {r : Regex} {i j : ℕ}, r.Within P →
    j ∈ ends word text r i → ∀ k, i ≤ k → k < j → ∃ c ∈ text[k]?, P c := by
  intro r
  induction r with
  | char members =>
    intro i j h hj k hik hkj
    obtain ⟨rfl, hany⟩ := mem_ends_char.mp hj
    obtain rfl : k = i := by omega
    obtain ⟨c, hc, hmember⟩ := Option.any_eq_true _ _ |>.mp hany
    exact ⟨c, hc, h c hmember⟩
  | boundary =>
    intro i j _ hj k hik hkj
    obtain ⟨rfl, -⟩ := mem_ends_boundary.mp hj
    omega
  | empty =>
    intro i j _ hj k hik hkj
    obtain rfl := List.mem_singleton.mp hj
    omega
  | seq r s ihr ihs =>
    intro i j h hj k hik hkj
    obtain ⟨m, hm, hj⟩ := mem_ends_seq.mp hj
    -- the position is in the first part of the match or in the second
    by_cases hkm : k < m
    · exact ihr h.1 hm k hik hkm
    · exact ihs h.2 hj k (by omega) hkj
  | alt r s ihr ihs =>
    intro i j h hj
    rcases mem_ends_alt.mp hj with hj | hj
    · exact ihr h.1 hj
    · exact ihs h.2 hj
  | many lazy least most r ih =>
    intro i j h hj k hik hkj
    obtain ⟨m, hm, n, -, hj⟩ := mem_ends_many.mp hj
    by_cases hkm : k < m
    · exact forall_of_mem_times (fun _ _ => ih h) hm k hik hkm
    · exact forall_of_mem_times (fun _ _ => ih h) hj k (by omega) hkj

/-- **What the first character of a match is**: one of a class the expression may start with, if the
match is not empty. -/
theorem first_of_mem_ends {P : Char → Prop} : ∀ {r : Regex} {i j : ℕ}, r.Starts P →
    j ∈ ends word text r i → i < j → ∃ c ∈ text[i]?, P c := by
  intro r
  induction r with
  | char members =>
    intro i j h hj _
    obtain ⟨c, hc, hmember⟩ := Option.any_eq_true _ _ |>.mp (mem_ends_char.mp hj).2
    exact ⟨c, hc, h c hmember⟩
  | boundary =>
    intro i j _ hj hij
    obtain ⟨rfl, -⟩ := mem_ends_boundary.mp hj
    omega
  | empty =>
    intro i j _ hj hij
    obtain rfl := List.mem_singleton.mp hj
    omega
  | seq r s ihr ihs =>
    intro i j h hj hij
    obtain ⟨k, hk, hj⟩ := mem_ends_seq.mp hj
    -- the first part has the first character, unless it is empty and the second has it
    rcases Nat.lt_or_eq_of_le (le_of_mem_ends hk) with hik | rfl
    · exact ihr h.1 hk hik
    · rcases h.2 with hconsumes | hs
      · exact absurd (lt_of_mem_ends hconsumes hk) (Nat.lt_irrefl _)
      · exact ihs hs hj hij
  | alt r s ihr ihs =>
    intro i j h hj
    rcases mem_ends_alt.mp hj with hj | hj
    · exact ihr h.1 hj
    · exact ihs h.2 hj
  | many lazy least most r ih =>
    intro i j h hj hij
    obtain ⟨k, hk, n, -, hj⟩ := mem_ends_many.mp hj
    rcases Nat.lt_or_eq_of_le (le_of_mem_times (fun _ _ => le_of_mem_ends) hk) with hik | rfl
    · exact of_mem_times (fun _ _ => le_of_mem_ends) (fun _ _ => ih h) hk hik
    · exact of_mem_times (fun _ _ => le_of_mem_ends) (fun _ _ => ih h) hj hij

/-! ### The search -/

/-- Every match found is one. -/
theorem mem_ends_of_mem_findFrom : ∀ {turns start : ℕ} {found : ℕ × ℕ},
    found ∈ findFrom word text r turns start → found.2 ∈ ends word text r found.1 := by
  intro turns
  induction turns with
  | zero => intro start found h; cases h
  | succ turns ih =>
    intro start found h
    unfold findFrom at h
    split at h
    · next j hj =>
      rcases List.mem_cons.mp h with rfl | h
      · exact List.mem_of_head? hj
      · exact ih h
    · exact ih h

/-- The search passes no position where a match could start: one it found runs there. -/
theorem exists_findFrom (hconsumes : r.consumes = true) : ∀ {turns start i : ℕ}, start ≤ i →
    i < start + turns → ends word text r i ≠ [] →
    ∃ found ∈ findFrom word text r turns start, found.1 ≤ i ∧ i < found.2 := by
  intro turns
  induction turns with
  | zero => intro start i hle hlt; omega
  | succ turns ih =>
    intro start i hle hlt hends
    unfold findFrom
    cases hhead : (ends word text r start).head? with
    | some j =>
      have hj := lt_of_mem_ends hconsumes (List.mem_of_head? hhead)
      by_cases hi : i < j
      · exact ⟨(start, j), List.mem_cons_self .., hle, hi⟩
      · have hnext : max j (start + 1) ≤ i := by omega
        obtain ⟨found, hfound, hruns⟩ := ih hnext (by omega) hends
        exact ⟨found, List.mem_cons_of_mem _ hfound, hruns⟩
    | none =>
      have hne : start ≠ i := by
        rintro rfl
        exact hends (List.head?_eq_none_iff.mp hhead)
      exact ih (by omega) (by omega) hends

/-- **Where a match could start, one of those found runs**: the search passes no position of a match
by without a match over it. -/
theorem exists_findAll (hconsumes : r.consumes = true) (hmem : j ∈ ends word text r i) :
    ∃ found ∈ findAll word text r, found.1 ≤ i ∧ i < found.2 := by
  have hlt := lt_of_mem_ends hconsumes hmem
  have hle := mem_ends_le hmem
  exact exists_findFrom hconsumes (Nat.zero_le i) (by omega) (List.ne_nil_of_mem hmem)

/-- **Nothing is found when nothing matches anywhere**, and only then: no match is passed over. -/
theorem findAll_eq_nil_iff (hconsumes : r.consumes = true) :
    findAll word text r = [] ↔ ∀ i j, j ∉ ends word text r i := by
  constructor
  · intro hnil i j hmem
    obtain ⟨found, hfound, -⟩ := exists_findAll hconsumes hmem
    rw [hnil] at hfound
    cases hfound
  · intro hnone
    refine List.eq_nil_iff_forall_not_mem.mpr fun found hfound => ?_
    exact hnone found.1 found.2 (mem_ends_of_mem_findFrom hfound)

end Ends

end Regex
