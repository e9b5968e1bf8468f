import Mathlib.Data.List.DropRight
import Mathlib.Data.List.TakeWhile

/-!
# Trimming a list at both ends

The list without the items at its two ends that a predicate drops, as `strip` makes a
text of a text.  What is dropped is a prefix and a suffix, so what stands between two
items that stay is never lost.

## Main definitions

* `Trim.trim` — the trimmed list.
* `Trim.Trimmed` — nothing is left to drop.

## Main results

* `Trim.trim_split` — the list is its trimmed self between two dropped ends.
* `Trim.trimmed_trim`, `Trim.trim_of_trimmed` — trimming leaves nothing to drop, and a
  list with nothing to drop as it is.
* `Trim.trim_append_dropped` — what is dropped at the ends does not matter.
* `Trim.slice_trim` — a piece of a list between two items that stay is inside its
  trimmed self.
* `Trim.trim_of_piece` — the trimmed piece of a list is a piece of the trimmed list.
-/

namespace Trim

variable {α : Type*} {p : α → Bool} {l m : List α}

/-- The list without the items that `p` drops at its two ends. Items inside stay, whether `p` drops
them or not. -/
def trim (p : α → Bool) (l : List α) : List α := (l.dropWhile p).rdropWhile p

/-- `p` drops neither the first item nor the last, so there is nothing left to trim. -/
structure Trimmed (p : α → Bool) (l : List α) : Prop where
  head : ∀ a rest, l = a :: rest → p a = false
  last : ∀ init a, l = init ++ [a] → p a = false

/-- The list is its trimmed self between two ends that are dropped. -/
theorem trim_split (p : α → Bool) (l : List α) :
    ∃ pre post, l = pre ++ trim p l ++ post ∧ (∀ a ∈ pre, p a = true) ∧
      ∀ a ∈ post, p a = true := by
  refine ⟨l.takeWhile p, (l.dropWhile p).rtakeWhile p, ?_, ?_, ?_⟩
  · unfold trim
    rw [List.append_assoc, List.rdropWhile_append_rtakeWhile, List.takeWhile_append_dropWhile]
  · exact fun a ha => List.mem_takeWhile_imp ha
  · exact fun a ha => List.mem_rtakeWhile_imp ha

theorem trim_eq_nil_iff : trim p l = [] ↔ ∀ a ∈ l, p a = true := by
  unfold trim
  rw [List.rdropWhile_eq_nil_iff]
  constructor
  · intro h
    -- were something left of the front, its first item would stay
    have hnil : l.dropWhile p = [] := by
      by_contra hne
      have hstays := List.head_dropWhile_not p hne
      rw [h _ (List.head_mem hne)] at hstays
      cases hstays
    exact List.dropWhile_eq_nil_iff.mp hnil
  · exact fun h a ha => h a (List.dropWhile_subset _ ha)

/-- What trimming leaves has an item at either end that `p` does not drop, or is empty. -/
theorem trimmed_trim (p : α → Bool) (l : List α) : Trimmed p (trim p l) := by
  constructor
  · intro a rest h
    have hprefix : trim p l <+: l.dropWhile p := List.rdropWhile_prefix p _
    rw [h] at hprefix
    obtain ⟨post, hpost⟩ := hprefix
    have hne : l.dropWhile p ≠ [] := by
      rw [← hpost]
      exact List.cons_ne_nil _ _
    have hhead := List.head_dropWhile_not p hne
    simpa only [← hpost, List.cons_append, List.head_cons] using hhead
  · intro init a h
    have hne : (l.dropWhile p).rdropWhile p ≠ [] := by
      change trim p l ≠ []
      rw [h]
      simp
    have hlast := List.rdropWhile_last_not p _ hne
    have hsame : ((l.dropWhile p).rdropWhile p).getLast hne = a := by
      have h' : (l.dropWhile p).rdropWhile p = init ++ [a] := h
      simp only [h', List.getLast_concat]
    rw [hsame] at hlast
    simpa using hlast

/-- A list with nothing to drop at its ends is its own trimming. -/
theorem trim_of_trimmed (h : Trimmed p l) : trim p l = l := by
  have hdrop : l.dropWhile p = l := by
    cases l with
    | nil => rfl
    | cons a rest =>
      rw [List.dropWhile_cons, h.head a rest rfl]
      rfl
  unfold trim
  rw [hdrop, List.rdropWhile_eq_self_iff]
  intro hne
  have hlast := h.last l.dropLast (l.getLast hne) (List.dropLast_append_getLast hne).symm
  rw [hlast]
  decide

theorem trim_idem (p : α → Bool) (l : List α) : trim p (trim p l) = trim p l :=
  trim_of_trimmed (trimmed_trim p l)

/-- What is dropped in front does not matter. -/
theorem trim_dropped_append {pre : List α} (h : ∀ a ∈ pre, p a = true) :
    trim p (pre ++ l) = trim p l := by
  unfold trim
  rw [List.dropWhile_append, List.dropWhile_eq_nil_iff.mpr h, List.isEmpty_nil, if_pos rfl]

/-- Items that `p` drops change nothing when they are appended behind a list, as they change nothing
in front of it. -/
theorem trim_append_dropped {post : List α} (h : ∀ a ∈ post, p a = true) :
    trim p (l ++ post) = trim p l := by
  unfold trim
  rw [List.dropWhile_append]
  split_ifs with hfront
  · rw [List.isEmpty_iff.mp hfront, List.dropWhile_eq_nil_iff.mpr h]
  · unfold List.rdropWhile
    rw [List.reverse_append, List.dropWhile_append,
      List.dropWhile_eq_nil_iff.mpr fun a ha => h a (List.mem_reverse.mp ha), List.isEmpty_nil,
      if_pos rfl]

/-- Between two lists with nothing to drop anything may stand. -/
theorem Trimmed.append (hl : Trimmed p l) (hm : Trimmed p m) (hlne : l ≠ []) (hmne : m ≠ [])
    (sep : List α) : Trimmed p (l ++ sep ++ m) := by
  constructor
  · intro a rest h
    cases l with
    | nil => exact absurd rfl hlne
    | cons b l =>
      obtain ⟨rfl, -⟩ := List.cons.inj h
      exact hl.head _ _ rfl
  · intro init a h
    obtain ⟨init', b, rfl⟩ : ∃ init' b, m = init' ++ [b] :=
      ⟨_, _, (List.dropLast_append_getLast hmne).symm⟩
    rw [← List.append_assoc] at h
    obtain ⟨-, hlast⟩ := List.append_inj' h rfl
    obtain rfl := (List.cons.inj hlast).1
    exact hm.last _ _ rfl

/-- Lists with nothing to drop, joined. -/
theorem trimmed_intercalate (sep : List α) : ∀ {ls : List (List α)},
    (∀ l ∈ ls, Trimmed p l ∧ l ≠ []) → Trimmed p (sep.intercalate ls) := by
  intro ls
  induction ls with
  | nil =>
    refine fun _ => ⟨fun a rest h => ?_, fun init a h => ?_⟩
    · cases h
    · exact absurd h.symm (List.append_ne_nil_of_right_ne_nil init (List.cons_ne_nil a []))
  | cons l rest ih =>
    intro h
    obtain ⟨hl, hlne⟩ := h l (List.mem_cons_self ..)
    have hrest := ih fun m hm => h m (List.mem_cons_of_mem _ hm)
    cases rest with
    | nil => simpa using hl
    | cons m rest =>
      have hmne : m ≠ [] := (h m (List.mem_cons_of_mem _ (List.mem_cons_self ..))).2
      have hne : sep.intercalate (m :: rest) ≠ [] := by
        cases m with
        | nil => exact absurd rfl hmne
        | cons a m => simp
      rw [List.intercalate_cons_cons]
      exact hl.append hrest hlne hne sep

/-- **What stands between two items that stay is not cut off**: the trimmed list is a piece
of the list, and every item that is not dropped lies in it. -/
theorem slice_trim (p : α → Bool) (l : List α) :
    ∃ a n, trim p l = (l.drop a).take n ∧ a + n ≤ l.length ∧
      ∀ (i : ℕ) (hi : i < l.length), p l[i] = false → a ≤ i ∧ i < a + n := by
  obtain ⟨pre, post, hsplit, hpre, hpost⟩ := trim_split p l
  generalize trim p l = mid at hsplit
  subst hsplit
  refine ⟨pre.length, mid.length, by simp, by simp, ?_⟩
  intro i hi hstays
  constructor
  · by_contra hlt
    have hitem : (pre ++ mid ++ post)[i] = pre[i] := by
      simp [show i < pre.length by omega]
    rw [hitem, hpre _ (List.getElem_mem _)] at hstays
    cases hstays
  · by_contra hge
    have hlen : (pre ++ mid).length ≤ i := by
      rw [List.length_append]
      omega
    have hitem : (pre ++ mid ++ post)[i] ∈ post := by
      rw [List.getElem_append_right hlen]
      exact List.getElem_mem _
    rw [hpost _ hitem] at hstays
    cases hstays

/-! ### Pieces -/

theorem dropWhile_of_piece (h : m <:+: l) : m.dropWhile p <:+: l.dropWhile p := by
  obtain ⟨front, back, rfl⟩ := h
  have hback : m.dropWhile p <:+: (m ++ back).dropWhile p := by
    rw [List.dropWhile_append]
    split
    next hnil =>
      rw [List.isEmpty_iff.mp hnil]
      exact (List.nil_prefix).isInfix
    next => exact (List.prefix_append _ _).isInfix
  rw [List.append_assoc, List.dropWhile_append]
  split
  next => exact hback
  next =>
    exact hback.trans ((List.dropWhile_suffix p).isInfix.trans (List.suffix_append _ _).isInfix)

/-- **The trimmed piece of a list is a piece of the trimmed list.** -/
theorem trim_of_piece (h : m <:+: l) : trim p m <:+: trim p l := by
  unfold trim List.rdropWhile
  rw [List.reverse_infix]
  exact dropWhile_of_piece (List.reverse_infix.mpr (dropWhile_of_piece h))

end Trim
