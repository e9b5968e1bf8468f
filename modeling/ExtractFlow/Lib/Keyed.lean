import Mathlib.Data.List.Forall2
import Mathlib.Data.List.Nodup

/-!
# Lists with distinct keys

A list whose elements have distinct keys is a dictionary: the element of a key is
found wherever the search starts, and two lists related element by element, with
equal keys, find related elements.

## Main results

* `Keyed.find?_eq`, `Keyed.find?_reverse_eq` — the element of a key, from either end.
* `Keyed.find?_of_forall₂` — the elements of a key in two related lists.
* `Keyed.find?_related` — what two related lists have first under a key.
* `Keyed.find?_eq_none_iff` — a key that no element has.
* `Keyed.filter_eq` — the elements of a key.
* `Keyed.length_filter_not_add` — how many elements have none of some keys.
-/

namespace Keyed

variable {α β κ : Type*} [DecidableEq κ] {key : α → κ} {key' : β → κ}

/-- The element of a key is the only one: a search for its key from the front finds it. -/
theorem find?_eq {xs : List α} (hnodup : (xs.map key).Nodup) {x : α} (hx : x ∈ xs) :
    (xs.find? fun y => key y == key x) = some x := by
  cases hfind : xs.find? fun y => key y == key x with
  | none =>
    have := List.find?_eq_none.mp hfind x hx
    simp at this
  | some y =>
    have hkey : key y = key x := by simpa using List.find?_some hfind
    rw [List.inj_on_of_nodup_map hnodup (List.mem_of_find?_eq_some hfind) hx hkey]

/-- A search for the key of an element from the end finds the same element. -/
theorem find?_reverse_eq {xs : List α} (hnodup : (xs.map key).Nodup) {x : α} (hx : x ∈ xs) :
    (xs.reverse.find? fun y => key y == key x) = some x := by
  refine find?_eq ?_ (List.mem_reverse.mpr hx)
  rw [List.map_reverse]
  exact List.nodup_reverse.mpr hnodup

/-- The elements of a key are the one element that has it. -/
theorem filter_eq {xs : List α} (hnodup : (xs.map key).Nodup) {x : α} (hx : x ∈ xs) :
    (xs.filter fun y => key y == key x) = [x] := by
  induction xs with
  | nil => cases hx
  | cons z xs ih =>
    obtain ⟨hnot, hrest⟩ := List.nodup_cons.mp hnodup
    rcases List.mem_cons.mp hx with rfl | hx
    · have hnone : (xs.filter fun y => key y == key x) = [] := by
        rw [List.filter_eq_nil_iff]
        intro y hy hkey
        exact hnot (beq_iff_eq.mp hkey ▸ List.mem_map_of_mem hy)
      rw [List.filter_cons, if_pos (beq_self_eq_true (key x)), hnone]
    · have hne : ¬ (key z == key x) = true := by
        rw [beq_iff_eq]
        intro hkey
        exact hnot (hkey ▸ List.mem_map_of_mem hx)
      rw [List.filter_cons, if_neg hne, ih hrest hx]

/-- A search for a key finds nothing exactly when no element has the key. -/
theorem find?_eq_none_iff {xs : List α} {k : κ} :
    (xs.find? fun y => key y == k) = none ↔ k ∉ xs.map key := by
  rw [List.find?_eq_none, List.mem_map]
  constructor
  · rintro h ⟨x, hx, rfl⟩
    exact h x hx (beq_self_eq_true (key x))
  · intro h x hx
    simp only [beq_iff_eq]
    exact fun hkey => h ⟨x, hx, hkey⟩

/-- The elements without a key of a list of keys, and those keys, are as many as all. -/
theorem length_filter_not_add {xs : List α} (hnodup : (xs.map key).Nodup) {ks : List κ}
    (hks : ks.Nodup) (hsub : ks ⊆ xs.map key) :
    (xs.filter fun x => !ks.contains (key x)).length + ks.length = xs.length := by
  have hkeys : ((xs.filter fun x => ks.contains (key x)).map key).Perm ks := by
    have hfiltered : ((xs.filter fun x => ks.contains (key x)).map key).Nodup :=
      hnodup.sublist (List.filter_sublist.map key)
    refine (List.perm_ext_iff_of_nodup hfiltered hks).mpr fun k => ?_
    constructor
    · intro hk
      obtain ⟨x, hx, rfl⟩ := List.mem_map.mp hk
      exact List.contains_iff_mem.mp (List.mem_filter.mp hx).2
    · intro hk
      obtain ⟨x, hx, rfl⟩ := List.mem_map.mp (hsub hk)
      exact List.mem_map_of_mem (List.mem_filter.mpr ⟨hx, List.contains_iff_mem.mpr hk⟩)
  have hlength := hkeys.length_eq
  rw [List.length_map] at hlength
  have hsplit := List.length_eq_length_filter_add (l := xs) fun x => ks.contains (key x)
  omega

/-- An element of the second of two related lists is related to one of the first. -/
theorem exists_of_mem_right {R : α → β → Prop} {xs : List α} {ys : List β}
    (h : List.Forall₂ R xs ys) {y : β} (hy : y ∈ ys) : ∃ x ∈ xs, R x y := by
  induction h with
  | nil => cases hy
  | @cons a b as bs hab _ ih =>
    rcases List.mem_cons.mp hy with rfl | hy
    · exact ⟨a, List.mem_cons_self .., hab⟩
    · obtain ⟨x, hx, hxy⟩ := ih hy
      exact ⟨x, List.mem_cons_of_mem _ hx, hxy⟩

/-- An element of the first of two related lists is related to one of the second. -/
theorem exists_of_mem_left {R : α → β → Prop} {xs : List α} {ys : List β}
    (h : List.Forall₂ R xs ys) {x : α} (hx : x ∈ xs) : ∃ y ∈ ys, R x y :=
  exists_of_mem_right h.flip hx

omit [DecidableEq κ] in
/-- Related lists whose related elements have equal keys have the same keys. -/
theorem map_eq_of_forall₂ {R : α → β → Prop} (hkey : ∀ a b, R a b → key' b = key a)
    {xs : List α} {ys : List β} (h : List.Forall₂ R xs ys) : ys.map key' = xs.map key := by
  induction h with
  | nil => rfl
  | cons hxy _ ih => rw [List.map_cons, List.map_cons, hkey _ _ hxy, ih]

/-- **The element of a key in the second list is related to that of the first.** -/
theorem find?_of_forall₂ {R : α → β → Prop} (hkey : ∀ a b, R a b → key' b = key a) {xs : List α}
    {ys : List β} (hnodup : (xs.map key).Nodup) (h : List.Forall₂ R xs ys) {x : α} (hx : x ∈ xs) :
    ∃ y, (ys.find? fun z => key' z == key x) = some y ∧ R x y := by
  have hys : (ys.map key').Nodup := by rwa [map_eq_of_forall₂ hkey h]
  obtain ⟨y, hy, hxy⟩ : ∃ y ∈ ys, R x y := by
    clear hnodup hys
    induction h with
    | nil => cases hx
    | @cons a b as bs hab _ ih =>
      rcases List.mem_cons.mp hx with rfl | hx
      · exact ⟨b, List.mem_cons_self .., hab⟩
      · obtain ⟨y, hy, hxy⟩ := ih hx
        exact ⟨y, List.mem_cons_of_mem _ hy, hxy⟩
  refine ⟨y, ?_, hxy⟩
  rw [← hkey x y hxy]
  exact find?_eq hys hy

/-- Two lists related element by element, with equal keys: what a search for a key finds in the one
is related to what it finds in the other, or neither has the key. -/
theorem find?_related {R : α → β → Prop} (hkey : ∀ a b, R a b → key' b = key a) {xs : List α}
    {ys : List β} (h : List.Forall₂ R xs ys) (k : κ) :
    ((xs.find? fun a => key a == k) = none ∧ (ys.find? fun b => key' b == k) = none) ∨
      ∃ x y, (xs.find? fun a => key a == k) = some x ∧ (ys.find? fun b => key' b == k) = some y ∧
        R x y := by
  induction h with
  | nil => exact Or.inl ⟨rfl, rfl⟩
  | @cons a b as bs hab _ ih =>
    by_cases hk : key a = k
    · have hk' : key' b = k := (hkey a b hab).trans hk
      exact Or.inr ⟨a, b, List.find?_cons_of_pos (by simpa using hk),
        List.find?_cons_of_pos (by simpa using hk'), hab⟩
    · have hk' : ¬ key' b = k := fun h => hk ((hkey a b hab).symm.trans h)
      rwa [List.find?_cons_of_neg (by simpa using hk), List.find?_cons_of_neg (by simpa using hk')]

end Keyed
