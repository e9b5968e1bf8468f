import Mathlib.Algebra.GroupWithZero.Nat
import Mathlib.Data.List.Induction
import Mathlib.Data.List.Nodup
import Mathlib.Tactic.Common

/-!
# Items gathered by key

A stream of items is gathered into groups, one for each key, in the order in which the
keys first come up.  The first item of a key starts its group, and every later one is
absorbed by it.  So a group is what its own items make of it, however the items of
different keys are mixed; and nothing is gathered twice or lost.

## Main definitions

* `Gatherer` — how groups are started and grow.
* `Gatherer.insert`, `Gatherer.gather` — one item, and all.

## Main results

* `Gatherer.nodup_gather` — the keys of the groups are distinct.
* `Gatherer.eq_foldl_of_mem_gather` — a group is made of the items of its key.
* `Gatherer.sum_insert` — what counts the items of a group counts all items.
* `perm_flatMap_filter` — the parts of a list with the keys given are the list.
-/

namespace Gathered

/-- How items become groups.  A group keeps the key of its items. -/
structure Gatherer (ι γ κ : Type*) where
  key : ι → κ
  groupKey : γ → κ
  start : ι → γ
  absorb : γ → ι → γ
  groupKey_start : ∀ i, groupKey (start i) = key i
  groupKey_absorb : ∀ g i, groupKey (absorb g i) = groupKey g

namespace Gatherer

variable {ι γ κ : Type*} [DecidableEq κ] (G : Gatherer ι γ κ)

/-- An item goes to the group of its key, or starts one at the end. -/
def insert : List γ → ι → List γ
  | [], i => [G.start i]
  | g :: groups, i =>
      if G.groupKey g = G.key i then G.absorb g i :: groups else g :: insert groups i

/-- The groups of a stream of items: each item in turn starts a group of its key, or is absorbed by
the one there. -/
def gather (items : List ι) : List γ := items.foldl G.insert []

@[simp] theorem gather_nil : G.gather [] = [] := rfl

theorem gather_concat (items : List ι) (i : ι) :
    G.gather (items ++ [i]) = G.insert (G.gather items) i :=
  List.foldl_concat ..

/-! ### Keys -/

theorem mem_map_insert {groups : List γ} {i : ι} {k : κ} :
    k ∈ (G.insert groups i).map G.groupKey ↔ k ∈ groups.map G.groupKey ∨ k = G.key i := by
  induction groups with
  | nil => simp [insert, G.groupKey_start]
  | cons g groups ih =>
    unfold insert
    split
    next hkey =>
      simp only [List.map_cons, List.mem_cons, G.groupKey_absorb]
      constructor
      · exact Or.inl
      · rintro (h | rfl)
        · exact h
        · exact Or.inl hkey.symm
    next => rw [List.map_cons, List.mem_cons, ih, List.map_cons, List.mem_cons, or_assoc]

theorem nodup_insert {groups : List γ} (h : (groups.map G.groupKey).Nodup) (i : ι) :
    ((G.insert groups i).map G.groupKey).Nodup := by
  induction groups with
  | nil => simp [insert]
  | cons g groups ih =>
    obtain ⟨hnot, hrest⟩ := List.nodup_cons.mp h
    unfold insert
    split
    next => rwa [List.map_cons, G.groupKey_absorb, ← List.map_cons]
    next hkey =>
      refine List.nodup_cons.mpr ⟨fun hmem => ?_, ih hrest⟩
      rcases G.mem_map_insert.mp hmem with hmem | hsame
      · exact hnot hmem
      · exact hkey hsame

/-- **The keys of the groups are distinct**: no key has its items in two groups. -/
theorem nodup_gather (items : List ι) : ((G.gather items).map G.groupKey).Nodup := by
  induction items using List.reverseRecOn with
  | nil => exact List.nodup_nil
  | append_singleton items i ih =>
    rw [gather_concat]
    exact G.nodup_insert ih i

theorem mem_keys_gather {items : List ι} {k : κ} :
    k ∈ (G.gather items).map G.groupKey ↔ k ∈ items.map G.key := by
  induction items using List.reverseRecOn with
  | nil => exact Iff.rfl
  | append_singleton items i ih =>
    rw [gather_concat, mem_map_insert, ih, List.map_append, List.mem_append, List.map_singleton,
      List.mem_singleton]

/-! ### Groups -/

/-- A group after an item is a group of another key as before, the group that absorbed the
item, or the group the item started. -/
theorem mem_insert {groups : List γ} (h : (groups.map G.groupKey).Nodup) {i : ι} {g : γ}
    (hg : g ∈ G.insert groups i) :
    (g ∈ groups ∧ G.groupKey g ≠ G.key i) ∨
      (∃ g' ∈ groups, G.groupKey g' = G.key i ∧ g = G.absorb g' i) ∨
      (G.key i ∉ groups.map G.groupKey ∧ g = G.start i) := by
  induction groups with
  | nil => exact .inr (.inr ⟨List.not_mem_nil, List.mem_singleton.mp hg⟩)
  | cons g' groups ih =>
    obtain ⟨hnot, hrest⟩ := List.nodup_cons.mp h
    unfold insert at hg
    split at hg
    -- the item goes into the first group, and `g` is that group or one of the others
    next hkey =>
      rcases List.mem_cons.mp hg with rfl | hg
      · exact .inr (.inl ⟨g', List.mem_cons_self .., hkey, rfl⟩)
      · refine .inl ⟨List.mem_cons_of_mem _ hg, fun hsame => hnot ?_⟩
        rw [hkey, ← hsame]
        exact List.mem_map_of_mem hg
    -- the first group stays, and the item goes on to the others
    next hkey =>
      rcases List.mem_cons.mp hg with rfl | hg
      · exact .inl ⟨List.mem_cons_self .., hkey⟩
      · rcases ih hrest hg with ⟨hg, hother⟩ | ⟨g'', hg'', hsame, rfl⟩ | ⟨hnew, rfl⟩
        · exact .inl ⟨List.mem_cons_of_mem _ hg, hother⟩
        · exact .inr (.inl ⟨g'', List.mem_cons_of_mem _ hg'', hsame, rfl⟩)
        · refine .inr (.inr ⟨fun hmem => ?_, rfl⟩)
          rcases List.mem_cons.mp hmem with hsame | hmem
          · exact hkey hsame.symm
          · exact hnew hmem

/-- **A group is made of the items of its key**, in their order. -/
theorem eq_foldl_of_mem_gather {items : List ι} {g : γ} (hg : g ∈ G.gather items) :
    ∃ first rest, items.filter (fun i => G.key i == G.groupKey g) = first :: rest ∧
      g = rest.foldl G.absorb (G.start first) := by
  -- the induction is on the last item: the groups before it are those of the items before it
  induction items using List.reverseRecOn generalizing g with
  | nil => cases hg
  | append_singleton items i ih =>
    rw [gather_concat] at hg
    rw [List.filter_append]
    rcases G.mem_insert (G.nodup_gather items) hg with
      ⟨hg, hother⟩ | ⟨g', hg', hsame, rfl⟩ | ⟨hnew, rfl⟩
    · obtain ⟨first, rest, hfilter, hmade⟩ := ih hg
      rw [List.filter_cons_of_neg (by simpa using hother.symm), List.filter_nil, List.append_nil]
      exact ⟨first, rest, hfilter, hmade⟩
    · obtain ⟨first, rest, hfilter, hmade⟩ := ih hg'
      rw [G.groupKey_absorb, hfilter, List.filter_cons_of_pos (by simpa using hsame.symm),
        List.filter_nil]
      refine ⟨first, rest ++ [i], rfl, ?_⟩
      rw [List.foldl_concat, ← hmade]
    -- a new key: no item before it has this key
    · have hnone : items.filter (fun j => G.key j == G.groupKey (G.start i)) = [] := by
        rw [List.filter_eq_nil_iff]
        intro j hj hsame
        rw [beq_iff_eq, G.groupKey_start] at hsame
        exact hnew (G.mem_keys_gather.mpr (hsame ▸ List.mem_map_of_mem hj))
      rw [hnone, List.filter_cons_of_pos (by simp [G.groupKey_start]), List.filter_nil]
      exact ⟨i, [], rfl, rfl⟩

/-- **What counts the items of a group counts all items**: when a new group counts one and every
item absorbed adds one, so does an insertion to the sum. -/
theorem sum_insert {count : γ → ℕ} {i : ι} (hstart : count (G.start i) = 1)
    (habsorb : ∀ g, count (G.absorb g i) = count g + 1) (groups : List γ) :
    ((G.insert groups i).map count).sum = (groups.map count).sum + 1 := by
  induction groups with
  | nil => simp [insert, hstart]
  | cons g groups ih =>
    unfold insert
    split
    next =>
      rw [List.map_cons, List.sum_cons, List.map_cons, List.sum_cons, habsorb]
      omega
    next =>
      rw [List.map_cons, List.sum_cons, ih, List.map_cons, List.sum_cons]
      omega

end Gatherer

/-! ### Parts of a list -/

variable {ε κ : Type*} [DecidableEq κ] {key : ε → κ}

/-- **The parts of a list with the keys given are the list**, when the keys are distinct and
every item has one of them. -/
theorem perm_flatMap_filter : ∀ {keys : List κ} {xs : List ε}, keys.Nodup →
    (∀ x ∈ xs, key x ∈ keys) → (keys.flatMap fun k => xs.filter fun x => key x == k).Perm xs := by
  intro keys
  induction keys with
  | nil =>
    intro xs _ hxs
    rw [List.eq_nil_iff_forall_not_mem.mpr fun x hx => List.not_mem_nil (hxs x hx)]
    exact .refl _
  | cons k keys ih =>
    intro xs hnodup hxs
    obtain ⟨hnot, hrest⟩ := List.nodup_cons.mp hnodup
    -- the items of the first key are set apart, and the others have the other keys
    have hother : ∀ x ∈ xs.filter (fun x => !(key x == k)), key x ∈ keys := by
      intro x hx
      obtain ⟨hx, hne⟩ := List.mem_filter.mp hx
      exact (List.mem_cons.mp (hxs x hx)).resolve_left (by simpa using hne)
    -- setting them apart changes no part of another key
    have hsame : (keys.flatMap fun k' => (xs.filter fun x => !(key x == k)).filter
        fun x => key x == k') = keys.flatMap fun k' => xs.filter fun x => key x == k' := by
      refine List.flatMap_congr fun k' hk' => ?_
      rw [List.filter_filter]
      refine List.filter_congr fun x _ => ?_
      by_cases hx : key x = k'
      · have hne : k' ≠ k := fun h => hnot (h ▸ hk')
        simp [hx, hne]
      · simp [hx]
    rw [List.flatMap_cons, ← hsame]
    exact ((ih hrest hother).append_left _).trans (List.filter_append_perm _ xs)

end Gathered
