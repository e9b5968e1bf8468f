import Mathlib.Order.Lattice
import Mathlib.Data.List.Basic

/-!
# The first best item of a list

A left-to-right search that keeps the best item seen, and replaces it only by an
item that is *above* it.  When "above" compares keys in a linear order, the search
returns the first item whose key is maximal.  Nothing need be assumed to leave out
items that never win.

## Main definitions

* `Selection.best` — the search.
* `Selection.IsFirstBest` — above all items before, not below any item behind.

## Main results

* `Selection.best_isFirstBest` — the search finds the first best item.
* `Selection.IsFirstBest.unique` — there is one.
* `Selection.best_filter` — items that lose against the others can be left out.
-/

namespace Selection

variable {α : Type*} {above : α → α → Bool}

/-- Keep the best item seen; an item replaces it when it is above it. -/
def best (above : α → α → Bool) (first : α) (rest : List α) : α :=
  rest.foldl (fun best x => if above x best then x else best) first

@[simp] theorem best_nil (first : α) : best above first [] = first := rfl

theorem best_cons (first x : α) (rest : List α) :
    best above first (x :: rest) = best above (if above x first then x else first) rest := rfl

/-- The item is above all items before it, and no item behind is above it. -/
def IsFirstBest (above : α → α → Bool) (items : List α) (x : α) : Prop :=
  ∃ pre post, items = pre ++ x :: post ∧ (∀ y ∈ pre, above x y = true) ∧
    ∀ y ∈ post, above y x = false

/-! ### The search keeps to the list -/

/-- The best item is one of them. -/
theorem best_mem : ∀ {rest : List α} {first : α}, best above first rest ∈ first :: rest := by
  intro rest
  induction rest with
  | nil => intro first; exact List.mem_cons_self ..
  | cons x rest ih =>
    intro first
    rw [best_cons]
    have hmem : best above (if above x first then x else first) rest ∈
        (if above x first then x else first) :: rest := ih
    rcases List.mem_cons.mp hmem with h | h
    · rw [h]
      split <;> simp
    · exact List.mem_cons_of_mem _ (List.mem_cons_of_mem _ h)

/-- Nothing above the first item: it stays. -/
theorem best_of_forall {first : α} : ∀ {rest : List α}, (∀ x ∈ rest, above x first = false) →
    best above first rest = first := by
  intro rest
  induction rest with
  | nil => intro _; rfl
  | cons x rest ih =>
    intro h
    rw [best_cons, h x (List.mem_cons_self ..), if_neg (by decide)]
    exact ih fun y hy => h y (List.mem_cons_of_mem _ hy)

/-- What decides "above", where it differs, is maximal at the best item. -/
theorem le_best {β : Type*} [LinearOrder β] {m : α → β}
    (hlt : ∀ x y, m y < m x → above x y = true) (hle : ∀ x y, above x y = true → m y ≤ m x) :
    ∀ {rest : List α} {first : α}, ∀ y ∈ first :: rest, m y ≤ m (best above first rest) := by
  intro rest
  induction rest with
  | nil =>
    intro first y hy
    rw [List.mem_singleton.mp hy, best_nil]
  | cons x rest ih =>
    intro first y hy
    rw [best_cons]
    -- the better of the two heads is at least as good as either
    have hheads : m first ≤ m (if above x first then x else first) ∧
        m x ≤ m (if above x first then x else first) := by
      split
      · next h => exact ⟨hle _ _ h, le_rfl⟩
      · next h => exact ⟨le_rfl, not_lt.mp fun hm => h (hlt _ _ hm)⟩
    have hbest : m (if above x first then x else first) ≤
        m (best above (if above x first then x else first) rest) :=
      ih _ (List.mem_cons_self ..)
    rcases List.mem_cons.mp hy with rfl | hy
    · exact le_trans hheads.1 hbest
    · rcases List.mem_cons.mp hy with rfl | hy
      · exact le_trans hheads.2 hbest
      · exact ih _ (List.mem_cons_of_mem _ hy)

/-! ### Leaving items out -/

/-- Behind an item that is kept, what is not kept never wins. -/
theorem best_filter_rest {p : α → Bool} : ∀ {rest : List α} {first : α}, p first = true →
    (∀ x ∈ rest, p x = false → ∀ y, p y = true → above x y = false) →
    best above first rest = best above first (rest.filter p) := by
  intro rest
  induction rest with
  | nil => intro first _ _; rfl
  | cons x rest ih =>
    intro first hfirst hlose
    have hrest := fun y hy => hlose y (List.mem_cons_of_mem _ hy)
    cases hx : p x with
    | true =>
      rw [List.filter_cons_of_pos hx, best_cons, best_cons]
      refine ih ?_ hrest
      split
      · exact hx
      · exact hfirst
    | false =>
      have hbelow := hlose x (List.mem_cons_self ..) hx first hfirst
      rw [List.filter_cons_of_neg (by simp [hx]), best_cons, hbelow, if_neg (by decide)]
      exact ih hfirst hrest

/-- **Items that lose against the others can be left out** of the list: the search finds the same
item without them. -/
theorem best_filter {p : α → Bool} : ∀ {rest : List α} {first kept : α} {others : List α},
    (first :: rest).filter p = kept :: others →
    (∀ x ∈ first :: rest, p x = false → ∀ y, p y = true →
      above x y = false ∧ above y x = true) →
    best above first rest = best above kept others := by
  intro rest
  induction rest with
  | nil =>
    intro first kept others hfilter _
    cases hfirst : p first with
    | true =>
      rw [List.filter_cons_of_pos hfirst] at hfilter
      obtain ⟨rfl, rfl⟩ := List.cons.inj hfilter
      rfl
    | false =>
      rw [List.filter_cons_of_neg (by simp [hfirst])] at hfilter
      cases hfilter
  | cons x rest ih =>
    intro first kept others hfilter hlose
    cases hfirst : p first with
    | true =>
      rw [List.filter_cons_of_pos hfirst] at hfilter
      obtain ⟨rfl, rfl⟩ := List.cons.inj hfilter
      refine best_filter_rest hfirst fun y hy hpy z hpz => ?_
      exact (hlose y (List.mem_cons_of_mem _ hy) hpy z hpz).1
    | false =>
      rw [List.filter_cons_of_neg (by simp [hfirst])] at hfilter
      have hrest : ∀ y ∈ x :: rest, p y = false → ∀ z, p z = true →
          above y z = false ∧ above z y = true :=
        fun y hy => hlose y (List.mem_cons_of_mem _ hy)
      rw [best_cons]
      cases hx : p x with
      | true =>
        -- the first item that is kept replaces whatever was best so far
        rw [(hlose first (List.mem_cons_self ..) hfirst x hx).2, if_pos rfl]
        exact ih hfilter hrest
      | false =>
        split
        · exact ih hfilter hrest
        · rw [List.filter_cons_of_neg (by simp [hx])] at hfilter
          refine ih (by rwa [List.filter_cons_of_neg (by simp [hfirst])]) ?_
          intro y hy
          rcases List.mem_cons.mp hy with rfl | hy
          · exact hlose y (List.mem_cons_self ..)
          · exact hrest y (List.mem_cons_of_mem _ hy)

/-! ### Keys in a linear order -/

section Keys

variable {β : Type*} [LinearOrder β] {key : α → β}

/-- The search by keys finds the first best item: nothing before it has a key as great, and nothing
behind it a greater one. -/
theorem best_isFirstBest : ∀ {rest : List α} {first : α},
    (∀ x ∈ first :: rest, ∀ y ∈ first :: rest, above x y = true ↔ key y < key x) →
    IsFirstBest above (first :: rest) (best above first rest) := by
  intro rest
  induction rest with
  | nil =>
    intro first _
    refine ⟨[], [], rfl, ?_, ?_⟩ <;> exact fun y hy => absurd hy List.not_mem_nil
  | cons x rest ih =>
    intro first hkey
    have hfirst : first ∈ first :: x :: rest := List.mem_cons_self ..
    have hx : x ∈ first :: x :: rest := List.mem_cons_of_mem _ (List.mem_cons_self ..)
    have hrest : ∀ y ∈ rest, y ∈ first :: x :: rest :=
      fun y hy => List.mem_cons_of_mem _ (List.mem_cons_of_mem _ hy)
    rw [best_cons]
    by_cases habove : above x first = true
    · rw [if_pos habove]
      have hsub : ∀ y ∈ x :: rest, y ∈ first :: x :: rest := fun y hy => List.mem_cons_of_mem _ hy
      obtain ⟨pre, post, hsplit, hpre, hpost⟩ :=
        ih fun y hy z hz => hkey y (hsub y hy) z (hsub z hz)
      refine ⟨first :: pre, post, congrArg _ hsplit, ?_, hpost⟩
      intro y hy
      rcases List.mem_cons.mp hy with rfl | hy
      · -- what is left out is below `x`, and the best is `x` or above it
        have hbest := hsub _ (best_mem : best above x rest ∈ x :: rest)
        rw [hkey _ hbest y hfirst]
        have hlt := (hkey x hx y hfirst).mp habove
        cases pre with
        | nil =>
          obtain ⟨hhead, -⟩ := List.cons.inj hsplit
          rwa [← hhead]
        | cons z pre =>
          obtain ⟨rfl, -⟩ := List.cons.inj hsplit
          exact lt_trans hlt ((hkey _ hbest x hx).mp (hpre x (List.mem_cons_self ..)))
      · exact hpre y hy
    · rw [if_neg habove]
      have hsub : ∀ y ∈ first :: rest, y ∈ first :: x :: rest := by
        intro y hy
        rcases List.mem_cons.mp hy with rfl | hy
        · exact hfirst
        · exact hrest y hy
      obtain ⟨pre, post, hsplit, hpre, hpost⟩ :=
        ih fun y hy z hz => hkey y (hsub y hy) z (hsub z hz)
      cases pre with
      | nil =>
        obtain ⟨hhead, htail⟩ := List.cons.inj hsplit
        refine ⟨[], x :: post, by rw [← hhead, ← htail]; rfl, by simp, ?_⟩
        intro y hy
        rcases List.mem_cons.mp hy with rfl | hy
        · rw [← hhead]
          simpa using habove
        · exact hpost y hy
      | cons z pre =>
        obtain ⟨rfl, htail⟩ := List.cons.inj hsplit
        refine ⟨first :: x :: pre, post, congrArg (first :: x :: ·) htail, ?_, hpost⟩
        have hbest := hsub _ (best_mem : best above first rest ∈ first :: rest)
        have hlt := hpre first (List.mem_cons_self ..)
        intro y hy
        rcases List.mem_cons.mp hy with rfl | hy
        · exact hlt
        · rcases List.mem_cons.mp hy with rfl | hy
          · rw [hkey _ hbest y hx]
            refine lt_of_le_of_lt (not_lt.mp ?_) ((hkey _ hbest first hfirst).mp hlt)
            exact fun h => habove ((hkey y hx first hfirst).mpr h)
          · exact hpre y (List.mem_cons_of_mem _ hy)

/-- Nothing is above the first best item. -/
theorem IsFirstBest.not_above {items : List α}
    (hkey : ∀ x ∈ items, ∀ y ∈ items, above x y = true ↔ key y < key x) {x : α}
    (hx : IsFirstBest above items x) : ∀ y ∈ items, above y x = false := by
  obtain ⟨pre, post, rfl, hpre, hpost⟩ := hx
  have hxmem : x ∈ pre ++ x :: post := by simp
  intro y hy
  by_contra hno
  have hyx := (hkey y hy x hxmem).mp (by simpa using hno)
  rcases List.mem_append.mp hy with hmem | hmem
  · exact lt_asymm hyx ((hkey x hxmem y hy).mp (hpre y hmem))
  · rcases List.mem_cons.mp hmem with rfl | hmem
    · exact lt_irrefl _ hyx
    · rw [hpost y hmem] at hno
      exact hno rfl

/-- There is one first best item: of two, neither could stand before the other. -/
theorem IsFirstBest.unique {items : List α}
    (hkey : ∀ x ∈ items, ∀ y ∈ items, above x y = true ↔ key y < key x) {x y : α}
    (hx : IsFirstBest above items x) (hy : IsFirstBest above items y) : x = y := by
  obtain ⟨pre, post, rfl, hpre, hpost⟩ := hx
  obtain ⟨pre', post', hsplit, hpre', hpost'⟩ := hy
  have hymem : y ∈ pre ++ x :: post := by rw [hsplit]; simp
  have hasymm : above x y = true → above y x = true → False := by
    intro hxy hyx
    have hxmem : x ∈ pre ++ x :: post := by simp
    exact lt_asymm ((hkey x hxmem y hymem).mp hxy) ((hkey y hymem x hxmem).mp hyx)
  -- the one that comes first would be below the other, and not below it
  rcases List.append_eq_append_iff.mp hsplit with ⟨mid, rfl, hmid⟩ | ⟨mid, rfl, hmid⟩
  · cases mid with
    | nil => exact (List.cons.inj hmid).1
    | cons z mid =>
      obtain ⟨rfl, rfl⟩ := List.cons.inj hmid
      have hyx := hpre' x (by simp)
      have hno := hpost y (by simp)
      rw [hyx] at hno
      cases hno
  · cases mid with
    | nil => exact (List.cons.inj hmid).1.symm
    | cons z mid =>
      obtain ⟨rfl, rfl⟩ := List.cons.inj hmid
      have hxy := hpre y (by simp)
      have hno := hpost' x (by simp)
      rw [hxy] at hno
      cases hno

end Keys

end Selection
