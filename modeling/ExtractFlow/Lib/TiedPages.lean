import Mathlib.Data.List.Nodup
import Mathlib.Order.Lattice
import Mathlib.Tactic.Common

/-!
# Pages of an order with ties

Rows are ordered by a key, the greatest first, and the order of rows with equal keys
is chosen anew for every page.  The keys of the pages are then always in order, but
the rows are a partition only when no group of equal keys lies across the boundary
of two pages: within such a group the same row may be in front of the boundary for
one page and behind it for the next.

## Main definitions

* `Answer` — an order of the rows.
* `page`, `pages` — one page of an order, and the pages of one order each.
* `Whole` — every group of equal keys lies on one page.

## Main results

* `exists_answer_filter` — every order of selected rows is selected from an order of all.
* `map_key_pages` — the keys are those of any order.
* `pages_perm` — where groups are whole, the pages are a partition.
* `pages_partition_iff` — they are one for every choice just in case groups are whole.
-/

namespace TiedPages

variable {α κ : Type*} [LinearOrder κ]

/-- An order of the rows in which the greatest key comes first. Rows with equal keys may come in any
order, so the same rows have many such orders. -/
structure Answer (key : α → κ) (rows l : List α) : Prop where
  perm : l.Perm rows
  sorted : l.Pairwise fun a b => key b ≤ key a

/-- Page `k` of an order: `limit` rows behind those of the `k` pages before it. -/
def page (limit k : ℕ) (l : List α) : List α := (l.drop (k * limit)).take limit

/-- The first `n` pages in a row. Each is cut out of an order of its own, because the order is
chosen anew for each. -/
def pages (limit : ℕ) (answers : ℕ → List α) (n : ℕ) : List α :=
  (List.range n).flatMap fun k => page limit k (answers k)

/-- The number of rows with a greater key. -/
def above (key : α → κ) (rows : List α) (e : α) : ℕ := rows.countP fun a => decide (key e < key a)

/-- The number of rows with a key as great. -/
def reaching (key : α → κ) (rows : List α) (e : α) : ℕ :=
  rows.countP fun a => decide (key e ≤ key a)

/-- The rows with the key of any row lie on one page: they take the places from the
number of rows above them on. -/
def Whole (key : α → κ) (limit : ℕ) (rows : List α) : Prop :=
  ∀ e ∈ rows, above key rows e / limit = (reaching key rows e - 1) / limit

instance (key : α → κ) (limit : ℕ) (rows : List α) : Decidable (Whole key limit rows) :=
  List.decidableBAll _ rows

/-! ### Tests that hold up to a place -/

section Falling

variable {p : α → Bool}

/-- A test that holds of what is in front of anything it holds of counts its places. -/
theorem lt_countP_iff : ∀ {l : List α}, (l.Pairwise fun a b => p b = true → p a = true) →
    ∀ {i : ℕ} (h : i < l.length), i < l.countP p ↔ p l[i] = true := by
  intro l
  induction l with
  | nil => intro _ i h; exact absurd h (Nat.not_lt_zero i)
  | cons a l ih =>
    intro hl i h
    obtain ⟨hfirst, hrest⟩ := List.pairwise_cons.mp hl
    by_cases ha : p a = true
    · rw [List.countP_cons_of_pos ha]
      cases i with
      | zero => simpa using ha
      | succ i =>
        rw [List.getElem_cons_succ, ← ih hrest (Nat.lt_of_succ_lt_succ h)]
        exact Nat.succ_lt_succ_iff
    · have hnone : ∀ b ∈ l, p b ≠ true := fun b hb hpb => ha (hfirst b hb hpb)
      rw [List.countP_cons_of_neg ha, List.countP_eq_zero.mpr hnone]
      refine iff_of_false (Nat.not_lt_zero i) fun hp => ?_
      cases i with
      | zero => exact ha hp
      | succ i => exact hnone _ (List.getElem_mem _) hp

/-- The places it counts are those it filters. -/
theorem take_countP : ∀ {l : List α}, (l.Pairwise fun a b => p b = true → p a = true) →
    l.take (l.countP p) = l.filter p := by
  intro l
  induction l with
  | nil => intro _; rfl
  | cons a l ih =>
    intro hl
    obtain ⟨hfirst, hrest⟩ := List.pairwise_cons.mp hl
    by_cases ha : p a = true
    · rw [List.countP_cons_of_pos ha, List.take_succ_cons, List.filter_cons_of_pos ha, ih hrest]
    · have hnone : ∀ b ∈ l, p b ≠ true := fun b hb hpb => ha (hfirst b hb hpb)
      rw [List.countP_cons_of_neg ha, List.countP_eq_zero.mpr hnone, List.filter_cons_of_neg ha,
        List.take_zero, List.filter_eq_nil_iff.mpr hnone]

end Falling

/-! ### Orders -/

section Orders

variable {key : α → κ} {rows l l' : List α} {limit : ℕ} {e : α} {i : ℕ}

/-- Orders of the same rows have the same keys. -/
theorem Answer.map_key (h : Answer key rows l) (h' : Answer key rows l') :
    l.map key = l'.map key := by
  have hsorted : (l.map key).Pairwise fun a b => b ≤ a := List.pairwise_map.mpr h.sorted
  have hsorted' : (l'.map key).Pairwise fun a b => b ≤ a := List.pairwise_map.mpr h'.sorted
  exact List.Perm.eq_of_pairwise (fun a b _ _ hab hba => le_antisymm hba hab) hsorted hsorted'
    ((h.perm.trans h'.perm.symm).map key)

theorem Answer.lt_above (h : Answer key rows l) (hi : i < l.length) :
    i < above key rows e ↔ key e < key l[i] := by
  have hfalling : l.Pairwise fun a b => decide (key e < key b) = true →
      decide (key e < key a) = true :=
    h.sorted.imp fun hab hb => by
      rw [decide_eq_true_eq] at hb ⊢
      exact lt_of_lt_of_le hb hab
  rw [above, ← h.perm.countP_eq, lt_countP_iff hfalling hi, decide_eq_true_eq]

theorem Answer.lt_reaching (h : Answer key rows l) (hi : i < l.length) :
    i < reaching key rows e ↔ key e ≤ key l[i] := by
  have hfalling : l.Pairwise fun a b => decide (key e ≤ key b) = true →
      decide (key e ≤ key a) = true :=
    h.sorted.imp fun hab hb => by
      rw [decide_eq_true_eq] at hb ⊢
      exact le_trans hb hab
  rw [reaching, ← h.perm.countP_eq, lt_countP_iff hfalling hi, decide_eq_true_eq]

/-- An order of the rows a test selects is what an order of all rows selects. -/
theorem exists_answer_filter (key : α → κ) (p : α → Bool) {rows l : List α}
    (hl : Answer key (rows.filter p) l) : ∃ l', Answer key rows l' ∧ l'.filter p = l := by
  have htrans : ∀ a b c, decide (key b ≤ key a) = true → decide (key c ≤ key b) = true →
      decide (key c ≤ key a) = true := by
    intro a b c hab hbc
    rw [decide_eq_true_eq] at hab hbc ⊢
    exact le_trans hbc hab
  have htotal : ∀ a b, (decide (key b ≤ key a) || decide (key a ≤ key b)) = true := by
    intro a b
    rw [Bool.or_eq_true, decide_eq_true_eq, decide_eq_true_eq]
    exact le_total _ _
  -- the selected rows in their order, then the others; sorting these by the key
  have hsplit : (l ++ rows.filter fun a => !p a).Perm rows :=
    (hl.perm.append_right _).trans (List.filter_append_perm p rows)
  have hperm := (List.mergeSort_perm (l ++ rows.filter fun a => !p a)
    fun a b => decide (key b ≤ key a)).trans hsplit
  refine ⟨_, ⟨hperm, (List.pairwise_mergeSort htrans htotal _).imp fun h => ?_⟩, ?_⟩
  · rwa [decide_eq_true_eq] at h
  · -- the sort is stable, so the selected rows keep their order
    have hstable := List.sublist_mergeSort htrans htotal
      (hl.sorted.imp fun h => decide_eq_true h)
      (List.sublist_append_left l (rows.filter fun a => !p a))
    have hselected : l.filter p = l :=
      List.filter_eq_self.mpr fun a ha => (List.mem_filter.mp (hl.perm.subset ha)).2
    have hsub := hstable.filter p
    rw [hselected] at hsub
    exact (hsub.eq_of_length (hl.perm.trans (hperm.filter p).symm).length_eq).symm

/-- There is an order. -/
theorem exists_answer (key : α → κ) (rows : List α) : ∃ l, Answer key rows l := by
  have hnone : Answer key (rows.filter fun _ => false) [] := ⟨by simp, .nil⟩
  obtain ⟨l, hl, -⟩ := exists_answer_filter key _ hnone
  exact ⟨l, hl⟩

end Orders

/-! ### Pages -/

section Pages

variable {key : α → κ} {rows l l' : List α} {limit n k : ℕ} {answers : ℕ → List α}

theorem pages_succ (limit : ℕ) (answers : ℕ → List α) (n : ℕ) :
    pages limit answers (n + 1) = pages limit answers n ++ page limit n (answers n) := by
  unfold pages
  rw [List.range_succ, List.flatMap_append, List.flatMap_singleton]

/-- A page continues what is in front of it. -/
theorem take_append_page (limit n : ℕ) (l : List α) :
    l.take (n * limit) ++ page limit n l = l.take ((n + 1) * limit) := by
  rw [page, ← List.take_add, Nat.succ_mul]

/-- The pages of one order are its rows. -/
theorem pages_const (limit : ℕ) (l : List α) (n : ℕ) :
    pages limit (fun _ => l) n = l.take (n * limit) := by
  induction n with
  | zero => simp [pages]
  | succ n ih => rw [pages_succ, ih, take_append_page]

omit [LinearOrder κ] in
theorem map_pages (key : α → κ) (limit : ℕ) (answers : ℕ → List α) (n : ℕ) :
    (pages limit answers n).map key = pages limit (fun k => (answers k).map key) n := by
  unfold pages page
  rw [List.map_flatMap]
  simp only [List.map_take, List.map_drop]

/-- **The keys of the pages are those of any one order**: ties never disturb the sequence of the
keys, only which row stands for a key. -/
theorem map_key_pages (hl : Answer key rows l) (h : ∀ k, Answer key rows (answers k)) (n : ℕ) :
    (pages limit answers n).map key = (l.map key).take (n * limit) := by
  have hsame : (fun k => (answers k).map key) = fun _ => l.map key :=
    funext fun k => (h k).map_key hl
  rw [map_pages, hsame, pages_const]

/-- The keys of the pages fall. -/
theorem pages_sorted (h : ∀ k, Answer key rows (answers k)) (n : ℕ) :
    (pages limit answers n).Pairwise fun a b => key b ≤ key a := by
  have hkeys : ((pages limit answers n).map key).Pairwise fun a b => b ≤ a := by
    rw [map_key_pages (h 0) h]
    exact (List.pairwise_map.mpr (h 0).sorted).sublist (List.take_sublist _ _)
  exact List.pairwise_map.mp hkeys

/-- In front of a boundary of pages are the rows above the first row behind it. -/
theorem take_boundary (hwhole : Whole key limit rows) (hlimit : 0 < limit)
    (hl : Answer key rows l) (hk : k * limit < l.length) :
    l.take (k * limit) = l.filter fun a => decide (key l[k * limit] < key a) := by
  have hmem : l[k * limit] ∈ rows := hl.perm.subset (List.getElem_mem hk)
  have hnot : ¬ k * limit < above key rows l[k * limit] := by
    rw [hl.lt_above hk]
    exact lt_irrefl _
  have hreach : k * limit < reaching key rows l[k * limit] := (hl.lt_reaching hk).mpr le_rfl
  have habove : above key rows l[k * limit] = k * limit := by
    by_contra hne
    have hfront : above key rows l[k * limit] / limit < k :=
      (Nat.div_lt_iff_lt_mul hlimit).mpr (by omega)
    have hbehind : k ≤ (reaching key rows l[k * limit] - 1) / limit :=
      (Nat.le_div_iff_mul_le hlimit).mpr (by omega)
    have heq := hwhole _ hmem
    omega
  have hfalling : l.Pairwise fun a b => decide (key l[k * limit] < key b) = true →
      decide (key l[k * limit] < key a) = true :=
    hl.sorted.imp fun hab hb => by
      rw [decide_eq_true_eq] at hb ⊢
      exact lt_of_lt_of_le hb hab
  rw [above, ← hl.perm.countP_eq] at habove
  rw [← take_countP hfalling, habove]

/-- The rows in front of a boundary are the same for every order. -/
theorem take_perm (hwhole : Whole key limit rows) (hlimit : 0 < limit) (hl : Answer key rows l)
    (hl' : Answer key rows l') (k : ℕ) : (l.take (k * limit)).Perm (l'.take (k * limit)) := by
  have hperm : l.Perm l' := hl.perm.trans hl'.perm.symm
  by_cases hk : k * limit < l.length
  · have hk' : k * limit < l'.length := hperm.length_eq ▸ hk
    have hkey : key l[k * limit] = key l'[k * limit] := by
      have hkeys := hl.map_key hl'
      have hget : (l.map key)[k * limit]? = (l'.map key)[k * limit]? := by rw [hkeys]
      simpa [hk, hk'] using hget
    rw [take_boundary hwhole hlimit hl hk, take_boundary hwhole hlimit hl' hk', hkey]
    exact hperm.filter _
  · rw [List.take_of_length_le (by omega), List.take_of_length_le (hperm.length_eq ▸ by omega)]
    exact hperm

/-- **Where no group of equal keys crosses a boundary**, enough pages hold every row exactly once.
-/
theorem pages_perm (hwhole : Whole key limit rows) (hlimit : 0 < limit)
    (h : ∀ k, Answer key rows (answers k)) (hn : rows.length ≤ n * limit) :
    (pages limit answers n).Perm rows := by
  have hfront : ∀ m, (pages limit answers m).Perm ((answers 0).take (m * limit)) := by
    intro m
    induction m with
    | zero => simp [pages]
    | succ m ih =>
      rw [pages_succ]
      have hturn := ih.trans (take_perm hwhole hlimit (h 0) (h m) m)
      refine (hturn.append_right _).trans ?_
      rw [take_append_page]
      exact take_perm hwhole hlimit (h m) (h 0) (m + 1)
  refine (hfront n).trans ?_
  rw [List.take_of_length_le ((h 0).perm.length_eq ▸ hn)]
  exact (h 0).perm

/-! ### Groups that are not whole -/

/-- Two rows with equal keys can change places in an order. -/
theorem Answer.swap {front back : List α} {x y : α}
    (h : Answer key rows (front ++ x :: y :: back)) (hkey : key x = key y) :
    Answer key rows (front ++ y :: x :: back) := by
  have hswap : (front ++ y :: x :: back).Perm (front ++ x :: y :: back) :=
    (List.Perm.swap x y back).append_left front
  have hkeys : (front ++ x :: y :: back).map key = (front ++ y :: x :: back).map key := by
    simp [hkey]
  have hsorted : ((front ++ x :: y :: back).map key).Pairwise fun a b => b ≤ a :=
    List.pairwise_map.mpr h.sorted
  rw [hkeys] at hsorted
  exact ⟨hswap.trans h.perm, List.pairwise_map.mp hsorted⟩

/-- If the rows with the key of `e` do not all lie on one page, then some boundary of two pages has
a row with that key on either side. -/
theorem tied_at_boundary {e : α} (hl : Answer key rows l) (he : e ∈ rows) (hlimit : 0 < limit)
    (hcross : above key rows e / limit ≠ (reaching key rows e - 1) / limit) :
    ∃ k b, b + 1 = k * limit ∧ ∃ h : b + 1 < l.length, key l[b] = key l[b + 1] := by
  obtain ⟨i, hi, rfl⟩ := List.getElem_of_mem (hl.perm.symm.subset he)
  have habove : ¬ i < above key rows l[i] := by
    rw [hl.lt_above hi]
    exact lt_irrefl _
  have hreach : i < reaching key rows l[i] := (hl.lt_reaching hi).mpr le_rfl
  have hle : above key rows l[i] / limit ≤ (reaching key rows l[i] - 1) / limit :=
    Nat.div_le_div_right (by omega)
  have hlength : reaching key rows l[i] ≤ l.length :=
    hl.perm.length_eq ▸ List.countP_le_length
  -- the boundary in front of the page that the last row of the group lies on
  generalize hk : (reaching key rows l[i] - 1) / limit = k at hle hcross
  have hfront : above key rows l[i] < k * limit :=
    (Nat.div_lt_iff_lt_mul hlimit).mp (lt_of_le_of_ne hle hcross)
  have hbehind : k * limit ≤ reaching key rows l[i] - 1 :=
    (Nat.le_div_iff_mul_le hlimit).mp hk.ge
  obtain ⟨b, hb⟩ : ∃ b, b + 1 = k * limit := ⟨k * limit - 1, by omega⟩
  have hlt : b + 1 < l.length := by omega
  -- all rows between the first and the last of the group have its key
  have hsame : ∀ j (h : j < l.length), above key rows l[i] ≤ j → j < reaching key rows l[i] →
      key l[j] = key l[i] := by
    intro j h hj hj'
    refine le_antisymm (not_lt.mp fun hlt => ?_) ((hl.lt_reaching h).mp hj')
    exact absurd ((hl.lt_above h).mpr hlt) (by omega)
  refine ⟨k, b, hb, hlt, ?_⟩
  rw [hsame b (by omega) (by omega) (by omega), hsame (b + 1) hlt (by omega) (by omega)]

/-- A row on a page. -/
theorem mem_page {b : ℕ} {x : α} (hx : l[b]? = some x) (hfront : k * limit ≤ b)
    (hbehind : b < (k + 1) * limit) : x ∈ page limit k l := by
  have hplace : (page limit k l)[b - k * limit]? = some x := by
    rw [Nat.succ_mul] at hbehind
    rw [page, List.getElem?_take_of_lt (by omega), List.getElem?_drop, Nat.add_sub_cancel' hfront,
      hx]
  exact List.mem_of_getElem? hplace

/-- **Where a group lies across a boundary, two orders lose a row and repeat another.** -/
theorem exists_repeated (hlimit : 0 < limit) (hnodup : rows.Nodup)
    (hcross : ¬ Whole key limit rows) :
    ∃ answers : ℕ → List α, (∀ k, Answer key rows (answers k)) ∧
      ¬ (pages limit answers rows.length).Perm rows := by
  obtain ⟨e, he, hne⟩ : ∃ e ∈ rows,
      above key rows e / limit ≠ (reaching key rows e - 1) / limit := by
    simpa [Whole] using hcross
  obtain ⟨l, hl⟩ := exists_answer key rows
  obtain ⟨k, b, hb, hlt, hkey⟩ := tied_at_boundary hl he hlimit hne
  have hcut : l = l.take b ++ l[b] :: l[b + 1] :: l.drop (b + 2) := by
    rw [List.getElem_cons_drop, List.getElem_cons_drop, List.take_append_drop]
  have hl' : Answer key rows (l.take b ++ l[b + 1] :: l[b] :: l.drop (b + 2)) :=
    Answer.swap (hcut ▸ hl) hkey
  refine ⟨fun j => if j < k then l else l.take b ++ l[b + 1] :: l[b] :: l.drop (b + 2), ?_, ?_⟩
  · intro j
    dsimp only
    split
    · exact hl
    · exact hl'
  · intro hperm
    have hdisjoint := (List.nodup_flatMap.mp (hperm.nodup_iff.mpr hnodup)).2
    have hlength : l.length = rows.length := hl.perm.length_eq
    obtain ⟨m, rfl⟩ : ∃ m, k = m + 1 := Nat.exists_eq_succ_of_ne_zero (by rintro rfl; omega)
    have hm : m + 1 < rows.length := by
      have hle : (m + 1) * 1 ≤ (m + 1) * limit := Nat.mul_le_mul_left _ hlimit
      omega
    -- the row in front of the boundary for page m is behind it for the next one
    have hlast : l[b] ∈ page limit m l :=
      mem_page (List.getElem?_eq_getElem (by omega)) (by rw [Nat.succ_mul] at hb; omega) (by omega)
    have hfirst : l[b] ∈ page limit (m + 1)
        (l.take b ++ l[b + 1] :: l[b] :: l.drop (b + 2)) := by
      refine mem_page ?_ hb.ge (by rw [Nat.succ_mul (m + 1)]; omega)
      rw [List.getElem?_append_right (by rw [List.length_take]; omega), List.length_take,
        Nat.min_eq_left (by omega), Nat.add_sub_cancel_left]
      rfl
    have hpair := List.pairwise_iff_getElem.mp hdisjoint m (m + 1)
      (by simpa using Nat.lt_of_succ_lt hm) (by simpa using hm) (Nat.lt_succ_self m)
    simp only [List.getElem_range, Function.onFun, Nat.lt_succ_self, if_true, lt_irrefl, if_false]
      at hpair
    exact hpair hlast hfirst

/-- **The pages are a partition for every choice of orders just in case every group of
equal keys lies on one page.** -/
theorem pages_partition_iff (hlimit : 0 < limit) (hnodup : rows.Nodup) :
    (∀ answers : ℕ → List α, (∀ k, Answer key rows (answers k)) → ∀ n, rows.length ≤ n * limit →
      (pages limit answers n).Perm rows) ↔ Whole key limit rows := by
  constructor
  · intro hall
    by_contra hcross
    obtain ⟨answers, hanswers, hnot⟩ := exists_repeated hlimit hnodup hcross
    exact hnot (hall answers hanswers _ (Nat.le_mul_of_pos_right _ hlimit))
  · exact fun hwhole answers hanswers n hn => pages_perm hwhole hlimit hanswers hn

end Pages

end TiedPages
