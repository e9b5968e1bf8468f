import Mathlib.Data.List.Infix
import Mathlib.Tactic.Common

/-!
# Words made of segments

A path is a word of segments, each behind a separator it does not contain.
Tests on the word — a prefix, a suffix, an inner part — then become tests on the
list of segments: a pattern that begins with the separator starts where a segment
starts, and one that also ends with it covers whole segments.

## Main definitions

* `Segments.join sep segs` — the word of the segments.
* `Segments.Free sep s` — the segment does not contain the separator.

## Main results

* `join_inj` — the word determines its segments.
* `infix_join_iff` — an inner part behind a separator is the beginning of a segment.
* `infix_closed_iff` — between two separators it is a segment before the last.
* `prefix_closed_iff`, `suffix_join_iff` — prefixes of whole segments, and the last one.
-/

namespace Segments

variable {α : Type*}

/-- The word of a list of segments: each segment stands behind the separator, as the names of an
absolute path stand behind slashes. -/
def join (sep : α) : List (List α) → List α
  | [] => []
  | s :: ss => sep :: (s ++ join sep ss)

/-- The separator does not occur in the segment, so that a segment of a word ends where the next
separator stands. -/
def Free (sep : α) (s : List α) : Prop := sep ∉ s

instance [DecidableEq α] (sep : α) (s : List α) : Decidable (Free sep s) :=
  inferInstanceAs (Decidable (sep ∉ s))

variable {sep : α} {s w v : List α} {ss segs ws : List (List α)}

@[simp] theorem join_nil : join sep [] = [] := rfl

@[simp] theorem join_cons (s : List α) (ss : List (List α)) :
    join sep (s :: ss) = sep :: (s ++ join sep ss) := rfl

theorem join_append (ss segs : List (List α)) :
    join sep (ss ++ segs) = join sep ss ++ join sep segs := by
  induction ss with
  | nil => rfl
  | cons s ss ih =>
    rw [List.cons_append, join_cons, join_cons, ih, List.cons_append, List.append_assoc]

theorem Free.of_cons {a : α} (h : Free sep (a :: s)) : sep ≠ a ∧ Free sep s :=
  ⟨fun heq => h (heq ▸ List.mem_cons_self ..), fun hmem => h (List.mem_cons_of_mem a hmem)⟩

/-! ### At the start of a segment -/

/-- A word without separators starts a word of segments only inside the first. -/
theorem prefix_append_join (hw : Free sep w) : w <+: s ++ join sep ss ↔ w <+: s := by
  induction s generalizing w with
  | nil =>
    cases w with
    | nil => simp
    | cons a w =>
      cases ss with
      | nil => simp
      | cons s ss => simp [(Ne.symm hw.of_cons.1)]
  | cons b s ih =>
    cases w with
    | nil => simp
    | cons a w =>
      rw [List.cons_append, List.cons_prefix_cons, List.cons_prefix_cons, ih hw.of_cons.2]

/-- A word followed by a separator starts a word of segments only as its first. -/
theorem closed_prefix_append_join (hw : Free sep w) (hs : Free sep s) :
    w ++ sep :: v <+: s ++ join sep ss ↔ w = s ∧ sep :: v <+: join sep ss := by
  induction s generalizing w with
  | nil =>
    cases w with
    | nil => simp
    | cons a w =>
      cases ss with
      | nil => simp
      | cons s ss => simp [(Ne.symm hw.of_cons.1)]
  | cons b s ih =>
    cases w with
    | nil => simp [hs.of_cons.1]
    | cons a w =>
      rw [List.cons_append, List.cons_append, List.cons_prefix_cons, List.cons.injEq,
        ih hw.of_cons.2 hs.of_cons.2, and_assoc]

theorem singleton_prefix_join : [sep] <+: join sep ss ↔ ss ≠ [] := by
  cases ss <;> simp

/-! ### Whole words -/

/-- **The word determines its segments**: two lists of segments without the separator make the same
word only when they are the same list. -/
theorem join_inj : ∀ {ss segs : List (List α)}, (∀ s ∈ ss, Free sep s) →
    (∀ s ∈ segs, Free sep s) → (join sep ss = join sep segs ↔ ss = segs) := by
  intro ss
  induction ss with
  | nil =>
    intro segs _ _
    cases segs <;> simp
  | cons s ss ih =>
    intro segs hss hsegs
    cases segs with
    | nil => simp
    | cons t segs =>
      have hs := hss s (List.mem_cons_self ..)
      have ht := hsegs t (List.mem_cons_self ..)
      have hrest : join sep ss = join sep segs ↔ ss = segs :=
        ih (fun u hu => hss u (List.mem_cons_of_mem s hu))
          (fun u hu => hsegs u (List.mem_cons_of_mem t hu))
      rw [join_cons, join_cons, List.cons.injEq, List.cons.injEq, ← hrest]
      constructor
      · rintro ⟨-, h⟩
        -- each head is a prefix of the other, so they are equal
        have hst : s <+: t := (prefix_append_join hs).mp (h ▸ List.prefix_append s _)
        have hts : t <+: s := (prefix_append_join ht).mp (h.symm ▸ List.prefix_append t _)
        obtain rfl := hst.eq_of_length_le hts.length_le
        exact ⟨rfl, List.append_cancel_left h⟩
      · rintro ⟨rfl, h⟩
        exact ⟨rfl, by rw [h]⟩

/-! ### Prefixes -/

/-- A prefix behind a separator begins the first segment. -/
theorem prefix_join_cons (hw : Free sep w) : sep :: w <+: join sep (s :: ss) ↔ w <+: s := by
  rw [join_cons, List.cons_prefix_cons, prefix_append_join hw]
  exact and_iff_right rfl

/-- **A prefix that ends with the separator** covers whole segments: it is a proper prefix of the
list of segments. -/
theorem prefix_closed_iff : ∀ {ws segs : List (List α)}, (∀ w ∈ ws, Free sep w) →
    (∀ s ∈ segs, Free sep s) →
    (join sep ws ++ [sep] <+: join sep segs ↔ ws <+: segs ∧ ws.length < segs.length) := by
  intro ws
  induction ws with
  | nil =>
    intro segs _ _
    cases segs <;> simp
  | cons w ws ih =>
    intro segs hws hsegs
    cases segs with
    | nil => simp
    | cons s segs =>
      have hw := hws w (List.mem_cons_self ..)
      have hs := hsegs s (List.mem_cons_self ..)
      have hrest := @ih segs (fun u hu => hws u (List.mem_cons_of_mem w hu))
        (fun u hu => hsegs u (List.mem_cons_of_mem s hu))
      -- the first segments agree, and what is behind them is a prefix again
      have hhead : join sep (w :: ws) ++ [sep] <+: join sep (s :: segs) ↔
          w = s ∧ join sep ws ++ [sep] <+: join sep segs := by
        rw [join_cons, join_cons, List.cons_append, List.cons_prefix_cons, List.append_assoc]
        cases ws with
        | nil => simp [closed_prefix_append_join hw hs]
        | cons u us =>
          rw [join_cons, List.cons_append, closed_prefix_append_join hw hs]
          exact and_iff_right rfl
      rw [hhead, hrest, List.cons_prefix_cons, List.length_cons, List.length_cons,
        Nat.add_lt_add_iff_right, and_assoc]

/-! ### Inner parts -/

/-- A pattern behind a separator does not begin inside a segment. -/
theorem infix_append_join (hs : Free sep s) :
    sep :: w <:+: s ++ join sep ss ↔ sep :: w <:+: join sep ss := by
  induction s with
  | nil => rfl
  | cons a s ih =>
    have ha : ¬ sep :: w <+: a :: (s ++ join sep ss) := by
      rw [List.cons_prefix_cons]
      exact fun h => hs.of_cons.1 h.1
    rw [List.cons_append, List.infix_cons_iff, ih hs.of_cons.2]
    exact or_iff_right ha

/-- **An inner part behind a separator is the beginning of a segment.** -/
theorem infix_join_iff (hw : Free sep w) : ∀ {segs : List (List α)},
    (∀ s ∈ segs, Free sep s) → (sep :: w <:+: join sep segs ↔ ∃ s ∈ segs, w <+: s) := by
  intro segs
  induction segs with
  | nil => intro _; simp
  | cons s segs ih =>
    intro hsegs
    have hs := hsegs s (List.mem_cons_self ..)
    have hrest := ih fun u hu => hsegs u (List.mem_cons_of_mem s hu)
    rw [join_cons, List.infix_cons_iff, infix_append_join hs, hrest, ← join_cons,
      prefix_join_cons hw]
    simp only [List.mem_cons, exists_eq_or_imp]

/-- **An inner part between two separators** is a segment, and not the last one, since a separator
follows it. -/
theorem infix_closed_iff (hw : Free sep w) : ∀ {segs : List (List α)},
    (∀ s ∈ segs, Free sep s) → (sep :: (w ++ [sep]) <:+: join sep segs ↔ w ∈ segs.dropLast) := by
  intro segs
  induction segs with
  | nil => intro _; simp
  | cons s segs ih =>
    intro hsegs
    have hs := hsegs s (List.mem_cons_self ..)
    have hrest := ih fun u hu => hsegs u (List.mem_cons_of_mem s hu)
    have hhead : sep :: (w ++ [sep]) <+: sep :: (s ++ join sep segs) ↔ w = s ∧ segs ≠ [] := by
      rw [List.cons_prefix_cons, closed_prefix_append_join hw hs, singleton_prefix_join]
      exact and_iff_right rfl
    rw [join_cons, List.infix_cons_iff, infix_append_join hs, hrest, hhead]
    cases segs with
    | nil => simp
    | cons t segs => simp

/-! ### Suffixes -/

/-- **A suffix that begins with the separator** and has no other is the last segment. -/
theorem suffix_join_iff (hw : Free sep w) : ∀ {segs : List (List α)},
    (∀ s ∈ segs, Free sep s) → (sep :: w <:+ join sep segs ↔ segs.getLast? = some w) := by
  intro segs
  induction segs with
  | nil => intro _; simp
  | cons s segs ih =>
    intro hsegs
    have hs := hsegs s (List.mem_cons_self ..)
    have hrest := ih fun u hu => hsegs u (List.mem_cons_of_mem s hu)
    -- inside the first segment no separator starts a suffix
    have hskip : sep :: w <:+ s ++ join sep segs ↔ sep :: w <:+ join sep segs := by
      clear hrest ih hsegs
      induction s with
      | nil => rfl
      | cons a s ih =>
        rw [List.cons_append, List.suffix_cons_iff, ih hs.of_cons.2]
        refine or_iff_right ?_
        intro h
        exact hs.of_cons.1 (List.cons.inj h).1
    have hwhole : sep :: w = sep :: (s ++ join sep segs) ↔ segs = [] ∧ s = w := by
      cases segs with
      | nil => simp [eq_comm]
      | cons t segs =>
        simp only [join_cons, List.cons.injEq, true_and, reduceCtorEq, false_and, iff_false]
        intro h
        refine hw ?_
        rw [h]
        simp
    rw [join_cons, List.suffix_cons_iff, hskip, hrest, hwhole]
    cases segs with
    | nil => simp
    | cons t segs => simp

end Segments
