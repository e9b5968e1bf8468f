import Mathlib.Data.List.Dedup
import ExtractFlow.Redaction

/-!
# Merged spans

`_merge_spans` and `_mask_text` (`worker/app/services/redaction.py`) on all spans the
recognizers may find.  The loop holds the merged spans with the last in front; the spans to
come start no earlier than it does.  Spans that touch are merged like those that overlap, so
the merged spans have letters between them.

## Main definitions

* `RedactionSpan.Covers`, `Covered` — the positions of a span, and of some span.
* `Separated` — spans in reverse, with letters between them.

## Main results

* `covered_mergeSpans`, `separated_mergeSpans` — merging keeps the positions, and separates.
* `getElem?_maskText` — a masked text, letter by letter.
* `masks_exactly` — redaction masks what was recognized and nothing else.
-/

namespace ExtractFlow

/-! ### Positions -/

/-- The span has the position, counted in code points. -/
def RedactionSpan.Covers (span : RedactionSpan) (i : ℕ) : Prop := span.start ≤ i ∧ i < span.stop

instance (span : RedactionSpan) (i : ℕ) : Decidable (span.Covers i) :=
  inferInstanceAs (Decidable (_ ∧ _))

/-- One of the spans has the position, so its letter is to be masked. -/
def Covered (spans : List RedactionSpan) (i : ℕ) : Prop := ∃ span ∈ spans, span.Covers i

instance (spans : List RedactionSpan) (i : ℕ) : Decidable (Covered spans i) :=
  inferInstanceAs (Decidable (∃ span ∈ spans, span.Covers i))

section Covering

variable {spans spans' : List RedactionSpan} {span : RedactionSpan} {i : ℕ}

theorem not_covered_nil : ¬ Covered [] i := fun ⟨_, hmem, _⟩ => (List.not_mem_nil hmem)

theorem covered_cons : Covered (span :: spans) i ↔ span.Covers i ∨ Covered spans i := by
  unfold Covered
  simp only [List.mem_cons, exists_eq_or_imp]

theorem covered_congr (h : ∀ span, span ∈ spans ↔ span ∈ spans') :
    Covered spans i ↔ Covered spans' i := by
  unfold Covered
  simp only [h]

end Covering

/-! ### Merging -/

section Merging

variable {merged spans : List RedactionSpan} {span : RedactionSpan}

/-- Spans in reverse, a letter at least between one and the next. -/
def Separated (merged : List RedactionSpan) : Prop := merged.Pairwise fun b a => a.stop < b.start

/-- The last merged span starts no later. -/
def StartsBy (merged : List RedactionSpan) (start : ℕ) : Prop :=
  ∀ last ∈ merged.head?, last.start ≤ start

/-- One more span is merged: its positions come to those there are. -/
theorem covered_mergeSpan (h : StartsBy merged span.start) {i : ℕ} :
    Covered (mergeSpan merged span) i ↔ Covered merged i ∨ span.Covers i := by
  unfold mergeSpan
  split
  next last rest =>
    have hlast : last.start ≤ span.start := h last rfl
    split
    · next htouch =>
      rw [covered_cons, covered_cons]
      have hunion : RedactionSpan.Covers { last with stop := max last.stop span.stop } i ↔
          last.Covers i ∨ span.Covers i := by
        unfold RedactionSpan.Covers
        dsimp only
        omega
      rw [hunion, or_right_comm]
    · rw [covered_cons, or_comm]
  next => simp [covered_cons, not_covered_nil]

/-- So separated spans stay separated. -/
theorem separated_mergeSpan (hseparated : Separated merged) (h : StartsBy merged span.start) :
    Separated (mergeSpan merged span) := by
  unfold mergeSpan
  split
  next last rest =>
    obtain ⟨hfirst, hrest⟩ := List.pairwise_cons.mp hseparated
    split
    · exact List.pairwise_cons.mpr ⟨hfirst, hrest⟩
    · next hgap =>
      refine List.pairwise_cons.mpr ⟨fun a ha => ?_, hseparated⟩
      have hlast : last.start ≤ span.start := h last rfl
      rcases List.mem_cons.mp ha with rfl | ha
      · omega
      · have hbefore := hfirst a ha
        omega
  next => exact List.pairwise_singleton ..

/-- What starts behind the span starts behind the last merged span. -/
theorem startsBy_mergeSpan {start : ℕ} (h : StartsBy merged span.start) (hle : span.start ≤ start) :
    StartsBy (mergeSpan merged span) start := by
  intro last hlast
  unfold mergeSpan at hlast
  split at hlast
  next last' rest =>
    have hfirst : last'.start ≤ span.start := h last' rfl
    split at hlast
    · obtain rfl := Option.some.inj hlast
      exact le_trans hfirst hle
    · obtain rfl := Option.some.inj hlast
      exact hle
  next =>
    obtain rfl := Option.some.inj hlast
    exact hle

/-- A property of spans that merging two that touch keeps is kept by the loop's turn. -/
theorem forall_mergeSpan {P : RedactionSpan → Prop} (hmerged : ∀ s ∈ merged, P s) (hspan : P span)
    (hmerge : ∀ last, P last → P { last with stop := max last.stop span.stop }) :
    ∀ s ∈ mergeSpan merged span, P s := by
  unfold mergeSpan
  split
  next last rest =>
    obtain ⟨hlast, hrest⟩ := List.forall_mem_cons.mp hmerged
    split
    · exact List.forall_mem_cons.mpr ⟨hmerge last hlast, hrest⟩
    · exact List.forall_mem_cons.mpr ⟨hspan, hmerged⟩
  next => exact List.forall_mem_singleton.mpr hspan

/-- The loop over spans sorted by their starts. -/
theorem foldl_mergeSpan : ∀ {spans merged : List RedactionSpan},
    (spans.Pairwise fun a b => a.start ≤ b.start) → Separated merged →
    (∀ span ∈ spans, StartsBy merged span.start) →
    Separated (spans.foldl mergeSpan merged) ∧
      ∀ i, Covered (spans.foldl mergeSpan merged) i ↔ Covered merged i ∨ Covered spans i := by
  intro spans
  induction spans with
  | nil => exact fun _ hmerged _ => ⟨hmerged, fun i => by simp [not_covered_nil]⟩
  | cons span spans ih =>
    intro merged hsorted hmerged hstarts
    obtain ⟨hfirst, hrest⟩ := List.pairwise_cons.mp hsorted
    have hspan := hstarts span (List.mem_cons_self ..)
    obtain ⟨hseparated, hcovered⟩ := ih hrest (separated_mergeSpan hmerged hspan)
      fun next hnext => startsBy_mergeSpan hspan (hfirst next hnext)
    refine ⟨hseparated, fun i => ?_⟩
    rw [List.foldl_cons, hcovered i, covered_mergeSpan hspan, covered_cons, or_assoc]

theorem before_trans (a b c : RedactionSpan) (hab : a.before b = true) (hbc : b.before c = true) :
    a.before c = true := by
  unfold RedactionSpan.before at *
  split at hab <;> split at hbc <;> split <;> simp only [decide_eq_true_eq] at * <;> omega

theorem before_total (a b : RedactionSpan) : (a.before b || b.before a) = true := by
  unfold RedactionSpan.before
  split <;> split <;> simp only [Bool.or_eq_true, decide_eq_true_eq] <;> omega

/-- The sorted spans are sorted by their starts. -/
theorem sorted_starts (spans : List RedactionSpan) :
    (spans.mergeSort RedactionSpan.before).Pairwise fun a b => a.start ≤ b.start := by
  refine (List.pairwise_mergeSort before_trans before_total spans).imp fun {a b} h => ?_
  unfold RedactionSpan.before at h
  split at h
  · omega
  · exact Nat.le_of_lt (of_decide_eq_true h)

theorem mergeSpans_nil : mergeSpans [] = [] := by
  unfold mergeSpans
  rw [List.mergeSort_nil]
  rfl

/-- What is proved of the loop, of the spans it returns. -/
theorem mergeSpans_spec (spans : List RedactionSpan) :
    (mergeSpans spans).Pairwise (fun a b => a.stop < b.start) ∧
      ∀ i, Covered (mergeSpans spans) i ↔ Covered spans i := by
  have hempty : ∀ span ∈ spans.mergeSort RedactionSpan.before, StartsBy [] span.start :=
    fun _ _ _ hlast => by cases hlast
  obtain ⟨hseparated, hcovered⟩ := foldl_mergeSpan (sorted_starts spans) .nil hempty
  have hsorted : ∀ i, Covered (spans.mergeSort RedactionSpan.before) i ↔ Covered spans i :=
    fun i => covered_congr fun _ => List.mem_mergeSort
  refine ⟨List.pairwise_reverse.mpr hseparated, fun i => ?_⟩
  unfold mergeSpans
  rw [covered_congr fun _ => List.mem_reverse, hcovered i, hsorted i]
  exact or_iff_right not_covered_nil

/-- **Merging separates the spans**: between any two of them there is a letter that neither has. -/
theorem separated_mergeSpans (spans : List RedactionSpan) :
    (mergeSpans spans).Pairwise fun a b => a.stop < b.start := (mergeSpans_spec spans).1

/-- **Merging keeps the positions**: what some span had, some merged span has, and nothing else. -/
theorem covered_mergeSpans (spans : List RedactionSpan) (i : ℕ) :
    Covered (mergeSpans spans) i ↔ Covered spans i := (mergeSpans_spec spans).2 i

/-- Merged spans are no empty ones, and end in the text, if those found do. -/
theorem bounded_mergeSpans {length : ℕ}
    (h : ∀ span ∈ spans, span.start < span.stop ∧ span.stop ≤ length) :
    ∀ span ∈ mergeSpans spans, span.start < span.stop ∧ span.stop ≤ length := by
  have hloop : ∀ (spans merged : List RedactionSpan),
      (∀ span ∈ spans, span.start < span.stop ∧ span.stop ≤ length) →
      (∀ span ∈ merged, span.start < span.stop ∧ span.stop ≤ length) →
      ∀ span ∈ spans.foldl mergeSpan merged, span.start < span.stop ∧ span.stop ≤ length := by
    intro spans
    induction spans with
    | nil => exact fun _ _ hmerged => hmerged
    | cons span spans ih =>
      intro merged hspans hmerged
      obtain ⟨hspan, hspans⟩ := List.forall_mem_cons.mp hspans
      refine ih _ hspans (forall_mergeSpan hmerged hspan fun last hlast => ⟨?_, ?_⟩)
      · exact lt_of_lt_of_le hlast.1 (le_max_left ..)
      · exact max_le hlast.2 hspan.2
  have hsorted : ∀ span ∈ spans.mergeSort RedactionSpan.before,
      span.start < span.stop ∧ span.stop ≤ length :=
    fun span hspan => h span (List.mem_mergeSort.mp hspan)
  intro span hspan
  exact hloop _ [] hsorted (List.forall_mem_nil _) span (List.mem_reverse.mp hspan)

end Merging

/-! ### Masking -/

section Masking

variable {cs : List Char} {span : RedactionSpan} {spans : List RedactionSpan} {i : ℕ}

/-- A letter under spans that have its position, or not. -/
def maskedAt (spans : List RedactionSpan) (i : ℕ) (c : Char) : Char :=
  if Covered spans i ∧ isPySpace c = false then maskChar else c

theorem getElem?_maskSpan : (maskSpan cs span)[i]? =
    cs[i]?.map fun c => if span.Covers i ∧ isPySpace c = false then maskChar else c := by
  unfold maskSpan
  rw [List.getElem?_map, List.getElem?_zipIdx, Option.map_map, Nat.zero_add]
  refine congrArg (cs[i]?.map ·) (funext fun c => ?_)
  simp only [Function.comp_apply, RedactionSpan.Covers, and_assoc]

/-- One more span masks the letters of its own positions. -/
theorem maskedAt_cons (c : Char) :
    maskedAt spans i (if span.Covers i ∧ isPySpace c = false then maskChar else c) =
      maskedAt (span :: spans) i c := by
  unfold maskedAt
  have hmask : isPySpace maskChar = false := by decide
  simp only [covered_cons]
  by_cases hspan : span.Covers i
  · by_cases hspace : isPySpace c = false
    · simp [hspan, hspace, hmask]
    · simp [hspace]
  · simp [hspan]

/-- **A masked text, letter by letter**: the mask at the positions the spans have, and the letter of
the text at all others. -/
theorem getElem?_maskText (text : String) (spans : List RedactionSpan) (i : ℕ) :
    (maskText text spans).toList[i]? = text.toList[i]?.map (maskedAt spans i) := by
  have hfold : ∀ (spans : List RedactionSpan) (cs : List Char),
      (spans.foldl maskSpan cs)[i]? = cs[i]?.map (maskedAt spans i) := by
    intro spans
    induction spans with
    | nil =>
      intro cs
      have hnone : maskedAt [] i = id := funext fun c => if_neg fun h => not_covered_nil h.1
      rw [hnone, Option.map_id]
      rfl
    | cons span spans ih =>
      intro cs
      rw [List.foldl_cons, ih, getElem?_maskSpan, Option.map_map]
      exact congrArg (cs[i]?.map ·) (funext fun c => maskedAt_cons c)
  rw [maskText, String.toList_ofList, hfold]

theorem length_maskText (text : String) (spans : List RedactionSpan) :
    (maskText text spans).toList.length = text.toList.length :=
  (maskText_masked text spans).length_eq.symm

end Masking

/-! ### Counts -/

/-- The counts of the types add up to the number of spans. -/
theorem sum_counts : ∀ {types : List String} {spans : List RedactionSpan}, types.Nodup →
    (∀ span ∈ spans, span.entityType ∈ types) →
    (types.map fun t => (spans.filter (·.entityType == t)).length).sum = spans.length := by
  intro types
  induction types with
  | nil =>
    intro spans _ hspans
    cases spans with
    | nil => rfl
    | cons span spans => cases hspans span (List.mem_cons_self ..)
  | cons t types ih =>
    intro spans hnodup hspans
    obtain ⟨ht, hnodup⟩ := List.nodup_cons.mp hnodup
    have hsplit := List.length_eq_length_filter_add (l := spans) (·.entityType == t)
    have hrest : ∀ span ∈ spans.filter (fun s => !(s.entityType == t)),
        span.entityType ∈ types := by
      intro span hspan
      obtain ⟨hmem, hne⟩ := List.mem_filter.mp hspan
      refine (List.mem_cons.mp (hspans span hmem)).resolve_left fun heq => ?_
      simp [heq] at hne
    -- the spans of other types are all among those that are left
    have hsame : ∀ t' ∈ types, ((spans.filter fun s => !(s.entityType == t)).filter
        (·.entityType == t')).length = (spans.filter (·.entityType == t')).length := by
      intro t' ht'
      rw [List.filter_filter]
      congr 1
      refine List.filter_congr fun span _ => ?_
      by_cases heq : span.entityType = t'
      · have hne : t' ≠ t := fun h => ht (h ▸ ht')
        simp [heq, hne]
      · simp [heq]
    have hsum := ih hnodup hrest
    rw [List.map_congr_left hsame] at hsum
    rw [List.map_cons, List.sum_cons, hsum, ← hsplit]

/-- **Redaction masks exactly what was recognized.**  The merged spans lie apart, one behind
the other, and have the positions of the spans found; the masked text has a mask where they
have a letter, and the letters of the text elsewhere; and the counts of the types add up. -/
theorem masks_exactly (text : String) (spans : List RedactionSpan)
    (hspans : ∀ span ∈ spans, span.start < span.stop ∧ span.stop ≤ text.length) :
    ((mergeSpans spans).Pairwise (fun a b => a.start < b.start ∧ a.stop < b.start) ∧
      (∀ span ∈ mergeSpans spans, span.start < span.stop ∧ span.stop ≤ text.length) ∧
      ∀ i, Covered (mergeSpans spans) i ↔ Covered spans i) ∧
    ((maskText text (mergeSpans spans)).length = text.length ∧
      ∀ i, (maskText text (mergeSpans spans)).toList[i]? = text.toList[i]?.map fun c =>
        if Covered spans i ∧ isPySpace c = false then maskChar else c) ∧
    ∀ (analyze : String → String → List (ℕ × ℕ)) (entityTypes : List String)
      (result : RedactionResult), redactText analyze text entityTypes = .ok result →
      (result.entityCounts.map Prod.snd).sum = result.spanCount := by
  have hbounded := bounded_mergeSpans hspans
  refine ⟨⟨?_, hbounded, covered_mergeSpans spans⟩, ⟨?_, fun i => ?_⟩, ?_⟩
  · refine (separated_mergeSpans spans).imp_of_mem fun {a b} ha _ hgap => ⟨?_, hgap⟩
    exact lt_trans (hbounded a ha).1 hgap
  · rw [← String.length_toList, length_maskText, String.length_toList]
  · rw [getElem?_maskText]
    refine congrArg (text.toList[i]?.map ·) (funext fun c => ?_)
    unfold maskedAt
    simp only [covered_mergeSpans]
  · intro analyze entityTypes result h
    obtain ⟨found, -, h⟩ := Failing.bind_ok.mp h
    obtain rfl := Except.ok.inj h
    -- The counts are over the types that occur, each of them once.
    dsimp only
    rw [List.map_map]
    refine sum_counts ?_ fun span hspan => ?_
    · rw [List.nodup_reverse]
      exact List.nodup_dedup _
    · rw [List.mem_reverse, List.mem_dedup, List.mem_reverse]
      exact List.mem_map_of_mem hspan

/-- Two numbers of a letter and a half, found out of order. -/
theorem masks_exactly_overlap :
    (mergeSpans [⟨2, 4, "US_SSN"⟩, ⟨0, 3, "PHONE_NUMBER"⟩]).Pairwise
      (fun a b => a.start < b.start ∧ a.stop < b.start) :=
  (masks_exactly "12 456" [⟨2, 4, "US_SSN"⟩, ⟨0, 3, "PHONE_NUMBER"⟩] (by decide)).1.1

end ExtractFlow
