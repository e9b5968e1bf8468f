import Mathlib.Algebra.GroupWithZero.Nat
import Mathlib.Data.List.TakeWhile
import ExtractFlow.Lib.Segments

/-!
# Marks in a text

A *matcher* sees the text from a position on, and says what it reads there and how long
it is.  Finding all matches from left to right, and asking for the last that starts at or
before a position, is the same as walking over the text and remembering what was read
last, as long as no match begins inside another.

If no match crosses a separator, then the walk over a text of segments is the walk over
one segment after the other.

## Main definitions

* `Scanning.findFrom` — all matches, none inside another.
* `Scanning.valueAt`, `Scanning.valueAfter` — what was read last, at a position and
  behind the text.
* `Scanning.NonOverlapping`, `Scanning.StopsAt` — the two assumptions on a matcher.
* `Scanning.intercalate`, `Scanning.start` — the text of segments, and where one starts.
* `Scanning.Tracks` — the tags of segments are what is read there.

## Main results

* `Scanning.last_findFrom` — the last match up to a position is what was read last.
* `Scanning.match_of_mem_findFrom`, `Scanning.mem_findFrom_of_match` — what is found is
  what matches.
* `Scanning.value_of_forall`, `Scanning.valueAt_of_match` — what was read last, if all
  matches agree, and where one begins.
* `Scanning.valueAt_intercalate` — a text of segments, one segment after the other.
* `Scanning.Tracks.valueAt_intercalate` — segments that track are read so in their text.
-/

namespace Scanning

variable {τ α : Type*}

/-- All matches from left to right, with their positions; the next `skip` letters belong to
the match before. -/
def findFrom (matcher : List τ → Option (α × ℕ)) : ℕ → ℕ → List τ → List (ℕ × α)
  | _, _, [] => []
  | pos, skip + 1, _ :: cs => findFrom matcher (pos + 1) skip cs
  | pos, 0, c :: cs =>
      match matcher (c :: cs) with
      | some (a, n) => (pos, a) :: findFrom matcher (pos + 1) (n - 1) cs
      | none => findFrom matcher (pos + 1) 0 cs

/-- What is read at the head of the text, else what was read before. -/
def now (matcher : List τ → Option (α × ℕ)) (current : Option α) (cs : List τ) : Option α :=
  ((matcher cs).map Prod.fst).or current

/-- What was read last, at a position: the mark that starts there, or else the last one before it.
-/
def valueAt (matcher : List τ → Option (α × ℕ)) : Option α → List τ → ℕ → Option α
  | current, [], _ => current
  | current, c :: cs, 0 => now matcher current (c :: cs)
  | current, c :: cs, p + 1 => valueAt matcher (now matcher current (c :: cs)) cs p

/-- What was read last when the walk is behind the text. -/
def valueAfter (matcher : List τ → Option (α × ℕ)) : Option α → List τ → Option α
  | current, [] => current
  | current, c :: cs => valueAfter matcher (now matcher current (c :: cs)) cs

/-- No match begins inside another, so skipping a match that was found passes over none. -/
def NonOverlapping (matcher : List τ → Option (α × ℕ)) : Prop :=
  ∀ cs a n, matcher cs = some (a, n) → ∀ k, 0 < k → k < n → matcher (cs.drop k) = none

/-- No match crosses the separator: what is read in front of one is the same whatever stands behind
it. -/
structure StopsAt (matcher : List τ → Option (α × ℕ)) (sep : τ) : Prop where
  nil : matcher [] = none
  append : ∀ cs rest, matcher (cs ++ sep :: rest) = matcher cs

/-! ### Finding and walking -/

section Walking

variable {matcher : List τ → Option (α × ℕ)}

theorem now_of_none {current : Option α} {cs : List τ} (h : matcher cs = none) :
    now matcher current cs = current := by
  rw [now, h]
  rfl

theorem now_of_some {current : Option α} {cs : List τ} {a : α} {n : ℕ}
    (h : matcher cs = some (a, n)) : now matcher current cs = some a := by
  rw [now, h]
  rfl

theorem le_of_mem_findFrom : ∀ {cs : List τ} {pos skip : ℕ}, ∀ x ∈ findFrom matcher pos skip cs,
    pos ≤ x.1 := by
  intro cs
  induction cs with
  | nil => intro pos skip x hx; cases hx
  | cons c cs ih =>
    intro pos skip x hx
    cases skip with
    | succ skip => exact le_trans (Nat.le_succ pos) (ih x hx)
    | zero =>
      rw [findFrom] at hx
      split at hx
      · rcases List.mem_cons.mp hx with rfl | hx
        · exact le_rfl
        · exact le_trans (Nat.le_succ pos) (ih x hx)
      · exact le_trans (Nat.le_succ pos) (ih x hx)

/-- Behind the position there is nothing to take. -/
theorem takeWhile_findFrom_succ (matcher : List τ → Option (α × ℕ)) (pos skip : ℕ) (cs : List τ) :
    (findFrom matcher (pos + 1) skip cs).takeWhile (fun x => decide (x.1 ≤ pos)) = [] := by
  rw [List.takeWhile_eq_nil_iff]
  intro hpos
  have hle := le_of_mem_findFrom _
    (List.get_mem (findFrom matcher (pos + 1) skip cs) ⟨0, hpos⟩)
  simp only [decide_eq_true_eq]
  omega

/-- **The last match up to a position is what was read last.** -/
theorem last_findFrom (hfree : NonOverlapping matcher) :
    ∀ {cs : List τ} {pos skip p : ℕ} {current : Option α},
      (∀ k < skip, matcher (cs.drop k) = none) →
      (((findFrom matcher pos skip cs).takeWhile
        fun x => decide (x.1 ≤ pos + p)).getLast?.map Prod.snd).or current =
        valueAt matcher current cs p := by
  intro cs
  induction cs with
  | nil => intro pos skip p current _; rfl
  | cons c cs ih =>
    intro pos skip p current hskip
    have hpos : ∀ q, pos + (q + 1) = (pos + 1) + q := by omega
    cases skip with
    | succ skip =>
      have hnow : now matcher current (c :: cs) = current :=
        now_of_none (hskip 0 (Nat.succ_pos _))
      rw [findFrom]
      cases p with
      | zero =>
        rw [valueAt, hnow, Nat.add_zero, takeWhile_findFrom_succ]
        rfl
      | succ p =>
        rw [valueAt, hnow, hpos]
        exact ih fun k hk => hskip (k + 1) (by omega)
    | zero =>
      rw [findFrom]
      cases hmatch : matcher (c :: cs) with
      | none =>
        have hnow : now matcher current (c :: cs) = current := now_of_none hmatch
        dsimp only
        cases p with
        | zero =>
          rw [valueAt, hnow, Nat.add_zero, takeWhile_findFrom_succ]
          rfl
        | succ p =>
          rw [valueAt, hnow, hpos]
          exact ih fun k hk => absurd hk (Nat.not_lt_zero k)
      | some found =>
        obtain ⟨a, n⟩ := found
        have hnow : now matcher current (c :: cs) = some a := now_of_some hmatch
        dsimp only
        rw [List.takeWhile_cons_of_pos (by simp)]
        cases p with
        | zero =>
          rw [valueAt, hnow, Nat.add_zero, takeWhile_findFrom_succ]
          rfl
        | succ p =>
          -- inside the match there is none
          have hrest : (((findFrom matcher (pos + 1) (n - 1) cs).takeWhile
              fun x => decide (x.1 ≤ pos + 1 + p)).getLast?.map Prod.snd).or (some a) =
              valueAt matcher (some a) cs p :=
            ih fun k hk => hfree _ _ _ hmatch (k + 1) (Nat.succ_pos k) (by omega)
          rw [valueAt, hnow, hpos, ← hrest, List.getLast?_cons]
          cases ((findFrom matcher (pos + 1) (n - 1) cs).takeWhile
            fun x => decide (x.1 ≤ pos + 1 + p)).getLast? <;> rfl

/-- What is found is a match in the text, at some position of it. -/
theorem match_of_mem_findFrom : ∀ {cs : List τ} {pos skip : ℕ} {x : ℕ × α},
    x ∈ findFrom matcher pos skip cs → ∃ k n, matcher (cs.drop k) = some (x.2, n) := by
  intro cs
  induction cs with
  | nil => intro pos skip x hx; cases hx
  | cons c cs ih =>
    intro pos skip x hx
    have hrest : ∀ {skip : ℕ}, x ∈ findFrom matcher (pos + 1) skip cs →
        ∃ k n, matcher ((c :: cs).drop k) = some (x.2, n) := by
      intro skip hx
      obtain ⟨k, n, hmatch⟩ := ih hx
      exact ⟨k + 1, n, hmatch⟩
    cases skip with
    | succ skip => exact hrest hx
    | zero =>
      rw [findFrom] at hx
      split at hx
      next a n hmatch =>
        rcases List.mem_cons.mp hx with rfl | hx
        · exact ⟨0, n, hmatch⟩
        · exact hrest hx
      next => exact hrest hx

/-- Every match in the text is found, whatever is skipped: what is skipped is the rest of a match,
in which no other begins. -/
theorem mem_findFrom_of_match (hfree : NonOverlapping matcher) (hnil : matcher [] = none) :
    ∀ {cs : List τ} {pos skip k n : ℕ} {a : α}, (∀ j < skip, matcher (cs.drop j) = none) →
      matcher (cs.drop k) = some (a, n) → (pos + k, a) ∈ findFrom matcher pos skip cs := by
  intro cs
  induction cs with
  | nil =>
    intro pos skip k n a _ hmatch
    rw [List.drop_nil, hnil] at hmatch
    cases hmatch
  | cons c cs ih =>
    intro pos skip k n a hskip hmatch
    -- inside a match that was found, or in front of one
    cases skip with
    | succ skip =>
      cases k with
      | zero =>
        rw [hskip 0 (Nat.succ_pos _)] at hmatch
        cases hmatch
      | succ k =>
        have hpos : pos + (k + 1) = pos + 1 + k := by omega
        rw [findFrom, hpos]
        exact ih (fun j hj => hskip (j + 1) (Nat.succ_lt_succ hj)) hmatch
    | zero =>
      rw [findFrom]
      cases k with
      | zero =>
        rw [List.drop_zero] at hmatch
        rw [hmatch]
        exact List.mem_cons_self ..
      | succ k =>
        have hpos : pos + (k + 1) = pos + 1 + k := by omega
        rw [hpos]
        cases hhead : matcher (c :: cs) with
        | none => exact ih (fun j hj => absurd hj (Nat.not_lt_zero j)) hmatch
        | some found =>
          obtain ⟨b, m⟩ := found
          refine List.mem_cons_of_mem _ (ih ?_ hmatch)
          exact fun j hj => hfree _ _ _ hhead (j + 1) (Nat.succ_pos j) (by omega)

/-- Where a match begins, it is what was read last, whatever was read before. -/
theorem valueAt_of_match (hnil : matcher [] = none) : ∀ {cs : List τ} {p n : ℕ} {current : Option α}
    {a : α}, matcher (cs.drop p) = some (a, n) → valueAt matcher current cs p = some a := by
  intro cs
  induction cs with
  | nil =>
    intro p n current a hmatch
    rw [List.drop_nil, hnil] at hmatch
    cases hmatch
  | cons c cs ih =>
    intro p n current a hmatch
    cases p with
    | zero =>
      rw [List.drop_zero] at hmatch
      rw [valueAt, now, hmatch]
      rfl
    | succ p => exact ih hmatch

/-- If all matches read one value, it stays what was read last. -/
theorem value_of_forall {a : α} : ∀ {cs : List τ},
    (∀ k b n, matcher (cs.drop k) = some (b, n) → b = a) →
      valueAfter matcher (some a) cs = some a ∧ ∀ p, valueAt matcher (some a) cs p = some a := by
  intro cs
  induction cs with
  | nil => exact fun _ => ⟨rfl, fun _ => rfl⟩
  | cons c cs ih =>
    intro hall
    have hnow : now matcher (some a) (c :: cs) = some a := by
      cases hmatch : matcher (c :: cs) with
      | none =>
        rw [now, hmatch]
        rfl
      | some found =>
        obtain ⟨b, n⟩ := found
        obtain rfl := hall 0 b n hmatch
        rw [now, hmatch]
        rfl
    obtain ⟨hafter, hat⟩ := ih fun k b n hmatch => hall (k + 1) b n hmatch
    refine ⟨?_, fun p => ?_⟩
    · rw [valueAfter, hnow, hafter]
    · cases p with
      | zero => rw [valueAt, hnow]
      | succ p => rw [valueAt, hnow, hat]

/-- Behind a text that is one match, that is what was read last. -/
theorem valueAfter_of_match (hfree : NonOverlapping matcher) {cs : List τ} {a : α} {n : ℕ}
    (hmatch : matcher cs = some (a, n)) (hnil : matcher [] = none) (hlength : cs.length ≤ n)
    (current : Option α) : valueAfter matcher current cs = some a := by
  cases cs with
  | nil =>
    rw [hnil] at hmatch
    cases hmatch
  | cons c cs =>
    have hnow : now matcher current (c :: cs) = some a := by
      rw [now, hmatch]
      rfl
    rw [valueAfter, hnow]
    refine (value_of_forall fun k b m hinside => ?_).1
    by_cases hk : k + 1 < n
    · have hnone : matcher (cs.drop k) = none := hfree _ _ _ hmatch (k + 1) (Nat.succ_pos k) hk
      rw [hnone] at hinside
      cases hinside
    · have hend : cs.drop k = [] := by
        refine List.drop_eq_nil_of_le ?_
        rw [List.length_cons] at hlength
        omega
      rw [hend, hnil] at hinside
      cases hinside

end Walking

/-! ### Segments -/

/-- The segments, with a separator between any two that follow one another. -/
def intercalate (sep : τ) : List (List τ) → List τ
  | [] => []
  | s :: ss => s ++ Segments.join sep ss

theorem intercalate_eq (sep : τ) (segs : List (List τ)) :
    intercalate sep segs = [sep].intercalate segs := by
  cases segs with
  | nil => rfl
  | cons s rest =>
    induction rest generalizing s with
    | nil => simp [intercalate]
    | cons t rest ih =>
      rw [List.intercalate_cons_cons, ← ih t]
      simp [intercalate]

/-- Where a segment starts behind others: each of these takes its length and a separator. -/
def start (segs : List (List τ)) : ℕ := (segs.map fun s => s.length + 1).sum

section Segmented

variable {matcher : List τ → Option (α × ℕ)} {sep : τ}

theorem now_append (hstops : StopsAt matcher sep) (current : Option α) (cs rest : List τ) :
    now matcher current (cs ++ sep :: rest) = now matcher current cs := by
  rw [now, now, hstops.append]

theorem now_sep (hstops : StopsAt matcher sep) (current : Option α) (rest : List τ) :
    now matcher current (sep :: rest) = current :=
  now_of_none ((hstops.append [] rest).trans hstops.nil)

theorem valueAt_append_left (hstops : StopsAt matcher sep) : ∀ {cs : List τ} {current : Option α}
    {rest : List τ} {p : ℕ}, p < cs.length →
      valueAt matcher current (cs ++ sep :: rest) p = valueAt matcher current cs p := by
  intro cs
  induction cs with
  | nil => intro current rest p hp; exact absurd hp (Nat.not_lt_zero p)
  | cons c cs ih =>
    intro current rest p hp
    rw [List.cons_append]
    cases p with
    | zero => rw [valueAt, valueAt, ← List.cons_append, now_append hstops]
    | succ p =>
      rw [valueAt, valueAt, ← List.cons_append, now_append hstops]
      exact ih (Nat.lt_of_succ_lt_succ hp)

theorem valueAt_append_right (hstops : StopsAt matcher sep) : ∀ {cs : List τ} {current : Option α}
    {rest : List τ} {p : ℕ}, valueAt matcher current (cs ++ sep :: rest) (cs.length + 1 + p) =
      valueAt matcher (valueAfter matcher current cs) rest p := by
  intro cs
  induction cs with
  | nil =>
    intro current rest p
    have hpos : ([] : List τ).length + 1 + p = p + 1 := by simp; omega
    rw [List.nil_append, hpos, valueAt, now_sep hstops, valueAfter]
  | cons c cs ih =>
    intro current rest p
    have hpos : (c :: cs).length + 1 + p = (cs.length + 1 + p) + 1 := by simp; omega
    rw [List.cons_append, hpos, valueAt, valueAfter, ← List.cons_append, now_append hstops, ih]

/-- A segment and the text of the segments behind it. -/
theorem intercalate_cons (s : List τ) (t : List τ) (ts : List (List τ)) :
    intercalate sep (s :: t :: ts) = s ++ sep :: intercalate sep (t :: ts) := rfl

/-- **The walk over a text of segments**: at a position of a segment, what was read last is
what is read last in the segment, after all of those before it. -/
theorem valueAt_intercalate (hstops : StopsAt matcher sep) : ∀ {before : List (List τ)}
    {current : Option α} {s : List τ} {after : List (List τ)} {p : ℕ}, p < s.length →
      valueAt matcher current (intercalate sep (before ++ s :: after)) (start before + p) =
        valueAt matcher (before.foldl (valueAfter matcher) current) s p := by
  intro before
  induction before with
  | nil =>
    intro current s after p hp
    have hpos : start ([] : List (List τ)) + p = p := Nat.zero_add p
    rw [List.nil_append, hpos]
    cases after with
    | nil => simp [intercalate]
    | cons t after => exact valueAt_append_left hstops hp
  | cons b before ih =>
    intro current s after p hp
    obtain ⟨t, ts, hts⟩ : ∃ t ts, before ++ s :: after = t :: ts := by
      cases before with
      | nil => exact ⟨s, after, rfl⟩
      | cons t before => exact ⟨t, before ++ s :: after, rfl⟩
    have hpos : start (b :: before) + p = b.length + 1 + (start before + p) := by
      simp only [start, List.map_cons, List.sum_cons]
      omega
    rw [List.cons_append, hts, intercalate_cons, hpos, valueAt_append_right hstops, ← hts, ih hp]
    rfl

/-- The segment stands where it starts. -/
theorem drop_start_intercalate : ∀ {before : List (List τ)} {s : List τ} {after : List (List τ)},
    s <+: (intercalate sep (before ++ s :: after)).drop (start before) := by
  intro before
  induction before with
  | nil => intro s after; exact List.prefix_append _ _
  | cons b before ih =>
    intro s after
    obtain ⟨t, ts, hts⟩ : ∃ t ts, before ++ s :: after = t :: ts := by
      cases before with
      | nil => exact ⟨s, after, rfl⟩
      | cons t before => exact ⟨t, before ++ s :: after, rfl⟩
    have hstart : start (b :: before) = b.length + (1 + start before) := by
      simp only [start, List.map_cons, List.sum_cons]
      omega
    rw [List.cons_append, hts, intercalate_cons, hstart, ← List.drop_drop, List.drop_left,
      Nat.add_comm 1, List.drop_succ_cons, ← hts]
    exact ih

end Segmented

/-! ### Segments with a tag -/

/-- All along a segment that has a tag, the tag is what was read last. -/
def Tracks (matcher : List τ → Option (α × ℕ)) : Option α → List (Option α × List τ) → Prop
  | _, [] => True
  | current, seg :: segs =>
      (∀ a, seg.1 = some a → ∀ p < seg.2.length, valueAt matcher current seg.2 p = some a) ∧
        Tracks matcher (valueAfter matcher current seg.2) segs

section Tagged

variable {matcher : List τ → Option (α × ℕ)} {sep : τ}

theorem tracks_append : ∀ {segs others : List (Option α × List τ)} {current : Option α},
    Tracks matcher current (segs ++ others) ↔ Tracks matcher current segs ∧
      Tracks matcher ((segs.map Prod.snd).foldl (valueAfter matcher) current) others := by
  intro segs
  induction segs with
  | nil =>
    intro others current
    exact ⟨fun h => ⟨trivial, h⟩, And.right⟩
  | cons seg segs ih =>
    intro others current
    rw [List.cons_append, Tracks, Tracks, ih, and_assoc]
    rfl

/-- **Segments that track** are read so in their text: at every position of a segment that has a
value, that value is what was read last. -/
theorem Tracks.valueAt_intercalate (hstops : StopsAt matcher sep)
    {segs before after : List (Option α × List τ)} {current : Option α} {a : α} {s : List τ}
    (h : Tracks matcher current segs) (hsegs : segs = before ++ (some a, s) :: after) {p : ℕ}
    (hp : p < s.length) :
    valueAt matcher current (intercalate sep (segs.map Prod.snd))
      (start (before.map Prod.snd) + p) = some a := by
  subst hsegs
  rw [List.map_append, List.map_cons, Scanning.valueAt_intercalate hstops hp]
  exact (tracks_append.mp h).2.1 a rfl p hp

/-- Segments of one tag track it, if all matches in them read it. -/
theorem tracks_of_forall {a : α} : ∀ {texts : List (List τ)},
    (∀ s ∈ texts, ∀ k b n, matcher (s.drop k) = some (b, n) → b = a) →
      Tracks matcher (some a) (texts.map fun s => (some a, s)) := by
  intro texts
  induction texts with
  | nil => exact fun _ => trivial
  | cons s texts ih =>
    intro h
    obtain ⟨hafter, hat⟩ := value_of_forall (h s (List.mem_cons_self ..))
    refine ⟨fun b hb p _ => hb ▸ hat p, ?_⟩
    rw [hafter]
    exact ih fun t ht => h t (List.mem_cons_of_mem _ ht)

/-- Blocks that track whatever was read before do so one behind the other. -/
theorem tracks_intercalate : ∀ {blocks : List (List (Option α × List τ))},
    (∀ block ∈ blocks, ∀ current, Tracks matcher current block) → ∀ current,
      Tracks matcher current ([(none, [])].intercalate blocks) := by
  intro blocks
  induction blocks with
  | nil => exact fun _ _ => trivial
  | cons block rest ih =>
    intro h current
    have hrest := ih fun b hb => h b (List.mem_cons_of_mem _ hb)
    cases rest with
    | nil =>
      rw [List.intercalate_singleton]
      exact h block (List.mem_cons_self ..) current
    | cons next rest =>
      rw [List.intercalate_cons_cons, List.append_assoc]
      refine tracks_append.mpr ⟨h block (List.mem_cons_self ..) current, ?_, hrest _⟩
      intro a ha
      cases ha

end Tagged

/-- What is in joined lists and is no separator is in one of them. -/
theorem mem_intercalate {sep x : τ} (hx : x ≠ sep) : ∀ {ls : List (List τ)},
    x ∈ [sep].intercalate ls ↔ ∃ l ∈ ls, x ∈ l := by
  intro ls
  induction ls with
  | nil => simp
  | cons l rest ih =>
    cases rest with
    | nil => simp
    | cons next rest =>
      rw [List.intercalate_cons_cons, List.mem_append, List.mem_append, List.mem_singleton, ih]
      simp [hx]

theorem map_intercalate {β : Type*} (f : τ → β) (sep : List τ) : ∀ (ls : List (List τ)),
    (sep.intercalate ls).map f = (sep.map f).intercalate (ls.map (List.map f)) := by
  intro ls
  induction ls with
  | nil => rfl
  | cons l rest ih =>
    cases rest with
    | nil => simp
    | cons next rest =>
      rw [List.intercalate_cons_cons, List.map_append, List.map_append, ih]
      simp

/-- Blocks of segments, two separators between two: an empty segment stands there. -/
theorem intercalate_blocks (sep : τ) : ∀ {blocks : List (List (List τ))},
    (∀ block ∈ blocks, block ≠ []) →
      [sep, sep].intercalate (blocks.map [sep].intercalate) =
        [sep].intercalate ([[]].intercalate blocks) := by
  have happend : ∀ {a b : List (List τ)}, a ≠ [] → b ≠ [] →
      [sep].intercalate (a ++ b) = [sep].intercalate a ++ sep :: [sep].intercalate b := by
    intro a
    induction a with
    | nil => intro b ha _; exact absurd rfl ha
    | cons s rest ih =>
      intro b _ hb
      cases rest with
      | nil =>
        rw [List.singleton_append, List.intercalate_cons_of_ne_nil hb, List.intercalate_singleton,
          List.append_assoc]
        rfl
      | cons t rest =>
        rw [List.cons_append, List.intercalate_cons_of_ne_nil (by simp),
          ih (List.cons_ne_nil t rest) hb, List.intercalate_cons_cons]
        simp
  -- by induction on the blocks; two separators are one, an empty segment and one more
  intro blocks
  induction blocks with
  | nil => exact fun _ => rfl
  | cons block rest ih =>
    intro h
    have hrest := ih fun b hb => h b (List.mem_cons_of_mem _ hb)
    have hblock := h block (List.mem_cons_self ..)
    cases rest with
    | nil => simp
    | cons next rest =>
      have hne : [[]].intercalate (next :: rest) ≠ [] := by
        cases next with
        | nil => exact absurd rfl (h [] (List.mem_cons_of_mem _ (List.mem_cons_self ..)))
        | cons s next => simp
      rw [List.map_cons, List.intercalate_cons_of_ne_nil (by simp), hrest,
        List.intercalate_cons_cons, List.append_assoc block, happend hblock (by simp),
        List.singleton_append, List.intercalate_cons_of_ne_nil hne]
      simp

end Scanning
