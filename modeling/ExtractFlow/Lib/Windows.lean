import Mathlib.Data.List.Basic

/-!
# Windows over a range

A loop that walks over the positions below `n`: each turn takes a window from the
current start up to `stop start`, the turn whose window reaches the end is the last,
and every other turn moves the start on.  The windows need not be disjoint, and the
next start may lie before the end of the window.

## Main definitions

* `Windows.Loop` — a run of the loop to its end, with its windows.
* `Windows.windows` — the windows, by a bound on the number of turns.

## Main results

* `Windows.loop_windows` — the loop ends, when every turn moves the start on.
* `Windows.Loop.unique` — it has one run.
* `Windows.Loop.exists_window` — every position is in a window that reaches the end or
  beyond which the next window starts.
-/

namespace Windows

variable {stop next : ℕ → ℕ} {n : ℕ}

/-- A run of the loop from a start to its end, with the windows it took: it does not begin a turn
behind the range, and it leaves in the turn whose window reaches the end. -/
inductive Loop (stop next : ℕ → ℕ) (n : ℕ) : ℕ → List (ℕ × ℕ) → Prop
  | exit (start) : n ≤ start → Loop stop next n start []
  | last (start) : start < n → n ≤ stop start → Loop stop next n start [(start, stop start)]
  | turn (start rest) : start < n → stop start < n → Loop stop next n (next start) rest →
      Loop stop next n start ((start, stop start) :: rest)

/-- The windows of the loop, computed with a bound on the number of turns. -/
def windows (stop next : ℕ → ℕ) (n : ℕ) : ℕ → ℕ → List (ℕ × ℕ)
  | 0, _ => []
  | turns + 1, start =>
      if start < n then
        (start, stop start) :: if n ≤ stop start then [] else windows stop next n turns (next start)
      else []

/-- **The loop ends** when every turn moves the start on: as many turns as there are positions left
are enough. -/
theorem loop_windows (hnext : ∀ start, start < n → start < next start) :
    ∀ {turns start : ℕ}, n - start ≤ turns →
      Loop stop next n start (windows stop next n turns start) := by
  intro turns
  induction turns with
  | zero =>
    intro start hturns
    exact .exit start (by omega)
  | succ turns ih =>
    intro start hturns
    unfold windows
    by_cases hstart : start < n
    · rw [if_pos hstart]
      split
      · next hstop => exact .last start hstart hstop
      · next hstop =>
        have hmoves := hnext start hstart
        exact .turn start _ hstart (by omega) (ih (by omega))
    · rw [if_neg hstart]
      exact .exit start (by omega)

/-- The loop has one run from each start, so what is proved of one is proved of the code. -/
theorem Loop.unique {start : ℕ} {ws ws' : List (ℕ × ℕ)} (h : Loop stop next n start ws)
    (h' : Loop stop next n start ws') : ws = ws' := by
  induction h generalizing ws' with
  | exit start hexit => cases h' <;> first | rfl | omega
  | last start hstart hlast => cases h' <;> first | rfl | omega
  | turn start rest hstart hstop _ ih =>
    cases h' with
    | exit _ hexit => omega
    | last _ _ hlast => omega
    | turn _ rest' _ _ hrest => rw [ih hrest]

/-- The windows are those of starts in the range. -/
theorem Loop.of_mem {start : ℕ} {ws : List (ℕ × ℕ)} (h : Loop stop next n start ws) :
    ∀ w ∈ ws, w.1 < n ∧ w.2 = stop w.1 := by
  induction h with
  | exit start hexit => intro w hw; cases hw
  | last start hstart hlast =>
    intro w hw
    obtain rfl := List.mem_singleton.mp hw
    exact ⟨hstart, rfl⟩
  | turn start rest hstart hstop _ ih =>
    intro w hw
    rcases List.mem_cons.mp hw with rfl | hw
    · exact ⟨hstart, rfl⟩
    · exact ih w hw

/-- **Every position has a window**: the last one that starts at or before it reaches the
end, or the next one starts behind the position. -/
theorem Loop.exists_window {start i : ℕ} {ws : List (ℕ × ℕ)} (h : Loop stop next n start ws)
    (hstart : start ≤ i) (hi : i < n) :
    ∃ w ∈ ws, w.1 ≤ i ∧ (n ≤ w.2 ∨ i < next w.1) := by
  induction h with
  | exit start hexit => omega
  | last start _ hlast => exact ⟨_, List.mem_singleton_self _, hstart, Or.inl hlast⟩
  | turn start rest _ _ _ ih =>
    by_cases hnext : next start ≤ i
    · obtain ⟨w, hw, hle, hends⟩ := ih hnext
      exact ⟨w, List.mem_cons_of_mem _ hw, hle, hends⟩
    · exact ⟨_, List.mem_cons_self .., hstart, Or.inr (by simpa using hnext)⟩

end Windows
