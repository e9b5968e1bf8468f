import Mathlib.Data.List.Basic
import Mathlib.Data.List.Induction
import Mathlib.Logic.Function.Basic

/-!
# Replaying a log of writes

A store maps keys to values, some of them missing.  A write stores a value under
a key, or erases the key.  Replaying a log takes its writes in order; a key then
holds what was written under it last, and what the store held before when nothing
was.

## Main definitions

* `Replay.replay f log` — the store after the log.
* `Replay.lastStored log k` — the value stored last under a key.

## Main results

* `Replay.replay_of_not_erased` — a key the log does not erase.
* `Replay.lastStored_filter` — a log without some of the entries about other keys.
-/

namespace Replay

variable {κ ν : Type*} [DecidableEq κ]

/-- The store after the writes of a log, in order: `some v` stores, `none` erases. -/
def replay (f : κ → Option ν) (log : List (κ × Option ν)) : κ → Option ν :=
  log.foldl (fun f w => Function.update f w.1 w.2) f

/-- The value stored last under the key `k`: what the last write to the key holds that did not erase
it. -/
def lastStored (log : List (κ × Option ν)) (k : κ) : Option ν :=
  (log.filterMap fun w => if w.1 = k then w.2 else none).getLast?

variable {f : κ → Option ν} {log : List (κ × Option ν)} {w : κ × Option ν} {k : κ}

@[simp] theorem replay_nil : replay f [] = f := rfl

/-- A log replayed after another. -/
theorem replay_append (log' : List (κ × Option ν)) :
    replay f (log ++ log') = replay (replay f log) log' :=
  List.foldl_append

/-- One more write. -/
theorem replay_snoc : replay f (log ++ [w]) = Function.update (replay f log) w.1 w.2 :=
  replay_append [w]

/-- **A key the log does not erase** holds the value stored last, or what it held. -/
theorem replay_of_not_erased (h : ∀ w ∈ log, w.1 = k → w.2 ≠ none) :
    replay f log k = (lastStored log k).or (f k) := by
  induction log using List.reverseRecOn with
  | nil => rfl
  | append_singleton log w ih =>
    have hlog := ih fun w' hw' => h w' (List.mem_append_left _ hw')
    by_cases hw : w.1 = k
    · obtain ⟨v, hv⟩ := Option.ne_none_iff_exists'.mp (h w (by simp) hw)
      rw [replay_snoc, hw, Function.update_self, lastStored, List.filterMap_append]
      simp [hw, hv]
    · rw [replay_snoc, Function.update_of_ne (Ne.symm hw), hlog, lastStored, lastStored,
        List.filterMap_append]
      simp [hw]

/-- What is stored somewhere is stored last somewhere. -/
theorem lastStored_isSome {v : ν} (h : (k, some v) ∈ log) : (lastStored log k).isSome = true := by
  have hmem : v ∈ log.filterMap fun w => if w.1 = k then w.2 else none :=
    List.mem_filterMap.mpr ⟨_, h, by simp⟩
  exact List.getLast?_isSome.mpr (List.ne_nil_of_mem hmem)

/-- Entries that store nothing under a key may be left out of the log: what was stored last under
the key stays the same. -/
theorem lastStored_filter {γ : Type*} {cs : List γ} {keep : γ → Bool}
    (write : γ → Option (κ × Option ν))
    (h : ∀ c ∈ cs, ∀ w, write c = some w → w.1 = k → w.2.isSome = true → keep c = true) :
    lastStored ((cs.filter keep).filterMap write) k = lastStored (cs.filterMap write) k := by
  unfold lastStored
  rw [List.filterMap_filterMap, List.filterMap_filterMap, List.filterMap_filter]
  congr 1
  refine List.filterMap_congr fun c hc => ?_
  cases hw : write c with
  | none => simp
  | some w =>
    by_cases hk : w.1 = k
    · cases hv : w.2 with
      | none => simp [hk, hv]
      | some v => rw [if_pos (h c hc w hw hk (by rw [hv]; rfl))]
    · simp [hk]

end Replay
