import ExtractFlow.Lib.Failing

/-!
# Computations that check

A computation that raises unless a condition holds, and then returns a known value.  Such
computations compose: the conditions are collected, and the values go from one to the next.

## Main definitions

* `Failing.Checked` — the condition and the value.

## Main results

* `Failing.Checked.guard`, `Failing.Checked.bind`, `Failing.Checked.mapM_zipIdx`,
  `Failing.Checked.forM_zipIdx` — how the conditions are collected.
* `Failing.Checked.ok_iff`, `Failing.Checked.returns_iff` — what was returned, and when.
-/

namespace Failing

universe u v

variable {ε : Type u} {α β : Type v}

/-- The computation returns `a` when `P` holds, and raises when it does not. -/
def Checked (x : Except ε α) (P : Prop) (a : α) : Prop :=
  (P → x = .ok a) ∧ (¬ P → ∃ e, x = .error e)

theorem Checked.ok (a : α) : Checked (.ok a : Except ε α) True a :=
  ⟨fun _ => rfl, fun h => absurd trivial h⟩

theorem Checked.congr {x : Except ε α} {P Q : Prop} {a b : α} (h : Checked x P a) (hPQ : P ↔ Q)
    (hab : a = b) : Checked x Q b := by
  rwa [← hPQ, ← hab]

/-- A check in front: an exception if `c` holds, and otherwise the computation behind it. The
conditions of both are collected. -/
theorem Checked.guard {x : Except ε α} {P c : Prop} [Decidable c] {a : α} {e : ε}
    (h : Checked x P a) : Checked (if c then .error e else x) (¬ c ∧ P) a := by
  by_cases hc : c
  · rw [if_pos hc]
    exact ⟨fun hall => absurd hc hall.1, fun _ => ⟨e, rfl⟩⟩
  · rw [if_neg hc]
    exact h.congr (by simp [hc]) rfl

/-- One computation after the other: the whole returns the value of the second if the conditions of
both hold, and raises otherwise. -/
theorem Checked.bind {x : Except ε α} {f : α → Except ε β} {P Q : Prop} {a : α} {b : β}
    (hx : Checked x P a) (hf : Checked (f a) Q b) : Checked (x >>= f) (P ∧ Q) b := by
  constructor
  · rintro ⟨hP, hQ⟩
    rw [bind_of_ok (hx.1 hP), hf.1 hQ]
  · intro hnot
    by_cases hP : P
    · obtain ⟨e, he⟩ := hf.2 fun hQ => hnot ⟨hP, hQ⟩
      exact ⟨e, by rw [bind_of_ok (hx.1 hP), he]⟩
    · obtain ⟨e, he⟩ := hx.2 hP
      exact ⟨e, bind_of_error he⟩

/-- A loop over items with their places, whose turns check the items: it returns all images if every
item passes, wherever it starts to count. -/
theorem Checked.mapM_zipIdx {f : α × ℕ → Except ε β} {P : α → Prop} {g : α → β} :
    ∀ {xs : List α} (start : ℕ), (∀ x ∈ xs, ∀ i, Checked (f (x, i)) (P x) (g x)) →
      Checked ((xs.zipIdx start).mapM f) (∀ x ∈ xs, P x) (xs.map g) := by
  intro xs
  induction xs with
  | nil => exact fun _ _ => (Checked.ok []).congr (by simp) rfl
  | cons x xs ih =>
    intro start h
    obtain ⟨hx, hxs⟩ := List.forall_mem_cons.mp h
    rw [List.zipIdx_cons, List.mapM_cons]
    have hrest := (ih (start + 1) hxs).bind (f := fun ys => pure (g x :: ys)) (Checked.ok _)
    exact ((hx start).bind hrest).congr (by simp) rfl

/-- The same of a loop that returns nothing: it ends if every item passes its check, and raises
otherwise. -/
theorem Checked.forM_zipIdx {f : α × ℕ → Except ε PUnit.{v + 1}} {P : α → Prop} :
    ∀ {xs : List α} (start : ℕ), (∀ x ∈ xs, ∀ i, Checked (f (x, i)) (P x) .unit) →
      Checked ((xs.zipIdx start).forM f) (∀ x ∈ xs, P x) .unit := by
  intro xs
  induction xs with
  | nil => exact fun _ _ => (Checked.ok PUnit.unit).congr (by simp) rfl
  | cons x xs ih =>
    intro start h
    obtain ⟨hx, hxs⟩ := List.forall_mem_cons.mp h
    rw [List.zipIdx_cons, List.forM_eq_forM, List.forM_cons]
    exact ((hx start).bind (ih (start + 1) hxs)).congr (by simp) rfl

/-- What a checked computation returned is the known value, and then its condition holds. -/
theorem Checked.ok_iff {x : Except ε α} {P : Prop} {a b : α} (h : Checked x P a) :
    x = .ok b ↔ P ∧ a = b := by
  by_cases hP : P
  · rw [h.1 hP, Except.ok.injEq]
    simp [hP]
  · obtain ⟨e, he⟩ := h.2 hP
    simp [he, hP]

/-- A checked computation returns exactly when its condition holds. -/
theorem Checked.returns_iff {x : Except ε α} {P : Prop} {a : α} (h : Checked x P a) :
    (∃ b, x = .ok b) ↔ P := by
  constructor
  · rintro ⟨b, hb⟩
    exact (h.ok_iff.mp hb).1
  · exact fun hP => ⟨a, h.1 hP⟩

end Failing
