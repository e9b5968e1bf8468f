import Mathlib.Logic.Basic
import Mathlib.Tactic.Common

/-!
# Executable transition systems

A system is a step function `step : σ → α → Option σ`: in the state `s` the
action `a` is either refused (`none`) or leads to one successor.  Everything a
scheduler may choose — which party moves, what the outside world answers — is
part of the action, so an interleaving is a list of actions.

A *guarded* run is a run each of whose actions is taken in a state where the
guard allows it.  The guard `fun _ _ => True` gives all runs, so a property of
all runs and the same property of the runs that keep to a discipline are two
instances of one statement.

## Main definitions

* `Run step ok s as t` — the actions `as` lead from `s` to `t`, each allowed by
  `ok` where it is taken.
* `exec step s as` — the run of a given schedule, computed.
* `outputs step out s as` — what the steps of a schedule put out, in order.

## Main results

* `Run.invariant` — what every allowed step preserves, a run preserves.
* `Run.trace_invariant` — the same for a property of the state and the actions so far.
* `Run.ok_or_first_violation` — a run keeps to a guard, or takes a first action it forbids.
* `run_of_exec` — a computed schedule is a run.
* `Run.outputs_invariant` — what every step keeps of the state and its output, a run keeps.
-/

namespace Transition

variable {σ α : Type*}

/-- The actions `as` lead from `s` to `t`, each of them allowed by `ok` in the
state where it is taken. -/
inductive Run (step : σ → α → Option σ) (ok : σ → α → Prop) : σ → List α → σ → Prop
  /-- The empty run stays where it is. -/
  | nil (s : σ) : Run step ok s [] s
  /-- One allowed step, and a run from where it leads. -/
  | cons {s t u : σ} {a : α} {as : List α} :
      step s a = some t → ok s a → Run step ok t as u → Run step ok s (a :: as) u

/-- Run a schedule: take its actions one after the other, and stop with `none` at the first that is
refused. -/
def exec (step : σ → α → Option σ) : σ → List α → Option σ
  | s, [] => some s
  | s, a :: as => (step s a).bind fun t => exec step t as

variable {step : σ → α → Option σ} {ok ok' : σ → α → Prop}

/-- Anything every allowed step preserves holds at the end of a run that starts
with it. -/
theorem Run.invariant {I : σ → Prop}
    (hstep : ∀ s a t, I s → ok s a → step s a = some t → I t)
    {s t : σ} {as : List α} (h : Run step ok s as t) (hs : I s) : I t := by
  induction h with
  | nil s => exact hs
  | cons hst hok _ ih => exact ih (hstep _ _ _ hs hok hst)

/-- The rule of `Run.invariant` for a property that also sees the actions taken
so far. -/
theorem Run.trace_invariant {I : List α → σ → Prop}
    (hstep : ∀ as s a t, I as s → ok s a → step s a = some t → I (as ++ [a]) t)
    {s t : σ} {as : List α} (h : Run step ok s as t) :
    ∀ pre : List α, I pre s → I (pre ++ as) t := by
  induction h with
  | nil s => intro pre hs; simpa using hs
  | cons hst hok _ ih =>
    intro pre hs
    have := ih _ (hstep _ _ _ _ hs hok hst)
    simpa using this

/-- A run keeps to a guard, or has a first action the guard forbids. -/
theorem Run.ok_or_first_violation {s t : σ} {as : List α} (h : Run step ok' s as t) :
    Run step ok s as t ∨
      ∃ (u v : σ) (a : α) (bs cs : List α), as = bs ++ a :: cs ∧ Run step ok s bs u ∧ ¬ ok u a ∧
        step u a = some v ∧ Run step ok' v cs t := by
  induction h with
  | nil s => exact Or.inl (.nil s)
  | @cons s v t a cs hst _ hrest ih =>
    by_cases hok : ok s a
    · rcases ih with ih | ⟨u, w, b, bs, ds, rfl, hbs, hno, hb, hds⟩
      · exact Or.inl (.cons hst hok ih)
      · exact Or.inr ⟨u, w, b, a :: bs, ds, rfl, .cons hst hok hbs, hno, hb, hds⟩
    · exact Or.inr ⟨s, v, a, [], cs, rfl, .nil s, hok, hst, hrest⟩

/-- A run under a guard is a run under any weaker guard. -/
theorem Run.mono (himp : ∀ s a, ok s a → ok' s a) {s t : σ} {as : List α}
    (h : Run step ok s as t) : Run step ok' s as t := by
  induction h with
  | nil s => exact .nil s
  | cons hst hok _ ih => exact .cons hst (himp _ _ hok) ih

/-- Runs compose. -/
theorem Run.append {s t u : σ} {as bs : List α} (h : Run step ok s as t)
    (h' : Run step ok t bs u) : Run step ok s (as ++ bs) u := by
  induction h with
  | nil s => exact h'
  | cons hst hok _ ih => exact .cons hst hok (ih h')

/-- A run extended by one allowed step. -/
theorem Run.snoc {s t u : σ} {as : List α} {a : α} (h : Run step ok s as t)
    (hst : step t a = some u) (hok : ok t a) : Run step ok s (as ++ [a]) u :=
  h.append (.cons hst hok (.nil u))

/-- A computed schedule of actions that are always allowed is an allowed run. -/
theorem run_of_exec_of_forall : ∀ (as : List α) (s t : σ), (∀ a ∈ as, ∀ s, ok s a) →
    exec step s as = some t → Run step ok s as t := by
  intro as
  induction as with
  | nil =>
    intro s t _ h
    obtain rfl := Option.some.inj h
    exact .nil s
  | cons a as ih =>
    intro s t hok h
    obtain ⟨u, hu, hrest⟩ := Option.bind_eq_some_iff.mp h
    exact .cons hu (hok a (List.mem_cons_self ..) s)
      (ih u t (fun b hb => hok b (List.mem_cons_of_mem _ hb)) hrest)

/-- The computed run of a schedule is a run, so a concrete schedule is checked by evaluating it. -/
theorem run_of_exec (as : List α) (s t : σ) (h : exec step s as = some t) :
    Run step (fun _ _ => True) s as t :=
  run_of_exec_of_forall as s t (fun _ _ _ => trivial) h

/-- A run is what its schedule computes. -/
theorem Run.exec_eq {s t : σ} {as : List α} (h : Run step ok s as t) :
    exec step s as = some t := by
  induction h with
  | nil s => rfl
  | cons hst _ _ ih => simp only [exec, hst, Option.bind_some, ih]

/-! ### Outputs -/

/-- What the steps of a schedule put out, when `out s a` is what the action `a`
puts out in the state `s`. -/
def outputs {β : Type*} (step : σ → α → Option σ) (out : σ → α → Option β) :
    σ → List α → List β
  | _, [] => []
  | s, a :: as => (out s a).toList ++ (step s a).elim [] fun t => outputs step out t as

section Outputs

variable {β : Type*} {out : σ → α → Option β}

/-- The first step puts out its own part, and the rest of the run the rest. -/
theorem outputs_cons {s t : σ} {a : α} (h : step s a = some t) (as : List α) :
    outputs step out s (a :: as) = (out s a).toList ++ outputs step out t as := by
  simp only [outputs, h, Option.elim_some]

/-- One step more puts out its own part at the end. -/
theorem Run.outputs_snoc {s t : σ} {as : List α} (h : Run step ok s as t) (a : α) :
    outputs step out s (as ++ [a]) = outputs step out s as ++ (out t a).toList := by
  induction h with
  | nil s =>
    show (out s a).toList ++ (step s a).elim [] (fun _ => []) = _
    cases step s a <;> simp [outputs]
  | cons hst _ _ ih =>
    rw [List.cons_append, outputs_cons hst, outputs_cons hst, ih, List.append_assoc]

/-- A relation between a state, what was put out since, and the state now, that
holds of no step and is kept by every allowed one, holds of a run. -/
theorem Run.outputs_invariant {R : σ → List β → σ → Prop} (hnil : ∀ s, R s [] s)
    (hstep : ∀ s a t bs u, ok s a → step s a = some t → R t bs u →
      R s ((out s a).toList ++ bs) u)
    {s t : σ} {as : List α} (h : Run step ok s as t) : R s (outputs step out s as) t := by
  induction h with
  | nil s => exact hnil s
  | cons hst hok _ ih =>
    rw [outputs_cons hst]
    exact hstep _ _ _ _ _ hok hst ih

/-- A run through states where nothing of a kind is put out puts out nothing of
that kind. -/
theorem Run.outputs_forall {I : σ → Prop} {P : β → Prop}
    (hI : ∀ s a t, I s → ok s a → step s a = some t → I t)
    (hout : ∀ s a b, I s → out s a = some b → P b)
    {s t : σ} {as : List α} (h : Run step ok s as t) (hs : I s) :
    ∀ b ∈ outputs step out s as, P b := by
  induction h with
  | nil s => simp [outputs]
  | @cons s t u a as hst hok _ ih =>
    intro b hb
    rw [outputs_cons hst, List.mem_append, Option.mem_toList] at hb
    rcases hb with hb | hb
    · exact hout s a b hs hb
    · exact ih (hI s a t hs hok hst) b hb

end Outputs

end Transition
