import Mathlib.Data.List.Basic
import Mathlib.Tactic.Common

/-!
# Trying again

A call is tried until it is answered, at most so many times; an error of some kinds ends
it at once.  The outside world answers the tries one after the other, whoever makes them,
so the answer to a try depends on how many were made before; a log keeps what was asked.

Several calls are made in turn, each after the one before was answered.  What was asked
when is then read off the answers alone: a try belongs to the first call that was not yet
answered.

## Main definitions

* `Ending` — how a call ends.
* `attempts` — the tries of a call.
* `Fails`, `Ended` — errors that are tried again, and how the tries of a call went.
* `accepted` — the answers among the tries of a stretch.
* `calls` — calls made in turn, until one fails.

## Main results

* `attempts_ended` — what a call did.
* `Ended.accepted` — the answers among the tries of a call.
* `calls_went` — what calls in turn did.
-/

namespace Retrying

variable {α β ε : Type*}

/-- How a call ends: with an answer, by an error that is not tried again, or when its tries are used
up. -/
inductive Ending (ε α : Type*) where
  | answered (a : α)
  /-- By an error that is not tried again. -/
  | stopped (e : ε)
  /-- With no tries left; the error of the last. -/
  | exhausted (last : Option ε)

variable (again : ε → Bool) (answer : ℕ → Except ε α)

/-- The tries of the call `x`, at most `tries`, behind the tries in the log. -/
def attempts (x : β) : ℕ → Option ε → List β → Ending ε α × List β
  | 0, last, log => (.exhausted last, log)
  | tries + 1, _, log =>
      match answer log.length with
      | .ok a => (.answered a, log ++ [x])
      | .error e =>
          if again e then attempts x tries (some e) (log ++ [x]) else (.stopped e, log ++ [x])

/-- The `k` tries from the `n`th on fail, and are tried again. -/
def Fails (n k : ℕ) : Prop := ∀ m < k, ∃ e, answer (n + m) = .error e ∧ again e = true

/-- The answers among the `k` tries from the `n`th on, without the errors between them. -/
def accepted (n k : ℕ) : List α := (List.range' n k).filterMap fun i => (answer i).toOption

/-- How the tries of a call went, behind `n` others: the ending, and how many there were. -/
inductive Ended (n tries : ℕ) (last : Option ε) : Ending ε α → ℕ → Prop
  | answered (k : ℕ) (a : α) : k < tries → Fails again answer n k → answer (n + k) = .ok a →
      Ended n tries last (.answered a) (k + 1)
  | stopped (k : ℕ) (e : ε) : k < tries → Fails again answer n k → answer (n + k) = .error e →
      again e = false → Ended n tries last (.stopped e) (k + 1)
  | none : tries = 0 → Ended n tries last (.exhausted last) 0
  | exhausted (k : ℕ) (e : ε) : tries = k + 1 → Fails again answer n (k + 1) →
      answer (n + k) = .error e → Ended n tries last (.exhausted (some e)) (k + 1)

variable {again answer}

/-- A failure in front of others. -/
theorem Fails.cons {n k : ℕ} {e : ε} (hanswer : answer n = .error e) (hagain : again e = true)
    (h : Fails again answer (n + 1) k) : Fails again answer n (k + 1) := by
  intro m hm
  cases m with
  | zero => exact ⟨e, hanswer, hagain⟩
  | succ m =>
    obtain ⟨e', he', hagain'⟩ := h m (by omega)
    exact ⟨e', by rw [← he']; congr 1; omega, hagain'⟩

theorem fails_zero (n : ℕ) : Fails again answer n 0 := by
  intro m hm
  omega

/-- **What the tries of a call did**: they asked for it as often as they were made. -/
theorem attempts_ended (again : ε → Bool) (answer : ℕ → Except ε α) (x : β) :
    ∀ (tries : ℕ) (last : Option ε) (log : List β), ∃ ending k,
      attempts again answer x tries last log = (ending, log ++ List.replicate k x) ∧
      Ended again answer log.length tries last ending k := by
  intro tries
  induction tries with
  | zero =>
    intro last log
    exact ⟨.exhausted last, 0, by simp [attempts], .none rfl⟩
  | succ tries ih =>
    intro last log
    rw [attempts]
    cases hanswer : answer log.length with
    | ok a => exact ⟨.answered a, 1, rfl, .answered 0 a (by omega) (fails_zero _) hanswer⟩
    | error e =>
      simp only
      by_cases hagain : again e = true
      · rw [if_pos hagain]
        obtain ⟨ending, k, heq, hended⟩ := ih (some e) (log ++ [x])
        refine ⟨ending, k + 1, ?_, ?_⟩
        · rw [heq, List.append_assoc, List.replicate_succ]
          rfl
        · -- the tries behind the first are those of the rest
          rw [List.length_append, List.length_singleton] at hended
          cases hended with
          | answered j a hj hfails hok =>
            exact .answered (j + 1) a (by omega) (hfails.cons hanswer hagain)
              (by rw [← hok]; congr 1; omega)
          | stopped j e' hj hfails herror hstop =>
            exact .stopped (j + 1) e' (by omega) (hfails.cons hanswer hagain)
              (by rw [← herror]; congr 1; omega) hstop
          | none hzero =>
            exact .exhausted 0 e (by omega) ((fails_zero _).cons hanswer hagain) hanswer
          | exhausted j e' hj hfails herror =>
            exact .exhausted (j + 1) e' (by omega) (hfails.cons hanswer hagain)
              (by rw [← herror]; congr 1; omega)
      · rw [if_neg hagain]
        exact ⟨.stopped e, 1, rfl,
          .stopped 0 e (by omega) (fails_zero _) hanswer (by simpa using hagain)⟩

/-! ### The answers -/

theorem accepted_add (n j k : ℕ) :
    accepted answer n (j + k) = accepted answer n j ++ accepted answer (n + j) k := by
  unfold accepted
  rw [← List.range'_append_1, List.filterMap_append]

theorem accepted_one (n : ℕ) : accepted answer n 1 = (answer n).toOption.toList := by
  unfold accepted
  rw [List.range'_one, List.filterMap_cons, List.filterMap_nil]
  cases (answer n).toOption <;> rfl

/-- Tries that all failed left no answer behind: nothing was accepted between the first of them and
the last. -/
theorem Fails.accepted {n k : ℕ} (h : Fails again answer n k) : accepted answer n k = [] := by
  unfold Retrying.accepted
  rw [List.filterMap_eq_nil_iff]
  intro i hi
  obtain ⟨hn, hk⟩ := List.mem_range'_1.mp hi
  obtain ⟨e, he, -⟩ := h (i - n) (by omega)
  rw [show n + (i - n) = i by omega] at he
  rw [he]
  rfl

/-- **The answers among the tries of a call**: its own, and none before it. -/
theorem Ended.accepted {n tries : ℕ} {last : Option ε} {ending : Ending ε α} {k : ℕ}
    (h : Ended again answer n tries last ending k) :
    (∀ j < k, accepted answer n j = []) ∧
      accepted answer n k = match ending with
        | .answered a => [a]
        | _ => [] := by
  -- the last try is the only one that is no failure
  have hbefore : ∀ {j : ℕ}, Fails again answer n j → ∀ i < j + 1,
      Retrying.accepted answer n i = [] := by
    intro j hfails i hi
    have hshort : Fails again answer n i := fun m hm => hfails m (by omega)
    exact hshort.accepted
  cases h with
  | answered j a hj hfails hok =>
    refine ⟨hbefore hfails, ?_⟩
    rw [accepted_add, hfails.accepted, accepted_one, hok]
    rfl
  | stopped j e hj hfails herror hstop =>
    refine ⟨hbefore hfails, ?_⟩
    rw [accepted_add, hfails.accepted, accepted_one, herror]
    rfl
  | none hzero => exact ⟨fun j hj => absurd hj (by omega), rfl⟩
  | exhausted j e hj hfails herror =>
    exact ⟨fun i hi => hbefore hfails i (by omega), hfails.accepted⟩

/-- A call is tried at most as often as it may be. -/
theorem Ended.le {n tries : ℕ} {last : Option ε} {ending : Ending ε α} {k : ℕ}
    (h : Ended again answer n tries last ending k) : k ≤ tries := by
  cases h with
  | answered | stopped => omega
  | none hzero => omega
  | exhausted => omega

/-! ### Calls in turn -/

section Calls

variable (again answer)

/-- Calls in turn, until one is not answered: the answers, how that one ended, and the log. -/
def calls (tries : ℕ) : List β → List β → List α × Option (Ending ε α) × List β
  | [], log => ([], none, log)
  | x :: xs, log =>
      match attempts again answer x tries none log with
      | (.answered a, log) =>
          let rest := calls tries xs log
          (a :: rest.1, rest.2)
      | (ending, log) => ([], some ending, log)

/-- How calls in turn went, behind `n` tries: the answers, how the failed one ended, and
what was asked. -/
structure Went (n tries : ℕ) (xs : List β) (answers : List α) (failure : Option (Ending ε α))
    (asked : List β) : Prop where
  read : answers = accepted answer n asked.length
  /-- Each try is for the first call that was not yet answered. -/
  turn : ∀ i < asked.length, asked[i]? = xs[(accepted answer n i).length]?
  bound : asked.length ≤ xs.length * tries
  done : failure = none → answers.length = xs.length
  failed : ∀ ending, failure = some ending → answers.length < xs.length ∧
    ∃ j k, j + k = asked.length ∧ accepted answer n j = answers ∧
      Ended again answer (n + j) tries none ending k ∧ ∀ a, ending ≠ .answered a

variable {again answer}

/-- A call that was answered after `k` tries, put in front of calls that went their way from try `n
+ k` on, goes the same way: its tries come first, then theirs. -/
theorem Went.cons {n tries k : ℕ} {x : β} {xs : List β} {a : α} {answers : List α}
    {failure : Option (Ending ε α)} {asked : List β}
    (hended : Ended again answer n tries none (.answered a) k)
    (h : Went again answer (n + k) tries xs answers failure asked) :
    Went again answer n tries (x :: xs) (a :: answers) failure (List.replicate k x ++ asked) := by
  obtain ⟨hbefore, hown⟩ := hended.accepted
  have hown : accepted answer n k = [a] := hown
  refine ⟨?_, ?_, ?_, ?_, ?_⟩
  -- the answers are those of the first call, then those of the rest
  · rw [List.length_append, List.length_replicate, accepted_add, hown, h.read]
    rfl
  · intro i hi
    rw [List.length_append, List.length_replicate] at hi
    -- a try is one of the first call, or one of the rest moved by `k`
    by_cases hfirst : i < k
    · rw [List.getElem?_append_left (by simpa using hfirst), hbefore i hfirst]
      simp [hfirst]
    · obtain ⟨m, rfl⟩ : ∃ m, i = k + m := ⟨i - k, by omega⟩
      rw [List.getElem?_append_right (by simp), List.length_replicate, Nat.add_sub_cancel_left,
        h.turn m (by omega), accepted_add, hown]
      simp
  · have hle := hended.le
    have hbound := h.bound
    rw [List.length_append, List.length_replicate, List.length_cons, Nat.succ_mul]
    omega
  · intro hnone
    rw [List.length_cons, List.length_cons, h.done hnone]
  · intro ending hsome
    -- if a later call failed, the tries before its own are `k` more
    obtain ⟨hlt, j, m, hsum, haccepted, hrest, hne⟩ := h.failed ending hsome
    refine ⟨by simpa using hlt, k + j, m, ?_, ?_, ?_, hne⟩
    · rw [List.length_append, List.length_replicate]
      omega
    · rw [accepted_add, hown, haccepted]
      rfl
    · rwa [← Nat.add_assoc]

/-- **What calls in turn did**: what they asked, what was answered and how they ended is what the
answers of the outside world determine, whatever the log held before. -/
theorem calls_went (again : ε → Bool) (answer : ℕ → Except ε α) (tries : ℕ) :
    ∀ (xs log : List β), ∃ answers failure asked,
    calls again answer tries xs log = (answers, failure, log ++ asked) ∧
      Went again answer log.length tries xs answers failure asked := by
  intro xs
  induction xs with
  | nil =>
    intro log
    refine ⟨[], none, [], by simp [calls], ⟨rfl, ?_, by simp, fun _ => rfl, ?_⟩⟩
    · intro i hi
      cases hi
    · intro ending h
      cases h
  | cons x xs ih =>
    intro log
    obtain ⟨ending, k, heq, hended⟩ := attempts_ended again answer x tries none log
    cases ending with
    | answered a =>
      -- an answer: the rest goes on behind the tries of this call
      obtain ⟨answers, failure, asked, hcalls, hwent⟩ := ih (log ++ List.replicate k x)
      rw [List.length_append, List.length_replicate] at hwent
      refine ⟨a :: answers, failure, List.replicate k x ++ asked, ?_, hwent.cons hended⟩
      rw [calls, heq]
      simp only
      rw [hcalls, List.append_assoc]
    | stopped | exhausted =>
      -- no answer: this call is the last, and every try is its own
      obtain ⟨hbefore, hown⟩ := hended.accepted
      refine ⟨[], some _, List.replicate k x, by rw [calls, heq], ⟨?_, ?_, ?_, ?_, ?_⟩⟩
      · rw [List.length_replicate]
        exact hown.symm
      · intro i hi
        rw [List.length_replicate] at hi
        rw [hbefore i hi]
        simp [hi]
      · have hle := hended.le
        rw [List.length_replicate, List.length_cons, Nat.succ_mul]
        omega
      · intro hnone
        cases hnone
      · intro ending' hsome
        obtain rfl := Option.some.inj hsome
        refine ⟨by simp, 0, k, by simp, rfl, hended, ?_⟩
        intro a ha
        cases ha

end Calls

end Retrying
