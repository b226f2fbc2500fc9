/-
**Guarded transition systems: reachability, runs and the invariant rule.**

A system has one start state and a partial step function; a guard restricts which actions an
environment may choose in a state. Nothing here names a particular program.

* `Reachable.invariant` — **the invariant rule**: what the start state has and every guarded step
  keeps holds in every reachable state. The step premise may use that the source state is reachable,
  so that invariants can be proved one on top of the other.
* `reachable_of_run` — a checked list of actions is a witness of reachability.
-/

import Mathlib.Algebra.Order.Ring.Nat

namespace W2l.Lib

/-- A start state and a step that may be refused. -/
structure System (σ ι : Type) where
  init : σ
  step : σ → ι → Option σ

namespace System

variable {σ ι : Type} (S : System σ ι)

/-- The states of the runs all of whose steps meet `guard`. -/
inductive Reachable (guard : σ → ι → Prop) : σ → Prop
  | init : Reachable guard S.init
  | step {s s' : σ} {a : ι} : Reachable guard s → guard s a → S.step s a = some s' → Reachable guard s'

variable {S} {guard : σ → ι → Prop}

/-- **The invariant rule.** -/
theorem Reachable.invariant {I : σ → Prop} (start : I S.init)
    (keep : ∀ s a s', S.Reachable guard s → I s → guard s a → S.step s a = some s' → I s')
    {s : σ} (reach : S.Reachable guard s) : I s := by
  induction reach with
  | init => exact start
  | step before allowed stepped ih => exact keep _ _ _ before ih allowed stepped

theorem Reachable.mono {guard' : σ → ι → Prop} (weaker : ∀ s a, guard s a → guard' s a) {s : σ}
    (reach : S.Reachable guard s) : S.Reachable guard' s := by
  induction reach with
  | init => exact .init
  | step _ allowed stepped ih => exact .step ih (weaker _ _ allowed) stepped

/-- Run a list of actions, checking the guard before each. -/
def run (S : System σ ι) (guard : σ → ι → Prop) [∀ s a, Decidable (guard s a)] : σ → List ι → Option σ
  | s, [] => some s
  | s, a :: rest => if guard s a then (S.step s a).bind fun s' => run S guard s' rest else none

theorem reachable_of_run_from [∀ s a, Decidable (guard s a)] {s s' : σ} {acts : List ι}
    (reach : S.Reachable guard s) (ran : run S guard s acts = some s') :
    S.Reachable guard s' := by
  induction acts generalizing s with
  | nil =>
    obtain rfl : s = s' := by simpa [run] using ran
    exact reach
  | cons a rest ih =>
    by_cases allowed : guard s a
    · obtain ⟨next, stepped, later⟩ : ∃ next, S.step s a = some next ∧ run S guard next rest = some s' := by
        simpa [run, allowed, Option.bind_eq_some_iff] using ran
      exact ih (reach.step allowed stepped) later
    · simp [run, allowed] at ran

/-- **A checked run is a witness.** -/
theorem reachable_of_run (S : System σ ι) (guard : σ → ι → Prop) [∀ s a, Decidable (guard s a)]
    (acts : List ι)
    (ran : (run S guard S.init acts).isSome = true) :
    S.Reachable guard ((run S guard S.init acts).get ran) :=
  reachable_of_run_from .init (Option.some_get ran).symm

end System

end W2l.Lib
