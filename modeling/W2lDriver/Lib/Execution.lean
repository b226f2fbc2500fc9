/-
**Infinite executions and the ranking rule for "eventually".**

* `Execution` — an infinite run of a guarded system; each of its states is reachable.
* `Execution.eventually_of_rank` — **the ranking rule**: when every state that has not reached the
  goal is at some stage, a step that is not that stage's move keeps the stage and does not raise the
  rank, a move lowers the rank, and every stage is left or moved from, then the goal is reached.
* `Execution.ofLoop` — a run followed by a step that changes nothing, repeated for ever.
-/

import Mathlib.Data.Nat.Find
import W2lDriver.Lib.System

namespace W2l.Lib.System

variable {σ ι : Type}

/-- An infinite run of `S` whose steps all meet `guard`. -/
structure Execution (S : System σ ι) (guard : σ → ι → Prop) where
  state : ℕ → σ
  act : ℕ → ι
  start : state 0 = S.init
  allowed : ∀ n, guard (state n) (act n)
  next : ∀ n, S.step (state n) (act n) = some (state (n + 1))

namespace Execution

variable {S : System σ ι} {guard : σ → ι → Prop}

theorem reachable (ρ : S.Execution guard) (n : ℕ) : S.Reachable guard (ρ.state n) := by
  induction n with
  | zero =>
    rw [ρ.start]
    exact .init
  | succ n ih => exact ih.step (ρ.allowed n) (ρ.next n)

theorem stable (ρ : S.Execution guard) {P : σ → Prop}
    (keep : ∀ s a s', S.Reachable guard s → P s → guard s a → S.step s a = some s' → P s')
    {n m : ℕ} (later : n ≤ m) (holds : P (ρ.state n)) : P (ρ.state m) := by
  induction m, later using Nat.le_induction with
  | base => exact holds
  | succ m _ ih => exact keep _ _ _ (ρ.reachable m) ih (ρ.allowed m) (ρ.next m)

section Ranking

variable {κ : Type} (goal : σ → Prop) (stage : σ → κ) (rank : σ → ℕ) (move : κ → ι → Prop)

/-- What one step of a system does to the stage and the rank. -/
structure Ranked (S : System σ ι) (guard : σ → ι → Prop) : Prop where
  moves : ∀ s a s', S.Reachable guard s → guard s a → S.step s a = some s' → ¬ goal s →
    move (stage s) a → goal s' ∨ rank s' < rank s
  waits : ∀ s a s', S.Reachable guard s → guard s a → S.step s a = some s' → ¬ goal s →
    ¬ move (stage s) a → goal s' ∨ (stage s' = stage s ∧ rank s' ≤ rank s)

variable {goal stage rank move}

/-- Until a stage's move is taken the stage stays and the rank does not grow. -/
theorem wait_until (ρ : S.Execution guard) (ranked : Ranked goal stage rank move S guard)
    {n m : ℕ} (later : n ≤ m)
    (idle : ∀ k, n ≤ k → k < m → ¬ move (stage (ρ.state n)) (ρ.act k)) :
    (∃ k, n ≤ k ∧ k ≤ m ∧ goal (ρ.state k)) ∨
      (stage (ρ.state m) = stage (ρ.state n) ∧ rank (ρ.state m) ≤ rank (ρ.state n)) := by
  induction m, later using Nat.le_induction with
  | base => exact .inr ⟨rfl, le_rfl⟩
  | succ m nm ih =>
    rcases ih fun k nk km => idle k nk (by omega) with ⟨k, nk, km, reached⟩ | ⟨same, less⟩
    · exact .inl ⟨k, nk, by omega, reached⟩
    · by_cases reached : goal (ρ.state m)
      · exact .inl ⟨m, nm, by omega, reached⟩
      · have still : ¬ move (stage (ρ.state m)) (ρ.act m) := by
          rw [same]
          exact idle m nm (by omega)
        rcases ranked.waits _ _ _ (ρ.reachable m) (ρ.allowed m) (ρ.next m) reached still with
          done | ⟨same', less'⟩
        · exact .inl ⟨m + 1, by omega, le_rfl, done⟩
        · exact .inr ⟨same'.trans same, less'.trans less⟩

/-- **The ranking rule.** -/
theorem eventually_of_rank (ρ : S.Execution guard) (ranked : Ranked goal stage rank move S guard)
    (fair : ∀ n, ¬ goal (ρ.state n) →
      ∃ m, n ≤ m ∧ (move (stage (ρ.state n)) (ρ.act m) ∨ stage (ρ.state m) ≠ stage (ρ.state n)))
    (n : ℕ) : ∃ m, n ≤ m ∧ goal (ρ.state m) := by
  -- induction on a bound of the rank: each move is found by `fair` and lowers the bound
  suffices bounded : ∀ b n, rank (ρ.state n) ≤ b → ∃ m, n ≤ m ∧ goal (ρ.state m) from
    bounded _ n le_rfl
  intro b
  induction b using Nat.strong_induction_on with
  | _ b ih =>
    intro n le
    by_cases reached : goal (ρ.state n)
    · exact ⟨n, le_rfl, reached⟩
    obtain ⟨m, nm, moved⟩ := fair n reached
    by_cases early : ∃ k, n ≤ k ∧ k ≤ m ∧ move (stage (ρ.state n)) (ρ.act k)
    · -- the first move at or after `n`
      classical
      let first := Nat.find early
      obtain ⟨nk, km, moves⟩ := Nat.find_spec early
      have idle : ∀ k, n ≤ k → k < first → ¬ move (stage (ρ.state n)) (ρ.act k) :=
        fun k nk' kf bad => Nat.find_min early kf ⟨nk', by omega, bad⟩
      rcases ρ.wait_until ranked nk idle with ⟨k, nk', _, done⟩ | ⟨same, less⟩
      · exact ⟨k, nk', done⟩
      · by_cases done : goal (ρ.state first)
        · exact ⟨first, nk, done⟩
        · rcases ranked.moves _ _ _ (ρ.reachable first) (ρ.allowed first) (ρ.next first) done
            (by rw [same]; exact moves) with done' | lower
          · exact ⟨first + 1, by omega, done'⟩
          · obtain ⟨k, fk, done'⟩ := ih _ (lt_of_lt_of_le lower (less.trans le)) (first + 1) le_rfl
            exact ⟨k, by omega, done'⟩
    · have idle : ∀ k, n ≤ k → k < m → ¬ move (stage (ρ.state n)) (ρ.act k) :=
        fun k nk km bad => early ⟨k, nk, km.le, bad⟩
      rcases ρ.wait_until ranked nm idle with ⟨k, nk, _, done⟩ | ⟨same, _⟩
      · exact ⟨k, nk, done⟩
      · rcases moved with now | left
        · exact absurd ⟨m, nm, le_rfl, now⟩ early
        · exact absurd same left

end Ranking

/-- The states of a run of `acts` continued by repeating its last state. -/
def loopState (S : System σ ι) : σ → List ι → ℕ → σ
  | s, [], _ => s
  | s, _ :: _, 0 => s
  | s, a :: rest, n + 1 => loopState S ((S.step s a).getD s) rest n

/-- The actions of a run of `acts` continued by `loop` for ever. -/
def loopAct (loop : ι) (acts : List ι) (n : ℕ) : ι := acts.getD n loop

theorem loop_next [∀ s a, Decidable (guard s a)] {loop : ι} {s last : σ} {acts : List ι}
    (ran : run S guard s acts = some last) (stays : S.step last loop = some last)
    (ok : guard last loop) (n : ℕ) :
    guard (loopState S s acts n) (loopAct loop acts n) ∧ S.step (loopState S s acts n) (loopAct loop acts n) =
        some (loopState S s acts (n + 1)) := by
  induction acts generalizing s n with
  | nil =>
    obtain rfl : s = last := by simpa [run] using ran
    simp [loopState, loopAct, stays, ok]
  | cons a rest ih =>
    have allowed : guard s a := by
      by_contra bad
      simp [run, bad] at ran
    obtain ⟨next, stepped, later⟩ : ∃ next, S.step s a = some next ∧ run S guard next rest = some last := by
      simpa [run, allowed, Option.bind_eq_some_iff] using ran
    cases n with
    | zero => cases rest <;> simp [loopState, loopAct, stepped, allowed]
    | succ n => simpa [loopState, loopAct, stepped] using ih later n

theorem loopState_last [∀ s a, Decidable (guard s a)] {s last : σ} {acts : List ι}
    (ran : run S guard s acts = some last) {n : ℕ} (past : acts.length ≤ n) :
    loopState S s acts n = last := by
  induction acts generalizing s n with
  | nil => simpa [run, loopState] using ran
  | cons a rest ih =>
    obtain ⟨m, rfl⟩ : ∃ m, n = m + 1 := Nat.exists_eq_succ_of_ne_zero (by rintro rfl; simp at past)
    by_cases allowed : guard s a
    · obtain ⟨next, stepped, later⟩ : ∃ next, S.step s a = some next ∧ run S guard next rest = some last := by
        simpa [run, allowed, Option.bind_eq_some_iff] using ran
      simpa [loopState, stepped] using ih later (by simpa using past)
    · simp [run, allowed] at ran

/-- **A run that ends in a self-loop is an infinite execution.** -/
def ofLoop [∀ s a, Decidable (guard s a)] (loop : ι) (acts : List ι) {last : σ}
    (ran : run S guard S.init acts = some last) (stays : S.step last loop = some last)
    (ok : guard last loop) : S.Execution guard where
  state := loopState S S.init acts
  act := loopAct loop acts
  start := by cases acts <;> rfl
  allowed n := (loop_next ran stays ok n).1
  next n := (loop_next ran stays ok n).2

end Execution

end W2l.Lib.System
