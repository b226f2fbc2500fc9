/-
**Loops that wait for the outside.**

Such a loop asks the outside again and again, and nothing bounds how often. `turns` is how often it may ask;
`none` and `false` say that it is still running then. Nothing here names a particular program.

* `poll` — asks until there is a reply; `Replies` — the first reply there is.
* `drained` — takes away `left` things, one each time the outside agrees; `Drains` — it agrees so often.
-/

import Mathlib.Order.Filter.AtTopBot.Basic

namespace W2l.Lib

open Filter

section Poll

variable {ρ : Type}

/-- Ask from question `t` on until there is a reply. -/
def poll (reply : ℕ → Option ρ) : ℕ → ℕ → Option ρ
  | 0, _ => none
  | turns + 1, t => match reply t with
    | some r => some r
    | none => poll reply turns (t + 1)

/-- The first reply is `r`. -/
def Replies (reply : ℕ → Option ρ) (r : ρ) : Prop :=
  ∃ n, reply n = some r ∧ ∀ m < n, reply m = none

variable {reply : ℕ → Option ρ} {r : ρ}

theorem poll_some {turns t : ℕ} (ended : poll reply turns t = some r) :
    ∃ n, t ≤ n ∧ reply n = some r ∧ ∀ m, t ≤ m → m < n → reply m = none := by
  induction turns generalizing t with
  | zero => exact absurd ended (by simp [poll])
  | succ turns ih =>
    unfold poll at ended
    split at ended
    case h_1 r' answered =>
      rw [Option.some.inj ended] at answered
      exact ⟨t, le_refl t, answered, fun m ge lt => absurd lt (by omega)⟩
    case h_2 silent =>
      obtain ⟨n, later, answered, before⟩ := ih ended
      refine ⟨n, by omega, answered, fun m ge lt => ?_⟩
      rcases Nat.eq_or_lt_of_le ge with rfl | after
      · exact silent
      · exact before m after lt

theorem poll_of_reply {turns t n : ℕ} (answered : reply n = some r)
    (before : ∀ m, t ≤ m → m < n → reply m = none) (start : t ≤ n) (enough : n < t + turns) :
    poll reply turns t = some r := by
  induction turns generalizing t with
  | zero => omega
  | succ turns ih =>
    unfold poll
    rcases Nat.eq_or_lt_of_le start with rfl | later
    · rw [answered]
    · rw [before t (le_refl t) later]
      exact ih (fun m ge lt => before m (by omega) lt) later (by omega)

/-- What `poll` ends with is the first reply. -/
theorem Replies.of_poll {turns : ℕ} (ended : poll reply turns 0 = some r) : Replies reply r := by
  obtain ⟨n, _, answered, before⟩ := poll_some ended
  exact ⟨n, answered, fun m lt => before m (Nat.zero_le m) lt⟩

theorem Replies.unique {r' : ρ} (one : Replies reply r) (other : Replies reply r') : r = r' := by
  obtain ⟨n, answered, before⟩ := one
  obtain ⟨n', answered', before'⟩ := other
  rcases Nat.lt_trichotomy n n' with lt | rfl | gt
  · exact absurd (before' n lt) (by rw [answered]; exact Option.some_ne_none r)
  · exact Option.some.inj (answered.symm.trans answered')
  · exact absurd (before n' gt) (by rw [answered']; exact Option.some_ne_none r')

/-- **A poll ends with the first reply.** -/
theorem eventually_poll (first : Replies reply r) : ∀ᶠ turns in atTop, poll reply turns 0 = some r := by
  obtain ⟨n, answered, before⟩ := first
  refine eventually_atTop.mpr ⟨n + 1, fun turns enough => ?_⟩
  exact poll_of_reply answered (fun m _ lt => before m lt) (Nat.zero_le n) (by omega)

end Poll

section Drain

/-- Take away `left` things, one for each question from `t` on to which the outside agrees. -/
def drained (agreed : ℕ → Bool) : ℕ → ℕ → ℕ → Bool
  | _, _, 0 => true
  | 0, _, _ + 1 => false
  | turns + 1, t, left + 1 =>
    if agreed t then drained agreed turns (t + 1) left else drained agreed turns (t + 1) (left + 1)

/-- The outside agrees to `left` questions. -/
def Drains (agreed : ℕ → Bool) (left : ℕ) : Prop := ∃ n, left ≤ (List.range' 0 n).countP agreed

variable {agreed : ℕ → Bool}

theorem drained_iff {turns t left : ℕ} :
    drained agreed turns t left = true ↔ left ≤ (List.range' t turns).countP agreed := by
  induction turns generalizing t left with
  | zero => cases left <;> simp [drained]
  | succ turns ih =>
    cases left with
    | zero => simp [drained]
    | succ left =>
      unfold drained
      rw [List.range'_succ, List.countP_cons]
      split
      case isTrue =>
        rw [ih]
        omega
      case isFalse =>
        rw [ih]
        omega

theorem Drains.of_drained {turns left : ℕ} (ended : drained agreed turns 0 left = true) :
    Drains agreed left := ⟨turns, drained_iff.mp ended⟩

/-- **A loop that takes things away ends when the outside agrees often enough.** -/
theorem eventually_drained {left : ℕ} (ends : Drains agreed left) :
    ∀ᶠ turns in atTop, drained agreed turns 0 left = true := by
  obtain ⟨n, enough⟩ := ends
  refine eventually_atTop.mpr ⟨n, fun turns more => drained_iff.mpr ?_⟩
  have prefixed : List.Sublist (List.range' 0 n) (List.range' 0 turns) :=
    List.range'_sublist_right.mpr more
  exact enough.trans prefixed.countP_le

end Drain

end W2l.Lib
