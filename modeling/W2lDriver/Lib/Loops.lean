/-
**Loops: those that may fail, and bubble sort.**

* `foldlM_keeps` — **what every round of a loop keeps**, none of which fails.
* `inversions` — the pairs in the wrong order; a sweep that exchanges leaves fewer of them.
* `bubble_sorted` — **with enough sweeps the elements are in order**.
-/

import Mathlib.Data.List.Perm.Basic
import Mathlib.Tactic.Linarith

namespace W2l.Lib

/-- **What every round of a loop keeps.** -/
theorem foldlM_keeps {α σ : Type} {f : σ → α → Option σ} {I : List α → σ → Prop} {list : List α} {s : σ}
    (start : I [] s)
    (round : ∀ done a rest, list = done ++ a :: rest → ∀ s, I done s → ∃ t, f s a = some t ∧ I (done ++ [a]) t) :
    ∃ t, list.foldlM f s = some t ∧ I list t := by
  suffices rest : ∀ rest done s, list = done ++ rest → I done s → ∃ t, rest.foldlM f s = some t ∧ I list t from
    rest list [] s rfl start
  intro rest
  induction rest with
  | nil =>
    intro done s split keeps
    rw [List.append_nil] at split
    exact ⟨s, rfl, split ▸ keeps⟩
  | cons a rest ih =>
    intro done s split keeps
    obtain ⟨t, eq, keeps⟩ := round done a rest split s keeps
    obtain ⟨u, eq', keeps⟩ := ih (done ++ [a]) t (by rw [split, List.append_assoc]; rfl) keeps
    exact ⟨u, by rw [List.foldlM_cons, eq]; exact eq', keeps⟩

variable {α β : Type} [LinearOrder β] (key : α → β)

/-- A sweep from the element `a` on, and whether it exchanged two elements. -/
def sweepFrom (a : α) : List α → List α × Bool
  | [] => ([a], false)
  | b :: rest =>
    if key a < key b then (b :: (sweepFrom a rest).1, true)
    else (a :: (sweepFrom b rest).1, (sweepFrom b rest).2)

/-- One sweep, and whether it exchanged two elements. -/
def sweep : List α → List α × Bool
  | [] => ([], false)
  | a :: rest => sweepFrom key a rest

/-- Sweeps until none exchanges; `none` when the fuel does not last. -/
def bubble : ℕ → List α → Option (List α)
  | 0, _ => none
  | fuel + 1, list => if (sweep key list).2 then bubble fuel (sweep key list).1 else some (sweep key list).1

/-- The pairs in the wrong order. -/
def inversions : List α → ℕ
  | [] => 0
  | a :: rest => rest.countP (fun b => decide (key a < key b)) + inversions rest

theorem sweepFrom_perm (a : α) (list : List α) : (sweepFrom key a list).1.Perm (a :: list) := by
  induction list generalizing a with
  | nil => exact .refl _
  | cons b rest ih =>
    rw [sweepFrom]
    split
    · exact ((ih a).cons b).trans (.swap a b rest)
    · exact (ih b).cons a

theorem sweep_perm (list : List α) : (sweep key list).1.Perm list := by
  cases list with
  | nil => exact .refl _
  | cons a rest => exact sweepFrom_perm key a rest

variable {key}

theorem sweepFrom_calm {a : α} {list : List α} (calm : (sweepFrom key a list).2 = false) :
    (sweepFrom key a list).1 = a :: list ∧ (a :: list).Pairwise fun x y => key y ≤ key x := by
  induction list generalizing a with
  | nil => exact ⟨rfl, List.pairwise_singleton _ _⟩
  | cons b rest ih =>
    rw [sweepFrom] at calm ⊢
    split at calm
    · cases calm
    · case isFalse lt =>
      obtain ⟨same, sorted⟩ := ih calm
      refine ⟨by rw [if_neg lt, same], List.pairwise_cons.mpr ⟨fun y mem => ?_, sorted⟩⟩
      rcases List.mem_cons.mp mem with rfl | later
      · exact not_lt.mp lt
      · exact ((List.pairwise_cons.mp sorted).1 y later).trans (not_lt.mp lt)

theorem sweep_calm {list : List α} (calm : (sweep key list).2 = false) :
    (sweep key list).1.Pairwise fun x y => key y ≤ key x := by
  cases list with
  | nil => exact .nil
  | cons a rest =>
    obtain ⟨same, sorted⟩ := sweepFrom_calm (show (sweepFrom key a rest).2 = false from calm)
    rw [sweep, same]
    exact sorted

variable (key) in
theorem sweepFrom_inversions (a : α) (list : List α) :
    inversions key (sweepFrom key a list).1 + (sweepFrom key a list).2.toNat ≤ inversions key (a :: list) := by
  induction list generalizing a with
  | nil => exact Nat.le_refl _
  | cons b rest ih =>
    rw [sweepFrom]
    split
    · case isTrue lt =>
      have later := ih a
      have counted := (sweepFrom_perm key a rest).countP_eq fun c => decide (key b < key c)
      rw [List.countP_cons_of_neg (by simpa using lt.le)] at counted
      simp only [inversions, List.countP_cons, lt, decide_true, if_true, Bool.toNat_true] at later ⊢
      omega
    · have later := ih b
      have counted := (sweepFrom_perm key b rest).countP_eq fun c => decide (key a < key c)
      simp only [inversions] at later ⊢
      omega

theorem sweep_inversions {list : List α} (exchanged : (sweep key list).2 = true) :
    inversions key (sweep key list).1 < inversions key list := by
  cases list with
  | nil => cases exchanged
  | cons a rest =>
    have fewer := sweepFrom_inversions key a rest
    rw [show (sweepFrom key a rest).2 = true from exchanged] at fewer
    exact fewer

variable (key) in
theorem inversions_le (list : List α) : inversions key list ≤ list.length * list.length := by
  induction list with
  | nil => exact Nat.le_refl _
  | cons a rest ih =>
    have counted := rest.countP_le_length (p := fun b => decide (key a < key b))
    rw [inversions, List.length_cons]
    linarith

/-- **With enough sweeps the elements are in order.** -/
theorem bubble_sorted {fuel : ℕ} {list : List α} (enough : inversions key list < fuel) :
    ∃ sorted, bubble key fuel list = some sorted ∧ sorted.Perm list ∧ sorted.Pairwise fun x y => key y ≤ key x := by
  induction fuel generalizing list with
  | zero => exact absurd enough (Nat.not_lt_zero _)
  | succ fuel ih =>
    rw [bubble]
    cases flag : (sweep key list).2 with
    | false => exact ⟨_, rfl, sweep_perm key list, sweep_calm flag⟩
    | true =>
      obtain ⟨sorted, eq, perm, order⟩ := ih ((sweep_inversions flag).trans_le (Nat.lt_succ_iff.mp enough))
      exact ⟨sorted, eq, perm.trans (sweep_perm key list), order⟩

end W2l.Lib
