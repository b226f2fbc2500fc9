/-
**Greedy packing of a list into batches.**

A batch takes items from the front while its weight stays within a capacity and it has fewer than `most`; what it
does not take is the input of the next one.

* `fill` — one batch; `fill_append`, `fill_weight`, `fill_length`: nothing is lost, and the two bounds.
* `pack` — batch after batch, until nothing is left or a batch stays empty.
-/

import Mathlib.Algebra.Order.Ring.Nat
import Mathlib.Algebra.BigOperators.Group.List.Basic
import Mathlib.Data.List.TakeWhile

namespace W2l.Lib.Packing

variable {α : Type} (weight : α → ℕ) (cap most : ℕ)

/-- One batch that weighs `used` and has `count` items already, and the items it leaves. -/
def fill : List α → ℕ → ℕ → List α × List α
  | [], _, _ => ([], [])
  | a :: rest, used, count =>
    if used < cap ∧ count < most ∧ weight a ≤ cap - used then
      (a :: (fill rest (used + weight a) (count + 1)).1, (fill rest (used + weight a) (count + 1)).2)
    else ([], a :: rest)

/-- Batch after batch, at most `fuel`, and the items that are left. -/
def pack : ℕ → List α → List (List α) × List α
  | 0, items => ([], items)
  | fuel + 1, items =>
    if (fill weight cap most items 0 0).1 = [] then ([], items)
    else
      ((fill weight cap most items 0 0).1 :: (pack fuel (fill weight cap most items 0 0).2).1,
        (pack fuel (fill weight cap most items 0 0).2).2)

variable {weight cap most} {items : List α} {used count : ℕ}

theorem fill_append :
    (fill weight cap most items used count).1 ++ (fill weight cap most items used count).2 = items := by
  induction items generalizing used count with
  | nil => rfl
  | cons a rest ih =>
    unfold fill
    split
    · exact congrArg (a :: ·) ih
    · rfl

/-- **The capacity.** -/
theorem fill_weight (within : used ≤ cap) :
    used + ((fill weight cap most items used count).1.map weight).sum ≤ cap := by
  induction items generalizing used count with
  | nil => exact within
  | cons a rest ih =>
    unfold fill
    split
    case isTrue taken =>
      have later : used + weight a + ((fill weight cap most rest (used + weight a) (count + 1)).1.map weight).sum ≤
          cap := ih (by omega)
      rw [List.map_cons, List.sum_cons, ← Nat.add_assoc]
      exact later
    case isFalse => exact within

/-- **The number.** -/
theorem fill_length (within : count ≤ most) : count + (fill weight cap most items used count).1.length ≤ most := by
  induction items generalizing used count with
  | nil => exact within
  | cons a rest ih =>
    unfold fill
    split
    case isTrue taken =>
      have later : count + 1 + (fill weight cap most rest (used + weight a) (count + 1)).1.length ≤ most :=
        ih taken.2.1
      rw [List.length_cons]
      omega
    case isFalse => exact within

theorem fits_of_mem_fill {a : α} (taken : a ∈ (fill weight cap most items used count).1) : weight a ≤ cap := by
  induction items generalizing used count with
  | nil => exact absurd taken List.not_mem_nil
  | cons b rest ih =>
    unfold fill at taken
    split at taken
    case isTrue fits =>
      rcases List.mem_cons.mp taken with rfl | later
      · omega
      · exact ih later
    case isFalse => exact absurd taken List.not_mem_nil

/-- **A new batch** takes an item just when the item fits. -/
theorem fill_eq_nil {a : α} {rest : List α} (positive : 0 < weight a) (some : 0 < most) :
    (fill weight cap most (a :: rest) 0 0).1 = [] ↔ cap < weight a := by
  unfold fill
  by_cases fits : weight a ≤ cap
  · rw [if_pos ⟨by omega, some, fits⟩]
    exact iff_of_false (List.cons_ne_nil _ _) (by omega)
  · rw [if_neg fun taken => fits taken.2.2]
    exact iff_of_true rfl (by omega)

theorem fill_left_length (taken : (fill weight cap most items used count).1 ≠ []) :
    (fill weight cap most items used count).2.length < items.length := by
  have whole : (fill weight cap most items used count).1 ++ (fill weight cap most items used count).2 = items :=
    fill_append
  have lengths := congrArg List.length whole
  rw [List.length_append] at lengths
  have := List.length_pos_of_ne_nil taken
  omega

variable {fuel : ℕ}

/-- **Nothing is lost**, and the order is kept. -/
theorem pack_flatten : (pack weight cap most fuel items).1.flatten ++ (pack weight cap most fuel items).2 = items := by
  induction fuel generalizing items with
  | zero => rfl
  | succ fuel ih =>
    unfold pack
    split
    · rfl
    · rw [List.flatten_cons, List.append_assoc, ih, fill_append]

/-- What holds of every batch that `fill` makes holds of every batch. -/
theorem forall_mem_pack {P : List α → Prop} (made : ∀ items, P (fill weight cap most items 0 0).1) :
    ∀ batch ∈ (pack weight cap most fuel items).1, P batch := by
  induction fuel generalizing items with
  | zero => exact fun _ member => absurd member List.not_mem_nil
  | succ fuel ih =>
    unfold pack
    split
    · exact fun _ member => absurd member List.not_mem_nil
    · intro batch member
      rcases List.mem_cons.mp member with rfl | later
      · exact made items
      · exact ih batch later

/-- **What is left** begins with the first item that fits no batch. -/
theorem pack_left (positive : ∀ a ∈ items, 0 < weight a) (some : 0 < most) (enough : items.length ≤ fuel) :
    (pack weight cap most fuel items).2 = items.dropWhile fun a => decide (weight a ≤ cap) := by
  induction fuel generalizing items with
  | zero =>
    obtain rfl := List.eq_nil_of_length_eq_zero (Nat.le_zero.mp enough)
    rfl
  | succ fuel ih =>
    unfold pack
    cases items with
    | nil => rfl
    | cons a rest =>
      split
      case isTrue stuck =>
        have large := (fill_eq_nil (positive a List.mem_cons_self) some).mp stuck
        rw [List.dropWhile_cons_of_neg]
        rw [decide_eq_true_iff]
        omega
      case isFalse taken =>
        have less := fill_left_length taken
        have whole : (fill weight cap most (a :: rest) 0 0).1 ++ (fill weight cap most (a :: rest) 0 0).2 = a :: rest :=
          fill_append
        have fits : ∀ b ∈ (fill weight cap most (a :: rest) 0 0).1, decide (weight b ≤ cap) = true :=
          fun b member => decide_eq_true (fits_of_mem_fill member)
        generalize fill weight cap most (a :: rest) 0 0 = filled at less whole fits
        dsimp only
        rw [ih _ (by omega)]
        · rw [← whole, List.dropWhile_append_of_pos fits]
        · intro b member
          refine positive b ?_
          rw [← whole]
          exact List.mem_append_right _ member

theorem pack_left_eq_nil (positive : ∀ a ∈ items, 0 < weight a) (some : 0 < most) (enough : items.length ≤ fuel) :
    (pack weight cap most fuel items).2 = [] ↔ ∀ a ∈ items, weight a ≤ cap := by
  rw [pack_left positive some enough, List.dropWhile_eq_nil_iff]
  exact forall₂_congr fun _ _ => decide_eq_true_iff

end W2l.Lib.Packing
