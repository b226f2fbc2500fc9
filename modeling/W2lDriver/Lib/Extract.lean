/-
**Taking a window of keys out of a list.**

A list is scanned once for each key of a window; a scan takes out every element that has the key and
meets a side condition, and leaves the others in place.

* `extract` — the scans, one after another: what was taken out, in that order, and what is left.
-/

import Mathlib.Data.List.Perm.Basic
import Mathlib.Data.List.Nodup

namespace W2l.Lib

variable {α κ : Type} [DecidableEq κ] (key : α → κ) (ok : α → Bool)

/-- The elements with this key that meet the side condition. -/
def matching (k : κ) (xs : List α) : List α := xs.filter fun x => key x = k ∧ ok x

/-- One scan for each key. -/
def extract : List κ → List α → List α × List α
  | [], xs => ([], xs)
  | k :: ks, xs =>
    let later := extract ks (xs.filter fun x => ¬ (key x = k ∧ ok x))
    (matching key ok k xs ++ later.1, later.2)

variable {key ok}

theorem matching_filter_of_ne {k k' : κ} (distinct : k ≠ k') (xs : List α) :
    matching key ok k' (xs.filter fun x => ¬ (key x = k ∧ ok x)) = matching key ok k' xs := by
  unfold matching
  rw [List.filter_filter]
  refine List.filter_congr fun x _ => ?_
  by_cases here : key x = k'
  · simp [here, Ne.symm distinct]
  · simp [here]

/-- **The scans for distinct keys do not disturb each other.** -/
theorem extract_eq {ks : List κ} (distinct : ks.Nodup) (xs : List α) : extract key ok ks xs =
      (ks.flatMap fun k => matching key ok k xs, xs.filter fun x => ¬ (key x ∈ ks ∧ ok x)) := by
  induction ks generalizing xs with
  | nil => simp [extract]
  | cons k ks ih =>
    obtain ⟨fresh, rest⟩ := List.nodup_cons.mp distinct
    unfold extract
    rw [ih rest]
    refine Prod.ext ?_ ?_
    · show matching key ok k xs ++ ks.flatMap _ = _
      rw [List.flatMap_cons]
      congr 1
      refine List.flatMap_congr fun k' member => ?_
      refine matching_filter_of_ne ?_ xs
      rintro rfl
      exact fresh member
    · show List.filter _ (List.filter _ xs) = _
      rw [List.filter_filter]
      refine List.filter_congr fun x _ => ?_
      by_cases here : key x = k <;> by_cases side : ok x <;> simp [here, side]

/-- **Nothing is lost and nothing is doubled.** -/
theorem extract_perm (ks : List κ) (xs : List α) :
    ((extract key ok ks xs).1 ++ (extract key ok ks xs).2).Perm xs := by
  induction ks generalizing xs with
  | nil => exact .refl _
  | cons k ks ih =>
    unfold extract
    rw [List.append_assoc]
    refine ((ih _).append_left _).trans ?_
    simp only [matching, decide_not]
    exact List.filter_append_perm (fun x => decide (key x = k ∧ ok x)) xs

end W2l.Lib
