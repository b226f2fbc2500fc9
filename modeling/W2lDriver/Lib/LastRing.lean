/-
**A ring that keeps the last values put into it.**

A writer puts values at an index that goes round, and counts them up to the size of the ring; a reader takes all of
them and sets the count back. Nothing here names a particular program.

* `wrap` — a place that may be a round too far.
* `KeepsLast` — **what the ring holds**: of the values put since the count was last 0, the last ones.
-/

import Mathlib.Data.List.Range

namespace W2l.Lib

/-! ### Places -/

/-- A place that may be a round too far. -/
def wrap (size i : ℕ) : ℕ := if i < size then i else i - size

theorem mod_eq_wrap {size i : ℕ} (round : i < 2 * size) : i % size = wrap size i := by
  unfold wrap
  split
  case isTrue below => exact Nat.mod_eq_of_lt below
  case isFalse beyond =>
    rw [Nat.mod_eq_sub_mod (not_lt.mp beyond)]
    exact Nat.mod_eq_of_lt (by omega)

theorem wrap_wrap_add {size i k : ℕ} (round : i + k < 2 * size) : wrap size (wrap size i + k) = wrap size (i + k) := by
  unfold wrap
  split_ifs <;> omega

/-! ### The ring -/

section Ring

variable {α : Type} {size index count : ℕ} {buffer : ℕ → α} {got : List α}

/-- **What the ring holds**: of the values in `got` the last ones, the newest in front of `index`. -/
structure KeepsLast (size : ℕ) (buffer : ℕ → α) (index count : ℕ) (got : List α) : Prop where
  below : index < size
  count_eq : count = min got.length size
  cell : ∀ k, k < count → got[got.length - count + k]? = some (buffer (wrap size (index + size - count + k)))

theorem KeepsLast.empty (below : index < size) : KeepsLast size buffer index 0 [] where
  below := below
  count_eq := (Nat.zero_min size).symm
  cell := fun k wrong => absurd wrong (Nat.not_lt_zero k)

/-- **A value is put at the index**, over the oldest where the ring is full. -/
theorem KeepsLast.put (keeps : KeepsLast size buffer index count got) (x : α) :
    KeepsLast size (Function.update buffer index x) (wrap size (index + 1)) (min (count + 1) size) (got ++ [x]) := by
  obtain ⟨below, count_eq, cell⟩ := keeps
  have next : wrap size (index + 1) = if index + 1 < size then index + 1 else 0 := by
    unfold wrap
    split <;> omega
  refine ⟨?_, ?_, fun k less => ?_⟩
  · rw [next]
    split <;> omega
  · rw [List.length_append, List.length_singleton, count_eq]
    omega
  · rw [List.length_append, List.length_singleton]
    by_cases last : k + 1 = min (count + 1) size
    · have there : got.length + 1 - min (count + 1) size + k = got.length := by omega
      have place : wrap size (wrap size (index + 1) + size - min (count + 1) size + k) = index := by
        rw [next]
        unfold wrap
        split_ifs <;> omega
      rw [there, place, Function.update_self]
      exact List.getElem?_concat_length
    · -- an older one: where the ring was full, it was one place further from the oldest
      have older : got.length + 1 - min (count + 1) size + k =
          got.length - count + (k + (count + 1 - min (count + 1) size)) := by omega
      have place : wrap size (wrap size (index + 1) + size - min (count + 1) size + k) =
          wrap size (index + size - count + (k + (count + 1 - min (count + 1) size))) := by
        rw [next]
        unfold wrap
        split_ifs <;> omega
      have other : wrap size (index + size - count + (k + (count + 1 - min (count + 1) size))) ≠ index := by
        unfold wrap
        split_ifs <;> omega
      rw [older, place, Function.update_of_ne other, List.getElem?_append_left (by omega)]
      exact cell _ (by omega)

/-- **The places from the oldest on** hold the last values, in the order in which they came. -/
theorem KeepsLast.contents (keeps : KeepsLast size buffer index count got) :
    (List.range count).map (fun k => buffer (wrap size (index + size - count + k))) =
      got.drop (got.length - count) := by
  refine List.ext_getElem? fun k => ?_
  rw [List.getElem?_map, List.getElem?_drop]
  by_cases inside : k < count
  · rw [List.getElem?_range inside, keeps.cell k inside]
    rfl
  · have most := keeps.count_eq
    rw [List.getElem?_eq_none (by rw [List.length_range]; exact not_lt.mp inside), List.getElem?_eq_none (by omega)]
    rfl

end Ring

end W2l.Lib
