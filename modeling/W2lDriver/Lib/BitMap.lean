/-
**Bitmaps: one bit set or cleared, and the number of bits that are set.**

A word stands for the set of the positions of its set bits. Nothing here names a particular program.

* `setBit`, `clearBit` — one bit changes, the others stay.
* `countIn` — how many positions of a set have their bit set, and how the two operations change that.
-/

import Mathlib.Order.Interval.Finset.Nat

namespace W2l.Lib

open Finset (card mem_filter)

variable {n : ℕ}

def setBit (m : BitVec n) (i : ℕ) : BitVec n := m ||| BitVec.twoPow n i

def clearBit (m : BitVec n) (i : ℕ) : BitVec n := m &&& ~~~BitVec.twoPow n i

theorem getLsbD_setBit {m : BitVec n} {i : ℕ} (small : i < n) (j : ℕ) :
    (setBit m i).getLsbD j = (m.getLsbD j || decide (i = j)) := by
  rw [setBit, BitVec.getLsbD_or, BitVec.getLsbD_twoPow, decide_eq_true small, Bool.true_and]

theorem getLsbD_clearBit (m : BitVec n) (i j : ℕ) : (clearBit m i).getLsbD j = (m.getLsbD j && !decide (i = j)) := by
  by_cases small : j < n
  · rw [clearBit, BitVec.getLsbD_and, BitVec.getLsbD_not, BitVec.getLsbD_twoPow, decide_eq_true small, Bool.true_and]
    by_cases same : i = j
    · rw [decide_eq_true same, Bool.and_true, decide_eq_true (same ▸ small)]
    · rw [decide_eq_false same, Bool.and_false]
  · rw [BitVec.getLsbD_of_ge _ _ (Nat.not_lt.mp small), BitVec.getLsbD_of_ge _ _ (Nat.not_lt.mp small), Bool.false_and]

theorem zero_getLsbD (i : ℕ) : (0 : BitVec n).getLsbD i = false := BitVec.getLsbD_zero

/-- How many positions of `R` have their bit set. -/
def countIn (R : Finset ℕ) (m : BitVec n) : ℕ := (R.filter fun i => m.getLsbD i = true).card

theorem countIn_zero (R : Finset ℕ) : countIn R (0 : BitVec n) = 0 := by
  refine Finset.card_eq_zero.mpr (Finset.filter_eq_empty_iff.mpr fun i _ on => ?_)
  rw [zero_getLsbD] at on
  cases on

/-- Words that agree on `R` count the same. -/
theorem countIn_congr {R : Finset ℕ} {m m' : BitVec n} (same : ∀ i ∈ R, m.getLsbD i = m'.getLsbD i) :
    countIn R m = countIn R m' := by
  refine congrArg card (Finset.filter_congr fun i mem => ?_)
  rw [same i mem]

/-- A clear bit that is set counts. -/
theorem countIn_setBit {R : Finset ℕ} {m : BitVec n} {i : ℕ} (mem : i ∈ R) (small : i < n)
    (clear : m.getLsbD i = false) : countIn R (setBit m i) = countIn R m + 1 := by
  have fresh : i ∉ R.filter fun j => m.getLsbD j = true := fun inside => by
    rw [(mem_filter.mp inside).2] at clear
    cases clear
  have grown : (R.filter fun j => (setBit m i).getLsbD j = true) =
      insert i (R.filter fun j => m.getLsbD j = true) := by
    ext j
    rw [Finset.mem_insert, mem_filter, mem_filter, getLsbD_setBit small, Bool.or_eq_true, decide_eq_true_eq]
    constructor
    · rintro ⟨inside, old | same⟩
      · exact .inr ⟨inside, old⟩
      · exact .inl same.symm
    · rintro (rfl | ⟨inside, old⟩)
      · exact ⟨mem, .inr rfl⟩
      · exact ⟨inside, .inl old⟩
  rw [countIn, grown, Finset.card_insert_of_notMem fresh, countIn]

theorem countIn_clearBit {R : Finset ℕ} {m : BitVec n} {i : ℕ} (mem : i ∈ R) (set : m.getLsbD i = true) :
    countIn R m = countIn R (clearBit m i) + 1 := by
  have shrunk : (R.filter fun j => (clearBit m i).getLsbD j = true) =
      (R.filter fun j => m.getLsbD j = true).erase i := by
    ext j
    rw [Finset.mem_erase, mem_filter, mem_filter, getLsbD_clearBit, Bool.and_eq_true,
      Bool.not_eq_true', decide_eq_false_iff_not]
    constructor
    · rintro ⟨inside, old, ne⟩
      exact ⟨Ne.symm ne, inside, old⟩
    · rintro ⟨ne, inside, old⟩
      exact ⟨inside, old, Ne.symm ne⟩
  have there : i ∈ R.filter fun j => m.getLsbD j = true := mem_filter.mpr ⟨mem, set⟩
  rw [countIn, countIn, shrunk, Finset.card_erase_add_one there]

end W2l.Lib
