/-
**The test for a multiple of an interval: when its answer is right.**

`pde_get_multiple` (`aml_radar.c`) rounds a distance to the nearest multiple of an interval and looks whether that
is within the tolerance.

* `multipleOf` — the same in numbers without bounds, and `multipleSteps`, what it computes on its way.
* `toNat_pdeGetMultiple` — **no step overflows**: the 32-bit function is that one.
-/

import Mathlib.Algebra.Order.Group.Abs
import Mathlib.Algebra.Order.Ring.Int
import W2lDriver.Radar.Spec

namespace W2l.Radar

open BitVec (le_def lt_def)

/-! ### Without bounds -/

/-- `pde_get_multiple` in whole numbers. -/
def multipleOf (val fraction tolerance : ℤ) : ℤ :=
  if fraction = 0 then 0
  else if (if val < fraction then fraction - val else val - fraction) ≤ tolerance then 1
  else if tolerance < val % fraction then
    if fraction - val % fraction ≤ tolerance then val / fraction + 1 else 0
  else val / fraction

/-- What it computes on its way: `delta`, `factor`, `remainder`, `fraction - remainder`, `factor++`. -/
def multipleSteps (val fraction tolerance : ℤ) : List ℤ :=
  if fraction = 0 then []
  else
    let delta := if val < fraction then fraction - val else val - fraction
    if delta ≤ tolerance then [delta]
    else if tolerance < val % fraction then
      [delta, val / fraction, val % fraction, fraction - val % fraction] ++
        if fraction - val % fraction ≤ tolerance then [val / fraction + 1] else []
    else [delta, val / fraction, val % fraction]

/-- **The answer is right**: a factor that is returned is within the tolerance, there is none only where no
factor is, and no step leaves the 32 bits. -/
structure MultipleRight (val fraction tolerance : BitVec 32) : Prop where
  near : 0 < (pdeGetMultiple val fraction tolerance).toNat →
    |(val.toNat : ℤ) - (pdeGetMultiple val fraction tolerance).toNat * fraction.toNat| ≤ tolerance.toNat
  none : (pdeGetMultiple val fraction tolerance).toNat = 0 ↔
    ¬∃ factor : ℤ, 0 < factor ∧ |(val.toNat : ℤ) - factor * fraction.toNat| ≤ tolerance.toNat
  exactly : ((pdeGetMultiple val fraction tolerance).toNat : ℤ) = multipleOf val.toNat fraction.toNat tolerance.toNat
  fits : ∀ v ∈ multipleSteps val.toNat fraction.toNat tolerance.toNat, 0 ≤ v ∧ v < 2 ^ 32

section Numbers

variable {val fraction tolerance : ℤ}

theorem distance_eq (val fraction factor : ℤ) :
    val - factor * fraction = val % fraction - (factor - val / fraction) * fraction := by
  have division := Int.emod_add_mul_ediv val fraction
  rw [sub_mul, mul_comm (val / fraction)]
  omega

theorem multipleOf_near (positive : 0 < fraction) (found : 0 < multipleOf val fraction tolerance) :
    |val - multipleOf val fraction tolerance * fraction| ≤ tolerance := by
  have less := Int.emod_lt_of_pos val positive
  have least := Int.emod_nonneg val (ne_of_gt positive)
  unfold multipleOf at found ⊢
  rw [if_neg (ne_of_gt positive)] at found ⊢
  by_cases close : (if val < fraction then fraction - val else val - fraction) ≤ tolerance
  · rw [if_pos close, one_mul, abs_le]
    split at close <;> omega
  rw [if_neg close] at found ⊢
  by_cases far : tolerance < val % fraction
  · rw [if_pos far] at found ⊢
    by_cases next : fraction - val % fraction ≤ tolerance
    · rw [if_pos next, distance_eq, add_sub_cancel_left, one_mul, abs_le]
      omega
    · rw [if_neg next] at found
      exact absurd found (lt_irrefl 0)
  · rw [if_neg far, distance_eq, sub_self, zero_mul, sub_zero, abs_le]
    omega

theorem multipleOf_zero (nonneg : 0 ≤ val) (positive : 0 < fraction)
    (none : multipleOf val fraction tolerance = 0) {factor : ℤ} (above : 0 < factor) :
    tolerance < |val - factor * fraction| := by
  have less := Int.emod_lt_of_pos val positive
  have least := Int.emod_nonneg val (ne_of_gt positive)
  have division := Int.emod_add_mul_ediv val fraction
  have quotient : 0 ≤ val / fraction := Int.ediv_nonneg nonneg positive.le
  unfold multipleOf at none
  rw [if_neg (ne_of_gt positive)] at none
  by_cases close : (if val < fraction then fraction - val else val - fraction) ≤ tolerance
  · rw [if_pos close] at none
    exact absurd none one_ne_zero
  rw [if_neg close] at none
  by_cases far : tolerance < val % fraction
  · rw [if_pos far] at none
    by_cases next : fraction - val % fraction ≤ tolerance
    · rw [if_pos next] at none
      omega
    · -- the remainder is away from both multiples around the value
      rw [lt_abs, distance_eq]
      rcases le_or_gt factor (val / fraction) with below | beyond
      · refine .inl (lt_of_lt_of_le far ?_)
        have back : (factor - val / fraction) * fraction ≤ 0 :=
          mul_nonpos_of_nonpos_of_nonneg (sub_nonpos.mpr below) positive.le
        omega
      · refine .inr ?_
        have ahead : 1 * fraction ≤ (factor - val / fraction) * fraction :=
          mul_le_mul_of_nonneg_right (by omega) positive.le
        omega
  · -- the value is below the first multiple
    rw [if_neg far] at none
    rw [none, mul_zero, add_zero] at division
    rw [division] at far less
    rw [if_pos less] at close
    have first : 1 * fraction ≤ factor * fraction := mul_le_mul_of_nonneg_right above positive.le
    rw [lt_abs]
    omega

theorem multipleSteps_fit (nonneg : 0 ≤ val) (below : val < 2 ^ 32) (positive : 0 < fraction)
    (bound : fraction < 2 ^ 32) :
    ∀ v ∈ multipleSteps val fraction tolerance, 0 ≤ v ∧ v < 2 ^ 32 := by
  have less := Int.emod_lt_of_pos val positive
  have least := Int.emod_nonneg val (ne_of_gt positive)
  have quotient : 0 ≤ val / fraction := Int.ediv_nonneg nonneg positive.le
  have most : val / fraction ≤ val := Int.ediv_le_self fraction nonneg
  have delta : 0 ≤ (if val < fraction then fraction - val else val - fraction) ∧
      (if val < fraction then fraction - val else val - fraction) < 2 ^ 32 := by
    split <;> omega
  intro v member
  unfold multipleSteps at member
  rw [if_neg (ne_of_gt positive)] at member
  dsimp only at member
  generalize (if val < fraction then fraction - val else val - fraction) = d at member delta
  split at member
  · rw [List.mem_singleton.mp member]
    exact delta
  split at member
  case isFalse.isTrue far =>
    rcases List.mem_append.mp member with first | last
    · simp only [List.mem_cons, List.not_mem_nil, or_false] at first
      rcases first with rfl | rfl | rfl | rfl
      · exact delta
      · omega
      · omega
      · omega
    · split at last
      · -- a value that leaves a remainder is not divided by 1
        have two : 2 ≤ fraction := by omega
        have half : val / fraction * 2 ≤ val := by
          have division := Int.emod_add_mul_ediv val fraction
          have twice : 2 * (val / fraction) ≤ fraction * (val / fraction) := mul_le_mul_of_nonneg_right two quotient
          omega
        rw [List.mem_singleton.mp last]
        omega
      · cases last
  case isFalse.isFalse =>
    simp only [List.mem_cons, List.not_mem_nil, or_false] at member
    rcases member with rfl | rfl | rfl
    · exact delta
    · omega
    · omega

end Numbers

/-! ### In 32 bits -/

section Words

variable {val fraction tolerance : BitVec 32}

theorem toNat_pdeGetMultiple (positive : 0 < fraction.toNat) :
    ((pdeGetMultiple val fraction tolerance).toNat : ℤ) = multipleOf val.toNat fraction.toNat tolerance.toNat := by
  have bound := val.isLt
  have nonzero : fraction ≠ 0 := fun zero => by
    rw [zero] at positive
    exact absurd positive (lt_irrefl 0)
  have quotient : (val / fraction).toNat = val.toNat / fraction.toNat := BitVec.toNat_udiv
  have remainder : (val % fraction).toNat = val.toNat % fraction.toNat := BitVec.toNat_umod
  have less := Nat.mod_lt val.toNat positive
  have delta : (if val < fraction then fraction - val else val - fraction) ≤ tolerance ↔
      (if (val.toNat : ℤ) < fraction.toNat then (fraction.toNat : ℤ) - val.toNat
        else (val.toNat : ℤ) - fraction.toNat) ≤ tolerance.toNat := by
    by_cases below : val < fraction
    · rw [if_pos below, if_pos (by exact_mod_cast lt_def.mp below), le_def,
        BitVec.toNat_sub_of_le (BitVec.le_of_lt below)]
      have := lt_def.mp below
      omega
    · rw [if_neg below, if_neg (fun less => below (lt_def.mpr (by exact_mod_cast less))), le_def,
        BitVec.toNat_sub_of_le (BitVec.not_lt.mp below)]
      have := le_def.mp (BitVec.not_lt.mp below)
      omega
  have far : tolerance < val % fraction ↔ (tolerance.toNat : ℤ) < (val.toNat : ℤ) % fraction.toNat := by
    rw [lt_def, remainder]
    exact_mod_cast Iff.rfl
  have next : fraction - val % fraction ≤ tolerance ↔
      (fraction.toNat : ℤ) - (val.toNat : ℤ) % fraction.toNat ≤ tolerance.toNat := by
    rw [le_def, BitVec.toNat_sub_of_le (le_def.mpr (by rw [remainder]; exact less.le)), remainder]
    omega
  have nonzero' : (fraction.toNat : ℤ) ≠ 0 := by exact_mod_cast Nat.ne_of_gt positive
  unfold pdeGetMultiple multipleOf
  rw [if_neg nonzero, if_neg nonzero']
  dsimp only
  by_cases close : (if val < fraction then fraction - val else val - fraction) ≤ tolerance
  · rw [if_pos close, if_pos (delta.mp close)]
    rfl
  rw [if_neg close, if_neg fun also => close (delta.mpr also)]
  by_cases off : tolerance < val % fraction
  · rw [if_pos off, if_pos (far.mp off)]
    by_cases up : fraction - val % fraction ≤ tolerance
    · rw [if_pos up, if_pos (next.mp up), BitVec.toNat_add, quotient]
      have two : 2 ≤ fraction.toNat := by
        rw [lt_def, remainder] at off
        omega
      have half : val.toNat / fraction.toNat ≤ val.toNat / 2 := Nat.div_le_div_left two (by omega)
      rw [Nat.mod_eq_of_lt]
      · push_cast
        rfl
      · show val.toNat / fraction.toNat + 1 < 2 ^ 32
        omega
    · rw [if_neg up, if_neg fun also => up (next.mpr also)]
      rfl
  · rw [if_neg off, if_neg fun also => off (far.mpr also), quotient]
    push_cast
    rfl

/-- **For every interval, and whatever the tolerance**, the answer is right. -/
theorem multiple_right (positive : 0 < fraction.toNat) : MultipleRight val fraction tolerance := by
  have computed : ((pdeGetMultiple val fraction tolerance).toNat : ℤ) = _ := toNat_pdeGetMultiple positive
  have above : (0 : ℤ) < fraction.toNat := by exact_mod_cast positive
  refine ⟨fun found => ?_, ⟨fun zero => ?_, fun never => ?_⟩, computed, ?_⟩
  · rw [computed]
    refine multipleOf_near above ?_
    rw [← computed]
    exact_mod_cast found
  · rintro ⟨factor, first, close⟩
    rw [zero] at computed
    exact absurd close (not_le.mpr (multipleOf_zero (Int.natCast_nonneg _) above computed.symm first))
  · by_contra some_
    have found : 0 < (pdeGetMultiple val fraction tolerance).toNat := Nat.pos_of_ne_zero some_
    refine never ⟨(pdeGetMultiple val fraction tolerance).toNat, by exact_mod_cast found, ?_⟩
    rw [computed]
    refine multipleOf_near above ?_
    rw [← computed]
    exact_mod_cast found
  · exact multipleSteps_fit (Int.natCast_nonneg _) (by exact_mod_cast val.isLt) above
      (by exact_mod_cast fraction.isLt)

end Words

/-- Two intervals of 1000 microseconds, 16 more. -/
theorem multiple_right_sample : pdeGetMultiple 2016 1000 16 = 2 ∧ MultipleRight 2016 1000 16 :=
  ⟨by decide, multiple_right (by decide)⟩

end W2l.Radar
