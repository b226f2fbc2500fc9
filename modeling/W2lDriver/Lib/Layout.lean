/-
**Layouts with alignment.**

Fields are placed one behind another at a cursor, which is moved on to a multiple of the alignment
first where a field asks for it.

* `alignUp`, `padUp` — the next multiple, in one step and byte by byte, with `padUp_eq`.
* `Cursor`, `put`, `pad`, `skip` — the cursor and the fields placed so far.
* `Fits` — each field at its alignment, one behind another, and all of them before the cursor.
-/

import Mathlib.Algebra.Order.Group.Nat

namespace W2l.Lib

/-! ### Alignment -/

/-- The next multiple of `a`. -/
def alignUp (a p : ℕ) : ℕ := (p + (a - 1)) / a * a

theorem dvd_alignUp (a p : ℕ) : a ∣ alignUp a p := Nat.dvd_mul_left a _

theorem le_alignUp {a : ℕ} (pos : 0 < a) (p : ℕ) : p ≤ alignUp a p := by
  have whole := Nat.div_add_mod (p + (a - 1)) a
  have rest := Nat.mod_lt (p + (a - 1)) pos
  rw [Nat.mul_comm] at whole
  unfold alignUp
  omega

theorem alignUp_of_dvd {a p : ℕ} (pos : 0 < a) (dvd : a ∣ p) : alignUp a p = p := by
  obtain ⟨k, rfl⟩ := dvd
  unfold alignUp
  rw [Nat.mul_add_div pos, Nat.div_eq_of_lt (Nat.sub_lt pos Nat.one_pos), Nat.add_zero, Nat.mul_comm]

/-- A position that is no multiple has the same next multiple as the one behind it. -/
theorem alignUp_succ {a p : ℕ} (pos : 0 < a) (odd : ¬a ∣ p) : alignUp a (p + 1) = alignUp a p := by
  have rest : 0 < p % a := Nat.pos_of_ne_zero fun zero => odd (Nat.dvd_of_mod_eq_zero zero)
  have less := Nat.mod_lt p pos
  have split : ∀ k, p % a ≤ k → k ≤ p % a + 1 → (p - p % a + k + (a - 1)) / a = p / a + 1 := by
    intro k low high
    rw [← Nat.div_mul_self_eq_mod_sub_self]
    have shape : p / a * a + k + (a - 1) = a * (p / a + 1) + (k - 1) := by
      rw [Nat.mul_add_one, Nat.mul_comm]
      omega
    rw [shape, Nat.mul_add_div pos, Nat.div_eq_of_lt (show k - 1 < a by omega), Nat.add_zero]
  have here := split (p % a) le_rfl (Nat.le_succ _)
  have next := split (p % a + 1) (Nat.le_succ _) le_rfl
  have whole := Nat.mod_le p a
  unfold alignUp
  rw [show p + 1 + (a - 1) = p - p % a + (p % a + 1) + (a - 1) by omega, next,
    show p + (a - 1) = p - p % a + p % a + (a - 1) by omega, here]

/-- `while (p % a) p++`, with so many rounds to go. -/
def padUp (a : ℕ) : ℕ → ℕ → ℕ
  | 0, p => p
  | rounds + 1, p => if p % a = 0 then p else padUp a rounds (p + 1)

/-- **The loop ends at the next multiple.** -/
theorem padUp_eq {a : ℕ} (pos : 0 < a) (p : ℕ) : padUp a a p = alignUp a p := by
  have run : ∀ rounds q, alignUp a q ≤ q + rounds → padUp a rounds q = alignUp a q := by
    intro rounds
    induction rounds with
    | zero =>
      intro q near
      exact Nat.le_antisymm (le_alignUp pos q) near
    | succ rounds ih =>
      intro q near
      unfold padUp
      split
      case isTrue zero => rw [alignUp_of_dvd pos (Nat.dvd_of_mod_eq_zero zero)]
      case isFalse odd =>
        have next := alignUp_succ pos fun dvd => odd (Nat.mod_eq_zero_of_dvd dvd)
        rw [ih (q + 1) (by omega), next]
  refine run a p ?_
  have whole := Nat.div_mul_le_self (p + (a - 1)) a
  unfold alignUp
  omega

/-! ### Cursors -/

/-- A field, where it is and how many bytes it takes. -/
structure Placed (ι : Type) where
  field : ι
  offset : ℕ
  size : ℕ
  deriving DecidableEq

/-- The position behind what was written, and the fields written. -/
structure Cursor (ι : Type) where
  pos : ℕ
  placed : List (Placed ι) := []

namespace Cursor

variable {ι : Type} (c : Cursor ι)

def put (field : ι) (size : ℕ) : Cursor ι where
  pos := c.pos + size
  placed := c.placed ++ [⟨field, c.pos, size⟩]

def pad (a : ℕ) : Cursor ι := { c with pos := padUp a a c.pos }

def skip (n : ℕ) : Cursor ι := { c with pos := c.pos + n }

theorem pad_pos {a : ℕ} (pos : 0 < a) : (c.pad a).pos = alignUp a c.pos := padUp_eq pos _

/-- **The fields fit.** -/
structure Fits (align : ι → ℕ) (c : Cursor ι) : Prop where
  aligned : ∀ p ∈ c.placed, align p.field ∣ p.offset
  behind : c.placed.Pairwise fun p q => p.offset + p.size ≤ q.offset
  inside : ∀ p ∈ c.placed, p.offset + p.size ≤ c.pos

variable {c} {align : ι → ℕ}

theorem Fits.nil (align : ι → ℕ) (pos : ℕ) : Fits align ⟨pos, []⟩ where
  aligned _ member := absurd member List.not_mem_nil
  behind := .nil
  inside _ member := absurd member List.not_mem_nil

section

variable (fits : Fits align c)

include fits

theorem Fits.mono {pos : ℕ} (le : c.pos ≤ pos) : Fits align { c with pos := pos } where
  aligned := fits.aligned
  behind := fits.behind
  inside p member := (fits.inside p member).trans le

theorem Fits.skip (n : ℕ) : Fits align (c.skip n) := fits.mono (Nat.le_add_right _ _)

theorem Fits.pad {a : ℕ} (pos : 0 < a) : Fits align (c.pad a) := by
  refine fits.mono ?_
  rw [padUp_eq pos]
  exact le_alignUp pos _

theorem Fits.put {field : ι} (at_ : align field ∣ c.pos) (size : ℕ) : Fits align (c.put field size) where
  aligned p member := by
    rcases List.mem_append.mp member with old | new
    · exact fits.aligned p old
    · obtain rfl := List.mem_singleton.mp new
      exact at_
  behind := by
    refine List.pairwise_append.mpr ⟨fits.behind, List.pairwise_singleton _ _, fun p old q new => ?_⟩
    obtain rfl := List.mem_singleton.mp new
    exact fits.inside p old
  inside p member := by
    rcases List.mem_append.mp member with old | new
    · exact (fits.inside p old).trans (Nat.le_add_right _ _)
    · obtain rfl := List.mem_singleton.mp new
      exact Nat.le_refl _

end

end Cursor

end W2l.Lib
