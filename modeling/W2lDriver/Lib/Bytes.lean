/-
**Bytes in memory: ranges, writes, two-byte numbers.**

A buffer is a function from offsets to bytes. Nothing here names a particular program.

* `slice`, `write` — reading a range, and a store that changes a range.
* `be16`, `ofBe16` — a 16-bit number with its high byte first; `le32`, `ofLe32` — a 32-bit number with its
  low byte first.
-/

import Mathlib.Algebra.Order.Ring.Nat
import Mathlib.Data.List.Range
import Mathlib.Data.List.GetD

namespace W2l.Lib

abbrev Byte := BitVec 8

instance : LawfulBEq Byte := inferInstance

/-! ### Ranges and stores -/

section Memory

/-- The `n` bytes from `off` on. -/
def slice (mem : Nat → Byte) (off n : Nat) : List Byte := (List.range n).map fun k => mem (off + k)

/-- The bytes stored at `off`. -/
def write (mem : Nat → Byte) (off : Nat) (bytes : List Byte) : Nat → Byte := fun k =>
  if off ≤ k then (bytes[k - off]?).getD (mem k) else mem k

variable {mem mem' : Nat → Byte} {off off' n : Nat} {bytes : List Byte}

@[simp] theorem slice_length : (slice mem off n).length = n := by
  rw [slice, List.length_map, List.length_range]

theorem slice_congr (same : ∀ k, off ≤ k → k < off + n → mem k = mem' k) : slice mem off n = slice mem' off n := by
  refine List.map_congr_left fun k inside => ?_
  rw [List.mem_range] at inside
  exact same (off + k) (Nat.le_add_right _ _) (Nat.add_lt_add_left inside off)

theorem slice_append (m : Nat) : slice mem off (n + m) = slice mem off n ++ slice mem (off + n) m := by
  rw [slice, List.range_add, List.map_append, List.map_map]
  refine congrArg (slice mem off n ++ ·) (List.map_congr_left fun k _ => ?_)
  show mem (off + (n + k)) = mem (off + n + k)
  rw [Nat.add_assoc]

theorem slice_take {k : Nat} (le : k ≤ n) : (slice mem off n).take k = slice mem off k := by
  obtain ⟨m, rfl⟩ := Nat.exists_eq_add_of_le le
  rw [slice_append, List.take_left' slice_length]

theorem slice_drop {k : Nat} (le : k ≤ n) : (slice mem off n).drop k = slice mem (off + k) (n - k) := by
  obtain ⟨m, rfl⟩ := Nat.exists_eq_add_of_le le
  rw [slice_append, List.drop_left' slice_length, Nat.add_sub_cancel_left]

theorem write_inside {k : Nat} (inside : k < bytes.length) : write mem off bytes (off + k) = bytes[k] := by
  rw [write, if_pos (Nat.le_add_right off k), Nat.add_sub_cancel_left,
    List.getElem?_eq_getElem inside, Option.getD_some]

theorem write_outside {k : Nat} (outside : k < off ∨ off + bytes.length ≤ k) : write mem off bytes k = mem k := by
  unfold write
  split
  case isTrue above =>
    rw [List.getElem?_eq_none (by omega), Option.getD_none]
  case isFalse => rfl

/-- **What was stored is read back.** -/
theorem slice_write_self : slice (write mem off bytes) off bytes.length = bytes := by
  refine List.ext_getElem slice_length fun k _ inside => ?_
  simp only [slice, List.getElem_map, List.getElem_range]
  exact write_inside inside

/-- **A range outside a store is unchanged.** -/
theorem slice_write_outside (outside : off + n ≤ off' ∨ off' + bytes.length ≤ off) :
    slice (write mem off' bytes) off n = slice mem off n := by
  refine slice_congr fun k above below => write_outside ?_
  omega

/-- **A list is stored byte after byte.** -/
theorem slice_write_next {i : Nat} (below : i < bytes.length) (stored : slice mem off i = bytes.take i) :
    slice (write mem (off + i) [bytes[i]]) off (i + 1) = bytes.take (i + 1) := by
  have before : slice (write mem (off + i) [bytes[i]]) off i = bytes.take i :=
    (slice_write_outside (.inl (Nat.le_refl _))).trans stored
  have here : slice (write mem (off + i) [bytes[i]]) (off + i) 1 = [bytes[i]] := slice_write_self
  rw [slice_append, before, here, List.take_append_getElem below]

end Memory

/-! ### Two-byte numbers -/

/-- A number with its high byte first. -/
def be16 (v : BitVec 16) : List Byte := [v.extractLsb' 8 8, v.extractLsb' 0 8]

def ofBe16 (high low : Byte) : BitVec 16 := high ++ low

theorem ofBe16_be16 (v : BitVec 16) : ofBe16 (v.extractLsb' 8 8) (v.extractLsb' 0 8) = v := by
  have joined : v.extractLsb' 8 8 ++ v.extractLsb' 0 8 = v.extractLsb' 0 16 :=
    BitVec.extractLsb'_append_extractLsb'_eq_extractLsb' rfl
  rw [ofBe16, joined, BitVec.extractLsb'_eq_self]

/-! ### Four-byte numbers -/

/-- A number with its low byte first. -/
def le32 (v : BitVec 32) : List Byte :=
  [v.extractLsb' 0 8, v.extractLsb' 8 8, v.extractLsb' 16 8, v.extractLsb' 24 8]

def ofLe32 : List Byte → BitVec 32
  | [b0, b1, b2, b3] => b3 ++ b2 ++ b1 ++ b0
  | _ => 0

theorem ofLe32_le32 (v : BitVec 32) : ofLe32 (le32 v) = v := by
  have high : v.extractLsb' 24 8 ++ v.extractLsb' 16 8 = v.extractLsb' 16 16 :=
    BitVec.extractLsb'_append_extractLsb'_eq_extractLsb' rfl
  have upper : v.extractLsb' 16 16 ++ v.extractLsb' 8 8 = v.extractLsb' 8 24 :=
    BitVec.extractLsb'_append_extractLsb'_eq_extractLsb' rfl
  have all : v.extractLsb' 8 24 ++ v.extractLsb' 0 8 = v.extractLsb' 0 32 :=
    BitVec.extractLsb'_append_extractLsb'_eq_extractLsb' rfl
  rw [le32, ofLe32, high, upper, all, BitVec.extractLsb'_eq_self]

end W2l.Lib
