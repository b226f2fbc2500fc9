/-
**Splitting a command at a separator.**

`aml_cmd_char_phrase` (`aml_iwpriv_cmds.c`) counts the separators, allocates a pointer for each piece, and copies
the pieces in a second pass. Its index is an `int`, and the index of the last separator, `-1` at first, is compared
with a `size_t`.

* `amlCmdCharPhrase` — the function, with its allocations.
* `Phrased` — **what a caller can rely on**: the pieces, joined by the separator, are the string.
* `Splittable`, `phrased_iff` — **when it can**: the string is empty or has a separator, an `int` reaches all of
  them and holds their number, and there is memory.
-/

import Mathlib.Algebra.Order.Ring.Int
import Mathlib.Data.List.Count
import W2lDriver.Lib.Bytes

namespace W2l.Iwpriv

open Lib (Byte)
open List (append_assoc count count_append length_append length_drop map_append map_cons mem_append
  mem_singleton range_succ)

/-! ### The function -/

/-- A NUL-terminated string, without its NUL; it lies in the address space. -/
structure CStr where
  bytes : List Byte
  noNul : 0 ∉ bytes
  short : bytes.length < 2 ^ 63

/-- A value as an `int` and as a `size_t`. -/
def toInt (x : ℤ) : ℤ := (BitVec.ofInt 32 x).toInt
def toSize (x : ℤ) : ℕ := (x % 2 ^ 64).toNat

/-- One piece: the bytes that were asked for, whether they were had, and what was copied there. -/
structure Piece where
  size : ℕ
  had : Bool
  bytes : List Byte
  deriving DecidableEq

/-- What a call leaves. -/
structure Phrase where
  /-- The size of `ret`, and whether it was had. -/
  retSize : ℕ
  retHad : Bool
  pieces : List Piece
  /-- `*size`. -/
  size : ℤ
  deriving DecidableEq

section Function

variable (alloc : ℕ → Bool) (sep : Byte) (str : List Byte)

/-- The values of `i` in a loop up to `strlen(str)`: behind `INT_MAX` an `int` is negative, and as a `size_t` above
every length. -/
def indices : List ℕ := List.range (min str.length (2 ^ 31))

/-- The copying pass: the pieces so far, and `lastindex`. -/
structure Pass where
  pieces : List Piece := []
  lastindex : ℤ := -1

/-- A piece that begins behind `lastindex`; the `n`-th call of `kzalloc` may fail. -/
def Pass.add (p : Pass) (size count : ℕ) : Pass :=
  { p with pieces := p.pieces ++
      [⟨size, alloc (p.pieces.length + 1), (str.drop (p.lastindex + 1).toNat).take count⟩] }

def Pass.round (p : Pass) (i : ℕ) : Pass :=
  if str[i]? = some sep then
    { p.add alloc str (toSize (toInt (i - p.lastindex))) (toSize (toInt (toInt (i - p.lastindex) - 1))) with
      lastindex := i }
  else p

/-- The last piece. -/
def Pass.rest (p : Pass) : Pass :=
  if toSize p.lastindex ≤ toSize (str.length - 1) then
    p.add alloc str (toSize (str.length - p.lastindex)) (toSize (str.length - 1 - p.lastindex))
  else p

def amlCmdCharPhrase : Phrase :=
  let count := ((indices str).filter fun i => decide (str[i]? = some sep)).length
  let copied : Pass := ((indices str).foldl (Pass.round alloc sep str) {}).rest alloc str
  { retSize := toSize (toSize (toInt (count + 1)) * 8)
    retHad := alloc 0
    pieces := copied.pieces
    size := toInt copied.pieces.length }

/-! ### What a caller can rely on -/

/-- **The pieces**: as many as there are separators and one more, each NUL-terminated in its own allocation and
without separator; joined by the separator they are the string. -/
structure Phrased (r : Phrase) : Prop where
  size : r.size = str.count sep + 1
  pointers : r.retHad = true ∧ 8 * r.pieces.length ≤ r.retSize
  each : (r.pieces.length : ℤ) = r.size
  room : ∀ p ∈ r.pieces, p.had = true ∧ p.bytes.length + 1 ≤ p.size
  apart : ∀ p ∈ r.pieces, sep ∉ p.bytes ∧ 0 ∉ p.bytes
  joined : [sep].intercalate (r.pieces.map Piece.bytes) = str

/-- **When it can.** -/
structure Splittable : Prop where
  found : str = [] ∨ sep ∈ str
  reached : ∀ i, 2 ^ 31 ≤ i → str[i]? ≠ some sep
  counted : str.count sep + 1 < 2 ^ 31
  memory : ∀ n ≤ str.count sep + 1, alloc n = true

end Function

/-! ### Conversions -/

theorem toInt_small {x : ℤ} (least : -2 ^ 31 ≤ x) (most : x < 2 ^ 31) : toInt x = x := by
  unfold toInt
  rw [BitVec.toInt_ofInt]
  exact Int.bmod_eq_of_le (by omega) (by omega)

theorem toInt_lt (x : ℤ) : toInt x < 2 ^ 31 := by
  unfold toInt
  have most := BitVec.toInt_lt (x := BitVec.ofInt 32 x)
  omega

theorem toSize_nat {x : ℤ} (least : 0 ≤ x) (most : x < 2 ^ 64) : (toSize x : ℤ) = x := by
  unfold toSize
  rw [Int.emod_eq_of_lt least most, Int.toNat_of_nonneg least]

theorem copy_size {d : ℤ} (least : 1 ≤ d) (most : d ≤ 2 ^ 31) : (toSize (toInt (toInt d - 1)) : ℤ) = d - 1 := by
  rcases eq_or_lt_of_le most with rfl | less
  · decide
  · rw [toInt_small (by omega) less, toInt_small (by omega) (by omega)]
    exact toSize_nat (by omega) (by omega)

theorem alloc_size {d : ℤ} (least : 1 ≤ d) (most : d ≤ 2 ^ 31) : d ≤ toSize (toInt d) := by
  rcases eq_or_lt_of_le most with rfl | less
  · decide
  · rw [toInt_small (by omega) less]
    exact le_of_eq (toSize_nat (by omega) (by omega)).symm

/-! ### The copying pass -/

section Pass

variable {alloc : ℕ → Bool} {sep : Byte} {str : List Byte} {n : ℕ} {p : Pass}

/-- What the first `n` rounds have made: the pieces with their separators are the string up to `start`, and the
separator does not come again before `n`. -/
structure Passed (alloc : ℕ → Bool) (sep : Byte) (str : List Byte) (n start : ℕ) (p : Pass) : Prop where
  lastindex : p.lastindex = start - 1
  le : start ≤ n
  none : ∀ i, start ≤ i → i < n → str[i]? ≠ some sep
  first : start = 0 ↔ p.pieces = []
  count : p.pieces.length = (str.take n).count sep
  joined : (p.pieces.map fun q => q.bytes ++ [sep]).flatten = str.take start
  apart : ∀ q ∈ p.pieces, sep ∉ q.bytes ∧ ∀ b ∈ q.bytes, b ∈ str
  sized : ∀ q ∈ p.pieces, q.bytes.length + 1 ≤ q.size
  had : p.pieces.map Piece.had = (List.range p.pieces.length).map fun k => alloc (k + 1)

theorem passed_start (alloc : ℕ → Bool) (sep : Byte) (str : List Byte) : Passed alloc sep str 0 0 {} where
  lastindex := rfl
  le := le_rfl
  none := fun i _ below => absurd below (Nat.not_lt_zero i)
  first := ⟨fun _ => rfl, fun _ => rfl⟩
  count := rfl
  joined := rfl
  apart := List.forall_mem_nil _
  sized := List.forall_mem_nil _
  had := rfl

theorem take_drop_take {start : ℕ} (le : start ≤ n) :
    str.take start ++ (str.drop start).take (n - start) = str.take n := by
  obtain ⟨more, rfl⟩ := Nat.exists_eq_add_of_le le
  rw [Nat.add_sub_cancel_left, List.take_add]

theorem not_mem_between {start : ℕ} (none : ∀ i, start ≤ i → i < n → str[i]? ≠ some sep) :
    sep ∉ (str.drop start).take (n - start) := by
  intro member
  obtain ⟨i, there⟩ := List.mem_iff_getElem?.mp member
  have below : i < n - start := by
    by_contra beyond
    rw [List.getElem?_take, if_neg beyond] at there
    exact nomatch there
  rw [List.getElem?_take, if_pos below, List.getElem?_drop] at there
  exact none (start + i) (Nat.le_add_right _ _) (by omega) there

theorem Passed.round {start : ℕ} (passed : Passed alloc sep str n start p) (below : n < str.length)
    (reached : n < 2 ^ 31) : ∃ start', Passed alloc sep str (n + 1) start' (p.round alloc sep str n) := by
  have next : str.take (n + 1) = str.take n ++ [str[n]] := (List.take_append_getElem below).symm
  unfold Pass.round
  split
  case isFalse other =>
    refine ⟨start, passed.lastindex, Nat.le_succ_of_le passed.le, fun i above less => ?_, passed.first, ?_,
      passed.joined, passed.apart, passed.sized, passed.had⟩
    · rcases Nat.lt_succ_iff_lt_or_eq.mp less with before | rfl
      · exact passed.none i above before
      · exact other
    · rw [next, count_append, passed.count, List.count_singleton, if_neg, Nat.add_zero]
      rw [List.getElem?_eq_getElem below] at other
      exact fun same => other (congrArg some (eq_of_beq same))
  case isTrue here =>
    have same : str[n] = sep := Option.some.inj ((List.getElem?_eq_getElem below).symm.trans here)
    have gap : (n : ℤ) - p.lastindex = (n - start : ℕ) + 1 := by
      rw [passed.lastindex]
      have := passed.le
      omega
    have bound : ((n - start : ℕ) : ℤ) + 1 ≤ 2 ^ 31 := by omega
    have copied : toSize (toInt (toInt ((n - start : ℕ) + 1) - 1)) = n - start := by
      have size := copy_size (d := (n - start : ℕ) + 1) (by omega) bound
      omega
    have place : (p.lastindex + 1).toNat = start := by
      rw [passed.lastindex]
      omega
    have between : str.take start ++ (str.drop start).take (n - start) = str.take n := take_drop_take passed.le
    have apart := not_mem_between passed.none
    rw [gap, copied]
    unfold Pass.add
    rw [place]
    have inside : ((str.drop start).take (n - start)).length = n - start := by
      rw [List.length_take, length_drop]
      omega
    refine ⟨n + 1, ?_, le_rfl, fun i above less => ?_, ?_, ?_, ?_, ?_, ?_, ?_⟩
    · show (n : ℤ) = (n + 1 : ℕ) - 1
      omega
    · exact absurd less (not_lt.mpr above)
    · exact iff_of_false (Nat.succ_ne_zero n) (List.append_ne_nil_of_right_ne_nil _ (List.cons_ne_nil _ _))
    · rw [length_append, passed.count, next, count_append, List.count_singleton, same, beq_self_eq_true, if_pos rfl]
      rfl
    · rw [map_append, List.flatten_append, passed.joined, next, same, ← between]
      simp only [map_cons, List.map_nil, List.flatten_cons, List.flatten_nil, List.append_nil, append_assoc]
    · intro q member
      rcases mem_append.mp member with old | new
      · exact passed.apart q old
      · rw [mem_singleton.mp new]
        exact ⟨apart, fun b inside => List.mem_of_mem_drop (List.mem_of_mem_take inside)⟩
    · intro q member
      rcases mem_append.mp member with old | new
      · exact passed.sized q old
      · rw [mem_singleton.mp new]
        show _ + 1 ≤ toSize _
        rw [inside]
        have size := alloc_size (d := (n - start : ℕ) + 1) (by omega) bound
        omega
    · rw [map_append, passed.had, length_append, List.length_singleton, range_succ, map_append]
      rfl

theorem passed_rounds (alloc : ℕ → Bool) (sep : Byte) (str : List Byte) : ∃ start,
    Passed alloc sep str (min str.length (2 ^ 31)) start ((indices str).foldl (Pass.round alloc sep str) {}) := by
  have rounds (n : ℕ) (le : n ≤ min str.length (2 ^ 31)) : ∃ start,
      Passed alloc sep str n start ((List.range n).foldl (Pass.round alloc sep str) {}) := by
    induction n with
    | zero => exact ⟨0, passed_start alloc sep str⟩
    | succ n ih =>
      obtain ⟨start, passed⟩ := ih (by omega)
      rw [range_succ, List.foldl_append]
      exact passed.round (by omega) (by omega)
  exact rounds _ le_rfl

end Pass

/-! ### The counting pass -/

/-- The separators an `int` reaches. -/
theorem length_filter_indices (sep : Byte) (str : List Byte) :
    ((indices str).filter fun i => decide (str[i]? = some sep)).length =
      (str.take (min str.length (2 ^ 31))).count sep := by
  have counted (n : ℕ) (le : n ≤ str.length) :
      ((List.range n).filter fun i => decide (str[i]? = some sep)).length = (str.take n).count sep := by
    induction n with
    | zero => rfl
    | succ n ih =>
      have below : n < str.length := le
      rw [range_succ, List.filter_append, length_append, ih (Nat.le_of_succ_le le),
        ← List.take_append_getElem below, count_append, List.count_singleton,
        List.filter_singleton, List.getElem?_eq_getElem below]
      by_cases same : str[n] = sep
      · rw [if_pos (beq_of_eq same), decide_eq_true (congrArg some same)]
        rfl
      · rw [if_neg fun wrong => same (eq_of_beq wrong), decide_eq_false fun wrong => same (Option.some.inj wrong)]
        rfl
  exact counted _ (min_le_left _ _)

/-! ### The last piece -/

theorem intercalate_last (sep : Byte) (last : List Byte) (pieces : List (List Byte)) :
    [sep].intercalate (pieces ++ [last]) = (pieces.map fun q => q ++ [sep]).flatten ++ last := by
  induction pieces with
  | nil => exact List.intercalate_singleton
  | cons piece rest ih =>
    have more : rest ++ [last] ≠ [] := List.append_ne_nil_of_right_ne_nil rest (List.cons_ne_nil last [])
    rw [List.cons_append, List.intercalate_cons_of_ne_nil more, ih, map_cons, List.flatten_cons,
      append_assoc, append_assoc, append_assoc]

theorem last_apart {sep : Byte} {str : List Byte} {start n : ℕ} (size : n = min str.length (2 ^ 31))
    (none : ∀ i, start ≤ i → i < n → str[i]? ≠ some sep) (reached : ∀ i, 2 ^ 31 ≤ i → str[i]? ≠ some sep) :
    sep ∉ str.drop start := by
  intro member
  obtain ⟨i, there⟩ := List.mem_iff_getElem?.mp member
  rw [List.getElem?_drop] at there
  have below : start + i < str.length := (List.getElem?_eq_some_iff.mp there).1
  by_cases before : start + i < n
  · exact none (start + i) (Nat.le_add_right _ _) before there
  · exact reached (start + i) (by omega) there

/-- The count of the separators that an `int` reaches, where it reaches them all. -/
theorem count_reached {sep : Byte} {str : List Byte} (reached : ∀ i, 2 ^ 31 ≤ i → str[i]? ≠ some sep) :
    (str.take (min str.length (2 ^ 31))).count sep = str.count sep := by
  have behind : (str.drop (min str.length (2 ^ 31))).count sep = 0 := by
    refine List.count_eq_zero.mpr (last_apart rfl (fun i above below => ?_) reached)
    exact absurd below (not_lt.mpr above)
  have whole : (str.take _ ++ str.drop _).count sep = str.count sep :=
    congrArg (count sep) (List.take_append_drop (min str.length (2 ^ 31)) str)
  rw [count_append, behind, Nat.add_zero] at whole
  exact whole

/-- An `int` reaches all separators it has counted. -/
theorem reached_of_count {sep : Byte} {str : List Byte}
    (all : str.count sep ≤ (str.take (min str.length (2 ^ 31))).count sep) (i : ℕ) (beyond : 2 ^ 31 ≤ i) :
    str[i]? ≠ some sep := by
  intro there
  have whole : (str.take _ ++ str.drop _).count sep = str.count sep :=
    congrArg (count sep) (List.take_append_drop (min str.length (2 ^ 31)) str)
  rw [count_append] at whole
  have member : sep ∈ str.drop (min str.length (2 ^ 31)) := by
    refine List.mem_iff_getElem?.mpr ⟨i - min str.length (2 ^ 31), ?_⟩
    rw [List.getElem?_drop, Nat.add_sub_cancel' (by omega)]
    exact there
  have positive := List.count_pos_iff.mpr member
  omega

section Last

variable {alloc : ℕ → Bool} {sep : Byte} {str : List Byte} {n start : ℕ} {p : Pass}

theorem Passed.rest_made (passed : Passed alloc sep str n start p) (le : n ≤ str.length)
    (short : str.length < 2 ^ 63) (found : str = [] ∨ start ≠ 0) :
    p.rest alloc str = { p with pieces := p.pieces ++
      [⟨str.length - start + 1, alloc (p.pieces.length + 1), str.drop start⟩] } := by
  have before := passed.le
  have compared : toSize p.lastindex ≤ toSize (str.length - 1) := by
    rw [passed.lastindex]
    rcases found with rfl | some_
    · rw [Nat.le_zero.mp (before.trans le)]
      rfl
    · have left := toSize_nat (x := (start : ℤ) - 1) (by omega) (by omega)
      have right := toSize_nat (x := (str.length : ℤ) - 1) (by omega) (by omega)
      omega
  have place : (p.lastindex + 1).toNat = start := by
    rw [passed.lastindex]
    omega
  have size : toSize (str.length - p.lastindex) = str.length - start + 1 := by
    have size := toSize_nat (x := (str.length : ℤ) - p.lastindex) (by rw [passed.lastindex]; omega)
      (by rw [passed.lastindex]; omega)
    rw [passed.lastindex] at size ⊢
    omega
  have count : toSize (str.length - 1 - p.lastindex) = str.length - start := by
    have count := toSize_nat (x := (str.length : ℤ) - 1 - p.lastindex) (by rw [passed.lastindex]; omega)
      (by rw [passed.lastindex]; omega)
    rw [passed.lastindex] at count ⊢
    omega
  unfold Pass.rest Pass.add
  rw [if_pos compared, place, size, count, List.take_of_length_le (length_drop.le)]

theorem Passed.rest_left (passed : Passed alloc sep str n 0 p) (short : str.length < 2 ^ 63) (some_ : str ≠ []) :
    p.rest alloc str = p := by
  have positive := List.length_pos_iff.mpr some_
  have right := toSize_nat (x := (str.length : ℤ) - 1) (by omega) (by omega)
  have left : toSize ((0 : ℕ) - 1) = 2 ^ 64 - 1 := by decide
  unfold Pass.rest
  rw [if_neg]
  rw [passed.lastindex, left]
  omega

end Last

/-! ### When the pieces can be relied on -/

section Right

variable {alloc : ℕ → Bool} {sep : Byte}

theorem length_of_phrased {str : List Byte} (right : Phrased sep str (amlCmdCharPhrase alloc sep str)) :
    (((indices str).foldl (Pass.round alloc sep str) {}).rest alloc str).pieces.length = str.count sep + 1 := by
  have each : ((amlCmdCharPhrase alloc sep str).pieces.length : ℤ) = str.count sep + 1 :=
    right.each.trans right.size
  exact Int.natCast_inj.mp (each.trans (Nat.cast_add_one _).symm)

theorem begun_of_phrased (str : CStr) (right : Phrased sep str.bytes (amlCmdCharPhrase alloc sep str.bytes))
    {start n : ℕ} (passed : Passed alloc sep str.bytes n start
      ((indices str.bytes).foldl (Pass.round alloc sep str.bytes) {})) : str.bytes = [] ∨ start ≠ 0 := by
  by_contra neither
  obtain ⟨some_, zero⟩ := not_or.mp neither
  rw [not_not] at zero
  subst zero
  have length := length_of_phrased right
  rw [passed.rest_left str.short some_, passed.first.mp rfl] at length
  exact absurd length (Nat.succ_ne_zero _).symm

theorem phrased_of_splittable (str : CStr) (splittable : Splittable alloc sep str.bytes) :
    Phrased sep str.bytes (amlCmdCharPhrase alloc sep str.bytes) := by
  obtain ⟨found, reached, counted, memory⟩ := splittable
  obtain ⟨start, passed⟩ := passed_rounds alloc sep str.bytes
  have count := count_reached reached
  have begun : str.bytes = [] ∨ start ≠ 0 := by
    refine found.imp_right fun member zero => ?_
    subst zero
    exact last_apart rfl passed.none reached member
  have made := passed.rest_made (min_le_left _ _) str.short begun
  have before := passed.count.trans count
  have small : toInt ((str.bytes.count sep : ℤ) + 1) = str.bytes.count sep + 1 :=
    toInt_small (by omega) (by omega)
  unfold amlCmdCharPhrase
  dsimp only
  rw [made, length_filter_indices, count, small]
  have length (last : Piece) (pieces : List Piece) (all : pieces.length = str.bytes.count sep) :
      (pieces ++ [last]).length = str.bytes.count sep + 1 := by
    rw [length_append, all]
    rfl
  refine ⟨?_, ⟨memory 0 (Nat.zero_le _), ?_⟩, ?_, fun q member => ?_, fun q member => ?_, ?_⟩
  · dsimp only
    rw [length _ _ before, Nat.cast_add_one, small]
  · dsimp only
    have inner := toSize_nat (x := (str.bytes.count sep : ℤ) + 1) (by omega) (by omega)
    have outer := toSize_nat (x := (toSize ((str.bytes.count sep : ℤ) + 1) : ℤ) * 8) (by omega) (by omega)
    rw [length _ _ before]
    omega
  · dsimp only
    rw [length _ _ before, Nat.cast_add_one, small]
  · rcases mem_append.mp member with old | new
    · refine ⟨?_, passed.sized q old⟩
      have had : q.had ∈ (List.range _).map fun k => alloc (k + 1) := passed.had ▸ List.mem_map_of_mem old
      obtain ⟨k, below, same⟩ := List.mem_map.mp had
      rw [← same]
      refine memory (k + 1) ?_
      have := List.mem_range.mp below
      omega
    · rw [mem_singleton.mp new]
      exact ⟨memory _ (by omega), Nat.succ_le_succ (le_of_eq length_drop)⟩
  · rcases mem_append.mp member with old | new
    · obtain ⟨apart, inside⟩ := passed.apart q old
      exact ⟨apart, fun nul => str.noNul (inside 0 nul)⟩
    · rw [mem_singleton.mp new]
      exact ⟨last_apart rfl passed.none reached, fun nul => str.noNul (List.mem_of_mem_drop nul)⟩
  · rw [map_append]
    show [sep].intercalate (_ ++ [str.bytes.drop start]) = str.bytes
    rw [intercalate_last, List.map_map]
    exact (congrArg (· ++ str.bytes.drop start) passed.joined).trans (List.take_append_drop start str.bytes)

/-- **When the pieces can be relied on.** -/
theorem phrased_iff (alloc : ℕ → Bool) (sep : Byte) (str : CStr) :
    Phrased sep str.bytes (amlCmdCharPhrase alloc sep str.bytes) ↔ Splittable alloc sep str.bytes := by
  refine ⟨fun right => ?_, phrased_of_splittable str⟩
  obtain ⟨start, passed⟩ := passed_rounds alloc sep str.bytes
  have begun := begun_of_phrased str right passed
  have length := length_of_phrased right
  have had := fun q member => (right.room q member).1
  have made := passed.rest_made (min_le_left _ _) str.short begun
  unfold amlCmdCharPhrase at had
  dsimp only at had
  rw [made] at length had
  have before : ((indices str.bytes).foldl (Pass.round alloc sep str.bytes) {}).pieces.length =
      str.bytes.count sep := by
    rw [length_append] at length
    exact Nat.succ.inj length
  refine ⟨begun.imp_right fun some_ => ?_, ?_, ?_, fun k le => ?_⟩
  · have pieces := List.length_pos_iff.mpr (mt passed.first.mpr some_)
    rw [before] at pieces
    exact List.count_pos_iff.mp pieces
  · exact reached_of_count (le_of_eq (before.symm.trans passed.count))
  · have most : (amlCmdCharPhrase alloc sep str.bytes).size < 2 ^ 31 := toInt_lt _
    rw [right.size] at most
    omega
  · match k with
    | 0 => exact right.pointers.1
    | k + 1 =>
      rcases Nat.lt_or_eq_of_le (Nat.le_of_succ_le_succ le) with less | rfl
      · have member : alloc (k + 1) ∈ (List.range (((indices str.bytes).foldl
            (Pass.round alloc sep str.bytes) {}).pieces.length)).map fun k => alloc (k + 1) :=
          List.mem_map_of_mem (List.mem_range.mpr (before ▸ less))
        rw [← passed.had] at member
        obtain ⟨q, inside, same⟩ := List.mem_map.mp member
        exact same.symm.trans (had q (List.mem_append_left _ inside))
      · rw [← before]
        exact had _ (List.mem_append_right _ (mem_singleton.mpr rfl))

end Right

/-! ### Where they cannot -/

/-- "12345" has no piece. -/
theorem phrased_not_always :
    ¬∀ alloc sep (str : CStr), Phrased sep str.bytes (amlCmdCharPhrase alloc sep str.bytes) := by
  intro all
  exact absurd (all (fun _ => true) 0x3a ⟨[0x31, 0x32, 0x33, 0x34, 0x35], by decide, by decide⟩).size (by decide)

end W2l.Iwpriv
