/-
**The A-MSDU format: subframes with a 14-byte header, each at a multiple of four.**

A subframe is a destination, a source, a big-endian length and a body. All but the last are padded
with zeros. Nothing here names a particular program.

* `Subframe` — a subframe whose parts have the lengths the format asks for.
* `encode`, `decode` — the body of an A-MSDU, and the rule that takes it apart.
-/

import W2lDriver.Lib.Bytes

namespace W2l.Lib

open List (append_assoc length_append)

/-- A subframe of an A-MSDU. -/
@[ext] structure Subframe where
  dest : List Byte
  source : List Byte
  body : List Byte
  destLength : dest.length = 6
  sourceLength : source.length = 6
  bodyLength : body.length < 2 ^ 16

/-- The bytes that are missing to a multiple of four. -/
def padLen (n : Nat) : Nat := (4 - n % 4) % 4

theorem padLen_aligns (n : Nat) : (n + padLen n) % 4 = 0 := by
  unfold padLen
  omega

theorem padLen_aligned_add {m n : Nat} (aligned : m % 4 = 0) : padLen (m + n) = padLen n := by
  unfold padLen
  omega

namespace Subframe

def header (s : Subframe) : List Byte :=
  s.dest ++ (s.source ++ be16 (BitVec.ofNat 16 s.body.length))

def raw (s : Subframe) : List Byte := s.header ++ s.body

theorem header_length (s : Subframe) : s.header.length = 14 := by
  rw [header, length_append, length_append, s.destLength, s.sourceLength]
  rfl

theorem raw_length (s : Subframe) : s.raw.length = 14 + s.body.length := by
  rw [raw, length_append, s.header_length]

end Subframe

/-! ### Making a body -/

def padding (n : Nat) : List Byte := List.replicate (padLen n) 0

/-- The body of an A-MSDU. -/
def encode : List Subframe → List Byte
  | [] => []
  | [s] => s.raw
  | s :: rest => s.raw ++ (padding s.raw.length ++ encode rest)

theorem encode_cons {s : Subframe} {rest : List Subframe} (more : rest ≠ []) :
    encode (s :: rest) = s.raw ++ (padding s.raw.length ++ encode rest) := by
  cases rest with
  | nil => exact absurd rfl more
  | cons t rest => rfl

/-- **One more subframe** goes behind the padding of what is there. -/
theorem encode_concat {front : List Subframe} (started : front ≠ []) (t : Subframe) :
    encode (front ++ [t]) = encode front ++ (padding (encode front).length ++ t.raw) := by
  induction front with
  | nil => exact absurd rfl started
  | cons s rest ih =>
    by_cases last : rest = []
    · subst last
      rfl
    · have more : rest ++ [t] ≠ [] := List.append_ne_nil_of_right_ne_nil rest (List.cons_ne_nil t [])
      -- what precedes the rest ends at a multiple of four
      have same : padding (encode (s :: rest)).length = padding (encode rest).length := by
        have aligned := padLen_aligns s.raw.length
        rw [padding, padding, encode_cons last, length_append, length_append, padding,
          List.length_replicate, ← Nat.add_assoc, padLen_aligned_add aligned]
      rw [List.cons_append, encode_cons more, ih last, same, encode_cons last]
      simp only [append_assoc]

/-! ### Taking a body apart -/

/-- The big-endian length at offset 12. -/
def bodyLen (bytes : List Byte) : Nat := (ofBe16 (bytes.getD 12 0) (bytes.getD 13 0)).toNat

/-- The first subframe, and what follows its padding. -/
def parse (bytes : List Byte) : Option (Subframe × List Byte) :=
  if fits : 14 + bodyLen bytes ≤ bytes.length then
    some (⟨bytes.take 6, (bytes.drop 6).take 6, (bytes.drop 14).take (bodyLen bytes), by rw [List.length_take]; omega,
      by rw [List.length_take, List.length_drop]; omega,
      by
        have small : bodyLen bytes < 2 ^ 16 := BitVec.isLt _
        rw [List.length_take]
        omega⟩,
      (bytes.drop (14 + bodyLen bytes)).drop (padLen (14 + bodyLen bytes)))
  else none

/-- The de-aggregation rule, for at most `fuel` subframes. -/
def decodeUpTo : Nat → List Byte → Option (List Subframe)
  | _, [] => some []
  | 0, _ :: _ => none
  | fuel + 1, bytes => do
    let (s, rest) ← parse bytes
    let later ← decodeUpTo fuel rest
    return s :: later

def decode (bytes : List Byte) : Option (List Subframe) := decodeUpTo bytes.length bytes

theorem Subframe.getD_raw (s : Subframe) (tail : List Byte) (k : Nat) : (s.raw ++ tail).getD (12 + k) 0 =
      (be16 (BitVec.ofNat 16 s.body.length) ++ (s.body ++ tail)).getD k 0 := by
  have addresses : (s.dest ++ s.source).length = 12 := by
    rw [length_append, s.destLength, s.sourceLength]
  have shape : s.raw ++ tail = (s.dest ++ s.source) ++
      (be16 (BitVec.ofNat 16 s.body.length) ++ (s.body ++ tail)) := by
    simp only [Subframe.raw, Subframe.header, append_assoc]
  rw [shape, List.getD_append_right _ _ _ _ (by omega), addresses, Nat.add_sub_cancel_left]

theorem bodyLen_raw (s : Subframe) (tail : List Byte) : bodyLen (s.raw ++ tail) = s.body.length := by
  have high : (s.raw ++ tail).getD 12 0 = (BitVec.ofNat 16 s.body.length).extractLsb' 8 8 :=
    s.getD_raw tail 0
  have low : (s.raw ++ tail).getD 13 0 = (BitVec.ofNat 16 s.body.length).extractLsb' 0 8 :=
    s.getD_raw tail 1
  rw [bodyLen, high, low, ofBe16_be16, BitVec.toNat_ofNat]
  exact Nat.mod_eq_of_lt s.bodyLength

/-- **The first subframe is found**, and with it where the next one starts. -/
theorem parse_raw (s : Subframe) (tail : List Byte) :
    parse (s.raw ++ tail) = some (s, tail.drop (padLen s.raw.length)) := by
  have length := s.raw_length
  have len := bodyLen_raw s tail
  have fits : 14 + bodyLen (s.raw ++ tail) ≤ (s.raw ++ tail).length := by
    rw [len, length_append]
    omega
  have dest : (s.raw ++ tail).take 6 = s.dest := by
    simp [Subframe.raw, Subframe.header, s.destLength]
  have source : ((s.raw ++ tail).drop 6).take 6 = s.source := by
    simp [Subframe.raw, Subframe.header, s.destLength, s.sourceLength]
  have body : ((s.raw ++ tail).drop 14).take s.body.length = s.body := by
    rw [Subframe.raw, append_assoc, List.drop_append, s.header_length,
      List.drop_of_length_le (Nat.le_of_eq s.header_length), List.nil_append, Nat.sub_self,
      List.drop_zero, List.take_left]
  have rest : (s.raw ++ tail).drop (14 + s.body.length) = tail := by
    rw [← length, List.drop_left]
  rw [parse, dif_pos fits]
  refine congrArg some (Prod.ext (Subframe.ext dest source ?_) ?_)
  · show ((s.raw ++ tail).drop 14).take (bodyLen (s.raw ++ tail)) = s.body
    rw [len, body]
  · show ((s.raw ++ tail).drop (14 + bodyLen (s.raw ++ tail))).drop
      (padLen (14 + bodyLen (s.raw ++ tail))) = _
    rw [len, rest, length]

section

variable (subframes : List Subframe)

include subframes

theorem decodeUpTo_encode {fuel : Nat}
    (enough : subframes.length ≤ fuel) : decodeUpTo fuel (encode subframes) = some subframes := by
  induction subframes generalizing fuel with
  | nil => cases fuel <;> rfl
  | cons s rest ih =>
    obtain ⟨fuel, rfl⟩ : ∃ less, fuel = less + 1 :=
      ⟨fuel - 1, by rw [List.length_cons] at enough; omega⟩
    have later := ih (Nat.le_of_succ_le_succ enough)
    have found : parse (encode (s :: rest)) = some (s, encode rest) := by
      by_cases last : rest = []
      · subst last
        have alone := parse_raw s []
        rw [List.append_nil, List.drop_nil] at alone
        exact alone
      · have padded : (padding s.raw.length).length = padLen s.raw.length := List.length_replicate
        rw [encode_cons last, parse_raw, ← padded, List.drop_left]
    have some_bytes : ∃ byte bytes, encode (s :: rest) = byte :: bytes := by
      refine List.exists_cons_of_length_pos ?_
      by_cases last : rest = []
      · subst last
        show 0 < s.raw.length
        rw [s.raw_length]
        omega
      · rw [encode_cons last, length_append, s.raw_length]
        omega
    obtain ⟨byte, bytes, shape⟩ := some_bytes
    rw [shape] at found ⊢
    simp only [decodeUpTo, found, Option.bind_eq_bind, Option.bind_some, later]
    rfl

theorem length_le_encode : subframes.length ≤ (encode subframes).length := by
  induction subframes with
  | nil => exact Nat.le_refl 0
  | cons s rest ih =>
    by_cases last : rest = []
    · subst last
      show 1 ≤ s.raw.length
      rw [s.raw_length]
      omega
    · rw [encode_cons last, length_append, length_append, s.raw_length, List.length_cons]
      omega

/-- **The round trip**: a body is taken apart into the subframes it was made of. -/
theorem decode_encode : decode (encode subframes) = some subframes :=
  decodeUpTo_encode subframes (length_le_encode subframes)

end

end W2l.Lib
