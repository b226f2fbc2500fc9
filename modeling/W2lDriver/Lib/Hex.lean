/-
**Hexadecimal text: fields of a fixed width, and a scan that stops at the first other byte.**

Text is a list of bytes; a scan that runs past the bytes it is given has no result, so that
"has a result" says that nothing behind them is read. Nothing here names a particular program.

* `hexDigit`, `hexVal` — a digit and its value; both cases are read, lower case is written.
* `hexField` — a number written with a fixed number of digits; `hexNumber` — the value of digits.
* `scanHex` — the digits from the front on; `scanHex_append`, `scanHex_hexField` — **what it makes of
  digits, and of a written number**; `scanHex_isSome` — when it stops inside.
* `skipRadix` — the `0x` in front, which may be left out.
-/

import Mathlib.Tactic.Ring
import W2lDriver.Lib.Bytes

namespace W2l.Lib

/-! ### Digits -/

def hexDigit (d : ℕ) : Byte := BitVec.ofNat 8 (if d < 10 then 0x30 + d else 0x57 + d)

/-- The value of a digit. -/
def hexVal (c : Byte) : Option ℕ :=
  if 0x30 ≤ c.toNat ∧ c.toNat ≤ 0x39 then some (c.toNat - 0x30)
  else if 0x61 ≤ c.toNat ∧ c.toNat ≤ 0x66 then some (c.toNat - 0x57)
  else if 0x41 ≤ c.toNat ∧ c.toNat ≤ 0x46 then some (c.toNat - 0x37)
  else none

theorem hexVal_hexDigit {d : ℕ} (small : d < 16) : hexVal (hexDigit d) = some d := by
  have all : ∀ e ∈ List.range 16, hexVal (hexDigit e) = some e := by decide
  exact all d (List.mem_range.mpr small)

/-- The bytes are digits. -/
def HexText (text : List Byte) : Prop := ∀ c ∈ text, hexVal c ≠ none

instance (text : List Byte) : Decidable (HexText text) := by unfold HexText; infer_instance

/-- The value of a list of digits, the first one the highest. -/
def hexNumber (text : List Byte) : ℕ := text.foldl (fun n c => 16 * n + (hexVal c).getD 0) 0

/-- A number written with `n` digits. -/
def hexField : ℕ → ℕ → List Byte
  | 0, _ => []
  | n + 1, v => hexField n (v / 16) ++ [hexDigit (v % 16)]

@[simp] theorem hexField_length (n v : ℕ) : (hexField n v).length = n := by
  induction n generalizing v with
  | zero => rfl
  | succ n ih => rw [hexField, List.length_append, ih, List.length_singleton]

theorem hexField_hexText (n v : ℕ) : HexText (hexField n v) := by
  induction n generalizing v with
  | zero => exact fun _ mem => nomatch mem
  | succ n ih =>
    intro c mem
    rcases List.mem_append.mp mem with high | low
    · exact ih (v / 16) c high
    · rw [List.mem_singleton.mp low, hexVal_hexDigit (Nat.mod_lt v (by decide))]
      exact Option.some_ne_none _

theorem hexNumber_append (text rest : List Byte) :
    hexNumber (text ++ rest) = 16 ^ rest.length * hexNumber text + hexNumber rest := by
  induction rest using List.reverseRecOn with
  | nil => simp [hexNumber]
  | append_singleton rest c ih =>
    have last : ∀ l : List Byte, hexNumber (l ++ [c]) = 16 * hexNumber l + (hexVal c).getD 0 := by
      intro l
      rw [hexNumber, List.foldl_append]
      rfl
    rw [← List.append_assoc, last, last, ih, List.length_append, List.length_singleton]
    ring

/-- **A written number has its value**, up to its width. -/
theorem hexNumber_hexField (n v : ℕ) : hexNumber (hexField n v) = v % 16 ^ n := by
  induction n generalizing v with
  | zero => rw [Nat.pow_zero, Nat.mod_one]; rfl
  | succ n ih =>
    have digit : hexNumber [hexDigit (v % 16)] = v % 16 := by
      show 16 * 0 + (hexVal (hexDigit (v % 16))).getD 0 = v % 16
      rw [hexVal_hexDigit (Nat.mod_lt v (by decide)), Option.getD_some, Nat.mul_zero, Nat.zero_add]
    rw [hexField, hexNumber_append, ih, digit, List.length_singleton, Nat.pow_one, Nat.pow_succ',
      Nat.mod_mul, Nat.add_comm]

/-! ### The scan -/

/-- Digits are added up until a byte that is none; with no such byte there is no result. -/
def scanHex : ℕ → List Byte → Option (ℕ × List Byte)
  | _, [] => none
  | n, c :: rest =>
    match hexVal c with
    | some d => scanHex (16 * n + d) rest
    | none => some (n, c :: rest)

theorem scanHex_digit {n d : ℕ} {c : Byte} {rest : List Byte} (digit : hexVal c = some d) :
    scanHex n (c :: rest) = scanHex (16 * n + d) rest := by
  rw [scanHex, digit]

theorem scanHex_stop {n : ℕ} {c : Byte} {rest : List Byte} (other : hexVal c = none) :
    scanHex n (c :: rest) = some (n, c :: rest) := by
  rw [scanHex, other]

/-- **Digits in front are added up.** -/
theorem scanHex_append {text : List Byte} (digits : HexText text) (n : ℕ) (rest : List Byte) :
    scanHex n (text ++ rest) = scanHex (16 ^ text.length * n + hexNumber text) rest := by
  induction text generalizing n with
  | nil => simp [hexNumber]
  | cons c text ih =>
    obtain ⟨d, digit⟩ := Option.ne_none_iff_exists'.mp (digits c List.mem_cons_self)
    have value : hexNumber (c :: text) = 16 ^ text.length * d + hexNumber text := by
      have first : hexNumber [c] = d := by
        show 16 * 0 + (hexVal c).getD 0 = d
        rw [digit, Option.getD_some, Nat.mul_zero, Nat.zero_add]
      rw [← List.singleton_append, hexNumber_append, first]
    rw [List.cons_append, scanHex_digit digit, ih fun x mem => digits x (List.mem_cons_of_mem c mem),
      value, List.length_cons]
    congr 1
    ring

theorem scanHex_hexField (n v k : ℕ) (rest : List Byte) :
    scanHex k (hexField n v ++ rest) = scanHex (16 ^ n * k + v % 16 ^ n) rest := by
  rw [scanHex_append (hexField_hexText n v), hexField_length, hexNumber_hexField]

/-- The scan of any text: the digits in front, up to the first other byte. -/
theorem scanHex_cases (n : ℕ) (text : List Byte) : (HexText text ∧ scanHex n text = none) ∨
      ∃ front c rest, text = front ++ c :: rest ∧ HexText front ∧ hexVal c = none ∧
        scanHex n text = some (16 ^ front.length * n + hexNumber front, c :: rest) := by
  induction text generalizing n with
  | nil => exact .inl ⟨(fun _ mem => nomatch mem), rfl⟩
  | cons c text ih =>
    cases digit : hexVal c with
    | none =>
      refine .inr ⟨[], c, text, rfl, (fun _ mem => nomatch mem), digit, ?_⟩
      rw [scanHex_stop digit]
      simp [hexNumber]
    | some d =>
      have isDigit : HexText [c] := fun x mem => by
        rw [List.mem_singleton.mp mem, digit]
        exact Option.some_ne_none d
      rcases ih (16 * n + d) with ⟨digits, none⟩ | ⟨front, x, rest, rfl, digits, other, scanned⟩
      · refine .inl ⟨fun x mem => ?_, by rw [scanHex_digit digit, none]⟩
        rcases List.mem_cons.mp mem with rfl | later
        · exact isDigit _ List.mem_cons_self
        · exact digits x later
      · have all : HexText (c :: front) := fun x mem => by
          rcases List.mem_cons.mp mem with rfl | later
          · exact isDigit _ List.mem_cons_self
          · exact digits x later
        refine .inr ⟨c :: front, x, rest, rfl, all, other, ?_⟩
        rw [← List.cons_append, scanHex_append all, scanHex_stop other]

/-- **The scan stays inside the text just when not all of it is digits.** -/
theorem scanHex_isSome (n : ℕ) (text : List Byte) : (scanHex n text).isSome = true ↔ ¬ HexText text := by
  rcases scanHex_cases n text with ⟨digits, none⟩ | ⟨front, c, rest, rfl, -, other, scanned⟩
  · simp [none, digits]
  · refine iff_of_true (by rw [scanned]; rfl) fun digits => ?_
    exact digits c (List.mem_append_right front List.mem_cons_self) other

/-! ### The mark of the radix -/

/-- `0x` in front is left out; the second byte is looked at only behind a zero. -/
def skipRadix : List Byte → Option (List Byte)
  | [] => none
  | c :: rest =>
    if c = 0x30 then
      match rest with
      | [] => none
      | x :: rest' => if x = 0x78 ∨ x = 0x58 then some rest' else some (c :: x :: rest')
    else some (c :: rest)

theorem skipRadix_digits {c x : Byte} {rest : List Byte} (second : hexVal x ≠ none) :
    skipRadix (c :: x :: rest) = some (c :: x :: rest) := by
  have noMark : ¬(x = 0x78 ∨ x = 0x58) := by
    rintro (rfl | rfl) <;> exact second rfl
  by_cases zero : c = 0x30
  · rw [skipRadix, if_pos zero]
    exact if_neg noMark
  · rw [skipRadix, if_neg zero]

end W2l.Lib
