/-
**The lines of a firmware file.**

An image is a text of lines of nine bytes, a 32-bit word in hexadecimal and a separator. The upload code copies the
eight bytes of a line with `strncpy` and converts them with `kstrtouint`, without a look at the size of the file; what
lies behind the file is a parameter.

* `kstrtouint`, `decodeLine`, `lineReach` — a line, and how many of its bytes are looked at.
* `hexLines` — the loop over the lines of an image.
* `LineIs` — **a line of the file**: inside it, and a word. `Sound`, `Readable` — all lines are; all that are read are
  inside.
* `hexLines_reach`, `hexLines_sound` — the loop stays inside just when the lines are readable, and gets through just
  when they are sound.
-/

import Mathlib.Data.List.TakeWhile
import W2lDriver.Lib.Hex

namespace W2l.Fw

open Lib

abbrev ICCM_ROM_LEN : ℕ := 256 * 1024
abbrev ICCM_RAM_LEN : ℕ := 192 * 1024
abbrev ICCM_ALL_LEN : ℕ := ICCM_ROM_LEN + ICCM_RAM_LEN
abbrev DCCM_ALL_LEN : ℕ := 192 * 1024
abbrev BYTE_IN_LINE : ℕ := 9
abbrev RAM_BIN_LEN : ℕ := 1024 * 512 * 2
abbrev DCCM_RAM_ADDR : ℕ := 0x00d00000

abbrev EINVAL : ℤ := 22
abbrev ERANGE : ℤ := 34
abbrev ENOMEM : ℤ := 12

/-! ### A line -/

/-- `kstrtouint(str, 16, &val)` of the string in front of the NUL. -/
def kstrtouint (str : List Byte) : Except ℤ (BitVec 32) :=
  let signed := if str.head? = some 0x2b then str.tail else str
  match (skipRadix (signed ++ [0])).bind (fun text => (scanHex 0 text).map (text.length, ·)) with
  | none => .error (-EINVAL)
  | some (size, n, rest) =>
    if 2 ^ 64 ≤ n then .error (-ERANGE)
    else if rest.length = size then .error (-EINVAL)
    else
      let rest := if rest.head? = some 0x0a then rest.tail else rest
      if rest ≠ [0] then .error (-EINVAL)
      else if 2 ^ 32 ≤ n then .error (-ERANGE)
      else .ok (BitVec.ofNat 32 n)

theorem kstrtouint_error {str : List Byte} {err : ℤ} (failed : kstrtouint str = .error err) : err ≠ 0 := by
  unfold kstrtouint at failed
  dsimp only at failed
  split at failed
  · obtain rfl := Except.error.inj failed
    decide
  · split_ifs at failed <;> obtain rfl := Except.error.inj failed <;> decide

/-- What `strncpy(buf, src, 8)` copies in front of a NUL. -/
def lineText (src : List Byte) : List Byte := (src.take 8).takeWhile (· ≠ 0)

/-- How many bytes `strncpy(buf, src, 8)` looks at. -/
def lineReach (src : List Byte) : ℕ := min 8 ((lineText src).length + 1)

def decodeLine (src : List Byte) : Except ℤ (BitVec 32) := kstrtouint (lineText src)

/-! ### The lines of an image -/

/-- How far a loop over lines has come. -/
structure Lines where
  words : List (BitVec 32)
  err : ℤ
  /-- The end of what was looked at. -/
  reach : ℕ

/-- The loop: `n` lines from `src` on, up to the first that does not convert. -/
def hexLines (mem : List Byte) : ℕ → ℕ → Lines
  | 0, _ => ⟨[], 0, 0⟩
  | n + 1, src =>
    let reach := src + lineReach (mem.drop src)
    match decodeLine (mem.drop src) with
    | .error err => ⟨[], err, reach⟩
    | .ok w =>
      let later := hexLines mem n (src + BYTE_IN_LINE)
      ⟨w :: later.words, later.err, max reach later.reach⟩

def lineStarts : ℕ → ℕ → List ℕ
  | 0, _ => []
  | n + 1, src => src :: lineStarts n (src + BYTE_IN_LINE)

theorem mem_lineStarts {n src start : ℕ} (mem : start ∈ lineStarts n src) :
    src ≤ start ∧ start + BYTE_IN_LINE ≤ src + n * BYTE_IN_LINE := by
  induction n generalizing src with
  | zero => cases mem
  | succ n ih =>
    rcases List.mem_cons.mp mem with rfl | later
    · unfold BYTE_IN_LINE
      omega
    · have bounds := ih later
      unfold BYTE_IN_LINE at bounds ⊢
      omega

/-! ### What a line of the file is -/

def Inside (file : List Byte) (start : ℕ) : Prop := start + lineReach (file.drop start) ≤ file.length

instance (file : List Byte) (start : ℕ) : Decidable (Inside file start) := Nat.decLe _ _

/-- **The line at `start` lies in the file and is the word `w`.** -/
def LineIs (file : List Byte) (start : ℕ) (w : BitVec 32) : Prop :=
  Inside file start ∧ decodeLine (file.drop start) = .ok w

def Sound (file : List Byte) (starts : List ℕ) : Prop := ∀ start ∈ starts, ∃ w, LineIs file start w

/-- The lines are inside the file, up to the first that does not convert. -/
def Readable (file : List Byte) : List ℕ → Prop
  | [] => True
  | start :: later =>
    Inside file start ∧ ((∃ w, decodeLine (file.drop start) = .ok w) → Readable file later)

theorem Sound.readable {file : List Byte} {starts : List ℕ} (sound : Sound file starts) : Readable file starts := by
  induction starts with
  | nil => trivial
  | cons start later ih =>
    obtain ⟨w, inside, -⟩ := sound start List.mem_cons_self
    exact ⟨inside, fun _ => ih fun x mem => sound x (List.mem_cons_of_mem start mem)⟩

/-! ### What lies behind the file -/

theorem takeWhile_append_of_lt {text rest : List Byte}
    (stops : (text.takeWhile (· ≠ 0)).length < text.length) :
    (text ++ rest).takeWhile (· ≠ 0) = text.takeWhile (· ≠ 0) := by
  induction text with
  | nil => exact absurd stops (Nat.not_lt_zero _)
  | cons c text ih =>
    rw [List.cons_append, List.takeWhile_cons, List.takeWhile_cons]
    rw [List.takeWhile_cons] at stops
    split
    · next other =>
      rw [if_pos other, List.length_cons, List.length_cons] at stops
      rw [ih (by omega)]
    · rfl

theorem lineText_append (text : List Byte) (inside : lineReach text ≤ text.length) (rest : List Byte) :
    lineText (text ++ rest) = lineText text := by
  unfold lineReach at inside
  unfold lineText at inside ⊢
  by_cases long : 8 ≤ text.length
  · rw [List.take_append_of_le_length long]
  · have whole : text.take 8 = text := List.take_of_length_le (by omega)
    rw [whole] at inside
    rw [List.take_append, whole]
    exact takeWhile_append_of_lt (by omega)

theorem lineReach_of_append (text rest : List Byte) (inside : lineReach (text ++ rest) ≤ text.length) :
    lineReach text ≤ text.length := by
  by_contra outside
  unfold lineReach at inside outside
  unfold lineText at inside outside
  have short : text.length < 8 := by omega
  have front : text.take 8 = text := List.take_of_length_le (by omega)
  rw [front] at outside
  have whole : text.takeWhile (· ≠ 0) = text := by
    refine (List.takeWhile_prefix _).eq_of_length ?_
    have := (List.takeWhile_prefix (l := text) (· ≠ 0)).length_le
    omega
  have all : ∀ c ∈ text, decide (c ≠ 0) = true := List.takeWhile_eq_self_iff.mp whole
  rw [List.take_append, front, List.takeWhile_append_of_pos all, List.length_append] at inside
  omega

theorem inside_append {file : List Byte} (behind : List Byte) (start : ℕ) :
    start + lineReach ((file ++ behind).drop start) ≤ file.length ↔ Inside file start := by
  unfold Inside
  by_cases past : file.length < start
  · have positive : ∀ src, 0 < lineReach src := fun src => by unfold lineReach; omega
    have first := positive ((file ++ behind).drop start)
    have second := positive (file.drop start)
    omega
  · have le := Nat.not_lt.mp past
    rw [List.drop_append_of_le_length le]
    have size : (file.drop start).length = file.length - start := List.length_drop
    constructor
    · intro inside
      have := lineReach_of_append (file.drop start) behind (by omega)
      omega
    · intro inside
      have same := lineText_append (file.drop start) (by omega) behind
      have : lineReach (file.drop start ++ behind) = lineReach (file.drop start) := by
        rw [lineReach, same, lineReach]
      omega

theorem decodeLine_append {file : List Byte} (behind : List Byte) {start : ℕ} (inside : Inside file start) :
    decodeLine ((file ++ behind).drop start) = decodeLine (file.drop start) := by
  unfold Inside at inside
  have positive : 0 < lineReach (file.drop start) := by unfold lineReach; omega
  have size : (file.drop start).length = file.length - start := List.length_drop
  rw [List.drop_append_of_le_length (by omega), decodeLine, lineText_append _ (by omega), decodeLine]

/-! ### The loop -/

section Loop

variable (file behind : List Byte)

theorem hexLines_reach (n src : ℕ) :
    (hexLines (file ++ behind) n src).reach ≤ file.length ↔ Readable file (lineStarts n src) := by
  induction n generalizing src with
  | zero => exact iff_of_true (Nat.zero_le _) trivial
  | succ n ih =>
    rw [hexLines, lineStarts, Readable, ← inside_append behind src]
    dsimp only
    by_cases inside : src + lineReach ((file ++ behind).drop src) ≤ file.length
    · have same := decodeLine_append behind ((inside_append behind src).mp inside)
      rw [same]
      cases decoded : decodeLine (file.drop src) with
      | error err => exact iff_of_true inside ⟨inside, fun ⟨_, no⟩ => nomatch no⟩
      | ok w =>
        show max _ _ ≤ _ ↔ _
        rw [Nat.max_le, ih]
        simp [inside]
    · rw [iff_false_right fun both => inside both.1]
      cases decodeLine ((file ++ behind).drop src) with
      | error err => exact inside
      | ok w => exact fun le => inside (le_trans (Nat.le_max_left _ _) le)

theorem hexLines_sound {n src : ℕ} (readable : Readable file (lineStarts n src)) :
    (hexLines (file ++ behind) n src).err = 0 ↔ Sound file (lineStarts n src) := by
  induction n generalizing src with
  | zero => exact iff_of_true rfl fun _ mem => nomatch mem
  | succ n ih =>
    obtain ⟨inside, later⟩ := readable
    rw [hexLines, decodeLine_append behind inside]
    dsimp only
    cases decoded : decodeLine (file.drop src) with
    | error err =>
      refine iff_of_false (kstrtouint_error decoded) fun sound => ?_
      obtain ⟨w, -, word⟩ := sound src List.mem_cons_self
      rw [decoded] at word
      cases word
    | ok w =>
      refine (ih (later ⟨w, decoded⟩)).trans ⟨fun sound start mem => ?_, fun sound start mem => ?_⟩
      · rcases List.mem_cons.mp mem with rfl | mem
        · exact ⟨w, inside, decoded⟩
        · exact sound start mem
      · exact sound start (List.mem_cons_of_mem src mem)

theorem hexLines_words {n src : ℕ} (sound : Sound file (lineStarts n src)) :
    List.Forall₂ (LineIs file) (lineStarts n src) (hexLines (file ++ behind) n src).words := by
  induction n generalizing src with
  | zero => exact .nil
  | succ n ih =>
    obtain ⟨w, inside, word⟩ := sound src List.mem_cons_self
    rw [hexLines, decodeLine_append behind inside, word]
    exact .cons ⟨inside, word⟩ (ih fun start mem => sound start (List.mem_cons_of_mem src mem))

end Loop

end W2l.Fw
