/-
**The items of the calibration file.**

`aml_get_s8_item`, `aml_get_s16_item`, `aml_get_s32_item` (`fullmac/aml_main.c`). An item is looked for byte by byte: a
byte that does not fit ends an attempt, and the next one starts behind it, wherever in a line that is. So what is found
may be the end of another key, or of a value.

* `matchKey`, `findItem`, `token`, `tokens`, `getItem` — an attempt, the attempts, a value, the values, and the whole;
  a read behind the buffer and a write behind the token's are faults.
* `Line`, `buffer` — the file as `aml_process_cali_content` leaves it (`content_lines`).
* `ItemRight` — **what a call should do**: the values of the first line with the key, and nothing without one.
* `Matches`, `firstMatch` — a text that ends an attempt with the whole item, and what stands behind the first.
* `getItem_right` — when a call does what it should.
-/

import W2lDriver.Cali.Content

namespace W2l.Cali

open Lib (Byte)
open List (append_assoc cons_append cons_ne_nil length_append length_cons mem_cons_of_mem mem_cons_self
  nil_append)
open Option (some_ne_none)

/-! ### The code -/

/-- `'='`. -/
abbrev equals : Byte := 0x3d

/-- `','`. -/
abbrev comma : Byte := 0x2c

/-- A read behind `varbuf`, and a write behind `tmpbuf`. -/
inductive Fault
  | read
  | write

/-- An attempt, from a place in the buffer on: whether the whole item is found, and what stands behind `pos++`. -/
def matchKey : List Byte → List Byte → Except Fault (Bool × List Byte)
  | [], _ => .error .read
  | c :: buf, item =>
    if c = 0 ∨ c = equals then .ok (item.isEmpty, buf)
    else
      match item with
      | [] => .ok (false, buf)
      | x :: item => if c ≠ x then .ok (false, buf) else matchKey buf item

/-- The attempts: what stands behind the item, if it is found. `fuel` is the length of the buffer. -/
def findItem (item : List Byte) : ℕ → List Byte → Except Fault (Option (List Byte))
  | _, [] => .ok none
  | 0, _ :: _ => .ok none
  | fuel + 1, c :: buf =>
    (matchKey (c :: buf) item).bind fun (found, rest) => if found then .ok (some rest) else findItem item fuel rest

/-- A value that is copied to `tmpbuf`, and the buffer from its end on. -/
def token (size : ℕ) : ℕ → List Byte → Except Fault (List Byte × List Byte)
  | _, [] => .error .read
  | n, c :: buf =>
    if c = 0 ∨ c = comma then .ok ([], c :: buf)
    else if size ≤ n then .error .write
    else (token size (n + 1) buf).map fun (bytes, rest) => (c :: bytes, rest)

/-- The values. `fuel` is the length of the buffer. -/
def tokens (size : ℕ) : ℕ → List Byte → Except Fault (List (List Byte))
  | 0, _ => .error .read
  | fuel + 1, buf =>
    (token size 0 buf).bind fun (bytes, rest) =>
      match rest with
      | [] => .error .read
      | c :: rest => if c = comma then (tokens size fuel rest).map (bytes :: ·) else .ok [bytes]

/-- What the code is given: `simple_strtol`, and the bytes behind `tmpbuf` up to a NUL. -/
structure Strtol where
  convert : List Byte → Int
  behind : List Byte

/-- The value that is read from `tmpbuf`; it has no NUL when it is full. -/
def Strtol.read (strtol : Strtol) (size : ℕ) (bytes : List Byte) : Int :=
  strtol.convert (if bytes.length < size then bytes else bytes ++ strtol.behind)

/-- What a call returns, and the values it stores. -/
structure Found (w : ℕ) where
  ret : ℕ
  stored : List (BitVec w)

/-- The lookup with a token buffer of `size` bytes and values of `w` bits. -/
def getItem (size w : ℕ) (strtol : Strtol) (varbuf item : List Byte) : Except Fault (Found w) :=
  (findItem item varbuf.length varbuf).bind fun found =>
    match found with
    | none => .ok ⟨1, []⟩
    | some rest =>
      (tokens size (rest.length + 1) rest).map fun values =>
        ⟨0, values.map fun bytes => BitVec.ofInt w (strtol.read size bytes)⟩

def amlGetS8Item : Strtol → List Byte → List Byte → Except Fault (Found 8) := getItem 20 8

def amlGetS16Item : Strtol → List Byte → List Byte → Except Fault (Found 16) := getItem 60 16

def amlGetS32Item : Strtol → List Byte → List Byte → Except Fault (Found 32) := getItem 120 32

/-! ### The file -/

/-- A line: a key, and the text behind the first `=`. -/
structure Line where
  key : List Byte
  text : List Byte
  keyText : ∀ c ∈ key, c ≠ 0 ∧ c ≠ equals
  valueText : (0 : Byte) ∉ text

namespace Line

variable (line : Line)

def values : List (List Byte) := line.text.splitOn comma

def bytes : List Byte := line.key ++ equals :: (line.text ++ [0])

end Line

def buffer (lines : List Line) (pad : ℕ) : List Byte := lines.flatMap Line.bytes ++ List.replicate pad 0

theorem content_lines {file : List Byte} {lines : List Line}
    (kept : (cleanLines file).filter (· ≠ []) = lines.map fun line => line.key ++ equals :: line.text) :
    content file = lines.flatMap Line.bytes := by
  unfold content
  rw [kept, List.flatMap_map]
  refine List.flatMap_congr fun line _ => ?_
  unfold Line.bytes
  rw [append_assoc, cons_append]

def firstLine (item : List Byte) (lines : List Line) : Option Line := lines.find? fun line => decide (line.key = item)

def Line.stored (w : ℕ) (strtol : Strtol) (line : Line) : List (BitVec w) :=
  line.values.map fun bytes => BitVec.ofInt w (strtol.convert bytes)

/-- **What a call should do.** -/
structure ItemRight {w : ℕ} (strtol : Strtol) (item : List Byte) (lines : List Line) (found : Found w) : Prop where
  ret : found.ret = 0 ↔ ∃ line ∈ lines, line.key = item
  stored : found.stored = ((firstLine item lines).map (Line.stored w strtol)).getD []

/-! ### When it does -/

/-- A byte of an attempt that has matched `k` bytes. -/
def advance (item : List Byte) (k : ℕ) (c : Byte) : ℕ := if item[k]? = some c then k + 1 else 0

/-- A text between two delimiters ends an attempt with the whole item. -/
def Matches (item text : List Byte) : Prop := text.foldl (advance item) 0 = item.length

instance (item text : List Byte) : Decidable (Matches item text) :=
  inferInstanceAs (Decidable (text.foldl (advance item) 0 = item.length))

/-- No part of a line ends an attempt with the whole item. -/
def Line.Quiet (item : List Byte) (line : Line) : Prop :=
  ¬Matches item line.key ∧ ∀ part ∈ line.text.splitOn equals, ¬Matches item part

def Silent (item : List Byte) (lines : List Line) (pad : ℕ) : Prop :=
  (∀ line ∈ lines, line.Quiet item) ∧ (pad = 0 ∨ item ≠ [])

/-- The first that is found is the key of a line with short values. -/
def Own (size : ℕ) (item : List Byte) (lines : List Line) : Prop :=
  ∃ before line after, lines = before ++ line :: after ∧ (∀ other ∈ before, other.Quiet item) ∧ line.key = item ∧
    ∀ value ∈ line.values, value.length < size

/-- What stands behind the first text that matches; `k` bytes are matched. -/
def firstMatch (item : List Byte) : ℕ → List Byte → Option (List Byte)
  | _, [] => none
  | k, c :: buf =>
    if c = 0 ∨ c = equals then if k = item.length then some buf else firstMatch item 0 buf
    else firstMatch item (advance item k c) buf

/-- Something else is found, or a value that fills the token buffer, and reads as the first line with the key does. -/
def Alike (size w : ℕ) (strtol : Strtol) (item : List Byte) (lines : List Line) (pad : ℕ) : Prop :=
  ∃ line rest, firstLine item lines = some line ∧ firstMatch item 0 (buffer lines pad) = some rest ∧ rest ≠ [] ∧
    (∀ bytes ∈ (rest.takeWhile (· ≠ 0)).splitOn comma, bytes.length ≤ size) ∧
    ((rest.takeWhile (· ≠ 0)).splitOn comma).map (fun bytes => BitVec.ofInt w (strtol.read size bytes)) =
      line.stored w strtol

/-! ### Texts with separators -/

theorem separated {α : Type} {s : α} {P : List α → Prop} (single : ∀ text, s ∉ text → P text)
    (cons : ∀ text rest, s ∉ text → P rest → P (text ++ s :: rest)) (list : List α) : P list := by
  generalize within : list.length = n
  induction n using Nat.strong_induction_on generalizing list with
  | h n ih =>
    by_cases member : s ∈ list
    · obtain ⟨text, rest, rfl, first⟩ := List.eq_append_cons_of_mem member
      refine cons text rest first (ih rest.length ?_ rest rfl)
      rw [← within, length_append, length_cons]
      omega
    · exact single list member

/-! ### The attempts -/

def Ended (buf : List Byte) : Prop := buf = [] ∨ ∃ front, buf = front ++ [0]

section Attempts

variable {buf item : List Byte} {c : Byte} {k : ℕ}

theorem Ended.tail (ended : Ended (c :: buf)) : Ended buf := by
  rcases ended with empty | ⟨front, last⟩
  · exact absurd empty (cons_ne_nil _ _)
  · cases front with
    | nil => exact .inl (List.cons.inj last).2
    | cons d front => exact .inr ⟨front, (List.cons.inj last).2⟩

theorem Ended.ne_nil (ended : Ended (c :: buf)) (text : c ≠ 0) : buf ≠ [] := by
  rintro rfl
  rcases ended with empty | ⟨front, last⟩
  · exact cons_ne_nil _ _ empty
  · cases front with
    | nil => exact text (List.cons.inj last).1
    | cons d front => exact List.append_ne_nil_of_right_ne_nil front (cons_ne_nil _ _) (List.cons.inj last).2.symm

theorem Ended.append {rest : List Byte} (ended : Ended rest) (front : List Byte) : Ended (front ++ 0 :: rest) := by
  rcases ended with rfl | ⟨middle, rfl⟩
  · exact .inr ⟨front, rfl⟩
  · exact .inr ⟨front ++ 0 :: middle, by rw [append_assoc, cons_append]⟩

theorem firstMatch_cons : firstMatch item k (c :: buf) =
    if c = 0 ∨ c = equals then if k = item.length then some buf else firstMatch item 0 buf
    else firstMatch item (advance item k c) buf := rfl

theorem advance_end : advance item item.length c = 0 := by
  unfold advance
  rw [List.getElem?_eq_none le_rfl, if_neg (some_ne_none c).symm]

theorem advance_of_getElem {x : Byte} (next : item[k]? = some x) : advance item k c = if c = x then k + 1 else 0 := by
  unfold advance
  rw [next]
  by_cases same : c = x
  · rw [if_pos (congrArg some same.symm), if_pos same]
  · rw [if_neg fun eq => same (Option.some.inj eq).symm, if_neg same]

theorem matchKey_spec (ended : Ended buf) (nonempty : buf ≠ []) (within : k ≤ item.length) :
    ∃ found rest, matchKey buf (item.drop k) = .ok (found, rest) ∧ rest.length < buf.length ∧ Ended rest ∧
      firstMatch item k buf = if found = true then some rest else firstMatch item 0 rest := by
  induction buf generalizing k with
  | nil => exact absurd rfl nonempty
  | cons c buf ih =>
    unfold matchKey
    rw [firstMatch_cons]
    by_cases delimiter : c = 0 ∨ c = equals
    · rw [if_pos delimiter, if_pos delimiter]
      refine ⟨_, _, rfl, Nat.lt_succ_self _, ended.tail, ?_⟩
      have whole : (item.drop k).isEmpty = true ↔ k = item.length := by
        rw [List.isEmpty_iff, List.drop_eq_nil_iff]
        omega
      by_cases all : k = item.length
      · rw [if_pos all, if_pos (whole.mpr all)]
      · rw [if_neg all, if_neg fun empty => all (whole.mp empty)]
    · rw [if_neg delimiter, if_neg delimiter]
      rcases Nat.lt_or_eq_of_le within with more | all
      · have next : item[k]? = some item[k] := List.getElem?_eq_getElem more
        rw [List.drop_eq_getElem_cons more, advance_of_getElem next]
        by_cases same : c = item[k]
        · obtain ⟨found, rest, ran, shorter, later, first⟩ :=
            ih ended.tail (ended.ne_nil fun zero => delimiter (.inl zero)) (Nat.succ_le_of_lt more)
          refine ⟨found, rest, ?_, Nat.lt_succ_of_lt shorter, later, ?_⟩
          · dsimp only
            rw [if_neg (not_not_intro same)]
            exact ran
          · rw [if_pos same]
            exact first
        · refine ⟨false, buf, ?_, Nat.lt_succ_self _, ended.tail, ?_⟩
          · dsimp only
            rw [if_pos same]
          · rw [if_neg same, if_neg Bool.false_ne_true]
      · subst all
        rw [List.drop_length, advance_end]
        exact ⟨false, buf, rfl, Nat.lt_succ_self _, ended.tail, (if_neg Bool.false_ne_true).symm⟩

theorem findItem_eq {fuel : ℕ} (ended : Ended buf) (enough : buf.length ≤ fuel) :
    findItem item fuel buf = .ok (firstMatch item 0 buf) := by
  induction fuel generalizing buf with
  | zero =>
    obtain rfl := List.eq_nil_of_length_eq_zero (Nat.le_zero.mp enough)
    rfl
  | succ fuel ih =>
    cases buf with
    | nil => rfl
    | cons c buf =>
      obtain ⟨found, rest, ran, shorter, later, first⟩ :=
        matchKey_spec ended (cons_ne_nil c buf) (Nat.zero_le item.length)
      rw [List.drop_zero] at ran
      unfold findItem
      rw [ran, first]
      cases found with
      | true => rfl
      | false => exact ih later (by omega)

end Attempts

/-! ### The values -/

section Values

variable {size n : ℕ} {buf : List Byte}

theorem token_spec {bytes : List Byte} {d : Byte} {rest : List Byte} (text : ∀ c ∈ bytes, c ≠ 0 ∧ c ≠ comma)
    (delimiter : d = 0 ∨ d = comma) (filled : n ≤ size) : token size n (bytes ++ d :: rest) =
      if n + bytes.length ≤ size then .ok (bytes, d :: rest) else .error .write := by
  induction bytes generalizing n with
  | nil =>
    unfold token
    rw [nil_append]
    dsimp only
    rw [if_pos delimiter, if_pos (show n + ([] : List Byte).length ≤ size from filled)]
  | cons c bytes ih =>
    obtain ⟨notZero, notComma⟩ := text c mem_cons_self
    rw [cons_append]
    unfold token
    rw [if_neg fun either => either.elim notZero notComma, length_cons]
    by_cases full : size ≤ n
    · rw [if_pos full, if_neg (by omega)]
    · rw [if_neg full, ih (fun c member => text c (mem_cons_of_mem _ member)) (by omega)]
      by_cases fits : n + 1 + bytes.length ≤ size
      · rw [if_pos fits, if_pos (by omega)]
        rfl
      · rw [if_neg fits, if_neg (by omega)]
        rfl

theorem tokens_eq {text : List Byte} (ended : (0 : Byte) ∉ text) (rest : List Byte) :
    ∀ fuel, text.length < fuel → tokens size fuel (text ++ 0 :: rest) =
      if ∀ bytes ∈ text.splitOn comma, bytes.length ≤ size then .ok (text.splitOn comma) else .error .write := by
  have plain : ∀ {bytes : List Byte}, (0 : Byte) ∉ bytes → comma ∉ bytes → ∀ c ∈ bytes, c ≠ 0 ∧ c ≠ comma :=
    fun noZero noComma c member => ⟨fun zero => noZero (zero ▸ member), fun com => noComma (com ▸ member)⟩
  induction text using separated (s := comma) with
  | single text noComma =>
    intro fuel enough
    obtain ⟨fuel, rfl⟩ := Nat.exists_eq_add_one_of_ne_zero (Nat.ne_of_gt (Nat.zero_lt_of_lt enough))
    unfold tokens
    rw [token_spec (plain ended noComma) (.inl rfl) (Nat.zero_le _), Nat.zero_add, List.splitOn_eq_singleton noComma]
    by_cases fits : text.length ≤ size
    · have all : ∀ bytes ∈ [text], bytes.length ≤ size := List.forall_mem_singleton.mpr fits
      rw [if_pos fits, if_pos all]
      rfl
    · rw [if_neg fits, if_neg fun all => fits (all text mem_cons_self)]
      rfl
  | cons text later noComma ih =>
    intro fuel enough
    rw [length_append, length_cons] at enough
    obtain ⟨fuel, rfl⟩ := Nat.exists_eq_add_one_of_ne_zero (Nat.ne_of_gt (Nat.zero_lt_of_lt enough))
    have first : (0 : Byte) ∉ text := fun member => ended (List.mem_append_left _ member)
    have rest' := ih (fun member => ended (List.mem_append_right _ (mem_cons_of_mem _ member))) fuel (by omega)
    rw [append_assoc, cons_append, List.splitOn_append_cons_self_of_not_mem noComma]
    unfold tokens
    rw [token_spec (plain first noComma) (.inr rfl) (Nat.zero_le _), Nat.zero_add]
    by_cases fits : text.length ≤ size
    · rw [if_pos fits]
      show (if comma = comma then (tokens size fuel (later ++ 0 :: rest)).map (text :: ·) else .ok [text]) = _
      rw [if_pos rfl, rest']
      by_cases others : ∀ bytes ∈ later.splitOn comma, bytes.length ≤ size
      · have all : ∀ bytes ∈ text :: later.splitOn comma, bytes.length ≤ size :=
          List.forall_mem_cons.mpr ⟨fits, others⟩
        rw [if_pos others, if_pos all]
        rfl
      · rw [if_neg others, if_neg fun all => others (List.forall_mem_cons.mp all).2]
        rfl
    · rw [if_neg fits, if_neg fun all => fits (all text mem_cons_self)]
      rfl

end Values

/-! ### What is found in the file -/

section File

variable {item : List Byte} {k : ℕ} {d : Byte} {rest : List Byte}

theorem firstMatch_text {text : List Byte} (plain : ∀ c ∈ text, c ≠ 0 ∧ c ≠ equals) (delimiter : d = 0 ∨ d = equals) :
    firstMatch item k (text ++ d :: rest) =
      if text.foldl (advance item) k = item.length then some rest else firstMatch item 0 rest := by
  induction text generalizing k with
  | nil =>
    rw [nil_append, firstMatch_cons, if_pos delimiter]
    rfl
  | cons c text ih =>
    obtain ⟨notZero, notEquals⟩ := plain c mem_cons_self
    rw [cons_append, firstMatch_cons, if_neg fun either => either.elim notZero notEquals,
      ih fun c member => plain c (mem_cons_of_mem _ member)]
    rfl

theorem firstMatch_plain {text : List Byte} (plain : ∀ c ∈ text, c ≠ 0 ∧ c ≠ equals) (delimiter : d = 0 ∨ d = equals) :
    firstMatch item 0 (text ++ d :: rest) = if Matches item text then some rest else firstMatch item 0 rest :=
  firstMatch_text plain delimiter

theorem firstMatch_parts {text : List Byte} (ended : (0 : Byte) ∉ text) :
    ((∀ part ∈ text.splitOn equals, ¬Matches item part) →
        firstMatch item 0 (text ++ 0 :: rest) = firstMatch item 0 rest) ∧
      ((∃ part ∈ text.splitOn equals, Matches item part) → firstMatch item 0 (text ++ 0 :: rest) ≠ none) := by
  have plain : ∀ {part : List Byte}, (0 : Byte) ∉ part → equals ∉ part → ∀ c ∈ part, c ≠ 0 ∧ c ≠ equals :=
    fun noZero noEquals c member => ⟨fun zero => noZero (zero ▸ member), fun eq => noEquals (eq ▸ member)⟩
  induction text using separated (s := equals) with
  | single text noEquals =>
    rw [List.splitOn_eq_singleton noEquals, firstMatch_plain (plain ended noEquals) (.inl rfl)]
    constructor
    · intro quiet
      exact if_neg (quiet text mem_cons_self)
    · rintro ⟨part, member, found⟩
      rw [List.mem_singleton.mp member] at found
      rw [if_pos found]
      exact some_ne_none _
  | cons text later noEquals ih =>
    have first : (0 : Byte) ∉ text := fun member => ended (List.mem_append_left _ member)
    obtain ⟨quietly, loudly⟩ := ih fun member => ended (List.mem_append_right _ (mem_cons_of_mem _ member))
    rw [append_assoc, cons_append, List.splitOn_append_cons_self_of_not_mem noEquals,
      firstMatch_plain (plain first noEquals) (.inr rfl)]
    constructor
    · intro quiet
      rw [if_neg (quiet text mem_cons_self), quietly fun part member => quiet part (mem_cons_of_mem _ member)]
    · rintro ⟨part, member, found⟩
      split
      case isTrue => exact some_ne_none _
      case isFalse unmatched =>
        refine loudly ⟨part, (List.mem_cons.mp member).resolve_left ?_, found⟩
        rintro rfl
        exact unmatched found

theorem Line.bytes_append (line : Line) (rest : List Byte) :
    line.bytes ++ rest = line.key ++ equals :: (line.text ++ 0 :: rest) := by
  unfold Line.bytes
  rw [append_assoc, cons_append, append_assoc]
  rfl

theorem firstMatch_line (line : Line) :
    (line.Quiet item → firstMatch item 0 (line.bytes ++ rest) = firstMatch item 0 rest) ∧
      (¬line.Quiet item → firstMatch item 0 (line.bytes ++ rest) ≠ none) := by
  obtain ⟨quietly, loudly⟩ := @firstMatch_parts item rest line.text line.valueText
  rw [line.bytes_append, firstMatch_plain line.keyText (.inr rfl)]
  constructor
  · rintro ⟨key, text⟩
    rw [if_neg key, quietly text]
  · intro loud
    split
    case isTrue => exact some_ne_none _
    case isFalse key =>
      refine loudly ?_
      by_contra none
      push Not at none
      exact loud ⟨key, none⟩

theorem firstMatch_pad {pad : ℕ} : firstMatch item 0 (List.replicate pad 0) = none ↔ pad = 0 ∨ item ≠ [] := by
  induction pad with
  | zero => exact iff_of_true rfl (.inl rfl)
  | succ pad ih =>
    rw [List.replicate_succ, firstMatch_cons, if_pos (.inl rfl)]
    cases item with
    | nil => exact iff_of_false (some_ne_none _) (by simp)
    | cons x item => exact ih.trans (iff_of_true (.inr (cons_ne_nil _ _)) (.inr (cons_ne_nil _ _)))

theorem buffer_cons (line : Line) (lines : List Line) (pad : ℕ) :
    buffer (line :: lines) pad = line.bytes ++ buffer lines pad := by
  unfold buffer
  rw [List.flatMap_cons, append_assoc]

theorem firstMatch_eq_none {lines : List Line} {pad : ℕ} :
    firstMatch item 0 (buffer lines pad) = none ↔ Silent item lines pad := by
  induction lines with
  | nil =>
    refine firstMatch_pad.trans ⟨fun pads => ⟨fun _ member => absurd member List.not_mem_nil, pads⟩, And.right⟩
  | cons line lines ih =>
    obtain ⟨quietly, loudly⟩ := @firstMatch_line item (buffer lines pad) line
    rw [buffer_cons]
    by_cases quiet : line.Quiet item
    · rw [quietly quiet, ih]
      unfold Silent
      rw [List.forall_mem_cons]
      exact and_congr_left' (iff_and_self.mpr fun _ => quiet) |>.trans (by rw [and_comm (a := line.Quiet item)])
    · exact iff_of_false (loudly quiet) fun silent => quiet (silent.1 line mem_cons_self)

theorem buffer_ended (lines : List Line) (pad : ℕ) : Ended (buffer lines pad) := by
  induction lines with
  | nil =>
    cases pad with
    | zero => exact .inl rfl
    | succ pad => exact .inr ⟨List.replicate pad 0, List.replicate_succ'⟩
  | cons line lines ih =>
    have bytes : line.key ++ equals :: (line.text ++ 0 :: buffer lines pad) =
        (line.key ++ equals :: line.text) ++ 0 :: buffer lines pad := by
      rw [append_assoc, cons_append]
    rw [buffer_cons, line.bytes_append, bytes]
    exact ih.append _

theorem firstMatch_ended {buf : List Byte} (ended : Ended buf) (found : firstMatch item k buf = some rest) :
    Ended rest := by
  induction buf generalizing k with
  | nil => exact absurd found.symm (some_ne_none _)
  | cons c buf ih =>
    rw [firstMatch_cons] at found
    split at found
    · split at found
      · obtain rfl := Option.some.inj found
        exact ended.tail
      · exact ih ended.tail found
    · exact ih ended.tail found

theorem matches_self : Matches item item := by
  have rest : ∀ front tail, item = front ++ tail → tail.foldl (advance item) front.length = item.length := by
    intro front tail
    induction tail generalizing front with
    | nil =>
      intro whole
      rw [whole, List.append_nil]
      rfl
    | cons c tail ih =>
      intro whole
      have next : item[front.length]? = some c := by
        rw [whole, List.getElem?_append_right le_rfl, Nat.sub_self]
        rfl
      have later := ih (front ++ [c]) (by rw [whole, append_assoc]; rfl)
      rw [List.foldl_cons, advance_of_getElem next, if_pos rfl]
      rw [length_append] at later
      exact later
  exact rest [] item rfl

theorem Line.Quiet.ne {line : Line} (quiet : line.Quiet item) : line.key ≠ item := by
  intro same
  refine quiet.1 ?_
  rw [same]
  exact matches_self

end File

/-! ### The call -/

section Call

variable {size w : ℕ} {strtol : Strtol} {item : List Byte} {lines : List Line} {pad : ℕ}

theorem takeWhile_text {text rest : List Byte} (ended : (0 : Byte) ∉ text) :
    (text ++ 0 :: rest).takeWhile (· ≠ 0) = text := by
  have plain : ∀ c ∈ text, decide (c ≠ 0) = true := fun c member => decide_eq_true fun zero => ended (zero ▸ member)
  rw [List.takeWhile_append_of_pos plain, List.takeWhile_cons_of_neg (by decide), List.append_nil]

section

variable {buf : List Byte} (ended : Ended buf)

include ended

theorem getItem_none (none : firstMatch item 0 buf = none) : getItem size w strtol buf item = .ok ⟨1, []⟩ := by
  unfold getItem
  rw [findItem_eq ended le_rfl, none]
  rfl

theorem getItem_end (found : firstMatch item 0 buf = some []) : getItem size w strtol buf item = .error .read := by
  unfold getItem
  rw [findItem_eq ended le_rfl, found]
  rfl

theorem getItem_text {text rest : List Byte} (plain : (0 : Byte) ∉ text)
    (found : firstMatch item 0 buf = some (text ++ 0 :: rest)) : getItem size w strtol buf item =
      if ∀ bytes ∈ text.splitOn comma, bytes.length ≤ size then
        .ok ⟨0, (text.splitOn comma).map fun bytes => BitVec.ofInt w (strtol.read size bytes)⟩
      else .error .write := by
  have enough : text.length < (text ++ 0 :: rest).length + 1 := by
    rw [length_append]
    omega
  unfold getItem
  rw [findItem_eq ended le_rfl, found]
  show ((tokens size _ (text ++ 0 :: rest)).map _) = _
  rw [tokens_eq plain rest _ enough]
  split <;> rfl

end

theorem Own.alike (own : Own size item lines) : Alike size w strtol item lines pad := by
  obtain ⟨before, line, after, rfl, quiet, key, short⟩ := own
  have first : firstLine item (before ++ line :: after) = some line := by
    unfold firstLine
    have others : before.find? (fun line => decide (line.key = item)) = none := by
      refine List.find?_eq_none.mpr fun other member same => ?_
      exact (quiet other member).ne (of_decide_eq_true same)
    rw [List.find?_append, others,
      List.find?_cons_of_pos (p := fun line : Line => decide (line.key = item)) (decide_eq_true key)]
    rfl
  have found : firstMatch item 0 (buffer (before ++ line :: after) pad) =
      some (line.text ++ 0 :: buffer after pad) := by
    induction before with
    | nil =>
      rw [nil_append, buffer_cons, line.bytes_append, firstMatch_plain line.keyText (.inr rfl), key,
        if_pos matches_self]
    | cons other before ih =>
      rw [cons_append, buffer_cons, firstMatch_line other |>.1 (quiet other mem_cons_self)]
      refine ih (fun other member => quiet other (mem_cons_of_mem _ member)) ?_
      unfold firstLine at first ⊢
      rw [cons_append, List.find?_cons_of_neg] at first
      · exact first
      · rw [decide_eq_true_iff]
        exact (quiet other mem_cons_self).ne
  refine ⟨line, _, first, found, List.append_ne_nil_of_right_ne_nil _ (cons_ne_nil _ _), ?_, ?_⟩
  · rw [takeWhile_text line.valueText]
    exact fun bytes member => Nat.le_of_lt (short bytes member)
  · rw [takeWhile_text line.valueText]
    refine List.map_congr_left fun bytes member => ?_
    unfold Strtol.read
    rw [if_pos (short bytes member)]

theorem firstLine_eq_none : firstLine item lines = none ↔ ¬∃ line ∈ lines, line.key = item := by
  unfold firstLine
  rw [List.find?_eq_none]
  push Not
  exact forall₂_congr fun line _ => not_congr decide_eq_true_iff

theorem right_silent (silent : Silent item lines pad) : ItemRight strtol item lines (⟨1, []⟩ : Found w) := by
  have none : ¬∃ line ∈ lines, line.key = item := by
    rintro ⟨line, member, key⟩
    exact (silent.1 line member).ne key
  refine ⟨iff_of_false Nat.one_ne_zero none, ?_⟩
  rw [firstLine_eq_none.mpr none]
  rfl

theorem right_found {values : List (BitVec w)} : ItemRight strtol item lines (⟨0, values⟩ : Found w) ↔
    ∃ line, firstLine item lines = some line ∧ values = line.stored w strtol := by
  constructor
  · intro right
    have some : firstLine item lines ≠ none := fun none => firstLine_eq_none.mp none (right.ret.mp rfl)
    obtain ⟨line, first⟩ := Option.ne_none_iff_exists'.mp some
    refine ⟨line, first, ?_⟩
    have stored := right.stored
    rw [first] at stored
    exact stored
  · rintro ⟨line, first, rfl⟩
    refine ⟨iff_of_true rfl ?_, ?_⟩
    · by_contra none
      rw [firstLine_eq_none.mpr none] at first
      exact some_ne_none _ first.symm
    · rw [first]
      rfl

theorem getItem_right : (∃ found, getItem size w strtol (buffer lines pad) item = .ok found ∧
      ItemRight strtol item lines found) ↔
    Silent item lines pad ∨ Own size item lines ∨ Alike size w strtol item lines pad := by
  have own : Own size item lines → Alike size w strtol item lines pad := Own.alike
  rw [or_iff_right_of_imp own]
  have ended := buffer_ended lines pad
  cases found : firstMatch item 0 (buffer lines pad) with
  | none =>
    have silent := firstMatch_eq_none.mp found
    rw [getItem_none ended found]
    exact iff_of_true ⟨_, rfl, right_silent silent⟩ (.inl silent)
  | some rest =>
    have loud : ¬Silent item lines pad := fun silent => by
      rw [firstMatch_eq_none.mpr silent] at found
      exact some_ne_none _ found.symm
    rw [or_iff_right loud]
    rcases firstMatch_ended ended found with rfl | last
    · -- what is found ends the buffer
      rw [getItem_end ended found]
      refine iff_of_false ?_ ?_
      · rintro ⟨_, error, -⟩
        exact nomatch error
      · rintro ⟨_, rest, -, same, some, -⟩
        rw [found] at same
        exact some (Option.some.inj same).symm
    · obtain ⟨text, behind, rfl, plain⟩ : ∃ text behind, rest = text ++ 0 :: behind ∧ (0 : Byte) ∉ text := by
        obtain ⟨front, rfl⟩ := last
        obtain ⟨text, behind, whole, plain⟩ := List.eq_append_cons_of_mem (a := (0 : Byte))
          (List.mem_append_right front mem_cons_self)
        exact ⟨text, behind, whole, plain⟩
      rw [getItem_text ended plain found]
      have values : ∀ line : Line, (text.splitOn comma).map (fun bytes => BitVec.ofInt w (strtol.read size bytes)) =
          line.stored w strtol ↔ (((text ++ 0 :: behind).takeWhile (· ≠ 0)).splitOn comma).map
            (fun bytes => BitVec.ofInt w (strtol.read size bytes)) = line.stored w strtol := by
        intro line
        rw [takeWhile_text plain]
      split
      case isTrue fits =>
        constructor
        · rintro ⟨_, same, right⟩
          obtain rfl := Except.ok.inj same
          obtain ⟨line, first, stored⟩ := right_found.mp right
          refine ⟨line, _, first, found, List.append_ne_nil_of_right_ne_nil _ (cons_ne_nil _ _), ?_,
            (values line).mp stored⟩
          rw [takeWhile_text plain]
          exact fits
        · rintro ⟨line, rest, first, same, -, -, stored⟩
          rw [found] at same
          obtain rfl := Option.some.inj same
          exact ⟨_, rfl, right_found.mpr ⟨line, first, (values line).mpr stored⟩⟩
      case isFalse long =>
        refine iff_of_false ?_ ?_
        · rintro ⟨_, error, -⟩
          exact nomatch error
        · rintro ⟨_, rest, -, same, -, fits, -⟩
          rw [found] at same
          obtain rfl := Option.some.inj same
          rw [takeWhile_text plain] at fits
          exact long fits

end Call

/-- `simple_strtol` of a decimal number. -/
def decimal : Strtol := ⟨fun bytes => bytes.foldl (fun n c => 10 * n + ((c.toNat : Int) - 48)) 0, []⟩

def freqOffset : List Byte := [0x66, 0x72, 0x65, 0x71, 0x5f, 0x6f, 0x66, 0x66, 0x73, 0x65, 0x74]

/-- `htemp_freq_offset=1` and `freq_offset=2`. -/
def offsetLines : List Line :=
  [⟨[0x68, 0x74, 0x65, 0x6d, 0x70, 0x5f] ++ freqOffset, [0x31], by decide, by decide⟩,
    ⟨freqOffset, [0x32], by decide, by decide⟩]

/-- **From the file to an item.** What is read of a closed file is the values of its first line with the key, if that
line is the first to match and its values are short, and nothing, if no line matches. -/
theorem file_items {size w : ℕ} (strtol : Strtol) {item file : List Byte} {lines : List Line}
    (fits : file.length < 2 ^ 32) (closed : Closed file)
    (kept : (cleanLines file).filter (· ≠ []) = lines.map fun line => line.key ++ equals :: line.text)
    (own : Own size item lines ∨ item ≠ [] ∧ ∀ line ∈ lines, line.Quiet item) :
    ∃ found : Found w, getItem size w strtol ((processCaliContent file).varbuf.take (processCaliContent file).bufLen)
      item = .ok found ∧ ItemRight strtol item lines found := by
  obtain ⟨short, varbuf, bufLen, -⟩ := @processCaliContent_spec file
  have last : ending file ≤ 1 ∧ (lastLine file = [] → ending file = 0) := by
    unfold ending
    split <;> simp_all
  have within : paddedLen (text file).length file.length ≤ (text file).length + (file.length - (text file).length) := by
    rw [Nat.add_sub_of_le short]
    exact paddedLen_le short
  obtain ⟨pad, -, left⟩ := (take_iff within).mpr
    ((paddedLen_iff short fits last.1).mpr ⟨closed.1, closed.2.imp_left last.2⟩)
  rw [varbuf, bufLen, left, ← text_content, content_lines kept]
  exact getItem_right.mpr (own.elim (fun own => .inr (.inl own)) fun quiet => .inl ⟨quiet.2, .inr quiet.1⟩)

/-- `a=12`, and a comment. -/
theorem file_items_two : ∃ found : Found 8, getItem 20 8 decimal ((processCaliContent
      [0x61, 0x3d, 0x31, 0x32, 0x0a, 0x23, 0x0a]).varbuf.take (processCaliContent
      [0x61, 0x3d, 0x31, 0x32, 0x0a, 0x23, 0x0a]).bufLen) [0x61] = .ok found ∧
    ItemRight decimal [0x61] [⟨[0x61], [0x31, 0x32], by decide, by decide⟩] found :=
  file_items decimal (by decide) ⟨by decide, .inl (by decide)⟩ (by decide)
    (.inl ⟨[], _, [], rfl, nofun, rfl, by decide⟩)

end W2l.Cali
