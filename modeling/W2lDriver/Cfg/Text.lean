/-
**The text of the configuration file: strings, numbers and lines.**

`aml_cfg_find_tag` (`aml_cfg.c`) and the kernel's string functions that read what it finds. A string is the memory from
a pointer to the end of its buffer; a function that reads behind that end has no result.

* `simpleStrtoul`, `scanOctets` — `simple_strtoul` with base 16, and `sscanf` with `"%hhx:%hhx:…"`.
* `amlCfgFindTag` — the search, with every read checked.
* `lines`, `Entry`, `position` — **what it should find**: the first line that is the tag and `tag_len` bytes.
* `amlCfgFindTag_eq` — **it finds just that**, and reads nothing outside; `position_spec` — what stands there.
-/

import W2lDriver.Lib.Hex

namespace W2l.Cfg

open Lib

/-! ### Strings -/

/-- `'\n'`. -/
abbrev newline : Byte := 0x0a

/-- `':'`. -/
abbrev colon : Byte := 0x3a

/-- `'='`. -/
abbrev equalSign : Byte := 0x3d

def ascii (text : List Char) : List Byte := text.map fun c => BitVec.ofNat 8 c.toNat

def untilNul (str : List Byte) : List Byte := str.takeWhile (· ≠ 0)

def strlen (str : List Byte) : ℕ := (untilNul str).length

/-- `isspace`, as the table of the kernel has it. -/
def isspace (c : Byte) : Bool := c == 0x20 || (0x09 ≤ c.toNat && c.toNat ≤ 0x0d) || c == 0xa0

def skipSpaces : List Byte → Option (List Byte)
  | [] => none
  | c :: rest => if isspace c then skipSpaces rest else some (c :: rest)

/-- `simple_strtoul(str, &next, 16)`; an `unsigned long` has 64 bits. -/
def simpleStrtoul (str : List Byte) : Option (ℕ × List Byte) := do
  let (n, next) ← scanHex 0 (← skipRadix str)
  some (n % 2 ^ 64, next)

/-- `sscanf(str, "%hhx:…:%hhx", …)` with `n` conversions: the octets it stores, in order. -/
def scanOctets : ℕ → List Byte → Option (List Byte)
  | 0, _ => some []
  | n + 1, str => (skipSpaces str).bind fun str =>
    if str.head?.bind hexVal = none then some []
    else (simpleStrtoul str).bind fun (v, next) =>
      if n = 0 then some [BitVec.ofNat 8 v]
      else
        match next with
        | [] => none
        | d :: later =>
          if d = colon then (scanOctets n later).map (BitVec.ofNat 8 v :: ·)
          else some [BitVec.ofNat 8 v]

/-! ### The search for a tag -/

/-- `!strncmp(mem, tag, strlen(tag))`. -/
def sameFront : List Byte → List Byte → Option Bool
  | _, [] => some true
  | [], _ :: _ => none
  | c :: mem, t :: tag => if c = t then sameFront mem tag else some false

section Search

variable (fileData : List Byte) (fileSize : ℕ) (tagName : List Byte) (tagLen : ℕ)

/-- The inner loop: from `curr` to the newline, or to the end of the file. -/
def lineEnd : ℕ → ℕ → Option ℕ
  | 0, curr => some curr
  | fuel + 1, curr =>
    if curr < fileSize then
      match fileData[curr]? with
      | none => none
      | some c => if c = newline then some curr else lineEnd fuel (curr + 1)
    else some curr

def findTagLoop : ℕ → ℕ → Option (Option ℕ)
  | 0, _ => some none
  | fuel + 1, lineStart =>
    if lineStart < fileSize then do
      let curr ← lineEnd fileData fileSize (fileSize - lineStart) lineStart
      let same ←
        if curr - lineStart = tagName.length + tagLen then
          sameFront (fileData.drop lineStart) tagName
        else some false
      if same then some (some (lineStart + tagName.length)) else findTagLoop fuel (curr + 1)
    else some none

/-- `aml_cfg_find_tag`: the offset of the value, if there is one. A file is shorter than 2^32 - 1 bytes. -/
def amlCfgFindTag : Option (Option ℕ) := findTagLoop fileData fileSize tagName tagLen fileSize 0

end Search

/-! ### What the search should find -/

def lines : List Byte → List (List Byte)
  | [] => []
  | c :: rest =>
    if c = newline then [] :: lines rest
    else
      match lines rest with
      | [] => [[c]]
      | line :: later => (c :: line) :: later

/-- The line is the tag followed by `tagLen` bytes. -/
def Entry (tagName : List Byte) (tagLen : ℕ) (line : List Byte) : Prop :=
  ∃ value, line = tagName ++ value ∧ value.length = tagLen

theorem entry_iff {tagName line : List Byte} {tagLen : ℕ} :
    Entry tagName tagLen line ↔ line.length = tagName.length + tagLen ∧ tagName <+: line := by
  constructor
  · rintro ⟨value, rfl, rfl⟩
    exact ⟨List.length_append, List.prefix_append tagName value⟩
  · rintro ⟨size, value, rfl⟩
    rw [List.length_append] at size
    exact ⟨value, rfl, Nat.add_left_cancel size⟩

instance (tagName : List Byte) (tagLen : ℕ) (line : List Byte) :
    Decidable (Entry tagName tagLen line) := decidable_of_iff' _ entry_iff

/-- Where the value of the first entry stands, when the first line starts at `start`. -/
def position (tagName : List Byte) (tagLen : ℕ) : ℕ → List (List Byte) → Option ℕ
  | _, [] => none
  | start, line :: later =>
    if Entry tagName tagLen line then some (start + tagName.length)
    else position tagName tagLen (start + line.length + 1) later

def valueOf (tagName : List Byte) (tagLen : ℕ) (text : List Byte) : Option (List Byte) :=
  ((lines text).find? fun line => decide (Entry tagName tagLen line)).map (·.drop tagName.length)

def firstLine (text : List Byte) : List Byte := text.takeWhile (· ≠ newline)

theorem lines_step {text : List Byte} (nonempty : text ≠ []) :
    lines text = firstLine text :: lines (text.drop ((firstLine text).length + 1)) := by
  induction text with
  | nil => exact absurd rfl nonempty
  | cons c rest ih =>
    by_cases ends : c = newline
    · rw [lines, if_pos ends, firstLine, List.takeWhile_cons_of_neg (by simpa using ends)]
      rfl
    · have taken : firstLine (c :: rest) = c :: firstLine rest :=
        List.takeWhile_cons_of_pos (by simpa using ends)
      rw [lines, if_neg ends, taken]
      cases rest with
      | nil => rfl
      | cons d rest =>
        rw [ih (List.cons_ne_nil d rest)]
        rfl

theorem lines_cons {line : List Byte} (plain : newline ∉ line) (rest : List Byte) :
    lines (line ++ newline :: rest) = line :: lines rest := by
  have first : firstLine (line ++ newline :: rest) = line := by
    rw [firstLine, List.takeWhile_append_of_pos fun c mem => ?_,
      List.takeWhile_cons_of_neg (by decide), List.append_nil]
    refine decide_eq_true ?_
    rintro rfl
    exact plain mem
  rw [lines_step (by simp), first, List.drop_append, Nat.add_sub_cancel_left,
    List.drop_eq_nil_of_le (Nat.le_succ _), List.nil_append]
  rfl

theorem entry_of_length {tagName line : List Byte} {tagLen : ℕ}
    (other : line.length ≠ tagName.length + tagLen) : ¬ Entry tagName tagLen line :=
  fun entry => other (entry_iff.mp entry).1

/-! ### The search finds it -/

section Search

variable {fileData : List Byte} {fileSize : ℕ} {tagName : List Byte} {tagLen : ℕ}

/-- What is left of the file from `lineStart` on. -/
def left (fileData : List Byte) (fileSize lineStart : ℕ) : List Byte :=
  (fileData.take fileSize).drop lineStart

theorem left_cons (within : fileSize ≤ fileData.length) {curr : ℕ} (more : curr < fileSize) :
    ∃ c, fileData[curr]? = some c ∧ left fileData fileSize curr = c :: left fileData fileSize (curr + 1) := by
  have inside : curr < (fileData.take fileSize).length := by
    rw [List.length_take]
    omega
  refine ⟨fileData[curr], List.getElem?_eq_getElem (by omega), ?_⟩
  rw [left, List.drop_eq_getElem_cons inside, List.getElem_take]
  rfl

theorem left_end {curr : ℕ} (past : fileSize ≤ curr) : left fileData fileSize curr = [] :=
  List.drop_eq_nil_of_le ((List.length_take_le _ _).trans past)

theorem lineEnd_eq (within : fileSize ≤ fileData.length) {fuel curr : ℕ}
    (enough : fileSize - curr ≤ fuel) :
    lineEnd fileData fileSize fuel curr = some (curr + (firstLine (left fileData fileSize curr)).length) := by
  induction fuel generalizing curr with
  | zero =>
    rw [left_end (by omega)]
    rfl
  | succ fuel ih =>
    rw [lineEnd]
    by_cases more : curr < fileSize
    · obtain ⟨c, read, rest⟩ := left_cons within more
      rw [if_pos more, read, rest]
      dsimp only
      by_cases ends : c = newline
      · rw [if_pos ends, firstLine, List.takeWhile_cons_of_neg (by simpa using ends)]
        rfl
      · have taken : firstLine (c :: left fileData fileSize (curr + 1)) =
            c :: firstLine (left fileData fileSize (curr + 1)) :=
          List.takeWhile_cons_of_pos (by simpa using ends)
        rw [if_neg ends, ih (by omega), taken, List.length_cons]
        congr 1
        omega
    · rw [if_neg more, left_end (by omega)]
      rfl

theorem sameFront_eq {mem tag : List Byte} (enough : tag.length ≤ mem.length) :
    sameFront mem tag = some (decide (tag <+: mem)) := by
  induction tag generalizing mem with
  | nil => cases mem <;> simp [sameFront]
  | cons t tag ih =>
    cases mem with
    | nil => exact absurd enough (by simp)
    | cons c mem =>
      rw [sameFront]
      by_cases same : c = t
      · rw [if_pos same, ih (by simpa using enough), same]
        simp [List.cons_prefix_cons]
      · rw [if_neg same]
        simp [List.cons_prefix_cons, Ne.symm same]

theorem sameFront_line {lineStart : ℕ}
    (size : (firstLine (left fileData fileSize lineStart)).length = tagName.length + tagLen) :
    sameFront (fileData.drop lineStart) tagName =
      some (decide (Entry tagName tagLen (firstLine (left fileData fileSize lineStart)))) := by
  have line : firstLine (left fileData fileSize lineStart) <+: fileData.drop lineStart := by
    refine (List.takeWhile_prefix _).trans ?_
    rw [left, List.drop_take]
    exact List.take_prefix _ _
  rw [sameFront_eq (by have := line.length_le; omega)]
  congr 1
  refine decide_eq_decide.mpr ⟨fun front => entry_iff.mpr ⟨size, ?_⟩, fun entry => ?_⟩
  · exact List.prefix_of_prefix_length_le front line (by omega)
  · exact (entry_iff.mp entry).2.trans line

theorem findTagLoop_eq (within : fileSize ≤ fileData.length) {fuel lineStart : ℕ}
    (enough : fileSize - lineStart ≤ fuel) :
    findTagLoop fileData fileSize tagName tagLen fuel lineStart =
      some (position tagName tagLen lineStart (lines (left fileData fileSize lineStart))) := by
  induction fuel generalizing lineStart with
  | zero =>
    rw [left_end (by omega)]
    rfl
  | succ fuel ih =>
    rw [findTagLoop]
    by_cases more : lineStart < fileSize
    · obtain ⟨c, -, rest⟩ := left_cons within more
      have nonempty : left fileData fileSize lineStart ≠ [] := by
        rw [rest]
        exact List.cons_ne_nil _ _
      have next : (left fileData fileSize lineStart).drop
          ((firstLine (left fileData fileSize lineStart)).length + 1) =
          left fileData fileSize (lineStart + (firstLine (left fileData fileSize lineStart)).length + 1) := by
        rw [left, List.drop_drop]
        rfl
      rw [if_pos more, lineEnd_eq within (Nat.le_refl _), lines_step nonempty, next]
      simp only [Option.bind_eq_bind, Option.bind_some, Nat.add_sub_cancel_left]
      by_cases size : (firstLine (left fileData fileSize lineStart)).length = tagName.length + tagLen
      · rw [if_pos size, sameFront_line size, Option.bind_some, position]
        by_cases entry : Entry tagName tagLen (firstLine (left fileData fileSize lineStart))
        · rw [if_pos entry, if_pos (decide_eq_true entry)]
        · rw [if_neg entry, if_neg (by simpa using entry), ih (by omega)]
      · rw [if_neg size, position, if_neg (entry_of_length size)]
        exact ih (by omega)
    · rw [if_neg more, left_end (by omega)]
      rfl

theorem amlCfgFindTag_eq (within : fileSize ≤ fileData.length) : amlCfgFindTag fileData fileSize tagName tagLen =
      some (position tagName tagLen 0 (lines (fileData.take fileSize))) :=
  findTagLoop_eq within (Nat.sub_le _ _)

theorem position_spec (tagName : List Byte) (tagLen start : ℕ) (text : List Byte) :
    (position tagName tagLen start (lines text) = none ∧ valueOf tagName tagLen text = none) ∨
      ∃ k value tail, position tagName tagLen start (lines text) = some (start + k) ∧
        valueOf tagName tagLen text = some value ∧ value.length = tagLen ∧
        text.drop k = value ++ tail ∧ k ≤ text.length ∧ ∀ c ∈ tail.head?, c = newline := by
  induction size : text.length using Nat.strong_induction_on generalizing start text with
  | _ size ih =>
    by_cases empty : text = []
    · subst empty
      exact .inl ⟨rfl, rfl⟩
    have step := lines_step empty
    have nonempty : 0 < text.length := List.length_pos_of_ne_nil empty
    by_cases entry : Entry tagName tagLen (firstLine text)
    · obtain ⟨value, line, length⟩ := entry
      have entry : Entry tagName tagLen (firstLine text) := ⟨value, line, length⟩
      have whole : firstLine text ++ text.dropWhile (· ≠ newline) = text :=
        List.takeWhile_append_dropWhile
      refine .inr ⟨tagName.length, value, text.dropWhile (· ≠ newline), ?_, ?_, length, ?_, ?_, ?_⟩
      · rw [step, position, if_pos entry]
      · rw [valueOf, step, List.find?_cons, decide_eq_true entry, Option.map_some, line, List.drop_left]
      · rw [line, List.append_assoc] at whole
        rw [← whole, List.drop_left]
        rw [whole]
      · have le := congrArg List.length whole
        rw [line, List.length_append, List.length_append] at le
        omega
      · intro c head
        have stops := List.head?_dropWhile_not (fun x => decide (x ≠ newline)) text
        rw [head] at stops
        simpa using stops
    · have skip : position tagName tagLen start (lines text) =
          position tagName tagLen (start + (firstLine text).length + 1)
            (lines (text.drop ((firstLine text).length + 1))) := by
        rw [step, position, if_neg entry]
      have same : valueOf tagName tagLen text = valueOf tagName tagLen (text.drop ((firstLine text).length + 1)) := by
        rw [valueOf, step, List.find?_cons, decide_eq_false entry]
        rfl
      rw [skip, same]
      rcases ih _ (by rw [← size, List.length_drop]; omega)
        (start + (firstLine text).length + 1) (text.drop ((firstLine text).length + 1)) rfl with
        none | ⟨k, value, tail, found, found', length, rest, inside, ends⟩
      · exact .inl none
      · rw [List.drop_drop] at rest
        rw [List.length_drop] at inside
        refine .inr ⟨(firstLine text).length + 1 + k, value, tail, ?_, found', length, rest, ?_, ends⟩
        · rw [found]
          congr 1
          omega
        · -- behind the end of the text nothing would have been found
          by_contra past
          have none : text.drop ((firstLine text).length + 1) = [] :=
            List.drop_eq_nil_of_le (by omega)
          rw [none] at found
          cases found

end Search

end W2l.Cfg
