/-
**The calibration file before it is parsed.**

`aml_process_cali_content` (`fullmac/aml_main.c`). The file is rewritten in place: carriage returns and comments go,
empty lines go, and a line ends with a NUL. The length that is returned is a multiple of 4 where the file has room for
it. A last line without a newline gets its NUL from the padding only.

* `contentStep`, `processCaliContent` — a byte of the file, and the whole.
* `content` — **what should be left**: the lines that keep something, each with a NUL.
* `ContentRight`, `Closed` — what a call should do, and when it does; `content_right` — just then.
-/

import W2lDriver.Lib.Bytes

namespace W2l.Cali

open Lib (Byte)
open List (append_assoc append_nil getLastD_cons mem_cons replicate)

/-! ### The code -/

/-- `'\r'`. -/
abbrev cr : Byte := 0x0d

/-- `'\n'`. -/
abbrev lf : Byte := 0x0a

/-- `'#'`. -/
abbrev hash : Byte := 0x23

/-- The buffer and the variables of the loop; of each write the index, and the index read before. -/
structure ContentState where
  varbuf : List Byte
  dp : ℕ := 0
  findNewline : Bool := false
  column : ℕ := 0
  writes : List (ℕ × ℕ) := []

namespace ContentState

variable (s : ContentState)

/-- `*dp++ = c`. -/
def put (n : ℕ) (c : Byte) : ContentState :=
  { s with varbuf := s.varbuf.set s.dp c, dp := s.dp + 1, writes := (s.dp, n) :: s.writes }

/-- One round of the loop. A line is shorter than 2^32, so that `column` is 0 only in front of it. -/
def contentStep (n : ℕ) : ContentState :=
  let c := s.varbuf.getD n 0
  if c = cr then s
  else if s.findNewline = true ∧ c ≠ lf then s
  else if c = hash then { s with findNewline := true }
  else if c = lf then
    if s.column = 0 then { s with findNewline := false }
    else { s.put n 0 with findNewline := false, column := 0 }
  else { s.put n c with findNewline := false, column := s.column + 1 }

def clear (len : ℕ) : ℕ → ContentState → ContentState
  | 0, s => s
  | count + 1, s => clear len count (s.put len 0)

end ContentState

/-- `buf_len`, an `unsigned int`. -/
def paddedLen (bufLen len : ℕ) : ℕ :=
  if bufLen % 4 = 0 then bufLen
  else if (bufLen + (4 - bufLen % 4)) % 2 ^ 32 ≤ len then (bufLen + (4 - bufLen % 4)) % 2 ^ 32
  else bufLen

/-- What a call leaves. -/
structure ContentOut where
  varbuf : List Byte
  bufLen : ℕ
  writes : List (ℕ × ℕ)

def processCaliContent (file : List Byte) : ContentOut :=
  let s := (List.range file.length).foldl ContentState.contentStep { varbuf := file }
  let t := ContentState.clear file.length (file.length - s.dp) s
  ⟨t.varbuf, paddedLen s.dp file.length, t.writes⟩

/-! ### The lines of a file -/

def cleanLine (line : List Byte) : List Byte := (line.takeWhile (· ≠ hash)).filter (· ≠ cr)

def cleanLines (file : List Byte) : List (List Byte) := (file.splitOn lf).map cleanLine

/-- **What should be left** of a file. -/
def content (file : List Byte) : List Byte := ((cleanLines file).filter (· ≠ [])).flatMap (· ++ [0])

def lastLine (file : List Byte) : List Byte := (cleanLines file).getLastD []

/-- The lines with their NULs, but for the last; `started` when there is something in front of the first. -/
def written (started : Bool) : List (List Byte) → List Byte
  | [] => []
  | [line] => line
  | line :: next :: rest =>
    line ++ (if started = true ∨ line ≠ [] then [0] else []) ++ written false (next :: rest)

/-- **What a call should do.** -/
structure ContentRight (file : List Byte) (out : ContentOut) : Prop where
  content : ∃ pad < 4, out.varbuf.take out.bufLen = content file ++ List.replicate pad 0
  size : out.bufLen ≤ file.length ∧ out.varbuf.length = file.length
  inPlace : ∀ write ∈ out.writes, write.1 ≤ write.2 ∧ write.1 < file.length

def text (file : List Byte) : List Byte := written false (cleanLines file)

def padded (n : ℕ) : ℕ := (n + 3) / 4 * 4

/-- The length of the text rounded up fits an `unsigned int`; and the last line is empty, or the length is rounded up
and the file has room for that. -/
def Closed (file : List Byte) : Prop :=
  padded (text file).length < 2 ^ 32 ∧
    (lastLine file = [] ∨ (text file).length % 4 ≠ 0 ∧ padded (text file).length ≤ file.length)

/-! ### What the loop writes -/

/-- What the rest of a file adds. -/
def emit : List Byte → Bool → ℕ → List Byte
  | [], _, _ => []
  | c :: rest, findNewline, column =>
    if c = cr then emit rest findNewline column
    else if findNewline = true ∧ c ≠ lf then emit rest findNewline column
    else if c = hash then emit rest true column
    else if c = lf then if column = 0 then emit rest false 0 else 0 :: emit rest false 0
    else c :: emit rest false (column + 1)

theorem cleanLine_nil : cleanLine [] = [] := rfl

theorem cleanLine_cr (line : List Byte) : cleanLine (cr :: line) = cleanLine line := by
  unfold cleanLine
  rw [List.takeWhile_cons_of_pos (by decide), List.filter_cons_of_neg (by decide)]

theorem cleanLine_hash (line : List Byte) : cleanLine (hash :: line) = [] := by
  unfold cleanLine
  rw [List.takeWhile_cons_of_neg (by decide)]
  rfl

theorem cleanLine_cons {c : Byte} (text : c ≠ hash) (kept : c ≠ cr) (line : List Byte) :
    cleanLine (c :: line) = c :: cleanLine line := by
  unfold cleanLine
  have before : decide (c ≠ hash) = true := decide_eq_true text
  have stays : decide (c ≠ cr) = true := decide_eq_true kept
  rw [List.takeWhile_cons_of_pos (p := fun x => decide (x ≠ hash)) before,
    List.filter_cons_of_pos (p := fun x => decide (x ≠ cr)) stays]

theorem written_cons (started : Bool) (c : Byte) (line : List Byte) (rest : List (List Byte)) :
    written started ((c :: line) :: rest) = c :: written true (line :: rest) := by
  cases rest with
  | nil => rfl
  | cons next rest =>
    unfold written
    rw [if_pos (.inr (List.cons_ne_nil _ _)), if_pos (.inl rfl)]
    rfl

theorem written_nil_cons (started : Bool) (next : List Byte) (rest : List (List Byte)) :
    written started ([] :: next :: rest) =
      if started = true then 0 :: written false (next :: rest) else written false (next :: rest) := by
  cases started <;> rfl

/-- **The loop writes the lines**: from inside a line, of which the rest is kept unless it is a comment. -/
theorem emit_eq (file : List Byte) : ∀ (findNewline : Bool) (column : ℕ) (line : List Byte) (rest : List (List Byte)),
    file.splitOn lf = line :: rest → emit file findNewline column =
        written (decide (column ≠ 0)) ((if findNewline = true then [] else cleanLine line) :: rest.map cleanLine) := by
  induction file with
  | nil =>
    intro findNewline column line rest lines
    rw [List.splitOn_nil] at lines
    obtain ⟨rfl, rfl⟩ := List.cons.inj lines
    rw [cleanLine_nil, ite_self]
    rfl
  | cons c file ih =>
    intro findNewline column line rest lines
    obtain ⟨first, others, split⟩ := List.exists_cons_of_ne_nil (List.splitOn_ne_nil lf file)
    rw [List.splitOn_cons_eq_if_modifyHead, split] at lines
    unfold emit
    by_cases newline : c = lf
    · subst newline
      rw [if_pos (beq_self_eq_true _)] at lines
      obtain ⟨rfl, rfl⟩ := List.cons.inj lines
      rw [if_neg (by decide), if_neg fun both => both.2 rfl, if_neg (by decide), if_pos rfl, cleanLine_nil, ite_self,
        ih false 0 first others split, List.map_cons, written_nil_cons, if_neg Bool.false_ne_true]
      by_cases start : column = 0
      · rw [if_pos start, if_neg (by rw [decide_eq_true_iff]; exact not_not_intro start)]
        rfl
      · rw [if_neg start, if_pos (decide_eq_true start)]
        rfl
    · rw [if_neg (by simpa using newline), List.modifyHead_cons] at lines
      obtain ⟨rfl, rfl⟩ := List.cons.inj lines
      by_cases ret : c = cr
      · rw [if_pos ret, ret, cleanLine_cr, ih findNewline column first others split]
      · rw [if_neg ret]
        by_cases comment : findNewline = true
        · rw [if_pos ⟨comment, newline⟩, if_pos comment, ih findNewline column first others split, if_pos comment]
        · rw [if_neg fun both => comment both.1, if_neg comment]
          by_cases mark : c = hash
          · rw [if_pos mark, mark, cleanLine_hash, ih true column first others split, if_pos rfl]
          · rw [if_neg mark, if_neg newline, cleanLine_cons mark ret, written_cons,
              ih false (column + 1) first others split]
            rfl

theorem written_content (lines : List (List Byte)) :
    written false lines ++ (if lines.getLastD [] = [] then [] else [0]) =
      (lines.filter (· ≠ [])).flatMap (· ++ [0]) := by
  induction lines with
  | nil => rfl
  | cons line rest ih =>
    cases rest with
    | nil =>
      cases line with
      | nil => rfl
      | cons c line => exact (append_nil _).symm
    | cons next rest =>
      have last : (line :: next :: rest).getLastD [] = (next :: rest).getLastD [] := by
        rw [getLastD_cons, getLastD_cons, getLastD_cons]
      rw [last]
      cases line with
      | nil =>
        rw [written_nil_cons, if_neg Bool.false_ne_true, ih]
        rfl
      | cons c line =>
        unfold written
        rw [if_pos (.inr (List.cons_ne_nil _ _)), append_assoc, ih]
        rfl

/-! ### The buffer -/

/-- **The loop in front of the byte `n`**: the text so far, the rest of the file, and all that will be written. -/
structure Reading (file : List Byte) (n : ℕ) (s : ContentState) : Prop where
  length : s.varbuf.length = file.length
  behind : s.dp ≤ n
  left : s.varbuf.drop n = file.drop n
  all : s.varbuf.take s.dp ++ emit (file.drop n) s.findNewline s.column = emit file false 0
  inPlace : ∀ write ∈ s.writes, write.1 ≤ write.2 ∧ write.1 < file.length

theorem take_set_succ {α : Type} {list : List α} {i : ℕ} (inside : i < list.length) (a : α) :
    (list.set i a).take (i + 1) = list.take i ++ [a] := by
  rw [List.take_add_one, List.take_set_of_le le_rfl, List.getElem?_set_self inside]
  rfl

namespace Reading

variable {file : List Byte} {n : ℕ} {s t : ContentState}

section

variable (reading : Reading file n s)

include reading

theorem left_succ : s.varbuf.drop (n + 1) = file.drop (n + 1) := by
  have more := congrArg (List.drop 1) reading.left
  rw [List.drop_drop, List.drop_drop] at more
  exact more

theorem skip (varbuf : t.varbuf = s.varbuf) (dp : t.dp = s.dp)
    (writes : t.writes = s.writes)
    (same : emit (file.drop n) s.findNewline s.column = emit (file.drop (n + 1)) t.findNewline t.column) :
    Reading file (n + 1) t where
  length := by rw [varbuf, reading.length]
  behind := by rw [dp]; exact Nat.le_succ_of_le reading.behind
  left := by rw [varbuf, reading.left_succ]
  all := by rw [varbuf, dp, ← same, reading.all]
  inPlace := by rw [writes]; exact reading.inPlace

theorem put {c : Byte} (inside : n < file.length)
    (varbuf : t.varbuf = (s.put n c).varbuf) (dp : t.dp = s.dp + 1) (writes : t.writes = (s.put n c).writes)
    (next : emit (file.drop n) s.findNewline s.column = c :: emit (file.drop (n + 1)) t.findNewline t.column) :
    Reading file (n + 1) t where
  length := by rw [varbuf]; exact List.length_set.trans reading.length
  behind := by rw [dp]; exact Nat.succ_le_succ reading.behind
  left := by
    rw [varbuf]
    show (s.varbuf.set s.dp c).drop (n + 1) = _
    rw [List.drop_set_of_lt (Nat.lt_succ_of_le reading.behind), reading.left_succ]
  all := by
    have room : s.dp < s.varbuf.length := by
      rw [reading.length]
      exact lt_of_le_of_lt reading.behind inside
    rw [varbuf, dp, ← reading.all, next]
    show (s.varbuf.set s.dp c).take (s.dp + 1) ++ _ = _
    rw [take_set_succ room, append_assoc]
    rfl
  inPlace := by
    rw [writes]
    intro write member
    rcases mem_cons.mp member with rfl | before
    · exact ⟨reading.behind, lt_of_le_of_lt reading.behind inside⟩
    · exact reading.inPlace write before

theorem step (inside : n < file.length) : Reading file (n + 1) (s.contentStep n) := by
  obtain ⟨c, here⟩ : ∃ c, file.drop n = c :: file.drop (n + 1) := ⟨file[n], List.drop_eq_getElem_cons inside⟩
  have read : s.varbuf.getD n 0 = c := by
    have same := congrArg (fun list => list.getD 0 0) (reading.left.trans here)
    simpa [List.getD_eq_getElem?_getD] using same
  unfold ContentState.contentStep
  rw [read]
  dsimp only
  by_cases ret : c = cr
  · rw [if_pos ret]
    refine reading.skip rfl rfl rfl ?_
    rw [here, emit, if_pos ret]
  rw [if_neg ret]
  by_cases comment : s.findNewline = true ∧ c ≠ lf
  · rw [if_pos comment]
    refine reading.skip rfl rfl rfl ?_
    rw [here, emit, if_neg ret, if_pos comment]
  rw [if_neg comment]
  by_cases mark : c = hash
  · rw [if_pos mark]
    refine reading.skip rfl rfl rfl ?_
    rw [here, emit, if_neg ret, if_neg comment, if_pos mark]
  rw [if_neg mark]
  by_cases newline : c = lf
  · rw [if_pos newline]
    by_cases start : s.column = 0
    · rw [if_pos start]
      refine reading.skip rfl rfl rfl ?_
      rw [here, emit, if_neg ret, if_neg comment, if_neg mark, if_pos newline, if_pos start, start]
    · rw [if_neg start]
      refine reading.put inside rfl rfl rfl ?_
      rw [here, emit, if_neg ret, if_neg comment, if_neg mark, if_pos newline, if_neg start]
  · rw [if_neg newline]
    refine reading.put inside rfl rfl rfl ?_
    rw [here, emit, if_neg ret, if_neg comment, if_neg mark, if_neg newline]

end

theorem loop (within : n ≤ file.length) :
    Reading file n ((List.range n).foldl ContentState.contentStep { varbuf := file }) := by
  induction n with
  | zero =>
    refine ⟨rfl, le_rfl, rfl, rfl, fun _ member => absurd member List.not_mem_nil⟩
  | succ n ih =>
    rw [List.range_succ, List.foldl_append]
    exact (ih (Nat.le_of_succ_le within)).step within

end Reading

/-! ### The zeros -/

section Clear

variable {len count : ℕ} {s : ContentState}

theorem clear_varbuf (room : s.dp + count = s.varbuf.length) :
    (ContentState.clear len count s).varbuf = s.varbuf.take s.dp ++ replicate count 0 := by
  induction count generalizing s with
  | zero =>
    show s.varbuf = _
    rw [List.replicate_zero, append_nil, List.take_of_length_le (by omega)]
  | succ count ih =>
    have next : (s.put len 0).dp + count = (s.put len 0).varbuf.length := by
      show s.dp + 1 + count = (s.varbuf.set s.dp 0).length
      rw [List.length_set]
      omega
    show (ContentState.clear len count (s.put len 0)).varbuf = _
    rw [ih next]
    show (s.varbuf.set s.dp 0).take (s.dp + 1) ++ _ = _
    rw [take_set_succ (by omega), append_assoc]
    rfl

theorem clear_writes {file : List Byte} (room : s.dp + count = file.length)
    (before : ∀ write ∈ s.writes, write.1 ≤ write.2 ∧ write.1 < file.length) :
    ∀ write ∈ (ContentState.clear file.length count s).writes, write.1 ≤ write.2 ∧ write.1 < file.length := by
  induction count generalizing s with
  | zero => exact before
  | succ count ih =>
    refine ih (s := s.put file.length 0) ?_ ?_
    · show s.dp + 1 + count = file.length
      omega
    · intro write member
      rcases mem_cons.mp member with rfl | earlier
      · exact ⟨by dsimp only; omega, by dsimp only; omega⟩
      · exact before write earlier

end Clear

/-! ### The call -/

section Call

variable {file : List Byte}

theorem emit_text : emit file false 0 = text file := by
  obtain ⟨line, rest, lines⟩ := List.exists_cons_of_ne_nil (List.splitOn_ne_nil lf file)
  rw [emit_eq file false 0 line rest lines, if_neg Bool.false_ne_true]
  unfold text cleanLines
  rw [lines]
  rfl

def ending (file : List Byte) : ℕ := if lastLine file = [] then 0 else 1

theorem text_content : content file = text file ++ replicate (ending file) 0 := by
  have whole := written_content (cleanLines file)
  unfold ending
  refine whole.symm.trans (congrArg (text file ++ ·) ?_)
  show (if lastLine file = [] then _ else _) = _
  split <;> rfl

theorem processCaliContent_spec : (text file).length ≤ file.length ∧
    (processCaliContent file).varbuf = text file ++ replicate (file.length - (text file).length) 0 ∧
    (processCaliContent file).bufLen = paddedLen (text file).length file.length ∧
    ∀ write ∈ (processCaliContent file).writes, write.1 ≤ write.2 ∧ write.1 < file.length := by
  have reading : Reading file file.length _ := Reading.loop le_rfl
  unfold processCaliContent
  generalize (List.range file.length).foldl ContentState.contentStep { varbuf := file } = s at reading ⊢
  have all := reading.all
  rw [List.drop_length, emit_text] at all
  change s.varbuf.take s.dp ++ [] = _ at all
  rw [append_nil] at all
  have length : (text file).length = s.dp := by
    rw [← all, List.length_take, reading.length]
    exact min_eq_left reading.behind
  have room : s.dp + (file.length - s.dp) = file.length := Nat.add_sub_of_le reading.behind
  refine ⟨length.trans_le reading.behind, ?_, ?_, clear_writes room reading.inPlace⟩
  · show (ContentState.clear file.length (file.length - s.dp) s).varbuf = _
    rw [clear_varbuf (room.trans reading.length.symm), all, length]
  · show paddedLen s.dp file.length = _
    rw [length]

theorem take_iff {text : List Byte} {zeros ending n : ℕ} (within : n ≤ text.length + zeros) :
    (∃ pad < 4, (text ++ replicate zeros 0).take n = text ++ replicate ending 0 ++ replicate pad 0) ↔
      text.length + ending ≤ n ∧ n < text.length + ending + 4 := by
  constructor
  · rintro ⟨pad, few, same⟩
    have lengths := congrArg List.length same
    simp only [List.length_take, List.length_append, List.length_replicate] at lengths
    omega
  · rintro ⟨low, high⟩
    refine ⟨n - text.length - ending, by omega, ?_⟩
    rw [List.take_append, List.take_of_length_le (by omega), List.take_replicate, append_assoc,
      List.replicate_append_replicate]
    congr 2
    omega

theorem paddedLen_le {n len : ℕ} (within : n ≤ len) : paddedLen n len ≤ len := by
  unfold paddedLen
  split
  · exact within
  · split <;> omega

theorem paddedLen_iff {n len ending : ℕ} (within : n ≤ len) (fits : len < 2 ^ 32) (one : ending ≤ 1) :
    n + ending ≤ paddedLen n len ∧ paddedLen n len < n + ending + 4 ↔
      padded n < 2 ^ 32 ∧ (ending = 0 ∨ n % 4 ≠ 0 ∧ padded n ≤ len) := by
  unfold paddedLen padded
  split
  · omega
  · split <;> omega

end Call

/-- **A file before it is parsed.** What is left of it is its lines that keep something, each with a NUL, if and only if
the last line is empty or gets its NUL from the padding. -/
theorem content_right (file : List Byte) (fits : file.length < 2 ^ 32) :
    ContentRight file (processCaliContent file) ↔ Closed file := by
  obtain ⟨short, varbuf, bufLen, inPlace⟩ := @processCaliContent_spec file
  have one : ending file ≤ 1 := by
    unfold ending
    split <;> omega
  have none : ending file = 0 ↔ lastLine file = [] := by
    unfold ending
    split
    case isTrue empty => exact iff_of_true rfl empty
    case isFalse some => exact iff_of_false Nat.one_ne_zero some
  have within : paddedLen (text file).length file.length ≤ (text file).length + (file.length - (text file).length) := by
    rw [Nat.add_sub_of_le short]
    exact paddedLen_le short
  unfold Closed
  rw [← none, ← paddedLen_iff short fits one, ← take_iff within, ← text_content, ← bufLen, ← varbuf]
  constructor
  · intro right
    exact right.content
  · intro content
    refine ⟨content, ?_, inPlace⟩
    rw [bufLen, varbuf, List.length_append, List.length_replicate, Nat.add_sub_of_le short]
    exact ⟨paddedLen_le short, rfl⟩

/-- `a=1 # x`, an empty line, and `b=2`: the last newline is there. -/
theorem content_right_two_lines :
    ContentRight [0x61, 0x3d, 0x31, 0x20, 0x23, 0x78, 0x0d, 0x0a, 0x0a, 0x62, 0x3d, 0x32, 0x0a]
        (processCaliContent [0x61, 0x3d, 0x31, 0x20, 0x23, 0x78, 0x0d, 0x0a, 0x0a, 0x62, 0x3d, 0x32, 0x0a]) ↔
      Closed [0x61, 0x3d, 0x31, 0x20, 0x23, 0x78, 0x0d, 0x0a, 0x0a, 0x62, 0x3d, 0x32, 0x0a] :=
  content_right _ (by decide)

/-- `a=12` without a newline fills the buffer, and has no NUL. -/
theorem last_line_open : ¬ContentRight [0x61, 0x3d, 0x31, 0x32] (processCaliContent [0x61, 0x3d, 0x31, 0x32]) := by
  rintro ⟨⟨pad, -, same⟩, -, -⟩
  have lengths := congrArg List.length same
  rw [List.length_append] at lengths
  have left : ((processCaliContent [0x61, 0x3d, 0x31, 0x32]).varbuf.take
      (processCaliContent [0x61, 0x3d, 0x31, 0x32]).bufLen).length = 4 := by decide +kernel
  have should : (content [0x61, 0x3d, 0x31, 0x32]).length = 5 := by decide +kernel
  omega

end W2l.Cali
