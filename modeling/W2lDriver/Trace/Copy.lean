/-
**Firmware traces: from the shared buffer to the local ring, and on to the user.**

`aml_fw_trace.c`. A reader copies the entries the firmware wrote since its last copy to a ring of its
own, and from there to the user as text. An entry is a run of 16-bit words; it is split in neither
buffer.

* `TraceBuf`, `LocalBuf` — `struct aml_fw_trace_buf` and `struct aml_fw_trace_local_buf`.
* `LocalBuf.amlFwTraceCopy`, `LocalBuf.amlFwTraceReadLocal` — the two functions.
* `Represents` — the ring and the entries in it.
-/

import Mathlib.Data.Nat.Digits.Defs
import W2lDriver.Lib.RecordRing

namespace W2l.Trace

open Lib

abbrev Word := BitVec 16

/-! ### Entries -/

def fwTraceHeaderLen : Nat := 4
def fwTraceHeaderAsciiLen : Nat := 3 + 12 + 4 + 8
def fwTraceParamAsciiLen : Nat := 7
def fwTraceLastEntry : Word := 0xffff

/-- `AML_FW_TRACE_NB_PARAM`. -/
def nbParam (w : Word) : Nat := (w >>> 8 &&& 0xff).toNat

/-- `AML_FW_TRACE_ENTRY_SIZE`. -/
def entrySize (w : Word) : Nat := nbParam w + fwTraceHeaderLen

def entryAt (data : Nat → Word) (ptr : Nat) : List Word :=
  (List.range (entrySize (data ptr))).map fun k => data (ptr + k)

/-- `%12u`, `%8d` and `%5d`. -/
def padded (width n : Nat) : List Char := List.leftpad width ' ' (Nat.toDigits 10 n)

def fwTraceId (trace : List Word) : Nat := (trace.getD 0 0 &&& 0xff).toNat <<< 16 + (trace.getD 1 0).toNat

/-- `aml_fw_trace_to_str`; the text fits the buffer of 1824 characters. -/
def toStr (trace : List Word) : List Char :=
  let ts := (trace.getD 2 0).toNat <<< 16 + (trace.getD 3 0).toNat
  "ts=".toList ++ padded 12 ts ++ " ID=".toList ++ padded 8 (fwTraceId trace) ++
    (List.range (nbParam (trace.getD 0 0))).flatMap
      (fun k => ", ".toList ++ padded 5 (trace.getD (fwTraceHeaderLen + k) 0).toNat) ++
    "\n".toList

def fwTraceStrlen (w : Word) : Nat := fwTraceHeaderAsciiLen + nbParam w * fwTraceParamAsciiLen + 1

def fwTraceReset : List Char := "*** RESET ***\n".toList

/-! ### Buffers -/

/-- `struct aml_fw_trace_buf`. -/
structure TraceBuf where
  size : Nat
  data : Nat → Word
  start : Nat
  end_ : Nat
  resetIdx : Nat

/-- `aml_fw_trace_empty`. -/
def TraceBuf.empty (t : TraceBuf) : Bool := t.size ≤ t.end_

/-- `_aml_fw_trace_reset`. -/
def TraceBuf.reset (t : TraceBuf) : TraceBuf :=
  { t with start := 0, end_ := t.size + 1, resetIdx := t.resetIdx + 1 }

/-- `struct aml_fw_trace_local_buf`; a pointer is the offset from `data`, and `lastRead` the one in the
shared buffer. -/
structure LocalBuf where
  size : Nat
  data : Nat → Word := fun _ => 0
  read : Nat := 0
  write : Nat := 0
  nbEntries : BitVec 16 := 0
  freeSpace : BitVec 32
  lastRead : Option Nat := none
  lastReadValue : Word := 0
  resetIdx : Nat := 0
  showReset : Option Nat := none

def fwTraceAllocLocal (size : Nat) : LocalBuf where
  size := size
  freeSpace := BitVec.ofNat 32 size

/-- A result of the copy loop. -/
structure Copied where
  buf : LocalBuf
  trace : TraceBuf
  /-- The entries copied. -/
  entries : List (List Word) := []

namespace LocalBuf

/-! ### The copy -/

def amlFwTraceCopyEntry (l : LocalBuf) (t : TraceBuf) (traceEntry : Nat) : LocalBuf :=
  let entry := entryAt t.data traceEntry
  { l with
    data := put l.data l.write entry
    write := if l.write + entry.length < l.size then l.write + entry.length else 0
    freeSpace := l.freeSpace - BitVec.ofNat 32 entry.length
    lastRead := some traceEntry
    lastReadValue := t.data traceEntry
    nbEntries := l.nbEntries + 1 }

/-- The marker at the end of the ring. -/
def wrap (l : LocalBuf) : LocalBuf :=
  { l with
    data := Function.update l.data l.write fwTraceLastEntry
    showReset := if l.showReset = some l.write then some 0 else l.showReset
    write := 0
    freeSpace := l.freeSpace - BitVec.ofNat 32 (l.size - l.write) }

/-- The branches of the loop for an entry there is free space for; none is `goto end`. -/
def place (l : LocalBuf) (t : TraceBuf) (ptr : Nat) : Option LocalBuf :=
  let entrySize := entrySize (t.data ptr)
  let contiguous := l.size - l.write
  if l.write < l.read ∨ entrySize ≤ contiguous then some (l.amlFwTraceCopyEntry t ptr)
  else if entrySize ≤ (l.freeSpace - BitVec.ofNat 32 contiguous).toNat then
    some (l.wrap.amlFwTraceCopyEntry t ptr)
  else none

def normalize (t : TraceBuf) (ptr : Nat) : Nat :=
  if ptr = t.size ∨ t.data ptr = fwTraceLastEntry then 0 else ptr

/-- The loop of `aml_fw_trace_copy`, for so many rounds. An entry that is larger than the ring is
skipped, past the test for the last one. -/
def copyLoop (t : TraceBuf) : Nat → Nat → LocalBuf → Option Copied
  | 0, _, _ => none
  | rounds + 1, ptr, l =>
    let ptr := normalize t ptr
    let entrySize := entrySize (t.data ptr)
    if t.size < ptr + entrySize then some { buf := l, trace := t.reset }
    else if l.size < entrySize then copyLoop t rounds (ptr + entrySize) l
    else if entrySize ≤ l.freeSpace.toNat then
      match l.place t ptr with
      | none => some { buf := l, trace := t }
      | some l =>
        if ptr = t.end_ then some { buf := l, trace := t, entries := [entryAt t.data ptr] }
        else (copyLoop t rounds (ptr + entrySize) l).map fun c =>
          { c with entries := entryAt t.data ptr :: c.entries }
    else some { buf := l, trace := t }

def noteReset (l : LocalBuf) (t : TraceBuf) : LocalBuf :=
  if l.resetIdx ≠ t.resetIdx then
    { l with showReset := some l.write, resetIdx := t.resetIdx, lastRead := none }
  else l

/-- Where the copy starts: behind the entry read last, if that is still there by its first word. -/
def copyFrom (l : LocalBuf) (t : TraceBuf) : Nat :=
  match l.lastRead with
  | some p => if l.lastReadValue = t.data p then p + entrySize (t.data p) else t.start
  | none => t.start

def amlFwTraceCopy (l : LocalBuf) (t : TraceBuf) (rounds : Nat) : Option Copied :=
  let l := l.noteReset t
  if t.empty || l.lastRead = some t.end_ then some { buf := l, trace := t }
  else copyLoop t rounds (l.copyFrom t) l

end LocalBuf

/-! ### The read -/

/-- What is copied to the user. -/
inductive Piece
  | reset
  | entry (trace : List Word)
  deriving DecidableEq

def Piece.text : Piece → List Char
  | .reset => fwTraceReset
  | .entry trace => toStr trace

def textOf (pieces : List Piece) : List Char := pieces.flatMap Piece.text

def entriesOf (pieces : List Piece) : List (List Word) :=
  pieces.filterMap fun | .entry trace => some trace | .reset => none

namespace LocalBuf

/-- The end of a round of the read: the next entry, behind this one or at the start of the ring. -/
def advance (l : LocalBuf) : LocalBuf :=
  let entrySize := entrySize (l.data l.read)
  let ptr := l.read + entrySize
  let l := { l with
    nbEntries := l.nbEntries - 1
    freeSpace := l.freeSpace + BitVec.ofNat 32 entrySize }
  if l.size ≤ ptr then { l with read := 0 }
  else if l.data ptr = fwTraceLastEntry then
    { l with read := 0, freeSpace := l.freeSpace + BitVec.ofNat 32 (l.size - ptr) }
  else { l with read := ptr }

/-- The loop of `aml_fw_trace_read_local` with `n` entries and room for `remain` characters. -/
def readLoop : Nat → LocalBuf → Nat → LocalBuf × List Piece
  | 0, l, _ => (l, [])
  | n + 1, l, remain =>
    if l.showReset = some l.read then
      if remain < fwTraceReset.length then (l, [])
      else
        let l := { l with showReset := none }
        let remain := remain - fwTraceReset.length
        if remain < fwTraceStrlen (l.data l.read) then (l, [.reset])
        else
          let entry := entryAt l.data l.read
          let rest := readLoop n l.advance (remain - (toStr entry).length)
          (rest.1, .reset :: .entry entry :: rest.2)
    else if remain < fwTraceStrlen (l.data l.read) then (l, [])
    else
      let entry := entryAt l.data l.read
      let rest := readLoop n l.advance (remain - (toStr entry).length)
      (rest.1, .entry entry :: rest.2)

/-- The end of `aml_fw_trace_read_local`. -/
def resetEmpty (l : LocalBuf) : LocalBuf :=
  if l.nbEntries = 0 then { l with write := 0, read := 0, freeSpace := BitVec.ofNat 32 l.size } else l

/-- `aml_fw_trace_read_local` with a user buffer of `size` bytes. -/
def amlFwTraceReadLocal (l : LocalBuf) (size : Nat) : LocalBuf × List Piece :=
  if l.nbEntries = 0 then (l, [])
  else
    let done := l.readLoop l.nbEntries.toNat size
    (done.1.resetEmpty, done.2)

/-! ### The entries in the ring -/

/-- Where the next entry is, and the words skipped in front of it. -/
def nextRead (l : LocalBuf) (ptr : Nat) : Nat :=
  let next := ptr + entrySize (l.data ptr)
  if l.size ≤ next ∨ l.data next = fwTraceLastEntry then 0 else next

def gapAfter (l : LocalBuf) (ptr : Nat) : Nat :=
  let next := ptr + entrySize (l.data ptr)
  if l.size ≤ next then 0 else if l.data next = fwTraceLastEntry then l.size - next else 0

/-- So many entries from a position on, as the reader meets them. -/
def entriesFrom (l : LocalBuf) : Nat → Nat → List (List Word)
  | 0, _ => []
  | n + 1, ptr => entryAt l.data ptr :: entriesFrom l n (l.nextRead ptr)

def skippedFrom (l : LocalBuf) : Nat → Nat → Nat
  | 0, _ | 1, _ => 0
  | n + 2, ptr => l.gapAfter ptr + skippedFrom l (n + 1) (l.nextRead ptr)

/-- **The entries that have not been read**, and the words skipped between them. -/
def unread (l : LocalBuf) : List (List Word) := l.entriesFrom l.nbEntries.toNat l.read

def skipped (l : LocalBuf) : Nat := l.skippedFrom l.nbEntries.toNat l.read

end LocalBuf

/-! ### Lengths -/

theorem length_entryAt (data : Nat → Word) (ptr : Nat) : (entryAt data ptr).length = entrySize (data ptr) := by
  rw [entryAt, List.length_map, List.length_range]

theorem getD_entryAt (data : Nat → Word) (ptr : Nat) : (entryAt data ptr).getD 0 0 = data ptr := by
  have positive : 0 < entrySize (data ptr) := by
    unfold entrySize fwTraceHeaderLen
    omega
  rw [entryAt, List.getD_eq_getElem?_getD, List.getElem?_map, List.getElem?_range positive]
  rfl

theorem four_le_entrySize (w : Word) : 4 ≤ entrySize w := Nat.le_add_left 4 _

/-- `%12u`, `%8d` and `%5d` of what they are given are as wide as they say. -/
theorem length_padded {width n : Nat} (positive : 0 < width) (short : n < 10 ^ width) :
    (padded width n).length = width := by
  have digits : (Nat.toDigits 10 n).length ≤ width :=
    (Nat.length_toDigits_le_iff (by decide) positive).mpr short
  rw [padded, List.length_leftpad]
  exact Nat.max_eq_left digits

theorem half_lt (w : Word) : w.toNat < 65536 := w.isLt

theorem toStr_length (trace : List Word) : (toStr trace).length = fwTraceStrlen (trace.getD 0 0) := by
  have params : ∀ n, ((List.range n).flatMap fun k => ", ".toList ++
      padded 5 (trace.getD (fwTraceHeaderLen + k) 0).toNat).length = n * fwTraceParamAsciiLen := by
    intro n
    rw [List.length_flatMap, List.map_congr_left (g := fun _ => fwTraceParamAsciiLen)]
    · rw [List.map_const', List.length_range, List.sum_replicate_nat]
    · intro k _
      rw [List.length_append, length_padded (by decide)]
      · rfl
      · have := half_lt (trace.getD (fwTraceHeaderLen + k) 0)
        omega
  have ts : (padded 12 ((trace.getD 2 0).toNat <<< 16 + (trace.getD 3 0).toNat)).length = 12 := by
    refine length_padded (by decide) ?_
    have high := half_lt (trace.getD 2 0)
    have low := half_lt (trace.getD 3 0)
    rw [Nat.shiftLeft_eq]
    omega
  have id : (padded 8 (fwTraceId trace)).length = 8 := by
    refine length_padded (by decide) ?_
    have low := half_lt (trace.getD 1 0)
    have high : (trace.getD 0 0 &&& 0xff).toNat ≤ 0xff := by
      rw [BitVec.toNat_and]
      exact Nat.and_le_right
    rw [fwTraceId, Nat.shiftLeft_eq]
    omega
  unfold toStr fwTraceStrlen
  simp only [List.length_append, params, ts, id]
  rfl

/-! ### The ring and the entries in it -/

def Sized (e : List Word) : Prop :=
  ∃ w ws, e = w :: ws ∧ w ≠ fwTraceLastEntry ∧ e.length = entrySize w

theorem sized_entryAt {data : Nat → Word} {ptr : Nat} (good : data ptr ≠ fwTraceLastEntry) :
    Sized (entryAt data ptr) := by
  refine ⟨data ptr, (entryAt data ptr).tail, ?_, good, length_entryAt data ptr⟩
  have size := four_le_entrySize (data ptr)
  unfold entryAt
  generalize entrySize (data ptr) = n at size ⊢
  obtain _ | n := n
  · omega
  · rw [List.range_succ_eq_map]
    rfl

theorem Sized.length {e : List Word} (sized : Sized e) : 4 ≤ e.length := by
  obtain ⟨w, ws, -, -, length⟩ := sized
  rw [length]
  exact four_le_entrySize w

theorem length_flatten_le {es : List (List Word)} (sized : ∀ e ∈ es, Sized e) :
    4 * es.length ≤ es.flatten.length := by
  induction es with
  | nil => exact Nat.zero_le _
  | cons e es ih =>
    have first := (sized e List.mem_cons_self).length
    have rest := ih fun e' member => sized e' (List.mem_cons_of_mem e member)
    rw [List.length_cons, List.flatten_cons, List.length_append]
    omega

theorem entryAt_of_stored {data : Nat → Word} {ptr : Nat} {e : List Word} (stored : Stored data ptr e)
    (sized : Sized e) : entryAt data ptr = e := by
  obtain ⟨w, ws, rfl, -, length⟩ := sized
  have first : data ptr = w := by
    have word := stored 0 (by simp)
    rwa [Nat.add_zero] at word
  refine List.ext_getElem ?_ fun k _ inside => ?_
  · rw [length_entryAt, first, length]
  · refine Eq.trans ?_ (stored k inside)
    simp only [entryAt, List.getElem_map, List.getElem_range]

theorem toNat_sub_ofNat {f : BitVec 32} {n : Nat} (le : n ≤ f.toNat) :
    (f - BitVec.ofNat 32 n).toNat = f.toNat - n := by
  have := f.isLt
  rw [BitVec.toNat_sub, BitVec.toNat_ofNat]
  omega

theorem toNat_add_ofNat {f : BitVec 32} {n : Nat} (fits : f.toNat + n < 2 ^ 32) :
    (f + BitVec.ofNat 32 n).toNat = f.toNat + n := by
  rw [BitVec.toNat_add, BitVec.toNat_ofNat]
  omega

namespace LocalBuf

/-- **The ring holds these entries**, with so many words skipped at its end. -/
structure Represents (l : LocalBuf) (skip : Nat) (es : List (List Word)) : Prop where
  layout : Layout l.size fwTraceLastEntry l.data l.read l.write l.freeSpace.toNat skip es
  count : l.nbEntries.toNat = es.length
  sized : ∀ e ∈ es, Sized e

variable {l l' : LocalBuf} {skip : Nat} {e : List Word} {es : List (List Word)}

theorem Represents.length_le (rep : l.Represents skip es) : 4 * es.length ≤ l.size := by
  have words := rep.layout.accounted
  have long := length_flatten_le rep.sized
  omega

theorem Represents.entryAt (rep : l.Represents skip (e :: es)) : entryAt l.data l.read = e :=
  entryAt_of_stored rep.layout.front (rep.sized e List.mem_cons_self)

theorem Represents.entrySize (rep : l.Represents skip (e :: es)) : entrySize (l.data l.read) = e.length := by
  rw [← length_entryAt, rep.entryAt]

theorem represents_copyEntry {t : TraceBuf} {ptr free : Nat} {data : Nat → Word}
    (rep : ∀ e ∈ es, Sized e) (count : l.nbEntries.toNat = es.length) (small : l.size < 262144)
    (good : t.data ptr ≠ fwTraceLastEntry)
    (free_eq : free = l.freeSpace.toNat - (Trace.entryAt t.data ptr).length)
    (room : (Trace.entryAt t.data ptr).length ≤ l.freeSpace.toNat)
    (data_eq : data = l.data)
    (layout : Layout l.size fwTraceLastEntry (put data l.write (Trace.entryAt t.data ptr)) l.read
      (if l.write + (Trace.entryAt t.data ptr).length < l.size then
        l.write + (Trace.entryAt t.data ptr).length else 0)
      free skip (es ++ [Trace.entryAt t.data ptr])) :
    (l.amlFwTraceCopyEntry t ptr).Represents skip (es ++ [Trace.entryAt t.data ptr]) := by
  subst data_eq free_eq
  have sized : ∀ e ∈ es ++ [Trace.entryAt t.data ptr], Sized e := fun e member => by
    rcases List.mem_append.mp member with old | new
    · exact rep e old
    · rw [List.mem_singleton.mp new]
      exact sized_entryAt good
  refine ⟨?_, ?_, sized⟩
  · show Layout _ _ _ _ _ (l.freeSpace - BitVec.ofNat 32 _).toNat _ _
    rw [toNat_sub_ofNat room]
    exact layout
  · have long := length_flatten_le sized
    have words := layout.accounted
    rw [List.length_append, List.length_singleton] at long ⊢
    show (l.nbEntries + 1).toNat = _
    rw [BitVec.toNat_add, count]
    show (es.length + 1) % 65536 = _
    omega

theorem represents_place {t : TraceBuf} {ptr : Nat} (rep : l.Represents skip es)
    (small : l.size < 262144) (good : t.data ptr ≠ fwTraceLastEntry)
    (room : Trace.entrySize (t.data ptr) ≤ l.freeSpace.toNat) (placed : l.place t ptr = some l') :
    ∃ skip', l'.Represents skip' (es ++ [Trace.entryAt t.data ptr]) := by
  have length := length_entryAt t.data ptr
  have some : Trace.entryAt t.data ptr ≠ [] := fun none => by
    have := four_le_entrySize (t.data ptr)
    rw [none, List.length_nil] at length
    omega
  have below := rep.layout.write_lt
  unfold place at placed
  by_cases next : l.write < l.read ∨ Trace.entrySize (t.data ptr) ≤ l.size - l.write
  · rw [if_pos next] at placed
    obtain rfl := Option.some.inj placed
    refine ⟨skip, represents_copyEntry rep.sized rep.count small good rfl (length ▸ room) rfl ?_⟩
    exact rep.layout.putNext some (length ▸ room) (next.imp_right fun within => by omega)
  · rw [if_neg next] at placed
    obtain ⟨ahead, short⟩ := not_or.mp next
    have contiguous := rep.layout.contiguous_le ahead
      (Nat.lt_of_lt_of_le (four_le_entrySize _) room |>.trans_le' (by omega))
    have left := toNat_sub_ofNat contiguous
    by_cases fits : Trace.entrySize (t.data ptr) ≤ (l.freeSpace - BitVec.ofNat 32 (l.size - l.write)).toNat
    · rw [if_pos fits] at placed
      obtain rfl := Option.some.inj placed
      refine ⟨l.size - l.write, represents_copyEntry (l := l.wrap) rep.sized rep.count small
        good rfl (length ▸ fits) rfl ?_⟩
      show Layout l.size _ _ _ _ ((l.freeSpace - BitVec.ofNat 32 (l.size - l.write)).toNat - _) _ _
      have wrapped := rep.layout.putWrapped some ahead (by omega)
      simp only [wrap, Nat.zero_add, left]
      exact wrapped
    · rw [if_neg fits] at placed
      cases placed

theorem Represents.count_pop (rep : l.Represents skip (e :: es)) : (l.nbEntries - 1).toNat = es.length := by
  have count := rep.count
  have few := rep.length_le
  rw [List.length_cons] at count few
  rw [BitVec.toNat_sub, count]
  show (65536 - 1 + (es.length + 1)) % 65536 = _
  omega

theorem Represents.pop (rep : l.Represents skip (e :: es)) (small : l.size < 262144) (more : es ≠ []) :
    ∃ skip', l.advance.Represents skip' es ∧ l.advance.read = l.nextRead l.read ∧
      skip = l.gapAfter l.read + skip' := by
  have words := rep.layout.accounted
  have size := rep.entrySize
  rw [List.flatten_cons, List.length_append] at words
  have taken : (l.freeSpace + BitVec.ofNat 32 (Trace.entrySize (l.data l.read))).toNat =
      l.freeSpace.toNat + e.length := by
    rw [size]
    exact toNat_add_ofNat (by omega)
  have sized : ∀ e ∈ es, Sized e := fun e' member => rep.sized e' (List.mem_cons_of_mem e member)
  have clear : ∀ e' ∈ es, ∃ w ws, e' = w :: ws ∧ w ≠ fwTraceLastEntry := fun e' member => by
    obtain ⟨w, ws, same, good, -⟩ := sized e' member
    exact ⟨w, ws, same, good⟩
  have count := rep.count_pop
  unfold advance nextRead gapAfter
  simp only [size] at taken ⊢
  rcases rep.layout.pop more clear with ⟨inside, good, layout⟩ | ⟨inside, mark, tail, layout⟩ |
    ⟨edge, none, layout⟩
  · rw [if_neg (by omega), if_neg good, if_neg (by simp only [not_or]; exact ⟨by omega, good⟩),
      if_neg (by omega), if_neg good]
    refine ⟨skip, ⟨?_, count, sized⟩, rfl, (Nat.zero_add skip).symm⟩
    rw [taken]
    exact layout
  · rw [if_neg (by omega), if_pos mark, if_pos (Or.inr mark), if_neg (by omega), if_pos mark]
    refine ⟨0, ⟨?_, count, sized⟩, rfl, tail⟩
    show Layout _ _ _ _ _ (_ + BitVec.ofNat 32 (l.size - (l.read + e.length))).toNat _ _
    rw [toNat_add_ofNat (by omega), taken, ← tail]
    exact layout
  · rw [if_pos (by omega), if_pos (Or.inl (by omega)), if_pos (by omega)]
    refine ⟨0, ⟨?_, count, sized⟩, rfl, none⟩
    rw [taken]
    exact layout

theorem advance_keeps (l : LocalBuf) : l.advance.size = l.size ∧ l.advance.data = l.data ∧
    l.advance.nbEntries = l.nbEntries - 1 ∧ l.advance.lastRead = l.lastRead := by
  simp only [advance]
  split
  · exact ⟨rfl, rfl, rfl, rfl⟩
  · split
    · exact ⟨rfl, rfl, rfl, rfl⟩
    · exact ⟨rfl, rfl, rfl, rfl⟩

theorem entriesFrom_congr (size : l.size = l'.size) (data : l.data = l'.data) (n ptr : Nat) :
    l.entriesFrom n ptr = l'.entriesFrom n ptr := by
  induction n generalizing ptr with
  | zero => rfl
  | succ n ih =>
    rw [entriesFrom, entriesFrom, ih, data, nextRead, nextRead, size, data]

theorem skippedFrom_congr (size : l.size = l'.size) (data : l.data = l'.data) (n ptr : Nat) :
    l.skippedFrom n ptr = l'.skippedFrom n ptr := by
  induction n generalizing ptr with
  | zero => rfl
  | succ n ih =>
    obtain _ | n := n
    · rfl
    · rw [skippedFrom, skippedFrom, ih, gapAfter, gapAfter, nextRead, nextRead, size, data]

theorem Represents.decode (rep : l.Represents skip es) (small : l.size < 262144) :
    l.unread = es ∧ l.skipped = skip := by
  unfold unread skipped
  rw [rep.count]
  induction es generalizing l skip with
  | nil => exact ⟨rfl, (rep.layout.skipped_eq_zero (Nat.zero_le 1)).symm⟩
  | cons e es ih =>
    rw [List.length_cons, entriesFrom, rep.entryAt]
    by_cases more : es = []
    · subst more
      exact ⟨rfl, (rep.layout.skipped_eq_zero (Nat.le_refl 1)).symm⟩
    · obtain ⟨skip', popped, next, gap⟩ := rep.pop small more
      obtain ⟨entries, skipped⟩ := ih popped (l.advance_keeps.1 ▸ small)
      rw [next] at entries skipped
      rw [entriesFrom_congr l.advance_keeps.1 l.advance_keeps.2.1] at entries
      rw [skippedFrom_congr l.advance_keeps.1 l.advance_keeps.2.1] at skipped
      refine ⟨congrArg _ entries, ?_⟩
      obtain ⟨n, length⟩ := Nat.exists_eq_succ_of_ne_zero (mt List.length_eq_zero_iff.mp more)
      rw [length] at skipped ⊢
      rw [skippedFrom, skipped, gap]

end LocalBuf

end W2l.Trace
