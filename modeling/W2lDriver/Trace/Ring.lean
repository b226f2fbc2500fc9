/-
**Firmware traces: what the reader gets is what was copied.**

`aml_fw_trace_copy` and `aml_fw_trace_read_local` in any order, on what the firmware left in the
shared buffer each time.

* `Stream` — a shared buffer that is well formed: entries one behind another up to the last one.
* `copyLoop_spec` — **a copy takes a run of whole entries**, without those larger than the ring.
* `readLoop_spec` — a read delivers a run of the entries in the ring as text.
-/

import W2lDriver.Lib.System
import W2lDriver.Trace.Copy

namespace W2l.Trace

open Lib
open Option (some.inj)

/-! ### The shared buffer -/

def TraceBuf.Holds (t : TraceBuf) (ptr : Nat) : Prop :=
  t.data ptr ≠ fwTraceLastEntry ∧ ptr + entrySize (t.data ptr) ≤ t.size

instance (t : TraceBuf) (ptr : Nat) : Decidable (t.Holds ptr) := inferInstanceAs (Decidable (_ ∧ _))

/-- **The positions of the entries** from a position on, up to the last one. -/
inductive Stream (t : TraceBuf) : Nat → List Nat → Prop
  | last {ptr : Nat} (holds : t.Holds (LocalBuf.normalize t ptr))
      (last : LocalBuf.normalize t ptr = t.end_) : Stream t ptr [LocalBuf.normalize t ptr]
  | more {ptr : Nat} {ps : List Nat} (holds : t.Holds (LocalBuf.normalize t ptr))
      (before : LocalBuf.normalize t ptr ≠ t.end_)
      (rest : Stream t (LocalBuf.normalize t ptr + entrySize (t.data (LocalBuf.normalize t ptr))) ps) :
      Stream t ptr (LocalBuf.normalize t ptr :: ps)

variable {t : TraceBuf} {l l' : LocalBuf} {skip ptr rounds : Nat} {ps : List Nat}
  {us : List (List Word)}

theorem Stream.behind (stream : Stream t ptr ps) {p : Nat} (member : p ∈ ps) (before : p ≠ t.end_) :
    ∃ front back, ps = front ++ p :: back ∧ Stream t (p + entrySize (t.data p)) back := by
  induction stream with
  | last holds last => exact absurd ((List.mem_singleton.mp member).trans last) before
  | @more ptr ps holds _ rest ih =>
    rcases List.mem_cons.mp member with rfl | later
    · exact ⟨[], ps, rfl, rest⟩
    · obtain ⟨front, back, rfl, found⟩ := ih later
      exact ⟨_ :: front, back, rfl, found⟩

/-! ### A copy -/

namespace LocalBuf

theorem place_keeps (placed : l.place t ptr = some l') : l'.size = l.size := by
  simp only [place] at placed
  split at placed
  · cases placed
    rfl
  · split at placed
    · cases placed
      rfl
    · cases placed

/-- An entry for a ring of `size` words. -/
abbrev fits (size : Nat) (e : List Word) : Bool := e.length ≤ size

/-- **What a copy does**: of these entries it takes the first ones, less those larger than the ring. -/
structure Copies (t : TraceBuf) (size : Nat) (us entries : List (List Word)) (c : Copied) : Prop where
  trace : c.trace = t
  same : c.buf.size = size
  taken : ∃ taken, taken <+: entries ∧ c.entries = taken.filter (fits size)
  represents : ∃ skip, c.buf.Represents skip (us ++ c.entries)

variable {size : Nat} {e : List Word} {entries : List (List Word)} {c : Copied}

theorem Copies.stop (rep : l.Represents skip us) (entries : List (List Word)) :
    Copies t l.size us entries { buf := l, trace := t } where
  trace := rfl
  same := rfl
  taken := ⟨[], List.nil_prefix, rfl⟩
  represents := ⟨skip, by rwa [List.append_nil]⟩

theorem Copies.stored (copies : Copies t size (us ++ [e]) entries c) (fit : e.length ≤ size) :
    Copies t size us (e :: entries) { c with entries := e :: c.entries } := by
  obtain ⟨trace, same, ⟨taken, first, kept⟩, skip, represents⟩ := copies
  refine ⟨trace, same, ⟨e :: taken, List.cons_prefix_cons.mpr ⟨rfl, first⟩, ?_⟩, skip, ?_⟩
  · have pass : fits size e = true := decide_eq_true fit
    rw [List.filter_cons_of_pos pass, ← kept]
  · rwa [← List.append_cons] at represents

theorem Copies.dropped (copies : Copies t size us entries c) (oversize : size < e.length) :
    Copies t size us (e :: entries) c := by
  obtain ⟨trace, same, ⟨taken, first, kept⟩, represents⟩ := copies
  refine ⟨trace, same, ⟨e :: taken, List.cons_prefix_cons.mpr ⟨rfl, first⟩, ?_⟩, represents⟩
  have drop : fits size e ≠ true := by simpa using oversize
  rw [List.filter_cons_of_neg drop, kept]

def store (l : LocalBuf) (t : TraceBuf) (ptr : Nat) : Option LocalBuf :=
  if entrySize (t.data ptr) ≤ l.freeSpace.toNat then l.place t ptr else none

theorem store_spec (rep : l.Represents skip us) (small : l.size < 262144) (holds : t.Holds ptr)
    (stored : l.store t ptr = some l') :
    l'.size = l.size ∧ ∃ skip', l'.Represents skip' (us ++ [entryAt t.data ptr]) := by
  obtain ⟨room, placed⟩ := Option.ite_none_right_eq_some.mp stored
  exact ⟨place_keeps placed, represents_place rep small holds.1 room placed⟩

theorem copyLoop_succ (holds : t.Holds (normalize t ptr)) : copyLoop t (rounds + 1) ptr l =
      if l.size < entrySize (t.data (normalize t ptr)) then
        copyLoop t rounds (normalize t ptr + entrySize (t.data (normalize t ptr))) l
      else match l.store t (normalize t ptr) with
        | none => some { buf := l, trace := t }
        | some l =>
          if normalize t ptr = t.end_ then
            some { buf := l, trace := t, entries := [entryAt t.data (normalize t ptr)] }
          else (copyLoop t rounds (normalize t ptr + entrySize (t.data (normalize t ptr))) l).map fun c =>
            { c with entries := entryAt t.data (normalize t ptr) :: c.entries } := by
  rw [copyLoop]
  generalize normalize t ptr = p at holds ⊢
  simp only [if_neg (Nat.not_lt.mpr holds.2)]
  by_cases room : entrySize (t.data p) ≤ l.freeSpace.toNat
  · have placed : l.store t p = l.place t p := if_pos room
    cases found : l.place t p with
    | none => simp only [placed, found, if_pos room]
    | some l' => simp only [placed, found, if_pos room]
  · rw [show l.store t p = none from if_neg room, if_neg room]

theorem copyLoop_spec (stream : Stream t ptr ps) (last : entrySize (t.data t.end_) ≤ l.size)
    (small : l.size < 262144) (rep : l.Represents skip us) (rounds : Nat) :
    (ps.length ≤ rounds → (copyLoop t rounds ptr l).isSome) ∧
      ∀ c, copyLoop t rounds ptr l = some c → Copies t l.size us (ps.map (entryAt t.data)) c := by
  induction stream generalizing l skip us rounds with
  | @last ptr holds atEnd =>
    obtain _ | rounds := rounds
    · exact ⟨fun enough => absurd enough (by simp), fun c copied => by cases copied⟩
    rw [copyLoop_succ holds, atEnd, if_neg (Nat.not_lt.mpr last)]
    cases stored : l.store t t.end_ with
    | none =>
      refine ⟨fun _ => rfl, fun c copied => ?_⟩
      obtain rfl := some.inj copied
      exact .stop rep _
    | some l' =>
      obtain ⟨size, skip', after⟩ := store_spec rep small (atEnd ▸ holds) stored
      dsimp only
      rw [if_pos rfl]
      refine ⟨fun _ => rfl, fun c copied => ?_⟩
      obtain rfl := some.inj copied
      exact size ▸ (Copies.stop after []).stored (length_entryAt t.data t.end_ ▸ size ▸ last)
  | @more ptr ps holds before rest ih =>
    obtain _ | rounds := rounds
    · exact ⟨fun enough => absurd enough (by simp), fun c copied => by cases copied⟩
    rw [copyLoop_succ holds, List.map_cons]
    generalize normalize t ptr = p at holds before rest ih ⊢
    rw [List.length_cons, Nat.add_le_add_iff_right]
    have length := length_entryAt t.data p
    by_cases oversize : l.size < entrySize (t.data p)
    · rw [if_pos oversize]
      obtain ⟨ends, copies⟩ := ih last small rep rounds
      exact ⟨ends, fun c copied => (copies c copied).dropped (length ▸ oversize)⟩
    rw [if_neg oversize]
    cases stored : l.store t p with
    | none =>
      refine ⟨fun _ => rfl, fun c copied => ?_⟩
      obtain rfl := some.inj copied
      exact .stop rep _
    | some l' =>
      obtain ⟨size, skip', after⟩ := store_spec rep small holds stored
      obtain ⟨ends, copies⟩ := ih (size ▸ last) (size ▸ small) after rounds
      dsimp only
      rw [if_neg before]
      refine ⟨fun enough => by rw [Option.isSome_map]; exact ends enough, fun c copied => ?_⟩
      obtain ⟨c', copied', rfl⟩ := Option.map_eq_some_iff.mp copied
      exact (size ▸ copies c' copied').stored (length ▸ Nat.le_of_not_lt oversize)

/-- What a copy relies on: the shared buffer is well formed, its last entry is not larger than the
ring, and there is an entry where the last one copied was if its first word is there. -/
def Readable (l : LocalBuf) (t : TraceBuf) : Prop :=
  t.empty = false → ∃ ps, Stream t t.start ps ∧ entrySize (t.data t.end_) ≤ l.size ∧
    ∀ p, (l.noteReset t).lastRead = some p → l.lastReadValue = t.data p → p ∈ ps

theorem noteReset_keeps (l : LocalBuf) (t : TraceBuf) : (l.noteReset t).size = l.size ∧
    (l.noteReset t).lastReadValue = l.lastReadValue := by
  unfold noteReset
  split
  · exact ⟨rfl, rfl⟩
  · exact ⟨rfl, rfl⟩

theorem Represents.noteReset (rep : l.Represents skip us) (t : TraceBuf) : (l.noteReset t).Represents skip us := by
  unfold LocalBuf.noteReset
  split
  · exact ⟨rep.layout, rep.count, rep.sized⟩
  · exact rep

theorem stream_copyFrom (stream : Stream t t.start ps) (last : l.lastRead ≠ some t.end_)
    (there : ∀ p, l.lastRead = some p → l.lastReadValue = t.data p → p ∈ ps) :
    ∃ before rest, ps = before ++ rest ∧ Stream t (l.copyFrom t) rest := by
  unfold copyFrom
  cases read : l.lastRead with
  | none => exact ⟨[], ps, rfl, stream⟩
  | some p =>
    dsimp only
    split
    case isTrue same =>
      obtain ⟨front, back, whole, behind⟩ :=
        stream.behind (there p read same) fun atEnd => last (atEnd ▸ read)
      exact ⟨front ++ [p], back, whole.trans (List.append_cons front p back), behind⟩
    case isFalse => exact ⟨[], ps, rfl, stream⟩

def Run (t : TraceBuf) (entries : List (List Word)) : Prop :=
  entries = [] ∨ ∃ ps before, Stream t t.start ps ∧ ps.map (entryAt t.data) = before ++ entries

theorem amlFwTraceCopy_spec (readable : l.Readable t) (small : l.size < 262144)
    (rep : l.Represents skip us) :
    (∃ enough, ∀ rounds, enough ≤ rounds → (l.amlFwTraceCopy t rounds).isSome) ∧
      ∀ rounds c, l.amlFwTraceCopy t rounds = some c → ∃ entries, Run t entries ∧ Copies t l.size us entries c := by
  have rep := rep.noteReset t
  obtain ⟨size, value⟩ := l.noteReset_keeps t
  simp only [amlFwTraceCopy]
  by_cases skipped : (t.empty || decide ((l.noteReset t).lastRead = some t.end_)) = true
  · simp only [if_pos skipped]
    refine ⟨⟨0, fun _ _ => rfl⟩, fun rounds c copied => ?_⟩
    obtain rfl := some.inj copied
    exact ⟨[], .inl rfl, size ▸ Copies.stop rep []⟩
  · simp only [if_neg skipped]
    rw [Bool.or_eq_true, decide_eq_true_iff, not_or, Bool.not_eq_true] at skipped
    obtain ⟨ps, stream, last, there⟩ := readable skipped.1
    rw [← value] at there
    obtain ⟨before, rest, whole, from_⟩ := stream_copyFrom stream skipped.2 there
    have spec := copyLoop_spec from_ (size ▸ last) (size ▸ small) rep
    refine ⟨⟨rest.length, fun rounds enough => (spec rounds).1 enough⟩, fun rounds c copied => ?_⟩
    refine ⟨rest.map (entryAt t.data), .inr ⟨ps, before.map (entryAt t.data), stream, ?_⟩,
      size ▸ (spec rounds).2 c copied⟩
    rw [whole, List.map_append]

/-! ### A read -/

/-- The ring holds these entries, or it is empty and its pointers are not set yet. -/
def Holding (l : LocalBuf) (us : List (List Word)) : Prop :=
  l.nbEntries.toNat = us.length ∧ (us ≠ [] → ∃ skip, l.Represents skip us)

theorem Represents.advance (rep : l.Represents skip (e :: us)) (small : l.size < 262144) : l.advance.Holding us := by
  refine ⟨?_, fun more => ?_⟩
  · rw [l.advance_keeps.2.2.1, rep.count_pop]
  · obtain ⟨skip', popped, -⟩ := rep.pop small more
    exact ⟨skip', popped⟩

theorem Holding.noteShown (holding : l.Holding us) : { l with showReset := none }.Holding us := by
  refine ⟨holding.1, fun some => ?_⟩
  obtain ⟨skip, rep⟩ := holding.2 some
  exact ⟨skip, rep.layout, rep.count, rep.sized⟩

theorem Holding.resetEmpty (holding : l.Holding us) (positive : 0 < l.size) (small : l.size < 262144) :
    ∃ skip, l.resetEmpty.Represents skip us := by
  unfold LocalBuf.resetEmpty
  by_cases empty : l.nbEntries = 0
  · rw [if_pos empty]
    have none : us = [] := by
      have count := holding.1
      rw [empty] at count
      exact List.eq_nil_of_length_eq_zero count.symm
    subst none
    refine ⟨0, ?_, holding.1, fun e member => absurd member List.not_mem_nil⟩
    show Layout l.size fwTraceLastEntry l.data 0 0 (BitVec.ofNat 32 l.size).toNat 0 []
    rw [BitVec.toNat_ofNat, Nat.mod_eq_of_lt (by omega)]
    exact .empty positive
  · rw [if_neg empty]
    refine holding.2 fun none => empty (BitVec.eq_of_toNat_eq ?_)
    rw [holding.1, none]
    rfl

/-- **What a read does**: it takes the first entries and gives their text to the user. -/
structure Reads (size : Nat) (us : List (List Word)) (room : Nat) (r : LocalBuf × List Piece) : Prop where
  same : r.1.size = size
  inside : (textOf r.2).length ≤ room
  left : ∃ rest, us = entriesOf r.2 ++ rest ∧ r.1.Holding rest

variable {room : Nat} {r : LocalBuf × List Piece}

theorem Reads.stop (holding : l.Holding us) (room : Nat) : Reads l.size us room (l, []) where
  same := rfl
  inside := Nat.zero_le room
  left := ⟨us, rfl, holding⟩

theorem Reads.entry (reads : Reads size us (room - (toStr e).length) r)
    (enough : (toStr e).length ≤ room) : Reads size (e :: us) room (r.1, .entry e :: r.2) := by
  obtain ⟨same, inside, rest, whole, holding⟩ := reads
  refine ⟨same, ?_, rest, ?_, holding⟩
  · show (toStr e ++ textOf r.2).length ≤ room
    rw [List.length_append]
    omega
  · show e :: us = e :: (entriesOf r.2 ++ rest)
    rw [← whole]

theorem Reads.reset (reads : Reads size us (room - fwTraceReset.length) r)
    (enough : fwTraceReset.length ≤ room) : Reads size us room (r.1, .reset :: r.2) := by
  obtain ⟨same, inside, rest, whole, holding⟩ := reads
  refine ⟨same, ?_, rest, whole, holding⟩
  show (fwTraceReset ++ textOf r.2).length ≤ room
  rw [List.length_append]
  omega

/-- A round of the loop behind the line for a reset. -/
def readEntry (n : Nat) (l : LocalBuf) (room : Nat) : LocalBuf × List Piece :=
  if room < fwTraceStrlen (l.data l.read) then (l, [])
  else
    let entry := entryAt l.data l.read
    let rest := readLoop n l.advance (room - (toStr entry).length)
    (rest.1, .entry entry :: rest.2)

theorem readLoop_succ (n : Nat) (l : LocalBuf) (room : Nat) : readLoop (n + 1) l room =
      if l.showReset = some l.read then
        if room < fwTraceReset.length then (l, [])
        else
          let rest := readEntry n { l with showReset := none } (room - fwTraceReset.length)
          (rest.1, .reset :: rest.2)
      else readEntry n l room := by
  rw [readLoop]
  split
  · split
    · rfl
    · simp only [readEntry]
      split
      · rfl
      · rfl
  · rfl

theorem readLoop_spec (small : l.size < 262144) (holding : l.Holding us) (room : Nat) :
    Reads l.size us room (readLoop us.length l room) := by
  induction us generalizing l room with
  | nil => exact .stop holding room
  | cons e us ih =>
    have entry : ∀ {l : LocalBuf} (room : Nat), l.size < 262144 → l.Holding (e :: us) →
        Reads l.size (e :: us) room (readEntry us.length l room) := by
      intro l room small holding
      obtain ⟨skip, rep⟩ := holding.2 (List.cons_ne_nil e us)
      obtain ⟨size, -, -, -⟩ := l.advance_keeps
      unfold readEntry
      by_cases short : room < fwTraceStrlen (l.data l.read)
      · rw [if_pos short]
        exact .stop holding room
      · rw [if_neg short]
        dsimp only
        rw [rep.entryAt]
        have first : (toStr e).length = fwTraceStrlen (l.data l.read) := by
          rw [toStr_length, ← rep.entryAt, getD_entryAt]
        have rest := ih (size ▸ small) (rep.advance small) (room - (toStr e).length)
        rw [size] at rest
        exact rest.entry (by omega)
    rw [List.length_cons, readLoop_succ]
    by_cases shown : l.showReset = some l.read
    · rw [if_pos shown]
      by_cases short : room < fwTraceReset.length
      · rw [if_pos short]
        exact .stop holding room
      · rw [if_neg short]
        exact Reads.reset (entry (l := { l with showReset := none }) _ small holding.noteShown)
          (Nat.le_of_not_lt short)
    · rw [if_neg shown]
      exact entry room small holding

theorem amlFwTraceReadLocal_spec (positive : 0 < l.size) (small : l.size < 262144)
    (rep : l.Represents skip us) (room : Nat) :
    let r := l.amlFwTraceReadLocal room
    r.1.size = l.size ∧ (textOf r.2).length ≤ room ∧
      ∃ rest skip', us = entriesOf r.2 ++ rest ∧ r.1.Represents skip' rest := by
  simp only [amlFwTraceReadLocal]
  by_cases none : l.nbEntries = 0
  · rw [if_pos none]
    exact ⟨rfl, Nat.zero_le room, us, skip, rfl, rep⟩
  · rw [if_neg none, rep.count]
    obtain ⟨same, inside, rest, whole, holding⟩ :=
      readLoop_spec small ⟨rep.count, fun _ => ⟨skip, rep⟩⟩ room
    obtain ⟨skip', after⟩ := holding.resetEmpty (same ▸ positive) (same ▸ small)
    refine ⟨?_, inside, rest, skip', whole, after⟩
    rw [← same]
    unfold resetEmpty
    split
    · rfl
    · rfl

theorem amlFwTraceReadLocal_takes (rep : l.Represents skip (e :: us)) (enough : 1827 ≤ room) :
    entriesOf (l.amlFwTraceReadLocal room).2 ≠ [] := by
  have count := rep.count
  have some : l.nbEntries ≠ 0 := fun none => by
    rw [none] at count
    cases count
  have long : ∀ w : Word, fwTraceStrlen w ≤ 1813 := fun w => by
    have params : nbParam w ≤ 0xff := by
      rw [nbParam, BitVec.toNat_and]
      exact Nat.and_le_right
    unfold fwTraceStrlen fwTraceHeaderAsciiLen fwTraceParamAsciiLen
    omega
  have line : fwTraceReset.length = 14 := by decide
  have entry : ∀ (n : Nat) (l : LocalBuf) (room : Nat), 1813 ≤ room →
      entriesOf (readEntry n l room).2 ≠ [] := fun n l room enough => by
    have := long (l.data l.read)
    unfold readEntry
    rw [if_neg (by omega)]
    exact List.cons_ne_nil _ _
  simp only [amlFwTraceReadLocal]
  rw [if_neg some, count, List.length_cons, readLoop_succ]
  dsimp only
  by_cases shown : l.showReset = Option.some l.read
  · rw [if_pos shown, if_neg (by omega)]
    exact entry _ _ _ (by omega)
  · rw [if_neg shown]
    exact entry _ _ _ (by omega)

end LocalBuf

/-! ### Copies and reads in any order -/

/-- A reader, with what it copied from which shared buffers, and what it gave to which user buffers. -/
structure Reader where
  buf : LocalBuf
  copies : List (TraceBuf × List (List Word)) := []
  reads : List (Nat × List Piece) := []

/-- A call; `rounds` bounds the loop of the copy. -/
inductive TraceAct
  | copy (t : TraceBuf) (rounds : Nat)
  | read (size : Nat)

namespace Reader

def step (s : Reader) : TraceAct → Option Reader
  | .copy t rounds => (s.buf.amlFwTraceCopy t rounds).map fun c =>
      { s with
        buf := c.buf
        copies := s.copies ++ [(t, c.entries)] }
  | .read size =>
    let r := s.buf.amlFwTraceReadLocal size
    some { s with
      buf := r.1
      reads := s.reads ++ [(size, r.2)] }

def copied (s : Reader) : List (List Word) := s.copies.flatMap Prod.snd

def delivered (s : Reader) : List (List Word) := s.reads.flatMap fun r => entriesOf r.2

end Reader

/-- A ring of `size` words. -/
def traceSystem (size : Nat) : System Reader TraceAct where
  init := { buf := fwTraceAllocLocal size }
  step := Reader.step

def CopyGuard (s : Reader) : TraceAct → Prop
  | .copy t _ => s.buf.Readable t
  | .read _ => True

/-- The entries a copy took: one behind another in the shared buffer, less those larger than the ring. -/
def Whole (size : Nat) (copy : TraceBuf × List (List Word)) : Prop :=
  ∃ entries taken, LocalBuf.Run copy.1 entries ∧ taken <+: entries ∧ copy.2 = taken.filter (LocalBuf.fits size)

/-- **What holds of a ring.** -/
structure RingKept (size : Nat) (s : Reader) : Prop where
  /-- Each entry is delivered once, in the order copied; the others are in the ring, not overwritten. -/
  order : s.copied = s.delivered ++ s.buf.unread
  free : s.buf.freeSpace.toNat + s.buf.unread.flatten.length + s.buf.skipped = size
  /-- Entries are copied whole and dropped whole. -/
  whole : ∀ copy ∈ s.copies, Whole size copy
  /-- No text is cut off. -/
  inside : ∀ read ∈ s.reads, (textOf read.2).length ≤ read.1
  returns : ∀ t, s.buf.Readable t → ∃ enough, ∀ rounds, enough ≤ rounds → (s.buf.amlFwTraceCopy t rounds).isSome
  serves : s.buf.unread ≠ [] → ∀ room, 1827 ≤ room → entriesOf (s.buf.amlFwTraceReadLocal room).2 ≠ []

/-- The invariant of a run. -/
structure RingInv (size : Nat) (s : Reader) : Prop where
  same : s.buf.size = size
  represents : ∃ skip us, s.buf.Represents skip us ∧ s.copied = s.delivered ++ us
  whole : ∀ copy ∈ s.copies, Whole size copy
  inside : ∀ read ∈ s.reads, (textOf read.2).length ≤ read.1

variable {s s' : Reader}

theorem RingInv.init (positive : 0 < size) (small : size < 262144) : RingInv size (traceSystem size).init := by
  refine ⟨rfl, ⟨0, [], ⟨?_, rfl, fun e member => absurd member List.not_mem_nil⟩, rfl⟩,
    fun copy member => absurd member List.not_mem_nil, fun read member => absurd member List.not_mem_nil⟩
  show Layout size fwTraceLastEntry _ 0 0 (BitVec.ofNat 32 size).toNat 0 []
  rw [BitVec.toNat_ofNat, Nat.mod_eq_of_lt (by omega)]
  exact .empty positive

theorem RingInv.step (positive : 0 < size) (small : size < 262144) (inv : RingInv size s)
    {a : TraceAct} (allowed : CopyGuard s a) (stepped : (traceSystem size).step s a = some s') :
    RingInv size s' := by
  obtain ⟨same, ⟨skip, us, rep, order⟩, whole, inside⟩ := inv
  subst same
  cases a with
  | copy t rounds =>
    obtain ⟨c, copied, rfl⟩ := Option.map_eq_some_iff.mp stepped
    obtain ⟨entries, run, -, kept, ⟨taken, first, less⟩, skip', after⟩ :=
      (LocalBuf.amlFwTraceCopy_spec allowed small rep).2 rounds c copied
    refine ⟨kept, ⟨skip', _, after, ?_⟩, fun copy member => ?_, inside⟩
    · show (s.copies ++ [(t, c.entries)]).flatMap Prod.snd = s.delivered ++ (us ++ c.entries)
      rw [List.flatMap_append, List.flatMap_singleton, ← List.append_assoc, ← order]
      rfl
    · rcases List.mem_append.mp member with old | new
      · exact whole copy old
      · rw [List.mem_singleton.mp new]
        exact ⟨entries, taken, run, first, less⟩
  | read room =>
    obtain rfl := some.inj stepped
    obtain ⟨kept, fits, rest, skip', split, after⟩ :=
      LocalBuf.amlFwTraceReadLocal_spec positive small rep room
    refine ⟨kept, ⟨skip', rest, after, ?_⟩, whole, fun read member => ?_⟩
    · show s.copied = (s.reads ++ [(room, (s.buf.amlFwTraceReadLocal room).2)]).flatMap
        (fun r => entriesOf r.2) ++ rest
      rw [List.flatMap_append, List.flatMap_singleton, List.append_assoc, ← split]
      exact order
    · rcases List.mem_append.mp member with old | new
      · exact inside read old
      · rw [List.mem_singleton.mp new]
        exact fits

/-- Entries of four words, up to the one at a position. -/
def sampleTrace (end_ : Nat) : TraceBuf where
  size := 16
  data := fun _ => 0
  start := 0
  end_ := end_
  resetIdx := 0

theorem sample_wraps : ∃ s, (traceSystem 10).Reachable CopyGuard s ∧
    s.buf.freeSpace.toNat = 0 ∧ s.buf.unread.flatten.length = 8 := by
  have two : Stream (sampleTrace 4) 0 [0, 4] :=
    .more (by decide) (by decide) (.last (by decide) (by decide))
  have three : Stream (sampleTrace 8) 0 [0, 4, 8] :=
    .more (by decide) (by decide) (.more (by decide) (by decide) (.last (by decide) (by decide)))
  have first := System.Reachable.step (S := traceSystem 10) .init (show CopyGuard _ (.copy (sampleTrace 4) 2) from
      fun _ => ⟨_, two, by decide, fun p none => by cases none⟩) rfl
  have second := first.step (show CopyGuard _ (.read 28) from trivial) rfl
  have third := second.step (show CopyGuard _ (.copy (sampleTrace 8) 1) from
    fun _ => ⟨_, three, by decide, fun p read => by cases read; decide⟩) rfl
  exact ⟨_, third, by decide, by decide⟩

end W2l.Trace
