/-
**The radar pools: where each `pulse_elem` and `pri_sequence` is.**

`aml_radar.c`. The pulses and sequences of all detectors are taken from two pools, and from `kmalloc` where a pool is
empty; the age rule, the capacity rule, a sequence whose deadline has passed and a reset give them back. Here each
has a number of its own; `Radar.Short` and `Radar.Long` say what the values are.

* `Pools`, `Pde` — the pools with what was allocated and freed, and a detector.
* `pulseQueueEnqueue`, `priDetectorReset`, `pdeShortAddPulse`, `pdeLongAddPulse`, `priDetectorGet`,
  `priDetectorExit` — the functions.
* `Queued` — **a pulse queue**: newest first, counted, below `max_count`, within the window.
* `Keeps` — an operation moves what it takes and gives back between the pools and its detector, and nothing else.
* `Held.enqueue`, `Held.short`, `Held.long` — **what the operations keep**.
-/

import Mathlib.Data.List.Perm.Lattice
import W2lDriver.Lib.Custody
import W2lDriver.Radar.Long

namespace W2l.RadarPool

open Lib
open Radar (RadarDetectorSpecs PriSequence Ts)
open List (perm_middle)

/-! ### The data -/

structure PulseElem where
  id : ℕ
  ts : Ts

structure PseqElem where
  id : ℕ
  seq : PriSequence

/-- The singleton pools, how many objects `kmalloc` has made, their numbers being the first ones, and those freed. -/
structure Pools where
  pulsePool : List ℕ := []
  pseqPool : List PseqElem := []
  references : ℕ := 0
  madePulses : ℕ := 0
  madePseqs : ℕ := 0
  freedPulses : List ℕ := []
  freedPseqs : List ℕ := []

/-- `struct pri_detector`; `line` stands for the list of detectors of its type. -/
structure Pde where
  line : ℕ
  rs : RadarDetectorSpecs
  freq : ℕ
  lastTs : Ts := 0
  sequences : List PseqElem := []
  pulses : List PulseElem := []
  count : ℕ := 0
  maxCount : ℕ
  windowSize : BitVec 32

/-- What `kmalloc` gives in a call: a `pulse_elem` or not, so many `pri_sequence`, and what they hold. -/
structure Memory where
  elem : Bool
  pseqs : ℕ
  junk : PriSequence

/-- The pools and a detector. -/
structure Held where
  pools : Pools
  pde : Pde

/-- `pool_get_pseq_elem`, with `room` `pri_sequence` to be had. -/
def Pools.poolGetPseqElem (h : Pools) (junk : PriSequence) (room : ℕ) : Option (PseqElem × Pools × ℕ) :=
  match h.pseqPool, room with
  | e :: rest, room => some (e, { h with pseqPool := rest }, room)
  | [], room + 1 => some (⟨h.madePseqs, junk⟩, { h with madePseqs := h.madePseqs + 1 }, room)
  | [], 0 => none

/-! ### The pulse queue -/

namespace Held

def pulseQueueDequeue (x : Held) : Held :=
  match x.pde.pulses.getLast? with
  | none => x
  | some p =>
    { pools := { x.pools with pulsePool := p.id :: x.pools.pulsePool }
      pde := { x.pde with
        pulses := x.pde.pulses.dropLast
        count := x.pde.count - 1 } }

/-- The loop of `pulse_queue_check_window`. -/
def checkLoop (minValidTs : Ts) : ℕ → Held → Held
  | 0, x => x
  | rounds + 1, x =>
    match x.pde.pulses.getLast? with
    | none => x
    | some p => if minValidTs ≤ p.ts then x else checkLoop minValidTs rounds x.pulseQueueDequeue

def pulseQueueCheckWindow (x : Held) : Held :=
  if x.pde.count < 2 then x
  else if x.pde.lastTs ≤ x.pde.windowSize.setWidth 64 then x
  else checkLoop (x.pde.lastTs - x.pde.windowSize.setWidth 64) x.pde.pulses.length x

/-- `pool_get_pulse_elem`, and `kmalloc` where the pool is empty. -/
def getPulseElem (x : Held) (elem : Bool) : Option (ℕ × Held) :=
  match x.pools.pulsePool with
  | id :: rest => some (id, { x with pools := { x.pools with pulsePool := rest } })
  | [] =>
    if elem then
      some (x.pools.madePulses, { x with pools := { x.pools with madePulses := x.pools.madePulses + 1 } })
    else none

/-- `pulse_queue_enqueue`, with the `pulse_elem` in hand. -/
def enqueueElem (x : Held) (id : ℕ) (ts : Ts) : Held :=
  let x := { x with pde := { x.pde with
    pulses := ⟨id, ts⟩ :: x.pde.pulses
    count := x.pde.count + 1
    lastTs := ts } }
  let x := x.pulseQueueCheckWindow
  if x.pde.maxCount ≤ x.pde.count then x.pulseQueueDequeue else x

def pulseQueueEnqueue (x : Held) (ts : Ts) (elem : Bool) : Held :=
  match x.getPulseElem elem with
  | none => x
  | some (id, x) => x.enqueueElem id ts

/-- `pri_detector_reset`: the elements go to the front of the pools one by one. -/
def priDetectorReset (x : Held) (ts : Ts) : Held where
  pools :=
    { x.pools with
      pseqPool := x.pde.sequences.reverse ++ x.pools.pseqPool
      pulsePool := (x.pde.pulses.map PulseElem.id).reverse ++ x.pools.pulsePool }
  pde :=
    { x.pde with
      sequences := []
      pulses := []
      count := 0
      lastTs := ts }

end Held

/-! ### Adding a pulse -/

section Short

variable (rs : RadarDetectorSpecs) (junk : PriSequence) (ts : Ts)

/-- The loop of `pde_short_create_sequences`, and whether there was memory. -/
def createLoop (minCount : ℕ) : ℕ → List PulseElem → Pools → ℕ → List PseqElem → Bool × Pools × List PseqElem
  | _, [], h, _, sequences => (true, h, sequences)
  | pulseIdx, p :: rest, h, room, sequences =>
    let deltaTs : BitVec 32 := (ts - p.ts).setWidth 32
    if deltaTs < rs.priMin.setWidth 32 then createLoop minCount (pulseIdx + 1) rest h room sequences
    else if rs.priMax.setWidth 32 < deltaTs then (true, h, sequences)
    else
      let ps := Radar.pastSequence rs ts p.ts (rest.map PulseElem.ts) (pulseIdx + 1)
      if ps.count ≤ minCount then createLoop minCount (pulseIdx + 1) rest h room sequences
      else
        match h.poolGetPseqElem junk room with
        | none => (false, h, sequences)
        | some (e, h, room) =>
          createLoop minCount (pulseIdx + 1) rest h room (⟨e.id, Radar.validSequence rs ps⟩ :: sequences)

/-- `pde_short_add_to_existing_seqs`. -/
def addToExistingSeqs : List PseqElem → Pools → ℕ → List PseqElem × Pools × ℕ
  | [], h, maxCount => ([], h, maxCount)
  | e :: rest, h, maxCount =>
    if e.seq.deadlineTs < ts then addToExistingSeqs rest { h with pseqPool := e :: h.pseqPool } maxCount
    else
      let maxCount :=
        if Radar.pdeGetMultiple ((ts - e.seq.lastTs).setWidth 32) e.seq.pri (Radar.tolerance rs) = 0 then maxCount
        else max maxCount (e.seq.count + 1)
      let r := addToExistingSeqs rest h maxCount
      (⟨e.id, Radar.extend rs ts e.seq⟩ :: r.1, r.2)

end Short

namespace Held

/-- `pde_short_add_pulse`, and the sequence it returns. -/
def pdeShortAddPulse (x : Held) (ts : Ts) (mem : Memory) : Held × Option PseqElem :=
  if x.pde.count = 0 then (x.pulseQueueEnqueue ts mem.elem, none)
  else if ts - x.pde.lastTs < x.pde.rs.maxPriTolerance.setWidth 64 then (x, none)
  else
    let updated := addToExistingSeqs x.pde.rs ts x.pde.sequences x.pools 0
    let created := createLoop x.pde.rs mem.junk ts updated.2.2 0 x.pde.pulses updated.2.1 mem.pseqs updated.1
    let x : Held := { pools := created.2.1, pde := { x.pde with sequences := created.2.2 } }
    if created.1 then
      match x.pde.sequences.find? fun e => Radar.complete x.pde.rs e.seq with
      | none => (x.pulseQueueEnqueue ts mem.elem, none)
      | some e => (x, some e)
    else (x.priDetectorReset ts, none)

/-- The loop of `pde_long_add_pulse` over the bursts that are too old. -/
def expireLoop (minValidTs : Ts) : ℕ → Held → PriSequence → Held × PriSequence
  | 0, x, ps => (x, ps)
  | rounds + 1, x, ps =>
    match x.pde.pulses.getLast? with
    | none => (x, ps)
    | some p =>
      if minValidTs ≤ p.ts then
        (x, { ps with
          firstTs := p.ts
          deadlineTs := p.ts + x.pde.windowSize.setWidth 64 })
      else expireLoop minValidTs rounds x.pulseQueueDequeue { ps with count := ps.count - 1 }

/-- The sequences of a detector are changed. -/
def withSequences (x : Held) (sequences : List PseqElem) : Held :=
  { x with pde := { x.pde with sequences := sequences } }

/-- A new burst; `e` is the sequence, `rest` what stands behind it. -/
def newBurst (x : Held) (e : PseqElem) (rest : List PseqElem) (ts : Ts) (deltaTs : BitVec 32) (elem : Bool) :
    Held × Option PseqElem :=
  let ps := { e.seq with count := e.seq.count + 1, countFalses := 1 }
  let r :=
    if ps.deadlineTs < ts then
      expireLoop (ts - x.pde.windowSize.setWidth 64) x.pde.pulses.length x ps
    else (x, ps)
  if x.pde.rs.ppbThresh.toNat < r.2.count ∧ (x.pde.windowSize / 2).setWidth 64 < ts - r.2.firstTs then
    (r.1.withSequences (⟨e.id, r.2⟩ :: rest), some ⟨e.id, r.2⟩)
  else ((r.1.withSequences (⟨e.id, { r.2 with dur := deltaTs }⟩ :: rest)).pulseQueueEnqueue ts elem, none)

/-- `pde_long_add_pulse`, and the sequence it returns. -/
def pdeLongAddPulse (x : Held) (ts : Ts) (mem : Memory) : Held × Option PseqElem :=
  match x.pde.sequences with
  | [] =>
    match x.pools.poolGetPseqElem mem.junk mem.pseqs with
    | none => (x, none)
    | some (e, h, _) =>
      let first : PriSequence := { e.seq with
        count := 1
        countFalses := 1
        firstTs := ts
        lastTs := ts
        deadlineTs := ts + x.pde.windowSize.setWidth 64
        pri := 0 }
      (({ x with pools := h }.withSequences [⟨e.id, first⟩]).pulseQueueEnqueue ts mem.elem, none)
  | e :: rest =>
    let delta := Radar.deltaTs e.seq ts
    let ps := { e.seq with lastTs := ts }
    if delta < x.pde.rs.priMax.setWidth 32 then (x.withSequences (⟨e.id, ps⟩ :: rest), none)
    else if x.pde.rs.priMin.setWidth 32 ≤ delta ∧ delta ≤ x.pde.rs.priMax.setWidth 32 then
      (x.withSequences (⟨e.id, { ps with countFalses := ps.countFalses + 1 }⟩ :: rest), none)
    else if 2 < ps.count ∧ ps.dur + delta < Radar.longRadarBurstMinDuration then
      (x.withSequences (⟨e.id, ps⟩ :: rest), none)
    else newBurst x ⟨e.id, ps⟩ rest ts delta mem.elem

/-- `pde->ops->add_pulse`. -/
def addPulse (x : Held) (ts : Ts) (mem : Memory) : Held × Option PseqElem :=
  if x.pde.rs.type = .long then x.pdeLongAddPulse ts mem else x.pdeShortAddPulse ts mem

end Held

/-! ### Detectors -/

/-- `pri_detector_init`, with `pde_short_init` or `pde_long_init`. -/
def priDetectorInit (line : ℕ) (rs : RadarDetectorSpecs) (freq : ℕ) : Pde where
  line := line
  rs := rs
  freq := freq
  windowSize :=
    if rs.type = .long then Radar.longRadarDuration
    else rs.priMax.setWidth 32 * rs.ppb.setWidth 32 * rs.numPri.setWidth 32
  maxCount := if rs.type = .long then Radar.longRadarMaxBurst else rs.ppb.toNat * 2

/-- The loop of `pri_detector_get`: the place of the detector it finds. -/
def getLoop (line freq : ℕ) : List Pde → ℕ → Option ℕ → Option ℕ
  | [], _, cur => cur
  | d :: rest, i, cur =>
    if d.line ≠ line then getLoop line freq rest (i + 1) cur
    else if d.freq = freq then if d.count ≠ 0 then some i else getLoop line freq rest (i + 1) (some i)
    else if (d.freq : ℤ) - 2 = freq ∧ d.count ≠ 0 then some i
    else if d.freq + 2 = freq ∧ d.count ≠ 0 then some i
    else getLoop line freq rest (i + 1) cur

/-- The driver's detectors. -/
structure State where
  pools : Pools := {}
  dets : List Pde := []

/-- `pri_detector_get`; `alloc` is what `kzalloc` gives. -/
def State.priDetectorGet (s : State) (line : ℕ) (rs : RadarDetectorSpecs) (freq : ℕ) (alloc : Bool) : State :=
  if (getLoop line freq s.dets 0 none).isSome ∨ alloc = false then s
  else
    { pools := { s.pools with references := s.pools.references + 1 }
      dets := priDetectorInit line rs freq :: s.dets }

def Pools.poolDeregisterRef (h : Pools) : Pools :=
  if h.references - 1 = 0 then
    { h with
      references := h.references - 1
      freedPulses := h.freedPulses ++ h.pulsePool
      freedPseqs := h.freedPseqs ++ h.pseqPool.map PseqElem.id
      pulsePool := []
      pseqPool := [] }
  else { h with references := h.references - 1 }

/-- What is done to the detector at a place. -/
def State.atDet (s : State) (i : ℕ) (f : Held → Held) : Option State :=
  (s.dets[i]?).map fun d =>
    let x := f ⟨s.pools, d⟩
    { pools := x.pools, dets := s.dets.set i x.pde }

def State.priDetectorExit (s : State) (i : ℕ) : Option State :=
  (s.dets[i]?).map fun d =>
    { pools := (Held.priDetectorReset ⟨s.pools, d⟩ 0).pools.poolDeregisterRef, dets := s.dets.eraseIdx i }

inductive Event
  | get (line : ℕ) (rs : RadarDetectorSpecs) (freq : ℕ) (alloc : Bool)
  | add (i : ℕ) (ts : Ts) (mem : Memory)
  | reset (i : ℕ) (ts : Ts)
  | exit (i : ℕ)

/-- One operation on the detectors. -/
def step (s : State) : Event → Option State
  | .get line rs freq alloc => some (s.priDetectorGet line rs freq alloc)
  | .add i ts mem => s.atDet i fun x => (x.addPulse ts mem).1
  | .reset i ts => s.atDet i fun x => x.priDetectorReset ts
  | .exit i => s.priDetectorExit i

/-- **All sequences of operations.** -/
def poolSystem : System State Event where
  init := {}
  step := step

/-- Detectors are made for the patterns of the tables, and no pulse is older than one in the queue it is for. -/
def InOrder (s : State) : Event → Prop
  | .get _ rs _ _ => rs ∈ Radar.shortSpecs ∨ rs ∈ Radar.longSpecs
  | .add i ts _ => ∀ d, s.dets[i]? = some d → ∀ p ∈ d.pulses, p.ts ≤ ts
  | _ => True

/-! ### What holds of them -/

/-- **A pulse queue**: newest first, counted, below `max_count`, and within the window. -/
structure Queued (d : Pde) : Prop where
  newest : d.pulses.Pairwise fun newer older => older.ts ≤ newer.ts
  count : d.count = d.pulses.length
  below : d.count < d.maxCount
  window : 2 ≤ d.pulses.length → ∀ p ∈ d.pulses, p.ts ≤ d.lastTs ∧ d.lastTs.toNat ≤ p.ts.toNat + d.windowSize.toNat

/-- The places where a pulse or a sequence may be. -/
def State.pulsePlaces (s : State) : List ℕ :=
  s.pools.pulsePool ++ s.dets.flatMap fun d => d.pulses.map PulseElem.id

def State.pseqPlaces (s : State) : List ℕ :=
  s.pools.pseqPool.map PseqElem.id ++ s.dets.flatMap fun d => d.sequences.map PseqElem.id

/-- Of the objects made, those that were not freed are in one place. -/
def InOnePlace (made : ℕ) (freed places : List ℕ) : Prop :=
  (∀ id < made, id ∉ freed → places.count id = 1) ∧ ∀ id ∈ places, id < made ∧ id ∉ freed

/-- **The pulse queues, and where each object is.** -/
structure PoolSound (s : State) : Prop where
  queued : ∀ d ∈ s.dets, Queued d
  pulses : InOnePlace s.pools.madePulses s.pools.freedPulses s.pulsePlaces
  pseqs : InOnePlace s.pools.madePseqs s.pools.freedPseqs s.pseqPlaces

/-! ### Where the objects are -/

def Pde.pulseIds (d : Pde) : List ℕ := d.pulses.map PulseElem.id
def Pde.pseqIds (d : Pde) : List ℕ := d.sequences.map PseqElem.id

/-- The pools and these others are all objects that were not freed. -/
structure Accounted (h : Pools) (pulses pseqs : List ℕ) : Prop where
  pulses : Custody (List.range h.madePulses) h.freedPulses (h.pulsePool ++ pulses)
  pseqs : Custody (List.range h.madePseqs) h.freedPseqs (h.pseqPool.map PseqElem.id ++ pseqs)

/-- An operation moves objects between the pools and its detector, and nothing else. -/
def Keeps (x y : Held) : Prop := ∀ pulses pseqs,
  Accounted x.pools (x.pde.pulseIds ++ pulses) (x.pde.pseqIds ++ pseqs) →
    Accounted y.pools (y.pde.pulseIds ++ pulses) (y.pde.pseqIds ++ pseqs)

section Accounts

variable {h h' : Pools} {x y z : Held} {pulses pulses' pseqs pseqs' : List ℕ} {ts minValid : Ts}

theorem Keeps.refl (x : Held) : Keeps x x := fun _ _ => id

theorem Keeps.trans (first : Keeps x y) (second : Keeps y z) : Keeps x z :=
  fun pulses pseqs acc => second pulses pseqs (first pulses pseqs acc)

theorem Accounted.perm (acc : Accounted h pulses pseqs) (left : pulses.Perm pulses') (right : pseqs.Perm pseqs') :
    Accounted h pulses' pseqs' :=
  ⟨acc.pulses.moved (left.append_left _), acc.pseqs.moved (right.append_left _)⟩

theorem acquired_succ {n : ℕ} {released held held' : List ℕ} (custody : Custody (List.range n) released held)
    (perm : (n :: held).Perm held') : Custody (List.range (n + 1)) released held' := by
  rw [List.range_succ]
  exact (custody.acquire List.not_mem_range_self).moved perm

/-- A `pulse_elem` is taken from the pool, or made. -/
theorem getPulseElem_accounted {elem : Bool} {id : ℕ} (got : x.getPulseElem elem = some (id, y)) :
    y.pde = x.pde ∧ ∀ pulses pseqs, Accounted x.pools pulses pseqs → Accounted y.pools (id :: pulses) pseqs := by
  unfold Held.getPulseElem at got
  split at got
  case h_1 first rest pool =>
    obtain ⟨rfl, rfl⟩ := Prod.mk.inj (Option.some.inj got)
    refine ⟨rfl, fun pulses pseqs acc => ⟨acc.pulses.moved ?_, acc.pseqs⟩⟩
    rw [pool]
    exact perm_middle.symm
  case h_2 pool =>
    split at got
    case isFalse => exact nomatch got
    case isTrue =>
      obtain ⟨rfl, rfl⟩ := Prod.mk.inj (Option.some.inj got)
      exact ⟨rfl, fun pulses pseqs acc => ⟨acquired_succ acc.pulses perm_middle.symm, acc.pseqs⟩⟩

/-- A `pri_sequence` is taken from the pool, or made. -/
theorem poolGetPseqElem_accounted {junk : PriSequence} {room room' : ℕ} {e : PseqElem}
    (got : h.poolGetPseqElem junk room = some (e, h', room')) (acc : Accounted h pulses pseqs) :
    Accounted h' pulses (e.id :: pseqs) := by
  unfold Pools.poolGetPseqElem at got
  split at got
  case h_1 first rest room pool =>
    obtain ⟨rfl, rfl, -⟩ := Option.some.inj got
    refine ⟨acc.pulses, acc.pseqs.moved ?_⟩
    rw [pool]
    exact perm_middle.symm
  case h_2 =>
    obtain ⟨rfl, rfl, -⟩ := Option.some.inj got
    exact ⟨acc.pulses, acquired_succ acc.pseqs perm_middle.symm⟩
  case h_3 => exact nomatch got

/-! ### Pulses that are taken out -/

/-- Old pulses are taken out of the queue. -/
structure Shrunk (x y : Held) : Prop where
  part : y.pde.pulses <+: x.pde.pulses
  same : ∃ pulses count, y.pde = { x.pde with pulses := pulses, count := count }
  count : x.pde.count = x.pde.pulses.length → y.pde.count = y.pde.pulses.length
  keeps : Keeps x y

theorem Shrunk.refl (x : Held) : Shrunk x x := ⟨List.prefix_rfl, ⟨_, _, rfl⟩, id, .refl x⟩

theorem Shrunk.trans (first : Shrunk x y) (second : Shrunk y z) : Shrunk x z where
  part := second.part.trans first.part
  same := by
    obtain ⟨_, _, before⟩ := first.same
    obtain ⟨pulses, count, after⟩ := second.same
    refine ⟨pulses, count, ?_⟩
    rw [after, before]
  count := fun whole => second.count (first.count whole)
  keeps := first.keeps.trans second.keeps

theorem shrunk_dequeue (x : Held) : Shrunk x x.pulseQueueDequeue := by
  unfold Held.pulseQueueDequeue
  split
  case h_1 => exact .refl x
  case h_2 p last =>
    obtain ⟨init, whole⟩ := List.getLast?_eq_some_iff.mp last
    have front : x.pde.pulses.dropLast = init := by rw [whole, List.dropLast_concat]
    refine ⟨List.dropLast_prefix _, ⟨_, _, rfl⟩, fun count => ?_, fun pulses pseqs acc => ⟨?_, acc.pseqs⟩⟩
    · dsimp only
      rw [List.length_dropLast, count]
    · refine acc.pulses.moved (List.perm_iff_count.mpr fun a => ?_)
      unfold Pde.pulseIds
      dsimp only
      rw [front, whole]
      simp only [List.map_append, List.map_cons, List.map_nil, List.count_append, List.count_cons, List.count_nil]
      omega

theorem shrunk_checkLoop (minValid : Ts) (rounds : ℕ) (x : Held) : Shrunk x (Held.checkLoop minValid rounds x) := by
  induction rounds generalizing x with
  | zero => exact .refl x
  | succ rounds ih =>
    unfold Held.checkLoop
    split
    case h_1 => exact .refl x
    case h_2 =>
      split
      case isTrue => exact .refl x
      case isFalse => exact (shrunk_dequeue x).trans (ih _)

theorem shrunk_expireLoop (minValid : Ts) (rounds : ℕ) (x : Held) (ps : PriSequence) :
    Shrunk x (Held.expireLoop minValid rounds x ps).1 := by
  induction rounds generalizing x ps with
  | zero => exact .refl x
  | succ rounds ih =>
    unfold Held.expireLoop
    split
    case h_1 => exact .refl x
    case h_2 =>
      split
      case isTrue => exact .refl x
      case isFalse => exact (shrunk_dequeue x).trans (ih _ _)

theorem checkLoop_le {rounds : ℕ} (newest : x.pde.pulses.Pairwise fun newer older => older.ts ≤ newer.ts)
    (enough : x.pde.pulses.length ≤ rounds) :
    ∀ p ∈ (Held.checkLoop minValid rounds x).pde.pulses, minValid ≤ p.ts := by
  induction rounds generalizing x with
  | zero =>
    intro p member
    rw [Held.checkLoop, List.eq_nil_of_length_eq_zero (Nat.le_zero.mp enough)] at member
    exact absurd member List.not_mem_nil
  | succ rounds ih =>
    unfold Held.checkLoop
    split
    case h_1 none =>
      rw [List.getLast?_eq_none_iff.mp none]
      exact List.forall_mem_nil _
    case h_2 last there =>
      obtain ⟨init, whole⟩ := List.getLast?_eq_some_iff.mp there
      split
      case isTrue inside =>
        rw [whole] at newest ⊢
        have older := (List.pairwise_append.mp newest).2.2
        intro p member
        rcases List.mem_append.mp member with newer | oldest
        · exact BitVec.le_trans inside (older p newer last (List.mem_singleton_self last))
        · rw [List.mem_singleton.mp oldest]
          exact inside
      case isFalse =>
        have shrunk := shrunk_dequeue x
        refine ih (newest.sublist shrunk.part.sublist) ?_
        have front : x.pulseQueueDequeue.pde.pulses = x.pde.pulses.dropLast := by
          unfold Held.pulseQueueDequeue
          rw [there]
        rw [front, List.length_dropLast]
        omega

theorem Queued.shrunk (queued : Queued x.pde) (shrunk : Shrunk x y) : Queued y.pde := by
  obtain ⟨pulses, count, same⟩ := shrunk.same
  have counted := shrunk.count queued.count
  have fewer := shrunk.part.length_le
  have whole := queued.count
  have below := queued.below
  have max : y.pde.maxCount = x.pde.maxCount := by rw [same]
  have last : y.pde.lastTs = x.pde.lastTs := by rw [same]
  have size : y.pde.windowSize = x.pde.windowSize := by rw [same]
  refine ⟨queued.newest.sublist shrunk.part.sublist, counted, by omega, fun two p member => ?_⟩
  rw [last, size]
  exact queued.window (by omega) p (shrunk.part.subset member)

/-! ### A pulse that is queued -/

/-- What an operation leaves. -/
structure Right (x y : Held) : Prop where
  queued : Queued y.pde
  keeps : Keeps x y

theorem window_checked (newest : x.pde.pulses.Pairwise fun newer older => older.ts ≤ newer.ts)
    (count : x.pde.count = x.pde.pulses.length) :
    Shrunk x x.pulseQueueCheckWindow ∧ (2 ≤ x.pulseQueueCheckWindow.pde.pulses.length →
      ∀ p ∈ x.pulseQueueCheckWindow.pde.pulses, x.pde.lastTs.toNat ≤ p.ts.toNat + x.pde.windowSize.toNat) := by
  have size : (x.pde.windowSize.setWidth 64).toNat = x.pde.windowSize.toNat := by
    rw [BitVec.toNat_setWidth]
    have := x.pde.windowSize.isLt
    omega
  unfold Held.pulseQueueCheckWindow
  split
  case isTrue few => exact ⟨.refl x, fun two => by omega⟩
  case isFalse =>
    split
    case isTrue early =>
      refine ⟨.refl x, fun _ p _ => ?_⟩
      rw [BitVec.le_def, size] at early
      omega
    case isFalse late =>
      refine ⟨shrunk_checkLoop _ _ x, fun _ p member => ?_⟩
      have inside := checkLoop_le newest le_rfl p member
      rw [BitVec.not_le] at late
      rw [BitVec.le_def, BitVec.toNat_sub_of_le (BitVec.le_of_lt late), size] at inside
      omega

theorem right_enqueue (queued : Queued x.pde) (older : ∀ p ∈ x.pde.pulses, p.ts ≤ ts) (elem : Bool) :
    Right x (x.pulseQueueEnqueue ts elem) := by
  unfold Held.pulseQueueEnqueue
  split
  case h_1 => exact ⟨queued, .refl x⟩
  case h_2 id y got =>
    obtain ⟨same, taken⟩ := getPulseElem_accounted got
    rw [← same] at queued older
    unfold Held.enqueueElem
    dsimp only
    generalize added : ({ y with pde := { y.pde with
      pulses := ⟨id, ts⟩ :: y.pde.pulses
      count := y.pde.count + 1
      lastTs := ts } } : Held) = z
    have keeps : Keeps x z := by
      intro pulses pseqs acc
      rw [← added]
      have acc := taken _ _ acc
      unfold Pde.pulseIds Pde.pseqIds at acc ⊢
      rw [← same] at acc
      exact acc
    have newest : z.pde.pulses.Pairwise fun newer older => older.ts ≤ newer.ts := by
      rw [← added]
      exact List.pairwise_cons.mpr ⟨older, queued.newest⟩
    have count : z.pde.count = z.pde.pulses.length := by
      rw [← added]
      exact congrArg (· + 1) queued.count
    have last : ∀ p ∈ z.pde.pulses, p.ts ≤ z.pde.lastTs := by
      rw [← added]
      exact List.forall_mem_cons.mpr ⟨BitVec.le_refl ts, older⟩
    have most : z.pde.count ≤ z.pde.maxCount := by
      rw [← added]
      exact queued.below
    obtain ⟨shrunk, window⟩ := window_checked newest count
    generalize z.pulseQueueCheckWindow = w at shrunk window
    have counted := shrunk.count count
    have fewer := shrunk.part.length_le
    have ends {w' : Held} (out : Shrunk w w') (below : w'.pde.count < z.pde.maxCount) : Right x w' := by
      have whole := shrunk.trans out
      obtain ⟨_, _, fields⟩ := whole.same
      refine ⟨⟨newest.sublist whole.part.sublist, whole.count count, ?_, fun two p member => ?_⟩,
        keeps.trans whole.keeps⟩
      · have max : w'.pde.maxCount = z.pde.maxCount := by rw [fields]
        rw [max]
        exact below
      · have stamp : w'.pde.lastTs = z.pde.lastTs := by rw [fields]
        have size : w'.pde.windowSize = z.pde.windowSize := by rw [fields]
        rw [stamp, size]
        exact ⟨last p (whole.part.subset member), window (two.trans out.part.length_le) p (out.part.subset member)⟩
    have max : w.pde.maxCount = z.pde.maxCount := by
      obtain ⟨_, _, fields⟩ := shrunk.same
      rw [fields]
    rw [max]
    split
    case isFalse below => exact ends (.refl w) (not_le.mp below)
    case isTrue full =>
      -- there is one at least, which is taken out
      refine ends (shrunk_dequeue w) ?_
      have total : 0 < z.pde.maxCount := by
        rw [← added]
        exact Nat.zero_lt_of_lt queued.below
      have some_ : w.pde.pulses ≠ [] := List.length_pos_iff.mp (by omega)
      obtain ⟨p, there⟩ := Option.isSome_iff_exists.mp (List.getLast?_isSome.mpr some_)
      unfold Held.pulseQueueDequeue
      rw [there]
      show w.pde.count - 1 < _
      omega

theorem given_back (pool ids others : List ℕ) : (pool ++ (ids ++ others)).Perm (ids.reverse ++ pool ++ others) := by
  refine List.perm_iff_count.mpr fun a => ?_
  simp only [List.count_append, List.count_reverse]
  omega

theorem right_reset (queued : Queued x.pde) (ts : Ts) : Right x (x.priDetectorReset ts) where
  queued := ⟨.nil, rfl, Nat.zero_lt_of_lt queued.below, fun two => (Nat.not_succ_le_zero 1 two).elim⟩
  keeps pulses pseqs acc := by
    refine ⟨acc.pulses.moved (given_back _ _ _), acc.pseqs.moved ?_⟩
    unfold Held.priDetectorReset
    dsimp only
    rw [List.map_append, List.map_reverse]
    exact given_back _ _ _

/-! ### A pulse that is added -/

theorem Right.after (second : Right y z) (first : Keeps x y) : Right x z := ⟨second.queued, first.trans second.keeps⟩

theorem addToExistingSeqs_accounted (rs : RadarDetectorSpecs) (sequences : List PseqElem) (maxCount : ℕ)
    (acc : Accounted h pulses (sequences.map PseqElem.id ++ pseqs)) :
    Accounted (addToExistingSeqs rs ts sequences h maxCount).2.1 pulses
      ((addToExistingSeqs rs ts sequences h maxCount).1.map PseqElem.id ++ pseqs) := by
  induction sequences generalizing h maxCount pseqs with
  | nil => exact acc
  | cons e rest ih =>
    unfold addToExistingSeqs
    split
    case isTrue => exact ih maxCount ⟨acc.pulses, acc.pseqs.moved perm_middle⟩
    case isFalse =>
      have later := acc.perm (.refl _) (@perm_middle _ e.id (rest.map PseqElem.id) pseqs).symm
      exact (ih _ later).perm (.refl _) perm_middle

theorem createLoop_accounted (rs : RadarDetectorSpecs) (junk : PriSequence) (minCount idx room : ℕ)
    (queue : List PulseElem) (sequences : List PseqElem)
    (acc : Accounted h pulses (sequences.map PseqElem.id ++ pseqs)) :
    Accounted (createLoop rs junk ts minCount idx queue h room sequences).2.1 pulses
      ((createLoop rs junk ts minCount idx queue h room sequences).2.2.map PseqElem.id ++ pseqs) := by
  induction queue generalizing h idx room sequences with
  | nil => exact acc
  | cons p rest ih =>
    unfold createLoop
    dsimp only
    split
    case isTrue => exact ih (idx + 1) room sequences acc
    case isFalse =>
      split
      case isTrue => exact acc
      case isFalse =>
        split
        case isTrue => exact ih (idx + 1) room sequences acc
        case isFalse =>
          split
          case h_1 => exact acc
          case h_2 e h' room' got =>
            have taken := poolGetPseqElem_accounted got acc
            exact ih (idx + 1) room' _ taken

theorem right_short (queued : Queued x.pde) (older : ∀ p ∈ x.pde.pulses, p.ts ≤ ts) (mem : Memory) :
    Right x (x.pdeShortAddPulse ts mem).1 := by
  unfold Held.pdeShortAddPulse
  split
  case isTrue => exact right_enqueue queued older mem.elem
  case isFalse =>
    split
    case isTrue => exact ⟨queued, .refl x⟩
    case isFalse =>
      dsimp only
      generalize made : ({ pools := _, pde := _ } : Held) = y
      have keeps : Keeps x y := by
        intro pulses pseqs acc
        rw [← made]
        exact createLoop_accounted _ _ _ _ _ _ _ (addToExistingSeqs_accounted _ _ _ acc)
      have queue : Queued y.pde ∧ ∀ p ∈ y.pde.pulses, p.ts ≤ ts := by
        rw [← made]
        exact ⟨⟨queued.newest, queued.count, queued.below, queued.window⟩, older⟩
      split
      case isFalse => exact (right_reset queue.1 ts).after keeps
      case isTrue =>
        split
        · exact (right_enqueue queue.1 queue.2 mem.elem).after keeps
        · exact ⟨queue.1, keeps⟩

theorem keeps_withSequences (sequences : List PseqElem) (same : sequences.map PseqElem.id = x.pde.pseqIds) :
    Keeps x (x.withSequences sequences) := by
  intro pulses pseqs acc
  unfold Held.withSequences
  unfold Pde.pseqIds at same ⊢
  dsimp only
  rw [same]
  exact acc

section

variable (queued : Queued x.pde)

include queued

theorem right_withSequences (sequences : List PseqElem)
    (same : sequences.map PseqElem.id = x.pde.pseqIds) : Right x (x.withSequences sequences) :=
  ⟨⟨queued.newest, queued.count, queued.below, queued.window⟩, keeps_withSequences sequences same⟩

section

variable (older : ∀ p ∈ x.pde.pulses, p.ts ≤ ts)

include older

theorem right_newBurst {e : PseqElem}
    {rest : List PseqElem} (same : (e :: rest).map PseqElem.id = x.pde.pseqIds) (delta : BitVec 32) (elem : Bool) :
    Right x (x.newBurst e rest ts delta elem).1 := by
  unfold Held.newBurst
  dsimp only
  generalize expired : (if e.seq.deadlineTs < ts then _ else _ : Held × PriSequence) = r
  have shrunk : Shrunk x r.1 := by
    rw [← expired]
    split
    case isTrue => exact shrunk_expireLoop _ _ _ _
    case isFalse => exact .refl x
  obtain ⟨_, _, fields⟩ := shrunk.same
  have ids (seq : PriSequence) : (PseqElem.mk e.id seq :: rest).map PseqElem.id = r.1.pde.pseqIds := by
    unfold Pde.pseqIds
    rw [fields]
    exact same
  have after := queued.shrunk shrunk
  split
  case isTrue => exact (right_withSequences after _ (ids _)).after shrunk.keeps
  case isFalse =>
    have changed := right_withSequences after _ (ids { r.2 with dur := delta })
    exact (right_enqueue changed.queued (fun p member => older p (shrunk.part.subset member)) elem).after
      (shrunk.keeps.trans changed.keeps)

theorem right_long (mem : Memory) : Right x (x.pdeLongAddPulse ts mem).1 := by
  unfold Held.pdeLongAddPulse
  split
  case h_1 none =>
    split
    case h_1 => exact ⟨queued, .refl x⟩
    case h_2 e h' _ got =>
      dsimp only
      generalize made : Held.withSequences _ _ = y
      have keeps : Keeps x y := by
        intro pulses pseqs acc
        unfold Pde.pseqIds at acc
        rw [none] at acc
        rw [← made]
        have taken := poolGetPseqElem_accounted got acc
        exact taken
      have queue : Queued y.pde ∧ ∀ p ∈ y.pde.pulses, p.ts ≤ ts := by
        rw [← made]
        exact ⟨⟨queued.newest, queued.count, queued.below, queued.window⟩, older⟩
      exact (right_enqueue queue.1 queue.2 mem.elem).after keeps
  case h_2 e rest some_ =>
    have ids (seq : PriSequence) : (PseqElem.mk e.id seq :: rest).map PseqElem.id = x.pde.pseqIds := by
      unfold Pde.pseqIds
      rw [some_]
      rfl
    dsimp only
    split_ifs
    · exact right_withSequences queued _ (ids _)
    · exact right_withSequences queued _ (ids _)
    · exact right_withSequences queued _ (ids _)
    · exact right_newBurst queued older (ids _) _ _

theorem right_add (mem : Memory) : Right x (x.addPulse ts mem).1 := by
  unfold Held.addPulse
  split
  case isTrue => exact right_long queued older mem
  case isFalse => exact right_short queued older mem

end

end

end Accounts

end W2l.RadarPool
