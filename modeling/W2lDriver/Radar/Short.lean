/-
**Short-pulse radar detection: the pulse queue and the sequences.**

`aml_radar.c`. A detector for SHORT, WEATHER or INTERLEAVED patterns keeps the pulses of the last
burst, newest first, and sequences of pulses with one interval. A new pulse extends the sequences it
fits, and every past pulse at a distance that is an interval makes a new sequence of past pulses.

* `PriDetector` — `struct pri_detector`; `PriSequence` — `struct pri_sequence`.
* `pulseQueueEnqueue`, `pdeShortCreateSequences`, `pdeShortAddToExistingSeqs`,
  `pdeShortCheckDetection`, `pdeShortAddPulse` — the functions.
* `Chain` — the pulses of a sequence.
* `pdeShortAddPulse_kept` — **what a pulse leaves of a detector, and what is returned**.
-/

import Mathlib.Data.List.Chain
import W2lDriver.Radar.Spec

namespace W2l.Radar

open BitVec (le_def toNat_add toNat_mul toNat_setWidth toNat_sub_of_le)
open List (mem_cons mem_cons_of_mem mem_cons_self not_mem_nil pairwise_cons)
open Option (getD_none getD_some some.inj)

/-- A time stamp in microseconds. -/
abbrev Ts := BitVec 64

/-- `struct pri_sequence`. `count` and `countFalses` are far below 2^32: a sequence lives for less than
2^24 microseconds. -/
@[ext] structure PriSequence where
  pri : BitVec 32
  dur : BitVec 32
  count : Nat
  countFalses : Nat
  firstTs : Ts
  lastTs : Ts
  deadlineTs : Ts := 0
  ppbThresh : BitVec 8 := 0
  deriving DecidableEq

/-- `struct pri_detector`; both lists have the newest element first. -/
structure PriDetector where
  rs : RadarDetectorSpecs
  lastTs : Ts := 0
  sequences : List PriSequence := []
  pulses : List Ts := []
  count : Nat := 0
  maxCount : Nat
  windowSize : BitVec 32

/-- `pri_detector_init` with `pde_short_init`. -/
def priDetectorInit (rs : RadarDetectorSpecs) : PriDetector where
  rs := rs
  windowSize := rs.priMax.setWidth 32 * rs.ppb.setWidth 32 * rs.numPri.setWidth 32
  maxCount := rs.ppb.toNat * 2

namespace PriDetector

/-! ### The pulse queue -/

/-- `pulse_queue_dequeue`: the oldest pulse. -/
def pulseQueueDequeue (d : PriDetector) : PriDetector :=
  if d.pulses = [] then d
  else { d with
    pulses := d.pulses.dropLast
    count := d.count - 1 }

/-- The loop of `pulse_queue_check_window`. -/
def checkLoop (minValidTs : Ts) : Nat → PriDetector → PriDetector
  | 0, d => d
  | rounds + 1, d =>
    match d.pulses.getLast? with
    | none => d
    | some p => if minValidTs ≤ p then d else checkLoop minValidTs rounds d.pulseQueueDequeue

def pulseQueueCheckWindow (d : PriDetector) : PriDetector :=
  if d.count < 2 then d
  else if d.lastTs ≤ d.windowSize.setWidth 64 then d
  else checkLoop (d.lastTs - d.windowSize.setWidth 64) d.pulses.length d

/-- `pulse_queue_enqueue`, if there is a `pulse_elem`. -/
def pulseQueueEnqueue (d : PriDetector) (ts : Ts) (elem : Bool) : PriDetector :=
  if elem then
    let d := { d with
      pulses := ts :: d.pulses
      count := d.count + 1
      lastTs := ts }
    let d := d.pulseQueueCheckWindow
    if d.maxCount ≤ d.count then d.pulseQueueDequeue else d
  else d

def priDetectorReset (d : PriDetector) (ts : Ts) : PriDetector :=
  { d with
    sequences := []
    pulses := []
    count := 0
    lastTs := ts }

end PriDetector

/-! ### Sequences -/

section Sequences

variable (rs : RadarDetectorSpecs)

/-- `rs->max_pri_tolerance`, as it is passed on. -/
def tolerance : BitVec 32 := rs.maxPriTolerance.setWidth 32

/-- The loop over the pulses that are older than the one that gives the interval. -/
def matchBack (minValidTs : Ts) : List Ts → PriSequence → Nat → PriSequence
  | [], ps, _ => ps
  | p₂ :: rest, ps, tmpFalseCount =>
    if p₂ < minValidTs then ps
    else if pdeGetMultiple ((ps.lastTs - p₂).setWidth 32) ps.pri (tolerance rs) = 0 then
      matchBack minValidTs rest ps (tmpFalseCount + 1)
    else
      matchBack minValidTs rest
        { ps with
          count := ps.count + 1
          firstTs := p₂
          countFalses := ps.countFalses + tmpFalseCount } 0

/-- The sequence of the pulse at `ts` and the one at `p`, which is that far in the queue. -/
def pairSequence (ts p : Ts) (pulseIdx : Nat) : PriSequence where
  pri := (ts - p).setWidth 32
  dur := (ts - p).setWidth 32 * (rs.ppb.setWidth 32 - 1) + 2 * tolerance rs
  count := 2
  countFalses := pulseIdx - 1
  firstTs := p
  lastTs := ts

/-- The sequence with the past pulses that match, `rest` being older than `p`. -/
def pastSequence (ts p : Ts) (rest : List Ts) (pulseIdx : Nat) : PriSequence :=
  let ps := pairSequence rs ts p pulseIdx
  let dur : Ts := ps.dur.setWidth 64
  matchBack rs (if ts < dur then 0 else ts - dur) rest ps 0

/-- The end of a round of `pde_short_create_sequences`. -/
def validSequence (ps : PriSequence) : PriSequence :=
  { ps with
    deadlineTs := ps.firstTs + ps.dur.setWidth 64
    ppbThresh := seqThresh rs ps.pri }

/-- The loop of `pde_short_create_sequences`, from a place in the queue on, with `room` `pri_sequence`
to be had. Without room there is no result. -/
def createLoop (ts : Ts) (minCount : Nat) : Nat → List Ts → Nat → List PriSequence → Option (List PriSequence)
  | _, [], _, sequences => some sequences
  | pulseIdx, p :: rest, room, sequences =>
    let deltaTs : BitVec 32 := (ts - p).setWidth 32
    if deltaTs < rs.priMin.setWidth 32 then createLoop ts minCount (pulseIdx + 1) rest room sequences
    else if rs.priMax.setWidth 32 < deltaTs then some sequences
    else
      let ps := pastSequence rs ts p rest (pulseIdx + 1)
      if ps.count ≤ minCount then createLoop ts minCount (pulseIdx + 1) rest room sequences
      else
        match room with
        | 0 => none
        | room + 1 =>
          createLoop ts minCount (pulseIdx + 1) rest room (validSequence rs ps :: sequences)

/-- A round of `pde_short_add_to_existing_seqs`, for a sequence that is not deleted. -/
def extend (ts : Ts) (ps : PriSequence) : PriSequence :=
  if pdeGetMultiple ((ts - ps.lastTs).setWidth 32) ps.pri (tolerance rs) = 0 then
    { ps with countFalses := ps.countFalses + 1 }
  else
    { ps with
      lastTs := ts
      count := ps.count + 1 }

def pdeShortAddToExistingSeqs (ts : Ts) : List PriSequence → Nat → List PriSequence × Nat
  | [], maxCount => ([], maxCount)
  | ps :: rest, maxCount =>
    if ps.deadlineTs < ts then pdeShortAddToExistingSeqs ts rest maxCount
    else
      let maxCount :=
        if pdeGetMultiple ((ts - ps.lastTs).setWidth 32) ps.pri (tolerance rs) = 0 then maxCount
        else max maxCount (ps.count + 1)
      let r := pdeShortAddToExistingSeqs ts rest maxCount
      (extend rs ts ps :: r.1, r.2)

/-- The test of `pde_short_check_detection`. -/
def complete (ps : PriSequence) : Bool :=
  ps.ppbThresh.toNat ≤ ps.count && ps.countFalses < ps.count * rs.numPri.toNat

def pdeShortCheckDetection (sequences : List PriSequence) : Option PriSequence :=
  sequences.find? (complete rs)

end Sequences

/-- What `pde_short_add_pulse` leaves and returns. -/
structure Added where
  pde : PriDetector
  found : Option PriSequence := none
  /-- There was no `pri_sequence`, and the detector was reset. -/
  reset : Bool := false

/-- `pde_short_add_pulse`; `room` and `elem` say what memory there is. -/
def pdeShortAddPulse (d : PriDetector) (ts : Ts) (room : Nat) (elem : Bool) : Added :=
  if d.count = 0 then { pde := d.pulseQueueEnqueue ts elem }
  else if ts - d.lastTs < d.rs.maxPriTolerance.setWidth 64 then { pde := d }
  else
    let updated := pdeShortAddToExistingSeqs d.rs ts d.sequences 0
    match createLoop d.rs ts updated.2 0 d.pulses room updated.1 with
    | none => { pde := d.priDetectorReset ts, reset := true }
    | some sequences =>
      let d := { d with sequences := sequences }
      match pdeShortCheckDetection d.rs sequences with
      | none => { pde := d.pulseQueueEnqueue ts elem }
      | some ps => { pde := d, found := some ps }

/-! ### The pulses of a sequence -/

def Ordered (fed : List Ts) : Prop := fed.Pairwise fun newer older => older ≤ newer

variable {rs : RadarDetectorSpecs} {fed : List Ts} {ts : Ts} {ps : PriSequence}

theorem Ordered.head_le {p : Ts} (ordered : Ordered (ts :: fed)) (member : p ∈ fed) :
    p.toNat ≤ ts.toNat := le_def.mp ((pairwise_cons.mp ordered).1 p member)

theorem Ordered.last_le {last p : Ts} (ordered : Ordered fed) (oldest : fed.getLast? = some last)
    (member : p ∈ fed) : last.toNat ≤ p.toNat := by
  induction fed with
  | nil => cases oldest
  | cons q rest ih =>
    obtain _ | ⟨q', rest⟩ := rest
    · obtain rfl : q = last := some.inj oldest
      rw [List.mem_singleton.mp member]
    · have behind : (q' :: rest).getLast? = some last := by rwa [List.getLast?_cons_cons] at oldest
      have later := ih (pairwise_cons.mp ordered).2 behind
      rcases mem_cons.mp member with rfl | older
      · exact ordered.head_le (List.mem_of_getLast? behind)
      · exact later older

/-- What a sequence has from its first two pulses on. -/
structure Shape (rs : RadarDetectorSpecs) (ps : PriSequence) : Prop where
  low : rs.priMin.toNat ≤ ps.pri.toNat
  high : ps.pri.toNat ≤ rs.priMax.toNat
  dur : ps.dur.toNat = ps.pri.toNat * (rs.ppb.toNat - 1) + 2 * rs.maxPriTolerance.toNat
  deadline : ps.deadlineTs = ps.firstTs + ps.dur.setWidth 64
  thresh : ps.ppbThresh = seqThresh rs ps.pri

/-- **The pulses of a sequence**, newest first: those behind the one that created it, that one, and
those in front of it. -/
structure Chain (rs : RadarDetectorSpecs) (ps : PriSequence) (later : List Ts) (creator : Ts)
    (earlier : List Ts) : Prop where
  backward : ∀ p ∈ earlier, Near rs.maxPriTolerance.toNat ps.pri.toNat (creator.toNat - p.toNat)
  forward : (later ++ [creator]).IsChain fun newer older =>
    Near rs.maxPriTolerance.toNat ps.pri.toNat (newer.toNat - older.toNat)
  count : (later ++ creator :: earlier).length = ps.count
  newest : (later ++ [creator]).head? = some ps.lastTs
  oldest : (creator :: earlier).getLast? = some ps.firstTs
  inside : ps.lastTs.toNat ≤ ps.firstTs.toNat + ps.dur.toNat

/-- The pulses of a sequence are among those fed. -/
def Chained (rs : RadarDetectorSpecs) (fed : List Ts) (ps : PriSequence) : Prop :=
  ∃ later creator earlier, (later ++ creator :: earlier).Sublist fed ∧ Chain rs ps later creator earlier

/-- Two pulses with 2^32 microseconds between them, which the new pulse deletes. -/
def Stale (fed : List Ts) (ps : PriSequence) : Prop :=
  ps.count = 2 ∧ ∃ newest, fed.head? = some newest ∧ ps.deadlineTs.toNat < newest.toNat

/-- What holds of a sequence of a detector. -/
structure Kept (rs : RadarDetectorSpecs) (fed : List Ts) (ps : PriSequence) : Prop where
  shape : Shape rs ps
  pulses : Chained rs fed ps ∨ Stale fed ps

theorem toNat_tolerance (rs : RadarDetectorSpecs) : (tolerance rs).toNat = rs.maxPriTolerance.toNat := by
  rw [tolerance, toNat_setWidth]
  have := rs.maxPriTolerance.isLt
  omega

theorem toNat_delta {p : Ts} (older : p.toNat ≤ ts.toNat) (near : ts.toNat - p.toNat < 2 ^ 32) :
    ((ts - p).setWidth 32).toNat = ts.toNat - p.toNat := by
  rw [toNat_setWidth, toNat_sub_of_le (le_def.mpr older), Nat.mod_eq_of_lt near]

theorem Kept.mono (kept : Kept rs fed ps) (ordered : Ordered (ts :: fed)) : Kept rs (ts :: fed) ps := by
  obtain ⟨shape, ⟨later, creator, earlier, sub, chain⟩ | ⟨two, newest, head, past⟩⟩ := kept
  · exact ⟨shape, .inl ⟨later, creator, earlier, sub.cons ts, chain⟩⟩
  · have behind := ordered.head_le (List.mem_of_mem_head? head)
    exact ⟨shape, .inr ⟨two, ts, rfl, by omega⟩⟩

theorem Kept.extend (kept : Kept rs fed ps) (ordered : Ordered (ts :: fed)) (inTime : ¬ ps.deadlineTs < ts) :
    Kept rs (ts :: fed) (extend rs ts ps) := by
  unfold Radar.extend
  split
  case isTrue unmatched =>
    obtain ⟨shape, pulses⟩ := kept.mono ordered
    refine ⟨⟨shape.low, shape.high, shape.dur, shape.deadline, shape.thresh⟩, pulses.imp ?_ ?_⟩
    · rintro ⟨later, creator, earlier, sub, chain⟩
      exact ⟨later, creator, earlier, sub, chain.backward, chain.forward, chain.count, chain.newest,
        chain.oldest, chain.inside⟩
    · exact fun stale => stale
  case isFalse matched =>
    obtain ⟨shape, ⟨later, creator, earlier, sub, chain⟩ | ⟨two, newest, head, past⟩⟩ := kept
    swap
    · have behind := ordered.head_le (List.mem_of_mem_head? head)
      rw [BitVec.not_lt, le_def] at inTime
      exact absurd past (by omega)
    refine ⟨⟨shape.low, shape.high, shape.dur, shape.deadline, shape.thresh⟩, .inl ?_⟩
    have first : ps.firstTs ∈ fed := sub.subset (List.mem_append_right later (List.mem_of_getLast? chain.oldest))
    have last : ps.lastTs ∈ fed := by
      refine sub.subset ?_
      rw [List.append_cons]
      exact List.mem_append_left earlier (List.mem_of_mem_head? chain.newest)
    have firstBehind := ordered.head_le first
    have lastBehind := ordered.head_le last
    have span := (pairwise_cons.mp ordered).2
    -- The deadline is in front of the first pulse if it does not fit 64 bits.
    have upTo : ts.toNat ≤ ps.firstTs.toNat + ps.dur.toNat := by
      rw [BitVec.not_lt, le_def, shape.deadline, toNat_add, toNat_setWidth] at inTime
      have short := ps.dur.isLt
      have width := ps.firstTs.isLt
      omega
    have older : ps.firstTs.toNat ≤ ps.lastTs.toNat := by
      have whole : Ordered (later ++ creator :: earlier) :=
        List.Pairwise.sublist sub span
      refine whole.last_le ?_ ?_
      · rw [List.getLast?_append_of_ne_nil _ (List.cons_ne_nil _ _)]
        exact chain.oldest
      · rw [List.append_cons]
        exact List.mem_append_left earlier (List.mem_of_mem_head? chain.newest)
    have short := ps.dur.isLt
    have near := pdeGetMultiple_near matched
    rw [toNat_tolerance, toNat_delta lastBehind (by omega)] at near
    refine ⟨ts :: later, creator, earlier, sub.cons_cons ts, chain.backward, ?_, ?_, rfl, chain.oldest, upTo⟩
    · rw [List.cons_append, List.isChain_cons]
      refine ⟨fun y head => ?_, chain.forward⟩
      rw [chain.newest] at head
      obtain rfl := some.inj head
      exact near
    · rw [List.cons_append, List.length_cons, chain.count]

/-! ### A new sequence -/

/-- What the past pulses that match leave of a sequence. -/
structure Back (ps : PriSequence) (matched : List Ts) (ps' : PriSequence) : Prop where
  pri : ps'.pri = ps.pri
  dur : ps'.dur = ps.dur
  lastTs : ps'.lastTs = ps.lastTs
  count : ps'.count = ps.count + matched.length
  firstTs : ps'.firstTs = matched.getLast?.getD ps.firstTs

theorem matchBack_spec (rs : RadarDetectorSpecs) (minValid : Ts) {rest : List Ts} (tmp : Nat)
    (older : ∀ p ∈ rest, p.toNat ≤ ps.lastTs.toNat)
    (near : ps.lastTs.toNat - minValid.toNat < 2 ^ 32) :
    ∃ matched : List Ts, matched.Sublist rest ∧ Back ps matched (matchBack rs minValid rest ps tmp) ∧
      ∀ p ∈ matched, minValid.toNat ≤ p.toNat ∧
        Near rs.maxPriTolerance.toNat ps.pri.toNat (ps.lastTs.toNat - p.toNat) := by
  induction rest generalizing ps tmp with
  | nil => exact ⟨[], .slnil, ⟨rfl, rfl, rfl, rfl, rfl⟩, fun p member => absurd member not_mem_nil⟩
  | cons p rest ih =>
    have olderRest : ∀ q ∈ rest, q.toNat ≤ ps.lastTs.toNat := fun q member =>
      older q (mem_cons_of_mem p member)
    rw [matchBack]
    by_cases past : p < minValid
    · rw [if_pos past]
      exact ⟨[], List.nil_sublist _, ⟨rfl, rfl, rfl, rfl, rfl⟩, fun p member => absurd member not_mem_nil⟩
    rw [if_neg past]
    by_cases unmatched : pdeGetMultiple ((ps.lastTs - p).setWidth 32) ps.pri (tolerance rs) = 0
    · rw [if_pos unmatched]
      obtain ⟨matched, sub, back, good⟩ := ih (tmp + 1) olderRest near
      exact ⟨matched, sub.cons p, back, good⟩
    · rw [if_neg unmatched]
      obtain ⟨matched, sub, ⟨pri, dur, lastTs, count, firstTs⟩, good⟩ := @ih { ps with
          count := ps.count + 1
          firstTs := p
          countFalses := ps.countFalses + tmp } 0 olderRest near
      have behind := older p mem_cons_self
      rw [BitVec.not_lt, le_def] at past
      have multiple := pdeGetMultiple_near unmatched
      rw [toNat_tolerance, toNat_delta behind (by omega)] at multiple
      refine ⟨p :: matched, sub.cons_cons p, ⟨pri, dur, lastTs, ?_, ?_⟩, fun q member => ?_⟩
      · refine count.trans ?_
        rw [List.length_cons]
        show ps.count + 1 + matched.length = _
        omega
      · rw [firstTs, List.getLast?_cons, getD_some]
      · rcases mem_cons.mp member with rfl | later
        · exact ⟨past, multiple⟩
        · exact good q later

theorem toNat_dur (usable : Usable rs) {pri : BitVec 32} (high : pri.toNat ≤ rs.priMax.toNat) :
    (pri * (rs.ppb.setWidth 32 - 1) + 2 * tolerance rs).toNat =
      pri.toNat * (rs.ppb.toNat - 1) + 2 * rs.maxPriTolerance.toNat := by
  have two := usable.ppb
  have ppb : (rs.ppb.setWidth 32 - 1).toNat = rs.ppb.toNat - 1 := by
    have width := rs.ppb.isLt
    rw [toNat_sub_of_le, toNat_setWidth]
    · show rs.ppb.toNat % 4294967296 - 1 = _
      omega
    · rw [le_def, toNat_setWidth]
      show 1 ≤ rs.ppb.toNat % 4294967296
      omega
  have product : pri.toNat * (rs.ppb.toNat - 1) ≤ 65535 * 255 :=
    Nat.mul_le_mul (by have := rs.priMax.isLt; omega) (by have := rs.ppb.isLt; omega)
  have width := rs.maxPriTolerance.isLt
  rw [toNat_add, toNat_mul, toNat_mul, ppb, toNat_tolerance]
  show (pri.toNat * (rs.ppb.toNat - 1) % 4294967296 + 2 * rs.maxPriTolerance.toNat % 4294967296) %
    4294967296 = _
  omega

theorem window_spec (ts : Ts) (length : BitVec 32) :
    ts.toNat - (if ts < length.setWidth 64 then (0 : Ts) else ts - length.setWidth 64).toNat ≤ length.toNat ∧
      (length.toNat ≤ ts.toNat → (if ts < length.setWidth 64 then (0 : Ts) else ts - length.setWidth 64).toNat =
          ts.toNat - length.toNat) := by
  have short := length.isLt
  have wide : (length.setWidth 64).toNat = length.toNat := by
    rw [toNat_setWidth, Nat.mod_eq_of_lt (by omega)]
  split
  case isTrue early =>
    rw [BitVec.lt_def, wide] at early
    show ts.toNat - 0 ≤ _ ∧ (_ → 0 = _)
    omega
  case isFalse late =>
    rw [BitVec.not_lt, le_def, wide] at late
    rw [toNat_sub_of_le (by rw [le_def, wide]; exact late), wide]
    omega

/-- **A new sequence** is made of the new pulse and past ones. -/
theorem Kept.create (usable : Usable rs) {p : Ts} {rest : List Ts} (idx : Nat)
    (ordered : Ordered (ts :: fed)) (sub : (p :: rest).Sublist fed)
    (low : ¬ (ts - p).setWidth 32 < rs.priMin.setWidth 32)
    (high : ¬ rs.priMax.setWidth 32 < (ts - p).setWidth 32) :
    Kept rs (ts :: fed) (validSequence rs (pastSequence rs ts p rest idx)) ∧
      (validSequence rs (pastSequence rs ts p rest idx)).lastTs = ts := by
  have widen : ∀ w : BitVec 16, (w.setWidth 32).toNat = w.toNat := fun w => by
    have := w.isLt
    rw [toNat_setWidth, Nat.mod_eq_of_lt (by omega)]
  rw [BitVec.not_lt, le_def, widen] at low high
  have whole : Ordered (p :: rest) := List.Pairwise.sublist sub (pairwise_cons.mp ordered).2
  have pBehind := ordered.head_le (sub.subset mem_cons_self)
  have older : ∀ q ∈ rest, q.toNat ≤ ts.toNat := fun q member =>
    ordered.head_le (sub.subset (mem_cons_of_mem p member))
  obtain ⟨pair, pair_eq⟩ : ∃ pair, pair = pairSequence rs ts p idx := ⟨_, rfl⟩
  have lastTs : pair.lastTs = ts := by rw [pair_eq]; rfl
  have pri : pair.pri = (ts - p).setWidth 32 := by rw [pair_eq]; rfl
  have firstTs : pair.firstTs = p := by rw [pair_eq]; rfl
  have count : pair.count = 2 := by rw [pair_eq]; rfl
  have dur : pair.dur.toNat = pair.pri.toNat * (rs.ppb.toNat - 1) + 2 * rs.maxPriTolerance.toNat := by
    rw [pri, pair_eq]
    exact toNat_dur usable high
  rw [← pri] at low high
  obtain ⟨back', window⟩ := window_spec ts pair.dur
  have past : pastSequence rs ts p rest idx = matchBack rs
      (if ts < pair.dur.setWidth 64 then 0 else ts - pair.dur.setWidth 64) rest pair 0 := by
    rw [pair_eq]
    rfl
  generalize (if ts < pair.dur.setWidth 64 then (0 : Ts) else ts - pair.dur.setWidth 64) = minValid
    at back' window past
  have short := pair.dur.isLt
  obtain ⟨matched, matchedSub, back, good⟩ :=
    matchBack_spec rs minValid 0 (by rw [lastTs]; exact older) (by rw [lastTs]; omega)
  rw [past]
  generalize matchBack rs minValid rest pair 0 = ps at back
  rw [lastTs] at good
  have newest : ps.lastTs = ts := back.lastTs.trans lastTs
  have priSame : ps.pri = pair.pri := back.pri
  have durSame : ps.dur = pair.dur := back.dur
  have shape : Shape rs (validSequence rs ps) :=
    ⟨priSame ▸ low, priSame ▸ high, priSame ▸ durSame ▸ dur, rfl, rfl⟩
  refine ⟨⟨shape, ?_⟩, newest⟩
  by_cases near : ts.toNat - p.toNat < 2 ^ 32
  · -- The pulses are the new one, the one that gives the interval, and those that match.
    have interval : pair.pri.toNat = ts.toNat - p.toNat := by rw [pri, toNat_delta pBehind near]
    have upTo : ts.toNat ≤ ps.firstTs.toNat + pair.dur.toNat := by
      rw [back.firstTs]
      cases last : matched.getLast? with
      | none =>
        have two := usable.ppb
        have once : pair.pri.toNat ≤ pair.pri.toNat * (rs.ppb.toNat - 1) :=
          Nat.le_mul_of_pos_right _ (by omega)
        rw [getD_none, firstTs]
        omega
      | some first =>
        have inside := (good first (List.mem_of_getLast? last)).1
        rw [getD_some]
        omega
    refine .inl ⟨[], ts, p :: matched, (List.Sublist.cons_cons p matchedSub |>.trans sub).cons_cons ts, ?_⟩
    refine ⟨fun q member => ?_, .singleton ts, ?_, ?_, ?_, ?_⟩
    · show Near _ ps.pri.toNat _
      rw [priSame]
      rcases mem_cons.mp member with rfl | matches_
      · exact ⟨1, Nat.one_pos, by omega, by omega⟩
      · exact (good q matches_).2
    · refine Eq.trans ?_ back.count.symm
      rw [count]
      show matched.length + 1 + 1 = _
      omega
    · exact congrArg some newest.symm
    · show (ts :: p :: matched).getLast? = some ps.firstTs
      rw [List.getLast?_cons_cons, List.getLast?_cons, back.firstTs, firstTs]
    · show ps.lastTs.toNat ≤ ps.firstTs.toNat + ps.dur.toNat
      rw [newest, durSame]
      exact upTo
  · -- The interval is not the distance; nothing in front of it is in the window.
    have none : matched = [] := by
      refine List.eq_nil_iff_forall_not_mem.mpr fun q member => ?_
      have inside := (good q member).1
      have behind := whole.head_le (matchedSub.subset member)
      omega
    refine .inr ⟨?_, ts, rfl, ?_⟩
    · refine back.count.trans ?_
      rw [count, none]
      rfl
    · show (ps.firstTs + ps.dur.setWidth 64).toNat < _
      have width := ts.isLt
      rw [back.firstTs, none, durSame, List.getLast?_nil, getD_none, firstTs, toNat_add, toNat_setWidth]
      omega

/-! ### A pulse -/

theorem createLoop_spec {P : PriSequence → Prop} {minCount room : Nat} {pulses : List Ts} (idx : Nat)
    {sequences out : List PriSequence}
    (fresh : ∀ p rest idx, (p :: rest).Sublist pulses →
      ¬ (ts - p).setWidth 32 < rs.priMin.setWidth 32 → ¬ rs.priMax.setWidth 32 < (ts - p).setWidth 32 →
      P (validSequence rs (pastSequence rs ts p rest idx)))
    (old : ∀ ps ∈ sequences, P ps)
    (made : createLoop rs ts minCount idx pulses room sequences = some out) : ∀ ps ∈ out, P ps := by
  induction pulses generalizing idx room sequences with
  | nil =>
    obtain rfl := some.inj made
    exact old
  | cons p rest ih =>
    have freshRest : ∀ q rest' idx, (q :: rest').Sublist rest → _ → _ → _ := fun q rest' idx sub =>
      fresh q rest' idx (sub.cons p)
    simp only [createLoop] at made
    by_cases small : (ts - p).setWidth 32 < rs.priMin.setWidth 32
    · rw [if_pos small] at made
      exact ih (idx + 1) freshRest old made
    rw [if_neg small] at made
    by_cases large : rs.priMax.setWidth 32 < (ts - p).setWidth 32
    · rw [if_pos large] at made
      obtain rfl := some.inj made
      exact old
    rw [if_neg large] at made
    split at made
    · exact ih (idx + 1) freshRest old made
    · obtain _ | room := room
      · cases made
      · refine ih (idx + 1) freshRest (fun ps member => ?_) made
        rcases mem_cons.mp member with rfl | before
        · exact fresh p rest (idx + 1) (List.Sublist.refl _) small large
        · exact old ps before

theorem mem_pdeShortAddToExistingSeqs {sequences : List PriSequence} {maxCount : Nat}
    (member : ps ∈ (pdeShortAddToExistingSeqs rs ts sequences maxCount).1) :
    ∃ old ∈ sequences, ¬ old.deadlineTs < ts ∧ ps = extend rs ts old := by
  induction sequences generalizing maxCount with
  | nil => exact absurd member not_mem_nil
  | cons old rest ih =>
    rw [pdeShortAddToExistingSeqs] at member
    by_cases past : old.deadlineTs < ts
    · rw [if_pos past] at member
      obtain ⟨old', inRest, kept⟩ := ih member
      exact ⟨old', mem_cons_of_mem old inRest, kept⟩
    · rw [if_neg past] at member
      rcases mem_cons.mp member with rfl | later
      · exact ⟨old, mem_cons_self, past, rfl⟩
      · obtain ⟨old', inRest, kept⟩ := ih later
        exact ⟨old', mem_cons_of_mem old inRest, kept⟩

namespace PriDetector

variable {d : PriDetector}

/-- What a step of the queue leaves: the pattern and the sequences, and some of the pulses. -/
structure Queued (d d' : PriDetector) (pulses : List Ts) : Prop where
  rs : d'.rs = d.rs
  sequences : d'.sequences = d.sequences
  pulses : d'.pulses.Sublist pulses

theorem Queued.trans {d' d'' : PriDetector} {pulses : List Ts} (first : Queued d d' pulses)
    (second : Queued d' d'' d'.pulses) : Queued d d'' pulses :=
  ⟨second.rs.trans first.rs, second.sequences.trans first.sequences, second.pulses.trans first.pulses⟩

theorem pulseQueueDequeue_queued (d : PriDetector) : Queued d d.pulseQueueDequeue d.pulses := by
  unfold pulseQueueDequeue
  split
  · exact ⟨rfl, rfl, List.Sublist.refl _⟩
  · exact ⟨rfl, rfl, List.dropLast_sublist d.pulses⟩

theorem checkLoop_queued (minValidTs : Ts) (rounds : Nat) (d : PriDetector) :
    Queued d (checkLoop minValidTs rounds d) d.pulses := by
  induction rounds generalizing d with
  | zero => exact ⟨rfl, rfl, List.Sublist.refl _⟩
  | succ rounds ih =>
    unfold checkLoop
    split
    · exact ⟨rfl, rfl, List.Sublist.refl _⟩
    · split
      · exact ⟨rfl, rfl, List.Sublist.refl _⟩
      · exact (pulseQueueDequeue_queued d).trans (ih _)

theorem pulseQueueEnqueue_queued (d : PriDetector) (ts : Ts) (elem : Bool) :
    Queued d (d.pulseQueueEnqueue ts elem) (ts :: d.pulses) := by
  unfold pulseQueueEnqueue
  split
  · have window : Queued d (pulseQueueCheckWindow { d with
        pulses := ts :: d.pulses
        count := d.count + 1
        lastTs := ts }) (ts :: d.pulses) := by
      unfold pulseQueueCheckWindow
      split
      · exact ⟨rfl, rfl, List.Sublist.refl _⟩
      · split
        · exact ⟨rfl, rfl, List.Sublist.refl _⟩
        · obtain ⟨rs, sequences, pulses⟩ := checkLoop_queued (ts - d.windowSize.setWidth 64)
            (ts :: d.pulses).length { d with
              pulses := ts :: d.pulses
              count := d.count + 1
              lastTs := ts }
          exact ⟨rs, sequences, pulses⟩
    dsimp only
    split
    · exact window.trans (pulseQueueDequeue_queued _)
    · exact window
  · exact ⟨rfl, rfl, List.sublist_cons_self ts d.pulses⟩

end PriDetector

/-- **The invariant of a detector**: its queue and its sequences are made of the pulses fed; while no
sequence was returned, none is complete. -/
structure DetectorInv (rs : RadarDetectorSpecs) (fed : List Ts) (quiet : Bool) (d : PriDetector) : Prop where
  pattern : d.rs = rs
  ordered : Ordered fed
  pulses : d.pulses.Sublist fed
  sequences : ∀ ps ∈ d.sequences, Kept rs fed ps
  incomplete : quiet = true → ∀ ps ∈ d.sequences, complete rs ps = false

/-- **What a returned sequence is.** -/
structure Detected (rs : RadarDetectorSpecs) (fed : List Ts) (ps : PriSequence) : Prop where
  shape : Shape rs ps
  enough : ps.ppbThresh.toNat ≤ ps.count
  pulses : Chained rs fed ps

variable {d : PriDetector} {quiet : Bool}

theorem sequences_kept (usable : Usable rs) (inv : DetectorInv rs fed quiet d) (ordered : Ordered (ts :: fed))
    {room : Nat} {out : List PriSequence}
    (made : createLoop d.rs ts (pdeShortAddToExistingSeqs d.rs ts d.sequences 0).2 0 d.pulses room
      (pdeShortAddToExistingSeqs d.rs ts d.sequences 0).1 = some out) :
    ∀ ps ∈ out, Kept rs (ts :: fed) ps ∧ (quiet = true → complete rs ps = true → ps.lastTs = ts) := by
  obtain ⟨rfl, -, pulses, sequences, incomplete⟩ := inv
  refine createLoop_spec (P := fun ps => Kept d.rs (ts :: fed) ps ∧
    (quiet = true → complete d.rs ps = true → ps.lastTs = ts)) 0 ?_ ?_ made
  · intro p rest idx sub low high
    obtain ⟨kept, newest⟩ := Kept.create usable idx ordered (sub.trans pulses) low high
    exact ⟨kept, fun _ _ => newest⟩
  · intro ps member
    obtain ⟨old, before, inTime, rfl⟩ := mem_pdeShortAddToExistingSeqs member
    refine ⟨(sequences old before).extend ordered inTime, fun still done => ?_⟩
    unfold extend at done ⊢
    split
    case isTrue unmatched =>
      -- One more false pulse does not complete a sequence.
      have not_yet := incomplete still old before
      rw [if_pos unmatched] at done
      simp only [complete, Bool.and_eq_true, decide_eq_true_iff] at done
      simp only [complete, Bool.and_eq_false_iff, decide_eq_false_iff_not] at not_yet
      omega
    case isFalse => rfl

/-- **What a pulse does to a detector.** -/
structure AddedKept (rs : RadarDetectorSpecs) (fed : List Ts) (quiet : Bool) (ts : Ts) (r : Added) : Prop where
  inv : DetectorInv rs (if r.reset then [] else ts :: fed) (r.reset || quiet && r.found.isNone) r.pde
  found : ∀ ps, r.found = some ps → Detected rs (ts :: fed) ps ∧ (quiet = true → ps.lastTs = ts)

theorem pdeShortAddPulse_kept (usable : Usable rs) (inv : DetectorInv rs fed quiet d)
    (ordered : Ordered (ts :: fed)) (room : Nat) (elem : Bool) :
    AddedKept rs fed quiet ts (pdeShortAddPulse d ts room elem) := by
  have queuedIn : d.pulses.Sublist fed := inv.pulses
  have none_found : ∀ {P : PriSequence → Prop} ps, (none : Option PriSequence) = some ps → P ps :=
    fun ps found => by cases found
  rw [pdeShortAddPulse]
  by_cases first : d.count = 0
  · rw [if_pos first]
    obtain ⟨pattern, sequences, pulses⟩ := d.pulseQueueEnqueue_queued ts elem
    refine ⟨⟨pattern.trans inv.pattern, ordered, pulses.trans (queuedIn.cons_cons ts), ?_, ?_⟩, none_found⟩
    · intro ps member
      rw [sequences] at member
      exact (inv.sequences ps member).mono ordered
    · intro still ps member
      rw [sequences] at member
      exact inv.incomplete ((Bool.and_true quiet).symm.trans still) ps member
  rw [if_neg first]
  by_cases close : ts - d.lastTs < d.rs.maxPriTolerance.setWidth 64
  · rw [if_pos close]
    refine ⟨⟨inv.pattern, ordered, queuedIn.cons ts, ?_, ?_⟩, none_found⟩
    · exact fun ps member => (inv.sequences ps member).mono ordered
    · exact fun still => inv.incomplete ((Bool.and_true quiet).symm.trans still)
  rw [if_neg close]
  dsimp only
  cases made : createLoop d.rs ts (pdeShortAddToExistingSeqs d.rs ts d.sequences 0).2 0 d.pulses room
      (pdeShortAddToExistingSeqs d.rs ts d.sequences 0).1 with
  | none =>
    refine ⟨⟨inv.pattern, .nil, List.Sublist.refl _, ?_, ?_⟩, none_found⟩
    · exact fun ps member => absurd member not_mem_nil
    · exact fun _ ps member => absurd member not_mem_nil
  | some out =>
    have kept := sequences_kept usable inv ordered made
    dsimp only
    cases found : pdeShortCheckDetection d.rs out with
    | none =>
      obtain ⟨pattern, sequences, pulses⟩ :=
        PriDetector.pulseQueueEnqueue_queued { d with sequences := out } ts elem
      refine ⟨⟨pattern.trans inv.pattern, ordered, pulses.trans (queuedIn.cons_cons ts), ?_, ?_⟩, none_found⟩
      · intro ps member
        rw [sequences] at member
        exact (kept ps member).1
      · intro _ ps member
        rw [sequences] at member
        have not_found := List.find?_eq_none.mp found ps member
        rw [inv.pattern] at not_found
        exact Bool.not_eq_true _ ▸ not_found
    | some ps =>
      have member := List.mem_of_find?_eq_some found
      have done := List.find?_some found
      rw [inv.pattern] at done
      obtain ⟨⟨shape, pulses⟩, newest⟩ := kept ps member
      refine ⟨⟨inv.pattern, ordered, queuedIn.cons ts, fun ps member => (kept ps member).1, ?_⟩, ?_⟩
      · intro still
        exact absurd still (by simp)
      · intro ps' same
        obtain rfl : ps = ps' := some.inj same
        have enough : ps.ppbThresh.toNat ≤ ps.count := by
          have both := done
          simp only [complete, Bool.and_eq_true, decide_eq_true_iff] at both
          exact both.1
        refine ⟨⟨shape, enough, pulses.resolve_right fun stale => ?_⟩, fun still => newest still done⟩
        -- Two pulses are not enough.
        have three := usable.three_le shape.low shape.high
        rw [← shape.thresh] at three
        have two := stale.1
        omega

end W2l.Radar
