/-
**Long-pulse radar detection: the bursts of the last twelve seconds.**

`aml_radar.c`. A detector for a LONG pattern queues the first pulse of every burst and has one sequence,
whose `count` is to be the number of bursts in the queue. A sequence is returned when there are enough
bursts and the first of them is half of the window back; the caller then resets all detectors.

* `pdeLongAddPulse` — `pde_long_add_pulse`.
* `longSystem` — the pulses handed to a detector, and resets.
* `LongSound` — **`count` is the number of bursts queued, and what is returned has enough bursts**.
* `Queueable` — a burst that does not complete the pattern is queued, and none is lost for it.
-/

import W2lDriver.Lib.System
import W2lDriver.Radar.Short

namespace W2l.Radar

open Lib
open BitVec (le_def lt_def toNat_add toNat_sub_of_le)

/-! ### The code -/

/-- `LONG_RADAR_DURATION`, `LONG_RADAR_BURST_MIN_DURATION`, `LONG_RADAR_MAX_BURST`. -/
def longRadarDuration : BitVec 32 := 12000000
def longRadarBurstMinDuration : BitVec 32 := 12000000 / 20
def longRadarMaxBurst : Nat := 20

def longSpecs : List RadarDetectorSpecs :=
  (etsiRadarRefTypesV17Riu ++ etsiRadarRefTypesV17Fcu ++ fccRadarRefTypesRiu ++ fccRadarRefTypesFcu ++
    jpRadarRefTypesRiu ++ jpRadarRefTypesFcu).filter fun rs => rs.type = .long

/-- `pri_detector_init` with `pde_long_init`. -/
def longDetectorInit (rs : RadarDetectorSpecs) : PriDetector where
  rs := rs
  windowSize := longRadarDuration
  maxCount := longRadarMaxBurst

/-- The loop of `pde_long_add_pulse` over the bursts that are too old. -/
def expireLoop (minValidTs : Ts) : Nat → PriDetector → PriSequence → PriDetector × PriSequence
  | 0, d, ps => (d, ps)
  | rounds + 1, d, ps =>
    match d.pulses.getLast? with
    | none => (d, ps)
    | some p =>
      if minValidTs ≤ p then
        (d, { ps with
          firstTs := p
          deadlineTs := p + d.windowSize.setWidth 64 })
      else expireLoop minValidTs rounds d.pulseQueueDequeue { ps with count := ps.count - 1 }

/-- The start of the sequence is reset if the deadline is reached. -/
def expire (d : PriDetector) (ps : PriSequence) (ts : Ts) : PriDetector × PriSequence :=
  if ps.deadlineTs < ts then expireLoop (ts - d.windowSize.setWidth 64) d.pulses.length d ps else (d, ps)

/-- A new burst. `count` is far below 2^32: from the third one on, two bursts take 600 ms. -/
def newBurst (d : PriDetector) (ps : PriSequence) (ts : Ts) (deltaTs : BitVec 32) (elem : Bool) : Added :=
  let r := expire d { ps with count := ps.count + 1, countFalses := 1 } ts
  if r.1.rs.ppbThresh.toNat < r.2.count ∧ (r.1.windowSize / 2).setWidth 64 < ts - r.2.firstTs then
    { pde := { r.1 with sequences := [r.2] }
      found := some r.2 }
  else { pde := { r.1 with sequences := [{ r.2 with dur := deltaTs }] }.pulseQueueEnqueue ts elem }

def deltaTs (ps : PriSequence) (ts : Ts) : BitVec 32 := (ts - ps.lastTs).setWidth 32

/-- The sequence of a first pulse, made of a `pri_sequence` of the pool, whose other fields are as they are. -/
def firstSequence (d : PriDetector) (ps : PriSequence) (ts : Ts) : PriSequence :=
  { ps with
    count := 1
    countFalses := 1
    firstTs := ts
    lastTs := ts
    deadlineTs := ts + d.windowSize.setWidth 64
    pri := 0 }

/-- `pde_long_add_pulse`, with the `pri_sequence` of the pool for a first pulse, and whether there is
a `pulse_elem`. There is one sequence at most. -/
def pdeLongAddPulse (d : PriDetector) (ts : Ts) (pseq : Option PriSequence) (elem : Bool) : Added :=
  match d.sequences with
  | [] =>
    match pseq with
    | none => { pde := d }
    | some ps => { pde := { d with sequences := [firstSequence d ps ts] }.pulseQueueEnqueue ts elem }
  | ps :: _ =>
    let delta := deltaTs ps ts
    let ps := { ps with lastTs := ts }
    if delta < d.rs.priMax.setWidth 32 then { pde := { d with sequences := [ps] } }
    else if d.rs.priMin.setWidth 32 ≤ delta ∧ delta ≤ d.rs.priMax.setWidth 32 then
      { pde := { d with sequences := [{ ps with countFalses := ps.countFalses + 1 }] } }
    else if 2 < ps.count ∧ ps.dur + delta < longRadarBurstMinDuration then { pde := { d with sequences := [ps] } }
    else newBurst d ps ts delta elem

def StartsBurst (d : PriDetector) (ts : Ts) (pseq : Option PriSequence) : Prop :=
  match d.sequences with
  | [] => pseq ≠ none
  | ps :: _ =>
    ¬deltaTs ps ts < d.rs.priMax.setWidth 32 ∧
      ¬(d.rs.priMin.setWidth 32 ≤ deltaTs ps ts ∧ deltaTs ps ts ≤ d.rs.priMax.setWidth 32) ∧
      ¬(2 < ps.count ∧ ps.dur + deltaTs ps ts < longRadarBurstMinDuration)

instance : (d : PriDetector) → (ts : Ts) → (pseq : Option PriSequence) → Decidable (StartsBurst d ts pseq)
  | ⟨_, _, [], _, _, _, _⟩, _, pseq => inferInstanceAs (Decidable (pseq ≠ none))
  | ⟨_, _, _ :: _, _, _, _, _⟩, _, _ => inferInstanceAs (Decidable (¬_ < _ ∧ ¬(_ ≤ _ ∧ _ ≤ _) ∧ ¬(2 < _ ∧ _ < _)))

/-! ### Streams of pulses -/

/-- A detector in use. `lastFed`, `bursts` and `returned` are kept for the statements: the newest pulse, the
pulses that started a burst since the last reset, newest first, and these at every return of a sequence, with
the pulse just added. -/
structure LongState where
  pde : PriDetector
  lastFed : Ts := 0
  bursts : List Ts := []
  returned : List (List Ts) := []

inductive LongAct
  | pulse (ts : Ts) (pseq : Option PriSequence) (elem : Bool)
  | reset (ts : Ts)

namespace LongState

def burstsAt (s : LongState) (ts : Ts) (pseq : Option PriSequence) : List Ts :=
  if StartsBurst s.pde ts pseq then ts :: s.bursts else s.bursts

/-- `pri_detector_reset`; time stamps begin anew. -/
def reset (s : LongState) (ts : Ts) : LongState :=
  { pde := s.pde.priDetectorReset ts
    returned := s.returned }

def pulse (s : LongState) (ts : Ts) (pseq : Option PriSequence) (elem : Bool) : LongState :=
  match (pdeLongAddPulse s.pde ts pseq elem).found with
  | none =>
    { s with
      pde := (pdeLongAddPulse s.pde ts pseq elem).pde
      lastFed := ts
      bursts := s.burstsAt ts pseq }
  | some _ =>
    { s with
      pde := (pdeLongAddPulse s.pde ts pseq elem).pde
      returned := s.burstsAt ts pseq :: s.returned }.reset ts

def step (s : LongState) : LongAct → Option LongState
  | .pulse ts pseq elem => if s.lastFed ≤ ts then some (s.pulse ts pseq elem) else none
  | .reset ts => some (s.reset ts)

end LongState

/-- **The pulses handed to a LONG detector.** -/
def longSystem (rs : RadarDetectorSpecs) : System LongState LongAct where
  init := { pde := longDetectorInit rs }
  step := LongState.step

/-! ### The property and the guard -/

/-- The pulses of the last `LONG_RADAR_DURATION` microseconds. -/
def recent (ts : Ts) (pulses : List Ts) : List Ts :=
  pulses.filter fun p => ts.toNat ≤ p.toNat + longRadarDuration.toNat

/-- So many pulses and the one at `ts` are a radar: more than the threshold, the oldest one more than half of the
duration back. -/
def Enough (rs : RadarDetectorSpecs) (ts : Ts) (pulses : List Ts) : Prop :=
  rs.ppbThresh.toNat < pulses.length ∧
    ∃ oldest ∈ pulses.getLast?, longRadarDuration.toNat / 2 < ts.toNat - oldest.toNat

/-- **`count` is the number of bursts queued, and what is returned has enough bursts.** -/
structure LongSound (rs : RadarDetectorSpecs) (s : LongState) : Prop where
  count : ∀ ps ∈ s.pde.sequences, ps.count = s.pde.pulses.length
  queued : s.pde.pulses.Sublist s.bursts
  returned : ∀ bursts ∈ s.returned, ∃ ts ∈ bursts.head?, Enough rs ts (recent ts bursts)

/-- **A burst is queued and none is lost for it**: where a pulse starts a burst, it completes the pattern with
those queued, or there is memory for it and a place beside the bursts of the duration. -/
def Queueable (s : LongState) : LongAct → Prop
  | .pulse ts pseq elem =>
    StartsBurst s.pde ts pseq → Enough s.pde.rs ts (ts :: recent ts s.pde.pulses) ∨
      elem = true ∧ (recent ts s.pde.pulses).length + 1 < longRadarMaxBurst
  | .reset _ => True

instance (rs : RadarDetectorSpecs) (ts : Ts) (pulses : List Ts) : Decidable (Enough rs ts pulses) :=
  decidable_of_iff (rs.ppbThresh.toNat < pulses.length ∧ (pulses.getLast?.any fun oldest =>
    longRadarDuration.toNat / 2 < ts.toNat - oldest.toNat) = true) (by simp [Enough, Option.any_eq_true])

instance (s : LongState) : (a : LongAct) → Decidable (Queueable s a)
  | .pulse ts pseq elem => inferInstanceAs (Decidable (StartsBurst s.pde ts pseq → _ ∨ elem = true ∧ _ < _))
  | .reset _ => .isTrue trivial

/-! ### Old bursts -/

section Expire

variable {d : PriDetector} {ps : PriSequence} {ts : Ts}

/-- What is left of a detector and its sequence, where a burst has been counted. -/
structure Expired (d : PriDetector) (ps : PriSequence) (left : List Ts) (r : PriDetector × PriSequence) : Prop where
  rs : r.1.rs = d.rs
  window : r.1.windowSize = d.windowSize
  max : r.1.maxCount = d.maxCount
  pulses : r.1.pulses = left
  queued : r.1.count = left.length
  count : r.2.count = left.length + 1
  start : left = [] ∧ r.2.firstTs = ps.firstTs ∧ r.2.deadlineTs = ps.deadlineTs ∨
    left.getLast? = some r.2.firstTs ∧ r.2.deadlineTs = r.2.firstTs + d.windowSize.setWidth 64

theorem expireLoop_expired {minValid : Ts} (rounds : Nat) (ordered : Ordered d.pulses)
    (queued : d.count = d.pulses.length) (count : ps.count = d.pulses.length + 1)
    (enough : d.pulses.length ≤ rounds) :
    Expired d ps (d.pulses.filter fun p => minValid ≤ p) (expireLoop minValid rounds d ps) := by
  induction rounds generalizing d ps with
  | zero =>
    have none' : d.pulses = [] := List.eq_nil_of_length_eq_zero (Nat.le_zero.mp enough)
    rw [none'] at queued count ⊢
    exact ⟨rfl, rfl, rfl, none', queued, count, .inl ⟨rfl, rfl, rfl⟩⟩
  | succ rounds ih =>
    unfold expireLoop
    split
    · rename_i none'
      have none' : d.pulses = [] := List.getLast?_eq_none_iff.mp none'
      rw [none'] at queued count ⊢
      exact ⟨rfl, rfl, rfl, none', queued, count, .inl ⟨rfl, rfl, rfl⟩⟩
    · rename_i p last
      split
      case isTrue inTime =>
        have all : (d.pulses.filter fun p => minValid ≤ p) = d.pulses := by
          refine List.filter_eq_self.mpr fun q member => decide_eq_true ?_
          rw [le_def] at inTime ⊢
          exact inTime.trans (ordered.last_le last member)
        rw [all]
        exact ⟨rfl, rfl, rfl, rfl, queued, count, .inr ⟨last, rfl⟩⟩
      case isFalse past =>
        obtain ⟨init, whole⟩ := List.getLast?_eq_some_iff.mp last
        have next : d.pulseQueueDequeue = { d with
            pulses := init
            count := d.count - 1 } := by
          unfold PriDetector.pulseQueueDequeue
          rw [if_neg (by rw [whole]; exact List.concat_ne_nil p init), whole, List.dropLast_concat]
        have length : d.pulses.length = init.length + 1 := by rw [whole, List.length_append]; rfl
        rw [next]
        have front : Ordered init := by
          rw [whole] at ordered
          exact (List.pairwise_append.mp ordered).1
        have rest := @ih { d with pulses := init, count := d.count - 1 } { ps with count := ps.count - 1 } front
          (by show d.count - 1 = init.length; omega) (by show ps.count - 1 = init.length + 1; omega)
          (by show init.length ≤ rounds; omega)
        have same : (d.pulses.filter fun p => minValid ≤ p) = init.filter fun p => minValid ≤ p := by
          rw [whole, List.filter_append, List.filter_cons_of_neg (by simpa using past), List.filter_nil,
            List.append_nil]
        rw [same]
        exact ⟨rest.rs, rest.window, rest.max, rest.pulses, rest.queued, rest.count, rest.start⟩

/-- The sequence starts with the oldest burst; or the queue was emptied for one burst, and the deadline is in front
of that. -/
def Started (ps : PriSequence) (pulses : List Ts) : Prop :=
  pulses.getLast? = some ps.firstTs ∧ ps.deadlineTs = ps.firstTs + longRadarDuration.setWidth 64 ∨
    ∃ p, pulses = [p] ∧ ps.deadlineTs < p ∧ longRadarDuration.toNat ≤ p.toNat

theorem toNat_duration : (longRadarDuration.setWidth 64 : Ts).toNat = longRadarDuration.toNat := rfl

theorem duration_eq : longRadarDuration.toNat = 12000000 := rfl

/-- **What is too old is taken, and nothing else**, with the start of the sequence where the rest starts. -/
theorem expire_expired (window : d.windowSize = longRadarDuration) (ordered : Ordered (ts :: d.pulses))
    (queued : d.count = d.pulses.length) (count : ps.count = d.pulses.length + 1) (started : Started ps d.pulses) :
    Expired d ps (recent ts d.pulses) (expire d ps ts) ∧
      (recent ts d.pulses = [] → ps.deadlineTs < ts ∧ longRadarDuration.toNat ≤ ts.toNat) := by
  have seconds := duration_eq
  have width := toNat_duration
  unfold expire
  split
  case isTrue late =>
    have room : longRadarDuration.toNat ≤ ts.toNat := by
      rw [lt_def] at late
      rcases started with ⟨last, deadline⟩ | ⟨p, whole, -, long⟩
      · have older := ordered.head_le (List.mem_of_getLast? last)
        have short := ts.isLt
        rw [deadline, toNat_add, width] at late
        omega
      · exact long.trans (ordered.head_le (by rw [whole]; exact List.mem_singleton_self p))
    have valid : (ts - d.windowSize.setWidth 64).toNat = ts.toNat - longRadarDuration.toNat := by
      rw [window, toNat_sub_of_le (by rw [le_def, width]; exact room), width]
    have same : recent ts d.pulses = d.pulses.filter fun p => ts - d.windowSize.setWidth 64 ≤ p := by
      refine List.filter_congr fun p _ => decide_eq_decide.mpr ?_
      rw [le_def, valid]
      omega
    rw [same]
    have before := (List.pairwise_cons.mp ordered).2
    exact ⟨expireLoop_expired _ before queued count (Nat.le_refl _), fun _ => ⟨late, room⟩⟩
  case isFalse inTime =>
    rw [BitVec.not_lt, le_def] at inTime
    rcases started with ⟨last, deadline⟩ | ⟨p, whole, before, -⟩
    swap
    · have older := ordered.head_le (by rw [whole]; exact List.mem_singleton_self p : p ∈ d.pulses)
      rw [lt_def] at before
      omega
    have older := ordered.head_le (List.mem_of_getLast? last)
    have same : recent ts d.pulses = d.pulses := by
      refine List.filter_eq_self.mpr fun p member => decide_eq_true ?_
      have behind := Ordered.last_le (List.pairwise_cons.mp ordered).2 last member
      rw [deadline, toNat_add, width] at inTime
      omega
    rw [same]
    refine ⟨⟨rfl, rfl, rfl, rfl, queued, count, .inr ⟨last, ?_⟩⟩, fun none' => ?_⟩
    · rw [deadline, window]
    · rw [none'] at last
      cases last

end Expire

/-! ### The queue -/

section Queue

variable {d : PriDetector} {ts : Ts}

theorem pulseQueueCheckWindow_same (window : d.windowSize = longRadarDuration)
    (inTime : ∀ p ∈ d.pulses, d.lastTs.toNat ≤ p.toNat + longRadarDuration.toNat) : d.pulseQueueCheckWindow = d := by
  unfold PriDetector.pulseQueueCheckWindow
  split
  · rfl
  split
  · rfl
  rename_i late
  cases rounds : d.pulses.length with
  | zero => rfl
  | succ rounds =>
    unfold PriDetector.checkLoop
    split
    · rfl
    · rename_i p last
      refine if_pos ?_
      have behind := inTime p (List.mem_of_getLast? last)
      rw [window, BitVec.not_le, lt_def, toNat_duration] at late
      rw [window, le_def, toNat_sub_of_le (by rw [le_def, toNat_duration]; omega), toNat_duration]
      omega

theorem pulseQueueEnqueue_burst (window : d.windowSize = longRadarDuration) (max : d.maxCount = longRadarMaxBurst)
    (queued : d.count = d.pulses.length)
    (inTime : ∀ p ∈ d.pulses, ts.toNat ≤ p.toNat + longRadarDuration.toNat) :
    d.pulseQueueEnqueue ts true = { d with
      pulses := if d.pulses.length + 1 < longRadarMaxBurst then ts :: d.pulses else (ts :: d.pulses).dropLast
      count := if d.pulses.length + 1 < longRadarMaxBurst then d.pulses.length + 1 else d.pulses.length
      lastTs := ts } := by
  unfold PriDetector.pulseQueueEnqueue
  rw [if_pos rfl]
  dsimp only
  have kept : ∀ p ∈ ts :: d.pulses, ts.toNat ≤ p.toNat + longRadarDuration.toNat := by
    intro p member
    rcases List.mem_cons.mp member with rfl | older
    · exact Nat.le_add_right _ _
    · exact inTime p older
  rw [pulseQueueCheckWindow_same (d := { d with pulses := ts :: d.pulses, count := d.count + 1, lastTs := ts }) window
    kept]
  dsimp only
  rw [max, queued]
  by_cases few : d.pulses.length + 1 < longRadarMaxBurst
  · rw [if_neg (Nat.not_le.mpr few), if_pos few, if_pos few]
  · rw [if_pos (Nat.le_of_not_lt few), if_neg few, if_neg few]
    unfold PriDetector.pulseQueueDequeue
    rw [if_neg (List.cons_ne_nil _ _)]
    rfl

/-- What a burst leaves that does not complete the pattern, behind `left` bursts. -/
structure BurstAdded (d : PriDetector) (ts : Ts) (elem : Bool) (left : List Ts) (r : Added) : Prop where
  found : r.found = none
  rs : r.pde.rs = d.rs
  window : r.pde.windowSize = longRadarDuration
  max : r.pde.maxCount = longRadarMaxBurst
  queued : r.pde.count = r.pde.pulses.length
  pulses : r.pde.pulses =
    if elem = true then if left.length + 1 < longRadarMaxBurst then ts :: left else (ts :: left).dropLast else left
  sequence : ∃ ps, r.pde.sequences = [ps] ∧ ps.count = left.length + 1 ∧ Started ps (ts :: left)

theorem pulseQueueEnqueue_added {ps : PriSequence} (elem : Bool) (window : d.windowSize = longRadarDuration)
    (max : d.maxCount = longRadarMaxBurst) (queued : d.count = d.pulses.length)
    (inTime : ∀ p ∈ d.pulses, ts.toNat ≤ p.toNat + longRadarDuration.toNat) (sequence : d.sequences = [ps])
    (count : ps.count = d.pulses.length + 1) (started : Started ps (ts :: d.pulses)) :
    BurstAdded d ts elem d.pulses { pde := d.pulseQueueEnqueue ts elem } := by
  cases elem with
  | false => exact ⟨rfl, rfl, window, max, queued, (if_neg Bool.false_ne_true).symm, ps, sequence, count, started⟩
  | true =>
    rw [pulseQueueEnqueue_burst window max queued inTime]
    refine ⟨rfl, rfl, window, max, ?_, (if_pos rfl).symm, ps, sequence, count, started⟩
    dsimp only
    split
    · rfl
    · rw [List.length_dropLast]
      rfl

theorem first_added (pseq : PriSequence) (elem : Bool) (window : d.windowSize = longRadarDuration)
    (max : d.maxCount = longRadarMaxBurst) (queued : d.count = d.pulses.length) (none' : d.sequences = [])
    (empty : d.pulses = []) : BurstAdded d ts elem [] (pdeLongAddPulse d ts (some pseq) elem) := by
  have started : Started (firstSequence d pseq ts) (ts :: d.pulses) := by
    rw [empty]
    refine .inl ⟨rfl, ?_⟩
    rw [← window]
    rfl
  have added : BurstAdded { d with sequences := [firstSequence d pseq ts] } ts elem d.pulses _ :=
    pulseQueueEnqueue_added elem window max queued (fun p member => by rw [empty] at member; cases member) rfl
      (by rw [empty]; rfl) started
  unfold pdeLongAddPulse
  rw [none', ← empty]
  exact ⟨added.found, added.rs, added.window, added.max, added.queued, added.pulses, added.sequence⟩

end Queue

/-! ### A burst -/

section Burst

variable {d : PriDetector} {ps : PriSequence} {ts : Ts}

theorem complete_iff {rs : RadarDetectorSpecs} {left : List Ts} (thresh : 0 < rs.ppbThresh.toNat)
    (ordered : Ordered (ts :: left)) {first : Ts} {count : Nat} (counted : count = left.length + 1)
    (start : left = [] ∨ left.getLast? = some first) :
    (rs.ppbThresh.toNat < count ∧ ((longRadarDuration / 2).setWidth 64 : Ts) < ts - first) ↔
      Enough rs ts (ts :: left) := by
  subst counted
  refine and_congr_right fun many => ?_
  rcases start with rfl | last
  · exact absurd many (by show ¬_ < 1; omega)
  have older := ordered.head_le (List.mem_of_getLast? last)
  have oldest : (ts :: left).getLast? = some first := by
    rw [List.getLast?_cons, last]
    rfl
  rw [oldest, lt_def, toNat_sub_of_le (le_def.mpr older)]
  constructor
  · exact fun half => ⟨first, rfl, half⟩
  · rintro ⟨oldest, same, half⟩
    obtain rfl := Option.some.inj same
    exact half

/-- What a burst leaves that completes the pattern. -/
structure BurstFound (d : PriDetector) (r : Added) : Prop where
  found : r.found ≠ none
  rs : r.pde.rs = d.rs
  window : r.pde.windowSize = longRadarDuration
  max : r.pde.maxCount = longRadarMaxBurst

theorem newBurst_cases (delta : BitVec 32) (elem : Bool) (window : d.windowSize = longRadarDuration)
    (max : d.maxCount = longRadarMaxBurst) (thresh : 0 < d.rs.ppbThresh.toNat)
    (ordered : Ordered (ts :: d.pulses)) (queued : d.count = d.pulses.length) (count : ps.count = d.pulses.length)
    (started : Started ps d.pulses) :
    Enough d.rs ts (ts :: recent ts d.pulses) ∧ BurstFound d (newBurst d ps ts delta elem) ∨
      ¬Enough d.rs ts (ts :: recent ts d.pulses) ∧
        BurstAdded d ts elem (recent ts d.pulses) (newBurst d ps ts delta elem) := by
  have counted : Started { ps with count := ps.count + 1, countFalses := 1 } d.pulses := started
  obtain ⟨expired, emptied⟩ := expire_expired window ordered queued (congrArg (· + 1) count) counted
  have left : Ordered (ts :: recent ts d.pulses) := List.Pairwise.sublist (List.filter_sublist.cons_cons ts) ordered
  unfold newBurst
  generalize expire d { ps with count := ps.count + 1, countFalses := 1 } ts = r at expired
  have test : (r.1.rs.ppbThresh.toNat < r.2.count ∧ (r.1.windowSize / 2).setWidth 64 < ts - r.2.firstTs) ↔
      Enough d.rs ts (ts :: recent ts d.pulses) := by
    rw [expired.rs, expired.window, window]
    exact complete_iff thresh left expired.count (expired.start.imp And.left And.left)
  dsimp only
  by_cases enough : Enough d.rs ts (ts :: recent ts d.pulses)
  · rw [if_pos (test.mpr enough)]
    exact .inl ⟨enough, Option.some_ne_none _, expired.rs, expired.window.trans window, expired.max.trans max⟩
  rw [if_neg (mt test.mp enough)]
  refine .inr ⟨enough, ?_⟩
  have inTime : ∀ p ∈ r.1.pulses, ts.toNat ≤ p.toNat + longRadarDuration.toNat := by
    intro p member
    rw [expired.pulses] at member
    exact of_decide_eq_true (List.mem_filter.mp member).2
  have begun : Started { r.2 with dur := delta } (ts :: r.1.pulses) := by
    rw [expired.pulses]
    rcases expired.start with ⟨none', -, deadline⟩ | ⟨last, deadline⟩
    · rw [none']
      obtain ⟨late, long⟩ := emptied none'
      exact .inr ⟨ts, rfl, deadline ▸ late, long⟩
    · refine .inl ⟨?_, window ▸ deadline⟩
      rw [List.getLast?_cons, last]
      rfl
  have length : r.1.pulses.length = (recent ts d.pulses).length := by rw [expired.pulses]
  have added : BurstAdded { r.1 with sequences := [{ r.2 with dur := delta }] } ts elem r.1.pulses _ :=
    pulseQueueEnqueue_added elem (expired.window.trans window) (expired.max.trans max)
      (expired.queued.trans length.symm) inTime rfl (expired.count.trans (congrArg (· + 1) length.symm)) begun
  rw [← expired.pulses]
  exact ⟨added.found, added.rs.trans expired.rs, added.window, added.max, added.queued, added.pulses, added.sequence⟩

theorem pdeLongAddPulse_ignored {rest : List PriSequence} (pseq : Option PriSequence) (elem : Bool)
    (sequences : d.sequences = ps :: rest) (no : ¬StartsBurst d ts pseq) :
    ∃ ps' : PriSequence, pdeLongAddPulse d ts pseq elem = { pde := { d with sequences := [ps'] } } ∧
      ps'.count = ps.count ∧ ps'.firstTs = ps.firstTs ∧ ps'.deadlineTs = ps.deadlineTs := by
  unfold StartsBurst at no
  unfold pdeLongAddPulse
  rw [sequences] at no ⊢
  dsimp only at no ⊢
  split
  case isTrue => exact ⟨_, rfl, rfl, rfl, rfl⟩
  case isFalse near =>
    split
    case isTrue => exact ⟨_, rfl, rfl, rfl, rfl⟩
    case isFalse outside =>
      split
      case isTrue => exact ⟨_, rfl, rfl, rfl, rfl⟩
      case isFalse far => exact absurd ⟨near, outside, far⟩ no

theorem pdeLongAddPulse_burst {rest : List PriSequence} (pseq : Option PriSequence) (elem : Bool)
    (sequences : d.sequences = ps :: rest) (starts : StartsBurst d ts pseq) :
    pdeLongAddPulse d ts pseq elem = newBurst d { ps with lastTs := ts } ts (deltaTs ps ts) elem := by
  unfold StartsBurst at starts
  unfold pdeLongAddPulse
  rw [sequences] at starts ⊢
  obtain ⟨near, outside, far⟩ := starts
  dsimp only
  rw [if_neg near, if_neg outside, if_neg far]

end Burst

/-! ### Runs -/

/-- **The invariant of a stream.** -/
structure LongInv (rs : RadarDetectorSpecs) (s : LongState) : Prop where
  pattern : s.pde.rs = rs
  window : s.pde.windowSize = longRadarDuration
  max : s.pde.maxCount = longRadarMaxBurst
  queued : s.pde.count = s.pde.pulses.length
  ordered : Ordered s.bursts
  newest : ∀ p ∈ s.bursts, p.toNat ≤ s.lastFed.toNat
  sub : s.pde.pulses.Sublist s.bursts
  sequence : s.pde.sequences = [] ∧ s.pde.pulses = [] ∨ ∃ ps, s.pde.sequences = [ps] ∧
    ps.count = s.pde.pulses.length ∧ Started ps s.pde.pulses
  returned : ∀ bursts ∈ s.returned, ∃ ts ∈ bursts.head?, Enough rs ts (recent ts bursts)

section Runs

variable {rs : RadarDetectorSpecs} {s : LongState} {ts : Ts} {pseq : Option PriSequence} {elem : Bool}

theorem LongInv.sound (inv : LongInv rs s) : LongSound rs s where
  count ps member := by
    rcases inv.sequence with ⟨none', -⟩ | ⟨ps', one, count, -⟩
    · rw [none'] at member
      cases member
    · rw [one] at member
      obtain rfl := List.mem_singleton.mp member
      exact count
  queued := inv.sub
  returned := inv.returned

theorem LongInv.ordered_cons (inv : LongInv rs s) (inOrder : s.lastFed ≤ ts) : Ordered (ts :: s.bursts) :=
  List.pairwise_cons.mpr ⟨fun p member => le_def.mpr ((inv.newest p member).trans (le_def.mp inOrder)), inv.ordered⟩

theorem longInv_reset {t : LongState} (pattern : t.pde.rs = rs)
    (window : t.pde.windowSize = longRadarDuration) (max : t.pde.maxCount = longRadarMaxBurst)
    (returned : ∀ bursts ∈ t.returned, ∃ ts ∈ bursts.head?, Enough rs ts (recent ts bursts)) :
    LongInv rs (t.reset ts) where
  pattern := pattern
  window := window
  max := max
  queued := rfl
  ordered := .nil
  newest _ member := nomatch member
  sub := .slnil
  sequence := .inl ⟨rfl, rfl⟩
  returned := returned

theorem enough_bursts {pulses bursts : List Ts} (sub : pulses.Sublist bursts) (ordered : Ordered (ts :: bursts))
    (enough : Enough rs ts (ts :: recent ts pulses)) : Enough rs ts (recent ts (ts :: bursts)) := by
  obtain ⟨many, oldest, last, half⟩ := enough
  have whole : recent ts (ts :: bursts) = ts :: recent ts bursts :=
    List.filter_cons_of_pos (decide_eq_true (Nat.le_add_right _ _))
  have more : (ts :: recent ts pulses).Sublist (ts :: recent ts bursts) := (sub.filter _).cons_cons ts
  rw [whole]
  refine ⟨Nat.lt_of_lt_of_le many more.length_le, ?_⟩
  obtain ⟨oldest', last'⟩ : ∃ o, (ts :: recent ts bursts).getLast? = some o := ⟨_, List.getLast?_cons⟩
  have inOrder : Ordered (ts :: recent ts bursts) := List.Pairwise.sublist (List.filter_sublist.cons_cons ts) ordered
  have behind := inOrder.last_le last' (more.subset (List.mem_of_getLast? last))
  exact ⟨oldest', last', by omega⟩

theorem LongInv.completed (inv : LongInv rs s) (inOrder : s.lastFed ≤ ts) (starts : StartsBurst s.pde ts pseq)
    (enough : Enough rs ts (ts :: recent ts s.pde.pulses))
    (kept : BurstFound s.pde (pdeLongAddPulse s.pde ts pseq elem)) : LongInv rs (s.pulse ts pseq elem) := by
  obtain ⟨ps, found⟩ := Option.ne_none_iff_exists'.mp kept.found
  unfold LongState.pulse
  rw [found]
  refine longInv_reset (kept.rs.trans inv.pattern) kept.window kept.max fun bursts member => ?_
  rcases List.mem_cons.mp member with rfl | before
  · refine ⟨ts, ?_, ?_⟩
    · rw [LongState.burstsAt, if_pos starts]
      rfl
    · rw [LongState.burstsAt, if_pos starts]
      exact enough_bursts inv.sub (inv.ordered_cons inOrder) enough
  · exact inv.returned bursts before

theorem LongInv.added (inv : LongInv rs s) (inOrder : s.lastFed ≤ ts) (starts : StartsBurst s.pde ts pseq)
    {left : List Ts} (sub : left.Sublist s.pde.pulses)
    (added : BurstAdded s.pde ts elem left (pdeLongAddPulse s.pde ts pseq elem)) :
    (elem = true ∧ left.length + 1 < longRadarMaxBurst → LongInv rs (s.pulse ts pseq elem)) ∧
      (LongSound rs (s.pulse ts pseq elem) → elem = true ∧ left.length + 1 < longRadarMaxBurst) := by
  obtain ⟨ps, one, count, started⟩ := added.sequence
  have pulses := added.pulses
  unfold LongState.pulse
  rw [added.found, LongState.burstsAt, if_pos starts]
  constructor
  · intro room
    rw [if_pos room.1, if_pos room.2] at pulses
    refine ⟨added.rs.trans inv.pattern, added.window, added.max, added.queued, inv.ordered_cons inOrder, ?_, ?_, ?_,
      inv.returned⟩
    · intro p member
      rcases List.mem_cons.mp member with rfl | older
      · exact Nat.le_refl _
      · exact (inv.newest p older).trans (le_def.mp inOrder)
    · show (pdeLongAddPulse s.pde ts pseq elem).pde.pulses.Sublist _
      rw [pulses]
      exact (sub.trans inv.sub).cons_cons ts
    · refine .inr ⟨ps, one, ?_, ?_⟩
      · show ps.count = (pdeLongAddPulse s.pde ts pseq elem).pde.pulses.length
        rw [pulses]
        exact count
      · show Started ps (pdeLongAddPulse s.pde ts pseq elem).pde.pulses
        rw [pulses]
        exact started
  · intro sound
    have same : ps.count = (pdeLongAddPulse s.pde ts pseq elem).pde.pulses.length :=
      sound.count ps (by show ps ∈ (pdeLongAddPulse s.pde ts pseq elem).pde.sequences; rw [one]; exact
        List.mem_singleton_self ps)
    rw [pulses, count] at same
    split at same
    case isFalse => omega
    case isTrue memory =>
      split at same
      case isTrue few => exact ⟨memory, few⟩
      case isFalse =>
        rw [List.length_dropLast, List.length_cons] at same
        omega

theorem LongInv.pulse (inv : LongInv rs s) (thresh : 0 < rs.ppbThresh.toNat) (inOrder : s.lastFed ≤ ts) :
    (Queueable s (.pulse ts pseq elem) → LongInv rs (s.pulse ts pseq elem)) ∧
      (LongSound rs (s.pulse ts pseq elem) → Queueable s (.pulse ts pseq elem)) := by
  have ordered : Ordered (ts :: s.pde.pulses) :=
    List.Pairwise.sublist (inv.sub.cons_cons ts) (inv.ordered_cons inOrder)
  have later : ∀ p ∈ s.bursts, p.toNat ≤ ts.toNat := fun p member =>
    (inv.newest p member).trans (le_def.mp inOrder)
  by_cases starts : StartsBurst s.pde ts pseq
  swap
  · -- The pulse is ignored.
    refine ⟨fun _ => ?_, fun _ this => absurd this starts⟩
    unfold LongState.pulse
    rw [LongState.burstsAt, if_neg starts]
    rcases inv.sequence with ⟨none', empty⟩ | ⟨ps, one, count, started⟩
    · have no : pseq = none := by
        unfold StartsBurst at starts
        rw [none'] at starts
        exact Decidable.not_not.mp starts
      have same : pdeLongAddPulse s.pde ts pseq elem = { pde := s.pde } := by
        unfold pdeLongAddPulse
        rw [none', no]
      rw [same]
      exact ⟨inv.pattern, inv.window, inv.max, inv.queued, inv.ordered, later, inv.sub, inv.sequence, inv.returned⟩
    · obtain ⟨ps', ignored, countSame, first, deadline⟩ := pdeLongAddPulse_ignored pseq elem one starts
      rw [ignored]
      refine ⟨inv.pattern, inv.window, inv.max, inv.queued, inv.ordered, later, inv.sub, ?_, inv.returned⟩
      refine .inr ⟨ps', rfl, countSame.trans count, ?_⟩
      unfold Started
      rw [first, deadline]
      exact started
  rcases inv.sequence with ⟨none', empty⟩ | ⟨ps, one, count, started⟩
  · -- The first burst.
    obtain ⟨first, rfl⟩ : ∃ first, pseq = some first := by
      unfold StartsBurst at starts
      rw [none'] at starts
      exact Option.ne_none_iff_exists'.mp starts
    have few : (recent ts s.pde.pulses).length = 0 := by rw [empty]; rfl
    obtain ⟨keep, only⟩ := inv.added inOrder starts (List.nil_sublist _)
      (first_added first elem inv.window inv.max inv.queued none' empty)
    refine ⟨fun allowed => keep ?_, fun sound _ => .inr ?_⟩
    · rcases allowed starts with ⟨many, -⟩ | ⟨memory, -⟩
      · rw [List.length_cons, few, inv.pattern] at many
        omega
      · exact ⟨memory, by decide⟩
    · rw [few]
      exact only sound
  · -- A burst behind others.
    have burst := pdeLongAddPulse_burst pseq elem one starts
    generalize next : { ps with lastTs := ts } = ps' at burst
    have count' : ps'.count = s.pde.pulses.length := by rw [← next]; exact count
    have started' : Started ps' s.pde.pulses := by rw [← next]; exact started
    have added := newBurst_cases (deltaTs ps ts) elem inv.window inv.max (inv.pattern ▸ thresh) ordered inv.queued
      count' started'
    rw [← burst] at added
    rcases added with ⟨enough, found⟩ | ⟨few, added⟩
    · exact ⟨fun _ => inv.completed inOrder starts (inv.pattern ▸ enough) found, fun _ _ => .inl enough⟩
    · obtain ⟨keep, only⟩ := inv.added inOrder starts List.filter_sublist added
      exact ⟨fun allowed => keep ((allowed starts).resolve_left few), fun sound _ => .inr (only sound)⟩

theorem thresh_of_mem (member : rs ∈ longSpecs) : 0 < rs.ppbThresh.toNat := by
  have all : ∀ rs ∈ longSpecs, 0 < rs.ppbThresh.toNat := by decide +kernel
  exact all rs member

theorem longInv (member : rs ∈ longSpecs) (reach : (longSystem rs).Reachable Queueable s) : LongInv rs s := by
  refine reach.invariant ?_ ?_
  · exact ⟨rfl, rfl, rfl, rfl, .nil, nofun, .slnil, .inl ⟨rfl, rfl⟩, nofun⟩
  intro s a t _ inv allowed stepped
  cases a with
  | reset ts =>
    obtain rfl := Option.some.inj stepped
    exact longInv_reset inv.pattern inv.window inv.max inv.returned
  | pulse ts pseq elem =>
    have stepped : (if s.lastFed ≤ ts then some (s.pulse ts pseq elem) else none) = some t := stepped
    split at stepped
    case isFalse => cases stepped
    case isTrue inOrder =>
      obtain rfl := Option.some.inj stepped
      exact (inv.pulse (thresh_of_mem member) inOrder).1 allowed

/-- **The number of bursts is right and every sequence returned has enough**, as long as bursts are queued and none
is lost for another; **where one is not, the number is wrong**. -/
theorem long_sound_iff (member : rs ∈ longSpecs) (reach : (longSystem rs).Reachable Queueable s) :
    LongSound rs s ∧ ∀ a t, (longSystem rs).step s a = some t → (LongSound rs t ↔ Queueable s a) := by
  have inv := longInv member reach
  refine ⟨inv.sound, fun a t stepped => ⟨fun sound => ?_, fun allowed => ?_⟩⟩
  · cases a with
    | reset ts => trivial
    | pulse ts pseq elem =>
      have stepped : (if s.lastFed ≤ ts then some (s.pulse ts pseq elem) else none) = some t := stepped
      split at stepped
      case isFalse => cases stepped
      case isTrue inOrder =>
        obtain rfl := Option.some.inj stepped
        exact (inv.pulse (thresh_of_mem member) inOrder).2 sound
  · exact (longInv member (reach.step allowed stepped)).sound

end Runs

def longPattern : RadarDetectorSpecs := fccPattern 5 50 110 1000 2000 1 8 .long

def burstsAtMs (times : List Nat) : List LongAct :=
  times.map fun ms => .pulse (.ofNat 64 (ms * 1000)) (some ⟨0, 0, 0, 0, 0, 0, 0, 0⟩) true

theorem long_sound_iff_sample : ∃ s, s.returned.map List.length = [5] ∧ LongSound longPattern s := by
  have reach := System.reachable_of_run (longSystem longPattern) Queueable
    (burstsAtMs [0, 2000, 4000, 5000, 7000]) (by decide +kernel)
  exact ⟨_, by decide +kernel, (long_sound_iff (by decide +kernel) reach).1⟩

/-- **Four bursts are taken for a radar**: behind twenty bursts in six seconds, and a pause. -/
theorem long_four_bursts :
    ¬∀ rs ∈ longSpecs, ∀ s, (longSystem rs).Reachable (fun _ _ => True) s → LongSound rs s := by
  intro all
  have reach := System.reachable_of_run (longSystem longPattern) (fun _ _ => True)
    (burstsAtMs ((List.range 20).map (300 * ·) ++ [30000, 32000, 34000, 36100])) (by decide +kernel)
  generalize state : (System.run (longSystem longPattern) (fun _ _ => True) (longSystem longPattern).init
    (burstsAtMs ((List.range 20).map (300 * ·) ++ [30000, 32000, 34000, 36100]))).get _ = s at reach
  have sound := (all longPattern (by decide +kernel) s reach).returned
  have few : s.returned.map (fun bursts => bursts.head?.map fun ts => (recent ts bursts).length) = [some 4] := by
    rw [← state]
    decide +kernel
  obtain ⟨bursts, one, four⟩ := List.map_eq_singleton_iff.mp few
  obtain ⟨ts, head, many, -⟩ := sound bursts (by rw [one]; exact List.mem_singleton_self bursts)
  rw [Option.mem_def.mp head] at four
  have four : (recent ts bursts).length = 4 := Option.some.inj four
  rw [four] at many
  revert many
  decide

end W2l.Radar
