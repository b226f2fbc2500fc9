/-
**Short-pulse radar detection: a train of pulses is detected.**

The first two pulses of a train make a sequence; each later one extends it, as its distance to the pulse
before is within the tolerance of the first one. No other sequence is made, since none of past pulses would be
longer. The sequence is complete with as many pulses as its threshold, unless its deadline has passed.

* `Train` — spacings between the limits of a pattern, within the tolerance of one another.
* `detectorAfter`, `added` — the detector behind so many pulses, and what the next one does.
* `Detects` — **no sequence is returned up to the pulse before the threshold, and one at the threshold**.
* `TrackedTo` — the detector behind at least two pulses.
-/

import W2lDriver.Radar.Short

namespace W2l.Radar

open BitVec (le_def lt_def toNat_ofNat toNat_setWidth toNat_sub_of_le)

/-! ### Patterns -/

/-- What a pattern has for its bursts to be detected in time: at most the half of the pulses of a burst, and spacings
beyond the tolerance. -/
structure Timely (rs : RadarDetectorSpecs) : Prop where
  numPri : 0 < rs.numPri.toNat
  priMin : 0 < rs.priMin.toNat
  tolerance : rs.maxPriTolerance.toNat ≤ rs.priMin.toNat
  half : rs.type ≠ .weather → 2 * (rs.ppbThresh.toNat - 1) ≤ rs.ppb.toNat - 1
  weather : rs.type = .weather → 500 ≤ rs.priMin.toNat ∧ rs.priMax.toNat ≤ 3100 ∧ rs.ppb = 102 ∧
    rs.maxPriTolerance = 16

theorem timely_of_mem {rs : RadarDetectorSpecs} (member : rs ∈ shortSpecs) : Timely rs := by
  have all : ∀ rs ∈ shortSpecs, 0 < rs.numPri.toNat ∧ 0 < rs.priMin.toNat ∧
      rs.maxPriTolerance.toNat ≤ rs.priMin.toNat ∧
      (rs.type ≠ .weather → 2 * (rs.ppbThresh.toNat - 1) ≤ rs.ppb.toNat - 1) ∧
      (rs.type = .weather → 500 ≤ rs.priMin.toNat ∧ rs.priMax.toNat ≤ 3100 ∧ rs.ppb = 102 ∧
        rs.maxPriTolerance = 16) := by decide +kernel
  obtain ⟨numPri, priMin, tolerance, half, weather⟩ := all rs member
  exact ⟨numPri, priMin, tolerance, half, weather⟩

def enoughPulses (rs : RadarDetectorSpecs) (first : ℕ) : ℕ := (seqThresh rs (.ofNat 32 first)).toNat

/-- **The burst is not over** before that many pulses, each up to the tolerance later than the first interval. -/
theorem Timely.inTime {rs : RadarDetectorSpecs} (timely : Timely rs) {first : ℕ} (low : rs.priMin.toNat ≤ first)
    (high : first ≤ rs.priMax.toNat) :
    (enoughPulses rs first - 1) * (first + rs.maxPriTolerance.toNat) ≤ first * (rs.ppb.toNat - 1) := by
  unfold enoughPulses seqThresh
  by_cases weather : rs.type = .weather
  · obtain ⟨least, most, ppb, tolerance⟩ := timely.weather weather
    rw [if_pos weather, ppb, tolerance]
    have interval : (BitVec.ofNat 32 first).toNat = first := by
      rw [toNat_ofNat]
      exact Nat.mod_eq_of_lt (by omega)
    have product : ((360 : BitVec 32) * .ofNat 32 first).toNat = 360 * first := by
      rw [BitVec.toNat_mul, interval]
      show 360 * first % 4294967296 = _
      omega
    have quotient : ((19000000 : BitVec 32) / (360 * .ofNat 32 first)).toNat = 19000000 / (360 * first) := by
      rw [BitVec.toNat_udiv, product]
      rfl
    have upper : 19000000 / (360 * first) < 106 := Nat.div_lt_of_lt_mul (by omega)
    have few : (BitVec.ofNat 8 (ppbThresh
        ((19000000 / (360 * BitVec.ofNat 32 first) : BitVec 32).setWidth 8).toNat)).toNat ≤ 53 := by
      rw [toNat_ofNat, toNat_setWidth, quotient, ppbThresh]
      omega
    show _ * (first + 16) ≤ first * 101
    calc _ ≤ 52 * (first + 16) := Nat.mul_le_mul_right _ (Nat.sub_le_sub_right few 1)
      _ ≤ first * 101 := by omega
  · rw [if_neg weather]
    have half := timely.half weather
    have tolerance := timely.tolerance
    calc (rs.ppbThresh.toNat - 1) * (first + rs.maxPriTolerance.toNat)
        ≤ (rs.ppbThresh.toNat - 1) * (first + first) := Nat.mul_le_mul_left _ (by omega)
      _ = first * (2 * (rs.ppbThresh.toNat - 1)) := by rw [← Nat.two_mul, Nat.mul_comm, Nat.mul_comm 2 first,
          Nat.mul_assoc]
      _ ≤ first * (rs.ppb.toNat - 1) := Nat.mul_le_mul_left _ half

/-! ### Trains -/

/-- **A train of pulses**: every spacing is an interval of the pattern, and any two are within the tolerance. -/
structure Train (rs : RadarDetectorSpecs) (spacing : ℕ → ℕ) : Prop where
  low : ∀ i, rs.priMin.toNat ≤ spacing i
  high : ∀ i, spacing i ≤ rs.priMax.toNat
  close : ∀ i j, spacing i ≤ spacing j + rs.maxPriTolerance.toNat

def pulseAt (start : Ts) (spacing : ℕ → ℕ) : ℕ → Ts
  | 0 => start
  | n + 1 => pulseAt start spacing n + .ofNat 64 (spacing n)

/-- The memory there is for each pulse: `pri_sequence` for new sequences, and a `pulse_elem`. -/
structure PulseMemory where
  room : ℕ → ℕ
  elem : ℕ → Bool

def detectorAfter (rs : RadarDetectorSpecs) (resetTs start : Ts) (spacing : ℕ → ℕ) (memory : PulseMemory) :
    ℕ → PriDetector
  | 0 => (priDetectorInit rs).priDetectorReset resetTs
  | n + 1 => (pdeShortAddPulse (detectorAfter rs resetTs start spacing memory n) (pulseAt start spacing n)
      (memory.room n) (memory.elem n)).pde

def added (rs : RadarDetectorSpecs) (resetTs start : Ts) (spacing : ℕ → ℕ) (memory : PulseMemory) (n : ℕ) : Added :=
  pdeShortAddPulse (detectorAfter rs resetTs start spacing memory n) (pulseAt start spacing n) (memory.room n)
    (memory.elem n)

/-- **NULL for each pulse before the threshold, and a sequence at the threshold.** -/
def Detects (rs : RadarDetectorSpecs) (resetTs start : Ts) (spacing : ℕ → ℕ) (memory : PulseMemory) : Prop :=
  (∀ n, n + 1 < enoughPulses rs (spacing 0) → (added rs resetTs start spacing memory n).found = none) ∧
    ∃ n ps, n + 1 = enoughPulses rs (spacing 0) ∧ (added rs resetTs start spacing memory n).found = some ps

def firstDur (rs : RadarDetectorSpecs) (spacing : ℕ → ℕ) : ℕ :=
  spacing 0 * (rs.ppb.toNat - 1) + 2 * rs.maxPriTolerance.toNat

/-! ### Times -/

section Times

variable {rs : RadarDetectorSpecs} {start : Ts} {spacing : ℕ → ℕ} {m n : ℕ}

def elapsed (spacing : ℕ → ℕ) : ℕ → ℕ
  | 0 => 0
  | n + 1 => elapsed spacing n + spacing n

theorem elapsed_mono (le : m ≤ n) : elapsed spacing m ≤ elapsed spacing n := by
  induction le with
  | refl => exact Nat.le_refl _
  | step _ ih => exact ih.trans (Nat.le_add_right _ _)

theorem Train.elapsed_le (train : Train rs spacing) (n : ℕ) :
    elapsed spacing n ≤ n * (spacing 0 + rs.maxPriTolerance.toNat) := by
  induction n with
  | zero => exact Nat.zero_le _
  | succ n ih =>
    have close := train.close n 0
    rw [Nat.succ_mul]
    exact Nat.add_le_add ih close

theorem Train.elapsed_firstDur (train : Train rs spacing) (timely : Timely rs)
    (early : n + 1 ≤ enoughPulses rs (spacing 0)) : elapsed spacing n ≤ firstDur rs spacing :=
  calc elapsed spacing n ≤ n * (spacing 0 + rs.maxPriTolerance.toNat) := train.elapsed_le n
    _ ≤ (enoughPulses rs (spacing 0) - 1) * (spacing 0 + rs.maxPriTolerance.toNat) :=
      Nat.mul_le_mul_right _ (Nat.le_sub_one_of_lt early)
    _ ≤ spacing 0 * (rs.ppb.toNat - 1) := timely.inTime (train.low 0) (train.high 0)
    _ ≤ firstDur rs spacing := Nat.le_add_right _ _

theorem toNat_pulseAt (fits : start.toNat + elapsed spacing n < 2 ^ 64) :
    (pulseAt start spacing n).toNat = start.toNat + elapsed spacing n := by
  induction n with
  | zero => rfl
  | succ n ih =>
    have whole : elapsed spacing (n + 1) = elapsed spacing n + spacing n := rfl
    have before := ih (by omega)
    show (pulseAt start spacing n + .ofNat 64 (spacing n)).toNat = _
    rw [BitVec.toNat_add, before, toNat_ofNat, whole]
    omega

theorem setWidth_spacing (n : ℕ) :
    (pulseAt start spacing (n + 1) - pulseAt start spacing n).setWidth 32 = .ofNat 32 (spacing n) := by
  have back : pulseAt start spacing (n + 1) - pulseAt start spacing n = .ofNat 64 (spacing n) := by
    show pulseAt start spacing n + _ - pulseAt start spacing n = _
    rw [BitVec.add_comm]
    exact BitVec.add_sub_cancel _ _
  rw [back]
  refine BitVec.eq_of_toNat_eq ?_
  rw [toNat_setWidth, toNat_ofNat, toNat_ofNat]
  omega

end Times

/-! ### No other sequence -/

section Creation

variable {rs : RadarDetectorSpecs} {ts : Ts}

theorem count_matchBack {minValid : Ts} (rest : List Ts) (ps : PriSequence) (tmp : ℕ) :
    (matchBack rs minValid rest ps tmp).count ≤ ps.count + rest.length := by
  induction rest generalizing ps tmp with
  | nil => exact Nat.le_refl _
  | cons p rest ih =>
    unfold matchBack
    split
    · exact Nat.le_add_right _ _
    split
    · exact (ih ps _).trans (Nat.add_le_add_left (Nat.le_succ _) _)
    · refine (ih _ 0).trans (Nat.le_of_eq ?_)
      show ps.count + 1 + rest.length = ps.count + (rest.length + 1)
      omega

theorem createLoop_none {minCount : ℕ} (pulses : List Ts) (few : pulses.length + 1 ≤ minCount) (idx room : ℕ)
    (sequences : List PriSequence) : createLoop rs ts minCount idx pulses room sequences = some sequences := by
  induction pulses generalizing idx with
  | nil => rfl
  | cons p rest ih =>
    rw [List.length_cons] at few
    have next := ih (by omega) (idx + 1)
    unfold createLoop
    dsimp only
    split
    · exact next
    split
    · rfl
    have count : (pastSequence rs ts p rest (idx + 1)).count ≤ 2 + rest.length := count_matchBack rest _ 0
    rw [if_pos (by omega)]
    exact next

end Creation

/-! ### The queue -/

namespace PriDetector

variable {d : PriDetector} {ts : Ts}

/-- The newest pulse is queued. -/
structure Filled (max : ℕ) (ts : Ts) (d : PriDetector) : Prop where
  count : d.count = d.pulses.length
  head : d.pulses.head? = some ts
  lastTs : d.lastTs = ts
  max : d.maxCount = max

theorem Filled.dequeue {max : ℕ} (filled : Filled max ts d) (two : 2 ≤ d.pulses.length) :
    Filled max ts d.pulseQueueDequeue := by
  obtain ⟨count, head, lastTs, limit⟩ := filled
  obtain ⟨p, q, rest, whole⟩ : ∃ p q rest, d.pulses = p :: q :: rest := by
    match d.pulses, two with
    | p :: q :: rest, _ => exact ⟨p, q, rest, rfl⟩
  unfold pulseQueueDequeue
  rw [if_neg (by rw [whole]; exact List.cons_ne_nil _ _)]
  refine ⟨?_, ?_, lastTs, limit⟩
  · show d.count - 1 = d.pulses.dropLast.length
    rw [count, List.length_dropLast]
  · show d.pulses.dropLast.head? = _
    rw [whole] at head ⊢
    exact head

theorem Filled.checkLoop {max : ℕ} {minValid : Ts} (rounds : ℕ) (filled : Filled max ts d) (valid : minValid ≤ ts) :
    Filled max ts (PriDetector.checkLoop minValid rounds d) := by
  induction rounds generalizing d with
  | zero => exact filled
  | succ rounds ih =>
    unfold PriDetector.checkLoop
    split
    · exact filled
    · rename_i p last
      split
      case isTrue => exact filled
      case isFalse past =>
        refine ih (filled.dequeue ?_)
        -- The newest pulse is not the oldest one.
        have head := filled.head
        match whole : d.pulses, last, head with
        | [q], last, head =>
          obtain rfl : q = p := Option.some.inj last
          obtain rfl : q = ts := Option.some.inj head
          exact absurd valid past
        | _ :: _ :: _, _, _ => exact Nat.le_add_left 2 _

theorem filled_enqueue (count : d.count = d.pulses.length) (max : 2 ≤ d.maxCount) :
    Filled d.maxCount ts (d.pulseQueueEnqueue ts true) := by
  unfold pulseQueueEnqueue
  rw [if_pos rfl]
  have queued : Filled d.maxCount ts { d with pulses := ts :: d.pulses, count := d.count + 1, lastTs := ts } :=
    ⟨congrArg (· + 1) count, rfl, rfl, rfl⟩
  have window : Filled d.maxCount ts
      (pulseQueueCheckWindow { d with pulses := ts :: d.pulses, count := d.count + 1, lastTs := ts }) := by
    unfold pulseQueueCheckWindow
    split
    · exact queued
    split
    · exact queued
    · rename_i late
      refine queued.checkLoop _ ?_
      rw [BitVec.not_le] at late
      have less := lt_def.mp late
      rw [le_def, toNat_sub_of_le (BitVec.le_of_lt late)]
      exact Nat.sub_le _ _
  dsimp only
  split
  case isTrue full =>
    refine window.dequeue ?_
    rw [window.max, window.count] at full
    exact max.trans full
  case isFalse => exact window

end PriDetector

/-! ### The first sequence -/

section Follow

variable {rs : RadarDetectorSpecs} {resetTs start : Ts} {spacing : ℕ → ℕ} {memory : PulseMemory} {n : ℕ}
  {d : PriDetector}

/-- The sequence of the first pulses of a train, so many of them. -/
structure FirstSequence (rs : RadarDetectorSpecs) (start : Ts) (spacing : ℕ → ℕ) (n : ℕ) (ps : PriSequence) :
    Prop where
  pri : ps.pri = .ofNat 32 (spacing 0)
  count : ps.count = n + 1
  countFalses : ps.countFalses = 0
  lastTs : ps.lastTs = pulseAt start spacing n
  deadline : ps.deadlineTs = start + .ofNat 64 (firstDur rs spacing)
  thresh : ps.ppbThresh.toNat = enoughPulses rs (spacing 0)

/-- **The detector behind the pulse `n`**, which is not the first one: it has the first sequence only. -/
structure TrackedTo (rs : RadarDetectorSpecs) (start : Ts) (spacing : ℕ → ℕ) (n : ℕ) (d : PriDetector) : Prop where
  pattern : d.rs = rs
  max : 2 ≤ d.maxCount
  count : d.count = d.pulses.length
  some' : d.pulses ≠ []
  few : d.pulses.length ≤ n + 1
  last : ∃ j ≤ n, d.lastTs = pulseAt start spacing j
  sequence : ∃ ps, d.sequences = [ps] ∧ FirstSequence rs start spacing n ps

theorem TrackedTo.enqueue {n : ℕ} {ps : PriSequence} (elem : Bool) (pattern : d.rs = rs) (max : 2 ≤ d.maxCount)
    (count : d.count = d.pulses.length) (some' : d.pulses ≠ []) (few : d.pulses.length ≤ n)
    (last : ∃ j ≤ n, d.lastTs = pulseAt start spacing j) (one : d.sequences = [ps])
    (first : FirstSequence rs start spacing n ps) :
    TrackedTo rs start spacing n (d.pulseQueueEnqueue (pulseAt start spacing n) elem) := by
  obtain ⟨sameRs, sameSequences, sub⟩ := d.pulseQueueEnqueue_queued (pulseAt start spacing n) elem
  have length := sub.length_le
  have sequence : (d.pulseQueueEnqueue (pulseAt start spacing n) elem).sequences = [ps] := sameSequences.trans one
  cases elem with
  | false =>
    exact ⟨pattern, max, count, some', few.trans (Nat.le_succ n), last, ps, one, first⟩
  | true =>
    have filled : PriDetector.Filled d.maxCount (pulseAt start spacing n) _ := PriDetector.filled_enqueue count max
    obtain ⟨counted, head, lastTs, limit⟩ := filled
    refine ⟨sameRs.trans pattern, limit ▸ max, counted, fun none' => ?_,
      length.trans (Nat.succ_le_succ few), ⟨n, Nat.le_refl n, lastTs⟩, ps, sequence, first⟩
    rw [none'] at head
    cases head

theorem Train.not_close (train : Train rs spacing) (timely : Timely rs)
    (fits : start.toNat + elapsed spacing (n + 1) < 2 ^ 64) {j : ℕ} (before : j ≤ n) :
    ¬pulseAt start spacing (n + 1) - pulseAt start spacing j < rs.maxPriTolerance.setWidth 64 := by
  have mono : elapsed spacing (j + 1) ≤ elapsed spacing (n + 1) := elapsed_mono (Nat.succ_le_succ before)
  have whole : elapsed spacing (j + 1) = elapsed spacing j + spacing j := rfl
  have low := train.low j
  have tolerance := timely.tolerance
  have here := toNat_pulseAt fits
  have there : (pulseAt start spacing j).toNat = start.toNat + elapsed spacing j := toNat_pulseAt (by omega)
  have width : (rs.maxPriTolerance.setWidth 64).toNat = rs.maxPriTolerance.toNat := by
    have := rs.maxPriTolerance.isLt
    rw [toNat_setWidth]
    omega
  rw [lt_def, width, toNat_sub_of_le (by rw [le_def]; omega)]
  omega

theorem Train.multiple (train : Train rs spacing) (timely : Timely rs) (n : ℕ) :
    pdeGetMultiple (.ofNat 32 (spacing n)) (.ofNat 32 (spacing 0)) (tolerance rs) ≠ 0 := by
  have high := rs.priMax.isLt
  have value : ∀ i, (BitVec.ofNat 32 (spacing i)).toNat = spacing i := fun i => by
    have := train.high i
    rw [toNat_ofNat]
    omega
  unfold pdeGetMultiple
  have positive : BitVec.ofNat 32 (spacing 0) ≠ 0 := fun zero => by
    have none' := congrArg BitVec.toNat zero
    rw [value] at none'
    have least := train.low 0
    have priMin := timely.priMin
    rw [none'] at least
    exact absurd (priMin.trans_le least) (Nat.lt_irrefl 0)
  rw [if_neg positive]
  have near := train.close n 0
  have far := train.close 0 n
  dsimp only
  rw [if_pos ?_]
  · decide
  rw [le_def, toNat_tolerance]
  split
  case isTrue below =>
    rw [toNat_sub_of_le (BitVec.le_of_lt below), value, value]
    omega
  case isFalse above =>
    rw [BitVec.not_lt] at above
    rw [toNat_sub_of_le above, value, value]
    omega

/-- The first sequence with one more pulse. -/
def follow (ps : PriSequence) (ts : Ts) : PriSequence :=
  { ps with
    lastTs := ts
    count := ps.count + 1 }

section

variable {ps : PriSequence} (first : FirstSequence rs start spacing n ps)

include first

theorem FirstSequence.follow :
    FirstSequence rs start spacing (n + 1) (follow ps (pulseAt start spacing (n + 1))) where
  pri := first.pri
  count := congrArg (· + 1) first.count
  countFalses := first.countFalses
  lastTs := rfl
  deadline := first.deadline
  thresh := first.thresh

theorem FirstSequence.extended
    (train : Train rs spacing) (timely : Timely rs) (early : n + 2 ≤ enoughPulses rs (spacing 0))
    (fits : start.toNat + firstDur rs spacing < 2 ^ 64) :
    pdeShortAddToExistingSeqs rs (pulseAt start spacing (n + 1)) [ps] 0 =
      ([Radar.follow ps (pulseAt start spacing (n + 1))], ps.count + 1) := by
  have within := train.elapsed_firstDur timely early
  have here : (pulseAt start spacing (n + 1)).toNat = start.toNat + elapsed spacing (n + 1) :=
    toNat_pulseAt (by omega)
  have inTime : ¬ps.deadlineTs < pulseAt start spacing (n + 1) := by
    rw [first.deadline, lt_def, BitVec.toNat_add, toNat_ofNat, here]
    omega
  have multiple := train.multiple timely n
  rw [← first.pri, ← setWidth_spacing n, ← first.lastTs] at multiple
  unfold pdeShortAddToExistingSeqs extend
  rw [if_neg inTime, if_neg multiple, if_neg multiple]
  rfl

theorem FirstSequence.complete_iff
    (timely : Timely rs) : complete rs ps = true ↔ enoughPulses rs (spacing 0) ≤ n + 1 := by
  have falses : 0 < (n + 1) * rs.numPri.toNat := Nat.mul_pos (Nat.succ_pos n) timely.numPri
  rw [complete, Bool.and_eq_true, decide_eq_true_iff, decide_eq_true_iff, first.thresh, first.count,
    first.countFalses, and_iff_left falses]

end

/-- The end of `pde_short_add_pulse`, with one sequence. -/
def settle (rs : RadarDetectorSpecs) (d : PriDetector) (ps : PriSequence) (ts : Ts) (elem : Bool) : Added :=
  match pdeShortCheckDetection rs [ps] with
  | none => { pde := { d with sequences := [ps] }.pulseQueueEnqueue ts elem }
  | some ps' =>
    { pde := { d with sequences := [ps] }
      found := some ps' }

theorem FirstSequence.settle_cases {ps : PriSequence} (first : FirstSequence rs start spacing n ps)
    (d : PriDetector) (elem : Bool) (ts : Ts) (timely : Timely rs) :
    enoughPulses rs (spacing 0) ≤ n + 1 ∧ (settle rs d ps ts elem).found = some ps ∨
      ¬enoughPulses rs (spacing 0) ≤ n + 1 ∧ (settle rs d ps ts elem).found = none ∧
        (settle rs d ps ts elem).pde = { d with sequences := [ps] }.pulseQueueEnqueue ts elem := by
  have test := first.complete_iff timely
  unfold settle pdeShortCheckDetection
  rw [List.find?_singleton]
  by_cases done : complete rs ps = true
  · rw [if_pos done]
    exact .inl ⟨test.mp done, rfl⟩
  · rw [if_neg done]
    exact .inr ⟨mt test.mpr done, rfl, rfl⟩

theorem TrackedTo.next (tracked : TrackedTo rs start spacing n d) (train : Train rs spacing) (timely : Timely rs)
    (early : n + 2 ≤ enoughPulses rs (spacing 0)) (fits : start.toNat + firstDur rs spacing < 2 ^ 64) (room : ℕ)
    (elem : Bool) :
    (enoughPulses rs (spacing 0) ≤ n + 2 ∧
        ∃ ps, (pdeShortAddPulse d (pulseAt start spacing (n + 1)) room elem).found = some ps) ∨
      ¬enoughPulses rs (spacing 0) ≤ n + 2 ∧
        (pdeShortAddPulse d (pulseAt start spacing (n + 1)) room elem).found = none ∧
        TrackedTo rs start spacing (n + 1) (pdeShortAddPulse d (pulseAt start spacing (n + 1)) room elem).pde := by
  obtain ⟨rfl, max, count, some', few, ⟨j, before, lastTs⟩, ps, one, first⟩ := tracked
  have within := train.elapsed_firstDur timely early
  have ran : pdeShortAddPulse d (pulseAt start spacing (n + 1)) room elem =
      settle d.rs d (follow ps (pulseAt start spacing (n + 1))) (pulseAt start spacing (n + 1)) elem := by
    have busy : d.count ≠ 0 := by
      rw [count]
      exact mt List.eq_nil_of_length_eq_zero some'
    have short : start.toNat + elapsed spacing (n + 1) < 2 ^ 64 := by omega
    have apart := train.not_close timely short before
    rw [← lastTs] at apart
    unfold pdeShortAddPulse
    rw [if_neg busy, if_neg apart, one, first.extended train timely early fits]
    dsimp only
    rw [createLoop_none d.pulses (by rw [first.count]; omega)]
    rfl
  rw [ran]
  rcases first.follow.settle_cases d elem (pulseAt start spacing (n + 1)) timely with
    ⟨enough, found⟩ | ⟨few', none', left⟩
  · exact .inl ⟨enough, _, found⟩
  · refine .inr ⟨few', none', ?_⟩
    rw [left]
    exact TrackedTo.enqueue elem rfl max count some' few ⟨j, before.trans (Nat.le_succ n), lastTs⟩ rfl first.follow

/-! ### From the reset on -/

theorem detectorAfter_one (resetTs start : Ts) (spacing : ℕ → ℕ) (usable : Usable rs)
    (queued : memory.elem 0 = true) :
    detectorAfter rs resetTs start spacing memory 1 =
      { priDetectorInit rs with
        lastTs := start
        pulses := [start]
        count := 1 } ∧ (added rs resetTs start spacing memory 0).found = none := by
  have two : ¬rs.ppb.toNat * 2 ≤ 1 := by
    have := usable.ppb
    omega
  have first : added rs resetTs start spacing memory 0 =
      { pde := ((priDetectorInit rs).priDetectorReset resetTs).pulseQueueEnqueue start true } := by
    unfold added detectorAfter pdeShortAddPulse
    rw [queued]
    exact if_pos rfl
  refine ⟨?_, congrArg Added.found first⟩
  refine (congrArg Added.pde first).trans ?_
  unfold PriDetector.pulseQueueEnqueue PriDetector.pulseQueueCheckWindow
  exact if_neg two

theorem firstSequence_one (start : Ts) (usable : Usable rs) (train : Train rs spacing) :
    FirstSequence rs start spacing 1 (validSequence rs (pairSequence rs (pulseAt start spacing 1) start 1)) := by
  have width := rs.priMax.isLt
  have high := train.high 0
  have pri : (pairSequence rs (pulseAt start spacing 1) start 1).pri = .ofNat 32 (spacing 0) := setWidth_spacing 0
  have value : (pairSequence rs (pulseAt start spacing 1) start 1).pri.toNat = spacing 0 := by
    rw [pri, toNat_ofNat]
    omega
  have dur : (pairSequence rs (pulseAt start spacing 1) start 1).dur.toNat = firstDur rs spacing := by
    have whole := toNat_dur usable (value ▸ high : (pairSequence rs (pulseAt start spacing 1) start 1).pri.toNat ≤ _)
    rw [value] at whole
    exact whole
  refine ⟨pri, rfl, rfl, rfl, ?_, ?_⟩
  · show start + (pairSequence rs (pulseAt start spacing 1) start 1).dur.setWidth 64 = _
    refine congrArg (start + ·) (BitVec.eq_of_toNat_eq ?_)
    rw [toNat_setWidth, dur, toNat_ofNat]
  · show (seqThresh rs (pairSequence rs (pulseAt start spacing 1) start 1).pri).toNat = _
    rw [pri]
    rfl

theorem createLoop_first (start : Ts) (train : Train rs spacing) {room : ℕ} (some' : 0 < room) :
    createLoop rs (pulseAt start spacing 1) 0 0 [start] room [] =
      some [validSequence rs (pairSequence rs (pulseAt start spacing 1) start 1)] := by
  obtain ⟨room, rfl⟩ : ∃ r, room = r + 1 := ⟨room - 1, by omega⟩
  have width := rs.priMax.isLt
  have high := train.high 0
  have low := train.low 0
  have delta : ((pulseAt start spacing 1 - start).setWidth 32).toNat = spacing 0 := by
    have same : (pulseAt start spacing 1 - start).setWidth 32 = .ofNat 32 (spacing 0) := setWidth_spacing 0
    rw [same, toNat_ofNat]
    omega
  have widen : ∀ w : BitVec 16, (w.setWidth 32).toNat = w.toNat := fun w => by
    have := w.isLt
    rw [toNat_setWidth, Nat.mod_eq_of_lt (by omega)]
  unfold createLoop
  dsimp only
  rw [if_neg (by rw [lt_def, delta, widen]; omega), if_neg (by rw [lt_def, delta, widen]; omega)]
  rfl

theorem Train.three_le (train : Train rs spacing) (usable : Usable rs) : 3 ≤ enoughPulses rs (spacing 0) := by
  have width := rs.priMax.isLt
  have high := train.high 0
  have value : (BitVec.ofNat 32 (spacing 0)).toNat = spacing 0 := by
    rw [toNat_ofNat]
    omega
  exact usable.three_le (value.symm ▸ train.low 0) (value.symm ▸ high)

theorem tracked_one (usable : Usable rs) (train : Train rs spacing) (timely : Timely rs)
    (queued : memory.elem 0 = true) (room : 0 < memory.room 1) (fits : start.toNat + firstDur rs spacing < 2 ^ 64) :
    (added rs resetTs start spacing memory 1).found = none ∧
      TrackedTo rs start spacing 1 (detectorAfter rs resetTs start spacing memory 2) := by
  have three := train.three_le usable
  have within := train.elapsed_firstDur timely (by omega : 1 + 1 ≤ enoughPulses rs (spacing 0))
  have short : start.toNat + elapsed spacing (0 + 1) < 2 ^ 64 := by
    show start.toNat + elapsed spacing 1 < 2 ^ 64
    omega
  have apart := train.not_close timely short (Nat.le_refl 0)
  obtain ⟨before, -⟩ := detectorAfter_one resetTs start spacing usable queued
  generalize one : { priDetectorInit rs with lastTs := start, pulses := [start], count := 1 } = d at before
  have ran : pdeShortAddPulse d (pulseAt start spacing 1) (memory.room 1) (memory.elem 1) =
      settle rs d (validSequence rs (pairSequence rs (pulseAt start spacing 1) start 1)) (pulseAt start spacing 1)
        (memory.elem 1) := by
    have made := createLoop_first start train room
    have apart : ¬pulseAt start spacing 1 - start < rs.maxPriTolerance.setWidth 64 := apart
    subst one
    unfold pdeShortAddPulse
    rw [if_neg Nat.one_ne_zero]
    refine (if_neg apart).trans ?_
    dsimp only [priDetectorInit, pdeShortAddToExistingSeqs]
    rw [made]
    rfl
  have first := firstSequence_one start usable train
  have two : 2 ≤ d.maxCount := by
    rw [← one]
    have ppb := usable.ppb
    show 2 ≤ rs.ppb.toNat * 2
    omega
  rcases first.settle_cases d (memory.elem 1) (pulseAt start spacing 1) timely with ⟨enough, -⟩ | ⟨-, none', left⟩
  · exact absurd enough (by omega)
  · unfold added
    refine ⟨?_, ?_⟩
    · rw [before, ran]
      exact none'
    · show TrackedTo rs start spacing 1 (pdeShortAddPulse (detectorAfter rs resetTs start spacing memory 1) _ _ _).pde
      rw [before, ran, left]
      subst one
      exact TrackedTo.enqueue (memory.elem 1) rfl two rfl (List.cons_ne_nil _ _) (Nat.le_refl 1)
        ⟨0, Nat.zero_le 1, rfl⟩ rfl first

theorem trackedTo (resetTs : Ts) (usable : Usable rs) (train : Train rs spacing) (timely : Timely rs)
    (queued : memory.elem 0 = true) (room : 0 < memory.room 1) (fits : start.toNat + firstDur rs spacing < 2 ^ 64)
    (n : ℕ) (early : n + 2 < enoughPulses rs (spacing 0)) :
    (added rs resetTs start spacing memory (n + 1)).found = none ∧
      TrackedTo rs start spacing (n + 1) (detectorAfter rs resetTs start spacing memory (n + 2)) := by
  induction n with
  | zero => exact tracked_one usable train timely queued room fits
  | succ n ih =>
    obtain ⟨-, tracked⟩ := ih (by omega)
    rcases tracked.next train timely (by omega) fits (memory.room (n + 2)) (memory.elem (n + 2)) with
      ⟨enough, -⟩ | ⟨-, found, next⟩
    · exact absurd enough (by omega)
    · exact ⟨found, next⟩

/-- **A train is detected** at the threshold of its first two pulses, and not before. -/
theorem short_complete (known : rs ∈ shortSpecs) (train : Train rs spacing) (resetTs start : Ts)
    (memory : PulseMemory) (queued : memory.elem 0 = true) (room : 0 < memory.room 1)
    (fits : start.toNat + firstDur rs spacing < 2 ^ 64) : Detects rs resetTs start spacing memory := by
  have usable := usable_of_mem known
  have timely := timely_of_mem known
  have three := train.three_le usable
  refine ⟨fun n early => ?_, ?_⟩
  · cases n with
    | zero => exact (detectorAfter_one resetTs start spacing usable queued).2
    | succ n => exact (trackedTo resetTs usable train timely queued room fits n early).1
  · obtain ⟨n, last⟩ : ∃ n, enoughPulses rs (spacing 0) = n + 3 := ⟨enoughPulses rs (spacing 0) - 3, by omega⟩
    obtain ⟨-, tracked⟩ := trackedTo resetTs usable train timely queued room fits n (by omega)
    rcases tracked.next train timely (by omega) fits (memory.room (n + 2)) (memory.elem (n + 2)) with
      ⟨-, ps, found⟩ | ⟨few, -⟩
    · exact ⟨n + 2, ps, last.symm, found⟩
    · exact absurd last.le few

end Follow

def fccType0 : RadarDetectorSpecs := fccPattern 0 0 8 1428 1428 1 18 .short

def ample : PulseMemory where
  room _ := 18
  elem _ := true

theorem steady_train : Train fccType0 fun _ => 1428 := by
  refine ⟨fun _ => ?_, fun _ => ?_, fun _ _ => Nat.le_add_right _ _⟩
  · decide
  · decide

theorem short_complete_sample : enoughPulses fccType0 1428 = 9 ∧ Detects fccType0 0 1000 (fun _ => 1428) ample := by
  refine ⟨by decide +kernel, ?_⟩
  exact short_complete (by decide +kernel) steady_train 0 1000 ample rfl (by decide) (by decide +kernel)

/-- Spacings that are the tolerance apart, in turn. -/
def unsteady (n : ℕ) : ℕ := if n % 2 = 0 then 1412 else 1428

theorem unsteady_train : Train fccType0 unsteady := by
  have low : ∀ n, 1412 ≤ unsteady n := fun n => by unfold unsteady; split <;> decide
  have high : ∀ n, unsteady n ≤ 1428 := fun n => by unfold unsteady; split <;> decide
  refine ⟨low, fun n => (high n).trans (by decide), fun m n => ?_⟩
  have most := high m
  have least := low n
  show unsteady m ≤ unsteady n + 16
  omega

theorem not_detects {resetTs start : Ts} {spacing : ℕ → ℕ} {memory : PulseMemory}
    (nine : enoughPulses fccType0 (spacing 0) = 9)
    (missed : (added fccType0 resetTs start spacing memory 8).found = none) :
    ¬Detects fccType0 resetTs start spacing memory := by
  rintro ⟨-, n, ps, last, found⟩
  obtain rfl : n = 8 := by omega
  rw [missed] at found
  cases found

/-- **Trains that are missed**: at the end of 64 bits the deadline of a sequence is in front of its pulses; and a
pulse there was no memory for is not the first one. -/
theorem train_missed :
    (¬∀ rs ∈ shortSpecs, ∀ spacing, Train rs spacing → ∀ resetTs start, Detects rs resetTs start spacing ample) ∧
      ¬∀ rs ∈ shortSpecs, ∀ spacing, Train rs spacing → ∀ resetTs start memory,
        start.toNat + firstDur rs spacing < 2 ^ 64 → Detects rs resetTs start spacing memory := by
  constructor
  · intro all
    refine not_detects ?_ ?_ (all fccType0 (by decide +kernel) unsteady unsteady_train 0 (.ofNat 64 (2 ^ 64 - 20000)))
    · decide +kernel
    · decide +kernel
  · intro all
    refine not_detects ?_ ?_ (all fccType0 (by decide +kernel) _ steady_train 0 1000
      { ample with elem := fun n => n != 0 } (by decide +kernel))
    · decide +kernel
    · decide +kernel

end W2l.Radar
