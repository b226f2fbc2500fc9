/-
**The time stamps of radar pulses.**

`aml_radar.c`. A pulse is reported with the interval since the pulse before it, or 0 if that does not fit
16 bits, and with the jiffies when it was received. `last_pulse_ts` goes on by the interval, or by the jiffies
since `prev_jiffies` was set.

* `addPulseTs`, `dfsPatternDetectorReset`, `dfsPatternDetectorAddPulse` — the functions, without the detectors.
* `stampSystem` — pulses at times in microseconds, with any intervals.
* `StampsRight` — **the time stamp goes on by the interval or the time since the pulse before, and is less than
  a jiffy from the time since the reset**.
* `OneClock` — when it is: an interval of 0 is behind others only, and its jiffies do not wrap.
-/

import W2lDriver.Lib.System

namespace W2l.Radar

open Lib
open BitVec (toNat_ofNat)

/-! ### The code -/

/-- The clock of the kernel: `HZ`, which divides the microseconds of a second, and where it is at the start, in
microseconds. -/
structure Tick where
  hz : ℕ
  phase : ℕ
  pos : 0 < hz
  whole : hz ∣ 1000000

namespace Tick

variable (tick : Tick)

/-- `USEC_PER_SEC / HZ`. -/
def usec : ℕ := 1000000 / tick.hz

def jiffies (t : ℕ) : ℕ := (tick.phase + t) / tick.usec

def now (t : ℕ) : BitVec 32 := .ofNat 32 (tick.jiffies t)

/-- `jiffies_to_usecs`, which returns 32 bits. -/
def jiffiesToUsecs (j : BitVec 32) : BitVec 32 := .ofNat 32 (tick.usec * j.toNat)

end Tick

/-- What `struct dfs_pattern_detector` has of time; `region` tells whether there is one. -/
structure DfsPatternDetector where
  region : Bool := false
  lastPulseTs : BitVec 64 := 0
  prevJiffies : BitVec 32

namespace DfsPatternDetector

variable (tick : Tick) (dpd : DfsPatternDetector)

def addPulseTs (pri : BitVec 16) (now : BitVec 32) : DfsPatternDetector :=
  if pri = 0 then
    let deltaJiffie :=
      if now < dpd.prevJiffies then 0xffffffff - dpd.prevJiffies + now else now - dpd.prevJiffies
    { dpd with
      lastPulseTs := dpd.lastPulseTs + (tick.jiffiesToUsecs deltaJiffie).setWidth 64
      prevJiffies := now }
  else { dpd with lastPulseTs := dpd.lastPulseTs + pri.setWidth 64 }

def dfsPatternDetectorReset (now : BitVec 32) : DfsPatternDetector :=
  { dpd with
    lastPulseTs := 0
    prevJiffies := now }

/-- `dfs_pattern_detector_add_pulse`; `found` tells whether a detector returns a sequence. -/
def dfsPatternDetectorAddPulse (pri : BitVec 16) (now : BitVec 32) (found : Bool) : DfsPatternDetector :=
  if dpd.region = false then dpd
  else
    let dpd := dpd.addPulseTs tick pri now
    if found then dpd.dfsPatternDetectorReset now else dpd

end DfsPatternDetector

/-- A detector in use. All but the first field is kept for the statements: the times of the last reset and of
the last pulse or reset; the time stamp as it is to be; whether every interval since the reset was 0, and
whether every other one was the time since the pulse before. -/
structure StampState where
  dpd : DfsPatternDetector
  resetAt : ℕ := 0
  lastAt : ℕ := 0
  due : ℕ := 0
  fresh : Bool := true
  truthful : Bool := true

inductive StampAct
  /-- A pulse with an interval, received at a time. -/
  | pulse (pri : BitVec 16) (t : ℕ) (found : Bool)
  /-- `dfs_pattern_detector_set_domain`, for a region with patterns or without. -/
  | setDomain (known : Bool)

namespace StampState

variable (tick : Tick) (s : StampState)

/-- What a pulse adds to the time stamp that is to be. -/
def advance (pri : BitVec 16) (t : ℕ) : ℕ :=
  if pri = 0 then tick.usec * (tick.jiffies t - tick.jiffies s.lastAt) else pri.toNat

/-- A pulse, handed over when it is received; the reset behind a sequence that is found is made then, too. -/
def pulse (pri : BitVec 16) (t : ℕ) (found : Bool) : StampState :=
  let dpd := s.dpd.dfsPatternDetectorAddPulse tick pri (tick.now t) found
  if found = true then
    { dpd := dpd
      resetAt := t
      lastAt := t }
  else
    { dpd := dpd
      resetAt := s.resetAt
      lastAt := t
      due := s.due + s.advance tick pri t
      fresh := s.fresh && decide (pri = 0)
      truthful := s.truthful && decide (pri ≠ 0 → pri.toNat = t - s.lastAt) }

def step : StampAct → Option StampState
  | .pulse pri t found => if s.lastAt ≤ t then some (s.pulse tick pri t found) else none
  | .setDomain known => some { s with dpd := { s.dpd with region := known } }

end StampState

/-- **Pulses in the order they are received**, from `dfs_pattern_detector_init` on. -/
def stampSystem (tick : Tick) : System StampState StampAct where
  init := { dpd := { prevJiffies := tick.now 0 } }
  step := StampState.step tick

/-! ### The property and the guard -/

/-- **The time stamp is the one it is to be**, in 64 bits; and that is less than a jiffy from the time since the
reset, if the intervals reported are the times between pulses. -/
structure StampsRight (tick : Tick) (s : StampState) : Prop where
  stamp : s.dpd.lastPulseTs = .ofNat 64 s.due
  close : s.truthful = true → s.due < s.lastAt - s.resetAt + tick.usec ∧ s.lastAt - s.resetAt < s.due + tick.usec

/-- **Where the two clocks are not mixed**: there is a region; and with an interval of 0 no other has been reported
since the reset, the 32 bits of the jiffies have not wrapped since the pulse before, and the microseconds fit 32
bits. -/
def OneClock (tick : Tick) (s : StampState) : StampAct → Prop
  | .pulse pri t _ => s.dpd.region = true ∧ (pri = 0 → s.fresh = true ∧
      tick.jiffies t / 4294967296 = tick.jiffies s.lastAt / 4294967296 ∧
      tick.usec * (tick.jiffies t - tick.jiffies s.lastAt) < 4294967296)
  | .setDomain _ => True

instance (tick : Tick) (s : StampState) : (a : StampAct) → Decidable (OneClock tick s a)
  | .pulse pri _ _ => inferInstanceAs (Decidable (_ = true ∧ (pri = 0 → _ = true ∧ _ / _ = _ / _ ∧ _ < _)))
  | .setDomain _ => .isTrue trivial

/-! ### Ticks -/

namespace Tick

variable (tick : Tick) {r t : ℕ}

theorem usec_pos : 0 < tick.usec := Nat.div_pos (Nat.le_of_dvd (by decide) tick.whole) tick.pos

theorem jiffies_mono (before : r ≤ t) : tick.jiffies r ≤ tick.jiffies t :=
  Nat.div_le_div_right (Nat.add_le_add_left before _)

theorem jiffies_close (before : r ≤ t) : tick.usec * (tick.jiffies t - tick.jiffies r) < t - r + tick.usec ∧
      t - r < tick.usec * (tick.jiffies t - tick.jiffies r) + tick.usec := by
  have late := Nat.div_add_mod (tick.phase + t) tick.usec
  have early := Nat.div_add_mod (tick.phase + r) tick.usec
  have lateRest := Nat.mod_lt (tick.phase + t) tick.usec_pos
  have earlyRest := Nat.mod_lt (tick.phase + r) tick.usec_pos
  have mono : tick.usec * tick.jiffies r ≤ tick.usec * tick.jiffies t :=
    Nat.mul_le_mul_left _ (tick.jiffies_mono before)
  rw [Nat.mul_sub]
  unfold jiffies at mono ⊢
  omega

theorem toNat_delta_jiffies (before : r ≤ t) (same : tick.jiffies t / 4294967296 = tick.jiffies r / 4294967296) :
    ¬tick.now t < tick.now r ∧ (tick.now t - tick.now r).toNat = tick.jiffies t - tick.jiffies r := by
  have mono := tick.jiffies_mono before
  have later : tick.now r ≤ tick.now t := by
    rw [BitVec.le_def, now, now, toNat_ofNat, toNat_ofNat]
    omega
  refine ⟨BitVec.not_lt.mpr later, ?_⟩
  rw [BitVec.toNat_sub_of_le later, now, now, toNat_ofNat, toNat_ofNat]
  omega

end Tick

/-! ### The invariant -/

/-- **The invariant of a run**: while the intervals are 0, the time stamp counts the jiffies since the reset. -/
structure StampInv (tick : Tick) (s : StampState) : Prop where
  right : StampsRight tick s
  order : s.resetAt ≤ s.lastAt
  ticks : s.fresh = true → s.dpd.prevJiffies = tick.now s.lastAt ∧
    s.due = tick.usec * (tick.jiffies s.lastAt - tick.jiffies s.resetAt)

section Runs

variable {tick : Tick} {s : StampState} {pri : BitVec 16} {t : ℕ}

theorem add_setWidth {w due x : ℕ} {v : BitVec w} (value : v.toNat = x) :
    BitVec.ofNat 64 due + v.setWidth 64 = BitVec.ofNat 64 (due + x) := by
  refine BitVec.eq_of_toNat_eq ?_
  rw [BitVec.toNat_add, BitVec.toNat_setWidth, toNat_ofNat, toNat_ofNat, value, ← Nat.add_mod]

theorem StampInv.addPulseTs (inv : StampInv tick s) (inOrder : s.lastAt ≤ t)
    (clock : pri = 0 → s.fresh = true ∧ tick.jiffies t / 4294967296 = tick.jiffies s.lastAt / 4294967296 ∧
      tick.usec * (tick.jiffies t - tick.jiffies s.lastAt) < 4294967296) :
    (s.dpd.addPulseTs tick pri (tick.now t)).lastPulseTs = .ofNat 64 (s.due + s.advance tick pri t) := by
  unfold DfsPatternDetector.addPulseTs StampState.advance
  by_cases zero : pri = 0
  · obtain ⟨fresh, same, short⟩ := clock zero
    obtain ⟨late, delta⟩ := tick.toNat_delta_jiffies inOrder same
    rw [if_pos zero, if_pos zero, (inv.ticks fresh).1]
    dsimp only
    rw [if_neg late, inv.right.stamp]
    refine add_setWidth ?_
    rw [Tick.jiffiesToUsecs, delta, toNat_ofNat]
    exact Nat.mod_eq_of_lt short
  · rw [if_neg zero, if_neg zero]
    dsimp only
    rw [inv.right.stamp]
    exact add_setWidth rfl

theorem stampInv_reset {dpd : DfsPatternDetector} (stamp : dpd.lastPulseTs = 0)
    (ticks : dpd.prevJiffies = tick.now t) :
    StampInv tick { dpd := dpd, resetAt := t, lastAt := t } where
  right := by
    refine ⟨stamp, fun _ => ?_⟩
    show 0 < t - t + tick.usec ∧ t - t < 0 + tick.usec
    have := tick.usec_pos
    omega
  order := Nat.le_refl t
  ticks _ := by
    refine ⟨ticks, ?_⟩
    show 0 = tick.usec * (tick.jiffies t - tick.jiffies t)
    rw [Nat.sub_self, Nat.mul_zero]

theorem StampInv.pulse (inv : StampInv tick s) {found : Bool} (inOrder : s.lastAt ≤ t)
    (allowed : OneClock tick s (.pulse pri t found)) : StampInv tick (s.pulse tick pri t found) := by
  obtain ⟨region, clock⟩ := allowed
  have stamp := inv.addPulseTs inOrder clock
  have add : s.dpd.dfsPatternDetectorAddPulse tick pri (tick.now t) found =
      if found = true then (s.dpd.addPulseTs tick pri (tick.now t)).dfsPatternDetectorReset (tick.now t)
      else s.dpd.addPulseTs tick pri (tick.now t) := if_neg (by rw [region]; decide)
  unfold StampState.pulse
  rw [add]
  dsimp only
  by_cases reset : found = true
  · rw [if_pos reset, if_pos reset]
    exact stampInv_reset rfl rfl
  rw [if_neg reset, if_neg reset]
  have order := inv.order
  refine ⟨⟨stamp, fun truthful => ?_⟩, order.trans inOrder, fun fresh => ?_⟩
  · show s.due + s.advance tick pri t < t - s.resetAt + tick.usec ∧
      t - s.resetAt < s.due + s.advance tick pri t + tick.usec
    obtain ⟨before, report⟩ := Bool.and_eq_true_iff.mp truthful
    unfold StampState.advance
    by_cases zero : pri = 0
    · obtain ⟨fresh, -⟩ := clock zero
      have close := tick.jiffies_close (order.trans inOrder)
      have first := tick.jiffies_mono order
      have second := tick.jiffies_mono inOrder
      rw [if_pos zero, (inv.ticks fresh).2, ← Nat.mul_add, Nat.add_comm, Nat.sub_add_sub_cancel second first]
      exact close
    · have true' := of_decide_eq_true report zero
      have close := inv.right.close before
      rw [if_neg zero, true']
      omega
  · obtain ⟨before, zero⟩ := Bool.and_eq_true_iff.mp fresh
    have zero := of_decide_eq_true zero
    have first := tick.jiffies_mono order
    have second := tick.jiffies_mono inOrder
    unfold DfsPatternDetector.addPulseTs StampState.advance
    rw [if_pos zero, if_pos zero, (inv.ticks before).2]
    refine ⟨rfl, ?_⟩
    show _ = tick.usec * (tick.jiffies t - tick.jiffies s.resetAt)
    rw [← Nat.mul_add, Nat.add_comm, Nat.sub_add_sub_cancel second first]

theorem stampInv (reach : (stampSystem tick).Reachable (OneClock tick) s) : StampInv tick s := by
  refine reach.invariant (stampInv_reset rfl rfl) ?_
  intro s a u _ inv allowed stepped
  cases a with
  | setDomain known =>
    obtain rfl := Option.some.inj stepped
    exact ⟨⟨inv.right.stamp, inv.right.close⟩, inv.order, inv.ticks⟩
  | pulse pri t found =>
    have stepped : (if s.lastAt ≤ t then some (s.pulse tick pri t found) else none) = some u := stepped
    split at stepped
    case isFalse => cases stepped
    case isTrue inOrder =>
      obtain rfl := Option.some.inj stepped
      exact inv.pulse inOrder allowed

/-- **The time stamps are right where the two clocks are not mixed.** -/
theorem stamps_right (reach : (stampSystem tick).Reachable (OneClock tick) s) : StampsRight tick s :=
  (stampInv reach).right

end Runs

/-- A clock of 250 ticks a second that begins 5 minutes before its 32 bits wrap. -/
def sampleTick : Tick where
  hz := 250
  phase := (4294967296 - 75000) * 4000
  pos := by decide
  whole := by decide

theorem stamps_right_sample : ∃ s, s.dpd.lastPulseTs = 108500 ∧ s.truthful = true ∧ StampsRight sampleTick s := by
  have reach := System.reachable_of_run (stampSystem sampleTick) (OneClock sampleTick)
    [.setDomain true, .pulse 0 110001 false, .pulse 500 110501 false] (by decide +kernel)
  exact ⟨_, by decide +kernel, by decide +kernel, stamps_right reach⟩

/-- **A time is counted twice**: 60 ms as an interval, and again with the interval of 0 behind it. -/
theorem stamp_twice : ¬∀ tick s, (stampSystem tick).Reachable (fun _ _ => True) s → StampsRight tick s := by
  intro all
  have reach := System.reachable_of_run (stampSystem sampleTick) (fun _ _ => True)
    [.setDomain true, .pulse 60000 60000 false, .pulse 0 160000 false] (by decide +kernel)
  generalize state : (System.run (stampSystem sampleTick) (fun _ _ => True) (stampSystem sampleTick).init
    [.setDomain true, .pulse 60000 60000 false, .pulse 0 160000 false]).get _ = s at reach
  have stamp := (all sampleTick s reach).stamp
  have twice : s.dpd.lastPulseTs = 220000 ∧ s.due = 160000 := by
    rw [← state]
    decide +kernel
  rw [twice.1, twice.2] at stamp
  revert stamp
  decide

end W2l.Radar
