/-
**Short-pulse radar detection: a stream of pulses.**

A detector from `pri_detector_init` on, with pulses that are not in front of one another and resets.

* `Monitor` — a detector, the pulses fed since the last reset, and whether a sequence was returned.
* `PulseChain` — the pulses a returned sequence stands for.
-/

import W2lDriver.Lib.System
import W2lDriver.Radar.Short

namespace W2l.Radar

open Lib
open List (mem_cons not_mem_nil)

/-- A detector in use. -/
structure Monitor where
  det : PriDetector
  /-- The pulses since the last reset, newest first. -/
  fed : List Ts := []
  /-- No sequence was returned since the last reset. -/
  quiet : Bool := true

inductive RadarAct
  | feed (ts : Ts) (room : Nat) (elem : Bool)
  | reset (ts : Ts)

namespace Monitor

/-- `pde_short_add_pulse`. -/
def feed (s : Monitor) (ts : Ts) (room : Nat) (elem : Bool) : Monitor :=
  let r := pdeShortAddPulse s.det ts room elem
  { det := r.pde
    fed := if r.reset then [] else ts :: s.fed
    quiet := r.reset || s.quiet && r.found.isNone }

/-- `pri_detector_reset`. -/
def reset (s : Monitor) (ts : Ts) : Monitor :=
  { det := s.det.priDetectorReset ts }

end Monitor

/-- The runs of a detector. -/
def radarSystem (rs : RadarDetectorSpecs) : System Monitor RadarAct where
  init := { det := priDetectorInit rs }
  step s
    | .feed ts room elem => some (s.feed ts room elem)
    | .reset ts => some (s.reset ts)

/-- A pulse is not in front of the one before it. -/
def InOrder (s : Monitor) (ts : Ts) : Prop := ∀ newest ∈ s.fed.head?, newest ≤ ts

instance (s : Monitor) (ts : Ts) : Decidable (InOrder s ts) :=
  Option.decidableForallMem s.fed.head?

def InTime (s : Monitor) : RadarAct → Prop
  | .feed ts _ _ => InOrder s ts
  | .reset _ => True

instance (s : Monitor) : ∀ a, Decidable (InTime s a)
  | .feed ts _ _ => inferInstanceAs (Decidable (InOrder s ts))
  | .reset _ => isTrue trivial

/-- **The pulses a sequence stands for**, newest first: those behind the one that created it, that
one, and those in front of it. -/
structure PulseChain (rs : RadarDetectorSpecs) (fed : List Ts) (ps : PriSequence) (newest : Ts)
    (later : List Ts) (creator : Ts) (earlier : List Ts) : Prop where
  fed : (later ++ creator :: earlier).Sublist fed
  count : (later ++ creator :: earlier).length = ps.count
  inside : ∀ p ∈ later ++ creator :: earlier, ps.firstTs.toNat ≤ p.toNat ∧
    p.toNat ≤ ps.firstTs.toNat + ps.pri.toNat * (rs.ppb.toNat - 1) + 2 * rs.maxPriTolerance.toNat
  first : (later ++ creator :: earlier).getLast? = some ps.firstTs
  newest : (later ++ creator :: earlier).head? = some newest
  earlier : ∀ p ∈ earlier, Near rs.maxPriTolerance.toNat ps.pri.toNat (creator.toNat - p.toNat)
  later : (later ++ [creator]).IsChain fun newer older =>
    Near rs.maxPriTolerance.toNat ps.pri.toNat (newer.toNat - older.toNat)

/-- **What a returned sequence has to be.** -/
structure Sound (rs : RadarDetectorSpecs) (fed : List Ts) (ps : PriSequence) (newest : Ts) : Prop where
  low : rs.priMin.toNat ≤ ps.pri.toNat
  high : ps.pri.toNat ≤ rs.priMax.toNat
  enough : ps.ppbThresh.toNat ≤ ps.count
  pulses : ∃ later creator earlier, PulseChain rs fed ps newest later creator earlier

variable {rs : RadarDetectorSpecs} {s s' : Monitor} {ts : Ts} {ps : PriSequence} {fed : List Ts}

theorem head_of_append {later earlier : List Ts} {creator newest : Ts}
    (head : (later ++ [creator]).head? = some newest) :
    (later ++ creator :: earlier).head? = some newest := by
  rw [List.append_cons, List.head?_append, head]
  rfl

theorem Chain.pulseChain {later earlier : List Ts} {creator : Ts} (shape : Shape rs ps)
    (ordered : Ordered fed) (sub : (later ++ creator :: earlier).Sublist fed)
    (chain : Chain rs ps later creator earlier) :
    PulseChain rs fed ps ps.lastTs later creator earlier := by
  have whole : Ordered (later ++ creator :: earlier) := List.Pairwise.sublist sub ordered
  have newest : (later ++ creator :: earlier).head? = some ps.lastTs := head_of_append chain.newest
  have first : (later ++ creator :: earlier).getLast? = some ps.firstTs := by
    rw [List.getLast?_append_of_ne_nil _ (List.cons_ne_nil _ _)]
    exact chain.oldest
  refine ⟨sub, chain.count, fun p member => ⟨whole.last_le first member, ?_⟩, first, newest,
    chain.backward, chain.forward⟩
  have upTo := chain.inside
  rw [shape.dur] at upTo
  have behind : p.toNat ≤ ps.lastTs.toNat := by
    obtain ⟨rest, split⟩ := List.head?_eq_some_iff.mp newest
    rw [split] at whole member
    rcases mem_cons.mp member with rfl | older
    · exact Nat.le_refl _
    · exact whole.head_le older
  omega

theorem Detected.sound (detected : Detected rs fed ps) (ordered : Ordered fed) : Sound rs fed ps ps.lastTs := by
  obtain ⟨shape, enough, later, creator, earlier, sub, chain⟩ := detected
  exact ⟨shape.low, shape.high, enough, later, creator, earlier, chain.pulseChain shape ordered sub⟩

theorem Ordered.cons (ordered : Ordered s.fed) (inOrder : InOrder s ts) : Ordered (ts :: s.fed) := by
  refine List.pairwise_cons.mpr ⟨fun p member => ?_, ordered⟩
  cases split : s.fed with
  | nil =>
    rw [split] at member
    exact absurd member not_mem_nil
  | cons newest rest =>
    have front : newest ≤ ts := inOrder newest (by rw [split]; rfl)
    rw [split] at member ordered
    rcases mem_cons.mp member with rfl | older
    · exact front
    · rw [BitVec.le_def] at front ⊢
      exact (ordered.head_le older).trans front

theorem DetectorInv.step (usable : Usable rs) (inv : DetectorInv rs s.fed s.quiet s.det) {a : RadarAct}
    (inTime : InTime s a) (stepped : (radarSystem rs).step s a = some s') :
    DetectorInv rs s'.fed s'.quiet s'.det := by
  cases a with
  | feed ts room elem =>
    obtain rfl := Option.some.inj stepped
    exact (pdeShortAddPulse_kept usable inv (inv.ordered.cons inTime) room elem).inv
  | reset ts =>
    obtain rfl := Option.some.inj stepped
    refine ⟨inv.pattern, .nil, List.Sublist.refl _, ?_, ?_⟩
    · exact fun ps member => absurd member not_mem_nil
    · exact fun _ ps member => absurd member not_mem_nil

theorem reachable_inv (usable : Usable rs) (reach : (radarSystem rs).Reachable InTime s) :
    DetectorInv rs s.fed s.quiet s.det := by
  refine reach.invariant (I := fun s => DetectorInv rs s.fed s.quiet s.det) ?_
    fun _ _ _ _ inv inTime stepped => inv.step usable inTime stepped
  refine ⟨rfl, .nil, List.Sublist.refl _, ?_, ?_⟩
  · exact fun ps member => absurd member not_mem_nil
  · exact fun _ ps member => absurd member not_mem_nil

/-- **A sequence that is returned is made of pulses that were fed**: the newest of them is the pulse
just added as long as no sequence was returned since the last reset. -/
theorem detection_sound {rs : RadarDetectorSpecs} (known : rs ∈ shortSpecs) {s : Monitor}
    (reach : (radarSystem rs).Reachable InTime s) {ts : Ts} (inOrder : InOrder s ts) {room : Nat}
    {elem : Bool} {ps : PriSequence} (found : (pdeShortAddPulse s.det ts room elem).found = some ps) :
    ∃ newest, Sound rs (ts :: s.fed) ps newest ∧ (s.quiet = true → newest = ts) := by
  have usable := usable_of_mem known
  have inv := reachable_inv usable reach
  have ordered := inv.ordered.cons inOrder
  obtain ⟨detected, last⟩ := (pdeShortAddPulse_kept usable inv ordered room elem).found ps found
  exact ⟨ps.lastTs, detected.sound ordered, last⟩

/-! ### A stream -/

def samplePattern : RadarDetectorSpecs := etsiPatternShort 1 0 10 200 1000 10

theorem samplePattern_known : samplePattern ∈ shortSpecs := by decide +kernel

def feedAll (times : List Nat) : List RadarAct := times.map fun t => .feed (BitVec.ofNat 64 t) 8 true

def sampleAfter (times : List Nat) : Monitor :=
  ((radarSystem samplePattern).run InTime (radarSystem samplePattern).init (feedAll times)).getD
    (radarSystem samplePattern).init

theorem sampleAfter_reachable (times : List Nat) :
    (radarSystem samplePattern).Reachable InTime (sampleAfter times) := by
  unfold sampleAfter
  cases ran : (radarSystem samplePattern).run InTime (radarSystem samplePattern).init (feedAll times) with
  | none => exact .init
  | some s => exact System.reachable_of_run_from .init ran

/-- The fifth pulse of a burst is detected. -/
theorem detection_sound_sample : ∃ (s : Monitor) (ps : PriSequence), s.quiet = true ∧
    (pdeShortAddPulse s.det 5000 8 true).found = some ps ∧
    Sound samplePattern (5000 :: s.fed) ps 5000 := by
  have quiet : (sampleAfter [1000, 2000, 3000, 4000]).quiet = true := by decide +kernel
  have found : (pdeShortAddPulse (sampleAfter [1000, 2000, 3000, 4000]).det 5000 8 true).found.isSome =
      true := by decide +kernel
  obtain ⟨ps, found⟩ := Option.isSome_iff_exists.mp found
  obtain ⟨newest, sound, last⟩ := detection_sound samplePattern_known (sampleAfter_reachable [1000, 2000, 3000, 4000])
    (show InOrder (sampleAfter [1000, 2000, 3000, 4000]) 5000 by decide +kernel) found
  exact ⟨_, ps, quiet, found, last quiet ▸ sound⟩

theorem between_not_near {p : Ts} (member : p ∈ ([5000, 4000, 3000, 2000, 1000] : List Ts)) :
    ¬ Near 16 1000 ((5500 : Ts).toNat - p.toNat) := by
  rintro ⟨factor, -, low, high⟩
  have late : (5500 : Ts).toNat = 5500 := rfl
  rw [late] at low high
  simp only [mem_cons, not_mem_nil, or_false] at member
  rcases member with rfl | rfl | rfl | rfl | rfl
  · have at_ : (5000 : Ts).toNat = 5000 := rfl
    omega
  · have at_ : (4000 : Ts).toNat = 4000 := rfl
    omega
  · have at_ : (3000 : Ts).toNat = 3000 := rfl
    omega
  · have at_ : (2000 : Ts).toNat = 2000 := rfl
    omega
  · have at_ : (1000 : Ts).toNat = 1000 := rfl
    omega

/-- **A sequence that was returned is returned again** if there is no reset, with a pulse that is
not of it. -/
theorem detection_repeats : ¬ ∀ s, (radarSystem samplePattern).Reachable InTime s →
    ∀ ts, InOrder s ts → ∀ room elem ps, (pdeShortAddPulse s.det ts room elem).found = some ps →
      Sound samplePattern (ts :: s.fed) ps ts := by
  intro always
  have sound := always (sampleAfter [1000, 2000, 3000, 4000, 5000]) (sampleAfter_reachable _) 5500
    (by decide +kernel) 8 true
    { pri := 1000
      dur := 9032
      count := 5
      countFalses := 1
      firstTs := 1000
      lastTs := 5000
      deadlineTs := 10032
      ppbThresh := 5 } (by decide +kernel)
  obtain ⟨later, creator, earlier, sub, count, -, -, newest, backward, forward⟩ := sound.pulses
  have fed : (sampleAfter [1000, 2000, 3000, 4000, 5000]).fed = [5000, 4000, 3000, 2000, 1000] := by
    decide +kernel
  rw [fed] at sub
  obtain _ | ⟨front, later⟩ := later
  · obtain rfl : creator = 5500 := Option.some.inj newest
    obtain _ | ⟨p, earlier⟩ := earlier
    · cases count
    · have rest := List.cons_sublist_cons.mp sub
      exact between_not_near (rest.subset List.mem_cons_self) (backward p List.mem_cons_self)
  · obtain rfl : front = 5500 := Option.some.inj newest
    have rest := List.cons_sublist_cons.mp sub
    obtain _ | ⟨p, later⟩ := later
    · exact between_not_near (rest.subset List.mem_cons_self) (List.isChain_cons_cons.mp forward).1
    · exact between_not_near (rest.subset List.mem_cons_self) (List.isChain_cons_cons.mp forward).1

end W2l.Radar
