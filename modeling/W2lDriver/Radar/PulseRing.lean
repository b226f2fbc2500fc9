/-
**The ring of radar pulses between the interrupt and the deferred work.**

`aml_radarind` (`aml_utils.c`) puts the pulses of an indication into the ring of their chain, where detection is
enabled on it; `aml_radar_process_pulse` (`aml_radar.c`) copies each ring in one or two pieces and empties it, and
where it reports a radar it disables detection and purges what has come meanwhile.

* `amlRadarInd`, `copyChain` — the two functions, on one chain.
* `radarSystem` — indications, runs, what a run finds, and changes of the detection, in any order.
* `RunRight` — **what a run copies**: the last pulses, in the order of their arrival.
-/

import W2lDriver.Lib.LastRing
import W2lDriver.Lib.System

namespace W2l.PulseRing

open Lib
open Function (update update_of_ne update_self)

/-! ### The data -/

/-- `enum aml_radar_chain`, below `AML_RADAR_LAST`. -/
inductive AmlRadarChain
  | riu
  | fcu
  deriving DecidableEq

inductive AmlRadarDetector
  | disable
  | enable
  | report
  deriving DecidableEq

def amlRadarPulseMax : ℕ := 32
def radarEventMax : ℕ := 10

structure AmlRadarPulses where
  index : ℕ := 0
  count : ℕ := 0
  buffer : ℕ → BitVec 32 := fun _ => 0

/-- `struct radar_pulse_array_desc`; memory goes on behind `pulse`. -/
structure RadarPulseArrayDesc where
  pulse : ℕ → BitVec 32
  idx : ℕ
  cnt : ℕ

/-- What the functions use of `struct aml_hw` and its `struct aml_radar`. -/
structure AmlHw where
  pulses : AmlRadarChain → AmlRadarPulses := fun _ => {}
  enabled : AmlRadarChain → AmlRadarDetector := fun _ => .disable
  workPending : Bool := false
  radarPulseIndex : ℕ := 0

def AmlHw.amlRadarDetectionEnable (hw : AmlHw) (mode : AmlRadarDetector) (chain : AmlRadarChain) : AmlHw :=
  { hw with enabled := Function.update hw.enabled chain mode }

def AmlHw.amlRadarDetectionIsEnable (hw : AmlHw) (chain : AmlRadarChain) : Bool :=
  decide (hw.enabled chain ≠ .disable)

/-! ### An indication -/

/-- The chain of an index, unless it is `AML_RADAR_LAST` or more. -/
def chainOf : ℕ → Option AmlRadarChain
  | 0 => some .riu
  | 1 => some .fcu
  | _ => none

def AmlRadarPulses.save (p : AmlRadarPulses) (pulse : BitVec 32) : AmlRadarPulses where
  buffer := Function.update p.buffer p.index pulse
  index := (p.index + 1) % amlRadarPulseMax
  count := if p.count < amlRadarPulseMax then p.count + 1 else p.count

def RadarPulseArrayDesc.received (desc : RadarPulseArrayDesc) : List (BitVec 32) := (List.range desc.cnt).map desc.pulse

/-- What an indication leaves: the result, the state, `cnt`, and whether the buffer goes back to the LMAC. -/
structure Indicated where
  ret : BitVec 8
  hw : AmlHw
  cnt : ℕ
  pushed : Bool

def AmlHw.nextEvent (hw : AmlHw) (pcie : Bool) : AmlHw :=
  if pcie then hw else { hw with radarPulseIndex := (hw.radarPulseIndex + 1) % radarEventMax }

def AmlHw.sameEvent (hw : AmlHw) (pcie : Bool) : AmlHw :=
  if pcie then hw
  else if 0 < hw.radarPulseIndex then { hw with radarPulseIndex := (hw.radarPulseIndex - 1) % radarEventMax }
  else { hw with radarPulseIndex := radarEventMax - 1 }

def AmlHw.saveAll (hw : AmlHw) (chain : AmlRadarChain) (pulses : List (BitVec 32)) : AmlHw :=
  { hw with
    pulses := Function.update hw.pulses chain (pulses.foldl AmlRadarPulses.save (hw.pulses chain))
    workPending := true }

def amlRadarInd (pcie : Bool) (hw : AmlHw) (desc : RadarPulseArrayDesc) : Indicated :=
  let hw := hw.nextEvent pcie
  if desc.cnt = 0 then ⟨255, hw.sameEvent pcie, desc.cnt, false⟩
  else
    match chainOf desc.idx with
    | none => ⟨255, hw, desc.cnt, false⟩
    | some chain =>
      -- the pulses are saved only if detection is enabled
      ⟨0, if hw.amlRadarDetectionIsEnable chain then hw.saveAll chain desc.received else hw, 0, pcie⟩

/-! ### A run -/

/-- `memcpy` of `n` cells. -/
def memcpy (dst : ℕ → BitVec 32) (d : ℕ) (src : ℕ → BitVec 32) (s n : ℕ) : ℕ → BitVec 32 := fun k =>
  if d ≤ k ∧ k < d + n then src (s + (k - d)) else dst k

/-- One chain in a run: its row of `pulses`, `pulses_count`, and the ring. -/
structure Copied where
  pulses : ℕ → BitVec 32
  pulsesCount : ℕ
  ring : AmlRadarPulses

/-- The first loop of `aml_radar_process_pulse`, for one chain. -/
def copyChain (p : AmlRadarPulses) : Copied :=
  let count := p.count
  let start : ℤ := (p.index : ℤ) - count
  let start := if start < 0 then start + amlRadarPulseMax else start
  let pulses : ℕ → BitVec 32 := fun _ => 0
  let pulsesCount := count % 2 ^ 16
  if count = 0 then ⟨pulses, pulsesCount, p⟩
  else
    let pulses :=
      if start + count > amlRadarPulseMax then
        let count1 := (amlRadarPulseMax - start).toNat % 2 ^ 16
        memcpy (memcpy pulses 0 p.buffer start.toNat count1) count1 p.buffer 0 (count - count1)
      else memcpy pulses 0 p.buffer start.toNat count
    ⟨pulses, pulsesCount, { p with count := 0 }⟩

def Copied.localPulses (r : Copied) : List (BitVec 32) := (List.range r.pulsesCount).map r.pulses

/-- The first loop, for both chains. -/
def AmlHw.copyAll (hw : AmlHw) : AmlHw :=
  { hw with
    pulses := fun chain => (copyChain (hw.pulses chain)).ring
    workPending := false }

/-- What the second loop does where the pulses of a chain are those of a radar. -/
def AmlHw.radarFound (hw : AmlHw) (chain : AmlRadarChain) : AmlHw :=
  if chain = .riu ∧ hw.enabled chain = .report then
    let hw := hw.amlRadarDetectionEnable .disable chain
    -- any event since the beginning of the run is purged
    { hw with pulses := Function.update hw.pulses chain { hw.pulses chain with count := 0 } }
  else hw

/-! ### All orders -/

/-- The driver, and what has come. -/
structure State where
  hw : AmlHw := {}
  /-- The chains whose pulses a run still processes. -/
  processing : AmlRadarChain → Bool := fun _ => false
  /-- The pulses of a chain since the last run began. -/
  received : AmlRadarChain → List (BitVec 32) := fun _ => []
  /-- Those that came while detection was enabled, since a run emptied the ring. -/
  kept : AmlRadarChain → List (BitVec 32) := fun _ => []

inductive Event
  | ind (desc : RadarPulseArrayDesc)
  | run
  | found (chain : AmlRadarChain)
  | enable (mode : AmlRadarDetector) (chain : AmlRadarChain)

/-- What has come with an indication. -/
def State.receive (s : State) (desc : RadarPulseArrayDesc) : State :=
  match chainOf desc.idx with
  | none => s
  | some chain =>
    { s with
      received := Function.update s.received chain (s.received chain ++ desc.received)
      kept := if s.hw.amlRadarDetectionIsEnable chain then
          Function.update s.kept chain (s.kept chain ++ desc.received)
        else s.kept }

/-- One event. -/
def step (pcie : Bool) (s : State) : Event → Option State
  | .ind desc => some { s.receive desc with hw := (amlRadarInd pcie s.hw desc).hw }
  | .run => some
    { hw := s.hw.copyAll
      processing := fun chain => decide ((copyChain (s.hw.pulses chain)).pulsesCount ≠ 0)
      received := fun _ => []
      kept := fun _ => [] }
  | .found chain =>
    if s.processing chain then
      some { s with
        hw := s.hw.radarFound chain
        processing := Function.update s.processing chain false
        kept := if chain = .riu ∧ s.hw.enabled chain = .report then Function.update s.kept chain [] else s.kept }
    else none
  | .enable mode chain => some { s with hw := s.hw.amlRadarDetectionEnable mode chain }

def radarSystem (pcie : Bool) : System State Event where
  init := {}
  step := step pcie

/-- **What a run copies**: the last pulses, in the order of their arrival; the ring is empty then. -/
structure RunRight (got : List (BitVec 32)) (r : Copied) : Prop where
  last : r.localPulses <:+ got
  length : r.localPulses.length = min got.length amlRadarPulseMax
  empty : r.ring.count = 0

/-! ### One chain -/

section Chain

variable {p : AmlRadarPulses} {got : List (BitVec 32)}

/-- The ring of a chain holds the last pulses of `got`. -/
def Keeps (p : AmlRadarPulses) (got : List (BitVec 32)) : Prop :=
  KeepsLast amlRadarPulseMax p.buffer p.index p.count got

section

variable (keeps : Keeps p got)

include keeps

theorem Keeps.save (pulse : BitVec 32) : Keeps (p.save pulse) (got ++ [pulse]) := by
  have below := keeps.below
  have index : (p.index + 1) % amlRadarPulseMax = wrap amlRadarPulseMax (p.index + 1) :=
    mod_eq_wrap (by omega)
  have count : (if p.count < amlRadarPulseMax then p.count + 1 else p.count) = min (p.count + 1) amlRadarPulseMax := by
    have most := keeps.count_eq
    split <;> omega
  unfold Keeps AmlRadarPulses.save
  dsimp only
  rw [index, count]
  exact keeps.put pulse

theorem Keeps.saveAll (pulses : List (BitVec 32)) : Keeps (pulses.foldl AmlRadarPulses.save p) (got ++ pulses) := by
  induction pulses generalizing p got with
  | nil =>
    rw [List.append_nil]
    exact keeps
  | cons pulse rest ih =>
    rw [List.append_cons]
    exact ih (keeps.save pulse)

theorem Keeps.emptied : Keeps { p with count := 0 } [] := KeepsLast.empty keeps.below

theorem copyChain_pulses {k : ℕ} (inside : k < p.count) :
    (copyChain p).pulses k = p.buffer (wrap amlRadarPulseMax (p.index + amlRadarPulseMax - p.count + k)) := by
  have below := keeps.below
  have most := keeps.count_eq
  have some_ : p.count ≠ 0 := Nat.ne_zero_of_lt inside
  unfold copyChain
  dsimp only
  rw [if_neg some_]
  dsimp only
  unfold amlRadarPulseMax at *
  have start : ((if (p.index : ℤ) - p.count < 0 then (p.index : ℤ) - p.count + (32 : ℕ) else p.index - p.count) : ℤ) =
      wrap 32 (p.index + 32 - p.count) := by
    unfold wrap
    split_ifs <;> omega
  rw [start, ← wrap_wrap_add (by omega)]
  have less : wrap 32 (p.index + 32 - p.count) < 32 := by
    unfold wrap
    split_ifs <;> omega
  generalize wrap 32 (p.index + 32 - p.count) = first at less
  unfold memcpy wrap
  split_ifs <;> dsimp only <;> split_ifs <;> first | omega | exact congrArg p.buffer (by omega)

theorem copyChain_count : (copyChain p).pulsesCount = p.count ∧ (copyChain p).ring.count = 0 := by
  have most := keeps.count_eq
  have small : p.count % 2 ^ 16 = p.count := Nat.mod_eq_of_lt (by unfold amlRadarPulseMax at most; omega)
  unfold copyChain
  dsimp only
  split
  case isTrue none => exact ⟨small, none⟩
  case isFalse some_ => exact ⟨small, rfl⟩

theorem Keeps.run : RunRight got (copyChain p) := by
  obtain ⟨count, empty⟩ := copyChain_count keeps
  have pulses : (copyChain p).localPulses = got.drop (got.length - p.count) := by
    rw [← keeps.contents]
    unfold Copied.localPulses
    rw [count]
    exact List.map_congr_left fun k member => copyChain_pulses keeps (List.mem_range.mp member)
  refine ⟨?_, ?_, empty⟩
  · rw [pulses]
    exact List.drop_suffix _ _
  · have most := keeps.count_eq
    rw [pulses, List.length_drop]
    omega

theorem Keeps.copied : Keeps (copyChain p).ring [] := by
  have same : (copyChain p).ring = { p with count := 0 } := by
    unfold copyChain
    dsimp only
    split
    case isTrue none => rw [← none]
    case isFalse some_ => rfl
  rw [same]
  exact keeps.emptied

end

end Chain

/-! ### All runs -/

def Held (s : State) : Prop := ∀ chain, Keeps (s.hw.pulses chain) (s.kept chain)

section Steps

variable {s : State}

theorem pulses_nextEvent (hw : AmlHw) (pcie : Bool) : (hw.nextEvent pcie).pulses = hw.pulses := by
  unfold AmlHw.nextEvent
  split <;> rfl

theorem enabled_nextEvent (hw : AmlHw) (pcie : Bool) : (hw.nextEvent pcie).enabled = hw.enabled := by
  unfold AmlHw.nextEvent
  split <;> rfl

theorem pulses_sameEvent (hw : AmlHw) (pcie : Bool) : (hw.sameEvent pcie).pulses = hw.pulses := by
  unfold AmlHw.sameEvent
  split_ifs <;> rfl

theorem Held.ind (held : Held s) (pcie : Bool) (desc : RadarPulseArrayDesc) :
    Held { s.receive desc with hw := (amlRadarInd pcie s.hw desc).hw } := by
  intro chain
  unfold amlRadarInd State.receive
  dsimp only
  by_cases none : desc.cnt = 0
  · have nothing : desc.received = [] := by
      unfold RadarPulseArrayDesc.received
      rw [none]
      rfl
    rw [if_pos none, pulses_sameEvent, pulses_nextEvent, nothing]
    cases chainOf desc.idx with
    | none => exact held chain
    | some c =>
      dsimp only
      rw [List.append_nil, Function.update_eq_self, ite_self]
      exact held chain
  · rw [if_neg none]
    cases chainOf desc.idx with
    | none =>
      dsimp only
      rw [pulses_nextEvent]
      exact held chain
    | some c =>
      have same : (s.hw.nextEvent pcie).amlRadarDetectionIsEnable c = s.hw.amlRadarDetectionIsEnable c := by
        unfold AmlHw.amlRadarDetectionIsEnable
        rw [enabled_nextEvent]
      dsimp only
      rw [same]
      by_cases enabled : s.hw.amlRadarDetectionIsEnable c = true
      · rw [if_pos enabled, if_pos enabled]
        unfold AmlHw.saveAll
        dsimp only
        rw [pulses_nextEvent]
        by_cases this_ : chain = c
        · subst this_
          rw [update_self, update_self]
          exact (held chain).saveAll desc.received
        · rw [update_of_ne this_, update_of_ne this_]
          exact held chain
      · rw [if_neg enabled, if_neg enabled, pulses_nextEvent]
        exact held chain

theorem Held.found (held : Held s) (chain : AmlRadarChain) : Held { s with
    hw := s.hw.radarFound chain
    processing := update s.processing chain false
    kept := if chain = .riu ∧ s.hw.enabled chain = .report then update s.kept chain [] else s.kept } := by
  intro other
  unfold AmlHw.radarFound
  dsimp only
  by_cases purged : chain = .riu ∧ s.hw.enabled chain = .report
  · rw [if_pos purged, if_pos purged]
    dsimp only
    by_cases this_ : other = chain
    · subst this_
      rw [update_self, update_self]
      exact (held other).emptied
    · rw [update_of_ne this_, update_of_ne this_]
      exact held other
  · rw [if_neg purged, if_neg purged]
    exact held other

theorem Held.step {s' : State} {pcie : Bool} {event : Event} (held : Held s) (stepped : step pcie s event = some s') :
    Held s' := by
  cases event with
  | ind desc =>
    obtain rfl := Option.some.inj stepped
    exact held.ind pcie desc
  | run =>
    obtain rfl := Option.some.inj stepped
    exact fun chain => (held chain).copied
  | found chain =>
    unfold PulseRing.step at stepped
    dsimp only at stepped
    split at stepped
    case isTrue busy =>
      obtain rfl := Option.some.inj stepped
      exact held.found chain
    case isFalse idle => exact nomatch stepped
  | enable mode chain =>
    obtain rfl := Option.some.inj stepped
    exact held

end Steps

theorem held_init : Held {} := fun _ => KeepsLast.empty (show 0 < 32 by decide)

/-- **A run copies the last of the pulses** that came, while detection was enabled on the chain, since a run emptied
its ring. -/
theorem run_right (pcie : Bool) {s : State} (reach : (radarSystem pcie).Reachable (fun _ _ => True) s)
    (chain : AmlRadarChain) : RunRight (s.kept chain) (copyChain (s.hw.pulses chain)) := by
  have held : Held s := reach.invariant (I := Held) held_init fun _ _ _ _ held _ stepped => held.step stepped
  exact (held chain).run

def enabledAndOne : List Event := [.enable .report .riu, .ind ⟨fun _ => 7, 0, 1⟩]

theorem run_right_one : RunRight [7] (copyChain (((radarSystem true).run (fun _ _ => True) {} enabledAndOne).get
    (by decide) |>.hw.pulses .riu)) :=
  run_right true (System.reachable_of_run (radarSystem true) (fun _ _ => True) enabledAndOne (by decide)) .riu

theorem run_not_right : ¬∀ pcie (s : State), (radarSystem pcie).Reachable (fun _ _ => True) s →
    ∀ chain, RunRight (s.received chain) (copyChain (s.hw.pulses chain)) := by
  intro all
  have stepped : (radarSystem true).step (radarSystem true).init (.ind ⟨fun _ => 7, 0, 1⟩) = some _ := rfl
  have reach : (radarSystem true).Reachable (fun _ _ => True) _ := .step .init trivial stepped
  exact absurd (all true _ reach .riu).length (by decide)

end W2l.PulseRing
