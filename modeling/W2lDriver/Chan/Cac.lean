/-
**CAC: the channel availability check.**

`aml_cfg80211_start_radar_detection` (`fullmac/aml_main.c`), `aml_radar_start_cac`,
`aml_radar_cancel_cac` and `aml_radar_cac_work` (`aml_radar.c`). The request, the work and a cancellation
sleep while the firmware answers; anything may come in between.

* `CacHw` — the channel contexts, with who sleeps and what cfg80211 was told.
* `CacHw.start`, `answer`, `expire`, `workEnd`, `cancel`, `cancelEnd` — the functions, cut where they sleep.
* `cancel_hw`, `work_hw` — undisturbed they are `aml_radar_cancel_cac`, `aml_radar_cac_work`.
* `cacSystem` — **the runs**.
* `CacLifecycle` — a CAC that the firmware accepts ends once, by its time or by a cancellation, and is
  unlinked once.
-/

import W2lDriver.Chan.Events

set_option linter.unusedSectionVars false

namespace W2l.Chan

open Lib (System)

/-- What ends a CAC, by the number of its request. -/
inductive CacEvent
  /-- `NL80211_RADAR_CAC_FINISHED`, and the request whose time has elapsed. -/
  | finished (cac armed : ℕ)
  /-- `NL80211_RADAR_CAC_ABORTED`. -/
  | aborted (cac : ℕ)
  /-- The context of the interface is unlinked. -/
  | unlinked (cac : ℕ)
  deriving DecidableEq

def CacEvent.ends (cac : ℕ) : CacEvent → Bool
  | .finished c _ => c = cac
  | .aborted c => c = cac
  | .unlinked _ => false

/-- The driver. -/
structure CacHw (V : Type) where
  hw : ChanHw V := {}
  /-- The request that waits for the firmware. -/
  starting : Option (V × Chandef) := none
  /-- The work waits for the firmware. -/
  working : Bool := false
  /-- The calls of `aml_radar_cancel_cac` that wait for the firmware. -/
  cancelling : ℕ := 0
  /-- The number of requests; the last one is that of `cac_vif`. -/
  cac : ℕ := 0
  /-- The request whose time the work waits for. -/
  armed : ℕ := 0
  accepted : List ℕ := []
  declined : List ℕ := []
  /-- The latest first. -/
  log : List CacEvent := []
  /-- Accesses behind `chanctx_table`. -/
  stray : ℕ := 0
  /-- `cac_vif` was followed when it was `NULL`. -/
  crashed : Bool := false

/-- How the firmware answers `APM_START_CAC_REQ`. -/
inductive CacCfm
  | accepted (chIdx : BitVec 8)
  | refused
  /-- The command fails, and this is on the stack. -/
  | failed (stale : Option (BitVec 8))
  deriving DecidableEq

/-- What happens. -/
inductive CacAct (V : Type)
  | startRadarDetection (vif : V) (chandef : Chandef)
  | answer (cfm : CacCfm)
  /-- The time is up and the work runs. -/
  | expire
  | workEnd
  /-- `aml_radar_cancel_cac`, also by closing, stopping an AP, a radar, leaving a mesh and recovery. -/
  | cancel
  | cancelEnd
  /-- Stopping an AP and closing unlink behind the cancellation, leaving a mesh and recovery before it. -/
  | unlink (vif : V)
  | link (vif : V) (chIdx : BitVec 8) (chandef : Chandef)

variable {V : Type} [DecidableEq V]

namespace CacHw

variable (s : CacHw V)

/-- `chanctx_table` is indexed with the context of an interface. -/
def index (v : V) : CacHw V := if s.hw.chIndex v < nxChanCtxtCnt then s else { s with stray := s.stray + 1 }

def unlink (v : V) : CacHw V :=
  { s with
    hw := s.hw.chanctxUnlink v
    log := if s.hw.cacVif = some v ∧ s.hw.chIndex v ≠ amlChNotSet then .unlinked s.cac :: s.log else s.log }

/-- `aml_radar_start_cac`, and the request is sent. A work that is pending keeps its time. -/
def start (v : V) (chandef : Chandef) : CacHw V :=
  { s with
    hw := s.hw.radarStartCac v
    starting := some (v, chandef)
    cac := s.cac + 1
    armed := if s.hw.cacWork then s.armed else s.cac + 1 }

/-- The end of `aml_cfg80211_start_radar_detection`. -/
def answer (v : V) (chandef : Chandef) (cfm : CacCfm) : CacHw V :=
  let s := { s with starting := none }
  match cfm with
  | .accepted chIdx =>
    { s with
      hw := s.hw.chanctxLink v chIdx (some chandef)
      accepted := s.cac :: s.accepted }
  | .refused => { s with declined := s.cac :: s.declined }
  | .failed none => { s with declined := s.cac :: s.declined }
  | .failed (some chIdx) =>
    { s with
      hw := s.hw.chanctxLink v chIdx (some chandef)
      declined := s.cac :: s.declined }

/-- `aml_radar_cac_work`, up to where it sleeps. -/
def expire : CacHw V :=
  let s := { s with hw := { s.hw with cacWork := false } }
  match s.hw.cacVif with
  | none => s
  | some v =>
    { s.index v with
      log := .finished s.cac s.armed :: s.log
      working := true }

/-- The rest of `aml_radar_cac_work`. -/
def workEnd : CacHw V :=
  let s := { s with working := false }
  match s.hw.cacVif with
  | none => { s with crashed := true }
  | some v => { s.unlink v with hw := { (s.unlink v).hw with cacVif := none } }

/-- `aml_radar_cancel_cac`, up to where it sleeps. -/
def cancel : CacHw V :=
  match s.hw.cacVif with
  | none => s
  | some v =>
    if s.hw.cacWork then
      { s.index v with
        hw := { s.hw with cacWork := false }
        cancelling := s.cancelling + 1 }
    else { s with hw := { s.hw with cacVif := none } }

/-- The rest of `aml_radar_cancel_cac`. -/
def cancelEnd : CacHw V :=
  let s := { s with cancelling := s.cancelling - 1 }
  match s.hw.cacVif with
  | none => { s with crashed := true }
  | some v =>
    let s := { s with log := .aborted s.cac :: s.log }
    { s.unlink v with hw := { (s.unlink v).hw with cacVif := none } }

/-- **What happens.** Requests exclude each other, the work runs when it is pending and does not run. -/
def act : CacAct V → Option (CacHw V)
  | .startRadarDetection v chandef => if s.starting = none then some (s.start v chandef) else none
  | .answer cfm =>
    match s.starting with
    | none => none
    | some (v, chandef) => some (s.answer v chandef cfm)
  | .expire => if s.hw.cacWork ∧ s.working = false then some s.expire else none
  | .workEnd => if s.working then some s.workEnd else none
  | .cancel => some s.cancel
  | .cancelEnd => if 0 < s.cancelling then some s.cancelEnd else none
  | .unlink v => some (s.unlink v)
  | .link v chIdx chandef => some { s with hw := s.hw.chanctxLink v chIdx (some chandef) }

variable {s}

@[simp] theorem index_hw (v : V) : (s.index v).hw = s.hw := by
  unfold index
  split <;> rfl

theorem index_of_linked {v : V} (linked : s.hw.chIndex v < nxChanCtxtCnt) : s.index v = s := if_pos linked

theorem cancel_hw : (if s.hw.cacVif ≠ none ∧ s.hw.cacWork = true then s.cancel.cancelEnd else s.cancel).hw =
    s.hw.radarCancelCac := by
  unfold cancel ChanHw.radarCancelCac
  cases vif : s.hw.cacVif with
  | none => rw [if_neg fun both => both.1 rfl]
  | some v =>
    cases work : s.hw.cacWork with
    | false =>
      rw [if_neg fun both => nomatch both.2]
      rfl
    | true =>
      rw [if_pos ⟨nofun, rfl⟩]
      dsimp only
      rw [if_pos rfl]
      unfold cancelEnd
      dsimp only
      rw [vif]
      rfl

theorem work_hw : (if s.hw.cacVif = none then s.expire else s.expire.workEnd).hw = s.hw.radarCacWork := by
  unfold expire ChanHw.radarCacWork
  cases vif : s.hw.cacVif with
  | none =>
    rw [if_pos rfl]
    simp only [vif]
  | some v =>
    rw [if_neg nofun]
    unfold workEnd
    simp only [vif, index_hw]
    rfl

end CacHw

def cacSystem (V : Type) [DecidableEq V] : System (CacHw V) (CacAct V) where
  init := {}
  step := CacHw.act

/-- How often cfg80211 is told that a CAC has ended. -/
def ends (cac : ℕ) (log : List CacEvent) : ℕ := log.countP (CacEvent.ends cac)

def unlinks (cac : ℕ) (log : List CacEvent) : ℕ := log.count (.unlinked cac)

def CacHw.Ongoing (s : CacHw V) (cac : ℕ) : Prop := s.cac = cac ∧ s.hw.cacVif ≠ none

instance (s : CacHw V) (cac : ℕ) : Decidable (s.Ongoing cac) := inferInstanceAs (Decidable (_ ∧ _))

/-- **The lifecycle of the CACs.** -/
structure CacLifecycle (s : CacHw V) : Prop where
  /-- A CAC that finishes was accepted, its own time has elapsed, and it was not cancelled. -/
  finished : ∀ cac armed, .finished cac armed ∈ s.log → cac ∈ s.accepted ∧ armed = cac ∧ .aborted cac ∉ s.log
  /-- Each accepted CAC ends once. -/
  ended : ∀ cac ∈ s.accepted, ends cac s.log = 1 ∨ (ends cac s.log = 0 ∧ s.Ongoing cac)
  /-- A request that is not accepted leaves nothing. -/
  declined : s.cac ∈ s.declined → s.hw.cacVif = none ∧ s.hw.cacWork = false
  unlinked : ∀ cac ∈ s.accepted, unlinks cac s.log = if s.Ongoing cac then 0 else 1
  /-- `chanctx_table` is only indexed with the context the interface is linked to. -/
  inside : s.stray = 0
  alive : s.crashed = false

end W2l.Chan
