/-
**Channel contexts: the events.**

The handlers that link and unlink interfaces, in any order: AP and mesh start and stop, connections,
mesh peers, CAC, channel switches, the monitor channel, closing and recovery.

* `ChanAct` — the events, with what the firmware answers.
* `ChanHw.act` — what their handlers do to the contexts.
* `Unlinked` — **an event that links an interface finds it not linked**.
* `act_balanced_iff` — an event keeps the counts exactly then.
-/

import W2lDriver.Chan.Context
import W2lDriver.Lib.System

set_option linter.unusedSectionVars false

namespace W2l.Chan

open Lib (System users users_pos)

/-- The events. Of a confirmation only the context is kept, if the status is `CO_OK`. -/
inductive ChanAct (V : Type)
  | startAp (vif : V) (cfm : Option (BitVec 8)) (chandef : Chandef)
  | stopAp (vif : V)
  | connectInd (vif : V) (ok : Bool) (chIdx : BitVec 8) (chandef : Chandef)
  | disconnectInd (vif : V)
  | joinMesh (vif : V) (cfm : Option (BitVec 8)) (chandef : Chandef)
  | leaveMesh (vif : V) (ok : Bool)
  | meshPeerUpdateInd (vif : V) (userMeshPm estab staValid : Bool)
  | startRadarDetection (vif : V) (cfm : Option (BitVec 8)) (chandef : Chandef)
  | radarCacWork
  | radarCancelCac
  /-- The work of a channel switch of an AP, or of `aml_check_scc` without one. -/
  | csaFinish (vif : V) (ok : Bool) (chIdx : BitVec 8) (chandef : Chandef)
  | csaFinishInd (vif : V) (ok : Bool) (chIdx : BitVec 8)
  | staNotifyCsaChSwitch (vif : V) (ok : Bool) (chandef : Chandef)
  | openMonitor (vif : V)
  | setMonitorChannel (chandef : Option Chandef) (cfm : Option (BitVec 8)) (more : Bool) (found : Chandef)
  | close (vif : V)
  | recyVifReset (vifs : List V)

variable {V : Type} [DecidableEq V]

namespace ChanHw

def radarCancelCac (s : ChanHw V) : ChanHw V :=
  match s.cacVif with
  | none => s
  | some vif =>
    let s := if s.cacWork then { s with cacWork := false }.chanctxUnlink vif else s
    { s with cacVif := none }

/-- `aml_radar_cac_work`, when it runs. -/
def radarCacWork (s : ChanHw V) : ChanHw V :=
  let s := { s with cacWork := false }
  match s.cacVif with
  | none => s
  | some vif => { s.chanctxUnlink vif with cacVif := none }

def radarStartCac (s : ChanHw V) (vif : V) : ChanHw V :=
  { s with
    cacVif := some vif
    cacWork := true }

/-- The end of `aml_cfg80211_set_monitor_channel`, with an answer of the firmware. -/
def configMonitor (s : ChanHw V) (vif : V) (chanIndex : BitVec 8) (more : Bool) (found : Chandef) : ChanHw V :=
  let s := s.chanctxUnlink vif
  if chanIndex = amlChNotSet then s
  else s.chanctxLink vif chanIndex (if more then none else some found)

/-- `aml_cfg80211_set_monitor_channel`. -/
def setMonitorChannel (s : ChanHw V) (chandef : Option Chandef) (cfm : Option (BitVec 8)) (more : Bool)
    (found : Chandef) : ChanHw V :=
  match s.monitorVif with
  | none => s
  | some vif =>
    if s.chanctxValid (s.chIndex vif) ∧ chandef.isSome ∧ (s.chanctxTable (s.chIndex vif)).chanDef = chandef then s
    else
      match cfm with
      | none => s
      | some chanIndex => s.configMonitor vif chanIndex more found

/-- `aml_sta_notify_csa_ch_switch`. Without a context it writes behind the table. -/
def staNotifyCsaChSwitch (s : ChanHw V) (vif : V) (chandef : Chandef) : ChanHw V :=
  let ctxt := s.chanctxTable (s.chIndex vif)
  if ctxt.chanDef.isSome then s
  else { s with
    chanctxTable := Function.update s.chanctxTable (s.chIndex vif) { ctxt with chanDef := some chandef } }

/-- The interfaces of `aml_recy_vif_reset`, one after the other. -/
def recyVifReset : List V → ChanHw V → ChanHw V
  | [], s => s
  | vif :: rest, s =>
    let s := (s.chanctxUnlink vif).radarCancelCac
    recyVifReset rest (if s.monitorVif = some vif then { s with monitorVif := none } else s)

/-- An event. -/
def act (s : ChanHw V) : ChanAct V → ChanHw V
  | .startAp vif cfm chandef =>
    match cfm with
    | none => s
    | some chIdx => s.chanctxLink vif chIdx (some chandef)
  | .stopAp vif => s.radarCancelCac.chanctxUnlink vif
  | .connectInd vif ok chIdx chandef => if ok then s.chanctxLink vif chIdx (some chandef) else s
  | .disconnectInd vif => s.chanctxUnlink vif
  | .joinMesh vif cfm chandef =>
    match cfm with
    | none => s
    | some chIdx => s.chanctxLink vif chIdx (some chandef)
  | .leaveMesh vif ok => if ok then (s.chanctxUnlink vif).radarCancelCac else s
  | .meshPeerUpdateInd vif userMeshPm estab staValid =>
    if !userMeshPm && estab && !staValid then s.chanctxLink vif (s.chIndex vif) none else s
  | .startRadarDetection vif cfm chandef =>
    match cfm with
    | none => s.radarStartCac vif
    | some chIdx => (s.radarStartCac vif).chanctxLink vif chIdx (some chandef)
  | .radarCacWork => s.radarCacWork
  | .radarCancelCac => s.radarCancelCac
  | .csaFinish vif ok chIdx chandef =>
    if ok then (s.chanctxUnlink vif).chanctxLink vif chIdx (some chandef) else s
  | .csaFinishInd vif ok chIdx => if ok then (s.chanctxUnlink vif).chanctxLink vif chIdx none else s
  | .staNotifyCsaChSwitch vif ok chandef => if ok then s.staNotifyCsaChSwitch vif chandef else s
  | .openMonitor vif => { s with monitorVif := some vif }
  | .setMonitorChannel chandef cfm more found => s.setMonitorChannel chandef cfm more found
  | .close vif =>
    let s := s.radarCancelCac.chanctxUnlink vif
    if s.monitorVif = some vif then { s with monitorVif := none } else s
  | .recyVifReset vifs => recyVifReset vifs s

end ChanHw

/-- The runs of the events. The work of a CAC runs when it is pending. -/
def chanSystem (V : Type) [DecidableEq V] : System (ChanHw V) (ChanAct V) where
  init := {}
  step s
    | .radarCacWork => if s.cacWork then some (s.act .radarCacWork) else none
    | a => some (s.act a)

/-- An interface is not linked, or the index is not one of a context. -/
def Free (s : ChanHw V) (vif : V) (chIdx : BitVec 8) : Prop :=
  s.chIndex vif = amlChNotSet ∨ nxChanCtxtCnt ≤ chIdx

instance (s : ChanHw V) (vif : V) (chIdx : BitVec 8) : Decidable (Free s vif chIdx) :=
  inferInstanceAs (Decidable (_ ∨ _))

/-- **An event that links an interface finds it not linked.** -/
def Unlinked (s : ChanHw V) : ChanAct V → Prop
  | .startAp vif (some chIdx) _ => Free s vif chIdx
  | .connectInd vif true chIdx _ => Free s vif chIdx
  | .joinMesh vif (some chIdx) _ => Free s vif chIdx
  | .meshPeerUpdateInd vif false true false => Free s vif (s.chIndex vif)
  | .startRadarDetection vif (some chIdx) _ => Free s vif chIdx
  | _ => True

/-! ### What an event keeps -/

variable [Fintype V] {s s' : ChanHw V} {a : ChanAct V}

theorem Balanced.radarCancelCac (balanced : Balanced s) : Balanced s.radarCancelCac := by
  unfold ChanHw.radarCancelCac
  split
  · exact balanced
  · case h_2 vif set =>
    have stopped : Balanced { s with cacWork := false } := balanced.congr rfl rfl
    dsimp only
    split
    · exact (stopped.unlink vif).congr rfl rfl
    · exact balanced.congr rfl rfl

theorem Balanced.radarCacWork (balanced : Balanced s) : Balanced s.radarCacWork := by
  have stopped : Balanced { s with cacWork := false } := balanced.congr rfl rfl
  unfold ChanHw.radarCacWork
  dsimp only
  split
  · exact stopped
  · case h_2 vif set => exact (stopped.unlink vif).congr rfl rfl

theorem unlink_chIndex (s : ChanHw V) (vif : V) : (s.chanctxUnlink vif).chIndex vif = amlChNotSet := by
  unfold ChanHw.chanctxUnlink
  by_cases notSet : s.chIndex vif = amlChNotSet
  · rw [if_pos notSet]
    exact notSet
  · rw [if_neg notSet]
    exact Function.update_self ..

theorem Balanced.relink (few : Fintype.card V < 256) (balanced : Balanced s) (vif : V) (chIdx : BitVec 8)
    (chandef : Option Chandef) : Balanced ((s.chanctxUnlink vif).chanctxLink vif chIdx chandef) :=
  (balanced.unlink vif).link few (unlink_chIndex s vif) chIdx chandef

theorem Balanced.setMonitorChannel (few : Fintype.card V < 256) (balanced : Balanced s)
    (chandef : Option Chandef) (cfm : Option (BitVec 8)) (more : Bool) (found : Chandef) :
    Balanced (s.setMonitorChannel chandef cfm more found) := by
  unfold ChanHw.setMonitorChannel
  split
  · exact balanced
  · split
    · exact balanced
    · split
      · exact balanced
      · unfold ChanHw.configMonitor
        dsimp only
        split
        · exact balanced.unlink _
        · exact balanced.relink few _ _ _

theorem Balanced.staNotifyCsaChSwitch (balanced : Balanced s) (vif : V) (chandef : Chandef) :
    Balanced (s.staNotifyCsaChSwitch vif chandef) := by
  unfold ChanHw.staNotifyCsaChSwitch
  dsimp only
  split
  · exact balanced
  · have same : Function.update s.chIndex vif (s.chIndex vif) = s.chIndex := Function.update_eq_self ..
    refine balanced.change same.symm rfl (balanced.inside vif) (fun here => ?_) (fun j _ _ => by rw [same])
      fun here zero => ?_
    · rw [same]
      exact balanced.count _ here
    · have positive : 0 < users s.chIndex (s.chIndex vif) := users_pos vif
      have zero : (s.chanctxTable (s.chIndex vif)).count = 0 := zero
      rw [← balanced.count _ here, zero] at positive
      exact absurd positive (Nat.lt_irrefl 0)

theorem Balanced.recyVifReset (balanced : Balanced s) (vifs : List V) : Balanced (ChanHw.recyVifReset vifs s) := by
  induction vifs generalizing s with
  | nil => exact balanced
  | cons vif rest ih =>
    rw [ChanHw.recyVifReset]
    refine ih ?_
    have after := (balanced.unlink vif).radarCancelCac
    split
    · exact after.congr rfl rfl
    · exact after

theorem Balanced.close (balanced : Balanced s) (vif : V) : Balanced (s.act (.close vif)) := by
  have after := balanced.radarCancelCac.unlink vif
  unfold ChanHw.act
  dsimp only
  split
  · exact after.congr rfl rfl
  · exact after

theorem act_balanced_iff (few : Fintype.card V < 256) (balanced : Balanced s) (a : ChanAct V) :
    Balanced (s.act a) ↔ Unlinked s a := by
  have keeps : ∀ {t : ChanHw V}, Balanced t → (Balanced t ↔ True) := fun after => iff_true_intro after
  cases a with
  | startAp vif cfm chandef =>
    cases cfm with
    | none => exact keeps balanced
    | some chIdx => exact link_balanced_iff few balanced
  | stopAp vif => exact keeps (balanced.radarCancelCac.unlink vif)
  | connectInd vif ok chIdx chandef =>
    cases ok with
    | false => exact keeps balanced
    | true => exact link_balanced_iff few balanced
  | disconnectInd vif => exact keeps (balanced.unlink vif)
  | joinMesh vif cfm chandef =>
    cases cfm with
    | none => exact keeps balanced
    | some chIdx => exact link_balanced_iff few balanced
  | leaveMesh vif ok =>
    cases ok with
    | false => exact keeps balanced
    | true => exact keeps (balanced.unlink vif).radarCancelCac
  | meshPeerUpdateInd vif userMeshPm estab staValid =>
    cases userMeshPm with
    | true => exact keeps balanced
    | false =>
      cases estab with
      | false => exact keeps balanced
      | true =>
        cases staValid with
        | true => exact keeps balanced
        | false => exact link_balanced_iff few balanced
  | startRadarDetection vif cfm chandef =>
    have started : Balanced (s.radarStartCac vif) := balanced.congr rfl rfl
    cases cfm with
    | none => exact keeps started
    | some chIdx => exact link_balanced_iff few started
  | radarCacWork => exact keeps balanced.radarCacWork
  | radarCancelCac => exact keeps balanced.radarCancelCac
  | csaFinish vif ok chIdx chandef =>
    cases ok with
    | false => exact keeps balanced
    | true => exact keeps (balanced.relink few vif chIdx (some chandef))
  | csaFinishInd vif ok chIdx =>
    cases ok with
    | false => exact keeps balanced
    | true => exact keeps (balanced.relink few vif chIdx none)
  | staNotifyCsaChSwitch vif ok chandef =>
    cases ok with
    | false => exact keeps balanced
    | true => exact keeps (balanced.staNotifyCsaChSwitch vif chandef)
  | openMonitor vif => exact keeps (balanced.congr rfl rfl)
  | setMonitorChannel chandef cfm more found =>
    exact keeps (balanced.setMonitorChannel few chandef cfm more found)
  | close vif => exact keeps (balanced.close vif)
  | recyVifReset vifs => exact keeps (balanced.recyVifReset vifs)

theorem step_eq (stepped : (chanSystem V).step s a = some s') : s' = s.act a := by
  cases a with
  | radarCacWork =>
    have stepped : (if s.cacWork then some (s.act .radarCacWork) else none) = some s' := stepped
    split at stepped
    · exact (Option.some.inj stepped).symm
    · cases stepped
  | _ => exact (Option.some.inj stepped).symm

/-! ### A run -/

/-- **The counts of the contexts.** -/
structure ContextsRight (s : ChanHw V) : Prop where
  /-- A context counts the interfaces that are linked to it. -/
  count : ∀ i < nxChanCtxtCnt, (s.chanctxTable i).count.toNat = users s.chIndex i
  /-- A context without an interface has no channel. -/
  chan : ∀ i < nxChanCtxtCnt, (s.chanctxTable i).count = 0 → (s.chanctxTable i).chanDef = none
  /-- The context of an interface can be counted down. -/
  positive : ∀ vif, s.chIndex vif ≠ amlChNotSet → 0 < (s.chanctxTable (s.chIndex vif)).count.toNat

/-- **The contexts are counted right** in every run whose events find the interfaces they link not
linked. -/
theorem chanctx_counted {V : Type} [DecidableEq V] [Fintype V] (few : Fintype.card V < 256) {s : ChanHw V}
    (reach : (chanSystem V).Reachable Unlinked s) : ContextsRight s := by
  have balanced : Balanced s := reach.invariant (I := Balanced) Balanced.init
    fun s a s' _ balanced unlinked stepped =>
      step_eq stepped ▸ (act_balanced_iff few balanced a).mpr unlinked
  refine ⟨balanced.count, balanced.chan, fun vif linked => ?_⟩
  have here := (balanced.inside vif).resolve_left linked
  rw [balanced.count _ here]
  exact users_pos vif

/-- A mesh is joined and left on the first context. -/
theorem chanctx_counted_mesh : ∃ s : ChanHw (Fin 2), (s.chanctxTable 0).count = 0 ∧ ContextsRight s := by
  have joined := System.Reachable.step (S := chanSystem (Fin 2)) .init
    (show Unlinked _ (.joinMesh 0 (some 0) {}) from .inl rfl) rfl
  have left := joined.step (show Unlinked _ (.leaveMesh 0 true) from trivial) rfl
  exact ⟨_, by decide, chanctx_counted (by decide) left⟩

/-- **A mesh peer is counted as an interface**, and is not when it is lost. -/
theorem meshPeer_counts_twice : ¬ ∀ s : ChanHw (Fin 2),
    (chanSystem (Fin 2)).Reachable (fun _ _ => True) s → ContextsRight s := by
  intro right
  have joined : (chanSystem (Fin 2)).Reachable (fun _ _ => True) _ :=
    .step .init trivial (show (chanSystem (Fin 2)).step _ (.joinMesh 0 (some 0) {}) = some _ from rfl)
  have peer := joined.step trivial
    (show (chanSystem (Fin 2)).step _ (.meshPeerUpdateInd 0 false true false) = some _ from rfl)
  have lost := peer.step trivial
    (show (chanSystem (Fin 2)).step _ (.meshPeerUpdateInd 0 false false true) = some _ from rfl)
  have left := lost.step trivial (show (chanSystem (Fin 2)).step _ (.leaveMesh 0 true) = some _ from rfl)
  exact absurd ((right _ left).count 0 (by decide)) (by decide)

end W2l.Chan
