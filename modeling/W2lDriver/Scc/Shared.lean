/-
**The beacon buffers that all AP interfaces share.**

* `SccHw` — `bcn_save`, `scc_bcn_buf`, `scc_csa_bcn`, the interfaces and the beacon syncs that are queued.
* `SccHw.channelSwitch` — `aml_scc_channel_switch`; `SccHw.changeHtIe`, `SccHw.syncBcn` — the rewrite and the sync on
  the shared buffers; `SccHw.startAp`, `SccHw.startEnd`, `SccHw.stopAp` — the two ends of a start, of which the second
  forgets the buffers, and the stop, which frees them.
* `sccSystem` — the histories.
* `SccSafe` — **what should hold of every history**; `SccGuard` — the steps that keep it.
-/

import W2lDriver.Chsw.Switch
import W2lDriver.Scc.CsaBeacon
import W2lDriver.Scc.HtIe
import W2lDriver.Scc.Sync

namespace W2l.Scc

open Lib
open Chsw (Bus)

/-! ### States -/

/-- What `aml_build_bcn` does. -/
inductive Build
  /-- It fails before `bcn->len` is set. -/
  | failed
  /-- There is no memory for the frame. -/
  | noBuf (len : ℕ)
  | built (b : Beacon)
  deriving DecidableEq

def Build.isBuilt : Build → Bool
  | .built _ => true
  | .failed | .noBuf _ => false

/-- `beacon_need_update`. -/
inductive NeedUpdate
  | idle
  | waitProbe
  | waitDownload
  deriving DecidableEq

/-- An AP interface, or a P2P GO. -/
structure ApVif where
  isAp : Bool := true
  /-- The firmware was asked to start the AP. -/
  starting : Bool := false
  started : Bool := false
  /-- `vif->ap.bcn.len`. -/
  bcnLen : ℕ := 0
  /-- `vif->ap.csa->chandef`. -/
  csa : Option Chandef := none
  /-- The beacon that was stored last for the interface. -/
  own : Option Beacon := none

/-- What `aml_scc_channel_switch` sends. -/
structure SentFrame where
  frame : List Byte
  csaOft : BitVec 16 × BitVec 16
  chandef : Chandef
  /-- The interface's own stored beacon. -/
  own : Option Beacon

/-- How `aml_scc_channel_switch` returns. -/
structure SwitchReturn where
  /-- A mapping of the call is not released. -/
  mapped : Bool
  /-- `vif->ap.csa` is not `NULL`. -/
  csa : Bool
  /-- A switch was started, by the call or before. -/
  started : Bool

/-- What the interfaces share. -/
structure SccHw where
  bcnSave : Frmbuf := Frmbuf.zero
  probeRspSave : Frmbuf := Frmbuf.zero
  heap : Heap Frmbuf := {}
  sccBcnBuf : Option ℕ := none
  sccCsaBcn : Option ℕ := none
  vifs : ℕ → ApVif := fun _ => {}
  needUpdate : NeedUpdate := .idle
  /-- The copies of the interfaces that wait in the workqueue. -/
  works : List ApVif := []
  /-- Writes outside the buffers. -/
  overruns : ℕ := 0
  sent : List SentFrame := []
  returns : List SwitchReturn := []

/-- What a call of `aml_scc_channel_switch` finds. -/
structure SwitchEnv where
  /-- What `kmalloc` returns. -/
  memory : Option Frmbuf := none
  /-- `dma_map_single` succeeds. -/
  mapped : Bool := true
  /-- `kzalloc` of the object succeeds. -/
  csa : Bool := true
  /-- `aml_send_bcn_change` succeeds. -/
  sent : Bool := true

/-! ### Buffers -/

def Beacon.rewritten (b : Beacon) (t : Chandef) (bcnLen : ℕ) : Beacon :=
  b.withElems (Scc.rewritten t ((bcnLen - varOffset) % 256) b.elems)

/-- A buffer is used, or allocated. -/
def openBuf (h : Heap Frmbuf) : Option ℕ → Option Frmbuf → Option (Heap Frmbuf × ℕ)
  | some i, _ => some (h.use i, i)
  | none, some fresh => some (h.alloc fresh, h.next)
  | none, none => none

/-- `if (p) kfree(p)`. -/
def freeBuf (h : Heap Frmbuf) : Option ℕ → Heap Frmbuf
  | some i => h.free i
  | none => h

def contents (h : Heap Frmbuf) (i : ℕ) : Frmbuf := (h.obj i).getD Frmbuf.zero

def fill (h : Heap Frmbuf) (i : ℕ) (b : Option Frmbuf) : Heap Frmbuf := h.modify i fun old => b.getD old

namespace SccHw

variable (s : SccHw) (v : ℕ)

def setVif (f : ApVif → ApVif) : SccHw := { s with vifs := Function.update s.vifs v (f (s.vifs v)) }

def saveBcnBuf (b : List Byte) : SccHw :=
  match s.bcnSave.store b with
  | none => { s with overruns := s.overruns + 1 }
  | some bcnSave => { s with bcnSave }

def build : Build → SccHw
  | .failed => s
  | .noBuf len => s.setVif v fun vif => { vif with bcnLen := len }
  | .built b => (s.setVif v fun vif => { vif with bcnLen := b.size, own := some b }).saveBcnBuf b.bytes

/-- `aml_scc_init`. -/
def init : SccHw := { s with sccBcnBuf := none, sccCsaBcn := none }

/-- `aml_scc_deinit`. -/
def deinit : SccHw :=
  { s with
    heap := freeBuf (freeBuf s.heap s.sccBcnBuf) s.sccCsaBcn
    needUpdate := .idle }

/-- `aml_cfg80211_start_ap`, up to the request. -/
def startAp (isAp : Bool) (b : Build) : SccHw :=
  (s.setVif v fun vif => { vif with isAp, starting := b.isBuilt }).build v b

/-- The rest of it, up to the conflict check; `ok` if the AP is started. -/
def startEnd (ok : Bool) : SccHw :=
  let s := s.setVif v fun vif => { vif with starting := false, started := ok }
  if ok then s.init else s

/-- `aml_cfg80211_change_beacon`; `ok` if the firmware takes the beacon. -/
def changeBeacon (b : Build) (ok : Bool) : SccHw :=
  let s := s.build v b
  if b.isBuilt ∧ ok then { s with needUpdate := .idle } else s

/-- `aml_cfg80211_stop_ap`. -/
def stopAp : SccHw :=
  (s.setVif v fun vif => { vif with started := false, bcnLen := 0, csa := none, own := none }).deinit

/-! ### The rewrite and the sync -/

/-- `aml_scc_change_beacon_ht_ie` on the shared buffers, or `-ENOMEM`. -/
def changeHtIe (t : Chandef) (memory : Option Frmbuf) : Option SccHw :=
  match openBuf s.heap s.sccBcnBuf memory with
  | none => none
  | some (heap, i) =>
    let bcnLen := (s.vifs v).bcnLen
    let s := { s with heap := heap, sccBcnBuf := some i }
    match changeBeaconHtIe ⟨s.bcnSave, some (contents heap i)⟩ none bcnLen t with
    | none => some { s with overruns := s.overruns + 1 }
    | some (bufs, _) => some <|
      { s with
        bcnSave := bufs.bcnSave
        heap := fill heap i bufs.sccBcnBuf }.setVif v fun vif =>
          { vif with own := vif.own.map (Beacon.rewritten · t bcnLen) }

/-- `aml_scc_change_beacon` for a copy of an interface; `ok` if the firmware takes the beacon. -/
def downloadBcn (vif : ApVif) (memory : Option Frmbuf) (ok : Bool) : SccHw :=
  if vif.isAp then
    match openBuf s.heap s.sccBcnBuf memory with
    | none => s
    | some (heap, i) =>
      let s := { s with heap := heap, sccBcnBuf := some i }
      match Scc.changeBeacon ⟨s.bcnSave, some (contents heap i)⟩ s.probeRspSave none true vif.bcnLen with
      | none => { s with overruns := s.overruns + 1 }
      | some r =>
        { s with
          heap := fill heap i r.bufs.sccBcnBuf
          needUpdate := if ok then .idle else s.needUpdate }
  else s

/-- `aml_scc_sync_bcn`. -/
def syncBcn (vif : ApVif) (memory : Option Frmbuf) (ok : Bool) : SccHw :=
  if s.needUpdate = .waitDownload then s.downloadBcn vif memory ok else s

/-- `aml_scc_save_probe_rsp`; `queued` if there is memory for the work. -/
def saveProbeRsp (frame : List Byte) (queued : Bool) : SccHw :=
  if s.needUpdate = .waitProbe ∧ (s.vifs v).isAp then
    { s with
      probeRspSave := Scc.saveProbeRsp s.probeRspSave frame
      needUpdate := .waitDownload
      works := if queued then s.works ++ [s.vifs v] else s.works }
  else s

/-! ### The channel switch -/

def switchReturn (mapped started : Bool) : SccHw :=
  { s with returns := ⟨mapped, (s.vifs v).csa.isSome, started⟩ :: s.returns }

variable (bus : Bus) (t : Chandef) (env : SwitchEnv)

/-- The frame is handed over. -/
def sendSwitch (frame : List Byte) : SccHw :=
  if bus = .pcie ∧ env.mapped = false then s.switchReturn v false false
  else
    let len := (s.vifs v).bcnLen
    let s := { s with
      sent := ⟨frame, (BitVec.ofNat 16 (len + 4), BitVec.ofNat 16 (len + 10)), t, (s.vifs v).own⟩ :: s.sent }
    if env.csa = false then s.switchReturn v (bus = .pcie) false
    else if env.sent = false then s.switchReturn v false false
    else (s.setVif v fun vif => { vif with csa := some t }).switchReturn v false true

/-- `aml_scc_channel_switch`. -/
def channelSwitch (toChannel : BitVec 32 → Byte) : SccHw :=
  if (s.vifs v).csa.isSome then s.switchReturn v false true
  else
    match openBuf s.heap s.sccCsaBcn env.memory with
    | none => s.switchReturn v false false
    | some (heap, i) =>
      let len := (s.vifs v).bcnLen
      let s := { s with heap := heap, sccCsaBcn := some i }
      let written := do
        let saved ← s.bcnSave.load len
        let buf ← (contents heap i).store saved
        buf.write len (csaBytes toChannel t)
      match written with
      | none => { s with overruns := s.overruns + 1 }
      | some buf =>
        { s with heap := fill heap i (some buf) }.sendSwitch v bus t env
          (buf.bytes.take (len + (csaBytes toChannel t).length))

/-- `aml_scc_csa_finish` of an interface with an object. -/
def csaFinish (t : Chandef) (ok : Bool) (memory : Option Frmbuf) : SccHw :=
  (if ok then (s.changeHtIe v t memory).getD s else s).setVif v fun vif => { vif with csa := none }

end SccHw

/-! ### Histories -/

/-- What happens. -/
inductive SccAct
  | startAp (v : ℕ) (isAp : Bool) (b : Build)
  | startEnd (v : ℕ) (ok : Bool)
  | changeBeacon (v : ℕ) (b : Build) (ok : Bool)
  /-- The conflict check, for an interface with stations. -/
  | channelSwitch (v : ℕ) (t : Chandef) (env : SwitchEnv)
  /-- The conflict check, for one without; `notified` if it goes on to the end. -/
  | changeHtIe (v : ℕ) (t : Chandef) (memory : Option Frmbuf) (notified : Bool)
  | csaFinish (v : ℕ) (ok : Bool) (memory : Option Frmbuf)
  | saveProbeRsp (v : ℕ) (frame : List Byte) (queued : Bool)
  | syncBcn (memory : Option Frmbuf) (ok : Bool)
  | stopAp (v : ℕ)

section Histories

variable (bus : Bus) (toChannel : BitVec 32 → Byte)

/-- **What happens.** Only an interface that is not started is started, and only one that is, is changed, checked and
stopped. -/
def SccHw.act (s : SccHw) : SccAct → Option SccHw
  | .startAp v isAp b => if (s.vifs v).started then none else some (s.startAp v isAp b)
  | .startEnd v ok => if (s.vifs v).starting then some (s.startEnd v ok) else none
  | .changeBeacon v b ok => if (s.vifs v).started then some (s.changeBeacon v b ok) else none
  | .channelSwitch v t env => if (s.vifs v).started then some (s.channelSwitch v bus t env toChannel) else none
  | .changeHtIe v t memory notified =>
    if (s.vifs v).started then
      match s.changeHtIe v t memory with
      | none => some s
      | some s' => some { s' with needUpdate := if notified then .waitProbe else s'.needUpdate }
    else none
  | .csaFinish v ok memory => (s.vifs v).csa.map fun t => s.csaFinish v t ok memory
  | .saveProbeRsp v frame queued => some (s.saveProbeRsp v frame queued)
  | .syncBcn memory ok =>
    match s.works with
    | [] => none
    | vif :: works => some ({ s with works }.syncBcn vif memory ok)
  | .stopAp v => if (s.vifs v).started then some (s.stopAp v) else none

def sccSystem : System SccHw SccAct where
  init := {}
  step := SccHw.act bus toChannel

end Histories

/-! ### What should hold -/

/-- **The interface's own beacon, and a list that announces the switch**, with the offsets of the two counts. -/
def SentRight (x : SentFrame) : Prop :=
  ∃ b es, x.own = some b ∧ x.frame = b.bytes ++ elementsBytes es ∧ CsaList x.chandef es ∧
    x.csaOft.1.toNat = b.size + 4 ∧ x.csaOft.2.toNat = b.size + 10 ∧
    x.frame[x.csaOft.1.toNat]? = some csaCount ∧ x.frame[x.csaOft.2.toNat]? = some csaCount

/-- **What should hold of every history.** -/
structure SccSafe (s : SccHw) : Prop where
  sent : ∀ x ∈ s.sent, SentRight x
  inside : s.overruns = 0
  /-- Nothing is freed twice. -/
  once : ∀ i, s.heap.frees i ≤ 1
  /-- Nothing is used after it was freed. -/
  unused : s.heap.misused = []
  /-- What is not freed is not forgotten. -/
  held : ∀ i, s.heap.Live i → s.sccBcnBuf = some i ∨ s.sccCsaBcn = some i
  /-- When no AP is started everything was freed. -/
  freed : (∀ v, (s.vifs v).started = false) → ∀ i, i < s.heap.next → s.heap.frees i = 1
  /-- A return releases the mapping, and leaves an object only if a switch was started. -/
  returns : ∀ r ∈ s.returns, r.mapped = false ∧ (r.csa = true → r.started = true)

/-! ### The condition -/

/-- `NULL`, or not freed. -/
def Usable (h : Heap Frmbuf) : Option ℕ → Prop
  | none => True
  | some i => h.Live i

/-- `NULL`, or freed. -/
def Forgettable (h : Heap Frmbuf) : Option ℕ → Prop
  | none => True
  | some i => ¬h.Live i

instance (h : Heap Frmbuf) : (p : Option ℕ) → Decidable (Usable h p)
  | none => inferInstanceAs (Decidable True)
  | some i => inferInstanceAs (Decidable (h.Live i))

instance (h : Heap Frmbuf) : (p : Option ℕ) → Decidable (Forgettable h p)
  | none => inferInstanceAs (Decidable True)
  | some i => inferInstanceAs (Decidable (¬h.Live i))

def Build.Fits : Build → Prop
  | .built b => b.size ≤ frmbufMaxlen
  | .failed | .noBuf _ => True

instance : (b : Build) → Decidable b.Fits
  | .built b => inferInstanceAs (Decidable (b.size ≤ frmbufMaxlen))
  | .failed => inferInstanceAs (Decidable True)
  | .noBuf _ => inferInstanceAs (Decidable True)

/-- `bcn_save` has the interface's own beacon in front, in the interface's length. -/
def SccHw.Holds (s : SccHw) (v : ℕ) : Prop :=
  match (s.vifs v).own with
  | none => False
  | some b => s.bcnSave.load (s.vifs v).bcnLen = some b.bytes

instance (s : SccHw) (v : ℕ) : Decidable (s.Holds v) := by
  unfold SccHw.Holds
  cases (s.vifs v).own <;> infer_instance

namespace SccHw

variable (s : SccHw) (v : ℕ)

/-- The rewrite uses no freed buffer, and its length fits. -/
def HtIeGuard (memory : Option Frmbuf) : Prop :=
  s.sccBcnBuf ≠ none ∨ memory ≠ none → Usable s.heap s.sccBcnBuf ∧ (s.vifs v).bcnLen ≤ frmbufMaxlen

instance (memory : Option Frmbuf) : Decidable (s.HtIeGuard v memory) := inferInstanceAs (Decidable (_ → _))

/-- The channel switch uses no freed buffer, the elements fit behind the beacon, the frame that is handed over is the
interface's own, and on PCIe there is memory for the object. -/
def SwitchGuard (bus : Bus) (t : Chandef) (env : SwitchEnv) : Prop :=
  (s.vifs v).csa = none ∧ (s.sccCsaBcn ≠ none ∨ env.memory ≠ none) →
    Usable s.heap s.sccCsaBcn ∧ (s.vifs v).bcnLen + csaLen t ≤ frmbufMaxlen ∧
      (bus ≠ .pcie ∨ env.mapped = true → s.Holds v) ∧ (bus = .pcie ∧ env.mapped = true → env.csa = true)

instance (bus : Bus) (t : Chandef) (env : SwitchEnv) : Decidable (s.SwitchGuard v bus t env) :=
  inferInstanceAs (Decidable (_ → _))

def syncOld (memory : Option Frmbuf) : Frmbuf :=
  match s.sccBcnBuf with
  | some i => contents s.heap i
  | none => memory.getD Frmbuf.zero

/-- A sync that is due uses no freed buffer and writes in it. -/
def SyncStepGuard (memory : Option Frmbuf) : Prop :=
  match s.works with
  | [] => True
  | vif :: _ => s.needUpdate = .waitDownload ∧ vif.isAp = true ∧ (s.sccBcnBuf ≠ none ∨ memory ≠ none) →
      Usable s.heap s.sccBcnBuf ∧ SyncFits s.bcnSave s.probeRspSave (s.syncOld memory) vif.bcnLen

instance (memory : Option Frmbuf) : Decidable (s.SyncStepGuard memory) := by
  unfold SyncStepGuard
  cases s.works <;> infer_instance

end SccHw

/-- **The condition.** -/
def SccGuard (bus : Bus) (s : SccHw) : SccAct → Prop
  | .startAp _ _ b => b.Fits
  | .startEnd _ ok => ok = true → Forgettable s.heap s.sccBcnBuf ∧ Forgettable s.heap s.sccCsaBcn
  | .changeBeacon _ b _ => b.Fits
  | .channelSwitch v t env => s.SwitchGuard v bus t env
  | .changeHtIe v _ memory _ => s.HtIeGuard v memory
  | .csaFinish v ok memory => ok = true → s.HtIeGuard v memory
  | .saveProbeRsp _ _ _ => True
  | .syncBcn memory _ => s.SyncStepGuard memory
  | .stopAp _ => Usable s.heap s.sccBcnBuf ∧ Usable s.heap s.sccCsaBcn

instance (bus : Bus) (s : SccHw) : (a : SccAct) → Decidable (SccGuard bus s a)
  | .startAp _ _ b => inferInstanceAs (Decidable b.Fits)
  | .startEnd _ ok =>
    inferInstanceAs (Decidable (ok = true → Forgettable s.heap s.sccBcnBuf ∧ Forgettable s.heap s.sccCsaBcn))
  | .changeBeacon _ b _ => inferInstanceAs (Decidable b.Fits)
  | .channelSwitch v t env => inferInstanceAs (Decidable (s.SwitchGuard v bus t env))
  | .changeHtIe v _ memory _ => inferInstanceAs (Decidable (s.HtIeGuard v memory))
  | .csaFinish v ok memory => inferInstanceAs (Decidable (ok = true → s.HtIeGuard v memory))
  | .saveProbeRsp _ _ _ => inferInstanceAs (Decidable True)
  | .syncBcn memory _ => inferInstanceAs (Decidable (s.SyncStepGuard memory))
  | .stopAp _ => inferInstanceAs (Decidable (Usable s.heap s.sccBcnBuf ∧ Usable s.heap s.sccCsaBcn))

end W2l.Scc
