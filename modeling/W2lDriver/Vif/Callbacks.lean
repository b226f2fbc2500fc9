/-
**Interfaces: the callbacks that keep a recovery off while they run.**

Each callback is cut where a recovery can come in: between the piece up to the setting of its flag and the
piece that clears flags and returns. The kernel runs one of them at a time.

* `openBegin`, `openEnd` — `aml_open`; `closeBegin`, `closeEnd` — `aml_close`.
* `startApEnd`, `stopApBegin`, `stopApEnd` — `aml_cfg80211_start_ap` and `aml_cfg80211_stop_ap`.
* `Refused`, `changeIfaceEnd` — `aml_cfg80211_change_iface`.
* `recyBegin`, `recyEnd` — what `aml_recy_doit` does to the flags.
-/

import W2lDriver.Recy.Doit

namespace W2l.Vif

open Gate (Iftype)
open Lib (System)
open Recy (Flag Hw delaying)

/-- `-EIO`. -/
abbrev eIo : Int := -5

/-- `-EPERM`. -/
abbrev ePerm : Int := -1

/-- `-EINPROGRESS`. -/
abbrev eInProgress : Int := -115

/-- `-EALREADY`. -/
abbrev eAlready : Int := -114

/-- `NX_ITF_MAX`, the size of `vif_table`. -/
abbrev nxItfMax : ℕ := 16

def beacons : Iftype → Bool
  | .ap | .p2pGo => true
  | _ => false

/-- The callback that is executing. -/
inductive Op
  | opening (v : ℕ)
  | closing (v : ℕ)
  | starting (v : ℕ)
  | stopping (v : ℕ)
  | changing (v : ℕ) (iftype : Iftype)
  deriving DecidableEq

/-- The driver: the flags of the recovery and the interfaces are in `hw`. `running` is `IFF_UP`; `beaconing`
says that the firmware beacons for the interface. -/
structure VifHw where
  hw : Hw
  /-- `aml_hw->vifs`. -/
  vifs : List ℕ
  vifStarted : ℕ := 0
  running : ℕ → Bool := fun _ => false
  beaconing : ℕ → Bool := fun _ => false
  op : Option Op := none

namespace VifHw

variable (s : VifHw)

/-- `AML_VIF_TYPE`. -/
def iftype (v : ℕ) : Iftype := s.hw.ifaces.iftype v

/-- `aml_vif->up`. -/
def up (v : ℕ) : Bool := s.hw.ifaces.up v

/-- `aml_recy_flags_set`. -/
def flagsSet (fs : List Flag) : VifHw := { s with hw := s.hw.flagsSet fs }

/-- `aml_recy_flags_clr`. -/
def flagsClr (fs : List Flag) : VifHw := { s with hw := s.hw.flagsClr fs }

def ongoing : Bool := s.hw.flagsChk [.stateOngoing]

def done : VifHw := { s with op := none }

/-- The kernel takes the interface as up, or as down. -/
def setRunning (v : ℕ) (on : Bool) : VifHw := { s with running := Function.update s.running v on }

def setBeaconing (v : ℕ) (on : Bool) : VifHw := { s with beaconing := Function.update s.beaconing v on }

/-! ### Open and close -/

/-- `aml_recy_check_aml_vif_exit`. -/
def vifExists (v : ℕ) : Bool := (List.range nxItfMax).any fun i => decide (s.hw.ifaces.vifTable i = some v)

/-- `aml_open` up to the flag. A broken bus lets it return, and so does a recovery that is not over in time. -/
def openBegin (v : ℕ) (busErr late : Bool) : Option VifHw :=
  if s.hw.bus ≠ .pcie ∧ busErr = true then
    some (if s.iftype v ≠ .ap ∧ s.hw.flagsChk [.openVifProc] = true then s.flagsClr [.openVifProc] else s)
  else if s.vifExists v then some (s.setRunning v true)
  else if s.ongoing then if late then some s else none
  else some { s.flagsSet [.openVifProc] with op := some (.opening v) }

/-- What `aml_open` meets: the start of the firmware, the command that adds the interface, its status and
number, and the command for the channel of a monitor. -/
structure OpenEnv where
  start : Int
  addIf : Int
  status : UInt8
  instNbr : Fin nxItfMax
  monitor : Int
  deriving DecidableEq

/-- `aml_open` fails, or adds the interface. -/
def openError (v : ℕ) (e : OpenEnv) : Int :=
  if s.vifStarted = 0 ∧ e.start ≠ 0 then e.start
  else if s.iftype v ≠ .apVlan ∧ e.addIf ≠ 0 then e.addIf
  else if s.iftype v ≠ .apVlan ∧ e.status ≠ 0 then eIo
  else 0

/-- The interface is up. -/
def added (v instNbr : ℕ) : VifHw :=
  { s with
    hw := { s.hw with ifaces := s.hw.ifaces.add v instNbr }
    vifStarted := s.vifStarted + 1
    beaconing := Function.update s.beaconing v false }

/-- The rest of `aml_open`. -/
def openEnd (v : ℕ) (e : OpenEnv) : VifHw :=
  if s.openError v e ≠ 0 then (s.flagsClr [.openVifProc]).done
  else
    let error := if s.iftype v = .monitor then e.monitor else 0
    let t := (s.added v e.instNbr).setRunning v (decide (error = 0))
    (if s.iftype v ≠ .ap ∧ s.iftype v ≠ .p2pGo then t.flagsClr [.openVifProc] else t).done

/-- `aml_close` up to the flag. The kernel takes the interface as down whatever it returns. -/
def closeBegin (v : ℕ) (late : Bool) : Option VifHw :=
  if s.ongoing then if late then some (s.setRunning v false) else none
  else some { s.flagsSet [.closeVifProc] with op := some (.closing v) }

/-- The interface is down. -/
def removed (v : ℕ) : VifHw :=
  { s with
    hw := { s.hw with ifaces := { s.hw.ifaces with
      up := Function.update s.hw.ifaces.up v false
      vifTable := Function.update s.hw.ifaces.vifTable (s.hw.ifaces.vifIndex v) none } }
    vifStarted := s.vifStarted - 1
    running := Function.update s.running v false
    beaconing := Function.update s.beaconing v false }

/-- The rest of `aml_close`. -/
def closeEnd (v : ℕ) : VifHw :=
  ((s.removed v).flagsClr ((if beacons (s.iftype v) then [.stopApProc] else []) ++ [.closeVifProc])).done

/-! ### Start and stop -/

/-- `apm_start_cfm.status`. -/
inductive ApmStatus
  | ok
  | busy
  | opInProgress
  | other
  deriving DecidableEq

/-- What `aml_cfg80211_start_ap` meets: the command and its confirmation. -/
structure StartEnv where
  send : Int
  status : ApmStatus
  deriving DecidableEq

/-- What `aml_cfg80211_start_ap` returns. -/
def StartEnv.error (e : StartEnv) : Int :=
  if e.send ≠ 0 then e.send
  else match e.status with
    | .ok => 0
    | .busy => eInProgress
    | .opInProgress => eAlready
    | .other => eIo

def apStarted (v : ℕ) : VifHw :=
  if s.ongoing then s.setBeaconing v true else (s.setBeaconing v true).flagsSet [.apInfoSaved]

/-- The rest of `aml_cfg80211_start_ap`. -/
def startApEnd (v : ℕ) (e : StartEnv) : VifHw :=
  ((if e.error = 0 then s.apStarted v else s).flagsClr [.openVifProc]).done

/-- `aml_cfg80211_stop_ap` up to the flag. -/
def stopApBegin (v : ℕ) (late : Bool) : Option VifHw :=
  if s.ongoing then if late then some s else none
  else some { s.flagsSet [.stopApProc] with op := some (.stopping v) }

/-- The rest of `aml_cfg80211_stop_ap`. -/
def stopApEnd (v : ℕ) : VifHw := ((s.setBeaconing v false).flagsClr [.apInfoSaved]).done

/-! ### Interface types -/

/-- `aml_cfg80211_change_iface` returns an error before it changes anything. -/
def Refused (v : ℕ) (type : Iftype) : Prop :=
  s.ongoing = true ∨ s.up v = true ∨ (type = .monitor ∧ s.iftype v ≠ .monitor ∧ ∃ el ∈ s.vifs, el ≠ v)

instance (v : ℕ) (type : Iftype) : Decidable (s.Refused v type) := inferInstanceAs (Decidable (_ ∨ _ ∨ _))

def retyped (v : ℕ) (type : Iftype) : VifHw :=
  { s with hw := { s.hw with ifaces := { s.hw.ifaces with iftype := Function.update s.hw.ifaces.iftype v type } } }

def cleared (v : ℕ) (type : Iftype) : List Flag :=
  if type = .station ∨ type = .p2pClient then
    if s.iftype v = .p2pGo then [.goOngoing, .stopApProc, .openVifProc]
    else if s.iftype v = .ap then [.stopApProc, .openVifProc]
    else []
  else []

/-- The rest of `aml_cfg80211_change_iface`. -/
def changeIfaceEnd (v : ℕ) (type : Iftype) : VifHw :=
  if type = .apVlan then s.done else ((s.flagsClr (s.cleared v type)).retyped v type).done

/-! ### Recovery -/

/-- `aml_recy_doit` goes on, if no flag puts it off. -/
def recyBegin : Option VifHw :=
  if s.hw.flagsChk delaying then none else some (s.flagsSet [.stateOngoing])

/-- `aml_recy_doit` is over; it may have started an AP again. -/
def recyEnd (apRestarted : Bool) : VifHw :=
  s.flagsClr (if apRestarted then [.stateOngoing, .openVifProc] else [.stateOngoing])

end VifHw

/-! ### The system -/

open VifHw (OpenEnv StartEnv)

/-- What can happen: a callback begins or ends, or a recovery does. -/
inductive VifAct
  | open_ (v : ℕ) (busErr late : Bool)
  | opened (e : OpenEnv)
  | close (v : ℕ) (late : Bool)
  | closed
  | startAp (v : ℕ)
  | apStarted (e : StartEnv)
  | stopAp (v : ℕ) (late : Bool)
  | apStopped
  | changeIface (v : ℕ) (type : Iftype)
  | changed
  | recyBegin
  | recyEnd (apRestarted : Bool)
  deriving DecidableEq

/-- What the kernel calls: an interface is opened when it is down and closed when it is up, an AP is started
when it is up and does not beacon. -/
def VifHw.Issued (s : VifHw) : VifAct → Bool
  | .open_ v _ _ => s.op.isNone && decide (v ∈ s.vifs) && !s.running v
  | .close v _ => s.op.isNone && decide (v ∈ s.vifs) && s.running v
  | .startAp v => s.op.isNone && decide (v ∈ s.vifs) && s.running v && beacons (s.iftype v) && !s.beaconing v
  | .stopAp v _ => s.op.isNone && decide (v ∈ s.vifs) && s.running v && beacons (s.iftype v)
  | .changeIface v _ => s.op.isNone && decide (v ∈ s.vifs)
  | .recyEnd _ => s.ongoing
  | _ => true

/-- What the act does. -/
def VifHw.perform (s : VifHw) : VifAct → Option VifHw
  | .open_ v busErr late => s.openBegin v busErr late
  | .opened e =>
    match s.op with
    | some (.opening v) => some (s.openEnd v e)
    | _ => none
  | .close v late => s.closeBegin v late
  | .closed =>
    match s.op with
    | some (.closing v) => some (s.closeEnd v)
    | _ => none
  | .startAp v => some { s with op := some (.starting v) }
  | .apStarted e =>
    match s.op with
    | some (.starting v) => some (s.startApEnd v e)
    | _ => none
  | .stopAp v late => s.stopApBegin v late
  | .apStopped =>
    match s.op with
    | some (.stopping v) => some (s.stopApEnd v)
    | _ => none
  | .changeIface v type => if s.Refused v type then some s else some { s with op := some (.changing v type) }
  | .changed =>
    match s.op with
    | some (.changing v type) => some (s.changeIfaceEnd v type)
    | _ => none
  | .recyBegin => s.recyBegin
  | .recyEnd apRestarted => some (s.recyEnd apRestarted)

def act (s : VifHw) (a : VifAct) : Option VifHw := if s.Issued a then s.perform a else none

/-- No interface is up and no flag is set. -/
structure Fresh (s : VifHw) : Prop where
  op : s.op = none
  empty : ∀ i, s.hw.ifaces.vifTable i = none
  idle : ∀ v, s.running v = false
  clear : s.hw.flagsChk delaying = false

def system (init : VifHw) : System VifHw VifAct := ⟨init, act⟩

end W2l.Vif
