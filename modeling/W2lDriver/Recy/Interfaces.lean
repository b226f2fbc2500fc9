/-
**Recovery: the interfaces.**

`aml_recy_vif_reset` takes the interfaces down, `aml_recy_vif_restart` adds them again, one slot of
`vif_table` after the other; the firmware's answer may write another slot.

* `Removal` — what a station's removal meets; `delStations` empties a list, `none` while it fails.
* `vifReset` — `aml_recy_vif_reset`.
* `Restart` — what the restart meets; `vifRestart` is `aml_recy_vif_restart`.
* `Restart.Accepted`, `Restart.localsNext`, `Restart.ifacesNext` — an interface restarted without an error.
-/

import W2lDriver.Recy.Reload

namespace W2l.Recy

open Cmd (BusType ePipe)
open Lib (drained Drains)

/-! ### The interfaces -/

namespace Ifaces

variable (f : Ifaces)

def emptied (v : ℕ) : Ifaces := { f with staList := Function.update f.staList v 0 }

/-- An interface is taken down. -/
def reset (v : ℕ) : Ifaces :=
  { f with
    staList := if f.iftype v = .ap then Function.update f.staList v 0 else f.staList
    up := Function.update f.up v false }

/-- An interface is added as number `inst`. -/
def add (v inst : ℕ) : Ifaces :=
  { f with
    vifIndex := Function.update f.vifIndex v inst
    up := Function.update f.up v true
    vifTable := Function.update f.vifTable inst (some v) }

end Ifaces

/-- What the functions look at and do not change. -/
structure Setting where
  bus : BusType
  blocked : Bool
  /-- `AML_RECY_ASSOC_INFO_SAVED`. -/
  saved : Bool
  assocInfo : Bool

def Hw.setting (hw : Hw) : Setting := ⟨hw.bus, hw.blocked, hw.flags .assocInfoSaved, hw.assocInfo⟩

/-! ### Removing the stations of an interface -/

/-- What a removal meets: another removal does not come to its end in time, else its own command. -/
structure Removal where
  busy : Bool
  command : Command

/-- `aml_cfg80211_del_station` takes the first station off the list. -/
def Removal.gone (r : Removal) (s : Setting) : Bool :=
  !r.busy && (decide (sendMsg s.bus s.blocked r.command = 0) ||
    decide (sendMsg s.bus s.blocked r.command = ePipe))

/-- The removals of the stations of one interface, all answered. -/
def Empties (s : Setting) (answers : ℕ → Removal) (n : ℕ) : Prop :=
  Drains (fun t => (answers t).gone s) n

/-- `while (!list_empty(&aml_vif->ap.sta_list)) aml_cfg80211_del_station(...)`. -/
def delStations (turns : ℕ) (answers : ℕ → Removal) (v : ℕ) (hw : Hw) : Option Hw :=
  if drained (fun t => (answers t).gone hw.setting) turns 0 (hw.ifaces.staList v) then
    some { hw with ifaces := hw.ifaces.emptied v }
  else none

/-! ### `aml_recy_vif_reset` -/

/-- One interface in `aml_recy_vif_reset`. -/
def resetVif (turns : ℕ) (answers : ℕ → Removal) (v : ℕ) (hw : Hw) : Option Hw :=
  if hw.ifaces.iftype v = .ap ∧
      drained (fun t => (answers t).gone hw.setting) turns 0 (hw.ifaces.staList v) = false then none
  else some { hw with ifaces := hw.ifaces.reset v }

/-- `aml_recy_vif_reset`, over the slots `slots`. -/
def vifReset (turns : ℕ) (answers : ℕ → ℕ → Removal) : List ℕ → Hw → Option (Hw × Int)
  | [], hw => some (hw, 0)
  | i :: rest, hw => match hw.ifaces.vifTable i with
    | none => vifReset turns answers rest hw
    | some v =>
      if hw.ifaces.ndev v = false then some (hw, -1)
      else match resetVif turns (answers v) v hw with
        | none => none
        | some hw => vifReset turns answers rest hw

/-! ### `aml_recy_vif_restart` -/

/-- `struct mm_add_if_cfm`. -/
structure Cfm where
  status : ℕ
  instNbr : ℕ

/-- What adding an interface meets, with the firmware's confirmation. -/
structure AddIf where
  command : Command
  cfm : Cfm

/-- What connecting meets, with what the confirmation on the stack holds then. -/
structure Connect where
  command : Command
  status : ℕ

/-- What the restart meets, by slot; the removals by interface. -/
structure Restart where
  /-- What `cfm` and `status` hold before they are written. -/
  cfm : Cfm
  status : ℕ
  addIf : ℕ → AddIf
  connect : ℕ → Connect
  startAp : ℕ → Int
  removal : ℕ → ℕ → Removal

/-- `cfm` and `status`. -/
structure Locals where
  cfm : Cfm
  status : ℕ

/-- `aml_recy_sta_connect`: its result and `*status`. -/
def staConnect (s : Setting) (f : Ifaces) (c : Connect) (status : ℕ) : Int × ℕ :=
  match f.vifTable 0 with
  | none => (0, status)
  | some u =>
    if f.ndev u = false ∨ s.saved = false ∨ f.iftype u ≠ .station ∨ s.assocInfo = false then (0, status)
    else if sendMsg s.bus s.blocked c.command ≠ 0 then (sendMsg s.bus s.blocked c.command, status)
    else (0, c.status)

namespace Restart

variable (a : Restart) (s : Setting) (i v : ℕ) (l : Locals) (f : Ifaces)

/-- `aml_send_add_if`. There is no request for a VLAN interface. -/
def sendAddIf : Int := if f.iftype v = .apVlan then -1 else sendMsg s.bus s.blocked (a.addIf i).command

def Reached : Prop := Reaches s.bus s.blocked (a.addIf i).command

instance : Decidable (a.Reached s i) :=
  inferInstanceAs (Decidable (Reaches s.bus s.blocked (a.addIf i).command))

/-- `cfm` after the request. -/
def cfmAfter : Cfm := if a.Reached s i then (a.addIf i).cfm else l.cfm

def Added : Prop :=
  f.ndev v = true ∧ a.sendAddIf s i v f = 0 ∧ (a.cfmAfter s i l).status = 0

/-- The interfaces after `v` is added. -/
def ifacesAdded : Ifaces := f.add v (a.cfmAfter s i l).instNbr

def connected : Int × ℕ :=
  if f.iftype v = .station ∧ s.saved = true then
    staConnect s (a.ifacesAdded s i v l f) (a.connect i) l.status
  else (0, l.status)

/-- The interface is restarted without an error. -/
def Accepted : Prop :=
  a.Added s i v l f ∧ (f.iftype v = .station → s.saved = true →
      (a.connected s i v l f).1 = 0 ∧ (a.connected s i v l f).2 = 0) ∧
    (f.iftype v = .ap → a.startAp i = 0)

def Removes : Prop :=
  a.Added s i v l f ∧ (f.iftype v = .p2pGo ∨ f.iftype v = .ap ∧ a.startAp i = 0)

/-- The variables after an interface is restarted. -/
def localsNext : Locals := ⟨a.cfmAfter s i l, (a.connected s i v l f).2⟩

def ifacesNext : Ifaces :=
  if f.iftype v = .p2pGo ∨ f.iftype v = .ap then (a.ifacesAdded s i v l f).emptied v
  else a.ifacesAdded s i v l f

end Restart

/-- One interface in `aml_recy_vif_restart`, after it is added. -/
def restartAdded (turns : ℕ) (a : Restart) (i v : ℕ) (l : Locals) (hw : Hw) : Option (Locals × Hw × Int) :=
  match hw.ifaces.iftype v with
  | .station =>
    if hw.flags .assocInfoSaved then
      let (err, status) := staConnect hw.setting hw.ifaces (a.connect i) l.status
      if err ≠ 0 ∨ status ≠ 0 then some ({ l with status := status }, hw, -1)
      else some ({ l with status := status }, hw.flagsSet [.checkScc], 0)
    else some (l, hw, 0)
  | .p2pGo =>
    (delStations turns (a.removal v) v (hw.flagsSet [.goOngoing])).map fun hw => (l, hw, 0)
  | .ap =>
    -- the type is not changed during a recovery
    if a.startAp i ≠ 0 then some (l, hw.flagsClr [.openVifProc], -1)
    else (delStations turns (a.removal v) v (hw.flagsClr [.openVifProc])).map fun hw => (l, hw, 0)
  | _ => some (l, hw, 0)

/-- One interface in `aml_recy_vif_restart`. -/
def restartVif (turns : ℕ) (a : Restart) (i v : ℕ) (l : Locals) (hw : Hw) : Option (Locals × Hw × Int) :=
  if hw.ifaces.ndev v = false then some (l, hw, -1)
  else
    let cfm := a.cfmAfter hw.setting i l
    if a.sendAddIf hw.setting i v hw.ifaces ≠ 0 ∨ cfm.status ≠ 0 then some ({ l with cfm := cfm }, hw, -1)
    else
      restartAdded turns a i v { l with cfm := cfm }
        { hw with
          ifaces := hw.ifaces.add v cfm.instNbr
          added := if a.Reached hw.setting i then v :: hw.added else hw.added }

/-- `aml_recy_vif_restart`, over the slots `slots`. -/
def vifRestart (turns : ℕ) (a : Restart) : List ℕ → Locals → Hw → Option (Hw × Int)
  | [], _, hw => some (hw, 0)
  | i :: rest, l, hw => match hw.ifaces.vifTable i with
    | none => vifRestart turns a rest l hw
    | some v => match restartVif turns a i v l hw with
      | none => none
      | some (l, hw, ret) => if ret ≠ 0 then some (hw, ret) else vifRestart turns a rest l hw

end W2l.Recy
