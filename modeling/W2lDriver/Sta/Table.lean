/-
**Stations: the table, the lists of the interfaces and the requests that change them.**

* `addStation`, `changeStation`, `delStation` — `aml_cfg80211_add_station`, `aml_cfg80211_change_station` (with
  `addTdls` and `modify`) and `aml_cfg80211_del_station`.
* `delAll`, `stopAp`, `recyVifReset` — the loops over `aml_cfg80211_del_station`, and `aml_recy_vif_reset`.
* `connected` — the entry of an AP, as its connect indication leaves it.

An entry that is used is checked against the indices that the firmware has granted: `stray`.
-/

import W2lDriver.Key.Slots
import W2lDriver.Conn.Link

namespace W2l.Sta

open Cmd (eBusy ePipe)
open Conn (eInval nxVirtDevMax)
open Gate (Iftype)
open Key (nxRemoteStaMax)
open Lib (System)

/-- `-ENOENT`. -/
abbrev eNoEnt : Int := -2

/-- What an entry was made for. -/
inductive Kind
  | station
  | tdls
  | ap
  deriving DecidableEq

/-- `struct aml_sta`; `active` says that its TX queues are. -/
structure AmlSta (M : Type) where
  valid : Bool := false
  active : Bool := false
  macAddr : M
  vifIdx : ℕ := 0
  vlanIdx : ℕ := 0
  kind : Kind := .station

/-- `struct aml_vif`, as far as it is about stations. -/
structure AmlVif where
  iftype : Iftype := .station
  up : Bool := true
  use4addr : Bool := false
  /-- `netif_carrier_ok`. -/
  carrier : Bool := false
  /-- `sta.ap`, `sta.tdls_sta`. -/
  ap : Option ℕ := none
  tdlsSta : Option ℕ := none
  /-- `ap.sta_list`. -/
  staList : List ℕ := []
  /-- `ap_vlan.sta_4a`. -/
  sta4a : Option ℕ := none

def AmlVif.is4a (x : AmlVif) : Bool := decide (x.iftype = .apVlan) && x.use4addr

/-- The driver: entries by their index, interfaces by theirs in `vif_table`. -/
structure StaHw (M : Type) where
  sta : ℕ → AmlSta M
  vif : ℕ → AmlVif
  /-- The indices in `vif_table`. -/
  vifs : List ℕ
  /-- `AML_DEV_ADDING_STA`. -/
  adding : Bool := false
  /-- What the last request returned. -/
  ret : Int := 0
  /-- The indices that the firmware has granted. -/
  granted : ℕ → Bool := fun _ => false
  /-- An entry was used that is not granted. -/
  stray : Bool := false

/-- What `change_station` is asked for: `NL80211_STA_FLAG_TDLS_PEER`, `NL80211_STA_FLAG_AUTHORIZED` in the mask, a
change of the mesh state, and `vlan`. -/
structure StationParams where
  tdlsPeer : Bool := false
  authorized : Bool := false
  meshState : Bool := false
  vlan : Option ℕ := none

/-- How one call of `del_station` goes: a recovery keeps it off, or its command has this result. -/
structure DelCall where
  busy : Bool := false
  sent : Int := 0

namespace StaHw

variable {M : Type} [DecidableEq M] (s : StaHw M)

def setSta (i : ℕ) (e : AmlSta M) : StaHw M := { s with sta := Function.update s.sta i e }

def setVif (v : ℕ) (x : AmlVif) : StaHw M := { s with vif := Function.update s.vif v x }

/-- An entry is used: none is, where the pointer is `NULL`. -/
def use (e : Option ℕ) : StaHw M :=
  match e with
  | none => { s with stray := true }
  | some i => { s with stray := s.stray || !s.granted i }

/-- The firmware grants an index, and the entry is filled. -/
def enter (v i : ℕ) (mac : M) (kind : Kind) : StaHw M :=
  let t := { s with granted := Function.update s.granted i true }
  t.setSta i ⟨true, true, mac, v, v, kind⟩

/-- `aml_cfg80211_add_station`: `cfm` is the index of the answer, unless it refuses. -/
def addStation (v : ℕ) (mac : M) (tdlsPeer : Bool) (sent : Int) (cfm : Option ℕ) : StaHw M :=
  if tdlsPeer then { s with ret := 0 }
  else if sent ≠ 0 then { s with adding := true, ret := sent }
  else
    match cfm with
    | none => { s with adding := false, ret := eBusy }
    | some i =>
      let t := s.enter v i mac .station
      { t.setVif v { t.vif v with staList := (t.vif v).staList ++ [i] } with adding := false, ret := 0 }

def getSta (mac : M) : Option ℕ :=
  (List.range nxRemoteStaMax).find? fun i => (s.sta i).valid && decide ((s.sta i).macAddr = mac)

/-- `sta_4a`, where the interface has one. -/
def setSta4a (v : ℕ) (e : Option ℕ) : StaHw M :=
  if (s.vif v).is4a then s.setVif v { s.vif v with sta4a := e } else s

/-- The station moves to another VLAN; `aml_txq_sta_switch_vif` turns its carrier on. -/
def moveVlan (i w : ℕ) : StaHw M :=
  let old := (s.sta i).vlanIdx
  if old = w then s
  else
    let t := s.setVif w { s.vif w with carrier := true }
    let t := t.setSta i { t.sta i with vlanIdx := w }
    (t.setSta4a w (some i)).setSta4a old none

def Uses (v : ℕ) (p : StationParams) : Prop :=
  p.authorized = true ∨ ((s.vif v).iftype = .meshPoint ∧ p.meshState = true) ∨ p.vlan.isSome = true

instance (v : ℕ) (p : StationParams) : Decidable (s.Uses v p) := inferInstanceAs (Decidable (_ ∨ (_ ∧ _) ∨ _))

/-- The end of `aml_cfg80211_change_station`. -/
def modify (v : ℕ) (p : StationParams) (e : Option ℕ) : StaHw M :=
  let t := if s.Uses v p then s.use e else s
  let t := { t with ret := 0 }
  match e, p.vlan with
  | some i, some w => t.moveVlan i w
  | _, _ => t

/-- `aml_cfg80211_change_station` adds a TDLS station. -/
def addTdls (v : ℕ) (mac : M) (cfm : Option ℕ) : StaHw M :=
  match cfm with
  | none => { s with adding := false }
  | some i =>
    let t := s.enter v i mac .tdls
    { t.setVif v { t.vif v with tdlsSta := some i } with adding := false }

/-- `aml_cfg80211_change_station`. -/
def changeStation (v : ℕ) (mac : M) (p : StationParams) (sent : Int) (cfm : Option ℕ) : StaHw M :=
  match s.getSta mac with
  | some i => s.modify v p (some i)
  | none =>
    if p.tdlsPeer then
      if sent ≠ 0 then { s with adding := true, ret := sent }
      else (s.addTdls v mac cfm).modify v p cfm
    else { s with ret := eInval }

/-- The station that `del_station` finds: the first one where no address is given. -/
def found (v : ℕ) (mac : Option M) : Option ℕ :=
  (s.vif v).staList.find? fun i => mac.all fun m => decide ((s.sta i).macAddr = m)

def leaveVlan (i : ℕ) : StaHw M :=
  let e := s.sta i
  if e.vifIdx ≠ e.vlanIdx then
    if (s.vif e.vlanIdx).up then s.setSta4a e.vlanIdx none else s
  else s

def Taken (sent : Int) : Prop := sent = 0 ∨ sent = ePipe

instance (sent : Int) : Decidable (Taken sent) := inferInstanceAs (Decidable (_ ∨ _))

/-- What `aml_cfg80211_del_station` does to the station it finds. -/
def dropSta (v i : ℕ) (sent : Int) : StaHw M :=
  let t := s.leaveVlan i
  let t := t.setSta i { t.sta i with valid := false, active := false }
  let t := t.use (some i)
  if Taken sent then
    let t := t.setVif v { t.vif v with staList := (t.vif v).staList.erase i }
    { t with granted := Function.update t.granted i (t.granted i && decide (sent ≠ 0)), ret := 0 }
  else { t with ret := sent }

/-- `aml_cfg80211_del_station`, which leaves its loop with the first station it finds. -/
def delStation (v : ℕ) (mac : Option M) (call : DelCall) : StaHw M :=
  if call.busy then { s with ret := eBusy }
  else
    match s.found v mac with
    | none => { s with ret := eNoEnt }
    | some i => s.dropSta v i call.sent

/-- The loops over `aml_cfg80211_del_station`, which end with the list. -/
def delAll (v : ℕ) : List DelCall → StaHw M → StaHw M
  | [], s => s
  | call :: rest, s => if (s.vif v).staList = [] then s else delAll v rest (s.delStation v none call)

/-- The stations of `aml_cfg80211_stop_ap`. -/
def stopAp (v : ℕ) (calls : List DelCall) : StaHw M := { delAll v calls s with ret := 0 }

/-- The queues of `sta.ap` go. -/
def deinitAp (v : ℕ) : StaHw M :=
  match (s.vif v).ap with
  | none => s
  | some i => s.setSta i { s.sta i with active := false }

/-- One interface in `aml_recy_vif_reset`. -/
def resetVif (v : ℕ) (calls : List DelCall) : StaHw M :=
  let t := if (s.vif v).iftype = .ap then delAll v calls s else s
  let x := { t.vif v with up := false }
  if x.carrier then
    if x.iftype.isStation then (t.deinitAp v).setVif v { x with carrier := false }
    else if x.iftype = .meshPoint ∨ x.iftype = .monitor then t.setVif v x
    else t.setVif v { x with carrier := false }
  else t.setVif v x

/-- The interfaces that `aml_recy_vif_reset` goes through. -/
def resets : List ℕ := (List.range nxVirtDevMax).filter fun v => decide (v ∈ s.vifs)

/-- `aml_recy_vif_reset`, and the firmware that starts again. -/
def recyVifReset (calls : ℕ → List DelCall) : StaHw M :=
  let t := s.resets.foldl (fun s v => s.resetVif v (calls v)) s
  { t with
    sta := fun i => if i < nxRemoteStaMax then { t.sta i with valid := false } else t.sta i
    granted := fun _ => false
    ret := 0 }

def connected (v i : ℕ) (mac : M) : StaHw M :=
  let t := s.enter v i mac .ap
  { t.setVif v { t.vif v with ap := some i, carrier := true } with ret := 0 }

def Grants (cfm : Option ℕ) : Prop := ∀ i ∈ cfm, i < nxRemoteStaMax ∧ s.granted i = false

instance (cfm : Option ℕ) : Decidable (s.Grants cfm) :=
  match cfm with
  | none => .isTrue fun _ wrong => (nomatch wrong)
  | some i => decidable_of_iff (i < nxRemoteStaMax ∧ s.granted i = false)
      ⟨fun free j same => by rw [← Option.some.inj same]; exact free, fun all => all i rfl⟩

end StaHw

/-- The requests. -/
inductive StaAct (M : Type)
  | addStation (v : ℕ) (mac : M) (tdlsPeer : Bool) (sent : Int) (cfm : Option ℕ)
  | changeStation (v : ℕ) (mac : M) (p : StationParams) (sent : Int) (cfm : Option ℕ)
  | delStation (v : ℕ) (mac : Option M) (call : DelCall)
  | stopAp (v : ℕ) (calls : List DelCall)
  | recyVifReset (calls : ℕ → List DelCall)
  | connected (v i : ℕ) (mac : M)

variable {M : Type} [DecidableEq M]

/-- **One step.** Stations are not added to a VLAN (`WARN_ON`), TDLS stations only to a station interface, which is
no VLAN either; a loop over `del_station` has as many calls as it needs. -/
def act (s : StaHw M) : StaAct M → Option (StaHw M)
  | .addStation v mac tdlsPeer sent cfm =>
    if v ∈ s.vifs ∧ (s.vif v).iftype ≠ .apVlan ∧ s.Grants cfm then some (s.addStation v mac tdlsPeer sent cfm)
    else none
  | .changeStation v mac p sent cfm =>
    if v ∈ s.vifs ∧ (p.tdlsPeer = true → (s.vif v).iftype.isStation = true) ∧ s.Grants cfm ∧
        ∀ w ∈ p.vlan, w ∈ s.vifs ∧ (s.vif w).iftype.isStation = false then
      some (s.changeStation v mac p sent cfm)
    else none
  | .delStation v mac call => if v ∈ s.vifs then some (s.delStation v mac call) else none
  | .stopAp v calls =>
    let t := s.stopAp v calls
    if v ∈ s.vifs ∧ (t.vif v).staList = [] then some t else none
  | .recyVifReset calls =>
    let t := s.recyVifReset calls
    if ∀ v ∈ s.resets, (s.vif v).iftype = .ap → (t.vif v).staList = [] then some t else none
  | .connected v i mac =>
    if v ∈ s.vifs ∧ (s.vif v).iftype.isStation = true ∧ (s.vif v).carrier = false ∧ s.Grants (some i) then
      some (s.connected v i mac)
    else none

/-- The interfaces of the driver: the VLANs are those behind the firmware's indices. -/
structure Config where
  vifs : List ℕ
  iftype : ℕ → Iftype
  use4addr : ℕ → Bool
  vlans : ∀ v ∈ vifs, iftype v = .apVlan ↔ nxVirtDevMax ≤ v

/-- No stations. -/
def init (config : Config) (mac : M) : StaHw M where
  sta := fun _ => { macAddr := mac }
  vif := fun v => { iftype := config.iftype v, use4addr := config.use4addr v }
  vifs := config.vifs

def system (config : Config) (mac : M) : System (StaHw M) (StaAct M) where
  init := init config mac
  step := act

end W2l.Sta
