/-
**Station interfaces: connecting, and what a connection leaves in the driver.**

* `connectError`, `connectBegin`, `connectEnd` — `aml_cfg80211_connect`: the request is accepted when its
  command is answered, and the requesting thread sets `AML_CONNECTING` only when it goes on.
* `smConnectInd`, `smDisconnectInd`, `smExternalAuthRequiredInd` — the indications.
* `openVif`, `closeVif` — `aml_open` and `aml_close`, as far as they touch the link.
-/

import W2lDriver.Gate.Channel
import W2lDriver.Vif.Callbacks

namespace W2l.Conn

open Gate (Iftype)
open Lib (System)
open Vif (eAlready eInProgress eIo nxItfMax)

/-- `-EINVAL`. -/
abbrev eInval : Int := -22

abbrev nxVirtDevMax : ℕ := 4

/-! ### Requests -/

/-- `enum nl80211_auth_type`, as far as the driver tells the values apart. -/
inductive AuthType
  | sharedKey
  | automatic
  | sae
  | other
  deriving DecidableEq

/-- `struct cfg80211_connect_params`, as far as it decides whether the request is made. -/
structure ConnectParams where
  /-- One of `NL80211_WPA_VERSION_1` to `_3`. -/
  wpaVersions : Bool := false
  /-- `key` and `key_len`. -/
  key : Bool := false
  authType : AuthType := .other
  /-- `n_ciphers_pairwise & (WLAN_CIPHER_SUITE_WEP40 | WLAN_CIPHER_SUITE_WEP104)`. -/
  wepPairwise : Bool := false
  /-- `CONNECT_REQ_EXTERNAL_AUTH_SUPPORT`. -/
  externalAuthSupport : Bool := false

def ConnectParams.installsKey (sme : ConnectParams) : Bool :=
  !sme.wpaVersions && sme.key &&
    (decide (sme.authType = .sharedKey) || decide (sme.authType = .automatic) || sme.wepPairwise)

/-- `sm_connect_cfm.status`. -/
inductive CoStatus
  | coOk
  | coBusy
  | coBadParam
  | coOpInProgress
  | other
  deriving DecidableEq

/-- What `aml_cfg80211_connect` returns: `sent` is the result of `aml_send_sm_connect_req`. -/
def connectError (sme : ConnectParams) (sent : Int) (status : CoStatus) : Int :=
  if !sme.installsKey && (decide (sme.authType = .sae) && !sme.externalAuthSupport) then eInval
  else if sent ≠ 0 then sent
  else
    match status with
    | .coOk => 0
    | .coBusy => eInProgress
    | .coBadParam => eInval
    | .coOpInProgress => eAlready
    | .other => eIo

/-! ### State -/

/-- `struct aml_vif`, as far as it is about the link. `requested` says that a request was accepted, `pending`
counts those that no indication has answered, and `requesting` says that the thread of one has not gone on. -/
structure Link where
  iftype : Iftype := .station
  up : Bool := false
  vifIndex : ℕ := 0
  /-- `netif_carrier_ok`. -/
  carrier : Bool := false
  /-- `sta.ap`, as the index of the entry. -/
  ap : Option ℕ := none
  /-- `AML_STA_EXT_AUTH`. -/
  extAuth : Bool := false
  requested : Bool := false
  pending : ℕ := 0
  requesting : Bool := false

/-- An entry of `sta_table`; `active` says that its TX queues are. -/
structure Entry where
  valid : Bool := false
  active : Bool := false
  vifIdx : ℕ := 0

/-- The driver. -/
structure ConnHw (V : Type) where
  link : V → Link
  sta : ℕ → Entry := fun _ => {}
  vifTable : ℕ → Option V := fun _ => none
  /-- `aml_hw->vifs`. -/
  vifs : List V
  /-- `AML_CONNECTING`. -/
  connecting : Bool := false

/-- `struct sm_connect_ind`. -/
structure ConnectInd where
  vifIdx : ℕ
  statusCode : ℕ := 0
  roamed : Bool := false
  apIdx : ℕ := 0

namespace ConnHw

variable {V : Type} [DecidableEq V] (s : ConnHw V)

def setLink (v : V) (l : Link) : ConnHw V := { s with link := Function.update s.link v l }

def setSta (i : ℕ) (e : Entry) : ConnHw V := { s with sta := Function.update s.sta i e }

/-- `aml_txq_sta_deinit` for `sta.ap`. -/
def txqStaDeinit (v : V) : ConnHw V :=
  match (s.link v).ap with
  | none => s
  | some i => s.setSta i { s.sta i with active := false }

/-- The firmware grants an index and the interface is up. -/
def openVif (v : V) (vifIndex : ℕ) : ConnHw V :=
  let t := s.setLink v { s.link v with up := true, vifIndex := vifIndex, carrier := false }
  { t with vifTable := Function.update t.vifTable vifIndex (some v) }

/-- `aml_close`: the queues of `sta.ap` go, `sta.ap` itself stays. -/
def closeVif (v : V) : ConnHw V :=
  let l := { s.link v with up := false }
  let t :=
    if l.carrier then
      if l.iftype.isStation then (s.txqStaDeinit v).setLink v { l with carrier := false }
      else if l.iftype = .apVlan then s.setLink v { l with carrier := false }
      else s.setLink v l
    else s.setLink v l
  { t with vifTable := Function.update t.vifTable l.vifIndex none }

/-- `aml_cfg80211_connect`, up to where its command is answered. -/
def connectBegin (v : V) (sme : ConnectParams) (sent : Int) (status : CoStatus) : ConnHw V :=
  if connectError sme sent status = 0 then
    s.setLink v { s.link v with requested := true, pending := (s.link v).pending + 1, requesting := true }
  else s

/-- The thread of an accepted request goes on: `aml_connect_flags_set`. -/
def connectEnd (v : V) : ConnHw V :=
  { s.setLink v { s.link v with requesting := false } with connecting := true }

/-- `aml_rx_sm_connect_ind`. Whether the interface roamed only decides how the kernel is told. -/
def smConnectInd (v : V) (ind : ConnectInd) : ConnHw V :=
  let l := { s.link v with pending := (s.link v).pending - 1 }
  let t := { s with connecting := false }
  if ind.statusCode = 0 then
    (t.setSta ind.apIdx ⟨true, true, ind.vifIdx⟩).setLink v { l with ap := some ind.apIdx, carrier := true }
  else t.setLink v { l with extAuth := false, carrier := true }

/-- `aml_rx_sm_disconnect_ind`. Reassociation only decides whether the kernel is told. -/
def smDisconnectInd (v : V) : ConnHw V :=
  let l := s.link v
  let l := { l with carrier := l.carrier && !l.up, extAuth := false }
  match l.ap with
  | none => s.setLink v l
  | some i => (s.setSta i { s.sta i with active := false, valid := false }).setLink v { l with ap := none }

def ExternalAuthRefused (v : V) (vifIdx : ℕ) (taken : Bool) : Prop :=
  nxVirtDevMax < vifIdx ∨ (s.link v).up = false ∨ (s.link v).iftype ≠ .station ∨ taken = false

instance (v : V) (vifIdx : ℕ) (taken : Bool) : Decidable (s.ExternalAuthRefused v vifIdx taken) :=
  inferInstanceAs (Decidable (_ ∨ _ ∨ _ ∨ _))

/-- `aml_rx_sm_external_auth_required_ind`: `sta.ap` is forgotten, nothing else. -/
def smExternalAuthRequiredInd (v : V) (vifIdx : ℕ) (taken : Bool) : ConnHw V :=
  if s.ExternalAuthRefused v vifIdx taken then s
  else s.setLink v { s.link v with extAuth := true, ap := none }

def Requesting : Prop := ∃ v ∈ s.vifs, (s.link v).requesting = true

def Pending : Prop := ∃ v ∈ s.vifs, (s.link v).pending ≠ 0

instance : Decidable s.Requesting := inferInstanceAs (Decidable (∃ v ∈ s.vifs, _))

instance : Decidable s.Pending := inferInstanceAs (Decidable (∃ v ∈ s.vifs, _))

def Granted (v : V) (ind : ConnectInd) : Prop :=
  ind.statusCode = 0 → ∀ w ∈ s.vifs, w ≠ v → (s.link w).up = true → (s.link w).ap ≠ some ind.apIdx

instance (v : V) (ind : ConnectInd) : Decidable (s.Granted v ind) :=
  inferInstanceAs (Decidable (_ → ∀ w ∈ s.vifs, _))

end ConnHw

/-! ### Steps -/

/-- What happens to the interfaces; indications name them by `vif_table`. -/
inductive ConnAct (V : Type)
  | open_ (v : V) (vifIndex : ℕ)
  | close (v : V)
  | connectBegin (v : V) (sme : ConnectParams) (sent : Int) (status : CoStatus)
  | connectEnd (v : V)
  | smConnectInd (ind : ConnectInd)
  | smDisconnectInd (vifIdx : ℕ) (reassoc : Bool)
  | smExternalAuthRequiredInd (vifIdx : ℕ) (taken : Bool)

variable {V : Type} [DecidableEq V]

/-- **One step.** The kernel connects station interfaces that are up, one request at a time each; the firmware
answers accepted requests, and may roam after one. -/
def act (s : ConnHw V) : ConnAct V → Option (ConnHw V)
  | .open_ v vifIndex =>
    if v ∈ s.vifs ∧ (s.link v).up = false ∧ vifIndex < nxItfMax ∧ s.vifTable vifIndex = none then
      some (s.openVif v vifIndex)
    else none
  | .close v => if v ∈ s.vifs ∧ (s.link v).up = true then some (s.closeVif v) else none
  | .connectBegin v sme sent status =>
    if v ∈ s.vifs ∧ (s.link v).up = true ∧ (s.link v).iftype.isStation = true ∧ (s.link v).requesting = false then
      some (s.connectBegin v sme sent status)
    else none
  | .connectEnd v => if v ∈ s.vifs ∧ (s.link v).requesting = true then some (s.connectEnd v) else none
  | .smConnectInd ind =>
    match s.vifTable ind.vifIdx with
    | none => none
    | some v =>
      if (s.link v).requested = true ∧ ((s.link v).pending ≠ 0 ∨ ind.roamed = true) ∧ s.Granted v ind then
        some (s.smConnectInd v ind)
      else none
  | .smDisconnectInd vifIdx _ =>
    match s.vifTable vifIdx with
    | none => some s
    | some v => some (s.smDisconnectInd v)
  | .smExternalAuthRequiredInd vifIdx taken =>
    match s.vifTable vifIdx with
    | none => none
    | some v => some (s.smExternalAuthRequiredInd v vifIdx taken)

/-- The interfaces `vifs`, none of them up. -/
def init (iftype : V → Iftype) (vifs : List V) : ConnHw V where
  link := fun v => { iftype := iftype v }
  vifs := vifs

def system (iftype : V → Iftype) (vifs : List V) : System (ConnHw V) (ConnAct V) where
  init := init iftype vifs
  step := act

end W2l.Conn
