/-
**The association saved for recovery.**

`aml_recy_save_assoc_info`, `aml_recy_sta_connect` (`aml_recy.c`). The record is overwritten field by field, and
given up where an allocation fails; the flag of an earlier save stays.

* `AssocInfo`, `Call` — the record with its flag, and a call with what its allocations return.
* `Call.save` — `aml_recy_save_assoc_info`; `amlRecyStaConnect` — the request of a recovery.
* `SavedFrom`, `Reconnects` — **the record is that of a call**, and so is the request.
* `Saves` — a run: saves in any order, and disconnections that clear the flag.
* `Keeps` — when a call leaves the record whole.
-/

import W2lDriver.Conn.Request
import W2lDriver.Lib.System

namespace W2l.SavedAssoc

open Lib Connect

/-! ### The record -/

/-- `struct aml_recy_assoc_info`; `saved` is `AML_RECY_ASSOC_INFO_SAVED`. -/
structure AssocInfo where
  bssid : MacAddr
  prevBssid : MacAddr
  chan : Option Channel
  crypto : Crypto
  authType : AuthType
  mfp : Mfp
  keyIdx : ℕ
  keyLen : ℕ
  keyBuf : Option (List Byte)
  iesLen : ℕ
  iesBuf : Option (List Byte)
  vifIdx : ℕ
  saved : Bool

def noMac : MacAddr := Vector.replicate 6 0

/-- The record of `kzalloc`. -/
def AssocInfo.start : AssocInfo where
  bssid := noMac
  prevBssid := noMac
  chan := none
  crypto := ⟨0, 0, 0, Vector.replicate 5 0, Vector.replicate 2 0, false, 0, false⟩
  authType := .openSystem
  mfp := .no
  keyIdx := 0
  keyLen := 0
  keyBuf := none
  iesLen := 0
  iesBuf := none
  vifIdx := 0
  saved := false

/-- A call of `aml_recy_save_assoc_info`: its parameters, and what each `kmalloc` would return. A key there is has
`keyLen` bytes. -/
structure Call where
  sme : ConnectParams
  vifIndex : ℕ
  chanOk : Bool
  keyOk : Bool
  iesOk : Bool
  keyWhole : ∀ key, sme.key = some key → key.length = sme.keyLen

/-- `memcpy` into a buffer; what is behind its end is not in it. -/
def overwrite (buf bytes : List Byte) : List Byte := bytes.take buf.length ++ buf.drop bytes.length

/-- What a part of a call leaves, whether it returns or goes on. -/
def left : Except AssocInfo AssocInfo → AssocInfo
  | .ok info => info
  | .error info => info

/-- `WLAN_EID_SSID`. -/
def eidSsid : Byte := 0

/-- The SSID as an element, and the elements behind it. -/
def iesBytes (ssid ie : List Byte) : List Byte := eidSsid :: BitVec.ofNat 8 ssid.length :: (ssid ++ ie)

namespace Call

variable (c : Call)

/-- The part of a call that needs no memory. -/
def fields (info : AssocInfo) : AssocInfo :=
  { info with
    bssid := c.sme.bssid.getD macAddrBcst
    prevBssid := c.sme.prevBssid.getD info.prevBssid
    crypto := c.sme.crypto
    authType := c.sme.authType
    mfp := c.sme.mfp
    keyIdx := c.sme.keyIdx
    keyLen := c.sme.keyLen }

/-- `aml_recy_memcpy` of the channel: its buffer has the size of a channel. An error is the return. -/
def saveChan (info : AssocInfo) : Except AssocInfo AssocInfo :=
  match c.sme.channel with
  | none => .ok info
  | some channel => if info.chan.isSome || c.chanOk then .ok { info with chan := some channel } else .error info

/-- `aml_recy_memcpy` of the key: a buffer is used again for a key of one byte only, as `sizeof(*dst)` is 1. -/
def saveKey (info : AssocInfo) : Except AssocInfo AssocInfo :=
  match c.sme.key with
  | none => .ok info
  | some key =>
    if c.sme.keyLen = 0 then .ok info
    else
      match if c.sme.keyLen = 1 then info.keyBuf else none with
      | some buf => .ok { info with keyBuf := some (overwrite buf key) }
      | none => if c.keyOk then .ok { info with keyBuf := some key } else .error { info with keyBuf := none }

/-- The SSID that is saved, `MAC_SSID_LEN` bytes at most. -/
def ssid : List Byte := c.sme.ssid.take 32

/-- What goes to `ies_buf`. -/
def ies : List Byte := iesBytes c.ssid c.sme.ie

/-- The elements: the buffer is used again if `ies_len` says that it is large enough. -/
def saveIes (info : AssocInfo) : Except AssocInfo AssocInfo :=
  match if info.iesLen < c.ies.length then none else info.iesBuf with
  | some buf => .ok { info with iesBuf := some (overwrite buf c.ies), iesLen := c.ies.length }
  | none =>
    if c.iesOk then .ok { info with iesBuf := some c.ies, iesLen := c.ies.length }
    else .error { info with iesBuf := none }

def setSaved (info : AssocInfo) : AssocInfo := { info with vifIdx := c.vifIndex, saved := true }

def Accepted : Prop := c.sme.ie ≠ [] ∧ c.sme.ssid ≠ []

instance : Decidable c.Accepted := by
  unfold Accepted
  infer_instance

/-- An accepted call. -/
def steps (info : AssocInfo) : Except AssocInfo AssocInfo :=
  match c.saveChan (c.fields info) with
  | .error info => .error info
  | .ok info =>
    match c.saveKey info with
    | .error info => .error info
    | .ok info => (c.saveIes info).map c.setSaved

/-- `aml_recy_save_assoc_info`. -/
def save (info : AssocInfo) : AssocInfo := if c.Accepted then left (c.steps info) else info

end Call

/-! ### The request of a recovery -/

/-- An interface: `ndev` is not null, and its type is `NL80211_IFTYPE_STATION`. -/
structure RecyVif extends StaVif where
  ndev : Bool
  station : Bool

def installsKey (crypto : Crypto) (authType : AuthType) (key : Bool) (keyLen : ℕ) : Bool :=
  decide (crypto.wpaVersions &&& 7 = 0) && key && decide (keyLen ≠ 0) &&
    (decide (authType = .sharedKey) || decide (authType = .automatic) ||
      decide (BitVec.ofNat 32 crypto.nCiphersPairwise &&& (cipherWep40 ||| cipherWep104) ≠ 0))

def authBehindKey (crypto : Crypto) (authType : AuthType) (key : Bool) (keyLen : ℕ) : AuthType :=
  if installsKey crypto authType key keyLen && decide (authType = .automatic) then .sharedKey else authType

/-- The parameters that are made of the record. -/
def AssocInfo.sme (info : AssocInfo) (ies : List Byte) : ConnectParams where
  bssid := some info.bssid
  prevBssid := some info.prevBssid
  channel := info.chan
  ssid := (ies.drop 2).take (ies.getD 1 0).toNat
  ie := (ies.take info.iesLen).drop (2 + (ies.getD 1 0).toNat)
  authType := authBehindKey info.crypto info.authType info.keyBuf.isSome info.keyLen
  mfp := info.mfp
  crypto := info.crypto
  keyIdx := info.keyIdx
  key := info.keyBuf
  keyLen := info.keyLen

/-- `aml_recy_sta_connect`: the call of `aml_send_sm_connect_req`, if there is one. -/
def amlRecyStaConnect (mod : ModParams) (kzalloc : ℕ → Bool) (vifTable : ℕ → Option RecyVif) (info : AssocInfo) :
    Option ConnectOut :=
  match vifTable 0 with
  | none => none
  | some vif =>
    if !vif.ndev || !info.saved || !vif.station then none
    else if info.chan.isNone then none
    else info.iesBuf.map fun ies => amlSendSmConnectReq mod kzalloc vif.toStaVif (info.sme ies)

/-! ### The property -/

/-- **The record is that of a call.** -/
structure SavedFrom (c : Call) (info : AssocInfo) : Prop where
  bssid : info.bssid = c.sme.bssid.getD macAddrBcst
  prevBssid : info.prevBssid = c.sme.prevBssid.getD noMac
  chan : info.chan = c.sme.channel
  crypto : info.crypto = c.sme.crypto
  authType : info.authType = c.sme.authType
  mfp : info.mfp = c.sme.mfp
  keyIdx : info.keyIdx = c.sme.keyIdx
  keyLen : info.keyLen = c.sme.keyLen
  key : info.keyLen ≠ 0 → (info.keyBuf.map fun buf => buf.take info.keyLen) = c.sme.key
  keyRoom : info.keyLen ≤ (info.keyBuf.getD []).length
  ies : (info.iesBuf.map fun buf => buf.take info.iesLen) = some (iesBytes c.sme.ssid c.sme.ie)
  iesRoom : info.iesLen ≤ (info.iesBuf.getD []).length
  vifIdx : info.vifIdx = c.vifIndex

/-- **The request of a recovery is that of a call**, wherever the first interface is a station. -/
def Reconnects (c : Call) (info : AssocInfo) : Prop :=
  ∀ (mod : ModParams) (kzalloc : ℕ → Bool) (vifTable : ℕ → Option RecyVif) (vif₀ vif : RecyVif),
    (∀ i vif, vifTable i = some vif → vif.vifIndex = i) → vifTable 0 = some vif₀ → vif₀.ndev = true →
    vif₀.station = true → vifTable c.vifIndex = some vif →
    (amlRecyStaConnect mod kzalloc vifTable info).map ConnectOut.outcome =
      some (amlSendSmConnectReq mod kzalloc vif.toStaVif c.sme).outcome

/-- The record, and the calls so far. -/
structure Saving where
  info : AssocInfo
  calls : List Call

/-- **What holds of the record.** -/
def OneConnect (s : Saving) : Prop :=
  s.info.saved = true → ∃ c ∈ s.calls, SavedFrom c s.info ∧ Reconnects c s.info

/-! ### The runs -/

/-- What happens: a save, and a disconnection that clears the flag. -/
inductive Event
  | save (c : Call)
  | forget

def Saves : System Saving Event where
  init := ⟨.start, []⟩
  step s
    | .save c => some ⟨c.save s.info, s.calls ++ [c]⟩
    | .forget => some { s with info := { s.info with saved := false } }

/-! ### When it holds -/

namespace Call

variable (c : Call) (info : AssocInfo)

def Allocated : Prop :=
  (c.sme.channel.isSome = true → info.chan.isSome = true ∨ c.chanOk = true) ∧
  (c.sme.key.isSome = true → c.sme.keyLen ≠ 0 → c.sme.keyLen = 1 ∧ info.keyBuf.isSome = true ∨ c.keyOk = true) ∧
  (c.ies.length ≤ info.iesLen ∧ info.iesBuf.isSome = true ∨ c.iesOk = true)

/-- The parameters have all that is saved, for the first interface, and the installation of a key does not change the
authentication that is asked for. -/
structure Complete : Prop where
  prevBssid : c.sme.prevBssid.isSome = true
  channel : c.sme.channel.isSome = true
  key : c.sme.keyLen ≠ 0 → c.sme.key.isSome = true
  ssid : c.sme.ssid.length ≤ 32
  vifIndex : c.vifIndex = 0
  auth : c.sme.authType = .automatic → installsKey c.sme.crypto .automatic c.sme.key.isSome c.sme.keyLen = true →
    c.sme.crypto.wep = true ∧ findElem W2l.Conn.eidMobilityDomain c.sme.ie = none

end Call

/-- **When a step keeps the record whole**: a call with an SSID and elements that has its memory is complete, and one
that has not finds no record. -/
def Keeps (s : Saving) : Event → Prop
  | .save c => c.Accepted → (c.Allocated s.info → c.Complete) ∧ (¬c.Allocated s.info → s.info.saved = false)
  | .forget => True

end W2l.SavedAssoc
