/-
**The connect request.**

`update_connect_req`, `copy_connect_ies`, `aml_send_sm_connect_req` (`aml_msg_tx.c`). The size of the request is
computed before the request is allocated, and its elements are written after it is filled in.

* `ConnectParams`, `StaVif` — the parameters of a connection, and the interface it is for.
* `StaVif.find` — the first element with a number in the stored list.
* `updateConnectReq` — the size of the elements; it may turn the connection into a fast transition over the air.
* `copyConnectIes` — the elements written.
* `amlSendSmConnectReq` — the whole, with its exits.
-/

import W2lDriver.Conn.FtMerge

namespace W2l.Connect

open Lib
open Conn (StaFt eidRsn eidMobilityDomain eidFastBssTransition)

/-! ### The parameters of a connection -/

/-- The six bytes of an address. -/
abbrev MacAddr := Vector Byte 6

def macAddrBcst : MacAddr := Vector.replicate 6 0xff

inductive AuthType
  | openSystem
  | sharedKey
  | ft
  | networkEap
  | sae
  | filsSk
  | filsSkPfs
  | filsPk
  | automatic
  deriving DecidableEq

inductive Mfp
  | no
  | required
  | optional
  deriving DecidableEq

/-- What is read of a `struct ieee80211_channel`. -/
structure Channel where
  band : ℕ
  centerFreq : BitVec 16
  flags : BitVec 32
  deriving DecidableEq

/-- What is read of a `struct cfg80211_crypto_settings`. -/
structure Crypto where
  wpaVersions : BitVec 32
  cipherGroup : BitVec 32
  nCiphersPairwise : ℕ
  ciphersPairwise : Vector (BitVec 32) 5
  akmSuites : Vector (BitVec 32) 2
  controlPort : Bool
  controlPortEthertype : BitVec 16
  controlPortNoEncrypt : Bool
  deriving DecidableEq

/-- What is read of a `struct cfg80211_connect_params`. -/
structure ConnectParams where
  bssid : Option MacAddr
  prevBssid : Option MacAddr
  channel : Option Channel
  ssid : List Byte
  ie : List Byte
  authType : AuthType
  mfp : Mfp
  crypto : Crypto
  keyIdx : ℕ
  key : Option (List Byte)
  keyLen : ℕ
  deriving DecidableEq

/-- `WLAN_CIPHER_SUITE_WEP40`. -/
def cipherWep40 : BitVec 32 := 0x000fac01

/-- `WLAN_CIPHER_SUITE_TKIP`. -/
def cipherTkip : BitVec 32 := 0x000fac02

/-- `WLAN_CIPHER_SUITE_WEP104`. -/
def cipherWep104 : BitVec 32 := 0x000fac05

/-- `WLAN_AKM_SUITE_SAE`. -/
def akmSae : BitVec 32 := 0x000fac08

/-- What is read of the module's parameters. -/
structure ModParams where
  listenItv : BitVec 16
  listenBcmc : Bool
  uapsdQueues : BitVec 8
  deriving DecidableEq

/-- The interface of a connection; `sta.ap` is only asked for. -/
structure StaVif extends StaFt where
  vifIndex : ℕ
  ap : Bool
  ftTargetAp : MacAddr

/-! ### The elements -/

/-- `cfg80211_find_elem` in the stored list. -/
def StaVif.find (vif : StaVif) (id : Byte) : Option Element :=
  match vif.ftAssocIes with
  | none => none
  | some ies => findElem id (ies.take vif.ftAssocIesLen)

/-- A walk over the stored list reads it though there is none: its length says that it has an element. -/
def StaVif.readsNull (vif : StaVif) : Bool := vif.ftAssocIes.isNone && decide (2 ≤ vif.ftAssocIesLen)

/-- `sizeof(struct element) + datalen`, and nothing for an element there is not. -/
def elemSize (e : Option Element) : ℕ := (e.map Element.size).getD 0

/-- `update_connect_req`: the size, and the parameters. The length of an element is its second byte, so that the
comparison of two elements needs no more than their own bytes. -/
def updateConnectReq (vif : StaVif) (sme : ConnectParams) : ℕ × ConnectParams :=
  if vif.ap && vif.ftAssocIes.isSome && decide (sme.authType = .automatic) then
    match findElem eidMobilityDomain sme.ie, vif.find eidMobilityDomain with
    | some mdeReq, some mde =>
      if mde ≠ mdeReq then (sme.ie.length, sme)
      else
        match vif.find eidRsn, vif.find eidFastBssTransition with
        | some rsne, some fte => (mde.size + (rsne.size + fte.size), { sme with authType := .ft })
        | none, none => (mde.size, { sme with authType := .ft })
        | _, _ => (sme.ie.length, sme)
    | _, _ => (sme.ie.length, sme)
  else (sme.ie.length, sme)

/-- What `copy_connect_ies` puts one behind the other over the air. -/
def StaVif.ftElems (vif : StaVif) : List Element :=
  (vif.find eidRsn).toList ++ ((vif.find eidMobilityDomain).toList ++ (vif.find eidFastBssTransition).toList)

/-- `copy_connect_ies`: the bytes written; `none` is a read of a list that is not there. -/
def copyConnectIes (vif : StaVif) (sme : ConnectParams) : Option (StaVif × List Byte) :=
  if decide (sme.authType = .ft) && !vif.overDs then
    if vif.readsNull then none
    else some ({ vif with ftTargetAp := sme.bssid.getD vif.ftTargetAp }, elementsBytes vif.ftElems)
  else some (vif, sme.ie)

/-! ### The request -/

/-- `enum mac_connection_flags`. -/
structure ConnFlags where
  controlPortHost : Bool
  controlPortNoEnc : Bool
  disableHt : Bool
  wpaWpa2InUse : Bool
  mfpInUse : Bool
  reassociation : Bool
  ftOverDs : Bool
  wpa3SaeInUse : Bool
  deriving DecidableEq

/-- `WLAN_AUTH_OPEN`, `WLAN_AUTH_SHARED_KEY`, `WLAN_AUTH_FT`, `WLAN_AUTH_SAE`. -/
inductive WlanAuth
  | open_
  | sharedKey
  | ft
  | sae
  deriving DecidableEq

/-- `struct mac_chan_def`, as it is filled in. -/
structure ChanDef where
  freq : BitVec 16
  band : ℕ
  noIr : Bool
  radar : Bool
  deriving DecidableEq

/-- `struct sm_connect_req`. The loop over the SSID has no bound: bytes from the 33rd on land behind the array. -/
structure ConnectReq where
  ssid : List Byte
  bssid : MacAddr
  chan : ChanDef
  flags : ConnFlags
  ctrlPortEthertype : BitVec 16
  listenInterval : BitVec 16
  dontWaitBcmc : Bool
  authType : WlanAuth
  uapsdQueues : BitVec 8
  vifIdx : ℕ
  ieLen : ℕ
  ieBuf : List Byte
  deriving DecidableEq

/-- `sizeof(struct sm_connect_req)`. -/
def sizeofReq : ℕ := 64

/-- `IEEE80211_CHAN_NO_IR` and `IEEE80211_CHAN_RADAR`. -/
def chanDef (channel : Option Channel) : ChanDef :=
  match channel with
  | none => ⟨0xffff, 0, false, false⟩
  | some chan => ⟨chan.centerFreq, chan.band, chan.flags.getLsbD 1, chan.flags.getLsbD 3⟩

def usePairwiseKey (crypto : Crypto) : Bool :=
  !(decide (crypto.cipherGroup = cipherWep40) || decide (crypto.cipherGroup = cipherWep104))

def Crypto.wep (crypto : Crypto) : Bool :=
  decide (crypto.ciphersPairwise[0] = cipherWep40) || decide (crypto.ciphersPairwise[0] = cipherWep104)

def connFlags (vif : StaVif) (sme : ConnectParams) : ConnFlags where
  disableHt := decide (sme.crypto.nCiphersPairwise ≠ 0) &&
    (sme.crypto.wep || decide (sme.crypto.ciphersPairwise[0] = cipherTkip))
  controlPortHost := sme.crypto.controlPort
  controlPortNoEnc := sme.crypto.controlPortNoEncrypt
  wpaWpa2InUse := usePairwiseKey sme.crypto
  mfpInUse := decide (sme.mfp = .required)
  reassociation := sme.prevBssid.isSome || (decide (sme.authType = .ft) && vif.overDs)
  ftOverDs := decide (sme.authType = .ft) && vif.overDs
  wpa3SaeInUse := decide (sme.crypto.akmSuites[0] = akmSae)

/-- The type of the authentication; `none` is the jump to `invalid_param`. -/
def wlanAuth (sme : ConnectParams) : Option WlanAuth :=
  match sme.authType with
  | .automatic => some (if sme.crypto.wep && decide (sme.keyLen ≠ 0) then .sharedKey else .open_)
  | .openSystem => some .open_
  | .sharedKey => some .sharedKey
  | .ft => some .ft
  | .sae => some .sae
  | _ => none

/-- How a request ends. -/
inductive ConnectEnd
  | noMemory
  | invalid
  | oops
  | sent (req : ConnectReq)
  deriving DecidableEq

/-- What a call leaves: the interface, the parameters, the size `update_connect_req` returned, the length of the
parameters of the message, and how it ends. -/
structure ConnectOut where
  vif : StaVif
  sme : ConnectParams
  ieLen : ℕ
  paramLen : ℕ
  outcome : ConnectEnd

/-- The length of a message with `n` bytes of elements; it has 16 bits. -/
def msgLen (n : ℕ) : ℕ := (sizeofReq + n) % 65536

def fillReq (mod : ModParams) (vif : StaVif) (sme : ConnectParams) (authType : WlanAuth) (bytes : List Byte) :
    ConnectReq where
  ssid := sme.ssid
  bssid := sme.bssid.getD macAddrBcst
  chan := chanDef sme.channel
  flags := connFlags vif sme
  ctrlPortEthertype := sme.crypto.controlPortEthertype
  listenInterval := mod.listenItv
  dontWaitBcmc := !mod.listenBcmc
  authType := authType
  uapsdQueues := mod.uapsdQueues
  vifIdx := vif.vifIndex
  ieLen := bytes.length % 65536
  ieBuf := bytes

/-- A request that has been allocated: it is filled in and sent, or freed. -/
def connectEnd (mod : ModParams) (vif : StaVif) (sme : ConnectParams) : StaVif × ConnectEnd :=
  match wlanAuth sme with
  | none => (vif, .invalid)
  | some authType =>
    match copyConnectIes vif sme with
    | none => (vif, .oops)
    | some (vif', bytes) => (vif', .sent (fillReq mod vif sme authType bytes))

/-- `aml_send_sm_connect_req`; `kzalloc` may fail. -/
def amlSendSmConnectReq (mod : ModParams) (kzalloc : ℕ → Bool) (vif : StaVif) (sme : ConnectParams) : ConnectOut :=
  let (ieLen, sme) := updateConnectReq vif sme
  let (vif, outcome) := if kzalloc (msgLen ieLen) then connectEnd mod vif sme else (vif, .noMemory)
  { vif, sme, ieLen, paramLen := msgLen ieLen, outcome }

end W2l.Connect
