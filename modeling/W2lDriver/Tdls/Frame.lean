/-
**TDLS frames: `aml_tdls.c`.**

A frame is built by reserving room at the end of a socket buffer (`skb_put`) and writing into it; a byte that was
reserved and never written is whatever the kernel's memory held.

* `Skb` — a socket buffer: what was asked for, and the bytes put so far.
* `TdlsHw`, `ApSta`, `PeerSta`, `Kernel` — what the builders read: the two bands, the AP, the peer, and the channel
  functions of cfg80211.
* `amlAdd…`, `amlTdlsAdd…`, `amlIeBuild…` — the builders.
* `amlTdlsSendMgmtPacketData` — the whole call, and what became of the socket buffer.
-/

import W2lDriver.Lib.Reserved

namespace W2l.Tdls

open Lib (Byte overwrite be16)

/-! ### Numbers -/

abbrev wlanTdlsSetupRequest : Byte := 0
abbrev wlanTdlsSetupResponse : Byte := 1
abbrev wlanTdlsSetupConfirm : Byte := 2
abbrev wlanTdlsTeardown : Byte := 3
abbrev wlanTdlsDiscoveryRequest : Byte := 10
abbrev wlanPubActionTdlsDiscoverRes : Byte := 14

abbrev wlanEidSuppRates : Byte := 1
abbrev wlanEidSupportedChannels : Byte := 36
abbrev wlanEidHtCapability : Byte := 45
abbrev wlanEidExtSuppRates : Byte := 50
abbrev wlanEidSupportedRegulatoryClasses : Byte := 59
abbrev wlanEidHtOperation : Byte := 61
abbrev wlanEidBssCoex2040 : Byte := 72
abbrev wlanEidLinkId : Byte := 101
abbrev wlanEidExtCapability : Byte := 127
abbrev wlanEidVhtCapability : Byte := 191
abbrev wlanEidVhtOperation : Byte := 192
abbrev wlanEidAid : Byte := 197
abbrev wlanEidVendorSpecific : Byte := 221

abbrev htCapSupWidth2040 : BitVec 16 := 2

abbrev eInval : Int := -22
abbrev eNotSupp : Int := -524

/-- A field of `n` bytes. -/
abbrev Field (n : ℕ) := { bytes : List Byte // bytes.length = n }

/-- `cpu_to_le16`. -/
def le16 (v : BitVec 16) : List Byte := [v.extractLsb' 0 8, v.extractLsb' 8 8]

/-- `cpu_to_le32`. -/
def le32 (v : BitVec 32) : List Byte :=
  [v.extractLsb' 0 8, v.extractLsb' 8 8, v.extractLsb' 16 8, v.extractLsb' 24 8]

/-! ### What the builders read -/

/-- `enum nl80211_band`, as far as the driver has bands. -/
inductive Nl80211Band
  | band2GHz | band5GHz
  deriving DecidableEq

inductive ChanWidth
  | width20NoHt | width20 | width40 | width80 | width80p80 | width160 | width5 | width10
  deriving DecidableEq

/-- `struct ieee80211_sta_ht_cap`. -/
structure HtCap where
  htSupported : Bool
  cap : BitVec 16
  ampduFactor : Byte
  ampduDensity : Byte
  mcs : Field 16

/-- `struct ieee80211_sta_vht_cap`. -/
structure VhtCap where
  vhtSupported : Bool
  cap : BitVec 32
  vhtMcs : Field 8

/-- `struct ieee80211_supported_band`: the center frequencies of its channels and its capabilities. -/
structure SupportedBand where
  channels : List ℕ
  htCap : HtCap
  vhtCap : VhtCap

def SupportedBand.nChannels (band : SupportedBand) : ℕ := band.channels.length

/-- The AP's `struct aml_sta`. -/
structure ApSta where
  macAddr : Field 6
  aid : BitVec 16
  band : Nl80211Band
  width : ChanWidth
  centerFreq : ℕ
  centerFreq1 : ℕ
  centerFreq2 : ℕ
  acm : Byte
  acParam : Fin 4 → BitVec 32
  ht : Bool
  vht : Bool

/-- The peer's `struct aml_sta`. -/
structure PeerSta where
  qos : Bool
  ht : Bool
  vht : Bool

/-- The driver: the bands, the station table and the module parameters. -/
structure TdlsHw where
  permAddr : Field 6
  band2GHz : SupportedBand
  band5GHz : SupportedBand
  chanSwitch : Bool                     -- `NL80211_FEATURE_TDLS_CHANNEL_SWITCH`
  mcsMap : BitVec 16
  amlGetSta : Field 6 → Option PeerSta

/-- `aml_hw->wiphy->bands[band]`. -/
def TdlsHw.sband (hw : TdlsHw) : Nl80211Band → SupportedBand
  | .band2GHz => hw.band2GHz
  | .band5GHz => hw.band5GHz

/-- `ieee80211_frequency_to_channel` and `ieee80211_chandef_to_operating_class`. -/
structure Kernel where
  frequencyToChannel : ℕ → ℕ
  chandefToOperatingClass : Nl80211Band → ℕ → ChanWidth → ℕ → ℕ → Option Byte

/-- The arguments of `aml_tdls_send_mgmt_packet_data`. -/
structure Request where
  peer : Field 6
  actionCode : Byte
  dialogToken : Byte
  statusCode : BitVec 16
  initiator : Bool
  extraIes : List Byte

/-! ### The socket buffer -/

/-- A socket buffer of `size` bytes and what was put into it. -/
structure Skb where
  size : ℕ
  data : List (Option Byte) := []

namespace Skb

/-- `skb_put`: the place of the new bytes, none of which is written yet. -/
def put (skb : Skb) (n : ℕ) : ℕ × Skb :=
  (skb.data.length, { skb with data := skb.data ++ List.replicate n none })

/-- Writes from `pos` on. -/
def write (skb : Skb) (pos : ℕ) (bytes : List Byte) : Skb := { skb with data := overwrite skb.data pos bytes }

def tailroom (skb : Skb) : ℕ := skb.size - skb.data.length

end Skb

/-! ### The fixed fields -/

def amlGetTdlsStaCapab (ap : ApSta) (statusCode : BitVec 16) : BitVec 16 :=
  if statusCode ≠ 0 then 0
  else if ap.band ≠ .band2GHz then 0
  else 0x0400#16 ||| 0x0020#16

def amlTdlsPrepareEncapData (hw : TdlsHw) (ap : ApSta) (req : Request) (skb : Skb) : Except Int Skb :=
  let (tf, skb) := skb.put 17
  let skb := skb.write tf req.peer.1
  let skb := skb.write (tf + 6) hw.permAddr.1
  let skb := skb.write (tf + 12) (be16 0x890D)
  let skb := skb.write (tf + 14) [2, 12, req.actionCode]
  let capab := le16 (amlGetTdlsStaCapab ap req.statusCode)
  match req.actionCode with
  | 0 => .ok ((skb.put 3).2.write (tf + 17) (req.dialogToken :: capab))
  | 1 => .ok ((skb.put 5).2.write (tf + 17) (le16 req.statusCode ++ req.dialogToken :: capab))
  | 2 => .ok ((skb.put 3).2.write (tf + 17) (le16 req.statusCode ++ [req.dialogToken]))
  | 3 => .ok ((skb.put 2).2.write (tf + 17) (le16 req.statusCode))
  | 10 => .ok ((skb.put 1).2.write (tf + 17) [req.dialogToken])
  | _ => .error eInval

def amlPrepTdlsDirect (hw : TdlsHw) (ap : ApSta) (req : Request) (skb : Skb) : Except Int Skb :=
  let (mgmt, skb) := skb.put 24
  let skb := skb.write mgmt (List.replicate 24 0)
  let skb := skb.write (mgmt + 4) req.peer.1
  let skb := skb.write (mgmt + 10) hw.permAddr.1
  let skb := skb.write (mgmt + 16) ap.macAddr.1
  let skb := skb.write mgmt (le16 0x00D0)
  match req.actionCode with
  | 14 => .ok ((skb.put 5).2.write (mgmt + 24)
      ([4, 14, req.dialogToken] ++ le16 (amlGetTdlsStaCapab ap req.statusCode)))
  | _ => .error eInval

/-! ### The elements of a setup -/

/-- The bitrates of `aml_ratetable`, in 100 kbit/s. -/
def amlRatetable : List ℕ := [10, 20, 55, 110, 60, 90, 120, 180, 240, 360, 480, 540]

/-- `DIV_ROUND_UP(rate, 5)`. -/
def rateByte (rate : ℕ) : Byte := BitVec.ofNat 8 ((rate + 4) / 5)

def amlAddSratesIe (skb : Skb) : Skb :=
  if skb.tailroom < 8 + 2 then skb
  else
    let (pos, skb) := skb.put (8 + 2)
    skb.write pos (wlanEidSuppRates :: 8 :: (amlRatetable.take 8).map rateByte)

def amlAddExtSratesIe (skb : Skb) : Skb :=
  let exrates := amlRatetable.length - 8
  if skb.tailroom < exrates + 2 then skb
  else
    let (pos, skb) := skb.put (exrates + 2)
    skb.write pos (wlanEidExtSuppRates :: BitVec.ofNat 8 exrates :: (amlRatetable.drop 8).map rateByte)

/-- One band of `aml_tdls_add_supp_channels`: the first channel and their number. -/
def addSubband (K : Kernel) (band : SupportedBand) (skb : Skb) : Skb × ℕ :=
  let (posSubband, skb) := skb.put 2
  match band.channels with
  | [] => (skb, 0)
  | first :: _ =>
    (skb.write posSubband [BitVec.ofNat 8 (K.frequencyToChannel first), BitVec.ofNat 8 band.nChannels], 1)

def amlTdlsAddSuppChannels (K : Kernel) (hw : TdlsHw) (skb : Skb) : Skb :=
  let (pos, skb) := skb.put 2
  let skb := skb.write pos [wlanEidSupportedChannels]
  let (skb, cnt2GHz) := addSubband K hw.band2GHz skb
  let (skb, cnt5GHz) := addSubband K hw.band5GHz skb
  skb.write (pos + 1) [BitVec.ofNat 8 (2 * (cnt2GHz + cnt5GHz))]

def amlTdlsAddExtCapab (hw : TdlsHw) (skb : Skb) : Skb :=
  let (pos, skb) := skb.put 7
  skb.write pos [wlanEidExtCapability, 5, 0, 0, 0, 0x10 ||| (if hw.chanSwitch then 0x40 else 0), 0x20]

def amlAddWmmInfoIe (skb : Skb) (qosinfo : Byte) : Skb :=
  let (pos, skb) := skb.put 9
  skb.write pos [wlanEidVendorSpecific, 7, 0x00, 0x50, 0xf2, 2, 0, 1, qosinfo]

def amlTdlsAddOperClasses (K : Kernel) (ap : ApSta) (skb : Skb) : Skb :=
  match K.chandefToOperatingClass ap.band ap.centerFreq ap.width ap.centerFreq1 ap.centerFreq2 with
  | none => skb
  | some opClass =>
    let (pos, skb) := skb.put 4
    skb.write pos [wlanEidSupportedRegulatoryClasses, 2, opClass, opClass]

def amlIeBuildHtCap (skb : Skb) (htCap : HtCap) : Skb :=
  let (pos, skb) := skb.put (26 + 2)
  let skb := skb.write pos [wlanEidHtCapability, 26]
  let skb := skb.write (pos + 2) (List.replicate 26 0)
  let skb := skb.write (pos + 2) (le16 htCap.cap)
  let skb := skb.write (pos + 4) [htCap.ampduFactor ||| (htCap.ampduDensity <<< 2)]
  skb.write (pos + 5) htCap.mcs.1

def amlIeBuildVhtCap (skb : Skb) (vhtCap : VhtCap) : Skb :=
  let (pos, skb) := skb.put 14
  let skb := skb.write pos [wlanEidVhtCapability, 12]
  let skb := skb.write (pos + 2) (List.replicate 12 0)
  let skb := skb.write (pos + 2) (le32 vhtCap.cap)
  skb.write (pos + 6) vhtCap.vhtMcs.1

def amlTdlsAddBssCoexIe (skb : Skb) : Skb :=
  let (pos, skb) := skb.put 3
  skb.write pos [wlanEidBssCoex2040, 1, 1]

def amlTdlsAddLinkIe (hw : TdlsHw) (ap : ApSta) (req : Request) (skb : Skb) : Skb :=
  let initAddr := if req.initiator then hw.permAddr else req.peer
  let rspAddr := if req.initiator then req.peer else hw.permAddr
  let (lnkid, skb) := skb.put 20
  let skb := skb.write lnkid [wlanEidLinkId, 18]
  let skb := skb.write (lnkid + 2) ap.macAddr.1
  let skb := skb.write (lnkid + 8) initAddr.1
  skb.write (lnkid + 14) rspAddr.1

def amlTdlsAddAidIe (ap : ApSta) (skb : Skb) : Skb :=
  let (pos, skb) := skb.put 4
  skb.write pos [wlanEidAid, 2, ap.aid.setWidth 8]

/-- `memcpy(skb_put(skb, extra_ies_len), extra_ies, extra_ies_len)`. -/
def addExtra (extraIes : List Byte) (skb : Skb) : Skb :=
  if extraIes.length = 0 then skb
  else
    let (pos, skb) := skb.put extraIes.length
    skb.write pos extraIes

def amlTdlsAddSetupStartIes (K : Kernel) (hw : TdlsHw) (ap : ApSta) (req : Request) (skb : Skb) : Skb :=
  let skb := amlAddSratesIe skb
  let skb := amlAddExtSratesIe skb
  let skb := amlTdlsAddSuppChannels K hw skb
  let skb := amlTdlsAddExtCapab hw skb
  let skb := if req.actionCode ≠ wlanPubActionTdlsDiscoverRes then amlAddWmmInfoIe skb 0 else skb
  let skb := amlTdlsAddOperClasses K ap skb
  let sband := hw.sband ap.band
  let skb :=
    if (req.actionCode = wlanTdlsSetupRequest ∨ req.actionCode = wlanTdlsSetupResponse ∨
        req.actionCode = wlanPubActionTdlsDiscoverRes) ∧ sband.htCap.htSupported = true then
      amlIeBuildHtCap skb sband.htCap
    else skb
  let skb :=
    if sband.htCap.htSupported = true ∧ sband.htCap.cap &&& htCapSupWidth2040 ≠ 0 then amlTdlsAddBssCoexIe skb
    else skb
  let skb := amlTdlsAddLinkIe hw ap req skb
  let skb :=
    if sband.vhtCap.vhtSupported then amlIeBuildVhtCap (amlTdlsAddAidIe ap skb) sband.vhtCap else skb
  addExtra req.extraIes skb

/-! ### The elements of a confirmation -/

/-- `aml_ac_from_wmm`: `AC_BK` is 0 and `AC_BE` is 1. -/
def amlAcFromWmm : Fin 4 → Fin 4
  | 0 => 1
  | 1 => 0
  | 2 => 2
  | 3 => 3

/-- One record of `aml_add_wmm_param_ie`. -/
def acRecord (acmBits : Byte) (acParams : Fin 4 → BitVec 32) (i : Fin 4) : List Byte :=
  let j := amlAcFromWmm i
  let cwMin := ((acParams j &&& 0xF0) >>> 4).setWidth 8
  let cwMax := ((acParams j &&& 0xF00) >>> 8).setWidth 8
  let acm : Byte := if acmBits.getLsbD j then 1 else 0
  [(BitVec.ofNat 8 i <<< 5) ||| (acm <<< 4) ||| (acParams j &&& 0xF).setWidth 8, (cwMax <<< 4) ||| cwMin] ++
    le16 (((acParams j &&& 0x0FFFF000) >>> 12).setWidth 16)

def amlAddWmmParamIe (skb : Skb) (acmBits : Byte) (acParams : Fin 4 → BitVec 32) : Skb :=
  let (wmm, skb) := skb.put 26
  let skb := skb.write wmm (List.replicate 26 0)
  let skb := skb.write wmm [wlanEidVendorSpecific, 24, 0x00, 0x50, 0xf2, 2, 1, 1, 0]
  (List.finRange 4).foldl (fun skb (i : Fin 4) => skb.write (wmm + (10 + 4 * i)) (acRecord acmBits acParams i)) skb

/-- `ht_param` of `aml_ie_build_ht_oper`. -/
def htParam (ap : ApSta) (htCap : HtCap) : Byte :=
  let sec : Byte := match ap.width with
    | .width160 | .width80p80 | .width80 | .width40 => if ap.centerFreq1 > ap.centerFreq then 1 else 3
    | _ => 0
  if htCap.cap &&& htCapSupWidth2040 ≠ 0 ∧ ap.width ≠ .width20NoHt ∧ ap.width ≠ .width20 then sec ||| 4 else sec

/-- `aml_ie_build_ht_oper`, with `prot_mode` 0. -/
def amlIeBuildHtOper (K : Kernel) (ap : ApSta) (htCap : HtCap) (skb : Skb) (pos : ℕ) : Skb :=
  let skb := skb.write pos
    [wlanEidHtOperation, 22, BitVec.ofNat 8 (K.frequencyToChannel ap.centerFreq), htParam ap htCap]
  let skb := skb.write (pos + 4) (le16 0)
  let skb := skb.write (pos + 6) (le16 0)
  let skb := skb.write (pos + 8) (List.replicate 16 0)
  skb.write (pos + 8) (htCap.mcs.1.take 10)

/-- Width and center frequency segments of `aml_ie_build_vht_oper`. -/
def vhtSegments (K : Kernel) (ap : ApSta) : List Byte :=
  let chan (freq : ℕ) : Byte := BitVec.ofNat 8 (K.frequencyToChannel freq)
  match ap.width with
  | .width80 => [1, chan ap.centerFreq, 0]
  | .width160 => [2, chan ap.centerFreq, 0]
  | .width80p80 => [3, chan ap.centerFreq1, chan ap.centerFreq2]
  | _ => [0, 0, 0]

def amlIeBuildVhtOper (K : Kernel) (hw : TdlsHw) (ap : ApSta) (skb : Skb) (pos : ℕ) : Skb :=
  skb.write pos ([wlanEidVhtOperation, 5] ++ vhtSegments K ap ++ le16 hw.mcsMap)

def amlTdlsAddSetupCfmIes (K : Kernel) (hw : TdlsHw) (ap : ApSta) (req : Request) (skb : Skb) : Skb :=
  match hw.amlGetSta req.peer with
  | none => skb
  | some sta =>
    let skb := if sta.qos then amlAddWmmParamIe skb ap.acm ap.acParam else skb
    let sband := hw.sband ap.band
    let skb :=
      if sband.htCap.htSupported ∧ ¬ ap.ht ∧ sta.ht then
        let (pos, skb) := skb.put (2 + 22)
        amlIeBuildHtOper K ap sband.htCap skb pos
      else skb
    let skb := amlTdlsAddLinkIe hw ap req skb
    let skb :=
      if sband.vhtCap.vhtSupported ∧ ¬ ap.vht ∧ sta.vht then
        let (pos, skb) := skb.put (2 + 5)
        amlIeBuildVhtOper K hw ap skb pos
      else skb
    addExtra req.extraIes skb

/-! ### The call -/

def amlTdlsAddIes (K : Kernel) (hw : TdlsHw) (ap : ApSta) (req : Request) (skb : Skb) : Skb :=
  match req.actionCode with
  | 0 | 1 | 14 => if req.statusCode = 0 then amlTdlsAddSetupStartIes K hw ap req skb else skb
  | 2 => if req.statusCode = 0 then amlTdlsAddSetupCfmIes K hw ap req skb else skb
  | 3 | 10 =>
    let skb := addExtra req.extraIes skb
    if req.statusCode = 0 ∨ req.actionCode = wlanTdlsTeardown then amlTdlsAddLinkIe hw ap req skb else skb
  | _ => skb

/-- What became of the socket buffer. -/
inductive SkbEvent
  | freed         -- `dev_kfree_skb`
  | startXmit     -- `aml_start_xmit` owns it now
  deriving DecidableEq

/-- What the rest of the system answers: the allocation, and the two transmissions. -/
structure Env where
  alloc : Bool
  startXmit : Int
  startMgmtXmit : Int

/-- What `aml_tdls_send_mgmt_packet_data` did; `mgmt` is the buffer `aml_start_mgmt_xmit` copied. -/
structure Outcome where
  ret : Int
  skb : Option Skb := none
  events : List SkbEvent := []
  mgmt : Option (List (Option Byte)) := none

/-- The length passed to `netdev_alloc_skb`, before it becomes an `unsigned int`. -/
def skbSize (hw : TdlsHw) (req : Request) : ℕ :=
  22 + 10 + 6 + (2 + hw.band2GHz.nChannels + hw.band5GHz.nChannels) + 10 + 26 + 4 + 28 + 3 + 20 + (2 + 12) + 4 +
    (2 + 22) + req.extraIes.length

/-- The fixed fields of a frame. -/
def amlTdlsPrepare (hw : TdlsHw) (ap : ApSta) (req : Request) (skb : Skb) : Except Int Skb :=
  match req.actionCode with
  | 0 | 1 | 2 | 3 | 10 => amlTdlsPrepareEncapData hw ap req skb
  | 14 => amlPrepTdlsDirect hw ap req skb
  | _ => .error eNotSupp

def amlTdlsSendMgmtPacketData (K : Kernel) (hw : TdlsHw) (ap : ApSta) (req : Request) (env : Env) : Outcome :=
  if ¬ env.alloc then { ret := 0 }
  else
    let skb : Skb := { size := skbSize hw req % 2 ^ 32 }
    match amlTdlsPrepare hw ap req skb with
    | .error ret => { ret, skb := some skb, events := [.freed] }
    | .ok skb =>
      let skb := amlTdlsAddIes K hw ap req skb
      if req.actionCode = wlanPubActionTdlsDiscoverRes then
        { ret := env.startMgmtXmit, skb := some skb, mgmt := some skb.data }
      else { ret := env.startXmit, skb := some skb, events := [.startXmit] }

end W2l.Tdls
