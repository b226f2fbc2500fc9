/-
**What the builders of TDLS frames put.**

* `Skb.app` — bytes at the end; `Skb.app_write` — a write into what was reserved last.
* `…Ie` — the elements of a frame; the second byte of the AID is left open.
* `amlAdd…_eq`, `amlTdlsAdd…_eq`, `amlIeBuild…_eq` — **each builder appends its element**, the supported channels
  when both bands have a channel.
-/

import W2lDriver.Tdls.Frame

namespace W2l.Tdls

open Lib (Byte overwrite overwrite_append overwrite_part PartElement partBytes partBytes_append
  partBytes_singleton)
open List (append_assoc append_nil cons_append length_append length_replicate map_cons replicate)

/-! ### The end of a buffer -/

namespace Skb

def app (skb : Skb) (bytes : List (Option Byte)) : Skb := { skb with data := skb.data ++ bytes }

variable {skb : Skb} {region more : List (Option Byte)}

theorem put_eq (skb : Skb) (n : ℕ) : skb.put n = (skb.data.length, skb.app (replicate n none)) := rfl

theorem app_nil : skb.app [] = skb := by
  unfold app
  rw [append_nil]

theorem app_app : (skb.app region).app more = skb.app (region ++ more) := by
  unfold app
  rw [append_assoc]

theorem app_write (pos : ℕ) (bytes : List Byte) :
    (skb.app region).write (skb.data.length + pos) bytes = skb.app (overwrite region pos bytes) := by
  unfold write app
  rw [overwrite_append]

theorem app_write_start (bytes : List Byte) :
    (skb.app region).write skb.data.length bytes = skb.app (overwrite region 0 bytes) := app_write 0 bytes

theorem app_length : (skb.app region).data.length = skb.data.length + region.length := length_append

end Skb

/-! ### The elements -/

def ie (id : Byte) (data : List Byte) : PartElement := ⟨id, data.map some⟩

theorem partBytes_ie {id : Byte} {data : List Byte} {n : ℕ} (length : data.length = n) :
    partBytes [ie id data] = (id :: BitVec.ofNat 8 n :: data).map some := by
  rw [partBytes_singleton]
  unfold PartElement.bytes ie
  dsimp only
  rw [List.length_map, length, map_cons, map_cons]

section Elements

variable (K : Kernel) (hw : TdlsHw) (ap : ApSta) (req : Request)

def suppRatesIe : PartElement := ie wlanEidSuppRates ((amlRatetable.take 8).map rateByte)

def extSuppRatesIe : PartElement := ie wlanEidExtSuppRates ((amlRatetable.drop 8).map rateByte)

/-- The first channel of a band and the number of its channels. -/
def subband (band : SupportedBand) : List Byte :=
  match band.channels with
  | [] => []
  | first :: _ => [BitVec.ofNat 8 (K.frequencyToChannel first), BitVec.ofNat 8 band.nChannels]

def suppChannelsIe : PartElement := ie wlanEidSupportedChannels (subband K hw.band2GHz ++ subband K hw.band5GHz)

def extCapabIe : PartElement :=
  ie wlanEidExtCapability [0, 0, 0, 0x10 ||| (if hw.chanSwitch then 0x40 else 0), 0x20]

def wmmInfoIe : PartElement := ie wlanEidVendorSpecific [0x00, 0x50, 0xf2, 2, 0, 1, 0]

def operClassIes : List PartElement :=
  (K.chandefToOperatingClass ap.band ap.centerFreq ap.width ap.centerFreq1 ap.centerFreq2).toList.map fun opClass =>
    ie wlanEidSupportedRegulatoryClasses [opClass, opClass]

def htCapIe (htCap : HtCap) : PartElement :=
  ie wlanEidHtCapability (le16 htCap.cap ++ [htCap.ampduFactor ||| (htCap.ampduDensity <<< 2)] ++ htCap.mcs.1 ++
    List.replicate 7 0)

def vhtCapIe (vhtCap : VhtCap) : PartElement := ie wlanEidVhtCapability (le32 vhtCap.cap ++ vhtCap.vhtMcs.1)

def bssCoexIe : PartElement := ie wlanEidBssCoex2040 [1]

def linkIe : PartElement :=
  ie wlanEidLinkId (ap.macAddr.1 ++ (if req.initiator then hw.permAddr else req.peer).1 ++
    (if req.initiator then req.peer else hw.permAddr).1)

/-- The AID with `high` for its second byte. -/
def aidIe (high : Option Byte) : PartElement := ⟨wlanEidAid, [some (ap.aid.setWidth 8), high]⟩

def wmmParamIe : PartElement :=
  ie wlanEidVendorSpecific ([0x00, 0x50, 0xf2, 2, 1, 1, 0, 0] ++
    (List.finRange 4).flatMap (acRecord ap.acm ap.acParam))

def htOperIe (htCap : HtCap) : PartElement :=
  ie wlanEidHtOperation ([BitVec.ofNat 8 (K.frequencyToChannel ap.centerFreq), htParam ap htCap, 0, 0, 0, 0] ++
    htCap.mcs.1.take 10 ++ List.replicate 6 0)

def vhtOperIe : PartElement := ie wlanEidVhtOperation (vhtSegments K ap ++ le16 hw.mcsMap)

end Elements

/-! ### The builders -/

section Builders

variable {K : Kernel} {hw : TdlsHw} {ap : ApSta} {req : Request} {skb : Skb}

theorem amlAddSratesIe_eq (room : 10 ≤ skb.tailroom) : amlAddSratesIe skb = skb.app (partBytes [suppRatesIe]) := by
  unfold amlAddSratesIe
  rw [if_neg (Nat.not_lt.mpr room)]
  simp only [Skb.put_eq, Skb.app_write_start]
  rfl

theorem amlAddExtSratesIe_eq (room : 6 ≤ skb.tailroom) :
    amlAddExtSratesIe skb = skb.app (partBytes [extSuppRatesIe]) := by
  have enough : ¬ skb.tailroom < amlRatetable.length - 8 + 2 := Nat.not_lt.mpr room
  unfold amlAddExtSratesIe
  dsimp only
  rw [if_neg enough]
  simp only [Skb.put_eq, Skb.app_write_start]
  rfl

theorem amlTdlsAddExtCapab_eq : amlTdlsAddExtCapab hw skb = skb.app (partBytes [extCapabIe hw]) := by
  unfold amlTdlsAddExtCapab
  simp only [Skb.put_eq, Skb.app_write_start]
  rfl

theorem amlAddWmmInfoIe_eq : amlAddWmmInfoIe skb 0 = skb.app (partBytes [wmmInfoIe]) := by
  unfold amlAddWmmInfoIe
  simp only [Skb.put_eq, Skb.app_write_start]
  rfl

theorem amlTdlsAddOperClasses_eq : amlTdlsAddOperClasses K ap skb = skb.app (partBytes (operClassIes K ap)) := by
  unfold amlTdlsAddOperClasses operClassIes
  cases K.chandefToOperatingClass ap.band ap.centerFreq ap.width ap.centerFreq1 ap.centerFreq2 with
  | none => exact Skb.app_nil.symm
  | some opClass =>
    simp only [Skb.put_eq, Skb.app_write_start]
    rfl

theorem amlIeBuildHtCap_eq (htCap : HtCap) : amlIeBuildHtCap skb htCap = skb.app (partBytes [htCapIe htCap]) := by
  unfold amlIeBuildHtCap htCapIe
  simp only [Skb.put_eq, Skb.app_write_start, Skb.app_write]
  congr 1
  -- zeros first, then the fields in front
  have done : ∀ ampdu : Byte, overwrite (overwrite (overwrite (overwrite (replicate 28 none) 0
      [wlanEidHtCapability, 26]) 2 (replicate 26 0)) 2 (le16 htCap.cap)) 4 [ampdu] =
      (wlanEidHtCapability :: 26 :: (le16 htCap.cap ++ [ampdu])).map some ++
        (replicate 16 (some 0) ++ replicate 7 (some 0)) := fun _ => rfl
  refine Eq.trans (overwrite_part (done _) rfl (length_replicate.trans htCap.mcs.2.symm)) ?_
  rw [partBytes_ie]
  · rw [cons_append, cons_append, ← List.map_replicate, ← List.map_append, cons_append, cons_append]
    rfl
  · simp only [length_append, htCap.mcs.2]
    rfl

theorem amlIeBuildVhtCap_eq (vhtCap : VhtCap) :
    amlIeBuildVhtCap skb vhtCap = skb.app (partBytes [vhtCapIe vhtCap]) := by
  unfold amlIeBuildVhtCap vhtCapIe
  simp only [Skb.put_eq, Skb.app_write_start, Skb.app_write]
  congr 1
  have done : overwrite (overwrite (overwrite (replicate 14 none) 0 [wlanEidVhtCapability, 12]) 2
      (replicate 12 0)) 2 (le32 vhtCap.cap) =
      (wlanEidVhtCapability :: 12 :: le32 vhtCap.cap).map some ++ (replicate 8 (some 0) ++ []) := rfl
  refine Eq.trans (overwrite_part done rfl (length_replicate.trans vhtCap.vhtMcs.2.symm)) ?_
  rw [partBytes_ie, append_nil]
  · rfl
  · simp only [length_append, vhtCap.vhtMcs.2]
    rfl

theorem amlTdlsAddLinkIe_eq : amlTdlsAddLinkIe hw ap req skb = skb.app (partBytes [linkIe hw ap req]) := by
  unfold amlTdlsAddLinkIe linkIe
  simp only [Skb.put_eq, Skb.app_write_start, Skb.app_write]
  congr 1
  generalize (if req.initiator = true then hw.permAddr else req.peer) = init
  generalize (if req.initiator = true then req.peer else hw.permAddr) = rsp
  have size (a : Field 6) : (replicate 6 (none : Option Byte)).length = a.1.length :=
    length_replicate.trans a.2.symm
  have header : overwrite (replicate 20 none) 0 [wlanEidLinkId, 18] = [wlanEidLinkId, 18].map some ++
      (replicate 6 none ++ (replicate 6 none ++ (replicate 6 none ++ []))) := rfl
  have first : 8 = ([wlanEidLinkId, 18] ++ ap.macAddr.1).length := by
    rw [length_append, ap.macAddr.2]
    rfl
  have second : 14 = ([wlanEidLinkId, 18] ++ ap.macAddr.1 ++ init.1).length := by
    rw [length_append, init.2, ← first]
  have bssid : 2 = [wlanEidLinkId, 18].length := rfl
  rw [overwrite_part header bssid (size _), overwrite_part rfl first (size _), overwrite_part rfl second (size _),
    partBytes_ie, append_nil, append_assoc, append_assoc, ← append_assoc ap.macAddr.1]
  · rfl
  · rw [length_append, length_append, ap.macAddr.2, init.2, rsp.2]

theorem amlTdlsAddBssCoexIe_eq : amlTdlsAddBssCoexIe skb = skb.app (partBytes [bssCoexIe]) := by
  unfold amlTdlsAddBssCoexIe
  simp only [Skb.put_eq, Skb.app_write_start]
  rfl

theorem amlTdlsAddAidIe_eq : amlTdlsAddAidIe ap skb = skb.app (partBytes [aidIe ap none]) := by
  unfold amlTdlsAddAidIe
  simp only [Skb.put_eq, Skb.app_write_start]
  rfl

/-- What `aml_tdls_add_supp_channels` leaves for a band. -/
def subbandBytes (K : Kernel) (band : SupportedBand) : List (Option Byte) :=
  match band.channels with
  | [] => [none, none]
  | first :: _ => [some (BitVec.ofNat 8 (K.frequencyToChannel first)), some (BitVec.ofNat 8 band.nChannels)]

/-- What it puts. -/
def suppChannelsBytes (K : Kernel) (hw : TdlsHw) : List (Option Byte) :=
  some wlanEidSupportedChannels ::
    some (BitVec.ofNat 8 ((subband K hw.band2GHz).length + (subband K hw.band5GHz).length)) ::
    (subbandBytes K hw.band2GHz ++ subbandBytes K hw.band5GHz)

theorem addSubband_eq (K : Kernel) (skb : Skb) (band : SupportedBand) : ∃ cnt,
    addSubband K band skb = (skb.app (subbandBytes K band), cnt) ∧ 2 * cnt = (subband K band).length := by
  unfold addSubband subbandBytes subband
  cases band.channels with
  | nil => exact ⟨0, rfl, rfl⟩
  | cons first rest =>
    refine ⟨1, ?_, rfl⟩
    simp only [Skb.put_eq, Skb.app_write_start]
    rfl

theorem amlTdlsAddSuppChannels_eq : amlTdlsAddSuppChannels K hw skb = skb.app (suppChannelsBytes K hw) := by
  unfold amlTdlsAddSuppChannels suppChannelsBytes
  simp only [Skb.put_eq, Skb.app_write_start]
  obtain ⟨cnt2GHz, added2GHz, twice2GHz⟩ := addSubband_eq K
    (skb.app (overwrite (replicate 2 none) 0 [wlanEidSupportedChannels])) hw.band2GHz
  rw [added2GHz, Skb.app_app]
  obtain ⟨cnt5GHz, added5GHz, twice5GHz⟩ := addSubband_eq K (skb.app
    (overwrite (replicate 2 none) 0 [wlanEidSupportedChannels] ++ subbandBytes K hw.band2GHz)) hw.band5GHz
  rw [added5GHz]
  simp only [Skb.app_app, Skb.app_write, Nat.mul_add, twice2GHz, twice5GHz]
  rw [append_assoc]
  rfl

theorem suppChannelsBytes_eq (some2GHz : hw.band2GHz.channels ≠ []) (some5GHz : hw.band5GHz.channels ≠ []) :
    suppChannelsBytes K hw = partBytes [suppChannelsIe K hw] := by
  obtain ⟨first2GHz, rest2GHz, there2GHz⟩ := List.exists_cons_of_ne_nil some2GHz
  obtain ⟨first5GHz, rest5GHz, there5GHz⟩ := List.exists_cons_of_ne_nil some5GHz
  unfold suppChannelsBytes suppChannelsIe subbandBytes subband
  rw [there2GHz, there5GHz]
  rfl

theorem addExtra_eq (extra : List Byte) : addExtra extra skb = skb.app (extra.map some) := by
  unfold addExtra
  split
  case isTrue empty =>
    rw [List.length_eq_zero_iff.mp empty]
    exact Skb.app_nil.symm
  case isFalse there =>
    simp only [Skb.put_eq, Skb.app_write_start]
    have all : replicate extra.length (none : Option Byte) =
        ([] : List Byte).map some ++ (replicate extra.length none ++ []) := (append_nil _).symm
    have none : 0 = ([] : List Byte).length := rfl
    rw [overwrite_part all none length_replicate, append_nil]
    rfl

theorem amlAddWmmParamIe_eq : amlAddWmmParamIe skb ap.acm ap.acParam = skb.app (partBytes [wmmParamIe ap]) := by
  unfold amlAddWmmParamIe
  simp only [Skb.put_eq, Skb.app_write_start, Skb.app_write, List.finRange, List.ofFn, Fin.foldr, Fin.foldr.loop,
    List.foldl]
  rfl

theorem amlIeBuildHtOper_eq (htCap : HtCap) : amlIeBuildHtOper K ap htCap (skb.put (2 + 22)).2 (skb.put (2 + 22)).1 =
      skb.app (partBytes [htOperIe K ap htCap]) := by
  unfold amlIeBuildHtOper htOperIe
  simp only [Skb.put_eq, Skb.app_write_start, Skb.app_write]
  congr 1
  generalize htParam ap htCap = param
  have done (chan : Byte) : overwrite (overwrite (overwrite (overwrite (replicate 24 none) 0
      [wlanEidHtOperation, 22, chan, param]) 4 (le16 0)) 6 (le16 0)) 8 (replicate 16 0) =
      [wlanEidHtOperation, 22, chan, param, 0, 0, 0, 0].map some ++
        (replicate 10 (some 0) ++ replicate 6 (some 0)) := rfl
  have ten : (htCap.mcs.1.take 10).length = 10 := by
    rw [List.length_take, htCap.mcs.2]
    rfl
  refine Eq.trans (overwrite_part (done _) rfl (length_replicate.trans ten.symm)) ?_
  rw [partBytes_ie]
  · rw [← List.map_replicate, ← List.map_append]
    rfl
  · simp only [length_append, ten]
    rfl

theorem amlIeBuildVhtOper_eq :
    amlIeBuildVhtOper K hw ap (skb.put (2 + 5)).2 (skb.put (2 + 5)).1 = skb.app (partBytes [vhtOperIe K hw ap]) := by
  unfold amlIeBuildVhtOper vhtOperIe vhtSegments
  simp only [Skb.put_eq, Skb.app_write_start]
  cases ap.width <;> rfl

end Builders

/-! ### The lists -/

section Lists

variable {K : Kernel} {hw : TdlsHw} {ap : ApSta} {req : Request} {skb : Skb}

theorem ite_app (c : Prop) [Decidable c] (es : List PartElement) :
    (if c then skb.app (partBytes es) else skb) = skb.app (partBytes (if c then es else [])) := by
  split
  · rfl
  · exact Skb.app_nil.symm

/-- The elements behind the supported channels. -/
def startRest (K : Kernel) (hw : TdlsHw) (ap : ApSta) (req : Request) (high : Option Byte) : List PartElement :=
  [extCapabIe hw] ++ (if req.actionCode ≠ wlanPubActionTdlsDiscoverRes then [wmmInfoIe] else []) ++
    operClassIes K ap ++
    (if (req.actionCode = wlanTdlsSetupRequest ∨ req.actionCode = wlanTdlsSetupResponse ∨
        req.actionCode = wlanPubActionTdlsDiscoverRes) ∧ (hw.sband ap.band).htCap.htSupported = true then
      [htCapIe (hw.sband ap.band).htCap] else []) ++
    (if (hw.sband ap.band).htCap.htSupported = true ∧
        (hw.sband ap.band).htCap.cap &&& htCapSupWidth2040 ≠ 0 then [bssCoexIe] else []) ++
    [linkIe hw ap req] ++
    (if (hw.sband ap.band).vhtCap.vhtSupported = true then
      [aidIe ap high, vhtCapIe (hw.sband ap.band).vhtCap] else [])

/-- What `aml_tdls_add_setup_start_ies` puts. -/
def startBytes (K : Kernel) (hw : TdlsHw) (ap : ApSta) (req : Request) : List (Option Byte) :=
  partBytes [suppRatesIe, extSuppRatesIe] ++ suppChannelsBytes K hw ++ partBytes (startRest K hw ap req none) ++
    req.extraIes.map some

theorem setupStart_eq (room : skb.data.length + 16 ≤ skb.size) :
    amlTdlsAddSetupStartIes K hw ap req skb = skb.app (startBytes K hw ap req) := by
  have first : 10 ≤ skb.tailroom := by
    unfold Skb.tailroom
    omega
  have second : 6 ≤ (skb.app (partBytes [suppRatesIe])).tailroom := by
    unfold Skb.tailroom
    rw [Skb.app_length]
    show 6 ≤ skb.size - (skb.data.length + 10)
    omega
  unfold amlTdlsAddSetupStartIes startBytes startRest
  dsimp only
  rw [amlAddSratesIe_eq first, amlAddExtSratesIe_eq second]
  have vht (skb : Skb) (vhtCap : VhtCap) : amlIeBuildVhtCap (amlTdlsAddAidIe ap skb) vhtCap =
      skb.app (partBytes [aidIe ap none, vhtCapIe vhtCap]) := by
    rw [amlTdlsAddAidIe_eq, amlIeBuildVhtCap_eq, Skb.app_app, ← partBytes_append]
    rfl
  simp only [amlTdlsAddSuppChannels_eq, amlTdlsAddExtCapab_eq, amlAddWmmInfoIe_eq, amlTdlsAddOperClasses_eq,
    amlIeBuildHtCap_eq, amlTdlsAddBssCoexIe_eq, amlTdlsAddLinkIe_eq, vht, addExtra_eq, ite_app]
  simp only [Skb.app_app, partBytes_append, append_assoc]
  rw [← append_assoc, ← partBytes_append]
  rfl

/-- The elements of a confirmation to a known peer. -/
def cfmIes (K : Kernel) (hw : TdlsHw) (ap : ApSta) (req : Request) (sta : PeerSta) : List PartElement :=
  (if sta.qos = true then [wmmParamIe ap] else []) ++
    (if (hw.sband ap.band).htCap.htSupported = true ∧ ¬ ap.ht = true ∧ sta.ht = true then
      [htOperIe K ap (hw.sband ap.band).htCap] else []) ++
    [linkIe hw ap req] ++
    (if (hw.sband ap.band).vhtCap.vhtSupported = true ∧ ¬ ap.vht = true ∧ sta.vht = true then
      [vhtOperIe K hw ap] else [])

theorem setupCfm_eq : amlTdlsAddSetupCfmIes K hw ap req skb = match hw.amlGetSta req.peer with
    | none => skb
    | some sta => skb.app (partBytes (cfmIes K hw ap req sta) ++ req.extraIes.map some) := by
  unfold amlTdlsAddSetupCfmIes cfmIes
  cases hw.amlGetSta req.peer with
  | none => rfl
  | some sta =>
    simp only [amlAddWmmParamIe_eq, amlIeBuildHtOper_eq, amlTdlsAddLinkIe_eq, amlIeBuildVhtOper_eq, addExtra_eq, ite_app]
    simp only [Skb.app_app, partBytes_append, append_assoc]

end Lists

end W2l.Tdls
