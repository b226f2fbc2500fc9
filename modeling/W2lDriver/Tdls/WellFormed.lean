/-
**TDLS frames are well formed.**

* `fixedFields`, `calledIes`, `frameIes` — the fixed fields of a frame, the elements its action calls for, and the
  elements it carries: the extra ones come last in a setup and first in a teardown or a discovery request, and a
  frame that calls for nothing carries none.
* `Right` — the promise at its widest; `Sound` — what the code is made to do.
-/

import W2lDriver.Tdls.Elements

namespace W2l.Tdls

open Lib (Byte overwrite overwrite_part be16 Element PartElement partBytes partBytes_append
  partBytes_singleton partBytes_toPart partElements partElements_bytes elementsBytes)
open List (append_assoc append_nil length_append length_map map_append mem_append mem_cons mem_map
  mem_singleton not_mem_nil replicate)

/-! ### What a frame holds -/

section Frame

variable (K : Kernel) (hw : TdlsHw) (ap : ApSta) (req : Request)

/-- Ethernet header, payload type, category and action. -/
def encapHead : List Byte := req.peer.1 ++ hw.permAddr.1 ++ be16 0x890D ++ [2, 12, req.actionCode]

def directHead : List Byte :=
  le16 0x00D0 ++ [0, 0] ++ req.peer.1 ++ hw.permAddr.1 ++ ap.macAddr.1 ++ [0, 0]

def fixedFields : Option (List Byte) :=
  let capab := le16 (amlGetTdlsStaCapab ap req.statusCode)
  match req.actionCode with
  | 0 => some (encapHead hw req ++ req.dialogToken :: capab)
  | 1 => some (encapHead hw req ++ (le16 req.statusCode ++ req.dialogToken :: capab))
  | 2 => some (encapHead hw req ++ (le16 req.statusCode ++ [req.dialogToken]))
  | 3 => some (encapHead hw req ++ le16 req.statusCode)
  | 10 => some (encapHead hw req ++ [req.dialogToken])
  | 14 => some (directHead hw ap req ++ ([4, 14, req.dialogToken] ++ capab))
  | _ => none

def calledIes (high : Option Byte) : List PartElement :=
  match req.actionCode with
  | 0 | 1 | 14 =>
    if req.statusCode = 0 then
      [suppRatesIe, extSuppRatesIe] ++ [suppChannelsIe K hw] ++ startRest K hw ap req high
    else []
  | 2 =>
    if req.statusCode = 0 then
      match hw.amlGetSta req.peer with
      | none => []
      | some sta => cfmIes K hw ap req sta
    else []
  | 3 | 10 =>
    if req.statusCode = 0 ∨ req.actionCode = wlanTdlsTeardown then [linkIe hw ap req] else []
  | _ => []

def frameIes (extra : List PartElement) (high : Option Byte) : List PartElement :=
  if req.actionCode = wlanTdlsTeardown ∨ req.actionCode = wlanTdlsDiscoveryRequest then
    extra ++ calledIes K hw ap req high
  else if (calledIes K hw ap req high).isEmpty then []
  else calledIes K hw ap req high ++ extra

/-- A frame with the elements of `aml_tdls_add_setup_start_ies`. -/
def Starts (req : Request) : Prop :=
  (req.actionCode = wlanTdlsSetupRequest ∨ req.actionCode = wlanTdlsSetupResponse ∨
    req.actionCode = wlanPubActionTdlsDiscoverRes) ∧ req.statusCode = 0

def TdlsHw.Channels (hw : TdlsHw) : Prop := hw.band2GHz.channels ≠ [] ∧ hw.band5GHz.channels ≠ []

/-- The promise at its widest: nothing is put beyond the allocation, all of it is written, the called elements are
followed by the extra ones, and the buffer is handed over or freed once. -/
structure Right (extra : List Element) (out : Outcome) : Prop where
  fits : ∀ skb ∈ out.skb, skb.data.length ≤ skb.size
  listed : ∀ skb ∈ out.skb, ∀ fixed ∈ fixedFields hw ap req, ∃ high,
    partElements (skb.data.drop fixed.length) = some (calledIes K hw ap req high ++ extra.map Element.toPart)
  written : ∀ skb ∈ out.skb, ∀ b ∈ skb.data, b.isSome = true
  once : ∀ skb ∈ out.skb, out.events.length = 1

/-- What the code is made to do. Open are the second byte of an AID, the supported channels of a band without
channels, and the buffer of a discovery response. -/
structure Sound (extra : List Element) (out : Outcome) : Prop where
  fits : ∀ skb ∈ out.skb, skb.data.length ≤ skb.size
  fixed : ∀ skb ∈ out.skb, ∀ fixed ∈ fixedFields hw ap req, skb.data.take fixed.length = fixed.map some
  listed : (Starts req → hw.Channels) → ∀ skb ∈ out.skb, ∀ fixed ∈ fixedFields hw ap req, ∃ high,
    partElements (skb.data.drop fixed.length) = some (frameIes K hw ap req (extra.map Element.toPart) high)
  written : (Starts req → hw.Channels ∧ (hw.sband ap.band).vhtCap.vhtSupported = false) →
    ∀ skb ∈ out.skb, ∀ b ∈ skb.data, b.isSome = true
  once : req.actionCode ≠ wlanPubActionTdlsDiscoverRes → ∀ skb ∈ out.skb, out.events.length = 1

end Frame

/-! ### The fixed fields -/

section Fixed

variable {K : Kernel} {hw : TdlsHw} {ap : ApSta} {req : Request} {skb : Skb}

theorem encapHead_length : (encapHead hw req).length = 17 := by
  unfold encapHead
  rw [length_append, length_append, length_append, req.peer.2, hw.permAddr.2]
  rfl

theorem directHead_length : (directHead hw ap req).length = 24 := by
  unfold directHead
  simp only [length_append, req.peer.2, hw.permAddr.2, ap.macAddr.2]
  rfl

theorem app_tail {head bytes : List Byte} {n size : ℕ} (here : head.length = n) (length : bytes.length = size) :
    ((skb.app (head.map some)).app (replicate size none)).write (skb.data.length + n) bytes =
      skb.app ((head ++ bytes).map some) := by
  rw [Skb.app_app, Skb.app_write]
  have split : head.map some ++ replicate size none =
      head.map some ++ (replicate size (none : Option Byte) ++ []) := by rw [append_nil]
  rw [overwrite_part split here.symm (List.length_replicate.trans length.symm), append_nil]

theorem encapHead_eq : overwrite (overwrite (overwrite (overwrite (replicate 17 none) 0 req.peer.1) 6
    hw.permAddr.1) 12 (be16 0x890D)) 14 [2, 12, req.actionCode] = (encapHead hw req).map some := by
  have size (a : Field 6) : (replicate 6 (none : Option Byte)).length = a.1.length :=
    List.length_replicate.trans a.2.symm
  have first : replicate 17 (none : Option Byte) = ([] : List Byte).map some ++ (replicate 6 none ++
      (replicate 6 none ++ (replicate 2 none ++ (replicate 3 none ++ [])))) := rfl
  have start : 0 = ([] : List Byte).length := rfl
  have second : 6 = ([] ++ req.peer.1).length := req.peer.2.symm
  have third : 12 = ([] ++ req.peer.1 ++ hw.permAddr.1).length := by
    rw [length_append, ← second, hw.permAddr.2]
  have fourth : 14 = ([] ++ req.peer.1 ++ hw.permAddr.1 ++ be16 0x890D).length := by
    rw [length_append, ← third]
    rfl
  rw [overwrite_part first start (size _), overwrite_part rfl second (size _), overwrite_part rfl third rfl,
    overwrite_part rfl fourth rfl, append_nil]
  rfl

theorem directHead_eq : overwrite (overwrite (overwrite (overwrite (overwrite (replicate 24 none) 0
    (replicate 24 0)) 4 req.peer.1) 10 hw.permAddr.1) 16 ap.macAddr.1) 0 (le16 0x00D0) =
    (directHead hw ap req).map some := by
  have size (a : Field 6) : (replicate 6 (some 0 : Option Byte)).length = a.1.length :=
    List.length_replicate.trans a.2.symm
  have first : overwrite (replicate 24 (none : Option Byte)) 0 (replicate 24 0) =
      [0, 0, 0, 0].map some ++ (replicate 6 (some 0) ++ (replicate 6 (some 0) ++
        (replicate 6 (some 0) ++ [some 0, some 0]))) := rfl
  have start : 4 = ([0, 0, 0, 0] : List Byte).length := rfl
  have second : 10 = ([0, 0, 0, 0] ++ req.peer.1).length := by
    rw [length_append, req.peer.2]
    rfl
  have third : 16 = ([0, 0, 0, 0] ++ req.peer.1 ++ hw.permAddr.1).length := by
    rw [length_append, ← second, hw.permAddr.2]
  rw [overwrite_part first start (size _), overwrite_part rfl second (size _), overwrite_part rfl third (size _)]
  unfold directHead
  rw [map_append, map_append, map_append, append_assoc, append_assoc, append_assoc]
  simp only [map_append, append_assoc]
  rfl

theorem amlTdlsPrepare_eq : amlTdlsPrepare hw ap req skb =
    match fixedFields hw ap req with
    | some fixed => .ok (skb.app (fixed.map some))
    | none => .error eNotSupp := by
  unfold amlTdlsPrepare amlTdlsPrepareEncapData amlPrepTdlsDirect fixedFields
  simp only [Skb.put_eq, Skb.app_write_start, Skb.app_write, encapHead_eq, directHead_eq]
  split <;> simp only [*]
  · exact congrArg Except.ok (app_tail encapHead_length rfl)
  · exact congrArg Except.ok (app_tail encapHead_length rfl)
  · exact congrArg Except.ok (app_tail encapHead_length rfl)
  · exact congrArg Except.ok (app_tail encapHead_length rfl)
  · exact congrArg Except.ok (app_tail encapHead_length rfl)
  · exact congrArg Except.ok (app_tail directHead_length rfl)

theorem fixedFields_length {fixed : List Byte} (known : fixedFields hw ap req = some fixed) : fixed.length ≤ 29 := by
  have encap (bytes : List Byte) (short : bytes.length ≤ 5) : (encapHead hw req ++ bytes).length ≤ 29 := by
    rw [length_append, encapHead_length]
    omega
  have direct (bytes : List Byte) (short : bytes.length ≤ 5) : (directHead hw ap req ++ bytes).length ≤ 29 := by
    rw [length_append, directHead_length]
    omega
  unfold fixedFields at known
  dsimp only at known
  split at known
  case h_6 => exact Option.some.inj known ▸ direct _ (by simp [le16])
  case h_7 => exact absurd known nofun
  all_goals exact Option.some.inj known ▸ encap _ (by simp [le16])

end Fixed

/-! ### The elements -/

section Carried

variable {K : Kernel} {hw : TdlsHw} {ap : ApSta} {req : Request} {skb : Skb} {high : Option Byte}
variable {e : PartElement} {extra : List Element}

/-- What `aml_tdls_add_ies` puts. -/
def frameBytes (K : Kernel) (hw : TdlsHw) (ap : ApSta) (req : Request) : List (Option Byte) :=
  match req.actionCode with
  | 0 | 1 | 14 => if req.statusCode = 0 then startBytes K hw ap req else []
  | 2 =>
    if req.statusCode = 0 then
      match hw.amlGetSta req.peer with
      | none => []
      | some sta => partBytes (cfmIes K hw ap req sta) ++ req.extraIes.map some
    else []
  | 3 | 10 =>
    req.extraIes.map some ++
      partBytes (if req.statusCode = 0 ∨ req.actionCode = wlanTdlsTeardown then [linkIe hw ap req] else [])
  | _ => []

theorem startIes_eq (room : skb.data.length + 16 ≤ skb.size) :
    (if req.statusCode = 0 then amlTdlsAddSetupStartIes K hw ap req skb else skb) =
      skb.app (if req.statusCode = 0 then startBytes K hw ap req else []) := by
  split
  · exact setupStart_eq room
  · exact Skb.app_nil.symm

theorem linkIes_eq (c : Prop) [Decidable c] :
    (if c then amlTdlsAddLinkIe hw ap req (addExtra req.extraIes skb) else addExtra req.extraIes skb) =
      skb.app (req.extraIes.map some ++ partBytes (if c then [linkIe hw ap req] else [])) := by
  rw [addExtra_eq, amlTdlsAddLinkIe_eq, ite_app, Skb.app_app]

theorem amlTdlsAddIes_eq (room : skb.data.length + 16 ≤ skb.size) :
    amlTdlsAddIes K hw ap req skb = skb.app (frameBytes K hw ap req) := by
  unfold amlTdlsAddIes frameBytes
  split <;> try simp only [*]
  · exact startIes_eq room
  · exact startIes_eq room
  · exact startIes_eq room
  · split
    · rw [setupCfm_eq]
      cases hw.amlGetSta req.peer with
      | none => exact Skb.app_nil.symm
      | some sta => rfl
    · exact Skb.app_nil.symm
  · exact linkIes_eq _
  · exact linkIes_eq _
  · exact Skb.app_nil.symm

def Plain (e : PartElement) : Prop := ∃ id data, data.length < 256 ∧ e = ie id data

theorem plain_ie {id : Byte} {data : List Byte} {n : ℕ} (length : (ie id data).data.length = n) (short : n < 256) :
    Plain (ie id data) := by
  refine ⟨id, data, ?_, rfl⟩
  rw [← length] at short
  exact (length_map ..).symm.trans_lt short

theorem field_length {n : ℕ} (field : Field n) : field.1.length = n := field.2

theorem Plain.short (plain : Plain e) : e.data.length < 256 := by
  obtain ⟨id, data, short, rfl⟩ := plain
  exact (length_map ..).trans_lt short

theorem Plain.written (plain : Plain e) : ∀ b ∈ e.bytes, b.isSome = true := by
  obtain ⟨id, data, -, rfl⟩ := plain
  rw [← partBytes_singleton, partBytes_ie rfl]
  intro b inside
  obtain ⟨byte, -, rfl⟩ := mem_map.mp inside
  rfl

theorem mem_ite {c : Prop} [Decidable c] {es : List PartElement} (inside : e ∈ if c then es else []) : c ∧ e ∈ es := by
  split at inside
  · exact ⟨‹c›, inside⟩
  · exact absurd inside not_mem_nil

theorem linkIe_length : (linkIe hw ap req).data.length = 18 := by
  unfold linkIe ie
  rw [length_map, length_append, length_append, field_length, field_length, field_length]

theorem htCapIe_length (htCap : HtCap) : (htCapIe htCap).data.length = 26 := by
  unfold htCapIe ie
  rw [length_map, length_append, length_append, length_append, field_length]
  rfl

theorem vhtCapIe_length (vhtCap : VhtCap) : (vhtCapIe vhtCap).data.length = 12 := by
  unfold vhtCapIe ie
  rw [length_map, length_append, field_length]
  rfl

theorem htOperIe_length (htCap : HtCap) : (htOperIe K ap htCap).data.length = 22 := by
  unfold htOperIe ie
  rw [length_map, length_append, length_append, List.length_take, field_length]
  rfl

theorem vhtOperIe_length : (vhtOperIe K hw ap).data.length = 5 := by
  unfold vhtOperIe vhtSegments
  cases ap.width <;> rfl

theorem plain_linkIe : Plain (linkIe hw ap req) := plain_ie linkIe_length (by decide)

theorem plain_suppChannelsIe : Plain (suppChannelsIe K hw) := by
  have two (band : SupportedBand) : (subband K band).length ≤ 2 := by
    unfold subband
    cases band.channels
    · exact Nat.zero_le 2
    · exact le_rfl
  refine ⟨_, _, ?_, rfl⟩
  have first := two hw.band2GHz
  have second := two hw.band5GHz
  rw [length_append]
  omega

theorem plain_of_mem_startRest (inside : e ∈ startRest K hw ap req high) :
    Plain e ∨ (e = aidIe ap high ∧ (hw.sband ap.band).vhtCap.vhtSupported = true) := by
  unfold startRest at inside
  rw [mem_append, mem_append, mem_append, mem_append, mem_append, mem_append] at inside
  rcases inside with (((((ext | wmm) | oper) | ht) | coex) | link) | vht
  · obtain rfl := mem_singleton.mp ext
    exact .inl (plain_ie (n := 5) rfl (by decide))
  · obtain rfl := mem_singleton.mp (mem_ite wmm).2
    exact .inl (plain_ie (n := 7) rfl (by decide))
  · obtain ⟨opClass, -, rfl⟩ := mem_map.mp oper
    exact .inl (plain_ie (n := 2) rfl (by decide))
  · obtain rfl := mem_singleton.mp (mem_ite ht).2
    exact .inl (plain_ie (htCapIe_length _) (by decide))
  · obtain rfl := mem_singleton.mp (mem_ite coex).2
    exact .inl (plain_ie (n := 1) rfl (by decide))
  · obtain rfl := mem_singleton.mp link
    exact .inl plain_linkIe
  · obtain ⟨supported, here⟩ := mem_ite vht
    rcases mem_cons.mp here with aid | cap
    · exact .inr ⟨aid, supported⟩
    · obtain rfl := mem_singleton.mp cap
      exact .inl (plain_ie (vhtCapIe_length _) (by decide))

theorem plain_of_mem_cfmIes {sta : PeerSta} (inside : e ∈ cfmIes K hw ap req sta) : Plain e := by
  unfold cfmIes at inside
  rw [mem_append, mem_append, mem_append] at inside
  rcases inside with ((wmm | ht) | link) | vht
  · obtain rfl := mem_singleton.mp (mem_ite wmm).2
    exact plain_ie (n := 24) rfl (by decide)
  · obtain rfl := mem_singleton.mp (mem_ite ht).2
    exact plain_ie (htOperIe_length _) (by decide)
  · obtain rfl := mem_singleton.mp link
    exact plain_linkIe
  · obtain rfl := mem_singleton.mp (mem_ite vht).2
    exact plain_ie vhtOperIe_length (by decide)

theorem plain_or_aid (inside : e ∈ calledIes K hw ap req high) :
    Plain e ∨ (e = aidIe ap high ∧ Starts req ∧ (hw.sband ap.band).vhtCap.vhtSupported = true) := by
  have start (code : req.actionCode = wlanTdlsSetupRequest ∨ req.actionCode = wlanTdlsSetupResponse ∨
      req.actionCode = wlanPubActionTdlsDiscoverRes)
      (inside : e ∈ if req.statusCode = 0 then
        [suppRatesIe, extSuppRatesIe] ++ [suppChannelsIe K hw] ++ startRest K hw ap req high else []) :
      Plain e ∨ (e = aidIe ap high ∧ Starts req ∧ (hw.sband ap.band).vhtCap.vhtSupported = true) := by
    obtain ⟨zero, here⟩ := mem_ite inside
    rw [mem_append, mem_append] at here
    rcases here with (rates | channels) | rest
    · rcases mem_cons.mp rates with rfl | ext
      · exact .inl (plain_ie (n := 8) rfl (by decide))
      · obtain rfl := mem_singleton.mp ext
        exact .inl (plain_ie (n := 4) rfl (by decide))
    · obtain rfl := mem_singleton.mp channels
      exact .inl plain_suppChannelsIe
    · exact (plain_of_mem_startRest rest).imp_right fun aid => ⟨aid.1, ⟨code, zero⟩, aid.2⟩
  have link {c : Prop} [Decidable c] (inside : e ∈ if c then [linkIe hw ap req] else []) : Plain e := by
    obtain rfl := mem_singleton.mp (mem_ite inside).2
    exact plain_linkIe
  unfold calledIes at inside
  split at inside
  case h_1 code => exact start (.inl code) inside
  case h_2 code => exact start (.inr (.inl code)) inside
  case h_3 code => exact start (.inr (.inr code)) inside
  case h_4 =>
    obtain ⟨-, here⟩ := mem_ite inside
    split at here
    · exact absurd here not_mem_nil
    · exact .inl (plain_of_mem_cfmIes here)
  case h_5 => exact .inl (link inside)
  case h_6 => exact .inl (link inside)
  case h_7 => exact absurd inside not_mem_nil

theorem cfmIes_ne_nil (sta : PeerSta) : cfmIes K hw ap req sta ≠ [] := by
  have link : linkIe hw ap req ∈ cfmIes K hw ap req sta :=
    List.mem_append_left _ (List.mem_append_right _ (List.mem_singleton_self _))
  exact List.ne_nil_of_mem link

theorem mem_frameIes {extra : List PartElement} (inside : e ∈ frameIes K hw ap req extra high) :
    e ∈ calledIes K hw ap req high ∨ e ∈ extra := by
  unfold frameIes at inside
  split at inside
  · exact (mem_append.mp inside).symm
  · split at inside
    · exact absurd inside not_mem_nil
    · exact mem_append.mp inside

theorem behind_ite {c : Prop} [Decidable c] {bytes : List (Option Byte)} {ies extra : List PartElement}
    (some : ies ≠ []) (same : c → bytes = partBytes (ies ++ extra)) :
    (if c then bytes else []) = partBytes (if (if c then ies else []).isEmpty then []
      else (if c then ies else []) ++ extra) := by
  by_cases here : c
  · rw [if_pos here, if_pos here, same here, List.isEmpty_eq_false_iff.mpr some, if_neg Bool.false_ne_true]
  · rw [if_neg here, if_neg here]
    rfl

theorem frameBytes_eq (list : req.extraIes = elementsBytes extra) (channels : Starts req → hw.Channels) :
    frameBytes K hw ap req = partBytes (frameIes K hw ap req (extra.map Element.toPart) none) := by
  have bytes : req.extraIes.map some = partBytes (extra.map Element.toPart) := by rw [list, partBytes_toPart]
  have start (code : req.actionCode = wlanTdlsSetupRequest ∨ req.actionCode = wlanTdlsSetupResponse ∨
      req.actionCode = wlanPubActionTdlsDiscoverRes) (zero : req.statusCode = 0) :
      startBytes K hw ap req = partBytes ([suppRatesIe, extSuppRatesIe] ++ [suppChannelsIe K hw] ++
        startRest K hw ap req none ++ extra.map Element.toPart) := by
    obtain ⟨some2GHz, some5GHz⟩ := channels ⟨code, zero⟩
    unfold startBytes
    rw [suppChannelsBytes_eq some2GHz some5GHz, bytes, ← partBytes_append, ← partBytes_append, ← partBytes_append]
  have setup (code : req.actionCode = wlanTdlsSetupRequest ∨ req.actionCode = wlanTdlsSetupResponse ∨
      req.actionCode = wlanPubActionTdlsDiscoverRes) := behind_ite (List.cons_ne_nil _ _) (start code)
  unfold frameBytes frameIes calledIes
  split
  case h_1 code =>
    simp only [code]
    exact setup (.inl code)
  case h_2 code =>
    simp only [code]
    exact setup (.inr (.inl code))
  case h_3 code =>
    simp only [code]
    exact setup (.inr (.inr code))
  case h_4 code =>
    simp only [code]
    have other : ¬ (2#8 = wlanTdlsTeardown ∨ 2#8 = wlanTdlsDiscoveryRequest) := by decide
    rw [if_neg other]
    cases hw.amlGetSta req.peer with
    | none =>
      dsimp only
      rw [ite_self, ite_self]
      rfl
    | some sta =>
      refine behind_ite (cfmIes_ne_nil sta) fun _ => ?_
      rw [partBytes_append, bytes]
  case h_5 code =>
    simp only [code]
    have first : 3#8 = wlanTdlsTeardown ∨ 3#8 = wlanTdlsDiscoveryRequest := .inl rfl
    rw [if_pos first, partBytes_append, bytes]
  case h_6 code =>
    simp only [code]
    have first : 10#8 = wlanTdlsTeardown ∨ 10#8 = wlanTdlsDiscoveryRequest := .inr rfl
    rw [if_pos first, partBytes_append, bytes]
  case h_7 request response discover confirm teardown discovery =>
    rw [if_neg fun code => code.elim teardown discovery]
    rfl

/-! ### How long a frame is -/

theorem length_ite (c : Prop) [Decidable c] (es : List PartElement) :
    (partBytes (if c then es else [])).length ≤ (partBytes es).length := by
  split
  · exact le_rfl
  · exact Nat.zero_le _

theorem length_one (e : PartElement) : (partBytes [e]).length = e.data.length + 2 := by
  rw [partBytes_singleton]
  rfl

theorem length_startRest : (partBytes (startRest K hw ap req none)).length ≤ 89 := by
  have oper : (partBytes (operClassIes K ap)).length ≤ 4 := by
    unfold operClassIes
    cases K.chandefToOperatingClass ap.band ap.centerFreq ap.width ap.centerFreq1 ap.centerFreq2 with
    | none => exact Nat.zero_le 4
    | some opClass => exact le_rfl
  have aid (vhtCap : VhtCap) : (partBytes [aidIe ap none, vhtCapIe vhtCap]).length = 18 := by
    have split : partBytes [aidIe ap none, vhtCapIe vhtCap] =
      partBytes [aidIe ap none] ++ partBytes [vhtCapIe vhtCap] := @partBytes_append [aidIe ap none] [vhtCapIe vhtCap]
    rw [split, length_append, length_one (vhtCapIe vhtCap), vhtCapIe_length]
    rfl
  have ext : (partBytes [extCapabIe hw]).length = 7 := rfl
  have info : (partBytes [wmmInfoIe]).length = 9 := rfl
  have coexist : (partBytes [bssCoexIe]).length = 3 := rfl
  have wmm := length_ite (req.actionCode ≠ wlanPubActionTdlsDiscoverRes) [wmmInfoIe]
  have ht := length_ite ((req.actionCode = wlanTdlsSetupRequest ∨ req.actionCode = wlanTdlsSetupResponse ∨
    req.actionCode = wlanPubActionTdlsDiscoverRes) ∧ (hw.sband ap.band).htCap.htSupported = true)
    [htCapIe (hw.sband ap.band).htCap]
  have coex := length_ite ((hw.sband ap.band).htCap.htSupported = true ∧
    (hw.sband ap.band).htCap.cap &&& htCapSupWidth2040 ≠ 0) [bssCoexIe]
  have vht := length_ite ((hw.sband ap.band).vhtCap.vhtSupported = true)
    [aidIe ap none, vhtCapIe (hw.sband ap.band).vhtCap]
  rw [length_one, htCapIe_length] at ht
  rw [aid] at vht
  unfold startRest
  rw [partBytes_append, partBytes_append, partBytes_append, partBytes_append, partBytes_append, partBytes_append,
    length_append, length_append, length_append, length_append, length_append,
    length_append, length_one (linkIe hw ap req), linkIe_length]
  omega

theorem length_cfmIes (sta : PeerSta) : (partBytes (cfmIes K hw ap req sta)).length ≤ 77 := by
  have wmm := length_ite (sta.qos = true) [wmmParamIe ap]
  have ht := length_ite ((hw.sband ap.band).htCap.htSupported = true ∧ ¬ ap.ht = true ∧ sta.ht = true)
    [htOperIe K ap (hw.sband ap.band).htCap]
  have vht := length_ite ((hw.sband ap.band).vhtCap.vhtSupported = true ∧ ¬ ap.vht = true ∧ sta.vht = true)
    [vhtOperIe K hw ap]
  have param : (partBytes [wmmParamIe ap]).length = 26 := rfl
  rw [length_one, htOperIe_length] at ht
  rw [length_one, vhtOperIe_length] at vht
  unfold cfmIes
  rw [partBytes_append, partBytes_append, partBytes_append, length_append, length_append,
    length_append, length_one (linkIe hw ap req), linkIe_length]
  omega

theorem length_suppChannelsBytes : (suppChannelsBytes K hw).length = 6 := by
  unfold suppChannelsBytes subbandBytes
  cases hw.band2GHz.channels <;> cases hw.band5GHz.channels <;> rfl

theorem length_frameBytes : (frameBytes K hw ap req).length ≤ 111 + req.extraIes.length := by
  have start : (if req.statusCode = 0 then startBytes K hw ap req else []).length ≤ 111 + req.extraIes.length := by
    split
    · have rates : (partBytes [suppRatesIe, extSuppRatesIe]).length = 16 := rfl
      have rest : (partBytes (startRest K hw ap req none)).length ≤ 89 := length_startRest
      unfold startBytes
      rw [length_append, length_append, length_append, length_map, length_suppChannelsBytes, rates]
      omega
    · exact Nat.zero_le _
  have link (c : Prop) [Decidable c] : (req.extraIes.map some ++
      partBytes (if c then [linkIe hw ap req] else [])).length ≤ 111 + req.extraIes.length := by
    have one := length_ite c [linkIe hw ap req]
    rw [length_one, linkIe_length] at one
    rw [length_append, length_map]
    omega
  unfold frameBytes
  split
  · exact start
  · exact start
  · exact start
  · split
    · split
      · exact Nat.zero_le _
      · rename_i sta there
        have cfm : (partBytes (cfmIes K hw ap req sta)).length ≤ 77 := length_cfmIes sta
        rw [length_append, length_map]
        omega
    · exact Nat.zero_le _
  · exact link _
  · exact link _
  · exact Nat.zero_le _

end Carried

/-! ### The call -/

section Call

variable {K : Kernel} {hw : TdlsHw} {ap : ApSta} {req : Request} {env : Env} {extra : List Element}

theorem send_unknown (alloc : env.alloc = true) (unknown : fixedFields hw ap req = none) :
    amlTdlsSendMgmtPacketData K hw ap req env =
      { ret := eNotSupp, skb := some { size := skbSize hw req % 2 ^ 32 }, events := [.freed] } := by
  unfold amlTdlsSendMgmtPacketData
  rw [if_neg (not_not.mpr alloc)]
  dsimp only
  rw [amlTdlsPrepare_eq, unknown]

theorem send_known {fixed : List Byte} (alloc : env.alloc = true) (known : fixedFields hw ap req = some fixed)
    (room : skbSize hw req < 2 ^ 32) : ∃ out, amlTdlsSendMgmtPacketData K hw ap req env = out ∧
      out.skb = some { size := skbSize hw req, data := fixed.map some ++ frameBytes K hw ap req } ∧
      (req.actionCode ≠ wlanPubActionTdlsDiscoverRes → out.events.length = 1) := by
  have fits : (Skb.app { size := skbSize hw req % 2 ^ 32 } (fixed.map some)).data.length + 16 ≤
      (Skb.app { size := skbSize hw req % 2 ^ 32 } (fixed.map some)).size := by
    have short := fixedFields_length known
    rw [Skb.app_length, length_map]
    show 0 + fixed.length + 16 ≤ skbSize hw req % 2 ^ 32
    rw [Nat.mod_eq_of_lt room]
    unfold skbSize
    omega
  refine ⟨_, rfl, ?_⟩
  unfold amlTdlsSendMgmtPacketData
  rw [if_neg (not_not.mpr alloc)]
  dsimp only
  rw [amlTdlsPrepare_eq, known]
  dsimp only
  rw [amlTdlsAddIes_eq fits, Skb.app_app, Nat.mod_eq_of_lt room]
  split
  · exact ⟨rfl, fun other => absurd ‹_› other⟩
  · exact ⟨rfl, fun _ => rfl⟩

/-- **Every frame is sound**, as long as its size fits the `unsigned int` of the allocation. -/
theorem tdls_sound (list : req.extraIes = elementsBytes extra) (room : skbSize hw req < 2 ^ 32) :
    Sound K hw ap req extra (amlTdlsSendMgmtPacketData K hw ap req env) := by
  cases alloc : env.alloc with
  | false =>
    have none : amlTdlsSendMgmtPacketData K hw ap req env = { ret := 0 } := by
      unfold amlTdlsSendMgmtPacketData
      rw [alloc]
      rfl
    rw [none]
    exact ⟨nofun, nofun, fun _ => nofun, fun _ => nofun, fun _ => nofun⟩
  | true =>
    cases known : fixedFields hw ap req with
    | none =>
      rw [send_unknown alloc known]
      refine ⟨fun skb here => ?_, fun _ _ fixed here => ?_, fun _ _ _ fixed here => ?_, fun _ skb here => ?_,
        fun _ _ _ => rfl⟩
      · obtain rfl := Option.some.inj here
        exact Nat.zero_le _
      · exact absurd (known.symm.trans here) nofun
      · exact absurd (known.symm.trans here) nofun
      · obtain rfl := Option.some.inj here
        exact fun _ inside => absurd inside not_mem_nil
    | some fixed =>
      obtain ⟨out, sent, put, once⟩ := send_known (K := K) alloc known room
      rw [sent]
      refine ⟨fun skb here => ?_, fun skb here fixed' fields => ?_, fun channels skb here fixed' fields => ?_,
        fun all skb here => ?_, fun other _ _ => once other⟩
      · obtain rfl := Option.some.inj (put.symm.trans here)
        have short := fixedFields_length known
        have rest : (frameBytes K hw ap req).length ≤ 111 + req.extraIes.length := length_frameBytes
        show (fixed.map some ++ frameBytes K hw ap req).length ≤ skbSize hw req
        unfold skbSize
        rw [length_append, length_map]
        omega
      · obtain rfl := Option.some.inj (put.symm.trans here)
        obtain rfl := Option.some.inj (known.symm.trans fields)
        exact List.take_left' (length_map ..)
      · obtain rfl := Option.some.inj (put.symm.trans here)
        obtain rfl := Option.some.inj (known.symm.trans fields)
        refine ⟨none, ?_⟩
        show partElements ((fixed.map some ++ frameBytes K hw ap req).drop fixed.length) = _
        rw [List.drop_left' (length_map ..), frameBytes_eq list channels]
        refine partElements_bytes fun e inside => ?_
        rcases mem_frameIes inside with called | more
        · rcases plain_or_aid called with plain | ⟨rfl, -⟩
          · exact plain.short
          · exact (show 2 < 256 by decide)
        · obtain ⟨element, -, rfl⟩ := mem_map.mp more
          exact (length_map ..).trans_lt element.short
      · obtain rfl := Option.some.inj (put.symm.trans here)
        intro b inside
        rcases mem_append.mp inside with first | rest
        · obtain ⟨byte, -, rfl⟩ := mem_map.mp first
          rfl
        · rw [frameBytes_eq list fun starts => (all starts).1] at rest
          obtain ⟨e, carried, byte⟩ := List.mem_flatMap.mp rest
          rcases mem_frameIes carried with called | more
          · rcases plain_or_aid called with plain | ⟨-, starts, vht⟩
            · exact plain.written b byte
            · exact absurd ((all starts).2.symm.trans vht) Bool.false_ne_true
          · obtain ⟨element, -, rfl⟩ := mem_map.mp more
            have plain : Plain element.toPart := ⟨element.id, element.data, element.short, rfl⟩
            exact plain.written b byte

end Call

/-! ### A request and a teardown with a vendor element -/

/-- cfg80211 on 2.4 GHz with 20 MHz. -/
def kernel2GHz : Kernel where
  frequencyToChannel freq := (freq - 2407) / 5
  chandefToOperatingClass _ freq width _ _ :=
    if 2412 ≤ freq ∧ freq ≤ 2472 ∧ width = .width20 then some 81 else none

def plainBand (channels : List ℕ) : SupportedBand where
  channels
  htCap := { htSupported := true, cap := 0x2C, ampduFactor := 3, ampduDensity := 5, mcs := ⟨List.replicate 16 0, rfl⟩ }
  vhtCap := { vhtSupported := false, cap := 0, vhtMcs := ⟨List.replicate 8 0, rfl⟩ }

def plainHw : TdlsHw where
  permAddr := ⟨[2, 0, 0, 0, 0, 1], rfl⟩
  band2GHz := plainBand [2412, 2417]
  band5GHz := plainBand [5180]
  chanSwitch := false
  mcsMap := 0xFFFA
  amlGetSta _ := none

def plainAp : ApSta where
  macAddr := ⟨[2, 0, 0, 0, 0, 2], rfl⟩
  aid := 1
  band := .band2GHz
  width := .width20
  centerFreq := 2412
  centerFreq1 := 2412
  centerFreq2 := 0
  acm := 0
  acParam _ := 0
  ht := true
  vht := false

def vendorIe : Element := ⟨wlanEidVendorSpecific, [0x00, 0x50, 0xf2], by decide⟩

def vendorRequest (actionCode : Byte) : Request where
  peer := ⟨[2, 0, 0, 0, 0, 3], rfl⟩
  actionCode
  dialogToken := 1
  statusCode := 0
  initiator := true
  extraIes := elementsBytes [vendorIe]

abbrev bothSent : Env := { alloc := true, startXmit := 0, startMgmtXmit := 0 }

/-- A setup request. -/
theorem tdls_sound_request : Sound kernel2GHz plainHw plainAp (vendorRequest wlanTdlsSetupRequest) [vendorIe]
    (amlTdlsSendMgmtPacketData kernel2GHz plainHw plainAp (vendorRequest wlanTdlsSetupRequest) bothSent) :=
  tdls_sound rfl (by decide)

/-- **A teardown puts the extra element in front of the link identifier.** -/
theorem teardown_order : ¬ ∀ (K : Kernel) (hw : TdlsHw) (ap : ApSta) (req : Request) (env : Env)
    (extra : List Element), req.extraIes = elementsBytes extra → skbSize hw req < 2 ^ 32 →
      Right K hw ap req extra (amlTdlsSendMgmtPacketData K hw ap req env) := by
  intro right
  have all := right kernel2GHz plainHw plainAp (vendorRequest wlanTdlsTeardown) bothSent [vendorIe] rfl (by decide)
  obtain ⟨high, same⟩ := all.listed _ rfl _ rfl
  have called : calledIes kernel2GHz plainHw plainAp (vendorRequest wlanTdlsTeardown) high =
      [linkIe plainHw plainAp (vendorRequest wlanTdlsTeardown)] := rfl
  rw [called] at same
  exact absurd same (by decide)

end W2l.Tdls
