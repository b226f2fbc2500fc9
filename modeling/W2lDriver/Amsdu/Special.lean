/-
**Special frames and A-MSDUs: `aml_filter_sp_data_frame` and what `aml_start_xmit` does with them.**

EAPOL and DHCP frames are sent with `TXU_CNTRL_SP_FRAME` and TID `0xff`. The flag keeps an A-MSDU from
being started with the frame, or continued behind it; nothing asks whether the new frame is special.

* `filterSpDataFrame` — the classification, on the bytes of the buffer.
* `SpTxq`, `spSystem` — the queue, the buffers that were classified, and the TIDs of descriptors.
* `Joins` — when a new buffer becomes a subframe; `SpecialNotJoined` — no special one does.
* `SpecialAlone`, `special_alone` — **then special frames are queued on their own in every run**.
-/

import W2lDriver.Amsdu.RoundTrip

namespace W2l.Amsdu

open Cmd (BusType)
open Lib (Byte System ofBe16)
open Option (map_eq_some_iff some.inj)
open List (mem_append mem_cons mem_filter mem_singleton)

/-! ### The classification -/

/-- `ETH_P_PAE`, `ETH_P_ARP`, `ETH_P_IPV6`, `ETH_P_IP`, `IPPROTO_UDP`. -/
def ethPPae : BitVec 16 := 0x888e
def ethPArp : BitVec 16 := 0x806
def ethPIpv6 : BitVec 16 := 0x86dd
def ethPIp : BitVec 16 := 0x800
def ipprotoUdp : Byte := 17

/-- `DHCP_SP_V4`, `DHCP_CP_V4`, `DHCP_SP_V6`, `DHCP_CP_V6`. -/
def dhcpSpV4 : BitVec 16 := 0x43
def dhcpCpV4 : BitVec 16 := 0x44
def dhcpSpV6 : BitVec 16 := 0x223
def dhcpCpV6 : BitVec 16 := 0x222

/-- `udphdr->source` behind an IP header of some length. -/
def udpSource (skb : Skb) (iphdrlen : Nat) : BitVec 16 :=
  ofBe16 (skb.mem (skb.data + 14 + iphdrlen)) (skb.mem (skb.data + 14 + iphdrlen + 1))

def filterSpDataFrame (skb : Skb) : Bool :=
  let hProto := skb.hProto skb.data
  if hProto = ethPPae then true
  else if hProto = ethPArp then false
  else if hProto = ethPIpv6 then
    -- `nexthdr` of the IPv6 header
    if skb.mem (skb.data + 14 + 6) ≠ ipprotoUdp then false
    else udpSource skb 40 = dhcpSpV6 || udpSource skb 40 = dhcpCpV6
  else if hProto = ethPIp then
    -- `protocol` and `ihl` of the IPv4 header
    if skb.mem (skb.data + 14 + 9) ≠ ipprotoUdp then false
    else
      let iphdrlen := (skb.mem (skb.data + 14) &&& 0xf).toNat * 4
      udpSource skb iphdrlen = dhcpSpV4 || udpSource skb iphdrlen = dhcpCpV4
  else false

/-! ### The queue with its descriptors -/

/-- The queue, the buffers that were classified as special, and `desc.host.tid`. -/
structure SpTxq where
  txq : Txq
  special : List Nat := []
  tid : Nat → Nat := fun _ => 0

inductive SpAct
  /-- `aml_start_xmit`: the memory, the headroom, the frame, its TID, and what succeeds. -/
  | startXmit (mem : Nat → Byte) (headroom : Nat) (f : EthFrame) (tid : Nat) (a2eInit alloc : Bool)
  /-- Any other step on the queue. -/
  | other (a : TxqAct)

namespace SpTxq

def newSkb (s : SpTxq) (mem : Nat → Byte) (headroom : Nat) (f : EthFrame) : Skb :=
  Skb.ofFrame s.txq.nextId mem (max headroom (txMaxHeadroom s.txq.busType)) f

/-- `aml_start_xmit`: a special frame gets its flag and its TID. -/
def startXmit (s : SpTxq) (mem : Nat → Byte) (headroom : Nat) (f : EthFrame) (tid : Nat)
    (a2eInit alloc : Bool) : SpTxq :=
  let spFrame := filterSpDataFrame (s.newSkb mem headroom f)
  { txq := s.txq.startXmit mem headroom f spFrame a2eInit alloc
    special := if spFrame then s.txq.nextId :: s.special else s.special
    tid := Function.update s.tid s.txq.nextId (if spFrame then 0xff else tid) }

/-- The descriptors after `aml_amsdu_dismantle`: a subframe gets a copy of the main one. -/
def copiedTid (s : SpTxq) (id : Nat) : Nat :=
  match s.txq.skList.find? fun b => b.hdrs.any fun h => h.skb.id == id with
  | some b => s.tid b.skb.id
  | none => s.tid id

def step (s : SpTxq) : SpAct → Option SpTxq
  | .startXmit mem headroom f tid a2eInit alloc => some (s.startXmit mem headroom f tid a2eInit alloc)
  | .other a =>
    match a with
    | .startXmit .. => none
    | .updateLen .. => (s.txq.step a).map fun q => { s with txq := q, tid := s.copiedTid }
    | .push .. | .confirm .. | .retry .. | .drop .. | .setAmsduMax .. =>
      (s.txq.step a).map fun q => { s with txq := q }

end SpTxq

def spSystem (bus : BusType) : System SpTxq SpAct where
  init := { txq := { busType := bus, sta := true } }
  step := SpTxq.step

/-! ### When a buffer is joined -/

/-- **The new buffer becomes a subframe**: of the A-MSDU in progress, or of one that starts with the last
buffer of the queue. -/
def Joins (s : Txq) (a2eInit : Bool) (skb : Skb) : Prop :=
  s.amsduLen ≠ 0 ∧ 2 ≤ s.adjustMaxnb.amsduMaxnb ∧ ¬ (s.busType = .pcie ∧ a2eInit = false) ∧
    ∃ b ∈ s.skList, b.txuSpFrame = false ∧ ((s.amsdu = some b.skb.id ∧
          b.len + b.pad + amsduSubframeLength (skb.hProto skb.data) skb.len ≤ s.amsduLen.toNat) ∨
        (s.amsdu = none ∧ s.skList.getLast?.map (fun c => c.skb.id) = some b.skb.id ∧ b.len = 0 ∧ b.txuRetry = false ∧
          let len1 := amsduSubframeLength (b.skb.hProto b.skb.macHeader) (b.frameLen + 14)
          len1 + amsduPadding len1 + amsduSubframeLength (skb.hProto skb.data) skb.len ≤ s.amsduLen.toNat))

instance (s : Txq) (a2eInit : Bool) (skb : Skb) : Decidable (Joins s a2eInit skb) :=
  inferInstanceAs (Decidable (_ ∧ _ ∧ _ ∧ ∃ b ∈ s.skList, _ ∧ (_ ∨ _)))

def SpecialNotJoined (s : SpTxq) : SpAct → Prop
  | .startXmit mem headroom f _ a2eInit _ =>
    filterSpDataFrame (s.newSkb mem headroom f) = true → ¬ Joins s.txq a2eInit (s.newSkb mem headroom f)
  | .other _ => True

instance (s : SpTxq) : (a : SpAct) → Decidable (SpecialNotJoined s a)
  | .startXmit mem headroom f _ a2eInit _ =>
    inferInstanceAs (Decidable (filterSpDataFrame (s.newSkb mem headroom f) = true →
      ¬ Joins s.txq a2eInit (s.newSkb mem headroom f)))
  | .other _ => .isTrue trivial

/-- **Special frames are on their own**, with their flag and their TID. -/
structure SpecialAlone (s : SpTxq) : Prop where
  notJoined : ∀ b ∈ s.txq.skList ++ s.txq.inFlight, ∀ h ∈ b.hdrs, h.skb.id ∉ s.special
  single : ∀ b ∈ s.txq.skList ++ s.txq.inFlight, b.skb.id ∈ s.special →
    b.hdrs = [] ∧ b.txuAmsdu = false ∧ b.txuSpFrame = true ∧ s.tid b.skb.id = 0xff

/-! ### One call of `aml_amsdu_add_subframe` -/

/-- An entry that has no special frame as a subframe, and none as its first frame unless it is alone. -/
structure Apart (special : List Nat) (b : Buffer) : Prop where
  notJoined : ∀ h ∈ b.hdrs, h.skb.id ∉ special
  single : b.skb.id ∈ special → b.hdrs = [] ∧ b.txuAmsdu = false ∧ b.txuSpFrame = true

section AddSubframe

variable {s s' : Txq} {b : Buffer} {skb skb' : Skb} {f : EthFrame} {a2eInit : Bool} {special : List Nat}

section

variable (apart : Apart special b)

include apart

theorem Apart.of_eq {c : Buffer} (id : c.skb.id = b.skb.id)
    (hdrs : c.hdrs = b.hdrs) (amsdu : c.txuAmsdu = b.txuAmsdu) (spFrame : c.txuSpFrame = b.txuSpFrame) :
    Apart special c := by
  refine ⟨?_, ?_⟩
  · rw [hdrs]
    exact apart.notJoined
  · rw [id, hdrs, amsdu, spFrame]
    exact apart.single

theorem Apart.of_nil {c : Buffer} (id : c.skb.id = b.skb.id)
    (hdrs : c.hdrs = []) (amsdu : c.txuAmsdu = false) (spFrame : c.txuSpFrame = b.txuSpFrame) :
    Apart special c := by
  refine ⟨?_, fun member => ⟨hdrs, amsdu, ?_⟩⟩
  · rw [hdrs]
    intro h none_
    cases none_
  · rw [id] at member
    rw [spFrame]
    exact (apart.single member).2.2

theorem Apart.joined {c : Buffer} {h : AmsduTxhdr} (id : c.skb.id = b.skb.id)
    (hdrs : c.hdrs = b.hdrs ++ [h] ∨ c.hdrs = [h]) (ordinary : b.txuSpFrame = false)
    (free : h.skb.id ∉ special) : Apart special c := by
  refine ⟨fun g member => ?_, fun member => ?_⟩
  · rcases hdrs with all | all
    · rw [all] at member
      rcases mem_append.mp member with earlier | last
      · exact apart.notJoined g earlier
      · rw [mem_singleton.mp last]
        exact free
    · rw [all] at member
      rw [mem_singleton.mp member]
      exact free
  · rw [id] at member
    have flag := (apart.single member).2.2
    rw [ordinary] at flag
    cases flag

end

theorem update_apart (apart : ∀ b ∈ s.skList, Apart special b) {c : Buffer} (changed : Apart special c) :
    ∀ b ∈ (s.update c).skList, Apart special b := by
  intro b member
  rcases TxqInv.mem_update member with rfl | ⟨old, -⟩
  · exact changed
  · exact apart b old

/-- What `aml_amsdu_add_subframe` leaves: the entries stay apart unless the new frame is joined and
special, and a buffer that goes on is the one that came. -/
structure Left (special : List Nat) (s : Txq) (skb : Skb) (joins : Prop) (out : Txq × Option Skb) : Prop where
  apart : (out.2 = none → skb.id ∉ special) → ∀ b ∈ out.1.skList, Apart special b
  inFlight : out.1.inFlight = s.inFlight
  nextId : out.1.nextId = s.nextId
  same : ∀ skb' ∈ out.2, skb'.id = skb.id
  joined : out.2 = none → joins

theorem Left.alone {joins : Prop} (apart : ∀ b ∈ s'.skList, Apart special b)
    (inFlight : s'.inFlight = s.inFlight) (nextId : s'.nextId = s.nextId) (same : skb'.id = skb.id) :
    Left special s skb joins (s', some skb') :=
  ⟨fun _ => apart, inFlight, nextId, fun _ back => some.inj back ▸ same, fun none_ => nomatch none_⟩

theorem mapped_of_ok {bus : BusType} {pad : Nat} {h : AmsduTxhdr}
    (added : amsduAddSubframeHeader bus a2eInit pad skb f = .ok h) : ¬ (bus = .pcie ∧ a2eInit = false) := by
  intro failed
  rw [amsduAddSubframeHeader_cases] at added
  rw [if_pos failed] at added
  split at added <;> cases added

theorem addToAmsdu_left (a2eInit : Bool) (skb : Skb) (f : EthFrame)
    (apart : ∀ b ∈ s.skList, Apart special b) (queued : b ∈ s.skList)
    (current : s.amsdu = some b.skb.id) :
    Left special s skb (¬ (s.busType = .pcie ∧ a2eInit = false) ∧ b.txuSpFrame = false ∧ s.amsdu = some b.skb.id ∧
        b.len + b.pad + amsduSubframeLength (skb.hProto skb.data) skb.len ≤ s.amsduLen.toNat)
      (s.addToAmsdu b a2eInit skb f) := by
  unfold Txq.addToAmsdu
  split
  case isTrue => exact .alone apart rfl rfl rfl
  case isFalse passed =>
    obtain ⟨ordinary, fits⟩ := not_or.mp passed
    split
    case h_1 skb'' failed => exact .alone apart rfl rfl (addSubframe_failed failed).id
    case h_2 h added =>
      have id : h.skb.id = skb.id := (addSubframe_del added).id
      have joined (free : skb.id ∉ special) : ∀ c ∈ (s.update (b.addHdr h s.amsduLen.toNat)).skList,
          Apart special c :=
        update_apart apart ((apart b queued).joined rfl (.inl rfl) (Bool.eq_false_iff.mpr ordinary) (id ▸ free))
      refine ⟨fun free => ?_, ?_, ?_, fun _ back => ?_, fun _ => ?_⟩
      · dsimp only
        split <;> exact joined (free rfl)
      · dsimp only
        split <;> rfl
      · dsimp only
        split <;> rfl
      · cases back
      · exact ⟨mapped_of_ok added, Bool.eq_false_iff.mpr ordinary, current, not_lt.mp fits⟩

theorem startAmsdu_left (a2eInit : Bool) (skb : Skb) (f : EthFrame)
    (apart : ∀ b ∈ s.skList, Apart special b) (queued : b ∈ s.skList) :
    Left special s skb (¬ (s.busType = .pcie ∧ a2eInit = false) ∧ b.txuSpFrame = false ∧
      b.len = 0 ∧ b.txuRetry = false ∧
        let len1 := amsduSubframeLength (b.skb.hProto b.skb.macHeader) (b.frameLen + 14)
        len1 + amsduPadding len1 + amsduSubframeLength (skb.hProto skb.data) skb.len ≤ s.amsduLen.toNat)
      (s.startAmsdu b a2eInit skb f) := by
  unfold Txq.startAmsdu
  dsimp only
  split
  case isTrue => exact .alone apart rfl rfl rfl
  case isFalse passed =>
    simp only [not_or, ne_eq, not_not, Bool.not_eq_true, not_lt] at passed
    obtain ⟨fresh, retry, ordinary, fits⟩ := passed
    split
    case h_1 skb'' failed =>
      refine .alone (update_apart apart ?_) rfl rfl (addSubframe_failed failed).id
      refine ⟨fun h none_ => (nomatch none_), fun member => ?_⟩
      have flag := ((apart b queued).single member).2.2
      rw [ordinary] at flag
      cases flag
    case h_2 h added =>
      have id : h.skb.id = skb.id := (addSubframe_del added).id
      generalize amsduSubframeLength (b.skb.hProto b.skb.macHeader) (b.frameLen + 14) = len1 at *
      have joined (free : skb.id ∉ special) :
          ∀ c ∈ (s.update { (b.start len1).addHdr h s.amsduLen.toNat with txuAmsdu := true }).skList,
            Apart special c :=
        update_apart apart ((apart b queued).joined rfl (.inr rfl) ordinary (id ▸ free))
      refine ⟨fun free => ?_, ?_, ?_, fun _ back => ?_, fun _ => ?_⟩
      · split <;> exact joined (free rfl)
      · split <;> rfl
      · split <;> rfl
      · cases back
      · exact ⟨mapped_of_ok added, ordinary, fresh, retry, fits⟩

theorem amsduAddSubframe_left (apart : ∀ b ∈ s.skList, Apart special b) :
    Left special s skb (Joins s a2eInit skb) (s.amsduAddSubframe a2eInit skb f) := by
  unfold Txq.amsduAddSubframe
  dsimp only
  split
  case isTrue => exact .alone apart rfl rfl rfl
  case isFalse allowed =>
    obtain ⟨some_, several⟩ := not_or.mp allowed
    split
    case h_1 i inProgress =>
      split
      case h_1 b found =>
        have id : b.skb.id = i := by simpa using List.find?_some found
        have queued : b ∈ s.skList := List.mem_of_find?_eq_some found
        have current : s.adjustMaxnb.amsdu = some b.skb.id := by rw [id]; exact inProgress
        obtain ⟨kept, flying, next, same, joined⟩ :=
          addToAmsdu_left (s := s.adjustMaxnb) a2eInit skb f apart queued current
        refine ⟨kept, flying, next, same, fun none_ => ?_⟩
        obtain ⟨mapped, ordinary, now, fits⟩ := joined none_
        exact ⟨some_, Int.not_lt.mp several, mapped, b, queued, ordinary, .inl ⟨now, fits⟩⟩
      case h_2 => exact .alone apart rfl rfl rfl
    case h_2 idle =>
      split
      case h_1 b last =>
        have queued : b ∈ s.skList := List.mem_of_getLast? last
        obtain ⟨kept, flying, next, same, joined⟩ :=
          startAmsdu_left (s := s.adjustMaxnb) a2eInit skb f apart queued
        refine ⟨kept, flying, next, same, fun none_ => ?_⟩
        obtain ⟨mapped, ordinary, fresh, retry, fits⟩ := joined none_
        refine ⟨some_, Int.not_lt.mp several, mapped, b, queued, ordinary, .inr ⟨idle, ?_, fresh, retry, fits⟩⟩
        exact congrArg (Option.map fun c : Buffer => c.skb.id) last
      case h_2 => exact .alone apart rfl rfl rfl

end AddSubframe

/-! ### Steps -/

/-- **The invariant of the queue with its descriptors.** -/
structure SpInv (s : SpTxq) : Prop where
  inv : TxqInv s.txq
  known : ∀ i ∈ s.special, i < s.txq.nextId ∧ s.tid i = 0xff
  apart : ∀ b ∈ s.txq.skList ++ s.txq.inFlight, Apart s.special b

section Steps

variable {special : List Nat}

section

variable {b : Buffer} (apart : Apart special b)

include apart

theorem Apart.more {id : Nat} (unseen : id ∉ b.ids) : Apart (id :: special) b := by
  refine ⟨fun h member seen => ?_, fun seen => ?_⟩
  · rcases mem_cons.mp seen with here | old
    · exact unseen (List.mem_cons_of_mem _ (List.mem_map.mpr ⟨h, member, here⟩))
    · exact apart.notJoined h member old
  · rcases mem_cons.mp seen with here | old
    · exact absurd (here ▸ List.mem_cons_self) unseen
    · exact apart.single old

theorem Apart.dismantle {bus : BusType} {c : Buffer} {allocated : Nat → Bool}
    (member : c ∈ b.dismantle bus allocated) : Apart special c := by
  rcases mem_cons.mp member with rfl | behind
  · exact apart.of_nil rfl rfl rfl rfl
  · obtain ⟨h, there, queued⟩ := List.mem_filterMap.mp behind
    have ids := Buffer.split_id queued
    obtain ⟨id, none_⟩ := List.cons.inj ids
    have hdrs : c.hdrs = [] := List.map_eq_nil_iff.mp none_
    refine ⟨?_, fun seen => ?_⟩
    · rw [hdrs]
      intro g none_
      cases none_
    · rw [id] at seen
      exact absurd seen (apart.notJoined h there)

theorem Apart.storeDesc (bus : BusType) (desc : List Byte) :
    Apart special ({ b with txuRetry := false }.storeDesc bus desc) := by
  cases bus <;> exact apart.of_eq rfl rfl rfl rfl

end

theorem txqStep_apart {q q' : Txq} {a : TxqAct} (stepped : q.step a = some q')
    (other : ∀ mem headroom f spFrame a2eInit alloc, a ≠ .startXmit mem headroom f spFrame a2eInit alloc)
    (apart : ∀ b ∈ q.skList ++ q.inFlight, Apart special b) :
    (∀ b ∈ q'.skList ++ q'.inFlight, Apart special b) ∧ q'.nextId = q.nextId := by
  have queued : ∀ b ∈ q.skList, Apart special b := fun b there => apart b (List.mem_append_left _ there)
  have flying : ∀ b ∈ q.inFlight, Apart special b := fun b there => apart b (List.mem_append_right _ there)
  have both {l m : List Buffer} (left : ∀ b ∈ l, Apart special b) (right : ∀ b ∈ m, Apart special b) :
      ∀ b ∈ l ++ m, Apart special b := fun b member =>
    (mem_append.mp member).elim (left b) (right b)
  cases a with
  | startXmit mem headroom f spFrame a2eInit alloc => exact absurd rfl (other _ _ _ _ _ _)
  | push desc =>
    obtain ⟨b, rest, list, -, rfl⟩ := Txq.txPush_some stepped
    rw [list] at queued
    refine ⟨both (fun c later => queued c (List.mem_cons_of_mem b later)) (both flying fun c sent => ?_), rfl⟩
    rw [mem_singleton.mp sent]
    exact (queued b List.mem_cons_self).storeDesc q.busType desc
  | confirm id =>
    obtain rfl := some.inj stepped
    exact ⟨both queued fun b still => flying b (mem_filter.mp still).1, rfl⟩
  | retry id =>
    obtain ⟨b, found, rfl⟩ := map_eq_some_iff.mp stepped
    have back := flying b (List.mem_of_find?_eq_some found)
    refine ⟨both (fun c member => ?_) fun c still => flying c (mem_filter.mp still).1, rfl⟩
    rcases mem_insertRetry member with old | rfl
    · exact queued c old
    · exact back.of_eq rfl rfl rfl rfl
  | drop id =>
    obtain ⟨b, -, rfl⟩ := map_eq_some_iff.mp stepped
    exact ⟨both (fun c still => queued c (mem_filter.mp still).1) flying, rfl⟩
  | updateLen amsduLen allocated =>
    obtain rfl := some.inj stepped
    unfold Txq.amsduUpdateLen
    split
    case isTrue => exact ⟨apart, rfl⟩
    case isFalse =>
      split
      case isTrue => exact ⟨apart, rfl⟩
      case isFalse =>
        refine ⟨both (both (fun c front => queued c (List.mem_of_mem_take front)) fun c member => ?_) flying, rfl⟩
        obtain ⟨b, there, inside⟩ := List.mem_flatMap.mp member
        have before := queued b (List.mem_of_mem_drop there)
        split at inside
        case isTrue => exact before.dismantle inside
        case isFalse =>
          rw [mem_singleton.mp inside]
          exact before
  | setAmsduMax amsduMax =>
    obtain rfl := some.inj stepped
    exact ⟨apart, rfl⟩

end Steps

namespace SpInv

variable {s s' : SpTxq}

/-- **A new frame.** -/
theorem startXmit (inv : SpInv s) {mem : Nat → Byte} {headroom : Nat} {f : EthFrame} {tid : Nat}
    {a2eInit alloc : Bool}
    (allowed : SpecialNotJoined s (.startXmit mem headroom f tid a2eInit alloc)) :
    SpInv (s.startXmit mem headroom f tid a2eInit alloc) := by
  have kept := inv.inv.startXmit mem headroom f (filterSpDataFrame (s.newSkb mem headroom f)) a2eInit alloc
  have unseen (b : Buffer) (there : b ∈ s.txq.skList ++ s.txq.inFlight) : s.txq.nextId ∉ b.ids := fun member =>
    Nat.lt_irrefl _ (inv.inv.known _ (List.mem_flatMap.mpr ⟨b, there, member⟩))
  have new : s.txq.nextId ∉ s.special := fun member => Nat.lt_irrefl _ (inv.known _ member).1
  have notJoined : filterSpDataFrame (s.newSkb mem headroom f) = true →
      ¬ Joins s.txq a2eInit (s.newSkb mem headroom f) := allowed
  have shape : s.startXmit mem headroom f tid a2eInit alloc =
      { txq := s.txq.startXmit mem headroom f (filterSpDataFrame (s.newSkb mem headroom f)) a2eInit alloc
        special := if filterSpDataFrame (s.newSkb mem headroom f) then s.txq.nextId :: s.special
          else s.special
        tid := Function.update s.tid s.txq.nextId
          (if filterSpDataFrame (s.newSkb mem headroom f) then 0xff else tid) } := rfl
  rw [shape]
  clear shape allowed
  generalize filterSpDataFrame (s.newSkb mem headroom f) = spFrame at *
  generalize specialEq : (if spFrame = true then s.txq.nextId :: s.special else s.special) = special
  have apart : ∀ b ∈ s.txq.skList ++ s.txq.inFlight, Apart special b := by
    intro b there
    rw [← specialEq]
    split
    · exact (inv.apart b there).more (unseen b there)
    · exact inv.apart b there
  have left : Left special { s.txq with nextId := s.txq.nextId + 1 } (s.newSkb mem headroom f)
      (Joins { s.txq with nextId := s.txq.nextId + 1 } a2eInit (s.newSkb mem headroom f))
      ({ s.txq with nextId := s.txq.nextId + 1 }.amsduAddSubframe a2eInit (s.newSkb mem headroom f) f) :=
    amsduAddSubframe_left fun b there => apart b (List.mem_append_left _ there)
  have free (joins : Joins s.txq a2eInit (s.newSkb mem headroom f)) : s.txq.nextId ∉ special := by
    have ordinary : spFrame = false := Bool.eq_false_iff.mpr fun sp => notJoined sp joins
    rw [← specialEq, ordinary]
    exact new
  have entries : (∀ b ∈ (s.txq.startXmit mem headroom f spFrame a2eInit alloc).skList ++
        (s.txq.startXmit mem headroom f spFrame a2eInit alloc).inFlight, Apart special b) ∧
      (s.txq.startXmit mem headroom f spFrame a2eInit alloc).nextId = s.txq.nextId + 1 := by
    have flying : ∀ b ∈ s.txq.inFlight, Apart special b := fun b there =>
      apart b (List.mem_append_right _ there)
    unfold Txq.startXmit
    dsimp only
    change Left special _ _ _ (Txq.amsduAddSubframe _ a2eInit (Skb.ofFrame _ mem _ f) f) at left
    split
    case h_1 q out =>
      rw [out] at left
      refine ⟨fun b member => ?_, left.nextId⟩
      rcases mem_append.mp member with queued | sent
      · exact left.apart (fun none_ => free (left.joined none_)) b queued
      · rw [left.inFlight] at sent
        exact flying b sent
    case h_2 q skb out =>
      rw [out] at left
      have id : skb.id = s.txq.nextId := left.same skb rfl
      have old (b : Buffer) (queued : b ∈ q.skList) : Apart special b :=
        left.apart (fun none_ => nomatch none_) b queued
      have sent (b : Buffer) (there : b ∈ q.inFlight) : Apart special b := by
        rw [left.inFlight] at there
        exact flying b there
      split
      case isFalse =>
        exact ⟨fun b member => (mem_append.mp member).elim (old b) (sent b), left.nextId⟩
      case isTrue =>
        refine ⟨fun b member => ?_, left.nextId⟩
        rcases mem_append.mp member with queued | there
        · rcases mem_append.mp queued with before | last
          · exact old b before
          · rw [mem_singleton.mp last]
            refine ⟨fun h none_ => (nomatch none_), fun seen => ⟨rfl, rfl, ?_⟩⟩
            change (pushTxhdr q.busType skb).id ∈ special at seen
            rw [pushTxhdr_id, id, ← specialEq] at seen
            by_contra ordinary
            rw [if_neg ordinary] at seen
            exact new seen
        · exact sent b there
  refine ⟨kept, fun i member => ?_, entries.1⟩
  show i < (s.txq.startXmit mem headroom f spFrame a2eInit alloc).nextId ∧
    Function.update s.tid s.txq.nextId (if spFrame then 0xff else tid) i = 0xff
  rw [entries.2]
  change i ∈ special at member
  rw [← specialEq] at member
  have before (old : i ∈ s.special) : i < s.txq.nextId + 1 ∧
      Function.update s.tid s.txq.nextId (if spFrame then 0xff else tid) i = 0xff := by
    obtain ⟨below, tidEq⟩ := inv.known i old
    refine ⟨Nat.lt_succ_of_lt below, ?_⟩
    rw [Function.update_of_ne (Nat.ne_of_lt below), tidEq]
  split at member
  case isTrue sp =>
    rcases mem_cons.mp member with rfl | old
    · refine ⟨Nat.lt_succ_self _, ?_⟩
      rw [Function.update_self, if_pos sp]
    · exact before old
  case isFalse => exact before member

theorem copiedTid (inv : SpInv s) {i : Nat} (member : i ∈ s.special) : s.copiedTid i = 0xff := by
  have none_ : (s.txq.skList.find? fun b => b.hdrs.any fun h => h.skb.id == i) = none := by
    refine List.find?_eq_none.mpr fun b queued found => ?_
    obtain ⟨h, there, same⟩ := List.any_eq_true.mp found
    refine (inv.apart b (List.mem_append_left _ queued)).notJoined h there ?_
    rw [beq_iff_eq.mp same]
    exact member
  unfold SpTxq.copiedTid
  rw [none_]
  exact (inv.known i member).2

theorem step_other {a : TxqAct} (stepped : s.step (.other a) = some s') : ∃ q, s.txq.step a = some q ∧
      (∀ mem headroom f spFrame a2eInit alloc, a ≠ .startXmit mem headroom f spFrame a2eInit alloc) ∧
      ∃ tid, s' = { s with txq := q, tid := tid } ∧ (tid = s.tid ∨ tid = s.copiedTid) := by
  have plain (ran : (s.txq.step a).map (fun q => { s with txq := q }) = some s')
      (other : ∀ mem headroom f spFrame a2eInit alloc, a ≠ .startXmit mem headroom f spFrame a2eInit alloc) :
      ∃ q, s.txq.step a = some q ∧
        (∀ mem headroom f spFrame a2eInit alloc, a ≠ .startXmit mem headroom f spFrame a2eInit alloc) ∧
        ∃ tid, s' = { s with txq := q, tid := tid } ∧ (tid = s.tid ∨ tid = s.copiedTid) := by
    obtain ⟨q, next, rfl⟩ := map_eq_some_iff.mp ran
    exact ⟨q, next, other, s.tid, rfl, .inl rfl⟩
  cases a with
  | startXmit mem headroom f spFrame a2eInit alloc => cases stepped
  | updateLen amsduLen allocated =>
    exact ⟨s.txq.amsduUpdateLen amsduLen allocated, rfl, fun _ _ _ _ _ _ => nofun, s.copiedTid,
      (some.inj stepped).symm, .inr rfl⟩
  | push desc => exact plain stepped fun _ _ _ _ _ _ => nofun
  | confirm id => exact plain stepped fun _ _ _ _ _ _ => nofun
  | retry id => exact plain stepped fun _ _ _ _ _ _ => nofun
  | drop id => exact plain stepped fun _ _ _ _ _ _ => nofun
  | setAmsduMax amsduMax => exact plain stepped fun _ _ _ _ _ _ => nofun

theorem step (inv : SpInv s) {a : SpAct} (allowed : SpecialNotJoined s a)
    (stepped : s.step a = some s') : SpInv s' := by
  cases a with
  | startXmit mem headroom f tid a2eInit alloc =>
    obtain rfl := some.inj stepped
    exact inv.startXmit allowed
  | other a =>
    have kept {q : Txq} (ran : s.txq.step a = some q) (tid : Nat → Nat)
        (other : ∀ mem headroom f spFrame a2eInit alloc, a ≠ .startXmit mem headroom f spFrame a2eInit alloc)
        (tids : ∀ i ∈ s.special, tid i = 0xff) : SpInv { s with txq := q, tid := tid } := by
      obtain ⟨apart, nextId⟩ := txqStep_apart ran other inv.apart
      refine ⟨inv.inv.step ran, fun i member => ⟨?_, tids i member⟩, apart⟩
      show i < q.nextId
      rw [nextId]
      exact (inv.known i member).1
    obtain ⟨q, ran, other, tid, rfl, tids⟩ := step_other stepped
    refine kept ran tid other fun i member => ?_
    rcases tids with rfl | rfl
    · exact (inv.known i member).2
    · exact inv.copiedTid member

end SpInv

/-! ### Every run -/

/-- **Special frames are queued on their own in every run in which none is joined.** -/
theorem special_alone {bus : BusType} {s : SpTxq}
    (reach : (spSystem bus).Reachable SpecialNotJoined s) : SpecialAlone s := by
  have start : (txqSystem bus true).Reachable (fun _ _ => True) (txqSystem bus true).init := .init
  have inv : SpInv s := reach.invariant (I := SpInv) ⟨TxqInv.of_reachable start,
      fun _ member => absurd member List.not_mem_nil, fun _ member => absurd member List.not_mem_nil⟩
    fun _ _ _ _ inv allowed stepped => inv.step allowed stepped
  refine ⟨fun b there => (inv.apart b there).notJoined, fun b there member => ?_⟩
  obtain ⟨hdrs, amsdu, spFrame⟩ := (inv.apart b there).single member
  exact ⟨hdrs, amsdu, spFrame, (inv.known _ member).2⟩

def eapolFrame : EthFrame := { ipFrame [1, 3, 0, 95] (by decide) with proto := ethPPae }

def specialFirst : List SpAct :=
  [.other (.updateLen 4000 fun _ => true), .startXmit (fun _ => 0) 0 eapolFrame 0 true true,
    .startXmit (fun _ => 0) 0 threeBytes 0 true true,
    .startXmit (fun _ => 0) 0 twoBytes 0 true true]

theorem special_alone_first : ∃ s, (spSystem .sdio).Reachable SpecialNotJoined s ∧ s.special = [0] ∧
      (∃ b ∈ s.txq.skList, b.txuAmsdu = true) ∧ SpecialAlone s := by
  have reach := System.reachable_of_run (spSystem .sdio) SpecialNotJoined specialFirst (by decide +kernel)
  exact ⟨_, reach, by decide +kernel, by decide +kernel, special_alone reach⟩

def specialSecond : List SpAct :=
  [.other (.updateLen 4000 fun _ => true), .startXmit (fun _ => 0) 0 threeBytes 0 true true,
    .startXmit (fun _ => 0) 0 eapolFrame 0 true true]

/-- **An EAPOL frame becomes a subframe behind an ordinary one.** -/
theorem eapol_joined : ¬ ∀ s, (spSystem .sdio).Reachable (fun _ _ => True) s → SpecialAlone s := by
  intro all
  have reach := System.reachable_of_run (spSystem .sdio) (fun _ _ => True) specialSecond (by decide +kernel)
  have joined : ∃ b ∈ (Option.get (System.run (spSystem .sdio) (fun _ _ => True)
      (spSystem .sdio).init specialSecond) (by decide +kernel)).txq.skList,
      ∃ h ∈ b.hdrs, h.skb.id ∈ (Option.get (System.run (spSystem .sdio) (fun _ _ => True)
        (spSystem .sdio).init specialSecond) (by decide +kernel)).special := by decide +kernel
  obtain ⟨b, there, h, member, special⟩ := joined
  exact (all _ reach).notJoined b (List.mem_append_left _ there) h member special

end W2l.Amsdu
