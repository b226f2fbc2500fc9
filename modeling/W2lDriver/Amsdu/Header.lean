/-
**TX headers in the headroom of a socket buffer.**

`fullmac/aml_tx.c`, `fullmac/aml_tx.h`. `aml_start_xmit` puts the TX header of the bus in front of a
frame; on SDIO and USB it takes the place of the Ethernet header, and on SDIO it is cleared.
`aml_amsdu_add_subframe_header` turns a frame into a subframe of an A-MSDU, and
`aml_amsdu_del_subframe_header` turns it back.

* `Skb`, `EthFrame` — a socket buffer with its memory, and the frame it was given with.
* `Whole`, `SubBuilt` — the buffer of a frame, and the buffer of a subframe.
* `amsduAddSubframeHeader_built` — **a subframe lies behind its padding as its A-MSDU has it**.
* `amsduDelSubframeHeader_whole` — **the frame is restored**.
* `pushTxhdr_hProto` — the Ethernet type that is read again is the frame's, and zero on SDIO.
-/

import W2lDriver.Cmd.Types
import W2lDriver.Lib.Aggregate

namespace W2l.Amsdu

open Cmd (BusType)
open Lib (Byte slice write be16 ofBe16 ofBe16_be16 slice_append slice_drop slice_length slice_take
  slice_write_outside slice_write_self write_inside Subframe padLen)
open List (length_append length_replicate replicate)

/-! ### Frames -/

/-- `ETH_P_802_3_MIN`: an Ethernet type, not a length. -/
def ethP8023Min : Nat := 0x600

def rfc1042Header : List Byte := [0xaa, 0xaa, 0x03, 0x00, 0x00, 0x00]

/-- The frame the network stack hands over; its length fits 16 bits with LLC/SNAP. -/
@[ext] structure EthFrame where
  dest : List Byte
  source : List Byte
  proto : BitVec 16
  payload : List Byte
  destLength : dest.length = 6
  sourceLength : source.length = 6
  payloadLength : payload.length + 8 < 2 ^ 16

namespace EthFrame

def typed (f : EthFrame) : Bool := ethP8023Min ≤ f.proto.toNat

def header (f : EthFrame) : List Byte := f.dest ++ (f.source ++ be16 f.proto)

theorem header_length (f : EthFrame) : f.header.length = 14 := by
  rw [header, length_append, length_append, f.destLength, f.sourceLength]
  rfl

def llcSnap (f : EthFrame) : List Byte := if f.typed then rfc1042Header ++ be16 f.proto else []

/-- `sizeof(rfc1042_header) + 2` where it is added. -/
def llcLen (f : EthFrame) : Nat := if f.typed then 8 else 0

theorem llcSnap_length (f : EthFrame) : f.llcSnap.length = f.llcLen := by
  unfold llcSnap llcLen
  cases f.typed <;> rfl

theorem llcLen_le (f : EthFrame) : f.llcLen ≤ 8 := by
  unfold llcLen
  split <;> omega

def subframe (f : EthFrame) : Subframe where
  dest := f.dest
  source := f.source
  body := f.llcSnap ++ f.payload
  destLength := f.destLength
  sourceLength := f.sourceLength
  bodyLength := by
    have length := f.payloadLength
    have llc := f.llcLen_le
    rw [List.length_append, f.llcSnap_length]
    omega

theorem subframe_body_length (f : EthFrame) : f.subframe.body.length = f.llcLen + f.payload.length := by
  show (f.llcSnap ++ f.payload).length = _
  rw [length_append, f.llcSnap_length]

theorem subframe_raw_length (f : EthFrame) : f.subframe.raw.length = 14 + f.llcLen + f.payload.length := by
  rw [Subframe.raw_length, f.subframe_body_length, Nat.add_assoc]

end EthFrame

/-! ### Socket buffers -/

/-- `struct sk_buff`: its memory from `head` on, `data` and `mac_header` as offsets. -/
structure Skb where
  id : Nat
  mem : Nat → Byte
  data : Nat
  len : Nat
  macHeader : Nat

namespace Skb

def push (skb : Skb) (n : Nat) : Skb := { skb with data := skb.data - n, len := skb.len + n }

def pull (skb : Skb) (n : Nat) : Skb := { skb with data := skb.data + n, len := skb.len - n }

/-- `memcpy`, `memset`: a store of known bytes. -/
def store (skb : Skb) (off : Nat) (bytes : List Byte) : Skb :=
  { skb with mem := write skb.mem off bytes }

/-- `memmove` of `n` bytes. -/
def move (skb : Skb) (dst src n : Nat) : Skb := skb.store dst (slice skb.mem src n)

/-- `ntohs(eth->h_proto)` of the Ethernet header at `off`. -/
def hProto (skb : Skb) (off : Nat) : BitVec 16 := ofBe16 (skb.mem (off + 12)) (skb.mem (off + 13))

/-- The buffer of a frame, with `headroom` bytes in front of it. -/
def ofFrame (id : Nat) (mem : Nat → Byte) (headroom : Nat) (f : EthFrame) : Skb where
  id := id
  mem := write (write mem headroom f.header) (headroom + 14) f.payload
  data := headroom
  len := 14 + f.payload.length
  macHeader := headroom

end Skb

/-! ### The TX header of a frame -/

/-- `sizeof(struct aml_amsdu_txhdr)` and `sizeof(struct txdesc_host)` on a 64-bit host. -/
def amsduTxhdrLen : Nat := 56
def txdescHostLen : Nat := 72

/-- `AML_TX_HEADROOM`, `AML_SDIO_TX_HEADROOM`, `AML_USB_TX_HEADROOM`. -/
def txHeadroom : BusType → Nat
  | .pcie => 8
  | .sdio => 8 + 4 + txdescHostLen
  | .usb => 8 + txdescHostLen

/-- `AML_TX_MAX_HEADROOM`, `AML_SDIO_TX_MAX_HEADROOM`, `AML_USB_TX_MAX_HEADROOM`. -/
def txMaxHeadroom (bus : BusType) : Nat := max (txHeadroom bus) (amsduTxhdrLen + 14 + 4 + 8)

/-- The TX header `aml_start_xmit` and `aml_amsdu_dismantle` put in front of a frame. What they
store in it is read through the descriptor, except for what is cleared. -/
def pushTxhdr (bus : BusType) (skb : Skb) : Skb :=
  match bus with
  | .pcie => skb.push (txHeadroom .pcie)
  | .usb => (skb.pull 14).push (txHeadroom .usb)
  | .sdio =>
    let pushed := (skb.pull 14).push (txHeadroom .sdio)
    pushed.store (pushed.data + 12) (List.replicate txdescHostLen 0)

/-- Where the payload of a frame starts behind its TX header. -/
def payloadOff (bus : BusType) (skb : Skb) : Nat :=
  skb.data + txHeadroom bus + if bus = .pcie then 14 else 0

/-! ### Subframes -/

def amsduSubframeLength (proto : BitVec 16) (frameLen : Nat) : Nat :=
  if ethP8023Min ≤ proto.toNat then frameLen + 8 else frameLen

def amsduPadding (x : Nat) : Nat := (4 - (x &&& 3)) &&& 3

theorem amsduPadding_eq (x : Nat) : amsduPadding x = padLen x := by
  have low : ∀ y : Nat, y &&& 3 = y % 4 := fun y => Nat.and_two_pow_sub_one_eq_mod y 2
  rw [amsduPadding, low, low, padLen]

/-- The part of `struct aml_amsdu_txhdr` behind its links, with the frame the buffer came with. -/
structure AmsduTxhdr where
  skb : Skb
  pad : Nat
  msduLen : Nat
  frame : EthFrame

/-- The stores of `aml_amsdu_add_subframe_header` behind the pushed `struct aml_amsdu_txhdr`: the
Ethernet header kept, the padding and the A-MSDU header. -/
def layoutHeader (pushed : Skb) (eth pad msduLen : Nat) : Skb :=
  let kept := pushed.data + amsduTxhdrLen
  let hdr := kept + 14 + pad
  let moved := pushed.move kept eth 14
  let padded := moved.store (kept + 14) (List.replicate pad 0)
  let addressed := (padded.move hdr kept 6).move (hdr + 6) (kept + 6) 6
  addressed.store (hdr + 12) (be16 (BitVec.ofNat 16 msduLen))

/-- The same with LLC/SNAP. -/
def layoutSubframe (pushed : Skb) (eth pad msduLen : Nat) : Skb :=
  let kept := pushed.data + amsduTxhdrLen
  let laid := layoutHeader pushed eth pad msduLen
  if ethP8023Min ≤ (laid.hProto kept).toNat then laid.store (kept + 14 + pad + 14) rfc1042Header
  else laid

/-- `aml_amsdu_add_subframe_header` as far as the buffer goes: the buffer and its `amsdu_txhdr`, or
the buffer as it goes back to the caller. -/
def amsduAddSubframeHeader (bus : BusType) (a2eInit : Bool) (pad : Nat) (skb : Skb)
    (frame : EthFrame) : Except Skb AmsduTxhdr :=
  let typed : Bool := ethP8023Min ≤ (skb.hProto skb.data).toNat
  let llc := if typed then 8 else 0
  let msduLen := skb.len - 14 + llc
  let headroomNeed := amsduTxhdrLen + pad + 14 + llc
  if skb.data < headroomNeed then .error skb
  else
    let laid := layoutSubframe (skb.push headroomNeed) skb.data pad msduLen
    if bus = .pcie ∧ a2eInit = false then
      .error ((laid.move skb.data (laid.data + amsduTxhdrLen) 14).pull headroomNeed)
    else .ok { skb := laid, pad := pad, msduLen := msduLen % 2 ^ 16, frame := frame }

def amsduDelSubframeHeader (h : AmsduTxhdr) : Skb :=
  let eth := h.skb.data + amsduTxhdrLen
  let llc := if ethP8023Min ≤ (h.skb.hProto eth).toNat then 8 else 0
  let pos := eth + h.pad + 14 + llc
  (h.skb.move pos eth 14).pull (pos - h.skb.data)

/-! ### What a buffer carries -/

/-- The frame, header and payload, lies at `off`. -/
structure Carries (skb : Skb) (off : Nat) (f : EthFrame) : Prop where
  header : slice skb.mem off 14 = f.header
  payload : slice skb.mem (off + 14) f.payload.length = f.payload

theorem proto_of_header {mem : Nat → Byte} {off : Nat} {f : EthFrame}
    (header : slice mem off 14 = f.header) : slice mem (off + 12) 2 = be16 f.proto := by
  have addresses : (f.dest ++ f.source).length = 12 := by
    rw [length_append, f.destLength, f.sourceLength]
  rw [← slice_drop (n := 14) (k := 12) (by decide), header, EthFrame.header, ← List.append_assoc,
    ← addresses, List.drop_left]

theorem hProto_of_header {skb : Skb} {off : Nat} {f : EthFrame}
    (header : slice skb.mem off 14 = f.header) : skb.hProto off = f.proto := by
  have proto := proto_of_header header
  have high : skb.mem (off + 12) = f.proto.extractLsb' 8 8 :=
    (List.cons.inj proto).1
  have low : skb.mem (off + 13) = f.proto.extractLsb' 0 8 :=
    (List.cons.inj (List.cons.inj proto).2).1
  rw [Skb.hProto, high, low, ofBe16_be16]

theorem Carries.hProto {skb : Skb} {off : Nat} {f : EthFrame} (carries : Carries skb off f) :
    skb.hProto off = f.proto := hProto_of_header carries.header

theorem ofFrame_carries (id : Nat) (mem : Nat → Byte) (headroom : Nat) (f : EthFrame) :
    Carries (Skb.ofFrame id mem headroom f) headroom f where
  header := by
    show slice (write (write mem headroom f.header) (headroom + 14) f.payload) headroom 14 = _
    rw [slice_write_outside (.inl (Nat.le_refl _)), ← f.header_length, slice_write_self]
  payload := slice_write_self

/-! ### Laying out a subframe -/

section Layout

variable {skb : Skb} {eth pad msduLen : Nat} {f : EthFrame}

/-- What `layoutHeader` leaves: the kept header, the padding, the new header, and everything behind
it as it was. -/
theorem layoutHeader_bytes
    (header : slice skb.mem eth 14 = f.header) :
    let laid := layoutHeader skb eth pad msduLen
    let kept := skb.data + amsduTxhdrLen
    slice laid.mem kept 14 = f.header ∧ slice laid.mem (kept + 14) pad = replicate pad 0 ∧
      slice laid.mem (kept + 14 + pad) 14 = f.dest ++ (f.source ++ be16 (BitVec.ofNat 16 msduLen)) ∧
      ∀ off n, kept + 14 + pad + 14 ≤ off → slice laid.mem off n = slice skb.mem off n := by
  intro laid kept
  have destTake : f.header.take 6 = f.dest := List.take_left' f.destLength
  have sourceTake : (f.header.drop 6).take 6 = f.source := by
    rw [EthFrame.header, List.drop_left' f.destLength, List.take_left' f.sourceLength]
  have two : (be16 (BitVec.ofNat 16 msduLen)).length = 2 := rfl
  -- the memory after each store
  let m1 := write skb.mem kept (slice skb.mem eth 14)
  let m2 := write m1 (kept + 14) (replicate pad 0)
  let m3 := write m2 (kept + 14 + pad) (slice m2 kept 6)
  let m4 := write m3 (kept + 14 + pad + 6) (slice m3 (kept + 6) 6)
  let m5 := write m4 (kept + 14 + pad + 12) (be16 (BitVec.ofNat 16 msduLen))
  have head2 : slice m2 kept 14 = f.header := by
    have same := @slice_write_self skb.mem kept (slice skb.mem eth 14)
    rw [slice_length] at same
    rw [slice_write_outside (.inl (Nat.le_refl _)), same, header]
  have head3 : slice m3 kept 14 = f.header := by
    rw [← head2]
    exact slice_write_outside (.inl (by omega))
  have dest3 : slice m3 (kept + 14 + pad) 6 = f.dest := by
    have same := @slice_write_self m2 (kept + 14 + pad) (slice m2 kept 6)
    rw [slice_length] at same
    rw [same, ← slice_take (n := 14) (by decide), head2, destTake]
  have source4 : slice m4 (kept + 14 + pad + 6) 6 = f.source := by
    have same := @slice_write_self m3 (kept + 14 + pad + 6) (slice m3 (kept + 6) 6)
    rw [slice_length] at same
    rw [same, ← slice_take (n := 8) (by decide), ← slice_drop (n := 14) (k := 6) (by decide), head3, sourceTake]
  have low5 : ∀ off n, off + n ≤ kept + 14 + pad → slice m5 off n = slice m2 off n := by
    intro off n under
    rw [slice_write_outside (.inl (by omega)), slice_write_outside (.inl (by omega)),
      slice_write_outside (.inl (by omega))]
  refine ⟨(low5 kept 14 (by omega)).trans head2, ?_, ?_, ?_⟩
  · show slice m5 (kept + 14) pad = _
    have same := @slice_write_self m1 (kept + 14) (replicate pad 0)
    rw [length_replicate] at same
    rw [low5 _ _ (Nat.le_refl _), same]
  · have dest5 : slice m5 (kept + 14 + pad) 6 = f.dest := by
      rw [slice_write_outside (.inl (by omega)), slice_write_outside (.inl (by omega)), dest3]
    have source5 : slice m5 (kept + 14 + pad + 6) 6 = f.source := by
      rw [slice_write_outside (.inl (by omega)), source4]
    have size5 : slice m5 (kept + 14 + pad + 6 + 6) 2 = be16 (BitVec.ofNat 16 msduLen) :=
      slice_write_self
    show slice m5 (kept + 14 + pad) (6 + (6 + 2)) = _
    rw [slice_append, slice_append, dest5, source5, size5]
  · intro off n above
    show slice m5 off n = _
    rw [slice_write_outside (.inr (by omega)), slice_write_outside (.inr (by rw [slice_length]; omega)),
      slice_write_outside (.inr (by rw [slice_length]; omega)),
      slice_write_outside (.inr (by rw [length_replicate]; omega)),
      slice_write_outside (.inr (by rw [slice_length]; omega))]

/-- **A subframe is laid out as its A-MSDU subframe behind its padding**, with the Ethernet header
kept in front. -/
theorem layoutSubframe_bytes (place : skb.data + amsduTxhdrLen + 14 + pad + f.llcLen = eth)
    (carries : Carries skb eth f) (size : msduLen = f.llcLen + f.payload.length) :
    let laid := layoutSubframe skb eth pad msduLen
    let kept := skb.data + amsduTxhdrLen
    slice laid.mem kept 14 = f.header ∧ slice laid.mem (kept + 14) (pad + (14 + msduLen)) =
        replicate pad 0 ++ f.subframe.raw ∧
      slice laid.mem (eth + 14) f.payload.length = f.payload := by
  subst size
  intro laid kept
  obtain ⟨head, padded, header, rest⟩ :=
    @layoutHeader_bytes skb eth pad (f.llcLen + f.payload.length) f carries.header
  have proto : (layoutHeader skb eth pad (f.llcLen + f.payload.length)).hProto kept = f.proto := hProto_of_header head
  have raw : f.subframe.raw = (f.dest ++ (f.source ++ be16 (BitVec.ofNat 16 (f.llcLen + f.payload.length)))) ++
      (f.llcSnap ++ f.payload) := by
    rw [Subframe.raw, Subframe.header, f.subframe_body_length]
    rfl
  have payload := (rest (eth + 14) f.payload.length (by omega)).trans carries.payload
  -- the LLC/SNAP header and the payload behind it
  have assembled : slice laid.mem kept 14 = f.header ∧ slice laid.mem (kept + 14) pad = replicate pad 0 ∧
      slice laid.mem (kept + 14 + pad) 14 =
        f.dest ++ (f.source ++ be16 (BitVec.ofNat 16 (f.llcLen + f.payload.length))) ∧
      slice laid.mem (kept + 14 + pad + 14) f.llcLen = f.llcSnap ∧
      slice laid.mem (eth + 14) f.payload.length = f.payload := by
    by_cases typed : f.typed = true
    · have shape : laid.mem = write (layoutHeader skb eth pad (f.llcLen + f.payload.length)).mem (kept + 14 + pad + 14)
          rfc1042Header := by
        refine congrArg Skb.mem (if_pos ?_)
        rw [proto]
        exact of_decide_eq_true typed
      have llc : f.llcLen = 8 := if_pos typed
      have six : rfc1042Header.length = 6 := rfl
      rw [shape, EthFrame.llcSnap, if_pos typed]
      generalize (layoutHeader skb eth pad (f.llcLen + f.payload.length)).mem = laidHeader at *
      refine ⟨?_, ?_, ?_, ?_, ?_⟩
      · rw [slice_write_outside (.inl (by omega)), head]
      · rw [slice_write_outside (.inl (by omega)), padded]
      · rw [slice_write_outside (.inl (by omega)), header]
      · have type : slice skb.mem (kept + 14 + pad + 14 + 6) 2 = be16 f.proto := by
          rw [← proto_of_header carries.header]
          congr 1
          omega
        have snap := @slice_write_self laidHeader (kept + 14 + pad + 14) rfc1042Header
        rw [six] at snap
        rw [llc, show 8 = 6 + 2 from rfl, slice_append, snap, slice_write_outside (.inr (by omega)),
          rest _ _ (by omega), type]
      · rw [slice_write_outside (.inr (by omega)), payload]
    · have shape : laid.mem = (layoutHeader skb eth pad (f.llcLen + f.payload.length)).mem := by
        refine congrArg Skb.mem (if_neg ?_)
        rw [proto]
        exact of_decide_eq_false (eq_false_of_ne_true typed)
      have llc : f.llcLen = 0 := if_neg typed
      rw [shape, EthFrame.llcSnap, if_neg typed]
      refine ⟨head, padded, header, ?_, payload⟩
      generalize (layoutHeader skb eth pad (f.llcLen + f.payload.length)).mem = laidHeader
      rw [llc]
      rfl
  obtain ⟨head, padded, header, llc, payload⟩ := assembled
  refine ⟨head, ?_, payload⟩
  rw [raw, slice_append, padded, slice_append, header, slice_append, llc,
    show kept + 14 + pad + 14 + f.llcLen = eth + 14 by omega, payload]

theorem layoutSubframe_frame (skb : Skb) (eth pad msduLen : Nat) :
    (layoutSubframe skb eth pad msduLen).id = skb.id ∧ (layoutSubframe skb eth pad msduLen).data = skb.data ∧
      (layoutSubframe skb eth pad msduLen).len = skb.len ∧
      (layoutSubframe skb eth pad msduLen).macHeader = skb.macHeader := by
  unfold layoutSubframe
  simp only
  split <;> exact ⟨rfl, rfl, rfl, rfl⟩

end Layout

/-! ### A frame becomes a subframe -/

/-- The buffer the network stack gave: its data is the frame. -/
structure Whole (skb : Skb) (f : EthFrame) : Prop extends Carries skb skb.data f where
  len : skb.len = 14 + f.payload.length
  mac : skb.macHeader = skb.data

/-- **A subframe as `aml_tx_task` reads it**, and what is kept to restore its frame. -/
structure SubBuilt (h : AmsduTxhdr) : Prop where
  kept : slice h.skb.mem (h.skb.data + amsduTxhdrLen) 14 = h.frame.header
  bytes : slice h.skb.mem (h.skb.data + amsduTxhdrLen + 14) (h.pad + (14 + h.msduLen)) =
    List.replicate h.pad 0 ++ h.frame.subframe.raw
  payload : slice h.skb.mem (h.skb.macHeader + 14) h.frame.payload.length = h.frame.payload
  msduLen : h.msduLen = h.frame.llcLen + h.frame.payload.length
  mac : h.skb.macHeader = h.skb.data + amsduTxhdrLen + 14 + h.pad + h.frame.llcLen
  len : h.skb.len = h.skb.macHeader - h.skb.data + (14 + h.frame.payload.length)

theorem llc_eq {skb : Skb} {off : Nat} {f : EthFrame} (proto : skb.hProto off = f.proto) :
    (if ethP8023Min ≤ (skb.hProto off).toNat then 8 else 0) = f.llcLen := by
  rw [proto, EthFrame.llcLen, EthFrame.typed]
  simp only [decide_eq_true_eq]

section Subframe

variable {bus : BusType} {a2eInit : Bool} {pad : Nat} {skb : Skb} {f : EthFrame}

theorem amsduAddSubframeHeader_eq (whole : Whole skb f)
    (room : amsduTxhdrLen + pad + 14 + f.llcLen ≤ skb.data) :
    let need := amsduTxhdrLen + pad + 14 + f.llcLen
    let laid := layoutSubframe (skb.push need) skb.data pad (f.llcLen + f.payload.length)
    amsduAddSubframeHeader bus a2eInit pad skb f =
      if bus = .pcie ∧ a2eInit = false then
        .error ((laid.move skb.data (laid.data + amsduTxhdrLen) 14).pull need)
      else .ok { skb := laid, pad := pad, msduLen := f.llcLen + f.payload.length, frame := f } := by
  have small := f.payloadLength
  have llcLe := f.llcLen_le
  have llc := llc_eq whole.toCarries.hProto
  have size : skb.len - 14 + f.llcLen = f.llcLen + f.payload.length := by
    rw [whole.len]
    omega
  unfold amsduAddSubframeHeader
  simp only [decide_eq_true_eq, llc, size]
  rw [if_neg (Nat.not_lt.mpr room), Nat.mod_eq_of_lt (by omega)]

theorem pushed_place (room : amsduTxhdrLen + pad + 14 + f.llcLen ≤ skb.data) :
    (skb.push (amsduTxhdrLen + pad + 14 + f.llcLen)).data + amsduTxhdrLen + 14 + pad + f.llcLen = skb.data := by
  show skb.data - _ + amsduTxhdrLen + 14 + pad + f.llcLen = skb.data
  omega

theorem amsduAddSubframeHeader_built (whole : Whole skb f)
    (room : amsduTxhdrLen + pad + 14 + f.llcLen ≤ skb.data)
    (mapped : bus = .pcie → a2eInit = true) :
    ∃ h, amsduAddSubframeHeader bus a2eInit pad skb f = .ok h ∧ h.pad = pad ∧ h.frame = f ∧
      h.skb.id = skb.id ∧ SubBuilt h := by
  have done : ¬ (bus = .pcie ∧ a2eInit = false) := by
    rintro ⟨pcie, failed⟩
    rw [mapped pcie] at failed
    cases failed
  refine ⟨_, (amsduAddSubframeHeader_eq whole room).trans (if_neg done), rfl, rfl, ?_⟩
  have place := @pushed_place pad skb f room
  obtain ⟨id, data, len, mac⟩ := layoutSubframe_frame
    (skb.push (amsduTxhdrLen + pad + 14 + f.llcLen)) skb.data pad (f.llcLen + f.payload.length)
  refine ⟨id, ?_⟩
  have carried : Carries (skb.push (amsduTxhdrLen + pad + 14 + f.llcLen)) skb.data f :=
    ⟨whole.header, whole.payload⟩
  obtain ⟨kept, bytes, payload⟩ := layoutSubframe_bytes place carried rfl
  have mac' := mac.trans whole.mac
  constructor
  case kept => rw [data, kept]
  case bytes => rw [data, bytes]
  case payload => rw [mac', payload]
  case msduLen => rfl
  case mac => rw [mac', data, place]
  case len =>
    rw [mac', data, len]
    show skb.len + (amsduTxhdrLen + pad + 14 + f.llcLen) =
      skb.data - (skb.data - (amsduTxhdrLen + pad + 14 + f.llcLen)) + (14 + f.payload.length)
    rw [whole.len]
    omega

theorem amsduAddSubframeHeader_restored (whole : Whole skb f)
    (room : amsduTxhdrLen + pad + 14 + f.llcLen ≤ skb.data) (pcie : bus = .pcie)
    (failed : a2eInit = false) :
    ∃ skb', amsduAddSubframeHeader bus a2eInit pad skb f = .error skb' ∧
      skb'.id = skb.id ∧ skb'.data = skb.data ∧ Whole skb' f := by
  refine ⟨_, (amsduAddSubframeHeader_eq whole room).trans (if_pos ⟨pcie, failed⟩), ?_⟩
  have place := @pushed_place pad skb f room
  obtain ⟨id, data, len, mac⟩ := layoutSubframe_frame
    (skb.push (amsduTxhdrLen + pad + 14 + f.llcLen)) skb.data pad (f.llcLen + f.payload.length)
  have carried : Carries (skb.push (amsduTxhdrLen + pad + 14 + f.llcLen)) skb.data f :=
    ⟨whole.header, whole.payload⟩
  obtain ⟨kept, -, payload⟩ := layoutSubframe_bytes place carried rfl
  have back : skb.data - (amsduTxhdrLen + pad + 14 + f.llcLen) +
      (amsduTxhdrLen + pad + 14 + f.llcLen) = skb.data := Nat.sub_add_cancel room
  generalize amsduTxhdrLen + pad + 14 + f.llcLen = need at *
  generalize layoutSubframe (skb.push need) skb.data pad (f.llcLen + f.payload.length) = laid at *
  have same : ((laid.move skb.data (laid.data + amsduTxhdrLen) 14).pull need).data = skb.data := by
    show laid.data + need = skb.data
    rw [data]
    exact back
  refine ⟨id, same, ⟨⟨?_, ?_⟩, ?_, ?_⟩⟩
  · have stored := @slice_write_self laid.mem skb.data (slice laid.mem (laid.data + amsduTxhdrLen) 14)
    rw [slice_length] at stored
    rw [same]
    show slice (write laid.mem skb.data (slice laid.mem (laid.data + amsduTxhdrLen) 14)) skb.data 14 = _
    rw [stored, data, kept]
  · rw [same]
    show slice (write laid.mem skb.data (slice laid.mem (laid.data + amsduTxhdrLen) 14))
      (skb.data + 14) f.payload.length = _
    rw [slice_write_outside (.inr (by rw [slice_length])), payload]
  · show laid.len - need = _
    rw [len, ← whole.len]
    show skb.len + need - need = skb.len
    rw [Nat.add_sub_cancel]
  · show laid.macHeader = laid.data + need
    rw [mac, data]
    exact whole.mac.trans back.symm

theorem amsduDelSubframeHeader_whole {h : AmsduTxhdr} (built : SubBuilt h) :
    Whole (amsduDelSubframeHeader h) h.frame ∧ (amsduDelSubframeHeader h).data = h.skb.macHeader := by
  have llc := llc_eq (hProto_of_header built.kept)
  have shape : amsduDelSubframeHeader h = (h.skb.move h.skb.macHeader (h.skb.data + amsduTxhdrLen) 14).pull
        (h.skb.macHeader - h.skb.data) := by
    unfold amsduDelSubframeHeader
    simp only [llc]
    rw [built.mac]
    congr 2 <;> omega
  have forward : h.skb.data + (h.skb.macHeader - h.skb.data) = h.skb.macHeader := by
    rw [built.mac]
    omega
  rw [shape]
  refine ⟨⟨⟨?_, ?_⟩, ?_, ?_⟩, forward⟩
  · have stored := @slice_write_self h.skb.mem h.skb.macHeader
      (slice h.skb.mem (h.skb.data + amsduTxhdrLen) 14)
    rw [slice_length] at stored
    show slice (write h.skb.mem h.skb.macHeader (slice h.skb.mem (h.skb.data + amsduTxhdrLen) 14))
      (h.skb.data + (h.skb.macHeader - h.skb.data)) 14 = _
    rw [forward, stored, built.kept]
  · show slice (write h.skb.mem h.skb.macHeader (slice h.skb.mem (h.skb.data + amsduTxhdrLen) 14))
      (h.skb.data + (h.skb.macHeader - h.skb.data) + 14) h.frame.payload.length = _
    rw [forward, slice_write_outside (.inr (by rw [slice_length])), built.payload]
  · show h.skb.len - (h.skb.macHeader - h.skb.data) = _
    rw [built.len]
    omega
  · exact forward.symm

end Subframe

/-! ### The TX header in front of a frame -/

theorem txHeadroom_le (bus : BusType) : txHeadroom bus ≤ txMaxHeadroom bus := Nat.le_max_left _ _

section TxHeader

variable {bus : BusType} {skb : Skb} {f : EthFrame}

theorem pushTxhdr_id (bus : BusType) (skb : Skb) : (pushTxhdr bus skb).id = skb.id := by
  cases bus <;> rfl

theorem pushTxhdr_payload (whole : Whole skb f) (room : txHeadroom bus ≤ skb.data) :
    payloadOff bus (pushTxhdr bus skb) = skb.data + 14 ∧
      slice (pushTxhdr bus skb).mem (skb.data + 14) f.payload.length = f.payload := by
  cases bus with
  | pcie =>
    refine ⟨?_, whole.payload⟩
    show skb.data - txHeadroom .pcie + txHeadroom .pcie + 14 = _
    rw [Nat.sub_add_cancel room]
  | usb =>
    refine ⟨?_, whole.payload⟩
    show skb.data + 14 - txHeadroom .usb + txHeadroom .usb + 0 = _
    rw [Nat.sub_add_cancel (by omega), Nat.add_zero]
  | sdio =>
    have cleared : (replicate txdescHostLen (0 : Byte)).length = 72 := length_replicate
    have header : txHeadroom .sdio = 84 := rfl
    refine ⟨?_, ?_⟩
    · show skb.data + 14 - txHeadroom .sdio + txHeadroom .sdio + 0 = _
      rw [Nat.sub_add_cancel (by omega), Nat.add_zero]
    · show slice (write skb.mem (skb.data + 14 - txHeadroom .sdio + 12) _) _ _ = _
      rw [slice_write_outside (.inr (by omega)), whole.payload]

theorem pushTxhdr_hProto (whole : Whole skb f) (room : txHeadroom bus ≤ skb.data) :
    (pushTxhdr bus skb).hProto (pushTxhdr bus skb).macHeader = if bus = .sdio then 0 else f.proto := by
  cases bus with
  | pcie =>
    show skb.hProto skb.macHeader = f.proto
    rw [whole.mac]
    exact whole.toCarries.hProto
  | usb =>
    show skb.hProto skb.macHeader = f.proto
    rw [whole.mac]
    exact whole.toCarries.hProto
  | sdio =>
    have header : txHeadroom .sdio = 84 := rfl
    have clear : ∀ k, k < 72 → (pushTxhdr .sdio skb).mem (skb.data + 14 - txHeadroom .sdio + 12 + k) = 0 := by
      intro k inside
      have length : (replicate txdescHostLen (0 : Byte)).length = 72 := length_replicate
      exact (write_inside (length.symm ▸ inside)).trans (List.getElem_replicate _)
    have high := clear 70 (by decide)
    have low := clear 71 (by decide)
    show ofBe16 ((pushTxhdr .sdio skb).mem (skb.macHeader + 12)) ((pushTxhdr .sdio skb).mem (skb.macHeader + 13)) = 0
    rw [whole.mac, show skb.data + 12 = skb.data + 14 - txHeadroom .sdio + 12 + 70 by omega,
      show skb.data + 13 = skb.data + 14 - txHeadroom .sdio + 12 + 71 by omega, high, low]
    rfl

end TxHeader

end W2l.Amsdu
