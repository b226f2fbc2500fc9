/-
**A-MSDUs in a TX queue: the code, and what holds of a buffer.**

`aml_start_xmit`, `aml_amsdu_add_subframe`, `aml_amsdu_dismantle`, `aml_amsdu_update_len`
(`fullmac/aml_tx.c`), `aml_tx_push`, `aml_txq_drop_skb`. A frame becomes a subframe of the A-MSDU
the queue has in progress, starts one with the last buffer of the queue, or is queued alone.

* `Buffer` — an entry of `sk_list` with its `aml_sw_txhdr`; `Txq` — the queue and the buffers the
  firmware has.
* `BufferInv` — the invariant of a buffer: its payload, its subframes, the lengths of its A-MSDU.
* `Buffer.Ready.addHdr` — **one more subframe keeps the lengths and the places of an A-MSDU**.
* `BufferInv.start_ready` — **the length counted for the first frame misses its LLC/SNAP on SDIO**.
-/

import W2lDriver.Lib.System
import W2lDriver.Amsdu.Header

namespace W2l.Amsdu

open Cmd (BusType)
open Lib (Byte System slice padLen padLen_aligned_add padding encode encode_concat)
open List (cons_append length_append map_append map_singleton)

/-! ### Buffers -/

/-- The addresses and the Ethernet type in the descriptor for the firmware. -/
structure HostDesc where
  ethDestAddr : List Byte
  ethSrcAddr : List Byte
  ethertype : BitVec 16

/-- A buffer of `sk_list` and the part of its `aml_sw_txhdr` that A-MSDUs use. -/
structure Buffer where
  skb : Skb
  frameLen : Nat
  desc : HostDesc
  /-- `TXU_CNTRL_AMSDU`, `TXU_CNTRL_RETRY`, `TXU_CNTRL_SP_FRAME`. -/
  txuAmsdu : Bool := false
  txuRetry : Bool := false
  txuSpFrame : Bool := false
  /-- `packet_len`, `packet_cnt` of them. -/
  packetLen : List Nat
  /-- `amsdu.len`, `amsdu.nb`, `amsdu.pad`, `amsdu.hdrs`. -/
  len : Nat := 0
  nb : Nat := 0
  pad : Nat := 0
  hdrs : List AmsduTxhdr := []
  /-- The frame the buffer came with. -/
  frame : EthFrame
  /-- `txq->amsdu_len` when the last subframe was added. -/
  limit : Nat := 0

namespace Buffer

/-- The A-MSDU descriptor of the first frame, updated by `aml_amsdu_add_subframe_header`. -/
def addHdr (b : Buffer) (h : AmsduTxhdr) (limit : Nat) : Buffer :=
  let amsduLen := h.msduLen + 14 + b.pad
  { b with
    hdrs := b.hdrs ++ [h]
    packetLen := b.packetLen ++ [amsduLen % 2 ^ 16]
    nb := (b.nb + 1) % 2 ^ 8
    pad := amsduPadding (amsduLen - b.pad)
    len := (b.len + amsduLen) % 2 ^ 16
    limit := limit }

/-- The first frame of an A-MSDU, its own length read again from its MAC header. -/
def start (b : Buffer) (len1 : Nat) : Buffer :=
  { b with len := len1 % 2 ^ 16, nb := 1, pad := amsduPadding len1, hdrs := [] }

def alone (b : Buffer) : Buffer :=
  { b with len := 0, nb := 0, txuAmsdu := false, packetLen := b.packetLen.take 1, hdrs := [] }

/-- A subframe that `aml_amsdu_dismantle` queues behind the first frame, unless it frees it. -/
def split (b : Buffer) (bus : BusType) (allocated : Bool) (h : AmsduTxhdr) : Option Buffer :=
  let skb := amsduDelSubframeHeader h
  let frameLen := skb.len - 14
  if skb.data < txHeadroom bus ∨ allocated = false ∨ (bus = .pcie ∧ h.msduLen + 14 + h.pad < frameLen) then none
  else some { b.alone with
    skb := pushTxhdr bus skb
    frameLen := frameLen % 2 ^ 16
    packetLen := [frameLen % 2 ^ 16]
    frame := h.frame }

/-- `aml_amsdu_dismantle`; `allocated` tells for which buffers `kmem_cache_alloc` succeeds. -/
def dismantle (b : Buffer) (bus : BusType) (allocated : Nat → Bool) : List Buffer :=
  b.alone :: b.hdrs.filterMap fun h => b.split bus (allocated h.skb.id) h

/-- `aml_tx_task` stores the descriptor in the TX header. -/
def storeDesc (b : Buffer) (bus : BusType) (desc : List Byte) : Buffer :=
  match bus with
  | .pcie => b
  | .sdio => { b with skb := b.skb.store (b.skb.data + 12) desc }
  | .usb => { b with skb := b.skb.store (b.skb.data + 8) desc }

end Buffer

/-! ### The queue -/

/-- The part of `struct aml_txq` that A-MSDUs use. -/
structure Txq where
  busType : BusType
  /-- `txq->sta` is set. -/
  sta : Bool
  skList : List Buffer := []
  nbRetry : Nat := 0
  /-- `txq->amsdu`, as the number of its socket buffer. -/
  amsdu : Option Nat := none
  amsduLen : BitVec 16 := 0
  /-- `mod_params->amsdu_maxnb`. -/
  amsduMaxnb : Int := 6
  inFlight : List Buffer := []
  nextId : Nat := 0

def nxTxPayloadMax : Int := 6

/-- One step on the queue. -/
inductive TxqAct
  /-- `aml_start_xmit`: what the memory held, the headroom, the frame, `sp_frame`, whether the DMA
  mapping of a subframe succeeds, and whether the frame gets its `aml_sw_txhdr` and mapping. -/
  | startXmit (mem : Nat → Byte) (headroom : Nat) (f : EthFrame) (spFrame a2eInit alloc : Bool)
  /-- `aml_tx_push`, and the bytes of the descriptor. -/
  | push (desc : List Byte)
  | confirm (id : Nat)
  | retry (id : Nat)
  | drop (id : Nat)
  | updateLen (amsduLen : BitVec 16) (allocated : Nat → Bool)
  | setAmsduMax (amsduMax : Int)

namespace Txq

/-- `aml_adjust_amsdu_maxnb`, and the limit of USB. -/
def adjustMaxnb (s : Txq) : Txq :=
  let maxnb := if s.amsduMaxnb > nxTxPayloadMax then nxTxPayloadMax
    else if s.amsduMaxnb = 0 then 1 else s.amsduMaxnb
  { s with amsduMaxnb := if s.busType = .usb then 3 else maxnb }

/-- Change the `aml_sw_txhdr` of a queued buffer. -/
def update (s : Txq) (b : Buffer) : Txq :=
  { s with skList := s.skList.map fun c => if c.skb.id = b.skb.id then b else c }

/-- One more subframe for the A-MSDU in progress; the buffer when it goes on alone. -/
def addToAmsdu (s : Txq) (b : Buffer) (a2eInit : Bool) (skb : Skb) (f : EthFrame) : Txq × Option Skb :=
  if b.txuSpFrame = true ∨
      s.amsduLen.toNat < b.len + b.pad + amsduSubframeLength (skb.hProto skb.data) skb.len then
    ({ s with amsdu := none }, some skb)
  else
    match amsduAddSubframeHeader s.busType a2eInit b.pad skb f with
    | .error skb => ({ s with amsdu := none }, some skb)
    | .ok h =>
      let added := b.addHdr h s.amsduLen.toNat
      let s := s.update added
      (if s.amsduMaxnb ≤ added.nb then { s with amsdu := none } else s, none)

/-- A new A-MSDU of the last buffer of the queue and this one. -/
def startAmsdu (s : Txq) (b : Buffer) (a2eInit : Bool) (skb : Skb) (f : EthFrame) : Txq × Option Skb :=
  let len1 := amsduSubframeLength (b.skb.hProto b.skb.macHeader) (b.frameLen + 14)
  let len2 := amsduSubframeLength (skb.hProto skb.data) skb.len
  if b.len ≠ 0 ∨ b.txuRetry = true ∨ b.txuSpFrame = true ∨
      s.amsduLen.toNat < len1 + amsduPadding len1 + len2 then
    (s, some skb)
  else
    match amsduAddSubframeHeader s.busType a2eInit (b.start len1).pad skb f with
    | .error skb => (s.update (b.start len1), some skb)
    | .ok h =>
      let added := { (b.start len1).addHdr h s.amsduLen.toNat with txuAmsdu := true }
      let s := s.update added
      (if added.nb < s.amsduMaxnb then { s with amsdu := some b.skb.id } else s, none)

def amsduAddSubframe (s : Txq) (a2eInit : Bool) (skb : Skb) (f : EthFrame) : Txq × Option Skb :=
  let s := s.adjustMaxnb
  if s.amsduLen = 0 ∨ s.amsduMaxnb < 2 then (s, some skb)
  else
    match s.amsdu with
    | some i =>
      match s.skList.find? fun b => b.skb.id == i with
      | some b => s.addToAmsdu b a2eInit skb f
      | none => (s, some skb)
    | none =>
      match s.skList.getLast? with
      | some b => s.startAmsdu b a2eInit skb f
      | none => (s, some skb)

/-- The end of `aml_start_xmit`: the descriptor, the TX header and the queue. -/
def queueSkb (s : Txq) (spFrame : Bool) (skb : Skb) (f : EthFrame) : Txq :=
  let frameLen := (skb.len - 14) % 2 ^ 16
  let b : Buffer :=
    { skb := pushTxhdr s.busType skb
      frameLen := frameLen
      desc := ⟨slice skb.mem skb.data 6, slice skb.mem (skb.data + 6) 6, skb.hProto skb.data⟩
      txuSpFrame := spFrame
      packetLen := [frameLen]
      frame := f }
  { s with skList := s.skList ++ [b] }

/-- `aml_start_xmit`; a buffer without enough headroom is copied. -/
def startXmit (s : Txq) (mem : Nat → Byte) (headroom : Nat) (f : EthFrame) (spFrame a2eInit alloc : Bool) : Txq :=
  let skb := Skb.ofFrame s.nextId mem (max headroom (txMaxHeadroom s.busType)) f
  match { s with nextId := s.nextId + 1 }.amsduAddSubframe a2eInit skb f with
  | (s, none) => s
  | (s, some skb) => if alloc then s.queueSkb spFrame skb f else s

/-- `aml_tx_push` of the first buffer. -/
def txPush (s : Txq) (desc : List Byte) : Option Txq :=
  match s.skList with
  | [] => none
  | b :: rest =>
    if desc.length = txdescHostLen then
      some { s with
        skList := rest
        nbRetry := s.nbRetry - 1
        amsdu := if s.amsdu = some b.skb.id then none else s.amsdu
        inFlight := s.inFlight ++ [{ b with txuRetry := false }.storeDesc s.busType desc] }
    else none

def txRetry (s : Txq) (id : Nat) : Option Txq :=
  (s.inFlight.find? fun b => b.skb.id == id).map fun b =>
    { s with
      skList := s.skList.take s.nbRetry ++ { b with txuRetry := true } :: s.skList.drop s.nbRetry
      nbRetry := s.nbRetry + 1
      inFlight := s.inFlight.filter fun c => c.skb.id != id }

def txqDropSkb (s : Txq) (id : Nat) : Option Txq :=
  (s.skList.find? fun b => b.skb.id == id).map fun b =>
    { s with
      skList := s.skList.filter fun c => c.skb.id != id
      nbRetry := ((s.skList.take s.nbRetry).filter fun c => c.skb.id != id).length
      amsdu := if 1 < b.packetLen.length ∧ s.amsdu = some id then none else s.amsdu }

/-- The walk of `aml_amsdu_update_len` behind the retries. -/
def walk (bus : BusType) (amsduLen : Nat) (allocated : Nat → Bool) (walked : List Buffer) : List Buffer :=
  walked.flatMap fun b =>
    if b.txuAmsdu = true ∧ amsduLen < b.len then b.dismantle bus allocated else [b]

def amsduUpdateLen (s : Txq) (amsduLen : BitVec 16) (allocated : Nat → Bool) : Txq :=
  if s.amsduLen ≤ amsduLen then { s with amsduLen := amsduLen }
  else if s.sta = false then { s with amsduLen := 0 }
  else
    let walked := s.skList.drop s.nbRetry
    { s with
      skList := s.skList.take s.nbRetry ++ walk s.busType amsduLen.toNat allocated walked
      amsdu := if walked.any fun b => s.amsdu == some b.skb.id then none else s.amsdu
      amsduLen := amsduLen }

def step (s : Txq) : TxqAct → Option Txq
  | .startXmit mem headroom f spFrame a2eInit alloc =>
    some (s.startXmit mem headroom f spFrame a2eInit alloc)
  | .push desc => s.txPush desc
  | .confirm id => some { s with inFlight := s.inFlight.filter fun c => c.skb.id != id }
  | .retry id => s.txRetry id
  | .drop id => s.txqDropSkb id
  | .updateLen amsduLen allocated => some (s.amsduUpdateLen amsduLen allocated)
  | .setAmsduMax amsduMax => some { s with amsduMaxnb := amsduMax }

end Txq

def txqSystem (bus : BusType) (sta : Bool) : System Txq TxqAct where
  init := { busType := bus, sta := sta }
  step := Txq.step

/-! ### What holds of a buffer -/

namespace Buffer

def frames (b : Buffer) : List EthFrame := b.frame :: b.hdrs.map AmsduTxhdr.frame

def body (b : Buffer) : List Byte := encode (b.frames.map EthFrame.subframe)

/-- Where the subframes behind the first start, by the padding and the lengths of the driver. -/
def startsFrom : Nat → List AmsduTxhdr → List Nat
  | _, [] => []
  | off, h :: rest => (off + h.pad) :: startsFrom (off + h.pad + (14 + h.msduLen)) rest

def starts (b : Buffer) : List Nat := startsFrom b.frame.subframe.raw.length b.hdrs

/-- What `aml_tx_task` copies behind the first payload. -/
def laidOut (hdrs : List AmsduTxhdr) : List Byte :=
  hdrs.flatMap fun h => List.replicate h.pad 0 ++ h.frame.subframe.raw

/-- The LLC/SNAP header that is not counted on SDIO: the Ethernet type read again is cleared. -/
def uncounted (bus : BusType) (f : EthFrame) : Nat := if bus = .sdio then f.llcLen else 0

/-- **An A-MSDU**: its counters, its limit, and its subframes in their places. -/
structure Aggregated (bus : BusType) (b : Buffer) : Prop where
  nonempty : b.hdrs ≠ []
  nb : b.nb = b.hdrs.length + 1
  few : b.nb ≤ 6
  len : b.len + uncounted bus b.frame = b.body.length
  pad : b.pad = padLen b.body.length
  fits : b.len ≤ b.limit
  limit : b.limit < 2 ^ 16
  aligned : ∀ start ∈ b.starts, start % 4 = 0
  laid : b.frame.subframe.raw ++ laidOut b.hdrs = b.body

end Buffer

/-- **The invariant of a buffer.** -/
structure BufferInv (bus : BusType) (b : Buffer) : Prop where
  frameLen : b.frameLen = b.frame.payload.length
  payload : slice b.skb.mem (payloadOff bus b.skb) b.frame.payload.length = b.frame.payload
  subs : ∀ h ∈ b.hdrs, SubBuilt h
  packetLen : b.packetLen = b.frameLen :: b.hdrs.map fun h => h.msduLen + 14 + h.pad
  single : b.txuAmsdu = false → b.hdrs = []
  aggregated : b.txuAmsdu = true → b.Aggregated bus

/-- The Ethernet type that `aml_amsdu_add_subframe` reads again. -/
def FreshEth (bus : BusType) (b : Buffer) : Prop :=
  b.txuRetry = false → b.skb.hProto b.skb.macHeader = if bus = .sdio then 0 else b.frame.proto

def Buffer.ids (b : Buffer) : List Nat := b.skb.id :: b.hdrs.map fun h => h.skb.id

/-- The socket buffers the queue and the firmware have. -/
def Txq.ids (s : Txq) : List Nat := (s.skList ++ s.inFlight).flatMap Buffer.ids

/-- An A-MSDU in progress is queued and has room for one more subframe. -/
def InProgress (s : Txq) (i : Nat) : Prop :=
  ∃ b ∈ s.skList, b.skb.id = i ∧ b.txuAmsdu = true ∧ b.nb < 6

/-- **The invariant of the queue.** -/
structure TxqInv (s : Txq) : Prop where
  nodup : s.ids.Nodup
  known : ∀ i ∈ s.ids, i < s.nextId
  buffers : ∀ b ∈ s.skList ++ s.inFlight, BufferInv s.busType b
  fresh : ∀ b ∈ s.skList, FreshEth s.busType b
  inProgress : ∀ i ∈ s.amsdu, InProgress s i

/-! ### One more subframe -/

namespace Buffer

theorem startsFrom_concat (off : Nat) (hdrs : List AmsduTxhdr) (h : AmsduTxhdr) :
    startsFrom off (hdrs ++ [h]) = startsFrom off hdrs ++
      [off + (hdrs.map fun h => h.pad + (14 + h.msduLen)).sum + h.pad] := by
  induction hdrs generalizing off with
  | nil => rfl
  | cons g rest ih =>
    rw [cons_append, startsFrom, ih, startsFrom, List.map_cons, List.sum_cons, cons_append]
    simp only [Nat.add_assoc]

theorem laidOut_length {hdrs : List AmsduTxhdr} (built : ∀ h ∈ hdrs, SubBuilt h) :
    (laidOut hdrs).length = (hdrs.map fun h => h.pad + (14 + h.msduLen)).sum := by
  rw [laidOut, List.length_flatMap]
  refine congrArg List.sum (List.map_congr_left fun h member => ?_)
  rw [length_append, List.length_replicate, h.frame.subframe_raw_length, (built h member).msduLen, Nat.add_assoc 14]

theorem body_concat (b : Buffer) (h : AmsduTxhdr) :
    encode ((b.frame :: (b.hdrs ++ [h]).map AmsduTxhdr.frame).map EthFrame.subframe) =
      b.body ++ (padding b.body.length ++ h.frame.subframe.raw) := by
  rw [map_append, map_singleton, ← cons_append, map_append, map_singleton]
  exact encode_concat (List.cons_ne_nil _ _) _

/-- What has to hold of the first frame before a subframe is added behind it. -/
structure Ready (bus : BusType) (b : Buffer) : Prop where
  nb : b.nb = b.hdrs.length + 1
  len : b.len + uncounted bus b.frame = b.body.length
  pad : b.pad = padLen b.body.length
  aligned : ∀ start ∈ b.starts, start % 4 = 0
  laid : b.frame.subframe.raw ++ laidOut b.hdrs = b.body

theorem Aggregated.ready {bus : BusType} {b : Buffer} (agg : b.Aggregated bus) : b.Ready bus :=
  ⟨agg.nb, agg.len, agg.pad, agg.aligned, agg.laid⟩

theorem Ready.addHdr {bus : BusType} {b : Buffer} {h : AmsduTxhdr} {limit : Nat}
    (ready : b.Ready bus) (subs : ∀ h ∈ b.hdrs, SubBuilt h) (built : SubBuilt h)
    (pad : h.pad = b.pad) (room : b.nb < 6) (limitLt : limit < 2 ^ 16)
    (fits : b.len + b.pad + (14 + h.msduLen) ≤ limit) :
    (b.addHdr h limit).Aggregated bus := by
  have bodyEq : (b.addHdr h limit).body = b.body ++ (padding b.body.length ++ h.frame.subframe.raw) := b.body_concat h
  have rawLen : h.frame.subframe.raw.length = 14 + h.msduLen := by
    rw [h.frame.subframe_raw_length, built.msduLen, Nat.add_assoc]
  have padded : (padding b.body.length).length = b.pad := by
    rw [padding, List.length_replicate, ready.pad]
  have bodyLen : (b.addHdr h limit).body.length = b.body.length + b.pad + (14 + h.msduLen) := by
    rw [bodyEq, length_append, length_append, padded, rawLen, Nat.add_assoc]
  have padsOut := W2l.Lib.padLen_aligns b.body.length
  rw [← ready.pad] at padsOut
  have total : (b.frame.subframe.raw ++ laidOut b.hdrs).length = b.body.length :=
    congrArg List.length ready.laid
  rw [length_append, laidOut_length subs] at total
  have newLen : (b.addHdr h limit).len = b.len + b.pad + (14 + h.msduLen) := by
    show (b.len + (h.msduLen + 14 + b.pad)) % 2 ^ 16 = _
    rw [Nat.mod_eq_of_lt (by omega)]
    omega
  have newNb : (b.addHdr h limit).nb = b.nb + 1 := Nat.mod_eq_of_lt (by omega)
  constructor
  case nonempty => exact List.append_ne_nil_of_right_ne_nil _ (List.cons_ne_nil _ _)
  case nb =>
    show _ = (b.hdrs ++ [h]).length + 1
    rw [newNb, ready.nb, length_append]
    rfl
  case few =>
    rw [newNb]
    omega
  case len =>
    show _ + uncounted bus b.frame = _
    have len := ready.len
    rw [newLen, bodyLen]
    omega
  case pad =>
    show amsduPadding (h.msduLen + 14 + b.pad - b.pad) = _
    rw [amsduPadding_eq, bodyLen, padLen_aligned_add padsOut, Nat.add_sub_cancel, Nat.add_comm]
  case fits =>
    show _ ≤ limit
    rw [newLen]
    exact fits
  case limit => exact limitLt
  case aligned =>
    intro start member
    change start ∈ startsFrom b.frame.subframe.raw.length (b.hdrs ++ [h]) at member
    rw [startsFrom_concat] at member
    rcases List.mem_append.mp member with earlier | last
    · exact ready.aligned start earlier
    · rw [List.mem_singleton.mp last, total, pad]
      exact padsOut
  case laid =>
    show b.frame.subframe.raw ++ laidOut (b.hdrs ++ [h]) = _
    have out : laidOut (b.hdrs ++ [h]) = laidOut b.hdrs ++ (List.replicate h.pad 0 ++ h.frame.subframe.raw) := by
      rw [laidOut, List.flatMap_append, List.flatMap_singleton]
      rfl
    rw [out, ← List.append_assoc, ready.laid, bodyEq, padding, ← ready.pad, pad]

end Buffer

/-! ### The first frame of an A-MSDU -/

theorem padLen_le (n : Nat) : padLen n ≤ 3 := by
  unfold padLen
  omega

theorem subframeLength_read (bus : BusType) (f : EthFrame) (len : Nat) :
    amsduSubframeLength (if bus = .sdio then 0 else f.proto) len + Buffer.uncounted bus f = len + f.llcLen := by
  unfold amsduSubframeLength Buffer.uncounted
  by_cases sdio : bus = .sdio
  · rw [if_pos sdio, if_pos sdio, if_neg (by decide)]
  · rw [if_neg sdio, if_neg sdio, EthFrame.llcLen, EthFrame.typed]
    simp only [decide_eq_true_eq]
    split <;> rfl

theorem uncounted_mod (bus : BusType) (f : EthFrame) : Buffer.uncounted bus f % 4 = 0 := by
  unfold Buffer.uncounted EthFrame.llcLen
  split
  · split <;> rfl
  · rfl

theorem Buffer.Aggregated.len_ne_zero {bus : BusType} {b : Buffer} (agg : b.Aggregated bus) : b.len ≠ 0 := by
  have len := agg.len
  have body := congrArg List.length agg.laid
  have raw := b.frame.subframe_raw_length
  have llc := b.frame.llcLen_le
  rw [length_append, raw] at body
  unfold Buffer.uncounted at len
  split at len <;> omega

namespace BufferInv

variable {bus : BusType} {b : Buffer}

section

variable (inv : BufferInv bus b)

include inv

theorem single_of_len (len : b.len = 0) : b.txuAmsdu = false := by
  cases flag : b.txuAmsdu with
  | false => rfl
  | true => exact absurd len (inv.aggregated flag).len_ne_zero

theorem start_ready (fresh : FreshEth bus b) (retry : b.txuRetry = false)
    {len1 : Nat}
    (read : len1 = amsduSubframeLength (b.skb.hProto b.skb.macHeader) (b.frameLen + 14))
    (small : len1 < 2 ^ 16) : (b.start len1).Ready bus := by
  have counted : len1 + Buffer.uncounted bus b.frame = b.frame.subframe.raw.length := by
    rw [read, fresh retry, subframeLength_read, inv.frameLen, b.frame.subframe_raw_length]
    omega
  have len : (b.start len1).len = len1 := Nat.mod_eq_of_lt small
  have uncounted := uncounted_mod bus b.frame
  constructor
  case nb => rfl
  case len =>
    rw [len]
    exact counted
  case pad =>
    show amsduPadding len1 = padLen b.frame.subframe.raw.length
    rw [amsduPadding_eq, ← counted, Nat.add_comm, padLen_aligned_add uncounted]
  case aligned =>
    intro start member
    cases member
  case laid =>
    show b.frame.subframe.raw ++ [] = b.frame.subframe.raw
    rw [List.append_nil]

theorem start (single : b.txuAmsdu = false) (len1 : Nat) : BufferInv bus (b.start len1) where
  frameLen := inv.frameLen
  payload := inv.payload
  subs := by
    intro h member
    cases member
  packetLen := by
    have packetLen := inv.packetLen
    rw [inv.single single] at packetLen
    exact packetLen
  single := fun _ => rfl
  aggregated := by
    intro flag
    have on : b.txuAmsdu = true := flag
    rw [single] at on
    cases on

theorem addHdr {h : AmsduTxhdr} {limit : Nat} (built : SubBuilt h)
    (pad : h.pad = b.pad) (small : h.msduLen + 14 + b.pad < 2 ^ 16)
    (agg : (b.addHdr h limit).Aggregated bus) :
    BufferInv bus { b.addHdr h limit with txuAmsdu := true } where
  frameLen := inv.frameLen
  payload := inv.payload
  subs := by
    intro g member
    rcases List.mem_append.mp member with earlier | last
    · exact inv.subs g earlier
    · rw [List.mem_singleton.mp last]
      exact built
  packetLen := by
    show b.packetLen ++ [(h.msduLen + 14 + b.pad) % 2 ^ 16] =
      b.frameLen :: (b.hdrs ++ [h]).map fun h => h.msduLen + 14 + h.pad
    rw [inv.packetLen, Nat.mod_eq_of_lt small, map_append, map_singleton, pad, cons_append]
  single := fun off => nomatch off
  aggregated := fun _ => ⟨agg.nonempty, agg.nb, agg.few, agg.len, agg.pad, agg.fits, agg.limit, agg.aligned, agg.laid⟩

end

end BufferInv

end W2l.Amsdu
