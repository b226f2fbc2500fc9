/-
**A batch of frames over USB.**

`aml_tx_task` (`aml_utils.c`), `w2_usb_send_frame`, `aml_usb_build_tx_packet_info`, `w2_usb_send_packet`,
`w2_usb_scat_complete` (`aml_bus/w2_usb.c`). The task puts frames into the scatter request until it has no page or the
batch is full; the request is announced in a command block, and its entries follow in bulk requests.

* `UsbFrame`, `ScatItem`, `ScatReq` — a frame, an entry, and the request.
* `buildPacketInfo` — the command block; `Cbw.lengths` — what it says.
* `segments`, `sendPacket` — one bulk request, and all of them.
* `queue`, `taken` — what the task does with the frames that wait, and those it takes.
* `sendFrame`, `Task.round` — a batch is sent; a round of the task.
* `BatchRight`, `TaskRight` — **what a round should do**, and what holds between rounds.
* `Sendable` — when it does.
-/

import W2lDriver.Lib.Bytes
import W2lDriver.Lib.Packing
import W2lDriver.Lib.System

namespace W2l.UsbTx

open Lib

/-! ### The request -/

/-- A frame that waits: the length of its descriptor and first part, the lengths of the MSDUs behind it with their
paddings, and where it is. -/
structure UsbFrame where
  frameLen : ℕ
  msdus : List (ℕ × ℕ)
  packet : ℕ
  deriving DecidableEq

/-- `struct amlw_hif_scatter_item`. -/
structure ScatItem where
  len : ℕ
  pageNum : ℕ
  packet : ℕ
  deriving DecidableEq

/-- `struct amlw_hif_scatter_req`. -/
structure ScatReq where
  scatCount : ℕ
  len : BitVec 32
  scatList : ℕ → ScatItem

/-- `amsdu_len`: the frame, then each MSDU with its header of 14 bytes and its padding. -/
def UsbFrame.amsduLen (frame : UsbFrame) : ℕ :=
  frame.msdus.foldl (fun len (msduLen, pad) => len + (msduLen + 14 + pad)) frame.frameLen

/-- The entry of a frame: `ALIGN(amsdu_len, 4)` bytes, one page. -/
def UsbFrame.item (frame : UsbFrame) : ScatItem := ⟨(frame.amsduLen + 3) / 4 * 4, 1, frame.packet⟩

namespace ScatReq

variable (req : ScatReq)

def entries : List ScatItem := (List.range req.scatCount).map req.scatList

/-- `w2_usb_scat_complete`. -/
def scatComplete : ScatReq := { req with scatCount := 0, len := 0 }

/-- What the task does with a frame, at `mpdu_num`. -/
def addFrame (mpduNum : ℕ) (item : ScatItem) : ScatReq where
  scatList := Function.update req.scatList mpduNum item
  scatCount := req.scatCount + 1
  len := req.len + BitVec.ofNat 32 item.len

end ScatReq

/-! ### The command block -/

/-- `struct crg_msc_cbw`. -/
structure Cbw where
  sig : BitVec 32
  tag : BitVec 32
  dataLen : BitVec 32
  flag : Byte
  lun : Byte
  len : Byte
  cdb0 : BitVec 32
  cdb1 : BitVec 32
  cdb2 : BitVec 32
  cdb3 : BitVec 32
  resv : ℕ → Byte

/-- `buffer_size[i] | buffer_size[i + 1] << 16`. -/
def word (low high : BitVec 16) : BitVec 32 := low.setWidth 32 ||| high.setWidth 32 <<< 16

def cmdWritePacket : BitVec 16 := 0xc7

def lengthBytes (v : BitVec 16) : List Byte := [v.extractLsb' 0 8, v.extractLsb' 8 8]

/-- `aml_usb_build_tx_packet_info`. The lengths from the fifteenth on go into `resv`. -/
def buildPacketInfo (cbw : Cbw) (packetNum : ℕ) (sizes : List (BitVec 16)) : Cbw where
  sig := word (sizes.getD 0 0) (sizes.getD 1 0)
  tag := word (sizes.getD 2 0) (sizes.getD 3 0)
  dataLen := word (sizes.getD 4 0) (sizes.getD 5 0)
  flag := BitVec.ofNat 8 packetNum
  len := (sizes.getD 13 0).extractLsb' 0 8
  lun := (sizes.getD 13 0).extractLsb' 8 8
  cdb0 := word cmdWritePacket (sizes.getD 12 0)
  cdb1 := word (sizes.getD 6 0) (sizes.getD 7 0)
  cdb2 := word (sizes.getD 8 0) (sizes.getD 9 0)
  cdb3 := word (sizes.getD 10 0) (sizes.getD 11 0)
  resv := write cbw.resv 0 ((sizes.drop 14).flatMap lengthBytes)

def Cbw.words (cbw : Cbw) : List (BitVec 32) := [cbw.sig, cbw.tag, cbw.dataLen, cbw.cdb1, cbw.cdb2, cbw.cdb3]

def Cbw.length (cbw : Cbw) (i : ℕ) : BitVec 16 :=
  if i < 12 then (cbw.words.getD (i / 2) 0).extractLsb' (16 * (i % 2)) 16
  else if i = 12 then cbw.cdb0.extractLsb' 16 16
  else if i = 13 then cbw.lun ++ cbw.len
  else cbw.resv (2 * (i - 14) + 1) ++ cbw.resv (2 * (i - 14))

/-- **What a block says**: the number of packets, and their lengths. -/
def Cbw.lengths (cbw : Cbw) : List (BitVec 16) := (List.range cbw.flag.toNat).map cbw.length

/-- The number of `buffer_size`. -/
def bufferSizes : ℕ := 128

/-- `USB_TXCMD_CARRY_RXRD_INDEX`. -/
def carryRxrdIndex : ℕ := 401

/-! ### The bulk requests -/

def maxsgSize : ℕ := 160

/-- A segment: address and length. -/
structure Segment where
  packet : ℕ
  len : ℕ
  deriving DecidableEq

/-- `sg_set_buf`. -/
def ScatItem.segment (item : ScatItem) : Segment := ⟨item.packet, item.len⟩

def segments : List ScatItem → (sgCount : ℕ) → List Segment × List ScatItem
  | [], _ => ([], [])
  | item :: rest, sgCount =>
    if (maxsgSize : ℤ) - item.pageNum < sgCount then ([], item :: rest)
    else if item.pageNum = 1 then
      (item.segment :: (segments rest (sgCount + 1)).1, (segments rest (sgCount + 1)).2)
    else segments rest sgCount

/-- What a request comes to: `usb_sg_init` and the status behind `usb_sg_wait`. -/
structure SgResult where
  init : Int
  status : Int

def SgResult.failed (r : SgResult) : Bool := decide (r.init ≠ 0) || decide (r.status ≠ 0)

/-- `w2_usb_send_packet`: the requests, and whether one fails; `none` when the fuel is out. -/
def sendPacket (respond : ℕ → SgResult) : ℕ → List ScatItem → ℕ → Option (List (List Segment) × Bool)
  | _, [], _ => some ([], false)
  | 0, _ :: _, _ => none
  | fuel + 1, item :: rest, n =>
    let (sg, left) := segments (item :: rest) 0
    if (respond n).failed then some ([sg], true)
    else (sendPacket respond fuel left (n + 1)).map fun (requests, failed) => (sg :: requests, failed)

/-! ### A round of the task -/

/-- The task between rounds. -/
structure Task where
  req : ScatReq
  mpduNum : ℕ
  totPageNum : ℕ
  cbw : Cbw

/-- What a round meets: the frames that wait, the free pages when each is looked at, `tx_page_once`, an error or a reset
of the bus, and what the command and the bulk requests come to. -/
structure Round where
  waiting : List UsbFrame
  txPageFreeNum : ℕ → ℕ
  txPageOnce : ℕ
  busErr : Bool
  command : Int
  respond : ℕ → SgResult

/-- The loop over the frames that wait; `k` counts them. -/
def Task.queue (r : Round) : List UsbFrame → (k : ℕ) → Task → Task
  | [], _, task => task
  | frame :: rest, k, task =>
    if 1 + 1 ≤ r.txPageFreeNum k ∧ (task.totPageNum + 1 ≤ r.txPageOnce ∨ task.totPageNum = 0) then
      Task.queue r rest (k + 1)
        { task with
          req := task.req.addFrame task.mpduNum frame.item
          mpduNum := task.mpduNum + 1
          totPageNum := task.totPageNum + 1 }
    else task

/-- What a call of `w2_usb_send_frame` leaves: the task, the block if there is one, the bulk requests, whether one of
them fails, and what it returns. -/
structure Sent where
  task : Task
  block : Option Cbw := none
  requests : List (List Segment) := []
  failed : Bool := false
  ret : Int := 0

/-- `w2_usb_send_frame`; it returns at once if the command fails. -/
def Task.sendFrame (r : Round) (task : Task) : Option Sent :=
  if r.busErr then some { task := { task with req := task.req.scatComplete } }
  else
    let entries := task.req.entries
    let cbw := buildPacketInfo task.cbw task.req.scatCount (entries.map fun item => BitVec.ofNat 16 item.len)
    if r.command ≠ 0 then some { task := { task with cbw }, block := some cbw, ret := 1 }
    else
      let cleared := { cbw with resv := write cbw.resv carryRxrdIndex (List.replicate 8 0) }
      (sendPacket r.respond entries.length entries 0).map fun (requests, failed) =>
        { task := { task with req := task.req.scatComplete, cbw := cleared }, block := some cbw, requests, failed }

/-- A round: the frames are put into the request, and it is sent if there is any. -/
def Task.round (r : Round) (task : Task) : Option Sent :=
  let queued := Task.queue r r.waiting 0 task
  if queued.totPageNum = 0 then some { task := queued }
  else
    (queued.sendFrame r).map fun sent => { sent with task := { sent.task with mpduNum := 0, totPageNum := 0 } }

/-! ### The property -/

/-- The frames that a round takes: as long as there is a page besides its own, and the batch is not full. -/
def taken (r : Round) : List UsbFrame → (k : ℕ) → List UsbFrame
  | [], _ => []
  | frame :: rest, k =>
    if 2 ≤ r.txPageFreeNum k ∧ (k + 1 ≤ r.txPageOnce ∨ k = 0) then frame :: taken r rest (k + 1) else []

def Round.batch (r : Round) : List ScatItem := (taken r r.waiting 0).map UsbFrame.item

/-- **What a round should do.** -/
structure BatchRight (r : Round) (sent : Sent) : Prop where
  announced : ∀ cbw, sent.block = some cbw → cbw.lengths.map BitVec.toNat = r.batch.map ScatItem.len
  inside : ∀ cbw, sent.block = some cbw → r.batch.length ≤ bufferSizes ∧
    ∀ j < r.batch.length, 2 * (j - 14) + 1 < carryRxrdIndex
  inOrder : sent.requests.flatten <+: r.batch.map ScatItem.segment
  all : sent.block.isSome = true → sent.ret = 0 → sent.failed = false →
    sent.requests.flatten = r.batch.map ScatItem.segment
  limits : ∀ sg ∈ sent.requests, sg.length ≤ maxsgSize
  reset : sent.task.req.scatCount = 0 ∧ sent.task.req.len = 0 ∧ sent.task.mpduNum = 0 ∧ sent.task.totPageNum = 0

/-- The task, and what its rounds have left. -/
structure Run where
  task : Task
  rounds : List (Round × Sent)

/-- **What holds between rounds.** -/
def TaskRight (s : Run) : Prop := ∀ r sent, (r, sent) ∈ s.rounds → BatchRight r sent

def Task.start : Task where
  req := ⟨0, 0, fun _ => ⟨0, 0, 0⟩⟩
  mpduNum := 0
  totPageNum := 0
  cbw := ⟨0, 0, 0, 0, 0, 0, 0, 0, 0, 0, fun _ => 0⟩

def Rounds : System Run Round where
  init := ⟨.start, []⟩
  step s r := (s.task.round r).map fun sent => ⟨sent.task, s.rounds ++ [(r, sent)]⟩

/-! ### When it does -/

def maxSgEntries : ℕ := 162

/-- **When a round does what it should**: the scatter request has room for the frames it takes; and unless the bus is in
error, or none is taken, there are sizes for all of them, each length has 16 bits, and the command does not fail. -/
def Sendable (r : Round) : Prop :=
  r.batch.length ≤ maxSgEntries ∧ (r.busErr = true ∨ r.batch = [] ∨
      r.batch.length ≤ bufferSizes ∧ (∀ item ∈ r.batch, item.len < 65536) ∧ r.command = 0)

end W2l.UsbTx
