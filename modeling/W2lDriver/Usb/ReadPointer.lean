/-
**The USB read pointer.**

`aml_trigger_rst_rxd` (`fullmac/aml_rx.c`, on USB) hands the RX read position to the firmware: it puts it into
bytes 401..408 of `g_cmd_buf->resv`, without the bus lock, for the next write-packet command, or writes it to
`CMD_DOWN_FIFO_FDH_ADDR`. `w2_usb_send_frame`, `auc_write_sram_by_ep` (`aml_bus/w2_usb.c`) fill the same
block under the lock.

* `UsbHw` — the block, the call of `aml_trigger_rst_rxd`, the command that holds the lock, and what the
  firmware was given.
* `UsbHw.trigger`, `UsbHw.triggerGoOn` — the RX side, byte after byte.
* `UsbHw.lockFrame`, `UsbHw.lockSram`, `UsbHw.busGoOn` — the commands, cut at their bulk messages.
* `HandOff` — **the last position arrives or waits**, in order and whole.
-/

import W2lDriver.Lib.Bytes
import W2lDriver.Lib.System

namespace W2l.Usb

open Lib (System Byte slice write le32 ofLe32)

/-- `USB_TXCMD_CARRY_RXRD_START_INDEX`. -/
def carryRxrdIndex : ℕ := 401

def updateFlag : BitVec 32 := 0x11223344

def cmdDownFifoFdhAddr : BitVec 32 := 0xa10038

def writeSramDataLen : ℕ := 477

/-- What `aml_trigger_rst_rxd` puts into the block. -/
def positionBytes (addr : BitVec 32) : List Byte := le32 updateFlag ++ le32 addr

/-- What the firmware reads in a write-packet command. -/
def carried (bytes : List Byte) : Option (BitVec 32) :=
  if bytes.take 4 = le32 updateFlag then some (ofLe32 (bytes.drop 4)) else none

/-- What `aml_trigger_rst_rxd` finds in `aml_hw`. -/
structure RxWindow where
  /-- `BUFFER_STATUS`, `FW_BUFFER_NARROW`. -/
  bufferStatus : Bool := false
  fwBufferNarrow : Bool := true
  recvPktLen : ℕ := 0
  rxBufLen : ℕ := 0x15000

/-- Whether the position is carried by a write-packet command. -/
def RxWindow.carries (w : RxWindow) (rxNeedUpdate : BitVec 8) (addr : BitVec 32) : Bool :=
  !w.bufferStatus && addr &&& 0x1e000000 == 0 && w.fwBufferNarrow && decide (rxNeedUpdate < 2) &&
    decide (w.recvPktLen < w.rxBufLen / 4)

/-- A call of `aml_trigger_rst_rxd`: storing byte `i`, behind the test for the bus errors, in
`auc_write_sram_by_ep`. -/
inductive TriggerCall
  | idle
  | storing (i : ℕ) (addr : BitVec 32)
  | waiting (addr : BitVec 32)
  | writing
  deriving DecidableEq

/-- A call of `auc_write_sram_by_ep`, of the RX side or another. -/
structure SramWrite where
  addr : BitVec 32
  data : List Byte
  byRx : Bool
  deriving DecidableEq

/-- Where it is: the command, with the data in it or not, the data, the bytes it clears. -/
inductive SramStage
  | command (withData : Bool)
  | data
  | clear (i : ℕ)
  deriving DecidableEq

/-- What holds the bus lock. -/
inductive BusCmd
  | free
  | frame
  | frameClear (i : ℕ)
  | sram (w : SramWrite) (stage : SramStage)
  | header
  deriving DecidableEq

/-- A bulk message: what `auc_bulk_msg` says, and whether it arrived although it failed. -/
structure Bulk where
  ok : Bool := true
  late : Bool := false

def Bulk.arrives (b : Bulk) : Bool := b.ok || b.late

/-- A position that the firmware was given, and which of those handed it was. -/
structure Delivery where
  number : Option ℕ
  addr : BitVec 32
  deriving DecidableEq

/-- **The USB side.** -/
structure UsbHw where
  resv : ℕ → Byte := fun _ => 0
  rxNeedUpdate : BitVec 8 := 0
  lastAddr : BitVec 32 := 0
  coexFlag : Bool := false
  trigger : TriggerCall := .idle
  bus : BusCmd := .free
  /-- The positions handed to `aml_trigger_rst_rxd`. -/
  handed : ℕ := 0
  position : ℕ → BitVec 32 := fun _ => 0
  /-- The one that was put into the block last. -/
  slot : Option ℕ := none
  /-- What the firmware was given, the last first. -/
  delivered : List Delivery := []
  /-- Write-packet commands with neither a position nor zeros. -/
  garbled : ℕ := 0

namespace UsbHw

variable (s : UsbHw)

def block : List Byte := slice s.resv carryRxrdIndex 8

/-! ### `aml_trigger_rst_rxd` -/

/-- A new position. -/
def hand (addr : BitVec 32) : UsbHw :=
  { s with
    rxNeedUpdate := s.rxNeedUpdate + 1
    lastAddr := addr
    handed := s.handed + 1
    position := Function.update s.position s.handed addr }

/-- **`aml_trigger_rst_rxd`** decides how the position goes. -/
def triggerRstRxd (w : RxWindow) (addr : BitVec 32) : UsbHw :=
  if s.lastAddr = addr then s
  else if w.carries (s.rxNeedUpdate + 1) addr then { s.hand addr with trigger := .storing 0 addr }
  else { s.hand addr with trigger := .waiting addr }

/-- `auc_write_sram_by_ep` has the lock and builds its command. -/
def lockSram (w : SramWrite) : UsbHw :=
  if s.coexFlag && w.data.length < writeSramDataLen then
    { s with
      resv := write (write s.resv 1 w.data) 479 [0xff, 0xff]
      bus := .sram w (.command true) }
  else { s with bus := .sram w (.command false) }

/-- The call goes on. -/
def triggerGoOn (busErr : Bool) : UsbHw :=
  match s.trigger with
  | .idle => s
  | .storing i addr =>
    match (positionBytes addr)[i]? with
    | some b =>
      { s with
        resv := write s.resv (carryRxrdIndex + i) [b]
        trigger := .storing (i + 1) addr }
    | none =>
      { s with
        slot := some (s.handed - 1)
        trigger := .idle }
  | .waiting addr =>
    if busErr then { s with trigger := .idle }
    else if s.bus = .free then
      { s.lockSram ⟨cmdDownFifoFdhAddr, le32 1 ++ le32 addr, true⟩ with trigger := .writing }
    else s
  | .writing => s

/-! ### The commands -/

/-- `w2_usb_send_frame` has the lock and builds its command with `aml_usb_build_tx_packet_info`: the sizes
from the fifteenth on go into the block. -/
def lockFrame (sizes : List (BitVec 16)) : UsbHw :=
  { s with
    resv := write s.resv 0 ((sizes.drop 14).flatMap fun v => [v.extractLsb' 0 8, v.extractLsb' 8 8])
    rxNeedUpdate := 0
    bus := .frame }

def deliver (number : Option ℕ) (addr : BitVec 32) : UsbHw :=
  { s with delivered := ⟨number, addr⟩ :: s.delivered }

def mark : UsbHw :=
  if s.block = List.replicate 8 0 ∨ s.block ∈ (List.range s.handed).map fun n => positionBytes (s.position n) then s
  else { s with garbled := s.garbled + 1 }

/-- The write-packet command is sent with what the block holds. -/
def carry (b : Bulk) : UsbHw :=
  if b.arrives then
    match carried s.block with
    | some addr => s.mark.deliver s.slot addr
    | none => s.mark
  else s.mark

/-- The data of `auc_write_sram_by_ep` is sent. -/
def sramArrives (w : SramWrite) (b : Bulk) : UsbHw :=
  if b.arrives && w.addr == cmdDownFifoFdhAddr then
    s.deliver (if w.byRx then some (s.handed - 1) else none) (ofLe32 (w.data.drop 4))
  else s

/-- `auc_write_sram_by_ep` returns. -/
def release (w : SramWrite) : UsbHw :=
  { s with
    bus := .free
    trigger := if w.byRx then .idle else s.trigger }

/-- Behind its messages `auc_write_sram_by_ep` clears the block if it wrote the position. -/
def sramDone (w : SramWrite) : UsbHw :=
  if w.addr = cmdDownFifoFdhAddr then
    { s with
      rxNeedUpdate := 0
      bus := .sram w (.clear 0) }
  else s.release w

/-- **The command goes on.** -/
def busGoOn (b : Bulk) (kmalloc : Bool) : UsbHw :=
  match s.bus with
  | .free => s
  | .frame => if b.ok then { s.carry b with bus := .frameClear 0 } else { s.carry b with bus := .free }
  | .frameClear i =>
    if i < 8 then
      { s with
        resv := write s.resv (carryRxrdIndex + i) [0]
        bus := .frameClear (i + 1) }
    else { s with bus := .free }
  | .sram w (.command true) =>
    let s := s.sramArrives w b
    if b.ok then { s with resv := write s.resv 479 [0, 0] }.sramDone w else s.release w
  | .sram w (.command false) =>
    if b.ok && kmalloc then { s with bus := .sram w .data } else s.release w
  | .sram w .data => if b.ok then (s.sramArrives w b).sramDone w else (s.sramArrives w b).release w
  | .sram w (.clear i) =>
    if i < 8 then
      { s with
        resv := write s.resv (carryRxrdIndex + i) [0]
        bus := .sram w (.clear (i + 1)) }
    else s.release w
  | .header => { s with bus := .free }

end UsbHw

/-- What happens. -/
inductive UsbAct
  | triggerRstRxd (w : RxWindow) (addr : BitVec 32)
  | triggerGoOn (busErr : Bool)
  | sendFrame (sizes : List (BitVec 16)) (busErr : Bool)
  | writeSram (addr : BitVec 32) (data : List Byte)
  | header
  | busGoOn (b : Bulk) (kmalloc : Bool)
  | setCoexFlag (coexFlag : Bool)

/-- **What happens.** The commands wait for the lock; only `aml_trigger_rst_rxd` writes to
`CMD_DOWN_FIFO_FDH_ADDR`. -/
def UsbHw.act (s : UsbHw) : UsbAct → Option UsbHw
  | .triggerRstRxd w addr => if s.trigger = .idle then some (s.triggerRstRxd w addr) else none
  | .triggerGoOn busErr => some (s.triggerGoOn busErr)
  | .sendFrame sizes busErr =>
    if busErr then some s else if s.bus = .free then some (s.lockFrame sizes) else none
  | .writeSram addr data =>
    if s.bus = .free ∧ addr ≠ cmdDownFifoFdhAddr then some (s.lockSram ⟨addr, data, false⟩) else none
  | .header => if s.bus = .free then some { s with bus := .header } else none
  | .busGoOn b kmalloc => some (s.busGoOn b kmalloc)
  | .setCoexFlag coexFlag => some { s with coexFlag := coexFlag }

def usbSystem : System UsbHw UsbAct where
  init := {}
  step := UsbHw.act

/-- **The read positions arrive.** -/
structure HandOff (s : UsbHw) : Prop where
  /-- The last position was delivered or is whole in the block. -/
  last : s.trigger = .idle → ∀ n, s.handed = n + 1 →
    (∃ d ∈ s.delivered, d.number = some n) ∨ s.block = positionBytes (s.position n)
  genuine : ∀ d ∈ s.delivered, ∃ n < s.handed, d = ⟨some n, s.position n⟩
  order : s.delivered.Pairwise fun new old => ∀ n m, new.number = some n → old.number = some m → m ≤ n
  clean : s.garbled = 0

end W2l.Usb
