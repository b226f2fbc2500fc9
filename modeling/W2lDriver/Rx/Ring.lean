/-
**The RX ring: chunks read out of the firmware's buffer, and its resizing (SDIO and USB).**

`aml_rx.c`, `aml_platform.c`. The interrupt task takes the firmware's write position and its resize
requests (`aml_pci_ack_irq`), reads everything between the old and the new position into a free
`struct rxbuf_list` and queues it for the RX task (`aml_sdio_rxdataind`). A resize takes effect on
the second read after its request (`aml_sdio_dynamic_buffer_check`).

* `RxHw` — positions, bounds, `rx_buf_state`, the nodes and the two lists, the TX pages that change
  hands with the buffer.
* `RingInv` — the invariant: the lists partition the nodes, the old position lies in the ring, and a
  postponed resize leaves it in the part of the ring that stays.
* `fill_right` — a read with the bounds in force brings the bytes of the ring, in order.
-/

import Mathlib.Data.List.Range
import W2lDriver.Cmd.Types
import W2lDriver.Lib.System
import W2lDriver.Lib.Exchange

namespace W2l.Rx

open Cmd (BusType)
open Lib (System)
open BitVec (le_def lt_def toNat_sub_of_le)
open Option (some.inj)
open List (getElem_range' length_range')

/-! ### The shared memory -/

def rxbufStartAddr : BitVec 32 := 0x60013b4c
def sharedMemBaseAddr : BitVec 32 := 0x60000000

/-- `RXBUF_END_ADDR_SMALL`, `USB_RXBUF_END_ADDR_SMALL`. -/
def rxbufEndAddrSmall : BusType → BitVec 32
  | .usb => 0x60029130
  | _ => 0x6001e000

/-- `RXBUF_END_ADDR_LARGE`, `USB_RXBUF_END_ADDR_LARGE` (with `CONFIG_AML_USB_LARGE_PAGE`). -/
def rxbufEndAddrLarge : BusType → BitVec 32
  | .usb => 0x600684b0
  | _ => 0x60053b4c

def rxBufferLenSmall (bus : BusType) : BitVec 32 := rxbufEndAddrSmall bus - rxbufStartAddr
def rxBufferLenLarge (bus : BusType) : BitVec 32 := rxbufEndAddrLarge bus - rxbufStartAddr

def amlWrap : BitVec 32 := 1 <<< 31

/-- `pos & ~AML_WRAP`. -/
def unwrapped (pos : BitVec 32) : BitVec 32 := pos &&& ~~~amlWrap

def rxDescSize : BitVec 32 := 56

/-- `RXBUF_SIZE`, the bytes of one node, and `RXBUF_NUM`. -/
def rxbufSize : Nat := 324 * 1024
def rxbufNum : Nat := 5

/-- `SDIO_TX_PAGE_NUM_*`, `USB_TX_PAGE_NUM_*` and the pages that change hands. -/
def txPageNumSmall : BusType → BitVec 32
  | .usb => 21
  | _ => 115

def txPageNumLarge : BusType → BitVec 32
  | .usb => 77
  | _ => 255

def dynaPageNum : BusType → BitVec 32
  | .usb => 56
  | _ => 140

/-! ### State -/

structure RxbufList where
  rxbuf : Nat → BitVec 8 := fun _ => 0
  firstLen : BitVec 32 := 0
  secondLen : BitVec 32 := 0
  rxBufEnd : BitVec 32 := 0
  rxBufLen : BitVec 32 := 0
  rxbufDataStart : BitVec 32 := 0

/-- The bits of `rx_buf_state`. -/
structure RxBufState where
  narrow : Bool := false
  expand : Bool := false
  updateFlag : Bool := false
  notify : Bool := false
  expendFinsh : Bool := false
  txUsedFlag : Bool := false
  fwNarrow : Bool := false
  fwExpand : Bool := false
  deriving DecidableEq

/-- `rx_buf_state & BUFFER_STATUS`. -/
def RxBufState.status (st : RxBufState) : Bool := st.narrow || st.expand

/-- The firmware's `FW_BUFFER_STATUS` bits, when they changed, are a request. -/
def RxBufState.request (st : RxBufState) (narrow expand : Bool) : RxBufState :=
  if (narrow || expand) && (st.fwNarrow, st.fwExpand) != (narrow, expand) then
    { st with
      fwNarrow := narrow
      fwExpand := expand
      narrow := st.narrow || narrow
      expand := st.expand || !narrow }
  else st

/-- The part of `aml_hw` the RX ring and the dynamic buffer use. -/
structure RxHw where
  busType : BusType
  laEnable : Bool := false
  rxBufState : RxBufState := { fwExpand := true }
  rxBufEnd : BitVec 32
  rxBufLen : BitVec 32
  fwNewPos : BitVec 32 := rxbufStartAddr
  fwBufPos : BitVec 32 := rxbufStartAddr
  rxbufList : Nat → RxbufList := fun _ => {}
  rxbufFreeList : List Nat := List.range rxbufNum
  rxbufUsedList : List Nat := []
  /-- The node `aml_rx_task` works on. -/
  processing : Option Nat := none
  txPageFreeNum : BitVec 32
  txPageTotNum : BitVec 32
  /-- The firmware's buffer. -/
  sram : BitVec 32 → BitVec 8 := fun _ => 0

/-- `aml_rxbuf_list_init` and `aml_tx_rx_buf_init`. -/
def rxInit (bus : BusType) : RxHw where
  busType := bus
  rxBufEnd := rxbufEndAddrLarge bus
  rxBufLen := rxBufferLenLarge bus
  txPageFreeNum := txPageNumSmall bus
  txPageTotNum := txPageNumSmall bus

namespace RxHw

/-- The part of `aml_tx_rx_buf_init` that runs again after a resume or a recovery. -/
def amlTxRxBufInit (hw : RxHw) : RxHw :=
  { hw with
    fwBufPos := rxbufStartAddr
    rxBufEnd := rxbufEndAddrLarge hw.busType
    rxBufLen := rxBufferLenLarge hw.busType
    rxBufState := { fwExpand := true } }

/-- `FW_BUFFER_NARROW`, `FW_BUFFER_EXPAND`, `RX_WRAP_TEMP_FLAG` and `RX_WRAP_FLAG`. -/
def fwBufferNarrow : BitVec 32 := 1 <<< 20
def fwBufferExpand : BitVec 32 := 1 <<< 21
def rxWrapTempFlag : BitVec 32 := 1 <<< 19

/-- The write position in the interrupt word, with the wrap bit in its place. -/
def reportedPos (regVal : BitVec 32) : BitVec 32 :=
  let pos := regVal &&& ~~~(fwBufferNarrow ||| fwBufferExpand)
  (if pos &&& rxWrapTempFlag != 0 then (pos ||| amlWrap) &&& ~~~rxWrapTempFlag else pos) + sharedMemBaseAddr

/-- `aml_pci_ack_irq`: a resize request and the position. -/
def amlPciAckIrq (hw : RxHw) (regVal : BitVec 32) : RxHw :=
  { hw with
    rxBufState := hw.rxBufState.request (regVal &&& fwBufferNarrow != 0) (regVal &&& fwBufferExpand != 0)
    fwNewPos := reportedPos regVal }

/-- The changes `aml_sdio_dynamic_buffer_check` makes to `aml_hw`, and whether it returns before it
copies the bounds to the node. -/
def dynamicBufferCheck (hw : RxHw) : RxHw × Bool :=
  let st := hw.rxBufState
  if st.status && !hw.laEnable then
    if !st.updateFlag then ({ hw with rxBufState := { st with updateFlag := true } }, true)
    else if st.narrow then
      ({ hw with
          rxBufEnd := rxbufEndAddrSmall hw.busType
          rxBufLen := rxBufferLenSmall hw.busType
          rxBufState := { st with narrow := false, expand := false, updateFlag := false,
                                  notify := true } }, false)
    else
      ({ hw with
          rxBufEnd := rxbufEndAddrLarge hw.busType
          rxBufLen := rxBufferLenLarge hw.busType
          rxBufState := { st with narrow := false, expand := false, updateFlag := false,
                                  expendFinsh := true } }, false)
  else (hw, false)

def amlSdioDynamicBufferCheck (hw : RxHw) (n : Nat) : RxHw :=
  let checked := hw.dynamicBufferCheck
  if checked.2 then checked.1
  else
    { checked.1 with
      rxbufList := Function.update checked.1.rxbufList n
        { checked.1.rxbufList n with
          rxBufEnd := checked.1.rxBufEnd, rxBufLen := checked.1.rxBufLen } }

/-- `aml_trigger_rst_rxd`, without the word it writes to the firmware. -/
def amlTriggerRstRxd (hw : RxHw) : RxHw :=
  let st := hw.rxBufState
  let small := rxbufEndAddrSmall hw.busType
  { hw with
    fwNewPos := if st.narrow && small ≤ unwrapped hw.fwNewPos then rxbufStartAddr else hw.fwNewPos
    txPageFreeNum := if st.expand then hw.txPageFreeNum - dynaPageNum hw.busType
      else hw.txPageFreeNum
    txPageTotNum := if st.expand then txPageNumSmall hw.busType
      else if st.narrow then txPageNumLarge hw.busType
      else hw.txPageTotNum
    rxBufState := { st with
      notify := false
      expendFinsh := false
      txUsedFlag := st.txUsedFlag && !st.expendFinsh } }

end RxHw

def hiRxBufferRead (sram : BitVec 32 → BitVec 8) (rxbuf : Nat → BitVec 8) (off : Nat)
    (addr len : BitVec 32) : Nat → BitVec 8 := fun k =>
  if off ≤ k ∧ k < off + len.toNat then sram (addr + BitVec.ofNat 32 (k - off)) else rxbuf k

def circleSubtract (a b l : BitVec 32) : BitVec 32 := if b ≤ a then a - b else l + a - b

/-- The reads of `aml_sdio_rxdataind`, with the bounds the node has. -/
def fill (sram : BitVec 32 → BitVec 8) (fwBufPos fwNewPos : BitVec 32) (c : RxbufList) : RxbufList :=
  if fwBufPos < fwNewPos then
    let needLen := circleSubtract fwNewPos fwBufPos c.rxBufLen
    { c with
      rxbufDataStart := fwBufPos
      rxbuf := hiRxBufferRead sram c.rxbuf 0 fwBufPos needLen
      firstLen := needLen
      secondLen := 0 }
  else if c.rxBufEnd - fwBufPos < rxDescSize then
    { c with
      rxbufDataStart := if rxbufStartAddr < fwNewPos then rxbufStartAddr else fwBufPos
      rxbuf := if rxbufStartAddr < fwNewPos
        then hiRxBufferRead sram c.rxbuf 0 rxbufStartAddr (fwNewPos - rxbufStartAddr) else c.rxbuf
      firstLen := 0
      secondLen := fwNewPos - rxbufStartAddr }
  else
    let head := hiRxBufferRead sram c.rxbuf 0 fwBufPos (c.rxBufEnd - fwBufPos)
    { c with
      rxbufDataStart := fwBufPos
      rxbuf := if rxbufStartAddr < fwNewPos
        then hiRxBufferRead sram head (c.rxBufEnd - fwBufPos).toNat rxbufStartAddr
          (fwNewPos - rxbufStartAddr) else head
      firstLen := c.rxBufEnd - fwBufPos
      secondLen := fwNewPos - rxbufStartAddr }

namespace RxHw

/-- `aml_sdio_rxdataind` with node `n`, the first of the free list. -/
def readChunk (hw : RxHw) (n : Nat) (rest : List Nat) : RxHw :=
  let checked := { hw with rxbufFreeList := rest }.amlSdioDynamicBufferCheck n
  let triggered := { checked with
    rxbufList := Function.update checked.rxbufList n
      (fill hw.sram (unwrapped hw.fwBufPos) (unwrapped hw.fwNewPos) (checked.rxbufList n))
    rxbufUsedList := checked.rxbufUsedList ++ [n] }.amlTriggerRstRxd
  { triggered with fwBufPos := triggered.fwNewPos }

/-- `aml_sdio_rxdataind`; it waits while the free list is empty. -/
def amlSdioRxdataind (hw : RxHw) : Option RxHw :=
  match hw.rxbufFreeList with
  | [] => none
  | n :: rest => if hw.fwBufPos ≠ hw.fwNewPos then some (hw.readChunk n rest) else some hw

/-- `aml_get_rxbuf_list_from_used_list` in `aml_rx_task`. -/
def takeUsed (hw : RxHw) : Option RxHw :=
  match hw.processing, hw.rxbufUsedList with
  | none, n :: rest => some { hw with rxbufUsedList := rest, processing := some n }
  | _, _ => none

/-- The end of the loop of `aml_rx_task`: the node goes back. -/
def putFree (hw : RxHw) : Option RxHw :=
  match hw.processing with
  | some n => some { hw with processing := none, rxbufFreeList := hw.rxbufFreeList ++ [n] }
  | none => none

end RxHw

/-- One step of the interrupt task, the RX task, the firmware or the user. -/
inductive RingAct
  | ackIrq (regVal : BitVec 32)
  | rxdataind
  | takeUsed
  | putFree
  | setLaEnable (on : Bool)
  | fwWrite (sram : BitVec 32 → BitVec 8)
  | bufInit

def RxHw.step (hw : RxHw) : RingAct → Option RxHw
  | .ackIrq regVal => some (hw.amlPciAckIrq regVal)
  | .rxdataind => hw.amlSdioRxdataind
  | .takeUsed => hw.takeUsed
  | .putFree => hw.putFree
  | .setLaEnable on => some { hw with laEnable := on }
  | .fwWrite sram => some { hw with sram := sram }
  | .bufInit => some hw.amlTxRxBufInit

def ringSystem (bus : BusType) : System RxHw RingAct where
  init := rxInit bus
  step := RxHw.step

/-! ### What a chunk has to be -/

/-- The bytes from the old to the new position, past the end of the ring back to its start; the two
positions are the same when the ring is full. -/
def circularDistance (old new last : Nat) : Nat :=
  if old < new then new - old else (last - old) + (new - rxbufStartAddr.toNat)

def skippedTail (old new last : Nat) : Nat :=
  if old < new then 0 else if last - old < rxDescSize.toNat then last - old else 0

/-- The addresses of the bytes of a chunk, in order. -/
def ringSpan (old new last : Nat) : List Nat :=
  if old < new then List.range' old (new - old)
  else
    (if last - old < rxDescSize.toNat then [] else List.range' old (last - old)) ++
      List.range' rxbufStartAddr.toNat (new - rxbufStartAddr.toNat)

theorem ringSpan_length (old new last : Nat) :
    (ringSpan old new last).length = circularDistance old new last - skippedTail old new last := by
  unfold ringSpan circularDistance skippedTail
  split
  · simp
  · split
    · rw [List.nil_append, length_range']
      omega
    · rw [List.length_append, length_range', length_range']
      omega

def RxHw.inForce (hw : RxHw) : BitVec 32 × BitVec 32 :=
  (hw.dynamicBufferCheck.1.rxBufEnd, hw.dynamicBufferCheck.1.rxBufLen)

def RxHw.span (hw : RxHw) : List Nat :=
  ringSpan (unwrapped hw.fwBufPos).toNat (unwrapped hw.fwNewPos).toNat hw.inForce.1.toNat

/-- **A chunk that holds the bytes of the ring** and the bounds they were written under. -/
structure ChunkRight (hw : RxHw) (c : RxbufList) : Prop where
  length : c.firstLen.toNat + c.secondLen.toNat =
    circularDistance (unwrapped hw.fwBufPos).toNat (unwrapped hw.fwNewPos).toNat hw.inForce.1.toNat -
      skippedTail (unwrapped hw.fwBufPos).toNat (unwrapped hw.fwNewPos).toNat hw.inForce.1.toNat
  bytes : ∀ k (inside : k < hw.span.length), c.rxbuf k = hw.sram (BitVec.ofNat 32 hw.span[k])
  fits : c.firstLen.toNat + c.secondLen.toNat ≤ rxbufSize
  bounds : (c.rxBufEnd, c.rxBufLen) = hw.inForce

variable {sram : BitVec 32 → BitVec 8}

theorem hiRxBufferRead_inside {rxbuf : Nat → BitVec 8}
    {off : Nat} {addr len : BitVec 32} {k : Nat} (inside : k < len.toNat) :
    hiRxBufferRead sram rxbuf off addr len (off + k) = sram (BitVec.ofNat 32 (addr.toNat + k)) := by
  unfold hiRxBufferRead
  rw [if_pos ⟨Nat.le_add_right _ _, Nat.add_lt_add_left inside off⟩, Nat.add_sub_cancel_left,
    BitVec.ofNat_add, BitVec.ofNat_toNat, BitVec.setWidth_eq]

theorem hiRxBufferRead_outside {rxbuf : Nat → BitVec 8}
    {off : Nat} {addr len : BitVec 32} {k : Nat} (before : k < off) :
    hiRxBufferRead sram rxbuf off addr len k = rxbuf k := by
  unfold hiRxBufferRead
  rw [if_neg]
  omega

theorem fill_right {old new : BitVec 32} {c : RxbufList}
    (oldHigh : old ≤ c.rxBufEnd) (newLow : rxbufStartAddr ≤ new) :
    let span := ringSpan old.toNat new.toNat c.rxBufEnd.toNat
    (fill sram old new c).firstLen.toNat + (fill sram old new c).secondLen.toNat = span.length ∧
      ∀ k (inside : k < span.length), (fill sram old new c).rxbuf k = sram (BitVec.ofNat 32 span[k]) := by
  rw [le_def] at oldHigh newLow
  have tail : (c.rxBufEnd - old).toNat = c.rxBufEnd.toNat - old.toNat :=
    toNat_sub_of_le oldHigh
  have front : (new - rxbufStartAddr).toNat = new.toNat - rxbufStartAddr.toNat :=
    toNat_sub_of_le newLow
  unfold fill ringSpan
  by_cases ahead : old < new
  · have ahead' : old.toNat < new.toNat := lt_def.mp ahead
    have need : (circleSubtract new old c.rxBufLen).toNat = new.toNat - old.toNat := by
      rw [circleSubtract, if_pos (le_def.mpr ahead'.le)]
      exact toNat_sub_of_le ahead'.le
    rw [if_pos ahead, if_pos ahead']
    refine ⟨by simp [need], fun k inside => ?_⟩
    rw [length_range'] at inside
    rw [getElem_range', Nat.one_mul]
    simpa using @hiRxBufferRead_inside _ _ 0 _ _ k (by rw [need]; exact inside)
  · have behind : ¬ old.toNat < new.toNat := fun less => ahead (lt_def.mpr less)
    rw [if_neg ahead, if_neg behind]
    by_cases short : c.rxBufEnd - old < rxDescSize
    · have short' : c.rxBufEnd.toNat - old.toNat < rxDescSize.toNat :=
        tail ▸ lt_def.mp short
      rw [if_pos short, if_pos short', List.nil_append]
      refine ⟨by simp [front], fun k inside => ?_⟩
      rw [length_range'] at inside
      have past : rxbufStartAddr < new := by
        rw [lt_def]
        omega
      rw [getElem_range', Nat.one_mul, if_pos past]
      simpa using @hiRxBufferRead_inside _ _ 0 _ _ k (by rw [front]; exact inside)
    · have short' : ¬ c.rxBufEnd.toNat - old.toNat < rxDescSize.toNat := fun less =>
        short (lt_def.mpr (tail ▸ less))
      rw [if_neg short, if_neg short']
      refine ⟨by simp [front, tail], fun k inside => ?_⟩
      rw [List.length_append, length_range', length_range'] at inside
      by_cases first : k < c.rxBufEnd.toNat - old.toNat
      · rw [List.getElem_append_left (by simpa using first), getElem_range', Nat.one_mul]
        have head := @hiRxBufferRead_inside sram c.rxbuf 0 old (c.rxBufEnd - old) k (by rw [tail]; exact first)
        rw [Nat.zero_add] at head
        refine Eq.trans ?_ head
        split
        · exact hiRxBufferRead_outside (by rw [tail]; exact first)
        · rfl
      · have past : rxbufStartAddr < new := by
          rw [lt_def]
          omega
        rw [List.getElem_append_right (by simpa using first), getElem_range', Nat.one_mul, length_range']
        have back := @hiRxBufferRead_inside sram
          (hiRxBufferRead sram c.rxbuf 0 old (c.rxBufEnd - old)) (c.rxBufEnd - old).toNat
          rxbufStartAddr (new - rxbufStartAddr) (k - (c.rxBufEnd.toNat - old.toNat))
          (by rw [front]; omega)
        rw [tail, Nat.add_sub_cancel' (Nat.le_of_not_lt first)] at back
        simp only [if_pos past, tail]
        exact back

/-! ### The invariant -/

def RxHw.Large (hw : RxHw) : Prop :=
  hw.rxBufEnd = rxbufEndAddrLarge hw.busType ∧ hw.rxBufLen = rxBufferLenLarge hw.busType

/-- The ring without the part that goes to the TX pages. -/
def RxHw.Small (hw : RxHw) : Prop :=
  hw.rxBufEnd = rxbufEndAddrSmall hw.busType ∧ hw.rxBufLen = rxBufferLenSmall hw.busType

/-- What holds even inside a read. -/
structure RingBase (hw : RxHw) : Prop where
  partition : (hw.rxbufFreeList ++ (hw.rxbufUsedList ++ hw.processing.toList)).Perm (List.range rxbufNum)
  ring : hw.Large ∨ hw.Small
  low : rxbufStartAddr ≤ unwrapped hw.fwBufPos
  high : unwrapped hw.fwBufPos ≤ hw.rxBufEnd
  /-- Only a pending resize is postponed. -/
  pending : hw.rxBufState.updateFlag = true → hw.rxBufState.status = true
  /-- The firmware asks a large ring to become narrow, and a small one to expand. -/
  largeFw : hw.Large → hw.rxBufState.narrow = false → hw.rxBufState.fwNarrow = false ∧ hw.rxBufState.fwExpand = true
  expandFw : hw.rxBufState.expand = true → hw.rxBufState.narrow = false →
    hw.Small ∧ hw.rxBufState.fwNarrow = false ∧ hw.rxBufState.fwExpand = true

/-- What holds between two steps: a postponed resize left the old position in the part of the ring
that stays. -/
structure RingInv (hw : RxHw) : Prop extends RingBase hw where
  postponed : hw.rxBufState.updateFlag = true → unwrapped hw.fwBufPos ≤ rxbufEndAddrSmall hw.busType

variable (bus : BusType)

theorem small_le_large : rxbufEndAddrSmall bus ≤ rxbufEndAddrLarge bus := by
  cases bus <;> decide

theorem start_le_small : rxbufStartAddr ≤ rxbufEndAddrSmall bus := by
  cases bus <;> decide

theorem small_ne_large : rxbufEndAddrSmall bus ≠ rxbufEndAddrLarge bus := by
  cases bus <;> decide

theorem unwrapped_start : unwrapped rxbufStartAddr = rxbufStartAddr := by decide

theorem not_large_of_small {hw : RxHw} (small : hw.Small) : ¬ hw.Large := fun large =>
  small_ne_large hw.busType (small.1.symm.trans large.1)

theorem RingBase.small_le {hw : RxHw} (inv : RingBase hw) : rxbufEndAddrSmall hw.busType ≤ hw.rxBufEnd := by
  rcases inv.ring with large | small
  · rw [large.1]
    exact small_le_large hw.busType
  · rw [small.1]
    exact BitVec.le_refl _

theorem ringInv_init : RingInv (rxInit bus) where
  partition := by simp [rxInit]
  ring := .inl ⟨rfl, rfl⟩
  low := by
    show rxbufStartAddr ≤ unwrapped rxbufStartAddr
    rw [unwrapped_start]
    exact BitVec.le_refl _
  high := by
    show unwrapped rxbufStartAddr ≤ rxbufEndAddrLarge bus
    rw [unwrapped_start]
    exact BitVec.le_trans (start_le_small bus) (small_le_large bus)
  pending update := by cases update
  largeFw _ _ := ⟨rfl, rfl⟩
  expandFw expand := by cases expand
  postponed update := by cases update

namespace RingInv

variable {hw : RxHw}

section

variable (inv : RingInv hw)

include inv

theorem bufInit : RingInv hw.amlTxRxBufInit where
  partition := inv.partition
  ring := .inl ⟨rfl, rfl⟩
  low := (ringInv_init hw.busType).low
  high := (ringInv_init hw.busType).high
  pending update := by cases update
  largeFw _ _ := ⟨rfl, rfl⟩
  expandFw expand := by cases expand
  postponed update := by cases update

theorem frame {hw' : RxHw} (busType : hw'.busType = hw.busType)
    (lists : (hw'.rxbufFreeList ++ (hw'.rxbufUsedList ++ hw'.processing.toList)).Perm
      (hw.rxbufFreeList ++ (hw.rxbufUsedList ++ hw.processing.toList)))
    (rxBufEnd : hw'.rxBufEnd = hw.rxBufEnd) (rxBufLen : hw'.rxBufLen = hw.rxBufLen)
    (fwBufPos : hw'.fwBufPos = hw.fwBufPos) (rxBufState : hw'.rxBufState = hw.rxBufState) :
    RingInv hw' := by
  have large : hw'.Large ↔ hw.Large := by rw [RxHw.Large, RxHw.Large, rxBufEnd, rxBufLen, busType]
  have small : hw'.Small ↔ hw.Small := by rw [RxHw.Small, RxHw.Small, rxBufEnd, rxBufLen, busType]
  constructor
  case toRingBase =>
    constructor
    case partition => exact lists.trans inv.partition
    case ring => exact (or_congr large small).mpr inv.ring
    case low => exact fwBufPos ▸ inv.low
    case high => exact fwBufPos ▸ rxBufEnd ▸ inv.high
    case pending => exact rxBufState ▸ inv.pending
    case largeFw => rw [large, rxBufState]; exact inv.largeFw
    case expandFw => rw [small, rxBufState]; exact inv.expandFw
  case postponed =>
    rw [rxBufState, fwBufPos, busType]
    exact inv.postponed

theorem ackIrq (regVal : BitVec 32) : RingInv (hw.amlPciAckIrq regVal) := by
  unfold RxHw.amlPciAckIrq
  generalize (regVal &&& RxHw.fwBufferNarrow != 0) = narrow, (regVal &&& RxHw.fwBufferExpand != 0) = expand
  by_cases asks : ((narrow || expand) &&
      (hw.rxBufState.fwNarrow, hw.rxBufState.fwExpand) != (narrow, expand)) = true
  · have request : hw.rxBufState.request narrow expand =
        { hw.rxBufState with
          fwNarrow := narrow
          fwExpand := expand
          narrow := hw.rxBufState.narrow || narrow
          expand := hw.rxBufState.expand || !narrow } := if_pos asks
    rw [request]
    have differs : (narrow = true ∨ expand = true) ∧
        ¬ (hw.rxBufState.fwNarrow = narrow ∧ hw.rxBufState.fwExpand = expand) := by
      simpa using asks
    constructor
    case toRingBase =>
      constructor
      case partition => exact inv.partition
      case ring => exact inv.ring
      case low => exact inv.low
      case high => exact inv.high
      case pending =>
        intro update
        have status := inv.pending update
        simp only [RxBufState.status, Bool.or_eq_true] at status ⊢
        rcases status with here | here <;> simp [here]
      case largeFw =>
        intro large calm
        obtain ⟨-, rfl⟩ := Bool.or_eq_false_iff.mp calm
        exact ⟨rfl, by simpa using differs.1⟩
      case expandFw =>
        intro _ calm
        obtain ⟨calm', rfl⟩ := Bool.or_eq_false_iff.mp calm
        obtain rfl : expand = true := by simpa using differs.1
        refine ⟨?_, rfl, rfl⟩
        -- a large ring was last asked to expand, and a request differs from the last one
        rcases inv.ring with large | small
        · exact absurd (inv.largeFw large calm') differs.2
        · exact small
    case postponed => exact inv.postponed
  · have request : hw.rxBufState.request narrow expand = hw.rxBufState := if_neg asks
    exact inv.frame rfl (.refl _) rfl rfl rfl request

theorem check : RingBase hw.dynamicBufferCheck.1 := by
  unfold RxHw.dynamicBufferCheck
  by_cases due : (hw.rxBufState.status && !hw.laEnable) = true
  · rw [if_pos due]
    have status : hw.rxBufState.status = true := by
      rw [Bool.and_eq_true] at due
      exact due.1
    cases update : hw.rxBufState.updateFlag with
    | false =>
      exact ⟨inv.partition, inv.ring, inv.low, inv.high, fun _ => status, inv.largeFw, inv.expandFw⟩
    | true =>
      have small := inv.postponed update
      cases narrow : hw.rxBufState.narrow with
      | true =>
        exact ⟨inv.partition, .inr ⟨rfl, rfl⟩, inv.low, small, by intro; contradiction,
          fun large => absurd large (not_large_of_small ⟨rfl, rfl⟩), by intro; contradiction⟩
      | false =>
        have expand : hw.rxBufState.expand = true := by
          simpa [RxBufState.status, narrow] using status
        obtain ⟨-, fwNarrow, fwExpand⟩ := inv.expandFw expand narrow
        exact ⟨inv.partition, .inl ⟨rfl, rfl⟩, inv.low,
          BitVec.le_trans small (small_le_large hw.busType), by intro; contradiction,
          fun _ _ => ⟨fwNarrow, fwExpand⟩, by intro; contradiction⟩
  · rw [if_neg due]
    exact inv.toRingBase

end

/-- **The end of a read**: the new position is the old one of the next read; after a request to
become narrow it lies in the small ring. -/
theorem trigger {read : RxHw} (base : RingBase read)
    (low : rxbufStartAddr ≤ unwrapped read.fwNewPos)
    (high : unwrapped read.fwNewPos ≤ read.rxBufEnd) :
    RingInv { read.amlTriggerRstRxd with fwBufPos := read.amlTriggerRstRxd.fwNewPos } := by
  have reset : (read.amlTriggerRstRxd.fwNewPos = rxbufStartAddr ∧ read.rxBufState.narrow = true) ∨
      (read.amlTriggerRstRxd.fwNewPos = read.fwNewPos ∧ (read.rxBufState.narrow = true →
          unwrapped read.fwNewPos ≤ rxbufEndAddrSmall read.busType)) := by
    by_cases past : (read.rxBufState.narrow &&
        decide (rxbufEndAddrSmall read.busType ≤ unwrapped read.fwNewPos)) = true
    · refine .inl ⟨if_pos past, ?_⟩
      rw [Bool.and_eq_true] at past
      exact past.1
    · refine .inr ⟨if_neg past, fun narrow => ?_⟩
      simp only [narrow, Bool.true_and, decide_eq_true_eq] at past
      rw [le_def] at past ⊢
      omega
  have smallLe := base.small_le
  constructor
  case toRingBase =>
    constructor
    case partition => exact base.partition
    case ring => exact base.ring
    case low =>
      show rxbufStartAddr ≤ unwrapped read.amlTriggerRstRxd.fwNewPos
      rcases reset with ⟨same, -⟩ | ⟨same, -⟩
      · rw [same, unwrapped_start]
        exact BitVec.le_refl _
      · rw [same]
        exact low
    case high =>
      show unwrapped read.amlTriggerRstRxd.fwNewPos ≤ read.rxBufEnd
      rcases reset with ⟨same, -⟩ | ⟨same, -⟩
      · rw [same, unwrapped_start]
        exact BitVec.le_trans (start_le_small _) smallLe
      · rw [same]
        exact high
    case pending => exact base.pending
    case largeFw => exact base.largeFw
    case expandFw => exact base.expandFw
  case postponed =>
    intro update
    show unwrapped read.amlTriggerRstRxd.fwNewPos ≤ rxbufEndAddrSmall read.busType
    rcases reset with ⟨same, -⟩ | ⟨same, narrow⟩
    · rw [same, unwrapped_start]
      exact start_le_small _
    · rw [same]
      cases here : read.rxBufState.narrow with
      | true => exact narrow here
      | false =>
        have expand : read.rxBufState.expand = true := by
          simpa [RxBufState.status, here] using base.pending update
        have small := (base.expandFw expand here).1
        exact small.1 ▸ high

end RingInv

/-! ### One read -/

namespace RxHw

/-- `aml_sdio_dynamic_buffer_check` returns early: the resize is postponed to the next read. -/
def Postpones (hw : RxHw) : Prop := hw.dynamicBufferCheck.2 = true

def bounded (hw : RxHw) (n : Nat) : RxbufList :=
  if hw.dynamicBufferCheck.2 then hw.rxbufList n
  else { hw.rxbufList n with rxBufEnd := hw.inForce.1, rxBufLen := hw.inForce.2 }

/-- The chunk `aml_sdio_rxdataind` puts on the used list. -/
def chunk (hw : RxHw) (n : Nat) : RxbufList :=
  fill hw.sram (unwrapped hw.fwBufPos) (unwrapped hw.fwNewPos) (hw.bounded n)

def afterRead (hw : RxHw) (n : Nat) (rest : List Nat) : RxHw :=
  { hw.dynamicBufferCheck.1 with
    rxbufFreeList := rest
    rxbufUsedList := hw.rxbufUsedList ++ [n]
    rxbufList := Function.update hw.rxbufList n (hw.chunk n) }

theorem dynamicBufferCheck_frame (hw : RxHw) :
    hw.dynamicBufferCheck.1 = { hw with
      rxBufEnd := hw.inForce.1
      rxBufLen := hw.inForce.2
      rxBufState := hw.dynamicBufferCheck.1.rxBufState } := by
  unfold inForce dynamicBufferCheck
  by_cases due : (hw.rxBufState.status && !hw.laEnable) = true
  · rw [if_pos due]
    cases hw.rxBufState.updateFlag <;> cases hw.rxBufState.narrow <;> rfl
  · rw [if_neg due]

theorem dynamicBufferCheck_free (hw : RxHw) (rest : List Nat) : { hw with rxbufFreeList := rest }.dynamicBufferCheck =
      ({ hw.dynamicBufferCheck.1 with rxbufFreeList := rest }, hw.dynamicBufferCheck.2) := by
  unfold dynamicBufferCheck
  by_cases due : (hw.rxBufState.status && !hw.laEnable) = true
  · simp only [if_pos due]
    cases hw.rxBufState.updateFlag <;> cases hw.rxBufState.narrow <;> rfl
  · simp only [if_neg due]

theorem readChunk_eq (hw : RxHw) (n : Nat) (rest : List Nat) :
    hw.readChunk n rest = { (hw.afterRead n rest).amlTriggerRstRxd with
      fwBufPos := (hw.afterRead n rest).amlTriggerRstRxd.fwNewPos } := by
  have nodes : hw.dynamicBufferCheck.1.rxbufList = hw.rxbufList := by
    rw [dynamicBufferCheck_frame]
  have used : hw.dynamicBufferCheck.1.rxbufUsedList = hw.rxbufUsedList := by
    rw [dynamicBufferCheck_frame]
  unfold readChunk amlSdioDynamicBufferCheck afterRead chunk bounded
  simp only [dynamicBufferCheck_free]
  cases hw.dynamicBufferCheck.2 with
  | true => simp only [if_true, nodes, used]
  | false =>
    simp only [Bool.false_eq_true, if_false, nodes, used, Function.update_self, Function.update_idem]
    rfl

end RxHw

theorem RingInv.afterRead {hw : RxHw} (inv : RingInv hw) {n : Nat} {rest : List Nat}
    (free : hw.rxbufFreeList = n :: rest) : RingBase (hw.afterRead n rest) := by
  have base := inv.check
  have frame := hw.dynamicBufferCheck_frame
  constructor
  case partition =>
    have moved : (rest ++ (hw.rxbufUsedList ++ [n] ++ hw.processing.toList)).Perm
        (n :: rest ++ (hw.rxbufUsedList ++ hw.processing.toList)) := by
      rw [List.append_assoc]
      refine (List.perm_middle.append_left rest).trans ?_
      exact List.perm_middle
    have processing : hw.dynamicBufferCheck.1.processing = hw.processing := by rw [frame]
    show (rest ++ (hw.rxbufUsedList ++ [n] ++ hw.dynamicBufferCheck.1.processing.toList)).Perm _
    rw [processing]
    exact moved.trans (free ▸ inv.partition)
  case ring => exact base.ring
  case low => exact base.low
  case high => exact base.high
  case pending => exact base.pending
  case largeFw => exact base.largeFw
  case expandFw => exact base.expandFw

def PosInRing (hw : RxHw) : Prop :=
  rxbufStartAddr ≤ unwrapped hw.fwNewPos ∧ unwrapped hw.fwNewPos ≤ hw.inForce.1

/-- What the firmware promises: a read finds a position in the ring. -/
def posGuard (hw : RxHw) : RingAct → Prop
  | .rxdataind => PosInRing hw
  | _ => True

theorem RingInv.rxdataind {hw hw' : RxHw} (inv : RingInv hw) (pos : PosInRing hw)
    (stepped : hw.amlSdioRxdataind = some hw') : RingInv hw' := by
  unfold RxHw.amlSdioRxdataind at stepped
  split at stepped
  case h_1 => cases stepped
  case h_2 n rest free =>
    split at stepped
    case isTrue =>
      obtain rfl := some.inj stepped
      rw [RxHw.readChunk_eq]
      have newPos : (hw.afterRead n rest).fwNewPos = hw.fwNewPos := by
        show hw.dynamicBufferCheck.1.fwNewPos = _
        rw [RxHw.dynamicBufferCheck_frame]
      exact RingInv.trigger (inv.afterRead free) (newPos ▸ pos.1) (newPos ▸ pos.2)
    case isFalse =>
      obtain rfl := some.inj stepped
      exact inv

theorem RingInv.step {hw hw' : RxHw} {a : RingAct} (inv : RingInv hw) (pos : posGuard hw a)
    (stepped : hw.step a = some hw') : RingInv hw' := by
  cases a with
  | ackIrq regVal =>
    obtain rfl := some.inj stepped
    exact inv.ackIrq regVal
  | rxdataind => exact inv.rxdataind pos stepped
  | takeUsed =>
    simp only [RxHw.step, RxHw.takeUsed] at stepped
    split at stepped
    case h_1 n rest idle used =>
      obtain rfl := some.inj stepped
      refine inv.frame rfl ?_ rfl rfl rfl rfl
      show (hw.rxbufFreeList ++ (rest ++ [n])).Perm _
      rw [idle, used, Option.toList_none, List.append_nil]
      exact (List.perm_append_singleton n rest).append_left _
    case h_2 => cases stepped
  | putFree =>
    simp only [RxHw.step, RxHw.putFree] at stepped
    split at stepped
    case h_1 n busy =>
      obtain rfl := some.inj stepped
      refine inv.frame rfl ?_ rfl rfl rfl rfl
      show (hw.rxbufFreeList ++ [n] ++ (hw.rxbufUsedList ++ [])).Perm _
      rw [busy, List.append_nil, List.append_assoc]
      exact List.perm_append_comm.append_left _
    case h_2 => cases stepped
  | setLaEnable on =>
    obtain rfl := some.inj stepped
    exact inv.frame rfl (.refl _) rfl rfl rfl rfl
  | fwWrite sram =>
    obtain rfl := some.inj stepped
    exact inv.frame rfl (.refl _) rfl rfl rfl rfl
  | bufInit =>
    obtain rfl := some.inj stepped
    exact inv.bufInit

theorem RingInv.of_reachable {bus : BusType} {hw : RxHw}
    (reach : (ringSystem bus).Reachable posGuard hw) : RingInv hw :=
  reach.invariant (ringInv_init bus) fun _ _ _ _ inv pos stepped => inv.step pos stepped

/-! ### Which chunks are right -/

/-- A read that is not postponed onto a node with other bounds, and that fits a node. -/
structure ReadsInForce (hw : RxHw) (n : Nat) : Prop where
  bounds : hw.Postpones → ((hw.rxbufList n).rxBufEnd, (hw.rxbufList n).rxBufLen) = (hw.rxBufEnd, hw.rxBufLen)
  fits : hw.span.length ≤ rxbufSize

theorem RxHw.Postpones.inForce {hw : RxHw} (postpones : hw.Postpones) : hw.inForce = (hw.rxBufEnd, hw.rxBufLen) := by
  unfold RxHw.Postpones RxHw.dynamicBufferCheck at postpones
  unfold RxHw.inForce RxHw.dynamicBufferCheck
  by_cases due : (hw.rxBufState.status && !hw.laEnable) = true
  · simp only [if_pos due] at postpones ⊢
    cases update : hw.rxBufState.updateFlag with
    | false => rfl
    | true => cases narrow : hw.rxBufState.narrow <;> simp [update, narrow] at postpones
  · simp only [if_neg due] at postpones
    cases postpones

theorem fill_bounds (sram : BitVec 32 → BitVec 8) (old new : BitVec 32) (c : RxbufList) :
    ((fill sram old new c).rxBufEnd, (fill sram old new c).rxBufLen) = (c.rxBufEnd, c.rxBufLen) := by
  unfold fill
  split
  · rfl
  · split <;> rfl

theorem bounded_inForce_iff (hw : RxHw) (n : Nat) : ((hw.bounded n).rxBufEnd, (hw.bounded n).rxBufLen) = hw.inForce ↔
      (hw.Postpones → ((hw.rxbufList n).rxBufEnd, (hw.rxbufList n).rxBufLen) = (hw.rxBufEnd, hw.rxBufLen)) := by
  by_cases postpones : hw.Postpones
  · have same : hw.bounded n = hw.rxbufList n := if_pos postpones
    rw [same, postpones.inForce]
    exact ⟨fun bounds _ => bounds, fun bounds => bounds postpones⟩
  · have copied : hw.bounded n = { hw.rxbufList n with
        rxBufEnd := hw.inForce.1, rxBufLen := hw.inForce.2 } := if_neg postpones
    rw [copied]
    exact iff_of_true rfl fun here => absurd here postpones

theorem RingInv.chunkRight_iff {hw : RxHw} (inv : RingInv hw) (pos : PosInRing hw) (n : Nat) :
    ChunkRight hw (hw.chunk n) ↔ ReadsInForce hw n := by
  constructor
  · intro right
    refine ⟨(bounded_inForce_iff hw n).mp ?_, ?_⟩
    · exact (fill_bounds _ _ _ _).symm.trans right.bounds
    · rw [RxHw.span, ringSpan_length, ← right.length]
      exact right.fits
  · intro reads
    have bounds := (bounded_inForce_iff hw n).mpr reads.bounds
    have last : (hw.bounded n).rxBufEnd = hw.inForce.1 := congrArg Prod.fst bounds
    have high : unwrapped hw.fwBufPos ≤ (hw.bounded n).rxBufEnd := by
      have base := inv.check.high
      rw [last]
      rw [hw.dynamicBufferCheck_frame] at base
      exact base
    obtain ⟨length, bytes⟩ := @fill_right hw.sram _ _ _ high pos.1
    rw [last] at length bytes
    refine ⟨length.trans (ringSpan_length _ _ _), bytes, ?_, (fill_bounds _ _ _ _).trans bounds⟩
    exact length.trans_le reads.fits

instance (hw : RxHw) : Decidable (PosInRing hw) := inferInstanceAs (Decidable (_ ∧ _))

instance (hw : RxHw) (a : RingAct) : Decidable (posGuard hw a) :=
  match a with
  | .rxdataind => inferInstanceAs (Decidable (PosInRing hw))
  | .ackIrq _ | .takeUsed | .putFree | .setLaEnable _ | .fwWrite _ | .bufInit => .isTrue trivial

/-- **RX ring read and resize.** In every run whose positions lie in the ring in force the lists
partition the nodes, and a read queues a chunk that is right exactly when it is not postponed onto a
node with other bounds and is not longer than a node. -/
theorem rxdataind_right_iff {bus : BusType} {hw : RxHw}
    (reach : (ringSystem bus).Reachable posGuard hw) :
    (hw.rxbufFreeList ++ (hw.rxbufUsedList ++ hw.processing.toList)).Perm (List.range rxbufNum) ∧
      ∀ n rest hw', PosInRing hw → hw.fwBufPos ≠ hw.fwNewPos → hw.rxbufFreeList = n :: rest →
        hw.amlSdioRxdataind = some hw' →
        hw'.rxbufUsedList = hw.rxbufUsedList ++ [n] ∧ (ChunkRight hw (hw'.rxbufList n) ↔ ReadsInForce hw n) := by
  have inv := RingInv.of_reachable reach
  refine ⟨inv.partition, fun n rest hw' pos news free stepped => ?_⟩
  have queued : hw' = hw.readChunk n rest := by
    rw [RxHw.amlSdioRxdataind, free] at stepped
    simp only [ne_eq, news, not_false_eq_true, if_true] at stepped
    exact (Option.some.inj stepped).symm
  rw [queued, RxHw.readChunk_eq]
  refine ⟨rfl, ?_⟩
  have node : (hw.afterRead n rest).amlTriggerRstRxd.rxbufList n = hw.chunk n := by
    simp [RxHw.amlTriggerRstRxd, RxHw.afterRead]
  simp only [node]
  exact inv.chunkRight_iff pos n

/-- A full ring on SDIO, read after its write position came round to the start. -/
theorem rxdataind_right_iff_full : ∃ hw, (ringSystem .sdio).Reachable posGuard hw ∧ PosInRing hw ∧
      ∃ hw', hw.amlSdioRxdataind = some hw' ∧ hw'.rxbufUsedList = [0] ∧
        (ChunkRight hw (hw'.rxbufList 0) ↔ ReadsInForce hw 0) := by
  have reach := System.reachable_of_run (ringSystem .sdio) posGuard [.ackIrq 0x93b4c] (by decide)
  exact ⟨_, reach, by decide, _, rfl, (rxdataind_right_iff reach).2 0 [1, 2, 3, 4] _ (by decide) (by decide) rfl rfl⟩

/-- **The first read after a request to become narrow** queues a node with the bounds of its last use,
here none. -/
theorem rxdataind_stale : ∃ hw hw', (ringSystem .sdio).Reachable posGuard hw ∧ PosInRing hw ∧
      hw.amlSdioRxdataind = some hw' ∧ hw'.rxbufUsedList = [0] ∧
      ¬ ChunkRight hw (hw'.rxbufList 0) := by
  have reach := System.reachable_of_run (ringSystem .sdio) posGuard [.ackIrq 0x113b80] (by decide)
  refine ⟨_, _, reach, by decide, rfl, rfl, fun right => ?_⟩
  have stale := congrArg Prod.fst right.bounds
  revert stale
  decide

end W2l.Rx
