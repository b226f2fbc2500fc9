/-
**The firmware's TX pages: charged by the TX task, refunded by the confirmation task.**

`aml_tx_task` (`aml_utils.c`), `aml_tx_cfm_task` (`fullmac/aml_tx.c`), `aml_trigger_rst_rxd`
(`aml_rx.c`); SDIO and USB. The TX task charges `tx_page_free_num` for each frame of `tx_desc_save`
before it finds the buffer the frame needs, and hands the batch to the bus when it leaves the list.
A confirmation computes the pages of its frame again. Pages of the RX buffer are lent to TX with a
confirmation and given back by the RX thread.

* `TxHw` — the two tasks, the frames on their way and a ledger of the pages the firmware grants.
* `PagesConserved` — free pages and pages in flight are the pages granted, refunds equal charges,
  frames are charged and sent once and in order.
* `PagesSafe` — no subtraction below zero, no grant past 32 bits, and the TX task gets its buffers.
-/

import W2lDriver.Rx.Ring

namespace W2l.Tx

open Cmd (BusType)
open Lib (System)
open Rx (RxHw RingAct rxInit dynaPageNum)
open Option (some.inj)
open BitVec (le_def toNat_add toNat_setWidth_of_le toNat_sub_of_le)
open List (append_assoc map_append mem_append)

/-! ### Pages of a frame -/

def howmanypage (x y : BitVec 32) : BitVec 32 := ((x - 12) + ((y - 12) - 1)) / (y - 12)

def sdioPageLen : BitVec 32 := 1568
def sdioDataOffset : BitVec 32 := 84
def sdioFrameTailLen : BitVec 32 := 12
def sdioTxheaderLen : BitVec 32 := 76

def nxTxPayloadMax : Nat := 6

def amsduBufCnt : Nat := 40

/-- The part of `struct aml_sw_txhdr` the two tasks use. -/
structure SwTxhdr where
  /-- The position of the frame in the order of `aml_sdio_ipc_txdesc_push`. -/
  id : Nat
  /-- `desc.api.host.packet_len`, `packet_cnt` of them. -/
  packetLen : List (BitVec 16)
  /-- `TXU_CNTRL_AMSDU` in `desc.api.host.flags`. -/
  amsdu : Bool
  packetCnt : packetLen.length ≤ nxTxPayloadMax
  deriving DecidableEq

namespace SwTxhdr

def frameTotLen (h : SwTxhdr) : BitVec 32 :=
  h.packetLen.foldl (fun total len => total + len.setWidth 32) 0

/-- `page_num` of `aml_tx_task`, an `unsigned char`. -/
def txPageNum (bus : BusType) (h : SwTxhdr) : BitVec 8 :=
  match bus with
  | .usb => 1
  | _ => (howmanypage (h.frameTotLen + sdioDataOffset + sdioFrameTailLen) sdioPageLen).setWidth 8

/-- `page_num` of `aml_tx_cfm_task`. -/
def cfmPageNum (bus : BusType) (h : SwTxhdr) : BitVec 8 :=
  if bus = .usb then 1
  else (howmanypage (h.frameTotLen + sdioDataOffset + sdioFrameTailLen) sdioPageLen).setWidth 8

theorem cfmPageNum_eq (bus : BusType) (h : SwTxhdr) : h.cfmPageNum bus = h.txPageNum bus := by
  cases bus with
  | usb => exact if_pos rfl
  | sdio => exact if_neg (by decide)
  | pcie => exact if_neg (by decide)

/-- The buffer the TX task puts the frame in. -/
inductive Buffer
  | inPlace
  /-- `kzalloc` on SDIO: the task leaves the list when it fails. -/
  | dynabuf
  /-- `kzalloc` on USB: the task writes to what it got. -/
  | usbDynabuf
  /-- `aml_get_free_tx_amsdu_buf`: the task writes to what it got. -/
  | amsduBuf
  deriving DecidableEq

def buffer (bus : BusType) (h : SwTxhdr) : Buffer :=
  match bus with
  | .usb => if h.amsdu then .usbDynabuf else .inPlace
  | _ => if h.amsdu && 4096 ≤ h.frameTotLen + sdioTxheaderLen + sdioFrameTailLen then .amsduBuf
      else .dynabuf

end SwTxhdr

/-! ### State -/

/-- Where `aml_tx_task` is. -/
inductive TxPc
  /-- Waiting for `aml_tx_sem`. -/
  | idle
  /-- At the next entry of `tx_desc_save`, with `tx_desc_lock`. -/
  | scan
  /-- Past the test of the free pages. -/
  | take
  /-- Past the list, the batch on its way to the bus. -/
  | send
  /-- After a write to a null pointer. -/
  | oops
  deriving DecidableEq

/-- A frame the TX task charged and built, with its `scat_list[..].page_num`. -/
abbrev ScatEntry := SwTxhdr × BitVec 8

/-- The part of `aml_hw` the TX and the confirmation task use. -/
structure TxHw where
  hw : RxHw
  pc : TxPc := .idle
  nextId : Nat := 0
  txDescSave : List SwTxhdr := []
  txPageOnce : BitVec 8
  totPageNum : BitVec 32 := 0
  scatList : List ScatEntry := []
  /-- The length of `tx_amsdu_buf_used_list`. -/
  txAmsduBufUsed : Nat := 0
  dynabufStopTx : Bool := false
  sendTxStopToFw : Bool := false
  /-- Handed to the bus and not confirmed. -/
  unconfirmed : List ScatEntry := []
  /-- Charged and sent so far. -/
  charged : List Nat := []
  sent : List Nat := []
  /-- The pages the firmware grants. -/
  granted : Int

/-- `SDIO_PAGE_MAX`, `USB_PAGE_MAX`. -/
def pageMax : BusType → BitVec 8
  | .usb => 25
  | _ => 61

def txInit (bus : BusType) : TxHw where
  hw := rxInit bus
  txPageOnce := pageMax bus
  granted := ((rxInit bus).txPageFreeNum.toNat : Int)

/-- One step of a task, the interrupt handler, the firmware or the user. -/
inductive TxAct
  | push (packetLen : List (BitVec 16)) (amsdu : Bool)
  | wake
  | check
  | take (kzalloc : Bool)
  | send
  | cfm (id : Nat) (dynaPage : BitVec 16)
  | hostTxStop
  | hostTxStart
  | setTxpageOnce (txpage : BitVec 8)
  | ring (a : RingAct)

/-- `aml_trigger_rst_rxd` gives the pages back in this step. -/
def handsBack (hw : RxHw) (a : RingAct) : Bool :=
  match a with
  | .rxdataind => !hw.rxbufFreeList.isEmpty && hw.fwBufPos != hw.fwNewPos &&
      hw.dynamicBufferCheck.1.rxBufState.expand
  | _ => false

namespace TxHw

/-! ### Steps -/

/-- `aml_sdio_ipc_txdesc_push`; the TX task holds `tx_desc_lock` while it is on the list. -/
def txdescPush (s : TxHw) (packetLen : List (BitVec 16)) (amsdu : Bool) : Option TxHw :=
  if packetCnt : packetLen.length ≤ nxTxPayloadMax then
    if s.pc = .idle ∨ s.pc = .send then
      some { s with
        txDescSave := s.txDescSave ++ [⟨s.nextId, packetLen, amsdu, packetCnt⟩]
        nextId := s.nextId + 1 }
    else none
  else none

/-- `down_interruptible(&aml_hw->aml_tx_sem)` returns, until the list. -/
def wake (s : TxHw) : Option TxHw :=
  if s.pc = .idle then
    if s.dynabufStopTx then
      if s.sendTxStopToFw ∧ s.hw.txPageFreeNum = s.hw.txPageTotNum then
        some { s with sendTxStopToFw := false }
      else some s
    else if s.txDescSave = [] then some s
    else some { s with pc := .scan }
  else none

/-- The head of `list_for_each_entry_safe` and the test of the pages. -/
def check (s : TxHw) : Option TxHw :=
  if s.pc = .scan then
    match s.txDescSave with
    | [] => some { s with pc := .send }
    | h :: _ =>
      let pageNum := (h.txPageNum s.hw.busType).setWidth 32
      if pageNum + 1 ≤ s.hw.txPageFreeNum ∧
          (s.totPageNum + pageNum ≤ s.txPageOnce.setWidth 32 ∨ s.totPageNum = 0) then
        some { s with pc := .take }
      else some { s with pc := .send }
  else none

/-- `tot_page_num += page_num` and `tx_page_free_num -= page_num`. -/
def charge (s : TxHw) (h : SwTxhdr) : TxHw :=
  { s with
    totPageNum := s.totPageNum + (h.txPageNum s.hw.busType).setWidth 32
    hw := { s.hw with
      txPageFreeNum := s.hw.txPageFreeNum - (h.txPageNum s.hw.busType).setWidth 32 }
    charged := s.charged ++ [h.id] }

/-- The entry of `scat_list` and `list_del`. -/
def place (s : TxHw) (h : SwTxhdr) (rest : List SwTxhdr) (txAmsduBufUsed : Nat) : TxHw :=
  { s with
    pc := .scan
    txDescSave := rest
    scatList := s.scatList ++ [(h, h.txPageNum s.hw.busType)]
    txAmsduBufUsed := txAmsduBufUsed }

/-- The body of the loop behind the test. -/
def take (s : TxHw) (kzalloc : Bool) : Option TxHw :=
  if s.pc = .take then
    match s.txDescSave with
    | [] => none
    | h :: rest =>
      let s := s.charge h
      match h.buffer s.hw.busType with
      | .inPlace => some (s.place h rest s.txAmsduBufUsed)
      | .dynabuf =>
        if kzalloc then some (s.place h rest s.txAmsduBufUsed) else some { s with pc := .send }
      | .usbDynabuf =>
        if kzalloc then some (s.place h rest s.txAmsduBufUsed) else some { s with pc := .oops }
      | .amsduBuf =>
        if s.txAmsduBufUsed < amsduBufCnt then some (s.place h rest (s.txAmsduBufUsed + 1))
        else some { s with pc := .oops }
  else none

/-- `hi_send_frame`, one entry a step, and what is reset behind it. -/
def send (s : TxHw) : Option TxHw :=
  if s.pc = .send then
    match s.scatList with
    | e :: rest =>
      some { s with
        scatList := rest
        unconfirmed := s.unconfirmed ++ [e]
        sent := s.sent ++ [e.1.id] }
    | [] => some { s with pc := .idle, totPageNum := 0, txAmsduBufUsed := 0 }
  else none

/-- One round of `aml_tx_cfm_task`, as far as pages go. -/
def cfm (s : TxHw) (id : Nat) (dynaPage : BitVec 16) : Option TxHw :=
  match s.unconfirmed.find? (fun e => e.1.id == id) with
  | none => none
  | some e =>
    let refunded := s.hw.txPageFreeNum + (e.1.cfmPageNum s.hw.busType).setWidth 32
    let unconfirmed := s.unconfirmed.erase e
    if dynaPage.setWidth 32 = dynaPageNum s.hw.busType then
      some { s with
        hw := { s.hw with
          txPageFreeNum := refunded + dynaPage.setWidth 32
          rxBufState := { s.hw.rxBufState with txUsedFlag := true } }
        unconfirmed := unconfirmed
        granted := s.granted + dynaPage.toNat }
    else if s.hw.laEnable then
      some { s with
        hw := { s.hw with txPageFreeNum := refunded - dynaPage.setWidth 32 }
        unconfirmed := unconfirmed
        granted := s.granted - dynaPage.toNat }
    else
      some { s with
        hw := { s.hw with txPageFreeNum := refunded }
        unconfirmed := unconfirmed }

/-- The RX side. A resume sets the pages up again and is not part of a run. -/
def ring (s : TxHw) (a : RingAct) : Option TxHw :=
  match a with
  | .bufInit => none
  | a => (s.hw.step a).map fun hw =>
      { s with
        hw := hw
        granted := if handsBack s.hw a then s.granted - (dynaPageNum s.hw.busType).toNat
          else s.granted }

def step (s : TxHw) : TxAct → Option TxHw
  | .push packetLen amsdu => s.txdescPush packetLen amsdu
  | .wake => s.wake
  | .check => s.check
  | .take kzalloc => s.take kzalloc
  | .send => s.send
  | .cfm id dynaPage => s.cfm id dynaPage
  | .hostTxStop => some { s with dynabufStopTx := true, sendTxStopToFw := true }
  | .hostTxStart => some { s with dynabufStopTx := false }
  | .setTxpageOnce txpage => some { s with txPageOnce := txpage }
  | .ring a => s.ring a

end TxHw

def txSystem (bus : BusType) : System TxHw TxAct where
  init := txInit bus
  step := TxHw.step

/-! ### What the two tasks have to keep -/

def pagesOf (entries : List ScatEntry) : Nat := (entries.map fun e => e.2.toNat).sum

def idsOf (entries : List ScatEntry) : List Nat := entries.map fun e => e.1.id

/-- **TX pages are conserved.** The ledger counts with integers, so that no subtraction went below
zero. -/
structure PagesConserved (s : TxHw) : Prop where
  conserved : (s.hw.txPageFreeNum.toNat : Int) + pagesOf (s.scatList ++ s.unconfirmed) = s.granted
  refunded : ∀ e ∈ s.scatList ++ s.unconfirmed, e.1.cfmPageNum s.hw.busType = e.2
  inOrder : s.sent ++ idsOf s.scatList ++ s.txDescSave.map SwTxhdr.id = List.range s.nextId
  once : s.charged = s.sent ++ idsOf s.scatList
  alive : s.pc ≠ .oops

def TxHw.bufferFound (s : TxHw) (h : SwTxhdr) (kzalloc : Bool) : Bool :=
  match h.buffer s.hw.busType with
  | .inPlace => true
  | .dynabuf | .usbDynabuf => kzalloc
  | .amsduBuf => s.txAmsduBufUsed < amsduBufCnt

/-- The confirmation of an entry neither grants past `2 ^ 32` nor takes pages that are not there. -/
def CfmSafe (s : TxHw) (e : ScatEntry) (dynaPage : BitVec 16) : Prop :=
  if dynaPage.setWidth 32 = dynaPageNum s.hw.busType then
    s.hw.txPageFreeNum.toNat + pagesOf (s.scatList ++ s.unconfirmed) + dynaPage.toNat < 2 ^ 32
  else s.hw.laEnable = true → dynaPage.toNat ≤ s.hw.txPageFreeNum.toNat + e.2.toNat

/-- **A safe step**: the pages subtracted are there, a grant stays below `2 ^ 32`, and the TX task
gets its buffer. -/
def PagesSafe (s : TxHw) : TxAct → Prop
  | .take kzalloc => ∀ h ∈ s.txDescSave.head?,
      (h.txPageNum s.hw.busType).toNat ≤ s.hw.txPageFreeNum.toNat ∧ s.bufferFound h kzalloc = true
  | .cfm id dynaPage => ∀ e ∈ s.unconfirmed.find? fun e => e.1.id == id, CfmSafe s e dynaPage
  | .ring a => handsBack s.hw a = true → (dynaPageNum s.hw.busType).toNat ≤ s.hw.txPageFreeNum.toNat
  | _ => True

theorem pagesOf_append (front back : List ScatEntry) : pagesOf (front ++ back) = pagesOf front + pagesOf back := by
  rw [pagesOf, map_append, List.sum_append]
  rfl

theorem pagesOf_singleton (e : ScatEntry) : pagesOf [e] = e.2.toNat := List.sum_singleton

theorem pagesOf_erase {entries : List ScatEntry} {e : ScatEntry} (there : e ∈ entries) :
    pagesOf entries = e.2.toNat + pagesOf (entries.erase e) :=
  ((List.perm_cons_erase there).map _).sum_nat

theorem idsOf_append (front back : List ScatEntry) : idsOf (front ++ back) = idsOf front ++ idsOf back := map_append

/-- The invariant: the pages are conserved and no grant passed 32 bits. -/
structure PagesInv (s : TxHw) : Prop extends PagesConserved s where
  bounded : s.granted < 2 ^ 32

theorem pagesInv_init (bus : BusType) : PagesInv (txInit bus) where
  conserved := Int.add_zero _
  refunded := by
    intro e entry
    cases entry
  inOrder := rfl
  once := rfl
  alive := TxPc.noConfusion
  bounded := by cases bus <;> decide

/-! ### Steps keep the invariant -/

theorem ring_pages {hw hw' : RxHw} {a : RingAct} (resumed : a ≠ .bufInit)
    (stepped : hw.step a = some hw') :
    hw'.busType = hw.busType ∧ hw'.txPageFreeNum = if handsBack hw a then hw.txPageFreeNum - dynaPageNum hw.busType
        else hw.txPageFreeNum := by
  cases a with
  | rxdataind =>
    simp only [RxHw.step, RxHw.amlSdioRxdataind] at stepped
    cases free : hw.rxbufFreeList with
    | nil =>
      rw [free] at stepped
      cases stepped
    | cons n rest =>
      simp only [free] at stepped
      by_cases news : hw.fwBufPos ≠ hw.fwNewPos
      · rw [if_pos news] at stepped
        obtain rfl := some.inj stepped
        rw [RxHw.readChunk_eq]
        have busType : (hw.afterRead n rest).busType = hw.busType := by
          show hw.dynamicBufferCheck.1.busType = _
          rw [RxHw.dynamicBufferCheck_frame]
        have pages : (hw.afterRead n rest).txPageFreeNum = hw.txPageFreeNum := by
          show hw.dynamicBufferCheck.1.txPageFreeNum = _
          rw [RxHw.dynamicBufferCheck_frame]
        refine ⟨busType, ?_⟩
        have back : handsBack hw .rxdataind = hw.dynamicBufferCheck.1.rxBufState.expand := by
          simp [handsBack, free, news]
        rw [back, ← busType, ← pages]
        rfl
      · rw [if_neg news] at stepped
        obtain rfl := some.inj stepped
        have same : handsBack hw .rxdataind = false := by
          simp only [handsBack, not_not.mp news, bne_self_eq_false, Bool.and_false, Bool.false_and]
        rw [same]
        exact ⟨rfl, rfl⟩
  | ackIrq regVal =>
    obtain rfl := some.inj stepped
    exact ⟨rfl, rfl⟩
  | takeUsed =>
    simp only [RxHw.step, RxHw.takeUsed] at stepped
    split at stepped
    case h_1 =>
      obtain rfl := some.inj stepped
      exact ⟨rfl, rfl⟩
    case h_2 => cases stepped
  | putFree =>
    simp only [RxHw.step, RxHw.putFree] at stepped
    split at stepped
    case h_1 =>
      obtain rfl := some.inj stepped
      exact ⟨rfl, rfl⟩
    case h_2 => cases stepped
  | setLaEnable on =>
    obtain rfl := some.inj stepped
    exact ⟨rfl, rfl⟩
  | fwWrite sram =>
    obtain rfl := some.inj stepped
    exact ⟨rfl, rfl⟩
  | bufInit => exact absurd rfl resumed

namespace PagesInv

variable {s s' : TxHw}

section

variable (inv : PagesInv s)

include inv

theorem frame (hw : s'.hw = s.hw) (scatList : s'.scatList = s.scatList)
    (unconfirmed : s'.unconfirmed = s.unconfirmed) (txDescSave : s'.txDescSave = s.txDescSave)
    (nextId : s'.nextId = s.nextId) (charged : s'.charged = s.charged) (sent : s'.sent = s.sent)
    (granted : s'.granted = s.granted) (alive : s'.pc ≠ .oops) : PagesInv s' := by
  constructor
  case toPagesConserved =>
    constructor
    case conserved =>
      rw [hw, scatList, unconfirmed, granted]
      exact inv.conserved
    case refunded =>
      rw [hw, scatList, unconfirmed]
      exact inv.refunded
    case inOrder =>
      rw [sent, scatList, txDescSave, nextId]
      exact inv.inOrder
    case once =>
      rw [charged, sent, scatList]
      exact inv.once
    case alive => exact alive
  case bounded =>
    rw [granted]
    exact inv.bounded

theorem push {packetLen : List (BitVec 16)} {amsdu : Bool}
    (stepped : s.txdescPush packetLen amsdu = some s') : PagesInv s' := by
  unfold TxHw.txdescPush at stepped
  split at stepped
  case isTrue packetCnt =>
    split at stepped
    case isTrue free =>
      obtain rfl := some.inj stepped
      refine ⟨⟨inv.conserved, inv.refunded, ?_, inv.once, inv.alive⟩, inv.bounded⟩
      show s.sent ++ idsOf s.scatList ++ (s.txDescSave ++ [_]).map SwTxhdr.id = List.range (s.nextId + 1)
      rw [map_append, ← append_assoc, inv.inOrder, List.range_succ]
      rfl
    case isFalse => cases stepped
  case isFalse => cases stepped

theorem wake (stepped : s.wake = some s') : PagesInv s' := by
  unfold TxHw.wake at stepped
  split at stepped
  case isTrue idle =>
    split at stepped
    case isTrue =>
      split at stepped
      · obtain rfl := some.inj stepped
        exact inv.frame rfl rfl rfl rfl rfl rfl rfl rfl inv.alive
      · obtain rfl := some.inj stepped
        exact inv
    case isFalse =>
      split at stepped
      · obtain rfl := some.inj stepped
        exact inv
      · obtain rfl := some.inj stepped
        exact inv.frame rfl rfl rfl rfl rfl rfl rfl rfl (by simp)
  case isFalse => cases stepped

theorem check (stepped : s.check = some s') : PagesInv s' := by
  unfold TxHw.check at stepped
  split at stepped
  case isTrue =>
    split at stepped
    · obtain rfl := some.inj stepped
      exact inv.frame rfl rfl rfl rfl rfl rfl rfl rfl (by simp)
    · simp only at stepped
      split at stepped
      · obtain rfl := some.inj stepped
        exact inv.frame rfl rfl rfl rfl rfl rfl rfl rfl (by simp)
      · obtain rfl := some.inj stepped
        exact inv.frame rfl rfl rfl rfl rfl rfl rfl rfl (by simp)
  case isFalse => cases stepped

theorem place {h : SwTxhdr} {rest : List SwTxhdr} (used : Nat)
    (first : s.txDescSave = h :: rest)
    (there : (h.txPageNum s.hw.busType).toNat ≤ s.hw.txPageFreeNum.toNat) :
    PagesInv ((s.charge h).place h rest used) := by
  constructor
  case toPagesConserved =>
    constructor
    case conserved =>
      have pages : (s.hw.txPageFreeNum - (h.txPageNum s.hw.busType).setWidth 32).toNat =
          s.hw.txPageFreeNum.toNat - (h.txPageNum s.hw.busType).toNat := by
        rw [toNat_sub_of_le]
        · rw [toNat_setWidth_of_le (by decide)]
        · rw [le_def, toNat_setWidth_of_le (by decide)]
          exact there
      have conserved := inv.conserved
      show ((s.hw.txPageFreeNum - (h.txPageNum s.hw.busType).setWidth 32).toNat : Int) +
        pagesOf (s.scatList ++ [(h, h.txPageNum s.hw.busType)] ++ s.unconfirmed) = s.granted
      have entry : pagesOf [(h, h.txPageNum s.hw.busType)] = (h.txPageNum s.hw.busType).toNat :=
        pagesOf_singleton _
      rw [pagesOf_append] at conserved
      rw [pages, pagesOf_append, pagesOf_append, entry]
      omega
    case refunded =>
      intro e entry
      have cases' : e ∈ s.scatList ++ s.unconfirmed ∨ e = (h, h.txPageNum s.hw.busType) := by
        simp only [TxHw.place, TxHw.charge, mem_append, List.mem_singleton] at entry ⊢
        tauto
      rcases cases' with old | rfl
      · exact inv.refunded e old
      · exact h.cfmPageNum_eq s.hw.busType
    case inOrder =>
      show s.sent ++ idsOf (s.scatList ++ [_]) ++ rest.map SwTxhdr.id = List.range s.nextId
      rw [← inv.inOrder, first, idsOf_append, ← append_assoc, append_assoc]
      rfl
    case once =>
      show s.charged ++ [h.id] = s.sent ++ idsOf (s.scatList ++ [_])
      rw [inv.once, idsOf_append, append_assoc]
      rfl
    case alive => exact TxPc.noConfusion
  case bounded => exact inv.bounded

theorem take {kzalloc : Bool} (safe : PagesSafe s (.take kzalloc))
    (stepped : s.take kzalloc = some s') : PagesInv s' := by
  unfold TxHw.take at stepped
  split at stepped
  case isTrue =>
    cases first : s.txDescSave with
    | nil =>
      rw [first] at stepped
      cases stepped
    | cons h rest =>
      obtain ⟨there, found⟩ := safe h (by rw [first]; rfl)
      have placed : ∃ used, s' = (s.charge h).place h rest used := by
        rw [first] at stepped
        simp only at stepped
        unfold TxHw.bufferFound at found
        have bus : (s.charge h).hw.busType = s.hw.busType := rfl
        have used : (s.charge h).txAmsduBufUsed = s.txAmsduBufUsed := rfl
        rw [bus, used] at stepped
        cases kind : h.buffer s.hw.busType <;> simp only [kind] at stepped found
        case inPlace => exact ⟨_, (some.inj stepped).symm⟩
        case dynabuf =>
          rw [if_pos found] at stepped
          exact ⟨_, (some.inj stepped).symm⟩
        case usbDynabuf =>
          rw [if_pos found] at stepped
          exact ⟨_, (some.inj stepped).symm⟩
        case amsduBuf =>
          rw [if_pos (of_decide_eq_true found)] at stepped
          exact ⟨_, (some.inj stepped).symm⟩
      obtain ⟨used, rfl⟩ := placed
      exact inv.place used first there
  case isFalse => cases stepped

theorem send (stepped : s.send = some s') : PagesInv s' := by
  unfold TxHw.send at stepped
  split at stepped
  case isTrue =>
    split at stepped
    case h_1 e rest batch =>
      obtain rfl := some.inj stepped
      have moved : (rest ++ (s.unconfirmed ++ [e])).Perm (s.scatList ++ s.unconfirmed) := by
        rw [batch, ← append_assoc]
        exact List.perm_append_singleton e (rest ++ s.unconfirmed)
      constructor
      case toPagesConserved =>
        constructor
        case conserved =>
          show (s.hw.txPageFreeNum.toNat : Int) + pagesOf (rest ++ (s.unconfirmed ++ [e])) = _
          rw [pagesOf, (moved.map _).sum_nat]
          exact inv.conserved
        case refunded =>
          intro d entry
          exact inv.refunded d (moved.subset entry)
        case inOrder =>
          have inOrder := inv.inOrder
          show s.sent ++ [e.1.id] ++ idsOf rest ++ s.txDescSave.map SwTxhdr.id = _
          rw [batch] at inOrder
          rw [← inOrder, append_assoc s.sent]
          rfl
        case once =>
          show s.charged = s.sent ++ [e.1.id] ++ idsOf rest
          rw [inv.once, batch, append_assoc]
          rfl
        case alive => exact inv.alive
      case bounded => exact inv.bounded
    case h_2 batch =>
      obtain rfl := some.inj stepped
      exact inv.frame rfl rfl rfl rfl rfl rfl rfl rfl TxPc.noConfusion
  case isFalse => cases stepped

theorem cfm {id : Nat} {dynaPage : BitVec 16}
    (safe : PagesSafe s (.cfm id dynaPage)) (stepped : s.cfm id dynaPage = some s') :
    PagesInv s' := by
  unfold TxHw.cfm at stepped
  cases found : s.unconfirmed.find? (fun e => e.1.id == id) with
  | none =>
    rw [found] at stepped
    cases stepped
  | some e =>
    have there : e ∈ s.unconfirmed := List.mem_of_find?_eq_some found
    have safe := safe e found
    unfold CfmSafe at safe
    have conserved := inv.conserved
    have bounded := inv.bounded
    have dyna := dynaPage.isLt
    rw [pagesOf_append, pagesOf_erase there] at conserved
    have refund : (e.1.cfmPageNum s.hw.busType).setWidth 32 = e.2.setWidth 32 :=
      congrArg _ (inv.refunded e (List.mem_append_right _ there))
    have refunded : (s.hw.txPageFreeNum + (e.1.cfmPageNum s.hw.busType).setWidth 32).toNat =
        s.hw.txPageFreeNum.toNat + e.2.toNat := by
      rw [refund, toNat_add, toNat_setWidth_of_le (by decide)]
      exact Nat.mod_eq_of_lt (by omega)
    have wide : (dynaPage.setWidth 32).toNat = dynaPage.toNat :=
      toNat_setWidth_of_le (by decide)
    have rest : ∀ d ∈ s.scatList ++ s.unconfirmed.erase e, d.1.cfmPageNum s.hw.busType = d.2 := by
      intro d entry
      refine inv.refunded d (mem_append.mpr ?_)
      exact (mem_append.mp entry).imp_right List.mem_of_mem_erase
    rw [found] at stepped
    simp only at stepped
    split at stepped
    case isTrue grant =>
      obtain rfl := some.inj stepped
      rw [if_pos grant, pagesOf_append, pagesOf_erase there] at safe
      refine ⟨⟨?_, rest, inv.inOrder, inv.once, inv.alive⟩, ?_⟩
      · show ((_ + dynaPage.setWidth 32 : BitVec 32).toNat : Int) +
          pagesOf (s.scatList ++ s.unconfirmed.erase e) = s.granted + dynaPage.toNat
        rw [toNat_add, refunded, wide, Nat.mod_eq_of_lt (by omega), pagesOf_append]
        omega
      · show s.granted + dynaPage.toNat < 2 ^ 32
        omega
    case isFalse other =>
      rw [if_neg other] at safe
      split at stepped
      case isTrue la =>
        obtain rfl := some.inj stepped
        have enough := safe la
        refine ⟨⟨?_, rest, inv.inOrder, inv.once, inv.alive⟩, ?_⟩
        · show ((_ - dynaPage.setWidth 32 : BitVec 32).toNat : Int) +
            pagesOf (s.scatList ++ s.unconfirmed.erase e) = s.granted - dynaPage.toNat
          rw [toNat_sub_of_le (by rw [le_def, refunded, wide]; exact enough), refunded, wide, pagesOf_append]
          omega
        · show s.granted - dynaPage.toNat < 2 ^ 32
          omega
      case isFalse =>
        obtain rfl := some.inj stepped
        refine ⟨⟨?_, rest, inv.inOrder, inv.once, inv.alive⟩, bounded⟩
        show ((_ : BitVec 32).toNat : Int) + pagesOf (s.scatList ++ s.unconfirmed.erase e) = s.granted
        rw [refunded, pagesOf_append]
        omega

theorem ring {a : RingAct} (safe : PagesSafe s (.ring a))
    (stepped : s.ring a = some s') : PagesInv s' := by
  have mapped : a ≠ .bufInit ∧ ∃ hw', s.hw.step a = some hw' ∧ { s with
      hw := hw'
      granted := if handsBack s.hw a then s.granted - (dynaPageNum s.hw.busType).toNat
        else s.granted } = s' := by
    unfold TxHw.ring at stepped
    split at stepped
    case h_1 => cases stepped
    case h_2 resumed => exact ⟨resumed, Option.map_eq_some_iff.mp stepped⟩
  obtain ⟨resumed, hw', moved, rfl⟩ := mapped
  obtain ⟨busType, pages⟩ := ring_pages resumed moved
  have refunded : ∀ e ∈ s.scatList ++ s.unconfirmed, e.1.cfmPageNum hw'.busType = e.2 := by
    rw [busType]
    exact inv.refunded
  have conserved := inv.conserved
  have bounded := inv.bounded
  cases back : handsBack s.hw a with
  | true =>
    have enough := safe back
    rw [back, if_pos rfl] at pages
    refine ⟨⟨?_, refunded, inv.inOrder, inv.once, inv.alive⟩, ?_⟩
    · show (hw'.txPageFreeNum.toNat : Int) + pagesOf (s.scatList ++ s.unconfirmed) =
        s.granted - (dynaPageNum s.hw.busType).toNat
      rw [pages, toNat_sub_of_le (le_def.mpr enough)]
      omega
    · show s.granted - (dynaPageNum s.hw.busType).toNat < 2 ^ 32
      omega
  | false =>
    rw [back, if_neg Bool.false_ne_true] at pages
    refine ⟨⟨?_, refunded, inv.inOrder, inv.once, inv.alive⟩, bounded⟩
    show (hw'.txPageFreeNum.toNat : Int) + pagesOf (s.scatList ++ s.unconfirmed) = s.granted
    rw [pages]
    exact conserved

theorem step {a : TxAct} (safe : PagesSafe s a)
    (stepped : s.step a = some s') : PagesInv s' := by
  cases a with
  | push packetLen amsdu => exact inv.push stepped
  | wake => exact inv.wake stepped
  | check => exact inv.check stepped
  | take kzalloc => exact inv.take safe stepped
  | send => exact inv.send stepped
  | cfm id dynaPage => exact inv.cfm safe stepped
  | hostTxStop =>
    obtain rfl := some.inj stepped
    exact inv.frame rfl rfl rfl rfl rfl rfl rfl rfl inv.alive
  | hostTxStart =>
    obtain rfl := some.inj stepped
    exact inv.frame rfl rfl rfl rfl rfl rfl rfl rfl inv.alive
  | setTxpageOnce txpage =>
    obtain rfl := some.inj stepped
    exact inv.frame rfl rfl rfl rfl rfl rfl rfl rfl inv.alive
  | ring a => exact inv.ring safe stepped

end

end PagesInv

/-! ### Runs -/

instance (s : TxHw) (e : ScatEntry) (dynaPage : BitVec 16) : Decidable (CfmSafe s e dynaPage) :=
  inferInstanceAs (Decidable (ite (dynaPage.setWidth 32 = dynaPageNum s.hw.busType) (_ < _) (_ → _)))

instance (s : TxHw) (a : TxAct) : Decidable (PagesSafe s a) :=
  match a with
  | .take _ => inferInstanceAs (Decidable (∀ h ∈ s.txDescSave.head?, _ ∧ _))
  | .cfm id dynaPage => inferInstanceAs
      (Decidable (∀ e ∈ s.unconfirmed.find? fun e => e.1.id == id, CfmSafe s e dynaPage))
  | .ring a => inferInstanceAs (Decidable (handsBack s.hw a = true → _ ≤ _))
  | .push _ _ | .wake | .check | .send | .hostTxStop | .hostTxStart | .setTxpageOnce _ =>
    .isTrue trivial

/-- **TX page conservation.** In every run whose steps are safe the free pages and the pages of the
frames in flight are the pages granted, a confirmation refunds what its frame was charged, and every
frame is charged and sent once and in order. -/
theorem txPages_conserved {bus : BusType} {s : TxHw}
    (reach : (txSystem bus).Reachable PagesSafe s) : PagesConserved s :=
  (reach.invariant (pagesInv_init bus)
    fun _ _ _ _ inv safe stepped => PagesInv.step inv safe stepped).toPagesConserved

/-- A frame on SDIO from its push to its confirmation, which brings the pages of the RX buffer. -/
theorem txPages_conserved_sdio :
    ∃ s, (txSystem .sdio).Reachable PagesSafe s ∧ s.sent = [0] ∧ s.hw.txPageFreeNum = 255 ∧ PagesConserved s := by
  have reach := System.reachable_of_run (txSystem .sdio) PagesSafe
    [.push [1514] false, .wake, .check, .take true, .check, .send, .send, .cfm 0 140]
    (by decide +kernel)
  exact ⟨_, reach, by decide +kernel, by decide +kernel, txPages_conserved reach⟩

/-- **A failed `kzalloc` loses the pages of the frame**: it stays in `tx_desc_save`, charged. -/
theorem txPages_lost : ¬ ∀ bus s, (txSystem bus).Reachable (fun _ _ => True) s → PagesConserved s := by
  intro conserved
  have reach := System.reachable_of_run (txSystem .sdio) (fun _ _ => True)
    [.push [1514] false, .wake, .check, .take false] (by decide)
  have once := (conserved .sdio _ reach).once
  revert once
  decide

end W2l.Tx
