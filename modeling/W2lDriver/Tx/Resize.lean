/-
**Pages change hands between the RX ring and the TX pages.**

`aml_sdio_dynamic_buffer_check`, `aml_trigger_rst_rxd` (`fullmac/aml_rx.c`), `aml_tx_cfm_task`
(`fullmac/aml_tx.c`), `aml_pci_ack_irq` (`aml_platform.c`); SDIO and USB. The firmware asks for a
resize in its interrupt word. The first read after it prepares the resize, the second completes it,
and the word `aml_trigger_rst_rxd` writes tells the firmware.

* `rstWord` — that word; `ResizeHw` — the two sides, the word written last, and a log.
* `HandedOver` — the promise: one subtraction for each expansion, one addition for each reduction,
  one notification for each of them, and the totals and the old position in step with the ring.
* `Orderly` — the steps that keep it.
-/

import Mathlib.Tactic.IntervalCases
import Mathlib.Tactic.Linarith
import W2lDriver.Tx.Pages

namespace W2l.Tx

open Cmd (BusType)
open Lib (System)
open Rx
open List (count_append)
open BitVec (le_def lt_def)
open Option (map_eq_some_iff some.inj)

/-! ### The word to the firmware -/

def rxEnlargeReadRxDataFinsh : BitVec 32 := 1 <<< 25
def hostRxbufEnlargeFinsh : BitVec 32 := 1 <<< 26
def rxReduceReadRxDataFinsh : BitVec 32 := 1 <<< 27
def hostRxbufReduceFinsh : BitVec 32 := 1 <<< 28

/-- `addr_rst` at the end of `aml_trigger_rst_rxd`. -/
def rstWord (hw : RxHw) : BitVec 32 :=
  let st := hw.rxBufState
  let small := rxbufEndAddrSmall hw.busType
  let addr := if st.narrow && small ≤ unwrapped hw.fwNewPos then rxbufStartAddr else hw.fwNewPos
  let addr := if st.narrow then addr ||| rxReduceReadRxDataFinsh else addr
  let addr := if st.notify then addr ||| hostRxbufReduceFinsh else addr
  let addr := if st.expand then addr ||| rxEnlargeReadRxDataFinsh else addr
  if st.expendFinsh then addr ||| hostRxbufEnlargeFinsh else addr

def reduceFinished (word : BitVec 32) : Bool := word.getLsbD 28
def enlargeFinished (word : BitVec 32) : Bool := word.getLsbD 26

/-! ### Both sides -/

/-- What happens to the pages. -/
inductive ResizeEvent
  /-- A resize is completed. -/
  | narrowed
  | expanded
  /-- The pages are added to `tx_page_free_num`, or subtracted from it. -/
  | lent
  | taken
  /-- A confirmation subtracts its `dyna_page` for the logic analyzer. -/
  | laTaken (dynaPage : Nat)
  /-- A word is written to the firmware. -/
  | told (word : BitVec 32)
  deriving DecidableEq

/-- The RX and the TX side, `last_addr`, and `state` as far as SDIO writes depend on it. -/
structure ResizeHw where
  tx : TxHw
  lastAddr : BitVec 32 := 0
  suspended : Bool := false
  log : List ResizeEvent := []

def resizeInit (bus : BusType) : ResizeHw where
  tx := txInit bus

inductive ResizeAct
  | tx (a : TxAct)
  | setSuspended (on : Bool)

/-- `aml_sdio_rxdataind` finds a node and something to read. -/
def reads (hw : RxHw) : Bool := !hw.rxbufFreeList.isEmpty && hw.fwBufPos != hw.fwNewPos

/-- `aml_sdio_dynamic_buffer_check` completes a resize. -/
def completes (hw : RxHw) : Bool :=
  hw.rxBufState.status && !hw.laEnable && hw.rxBufState.updateFlag

namespace ResizeHw

/-- The events of a read: the check, the pages `aml_trigger_rst_rxd` takes, and its word. -/
def readEvents (s : ResizeHw) : List ResizeEvent :=
  let checked := s.tx.hw.dynamicBufferCheck.1
  (if completes s.tx.hw then [if s.tx.hw.rxBufState.narrow then .narrowed else .expanded] else []) ++
    (if checked.rxBufState.expand then [.taken] else []) ++
    if s.lastAddr ≠ rstWord checked ∧ (s.tx.hw.busType = .usb ∨ s.suspended = false) then
      [.told (rstWord checked)]
    else []

def cfmEvents (s : ResizeHw) (dynaPage : BitVec 16) : List ResizeEvent :=
  if dynaPage.setWidth 32 = dynaPageNum s.tx.hw.busType then [.lent]
  else if s.tx.hw.laEnable then [.laTaken dynaPage.toNat] else []

def step (s : ResizeHw) : ResizeAct → Option ResizeHw
  | .setSuspended on => some { s with suspended := on }
  | .tx a =>
    (s.tx.step a).map fun tx =>
      match a with
      | .ring .rxdataind =>
        if reads s.tx.hw then
          { s with
            tx := tx
            lastAddr := rstWord s.tx.hw.dynamicBufferCheck.1
            log := s.log ++ s.readEvents }
        else { s with tx := tx }
      | .cfm _ dynaPage => { s with tx := tx, log := s.log ++ s.cfmEvents dynaPage }
      | _ => { s with tx := tx }

end ResizeHw

def resizeSystem (bus : BusType) : System ResizeHw ResizeAct where
  init := resizeInit bus
  step := ResizeHw.step

/-! ### The promise -/

def toldWords (log : List ResizeEvent) : List (BitVec 32) :=
  log.filterMap fun | .told word => some word | _ => none

def laPages (log : List ResizeEvent) : Nat :=
  (log.map fun | .laTaken dynaPage => dynaPage | _ => 0).sum

def expanding (st : RxBufState) : Bool := st.updateFlag && st.expand

/-- The ring is small and the pages have not been added yet. -/
def Unpaid (hw : RxHw) : Prop := hw.Small ∧ hw.rxBufState.txUsedFlag = false

instance (hw : RxHw) : Decidable hw.Small := inferInstanceAs (Decidable (_ ∧ _))
instance (hw : RxHw) : Decidable hw.Large := inferInstanceAs (Decidable (_ ∧ _))
instance (hw : RxHw) : Decidable (Unpaid hw) := inferInstanceAs (Decidable (_ ∧ _))

/-- `tx_page_tot_num` of the configuration in force: that of the ring, and between the two reads of a
resize that of the ring it leads to. -/
def totNum (hw : RxHw) : BitVec 32 :=
  if hw.rxBufState.updateFlag then
    if hw.rxBufState.narrow then txPageNumLarge hw.busType else txPageNumSmall hw.busType
  else if hw.Large then txPageNumSmall hw.busType else txPageNumLarge hw.busType

/-- **The pages were handed over.** -/
structure HandedOver (s : ResizeHw) : Prop where
  /-- One subtraction for each expansion; one is ahead between its two reads. -/
  taken : s.log.count .taken = s.log.count .expanded + if expanding s.tx.hw.rxBufState then 1 else 0
  /-- One addition for each reduction; it comes with a confirmation behind it. -/
  lent : s.log.count .narrowed = s.log.count .lent + if Unpaid s.tx.hw then 1 else 0
  /-- The pages granted are those of the log. -/
  granted : s.tx.granted = (txPageNumSmall s.tx.hw.busType).toNat +
    (dynaPageNum s.tx.hw.busType).toNat * ((s.log.count .lent : Int) - s.log.count .taken) -
    laPages s.log
  totNum : s.tx.hw.txPageTotNum = totNum s.tx.hw
  toldNarrowed : (toldWords s.log).countP reduceFinished = s.log.count .narrowed
  toldExpanded : (toldWords s.log).countP enlargeFinished = s.log.count .expanded
  below : unwrapped s.tx.hw.fwBufPos < s.tx.hw.rxBufEnd

def endInForce (hw : RxHw) : BitVec 32 :=
  if completes hw then
    if hw.rxBufState.narrow then rxbufEndAddrSmall hw.busType else rxbufEndAddrLarge hw.busType
  else hw.rxBufEnd

/-- The position the firmware reports lies in the ring in force, below its end. -/
def PosBelow (hw : RxHw) : Prop :=
  rxbufStartAddr ≤ unwrapped hw.fwNewPos ∧ unwrapped hw.fwNewPos < endInForce hw

/-- What an orderly read needs. -/
structure ReadOrderly (s : ResizeHw) : Prop where
  pos : PosBelow s.tx.hw
  /-- `la_enable` meets no expansion, and no reduction before its first read. -/
  la : s.tx.hw.laEnable = true → s.tx.hw.rxBufState.expand = false ∧
    (s.tx.hw.rxBufState.narrow = true → s.tx.hw.rxBufState.updateFlag = true)
  /-- Pages are taken after they were added. -/
  lent : s.tx.hw.rxBufState.expand = true → s.tx.hw.rxBufState.txUsedFlag = true
  /-- On SDIO the bus is up when the firmware is to be told. -/
  awake : completes s.tx.hw = true → s.tx.hw.busType = .usb ∨ s.suspended = false

/-- **Orderly steps**: a request comes when none is pending, a request to become narrow meets a large
ring, and pages are added once for each reduction. -/
def Orderly (s : ResizeHw) : ResizeAct → Prop
  | .tx (.ring .rxdataind) => reads s.tx.hw = true → ReadOrderly s
  | .tx (.ring (.ackIrq regVal)) => (s.tx.hw.amlPciAckIrq regVal).rxBufState ≠ s.tx.hw.rxBufState →
      s.tx.hw.rxBufState.status = false ∧ ((s.tx.hw.amlPciAckIrq regVal).rxBufState.narrow = true → s.tx.hw.Large)
  | .tx (.cfm _ dynaPage) => dynaPage.setWidth 32 = dynaPageNum s.tx.hw.busType → Unpaid s.tx.hw
  | _ => True

/-! ### The bits of a word -/

theorem getLsbD_pos {pos : BitVec 32} (low : rxbufStartAddr ≤ unwrapped pos)
    (high : unwrapped pos ≤ rxbufEndAddrLarge .usb) {i : Nat} (above : 20 < i) (below : i < 29) :
    pos.getLsbD i = false := by
  have same : (unwrapped pos).getLsbD i = pos.getLsbD i := by
    have wrap : amlWrap.getLsbD i = false := by
      interval_cases i <;> rfl
    rw [unwrapped, BitVec.getLsbD_and, BitVec.getLsbD_not, wrap]
    simp [show i < 32 by omega]
  rw [← same, BitVec.getLsbD, Nat.testBit_eq_decide_div_mod_eq]
  rw [le_def] at low high
  have low' : 0x60013b4c ≤ (unwrapped pos).toNat := low
  have high' : (unwrapped pos).toNat ≤ 0x600684b0 := high
  interval_cases i <;> simp <;> omega

theorem getLsbD_ite_or (flag : Bool) (word mask : BitVec 32) (i : Nat) :
    (if flag then word ||| mask else word).getLsbD i = (word.getLsbD i || (flag && mask.getLsbD i)) := by
  cases flag <;> simp

theorem getLsbD_rstWord {hw : RxHw} (low : rxbufStartAddr ≤ unwrapped hw.fwNewPos)
    (high : unwrapped hw.fwNewPos ≤ rxbufEndAddrLarge .usb) :
    (rstWord hw).getLsbD 25 = hw.rxBufState.expand ∧ (rstWord hw).getLsbD 26 = hw.rxBufState.expendFinsh ∧
      (rstWord hw).getLsbD 27 = hw.rxBufState.narrow ∧
      (rstWord hw).getLsbD 28 = hw.rxBufState.notify := by
  have addr : ∀ i, 20 < i → i < 29 → (if hw.rxBufState.narrow &&
      decide (rxbufEndAddrSmall hw.busType ≤ unwrapped hw.fwNewPos) then rxbufStartAddr
      else hw.fwNewPos).getLsbD i = false := fun i above below => by
    split
    · interval_cases i <;> rfl
    · exact getLsbD_pos low high above below
  have masks : ∀ i, 24 < i → i < 29 → rxEnlargeReadRxDataFinsh.getLsbD i = decide (i = 25) ∧
      hostRxbufEnlargeFinsh.getLsbD i = decide (i = 26) ∧
      rxReduceReadRxDataFinsh.getLsbD i = decide (i = 27) ∧
      hostRxbufReduceFinsh.getLsbD i = decide (i = 28) := fun i above below => by
    interval_cases i <;> decide
  have word : ∀ i, 24 < i → i < 29 → (rstWord hw).getLsbD i =
      (((hw.rxBufState.narrow && decide (i = 27)) || (hw.rxBufState.notify && decide (i = 28)) ||
        (hw.rxBufState.expand && decide (i = 25))) ||
        (hw.rxBufState.expendFinsh && decide (i = 26))) := fun i above below => by
    obtain ⟨enlarge, enlarged, reduce, reduced⟩ := masks i above below
    simp only [rstWord, getLsbD_ite_or, addr i (by omega) below, enlarge, enlarged, reduce, reduced, Bool.false_or]
  refine ⟨?_, ?_, ?_, ?_⟩
  · rw [word 25 (by omega) (by omega)]
    simp
  · rw [word 26 (by omega) (by omega)]
    simp
  · rw [word 27 (by omega) (by omega)]
    simp
  · rw [word 28 (by omega) (by omega)]
    simp

/-! ### The check and the read -/

/-- What `aml_sdio_dynamic_buffer_check` does: nothing, or it prepares a resize, or it completes one. -/
theorem dynamicBufferCheck_cases (hw : RxHw) : (completes hw = false ∧ hw.dynamicBufferCheck.1 = hw ∧
        (hw.rxBufState.status = false ∨ hw.laEnable = true)) ∨
      (completes hw = false ∧ hw.laEnable = false ∧ hw.rxBufState.status = true ∧
        hw.dynamicBufferCheck.1 = { hw with rxBufState := { hw.rxBufState with updateFlag := true } }) ∨
      (completes hw = true ∧ hw.rxBufState.narrow = true ∧ hw.dynamicBufferCheck.1 =
        { hw with
          rxBufEnd := rxbufEndAddrSmall hw.busType
          rxBufLen := rxBufferLenSmall hw.busType
          rxBufState := { hw.rxBufState with
            narrow := false, expand := false, updateFlag := false, notify := true } }) ∨
      (completes hw = true ∧ hw.rxBufState.narrow = false ∧ hw.rxBufState.expand = true ∧ hw.dynamicBufferCheck.1 =
        { hw with
          rxBufEnd := rxbufEndAddrLarge hw.busType
          rxBufLen := rxBufferLenLarge hw.busType
          rxBufState := { hw.rxBufState with
            narrow := false, expand := false, updateFlag := false, expendFinsh := true } }) := by
  cases status : hw.rxBufState.status with
  | false =>
    exact .inl ⟨by simp [completes, status], by simp [RxHw.dynamicBufferCheck, status], .inl rfl⟩
  | true =>
    cases la : hw.laEnable with
    | true =>
      exact .inl ⟨by simp [completes, la], by simp [RxHw.dynamicBufferCheck, la], .inr rfl⟩
    | false =>
      cases update : hw.rxBufState.updateFlag with
      | false =>
        refine .inr (.inl ⟨by simp [completes, update], rfl, rfl, ?_⟩)
        simp [RxHw.dynamicBufferCheck, status, la, update]
      | true =>
        have done : completes hw = true := by simp [completes, status, la, update]
        cases narrow : hw.rxBufState.narrow with
        | true =>
          refine .inr (.inr (.inl ⟨done, rfl, ?_⟩))
          simp [RxHw.dynamicBufferCheck, status, la, update, narrow]
        | false =>
          have expand : hw.rxBufState.expand = true := by
            simpa [RxBufState.status, narrow] using status
          refine .inr (.inr (.inr ⟨done, rfl, expand, ?_⟩))
          simp [RxHw.dynamicBufferCheck, status, la, update, narrow]

theorem endInForce_eq (hw : RxHw) : endInForce hw = hw.inForce.1 := by
  unfold endInForce RxHw.inForce
  rcases dynamicBufferCheck_cases hw with ⟨quiet, same, -⟩ | ⟨quiet, -, -, same⟩ |
    ⟨done, narrow, same⟩ | ⟨done, narrow, -, same⟩
  · rw [same, quiet]
    rfl
  · rw [same, quiet]
    rfl
  · rw [same, done, narrow]
    rfl
  · rw [same, done, narrow]
    rfl

theorem PosBelow.below {hw : RxHw} (pos : PosBelow hw) :
    unwrapped hw.fwNewPos < hw.inForce.1 := endInForce_eq hw ▸ pos.2

/-- **What a read changes**, in terms of what the check leaves. -/
structure ReadSpec (hw hw' : RxHw) : Prop where
  busType : hw'.busType = hw.busType
  rxBufEnd : hw'.rxBufEnd = hw.dynamicBufferCheck.1.rxBufEnd
  rxBufLen : hw'.rxBufLen = hw.dynamicBufferCheck.1.rxBufLen
  rxBufState : hw'.rxBufState = { hw.dynamicBufferCheck.1.rxBufState with
    notify := false
    expendFinsh := false
    txUsedFlag := hw.dynamicBufferCheck.1.rxBufState.txUsedFlag &&
      !hw.dynamicBufferCheck.1.rxBufState.expendFinsh }
  fwBufPos : hw'.fwBufPos = if hw.dynamicBufferCheck.1.rxBufState.narrow &&
      decide (rxbufEndAddrSmall hw.busType ≤ unwrapped hw.fwNewPos) then rxbufStartAddr
    else hw.fwNewPos
  txPageTotNum : hw'.txPageTotNum = if hw.dynamicBufferCheck.1.rxBufState.expand then txPageNumSmall hw.busType
    else if hw.dynamicBufferCheck.1.rxBufState.narrow then txPageNumLarge hw.busType
    else hw.txPageTotNum

theorem readSpec {hw hw' : RxHw} (news : reads hw = true)
    (stepped : hw.step .rxdataind = some hw') : ReadSpec hw hw' := by
  simp only [RxHw.step, RxHw.amlSdioRxdataind] at stepped
  cases free : hw.rxbufFreeList with
  | nil => simp [reads, free] at news
  | cons n rest =>
    have differ : hw.fwBufPos ≠ hw.fwNewPos := by
      simpa [reads, free] using news
    simp only [free, if_pos differ] at stepped
    obtain rfl := some.inj stepped
    rw [RxHw.readChunk_eq]
    have frame := hw.dynamicBufferCheck_frame
    have busType : (hw.afterRead n rest).busType = hw.busType := by
      show hw.dynamicBufferCheck.1.busType = _
      rw [frame]
    have newPos : (hw.afterRead n rest).fwNewPos = hw.fwNewPos := by
      show hw.dynamicBufferCheck.1.fwNewPos = _
      rw [frame]
    have totNum : (hw.afterRead n rest).txPageTotNum = hw.txPageTotNum := by
      show hw.dynamicBufferCheck.1.txPageTotNum = _
      rw [frame]
    constructor
    case busType => exact busType
    case rxBufEnd => rfl
    case rxBufLen => rfl
    case rxBufState => rfl
    case fwBufPos =>
      rw [← busType, ← newPos]
      rfl
    case txPageTotNum =>
      rw [← busType, ← totNum]
      rfl

theorem step_of_not_reads {hw hw' : RxHw} (nothing : reads hw = false)
    (stepped : hw.step .rxdataind = some hw') : hw' = hw := by
  simp only [RxHw.step, RxHw.amlSdioRxdataind] at stepped
  cases free : hw.rxbufFreeList with
  | nil => simp [free] at stepped
  | cons n rest =>
    have same : hw.fwBufPos = hw.fwNewPos := by
      simpa [reads, free] using nothing
    simp only [free, same, ne_eq, not_true_eq_false, if_false] at stepped
    exact (some.inj stepped).symm

theorem handsBack_eq (hw : RxHw) :
    handsBack hw .rxdataind = (reads hw && hw.dynamicBufferCheck.1.rxBufState.expand) := rfl

/-! ### The log of a read -/

section Log

variable (s : ResizeHw)

theorem count_readEvents :
    s.readEvents.count .narrowed = (if completes s.tx.hw && s.tx.hw.rxBufState.narrow then 1 else 0) ∧
      s.readEvents.count .expanded = (if completes s.tx.hw && !s.tx.hw.rxBufState.narrow then 1 else 0) ∧
      s.readEvents.count .taken = (if s.tx.hw.dynamicBufferCheck.1.rxBufState.expand then 1 else 0) ∧
      s.readEvents.count .lent = 0 := by
  unfold ResizeHw.readEvents
  cases completes s.tx.hw <;> cases s.tx.hw.rxBufState.narrow <;>
    simp [apply_ite (List.count _)]

theorem laPages_append (log log' : List ResizeEvent) : laPages (log ++ log') = laPages log + laPages log' := by
  rw [laPages, List.map_append, List.sum_append]
  rfl

theorem laPages_readEvents : laPages s.readEvents = 0 := by
  unfold ResizeHw.readEvents
  simp only [laPages_append, apply_ite laPages]
  cases completes s.tx.hw <;> cases s.tx.hw.rxBufState.narrow <;> simp [laPages]

theorem toldWords_append (log log' : List ResizeEvent) :
    toldWords (log ++ log') = toldWords log ++ toldWords log' := List.filterMap_append

theorem toldWords_readEvents : toldWords s.readEvents = if s.lastAddr ≠ rstWord s.tx.hw.dynamicBufferCheck.1 ∧
      (s.tx.hw.busType = .usb ∨ s.suspended = false) then [rstWord s.tx.hw.dynamicBufferCheck.1]
    else [] := by
  unfold ResizeHw.readEvents
  simp only [toldWords_append, apply_ite toldWords]
  cases completes s.tx.hw <;> cases s.tx.hw.rxBufState.narrow <;> simp [toldWords]

end Log

/-! ### The invariant -/

/-- The promise, and what a resize on its way has done so far. -/
structure ResizeInv (s : ResizeHw) : Prop extends HandedOver s where
  ring : RingInv s.tx.hw
  notified : s.tx.hw.rxBufState.notify = false ∧ s.tx.hw.rxBufState.expendFinsh = false
  narrowing : s.tx.hw.rxBufState.narrow = true → s.tx.hw.rxBufState.expand = false ∧ s.tx.hw.Large
  widening : s.tx.hw.rxBufState.expand = true → s.tx.hw.Small
  largeUnused : s.tx.hw.Large → s.tx.hw.rxBufState.txUsedFlag = false
  lentBefore : expanding s.tx.hw.rxBufState = true → s.tx.hw.rxBufState.txUsedFlag = true
  /-- A resize that is prepared is what the last word was about. -/
  prepared : s.tx.hw.rxBufState.updateFlag = true → s.lastAddr.getLsbD 27 = s.tx.hw.rxBufState.narrow ∧
      s.lastAddr.getLsbD 25 = s.tx.hw.rxBufState.expand ∧
      (s.tx.hw.rxBufState.narrow = true → unwrapped s.tx.hw.fwBufPos < rxbufEndAddrSmall s.tx.hw.busType)

theorem resizeInv_init (bus : BusType) : ResizeInv (resizeInit bus) where
  taken := rfl
  lent := by
    have large : ¬ Unpaid (resizeInit bus).tx.hw := fun unpaid =>
      not_large_of_small unpaid.1 ⟨rfl, rfl⟩
    rw [if_neg large]
    rfl
  granted := by cases bus <;> decide
  totNum := by cases bus <;> decide
  toldNarrowed := rfl
  toldExpanded := rfl
  below := by cases bus <;> decide
  ring := ringInv_init bus
  notified := ⟨rfl, rfl⟩
  narrowing narrow := by cases narrow
  widening expand := by cases expand
  largeUnused _ := rfl
  lentBefore expand := by cases expand
  prepared update := by cases update

namespace ResizeInv

variable {s : ResizeHw}

section

variable (inv : ResizeInv s)

include inv

theorem frame {s' : ResizeHw} (ring : RingInv s'.tx.hw)
    (busType : s'.tx.hw.busType = s.tx.hw.busType)
    (rxBufState : s'.tx.hw.rxBufState = s.tx.hw.rxBufState)
    (rxBufEnd : s'.tx.hw.rxBufEnd = s.tx.hw.rxBufEnd)
    (rxBufLen : s'.tx.hw.rxBufLen = s.tx.hw.rxBufLen)
    (fwBufPos : s'.tx.hw.fwBufPos = s.tx.hw.fwBufPos)
    (txPageTotNum : s'.tx.hw.txPageTotNum = s.tx.hw.txPageTotNum)
    (granted : s'.tx.granted = s.tx.granted) (lastAddr : s'.lastAddr = s.lastAddr)
    (log : s'.log = s.log) : ResizeInv s' := by
  have large : s'.tx.hw.Large ↔ s.tx.hw.Large := by
    rw [RxHw.Large, RxHw.Large, rxBufEnd, rxBufLen, busType]
  have small : s'.tx.hw.Small ↔ s.tx.hw.Small := by
    rw [RxHw.Small, RxHw.Small, rxBufEnd, rxBufLen, busType]
  constructor
  case toHandedOver =>
    constructor
    case taken => rw [log, rxBufState, inv.taken]
    case lent =>
      have unpaid : Unpaid s'.tx.hw ↔ Unpaid s.tx.hw := and_congr small (by rw [rxBufState])
      rw [log, inv.lent]
      simp only [unpaid]
    case granted => rw [granted, log, busType, inv.granted]
    case totNum =>
      rw [txPageTotNum, inv.totNum]
      simp only [Tx.totNum, large, rxBufState, busType]
    case toldNarrowed => rw [log, inv.toldNarrowed]
    case toldExpanded => rw [log, inv.toldExpanded]
    case below => rw [fwBufPos, rxBufEnd]; exact inv.below
  case ring => exact ring
  case notified => rw [rxBufState]; exact inv.notified
  case narrowing => rw [rxBufState, large]; exact inv.narrowing
  case widening => rw [rxBufState, small]; exact inv.widening
  case largeUnused => rw [rxBufState, large]; exact inv.largeUnused
  case lentBefore => rw [rxBufState]; exact inv.lentBefore
  case prepared => rw [rxBufState, lastAddr, fwBufPos, busType]; exact inv.prepared

theorem readWord (orderly : ReadOrderly s) : let word := rstWord s.tx.hw.dynamicBufferCheck.1
    let st := s.tx.hw.dynamicBufferCheck.1.rxBufState
    word.getLsbD 25 = st.expand ∧ word.getLsbD 26 = st.expendFinsh ∧
      word.getLsbD 27 = st.narrow ∧ word.getLsbD 28 = st.notify := by
  have newPos : s.tx.hw.dynamicBufferCheck.1.fwNewPos = s.tx.hw.fwNewPos := by
    rw [RxHw.dynamicBufferCheck_frame]
  have usb : ∀ bus, rxbufEndAddrLarge bus ≤ rxbufEndAddrLarge .usb := fun bus => by
    cases bus <;> decide
  have last : s.tx.hw.inForce.1 ≤ rxbufEndAddrLarge .usb := by
    rcases inv.ring.check.ring with large | small
    · exact BitVec.le_trans (BitVec.le_of_eq large.1) (usb _)
    · exact BitVec.le_trans (BitVec.le_of_eq small.1) (BitVec.le_trans (small_le_large _) (usb _))
  refine getLsbD_rstWord (newPos ▸ orderly.pos.1) ?_
  rw [newPos]
  exact BitVec.le_trans (BitVec.le_of_lt orderly.pos.below) last

theorem checked_notified : s.tx.hw.dynamicBufferCheck.1.rxBufState.notify =
        (completes s.tx.hw && s.tx.hw.rxBufState.narrow) ∧
      s.tx.hw.dynamicBufferCheck.1.rxBufState.expendFinsh = (completes s.tx.hw && !s.tx.hw.rxBufState.narrow) := by
  rcases dynamicBufferCheck_cases s.tx.hw with ⟨quiet, same, -⟩ | ⟨quiet, -, -, same⟩ |
    ⟨done, narrow, same⟩ | ⟨done, narrow, -, same⟩
  · rw [same, quiet]
    exact inv.notified
  · rw [same, quiet]
    exact inv.notified
  · rw [same, done, narrow]
    exact ⟨rfl, inv.notified.2⟩
  · rw [same, done, narrow]
    exact ⟨inv.notified.1, rfl⟩

section

variable (orderly : ReadOrderly s)

include orderly

theorem word_differs
    (done : completes s.tx.hw = true) : s.lastAddr ≠ rstWord s.tx.hw.dynamicBufferCheck.1 := by
  obtain ⟨enlarging, -, reducing, -⟩ := inv.readWord orderly
  have update : s.tx.hw.rxBufState.updateFlag = true := (Bool.and_eq_true _ _ ▸ done).2
  obtain ⟨narrowBit, expandBit, -⟩ := inv.prepared update
  intro equal
  rw [← equal] at enlarging reducing
  rcases dynamicBufferCheck_cases s.tx.hw with ⟨quiet, -⟩ | ⟨quiet, -⟩ | ⟨-, narrow, same⟩ |
    ⟨-, -, expand, same⟩
  · exact Bool.false_ne_true (quiet.symm.trans done)
  · exact Bool.false_ne_true (quiet.symm.trans done)
  · rw [same, narrowBit, narrow] at reducing
    cases reducing
  · rw [same, expandBit, expand] at enlarging
    cases enlarging

theorem told_read : (toldWords s.readEvents).countP reduceFinished =
        (if completes s.tx.hw && s.tx.hw.rxBufState.narrow then 1 else 0) ∧
      (toldWords s.readEvents).countP enlargeFinished =
        (if completes s.tx.hw && !s.tx.hw.rxBufState.narrow then 1 else 0) := by
  obtain ⟨-, enlarged, -, reduced⟩ := inv.readWord orderly
  obtain ⟨notify, expendFinsh⟩ := inv.checked_notified
  have once : ∀ (finished : BitVec 32 → Bool) (which : Bool),
      finished (rstWord s.tx.hw.dynamicBufferCheck.1) = (completes s.tx.hw && which) →
      (toldWords s.readEvents).countP finished =
        if completes s.tx.hw && which then 1 else 0 := fun finished which bit => by
    rw [toldWords_readEvents]
    cases done : completes s.tx.hw with
    | true =>
      rw [if_pos ⟨inv.word_differs orderly done, orderly.awake done⟩, List.countP_singleton, bit, done]
    | false =>
      rw [done, Bool.false_and] at bit
      split <;> simp [bit]
  exact ⟨once reduceFinished _ (reduced.trans notify), once enlargeFinished _ (enlarged.trans expendFinsh)⟩

/-! ### A read -/

theorem of_read {tx' : TxHw}
    (spec : ReadSpec s.tx.hw tx'.hw) (ring : RingInv tx'.hw)
    (granted : tx'.granted = if s.tx.hw.dynamicBufferCheck.1.rxBufState.expand then
      s.tx.granted - (dynaPageNum s.tx.hw.busType).toNat else s.tx.granted)
    (taken : (if expanding s.tx.hw.rxBufState then 1 else 0) +
        (if s.tx.hw.dynamicBufferCheck.1.rxBufState.expand then 1 else 0) =
      (if completes s.tx.hw && !s.tx.hw.rxBufState.narrow then 1 else 0) +
        if expanding tx'.hw.rxBufState then 1 else 0)
    (lent : (if Unpaid s.tx.hw then 1 else 0) + (if completes s.tx.hw && s.tx.hw.rxBufState.narrow then 1 else 0) =
      if Unpaid tx'.hw then 1 else 0)
    (totNum : tx'.hw.txPageTotNum = Tx.totNum tx'.hw)
    (below : unwrapped tx'.hw.fwBufPos < tx'.hw.rxBufEnd)
    (narrowing : tx'.hw.rxBufState.narrow = true → tx'.hw.rxBufState.expand = false ∧ tx'.hw.Large ∧
        unwrapped tx'.hw.fwBufPos < rxbufEndAddrSmall tx'.hw.busType)
    (widening : tx'.hw.rxBufState.expand = true → tx'.hw.Small)
    (largeUnused : tx'.hw.Large → tx'.hw.rxBufState.txUsedFlag = false)
    (lentBefore : expanding tx'.hw.rxBufState = true → tx'.hw.rxBufState.txUsedFlag = true) :
    ResizeInv { s with
      tx := tx'
      lastAddr := rstWord s.tx.hw.dynamicBufferCheck.1
      log := s.log ++ s.readEvents } := by
  obtain ⟨toldNarrowed, toldExpanded⟩ := inv.told_read orderly
  obtain ⟨expandBit, -, narrowBit, -⟩ := inv.readWord orderly
  obtain ⟨narrowed, expanded, taken', lent'⟩ := count_readEvents s
  constructor
  case toHandedOver =>
    constructor
    case taken =>
      have before := inv.taken
      simp only [count_append, taken', expanded]
      omega
    case lent =>
      have before := inv.lent
      simp only [count_append, lent', narrowed]
      omega
    case granted =>
      have before := inv.granted
      simp only [count_append, taken', lent', laPages_append, laPages_readEvents, granted, spec.busType]
      split <;> push_cast <;> linarith
    case totNum => exact totNum
    case toldNarrowed =>
      simp only [toldWords_append, List.countP_append, count_append, narrowed, toldNarrowed, inv.toldNarrowed]
    case toldExpanded =>
      simp only [toldWords_append, List.countP_append, count_append, expanded, toldExpanded, inv.toldExpanded]
    case below => exact below
  case ring => exact ring
  case notified => exact ⟨congrArg RxBufState.notify spec.rxBufState, congrArg RxBufState.expendFinsh spec.rxBufState⟩
  case narrowing => exact fun narrow => ⟨(narrowing narrow).1, (narrowing narrow).2.1⟩
  case widening => exact widening
  case largeUnused => exact largeUnused
  case lentBefore => exact lentBefore
  case prepared =>
    refine fun _ => ⟨narrowBit.trans ?_, expandBit.trans ?_, fun narrow => (narrowing narrow).2.2⟩
    · exact (congrArg RxBufState.narrow spec.rxBufState).symm
    · exact (congrArg RxBufState.expand spec.rxBufState).symm

end

end

theorem fwBufPos_cases {hw hw' : RxHw} (spec : ReadSpec hw hw') :
    (hw'.fwBufPos = rxbufStartAddr ∨ hw'.fwBufPos = hw.fwNewPos) ∧ (hw.dynamicBufferCheck.1.rxBufState.narrow = true →
        unwrapped hw'.fwBufPos < rxbufEndAddrSmall hw.busType) := by
  rw [spec.fwBufPos]
  split
  case isTrue =>
    refine ⟨.inl rfl, fun _ => ?_⟩
    cases hw.busType <;> decide
  case isFalse within =>
    refine ⟨.inr rfl, fun narrow => ?_⟩
    simp only [narrow, Bool.true_and, decide_eq_true_eq] at within
    rw [le_def] at within
    rw [lt_def]
    omega

/-- With nothing to tell the firmware, `aml_trigger_rst_rxd` leaves the state. -/
theorem told_eq {st : RxBufState} (notified : st.notify = false ∧ st.expendFinsh = false) :
    { st with
      notify := false
      expendFinsh := false
      txUsedFlag := st.txUsedFlag && !st.expendFinsh } = st := by
  cases st
  simp_all

theorem below_of_spec (orderly : ReadOrderly s) {hw' : RxHw} (spec : ReadSpec s.tx.hw hw') :
    unwrapped hw'.fwBufPos < hw'.rxBufEnd := by
  rw [spec.rxBufEnd]
  rcases (fwBufPos_cases spec).1 with start | new
  · rw [start, unwrapped_start]
    exact lt_def.mpr (Nat.lt_of_le_of_lt (le_def.mp orderly.pos.1) (lt_def.mp orderly.pos.below))
  · rw [new]
    exact orderly.pos.below

section Read

variable {tx' : TxHw} (inv : ResizeInv s) (orderly : ReadOrderly s) (ring : RingInv tx'.hw)
  (spec : ReadSpec s.tx.hw tx'.hw)
  (granted : tx'.granted = if s.tx.hw.dynamicBufferCheck.1.rxBufState.expand then
    s.tx.granted - (dynaPageNum s.tx.hw.busType).toNat else s.tx.granted)

include inv orderly ring spec granted

theorem read_idle (quiet : completes s.tx.hw = false) (same : s.tx.hw.dynamicBufferCheck.1 = s.tx.hw)
    (idle : s.tx.hw.rxBufState.status = false ∨ s.tx.hw.laEnable = true) :
    ResizeInv { s with
      tx := tx'
      lastAddr := rstWord s.tx.hw.dynamicBufferCheck.1
      log := s.log ++ s.readEvents } := by
  have narrowed := (fwBufPos_cases spec).2
  have totNum := spec.txPageTotNum
  have state : tx'.hw.rxBufState = s.tx.hw.rxBufState := by
    rw [spec.rxBufState, same]
    exact told_eq inv.notified
  have large : tx'.hw.Large ↔ s.tx.hw.Large := by
    rw [RxHw.Large, RxHw.Large, spec.rxBufEnd, spec.rxBufLen, spec.busType, same]
  have small : tx'.hw.Small ↔ s.tx.hw.Small := by
    rw [RxHw.Small, RxHw.Small, spec.rxBufEnd, spec.rxBufLen, spec.busType, same]
  have still : s.tx.hw.rxBufState.expand = false ∧
      (s.tx.hw.rxBufState.narrow = true → s.tx.hw.rxBufState.updateFlag = true) := by
    rcases idle with none | la
    · rw [RxBufState.status, Bool.or_eq_false_iff] at none
      exact ⟨none.2, fun narrow => absurd (narrow.symm.trans none.1) (by decide)⟩
    · exact orderly.la la
  have unpaid : Unpaid tx'.hw ↔ Unpaid s.tx.hw := and_congr small (by rw [state])
  rw [same] at narrowed totNum
  refine inv.of_read orderly spec ring granted ?_ ?_ ?_ (below_of_spec orderly spec) ?_ ?_ ?_ ?_
  · simp [expanding, same, state, still.1, quiet]
  · simp only [unpaid, quiet, Bool.false_and]
    rfl
  · rw [totNum, if_neg (by simp [still.1])]
    split
    case isTrue narrow =>
      rw [Tx.totNum, state, if_pos (still.2 narrow), if_pos narrow, spec.busType]
    case isFalse =>
      rw [inv.totNum]
      simp only [Tx.totNum, state, large, spec.busType]
  · rw [state, large, spec.busType]
    exact fun narrow => ⟨(inv.narrowing narrow).1, (inv.narrowing narrow).2, narrowed narrow⟩
  · rw [state, small]
    exact inv.widening
  · rw [state, large]
    exact inv.largeUnused
  · rw [state]
    exact inv.lentBefore

theorem read_prepares (quiet : completes s.tx.hw = false) (la : s.tx.hw.laEnable = false)
    (status : s.tx.hw.rxBufState.status = true)
    (same : s.tx.hw.dynamicBufferCheck.1 =
      { s.tx.hw with rxBufState := { s.tx.hw.rxBufState with updateFlag := true } }) :
    ResizeInv { s with
      tx := tx'
      lastAddr := rstWord s.tx.hw.dynamicBufferCheck.1
      log := s.log ++ s.readEvents } := by
  have narrowed := (fwBufPos_cases spec).2
  have totNum := spec.txPageTotNum
  have fresh : s.tx.hw.rxBufState.updateFlag = false := by
    simpa [completes, status, la] using quiet
  have state : tx'.hw.rxBufState = { s.tx.hw.rxBufState with updateFlag := true } := by
    rw [spec.rxBufState, same]
    refine told_eq ?_
    exact inv.notified
  have large : tx'.hw.Large ↔ s.tx.hw.Large := by
    rw [RxHw.Large, RxHw.Large, spec.rxBufEnd, spec.rxBufLen, spec.busType, same]
  have small : tx'.hw.Small ↔ s.tx.hw.Small := by
    rw [RxHw.Small, RxHw.Small, spec.rxBufEnd, spec.rxBufLen, spec.busType, same]
  have unpaid : Unpaid tx'.hw ↔ Unpaid s.tx.hw := and_congr small (by rw [state])
  rw [same] at narrowed totNum
  refine inv.of_read orderly spec ring granted ?_ ?_ ?_ (below_of_spec orderly spec) ?_ ?_ ?_ ?_
  · simp [expanding, same, state, fresh, quiet]
  · simp only [unpaid, quiet, Bool.false_and]
    rfl
  · rw [totNum, Tx.totNum, state, if_pos rfl, spec.busType]
    cases narrow : s.tx.hw.rxBufState.narrow with
    | true => simp [(inv.narrowing narrow).1]
    | false =>
      have expand : s.tx.hw.rxBufState.expand = true := by
        simpa [RxBufState.status, narrow] using status
      simp [expand]
  · rw [state, large, spec.busType]
    exact fun narrow => ⟨(inv.narrowing narrow).1, (inv.narrowing narrow).2, narrowed narrow⟩
  · rw [state, small]
    exact inv.widening
  · rw [state, large]
    exact inv.largeUnused
  · rw [state]
    exact fun expand => orderly.lent (by simpa [expanding] using expand)

theorem read_narrows (done : completes s.tx.hw = true) (narrow : s.tx.hw.rxBufState.narrow = true)
    (same : s.tx.hw.dynamicBufferCheck.1 = { s.tx.hw with
      rxBufEnd := rxbufEndAddrSmall s.tx.hw.busType
      rxBufLen := rxBufferLenSmall s.tx.hw.busType
      rxBufState := { s.tx.hw.rxBufState with
        narrow := false, expand := false, updateFlag := false, notify := true } }) :
    ResizeInv { s with
      tx := tx'
      lastAddr := rstWord s.tx.hw.dynamicBufferCheck.1
      log := s.log ++ s.readEvents } := by
  have totNum := spec.txPageTotNum
  have update : s.tx.hw.rxBufState.updateFlag = true := (Bool.and_eq_true _ _ ▸ done).2
  obtain ⟨noExpand, large⟩ := inv.narrowing narrow
  have unused : s.tx.hw.rxBufState.txUsedFlag = false := inv.largeUnused large
  have state : tx'.hw.rxBufState = { s.tx.hw.rxBufState with
      narrow := false, expand := false, updateFlag := false, notify := false } := by
    rw [spec.rxBufState, same]
    simp [inv.notified.2]
  have small : tx'.hw.Small := by
    rw [RxHw.Small, spec.rxBufEnd, spec.rxBufLen, spec.busType, same]
    exact ⟨rfl, rfl⟩
  have unpaid : Unpaid tx'.hw := ⟨small, by rw [state]; exact unused⟩
  have paid : ¬ Unpaid s.tx.hw := fun owed => not_large_of_small owed.1 large
  rw [same] at totNum
  refine inv.of_read orderly spec ring granted ?_ ?_ ?_ (below_of_spec orderly spec) ?_ ?_ ?_ ?_
  · simp [expanding, same, state, noExpand, narrow]
  · rw [if_neg paid, if_pos unpaid, done, narrow]
    rfl
  · have before : s.tx.hw.txPageTotNum = txPageNumLarge s.tx.hw.busType := by
      rw [inv.totNum, Tx.totNum, if_pos update, if_pos narrow]
    rw [totNum, Tx.totNum, state, if_neg (not_large_of_small small), spec.busType, before]
    rfl
  · rw [state]
    exact fun narrow => absurd narrow Bool.false_ne_true
  · exact fun _ => small
  · exact fun large' => absurd large' (not_large_of_small small)
  · rw [state]
    exact fun expand => absurd expand (by simp [expanding])

theorem read_expands (done : completes s.tx.hw = true)
    (narrow : s.tx.hw.rxBufState.narrow = false) (expand : s.tx.hw.rxBufState.expand = true)
    (same : s.tx.hw.dynamicBufferCheck.1 = { s.tx.hw with
      rxBufEnd := rxbufEndAddrLarge s.tx.hw.busType
      rxBufLen := rxBufferLenLarge s.tx.hw.busType
      rxBufState := { s.tx.hw.rxBufState with
        narrow := false, expand := false, updateFlag := false, expendFinsh := true } }) :
    ResizeInv { s with
      tx := tx'
      lastAddr := rstWord s.tx.hw.dynamicBufferCheck.1
      log := s.log ++ s.readEvents } := by
  have totNum := spec.txPageTotNum
  have update : s.tx.hw.rxBufState.updateFlag = true := (Bool.and_eq_true _ _ ▸ done).2
  have half : expanding s.tx.hw.rxBufState = true := by simp [expanding, update, expand]
  have used : s.tx.hw.rxBufState.txUsedFlag = true := inv.lentBefore half
  have state : tx'.hw.rxBufState = { s.tx.hw.rxBufState with
      narrow := false, expand := false, updateFlag := false, expendFinsh := false,
      txUsedFlag := false } := by
    rw [spec.rxBufState, same]
    simp [inv.notified.1]
  have large : tx'.hw.Large := by
    rw [RxHw.Large, spec.rxBufEnd, spec.rxBufLen, spec.busType, same]
    exact ⟨rfl, rfl⟩
  have paid : ¬ Unpaid s.tx.hw := fun owed => absurd (used.symm.trans owed.2) (by decide)
  have paid' : ¬ Unpaid tx'.hw := fun owed => not_large_of_small owed.1 large
  rw [same] at totNum
  refine inv.of_read orderly spec ring granted ?_ ?_ ?_ (below_of_spec orderly spec) ?_ ?_ ?_ ?_
  · rw [if_pos half]
    simp [same, done, narrow, state, expanding]
  · rw [if_neg paid, if_neg paid', narrow, Bool.and_false]
    rfl
  · have before : s.tx.hw.txPageTotNum = txPageNumSmall s.tx.hw.busType := by
      rw [inv.totNum, Tx.totNum, if_pos update, if_neg (by simp [narrow])]
    rw [totNum, Tx.totNum, state, if_pos large, spec.busType, before]
    rfl
  · rw [state]
    exact fun narrow => absurd narrow Bool.false_ne_true
  · rw [state]
    exact fun expand => absurd expand Bool.false_ne_true
  · rw [state]
    exact fun _ => rfl
  · rw [state]
    exact fun expand => absurd expand (by simp [expanding])

theorem read : ResizeInv { s with
    tx := tx'
    lastAddr := rstWord s.tx.hw.dynamicBufferCheck.1
    log := s.log ++ s.readEvents } := by
  rcases dynamicBufferCheck_cases s.tx.hw with ⟨quiet, same, idle⟩ | ⟨quiet, la, status, same⟩ |
    ⟨done, narrow, same⟩ | ⟨done, narrow, expand, same⟩
  · exact inv.read_idle orderly ring spec granted quiet same idle
  · exact inv.read_prepares orderly ring spec granted quiet la status same
  · exact inv.read_narrows orderly ring spec granted done narrow same
  · exact inv.read_expands orderly ring spec granted done narrow expand same

end Read

/-! ### The other steps -/

theorem ackIrq (inv : ResizeInv s) {regVal : BitVec 32} {tx' : TxHw}
    (hw : tx'.hw = s.tx.hw.amlPciAckIrq regVal) (granted : tx'.granted = s.tx.granted)
    (orderly : Orderly s (.tx (.ring (.ackIrq regVal)))) : ResizeInv { s with tx := tx' } := by
  have ring : RingInv tx'.hw := hw ▸ inv.ring.ackIrq regVal
  by_cases asks : (s.tx.hw.amlPciAckIrq regVal).rxBufState = s.tx.hw.rxBufState
  · rw [hw] at ring
    exact inv.frame (hw ▸ ring) (by rw [hw]; rfl) (by rw [hw, asks]) (by rw [hw]; rfl)
      (by rw [hw]; rfl) (by rw [hw]; rfl) (by rw [hw]; rfl) granted rfl rfl
  · obtain ⟨calm, toLarge⟩ := orderly asks
    rw [← hw] at toLarge
    obtain ⟨noNarrow, noExpand⟩ := Bool.or_eq_false_iff.mp calm
    have fresh : s.tx.hw.rxBufState.updateFlag = false := by
      cases update : s.tx.hw.rxBufState.updateFlag with
      | false => rfl
      | true => exact absurd (calm.symm.trans (inv.ring.pending update)) Bool.false_ne_true
    obtain ⟨n, fwNarrow, fwExpand, state⟩ : ∃ n fwNarrow fwExpand, tx'.hw.rxBufState =
        { s.tx.hw.rxBufState with
          narrow := n, expand := !n, fwNarrow := fwNarrow, fwExpand := fwExpand } := by
      rw [hw]
      unfold RxHw.amlPciAckIrq RxBufState.request at asks ⊢
      dsimp only at asks ⊢
      split at asks
      case isTrue asked =>
        rw [if_pos asked]
        exact ⟨_, _, _, by rw [noNarrow, noExpand, Bool.false_or, Bool.false_or]⟩
      case isFalse => exact absurd rfl asks
    have large : tx'.hw.Large ↔ s.tx.hw.Large := by
      rw [hw]
      exact Iff.rfl
    have small : tx'.hw.Small ↔ s.tx.hw.Small := by
      rw [hw]
      exact Iff.rfl
    have busType : tx'.hw.busType = s.tx.hw.busType := by rw [hw]; rfl
    have unpaid : Unpaid tx'.hw ↔ Unpaid s.tx.hw := and_congr small (by rw [state])
    have half : expanding tx'.hw.rxBufState = expanding s.tx.hw.rxBufState := by
      simp [expanding, state, fresh]
    constructor
    case toHandedOver =>
      constructor
      case taken => rw [half, inv.taken]
      case lent =>
        rw [inv.lent]
        simp only [unpaid]
      case granted => rw [granted, busType, inv.granted]
      case totNum =>
        have same : tx'.hw.txPageTotNum = s.tx.hw.txPageTotNum := by rw [hw]; rfl
        rw [same, inv.totNum]
        simp only [Tx.totNum, state, fresh, Bool.false_eq_true, if_false, large, busType]
      case toldNarrowed => exact inv.toldNarrowed
      case toldExpanded => exact inv.toldExpanded
      case below =>
        rw [hw]
        exact inv.below
    case ring => exact ring
    case notified =>
      rw [state]
      exact inv.notified
    case narrowing =>
      intro narrow
      refine ⟨?_, large.mpr (toLarge narrow)⟩
      rw [state] at narrow ⊢
      simpa using narrow
    case widening =>
      intro expand
      refine (ring.expandFw expand ?_).1
      rw [state] at expand ⊢
      simpa using expand
    case largeUnused =>
      rw [large, state]
      exact inv.largeUnused
    case lentBefore =>
      rw [half, state]
      exact inv.lentBefore
    case prepared =>
      rw [state]
      exact fun update => absurd (fresh.symm.trans update) Bool.false_ne_true

/-- A confirmation: it adds the pages of a reduction, or takes pages for the logic analyzer. -/
theorem cfm (inv : ResizeInv s) {id : Nat} {dynaPage : BitVec 16} {tx' : TxHw}
    (stepped : s.tx.cfm id dynaPage = some tx') (orderly : Orderly s (.tx (.cfm id dynaPage))) :
    ResizeInv { s with tx := tx', log := s.log ++ s.cfmEvents dynaPage } := by
  unfold TxHw.cfm at stepped
  split at stepped
  case h_1 => cases stepped
  case h_2 e _ =>
    dsimp only at stepped
    split at stepped
    case isTrue pays =>
      obtain rfl := some.inj stepped
      have unpaid : Unpaid s.tx.hw := orderly pays
      have paid : ∀ hw : RxHw, hw.rxBufState.txUsedFlag = true → ¬ Unpaid hw := fun hw used owed =>
        absurd (used.symm.trans owed.2) (by decide)
      have notLarge : ¬ s.tx.hw.Large := not_large_of_small unpaid.1
      have pages : dynaPage.toNat = (dynaPageNum s.tx.hw.busType).toNat := by
        rw [← pays, BitVec.toNat_setWidth, Nat.mod_eq_of_lt (by omega)]
      have events : s.cfmEvents dynaPage = [.lent] := if_pos pays
      rw [events]
      constructor
      case toHandedOver =>
        constructor
        case taken => simpa [count_append, expanding] using inv.taken
        case lent =>
          have before := inv.lent
          rw [if_pos unpaid] at before
          rw [if_neg (paid _ rfl)]
          simpa [count_append] using before
        case granted =>
          have before := inv.granted
          simp only [count_append, laPages_append, List.count_singleton_self]
          show s.tx.granted + (dynaPage.toNat : Int) = _
          rw [before, pages]
          simp [laPages]
          linarith
        case totNum => exact inv.totNum
        case toldNarrowed => simpa [toldWords, count_append] using inv.toldNarrowed
        case toldExpanded => simpa [toldWords, count_append] using inv.toldExpanded
        case below => exact inv.below
      case ring =>
        exact ⟨⟨inv.ring.partition, inv.ring.ring, inv.ring.low, inv.ring.high, inv.ring.pending,
          inv.ring.largeFw, inv.ring.expandFw⟩, inv.ring.postponed⟩
      case notified => exact inv.notified
      case narrowing => exact inv.narrowing
      case widening => exact inv.widening
      case largeUnused => exact fun large => absurd large notLarge
      case lentBefore => exact fun _ => rfl
      case prepared => exact inv.prepared
    case isFalse notPays =>
      split at stepped
      case isTrue la =>
        obtain rfl := some.inj stepped
        have events : s.cfmEvents dynaPage = [.laTaken dynaPage.toNat] := by
          rw [ResizeHw.cfmEvents, if_neg notPays, if_pos la]
        rw [events]
        constructor
        case toHandedOver =>
          constructor
          case taken => simpa [count_append] using inv.taken
          case lent =>
            rw [count_append, count_append]
            exact inv.lent
          case granted =>
            have before := inv.granted
            simp only [count_append, laPages_append]
            show s.tx.granted - (dynaPage.toNat : Int) = _
            rw [before]
            simp [laPages]
            linarith
          case totNum => exact inv.totNum
          case toldNarrowed => simpa [toldWords, count_append] using inv.toldNarrowed
          case toldExpanded => simpa [toldWords, count_append] using inv.toldExpanded
          case below => exact inv.below
        case ring => exact inv.ring.frame rfl (.refl _) rfl rfl rfl rfl
        case notified => exact inv.notified
        case narrowing => exact inv.narrowing
        case widening => exact inv.widening
        case largeUnused => exact inv.largeUnused
        case lentBefore => exact inv.lentBefore
        case prepared => exact inv.prepared
      case isFalse la =>
        obtain rfl := some.inj stepped
        have events : s.cfmEvents dynaPage = [] := by
          rw [ResizeHw.cfmEvents, if_neg notPays, if_neg la]
        rw [events, List.append_nil]
        exact inv.frame (inv.ring.frame rfl (.refl _) rfl rfl rfl rfl) rfl rfl rfl rfl rfl rfl rfl rfl
          rfl

end ResizeInv

/-- What neither a resize nor a read changes. -/
structure Quiet (tx tx' : TxHw) : Prop where
  ring : RingInv tx.hw → RingInv tx'.hw
  busType : tx'.hw.busType = tx.hw.busType
  rxBufState : tx'.hw.rxBufState = tx.hw.rxBufState
  rxBufEnd : tx'.hw.rxBufEnd = tx.hw.rxBufEnd
  rxBufLen : tx'.hw.rxBufLen = tx.hw.rxBufLen
  fwBufPos : tx'.hw.fwBufPos = tx.hw.fwBufPos
  txPageTotNum : tx'.hw.txPageTotNum = tx.hw.txPageTotNum
  granted : tx'.granted = tx.granted

namespace Quiet

variable {tx tx' : TxHw}

theorem same (hw : tx'.hw = tx.hw) (granted : tx'.granted = tx.granted) : Quiet tx tx' := by
  refine ⟨?_, ?_, ?_, ?_, ?_, ?_, ?_, granted⟩ <;> rw [hw]
  exact id

/-- The TX task and the interrupt handler change `tx_page_free_num` at most. -/
theorem pages {pages : BitVec 32} (hw : tx'.hw = { tx.hw with txPageFreeNum := pages })
    (granted : tx'.granted = tx.granted) : Quiet tx tx' := by
  refine ⟨fun ring => ?_, ?_, ?_, ?_, ?_, ?_, ?_, granted⟩ <;> rw [hw]
  exact ring.frame rfl (.refl _) rfl rfl rfl rfl

theorem check (stepped : tx.check = some tx') : Quiet tx tx' := by
  unfold TxHw.check at stepped
  split at stepped
  case isTrue =>
    split at stepped
    · obtain rfl := some.inj stepped
      exact same rfl rfl
    · dsimp only at stepped
      split at stepped
      · obtain rfl := some.inj stepped
        exact same rfl rfl
      · obtain rfl := some.inj stepped
        exact same rfl rfl
  case isFalse => cases stepped

theorem wake (stepped : tx.wake = some tx') : Quiet tx tx' := by
  unfold TxHw.wake at stepped
  split at stepped
  case isTrue =>
    split at stepped
    case isTrue => split at stepped <;> (obtain rfl := some.inj stepped; exact same rfl rfl)
    case isFalse => split at stepped <;> (obtain rfl := some.inj stepped; exact same rfl rfl)
  case isFalse => cases stepped

theorem take {kzalloc : Bool} (stepped : tx.take kzalloc = some tx') : Quiet tx tx' := by
  unfold TxHw.take at stepped
  split at stepped
  case isTrue =>
    split at stepped
    case h_1 => cases stepped
    case h_2 h rest _ =>
      dsimp only at stepped
      split at stepped
      case h_1 =>
        obtain rfl := some.inj stepped
        exact pages rfl rfl
      all_goals
        split at stepped <;> (obtain rfl := some.inj stepped; exact pages rfl rfl)
  case isFalse => cases stepped

theorem send (stepped : tx.send = some tx') : Quiet tx tx' := by
  unfold TxHw.send at stepped
  split at stepped
  case isTrue =>
    split at stepped <;> (obtain rfl := some.inj stepped; exact same rfl rfl)
  case isFalse => cases stepped

theorem ofRing {a : RingAct} (notRead : a ≠ .rxdataind) (notIrq : ∀ regVal, a ≠ .ackIrq regVal)
    (stepped : tx.ring a = some tx') : Quiet tx tx' := by
  unfold TxHw.ring at stepped
  cases a with
  | bufInit => cases stepped
  | rxdataind => exact absurd rfl notRead
  | ackIrq regVal => exact absurd rfl (notIrq regVal)
  | takeUsed =>
    obtain ⟨hw', moved, rfl⟩ := map_eq_some_iff.mp stepped
    have kept := fun inv : RingInv tx.hw => RingInv.step (a := .takeUsed) inv trivial moved
    simp only [RxHw.step, RxHw.takeUsed] at moved
    split at moved
    case h_1 =>
      obtain rfl := some.inj moved
      exact ⟨kept, rfl, rfl, rfl, rfl, rfl, rfl, rfl⟩
    case h_2 => cases moved
  | putFree =>
    obtain ⟨hw', moved, rfl⟩ := map_eq_some_iff.mp stepped
    have kept := fun inv : RingInv tx.hw => RingInv.step (a := .putFree) inv trivial moved
    simp only [RxHw.step, RxHw.putFree] at moved
    split at moved
    case h_1 =>
      obtain rfl := some.inj moved
      exact ⟨kept, rfl, rfl, rfl, rfl, rfl, rfl, rfl⟩
    case h_2 => cases moved
  | setLaEnable on =>
    obtain ⟨hw', moved, rfl⟩ := map_eq_some_iff.mp stepped
    obtain rfl := some.inj moved
    exact ⟨fun inv => inv.frame rfl (.refl _) rfl rfl rfl rfl, rfl, rfl, rfl, rfl, rfl, rfl, rfl⟩
  | fwWrite sram =>
    obtain ⟨hw', moved, rfl⟩ := map_eq_some_iff.mp stepped
    obtain rfl := some.inj moved
    exact ⟨fun inv => inv.frame rfl (.refl _) rfl rfl rfl rfl, rfl, rfl, rfl, rfl, rfl, rfl, rfl⟩

end Quiet

namespace ResizeInv

variable {s s' : ResizeHw}

theorem quiet (inv : ResizeInv s) {tx' : TxHw} (still : Quiet s.tx tx') : ResizeInv { s with tx := tx' } :=
  inv.frame (still.ring inv.ring) still.busType still.rxBufState still.rxBufEnd still.rxBufLen
    still.fwBufPos still.txPageTotNum still.granted rfl rfl

theorem step {a : ResizeAct} (inv : ResizeInv s) (orderly : Orderly s a)
    (stepped : s.step a = some s') : ResizeInv s' := by
  cases a with
  | setSuspended on =>
    obtain rfl := some.inj stepped
    exact inv.frame inv.ring rfl rfl rfl rfl rfl rfl rfl rfl rfl
  | tx a =>
    obtain ⟨tx', moved, rfl⟩ := map_eq_some_iff.mp stepped
    cases a with
    | push packetLen amsdu =>
      simp only [TxHw.step, TxHw.txdescPush] at moved
      split at moved
      · split at moved
        · obtain rfl := some.inj moved
          exact inv.quiet (.same rfl rfl)
        · cases moved
      · cases moved
    | wake => exact inv.quiet (.wake moved)
    | check => exact inv.quiet (.check moved)
    | take kzalloc => exact inv.quiet (.take moved)
    | send => exact inv.quiet (.send moved)
    | cfm id dynaPage => exact inv.cfm moved orderly
    | hostTxStop =>
      obtain rfl := some.inj moved
      exact inv.quiet (.same rfl rfl)
    | hostTxStart =>
      obtain rfl := some.inj moved
      exact inv.quiet (.same rfl rfl)
    | setTxpageOnce txpage =>
      obtain rfl := some.inj moved
      exact inv.quiet (.same rfl rfl)
    | ring a =>
      cases a with
      | rxdataind =>
        obtain ⟨hw', read, rfl⟩ := map_eq_some_iff.mp moved
        dsimp only
        split
        case isTrue news =>
          have ready := orderly news
          have pos : posGuard s.tx.hw .rxdataind :=
            ⟨ready.pos.1, BitVec.le_of_lt ready.pos.below⟩
          refine inv.read ready (inv.ring.step pos read) (readSpec news read) ?_
          show (if handsBack s.tx.hw .rxdataind then _ else _) = _
          rw [handsBack_eq, news, Bool.true_and]
        case isFalse nothing =>
          have same : hw' = s.tx.hw := step_of_not_reads (Bool.eq_false_iff.mpr nothing) read
          subst same
          refine inv.quiet (.same rfl ?_)
          show (if handsBack _ .rxdataind then _ else _) = _
          rw [handsBack_eq, Bool.eq_false_iff.mpr nothing, Bool.false_and]
          rfl
      | ackIrq regVal =>
        obtain rfl := some.inj moved
        exact inv.ackIrq rfl rfl orderly
      | takeUsed => exact inv.quiet (.ofRing (a := .takeUsed) (by simp) (by simp) moved)
      | putFree => exact inv.quiet (.ofRing (a := .putFree) (by simp) (by simp) moved)
      | setLaEnable on => exact inv.quiet (.ofRing (a := .setLaEnable on) (by simp) (by simp) moved)
      | fwWrite sram => exact inv.quiet (.ofRing (a := .fwWrite sram) (by simp) (by simp) moved)
      | bufInit => cases moved

end ResizeInv

/-- **Dynamic buffer hand-over.** In every run of orderly steps each expansion takes the pages once,
each reduction adds them once, the firmware is told of each of them once, and the total and the old
position are those of the ring in force. -/
theorem resize_handedOver {bus : BusType} {s : ResizeHw}
    (reach : (resizeSystem bus).Reachable Orderly s) : HandedOver s :=
  (reach.invariant (resizeInv_init bus)
    fun _ _ _ _ inv orderly stepped => ResizeInv.step inv orderly stepped).toHandedOver

/-! ### Runs -/

instance (hw : RxHw) : Decidable (PosBelow hw) := inferInstanceAs (Decidable (_ ∧ _))

instance (s : ResizeHw) : Decidable (ReadOrderly s) :=
  decidable_of_iff (PosBelow s.tx.hw ∧ (s.tx.hw.laEnable = true → s.tx.hw.rxBufState.expand = false ∧
      (s.tx.hw.rxBufState.narrow = true → s.tx.hw.rxBufState.updateFlag = true)) ∧
    (s.tx.hw.rxBufState.expand = true → s.tx.hw.rxBufState.txUsedFlag = true) ∧
    (completes s.tx.hw = true → s.tx.hw.busType = .usb ∨ s.suspended = false))
    ⟨fun ⟨pos, la, lent, awake⟩ => ⟨pos, la, lent, awake⟩, fun ⟨pos, la, lent, awake⟩ => ⟨pos, la, lent, awake⟩⟩

instance (s : ResizeHw) (a : ResizeAct) : Decidable (Orderly s a) :=
  match a with
  | .tx (.ring .rxdataind) => inferInstanceAs (Decidable (reads s.tx.hw = true → _))
  | .tx (.ring (.ackIrq regVal)) => inferInstanceAs (Decidable
      ((s.tx.hw.amlPciAckIrq regVal).rxBufState ≠ s.tx.hw.rxBufState → _ ∧ (_ → _)))
  | .tx (.cfm _ dynaPage) => inferInstanceAs (Decidable (dynaPage.setWidth 32 = dynaPageNum s.tx.hw.busType → _))
  | .tx (.ring .takeUsed) | .tx (.ring .putFree) | .tx (.ring (.setLaEnable _))
  | .tx (.ring (.fwWrite _)) | .tx (.ring .bufInit) | .tx (.push _ _) | .tx .wake | .tx .check
  | .tx (.take _) | .tx .send | .tx .hostTxStop | .tx .hostTxStart | .tx (.setTxpageOnce _)
  | .setSuspended _ => .isTrue trivial

def frameActs (dynaPage : BitVec 16) : List ResizeAct :=
  [.push [1514] false, .wake, .check, .take true, .check, .send, .send, .cfm 0 dynaPage].map .tx

def readActs (regVal : BitVec 32) : List ResizeAct :=
  [.tx (.ring (.ackIrq regVal)), .tx (.ring .rxdataind)]

/-- A reduction and an expansion on SDIO; a confirmation adds the pages of the reduction. -/
theorem resize_handedOver_sdio : ∃ s, (resizeSystem .sdio).Reachable Orderly s ∧ s.log.count .expanded = 1 ∧
      s.log.count .lent = 1 ∧ s.log.count .taken = 1 ∧ s.tx.hw.txPageFreeNum = 115 ∧
      HandedOver s := by
  have reach := System.reachable_of_run (resizeSystem .sdio) Orderly
    (readActs 0x113b80 ++ readActs 0x113b90 ++ frameActs 140 ++ readActs 0x213ba0 ++ readActs 0x213bb0)
    (by decide +kernel)
  exact ⟨_, reach, by decide +kernel, by decide +kernel, by decide +kernel, by decide +kernel,
    resize_handedOver reach⟩

/-- **With `la_enable` each read subtracts the pages again**: the check that would complete the
expansion, and clear `BUFFER_EXPAND`, is skipped. -/
theorem resize_taken_twice : ¬ ∀ bus s, (resizeSystem bus).Reachable (fun _ _ => True) s → HandedOver s := by
  intro promise
  have reach := System.reachable_of_run (resizeSystem .sdio) (fun _ _ => True)
    (readActs 0x113b80 ++ readActs 0x113b90 ++ frameActs 140 ++ readActs 0x213ba0 ++
      [.tx (.ring (.setLaEnable true))] ++ readActs 0x213bb0)
    (by decide +kernel)
  have taken := (promise .sdio _ reach).taken
  revert taken
  decide +kernel

end W2l.Tx
