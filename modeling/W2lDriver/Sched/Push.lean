/-
**Buffers are pushed to the firmware.**

`aml_tx_push` (`fullmac/aml_tx.c`), `aml_ipc_txdesc_push` (`aml_utils.c`), `aml_hwq_process`
(`aml_txq.c`). Each TX queue in the list of a hardware queue gives as many buffers as its credits,
its `push_limit` and the credits of the hardware queue allow.

* `txPush` — one buffer, with the counters around the call into the IPC.
* `getSkbToPush`, `hwqProcess` — the buffers of one TX queue, and the loop over the list.
* `hwqPushCalls` — the calls of `aml_tx_push` that `aml_hwq_process` makes.
-/

import W2lDriver.Sched.Txq

namespace W2l.Sched


namespace AmlHw

variable (hw : AmlHw)

/-! ### One buffer -/

def setMoreDataFlag (skb : Skb) : AmlHw :=
  match (hw.swTxhdr skb).amlSta with
  | none => hw
  | some i =>
    if (hw.sta i).psActive then
      let psId := (hw.txq (hw.swTxhdr skb).txq).psId
      let hw := (hw.modPktReady i psId u16Dec).modSpCnt i psId u16Dec
      if (hw.sta i).pktReady psId = 0 then hw.setTrafficStatus i false psId else hw
    else hw

def sdioIpcTxdescPush (skb : Skb) : AmlHw :=
  let (env, hostid) := hw.env.ipcHostTxHostPtrToId skb
  if hostid = 0 then { hw with env := env }
  else { hw with env := env, txDescSave := hw.txDescSave ++ [skb] }

/-- `aml_pci_ipc_txdesc_push`; `a2eInit` tells for which buffers the descriptor is mapped. -/
def pciIpcTxdescPush (a2eInit : Skb → Bool) (skb : Skb) : AmlHw :=
  let (env, hostid) := hw.env.ipcHostTxHostPtrToId skb
  if hostid = 0 then { hw with env := env }
  else if a2eInit skb then { hw with env := env, dmaDescs := hw.dmaDescs ++ [skb] }
  else { hw with env := env }

def ipcTxdescPush (a2eInit : Skb → Bool) (skb : Skb) : AmlHw :=
  match hw.busType with
  | .pcie => if hw.pciShutdown then hw else hw.pciIpcTxdescPush a2eInit skb
  | _ => hw.sdioIpcTxdescPush skb

/-- The counters `aml_tx_push` changes before it calls the IPC. -/
def txPushCharge (skb : Skb) : AmlHw :=
  let t := (hw.swTxhdr skb).txq
  let hw := hw.modTxq t fun x =>
    if x.nbRetry ≠ 0 then x.retryGone else { x with pktSent := u8Inc x.pktSent }
  let hw := hw.modSwTxhdr skb fun h => { h with hwQueue := (hw.txq t).hwq }
  let hw := hw.setMoreDataFlag skb
  let hw := hw.modTxq t fun x =>
    { x with credits := s8 (x.credits - 1), pktPushed := u8Inc x.pktPushed }
  let hw := if (hw.txq t).credits ≤ 0 then hw.txqStop t {.full} else hw
  if (hw.txq t).pushLimit ≠ 0 then hw.modTxq t fun x => { x with pushLimit := u8Dec x.pushLimit }
  else hw

def txPush (a2eInit : Skb → Bool) (skb : Skb) : AmlHw :=
  let hw := (hw.txPushCharge skb).ipcTxdescPush a2eInit skb
  hw.modHwq (hw.txq (hw.swTxhdr skb).txq).hwq fun h => { h with credits := u8Dec h.credits }

def txPushAll (a2eInit : Skb → Bool) : List Skb → AmlHw → AmlHw
  | [], hw => hw
  | skb :: rest, hw => txPushAll a2eInit rest (hw.txPush a2eInit skb)

/-! ### One hardware queue -/

/-- The number of buffers `aml_txq_get_skb_to_push` takes, and whether the queue is done then. -/
def skbsToPush (q : HwqId) (t : TxqId) : Nat × Bool :=
  let credits := min (hw.txq t).getCredits (hw.hwq q).credits
  if ((hw.txq t).skList.length : Int) ≤ credits then ((hw.txq t).skList.length, true)
  else (credits.toNat, decide ((hw.txq t).pushLimit ≠ 0 ∧ credits = (hw.txq t).pushLimit))

/-- `aml_txq_get_skb_to_push`: the buffers, and the state without them in the queue. -/
def getSkbToPush (q : HwqId) (t : TxqId) : List Skb × AmlHw :=
  let n := (hw.skbsToPush q t).1
  ((hw.txq t).skList.take n, hw.modTxq t fun x => { x with skList := x.skList.drop n })

/-- The sanity check of `aml_hwq_process`. -/
def sane (t : TxqId) : Bool :=
  (hw.txq t).inHwqList && (hw.txq t).active && decide (0 < (hw.txq t).credits) && (hw.txq t).skbReady

/-- The end of a period that the credits of the hardware queue cut short. -/
def abortLegacySp (t : TxqId) : AmlHw :=
  match (hw.txq t).sta with
  | none => hw
  | some i =>
    if (hw.txq t).pushLimit ≠ 0 ∧ (hw.txq t).psId = .legacy then
      (hw.modSpCnt i .legacy fun n => (n + (2 ^ 16 - (hw.txq t).pushLimit)) % 2 ^ 16).modTxq t
        fun x => { x with pushLimit := 0 }
    else hw

/-- The list of the hardware queue after the buffers of a queue are pushed. -/
def hwqReschedule (q : HwqId) (t : TxqId) (txqEmpty : Bool) : AmlHw :=
  if txqEmpty then (hw.txqDelFromHwList t).modTxq t fun x => { x with pktSent := 0 }
  else if (hw.hwq q).credits = 0 ∧ (hw.txq t).inHwqList = true ∧
      (hw.hwq q).size < (hw.txq t).pktSent then
    (hw.modTxq t fun x => { x with pktSent := 0 }).modHwq q fun h =>
      { h with list := h.list.rotateLeft 1 }
  else hw

/-- One round of `aml_hwq_process`. -/
def hwqProcessTxq (a2eInit : Skb → Bool) (q : HwqId) (t : TxqId) : AmlHw :=
  let (skbs, cut) := hw.getSkbToPush q t
  let hw := ((txPushAll a2eInit skbs cut).hwqReschedule q t (hw.skbsToPush q t).2).abortLegacySp t
  if (hw.txq t).ndevFlowCtrl = true ∧ (hw.txq t).skList.length < amlNdevFlowCtrlRestart then
    hw.modTxq t fun x => { x with ndevFlowCtrl := false }
  else hw

/-- The loop of `aml_hwq_process`. A rotation of the list happens only when the credits are used up,
and then the next round breaks, so the list is the one the loop started with. -/
def hwqProcessLoop (a2eInit : Skb → Bool) (q : HwqId) : List TxqId → AmlHw → AmlHw
  | [], hw => hw
  | t :: rest, hw =>
    if hw.sane t = false then hwqProcessLoop a2eInit q rest hw
    else if (hw.hwq q).credits = 0 then hw
    else hwqProcessLoop a2eInit q rest (hw.hwqProcessTxq a2eInit q t)

def hwqProcess (a2eInit : Skb → Bool) (q : HwqId) : AmlHw :=
  hwqProcessLoop a2eInit q (hw.hwq q).list (hw.modHwq q fun h => { h with needProcessing := false })

/-! ### The calls -/

/-- The calls of `aml_tx_push` in `txPushAll`, each with the state it finds. -/
def pushCalls (a2eInit : Skb → Bool) : List Skb → AmlHw → List (AmlHw × Skb)
  | [], _ => []
  | skb :: rest, hw => (hw, skb) :: pushCalls a2eInit rest (hw.txPush a2eInit skb)

/-- The calls in `hwqProcessLoop`. -/
def loopPushCalls (a2eInit : Skb → Bool) (q : HwqId) : List TxqId → AmlHw → List (AmlHw × Skb)
  | [], _ => []
  | t :: rest, hw =>
    if hw.sane t = false then loopPushCalls a2eInit q rest hw
    else if (hw.hwq q).credits = 0 then []
    else pushCalls a2eInit (hw.getSkbToPush q t).1 (hw.getSkbToPush q t).2 ++
      loopPushCalls a2eInit q rest (hw.hwqProcessTxq a2eInit q t)

/-- The calls in `hwqProcess`. -/
def hwqPushCalls (a2eInit : Skb → Bool) (q : HwqId) : List (AmlHw × Skb) :=
  loopPushCalls a2eInit q (hw.hwq q).list (hw.modHwq q fun h => { h with needProcessing := false })

end AmlHw

end W2l.Sched
