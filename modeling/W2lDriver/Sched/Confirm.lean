/-
**Buffers come back from the firmware; stations in power save ask for them.**

`aml_tx_cfm_task` and `aml_txdatacfm`, `aml_tx_retry`, `aml_txq_credit_update`, `aml_ps_bh_enable`,
`aml_ps_bh_traffic_req` (`fullmac/aml_tx.c`), `aml_txq_confirm_any` (`aml_txq.c`),
`aml_ipc_tx_drain` (`aml_utils.c`).

* `txCfm` — a confirmation, by the host id the firmware reports.
* `txqCreditUpdate`, `txDrain` — credits that are changed, buffers that are taken back.
* `psBhEnable`, `psBhTrafficReq` — power save, and a service period.
-/

import W2lDriver.Sched.Push

namespace W2l.Sched

open Cmd (BusType)

namespace AmlHw

variable (hw : AmlHw)

/-! ### Confirmations -/

def txqConfirmAny (t : TxqId) (q : HwqId) : AmlHw :=
  (hw.modTxq t fun x => { x with pktPushed := x.pktPushed - 1 }).modHwq q fun h =>
    { h with credits := u8Inc h.credits, needProcessing := true }

def txRetry (skb : Skb) : AmlHw :=
  let t := (hw.swTxhdr skb).txq
  let hw := hw.modTxq t fun x => { x with credits := s8 (x.credits + 1) }
  let hw := if 0 < (hw.txq t).credits then hw.txqStart t {.full} else hw
  (hw.txqQueueSkb skb t true none).1

/-- The credits of a confirmed buffer go back to its queue: as many as the firmware says on PCIe, one
on the other buses. -/
def txqConfirmCredits (t : TxqId) (credits : Int) : AmlHw :=
  let given := if hw.busType = .pcie then credits else 1
  let hw :=
    if given = 0 then hw
    else
      let hw := hw.modTxq t fun x => { x with credits := s8 (x.credits + given) }
      if (hw.txq t).credits ≤ 0 then hw.txqStop t {.full} else hw.txqStart t {.full}
  -- continue service period
  if (hw.txq t).pushLimit ≠ 0 ∧ (hw.txq t).isFull = false then hw.txqAddToHwList t else hw

/-- `aml_tx_cfm_task` and `aml_txdatacfm` for one confirmation; `swRetry` is `sw_retry_required`. -/
def txCfm (hostid : BitVec 32) (credits : Int) (swRetry : Bool) : AmlHw :=
  let (env, skb) := hw.env.lookup hostid
  if skb = 0 then { hw with env := env }
  else
    let t := (hw.swTxhdr skb).txq
    let hw := ({ hw with env := env } : AmlHw).txqConfirmAny t (hw.swTxhdr skb).hwQueue
    if (hw.swTxhdr skb).mgmt = false ∧ (hw.txq t).active = true ∧ swRetry = true then hw.txRetry skb
    else if (hw.txq t).active then hw.txqConfirmCredits t credits
    else hw

/-- `aml_ipc_tx_drain`, for the `n` buffers that are pushed. -/
def txDrain : Nat → AmlHw → AmlHw
  | 0, hw => hw
  | n + 1, hw =>
    let (env, skb) := hw.env.ipcHostTxFlush
    if skb = 0 then { hw with env := env }
    else
      txDrain n (({ hw with env := env } : AmlHw).txqConfirmAny (hw.swTxhdr skb).txq (hw.swTxhdr skb).hwQueue)

/-! ### Credits of a queue -/

/-- The retries dropped with a BA that was deleted: the bound of the loop shrinks with each. -/
def purgeRetries (t : TxqId) : (fuel packet : Nat) → AmlHw → AmlHw
  | 0, _, hw => hw
  | fuel + 1, packet, hw =>
    if packet < (hw.txq t).nbRetry then
      match (hw.txq t).skList with
      | [] => purgeRetries t fuel (packet + 1) hw
      | skb :: _ => purgeRetries t fuel (packet + 1) (hw.txqDropSkb t skb true)
    else hw

/-- The credits `aml_txq_credit_update` gives. -/
def updatedCredits (x : Txq) (bus : BusType) (size : Nat) (update : Int) : Int :=
  if (bus = .pcie ∨ 0 < x.credits + update) ∧ x.credits + x.pktPushed + update < size then
    s8 (x.credits + update)
  else s8 (size - x.pktPushed)

/-- `aml_txq_credit_update`; `update` is an `s8`. -/
def txqCreditUpdate (t : TxqId) (update : Int) : AmlHw :=
  let size := (hw.hwq (hw.txq t).hwq).size
  let clamped :=
    if (hw.txq t).active = true ∧ hw.busType ≠ .pcie ∧ nxTxqInitialCredits < update then
      s8 (size - nxTxqInitialCredits)
    else update
  let hw :=
    if (hw.txq t).active then
      let hw := hw.modTxq t fun x => { x with credits := updatedCredits x hw.busType size clamped }
      if (hw.txq t).credits ≤ 0 then hw.txqStop t {.full} else hw.txqStart t {.full}
    else hw
  if clamped < nxTxqInitialCredits then purgeRetries t (hw.txq t).nbRetry 0 hw else hw

/-! ### Power save -/

/-- The buffers of a station that are queued with one kind of power save. -/
def countReady (i : StaId) (psId : PsId) : Nat :=
  ((staTxqs i).map fun t => if (hw.txq t).psId = psId then (hw.txq t).skList.length else 0).sum

/-- `pkt_ready` as `aml_ps_bh_enable` counts it. -/
def enabledReady (i : StaId) (psId : PsId) : Nat :=
  if isMulticastSta i then
    match psId with
    | .legacy => (hw.txq (txqStaIdx i 0)).skList.length % 2 ^ 16
    | .uapsd => 0
  else hw.countReady i psId % 2 ^ 16

/-- The traffic indications at the end of `aml_ps_bh_enable`. -/
def indicateReady (i : StaId) (available : Bool) : AmlHw :=
  let hw :=
    if (hw.sta i).pktReady .legacy ≠ 0 then hw.setTrafficStatus i available .legacy else hw
  if (hw.sta i).pktReady .uapsd ≠ 0 then hw.setTrafficStatus i available .uapsd else hw

def psBhEnable (i : StaId) (enable : Bool) : AmlHw :=
  if enable then
    let hw := hw.modSta i fun x => { x with psActive := true, spCnt := fun _ => 0 }
    let hw := hw.txqStaStop i {.staPs}
    let hw := hw.modSta i fun x => { x with pktReady := hw.enabledReady i }
    let hw :=
      if isMulticastSta i then hw.modTxq (txqStaIdx i 0) fun x => { x with hwq := .be } else hw
    hw.indicateReady i true
  else
    let hw := hw.modSta i fun x => { x with psActive := false }
    let hw := (staTxqs i).foldl (fun hw t => hw.modTxq t fun x => { x with pushLimit := 0 }) hw
    let hw :=
      if isMulticastSta i then hw.modTxq (txqStaIdx i 0) fun x => { x with hwq := .be } else hw
    (hw.txqStaStart i {.staPs}).indicateReady i false

/-- `push_limit` and `sp_cnt` of one queue, which is linked. -/
def grantSp (i : StaId) (psId : PsId) (t : TxqId) (n : Nat) : AmlHw :=
  ((hw.modTxq t fun x => { x with pushLimit := n % 2 ^ 8 }).modSpCnt i psId fun m =>
    (m + n) % 2 ^ 16).txqAddToHwList t

/-- What a queue can give to a request: an `u16`, also when its credits are negative. -/
def spOffer (x : Txq) : Nat :=
  let txqLen : Nat := x.skList.length % 2 ^ 16
  if x.credits < (txqLen : Int) then (x.credits % 2 ^ 16).toNat else txqLen

/-- The request is dispatched between the queues, in the order of their priority. -/
def dispatchSp (i : StaId) (psId : PsId) : List TxqId → Nat → AmlHw → AmlHw
  | [], _, hw => hw
  | t :: rest, pktReq, hw =>
    let txqLen := spOffer (hw.txq t)
    if (hw.txq t).psId ≠ psId ∨ txqLen = 0 then dispatchSp i psId rest pktReq hw
    else if txqLen < pktReq then
      dispatchSp i psId rest (pktReq - txqLen) (hw.grantSp i psId t txqLen)
    else hw.grantSp i psId t pktReq

/-- `aml_ps_bh_traffic_req`; `pktReq` is an `u16`. -/
def psBhTrafficReq (i : StaId) (pktReq : Nat) (psId : PsId) : AmlHw :=
  if (hw.sta i).psActive = false then hw
  else if pktReq = 255 ∧ psId = .uapsd then
    -- `PS_SP_INTERRUPTED`
    (staTxqs i).foldl (fun hw t => hw.modTxq t fun x => { x with pushLimit := 0 }) (hw.modSpCnt i psId fun _ => 0)
  else
    let ready := (hw.sta i).pktReady psId
    if (hw.sta i).spCnt psId ≠ 0 ∨ ready ≤ (hw.sta i).spCnt psId then hw
    else
      let pktReq := if pktReq = 0 ∨ ready < pktReq then ready else pktReq
      if isMulticastSta i then
        let t := txqStaIdx i 0
        if (hw.txq t).credits ≤ 0 then hw
        else
          hw.grantSp i psId t (if (hw.txq t).credits < (pktReq : Int) then (hw.txq t).credits.toNat else pktReq)
      else dispatchSp i psId (staTxqsPrio i) pktReq hw

end AmlHw

end W2l.Sched
