/-
**TX queues: initialisation, scheduling, and the list of buffers.**

`aml_txq.c`. A TX queue is linked in the list of its hardware queue when it has buffers and nothing
stops it. A buffer that comes back from the firmware goes behind the last retry, all others to the
tail, or behind the buffer they were split from.

* `txqHwq`, `txqSta` — the hardware queue and the station of a TX queue, by its index.
* `txqInit`, `txqDeinit`, `txqStart`, `txqStop`, `txqQueueSkb`, `txqDropSkb`, `txqFlush`,
  `txqDropOldTraffic` — the functions of the source.
-/

import W2lDriver.Sched.Types

namespace W2l.Sched


/-! ### The index of a TX queue -/

def amlTid2hwq : Nat → HwqId
  | 0 => .be
  | 1 => .bk
  | 2 => .bk
  | 3 => .be
  | 4 => .vi
  | 5 => .vi
  | 6 => .vo
  | 7 => .vo
  | 8 => .vo
  | _ => .be

/-- The hardware queue `aml_txq_sta_init`, `aml_txq_vif_init` and `aml_txq_offchan_init` give. -/
def txqHwq (t : TxqId) : HwqId :=
  if t < nxFirstVifTxqIdx then amlTid2hwq (t % nxNbTxqPerSta)
  else if t < nxFirstUnkTxqIdx then .be
  else .vo

/-- The station they give; the one of a BC/MC queue is at `NX_REMOTE_STA_MAX` and its interface. -/
def txqSta (t : TxqId) : Option StaId :=
  if t < nxFirstVifTxqIdx then some (t / nxNbTxqPerSta)
  else if t < nxFirstUnkTxqIdx then some (nxRemoteStaMax + (t - nxFirstVifTxqIdx))
  else none

/-- `ndev_idx` is set for the TIDs of a station and for BC/MC. -/
def txqNetdev (t : TxqId) : Bool :=
  if t < nxFirstVifTxqIdx then decide (t % nxNbTxqPerSta < 8) else decide (t < nxFirstUnkTxqIdx)

def isMulticastSta (i : StaId) : Bool := decide (nxRemoteStaMax ≤ i)

def txqStaIdx (i : StaId) (tid : Nat) : TxqId :=
  if isMulticastSta i then nxFirstVifTxqIdx + (i - nxRemoteStaMax) else i * nxNbTxqPerSta + tid

/-- `foreach_sta_txq`. -/
def staTxqs (i : StaId) : List TxqId :=
  if isMulticastSta i then [txqStaIdx i 0] else (List.range nxNbTxqPerSta).map (txqStaIdx i)

def nxTidPrio : List Nat := [8, 7, 6, 5, 4, 3, 0, 2, 1]

/-- `foreach_sta_txq_prio` of a station that is not multicast. -/
def staTxqsPrio (i : StaId) : List TxqId := nxTidPrio.map (txqStaIdx i)

/-! ### Lists of buffers -/

def skbAppend (prev skb : Skb) : List Skb → List Skb
  | [] => [skb]
  | x :: rest => if x = prev then x :: skb :: rest else x :: skbAppend prev skb rest

namespace Txq

/-- What `aml_txq_queue_skb` does with the list. -/
def queue (x : Txq) (skb : Skb) (retry : Bool) (skbPrev : Option Skb) : Txq :=
  if retry then
    { x with
      skList := match x.lastRetrySkb with
        | some last => skbAppend last skb x.skList
        | none => skb :: x.skList
      lastRetrySkb := some skb
      nbRetry := x.nbRetry + 1 }
  else
    { x with
      skList := match skbPrev with
        | some prev => skbAppend prev skb x.skList
        | none => x.skList ++ [skb] }

def retryGone (x : Txq) : Txq :=
  { x with
    nbRetry := x.nbRetry - 1
    lastRetrySkb := if x.nbRetry - 1 = 0 then none else x.lastRetrySkb }

/-- `aml_txq_drop_skb` as far as the queue goes. -/
def drop (x : Txq) (skb : Skb) (retryPacket : Bool) : Txq :=
  let unlinked := { x with skList := x.skList.erase skb }
  if retryPacket then unlinked.retryGone else unlinked

/-- The end of `aml_txq_init`. -/
def init (t : TxqId) (status : Finset StopReason) (psId : PsId) : Txq where
  active := true
  stop := status
  credits := nxTxqInitialCredits
  hwq := txqHwq t
  sta := txqSta t
  psId := psId
  netdev := txqNetdev t

end Txq

namespace AmlHw

variable (hw : AmlHw)

/-! ### Scheduling -/

def txqAddToHwList (t : TxqId) : AmlHw :=
  if (hw.txq t).inHwqList then hw
  else (hw.modTxq t fun x => { x with inHwqList := true }).modHwq (hw.txq t).hwq fun h =>
    { h with list := h.list ++ [t], needProcessing := true }

/-- `aml_txq_del_from_hw_list`; `list_del` takes the queue out of the list it is in. -/
def txqDelFromHwList (t : TxqId) : AmlHw :=
  if (hw.txq t).inHwqList then
    { hw.modTxq t fun x => { x with inHwqList := false } with
      hwq := fun q => { hw.hwq q with list := (hw.hwq q).list.erase t } }
  else hw

def txqStart (t : TxqId) (reason : Finset StopReason) : AmlHw :=
  if (hw.txq t).active = true ∧ (hw.txq t).stop ∩ reason ≠ ∅ then
    let hw := hw.modTxq t fun x => { x with stop := x.stop \ reason }
    if (hw.txq t).isStopped = false ∧ (hw.txq t).skbReady = true then hw.txqAddToHwList t else hw
  else hw

def txqStop (t : TxqId) (reason : Finset StopReason) : AmlHw :=
  if (hw.txq t).active then
    (hw.modTxq t fun x => { x with stop := x.stop ∪ reason }).txqDelFromHwList t
  else hw

/-- `aml_txq_sta_start`, `aml_txq_sta_stop`. -/
def txqStaStart (i : StaId) (reason : Finset StopReason) : AmlHw :=
  (staTxqs i).foldl (fun hw t => hw.txqStart t reason) hw
def txqStaStop (i : StaId) (reason : Finset StopReason) : AmlHw :=
  (staTxqs i).foldl (fun hw t => hw.txqStop t reason) hw

/-! ### Buffers come and go -/

def setTrafficStatus (i : StaId) (available : Bool) (psId : PsId) : AmlHw :=
  hw.modSta i fun x => { x with trafficInd := Function.update x.trafficInd psId available }

/-- A change of `ps.pkt_ready`. -/
def modPktReady (i : StaId) (psId : PsId) (f : Nat → Nat) : AmlHw :=
  hw.modSta i fun x => { x with pktReady := Function.update x.pktReady psId (f (x.pktReady psId)) }

/-- A change of `ps.sp_cnt`. -/
def modSpCnt (i : StaId) (psId : PsId) (f : Nat → Nat) : AmlHw :=
  hw.modSta i fun x => { x with spCnt := Function.update x.spCnt psId (f (x.spCnt psId)) }

/-- One more buffer is ready for a station in power save. -/
def psQueued (t : TxqId) : AmlHw :=
  match (hw.txq t).sta with
  | none => hw
  | some i =>
    if (hw.sta i).psActive then
      let hw := hw.modPktReady i (hw.txq t).psId u16Inc
      if (hw.sta i).pktReady (hw.txq t).psId = 1 then hw.setTrafficStatus i true (hw.txq t).psId
      else hw
    else hw

/-- `aml_txq_queue_skb`, and whether the queue is in the list of its hardware queue then. -/
def txqQueueSkb (skb : Skb) (t : TxqId) (retry : Bool) (skbPrev : Option Skb) : AmlHw × Bool :=
  let hw := (hw.psQueued t).modTxq t fun x => x.queue skb retry skbPrev
  let hw :=
    if (hw.txq t).netdev = true ∧ amlNdevFlowCtrlStop < (hw.txq t).skList.length then
      hw.modTxq t fun x => { x with ndevFlowCtrl := true }
    else hw
  if (hw.txq t).isStopped then (hw, false) else (hw.txqAddToHwList t, true)

def txqDropSkb (t : TxqId) (skb : Skb) (retryPacket : Bool) : AmlHw :=
  hw.modTxq t fun x => x.drop skb retryPacket

/-- `aml_txq_flush`: each round drops the first buffer. -/
def txqFlush (t : TxqId) : AmlHw :=
  (hw.txq t).skList.foldl (fun hw skb => hw.txqDropSkb t skb (decide ((hw.txq t).nbRetry ≠ 0))) hw

def txqInit (t : TxqId) (status : Finset StopReason) (psId : PsId) : AmlHw :=
  -- `status` is an `u8`
  hw.modTxq t fun _ => Txq.init t (status.erase .coexInactive) psId

def txqDeinit (t : TxqId) : AmlHw :=
  if (hw.txq t).active then
    ((hw.txqDelFromHwList t).modTxq t fun x => { x with active := false }).txqFlush t
  else hw

/-- What `aml_txq_drop_old_traffic` does for a station in power save. -/
def psDropped (t : TxqId) : AmlHw :=
  match (hw.txq t).sta with
  | none => hw
  | some i =>
    if (hw.sta i).psActive then
      let psId := (hw.txq t).psId
      let hw := hw.modPktReady i psId u16Dec
      let hw := if (hw.sta i).pktReady psId = 0 then hw.setTrafficStatus i false psId else hw
      if (hw.sta i).spCnt psId ≠ 0 then
        let hw := hw.modSpCnt i psId u16Dec
        if (hw.txq t).pushLimit ≠ 0 then
          hw.modTxq t fun x => { x with pushLimit := u8Dec x.pushLimit }
        else hw
      else hw
    else hw

/-- The walk of `aml_txq_drop_old_traffic` behind the retries. -/
def dropOld (t : TxqId) (old : Skb → Bool) : List Skb → AmlHw → AmlHw
  | [], hw => hw
  | skb :: rest, hw =>
    if old skb then dropOld t old rest ((hw.txqDropSkb t skb false).psDropped t) else hw

/-- `aml_txq_drop_old_traffic`; `old` tells which buffers have been queued for too long. -/
def txqDropOldTraffic (t : TxqId) (old : Skb → Bool) : AmlHw :=
  if (hw.txq t).active then
    let hw := dropOld t old ((hw.txq t).skList.drop (hw.txq t).nbRetry) hw
    let hw :=
      if (hw.txq t).skList = [] then
        (hw.txqDelFromHwList t).modTxq t fun x => { x with pktSent := 0 }
      else hw
    if (hw.txq t).ndevFlowCtrl = true ∧ (hw.txq t).skList = [] then
      hw.modTxq t fun x => { x with ndevFlowCtrl := false }
    else hw
  else hw

end AmlHw

end W2l.Sched
