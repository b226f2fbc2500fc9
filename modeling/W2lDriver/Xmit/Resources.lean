/-
**A buffer on its way out: the socket buffer, its header, and its DMA mappings.**

`aml_start_xmit`, `aml_start_mgmt_xmit`, `aml_amsdu_dismantle` and the confirmations
(`fullmac/aml_tx.c`), `aml_filter_tx_tcp_ack`, `aml_send_tcp_ack` (`aml_tcp_ack.c`),
`aml_txq_drop_skb` (`aml_txq.c`), `aml_ipc_tx_drain` and the IPC buffers (`aml_utils.c`). Each
allocation, mapping, release and `aml_ipc_buf_a2e_release` is written to a log. What the code asks of
its environment (an allocation that fails, a session it looks up, a queue that is inactive at the
first look) is an argument of the call.

* `TxHw` — the buffers queued, at the firmware, and held back as TCP acks.
* `startXmit`, `startMgmtXmit`, `tcpAckTimeout`, `push`, `txCfm`, `txqDropSkb`, `amsduDismantle`,
  `txDrain` — the functions of the source.
* `TxHw.step`, `xmitSystem` — the machine.
-/

import Mathlib.Data.List.Perm.Basic
import W2lDriver.Cmd.Types
import W2lDriver.Lib.System

namespace W2l.Xmit

open Cmd (BusType)
open Lib (System)

/-! ### Structures -/

/-- What has to be released: a socket buffer, a `struct aml_sw_txhdr`, a DMA mapping. -/
inductive Resource
  | skb (p : Nat)
  | swTxhdr (p : Nat)
  | mapping (p : Nat)
  deriving DecidableEq, Repr

namespace Resource

def id : Resource → Nat
  | skb p => p
  | swTxhdr p => p
  | mapping p => p

end Resource

/-- `struct aml_ipc_buf`: memory nobody wrote, `addr` that is `NULL`, or a buffer that is mapped. -/
inductive IpcBuf
  | unset
  | null
  | mapped (p : Nat)
  deriving DecidableEq, Repr

namespace IpcBuf

def isMapped : IpcBuf → Bool
  | mapped _ => true
  | _ => false

def mappings : IpcBuf → List Resource
  | mapped p => [.mapping p]
  | _ => []

end IpcBuf

/-- `struct aml_amsdu_txhdr`, in the headroom of the subframe. -/
structure AmsduTxhdr where
  skb : Nat
  ipcData : IpcBuf
  deriving DecidableEq, Repr

/-- A buffer with its `struct aml_sw_txhdr`. `packet_cnt` is one more than the subframes in
`amsdu.hdrs`, and `TXU_CNTRL_AMSDU` is set when there are any. -/
structure Frame where
  skb : Nat
  swTxhdr : Nat
  txq : Nat
  mgmt : Bool
  ipcData : IpcBuf
  ipcDesc : IpcBuf
  hdrs : List AmsduTxhdr := []
  deriving DecidableEq, Repr

inductive Event
  | acquired (r : Resource)
  | released (r : Resource)
  /-- `aml_ipc_buf_a2e_release` is applied to a buffer. -/
  | bufReleased (buf : IpcBuf)
  deriving DecidableEq, Repr

/-- The part of `struct aml_hw` that holds buffers. -/
structure TxHw where
  busType : BusType
  pciShutdown : Bool := false
  /-- `idx` of a TX queue is not `TXQ_INACTIVE`. -/
  active : Nat → Bool := fun _ => false
  /-- The lists of all TX queues, in one. -/
  queued : List Frame := []
  /-- The buffers that have a host id. -/
  pushed : List Frame := []
  /-- `tcp_info[i].skb` of the sessions that hold an ack back. -/
  acks : List (Nat × Nat) := []
  next : Nat := 1
  log : List Event := []

/-! ### Allocations and mappings -/

namespace TxHw

variable (hw : TxHw)

def acquire (make : Nat → Resource) : TxHw × Nat :=
  ({ hw with next := hw.next + 1, log := hw.log ++ [.acquired (make hw.next)] }, hw.next)

def emit (events : List Event) : TxHw := { hw with log := hw.log ++ events }

/-- `aml_ipc_buf_a2e_init` on PCIe; no other bus calls it for a buffer that is sent. -/
def ipcBufA2eInit (ok : Bool) : TxHw × IpcBuf :=
  if ok then
    let (hw, p) := hw.acquire .mapping
    (hw, .mapped p)
  else (hw, .null)

/-- `aml_prep_dma_tx`: `ipc_data`, and whether it succeeded. -/
def prepDmaTx (ipcData : IpcBuf) (map : Bool) : TxHw × IpcBuf × Bool :=
  match hw.busType with
  | .pcie =>
    let (hw, ipcData) := hw.ipcBufA2eInit map
    (hw, ipcData, map)
  | _ => (hw, ipcData, true)

end TxHw

/-- `aml_ipc_buf_a2e_release`: on PCIe a buffer that is mapped is unmapped. -/
def ipcBufA2eRelease (busType : BusType) (buf : IpcBuf) : List Event :=
  .bufReleased buf ::
    match busType with
    | .pcie => buf.mappings.map .released
    | _ => []

namespace Frame

variable (f : Frame)

/-- What `aml_txq_drop_skb` and `aml_ipc_tx_drain` do to a buffer. -/
def drop (busType : BusType) : List Event :=
  f.hdrs.flatMap (fun sub =>
    ipcBufA2eRelease busType sub.ipcData ++ [.released (.skb sub.skb)]) ++
  ipcBufA2eRelease busType f.ipcData ++ [.released (.swTxhdr f.swTxhdr), .released (.skb f.skb)]

/-- The end of `aml_txdatacfm` and of `aml_tx_cfm_task`. -/
def confirm (busType : BusType) : List Event :=
  match busType with
  | .pcie => f.drop .pcie
  | _ =>
    f.hdrs.map (fun sub => .released (.skb sub.skb)) ++ [.released (.swTxhdr f.swTxhdr), .released (.skb f.skb)]

end Frame

/-! ### A buffer is queued -/

/-- What `aml_filter_tx_tcp_ack` decides: it lets the buffer pass, lets it pass in place of the one
that session `i` holds, keeps it in session `i`, or drops it. -/
inductive AckVerdict
  | pass
  | replace (i : Nat)
  | hold (i : Nat)
  | drop
  deriving DecidableEq

/-- `skb_copy_expand` at the top of `aml_start_xmit`. -/
inductive SkbCopy
  | notNeeded
  | copied
  | failed
  deriving DecidableEq

/-- What `aml_start_xmit` meets on its way. -/
structure XmitOutcome where
  recovery : Bool := false
  copy : SkbCopy := .notNeeded
  sta : Bool := true
  ack : AckVerdict := .pass
  /-- The queue is inactive before the lock is taken. -/
  inactive : Bool := false
  /-- The buffer `aml_amsdu_add_subframe` would add this one to, and whether it can be mapped. -/
  amsdu : Option (Nat × Bool) := none
  swTxhdr : Bool := true
  map : Bool := true

/-- What `aml_start_mgmt_xmit` meets. -/
structure MgmtOutcome where
  skb : Bool := true
  swTxhdr : Bool := true
  recovery : Bool := false
  map : Bool := true

/-- What `aml_send_tcp_ack` meets. -/
structure AckOutcome where
  swTxhdr : Bool := true
  recovery : Bool := false
  map : Bool := true

namespace TxHw

variable (hw : TxHw)

/-- `aml_start_xmit`, `aml_start_mgmt_xmit` and `aml_send_tcp_ack` from `aml_prep_dma_tx` on; `blank`
is what a buffer of the header is before it is written. -/
def prepAndQueue (t skb swTxhdr : Nat) (mgmt : Bool) (blank : IpcBuf) (map : Bool) : TxHw :=
  let (hw, ipcData, ok) := hw.prepDmaTx blank map
  if ok = false then hw.emit [.released (.swTxhdr swTxhdr), .released (.skb skb)]
  else if hw.active t = false then hw.emit [.released (.swTxhdr swTxhdr), .released (.skb skb)]
  else
    { hw with
      queued := hw.queued ++
        [{ skb := skb, swTxhdr := swTxhdr, txq := t, mgmt := mgmt, ipcData := ipcData, ipcDesc := blank }] }

/-- The ack that session `i` holds is freed. -/
def dropAck (i : Nat) : TxHw :=
  { hw.emit ((hw.acks.filter (·.1 = i)).map fun ack => .released (.skb ack.2)) with
    acks := hw.acks.filter (·.1 ≠ i) }

/-- `aml_filter_tx_tcp_ack`, and whether the buffer is filtered. -/
def filterTxTcpAck (skb : Nat) : AckVerdict → TxHw × Bool
  | .pass => (hw, false)
  | .replace i => (hw.dropAck i, false)
  | .hold i => ({ hw.dropAck i with acks := (i, skb) :: (hw.dropAck i).acks }, true)
  | .drop => (hw.emit [.released (.skb skb)], true)

/-- `aml_amsdu_add_subframe`, and whether the buffer became a subframe. -/
def amsduAddSubframe (t skb : Nat) : Option (Nat × Bool) → TxHw × Bool
  | none => (hw, false)
  | some (k, map) =>
    match hw.queued[k]? with
    | none => (hw, false)
    | some main =>
      if main.txq = t then
        match hw.busType with
        | .pcie =>
          let (hw, ipcData) := hw.ipcBufA2eInit map
          if map then
            let main := { main with hdrs := main.hdrs ++ [{ skb := skb, ipcData := ipcData }] }
            ({ hw with queued := hw.queued.set k main }, true)
          else (hw, false)
        | _ =>
          let main := { main with hdrs := main.hdrs ++ [{ skb := skb, ipcData := .unset }] }
          ({ hw with queued := hw.queued.set k main }, true)
      else (hw, false)

/-- `aml_start_xmit` once it has a buffer of its own. -/
def xmitSkb (t skb : Nat) (x : XmitOutcome) : TxHw :=
  if x.sta = false then hw.emit [.released (.skb skb)]
  else
    let (hw, filtered) := hw.filterTxTcpAck skb x.ack
    if filtered then hw
    else if x.inactive then hw.emit [.released (.skb skb)]
    else
      let (hw, added) := hw.amsduAddSubframe t skb x.amsdu
      if added then hw
      else if x.swTxhdr = false then hw.emit [.released (.skb skb)]
      else
        -- `kmem_cache_zalloc`
        let (hw, swTxhdr) := hw.acquire .swTxhdr
        hw.prepAndQueue t skb swTxhdr false .null x.map

def startXmit (t : Nat) (x : XmitOutcome) : TxHw :=
  let (hw, skb) := hw.acquire .skb
  if x.recovery then hw.emit [.released (.skb skb)]
  else
    match x.copy with
    | .notNeeded => hw.xmitSkb t skb x
    | .failed => hw.emit [.released (.skb skb)]
    | .copied =>
      let (hw, newskb) := hw.acquire .skb
      (hw.emit [.released (.skb skb)]).xmitSkb t newskb x

def startMgmtXmit (t : Nat) (x : MgmtOutcome) : TxHw :=
  if x.skb = false then hw
  else
    let (hw, skb) := hw.acquire .skb
    if x.swTxhdr = false then hw.emit [.released (.skb skb)]
    else
      -- `kmem_cache_alloc`: the header is not zeroed
      let (hw, swTxhdr) := hw.acquire .swTxhdr
      if x.recovery then hw.emit [.released (.skb skb)]
      else hw.prepAndQueue t skb swTxhdr true .unset x.map

def sendTcpAck (t skb : Nat) (x : AckOutcome) : TxHw :=
  -- without a header the local `skb` is still `NULL` at `free`
  if x.swTxhdr = false then hw
  else
    let (hw, swTxhdr) := hw.acquire .swTxhdr
    if x.recovery then hw.emit [.released (.swTxhdr swTxhdr), .released (.skb skb)]
    else hw.prepAndQueue t skb swTxhdr false .unset x.map

def tcpAckTimeout (i t : Nat) (x : AckOutcome) : TxHw :=
  match hw.acks.find? (·.1 = i) with
  | none => hw
  | some ack => ({ hw with acks := hw.acks.erase ack } : TxHw).sendTcpAck t ack.2 x

def tcpDelayAckDeinit : TxHw :=
  { hw.emit (hw.acks.map fun ack => .released (.skb ack.2)) with acks := [] }

/-! ### A queue is initialised and removed -/

/-- `aml_txq_init`: the list of the queue is empty. -/
def txqInit (t : Nat) : TxHw :=
  { hw with active := Function.update hw.active t true, queued := hw.queued.filter (·.txq ≠ t) }

/-- `aml_txq_deinit`: the queue is inactive, and `aml_txq_flush` drops what it has. -/
def txqDeinit (t : Nat) : TxHw :=
  if hw.active t then
    { hw.emit ((hw.queued.filter (·.txq = t)).flatMap (·.drop hw.busType)) with
      active := Function.update hw.active t false
      queued := hw.queued.filter (·.txq ≠ t) }
  else hw

def txqDropSkb (k : Nat) (f : Frame) : TxHw :=
  { hw.emit (f.drop hw.busType) with queued := hw.queued.eraseIdx k }

/-! ### To the firmware and back -/

/-- `aml_tx_push`; the pool has a host id for each buffer that is pushed. -/
def push (k : Nat) (f : Frame) (map : Bool) : TxHw :=
  match hw.busType with
  | .pcie =>
    if hw.pciShutdown then { hw with queued := hw.queued.eraseIdx k }
    else
      let (hw, ipcDesc) := hw.ipcBufA2eInit map
      { hw with
        queued := hw.queued.eraseIdx k
        pushed := hw.pushed ++ [{ f with ipcDesc := ipcDesc }] }
  | _ => { hw with queued := hw.queued.eraseIdx k, pushed := hw.pushed ++ [f] }

/-- `aml_ipc_get_skb_from_cfm` on PCIe unmaps the descriptor. -/
def getSkbFromCfm (k : Nat) (f : Frame) : TxHw × Frame :=
  match hw.busType with
  | .pcie =>
    ({ hw.emit (ipcBufA2eRelease .pcie f.ipcDesc) with pushed := hw.pushed.eraseIdx k }, { f with ipcDesc := .null })
  | _ => ({ hw with pushed := hw.pushed.eraseIdx k }, f)

/-- `aml_txdatacfm`, `aml_tx_cfm_task`: the buffer is queued again at some place, or released. -/
def txCfm (k : Nat) (f : Frame) (swRetry : Bool) (place : Nat) : TxHw :=
  let (hw, f) := hw.getSkbFromCfm k f
  if f.mgmt = false ∧ hw.active f.txq = true ∧ swRetry = true then
    { hw with queued := hw.queued.take place ++ f :: hw.queued.drop place }
  else hw.emit (f.confirm hw.busType)

/-- `aml_ipc_tx_drain`. -/
def txDrain : TxHw :=
  { hw.emit (hw.pushed.flatMap (·.drop hw.busType)) with pushed := [] }

end TxHw

/-! ### An A-MSDU is taken apart -/

/-- What `aml_amsdu_dismantle` meets for a subframe: it gets a header, there is none, or there is one
and the subframe has no room for it. -/
inductive SubframeOutcome
  | queued
  | noSwTxhdr
  | noRoom
  deriving DecidableEq

/-- A subframe that is given up. -/
def AmsduTxhdr.fail (busType : BusType) (sub : AmsduTxhdr) : List Event :=
  (match busType with
    | .pcie => ipcBufA2eRelease .pcie sub.ipcData
    | _ => []) ++ [.released (.skb sub.skb)]

namespace TxHw

/-- The loop of `aml_amsdu_dismantle`: the buffers it queues behind `main`. -/
def dismantleHdrs (main : Frame) (outcome : Nat → SubframeOutcome) : List AmsduTxhdr → TxHw → TxHw × List Frame
  | [], hw => (hw, [])
  | sub :: rest, hw =>
    match outcome sub.skb with
    | .noSwTxhdr => dismantleHdrs main outcome rest (hw.emit (sub.fail hw.busType))
    | .noRoom =>
      let (hw, swTxhdr) := hw.acquire .swTxhdr
      dismantleHdrs main outcome rest (hw.emit (.released (.swTxhdr swTxhdr) :: sub.fail hw.busType))
    | .queued =>
      let (hw, swTxhdr) := hw.acquire .swTxhdr
      -- a copy of the header of `main`, with the mapping of the subframe
      let f : Frame :=
        { main with
          skb := sub.skb
          swTxhdr := swTxhdr
          ipcData := match hw.busType with
            | .pcie => sub.ipcData
            | _ => main.ipcData
          hdrs := [] }
      let (hw, fs) := dismantleHdrs main outcome rest hw
      (hw, f :: fs)

def amsduDismantle (hw : TxHw) (k : Nat) (main : Frame) (outcome : Nat → SubframeOutcome) : TxHw :=
  let (hw, fs) := dismantleHdrs main outcome main.hdrs hw
  { hw with queued := hw.queued.take k ++ { main with hdrs := [] } :: fs ++ hw.queued.drop (k + 1) }

end TxHw

/-! ### Runs -/

/-- The calls; `k` is the place of a buffer in the list it is in. -/
inductive Action
  | txqInit (t : Nat)
  | txqDeinit (t : Nat)
  | startXmit (t : Nat) (x : XmitOutcome)
  | startMgmtXmit (t : Nat) (x : MgmtOutcome)
  | tcpAckTimeout (i t : Nat) (x : AckOutcome)
  | tcpDelayAckDeinit
  | push (k : Nat) (map : Bool)
  | txCfm (k : Nat) (swRetry : Bool) (place : Nat)
  | txqDropSkb (k : Nat)
  | amsduDismantle (k : Nat) (outcome : Nat → SubframeOutcome)
  | pciShutdown
  | txDrain

def TxHw.step (hw : TxHw) : Action → Option TxHw
  | .txqInit t => some (hw.txqInit t)
  | .txqDeinit t => some (hw.txqDeinit t)
  | .startXmit t x => some (hw.startXmit t x)
  | .startMgmtXmit t x => some (hw.startMgmtXmit t x)
  | .tcpAckTimeout i t x => some (hw.tcpAckTimeout i t x)
  | .tcpDelayAckDeinit => some hw.tcpDelayAckDeinit
  | .push k map => hw.queued[k]?.map fun f => hw.push k f map
  | .txCfm k swRetry place => hw.pushed[k]?.map fun f => hw.txCfm k f swRetry place
  | .txqDropSkb k => hw.queued[k]?.map fun f => hw.txqDropSkb k f
  | .amsduDismantle k outcome => hw.queued[k]?.map fun f => hw.amsduDismantle k f outcome
  | .pciShutdown => some { hw with pciShutdown := true }
  | .txDrain => some hw.txDrain

/-- The driver after its initialisation, and the calls. -/
def xmitSystem (busType : BusType) : System TxHw Action where
  init := { busType := busType }
  step := TxHw.step

end W2l.Xmit
