/-
**TX queues, hardware queues and the firmware as one machine.**

Every step is a call made under `tx_lock`. Upper layers queue buffers, the hardware queues push them,
the firmware confirms them by their host ids, and queues are initialised, stopped, started and
removed in between, in any order.

* `hwInit` — `aml_hwq_init`, and the TX queues before the first `aml_txq_init`.
* `Action`, `AmlHw.step` — the calls.
* `schedSystem` — the machine; `KnownCfm` — the firmware reports on PCIe only ids that it holds.
-/

import W2lDriver.Sched.Confirm

namespace W2l.Sched

open Cmd (BusType)
open Ipc (HostEnv KnownId)
open Lib (System)

/-- `nx_txdesc_cnt` on PCIe, `nx_txdesc_cnt_ext` on the other buses. -/
def nxTxdescCnt : BusType → HwqId → Nat
  | .pcie, .bcmc => 8
  | .pcie, _ => 64
  | _, .bcmc => 8
  | _, _ => 124

/-- `aml_hwq_init` and `ipc_host_init`. A TX queue that is not initialised yet has no hardware queue;
it is given its own here, which nothing reads before `aml_txq_init`. -/
def hwInit (busType : BusType) : AmlHw where
  busType := busType
  txq t := { hwq := txqHwq t }
  hwq q := { credits := nxTxdescCnt busType q, size := nxTxdescCnt busType q }
  env := HostEnv.ipcHostInit busType

/-- The entries of `sta_table`. -/
def staTableSize : Nat := nxRemoteStaMax + 4

/-! ### Steps -/

inductive Action
  | txqInit (t : TxqId) (status : Finset StopReason) (psId : PsId)
  | txqDeinit (t : TxqId)
  | txqStart (t : TxqId) (reason : Finset StopReason)
  | txqStop (t : TxqId) (reason : Finset StopReason)
  /-- `aml_start_xmit` or `aml_start_mgmt_xmit` queues a new buffer. -/
  | startXmit (t : TxqId) (amlSta : Option StaId) (mgmt : Bool)
  /-- `aml_amsdu_dismantle` queues a subframe behind the buffer it was part of. -/
  | amsduDismantle (t : TxqId) (prev : Skb)
  | hwqProcess (q : HwqId) (a2eInit : Skb → Bool)
  | txqDropOldTraffic (t : TxqId) (old : Skb → Bool)
  | txCfm (hostid : BitVec 32) (credits : Int) (swRetry : Bool)
  | txqCreditUpdate (t : TxqId) (update : Int)
  | psBhEnable (i : StaId) (enable : Bool)
  | psBhTrafficReq (i : StaId) (pktReq : Nat) (psId : PsId)
  /-- The TX task sends the first `n` descriptors. -/
  | txTask (n : Nat)
  /-- The bus driver sets `g_pci_shutdown`. -/
  | pciShutdown
  | txDrain

namespace AmlHw

variable (hw : AmlHw)

/-- A buffer that is prepared for a queue: its pointer and its header are new. -/
def prepared (swTxhdr : SwTxhdr) : AmlHw :=
  { hw.modSwTxhdr hw.nextSkb fun _ => swTxhdr with nextSkb := hw.nextSkb + 1 }

/-- `aml_start_xmit`, `aml_start_mgmt_xmit` with a queue that is active. -/
def startXmit (t : TxqId) (amlSta : Option StaId) (mgmt : Bool) : AmlHw :=
  ((hw.prepared { txq := t, amlSta := amlSta, mgmt := mgmt }).txqQueueSkb hw.nextSkb t false none).1

/-- One round of `aml_amsdu_dismantle`: the header is copied, and the buffer goes behind `prev`. -/
def amsduDismantle (t : TxqId) (prev : Skb) : AmlHw :=
  ((hw.prepared (hw.swTxhdr prev)).txqQueueSkb hw.nextSkb t false (some prev)).1

def step (hw : AmlHw) : Action → Option AmlHw
  | .txqInit t status psId => some (hw.txqInit t status psId)
  | .txqDeinit t => some (hw.txqDeinit t)
  | .txqStart t reason => some (hw.txqStart t reason)
  | .txqStop t reason => some (hw.txqStop t reason)
  | .startXmit t amlSta mgmt =>
    if (hw.txq t).active then some (hw.startXmit t amlSta mgmt) else none
  | .amsduDismantle t prev =>
    if prev ∈ (hw.txq t).skList then some (hw.amsduDismantle t prev) else none
  | .hwqProcess q a2eInit => some (hw.hwqProcess a2eInit q)
  | .txqDropOldTraffic t old => some (hw.txqDropOldTraffic t old)
  -- `credits` and `update` are `s8`, `pkt_req` is an `u16`
  | .txCfm hostid credits swRetry => some (hw.txCfm hostid (s8 credits) swRetry)
  | .txqCreditUpdate t update => some (hw.txqCreditUpdate t (s8 update))
  | .psBhEnable i enable => if i < staTableSize then some (hw.psBhEnable i enable) else none
  | .psBhTrafficReq i pktReq psId =>
    if i < staTableSize then some (hw.psBhTrafficReq i (pktReq % 2 ^ 16) psId) else none
  | .txTask n => some { hw with txDescSave := hw.txDescSave.drop n }
  | .pciShutdown => some { hw with pciShutdown := true }
  | .txDrain => some (txDrain hw.env.txHostidPushed.length hw)

end AmlHw

/-! ### Runs -/

/-- The driver after its initialisation, and the calls. -/
def schedSystem (busType : BusType) : System AmlHw Action where
  init := hwInit busType
  step := AmlHw.step

/-- On PCIe the firmware confirms only ids that it holds, or that are refused. -/
def KnownCfm (hw : AmlHw) : Action → Prop
  | .txCfm hostid _ _ => hw.busType = .pcie → KnownId hw.env hostid
  | _ => True

instance (hw : AmlHw) : (a : Action) → Decidable (KnownCfm hw a)
  | .txCfm hostid _ _ => inferInstanceAs (Decidable (hw.busType = .pcie → KnownId hw.env hostid))
  | .txqInit .. | .txqDeinit .. | .txqStart .. | .txqStop .. | .startXmit .. | .amsduDismantle ..
  | .hwqProcess .. | .txqDropOldTraffic .. | .txqCreditUpdate .. | .psBhEnable ..
  | .psBhTrafficReq .. | .txTask .. | .pciShutdown | .txDrain => .isTrue trivial

end W2l.Sched
