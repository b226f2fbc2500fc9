/-
**TX queues and hardware queues: the data.**

`struct aml_txq`, `struct aml_hwq` (`aml_txq.h`), `struct aml_sta_ps` (`fullmac/aml_defs.h`), the part
of `struct aml_sw_txhdr` (`fullmac/aml_tx.h`) that scheduling uses, and the part of `struct aml_hw`
they hang on. Links between the structures are numbers: a TX queue by its place in `aml_hw->txq`, a
station by its place in `aml_hw->sta_table`, a socket buffer by its pointer.

* `Txq`, `Hwq`, `Sta`, `SwTxhdr`, `AmlHw` — the structures.
* `modTxq`, `modHwq`, `modSta`, `modSwTxhdr` — a change of one of them, with what it leaves.
-/

import Mathlib.Data.Finset.Basic
import W2lDriver.Ipc.HostId

namespace W2l.Sched

open Cmd (BusType)
open Ipc (HostEnv)
open Function (update_of_ne update_self)

/-! ### Machine integers -/

/-- A value stored in an `s8`. -/
def s8 (x : Int) : Int := x.bmod 256

/-- `++` and `--` on a `u8` and on a `u16`. -/
def u8Inc (n : Nat) : Nat := (n + 1) % 2 ^ 8
def u8Dec (n : Nat) : Nat := (n + (2 ^ 8 - 1)) % 2 ^ 8
def u16Inc (n : Nat) : Nat := (n + 1) % 2 ^ 16
def u16Dec (n : Nat) : Nat := (n + (2 ^ 16 - 1)) % 2 ^ 16

theorem s8_eq {x : Int} (low : -128 ≤ x) (high : x < 128) : s8 x = x := by
  unfold s8
  exact Int.bmod_eq_of_le (by omega) (by omega)

/-! ### Names -/

inductive HwqId
  | bk
  | be
  | vi
  | vo
  | bcmc
  deriving DecidableEq, Repr

/-- The bits of `AML_TXQ_STOP`. -/
inductive StopReason
  | full
  | csa
  | staPs
  | vifPs
  | chan
  | coexInactive
  deriving DecidableEq, Repr

/-- `LEGACY_PS_ID`, `UAPSD_ID`. -/
inductive PsId
  | legacy
  | uapsd
  deriving DecidableEq, Repr

/-- A pointer to a socket buffer; `0` is `NULL`. -/
abbrev Skb := Nat
abbrev TxqId := Nat
abbrev StaId := Nat

/-- `NX_TXQ_INITIAL_CREDITS`, `NX_NB_TXQ_PER_STA`, `NX_REMOTE_STA_MAX`, `NX_FIRST_VIF_TXQ_IDX`,
`NX_FIRST_UNK_TXQ_IDX`. -/
def nxTxqInitialCredits : Int := 4
def nxNbTxqPerSta : Nat := 9
def nxRemoteStaMax : Nat := 16
def nxFirstVifTxqIdx : Nat := nxRemoteStaMax * nxNbTxqPerSta
def nxFirstUnkTxqIdx : Nat := nxFirstVifTxqIdx + 4

/-- `AML_NDEV_FLOW_CTRL_STOP`, `AML_NDEV_FLOW_CTRL_RESTART`. -/
def amlNdevFlowCtrlStop : Nat := 2000
def amlNdevFlowCtrlRestart : Nat := 600

/-! ### Structures -/

structure Txq where
  /-- `idx` is not `TXQ_INACTIVE`. -/
  active : Bool := false
  /-- `AML_TXQ_IN_HWQ_LIST`, `AML_TXQ_NDEV_FLOW_CTRL` and the stop bits of `status`. -/
  inHwqList : Bool := false
  ndevFlowCtrl : Bool := false
  stop : Finset StopReason := ∅
  credits : Int := 0
  pktSent : Nat := 0
  pktPushed : Nat := 0
  skList : List Skb := []
  lastRetrySkb : Option Skb := none
  nbRetry : Nat := 0
  hwq : HwqId := .be
  pushLimit : Nat := 0
  sta : Option StaId := none
  psId : PsId := .legacy
  /-- `ndev_idx` is not `NDEV_NO_TXQ`. -/
  netdev : Bool := false

namespace Txq

/-- `aml_txq_is_stopped`. -/
def isStopped (x : Txq) : Bool := decide (x.stop ≠ ∅)

/-- `aml_txq_is_full`. -/
def isFull (x : Txq) : Bool := decide (.full ∈ x.stop)

/-- `aml_txq_skb_ready`. -/
def skbReady (x : Txq) : Bool := !x.skList.isEmpty

/-- `aml_txq_get_credits`. -/
def getCredits (x : Txq) : Int :=
  if x.pushLimit ≠ 0 ∧ (x.pushLimit : Int) < x.credits then x.pushLimit else x.credits

end Txq

/-- `struct aml_hwq`, for the one user position there is. -/
structure Hwq where
  list : List TxqId := []
  credits : Nat
  size : Nat
  needProcessing : Bool := false

/-- `struct aml_sta_ps`, and what `aml_set_traffic_status` told the firmware last. -/
structure Sta where
  psActive : Bool := false
  pktReady : PsId → Nat := fun _ => 0
  spCnt : PsId → Nat := fun _ => 0
  trafficInd : PsId → Bool := fun _ => false

/-- The part of `struct aml_sw_txhdr` scheduling uses. -/
structure SwTxhdr where
  txq : TxqId
  amlSta : Option StaId := none
  hwQueue : HwqId := .be
  /-- `TXU_CNTRL_MGMT`. -/
  mgmt : Bool := false

/-- The part of `struct aml_hw` that TX queues use. -/
structure AmlHw where
  busType : BusType
  txq : TxqId → Txq := fun _ => {}
  hwq : HwqId → Hwq
  sta : StaId → Sta := fun _ => {}
  swTxhdr : Skb → SwTxhdr := fun _ => { txq := 0 }
  /-- The host ids, `tx_desc_save`, and the frames whose DMA descriptor is written. -/
  env : HostEnv
  txDescSave : List Skb := []
  dmaDescs : List Skb := []
  /-- The next pointer `dev_alloc_skb` gives out. -/
  nextSkb : Nat := 1
  /-- `g_pci_shutdown`. -/
  pciShutdown : Bool := false

namespace AmlHw

/-! ### Changes -/

def modTxq (hw : AmlHw) (t : TxqId) (f : Txq → Txq) : AmlHw :=
  { hw with txq := Function.update hw.txq t (f (hw.txq t)) }

def modHwq (hw : AmlHw) (q : HwqId) (f : Hwq → Hwq) : AmlHw :=
  { hw with hwq := Function.update hw.hwq q (f (hw.hwq q)) }

def modSta (hw : AmlHw) (i : StaId) (f : Sta → Sta) : AmlHw :=
  { hw with sta := Function.update hw.sta i (f (hw.sta i)) }

def modSwTxhdr (hw : AmlHw) (skb : Skb) (f : SwTxhdr → SwTxhdr) : AmlHw :=
  { hw with swTxhdr := Function.update hw.swTxhdr skb (f (hw.swTxhdr skb)) }

section Changes

variable (hw : AmlHw) (t : TxqId) (q : HwqId) (i : StaId) (skb : Skb)

section

variable (f : Txq → Txq)

include f

@[simp] theorem modTxq_self : (hw.modTxq t f).txq t = f (hw.txq t) :=
  update_self t _ _

@[simp] theorem modTxq_of_ne {t' : TxqId} (other : t' ≠ t) :
    (hw.modTxq t f).txq t' = hw.txq t' := update_of_ne other _ _

@[simp] theorem modTxq_sta : (hw.modTxq t f).sta = hw.sta := rfl
end

section

variable (f : Hwq → Hwq)

include f

@[simp] theorem modHwq_self : (hw.modHwq q f).hwq q = f (hw.hwq q) :=
  update_self q _ _

@[simp] theorem modHwq_of_ne {q' : HwqId} (other : q' ≠ q) :
    (hw.modHwq q f).hwq q' = hw.hwq q' := update_of_ne other _ _

@[simp] theorem modHwq_txq : (hw.modHwq q f).txq = hw.txq := rfl
end

section

variable (f : Sta → Sta)

include f

@[simp] theorem modSta_self : (hw.modSta i f).sta i = f (hw.sta i) :=
  update_self i _ _

end

section

variable (f : SwTxhdr → SwTxhdr)

include f

@[simp] theorem modSwTxhdr_self : (hw.modSwTxhdr skb f).swTxhdr skb = f (hw.swTxhdr skb) := update_self skb _ _

@[simp] theorem modSwTxhdr_of_ne {skb' : Skb} (other : skb' ≠ skb) :
    (hw.modSwTxhdr skb f).swTxhdr skb' = hw.swTxhdr skb' := update_of_ne other _ _

end

end Changes

end AmlHw

end W2l.Sched
