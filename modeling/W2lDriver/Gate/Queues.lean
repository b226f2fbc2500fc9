/-
**Stopping TX queues by interface.**

`aml_txq.c`. Whatever stops an interface is kept as a bit in each of its queues: the queues of its
stations, its broadcast queue and the one for unknown stations.

* `Txq` — the part of `struct aml_txq` that starting and stopping uses; `Txq.start`, `Txq.stop`
  are `aml_txq_start` and `aml_txq_stop` (`views_run`).
* `GateHw` — interfaces, stations and queues.
* `vifStas`, `txqVifStart`, `txqVifStop` — `aml_txq_vif_for_each_sta`, `aml_txq_vif_start`,
  `aml_txq_vif_stop`.
* `txqVifStart_txq`, `txqVifStop_txq`, `foldl_txqVifStart`, `foldl_txqVifStop` — **each queue an
  interface reaches is started or stopped, and no other**.
-/

import W2lDriver.Chan.Context
import W2lDriver.Sched.Links

set_option linter.unusedSectionVars false

namespace W2l.Gate

open Chan (amlChNotSet)
open Sched (StopReason nxNbTxqPerSta nxTxqInitialCredits)
open Sched.AmlHw (modHwq_txq modTxq_self txqStart txqStop)

/-! ### One queue -/

/-- The part of `struct aml_txq` that starting and stopping uses. -/
structure Txq where
  /-- `idx` is not `TXQ_INACTIVE`. -/
  active : Bool := false
  /-- The bits of `AML_TXQ_STOP` in `status`, and `AML_TXQ_IN_HWQ_LIST`. -/
  status : Finset StopReason := ∅
  inHwqList : Bool := false
  credits : Int := 0
  /-- `sk_list` is not empty. -/
  skbReady : Bool := false
  deriving DecidableEq

namespace Txq

/-- `aml_txq_start`. -/
def start (reason : Finset StopReason) (x : Txq) : Txq :=
  if x.active = true ∧ x.status ∩ reason ≠ ∅ then
    let x := { x with status := x.status \ reason }
    if x.status = ∅ ∧ x.skbReady = true then { x with inHwqList := true } else x
  else x

/-- `aml_txq_stop`. -/
def stop (reason : Finset StopReason) (x : Txq) : Txq :=
  if x.active then
    { x with
      status := x.status ∪ reason
      inHwqList := false }
  else x

/-- `aml_txq_init`. -/
def init (status : Finset StopReason) : Txq where
  active := true
  -- `status` is an `u8`
  status := status.erase .coexInactive
  credits := nxTxqInitialCredits

/-- `aml_txq_deinit`. -/
def deinit (x : Txq) : Txq :=
  if x.active then
    { x with
      active := false
      inHwqList := false
      skbReady := false }
  else x

variable (x : Txq) (reason : Finset StopReason)

@[simp] theorem start_active : (x.start reason).active = x.active := by
  unfold start
  split
  · dsimp only
    split <;> rfl
  · rfl

@[simp] theorem stop_active : (x.stop reason).active = x.active := by
  unfold stop
  split <;> rfl

@[simp] theorem deinit_active : x.deinit.active = false := by
  unfold deinit
  split
  · rfl
  · case isFalse idle => exact Bool.eq_false_iff.mpr idle

theorem start_status {x : Txq} (active : x.active = true) : (x.start reason).status = x.status \ reason := by
  unfold start
  by_cases common : x.status ∩ reason = ∅
  · rw [if_neg (fun both => both.2 common)]
    exact (Finset.sdiff_eq_self_of_disjoint (Finset.disjoint_iff_inter_eq_empty.mpr common)).symm
  · rw [if_pos ⟨active, common⟩]
    dsimp only
    split <;> rfl

theorem stop_status {x : Txq} (active : x.active = true) : (x.stop reason).status = x.status ∪ reason := by
  unfold stop
  rw [if_pos active]

theorem start_of_inactive {x : Txq} (idle : x.active = false) : x.start reason = x := by
  unfold start
  refine if_neg fun both => ?_
  rw [idle] at both
  exact Bool.false_ne_true both.1

theorem stop_of_inactive {x : Txq} (idle : x.active = false) : x.stop reason = x := by
  unfold stop
  exact if_neg (by rw [idle]; exact Bool.false_ne_true)

theorem start_start : (x.start reason).start reason = x.start reason := by
  cases active : x.active with
  | false => rw [start_of_inactive reason active, start_of_inactive reason active]
  | true =>
    have gone : (x.start reason).status ∩ reason = ∅ := by
      rw [start_status reason active]
      exact Finset.sdiff_inter_self ..
    conv_lhs => unfold start
    exact if_neg fun both => both.2 gone

theorem stop_stop : (x.stop reason).stop reason = x.stop reason := by
  cases active : x.active with
  | false => rw [stop_of_inactive reason active, stop_of_inactive reason active]
  | true =>
    have again : x.status ∪ reason ∪ reason = x.status ∪ reason := by
      rw [Finset.union_assoc, Finset.union_self]
    unfold stop
    rw [if_pos active, if_pos active, again]

end Txq

/-- The part of a queue of the scheduler that starting and stopping uses. -/
def view (x : Sched.Txq) : Txq where
  active := x.active
  status := x.stop
  inHwqList := x.inHwqList
  credits := x.credits
  skbReady := x.skbReady

section View

variable (hw : Sched.AmlHw) (t : Sched.TxqId) (reason : Finset StopReason)

theorem view_txqStart : view ((hw.txqStart t reason).txq t) = (view (hw.txq t)).start reason := by
  unfold txqStart Txq.start
  by_cases starts : (hw.txq t).active = true ∧ (hw.txq t).stop ∩ reason ≠ ∅
  · have seen : (view (hw.txq t)).active = true ∧ (view (hw.txq t)).status ∩ reason ≠ ∅ := starts
    rw [if_pos starts, if_pos seen]
    dsimp only [Sched.Txq.isStopped]
    rw [modTxq_self]
    by_cases ready : (hw.txq t).stop \ reason = ∅ ∧ (hw.txq t).skbReady = true
    · have free : decide ((hw.txq t).stop \ reason ≠ ∅) = false ∧ (hw.txq t).skbReady = true :=
        ⟨decide_eq_false (fun some => some ready.1), ready.2⟩
      have shown : (view (hw.txq t)).status \ reason = ∅ ∧ (view (hw.txq t)).skbReady = true := ready
      refine (congrArg (fun hw : Sched.AmlHw => view (hw.txq t)) (if_pos free)).trans ?_
      rw [if_pos shown]
      unfold Sched.AmlHw.txqAddToHwList
      rw [modTxq_self]
      by_cases listed : (hw.txq t).inHwqList = true
      · rw [if_pos listed, modTxq_self]
        simp only [view, Sched.Txq.skbReady, listed]
      · rw [if_neg listed, modHwq_txq, modTxq_self, modTxq_self]
        rfl
    · have quiet : ¬ (decide ((hw.txq t).stop \ reason ≠ ∅) = false ∧ (hw.txq t).skbReady = true) :=
        fun both => ready ⟨not_not.mp (of_decide_eq_false both.1), both.2⟩
      have hidden : ¬ ((view (hw.txq t)).status \ reason = ∅ ∧ (view (hw.txq t)).skbReady = true) := ready
      refine (congrArg (fun hw : Sched.AmlHw => view (hw.txq t)) (if_neg quiet)).trans ?_
      rw [if_neg hidden, modTxq_self]
      rfl
  · have unseen : ¬ ((view (hw.txq t)).active = true ∧ (view (hw.txq t)).status ∩ reason ≠ ∅) := starts
    rw [if_neg starts, if_neg unseen]

theorem view_txqStop : view ((hw.txqStop t reason).txq t) = (view (hw.txq t)).stop reason := by
  unfold txqStop Txq.stop
  by_cases active : (hw.txq t).active = true
  · have seen : (view (hw.txq t)).active = true := active
    rw [if_pos active, if_pos seen]
    unfold Sched.AmlHw.txqDelFromHwList
    rw [modTxq_self]
    by_cases listed : (hw.txq t).inHwqList = true
    · rw [if_pos listed]
      dsimp only
      rw [modTxq_self, modTxq_self]
      rfl
    · rw [if_neg listed, modTxq_self]
      simp only [view, Sched.Txq.skbReady, Bool.eq_false_iff.mpr listed]
  · have unseen : ¬ (view (hw.txq t)).active = true := active
    rw [if_neg active, if_neg unseen]

/-- A call of `aml_txq_start` or of `aml_txq_stop`. -/
inductive Switch
  | start (t : Sched.TxqId) (reason : Finset StopReason)
  | stop (t : Sched.TxqId) (reason : Finset StopReason)

def Switch.call (hw : Sched.AmlHw) : Switch → Sched.AmlHw
  | start t reason => hw.txqStart t reason
  | stop t reason => hw.txqStop t reason

def Switch.on (x : Sched.TxqId → Txq) : Switch → Sched.TxqId → Txq
  | start t reason => Function.update x t ((x t).start reason)
  | stop t reason => Function.update x t ((x t).stop reason)

def views (u : Sched.TxqId) : Txq := view (hw.txq u)

theorem views_moved {hw hw' : Sched.AmlHw} {t : Sched.TxqId} {x : Txq} (moved : Sched.Moves t hw hw')
    (own : view (hw'.txq t) = x) : Function.update (views hw) t x = views hw' := by
  funext u
  rcases eq_or_ne u t with rfl | other
  · rw [Function.update_self, views, own]
  · rw [Function.update_of_ne other, views, views, moved.others u other]

/-- **Starting and stopping queues of the scheduler is starting and stopping what is seen of them.** -/
theorem views_run (calls : List Switch) :
    calls.foldl Switch.on (views hw) = views (calls.foldl Switch.call hw) := by
  refine List.foldl_hom views fun hw call => ?_
  cases call with
  | start t reason => exact views_moved (.txqStart hw t reason) (view_txqStart hw t reason)
  | stop t reason => exact views_moved (.txqStop hw t reason) (view_txqStop hw t reason)

end View

/-! ### Interfaces -/

/-- `enum nl80211_iftype`, as far as the driver has it. -/
inductive Iftype
  | station
  | p2pClient
  | ap
  | p2pGo
  | meshPoint
  | apVlan
  | monitor
  deriving DecidableEq

/-- `enum tdls_status_tag`. -/
inductive TdlsStatus
  | linkIdle
  | setupReqTx
  | setupRspTx
  | linkActive
  deriving DecidableEq

/-- `struct aml_vif`, with the interfaces `V` and the stations `S`. -/
structure Vif (V S : Type) where
  iftype : Iftype := .station
  /-- `ap_vlan.master`. -/
  master : Option V := none
  up : Bool := false
  chIndex : BitVec 8 := amlChNotSet
  rocTdls : Bool := false
  /-- `sta.ap`, `sta.tdls_sta`. -/
  ap : Option S := none
  tdlsSta : Option S := none
  tdlsStatus : TdlsStatus := .linkIdle
  /-- `ap.sta_list`. -/
  staList : List S := []

/-- A TX queue, by what it is for: `aml_txq_sta_idx`, `aml_txq_vif_idx`, `NX_OFF_CHAN_TXQ_IDX`. -/
inductive Queue (V S : Type)
  | sta (i : S) (tid : Fin nxNbTxqPerSta)
  | bcmc (vif : V)
  | unk (vif : V)
  | offchan
  deriving DecidableEq

/-- The part of `struct aml_hw` that stopping by interface uses. -/
structure GateHw (V S : Type) where
  /-- `vifs`, the interfaces that were opened. -/
  vifs : List V := []
  vif : V → Vif V S := fun _ => {}
  /-- `vif_idx` of a station. -/
  staVif : S → Option V := fun _ => none
  /-- `tdls.chsw_en` of a station. -/
  chswEn : S → Bool := fun _ => false
  txq : Queue V S → Txq := fun _ => {}
  curChanctx : BitVec 8 := 0
  /-- The interface of `roc`, and `roc->on_chan`. -/
  roc : Option (V × Bool) := none

variable {V S : Type} [DecidableEq V] [DecidableEq S]

namespace GateHw

variable (s : GateHw V S)

/-- `master_vif_idx`. -/
def masterVif (v : V) : V :=
  match (s.vif v).iftype with
  | .apVlan => (s.vif v).master.getD v
  | _ => v

/-- The stations `aml_txq_vif_for_each_sta` visits. -/
def vifStas (v : V) : List S :=
  match (s.vif v).iftype with
  | .station | .p2pClient =>
    (if (s.vif v).tdlsStatus = .linkActive then (s.vif v).tdlsSta.toList else []) ++ (s.vif v).ap.toList
  | .apVlan => (s.vif (s.masterVif v)).staList
  | .ap | .meshPoint | .p2pGo => (s.vif v).staList
  | .monitor => []

/-- A change of an interface, and of the queues that `hit` names. -/
def modVif (v : V) (f : Vif V S → Vif V S) : GateHw V S :=
  { s with vif := Function.update s.vif v (f (s.vif v)) }

def mapTxq (hit : Queue V S → Bool) (f : Txq → Txq) : GateHw V S :=
  { s with txq := fun q => if hit q then f (s.txq q) else s.txq q }

/-- The queues of some stations, `foreach_sta_txq`. -/
def isSta (stas : List S) : Queue V S → Bool
  | .sta i _ => decide (i ∈ stas)
  | _ => false

/-- The queues of an interface itself, `NX_BCMC_TXQ_TYPE` and `NX_UNK_TXQ_TYPE`. -/
def isVif (v : V) : Queue V S → Bool
  | .bcmc w => decide (w = v)
  | .unk w => decide (w = v)
  | _ => false

def txqVifStart (v : V) (reason : Finset StopReason) : GateHw V S :=
  if (s.vif v).iftype = .monitor then s
  else
    let s :=
      if (s.vif v).rocTdls then
        s.mapTxq (isSta ((s.vif v).tdlsSta.toList.filter s.chswEn)) (Txq.start reason)
      else s.mapTxq (isSta (s.vifStas v)) (Txq.start reason)
    s.mapTxq (isVif (s.masterVif v)) (Txq.start reason)

def txqVifStop (v : V) (reason : Finset StopReason) : GateHw V S :=
  if (s.vif v).iftype = .monitor then s
  else
    (s.mapTxq (isSta (s.vifStas v)) (Txq.stop reason)).mapTxq (isVif (s.masterVif v)) (Txq.stop reason)

def txqVifGetStatus (v : V) : Finset StopReason :=
  (s.txq (.bcmc (s.masterVif v))).status ∩ {.chan, .vifPs}

/-- `aml_txq_vif_init`, `aml_txq_vif_deinit`. -/
def txqVifInit (v : V) (status : Finset StopReason) : GateHw V S :=
  s.mapTxq (isVif (s.masterVif v)) fun _ => Txq.init status
def txqVifDeinit (v : V) : GateHw V S := s.mapTxq (isVif (s.masterVif v)) Txq.deinit

/-- `aml_txq_sta_init`, `aml_txq_sta_deinit`. -/
def txqStaInit (i : S) (status : Finset StopReason) : GateHw V S :=
  s.mapTxq (isSta [i]) fun _ => Txq.init status
def txqStaDeinit (i : S) : GateHw V S := s.mapTxq (isSta [i]) Txq.deinit

/-- `aml_txq_unk_vif_init`, `aml_txq_unk_vif_deinit`. -/
def txqUnkVifInit (v : V) : GateHw V S :=
  s.mapTxq (fun q => decide (q = .unk (s.masterVif v))) fun _ => Txq.init ∅
def txqUnkVifDeinit (v : V) : GateHw V S :=
  s.mapTxq (fun q => decide (q = .unk (s.masterVif v))) Txq.deinit

/-! ### The queues an interface reaches -/

/-- The queues `aml_txq_vif_stop` stops. -/
def stopped (v : V) (q : Queue V S) : Bool :=
  (s.vif v).iftype ≠ .monitor && (isSta (s.vifStas v) q || isVif (s.masterVif v) q)

/-- The queues `aml_txq_vif_start` starts. -/
def started (v : V) (q : Queue V S) : Bool :=
  (s.vif v).iftype ≠ .monitor &&
    ((if (s.vif v).rocTdls then isSta ((s.vif v).tdlsSta.toList.filter s.chswEn) q
      else isSta (s.vifStas v) q) || isVif (s.masterVif v) q)

variable {s}

section Fields

variable (hit : Queue V S → Bool) (f : Txq → Txq) (v : V) (g : Vif V S → Vif V S)

@[simp] theorem mapTxq_vifs : (s.mapTxq hit f).vifs = s.vifs := rfl
@[simp] theorem mapTxq_vif : (s.mapTxq hit f).vif = s.vif := rfl
@[simp] theorem mapTxq_staVif : (s.mapTxq hit f).staVif = s.staVif := rfl
@[simp] theorem mapTxq_curChanctx : (s.mapTxq hit f).curChanctx = s.curChanctx := rfl
theorem mapTxq_txq (q : Queue V S) : (s.mapTxq hit f).txq q = if hit q then f (s.txq q) else s.txq q := rfl

@[simp] theorem modVif_vifs : (s.modVif v g).vifs = s.vifs := rfl
@[simp] theorem modVif_staVif : (s.modVif v g).staVif = s.staVif := rfl
@[simp] theorem modVif_txq : (s.modVif v g).txq = s.txq := rfl
@[simp] theorem modVif_curChanctx : (s.modVif v g).curChanctx = s.curChanctx := rfl
@[simp] theorem modVif_self : (s.modVif v g).vif v = g (s.vif v) := Function.update_self ..

@[simp] theorem modVif_of_ne {w : V} (other : w ≠ v) : (s.modVif v g).vif w = s.vif w :=
  Function.update_of_ne other ..

theorem mapTxq_start_active (reason : Finset StopReason) (q : Queue V S) :
    ((s.mapTxq hit (Txq.start reason)).txq q).active = (s.txq q).active := by
  rw [mapTxq_txq]
  split
  · exact Txq.start_active ..
  · rfl

theorem mapTxq_stop_active (reason : Finset StopReason) (q : Queue V S) :
    ((s.mapTxq hit (Txq.stop reason)).txq q).active = (s.txq q).active := by
  rw [mapTxq_txq]
  split
  · exact Txq.stop_active ..
  · rfl

theorem mapTxq_deinit_active {q : Queue V S} (used : ((s.mapTxq hit Txq.deinit).txq q).active = true) :
    hit q = false ∧ (s.txq q).active = true := by
  rw [mapTxq_txq] at used
  split at used
  · rw [Txq.deinit_active] at used
    cases used
  · case isFalse miss => exact ⟨Bool.eq_false_iff.mpr miss, used⟩

theorem mapTxq_start_status (reason : Finset StopReason) {q : Queue V S} (used : (s.txq q).active = true) :
    ((s.mapTxq hit (Txq.start reason)).txq q).status =
      if hit q then (s.txq q).status \ reason else (s.txq q).status := by
  rw [mapTxq_txq]
  split
  · exact Txq.start_status reason used
  · rfl

theorem mapTxq_stop_status (reason : Finset StopReason) {q : Queue V S} (used : (s.txq q).active = true) :
    ((s.mapTxq hit (Txq.stop reason)).txq q).status =
      if hit q then (s.txq q).status ∪ reason else (s.txq q).status := by
  rw [mapTxq_txq]
  split
  · exact Txq.stop_status reason used
  · rfl

end Fields

theorem mapTxq_false (f : Txq → Txq) : s.mapTxq (fun _ => false) f = s := by
  unfold mapTxq
  simp only [Bool.false_eq_true, if_false]

theorem mapTxq_mapTxq {f : Txq → Txq} (twice : ∀ x, f (f x) = f x) (hit hit' : Queue V S → Bool) :
    (s.mapTxq hit f).mapTxq hit' f = s.mapTxq (fun q => hit q || hit' q) f := by
  unfold mapTxq
  congr 1
  funext q
  cases first : hit q <;> cases second : hit' q <;> simp [first, second, twice]

theorem txqVifStop_txq (v : V) (reason : Finset StopReason) :
    s.txqVifStop v reason = s.mapTxq (s.stopped v) (Txq.stop reason) := by
  unfold txqVifStop stopped
  by_cases monitor : (s.vif v).iftype = .monitor
  · rw [if_pos monitor]
    simp only [monitor, ne_eq, not_true_eq_false, decide_false, Bool.false_and]
    exact (mapTxq_false _).symm
  · rw [if_neg monitor]
    simp only [monitor, ne_eq, not_false_eq_true, decide_true, Bool.true_and]
    exact mapTxq_mapTxq (fun x => x.stop_stop reason) ..

theorem txqVifStart_txq (v : V) (reason : Finset StopReason) :
    s.txqVifStart v reason = s.mapTxq (s.started v) (Txq.start reason) := by
  have twice : ∀ x : Txq, (x.start reason).start reason = x.start reason := fun x => x.start_start reason
  unfold txqVifStart started
  by_cases monitor : (s.vif v).iftype = .monitor
  · rw [if_pos monitor]
    simp only [monitor, ne_eq, not_true_eq_false, decide_false, Bool.false_and]
    exact (mapTxq_false _).symm
  · rw [if_neg monitor]
    simp only [monitor, ne_eq, not_false_eq_true, decide_true, Bool.true_and]
    cases (s.vif v).rocTdls with
    | false => exact mapTxq_mapTxq twice ..
    | true => exact mapTxq_mapTxq twice ..

/-! ### Several interfaces -/

theorem foldl_txqVifStop (vifs : List V) (reason : Finset StopReason) :
    vifs.foldl (fun s v => s.txqVifStop v reason) s =
      s.mapTxq (fun q => vifs.any fun v => s.stopped v q) (Txq.stop reason) := by
  induction vifs generalizing s with
  | nil => exact (mapTxq_false _).symm
  | cons v rest ih =>
    rw [List.foldl_cons, ih, txqVifStop_txq, mapTxq_mapTxq fun x => x.stop_stop reason]
    rfl

theorem foldl_txqVifStart (vifs : List V) (reason : Finset StopReason) :
    vifs.foldl (fun s v => s.txqVifStart v reason) s =
      s.mapTxq (fun q => vifs.any fun v => s.started v q) (Txq.start reason) := by
  induction vifs generalizing s with
  | nil => exact (mapTxq_false _).symm
  | cons v rest ih =>
    rw [List.foldl_cons, ih, txqVifStart_txq, mapTxq_mapTxq fun x => x.start_start reason]
    rfl

end GateHw

end W2l.Gate
