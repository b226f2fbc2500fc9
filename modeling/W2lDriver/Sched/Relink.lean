/-
**The functions that link, unlink, fill and empty queues in one go.**

`aml_tx_cfm_task`, `aml_txdatacfm`, `aml_tx_retry`, `aml_txq_credit_update`, `aml_ps_bh_enable`,
`aml_ps_bh_traffic_req`, `aml_txq_drop_old_traffic`.

* `CfmKeeps`, `UpdateKeeps`, `ReqKeeps` — when a call of them keeps the queues fit.
* `LinkInv.txCfm`, `LinkInv.txqCreditUpdate`, `LinkInv.psBhEnable`, `LinkInv.psBhTrafficReq`,
  `LinkInv.txqDropOldTraffic` — it does then.
-/

import W2lDriver.Sched.Links

namespace W2l.Sched

open AmlHw (modTxq_self spOffer txDrain)


namespace AmlHw

variable (hw : AmlHw)

/-! ### When a function keeps it -/

def confirmedCredits (credits : Int) : Int := if hw.busType = .pcie then credits else 1

/-- A queue that goes on with a service period has a buffer, or it is full. -/
def SpContinues (t : TxqId) (credits : Int) : Prop :=
  (hw.txq t).pushLimit ≠ 0 → (hw.txq t).skList = [] → if hw.confirmedCredits credits = 0 then .full ∈ (hw.txq t).stop
    else s8 ((hw.txq t).credits + hw.confirmedCredits credits) ≤ 0

/-- A retry finds room in the `s8`, and a buffer that is done no service period without another one. -/
def CfmKeeps (hostid : BitVec 32) (credits : Int) (swRetry : Bool) : Prop :=
  let skb := (hw.env.lookup hostid).2
  let t := (hw.swTxhdr skb).txq
  skb ≠ 0 → (hw.txq t).active = true →
    if (hw.swTxhdr skb).mgmt = false ∧ swRetry = true then (hw.txq t).credits ≠ 127 else hw.SpContinues t credits

/-- The retry that is dropped is not the only buffer of a queue that is linked then. -/
def UpdateKeeps (t : TxqId) (update : Int) : Prop :=
  update < nxTxqInitialCredits → (hw.txq t).nbRetry = 1 → (hw.txq t).skList.length = 1 →
    ¬((hw.txq t).active = true ∧ LeavesCredits hw t update ∧
      ((hw.txq t).inHwqList = true ∨ (hw.txq t).stop = {.full}))

/-- No queue that is given a part of the request has no credits. -/
def DispatchKeeps (i : StaId) (psId : PsId) : List TxqId → Nat → AmlHw → Prop
  | [], _, _ => True
  | t :: rest, pktReq, hw =>
    let txqLen := spOffer (hw.txq t)
    if (hw.txq t).psId ≠ psId ∨ txqLen = 0 then DispatchKeeps i psId rest pktReq hw
    else 0 < (hw.txq t).credits ∧
      (txqLen < pktReq → DispatchKeeps i psId rest (pktReq - txqLen) (hw.grantSp i psId t txqLen))

/-- A service period begins with buffers and credits. -/
def ReqKeeps (i : StaId) (pktReq : Nat) (psId : PsId) : Prop :=
  let ready := (hw.sta i).pktReady psId
  (hw.sta i).psActive = true → ¬(pktReq = 255 ∧ psId = .uapsd) →
    ¬((hw.sta i).spCnt psId ≠ 0 ∨ ready ≤ (hw.sta i).spCnt psId) →
      if isMulticastSta i then 0 < (hw.txq (txqStaIdx i 0)).credits → (hw.txq (txqStaIdx i 0)).skList ≠ []
      else DispatchKeeps i psId (staTxqsPrio i) (if pktReq = 0 ∨ ready < pktReq then ready else pktReq) hw

instance (t : TxqId) (credits : Int) : Decidable (hw.SpContinues t credits) := by
  unfold SpContinues
  infer_instance

instance (hostid : BitVec 32) (credits : Int) (swRetry : Bool) : Decidable (hw.CfmKeeps hostid credits swRetry) := by
  unfold CfmKeeps
  infer_instance

instance (t : TxqId) (update : Int) : Decidable (LeavesCredits hw t update) := by
  unfold LeavesCredits
  infer_instance

instance (t : TxqId) (update : Int) : Decidable (hw.UpdateKeeps t update) := by
  unfold UpdateKeeps
  infer_instance

instance decidableDispatchKeeps (i : StaId) (psId : PsId) : (ts : List TxqId) → (pktReq : Nat) → (hw : AmlHw) →
    Decidable (DispatchKeeps i psId ts pktReq hw)
  | [], _, _ => .isTrue trivial
  | t :: rest, pktReq, hw =>
    let _ := decidableDispatchKeeps i psId rest pktReq hw
    let _ := decidableDispatchKeeps i psId rest (pktReq - spOffer (hw.txq t))
      (hw.grantSp i psId t (spOffer (hw.txq t)))
    inferInstanceAs (Decidable (if (hw.txq t).psId ≠ psId ∨ spOffer (hw.txq t) = 0 then
        DispatchKeeps i psId rest pktReq hw
      else 0 < (hw.txq t).credits ∧ (spOffer (hw.txq t) < pktReq → DispatchKeeps i psId rest
        (pktReq - spOffer (hw.txq t)) (hw.grantSp i psId t (spOffer (hw.txq t))))))

instance (i : StaId) (pktReq : Nat) (psId : PsId) : Decidable (hw.ReqKeeps i pktReq psId) := by
  unfold ReqKeeps
  infer_instance

end AmlHw

namespace LinkInv

variable {hw hw' : AmlHw} {t : TxqId}

/-! ### Confirmations -/

theorem txqConfirmAny (inv : LinkInv hw) (t : TxqId) (q : HwqId) : LinkInv (hw.txqConfirmAny t q) := by
  have inv₁ : LinkInv (hw.modTxq t fun x => { x with pktPushed := x.pktPushed - 1 }) := by
    have fit := inv.fit t
    refine inv.moves (.modTxq hw t rfl rfl) ?_
    rw [modTxq_self]
    exact ⟨fit.ready, fit.awake, fit.empty, fit.full, fit.retries, fit.range, (Nat.sub_le _ 1).trans_lt fit.pushed⟩
  exact inv₁.neutral (.modHwq _ t q (.refl _)) rfl

theorem txRetry (inv : LinkInv hw) (skb : Skb) (active : (hw.txq (hw.swTxhdr skb).txq).active = true)
    (room : (hw.txq (hw.swTxhdr skb).txq).credits ≠ 127) : LinkInv (hw.txRetry skb) := by
  unfold AmlHw.txRetry
  generalize (hw.swTxhdr skb).txq = t at active room
  have fit := inv.fit t
  have more : s8 ((hw.txq t).credits + 1) = (hw.txq t).credits + 1 := by
    obtain ⟨low, high⟩ := fit.range
    exact s8_eq (by omega) (by omega)
  have given : (hw.modTxq t fun x => { x with credits := s8 (x.credits + 1) }).txq t =
      { hw.txq t with credits := (hw.txq t).credits + 1 } := by
    rw [modTxq_self, more]
  have inv₁ : LinkInv (hw.modTxq t fun x => { x with credits := s8 (x.credits + 1) }) := by
    refine inv.moves (.modTxq hw t rfl rfl) ?_
    rw [given]
    refine ⟨fun linked => ?_, fit.awake, fit.empty, fun on none => fit.full on ?_, fit.retries, ?_, fit.pushed⟩
    · obtain ⟨on, some, credits⟩ := fit.ready linked
      exact ⟨on, some, Int.lt_add_one_of_le credits.le⟩
    · exact (Int.le_add_one (le_refl _)).trans none
    · obtain ⟨low, high⟩ := fit.range
      show -128 ≤ (hw.txq t).credits + 1 ∧ (hw.txq t).credits + 1 < 128
      omega
  have active₁ : ((hw.modTxq t fun x => { x with credits := s8 (x.credits + 1) }).txq t).active = true := by
    rw [given]
    exact active
  dsimp only
  split
  case isTrue some =>
    refine (inv₁.txqStart t fun _ _ _ => some).txqQueueSkb ?_ skb true none
    rw [txqStart_txq _ t active₁]
    unfold Txq.started
    split <;> exact active₁
  case isFalse => exact inv₁.txqQueueSkb active₁ skb true none

theorem written_txq (hw : AmlHw) (t : TxqId) (active : (hw.txq t).active = true) (f : Txq → Int) :
    let hw₁ := hw.modTxq t fun x => { x with credits := f x }
    (if (hw₁.txq t).credits ≤ 0 then hw₁.txqStop t {.full} else hw₁.txqStart t {.full}).txq t =
      (hw.txq t).credited (f (hw.txq t)) := by
  intro hw₁
  have written : hw₁.txq t = { hw.txq t with credits := f (hw.txq t) } := modTxq_self hw t _
  have active₁ : (hw₁.txq t).active = true := by
    rw [written]
    exact active
  unfold Txq.credited
  rw [apply_ite (fun hw : AmlHw => hw.txq t), txqStop_txq _ t active₁, txqStart_txq _ t active₁, written]

theorem written (inv : LinkInv hw) (active : (hw.txq t).active = true) {f : Txq → Int}
    (range : -128 ≤ f (hw.txq t) ∧ f (hw.txq t) < 128) :
    LinkInv (if ((hw.modTxq t fun x => { x with credits := f x }).txq t).credits ≤ 0 then
      (hw.modTxq t fun x => { x with credits := f x }).txqStop t {.full}
    else (hw.modTxq t fun x => { x with credits := f x }).txqStart t {.full}) := by
  have first : Moves t hw (hw.modTxq t fun x => { x with credits := f x }) := .modTxq hw t rfl rfl
  refine inv.moves (.ite (first.trans (.txqStop _ t _)) (first.trans (.txqStart _ t _))) ?_
  rw [written_txq hw t active f]
  exact (inv.fit t).credited active range

theorem credited_kept (x : Txq) (credits : Int) : (x.credited credits).active = x.active ∧
    (x.credited credits).skList = x.skList ∧ (x.credited credits).pushLimit = x.pushLimit ∧
    (credits ≤ 0 → .full ∈ (x.credited credits).stop) := by
  unfold Txq.credited
  split
  case isTrue =>
    exact ⟨rfl, rfl, rfl, fun _ => Finset.mem_union_right _ (Finset.mem_singleton_self _)⟩
  case isFalse some =>
    unfold Txq.started
    split
    · exact ⟨rfl, rfl, rfl, fun none => absurd none some⟩
    · exact ⟨rfl, rfl, rfl, fun none => absurd none some⟩

theorem continueSp (inv : LinkInv hw) (active : (hw.txq t).active = true)
    (some : (hw.txq t).pushLimit ≠ 0 → (hw.txq t).skList = [] → .full ∈ (hw.txq t).stop) :
    LinkInv (if (hw.txq t).pushLimit ≠ 0 ∧ (hw.txq t).isFull = false then hw.txqAddToHwList t else hw) := by
  split
  case isFalse => exact inv
  case isTrue goesOn =>
    obtain ⟨limit, notFull⟩ := goesOn
    have notFull : StopReason.full ∉ (hw.txq t).stop := of_decide_eq_false notFull
    refine inv.moves (.txqAddToHwList hw t) ?_
    rw [txqAddToHwList_txq]
    refine (inv.fit t).linked (fun none => notFull (some limit none)) active (not_le.mp fun none => ?_)
    exact notFull ((inv.fit t).full active none)

theorem txqConfirmCredits (inv : LinkInv hw) (active : (hw.txq t).active = true) {credits : Int}
    (keeps : hw.SpContinues t credits) : LinkInv (hw.txqConfirmCredits t credits) := by
  unfold AmlHw.txqConfirmCredits
  unfold AmlHw.SpContinues AmlHw.confirmedCredits at keeps
  generalize (if hw.busType = .pcie then credits else 1) = given at keeps
  dsimp only
  by_cases none : given = 0
  · rw [if_pos none] at keeps ⊢
    exact inv.continueSp active keeps
  · rw [if_neg none] at keeps ⊢
    have value := written_txq hw t active fun x => s8 (x.credits + given)
    obtain ⟨on, skList, limit, full⟩ := credited_kept (hw.txq t) (s8 ((hw.txq t).credits + given))
    refine (inv.written active (f := fun x => s8 (x.credits + given)) (s8_range _)).continueSp ?_ ?_
    · rw [value, on]
      exact active
    · rw [value, skList, limit]
      exact fun limit none => full (keeps limit none)

theorem txCfm (inv : LinkInv hw) {hostid : BitVec 32} {credits : Int} {swRetry : Bool}
    (keeps : hw.CfmKeeps hostid credits swRetry) : LinkInv (hw.txCfm hostid credits swRetry) := by
  unfold AmlHw.txCfm
  unfold AmlHw.CfmKeeps at keeps
  cases found : hw.env.lookup hostid with
  | mk env skb =>
  rw [found] at keeps
  dsimp only at keeps ⊢
  have inv₁ : LinkInv ({ hw with env := env } : AmlHw) := inv.same rfl fun _ => .refl _
  split
  case isTrue => exact inv₁
  case isFalse some =>
    have keeps := keeps some
    have inv₂ := inv₁.txqConfirmAny (hw.swTxhdr skb).txq (hw.swTxhdr skb).hwQueue
    have value : (({ hw with env := env } : AmlHw).txqConfirmAny (hw.swTxhdr skb).txq (hw.swTxhdr skb).hwQueue).txq
        (hw.swTxhdr skb).txq = { hw.txq (hw.swTxhdr skb).txq with
          pktPushed := (hw.txq (hw.swTxhdr skb).txq).pktPushed - 1 } :=
      modTxq_self ({ hw with env := env } : AmlHw) (hw.swTxhdr skb).txq fun x =>
        { x with pktPushed := x.pktPushed - 1 }
    have on : ((({ hw with env := env } : AmlHw).txqConfirmAny (hw.swTxhdr skb).txq (hw.swTxhdr skb).hwQueue).txq
        (hw.swTxhdr skb).txq).active = (hw.txq (hw.swTxhdr skb).txq).active := by
      rw [value]
    split
    case isTrue retry =>
      obtain ⟨mgmt, active, retry⟩ := retry
      rw [on] at active
      have room := keeps active
      rw [if_pos ⟨mgmt, retry⟩] at room
      refine inv₂.txRetry skb (on.trans active) ?_
      show ((({ hw with env := env } : AmlHw).txqConfirmAny (hw.swTxhdr skb).txq (hw.swTxhdr skb).hwQueue).txq
        (hw.swTxhdr skb).txq).credits ≠ 127
      rw [value]
      exact room
    case isFalse notRetry =>
      split
      case isFalse => exact inv₂
      case isTrue active =>
        have active' := active
        rw [on] at active'
        have goesOn := keeps active'
        rw [if_neg fun both => notRetry ⟨both.1, active, both.2⟩] at goesOn
        refine inv₂.txqConfirmCredits active ?_
        unfold AmlHw.SpContinues
        rw [value]
        exact goesOn

theorem txDrain (n : Nat) (inv : LinkInv hw) : LinkInv (txDrain n hw) := by
  induction n generalizing hw with
  | zero => exact inv
  | succ n ih =>
    unfold txDrain
    rcases hw.env.ipcHostTxFlush with ⟨env, skb⟩
    have inv₁ : LinkInv ({ hw with env := env } : AmlHw) := inv.same rfl fun _ => .refl _
    dsimp only
    split
    · exact inv₁
    · exact ih (inv₁.txqConfirmAny _ _)

/-! ### Credits of a queue -/

theorem clampedUpdate_small {update : Int} (bounded : Bounded hw t update)
    (small : hw.clampedUpdate t update < nxTxqInitialCredits) : update < nxTxqInitialCredits := by
  by_contra large
  unfold AmlHw.clampedUpdate at small
  split at small
  case isFalse => exact large small
  case isTrue =>
    obtain ⟨low, high⟩ := nxTxdescCnt_range hw.busType (hw.txq t).hwq
    rw [← bounded.size] at low high
    have initial : nxTxqInitialCredits = 4 := rfl
    rw [initial, s8_eq (by omega) (by omega)] at small
    omega

section

variable (inv : LinkInv hw)

include inv

theorem txqCreditUpdate (ledger : LedgerInv hw) {update : Int}
    (s8 : -128 ≤ update ∧ update < 128) (keeps : hw.UpdateKeeps t update) :
    LinkInv (hw.txqCreditUpdate t update) := by
  have value := credited_txq hw t update
  obtain ⟨skList, nbRetry, -⟩ := Sched.credited_kept hw t update
  have range : -128 ≤ hw.newCredits t update ∧ hw.newCredits t update < 128 := by
    unfold AmlHw.newCredits AmlHw.updatedCredits
    split
    · exact s8_range _
    · exact s8_range _
  have inv₁ : LinkInv (hw.credited t update) := by
    unfold AmlHw.credited
    split
    case isTrue active => exact inv.written active (f := fun _ => hw.newCredits t update) range
    case isFalse => exact inv
  rw [txqCreditUpdate_eq]
  split
  case isFalse => exact inv₁
  case isTrue small =>
    rw [purgeRetries_eq _ 0 _ (inv₁.fit t).retries (Nat.sub_le _ _)]
    refine inv₁.moves (.modTxq _ t rfl rfl) ?_
    rw [modTxq_self]
    refine (inv₁.fit t).purged fun linked => ?_
    have few := (inv.fit t).retries
    have some := List.length_pos_iff.mpr ((inv₁.fit t).ready linked).2.1
    rw [skList] at some
    rw [nbRetry, skList]
    by_contra all
    have one : (hw.txq t).nbRetry = 1 ∧ (hw.txq t).skList.length = 1 := by omega
    have bounded : Bounded hw t update := ⟨(inv.fit t).range, s8, (inv.fit t).pushed, ledger.size _⟩
    have small := clampedUpdate_small bounded small
    refine keeps small one.1 one.2 ?_
    by_cases active : (hw.txq t).active = true
    · rw [value, if_pos active, Txq.credited_linked, newCredits_pos_iff bounded small] at linked
      exact ⟨active, linked.1, linked.2.imp_right And.left⟩
    · rw [(inv.fit t).empty (Bool.eq_false_iff.mpr active)] at some
      exact absurd some (Nat.lt_irrefl 0)

/-! ### Power save -/

theorem indicateReady (i : StaId) (available : Bool) : LinkInv (hw.indicateReady i available) := by
  have told (hw : AmlHw) (inv : LinkInv hw) (psId : PsId) : LinkInv (hw.setTrafficStatus i available psId) :=
    inv.same rfl fun _ => .refl _
  unfold AmlHw.indicateReady
  dsimp only
  split
  · split
    · exact told _ (told _ inv _) _
    · exact told _ inv _
  · split
    · exact told _ inv _
    · exact inv

theorem clearPushLimits (ts : List TxqId) :
    LinkInv (ts.foldl (fun hw t => hw.modTxq t fun x => { x with pushLimit := 0 }) hw) := by
  induction ts generalizing hw with
  | nil => exact inv
  | cons t rest ih => exact ih (inv.modTxq_core t rfl rfl)

variable {i : StaId}

theorem multicastHwq (ledger : LedgerInv hw) (inTable : i < staTableSize) :
    LinkInv (if isMulticastSta i then
      hw.modTxq (txqStaIdx i 0) fun x => { x with hwq := .be } else hw) := by
  have after := ledger.multicastHwq inTable
  split
  case isFalse => exact inv
  case isTrue multicast =>
    rw [if_pos multicast] at after
    have own := after.ownHwq (txqStaIdx i 0)
    rw [modTxq_self] at own
    refine inv.modTxq_core _ rfl ?_
    rw [ledger.ownHwq, ← own]

theorem psBhEnable (ledger : LedgerInv hw) (inTable : i < staTableSize)
    (enable : Bool) : LinkInv (hw.psBhEnable i enable) := by
  unfold AmlHw.psBhEnable
  split
  case isTrue =>
    refine LinkInv.indicateReady (LinkInv.multicastHwq ?_ ?_ inTable) i true
    · exact LinkInv.modSta (LinkInv.txqStaStop (inv.modSta i _) i) i _
    · refine LedgerInv.scheduled ?_ (.modSta _ i _)
      exact (ledger.scheduled (.modSta hw i _)).scheduled (.txqStaStop _ i {.staPs})
  case isFalse =>
    refine LinkInv.indicateReady (LinkInv.txqStaStart (LinkInv.multicastHwq ?_ ?_ inTable) i) i false
    · exact LinkInv.clearPushLimits (inv.modSta i _) _
    · exact (ledger.scheduled (.modSta hw i _)).scheduled (.clearPushLimits _ i)

theorem grantSp {psId : PsId} {n : Nat} (some : (hw.txq t).skList ≠ [])
    (credits : 0 < (hw.txq t).credits) : LinkInv (hw.grantSp i psId t n) := by
  have inv₁ : LinkInv ((hw.modTxq t fun x => { x with pushLimit := n % 2 ^ 8 }).modSpCnt i psId fun m =>
      (m + n) % 2 ^ 16) := LinkInv.modSta (inv.modTxq_core t rfl rfl) i _
  have value : ((hw.modTxq t fun x => { x with pushLimit := n % 2 ^ 8 }).modSpCnt i psId fun m =>
      (m + n) % 2 ^ 16).txq t = { hw.txq t with pushLimit := n % 2 ^ 8 } :=
    modTxq_self hw t fun x => { x with pushLimit := n % 2 ^ 8 }
  have active : (hw.txq t).active = true := by
    by_contra off
    exact some ((inv.fit t).empty (Bool.eq_false_iff.mpr off))
  unfold AmlHw.grantSp
  refine inv₁.moves (.txqAddToHwList _ t) ?_
  rw [txqAddToHwList_txq]
  refine (inv₁.fit t).linked ?_ ?_ ?_
  · rw [value]
    exact some
  · rw [value]
    exact active
  · rw [value]
    exact credits

theorem dispatchSp {psId : PsId} {ts : List TxqId} {pktReq : Nat}
    (keeps : AmlHw.DispatchKeeps i psId ts pktReq hw) : LinkInv (AmlHw.dispatchSp i psId ts pktReq hw) := by
  induction ts generalizing hw pktReq with
  | nil => exact inv
  | cons t rest ih =>
    unfold AmlHw.DispatchKeeps at keeps
    unfold AmlHw.dispatchSp
    dsimp only at keeps ⊢
    by_cases skip : (hw.txq t).psId ≠ psId ∨ spOffer (hw.txq t) = 0
    · rw [if_pos skip] at keeps ⊢
      exact ih inv keeps
    · rw [if_neg skip] at keeps ⊢
      obtain ⟨credits, later⟩ := keeps
      have some : (hw.txq t).skList ≠ [] := fun none => skip (.inr (by
        unfold spOffer
        rw [none]
        exact if_neg (not_lt.mpr credits.le)))
      split
      case isTrue more => exact ih (inv.grantSp some credits) (later more)
      case isFalse => exact inv.grantSp some credits

theorem psBhTrafficReq {pktReq : Nat} {psId : PsId}
    (keeps : hw.ReqKeeps i pktReq psId) : LinkInv (hw.psBhTrafficReq i pktReq psId) := by
  unfold AmlHw.psBhTrafficReq
  split
  case isTrue => exact inv
  case isFalse saves =>
    split
    case isTrue => exact LinkInv.clearPushLimits (inv.modSta i _) _
    case isFalse whole =>
      dsimp only
      split
      case isTrue => exact inv
      case isFalse free =>
        have keeps := keeps (Bool.eq_true_of_not_eq_false saves) whole free
        split
        case isTrue multicast =>
          rw [if_pos multicast] at keeps
          split
          case isTrue => exact inv
          case isFalse some => exact inv.grantSp (keeps (not_le.mp some)) (not_le.mp some)
        case isFalse one =>
          rw [if_neg one] at keeps
          exact inv.dispatchSp keeps

end

/-! ### Old buffers are dropped -/

/-- What the walk over the old buffers leaves of a queue. -/
structure Thinned (x y : Txq) : Prop where
  active : y.active = x.active
  inHwqList : y.inHwqList = x.inHwqList
  stop : y.stop = x.stop
  credits : y.credits = x.credits
  nbRetry : y.nbRetry = x.nbRetry
  pktPushed : y.pktPushed = x.pktPushed
  skList : y.skList.Sublist x.skList

theorem psDropped_core (hw : AmlHw) (t : TxqId) : ((hw.psDropped t).txq t).core = (hw.txq t).core := by
  have limited (hw₁ : AmlHw) (same : hw₁.txq = hw.txq) : ((if (hw₁.txq t).pushLimit ≠ 0 then
      hw₁.modTxq t fun x => { x with pushLimit := u8Dec x.pushLimit } else hw₁).txq t).core = (hw.txq t).core := by
    rw [← same]
    split
    · rw [modTxq_self]
      rfl
    · rfl
  unfold AmlHw.psDropped
  split
  case h_1 => rfl
  case h_2 i _ =>
    split
    case isFalse => rfl
    case isTrue =>
      extract_lets psId hw₁ hw₂
      have same : hw₂.txq = hw.txq := by
        show (if (hw₁.sta i).pktReady psId = 0 then hw₁.setTrafficStatus i false psId else hw₁).txq = _
        split <;> rfl
      split
      case isTrue => exact limited (hw₂.modSpCnt i psId u16Dec) same
      case isFalse => rw [same]

theorem dropped_txq (hw : AmlHw) (t : TxqId) (skb : Skb) :
    Thinned (hw.txq t) (((hw.txqDropSkb t skb false).psDropped t).txq t) ∧
      (((hw.txqDropSkb t skb false).psDropped t).txq t).skList = (hw.txq t).skList.erase skb := by
  have core := psDropped_core (hw.txqDropSkb t skb false) t
  rw [show (hw.txqDropSkb t skb false).txq t = (hw.txq t).drop skb false from modTxq_self hw t _] at core
  obtain ⟨active, rest⟩ := Prod.mk.inj core
  obtain ⟨inHwqList, rest⟩ := Prod.mk.inj rest
  obtain ⟨stop, rest⟩ := Prod.mk.inj rest
  obtain ⟨skList, rest⟩ := Prod.mk.inj rest
  obtain ⟨credits, rest⟩ := Prod.mk.inj rest
  obtain ⟨nbRetry, pktPushed⟩ := Prod.mk.inj rest
  exact ⟨⟨active, inHwqList, stop, credits, nbRetry, pktPushed, skList ▸ List.erase_sublist⟩, skList⟩

theorem dropOld (old : Skb → Bool) (skbs : List Skb) (hw : AmlHw)
    (few : (hw.txq t).nbRetry + skbs.length ≤ (hw.txq t).skList.length) :
    Moves t hw (AmlHw.dropOld t old skbs hw) ∧ Thinned (hw.txq t) ((AmlHw.dropOld t old skbs hw).txq t) ∧
      ((AmlHw.dropOld t old skbs hw).txq t).nbRetry ≤ ((AmlHw.dropOld t old skbs hw).txq t).skList.length := by
  induction skbs generalizing hw with
  | nil => exact ⟨.refl hw, ⟨rfl, rfl, rfl, rfl, rfl, rfl, .refl _⟩, few⟩
  | cons skb rest ih =>
    unfold AmlHw.dropOld
    split
    case isFalse => exact ⟨.refl hw, ⟨rfl, rfl, rfl, rfl, rfl, rfl, .refl _⟩, (Nat.le_add_right _ _).trans few⟩
    case isTrue =>
      obtain ⟨thinned, skList⟩ := dropped_txq hw t skb
      have length := List.le_length_erase (a := skb) (l := (hw.txq t).skList)
      obtain ⟨moved, later, retries⟩ := ih ((hw.txqDropSkb t skb false).psDropped t) (by
        rw [thinned.nbRetry, skList]
        rw [List.length_cons] at few
        omega)
      refine ⟨((Moves.txqDropSkb hw t skb false).trans (.psDropped _ t)).trans moved, ?_, retries⟩
      exact ⟨later.active.trans thinned.active, later.inHwqList.trans thinned.inHwqList,
        later.stop.trans thinned.stop, later.credits.trans thinned.credits, later.nbRetry.trans thinned.nbRetry,
        later.pktPushed.trans thinned.pktPushed, later.skList.trans thinned.skList⟩

theorem txqDropOldTraffic (inv : LinkInv hw) (t : TxqId) (old : Skb → Bool) :
    LinkInv (hw.txqDropOldTraffic t old) := by
  have fit := inv.fit t
  obtain ⟨moved, thinned, retries⟩ := dropOld (t := t) old ((hw.txq t).skList.drop (hw.txq t).nbRetry) hw (by
    rw [List.length_drop]
    have few := fit.retries
    omega)
  unfold AmlHw.txqDropOldTraffic
  split
  case isFalse => exact inv
  case isTrue active =>
    generalize AmlHw.dropOld t old ((hw.txq t).skList.drop (hw.txq t).nbRetry) hw = hw₁ at moved thinned retries
    dsimp only
    have ends : LinkInv (if (hw₁.txq t).skList = [] then
        (hw₁.txqDelFromHwList t).modTxq t fun x => { x with pktSent := 0 } else hw₁) := by
      have full (on : (hw₁.txq t).active = true) (none : (hw₁.txq t).credits ≤ 0) :
          StopReason.full ∈ (hw₁.txq t).stop := by
        rw [thinned.stop]
        rw [thinned.credits] at none
        exact fit.full active none
      have off (off : (hw₁.txq t).active = false) : (hw₁.txq t).skList = [] :=
        nomatch (thinned.active.trans active).symm.trans off
      have range : -128 ≤ (hw₁.txq t).credits ∧ (hw₁.txq t).credits < 128 := by
        rw [thinned.credits]
        exact fit.range
      have pushed : (hw₁.txq t).pktPushed < 256 := thinned.pktPushed.trans_lt fit.pushed
      split
      case isTrue none =>
        refine inv.moves (moved.trans ((Moves.txqDelFromHwList _ t).trans (.modTxq _ t rfl rfl))) ?_
        rw [modTxq_self, txqDelFromHwList_txq]
        exact ⟨fun linked => (nomatch linked), fun _ _ some => absurd none some, off, full, retries, range, pushed⟩
      case isFalse some =>
        refine inv.moves moved ⟨fun linked => ?_, fun _ stop _ => ?_, off, full, retries, range, pushed⟩
        · rw [thinned.inHwqList] at linked
          rw [thinned.active, thinned.credits]
          exact ⟨active, some, (fit.ready linked).2.2⟩
        · rw [thinned.inHwqList]
          refine fit.awake active (thinned.stop.symm.trans stop) fun none => some ?_
          exact List.sublist_nil.mp (none ▸ thinned.skList)
    revert ends
    generalize (if (hw₁.txq t).skList = [] then
      (hw₁.txqDelFromHwList t).modTxq t fun x => { x with pktSent := 0 } else hw₁) = hw₂
    intro ends
    split
    · exact ends.modTxq_core t rfl rfl
    · exact ends

end LinkInv

end W2l.Sched
