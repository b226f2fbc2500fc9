/-
**`aml_txq_credit_update`: the credits of a queue, and the retries that are dropped with them.**

The firmware asks for more or fewer credits with `ME_TX_CREDITS_UPDATE_IND`. Where the sum does not fit, the
credits are set anew from the size of the hardware queue; when a BA was deleted, the retries are dropped in a
loop whose bound shrinks with each.

* `credited`, `credited_txq` — the first half of the function, and what it leaves of the queue.
* `Updated`, `UpdateFits`, `credit_update_fits` — **when the credits follow the update**.
* `Purged`, `PurgeSafe`, `credit_update_purges` — **when exactly the retries go and nothing is left behind**.
-/

import W2lDriver.Sched.Machine

namespace W2l.Sched

open Cmd (BusType)
open AmlHw (modTxq_self purgeRetries txqStop)

/-! ### Starting and stopping for credits -/

namespace Txq

/-- What `aml_txq_stop` leaves of an active queue. -/
def stopped (x : Txq) (reason : Finset StopReason) : Txq :=
  { x with stop := x.stop ∪ reason, inHwqList := false }

/-- What `aml_txq_start` leaves of an active queue. -/
def started (x : Txq) (reason : Finset StopReason) : Txq :=
  if x.stop ∩ reason ≠ ∅ then
    { x with
      stop := x.stop \ reason
      inHwqList := x.inHwqList || (decide (x.stop \ reason = ∅) && x.skbReady) }
  else x

/-- A queue whose credits are written, stopped or started after them. -/
def credited (x : Txq) (credits : Int) : Txq :=
  if credits ≤ 0 then stopped { x with credits := credits } {StopReason.full}
  else started { x with credits := credits } {StopReason.full}

/-- The first `k` buffers, all retries, are dropped. -/
def purged (x : Txq) (k : ℕ) : Txq :=
  { x with
    skList := x.skList.drop k
    nbRetry := x.nbRetry - k
    lastRetrySkb := if k ≠ 0 ∧ x.nbRetry - k = 0 then none else x.lastRetrySkb }

end Txq

section Queue

variable (hw : AmlHw) (t : TxqId)

theorem txqAddToHwList_txq : (hw.txqAddToHwList t).txq t = { hw.txq t with inHwqList := true } := by
  unfold AmlHw.txqAddToHwList
  split
  case isTrue linked =>
    rw [← linked]
  case isFalse => rw [AmlHw.modHwq_txq, modTxq_self]

theorem txqDelFromHwList_txq : (hw.txqDelFromHwList t).txq t = { hw.txq t with inHwqList := false } := by
  unfold AmlHw.txqDelFromHwList
  split
  case isTrue => exact modTxq_self hw t fun x => { x with inHwqList := false }
  case isFalse unlinked =>
    rw [← Bool.eq_false_iff.mpr unlinked]

theorem txqStop_txq (active : (hw.txq t).active = true) (reason : Finset StopReason) :
    (hw.txqStop t reason).txq t = (hw.txq t).stopped reason := by
  unfold txqStop
  rw [if_pos active, txqDelFromHwList_txq, modTxq_self]
  rfl

theorem txqStart_txq (active : (hw.txq t).active = true) (reason : Finset StopReason) :
    (hw.txqStart t reason).txq t = (hw.txq t).started reason := by
  unfold AmlHw.txqStart Txq.started
  by_cases stops : (hw.txq t).stop ∩ reason ≠ ∅
  · rw [if_pos ⟨active, stops⟩, if_pos stops]
    dsimp only
    have stopEq : ((hw.modTxq t fun x => { x with stop := x.stop \ reason }).txq t) =
        { hw.txq t with stop := (hw.txq t).stop \ reason } := modTxq_self hw t _
    rw [stopEq]
    by_cases ready : (hw.txq t).stop \ reason = ∅ ∧ (hw.txq t).skbReady = true
    · rw [if_pos ⟨by rw [Txq.isStopped]; simp [ready.1], ready.2⟩, txqAddToHwList_txq, stopEq, ready.1,
        ready.2, decide_eq_true rfl]
      simp
    · rw [if_neg fun both => ready ⟨by simpa [Txq.isStopped] using both.1, both.2⟩, stopEq]
      have no : (decide ((hw.txq t).stop \ reason = ∅) && (hw.txq t).skbReady) = false := by
        by_contra both
        obtain ⟨empty, some_⟩ := (Bool.and_eq_true _ _).mp (Bool.eq_true_of_not_eq_false both)
        exact ready ⟨of_decide_eq_true empty, some_⟩
      rw [no, Bool.or_false]
  · rw [if_neg fun both => stops both.2, if_neg stops]

theorem txqAddToHwList_sta : (hw.txqAddToHwList t).sta = hw.sta := by
  unfold AmlHw.txqAddToHwList
  split <;> rfl

theorem txqDelFromHwList_sta : (hw.txqDelFromHwList t).sta = hw.sta := by
  unfold AmlHw.txqDelFromHwList
  split <;> rfl

theorem txqStop_sta (reason : Finset StopReason) : (hw.txqStop t reason).sta = hw.sta := by
  unfold txqStop
  split
  · rw [txqDelFromHwList_sta]
    rfl
  · rfl

theorem txqStart_sta (reason : Finset StopReason) : (hw.txqStart t reason).sta = hw.sta := by
  unfold AmlHw.txqStart
  split
  · dsimp only
    split
    · rw [txqAddToHwList_sta]
      rfl
    · rfl
  · rfl

end Queue

/-! ### The first half -/

namespace AmlHw

variable (hw : AmlHw) (t : TxqId) (update : Int)

def clampedUpdate : Int :=
  if (hw.txq t).active = true ∧ hw.busType ≠ .pcie ∧ nxTxqInitialCredits < update then
    s8 ((hw.hwq (hw.txq t).hwq).size - nxTxqInitialCredits)
  else update

def newCredits : Int :=
  updatedCredits (hw.txq t) hw.busType (hw.hwq (hw.txq t).hwq).size (hw.clampedUpdate t update)

/-- `aml_txq_credit_update` up to the retries. -/
def credited : AmlHw :=
  if (hw.txq t).active then
    let hw := hw.modTxq t fun x => { x with credits := hw.newCredits t update }
    if (hw.txq t).credits ≤ 0 then hw.txqStop t {.full} else hw.txqStart t {.full}
  else hw

end AmlHw

section Half

variable (hw : AmlHw) (t : TxqId) (update : Int)

theorem txqCreditUpdate_eq : hw.txqCreditUpdate t update =
    if hw.clampedUpdate t update < nxTxqInitialCredits then
      purgeRetries t ((hw.credited t update).txq t).nbRetry 0 (hw.credited t update)
    else hw.credited t update := rfl

theorem credited_txq : (hw.credited t update).txq t =
    if (hw.txq t).active then (hw.txq t).credited (hw.newCredits t update) else hw.txq t := by
  unfold AmlHw.credited
  split
  case isTrue active =>
    dsimp only
    have written : (hw.modTxq t fun x => { x with credits := hw.newCredits t update }).txq t =
        { hw.txq t with credits := hw.newCredits t update } := modTxq_self hw t _
    unfold Txq.credited
    rw [written, apply_ite (fun hw : AmlHw => hw.txq t)]
    split
    · rw [txqStop_txq _ t (by rw [written]; exact active), written]
    · rw [txqStart_txq _ t (by rw [written]; exact active), written]
  case isFalse => rfl

theorem credited_sta : (hw.credited t update).sta = hw.sta := by
  unfold AmlHw.credited
  split
  · dsimp only
    split
    · rw [txqStop_sta]
      rfl
    · rw [txqStart_sta]
      rfl
  · rfl

end Half

/-! ### The retries -/

section Purge

variable {t : TxqId}

theorem modTxq_modTxq (hw : AmlHw) (f g : Txq → Txq) : (hw.modTxq t f).modTxq t g = hw.modTxq t fun x => g (f x) := by
  have twice : Function.update (hw.modTxq t f).txq t (g ((hw.modTxq t f).txq t)) =
      Function.update hw.txq t (g (f (hw.txq t))) := by
    rw [modTxq_self]
    exact Function.update_idem _ _ _
  exact congrArg (fun txq => { hw with txq := txq }) twice

theorem modTxq_id (hw : AmlHw) : (hw.modTxq t fun x => x) = hw :=
  congrArg (fun txq => { hw with txq := txq }) (Function.update_eq_self t hw.txq)

theorem modTxq_congr {hw : AmlHw} {f g : Txq → Txq} (same : f (hw.txq t) = g (hw.txq t)) :
    hw.modTxq t f = hw.modTxq t g := by
  unfold AmlHw.modTxq
  rw [same]

theorem Txq.purged_zero (x : Txq) : x.purged 0 = x := by
  unfold Txq.purged
  rw [if_neg fun both => both.1 rfl]
  rfl

theorem Txq.purged_drop {x : Txq} {skb : Skb} {rest : List Skb} (queue : x.skList = skb :: rest)
    (k : ℕ) : (x.drop skb true).purged k = x.purged (k + 1) := by
  have erased : (x.skList.erase skb).drop k = x.skList.drop (k + 1) := by
    rw [queue, List.erase_cons_head, List.drop_succ_cons]
  have fewer : x.nbRetry - 1 - k = x.nbRetry - (k + 1) := by omega
  have last : (if k ≠ 0 ∧ x.nbRetry - 1 - k = 0 then none
      else if x.nbRetry - 1 = 0 then none else x.lastRetrySkb) =
      if k + 1 ≠ 0 ∧ x.nbRetry - (k + 1) = 0 then none else x.lastRetrySkb := by
    rw [fewer]
    by_cases zero : k = 0
    · rw [if_neg fun both => both.1 zero, zero]
      exact if_congr ⟨fun gone => ⟨Nat.succ_ne_zero 0, gone⟩, And.right⟩ rfl rfl
    · by_cases gone : x.nbRetry - (k + 1) = 0
      · rw [if_pos ⟨zero, gone⟩, if_pos ⟨Nat.succ_ne_zero k, gone⟩]
      · rw [if_neg fun both => gone both.2, if_neg (by omega)]
        exact (if_neg fun both => gone both.2).symm
  show ({ x with
    skList := (x.skList.erase skb).drop k
    nbRetry := x.nbRetry - 1 - k
    lastRetrySkb := if k ≠ 0 ∧ x.nbRetry - 1 - k = 0 then none
      else if x.nbRetry - 1 = 0 then none else x.lastRetrySkb } : Txq) = _
  rw [erased, last, fewer]
  rfl

theorem purgeRetries_eq (fuel packet : ℕ) (hw : AmlHw)
    (few : (hw.txq t).nbRetry ≤ (hw.txq t).skList.length)
    (enough : (hw.txq t).nbRetry - packet ≤ fuel) :
    purgeRetries t fuel packet hw = hw.modTxq t fun x => x.purged ((x.nbRetry - packet + 1) / 2) := by
  induction fuel generalizing packet hw with
  | zero =>
    have none_ : ((hw.txq t).nbRetry - packet + 1) / 2 = 0 := by omega
    refine (modTxq_id hw).symm.trans (modTxq_congr ?_)
    rw [none_, Txq.purged_zero]
  | succ fuel ih =>
    unfold purgeRetries
    split
    case isTrue more =>
      split
      case h_1 empty =>
        rw [empty, List.length_nil] at few
        omega
      case h_2 skb rest queue =>
        have dropped : (hw.txqDropSkb t skb true).txq t = (hw.txq t).drop skb true :=
          modTxq_self hw t _
        have length : ((hw.txq t).drop skb true).skList.length = rest.length := by
          show ((hw.txq t).skList.erase skb).length = _
          rw [queue, List.erase_cons_head]
        have bound : ((hw.txq t).drop skb true).nbRetry = (hw.txq t).nbRetry - 1 := rfl
        rw [queue, List.length_cons] at few
        rw [ih (packet + 1) (hw.txqDropSkb t skb true) (by rw [dropped, length, bound]; omega)
          (by rw [dropped, bound]; omega)]
        refine (modTxq_modTxq hw _ _).trans (modTxq_congr ?_)
        show ((hw.txq t).drop skb true).purged ((((hw.txq t).drop skb true).nbRetry - (packet + 1) + 1) / 2) = _
        rw [Txq.purged_drop queue, bound]
        congr 1
        omega
    case isFalse done =>
      have none_ : ((hw.txq t).nbRetry - packet + 1) / 2 = 0 := by omega
      refine (modTxq_id hw).symm.trans (modTxq_congr ?_)
      rw [none_, Txq.purged_zero]

theorem purgeRetries_kept (fuel packet : ℕ) (hw : AmlHw) :
    ((purgeRetries t fuel packet hw).txq t).credits = (hw.txq t).credits ∧
      ((purgeRetries t fuel packet hw).txq t).stop = (hw.txq t).stop ∧
      ((purgeRetries t fuel packet hw).txq t).pktPushed = (hw.txq t).pktPushed := by
  induction fuel generalizing packet hw with
  | zero => exact ⟨rfl, rfl, rfl⟩
  | succ fuel ih =>
    unfold purgeRetries
    split
    case isTrue =>
      split
      case h_1 => exact ih (packet + 1) hw
      case h_2 skb rest queue =>
        have dropped : (hw.txqDropSkb t skb true).txq t = (hw.txq t).drop skb true :=
          modTxq_self hw t _
        obtain ⟨credits, stop, pushed⟩ := ih (packet + 1) (hw.txqDropSkb t skb true)
        rw [dropped] at credits stop pushed
        exact ⟨credits, stop, pushed⟩
    case isFalse => exact ⟨rfl, rfl, rfl⟩

end Purge

/-! ### When the credits follow the update -/

/-- The values of `struct aml_txq` and of the message as their types and `aml_hwq_init` bound them. -/
structure Bounded (hw : AmlHw) (t : TxqId) (update : Int) : Prop where
  credits : -128 ≤ (hw.txq t).credits ∧ (hw.txq t).credits < 128
  update : -128 ≤ update ∧ update < 128
  pushed : (hw.txq t).pktPushed < 256
  size : (hw.hwq (hw.txq t).hwq).size = nxTxdescCnt hw.busType (hw.txq t).hwq

/-- What `aml_txq_credit_update` should leave; `unclamped` is an update that is neither too large for
the bus nor for the hardware queue. -/
structure Updated (hw hw' : AmlHw) (t : TxqId) (update : Int) : Prop where
  fits : (hw'.txq t).credits + (hw'.txq t).pktPushed ≤ (hw.hwq (hw.txq t).hwq).size
  fewer : update < 0 → (hw'.txq t).credits ≤ (hw.txq t).credits
  more : 0 < update → (hw.txq t).credits ≤ (hw'.txq t).credits
  unclamped : (hw.busType = .pcie ∨ update ≤ nxTxqInitialCredits) →
    (hw.txq t).credits + (hw.txq t).pktPushed + update < (hw.hwq (hw.txq t).hwq).size →
    (hw'.txq t).credits = (hw.txq t).credits + update
  full : .full ∈ (hw'.txq t).stop ↔ (hw'.txq t).credits ≤ 0

/-- A positive update finds the queue within its size; on PCIe the sum fits an `s8`, on the other buses
credits are left or the sum exceeds the size. -/
def UpdateFits (hw : AmlHw) (t : TxqId) (update : Int) : Prop :=
  let size := (hw.hwq (hw.txq t).hwq).size
  let sum := (hw.txq t).credits + update
  (0 < update → (hw.txq t).credits + (hw.txq t).pktPushed ≤ size) ∧ if hw.busType = .pcie then -128 ≤ sum
    else update ≤ nxTxqInitialCredits → 0 < sum ∨ size ≤ sum + (hw.txq t).pktPushed

section Credits

variable {hw : AmlHw} {t : TxqId} {update : Int}

theorem nxTxdescCnt_range (bus : BusType) (q : HwqId) : 8 ≤ nxTxdescCnt bus q ∧ nxTxdescCnt bus q ≤ 124 := by
  cases bus <;> cases q <;> decide

theorem txqCreditUpdate_credits (active : (hw.txq t).active = true) :
    ((hw.txqCreditUpdate t update).txq t).credits = hw.newCredits t update ∧
      ((hw.txqCreditUpdate t update).txq t).pktPushed = (hw.txq t).pktPushed ∧
      (StopReason.full ∈ ((hw.txqCreditUpdate t update).txq t).stop ↔ hw.newCredits t update ≤ 0) := by
  have half := credited_txq hw t update
  rw [if_pos active] at half
  have first : ((hw.credited t update).txq t).credits = hw.newCredits t update ∧
      ((hw.credited t update).txq t).pktPushed = (hw.txq t).pktPushed ∧
      (StopReason.full ∈ ((hw.credited t update).txq t).stop ↔ hw.newCredits t update ≤ 0) := by
    rw [half]
    unfold Txq.credited
    split
    case isTrue none_ =>
      exact ⟨rfl, rfl, iff_of_true (Finset.mem_union_right _ (Finset.mem_singleton_self _)) none_⟩
    case isFalse some_ =>
      unfold Txq.started
      split
      case isTrue =>
        refine ⟨rfl, rfl, iff_of_false (fun member => ?_) some_⟩
        exact (Finset.mem_sdiff.mp member).2 (Finset.mem_singleton_self _)
      case isFalse absent =>
        refine ⟨rfl, rfl, iff_of_false (fun member => absent fun none_ => ?_) some_⟩
        exact Finset.notMem_empty _ (none_ ▸
          Finset.mem_inter.mpr ⟨member, Finset.mem_singleton_self StopReason.full⟩)
  rw [txqCreditUpdate_eq]
  split
  case isTrue =>
    obtain ⟨credits, stop, pushed⟩ :=
      purgeRetries_kept (t := t) ((hw.credited t update).txq t).nbRetry 0 (hw.credited t update)
    rw [credits, stop, pushed]
    exact first
  case isFalse => exact first

theorem s8_below {x : Int} (below : x < -128) (low : -384 ≤ x) : s8 x = x + 256 := by
  unfold s8
  rw [← Int.add_bmod_right]
  exact Int.bmod_eq_of_le (by omega) (by omega)

theorem fallback_eq (bounded : Bounded hw t update)
    (within : (hw.txq t).pktPushed ≤ (hw.hwq (hw.txq t).hwq).size) :
    s8 ((hw.hwq (hw.txq t).hwq).size - (hw.txq t).pktPushed) =
      (hw.hwq (hw.txq t).hwq).size - (hw.txq t).pktPushed := by
  have size := (nxTxdescCnt_range hw.busType (hw.txq t).hwq).2
  rw [← bounded.size] at size
  exact s8_eq (by omega) (by omega)

theorem newCredits_pcie (pcie : hw.busType = .pcie) : hw.newCredits t update =
    if (hw.txq t).credits + (hw.txq t).pktPushed + update < (hw.hwq (hw.txq t).hwq).size then
      s8 ((hw.txq t).credits + update)
    else s8 ((hw.hwq (hw.txq t).hwq).size - (hw.txq t).pktPushed) := by
  have kept : hw.clampedUpdate t update = update := if_neg fun large => large.2.1 pcie
  unfold AmlHw.newCredits
  rw [kept]
  exact if_congr (and_iff_right (Or.inl pcie)) rfl rfl

theorem newCredits_small (other : hw.busType ≠ .pcie) (small : update ≤ nxTxqInitialCredits) :
    hw.newCredits t update = if 0 < (hw.txq t).credits + update ∧
          (hw.txq t).credits + (hw.txq t).pktPushed + update < (hw.hwq (hw.txq t).hwq).size then
        s8 ((hw.txq t).credits + update)
      else s8 ((hw.hwq (hw.txq t).hwq).size - (hw.txq t).pktPushed) := by
  have kept : hw.clampedUpdate t update = update :=
    if_neg fun large => absurd large.2.2 (not_lt.mpr small)
  unfold AmlHw.newCredits
  rw [kept]
  exact if_congr (and_congr_left' (or_iff_right other)) rfl rfl

theorem newCredits_large (active : (hw.txq t).active = true) (other : hw.busType ≠ .pcie)
    (large : nxTxqInitialCredits < update) (bounded : Bounded hw t update) :
    hw.newCredits t update = if 0 < (hw.txq t).credits + ((hw.hwq (hw.txq t).hwq).size - 4) ∧
          (hw.txq t).credits + (hw.txq t).pktPushed < 4 then
        s8 ((hw.txq t).credits + ((hw.hwq (hw.txq t).hwq).size - 4))
      else s8 ((hw.hwq (hw.txq t).hwq).size - (hw.txq t).pktPushed) := by
  have size := nxTxdescCnt_range hw.busType (hw.txq t).hwq
  rw [← bounded.size] at size
  have replaced : hw.clampedUpdate t update = (hw.hwq (hw.txq t).hwq).size - 4 :=
    (if_pos ⟨active, other, large⟩).trans (s8_eq (by unfold nxTxqInitialCredits; omega)
      (by unfold nxTxqInitialCredits; omega))
  unfold AmlHw.newCredits
  rw [replaced]
  refine if_congr (and_congr (or_iff_right other) ?_) rfl rfl
  omega

/-- **The credits follow the update exactly in these states.** -/
theorem credit_update_fits (active : (hw.txq t).active = true) (bounded : Bounded hw t update)
    (within : (hw.txq t).pktPushed ≤ (hw.hwq (hw.txq t).hwq).size) :
    Updated hw (hw.txqCreditUpdate t update) t update ↔ UpdateFits hw t update := by
  obtain ⟨credits, pushed, full⟩ : ((hw.txqCreditUpdate t update).txq t).credits = _ ∧ _ ∧ _ :=
    txqCreditUpdate_credits active
  have size := nxTxdescCnt_range hw.busType (hw.txq t).hwq
  rw [← bounded.size] at size
  have fallback := fallback_eq bounded within
  obtain ⟨⟨credits_low, credits_high⟩, ⟨low, high⟩, pushed_, size_⟩ := bounded
  have arithmetic : Updated hw (hw.txqCreditUpdate t update) t update ↔
      hw.newCredits t update + (hw.txq t).pktPushed ≤ (hw.hwq (hw.txq t).hwq).size ∧
      (update < 0 → hw.newCredits t update ≤ (hw.txq t).credits) ∧
      (0 < update → (hw.txq t).credits ≤ hw.newCredits t update) ∧
      ((hw.busType = .pcie ∨ update ≤ 4) →
        (hw.txq t).credits + (hw.txq t).pktPushed + update < (hw.hwq (hw.txq t).hwq).size →
        hw.newCredits t update = (hw.txq t).credits + update) := by
    constructor
    · rintro ⟨fits, fewer, more, unclamped, -⟩
      rw [credits] at fits fewer more unclamped
      rw [pushed] at fits
      exact ⟨fits, fewer, more, unclamped⟩
    · rintro ⟨fits, fewer, more, unclamped⟩
      rw [← credits] at fits fewer more unclamped full
      exact ⟨by rw [pushed]; exact fits, fewer, more, unclamped, full⟩
  rw [arithmetic]
  unfold UpdateFits
  dsimp only
  by_cases pcie : hw.busType = .pcie
  · rw [if_pos pcie, newCredits_pcie pcie, fallback]
    simp only [pcie, true_or, true_implies]
    split
    case isTrue less =>
      by_cases wraps : -128 ≤ (hw.txq t).credits + update
      · rw [s8_eq wraps (by omega)]
        omega
      · rw [s8_below (by omega) (by omega)]
        omega
    case isFalse => omega
  · rw [if_neg pcie]
    by_cases small : update ≤ nxTxqInitialCredits
    · rw [newCredits_small pcie small, fallback]
      have small' : update ≤ 4 := small
      simp only [small, small', or_true, true_implies]
      split
      case isTrue left =>
        rw [s8_eq (by omega) (by omega)]
        omega
      case isFalse => omega
    · rw [newCredits_large active pcie (not_le.mp small) ⟨⟨credits_low, credits_high⟩, ⟨low, high⟩, pushed_, size_⟩,
        fallback]
      have large : ¬ update ≤ 4 := small
      simp only [small, large, pcie, or_false, false_implies, and_true]
      split
      case isTrue left =>
        rw [s8_eq (by omega) (by omega)]
        omega
      case isFalse => omega

end Credits

/-- A queue of the first station with `n` credits, as many as the firmware holds buffers of it. -/
def halfPushed (bus : BusType) (n : ℕ) : AmlHw :=
  (hwInit bus).modTxq 0 fun x => { x with active := true, credits := n, pktPushed := n }

/-- One credit more on SDIO. -/
theorem credit_update_fits_sdio : Updated (halfPushed .sdio 2) ((halfPushed .sdio 2).txqCreditUpdate 0 1) 0 1 :=
  (credit_update_fits rfl
    ⟨by decide, by decide, by decide, rfl⟩ (by decide)).mpr ⟨by decide, fun _ => .inl (by decide)⟩

/-- The firmware takes three of two credits back, and the queue is given 122. -/
theorem taken_back_granted : ¬ Updated (halfPushed .sdio 2) ((halfPushed .sdio 2).txqCreditUpdate 0 (-3)) 0 (-3) :=
  fun updated => absurd (updated.fewer (by decide)) (by decide)

/-! ### When the retries go -/

section Retries

variable (hw hw' : AmlHw) (t : TxqId) (update : Int) (retries others : List Skb)

/-- The retries of a queue are its first buffers. -/
structure Queued : Prop where
  skList : (hw.txq t).skList = retries ++ others
  nbRetry : (hw.txq t).nbRetry = retries.length
  lastRetrySkb : (hw.txq t).lastRetrySkb = retries.getLast?

/-- All retries are gone, and what `aml_txq_drop_old_traffic` does for each buffer it drops is done for
each of them. -/
structure Purged : Prop where
  skList : (hw'.txq t).skList = others
  nbRetry : (hw'.txq t).nbRetry = 0
  lastRetrySkb : (hw'.txq t).lastRetrySkb = none
  linked : (hw'.txq t).inHwqList = true → others ≠ []
  flowCtrl : (hw'.txq t).ndevFlowCtrl = true → others ≠ []
  psCounters : ∀ i, (hw.txq t).sta = some i → hw'.sta i = ((fun hw => hw.psDropped t)^[retries.length] hw).sta i
  pushLimit : (hw'.txq t).pushLimit = (((fun hw => hw.psDropped t)^[retries.length] hw).txq t).pushLimit

def LeavesCredits : Prop :=
  let x := hw.txq t
  let size := (hw.hwq x.hwq).size
  if (hw.busType = .pcie ∨ 0 < x.credits + update) ∧ x.credits + x.pktPushed + update < size then
    0 < x.credits + update ∨ -256 < x.credits + update ∧ x.credits + update < -128
  else x.pktPushed < size ∨ size + 128 < x.pktPushed

/-- There is at most one retry; its station does not save power; and where it was the last buffer, the
queue is not in the list of its hardware queue, does not enter it, and its netdev queue is not stopped. -/
def PurgeSafe : Prop :=
  retries.length ≤ 1 ∧
  (retries ≠ [] → ∀ i, (hw.txq t).sta = some i → (hw.sta i).psActive = false) ∧
  (others = [] → (hw.txq t).ndevFlowCtrl = false ∧ ((hw.txq t).active = false → (hw.txq t).inHwqList = false) ∧
    ((hw.txq t).active = true → LeavesCredits hw t update →
      (hw.txq t).inHwqList = false ∧ ¬ ((hw.txq t).stop = {.full} ∧ retries ≠ [])))

end Retries

section Purging

variable {hw : AmlHw} {t : TxqId} {update : Int} {retries others : List Skb}

theorem newCredits_pos_iff (bounded : Bounded hw t update) (small : update < nxTxqInitialCredits) :
    0 < hw.newCredits t update ↔ LeavesCredits hw t update := by
  have size := nxTxdescCnt_range hw.busType (hw.txq t).hwq
  rw [← bounded.size] at size
  obtain ⟨⟨credits_low, credits_high⟩, ⟨low, high⟩, pushed, -⟩ := bounded
  have kept : hw.clampedUpdate t update = update :=
    if_neg fun large => absurd large.2.2 (not_lt.mpr small.le)
  unfold AmlHw.newCredits
  rw [kept]
  unfold AmlHw.updatedCredits LeavesCredits
  dsimp only
  split
  case isTrue less =>
    by_cases wraps : -128 ≤ (hw.txq t).credits + update
    · rw [s8_eq wraps (by omega)]
      omega
    · rw [s8_below (by omega) (by omega)]
      omega
  case isFalse =>
    by_cases wraps : -128 ≤ ((hw.hwq (hw.txq t).hwq).size : Int) - (hw.txq t).pktPushed
    · rw [s8_eq wraps (by omega)]
      omega
    · rw [s8_below (by omega) (by omega)]
      omega

theorem Txq.credited_linked (x : Txq) (credits : Int) : (x.credited credits).inHwqList = true ↔
    0 < credits ∧ (x.inHwqList = true ∨ x.stop = {.full} ∧ x.skList ≠ []) := by
  have stops : x.stop = {StopReason.full} ↔ x.stop ∩ {StopReason.full} ≠ ∅ ∧ x.stop \ {StopReason.full} = ∅ := by
    constructor
    · intro only
      rw [only]
      decide
    · rintro ⟨some_, rest⟩
      exact (Finset.subset_singleton_iff.mp (Finset.sdiff_eq_empty_iff_subset.mp rest)).resolve_left
        fun empty => some_ (by rw [empty]; rfl)
  unfold Txq.credited
  split
  case isTrue none_ =>
    exact iff_of_false Bool.false_ne_true fun both => absurd both.1 (not_lt.mpr none_)
  case isFalse some_ =>
    rw [and_iff_right (not_le.mp some_), stops]
    unfold Txq.started
    split
    case isTrue stopped =>
      show (x.inHwqList || (decide (x.stop \ {.full} = ∅) && !x.skList.isEmpty)) = true ↔ _
      rw [Bool.or_eq_true, Bool.and_eq_true, decide_eq_true_iff, Bool.not_eq_true',
        List.isEmpty_eq_false_iff, and_iff_right stopped]
    case isFalse absent =>
      exact (or_iff_left fun both => absent both.1.1).symm

theorem credited_kept (hw : AmlHw) (t : TxqId) (update : Int) :
    ((hw.credited t update).txq t).skList = (hw.txq t).skList ∧
      ((hw.credited t update).txq t).nbRetry = (hw.txq t).nbRetry ∧
      ((hw.credited t update).txq t).lastRetrySkb = (hw.txq t).lastRetrySkb ∧
      ((hw.credited t update).txq t).ndevFlowCtrl = (hw.txq t).ndevFlowCtrl ∧
      ((hw.credited t update).txq t).pushLimit = (hw.txq t).pushLimit := by
  rw [credited_txq]
  split
  case isTrue =>
    unfold Txq.credited
    split
    case isTrue => exact ⟨rfl, rfl, rfl, rfl, rfl⟩
    case isFalse =>
      unfold Txq.started
      split <;> exact ⟨rfl, rfl, rfl, rfl, rfl⟩
  case isFalse => exact ⟨rfl, rfl, rfl, rfl, rfl⟩

theorem psDropped_awake (awake : ∀ i, (hw.txq t).sta = some i → (hw.sta i).psActive = false) :
    hw.psDropped t = hw := by
  unfold AmlHw.psDropped
  split
  case h_1 => rfl
  case h_2 i station =>
    rw [if_neg (by rw [awake i station]; exact Bool.false_ne_true)]

theorem u16Dec_ne (n : ℕ) : u16Dec n ≠ n := by
  unfold u16Dec
  omega

/-- Where it does, `pkt_ready` is decreased. -/
theorem psDropped_ready {i : StaId} (station : (hw.txq t).sta = some i)
    (saves : (hw.sta i).psActive = true) :
    ((hw.psDropped t).sta i).pktReady (hw.txq t).psId ≠ (hw.sta i).pktReady (hw.txq t).psId := by
  have counted : ((hw.psDropped t).sta i).pktReady (hw.txq t).psId =
      u16Dec ((hw.sta i).pktReady (hw.txq t).psId) := by
    unfold AmlHw.psDropped
    rw [station]
    dsimp only
    rw [if_pos saves]
    unfold AmlHw.modPktReady AmlHw.modSpCnt AmlHw.setTrafficStatus
    split <;> split <;> (try split) <;> simp
  rw [counted]
  exact u16Dec_ne _

theorem txqCreditUpdate_small (small : update < nxTxqInitialCredits)
    (queued : Queued hw t retries others) :
    (hw.txqCreditUpdate t update).txq t = ((hw.credited t update).txq t).purged ((retries.length + 1) / 2) ∧
      (hw.txqCreditUpdate t update).sta = hw.sta := by
  have kept : hw.clampedUpdate t update = update :=
    if_neg fun large => absurd large.2.2 (not_lt.mpr small.le)
  obtain ⟨skList, nbRetry, -⟩ := credited_kept hw t update
  rw [queued.skList] at skList
  rw [queued.nbRetry] at nbRetry
  rw [txqCreditUpdate_eq, kept, if_pos small, purgeRetries_eq (t := t) _ 0 _
    (by rw [skList, nbRetry, List.length_append]; omega) (Nat.sub_le _ _)]
  refine ⟨?_, (AmlHw.modTxq_sta _ t _).trans (credited_sta hw t update)⟩
  refine (modTxq_self _ t _).trans ?_
  rw [nbRetry, Nat.sub_zero]

theorem txqCreditUpdate_linked (small : update < nxTxqInitialCredits)
    (queued : Queued hw t retries others) (bounded : Bounded hw t update) :
    ((hw.txqCreditUpdate t update).txq t).inHwqList = true ↔ ((hw.txq t).active = true → LeavesCredits hw t update ∧
        ((hw.txq t).inHwqList = true ∨ (hw.txq t).stop = {.full} ∧ retries ++ others ≠ [])) ∧
      ((hw.txq t).active = false → (hw.txq t).inHwqList = true) := by
  rw [(txqCreditUpdate_small small queued).1]
  show ((hw.credited t update).txq t).inHwqList = true ↔ _
  rw [credited_txq]
  cases active : (hw.txq t).active with
  | true =>
    rw [if_pos rfl, Txq.credited_linked, newCredits_pos_iff bounded small, queued.skList]
    simp
  | false =>
    rw [if_neg Bool.false_ne_true]
    simp

theorem psDropped_few (few : retries.length ≤ 1)
    (awake : retries ≠ [] → ∀ i, (hw.txq t).sta = some i → (hw.sta i).psActive = false) :
    (fun hw : AmlHw => hw.psDropped t)^[retries.length] hw = hw := by
  by_cases none_ : retries = []
  · rw [none_]
    rfl
  · have one : retries.length = 1 := le_antisymm few (List.length_pos_iff.mpr none_)
    rw [one, Function.iterate_one]
    exact psDropped_awake (awake none_)

theorem purgeSafe_of_purged (small : update < nxTxqInitialCredits)
    (queued : Queued hw t retries others) (bounded : Bounded hw t update)
    (purged : Purged hw (hw.txqCreditUpdate t update) t retries others) :
    PurgeSafe hw t update retries others := by
  obtain ⟨queue, station⟩ := txqCreditUpdate_small small queued
  obtain ⟨skList, -, -, flowCtrl, -⟩ := credited_kept hw t update
  have linked := txqCreditUpdate_linked small queued bounded
  have few : retries.length ≤ 1 := by
    have left := purged.skList
    rw [queue] at left
    have lengths := congrArg List.length left
    change (((hw.credited t update).txq t).skList.drop ((retries.length + 1) / 2)).length = _ at lengths
    rw [skList, queued.skList, List.length_drop, List.length_append] at lengths
    omega
  refine ⟨few, fun some_ i source => ?_, fun empty => ⟨?_, fun inactive => ?_, fun active credits => ?_⟩⟩
  · have one : retries.length = 1 := le_antisymm few (List.length_pos_iff.mpr some_)
    have counters := purged.psCounters i source
    rw [station, one, Function.iterate_one] at counters
    refine Bool.eq_false_iff.mpr fun saves => psDropped_ready source saves ?_
    rw [← counters]
  · refine Bool.eq_false_iff.mpr fun stopped => purged.flowCtrl ?_ empty
    rw [queue]
    exact flowCtrl.trans stopped
  · refine Bool.eq_false_iff.mpr fun member => ?_
    refine purged.linked (linked.mpr ⟨fun active => ?_, fun _ => member⟩) empty
    exact absurd active (by rw [inactive]; exact Bool.false_ne_true)
  · have unlinked (member : (hw.txq t).inHwqList = true ∨
        (hw.txq t).stop = {.full} ∧ retries ++ others ≠ []) : False := by
      refine purged.linked (linked.mpr ⟨fun _ => ⟨credits, member⟩, fun inactive => ?_⟩) empty
      exact absurd active (by rw [inactive]; exact Bool.false_ne_true)
    rw [empty, List.append_nil] at unlinked
    exact ⟨Bool.eq_false_iff.mpr fun member => unlinked (.inl member), fun stops => unlinked (.inr stops)⟩

theorem purged_of_purgeSafe (small : update < nxTxqInitialCredits)
    (queued : Queued hw t retries others) (bounded : Bounded hw t update)
    (safe : PurgeSafe hw t update retries others) :
    Purged hw (hw.txqCreditUpdate t update) t retries others := by
  obtain ⟨few, awake, alone⟩ := safe
  obtain ⟨queue, station⟩ := txqCreditUpdate_small small queued
  obtain ⟨skList, nbRetry, lastRetrySkb, flowCtrl, pushLimit⟩ := credited_kept hw t update
  have linked := txqCreditUpdate_linked small queued bounded
  have dropped := psDropped_few few awake
  have all : (retries.length + 1) / 2 = retries.length := by omega
  rw [all] at queue
  refine ⟨?_, ?_, ?_, fun member empty => ?_, fun stopped empty => ?_, fun i _ => ?_, ?_⟩
  · rw [queue]
    show ((hw.credited t update).txq t).skList.drop retries.length = others
    rw [skList, queued.skList, List.drop_left]
  · rw [queue]
    show ((hw.credited t update).txq t).nbRetry - retries.length = 0
    rw [nbRetry, queued.nbRetry, Nat.sub_self]
  · rw [queue]
    show (if retries.length ≠ 0 ∧ ((hw.credited t update).txq t).nbRetry - retries.length = 0 then none
      else ((hw.credited t update).txq t).lastRetrySkb) = none
    rw [nbRetry, lastRetrySkb, queued.nbRetry, queued.lastRetrySkb]
    split
    case isTrue => rfl
    case isFalse some_ =>
      have empty : retries = [] := by
        by_contra more
        exact some_ ⟨fun zero => more (List.length_eq_zero_iff.mp zero), Nat.sub_self _⟩
      rw [empty]
      rfl
  · obtain ⟨whenActive, whenNot⟩ := linked.mp member
    obtain ⟨-, inactive, active⟩ := alone empty
    cases state : (hw.txq t).active with
    | true =>
      obtain ⟨credits, linkedBefore⟩ := whenActive state
      rw [empty, List.append_nil] at linkedBefore
      obtain ⟨unlinked, unstopped⟩ := active state credits
      rcases linkedBefore with before | before
      · exact absurd before (by rw [unlinked]; exact Bool.false_ne_true)
      · exact unstopped before
    | false =>
      exact absurd (whenNot state) (by rw [inactive state]; exact Bool.false_ne_true)
  · rw [queue] at stopped
    exact absurd (flowCtrl.symm.trans stopped) (by rw [(alone empty).1]; exact Bool.false_ne_true)
  · rw [station, dropped]
  · rw [queue, dropped]
    exact pushLimit

/-- **The retries go, and nothing is left behind, exactly in these states.** -/
theorem credit_update_purges (queued : Queued hw t retries others) (bounded : Bounded hw t update)
    (small : update < nxTxqInitialCredits) :
    Purged hw (hw.txqCreditUpdate t update) t retries others ↔ PurgeSafe hw t update retries others :=
  ⟨purgeSafe_of_purged small queued bounded, purged_of_purgeSafe small queued bounded⟩

end Purging

/-- A queue of the first station whose buffers are `retries` retries and one buffer more. -/
def retried (retries : List Skb) : AmlHw :=
  (hwInit .sdio).modTxq 0 fun x =>
    { x with
      active := true, inHwqList := true, credits := 4, skList := retries ++ [9],
      nbRetry := retries.length, lastRetrySkb := retries.getLast?, sta := some 0 }

/-- One retry goes. -/
theorem credit_update_purges_one : Purged (retried [1]) ((retried [1]).txqCreditUpdate 0 (-4)) 0 [1] [9] :=
  (credit_update_purges ⟨rfl, rfl, rfl⟩ ⟨by decide, by decide, by decide, rfl⟩ (by decide)).mpr
    ⟨by decide, fun _ i _ => rfl, fun none_ => absurd none_ (List.cons_ne_nil 9 [])⟩

/-- Of two, the second stays. -/
theorem second_retry_stays : ¬ Purged (retried [1, 2]) ((retried [1, 2]).txqCreditUpdate 0 (-4)) 0 [1, 2] [9] :=
  fun purged => absurd purged.skList (by decide)

end W2l.Sched
