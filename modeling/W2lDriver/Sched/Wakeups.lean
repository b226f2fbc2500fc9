/-
**Linked queues in every run.**

* `Pushing` — a queue while its buffers are pushed; `txPush_core` — what a push leaves of it.
* `LinksRight` — **what should hold between the sections**, and of the sanity check of `aml_hwq_process`.
* `LinkGuard` — the calls that keep it.
-/

import W2lDriver.Sched.Relink

namespace W2l.Sched

open Cmd (BusType)
open Lib (System)
open Option (some.inj)
open AmlHw (modTxq_self txPushAll)

namespace AmlHw

variable (hw : AmlHw)

/-- A linked queue that is not stopped is not at the end of a service period with buffers and credits left. -/
def ProcessKeeps (q : HwqId) : Prop :=
  ∀ t ∈ (hw.hwq q).list, (hw.txq t).stop = ∅ → (hw.txq t).pushLimit ≠ 0 →
    (hw.txq t).skList.length ≤ (hw.txq t).pushLimit ∨ (hw.txq t).credits ≤ (hw.txq t).pushLimit

instance (q : HwqId) : Decidable (hw.ProcessKeeps q) := by
  unfold ProcessKeeps
  infer_instance

/-- The sanity checks of `aml_hwq_process`, one for each queue of the list it comes to. -/
def loopChecks (a2eInit : Skb → Bool) (q : HwqId) : List TxqId → AmlHw → List Bool
  | [], _ => []
  | t :: rest, hw =>
    hw.sane t :: if hw.sane t = false then loopChecks a2eInit q rest hw
      else if (hw.hwq q).credits = 0 then []
      else loopChecks a2eInit q rest (hw.hwqProcessTxq a2eInit q t)

/-- The sanity checks in `hwqProcess`. -/
def hwqChecks (a2eInit : Skb → Bool) (q : HwqId) : List Bool :=
  loopChecks a2eInit q (hw.hwq q).list (hw.modHwq q fun h => { h with needProcessing := false })

end AmlHw

/-! ### Buffers are pushed -/

def Txq.charged (x : Txq) : Txq :=
  let y : Txq := { x with nbRetry := x.nbRetry - 1, credits := s8 (x.credits - 1), pktPushed := u8Inc x.pktPushed }
  if y.credits ≤ 0 then y.stopped {.full} else y

/-- A queue while `m` buffers that were taken from it are to be pushed; `stop` is how it was stopped before. -/
structure Pushing (stop : Finset StopReason) (m : ℕ) (x : Txq) : Prop where
  active : x.active = true
  enough : (m : Int) ≤ x.credits
  below : x.credits < 128
  stops : stop ⊆ x.stop
  linked : 0 < x.credits → x.inHwqList = true
  full : x.credits ≤ 0 → .full ∈ x.stop ∧ x.inHwqList = false
  retries : x.nbRetry ≤ x.skList.length + m
  pushed : x.pktPushed < 256

section Push

variable {hw : AmlHw} {t : TxqId} {skb : Skb}

theorem setMoreDataFlag_txq (hw : AmlHw) (skb : Skb) : (hw.setMoreDataFlag skb).txq = hw.txq := by
  unfold AmlHw.setMoreDataFlag
  split
  · rfl
  · split
    · dsimp only
      split <;> rfl
    · rfl

theorem ipcTxdescPush_kept (hw : AmlHw) (a2eInit : Skb → Bool) (skb : Skb) :
    (hw.ipcTxdescPush a2eInit skb).txq = hw.txq ∧ (hw.ipcTxdescPush a2eInit skb).hwq = hw.hwq ∧
      (hw.ipcTxdescPush a2eInit skb).swTxhdr = hw.swTxhdr := by
  have sdio : (hw.sdioIpcTxdescPush skb).txq = hw.txq ∧ (hw.sdioIpcTxdescPush skb).hwq = hw.hwq ∧
      (hw.sdioIpcTxdescPush skb).swTxhdr = hw.swTxhdr := by
    unfold AmlHw.sdioIpcTxdescPush
    dsimp only
    split <;> exact ⟨rfl, rfl, rfl⟩
  have pci : (hw.pciIpcTxdescPush a2eInit skb).txq = hw.txq ∧ (hw.pciIpcTxdescPush a2eInit skb).hwq = hw.hwq ∧
      (hw.pciIpcTxdescPush a2eInit skb).swTxhdr = hw.swTxhdr := by
    unfold AmlHw.pciIpcTxdescPush
    dsimp only
    split
    · exact ⟨rfl, rfl, rfl⟩
    · split <;> exact ⟨rfl, rfl, rfl⟩
  unfold AmlHw.ipcTxdescPush
  split
  · split
    · exact ⟨rfl, rfl, rfl⟩
    · exact pci
  · exact sdio

theorem txPushCharge_core (own : (hw.swTxhdr skb).txq = t) (active : (hw.txq t).active = true) :
    Moves t hw (hw.txPushCharge skb) ∧ ((hw.txPushCharge skb).txq t).core = (hw.txq t).charged.core := by
  subst own
  delta AmlHw.txPushCharge
  extract_lets t hw₁ hw₂ hw₃ hw₄ hw₅
  have first : hw₁.txq t = if (hw.txq t).nbRetry ≠ 0 then (hw.txq t).retryGone else
      { hw.txq t with pktSent := u8Inc (hw.txq t).pktSent } := modTxq_self hw t _
  have moved₁ : Moves t hw hw₁ := by
    refine .modTxq hw t ?_ ?_
    · split <;> rfl
    · split <;> rfl
  have txq₃ : hw₃.txq = hw₁.txq := setMoreDataFlag_txq hw₂ skb
  have moved₃ : Moves t hw hw₃ := by
    refine moved₁.trans (.same txq₃ fun q => ?_)
    have frame : hw₃.hwq = hw₂.hwq := by
      show (hw₂.setMoreDataFlag skb).hwq = _
      unfold AmlHw.setMoreDataFlag
      split
      · rfl
      · split
        · dsimp only
          split <;> rfl
        · rfl
    rw [frame]
    exact .refl _
  have charged : hw₄.txq t = { hw₁.txq t with
      credits := s8 ((hw₁.txq t).credits - 1), pktPushed := u8Inc (hw₁.txq t).pktPushed } := by
    rw [← txq₃]
    exact modTxq_self hw₃ t _
  have moved₄ : Moves t hw hw₄ := moved₃.trans (.modTxq hw₃ t rfl rfl)
  have kept : hw₁.txq t = { hw.txq t with
      nbRetry := (hw.txq t).nbRetry - 1, pktSent := (hw₁.txq t).pktSent,
      lastRetrySkb := (hw₁.txq t).lastRetrySkb } := by
    rw [first]
    split
    case isTrue => rfl
    case isFalse none =>
      have zero : (hw.txq t).nbRetry - 1 = (hw.txq t).nbRetry := by omega
      rw [zero]
  have active₄ : (hw₄.txq t).active = true := by
    rw [charged, kept]
    exact active
  have moved₅ : Moves t hw hw₅ := .ite (moved₄.trans (.txqStop hw₄ t _)) moved₄
  have core₅ : (hw₅.txq t).core = (hw.txq t).charged.core := by
    show ((if (hw₄.txq t).credits ≤ 0 then hw₄.txqStop t {.full} else hw₄).txq t).core = _
    rw [apply_ite (fun hw : AmlHw => hw.txq t), txqStop_txq hw₄ t active₄, charged, kept]
    unfold Txq.charged
    dsimp only
    split <;> rfl
  split
  case isFalse => exact ⟨moved₅, core₅⟩
  case isTrue =>
    refine ⟨moved₅.trans (.modTxq hw₅ t rfl rfl), ?_⟩
    rw [modTxq_self]
    exact core₅

theorem txPush_core (own : (hw.swTxhdr skb).txq = t) (active : (hw.txq t).active = true) (a2eInit : Skb → Bool) :
    Moves t hw (hw.txPush a2eInit skb) ∧ ((hw.txPush a2eInit skb).txq t).core = (hw.txq t).charged.core ∧
      ∀ other, ((hw.txPush a2eInit skb).swTxhdr other).txq = (hw.swTxhdr other).txq := by
  obtain ⟨moved, core⟩ := txPushCharge_core own active
  obtain ⟨txq, hwq, swTxhdr⟩ := ipcTxdescPush_kept (hw.txPushCharge skb) a2eInit skb
  unfold AmlHw.txPush
  dsimp only
  have moved₁ : Moves t hw ((hw.txPushCharge skb).ipcTxdescPush a2eInit skb) :=
    moved.trans (.same txq fun q => by rw [hwq])
  refine ⟨moved₁.trans (.modHwq _ t _ (.refl _)), ?_, fun other => ?_⟩
  · show ((((hw.txPushCharge skb).ipcTxdescPush a2eInit skb)).txq t).core = _
    rw [txq, core]
  · show ((((hw.txPushCharge skb).ipcTxdescPush a2eInit skb)).swTxhdr other).txq = _
    rw [swTxhdr, (Scheduled.txPushCharge hw skb).swTxhdr]
    rcases eq_or_ne other skb with rfl | ne
    · rw [AmlHw.modSwTxhdr_self]
    · rw [AmlHw.modSwTxhdr_of_ne _ _ _ ne]

theorem Pushing.charged {stop : Finset StopReason} {m : ℕ} {x y : Txq} (pushing : Pushing stop (m + 1) x)
    (core : y.core = x.charged.core) : Pushing stop m y ∧ y.skList = x.skList ∧ y.credits = x.credits - 1 := by
  have spent : s8 (x.credits - 1) = x.credits - 1 := by
    have enough := pushing.enough
    have below := pushing.below
    push_cast at enough
    exact s8_eq (by omega) (by omega)
  obtain ⟨active, rest⟩ := Prod.mk.inj core
  obtain ⟨inHwqList, rest⟩ := Prod.mk.inj rest
  obtain ⟨stops, rest⟩ := Prod.mk.inj rest
  obtain ⟨skList, rest⟩ := Prod.mk.inj rest
  obtain ⟨credits, rest⟩ := Prod.mk.inj rest
  obtain ⟨nbRetry, pktPushed⟩ := Prod.mk.inj rest
  unfold Txq.charged at active inHwqList stops skList credits nbRetry pktPushed
  dsimp only at active inHwqList stops skList credits nbRetry pktPushed
  rw [spent] at active inHwqList stops skList credits nbRetry pktPushed
  have counted : u8Inc x.pktPushed < 256 := Nat.mod_lt _ (by decide)
  have enough := pushing.enough
  have below := pushing.below
  have retries := pushing.retries
  push_cast at enough
  by_cases none : x.credits - 1 ≤ 0
  · rw [if_pos none] at active inHwqList stops skList credits nbRetry pktPushed
    change y.active = x.active at active
    change y.inHwqList = false at inHwqList
    change y.stop = x.stop ∪ {.full} at stops
    change y.skList = x.skList at skList
    change y.credits = x.credits - 1 at credits
    change y.nbRetry = x.nbRetry - 1 at nbRetry
    change y.pktPushed = u8Inc x.pktPushed at pktPushed
    refine ⟨⟨active.trans pushing.active, by omega, by omega, ?_, fun some => by omega, fun _ => ⟨?_, inHwqList⟩, ?_,
      pktPushed.trans_lt counted⟩, skList, credits⟩
    · rw [stops]
      exact pushing.stops.trans Finset.subset_union_left
    · rw [stops]
      exact Finset.mem_union_right _ (Finset.mem_singleton_self _)
    · rw [nbRetry, skList]
      omega
  · rw [if_neg none] at active inHwqList stops skList credits nbRetry pktPushed
    change y.active = x.active at active
    change y.inHwqList = x.inHwqList at inHwqList
    change y.stop = x.stop at stops
    change y.skList = x.skList at skList
    change y.credits = x.credits - 1 at credits
    change y.nbRetry = x.nbRetry - 1 at nbRetry
    change y.pktPushed = u8Inc x.pktPushed at pktPushed
    refine ⟨⟨active.trans pushing.active, by omega, by omega, stops ▸ pushing.stops, fun _ => ?_,
      fun spent => absurd (credits ▸ spent) none, ?_, pktPushed.trans_lt counted⟩, skList, credits⟩
    · rw [inHwqList]
      exact pushing.linked (by omega)
    · rw [nbRetry, skList]
      omega

theorem txPushAll_core (a2eInit : Skb → Bool) {stop : Finset StopReason} (skbs : List Skb) (hw : AmlHw)
    (own : ∀ skb ∈ skbs, (hw.swTxhdr skb).txq = t) (pushing : Pushing stop skbs.length (hw.txq t)) :
    Moves t hw (txPushAll a2eInit skbs hw) ∧ Pushing stop 0 ((txPushAll a2eInit skbs hw).txq t) ∧
      ((txPushAll a2eInit skbs hw).txq t).skList = (hw.txq t).skList ∧
      ((txPushAll a2eInit skbs hw).txq t).credits = (hw.txq t).credits - skbs.length := by
  induction skbs generalizing hw with
  | nil => exact ⟨.refl hw, pushing, rfl, (Int.sub_zero _).symm⟩
  | cons skb rest ih =>
    obtain ⟨moved, core, headers⟩ := txPush_core (own skb List.mem_cons_self) pushing.active a2eInit
    obtain ⟨pushing', skList, credits⟩ := pushing.charged core
    obtain ⟨moved', done, skList', credits'⟩ := ih (hw.txPush a2eInit skb)
      (fun other member => (headers other).trans (own other (List.mem_cons_of_mem _ member))) pushing'
    refine ⟨moved.trans moved', done, skList'.trans skList, credits'.trans ?_⟩
    rw [credits, List.length_cons]
    push_cast
    omega

end Push

/-! ### The loop over the linked queues -/

section Process

variable {hw : AmlHw} {t : TxqId} {q : HwqId}

theorem skbsToPush_spec (some : 0 < (hw.txq t).credits) : (((hw.skbsToPush q t).1 : ℕ) : Int) ≤ (hw.txq t).credits ∧
      (hw.skbsToPush q t).1 ≤ (hw.txq t).skList.length ∧
      ((hw.skbsToPush q t).2 = false → (hw.skbsToPush q t).1 < (hw.txq t).skList.length) ∧
      ((hw.skbsToPush q t).2 = true → (hw.skbsToPush q t).1 = (hw.txq t).skList.length ∨
        (hw.txq t).pushLimit ≠ 0 ∧ (hw.txq t).pushLimit < (hw.txq t).skList.length ∧
          (hw.skbsToPush q t).1 = (hw.txq t).pushLimit) := by
  have given : 0 < (hw.txq t).getCredits ∧ (hw.txq t).getCredits ≤ (hw.txq t).credits := by
    unfold Txq.getCredits
    split
    case isTrue limited => exact ⟨Int.natCast_pos.mpr (Nat.pos_of_ne_zero limited.1), limited.2.le⟩
    case isFalse => exact ⟨some, le_refl _⟩
  have least : 0 ≤ min (hw.txq t).getCredits ((hw.hwq q).credits : Int) ∧
      min (hw.txq t).getCredits ((hw.hwq q).credits : Int) ≤ (hw.txq t).credits :=
    ⟨le_min given.1.le (Int.natCast_nonneg _), (min_le_left _ _).trans given.2⟩
  unfold AmlHw.skbsToPush
  dsimp only
  generalize min (hw.txq t).getCredits ((hw.hwq q).credits : Int) = credits at least
  obtain ⟨low, high⟩ := least
  split
  case isTrue all => exact ⟨all.trans high, Nat.le_refl _, fun no => (nomatch no), fun _ => .inl rfl⟩
  case isFalse more =>
    refine ⟨by omega, by omega, fun _ => by omega, fun done => .inr ?_⟩
    obtain ⟨limited, same⟩ := of_decide_eq_true done
    exact ⟨limited, by omega, by omega⟩

theorem Moves.hwqReschedule (hw : AmlHw) (q : HwqId) (t : TxqId) (txqEmpty : Bool) :
    Moves t hw (hw.hwqReschedule q t txqEmpty) := by
  unfold AmlHw.hwqReschedule
  refine .ite ?_ (.ite ?_ (.refl hw))
  · exact (Moves.txqDelFromHwList hw t).trans (.modTxq _ t rfl rfl)
  · refine (Moves.modTxq hw t (f := fun x => { x with pktSent := 0 }) rfl rfl).trans (.modHwq _ t q ?_)
    show (List.rotateLeft _ 1).Perm _
    unfold List.rotateLeft
    dsimp only
    split
    · exact .refl _
    · refine List.perm_append_comm.trans ?_
      rw [List.take_append_drop]

theorem hwqReschedule_core (hw : AmlHw) (q : HwqId) (t : TxqId) (txqEmpty : Bool) :
    ((hw.hwqReschedule q t txqEmpty).txq t).core =
      if txqEmpty then Txq.core { hw.txq t with inHwqList := false } else (hw.txq t).core := by
  unfold AmlHw.hwqReschedule
  split
  case isTrue =>
    rw [modTxq_self, txqDelFromHwList_txq]
    rfl
  case isFalse =>
    split
    · rw [AmlHw.modHwq_txq, modTxq_self]
      rfl
    · rfl

theorem abortLegacySp_core (hw : AmlHw) (t : TxqId) :
    Moves t hw (hw.abortLegacySp t) ∧ ((hw.abortLegacySp t).txq t).core = (hw.txq t).core := by
  unfold AmlHw.abortLegacySp
  split
  case h_1 => exact ⟨.refl hw, rfl⟩
  case h_2 i _ =>
    split
    case isTrue =>
      refine ⟨(Moves.modSta hw t i _).trans (.modTxq _ t rfl rfl), ?_⟩
      rw [modTxq_self]
      rfl
    case isFalse => exact ⟨.refl hw, rfl⟩

theorem hwqProcessTxq_core (ledger : LedgerInv hw) (fit : Fit (hw.txq t)) (linked : (hw.txq t).inHwqList = true)
    (a2eInit : Skb → Bool) (q : HwqId) :
    Moves t hw (hw.hwqProcessTxq a2eInit q t) ∧ ∃ y : Txq,
      Pushing (hw.txq t).stop 0 y ∧ y.skList = (hw.txq t).skList.drop (hw.skbsToPush q t).1 ∧
      y.credits = (hw.txq t).credits - (hw.skbsToPush q t).1 ∧
      ((hw.hwqProcessTxq a2eInit q t).txq t).core =
        if (hw.skbsToPush q t).2 then Txq.core { y with inHwqList := false } else y.core := by
  obtain ⟨active, -, some⟩ := fit.ready linked
  obtain ⟨enough, inside, -⟩ := skbsToPush_spec (q := q) some
  have cut : (hw.getSkbToPush q t).2.txq t =
      { hw.txq t with skList := (hw.txq t).skList.drop (hw.skbsToPush q t).1 } :=
    modTxq_self hw t fun x => { x with skList := x.skList.drop (hw.skbsToPush q t).1 }
  have moved : Moves t hw (hw.getSkbToPush q t).2 :=
    .modTxq hw t (f := fun x => { x with skList := x.skList.drop (hw.skbsToPush q t).1 }) rfl rfl
  have length : (hw.getSkbToPush q t).1.length = (hw.skbsToPush q t).1 := List.length_take_of_le inside
  have own : ∀ skb ∈ (hw.getSkbToPush q t).1, ((hw.getSkbToPush q t).2.swTxhdr skb).txq = t := fun skb member =>
    (ledger.queued t skb (List.mem_of_mem_take member)).txq
  have pushing : Pushing (hw.txq t).stop (hw.getSkbToPush q t).1.length ((hw.getSkbToPush q t).2.txq t) := by
    rw [cut, length]
    refine ⟨active, enough, fit.range.2, Finset.Subset.refl _, fun _ => linked, fun none => ?_, ?_, fit.pushed⟩
    · exact absurd none (not_le.mpr some)
    · show (hw.txq t).nbRetry ≤ ((hw.txq t).skList.drop (hw.skbsToPush q t).1).length + (hw.skbsToPush q t).1
      rw [List.length_drop, Nat.sub_add_cancel inside]
      exact fit.retries
  obtain ⟨moved', done, skList, credits⟩ := txPushAll_core a2eInit _ _ own pushing
  rw [cut] at skList credits
  rw [length] at credits
  unfold AmlHw.hwqProcessTxq
  dsimp only
  generalize txPushAll a2eInit (hw.getSkbToPush q t).1 (hw.getSkbToPush q t).2 = hw₁ at *
  obtain ⟨aborted, core⟩ := abortLegacySp_core (hw₁.hwqReschedule q t (hw.skbsToPush q t).2) t
  have moved₂ := ((moved.trans moved').trans (Moves.hwqReschedule hw₁ q t _)).trans aborted
  have core₂ := core.trans (hwqReschedule_core hw₁ q t _)
  generalize (hw₁.hwqReschedule q t (hw.skbsToPush q t).2).abortLegacySp t = hw₂ at moved₂ core₂
  split
  case isFalse => exact ⟨moved₂, hw₁.txq t, done, skList, credits, core₂⟩
  case isTrue =>
    refine ⟨moved₂.trans (.modTxq hw₂ t rfl rfl), hw₁.txq t, done, skList, credits, ?_⟩
    rw [modTxq_self]
    exact core₂

theorem LinkInv.hwqProcessTxq (inv : LinkInv hw) (ledger : LedgerInv hw) (linked : (hw.txq t).inHwqList = true)
    (a2eInit : Skb → Bool) (keeps : (hw.txq t).stop = ∅ → (hw.txq t).pushLimit ≠ 0 →
      (hw.txq t).skList.length ≤ (hw.txq t).pushLimit ∨ (hw.txq t).credits ≤ (hw.txq t).pushLimit) :
    LinkInv (hw.hwqProcessTxq a2eInit q t) := by
  have fit := inv.fit t
  obtain ⟨moved, y, pushed, skList, credits, core⟩ := hwqProcessTxq_core ledger fit linked a2eInit q
  obtain ⟨enough, inside, goesOn, ends⟩ := skbsToPush_spec (q := q) (fit.ready linked).2.2
  have retries : y.nbRetry ≤ y.skList.length := pushed.retries
  have range : -128 ≤ y.credits ∧ y.credits < 128 := by
    have low := pushed.enough
    exact ⟨by omega, pushed.below⟩
  have full (none : y.credits ≤ 0) := (pushed.full none).1
  refine inv.moves moved ?_
  cases done : (hw.skbsToPush q t).2 with
  | true =>
    rw [done] at core
    refine Fit.congr (x := { y with inHwqList := false }) ?_ core
    refine ⟨fun on => (nomatch on), fun _ none some => ?_, fun off => ?_, fun _ => full, retries, range,
      pushed.pushed⟩
    · -- the queue is empty, or it was stopped for its period, or its credits are used up
      rcases ends done with all | ⟨limited, more, period⟩
      · refine absurd ?_ some
        show y.skList = []
        rw [skList, all, List.drop_length]
      · have before : (hw.txq t).stop = ∅ := Finset.subset_empty.mp (none ▸ pushed.stops)
        have spent : y.credits ≤ 0 := by
          rcases keeps before limited with few | few
          · omega
          · omega
        exact absurd (full spent) (none ▸ Finset.notMem_empty _)
    · exact nomatch pushed.active.symm.trans off
  | false =>
    rw [done] at core
    have some : y.skList ≠ [] := by
      rw [skList]
      exact fun none => absurd (List.drop_eq_nil_iff.mp none) (not_le.mpr (goesOn done))
    refine Fit.congr (x := y) ?_ core
    refine ⟨fun on => ⟨pushed.active, some, not_le.mp fun none => ?_⟩, fun _ none _ => ?_, fun off => ?_,
      fun _ => full, retries, range, pushed.pushed⟩
    · exact nomatch (pushed.full none).2.symm.trans on
    · refine pushed.linked (not_le.mp fun spent => ?_)
      exact Finset.notMem_empty _ (none ▸ full spent)
    · exact nomatch pushed.active.symm.trans off

theorem Fit.sane (fit : Fit (hw.txq t)) (linked : (hw.txq t).inHwqList = true) : hw.sane t = true := by
  obtain ⟨active, some, credits⟩ := fit.ready linked
  unfold AmlHw.sane Txq.skbReady
  rw [linked, active, decide_eq_true credits]
  simpa using some

theorem LinkInv.hwqProcessLoop (a2eInit : Skb → Bool) {ts : List TxqId} (inv : LinkInv hw) (ledger : LedgerInv hw)
    (nodup : ts.Nodup) (linked : ∀ t ∈ ts, (hw.txq t).inHwqList = true ∧ txqHwq t = q)
    (keeps : ∀ t ∈ ts, (hw.txq t).stop = ∅ → (hw.txq t).pushLimit ≠ 0 →
      (hw.txq t).skList.length ≤ (hw.txq t).pushLimit ∨ (hw.txq t).credits ≤ (hw.txq t).pushLimit) :
    LinkInv (AmlHw.hwqProcessLoop a2eInit q ts hw) := by
  induction ts generalizing hw with
  | nil => exact inv
  | cons t rest ih =>
    obtain ⟨on, own⟩ := linked t List.mem_cons_self
    obtain ⟨alone, nodup⟩ := List.nodup_cons.mp nodup
    have others (u : TxqId) (member : u ∈ rest) : (hw.hwqProcessTxq a2eInit q t).txq u = hw.txq u :=
      (hwqProcessTxq_core ledger (inv.fit t) on a2eInit q).1.others u fun same => alone (same ▸ member)
    unfold AmlHw.hwqProcessLoop
    rw [if_neg (by rw [(inv.fit t).sane on]; exact Bool.noConfusion)]
    split
    case isTrue => exact inv
    case isFalse =>
      refine ih (inv.hwqProcessTxq ledger on a2eInit (keeps t List.mem_cons_self))
        (ledger.hwqProcessTxq a2eInit own).1 nodup (fun u member => ?_) fun u member => ?_
      · rw [others u member]
        exact linked u (List.mem_cons_of_mem t member)
      · rw [others u member]
        exact keeps u (List.mem_cons_of_mem t member)

theorem LinkInv.hwqProcess (inv : LinkInv hw) (ledger : LedgerInv hw) (a2eInit : Skb → Bool)
    (keeps : hw.ProcessKeeps q) : LinkInv (hw.hwqProcess a2eInit q) := by
  have inv₁ : LinkInv (hw.modHwq q fun h => { h with needProcessing := false }) :=
    inv.neutral (.modHwq hw 0 q (.refl _)) rfl
  have ledger₁ := ledger.scheduled (.modHwq hw q (f := fun h => { h with needProcessing := false }) rfl rfl
    fun _ member => .inl member)
  refine inv₁.hwqProcessLoop a2eInit ledger₁ (inv.lists.nodup q) (fun t member => ?_) keeps
  exact ⟨(inv.lists.mem_iff.mp member).1, ledger.linked q t member⟩

theorem loopChecks_true (a2eInit : Skb → Bool) {ts : List TxqId} (ledger : LedgerInv hw) (nodup : ts.Nodup)
    (fit : ∀ t ∈ ts, Fit (hw.txq t) ∧ (hw.txq t).inHwqList = true ∧ txqHwq t = q) :
    false ∉ AmlHw.loopChecks a2eInit q ts hw := by
  induction ts generalizing hw with
  | nil => exact List.not_mem_nil
  | cons t rest ih =>
    obtain ⟨fit₁, on, own⟩ := fit t List.mem_cons_self
    obtain ⟨alone, nodup⟩ := List.nodup_cons.mp nodup
    have sane := fit₁.sane on
    unfold AmlHw.loopChecks
    rw [sane, if_neg Bool.noConfusion]
    refine fun fires => ?_
    rcases List.mem_cons.mp fires with now | later
    · exact nomatch now
    · split at later
      case isTrue => exact List.not_mem_nil later
      case isFalse =>
        refine ih (ledger.hwqProcessTxq a2eInit own).1 nodup (fun u member => ?_) later
        rw [(hwqProcessTxq_core ledger fit₁ on a2eInit q).1.others u fun same => alone (same ▸ member)]
        exact fit u (List.mem_cons_of_mem t member)

end Process

/-! ### Runs -/

/-- **What should hold between the sections.** -/
structure LinksRight (hw : AmlHw) : Prop where
  /-- A queue is in the list of its hardware queue, once, if its status says so, and in no other. -/
  listed : ∀ q t, (hw.hwq q).list.count t = if (hw.txq t).inHwqList = true ∧ (hw.txq t).hwq = q then 1 else 0
  ready : ∀ t, (hw.txq t).inHwqList = true →
    (hw.txq t).active = true ∧ (hw.txq t).skList ≠ [] ∧ 0 < (hw.txq t).credits
  awake : ∀ t, (hw.txq t).active = true → (hw.txq t).stop = ∅ → (hw.txq t).skList ≠ [] → (hw.txq t).inHwqList = true
  /-- The sanity check of `aml_hwq_process` does not fire. -/
  checks : ∀ a2eInit q, false ∉ hw.hwqChecks a2eInit q

/-- The calls that keep it. -/
def LinkGuard (hw : AmlHw) : Action → Prop
  | .txqInit t _ _ => (hw.txq t).inHwqList = false
  | .txqStart t reason =>
    (hw.txq t).active = true → .full ∈ reason → .full ∈ (hw.txq t).stop → 0 < (hw.txq t).credits
  | .txqStop t reason => (hw.txq t).active = true → reason = ∅ → (hw.txq t).stop = ∅ → (hw.txq t).skList = []
  | .hwqProcess q _ => hw.ProcessKeeps q
  | .txCfm hostid credits swRetry =>
    KnownCfm hw (.txCfm hostid credits swRetry) ∧ hw.CfmKeeps hostid (s8 credits) swRetry
  | .txqCreditUpdate t update => hw.UpdateKeeps t (s8 update)
  | .psBhTrafficReq i pktReq psId => hw.ReqKeeps i (pktReq % 2 ^ 16) psId
  | _ => True

instance (hw : AmlHw) : (a : Action) → Decidable (LinkGuard hw a)
  | .txqInit t _ _ => inferInstanceAs (Decidable ((hw.txq t).inHwqList = false))
  | .txqStart t reason => inferInstanceAs (Decidable (_ → StopReason.full ∈ reason → _ → 0 < (hw.txq t).credits))
  | .txqStop t reason => inferInstanceAs (Decidable (_ → reason = ∅ → _ → (hw.txq t).skList = []))
  | .hwqProcess q _ => inferInstanceAs (Decidable (hw.ProcessKeeps q))
  | .txCfm hostid credits swRetry =>
    inferInstanceAs (Decidable (KnownCfm hw (.txCfm hostid credits swRetry) ∧ hw.CfmKeeps hostid (s8 credits) swRetry))
  | .txqCreditUpdate t update => inferInstanceAs (Decidable (hw.UpdateKeeps t (s8 update)))
  | .psBhTrafficReq i pktReq psId => inferInstanceAs (Decidable (hw.ReqKeeps i (pktReq % 2 ^ 16) psId))
  | .txqDeinit .. | .startXmit .. | .amsduDismantle .. | .txqDropOldTraffic .. | .psBhEnable .. | .txTask ..
  | .pciShutdown | .txDrain => .isTrue trivial

theorem LinkGuard.known {hw : AmlHw} {a : Action} (guarded : LinkGuard hw a) : KnownCfm hw a := by
  cases a
  case txCfm => exact guarded.1
  all_goals exact trivial

namespace LinkInv

variable {hw hw' : AmlHw} {busType : BusType}

theorem step {a : Action} (inv : LinkInv hw) (ledger : LedgerInv hw) (guarded : LinkGuard hw a)
    (stepped : hw.step a = some hw') : LinkInv hw' := by
  cases a
  case txqInit t status psId => exact some.inj stepped ▸ inv.txqInit guarded status psId
  case txqDeinit t => exact some.inj stepped ▸ inv.txqDeinit t
  case txqStart t reason => exact some.inj stepped ▸ inv.txqStart t guarded
  case txqStop t reason => exact some.inj stepped ▸ inv.txqStop t guarded
  case startXmit t amlSta mgmt =>
    change (if (hw.txq t).active then some (hw.startXmit t amlSta mgmt) else none) = some hw' at stepped
    split at stepped
    case isFalse => cases stepped
    case isTrue active =>
      exact some.inj stepped ▸ (inv.prepared _).txqQueueSkb active _ false none
  case amsduDismantle t prev =>
    change (if prev ∈ (hw.txq t).skList then some (hw.amsduDismantle t prev) else none) = some hw' at stepped
    split at stepped
    case isFalse => cases stepped
    case isTrue queued =>
      have active : (hw.txq t).active = true := by
        by_contra off
        rw [(inv.fit t).empty (Bool.eq_false_iff.mpr off)] at queued
        exact List.not_mem_nil queued
      exact some.inj stepped ▸ (inv.prepared _).txqQueueSkb active _ false (some prev)
  case hwqProcess q a2eInit => exact some.inj stepped ▸ inv.hwqProcess ledger a2eInit guarded
  case txqDropOldTraffic t old => exact some.inj stepped ▸ inv.txqDropOldTraffic t old
  case txCfm hostid credits swRetry => exact some.inj stepped ▸ inv.txCfm guarded.2
  case txqCreditUpdate t update =>
    exact some.inj stepped ▸ inv.txqCreditUpdate ledger (s8_range update) guarded
  case psBhEnable i enable =>
    change (if i < staTableSize then some (hw.psBhEnable i enable) else none) = some hw' at stepped
    split at stepped
    case isFalse => cases stepped
    case isTrue inTable => exact some.inj stepped ▸ inv.psBhEnable ledger inTable enable
  case psBhTrafficReq i pktReq psId =>
    change (if i < staTableSize then some (hw.psBhTrafficReq i (pktReq % 2 ^ 16) psId) else none) = some hw' at stepped
    split at stepped
    case isFalse => cases stepped
    case isTrue => exact some.inj stepped ▸ inv.psBhTrafficReq guarded
  case txTask n => exact some.inj stepped ▸ inv.same rfl fun _ => .refl _
  case pciShutdown => exact some.inj stepped ▸ inv.same rfl fun _ => .refl _
  case txDrain => exact some.inj stepped ▸ inv.txDrain _

theorem right (inv : LinkInv hw) (ledger : LedgerInv hw) : LinksRight hw where
  listed := inv.lists
  ready t := (inv.fit t).ready
  awake t := (inv.fit t).awake
  checks a2eInit q := by
    refine loopChecks_true a2eInit (ledger.scheduled (.modHwq hw q rfl rfl fun _ member => .inl member))
      (inv.lists.nodup q) fun t member => ⟨inv.fit t, (inv.lists.mem_iff.mp member).1, ledger.linked q t member⟩

theorem of_reachable (reach : (schedSystem busType).Reachable LinkGuard hw) : LinkInv hw := by
  refine reach.invariant (init busType) fun s a s' before inv guarded stepped => ?_
  exact inv.step (.of_reachable (before.mono fun _ _ => LinkGuard.known)) guarded stepped

end LinkInv

/-- **In every run of such calls the linked queues are those that can be served.** -/
theorem links_right (busType : BusType) (hw : AmlHw) (reach : (schedSystem busType).Reachable LinkGuard hw) :
    LinksRight hw :=
  (LinkInv.of_reachable reach).right (.of_reachable (reach.mono fun _ _ => LinkGuard.known))

/-- Two buffers are pushed, one comes back as a retry, and the station asks for one of the two that wait then. -/
def askedFor : List Action :=
  [.txqInit 0 ∅ .legacy, .startXmit 0 (some 0) false, .startXmit 0 (some 0) false, .hwqProcess .be fun _ => true,
    .startXmit 0 (some 0) false, .psBhEnable 0 true, .txCfm 65537 0 true, .psBhTrafficReq 0 1 .legacy]

theorem links_right_askedFor : ∃ hw, (hw.txq 0).inHwqList = true ∧ (hw.txq 0).stop = {.staPs} ∧
    (hw.txq 0).skList = [1, 3] ∧ (hw.txq 0).pushLimit = 1 ∧ LinksRight hw := by
  have reach := System.reachable_of_run (schedSystem .sdio) LinkGuard askedFor (by decide +kernel)
  exact ⟨_, by decide +kernel, by decide +kernel, by decide +kernel, by decide +kernel, links_right .sdio _ reach⟩

/-- **A linked queue without a buffer**: its only buffer is a retry, and the firmware gives the queue one more
credit. -/
theorem linked_empty : ¬∀ hw, (schedSystem .sdio).Reachable KnownCfm hw → LinksRight hw := by
  intro right
  have reach := System.reachable_of_run (schedSystem .sdio) KnownCfm
    [.txqInit 0 ∅ .legacy, .startXmit 0 (some 0) false, .hwqProcess .be fun _ => true, .txCfm 65537 0 true,
      .txqCreditUpdate 0 1] (by decide +kernel)
  obtain ⟨-, some, -⟩ := (right _ reach).ready 0 (by decide +kernel)
  revert some
  decide +kernel

end W2l.Sched
