/-
**TX queues and the lists they are scheduled from.**

* `Lists` — a TX queue is in the list of its hardware queue, once, if its status says so, and in no other.
* `Moves` — between two states only one TX queue changed, and the lists follow its status. Closed under
  composition, and one lemma for each function of the source that works on one queue.
* `Fit` — **a queue that is linked can be served, and one that could be served is linked**; what `aml_txq_start`,
  `aml_txq_stop`, a new buffer and new credits keep of it.
* `LinkInv` — all queues are so.
-/

import Mathlib.Data.Finset.Lattice.Lemmas
import W2lDriver.Lib.FlaggedList
import W2lDriver.Sched.CreditUpdate
import W2lDriver.Sched.Handover

namespace W2l.Sched

open Cmd (BusType)
open Lib (Flagged)
open Function (update update_of_ne update_self)
open AmlHw (modTxq_of_ne modTxq_self)

/-! ### One queue changes -/

/-- **A queue is in the list of its hardware queue if its status says so.** -/
def Lists (hw : AmlHw) : Prop :=
  Flagged (fun q => (hw.hwq q).list) (fun t => (hw.txq t).inHwqList) fun t => (hw.txq t).hwq

/-- **Only the queue `t` changes**, and the lists follow its status. -/
structure Moves (t : TxqId) (hw hw' : AmlHw) : Prop where
  others : ∀ u, u ≠ t → hw'.txq u = hw.txq u
  own : (hw'.txq t).hwq = (hw.txq t).hwq
  lists : Lists hw → Lists hw'

namespace Moves

variable {hw hw' hw'' : AmlHw} {t : TxqId}

theorem trans (first : Moves t hw hw') (second : Moves t hw' hw'') : Moves t hw hw'' where
  others u other := (second.others u other).trans (first.others u other)
  own := second.own.trans first.own
  lists := second.lists ∘ first.lists

theorem same (txq : hw'.txq = hw.txq) (list : ∀ q, (hw'.hwq q).list.Perm (hw.hwq q).list) : Moves t hw hw' where
  others u _ := congrFun txq u
  own := by rw [txq]
  lists lists := by
    unfold Lists
    rw [txq]
    exact lists.perm list (fun _ => rfl) fun _ _ => rfl

theorem refl (hw : AmlHw) : Moves t hw hw := same rfl fun _ => .refl _

theorem ite {p : Prop} [Decidable p] (yes : Moves t hw hw') (no : Moves t hw hw'') :
    Moves t hw (if p then hw' else hw'') := by
  split
  · exact yes
  · exact no

section Functions

variable (hw : AmlHw) (t : TxqId) {hw' : AmlHw}

theorem modTxq {f : Txq → Txq} (linked : (f (hw.txq t)).inHwqList = (hw.txq t).inHwqList)
    (own : (f (hw.txq t)).hwq = (hw.txq t).hwq) : Moves t hw (hw.modTxq t f) where
  others u other := modTxq_of_ne hw t f other
  own := by rw [modTxq_self, own]
  lists lists := by
    have read {β : Type} (g : Txq → β) (keeps : g (f (hw.txq t)) = g (hw.txq t)) (u : TxqId) :
        g ((hw.modTxq t f).txq u) = g (hw.txq u) := by
      rcases eq_or_ne u t with rfl | other
      · rw [modTxq_self, keeps]
      · rw [modTxq_of_ne _ _ _ other]
    exact lists.perm (fun _ => .refl _) (read Txq.inHwqList linked) fun u _ => read Txq.hwq own u

theorem modSta (i : StaId) (f : Sta → Sta) : Moves t hw (hw.modSta i f) := same rfl fun _ => .refl _

theorem modHwq (q : HwqId) {f : Hwq → Hwq} (list : (f (hw.hwq q)).list.Perm (hw.hwq q).list) :
    Moves t hw (hw.modHwq q f) := by
  refine same rfl fun q' => ?_
  rcases eq_or_ne q' q with rfl | other
  · rw [AmlHw.modHwq_self]
    exact list
  · rw [AmlHw.modHwq_of_ne _ _ _ other]

theorem flags_modTxq {f : Txq → Txq} {linked : Bool} (written : (f (hw.txq t)).inHwqList = linked) :
    (fun u => ((hw.modTxq t f).txq u).inHwqList) = update (fun u => (hw.txq u).inHwqList) t linked := by
  funext u
  rcases eq_or_ne u t with rfl | other
  · rw [modTxq_self, update_self, written]
  · rw [modTxq_of_ne _ _ _ other, update_of_ne other]

theorem owns_modTxq {f : Txq → Txq} (own : (f (hw.txq t)).hwq = (hw.txq t).hwq) :
    (fun u => ((hw.modTxq t f).txq u).hwq) = fun u => (hw.txq u).hwq := by
  funext u
  rcases eq_or_ne u t with rfl | other
  · rw [modTxq_self, own]
  · rw [modTxq_of_ne _ _ _ other]

theorem relink (f : Txq → Txq) (linked : Bool) (txq : hw'.txq = (hw.modTxq t f).txq)
    (written : (f (hw.txq t)).inHwqList = linked) (own : (f (hw.txq t)).hwq = (hw.txq t).hwq)
    (lists : Lists hw → Flagged (fun q => (hw'.hwq q).list)
      (update (fun u => (hw.txq u).inHwqList) t linked) fun u => (hw.txq u).hwq) : Moves t hw hw' where
  others u other := by rw [txq, modTxq_of_ne _ _ _ other]
  own := by rw [txq, modTxq_self, own]
  lists before := by
    unfold Lists
    rw [txq, flags_modTxq hw t written, owns_modTxq hw t own]
    exact lists before

theorem txqAddToHwList : Moves t hw (hw.txqAddToHwList t) := by
  unfold AmlHw.txqAddToHwList
  split
  case isTrue => exact refl hw
  case isFalse unlinked =>
    refine relink hw t (fun x => { x with inHwqList := true }) true rfl rfl rfl fun lists => ?_
    have entered : (fun q => (((hw.modTxq t fun x => { x with inHwqList := true }).modHwq (hw.txq t).hwq fun h =>
        { h with list := h.list ++ [t], needProcessing := true }).hwq q).list) =
        update (fun q => (hw.hwq q).list) (hw.txq t).hwq ((hw.hwq (hw.txq t).hwq).list ++ [t]) := by
      funext q
      rcases eq_or_ne q (hw.txq t).hwq with rfl | other
      · rw [AmlHw.modHwq_self, update_self]
        rfl
      · rw [AmlHw.modHwq_of_ne _ _ _ other, update_of_ne other]
        rfl
    rw [entered]
    exact lists.add (Bool.eq_false_iff.mpr unlinked)

theorem txqDelFromHwList : Moves t hw (hw.txqDelFromHwList t) := by
  unfold AmlHw.txqDelFromHwList
  split
  case isTrue =>
    refine relink hw t (fun x => { x with inHwqList := false }) false rfl rfl rfl fun lists => ?_
    exact lists.remove t
  case isFalse => exact refl hw

theorem txqStart (reason : Finset StopReason) : Moves t hw (hw.txqStart t reason) := by
  unfold AmlHw.txqStart
  refine .ite ?_ (refl hw)
  have cleared := modTxq hw t (f := fun x => { x with stop := x.stop \ reason }) rfl rfl
  exact .ite (cleared.trans (txqAddToHwList _ t)) cleared

theorem txqStop (reason : Finset StopReason) : Moves t hw (hw.txqStop t reason) := by
  unfold AmlHw.txqStop
  refine .ite ?_ (refl hw)
  exact (modTxq hw t rfl rfl).trans (txqDelFromHwList _ t)

theorem psQueued : Moves t hw (hw.psQueued t) := by
  unfold AmlHw.psQueued
  split
  case h_1 => exact refl hw
  case h_2 i _ =>
    refine .ite ?_ (refl hw)
    exact .ite (same rfl fun _ => .refl _) (same rfl fun _ => .refl _)

theorem queue_inHwqList (x : Txq) (skb : Skb) (retry : Bool) (skbPrev : Option Skb) :
    (x.queue skb retry skbPrev).inHwqList = x.inHwqList := by
  unfold Txq.queue
  split <;> rfl

theorem txqQueueSkb (skb : Skb) (retry : Bool) (skbPrev : Option Skb) :
    Moves t hw (hw.txqQueueSkb skb t retry skbPrev).1 := by
  have queued : Moves t hw ((hw.psQueued t).modTxq t fun x => x.queue skb retry skbPrev) :=
    (psQueued hw t).trans (modTxq _ t (queue_inHwqList _ skb retry skbPrev) (LedgerInv.queue_hwq _ skb retry skbPrev))
  have flowed := Moves.ite (p := (((hw.psQueued t).modTxq t fun x => x.queue skb retry skbPrev).txq t).netdev = true ∧
      amlNdevFlowCtrlStop < (((hw.psQueued t).modTxq t fun x => x.queue skb retry skbPrev).txq t).skList.length)
    (queued.trans (modTxq _ t (f := fun x => { x with ndevFlowCtrl := true }) rfl rfl)) queued
  simp only [AmlHw.txqQueueSkb, apply_ite Prod.fst]
  exact .ite flowed (flowed.trans (txqAddToHwList _ t))

theorem txqDropSkb (skb : Skb) (retryPacket : Bool) : Moves t hw (hw.txqDropSkb t skb retryPacket) := by
  refine modTxq hw t ?_ (Scheduled.drop_hwq _ skb retryPacket)
  cases retryPacket <;> rfl

theorem psDropped : Moves t hw (hw.psDropped t) := by
  unfold AmlHw.psDropped
  split
  case h_1 => exact refl hw
  case h_2 i _ =>
    refine .ite ?_ (refl hw)
    have told : Moves t hw
        (if ((hw.modPktReady i (hw.txq t).psId u16Dec).sta i).pktReady (hw.txq t).psId = 0 then
          (hw.modPktReady i (hw.txq t).psId u16Dec).setTrafficStatus i false (hw.txq t).psId
        else hw.modPktReady i (hw.txq t).psId u16Dec) :=
      .ite (same rfl fun _ => .refl _) (same rfl fun _ => .refl _)
    have served := told.trans (modSta _ t i fun x => { x with
      spCnt := update x.spCnt (hw.txq t).psId (u16Dec (x.spCnt (hw.txq t).psId)) })
    exact .ite (.ite (served.trans (modTxq _ t rfl rfl)) served) told

end Functions

end Moves

/-! ### A queue that fits -/

namespace Txq

def core (x : Txq) : Bool × Bool × Finset StopReason × List Skb × Int × Nat × Nat :=
  (x.active, x.inHwqList, x.stop, x.skList, x.credits, x.nbRetry, x.pktPushed)

end Txq

/-- **A queue that is linked can be served, and one that could be served is linked.** -/
structure Fit (x : Txq) : Prop where
  ready : x.inHwqList = true → x.active = true ∧ x.skList ≠ [] ∧ 0 < x.credits
  awake : x.active = true → x.stop = ∅ → x.skList ≠ [] → x.inHwqList = true
  /-- A queue that is not in use has no buffers. -/
  empty : x.active = false → x.skList = []
  /-- Without credits it is stopped for that. -/
  full : x.active = true → x.credits ≤ 0 → .full ∈ x.stop
  retries : x.nbRetry ≤ x.skList.length
  range : -128 ≤ x.credits ∧ x.credits < 128
  pushed : x.pktPushed < 256

theorem s8_range (x : Int) : -128 ≤ s8 x ∧ s8 x < 128 := by
  unfold s8
  have low := Int.le_bmod (x := x) (m := 256) (by decide)
  have high := Int.bmod_lt (x := x) (m := 256) (by decide)
  omega

namespace Fit

variable {x y : Txq}

theorem congr (fit : Fit x) (same : y.core = x.core) : Fit y := by
  obtain ⟨active, rest⟩ := Prod.mk.inj same
  obtain ⟨inHwqList, rest⟩ := Prod.mk.inj rest
  obtain ⟨stop, rest⟩ := Prod.mk.inj rest
  obtain ⟨skList, rest⟩ := Prod.mk.inj rest
  obtain ⟨credits, rest⟩ := Prod.mk.inj rest
  obtain ⟨nbRetry, pktPushed⟩ := Prod.mk.inj rest
  refine ⟨?_, ?_, ?_, ?_, ?_, ?_, pktPushed ▸ fit.pushed⟩
  · rw [inHwqList, active, skList, credits]
    exact fit.ready
  · rw [active, stop, skList, inHwqList]
    exact fit.awake
  · rw [active, skList]
    exact fit.empty
  · rw [active, credits, stop]
    exact fit.full
  · rw [nbRetry, skList]
    exact fit.retries
  · rw [credits]
    exact fit.range

theorem init (t : TxqId) (status : Finset StopReason) (psId : PsId) : Fit (.init t status psId) where
  ready linked := nomatch linked
  awake _ _ some := absurd rfl some
  empty _ := rfl
  full _ none := absurd (show nxTxqInitialCredits ≤ 0 from none) (by decide)
  retries := Nat.le_refl 0
  range := show -128 ≤ nxTxqInitialCredits ∧ nxTxqInitialCredits < 128 by decide
  pushed := show 0 < 256 by decide

section

variable (fit : Fit x)

include fit

theorem stopped {reason : Finset StopReason}
    (stops : x.active = true → reason = ∅ → x.stop = ∅ → x.skList = []) : Fit (x.stopped reason) where
  ready linked := nomatch linked
  awake active none some := by
    obtain ⟨stop, reason⟩ := Finset.union_eq_empty.mp none
    exact absurd (stops active reason stop) some
  empty := fit.empty
  full active none := Finset.mem_union_left _ (fit.full active none)
  retries := fit.retries
  range := fit.range
  pushed := fit.pushed

theorem started (active : x.active = true) {reason : Finset StopReason}
    (some : .full ∈ reason → .full ∈ x.stop → 0 < x.credits) : Fit (x.started reason) := by
  have full (none : x.credits ≤ 0) : StopReason.full ∈ x.stop \ reason := by
    have stops := fit.full active none
    exact Finset.mem_sdiff.mpr ⟨stops, fun member => absurd (some member stops) (not_lt.mpr none)⟩
  unfold Txq.started
  split
  case isFalse => exact fit
  case isTrue =>
    refine ⟨fun linked => ?_, fun _ none some => ?_, fit.empty, fun _ => full, fit.retries, fit.range, fit.pushed⟩
    · rcases Bool.or_eq_true _ _ ▸ linked with linked | enters
      · exact fit.ready linked
      · obtain ⟨none, ready⟩ := (Bool.and_eq_true _ _).mp enters
        refine ⟨active, ?_, not_le.mp fun none_ => ?_⟩
        · simpa [Txq.skbReady] using ready
        · exact Finset.notMem_empty _ (of_decide_eq_true none ▸ full none_)
    · show (x.inHwqList || (decide (x.stop \ reason = ∅) && x.skbReady)) = true
      have ready : x.skbReady = true := by simpa [Txq.skbReady] using some
      rw [show x.stop \ reason = ∅ from none, ready]
      simp

theorem credited (active : x.active = true) {credits : Int}
    (range : -128 ≤ credits ∧ credits < 128) : Fit (x.credited credits) := by
  unfold Txq.credited
  split
  case isTrue none =>
    refine ⟨fun linked => (nomatch linked), fun _ stop => ?_, fit.empty, fun _ _ => ?_, fit.retries, range,
      fit.pushed⟩
    · exact absurd (Finset.union_eq_empty.mp stop).2 (Finset.singleton_ne_empty _)
    · exact Finset.mem_union_right _ (Finset.mem_singleton_self _)
  case isFalse some =>
    have fit' : Fit { x with credits } :=
      ⟨fun linked => ⟨(fit.ready linked).1, (fit.ready linked).2.1, not_le.mp some⟩, fit.awake, fit.empty,
        fun _ none => absurd none some, fit.retries, range, fit.pushed⟩
    exact fit'.started active fun _ _ => not_le.mp some

theorem purged {k : ℕ} (left : x.inHwqList = true → k < x.skList.length) : Fit (x.purged k) where
  ready linked := by
    obtain ⟨active, -, credits⟩ := fit.ready linked
    refine ⟨active, fun none => ?_, credits⟩
    exact absurd (List.drop_eq_nil_iff.mp none) (not_le.mpr (left linked))
  awake active stop some := fit.awake active stop fun none => some (by
    show x.skList.drop k = []
    rw [none, List.drop_nil])
  empty off := by
    show x.skList.drop k = []
    rw [fit.empty off, List.drop_nil]
  full := fit.full
  retries := by
    show x.nbRetry - k ≤ (x.skList.drop k).length
    rw [List.length_drop]
    exact Nat.sub_le_sub_right fit.retries k
  range := fit.range
  pushed := fit.pushed

theorem linked (some : x.skList ≠ []) (active : x.active = true) (credits : 0 < x.credits) :
    Fit { x with inHwqList := true } where
  ready _ := ⟨active, some, credits⟩
  awake _ _ _ := rfl
  empty := fit.empty
  full := fit.full
  retries := fit.retries
  range := fit.range
  pushed := fit.pushed

theorem queue (active : x.active = true) (skb : Skb) (retry : Bool) (skbPrev : Option Skb)
    (flow : Bool) :
    let y : Txq := { x.queue skb retry skbPrev with ndevFlowCtrl := flow }
    Fit (if y.isStopped then y else { y with inHwqList := true }) := by
  intro y
  have perm := LedgerInv.perm_queue x skb retry skbPrev
  have length : y.skList.length = x.skList.length + 1 := perm.length_eq
  have some : y.skList ≠ [] := List.ne_nil_of_length_pos (by rw [length]; exact Nat.succ_pos _)
  have kept : y.active = x.active ∧ y.inHwqList = x.inHwqList ∧ y.stop = x.stop ∧ y.credits = x.credits ∧
      y.nbRetry ≤ x.nbRetry + 1 ∧ y.pktPushed = x.pktPushed := by
    show (x.queue skb retry skbPrev).active = _ ∧ (x.queue skb retry skbPrev).inHwqList = _ ∧
      (x.queue skb retry skbPrev).stop = _ ∧ (x.queue skb retry skbPrev).credits = _ ∧
      (x.queue skb retry skbPrev).nbRetry ≤ _ ∧ (x.queue skb retry skbPrev).pktPushed = _
    unfold Txq.queue
    split
    · exact ⟨rfl, rfl, rfl, rfl, Nat.le_refl _, rfl⟩
    · exact ⟨rfl, rfl, rfl, rfl, Nat.le_succ _, rfl⟩
  obtain ⟨active', inHwqList, stop, credits, nbRetry, pktPushed⟩ := kept
  have retries : y.nbRetry ≤ y.skList.length := by
    rw [length]
    exact nbRetry.trans (Nat.succ_le_succ fit.retries)
  have full (none : y.credits ≤ 0) : StopReason.full ∈ y.stop := by
    rw [stop]
    exact fit.full active (credits ▸ none)
  split
  case isTrue stops =>
    refine ⟨fun linked => ⟨active'.trans active, some, ?_⟩, fun _ none => ?_, fun off => ?_, fun _ => full, retries, ?_,
      pktPushed.trans_lt fit.pushed⟩
    · rw [credits]
      exact (fit.ready (inHwqList ▸ linked)).2.2
    · exact absurd none (of_decide_eq_true stops)
    · exact nomatch (active'.trans active).symm.trans off
    · rw [credits]
      exact fit.range
  case isFalse runs =>
    have none : y.stop = ∅ := by
      by_contra stops
      exact runs (decide_eq_true stops)
    refine ⟨fun _ => ⟨active'.trans active, some, not_le.mp fun noCredits => ?_⟩, fun _ _ _ => rfl, fun off => ?_,
      fun _ => full, retries, ?_, pktPushed.trans_lt fit.pushed⟩
    · exact Finset.notMem_empty _ (none ▸ full noCredits)
    · exact nomatch (active'.trans active).symm.trans off
    · show -128 ≤ y.credits ∧ y.credits < 128
      rw [credits]
      exact fit.range

end

end Fit

/-! ### All queues -/

/-- **The lists follow the statuses, and every queue fits.** -/
structure LinkInv (hw : AmlHw) : Prop where
  lists : Lists hw
  fit : ∀ t, Fit (hw.txq t)

namespace LinkInv

variable {hw hw' : AmlHw} {t : TxqId}

section

variable (inv : LinkInv hw)

include inv

theorem moves (moved : Moves t hw hw') (fit : Fit (hw'.txq t)) : LinkInv hw' where
  lists := moved.lists inv.lists
  fit u := by
    rcases eq_or_ne u t with rfl | other
    · exact fit
    · rw [moved.others u other]
      exact inv.fit u

theorem neutral (moved : Moves t hw hw') (same : (hw'.txq t).core = (hw.txq t).core) :
    LinkInv hw' := inv.moves moved ((inv.fit t).congr same)

theorem same (txq : hw'.txq = hw.txq) (list : ∀ q, (hw'.hwq q).list.Perm (hw.hwq q).list) :
    LinkInv hw' := inv.neutral (.same (t := 0) txq list) (by rw [txq])

theorem modSta (i : StaId) (f : Sta → Sta) : LinkInv (hw.modSta i f) :=
  inv.same rfl fun _ => .refl _

theorem modTxq_core (t : TxqId) {f : Txq → Txq} (same : (f (hw.txq t)).core = (hw.txq t).core)
    (own : (f (hw.txq t)).hwq = (hw.txq t).hwq) : LinkInv (hw.modTxq t f) := by
  refine inv.neutral (.modTxq hw t ?_ own) ?_
  · exact congrArg (fun core => core.2.1) same
  · rw [modTxq_self, same]

end

theorem init (busType : BusType) : LinkInv (hwInit busType) where
  lists _ _ := List.count_nil
  fit _ := ⟨fun linked => (nomatch linked), fun active => (nomatch active), fun _ => rfl,
    fun active => (nomatch active), Nat.le_refl 0, show -128 ≤ (0 : Int) ∧ (0 : Int) < 128 by decide,
    show 0 < 256 by decide⟩

/-! ### Queues are made and removed -/

theorem txqInit (inv : LinkInv hw) (unlinked : (hw.txq t).inHwqList = false) (status : Finset StopReason)
    (psId : PsId) : LinkInv (hw.txqInit t status psId) where
  lists := by
    have read (u : TxqId) (other : u ≠ t) : (hw.txqInit t status psId).txq u = hw.txq u :=
      modTxq_of_ne hw t _ other
    refine inv.lists.perm (fun _ => .refl _) (fun u => ?_) fun u linked => ?_
    · rcases eq_or_ne u t with rfl | other
      · exact (congrArg Txq.inHwqList (modTxq_self hw u _)).trans unlinked.symm
      · rw [read u other]
    · rw [read u fun same => ?_]
      rw [same, unlinked] at linked
      cases linked
  fit u := by
    rcases eq_or_ne u t with rfl | other
    · exact (modTxq_self hw u _).symm ▸ .init u _ psId
    · exact (modTxq_of_ne hw t _ other).symm ▸ inv.fit u

theorem flush (hw : AmlHw) (skbs : List Skb) (listed : (hw.txq t).skList = skbs) (few : (hw.txq t).nbRetry ≤ skbs.length) :
    let after := skbs.foldl (fun hw skb => hw.txqDropSkb t skb (decide ((hw.txq t).nbRetry ≠ 0))) hw
    Moves t hw after ∧ (after.txq t).skList = [] ∧ (after.txq t).nbRetry = 0 ∧
      (after.txq t).active = (hw.txq t).active ∧ (after.txq t).inHwqList = (hw.txq t).inHwqList ∧
      (after.txq t).credits = (hw.txq t).credits ∧ (after.txq t).pktPushed = (hw.txq t).pktPushed := by
  induction skbs generalizing hw with
  | nil => exact ⟨.refl hw, listed, Nat.le_zero.mp few, rfl, rfl, rfl, rfl⟩
  | cons skb rest ih =>
    have dropped : (hw.txqDropSkb t skb (decide ((hw.txq t).nbRetry ≠ 0))).txq t =
        (hw.txq t).drop skb (decide ((hw.txq t).nbRetry ≠ 0)) := modTxq_self hw t _
    have kept (retry : Bool) : ((hw.txq t).drop skb retry).active = (hw.txq t).active ∧
        ((hw.txq t).drop skb retry).inHwqList = (hw.txq t).inHwqList ∧
        ((hw.txq t).drop skb retry).credits = (hw.txq t).credits ∧
        ((hw.txq t).drop skb retry).pktPushed = (hw.txq t).pktPushed := by
      cases retry <;> exact ⟨rfl, rfl, rfl, rfl⟩
    have fewer : ((hw.txq t).drop skb (decide ((hw.txq t).nbRetry ≠ 0))).nbRetry = (hw.txq t).nbRetry - 1 := by
      by_cases some : (hw.txq t).nbRetry ≠ 0
      · rw [decide_eq_true some]
        rfl
      · rw [decide_eq_false some]
        show (hw.txq t).nbRetry = _
        omega
    obtain ⟨moved, skList, nbRetry, active, linked, credits, pushed⟩ := ih
      (hw.txqDropSkb t skb (decide ((hw.txq t).nbRetry ≠ 0)))
      (by rw [dropped, Scheduled.drop_skList, listed, List.erase_cons_head])
      (by rw [dropped, fewer]; rw [List.length_cons] at few; omega)
    rw [dropped] at active linked credits pushed
    exact ⟨(Moves.txqDropSkb hw t skb _).trans moved, skList, nbRetry, active.trans (kept _).1,
      linked.trans (kept _).2.1, credits.trans (kept _).2.2.1, pushed.trans (kept _).2.2.2⟩

theorem txqFlush (hw : AmlHw) (few : (hw.txq t).nbRetry ≤ (hw.txq t).skList.length) :
    Moves t hw (hw.txqFlush t) ∧ ((hw.txqFlush t).txq t).skList = [] ∧ ((hw.txqFlush t).txq t).nbRetry = 0 ∧
      ((hw.txqFlush t).txq t).active = (hw.txq t).active ∧
      ((hw.txqFlush t).txq t).inHwqList = (hw.txq t).inHwqList ∧
      ((hw.txqFlush t).txq t).credits = (hw.txq t).credits ∧
      ((hw.txqFlush t).txq t).pktPushed = (hw.txq t).pktPushed := flush hw (hw.txq t).skList rfl few

section

variable (inv : LinkInv hw)

include inv

theorem txqDeinit (t : TxqId) : LinkInv (hw.txqDeinit t) := by
  unfold AmlHw.txqDeinit
  split
  case isFalse => exact inv
  case isTrue =>
    have off : ((hw.txqDelFromHwList t).modTxq t fun x => { x with active := false }).txq t =
        { hw.txq t with inHwqList := false, active := false } := by
      rw [modTxq_self, txqDelFromHwList_txq]
    have moved : Moves t hw ((hw.txqDelFromHwList t).modTxq t fun x => { x with active := false }) :=
      (Moves.txqDelFromHwList hw t).trans (.modTxq _ t rfl rfl)
    obtain ⟨flushed, skList, nbRetry, active, linked, credits, pushed⟩ := txqFlush (t := t)
      ((hw.txqDelFromHwList t).modTxq t fun x => { x with active := false }) (by
        rw [off]
        exact (inv.fit t).retries)
    rw [off] at active linked credits pushed
    refine inv.moves (moved.trans flushed) ⟨fun on => ?_, fun on => ?_, fun _ => skList, fun on => ?_, ?_, ?_,
      pushed ▸ (inv.fit t).pushed⟩
    · rw [linked] at on
      cases on
    · rw [active] at on
      cases on
    · rw [active] at on
      cases on
    · rw [nbRetry]
      exact Nat.zero_le _
    · rw [credits]
      exact (inv.fit t).range

/-! ### Queues are stopped and started -/

theorem txqStart (t : TxqId) {reason : Finset StopReason}
    (some : (hw.txq t).active = true → .full ∈ reason → .full ∈ (hw.txq t).stop → 0 < (hw.txq t).credits) :
    LinkInv (hw.txqStart t reason) := by
  by_cases active : (hw.txq t).active = true
  · refine inv.moves (.txqStart hw t reason) ?_
    rw [txqStart_txq hw t active]
    exact (inv.fit t).started active (some active)
  · unfold AmlHw.txqStart
    rw [if_neg fun both => active both.1]
    exact inv

theorem txqStop (t : TxqId) {reason : Finset StopReason}
    (stops : (hw.txq t).active = true → reason = ∅ → (hw.txq t).stop = ∅ → (hw.txq t).skList = []) :
    LinkInv (hw.txqStop t reason) := by
  by_cases active : (hw.txq t).active = true
  · refine inv.moves (.txqStop hw t reason) ?_
    rw [txqStop_txq hw t active]
    exact (inv.fit t).stopped stops
  · unfold AmlHw.txqStop
    rw [if_neg active]
    exact inv

theorem txqStaStart (i : StaId) : LinkInv (hw.txqStaStart i {.staPs}) := by
  unfold AmlHw.txqStaStart
  induction staTxqs i generalizing hw with
  | nil => exact inv
  | cons t rest ih => exact ih (inv.txqStart t fun _ full => absurd full (by decide))

theorem txqStaStop (i : StaId) : LinkInv (hw.txqStaStop i {.staPs}) := by
  unfold AmlHw.txqStaStop
  induction staTxqs i generalizing hw with
  | nil => exact inv
  | cons t rest ih => exact ih (inv.txqStop t fun _ none => absurd none (by decide))

end

/-! ### Buffers are queued -/

theorem txqQueueSkb_txq (hw : AmlHw) (skb : Skb) (t : TxqId) (retry : Bool) (skbPrev : Option Skb) :
    ∃ flow : Bool, (hw.txqQueueSkb skb t retry skbPrev).1.txq t =
      let y : Txq := { (hw.txq t).queue skb retry skbPrev with ndevFlowCtrl := flow }
      if y.isStopped then y else { y with inHwqList := true } := by
  have txq : (hw.psQueued t).txq = hw.txq := by
    unfold AmlHw.psQueued
    split
    · rfl
    · split
      · dsimp only
        split <;> rfl
      · rfl
  have queued : ((hw.psQueued t).modTxq t fun x => x.queue skb retry skbPrev).txq t =
      (hw.txq t).queue skb retry skbPrev := by
    rw [modTxq_self, txq]
  have ends (hw₁ : AmlHw) : (if (hw₁.txq t).isStopped then (hw₁, false) else (hw₁.txqAddToHwList t, true)).1.txq t =
      if (hw₁.txq t).isStopped then hw₁.txq t else { hw₁.txq t with inHwqList := true } := by
    split
    · rfl
    · exact txqAddToHwList_txq hw₁ t
  unfold AmlHw.txqQueueSkb
  dsimp only
  rw [ends]
  split
  case isTrue =>
    refine ⟨true, ?_⟩
    rw [modTxq_self, queued]
  case isFalse =>
    refine ⟨((hw.txq t).queue skb retry skbPrev).ndevFlowCtrl, ?_⟩
    rw [queued]

theorem txqQueueSkb (inv : LinkInv hw) (active : (hw.txq t).active = true) (skb : Skb) (retry : Bool)
    (skbPrev : Option Skb) : LinkInv (hw.txqQueueSkb skb t retry skbPrev).1 := by
  obtain ⟨flow, queued⟩ := txqQueueSkb_txq hw skb t retry skbPrev
  refine inv.moves (.txqQueueSkb hw t skb retry skbPrev) ?_
  rw [queued]
  exact (inv.fit t).queue active skb retry skbPrev flow

theorem prepared (inv : LinkInv hw) (swTxhdr : SwTxhdr) : LinkInv (hw.prepared swTxhdr) :=
  inv.same rfl fun _ => .refl _

end LinkInv

end W2l.Sched
