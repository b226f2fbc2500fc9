/-
**What scheduling leaves alone.**

* `Scheduled` — between two states nothing was pushed, confirmed or queued: the host ids, the headers
  and the credits of the hardware queues are the same, and no queue has a buffer it did not have.
  Closed under composition, and one lemma for each function of the source that is so.
* `txPushCharge_*` — what `aml_tx_push` changes before it calls the IPC.
-/

import W2lDriver.Sched.Machine

namespace W2l.Sched


/-- **`hw'` comes from `hw` by scheduling, and by dropping buffers.** -/
structure Scheduled (hw hw' : AmlHw) : Prop where
  env : hw'.env = hw.env
  busType : hw'.busType = hw.busType
  pciShutdown : hw'.pciShutdown = hw.pciShutdown
  nextSkb : hw'.nextSkb = hw.nextSkb
  swTxhdr : hw'.swTxhdr = hw.swTxhdr
  txDescSave : hw'.txDescSave = hw.txDescSave
  dmaDescs : hw'.dmaDescs = hw.dmaDescs
  credits : ∀ q, (hw'.hwq q).credits = (hw.hwq q).credits
  size : ∀ q, (hw'.hwq q).size = (hw.hwq q).size
  txqHwq : ∀ t, (hw'.txq t).hwq = (hw.txq t).hwq
  skList : ∀ t, (hw'.txq t).skList.Sublist (hw.txq t).skList
  /-- A queue is linked only in the list of its hardware queue. -/
  linked : ∀ q t, t ∈ (hw'.hwq q).list → t ∈ (hw.hwq q).list ∨ (hw.txq t).hwq = q

namespace Scheduled

variable {hw hw' hw'' : AmlHw}

theorem refl (hw : AmlHw) : Scheduled hw hw :=
  ⟨rfl, rfl, rfl, rfl, rfl, rfl, rfl, fun _ => rfl, fun _ => rfl, fun _ => rfl, fun _ => .refl _,
    fun _ _ member => .inl member⟩

theorem trans (first : Scheduled hw hw') (second : Scheduled hw' hw'') : Scheduled hw hw'' where
  env := second.env.trans first.env
  busType := second.busType.trans first.busType
  pciShutdown := second.pciShutdown.trans first.pciShutdown
  nextSkb := second.nextSkb.trans first.nextSkb
  swTxhdr := second.swTxhdr.trans first.swTxhdr
  txDescSave := second.txDescSave.trans first.txDescSave
  dmaDescs := second.dmaDescs.trans first.dmaDescs
  credits q := (second.credits q).trans (first.credits q)
  size q := (second.size q).trans (first.size q)
  txqHwq t := (second.txqHwq t).trans (first.txqHwq t)
  skList t := (second.skList t).trans (first.skList t)
  linked q t member := by
    rcases second.linked q t member with before | own
    · exact first.linked q t before
    · exact .inr ((first.txqHwq t).symm.trans own)

theorem ite {p : Prop} [Decidable p] (yes : Scheduled hw hw') (no : Scheduled hw hw'') :
    Scheduled hw (if p then hw' else hw'') := by
  split
  · exact yes
  · exact no

theorem foldl {α : Type} {f : AmlHw → α → AmlHw} (each : ∀ hw x, Scheduled hw (f hw x))
    (xs : List α) (hw : AmlHw) : Scheduled hw (xs.foldl f hw) := by
  induction xs generalizing hw with
  | nil => exact refl hw
  | cons x rest ih => exact (each hw x).trans (ih (f hw x))

/-! ### Changes of one structure -/

theorem modTxq (hw : AmlHw) (t : TxqId) {f : Txq → Txq} (hwq : (f (hw.txq t)).hwq = (hw.txq t).hwq)
    (skList : (f (hw.txq t)).skList.Sublist (hw.txq t).skList) :
    Scheduled hw (hw.modTxq t f) := by
  refine ⟨rfl, rfl, rfl, rfl, rfl, rfl, rfl, fun _ => rfl, fun _ => rfl, fun t' => ?_, fun t' => ?_,
    fun _ _ member => .inl member⟩
  · rcases eq_or_ne t' t with rfl | other
    · rw [AmlHw.modTxq_self, hwq]
    · rw [AmlHw.modTxq_of_ne _ _ _ other]
  · rcases eq_or_ne t' t with rfl | other
    · rw [AmlHw.modTxq_self]
      exact skList
    · rw [AmlHw.modTxq_of_ne _ _ _ other]

theorem modSta (hw : AmlHw) (i : StaId) (f : Sta → Sta) : Scheduled hw (hw.modSta i f) :=
  ⟨rfl, rfl, rfl, rfl, rfl, rfl, rfl, fun _ => rfl, fun _ => rfl, fun _ => rfl, fun _ => .refl _,
    fun _ _ member => .inl member⟩

theorem modHwq (hw : AmlHw) (q : HwqId) {f : Hwq → Hwq}
    (credits : (f (hw.hwq q)).credits = (hw.hwq q).credits)
    (size : (f (hw.hwq q)).size = (hw.hwq q).size)
    (linked : ∀ t ∈ (f (hw.hwq q)).list, t ∈ (hw.hwq q).list ∨ (hw.txq t).hwq = q) :
    Scheduled hw (hw.modHwq q f) := by
  refine ⟨rfl, rfl, rfl, rfl, rfl, rfl, rfl, fun q' => ?_, fun q' => ?_, fun _ => rfl,
    fun _ => .refl _, fun q' t member => ?_⟩ <;> rcases eq_or_ne q' q with rfl | other
  · rw [AmlHw.modHwq_self, credits]
  · rw [AmlHw.modHwq_of_ne _ _ _ other]
  · rw [AmlHw.modHwq_self, size]
  · rw [AmlHw.modHwq_of_ne _ _ _ other]
  · rw [AmlHw.modHwq_self] at member
    exact linked t member
  · rw [AmlHw.modHwq_of_ne _ _ _ other] at member
    exact .inl member

/-! ### The list of a hardware queue -/

section Functions

variable (hw : AmlHw) (t : TxqId) (q : HwqId) (i : StaId)

theorem txqAddToHwList : Scheduled hw (hw.txqAddToHwList t) := by
  unfold AmlHw.txqAddToHwList
  split
  case isTrue => exact refl hw
  case isFalse =>
    refine (modTxq hw t (by rfl) (.refl _)).trans (modHwq _ _ rfl rfl fun t' member => ?_)
    rcases List.mem_append.mp member with before | last
    · exact .inl before
    · obtain rfl := List.mem_singleton.mp last
      rw [AmlHw.modTxq_self]
      exact .inr rfl

theorem txqDelFromHwList : Scheduled hw (hw.txqDelFromHwList t) := by
  unfold AmlHw.txqDelFromHwList
  split
  case isTrue =>
    have flagged := modTxq hw t (f := fun x => { x with inHwqList := false }) rfl (.refl _)
    exact { flagged with
      credits := fun _ => rfl
      size := fun _ => rfl
      linked := fun _ _ member => .inl (List.mem_of_mem_erase member) }
  case isFalse => exact refl hw

section

variable (reason : Finset StopReason)

include reason

theorem txqStart : Scheduled hw (hw.txqStart t reason) := by
  unfold AmlHw.txqStart
  refine .ite ?_ (refl hw)
  have cleared := modTxq hw t (f := fun x => { x with stop := x.stop \ reason }) rfl (.refl _)
  exact .ite (cleared.trans (txqAddToHwList _ t)) cleared

theorem txqStop : Scheduled hw (hw.txqStop t reason) := by
  unfold AmlHw.txqStop
  refine .ite ?_ (refl hw)
  exact (modTxq hw t (by rfl) (.refl _)).trans (txqDelFromHwList _ t)

theorem txqStaStart : Scheduled hw (hw.txqStaStart i reason) :=
  foldl (fun hw t => txqStart hw t reason) _ hw

theorem txqStaStop : Scheduled hw (hw.txqStaStop i reason) :=
  foldl (fun hw t => txqStop hw t reason) _ hw

end

theorem mem_of_mem_rotateLeft {α : Type} {a : α} {xs : List α} {n : Nat}
    (member : a ∈ xs.rotateLeft n) : a ∈ xs := by
  simp only [List.rotateLeft] at member
  split at member
  case isTrue => exact member
  case isFalse =>
    rcases List.mem_append.mp member with later | earlier
    · exact List.mem_of_mem_drop later
    · exact List.mem_of_mem_take earlier

theorem hwqReschedule (txqEmpty : Bool) : Scheduled hw (hw.hwqReschedule q t txqEmpty) := by
  unfold AmlHw.hwqReschedule
  refine .ite ?_ (.ite ?_ (refl hw))
  · exact (txqDelFromHwList hw t).trans (modTxq _ t rfl (.refl _))
  · refine (modTxq hw t (by rfl) (.refl _)).trans (modHwq _ q rfl rfl fun t' member => ?_)
    exact .inl (mem_of_mem_rotateLeft member)

/-! ### Power save -/

theorem setTrafficStatus (available : Bool) (psId : PsId) :
    Scheduled hw (hw.setTrafficStatus i available psId) := modSta hw i _

variable (psId : PsId)

theorem modPktReady (f : Nat → Nat) : Scheduled hw (hw.modPktReady i psId f) :=
  modSta hw i _

theorem modSpCnt (f : Nat → Nat) : Scheduled hw (hw.modSpCnt i psId f) :=
  modSta hw i _

theorem psQueued : Scheduled hw (hw.psQueued t) := by
  unfold AmlHw.psQueued
  split
  case h_1 => exact refl hw
  case h_2 i _ =>
    refine .ite ?_ (refl hw)
    have counted := modPktReady hw i (hw.txq t).psId u16Inc
    exact .ite (counted.trans (setTrafficStatus _ i true _)) counted

theorem setMoreDataFlag (skb : Skb) : Scheduled hw (hw.setMoreDataFlag skb) := by
  unfold AmlHw.setMoreDataFlag
  split
  case h_1 => exact refl hw
  case h_2 i _ =>
    refine .ite ?_ (refl hw)
    have counted := (modPktReady hw i (hw.txq (hw.swTxhdr skb).txq).psId u16Dec).trans
      (modSpCnt _ i (hw.txq (hw.swTxhdr skb).txq).psId u16Dec)
    exact .ite (counted.trans (setTrafficStatus _ i false _)) counted

theorem abortLegacySp : Scheduled hw (hw.abortLegacySp t) := by
  unfold AmlHw.abortLegacySp
  split
  case h_1 => exact refl hw
  case h_2 i _ =>
    exact .ite ((modSpCnt hw i .legacy _).trans (modTxq _ t rfl (.refl _))) (refl hw)

theorem indicateReady (available : Bool) : Scheduled hw (hw.indicateReady i available) := by
  unfold AmlHw.indicateReady
  have legacy : Scheduled hw (if (hw.sta i).pktReady .legacy ≠ 0 then
      hw.setTrafficStatus i available .legacy else hw) :=
    .ite (setTrafficStatus hw i available .legacy) (refl hw)
  exact .ite (legacy.trans (setTrafficStatus _ i available .uapsd)) legacy

theorem grantSp (n : Nat) : Scheduled hw (hw.grantSp i psId t n) :=
  ((modTxq hw t (by rfl) (.refl _)).trans (modSpCnt _ i psId _)).trans (txqAddToHwList _ t)

theorem dispatchSp (ts : List TxqId) (pktReq : Nat) : Scheduled hw (AmlHw.dispatchSp i psId ts pktReq hw) := by
  induction ts generalizing pktReq hw with
  | nil => exact refl hw
  | cons t rest ih =>
    exact .ite (ih hw pktReq) (.ite ((grantSp hw t i psId _).trans (ih _ _)) (grantSp hw t i psId _))

theorem clearPushLimits :
    Scheduled hw ((staTxqs i).foldl (fun hw t => hw.modTxq t fun x => { x with pushLimit := 0 }) hw) :=
  foldl (fun hw t => modTxq hw t rfl (.refl _)) _ hw

theorem psBhTrafficReq (pktReq : Nat) (psId : PsId) : Scheduled hw (hw.psBhTrafficReq i pktReq psId) := by
  unfold AmlHw.psBhTrafficReq
  refine .ite (refl hw) (.ite ?_ (.ite (refl hw) (.ite (.ite (refl hw) ?_) ?_)))
  · exact (modSpCnt hw i psId _).trans (clearPushLimits _ i)
  · exact grantSp hw _ i psId _
  · exact dispatchSp hw i psId _ _

/-! ### Buffers leave a queue -/

theorem drop_hwq (x : Txq) (skb : Skb) (retryPacket : Bool) : (x.drop skb retryPacket).hwq = x.hwq := by
  cases retryPacket <;> rfl

theorem drop_skList (x : Txq) (skb : Skb) (retryPacket : Bool) :
    (x.drop skb retryPacket).skList = x.skList.erase skb := by
  cases retryPacket <;> rfl

theorem txqDropSkb (skb : Skb) (retryPacket : Bool) : Scheduled hw (hw.txqDropSkb t skb retryPacket) := by
  refine modTxq hw t (drop_hwq _ skb retryPacket) ?_
  rw [drop_skList]
  exact List.erase_sublist

theorem txqFlush : Scheduled hw (hw.txqFlush t) := foldl (fun hw skb => txqDropSkb hw t skb _) _ hw

theorem txqDeinit : Scheduled hw (hw.txqDeinit t) := by
  unfold AmlHw.txqDeinit
  refine .ite ?_ (refl hw)
  exact ((txqDelFromHwList hw t).trans (modTxq _ t rfl (.refl _))).trans (txqFlush _ t)

theorem psDropped : Scheduled hw (hw.psDropped t) := by
  unfold AmlHw.psDropped
  split
  case h_1 => exact refl hw
  case h_2 i _ =>
    refine .ite ?_ (refl hw)
    have ready := modPktReady hw i (hw.txq t).psId u16Dec
    have told := Scheduled.ite (p := ((hw.modPktReady i (hw.txq t).psId u16Dec).sta i).pktReady (hw.txq t).psId = 0)
      (ready.trans (setTrafficStatus _ i false (hw.txq t).psId)) ready
    have served := told.trans (modSpCnt _ i (hw.txq t).psId u16Dec)
    exact .ite (.ite (served.trans (modTxq _ t rfl (.refl _))) served) told

theorem dropOld (old : Skb → Bool) (skbs : List Skb) : Scheduled hw (AmlHw.dropOld t old skbs hw) := by
  induction skbs generalizing hw with
  | nil => exact refl hw
  | cons skb rest ih =>
    exact .ite (((txqDropSkb hw t skb false).trans (psDropped _ t)).trans (ih _)) (refl hw)

theorem txqDropOldTraffic (old : Skb → Bool) : Scheduled hw (hw.txqDropOldTraffic t old) := by
  unfold AmlHw.txqDropOldTraffic
  refine .ite ?_ (refl hw)
  have dropped := dropOld hw t old ((hw.txq t).skList.drop (hw.txq t).nbRetry)
  have unlinked := Scheduled.ite
    (p := ((AmlHw.dropOld t old ((hw.txq t).skList.drop (hw.txq t).nbRetry) hw).txq t).skList = [])
    (dropped.trans ((txqDelFromHwList _ t).trans
      (modTxq _ t (f := fun x => { x with pktSent := 0 }) rfl (.refl _)))) dropped
  exact .ite (unlinked.trans (modTxq _ t rfl (.refl _))) unlinked

/-! ### Credits of a queue -/

theorem creditsWritten {f : Txq → Txq} (hwq : (f (hw.txq t)).hwq = (hw.txq t).hwq)
    (skList : (f (hw.txq t)).skList.Sublist (hw.txq t).skList) :
    Scheduled hw (if ((hw.modTxq t f).txq t).credits ≤ 0 then (hw.modTxq t f).txqStop t {.full}
      else (hw.modTxq t f).txqStart t {.full}) :=
  (modTxq hw t hwq skList).trans (.ite (txqStop _ t _) (txqStart _ t _))

theorem txqConfirmCredits (credits : Int) : Scheduled hw (hw.txqConfirmCredits t credits) := by
  unfold AmlHw.txqConfirmCredits
  generalize (if hw.busType = .pcie then credits else 1) = given
  have written : Scheduled hw (if given = 0 then hw else
      if ((hw.modTxq t fun x => { x with credits := s8 (x.credits + given) }).txq t).credits ≤ 0 then
        (hw.modTxq t fun x => { x with credits := s8 (x.credits + given) }).txqStop t {.full}
      else (hw.modTxq t fun x => { x with credits := s8 (x.credits + given) }).txqStart t {.full}) :=
    .ite (refl hw) (creditsWritten hw t rfl (.refl _))
  exact .ite (written.trans (txqAddToHwList _ t)) written

theorem purgeRetries (fuel packet : Nat) : Scheduled hw (AmlHw.purgeRetries t fuel packet hw) := by
  induction fuel generalizing packet hw with
  | zero => exact refl hw
  | succ fuel ih =>
    unfold AmlHw.purgeRetries
    refine .ite ?_ (refl hw)
    split
    case h_1 => exact ih hw _
    case h_2 skb rest _ => exact (txqDropSkb hw t skb true).trans (ih _ _)

theorem txqCreditUpdate (update : Int) : Scheduled hw (hw.txqCreditUpdate t update) := by
  simp only [AmlHw.txqCreditUpdate]
  generalize (if (hw.txq t).active = true ∧ hw.busType ≠ .pcie ∧ nxTxqInitialCredits < update then
    s8 ((hw.hwq (hw.txq t).hwq).size - nxTxqInitialCredits) else update) = clamped
  have written := Scheduled.ite (p := (hw.txq t).active = true)
    (creditsWritten hw t (f := fun x => { x with
      credits := AmlHw.updatedCredits x hw.busType (hw.hwq (hw.txq t).hwq).size clamped }) rfl (.refl _))
    (refl hw)
  exact .ite (written.trans (purgeRetries _ t _ _)) written

end Functions

end Scheduled

end W2l.Sched
