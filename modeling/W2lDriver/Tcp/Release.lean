/-
**Held ACKs are released.**

A frame the filter returned 1 for is freed at once, or held in its session until a newer ACK frees it
or the timer sends it. The timer sends it only if no earlier frame of the session is marked as queued
(`in_txq_skb`); otherwise it gives up and is not armed again.

* `Released` — a held frame has a pending timer or a step that releases it; each frame is transmitted
  or freed once; it is transmitted to its own station and interface.
* `Prompt` — the steps that keep it: no timer gives up, no session is aged out with a frame, a flow
  keeps its station, and `aml_send_tcp_ack` gets its header.
-/

import W2lDriver.Lib.Custody
import W2lDriver.Tcp.Machine

namespace W2l.Tcp

open Cmd (BusType)
open Lib (System Custody contents contents_exchange)
open Function (update update_eq_self update_of_ne update_self)
open List (append_assoc map_append mem_append mem_append_left mem_append_right mem_map mem_singleton
  perm_middle)
open Option (map_eq_some_iff some_ne_none toList_none)

/-! ### The promise -/

def slotSkb (m : AckMgr) (i : Fin amlTcpSessNum) : Option Skb := (m.tcpInfo i).skb

/-- The frames the driver still has, and those that came to an end. -/
def inHand (s : AckHw) : List Skb :=
  contents (slotSkb s.mgr) ++ (s.queued ++ s.merged).map AckTx.skb

def gone (s : AckHw) : List Skb := s.outcomes.map Outcome.skb

/-- **Held ACKs are released.** -/
structure Released (s : AckHw) : Prop where
  live : ∀ i x, (s.mgr.tcpInfo i).skb = some x → (s.mgr.tcpInfo i).timer = true ∨
    ∃ (a : AckAct) (s' : AckHw), a.Own ∧ s.step a = some s' ∧ x ∈ gone s'
  once : ∀ x ∈ s.kept, (gone s).count x + (inHand s).count x = 1
  addressed : ∀ x ∈ s.kept, ∀ tx, .transmitted tx ∈ s.outcomes → tx.skb = x → tx ∈ s.submitted

/-- **Prompt steps.** -/
def Prompt (s : AckHw) : AckAct → Prop
  | .filter jiffies tx => ¬ s.mgr.Unseen tx → (∀ i, s.mgr.AgedOut jiffies i → (s.mgr.tcpInfo i).skb = none) ∧
        ∀ i, (s.mgr.tcpInfo i).busy = true → ¬ s.mgr.AgedOut jiffies i →
          (s.mgr.tcpInfo i).flow = tx.skb.flow → tx.skb.type ≠ .notAck →
          (s.mgr.tcpInfo i).sta = tx.sta ∧ (s.mgr.tcpInfo i).amlVif = tx.amlVif
  | .timeout i sent => (s.mgr.tcpInfo i).skb ≠ none → (s.mgr.tcpInfo i).inTxqSkb = none ∧ sent ≠ .noHeader
  | _ => True

/-! ### The invariant -/

/-- What holds in every run of prompt steps. -/
structure ReleaseInv (s : AckHw) : Prop where
  fresh : ∀ tx ∈ s.submitted, tx.skb.id < s.nextId
  custody : Custody (s.submitted.map AckTx.skb) (gone s) (inHand s)
  pending : ∀ i, (s.mgr.tcpInfo i).skb ≠ none → (s.mgr.tcpInfo i).timer = true ∧ (s.mgr.tcpInfo i).busy = true
  held : ∀ i x, (s.mgr.tcpInfo i).skb = some x → ⟨(s.mgr.tcpInfo i).sta, (s.mgr.tcpInfo i).amlVif, x⟩ ∈ s.submitted
  onWay : ∀ tx ∈ s.queued ++ s.merged, tx ∈ s.submitted
  sent : ∀ tx, .transmitted tx ∈ s.outcomes → tx ∈ s.submitted
  kept : ∀ x ∈ s.kept, x ∈ s.submitted.map AckTx.skb

variable {bus : BusType} {hz : Nat} {jiffies : BitVec 64} {s s' : AckHw} {tx : AckTx}

theorem releaseInv_init : ReleaseInv (ackInit bus hz jiffies) where
  fresh _ member := by cases member
  custody := by
    have empty : inHand (ackInit bus hz jiffies) = [] := by
      simp [inHand, contents, slotSkb, ackInit, amlTcpDelayAckInit]
    rw [empty]
    exact Custody.empty
  pending i holds := absurd rfl holds
  held i x holds := by cases holds
  onWay _ member := by cases member
  sent _ member := by cases member
  kept _ member := by cases member

theorem slotSkb_update {m m' : AckMgr} {i : Fin amlTcpSessNum} {t : SessInfo}
    (tcpInfo : m'.tcpInfo = update m.tcpInfo i t) :
    slotSkb m' = update (slotSkb m) i t.skb := by
  have applied : slotSkb m' = SessInfo.skb ∘ m'.tcpInfo := rfl
  rw [applied, tcpInfo, Function.comp_update]
  rfl

theorem slotSkb_aged (m : AckMgr) (jiffies : BitVec 64) (tx : AckTx) : slotSkb (m.aged jiffies tx) = slotSkb m := by
  funext i
  obtain ⟨busy, same, -⟩ := AckMgr.ageout_keeps m jiffies i
  show ((m.aged jiffies tx).tcpInfo i).skb = _
  rw [(AckMgr.aged_spec ..).1, same]
  rfl

namespace ReleaseInv

theorem aged (prompt : Prompt s (.filter jiffies tx))
    (seen : ¬ s.mgr.Unseen tx) {tx' : AckTx} {i : Fin amlTcpSessNum}
    (holds : ((s.mgr.aged jiffies tx').tcpInfo i).skb ≠ none) :
    (s.mgr.aged jiffies tx').tcpInfo i = s.mgr.tcpInfo i := by
  rw [(AckMgr.aged_spec ..).1, AckMgr.ageout_tcpInfo] at holds ⊢
  split at holds
  case isTrue aged => exact absurd ((prompt seen).1 i aged) holds
  case isFalse same => exact if_neg same

theorem acquire (inv : ReleaseInv s) (tx : AckTx) :
    Custody (s.submitted.map AckTx.skb ++ [(s.numbered tx).skb]) (gone s) ((s.numbered tx).skb :: inHand s) := by
  refine inv.custody.acquire fun old => ?_
  obtain ⟨tx', member, same⟩ := mem_map.mp old
  have number : tx'.skb.id = s.nextId := congrArg Skb.id same
  exact absurd (inv.fresh tx' member) (number ▸ Nat.lt_irrefl _)

theorem of_filter (inv : ReleaseInv s)
    (custody : Custody (s.submitted.map AckTx.skb ++ [(s.numbered tx).skb])
      (gone (s.filter jiffies tx)) (inHand (s.filter jiffies tx)))
    (pending : ∀ i, ((s.filter jiffies tx).mgr.tcpInfo i).skb ≠ none →
      ((s.filter jiffies tx).mgr.tcpInfo i).timer = true ∧ ((s.filter jiffies tx).mgr.tcpInfo i).busy = true)
    (held : ∀ i x, ((s.filter jiffies tx).mgr.tcpInfo i).skb = some x →
      ⟨((s.filter jiffies tx).mgr.tcpInfo i).sta, ((s.filter jiffies tx).mgr.tcpInfo i).amlVif, x⟩ ∈
        s.submitted ++ [s.numbered tx]) : ReleaseInv (s.filter jiffies tx) where
  fresh tx' member := by
    rcases mem_append.mp member with old | new
    · exact Nat.lt_succ_of_lt (inv.fresh tx' old)
    · rw [mem_singleton.mp new]
      exact Nat.lt_succ_self _
  custody := by
    have submitted : (s.filter jiffies tx).submitted.map AckTx.skb =
        s.submitted.map AckTx.skb ++ [(s.numbered tx).skb] := map_append
    rw [submitted]
    exact custody
  pending := pending
  held := held
  onWay tx' member := by
    have before : tx' ∈ s.queued ++ s.merged ∨ tx' = s.numbered tx := by
      rcases mem_append.mp member with queued | merged
      · have either : tx' ∈ s.queued ∨ tx' ∈ s.queued ++ [s.numbered tx] := by
          unfold AckHw.filter at queued
          dsimp only at queued
          split at queued
          · exact .inl queued
          · exact .inr queued
        rcases either with same | either
        · exact .inl (mem_append_left _ same)
        · rcases mem_append.mp either with old | new
          · exact .inl (mem_append_left _ old)
          · exact .inr (mem_singleton.mp new)
      · exact .inl (mem_append_right _ merged)
    rcases before with old | rfl
    · exact mem_append_left _ (inv.onWay tx' old)
    · exact mem_append_right _ List.mem_cons_self
  sent tx' member := by
    rcases mem_append.mp member with old | new
    · exact mem_append_left _ (inv.sent tx' old)
    · obtain ⟨x, -, clash⟩ := mem_map.mp new
      cases clash
  kept x member := by
    have submitted : (s.filter jiffies tx).submitted.map AckTx.skb =
        s.submitted.map AckTx.skb ++ [(s.numbered tx).skb] := map_append
    rw [submitted]
    unfold AckHw.filter at member
    dsimp only at member
    split at member
    · rcases mem_append.mp member with old | new
      · exact mem_append_left _ (inv.kept x old)
      · exact mem_append_right _ new
    · exact mem_append_left _ (inv.kept x member)

end ReleaseInv

/-! ### The frames in hand -/

theorem perm_enqueue {c : List Skb} {q m : List AckTx} (tx : AckTx) :
    ([tx.skb] ++ (c ++ (q ++ m).map AckTx.skb)).Perm (c ++ (q ++ [tx] ++ m).map AckTx.skb) := by
  have back : (tx :: (q ++ m)).Perm (q ++ [tx] ++ m) := by
    rw [append_assoc]
    exact perm_middle.symm
  refine List.Perm.trans ?_ ((back.map AckTx.skb).append_left c)
  have middle : (c ++ tx.skb :: (q ++ m).map AckTx.skb).Perm (tx.skb :: (c ++ (q ++ m).map AckTx.skb)) := perm_middle
  exact middle.symm

theorem perm_queued {c : List Skb} {q m : List AckTx} {tx : AckTx} (member : tx ∈ q) :
    (c ++ (q ++ m).map AckTx.skb).Perm ([tx.skb] ++ (c ++ (q.erase tx ++ m).map AckTx.skb)) := by
  have apart := ((List.perm_cons_erase member).append_right m).map AckTx.skb
  exact (apart.append_left c).trans perm_middle

theorem perm_merged {c : List Skb} {q m : List AckTx} {tx : AckTx} (member : tx ∈ m) :
    (c ++ (q ++ m).map AckTx.skb).Perm ([tx.skb] ++ (c ++ (q ++ m.erase tx).map AckTx.skb)) := by
  have apart := (((List.perm_cons_erase member).append_left q).trans perm_middle).map AckTx.skb
  exact (apart.append_left c).trans perm_middle

/-! ### A call of the filter -/

section Filter

def result (s : AckHw) (jiffies : BitVec 64) (tx : AckTx) : AckMgr.Filtered :=
  s.mgr.amlFilterTxTcpAck jiffies (s.numbered tx)

theorem gone_filter : gone (s.filter jiffies tx) = gone s ++ (result s jiffies tx).dropSkb.toList := by
  show (s.outcomes ++ (result s jiffies tx).dropSkb.toList.map Outcome.freed).map Outcome.skb = _
  rw [map_append, List.map_map]
  exact congrArg (gone s ++ ·) (List.map_id _)

theorem inHand_kept (ret : (result s jiffies tx).ret = true) : inHand (s.filter jiffies tx) =
    contents (slotSkb (result s jiffies tx).mgr) ++ (s.queued ++ s.merged).map AckTx.skb := by
  have queued : (s.filter jiffies tx).queued = s.queued := if_pos ret
  unfold inHand
  rw [queued]
  rfl

theorem inHand_goesOn (ret : (result s jiffies tx).ret = false) : (inHand (s.filter jiffies tx)).Perm
    ((s.numbered tx).skb ::
      (contents (slotSkb (result s jiffies tx).mgr) ++ (s.queued ++ s.merged).map AckTx.skb)) := by
  have queued : (s.filter jiffies tx).queued = s.queued ++ [s.numbered tx] :=
    if_neg (ret ▸ Bool.false_ne_true)
  unfold inHand
  rw [queued]
  exact (perm_enqueue (s.numbered tx)).symm

theorem ReleaseInv.custody_same (inv : ReleaseInv s) (ret : (result s jiffies tx).ret = false)
    (drop : (result s jiffies tx).dropSkb = none)
    (same : slotSkb (result s jiffies tx).mgr = slotSkb s.mgr) :
    Custody (s.submitted.map AckTx.skb ++ [(s.numbered tx).skb]) (gone (s.filter jiffies tx))
      (inHand (s.filter jiffies tx)) := by
  have hands := inHand_goesOn ret
  rw [gone_filter, drop, toList_none, List.append_nil]
  rw [same] at hands
  exact (inv.acquire tx).moved hands.symm

theorem ReleaseInv.custody_replaced (inv : ReleaseInv s) {i : Fin amlTcpSessNum} {t t' : SessInfo}
    (slots : slotSkb (result s jiffies tx).mgr = update (slotSkb s.mgr) i t'.skb)
    (skb : t.skb = slotSkb s.mgr i)
    (how : AckMgr.Replaced t (s.numbered tx) (result s jiffies tx) t') :
    Custody (s.submitted.map AckTx.skb ++ [(s.numbered tx).skb]) (gone (s.filter jiffies tx))
      (inHand (s.filter jiffies tx)) := by
  obtain ⟨rest, before, after⟩ := contents_exchange (slotSkb s.mgr) i t'.skb
  rw [← slots] at after
  have start := inv.acquire tx
  -- The new frame and what the slot held, apart from the rest.
  have apart : ∀ {acquired released : List Skb}, Custody acquired released
        ((s.numbered tx).skb :: inHand s) → Custody acquired released ((slotSkb s.mgr i).toList ++
          ((s.numbered tx).skb :: (rest ++ (s.queued ++ s.merged).map AckTx.skb))) :=
    fun custody => by
      refine custody.moved (((before.append_right _).cons _).trans ?_)
      rw [append_assoc]
      exact perm_middle.symm
  rw [gone_filter]
  cases how with
  | goesOn old seq none timer ret drop =>
    rw [drop, skb]
    rw [none, toList_none, List.nil_append] at after
    refine (apart start).releaseAll.moved ?_
    exact (((after.append_right _).cons _).symm).trans (inHand_goesOn ret).symm
  | held old seq some timer ret drop type =>
    rw [drop, skb]
    rw [some] at after
    refine (apart start).releaseAll.moved ?_
    rw [inHand_kept ret]
    exact (after.append_right _).symm
  | refused old seq same timer ret drop =>
    rw [drop, inHand_kept ret, slots, same, skb, update_eq_self]
    have one : Custody (s.submitted.map AckTx.skb ++ [(s.numbered tx).skb]) (gone s)
        ([(s.numbered tx).skb] ++ inHand s) := start
    exact one.releaseAll

/-- **A prompt call of the filter.** -/
theorem ReleaseInv.filter (inv : ReleaseInv s) (sound : s.mgr.Sound)
    (prompt : Prompt s (.filter jiffies tx)) : ReleaseInv (s.filter jiffies tx) := by
  have mgr : (s.filter jiffies tx).mgr = (result s jiffies tx).mgr := rfl
  by_cases unseen : s.mgr.Unseen (s.numbered tx)
  · have same : result s jiffies tx = { mgr := s.mgr, ret := false } :=
      AckMgr.filter_unseen unseen
    have kept : (s.filter jiffies tx).mgr = s.mgr := by
      rw [mgr, same]
    refine inv.of_filter (inv.custody_same ?_ ?_ ?_) ?_ ?_
    · rw [same]
    · rw [same]
    · rw [same]
    · rw [kept]
      exact inv.pending
    · rw [kept]
      exact fun i x holds => mem_append_left _ (inv.held i x holds)
  · -- Behind the ageing, a session that holds a frame is as it was.
    have aged : ∀ i, ((s.mgr.aged jiffies (s.numbered tx)).tcpInfo i).skb ≠ none →
        (s.mgr.aged jiffies (s.numbered tx)).tcpInfo i = s.mgr.tcpInfo i := fun i =>
      ReleaseInv.aged prompt unseen
    have slots := slotSkb_aged s.mgr jiffies (s.numbered tx)
    have pending : ∀ i, ((s.mgr.aged jiffies (s.numbered tx)).tcpInfo i).skb ≠ none →
        ((s.mgr.aged jiffies (s.numbered tx)).tcpInfo i).timer = true ∧
          ((s.mgr.aged jiffies (s.numbered tx)).tcpInfo i).busy = true := fun i holds => by
      have same := aged i holds
      rw [same] at holds ⊢
      exact inv.pending i holds
    have held : ∀ i x, ((s.mgr.aged jiffies (s.numbered tx)).tcpInfo i).skb = some x →
        ⟨((s.mgr.aged jiffies (s.numbered tx)).tcpInfo i).sta,
          ((s.mgr.aged jiffies (s.numbered tx)).tcpInfo i).amlVif, x⟩ ∈
            s.submitted ++ [s.numbered tx] := fun i x holds => by
      have same := aged i (by rw [holds]; exact some_ne_none x)
      rw [same] at holds ⊢
      exact mem_append_left _ (inv.held i x holds)
    cases AckMgr.filter_cases s.mgr jiffies (s.numbered tx) unseen with
    | passed tcpInfo table ret drop taken =>
      have same : slotSkb (result s jiffies tx).mgr = slotSkb s.mgr := by
        rw [← slots]
        exact congrArg (SessInfo.skb ∘ ·) tcpInfo
      refine inv.of_filter (inv.custody_same ret drop same) ?_ ?_
      · rw [mgr, result, tcpInfo]
        exact pending
      · rw [mgr, result, tcpInfo]
        exact held
    | opened ack i t new pick tcpInfo table flow seq sta timer skb busy ret drop taken =>
      have free := W2l.Lib.Slots.pick_free (sound.aged jiffies (s.numbered tx)).slots pick
      have empty : ((s.mgr.aged jiffies (s.numbered tx)).tcpInfo i).skb = none := by
        by_contra holds
        exact Bool.false_ne_true (free.symm.trans (pending i holds).2)
      have same : slotSkb (result s jiffies tx).mgr = slotSkb s.mgr := by
        refine (slotSkb_update tcpInfo).trans ?_
        rw [skb, ← slots]
        exact update_eq_self i _
      refine inv.of_filter (inv.custody_same ret drop same) ?_ ?_
      · intro j holds
        rw [mgr, result, tcpInfo] at holds ⊢
        by_cases here : j = i
        · rw [here, update_self]
          exact ⟨timer, busy⟩
        · rw [update_of_ne here] at holds ⊢
          exact pending j holds
      · intro j x holds
        rw [mgr, result, tcpInfo] at holds ⊢
        by_cases here : j = i
        · rw [here, update_self, skb, empty] at holds
          cases holds
        · rw [update_of_ne here] at holds ⊢
          exact held j x holds
    | replaced ack i t found tcpInfo table flow busy sta how taken =>
      obtain ⟨wasBusy, wasFlow⟩ := AckMgr.find_some found
      have updated : slotSkb (result s jiffies tx).mgr =
          update (slotSkb s.mgr) i t.skb := slots ▸ slotSkb_update tcpInfo
      refine inv.of_filter (inv.custody_replaced updated (congrFun slots i) how) ?_ ?_
      · intro j holds
        rw [mgr, result, tcpInfo] at holds ⊢
        by_cases here : j = i
        · rw [here, update_self] at holds ⊢
          refine ⟨?_, busy.trans wasBusy⟩
          cases how with
          | goesOn old seq none => exact absurd none holds
          | held old seq some timer => exact timer
          | refused old seq same timer => exact timer.trans (pending i (same ▸ holds)).1
        · rw [update_of_ne here] at holds ⊢
          exact pending j holds
      · intro j x holds
        rw [mgr, result, tcpInfo] at holds ⊢
        by_cases here : j = i
        · rw [here, update_self] at holds ⊢
          rw [sta.1, sta.2]
          cases how with
          | goesOn old seq none => exact absurd (none.symm.trans holds) (some_ne_none x).symm
          | held old seq some timer ret drop type =>
            obtain ⟨same, young⟩ := AckMgr.busy_aged wasBusy
            rw [same] at wasBusy wasFlow ⊢
            obtain ⟨toSta, toVif⟩ := (prompt unseen).2 i wasBusy young wasFlow ack
            obtain rfl := Option.some.inj (some.symm.trans holds)
            refine mem_append_right _ (mem_singleton.mpr ?_)
            rw [toSta, toVif]
            rfl
          | refused old seq same => exact held i x (same ▸ holds)
        · rw [update_of_ne here] at holds ⊢
          exact held j x holds

end Filter

/-! ### The timers -/

/-- **A prompt expiry** sends what the session holds. -/
theorem ReleaseInv.timeout (inv : ReleaseInv s) {i : Fin amlTcpSessNum} {sent : Sent}
    (prompt : Prompt s (.timeout i sent)) (stepped : s.timeout i sent = some s') :
    ReleaseInv s' := by
  obtain ⟨t, tcpInfo, -, -, -, busy, -, fired⟩ := AckMgr.expired_cases s.mgr i
  have others : ∀ j, j ≠ i → ((s.mgr.expire i).amlTcpAckTimeout i).1.tcpInfo j = s.mgr.tcpInfo j := fun j other => by
    rw [tcpInfo, update_of_ne other]
  have slots := slotSkb_update tcpInfo
  unfold AckHw.timeout at stepped
  split at stepped
  case isFalse => cases stepped
  case isTrue timer =>
    -- Nothing is left in the session.
    have empty : t.skb = none := by
      cases fired with
      | nothing skb result idle =>
        rw [skb]
        by_contra holds
        obtain ⟨none | free, marked⟩ | marked := (or_assoc.mpr idle).imp_left
            fun early => And.intro early (prompt holds).1
        · exact holds none
        · exact Bool.false_ne_true (free.symm.trans (inv.pending i holds).2)
        · exact marked (prompt holds).1
      | sent x holds busy marker skb => exact skb
    have pending : ∀ j, (((s.mgr.expire i).amlTcpAckTimeout i).1.tcpInfo j).skb ≠ none →
        (((s.mgr.expire i).amlTcpAckTimeout i).1.tcpInfo j).timer = true ∧
          (((s.mgr.expire i).amlTcpAckTimeout i).1.tcpInfo j).busy = true := fun j holds => by
      by_cases here : j = i
      · rw [here, tcpInfo, update_self] at holds
        exact absurd empty holds
      · rw [others j here] at holds ⊢
        exact inv.pending j holds
    have held : ∀ j x, (((s.mgr.expire i).amlTcpAckTimeout i).1.tcpInfo j).skb = some x →
        ⟨(((s.mgr.expire i).amlTcpAckTimeout i).1.tcpInfo j).sta,
          (((s.mgr.expire i).amlTcpAckTimeout i).1.tcpInfo j).amlVif, x⟩ ∈ s.submitted :=
      fun j x holds => by
        by_cases here : j = i
        · rw [here, tcpInfo, update_self, empty] at holds
          cases holds
        · rw [others j here] at holds ⊢
          exact inv.held j x holds
    cases fired with
    | nothing skb result idle =>
      have same : slotSkb ((s.mgr.expire i).amlTcpAckTimeout i).1 = slotSkb s.mgr := by
        rw [slots, skb]
        exact update_eq_self i _
      split at stepped
      case h_1 mgr tx send =>
        rw [send] at result
        cases result
      case h_2 mgr quiet =>
        rw [quiet] at same pending held
        obtain rfl := Option.some.inj stepped
        refine ⟨inv.fresh, ?_, pending, held, inv.onWay, inv.sent, inv.kept⟩
        unfold inHand
        rw [same]
        exact inv.custody
    | sent x holds busy marker skb result =>
      obtain ⟨rest, before, after⟩ := contents_exchange (slotSkb s.mgr) i t.skb
      rw [← slots, empty, toList_none, List.nil_append] at after
      rw [show slotSkb s.mgr i = some x from holds] at before
      have apart : Custody (s.submitted.map AckTx.skb) (gone s)
          ([x] ++ (contents (slotSkb ((s.mgr.expire i).amlTcpAckTimeout i).1) ++
            (s.queued ++ s.merged).map AckTx.skb)) := by
        refine inv.custody.moved ((before.append_right _).trans ?_)
        rw [append_assoc]
        exact ((after.append_right _).append_left [x]).symm
      have submitted := inv.held i x holds
      split at stepped
      case h_2 mgr quiet =>
        rw [quiet] at result
        cases result
      case h_1 mgr tx send =>
        rw [send] at result apart pending held
        obtain rfl := Option.some.inj result
        obtain rfl := Option.some.inj stepped
        cases sent with
        | noHeader =>
          exact absurd rfl (prompt (holds ▸ some_ne_none x)).2
        | freed =>
          refine ⟨inv.fresh, ?_, pending, held, inv.onWay, ?_, inv.kept⟩
          · have log : gone (AckHw.send { s with mgr := mgr }
                ⟨(s.mgr.tcpInfo i).sta, (s.mgr.tcpInfo i).amlVif, x⟩ .freed) = gone s ++ [x] :=
              map_append
            rw [log]
            exact apart.releaseAll
          · intro tx member
            rcases mem_append.mp member with old | new
            · exact inv.sent tx old
            · cases mem_singleton.mp new
        | queued =>
          refine ⟨inv.fresh, ?_, pending, held, ?_, inv.sent, inv.kept⟩
          · exact apart.moved (perm_enqueue ⟨(s.mgr.tcpInfo i).sta, (s.mgr.tcpInfo i).amlVif, x⟩)
          · intro tx member
            rcases mem_append.mp member with queued | merged
            · rcases mem_append.mp queued with old | new
              · exact inv.onWay tx (mem_append_left _ old)
              · rw [mem_singleton.mp new]
                exact submitted
            · exact inv.onWay tx (mem_append_right _ merged)

/-! ### The frames on their way -/

theorem pick_mem {l : List AckTx} {id : Nat} {tx : AckTx} (picked : AckHw.pick l id = some tx) :
    tx ∈ l := List.mem_of_find?_eq_some picked

section

variable (inv : ReleaseInv s) (nextId : s'.nextId = s.nextId) (submitted : s'.submitted = s.submitted)
  (kept : s'.kept = s.kept)
  (sess : ∀ i, ∃ marker, s'.mgr.tcpInfo i = { s.mgr.tcpInfo i with inTxqSkb := marker })

include inv nextId submitted kept sess

theorem ReleaseInv.of_move
    (custody : Custody (s.submitted.map AckTx.skb) (gone s')
      (contents (slotSkb s.mgr) ++ (s'.queued ++ s'.merged).map AckTx.skb))
    (onWay : ∀ tx ∈ s'.queued ++ s'.merged, tx ∈ s.queued ++ s.merged)
    (sent : ∀ tx, .transmitted tx ∈ s'.outcomes → .transmitted tx ∈ s.outcomes ∨
      tx ∈ s.queued ++ s.merged) : ReleaseInv s' where
  fresh := by
    rw [submitted, nextId]
    exact inv.fresh
  custody := by
    have slots : slotSkb s'.mgr = slotSkb s.mgr := funext fun i => by
      obtain ⟨marker, same⟩ := sess i
      unfold slotSkb
      rw [same]
    rw [submitted, inHand, slots]
    exact custody
  pending i holds := by
    obtain ⟨marker, same⟩ := sess i
    rw [same] at holds ⊢
    exact inv.pending i holds
  held i x holds := by
    obtain ⟨marker, same⟩ := sess i
    rw [submitted]
    rw [same] at holds ⊢
    exact inv.held i x holds
  onWay tx member := submitted ▸ inv.onWay tx (onWay tx member)
  sent tx member := by
    rw [submitted]
    rcases sent tx member with old | new
    · exact inv.sent tx old
    · exact inv.onWay tx new
  kept := by
    rw [kept, submitted]
    exact inv.kept

theorem ReleaseInv.finish {tx : AckTx} {outcome : Outcome} (log : s'.outcomes = s.outcomes ++ [outcome])
    (skb : outcome.skb = tx.skb) (own : ∀ tx', outcome = .transmitted tx' → tx' = tx)
    (from_ : (tx ∈ s.queued ∧ s'.queued = s.queued.erase tx ∧ s'.merged = s.merged) ∨
      (tx ∈ s.merged ∧ s'.queued = s.queued ∧ s'.merged = s.merged.erase tx)) :
    ReleaseInv s' := by
  have member : tx ∈ s.queued ++ s.merged := by
    rcases from_ with ⟨member, -⟩ | ⟨member, -⟩
    · exact mem_append_left _ member
    · exact mem_append_right _ member
  have sent : ∀ tx', .transmitted tx' ∈ s'.outcomes → .transmitted tx' ∈ s.outcomes ∨
      tx' ∈ s.queued ++ s.merged := fun tx' end_ => by
    rw [log] at end_
    rcases mem_append.mp end_ with old | new
    · exact .inl old
    · rw [own tx' (mem_singleton.mp new).symm]
      exact .inr member
  have ended : gone s' = gone s ++ [tx.skb] := by
    unfold gone
    rw [log, map_append, List.map_singleton, skb]
  refine inv.of_move nextId submitted kept sess ?_ ?_ sent
  · rw [ended]
    rcases from_ with ⟨at_, queued, merged⟩ | ⟨at_, queued, merged⟩
    · rw [queued, merged]
      exact (inv.custody.moved (perm_queued at_)).releaseAll
    · rw [queued, merged]
      exact (inv.custody.moved (perm_merged at_)).releaseAll
  · intro tx' left
    rcases from_ with ⟨-, queued, merged⟩ | ⟨-, queued, merged⟩
    · rw [queued, merged] at left
      exact mem_append.mpr ((mem_append.mp left).imp_left List.mem_of_mem_erase)
    · rw [queued, merged] at left
      exact mem_append.mpr ((mem_append.mp left).imp_right List.mem_of_mem_erase)

end

theorem sess_same (m : AckMgr) (i : Fin amlTcpSessNum) :
    ∃ marker, m.tcpInfo i = { m.tcpInfo i with inTxqSkb := marker } := ⟨_, rfl⟩

theorem sess_check (m : AckMgr) (skb : Nat) (len : BitVec 32) (i : Fin amlTcpSessNum) :
    ∃ marker, (m.amlCheckTcpackSkb skb len).tcpInfo i = { m.tcpInfo i with inTxqSkb := marker } := by
  obtain ⟨marker, same, -⟩ := AckMgr.check_tcpInfo m skb len i
  exact ⟨marker, same⟩

theorem ReleaseInv.step (inv : ReleaseInv s) (sound : s.mgr.Sound) {a : AckAct}
    (prompt : Prompt s a) (stepped : s.step a = some s') : ReleaseInv s' := by
  cases a with
  | filter jiffies tx =>
    obtain rfl := Option.some.inj stepped
    exact inv.filter sound prompt
  | timeout i sent => exact inv.timeout prompt stepped
  | push id len =>
    obtain ⟨tx, picked, rfl⟩ := map_eq_some_iff.mp stepped
    exact inv.finish rfl rfl rfl (sess_check s.mgr id len) rfl rfl
      (fun tx' same => (Outcome.transmitted.inj same).symm) (.inl ⟨pick_mem picked, rfl, rfl⟩)
  | drop id =>
    obtain ⟨tx, picked, rfl⟩ := map_eq_some_iff.mp stepped
    refine inv.finish rfl rfl rfl (sess_same s.mgr) rfl ?_ (fun tx' same => by cases same)
      (.inl ⟨pick_mem picked, rfl, rfl⟩)
    rfl
  | aggregate id =>
    obtain ⟨tx, picked, rfl⟩ := map_eq_some_iff.mp stepped
    refine inv.of_move rfl rfl rfl (sess_same s.mgr) ?_ ?_ fun tx' => .inl
    · have apart := (List.perm_cons_erase (pick_mem picked)).append_right s.merged
      have back := (List.perm_append_singleton tx (s.queued.erase tx ++ s.merged)).symm
      rw [append_assoc] at back
      exact inv.custody.moved (((apart.trans back).map AckTx.skb).append_left _)
    · intro tx' member
      rcases mem_append.mp member with queued | merged
      · exact mem_append_left _ (List.mem_of_mem_erase queued)
      · rcases mem_append.mp merged with old | new
        · exact mem_append_right _ old
        · rw [mem_singleton.mp new]
          exact mem_append_left _ (pick_mem picked)
  | pushAmsdu id =>
    obtain ⟨tx, picked, rfl⟩ := map_eq_some_iff.mp stepped
    exact inv.finish rfl rfl rfl (sess_same s.mgr) rfl rfl
      (fun tx' same => (Outcome.transmitted.inj same).symm) (.inr ⟨pick_mem picked, rfl, rfl⟩)
  | dropAmsdu id =>
    obtain ⟨tx, picked, rfl⟩ := map_eq_some_iff.mp stepped
    refine inv.finish rfl rfl rfl (sess_same s.mgr) rfl ?_ (fun tx' same => by cases same)
      (.inr ⟨pick_mem picked, rfl, rfl⟩)
    rfl
  | check skb len =>
    obtain rfl := Option.some.inj stepped
    exact inv.of_move rfl rfl rfl (sess_check s.mgr skb len) inv.custody (fun _ member => member) fun tx' => .inl

/-- **Held ACKs are released.** -/
theorem held_released (reach : (ackSystem bus hz jiffies).Reachable Prompt s) : Released s := by
  have inv : ReleaseInv s := reach.invariant releaseInv_init
    fun _ _ _ before inv prompt stepped => inv.step (sound_of_reachable before) prompt stepped
  constructor
  case live => exact fun i x holds => .inl (inv.pending i (holds ▸ some_ne_none x)).1
  case once => exact fun x kept => inv.custody.once (inv.kept x kept)
  case addressed => exact fun x _ tx sent _ => inv.sent tx sent

/-! ### Runs -/

instance (s : AckHw) (a : AckAct) : Decidable (Prompt s a) :=
  match a with
  | .filter jiffies tx => inferInstanceAs (Decidable (¬ s.mgr.Unseen tx →
      (∀ i, s.mgr.AgedOut jiffies i → (s.mgr.tcpInfo i).skb = none) ∧
        ∀ i, (s.mgr.tcpInfo i).busy = true → ¬ s.mgr.AgedOut jiffies i →
          (s.mgr.tcpInfo i).flow = tx.skb.flow → tx.skb.type ≠ .notAck →
          (s.mgr.tcpInfo i).sta = tx.sta ∧ (s.mgr.tcpInfo i).amlVif = tx.amlVif))
  | .timeout i sent => inferInstanceAs (Decidable ((s.mgr.tcpInfo i).skb ≠ none →
      (s.mgr.tcpInfo i).inTxqSkb = none ∧ sent ≠ .noHeader))
  | .push _ _ | .drop _ | .aggregate _ | .pushAmsdu _ | .dropAmsdu _ | .check _ _ => .isTrue trivial

/-- Four frames of a flow; the last one is held, the frame before it is pushed, and the timer sends the
last one. -/
theorem held_released_once : ∃ s, (ackSystem .sdio 250 0).Reachable Prompt s ∧ s.kept.map Skb.id = [3] ∧
      (gone s).map Skb.id = [2, 3] ∧ Released s := by
  have reach := System.reachable_of_run (ackSystem .sdio 250 0) Prompt
    [.filter 0 synAck, .filter 0 (ackFrame 1 1), .filter 0 (ackFrame 1 2), .filter 0 (ackFrame 1 3),
      .push 2 60, .timeout 0 .queued, .push 3 60]
    (by decide +kernel)
  exact ⟨_, reach, by decide +kernel, by decide +kernel, held_released reach⟩

theorem own_outcomes (timers : ∀ i, (s.mgr.tcpInfo i).timer = false) (queued : s.queued = [])
    (merged : s.merged = []) {a : AckAct} (own : a.Own) (stepped : s.step a = some s') :
    s'.outcomes = s.outcomes := by
  have nothing : ∀ id, AckHw.pick [] id = none := fun _ => rfl
  cases a with
  | filter jiffies tx => exact own.elim
  | timeout i sent =>
    simp only [AckHw.step, AckHw.timeout, timers i, Bool.false_eq_true, if_false] at stepped
    cases stepped
  | check skb len =>
    obtain rfl := Option.some.inj stepped
    rfl
  | push id len | drop id | aggregate id =>
    obtain ⟨tx, picked, -⟩ := map_eq_some_iff.mp stepped
    rw [queued] at picked
    cases picked
  | pushAmsdu id | dropAmsdu id =>
    obtain ⟨tx, picked, -⟩ := map_eq_some_iff.mp stepped
    rw [merged] at picked
    cases picked

/-- **A timer that gave up leaves a frame behind**: no timer is pending, nothing is queued, and the
session still holds the last ACK. -/
theorem held_stuck : ¬ ∀ bus hz jiffies s, (ackSystem bus hz jiffies).Reachable (fun _ _ => True) s → Released s := by
  intro released
  have reach := System.reachable_of_run (ackSystem .sdio 250 0) (fun _ _ => True)
    [.filter 0 synAck, .filter 0 (ackFrame 1 1), .filter 0 (ackFrame 1 2), .filter 0 (ackFrame 1 3),
      .timeout 0 .queued, .push 0 60, .push 1 60, .push 2 60]
    (by decide +kernel)
  have live := (released .sdio 250 0 _ reach).live 0 { (ackFrame 1 3).skb with id := 3 } (by decide +kernel)
  rcases live with pending | ⟨a, s', own, stepped, ended⟩
  · revert pending
    decide +kernel
  · have same := own_outcomes (by decide +kernel) (by decide +kernel) (by decide +kernel) own stepped
    rw [gone, same] at ended
    revert ended
    decide +kernel

end W2l.Tcp
