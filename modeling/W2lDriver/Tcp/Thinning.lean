/-
**ACK thinning preserves progress.**

The filter lets some ACKs of a flow go on, holds the newest one and frees the others. What it emits
of a flow, at once or with the timer, is compared with what was submitted.

* `submittedOf`, `emittedOf` — the two streams of a flow.
* `Progress` — the emitted ACKs are a subsequence, an ACK with other information is never discarded,
  and when no timer is pending the last ACK has been emitted.
* `InOrder` — the acknowledgement numbers of the flow do not go back.
* `Unblocked` — no timer gives up on an ACK of the flow, none is aged out, and each is sent.
-/

import W2lDriver.Tcp.Machine

namespace W2l.Tcp

open Cmd (BusType)
open Lib (System)
open Function (update_of_ne update_self)
open Bool (eq_false_iff not_eq_false)
open List (append_nil filter_append)
open Option (map_eq_some_iff)
open AckMgr (busy_aged find_none find_some)

/-! ### The streams of a flow -/

def pureAck (flow : Flow) (x : Skb) : Bool :=
  x.flow = flow && x.type ≠ .notAck && x.len ≤ maxTcpAckLen

def submittedOf (flow : Flow) (s : AckHw) : List Skb :=
  (s.submitted.map AckTx.skb).filter (pureAck flow)

def emittedOf (flow : Flow) (s : AckHw) : List Skb := s.emitted.filter (pureAck flow)

/-- **Thinning preserves progress.** -/
structure Progress (flow : Flow) (s : AckHw) : Prop where
  order : (emittedOf flow s).Sublist (submittedOf flow s)
  ackInfo : ∀ x ∈ s.ackInfo, pureAck flow x = true → x ∈ s.emitted
  last : (∀ i, (s.mgr.tcpInfo i).timer = false) → s.queued = [] → s.merged = [] →
    (emittedOf flow s).getLast? = (submittedOf flow s).getLast?

/-- An ACK of the flow is at most 2^31 − 1 ahead of the one before. -/
def InOrder (flow : Flow) (s : AckHw) : AckAct → Prop
  | .filter _ tx => pureAck flow tx.skb = true →
      ∀ last ∈ (submittedOf flow s).getLast?, (tx.skb.seq - last.seq).toNat < 2 ^ 31
  | _ => True

/-- **Nothing stops an ACK of the flow that is held.** -/
def Unblocked (flow : Flow) (s : AckHw) : AckAct → Prop
  | .filter jiffies tx => ¬ s.mgr.Unseen tx → ∀ i, s.mgr.AgedOut jiffies i →
      ∀ x ∈ (s.mgr.tcpInfo i).skb, pureAck flow x = false
  | .timeout i sent => ∀ x ∈ (s.mgr.tcpInfo i).skb, pureAck flow x = true →
      (s.mgr.tcpInfo i).inTxqSkb = none ∧ sent = .queued
  | _ => True

/-! ### The filter stays on -/

namespace AckMgr

section

variable (m : AckMgr)

include m

theorem ageSess_enable (jiffies : BitVec 64) (i : Fin amlTcpSessNum) : (ageSess jiffies i m).enable = m.enable := by
  unfold ageSess
  split <;> rfl

theorem ageout_enable (jiffies : BitVec 64) : (m.amlTcpSessAgeout jiffies).enable = m.enable := by
  have loop : ∀ l : List (Fin amlTcpSessNum),
      (l.foldr (ageSess jiffies) { m with lastTime := jiffies }).enable = m.enable := fun l => by
    induction l with
    | nil => rfl
    | cons i l ih => exact (ageSess_enable _ jiffies i).trans ih
  unfold amlTcpSessAgeout
  split
  · exact loop _
  · rfl

theorem replace_enable (jiffies : BitVec 64) (i : Fin amlTcpSessNum) (skb : Skb)
    (type : AckType) : (m.amlReplaceTcpAck jiffies i skb type).mgr.enable = m.enable := by
  unfold amlReplaceTcpAck
  dsimp only
  split
  · split <;> rfl
  · split
    · split <;> rfl
    · rfl

theorem filter_enable (jiffies : BitVec 64) (tx : AckTx) :
    (m.amlFilterTxTcpAck jiffies tx).mgr.enable = m.enable := by
  have noted : ∀ m : AckMgr, (m.noteWinScale tx.skb.winScale).enable = m.enable := fun m => by
    unfold noteWinScale
    split <;> rfl
  have synced : ∀ (m : AckMgr) i, (m.syncWinScale i).enable = m.enable := fun m i => by
    unfold syncWinScale
    split <;> rfl
  have adjusted : ∀ m : AckMgr, m.adjustDropCnt.enable = m.enable := fun m => by
    unfold adjustDropCnt
    split <;> rfl
  have behind : ∀ m : AckMgr, (m.filterAck jiffies tx).mgr.enable = m.enable := fun m => by
    unfold filterAck
    split
    · exact (replace_enable ..).trans (synced m _)
    · rw [alloc_eq]
      split
      case h_1 i next alloc =>
        obtain ⟨j, -, same⟩ := map_eq_some_iff.mp alloc
        obtain ⟨-, rfl⟩ := Prod.mk.inj same
        exact adjusted _
      case h_2 => rfl
  unfold amlFilterTxTcpAck
  split
  · rfl
  · dsimp only
    split
    · exact (noted _).trans (ageout_enable m jiffies)
    · exact (behind _).trans ((noted _).trans (ageout_enable m jiffies))

theorem timeout_enable (i : Fin amlTcpSessNum) : ((m.expire i).amlTcpAckTimeout i).1.enable = m.enable := by
  obtain ⟨same, -⟩ | ⟨skb, -, -, -, same⟩ := timeout_cases (m.expire i) i
  · rw [same]
    rfl
  · rw [same]
    rfl

theorem check_enable (skb : Nat) (len : BitVec 32) : (m.amlCheckTcpackSkb skb len).enable = m.enable := by
  unfold amlCheckTcpackSkb
  split <;> rfl

end

end AckMgr

theorem amlU32Before_of_ahead {a b : BitVec 32} (ahead : (b - a).toNat < 2 ^ 31) : amlU32Before a b = true := by
  have back : (a - b).toInt ≤ 0 := by
    rw [BitVec.toInt_eq_toNat_cond]
    split <;> bv_omega
  exact decide_eq_true back

/-! ### The invariant -/

variable {bus : BusType} {hz : Nat} {jiffies : BitVec 64} {s s' : AckHw} {tx : AckTx} {flow : Flow}

/-- What holds of a flow in every run of such steps. -/
structure ThinInv (flow : Flow) (s : AckHw) : Prop where
  enabled : s.mgr.enable = true
  /-- An ACK that is held is the last one, in the session of the flow. -/
  held : ∀ i x, (s.mgr.tcpInfo i).skb = some x → pureAck flow x = true →
    ((s.mgr.tcpInfo i).busy = true ∧ (s.mgr.tcpInfo i).flow = flow ∧ (s.mgr.tcpInfo i).timer = true) ∧
    (emittedOf flow s ++ [x]).Sublist (submittedOf flow s) ∧
    (submittedOf flow s).getLast? = some x
  seq : ∀ i, (s.mgr.tcpInfo i).busy = true → (s.mgr.tcpInfo i).flow = flow →
    ∃ x, (submittedOf flow s).getLast? = some x ∧ (s.mgr.tcpInfo i).seq = x.seq
  /-- While none is held, the last one has been emitted. -/
  caught : (∀ i x, (s.mgr.tcpInfo i).skb = some x → pureAck flow x = false) →
    (emittedOf flow s).Sublist (submittedOf flow s) ∧ (emittedOf flow s).getLast? = (submittedOf flow s).getLast?
  ackInfo : ∀ x ∈ s.ackInfo, pureAck flow x = true → x ∈ s.emitted

theorem thinInv_init : ThinInv flow (ackInit bus hz jiffies) where
  enabled := rfl
  held i x holds := by cases holds
  seq i busy := by cases busy
  caught _ := ⟨List.Sublist.refl _, rfl⟩
  ackInfo x member := by cases member

namespace ThinInv

section

variable (inv : ThinInv flow s)

include inv

theorem order : (emittedOf flow s).Sublist (submittedOf flow s) := by
  by_cases held : ∃ i x, (s.mgr.tcpInfo i).skb = some x ∧ pureAck flow x = true
  · obtain ⟨i, x, holds, pure⟩ := held
    exact (List.sublist_append_left _ [x]).trans (inv.held i x holds pure).2.1
  · refine (inv.caught fun i x holds => ?_).1
    exact eq_false_iff.mpr fun pure => held ⟨i, x, holds, pure⟩

theorem progress : Progress flow s where
  order := inv.order
  ackInfo := inv.ackInfo
  last timers _ _ := by
    refine (inv.caught fun i x holds => ?_).2
    by_contra pure
    have timer := (inv.held i x holds (not_eq_false _ ▸ pure)).1.2.2
    exact Bool.false_ne_true ((timers i).symm.trans timer)

theorem only (sound : s.mgr.Sound) {i j : Fin amlTcpSessNum} {y : Skb}
    (busy : (s.mgr.tcpInfo i).busy = true) (ofFlow : (s.mgr.tcpInfo i).flow = flow)
    (holds : (s.mgr.tcpInfo j).skb = some y) (pure : pureAck flow y = true) : j = i := by
  obtain ⟨⟨busy', flow', -⟩, -⟩ := inv.held j y holds pure
  exact sound.unique j i busy' busy (flow'.trans ofFlow.symm)

theorem aside (enabled : s'.mgr.enable = s.mgr.enable)
    (emitted : emittedOf flow s' = emittedOf flow s)
    (submitted : submittedOf flow s' = submittedOf flow s)
    (grown : ∀ x ∈ s.emitted, x ∈ s'.emitted)
    (ackInfo : ∀ x ∈ s'.ackInfo, pureAck flow x = true → x ∈ s.ackInfo)
    (held : ∀ i x, pureAck flow x = true → ((s'.mgr.tcpInfo i).skb = some x ↔ (s.mgr.tcpInfo i).skb = some x))
    (sess : ∀ i x, (s.mgr.tcpInfo i).skb = some x → pureAck flow x = true →
      (s'.mgr.tcpInfo i).busy = (s.mgr.tcpInfo i).busy ∧ (s'.mgr.tcpInfo i).flow = (s.mgr.tcpInfo i).flow ∧
        (s'.mgr.tcpInfo i).timer = (s.mgr.tcpInfo i).timer)
    (seq : ∀ i, (s'.mgr.tcpInfo i).busy = true → (s'.mgr.tcpInfo i).flow = flow →
      (s.mgr.tcpInfo i).busy = true ∧ (s.mgr.tcpInfo i).flow = flow ∧
        (s'.mgr.tcpInfo i).seq = (s.mgr.tcpInfo i).seq) : ThinInv flow s' where
  enabled := enabled.trans inv.enabled
  held i x holds pure := by
    have before := (held i x pure).mp holds
    obtain ⟨busy, flow', timer⟩ := sess i x before pure
    rw [emitted, submitted, busy, flow', timer]
    exact inv.held i x before pure
  seq i busy ofFlow := by
    obtain ⟨busy', flow', same⟩ := seq i busy ofFlow
    rw [submitted, same]
    exact inv.seq i busy' flow'
  caught none := by
    rw [emitted, submitted]
    refine inv.caught fun i x holds => ?_
    by_contra pure
    have pure := not_eq_false _ ▸ pure
    exact Bool.false_ne_true ((none i x ((held i x pure).mpr holds)).symm.trans pure)
  ackInfo x member pure := grown x (inv.ackInfo x (ackInfo x member pure) pure)

theorem marked (enabled : s'.mgr.enable = s.mgr.enable)
    (emitted : s'.emitted = s.emitted) (submitted : s'.submitted = s.submitted)
    (ackInfo : s'.ackInfo = s.ackInfo)
    (sess : ∀ i, ∃ marker, s'.mgr.tcpInfo i = { s.mgr.tcpInfo i with inTxqSkb := marker }) :
    ThinInv flow s' := by
  refine inv.aside enabled (by rw [emittedOf, emitted]; rfl) (by rw [submittedOf, submitted]; rfl)
    (fun x member => emitted ▸ member) (fun x member _ => ackInfo ▸ member) ?_ ?_ ?_
  · intro i x _
    obtain ⟨marker, same⟩ := sess i
    rw [same]
  · intro i x _ _
    obtain ⟨marker, same⟩ := sess i
    rw [same]
    exact ⟨rfl, rfl, rfl⟩
  · intro i busy ofFlow
    obtain ⟨marker, same⟩ := sess i
    rw [same] at busy ofFlow ⊢
    exact ⟨busy, ofFlow, rfl⟩

end

end ThinInv

/-! ### A call of the filter -/

section Filter

def filtered (s : AckHw) (jiffies : BitVec 64) (tx : AckTx) : AckMgr.Filtered :=
  s.mgr.amlFilterTxTcpAck jiffies (s.numbered tx)

theorem submitted_pure (pure : pureAck flow tx.skb = true) :
    submittedOf flow (s.filter jiffies tx) = submittedOf flow s ++ [(s.numbered tx).skb] := by
  have last : [(s.numbered tx).skb].filter (pureAck flow) = [(s.numbered tx).skb] :=
    List.filter_cons_of_pos pure
  show ((s.submitted ++ [s.numbered tx]).map AckTx.skb).filter (pureAck flow) = _
  rw [List.map_append, filter_append, List.map_singleton, last]
  rfl

theorem submitted_other (other : pureAck flow tx.skb = false) :
    submittedOf flow (s.filter jiffies tx) = submittedOf flow s := by
  have last : [(s.numbered tx).skb].filter (pureAck flow) = [] :=
    List.filter_cons_of_neg (eq_false_iff.mp other)
  show ((s.submitted ++ [s.numbered tx]).map AckTx.skb).filter (pureAck flow) = _
  rw [List.map_append, filter_append, List.map_singleton, last, append_nil]
  rfl

theorem emitted_kept (ret : (filtered s jiffies tx).ret = true) :
    (s.filter jiffies tx).emitted = s.emitted := if_pos ret

theorem emitted_goesOn (ret : (filtered s jiffies tx).ret = false) :
    (s.filter jiffies tx).emitted = s.emitted ++ [(s.numbered tx).skb] :=
  if_neg (eq_false_iff.mp ret)

theorem emitted_pure (pure : pureAck flow tx.skb = true) (ret : (filtered s jiffies tx).ret = false) :
    emittedOf flow (s.filter jiffies tx) = emittedOf flow s ++ [(s.numbered tx).skb] := by
  have last : [(s.numbered tx).skb].filter (pureAck flow) = [(s.numbered tx).skb] :=
    List.filter_cons_of_pos pure
  rw [emittedOf, emitted_goesOn ret, filter_append, last]
  rfl

theorem emitted_other (other : pureAck flow tx.skb = false) :
    emittedOf flow (s.filter jiffies tx) = emittedOf flow s := by
  have last : [(s.numbered tx).skb].filter (pureAck flow) = [] :=
    List.filter_cons_of_neg (eq_false_iff.mp other)
  cases ret : (filtered s jiffies tx).ret with
  | true => rw [emittedOf, emitted_kept ret, emittedOf]
  | false => rw [emittedOf, emitted_goesOn ret, filter_append, last, append_nil, emittedOf]

theorem emitted_grows (s : AckHw) (jiffies : BitVec 64) (tx : AckTx) :
    ∀ x ∈ s.emitted, x ∈ (s.filter jiffies tx).emitted := fun x member => by
  cases ret : (filtered s jiffies tx).ret with
  | true => exact (emitted_kept ret) ▸ member
  | false => exact (emitted_goesOn ret) ▸ List.mem_append_left _ member

theorem ackInfo_filter {x : Skb} (member : x ∈ (s.filter jiffies tx).ackInfo) :
    x ∈ s.ackInfo ∨ (x = (s.numbered tx).skb ∧ (filtered s jiffies tx).type = .ackInfo) := by
  by_cases info : (filtered s jiffies tx).type = .ackInfo
  · have log : (s.filter jiffies tx).ackInfo = s.ackInfo ++ [(s.numbered tx).skb] := if_pos info
    rw [log] at member
    rcases List.mem_append.mp member with old | new
    · exact .inl old
    · exact .inr ⟨List.mem_singleton.mp new, info⟩
  · have log : (s.filter jiffies tx).ackInfo = s.ackInfo := if_neg info
    exact .inl (log ▸ member)

namespace ThinInv

theorem aged_held (unblocked : Unblocked flow s (.filter jiffies tx)) (seen : ¬ s.mgr.Unseen tx)
    (tx' : AckTx) {i : Fin amlTcpSessNum} {x : Skb} (holds : (s.mgr.tcpInfo i).skb = some x)
    (pure : pureAck flow x = true) : (s.mgr.aged jiffies tx').tcpInfo i = s.mgr.tcpInfo i := by
  rw [(AckMgr.aged_spec ..).1, AckMgr.ageout_tcpInfo]
  refine if_neg fun aged => ?_
  exact Bool.false_ne_true ((unblocked seen i aged x holds).symm.trans pure)

theorem aged_skb (tx' : AckTx) (i : Fin amlTcpSessNum) :
    ((s.mgr.aged jiffies tx').tcpInfo i).skb = (s.mgr.tcpInfo i).skb := by
  obtain ⟨busy, same, -⟩ := AckMgr.ageout_keeps s.mgr jiffies i
  rw [(AckMgr.aged_spec ..).1, same]

section

variable (inv : ThinInv flow s)

include inv

/-- **A frame that is no ACK of the flow.** -/
theorem filter_other (sound : s.mgr.Sound)
    (unblocked : Unblocked flow s (.filter jiffies tx)) (other : pureAck flow tx.skb = false) :
    ThinInv flow (s.filter jiffies tx) := by
  have mgr : (s.filter jiffies tx).mgr = (filtered s jiffies tx).mgr := rfl
  -- What is left to compare is the sessions.
  have rest : _ → _ → _ → ThinInv flow (s.filter jiffies tx) := fun held sess seq => inv.aside
    (AckMgr.filter_enable s.mgr jiffies (s.numbered tx)) (emitted_other other) (submitted_other other)
    (emitted_grows s jiffies tx) (fun x member pure => (ackInfo_filter member).resolve_right
      fun this => Bool.false_ne_true
        (other.symm.trans ((congrArg (pureAck flow) this.1).symm.trans pure))) held sess seq
  by_cases unseen : s.mgr.Unseen (s.numbered tx)
  · have same : (s.filter jiffies tx).mgr = s.mgr := by
      rw [mgr, filtered, AckMgr.filter_unseen unseen]
    refine rest ?_ ?_ ?_
    · rw [same]
      exact fun _ _ _ => Iff.rfl
    · rw [same]
      exact fun _ _ _ _ => ⟨rfl, rfl, rfl⟩
    · rw [same]
      exact fun _ busy ofFlow => ⟨busy, ofFlow, rfl⟩
  · have short : (s.numbered tx).skb.len ≤ maxTcpAckLen :=
      BitVec.not_lt.mp fun long => unseen (.inr long)
    have strange : (s.numbered tx).skb.type ≠ .notAck → (s.numbered tx).skb.flow ≠ flow :=
      fun ack same => by
        have pure : pureAck flow (s.numbered tx).skb = true := by
          simp only [pureAck, same, ack, short, decide_true, ne_eq, not_false_eq_true, Bool.and_true]
        exact Bool.false_ne_true (other.symm.trans pure)
    have agedHeld := fun i x holds pure =>
      aged_held (i := i) (x := x) unblocked unseen (s.numbered tx) holds pure
    -- A slot that holds no ACK of the flow, before and after, and is not of the flow.
    have slot : ∀ i t, (filtered s jiffies tx).mgr.tcpInfo =
          Function.update (s.mgr.aged jiffies (s.numbered tx)).tcpInfo i t → t.flow ≠ flow →
        (∀ x, (s.mgr.tcpInfo i).skb = some x → pureAck flow x = false) →
        (∀ x, t.skb = some x → pureAck flow x = false) → ThinInv flow (s.filter jiffies tx) :=
      fun i t tcpInfo away before after => by
        refine rest ?_ ?_ ?_
        · intro j x pure
          rw [mgr, tcpInfo]
          by_cases here : j = i
          · rw [here, update_self]
            exact ⟨fun holds => absurd ((after x holds).symm.trans pure) Bool.false_ne_true,
              fun holds => absurd ((before x holds).symm.trans pure) Bool.false_ne_true⟩
          · rw [update_of_ne here, aged_skb]
        · intro j x holds pure
          have there : j ≠ i := by
            rintro rfl
            exact Bool.false_ne_true ((before x holds).symm.trans pure)
          rw [mgr, tcpInfo, update_of_ne there, agedHeld j x holds pure]
          exact ⟨rfl, rfl, rfl⟩
        · intro j busy ofFlow
          rw [mgr, tcpInfo] at busy ofFlow ⊢
          have there : j ≠ i := by
            rintro rfl
            rw [update_self] at ofFlow
            exact away ofFlow
          rw [update_of_ne there] at busy ofFlow ⊢
          have same := (busy_aged busy).1
          rw [same] at busy ofFlow ⊢
          exact ⟨busy, ofFlow, rfl⟩
    cases AckMgr.filter_cases s.mgr jiffies (s.numbered tx) unseen with
    | passed tcpInfo =>
      refine rest ?_ ?_ ?_
      · intro j x _
        rw [mgr, filtered, tcpInfo, aged_skb]
      · intro j x holds pure
        rw [mgr, filtered, tcpInfo, agedHeld j x holds pure]
        exact ⟨rfl, rfl, rfl⟩
      · intro j busy ofFlow
        rw [mgr, filtered, tcpInfo] at busy ofFlow ⊢
        have same := (busy_aged busy).1
        rw [same] at busy ofFlow ⊢
        exact ⟨busy, ofFlow, rfl⟩
    | opened ack i t new pick tcpInfo slots ofFlow seq sta timer skb =>
      have free := W2l.Lib.Slots.pick_free (sound.aged jiffies (s.numbered tx)).slots pick
      have before : ∀ x, (s.mgr.tcpInfo i).skb = some x → pureAck flow x = false := fun x holds => by
        by_contra pure
        have pure := not_eq_false _ ▸ pure
        have busy := (inv.held i x holds pure).1.1
        rw [← agedHeld i x holds pure] at busy
        exact Bool.false_ne_true (free.symm.trans busy)
      refine slot i t tcpInfo (ofFlow ▸ strange ack) before fun x holds => ?_
      rw [skb, aged_skb] at holds
      exact before x holds
    | replaced ack i t found tcpInfo slots ofFlow busy sta how =>
      obtain ⟨wasBusy, wasFlow⟩ := find_some found
      have away : t.flow ≠ flow := by
        rw [ofFlow, wasFlow]
        exact strange ack
      have before : ∀ x, (s.mgr.tcpInfo i).skb = some x → pureAck flow x = false := fun x holds => by
        by_contra pure
        have pure := not_eq_false _ ▸ pure
        have of := (inv.held i x holds pure).1.2.1
        rw [← (busy_aged wasBusy).1, wasFlow] at of
        exact strange ack of
      refine slot i t tcpInfo away before fun x holds => ?_
      cases how with
      | goesOn old seq none => cases none.symm.trans holds
      | held old seq some =>
        obtain rfl := Option.some.inj (some.symm.trans holds)
        exact other
      | refused old seq same =>
        rw [same, aged_skb] at holds
        exact before x holds

theorem emits (pure : pureAck flow tx.skb = true)
    (ret : (filtered s jiffies tx).ret = false)
    (none : ∀ i x, ((s.filter jiffies tx).mgr.tcpInfo i).skb = some x → pureAck flow x = false)
    (seq : ∀ i, ((s.filter jiffies tx).mgr.tcpInfo i).busy = true →
      ((s.filter jiffies tx).mgr.tcpInfo i).flow = flow →
      ((s.filter jiffies tx).mgr.tcpInfo i).seq = tx.skb.seq) :
    ThinInv flow (s.filter jiffies tx) where
  enabled := (AckMgr.filter_enable s.mgr jiffies (s.numbered tx)).trans inv.enabled
  held i x holds this := absurd ((none i x holds).symm.trans this) Bool.false_ne_true
  seq i busy ofFlow := by
    rw [submitted_pure pure]
    exact ⟨_, List.getLast?_concat, seq i busy ofFlow⟩
  caught _ := by
    rw [submitted_pure pure, emitted_pure pure ret]
    exact ⟨inv.order.append (List.Sublist.refl _), by simp⟩
  ackInfo x member this := by
    rcases ackInfo_filter member with old | ⟨rfl, -⟩
    · exact emitted_grows s jiffies tx x (inv.ackInfo x old this)
    · rw [emitted_goesOn ret]
      exact List.mem_append_right _ List.mem_cons_self

theorem holds (pure : pureAck flow tx.skb = true)
    (ret : (filtered s jiffies tx).ret = true) (type : (filtered s jiffies tx).type ≠ .ackInfo)
    {i : Fin amlTcpSessNum}
    (holds : ((s.filter jiffies tx).mgr.tcpInfo i).skb = some (s.numbered tx).skb)
    (sess : ((s.filter jiffies tx).mgr.tcpInfo i).busy = true ∧ ((s.filter jiffies tx).mgr.tcpInfo i).flow = flow ∧
      ((s.filter jiffies tx).mgr.tcpInfo i).timer = true)
    (only : ∀ j x, ((s.filter jiffies tx).mgr.tcpInfo j).skb = some x → pureAck flow x = true → j = i)
    (seq : ∀ j, ((s.filter jiffies tx).mgr.tcpInfo j).busy = true →
      ((s.filter jiffies tx).mgr.tcpInfo j).flow = flow →
      ((s.filter jiffies tx).mgr.tcpInfo j).seq = tx.skb.seq) :
    ThinInv flow (s.filter jiffies tx) where
  enabled := (AckMgr.filter_enable s.mgr jiffies (s.numbered tx)).trans inv.enabled
  held j x there this := by
    obtain rfl := only j x there this
    obtain rfl := Option.some.inj (holds.symm.trans there)
    rw [submitted_pure pure, emittedOf, emitted_kept ret]
    exact ⟨sess, inv.order.append (List.Sublist.refl _), List.getLast?_concat⟩
  seq j busy ofFlow := by
    rw [submitted_pure pure]
    exact ⟨_, List.getLast?_concat, seq j busy ofFlow⟩
  caught none := absurd ((none i _ holds).symm.trans pure) Bool.false_ne_true
  ackInfo x member this := by
    rcases ackInfo_filter member with old | ⟨-, clash⟩
    · exact emitted_grows s jiffies tx x (inv.ackInfo x old this)
    · exact absurd clash type

/-- **An ACK of the flow.** -/
theorem filter_pure (sound : s.mgr.Sound)
    (inOrder : InOrder flow s (.filter jiffies tx))
    (unblocked : Unblocked flow s (.filter jiffies tx)) (pure : pureAck flow tx.skb = true) :
    ThinInv flow (s.filter jiffies tx) := by
  have mgr : (s.filter jiffies tx).mgr = (filtered s jiffies tx).mgr := rfl
  obtain ⟨⟨ofFlow, ack⟩, short⟩ : ((s.numbered tx).skb.flow = flow ∧
      (s.numbered tx).skb.type ≠ .notAck) ∧ (s.numbered tx).skb.len ≤ maxTcpAckLen := by
    show (tx.skb.flow = flow ∧ tx.skb.type ≠ .notAck) ∧ tx.skb.len ≤ maxTcpAckLen
    simpa [pureAck] using pure
  have seen : ¬ s.mgr.Unseen (s.numbered tx) := by
    rintro (off | long)
    · exact Bool.false_ne_true (off.symm.trans inv.enabled)
    · exact BitVec.not_lt.mpr short long
  have agedHeld := fun i x holds pure =>
    aged_held (i := i) (x := x) unblocked seen (s.numbered tx) holds pure
  have table := sound.aged jiffies (s.numbered tx)
  cases AckMgr.filter_cases s.mgr jiffies (s.numbered tx) seen with
  | passed tcpInfo slots ret drop taken full =>
    -- The table is full: the flow has no session.
    have missing := full.resolve_left ack
    have foreign := fun i busy => ofFlow ▸ find_none missing i busy
    refine inv.emits pure ret ?_ ?_
    · intro i x holds
      rw [mgr, filtered, tcpInfo, aged_skb] at holds
      by_contra this
      have this := not_eq_false _ ▸ this
      obtain ⟨busy, same, -⟩ := (inv.held i x holds this).1
      rw [← agedHeld i x holds this] at busy same
      exact foreign i busy same
    · intro i busy same
      rw [mgr, filtered, tcpInfo] at busy same
      exact absurd same (foreign i busy)
  | opened ack' i t new pick tcpInfo slots flow' seq sta timer skb busy ret =>
    have foreign := fun i busy => ofFlow ▸ find_none new i busy
    have none : ∀ j x, (s.mgr.tcpInfo j).skb = some x → pureAck flow x = false := fun j x holds => by
      by_contra this
      have this := not_eq_false _ ▸ this
      obtain ⟨busy, same, -⟩ := (inv.held j x holds this).1
      rw [← agedHeld j x holds this] at busy same
      exact foreign j busy same
    refine inv.emits pure ret ?_ ?_
    · intro j x holds
      rw [mgr, filtered, tcpInfo] at holds
      by_cases here : j = i
      · rw [here, update_self, skb, aged_skb] at holds
        exact none i x holds
      · rw [update_of_ne here, aged_skb] at holds
        exact none j x holds
    · intro j busy' same
      rw [mgr, filtered, tcpInfo] at busy' same ⊢
      by_cases here : j = i
      · rw [here, update_self]
        exact seq
      · rw [update_of_ne here] at busy' same
        exact absurd same (foreign j busy')
  | replaced ack' i t found tcpInfo slots flow' busy sta how =>
    obtain ⟨wasBusy, wasFlow⟩ := find_some found
    have same := (busy_aged wasBusy).1
    rw [ofFlow] at wasFlow
    -- The session of the flow has the number of the last ACK.
    obtain ⟨last, latest, number⟩ := inv.seq i (same ▸ wasBusy) (same ▸ wasFlow)
    have before : amlU32Before ((s.mgr.aged jiffies (s.numbered tx)).tcpInfo i).seq
        (s.numbered tx).skb.seq = true := by
      rw [same, number]
      exact amlU32Before_of_ahead (inOrder pure last latest)
    have elsewhere : ∀ j x, j ≠ i → (s.mgr.tcpInfo j).skb = some x → pureAck flow x = false :=
      fun j x there holds => by
        by_contra this
        exact there (inv.only sound (same ▸ wasBusy) (same ▸ wasFlow) holds (not_eq_false _ ▸ this))
    have seqs : t.seq = tx.skb.seq → ∀ j, ((s.filter jiffies tx).mgr.tcpInfo j).busy = true →
        ((s.filter jiffies tx).mgr.tcpInfo j).flow = flow →
        ((s.filter jiffies tx).mgr.tcpInfo j).seq = tx.skb.seq := fun seq j busy' same' => by
      rw [mgr, filtered, tcpInfo] at busy' same' ⊢
      by_cases here : j = i
      · rw [here, update_self]
        exact seq
      · rw [update_of_ne here] at busy' same'
        exact absurd (table.unique j i busy' wasBusy (same'.trans wasFlow.symm)) here
    cases how with
    | goesOn old seq none timer ret =>
      refine inv.emits pure ret (fun j x holds => ?_) (seqs seq)
      rw [mgr, filtered, tcpInfo] at holds
      by_cases here : j = i
      · rw [here, update_self, none] at holds
        cases holds
      · rw [update_of_ne here, aged_skb] at holds
        exact elsewhere j x here holds
    | held old seq some timer ret drop type =>
      have at_ : (s.filter jiffies tx).mgr.tcpInfo i = t := by
        rw [mgr, filtered, tcpInfo, update_self]
      refine inv.holds pure ret type (i := i) (by rw [at_]; exact some) ?_ ?_ (seqs seq)
      · rw [at_]
        exact ⟨busy.trans wasBusy, flow'.trans wasFlow, timer⟩
      · intro j x holds this
        by_contra there
        rw [mgr, filtered, tcpInfo, update_of_ne there, aged_skb] at holds
        exact Bool.false_ne_true ((elsewhere j x there holds).symm.trans this)
    | refused after => exact absurd (after.symm.trans before) Bool.false_ne_true

end

end ThinInv

end Filter

/-! ### The timers -/

namespace ThinInv

/-- **The expiry of a timer.** -/
theorem timeout (inv : ThinInv flow s) (sound : s.mgr.Sound) {i : Fin amlTcpSessNum} {sent : Sent}
    (unblocked : Unblocked flow s (.timeout i sent)) (stepped : s.timeout i sent = some s') :
    ThinInv flow s' := by
  obtain ⟨t, tcpInfo, -, ofFlow, seq, busy, -, fired⟩ := AckMgr.expired_cases s.mgr i
  have enabled := AckMgr.timeout_enable s.mgr i
  have others : ∀ j, j ≠ i → ((s.mgr.expire i).amlTcpAckTimeout i).1.tcpInfo j = s.mgr.tcpInfo j := fun j other => by
    rw [tcpInfo, update_of_ne other]
  have seqs : ∀ j, (((s.mgr.expire i).amlTcpAckTimeout i).1.tcpInfo j).busy =
        (s.mgr.tcpInfo j).busy ∧ (((s.mgr.expire i).amlTcpAckTimeout i).1.tcpInfo j).flow =
        (s.mgr.tcpInfo j).flow ∧ (((s.mgr.expire i).amlTcpAckTimeout i).1.tcpInfo j).seq =
        (s.mgr.tcpInfo j).seq := fun j => by
    by_cases here : j = i
    · rw [here, tcpInfo, update_self]
      exact ⟨busy, ofFlow, seq⟩
    · rw [others j here]
      exact ⟨rfl, rfl, rfl⟩
  unfold AckHw.timeout at stepped
  split at stepped
  case isFalse => cases stepped
  case isTrue timer =>
    -- A step in which the slot holds no ACK of the flow, before and after.
    have away : ∀ s'', s''.mgr = ((s.mgr.expire i).amlTcpAckTimeout i).1 →
        s''.submitted = s.submitted → emittedOf flow s'' = emittedOf flow s →
        (∀ x ∈ s.emitted, x ∈ s''.emitted) → s''.ackInfo = s.ackInfo →
        (∀ x, (s.mgr.tcpInfo i).skb = some x → pureAck flow x = false) →
        (∀ x, t.skb = some x → pureAck flow x = false) → ThinInv flow s'' :=
      fun s'' mgr submitted emitted grown ackInfo before after => by
        refine inv.aside (mgr ▸ enabled) emitted (by rw [submittedOf, submitted]; rfl) grown
          (fun x member _ => ackInfo ▸ member) ?_ ?_ ?_
        · intro j x pure
          rw [mgr]
          by_cases here : j = i
          · rw [here, tcpInfo, update_self]
            exact ⟨fun holds => absurd ((after x holds).symm.trans pure) Bool.false_ne_true,
              fun holds => absurd ((before x holds).symm.trans pure) Bool.false_ne_true⟩
          · rw [others j here]
        · intro j x holds pure
          have there : j ≠ i := by
            rintro rfl
            exact Bool.false_ne_true ((before x holds).symm.trans pure)
          rw [mgr, others j there]
          exact ⟨rfl, rfl, rfl⟩
        · intro j busy' flow'
          rw [mgr] at busy' flow' ⊢
          obtain ⟨b, f, q⟩ := seqs j
          exact ⟨b ▸ busy', f ▸ flow', q⟩
    cases fired with
    | nothing skb result idle =>
      have quiet : ∀ x, (s.mgr.tcpInfo i).skb = some x → pureAck flow x = false := fun x holds => by
        by_contra pure
        have pure := not_eq_false _ ▸ pure
        rcases idle with none | free | marked
        · cases none.symm.trans holds
        · exact Bool.false_ne_true (free.symm.trans (inv.held i x holds pure).1.1)
        · exact marked (unblocked x holds pure).1
      split at stepped
      case h_1 mgr tx send =>
        rw [send] at result
        cases result
      case h_2 mgr send =>
        obtain rfl := Option.some.inj stepped
        exact away _ (by rw [send]) rfl rfl (fun x => id) rfl quiet fun x holds =>
          quiet x (skb ▸ holds)
    | sent x holds wasBusy marker skb result =>
      have empty : ∀ y, t.skb = some y → pureAck flow y = false := fun y clash => by
        cases skb.symm.trans clash
      split at stepped
      case h_2 mgr send =>
        rw [send] at result
        cases result
      case h_1 mgr tx send =>
        rw [send] at result
        obtain rfl := Option.some.inj result
        obtain rfl := Option.some.inj stepped
        cases pure : pureAck flow x with
        | false =>
          have before : ∀ y, (s.mgr.tcpInfo i).skb = some y → pureAck flow y = false :=
            fun y same => by
              obtain rfl := Option.some.inj (holds.symm.trans same)
              exact pure
          cases sent with
          | noHeader => exact away _ (by rw [send]; rfl) rfl rfl (fun y => id) rfl before empty
          | freed => exact away _ (by rw [send]; rfl) rfl rfl (fun y => id) rfl before empty
          | queued =>
            refine away _ (by rw [send]; rfl) rfl ?_ (fun y => List.mem_append_left _) rfl before empty
            show (s.emitted ++ [x]).filter (pureAck flow) = _
            rw [filter_append, List.filter_cons_of_neg (eq_false_iff.mp pure), List.filter_nil, append_nil]
            rfl
        | true =>
          obtain ⟨⟨-, sameFlow, -⟩, sublist, latest⟩ := inv.held i x holds pure
          obtain rfl := (unblocked x holds pure).2
          have sent : emittedOf flow (AckHw.send { s with mgr := mgr }
              ⟨(s.mgr.tcpInfo i).sta, (s.mgr.tcpInfo i).amlVif, x⟩ .queued) =
              emittedOf flow s ++ [x] := by
            show (s.emitted ++ [x]).filter (pureAck flow) = _
            rw [filter_append, List.filter_cons_of_pos pure, List.filter_nil]
            rfl
          have sessions : ∀ j, mgr.tcpInfo j =
              ((s.mgr.expire i).amlTcpAckTimeout i).1.tcpInfo j := fun j => by rw [send]
          have none : ∀ j y, (mgr.tcpInfo j).skb = some y → pureAck flow y = false :=
            fun j y there => by
              rw [sessions] at there
              by_cases here : j = i
              · rw [here, tcpInfo, update_self] at there
                exact empty y there
              · rw [others j here] at there
                by_contra this
                exact here (inv.only sound wasBusy sameFlow there (not_eq_false _ ▸ this))
          constructor
          case enabled =>
            show mgr.enable = true
            have kept := enabled.trans inv.enabled
            rw [send] at kept
            exact kept
          case held =>
            exact fun j y there this =>
              absurd ((none j y there).symm.trans this) Bool.false_ne_true
          case seq =>
            intro j busy' flow'
            obtain ⟨b, f, q⟩ := seqs j
            rw [← sessions] at b f q
            obtain ⟨y, before, number⟩ := inv.seq j (b ▸ busy') (f ▸ flow')
            exact ⟨y, before, q.trans number⟩
          case caught =>
            rw [sent]
            exact fun _ => ⟨sublist, List.getLast?_concat.trans latest.symm⟩
          case ackInfo =>
            exact fun y member this => List.mem_append_left _ (inv.ackInfo y member this)

theorem step (inv : ThinInv flow s) (sound : s.mgr.Sound) {a : AckAct} (inOrder : InOrder flow s a)
    (unblocked : Unblocked flow s a) (stepped : s.step a = some s') : ThinInv flow s' := by
  cases a with
  | filter jiffies tx =>
    obtain rfl := Option.some.inj stepped
    cases pure : pureAck flow tx.skb with
    | true => exact inv.filter_pure sound inOrder unblocked pure
    | false => exact inv.filter_other sound unblocked pure
  | timeout i sent => exact inv.timeout sound unblocked stepped
  | push id len =>
    obtain ⟨tx, -, rfl⟩ := map_eq_some_iff.mp stepped
    refine inv.marked (AckMgr.check_enable ..) rfl rfl rfl fun i => ?_
    obtain ⟨marker, same, -⟩ := AckMgr.check_tcpInfo s.mgr id len i
    exact ⟨marker, same⟩
  | check skb len =>
    obtain rfl := Option.some.inj stepped
    refine inv.marked (AckMgr.check_enable ..) rfl rfl rfl fun i => ?_
    obtain ⟨marker, same, -⟩ := AckMgr.check_tcpInfo s.mgr skb len i
    exact ⟨marker, same⟩
  | drop id | aggregate id | pushAmsdu id | dropAmsdu id =>
    obtain ⟨tx, -, rfl⟩ := map_eq_some_iff.mp stepped
    exact inv.marked rfl rfl rfl rfl fun i => ⟨_, rfl⟩

end ThinInv

/-- **ACK thinning preserves progress.** -/
theorem thinning_progress
    (reach : (ackSystem bus hz jiffies).Reachable
      (fun s a => InOrder flow s a ∧ Unblocked flow s a) s) : Progress flow s :=
  (reach.invariant (I := ThinInv flow) thinInv_init fun _ _ _ before inv allowed stepped =>
    inv.step (sound_of_reachable before) allowed.1 allowed.2 stepped).progress

/-! ### Runs -/

instance (flow : Flow) (s : AckHw) (a : AckAct) : Decidable (InOrder flow s a) :=
  match a with
  | .filter _ tx => inferInstanceAs (Decidable (pureAck flow tx.skb = true →
      ∀ last ∈ (submittedOf flow s).getLast?, (tx.skb.seq - last.seq).toNat < 2 ^ 31))
  | .timeout _ _ | .push _ _ | .drop _ | .aggregate _ | .pushAmsdu _ | .dropAmsdu _ | .check _ _ =>
    .isTrue trivial

instance (flow : Flow) (s : AckHw) (a : AckAct) : Decidable (Unblocked flow s a) :=
  match a with
  | .filter jiffies tx => inferInstanceAs (Decidable (¬ s.mgr.Unseen tx → ∀ i,
      s.mgr.AgedOut jiffies i → ∀ x ∈ (s.mgr.tcpInfo i).skb, pureAck flow x = false))
  | .timeout i sent => inferInstanceAs (Decidable (∀ x ∈ (s.mgr.tcpInfo i).skb,
      pureAck flow x = true → (s.mgr.tcpInfo i).inTxqSkb = none ∧ sent = .queued))
  | .push _ _ | .drop _ | .aggregate _ | .pushAmsdu _ | .dropAmsdu _ | .check _ _ => .isTrue trivial

/-- Five ACKs, across the wrap of the acknowledgement numbers: one is thinned out, the last one is sent
by the timer. -/
theorem thinning_progress_wrap : ∃ s, (ackSystem .sdio 250 0).Reachable
        (fun s a => InOrder (ackFrame 1 0).skb.flow s a ∧ Unblocked (ackFrame 1 0).skb.flow s a) s ∧
      s.emitted.map Skb.id = [0, 1, 2, 4] ∧ s.kept.map Skb.id = [3, 4] ∧
      Progress (ackFrame 1 0).skb.flow s := by
  have reach := System.reachable_of_run (ackSystem .sdio 250 0)
    (fun s a => InOrder (ackFrame 1 0).skb.flow s a ∧ Unblocked (ackFrame 1 0).skb.flow s a)
    [.filter 0 synAck, .filter 0 (ackFrame 1 0xfffffff0), .filter 0 (ackFrame 1 0xfffffff8),
      .filter 0 (ackFrame 1 0), .filter 0 (ackFrame 1 8), .push 2 60, .timeout 0 .queued]
    (by decide +kernel)
  exact ⟨_, reach, by decide +kernel, by decide +kernel, thinning_progress reach⟩

/-- **A timer that gave up leaves the last ACK behind**, with nothing pending and nothing queued. -/
theorem thinning_stalls : ¬ ∀ flow bus hz jiffies s, (ackSystem bus hz jiffies).Reachable (InOrder flow) s →
      Progress flow s := by
  intro progress
  have reach := System.reachable_of_run (ackSystem .sdio 250 0) (InOrder (ackFrame 1 0).skb.flow)
    [.filter 0 synAck, .filter 0 (ackFrame 1 1), .filter 0 (ackFrame 1 2), .filter 0 (ackFrame 1 3),
      .timeout 0 .queued, .push 0 60, .push 1 60, .push 2 60]
    (by decide +kernel)
  have last := (progress _ .sdio 250 0 _ reach).last (by decide +kernel) (by decide +kernel) (by decide +kernel)
  revert last
  decide +kernel

end W2l.Tcp
