/-
**Channel gating of the TX queues: the invariant.**

* `Table` — which interface a queue in use belongs to; `Table.reaches` — a stop of an interface reaches
  all its queues, `Table.of_started` — a start reaches no others.
* `QueueOk`, `Gated` — **a queue that the channel does not stop is on the channel the firmware is on**, and
  a queue of a station has the reasons in force.
* `KeptQueue`, `Gated.kept` — what may happen to a queue without breaking this.
-/

import W2lDriver.Gate.Channel

set_option linter.unusedSectionVars false

namespace W2l.Gate

open Chan (amlChNotSet)
open Sched (StopReason nxNbTxqPerSta)
open Option (mem_toList some.inj)

variable {V S : Type} [DecidableEq V] [DecidableEq S]

/-! ### The stations of an interface -/

namespace GateHw

variable (s : GateHw V S)

/-- A station belongs to an interface. -/
def Member (v : V) (i : S) : Prop :=
  match (s.vif v).iftype with
  | .station | .p2pClient => (s.vif v).ap = some i ∨ (s.vif v).tdlsSta = some i
  | .ap | .p2pGo | .meshPoint => i ∈ (s.vif v).staList
  | .apVlan | .monitor => False

/-- What decides which stations belong to an interface. -/
def shape (v : V) : Iftype × Option V × Bool × Option S × Option S × List S :=
  ((s.vif v).iftype, (s.vif v).master, (s.vif v).up, (s.vif v).ap, (s.vif v).tdlsSta, (s.vif v).staList)

/-- **The queues in use belong to interfaces.** -/
structure Table (tdls : Bool) : Prop where
  owned : ∀ i tid, (s.txq (.sta i tid)).active = true → ∃ v ∈ s.vifs, s.Member v i
  unique : ∀ v ∈ s.vifs, ∀ i, s.Member v i → s.staVif i = some v
  up : ∀ v ∈ s.vifs, (s.vif v).up = true
  bcmc : ∀ v, (s.txq (.bcmc v)).active = true → v ∈ s.vifs ∧ (s.vif v).iftype.isAp = true
  unk : ∀ v, (s.txq (.unk v)).active = true → v ∈ s.vifs ∧ ((s.vif v).iftype.isAp = true ∨
      (s.vif v).iftype.isStation = true ∧ tdls = true ∧ (s.vif v).ap.isSome = true)
  client : ∀ v ∈ s.vifs, (s.vif v).iftype.isStation = false → (s.vif v).ap = none ∧ (s.vif v).tdlsSta = none
  vlan : ∀ v ∈ s.vifs, (s.vif v).iftype = .apVlan → (s.vif v).chIndex = amlChNotSet ∧
    ∃ m ∈ s.vifs, (s.vif v).master = some m ∧ (s.vif m).iftype.isAp = true

variable {s} {t : GateHw V S} {tdls : Bool} {v : V} {i : S}

theorem member_congr (shape : t.shape v = s.shape v) : t.Member v i ↔ s.Member v i := by
  simp only [GateHw.shape, Prod.mk.injEq] at shape
  obtain ⟨iftype, -, -, ap, tdlsSta, staList⟩ := shape
  unfold Member
  rw [iftype, ap, tdlsSta, staList]

theorem Table.congr (table : s.Table tdls) (vifs : t.vifs = s.vifs) (sta : t.staVif = s.staVif)
    (shape : ∀ v, t.shape v = s.shape v)
    (link : ∀ v, (s.vif v).iftype = .apVlan → (t.vif v).chIndex = (s.vif v).chIndex)
    (active : ∀ q, q ≠ .offchan → (t.txq q).active = true → (s.txq q).active = true) :
    t.Table tdls := by
  have fields := fun v => shape v
  simp only [GateHw.shape, Prod.mk.injEq] at fields
  refine ⟨fun i tid used => ?_, fun v here i member => ?_, fun v here => ?_, fun v used => ?_,
    fun v used => ?_, fun v here client => ?_, fun v here vlan => ?_⟩
  · obtain ⟨v, here, member⟩ := table.owned i tid (active _ (by simp) used)
    exact ⟨v, vifs ▸ here, (member_congr (shape v)).mpr member⟩
  · rw [sta]
    exact table.unique v (vifs ▸ here) i ((member_congr (shape v)).mp member)
  · rw [(fields v).2.2.1]
    exact table.up v (vifs ▸ here)
  · rw [vifs, (fields v).1]
    exact table.bcmc v (active _ (by simp) used)
  · rw [vifs, (fields v).1, (fields v).2.2.2.1]
    exact table.unk v (active _ (by simp) used)
  · rw [(fields v).1] at client
    rw [(fields v).2.2.2.1, (fields v).2.2.2.2.1]
    exact table.client v (vifs ▸ here) client
  · rw [(fields v).1] at vlan
    obtain ⟨notSet, m, above, master, isAp⟩ := table.vlan v (vifs ▸ here) vlan
    rw [link v vlan, (fields v).2.1]
    exact ⟨notSet, m, vifs ▸ above, master, (congrArg Iftype.isAp (fields m).1).trans isAp⟩

theorem Table.atVif (table : s.Table tdls) (here : v ∈ s.vifs) (vifs : t.vifs = s.vifs)
    (same : ∀ w, w ≠ v → t.vif w = s.vif w) (kind : (t.vif v).iftype = (s.vif v).iftype)
    (notVlan : (s.vif v).iftype ≠ .apVlan) (up : (t.vif v).up = true)
    (owned : ∀ i tid, (t.txq (.sta i tid)).active = true →
      t.Member v i ∨ (s.txq (.sta i tid)).active = true ∧ ¬ s.Member v i)
    (unique : ∀ i, t.Member v i → t.staVif i = some v)
    (others : ∀ w ∈ s.vifs, w ≠ v → ∀ i, s.Member w i → t.staVif i = some w)
    (queues : ∀ w, w ≠ v → ((t.txq (.bcmc w)).active = true → (s.txq (.bcmc w)).active = true) ∧
      ((t.txq (.unk w)).active = true → (s.txq (.unk w)).active = true))
    (bcmc : (t.txq (.bcmc v)).active = true → (s.vif v).iftype.isAp = true)
    (unk : (t.txq (.unk v)).active = true → (s.vif v).iftype.isAp = true ∨
      (s.vif v).iftype.isStation = true ∧ tdls = true ∧ (t.vif v).ap.isSome = true)
    (client : (s.vif v).iftype.isStation = false → (t.vif v).ap = none ∧ (t.vif v).tdlsSta = none) :
    t.Table tdls := by
  have member : ∀ w, w ≠ v → ∀ i, t.Member w i ↔ s.Member w i := fun w other i => by
    unfold Member
    rw [same w other]
  have kinds : ∀ w, (t.vif w).iftype = (s.vif w).iftype := fun w => by
    by_cases at_ : w = v
    · rw [at_, kind]
    · rw [same w at_]
  refine ⟨fun i tid used => ?_, fun w above i isMember => ?_, fun w above => ?_, fun w used => ?_, fun w used => ?_,
    fun w above station => ?_, fun w above vlan => ?_⟩
  · rcases owned i tid used with new | ⟨old, elsewhere⟩
    · exact ⟨v, vifs ▸ here, new⟩
    · obtain ⟨w, above, isMember⟩ := table.owned i tid old
      have other : w ≠ v := fun at_ => elsewhere (at_ ▸ isMember)
      exact ⟨w, vifs ▸ above, (member w other i).mpr isMember⟩
  · by_cases at_ : w = v
    · subst at_
      exact unique i isMember
    · exact others w (vifs ▸ above) at_ i ((member w at_ i).mp isMember)
  · by_cases at_ : w = v
    · rw [at_]
      exact up
    · rw [same w at_]
      exact table.up w (vifs ▸ above)
  · rw [vifs, kinds]
    by_cases at_ : w = v
    · subst at_
      exact ⟨here, bcmc used⟩
    · exact table.bcmc w ((queues w at_).1 used)
  · rw [vifs, kinds]
    by_cases at_ : w = v
    · subst at_
      exact ⟨here, unk used⟩
    · rw [same w at_]
      exact table.unk w ((queues w at_).2 used)
  · rw [kinds] at station
    by_cases at_ : w = v
    · subst at_
      exact client station
    · rw [same w at_]
      exact table.client w (vifs ▸ above) station
  · rw [kinds] at vlan
    have other : w ≠ v := fun at_ => notVlan (at_ ▸ vlan)
    obtain ⟨notSet, m, up, master, isAp⟩ := table.vlan w (vifs ▸ above) vlan
    rw [same w other]
    exact ⟨notSet, m, vifs ▸ up, master, (congrArg Iftype.isAp (kinds m)).trans isAp⟩

theorem masterVif_of_ne (own : (s.vif v).iftype ≠ .apVlan) : s.masterVif v = v := by
  unfold masterVif
  split
  · case h_1 vlan => exact absurd vlan own
  · rfl

theorem Table.masterVif (table : s.Table tdls) (here : v ∈ s.vifs) : s.masterVif v ∈ s.vifs := by
  by_cases vlan : (s.vif v).iftype = .apVlan
  · obtain ⟨-, m, above, master, -⟩ := table.vlan v here vlan
    have up : s.masterVif v = m := by
      unfold GateHw.masterVif
      rw [vlan, master]
      rfl
    rwa [up]
  · rwa [masterVif_of_ne vlan]

theorem Table.member_of_vifStas (table : s.Table tdls) (here : v ∈ s.vifs) (walked : i ∈ s.vifStas v) :
    s.Member (s.masterVif v) i := by
  by_cases vlan : (s.vif v).iftype = .apVlan
  · obtain ⟨-, m, -, master, isAp⟩ := table.vlan v here vlan
    have up : s.masterVif v = m := by
      unfold GateHw.masterVif
      rw [vlan, master]
      rfl
    unfold vifStas at walked
    rw [vlan, up] at walked
    rw [up]
    unfold Member
    cases kind : (s.vif m).iftype <;> rw [kind] at isAp <;> first | exact walked | cases isAp
  · rw [masterVif_of_ne vlan]
    unfold vifStas at walked
    unfold Member
    cases kind : (s.vif v).iftype <;> rw [kind] at walked <;> dsimp only at walked ⊢
    case station =>
      rcases List.mem_append.mp walked with tdls | ap
      · split at tdls
        · exact .inr (mem_toList.mp tdls)
        · cases tdls
      · exact .inl (mem_toList.mp ap)
    case p2pClient =>
      rcases List.mem_append.mp walked with tdls | ap
      · split at tdls
        · exact .inr (mem_toList.mp tdls)
        · cases tdls
      · exact .inl (mem_toList.mp ap)
    case apVlan => exact absurd kind vlan
    case monitor => cases walked
    all_goals exact walked

theorem Table.member_of_tdls (table : s.Table tdls) (here : v ∈ s.vifs)
    (isTdls : (s.vif v).tdlsSta = some i) : s.Member v i := by
  have client : (s.vif v).iftype.isStation = true := by
    by_contra other
    rw [(table.client v here (Bool.eq_false_iff.mpr other)).2] at isTdls
    cases isTdls
  unfold Member
  cases kind : (s.vif v).iftype <;> rw [kind] at client <;> first | exact .inr isTdls | cases client

theorem isVif_iff {q : Queue V S} : isVif v q = true ↔ q = .bcmc v ∨ q = .unk v := by
  cases q <;> simp [isVif]

theorem isSta_iff {stas : List S} {q : Queue V S} : isSta stas q = true ↔ ∃ i ∈ stas, ∃ tid, q = .sta i tid := by
  cases q <;> simp [isSta]

theorem ne_of_isSta_singleton {i j : S} {tid : Fin nxNbTxqPerSta}
    (miss : isSta [i] (.sta j tid : Queue V S) = false) : j ≠ i := by
  rintro rfl
  rw [isSta_iff.mpr ⟨j, List.mem_singleton_self j, tid, rfl⟩] at miss
  cases miss

theorem Of.unique {q : Queue V S} {w : V} (of : s.Of q v) (of' : s.Of q w) : v = w := by
  cases q with
  | sta i tid => exact some.inj ((Eq.symm of).trans of')
  | bcmc u => exact (Eq.symm of).trans of'
  | unk u => exact (Eq.symm of).trans of'
  | offchan => cases of

theorem Table.of_stopped (table : s.Table tdls) (here : v ∈ s.vifs) {q : Queue V S}
    (stopped : s.stopped v q = true) : s.Of q (s.masterVif v) := by
  unfold GateHw.stopped at stopped
  rcases Bool.or_eq_true_iff.mp (Bool.and_eq_true_iff.mp stopped).2 with sta | vif
  · obtain ⟨i, walked, tid, rfl⟩ := isSta_iff.mp sta
    exact table.unique _ (table.masterVif here) i (table.member_of_vifStas here walked)
  · rcases isVif_iff.mp vif with rfl | rfl <;> rfl

theorem Table.of_started (table : s.Table tdls) (here : v ∈ s.vifs) {q : Queue V S}
    (started : s.started v q = true) : s.Of q (s.masterVif v) := by
  unfold GateHw.started at started
  rcases Bool.or_eq_true_iff.mp (Bool.and_eq_true_iff.mp started).2 with sta | vif
  · split at sta
    · obtain ⟨i, picked, tid, rfl⟩ := isSta_iff.mp sta
      have isTdls := mem_toList.mp (List.mem_filter.mp picked).1
      have client : (s.vif v).iftype ≠ .apVlan := fun vlan => by
        have none := (table.client v here (by rw [vlan]; rfl)).2
        rw [none] at isTdls
        cases isTdls
      rw [masterVif_of_ne client]
      exact table.unique v here i (table.member_of_tdls here isTdls)
    · obtain ⟨i, walked, tid, rfl⟩ := isSta_iff.mp sta
      exact table.unique _ (table.masterVif here) i (table.member_of_vifStas here walked)
  · rcases isVif_iff.mp vif with rfl | rfl <;> rfl

def Idle (s : GateHw V S) (i : S) : Prop := ∀ tid, (s.txq (.sta i tid)).active = false

def TdlsReached (s : GateHw V S) (v : V) : Prop :=
  ∀ i, (s.vif v).tdlsSta = some i → (s.vif v).tdlsStatus = .linkActive ∨ s.Idle i

theorem Table.of_active (table : s.Table tdls) {q : Queue V S} (of : s.Of q v)
    (active : (s.txq q).active = true) :
    v ∈ s.vifs ∧ ((s.vif v).iftype.isAp = true ∨ (s.vif v).iftype.isStation = true) := by
  cases q with
  | sta i tid =>
    obtain ⟨w, here, member⟩ := table.owned i tid active
    obtain rfl : w = v := some.inj ((table.unique w here i member).symm.trans of)
    refine ⟨here, ?_⟩
    unfold Member at member
    cases kind : (s.vif w).iftype <;> rw [kind] at member <;> first | exact .inl rfl | exact .inr rfl | cases member
  | bcmc w =>
    obtain rfl : w = v := of
    exact ⟨(table.bcmc w active).1, .inl (table.bcmc w active).2⟩
  | unk w =>
    obtain rfl : w = v := of
    exact ⟨(table.unk w active).1, (table.unk w active).2.imp_right And.left⟩
  | offchan => cases of

theorem Table.reaches (table : s.Table tdls) (reached : s.TdlsReached v) {q : Queue V S} (of : s.Of q v)
    (active : (s.txq q).active = true) : s.stopped v q = true := by
  obtain ⟨here, kind⟩ := table.of_active of active
  have monitor : (s.vif v).iftype ≠ .monitor := fun monitor => by
    rw [monitor] at kind
    rcases kind with kind | kind <;> cases kind
  have vlan : (s.vif v).iftype ≠ .apVlan := fun vlan => by
    rw [vlan] at kind
    rcases kind with kind | kind <;> cases kind
  unfold GateHw.stopped
  refine Bool.and_eq_true_iff.mpr ⟨decide_eq_true monitor, Bool.or_eq_true_iff.mpr ?_⟩
  rw [masterVif_of_ne vlan]
  cases q with
  | sta i tid =>
    refine .inl (isSta_iff.mpr ⟨i, ?_, tid, rfl⟩)
    obtain ⟨w, above, member⟩ := table.owned i tid active
    obtain rfl : w = v := some.inj ((table.unique w above i member).symm.trans of)
    have client : ((s.vif w).ap = some i ∨ (s.vif w).tdlsSta = some i) →
        i ∈ (if (s.vif w).tdlsStatus = .linkActive then (s.vif w).tdlsSta.toList else []) ++ (s.vif w).ap.toList := by
      rintro (ap | isTdls)
      · exact List.mem_append_right _ (mem_toList.mpr ap)
      · refine List.mem_append_left _ ?_
        rcases reached i isTdls with linked | idle
        · rw [if_pos linked]
          exact mem_toList.mpr isTdls
        · rw [idle tid] at active
          cases active
    unfold Member at member
    unfold vifStas
    cases kind : (s.vif w).iftype <;> rw [kind] at member <;> dsimp only at member ⊢ <;>
      first | exact client member | exact member
  | bcmc w => exact .inr (isVif_iff.mpr (.inl (congrArg _ of)))
  | unk w => exact .inr (isVif_iff.mpr (.inr (congrArg _ of)))
  | offchan => cases of

end GateHw

/-! ### One queue -/

/-- A queue of a TDLS station that is on the channel of its link. -/
def GateHw.Exempt (s : GateHw V S) (q : Queue V S) (v : V) : Prop :=
  (s.vif v).rocTdls = true ∧ ∃ i, (s.vif v).tdlsSta = some i ∧ ∃ tid, q = .sta i tid

/-- **A queue of an interface** may send on the channel the firmware is on, and for no reason in force. -/
structure QueueOk (s : GateState V S) (q : Queue V S) (v : V) : Prop where
  chan : .chan ∉ (s.hw.txq q).status → s.Served v ∨ s.hw.Exempt q v
  force : ∀ i tid, q = .sta i tid → s.inForce v ⊆ (s.hw.txq q).status

/-- **All queues in use** are so. -/
structure Gated (tdls : Bool) (s : GateState V S) : Prop where
  table : s.hw.Table tdls
  kinds : ∀ v, s.inForce v ⊆ {.vifPs, .csa, .coexInactive}
  ok : ∀ q v, s.hw.Of q v → (s.hw.txq q).active = true → QueueOk s q v

/-- What an event may do to a queue. -/
structure KeptQueue (s t : GateState V S) (q : Queue V S) (v : V) : Prop where
  of : s.hw.Of q v
  active : (s.hw.txq q).active = true
  reasons : ∀ r ∈ t.inForce v, r ∈ (s.hw.txq q).status → r ∈ (t.hw.txq q).status
  force : ∀ i tid, q = .sta i tid → ∀ r ∈ t.inForce v, r ∈ s.inForce v ∨ r ∈ (t.hw.txq q).status
  /-- A queue that the channel does not stop any more. -/
  started : .chan ∈ (s.hw.txq q).status → .chan ∉ (t.hw.txq q).status → t.Served v ∨ t.hw.Exempt q v
  /-- A queue that it did not stop. -/
  served : .chan ∉ (t.hw.txq q).status → s.Served v ∨ s.hw.Exempt q v → t.Served v ∨ t.hw.Exempt q v

variable {s t : GateState V S} {tdls : Bool} {v : V} {i : S} {q : Queue V S}

theorem Gated.kept (gated : Gated tdls s) (kept : KeptQueue s t q v) : QueueOk t q v := by
  have before := gated.ok q v kept.of kept.active
  refine ⟨fun lacks => ?_, fun i tid sta r inForce => ?_⟩
  · by_cases has : .chan ∈ (s.hw.txq q).status
    · exact kept.started has lacks
    · exact kept.served lacks (before.chan has)
  · rcases kept.force i tid sta r inForce with old | has
    · exact kept.reasons r inForce (before.force i tid sta old)
    · exact has

theorem KeptQueue.same (of : s.hw.Of q v) (used : (s.hw.txq q).active = true)
    (status : (t.hw.txq q).status = (s.hw.txq q).status) (force : t.inForce v ⊆ s.inForce v)
    (served : s.Served v → t.Served v) (exempt : s.hw.Exempt q v → t.hw.Exempt q v) :
    KeptQueue s t q v := by
  refine ⟨of, used, fun r _ has => status ▸ has, fun _ _ _ r inForce => .inl (force inForce),
    fun has lacks => ?_, fun _ => Or.imp served exempt⟩
  rw [status] at lacks
  exact absurd has lacks

theorem served_congr (chIndex : (t.hw.vif v).chIndex = (s.hw.vif v).chIndex)
    (cur : t.hw.curChanctx = s.hw.curChanctx) (air : t.air = s.air) (served : s.Served v) : t.Served v := by
  unfold GateState.Served
  rw [chIndex, cur, air]
  exact served

theorem exempt_congr (rocTdls : (t.hw.vif v).rocTdls = (s.hw.vif v).rocTdls)
    (tdlsSta : (t.hw.vif v).tdlsSta = (s.hw.vif v).tdlsSta) (exempt : s.hw.Exempt q v) :
    t.hw.Exempt q v := by
  unfold GateHw.Exempt
  rw [rocTdls, tdlsSta]
  exact exempt

section

variable (gated : Gated tdls s)

include gated

theorem Gated.ne_chan {r : StopReason} (inForce : r ∈ s.inForce v) : r ≠ .chan := by
  rintro rfl
  exact absurd (gated.kinds v inForce) (by decide)

/-! ### Stops and starts -/

theorem Gated.stop {hit : Queue V S → Bool} {reason : Finset StopReason}
    (hw : t.hw = s.hw.mapTxq hit (Txq.stop reason))
    (kinds : ∀ v, t.inForce v ⊆ {.vifPs, .csa, .coexInactive})
    (force : ∀ v, ∀ r ∈ t.inForce v, r ∈ s.inForce v ∨
      r ∈ reason ∧ ∀ q, s.hw.Of q v → (s.hw.txq q).active = true → hit q = true)
    (served : ∀ q v, s.hw.Of q v → (s.hw.txq q).active = true →
      (hit q = true → .chan ∉ reason) → s.Served v → t.Served v) : Gated tdls t := by
  obtain ⟨thw, air, inForce⟩ := t
  obtain rfl : thw = _ := hw
  have active := s.hw.mapTxq_stop_active hit reason
  refine ⟨?_, kinds, fun q v of used => gated.kept ?_⟩
  · exact gated.table.congr rfl rfl (fun _ => rfl) (fun _ _ => rfl) fun q _ used => active q ▸ used
  have of : s.hw.Of q v := of
  have used : (s.hw.txq q).active = true := active q ▸ used
  have status := s.hw.mapTxq_stop_status hit reason used
  have grows : ∀ r, r ∈ (s.hw.txq q).status →
      r ∈ ((s.hw.mapTxq hit (Txq.stop reason)).txq q).status := fun r has => by
    rw [status]
    split
    · exact Finset.mem_union_left _ has
    · exact has
  refine ⟨of, used, fun r _ => grows r, fun i tid sta r inForce => ?_, fun has lacks => absurd (grows _ has) lacks,
    fun lacks => Or.imp (served q v of used fun hits has => ?_) id⟩
  · refine (force v r inForce).imp_right fun ⟨given, all⟩ => ?_
    show r ∈ ((s.hw.mapTxq hit (Txq.stop reason)).txq q).status
    rw [status, if_pos (all q of used)]
    exact Finset.mem_union_right _ given
  · refine lacks ?_
    show .chan ∈ ((s.hw.mapTxq hit (Txq.stop reason)).txq q).status
    rw [status, if_pos hits]
    exact Finset.mem_union_right _ has

theorem Gated.start {hit : Queue V S → Bool} {reason : Finset StopReason}
    (hw : t.hw = s.hw.mapTxq hit (Txq.start reason)) (air : t.air = s.air) (other : .chan ∉ reason)
    (force : ∀ v, t.inForce v ⊆ s.inForce v)
    (gone : ∀ q v, s.hw.Of q v → hit q = true → ∀ r ∈ t.inForce v, r ∉ reason) : Gated tdls t := by
  obtain ⟨thw, tair, inForce⟩ := t
  obtain rfl : thw = _ := hw
  have active := s.hw.mapTxq_start_active hit reason
  refine ⟨?_, fun v => (force v).trans (gated.kinds v), fun q v of used => gated.kept ?_⟩
  · exact gated.table.congr rfl rfl (fun _ => rfl) (fun _ _ => rfl) fun q _ used => active q ▸ used
  have of : s.hw.Of q v := of
  have used : (s.hw.txq q).active = true := active q ▸ used
  have keeps : ∀ r, (hit q = true → r ∉ reason) → r ∈ (s.hw.txq q).status →
      r ∈ ((s.hw.mapTxq hit (Txq.start reason)).txq q).status := fun r stays has => by
    rw [s.hw.mapTxq_start_status hit reason used]
    split
    · case isTrue hits => exact Finset.mem_sdiff.mpr ⟨has, stays hits⟩
    · exact has
  exact ⟨of, used, fun r inForce => keeps r fun hits => gone q v of hits r inForce,
    fun _ _ _ r inForce => .inl (force v inForce),
    fun has lacks => absurd (keeps _ (fun _ => other) has) lacks,
    fun _ => Or.imp (served_congr rfl rfl air) id⟩

theorem Gated.modVif {f : Vif V S → Vif V S}
    (hw : t.hw = s.hw.modVif v f) (air : t.air = s.air) (force : t.inForce = s.inForce)
    (shape : ∀ w, (s.hw.modVif v f).shape w = s.hw.shape w)
    (same : (f (s.hw.vif v)).chIndex = (s.hw.vif v).chIndex ∧
      (f (s.hw.vif v)).rocTdls = (s.hw.vif v).rocTdls) : Gated tdls t := by
  obtain ⟨thw, tair, inForce⟩ := t
  obtain rfl : thw = _ := hw
  have fields : ∀ w, ((s.hw.modVif v f).vif w).chIndex = (s.hw.vif w).chIndex ∧
      ((s.hw.modVif v f).vif w).rocTdls = (s.hw.vif w).rocTdls := fun w => by
    by_cases here : w = v
    · subst here
      rw [GateHw.modVif_self]
      exact same
    · rw [GateHw.modVif_of_ne _ _ here]
      exact ⟨rfl, rfl⟩
  refine ⟨?_, fun v => ?_, fun q w of used => gated.kept ?_⟩
  · exact gated.table.congr rfl rfl shape (fun w _ => (fields w).1) fun _ _ used => used
  · rw [force]
    exact gated.kinds v
  · refine KeptQueue.same of used rfl (force ▸ subset_rfl) (served_congr (fields w).1 rfl air) ?_
    have tdls := shape w
    simp only [GateHw.shape, Prod.mk.injEq] at tdls
    exact exempt_congr (fields w).2 tdls.2.2.2.2.1

theorem Gated.atVif (table : t.hw.Table tdls)
    (same : ∀ w, w ≠ v → t.hw.vif w = s.hw.vif w)
    (queue : ∀ q w, w ≠ v → t.hw.Of q w → (t.hw.txq q).active = true → s.hw.Of q w ∧ t.hw.txq q = s.hw.txq q)
    (cur : t.hw.curChanctx = s.hw.curChanctx) (air : t.air = s.air)
    (force : ∀ w, w ≠ v → t.inForce w = s.inForce w)
    (kinds : t.inForce v ⊆ {.vifPs, .csa, .coexInactive})
    (here : ∀ q, t.hw.Of q v → (t.hw.txq q).active = true → QueueOk t q v) : Gated tdls t := by
  refine ⟨table, fun w => ?_, fun q w of used => ?_⟩
  · by_cases at_ : w = v
    · rw [at_]
      exact kinds
    · rw [force w at_]
      exact gated.kinds w
  · by_cases at_ : w = v
    · subst at_
      exact here q of used
    · obtain ⟨of, txq⟩ := queue q w at_ of used
      rw [txq] at used
      refine gated.kept (.same of used (congrArg _ txq) (force w at_).subset ?_ ?_)
      · exact served_congr (congrArg _ (same w at_)) cur air
      · exact exempt_congr (congrArg _ (same w at_)) (congrArg _ (same w at_))

end

end W2l.Gate
