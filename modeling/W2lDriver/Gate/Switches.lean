/-
**Channel gating of the TX queues: what the firmware says.**

* `Gated.chanPreSwitchInd` — **the firmware leaves a channel**, and all queues on it are stopped.
* `Gated.chanSwitchInd`, `Gated.chanSwitchInd_roc`, `Gated.chanSwitchInd_tdls` — **it comes to another**.
* `Gated.tdlsChanSwitchBaseInd` — a TDLS link comes back from its channel.
-/

import W2lDriver.Gate.Gated

set_option linter.unusedSectionVars false

namespace W2l.Gate

open Chan (nxChanCtxtCnt)
open Sched (StopReason)
open Finset (mem_erase mem_insert mem_sdiff mem_singleton mem_singleton_self)
open GateHw (isSta modVif_of_ne modVif_self)

variable {V S : Type} [DecidableEq V] [DecidableEq S]

variable {s t : GateState V S} {tdls : Bool} {v : V} {i : S} {q : Queue V S}

theorem own_iff {s : GateHw V S} : s.own v = true ↔
    v ∈ s.vifs ∧ (s.vif v).up = true ∧ (s.vif v).iftype ≠ .apVlan := by
  simp [GateHw.own, and_assoc]

theorem mem_upVifs {s : GateHw V S} {p : Vif V S → Bool} :
    v ∈ s.upVifs p ↔ v ∈ s.vifs ∧ (s.vif v).up = true ∧ p (s.vif v) = true := by
  simp [GateHw.upVifs]

/-! ### The firmware stops and starts interfaces -/

theorem force_subset {reason : StopReason} {b : Bool} {w : V} {r : StopReason}
    (inForce : r ∈ s.force v reason b w) :
    r ∈ s.inForce w ∧ (b = false → w = v → r ≠ reason) ∨ b = true ∧ w = v ∧ r = reason := by
  unfold GateState.force at inForce
  by_cases here : w = v
  · subst here
    rw [Function.update_self] at inForce
    cases b with
    | true =>
      rcases mem_insert.mp inForce with new | old
      · exact .inr ⟨rfl, rfl, new⟩
      · exact .inl ⟨old, fun no => Bool.noConfusion no⟩
    | false =>
      have erased := mem_erase.mp inForce
      exact .inl ⟨erased.2, fun _ _ => erased.1⟩
  · rw [Function.update_of_ne here] at inForce
    exact .inl ⟨inForce, fun _ same => absurd same here⟩

theorem Gated.vifTraffic (gated : Gated tdls s) {reason : StopReason} {b : Bool}
    (kind : reason ∈ ({.vifPs, .csa, .coexInactive} : Finset StopReason)) (own : s.hw.own v = true)
    (reached : b = true → s.hw.TdlsReached v) (hw : t.hw = s.hw.vifTraffic v reason b) (air : t.air = s.air)
    (force : t.inForce = s.force v reason b) : Gated tdls t := by
  obtain ⟨here, -, vlan⟩ := own_iff.mp own
  have master := GateHw.masterVif_of_ne vlan
  have kinds : ∀ w, t.inForce w ⊆ {.vifPs, .csa, .coexInactive} := fun w r inForce => by
    rw [force] at inForce
    rcases force_subset inForce with ⟨old, -⟩ | ⟨-, -, rfl⟩
    · exact gated.kinds w old
    · exact kind
  unfold GateHw.vifTraffic at hw
  rw [if_pos here] at hw
  cases b with
  | true =>
    rw [if_pos rfl, GateHw.txqVifStop_txq] at hw
    refine gated.stop hw kinds (fun w r inForce => ?_) fun q w _ _ _ => ?_
    · rw [force] at inForce
      rcases force_subset inForce with ⟨old, -⟩ | ⟨-, rfl, rfl⟩
      · exact .inl old
      · exact .inr ⟨mem_singleton_self r, fun q of used => gated.table.reaches (reached rfl) of used⟩
    · refine served_congr ?_ ?_ air
      · rw [hw]
        rfl
      · rw [hw]
        rfl
  | false =>
    rw [if_neg Bool.false_ne_true, GateHw.txqVifStart_txq] at hw
    refine gated.start hw air ?_ (fun w r inForce => ?_) fun q w of hits r inForce isReason => ?_
    · intro isChan
      rw [← mem_singleton.mp isChan] at kind
      exact absurd kind (by decide)
    · rw [force] at inForce
      rcases force_subset inForce with ⟨old, -⟩ | ⟨no, -⟩
      · exact old
      · cases no
    · rw [force] at inForce
      have same : w = v := by
        have at_ := gated.table.of_started here hits
        exact of.unique (master ▸ at_)
      rcases force_subset inForce with ⟨-, gone⟩ | ⟨no, -⟩
      · exact gone rfl same (mem_singleton.mp isReason)
      · cases no

theorem Gated.coexist (gated : Gated tdls s) {inactive : Bool}
    (reached : inactive = true → ∀ v ∈ s.hw.vifs, s.hw.TdlsReached v)
    (hw : t.hw = s.hw.coexistStopRestoreTxqInd inactive) (air : t.air = s.air)
    (force : t.inForce = fun v =>
      if v ∈ s.hw.vifs then
        if inactive then insert .coexInactive (s.inForce v) else (s.inForce v).erase .coexInactive
      else s.inForce v) : Gated tdls t := by
  unfold GateHw.coexistStopRestoreTxqInd at hw
  cases inactive with
  | true =>
    rw [if_pos rfl, GateHw.foldl_txqVifStop] at hw
    have grown : ∀ w, ∀ r ∈ t.inForce w, r ∈ s.inForce w ∨ r = .coexInactive := fun w r inForce => by
      rw [force] at inForce
      dsimp only at inForce
      split at inForce
      · exact (mem_insert.mp inForce).symm
      · exact .inl inForce
    refine gated.stop hw (fun w r inForce => ?_) (fun w r inForce => ?_) fun q w _ _ _ => ?_
    · rcases grown w r inForce with old | rfl
      · exact gated.kinds w old
      · decide
    · refine (grown w r inForce).imp_right fun isCoex => ⟨mem_singleton.mpr isCoex, fun q of used => ?_⟩
      obtain ⟨here, -⟩ := gated.table.of_active of used
      exact List.any_eq_true.mpr ⟨w, mem_upVifs.mpr ⟨here, gated.table.up w here, rfl⟩,
        gated.table.reaches (reached rfl w here) of used⟩
    · refine served_congr ?_ ?_ air
      · rw [hw]
        rfl
      · rw [hw]
        rfl
  | false =>
    rw [if_neg Bool.false_ne_true, GateHw.foldl_txqVifStart] at hw
    refine gated.start hw air (by decide) (fun w r inForce => ?_) fun q w of hits r inForce isCoex => ?_
    · rw [force] at inForce
      dsimp only at inForce
      split at inForce
      · exact Finset.mem_of_mem_erase inForce
      · exact inForce
    · obtain ⟨u, up, started⟩ := List.any_eq_true.mp hits
      have here := (mem_upVifs.mp up).1
      have same : w = s.hw.masterVif u := of.unique (gated.table.of_started here started)
      rw [force] at inForce
      dsimp only at inForce
      rw [if_pos (same ▸ gated.table.masterVif here)] at inForce
      exact (mem_erase.mp inForce).1 (mem_singleton.mp isCoex)

/-! ### The firmware changes the channel -/

variable {chanIdx : BitVec 8}

theorem Gated.chanPreSwitchInd (gated : Gated tdls s)
    (reached : ∀ v ∈ s.hw.vifs, (s.hw.vif v).chIndex = chanIdx → s.hw.TdlsReached v)
    (hw : t.hw = s.hw.chanPreSwitchInd chanIdx) (air : t.air = if s.air = some chanIdx then none else s.air)
    (force : t.inForce = s.inForce) : Gated tdls t := by
  unfold GateHw.chanPreSwitchInd at hw
  rw [GateHw.foldl_txqVifStop] at hw
  refine gated.stop hw (fun v => force ▸ gated.kinds v) (fun v r inForce => .inl ?_)
    fun q v of used missed ⟨here, on⟩ => ?_
  · rwa [force] at inForce
  · have up := (gated.table.of_active of used).1
    have other : s.hw.curChanctx ≠ chanIdx := fun same => by
      have at_ := here.trans same
      refine missed ?_ (mem_singleton_self _)
      exact List.any_eq_true.mpr ⟨v, mem_upVifs.mpr ⟨up, gated.table.up v up, decide_eq_true at_⟩,
        gated.table.reaches (reached v up at_) of used⟩
    rw [on, if_neg (fun same => other (Option.some.inj same))] at air
    refine ⟨?_, ?_⟩
    · rw [hw]
      exact here
    · rw [air, hw]
      rfl

theorem served_switch (left : s.air = none ∨ s.air = some chanIdx)
    (chIndex : (t.hw.vif v).chIndex = (s.hw.vif v).chIndex)
    (cur : t.hw.curChanctx = chanIdx ∨ t.hw.curChanctx = s.hw.curChanctx) (air : t.air = some chanIdx)
    (served : s.Served v) : t.Served v := by
  obtain ⟨here, on⟩ := served
  rw [on] at left
  have same : s.hw.curChanctx = chanIdx := left.elim (fun no => nomatch no) Option.some.inj
  have cur : t.hw.curChanctx = chanIdx := cur.elim id fun cur => cur.trans same
  exact ⟨(chIndex.trans here).trans (same.trans cur.symm), air.trans (congrArg some cur.symm)⟩

theorem Gated.chanSwitchInd (gated : Gated tdls s) (v : V) (inside : chanIdx < nxChanCtxtCnt)
    (left : s.air = none ∨ s.air = some chanIdx)
    (hw : t.hw = s.hw.chanSwitchInd chanIdx false false v) (air : t.air = some chanIdx)
    (force : t.inForce = s.inForce) : Gated tdls t := by
  unfold GateHw.chanSwitchInd at hw
  rw [if_neg Bool.false_ne_true, if_pos rfl, GateHw.foldl_txqVifStart] at hw
  generalize whole : (fun q => (s.hw.upVifs fun x => decide (x.chIndex = chanIdx)).any
    fun v => s.hw.started v q) = hit at hw
  have vif : t.hw.vif = s.hw.vif := by rw [hw, GateHw.mapTxq_vif]
  have staVif : t.hw.staVif = s.hw.staVif := by rw [hw, GateHw.mapTxq_staVif]
  have txq : t.hw.txq = (s.hw.mapTxq hit (Txq.start {.chan})).txq := by rw [hw]
  have cur : t.hw.curChanctx = chanIdx := by rw [hw]
  have active : ∀ q, (t.hw.txq q).active = (s.hw.txq q).active := fun q => by
    rw [txq]
    exact s.hw.mapTxq_start_active hit {.chan} q
  refine ⟨?_, fun v => force ▸ gated.kinds v, fun q v of used => gated.kept ?_⟩
  · refine gated.table.congr ?_ staVif (fun w => ?_) (fun w _ => ?_) fun q _ used => active q ▸ used
    · rw [hw, GateHw.mapTxq_vifs]
    · rw [GateHw.shape, GateHw.shape, vif]
    · rw [vif]
  have of : s.hw.Of q v := by
    cases q <;> first | exact of | exact (congrFun staVif _).symm.trans of
  have used : (s.hw.txq q).active = true := active q ▸ used
  have status := s.hw.mapTxq_start_status hit {StopReason.chan} used
  rw [← txq] at status
  refine ⟨of, used, fun r inForce has => ?_, fun _ _ _ r inForce => .inl (force ▸ inForce), fun has lacks => .inl ?_,
    fun _ => Or.imp (served_switch left ?_ (.inl cur) air) (exempt_congr ?_ ?_)⟩
  · rw [status]
    split
    · refine mem_sdiff.mpr ⟨has, fun isChan => ?_⟩
      rw [force] at inForce
      exact gated.ne_chan inForce (mem_singleton.mp isChan)
    · exact has
  · have hits : hit q = true := by
      by_contra missed
      rw [status, if_neg missed] at lacks
      exact lacks has
    rw [← whole] at hits
    obtain ⟨u, up, started⟩ := List.any_eq_true.mp hits
    obtain ⟨here, -, at_⟩ := mem_upVifs.mp up
    have notVlan : (s.hw.vif u).iftype ≠ .apVlan := fun vlan => by
      have notSet := (gated.table.vlan u here vlan).1
      rw [of_decide_eq_true at_] at notSet
      exact Chan.lt_ne_notSet inside notSet
    have reached := gated.table.of_started here started
    rw [GateHw.masterVif_of_ne notVlan] at reached
    obtain rfl := of.unique reached
    refine ⟨?_, air.trans (congrArg some cur.symm)⟩
    rw [vif, cur]
    exact of_decide_eq_true at_
  · rw [vif]
  · rw [vif]
  · rw [vif]

theorem Gated.chanSwitchInd_roc (gated : Gated tdls s) (v : V)
    (left : s.air = none ∨ s.air = some chanIdx)
    (hw : t.hw = s.hw.chanSwitchInd chanIdx true false v) (air : t.air = some chanIdx)
    (force : t.inForce = s.inForce) : Gated tdls t := by
  obtain ⟨thw, tair, inForce⟩ := t
  obtain rfl : tair = _ := air
  obtain rfl : inForce = _ := force
  unfold GateHw.chanSwitchInd at hw
  rw [if_neg Bool.false_ne_true, if_neg (by decide)] at hw
  cases roc : s.hw.roc with
  | none =>
    rw [roc] at hw
    obtain rfl : thw = _ := hw
    refine ⟨gated.table, gated.kinds, fun q v of used => gated.kept ?_⟩
    exact .same of used rfl subset_rfl (served_switch left rfl (.inr rfl) rfl) id
  | some pair =>
    obtain ⟨w, onChan⟩ := pair
    rw [roc] at hw
    obtain rfl : thw = _ := hw
    have active := s.hw.mapTxq_start_active (fun q => decide (q = .offchan)) {.chan}
    refine ⟨?_, gated.kinds, fun q v of used => gated.kept ?_⟩
    · exact gated.table.congr rfl rfl (fun _ => rfl) (fun _ _ => rfl) fun q _ used => active q ▸ used
    · have notOff : q ≠ .offchan := by
        rintro rfl
        cases of
      have same : (s.hw.mapTxq (fun q => decide (q = .offchan)) (Txq.start {.chan})).txq q = s.hw.txq q := by
        rw [GateHw.mapTxq_txq]
        exact if_neg (by simp [notOff])
      exact .same of (active q ▸ used) (congrArg _ same) subset_rfl (served_switch left rfl (.inl rfl) rfl) id

theorem shape_modVif {s : GateHw V S} {f : Vif V S → Vif V S}
    (same : ∀ x, (f x).iftype = x.iftype ∧ (f x).master = x.master ∧ (f x).up = x.up ∧ (f x).ap = x.ap ∧
      (f x).tdlsSta = x.tdlsSta ∧ (f x).staList = x.staList) (w : V) :
    (s.modVif v f).shape w = s.shape w := by
  by_cases here : w = v
  · subst here
    obtain ⟨iftype, master, up, ap, tdlsSta, staList⟩ := same (s.vif w)
    rw [GateHw.shape, GateHw.shape, modVif_self, iftype, master, up, ap, tdlsSta, staList]
  · rw [GateHw.shape, GateHw.shape, modVif_of_ne _ _ here]

/-- **The firmware comes to the channel** of a TDLS link. -/
theorem Gated.chanSwitchInd_tdls (gated : Gated tdls s) (v : V) (roc : Bool)
    (left : s.air = none ∨ s.air = some chanIdx)
    (hw : t.hw = s.hw.chanSwitchInd chanIdx roc true v) (air : t.air = some chanIdx)
    (force : t.inForce = s.inForce) : Gated tdls t := by
  unfold GateHw.chanSwitchInd at hw
  rw [if_pos rfl] at hw
  by_cases here : v ∈ s.hw.vifs
  swap
  · rw [if_neg here] at hw
    obtain ⟨thw, tair, inForce⟩ := t
    obtain rfl : tair = _ := air
    obtain rfl : inForce = _ := force
    obtain rfl : thw = _ := hw
    refine ⟨?_, gated.kinds, fun q v of used => gated.kept ?_⟩
    · exact gated.table.congr rfl rfl (fun _ => rfl) (fun _ _ => rfl) fun q _ used => used
    · exact .same of used rfl subset_rfl (served_switch left rfl (.inl rfl) rfl) id
  rw [if_pos here] at hw
  generalize marked : (s.hw.modVif v fun x => { x with rocTdls := true }) = m at hw
  have shape : ∀ w, m.shape w = s.hw.shape w := fun w => by
    rw [← marked]
    refine shape_modVif ?_ w
    exact fun x => ⟨rfl, rfl, rfl, rfl, rfl, rfl⟩
  have chIndex : ∀ w, (m.vif w).chIndex = (s.hw.vif w).chIndex := fun w => by
    rw [← marked]
    by_cases same : w = v
    · rw [same, modVif_self]
    · rw [modVif_of_ne _ _ same]
  have rocTdls : ∀ w, (s.hw.vif w).rocTdls = true ∨ w = v → (m.vif w).rocTdls = true := fun w on => by
    rw [← marked]
    by_cases same : w = v
    · rw [same, modVif_self]
    · rw [modVif_of_ne _ _ same]
      exact on.resolve_right same
  have tdlsSta : ∀ w, (m.vif w).tdlsSta = (s.hw.vif w).tdlsSta := fun w => by
    have same := shape w
    simp only [GateHw.shape, Prod.mk.injEq] at same
    exact same.2.2.2.2.1
  have vif : t.hw.vif = m.vif := by rw [hw, GateHw.mapTxq_vif]
  have staVif : t.hw.staVif = s.hw.staVif := by rw [hw, GateHw.mapTxq_staVif, ← marked, GateHw.modVif_staVif]
  have txq : t.hw.txq = (s.hw.mapTxq (isSta (s.hw.vif v).tdlsSta.toList) (Txq.start {StopReason.chan})).txq := by
    rw [hw, ← marked]
    rfl
  have cur : t.hw.curChanctx = chanIdx := by rw [hw]
  have active : ∀ q, (t.hw.txq q).active = (s.hw.txq q).active := fun q => by
    rw [txq]
    exact s.hw.mapTxq_start_active _ {.chan} q
  refine ⟨?_, fun v => force ▸ gated.kinds v, fun q w of used => gated.kept ?_⟩
  · refine gated.table.congr ?_ staVif (fun w => ?_) (fun w _ => ?_) fun q _ used => active q ▸ used
    · rw [hw, GateHw.mapTxq_vifs, ← marked, GateHw.modVif_vifs]
    · rw [← shape w, GateHw.shape, GateHw.shape, vif]
    · rw [vif, chIndex]
  have of : s.hw.Of q w := by
    cases q <;> first | exact of | exact (congrFun staVif _).symm.trans of
  have used : (s.hw.txq q).active = true := active q ▸ used
  have status := s.hw.mapTxq_start_status (isSta (s.hw.vif v).tdlsSta.toList) {StopReason.chan} used
  rw [← txq] at status
  refine ⟨of, used, fun r inForce has => ?_, fun _ _ _ r inForce => .inl (force ▸ inForce), fun has lacks => .inr ?_,
    fun _ => Or.imp (served_switch left ?_ (.inl cur) air) fun other => ?_⟩
  · rw [status]
    split
    · refine mem_sdiff.mpr ⟨has, fun isChan => ?_⟩
      rw [force] at inForce
      exact gated.ne_chan inForce (mem_singleton.mp isChan)
    · exact has
  · have hits : isSta (s.hw.vif v).tdlsSta.toList q = true := by
      by_contra missed
      rw [status, if_neg missed] at lacks
      exact lacks has
    obtain ⟨j, listed, tid, rfl⟩ := GateHw.isSta_iff.mp hits
    have isTdls := Option.mem_toList.mp listed
    obtain rfl : v = w := by
      have at_ : s.hw.Of (.sta j tid) v := gated.table.unique v here j (gated.table.member_of_tdls here isTdls)
      exact at_.unique of
    refine ⟨?_, j, ?_, tid, rfl⟩
    · rw [vif]
      exact rocTdls v (.inr rfl)
    · rw [vif, tdlsSta]
      exact isTdls
  · rw [vif, chIndex]
  · obtain ⟨on, j, isTdls, tid, sta⟩ := other
    refine ⟨?_, j, ?_, tid, sta⟩
    · rw [vif]
      exact rocTdls w (.inl on)
    · rw [vif, tdlsSta]
      exact isTdls

theorem Gated.tdlsChanSwitchBaseInd (gated : Gated tdls s) (hw : t.hw = s.hw.tdlsChanSwitchBaseInd v)
    (air : t.air = s.air) (force : t.inForce = s.inForce) : Gated tdls t := by
  unfold GateHw.tdlsChanSwitchBaseInd at hw
  by_cases here : v ∈ s.hw.vifs
  swap
  · rw [if_neg here] at hw
    obtain ⟨thw, tair, inForce⟩ := t
    obtain rfl : tair = _ := air
    obtain rfl : inForce = _ := force
    obtain rfl : thw = _ := hw
    exact gated
  rw [if_pos here] at hw
  -- the queues are stopped first: what is stopped is not on the other channel any more
  generalize stopped : s.hw.mapTxq (isSta (s.hw.vif v).tdlsSta.toList) (Txq.stop {.chan}) = m
  have halted : Gated tdls ⟨m, s.air, s.inForce⟩ := by
    refine gated.stop (t := ⟨m, s.air, s.inForce⟩) stopped.symm gated.kinds (fun w r old => .inl old)
      fun q w _ _ _ served => ?_
    subst stopped
    exact served
  have eq : t.hw = m.modVif v fun x => { x with rocTdls := false } := by
    rw [hw, ← stopped]
    rfl
  have shape : ∀ w, t.hw.shape w = m.shape w := fun w => by
    rw [eq]
    refine shape_modVif ?_ w
    exact fun x => ⟨rfl, rfl, rfl, rfl, rfl, rfl⟩
  have chIndex : ∀ w, (t.hw.vif w).chIndex = (m.vif w).chIndex := fun w => by
    rw [eq]
    by_cases same : w = v
    · rw [same, modVif_self]
    · rw [modVif_of_ne _ _ same]
  have txq : t.hw.txq = m.txq := by rw [eq, GateHw.modVif_txq]
  have staVif : t.hw.staVif = m.staVif := by rw [eq, GateHw.modVif_staVif]
  refine ⟨?_, fun v => force ▸ gated.kinds v, fun q w of used => halted.kept ?_⟩
  · refine halted.table.congr ?_ staVif shape (fun w _ => chIndex w) fun q _ used => by rwa [txq] at used
    rw [eq, GateHw.modVif_vifs]
  have of : m.Of q w := by
    cases q <;> first | exact of | exact (congrFun staVif _).symm.trans of
  rw [txq] at used
  have cur : t.hw.curChanctx = m.curChanctx := by rw [eq, GateHw.modVif_curChanctx]
  refine ⟨of, used, fun r _ has => txq ▸ has, fun _ _ _ r inForce => .inl (force ▸ inForce),
    fun has lacks => absurd (txq ▸ has) lacks, fun lacks on => .imp
      (served_congr (s := ⟨m, s.air, s.inForce⟩) (chIndex w) cur air) (fun exempt => ?_) on⟩
  have other : w ≠ v := by
    rintro rfl
    obtain ⟨-, j, isTdls, tid, rfl⟩ := exempt
    rw [txq] at lacks
    subst stopped
    rw [GateHw.mapTxq_stop_active] at used
    have hits : isSta (s.hw.vif w).tdlsSta.toList (Queue.sta (V := V) j tid) = true :=
      GateHw.isSta_iff.mpr ⟨j, Option.mem_toList.mpr isTdls, tid, rfl⟩
    rw [GateHw.mapTxq_stop_status _ _ used, if_pos hits] at lacks
    exact lacks (Finset.mem_union_right _ (mem_singleton_self _))
  unfold GateHw.Exempt
  rw [eq, modVif_of_ne _ _ other]
  exact exempt

end W2l.Gate
