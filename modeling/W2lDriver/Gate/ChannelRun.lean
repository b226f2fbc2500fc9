/-
**Channel gating of the TX queues: the runs.**

* `Sound` — **an event finds nothing in the way**: its stops reach all stations, new queues belong to an
  interface that is not stopped, and the channel of a new link is not being left.
-/

import W2lDriver.Gate.Links

set_option linter.unusedSectionVars false

namespace W2l.Gate

open Chan (nxChanCtxtCnt)
open Lib (System)
open Bool (and_eq_true_iff)

variable {V S : Type} [DecidableEq V] [DecidableEq S]

/-- **What an event finds.** -/
def Sound (tdls : Bool) (s : GateState V S) : GateAct V S → Prop
  | .chanPreSwitchInd chanIdx =>
    ∀ v ∈ s.hw.vifs, (s.hw.vif v).chIndex = chanIdx → s.hw.TdlsReached v
  | .chanSwitchInd chanIdx _ _ _ => chanIdx < nxChanCtxtCnt
  | .startAp v (some chIdx) => (∀ i ∈ (s.hw.vif v).staList, s.hw.Idle i) ∧ Entered s chIdx
  | .addStation v (some i) _ => Fresh s.hw i ∧ (s.hw.txq (.bcmc v)).active = true ∧
    ∀ r ∈ s.inForce v, r = .vifPs ∧ .vifPs ∈ (s.hw.txq (.bcmc v)).status
  | .changeStation v (some i) =>
    Fresh s.hw i ∧ TdlsIdle s.hw v ∧ s.Served v ∧ s.inForce v = ∅
  | .smConnectInd v i chIdx =>
    (∀ w ∈ s.hw.vifs, s.hw.Member w i → w = v) ∧ (∀ j, (s.hw.vif v).ap = some j → j = i) ∧
      TdlsIdle s.hw v ∧ s.inForce v = ∅ ∧ Entered s chIdx ∧ (tdls = true → s.hw.curChanctx = chIdx)
  | .smDisconnectInd v => TdlsIdle s.hw v
  | .csaFinish v true chIdx =>
    Entered s chIdx ∧ (s.hw.curChanctx ≠ chIdx → s.hw.TdlsReached v)
  | .p2pVifPsChangeInd v true => s.hw.TdlsReached v
  | .csaTrafficInd v false => s.hw.TdlsReached v
  | .coexistStopRestoreTxqInd true => ∀ v ∈ s.hw.vifs, s.hw.TdlsReached v
  | _ => True

variable {s t : GateState V S} {tdls : Bool} {v : V} {i : S} {q : Queue V S}

/-! ### An event -/

section

variable (gated : Gated tdls s)

include gated

theorem Gated.offchan (f : Txq → Txq) (roc : Option (V × Bool))
    (hw : t.hw = { s.hw.mapTxq (fun q => decide (q = .offchan)) f with roc := roc }) (air : t.air = s.air)
    (force : t.inForce = s.inForce) : Gated tdls t := by
  obtain ⟨thw, tair, inForce⟩ := t
  obtain rfl : tair = _ := air
  obtain rfl : inForce = _ := force
  obtain rfl : thw = _ := hw
  have same : ∀ q : Queue V S, q ≠ .offchan →
      (s.hw.mapTxq (fun q => decide (q = .offchan)) f).txq q = s.hw.txq q := fun q other => by
    rw [GateHw.mapTxq_txq]
    exact if_neg (by simp [other])
  refine ⟨?_, gated.kinds, fun q v of used => gated.kept ?_⟩
  · refine gated.table.congr rfl rfl (fun _ => rfl) (fun _ _ => rfl) fun q other used => ?_
    exact (congrArg Txq.active (same q other)).symm.trans used
  · have other : q ≠ .offchan := by
      rintro rfl
      cases of
    exact .same of ((congrArg Txq.active (same q other)).symm.trans used) (congrArg _ (same q other)) subset_rfl id id

theorem Gated.credits {full : Bool}
    (hw : t.hw = s.hw.act tdls (.credits q full)) (air : t.air = s.air) (force : t.inForce = s.inForce) :
    Gated tdls t := by
  have kinds : ∀ w, t.inForce w ⊆ {.vifPs, .csa, .coexInactive} := fun w => force ▸ gated.kinds w
  unfold GateHw.act at hw
  cases full with
  | true =>
    refine gated.stop hw kinds (fun w r inForce => .inl (force ▸ inForce)) fun q w _ _ _ => served_congr ?_ ?_ air
    · rw [hw, GateHw.mapTxq_vif]
    · rw [hw, GateHw.mapTxq_curChanctx]
  | false =>
    refine gated.start hw air (by decide) (fun w => force ▸ subset_rfl) fun q w _ _ r inForce isFull => ?_
    have kind := kinds w inForce
    rw [Finset.mem_singleton.mp isFull] at kind
    exact absurd kind (by decide)

theorem Gated.tdlsMgmt {action : TdlsAction} {ok : Bool}
    (hw : t.hw = s.hw.tdlsMgmt v action ok) (air : t.air = s.air) (force : t.inForce = s.inForce) :
    Gated tdls t := by
  have whole : t = ⟨t.hw, s.air, s.inForce⟩ := by rw [← air, ← force]
  have quiet : ∀ status, t.hw = (s.hw.modVif v fun x => { x with tdlsStatus := status }) → Gated tdls t :=
    fun status eq => by
      refine gated.modVif eq air force (fun w => ?_) ⟨rfl, rfl⟩
      refine shape_modVif ?_ w
      exact fun x => ⟨rfl, rfl, rfl, rfl, rfl, rfl⟩
  have none : t.hw = s.hw → Gated tdls t := fun eq => by
    rw [whole, eq]
    exact gated
  unfold GateHw.tdlsMgmt at hw
  split at hw
  · exact none hw
  · cases action with
    | setupRequest =>
      dsimp only at hw
      split at hw
      · exact none hw
      · exact quiet _ hw
    | setupResponse => exact quiet _ hw
    | setupConfirm =>
      cases ok with
      | true => exact quiet _ hw
      | false => exact none hw
    | other => exact none hw

/-- **An event that finds nothing in the way** keeps the queues gated. -/
theorem Gated.act {a : GateAct V S} (promised : Promised s a = true)
    (sound : Sound tdls s a) : Gated tdls (s.act tdls a) := by
  cases a with
  | open_ v iftype master =>
    have promised : (decide (v ∉ s.hw.vifs) && (decide (iftype ≠ .apVlan) ||
      master.any fun m => s.hw.own m && (s.hw.vif m).iftype.isAp)) = true := promised
    obtain ⟨new, kind⟩ := and_eq_true_iff.mp promised
    refine gated.open_ (of_decide_eq_true new) (fun vlan => ?_) rfl rfl rfl
    have found := (Bool.or_eq_true_iff.mp kind).resolve_left fun other => of_decide_eq_true other vlan
    cases master with
    | none => cases found
    | some m => exact ⟨m, rfl, and_eq_true_iff.mp found⟩
  | chanPreSwitchInd chanIdx => exact gated.chanPreSwitchInd sound rfl rfl rfl
  | chanSwitchInd chanIdx roc rocTdls v =>
    have left : s.air = none ∨ s.air = some chanIdx := of_decide_eq_true promised
    cases rocTdls with
    | true => exact gated.chanSwitchInd_tdls v roc left rfl rfl rfl
    | false =>
      cases roc with
      | true => exact gated.chanSwitchInd_roc v left rfl rfl rfl
      | false => exact gated.chanSwitchInd v sound left rfl rfl rfl
  | tdlsChanSwitchBaseInd v => exact gated.tdlsChanSwitchBaseInd rfl rfl rfl
  | tdlsChswEn i en =>
    refine ⟨gated.table.congr rfl rfl (fun _ => rfl) (fun _ _ => rfl) fun _ _ used => used, gated.kinds, ?_⟩
    exact fun q v of used => gated.kept (.same of used rfl subset_rfl id id)
  | startAp v cfm =>
    obtain ⟨own, isAp⟩ := and_eq_true_iff.mp promised
    cases cfm with
    | none => exact gated
    | some chIdx => exact gated.startAp own isAp sound.1 sound.2 rfl rfl rfl
  | stopAp v =>
    obtain ⟨own, isAp⟩ := and_eq_true_iff.mp promised
    exact gated.stopAp own isAp rfl rfl rfl
  | addStation v cfm pmState =>
    obtain ⟨own, isAp⟩ := and_eq_true_iff.mp promised
    cases cfm with
    | none => exact gated
    | some i => exact gated.addStation own isAp sound.1 sound.2.1 sound.2.2 rfl rfl rfl
  | delStation v i sent =>
    obtain ⟨own, isAp⟩ := and_eq_true_iff.mp promised
    exact gated.delStation own isAp rfl rfl rfl
  | changeStation v cfm =>
    obtain ⟨own, isStation⟩ := and_eq_true_iff.mp promised
    cases cfm with
    | none => exact gated
    | some i =>
      obtain ⟨fresh, idle, served, free⟩ := sound
      exact gated.changeStation own isStation fresh idle served free rfl rfl rfl
  | tdlsMgmt v action ok => exact gated.tdlsMgmt rfl rfl rfl
  | tdlsOper v sent =>
    obtain ⟨own, isStation⟩ := and_eq_true_iff.mp promised
    exact gated.tdlsOper own isStation rfl rfl rfl
  | smConnectInd v i chIdx =>
    obtain ⟨own, isStation⟩ := and_eq_true_iff.mp promised
    obtain ⟨fresh, same, idle, free, entered, on⟩ := sound
    exact gated.smConnectInd own isStation fresh same idle free entered on rfl rfl rfl
  | smDisconnectInd v =>
    obtain ⟨own, isStation⟩ := and_eq_true_iff.mp promised
    exact gated.smDisconnectInd own isStation sound rfl rfl rfl
  | csaFinish v ok chIdx =>
    cases ok with
    | false => exact gated
    | true => exact gated.csaFinish promised sound.1 sound.2 rfl rfl rfl
  | p2pVifPsChangeInd v on =>
    refine gated.vifTraffic (by decide) promised (fun on => ?_) rfl rfl rfl
    subst on
    exact sound
  | csaTrafficInd v enable =>
    refine gated.vifTraffic (by decide) promised (fun off => ?_) rfl rfl rfl
    cases enable with
    | true => cases off
    | false => exact sound
  | coexistStopRestoreTxqInd inactive =>
    refine gated.coexist (fun on => ?_) rfl rfl rfl
    subst on
    exact sound
  | remainOnChannel v => exact gated.offchan (fun _ => Txq.init {.chan}) (some (v, false)) rfl rfl rfl
  | remainOnChannelExpInd =>
    cases roc : s.hw.roc with
    | none =>
      have same : s.act tdls .remainOnChannelExpInd = s := by
        unfold GateState.act GateHw.act
        dsimp only
        rw [roc]
      rw [same]
      exact gated
    | some pair =>
      refine gated.offchan Txq.deinit none ?_ rfl rfl
      show s.hw.act tdls .remainOnChannelExpInd = _
      unfold GateHw.act
      dsimp only
      rw [roc]
  | psBhEnable i enable => exact gated.psBhEnable i enable rfl rfl rfl
  | credits q full => exact gated.credits rfl rfl rfl

end

/-! ### A run -/

theorem Gated.init : Gated tdls ({} : GateState V S) where
  table :=
    { owned := fun _ _ used => nomatch used
      unique := fun _ here => nomatch here
      up := fun _ here => nomatch here
      bcmc := fun _ used => nomatch used
      unk := fun _ used => nomatch used
      client := fun _ here => nomatch here
      vlan := fun _ here => nomatch here }
  kinds _ := Finset.empty_subset _
  ok _ _ _ used := nomatch used

theorem Gated.gating (gated : Gated tdls s) : ChannelGating s := by
  refine ⟨fun q v of off used lacks => ?_, fun i tid v of used r inForce => ?_⟩
  · rcases (gated.ok q v of used).chan lacks with served | exempt
    · exact served.1
    · exact absurd (.inr exempt.1) off
  · have ok := gated.ok (.sta i tid) v of used
    rcases inForce with old | ⟨rfl, off, notOn⟩
    · exact ok.force i tid rfl old
    · by_contra lacks
      rcases ok.chan lacks with served | exempt
      · exact off served
      · exact notOn (.inr exempt.1)

/-- **Channel gating** in every run whose events find nothing in the way. -/
theorem channel_gating {V S : Type} [DecidableEq V] [DecidableEq S] {tdls : Bool} {s : GateState V S}
    (reach : (gateSystem V S tdls).Reachable (Sound tdls) s) : ChannelGating s := by
  have gated : Gated tdls s := reach.invariant (I := Gated tdls) Gated.init fun s a s' _ gated sound stepped => by
      have stepped : (if Promised s a then some (s.act tdls a) else none) = some s' := stepped
      split at stepped
      · case isTrue promised => exact Option.some.inj stepped ▸ gated.act promised sound
      · cases stepped
  exact gated.gating

/-- The runs of an AP and a station. -/
abbrev oneSystem := gateSystem (Fin 1) (Fin 1) false

/-- An AP is left with a station. -/
theorem channel_gating_left : ∃ s : GateState (Fin 1) (Fin 1),
    .chan ∈ (s.hw.txq (.sta 0 ⟨0, by decide⟩)).status ∧ ChannelGating s := by
  have opened := System.Reachable.step (S := oneSystem) .init
    (show Sound false _ (.open_ 0 .ap none) from trivial) rfl
  have started := opened.step (show Sound false _ (.startAp 0 (some 0)) from
    ⟨fun i listed => (nomatch listed), fun _ => by decide⟩) rfl
  have joined := started.step (show Sound false _ (.addStation 0 (some 0) false) from
    ⟨fun w _ isMember => (by obtain rfl := Subsingleton.elim w 0; cases isMember), rfl,
      fun r inForce => (nomatch inForce)⟩) rfl
  have left := joined.step (show Sound false _ (.chanPreSwitchInd 0) from
    fun v _ _ i isTdls => (by obtain rfl := Subsingleton.elim v 0; cases isTdls)) rfl
  exact ⟨_, by decide, channel_gating left⟩

/-- **A station that is added during a CSA stop** is not stopped. -/
theorem addStation_forgets_csa : ¬ ∀ s : GateState (Fin 1) (Fin 1),
    oneSystem.Reachable (fun _ _ => True) s → ChannelGating s := by
  intro gating
  have opened : oneSystem.Reachable (fun _ _ => True) _ :=
    .step .init trivial (show oneSystem.step _ (.open_ 0 .ap none) = some _ from rfl)
  have started := opened.step trivial (show oneSystem.step _ (.startAp 0 (some 0)) = some _ from rfl)
  have stopped := started.step trivial (show oneSystem.step _ (.csaTrafficInd 0 false) = some _ from rfl)
  have joined := stopped.step trivial (show oneSystem.step _ (.addStation 0 (some 0) false) = some _ from rfl)
  have carried := (gating _ joined).carried 0 ⟨0, by decide⟩ 0 rfl rfl .csa (.inl (by decide))
  exact absurd carried (by decide)

end W2l.Gate
