/-
**Channel gating of the TX queues: links begin and end.**

A lemma for each request and indication that makes queues, or takes them away: interfaces and APs,
stations, TDLS stations and connections.
-/

import W2lDriver.Gate.Switches

set_option linter.unusedSectionVars false

namespace W2l.Gate

open Chan (amlChNotSet nxChanCtxtCnt)
open Sched (StopReason nxNbTxqPerSta)
open Function (update update_of_ne update_self)
open Option (some.inj some_inj)
open Bool (eq_false_iff)
open GateHw (chanctxLink isSta isSta_iff isVif isVif_iff mapTxq_curChanctx mapTxq_txq mapTxq_vif
  masterVif_of_ne modVif_of_ne modVif_self ne_of_isSta_singleton shape txqStaDeinit txqStaInit txqStatus)

variable {V S : Type} [DecidableEq V] [DecidableEq S]

/-- The firmware gives an index that no interface has. -/
def Fresh (s : GateHw V S) (i : S) : Prop := ∀ w ∈ s.vifs, ¬ s.Member w i

def TdlsIdle (s : GateHw V S) (v : V) : Prop := ∀ i, (s.vif v).tdlsSta = some i → s.Idle i

/-- A link on the current channel is on the channel the firmware is on. -/
def Entered (s : GateState V S) (chIdx : BitVec 8) : Prop :=
  s.hw.curChanctx = chIdx → chIdx < nxChanCtxtCnt ∧ s.air = some chIdx

variable {s t : GateState V S} {tdls : Bool} {v : V} {i : S} {q : Queue V S}

/-! ### Links begin and end -/

theorem own_master {s : GateHw V S} (own : s.own v = true) :
    v ∈ s.vifs ∧ (s.vif v).up = true ∧ (s.vif v).iftype ≠ .apVlan ∧ s.masterVif v = v := by
  obtain ⟨here, up, vlan⟩ := own_iff.mp own
  exact ⟨here, up, vlan, masterVif_of_ne vlan⟩

theorem member_ap {s : GateHw V S} (isAp : (s.vif v).iftype.isAp = true) : s.Member v i ↔ i ∈ (s.vif v).staList := by
  unfold GateHw.Member
  cases kind : (s.vif v).iftype <;> rw [kind] at isAp <;> first | rfl | cases isAp

theorem member_station {s : GateHw V S} (isStation : (s.vif v).iftype.isStation = true) :
    s.Member v i ↔ (s.vif v).ap = some i ∨ (s.vif v).tdlsSta = some i := by
  unfold GateHw.Member
  cases kind : (s.vif v).iftype <;> rw [kind] at isStation <;> first | rfl | cases isStation

theorem ap_not_station {x : Iftype} (isAp : x.isAp = true) : x.isStation = false := by
  cases x <;> first | rfl | cases isAp

theorem station_not_ap {x : Iftype} (isStation : x.isStation = true) : x.isAp = false := by
  cases x <;> first | rfl | cases isStation

theorem Gated.mem_staList (gated : Gated tdls s) (isAp : (s.hw.vif v).iftype.isAp = true) {tid : Fin nxNbTxqPerSta}
    (of : s.hw.Of (.sta i tid) v) (used : (s.hw.txq (.sta i tid)).active = true) :
    i ∈ (s.hw.vif v).staList := by
  obtain ⟨w, here, isMember⟩ := gated.table.owned i tid used
  obtain rfl : w = v := some.inj ((gated.table.unique w here i isMember).symm.trans of)
  exact (member_ap isAp).mp isMember

theorem Gated.open_ (gated : Gated tdls s) {iftype : Iftype} {master : Option V} (new : v ∉ s.hw.vifs)
    (vlan : iftype = .apVlan → ∃ m, master = some m ∧ s.hw.own m = true ∧ (s.hw.vif m).iftype.isAp = true)
    (hw : t.hw = s.hw.act tdls (.open_ v iftype master)) (air : t.air = s.air)
    (force : t.inForce = s.inForce) : Gated tdls t := by
  have same : ∀ w, w ≠ v → t.hw.vif w = s.hw.vif w := fun w other => by
    rw [hw]
    exact update_of_ne other ..
  have self : t.hw.vif v = { iftype, master, up := true } := by
    rw [hw]
    exact update_self ..
  have vifs : t.hw.vifs = s.hw.vifs ++ [v] := by
    rw [hw]
    rfl
  have txq : t.hw.txq = s.hw.txq := by
    rw [hw]
    rfl
  have staVif : t.hw.staVif = s.hw.staVif := by
    rw [hw]
    rfl
  have old : ∀ w ∈ s.hw.vifs, w ≠ v := fun w here at_ => new (at_ ▸ here)
  have mem : ∀ w, w ∈ t.hw.vifs ↔ w ∈ s.hw.vifs ∨ w = v := fun w => by
    rw [vifs, List.mem_append, List.mem_singleton]
  have member : ∀ w, w ≠ v → ∀ i, t.hw.Member w i ↔ s.hw.Member w i := fun w other i => by
    unfold GateHw.Member
    rw [same w other]
  have table : t.hw.Table tdls := by
    refine ⟨fun i tid used => ?_, fun w above i isMember => ?_, fun w above => ?_, fun w used => ?_, fun w used => ?_,
      fun w above station => ?_, fun w above isVlan => ?_⟩
    · rw [txq] at used
      obtain ⟨w, above, isMember⟩ := gated.table.owned i tid used
      exact ⟨w, (mem w).mpr (.inl above), (member w (old w above) i).mpr isMember⟩
    · rcases (mem w).mp above with above | rfl
      · rw [staVif]
        exact gated.table.unique w above i ((member w (old w above) i).mp isMember)
      · unfold GateHw.Member at isMember
        rw [self] at isMember
        cases iftype <;> simp at isMember
    · rcases (mem w).mp above with above | rfl
      · rw [same w (old w above)]
        exact gated.table.up w above
      · rw [self]
    · rw [txq] at used
      obtain ⟨above, isAp⟩ := gated.table.bcmc w used
      rw [same w (old w above)]
      exact ⟨(mem w).mpr (.inl above), isAp⟩
    · rw [txq] at used
      obtain ⟨above, kind⟩ := gated.table.unk w used
      rw [same w (old w above)]
      exact ⟨(mem w).mpr (.inl above), kind⟩
    · rcases (mem w).mp above with above | rfl
      · rw [same w (old w above)] at station ⊢
        exact gated.table.client w above station
      · rw [self]
        exact ⟨rfl, rfl⟩
    · rcases (mem w).mp above with above | rfl
      · rw [same w (old w above)] at isVlan ⊢
        obtain ⟨notSet, m, up, isMaster, isAp⟩ := gated.table.vlan w above isVlan
        exact ⟨notSet, m, (mem m).mpr (.inl up), isMaster, by rw [same m (old m up)]; exact isAp⟩
      · rw [self] at isVlan ⊢
        obtain ⟨m, isMaster, own, isAp⟩ := vlan isVlan
        have up := (own_iff.mp own).1
        exact ⟨rfl, m, (mem m).mpr (.inl up), isMaster, by rw [same m (old m up)]; exact isAp⟩
  have of : ∀ q w, t.hw.Of q w → s.hw.Of q w := fun q w of => by
    cases q <;> first | exact of | exact (congrFun staVif _).symm.trans of
  refine gated.atVif table same (fun q w _ at_ _ => ⟨of q w at_, congrFun txq q⟩) ?_ air (fun w _ => congrFun force w)
    (force ▸ gated.kinds v) fun q at_ used => ?_
  · rw [hw]
    rfl
  · rw [txq] at used
    exact absurd (gated.table.of_active (of q v at_) used).1 new

variable {chIdx : BitVec 8}

theorem chanctxLink_chIndex {s : GateHw V S} (inside : chIdx < nxChanCtxtCnt) :
    s.chanctxLink v chIdx = s.modVif v fun x => { x with chIndex := chIdx } := by
  unfold chanctxLink
  exact if_neg (BitVec.not_le.mpr inside)

theorem chanctxLink_fields (s : GateHw V S) (v : V) (chIdx : BitVec 8) :
    ∃ chIndex, s.chanctxLink v chIdx = s.modVif v fun x => { x with chIndex := chIndex } := by
  unfold chanctxLink
  split
  · refine ⟨(s.vif v).chIndex, ?_⟩
    show s = { s with vif := update s.vif v (s.vif v) }
    rw [Function.update_eq_self]
  · exact ⟨chIdx, rfl⟩

/-- **An AP starts.** -/
theorem Gated.startAp (gated : Gated tdls s) (own : s.hw.own v = true)
    (isAp : (s.hw.vif v).iftype.isAp = true) (idle : ∀ i ∈ (s.hw.vif v).staList, s.hw.Idle i)
    (entered : Entered s chIdx) (hw : t.hw = s.hw.startAp v (some chIdx)) (air : t.air = s.air)
    (force : t.inForce = s.inForce) : Gated tdls t := by
  obtain ⟨here, up, notVlan, master⟩ := own_master own
  obtain ⟨chIndex, linked⟩ := chanctxLink_fields s.hw v chIdx
  have masters : (s.hw.modVif v fun x => { x with chIndex := chIndex }).masterVif v = v := by
    refine masterVif_of_ne ?_
    rw [modVif_self]
    exact notVlan
  have eq : t.hw = (s.hw.modVif v fun x => { x with chIndex := chIndex }).mapTxq (isVif v)
      fun _ => Txq.init (s.hw.txqStatus chIdx) := by
    rw [hw]
    unfold GateHw.startAp GateHw.txqVifInit
    dsimp only
    rw [linked, masters]
  have same : ∀ w, w ≠ v → t.hw.vif w = s.hw.vif w := fun w other => by
    rw [eq, mapTxq_vif, modVif_of_ne _ _ other]
  have self : t.hw.vif v = { s.hw.vif v with chIndex := chIndex } := by
    rw [eq, mapTxq_vif, modVif_self]
  have cur : t.hw.curChanctx = s.hw.curChanctx := by rw [eq]; rfl
  have staVif : t.hw.staVif = s.hw.staVif := by rw [eq]; rfl
  have vifs : t.hw.vifs = s.hw.vifs := by rw [eq]; rfl
  have member : ∀ i, t.hw.Member v i ↔ s.hw.Member v i := fun i => by
    unfold GateHw.Member
    rw [self]
  have txq : ∀ q, t.hw.txq q = if isVif v q then Txq.init (s.hw.txqStatus chIdx) else s.hw.txq q :=
    fun q => by rw [eq, mapTxq_txq, GateHw.modVif_txq]
  have sta : ∀ i tid, t.hw.txq (.sta i tid) = s.hw.txq (.sta i tid) := fun i tid => by
    rw [txq]
    rfl
  have others : ∀ q w, w ≠ v → t.hw.Of q w → s.hw.Of q w ∧ t.hw.txq q = s.hw.txq q := fun q w other of => by
    cases q with
    | sta i tid => exact ⟨(congrFun staVif i).symm.trans of, sta i tid⟩
    | bcmc u =>
      obtain rfl : u = w := of
      exact ⟨rfl, by rw [txq]; exact if_neg (by simp [isVif, other])⟩
    | unk u =>
      obtain rfl : u = w := of
      exact ⟨rfl, by rw [txq]; exact if_neg (by simp [isVif, other])⟩
    | offchan => cases of
  have table : t.hw.Table tdls := by
    refine gated.table.atVif here vifs same ?_ notVlan ?_ (fun i tid used => ?_) (fun i isMember => ?_)
      (fun w above other i isMember => ?_) (fun w other => ⟨fun used => ?_, fun used => ?_⟩) (fun _ => isAp)
      (fun _ => .inl isAp) fun station => ?_
    · rw [self]
    · rw [self]
      exact up
    · rw [sta] at used
      by_cases at_ : s.hw.Member v i
      · exact .inl ((member i).mpr at_)
      · exact .inr ⟨used, at_⟩
    · rw [staVif]
      exact gated.table.unique v here i ((member i).mp isMember)
    · rw [staVif]
      exact gated.table.unique w above i isMember
    · rwa [(others (.bcmc w) w other rfl).2] at used
    · rwa [(others (.unk w) w other rfl).2] at used
    · rw [self]
      exact gated.table.client v here station
  refine gated.atVif table same (fun q w other of _ => others q w other of) cur air (fun w _ => congrFun force w)
    (force ▸ gated.kinds v) fun q of used => ?_
  have new : isVif v q = true := by
    cases q with
    | sta i tid =>
      rw [sta] at used
      have of : s.hw.Of (.sta i tid) v := (congrFun staVif i).symm.trans of
      rw [idle i (gated.mem_staList isAp of used) tid] at used
      cases used
    | bcmc u => exact isVif_iff.mpr (.inl (congrArg _ of))
    | unk u => exact isVif_iff.mpr (.inr (congrArg _ of))
    | offchan => cases of
  refine ⟨fun lacks => .inl ?_, fun i tid isSta => ?_⟩
  · rw [txq, if_pos new] at lacks
    have current : s.hw.curChanctx = chIdx := by
      by_contra other
      refine lacks ?_
      unfold Txq.init txqStatus
      rw [if_neg other]
      decide
    obtain ⟨inside, on⟩ := entered current
    have at_ : (t.hw.vif v).chIndex = chIdx := by
      rw [chanctxLink_chIndex inside] at linked
      have fields := congrArg (fun s : GateHw V S => (s.vif v).chIndex) linked
      simp only [modVif_self] at fields
      rw [self]
      exact fields.symm
    refine ⟨at_.trans (current.symm.trans cur.symm), ?_⟩
    rw [air, on, cur, current]
  · rw [isSta] at new
    cases new

/-- One interface is changed to `x`. -/
structure VifChange (s t : GateHw V S) (v : V) (x : Vif V S) : Prop where
  vifs : t.vifs = s.vifs
  same : ∀ w, w ≠ v → t.vif w = s.vif w
  self : t.vif v = x
  cur : t.curChanctx = s.curChanctx

namespace VifChange

variable {s t : GateHw V S} {x : Vif V S}

theorem init (s : GateHw V S) (v : V) : VifChange s s v (s.vif v) := ⟨rfl, fun _ _ => rfl, rfl, rfl⟩

section

variable (change : VifChange s t v x)

include change

theorem modVif (f : Vif V S → Vif V S) : VifChange s (t.modVif v f) v (f x) where
  vifs := change.vifs
  same w other := (modVif_of_ne v f other).trans (change.same w other)
  self := (modVif_self v f).trans (congrArg f change.self)
  cur := change.cur

theorem mapTxq (hit : Queue V S → Bool) (f : Txq → Txq) :
    VifChange s (t.mapTxq hit f) v x := ⟨change.vifs, change.same, change.self, change.cur⟩

theorem staVif (m : S → Option V) :
    VifChange s { t with staVif := m } v x := ⟨change.vifs, change.same, change.self, change.cur⟩

theorem master (notVlan : x.iftype ≠ .apVlan) : t.masterVif v = v := by
  refine masterVif_of_ne ?_
  rw [change.self]
  exact notVlan

end

end VifChange

theorem of_congr {s t : GateHw V S} (staVif : t.staVif = s.staVif) {w : V} (of : t.Of q w) : s.Of q w := by
  cases q <;> first | exact of | exact (congrFun staVif _).symm.trans of

theorem isSta_self (i : S) (tid : Fin nxNbTxqPerSta) : isSta [i] (.sta i tid : Queue V S) = true :=
  isSta_iff.mpr ⟨i, List.mem_singleton_self i, tid, rfl⟩

/-- The queues `off` are taken away. -/
structure Fewer (s t : GateHw V S) (off : Queue V S → Bool) : Prop where
  gone : ∀ q, off q = true → (t.txq q).active ≠ true
  same : ∀ q, off q = false → t.txq q = s.txq q

namespace Fewer

variable {s t : GateHw V S} {off : Queue V S → Bool}

theorem init (s : GateHw V S) : Fewer s s fun _ => false := ⟨(fun _ clash => nomatch clash), fun _ _ => rfl⟩

theorem of_txq (fewer : Fewer s t off) {u : GateHw V S} (txq : u.txq = t.txq) : Fewer s u off := by
  refine ⟨?_, ?_⟩ <;> rw [txq]
  · exact fewer.gone
  · exact fewer.same

theorem mapTxq (fewer : Fewer s t off) (hit : Queue V S → Bool) :
    Fewer s (t.mapTxq hit Txq.deinit) fun q => off q || hit q := by
  refine ⟨fun q either used => ?_, fun q none => ?_⟩
  · obtain ⟨miss, used⟩ := GateHw.mapTxq_deinit_active hit used
    exact fewer.gone q ((Bool.or_eq_true_iff.mp either).resolve_right (eq_false_iff.mp miss)) used
  · obtain ⟨kept, miss⟩ := Bool.or_eq_false_iff.mp none
    rw [mapTxq_txq, if_neg (eq_false_iff.mp miss), fewer.same q kept]

theorem alive (fewer : Fewer s t off) (used : (t.txq q).active = true) :
    off q = false ∧ (s.txq q).active = true ∧ t.txq q = s.txq q := by
  have kept : off q = false := eq_false_iff.mpr fun isOff => fewer.gone q isOff used
  have same := fewer.same q kept
  exact ⟨kept, same ▸ used, same⟩

end Fewer

section

variable (gated : Gated tdls s)

include gated

section

variable (own : s.hw.own v = true)

include own

theorem Gated.fewer {x : Vif V S} {off : Queue V S → Bool}
    (change : VifChange s.hw t.hw v x) (fewer : Fewer s.hw t.hw off) (kind : x.iftype = (s.hw.vif v).iftype)
    (up : x.up = (s.hw.vif v).up) (staVif : t.hw.staVif = s.hw.staVif)
    (member : ∀ i, t.hw.Member v i → s.hw.Member v i)
    (kept : ∀ i tid, off (.sta i tid) = false → (s.hw.txq (.sta i tid)).active = true → s.hw.Member v i →
      t.hw.Member v i)
    (client : (s.hw.vif v).iftype.isStation = false → x.ap = (s.hw.vif v).ap ∧ x.tdlsSta = (s.hw.vif v).tdlsSta)
    (unk : off (.unk v) = false → (s.hw.txq (.unk v)).active = true → (s.hw.vif v).ap.isSome = true →
      x.ap.isSome = true)
    (air : t.air = s.air) (force : ∀ w, w ≠ v → t.inForce w = s.inForce w) (fewest : t.inForce v ⊆ s.inForce v)
    (here : ∀ q, s.hw.Of q v → off q = false → (s.hw.txq q).active = true → t.hw.txq q = s.hw.txq q →
      QueueOk t q v) : Gated tdls t := by
  obtain ⟨above, isUp, notVlan, -⟩ := own_master own
  have table : t.hw.Table tdls := by
    refine gated.table.atVif above change.vifs change.same ?_ notVlan ?_ (fun i tid used => ?_)
      (fun i isMember => ?_) (fun w others _ i isMember => ?_)
      (fun w _ => ⟨fun used => (fewer.alive used).2.1, fun used => (fewer.alive used).2.1⟩)
      (fun used => (gated.table.bcmc v (fewer.alive used).2.1).2) (fun used => ?_) fun station => ?_
    · rw [change.self, kind]
    · rw [change.self, up, isUp]
    · obtain ⟨stays, used, -⟩ := fewer.alive used
      by_cases isMember : s.hw.Member v i
      · exact .inl (kept i tid stays used isMember)
      · exact .inr ⟨used, isMember⟩
    · rw [staVif]
      exact gated.table.unique v above i (member i isMember)
    · rw [staVif]
      exact gated.table.unique w others i isMember
    · obtain ⟨stays, used, -⟩ := fewer.alive used
      refine (gated.table.unk v used).2.imp_right fun ⟨station, on, linked⟩ => ⟨station, on, ?_⟩
      rw [change.self]
      exact unk stays used linked
    · rw [change.self]
      obtain ⟨ap, tdlsSta⟩ := client station
      rw [ap, tdlsSta]
      exact gated.table.client v above station
  refine gated.atVif table change.same (fun q w _ of used => ⟨of_congr staVif of, (fewer.alive used).2.2⟩) change.cur
    air force (fewest.trans (gated.kinds v)) fun q of used => ?_
  obtain ⟨stays, used, same⟩ := fewer.alive used
  exact here q (of_congr staVif of) stays used same

theorem Gated.stopAp (isAp : (s.hw.vif v).iftype.isAp = true)
    (hw : t.hw = s.hw.stopAp v) (air : t.air = s.air)
    (force : t.inForce = update s.inForce v (s.inForce v ∩ {.coexInactive})) : Gated tdls t := by
  obtain ⟨-, -, notVlan, -⟩ := own_master own
  have before := (((VifChange.init s.hw v).modVif fun x => { x with chIndex := amlChNotSet }).mapTxq
    (isSta (s.hw.vif v).staList) Txq.deinit).modVif fun x => { x with staList := [] }
  have eq : t.hw = (((s.hw.chanctxUnlink v).mapTxq (isSta (s.hw.vif v).staList) Txq.deinit).modVif v
      fun x => { x with staList := [] }).mapTxq (isVif v) Txq.deinit :=
    hw.trans (congrArg (fun w => GateHw.mapTxq _ (isVif w) _) (before.master notVlan))
  have change : VifChange s.hw t.hw v { s.hw.vif v with chIndex := amlChNotSet, staList := [] } := by
    rw [eq]
    exact before.mapTxq _ _
  have fewer : Fewer s.hw t.hw fun q => isSta (s.hw.vif v).staList q || isVif v q := by
    rw [eq]
    refine Fewer.mapTxq ?_ (isVif v)
    exact ((Fewer.init s.hw).mapTxq (isSta (s.hw.vif v).staList)).of_txq rfl
  have all : ∀ i tid, s.hw.Member v i → ¬(isSta (s.hw.vif v).staList (.sta i tid : Queue V S) ||
      isVif v (.sta i tid)) = false := by
    intro i tid isMember
    rw [isSta_iff.mpr ⟨i, (member_ap isAp).mp isMember, tid, rfl⟩]
    exact Bool.noConfusion
  refine gated.fewer own change fewer rfl rfl (by rw [eq]; rfl) (fun i isMember => ?_)
    (fun i tid stays _ isMember => absurd stays (all i tid isMember)) (fun _ => ⟨rfl, rfl⟩) (fun _ _ linked => linked)
    air (fun w other => by rw [force, update_of_ne other]) ?_ fun q of stays used _ => ?_
  · have listed := (member_ap (by rw [change.self]; exact isAp)).mp isMember
    rw [change.self] at listed
    cases listed
  · rw [force, update_self]
    exact Finset.inter_subset_left
  · cases q with
    | sta i tid => exact absurd stays (all i tid ((member_ap isAp).mpr (gated.mem_staList isAp of used)))
    | bcmc u =>
      rw [isVif_iff.mpr (.inl (congrArg _ of)), Bool.or_true] at stays
      cases stays
    | unk u =>
      rw [isVif_iff.mpr (.inr (congrArg _ of)), Bool.or_true] at stays
      cases stays
    | offchan => cases of

theorem Gated.delStation {sent : Bool}
    (isAp : (s.hw.vif v).iftype.isAp = true) (hw : t.hw = s.hw.delStation v i sent) (air : t.air = s.air)
    (force : t.inForce = s.inForce) : Gated tdls t := by
  unfold GateHw.delStation txqStaDeinit at hw
  by_cases listed : i ∈ (s.hw.vif v).staList
  swap
  · rw [if_neg listed] at hw
    obtain ⟨thw, tair, inForce⟩ := t
    obtain rfl : tair = _ := air
    obtain rfl : inForce = _ := force
    obtain rfl : thw = _ := hw
    exact gated
  rw [if_pos listed] at hw
  obtain ⟨list, change, kept⟩ : ∃ list, VifChange s.hw t.hw v { s.hw.vif v with staList := list } ∧
      (∀ j ∈ list, j ∈ (s.hw.vif v).staList) ∧ ∀ j ∈ (s.hw.vif v).staList, j = i ∨ j ∈ list := by
    have quiet := (VifChange.init s.hw v).mapTxq (isSta [i]) Txq.deinit
    cases sent with
    | false =>
      refine ⟨(s.hw.vif v).staList, ?_, fun _ mem => mem, fun _ mem => .inr mem⟩
      rw [hw]
      exact quiet
    | true =>
      refine ⟨(s.hw.vif v).staList.erase i, ?_, fun _ mem => List.mem_of_mem_erase mem, fun j mem => ?_⟩
      · rw [hw]
        exact quiet.modVif fun x => { x with staList := x.staList.erase i }
      · by_cases same : j = i
        · exact .inl same
        · exact .inr ((List.mem_erase_of_ne same).mpr mem)
  have fewer : Fewer s.hw t.hw (isSta [i]) := by
    rw [hw]
    cases sent <;> exact ((Fewer.init s.hw).mapTxq (isSta [i])).of_txq rfl
  have staVif : t.hw.staVif = s.hw.staVif := by
    rw [hw]
    cases sent <;> rfl
  have mem : ∀ j, t.hw.Member v j ↔ j ∈ list := fun j => by
    rw [member_ap (by rw [change.self]; exact isAp), change.self]
  refine gated.fewer own change fewer rfl rfl staVif
    (fun j isMember => (member_ap isAp).mpr (kept.1 j ((mem j).mp isMember)))
    (fun j tid stays _ isMember => (mem j).mpr ((kept.2 j ((member_ap isAp).mp isMember)).resolve_left
      (ne_of_isSta_singleton stays))) (fun _ => ⟨rfl, rfl⟩) (fun _ _ linked => linked) air
    (fun w _ => congrFun force w) (force ▸ subset_rfl) fun q of _ used same => gated.kept ?_
  refine .same of used (congrArg _ same) (force ▸ subset_rfl) (served_congr ?_ change.cur air) (exempt_congr ?_ ?_) <;>
    rw [change.self]

end

theorem Gated.psBhEnable (i : S) (enable : Bool) (hw : t.hw = s.hw.psBhEnable i enable)
    (air : t.air = s.air) (force : t.inForce = s.inForce) : Gated tdls t := by
  have kinds : ∀ w, t.inForce w ⊆ {.vifPs, .csa, .coexInactive} := fun w => force ▸ gated.kinds w
  unfold GateHw.psBhEnable at hw
  cases enable with
  | true =>
    refine gated.stop hw kinds (fun w r inForce => .inl (force ▸ inForce)) fun q w _ _ _ => served_congr ?_ ?_ air
    · rw [hw, mapTxq_vif]
    · rw [hw, mapTxq_curChanctx]
  | false =>
    refine gated.start hw air (by decide) (fun w => force ▸ subset_rfl) fun q w _ _ r inForce isPs => ?_
    have kind := kinds w inForce
    rw [Finset.mem_singleton.mp isPs] at kind
    exact absurd kind (by decide)

/-- **New queues of a station**: what they need to be stopped for. -/
theorem Gated.newSta {x : Vif V S} (own : s.hw.own v = true)
    (change : VifChange s.hw t.hw v x) (kind : x.iftype = (s.hw.vif v).iftype) (up : x.up = true)
    (staVif : t.hw.staVif = update s.hw.staVif i (some v))
    (txq : ∀ q, isSta [i] q = false → t.hw.txq q = s.hw.txq q) (air : t.air = s.air)
    (force : t.inForce = s.inForce) (fresh : ∀ w ∈ s.hw.vifs, w ≠ v → ¬ s.hw.Member w i) (new : t.hw.Member v i)
    (kept : ∀ j tid, j ≠ i → s.hw.Member v j → (s.hw.txq (.sta j tid)).active = true → t.hw.Member v j)
    (old : ∀ j, j ≠ i → t.hw.Member v j → s.hw.Member v j)
    (client : (s.hw.vif v).iftype.isStation = false → x.ap = none ∧ x.tdlsSta = none)
    (ap : (s.hw.vif v).ap.isSome = true → x.ap.isSome = true)
    (here : ∀ q, isSta [i] q = false → t.hw.Of q v → (s.hw.txq q).active = true → QueueOk t q v)
    (ok : ∀ tid, QueueOk t (.sta i tid) v) : Gated tdls t := by
  obtain ⟨above, -, notVlan, -⟩ := own_master own
  have others : ∀ j tid, j ≠ i → t.hw.txq (.sta j tid) = s.hw.txq (.sta j tid) := fun j tid other =>
    txq _ (by simp [isSta, other])
  have table : t.hw.Table tdls := by
    refine gated.table.atVif above change.vifs change.same ?_ notVlan ?_ (fun j tid used => ?_) (fun j isMember => ?_)
      (fun w up other j isMember => ?_) (fun w _ => ⟨fun used => ?_, fun used => ?_⟩) (fun used => ?_) (fun used => ?_)
      fun station => ?_
    · rw [change.self, kind]
    · rw [change.self, up]
    · by_cases same : j = i
      · subst same
        exact .inl new
      · rw [others j tid same] at used
        by_cases isMember : s.hw.Member v j
        · exact .inl (kept j tid same isMember used)
        · exact .inr ⟨used, isMember⟩
    · rw [staVif]
      by_cases same : j = i
      · subst same
        exact update_self ..
      · rw [update_of_ne same]
        exact gated.table.unique v above j (old j same isMember)
    · have same : j ≠ i := fun at_ => fresh w up other (at_ ▸ isMember)
      rw [staVif, update_of_ne same]
      exact gated.table.unique w up j isMember
    · rwa [txq _ rfl] at used
    · rwa [txq _ rfl] at used
    · rw [txq _ rfl] at used
      exact (gated.table.bcmc v used).2
    · rw [txq _ rfl] at used
      exact (gated.table.unk v used).2.imp_right fun all =>
        ⟨all.1, all.2.1, (congrArg (·.ap.isSome) change.self).trans (ap all.2.2)⟩
    · rw [change.self]
      exact client station
  have split : ∀ q w, t.hw.Of q w → isSta [i] q = true ∧ w = v ∨ isSta [i] q = false ∧ s.hw.Of q w := fun q w of => by
    cases q with
    | sta j tid =>
      have of : t.hw.staVif j = some w := of
      rw [staVif] at of
      by_cases same : j = i
      · subst same
        rw [update_self] at of
        exact .inl ⟨isSta_iff.mpr ⟨j, List.mem_singleton_self j, tid, rfl⟩, (some.inj of).symm⟩
      · rw [update_of_ne same] at of
        exact .inr ⟨by simp [isSta, same], of⟩
    | bcmc u => exact .inr ⟨rfl, of⟩
    | unk u => exact .inr ⟨rfl, of⟩
    | offchan => exact .inr ⟨rfl, of⟩
  refine gated.atVif table change.same (fun q w other of _ => ?_) change.cur air (fun w _ => congrFun force w)
    (force ▸ gated.kinds v) fun q of used => ?_
  · rcases split q w of with ⟨-, same⟩ | ⟨miss, of⟩
    · exact absurd same other
    · exact ⟨of, txq q miss⟩
  · rcases split q v of with ⟨hit, -⟩ | ⟨miss, -⟩
    · obtain ⟨j, listed, tid, rfl⟩ := isSta_iff.mp hit
      obtain rfl := List.mem_singleton.mp listed
      exact ok tid
    · rw [txq q miss] at used
      exact here q miss of used

end

theorem newSta_txq {s : GateHw V S} {status : Finset StopReason} (q : Queue V S)
    (miss : isSta [i] q = false) : (s.txqStaInit i status).txq q = s.txq q := by
  unfold txqStaInit
  rw [mapTxq_txq]
  exact if_neg (eq_false_iff.mp miss)

theorem newSta_status {s : GateHw V S} {status : Finset StopReason} (tid : Fin nxNbTxqPerSta) :
    ((s.txqStaInit i status).txq (.sta i tid)).status = status.erase .coexInactive := by
  unfold txqStaInit
  have hit : isSta [i] (Queue.sta (V := V) i tid) = true :=
    isSta_iff.mpr ⟨i, List.mem_singleton_self i, tid, rfl⟩
  rw [mapTxq_txq, if_pos hit]
  rfl

section

variable (gated : Gated tdls s)

include gated

theorem Gated.addStation {pmState : Bool} (own : s.hw.own v = true)
    (isAp : (s.hw.vif v).iftype.isAp = true) (fresh : Fresh s.hw i)
    (started : (s.hw.txq (.bcmc v)).active = true)
    (inherits : ∀ r ∈ s.inForce v, r = .vifPs ∧ .vifPs ∈ (s.hw.txq (.bcmc v)).status)
    (hw : t.hw = s.hw.addStation v pmState (some i)) (air : t.air = s.air) (force : t.inForce = s.inForce) :
    Gated tdls t := by
  obtain ⟨here, up, notVlan, master⟩ := own_master own
  -- the station is in the table before its power save is looked at
  obtain ⟨m, mhw⟩ : ∃ m : GateState V S, m = ⟨({ s.hw with
      staVif := update s.hw.staVif i (some v) }.txqStaInit i (s.hw.txqVifGetStatus v)).modVif v
        fun x => { x with staList := x.staList ++ [i] }, s.air, s.inForce⟩ := ⟨_, rfl⟩
  have change : VifChange s.hw m.hw v { s.hw.vif v with staList := (s.hw.vif v).staList ++ [i] } := by
    rw [mhw]
    exact (((VifChange.init s.hw v).staVif _).mapTxq _ _).modVif fun x => { x with staList := x.staList ++ [i] }
  have isAp' : (m.hw.vif v).iftype.isAp = true := by
    rw [change.self]
    exact isAp
  have mem : ∀ j, m.hw.Member v j ↔ s.hw.Member v j ∨ j = i := fun j => by
    rw [member_ap isAp', change.self, member_ap isAp, List.mem_append, List.mem_singleton]
  have txq : ∀ q, isSta [i] q = false → m.hw.txq q = s.hw.txq q := fun q miss => by
    rw [mhw]
    exact newSta_txq q miss
  have same : ∀ w, s.Served w → m.Served w := fun w => by
    refine served_congr ?_ change.cur ?_
    · by_cases at_ : w = v
      · rw [at_, change.self]
      · rw [change.same w at_]
    · rw [mhw]
  have added : Gated tdls m := by
    refine gated.newSta (i := i) own change rfl up (by rw [mhw]; rfl) txq (by rw [mhw]) (by rw [mhw])
      (fun w above _ => fresh w above) ((mem i).mpr (.inr rfl)) (fun j _ _ isMember _ => (mem j).mpr (.inl isMember))
      (fun j other isMember => ((mem j).mp isMember).resolve_right other)
      (fun _ => gated.table.client v here (ap_not_station isAp)) id
      (fun q miss of used => gated.kept ?_) fun tid => ?_
    · have of : s.hw.Of q v := by
        cases q with
        | sta j tid =>
          have other : j ≠ i := ne_of_isSta_singleton miss
          rw [mhw] at of
          exact (update_of_ne other ..).symm.trans of
        | bcmc u => exact of
        | unk u => exact of
        | offchan => exact of
      refine .same of used (congrArg _ (txq q miss)) (by rw [mhw]) (same v) (exempt_congr ?_ ?_) <;> rw [change.self]
    · have status : (m.hw.txq (.sta i tid)).status =
          ((s.hw.txq (.bcmc v)).status ∩ {.chan, .vifPs}).erase .coexInactive := by
        rw [mhw]
        refine (newSta_status tid).trans ?_
        unfold GateHw.txqVifGetStatus
        rw [master]
      have carries : ∀ r, r = .chan ∨ r = .vifPs → r ∈ (s.hw.txq (.bcmc v)).status →
          r ∈ (m.hw.txq (.sta i tid)).status := fun r kind has => by
        rw [status]
        rcases kind with rfl | rfl
        · exact Finset.mem_erase.mpr ⟨by decide, Finset.mem_inter.mpr ⟨has, by decide⟩⟩
        · exact Finset.mem_erase.mpr ⟨by decide, Finset.mem_inter.mpr ⟨has, by decide⟩⟩
      refine ⟨fun lacks => .inl (same v ?_), fun _ _ _ r inForce => ?_⟩
      · have of : s.hw.Of (.bcmc v) v := rfl
        refine ((gated.ok _ v of started).chan fun has => lacks (carries _ (.inl rfl) has)).resolve_right ?_
        rintro ⟨-, j, -, tid, clash⟩
        cases clash
      · rw [mhw] at inForce
        obtain ⟨rfl, has⟩ := inherits r inForce
        exact carries _ (.inr rfl) has
  refine added.psBhEnable i pmState ?_ ?_ ?_
  · rw [hw, mhw]
    rfl
  · rw [air, mhw]
  · rw [force, mhw]

theorem Gated.changeStation (own : s.hw.own v = true)
    (isStation : (s.hw.vif v).iftype.isStation = true) (fresh : Fresh s.hw i) (idle : TdlsIdle s.hw v)
    (served : s.Served v) (free : s.inForce v = ∅) (hw : t.hw = s.hw.changeStation v (some i))
    (air : t.air = s.air) (force : t.inForce = s.inForce) : Gated tdls t := by
  obtain ⟨here, up, notVlan, master⟩ := own_master own
  obtain ⟨tdlsStatus, change⟩ : ∃ tdlsStatus, VifChange s.hw t.hw v
      { s.hw.vif v with tdlsStatus := tdlsStatus, tdlsSta := some i } := by
    rw [hw]
    refine ⟨if (s.hw.vif v).tdlsStatus = .setupRspTx then .linkActive else (s.hw.vif v).tdlsStatus, ?_⟩
    exact (((VifChange.init s.hw v).staVif _).mapTxq _ _).modVif fun x =>
      { x with
        tdlsStatus := if x.tdlsStatus = .setupRspTx then .linkActive else x.tdlsStatus
        tdlsSta := some i }
  have station' : (t.hw.vif v).iftype.isStation = true := by
    rw [change.self]
    exact isStation
  have mem : ∀ j, t.hw.Member v j ↔ (s.hw.vif v).ap = some j ∨ i = j := fun j => by
    rw [member_station station', change.self]
    exact or_congr Iff.rfl some_inj
  have txq : ∀ q, isSta [i] q = false → t.hw.txq q = s.hw.txq q := fun q miss => by
    rw [hw]
    exact newSta_txq q miss
  have staVif : t.hw.staVif = update s.hw.staVif i (some v) := by rw [hw]; rfl
  have still : t.Served v := by
    refine served_congr ?_ change.cur air served
    rw [change.self]
  refine gated.newSta (i := i) own change rfl up staVif txq air force (fun w above _ => fresh w above)
    ((mem i).mpr (.inr rfl)) (fun j tid other isMember used => ?_) (fun j other isMember => ?_) (fun station => ?_) id
    (fun q miss of used => gated.kept ?_) fun tid => ⟨fun _ => .inl still, fun _ _ _ => ?_⟩
  · rcases (member_station isStation).mp isMember with ap | isTdls
    · exact (mem j).mpr (.inl ap)
    · rw [idle j isTdls tid] at used
      cases used
  · exact (member_station isStation).mpr (.inl (((mem j).mp isMember).resolve_right other.symm))
  · rw [isStation] at station
    cases station
  · have of : s.hw.Of q v := by
      cases q with
      | sta j tid =>
        have other : j ≠ i := ne_of_isSta_singleton miss
        exact ((congrFun staVif j).trans (update_of_ne other ..)).symm.trans of
      | bcmc u => exact of
      | unk u => exact of
      | offchan => exact of
    refine .same of used (congrArg _ (txq q miss)) (force ▸ subset_rfl) (fun _ => still) ?_
    rintro ⟨-, j, isTdls, tid, rfl⟩
    rw [idle j isTdls tid] at used
    cases used
  · rw [force, free]
    exact Finset.empty_subset _

theorem Gated.tdlsOper {sent : Bool} (own : s.hw.own v = true)
    (isStation : (s.hw.vif v).iftype.isStation = true) (hw : t.hw = s.hw.tdlsOper v sent) (air : t.air = s.air)
    (force : t.inForce = s.inForce) : Gated tdls t := by
  unfold GateHw.tdlsOper txqStaDeinit at hw
  cases isTdls : (s.hw.vif v).tdlsSta with
  | none =>
    rw [isTdls] at hw
    obtain ⟨thw, tair, inForce⟩ := t
    obtain rfl : tair = _ := air
    obtain rfl : inForce = _ := force
    obtain rfl : thw = _ := hw
    exact gated
  | some i =>
  rw [isTdls] at hw
  dsimp only at hw
  obtain ⟨tdlsStatus, tdlsSta, change, kept⟩ : ∃ tdlsStatus tdlsSta, VifChange s.hw t.hw v
      { s.hw.vif v with tdlsStatus := tdlsStatus, tdlsSta := tdlsSta } ∧ ∀ j, tdlsSta = some j → j = i := by
    have quiet := (VifChange.init s.hw v).mapTxq (isSta [i]) Txq.deinit
    cases sent with
    | false =>
      refine ⟨(s.hw.vif v).tdlsStatus, (s.hw.vif v).tdlsSta, ?_, fun j same => ?_⟩
      · rw [hw]
        exact quiet
      · rw [isTdls] at same
        exact (some.inj same).symm
    | true =>
      refine ⟨.linkIdle, none, ?_, fun j same => nomatch same⟩
      rw [hw]
      exact quiet.modVif fun x => { x with tdlsStatus := .linkIdle, tdlsSta := none }
  have fewer : Fewer s.hw t.hw (isSta [i]) := by
    rw [hw]
    cases sent <;> exact ((Fewer.init s.hw).mapTxq (isSta [i])).of_txq rfl
  have staVif : t.hw.staVif = s.hw.staVif := by
    rw [hw]
    cases sent <;> rfl
  have mem : ∀ j, t.hw.Member v j ↔ (s.hw.vif v).ap = some j ∨ tdlsSta = some j := fun j => by
    rw [member_station (by rw [change.self]; exact isStation), change.self]
  refine gated.fewer own change fewer rfl rfl staVif (fun j isMember => ?_) (fun j tid stays _ isMember => ?_)
    (fun station => ?_) (fun _ _ linked => linked) air (fun w _ => congrFun force w) (force ▸ subset_rfl)
    fun q of stays used same => gated.kept ?_
  · refine (member_station isStation).mpr (((mem j).mp isMember).imp_right fun same => ?_)
    rw [kept j same]
    exact isTdls
  · refine (mem j).mpr (.inl (((member_station isStation).mp isMember).resolve_right fun same => ?_))
    rw [isTdls] at same
    exact ne_of_isSta_singleton stays (some.inj same).symm
  · rw [isStation] at station
    cases station
  · refine .same of used (congrArg _ same) (force ▸ subset_rfl) (served_congr ?_ change.cur air) ?_
    · rw [change.self]
    · rintro ⟨-, j, isTdls', tid, rfl⟩
      rw [isTdls] at isTdls'
      exact absurd (some.inj isTdls').symm (ne_of_isSta_singleton stays)

/-- **A connection ends.** -/
theorem Gated.smDisconnectInd (own : s.hw.own v = true)
    (isStation : (s.hw.vif v).iftype.isStation = true) (idle : TdlsIdle s.hw v)
    (hw : t.hw = s.hw.smDisconnectInd tdls v) (air : t.air = s.air)
    (force : t.inForce = update s.inForce v (s.inForce v ∩ {.coexInactive})) : Gated tdls t := by
  obtain ⟨-, -, -, master⟩ := own_master own
  obtain ⟨change, staVif, off, fewer, ap, unk⟩ : VifChange s.hw t.hw v
      { s.hw.vif v with chIndex := amlChNotSet, ap := none } ∧ t.hw.staVif = s.hw.staVif ∧
      ∃ off, Fewer s.hw t.hw off ∧ (∀ i tid, (s.hw.vif v).ap = some i → off (.sta i tid) = true) ∧
      ((s.hw.txq (.unk v)).active = true → off (.unk v) = true) := by
    have noUnk : (s.hw.vif v).ap = none ∨ tdls = false → (s.hw.txq (.unk v)).active ≠ true := fun lost used => by
      rcases (gated.table.unk v used).2 with isAp | ⟨-, on, linked⟩
      · rw [station_not_ap isStation] at isAp
        cases isAp
      · rcases lost with lost | lost
        · rw [lost] at linked
          cases linked
        · rw [lost] at on
          cases on
    unfold GateHw.smDisconnectInd GateHw.chanctxUnlink txqStaDeinit GateHw.txqUnkVifDeinit at hw
    cases ap : (s.hw.vif v).ap with
    | none =>
      rw [ap] at hw
      dsimp only at hw
      refine ⟨?_, by rw [hw]; rfl, fun _ => false, (Fewer.init s.hw).of_txq (by rw [hw]; rfl),
        (fun i tid same => nomatch same), fun used => absurd used (noUnk (.inl ap))⟩
      rw [hw]
      have quiet := (VifChange.init s.hw v).modVif fun x => { x with chIndex := amlChNotSet }
      refine ⟨quiet.vifs, quiet.same, quiet.self.trans ?_, quiet.cur⟩
      rw [ap]
    | some i =>
      rw [ap] at hw
      dsimp only at hw
      have master' : (s.hw.mapTxq (isSta [i]) Txq.deinit).masterVif v = v := master
      rw [master'] at hw
      have quiet := (VifChange.init s.hw v).mapTxq (isSta [i]) Txq.deinit
      have first := (Fewer.init s.hw).mapTxq (isSta [i])
      cases tdls with
      | false =>
        rw [if_neg Bool.false_ne_true] at hw
        refine ⟨?_, by rw [hw]; rfl, _, first.of_txq (by rw [hw]; rfl), fun j tid same => ?_,
          fun used => absurd used (noUnk (.inr rfl))⟩
        · rw [hw]
          exact (quiet.modVif fun x => { x with ap := none }).modVif fun x => { x with chIndex := amlChNotSet }
        · obtain rfl := some.inj same
          exact isSta_self (V := V) i tid
      | true =>
        rw [if_pos rfl] at hw
        have second := first.mapTxq fun q => decide (q = .unk v)
        refine ⟨?_, by rw [hw]; rfl, _, second.of_txq (by rw [hw]; rfl), fun j tid same => ?_,
          fun _ => decide_eq_true rfl⟩
        · rw [hw]
          exact ((quiet.mapTxq _ _).modVif fun x => { x with ap := none }).modVif
            fun x => { x with chIndex := amlChNotSet }
        · obtain rfl := some.inj same
          exact Bool.or_eq_true_iff.mpr (.inl (isSta_self (V := V) i tid))
  have gone : ∀ i tid, off (.sta i tid) = false → (s.hw.txq (.sta i tid)).active = true → ¬ s.hw.Member v i := by
    intro i tid stays used isMember
    rcases (member_station isStation).mp isMember with isAp | isTdls
    · rw [ap i tid isAp] at stays
      cases stays
    · rw [idle i isTdls tid] at used
      cases used
  refine gated.fewer own change fewer rfl rfl staVif (fun i isMember => ?_)
    (fun i tid stays used isMember => absurd isMember (gone i tid stays used)) (fun station => ?_)
    (fun stays used => absurd (unk used) (eq_false_iff.mp stays)) air
    (fun w other => by rw [force, update_of_ne other]) ?_ fun q of stays used _ => ?_
  · have mem := (member_station (by rw [change.self]; exact isStation)).mp isMember
    rw [change.self] at mem
    exact (member_station isStation).mpr (.inr (mem.resolve_left fun no => nomatch no))
  · rw [isStation] at station
    cases station
  · rw [force, update_self]
    exact Finset.inter_subset_left
  · cases q with
    | sta i tid =>
      obtain ⟨w, above, isMember⟩ := gated.table.owned i tid used
      obtain rfl : w = v := some.inj ((gated.table.unique w above i isMember).symm.trans of)
      exact absurd isMember (gone i tid stays used)
    | bcmc u =>
      obtain rfl : u = v := of
      have isAp := (gated.table.bcmc u used).2
      rw [station_not_ap isStation] at isAp
      cases isAp
    | unk u =>
      obtain rfl : u = v := of
      exact absurd (unk used) (eq_false_iff.mp stays)
    | offchan => cases of

end

theorem Entered.served (entered : Entered s chIdx) (current : s.hw.curChanctx = chIdx)
    (linked : chIdx < nxChanCtxtCnt → (t.hw.vif v).chIndex = chIdx)
    (cur : t.hw.curChanctx = s.hw.curChanctx) (air : t.air = s.air) : t.Served v := by
  obtain ⟨inside, on⟩ := entered current
  refine ⟨(linked inside).trans (current.symm.trans cur.symm), ?_⟩
  rw [air, on, cur, current]

/-- **A connection begins.** -/
theorem Gated.smConnectInd (gated : Gated tdls s) (own : s.hw.own v = true)
    (isStation : (s.hw.vif v).iftype.isStation = true) (fresh : ∀ w ∈ s.hw.vifs, s.hw.Member w i → w = v)
    (same : ∀ j, (s.hw.vif v).ap = some j → j = i) (idle : TdlsIdle s.hw v) (free : s.inForce v = ∅)
    (entered : Entered s chIdx) (on : tdls = true → s.hw.curChanctx = chIdx)
    (hw : t.hw = s.hw.smConnectInd tdls v i chIdx) (air : t.air = s.air) (force : t.inForce = s.inForce) :
    Gated tdls t := by
  obtain ⟨here, up, notVlan, master⟩ := own_master own
  -- the queues of the AP come first, and the one for unknown stations behind them
  obtain ⟨m, mhw⟩ : ∃ m : GateState V S, m = ⟨(({ s.hw with
      staVif := update s.hw.staVif i (some v) }.modVif v fun x => { x with ap := some i }).chanctxLink
        v chIdx).txqStaInit i (s.hw.txqStatus chIdx), s.air, s.inForce⟩ := ⟨_, rfl⟩
  obtain ⟨chIndex, linked⟩ := chanctxLink_fields ({ s.hw with
    staVif := update s.hw.staVif i (some v) }.modVif v fun x => { x with ap := some i }) v chIdx
  have change : VifChange s.hw m.hw v { s.hw.vif v with chIndex := chIndex, ap := some i } := by
    rw [mhw, linked]
    have quiet := (((VifChange.init s.hw v).staVif (update s.hw.staVif i (some v))).modVif
      fun x => { x with ap := some i }).modVif fun x => { x with chIndex := chIndex }
    exact quiet.mapTxq (isSta [i]) fun _ => Txq.init (s.hw.txqStatus chIdx)
  have at_ : chIdx < nxChanCtxtCnt → (m.hw.vif v).chIndex = chIdx := fun inside => by
    rw [chanctxLink_chIndex inside] at linked
    have fields := congrArg (fun s : GateHw V S => (s.vif v).chIndex) linked
    simp only [modVif_self] at fields
    rw [change.self]
    exact fields.symm
  have maps : m.air = s.air ∧ m.inForce = s.inForce := by
    rw [mhw]
    exact ⟨rfl, rfl⟩
  have current : s.hw.curChanctx = chIdx → m.Served v := fun current =>
    entered.served current at_ change.cur maps.1
  have station' : (m.hw.vif v).iftype.isStation = true := by
    rw [change.self]
    exact isStation
  have mem : ∀ j, m.hw.Member v j ↔ i = j ∨ (s.hw.vif v).tdlsSta = some j := fun j => by
    rw [member_station station', change.self]
    exact or_congr some_inj Iff.rfl
  have linkTxq : ∀ x : GateHw V S, (x.chanctxLink v chIdx).txq = x.txq := fun x => by
    obtain ⟨_, eq⟩ := chanctxLink_fields x v chIdx
    rw [eq]
    rfl
  have linkSta : ∀ x : GateHw V S, (x.chanctxLink v chIdx).staVif = x.staVif := fun x => by
    obtain ⟨_, eq⟩ := chanctxLink_fields x v chIdx
    rw [eq]
    rfl
  have txq : ∀ q, isSta [i] q = false → m.hw.txq q = s.hw.txq q := fun q miss => by
    rw [mhw]
    refine (newSta_txq q miss).trans ?_
    rw [linkTxq]
    rfl
  have joined : Gated tdls m := by
    refine gated.newSta (i := i) own change rfl up ?_ txq maps.1 maps.2
      (fun w above other isMember => other (fresh w above isMember)) ((mem i).mpr (.inl rfl))
      (fun j tid other isMember used => ?_) (fun j other isMember => ?_) (fun station => ?_) (fun _ => rfl)
      (fun q miss of used => ?_) fun tid => ⟨fun lacks => .inl ?_, fun _ _ _ => ?_⟩
    · rw [mhw]
      exact linkSta _
    · rcases (member_station isStation).mp isMember with ap | isTdls
      · exact absurd (same j ap) other
      · exact (mem j).mpr (.inr isTdls)
    · exact (member_station isStation).mpr (.inr (((mem j).mp isMember).resolve_left other.symm))
    · rw [isStation] at station
      cases station
    · -- only the queue for unknown stations is in use, and it is made again
      cases q with
      | sta j tid =>
        have other : j ≠ i := ne_of_isSta_singleton miss
        obtain ⟨w, above, isMember⟩ := gated.table.owned j tid used
        have staVif : m.hw.staVif j = s.hw.staVif j := by
          rw [mhw]
          exact (congrFun (linkSta _) j).trans (update_of_ne other ..)
        obtain rfl : w = v := some.inj ((gated.table.unique w above j isMember).symm.trans (staVif.symm.trans of))
        rcases (member_station isStation).mp isMember with ap | isTdls
        · exact absurd (same j ap) other
        · rw [idle j isTdls tid] at used
          cases used
      | bcmc u =>
        obtain rfl : u = v := of
        have isAp := (gated.table.bcmc u used).2
        rw [station_not_ap isStation] at isAp
        cases isAp
      | unk u =>
        obtain rfl : u = v := of
        rcases (gated.table.unk u used).2 with isAp | ⟨-, isTdls, -⟩
        · rw [station_not_ap isStation] at isAp
          cases isAp
        · exact ⟨fun _ => .inl (current (on isTdls)), fun _ _ clash => nomatch clash⟩
      | offchan => cases of
    · have status : (m.hw.txq (.sta i tid)).status = (s.hw.txqStatus chIdx).erase .coexInactive := by
        rw [mhw]
        exact newSta_status tid
      refine current ?_
      by_contra other
      refine lacks ?_
      rw [status]
      unfold txqStatus
      rw [if_neg other]
      decide
    · rw [maps.2, free]
      exact Finset.empty_subset _
  cases isTdls : tdls with
  | false =>
    have eq : t = m := by
      obtain ⟨thw, tair, inForce⟩ := t
      subst isTdls
      rw [mhw]
      exact congr (congr (congrArg GateState.mk hw) air) force
    subst isTdls
    rw [eq]
    exact joined
  | true =>
    have served : m.Served v := current (on isTdls)
    have master' : m.hw.masterVif v = v := change.master notVlan
    have eq : t.hw = m.hw.mapTxq (fun q => decide (q = .unk v)) fun _ => Txq.init ∅ := by
      have unk : m.hw.txqUnkVifInit v = m.hw.mapTxq (fun q => decide (q = .unk v)) fun _ => Txq.init ∅ := by
        unfold GateHw.txqUnkVifInit
        rw [master']
      rw [← unk, hw, mhw, isTdls]
      rfl
    have quiet : VifChange m.hw t.hw v (m.hw.vif v) := by
      rw [eq]
      exact (VifChange.init m.hw v).mapTxq _ _
    have staVif : t.hw.staVif = m.hw.staVif := by rw [eq]; rfl
    have txq : ∀ q, q ≠ .unk v → t.hw.txq q = m.hw.txq q := fun q other => by
      rw [eq, mapTxq_txq]
      exact if_neg (by simp [other])
    have member : ∀ w j, t.hw.Member w j ↔ m.hw.Member w j := fun w j => by
      rw [eq]
      exact Iff.rfl
    have mkeep : t.air = m.air ∧ t.inForce = m.inForce := ⟨air.trans maps.1.symm, force.trans maps.2.symm⟩
    have serves : t.Served v := served_congr (by rw [quiet.self]) quiet.cur mkeep.1 served
    subst isTdls
    have table : t.hw.Table true := by
      refine joined.table.atVif (change.vifs ▸ here) quiet.vifs quiet.same (by rw [quiet.self]) ?_ ?_
        (fun j tid used => ?_)
        (fun j isMember => ?_) (fun w above _ j isMember => ?_) (fun w other => ⟨fun used => ?_, fun used => ?_⟩)
        (fun used => ?_) (fun _ => .inr ⟨station', rfl, ?_⟩) fun station => ?_
      · rw [change.self]
        exact notVlan
      · rw [quiet.self, change.self]
        exact up
      · rw [txq _ (by simp)] at used
        by_cases isMember : m.hw.Member v j
        · exact .inl ((member v j).mpr isMember)
        · exact .inr ⟨used, isMember⟩
      · rw [staVif]
        exact joined.table.unique v (change.vifs ▸ here) j ((member v j).mp isMember)
      · rw [staVif]
        exact joined.table.unique w above j isMember
      · rwa [txq _ (by simp)] at used
      · rwa [txq _ (by simp [other])] at used
      · rw [txq _ (by simp)] at used
        exact (joined.table.bcmc v used).2
      · rw [quiet.self, change.self]
        rfl
      · rw [station'] at station
        cases station
    refine joined.atVif table quiet.same (fun q w other of used => ⟨of_congr staVif of, txq q ?_⟩) quiet.cur mkeep.1
      (fun w _ => congrFun mkeep.2 w) (mkeep.2 ▸ joined.kinds v) fun q of used => ?_
    · rintro rfl
      exact other (Eq.symm of)
    · refine ⟨fun _ => .inl serves, fun _ _ _ => ?_⟩
      rw [force, free]
      exact Finset.empty_subset _

/-- **A channel switch ends.** -/
theorem Gated.csaFinish (gated : Gated tdls s) (own : s.hw.own v = true)
    (entered : Entered s chIdx) (reached : s.hw.curChanctx ≠ chIdx → s.hw.TdlsReached v)
    (hw : t.hw = s.hw.csaFinish v true chIdx) (air : t.air = s.air) (force : t.inForce = s.inForce) :
    Gated tdls t := by
  obtain ⟨here, up, notVlan, -⟩ := own_master own
  obtain ⟨m, mhw⟩ : ∃ m : GateHw V S, m = (s.hw.chanctxUnlink v).chanctxLink v chIdx := ⟨_, rfl⟩
  obtain ⟨chIndex, linked⟩ := chanctxLink_fields (s.hw.chanctxUnlink v) v chIdx
  have change : VifChange s.hw m v { s.hw.vif v with chIndex := chIndex } := by
    rw [mhw, linked]
    exact ((VifChange.init s.hw v).modVif fun x => { x with chIndex := amlChNotSet }).modVif
      fun x => { x with chIndex := chIndex }
  have at_ : chIdx < nxChanCtxtCnt → (m.vif v).chIndex = chIdx := fun inside => by
    rw [mhw, chanctxLink_chIndex inside, modVif_self]
  have mtxq : m.txq = s.hw.txq := by
    rw [mhw, linked]
    rfl
  have mstaVif : m.staVif = s.hw.staVif := by
    rw [mhw, linked]
    rfl
  have shape : ∀ w, m.shape w = s.hw.shape w := fun w => by
    rw [shape, shape]
    by_cases same : w = v
    · rw [same, change.self]
    · rw [change.same w same]
  have mtable : m.Table tdls := by
    refine gated.table.congr change.vifs mstaVif shape (fun w vlan => ?_) fun q _ used => by rwa [mtxq] at used
    rw [change.same w fun same => notVlan (same ▸ vlan)]
  have mown : v ∈ m.vifs ∧ m.masterVif v = v := ⟨change.vifs ▸ here, change.master notVlan⟩
  unfold GateHw.csaFinish at hw
  rw [if_pos rfl, ← mhw] at hw
  dsimp only at hw
  by_cases current : m.curChanctx = chIdx
  · rw [if_pos current, GateHw.txqVifStart_txq] at hw
    have vif : t.hw.vif = m.vif := by rw [hw, mapTxq_vif]
    have cur : t.hw.curChanctx = s.hw.curChanctx := by
      rw [hw, mapTxq_curChanctx]
      exact change.cur
    have serves : t.Served v := entered.served (change.cur.symm.trans current) (fun inside => vif ▸ at_ inside) cur air
    have staVif : t.hw.staVif = s.hw.staVif := by rw [hw, GateHw.mapTxq_staVif, mstaVif]
    have active : ∀ q, (t.hw.txq q).active = (s.hw.txq q).active := fun q => by
      rw [hw, GateHw.mapTxq_start_active, mtxq]
    have table : t.hw.Table tdls := by
      refine mtable.congr (by rw [hw]; rfl) (by rw [hw]; rfl) (fun w => by rw [hw]; rfl) (fun w _ => by rw [vif])
        fun q _ used => by rwa [active, ← mtxq] at used
    refine gated.atVif table (fun w other => vif ▸ change.same w other)
      (fun q w other of used => ⟨of_congr staVif of, ?_⟩)
      cur air (fun w _ => congrFun force w) (force ▸ gated.kinds v) fun q of used =>
        ⟨fun _ => .inl serves, fun i tid sta r inForce => ?_⟩
    · have miss : m.started v q = false := by
        by_contra hits
        have reach := mtable.of_started mown.1 (Bool.eq_true_of_not_eq_false hits)
        rw [mown.2] at reach
        have of : m.Of q w := of_congr (by rw [staVif, mstaVif]) of
        exact other (of.unique reach)
      rw [hw, mapTxq_txq, if_neg (eq_false_iff.mp miss), mtxq]
    · have of : s.hw.Of q v := of_congr staVif of
      rw [active] at used
      rw [force] at inForce
      have has := (gated.ok q v of used).force i tid sta inForce
      have used : (m.txq q).active = true := by rw [mtxq]; exact used
      rw [hw, m.mapTxq_start_status _ _ used, mtxq]
      split
      · exact Finset.mem_sdiff.mpr ⟨has, fun isChan => gated.ne_chan inForce (Finset.mem_singleton.mp isChan)⟩
      · exact has
  · rw [if_neg current, GateHw.txqVifStop_txq] at hw
    have vif : t.hw.vif = m.vif := by rw [hw, mapTxq_vif]
    have cur : t.hw.curChanctx = s.hw.curChanctx := by
      rw [hw, mapTxq_curChanctx]
      exact change.cur
    have staVif : t.hw.staVif = s.hw.staVif := by rw [hw, GateHw.mapTxq_staVif, mstaVif]
    have active : ∀ q, (t.hw.txq q).active = (s.hw.txq q).active := fun q => by
      rw [hw, GateHw.mapTxq_stop_active, mtxq]
    have table : t.hw.Table tdls := by
      refine mtable.congr (by rw [hw]; rfl) (by rw [hw]; rfl) (fun w => by rw [hw]; rfl) (fun w _ => by rw [vif])
        fun q _ used => by rwa [active, ← mtxq] at used
    have reached' : m.TdlsReached v := fun i isTdls => by
      rw [change.self] at isTdls ⊢
      refine (reached (fun same => current (change.cur.trans same)) i isTdls).imp_right fun idle tid => ?_
      rw [mtxq]
      exact idle tid
    refine gated.atVif table (fun w other => vif ▸ change.same w other)
      (fun q w other of used => ⟨of_congr staVif of, ?_⟩)
      cur air (fun w _ => congrFun force w) (force ▸ gated.kinds v) fun q of used => ?_
    · have miss : m.stopped v q = false := by
        by_contra hits
        have reach := mtable.of_stopped mown.1 (Bool.eq_true_of_not_eq_false hits)
        rw [mown.2] at reach
        have of : m.Of q w := of_congr (by rw [staVif, mstaVif]) of
        exact other (of.unique reach)
      rw [hw, mapTxq_txq, if_neg (eq_false_iff.mp miss), mtxq]
    · have of' : s.hw.Of q v := of_congr staVif of
      rw [active] at used
      have old := gated.ok q v of' used
      have used : (m.txq q).active = true := by rw [mtxq]; exact used
      have hits : m.stopped v q = true := mtable.reaches reached' (of_congr (by rw [staVif, mstaVif]) of) used
      have status : (t.hw.txq q).status = (s.hw.txq q).status ∪ {.chan} := by
        rw [hw, m.mapTxq_stop_status _ _ used, if_pos hits, mtxq]
      refine ⟨fun lacks => ?_, fun i tid sta => ?_⟩
      · rw [status] at lacks
        exact absurd (Finset.mem_union_right _ (Finset.mem_singleton_self _)) lacks
      · rw [status, force]
        exact (old.force i tid sta).trans Finset.subset_union_left

end W2l.Gate
