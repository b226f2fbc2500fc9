/-
**Stations: the table, the lists, the queues and the VLANs agree through every request.**

* `StaFacts` — **what holds between requests**: a station's entry is valid iff it is in a list, and in one; its
  queues are active iff it is; a 4-address VLAN has a station of its own; every entry used was granted.
* `Request` — what a request does: one that fails changes nothing, one to remove all stations does.
* `Guard` — **when a step keeps that**.
-/

import W2lDriver.Sta.Invariant

set_option linter.unusedSectionVars false

namespace W2l.Sta

open Conn (nxVirtDevMax)
open Key (nxRemoteStaMax)
open Lib (System)
open Function (update update_of_ne update_self)
open Option (ite_none_right_eq_some some.inj)

variable {M : Type} [DecidableEq M]

/-- **What holds between requests.** -/
structure StaFacts (s : StaHw M) : Prop where
  listed : ∀ v ∈ s.vifs, ∀ i ∈ (s.vif v).staList, (s.sta i).valid = true
  one : ∀ i, (s.sta i).valid = true → (s.sta i).kind = .station → ∃ v ∈ s.vifs, i ∈ (s.vif v).staList ∧
    ∀ w ∈ s.vifs, i ∈ (s.vif w).staList → w = v
  once : ∀ v ∈ s.vifs, (s.vif v).staList.Nodup
  queues : ∀ i, (s.sta i).active = (s.sta i).valid
  adding : s.adding = false
  sta4a : ∀ v ∈ s.vifs, (s.vif v).is4a = true → ∀ i, (s.vif v).sta4a = some i →
    (s.sta i).valid = true ∧ (s.sta i).vlanIdx = v
  granted : s.stray = false

/-- **What a request does**, from `s` to `t`. -/
structure Request (s : StaHw M) (a : StaAct M) (t : StaHw M) : Prop where
  failed : t.ret ≠ 0 → t.sta = s.sta ∧ t.vif = s.vif
  all : ∀ v call, a = .delStation v none call → t.ret = 0 → (t.vif v).staList = []

/-- A 4-address VLAN is left by a station that a reset removes, or was entered by one. -/
def StaHw.VlanFreed (s : StaHw M) (v : ℕ) : Prop :=
  ∀ i ∈ (s.vif v).sta4a, (s.sta i).kind = .station ∨ ∃ w ∈ s.vifs, ∃ j ∈ (s.vif w).staList, (s.sta j).vlanIdx = v

/-- **When a step keeps that**: the command of an addition is sent, and a TDLS station that is refused is not used;
the command of a removal is sent, and where no address is given there is one station; a recovery finds stations
on APs only, and no TDLS stations. -/
def Guard (s : StaHw M) : StaAct M → Prop
  | .addStation _ _ tdlsPeer sent _ => tdlsPeer = true ∨ sent = 0
  | .changeStation v mac p sent cfm =>
    s.getSta mac = none → p.tdlsPeer = true → sent = 0 ∧ (cfm = none → ¬s.Uses v p)
  | .delStation v mac call =>
    call.busy = false → s.found v mac ≠ none → StaHw.Taken call.sent ∧ (mac = none → (s.vif v).staList.length = 1)
  | .recyVifReset _ =>
    (∀ v ∈ s.vifs, (s.vif v).iftype = .ap ∨ (s.vif v).staList = []) ∧
      (∀ i < nxRemoteStaMax, (s.sta i).kind = .tdls → (s.sta i).valid = false) ∧
      ∀ v ∈ s.vifs, (s.vif v).is4a = true → s.VlanFreed v
  | _ => True

instance (s : StaHw M) (v : ℕ) : Decidable (s.VlanFreed v) :=
  match e : (s.vif v).sta4a with
  | none => .isTrue fun i mem => by
      rw [e] at mem
      cases mem
  | some i => decidable_of_iff ((s.sta i).kind = .station ∨
      ∃ w ∈ s.vifs, ∃ j ∈ (s.vif w).staList, (s.sta j).vlanIdx = v)
      ⟨fun freed j mem => by
          rw [e] at mem
          rw [← Option.some.inj mem]
          exact freed,
        fun all => all i e⟩

instance (s : StaHw M) : ∀ a, Decidable (Guard s a)
  | .addStation _ _ tdlsPeer sent _ => inferInstanceAs (Decidable (tdlsPeer = true ∨ sent = 0))
  | .changeStation v mac p sent cfm =>
    inferInstanceAs (Decidable (s.getSta mac = none → p.tdlsPeer = true → sent = 0 ∧ (cfm = none → ¬s.Uses v p)))
  | .delStation v mac call =>
    inferInstanceAs (Decidable (call.busy = false → s.found v mac ≠ none →
      StaHw.Taken call.sent ∧ (mac = none → (s.vif v).staList.length = 1)))
  | .stopAp .. => .isTrue trivial
  | .recyVifReset _ =>
    inferInstanceAs (Decidable ((∀ v ∈ s.vifs, (s.vif v).iftype = .ap ∨ (s.vif v).staList = []) ∧
      (∀ i < nxRemoteStaMax, (s.sta i).kind = .tdls → (s.sta i).valid = false) ∧
      ∀ v ∈ s.vifs, (s.vif v).is4a = true → s.VlanFreed v))
  | .connected .. => .isTrue trivial

theorem StaInv.facts {s : StaHw M} (inv : StaInv s) : StaFacts s := by
  refine ⟨fun v _ => inv.listed v, fun i valid station => ?_, fun v _ => inv.core.once v, fun i => ?_,
    inv.core.adding, fun v _ _ i there => (inv.core.sta4a v i there).2.2, inv.core.stray⟩
  · obtain ⟨v, mem⟩ := inv.core.station i valid station
    refine ⟨v, (inv.core.host v (List.ne_nil_of_mem mem)).1, mem, fun w _ mem' => ?_⟩
    exact (inv.core.listed w i mem').2.2.symm.trans (inv.core.listed v i mem).2.2
  · by_cases valid : (s.sta i).valid = true
    · rw [valid, inv.active i valid]
    · have off : ¬(s.sta i).active = true := fun on => valid (inv.core.active i on)
      rw [Bool.eq_false_iff.mpr valid, Bool.eq_false_iff.mpr off]

/-! ### A recovery -/

section Reset

variable {s t u : StaHw M} {v i : ℕ} {rest : ℕ → Prop} {calls : ℕ → List DelCall}

/-- What resetting interfaces leaves as it was. -/
structure Swept (s t : StaHw M) : Prop where
  vifs : t.vifs = s.vifs
  config : ∀ w, (t.vif w).iftype = (s.vif w).iftype ∧ (t.vif w).use4addr = (s.vif w).use4addr
  other : ∀ w, (s.vif w).iftype ≠ .ap → (t.vif w).staList = (s.vif w).staList
  list : ∀ w, ∀ j ∈ (t.vif w).staList, j ∈ (s.vif w).staList
  same : ∀ j, (t.sta j).kind = (s.sta j).kind ∧ (t.sta j).vlanIdx = (s.sta j).vlanIdx
  less : ∀ j, (t.sta j).valid = true → (s.sta j).valid = true
  tdls : ∀ j, (s.sta j).kind = .tdls → t.sta j = s.sta j
  sta4a : ∀ w, (t.vif w).sta4a = (s.vif w).sta4a ∨
    ((t.vif w).sta4a = none ∧ ∃ x, ∃ j ∈ (s.vif x).staList, (s.sta j).vlanIdx = w)
  gone : ∀ x, ∀ j ∈ (s.vif x).staList, j ∉ (t.vif x).staList → (s.vif (s.sta j).vlanIdx).is4a = true →
    (s.sta j).vlanIdx ∈ s.vifs → (t.vif (s.sta j).vlanIdx).sta4a = none

theorem Swept.refl (s : StaHw M) : Swept s s :=
  ⟨rfl, fun _ => ⟨rfl, rfl⟩, fun _ _ => rfl, fun _ _ mem => mem, fun _ => ⟨rfl, rfl⟩, fun _ valid => valid,
    fun _ _ => rfl, fun _ => .inl rfl, fun _ _ mem out => absurd mem out⟩

theorem Swept.trans (first : Swept s t) (second : Swept t u) : Swept s u := by
  refine ⟨second.vifs.trans first.vifs, fun w => ?_, fun w notAp => ?_,
    fun w j mem => first.list w j (second.list w j mem), fun j => ?_, fun j valid => first.less j (second.less j valid),
    fun j isTdls => ?_, fun w => ?_, fun x j mem out is4a listed => ?_⟩
  · rw [(second.config w).1, (second.config w).2]
    exact first.config w
  · refine (second.other w ?_).trans (first.other w notAp)
    rw [(first.config w).1]
    exact notAp
  · exact ⟨(second.same j).1.trans (first.same j).1, (second.same j).2.trans (first.same j).2⟩
  · exact (second.tdls j ((first.same j).1.trans isTdls)).trans (first.tdls j isTdls)
  · rcases second.sta4a w with same | ⟨none', x, j, mem, vlan⟩
    · rw [same]
      exact first.sta4a w
    · exact .inr ⟨none', x, j, first.list x j mem, (first.same j).2.symm.trans vlan⟩
  · by_cases stays : j ∈ (t.vif x).staList
    · have is4a' : (t.vif (t.sta j).vlanIdx).is4a = true := by
        unfold AmlVif.is4a
        rw [(first.same j).2, (first.config _).1, (first.config _).2]
        exact is4a
      have free := second.gone x j stays out is4a' (by rw [(first.same j).2, first.vifs]; exact listed)
      rw [(first.same j).2] at free
      exact free
    · have free := first.gone x j mem stays is4a listed
      rcases second.sta4a (s.sta j).vlanIdx with same | ⟨none', -⟩
      · rw [same]
        exact free
      · exact none'

theorem Core.delAll_swept (core : Core rest s) (isAp : (s.vif v).iftype = .ap) (calls : List DelCall) :
    Swept s (StaHw.delAll v calls s) := by
  obtain ⟨-, only⟩ := core.delAll v calls
  refine ⟨only.vifs, fun w => ⟨(only.config w).1, (only.config w).2.1⟩, fun w notAp => only.other w ?_,
    fun w j mem => ?_, only.same, fun j valid => ?_, fun j isTdls => only.sta j fun mem => ?_, fun w => ?_,
    fun x j mem out is4a listed => ?_⟩
  · rintro rfl
    exact notAp isAp
  · by_cases here : w = v
    · rw [here] at mem ⊢
      exact only.list j mem
    · rw [only.other w here] at mem
      exact mem
  · have same := only.less j valid
    rw [same] at valid
    exact valid
  · rw [(core.listed v j mem).2.1] at isTdls
    cases isTdls
  · exact (only.sta4a w).imp_right fun ⟨none', rest⟩ => ⟨none', v, rest⟩
  · have here : x = v := by
      by_contra ne
      rw [only.other x ne] at out
      exact out mem
    subst here
    exact core.delAll_vlan calls mem out listed is4a rfl

theorem Core.downed (core : Core rest s) (mem : v ∈ s.vifs) (low : v < nxVirtDevMax) {carrier : Bool}
    (vifs : t.vifs = s.vifs) (granted : t.granted = s.granted) (adding : t.adding = s.adding)
    (stray : t.stray = s.stray)
    (vif : t.vif = update s.vif v { s.vif v with up := false, carrier := carrier })
    (off : (s.vif v).iftype.isStation = true → carrier = false)
    (same : ∀ j, (t.sta j).valid = (s.sta j).valid ∧ (t.sta j).kind = (s.sta j).kind ∧
      (t.sta j).vifIdx = (s.sta j).vifIdx ∧ (t.sta j).vlanIdx = (s.sta j).vlanIdx)
    (less : ∀ j, (t.sta j).active = true → (s.sta j).active = true)
    (deinit : (s.vif v).iftype.isStation = true → (s.vif v).carrier = true →
      ∀ j, (s.vif v).ap = some j → (t.sta j).active = false) : Core (fun w => rest w ∧ w ≠ v) t := by
  have kept : ∀ w, (t.vif w).iftype = (s.vif w).iftype ∧ (t.vif w).is4a = (s.vif w).is4a ∧
      (t.vif w).staList = (s.vif w).staList ∧ (t.vif w).sta4a = (s.vif w).sta4a ∧ (t.vif w).ap = (s.vif w).ap := by
    intro w
    rw [vif]
    by_cases here : w = v
    · rw [here, update_self]
      exact ⟨rfl, rfl, rfl, rfl, rfl⟩
    · rw [update_of_ne here]
      exact ⟨rfl, rfl, rfl, rfl, rfl⟩
  have others : ∀ w, w ≠ v → t.vif w = s.vif w := fun w ne => by rw [vif, update_of_ne ne]
  refine ⟨fun j active => ?_, fun j valid => ?_, fun j valid isStation => ?_, fun j active isAp => ?_,
    fun w j inside => ?_, fun w some' => ?_, fun w => ?_, fun w j there => ?_, fun w listed => ?_, fun w listed => ?_,
    fun w isStation on => ?_, adding.trans core.adding, stray.trans core.stray⟩
  · rw [(same j).1]
    exact core.active j (less j active)
  · rw [(same j).1] at valid
    rw [granted]
    exact core.bound j valid
  · rw [(same j).1] at valid
    rw [(same j).2.1] at isStation
    obtain ⟨w, inside⟩ := core.station j valid isStation
    exact ⟨w, by rw [(kept w).2.2.1]; exact inside⟩
  · rw [(same j).2.1] at isAp
    obtain ⟨w, listed, inRest, isStation, on, ap⟩ := core.ap j (less j active) isAp
    have ne : w ≠ v := by
      rintro rfl
      rw [deinit isStation on j ap] at active
      cases active
    refine ⟨w, by rw [vifs]; exact listed, ⟨inRest, ne⟩, ?_⟩
    rw [others w ne]
    exact ⟨isStation, on, ap⟩
  · rw [(kept w).2.2.1] at inside
    rw [granted, (same j).2.1, (same j).2.2.1]
    exact core.listed w j inside
  · rw [(kept w).2.2.1] at some'
    rw [vifs, (kept w).1]
    exact core.host w some'
  · rw [(kept w).2.2.1]
    exact core.once w
  · rw [(kept w).2.2.2.1] at there
    rw [(kept w).2.1, vifs, (same j).1, (same j).2.2.2]
    exact core.sta4a w j there
  · rw [vifs] at listed
    rw [(kept w).1]
    exact core.vlans w listed
  · intro isVlan
    rw [vifs] at listed
    rw [(kept w).1] at isVlan
    have ne : w ≠ v := by
      rintro rfl
      exact absurd ((core.vlans w listed).mp isVlan) (Nat.not_le.mpr low)
    rw [others w ne]
    exact core.up w listed isVlan
  · rw [(kept w).1] at isStation
    have ne : w ≠ v := by
      rintro rfl
      rw [vif, update_self] at on
      rw [off isStation] at on
      cases on
    rw [others w ne] at on
    obtain ⟨listed, inRest, j, ap, valid, isAp⟩ := core.joined w isStation on
    refine ⟨by rw [vifs]; exact listed, ⟨inRest, ne⟩, j, ?_⟩
    rw [(kept w).2.2.2.2, (same j).1, (same j).2.1]
    exact ⟨ap, valid, isAp⟩

theorem swept_downed {carrier : Bool} (vifs : t.vifs = s.vifs)
    (vif : t.vif = update s.vif v { s.vif v with up := false, carrier := carrier })
    (same : ∀ j, (t.sta j).valid = (s.sta j).valid ∧ (t.sta j).kind = (s.sta j).kind ∧
      (t.sta j).vifIdx = (s.sta j).vifIdx ∧ (t.sta j).vlanIdx = (s.sta j).vlanIdx)
    (tdls : ∀ j, (s.sta j).kind = .tdls → t.sta j = s.sta j) : Swept s t := by
  have kept : ∀ w, (t.vif w).iftype = (s.vif w).iftype ∧ (t.vif w).use4addr = (s.vif w).use4addr ∧
      (t.vif w).staList = (s.vif w).staList ∧ (t.vif w).sta4a = (s.vif w).sta4a := by
    intro w
    rw [vif]
    by_cases here : w = v
    · rw [here, update_self]
      exact ⟨rfl, rfl, rfl, rfl⟩
    · rw [update_of_ne here]
      exact ⟨rfl, rfl, rfl, rfl⟩
  refine ⟨vifs, fun w => ⟨(kept w).1, (kept w).2.1⟩, fun w _ => (kept w).2.2.1, fun w j mem => ?_,
    fun j => ⟨(same j).2.1, (same j).2.2.2⟩, fun j valid => ?_, tdls, fun w => .inl (kept w).2.2.2,
    fun x j mem out => ?_⟩
  · rw [(kept w).2.2.1] at mem
    exact mem
  · rw [(same j).1] at valid
    exact valid
  · rw [(kept x).2.2.1] at out
    exact absurd mem out

theorem Core.resetVif (core : Core rest s) (mem : v ∈ s.vifs) (low : v < nxVirtDevMax) (calls : List DelCall) :
    Core (fun w => rest w ∧ w ≠ v) (s.resetVif v calls) ∧ Swept s (s.resetVif v calls) := by
  have start : Core rest (if (s.vif v).iftype = .ap then StaHw.delAll v calls s else s) ∧
      Swept s (if (s.vif v).iftype = .ap then StaHw.delAll v calls s else s) := by
    by_cases isAp : (s.vif v).iftype = .ap
    · rw [if_pos isAp]
      exact ⟨(core.delAll v calls).1, core.delAll_swept isAp calls⟩
    · rw [if_neg isAp]
      exact ⟨core, Swept.refl s⟩
  unfold StaHw.resetVif
  dsimp only
  generalize (if (s.vif v).iftype = .ap then StaHw.delAll v calls s else s) = q at start
  obtain ⟨core', swept⟩ := start
  have mem' : v ∈ q.vifs := by
    rw [swept.vifs]
    exact mem
  have refl : ∀ j, (q.sta j).valid = (q.sta j).valid ∧ (q.sta j).kind = (q.sta j).kind ∧
      (q.sta j).vifIdx = (q.sta j).vifIdx ∧ (q.sta j).vlanIdx = (q.sta j).vlanIdx := fun _ => ⟨rfl, rfl, rfl, rfl⟩
  -- the entries stay, unless a station interface has the carrier on
  have plain : ∀ {carrier : Bool}, ((q.vif v).iftype.isStation = true → carrier = false ∧ (q.vif v).carrier = false) →
      Core (fun w => rest w ∧ w ≠ v) (q.setVif v { q.vif v with up := false, carrier := carrier }) ∧
        Swept s (q.setVif v { q.vif v with up := false, carrier := carrier }) := by
    intro carrier off
    refine ⟨core'.downed mem' low rfl rfl rfl rfl rfl (fun isStation => (off isStation).1) refl
      (fun _ active => active) fun isStation on => ?_, swept.trans (swept_downed rfl rfl refl fun _ _ => rfl)⟩
    rw [(off isStation).2] at on
    cases on
  by_cases carrier : (q.vif v).carrier = true
  · rw [if_pos carrier]
    by_cases isStation : (q.vif v).iftype.isStation = true
    · rw [if_pos isStation]
      obtain ⟨-, -, k, ap, -, isAp⟩ := core'.joined v isStation carrier
      have deinit : q.deinitAp v = q.setSta k { q.sta k with active := false } := by
        unfold StaHw.deinitAp
        rw [ap]
      rw [deinit]
      have same : ∀ j, (update q.sta k { q.sta k with active := false } j).valid = (q.sta j).valid ∧
          (update q.sta k { q.sta k with active := false } j).kind = (q.sta j).kind ∧
          (update q.sta k { q.sta k with active := false } j).vifIdx = (q.sta j).vifIdx ∧
          (update q.sta k { q.sta k with active := false } j).vlanIdx = (q.sta j).vlanIdx := by
        intro j
        by_cases here : j = k
        · rw [here, update_self]
          exact ⟨rfl, rfl, rfl, rfl⟩
        · rw [update_of_ne here]
          exact ⟨rfl, rfl, rfl, rfl⟩
      refine ⟨core'.downed mem' low rfl rfl rfl rfl rfl (fun _ => rfl) same (fun j active => ?_) fun _ _ j there => ?_,
        swept.trans (swept_downed rfl rfl same fun j isTdls => ?_)⟩
      · have active : (update q.sta k { q.sta k with active := false } j).active = true := active
        by_cases here : j = k
        · rw [here, update_self] at active
          cases active
        · rw [update_of_ne here] at active
          exact active
      · obtain rfl := some.inj (there.symm.trans ap)
        show (update q.sta j { q.sta j with active := false } j).active = false
        rw [update_self]
      · refine update_of_ne ?_ _ _
        rintro rfl
        rw [isAp] at isTdls
        cases isTdls
    · rw [if_neg isStation]
      split
      · exact plain fun wrong => absurd wrong isStation
      · exact plain fun wrong => absurd wrong isStation
  · rw [if_neg carrier]
    have off := Bool.eq_false_iff.mpr carrier
    exact plain fun _ => ⟨off, off⟩

theorem Core.resets (core : Core rest s) (vs : List ℕ) (all : ∀ v ∈ vs, v ∈ s.vifs ∧ v < nxVirtDevMax)
    (calls : ℕ → List DelCall) :
    Core (fun w => rest w ∧ w ∉ vs) (vs.foldl (fun s v => s.resetVif v (calls v)) s) ∧
      Swept s (vs.foldl (fun s v => s.resetVif v (calls v)) s) := by
  induction vs generalizing s rest with
  | nil => exact ⟨⟨core.active, core.bound, core.station, fun i active isAp => by
      obtain ⟨v, listed, inRest, more⟩ := core.ap i active isAp
      exact ⟨v, listed, ⟨inRest, List.not_mem_nil⟩, more⟩, core.listed, core.host, core.once, core.sta4a, core.vlans,
        core.up, fun v isStation on => by
      obtain ⟨listed, inRest, more⟩ := core.joined v isStation on
      exact ⟨listed, ⟨inRest, List.not_mem_nil⟩, more⟩, core.adding, core.stray⟩, Swept.refl s⟩
  | cons v later ih =>
    obtain ⟨mem, low⟩ := all v List.mem_cons_self
    obtain ⟨one, swept⟩ := core.resetVif mem low (calls v)
    obtain ⟨core', swept'⟩ := ih one fun w inside => by
      rw [swept.vifs]
      exact all w (List.mem_cons_of_mem v inside)
    refine ⟨⟨core'.active, core'.bound, core'.station, fun i active isAp => ?_, core'.listed, core'.host, core'.once,
      core'.sta4a, core'.vlans, core'.up, fun w isStation on => ?_, core'.adding, core'.stray⟩, swept.trans swept'⟩
    · obtain ⟨w, listed, ⟨⟨inRest, ne⟩, out⟩, more⟩ := core'.ap i active isAp
      exact ⟨w, listed, ⟨inRest, fun mem => (List.mem_cons.mp mem).elim ne out⟩, more⟩
    · obtain ⟨listed, ⟨⟨inRest, ne⟩, out⟩, more⟩ := core'.joined w isStation on
      exact ⟨listed, ⟨inRest, fun mem => (List.mem_cons.mp mem).elim ne out⟩, more⟩

theorem mem_resets : v ∈ s.resets ↔ v < nxVirtDevMax ∧ v ∈ s.vifs := by
  unfold StaHw.resets
  rw [List.mem_filter, List.mem_range, decide_eq_true_eq]

theorem Core.low (core : Core rest s) (mem : v ∈ s.vifs) (notVlan : (s.vif v).iftype ≠ .apVlan) : v ∈ s.resets :=
  mem_resets.mpr ⟨Nat.lt_of_not_le fun high => notVlan ((core.vlans v mem).mpr high), mem⟩

theorem ne_vlan_of_station (isStation : (s.vif v).iftype.isStation = true) : (s.vif v).iftype ≠ .apVlan := by
  intro isVlan
  rw [isVlan] at isStation
  cases isStation

/-- The loop of `aml_recy_vif_reset`. -/
def StaHw.resetLoop (s : StaHw M) (calls : ℕ → List DelCall) : StaHw M :=
  s.resets.foldl (fun s v => s.resetVif v (calls v)) s

theorem StaInv.resetLoop (inv : StaInv s) (calls : ℕ → List DelCall) :
    Core (fun w => True ∧ w ∉ s.resets) (s.resetLoop calls) ∧ Swept s (s.resetLoop calls) :=
  inv.core.resets s.resets (fun _ mem => (mem_resets.mp mem).symm) calls

theorem reset_invalid (core : Core rest (s.resetLoop calls)) (j : ℕ) :
    ((s.recyVifReset calls).sta j).valid = false := by
  show (if j < nxRemoteStaMax then { (s.resetLoop calls).sta j with valid := false }
    else (s.resetLoop calls).sta j).valid = false
  by_cases small : j < nxRemoteStaMax
  · rw [if_pos small]
  · rw [if_neg small]
    exact Bool.eq_false_iff.mpr fun valid => small (core.bound j valid).1

theorem reset_active (j : ℕ) : ((s.recyVifReset calls).sta j).active = ((s.resetLoop calls).sta j).active := by
  show (if j < nxRemoteStaMax then { (s.resetLoop calls).sta j with valid := false }
    else (s.resetLoop calls).sta j).active = _
  split <;> rfl

/-- **`aml_recy_vif_reset`** leaves no station. -/
theorem StaInv.recyVifReset (inv : StaInv s)
    (emptied : ∀ v ∈ s.resets, (s.vif v).iftype = .ap → ((s.recyVifReset calls).vif v).staList = [])
    (onAps : ∀ v ∈ s.vifs, (s.vif v).iftype = .ap ∨ (s.vif v).staList = [])
    (noTdls : ∀ i < nxRemoteStaMax, (s.sta i).kind = .tdls → (s.sta i).valid = false)
    (freed : ∀ v ∈ s.vifs, (s.vif v).is4a = true → s.VlanFreed v) : StaInv (s.recyVifReset calls) := by
  obtain ⟨core, swept⟩ := inv.resetLoop calls
  have lists : ∀ w, ((s.resetLoop calls).vif w).staList = [] := by
    intro w
    by_contra some'
    obtain ⟨listed, notVlan⟩ := core.host w some'
    rw [swept.vifs] at listed
    rw [(swept.config w).1] at notVlan
    by_cases isAp : (s.vif w).iftype = .ap
    · exact some' (emptied w (inv.core.low listed notVlan) isAp)
    · rw [swept.other w isAp] at some'
      exact some' ((onAps w listed).resolve_left isAp)
  have none' : ∀ j, ((s.resetLoop calls).sta j).valid = true → ((s.resetLoop calls).sta j).kind = .ap := by
    intro j valid
    cases kind : ((s.resetLoop calls).sta j).kind with
    | station =>
      obtain ⟨w, mem⟩ := core.station j valid kind
      rw [lists w] at mem
      exact absurd mem List.not_mem_nil
    | tdls =>
      have old := swept.less j valid
      rw [noTdls j (inv.core.bound j old).1 ((swept.same j).1.symm.trans kind)] at old
      cases old
    | ap => rfl
  have idle : ∀ j, ((s.resetLoop calls).sta j).active = false := by
    intro j
    refine Bool.eq_false_iff.mpr fun active => ?_
    obtain ⟨w, listed, ⟨-, out⟩, isStation, -⟩ := core.ap j active (none' j (core.active j active))
    rw [swept.vifs] at listed
    rw [(swept.config w).1] at isStation
    exact out (inv.core.low listed (ne_vlan_of_station isStation))
  have invalid := reset_invalid core
  have off : ∀ j, ((s.recyVifReset calls).sta j).valid = true → False := by
    intro j valid
    rw [invalid j] at valid
    cases valid
  refine ⟨⟨fun j active => ?_, fun j valid => (off j valid).elim, fun j valid => (off j valid).elim,
    fun j active => ?_, fun w j mem => ?_, fun w some' => absurd (lists w) some', fun w => ?_, fun w j there => ?_,
    core.vlans, core.up, fun w isStation carrier => ?_, core.adding, core.stray⟩, fun w j mem => ?_,
    fun j valid => (off j valid).elim⟩
  · rw [reset_active, idle j] at active
    cases active
  · rw [reset_active, idle j] at active
    cases active
  · have mem : j ∈ ((s.resetLoop calls).vif w).staList := mem
    rw [lists w] at mem
    exact absurd mem List.not_mem_nil
  · show ((s.resetLoop calls).vif w).staList.Nodup
    rw [lists w]
    exact List.nodup_nil
  · have there : ((s.resetLoop calls).vif w).sta4a = some j := there
    obtain ⟨-, listed, valid, vlan⟩ := core.sta4a w j there
    have isAp := none' j valid
    rw [swept.vifs] at listed
    -- the VLAN of an AP's entry was left by a station
    rcases swept.sta4a w with same | ⟨free, -⟩
    · have old : (s.vif w).sta4a = some j := same.symm.trans there
      obtain ⟨is4a, -, -, -⟩ := inv.core.sta4a w j old
      rcases freed w listed is4a j old with isStation | ⟨x, -, k, mem, left⟩
      · rw [(swept.same j).1, isStation] at isAp
        cases isAp
      · have gone : k ∉ ((s.resetLoop calls).vif x).staList := by
          rw [lists x]
          exact List.not_mem_nil
        have free := swept.gone x k mem gone (by rw [left]; exact is4a) (by rw [left]; exact listed)
        rw [left, there] at free
        cases free
    · rw [free] at there
      cases there
  · obtain ⟨listed, ⟨-, out⟩, -⟩ := core.joined w isStation carrier
    rw [swept.vifs] at listed
    have isStation : ((s.resetLoop calls).vif w).iftype.isStation = true := isStation
    rw [(swept.config w).1] at isStation
    exact absurd (inv.core.low listed (ne_vlan_of_station isStation)) out
  · have mem : j ∈ ((s.resetLoop calls).vif w).staList := mem
    rw [lists w] at mem
    exact absurd mem List.not_mem_nil

end Reset

/-! ### Runs -/

section Run

variable {s t : StaHw M} {v : ℕ}

theorem addStation_failed {mac : M} {tdlsPeer : Bool} {sent : Int} {cfm : Option ℕ}
    (failed : (s.addStation v mac tdlsPeer sent cfm).ret ≠ 0) :
    (s.addStation v mac tdlsPeer sent cfm).sta = s.sta ∧ (s.addStation v mac tdlsPeer sent cfm).vif = s.vif := by
  unfold StaHw.addStation at failed ⊢
  by_cases peer : tdlsPeer = true
  · rw [if_pos peer]
    exact ⟨rfl, rfl⟩
  · rw [if_neg peer] at failed ⊢
    by_cases isSent : sent ≠ 0
    · rw [if_pos isSent]
      exact ⟨rfl, rfl⟩
    · rw [if_neg isSent] at failed ⊢
      cases cfm with
      | none => exact ⟨rfl, rfl⟩
      | some i => exact absurd rfl failed

theorem StaInv.init (config : Config) (mac : M) : StaInv (init config mac) :=
  ⟨⟨fun _ wrong => (nomatch wrong), fun _ wrong => (nomatch wrong), fun _ wrong => (nomatch wrong),
    fun _ wrong => (nomatch wrong), fun _ _ wrong => (nomatch wrong), fun _ wrong => absurd rfl wrong,
    fun _ => List.nodup_nil, fun _ _ wrong => (nomatch wrong), config.vlans, fun _ _ _ => rfl,
    fun _ _ wrong => (nomatch wrong), rfl, rfl⟩, fun _ _ wrong => (nomatch wrong), fun _ wrong => (nomatch wrong)⟩

section

variable (inv : StaInv s)

include inv

theorem StaInv.step {a : StaAct M} (guard : Guard s a) (stepped : act s a = some t) : StaInv t ∧ Request s a t := by
  cases a with
  | addStation v mac tdlsPeer sent cfm =>
    obtain ⟨⟨mem, host, grants⟩, same⟩ := ite_none_right_eq_some.mp stepped
    obtain rfl := some.inj same
    exact ⟨inv.addStation mem host grants guard, addStation_failed, fun _ _ wrong => (nomatch wrong)⟩
  | changeStation v mac p sent cfm =>
    obtain ⟨⟨mem, -, grants, vlan⟩, same⟩ := ite_none_right_eq_some.mp stepped
    obtain rfl := some.inj same
    obtain ⟨inv', failed⟩ := inv.changeStation mem grants vlan guard
    exact ⟨inv', failed, fun _ _ wrong => (nomatch wrong)⟩
  | delStation v mac call =>
    obtain ⟨-, same⟩ := ite_none_right_eq_some.mp stepped
    obtain rfl := some.inj same
    obtain ⟨inv', failed, all⟩ := inv.delStation guard
    refine ⟨inv', failed, fun w call' same zero => ?_⟩
    cases same
    exact all rfl zero
  | stopAp v calls =>
    obtain ⟨⟨-, empty⟩, same⟩ := ite_none_right_eq_some.mp stepped
    obtain rfl := some.inj same
    exact ⟨inv.stopAp calls empty, fun failed => absurd rfl failed, fun _ _ wrong => (nomatch wrong)⟩
  | recyVifReset calls =>
    obtain ⟨emptied, same⟩ := ite_none_right_eq_some.mp stepped
    obtain rfl := some.inj same
    obtain ⟨onAps, noTdls, freed⟩ := guard
    exact ⟨inv.recyVifReset emptied onAps noTdls freed, fun failed => absurd rfl failed,
      fun _ _ wrong => (nomatch wrong)⟩
  | connected v i mac =>
    obtain ⟨⟨mem, isStation, carrier, grants⟩, same⟩ := ite_none_right_eq_some.mp stepped
    obtain rfl := some.inj same
    exact ⟨inv.connected mem isStation carrier grants, fun failed => absurd rfl failed,
      fun _ _ wrong => (nomatch wrong)⟩

theorem delStation_guard {mac : Option M} {call : DelCall}
    (request : Request s (.delStation v mac call) (s.delStation v mac call)) :
    Guard s (.delStation v mac call) := by
  intro free some'
  obtain ⟨i, found⟩ := Option.ne_none_iff_exists'.mp some'
  have mem := found_mem found
  have dropped := delStation_found free found
  have ret := (dropSta_rest s v i call.sent).2.2.2.1
  rw [← dropped] at ret
  have taken : StaHw.Taken call.sent := by
    by_contra lost
    rw [if_neg lost] at ret
    have failed : (s.delStation v mac call).ret ≠ 0 := by
      rw [ret]
      exact fun zero => lost (.inl zero)
    have same := (request.failed failed).1
    rw [dropped, dropSta_sta] at same
    have valid := inv.listed v i mem
    rw [← same, update_self] at valid
    cases valid
  refine ⟨taken, fun none' => ?_⟩
  subst none'
  rw [if_pos taken] at ret
  have empty := request.all v call rfl ret
  rw [dropped, dropSta_vif] at empty
  have empty : (if v = v ∧ StaHw.Taken call.sent then (s.vif v).staList.erase i else (s.vif v).staList) = [] := empty
  rw [if_pos ⟨rfl, taken⟩] at empty
  have length := List.length_erase_of_mem mem
  have pos := List.length_pos_of_mem mem
  rw [empty, List.length_nil] at length
  omega

theorem recyVifReset_guard {calls : ℕ → List DelCall} (facts : StaFacts (s.recyVifReset calls)) :
    Guard s (.recyVifReset calls) := by
  obtain ⟨core, swept⟩ := inv.resetLoop calls
  have invalid := reset_invalid core
  have listed : ∀ v ∈ s.vifs, v ∈ (s.recyVifReset calls).vifs := by
    intro v mem
    show v ∈ (s.resetLoop calls).vifs
    rw [swept.vifs]
    exact mem
  refine ⟨fun v mem => ?_, fun i _ isTdls => ?_, fun v mem is4a i there => ?_⟩
  · refine Classical.or_iff_not_imp_left.mpr fun notAp => ?_
    by_contra some'
    obtain ⟨j, inside⟩ := List.exists_mem_of_ne_nil _ some'
    have stays : j ∈ ((s.resetLoop calls).vif v).staList := by
      rw [swept.other v notAp]
      exact inside
    have valid := facts.listed v (listed v mem) j stays
    rw [invalid j] at valid
    cases valid
  · refine Bool.eq_false_iff.mpr fun valid => ?_
    have queues := facts.queues i
    rw [invalid i, reset_active, swept.tdls i isTdls, inv.active i valid] at queues
    cases queues
  · refine Classical.or_iff_not_imp_left.mpr fun _ => ?_
    rcases swept.sta4a v with same | ⟨-, x, j, inside, vlan⟩
    · have stays : ((s.recyVifReset calls).vif v).sta4a = some i := same.trans there
      have is4a' : ((s.recyVifReset calls).vif v).is4a = true := by
        show ((s.resetLoop calls).vif v).is4a = true
        unfold AmlVif.is4a
        rw [(swept.config v).1, (swept.config v).2]
        exact is4a
      have valid := (facts.sta4a v (listed v mem) is4a' i stays).1
      rw [invalid i] at valid
      cases valid
    · exact ⟨x, (inv.core.host x (List.ne_nil_of_mem inside)).1, j, inside, vlan⟩

theorem guard_of_kept {a : StaAct M} (stepped : act s a = some t) (facts : StaFacts t)
    (request : Request s a t) : Guard s a := by
  cases a with
  | stopAp | connected => trivial
  | addStation v mac tdlsPeer sent cfm =>
    obtain ⟨-, same⟩ := ite_none_right_eq_some.mp stepped
    obtain rfl := some.inj same
    refine Classical.or_iff_not_imp_left.mpr fun peer => ?_
    by_contra lost
    have adding := facts.adding
    unfold StaHw.addStation at adding
    rw [if_neg peer, if_pos lost] at adding
    cases adding
  | changeStation v mac p sent cfm =>
    obtain ⟨-, same⟩ := ite_none_right_eq_some.mp stepped
    obtain rfl := some.inj same
    intro unknown peer
    have isSent : sent = 0 := by
      by_contra lost
      have adding := facts.adding
      unfold StaHw.changeStation at adding
      rw [unknown] at adding
      dsimp only at adding
      rw [if_pos peer, if_pos lost] at adding
      cases adding
    refine ⟨isSent, fun refused uses => ?_⟩
    have stray := facts.granted
    unfold StaHw.changeStation at stray
    rw [unknown] at stray
    dsimp only at stray
    have uses' : (s.addTdls v mac none).Uses v p := uses
    rw [if_pos peer, if_neg (not_not.mpr isSent), refused] at stray
    unfold StaHw.modify at stray
    rw [if_pos uses'] at stray
    cases stray
  | delStation v mac call =>
    obtain ⟨-, same⟩ := ite_none_right_eq_some.mp stepped
    obtain rfl := some.inj same
    exact delStation_guard inv request
  | recyVifReset calls =>
    obtain ⟨-, same⟩ := ite_none_right_eq_some.mp stepped
    obtain rfl := some.inj same
    exact recyVifReset_guard inv facts

end

/-- **The station table is kept** in every run whose steps meet the guard, and after such a run a request keeps it
and does what it should exactly when it meets the guard too. -/
theorem station_table_kept {config : Config} {mac : M} (reach : (system config mac).Reachable Guard s) :
    StaFacts s ∧ ∀ a t, act s a = some t → (StaFacts t ∧ Request s a t ↔ Guard s a) := by
  have inv : StaInv s :=
    reach.invariant (I := StaInv) (StaInv.init config mac) fun _ _ _ _ inv guard stepped => (inv.step guard stepped).1
  refine ⟨inv.facts, fun a t stepped => ⟨fun both => guard_of_kept inv stepped both.1 both.2, fun guard => ?_⟩⟩
  obtain ⟨inv', request⟩ := inv.step guard stepped
  exact ⟨inv'.facts, request⟩

end Run

def apWithVlan : Config where
  vifs := [0, 1, 4]
  iftype := fun v => if v = 0 then .ap else if v = 1 then .station else .apVlan
  use4addr := fun v => decide (v = 4)
  vlans := by decide

/-- Two stations of an AP, one of them on a VLAN; a TDLS station is refused, a station goes, and a recovery
removes the other one. -/
theorem station_table_kept_reset : ∃ s : StaHw ℕ, (s.vif 0).staList = [] ∧ (s.vif 4).sta4a = none ∧ StaFacts s ∧
    ∀ a t, act s a = some t → (StaFacts t ∧ Request s a t ↔ Guard s a) := by
  have reach := System.reachable_of_run (system apWithVlan 0) Guard
    [.addStation 0 7 false 0 (some 2), .addStation 0 8 false 0 (some 3), .addStation 0 9 false 0 none,
      .changeStation 0 7 { authorized := true, vlan := some 4 } 0 none, .connected 1 5 11,
      .changeStation 1 12 { tdlsPeer := true } 0 none, .delStation 0 (some 8) { sent := 0 },
      .delStation 0 (some 8) { sent := 0 }, .recyVifReset fun _ => [{ sent := -32 }],
      .addStation 0 7 false 0 (some 2), .stopAp 0 [{ sent := -110 }, { sent := 0 }]] (by decide +kernel)
  obtain ⟨facts, step⟩ := station_table_kept reach
  exact ⟨_, by decide +kernel, by decide +kernel, facts, step⟩

/-- **The flag stays**: the command of an addition is not sent, and `AML_DEV_ADDING_STA` is set when nothing is
added. -/
theorem failed_send_keeps_adding :
    ¬∀ s : StaHw ℕ, (system apWithVlan 0).Reachable (fun _ _ => True) s → StaFacts s := by
  intro claimed
  have reach := System.reachable_of_run (system apWithVlan 0) (fun _ _ => True)
    [.addStation 0 7 false (-110) none] (by decide +kernel)
  generalize state : (System.run (system apWithVlan 0) (fun _ _ => True) _ _).get _ = q at reach
  have adding := (claimed q reach).adding
  have set : q.adding = true := by
    rw [← state]
    decide +kernel
  rw [set] at adding
  cases adding

end W2l.Sta
