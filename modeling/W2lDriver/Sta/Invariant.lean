/-
**Stations: what additions, changes and removals keep of the table.**

* `Core` — what also holds in the middle of a loop over removals; `StaInv` — the invariant between requests.
* `Only` — what the removal of an interface's stations leaves as it was (`Core.delAll`).
-/

import W2lDriver.Sta.Table

set_option linter.unusedSectionVars false

namespace W2l.Sta

open Cmd (eBusy)
open Conn (eInval nxVirtDevMax)
open Key (nxRemoteStaMax)
open Function (update update_of_ne update_self)
open StaHw (dropSta moveVlan setSta4a)

variable {M : Type} [DecidableEq M]

/-! ### The invariant -/

/-- What also holds while stations are removed; the APs' entries have queues as far as their interfaces are among
`rest`. -/
structure Core (rest : ℕ → Prop) (s : StaHw M) : Prop where
  active : ∀ i, (s.sta i).active = true → (s.sta i).valid = true
  bound : ∀ i, (s.sta i).valid = true → i < nxRemoteStaMax ∧ s.granted i = true
  station : ∀ i, (s.sta i).valid = true → (s.sta i).kind = .station → ∃ v, i ∈ (s.vif v).staList
  ap : ∀ i, (s.sta i).active = true → (s.sta i).kind = .ap →
    ∃ v ∈ s.vifs, rest v ∧ (s.vif v).iftype.isStation = true ∧ (s.vif v).carrier = true ∧ (s.vif v).ap = some i
  listed : ∀ v, ∀ i ∈ (s.vif v).staList, s.granted i = true ∧ (s.sta i).kind = .station ∧ (s.sta i).vifIdx = v
  host : ∀ v, (s.vif v).staList ≠ [] → v ∈ s.vifs ∧ (s.vif v).iftype ≠ .apVlan
  once : ∀ v, (s.vif v).staList.Nodup
  sta4a : ∀ v i, (s.vif v).sta4a = some i → (s.vif v).is4a = true ∧ v ∈ s.vifs ∧ (s.sta i).valid = true ∧
    (s.sta i).vlanIdx = v
  vlans : ∀ v ∈ s.vifs, (s.vif v).iftype = .apVlan ↔ nxVirtDevMax ≤ v
  up : ∀ v ∈ s.vifs, (s.vif v).iftype = .apVlan → (s.vif v).up = true
  joined : ∀ v, (s.vif v).iftype.isStation = true → (s.vif v).carrier = true →
    v ∈ s.vifs ∧ rest v ∧ ∃ i, (s.vif v).ap = some i ∧ (s.sta i).valid = true ∧ (s.sta i).kind = .ap
  adding : s.adding = false
  stray : s.stray = false

/-- **The invariant.** -/
structure StaInv (s : StaHw M) : Prop where
  core : Core (fun _ => True) s
  listed : ∀ v, ∀ i ∈ (s.vif v).staList, (s.sta i).valid = true
  active : ∀ i, (s.sta i).valid = true → (s.sta i).active = true

theorem Core.setRet {rest : ℕ → Prop} {s : StaHw M} (core : Core rest s) (n : Int) : Core rest { s with ret := n } :=
  ⟨core.active, core.bound, core.station, core.ap, core.listed, core.host, core.once, core.sta4a, core.vlans,
    core.up, core.joined, core.adding, core.stray⟩

theorem StaInv.setRet {s : StaHw M} (inv : StaInv s) (n : Int) : StaInv { s with ret := n } :=
  ⟨inv.core.setRet n, inv.listed, inv.active⟩

/-! ### Removing a station -/

section Drop

variable {s t u : StaHw M} {v i : ℕ} {sent : Int}

def LeavesVlan (s : StaHw M) (i w : ℕ) : Prop :=
  w = (s.sta i).vlanIdx ∧ (s.sta i).vifIdx ≠ (s.sta i).vlanIdx ∧ (s.vif w).up = true ∧ (s.vif w).is4a = true

instance (i w : ℕ) : Decidable (LeavesVlan s i w) := inferInstanceAs (Decidable (_ ∧ _ ∧ _ ∧ _))

theorem setSta4a_vif (e : Option ℕ) (w : ℕ) : (s.setSta4a v e).vif w =
    { s.vif w with sta4a := if w = v ∧ (s.vif w).is4a = true then e else (s.vif w).sta4a } := by
  unfold setSta4a
  by_cases is4a : (s.vif v).is4a = true
  · rw [if_pos is4a]
    show update s.vif v _ w = _
    by_cases here : w = v
    · subst here
      rw [update_self, if_pos ⟨rfl, is4a⟩]
    · rw [update_of_ne here, if_neg fun both => here both.1]
  · rw [if_neg is4a]
    have stays : ¬(w = v ∧ (s.vif w).is4a = true) := by
      rintro ⟨rfl, on⟩
      exact is4a on
    rw [if_neg stays]

theorem setSta4a_rest (s : StaHw M) (v : ℕ) (e : Option ℕ) : (s.setSta4a v e).sta = s.sta ∧
    (s.setSta4a v e).vifs = s.vifs ∧ (s.setSta4a v e).granted = s.granted ∧
    (s.setSta4a v e).adding = s.adding ∧ (s.setSta4a v e).stray = s.stray ∧ (s.setSta4a v e).ret = s.ret := by
  unfold setSta4a
  split <;> exact ⟨rfl, rfl, rfl, rfl, rfl, rfl⟩

theorem leaveVlan_rest (s : StaHw M) (i : ℕ) : (s.leaveVlan i).sta = s.sta ∧ (s.leaveVlan i).vifs = s.vifs ∧
    (s.leaveVlan i).granted = s.granted ∧ (s.leaveVlan i).adding = s.adding ∧
    (s.leaveVlan i).stray = s.stray := by
  obtain ⟨sta, vifs, granted, adding, stray, -⟩ := setSta4a_rest s (s.sta i).vlanIdx none
  unfold StaHw.leaveVlan
  dsimp only
  split
  · split
    · exact ⟨sta, vifs, granted, adding, stray⟩
    · exact ⟨rfl, rfl, rfl, rfl, rfl⟩
  · exact ⟨rfl, rfl, rfl, rfl, rfl⟩

theorem leaveVlan_vif (w : ℕ) : (s.leaveVlan i).vif w =
    { s.vif w with sta4a := if LeavesVlan s i w then none else (s.vif w).sta4a } := by
  unfold StaHw.leaveVlan
  dsimp only
  by_cases moved : (s.sta i).vifIdx ≠ (s.sta i).vlanIdx
  · rw [if_pos moved]
    by_cases up : (s.vif (s.sta i).vlanIdx).up = true
    · rw [if_pos up, setSta4a_vif]
      by_cases leaves : LeavesVlan s i w
      · rw [if_pos leaves, if_pos ⟨leaves.1, leaves.2.2.2⟩]
      · have stays : ¬(w = (s.sta i).vlanIdx ∧ (s.vif w).is4a = true) := by
          rintro ⟨rfl, is4a⟩
          exact leaves ⟨rfl, moved, up, is4a⟩
        rw [if_neg leaves, if_neg stays]
    · rw [if_neg up]
      have stays : ¬LeavesVlan s i w := by
        rintro ⟨rfl, -, isUp, -⟩
        exact up isUp
      rw [if_neg stays]
  · rw [if_neg moved, if_neg fun leaves : LeavesVlan s i w => moved leaves.2.1]

theorem dropSta_sta : (s.dropSta v i sent).sta = update s.sta i { s.sta i with valid := false, active := false } := by
  have same := (leaveVlan_rest s i).1
  unfold dropSta
  dsimp only
  rw [same]
  split
  · show update (s.leaveVlan i).sta i _ = _
    rw [same]
  · show update (s.leaveVlan i).sta i _ = _
    rw [same]

theorem dropSta_vif (w : ℕ) : (s.dropSta v i sent).vif w =
    { s.vif w with
      staList := if w = v ∧ StaHw.Taken sent then (s.vif w).staList.erase i else (s.vif w).staList
      sta4a := if LeavesVlan s i w then none else (s.vif w).sta4a } := by
  unfold dropSta
  dsimp only
  by_cases taken : StaHw.Taken sent
  · rw [if_pos taken]
    show update (s.leaveVlan i).vif v _ w = _
    by_cases here : w = v
    · rw [if_pos ⟨here, taken⟩, here, update_self]
      show { (s.leaveVlan i).vif v with staList := ((s.leaveVlan i).vif v).staList.erase i } = _
      rw [leaveVlan_vif]
    · rw [if_neg fun both => here both.1, update_of_ne here, leaveVlan_vif]
  · rw [if_neg taken, if_neg fun both => taken both.2]
    show (s.leaveVlan i).vif w = _
    rw [leaveVlan_vif]

theorem dropSta_rest (s : StaHw M) (v i : ℕ) (sent : Int) :
    (s.dropSta v i sent).vifs = s.vifs ∧ (s.dropSta v i sent).adding = s.adding ∧
    (s.dropSta v i sent).stray = (s.stray || !s.granted i) ∧
    (s.dropSta v i sent).ret = (if StaHw.Taken sent then 0 else sent) ∧
    ∀ j, (s.dropSta v i sent).granted j =
      if j = i ∧ StaHw.Taken sent then s.granted i && decide (sent ≠ 0) else s.granted j := by
  obtain ⟨-, vifs, granted, adding, stray⟩ := leaveVlan_rest s i
  unfold dropSta
  dsimp only
  by_cases taken : StaHw.Taken sent
  · rw [if_pos taken, if_pos taken]
    refine ⟨vifs, adding, ?_, rfl, fun j => ?_⟩
    · show ((s.leaveVlan i).stray || !(s.leaveVlan i).granted i) = _
      rw [stray, granted]
    · show update (s.leaveVlan i).granted i ((s.leaveVlan i).granted i && decide (sent ≠ 0)) j = _
      rw [granted]
      by_cases own : j = i
      · rw [if_pos ⟨own, taken⟩, own, update_self]
      · rw [if_neg fun both => own both.1, update_of_ne own]
  · rw [if_neg taken, if_neg taken]
    refine ⟨vifs, adding, ?_, rfl, fun j => ?_⟩
    · show ((s.leaveVlan i).stray || !(s.leaveVlan i).granted i) = _
      rw [stray, granted]
    · rw [if_neg fun both => taken both.2]
      show (s.leaveVlan i).granted j = _
      rw [granted]

/-- **A listed station that goes**, whatever its command returns. -/
theorem Core.dropSta {rest : ℕ → Prop} (core : Core rest s) (mem : i ∈ (s.vif v).staList) :
    Core rest (s.dropSta v i sent) := by
  obtain ⟨vifs, adding, stray, -, granted⟩ := dropSta_rest s v i sent
  obtain ⟨own, station, home⟩ := core.listed v i mem
  have gone : ∀ j, ((s.dropSta v i sent).sta j).valid = true → j ≠ i ∧ (s.dropSta v i sent).sta j = s.sta j := by
    intro j valid
    rw [dropSta_sta] at valid ⊢
    by_cases here : j = i
    · rw [here, update_self] at valid
      cases valid
    · exact ⟨here, update_of_ne here _ _⟩
  have off : ∀ j, ((s.dropSta v i sent).sta j).active = true → j ≠ i ∧ (s.dropSta v i sent).sta j = s.sta j := by
    intro j active
    rw [dropSta_sta] at active ⊢
    by_cases here : j = i
    · rw [here, update_self] at active
      cases active
    · exact ⟨here, update_of_ne here _ _⟩
  have kinds : ∀ j, ((s.dropSta v i sent).sta j).kind = (s.sta j).kind ∧
      ((s.dropSta v i sent).sta j).vifIdx = (s.sta j).vifIdx := by
    intro j
    rw [dropSta_sta]
    by_cases here : j = i
    · rw [here, update_self]
      exact ⟨rfl, rfl⟩
    · rw [update_of_ne here]
      exact ⟨rfl, rfl⟩
  have inList : ∀ w j, j ∈ ((s.dropSta v i sent).vif w).staList →
      j ∈ (s.vif w).staList ∧ ¬(j = i ∧ StaHw.Taken sent) := by
    intro w j inside
    rw [dropSta_vif] at inside
    dsimp only at inside
    split at inside
    · case isTrue both =>
      have old := List.mem_of_mem_erase inside
      refine ⟨old, ?_⟩
      rintro ⟨rfl, -⟩
      exact (core.once w).not_mem_erase inside
    · case isFalse not =>
      refine ⟨inside, ?_⟩
      rintro ⟨rfl, taken⟩
      exact not ⟨(core.listed w j inside).2.2.symm.trans home, taken⟩
  refine ⟨fun j active => ?_, fun j valid => ?_, fun j valid isStation => ?_, fun j active isAp => ?_,
    fun w j inside => ?_, fun w some' => ?_, fun w => ?_, fun w j there => ?_, ?_, ?_, fun w isStation carrier => ?_,
    adding.trans core.adding, ?_⟩
  · obtain ⟨-, same⟩ := off j active
    rw [same] at active ⊢
    exact core.active j active
  · obtain ⟨ne, same⟩ := gone j valid
    rw [same] at valid
    rw [granted, if_neg fun both => ne both.1]
    exact core.bound j valid
  · obtain ⟨ne, same⟩ := gone j valid
    rw [same] at valid isStation
    obtain ⟨w, inside⟩ := core.station j valid isStation
    refine ⟨w, ?_⟩
    rw [dropSta_vif]
    dsimp only
    split
    · exact (List.mem_erase_of_ne ne).mpr inside
    · exact inside
  · obtain ⟨-, same⟩ := off j active
    rw [same] at active isAp
    obtain ⟨w, listed, inRest, isStation, carrier, there⟩ := core.ap j active isAp
    refine ⟨w, by rw [vifs]; exact listed, inRest, ?_⟩
    rw [dropSta_vif]
    exact ⟨isStation, carrier, there⟩
  · obtain ⟨inside, stays⟩ := inList w j inside
    obtain ⟨isGranted, isStation, isHome⟩ := core.listed w j inside
    rw [granted, if_neg stays, (kinds j).1, (kinds j).2]
    exact ⟨isGranted, isStation, isHome⟩
  · obtain ⟨j, inside⟩ := List.exists_mem_of_ne_nil _ some'
    have before := core.host w (List.ne_nil_of_mem (inList w j inside).1)
    rw [vifs, dropSta_vif]
    exact before
  · rw [dropSta_vif]
    dsimp only
    split
    · exact (core.once w).erase i
    · exact core.once w
  · rw [dropSta_vif] at there ⊢
    dsimp only at there
    by_cases leaves : LeavesVlan s i w
    · rw [if_pos leaves] at there
      cases there
    · rw [if_neg leaves] at there
      obtain ⟨is4a, listed, valid, vlan⟩ := core.sta4a w j there
      have isVlan : (s.vif w).iftype = .apVlan := of_decide_eq_true (Bool.and_eq_true_iff.mp is4a).1
      -- a station of `v` on this VLAN would have left it
      have other : j ≠ i := by
        rintro rfl
        refine leaves ⟨vlan.symm, ?_, core.up w listed isVlan, is4a⟩
        rw [home, vlan]
        rintro rfl
        exact (core.host _ (List.ne_nil_of_mem mem)).2 isVlan
      have same : (s.dropSta v i sent).sta j = s.sta j := by rw [dropSta_sta, update_of_ne other]
      rw [same, vifs]
      exact ⟨is4a, listed, valid, vlan⟩
  · intro w listed
    rw [vifs] at listed
    rw [dropSta_vif]
    exact core.vlans w listed
  · intro w listed
    rw [vifs] at listed
    rw [dropSta_vif]
    exact core.up w listed
  · rw [dropSta_vif] at isStation carrier ⊢
    obtain ⟨listed, inRest, j, there, valid, isAp⟩ := core.joined w isStation carrier
    have other : j ≠ i := by
      rintro rfl
      rw [station] at isAp
      cases isAp
    refine ⟨by rw [vifs]; exact listed, inRest, j, there, ?_⟩
    rw [dropSta_sta, update_of_ne other]
    exact ⟨valid, isAp⟩
  · rw [stray, core.stray, own]
    rfl

end Drop

/-! ### Loops over removals -/

/-- What the removal of stations of `v` leaves as it was. -/
structure Only (v : ℕ) (s t : StaHw M) : Prop where
  vifs : t.vifs = s.vifs
  other : ∀ w, w ≠ v → (t.vif w).staList = (s.vif w).staList
  list : ∀ i ∈ (t.vif v).staList, i ∈ (s.vif v).staList
  config : ∀ w, (t.vif w).iftype = (s.vif w).iftype ∧ (t.vif w).use4addr = (s.vif w).use4addr ∧
    (t.vif w).carrier = (s.vif w).carrier ∧ (t.vif w).ap = (s.vif w).ap
  sta : ∀ i, i ∉ (s.vif v).staList → t.sta i = s.sta i
  less : ∀ i, (t.sta i).valid = true → t.sta i = s.sta i
  same : ∀ i, (t.sta i).kind = (s.sta i).kind ∧ (t.sta i).vlanIdx = (s.sta i).vlanIdx
  sta4a : ∀ w, (t.vif w).sta4a = (s.vif w).sta4a ∨
    ((t.vif w).sta4a = none ∧ ∃ j ∈ (s.vif v).staList, (s.sta j).vlanIdx = w)

namespace Only

variable {s t u : StaHw M} {v i : ℕ} {sent : Int}

theorem refl (v : ℕ) (s : StaHw M) : Only v s s :=
  ⟨rfl, fun _ _ => rfl, fun _ mem => mem, fun _ => ⟨rfl, rfl, rfl, rfl⟩, fun _ _ => rfl, fun _ _ => rfl,
    fun _ => ⟨rfl, rfl⟩, fun _ => .inl rfl⟩

theorem setRet (only : Only v s t) (n : Int) : Only v s { t with ret := n } :=
  ⟨only.vifs, only.other, only.list, only.config, only.sta, only.less, only.same, only.sta4a⟩

theorem trans (first : Only v s t) (second : Only v t u) : Only v s u := by
  refine ⟨second.vifs.trans first.vifs, fun w ne => (second.other w ne).trans (first.other w ne),
    fun i mem => first.list i (second.list i mem), fun w => ?_, fun i out => ?_, fun i valid => ?_, fun i => ?_,
    fun w => ?_⟩
  · obtain ⟨iftype, use4addr, carrier, ap⟩ := second.config w
    rw [iftype, use4addr, carrier, ap]
    exact first.config w
  · exact (second.sta i fun mem => out (first.list i mem)).trans (first.sta i out)
  · have same := second.less i valid
    rw [same] at valid
    exact same.trans (first.less i valid)
  · exact ⟨(second.same i).1.trans (first.same i).1, (second.same i).2.trans (first.same i).2⟩
  · rcases second.sta4a w with same | ⟨gone, j, mem, vlan⟩
    · rw [same]
      exact first.sta4a w
    · refine .inr ⟨gone, j, first.list j mem, ?_⟩
      rw [← (first.same j).2]
      exact vlan

theorem dropSta (mem : i ∈ (s.vif v).staList) : Only v s (s.dropSta v i sent) := by
  refine ⟨(dropSta_rest s v i sent).1, fun w ne => ?_, fun j inside => ?_, fun w => ?_,
    fun j out => ?_, fun j valid => ?_,
    fun j => ?_, fun w => ?_⟩
  · rw [dropSta_vif, if_neg fun both => ne both.1]
  · rw [dropSta_vif] at inside
    dsimp only at inside
    split at inside
    · exact List.mem_of_mem_erase inside
    · exact inside
  · rw [dropSta_vif]
    exact ⟨rfl, rfl, rfl, rfl⟩
  · have other : j ≠ i := by
      rintro rfl
      exact out mem
    rw [dropSta_sta, update_of_ne other]
  · rw [dropSta_sta] at valid ⊢
    by_cases here : j = i
    · rw [here, update_self] at valid
      cases valid
    · rw [update_of_ne here]
  · rw [dropSta_sta]
    by_cases here : j = i
    · rw [here, update_self]
      exact ⟨rfl, rfl⟩
    · rw [update_of_ne here]
      exact ⟨rfl, rfl⟩
  · rw [dropSta_vif]
    by_cases leaves : LeavesVlan s i w
    · exact .inr ⟨if_pos leaves, i, mem, leaves.1.symm⟩
    · exact .inl (if_neg leaves)

end Only

section Loop

variable {s t : StaHw M} {v i : ℕ} {rest : ℕ → Prop}

theorem found_mem {mac : Option M} (found : s.found v mac = some i) : i ∈ (s.vif v).staList :=
  List.mem_of_find?_eq_some found

theorem delStation_found {mac : Option M} {call : DelCall} (free : call.busy = false)
    (found : s.found v mac = some i) : s.delStation v mac call = s.dropSta v i call.sent := by
  unfold StaHw.delStation
  rw [if_neg (Bool.eq_false_iff.mp free), found]

theorem delStation_none {mac : Option M} {call : DelCall} (none' : call.busy = true ∨ s.found v mac = none) :
    ∃ n, n ≠ 0 ∧ s.delStation v mac call = { s with ret := n } := by
  unfold StaHw.delStation
  by_cases busy : call.busy = true
  · rw [if_pos busy]
    exact ⟨eBusy, by decide, rfl⟩
  · rw [if_neg busy, none'.resolve_left busy]
    exact ⟨eNoEnt, by decide, rfl⟩

/-- What a call of `del_station` does. -/
theorem delStation_cases (mac : Option M) (call : DelCall) :
    (∃ n, n ≠ 0 ∧ s.delStation v mac call = { s with ret := n }) ∨
      ∃ i, s.found v mac = some i ∧ call.busy = false ∧ s.delStation v mac call = s.dropSta v i call.sent := by
  by_cases busy : call.busy = true
  · exact .inl (delStation_none (.inl busy))
  · have free := Bool.eq_false_iff.mpr busy
    cases found : s.found v mac with
    | none => exact .inl (delStation_none (.inr found))
    | some i => exact .inr ⟨i, rfl, free, delStation_found free found⟩

theorem Core.delStation (core : Core rest s) (mac : Option M) (call : DelCall) :
    Core rest (s.delStation v mac call) ∧ Only v s (s.delStation v mac call) := by
  rcases delStation_cases (s := s) (v := v) mac call with ⟨n, -, same⟩ | ⟨i, found, -, same⟩
  · rw [same]
    exact ⟨core.setRet n, (Only.refl v s).setRet n⟩
  · rw [same]
    exact ⟨core.dropSta (found_mem found), Only.dropSta (found_mem found)⟩

theorem Core.delAll (core : Core rest s) (v : ℕ) (calls : List DelCall) :
    Core rest (StaHw.delAll v calls s) ∧ Only v s (StaHw.delAll v calls s) := by
  induction calls generalizing s with
  | nil => exact ⟨core, Only.refl v s⟩
  | cons call later ih =>
    unfold StaHw.delAll
    split
    · exact ⟨core, Only.refl v s⟩
    · obtain ⟨one, only⟩ := core.delStation (v := v) none call
      obtain ⟨all, only'⟩ := ih one
      exact ⟨all, only.trans only'⟩

theorem Core.delAll_vlan (core : Core rest s) (calls : List DelCall) {j : ℕ} (mem : j ∈ (s.vif v).staList)
    (gone : j ∉ ((StaHw.delAll v calls s).vif v).staList) {w : ℕ} (listed : w ∈ s.vifs)
    (is4a : (s.vif w).is4a = true) (vlan : (s.sta j).vlanIdx = w) :
    ((StaHw.delAll v calls s).vif w).sta4a = none := by
  induction calls generalizing s with
  | nil => exact absurd mem gone
  | cons call later ih =>
    unfold StaHw.delAll at gone ⊢
    rw [if_neg (List.ne_nil_of_mem mem)] at gone ⊢
    obtain ⟨one, only⟩ := core.delStation (v := v) none call
    obtain ⟨iftype, use4addr, -, -⟩ := only.config w
    have is4a' : ((s.delStation v none call).vif w).is4a = true := by
      unfold AmlVif.is4a
      rw [iftype, use4addr]
      exact is4a
    by_cases stays : j ∈ ((s.delStation v none call).vif v).staList
    · exact ih one stays gone (by rw [only.vifs]; exact listed) is4a' ((only.same j).2.trans vlan)
    · -- this call is the one that removes it
      rcases delStation_cases (s := s) (v := v) none call with ⟨n, -, same⟩ | ⟨i, found, -, same⟩
      · rw [same] at stays
        exact absurd mem stays
      · have own : j = i := by
          by_contra ne
          rw [same, dropSta_vif] at stays
          dsimp only at stays
          split at stays
          · exact stays ((List.mem_erase_of_ne ne).mpr mem)
          · exact stays mem
        subst own
        have isVlan : (s.vif w).iftype = .apVlan := of_decide_eq_true (Bool.and_eq_true_iff.mp is4a).1
        have leaves : LeavesVlan s j w := by
          refine ⟨vlan.symm, ?_, core.up w listed isVlan, is4a⟩
          rw [(core.listed v j mem).2.2, vlan]
          rintro rfl
          exact (core.host _ (List.ne_nil_of_mem mem)).2 isVlan
        have free : ((s.delStation v none call).vif w).sta4a = none := by
          rw [same, dropSta_vif]
          exact if_pos leaves
        rcases (one.delAll v later).2.sta4a w with kept | ⟨none', -⟩
        · exact kept.trans free
        · exact none'

end Loop

/-! ### Additions -/

section Add

variable {s t : StaHw M} {v i : ℕ}

section

variable (inv : StaInv s)

include inv

theorem StaInv.fresh (free : s.granted i = false) : (s.sta i).valid = false ∧ (∀ w, i ∉ (s.vif w).staList) := by
  refine ⟨Bool.eq_false_iff.mpr fun valid => ?_, fun w mem => ?_⟩
  · rw [(inv.core.bound i valid).2] at free
    cases free
  · rw [(inv.core.listed w i mem).1] at free
    cases free

/-- **A new entry**, with the interface that has it. -/
theorem StaInv.enter {mac : M} {kind : Kind} {x : AmlVif} (small : i < nxRemoteStaMax)
    (free : s.granted i = false) (mem : v ∈ s.vifs) (vifs : t.vifs = s.vifs)
    (sta : t.sta = update s.sta i ⟨true, true, mac, v, v, kind⟩)
    (granted : t.granted = update s.granted i true) (vif : t.vif = update s.vif v x)
    (adding : t.adding = false) (stray : t.stray = s.stray)
    (config : x.iftype = (s.vif v).iftype ∧ x.use4addr = (s.vif v).use4addr ∧ x.up = (s.vif v).up ∧
      x.sta4a = (s.vif v).sta4a)
    (list : kind = .station ∧ x.staList = (s.vif v).staList ++ [i] ∧ (s.vif v).iftype ≠ .apVlan ∨
      kind ≠ .station ∧ x.staList = (s.vif v).staList)
    (link : kind ≠ .ap ∧ x.carrier = (s.vif v).carrier ∧ x.ap = (s.vif v).ap ∨
      kind = .ap ∧ (s.vif v).carrier = false ∧ (s.vif v).iftype.isStation = true ∧ x.carrier = true ∧
        x.ap = some i) : StaInv t := by
  obtain ⟨invalid, unlisted⟩ := inv.fresh free
  obtain ⟨iftype, use4addr, isUp, isSta4a⟩ := config
  have core := inv.core
  have own : t.sta i = ⟨true, true, mac, v, v, kind⟩ := by rw [sta, update_self]
  have others : ∀ j, j ≠ i → t.sta j = s.sta j := fun j ne => by rw [sta, update_of_ne ne]
  have here : t.vif v = x := by rw [vif, update_self]
  have there : ∀ w, w ≠ v → t.vif w = s.vif w := fun w ne => by rw [vif, update_of_ne ne]
  have kept : ∀ w, (t.vif w).iftype = (s.vif w).iftype ∧ (t.vif w).is4a = (s.vif w).is4a ∧
      (t.vif w).up = (s.vif w).up ∧ (t.vif w).sta4a = (s.vif w).sta4a := by
    intro w
    by_cases same : w = v
    · rw [same, here]
      refine ⟨iftype, ?_, isUp, isSta4a⟩
      unfold AmlVif.is4a
      rw [iftype, use4addr]
    · rw [there w same]
      exact ⟨rfl, rfl, rfl, rfl⟩
  have lists : ∀ w j, j ∈ (t.vif w).staList ↔ j ∈ (s.vif w).staList ∨ (w = v ∧ j = i ∧ kind = .station) := by
    intro w j
    by_cases same : w = v
    · subst same
      rw [here]
      rcases list with ⟨isStation, is, -⟩ | ⟨notStation, is⟩
      · rw [is, List.mem_append, List.mem_singleton]
        exact or_congr_right ⟨fun same => ⟨rfl, same, isStation⟩, fun all => all.2.1⟩
      · rw [is]
        exact ⟨.inl, fun either => either.resolve_right fun all => notStation all.2.2⟩
    · rw [there w same]
      exact ⟨.inl, fun either => either.resolve_right fun all => same all.1⟩
  have grants : ∀ j, s.granted j = true → t.granted j = true := by
    intro j is
    rw [granted]
    by_cases same : j = i
    · rw [same, update_self]
    · rw [update_of_ne same]
      exact is
  have new : t.granted i = true := by rw [granted, update_self]
  refine ⟨⟨fun j active => ?_, fun j valid => ?_, fun j valid isStation => ?_, fun j active isAp => ?_,
    fun w j inside => ?_, fun w some' => ?_, fun w => ?_, fun w j at4a => ?_, fun w listed => ?_, fun w listed => ?_,
    fun w isStation carrier => ?_, adding, stray.trans core.stray⟩, fun w j inside => ?_, fun j valid => ?_⟩
  · by_cases same : j = i
    · rw [same, own]
    · rw [others j same] at active ⊢
      exact core.active j active
  · by_cases same : j = i
    · rw [same]
      exact ⟨small, new⟩
    · rw [others j same] at valid
      exact (core.bound j valid).imp_right (grants j)
  · by_cases same : j = i
    · rw [same, own] at isStation
      exact ⟨v, (lists v j).mpr (.inr ⟨rfl, same, isStation⟩)⟩
    · rw [others j same] at valid isStation
      obtain ⟨w, inside⟩ := core.station j valid isStation
      exact ⟨w, (lists w j).mpr (.inl inside)⟩
  · rw [vifs]
    by_cases same : j = i
    · rw [same, own] at isAp
      obtain ⟨-, -, isStation, carrier, ap⟩ := link.resolve_left fun all => all.1 isAp
      refine ⟨v, mem, trivial, ?_⟩
      rw [here, iftype, same]
      exact ⟨isStation, carrier, ap⟩
    · rw [others j same] at active isAp
      obtain ⟨w, listed, -, isStation, carrier, ap⟩ := core.ap j active isAp
      refine ⟨w, listed, trivial, ?_⟩
      by_cases at' : w = v
      · subst at'
        rcases link with ⟨-, carrier', ap'⟩ | ⟨-, off, -⟩
        · rw [here, iftype, carrier', ap']
          exact ⟨isStation, carrier, ap⟩
        · rw [carrier] at off
          cases off
      · rw [there w at']
        exact ⟨isStation, carrier, ap⟩
  · rcases (lists w j).mp inside with old | ⟨rfl, rfl, isStation⟩
    · have ne : j ≠ i := by
        rintro rfl
        exact unlisted w old
      rw [others j ne]
      exact (core.listed w j old).imp_left (grants j)
    · rw [own]
      exact ⟨new, isStation, rfl⟩
  · rw [vifs, (kept w).1]
    obtain ⟨j, inside⟩ := List.exists_mem_of_ne_nil _ some'
    rcases (lists w j).mp inside with old | ⟨rfl, -, isStation⟩
    · exact core.host w (List.ne_nil_of_mem old)
    · rcases list with ⟨-, -, notVlan⟩ | ⟨notStation, -⟩
      · exact ⟨mem, notVlan⟩
      · exact absurd isStation notStation
  · by_cases same : w = v
    · subst same
      rw [here]
      rcases list with ⟨-, is, -⟩ | ⟨-, is⟩
      · rw [is]
        exact List.concat_eq_append ▸ (core.once w).concat (unlisted w)
      · rw [is]
        exact core.once w
    · rw [there w same]
      exact core.once w
  · rw [(kept w).2.2.2] at at4a
    obtain ⟨is4a, listed, valid, vlan⟩ := core.sta4a w j at4a
    have ne : j ≠ i := by
      rintro rfl
      rw [valid] at invalid
      cases invalid
    rw [(kept w).2.1, vifs, others j ne]
    exact ⟨is4a, listed, valid, vlan⟩
  · rw [vifs] at listed
    rw [(kept w).1]
    exact core.vlans w listed
  · rw [vifs] at listed
    rw [(kept w).1, (kept w).2.2.1]
    exact core.up w listed
  · rw [(kept w).1] at isStation
    by_cases same : w = v
    · subst same
      rw [here] at carrier ⊢
      rcases link with ⟨-, carrier', ap'⟩ | ⟨isAp, -, -, -, ap'⟩
      · rw [carrier'] at carrier
        rw [ap']
        obtain ⟨-, -, j, ap, valid, isAp⟩ := core.joined w isStation carrier
        have ne : j ≠ i := by
          rintro rfl
          rw [valid] at invalid
          cases invalid
        refine ⟨by rw [vifs]; exact mem, trivial, j, ap, ?_⟩
        rw [others j ne]
        exact ⟨valid, isAp⟩
      · refine ⟨by rw [vifs]; exact mem, trivial, i, ap', ?_⟩
        rw [own]
        exact ⟨rfl, isAp⟩
    · rw [there w same] at carrier ⊢
      obtain ⟨listed, -, j, ap, valid, isAp⟩ := core.joined w isStation carrier
      have ne : j ≠ i := by
        rintro rfl
        rw [valid] at invalid
        cases invalid
      refine ⟨by rw [vifs]; exact listed, trivial, j, ap, ?_⟩
      rw [others j ne]
      exact ⟨valid, isAp⟩
  · rcases (lists w j).mp inside with old | ⟨-, rfl, -⟩
    · have ne : j ≠ i := by
        rintro rfl
        exact unlisted w old
      rw [others j ne]
      exact inv.listed w j old
    · rw [own]
  · by_cases same : j = i
    · rw [same, own]
    · rw [others j same] at valid ⊢
      exact inv.active j valid

theorem StaInv.added (n : Int) : StaInv { s with adding := false, ret := n } := by
  have core := inv.core
  exact ⟨⟨core.active, core.bound, core.station, core.ap, core.listed, core.host, core.once, core.sta4a, core.vlans,
    core.up, core.joined, rfl, core.stray⟩, inv.listed, inv.active⟩

theorem StaInv.addStation (mem : v ∈ s.vifs) (host : (s.vif v).iftype ≠ .apVlan) {mac : M}
    {tdlsPeer : Bool} {sent : Int} {cfm : Option ℕ} (grants : s.Grants cfm) (guard : tdlsPeer = true ∨ sent = 0) :
    StaInv (s.addStation v mac tdlsPeer sent cfm) := by
  unfold StaHw.addStation
  by_cases peer : tdlsPeer = true
  · rw [if_pos peer]
    exact inv.setRet 0
  · rw [if_neg peer, if_neg (not_not.mpr (guard.resolve_left peer))]
    cases cfm with
    | none => exact inv.added eBusy
    | some i =>
      obtain ⟨small, free⟩ := grants i rfl
      exact inv.enter small free mem rfl rfl rfl rfl rfl rfl ⟨rfl, rfl, rfl, rfl⟩ (.inl ⟨rfl, rfl, host⟩)
        (.inl ⟨by decide, rfl, rfl⟩)

theorem StaInv.addTdls (mem : v ∈ s.vifs) {mac : M} {cfm : Option ℕ} (grants : s.Grants cfm) :
    StaInv (s.addTdls v mac cfm) := by
  unfold StaHw.addTdls
  cases cfm with
  | none => exact inv.added s.ret
  | some i =>
    obtain ⟨small, free⟩ := grants i rfl
    exact inv.enter small free mem rfl rfl rfl rfl rfl rfl ⟨rfl, rfl, rfl, rfl⟩ (.inr ⟨by decide, rfl⟩)
      (.inl ⟨by decide, rfl, rfl⟩)

theorem StaInv.connected (mem : v ∈ s.vifs) (isStation : (s.vif v).iftype.isStation = true)
    (carrier : (s.vif v).carrier = false) {mac : M} (grants : s.Grants (some i)) : StaInv (s.connected v i mac) := by
  obtain ⟨small, free⟩ := grants i rfl
  exact inv.enter small free mem rfl rfl rfl rfl inv.core.adding rfl ⟨rfl, rfl, rfl, rfl⟩ (.inr ⟨by decide, rfl⟩)
    (.inr ⟨rfl, carrier, isStation, rfl, rfl⟩)

end

end Add

/-! ### Changes -/

section Change

variable {s : StaHw M} {v i w : ℕ}

theorem moveVlan_sta : (s.moveVlan i w).sta = update s.sta i { s.sta i with vlanIdx := w } := by
  unfold moveVlan
  dsimp only
  by_cases stays : (s.sta i).vlanIdx = w
  · rw [if_pos stays, ← stays, Function.update_eq_self]
  · rw [if_neg stays, (setSta4a_rest _ _ _).1, (setSta4a_rest _ _ _).1]
    rfl

theorem moveVlan_rest (s : StaHw M) (i w : ℕ) : (s.moveVlan i w).vifs = s.vifs ∧
    (s.moveVlan i w).granted = s.granted ∧ (s.moveVlan i w).adding = s.adding ∧
    (s.moveVlan i w).stray = s.stray ∧ (s.moveVlan i w).ret = s.ret := by
  unfold moveVlan
  dsimp only
  split
  · exact ⟨rfl, rfl, rfl, rfl, rfl⟩
  · have first := setSta4a_rest
      ((s.setVif w { s.vif w with carrier := true }).setSta i { s.sta i with vlanIdx := w }) w (some i)
    have second := setSta4a_rest (setSta4a
      ((s.setVif w { s.vif w with carrier := true }).setSta i { s.sta i with vlanIdx := w }) w (some i))
      (s.sta i).vlanIdx none
    exact ⟨second.2.1.trans first.2.1, second.2.2.1.trans first.2.2.1, second.2.2.2.1.trans first.2.2.2.1,
      second.2.2.2.2.1.trans first.2.2.2.2.1, second.2.2.2.2.2.trans first.2.2.2.2.2⟩

theorem moveVlan_vif (moves : (s.sta i).vlanIdx ≠ w) (x : ℕ) : (s.moveVlan i w).vif x =
    { s.vif x with
      carrier := if x = w then true else (s.vif x).carrier
      sta4a := if x = (s.sta i).vlanIdx ∧ (s.vif x).is4a = true then none
        else if x = w ∧ (s.vif x).is4a = true then some i else (s.vif x).sta4a } := by
  have carried : ((s.setVif w { s.vif w with carrier := true }).setSta i { s.sta i with vlanIdx := w }).vif x =
      { s.vif x with carrier := if x = w then true else (s.vif x).carrier } := by
    show update s.vif w _ x = _
    by_cases here : x = w
    · rw [here, update_self, if_pos rfl]
    · rw [update_of_ne here, if_neg here]
  unfold moveVlan
  dsimp only
  rw [if_neg moves, setSta4a_vif, setSta4a_vif]
  have carried' : ((s.setVif w { s.vif w with carrier := true }).setSta i
      { (s.setVif w { s.vif w with carrier := true }).sta i with vlanIdx := w }).vif x =
      { s.vif x with carrier := if x = w then true else (s.vif x).carrier } := carried
  rw [carried']
  rfl

/-- **A station moves to another VLAN.** -/
theorem StaInv.moveVlan (inv : StaInv s) (valid : (s.sta i).valid = true) (mem : w ∈ s.vifs)
    (notStation : (s.vif w).iftype.isStation = false) : StaInv (s.moveVlan i w) := by
  by_cases stays : (s.sta i).vlanIdx = w
  · have same : s.moveVlan i w = s := if_pos stays
    rw [same]
    exact inv
  have core := inv.core
  obtain ⟨vifs, granted, adding, stray, -⟩ := moveVlan_rest s i w
  have same : ∀ j, ((s.moveVlan i w).sta j).valid = (s.sta j).valid ∧
      ((s.moveVlan i w).sta j).active = (s.sta j).active ∧ ((s.moveVlan i w).sta j).kind = (s.sta j).kind ∧
      ((s.moveVlan i w).sta j).vifIdx = (s.sta j).vifIdx := by
    intro j
    rw [moveVlan_sta]
    by_cases here : j = i
    · rw [here, update_self]
      exact ⟨rfl, rfl, rfl, rfl⟩
    · rw [update_of_ne here]
      exact ⟨rfl, rfl, rfl, rfl⟩
  have vlan : ∀ j, ((s.moveVlan i w).sta j).vlanIdx = if j = i then w else (s.sta j).vlanIdx := by
    intro j
    rw [moveVlan_sta]
    by_cases here : j = i
    · rw [here, update_self, if_pos rfl]
    · rw [update_of_ne here, if_neg here]
  have carriers : ∀ x, (s.vif x).iftype.isStation = true → ((s.moveVlan i w).vif x).carrier = (s.vif x).carrier := by
    intro x isStation
    rw [moveVlan_vif stays]
    refine if_neg ?_
    rintro rfl
    rw [isStation] at notStation
    cases notStation
  have config : ∀ x, ((s.moveVlan i w).vif x).iftype = (s.vif x).iftype ∧
      ((s.moveVlan i w).vif x).is4a = (s.vif x).is4a ∧ ((s.moveVlan i w).vif x).up = (s.vif x).up ∧
      ((s.moveVlan i w).vif x).ap = (s.vif x).ap ∧ ((s.moveVlan i w).vif x).staList = (s.vif x).staList := by
    intro x
    rw [moveVlan_vif stays]
    exact ⟨rfl, rfl, rfl, rfl, rfl⟩
  refine ⟨⟨fun j active => ?_, fun j valid => ?_, fun j valid isStation => ?_, fun j active isAp => ?_,
    fun x j inside => ?_, fun x some' => ?_, fun x => ?_, fun x j there => ?_, fun x listed => ?_, fun x listed => ?_,
    fun x isStation carrier => ?_, adding.trans core.adding, stray.trans core.stray⟩, fun x j inside => ?_,
    fun j valid => ?_⟩
  · rw [(same j).2.1] at active
    rw [(same j).1]
    exact core.active j active
  · rw [(same j).1] at valid
    rw [granted]
    exact core.bound j valid
  · rw [(same j).1] at valid
    rw [(same j).2.2.1] at isStation
    obtain ⟨x, inside⟩ := core.station j valid isStation
    exact ⟨x, by rw [(config x).2.2.2.2]; exact inside⟩
  · rw [(same j).2.1] at active
    rw [(same j).2.2.1] at isAp
    obtain ⟨x, listed, -, isStation, carrier, ap⟩ := core.ap j active isAp
    refine ⟨x, by rw [vifs]; exact listed, trivial, ?_⟩
    rw [(config x).1, carriers x isStation, (config x).2.2.2.1]
    exact ⟨isStation, carrier, ap⟩
  · rw [(config x).2.2.2.2] at inside
    rw [granted, (same j).2.2.1, (same j).2.2.2]
    exact core.listed x j inside
  · rw [(config x).2.2.2.2] at some'
    rw [vifs, (config x).1]
    exact core.host x some'
  · rw [(config x).2.2.2.2]
    exact core.once x
  · have at4a := there
    rw [moveVlan_vif stays] at at4a
    dsimp only at at4a
    rw [(config x).2.1, vifs, (same j).1, vlan]
    by_cases old : x = (s.sta i).vlanIdx ∧ (s.vif x).is4a = true
    · rw [if_pos old] at at4a
      cases at4a
    · rw [if_neg old] at at4a
      by_cases new : x = w ∧ (s.vif x).is4a = true
      · rw [if_pos new] at at4a
        obtain rfl := Option.some.inj at4a
        rw [if_pos rfl, new.1]
        exact ⟨new.1 ▸ new.2, mem, valid, rfl⟩
      · rw [if_neg new] at at4a
        obtain ⟨is4a, listed, isValid, isVlan⟩ := core.sta4a x j at4a
        have other : j ≠ i := by
          rintro rfl
          exact old ⟨isVlan.symm, is4a⟩
        rw [if_neg other]
        exact ⟨is4a, listed, isValid, isVlan⟩
  · rw [vifs] at listed
    rw [(config x).1]
    exact core.vlans x listed
  · rw [vifs] at listed
    rw [(config x).1, (config x).2.2.1]
    exact core.up x listed
  · rw [(config x).1] at isStation
    rw [carriers x isStation] at carrier
    obtain ⟨listed, -, j, ap, isValid, isAp⟩ := core.joined x isStation carrier
    refine ⟨by rw [vifs]; exact listed, trivial, j, ?_⟩
    rw [(config x).2.2.2.1, (same j).1, (same j).2.2.1]
    exact ⟨ap, isValid, isAp⟩
  · rw [(config x).2.2.2.2] at inside
    rw [(same j).1]
    exact inv.listed x j inside
  · rw [(same j).1] at valid
    rw [(same j).2.1]
    exact inv.active j valid

theorem use_granted (granted : s.granted i = true) : s.use (some i) = s := by
  unfold StaHw.use
  dsimp only
  rw [granted, Bool.not_true, Bool.or_false]

variable {p : StationParams}

theorem StaInv.modify_some (inv : StaInv s) (valid : (s.sta i).valid = true)
    (vlan : ∀ x ∈ p.vlan, x ∈ s.vifs ∧ (s.vif x).iftype.isStation = false) :
    StaInv (s.modify v p (some i)) ∧ (s.modify v p (some i)).ret = 0 := by
  have used : (if s.Uses v p then s.use (some i) else s) = s := by
    rw [use_granted (inv.core.bound i valid).2, ite_self]
  unfold StaHw.modify
  dsimp only
  rw [used]
  cases target : p.vlan with
  | none => exact ⟨inv.setRet 0, rfl⟩
  | some x =>
    obtain ⟨mem, notStation⟩ := vlan x target
    exact ⟨(inv.setRet 0).moveVlan valid mem notStation, (moveVlan_rest _ i x).2.2.2.2⟩

theorem modify_none (unused : ¬s.Uses v p) : s.modify v p none = { s with ret := 0 } := by
  unfold StaHw.modify
  dsimp only
  rw [if_neg unused]

theorem getSta_valid {mac : M} (found : s.getSta mac = some i) : (s.sta i).valid = true := by
  have both := List.find?_some found
  exact (Bool.and_eq_true_iff.mp both).1

theorem addTdls_vifs (mac : M) (cfm : Option ℕ) : (s.addTdls v mac cfm).vifs = s.vifs ∧
    (∀ x, ((s.addTdls v mac cfm).vif x).iftype = (s.vif x).iftype) ∧
    ∀ i ∈ cfm, ((s.addTdls v mac cfm).sta i).valid = true := by
  unfold StaHw.addTdls
  cases cfm with
  | none => exact ⟨rfl, fun _ => rfl, fun _ wrong => absurd wrong (Option.not_mem_none _)⟩
  | some i =>
    refine ⟨rfl, fun x => ?_, fun j same => ?_⟩
    · show (update s.vif v _ x).iftype = _
      by_cases here : x = v
      · rw [here, update_self]
        rfl
      · rw [update_of_ne here]
    · obtain rfl := Option.some.inj same
      show (update s.sta i _ i).valid = true
      rw [update_self]

theorem StaInv.changeStation (inv : StaInv s) (mem : v ∈ s.vifs) {mac : M} {sent : Int}
    {cfm : Option ℕ} (grants : s.Grants cfm)
    (vlan : ∀ x ∈ p.vlan, x ∈ s.vifs ∧ (s.vif x).iftype.isStation = false)
    (guard : s.getSta mac = none → p.tdlsPeer = true → sent = 0 ∧ (cfm = none → ¬s.Uses v p)) :
    StaInv (s.changeStation v mac p sent cfm) ∧ ((s.changeStation v mac p sent cfm).ret ≠ 0 →
      (s.changeStation v mac p sent cfm).sta = s.sta ∧ (s.changeStation v mac p sent cfm).vif = s.vif) := by
  unfold StaHw.changeStation
  cases found : s.getSta mac with
  | some i =>
    obtain ⟨inv', ret⟩ := inv.modify_some (v := v) (getSta_valid found) vlan
    exact ⟨inv', fun failed => absurd ret failed⟩
  | none =>
    dsimp only
    by_cases peer : p.tdlsPeer = true
    · obtain ⟨isSent, refused⟩ := guard found peer
      rw [if_pos peer, if_neg (not_not.mpr isSent)]
      have added : StaInv (s.addTdls v mac cfm) := inv.addTdls mem grants
      obtain ⟨vifs, iftype, valid⟩ := addTdls_vifs (s := s) (v := v) mac cfm
      have vlan' : ∀ x ∈ p.vlan, x ∈ (s.addTdls v mac cfm).vifs ∧
          ((s.addTdls v mac cfm).vif x).iftype.isStation = false := by
        intro x target
        rw [vifs, iftype]
        exact vlan x target
      cases cfm with
      | none =>
        have unused : ¬(s.addTdls v mac none).Uses v p := refused rfl
        rw [modify_none unused]
        exact ⟨added.setRet 0, fun failed => absurd rfl failed⟩
      | some i =>
        obtain ⟨inv', ret⟩ := added.modify_some (v := v) (valid i rfl) vlan'
        exact ⟨inv', fun failed => absurd ret failed⟩
    · rw [if_neg peer]
      exact ⟨inv.setRet eInval, fun _ => ⟨rfl, rfl⟩⟩

end Change

/-! ### Removals and the recovery -/

section Remove

variable {s t : StaHw M} {v i : ℕ}

theorem StaInv.removed (inv : StaInv s) (core : Core (fun _ => True) t) (only : Only v s t)
    (left : ∀ j ∈ (t.vif v).staList, (t.sta j).valid = true) : StaInv t := by
  refine ⟨core, fun w j inside => ?_, fun j valid => ?_⟩
  · by_cases here : w = v
    · rw [here] at inside
      exact left j inside
    · rw [only.other w here] at inside
      have out : j ∉ (s.vif v).staList := fun mem =>
        here ((inv.core.listed w j inside).2.2.symm.trans (inv.core.listed v j mem).2.2)
      rw [only.sta j out]
      exact inv.listed w j inside
  · have same := only.less j valid
    rw [same] at valid ⊢
    exact inv.active j valid

theorem StaInv.delStation (inv : StaInv s) {mac : Option M} {call : DelCall}
    (guard : call.busy = false → s.found v mac ≠ none →
      StaHw.Taken call.sent ∧ (mac = none → (s.vif v).staList.length = 1)) :
    StaInv (s.delStation v mac call) ∧ ((s.delStation v mac call).ret ≠ 0 → (s.delStation v mac call).sta = s.sta ∧
        (s.delStation v mac call).vif = s.vif) ∧
      (mac = none → (s.delStation v mac call).ret = 0 → ((s.delStation v mac call).vif v).staList = []) := by
  rcases delStation_cases (s := s) (v := v) mac call with ⟨n, ne, same⟩ | ⟨i, found, free, same⟩
  · rw [same]
    exact ⟨inv.setRet n, fun _ => ⟨rfl, rfl⟩, fun _ zero => absurd zero ne⟩
  · have some' : s.found v mac ≠ none := by
      rw [found]
      exact Option.some_ne_none i
    obtain ⟨taken, one⟩ := guard free some'
    have mem := found_mem found
    have list : ((s.dropSta v i call.sent).vif v).staList = (s.vif v).staList.erase i := by
      rw [dropSta_vif]
      exact if_pos ⟨rfl, taken⟩
    rw [same]
    refine ⟨inv.removed (inv.core.dropSta mem) (Only.dropSta mem) fun j inside => ?_, fun failed => ?_,
      fun none' _ => ?_⟩
    · rw [list] at inside
      have ne : j ≠ i := by
        rintro rfl
        exact (inv.core.once v).not_mem_erase inside
      rw [dropSta_sta, update_of_ne ne]
      exact inv.listed v j (List.mem_of_mem_erase inside)
    · rw [(dropSta_rest s v i call.sent).2.2.2.1, if_pos taken] at failed
      exact absurd rfl failed
    · rw [list]
      obtain ⟨j, single⟩ := List.length_eq_one_iff.mp (one none')
      rw [single] at mem ⊢
      rw [List.mem_singleton.mp mem, List.erase_cons_head]

theorem StaInv.stopAp (inv : StaInv s) (calls : List DelCall) (empty : ((s.stopAp v calls).vif v).staList = []) :
    StaInv (s.stopAp v calls) := by
  obtain ⟨core, only⟩ := inv.core.delAll v calls
  have empty' : ((StaHw.delAll v calls s).vif v).staList = [] := empty
  refine StaInv.setRet (inv.removed core only fun j inside => ?_) 0
  rw [empty'] at inside
  exact absurd inside List.not_mem_nil

end Remove

end W2l.Sta
