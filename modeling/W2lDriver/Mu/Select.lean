/-
**MU group selection: which of its groups a station sends in.**

* `staSelect` — `aml_mu_group_sta_select`; an index outside its array, or a sort that does not end, is `none`.
* `SelectRight` — **what a selection leaves**: a station has a group with another active one of its interface,
  and of two active stations of one interface that share a group one has a group of at least its traffic.
-/

import W2lDriver.Lib.Loops
import W2lDriver.Mu.Membership

set_option linter.unusedSectionVars false

namespace W2l.Mu

open Lib (bubble bubble_sorted foldlM_keeps inversions_le)
open Function (update update_of_ne update_self)
open List (append_assoc countP_append mem_append mem_append_left mem_filter mem_singleton nodup_append)
open Option (bind_some some.inj)

variable {S : Type} [DecidableEq S]

/-! ### The function -/

/-- The length of `order`, `nb_users` and `traffic`. -/
abbrev arraySize : ℕ := nxMuGroupMax + 1

/-- `AML_MU_GROUP_MIN_TRAFFIC`. -/
def amlMuGroupMinTraffic : Int := 50

/-- The sum of two `int`. -/
def addInt (a b : Int) : Int := (a + b).bmod (2 ^ 32)

/-- A group id as an index. -/
def toIndex (id : ℕ) : Option (Fin arraySize) := if lt : id < arraySize then some ⟨id, lt⟩ else none

/-- What `aml_mu_group_sta_select` works on: the stations, its arrays, `order` up to `cnt`, and the calls of
`trace_mu_group_selection`. -/
structure Selection (S : Type) where
  mu : MuHw S
  nbUsers : Fin arraySize → Int
  traffic : Fin arraySize → Int
  order : List (Fin arraySize)
  trace : List (S × ℕ)

/-- `group_sta_for_each`. -/
def MuHw.groupStaForEach (s : MuHw S) (sta : S) : List ℕ := groupForEach ((s.info sta).map &&& amlMuGroupMask)

namespace Selection

variable (p : Selection S)

/-- The statistics of one group of an active station. -/
def count (staTraffic : Int) (id : ℕ) : Option (Selection S) :=
  (toIndex id).bind fun g =>
    let q := { p with
      nbUsers := Function.update p.nbUsers g (p.nbUsers g + 1)
      traffic := Function.update p.traffic g (addInt (p.traffic g) staTraffic) }
    if q.nbUsers g = 2 then if q.order.length < arraySize then some { q with order := q.order ++ [g] } else none
    else some q

/-- The statistics of one station. -/
def gather (sta : S) : Option (Selection S) :=
  let info := p.mu.info sta
  let q := { p with
    mu := p.mu.setInfo sta { info with traffic := 0, group := 0 }
    trace := if info.group ≠ 0 then p.trace ++ [(sta, 0)] else p.trace }
  if info.cnt = 0 ∨ info.traffic < amlMuGroupMinTraffic then some q
  else (q.mu.groupStaForEach sta).foldlM (fun q id => q.count info.traffic id) q

/-- One other group of a user of the group `g`. -/
def release (g : Fin arraySize) (id : ℕ) : Option (Selection S) :=
  if id = g then some p
  else (toIndex id).map fun h => { p with nbUsers := Function.update p.nbUsers h (p.nbUsers h - 1) }

/-- One user of the group `g`. -/
def assign (g : Fin arraySize) : Option S → Option (Selection S)
  | none => some p
  | some sta =>
    let q := { p with
      mu := p.mu.setInfo sta { p.mu.info sta with group := g }
      trace := p.trace ++ [(sta, g.val)] }
    (q.mu.groupStaForEach sta).foldlM (fun q id => q.release g id) q

/-- One group in traffic order. -/
def select (g : Fin arraySize) : Option (Selection S) :=
  if p.nbUsers g < 2 then some p
  else (List.finRange configUserMax).foldlM (fun q j => q.assign g ((p.mu.groups g).users j)) p

/-- One AP interface; `fuel` bounds the sweeps of its sort. -/
def interface (fuel : ℕ) (staList : List S) : Option (Selection S) :=
  (staList.foldlM gather { p with nbUsers := fun _ => 0, traffic := fun _ => 0 }).bind fun q =>
    (bubble q.traffic fuel q.order).bind fun order => order.foldlM select { q with order := order }

end Selection

/-- An interface: whether `AML_VIF_TYPE` is `NL80211_IFTYPE_AP`, and `ap.sta_list`. -/
structure MuVif (S : Type) where
  isAp : Bool
  staList : List S

/-- What the selection reads and writes of `struct aml_hw`. -/
structure SelectHw (S : Type) where
  mu : MuHw S
  vifs : List (MuVif S)
  nextGroupSelect : BitVec 64

namespace SelectHw

variable (s : SelectHw S)

/-- The station lists of the AP interfaces. -/
def apLists : List (List S) := (s.vifs.filter fun vif => vif.isAp).map fun vif => vif.staList

/-- `time_before(jiffies, mu->next_group_select)` is false, and there is a group. -/
def Due (jiffies : BitVec 64) : Prop := s.mu.groupCnt ≠ 0 ∧ ¬(jiffies - s.nextGroupSelect).toInt < 0

instance (jiffies : BitVec 64) : Decidable (s.Due jiffies) := inferInstanceAs (Decidable (_ ∧ _))

end SelectHw

/-- `aml_mu_group_sta_select`, and what it traces. -/
def staSelect (fuel : ℕ) (interval jiffies : BitVec 64) (s : SelectHw S) : Option (SelectHw S × List (S × ℕ)) :=
  if s.Due jiffies then
    (s.apLists.foldlM (fun p : Selection S => p.interface fuel) ⟨s.mu, fun _ => 0, fun _ => 0, [], []⟩).map fun p =>
      ({ s with mu := p.mu, nextGroupSelect := (jiffies + interval) ||| 1 }, p.trace)
  else some (s, [])

/-! ### What a selection leaves -/

/-- An active user of a group: a station that is in it, with enough traffic since the last selection. -/
def MuHw.User (s : MuHw S) (g : ℕ) (sta : S) : Prop :=
  g ∈ groupIds ∧ (s.info sta).map.getLsbD g = true ∧ (s.info sta).cnt ≠ 0 ∧
    ¬(s.info sta).traffic < amlMuGroupMinTraffic

instance (s : MuHw S) (g : ℕ) : DecidablePred (s.User g) := fun _ => inferInstanceAs (Decidable (_ ∧ _))

/-- The traffic of a group at one interface. -/
def MuHw.groupTraffic (s : MuHw S) (staList : List S) (g : ℕ) : Int :=
  (staList.filter fun sta => s.User g sta).foldl (fun sum sta => addInt sum (s.info sta).traffic) 0

/-- A selection changes only traffic and selected groups. -/
def Kept (s t : MuHw S) : Prop :=
  ∃ (traffic : S → Int) (group : S → ℕ),
    t = { s with info := fun sta => { s.info sta with traffic := traffic sta, group := group sta } }

/-- A station with a selected group is an active user of it, as another station that has it selected. -/
def Paired (s t : MuHw S) (stas : List S) (sta : S) : Prop :=
  (t.info sta).group ≠ 0 → s.User (t.info sta).group sta ∧
    ∃ other ∈ stas, other ≠ sta ∧ s.User (t.info sta).group other ∧ (t.info other).group = (t.info sta).group

/-- A station has a group of at least the traffic of the group `g`. -/
def Served (s t : MuHw S) (staList : List S) (g : ℕ) (sta : S) : Prop :=
  (t.info sta).group ≠ 0 ∧ s.groupTraffic staList g ≤ s.groupTraffic staList (t.info sta).group

/-- **What a selection leaves.** -/
structure SelectRight (s t : SelectHw S) (trace : List (S × ℕ)) : Prop where
  kept : Kept s.mu t.mu
  reset : ∀ sta ∈ s.apLists.flatten, (t.mu.info sta).traffic = 0
  others : ∀ sta ∉ s.apLists.flatten, t.mu.info sta = s.mu.info sta
  paired : ∀ sta ∈ s.apLists.flatten, Paired s.mu t.mu s.apLists.flatten sta
  given : ∀ sta g, (sta, g) ∈ trace → g ≠ 0 → (t.mu.info sta).group = g
  best : ∀ staList ∈ s.apLists, ∀ g, ∀ a ∈ staList, ∀ b ∈ staList, a ≠ b → s.mu.User g a → s.mu.User g b →
    Served s.mu t.mu staList g a ∨ Served s.mu t.mu staList g b

/-! ### Active users -/

section Users

variable {s t : MuHw S} {g : ℕ} {a b c : S}

theorem users_of_two (inv : Consistent s) (ne : a ≠ b) (first : s.User g a) (second : s.User g b) :
    (s.groups g).users 0 = some a ∧ (s.groups g).users 1 = some b ∨
      (s.groups g).users 0 = some b ∧ (s.groups g).users 1 = some a := by
  obtain ⟨i, atA⟩ := (inv.mirror a g first.1).mp first.2.1
  obtain ⟨j, atB⟩ := (inv.mirror b g second.1).mp second.2.1
  match i, j, atA, atB with
  | 0, 0, atA, atB => exact absurd (some.inj (atA.symm.trans atB)) ne
  | 0, 1, atA, atB => exact .inl ⟨atA, atB⟩
  | 1, 0, atA, atB => exact .inr ⟨atB, atA⟩
  | 1, 1, atA, atB => exact absurd (some.inj (atA.symm.trans atB)) ne

theorem third_user (inv : Consistent s) (ne : a ≠ b) (first : s.User g a) (second : s.User g b)
    (third : s.User g c) : c = a ∨ c = b := by
  by_contra other
  rw [not_or] at other
  have users := users_of_two inv ne first second
  rcases users_of_two inv (Ne.symm other.1) first third with ⟨zero, one⟩ | ⟨zero, one⟩ <;>
    rcases users with ⟨zero', one'⟩ | ⟨zero', one'⟩
  · exact other.2 (some.inj (one.symm.trans one'))
  · exact ne (some.inj (zero.symm.trans zero'))
  · exact ne (some.inj (one.symm.trans one'))
  · exact other.2 (some.inj (zero.symm.trans zero'))

theorem two_of_count {list : List S} (nodup : list.Nodup) (two : 2 ≤ list.countP fun sta => s.User g sta) :
    ∃ a ∈ list, ∃ b ∈ list, a ≠ b ∧ s.User g a ∧ s.User g b := by
  rw [List.countP_eq_length_filter] at two
  have distinct := nodup.filter fun sta => decide (s.User g sta)
  have mem : ∀ x ∈ list.filter fun sta => s.User g sta, x ∈ list ∧ s.User g x := fun x inside =>
    ⟨List.mem_of_mem_filter inside, of_decide_eq_true (mem_filter.mp inside).2⟩
  match list.filter fun sta => s.User g sta, two, distinct, mem with
  | a :: b :: _, _, distinct, mem =>
    have inA := mem a (.head _)
    have inB := mem b (.tail _ (.head _))
    exact ⟨a, inA.1, b, inB.1, fun same => (List.nodup_cons.mp distinct).1 (same ▸ .head _), inA.2, inB.2⟩

theorem count_of_two {list : List S} (inA : a ∈ list) (inB : b ∈ list) (ne : a ≠ b) (first : s.User g a)
    (second : s.User g b) : 2 ≤ list.countP fun sta => s.User g sta := by
  rw [List.countP_eq_length_filter]
  suffices sub : [a, b].Subperm (list.filter fun sta => s.User g sta) from sub.length_le
  refine List.Nodup.subperm (by simpa using ne) fun x mem => ?_
  rcases List.mem_pair.mp mem with rfl | rfl
  · exact mem_filter.mpr ⟨inA, decide_eq_true first⟩
  · exact mem_filter.mpr ⟨inB, decide_eq_true second⟩

theorem count_le_two (inv : Consistent s) {list : List S} (nodup : list.Nodup) (g : ℕ) :
    list.countP (fun sta => s.User g sta) ≤ 2 := by
  rw [List.countP_eq_length_filter, ← List.length_map some]
  suffices sub : ((list.filter fun sta => s.User g sta).map some).Subperm
      [(s.groups g).users 0, (s.groups g).users 1] from sub.length_le
  refine List.Nodup.subperm ((nodup.filter _).map fun _ _ => some.inj) fun x mem => ?_
  obtain ⟨sta, inside, rfl⟩ := List.mem_map.mp mem
  have user : s.User g sta := of_decide_eq_true (mem_filter.mp inside).2
  obtain ⟨i, there⟩ := (inv.mirror sta g user.1).mp user.2.1
  match i, there with
  | 0, there => exact there ▸ .head _
  | 1, there => exact there ▸ .tail _ (.head _)

section

variable (kept : Kept s t)

include kept

theorem Kept.setInfo (sta : S) (traffic : Int) (group : ℕ) :
    Kept s (t.setInfo sta { t.info sta with traffic := traffic, group := group }) := by
  obtain ⟨tr, gr, rfl⟩ := kept
  refine ⟨update tr sta traffic, update gr sta group, ?_⟩
  unfold MuHw.setInfo
  congr 1
  funext x
  by_cases own : x = sta
  · subst own
    simp only [update_self]
  · simp only [update_of_ne own]

theorem Kept.give (sta : S) (group : ℕ) :
    Kept s (t.setInfo sta { t.info sta with group := group }) := kept.setInfo sta (t.info sta).traffic group

theorem Kept.groups : t.groups = s.groups := by
  obtain ⟨_, _, rfl⟩ := kept
  rfl

theorem mem_groupStaForEach {id : ℕ} (sta : S) :
    id ∈ t.groupStaForEach sta ↔ id ∈ groupIds ∧ (s.info sta).map.getLsbD id = true := by
  obtain ⟨_, _, rfl⟩ := kept
  unfold MuHw.groupStaForEach
  constructor
  · intro mem
    have on := (Bool.and_eq_true_iff.mp (mem_filter.mp mem).2).2
    rw [BitVec.getLsbD_and, getLsbD_mask, Bool.and_eq_true, decide_eq_true_eq] at on
    exact on.symm
  · rintro ⟨inside, on⟩
    refine mem_groupForEach inside ?_
    rw [BitVec.getLsbD_and, getLsbD_mask, on, decide_eq_true inside]
    rfl

end

theorem groupStaForEach_nodup (s : MuHw S) (sta : S) : (s.groupStaForEach sta).Nodup := groupForEach_nodup _

theorem toIndex_groupIds {id : ℕ} (inside : id ∈ groupIds) : ∃ g : Fin arraySize, toIndex id = some g ∧ g.val = id :=
  ⟨⟨id, Nat.lt_succ_of_le (Finset.mem_Icc.mp inside).2⟩, dif_pos _, rfl⟩

end Users

/-! ### The statistics -/

/-- The groups `ids` of an active station are counted. -/
structure Counted (p : Selection S) (staTraffic : Int) (ids : List ℕ) (q : Selection S) : Prop where
  mu : q.mu = p.mu
  trace : q.trace = p.trace
  nbUsers : ∀ g, q.nbUsers g = p.nbUsers g + if g.val ∈ ids then 1 else 0
  traffic : ∀ g, q.traffic g = if g.val ∈ ids then addInt (p.traffic g) staTraffic else p.traffic g
  nodup : q.order.Nodup
  mem : ∀ g, g ∈ q.order ↔ g ∈ p.order ∨ g.val ∈ ids ∧ p.nbUsers g = 1

theorem count_all {p : Selection S} {ids : List ℕ} (staTraffic : Int) (inside : ∀ id ∈ ids, id ∈ groupIds)
    (distinct : ids.Nodup) (nodup : p.order.Nodup)
    (fresh : ∀ g, g.val ∈ ids → p.nbUsers g = 1 → g ∉ p.order) :
    ∃ q, ids.foldlM (fun q id => q.count staTraffic id) p = some q ∧ Counted p staTraffic ids q := by
  refine foldlM_keeps ⟨rfl, rfl, fun g => (add_zero _).symm, fun g => rfl, nodup, fun g => ?_⟩
    fun done id rest split q counted => ?_
  · simp
  obtain ⟨g, index, val⟩ := toIndex_groupIds (inside id (by rw [split]; simp))
  have new : id ∉ done := by
    rw [split] at distinct
    exact fun old => (List.disjoint_of_nodup_append distinct) old (.head _)
  have nb : q.nbUsers g = p.nbUsers g := by
    rw [counted.nbUsers, if_neg (val ▸ new), add_zero]
  have mem : ∀ h : Fin arraySize, h.val ∈ done ++ [id] ↔ h.val ∈ done ∨ h = g := fun h => by
    rw [mem_append, mem_singleton, ← val, Fin.val_inj]
  have nbs : ∀ h, update q.nbUsers g (q.nbUsers g + 1) h = p.nbUsers h + if h.val ∈ done ++ [id] then 1 else 0 := by
    intro h
    by_cases own : h = g
    · subst own
      rw [update_self, nb, if_pos ((mem h).mpr (.inr rfl))]
    · rw [update_of_ne own, counted.nbUsers]
      simp only [mem, own, or_false]
  have traffics : ∀ h, update q.traffic g (addInt (q.traffic g) staTraffic) h =
      if h.val ∈ done ++ [id] then addInt (p.traffic h) staTraffic else p.traffic h := by
    intro h
    by_cases own : h = g
    · subst own
      rw [update_self, counted.traffic, if_neg (val ▸ new), if_pos ((mem h).mpr (.inr rfl))]
    · rw [update_of_ne own, counted.traffic]
      simp only [mem, own, or_false]
  rw [Selection.count, index]
  show ∃ t, (if update q.nbUsers g (q.nbUsers g + 1) g = 2 then _ else _) = some t ∧ _
  have now : update q.nbUsers g (q.nbUsers g + 1) g = p.nbUsers g + 1 := by rw [update_self, nb]
  by_cases two : p.nbUsers g + 1 = 2
  · have absent : g ∉ q.order := by
      rw [counted.mem, not_or]
      exact ⟨fresh g (by rw [val, split]; simp) (by omega), fun both => new (val ▸ both.1)⟩
    have longer : (q.order ++ [g]).Nodup := by
      rw [← List.concat_eq_append]
      exact counted.nodup.concat absent
    have room := longer.length_le_card
    rw [List.length_append, Fintype.card_fin] at room
    rw [if_pos (now.trans two), if_pos (show q.order.length < arraySize from room)]
    refine ⟨_, rfl, counted.mu, counted.trace, nbs, traffics, longer, fun h => ?_⟩
    rw [mem_append, mem_singleton, counted.mem, mem, or_assoc]
    refine or_congr_right ⟨?_, ?_⟩
    · rintro (⟨old, one⟩ | rfl)
      · exact ⟨.inl old, one⟩
      · exact ⟨.inr rfl, by omega⟩
    · rintro ⟨old | own, one⟩
      · exact .inl ⟨old, one⟩
      · exact .inr own
  · rw [if_neg (now ▸ two)]
    refine ⟨_, rfl, counted.mu, counted.trace, nbs, traffics, counted.nodup, fun h => ?_⟩
    rw [counted.mem, mem]
    refine or_congr_right ⟨fun both => ⟨.inl both.1, both.2⟩, ?_⟩
    rintro ⟨old | rfl, one⟩
    · exact ⟨old, one⟩
    · omega

/-- The stations of `list` are read, which are not in `done`. -/
structure Gathered (s : MuHw S) (done : List S) (base : Selection S) (list : List S) (q : Selection S) : Prop where
  kept : Kept s q.mu
  reset : ∀ sta ∈ list, (q.mu.info sta).traffic = 0 ∧ (q.mu.info sta).group = 0
  others : ∀ sta ∉ list, q.mu.info sta = base.mu.info sta
  given : ∀ sta g, (sta, g) ∈ q.trace → g ≠ 0 → (sta, g) ∈ base.trace
  nbUsers : ∀ g, q.nbUsers g = list.countP fun sta => s.User g sta
  traffic : ∀ g, q.traffic g = s.groupTraffic list g
  nodup : q.order.Nodup
  order : ∀ g ∈ q.order, 2 ≤ (done ++ list).countP fun sta => s.User g sta
  listed : ∀ g : Fin arraySize, 2 ≤ (list.countP fun sta => s.User g sta) → g ∈ q.order

section Statistics

variable {s : MuHw S} {done list : List S} {base q : Selection S}

theorem gather_eq (kept : Kept s q.mu) {sta : S} (same : q.mu.info sta = s.info sta) :
    ∃ (ids : List ℕ) (trace : List (S × ℕ)), q.gather sta = ids.foldlM (fun q id => q.count (s.info sta).traffic id)
        { q with mu := q.mu.setInfo sta { q.mu.info sta with traffic := 0, group := 0 }, trace := trace } ∧
      (∀ id, id ∈ ids ↔ s.User id sta) ∧ ids.Nodup ∧ ∀ x g, (x, g) ∈ trace → g ≠ 0 → (x, g) ∈ q.trace := by
  have trace : ∀ x g, (x, g) ∈ (if (q.mu.info sta).group ≠ 0 then q.trace ++ [(sta, 0)] else q.trace) → g ≠ 0 →
      (x, g) ∈ q.trace := by
    intro x g mem ne
    split at mem
    · refine (mem_append.mp mem).resolve_right fun last => ne ?_
      exact (Prod.mk.inj (mem_singleton.mp last)).2
    · exact mem
  unfold Selection.gather
  dsimp only
  split
  · case isTrue idle =>
    refine ⟨[], _, rfl, fun id => ⟨(fun mem => nomatch mem), fun user => ?_⟩, .nil, trace⟩
    rw [same] at idle
    exact idle.elim (fun zero => absurd zero user.2.2.1) fun low => absurd low user.2.2.2
  · case isFalse active =>
    rw [same, not_or] at active
    refine ⟨(q.mu.setInfo sta { q.mu.info sta with traffic := 0, group := 0 }).groupStaForEach sta, _, by rw [same],
      fun id => ?_, groupStaForEach_nodup _ sta, trace⟩
    rw [mem_groupStaForEach (kept.setInfo sta 0 0)]
    exact ⟨fun both => ⟨both.1, both.2, active⟩, fun user => ⟨user.1, user.2.1⟩⟩

theorem Gathered.station (inv : Consistent s) (gathered : Gathered s done base list q) {sta : S}
    (nodup : (done ++ (list ++ [sta])).Nodup) (same : base.mu.info sta = s.info sta) :
    ∃ r, q.gather sta = some r ∧ Gathered s done base (list ++ [sta]) r := by
  have new : sta ∉ list := fun old =>
    (List.disjoint_of_nodup_append (nodup_append.mp nodup).2.1) old (.head _)
  obtain ⟨ids, trace, eq, user, distinct, given⟩ := gather_eq gathered.kept ((gathered.others sta new).trans same)
  have one : ∀ g, (list ++ [sta]).countP (fun x => s.User g x) =
      list.countP (fun x => s.User g x) + if s.User g sta then 1 else 0 := fun g => by
    rw [countP_append, List.countP_singleton]
    simp only [decide_eq_true_eq]
  obtain ⟨r, counts, counted⟩ := count_all
    (p := { q with mu := q.mu.setInfo sta { q.mu.info sta with traffic := 0, group := 0 }, trace := trace })
    (s.info sta).traffic (fun id mem => ((user id).mp mem).1) distinct gathered.nodup fun g mem once listed => by
      have two := gathered.order g listed
      have most := count_le_two inv nodup g
      have first := (gathered.nbUsers g).symm.trans once
      rw [countP_append] at two most
      rw [one, if_pos ((user g).mp mem)] at most
      omega
  refine ⟨r, eq.trans counts, ?_, fun x mem => ?_, fun x out => ?_, fun x g mem ne => ?_, fun g => ?_, fun g => ?_,
    counted.nodup, fun g mem => ?_, fun g two => ?_⟩
  · rw [counted.mu]
    exact gathered.kept.setInfo sta 0 0
  · rw [counted.mu]
    show (update q.mu.info sta _ x).traffic = 0 ∧ (update q.mu.info sta _ x).group = 0
    by_cases own : x = sta
    · subst own
      rw [update_self]
      exact ⟨rfl, rfl⟩
    · rw [update_of_ne own]
      exact gathered.reset x ((mem_append.mp mem).resolve_right fun last => own (mem_singleton.mp last))
  · rw [mem_append, mem_singleton, not_or] at out
    rw [counted.mu]
    exact (update_of_ne out.2 _ _).trans (gathered.others x out.1)
  · rw [counted.trace] at mem
    exact gathered.given x g (given x g mem ne) ne
  · rw [counted.nbUsers, one, Nat.cast_add, ← gathered.nbUsers]
    simp only [user]
    split <;> rfl
  · rw [counted.traffic]
    unfold MuHw.groupTraffic
    rw [List.filter_append, List.foldl_append, List.filter_singleton]
    simp only [user]
    split
    · case isTrue mem =>
      rw [decide_eq_true mem]
      exact congrArg (addInt · _) (gathered.traffic g)
    · case isFalse out =>
      rw [decide_eq_false out]
      exact gathered.traffic g
  · rw [← append_assoc, countP_append]
    rcases (counted.mem g).mp mem with old | ⟨mem, once⟩
    · have two := gathered.order g old
      omega
    · have first := (gathered.nbUsers g).symm.trans once
      have all := one g
      rw [if_pos ((user g).mp mem), countP_append] at all
      rw [countP_append]
      omega
  · rw [one] at two
    refine (counted.mem g).mpr ?_
    by_cases already : 2 ≤ list.countP fun x => s.User g x
    · exact .inl (gathered.listed g already)
    · split at two
      · case isTrue mem => exact .inr ⟨(user g).mpr mem, (gathered.nbUsers g).trans (by omega)⟩
      · omega

theorem gather_all (inv : Consistent s) (kept : Kept s base.mu) (nodup : (done ++ list).Nodup)
    (same : ∀ sta ∈ list, base.mu.info sta = s.info sta) (distinct : base.order.Nodup)
    (order : ∀ g ∈ base.order, 2 ≤ done.countP fun sta => s.User g sta) :
    ∃ q, list.foldlM Selection.gather { base with nbUsers := fun _ => 0, traffic := fun _ => 0 } = some q ∧
      Gathered s done base list q := by
  refine foldlM_keeps ⟨kept, (fun _ mem => nomatch mem), fun _ _ => rfl, fun _ _ mem _ => mem, fun _ => rfl,
    fun _ => rfl, distinct, fun g mem => (List.append_nil done).symm ▸ order g mem, (fun _ two => nomatch two)⟩
    fun first sta rest split q gathered => ?_
  rw [split, show first ++ sta :: rest = (first ++ [sta]) ++ rest by rw [append_assoc]; rfl, ← append_assoc] at nodup
  exact gathered.station inv (nodup_append.mp nodup).1 (same sta (by rw [split]; simp))

end Statistics

/-! ### The groups in traffic order -/

/-- The groups `done` of the order are selected, or passed over. -/
structure Chosen (s : MuHw S) (list : List S) (base : Selection S) (done : List (Fin arraySize)) (q : Selection S) :
    Prop where
  kept : Kept s q.mu
  order : q.order = base.order
  still : ∀ sta, (q.mu.info sta).traffic = (base.mu.info sta).traffic
  others : ∀ sta ∉ list, q.mu.info sta = base.mu.info sta
  given : ∀ sta g, (sta, g) ∈ q.trace → g ≠ 0 → (sta, g) ∈ base.trace ∨ sta ∈ list ∧ (q.mu.info sta).group = g
  paired : ∀ sta ∈ list, Paired s q.mu list sta
  chosen : ∀ sta ∈ list, (q.mu.info sta).group ≠ 0 → ∃ g ∈ done, g.val = (q.mu.info sta).group
  low : ∀ (g : Fin arraySize), ∀ sta ∈ list, (q.mu.info sta).group ≠ 0 → s.User g sta → g ≠ (q.mu.info sta).group →
    q.nbUsers g ≤ 1
  most : ∀ g, q.nbUsers g ≤ list.countP fun sta => s.User g sta
  taken : ∀ g, q.nbUsers g = list.countP (fun sta => s.User g sta) ∨
    ∃ sta ∈ list, (q.mu.info sta).group ≠ 0 ∧ s.User g sta
  best : ∀ g ∈ done, 2 ≤ (list.countP fun sta => s.User g sta) → ∃ sta ∈ list, s.User g sta ∧ Served s q.mu list g sta

section Order

variable {s : MuHw S} {list : List S} {base q : Selection S} {done : List (Fin arraySize)} {g : Fin arraySize}

theorem release_all (p : Selection S) {ids : List ℕ} (inside : ∀ id ∈ ids, id ∈ groupIds) (distinct : ids.Nodup) :
    ids.foldlM (fun q id => q.release g id) p =
      some { p with nbUsers := fun h => p.nbUsers h - if h ≠ g ∧ h.val ∈ ids then 1 else 0 } := by
  suffices keeps : ∃ q, ids.foldlM (fun q id => q.release g id) p = some q ∧
      q = { p with nbUsers := fun h => p.nbUsers h - if h ≠ g ∧ h.val ∈ ids then 1 else 0 } by
    obtain ⟨q, eq, rfl⟩ := keeps
    exact eq
  refine foldlM_keeps
    (I := fun ids q => q = { p with nbUsers := fun h => p.nbUsers h - if h ≠ g ∧ h.val ∈ ids then 1 else 0 })
    (show p = { p with nbUsers := fun h => p.nbUsers h - if h ≠ g ∧ h.val ∈ ([] : List ℕ) then 1 else 0 } by simp)
    fun done id rest split q same => ?_
  obtain ⟨h, index, val⟩ := toIndex_groupIds (inside id (by rw [split]; simp))
  have new : id ∉ done := by
    rw [split] at distinct
    exact fun old => (List.disjoint_of_nodup_append distinct) old (.head _)
  have mem : ∀ k : Fin arraySize, k.val ∈ done ++ [id] ↔ k.val ∈ done ∨ k = h := fun k => by
    rw [mem_append, mem_singleton, ← val, Fin.val_inj]
  subst same
  unfold Selection.release
  by_cases own : id = g
  · have eq : h = g := Fin.val_inj.mp (val.trans own)
    rw [if_pos own]
    refine ⟨_, rfl, congrArg (fun nb => { p with nbUsers := nb }) (funext fun k => ?_)⟩
    by_cases here : k = g
    · simp [here]
    · simp [mem, here, eq]
  · rw [if_neg own, index]
    refine ⟨_, rfl, congrArg (fun nb => { p with nbUsers := nb }) (funext fun k => ?_)⟩
    by_cases here : k = h
    · subst here
      have other : k ≠ g := fun same => own (val.symm.trans (Fin.val_inj.mpr same))
      rw [update_self, if_pos ⟨other, (mem k).mpr (.inr rfl)⟩]
      dsimp only
      rw [if_neg fun both => new (val ▸ both.2), sub_zero]
    · rw [update_of_ne here]
      simp only [mem, here, or_false]

theorem assign_some (kept : Kept s q.mu) {sta : S} (user : s.User g sta) :
    q.assign g (some sta) = some { q with
      mu := q.mu.setInfo sta { q.mu.info sta with group := g }
      trace := q.trace ++ [(sta, g.val)]
      nbUsers := fun h => q.nbUsers h - if h ≠ g ∧ s.User h sta then 1 else 0 } := by
  have keeps := kept.give sta g
  have ids : ∀ id, id ∈ (q.mu.setInfo sta { q.mu.info sta with group := g }).groupStaForEach sta ↔ s.User id sta := by
    intro id
    rw [mem_groupStaForEach keeps]
    exact ⟨fun both => ⟨both.1, both.2, user.2.2⟩, fun all => ⟨all.1, all.2.1⟩⟩
  unfold Selection.assign
  dsimp only
  rw [release_all _ (fun id mem => ((ids id).mp mem).1) (groupStaForEach_nodup _ sta)]
  simp only [ids]

theorem select_two (kept : Kept s q.mu) {x y : S} (ne : x ≠ y) (zero : (s.groups g).users 0 = some x)
    (one : (s.groups g).users 1 = some y) (first : s.User g x) (second : s.User g y) (two : ¬q.nbUsers g < 2) :
    ∃ mu, q.select g = some { q with
        mu := mu
        trace := q.trace ++ [(x, g.val)] ++ [(y, g.val)]
        nbUsers := fun h => q.nbUsers h - (if h ≠ g ∧ s.User h x then 1 else 0) -
          if h ≠ g ∧ s.User h y then 1 else 0 } ∧ Kept s mu ∧
      ∀ sta, mu.info sta = if sta = x ∨ sta = y then { q.mu.info sta with group := g } else q.mu.info sta := by
  have keeps := kept.give x g
  have later := assign_some (q := { q with
    mu := q.mu.setInfo x { q.mu.info x with group := g }
    trace := q.trace ++ [(x, g.val)]
    nbUsers := fun h => q.nbUsers h - if h ≠ g ∧ s.User h x then 1 else 0 }) keeps second
  refine ⟨_, ?_, keeps.give y g, fun sta => ?_⟩
  · unfold Selection.select
    rw [if_neg two]
    show (q.assign g ((q.mu.groups g).users 0)).bind _ = _
    rw [kept.groups, zero, assign_some kept first]
    show (Selection.assign _ g ((s.groups g).users 1)).bind _ = _
    rw [one, later]
    rfl
  by_cases own : sta = y
  · subst own
    rw [if_pos (.inr rfl)]
    refine (update_self _ _ _).trans ?_
    rw [show (q.mu.setInfo x { q.mu.info x with group := g }).info sta = q.mu.info sta from
      update_of_ne ne.symm _ _]
  · refine (update_of_ne own _ _).trans ?_
    by_cases other : sta = x
    · subst other
      rw [if_pos (.inl rfl)]
      exact update_self _ _ _
    · rw [if_neg (not_or.mpr ⟨other, own⟩)]
      exact update_of_ne other _ _

theorem Chosen.group (inv : Consistent s) (chosen : Chosen s list base done q) (nodup : list.Nodup) (new : g ∉ done)
    (sorted : ∀ h ∈ done, s.groupTraffic list g ≤ s.groupTraffic list h) :
    ∃ r, q.select g = some r ∧ Chosen s list base (done ++ [g]) r := by
  by_cases two : q.nbUsers g < 2
  · refine ⟨q, if_pos two, { chosen with
      chosen := fun sta mem set => ?_
      best := fun h mem many => ?_ }⟩
    · obtain ⟨h, old, val⟩ := chosen.chosen sta mem set
      exact ⟨h, mem_append_left _ old, val⟩
    · rcases mem_append.mp mem with old | last
      · exact chosen.best h old many
      · obtain rfl := mem_singleton.mp last
        rcases chosen.taken h with all | ⟨sta, mem, set, user⟩
        · omega
        · obtain ⟨k, old, val⟩ := chosen.chosen sta mem set
          exact ⟨sta, mem, user, set, val ▸ sorted k old⟩
  -- both users are left: none of them has a group
  have most := chosen.most g
  obtain ⟨x, inX, y, inY, ne, userX, userY, zero, one⟩ : ∃ x ∈ list, ∃ y ∈ list, x ≠ y ∧ s.User g x ∧ s.User g y ∧
      (s.groups g).users 0 = some x ∧ (s.groups g).users 1 = some y := by
    obtain ⟨a, inA, b, inB, ne, first, second⟩ := two_of_count nodup (show 2 ≤ list.countP fun sta => s.User g sta by omega)
    rcases users_of_two inv ne first second with ⟨zero, one⟩ | ⟨zero, one⟩
    · exact ⟨a, inA, b, inB, ne, first, second, zero, one⟩
    · exact ⟨b, inB, a, inA, ne.symm, second, first, zero, one⟩
  have free : ∀ sta ∈ list, s.User g sta → (q.mu.info sta).group = 0 := by
    intro sta mem user
    by_contra set
    obtain ⟨h, old, val⟩ := chosen.chosen sta mem set
    have low := chosen.low g sta mem set user fun same => new (Fin.val_inj.mp (same.trans val.symm) ▸ old)
    omega
  obtain ⟨mu, eq, kept, info⟩ := select_two chosen.kept ne zero one userX userY two
  have group : ∀ sta, (mu.info sta).group = if sta = x ∨ sta = y then g.val else (q.mu.info sta).group := by
    intro sta
    rw [info]
    split <;> rfl
  have old : ∀ sta ∈ list, (q.mu.info sta).group ≠ 0 → (mu.info sta).group = (q.mu.info sta).group := by
    intro sta mem set
    rw [group, if_neg]
    rintro (rfl | rfl)
    · exact set (free sta mem userX)
    · exact set (free sta mem userY)
  have mine : ∀ sta, sta = x ∨ sta = y → (mu.info sta).group = g := fun sta own => by rw [group, if_pos own]
  have cases : ∀ sta, (mu.info sta).group ≠ 0 → sta = x ∨ sta = y ∨
      (q.mu.info sta).group ≠ 0 ∧ (mu.info sta).group = (q.mu.info sta).group := by
    intro sta set
    by_cases own : sta = x ∨ sta = y
    · exact own.elim .inl fun same => .inr (.inl same)
    · have same : (mu.info sta).group = (q.mu.info sta).group := by rw [group, if_neg own]
      exact .inr (.inr ⟨same ▸ set, same⟩)
  have pos : g.val ≠ 0 := groupIds_ne_zero userX.1
  refine ⟨_, eq, kept, chosen.order, fun sta => ?_, fun sta out => ?_,
    fun sta h mem set => ?_, fun sta mem set => ?_, fun sta mem set => ?_, fun h sta mem set user ne => ?_,
    fun h => ?_, fun h => ?_, fun h mem many => ?_⟩
  · rw [← chosen.still, info]
    split <;> rfl
  · rw [info, if_neg, chosen.others sta out]
    rintro (rfl | rfl)
    · exact out inX
    · exact out inY
  · rcases mem_append.mp mem with earlier | last
    · rcases mem_append.mp earlier with earlier | last
      · exact (chosen.given sta h earlier set).imp_right fun ⟨mem, same⟩ =>
          ⟨mem, (old sta mem (same ▸ set)).trans same⟩
      · obtain ⟨rfl, rfl⟩ := Prod.mk.inj (mem_singleton.mp last)
        exact .inr ⟨inX, mine _ (.inl rfl)⟩
    · obtain ⟨rfl, rfl⟩ := Prod.mk.inj (mem_singleton.mp last)
      exact .inr ⟨inY, mine _ (.inr rfl)⟩
  · rcases cases sta set with rfl | rfl | ⟨set, same⟩
    · rw [mine _ (.inl rfl)]
      exact ⟨userX, y, inY, ne.symm, userY, mine y (.inr rfl)⟩
    · rw [mine _ (.inr rfl)]
      exact ⟨userY, x, inX, ne, userX, mine x (.inl rfl)⟩
    · obtain ⟨user, other, inside, different, user', same'⟩ := chosen.paired sta mem set
      rw [same]
      exact ⟨user, other, inside, different, user', (old other inside (same'.symm ▸ set)).trans same'⟩
  · rcases cases sta set with rfl | rfl | ⟨set, same⟩
    · exact ⟨g, by simp, (mine _ (.inl rfl)).symm⟩
    · exact ⟨g, by simp, (mine _ (.inr rfl)).symm⟩
    · obtain ⟨h, earlier, val⟩ := chosen.chosen sta mem set
      exact ⟨h, mem_append_left _ earlier, val.trans same.symm⟩
  · have most := (chosen.most h).trans (Int.ofNat_le.mpr (count_le_two inv nodup h))
    dsimp only
    rcases cases sta set with rfl | rfl | ⟨set, same⟩
    · rw [mine _ (.inl rfl), Ne, Fin.val_inj] at ne
      rw [if_pos ⟨ne, user⟩]
      split <;> omega
    · rw [mine _ (.inr rfl), Ne, Fin.val_inj] at ne
      rw [if_pos (show h ≠ g ∧ s.User h sta from ⟨ne, user⟩)]
      split <;> omega
    · have low := chosen.low h sta mem set user (same ▸ ne)
      split <;> split <;> omega
  · have most := chosen.most h
    dsimp only
    split <;> split <;> omega
  · dsimp only
    split
    · case isTrue both => exact .inr ⟨x, inX, mine x (.inl rfl) ▸ pos, both.2⟩
    split
    · case isTrue both => exact .inr ⟨y, inY, mine y (.inr rfl) ▸ pos, both.2⟩
    rcases chosen.taken h with all | ⟨sta, mem, set, user⟩
    · exact .inl (by omega)
    · exact .inr ⟨sta, mem, old sta mem set ▸ set, user⟩
  · rcases mem_append.mp mem with earlier | last
    · obtain ⟨sta, mem, user, set, le⟩ := chosen.best h earlier many
      have same := old sta mem set
      exact ⟨sta, mem, user, same ▸ set, same ▸ le⟩
    · obtain rfl := mem_singleton.mp last
      have same := mine x (.inl rfl)
      exact ⟨x, inX, userX, same ▸ pos, same.symm ▸ le_refl _⟩

theorem select_all (inv : Consistent s) (nodup : list.Nodup) (kept : Kept s base.mu)
    (none : ∀ sta ∈ list, (base.mu.info sta).group = 0)
    (nbUsers : ∀ g, base.nbUsers g = list.countP fun sta => s.User g sta) (distinct : base.order.Nodup)
    (sorted : base.order.Pairwise fun g h : Fin arraySize => s.groupTraffic list h ≤ s.groupTraffic list g) :
    ∃ q, base.order.foldlM Selection.select base = some q ∧ Chosen s list base base.order q := by
  refine foldlM_keeps ⟨kept, rfl, fun _ => rfl, fun _ _ => rfl, fun _ _ mem _ => .inl mem,
    fun sta mem set => absurd (none sta mem) set, fun sta mem set => absurd (none sta mem) set,
    fun _ sta mem set => absurd (none sta mem) set, fun g => (nbUsers g).le, fun g => .inl (nbUsers g),
    (fun _ mem => nomatch mem)⟩ fun done g rest split q chosen => ?_
  rw [split] at distinct sorted
  exact chosen.group inv nodup (fun old => (List.disjoint_of_nodup_append distinct) old (.head _))
    fun h old => (List.pairwise_append.mp sorted).2.2 h old g (.head _)

end Order

/-! ### The interfaces -/

/-- The interfaces with the stations `lists` are done. -/
structure Between (s : MuHw S) (lists : List (List S)) (p : Selection S) : Prop where
  kept : Kept s p.mu
  reset : ∀ sta ∈ lists.flatten, (p.mu.info sta).traffic = 0
  others : ∀ sta ∉ lists.flatten, p.mu.info sta = s.info sta
  paired : ∀ sta ∈ lists.flatten, Paired s p.mu lists.flatten sta
  given : ∀ sta g, (sta, g) ∈ p.trace → g ≠ 0 → sta ∈ lists.flatten ∧ (p.mu.info sta).group = g
  best : ∀ list ∈ lists, ∀ g : Fin arraySize, 2 ≤ (list.countP fun sta => s.User g sta) →
    ∃ sta ∈ list, s.User g sta ∧ Served s p.mu list g sta
  nodup : p.order.Nodup
  order : ∀ g ∈ p.order, 2 ≤ lists.flatten.countP fun sta => s.User g sta

theorem Between.interface {s : MuHw S} {lists : List (List S)} {p : Selection S} (inv : Consistent s)
    (between : Between s lists p) {fuel : ℕ} (enough : arraySize * arraySize < fuel) {list : List S}
    (nodup : (lists ++ [list]).flatten.Nodup) :
    ∃ q, p.interface fuel list = some q ∧ Between s (lists ++ [list]) q := by
  have flat : (lists ++ [list]).flatten = lists.flatten ++ list := by rw [List.flatten_append, List.flatten_singleton]
  rw [flat] at nodup
  have apart : ∀ sta ∈ lists.flatten, sta ∉ list := fun sta old mem => (List.disjoint_of_nodup_append nodup) old mem
  obtain ⟨q, gathers, gathered⟩ := gather_all inv between.kept nodup
    (fun sta mem => between.others sta fun old => apart sta old mem) between.nodup between.order
  have short := gathered.nodup.length_le_card
  rw [Fintype.card_fin] at short
  obtain ⟨order, sorts, perm, sorted⟩ := bubble_sorted
    (((inversions_le q.traffic q.order).trans (Nat.mul_le_mul short short)).trans_lt enough)
  obtain ⟨r, selects, chosen⟩ : ∃ r, order.foldlM Selection.select { q with order := order } = some r ∧
      Chosen s list { q with order := order } order r :=
    select_all inv (nodup_append.mp nodup).2.1 gathered.kept (fun sta mem => (gathered.reset sta mem).2)
      gathered.nbUsers (perm.nodup_iff.mpr gathered.nodup) (by simpa only [gathered.traffic] using sorted)
  have out : ∀ sta ∉ list, r.mu.info sta = p.mu.info sta := fun sta absent =>
    (chosen.others sta absent).trans (gathered.others sta absent)
  refine ⟨r, ?_, chosen.kept, fun sta mem => ?_, fun sta absent => ?_, fun sta mem set => ?_, fun sta g mem set => ?_,
    fun list' mem g many => ?_, ?_, fun g mem => ?_⟩
  · unfold Selection.interface
    rw [gathers, bind_some, sorts, bind_some, selects]
  · rw [flat] at mem
    rcases mem_append.mp mem with old | new
    · rw [out sta (apart sta old)]
      exact between.reset sta old
    · rw [chosen.still]
      exact (gathered.reset sta new).1
  · rw [flat, mem_append, not_or] at absent
    rw [out sta absent.2, between.others sta absent.1]
  · rw [flat] at mem ⊢
    rcases mem_append.mp mem with old | new
    · rw [out sta (apart sta old)] at set ⊢
      obtain ⟨user, other, inside, ne, user', same⟩ := between.paired sta old set
      refine ⟨user, other, mem_append_left _ inside, ne, user', ?_⟩
      rw [out other (apart other inside), same]
    · obtain ⟨user, other, inside, rest⟩ := chosen.paired sta new set
      exact ⟨user, other, List.mem_append_right _ inside, rest⟩
  · rw [flat]
    rcases chosen.given sta g mem set with old | ⟨new, same⟩
    · obtain ⟨inside, same⟩ := between.given sta g (gathered.given sta g old set) set
      exact ⟨mem_append_left _ inside, by rw [out sta (apart sta inside), same]⟩
    · exact ⟨List.mem_append_right _ new, same⟩
  · rcases mem_append.mp mem with old | last
    · obtain ⟨sta, inside, user, served⟩ := between.best list' old g many
      refine ⟨sta, inside, user, ?_⟩
      unfold Served
      rw [out sta (apart sta (List.mem_flatten.mpr ⟨list', old, inside⟩))]
      exact served
    · obtain rfl := mem_singleton.mp last
      exact chosen.best g (perm.mem_iff.mpr (gathered.listed g many)) many
  · rw [chosen.order]
    exact perm.nodup_iff.mpr gathered.nodup
  · rw [flat]
    rw [chosen.order] at mem
    exact gathered.order g (perm.mem_iff.mp mem)

/-- **Every selection** ends, stays inside its arrays, and leaves what it should when it is due; otherwise it
changes nothing. -/
theorem staSelect_right {s : SelectHw S} (inv : Consistent s.mu) (nodup : s.apLists.flatten.Nodup) {fuel : ℕ}
    (enough : arraySize * arraySize < fuel) (interval jiffies : BitVec 64) :
    ∃ t trace, staSelect fuel interval jiffies s = some (t, trace) ∧
      if s.Due jiffies then SelectRight s t trace else t = s ∧ trace = [] := by
  unfold staSelect
  by_cases due : s.Due jiffies
  · rw [if_pos due]
    have start : Between s.mu [] ⟨s.mu, fun _ => 0, fun _ => 0, [], []⟩ :=
      ⟨⟨_, _, rfl⟩, (fun _ mem => nomatch mem), fun _ _ => rfl, (fun _ mem => nomatch mem), (fun _ _ mem => nomatch mem),
        (fun _ mem => nomatch mem), .nil, (fun _ mem => nomatch mem)⟩
    obtain ⟨p, eq, between⟩ := foldlM_keeps (f := fun p : Selection S => p.interface fuel) (I := Between s.mu) start
      fun done list rest (split : s.apLists = done ++ list :: rest) p between => between.interface inv enough (by
        rw [split, show done ++ list :: rest = (done ++ [list]) ++ rest by rw [List.append_assoc]; rfl,
          List.flatten_append] at nodup
        exact (List.nodup_append.mp nodup).1)
    rw [eq]
    refine ⟨_, _, rfl, ?_⟩
    rw [if_pos due]
    refine ⟨between.kept, between.reset, between.others, between.paired,
      fun sta g mem set => (between.given sta g mem set).2, fun list mem g a inA b inB ne first second => ?_⟩
    obtain ⟨sta, -, user, served⟩ := between.best list mem
      ⟨g, Nat.lt_succ_of_le (Finset.mem_Icc.mp first.1).2⟩ (count_of_two inA inB ne first second)
    rcases third_user inv ne first second user with rfl | rfl
    · exact .inl served
    · exact .inr served
  · rw [if_neg due]
    refine ⟨s, [], rfl, ?_⟩
    rw [if_neg due]
    exact ⟨rfl, rfl⟩

/-- Two stations, both active, and a group of the two. -/
def formed : MuHw ℕ :=
  ((((init.staInit 0 true).staInit 1 true).setActiveSta 0 60).setActiveSta 1 60).groupWork

theorem formed_consistent : Consistent formed := by
  have first : MuInv ((init : MuHw ℕ).staInit 0 true) := MuInv.init.staInit rfl true
  have added : MuInv (((init : MuHw ℕ).staInit 0 true).staInit 1 true) := first.staInit rfl true
  have one : MuInv ((((init : MuHw ℕ).staInit 0 true).staInit 1 true).setActiveSta 0 60) := added.setActiveSta rfl 60
  have both : MuInv (((((init : MuHw ℕ).staInit 0 true).staInit 1 true).setActiveSta 0 60).setActiveSta 1 60) :=
    one.setActiveSta rfl 60
  exact (both.step (a := .groupWork) trivial rfl).consistent

theorem staSelect_right_pair : ∃ t trace, staSelect 4000 1 0 ⟨formed, [⟨true, [0, 1]⟩], 0⟩ = some (t, trace) ∧
    SelectRight ⟨formed, [⟨true, [0, 1]⟩], 0⟩ t trace := by
  obtain ⟨t, trace, eq, right⟩ := staSelect_right (s := ⟨formed, [⟨true, [0, 1]⟩], 0⟩) formed_consistent
    (by decide) (show arraySize * arraySize < 4000 by decide) 1 0
  rw [if_pos (by decide +kernel)] at right
  exact ⟨t, trace, eq, right⟩

/-- A selection for all stations, at any time and over all interfaces. -/
structure SelectAlways (s t : SelectHw S) : Prop where
  reset : ∀ sta ∈ s.apLists.flatten, (t.mu.info sta).traffic = 0
  paired : ∀ sta ∈ s.apLists.flatten, Paired s.mu t.mu s.apLists.flatten sta
  chosen : ∀ g, ∀ a ∈ s.apLists.flatten, ∀ b ∈ s.apLists.flatten, a ≠ b → s.mu.User g a → s.mu.User g b →
    ¬((t.mu.info a).group = 0 ∧ (t.mu.info b).group = 0)

/-- **Before the time** the traffic stays, and **at two interfaces** two active users of a group get no group. -/
theorem select_not_always : (¬∀ s : SelectHw ℕ, Consistent s.mu → s.apLists.flatten.Nodup → ∀ jiffies,
      ∃ t trace, staSelect 4000 1 jiffies s = some (t, trace) ∧ SelectAlways s t) ∧
    ¬∀ s : SelectHw ℕ, Consistent s.mu → s.apLists.flatten.Nodup → ∀ jiffies, s.Due jiffies →
      ∃ t trace, staSelect 4000 1 jiffies s = some (t, trace) ∧ SelectAlways s t := by
  constructor
  · intro claimed
    obtain ⟨t, trace, eq, always⟩ := claimed ⟨formed, [⟨true, [0, 1]⟩], 1⟩ formed_consistent (by decide) 0
    have stays : (staSelect 4000 1 0 ⟨formed, [⟨true, [0, 1]⟩], 1⟩).map (fun r => (r.1.mu.info 0).traffic) = some 60 := by
      decide +kernel
    rw [eq, Option.map_some, always.reset 0 (by decide)] at stays
    cases stays
  · intro claimed
    obtain ⟨t, trace, eq, always⟩ := claimed ⟨formed, [⟨true, [0]⟩, ⟨true, [1]⟩], 0⟩ formed_consistent (by decide) 0
      (by decide +kernel)
    have first : (staSelect 4000 1 0 ⟨formed, [⟨true, [0]⟩, ⟨true, [1]⟩], 0⟩).map (fun r => (r.1.mu.info 0).group) =
      some 0 := by decide +kernel
    have second : (staSelect 4000 1 0 ⟨formed, [⟨true, [0]⟩, ⟨true, [1]⟩], 0⟩).map (fun r => (r.1.mu.info 1).group) =
      some 0 := by decide +kernel
    rw [eq] at first second
    exact always.chosen 1 0 (by decide) 1 (by decide) (by decide) (by decide +kernel) (by decide +kernel)
      ⟨Option.some.inj first, Option.some.inj second⟩

end W2l.Mu
