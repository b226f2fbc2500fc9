/-
**MU groups: the bitmaps of the stations mirror the tables of the groups.**

* `Consistent` — **what the counters and the maps say**: a station has the bit of a group iff it is in its table,
  and every counter is the number it stands for; no group has one user, and no two have the same users.
* `Guard` — **when a step keeps that**: a station that is removed is in no group.
-/

import Mathlib.Algebra.BigOperators.Fin
import W2lDriver.Mu.Groups

set_option linter.unusedSectionVars false

namespace W2l.Mu

open Lib (System clearBit getLsbD_setBit getLsbD_clearBit countIn countIn_congr countIn_setBit
  countIn_clearBit countIn_zero zero_getLsbD)
open Function (update update_eq_self update_idem update_of_ne update_self)
open Bool (and_eq_true and_eq_true_iff eq_false_iff)
open Finset (mem_Icc mem_filter)
open Option (some.inj)
open List (finRange mem_cons mem_cons_of_mem mem_cons_self mem_range mem_reverse nodup_cons)
open BitVec (getLsbD_and)

variable {S : Type} [DecidableEq S]

def groupIds : Finset ℕ := Finset.Icc 1 nxMuGroupMax

def MuGroup.occupied (group : MuGroup S) : Finset (Fin configUserMax) :=
  Finset.univ.filter fun i => group.users i ≠ none

def MuGroup.members (group : MuGroup S) : Set S := {sta | ∃ i, group.users i = some sta}

def MuHw.nonEmpty (s : MuHw S) : Finset ℕ := groupIds.filter fun g => (s.groups g).occupied ≠ ∅

/-- **What the counters and the maps say.** -/
structure Consistent (s : MuHw S) : Prop where
  mirror : ∀ sta, ∀ g ∈ groupIds, (s.info sta).map.getLsbD g = true ↔ sta ∈ (s.groups g).members
  cnt : ∀ sta, (s.info sta).cnt = countIn groupIds (s.info sta).map
  userCnt : ∀ g ∈ groupIds, (s.groups g).userCnt = (s.groups g).occupied.card
  groupCnt : s.groupCnt.toNat = s.nonEmpty.card
  notOne : ∀ g ∈ groupIds, (s.groups g).occupied.card ≠ 1
  distinct : ∀ g ∈ groupIds, ∀ g' ∈ groupIds, g ≠ g' → (s.groups g).occupied ≠ ∅ →
    (s.groups g).members ≠ (s.groups g').members

/-- **When a step keeps that**: a station that is removed is in no group. -/
def Guard (s : MuHw S) : MuAct S → Prop
  | .staDel sta => (s.info sta).map &&& amlMuGroupMask = 0
  | _ => True

instance (s : MuHw S) : ∀ a, Decidable (Guard s a)
  | .staInit .. => .isTrue trivial
  | .staDel sta => inferInstanceAs (Decidable ((s.info sta).map &&& amlMuGroupMask = 0))
  | .setActiveSta .. => .isTrue trivial
  | .setActiveGroup _ => .isTrue trivial
  | .groupWork => .isTrue trivial
  | .groupUpdate => .isTrue trivial

/-! ### Tables -/

theorem MuGroup.card_occupied (group : MuGroup S) : group.occupied.card =
    (if group.users 0 ≠ none then 1 else 0) + if group.users 1 ≠ none then 1 else 0 := by
  rw [MuGroup.occupied, Finset.card_filter, Fin.sum_univ_two]

theorem MuGroup.card_occupied_eq (group : MuGroup S) {first second : Option S} (zero : group.users 0 = first)
    (one : group.users 1 = second) :
    group.occupied.card = (if first ≠ none then 1 else 0) + if second ≠ none then 1 else 0 := by
  subst zero one
  exact group.card_occupied

theorem MuGroup.full {group : MuGroup S} (notOne : group.occupied.card ≠ 1) {i : Fin configUserMax} {sta : S}
    (there : group.users i = some sta) : ∃ first second, group.users 0 = some first ∧ group.users 1 = some second := by
  rw [group.card_occupied] at notOne
  cases first : group.users 0 with
  | none =>
    cases second : group.users 1 with
    | none =>
      match i, there with
      | 0, there => rw [first] at there; cases there
      | 1, there => rw [second] at there; cases there
    | some _ =>
      rw [first, second] at notOne
      exact absurd rfl notOne
  | some a =>
    cases second : group.users 1 with
    | none =>
      rw [first, second] at notOne
      exact absurd rfl notOne
    | some b => exact ⟨a, b, rfl, rfl⟩

theorem MuGroup.occupied_empty (n : Int) : (⟨n, fun _ => none⟩ : MuGroup S).occupied = ∅ :=
  Finset.filter_eq_empty_iff.mpr fun _ _ wrong => wrong rfl

theorem groupIds_small {g : ℕ} (mem : g ∈ groupIds) : g < 64 :=
  Nat.lt_of_le_of_lt (mem_Icc.mp mem).2 (by decide)

theorem groupIds_ne_zero {g : ℕ} (mem : g ∈ groupIds) : g ≠ 0 :=
  Nat.ne_of_gt (mem_Icc.mp mem).1

theorem getLsbD_mask (i : ℕ) : amlMuGroupMask.getLsbD i = decide (i ∈ groupIds) := by
  by_cases small : i < 64
  · have all : ∀ i < 64, amlMuGroupMask.getLsbD i = decide (i ∈ groupIds) := by decide
    exact all i small
  · rw [BitVec.getLsbD_of_ge _ _ (Nat.not_lt.mp small), decide_eq_false fun mem => small (groupIds_small mem)]

/-! ### Maps and tables -/

/-- The maps mirror the tables. -/
structure Mirror (s : MuHw S) : Prop where
  mirror : ∀ sta, ∀ g ∈ groupIds, (s.info sta).map.getLsbD g = true ↔ ∃ i, (s.groups g).users i = some sta
  cnt : ∀ sta, (s.info sta).cnt = countIn groupIds (s.info sta).map
  single : ∀ g ∈ groupIds, ∀ i j sta, (s.groups g).users i = some sta → (s.groups g).users j = some sta → i = j
  bits : ∀ sta i, (s.info sta).map.getLsbD i = true → i ≤ nxMuGroupMax

/-- What stays when groups change. -/
structure Frame (s u : MuHw S) : Prop where
  present : u.present = s.present
  activeSta : u.activeSta = s.activeSta
  su : ∀ sta, (u.info sta).map.getLsbD 0 = (s.info sta).map.getLsbD 0

theorem Frame.refl (s : MuHw S) : Frame s s := ⟨rfl, rfl, fun _ => rfl⟩

theorem Frame.trans {s t u : MuHw S} (first : Frame s t) (second : Frame t u) : Frame s u :=
  ⟨second.present.trans first.present, second.activeSta.trans first.activeSta,
    fun sta => (second.su sta).trans (first.su sta)⟩

namespace Mirror

variable {s : MuHw S}

section

variable (mir : Mirror s)

include mir

theorem leave {id : ℕ} (mem : id ∈ groupIds) {i : Fin configUserMax} {sta : S}
    (there : (s.groups id).users i = some sta) {u : MuHw S} {n : Int}
    (groups : u.groups = update s.groups id ⟨n, update (s.groups id).users i none⟩)
    {new : GroupInfo} (info : u.info = update s.info sta new)
    (cnt : new.cnt = (s.info sta).cnt - 1) (map : new.map = clearBit (s.info sta).map id) : Mirror u := by
  have users : ∀ g k x, (u.groups g).users k = some x ↔ (s.groups g).users k = some x ∧ ¬(g = id ∧ k = i) := by
    intro g k x
    rw [groups]
    by_cases here : g = id
    · subst here
      rw [update_self]
      show update (s.groups g).users i none k = some x ↔ _
      by_cases own : k = i
      · subst own
        rw [update_self]
        exact ⟨fun wrong => (nomatch wrong), fun both => absurd ⟨rfl, rfl⟩ both.2⟩
      · rw [update_of_ne own]
        exact ⟨fun there => ⟨there, fun both => own both.2⟩, And.left⟩
    · rw [update_of_ne here]
      exact ⟨fun there => ⟨there, fun both => here both.1⟩, And.left⟩
  have bit : ∀ x g, (u.info x).map.getLsbD g =
      ((s.info x).map.getLsbD g && !(decide (x = sta) && decide (id = g))) := by
    intro x g
    rw [info]
    by_cases own : x = sta
    · subst own
      rw [update_self, map, getLsbD_clearBit, decide_eq_true rfl, Bool.true_and]
    · rw [update_of_ne own, decide_eq_false own, Bool.false_and, Bool.not_false, Bool.and_true]
  have set : (s.info sta).map.getLsbD id = true := (mir.mirror sta id mem).mpr ⟨i, there⟩
  refine ⟨fun x g inside => ?_, fun x => ?_, fun g inside k l x first second => ?_, fun x j on => ?_⟩
  · rw [bit, and_eq_true, mir.mirror x g inside, Bool.not_eq_true', Bool.and_eq_false_iff,
      decide_eq_false_iff_not, decide_eq_false_iff_not]
    constructor
    · rintro ⟨⟨k, at'⟩, other⟩
      refine ⟨k, (users g k x).mpr ⟨at', ?_⟩⟩
      rintro ⟨rfl, rfl⟩
      rcases other with ne | ne
      · exact ne (some.inj (at'.symm.trans there))
      · exact ne rfl
    · rintro ⟨k, at'⟩
      obtain ⟨at', other⟩ := (users g k x).mp at'
      refine ⟨⟨k, at'⟩, ?_⟩
      by_contra both
      rw [not_or, not_not, not_not] at both
      obtain ⟨rfl, rfl⟩ := both
      exact other ⟨rfl, mir.single id inside k i x at' there⟩
  · rw [info]
    by_cases own : x = sta
    · subst own
      have counted := countIn_clearBit mem set
      rw [update_self, map, cnt, mir.cnt x, counted]
      omega
    · rw [update_of_ne own]
      exact mir.cnt x
  · exact mir.single g inside k l x ((users g k x).mp first).1 ((users g l x).mp second).1
  · rw [bit, and_eq_true] at on
    exact mir.bits x j on.1

theorem enter {id : ℕ} (mem : id ∈ groupIds) {j : Fin configUserMax} {sta : S}
    (free : (s.groups id).users j = none) (new : ∀ i, (s.groups id).users i ≠ some sta) :
    Mirror (s.addUser id j sta) := by
  have users : ∀ g k x, ((s.addUser id j sta).groups g).users k = some x ↔
      (s.groups g).users k = some x ∨ (g = id ∧ k = j ∧ x = sta) := by
    intro g k x
    show (update s.groups id _ g).users k = some x ↔ _
    by_cases here : g = id
    · subst here
      rw [update_self]
      show update (s.groups g).users j (some sta) k = some x ↔ _
      by_cases own : k = j
      · subst own
        rw [update_self, free]
        constructor
        · intro same
          exact .inr ⟨rfl, rfl, (some.inj same).symm⟩
        · rintro (wrong | ⟨-, -, rfl⟩)
          · cases wrong
          · rfl
      · rw [update_of_ne own]
        exact ⟨.inl, fun either => either.resolve_right fun both => own both.2.1⟩
    · rw [update_of_ne here]
      exact ⟨.inl, fun either => either.resolve_right fun both => here both.1⟩
  have small := groupIds_small mem
  have bit : ∀ x g, ((s.addUser id j sta).info x).map.getLsbD g =
      ((s.info x).map.getLsbD g || (decide (x = sta) && decide (id = g))) := by
    intro x g
    show (update s.info sta _ x).map.getLsbD g = _
    by_cases own : x = sta
    · subst own
      rw [update_self, getLsbD_setBit small, decide_eq_true rfl, Bool.true_and]
    · rw [update_of_ne own, decide_eq_false own, Bool.false_and, Bool.or_false]
  have clear : (s.info sta).map.getLsbD id = false := by
    refine eq_false_iff.mpr fun on => ?_
    obtain ⟨i, there⟩ := (mir.mirror sta id mem).mp on
    exact new i there
  refine ⟨fun x g inside => ?_, fun x => ?_, fun g inside k l x first second => ?_, fun x i on => ?_⟩
  · rw [bit, Bool.or_eq_true, mir.mirror x g inside, and_eq_true, decide_eq_true_eq, decide_eq_true_eq]
    constructor
    · rintro (⟨k, at'⟩ | ⟨rfl, rfl⟩)
      · exact ⟨k, (users g k x).mpr (.inl at')⟩
      · exact ⟨j, (users id j x).mpr (.inr ⟨rfl, rfl, rfl⟩)⟩
    · rintro ⟨k, at'⟩
      rcases (users g k x).mp at' with old | ⟨rfl, -, rfl⟩
      · exact .inl ⟨k, old⟩
      · exact .inr ⟨rfl, rfl⟩
  · show (update s.info sta _ x).cnt = countIn groupIds (update s.info sta _ x).map
    by_cases own : x = sta
    · subst own
      rw [update_self, countIn_setBit mem small clear]
      show (s.info x).cnt + 1 = _
      rw [mir.cnt x]
      rfl
    · rw [update_of_ne own]
      exact mir.cnt x
  · rcases (users g k x).mp first with old | ⟨rfl, rfl, rfl⟩
    · rcases (users g l x).mp second with old' | ⟨rfl, rfl, rfl⟩
      · exact mir.single g inside k l x old old'
      · exact absurd old (new k)
    · rcases (users _ l x).mp second with old' | ⟨-, rfl, -⟩
      · exact absurd old' (new l)
      · rfl
  · rw [bit, Bool.or_eq_true, and_eq_true, decide_eq_true_eq, decide_eq_true_eq] at on
    rcases on with old | ⟨-, rfl⟩
    · exact mir.bits x i old
    · exact (mem_Icc.mp mem).2

theorem sameMaps {u : MuHw S} (map : ∀ x, (u.info x).map = (s.info x).map)
    (cnt : ∀ x, (u.info x).cnt = (s.info x).cnt) (groups : u.groups = s.groups) : Mirror u := by
  refine ⟨fun x g inside => ?_, fun x => ?_, ?_, fun x i => ?_⟩
  · rw [map, groups]
    exact mir.mirror x g inside
  · rw [cnt, map]
    exact mir.cnt x
  · rw [groups]
    exact mir.single
  · rw [map]
    exact mir.bits x i

theorem congr {u : MuHw S} (info : u.info = s.info)
    (users : ∀ g, (u.groups g).users = (s.groups g).users) : Mirror u := by
  refine ⟨fun x g inside => ?_, fun x => ?_, fun g inside => ?_, fun x i => ?_⟩
  · rw [info, users]
    exact mir.mirror x g inside
  · rw [info]
    exact mir.cnt x
  · rw [users]
    exact mir.single g inside
  · rw [info]
    exact mir.bits x i

end

end Mirror

/-! ### Removing the users of a group -/

section Users

variable {s : MuHw S} {id : ℕ}

variable (i : Fin configUserMax)

theorem removeUser_groups : (s.removeUser id i).groups =
    update s.groups id ⟨(s.groups id).userCnt, update (s.groups id).users i none⟩ := by
  unfold MuHw.removeUser
  split
  · case h_1 free =>
    have same : update (s.groups id).users i none = (s.groups id).users := by
      rw [← free, update_eq_self]
    rw [same, update_eq_self]
  · rfl

theorem removeUser_groupCnt : (s.removeUser id i).groupCnt = s.groupCnt := by
  unfold MuHw.removeUser
  split <;> rfl

theorem removeUser_frame (mem : id ∈ groupIds) (i : Fin configUserMax) : Frame s (s.removeUser id i) := by
  unfold MuHw.removeUser
  split
  · exact Frame.refl s
  · case h_2 sta there =>
    refine ⟨rfl, rfl, fun x => ?_⟩
    show (update s.info sta _ x).map.getLsbD 0 = _
    by_cases own : x = sta
    · subst own
      rw [update_self, getLsbD_clearBit, decide_eq_false (groupIds_ne_zero mem), Bool.not_false, Bool.and_true]
    · rw [update_of_ne own]

theorem Mirror.removeUser (mir : Mirror s) (mem : id ∈ groupIds) (i : Fin configUserMax) :
    Mirror (s.removeUser id i) := by
  have groups : (s.removeUser id i).groups = _ := removeUser_groups i
  unfold MuHw.removeUser at groups ⊢
  split
  · exact mir
  · case h_2 sta there => exact mir.leave mem there rfl rfl rfl rfl

theorem removeUsers_eq : s.removeUsers id = let t := (s.removeUser id 0).removeUser id 1
    { t.setGroup id { t.groups id with userCnt := 0 } with
      groupCnt := if (t.groups id).userCnt ≠ 0 then t.groupCnt - 1 else t.groupCnt } := rfl

theorem removed_groups : ((s.removeUser id 0).removeUser id 1).groups =
    update s.groups id ⟨(s.groups id).userCnt, fun _ => none⟩ := by
  rw [removeUser_groups, removeUser_groups, update_self, update_idem]
  congr 2
  funext i
  match i with
  | 0 =>
    show update (update (s.groups id).users 0 none) 1 none 0 = none
    rw [update_of_ne (by decide), update_self]
  | 1 =>
    show update (update (s.groups id).users 0 none) 1 none 1 = none
    rw [update_self]

theorem removeUsers_groups : (s.removeUsers id).groups = update s.groups id ⟨0, fun _ => none⟩ := by
  rw [removeUsers_eq]
  show update ((s.removeUser id 0).removeUser id 1).groups id _ = _
  rw [removed_groups, update_self, update_idem]

theorem removeUsers_groupCnt : (s.removeUsers id).groupCnt =
    if (s.groups id).userCnt ≠ 0 then s.groupCnt - 1 else s.groupCnt := by
  rw [removeUsers_eq]
  show (if (((s.removeUser id 0).removeUser id 1).groups id).userCnt ≠ 0 then _ else _) = _
  rw [removed_groups, update_self, removeUser_groupCnt, removeUser_groupCnt]

theorem removeUsers_frame (mem : id ∈ groupIds) : Frame s (s.removeUsers id) :=
  ((removeUser_frame mem 0).trans (removeUser_frame mem 1)).trans ⟨rfl, rfl, fun _ => rfl⟩

theorem Mirror.removeUsers (mir : Mirror s) (mem : id ∈ groupIds) : Mirror (s.removeUsers id) := by
  refine ((mir.removeUser mem 0).removeUser mem 1).congr rfl fun g => ?_
  rw [removeUsers_groups, removed_groups]
  by_cases here : g = id
  · rw [here, update_self, update_self]
  · rw [update_of_ne here, update_of_ne here]

/-! ### Adding two users -/

theorem addUser_frame (mem : id ∈ groupIds) (j : Fin configUserMax) (sta : S) : Frame s (s.addUser id j sta) := by
  refine ⟨rfl, rfl, fun x => ?_⟩
  show (update s.info sta _ x).map.getLsbD 0 = _
  by_cases own : x = sta
  · subst own
    rw [update_self, getLsbD_setBit (groupIds_small mem), decide_eq_false (groupIds_ne_zero mem), Bool.or_false]
  · rw [update_of_ne own]

def pair (first second : S) : MuGroup S :=
  ⟨2, Function.update (Function.update (fun _ => none) 0 (some first)) 1 (some second)⟩

theorem freeFrom_zero (free : (s.groups id).users 0 = none) : s.freeFrom id 0 = some 0 := by
  show List.find? _ [0, 1] = _
  rw [List.find?_cons_of_pos]
  exact and_eq_true_iff.mpr ⟨rfl, decide_eq_true free⟩

theorem freeFrom_one (free : (s.groups id).users 1 = none) : s.freeFrom id 1 = some 1 := by
  show List.find? _ [0, 1] = _
  rw [List.find?_cons_of_neg, List.find?_cons_of_pos]
  · exact and_eq_true_iff.mpr ⟨rfl, decide_eq_true free⟩
  · exact fun on => absurd (and_eq_true_iff.mp on).1 (by decide)

theorem addLoop_cons {j : ℕ} {i : Fin configUserMax} (free : s.freeFrom id j = some i) (sta : S) (rest : List S) :
    MuHw.addLoop id (sta :: rest) j s = MuHw.addLoop id rest (i.val + 1) (s.addUser id i sta) := by
  rw [MuHw.addLoop, free]

theorem addUsers_eq (empty : s.groups id = ⟨0, fun _ => none⟩) (first second : S) : s.addUsers id [first, second] =
      (({ s with groupCnt := s.groupCnt + 1 } : MuHw S).addUser id 0 first).addUser id 1 second := by
  have zero : (s.groups id).userCnt = 0 := by rw [empty]
  unfold MuHw.addUsers
  rw [if_pos zero]
  have start : (({ s with groupCnt := s.groupCnt + 1 } : MuHw S).groups id).users 0 = none := by
    show (s.groups id).users 0 = none
    rw [empty]
  have next : ((({ s with groupCnt := s.groupCnt + 1 } : MuHw S).addUser id 0 first).groups id).users 1 = none := by
    show (update s.groups id ⟨_, update (s.groups id).users 0 (some first)⟩ id).users 1 = none
    rw [update_self, empty]
    rfl
  exact (addLoop_cons (freeFrom_zero start) first [second]).trans (addLoop_cons (freeFrom_one next) second [])

theorem addUsers_groups (empty : s.groups id = ⟨0, fun _ => none⟩) (first second : S) :
    (s.addUsers id [first, second]).groups = update s.groups id (pair first second) := by
  rw [addUsers_eq empty]
  show update (update s.groups id _) id
    ⟨(update s.groups id ⟨(s.groups id).userCnt + 1, update (s.groups id).users 0 (some first)⟩
      id).userCnt + 1, update (update s.groups id
        ⟨(s.groups id).userCnt + 1, update (s.groups id).users 0 (some first)⟩ id).users 1 (some second)⟩ = _
  rw [update_idem, update_self, empty]
  rfl

theorem Mirror.addUsers (mir : Mirror s) (mem : id ∈ groupIds) (empty : s.groups id = ⟨0, fun _ => none⟩)
    {first second : S} (ne : first ≠ second) : Mirror (s.addUsers id [first, second]) := by
  have none : ∀ i, (s.groups id).users i = none := fun i => by rw [empty]
  rw [addUsers_eq empty]
  have counted : Mirror ({ s with groupCnt := s.groupCnt + 1 } : MuHw S) := mir.congr rfl fun _ => rfl
  have one : Mirror (({ s with groupCnt := s.groupCnt + 1 } : MuHw S).addUser id 0 first) :=
      counted.enter mem (none 0) fun i there => by
    have there : (s.groups id).users i = some first := there
    rw [none i] at there
    cases there
  have users : ∀ i, ((({ s with groupCnt := s.groupCnt + 1 } : MuHw S).addUser id 0 first).groups id).users i =
      update (fun _ => Option.none) 0 (some first) i := by
    intro i
    show (update s.groups id ⟨_, update (s.groups id).users 0 (some first)⟩ id).users i = _
    rw [update_self, empty]
  refine one.enter mem ?_ fun i there => ?_
  · rw [users]
    rfl
  · rw [users] at there
    by_cases here : i = 0
    · rw [here, update_self] at there
      exact ne (some.inj there)
    · rw [update_of_ne here] at there
      cases there

theorem removeUser_activeGroups : (s.removeUser id i).activeGroups = s.activeGroups := by
  unfold MuHw.removeUser
  split <;> rfl

theorem removeUsers_activeGroups : (s.removeUsers id).activeGroups = s.activeGroups :=
  (removeUser_activeGroups 1).trans (removeUser_activeGroups 0)

theorem mem_pair {first second sta : S} : sta ∈ (pair first second).members ↔ sta = first ∨ sta = second := by
  constructor
  · rintro ⟨i, there⟩
    match i, there with
    | 0, there => exact .inl (some.inj there).symm
    | 1, there => exact .inr (some.inj there).symm
  · rintro (rfl | rfl)
    · exact ⟨0, rfl⟩
    · exact ⟨1, rfl⟩

theorem card_pair (first second : S) : (pair first second).occupied.card = 2 := by
  rw [MuGroup.card_occupied]
  rfl

theorem replaced_groups (first second : S) :
    ((s.removeUsers id).addUsers id [first, second]).groups = update s.groups id (pair first second) := by
  rw [addUsers_groups (by rw [removeUsers_groups, update_self]), removeUsers_groups, update_idem]

theorem replaced_groupCnt (first second : S) : ((s.removeUsers id).addUsers id [first, second]).groupCnt =
    (if (s.groups id).userCnt ≠ 0 then s.groupCnt - 1 else s.groupCnt) + 1 := by
  rw [addUsers_eq (by rw [removeUsers_groups, update_self])]
  show (s.removeUsers id).groupCnt + 1 = _
  rw [removeUsers_groupCnt]

theorem replaced_activeGroups (first second : S) :
    ((s.removeUsers id).addUsers id [first, second]).activeGroups = s.activeGroups := by
  rw [addUsers_eq (by rw [removeUsers_groups, update_self])]
  exact removeUsers_activeGroups

theorem replaced_frame (mem : id ∈ groupIds) (first second : S) :
    Frame s ((s.removeUsers id).addUsers id [first, second]) := by
  rw [addUsers_eq (by rw [removeUsers_groups, update_self])]
  have counted : Frame (s.removeUsers id) { s.removeUsers id with groupCnt := (s.removeUsers id).groupCnt + 1 } :=
    ⟨rfl, rfl, fun _ => rfl⟩
  exact ((removeUsers_frame mem).trans (counted.trans (addUser_frame mem 0 first))).trans (addUser_frame mem 1 second)

end Users

/-! ### The invariant -/

/-- **The invariant.** -/
structure MuInv (s : MuHw S) : Prop where
  mir : Mirror s
  userCnt : ∀ g ∈ groupIds, (s.groups g).userCnt = (s.groups g).occupied.card
  groupCnt : s.groupCnt.toNat = s.nonEmpty.card
  notOne : ∀ g ∈ groupIds, (s.groups g).occupied.card ≠ 1
  distinct : ∀ g ∈ groupIds, ∀ g' ∈ groupIds, g ≠ g' → (s.groups g).occupied ≠ ∅ →
    (s.groups g).members ≠ (s.groups g').members
  users : ∀ g ∈ groupIds, ∀ sta ∈ (s.groups g).members, s.present sta = true
  listed : ∀ g, g ∈ s.activeGroups ↔ g ∈ groupIds
  nodup : s.activeSta.Nodup
  active : ∀ sta ∈ s.activeSta, s.present sta = true ∧ (s.info sta).map.getLsbD 0 = false

namespace MuInv

variable {s : MuHw S}

theorem consistent (inv : MuInv s) : Consistent s :=
  ⟨inv.mir.mirror, inv.mir.cnt, inv.userCnt, inv.groupCnt, inv.notOne, inv.distinct⟩

theorem same (inv : MuInv s) {u : MuHw S} (mir : Mirror u) (groups : u.groups = s.groups)
    (groupCnt : u.groupCnt = s.groupCnt)
    (users : ∀ g ∈ groupIds, ∀ sta ∈ (s.groups g).members, u.present sta = true)
    (listed : ∀ g, g ∈ u.activeGroups ↔ g ∈ s.activeGroups) (nodup : u.activeSta.Nodup)
    (active : ∀ sta ∈ u.activeSta, u.present sta = true ∧ (u.info sta).map.getLsbD 0 = false) : MuInv u := by
  refine ⟨mir, ?_, ?_, ?_, ?_, ?_, fun g => (listed g).trans (inv.listed g), nodup, active⟩
  · rw [groups]
    exact inv.userCnt
  · rw [groupCnt, inv.groupCnt, MuHw.nonEmpty, MuHw.nonEmpty, groups]
  · rw [groups]
    exact inv.notOne
  · rw [groups]
    exact inv.distinct
  · rw [groups]
    exact users

theorem mem_moveHead {α : Type} [DecidableEq α] {list : List α} {elem : α} (mem : elem ∈ list) (x : α) :
    x ∈ moveHead list elem ↔ x ∈ list := by
  rw [moveHead, mem_cons]
  constructor
  · rintro (rfl | there)
    · exact mem
    · exact List.mem_of_mem_erase there
  · intro there
    by_cases same : x = elem
    · exact .inl same
    · exact .inr ((List.mem_erase_of_ne same).mpr there)

theorem moveGroup (inv : MuInv s) {id : ℕ} (mem : id ∈ groupIds) :
    MuInv { s with activeGroups := moveHead s.activeGroups id } :=
  inv.same (inv.mir.congr rfl fun _ => rfl) rfl rfl inv.users (mem_moveHead ((inv.listed id).mpr mem)) inv.nodup
    inv.active

theorem last_mem (inv : MuInv s) : s.activeGroups.getLast?.getD 0 ∈ groupIds := by
  have one : 1 ∈ s.activeGroups := (inv.listed 1).mpr (by decide)
  cases last : s.activeGroups.getLast? with
  | none =>
    rw [List.getLast?_eq_none_iff.mp last] at one
    cases one
  | some id => exact (inv.listed id).mp (List.mem_of_getLast? last)

variable {first second sta : S}

/-- **A group is created** for two stations that share none. -/
theorem replace (inv : MuInv s) {id : ℕ} (mem : id ∈ groupIds) (ne : first ≠ second)
    (there : s.present first = true) (there' : s.present second = true)
    (apart : (s.info first).map &&& (s.info second).map = 0) :
    MuInv ((s.removeUsers id).addUsers id [first, second]) := by
  have frame := replaced_frame (s := s) mem first second
  have mir := (inv.mir.removeUsers mem).addUsers mem (by rw [removeUsers_groups, update_self]) ne
  have groups : ((s.removeUsers id).addUsers id [first, second]).groups = _ := replaced_groups first second
  have cnt : ((s.removeUsers id).addUsers id [first, second]).groupCnt = _ := replaced_groupCnt first second
  have active : ((s.removeUsers id).addUsers id [first, second]).activeGroups = _ := replaced_activeGroups first second
  generalize (s.removeUsers id).addUsers id [first, second] = u at frame mir groups cnt active
  have here : u.groups id = pair first second := by rw [groups, update_self]
  have other : ∀ g, g ≠ id → u.groups g = s.groups g := fun g out => by rw [groups, update_of_ne out]
  have taken : (u.groups id).occupied ≠ ∅ := fun none => by
    have two := card_pair first second
    rw [← here, none] at two
    cases two
  have unshared : ∀ g ∈ groupIds, (s.groups g).members ≠ (pair first second).members := by
    intro g inside same
    have one : first ∈ (s.groups g).members := same ▸ mem_pair.mpr (.inl rfl)
    have two : second ∈ (s.groups g).members := same ▸ mem_pair.mpr (.inr rfl)
    have bit : ((s.info first).map &&& (s.info second).map).getLsbD g = true := by
      rw [getLsbD_and, (inv.mir.mirror first g inside).mpr one, (inv.mir.mirror second g inside).mpr two]
      rfl
    rw [apart, zero_getLsbD] at bit
    cases bit
  refine ⟨mir, fun g inside => ?_, ?_, fun g inside => ?_, fun g inside g' inside' out => ?_,
    fun g inside sta user => ?_, fun g => ?_, ?_, fun sta mem => ?_⟩
  · by_cases at' : g = id
    · rw [at', here, card_pair]
      rfl
    · rw [other g at']
      exact inv.userCnt g inside
  · have grown : u.nonEmpty = insert id s.nonEmpty := by
      ext g
      rw [MuHw.nonEmpty, MuHw.nonEmpty, Finset.mem_insert, mem_filter, mem_filter]
      by_cases at' : g = id
      · rw [at']
        exact ⟨fun _ => .inl rfl, fun _ => ⟨mem, taken⟩⟩
      · rw [other g at']
        exact ⟨.inr, fun either => either.resolve_left at'⟩
    rw [cnt, grown]
    by_cases used : id ∈ s.nonEmpty
    · have some' : (s.groups id).userCnt ≠ 0 := by
        rw [inv.userCnt id mem]
        have positive := Finset.card_ne_zero.mpr (Finset.nonempty_iff_ne_empty.mpr (mem_filter.mp used).2)
        exact Int.natCast_ne_zero.mpr positive
      rw [if_pos some', UInt8.sub_add_cancel, Finset.insert_eq_of_mem used]
      exact inv.groupCnt
    · have zero : (s.groups id).userCnt = 0 := by
        rw [inv.userCnt id mem]
        have empty : (s.groups id).occupied = ∅ := by
          by_contra some'
          exact used (mem_filter.mpr ⟨mem, some'⟩)
        rw [empty]
        rfl
      have few : s.nonEmpty.card ≤ 62 := (Finset.card_filter_le _ _).trans (by decide)
      rw [if_neg (not_not.mpr zero), Finset.card_insert_of_notMem used, UInt8.toNat_add, inv.groupCnt]
      exact Nat.mod_eq_of_lt (by show s.nonEmpty.card + 1 < 256; omega)
  · by_cases at' : g = id
    · rw [at', here, card_pair]
      decide
    · rw [other g at']
      exact inv.notOne g inside
  · by_cases at' : g = id
    · subst at'
      rw [here, other g' (Ne.symm out)]
      intro _ same
      exact unshared g' inside' same.symm
    · rw [other g at']
      by_cases at'' : g' = id
      · subst at''
        rw [here]
        exact fun _ => unshared g inside
      · rw [other g' at'']
        exact inv.distinct g inside g' inside' out
  · rw [frame.present]
    by_cases at' : g = id
    · rw [at', here] at user
      rcases mem_pair.mp user with rfl | rfl
      · exact there
      · exact there'
    · rw [other g at'] at user
      exact inv.users g inside sta user
  · rw [active]
    exact inv.listed g
  · rw [frame.activeSta]
    exact inv.nodup
  · rw [frame.activeSta] at mem
    rw [frame.present, frame.su]
    exact inv.active sta mem

theorem shared_mem (inv : MuInv s) (su : (s.info first).map.getLsbD 0 = false)
    (shared : (s.info first).map &&& (s.info second).map ≠ 0) :
    getFirstGroupId ((s.info first).map &&& (s.info second).map) ∈ groupIds := by
  obtain ⟨i, small, on⟩ : ∃ i, i < 64 ∧ ((s.info first).map &&& (s.info second).map).getLsbD i = true := by
    by_contra none
    refine shared (BitVec.eq_of_getLsbD_eq fun i small => ?_)
    rw [zero_getLsbD]
    exact eq_false_iff.mpr fun on => none ⟨i, small, on⟩
  have found : ∃ g, (List.range 64).reverse.find?
      (fun id => ((s.info first).map &&& (s.info second).map).getLsbD id) = some g := by
    refine Option.isSome_iff_exists.mp (List.find?_isSome.mpr ⟨i, ?_, on⟩)
    exact mem_reverse.mpr (mem_range.mpr small)
  obtain ⟨g, first'⟩ := found
  have set : (s.info first).map.getLsbD g = true := by
    have both := List.find?_some first'
    rw [getLsbD_and, and_eq_true] at both
    exact both.1
  rw [getFirstGroupId, first']
  refine mem_Icc.mpr ⟨Nat.one_le_iff_ne_zero.mpr fun zero => ?_, inv.mir.bits first g set⟩
  have zero : g = 0 := zero
  rw [zero, su] at set
  cases set

theorem createOne (inv : MuInv s) (ne : first ≠ second)
    (there : s.present first = true ∧ (s.info first).map.getLsbD 0 = false) (there' : s.present second = true) :
    MuInv (s.createOne first second).1 ∧ Frame s (s.createOne first second).1 := by
  unfold MuHw.createOne
  dsimp only
  split
  · case isTrue shared => exact ⟨inv.moveGroup (inv.shared_mem there.2 shared), rfl, rfl, fun _ => rfl⟩
  · case isFalse apart =>
    have made := inv.replace inv.last_mem ne there.1 there' (not_not.mp apart)
    have frame := replaced_frame (s := s) inv.last_mem first second
    exact ⟨made.moveGroup inv.last_mem, frame.present, frame.activeSta, frame.su⟩

theorem create (rest : List S) (left : Int) (inv : MuInv s)
    (there : s.present sta = true ∧ (s.info sta).map.getLsbD 0 = false)
    (others : ∀ user ∈ rest, sta ≠ user ∧ s.present user = true) :
    MuInv (Mu.create sta rest left s).1 ∧ Frame s (Mu.create sta rest left s).1 := by
  induction rest generalizing s left with
  | nil => exact ⟨inv, Frame.refl s⟩
  | cons user rest ih =>
    unfold Mu.create
    split
    · exact ⟨inv, Frame.refl s⟩
    · obtain ⟨made, frame⟩ := inv.createOne (others user mem_cons_self).1 there
        (others user mem_cons_self).2
      dsimp only
      generalize (s.createOne sta user).1 = t at made frame
      obtain ⟨later, frame'⟩ := ih (if (s.createOne sta user).2 then left - 2 else left) made
        (by rw [frame.present, frame.su]; exact there)
        (fun x mem => by rw [frame.present]; exact others x (mem_cons_of_mem _ mem))
      exact ⟨later, frame.trans frame'⟩

theorem processed (inv : MuInv s) (sta : S) (lastUpdate : UInt16) :
    MuInv { s.setInfo sta { s.info sta with lastUpdate := lastUpdate } with activeSta := s.activeSta.erase sta } := by
  have info : ∀ x, (update s.info sta { s.info sta with lastUpdate := lastUpdate } x).map = (s.info x).map ∧
      (update s.info sta { s.info sta with lastUpdate := lastUpdate } x).cnt = (s.info x).cnt := by
    intro x
    by_cases own : x = sta
    · rw [own, update_self]
      exact ⟨rfl, rfl⟩
    · rw [update_of_ne own]
      exact ⟨rfl, rfl⟩
  refine inv.same (inv.mir.sameMaps (fun x => (info x).1) (fun x => (info x).2) rfl) rfl rfl inv.users
    (fun _ => Iff.rfl) (inv.nodup.erase sta) fun x mem => ?_
  show s.present x = true ∧ (update s.info sta _ x).map.getLsbD 0 = false
  rw [(info x).1]
  exact inv.active x (List.mem_of_mem_erase mem)

theorem workLoop (list : List S) (left : Int) (inv : MuInv s) (nodup : list.Nodup)
    (there : ∀ sta ∈ list, s.present sta = true ∧ (s.info sta).map.getLsbD 0 = false) :
    MuInv (Mu.workLoop list left s) := by
  induction list generalizing s left with
  | nil => exact inv
  | cons sta rest ih =>
    obtain ⟨out, nodup⟩ := nodup_cons.mp nodup
    have made : MuInv (if left ≠ 0 then Mu.create sta rest left s else (s, left)).1 ∧
        Frame s (if left ≠ 0 then Mu.create sta rest left s else (s, left)).1 := by
      split
      · refine inv.create rest left (there sta mem_cons_self) fun user mem => ⟨fun same => ?_, ?_⟩
        · exact out (same ▸ mem)
        · exact (there user (mem_cons_of_mem _ mem)).1
      · exact ⟨inv, Frame.refl s⟩
    unfold Mu.workLoop
    dsimp only
    generalize (if left ≠ 0 then Mu.create sta rest left s else (s, left)) = t at made
    obtain ⟨made, frame⟩ := made
    refine ih t.2 (made.processed sta _) nodup fun x mem => ?_
    have ne : x ≠ sta := fun same => out (same ▸ mem)
    show t.1.present x = true ∧ (update t.1.info sta _ x).map.getLsbD 0 = false
    rw [update_of_ne ne, frame.present, frame.su]
    exact there x (mem_cons_of_mem _ mem)

/-! ### Stations -/

theorem reset (inv : MuInv s) (out : ∀ g ∈ groupIds, (s.info sta).map.getLsbD g = false) {u : MuHw S}
    {new : GroupInfo} (info : u.info = update s.info sta new) (cnt : new.cnt = 0)
    (map : new.map = 0 ∨ new.map = amlSuGroup) (groups : u.groups = s.groups) : Mirror u := by
  have clear : ∀ g ∈ groupIds, new.map.getLsbD g = false := by
    intro g inside
    rcases map with zero | su
    · rw [zero, zero_getLsbD]
    · have all : ∀ g ∈ groupIds, amlSuGroup.getLsbD g = false := by decide
      rw [su]
      exact all g inside
  refine ⟨fun x g inside => ?_, fun x => ?_, ?_, fun x i on => ?_⟩
  · rw [info, groups]
    by_cases own : x = sta
    · rw [own, update_self, clear g inside, ← inv.mir.mirror sta g inside, out g inside]
    · rw [update_of_ne own]
      exact inv.mir.mirror x g inside
  · rw [info]
    by_cases own : x = sta
    · have none : countIn groupIds new.map = countIn groupIds (0 : BitVec 64) :=
        countIn_congr fun g inside => by rw [clear g inside, zero_getLsbD]
      rw [own, update_self, cnt, none, countIn_zero]
      rfl
    · rw [update_of_ne own]
      exact inv.mir.cnt x
  · rw [groups]
    exact inv.mir.single
  · rw [info] at on
    by_cases own : x = sta
    · rw [own, update_self] at on
      rcases map with zero | su
      · rw [zero, zero_getLsbD] at on
        cases on
      · by_contra large
        have small : i < 64 := BitVec.lt_of_getLsbD on
        have all : ∀ i < 64, amlSuGroup.getLsbD i = true → i ≤ nxMuGroupMax := by decide
        rw [su] at on
        exact large (all i small on)
    · rw [update_of_ne own] at on
      exact inv.mir.bits x i on

theorem not_member (inv : MuInv s) (out : ∀ g ∈ groupIds, (s.info sta).map.getLsbD g = false) {g : ℕ}
    (inside : g ∈ groupIds) : sta ∉ (s.groups g).members := fun user => by
  have on := (inv.mir.mirror sta g inside).mpr user
  rw [out g inside] at on
  cases on

theorem staInit (inv : MuInv s) (absent : s.present sta = false) (muBeamformee : Bool) :
    MuInv (s.staInit sta muBeamformee) := by
  have out : ∀ g ∈ groupIds, (s.info sta).map.getLsbD g = false := fun g inside =>
    eq_false_iff.mpr fun on => by
      have there := inv.users g inside sta ((inv.mir.mirror sta g inside).mp on)
      rw [absent] at there
      cases there
  have grown : ∀ x, s.present x = true → (s.staInit sta muBeamformee).present x = true := fun x there => by
    show update s.present sta true x = true
    by_cases own : x = sta
    · rw [own, update_self]
    · rw [update_of_ne own]
      exact there
  refine inv.same (inv.reset out rfl rfl ?_ rfl) rfl rfl
    (fun g inside x user => grown x (inv.users g inside x user)) (fun _ => Iff.rfl) inv.nodup fun x mem => ?_
  · cases muBeamformee with
    | true => exact .inl rfl
    | false => exact .inr rfl
  · obtain ⟨there, su⟩ := inv.active x mem
    have ne : x ≠ sta := fun same => by
      rw [same, absent] at there
      cases there
    refine ⟨grown x there, ?_⟩
    show (update s.info sta _ x).map.getLsbD 0 = false
    rw [update_of_ne ne]
    exact su

theorem out_of_guard (none : (s.info sta).map &&& amlMuGroupMask = 0) :
    ∀ g ∈ groupIds, (s.info sta).map.getLsbD g = false := by
  intro g inside
  have bit : ((s.info sta).map &&& amlMuGroupMask).getLsbD g = false := by rw [none, zero_getLsbD]
  rw [getLsbD_and, getLsbD_mask, decide_eq_true inside, Bool.and_true] at bit
  exact bit

theorem staDel (inv : MuInv s) (none : (s.info sta).map &&& amlMuGroupMask = 0) : MuInv (s.staDel sta) := by
  have out := out_of_guard none
  unfold MuHw.staDel
  rw [none, show groupForEach 0 = [] by decide]
  have kept : ∀ x, x ≠ sta → s.present x = true → update s.present sta false x = true := fun x ne there => by
    rw [update_of_ne ne]
    exact there
  refine inv.same (inv.reset out rfl rfl (.inl rfl) rfl) rfl rfl (fun g inside x user => ?_) (fun _ => Iff.rfl)
    (inv.nodup.erase sta) fun x mem => ?_
  · exact kept x (fun same => inv.not_member out inside (same ▸ user)) (inv.users g inside x user)
  · obtain ⟨ne, mem⟩ := (inv.nodup.mem_erase_iff).mp mem
    obtain ⟨there, su⟩ := inv.active x mem
    refine ⟨kept x ne there, ?_⟩
    show (update s.info sta _ x).map.getLsbD 0 = false
    rw [update_of_ne ne]
    exact su

theorem setActiveSta (inv : MuInv s) (there : s.present sta = true) (traffic : Int) :
    MuInv (s.setActiveSta sta traffic) := by
  have maps : ∀ x, ((s.setInfo sta { s.info sta with traffic := (s.info sta).traffic + traffic }).info x).map =
      (s.info x).map ∧ ((s.setInfo sta { s.info sta with traffic := (s.info sta).traffic + traffic }).info x).cnt =
      (s.info x).cnt := by
    intro x
    show (update s.info sta _ x).map = _ ∧ (update s.info sta _ x).cnt = _
    by_cases own : x = sta
    · rw [own, update_self]
      exact ⟨rfl, rfl⟩
    · rw [update_of_ne own]
      exact ⟨rfl, rfl⟩
  unfold MuHw.setActiveSta
  split
  · exact inv
  · case isFalse su =>
    have su : (s.info sta).map.getLsbD 0 = false := by
      have bit : ((s.info sta).map &&& amlSuGroup).getLsbD 0 = false := by rw [not_not.mp su, zero_getLsbD]
      rw [getLsbD_and, show amlSuGroup.getLsbD 0 = true by decide, Bool.and_true] at bit
      exact bit
    have mir := inv.mir.sameMaps (fun x => (maps x).1) (fun x => (maps x).2) rfl
    dsimp only
    split
    · refine inv.same (mir.congr rfl fun _ => rfl) rfl rfl inv.users (fun _ => Iff.rfl)
        (nodup_cons.mpr ⟨inv.nodup.not_mem_erase, inv.nodup.erase sta⟩) fun x mem => ?_
      rw [(maps x).1]
      rcases mem_cons.mp mem with rfl | old
      · exact ⟨there, su⟩
      · exact inv.active x (List.mem_of_mem_erase old)
    · refine inv.same mir rfl rfl inv.users (fun _ => Iff.rfl) inv.nodup fun x mem => ?_
      rw [(maps x).1]
      exact inv.active x mem

theorem init : MuInv (init : MuHw S) := by
  refine ⟨⟨fun sta g _ => ?_, fun sta => ?_, fun g _ i j sta there => (nomatch there), fun sta i on => ?_⟩,
    fun g _ => ?_, ?_, fun g _ one => ?_, fun g _ g' _ _ some' => ?_, fun g _ sta user => ?_, fun g => ?_,
    List.nodup_nil, fun sta mem => absurd mem List.not_mem_nil⟩
  · show (0 : BitVec 64).getLsbD g = true ↔ _
    rw [zero_getLsbD]
    exact ⟨fun on => (nomatch on), fun ⟨_, there⟩ => (nomatch there)⟩
  · show (0 : Int) = countIn groupIds (0 : BitVec 64)
    rw [countIn_zero]
    rfl
  · have on : (0 : BitVec 64).getLsbD i = true := on
    rw [zero_getLsbD] at on
    cases on
  · show (0 : Int) = (MuGroup.occupied (⟨0, fun _ => none⟩ : MuGroup S)).card
    rw [MuGroup.occupied_empty]
    rfl
  · have none : (Mu.init : MuHw S).nonEmpty = ∅ :=
      Finset.filter_eq_empty_iff.mpr fun g _ some' => some' (MuGroup.occupied_empty 0)
    rw [none]
    rfl
  · have one : (MuGroup.occupied (⟨0, fun _ => none⟩ : MuGroup S)).card = 1 := one
    rw [MuGroup.occupied_empty] at one
    cases one
  · exact absurd (MuGroup.occupied_empty 0) some'
  · obtain ⟨_, there⟩ := user
    cases there
  · show g ∈ (List.range nxMuGroupMax).reverse.map (· + 1) ↔ g ∈ Finset.Icc 1 nxMuGroupMax
    rw [List.mem_map, mem_Icc]
    constructor
    · rintro ⟨i, mem, rfl⟩
      have small := mem_range.mp (mem_reverse.mp mem)
      exact ⟨Nat.le_add_left 1 i, small⟩
    · rintro ⟨one, small⟩
      exact ⟨g - 1, mem_reverse.mpr (mem_range.mpr (by omega)), by omega⟩

theorem step (inv : MuInv s) {a : MuAct S} {u : MuHw S} (guard : Guard s a) (stepped : act s a = some u) : MuInv u := by
  cases a with
  | staInit sta muBeamformee =>
    have stepped : (if s.present sta then none else some (s.staInit sta muBeamformee)) = some u := stepped
    by_cases there : s.present sta = true
    · rw [if_pos there] at stepped
      cases stepped
    · rw [if_neg there] at stepped
      obtain rfl := some.inj stepped
      exact inv.staInit (eq_false_iff.mpr there) muBeamformee
  | staDel sta =>
    have stepped : (if s.present sta then some (s.staDel sta) else none) = some u := stepped
    by_cases there : s.present sta = true
    · rw [if_pos there] at stepped
      obtain rfl := some.inj stepped
      exact inv.staDel guard
    · rw [if_neg there] at stepped
      cases stepped
  | setActiveSta sta traffic =>
    have stepped : (if s.present sta then some (s.setActiveSta sta traffic) else none) = some u := stepped
    by_cases there : s.present sta = true
    · rw [if_pos there] at stepped
      obtain rfl := some.inj stepped
      exact inv.setActiveSta there traffic
    · rw [if_neg there] at stepped
      cases stepped
  | setActiveGroup id =>
    have stepped : (if id ∈ groupIds then some (s.setActiveGroup id) else none) = some u := stepped
    by_cases inside : id ∈ groupIds
    · rw [if_pos inside] at stepped
      obtain rfl := some.inj stepped
      exact inv.moveGroup inside
    · rw [if_neg inside] at stepped
      cases stepped
  | groupWork =>
    obtain rfl := some.inj stepped
    have counted : MuInv { s with updateCount := s.nextUpdate } :=
      inv.same (inv.mir.congr rfl fun _ => rfl) rfl rfl inv.users (fun _ => Iff.rfl) inv.nodup inv.active
    exact counted.workLoop s.activeSta nxMuGroupMax inv.nodup inv.active
  | groupUpdate =>
    obtain rfl := some.inj stepped
    exact inv.same (inv.mir.congr rfl fun _ => rfl) rfl rfl inv.users (fun _ => Iff.rfl) inv.nodup inv.active

end MuInv

/-! ### A station of a group is removed -/

/-- What one round of `aml_mu_group_sta_del` does to its group. -/
def MuGroup.left (group : MuGroup S) (sta : S) : MuGroup S :=
  match (List.finRange configUserMax).find? fun i => decide (group.users i = some sta) with
  | none => group
  | some i =>
    let users := Function.update group.users i none
    if group.userCnt - 1 = 1 then
      match (List.finRange configUserMax).findSome? users with
      | none => ⟨group.userCnt - 1, users⟩
      | some _ => ⟨group.userCnt - 1 - 1, users⟩
    else ⟨group.userCnt - 1, users⟩

section Removal

variable {s u : MuHw S}

theorem lastUser_groups (id : ℕ) : (s.lastUser id).groups =
    match (finRange configUserMax).findSome? (s.groups id).users with
    | none => s.groups
    | some _ => update s.groups id ⟨(s.groups id).userCnt - 1, (s.groups id).users⟩ := by
  unfold MuHw.lastUser
  dsimp only
  cases (finRange configUserMax).findSome? (s.groups id).users with
  | none => rfl
  | some other => rfl

theorem leaveGroup_groups (sta : S) (id : ℕ) :
    (s.leaveGroup sta id).groups = update s.groups id ((s.groups id).left sta) := by
  unfold MuHw.leaveGroup MuGroup.left
  dsimp only
  cases (finRange configUserMax).find? fun i => decide ((s.groups id).users i = some sta) with
  | none =>
    dsimp only
    rw [update_eq_self]
  | some i =>
    dsimp only
    by_cases last : (s.groups id).userCnt - 1 = 1
    · rw [if_pos last, if_pos last]
      show ((s.setGroup id _).lastUser id).groups = _
      rw [lastUser_groups]
      have own : ∀ group, (s.setGroup id group).groups id = group := fun group => update_self ..
      rw [own]
      dsimp only
      cases (finRange configUserMax).findSome? (update (s.groups id).users i none) with
      | none => rfl
      | some other => exact update_idem ..
    · rw [if_neg last, if_neg last]
      rfl

/-- The rounds of `aml_mu_group_sta_del`: each group once. -/
theorem rounds_groups (sta : S) (ids : List ℕ) (nodup : ids.Nodup) (g : ℕ) :
    (ids.foldl (fun s id => s.leaveGroup sta id) s).groups g =
      if g ∈ ids then (s.groups g).left sta else s.groups g := by
  induction ids generalizing s with
  | nil => rfl
  | cons id rest ih =>
    obtain ⟨out, nodup⟩ := nodup_cons.mp nodup
    rw [List.foldl_cons, ih nodup, leaveGroup_groups]
    by_cases here : g = id
    · subst here
      rw [if_neg out, if_pos mem_cons_self, update_self]
    · rw [update_of_ne here]
      by_cases later : g ∈ rest
      · rw [if_pos later, if_pos (mem_cons_of_mem _ later)]
      · rw [if_neg later, if_neg fun mem => (mem_cons.mp mem).elim here later]

theorem groupForEach_nodup (map : BitVec 64) : (groupForEach map).Nodup :=
  (List.nodup_reverse.mpr List.nodup_range).filter _

theorem mem_groupForEach {map : BitVec 64} {g : ℕ} (inside : g ∈ groupIds) (on : map.getLsbD g = true) :
    g ∈ groupForEach map := by
  refine List.mem_filter.mpr ⟨mem_reverse.mpr (mem_range.mpr (groupIds_small inside)), ?_⟩
  rw [on, Bool.and_true]
  exact decide_eq_true (mem_Icc.mp inside).1

theorem left_of_full {group : MuGroup S} {first second sta : S} (full : group.users 0 = some first)
    (full' : group.users 1 = some second) (two : group.userCnt = 2) (user : sta = first ∨ sta = second) :
    (group.left sta).userCnt = 0 ∧ (group.left sta).occupied.card = 1 := by
  have last : group.userCnt - 1 = 1 := by rw [two]; rfl
  have gone : group.userCnt - 1 - 1 = 0 := by rw [two]; rfl
  have start : finRange configUserMax = [0, 1] := rfl
  unfold MuGroup.left
  rw [start]
  by_cases own : sta = first
  · have found : List.find? (fun i => decide (group.users i = some sta)) [0, 1] = some 0 := by
      rw [List.find?_cons_of_pos]
      exact decide_eq_true (by rw [full, own])
    have zero : update group.users 0 none 0 = none := update_self ..
    have one : update group.users 0 none 1 = some second := by rw [update_of_ne (by decide), full']
    have other : List.findSome? (update group.users 0 none) [0, 1] = some second := by
      rw [List.findSome?_cons, zero, List.findSome?_cons, one]
    rw [found]
    dsimp only
    rw [if_pos last, other]
    exact ⟨gone, MuGroup.card_occupied_eq ⟨group.userCnt - 1 - 1, update group.users 0 none⟩ zero one⟩
  · obtain rfl : sta = second := user.resolve_left own
    have found : List.find? (fun i => decide (group.users i = some sta)) [0, 1] = some 1 := by
      rw [List.find?_cons_of_neg, List.find?_cons_of_pos]
      · exact decide_eq_true full'
      · rw [full, decide_eq_true_eq]
        exact fun same => own (some.inj same).symm
    have zero : update group.users 1 none 0 = some first := by rw [update_of_ne (by decide), full]
    have one : update group.users 1 none 1 = none := update_self ..
    have other : List.findSome? (update group.users 1 none) [0, 1] = some first := by
      rw [List.findSome?_cons, zero]
    rw [found]
    dsimp only
    rw [if_pos last, other]
    exact ⟨gone, MuGroup.card_occupied_eq ⟨group.userCnt - 1 - 1, update group.users 1 none⟩ zero one⟩

theorem not_consistent_of_member (inv : MuInv s) {sta : S} {g : ℕ} (inside : g ∈ groupIds)
    (on : (s.info sta).map.getLsbD g = true) : ¬Consistent (s.staDel sta) := by
  intro consistent
  obtain ⟨i, there⟩ := (inv.mir.mirror sta g inside).mp on
  obtain ⟨first, second, full, full'⟩ := MuGroup.full (inv.notOne g inside) there
  have two : (s.groups g).userCnt = 2 := by
    rw [inv.userCnt g inside, MuGroup.card_occupied, full, full']
    rfl
  have user : sta = first ∨ sta = second := by
    match i, there with
    | 0, there => exact .inl (some.inj (there.symm.trans full))
    | 1, there => exact .inr (some.inj (there.symm.trans full'))
  have masked : ((s.info sta).map &&& amlMuGroupMask).getLsbD g = true := by
    rw [getLsbD_and, on, getLsbD_mask, decide_eq_true inside]
    rfl
  have group : (s.staDel sta).groups g = (s.groups g).left sta := by
    show (List.foldl _ s _).groups g = _
    rw [rounds_groups sta _ (groupForEach_nodup _), if_pos (mem_groupForEach inside masked)]
  obtain ⟨zero, one⟩ := left_of_full full full' two user
  have counted := consistent.userCnt g inside
  rw [group, zero, one] at counted
  cases counted

theorem guard_of_consistent (inv : MuInv s) {a : MuAct S} (stepped : act s a = some u) (consistent : Consistent u) :
    Guard s a := by
  cases a with
  | staInit | setActiveSta | setActiveGroup | groupWork | groupUpdate => trivial
  | staDel sta =>
    have stepped : (if s.present sta then some (s.staDel sta) else none) = some u := stepped
    by_cases there : s.present sta = true
    · rw [if_pos there] at stepped
      obtain rfl := some.inj stepped
      refine BitVec.eq_of_getLsbD_eq fun g small => ?_
      rw [zero_getLsbD, getLsbD_and, getLsbD_mask]
      refine eq_false_iff.mpr fun both => ?_
      obtain ⟨on, inside⟩ := and_eq_true_iff.mp both
      exact not_consistent_of_member inv (of_decide_eq_true inside) on consistent
    · rw [if_neg there] at stepped
      cases stepped

/-- **MU groups are consistent** in every run in which only stations without a group are removed, and after such
a run a step keeps them so exactly when it meets the guard too. -/
theorem mu_groups_consistent (reach : (system S).Reachable Guard s) :
    Consistent s ∧ ∀ a t, act s a = some t → (Consistent t ↔ Guard s a) := by
  have inv : MuInv s := reach.invariant (I := MuInv) MuInv.init fun _ _ _ _ inv guard stepped => inv.step guard stepped
  exact ⟨inv.consistent, fun a t stepped =>
    ⟨guard_of_consistent inv stepped, fun guard => (inv.step guard stepped).consistent⟩⟩

end Removal

/-- Three stations, two of them active, and a group of the two; the third one is removed. -/
theorem mu_groups_consistent_pair : ∃ s : MuHw ℕ, s.groupCnt = 1 ∧ Consistent s ∧
    ∀ a t, act s a = some t → (Consistent t ↔ Guard s a) := by
  have reach := System.reachable_of_run (system ℕ) Guard
    [.staInit 0 true, .staInit 1 true, .staInit 2 false, .setActiveSta 0 9, .setActiveSta 1 9, .groupWork,
      .staDel 2] (by decide +kernel)
  obtain ⟨consistent, step⟩ := mu_groups_consistent reach
  exact ⟨_, by decide +kernel, consistent, step⟩

/-- **The last user stays**: of a group of two one station is removed. The table of the group still has the other
one, whose map no longer has the group, and the group counts no user. -/
theorem last_user_stays : ¬∀ s : MuHw ℕ, (system ℕ).Reachable (fun _ _ => True) s → Consistent s := by
  intro claimed
  have reach := System.reachable_of_run (system ℕ) (fun _ _ => True)
    [.staInit 0 true, .staInit 1 true, .setActiveSta 0 9, .setActiveSta 1 9, .groupWork, .staDel 0]
    (by decide +kernel)
  generalize state : (System.run (system ℕ) (fun _ _ => True) _ _).get _ = q at reach
  have consistent := claimed q reach
  have users : 1 ∈ (q.groups 1).members := ⟨0, by rw [← state]; decide +kernel⟩
  have map : (q.info 1).map = 0 := by
    rw [← state]
    decide +kernel
  have on := (consistent.mirror 1 1 (by decide)).mpr users
  rw [map, zero_getLsbD] at on
  cases on

end W2l.Mu
