/-
**MU groups: the stations' bitmaps, the groups' tables, and the functions that change both.**

A group is a table of `CONFIG_USER_MAX` users, two where `CONFIG_AML_MUMIMO_TX` is set; a station has a bit for
each group it is in, and the number of these.

* `staInit`, `staDel` — `aml_mu_group_sta_init` and `aml_mu_group_sta_del`.
* `removeUsers`, `addUsers` — the users of one group; with three or more users a group, `createOne` would also
  try to complete one.
* `createOne`, `create`, `groupWork` — groups for the stations that were active.
-/

import W2lDriver.Lib.BitMap
import W2lDriver.Lib.System

namespace W2l.Mu

open Lib (System setBit clearBit)

abbrev configUserMax : ℕ := 2

abbrev nxMuGroupMax : ℕ := 62

def amlSuGroup : BitVec 64 := 1

def amlMuGroupMask : BitVec 64 := 0x7ffffffffffffffe

/-- `group_for_each`: the set bits above bit 0, the highest first. -/
def groupForEach (map : BitVec 64) : List ℕ :=
  (List.range 64).reverse.filter fun id => decide (0 < id) && map.getLsbD id

/-- `AML_GET_FIRST_GROUP_ID`: the highest set bit. -/
def getFirstGroupId (map : BitVec 64) : ℕ := ((List.range 64).reverse.find? fun id => map.getLsbD id).getD 0

variable {S : Type} [DecidableEq S]

/-- `struct aml_sta_group_info`; its nodes are in the lists of `MuHw`. -/
structure GroupInfo where
  lastUpdate : UInt16
  cnt : Int
  map : BitVec 64
  traffic : Int
  group : ℕ
  deriving DecidableEq

structure MuGroup (S : Type) where
  userCnt : Int
  users : Fin configUserMax → Option S

/-- `struct aml_mu_info`, with the group information of the stations. `present` are the stations that were
added and not removed since. -/
structure MuHw (S : Type) where
  info : S → GroupInfo
  groups : ℕ → MuGroup S
  activeGroups : List ℕ
  activeSta : List S
  updateSta : List S
  updateCount : UInt16
  groupCnt : UInt8
  present : S → Bool

/-- `aml_mu_group_move_head`. -/
def moveHead {α : Type} [DecidableEq α] (list : List α) (elem : α) : List α := elem :: list.erase elem

namespace MuHw

variable (s : MuHw S)

def setInfo (sta : S) (info : GroupInfo) : MuHw S := { s with info := Function.update s.info sta info }

def setGroup (id : ℕ) (group : MuGroup S) : MuHw S := { s with groups := Function.update s.groups id group }

/-! ### Stations -/

/-- `aml_mu_group_sta_init`. -/
def staInit (sta : S) (muBeamformee : Bool) : MuHw S :=
  { s.setInfo sta ⟨0, 0, if muBeamformee then 0 else amlSuGroup, 0, 0⟩ with
    present := Function.update s.present sta true }

def lastUser (id : ℕ) : MuHw S :=
  let group := s.groups id
  match (List.finRange configUserMax).findSome? group.users with
  | none => s
  | some other =>
    let info := s.info other
    (s.setInfo other { info with
      cnt := info.cnt - 1
      map := clearBit info.map id
      group := if info.group = id then 0 else info.group }).setGroup id { group with userCnt := group.userCnt - 1 }

/-- One round of `aml_mu_group_sta_del`. -/
def leaveGroup (sta : S) (id : ℕ) : MuHw S :=
  let group := s.groups id
  match (List.finRange configUserMax).find? fun i => decide (group.users i = some sta) with
  | none => s
  | some i =>
    let t := s.setGroup id ⟨group.userCnt - 1, Function.update group.users i none⟩
    if group.userCnt - 1 = 1 then { t.lastUser id with groupCnt := t.groupCnt - 1 } else t

/-- `aml_mu_group_sta_del`. -/
def staDel (sta : S) : MuHw S :=
  let t := (groupForEach ((s.info sta).map &&& amlMuGroupMask)).foldl (fun s id => s.leaveGroup sta id) s
  { t.setInfo sta { t.info sta with cnt := 0, map := 0, traffic := 0 } with
    activeSta := t.activeSta.erase sta
    updateSta := t.updateSta.erase sta
    present := Function.update t.present sta false }

/-- `aml_mu_set_active_sta`. -/
def setActiveSta (sta : S) (traffic : Int) : MuHw S :=
  if (s.info sta).map &&& amlSuGroup ≠ 0 then s
  else
    let t := s.setInfo sta { s.info sta with traffic := (s.info sta).traffic + traffic }
    if (s.info sta).lastUpdate ≠ s.updateCount ∨ s.activeSta ≠ [] then
      { t with activeSta := moveHead s.activeSta sta }
    else t

/-- `aml_mu_set_active_group`. -/
def setActiveGroup (id : ℕ) : MuHw S := { s with activeGroups := moveHead s.activeGroups id }

/-! ### The users of a group -/

/-- One round of `aml_mu_group_remove_users`. -/
def removeUser (id : ℕ) (i : Fin configUserMax) : MuHw S :=
  match (s.groups id).users i with
  | none => s
  | some sta =>
    let t := s.setGroup id { s.groups id with users := Function.update (s.groups id).users i none }
    { t.setInfo sta { s.info sta with cnt := (s.info sta).cnt - 1, map := clearBit (s.info sta).map id } with
      updateSta := moveHead s.updateSta sta }

/-- `aml_mu_group_remove_users`. -/
def removeUsers (id : ℕ) : MuHw S :=
  let t := (List.finRange configUserMax).foldl (fun s i => s.removeUser id i) s
  { t.setGroup id { t.groups id with userCnt := 0 } with
    groupCnt := if (t.groups id).userCnt ≠ 0 then t.groupCnt - 1 else t.groupCnt }

def addUser (id : ℕ) (j : Fin configUserMax) (sta : S) : MuHw S :=
  let t := s.setGroup id ⟨(s.groups id).userCnt + 1, Function.update (s.groups id).users j (some sta)⟩
  { t.setInfo sta { s.info sta with cnt := (s.info sta).cnt + 1, map := setBit (s.info sta).map id } with
    updateSta := moveHead s.updateSta sta }

/-- The next free position of a group, from `j` on. -/
def freeFrom (id j : ℕ) : Option (Fin configUserMax) :=
  (List.finRange configUserMax).find? fun i => decide (j ≤ i.val) && decide ((s.groups id).users i = none)

/-- The loops of `aml_mu_group_add_users`: each user takes the next free position from `j` on. -/
def addLoop (id : ℕ) : List S → ℕ → MuHw S → MuHw S
  | [], _, s => s
  | sta :: rest, j, s =>
    match s.freeFrom id j with
    | some i => addLoop id rest (i.val + 1) (s.addUser id i sta)
    | none => addLoop id rest configUserMax s

/-- `aml_mu_group_add_users`. -/
def addUsers (id : ℕ) (users : List S) : MuHw S :=
  addLoop id users 0 (if (s.groups id).userCnt = 0 then { s with groupCnt := s.groupCnt + 1 } else s)

/-! ### Groups -/

/-- `aml_mu_group_create_one` for two users; it says whether a group was created. -/
def createOne (first second : S) : MuHw S × Bool :=
  let groupMatch := (s.info first).map &&& (s.info second).map
  if groupMatch ≠ 0 then ({ s with activeGroups := moveHead s.activeGroups (getFirstGroupId groupMatch) }, false)
  else
    let id := s.activeGroups.getLast?.getD 0
    let t := (s.removeUsers id).addUsers id [first, second]
    ({ t with activeGroups := moveHead t.activeGroups id }, true)

end MuHw

/-- The loop of `aml_mu_group_create` over the stations after `sta`. A group that was created is counted by
`aml_mu_group_create_one` and by its caller. -/
def create (sta : S) : List S → Int → MuHw S → MuHw S × Int
  | [], left, s => (s, left)
  | user :: rest, left, s =>
    if left = 0 then (s, left)
    else
      let made := s.createOne sta user
      create sta rest (if made.2 then left - 2 else left) made.1

/-- The loop of `aml_mu_group_work` over the active stations. -/
def workLoop : List S → Int → MuHw S → MuHw S
  | [], _, s => s
  | sta :: rest, left, s =>
    let made := if left ≠ 0 then create sta rest left s else (s, left)
    let t := made.1
    workLoop rest made.2
      { t.setInfo sta { t.info sta with lastUpdate := t.updateCount } with activeSta := t.activeSta.erase sta }

namespace MuHw

variable (s : MuHw S)

/-- `update_count`, which is never 0. -/
def nextUpdate : UInt16 := if s.updateCount + 1 = 0 then s.updateCount + 2 else s.updateCount + 1

/-- `aml_mu_group_work` up to the commands. -/
def groupWork : MuHw S := workLoop s.activeSta nxMuGroupMax { s with updateCount := s.nextUpdate }

/-- The commands of `aml_mu_group_work`, one for each station whose groups have changed. -/
def groupUpdate : MuHw S := { s with updateSta := [] }

end MuHw

/-! ### The system -/

/-- `aml_mu_group_init`; the table of the stations is zeroed. -/
def init : MuHw S where
  info := fun _ => ⟨0, 0, 0, 0, 0⟩
  groups := fun _ => ⟨0, fun _ => none⟩
  activeGroups := (List.range nxMuGroupMax).reverse.map (· + 1)
  activeSta := []
  updateSta := []
  updateCount := 1
  groupCnt := 0
  present := fun _ => false

/-- What can happen. -/
inductive MuAct (S : Type)
  | staInit (sta : S) (muBeamformee : Bool)
  | staDel (sta : S)
  | setActiveSta (sta : S) (traffic : Int)
  | setActiveGroup (id : ℕ)
  | groupWork
  | groupUpdate
  deriving DecidableEq

/-- One step: a station is added when it is not there, and the others are there. -/
def act (s : MuHw S) : MuAct S → Option (MuHw S)
  | .staInit sta muBeamformee => if s.present sta then none else some (s.staInit sta muBeamformee)
  | .staDel sta => if s.present sta then some (s.staDel sta) else none
  | .setActiveSta sta traffic => if s.present sta then some (s.setActiveSta sta traffic) else none
  | .setActiveGroup id => if id ∈ Finset.Icc 1 nxMuGroupMax then some (s.setActiveGroup id) else none
  | .groupWork => some s.groupWork
  | .groupUpdate => some s.groupUpdate

def system (S : Type) [DecidableEq S] : System (MuHw S) (MuAct S) := ⟨init, act⟩

end W2l.Mu
