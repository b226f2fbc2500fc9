/-
**The elements of a fast transition, merged into the stored association request.**

`aml_cfg80211_update_ft_ies`, `aml_rsne_to_connect_params` (`fullmac/aml_main.c`). The RSN, mobility domain and fast
transition elements (RSN, MDE, FTE) of the stored list are replaced by new ones while the list is copied. A new FTE for
which the list has none is put behind the MDE; a new RSN or MDE for which it has none is dropped.

* `newElems`, `mergeStep`, `merge` — the new elements, an element of the stored list, and the copy.
* `updateFtIes` — the whole, with its exits.
* `FtRight` — **what a call should do**: the merged list, or nothing changed.
* `Merging` — where the copy stands; `merge_spec` — that it ends, unless it meets an element it has no new one for.
* `Fits` — when a call does what it should; `updateFtIes_right` — just then.
-/

import Mathlib.Data.List.Count
import W2lDriver.Lib.Element

namespace W2l.Conn

open Lib
open List (append_assoc append_inj' append_nil cons_append cons_ne_nil filter_append filter_cons map_append
  map_cons mem_cons mem_singleton sum_append sum_cons)

/-! ### The code -/

/-- `WLAN_EID_RSN`. -/
abbrev eidRsn : Byte := 48

/-- `WLAN_EID_MOBILITY_DOMAIN`. -/
abbrev eidMobilityDomain : Byte := 54

/-- `WLAN_EID_FAST_BSS_TRANSITION`. -/
abbrev eidFastBssTransition : Byte := 55

/-- The numbers of the elements that are replaced. -/
def ftIds : List Byte := [eidRsn, eidMobilityDomain, eidFastBssTransition]

/-- The elements that are still to be put. -/
structure FtElems where
  rsne : Option Element
  mde : Option Element
  fte : Option Element

def newElems (es : List Element) : FtElems where
  rsne := lastWith eidRsn es
  mde := lastWith eidMobilityDomain es
  fte := lastWith eidFastBssTransition es

def FtElems.ftInNonRsn (new : FtElems) : Bool := new.rsne.isNone && new.fte.isNone

/-- The copy: what is written, and what is still to be put. -/
structure Merge extends FtElems where
  out : List Element := []

/-- `memcpy(pos, fte, …)`, where there is one. -/
def Merge.putFte (s : Merge) : Merge := { s with out := s.out ++ s.fte.toList, fte := none }

/-- An element of the stored list; `none` is the jump to `abort`. -/
def mergeStep (ftInNonRsn : Bool) (s : Merge) (e : Element) : Option Merge :=
  if e.id = eidRsn then
    if ftInNonRsn then none
    else
      match s.rsne with
      | none => none
      | some rsne => some { s with out := s.out ++ [rsne], rsne := none }
  else if e.id = eidMobilityDomain then
    match s.mde with
    | none => none
    | some mde => some { s with out := s.out ++ [mde], mde := none }
  else if e.id = eidFastBssTransition then
    if ftInNonRsn then none
    else
      match s.fte with
      | none => none
      | some fte => some { s with out := s.out ++ [fte], fte := none }
  else
    -- an FTE is put behind the MDE if the list has none there
    let s := if s.fte.isSome && s.mde.isNone then s.putFte else s
    some { s with out := s.out ++ [e] }

/-- The copy of a list; an error is where it is aborted. -/
def merge (ftInNonRsn : Bool) : Merge → List Element → Except Merge Merge
  | s, [] => .ok s.putFte
  | s, e :: rest =>
    match mergeStep ftInNonRsn s e with
    | none => .error s
    | some t => merge ftInNonRsn t rest

/-- A 16-bit number of an RSN element, low byte first. -/
def le16At (data : List Byte) (o : ℕ) : ℕ := (data.getD o 0).toNat + 256 * (data.getD (o + 1) 0).toNat

/-- What `aml_rsne_to_connect_params` returns is 0: the counts of an RSN element fit. -/
def rsneFits (rsne : Element) : Bool :=
  let len := rsne.data.length
  let pairwise := 4 * le16At rsne.data 6
  if len < 8 then false
  else if len - 8 < pairwise + 2 then false
  else if len - 8 - pairwise - 2 < 4 * le16At rsne.data (8 + pairwise) then false
  else true

/-- The part of a station for its fast transitions. -/
structure StaFt where
  ftAssocIes : Option (List Byte)
  ftAssocIesLen : ℕ
  overDs : Bool
  overAir : Bool

/-- How a call ends. -/
inductive FtExit
  | unused
  | missing
  | noMemory
  | abort
  | rsnFailed
  | done
  deriving DecidableEq

/-- What goes to the firmware: a connect request with its SSID, or the elements of an authentication response. -/
inductive FtMsg
  | connect (ssid ie : List Byte)
  | authRsp (ie : List Byte)

/-- What a call leaves; `allocated` and `written` are those of the new buffer, `freed` is the stored one. -/
structure FtOut where
  sta : StaFt
  exit : FtExit
  freed : Bool := false
  allocated : ℕ := 0
  written : ℕ := 0
  sent : Option FtMsg := none

def ftiesLen (es : List Element) : ℕ := ((es.filter fun e => decide (e.id ∈ ftIds)).map Element.size).sum

/-- The messages behind the merge. -/
def sendFt (sta : StaFt) (ies : List Byte) : StaFt × FtExit × Option FtMsg :=
  let ssidLen := (ies.getD 1 0).toNat + 2
  if sta.overDs then
    if ((elements ies).find? fun e => decide (e.id = eidRsn)).any fun rsne => !rsneFits rsne then
      (sta, .rsnFailed, none)
    else ({ sta with overDs := false }, .done, some (.connect ((ies.take ssidLen).drop 2) (ies.drop ssidLen)))
  else if sta.overAir then ({ sta with overAir := false }, .done, some (.authRsp (ies.drop ssidLen)))
  else (sta, .done, none)

/-- `aml_cfg80211_update_ft_ies`; `kmalloc` may fail. -/
def updateFtIes (kmalloc : ℕ → Bool) (station : Bool) (sta : StaFt) (ie : List Byte) : FtOut :=
  match station, sta.ftAssocIes with
  | true, some ies =>
    let stored := elements (ies.take sta.ftAssocIesLen)
    let new := newElems (elements ie)
    let ftInNonRsn := new.ftInNonRsn
    if new.mde.isNone then { sta, exit := .missing }
    else if !ftInNonRsn && (new.rsne.isNone || new.fte.isNone) then { sta, exit := .missing }
    else
      let size := sta.ftAssocIesLen - ftiesLen stored + ie.length
      if !kmalloc size then { sta, exit := .noMemory }
      else
        match merge ftInNonRsn { new with } stored with
        | .error s => { sta, exit := .abort, allocated := size, written := (elementsBytes s.out).length }
        | .ok s =>
          let bytes := elementsBytes s.out
          let (sta, exit, sent) := sendFt { sta with ftAssocIes := some bytes, ftAssocIesLen := bytes.length } bytes
          ⟨sta, exit, true, size, bytes.length, sent⟩
  | _, _ => { sta, exit := .unused }

/-! ### The property -/

def replaced (new : List Element) (e : Element) : Element := if e.id ∈ ftIds then (lastWith e.id new).getD e else e

/-- **The merged list.** -/
structure Merged (stored new merged : List Element) : Prop where
  others : merged.filter (fun e => decide (e.id ∉ ftIds)) = stored.filter fun e => decide (e.id ∉ ftIds)
  order : List.Sublist (stored.map (replaced new)) merged
  once : ∀ e ∈ new, e.id ∈ ftIds → merged.count e = 1
  only : ∀ e ∈ merged, e.id ∈ ftIds → e ∈ new

def StaFt.holding (sta : StaFt) (stored : List Element) : StaFt :=
  { sta with ftAssocIes := some (elementsBytes stored), ftAssocIesLen := (elementsBytes stored).length }

/-- **What a call should do.** -/
structure FtRight (stored : List Element) (sta : StaFt) (ie : List Byte) (out : FtOut) : Prop where
  inside : out.written ≤ out.allocated
  done : out.exit = .done → ∃ merged, Merged stored (elements ie) merged ∧
    out.sta.ftAssocIes = some (elementsBytes merged) ∧ out.sta.ftAssocIesLen = out.written ∧
    out.written = (elementsBytes merged).length
  failed : out.exit ≠ .done → out.freed = false ∧ out.sta.ftAssocIes = sta.ftAssocIes ∧
    out.sta.ftAssocIesLen = sta.ftAssocIesLen

/-! ### When it does -/

def Has (id : Byte) (es : List Element) : Prop := ∃ e ∈ es, e.id = id

def BehindMde (es : List Element) : Prop :=
  ∃ front e back, es = front ++ e :: back ∧ Has eidMobilityDomain front ∧ e.id ∉ ftIds

/-- The new element with a number has been put when the elements `front` are copied. -/
def Put (id : Byte) (front : List Element) : Prop := Has id front ∨ id = eidFastBssTransition ∧ BehindMde front

/-- There is no new element for one of the stored list. -/
def Blocked (ftInNonRsn : Bool) (front : List Element) (e : Element) : Prop :=
  e.id ∈ ftIds ∧ (ftInNonRsn = true ∧ e.id ≠ eidMobilityDomain ∨ Put e.id front)

def Aborts (ftInNonRsn : Bool) (stored : List Element) : Prop :=
  ∃ front e back, stored = front ++ e :: back ∧ Blocked ftInNonRsn front e

def nonRsn (new : List Element) : Bool := (newElems new).ftInNonRsn

/-- A new MDE, and a new RSN and a new FTE or neither of them. -/
def Accepted (new : List Element) : Prop :=
  ∀ id ∈ ftIds, lastWith id new = none ↔ nonRsn new = true ∧ id ≠ eidMobilityDomain

def newSize (stored : List Element) (ie : List Byte) : ℕ :=
  (elementsBytes stored).length - ftiesLen stored + ie.length

/-- The call is refused or aborted; or the stored list has an MDE, and an RSN if there is a new one, no two new
elements differ, and the RSN can be parsed if it has to be. -/
def Fits (kmalloc : ℕ → Bool) (station : Bool) (stored : List Element) (sta : StaFt) (ie : List Byte) : Prop :=
  station = false ∨ ¬Accepted (elements ie) ∨ kmalloc (newSize stored ie) = false ∨
    Aborts (nonRsn (elements ie)) stored ∨
    (Has eidMobilityDomain stored ∧ (Has eidRsn (elements ie) → Has eidRsn stored) ∧
      (∀ e ∈ elements ie, e.id ∈ ftIds → lastWith e.id (elements ie) = some e) ∧
      (sta.overDs = true → ∀ rsne, lastWith eidRsn (elements ie) = some rsne → rsneFits rsne = true))

/-! ### The copy -/

def FtElems.get (s : FtElems) (id : Byte) : Option Element :=
  if id = eidRsn then s.rsne else if id = eidMobilityDomain then s.mde else if id = eidFastBssTransition then s.fte
  else none

def Merge.put (s : Merge) (id : Byte) (e : Element) : Merge where
  rsne := if id = eidRsn then none else s.rsne
  mde := if id = eidMobilityDomain then none else s.mde
  fte := if id = eidFastBssTransition then none else s.fte
  out := s.out ++ [e]

section Step

variable {ftInNonRsn : Bool} {s : Merge} {e : Element} {id id' : Byte} {new : List Element}

theorem ftIds_cases (member : id ∈ ftIds) : id = eidRsn ∨ id = eidMobilityDomain ∨ id = eidFastBssTransition := by
  unfold ftIds at member
  rwa [mem_cons, mem_cons, mem_singleton] at member

theorem newElems_get (member : id ∈ ftIds) : (newElems new).get id = lastWith id new := by
  rcases ftIds_cases member with rfl | rfl | rfl <;> rfl

theorem put_get (member : id' ∈ ftIds) : (s.put id e).get id' = if id = id' then none else s.get id' := by
  rcases ftIds_cases member with rfl | rfl | rfl <;> rfl

theorem mergeStep_ft (member : e.id ∈ ftIds) : mergeStep ftInNonRsn s e =
    if ftInNonRsn = true ∧ e.id ≠ eidMobilityDomain then none else (s.get e.id).map (s.put e.id) := by
  unfold mergeStep FtElems.get Merge.put
  rcases ftIds_cases member with rsn | md | ft
  · rw [if_pos rsn, rsn]
    cases ftInNonRsn with
    | true => rfl
    | false => cases s.rsne <;> rfl
  · rw [if_neg (by rw [md]; decide), if_pos md, md]
    rw [if_neg fun both => both.2 rfl]
    cases s.mde <;> rfl
  · rw [if_neg (by rw [ft]; decide), if_neg (by rw [ft]; decide), if_pos ft, ft]
    cases ftInNonRsn with
    | true => rfl
    | false => cases s.fte <;> rfl

theorem mergeStep_other (stays : e.id ∉ ftIds) : mergeStep ftInNonRsn s e =
    some { (if s.fte.isSome && s.mde.isNone then s.putFte else s) with
      out := (if s.fte.isSome && s.mde.isNone then s.putFte else s).out ++ [e] } := by
  have apart : e.id ≠ eidRsn ∧ e.id ≠ eidMobilityDomain ∧ e.id ≠ eidFastBssTransition := by
    unfold ftIds at stays
    rw [mem_cons, mem_cons, mem_singleton] at stays
    push Not at stays
    exact stays
  unfold mergeStep
  rw [if_neg apart.1, if_neg apart.2.1, if_neg apart.2.2]

end Step

/-- **Where the copy stands** when the elements `front` are copied. -/
structure Merging (new front : List Element) (s : Merge) : Prop where
  put : ∀ id ∈ ftIds, Put id front → s.get id = none
  pending : ∀ id ∈ ftIds, ¬Put id front → s.get id = lastWith id new
  out : ∀ id ∈ ftIds, s.out.filter (fun e => decide (e.id = id)) ++ (s.get id).toList = (lastWith id new).toList
  others : s.out.filter (fun e => decide (e.id ∉ ftIds)) = front.filter fun e => decide (e.id ∉ ftIds)
  order : List.Sublist (front.map (replaced new)) s.out

section Copy

variable {ftInNonRsn : Bool} {s : Merge} {e : Element} {id : Byte} {new front rest : List Element}

theorem has_append : Has id (front ++ [e]) ↔ Has id front ∨ e.id = id := by
  unfold Has
  constructor
  · rintro ⟨x, member, same⟩
    rcases List.mem_append.mp member with before | last
    · exact .inl ⟨x, before, same⟩
    · rw [mem_singleton.mp last] at same
      exact .inr same
  · rintro (⟨x, before, same⟩ | same)
    · exact ⟨x, List.mem_append_left _ before, same⟩
    · exact ⟨e, List.mem_append_right _ List.mem_cons_self, same⟩

theorem behindMde_append : BehindMde (front ++ [e]) ↔ BehindMde front ∨ Has eidMobilityDomain front ∧ e.id ∉ ftIds := by
  constructor
  · rintro ⟨first, x, back, same, md, stays⟩
    rcases List.eq_nil_or_concat back with rfl | ⟨back, last, rfl⟩
    · obtain ⟨rfl, single⟩ := append_inj' same rfl
      obtain rfl := (List.cons.inj single).1
      exact .inr ⟨md, stays⟩
    · have last : front ++ [e] = (first ++ x :: back) ++ [last] := by
        rw [same, List.concat_eq_append, append_assoc, cons_append]
      obtain ⟨rfl, -⟩ := append_inj' last rfl
      exact .inl ⟨first, x, back, rfl, md, stays⟩
  · rintro (⟨first, x, back, rfl, md, stays⟩ | ⟨md, stays⟩)
    · exact ⟨first, x, back ++ [e], by rw [append_assoc, cons_append], md, stays⟩
    · exact ⟨front, e, [], rfl, md, stays⟩

theorem put_append_ft (member : e.id ∈ ftIds) : Put id (front ++ [e]) ↔ Put id front ∨ e.id = id := by
  have same : BehindMde (front ++ [e]) ↔ BehindMde front :=
    behindMde_append.trans (or_iff_left fun both => both.2 member)
  unfold Put
  rw [has_append, same]
  exact or_right_comm

theorem put_append_other (stays : e.id ∉ ftIds) (member : id ∈ ftIds) :
    Put id (front ++ [e]) ↔ Put id front ∨ id = eidFastBssTransition ∧ Has eidMobilityDomain front := by
  have apart : e.id ≠ id := fun same => stays (same ▸ member)
  unfold Put
  rw [has_append, behindMde_append, or_iff_left apart, and_iff_left stays, and_or_left, or_assoc]

namespace Merging

theorem init : Merging new [] { newElems new with } where
  put id _ put := by
    rcases put with ⟨_, none, -⟩ | ⟨-, front, e, back, none, -⟩
    · exact absurd none List.not_mem_nil
    · exact absurd none.symm (List.append_ne_nil_of_right_ne_nil _ (cons_ne_nil _ _))
  pending id member _ := newElems_get member
  out id member := congrArg Option.toList (newElems_get member)
  others := rfl
  order := .slnil

section

variable (merging : Merging new front s)

include merging

theorem get_id (member : id ∈ ftIds) {x : Element} (some : s.get id = some x) :
    lastWith id new = Option.some x ∧ x.id = id := by
  have out := merging.out id member
  rw [some] at out
  cases last : lastWith id new with
  | none =>
    rw [last] at out
    exact absurd out (List.append_ne_nil_of_right_ne_nil _ (cons_ne_nil _ _))
  | some y =>
    rw [last] at out
    have single : s.out.filter (fun e => decide (e.id = id)) ++ [x] = [] ++ [y] := out
    obtain rfl := (List.cons.inj (append_inj' single rfl).2).1
    exact ⟨rfl, (lastWith_eq_some last).2⟩

theorem fte_toList {q : Element → Bool}
    (other : ∀ x : Element, x.id = eidFastBssTransition → q x = false) : s.fte.toList.filter q = [] := by
  cases fte : s.fte with
  | none => rfl
  | some x =>
    have inside : eidFastBssTransition ∈ ftIds := by decide
    have number := (merging.get_id inside (show s.get eidFastBssTransition = some x from fte)).2
    exact List.filter_eq_nil_iff.mpr fun y member => by
      rw [mem_singleton.mp member, other x number]
      exact Bool.false_ne_true

theorem putFte : (∀ id ∈ ftIds, s.putFte.get id = if eidFastBssTransition = id then none else s.get id) ∧
      (∀ id ∈ ftIds, s.putFte.out.filter (fun e => decide (e.id = id)) ++ (s.putFte.get id).toList =
        (lastWith id new).toList) ∧
      s.putFte.out.filter (fun e => decide (e.id ∉ ftIds)) = front.filter (fun e => decide (e.id ∉ ftIds)) ∧
      List.Sublist (front.map (replaced new)) s.putFte.out := by
  have gets : ∀ id ∈ ftIds, s.putFte.get id = if eidFastBssTransition = id then none else s.get id := by
    intro id member
    rcases ftIds_cases member with rfl | rfl | rfl <;> rfl
  refine ⟨gets, fun id member => ?_, ?_, merging.order.trans (List.sublist_append_left _ _)⟩
  · have before := merging.out id member
    show (s.out ++ s.fte.toList).filter _ ++ _ = _
    rw [gets id member, filter_append, append_assoc]
    by_cases same : eidFastBssTransition = id
    · subst same
      rw [if_pos rfl]
      cases fte : s.fte with
      | none =>
        rw [show s.get eidFastBssTransition = none from fte] at before
        exact before
      | some x =>
        have number := (merging.get_id member fte).2
        rw [show s.get eidFastBssTransition = some x from fte] at before
        rw [← before]
        congr 1
        rw [Option.toList_some, List.filter_cons_of_pos (by rw [number]; exact decide_eq_true rfl)]
        rfl
    · have skipped : s.fte.toList.filter (fun e => decide (e.id = id)) = [] :=
        merging.fte_toList fun x number => decide_eq_false fun eq => same (number.symm.trans eq)
      rw [if_neg same, skipped]
      exact before
  · have skipped : s.fte.toList.filter (fun e => decide (e.id ∉ ftIds)) = [] :=
      merging.fte_toList fun x number => decide_eq_false (by rw [number]; decide)
    show (s.out ++ s.fte.toList).filter _ = _
    rw [filter_append, skipped, append_nil]
    exact merging.others

theorem step_ft {x : Element} (member : e.id ∈ ftIds) (fresh : ¬Put e.id front)
    (found : lastWith e.id new = some x) : Merging new (front ++ [e]) (s.put e.id x) := by
  have number := (lastWith_eq_some found).2
  have got := merging.pending e.id member fresh
  refine ⟨fun id inside put => ?_, fun id inside fresh => ?_, fun id inside => ?_, ?_, ?_⟩
  · rw [put_get inside]
    by_cases same : e.id = id
    · rw [if_pos same]
    · rw [if_neg same]
      exact merging.put id inside (((put_append_ft member).mp put).resolve_right same)
  · rw [put_append_ft member] at fresh
    push Not at fresh
    rw [put_get inside, if_neg fresh.2]
    exact merging.pending id inside fresh.1
  · rw [put_get inside]
    show (s.out ++ [x]).filter _ ++ _ = _
    have before := merging.out id inside
    by_cases same : e.id = id
    · subst same
      rw [got, found] at before
      rw [if_pos rfl, found, filter_append, List.filter_cons_of_pos (by rw [number]; exact decide_eq_true rfl),
        Option.toList_none, append_nil]
      exact before
    · have other : decide (x.id = id) = false := decide_eq_false fun eq => same (number.symm.trans eq)
      rw [if_neg same, filter_append, List.filter_cons_of_neg (by rw [other]; exact Bool.false_ne_true),
        List.filter_nil, append_nil]
      exact before
  · show (s.out ++ [x]).filter _ = _
    have left : ∀ y : Element, y.id = e.id → [y].filter (fun e => decide (e.id ∉ ftIds)) = [] := fun y same => by
      refine List.filter_eq_nil_iff.mpr fun z single => ?_
      rw [mem_singleton.mp single, same, decide_eq_true_iff]
      exact not_not_intro member
    rw [filter_append, filter_append, left x number, left e rfl, merging.others]
  · show List.Sublist _ (s.out ++ [x])
    have by_ : replaced new e = x := by
      unfold replaced
      rw [if_pos member, found]
      rfl
    rw [map_append, List.map_singleton, by_]
    exact merging.order.append_right [x]

end

theorem write_other {t : Merge} (stays : e.id ∉ ftIds) (put : ∀ id ∈ ftIds, Put id (front ++ [e]) → t.get id = none)
    (pending : ∀ id ∈ ftIds, ¬Put id (front ++ [e]) → t.get id = lastWith id new)
    (out : ∀ id ∈ ftIds, t.out.filter (fun e => decide (e.id = id)) ++ (t.get id).toList = (lastWith id new).toList)
    (others : t.out.filter (fun e => decide (e.id ∉ ftIds)) = front.filter fun e => decide (e.id ∉ ftIds))
    (order : List.Sublist (front.map (replaced new)) t.out) :
    Merging new (front ++ [e]) { t with out := t.out ++ [e] } := by
  refine ⟨put, pending, fun id member => ?_, ?_, ?_⟩
  · have apart : [e].filter (fun e => decide (e.id = id)) = [] := by
      refine List.filter_eq_nil_iff.mpr fun z single => ?_
      rw [mem_singleton.mp single, decide_eq_true_iff]
      exact fun same => stays (same ▸ member)
    show (t.out ++ [e]).filter _ ++ (t.get id).toList = _
    rw [filter_append, apart, append_nil]
    exact out id member
  · show (t.out ++ [e]).filter _ = _
    rw [filter_append, filter_append, others]
  · have same : replaced new e = e := if_neg stays
    show List.Sublist _ (t.out ++ [e])
    rw [map_append, List.map_singleton, same]
    exact order.append_right [e]

section

variable (merging : Merging new front s)

include merging

theorem step_other (stays : e.id ∉ ftIds)
    (md : lastWith eidMobilityDomain new ≠ none) :
    ∃ t, mergeStep ftInNonRsn s e = some t ∧ Merging new (front ++ [e]) t := by
  have gone : s.mde = none ↔ Has eidMobilityDomain front := by
    have notFt : ∀ {P : Prop}, ¬(eidMobilityDomain = eidFastBssTransition ∧ P) := fun both =>
      absurd both.1 (by decide)
    have put : Put eidMobilityDomain front ↔ Has eidMobilityDomain front := or_iff_left notFt
    constructor
    · intro none
      by_contra fresh
      exact md ((merging.pending eidMobilityDomain (by decide) fun p => fresh (put.mp p)).symm.trans none)
    · exact fun has => merging.put eidMobilityDomain (by decide) (put.mpr has)
  rw [mergeStep_other stays]
  refine ⟨_, rfl, ?_⟩
  cases puts : s.fte.isSome && s.mde.isNone with
  | true =>
    rw [if_pos rfl]
    obtain ⟨gets, out, others, order⟩ := merging.putFte
    rw [Bool.and_eq_true, Option.isNone_iff_eq_none] at puts
    refine write_other stays (fun id member put => ?_) (fun id member fresh => ?_) out others order
    · rw [gets id member]
      by_cases fte : eidFastBssTransition = id
      · rw [if_pos fte]
      · rw [if_neg fte]
        exact merging.put id member
          (((put_append_other stays member).mp put).resolve_right fun both => fte both.1.symm)
    · rw [put_append_other stays member] at fresh
      push Not at fresh
      have notFte : ¬eidFastBssTransition = id := fun fte => fresh.2 fte.symm (gone.mp puts.2)
      rw [gets id member, if_neg notFte]
      exact merging.pending id member fresh.1
  | false =>
    rw [if_neg Bool.false_ne_true]
    refine write_other stays (fun id member put => ?_) (fun id member fresh => ?_) merging.out merging.others
      merging.order
    · rcases (put_append_other stays member).mp put with before | ⟨rfl, has⟩
      · exact merging.put id member before
      · rw [gone.mpr has] at puts
        have none : s.fte.isSome = false := (Bool.and_true _).symm.trans puts
        show s.fte = Option.none
        exact Option.not_isSome_iff_eq_none.mp (by rw [none]; exact Bool.false_ne_true)
    · rw [put_append_other stays member] at fresh
      exact merging.pending id member fun put => fresh (.inl put)

theorem step (accepted : Accepted new) : Blocked (nonRsn new) front e ∧ mergeStep (nonRsn new) s e = none ∨
      ∃ t, mergeStep (nonRsn new) s e = some t ∧ Merging new (front ++ [e]) t ∧ ¬Blocked (nonRsn new) front e := by
  by_cases member : e.id ∈ ftIds
  · rw [mergeStep_ft member]
    by_cases refused : nonRsn new = true ∧ e.id ≠ eidMobilityDomain
    · rw [if_pos refused]
      exact .inl ⟨⟨member, .inl refused⟩, rfl⟩
    · rw [if_neg refused]
      by_cases put : Put e.id front
      · rw [merging.put e.id member put]
        exact .inl ⟨⟨member, .inr put⟩, rfl⟩
      · obtain ⟨x, found⟩ := Option.ne_none_iff_exists'.mp fun none => refused ((accepted e.id member).mp none)
        rw [merging.pending e.id member put, found]
        exact .inr ⟨_, rfl, merging.step_ft member put found, fun blocked => blocked.2.elim refused put⟩
  · have md : lastWith eidMobilityDomain new ≠ none := fun none =>
      ((accepted eidMobilityDomain (by decide)).mp none).2 rfl
    obtain ⟨t, ran, next⟩ : ∃ t, mergeStep (nonRsn new) s e = some t ∧ Merging new (front ++ [e]) t :=
      merging.step_other member md
    exact .inr ⟨t, ran, next, fun blocked => member blocked.1⟩

theorem run (accepted : Accepted new)
    (clear : ∀ a e b, front = a ++ e :: b → ¬Blocked (nonRsn new) a e) :
    (Aborts (nonRsn new) (front ++ rest) ∧ ∃ t a, merge (nonRsn new) s rest = .error t ∧ Merging new a t ∧
        a <+: front ++ rest) ∨
      ¬Aborts (nonRsn new) (front ++ rest) ∧ ∃ t, merge (nonRsn new) s rest = .ok t.putFte ∧
        Merging new (front ++ rest) t := by
  induction rest generalizing front s with
  | nil =>
    rw [append_nil]
    refine .inr ⟨?_, s, rfl, merging⟩
    rintro ⟨a, e, b, same, blocked⟩
    exact clear a e b same blocked
  | cons e rest ih =>
    rcases merging.step accepted (e := e) with ⟨blocked, none⟩ | ⟨t, ran, next, free⟩
    · refine .inl ⟨⟨front, e, rest, rfl, blocked⟩, s, front, ?_, merging, List.prefix_append _ _⟩
      unfold merge
      rw [none]
    · have clear' : ∀ a x b, front ++ [e] = a ++ x :: b → ¬Blocked (nonRsn new) a x := by
        intro a x b same
        rcases List.eq_nil_or_concat b with rfl | ⟨b, last, rfl⟩
        · obtain ⟨rfl, single⟩ := append_inj' same rfl
          obtain rfl := (List.cons.inj single).1
          exact free
        · have apart : front ++ [e] = (a ++ x :: b) ++ [last] := by
            rw [same, List.concat_eq_append, append_assoc, cons_append]
          obtain ⟨whole, -⟩ := append_inj' apart rfl
          exact clear a x b whole
      have later := ih next clear'
      rw [append_assoc, List.singleton_append] at later
      unfold merge
      rw [ran]
      exact later

end

end Merging

/-- **What the copy of a whole list leaves.** -/
structure Copied (stored new out : List Element) : Prop where
  found : ∀ id ∈ ftIds, id = eidFastBssTransition ∨ Has id stored →
    out.filter (fun e => decide (e.id = id)) = (lastWith id new).toList
  dropped : ∀ id ∈ ftIds, id ≠ eidFastBssTransition → ¬Has id stored → out.filter (fun e => decide (e.id = id)) = []
  others : out.filter (fun e => decide (e.id ∉ ftIds)) = stored.filter fun e => decide (e.id ∉ ftIds)
  order : List.Sublist (stored.map (replaced new)) out

theorem Merging.copied {stored : List Element} {t : Merge} (merging : Merging new stored t) :
    Copied stored new t.putFte.out := by
  obtain ⟨gets, out, others, order⟩ := merging.putFte
  refine ⟨fun id member which => ?_, fun id member notFte lacks => ?_, others, order⟩
  · have none : t.putFte.get id = none := by
      rw [gets id member]
      by_cases fte : eidFastBssTransition = id
      · rw [if_pos fte]
      · rw [if_neg fte]
        exact merging.put id member (.inl (which.resolve_left fun same => fte same.symm))
    have whole := out id member
    rw [none] at whole
    exact (append_nil _).symm.trans whole
  · have fresh : ¬Put id stored := fun put => put.elim lacks fun both => notFte both.1
    have whole := out id member
    rw [gets id member, if_neg (Ne.symm notFte), merging.pending id member fresh] at whole
    exact List.append_left_eq_self.mp whole

theorem merge_spec (stored : List Element) (accepted : Accepted new) :
    (Aborts (nonRsn new) stored ∧ ∃ t a, merge (nonRsn new) { newElems new with } stored = .error t ∧
        Merging new a t ∧ a <+: stored) ∨
      ¬Aborts (nonRsn new) stored ∧ ∃ t, merge (nonRsn new) { newElems new with } stored = .ok t ∧
        Copied stored new t.out := by
  have none : ∀ a e b, ([] : List Element) = a ++ e :: b → ¬Blocked (nonRsn new) a e := fun a e b same =>
    absurd same.symm (List.append_ne_nil_of_right_ne_nil _ (cons_ne_nil _ _))
  rcases Merging.init.run accepted none with aborted | ⟨clear, t, ran, merging⟩
  · exact .inl aborted
  · exact .inr ⟨clear, t.putFte, ran, merging.copied⟩

end Copy

/-! ### The size of the new buffer -/

section Size

variable {es stored new out : List Element} {id : Byte}

def sizeWith (id : Byte) (es : List Element) : ℕ := ((es.filter fun e => decide (e.id = id)).map Element.size).sum

def sizeOthers (es : List Element) : ℕ := ((es.filter fun e => decide (e.id ∉ ftIds)).map Element.size).sum

theorem size_split (es : List Element) : (elementsBytes es).length = sizeOthers es + ftiesLen es := by
  rw [length_elementsBytes]
  unfold sizeOthers ftiesLen
  induction es with
  | nil => rfl
  | cons e es ih =>
    rw [map_cons, sum_cons, ih, filter_cons, filter_cons]
    by_cases member : e.id ∈ ftIds
    · rw [if_neg (by simpa using member), if_pos (decide_eq_true member), map_cons, sum_cons]
      omega
    · rw [if_pos (decide_eq_true member), if_neg (by simpa using member), map_cons, sum_cons]
      omega

theorem ftiesLen_eq (es : List Element) : ftiesLen es =
    sizeWith eidRsn es + sizeWith eidMobilityDomain es + sizeWith eidFastBssTransition es := by
  unfold ftiesLen sizeWith
  induction es with
  | nil => rfl
  | cons e es ih =>
    simp only [filter_cons]
    by_cases member : e.id ∈ ftIds
    · rw [if_pos (decide_eq_true member), map_cons, sum_cons, ih]
      rcases ftIds_cases member with same | same | same <;> simp [same] <;> omega
    · have apart : e.id ≠ eidRsn ∧ e.id ≠ eidMobilityDomain ∧ e.id ≠ eidFastBssTransition := by
        simpa [ftIds] using member
      rw [if_neg (by simpa using member), if_neg (by simpa using apart.1), if_neg (by simpa using apart.2.1),
        if_neg (by simpa using apart.2.2), ih]

theorem size_last (id : Byte) (es : List Element) :
    ((lastWith id es).toList.map Element.size).sum ≤ sizeWith id es := by
  unfold sizeWith
  induction es using List.reverseRecOn with
  | nil => exact le_rfl
  | append_singleton es e ih =>
    rw [lastWith_append, filter_append, map_append, sum_append]
    by_cases same : e.id = id
    · rw [if_pos same, List.filter_cons_of_pos (by rw [same]; exact decide_eq_true rfl)]
      exact Nat.le_add_left _ _
    · rw [if_neg same]
      exact ih.trans (Nat.le_add_right _ _)

theorem Copied.sizeWith_le (copied : Copied stored new out) (member : id ∈ ftIds) :
    sizeWith id out ≤ sizeWith id new := by
  by_cases which : id = eidFastBssTransition ∨ Has id stored
  · unfold sizeWith
    rw [copied.found id member which]
    exact size_last id new
  · push Not at which
    unfold sizeWith
    rw [copied.dropped id member which.1 which.2]
    exact Nat.zero_le _

theorem Merging.sizeWith_le {s : Merge} {front : List Element} (merging : Merging new front s)
    (member : id ∈ ftIds) : sizeWith id s.out ≤ sizeWith id new := by
  refine le_trans ?_ (size_last id new)
  unfold sizeWith
  rw [← merging.out id member, map_append, sum_append]
  exact Nat.le_add_right _ _

theorem written_le {ie : List Byte} (each : ∀ id ∈ ftIds, sizeWith id out ≤ sizeWith id (elements ie))
    (others : sizeOthers out ≤ sizeOthers stored) : (elementsBytes out).length ≤ newSize stored ie := by
  have rsn := each eidRsn (by decide)
  have md := each eidMobilityDomain (by decide)
  have ft := each eidFastBssTransition (by decide)
  have new := size_split (elements ie)
  have front : (elementsBytes (elements ie)).length ≤ ie.length := (elements_front ie).length_le
  have whole := size_split stored
  unfold newSize
  rw [size_split out, ftiesLen_eq out]
  rw [ftiesLen_eq (elements ie)] at new
  omega

theorem Copied.written_le {ie : List Byte} (copied : Copied stored (elements ie) out) :
    (elementsBytes out).length ≤ newSize stored ie := by
  refine Conn.written_le (fun id member => copied.sizeWith_le member) (le_of_eq ?_)
  unfold sizeOthers
  rw [copied.others]

theorem Merging.written_le {ie : List Byte} {s : Merge} {front : List Element}
    (merging : Merging (elements ie) front s) (within : front <+: stored) :
    (elementsBytes s.out).length ≤ newSize stored ie := by
  refine Conn.written_le (fun id member => merging.sizeWith_le member) ?_
  obtain ⟨back, rfl⟩ := within
  unfold sizeOthers
  rw [merging.others, filter_append, map_append, sum_append]
  exact Nat.le_add_right _ _

end Size

/-! ### The call -/

section Call

variable {kmalloc : ℕ → Bool} {stored out : List Element} {sta : StaFt} {ie : List Byte} {id : Byte}

section

variable {new : List Element} (copied : Copied stored new out)

include copied

theorem Copied.only {e : Element} (written : e ∈ out)
    (member : e.id ∈ ftIds) : lastWith e.id new = some e ∧ (e.id = eidFastBssTransition ∨ Has e.id stored) := by
  have inside : e ∈ out.filter fun x => decide (x.id = e.id) :=
    List.mem_filter.mpr ⟨written, decide_eq_true rfl⟩
  by_cases which : e.id = eidFastBssTransition ∨ Has e.id stored
  · rw [copied.found e.id member which] at inside
    exact ⟨Option.mem_toList.mp inside, which⟩
  · push Not at which
    rw [copied.dropped e.id member which.1 which.2] at inside
    exact absurd inside List.not_mem_nil

theorem Copied.count {e : Element} (member : e.id ∈ ftIds)
    (last : lastWith e.id new = some e) (place : e.id = eidFastBssTransition ∨ Has e.id stored) :
    out.count e = 1 := by
  have single : out.filter (fun x => decide (x.id = e.id)) = [e] := by
    rw [copied.found e.id member place, last]
    rfl
  calc out.count e
      = (out.filter fun x => decide (x.id = e.id)).count e :=
        (List.count_filter (p := fun x : Element => decide (x.id = e.id)) (decide_eq_true rfl)).symm
    _ = 1 := by rw [single, List.count_singleton_self]

/-- **The copy is the merged list** just when every new element has a place and is the only one of its number. -/
theorem Copied.merged_iff (accepted : Accepted new) :
    Merged stored new out ↔ Has eidMobilityDomain stored ∧ (Has eidRsn new → Has eidRsn stored) ∧
      ∀ e ∈ new, e.id ∈ ftIds → lastWith e.id new = some e := by
  have md : ∃ e, lastWith eidMobilityDomain new = some e := Option.ne_none_iff_exists'.mp fun none =>
    ((accepted eidMobilityDomain (by decide)).mp none).2 rfl
  constructor
  · intro merged
    have there : ∀ e ∈ new, e.id ∈ ftIds → lastWith e.id new = some e ∧
        (e.id = eidFastBssTransition ∨ Has e.id stored) := by
      intro e member inside
      refine copied.only (List.count_pos_iff.mp ?_) inside
      rw [merged.once e member inside]
      exact Nat.one_pos
    refine ⟨?_, ?_, fun e member inside => (there e member inside).1⟩
    · obtain ⟨e, last⟩ := md
      obtain ⟨member, number⟩ := lastWith_eq_some last
      have place := (there e member (by rw [number]; decide)).2
      rw [number] at place
      exact place.resolve_left (by decide)
    · rintro ⟨e, member, number⟩
      have place := (there e member (by rw [number]; decide)).2
      rw [number] at place
      exact place.resolve_left (by decide)
  · rintro ⟨hasMd, hasRsn, unique⟩
    refine ⟨copied.others, copied.order, fun e member inside => ?_, fun e written inside => ?_⟩
    · refine copied.count inside (unique e member inside) ?_
      rcases ftIds_cases inside with rsn | mde | ft
      · rw [rsn]
        exact .inr (hasRsn ⟨e, member, rsn⟩)
      · rw [mde]
        exact .inr hasMd
      · exact .inl ft
    · exact (lastWith_eq_some (copied.only written inside).1).1

end

theorem accepted_iff {new : List Element} : Accepted new ↔ ¬(newElems new).mde.isNone = true ∧
    ¬(!nonRsn new && ((newElems new).rsne.isNone || (newElems new).fte.isNone)) = true := by
  have each : Accepted new ↔ (lastWith eidRsn new = none ↔ nonRsn new = true) ∧
      lastWith eidMobilityDomain new ≠ none ∧ (lastWith eidFastBssTransition new = none ↔ nonRsn new = true) := by
    unfold Accepted ftIds
    rw [List.forall_mem_cons, List.forall_mem_cons, List.forall_mem_singleton]
    refine and_congr (iff_congr Iff.rfl (and_iff_left (by decide))) (and_congr ?_
      (iff_congr Iff.rfl (and_iff_left (by decide))))
    exact ⟨fun none is => (none.mp is).2 rfl, fun some => iff_of_false some fun both => both.2 rfl⟩
  rw [each]
  unfold nonRsn FtElems.ftInNonRsn newElems
  cases lastWith eidRsn new <;> cases lastWith eidMobilityDomain new <;> cases lastWith eidFastBssTransition new <;>
    simp

theorem sendFt_sta (sta : StaFt) (ies : List Byte) :
    (sendFt sta ies).1.ftAssocIes = sta.ftAssocIes ∧ (sendFt sta ies).1.ftAssocIesLen = sta.ftAssocIesLen := by
  unfold sendFt
  dsimp only
  split
  · split <;> exact ⟨rfl, rfl⟩
  · split <;> exact ⟨rfl, rfl⟩

theorem sendFt_exit (sta : StaFt) (es : List Element) : (sendFt sta (elementsBytes es)).2.1 = .done ↔
    (sta.overDs = true → ∀ rsne, es.find? (fun e => decide (e.id = eidRsn)) = some rsne → rsneFits rsne = true) := by
  unfold sendFt
  rw [elements_bytes]
  dsimp only
  cases sta.overDs with
  | false =>
    rw [if_neg Bool.false_ne_true]
    refine iff_of_true ?_ fun ds => absurd ds Bool.false_ne_true
    split <;> rfl
  | true =>
    rw [if_pos rfl]
    cases es.find? (fun e => decide (e.id = eidRsn)) with
    | none => exact iff_of_true rfl fun _ _ found => absurd found.symm (Option.some_ne_none _)
    | some rsne =>
      cases fits : rsneFits rsne with
      | true => exact iff_of_true (by simp [fits]) fun _ _ same => Option.some.inj same ▸ fits
      | false =>
        refine iff_of_false (by simp [fits]) fun all => ?_
        exact Bool.false_ne_true (fits.symm.trans (all rfl rsne rfl))

theorem right_copied {allocated : ℕ} (copied : Copied stored (elements ie) out) (accepted : Accepted (elements ie))
    (room : allocated = newSize stored ie) :
    FtRight stored (sta.holding stored) ie
        ⟨(sendFt (sta.holding out) (elementsBytes out)).1, (sendFt (sta.holding out) (elementsBytes out)).2.1, true,
          allocated, (elementsBytes out).length, (sendFt (sta.holding out) (elementsBytes out)).2.2⟩ ↔
      Has eidMobilityDomain stored ∧ (Has eidRsn (elements ie) → Has eidRsn stored) ∧
        (∀ e ∈ elements ie, e.id ∈ ftIds → lastWith e.id (elements ie) = some e) ∧
        (sta.overDs = true → ∀ rsne, lastWith eidRsn (elements ie) = some rsne → rsneFits rsne = true) := by
  obtain ⟨ies, len⟩ := sendFt_sta (sta.holding out) (elementsBytes out)
  have exit := sendFt_exit (sta.holding out) out
  have head : out.find? (fun e => decide (e.id = eidRsn)) = (out.filter fun e => decide (e.id = eidRsn)).head? :=
    List.head?_filter.symm
  have merges := copied.merged_iff accepted
  constructor
  · intro right
    have ends : (sendFt (sta.holding out) (elementsBytes out)).2.1 = .done := by
      by_contra fails
      exact absurd (right.failed fails).1 (Bool.false_ne_true ∘ Eq.symm)
    obtain ⟨merged, holds, same, -, -⟩ := right.done ends
    have equal : merged = out := by
      have bytes : elementsBytes merged = elementsBytes out := Option.some.inj (same.symm.trans ies)
      rw [← elements_bytes merged, bytes, elements_bytes]
    subst equal
    obtain ⟨hasMd, hasRsn, unique⟩ := merges.mp holds
    refine ⟨hasMd, hasRsn, unique, fun ds rsne last => exit.mp ends ds rsne ?_⟩
    obtain ⟨member, number⟩ := lastWith_eq_some last
    rw [head, copied.found eidRsn (by decide) (.inr (hasRsn ⟨rsne, member, number⟩)), last]
    rfl
  · rintro ⟨hasMd, hasRsn, unique, parses⟩
    have ends : (sendFt (sta.holding out) (elementsBytes out)).2.1 = .done := by
      refine exit.mpr fun ds rsne found => parses ds rsne ?_
      have number : rsne.id = eidRsn := of_decide_eq_true
        (List.find?_some (p := fun e : Element => decide (e.id = eidRsn)) found)
      have last := (copied.only (List.mem_of_find?_eq_some found) (by rw [number]; decide)).1
      rwa [number] at last
    refine ⟨?_, fun _ => ⟨out, merges.mpr ⟨hasMd, hasRsn, unique⟩, ies, len, rfl⟩, fun fails => absurd ends fails⟩
    show (elementsBytes out).length ≤ allocated
    rw [room]
    exact copied.written_le

end Call

/-- **The update of the fast transition elements.** The stored list is merged with the new elements, or nothing is
changed, if and only if the call is refused or aborted, or each new element has a place in the list. -/
theorem updateFtIes_right (kmalloc : ℕ → Bool) (station : Bool) (stored : List Element) (sta : StaFt) (ie : List Byte) :
    FtRight stored (sta.holding stored) ie (updateFtIes kmalloc station (sta.holding stored) ie) ↔
      Fits kmalloc station stored sta ie := by
  have unchanged : ∀ exit allocated written, exit ≠ .done → written ≤ allocated →
      FtRight stored (sta.holding stored) ie { sta := sta.holding stored, exit, allocated, written } := by
    intro exit allocated written fails room
    exact ⟨room, fun ends => absurd ends fails, fun _ => ⟨rfl, rfl, rfl⟩⟩
  cases station with
  | false => exact iff_of_true (unchanged .unused 0 0 (by decide) le_rfl) (.inl rfl)
  | true =>
    have list : elements ((elementsBytes stored).take (elementsBytes stored).length) = stored := by
      rw [List.take_length, elements_bytes]
    have accepted := @accepted_iff (elements ie)
    unfold updateFtIes
    dsimp only [StaFt.holding]
    rw [list, show (newElems (elements ie)).ftInNonRsn = nonRsn (elements ie) from rfl,
      show (elementsBytes stored).length - ftiesLen stored + ie.length = newSize stored ie from rfl]
    by_cases mde : (newElems (elements ie)).mde.isNone = true
    · rw [if_pos mde]
      exact iff_of_true (unchanged .missing 0 0 (by decide) le_rfl) (.inr (.inl fun all => (accepted.mp all).1 mde))
    rw [if_neg mde]
    by_cases part : (!nonRsn (elements ie) &&
        ((newElems (elements ie)).rsne.isNone || (newElems (elements ie)).fte.isNone)) = true
    · rw [if_pos part]
      exact iff_of_true (unchanged .missing 0 0 (by decide) le_rfl) (.inr (.inl fun all => (accepted.mp all).2 part))
    rw [if_neg part]
    have all : Accepted (elements ie) := accepted.mpr ⟨mde, part⟩
    cases room : kmalloc (newSize stored ie) with
    | false =>
      rw [if_pos (by rfl)]
      exact iff_of_true (unchanged .noMemory 0 0 (by decide) le_rfl) (.inr (.inr (.inl room)))
    | true =>
      rw [if_neg (by decide)]
      rcases merge_spec stored all with ⟨aborts, t, front, ran, merging, within⟩ | ⟨clear, t, ran, copied⟩
      · rw [ran]
        exact iff_of_true (unchanged .abort (newSize stored ie) _ (by decide) (merging.written_le within))
          (.inr (.inr (.inr (.inl aborts))))
      · rw [ran]
        refine (right_copied copied all rfl).trans ?_
        unfold Fits
        rw [or_iff_right (Bool.false_ne_true ∘ Eq.symm), or_iff_right (not_not_intro all), room,
          or_iff_right (Bool.false_ne_true ∘ Eq.symm), or_iff_right clear]

def storedOpen : List Element := [⟨0, [0x61], by decide⟩, ⟨eidMobilityDomain, [1, 0, 1], by decide⟩]

def newFt : List Byte := elementsBytes [⟨eidRsn, [1, 0], by decide⟩, ⟨eidMobilityDomain, [1, 0, 1], by decide⟩,
  ⟨eidFastBssTransition, [0, 0], by decide⟩]

/-- The new RSN is dropped. -/
theorem rsn_dropped : ¬FtRight storedOpen (StaFt.holding ⟨none, 0, false, false⟩ storedOpen) newFt
    (updateFtIes (fun _ => true) true (StaFt.holding ⟨none, 0, false, false⟩ storedOpen) newFt) := by
  intro right
  obtain ⟨merged, holds, bytes, -, -⟩ := right.done (by decide +kernel)
  have once := holds.once ⟨eidRsn, [1, 0], by decide⟩ (by decide +kernel) (by decide)
  have equal : some (elementsBytes merged) = some (elementsBytes
      (storedOpen ++ [⟨eidFastBssTransition, [0, 0], by decide⟩])) := bytes.symm.trans (by decide +kernel)
  have same := congrArg elements (Option.some.inj equal)
  rw [elements_bytes, elements_bytes] at same
  rw [same] at once
  revert once
  decide +kernel

end W2l.Conn
