/-
**The size of a connect request.**

What `copy_connect_ies` writes against what `update_connect_req` computed and the request was allocated with. The two
ask for a fast transition over the air in different ways: one for `AUTOMATIC` and a stored list of the same mobility
domain, the other for `FT` and no transition over the distribution system.

* `SizingRight` — **what a request should be**.
* `OverAir` — when a connection becomes a fast transition.
* `Sized` — when the request is right: user space that asks for a fast transition gives room for the stored elements,
  a connection that becomes one while `AML_STA_FT_OVER_DS` is set has no more elements than those stored, and any
  other has fewer than a message can hold.
-/

import W2lDriver.Conn.Request

namespace W2l.Connect

open Lib
open Conn (eidRsn eidMobilityDomain eidFastBssTransition)

/-! ### The property -/

/-- What is written is counted, is no more than was computed, and is inside the message. -/
structure Written (vif : StaVif) (sme : ConnectParams) (out : ConnectOut) (req : ConnectReq) : Prop where
  counted : req.ieBuf.length = req.ieLen
  computed : req.ieBuf.length ≤ out.ieLen
  allocated : sizeofReq + req.ieBuf.length ≤ out.paramLen
  bytes : req.ieBuf =
    if out.sme.authType = .ft ∧ vif.overDs = false then
      elementsBytes ([eidRsn, eidMobilityDomain, eidFastBssTransition].filterMap vif.find)
    else sme.ie

/-- **What a call should do.** -/
structure SizingRight (vif : StaVif) (sme : ConnectParams) (out : ConnectOut) : Prop where
  noOops : out.outcome ≠ .oops
  sent : ∀ req, out.outcome = .sent req → Written vif sme out req

/-! ### When it does -/

/-- The connection becomes a fast transition: the station is associated, both lists have the same mobility domain, and
the stored one has an RSN and an FTE or neither of them. -/
structure OverAir (vif : StaVif) (sme : ConnectParams) : Prop where
  automatic : sme.authType = .automatic
  associated : vif.ap = true
  sameDomain : ∃ mde, findElem eidMobilityDomain sme.ie = some mde ∧ vif.find eidMobilityDomain = some mde
  both : (vif.find eidRsn).isSome = (vif.find eidFastBssTransition).isSome

def StaVif.ftSize (vif : StaVif) : ℕ := (elementsBytes vif.ftElems).length

def AuthType.known : AuthType → Bool
  | .networkEap | .filsSk | .filsSkPfs | .filsPk => false
  | _ => true

/-- **When a request is right.** -/
structure Sized (vif : StaVif) (sme : ConnectParams) : Prop where
  user : sme.authType = .ft → vif.overDs = false → vif.readsNull = false ∧
    sizeofReq + vif.ftSize ≤ msgLen sme.ie.length
  overDs : OverAir vif sme → vif.overDs = true → sme.ie.length ≤ vif.ftSize
  others : sme.authType.known = true → ¬OverAir vif sme → ¬(sme.authType = .ft ∧ vif.overDs = false) →
    sizeofReq + sme.ie.length < 65536

section Sizing

variable {mod : ModParams} {vif : StaVif} {sme sme' : ConnectParams} {kzalloc : ℕ → Bool} {n : ℕ}

theorem ftElems_eq : vif.ftElems = [eidRsn, eidMobilityDomain, eidFastBssTransition].filterMap vif.find := by
  unfold StaVif.ftElems
  rw [List.filterMap_cons, List.filterMap_cons, List.filterMap_cons, List.filterMap_nil]
  cases vif.find eidRsn <;> cases vif.find eidMobilityDomain <;> cases vif.find eidFastBssTransition <;> rfl

theorem ftSize_eq : vif.ftSize =
    elemSize (vif.find eidRsn) + (elemSize (vif.find eidMobilityDomain) + elemSize (vif.find eidFastBssTransition)) := by
  have one : ∀ e : Option Element, (e.toList.map Element.size).sum = elemSize e := by
    intro e
    cases e with
    | none => rfl
    | some e => exact List.sum_singleton
  unfold StaVif.ftSize StaVif.ftElems
  rw [length_elementsBytes, List.map_append, List.map_append, List.sum_append, List.sum_append, one, one, one]

theorem elemSize_le (e : Option Element) : elemSize e ≤ 257 := by
  cases e with
  | none => exact Nat.zero_le _
  | some e =>
    show e.data.length + 2 ≤ 257
    exact Nat.succ_le_succ (Nat.succ_le_of_lt e.short)

theorem ftSize_le : vif.ftSize ≤ 771 := by
  rw [ftSize_eq]
  exact Nat.add_le_add (elemSize_le _) (Nat.add_le_add (elemSize_le _) (elemSize_le _))

theorem msgLen_le (n : ℕ) : msgLen n ≤ sizeofReq + n := Nat.mod_le _ _

theorem msgLen_room {n : ℕ} : sizeofReq + n ≤ msgLen n ↔ sizeofReq + n < 65536 := by
  constructor
  · intro room
    exact lt_of_le_of_lt room (Nat.mod_lt _ (by decide))
  · intro short
    exact (Nat.mod_eq_of_lt short).ge

/-! ### What `update_connect_req` computes -/

theorem find_stored {id : Byte} {e : Element} (found : vif.find id = some e) : vif.ftAssocIes.isSome = true := by
  unfold StaVif.find at found
  cases stored : vif.ftAssocIes with
  | none =>
    rw [stored] at found
    exact absurd found.symm (Option.some_ne_none e)
  | some => rfl

theorem updateConnectReq_overAir (air : OverAir vif sme) :
    updateConnectReq vif sme = (vif.ftSize, { sme with authType := .ft }) := by
  obtain ⟨mde, requested, stored⟩ := air.sameDomain
  have both := air.both
  unfold updateConnectReq
  rw [if_pos (by rw [air.associated, find_stored stored, decide_eq_true air.automatic]; rfl), requested, stored,
    ftSize_eq, stored]
  dsimp only
  rw [if_neg (by rw [ne_eq, not_not])]
  cases rsn : vif.find eidRsn with
  | none =>
    cases ft : vif.find eidFastBssTransition with
    | none =>
      show (mde.size, _) = (0 + (mde.size + 0), _)
      rw [Nat.zero_add, Nat.add_zero]
    | some fte =>
      rw [rsn, ft] at both
      exact absurd both Bool.false_ne_true
  | some rsne =>
    cases ft : vif.find eidFastBssTransition with
    | none =>
      rw [rsn, ft] at both
      exact absurd both.symm Bool.false_ne_true
    | some fte =>
      show (mde.size + (rsne.size + fte.size), _) = (rsne.size + (mde.size + fte.size), _)
      rw [Nat.add_left_comm]

theorem updateConnectReq_other (other : ¬OverAir vif sme) : updateConnectReq vif sme = (sme.ie.length, sme) := by
  unfold updateConnectReq
  split
  case isFalse => rfl
  case isTrue asked =>
    rw [Bool.and_eq_true, Bool.and_eq_true, decide_eq_true_eq] at asked
    split
    case h_2 => rfl
    case h_1 mdeReq mde requested stored =>
      split
      case isTrue => rfl
      case isFalse same =>
        rw [ne_eq, not_not] at same
        subst same
        split
        case h_3 => rfl
        case h_1 rsne fte rsn ft =>
          exact absurd ⟨asked.2, asked.1.1, ⟨mde, requested, stored⟩, by rw [rsn, ft]; rfl⟩ other
        case h_2 rsn ft =>
          exact absurd ⟨asked.2, asked.1.1, ⟨mde, requested, stored⟩, by rw [rsn, ft]⟩ other

/-! ### The request -/

theorem wlanAuth_known : (wlanAuth sme).isSome = sme.authType.known := by
  unfold wlanAuth
  cases sme.authType <;> rfl

/-- The bytes that are written are those meant, and there is room for them. -/
structure Room (vif : StaVif) (sme sme' : ConnectParams) (n : ℕ) (bytes : List Byte) : Prop where
  computed : bytes.length ≤ n
  allocated : sizeofReq + bytes.length ≤ msgLen n
  bytes : bytes =
    if sme'.authType = .ft ∧ vif.overDs = false then
      elementsBytes ([eidRsn, eidMobilityDomain, eidFastBssTransition].filterMap vif.find)
    else sme.ie

theorem counted_of_allocated {k : ℕ} (allocated : sizeofReq + k ≤ msgLen n) : k % 65536 = k :=
  Nat.mod_eq_of_lt (lt_of_le_of_lt ((Nat.le_add_left _ _).trans allocated) (Nat.mod_lt _ (by decide)))

theorem sizingRight_iff (updated : updateConnectReq vif sme = (n, sme')) :
    SizingRight vif sme (amlSendSmConnectReq mod kzalloc vif sme) ↔
      (kzalloc (msgLen n) = true → sme'.authType.known = true →
        ∃ vif' bytes, copyConnectIes vif sme' = some (vif', bytes) ∧ Room vif sme sme' n bytes) := by
  have known := @wlanAuth_known sme'
  unfold amlSendSmConnectReq connectEnd
  rw [updated]
  dsimp only
  cases kzalloc (msgLen n) with
  | false =>
    rw [if_neg Bool.false_ne_true]
    exact ⟨fun _ failed => absurd failed Bool.false_ne_true, fun _ => ⟨nofun, fun _ => nofun⟩⟩
  | true =>
    rw [if_pos rfl]
    cases auth : wlanAuth sme' with
    | none =>
      rw [auth] at known
      rw [← known]
      exact ⟨fun _ _ unknown => absurd unknown Bool.false_ne_true, fun _ => ⟨nofun, fun _ => nofun⟩⟩
    | some authType =>
      rw [auth] at known
      cases copied : copyConnectIes vif sme' with
      | none =>
        refine ⟨fun right => absurd rfl right.noOops, fun right => ?_⟩
        obtain ⟨_, _, copied, -⟩ := right rfl known.symm
        exact absurd copied.symm (Option.some_ne_none _)
      | some pair =>
        obtain ⟨vif', bytes⟩ := pair
        constructor
        · intro right _ _
          obtain ⟨-, computed, allocated, same⟩ := right.sent _ rfl
          exact ⟨vif', bytes, rfl, computed, allocated, same⟩
        · intro right
          obtain ⟨_, _, copied, computed, allocated, same⟩ := right rfl known.symm
          obtain ⟨rfl, rfl⟩ := Prod.mk.inj (Option.some.inj copied)
          refine ⟨nofun, fun req sent => ?_⟩
          obtain rfl := ConnectEnd.sent.inj sent
          exact ⟨(counted_of_allocated allocated).symm, computed, allocated, same⟩

theorem copied_air (ft : sme'.authType = .ft) (air : vif.overDs = false) :
    (∃ vif' bytes, copyConnectIes vif sme' = some (vif', bytes) ∧ Room vif sme sme' n bytes) ↔
      vif.readsNull = false ∧ vif.ftSize ≤ n ∧ sizeofReq + vif.ftSize ≤ msgLen n := by
  unfold copyConnectIes
  rw [if_pos (by rw [decide_eq_true ft, air]; rfl)]
  cases vif.readsNull with
  | true =>
    rw [if_pos rfl]
    exact ⟨fun ⟨_, _, copied, _⟩ => absurd copied.symm (Option.some_ne_none _), fun right => nomatch right.1⟩
  | false =>
    rw [if_neg Bool.false_ne_true]
    constructor
    · rintro ⟨_, _, copied, computed, allocated, -⟩
      obtain ⟨-, rfl⟩ := Prod.mk.inj (Option.some.inj copied)
      exact ⟨rfl, computed, allocated⟩
    · rintro ⟨-, computed, allocated⟩
      exact ⟨_, _, rfl, computed, allocated, by rw [if_pos ⟨ft, air⟩, ftElems_eq]⟩

theorem copied_plain (ies : sme'.ie = sme.ie) (plain : ¬(sme'.authType = .ft ∧ vif.overDs = false)) :
    (∃ vif' bytes, copyConnectIes vif sme' = some (vif', bytes) ∧ Room vif sme sme' n bytes) ↔
      sme.ie.length ≤ n ∧ sizeofReq + sme.ie.length ≤ msgLen n := by
  unfold copyConnectIes
  rw [if_neg (by rwa [Bool.and_eq_true, decide_eq_true_eq, Bool.not_eq_true']), ies]
  constructor
  · rintro ⟨_, _, copied, computed, allocated, -⟩
    obtain ⟨-, rfl⟩ := Prod.mk.inj (Option.some.inj copied)
    exact ⟨computed, allocated⟩
  · rintro ⟨computed, allocated⟩
    exact ⟨_, _, rfl, computed, allocated, by rw [if_neg plain]⟩

/-- **A request is right just when it is sized.** -/
theorem connect_sizing (mod : ModParams) (vif : StaVif) (sme : ConnectParams) :
    (∀ kzalloc, SizingRight vif sme (amlSendSmConnectReq mod kzalloc vif sme)) ↔ Sized vif sme := by
  have always : ∀ {n : ℕ} {sme' : ConnectParams}, updateConnectReq vif sme = (n, sme') →
      ((∀ kzalloc, SizingRight vif sme (amlSendSmConnectReq mod kzalloc vif sme)) ↔ (sme'.authType.known = true →
        ∃ vif' bytes, copyConnectIes vif sme' = some (vif', bytes) ∧ Room vif sme sme' n bytes)) := by
    intro n sme' updated
    constructor
    · intro right
      exact (sizingRight_iff updated).mp (right fun _ => true) rfl
    · intro right kzalloc
      exact (sizingRight_iff updated).mpr fun _ => right
  by_cases air : OverAir vif sme
  · rw [always (updateConnectReq_overAir air)]
    have known : ({ sme with authType := .ft } : ConnectParams).authType.known = true := rfl
    have user : sme.authType ≠ .ft := by
      rw [air.automatic]
      decide
    have room : sizeofReq + vif.ftSize ≤ msgLen vif.ftSize :=
      msgLen_room.mpr (lt_of_le_of_lt (Nat.add_le_add_left ftSize_le _) (by decide))
    obtain ⟨_, _, stored⟩ := air.sameDomain
    have reads : vif.readsNull = false := by
      unfold StaVif.readsNull
      rw [← Option.not_isSome, find_stored stored, Bool.not_true, Bool.false_and]
    cases ds : vif.overDs with
    | false =>
      rw [@copied_air _ sme _ _ rfl ds]
      constructor
      · exact fun _ => ⟨fun asked => absurd asked user, fun _ overDs => (Bool.false_ne_true (ds.symm.trans overDs)).elim,
          fun _ other => absurd air other⟩
      · exact fun _ _ => ⟨reads, le_rfl, room⟩
    | true =>
      have plain : ¬(({ sme with authType := .ft } : ConnectParams).authType = .ft ∧ vif.overDs = false) := by
        rw [ds]
        exact fun both => absurd both.2.symm Bool.false_ne_true
      rw [@copied_plain _ sme { sme with authType := .ft } _ rfl plain]
      constructor
      · exact fun right => ⟨fun asked => absurd asked user, fun _ _ => (right known).1, fun _ other => absurd air other⟩
      · exact fun sized _ => ⟨sized.overDs air ds, (Nat.add_le_add_left (sized.overDs air ds) _).trans room⟩
  · rw [always (updateConnectReq_other air)]
    by_cases ft : sme.authType = .ft ∧ vif.overDs = false
    · rw [copied_air ft.1 ft.2]
      constructor
      · intro right
        obtain ⟨reads, -, allocated⟩ := right (by rw [ft.1]; rfl)
        exact ⟨fun _ _ => ⟨reads, allocated⟩, fun other => absurd other air, fun _ _ other => absurd ft other⟩
      · intro sized _
        obtain ⟨reads, allocated⟩ := sized.user ft.1 ft.2
        exact ⟨reads, Nat.le_of_add_le_add_left (allocated.trans (msgLen_le _)), allocated⟩
    · rw [copied_plain rfl ft]
      constructor
      · intro right
        exact ⟨fun asked overDs => absurd ⟨asked, overDs⟩ ft, fun other => absurd other air,
          fun known _ _ => msgLen_room.mp (right known).2⟩
      · intro sized known
        exact ⟨le_rfl, msgLen_room.mpr (sized.others known air ft)⟩

/-! ### Where it does not -/

/-- Parameters of a fast transition that user space asks for. -/
def userFt : ConnectParams where
  bssid := none
  prevBssid := none
  channel := none
  ssid := [0x61]
  ie := []
  authType := .ft
  mfp := .no
  crypto := ⟨0, 0, 0, Vector.replicate 5 0, Vector.replicate 2 0, false, 0, false⟩
  keyIdx := 0
  key := none
  keyLen := 0

/-- An interface with a stored list that is an empty RSN element. -/
def ftVif : StaVif := ⟨⟨some [eidRsn, 0], 2, false, false⟩, 0, true, macAddrBcst⟩

/-- **A fast transition user space asks for writes behind the request**: two bytes, where it is allocated for none. -/
theorem connect_oversized : ¬∀ (mod : ModParams) (kzalloc : ℕ → Bool) (vif : StaVif) (sme : ConnectParams),
      SizingRight vif sme (amlSendSmConnectReq mod kzalloc vif sme) := by
  intro right
  obtain ⟨-, sent⟩ := right ⟨0, false, 0⟩ (fun _ => true) ftVif userFt
  have beyond := (sent _ rfl).computed
  exact absurd beyond (by decide)

end Sizing

end W2l.Connect
