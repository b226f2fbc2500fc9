/-
**The beacon of an AP that is refreshed from a probe response.**

* `saveProbeRsp`, `changeBeacon` — `aml_scc_save_probe_rsp` and `aml_scc_change_beacon`, up to the frame for the
  firmware, with how far the two frames were read and written.
* `refreshed`, `syncElements_bytes` — **what the loop does to the elements**: it ends, and keeps the numbers and the
  lengths.
-/

import W2lDriver.Scc.Beacon

namespace W2l.Scc

open Lib
open List (append_assoc append_nil drop_left' length_append length_dropLast length_take map_append map_id
  map_map map_singleton mem_cons mem_cons_self mem_singleton not_mem_nil)
open Option (bind_eq_bind bind_some some_or)

/-- `WLAN_EID_SSID`. -/
def eidSsid : Byte := 0

/-- `WLAN_EID_TIM`. -/
def eidTim : Byte := 5

/-- The length that is passed for `probe_rsp_save`. -/
abbrev probeLen : ℕ := 500

/-- Where accesses end, in `scc_bcn_buf` and in `probe_rsp_save`. -/
structure Ends where
  beacon : List ℕ := []
  probe : List ℕ := []
  deriving DecidableEq

def Ends.append (e e' : Ends) : Ends := ⟨e.beacon ++ e'.beacon, e.probe ++ e'.probe⟩

/-! ### The code -/

/-- `aml_scc_save_probe_rsp`, what it copies. -/
def saveProbeRsp (old : Frmbuf) (buf : List Byte) : Frmbuf :=
  ⟨buf.take frmbufMaxlen ++ old.bytes.drop (buf.take frmbufMaxlen).length, by
    rw [length_append, List.length_drop, length_take, old.full]
    omega⟩

section Code

variable (probe buf : Frmbuf) (offset : ℕ)

/-- The bytes `aml_get_probe_rsp_ie_addr` searches. -/
def probeVar : List Byte := (probe.bytes.drop varOffset).take (probeLen - varOffset)

/-- `aml_get_probe_rsp_ie_addr(probe_rsp_save, 500, e_id)`. -/
def probeRspIeAddr (id : Byte) : Option ℕ := (findElement id (probeVar probe)).map (varOffset + ·)

/-- An element of the beacon, at `offset`: it is overwritten by the one of the probe response if that is as long. -/
def refresh : Option (Frmbuf × Ends) :=
  let id := buf.bytes.getD offset 0
  let len := buf.bytes.getD (offset + 1) 0
  if id ≠ eidTim ∧ id ≠ eidSsid then
    let search := varOffset + searchEnd id (probeVar probe)
    match probeRspIeAddr probe id with
    | some src =>
      if probe.bytes.getD (src + 1) 0 = len then
        (buf.write offset ((probe.bytes.drop src).take (len.toNat + 2))).map fun buf =>
          (buf, ⟨[offset + 2, offset + (len.toNat + 2)], [search, src + (len.toNat + 2)]⟩)
      else some (buf, ⟨[offset + 2], [search]⟩)
    | none => some (buf, ⟨[offset + 2], [search]⟩)
  else some (buf, ⟨[offset + 2], []⟩)

/-- `while (offset < bcn->len)`, at most `fuel` times. -/
def syncElements (bcnLen : ℕ) : ℕ → Frmbuf → ℕ → Option (Frmbuf × Ends)
  | 0, _, _ => none
  | fuel + 1, buf, offset =>
    if offset < bcnLen then do
      let len := buf.bytes.getD (offset + 1) 0
      let (buf, ends) ← refresh probe buf offset
      let (buf, ends') ← syncElements bcnLen fuel buf (offset + (len.toNat + 2))
      return (buf, ends.append ends')
    else some (buf, {})

end Code

/-- What `aml_scc_change_beacon` leaves. -/
structure Synced where
  bufs : Bufs
  /-- The frame for the firmware. -/
  frame : Option (List Byte) := none
  ends : Ends := {}
  deriving DecidableEq

/-- `aml_scc_change_beacon` for an interface of type AP or another one, whose beacon has `bcnLen` bytes; `memory` is
what `kmalloc` returns. It leaves a buffer, or writes before `NULL`, or ends. -/
def changeBeacon (s : Bufs) (probe : Frmbuf) (memory : Option Frmbuf) (isAp : Bool) (bcnLen : ℕ) : Option Synced :=
  if isAp then
    match s.sccBcnBuf <|> memory with
    | none => some { bufs := s }
    | some old => do
      let saved ← s.bcnSave.load bcnLen
      let buf ← old.store saved
      let var := (buf.bytes.drop varOffset).take (bcnLen - varOffset)
      let ssid ← findElement eidSsid var
      let buf ← buf.write (varOffset + ssid - 1) [0]
      let (buf, ends) ← syncElements probe bcnLen (bcnLen + 1) buf (varOffset + ssid)
      let frame ← buf.load bcnLen
      return {
        bufs := { s with sccBcnBuf := some buf }
        frame := some frame
        ends := Ends.append ⟨[varOffset + searchEnd eidSsid var, varOffset + ssid], []⟩ ends }
  else some { bufs := s }

/-! ### The loop -/

/-- An element that is searched in the probe response. -/
abbrev Searched (e : Element) : Prop := e.id ≠ eidTim ∧ e.id ≠ eidSsid

section Loop

variable {probe buf : Frmbuf} {e : Element} {es : List Element} {front tail : List Byte} {fuel bcnLen : ℕ}

/-- What an element becomes. -/
def refreshed (probe : Frmbuf) (e : Element) : Element :=
  if Searched e then
    match (elements (probeVar probe)).find? (·.id = e.id) with
    | some e' => if e'.data.length = e.data.length then e' else e
    | none => e
  else e

def probeEnds (probe : Frmbuf) (e : Element) : List ℕ :=
  if Searched e then
    let search := varOffset + searchEnd e.id (probeVar probe)
    match probeRspIeAddr probe e.id with
    | some src =>
      if probe.bytes.getD (src + 1) 0 = BitVec.ofNat 8 e.data.length then [search, src + e.size] else [search]
    | none => [search]
  else []

theorem refreshed_keeps (probe : Frmbuf) : Keeps (refreshed probe) where
  id := fun e => by
    unfold refreshed
    split
    case isTrue =>
      split
      case h_1 e' found =>
        split
        case isTrue => exact of_decide_eq_true (List.find?_some (p := fun e' : Element => e'.id = e.id) found)
        case isFalse => rfl
      case h_2 => rfl
    case isFalse => rfl
  size := fun e => by
    unfold refreshed
    split
    case isTrue =>
      split
      case h_1 e' _ =>
        split
        case isTrue same => exact congrArg (· + 2) same
        case isFalse => rfl
      case h_2 => rfl
    case isFalse => rfl

theorem probeRspIeAddr_eq_some {id : Byte} {src : ℕ} (found : probeRspIeAddr probe id = some src) :
    ∃ front e rest, probe.bytes = front ++ (e.bytes ++ rest) ∧ front.length = src ∧
      (elements (probeVar probe)).find? (·.id = id) = some e := by
  obtain ⟨off, found', rfl⟩ := Option.map_eq_some_iff.mp found
  obtain ⟨front, e, rest, all, length, first⟩ := findElement_eq_some found'
  refine ⟨probe.bytes.take varOffset ++ front, e,
    rest ++ (probe.bytes.drop varOffset).drop (probeLen - varOffset), ?_, ?_, first⟩
  · rw [append_assoc, ← append_assoc e.bytes, ← append_assoc front, ← all]
    show _ = probe.bytes.take varOffset ++ ((probe.bytes.drop varOffset).take (probeLen - varOffset) ++ _)
    rw [List.take_append_drop, List.take_append_drop]
  · rw [length_append, length_take, probe.full, length]
    rfl

theorem probeRspIeAddr_eq_none {id : Byte} :
    probeRspIeAddr probe id = none ↔ (elements (probeVar probe)).find? (·.id = id) = none :=
  Option.map_eq_none_iff.trans offsetOf_eq_none

theorem ofNat_length_inj {e' : Element} :
    BitVec.ofNat 8 e'.data.length = BitVec.ofNat 8 e.data.length ↔ e'.data.length = e.data.length := by
  rw [← BitVec.toNat_inj, toNat_length, toNat_length]

theorem refresh_bytes (probe : Frmbuf) (all : buf.bytes = front ++ (e.bytes ++ tail)) :
    ∃ buf' ends, refresh probe buf front.length = some (buf', ends) ∧
      buf'.bytes = front ++ ((refreshed probe e).bytes ++ tail) ∧ ends.probe = probeEnds probe e ∧
      ∀ stop ∈ ends.beacon, stop ≤ front.length + e.size := by
  have id : buf.bytes.getD front.length 0 = e.id := by
    rw [all, List.getD_append_right _ _ _ _ le_rfl, Nat.sub_self]
    rfl
  have len : buf.bytes.getD (front.length + 1) 0 = BitVec.ofNat 8 e.data.length := by
    rw [all]
    exact getD_length front e tail
  have head : front.length + 2 ≤ front.length + e.size := by
    unfold Element.size
    omega
  unfold refresh refreshed probeEnds
  dsimp only
  rw [id, len, toNat_length]
  by_cases searched : Searched e
  swap
  · rw [if_neg searched, if_neg searched, if_neg searched]
    exact ⟨buf, _, rfl, all, rfl, fun stop here => (mem_singleton.mp here).trans_le head⟩
  rw [if_pos searched, if_pos searched, if_pos searched]
  cases found : probeRspIeAddr probe e.id with
  | none =>
    rw [probeRspIeAddr_eq_none.mp found]
    exact ⟨buf, _, rfl, all, rfl, fun stop here => (mem_singleton.mp here).trans_le head⟩
  | some src =>
    obtain ⟨before, e', after, whole, rfl, first⟩ := probeRspIeAddr_eq_some found
    have len' : probe.bytes.getD (before.length + 1) 0 = BitVec.ofNat 8 e'.data.length := by
      rw [whole]
      exact getD_length before e' after
    dsimp only
    rw [first, len']
    dsimp only
    by_cases same : e'.data.length = e.data.length
    · have copied : (probe.bytes.drop before.length).take (e.data.length + 2) = e'.bytes := by
        rw [whole, List.drop_left, ← same]
        exact List.take_left' e'.length_bytes
      have long : e'.bytes.length = e.bytes.length := congrArg (· + 2) same
      obtain ⟨buf', written, after'⟩ := Frmbuf.write_middle e'.bytes all long
      rw [if_pos (ofNat_length_inj.mpr same), if_pos (ofNat_length_inj.mpr same), if_pos same, copied, written]
      refine ⟨buf', _, rfl, after', rfl, fun stop here => ?_⟩
      rcases mem_cons.mp here with rfl | here
      · exact head
      · exact (mem_singleton.mp here).le
    · rw [if_neg (mt ofNat_length_inj.mp same), if_neg (mt ofNat_length_inj.mp same), if_neg same]
      exact ⟨buf, _, rfl, all, rfl, fun stop here => (mem_singleton.mp here).trans_le head⟩

theorem syncElements_bytes (probe : Frmbuf) (all : buf.bytes = front ++ (elementsBytes es ++ tail))
    (enough : es.length < fuel) (len : bcnLen = front.length + (elementsBytes es).length) :
    ∃ buf' ends, syncElements probe bcnLen fuel buf front.length = some (buf', ends) ∧
      buf'.bytes = front ++ (elementsBytes (es.map (refreshed probe)) ++ tail) ∧
      ends.probe = es.flatMap (probeEnds probe) ∧ ∀ stop ∈ ends.beacon, stop ≤ bcnLen := by
  induction es generalizing fuel buf front with
  | nil =>
    obtain ⟨fuel, rfl⟩ := Nat.exists_eq_add_one_of_ne_zero (Nat.ne_of_gt (Nat.zero_lt_of_lt enough))
    unfold syncElements
    rw [if_neg (by rw [len]; exact Nat.lt_irrefl _)]
    exact ⟨buf, _, rfl, all, rfl, fun stop here => absurd here not_mem_nil⟩
  | cons e es ih =>
    obtain ⟨fuel, rfl⟩ := Nat.exists_eq_add_one_of_ne_zero (Nat.ne_of_gt (Nat.zero_lt_of_lt enough))
    rw [elementsBytes_cons, append_assoc] at all
    rw [elementsBytes_cons, length_append, e.length_bytes] at len
    obtain ⟨buf₁, ends₁, first, all₁, probe₁, beacon₁⟩ := refresh_bytes probe all
    have length : (buf.bytes.getD (front.length + 1) 0).toNat = e.data.length := by
      rw [all, getD_length, toNat_length]
    have next : front.length + ((buf.bytes.getD (front.length + 1) 0).toNat + 2) =
        (front ++ (refreshed probe e).bytes).length := by
      rw [length, length_append, (refreshed probe e).length_bytes, (refreshed_keeps probe).size]
      rfl
    have len' : bcnLen = (front ++ (refreshed probe e).bytes).length + (elementsBytes es).length := by
      rw [len, length_append, (refreshed probe e).length_bytes, (refreshed_keeps probe).size, Nat.add_assoc]
    obtain ⟨buf₂, ends₂, rest, all₂, probe₂, beacon₂⟩ :=
      ih (all₁.trans (append_assoc _ _ _).symm) (Nat.lt_of_succ_lt_succ enough) len'
    refine ⟨buf₂, ends₁.append ends₂, ?_, ?_, ?_, ?_⟩
    · unfold syncElements
      rw [if_pos (by rw [len]; unfold Element.size; omega)]
      dsimp only
      rw [next]
      simp only [first, rest, bind_eq_bind, bind_some]
      rfl
    · rw [all₂, List.map_cons, elementsBytes_cons, append_assoc, append_assoc]
    · show ends₁.probe ++ ends₂.probe = _
      rw [probe₁, probe₂, List.flatMap_cons]
    · intro stop here
      rcases List.mem_append.mp here with here | here
      · have near := beacon₁ stop here
        omega
      · exact beacon₂ stop here

end Loop

/-! ### The received frame -/

/-- The search for an element stays in the received frame: it has 499 bytes, or an element with the number. -/
def StaysIn (p : Beacon) (e : Element) : Prop := probeLen ≤ p.size + 1 ∨ ∃ e' ∈ p.elems, e'.id = e.id

instance (p : Beacon) (e : Element) : Decidable (StaysIn p e) := inferInstanceAs (Decidable (_ ∨ _))

/-- The first element of the probe response with the same number, of those that end in its first 500 bytes, has
another length or is the same. -/
def Agrees (p : Beacon) (e : Element) : Prop :=
  ∀ e' ∈ (elementsWithin (probeLen - varOffset) p.elems).find? (·.id = e.id), e'.data.length = e.data.length → e' = e

instance (p : Beacon) (e : Element) : Decidable (Agrees p e) := inferInstanceAs (Decidable (∀ _ ∈ _, _))

section Received

variable {probe : Frmbuf} {p : Beacon} {e : Element}

theorem probeVar_long (received : p.bytes.take frmbufMaxlen <+: probe.bytes) (long : probeLen ≤ p.size) :
    (probeVar probe).length = probeLen - varOffset ∧
      elements (probeVar probe) = elementsWithin (probeLen - varOffset) p.elems := by
  obtain ⟨rest, same⟩ := received
  have size := p.size_eq
  have front : probe.bytes.take probeLen = p.bytes.take probeLen := by
    rw [← same, List.take_append_of_le_length, List.take_take]
    · rfl
    · rw [length_take]
      exact le_min (by decide) long
  have var : probeVar probe = (elementsBytes p.elems).take (probeLen - varOffset) := by
    unfold probeVar
    rw [← List.drop_take, front, List.drop_take]
    unfold Beacon.bytes
    rw [drop_left' p.whole]
  have inside : probeLen - varOffset ≤ (elementsBytes p.elems).length := by omega
  refine ⟨?_, ?_⟩
  · rw [var, length_take]
    exact Nat.min_eq_left inside
  · have read : elements ((elementsBytes p.elems ++ []).take (probeLen - varOffset)) = _ := elements_take inside
    rw [append_nil] at read
    rw [var, read]

theorem probeVar_short (received : p.bytes.take frmbufMaxlen <+: probe.bytes) (short : p.size < probeLen) :
    ∃ rest, probeVar probe = elementsBytes p.elems ++ rest ∧ rest.length = probeLen - p.size := by
  have fits : p.bytes.length ≤ frmbufMaxlen := (Nat.le_of_lt short).trans (by decide)
  rw [List.take_of_length_le fits] at received
  obtain ⟨rest, same⟩ := received
  have full := probe.full
  have size := p.size_eq
  rw [← same, length_append] at full
  refine ⟨rest.take (probeLen - p.size), ?_, ?_⟩
  · unfold probeVar
    rw [← same]
    unfold Beacon.bytes
    rw [append_assoc, drop_left' p.whole, List.take_append, List.take_of_length_le (by omega)]
    congr 2
    omega
  · have total : p.size + rest.length = frmbufMaxlen := full
    have enough : probeLen - p.size ≤ rest.length := by
      rw [← Nat.add_sub_cancel_left (n := p.size) (m := rest.length), total]
      exact Nat.sub_le_sub_right (by decide) _
    rw [length_take]
    exact Nat.min_eq_left enough

theorem probeEnds_le_of {n : ℕ} (search : searchEnd e.id (probeVar probe) ≤ n)
    (copied : ∀ off e', findElement e.id (probeVar probe) = some off →
      (elements (probeVar probe)).find? (·.id = e.id) = some e' → off + e'.size ≤ n) :
    ∀ stop ∈ probeEnds probe e, stop ≤ varOffset + n := by
  intro stop here
  unfold probeEnds at here
  split at here
  case isFalse => exact absurd here not_mem_nil
  case isTrue =>
    dsimp only at here
    split at here
    case h_2 => exact (mem_singleton.mp here).trans_le (Nat.add_le_add_left search _)
    case h_1 src found =>
      split at here
      case isFalse => exact (mem_singleton.mp here).trans_le (Nat.add_le_add_left search _)
      case isTrue same =>
        rcases mem_cons.mp here with rfl | here
        · exact Nat.add_le_add_left search _
        obtain rfl := mem_singleton.mp here
        obtain ⟨before, e', after, whole, length, first⟩ := probeRspIeAddr_eq_some found
        obtain ⟨off, found', rfl⟩ := Option.map_eq_some_iff.mp found
        have size : e'.size = e.size := by
          rw [← length, whole, getD_length] at same
          exact congrArg (· + 2) (ofNat_length_inj.mp same)
        have inside := copied off e' found' first
        omega

theorem search_mem (searched : Searched e) : varOffset + searchEnd e.id (probeVar probe) ∈ probeEnds probe e := by
  unfold probeEnds
  rw [if_pos searched]
  dsimp only
  split
  · split
    · exact mem_cons_self
    · exact List.mem_singleton_self _
  · exact List.mem_singleton_self _

theorem found_inside {id : Byte} {es : List Element} {off : ℕ} {e' : Element} (found : offsetOf id es = some off)
    (first : es.find? (·.id = id) = some e') : off + e'.size ≤ (elementsBytes es).length := by
  obtain ⟨front, e'', rest, rfl, rfl, first'⟩ := offsetOf_eq_some found
  obtain rfl := Option.some.inj (first.symm.trans first')
  rw [elementsBytes_append, elementsBytes_cons, length_append, length_append, e'.length_bytes]
  omega

section

variable (received : p.bytes.take frmbufMaxlen <+: probe.bytes)

include received

/-- **Where the accesses of the probe response end.** -/
theorem probeEnds_le (searched : Searched e) : (∀ stop ∈ probeEnds probe e, stop ≤ p.size) ↔ StaysIn p e := by
  have size := p.size_eq
  unfold StaysIn
  by_cases long : probeLen ≤ p.size
  · obtain ⟨length, _⟩ := probeVar_long received long
    refine iff_of_true (fun stop here => ?_) (.inl (long.trans (Nat.le_succ _)))
    have inside := probeEnds_le_of (searchEnd_le.trans length.le) (fun off e' found first => ?_) stop here
    · exact inside.trans long
    · obtain ⟨front, e'', rest, all, rfl, first'⟩ := findElement_eq_some found
      obtain rfl := Option.some.inj (first.symm.trans first')
      rw [all, length_append, length_append, e'.length_bytes] at length
      omega
  obtain ⟨rest, var, length⟩ := probeVar_short received (Nat.lt_of_not_le long)
  have read : elements (probeVar probe) = p.elems ++ elements rest := by rw [var, elements_append]
  have found : findElement e.id (probeVar probe) =
      (offsetOf e.id p.elems).or ((offsetOf e.id (elements rest)).map ((elementsBytes p.elems).length + ·)) := by
    unfold findElement
    rw [read, offsetOf_append]
  have total : (probeVar probe).length = probeLen - varOffset := by
    rw [var, length_append, length]
    omega
  cases own : offsetOf e.id p.elems with
  | some off =>
    obtain ⟨front, e', back, all, start, first⟩ := offsetOf_eq_some own
    have member : ∃ e' ∈ p.elems, e'.id = e.id := ⟨e', by rw [all]; exact List.mem_append_right _ mem_cons_self,
      of_decide_eq_true (List.find?_some (p := fun e' : Element => e'.id = e.id) first)⟩
    rw [own, some_or] at found
    have inside := found_inside own first
    refine iff_of_true (fun stop here => ?_) (.inr member)
    refine (probeEnds_le_of (n := (elementsBytes p.elems).length) ?_ (fun off' e'' found' first' => ?_) stop
      here).trans size.ge
    · unfold searchEnd
      rw [found]
      unfold Element.size at inside
      dsimp only
      omega
    · obtain rfl := Option.some.inj (found.symm.trans found')
      rw [read, List.find?_append, first, some_or] at first'
      obtain rfl := Option.some.inj first'
      exact inside
  | none =>
    have missing : ¬∃ e' ∈ p.elems, e'.id = e.id := fun ⟨e', member, same⟩ => by
      have none := List.find?_eq_none.mp (offsetOf_eq_none.mp own) e' member
      exact none (decide_eq_true same)
    rw [own, Option.none_or] at found
    rw [or_iff_left missing]
    by_cases last : probeLen ≤ p.size + 1
    · refine iff_of_true (fun stop here => ?_) last
      have single : rest.length = 1 := by omega
      obtain ⟨byte, rfl⟩ := List.length_eq_one_iff.mp single
      have nothing : elements [byte] = [] := rfl
      rw [nothing] at found read
      refine (probeEnds_le_of (n := (elementsBytes p.elems).length) ?_ (fun off' e'' found' _ => ?_) stop
        here).trans size.ge
      · unfold searchEnd
        rw [found, read, append_nil, total]
        show (if (elementsBytes p.elems).length + 2 ≤ _ then _ else _) ≤ _
        rw [if_neg (by omega)]
      · exact nomatch found.symm.trans found'
    · refine iff_of_false (fun inside => ?_) last
      have stop := inside _ (search_mem searched)
      have beyond : (elementsBytes p.elems).length < searchEnd e.id (probeVar probe) := by
        unfold searchEnd
        rw [found]
        cases offsetOf e.id (elements rest) with
        | some off =>
          show _ < _ + off + 2
          omega
        | none =>
          dsimp only
          rw [Option.map_none, read, elementsBytes_append, length_append]
          dsimp only
          split
          · omega
          · omega
      omega

theorem find_probeVar (stays : StaysIn p e) : (elements (probeVar probe)).find? (·.id = e.id) =
      (elementsWithin (probeLen - varOffset) p.elems).find? (·.id = e.id) := by
  by_cases long : probeLen ≤ p.size
  · rw [(probeVar_long received long).2]
  have size := p.size_eq
  obtain ⟨rest, var, length⟩ := probeVar_short received (Nat.lt_of_not_le long)
  rw [var, elements_append, elementsWithin_of_le (by omega), List.find?_append]
  cases own : p.elems.find? (·.id = e.id) with
  | some e' => rfl
  | none =>
    rcases stays with last | ⟨e', member, same⟩
    · have single : rest.length = 1 := by omega
      obtain ⟨byte, rfl⟩ := List.length_eq_one_iff.mp single
      rfl
    · exact absurd (decide_eq_true same) (List.find?_eq_none.mp own e' member)

theorem refreshed_eq (searched : Searched e)
    (stays : StaysIn p e) : refreshed probe e = e ↔ Agrees p e := by
  unfold refreshed Agrees
  rw [if_pos searched, find_probeVar received stays]
  cases (elementsWithin (probeLen - varOffset) p.elems).find? (·.id = e.id) with
  | none => exact iff_of_true rfl fun _ none => nomatch none
  | some e' =>
    have same : (∀ e'' ∈ some e', e''.data.length = e.data.length → e'' = e) ↔
        (e'.data.length = e.data.length → e' = e) :=
      ⟨fun each => each e' rfl, fun one _ here => Option.some.inj here ▸ one⟩
    rw [same]
    dsimp only
    by_cases long : e'.data.length = e.data.length
    · rw [if_pos long]
      exact (imp_iff_right long).symm
    · rw [if_neg long]
      exact iff_of_true rfl fun there => absurd there long

end

end Received

/-! ### The frame -/

def Beacon.beforeSsid (b : Beacon) : List Byte := b.header ++ elementsBytes (b.elems.takeWhile (·.id ≠ eidSsid))

def Beacon.fromSsid (b : Beacon) : List Element := b.elems.dropWhile (·.id ≠ eidSsid)

/-- **The same elements**, apart from SSID and TIM, in any order. -/
def SameElements (b p : Beacon) : Prop :=
  (b.elems.filter (Searched ·)).Perm (p.elems.filter (Searched ·))

instance (b p : Beacon) : Decidable (SameElements b p) := inferInstanceAs (Decidable (List.Perm _ _))

/-- **The frames are left nowhere**, the numbers and lengths stay, and if the elements are the same so do the bytes. -/
structure Refreshed (s : Bufs) (b p : Beacon) (r : Synced) : Prop where
  saved : r.bufs.bcnSave = s.bcnSave
  inBeacon : ∀ stop ∈ r.ends.beacon, stop ≤ b.size
  inProbe : ∀ stop ∈ r.ends.probe, stop ≤ p.size
  shape : ∀ f, r.frame = some f → ∃ b' : Beacon, f = b'.bytes ∧ b'.elems.map Element.id = b.elems.map Element.id ∧
    b'.elems.map Element.size = b.elems.map Element.size
  same : SameElements b p → ∀ f, r.frame = some f → f = b.bytes

def SyncsTo (s : Bufs) (probe : Frmbuf) (memory : Option Frmbuf) (isAp : Bool) (b p : Beacon) : Prop :=
  ∃ r, changeBeacon s probe memory isAp b.size = some r ∧ Refreshed s b p r

/-- **The condition**: the beacon fits the buffers and has an SSID, each search stays in the received frame, and if the
elements are the same, a zero is in front of the SSID and each element behind it agrees with what is found. -/
def SyncGuard (s : Bufs) (memory : Option Frmbuf) (isAp : Bool) (b p : Beacon) : Prop :=
  isAp = true ∧ (s.sccBcnBuf ≠ none ∨ memory ≠ none) →
    b.size ≤ frmbufMaxlen ∧ (∃ e ∈ b.elems, e.id = eidSsid) ∧ (∀ e ∈ b.fromSsid, Searched e → StaysIn p e) ∧
      (SameElements b p → b.beforeSsid.getLast? = some 0 ∧ ∀ e ∈ b.fromSsid, Searched e → Agrees p e)

instance (s : Bufs) (memory : Option Frmbuf) (isAp : Bool) (b p : Beacon) :
    Decidable (SyncGuard s memory isAp b p) := inferInstanceAs (Decidable (_ → _))

section Frame

variable {s : Bufs} {probe : Frmbuf} {memory : Option Frmbuf} {b p : Beacon}

theorem bytes_eq_ssid (b : Beacon) : b.bytes = b.beforeSsid ++ elementsBytes b.fromSsid := by
  unfold Beacon.bytes Beacon.beforeSsid Beacon.fromSsid
  rw [append_assoc, ← elementsBytes_append, List.takeWhile_append_dropWhile]

theorem zero_last {header : List Byte} (whole : header.length = varOffset) (es : List Element) :
    ∃ (header' : List Byte) (es' : List Element), header'.length = varOffset ∧
      (header ++ elementsBytes es).dropLast ++ [0] = header' ++ elementsBytes es' ∧
      es'.map Element.id = es.map Element.id ∧ es'.map Element.size = es.map Element.size := by
  rcases List.eq_nil_or_concat es with rfl | ⟨init, e, rfl⟩
  · refine ⟨header.dropLast ++ [0], [], ?_, ?_, rfl, rfl⟩
    · rw [length_append, length_dropLast, whole]
      rfl
    · show (header ++ []).dropLast ++ [0] = header.dropLast ++ [0] ++ []
      rw [append_nil, append_nil]
  rw [List.concat_eq_append]
  have last : ∃ e' : Element, e.bytes.dropLast ++ [0] = e'.bytes ∧ e'.id = e.id ∧ e'.size = e.size := by
    rcases List.eq_nil_or_concat e.data with empty | ⟨data, byte, all⟩
    · refine ⟨e, ?_, rfl, rfl⟩
      unfold Element.bytes
      rw [empty]
      rfl
    · rw [List.concat_eq_append] at all
      have length : (data ++ [0]).length = e.data.length := by
        rw [all, length_append, length_append]
        rfl
      refine ⟨⟨e.id, data ++ [0], length.trans_lt e.short⟩, ?_, rfl, congrArg (· + 2) length⟩
      unfold Element.bytes
      dsimp only
      rw [length, all, ← List.cons_append, ← List.cons_append, List.dropLast_concat]
      rfl
  obtain ⟨e', bytes, id, size⟩ := last
  refine ⟨header, init ++ [e'], whole, ?_, ?_, ?_⟩
  · have some : e.bytes ≠ [] := List.cons_ne_nil _ _
    rw [elementsBytes_append, elementsBytes_append, elementsBytes_cons, elementsBytes_cons, ← append_assoc header]
    show (_ ++ (e.bytes ++ [])).dropLast ++ [0] = _ ++ (_ ++ (e'.bytes ++ []))
    rw [append_nil, append_nil, List.dropLast_append_of_ne_nil some, append_assoc, bytes, append_assoc]
  · rw [map_append, map_append, map_singleton, map_singleton, id]
  · rw [map_append, map_append, map_singleton, map_singleton, size]

theorem beforeSsid_ne_nil (b : Beacon) : b.beforeSsid ≠ [] := by
  refine List.ne_nil_of_length_pos ?_
  unfold Beacon.beforeSsid
  rw [length_append, b.whole]
  exact Nat.lt_add_right _ (by decide)

theorem copied_var (old : Frmbuf) (fits : b.size ≤ frmbufMaxlen) : ∃ buf, old.store b.bytes = some buf ∧
    buf.bytes = b.bytes ++ old.bytes.drop b.bytes.length ∧
    (buf.bytes.drop varOffset).take (b.size - varOffset) = elementsBytes b.elems := by
  obtain ⟨buf, copied⟩ := Frmbuf.store_isSome (b := old) fits
  have bytes := (Frmbuf.store_eq_some.mp copied).2
  refine ⟨buf, copied, bytes, ?_⟩
  rw [bytes]
  unfold Beacon.bytes
  rw [append_assoc, drop_left' b.whole, b.size_eq, Nat.add_sub_cancel_left, List.take_left]

theorem changeBeacon_noSsid {old : Frmbuf} (buffer : (s.sccBcnBuf <|> memory) = some old)
    (fits : b.size ≤ frmbufMaxlen) (noSsid : ¬∃ e ∈ b.elems, e.id = eidSsid)
    (stored : b.bytes <+: s.bcnSave.bytes) : changeBeacon s probe memory true b.size = none := by
  have saved : s.bcnSave.load b.size = some b.bytes := Frmbuf.load_eq_some.mpr ⟨rfl, stored⟩
  obtain ⟨buf, copied, _, var⟩ := copied_var old fits
  have missing : findElement eidSsid (elementsBytes b.elems) = none := by
    unfold findElement
    rw [elements_bytes, offsetOf_eq_none, List.find?_eq_none]
    exact fun e member here => noSsid ⟨e, member, of_decide_eq_true here⟩
  unfold changeBeacon
  rw [if_pos rfl, buffer]
  simp only [saved, copied, var, missing, bind_eq_bind, bind_some, Option.bind_none]

theorem changeBeacon_some (probe : Frmbuf) {old : Frmbuf} (buffer : (s.sccBcnBuf <|> memory) = some old)
    (fits : b.size ≤ frmbufMaxlen) (ssid : ∃ e ∈ b.elems, e.id = eidSsid) (stored : b.bytes <+: s.bcnSave.bytes) :
    ∃ r, changeBeacon s probe memory true b.size = some r ∧ r.bufs.bcnSave = s.bcnSave ∧
      r.frame = some (b.beforeSsid.dropLast ++ [0] ++ elementsBytes (b.fromSsid.map (refreshed probe))) ∧
      (∀ stop ∈ r.ends.beacon, stop ≤ b.size) ∧ r.ends.probe = b.fromSsid.flatMap (probeEnds probe) := by
  have size := b.size_eq
  have parts : b.size = b.beforeSsid.length + (elementsBytes b.fromSsid).length := by
    unfold Beacon.size
    rw [bytes_eq_ssid, length_append]
  have saved : s.bcnSave.load b.size = some b.bytes := Frmbuf.load_eq_some.mpr ⟨rfl, stored⟩
  obtain ⟨buf, copied, bytes, var⟩ := copied_var old fits
  generalize old.bytes.drop b.bytes.length = rest at bytes
  have found : findElement eidSsid (elementsBytes b.elems) =
      some (elementsBytes (b.elems.takeWhile (·.id ≠ eidSsid))).length := by
    unfold findElement
    rw [elements_bytes, offsetOf_takeWhile ssid]
  have start : varOffset + (elementsBytes (b.elems.takeWhile (·.id ≠ eidSsid))).length = b.beforeSsid.length := by
    unfold Beacon.beforeSsid
    rw [length_append, b.whole]
  have some := beforeSsid_ne_nil b
  have split : buf.bytes = b.beforeSsid.dropLast ++
      ([b.beforeSsid.getLast some] ++ (elementsBytes b.fromSsid ++ rest)) := by
    rw [bytes, bytes_eq_ssid, ← append_assoc, List.dropLast_append_getLast, append_assoc]
  obtain ⟨zeroed, written, bytes₁⟩ := Frmbuf.write_middle [0] split rfl
  have length : (b.beforeSsid.dropLast ++ [(0 : Byte)]).length = b.beforeSsid.length := by
    rw [length_append, length_dropLast, List.length_singleton]
    exact Nat.sub_add_cancel (List.length_pos_of_ne_nil some)
  have enough : b.fromSsid.length < b.size + 1 := by
    have few := length_le_elementsBytes b.fromSsid
    omega
  have total : b.size = (b.beforeSsid.dropLast ++ [(0 : Byte)]).length + (elementsBytes b.fromSsid).length := by
    rw [length, parts]
  obtain ⟨buf₂, ends, looped, bytes₂, probeEnds, beaconEnds⟩ :=
    syncElements_bytes probe (bytes₁.trans (append_assoc _ _ _).symm) enough total
  rw [length_dropLast] at written
  rw [length] at looped
  have frame : buf₂.load b.size =
      Option.some (b.beforeSsid.dropLast ++ [0] ++ elementsBytes (b.fromSsid.map (refreshed probe))) := by
    rw [Frmbuf.load_eq_some, bytes₂, length_append, length]
    refine ⟨?_, ?_⟩
    · rw [parts, length_elementsBytes, length_elementsBytes, map_map]
      congr 3
      funext e
      exact (refreshed_keeps probe).size e
    · rw [← append_assoc]
      exact List.prefix_append _ _
  refine ⟨⟨{ s with sccBcnBuf := Option.some buf₂ }, Option.some _,
    Ends.append ⟨[varOffset + searchEnd eidSsid (elementsBytes b.elems), b.beforeSsid.length], []⟩ ends⟩, ?_, rfl, rfl,
    fun stop here => ?_, probeEnds⟩
  · unfold changeBeacon
    rw [if_pos rfl, buffer]
    simp only [saved, copied, var, found, start, written, looped, frame, bind_eq_bind, bind_some]
    rfl
  · rcases List.mem_append.mp here with here | here
    · have last : searchEnd eidSsid (elementsBytes b.elems) ≤ (elementsBytes b.elems).length := searchEnd_le
      rcases mem_cons.mp here with rfl | here
      · omega
      · obtain rfl := mem_singleton.mp here
        omega
    · exact beaconEnds stop here

theorem inProbe_iff (received : p.bytes.take frmbufMaxlen <+: probe.bytes) :
    (∀ stop ∈ b.fromSsid.flatMap (probeEnds probe), stop ≤ p.size) ↔ ∀ e ∈ b.fromSsid, Searched e → StaysIn p e := by
  rw [List.forall_mem_flatMap]
  refine forall₂_congr fun e _ => ?_
  by_cases searched : Searched e
  · rw [imp_iff_right searched]
    exact probeEnds_le received searched
  · refine iff_of_true (fun stop here => ?_) fun there => absurd there searched
    unfold probeEnds at here
    rw [if_neg searched] at here
    exact absurd here not_mem_nil

theorem frame_eq_iff (received : p.bytes.take frmbufMaxlen <+: probe.bytes)
    (stays : ∀ e ∈ b.fromSsid, Searched e → StaysIn p e) :
    b.beforeSsid.dropLast ++ [0] ++ elementsBytes (b.fromSsid.map (refreshed probe)) = b.bytes ↔
      b.beforeSsid.getLast? = some 0 ∧ ∀ e ∈ b.fromSsid, Searched e → Agrees p e := by
  have some := beforeSsid_ne_nil b
  have length : (b.beforeSsid.dropLast ++ [(0 : Byte)]).length = b.beforeSsid.length := by
    rw [length_append, length_dropLast, List.length_singleton]
    exact Nat.sub_add_cancel (List.length_pos_of_ne_nil some)
  have front : b.beforeSsid.dropLast ++ [0] = b.beforeSsid ↔ b.beforeSsid.getLast? = Option.some 0 := by
    rw [List.getLast?_eq_some_getLast some, Option.some.injEq]
    constructor
    · intro same
      have last := congrArg List.getLast? same
      rw [List.getLast?_concat, List.getLast?_eq_some_getLast some] at last
      exact (Option.some.inj last).symm
    · intro zero
      rw [← zero, List.dropLast_append_getLast]
  have each : elementsBytes (b.fromSsid.map (refreshed probe)) = elementsBytes b.fromSsid ↔
      ∀ e ∈ b.fromSsid, Searched e → Agrees p e := by
    have list : elementsBytes (b.fromSsid.map (refreshed probe)) = elementsBytes b.fromSsid ↔
        b.fromSsid.map (refreshed probe) = b.fromSsid := by
      refine ⟨fun same => ?_, fun same => by rw [same]⟩
      rw [← elements_bytes (b.fromSsid.map (refreshed probe)), same, elements_bytes]
    have map : b.fromSsid.map (refreshed probe) = b.fromSsid ↔ ∀ e ∈ b.fromSsid, refreshed probe e = e :=
      ⟨fun same => List.map_inj_left.mp (same.trans (map_id _).symm),
        fun each => (List.map_inj_left.mpr each).trans (map_id _)⟩
    rw [list, map]
    refine forall₂_congr fun e member => ?_
    by_cases searched : Searched e
    · rw [imp_iff_right searched]
      exact refreshed_eq received searched (stays e member searched)
    · refine iff_of_true ?_ fun there => absurd there searched
      unfold refreshed
      rw [if_neg searched]
  rw [bytes_eq_ssid, ← front, ← each]
  exact ⟨fun same => List.append_inj same length, fun both => by rw [both.1, both.2]⟩

theorem map_parts {β : Type} {g : Element → β} {es' : List Element}
    (before : es'.map g = (b.elems.takeWhile (·.id ≠ eidSsid)).map g) (keeps : ∀ e, g (refreshed probe e) = g e) :
    (es' ++ b.fromSsid.map (refreshed probe)).map g = b.elems.map g := by
  have after : g ∘ refreshed probe = g := by
    funext e
    exact keeps e
  rw [map_append, before, map_map, after, ← map_append]
  unfold Beacon.fromSsid
  rw [List.takeWhile_append_dropWhile]

/-- **The refresh is right exactly when** the condition holds. -/
theorem changeBeacon_right (s : Bufs) (probe : Frmbuf) (memory : Option Frmbuf) (isAp : Bool) (b p : Beacon)
    (stored : b.bytes.take frmbufMaxlen <+: s.bcnSave.bytes)
    (received : p.bytes.take frmbufMaxlen <+: probe.bytes) :
    SyncsTo s probe memory isAp b p ↔ SyncGuard s memory isAp b p := by
  have untouched (result : changeBeacon s probe memory isAp b.size = some { bufs := s }) :
      SyncsTo s probe memory isAp b p :=
    ⟨_, result, rfl, fun _ here => absurd here not_mem_nil, fun _ here => absurd here not_mem_nil,
      fun _ => (nomatch ·), fun _ _ => (nomatch ·)⟩
  unfold SyncGuard
  cases isAp with
  | false => exact iff_of_true (untouched rfl) fun both => nomatch both.1
  | true =>
  cases buffer : s.sccBcnBuf <|> memory with
  | none =>
    refine iff_of_true (untouched ?_) fun both => absurd both.2 (noBuffer_iff.mp buffer)
    unfold changeBeacon
    rw [if_pos rfl, buffer]
  | some old =>
    have some := buffer_of_some buffer
    rw [imp_iff_right ⟨rfl, some⟩]
    by_cases fits : b.size ≤ frmbufMaxlen
    swap
    · refine iff_of_false (fun ⟨r, result, _⟩ => ?_) fun all => fits all.1
      have outside : s.bcnSave.load b.size = none := if_neg fits
      unfold changeBeacon at result
      rw [if_pos rfl, buffer] at result
      simp only [outside, bind_eq_bind, Option.bind_none] at result
      exact nomatch result
    rw [List.take_of_length_le fits] at stored
    by_cases ssid : ∃ e ∈ b.elems, e.id = eidSsid
    swap
    · refine iff_of_false (fun ⟨r, result, _⟩ => ?_) fun all => ssid all.2.1
      exact nomatch (changeBeacon_noSsid buffer fits ssid stored).symm.trans result
    obtain ⟨r, result, saved, frame, inBeacon, ends⟩ := changeBeacon_some probe buffer fits ssid stored
    have done : SyncsTo s probe memory true b p ↔ Refreshed s b p r := by
      refine ⟨fun ⟨r', other, done⟩ => ?_, fun done => ⟨r, result, done⟩⟩
      obtain rfl := Option.some.inj (result.symm.trans other)
      exact done
    have inProbe := inProbe_iff (b := b) received
    rw [← ends] at inProbe
    rw [done, and_iff_right fits, and_iff_right ssid]
    constructor
    · intro right
      have stays := inProbe.mp right.inProbe
      exact ⟨stays, fun same => (frame_eq_iff received stays).mp (right.same same _ frame)⟩
    · rintro ⟨stays, keeps⟩
      refine ⟨saved, inBeacon, inProbe.mpr stays, fun f here => ?_, fun same f here => ?_⟩
      · obtain ⟨header', es', whole, zeroed, ids, sizes⟩ := zero_last b.whole (b.elems.takeWhile (·.id ≠ eidSsid))
        refine ⟨⟨header', whole, es' ++ b.fromSsid.map (refreshed probe)⟩, ?_, ?_, ?_⟩
        · obtain rfl := Option.some.inj (frame.symm.trans here)
          unfold Beacon.bytes Beacon.beforeSsid
          rw [zeroed, elementsBytes_append, append_assoc]
        · exact map_parts ids (refreshed_keeps probe).id
        · exact map_parts sizes (refreshed_keeps probe).size
      · exact (Option.some.inj (frame.symm.trans here)).symm.trans ((frame_eq_iff received stays).mpr (keeps same))

end Frame

theorem saveProbeRsp_received (old : Frmbuf) (p : Beacon) :
    p.bytes.take frmbufMaxlen <+: (saveProbeRsp old p.bytes).bytes := List.prefix_append _ _

/-! ### Any bytes -/

def visited (bytes : List Byte) (bcnLen : ℕ) : ℕ → ℕ → List ℕ
  | 0, _ => []
  | fuel + 1, o =>
    if o < bcnLen then o :: visited bytes bcnLen fuel (o + ((bytes.getD (o + 1) 0).toNat + 2)) else []

def Overwrites (probe : Frmbuf) (bytes : List Byte) (o : ℕ) : Prop :=
  (bytes.getD o 0 ≠ eidTim ∧ bytes.getD o 0 ≠ eidSsid) ∧
    (probeRspIeAddr probe (bytes.getD o 0)).map (fun src => probe.bytes.getD (src + 1) 0) =
      some (bytes.getD (o + 1) 0)

instance (probe : Frmbuf) (bytes : List Byte) (o : ℕ) : Decidable (Overwrites probe bytes o) :=
  inferInstanceAs (Decidable (_ ∧ _))

/-- The bytes of `scc_bcn_buf` after the first copy. -/
def copied (save old : Frmbuf) (bcnLen : ℕ) : List Byte := save.bytes.take bcnLen ++ old.bytes.drop bcnLen

/-- **No write leaves the buffers**: an SSID is found, and what is overwritten on the way ends in the buffer. -/
def SyncFits (save probe old : Frmbuf) (bcnLen : ℕ) : Prop :=
  bcnLen ≤ frmbufMaxlen ∧
    match findElement eidSsid (((copied save old bcnLen).drop varOffset).take (bcnLen - varOffset)) with
    | none => False
    | some ssid => ∀ o ∈ visited (copied save old bcnLen) bcnLen (bcnLen + 1) (varOffset + ssid),
        Overwrites probe (copied save old bcnLen) o →
          o + (((copied save old bcnLen).getD (o + 1) 0).toNat + 2) ≤ frmbufMaxlen

instance (save probe old : Frmbuf) (bcnLen : ℕ) : Decidable (SyncFits save probe old bcnLen) := by
  unfold SyncFits
  cases findElement eidSsid (((copied save old bcnLen).drop varOffset).take (bcnLen - varOffset)) <;> infer_instance

section Any

variable {save probe old buf : Frmbuf} {bytes : List Byte} {bcnLen fuel o : ℕ}

theorem getD_of_drop {xs ys : List Byte} (agree : xs.drop o = ys.drop o) (k : ℕ) :
    xs.getD (o + k) 0 = ys.getD (o + k) 0 := by
  rw [List.getD_eq_getElem?_getD, List.getD_eq_getElem?_getD, ← List.getElem?_drop, ← List.getElem?_drop, agree]

theorem drop_add {xs ys : List Byte} (agree : xs.drop o = ys.drop o) (k : ℕ) : xs.drop (o + k) = ys.drop (o + k) := by
  rw [← List.drop_drop, ← List.drop_drop, agree]

theorem refresh_ends (agree : buf.bytes.drop o = bytes.drop o)
    (fits : Overwrites probe bytes o → o + ((bytes.getD (o + 1) 0).toNat + 2) ≤ frmbufMaxlen) :
    ∃ buf' ends, refresh probe buf o = some (buf', ends) ∧ buf'.bytes.drop (o + ((bytes.getD (o + 1) 0).toNat + 2)) =
        bytes.drop (o + ((bytes.getD (o + 1) 0).toNat + 2)) := by
  have id : buf.bytes.getD o 0 = bytes.getD o 0 := getD_of_drop agree 0
  have later := drop_add agree ((bytes.getD (o + 1) 0).toNat + 2)
  unfold refresh
  rw [getD_of_drop agree 1, id]
  dsimp only
  split
  case isFalse => exact ⟨buf, _, rfl, later⟩
  case isTrue searched =>
    cases found : probeRspIeAddr probe (bytes.getD o 0) with
    | none => exact ⟨buf, _, rfl, later⟩
    | some src =>
      dsimp only
      split
      case isFalse => exact ⟨buf, _, rfl, later⟩
      case isTrue same =>
        have inside := fits ⟨searched, by rw [found, Option.map_some, same]⟩
        have short : ((probe.bytes.drop src).take ((bytes.getD (o + 1) 0).toNat + 2)).length ≤
            (bytes.getD (o + 1) 0).toNat + 2 := List.length_take_le _ _
        obtain ⟨buf', written⟩ := Frmbuf.write_isSome (b := buf) ((Nat.add_le_add_left short o).trans inside)
        rw [written]
        exact ⟨buf', _, rfl, (Frmbuf.drop_write written (Nat.add_le_add_left short o)).trans later⟩

theorem syncElements_ends (agree : buf.bytes.drop o = bytes.drop o) (enough : bcnLen < o + fuel)
    (fits : ∀ o' ∈ visited bytes bcnLen fuel o, Overwrites probe bytes o' →
      o' + ((bytes.getD (o' + 1) 0).toNat + 2) ≤ frmbufMaxlen) (inLoop : 0 < fuel) :
    ∃ r, syncElements probe bcnLen fuel buf o = some r := by
  induction fuel generalizing buf o with
  | zero => exact absurd inLoop (Nat.lt_irrefl 0)
  | succ fuel ih =>
    unfold syncElements
    by_cases inside : o < bcnLen
    swap
    · rw [if_neg inside]
      exact ⟨_, rfl⟩
    have visits : visited bytes bcnLen (fuel + 1) o =
        o :: visited bytes bcnLen fuel (o + ((bytes.getD (o + 1) 0).toNat + 2)) := if_pos inside
    rw [visits] at fits
    obtain ⟨buf', ends, turn, agree'⟩ := refresh_ends agree (fits o mem_cons_self)
    obtain ⟨r, rest⟩ := ih agree' (by omega) (fun o' here => fits o' (List.mem_cons_of_mem _ here)) (by omega)
    rw [if_pos inside, getD_of_drop agree 1]
    dsimp only
    simp only [turn, rest, bind_eq_bind, bind_some]
    exact ⟨_, rfl⟩

theorem changeBeacon_ends {s : Bufs} {memory : Option Frmbuf} (buffer : (s.sccBcnBuf <|> memory) = some old)
    (fits : SyncFits s.bcnSave probe old bcnLen) : ∃ r, changeBeacon s probe memory true bcnLen = some r := by
  obtain ⟨short, fits⟩ := fits
  have saved : s.bcnSave.load bcnLen = some (s.bcnSave.bytes.take bcnLen) := if_pos short
  have length : (s.bcnSave.bytes.take bcnLen).length = bcnLen := by
    rw [length_take, s.bcnSave.full]
    exact Nat.min_eq_left short
  obtain ⟨buf, stored⟩ := Frmbuf.store_isSome (b := old) (length.trans_le short)
  have bytes : buf.bytes = copied s.bcnSave old bcnLen := by
    rw [(Frmbuf.store_eq_some.mp stored).2, length]
    rfl
  rw [← bytes] at fits
  cases found : findElement eidSsid ((buf.bytes.drop varOffset).take (bcnLen - varOffset)) with
  | none =>
    rw [found] at fits
    exact fits.elim
  | some ssid =>
    rw [found] at fits
    dsimp only at fits
    obtain ⟨front, e, rest, all, start, -⟩ := findElement_eq_some found
    have inside : ssid + e.size + varOffset ≤ bcnLen := by
      have window := congrArg List.length all
      rw [length_take, List.length_drop, buf.full, length_append, length_append, e.length_bytes] at window
      unfold Element.size at window ⊢
      omega
    have room : varOffset + ssid - 1 + [(0 : Byte)].length ≤ frmbufMaxlen := by
      rw [List.length_singleton, Nat.sub_add_cancel (Nat.le_add_right_of_le (by decide))]
      omega
    obtain ⟨zeroed, written⟩ := Frmbuf.write_isSome (b := buf) room
    have behind : zeroed.bytes.drop (varOffset + ssid) = buf.bytes.drop (varOffset + ssid) := by
      refine Frmbuf.drop_write written ?_
      show varOffset + ssid - 1 + 1 ≤ varOffset + ssid
      exact (Nat.sub_add_cancel (Nat.le_add_right_of_le (by decide))).le
    obtain ⟨⟨buf', ends⟩, looped⟩ := syncElements_ends behind (Nat.lt_add_left _ (Nat.lt_succ_self bcnLen)) fits
      (Nat.succ_pos _)
    have frame : buf'.load bcnLen = some (buf'.bytes.take bcnLen) := if_pos short
    unfold changeBeacon
    rw [if_pos rfl, buffer]
    simp only [saved, stored, found, written, looped, frame, bind_eq_bind, bind_some]
    exact ⟨_, rfl⟩

end Any

/-! ### Two beacons -/

def plainBeacon : Beacon := beaconOf [⟨0, [65], by decide⟩, ⟨1, [2, 4], by decide⟩]

theorem changeBeacon_right_plain :
    SyncsTo (bufsOf plainBeacon) (saveProbeRsp Frmbuf.zero plainBeacon.bytes) none true plainBeacon plainBeacon :=
  (changeBeacon_right _ _ none true _ _ (bufsOf_stored (by decide +kernel)) (saveProbeRsp_received _ _)).mpr
    (by decide +kernel)

def vendorBeacon : Beacon := beaconOf [⟨0, [65], by decide⟩, ⟨221, [1], one_short⟩, ⟨221, [2], by decide⟩]

/-- **The second vendor element is overwritten by the first**, though the probe response carries both. -/
theorem vendor_overwritten : SameElements vendorBeacon vendorBeacon ∧
    ¬SyncsTo (bufsOf vendorBeacon) (saveProbeRsp Frmbuf.zero vendorBeacon.bytes) none true vendorBeacon
      vendorBeacon := by
  refine ⟨List.Perm.refl _, fun ⟨r, result, done⟩ => ?_⟩
  have changed : ((changeBeacon (bufsOf vendorBeacon) (saveProbeRsp Frmbuf.zero vendorBeacon.bytes) none true
      vendorBeacon.size).bind Synced.frame) =
      some (beaconOf [⟨0, [65], by decide⟩, ⟨221, [1], by decide⟩, ⟨221, [1], by decide⟩]).bytes := by
    decide +kernel
  rw [result, bind_some] at changed
  have same := done.same (List.Perm.refl _) _ changed
  exact absurd same (by decide +kernel)

end W2l.Scc
