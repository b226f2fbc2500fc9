/-
**RX buffers on PCIe: what `aml_pci_rxdataind` does with one descriptor.**

`aml_rx.c`. A descriptor names a buffer by its host id; the header in the buffer of an A-MSDU names
those of the other subframes. What the firmware used is to be replaced.

* `RxCall` — a descriptor, with what the call finds outside.
* `subframes` — the loop over `amsdu_hostids`, of `aml_rx_amsdu_free` and of `aml_rx_data_skb`.
* `amlPciRxdataind` — the function.
* `subframes_spec` — **the buffers the loop takes** are those that are named and in the table.
* `Returns` — how many buffers a call gives to the firmware.
-/

import W2lDriver.Pci.Rxbuf
import W2lDriver.Rx.Skb

namespace W2l.Pci

open Rx (has rxStatForward rxStatAlloc rxStatDelete rxStatLenUpdate rxStatSpurious rxStatMonitor)
open List (append_nil length_cons mem_cons mem_cons_of_mem mem_cons_self nodup_cons)

structure HwRxhdr where
  flagsIsAmsdu : Bool := false
  flagsIs80211Mpdu : Bool := false
  flagsVifIdx : BitVec 8 := 0
  flagsStaIdx : BitVec 8 := 0xff
  /-- `hwvect.len`. -/
  hwvectLen : BitVec 32 := 0
  amsduHostids : List (BitVec 32) := []
  amsduLen : List Nat := []

/-- A descriptor, `struct rxdesc_tag`, and what its call finds outside. -/
structure RxCall where
  hostId : BitVec 32
  status : BitVec 16
  /-- The header in the buffer; further on, what is read in its place behind some `msdu_offset`. -/
  frame : Nat → HwRxhdr := fun _ => {}
  /-- `AML_RECY_FW_ONGOING`. -/
  recovering : Bool := false
  /-- `g_pcie_suspend`. -/
  pcieSuspend : Bool := false
  /-- There is a monitor interface, and it is up. -/
  monitorVif : Bool := false
  /-- `pskb_expand_head` is called and fails. -/
  expandFails : Bool := false
  /-- `aml_rx_get_vif`, giving the `vif_index`. -/
  rxGetVif : BitVec 8 → Option Nat := fun _ => none
  /-- `vlan_idx` in `sta_table`. -/
  vlanIdx : BitVec 8 → Nat := fun _ => 0
  /-- `vif_table[i]` is set. -/
  vifTable : Nat → Bool := fun _ => false
  /-- `skb_tailroom`. -/
  skbTailroom : Nat → Nat := fun _ => 2048
  /-- The frame is not only for a station of the BSS or of the mesh. -/
  forward : Bool := true
  /-- There is memory for an allocation of the call. -/
  devAllocSkb : Nat → Bool := fun _ => true

def nonzero (hostids : List (BitVec 32)) : List (BitVec 32) := hostids.takeWhile fun h => h ≠ 0

def HwRxhdr.subs (hdr : HwRxhdr) : List (BitVec 32) :=
  if hdr.flagsIsAmsdu then nonzero hdr.amsduHostids else []

namespace RxCall

/-- `status & bit`. -/
def on (c : RxCall) (bit : BitVec 32) : Bool := has (c.status.setWidth 32) bit

/-- An interface receives the frame. -/
def destination (c : RxCall) (hdr : HwRxhdr) : Bool :=
  match c.rxGetVif hdr.flagsVifIdx with
  | none => false
  | some vif =>
    if hdr.flagsStaIdx ≠ 0xff ∧ hdr.flagsStaIdx < 20 ∧ c.vlanIdx hdr.flagsStaIdx ≠ vif then
      c.vifTable (c.vlanIdx hdr.flagsStaIdx)
    else true

def fits (c : RxCall) (hdr : HwRxhdr) (count skb : Nat) : Bool :=
  hdr.amsduLen.getD count 0 ≠ 0 && hdr.amsduLen.getD count 0 ≤ c.skbTailroom skb

end RxCall

def normalAmsduMaxLen : Nat := 2304

/-- A frame that is forwarded takes the buffers of its subframes along. -/
def RxCall.takesSubs (c : RxCall) (hdr : HwRxhdr) : Bool :=
  !hdr.flagsIs80211Mpdu &&
    (!c.destination hdr || hdr.flagsIsAmsdu && normalAmsduMaxLen < hdr.hwvectLen.toNat)

variable {n : Nat}

namespace RxHw

/-- The loop over `amsdu_hostids`, which takes the buffers it finds out of the table. They are returned
with their number. -/
def subframes (take : RxHw n → Fin n → RxHw n) : Nat → List (BitVec 32) → RxHw n → RxHw n × List (Nat × Nat)
  | _, [], s => (s, [])
  | count, hostid :: rest, s =>
    if hostid = 0 then (s, [])
    else
      let r := s.amlIpcRxbufFromHostid hostid
      match r.2 with
      | none => subframes take (count + 1) rest r.1
      | some (i, b) =>
        let t := subframes take (count + 1) rest (take r.1 i)
        (t.1, (count + 1, b.skb) :: t.2)

def amlRxAmsduFree (s : RxHw n) (hdr : HwRxhdr) : RxHw n × Nat :=
  if hdr.flagsIsAmsdu then
    let r := s.subframes amlIpcRxbufDealloc 0 hdr.amsduHostids
    (r.1, 1 + r.2.length)
  else (s, 1)

def amlRxDataSkb (s : RxHw n) (c : RxCall) (skb : Nat) (hdr : HwRxhdr) : RxHw n × Nat :=
  if hdr.flagsIsAmsdu then
    if normalAmsduMaxLen < hdr.hwvectLen.toNat then
      let r := s.subframes amlIpcBufE2aRelease 0 hdr.amsduHostids
      let forward := c.forward && c.fits hdr 0 skb && r.2.all fun rx => c.fits hdr rx.1 rx.2
      (r.1.dispose (if forward then .stack else .freed) (skb :: r.2.map Prod.snd), 1 + r.2.length)
    else (s.dispose .split [skb], 1)
  else
    let forward := c.forward && hdr.hwvectLen.toNat ≤ c.skbTailroom skb
    (s.dispose (if forward then .stack else .freed) [skb], 1)

/-- The loop behind `check_alloc`. -/
def allocNew (pushBody : Bool) (c : RxCall) : Nat → RxHw n → RxHw n
  | 0, s => s
  | nbBuff + 1, s =>
    allocNew pushBody c nbBuff (if c.pcieSuspend then { s with repushRxbuffCnt := s.repushRxbuffCnt + 1 }
      else s.amlIpcRxbufAlloc pushBody (c.devAllocSkb nbBuff))

def checkAlloc (pushBody : Bool) (s : RxHw n) (c : RxCall) (status : BitVec 32) (nbBuff : Nat) : RxHw n :=
  if has status rxStatAlloc then s.allocNew pushBody c nbBuff else s

/-- The branch of `RX_STAT_FORWARD`. -/
def forwardBuf (s : RxHw n) (c : RxCall) (i : Fin n) (b : RxSkb) : RxHw n × Nat :=
  let hdr := c.frame b.reserved
  let s := s.amlIpcBufE2aRelease i
  if hdr.flagsIs80211Mpdu then (s.dispose .cfg80211 [b.skb], 1)
  else if c.destination hdr then s.amlRxDataSkb c b.skb hdr
  else
    let r := s.amlRxAmsduFree hdr
    (r.1.dispose .freed [b.skb], r.2)

/-- `check_len_update` and what follows, with `hw_rxhdr` set or not. -/
def checkLenUpdate (pushBody : Bool) (s : RxHw n) (c : RxCall) (i : Fin n) (b : RxSkb) (hwRxhdr : Bool) : RxHw n :=
  if c.on rxStatLenUpdate then s
  else if c.on rxStatSpurious then s.amlIpcRxbufRepush pushBody b.toRxBuf
  else if c.on rxStatForward then
    let r := s.forwardBuf c i b
    r.1.checkAlloc pushBody c (c.status.setWidth 32) r.2
  else
    s.checkAlloc pushBody c (c.status.setWidth 32) (if hwRxhdr then 1 else 1 + (c.frame b.reserved).subs.length)

/-- `aml_pci_rxdataind` from the point on where the buffer is found. -/
def handle (pushBody : Bool) (s : RxHw n) (c : RxCall) (i : Fin n) (b : RxSkb) : RxHw n :=
  if c.on rxStatDelete then
    let r := s.amlRxAmsduFree (c.frame b.reserved)
    (r.1.amlIpcRxbufDealloc i).checkAlloc pushBody c (c.status.setWidth 32) r.2
  else if c.on rxStatMonitor && c.monitorVif then
    if c.status.setWidth 32 = rxStatMonitor then
      ((s.amlIpcBufE2aRelease i).dispose (if c.expandFails then .freed else .stack) [b.skb]).checkAlloc
        pushBody c (c.status.setWidth 32 ||| rxStatAlloc) 1
    else
      -- The status is invalid, and the data of the skb has moved.
      let b := { b with reserved := b.reserved + 1 }
      { s with rxbufs := Function.update s.rxbufs i (some b) }.checkLenUpdate pushBody c i b true
  else s.checkLenUpdate pushBody c i b false

def amlPciRxdataind (pushBody : Bool) (s : RxHw n) (c : RxCall) : RxHw n :=
  if c.recovering || c.status = 0 then s
  else
    let r := s.amlIpcRxbufFromHostid c.hostId
    match r.2 with
    | none => r.1.checkAlloc pushBody c (c.status.setWidth 32) 1
    | some (i, b) => r.1.handle pushBody c i b

end RxHw

/-! ### The loop -/

variable {s s' : RxHw n} {held : List RxBuf} {hand : List Nat} {i : Fin n} {b : RxSkb} {c : RxCall}
  {pushBody : Bool}

/-- A way to take a buffer out of the table; some skbs are then in the hands of the function. -/
structure Takes (take : RxHw n → Fin n → RxHw n) (given : Nat → List Nat) : Prop where
  kept : ∀ {s held hand i b}, Kept s held hand → s.rxbufs i = some b → b.toRxBuf ∈ held →
    Kept (take s i) (held.erase b.toRxBuf) (hand ++ given b.skb)
  rxbufs : ∀ {s i b}, s.rxbufs i = some b → (take s i).rxbufs = Function.update s.rxbufs i none
  fw : ∀ s i, (take s i).fw = s.fw
  failures : ∀ s i, (take s i).failures = s.failures

theorem takes_release : Takes (RxHw.amlIpcBufE2aRelease (n := n)) fun skb => [skb] :=
  ⟨fun kept filled member => kept.release filled member, fun _ => rfl, fun _ _ => rfl, fun _ _ => rfl⟩

theorem dealloc_eq (filled : s.rxbufs i = some b) :
    s.amlIpcRxbufDealloc i = (s.amlIpcBufE2aRelease i).dispose .freed [b.skb] := by
  rw [RxHw.amlIpcRxbufDealloc, filled]

theorem takes_dealloc : Takes (RxHw.amlIpcRxbufDealloc (n := n)) fun _ => [] := by
  refine ⟨fun kept filled member => ?_, fun filled => ?_, fun s i => ?_, fun s i => ?_⟩
  · rw [dealloc_eq filled, append_nil]
    exact (kept.release filled member).dispose .freed
  · rw [dealloc_eq filled]
    rfl
  · unfold RxHw.amlIpcRxbufDealloc
    split <;> rfl
  · unfold RxHw.amlIpcRxbufDealloc
    split <;> rfl

theorem Takes.filled_iff {take : RxHw n → Fin n → RxHw n} {given : Nat → List Nat} (takes : Takes take given)
    (kept : Kept s held hand) (filled : s.rxbufs i = some b) (h : BitVec 32) :
    Filled (take s i) h ↔ Filled s h ∧ h ≠ b.hostid := by
  rw [Pci.filled_iff, Pci.filled_iff, takes.rxbufs filled]
  refine ⟨fun ⟨j, b', at_, same⟩ => ?_, fun ⟨⟨j, b', at_, same⟩, other⟩ => ?_⟩
  · by_cases here : j = i
    · subst here
      rw [Function.update_self] at at_
      cases at_
    · rw [Function.update_of_ne here] at at_
      refine ⟨⟨j, b', at_, same⟩, fun clash => here ?_⟩
      exact (kept.slot_unique at_ filled (same.trans clash)).1
  · refine ⟨j, b', ?_, same⟩
    rw [Function.update_of_ne ?_]
    · exact at_
    · rintro rfl
      rw [filled] at at_
      obtain rfl := Option.some.inj at_
      exact other same.symm

/-- What a loop took out of the table: the buffers of these host ids. -/
structure Taken (s : RxHw n) (hostids : List (BitVec 32)) (s' : RxHw n) (found : List (BitVec 32)) : Prop where
  fw : s'.fw = s.fw
  failures : s'.failures = s.failures
  nodup : found.Nodup
  mem : ∀ h, h ∈ found ↔ h ∈ hostids ∧ Filled s h
  others : ∀ j b, s.rxbufs j = some b → b.hostid ∉ hostids → s'.rxbufs j = some b

theorem Taken.nil (s : RxHw n) : Taken s [] s [] :=
  ⟨rfl, rfl, List.nodup_nil, fun h => by simp, fun _ _ at_ _ => at_⟩

theorem Taken.skip {hostids found : List (BitVec 32)} {h : BitVec 32} (taken : Taken s hostids s' found)
    (absent : ¬ Filled s h) : Taken s (h :: hostids) s' found := by
  refine ⟨taken.fw, taken.failures, taken.nodup, fun h' => ?_, fun j b at_ notIn => ?_⟩
  · rw [taken.mem, mem_cons]
    refine ⟨fun ⟨named, filled⟩ => ⟨.inr named, filled⟩, fun ⟨named, filled⟩ => ⟨?_, filled⟩⟩
    exact named.resolve_left fun same => absent (same ▸ filled)
  · exact taken.others j b at_ fun named => notIn (mem_cons_of_mem h named)

theorem Taken.cons {take : RxHw n → Fin n → RxHw n} {given : Nat → List Nat} (takes : Takes take given)
    (kept : Kept s held hand) (filled : s.rxbufs i = some b) {hostids found : List (BitVec 32)}
    (taken : Taken (take s i) hostids s' found) : Taken s (b.hostid :: hostids) s' (b.hostid :: found) := by
  have left := takes.filled_iff kept filled
  refine ⟨taken.fw.trans (takes.fw s i), taken.failures.trans (takes.failures s i), ?_, fun h => ?_,
    fun j b' at_ notIn => ?_⟩
  · refine nodup_cons.mpr ⟨fun again => ?_, taken.nodup⟩
    exact ((left b.hostid).mp ((taken.mem b.hostid).mp again).2).2 rfl
  · rw [mem_cons, taken.mem, left, mem_cons]
    by_cases same : h = b.hostid
    · subst same
      exact ⟨fun _ => ⟨.inl rfl, Pci.filled_iff.mpr ⟨i, b, filled, rfl⟩⟩, fun _ => .inl rfl⟩
    · refine ⟨fun named => ?_, fun ⟨named, inTable⟩ => .inr ⟨named.resolve_left same, inTable, same⟩⟩
      obtain ⟨named, inTable, -⟩ := named.resolve_left same
      exact ⟨.inr named, inTable⟩
  · refine taken.others j b' ?_ fun named => notIn (mem_cons_of_mem _ named)
    rw [takes.rxbufs filled, Function.update_of_ne ?_]
    · exact at_
    · rintro rfl
      rw [filled] at at_
      obtain rfl := Option.some.inj at_
      exact notIn mem_cons_self

theorem nonzero_cons {h : BitVec 32} (rest : List (BitVec 32)) (positive : h ≠ 0) :
    nonzero (h :: rest) = h :: nonzero rest := by
  rw [nonzero, List.takeWhile_cons_of_pos (by simpa using positive), nonzero]

theorem subframes_spec {take : RxHw n → Fin n → RxHw n} {given : Nat → List Nat} (takes : Takes take given)
    {hostids : List (BitVec 32)} (count : Nat) (kept : Kept s held hand)
    (inRange : ∀ h ∈ nonzero hostids, InRange h) (clear : ∀ e ∈ s.fw, e.hostid ∉ nonzero hostids) :
    ∃ held' found, Kept (s.subframes take count hostids).1 held'
        (hand ++ (s.subframes take count hostids).2.flatMap fun rx => given rx.2) ∧
      Taken s (nonzero hostids) (s.subframes take count hostids).1 found ∧
      (s.subframes take count hostids).2.length = found.length := by
  induction hostids generalizing s held hand count with
  | nil => exact ⟨held, [], by rwa [RxHw.subframes, List.flatMap_nil, append_nil], .nil s, rfl⟩
  | cons h rest ih =>
    rw [RxHw.subframes]
    by_cases zero : h = 0
    · subst zero
      exact ⟨held, [], by rwa [if_pos rfl, List.flatMap_nil, append_nil], .nil s, rfl⟩
    rw [if_neg zero]
    rw [nonzero_cons rest zero] at inRange clear ⊢
    have inRangeRest : ∀ h ∈ nonzero rest, InRange h := fun h' named =>
      inRange h' (mem_cons_of_mem h named)
    have clearRest : ∀ e ∈ s.fw, e.hostid ∉ nonzero rest := fun e member named =>
      clear e member (mem_cons_of_mem h named)
    rcases kept.fromHostid (inRange h mem_cons_self) with ⟨i, b, filled, rfl, found⟩ | ⟨absent, nothing⟩
    · have notFw : ∀ e ∈ s.fw, e.hostid ≠ b.hostid := fun e member same =>
        clear e member (same ▸ mem_cons_self)
      have kept' := takes.kept kept filled (kept.mem_held filled notFw)
      obtain ⟨held', found', after, taken, length⟩ := ih (count + 1) kept' inRangeRest
        (by rw [takes.fw]; exact clearRest)
      simp only [found]
      refine ⟨held', b.hostid :: found', ?_, taken.cons takes kept filled, ?_⟩
      · rw [List.flatMap_cons, ← List.append_assoc]
        exact after
      · rw [length_cons, length_cons, length]
    · obtain ⟨held', found', after, taken, length⟩ := ih (count + 1) kept inRangeRest clearRest
      simp only [nothing]
      exact ⟨held', found', after, taken.skip absent, length⟩

/-! ### What a call gives -/

/-- **A call gives so many buffers to the firmware**, unless an allocation fails, and keeps the table. -/
structure Returns (s : RxHw n) (count : Nat) (s' : RxHw n) : Prop where
  kept : ∃ held, Kept s' held []
  failures : s.failures ≤ s'.failures
  fw : s'.failures = s.failures → s'.fw.length = s.fw.length + count

theorem Returns.refl (kept : Kept s held []) : Returns s 0 s := ⟨⟨held, kept⟩, Nat.le_refl _, fun _ => rfl⟩

def gives (pushBody : Bool) (c : RxCall) (nbBuff : Nat) : Nat :=
  if pushBody && !c.pcieSuspend then nbBuff else 0

theorem allocNew_returns (small : n ≤ 2 ^ 31) (kept : Kept s held []) (nbBuff : Nat) :
    Returns s (gives pushBody c nbBuff) (s.allocNew pushBody c nbBuff) := by
  induction nbBuff generalizing s held with
  | zero =>
    have nothing : gives pushBody c 0 = 0 := by rw [gives, ite_self]
    rw [nothing]
    exact .refl kept
  | succ nbBuff ih =>
    rw [RxHw.allocNew]
    cases suspend : c.pcieSuspend with
    | true =>
      have none : ∀ nb, gives pushBody c nb = 0 := fun nb => by
        rw [gives, suspend, Bool.not_true, Bool.and_false, if_neg Bool.false_ne_true]
      have kept' : Kept { s with repushRxbuffCnt := s.repushRxbuffCnt + 1 } held [] :=
        ⟨kept.mapped, kept.unmoved, kept.parts, kept.balance, kept.nodup, kept.fresh, kept.lost, kept.outside⟩
      have rest := ih kept'
      rw [none] at rest ⊢
      exact ⟨rest.kept, rest.failures, rest.fw⟩
    | false =>
      have more : ∀ nb, gives pushBody c nb = nb * pushBody.toNat := fun nb => by
        rw [gives, suspend]
        cases pushBody
        · exact (Nat.mul_zero nb).symm
        · exact (Nat.mul_one nb).symm
      obtain ⟨held', kept', fail, one⟩ := kept.alloc small pushBody (c.devAllocSkb nbBuff)
      have rest := ih kept'
      have failRest := rest.failures
      rw [more] at rest ⊢
      refine ⟨rest.kept, fail.trans rest.failures, fun same => ?_⟩
      rw [if_neg Bool.false_ne_true] at same ⊢
      rw [rest.fw (by omega), one (by omega), Nat.succ_mul]
      omega

/-- What `check_alloc` gives. -/
theorem checkAlloc_returns (small : n ≤ 2 ^ 31) (kept : Kept s held []) (pushBody : Bool) (c : RxCall)
    (status : BitVec 32) (nbBuff : Nat) :
    Returns s (if has status rxStatAlloc then gives pushBody c nbBuff else 0)
      (s.checkAlloc pushBody c status nbBuff) := by
  unfold RxHw.checkAlloc
  split
  · exact allocNew_returns small kept nbBuff
  · exact .refl kept

theorem Returns.of_same {t : RxHw n} {count : Nat} (returns : Returns t count s') (fw : t.fw = s.fw)
    (failures : t.failures = s.failures) : Returns s count s' :=
  ⟨returns.kept, failures ▸ returns.failures, fun same => fw ▸ returns.fw (same.trans failures.symm)⟩

/-- The buffers a function took: that of the descriptor, and those of the other subframes. -/
structure Found (s : RxHw n) (hostId : BitVec 32) (subs : List (BitVec 32)) (nbBuff : Nat)
    (found : List (BitVec 32)) : Prop where
  nodup : (hostId :: found).Nodup
  mem : ∀ h, h ∈ found ↔ h ∈ subs ∧ Filled s h ∧ h ≠ hostId
  count : nbBuff = (hostId :: found).length

theorem Found.alone (s : RxHw n) (hostId : BitVec 32) : Found s hostId [] 1 [] :=
  ⟨List.nodup_singleton _, fun h => by simp, rfl⟩

theorem amlRxAmsduFree_spec {hdr : HwRxhdr} (kept : Kept s held hand)
    (inRange : ∀ h ∈ hdr.subs, InRange h) (clear : ∀ e ∈ s.fw, e.hostid ∉ hdr.subs) :
    ∃ held' found, Kept (s.amlRxAmsduFree hdr).1 held' hand ∧ Taken s hdr.subs (s.amlRxAmsduFree hdr).1 found ∧
      (s.amlRxAmsduFree hdr).2 = 1 + found.length := by
  unfold RxHw.amlRxAmsduFree
  unfold HwRxhdr.subs at inRange clear ⊢
  cases amsdu : hdr.flagsIsAmsdu with
  | false => exact ⟨held, [], kept, .nil s, rfl⟩
  | true =>
    simp only [amsdu, if_true] at inRange clear ⊢
    obtain ⟨held', found, after, taken, length⟩ := subframes_spec takes_dealloc 0 kept inRange clear
    refine ⟨held', found, ?_, taken, by rw [length]⟩
    have empty : ((s.subframes RxHw.amlIpcRxbufDealloc 0 hdr.amsduHostids).2.flatMap
        fun _ => ([] : List Nat)) = [] := List.flatMap_eq_nil_iff.mpr fun _ _ => rfl
    rwa [empty, append_nil] at after

theorem Taken.found {subs found : List (BitVec 32)} (kept : Kept s held hand) (filled : s.rxbufs i = some b)
    (taken : Taken (s.amlIpcBufE2aRelease i) subs s' found) :
    Found s b.hostid subs (1 + found.length) found := by
  have mem : ∀ h, h ∈ found ↔ h ∈ subs ∧ Filled s h ∧ h ≠ b.hostid := fun h => by
    rw [taken.mem, takes_release.filled_iff kept filled]
  refine ⟨nodup_cons.mpr ⟨fun again => ((mem _).mp again).2.2 rfl, taken.nodup⟩, mem, ?_⟩
  rw [length_cons, Nat.add_comm]

/-- **A part of a call disposes of the buffers** of the descriptor and of these subframes. -/
structure Disposes (s : RxHw n) (hostId : BitVec 32) (subs : List (BitVec 32)) (r : RxHw n × Nat) : Prop where
  kept : ∃ held, Kept r.1 held []
  fw : r.1.fw = s.fw
  failures : r.1.failures = s.failures
  found : ∃ found, Found s hostId subs r.2 found

theorem disposes_alone (released : Kept (s.amlIpcBufE2aRelease i) held [b.skb]) (fate : Fate) :
    Disposes s b.hostid [] ((s.amlIpcBufE2aRelease i).dispose fate [b.skb], 1) :=
  ⟨⟨held, released.disposeAll fate⟩, rfl, rfl, [], .alone s b.hostid⟩

theorem forwardBuf_disposes (kept : Kept s held []) (filled : s.rxbufs i = some b)
    (clear : ∀ e ∈ s.fw, e.hostid ∉ b.hostid :: (c.frame 0).subs)
    (inRange : c.takesSubs (c.frame 0) = true → ∀ h ∈ (c.frame 0).subs, InRange h) :
    Disposes s b.hostid (if c.takesSubs (c.frame 0) then (c.frame 0).subs else []) (s.forwardBuf c i b) := by
  have notFw : ∀ e ∈ s.fw, e.hostid ≠ b.hostid := fun e member same =>
    clear e member (same ▸ mem_cons_self)
  have clearSubs : ∀ e ∈ (s.amlIpcBufE2aRelease i).fw, e.hostid ∉ (c.frame 0).subs := fun e member named =>
    clear e member (mem_cons_of_mem _ named)
  have released := kept.release filled (kept.mem_held filled notFw)
  rw [List.nil_append] at released
  unfold RxHw.forwardBuf
  rw [kept.unmoved i b filled]
  generalize c.frame 0 = hdr at inRange clearSubs
  unfold RxCall.takesSubs at inRange ⊢
  dsimp only
  cases mgmt : hdr.flagsIs80211Mpdu with
  | true =>
    rw [if_pos rfl]
    exact disposes_alone released .cfg80211
  | false =>
    rw [mgmt] at inRange
    rw [if_neg Bool.false_ne_true]
    cases destined : c.destination hdr with
    | false =>
      rw [destined] at inRange
      rw [if_neg Bool.false_ne_true]
      obtain ⟨held', found, after, taken, length⟩ := amlRxAmsduFree_spec released (inRange rfl) clearSubs
      refine ⟨⟨held', after.disposeAll .freed⟩, taken.fw, taken.failures, found, ?_⟩
      rw [length]
      exact taken.found kept filled
    | true =>
      rw [destined] at inRange
      rw [if_pos rfl]
      unfold RxHw.amlRxDataSkb
      cases amsdu : hdr.flagsIsAmsdu with
      | false =>
        rw [if_neg Bool.false_ne_true]
        exact disposes_alone released _
      | true =>
        rw [if_pos rfl]
        by_cases large : normalAmsduMaxLen < hdr.hwvectLen.toNat
        · have subs : hdr.subs = nonzero hdr.amsduHostids := by rw [HwRxhdr.subs, amsdu, if_pos rfl]
          rw [amsdu, decide_eq_true large, subs] at inRange
          rw [subs] at clearSubs
          rw [if_pos large, decide_eq_true large, subs]
          obtain ⟨held', found, after, taken, length⟩ :=
            subframes_spec takes_release 0 released (inRange rfl) clearSubs
          rw [← List.map_eq_flatMap] at after
          refine ⟨⟨held', after.disposeAll _⟩, taken.fw, taken.failures, found, ?_⟩
          show Found s b.hostid _ (1 + List.length _) found
          rw [length]
          exact taken.found kept filled
        · rw [if_neg large, decide_eq_false large]
          exact disposes_alone released _

theorem deleteBuf_disposes (kept : Kept s held []) (filled : s.rxbufs i = some b)
    (clear : ∀ e ∈ s.fw, e.hostid ∉ b.hostid :: (c.frame 0).subs)
    (inRange : ∀ h ∈ (c.frame 0).subs, InRange h) (other : b.hostid ∉ (c.frame 0).subs) :
    Disposes s b.hostid (c.frame 0).subs ((s.amlRxAmsduFree (c.frame b.reserved)).1.amlIpcRxbufDealloc i,
        (s.amlRxAmsduFree (c.frame b.reserved)).2) := by
  have clearSubs : ∀ e ∈ s.fw, e.hostid ∉ (c.frame 0).subs := fun e member named =>
    clear e member (mem_cons_of_mem _ named)
  rw [kept.unmoved i b filled]
  obtain ⟨held', found, after, taken, length⟩ := amlRxAmsduFree_spec kept inRange clearSubs
  have still := taken.others i b filled other
  have notFw : ∀ e ∈ (s.amlRxAmsduFree (c.frame 0)).1.fw, e.hostid ≠ b.hostid := by
    rw [taken.fw]
    exact fun e member same => clear e member (same ▸ mem_cons_self)
  have freed := takes_dealloc.kept after still (after.mem_held still notFw)
  refine ⟨⟨_, freed⟩, (takes_dealloc.fw _ i).trans taken.fw, (takes_dealloc.failures _ i).trans taken.failures,
    found, nodup_cons.mpr ⟨fun again => ?_, taken.nodup⟩, fun h => ?_, ?_⟩
  · exact other ((taken.mem _).mp again).1
  · rw [taken.mem]
    refine ⟨fun ⟨named, inTable⟩ => ⟨named, inTable, ?_⟩, fun ⟨named, inTable, _⟩ => ⟨named, inTable⟩⟩
    rintro rfl
    exact other named
  · rw [length, length_cons, Nat.add_comm]

end W2l.Pci
