/-
**RX buffers on PCIe: the firmware gets back as many as it used.**

Runs of descriptors. The firmware uses those of its buffers that a descriptor names, `aml_pci_rxdataind`
handles the descriptor.

* `Route` — the branch a descriptor takes.
* `Accounted` — **the buffers a descriptor stands for are those its branch replaces**.
-/

import W2lDriver.Pci.Rxdataind

namespace W2l.Pci

open Lib (System)
open Rx (has rxStatForward rxStatAlloc rxStatDelete rxStatLenUpdate rxStatSpurious rxStatMonitor)
open List (append_assoc mem_cons mem_cons_self mem_filter not_mem_nil)

variable {n : Nat}

/-! ### What the firmware uses -/

/-- The host ids a descriptor names, with those in its header. -/
def RxCall.names (c : RxCall) : List (BitVec 32) := c.hostId :: (c.frame 0).subs

namespace RxHw

def named (s : RxHw n) (c : RxCall) : List RxBuf := s.fw.filter fun e => e.hostid ∈ c.names

def use (s : RxHw n) (c : RxCall) : RxHw n :=
  { s with
    fw := s.fw.filter fun e => !decide (e.hostid ∈ c.names)
    used := s.used ++ (s.named c).map RxBuf.skb }

end RxHw

def Owned (s : RxHw n) (hostid : BitVec 32) : Prop := ∃ e ∈ s.fw, e.hostid = hostid

instance (s : RxHw n) (hostid : BitVec 32) : Decidable (Owned s hostid) :=
  inferInstanceAs (Decidable (∃ e ∈ s.fw, e.hostid = hostid))

section Uses

variable (s : RxHw n) (c : RxCall)

/-- A descriptor stands for no buffer of the firmware. -/
def UsesNone : Prop := ∀ h ∈ c.names, ¬ Owned s h

def UsesMain : Prop := Owned s c.hostId ∧ ∀ h ∈ (c.frame 0).subs, h ≠ c.hostId → ¬ Owned s h

/-- It stands for its own and for those of the other subframes that are found. -/
def UsesFound : Prop := Owned s c.hostId ∧ ∀ h ∈ (c.frame 0).subs, Filled s h → Owned s h

/-- It stands for as many buffers as it has host ids. -/
def UsesEach : Prop := (∀ h ∈ c.names, Owned s h) ∧ c.names.Nodup

instance : Decidable (UsesNone s c) := inferInstanceAs (Decidable (∀ h ∈ c.names, ¬ Owned s h))
instance : Decidable (UsesMain s c) := inferInstanceAs (Decidable (_ ∧ ∀ h ∈ _, _))
instance : Decidable (UsesFound s c) := inferInstanceAs (Decidable (_ ∧ ∀ h ∈ _, _))
instance : Decidable (UsesEach s c) := inferInstanceAs (Decidable ((∀ h ∈ _, _) ∧ _))

end Uses

/-! ### The branches -/

inductive Route
  | ignored    -- recovery, or nothing is uploaded
  | delete
  | monitor
  | invalid    -- a frame for the monitor interface that is for others as well
  | keep       -- `RX_STAT_LEN_UPDATE`
  | spurious
  | forward
  | bare       -- a new buffer at most
  deriving DecidableEq

/-- The branch of `aml_pci_rxdataind` for a descriptor whose buffer is found. -/
def RxCall.route (c : RxCall) : Route :=
  if c.recovering || c.status = 0 then .ignored
  else if c.on rxStatDelete then .delete
  else if c.on rxStatMonitor && c.monitorVif then
    if c.status.setWidth 32 = rxStatMonitor then .monitor else .invalid
  else if c.on rxStatLenUpdate then .keep
  else if c.on rxStatSpurious then .spurious
  else if c.on rxStatForward then .forward
  else .bare

/-- Buffers are allocated for those the descriptor stands for, and the firmware gets them. -/
def replaces (pushBody : Bool) (c : RxCall) : Bool :=
  c.on rxStatAlloc && (pushBody && !c.pcieSuspend)

/-- What a branch relies on. -/
def Replaceable (pushBody : Bool) (s : RxHw n) (c : RxCall) : Route → Prop
  | .ignored => UsesNone s c
  | .delete => c.hostId ∉ (c.frame 0).subs ∧ (∀ h ∈ (c.frame 0).subs, InRange h) ∧
      if replaces pushBody c then UsesFound s c else UsesNone s c
  | .monitor => if pushBody && !c.pcieSuspend then UsesMain s c else UsesNone s c
  | .invalid => False
  | .keep => UsesNone s c
  | .spurious => if pushBody then UsesMain s c else UsesNone s c
  | .forward => (c.takesSubs (c.frame 0) = true → ∀ h ∈ (c.frame 0).subs, InRange h) ∧
      if replaces pushBody c then
        if c.takesSubs (c.frame 0) then UsesFound s c else UsesMain s c
      else UsesNone s c
  | .bare => if replaces pushBody c then UsesEach s c else UsesNone s c

/-- **The buffers a descriptor stands for are those its branch replaces.** -/
def Accounted (pushBody : Bool) (s : RxHw n) (c : RxCall) : Prop :=
  if c.route = .ignored then UsesNone s c
  else InRange c.hostId ∧ if Filled s c.hostId then Replaceable pushBody s c c.route
    else UsesNone s c ∧ replaces pushBody c = false

/-! ### A call -/

variable {s s' : RxHw n} {held : List RxBuf} {c : RxCall} {pushBody : Bool} {i : Fin n} {b : RxSkb}

theorem use_clear (s : RxHw n) (c : RxCall) : ∀ e ∈ (s.use c).fw, e.hostid ∉ c.names := fun e member => by
  have apart := (mem_filter.mp member).2
  simpa using apart

theorem use_fw (s : RxHw n) (c : RxCall) : s.fw.Perm ((s.use c).fw ++ s.named c) := by
  refine (List.filter_append_perm (fun e : RxBuf => decide (e.hostid ∈ c.names)) s.fw).symm.trans ?_
  exact List.perm_append_comm

section

variable (kept : Kept s held [])

include kept

theorem Kept.use (c : RxCall) : Kept (s.use c) (held ++ s.named c) [] := by
  refine ⟨kept.mapped, kept.unmoved, ?_, ?_, kept.nodup, kept.fresh, kept.lost, kept.outside⟩
  · calc s.bufs.Perm (s.fw ++ held) := kept.parts
      List.Perm _ (((s.use c).fw ++ s.named c) ++ held) := (use_fw s c).append_right held
      List.Perm _ ((s.use c).fw ++ (held ++ s.named c)) := by
        rw [append_assoc]
        exact List.perm_append_comm.append_left _
  · calc (s.used ++ (s.named c).map RxBuf.skb ++ s.idle).Perm
          (s.used ++ s.idle ++ (s.named c).map RxBuf.skb) := by
          rw [append_assoc, append_assoc]
          exact List.perm_append_comm.append_left _
      List.Perm _ (s.disposed ++ [] ++ held.map RxBuf.skb ++ (s.named c).map RxBuf.skb) :=
          kept.balance.append_right _
      _ = s.disposed ++ [] ++ (held ++ s.named c).map RxBuf.skb := by
          rw [List.map_append, append_assoc]

theorem named_length {hostids : List (BitVec 32)} (nodup : hostids.Nodup)
    (mem : ∀ h, h ∈ hostids ↔ h ∈ c.names ∧ Owned s h) : (s.named c).length = hostids.length := by
  have fwNodup : (s.fw.map RxBuf.hostid).Nodup :=
    List.Nodup.of_append_left (by rw [← List.map_append]; exact kept.parts_nodup)
  have used : ((s.named c).map RxBuf.hostid).Nodup := (List.filter_sublist.map RxBuf.hostid).nodup fwNodup
  have same : ((s.named c).map RxBuf.hostid).Perm hostids := by
    refine (List.perm_ext_iff_of_nodup used nodup).mpr fun h => ?_
    rw [mem, List.mem_map]
    refine ⟨fun ⟨e, member, id⟩ => ?_, fun ⟨named, e, owned, id⟩ => ⟨e, ?_, id⟩⟩
    · obtain ⟨owned, named⟩ := mem_filter.mp member
      exact ⟨id ▸ of_decide_eq_true named, e, owned, id⟩
    · exact mem_filter.mpr ⟨owned, decide_eq_true (id ▸ named)⟩
  exact (List.length_map RxBuf.hostid).symm.trans same.length_eq

theorem UsesNone.length (uses : UsesNone s c) : (s.named c).length = 0 :=
  named_length kept (List.nodup_nil : ([] : List (BitVec 32)).Nodup) fun h =>
    ⟨fun member => absurd member not_mem_nil, fun ⟨named, owned⟩ => absurd owned (uses h named)⟩

theorem UsesMain.length (uses : UsesMain s c) : (s.named c).length = 1 := by
  obtain ⟨main, others⟩ := uses
  refine named_length kept (List.nodup_singleton c.hostId) fun h => ?_
  rw [List.mem_singleton]
  refine ⟨fun same => ⟨same ▸ mem_cons_self, same ▸ main⟩, fun ⟨named, owned⟩ => ?_⟩
  rcases mem_cons.mp named with same | sub
  · exact same
  · by_contra other
    exact others h sub other owned

theorem UsesEach.length (uses : UsesEach s c) : (s.named c).length = 1 + (c.frame 0).subs.length := by
  rw [Nat.add_comm]
  exact named_length kept uses.2 fun h => ⟨fun named => ⟨named, uses.1 h named⟩, And.left⟩

theorem UsesFound.length (uses : UsesFound s c) {nbBuff : Nat}
    {found : List (BitVec 32)} (all : Found s c.hostId (c.frame 0).subs nbBuff found) :
    (s.named c).length = nbBuff := by
  obtain ⟨main, subs⟩ := uses
  rw [all.count]
  refine named_length kept all.nodup fun h => ?_
  rw [mem_cons, all.mem]
  constructor
  · rintro (same | ⟨sub, filled, -⟩)
    · exact ⟨same ▸ mem_cons_self, same ▸ main⟩
    · exact ⟨List.mem_cons_of_mem _ sub, subs h sub filled⟩
  · rintro ⟨named, e, owned, same⟩
    by_cases here : h = c.hostId
    · exact .inl here
    · exact .inr ⟨(mem_cons.mp named).resolve_left here, same ▸ kept.filled_of_fw owned, here⟩

end

theorem Found.of_use {hostId : BitVec 32} {subs found : List (BitVec 32)} {nbBuff : Nat}
    (all : Found (s.use c) hostId subs nbBuff found) : Found s hostId subs nbBuff found :=
  ⟨all.nodup, all.mem, all.count⟩

/-- `check_alloc` with the status of the descriptor. -/
theorem checkAlloc_replaces (small : n ≤ 2 ^ 31) (kept : Kept s held []) (pushBody : Bool) (c : RxCall)
    (nbBuff : Nat) :
    Returns s (if replaces pushBody c then nbBuff else 0)
      (s.checkAlloc pushBody c (c.status.setWidth 32) nbBuff) := by
  have count : (if has (c.status.setWidth 32) rxStatAlloc then gives pushBody c nbBuff else 0) =
      if replaces pushBody c then nbBuff else 0 := by
    unfold replaces gives RxCall.on
    cases has (c.status.setWidth 32) rxStatAlloc <;> rfl
  exact count ▸ checkAlloc_returns small kept pushBody c (c.status.setWidth 32) nbBuff

theorem Disposes.checkAlloc (small : n ≤ 2 ^ 31) {hostId : BitVec 32} {subs : List (BitVec 32)}
    {r : RxHw n × Nat} (gone : Disposes s hostId subs r) (pushBody : Bool) (c : RxCall) :
    Returns s (if replaces pushBody c then r.2 else 0) (r.1.checkAlloc pushBody c (c.status.setWidth 32) r.2) := by
  obtain ⟨held, kept⟩ := gone.kept
  exact (checkAlloc_replaces small kept pushBody c r.2).of_same gone.fw gone.failures

/-- The buffer of a descriptor, which the firmware has used. -/
structure At (s : RxHw n) (c : RxCall) (i : Fin n) (b : RxSkb) : Prop where
  filled : s.rxbufs i = some b
  hostid : b.hostid = c.hostId

theorem At.clear (at_ : At s c i b) : ∀ e ∈ (s.use c).fw, e.hostid ∉ b.hostid :: (c.frame 0).subs := by
  rw [at_.hostid]
  exact use_clear s c

theorem checkLenUpdate_returns (small : n ≤ 2 ^ 31) (kept : Kept s held []) (at_ : At s c i b)
    {route : Route} (isRoute : route = if c.on rxStatLenUpdate then .keep else if c.on rxStatSpurious then
      .spurious else if c.on rxStatForward then .forward else .bare)
    (right : Replaceable pushBody s c route) :
    Returns (s.use c) (s.named c).length ((s.use c).checkLenUpdate pushBody c i b false) := by
  have used := kept.use c
  have filled : (s.use c).rxbufs i = some b := at_.filled
  unfold RxHw.checkLenUpdate
  by_cases keep : c.on rxStatLenUpdate = true
  · rw [if_pos keep] at isRoute ⊢
    subst isRoute
    rw [UsesNone.length kept right]
    exact .refl used
  rw [if_neg keep] at isRoute ⊢
  by_cases spurious : c.on rxStatSpurious = true
  · rw [if_pos spurious] at isRoute ⊢
    subst isRoute
    have member := used.mem_held filled fun e inFw same => at_.clear e inFw (same ▸ mem_cons_self)
    have pushed := used.repush pushBody member
    cases pushBody with
    | false =>
      rw [UsesNone.length kept right]
      exact .refl used
    | true =>
      rw [UsesMain.length kept right]
      exact ⟨⟨_, pushed⟩, Nat.le_refl _, fun _ => List.length_append⟩
  rw [if_neg spurious] at isRoute ⊢
  by_cases forward : c.on rxStatForward = true
  · rw [if_pos forward] at isRoute ⊢
    subst isRoute
    obtain ⟨inRange, uses⟩ := right
    have gone := forwardBuf_disposes used filled at_.clear inRange
    have returns := gone.checkAlloc small pushBody c
    obtain ⟨found, all⟩ := gone.found
    rw [at_.hostid] at all
    refine cast (congrArg (fun count => Returns (s.use c) count _) ?_) returns
    by_cases replaced : replaces pushBody c = true
    · rw [if_pos replaced] at uses ⊢
      by_cases subs : c.takesSubs (c.frame 0) = true
      · rw [if_pos subs] at uses all
        exact (uses.length kept all.of_use).symm
      · rw [if_neg subs] at uses all
        have none : found = [] := List.eq_nil_iff_forall_not_mem.mpr fun h member =>
          not_mem_nil ((all.mem h).mp member).1
        rw [uses.length kept, all.count, none]
        rfl
    · rw [if_neg replaced] at uses ⊢
      exact (UsesNone.length kept uses).symm
  · rw [if_neg forward] at isRoute ⊢
    subst isRoute
    have returns := checkAlloc_replaces small used pushBody c (1 + (c.frame b.reserved).subs.length)
    rw [kept.unmoved i b at_.filled] at returns ⊢
    refine cast (congrArg (fun count => Returns (s.use c) count _) ?_) returns
    have right : if replaces pushBody c then UsesEach s c else UsesNone s c := right
    by_cases replaced : replaces pushBody c = true
    · rw [if_pos replaced] at right ⊢
      exact (UsesEach.length kept right).symm
    · rw [if_neg replaced] at right ⊢
      exact (UsesNone.length kept right).symm

theorem monitor_returns (small : n ≤ 2 ^ 31) (kept : Kept s held []) (at_ : At s c i b) (fate : Fate)
    (alone : c.status.setWidth 32 = rxStatMonitor)
    (right : if pushBody && !c.pcieSuspend then UsesMain s c else UsesNone s c) :
    Returns (s.use c) (s.named c).length
      ((((s.use c).amlIpcBufE2aRelease i).dispose fate [b.skb]).checkAlloc pushBody c
        (c.status.setWidth 32 ||| rxStatAlloc) 1) := by
  have used := kept.use c
  have filled : (s.use c).rxbufs i = some b := at_.filled
  have member := used.mem_held filled fun e inFw same => at_.clear e inFw (same ▸ mem_cons_self)
  have released := (used.release filled member).disposeAll fate
  have alloc : has (c.status.setWidth 32 ||| rxStatAlloc) rxStatAlloc = true := by
    rw [alone]
    decide
  have returns := (checkAlloc_returns small released pushBody c
    (c.status.setWidth 32 ||| rxStatAlloc) 1).of_same (s := s.use c) rfl rfl
  rw [if_pos alloc] at returns
  refine cast (congrArg (fun count => Returns (s.use c) count _) ?_) returns
  unfold gives
  by_cases given : (pushBody && !c.pcieSuspend) = true
  · rw [if_pos given] at right ⊢
    exact (right.length kept).symm
  · rw [if_neg given] at right ⊢
    exact (right.length kept).symm

theorem handle_returns (small : n ≤ 2 ^ 31) (kept : Kept s held []) (at_ : At s c i b)
    (on : ¬ (c.recovering || c.status = 0) = true) (right : Replaceable pushBody s c c.route) :
    Returns (s.use c) (s.named c).length ((s.use c).handle pushBody c i b) := by
  have used := kept.use c
  have filled : (s.use c).rxbufs i = some b := at_.filled
  unfold RxCall.route at right
  rw [if_neg on] at right
  unfold RxHw.handle
  by_cases delete : c.on rxStatDelete = true
  · rw [if_pos delete] at right ⊢
    obtain ⟨other, inRange, uses⟩ := right
    have gone := deleteBuf_disposes used filled at_.clear inRange (at_.hostid ▸ other)
    have returns := gone.checkAlloc small pushBody c
    obtain ⟨found, all⟩ := gone.found
    rw [at_.hostid] at all
    refine cast (congrArg (fun count => Returns (s.use c) count _) ?_) returns
    by_cases replaced : replaces pushBody c = true
    · rw [if_pos replaced] at uses ⊢
      exact (uses.length kept all.of_use).symm
    · rw [if_neg replaced] at uses ⊢
      exact (UsesNone.length kept uses).symm
  rw [if_neg delete] at right ⊢
  by_cases monitor : (c.on rxStatMonitor && c.monitorVif) = true
  · rw [if_pos monitor] at right ⊢
    by_cases alone : c.status.setWidth 32 = rxStatMonitor
    · rw [if_pos alone] at right ⊢
      exact monitor_returns small kept at_ _ alone right
    · rw [if_neg alone] at right
      exact right.elim
  · rw [if_neg monitor] at right ⊢
    exact checkLenUpdate_returns small kept at_ rfl right

theorem route_ne_ignored (on : ¬ (c.recovering || c.status = 0) = true) : c.route ≠ .ignored := by
  unfold RxCall.route
  rw [if_neg on]
  split_ifs <;> decide

theorem call_returns (small : n ≤ 2 ^ 31) (kept : Kept s held []) (accounted : Accounted pushBody s c) :
    Returns (s.use c) (s.named c).length ((s.use c).amlPciRxdataind pushBody c) := by
  have used := kept.use c
  unfold RxHw.amlPciRxdataind
  unfold Accounted at accounted
  by_cases off : (c.recovering || c.status = 0) = true
  · have ignored : c.route = .ignored := by rw [RxCall.route, if_pos off]
    rw [if_pos ignored] at accounted
    rw [if_pos off, UsesNone.length kept accounted]
    exact .refl used
  rw [if_neg (route_ne_ignored off)] at accounted
  rw [if_neg off]
  obtain ⟨inRange, right⟩ := accounted
  rcases used.fromHostid inRange with ⟨i, b, filled, hostid, found⟩ | ⟨absent, nothing⟩
  · rw [if_pos (show Filled s c.hostId from filled_iff.mpr ⟨i, b, filled, hostid⟩)] at right
    simp only [found]
    exact handle_returns small kept ⟨filled, hostid⟩ off right
  · have absent' : ¬ Filled s c.hostId := absent
    rw [if_neg absent'] at right
    obtain ⟨uses, nothingNew⟩ := right
    simp only [nothing]
    have returns := checkAlloc_replaces small used pushBody c 1
    rw [nothingNew, if_neg Bool.false_ne_true] at returns
    rw [UsesNone.length kept uses]
    exact returns

/-! ### A run -/

/-- The firmware uses buffers and uploads a descriptor, `aml_pci_rxdataind` handles it. -/
def rxSystem (pushBody : Bool) (start : RxHw n) : System (RxHw n) RxCall where
  init := start
  step s c := some ((s.use c).amlPciRxdataind pushBody c)

/-- A table of buffers, those of the firmware among them. -/
structure Started (start : RxHw n) : Prop where
  kept : ∃ held, Kept start held []
  failures : start.failures = 0

/-- **The accounts of the buffers.** -/
structure BuffersRight (start s : RxHw n) : Prop where
  /-- The firmware has as many buffers as in the beginning. -/
  owned : s.fw.length = start.fw.length
  /-- No slot is written while it is in use. -/
  notOverwritten : s.lost = []
  /-- A host id stands for the slot that holds it. -/
  mapped : ∀ i b, s.rxbufs i = some b → b.hostid.toNat = i + 1 ∧ s.amlIpcRxbufFromHostid b.hostid = (s, some (i, b))
  inside : s.outside = []
  /-- Each skb the firmware used, or never got, left the driver once, was given back once or is held. -/
  once : ∃ held, s.bufs.Perm (s.fw ++ held) ∧
    (s.used ++ s.idle).Perm (s.gone.map Prod.fst ++ s.repushed ++ held.map RxBuf.skb)
  /-- An skb leaves the driver once. -/
  final : (s.bufs.map RxBuf.skb ++ s.gone.map Prod.fst).Nodup

/-- The invariant of a run. -/
structure AccountInv (start s : RxHw n) : Prop where
  kept : ∃ held, Kept s held []
  owned : s.failures = 0 → s.fw.length = start.fw.length

theorem AccountInv.step {start : RxHw n} (small : n ≤ 2 ^ 31) (inv : AccountInv start s)
    (accounted : Accounted pushBody s c) (stepped : (rxSystem pushBody start).step s c = some s') :
    AccountInv start s' := by
  obtain rfl := Option.some.inj stepped
  obtain ⟨held, kept⟩ := inv.kept
  obtain ⟨after, failures, fw⟩ := call_returns small kept accounted
  have same : (s.use c).failures = s.failures := rfl
  refine ⟨after, fun none => ?_⟩
  have whole := (use_fw s c).length_eq
  rw [List.length_append] at whole
  rw [fw (by omega), ← whole]
  exact inv.owned (by omega)

/-- **The firmware gets back as many buffers as it used**, and each of them is disposed of once, in any
run of descriptors that stand for the buffers their branches replace. -/
theorem rxbufs_accounted {n : Nat} (small : n ≤ 2 ^ 31) (pushBody : Bool) {start s : RxHw n}
    (started : Started start) (reach : (rxSystem pushBody start).Reachable (Accounted pushBody) s)
    (noFailure : s.failures = 0) : BuffersRight start s := by
  have inv : AccountInv start s := reach.invariant (I := AccountInv start) ⟨started.kept, fun _ => rfl⟩
    fun _ _ _ _ inv accounted stepped => inv.step small accounted stepped
  obtain ⟨held, kept⟩ := inv.kept
  refine ⟨inv.owned noFailure, kept.lost, fun i b filled => ⟨kept.mapped i b filled, ?_⟩, kept.outside,
    ⟨held, kept.parts, ?_⟩, ?_⟩
  · have at_ := kept.mapped i b filled
    have inside := i.isLt
    rcases kept.fromHostid (show InRange b.hostid from ⟨by omega, by omega⟩) with
      ⟨j, b', filled', same, found⟩ | ⟨absent, -⟩
    · obtain ⟨rfl, rfl⟩ := kept.slot_unique filled' filled same
      exact found
    · exact absurd (filled_iff.mpr ⟨i, b, filled, rfl⟩) absent
  · have balance := kept.balance
    rwa [List.append_nil] at balance
  · have nodup := kept.nodup
    rwa [List.append_nil] at nodup

/-! ### Samples -/

theorem Kept.start : Kept ({} : RxHw n) [] [] := by
  have empty : ({} : RxHw n).bufs = [] := List.eq_nil_iff_forall_not_mem.mpr fun e member => by
    obtain ⟨i, b, filled, -⟩ := mem_bufs.mp member
    cases filled
  refine ⟨fun i b filled => ?_, fun i b filled => ?_, ?_, List.Perm.refl _, ?_, ?_, rfl, rfl⟩
  · cases filled
  · cases filled
  · rw [empty]
    exact List.Perm.refl _
  · rw [empty]
    exact List.nodup_nil
  · rw [empty]
    exact fun k member => absurd member not_mem_nil

theorem amlIpcRxbufsAlloc_started (small : n ≤ 2 ^ 31) (nb : Nat)
    (room : (RxHw.amlIpcRxbufsAlloc pushBody nb : RxHw n).failures = 0) :
    Started (RxHw.amlIpcRxbufsAlloc pushBody nb : RxHw n) := by
  refine ⟨?_, room⟩
  clear room
  induction nb with
  | zero => exact ⟨[], .start⟩
  | succ nb ih =>
    obtain ⟨held, kept⟩ := ih
    obtain ⟨held', kept', -⟩ := kept.alloc small pushBody true
    exact ⟨held', kept'⟩

def sampleTable : RxHw 4 := RxHw.amlIpcRxbufsAlloc true 2

theorem sampleTable_started : Started sampleTable := amlIpcRxbufsAlloc_started (by decide) 2 (by decide)

/-- An A-MSDU in two buffers that no interface receives. -/
def sampleAmsdu : RxCall where
  hostId := 1
  status := 3
  frame := fun _ =>
    { flagsIsAmsdu := true
      amsduHostids := [2, 0] }

theorem rxbufs_accounted_sample : ∃ s : RxHw 4, s.gone.map Prod.fst = [1, 0] ∧ BuffersRight sampleTable s := by
  have accounted : Accounted true sampleTable sampleAmsdu := by
    have route : sampleAmsdu.route = .forward := by decide
    unfold Accounted
    rw [route, if_neg (by decide), if_pos (show Filled sampleTable sampleAmsdu.hostId by decide)]
    have subs : (sampleAmsdu.frame 0).subs = [2] := by decide
    refine ⟨by decide, fun _ h member => ?_, show UsesFound sampleTable sampleAmsdu from ⟨by decide, ?_⟩⟩
    · rw [subs, List.mem_singleton] at member
      subst member
      decide
    · intro h member filled
      rw [subs, List.mem_singleton] at member
      subst member
      decide
  have reach := System.Reachable.step (S := rxSystem true sampleTable) .init accounted rfl
  exact ⟨_, by decide, rxbufs_accounted (by decide) true sampleTable_started reach (by decide)⟩

def AlwaysRight (pushBody : Bool) : Prop := ∀ (n : Nat) (start s : RxHw n), n ≤ 2 ^ 31 → Started start →
  (rxSystem pushBody start).Reachable (fun _ _ => True) s → s.failures = 0 → BuffersRight start s

def sampleMonitor : RxCall where
  hostId := 1
  status := 128

/-- **The firmware gets no buffer back** for a frame of the monitor interface that is not there, and for no
frame at all while the body of `ipc_host_rxbuf_push` is not compiled in. -/
theorem rxbufs_unaccounted : ¬ AlwaysRight true ∧ ¬ AlwaysRight false := by
  constructor
  · intro right
    have reach : (rxSystem true sampleTable).Reachable (fun _ _ => True)
        ((sampleTable.use sampleMonitor).amlPciRxdataind true sampleMonitor) :=
      .step .init trivial rfl
    have owned := (right 4 sampleTable _ (by decide) sampleTable_started reach (by decide)).owned
    exact absurd owned (by decide)
  · intro right
    have reach : (rxSystem false sampleTable).Reachable (fun _ _ => True)
        ((sampleTable.use sampleAmsdu).amlPciRxdataind false sampleAmsdu) :=
      .step .init trivial rfl
    have owned := (right 4 sampleTable _ (by decide) sampleTable_started reach (by decide)).owned
    exact absurd owned (by decide)

end W2l.Pci
