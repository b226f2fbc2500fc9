/-
**RX buffers on PCIe: the table of buffers.**

`aml_utils.c`. A buffer for the firmware is an skb in a slot of `rxbufs`; its host id is the number of
the slot plus one, and is kept in the skb.

* `RxHw` — the table, and the buffers that are the firmware's.
* `amlIpcRxbufAlloc`, `amlIpcRxbufRepush`, `amlIpcRxbufFromHostid`, `amlIpcRxbufDealloc` — the
  functions.
* `Kept` — the buffers in the table are the firmware's and those held for it, and **what the firmware
  used was disposed of once or is held**.
* `Kept.alloc`, `Kept.repush`, `Kept.release`, `Kept.dispose` — what keeps it.
-/

import Mathlib.Algebra.Order.Ring.Nat
import W2lDriver.Lib.Slots

namespace W2l.Pci

open Lib (contents contents_exchange mem_contents)
open List (append_assoc map_append perm_middle)
open Function (update update_of_ne)

/-! ### The table -/

/-- What the firmware is told of a buffer: the host id and, for the DMA address, the skb. -/
structure RxBuf where
  hostid : BitVec 32
  skb : Nat
  deriving DecidableEq

/-- An skb in `rxbufs`. -/
structure RxSkb extends RxBuf where
  /-- How often `msdu_offset` was reserved in front of the data. -/
  reserved : Nat := 0
  deriving DecidableEq

/-- How an skb leaves the driver. -/
inductive Fate
  | freed      -- `dev_kfree_skb`
  | cfg80211   -- `aml_rx_mgmt_any`, which frees it after cfg80211 saw it
  | stack      -- `netif_receive_skb`
  | split      -- `ieee80211_amsdu_to_8023s`, which always consumes it
  deriving DecidableEq

/-- The RX side of `struct aml_hw`, with `n` for `AML_RXBUFF_MAX`. -/
structure RxHw (n : Nat) where
  rxbufs : Fin n → Option RxSkb := fun _ => none
  rxbufIdx : Nat := 0
  /-- The buffers that are the firmware's. -/
  fw : List RxBuf := []
  /-- Allocations put off to the resume. -/
  repushRxbuffCnt : Nat := 0
  /-- The next skb the allocator hands out. -/
  newSkb : Nat := 0
  /-- The skbs the firmware used, those it never got, those that left the driver, and those given back
  as they were. -/
  used : List Nat := []
  idle : List Nat := []
  gone : List (Nat × Fate) := []
  repushed : List Nat := []
  /-- Skbs whose slot was written again. -/
  lost : List RxSkb := []
  /-- Host ids that were looked up in front of the table. -/
  outside : List (BitVec 32) := []
  failures : Nat := 0

variable {n : Nat}

namespace RxHw

/-- `ipc_host_rxbuf_push`. Its body is compiled in or not. -/
def ipcHostRxbufPush (pushBody : Bool) (s : RxHw n) (b : RxBuf) : RxHw n :=
  if pushBody then { s with fw := s.fw ++ [b] } else s

/-- The search of `aml_ipc_rxbuf_alloc` for a free slot, in so many rounds. -/
def freeSlot (s : RxHw n) : Nat → Nat → Option (Fin n)
  | 0, _ => none
  | rounds + 1, idx =>
    if inside : idx < n then
      if (s.rxbufs ⟨idx, inside⟩).isSome then s.freeSlot rounds ((idx + 1) % n) else some ⟨idx, inside⟩
    else none

/-- `aml_ipc_rxskb_alloc` stores a new skb in a slot. -/
def amlIpcRxskbAlloc (pushBody : Bool) (s : RxHw n) (i : Fin n) (b : RxSkb) : RxHw n :=
  { s with
    rxbufs := Function.update s.rxbufs i (some b)
    newSkb := s.newSkb + 1
    lost := s.lost ++ (s.rxbufs i).toList
    idle := if pushBody then s.idle else s.idle ++ [b.skb] }

/-- `aml_ipc_rxbuf_alloc`, with or without memory. -/
def amlIpcRxbufAlloc (pushBody : Bool) (s : RxHw n) (memory : Bool) : RxHw n :=
  match s.freeSlot n s.rxbufIdx with
  | none => { s with failures := s.failures + 1 }
  | some i =>
    let s := { s with rxbufIdx := (i + 1) % n }
    if memory then
      let b : RxSkb := { hostid := BitVec.ofNat 32 (i + 1), skb := s.newSkb }
      (s.amlIpcRxskbAlloc pushBody i b).ipcHostRxbufPush pushBody b.toRxBuf
    else { s with failures := s.failures + 1 }

def amlIpcRxbufRepush (pushBody : Bool) (s : RxHw n) (b : RxBuf) : RxHw n :=
  let s := if pushBody then { s with repushed := s.repushed ++ [b.skb] } else s
  s.ipcHostRxbufPush pushBody b

/-- `aml_ipc_buf_e2a_release`: the slot is free, the skb is in the hands of the caller. -/
def amlIpcBufE2aRelease (s : RxHw n) (i : Fin n) : RxHw n :=
  { s with rxbufs := Function.update s.rxbufs i none }

theorem release_rxbufs (s : RxHw n) (i : Fin n) : (s.amlIpcBufE2aRelease i).rxbufs = update s.rxbufs i none := rfl

def dispose (s : RxHw n) (fate : Fate) (skbs : List Nat) : RxHw n :=
  { s with gone := s.gone ++ skbs.map fun k => (k, fate) }

def amlIpcRxbufDealloc (s : RxHw n) (i : Fin n) : RxHw n :=
  match s.rxbufs i with
  | none => s
  | some b => (s.amlIpcBufE2aRelease i).dispose .freed [b.skb]

/-- `aml_ipc_rxbuf_from_hostid`. The index is an `int`, and is only compared with `AML_RXBUFF_MAX`. -/
def amlIpcRxbufFromHostid (s : RxHw n) (hostid : BitVec 32) : RxHw n × Option (Fin n × RxSkb) :=
  let rxbufIdx := hostid - 1
  if rxbufIdx.msb then ({ s with outside := s.outside ++ [hostid] }, none)
  else if inside : rxbufIdx.toNat < n then
    match s.rxbufs ⟨rxbufIdx.toNat, inside⟩ with
    | none => (s, none)
    | some b =>
      if b.hostid = hostid then (s, some (⟨rxbufIdx.toNat, inside⟩, b))
      else (s.amlIpcRxbufDealloc ⟨rxbufIdx.toNat, inside⟩, none)
  else (s, none)

/-- `aml_ipc_rxbufs_alloc`: so many buffers for the firmware. -/
def amlIpcRxbufsAlloc (pushBody : Bool) : Nat → RxHw n
  | 0 => {}
  | nb + 1 => (amlIpcRxbufsAlloc pushBody nb).amlIpcRxbufAlloc pushBody true

def bufs (s : RxHw n) : List RxBuf := (contents s.rxbufs).map RxSkb.toRxBuf

/-- The skbs that left the driver or were given back. -/
def disposed (s : RxHw n) : List Nat := s.gone.map Prod.fst ++ s.repushed

end RxHw

/-! ### The invariant -/

/-- **What holds of the table**, with these buffers of it held for the firmware and these skbs in the
hands of a function. -/
structure Kept (s : RxHw n) (held : List RxBuf) (hand : List Nat) : Prop where
  mapped : ∀ i b, s.rxbufs i = some b → b.hostid.toNat = i + 1
  unmoved : ∀ i b, s.rxbufs i = some b → b.reserved = 0
  parts : s.bufs.Perm (s.fw ++ held)
  balance : (s.used ++ s.idle).Perm (s.disposed ++ hand ++ held.map RxBuf.skb)
  nodup : (s.bufs.map RxBuf.skb ++ hand ++ s.gone.map Prod.fst).Nodup
  fresh : ∀ k ∈ s.bufs.map RxBuf.skb ++ hand ++ s.gone.map Prod.fst, k < s.newSkb
  lost : s.lost = []
  outside : s.outside = []

def InRange (hostid : BitVec 32) : Prop := 0 < hostid.toNat ∧ hostid.toNat ≤ 2 ^ 31

instance (hostid : BitVec 32) : Decidable (InRange hostid) :=
  inferInstanceAs (Decidable (_ ∧ _))

def Filled (s : RxHw n) (hostid : BitVec 32) : Prop := ∃ e ∈ s.bufs, e.hostid = hostid

instance (s : RxHw n) (hostid : BitVec 32) : Decidable (Filled s hostid) :=
  inferInstanceAs (Decidable (∃ e ∈ s.bufs, e.hostid = hostid))

variable {s : RxHw n} {held : List RxBuf} {hand : List Nat} {i : Fin n} {b : RxSkb} {pushBody : Bool}

theorem mem_bufs {e : RxBuf} : e ∈ s.bufs ↔ ∃ i b, s.rxbufs i = some b ∧ b.toRxBuf = e := by
  rw [RxHw.bufs, List.mem_map]
  refine ⟨fun ⟨b, member, same⟩ => ?_, fun ⟨i, b, filled, same⟩ => ?_⟩
  · obtain ⟨i, filled⟩ := mem_contents.mp member
    exact ⟨i, b, filled, same⟩
  · exact ⟨b, mem_contents.mpr ⟨i, filled⟩, same⟩

theorem filled_iff {hostid : BitVec 32} : Filled s hostid ↔ ∃ i b, s.rxbufs i = some b ∧ b.hostid = hostid := by
  refine ⟨fun ⟨e, member, same⟩ => ?_, fun ⟨i, b, filled, same⟩ => ?_⟩
  · obtain ⟨i, b, filled, rfl⟩ := mem_bufs.mp member
    exact ⟨i, b, filled, same⟩
  · exact ⟨b.toRxBuf, mem_bufs.mpr ⟨i, b, filled, rfl⟩, same⟩

theorem bufs_exchange (s : RxHw n) (i : Fin n) (x : Option RxSkb) : ∃ rest : List RxBuf,
    s.bufs.Perm (((s.rxbufs i).map RxSkb.toRxBuf).toList ++ rest) ∧
      ((contents (update s.rxbufs i x)).map RxSkb.toRxBuf).Perm ((x.map RxSkb.toRxBuf).toList ++ rest) := by
  obtain ⟨rest, before, after⟩ := contents_exchange s.rxbufs i x
  refine ⟨rest.map RxSkb.toRxBuf, ?_, ?_⟩
  · refine (before.map RxSkb.toRxBuf).trans (List.Perm.of_eq ?_)
    rw [map_append]
    cases s.rxbufs i <;> rfl
  · refine (after.map RxSkb.toRxBuf).trans (List.Perm.of_eq ?_)
    rw [map_append]
    cases x <;> rfl

namespace Kept

section

variable (kept : Kept s held hand)

include kept

theorem slot_unique {j : Fin n} {b' : RxSkb} (filled : s.rxbufs i = some b)
    (filled' : s.rxbufs j = some b') (same : b.hostid = b'.hostid) : i = j ∧ b = b' := by
  have at_ := kept.mapped i b filled
  have at' := kept.mapped j b' filled'
  rw [same] at at_
  obtain rfl : i = j := Fin.ext (by omega)
  exact ⟨rfl, Option.some.inj (filled.symm.trans filled')⟩

theorem bufs_nodup : (s.bufs.map RxBuf.hostid).Nodup := by
  have ids : s.bufs.map RxBuf.hostid = (List.finRange n).filterMap fun i => (s.rxbufs i).map fun b => b.hostid := by
    rw [RxHw.bufs, contents, List.map_map, List.map_filterMap]
    rfl
  rw [ids]
  refine (List.nodup_finRange n).filterMap fun i j hostid atI atJ => ?_
  obtain ⟨b, filled, rfl⟩ := Option.map_eq_some_iff.mp atI
  obtain ⟨b', filled', same⟩ := Option.map_eq_some_iff.mp atJ
  exact (kept.slot_unique filled filled' same.symm).1

theorem parts_nodup : ((s.fw ++ held).map RxBuf.hostid).Nodup :=
  (kept.parts.map RxBuf.hostid).nodup_iff.mp kept.bufs_nodup

theorem filled_of_fw {e : RxBuf} (member : e ∈ s.fw) : Filled s e.hostid :=
  ⟨e, kept.parts.mem_iff.mpr (List.mem_append_left held member), rfl⟩

theorem mem_held (filled : s.rxbufs i = some b)
    (notFw : ∀ e ∈ s.fw, e.hostid ≠ b.hostid) : b.toRxBuf ∈ held := by
  have member := kept.parts.mem_iff.mp (mem_bufs.mpr ⟨i, b, filled, rfl⟩)
  rcases List.mem_append.mp member with fw | held
  · exact absurd rfl (notFw _ fw)
  · exact held

theorem fromHostid {hostid : BitVec 32} (inRange : InRange hostid) :
    (∃ i b, s.rxbufs i = some b ∧ b.hostid = hostid ∧ s.amlIpcRxbufFromHostid hostid = (s, some (i, b))) ∨
    ¬ Filled s hostid ∧ s.amlIpcRxbufFromHostid hostid = (s, none) := by
  obtain ⟨positive, small⟩ := inRange
  have index : (hostid - 1).toNat = hostid.toNat - 1 :=
    BitVec.toNat_sub_of_le (BitVec.le_def.mpr positive)
  have sign : (hostid - 1).msb = false := by
    rw [BitVec.msb_eq_false_iff_two_mul_lt, index]
    omega
  have slotOf : ∀ {i b}, s.rxbufs i = some b → b.hostid = hostid → i.val = (hostid - 1).toNat :=
    fun {i b} filled same => by
      have at_ := kept.mapped i b filled
      rw [same] at at_
      omega
  simp only [RxHw.amlIpcRxbufFromHostid, sign, Bool.false_eq_true, if_false]
  by_cases inside : (hostid - 1).toNat < n
  · rw [dif_pos inside]
    cases filled : s.rxbufs ⟨(hostid - 1).toNat, inside⟩ with
    | none =>
      refine .inr ⟨?_, rfl⟩
      rintro named
      obtain ⟨i, b, filled', same⟩ := filled_iff.mp named
      obtain rfl : i = ⟨(hostid - 1).toNat, inside⟩ := Fin.ext (slotOf filled' same)
      rw [filled] at filled'
      cases filled'
    | some b =>
      have same : b.hostid = hostid := by
        have at_ := kept.mapped _ b filled
        exact BitVec.eq_of_toNat_eq (by rw [at_]; show (hostid - 1).toNat + 1 = _; omega)
      refine .inl ⟨_, b, filled, same, ?_⟩
      dsimp only
      rw [if_pos same]
  · rw [dif_neg inside]
    refine .inr ⟨?_, rfl⟩
    rintro named
    obtain ⟨i, b, filled, same⟩ := filled_iff.mp named
    have at_ := slotOf filled same
    omega

theorem release (filled : s.rxbufs i = some b) (member : b.toRxBuf ∈ held) :
    Kept (s.amlIpcBufE2aRelease i) (held.erase b.toRxBuf) (hand ++ [b.skb]) := by
  obtain ⟨rest, before, after⟩ := bufs_exchange s i none
  rw [filled] at before
  have before' : s.bufs.Perm (b.toRxBuf :: rest) := before
  have after' : (s.amlIpcBufE2aRelease i).bufs.Perm rest := after
  have heldSplit := List.perm_cons_erase member
  have slots : ∀ j b', (s.amlIpcBufE2aRelease i).rxbufs j = some b' → s.rxbufs j = some b' := by
    intro j b' filled'
    by_cases same : j = i
    · subst same
      exact absurd filled' (by simp [RxHw.amlIpcBufE2aRelease])
    · rw [RxHw.release_rxbufs, update_of_ne same] at filled'
      exact filled'
  have skbs : (s.bufs.map RxBuf.skb ++ hand ++ s.gone.map Prod.fst).Perm
      ((s.amlIpcBufE2aRelease i).bufs.map RxBuf.skb ++ (hand ++ [b.skb]) ++ s.gone.map Prod.fst) := by
    refine List.Perm.append_right _ ?_
    calc (s.bufs.map RxBuf.skb ++ hand).Perm (b.skb :: (rest.map RxBuf.skb ++ hand)) :=
          (before'.map RxBuf.skb).append_right hand
      List.Perm _ ((rest.map RxBuf.skb ++ hand) ++ [b.skb]) := (List.perm_append_singleton _ _).symm
      List.Perm _ (rest.map RxBuf.skb ++ (hand ++ [b.skb])) := by rw [append_assoc]
      List.Perm _ _ := ((after'.map RxBuf.skb).symm).append_right _
  refine ⟨fun j b' filled' => kept.mapped j b' (slots j b' filled'),
    fun j b' filled' => kept.unmoved j b' (slots j b' filled'), ?_, ?_, ?_, ?_, kept.lost, kept.outside⟩
  · have whole : (b.toRxBuf :: rest).Perm (b.toRxBuf :: (s.fw ++ held.erase b.toRxBuf)) :=
      before'.symm.trans (kept.parts.trans ((heldSplit.append_left s.fw).trans perm_middle))
    exact after'.trans whole.cons_inv
  · refine kept.balance.trans ?_
    have heldSkbs : (held.map RxBuf.skb).Perm (b.skb :: (held.erase b.toRxBuf).map RxBuf.skb) :=
      heldSplit.map RxBuf.skb
    calc (s.disposed ++ hand ++ held.map RxBuf.skb).Perm
          (s.disposed ++ hand ++ b.skb :: (held.erase b.toRxBuf).map RxBuf.skb) :=
          heldSkbs.append_left _
      _ = s.disposed ++ (hand ++ [b.skb]) ++ (held.erase b.toRxBuf).map RxBuf.skb := by
          rw [List.append_cons, append_assoc s.disposed]
  · exact skbs.nodup_iff.mp kept.nodup
  · exact fun k member => kept.fresh k (skbs.mem_iff.mpr member)

end

theorem dispose {skbs : List Nat} (kept : Kept s held (hand ++ skbs)) (fate : Fate) :
    Kept (s.dispose fate skbs) held hand := by
  have gone : (s.dispose fate skbs).gone.map Prod.fst = s.gone.map Prod.fst ++ skbs := by
    rw [RxHw.dispose, map_append, List.map_map]
    exact congrArg _ (List.map_id skbs)
  have all : (s.bufs.map RxBuf.skb ++ (hand ++ skbs) ++ s.gone.map Prod.fst).Perm
      (s.bufs.map RxBuf.skb ++ hand ++ (s.dispose fate skbs).gone.map Prod.fst) := by
    rw [gone, ← append_assoc, append_assoc _ skbs]
    exact List.perm_append_comm.append_left _
  refine ⟨kept.mapped, kept.unmoved, kept.parts, ?_, all.nodup_iff.mp kept.nodup,
    fun k member => kept.fresh k (all.mem_iff.mpr member), kept.lost, kept.outside⟩
  refine kept.balance.trans (List.Perm.append_right _ ?_)
  show (s.gone.map Prod.fst ++ s.repushed ++ (hand ++ skbs)).Perm
    ((s.dispose fate skbs).gone.map Prod.fst ++ s.repushed ++ hand)
  rw [gone]
  calc (s.gone.map Prod.fst ++ s.repushed ++ (hand ++ skbs)).Perm
        (s.gone.map Prod.fst ++ s.repushed ++ (skbs ++ hand)) := List.perm_append_comm.append_left _
    _ = s.gone.map Prod.fst ++ (s.repushed ++ skbs) ++ hand := by simp
    List.Perm _ (s.gone.map Prod.fst ++ (skbs ++ s.repushed) ++ hand) :=
        (List.perm_append_comm.append_left _).append_right hand
    _ = s.gone.map Prod.fst ++ skbs ++ s.repushed ++ hand := by simp

theorem disposeAll (kept : Kept s held hand) (fate : Fate) : Kept (s.dispose fate hand) held [] := by
  refine Kept.dispose ?_ fate
  rwa [List.nil_append]

theorem freeSlot_free {rounds idx : Nat} (found : s.freeSlot rounds idx = some i) : s.rxbufs i = none := by
  induction rounds generalizing idx with
  | zero => cases found
  | succ rounds ih =>
    rw [RxHw.freeSlot] at found
    split at found
    · split at found
      · exact ih found
      · case isFalse inside free =>
        obtain rfl := Option.some.inj found
        exact Option.not_isSome_iff_eq_none.mp free
    · cases found

section

variable (kept : Kept s held hand)

include kept

theorem stored (small : n ≤ 2 ^ 31) (free : s.rxbufs i = none)
    (hostid : b.hostid = BitVec.ofNat 32 (i + 1)) (skb : b.skb = s.newSkb) (whole : b.reserved = 0) :
    Kept ((s.amlIpcRxskbAlloc pushBody i b).ipcHostRxbufPush pushBody b.toRxBuf)
      (if pushBody then held else held ++ [b.toRxBuf]) hand := by
  obtain ⟨rest, before, after⟩ := bufs_exchange s i (some b)
  rw [free] at before
  have grown : ((contents (update s.rxbufs i (some b))).map RxSkb.toRxBuf).Perm
      (b.toRxBuf :: s.bufs) := after.trans (before.symm.cons b.toRxBuf)
  have slots : ∀ j b', update s.rxbufs i (some b) j = some b' → b' = b ∧ j = i ∨ s.rxbufs j = some b' := by
    intro j b' filled
    by_cases same : j = i
    · subst same
      rw [Function.update_self] at filled
      exact .inl ⟨(Option.some.inj filled).symm, rfl⟩
    · rw [update_of_ne same] at filled
      exact .inr filled
  have mapped : ∀ j b', update s.rxbufs i (some b) j = some b' → b'.hostid.toNat = j + 1 := by
    intro j b' filled
    rcases slots j b' filled with ⟨rfl, rfl⟩ | old
    · have inside := j.isLt
      rw [hostid]
      exact Nat.mod_eq_of_lt (by omega)
    · exact kept.mapped j b' old
  have unmoved : ∀ j b', update s.rxbufs i (some b) j = some b' → b'.reserved = 0 := by
    intro j b' filled
    rcases slots j b' filled with ⟨rfl, rfl⟩ | old
    · exact whole
    · exact kept.unmoved j b' old
  have skbs : (((contents (update s.rxbufs i (some b))).map RxSkb.toRxBuf).map RxBuf.skb ++ hand ++
      s.gone.map Prod.fst).Perm (s.newSkb :: (s.bufs.map RxBuf.skb ++ hand ++ s.gone.map Prod.fst)) := by
    rw [← skb]
    exact (((grown.map RxBuf.skb).append_right hand).append_right (s.gone.map Prod.fst))
  have nodup := skbs.nodup_iff.mpr (List.nodup_cons.mpr ⟨fun old => Nat.lt_irrefl _ (kept.fresh _ old), kept.nodup⟩)
  have fresh : ∀ k ∈ ((contents (update s.rxbufs i (some b))).map RxSkb.toRxBuf).map RxBuf.skb ++
      hand ++ s.gone.map Prod.fst, k < s.newSkb + 1 := by
    intro k member
    rcases List.mem_cons.mp (skbs.mem_iff.mp member) with rfl | old
    · exact Nat.lt_succ_self _
    · exact Nat.lt_succ_of_lt (kept.fresh k old)
  have lost : s.lost ++ (s.rxbufs i).toList = [] := by rw [free, kept.lost]; rfl
  cases pushBody with
  | true =>
    refine ⟨mapped, unmoved, ?_, kept.balance, nodup, fresh, lost, kept.outside⟩
    refine grown.trans ((kept.parts.cons b.toRxBuf).trans ?_)
    show (b.toRxBuf :: (s.fw ++ held)).Perm ((s.fw ++ [b.toRxBuf]) ++ held)
    rw [append_assoc]
    exact perm_middle.symm
  | false =>
    refine ⟨mapped, unmoved, ?_, ?_, nodup, fresh, lost, kept.outside⟩
    · refine grown.trans ((kept.parts.cons b.toRxBuf).trans ?_)
      show (b.toRxBuf :: (s.fw ++ held)).Perm (s.fw ++ (held ++ [b.toRxBuf]))
      rw [← append_assoc]
      exact (List.perm_append_singleton _ _).symm
    · show (s.used ++ (s.idle ++ [b.skb])).Perm
        (s.disposed ++ hand ++ (held ++ [b.toRxBuf]).map RxBuf.skb)
      rw [← append_assoc, map_append, ← append_assoc]
      exact kept.balance.append_right [b.skb]

theorem alloc (small : n ≤ 2 ^ 31) (pushBody memory : Bool) :
    ∃ held', Kept (s.amlIpcRxbufAlloc pushBody memory) held' hand ∧
      s.failures ≤ (s.amlIpcRxbufAlloc pushBody memory).failures ∧
      ((s.amlIpcRxbufAlloc pushBody memory).failures = s.failures →
        (s.amlIpcRxbufAlloc pushBody memory).fw.length = s.fw.length + pushBody.toNat) := by
  unfold RxHw.amlIpcRxbufAlloc
  cases found : s.freeSlot n s.rxbufIdx with
  | none =>
    refine ⟨held, ⟨kept.mapped, kept.unmoved, kept.parts, kept.balance, kept.nodup, kept.fresh, kept.lost,
      kept.outside⟩, Nat.le_succ _, fun same => ?_⟩
    exact absurd same (Nat.succ_ne_self _)
  | some i =>
    have kept' : Kept { s with rxbufIdx := (i + 1) % n } held hand :=
      ⟨kept.mapped, kept.unmoved, kept.parts, kept.balance, kept.nodup, kept.fresh, kept.lost, kept.outside⟩
    cases memory with
    | true =>
      refine ⟨_, kept'.stored small (show s.rxbufs i = none from freeSlot_free found) rfl rfl rfl, ?_, fun _ => ?_⟩
      · cases pushBody <;> exact Nat.le_refl _
      · cases pushBody
        · rfl
        · exact List.length_append
    | false =>
      refine ⟨held, ⟨kept.mapped, kept.unmoved, kept.parts, kept.balance, kept.nodup, kept.fresh, kept.lost,
        kept.outside⟩, Nat.le_succ _, fun same => ?_⟩
      exact absurd same (Nat.succ_ne_self _)

theorem repush (pushBody : Bool) {e : RxBuf} (member : e ∈ held) :
    Kept (s.amlIpcRxbufRepush pushBody e) (if pushBody then held.erase e else held) hand := by
  cases pushBody with
  | false => exact kept
  | true =>
    have split := List.perm_cons_erase member
    refine ⟨kept.mapped, kept.unmoved, ?_, ?_, kept.nodup, kept.fresh, kept.lost, kept.outside⟩
    · refine kept.parts.trans ?_
      show (s.fw ++ held).Perm ((s.fw ++ [e]) ++ held.erase e)
      rw [append_assoc]
      exact split.append_left s.fw
    · refine kept.balance.trans ?_
      show (s.gone.map Prod.fst ++ s.repushed ++ hand ++ held.map RxBuf.skb).Perm
        (s.gone.map Prod.fst ++ (s.repushed ++ [e.skb]) ++ hand ++ (held.erase e).map RxBuf.skb)
      calc (s.gone.map Prod.fst ++ s.repushed ++ hand ++ held.map RxBuf.skb).Perm
            (s.gone.map Prod.fst ++ s.repushed ++ hand ++ e.skb :: (held.erase e).map RxBuf.skb) :=
            (split.map RxBuf.skb).append_left _
        List.Perm _ (e.skb :: (s.gone.map Prod.fst ++ s.repushed ++ hand ++
            (held.erase e).map RxBuf.skb)) := perm_middle
        _ = e.skb :: (s.gone.map Prod.fst ++ s.repushed ++ (hand ++ (held.erase e).map RxBuf.skb)) := by
            rw [append_assoc (_ ++ _) hand]
        List.Perm _ (s.gone.map Prod.fst ++ s.repushed ++
            e.skb :: (hand ++ (held.erase e).map RxBuf.skb)) := perm_middle.symm
        _ = s.gone.map Prod.fst ++ (s.repushed ++ [e.skb]) ++ hand ++ (held.erase e).map RxBuf.skb := by
            simp

end

end Kept

end W2l.Pci
