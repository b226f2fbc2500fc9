/-
**The host-id pool: pointers handed to the firmware as 32-bit ids and taken back.**

`ipc_host.c`. Every entry of the id table is on `tx_hostid_available` or on `tx_hostid_pushed`.
`ipc_host_tx_host_ptr_to_id` pushes the first available entry, a confirmation of the firmware looks
one up, `ipc_host_tx_flush` takes the first pushed one back.

* `HostEnv` — the two lists, the table, and the history of pointers saved and returned.
* `PoolSafe` — the invariant: the lists partition the table, pushed ids are distinct and non-zero,
  what was saved is what was returned and what is still out.
-/

import Mathlib.Data.List.Range
import W2lDriver.Cmd.Types
import W2lDriver.Lib.System
import W2lDriver.Lib.Exchange

namespace W2l.Ipc

open Cmd (BusType)
open Lib (System)
open Function (update update_of_ne update_self)

/-! ### The pool -/

/-- A host pointer; `0` is `NULL`. -/
abbrev Ptr := Nat

/-- `IPC_TXCFM_CNT`, the entries of `tx_hostid`. -/
def ipcTxcfmCnt : Nat := 64 + 64 + 64 + 64 + 8

/-- `IPC_HOSTID_CNT`, the entries of `tx_hostid_sdio_usb`. -/
def ipcHostidCnt : Nat := 128 + 128 + 128 + 128 + 8

def tableSize : BusType → Nat
  | .pcie => ipcTxcfmCnt
  | _ => ipcHostidCnt

/-- What the callers see: an id handed out for a pointer, and a pointer returned. -/
inductive PoolEvent
  | saved (hostid : BitVec 32) (hostptr : Ptr)
  | returned (hostid : BitVec 32) (hostptr : Ptr)
  deriving DecidableEq

/-- The part of `ipc_host_env_tag` (and `hostid_prefix` of `aml_hw`) the pool uses. The lists hold
indices of the table. -/
structure HostEnv where
  busType : BusType
  txHostidAvailable : List Nat
  txHostidPushed : List Nat := []
  hostid : Nat → BitVec 32
  hostptr : Nat → Ptr := fun _ => 0
  hostidPrefix : BitVec 16 := 0
  log : List PoolEvent := []

namespace HostEnv

/-- `hostid_prefix << 16`. -/
def shiftedPrefix (hostidPrefix : BitVec 16) : BitVec 32 := hostidPrefix.setWidth 32 <<< 16

/-- The list part of `ipc_host_init`. -/
def ipcHostInit (busType : BusType) : HostEnv where
  busType := busType
  txHostidAvailable := List.range (tableSize busType)
  hostid i := match busType with
    | .pcie => BitVec.ofNat 32 (i + 1)
    | _ => BitVec.ofNat 32 (i + 1) ||| shiftedPrefix (BitVec.ofNat 16 (i + 1))
  hostidPrefix := match busType with
    | .pcie => 0
    | _ => BitVec.ofNat 16 ipcHostidCnt

def ipcHostTxHostPtrToId (env : HostEnv) (hostPtr : Ptr) : HostEnv × BitVec 32 :=
  match env.txHostidAvailable with
  | [] => (env, 0)
  | i :: rest =>
    ({ env with
        txHostidAvailable := rest
        txHostidPushed := env.txHostidPushed ++ [i]
        hostptr := Function.update env.hostptr i hostPtr
        log := .saved (env.hostid i) hostPtr :: env.log },
      env.hostid i)

/-- `list_del` and `list_add_tail` to `tx_hostid_available`, and the saved pointer. -/
def giveBack (env : HostEnv) (i : Nat) : HostEnv × Ptr :=
  ({ env with
      txHostidPushed := env.txHostidPushed.erase i
      txHostidAvailable := env.txHostidAvailable.erase i ++ [i]
      log := .returned (env.hostid i) (env.hostptr i) :: env.log },
    env.hostptr i)

def ipcHostTxHostIdToPtr (env : HostEnv) (hostid : BitVec 32) : HostEnv × Ptr :=
  if hostid = 0 ∨ ipcTxcfmCnt < hostid.toNat then (env, 0)
  else if env.busType = .pcie then env.giveBack (hostid.toNat - 1)
  -- `tx_hostid` stays zero on the other buses: no linked entry compares equal to one of its entries
  else (env, 0)

def nextPrefix (env : HostEnv) : BitVec 16 := env.hostidPrefix % 65535 + 1

def ipcHostTxHostIdToPtrForSdioUsb (env : HostEnv) (hostid : BitVec 32) : HostEnv × Ptr :=
  if hostid = 0 ∨ ipcHostidCnt < (hostid &&& 0xffff).toNat then (env, 0)
  else
    match env.txHostidPushed.find? (env.hostid · = hostid) with
    | none => (env, 0)
    | some i =>
      ({ (env.giveBack i).1 with
          hostidPrefix := env.nextPrefix
          hostid := Function.update env.hostid i
            ((env.hostid i &&& 0xffff) ||| shiftedPrefix env.nextPrefix) },
        env.hostptr i)

def ipcHostTxFlush (env : HostEnv) : HostEnv × Ptr :=
  match env.txHostidPushed with
  | [] => (env, 0)
  | i :: _ => env.giveBack i

def lookup (env : HostEnv) (hostid : BitVec 32) : HostEnv × Ptr :=
  match env.busType with
  | .pcie => env.ipcHostTxHostIdToPtr hostid
  | _ => env.ipcHostTxHostIdToPtrForSdioUsb hostid

def pushedIds (env : HostEnv) : List (BitVec 32) := env.txHostidPushed.map env.hostid

end HostEnv

open HostEnv

/-! ### Runs -/

/-- One call into the pool; the firmware chooses the id of a lookup. -/
inductive PoolCall
  | ptrToId (hostPtr : Ptr)
  | idToPtr (hostid : BitVec 32)
  | flush

def HostEnv.step (env : HostEnv) : PoolCall → Option HostEnv
  | .ptrToId hostPtr => some (env.ipcHostTxHostPtrToId hostPtr).1
  | .idToPtr hostid => some (env.lookup hostid).1
  | .flush => some env.ipcHostTxFlush.1

/-- The pool after `ipc_host_init`, and its calls. -/
def poolSystem (busType : BusType) : System HostEnv PoolCall where
  init := ipcHostInit busType
  step := HostEnv.step

/-- An id `ipc_host_tx_host_id_to_ptr` refuses, or one that is at the firmware. -/
def KnownId (env : HostEnv) (hostid : BitVec 32) : Prop :=
  hostid = 0 ∨ ipcTxcfmCnt < hostid.toNat ∨ hostid ∈ env.pushedIds

/-- On PCIe the firmware reports only ids that it holds, or that are refused. -/
def KnownOnPcie (env : HostEnv) : PoolCall → Prop
  | .idToPtr hostid => env.busType = .pcie → KnownId env hostid
  | _ => True

def saves (log : List PoolEvent) : List (BitVec 32 × Ptr) :=
  log.filterMap fun | .saved hostid hostptr => some (hostid, hostptr) | _ => none

def returns (log : List PoolEvent) : List (BitVec 32 × Ptr) :=
  log.filterMap fun | .returned hostid hostptr => some (hostid, hostptr) | _ => none

section

variable (id : BitVec 32)

include id

@[simp] theorem saves_returned (p : Ptr) (log : List PoolEvent) : saves (.returned id p :: log) = saves log := rfl

@[simp] theorem returns_returned (p : Ptr) (log : List PoolEvent) :
    returns (.returned id p :: log) = (id, p) :: returns log := rfl

end

def HostEnv.entry (env : HostEnv) (i : Nat) : BitVec 32 × Ptr := (env.hostid i, env.hostptr i)

/-- **What the pool promises its callers.** -/
structure PoolSafe (env : HostEnv) : Prop where
  /-- The two lists partition the table. -/
  partition : (env.txHostidAvailable ++ env.txHostidPushed).Perm (List.range (tableSize env.busType))
  distinct : env.pushedIds.Nodup
  nonzero : 0 ∉ env.pushedIds
  /-- Every pointer saved under an id was returned once, or is still at the firmware. -/
  balance : (saves env.log).Perm (returns env.log ++ env.txHostidPushed.map env.entry)

/-! ### Ids and their entries -/

/-- The low half of an id is its index plus one; on PCIe the id is nothing else. -/
structure IdsInv (env : HostEnv) : Prop where
  low : ∀ i, i < tableSize env.busType → env.hostid i &&& 0xffff = BitVec.ofNat 32 (i + 1)
  direct : env.busType = .pcie → ∀ i, env.hostid i = BitVec.ofNat 32 (i + 1)

theorem lowMask_getElem {k : Nat} (bound : k < 32) : (65535#32)[k] = decide (k < 16) := by
  rw [← BitVec.getLsbD_eq_getElem bound, BitVec.getLsbD_ofNat, show 65535 = 2 ^ 16 - 1 from rfl,
    Nat.testBit_two_pow_sub_one]
  simp [bound]

theorem low_or_shiftedPrefix (x : BitVec 32) (p : BitVec 16) :
    ((x &&& 0xffff) ||| shiftedPrefix p) &&& 0xffff = x &&& 0xffff := by
  ext k bound
  by_cases low : k < 16 <;> simp [shiftedPrefix, lowMask_getElem bound, low]

theorem low_ofNat {n : Nat} (small : n < 2 ^ 16) : BitVec.ofNat 32 n &&& 0xffff = BitVec.ofNat 32 n := by
  apply BitVec.eq_of_toNat_eq
  rw [BitVec.toNat_and, show (0xffff : BitVec 32).toNat = 2 ^ 16 - 1 from rfl, Nat.and_two_pow_sub_one_eq_mod]
  simp only [BitVec.toNat_ofNat]
  omega

variable (busType : BusType)

theorem tableSize_lt : tableSize busType < 2 ^ 16 - 1 := by
  cases busType <;> decide

theorem idsInv_init : IdsInv (ipcHostInit busType) where
  low i inside := by
    have size := tableSize_lt busType
    change i < tableSize busType at inside
    have small : BitVec.ofNat 32 (i + 1) &&& 0xffff = BitVec.ofNat 32 (i + 1) :=
      low_ofNat (by omega)
    have prefixed := low_or_shiftedPrefix (BitVec.ofNat 32 (i + 1)) (BitVec.ofNat 16 (i + 1))
    rw [small] at prefixed
    cases busType with
    | pcie => exact small
    | sdio => exact prefixed
    | usb => exact prefixed
  direct pcie i := by
    obtain rfl : busType = .pcie := pcie
    rfl

theorem IdsInv.injective {env : HostEnv} (ids : IdsInv env) {i j : Nat}
    (left : i < tableSize env.busType) (right : j < tableSize env.busType)
    (same : env.hostid i = env.hostid j) : i = j := by
  have low := (ids.low i left).symm.trans (same ▸ ids.low j right)
  have size := tableSize_lt env.busType
  have values := congrArg BitVec.toNat low
  simp only [BitVec.toNat_ofNat] at values
  omega

theorem IdsInv.ne_zero {env : HostEnv} (ids : IdsInv env) {i : Nat}
    (inside : i < tableSize env.busType) : env.hostid i ≠ 0 := by
  intro zero
  have low := ids.low i inside
  have size := tableSize_lt env.busType
  have values := congrArg BitVec.toNat ((zero ▸ low).symm.trans BitVec.zero_and)
  simp only [BitVec.toNat_ofNat] at values
  omega

/-! ### What each call keeps -/

/-- What holds between two calls. -/
structure PoolInv (env : HostEnv) : Prop where
  partition : (env.txHostidAvailable ++ env.txHostidPushed).Perm (List.range (tableSize env.busType))
  ids : IdsInv env
  balance : (saves env.log).Perm (returns env.log ++ env.txHostidPushed.map env.entry)

namespace PoolInv

variable {env : HostEnv}

section

variable (inv : PoolInv env)

include inv

theorem nodup : (env.txHostidAvailable ++ env.txHostidPushed).Nodup :=
  inv.partition.nodup_iff.mpr List.nodup_range

theorem pushed_lt {i : Nat} (pushed : i ∈ env.txHostidPushed) : i < tableSize env.busType :=
  List.mem_range.mp (inv.partition.subset (List.mem_append_right _ pushed))

theorem pushed_notAvailable {i : Nat} (pushed : i ∈ env.txHostidPushed) :
    i ∉ env.txHostidAvailable := fun available =>
  (List.nodup_append.mp inv.nodup).2.2 i available i pushed rfl

theorem safe : PoolSafe env where
  partition := inv.partition
  distinct := (List.nodup_append.mp inv.nodup).2.1.map_on fun _ left _ right same =>
    inv.ids.injective (inv.pushed_lt left) (inv.pushed_lt right) same
  nonzero := by
    intro zero
    obtain ⟨i, pushed, same⟩ := List.mem_map.mp zero
    exact inv.ids.ne_zero (inv.pushed_lt pushed) same
  balance := inv.balance

theorem ptrToId (hostPtr : Ptr) : PoolInv (env.ipcHostTxHostPtrToId hostPtr).1 := by
  unfold ipcHostTxHostPtrToId
  split
  case h_1 => exact inv
  case h_2 i rest available =>
    have fresh : i ∉ env.txHostidPushed := by
      intro pushed
      refine inv.pushed_notAvailable pushed ?_
      simp [available]
    constructor
    case partition =>
      have moved := W2l.Lib.perm_takeFirst i rest env.txHostidPushed
      exact moved.trans (available ▸ inv.partition)
    case ids => exact ⟨inv.ids.low, inv.ids.direct⟩
    case balance =>
      have entries : (env.txHostidPushed ++ [i]).map (fun j => (env.hostid j, update env.hostptr i hostPtr j)) =
          env.txHostidPushed.map env.entry ++ [(env.hostid i, hostPtr)] := by
        rw [List.map_append, List.map_singleton, update_self]
        congr 1
        refine List.map_congr_left fun j pushed => ?_
        rw [update_of_ne]
        · rfl
        · rintro rfl
          exact fresh pushed
      have moved := (inv.balance.cons (env.hostid i, hostPtr)).trans (W2l.Lib.perm_takeFirst _ _ _).symm
      exact entries ▸ moved

theorem takenBack {env' : HostEnv} {i : Nat} (pushed : i ∈ env.txHostidPushed)
    (busType : env'.busType = env.busType)
    (available' : env'.txHostidAvailable = env.txHostidAvailable ++ [i])
    (pushed' : env'.txHostidPushed = env.txHostidPushed.erase i)
    (entry' : ∀ j, j ≠ i → env'.entry j = env.entry j) (ids : IdsInv env')
    (log' : env'.log = .returned (env.hostid i) (env.hostptr i) :: env.log) : PoolInv env' := by
  constructor
  case partition =>
    rw [available', pushed', busType]
    exact (W2l.Lib.perm_giveBack _ pushed).trans inv.partition
  case ids => exact ids
  case balance =>
    have gone : i ∉ env.txHostidPushed.erase i := (List.nodup_append.mp inv.nodup).2.1.not_mem_erase
    have others : (env.txHostidPushed.erase i).map env'.entry = (env.txHostidPushed.erase i).map env.entry := by
      refine List.map_congr_left fun j member => entry' j ?_
      rintro rfl
      exact gone member
    rw [log', pushed', others, saves_returned, returns_returned, List.cons_append]
    calc (saves env.log).Perm (returns env.log ++ env.txHostidPushed.map env.entry) := inv.balance
      List.Perm _ (returns env.log ++ env.entry i :: (env.txHostidPushed.erase i).map env.entry) :=
        (W2l.Lib.perm_map_erase env.entry pushed).append_left _
      List.Perm _ _ := List.perm_middle

theorem giveBack {i : Nat} (pushed : i ∈ env.txHostidPushed) : PoolInv (env.giveBack i).1 := by
  refine inv.takenBack pushed rfl ?_ rfl (fun _ _ => rfl) ⟨inv.ids.low, inv.ids.direct⟩ rfl
  show env.txHostidAvailable.erase i ++ [i] = _
  rw [List.erase_of_not_mem (inv.pushed_notAvailable pushed)]

theorem flush : PoolInv env.ipcHostTxFlush.1 := by
  unfold ipcHostTxFlush
  split
  case h_1 => exact inv
  case h_2 i rest pushed => exact inv.giveBack (by simp [pushed])

theorem idToPtrForSdioUsb (bus : env.busType ≠ .pcie) (hostid : BitVec 32) :
    PoolInv (env.ipcHostTxHostIdToPtrForSdioUsb hostid).1 := by
  unfold ipcHostTxHostIdToPtrForSdioUsb
  split
  case isTrue => exact inv
  case isFalse =>
    split
    case h_1 => exact inv
    case h_2 i found =>
      have pushed : i ∈ env.txHostidPushed := List.mem_of_find?_eq_some found
      refine inv.takenBack pushed rfl ?_ rfl ?_ ?_ rfl
      · show env.txHostidAvailable.erase i ++ [i] = _
        rw [List.erase_of_not_mem (inv.pushed_notAvailable pushed)]
      · intro j other
        simp [entry, HostEnv.giveBack, other]
      · constructor
        · intro j inside
          by_cases same : j = i
          · subst same
            refine Eq.trans ?_ (inv.ids.low j inside)
            simp only [update_self]
            exact low_or_shiftedPrefix _ _
          · simp only [update_of_ne same]
            exact inv.ids.low j inside
        · intro pcie
          exact absurd pcie bus

theorem pushed_of_pcie (pcie : env.busType = .pcie) {hostid : BitVec 32}
    (known : hostid ∈ env.pushedIds) : hostid.toNat - 1 ∈ env.txHostidPushed := by
  obtain ⟨i, pushed, rfl⟩ := List.mem_map.mp known
  have inside := inv.pushed_lt pushed
  have size := tableSize_lt env.busType
  have index : (env.hostid i).toNat - 1 = i := by
    rw [inv.ids.direct pcie, BitVec.toNat_ofNat]
    omega
  rwa [index]

theorem idToPtr (pcie : env.busType = .pcie) {hostid : BitVec 32}
    (known : KnownId env hostid) : PoolInv (env.ipcHostTxHostIdToPtr hostid).1 := by
  unfold ipcHostTxHostIdToPtr
  by_cases refused : hostid = 0 ∨ ipcTxcfmCnt < hostid.toNat
  · rw [if_pos refused]
    exact inv
  · rw [if_neg refused, if_pos pcie]
    have pushed : hostid ∈ env.pushedIds := by
      rcases known with zero | big | pushed
      · exact absurd (.inl zero) refused
      · exact absurd (.inr big) refused
      · exact pushed
    exact inv.giveBack (inv.pushed_of_pcie pcie pushed)

theorem step {env' : HostEnv} {call : PoolCall} (known : KnownOnPcie env call)
    (stepped : env.step call = some env') : PoolInv env' := by
  cases call with
  | ptrToId hostPtr =>
    obtain rfl := Option.some.inj stepped
    exact inv.ptrToId hostPtr
  | idToPtr hostid =>
    obtain rfl := Option.some.inj stepped
    unfold lookup
    split
    case h_1 pcie => exact inv.idToPtr pcie (known pcie)
    case h_2 bus => exact inv.idToPtrForSdioUsb bus hostid
  | flush =>
    obtain rfl := Option.some.inj stepped
    exact inv.flush

end

end PoolInv

theorem poolInv_init : PoolInv (ipcHostInit busType) where
  partition := by
    show (List.range (tableSize busType) ++ []).Perm _
    rw [List.append_nil]
    exact .refl _
  ids := idsInv_init busType
  balance := .refl _

theorem PoolInv.of_reachable {busType : BusType} {env : HostEnv}
    (reach : (poolSystem busType).Reachable KnownOnPcie env) : PoolInv env :=
  reach.invariant (poolInv_init busType) fun _ _ _ _ inv known stepped => inv.step known stepped

/-! ### The pointers at the firmware -/

def HostEnv.atFirmware (env : HostEnv) : List Ptr := env.txHostidPushed.map env.hostptr

namespace PoolInv

variable {env : HostEnv}

theorem ptrToId_available (inv : PoolInv env) (hostPtr : Ptr)
    (available : env.txHostidAvailable ≠ []) :
    (∃ i, (env.ipcHostTxHostPtrToId hostPtr).1.txHostidPushed = env.txHostidPushed ++ [i] ∧
      (env.ipcHostTxHostPtrToId hostPtr).1.entry i = ((env.ipcHostTxHostPtrToId hostPtr).2, hostPtr)) ∧
      (env.ipcHostTxHostPtrToId hostPtr).2 ≠ 0 ∧
      (env.ipcHostTxHostPtrToId hostPtr).1.atFirmware = env.atFirmware ++ [hostPtr] := by
  unfold ipcHostTxHostPtrToId
  split
  case h_1 empty => exact absurd empty available
  case h_2 i rest first =>
    have member : i ∈ env.txHostidAvailable := by simp [first]
    have fresh : i ∉ env.txHostidPushed := fun pushed => inv.pushed_notAvailable pushed member
    refine ⟨⟨i, rfl, ?_⟩, inv.ids.ne_zero ?_, ?_⟩
    · simp [entry]
    · exact List.mem_range.mp (inv.partition.subset (List.mem_append_left _ member))
    · show (env.txHostidPushed ++ [i]).map (update env.hostptr i hostPtr) = _
      rw [List.map_append, W2l.Lib.map_update_of_notMem fresh, List.map_singleton, update_self]
      rfl

theorem ptrToId_busType (env : HostEnv) (hostPtr : Ptr) :
    (env.ipcHostTxHostPtrToId hostPtr).1.busType = env.busType := by
  unfold ipcHostTxHostPtrToId
  split <;> rfl

theorem flush_busType (env : HostEnv) : env.ipcHostTxFlush.1.busType = env.busType := by
  unfold ipcHostTxFlush
  split <;> rfl

theorem lookup_busType (env : HostEnv) (hostid : BitVec 32) : (env.lookup hostid).1.busType = env.busType := by
  unfold HostEnv.lookup
  split
  case h_1 =>
    unfold ipcHostTxHostIdToPtr
    split <;> rfl
  case h_2 =>
    unfold ipcHostTxHostIdToPtrForSdioUsb
    split
    · rfl
    · split <;> rfl

theorem atFirmware_giveBack {i : Nat} (pushed : i ∈ env.txHostidPushed) :
    env.atFirmware.Perm ((env.giveBack i).2 :: (env.giveBack i).1.atFirmware) :=
  W2l.Lib.perm_map_erase env.hostptr pushed

theorem atFirmware_flush (env : HostEnv) : env.ipcHostTxFlush = (env, 0) ∨
    env.atFirmware.Perm (env.ipcHostTxFlush.2 :: env.ipcHostTxFlush.1.atFirmware) := by
  unfold ipcHostTxFlush
  split
  case h_1 => exact .inl rfl
  case h_2 i rest pushed => exact .inr (atFirmware_giveBack (by simp [pushed]))

theorem atFirmware_lookup (inv : PoolInv env) {hostid : BitVec 32}
    (known : env.busType = .pcie → KnownId env hostid) : env.lookup hostid = (env, 0) ∨
    env.atFirmware.Perm ((env.lookup hostid).2 :: (env.lookup hostid).1.atFirmware) := by
  unfold lookup
  split
  case h_1 pcie =>
    unfold ipcHostTxHostIdToPtr
    by_cases refused : hostid = 0 ∨ ipcTxcfmCnt < hostid.toNat
    · exact .inl (if_pos refused)
    · rw [if_neg refused, if_pos pcie]
      rcases known pcie with zero | big | pushed
      · exact absurd (.inl zero) refused
      · exact absurd (.inr big) refused
      · exact .inr (atFirmware_giveBack (inv.pushed_of_pcie pcie pushed))
  case h_2 =>
    unfold ipcHostTxHostIdToPtrForSdioUsb
    split
    case isTrue => exact .inl rfl
    case isFalse =>
      split
      case h_1 => exact .inl rfl
      case h_2 i found =>
        exact .inr (atFirmware_giveBack (List.mem_of_find?_eq_some found))

theorem lookup (inv : PoolInv env) {hostid : BitVec 32}
    (known : env.busType = .pcie → KnownId env hostid) : PoolInv (env.lookup hostid).1 :=
  @step env inv _ (.idToPtr hostid) known rfl

end PoolInv

/-! ### Ids that are not at the firmware -/

theorem idToPtrForSdioUsb_unknown {env : HostEnv} {hostid : BitVec 32}
    (unknown : hostid ∉ env.pushedIds) :
    env.ipcHostTxHostIdToPtrForSdioUsb hostid = (env, 0) := by
  have nothing : env.txHostidPushed.find? (env.hostid · = hostid) = none := by
    rw [List.find?_eq_none]
    intro i pushed same
    exact unknown (List.mem_map.mpr ⟨i, pushed, of_decide_eq_true same⟩)
  unfold ipcHostTxHostIdToPtrForSdioUsb
  simp only [nothing, ite_self]

theorem lookup_unknown {env : HostEnv} {hostid : BitVec 32}
    (known : KnownOnPcie env (.idToPtr hostid)) (unknown : hostid ∉ env.pushedIds) :
    env.lookup hostid = (env, 0) := by
  unfold lookup
  split
  case h_1 pcie =>
    have refused : hostid = 0 ∨ ipcTxcfmCnt < hostid.toNat := by
      rcases known pcie with zero | big | pushed
      · exact .inl zero
      · exact .inr big
      · exact absurd pushed unknown
    unfold ipcHostTxHostIdToPtr
    rw [if_pos refused]
  case h_2 => exact idToPtrForSdioUsb_unknown unknown

/-- A state of the pool in which the promise holds and a lookup of an id that is not pushed finds
nothing. -/
def PoolSound (allowed : HostEnv → PoolCall → Prop) (env : HostEnv) : Prop :=
  PoolSafe env ∧ ∀ hostid, allowed env (.idToPtr hostid) → hostid ∉ env.pushedIds → env.lookup hostid = (env, 0)

/-- **Host-id pool safety.** Whatever the firmware reports on SDIO and USB, and as long as it reports
on PCIe no id inside the table that is not pushed, the pool keeps its promise. -/
theorem hostIdPool_safe {busType : BusType} {env : HostEnv}
    (reach : (poolSystem busType).Reachable KnownOnPcie env) : PoolSound KnownOnPcie env :=
  ⟨(PoolInv.of_reachable reach).safe, fun _ known unknown => lookup_unknown known unknown⟩

instance (env : HostEnv) (hostid : BitVec 32) : Decidable (KnownId env hostid) :=
  inferInstanceAs (Decidable (_ ∨ _ ∨ _))

instance (env : HostEnv) : (call : PoolCall) → Decidable (KnownOnPcie env call)
  | .idToPtr hostid => inferInstanceAs (Decidable (env.busType = .pcie → KnownId env hostid))
  | .ptrToId _ => .isTrue trivial
  | .flush => .isTrue trivial

/-- A frame pushed, confirmed and pushed again on PCIe. -/
theorem hostIdPool_safe_recycled : ∃ env, (poolSystem .pcie).Reachable KnownOnPcie env ∧ env.txHostidPushed ≠ [] ∧
      PoolSound KnownOnPcie env := by
  have reach := System.reachable_of_run (poolSystem .pcie) KnownOnPcie
    [.ptrToId 7, .ptrToId 8, .idToPtr 2, .idToPtr 0, .ptrToId 9] (by decide +kernel)
  exact ⟨_, reach, by decide +kernel, hostIdPool_safe reach⟩

/-- **A confirmation that comes twice** on PCIe returns the pointer of its frame twice: the id is not
pushed, and what was returned is more than what was saved. -/
theorem hostIdPool_staleId : ∃ env, (poolSystem .pcie).Reachable (fun _ _ => True) env ∧ ¬ PoolSafe env ∧
      ∃ hostid, hostid ∉ env.pushedIds ∧ (env.lookup hostid).2 = 7 := by
  have reach := System.reachable_of_run (poolSystem .pcie) (fun _ _ => True)
    [.ptrToId 7, .idToPtr 1, .idToPtr 1] (by decide +kernel)
  refine ⟨_, reach, ?_, 1, by decide +kernel, by decide +kernel⟩
  intro safe
  have lengths := safe.balance.length_eq
  revert lengths
  decide +kernel

end W2l.Ipc
