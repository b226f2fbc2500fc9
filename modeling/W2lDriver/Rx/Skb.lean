/-
**RX buffers: what `rx_skb_handle` does with the skb of one descriptor (SDIO and USB).**

`aml_rx.c`. A frame that may be released right away goes to the stack or to cfg80211, a frame that is
out of order is parked in a `struct rxdata` on `reorder_list`, everything else is freed.

* `RxState` — the two lists of nodes, what each node holds, and the history of the buffers.
* `rxSkbHandle` — `rx_skb_handle`, with `checkLenUpdate` for the code from that label on.
* `rxdataInv_step` — **the lists always hold the nodes of `aml_rxdata_init`, and a parked skb is held
  by one node and was never released**.
* `rxSkbHandle_disposes_iff` — **the calls that get rid of their buffer exactly once**: those whose
  status names a release, and those that allocate nothing.
-/

import Mathlib.Data.List.Range
import W2lDriver.Lib.System
import W2lDriver.Lib.Exchange

namespace W2l.Rx

open Lib (System)

/-! ### Descriptors, nodes and buffers -/

/-- A socket buffer. -/
abbrev Skb := Nat

/-- A `struct rxdata`. -/
abbrev Node := Nat

/-- `enum rx_status_bits`. -/
def rxStatForward : BitVec 32 := 1 <<< 0
def rxStatAlloc : BitVec 32 := 1 <<< 1
def rxStatDelete : BitVec 32 := 1 <<< 2
def rxStatLenUpdate : BitVec 32 := 1 <<< 3
def rxStatEthLenUpdate : BitVec 32 := 1 <<< 4
def rxStatCopy : BitVec 32 := 1 <<< 5
def rxStatSpurious : BitVec 32 := 1 <<< 6
def rxStatMonitor : BitVec 32 := 1 <<< 7

/-- `status & bit`. -/
def has (status bit : BitVec 32) : Bool := status &&& bit != 0

structure RxDescHead where
  hostid : BitVec 32 := 0
  frameLen : BitVec 32 := 0
  status : BitVec 32 := 0
  packageInfo : BitVec 32 := 0
  deriving DecidableEq

/-- The flags of `struct hw_rxhdr` that decide where a frame goes. -/
structure HwRxhdr where
  flagsIs80211Mpdu : Bool := false
  flagsVifIdx : BitVec 8 := 0
  flagsStaIdx : BitVec 8 := 0xff
  deriving DecidableEq

structure Rxdata where
  hostId : BitVec 32 := 0
  frameLen : BitVec 32 := 0
  packageInfo : BitVec 32 := 0
  skb : Skb := 0
  deriving DecidableEq

/-- An entry of `reorder_info`. -/
structure RxReorderInfo where
  hostid : BitVec 32 := 0
  reorderLen : BitVec 32 := 0
  deriving DecidableEq

/-- How a buffer leaves the driver. -/
inductive Fate
  | freed      -- `dev_kfree_skb`
  | cfg80211   -- `aml_rx_mgmt_any`, which frees it after cfg80211 saw it
  | stack      -- `aml_rx_data_skb`, which always consumes it
  deriving DecidableEq

inductive RxEvent
  | alloc (skb : Skb)
  | gone (skb : Skb) (fate : Fate)
  /-- The frame enters the `RX_STAT_FORWARD` branch, with this id and length in the descriptor. -/
  | forward (skb : Skb) (hostid frameLen : BitVec 32)
  deriving DecidableEq

/-- The globals of the RX path. -/
structure RxState where
  reorderList : List Node := []
  freeRxdataList : List Node
  rxdata : Node → Rxdata := fun _ => {}
  /-- The copy of the hardware header in front of a parked frame. -/
  hwRxhdr : Skb → HwRxhdr := fun _ => {}
  reorderInfo : Nat → RxReorderInfo := fun _ => {}
  /-- The next buffer the allocator hands out. -/
  newSkb : Skb := 0
  log : List RxEvent := []

/-- What a call finds outside: the allocator, the header in the host buffer, the interfaces. -/
structure RxEnv where
  devAllocSkb : Bool := true
  hwRxhdr : HwRxhdr := {}
  /-- `aml_rx_get_vif(aml_hw, aml_hw->monitor_vif)` finds an interface. -/
  monitorVif : Bool := false
  /-- `skb_headroom(skb) > rtap_len`. -/
  headroom : Bool := true
  skbCopyExpand : Bool := true
  /-- `aml_rx_get_vif`, giving the `vif_index`. -/
  rxGetVif : BitVec 8 → Option Nat := fun _ => none
  /-- `vlan_idx` in `sta_table`. -/
  vlanIdx : BitVec 8 → Nat := fun _ => 0
  /-- `vif_table[i]` is set. -/
  vifTable : Nat → Bool := fun _ => false
  /-- `frm_len > skb_tailroom(skb)` in `aml_rx_mgmt_any`. -/
  truncated : Bool := false

namespace RxState

def emit (s : RxState) (e : RxEvent) : RxState := { s with log := e :: s.log }

def devKfreeSkb (s : RxState) (skb : Skb) : RxState := s.emit (.gone skb .freed)

def devAllocSkb (s : RxState) : RxState × Skb :=
  ({ s with newSkb := s.newSkb + 1, log := .alloc s.newSkb :: s.log }, s.newSkb)

def amlGetRxdataFromFreeList (s : RxState) : RxState × Option Node :=
  match s.freeRxdataList with
  | [] => (s, none)
  | n :: rest => ({ s with freeRxdataList := rest }, some n)

/-- `list_del` and `aml_put_rxdata_back_to_free_list`. -/
def amlPutRxdataBackToFreeList (s : RxState) (n : Node) : RxState :=
  { s with reorderList := s.reorderList.erase n, freeRxdataList := s.freeRxdataList ++ [n] }

end RxState

open RxState

/-- `aml_rxdata_init`, of which the allocator granted `created` nodes (`RX_DATA_MAX_CNT` at most). -/
def amlRxdataInit (created : Nat) : RxState where
  freeRxdataList := List.range created

/-! ### `rx_skb_handle` -/

/-- `AML_INVALID_STA` and `NX_REMOTE_STA_MAX + NX_VIRT_DEV_MAX`. -/
def amlInvalidSta : BitVec 8 := 0xff
def staTableSize : Nat := 16 + 4

/-- Where the `RX_STAT_FORWARD` branch sends a frame. -/
def forwardFate (env : RxEnv) (hw : HwRxhdr) : Fate :=
  if hw.flagsIs80211Mpdu then
    if env.truncated then .freed else .cfg80211
  else
    match env.rxGetVif hw.flagsVifIdx with
    | none => .freed
    | some vifIndex =>
      if hw.flagsStaIdx ≠ amlInvalidSta ∧ hw.flagsStaIdx.toNat < staTableSize ∧
          env.vlanIdx hw.flagsStaIdx ≠ vifIndex ∧ env.vifTable (env.vlanIdx hw.flagsStaIdx) = false
      then .freed
      else .stack

/-- From `check_len_update` to the end. -/
def checkLenUpdate (env : RxEnv) (s : RxState) (desc : RxDescHead) (skb : Skb) (hw : HwRxhdr) : RxState :=
  if has desc.status rxStatLenUpdate then s.devKfreeSkb skb
  else if has desc.status rxStatSpurious then s.devKfreeSkb skb
  else if has desc.status rxStatForward then
    (s.emit (.forward skb desc.hostid desc.frameLen)).emit (.gone skb (forwardFate env hw))
  else s

/-- `skb_copy_expand`, then `dev_kfree_skb` of the original. -/
def monitorCopy (env : RxEnv) (s : RxState) (skb : Skb) : RxState :=
  (if env.skbCopyExpand then s.devAllocSkb.1 else s).devKfreeSkb skb

/-- From `forward_handle` to the end (`CONFIG_AML_MON_DATA` is off). -/
def forwardHandle (env : RxEnv) (s : RxState) (desc : RxDescHead) (skb : Skb) (hw : HwRxhdr) : RxState × RxDescHead :=
  if has desc.status rxStatMonitor ∧ env.monitorVif ∧ desc.status = rxStatMonitor then
    let alloc := { desc with status := desc.status ||| rxStatAlloc }
    if env.headroom then (checkLenUpdate env s alloc skb hw, alloc)
    else (checkLenUpdate env (monitorCopy env s skb) alloc skb hw, alloc)
  else (checkLenUpdate env s desc skb hw, desc)

/-- The frame is parked in a node, or freed when there is none. -/
def park (s : RxState) (desc : RxDescHead) (skb : Skb) (hw : HwRxhdr) : RxState :=
  match s.amlGetRxdataFromFreeList with
  | (s, none) => s.devKfreeSkb skb
  | (s, some n) =>
    { s with
      rxdata := Function.update s.rxdata n
        { hostId := desc.hostid, frameLen := desc.frameLen, packageInfo := desc.packageInfo, skb }
      hwRxhdr := Function.update s.hwRxhdr skb hw
      reorderList := s.reorderList ++ [n] }

/-- `-ENOMEM`. -/
def enomem : Int := -12

/-- The frame is copied out of the host buffer into a new skb. -/
def handleFresh (env : RxEnv) (s : RxState) (desc : RxDescHead) : RxState × RxDescHead × Int :=
  if env.devAllocSkb then
    if desc.status = rxStatAlloc ∧ desc.packageInfo ≠ 0 then
      (park s.devAllocSkb.1 desc s.devAllocSkb.2 env.hwRxhdr, desc, 0)
    else
      let handled := forwardHandle env s.devAllocSkb.1 desc s.devAllocSkb.2 env.hwRxhdr
      (handled.1, handled.2, 0)
  else (s, desc, enomem)

/-- The frame of a node, with its own id and length. -/
def handleParked (env : RxEnv) (s : RxState) (desc : RxDescHead) (n : Node) : RxState × RxDescHead × Int :=
  let parked := s.rxdata n
  let desc := { desc with frameLen := parked.frameLen, hostid := parked.hostId }
  let handled := forwardHandle env (s.amlPutRxdataBackToFreeList n) desc parked.skb (s.hwRxhdr parked.skb)
  (handled.1, handled.2, 0)

def rxSkbHandle (env : RxEnv) (s : RxState) (descStat : RxDescHead) (rxdataClear : Option Node) :
    RxState × RxDescHead × Int :=
  let desc := { descStat with frameLen := descStat.frameLen >>> 8 }
  match rxdataClear with
  | none => handleFresh env s desc
  | some n =>
    if has desc.status rxStatDelete then
      ((s.devKfreeSkb (s.rxdata n).skb).amlPutRxdataBackToFreeList n, desc, 0)
    else if desc.status = rxStatForward then handleParked env s desc n
    else handleFresh env s desc

/-- One call; a node to clear is one of `reorder_list`. -/
structure RxCall where
  env : RxEnv := {}
  desc : RxDescHead
  clear : Option Node := none

/-- The RX path after `aml_rxdata_init`, and its calls. -/
def rxSystem (created : Nat) : System RxState RxCall where
  init := amlRxdataInit created
  step s call :=
    if ∀ n ∈ call.clear, n ∈ s.reorderList then
      some (rxSkbHandle call.env s call.desc call.clear).1
    else none

/-! ### The buffers of a history -/

def RxEvent.goneSkb : RxEvent → Option Skb
  | .gone skb _ => some skb
  | _ => none

/-- The buffers released to the stack, to cfg80211 or to the allocator. -/
def gone (log : List RxEvent) : List Skb := log.filterMap RxEvent.goneSkb

@[simp] theorem gone_nil : gone [] = [] := rfl

@[simp] theorem gone_cons (e : RxEvent) (log : List RxEvent) : gone (e :: log) = e.goneSkb.toList ++ gone log := by
  cases e <;> rfl

theorem gone_append (es log : List RxEvent) : gone (es ++ log) = gone es ++ gone log :=
  List.filterMap_append

/-- The buffers parked in the nodes of `reorder_list`. -/
def RxState.parked (s : RxState) : List Skb := s.reorderList.map fun n => (s.rxdata n).skb

/-- A call that only releases buffers and makes copies. -/
def RxState.after (s : RxState) (copies : Nat) (es : List RxEvent) : RxState :=
  { s with newSkb := s.newSkb + copies, log := es ++ s.log }

/-- The status bits that make `check_len_update` get rid of the frame. -/
def released (status : BitVec 32) : Bool :=
  has status rxStatLenUpdate || has status rxStatSpurious || has status rxStatForward

/-- A monitor frame without headroom, replaced by its copy. -/
def copied (env : RxEnv) (status : BitVec 32) : Bool :=
  status == rxStatMonitor && env.monitorVif && !env.headroom

theorem checkLenUpdate_spec (env : RxEnv) (s : RxState) (desc : RxDescHead) (skb : Skb)
    (hw : HwRxhdr) :
    ∃ es, checkLenUpdate env s desc skb hw = s.after 0 es ∧ gone es = if released desc.status then [skb] else [] := by
  unfold checkLenUpdate released
  by_cases length : has desc.status rxStatLenUpdate
  · exact ⟨[.gone skb .freed], by simp [length]; rfl, by simp [length, RxEvent.goneSkb]⟩
  · by_cases spurious : has desc.status rxStatSpurious
    · exact ⟨[.gone skb .freed], by simp [length, spurious]; rfl, by simp [spurious, RxEvent.goneSkb]⟩
    · by_cases forward : has desc.status rxStatForward
      · exact ⟨[.gone skb (forwardFate env hw), .forward skb desc.hostid desc.frameLen],
          by simp [length, spurious, forward]; rfl, by simp [forward, RxEvent.goneSkb]⟩
      · exact ⟨[], by simp [length, spurious, forward]; rfl, by simp [length, spurious, forward]⟩

theorem has_monitor : has (rxStatMonitor ||| rxStatAlloc) rxStatLenUpdate = false ∧
    has (rxStatMonitor ||| rxStatAlloc) rxStatSpurious = false ∧
    has (rxStatMonitor ||| rxStatAlloc) rxStatForward = false ∧ released rxStatMonitor = false := by
  decide

theorem forwardHandle_spec (env : RxEnv) (s : RxState) (desc : RxDescHead) (skb : Skb)
    (hw : HwRxhdr) :
    ∃ es, (forwardHandle env s desc skb hw).1 =
        s.after (if copied env desc.status && env.skbCopyExpand then 1 else 0) es ∧
      gone es = if released desc.status || copied env desc.status then [skb] else [] := by
  unfold forwardHandle
  by_cases monitor : has desc.status rxStatMonitor ∧ env.monitorVif ∧ desc.status = rxStatMonitor
  · obtain ⟨-, vif, status⟩ := monitor
    have plain : ∀ s' : RxState, checkLenUpdate env s'
        { desc with status := desc.status ||| rxStatAlloc } skb hw = s' := by
      intro s'
      obtain ⟨length, spurious, forward, -⟩ := has_monitor
      unfold checkLenUpdate
      simp only [status, length, spurious, forward, Bool.false_eq_true, if_false]
    rw [if_pos ⟨by rw [status]; rfl, vif, status⟩]
    have stays : released desc.status = false := status ▸ has_monitor.2.2.2
    have isCopied : copied env desc.status = !env.headroom := by simp [copied, status, vif]
    rw [stays, isCopied, Bool.false_or]
    simp only [plain]
    cases room : env.headroom with
    | true => exact ⟨[], rfl, rfl⟩
    | false =>
      unfold monitorCopy
      cases env.skbCopyExpand with
      | true => exact ⟨[.gone skb .freed, .alloc s.newSkb], rfl, rfl⟩
      | false => exact ⟨[.gone skb .freed], rfl, rfl⟩
  · have notCopied : copied env desc.status = false := by
      by_contra isCopied
      simp only [copied, Bool.not_eq_false, Bool.and_eq_true, beq_iff_eq] at isCopied
      refine monitor ⟨?_, isCopied.1.2, isCopied.1.1⟩
      rw [isCopied.1.1]
      rfl
    rw [if_neg monitor, notCopied]
    obtain ⟨es, state, left⟩ := checkLenUpdate_spec env s desc skb hw
    exact ⟨es, by simpa using state, by simpa using left⟩

/-! ### The lists and the parked buffers -/

/-- What holds between two calls. -/
structure RxdataInv (created : Nat) (s : RxState) : Prop where
  partition : (s.reorderList ++ s.freeRxdataList).Perm (List.range created)
  /-- A buffer is parked once or was released once, never both. -/
  once : (gone s.log ++ s.parked).Nodup
  old : ∀ skb ∈ gone s.log ++ s.parked, skb < s.newSkb

theorem rxdataInv_init (created : Nat) : RxdataInv created (amlRxdataInit created) where
  partition := .refl _
  once := List.nodup_nil
  old := by simp [amlRxdataInit, RxState.parked]

namespace RxdataInv

variable {created : Nat} {s : RxState}

section

variable (inv : RxdataInv created s)

include inv

theorem after {skb : Skb} {copies : Nat} {es : List RxEvent}
    (nowhere : skb ∉ gone s.log ++ s.parked) (old : skb < s.newSkb)
    (left : gone es = [skb] ∨ gone es = []) : RxdataInv created (s.after copies es) := by
  have events : gone (s.after copies es).log ++ (s.after copies es).parked = gone es ++ (gone s.log ++ s.parked) := by
    show gone (es ++ s.log) ++ s.parked = _
    rw [gone_append, List.append_assoc]
  constructor
  case partition => exact inv.partition
  case once =>
    rw [events]
    rcases left with single | none
    · rw [single]
      exact List.nodup_cons.mpr ⟨nowhere, inv.once⟩
    · rw [none]
      exact inv.once
  case old =>
    intro x member
    show x < s.newSkb + copies
    rw [events] at member
    rcases List.mem_append.mp member with new | before
    · rcases left with single | none
      · obtain rfl : x = skb := by simpa [single] using new
        exact Nat.lt_add_right copies old
      · simp [none] at new
    · exact Nat.lt_add_right copies (inv.old x before)

theorem devAllocSkb : RxdataInv created s.devAllocSkb.1 ∧
      s.devAllocSkb.2 ∉ gone s.devAllocSkb.1.log ++ s.devAllocSkb.1.parked := by
  refine ⟨⟨inv.partition, inv.once, fun x member => Nat.lt_succ_of_lt (inv.old x member)⟩, ?_⟩
  intro member
  exact Nat.lt_irrefl _ (inv.old s.newSkb member)

theorem nodup : (s.reorderList ++ s.freeRxdataList).Nodup :=
  inv.partition.nodup_iff.mpr List.nodup_range

/-- A node of `reorder_list` is put back: its buffer is nowhere any more. -/
theorem putBack {n : Node} (linked : n ∈ s.reorderList) : RxdataInv created (s.amlPutRxdataBackToFreeList n) ∧
      (s.rxdata n).skb ∉ gone s.log ++ (s.amlPutRxdataBackToFreeList n).parked ∧
      (s.rxdata n).skb < s.newSkb := by
  have split : (gone s.log ++ s.parked).Perm ((s.rxdata n).skb ::
      (gone s.log ++ (s.amlPutRxdataBackToFreeList n).parked)) := by
    have moved := W2l.Lib.perm_map_erase (fun m => (s.rxdata m).skb) linked
    exact (moved.append_left _).trans List.perm_middle
  have once := List.nodup_cons.mp (split.nodup_iff.mp inv.once)
  refine ⟨⟨?_, once.2, ?_⟩, once.1, inv.old _ (split.mem_iff.mpr (by simp))⟩
  · have moved : (s.reorderList.erase n ++ (s.freeRxdataList ++ [n])).Perm
        (s.reorderList ++ s.freeRxdataList) := by
      rw [← List.append_assoc]
      refine (List.perm_append_singleton n _).trans ?_
      exact (List.perm_cons_erase linked).symm.append_right _
    exact moved.trans inv.partition
  · intro x member
    exact inv.old x (split.mem_iff.mpr (List.mem_cons_of_mem _ member))

end

end RxdataInv

/-! ### What one call does -/

def RxCall.takesNode (call : RxCall) : Bool :=
  call.clear.isSome && (has call.desc.status rxStatDelete || call.desc.status == rxStatForward)

def RxCall.parks (call : RxCall) : Bool :=
  call.desc.status == rxStatAlloc && call.desc.packageInfo != 0

/-- The outcomes of `rx_skb_handle`. -/
inductive RxOutcome (s : RxState) (call : RxCall) : RxState → Prop
  | taken (n : Node) (es : List RxEvent) : call.clear = some n → call.takesNode = true →
      gone es = [(s.rxdata n).skb] →
      RxOutcome s call ((s.amlPutRxdataBackToFreeList n).after 0 es)
  | noMemory : call.takesNode = false → call.env.devAllocSkb = false → RxOutcome s call s
  | parked (desc : RxDescHead) : call.takesNode = false → call.env.devAllocSkb = true → call.parks = true →
      RxOutcome s call (park s.devAllocSkb.1 desc s.newSkb call.env.hwRxhdr)
  | fresh (es : List RxEvent) : call.takesNode = false → call.env.devAllocSkb = true → call.parks = false →
      (gone es = if released call.desc.status || copied call.env call.desc.status then [s.newSkb]
        else []) →
      RxOutcome s call (s.devAllocSkb.1.after
        (if copied call.env call.desc.status && call.env.skbCopyExpand then 1 else 0) es)

theorem handleFresh_cases (s : RxState) (call : RxCall) (desc : RxDescHead)
    (status : desc.status = call.desc.status) (info : desc.packageInfo = call.desc.packageInfo)
    (takes : call.takesNode = false) : RxOutcome s call (handleFresh call.env s desc).1 := by
  unfold handleFresh
  cases room : call.env.devAllocSkb with
  | false => exact .noMemory takes room
  | true =>
    by_cases parks : desc.status = rxStatAlloc ∧ desc.packageInfo ≠ 0
    · have parks' : call.parks = true := by
        unfold RxCall.parks
        rw [← status, ← info, parks.1]
        exact bne_iff_ne.mpr parks.2
      rw [if_pos rfl, if_pos parks]
      exact .parked desc takes room parks'
    · have parks' : call.parks = false := by
        unfold RxCall.parks
        rw [← status, ← info]
        simpa using parks
      obtain ⟨es, state, left⟩ := forwardHandle_spec call.env s.devAllocSkb.1 desc s.newSkb
        call.env.hwRxhdr
      rw [status] at state left
      rw [if_pos rfl, if_neg parks]
      exact state ▸ .fresh es takes room parks' left

theorem rxSkbHandle_cases (s : RxState) (call : RxCall) :
    RxOutcome s call (rxSkbHandle call.env s call.desc call.clear).1 := by
  unfold rxSkbHandle
  cases clear : call.clear with
  | none => exact handleFresh_cases s call _ rfl rfl (by simp [RxCall.takesNode, clear])
  | some n =>
    by_cases delete : has call.desc.status rxStatDelete
    · simp only [delete, if_true]
      exact .taken n [.gone (s.rxdata n).skb .freed] clear (by simp [RxCall.takesNode, clear, delete]) rfl
    · by_cases forward : call.desc.status = rxStatForward
      · obtain ⟨es, state, left⟩ := forwardHandle_spec call.env (s.amlPutRxdataBackToFreeList n)
          { call.desc with frameLen := (s.rxdata n).frameLen, hostid := (s.rxdata n).hostId }
          (s.rxdata n).skb (s.hwRxhdr (s.rxdata n).skb)
        have notCopied : copied call.env rxStatForward = false := rfl
        have leaves : released rxStatForward = true := by decide
        simp only [forward, notCopied, leaves, Bool.false_and, Bool.false_eq_true, if_false,
          Bool.true_or, if_true] at state left
        simp only [forward, if_true]
        exact state ▸ .taken n es clear (by simp [RxCall.takesNode, clear, forward]) left
      · simp only [delete, forward, if_false]
        exact handleFresh_cases s call _ rfl rfl (by simp [RxCall.takesNode, clear, delete, forward])

namespace RxdataInv

variable {created : Nat} {s : RxState}

section

variable (inv : RxdataInv created s)

include inv

theorem park {skb : Skb} (nowhere : skb ∉ gone s.log ++ s.parked)
    (old : skb < s.newSkb) (desc : RxDescHead) (hw : HwRxhdr) :
    RxdataInv created (Rx.park s desc skb hw) ∧ (Rx.park s desc skb hw).newSkb = s.newSkb ∧
      (∀ x, x ∈ gone (Rx.park s desc skb hw).log ++ (Rx.park s desc skb hw).parked ↔
        x = skb ∨ x ∈ gone s.log ++ s.parked) ∧
      ∀ x ∈ s.parked, x ∈ (Rx.park s desc skb hw).parked := by
  cases free : s.freeRxdataList with
  | nil =>
    have freed : Rx.park s desc skb hw = s.after 0 [.gone skb .freed] := by
      simp [Rx.park, amlGetRxdataFromFreeList, free]
      rfl
    rw [freed]
    exact ⟨inv.after nowhere old (.inl rfl), rfl, fun x => List.mem_cons, fun x => id⟩
  | cons n rest =>
    have unlinked : n ∉ s.reorderList := by
      intro linked
      exact (List.nodup_append.mp inv.nodup).2.2 n linked n (by simp [free]) rfl
    have parked : (Rx.park s desc skb hw).parked = s.parked ++ [skb] := by
      simp only [Rx.park, amlGetRxdataFromFreeList, free, RxState.parked, List.map_append,
        List.map_cons, List.map_nil, Function.update_self]
      congr 1
      refine List.map_congr_left fun m linked => ?_
      rw [Function.update_of_ne]
      rintro rfl
      exact unlinked linked
    have log : (Rx.park s desc skb hw).log = s.log := by
      simp [Rx.park, amlGetRxdataFromFreeList, free]
    have counter : (Rx.park s desc skb hw).newSkb = s.newSkb := by
      simp [Rx.park, amlGetRxdataFromFreeList, free]
    have buffers : (gone (Rx.park s desc skb hw).log ++ (Rx.park s desc skb hw).parked).Perm
        (skb :: (gone s.log ++ s.parked)) := by
      rw [log, parked, ← List.append_assoc]
      exact List.perm_append_singleton skb _
    have places : ∀ x, x ∈ gone (Rx.park s desc skb hw).log ++ (Rx.park s desc skb hw).parked ↔
        x = skb ∨ x ∈ gone s.log ++ s.parked := fun x =>
      buffers.mem_iff.trans List.mem_cons
    refine ⟨⟨?_, ?_, ?_⟩, counter, places, ?_⟩
    · have moved : (Rx.park s desc skb hw).reorderList ++ (Rx.park s desc skb hw).freeRxdataList =
          s.reorderList ++ s.freeRxdataList := by
        simp [Rx.park, amlGetRxdataFromFreeList, free]
      exact moved ▸ inv.partition
    · exact buffers.nodup_iff.mpr (List.nodup_cons.mpr ⟨nowhere, inv.once⟩)
    · intro x member
      rw [counter]
      rcases (places x).mp member with rfl | before
      · exact old
      · exact inv.old x before
    · intro x member
      rw [parked]
      exact List.mem_append_left _ member

theorem fresh : RxdataInv created s.devAllocSkb.1 ∧ s.newSkb ∉ gone s.devAllocSkb.1.log ++ s.devAllocSkb.1.parked ∧
      s.newSkb < s.devAllocSkb.1.newSkb :=
  ⟨inv.devAllocSkb.1, inv.devAllocSkb.2, Nat.lt_succ_self _⟩

theorem call {call : RxCall} {s' : RxState}
    (linked : ∀ n ∈ call.clear, n ∈ s.reorderList) (outcome : RxOutcome s call s') :
    RxdataInv created s' := by
  cases outcome with
  | taken n es clear takes left =>
    obtain ⟨inv', nowhere, old⟩ := inv.putBack (linked n clear)
    exact inv'.after nowhere old (.inl left)
  | noMemory takes room => exact inv
  | parked desc takes room parks =>
    obtain ⟨inv', nowhere, old⟩ := inv.fresh
    exact (inv'.park nowhere old desc _).1
  | fresh es takes room parks left =>
    obtain ⟨inv', nowhere, old⟩ := inv.fresh
    refine inv'.after nowhere old ?_
    split at left
    · exact .inl left
    · exact .inr left

end

end RxdataInv

theorem RxdataInv.of_reachable {created : Nat} {s : RxState}
    (reach : (rxSystem created).Reachable (fun _ _ => True) s) : RxdataInv created s := by
  refine reach.invariant (rxdataInv_init created) fun s call s' _ inv _ stepped => ?_
  simp only [rxSystem] at stepped
  by_cases linked : ∀ n ∈ call.clear, n ∈ s.reorderList
  · rw [if_pos linked] at stepped
    exact inv.call linked (Option.some.inj stepped ▸ rxSkbHandle_cases s call)
  · rw [if_neg linked] at stepped
    cases stepped

/-! ### Which calls get rid of their buffers -/

/-- The buffers a call allocated or took out of a node. -/
def Handled (s s' : RxState) (skb : Skb) : Prop :=
  (s.newSkb ≤ skb ∧ skb < s'.newSkb) ∨ (skb ∈ s.parked ∧ skb ∉ s'.parked)

/-- Each of them was delivered or freed once, or is parked in one node. -/
def DisposesOnce (s : RxState) (call : RxCall) : Prop :=
  let s' := (rxSkbHandle call.env s call.desc call.clear).1
  ∀ skb, Handled s s' skb → (gone s'.log ++ s'.parked).count skb = 1

/-- The call takes the buffer of a node, gets none, parks it, or its status names a release; or it is
a monitor frame without headroom whose copy failed. -/
def Settles (call : RxCall) : Prop :=
  call.takesNode = true ∨ call.env.devAllocSkb = false ∨ call.parks = true ∨ released call.desc.status = true ∨
    (copied call.env call.desc.status = true ∧ call.env.skbCopyExpand = false)

/-- **One call disposes of its buffers exactly when its status settles them.** -/
theorem RxdataInv.disposes_iff {created : Nat} {s : RxState} (inv : RxdataInv created s)
    {call : RxCall} (linked : ∀ n ∈ call.clear, n ∈ s.reorderList) :
    DisposesOnce s call ↔ Settles call := by
  have outcome := rxSkbHandle_cases s call
  have inv' := inv.call linked outcome
  unfold DisposesOnce
  generalize (rxSkbHandle call.env s call.desc call.clear).1 = s' at outcome inv'
  have enough : (∀ skb, Handled s s' skb → skb ∈ gone s'.log ++ s'.parked) ↔
      ∀ skb, Handled s s' skb → (gone s'.log ++ s'.parked).count skb = 1 := by
    refine forall₂_congr fun skb _ => ⟨List.count_eq_one_of_mem inv'.once, fun one => ?_⟩
    exact List.count_pos_iff.mp (one ▸ Nat.one_pos)
  rw [← enough]
  cases outcome with
  | taken n es clear takes left =>
    refine iff_of_true (fun x handled => ?_) (.inl takes)
    show x ∈ gone (es ++ s.log) ++ (s.amlPutRxdataBackToFreeList n).parked
    rw [gone_append, left]
    rcases handled with ⟨new, old⟩ | ⟨before, now⟩
    · exact absurd old (Nat.not_lt.mpr new)
    · have moved := W2l.Lib.perm_map_erase (fun m => (s.rxdata m).skb) (linked n clear)
      rcases List.mem_cons.mp (moved.mem_iff.mp before) with rfl | stays
      · simp
      · exact absurd stays now
  | noMemory takes room =>
    refine iff_of_true (fun x handled => ?_) (.inr (.inl room))
    rcases handled with ⟨new, old⟩ | ⟨before, now⟩
    · exact absurd old (Nat.not_lt.mpr new)
    · exact absurd before now
  | parked desc takes room parks =>
    refine iff_of_true (fun x handled => ?_) (.inr (.inr (.inl parks)))
    obtain ⟨inv₁, nowhere, old⟩ := inv.fresh
    obtain ⟨-, counter, places, stays⟩ := inv₁.park nowhere old desc call.env.hwRxhdr
    rcases handled with ⟨new, below⟩ | ⟨before, now⟩
    · rw [counter] at below
      have same : x = s.newSkb := Nat.le_antisymm (Nat.le_of_lt_succ below) new
      exact (places x).mpr (.inl same)
    · exact absurd (stays x before) now
  | fresh es takes room parks left =>
    have settles : Settles call ↔ (released call.desc.status = true ∨
        (copied call.env call.desc.status = true ∧ call.env.skbCopyExpand = false)) := by
      simp [Settles, takes, room, parks]
    have events (copies : Nat) (x : Skb) : x ∈ gone (s.devAllocSkb.1.after copies es).log ++
        (s.devAllocSkb.1.after copies es).parked ↔ x ∈ gone es ∨ x ∈ gone s.log ++ s.parked := by
      show x ∈ gone (es ++ .alloc s.newSkb :: s.log) ++ s.parked ↔ _
      rw [gone_append, List.append_assoc, List.mem_append]
      rfl
    have nowhere (x : Skb) (new : s.newSkb ≤ x) : x ∉ gone s.log ++ s.parked := fun member =>
      Nat.not_lt.mpr new (inv.old x member)
    rw [settles]
    constructor
    · intro all
      -- the fresh buffer must have left, and no copy may be behind it
      have first := (events _ _).mp (all s.newSkb (.inl ⟨le_rfl, Nat.lt_add_right _ (Nat.lt_succ_self _)⟩))
      have leaves : s.newSkb ∈ gone es := first.resolve_right (nowhere _ le_rfl)
      have status : released call.desc.status = true ∨ copied call.env call.desc.status = true := by
        by_contra neither
        rw [not_or, Bool.not_eq_true, Bool.not_eq_true] at neither
        simp [left, neither.1, neither.2] at leaves
      rcases status with release | copy
      · exact .inl release
      · refine .inr ⟨copy, ?_⟩
        by_contra made
        rw [Bool.not_eq_false] at made
        have second := (events _ _).mp (all (s.newSkb + 1) (.inl ⟨Nat.le_succ _, by
          show s.newSkb + 1 < s.newSkb + 1 + _
          rw [copy, made]
          exact Nat.lt_succ_self _⟩))
        have copyLeaves : s.newSkb + 1 ∈ gone es :=
          second.resolve_right (nowhere _ (Nat.le_succ _))
        rw [left, if_pos (by simp [copy])] at copyLeaves
        simp at copyLeaves
    · intro settled x handled
      have noCopy : (copied call.env call.desc.status && call.env.skbCopyExpand) = false := by
        rcases settled with release | ⟨-, failed⟩
        · have status : call.desc.status ≠ rxStatMonitor := by
            intro monitor
            rw [monitor, has_monitor.2.2.2] at release
            cases release
          simp [copied, status]
        · simp [failed]
      rcases handled with ⟨new, below⟩ | ⟨before, now⟩
      · rw [noCopy] at below
        have same : x = s.newSkb := Nat.le_antisymm (Nat.le_of_lt_succ below) new
        refine (events _ _).mpr (.inl ?_)
        have leaves : (released call.desc.status || copied call.env call.desc.status) = true := by
          rcases settled with release | ⟨copy, -⟩
          · simp [release]
          · simp [copy]
        rw [left, if_pos leaves, same]
        exact List.mem_singleton.mpr rfl
      · exact absurd before now

/-! ### The result -/

/-- The lists hold the created nodes, and a released buffer is in no node of `reorder_list`. -/
structure RxdataSafe (created : Nat) (s : RxState) : Prop where
  partition : (s.reorderList ++ s.freeRxdataList).Perm (List.range created)
  noDangling : ∀ skb ∈ gone s.log, ∀ n ∈ s.reorderList, (s.rxdata n).skb ≠ skb
  releasedOnce : (gone s.log).Nodup

theorem RxdataInv.safe {created : Nat} {s : RxState} (inv : RxdataInv created s) : RxdataSafe created s where
  partition := inv.partition
  noDangling skb left n linked same :=
    (List.nodup_append.mp inv.once).2.2 skb left skb (List.mem_map.mpr ⟨n, linked, same⟩) rfl
  releasedOnce := (List.nodup_append.mp inv.once).1

/-- **A frame to store without reorder information** (`RX_STAT_ALLOC`, `package_info` 0) matches no
branch: its buffer is neither delivered nor freed nor parked. -/
theorem rxSkbHandle_leaks : ¬ DisposesOnce (amlRxdataInit 1) { desc := { status := rxStatAlloc } } := by
  intro disposes
  have one := disposes 0 (.inl ⟨Nat.le_refl 0, Nat.one_pos⟩)
  exact absurd one (by decide : ([] : List Skb).count 0 ≠ 1)

/-- **RX buffer ownership.** In every run the lists hold the nodes of `aml_rxdata_init` and no node
refers to a released buffer; a call disposes of what it allocates or takes from a node exactly when
its descriptor settles it. -/
theorem rxSkbHandle_ownership {created : Nat} {s : RxState}
    (reach : (rxSystem created).Reachable (fun _ _ => True) s) :
    RxdataSafe created s ∧ ∀ call : RxCall, (∀ n ∈ call.clear, n ∈ s.reorderList) →
        (DisposesOnce s call ↔ Settles call) :=
  ⟨(RxdataInv.of_reachable reach).safe, fun _ linked =>
    (RxdataInv.of_reachable reach).disposes_iff linked⟩

/-- A frame is parked under id 5 and then released to cfg80211. -/
theorem rxSkbHandle_ownership_released :
    ∃ s, (rxSystem 2).Reachable (fun _ _ => True) s ∧ gone s.log = [0] ∧ RxdataSafe 2 s := by
  have reach := System.reachable_of_run (rxSystem 2) (fun _ _ => True)
    [{ desc := { hostid := 5, status := rxStatAlloc, packageInfo := 0x101 },
       env := { hwRxhdr := { flagsIs80211Mpdu := true } } },
     { desc := { status := rxStatForward }, clear := some 0 }] (by decide)
  exact ⟨_, reach, by decide, (rxSkbHandle_ownership reach).1⟩

end W2l.Rx
