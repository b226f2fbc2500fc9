/-
**The scatter request of the transmit task.**

`aml_sdio_scat_req_rw`, `aml_sdio_scat_complete` (`aml_bus/w2_sdio.c`), `aml_tx_task` (`aml_utils.c`). The transmit
task puts its frames into `scat_list`, and the request is written in as many transfers as the host's maximum needs.
At the end it is completed, so that the task starts over; a frame that is too large for any transfer returns before
that.

* `assemble`, `scatLoop`, `scatReqRw` — one transfer's table, the transfers, and the whole.
* `addFrame` — what the task does with a frame.
* `ScatRight` — **what a call should do**: every entry once and in order, transfers within the limits, and a request
  that the task can start from.
* `Completes` — when it does; `scatReqRw_right` — that it returns, and does so just then.
-/

import Mathlib.Algebra.BigOperators.Ring.List
import Mathlib.Data.List.Infix
import W2lDriver.Lib.Packing

namespace W2l.Sdio

open Lib.Packing

/-! ### The code -/

/-- `SDIO_BLKSIZE`; `sdio_set_block_size` makes it `cur_blksize`. -/
abbrev sdioBlksize : ℕ := 512

abbrev sdioMaxBlkCnt : ℕ := 511

abbrev maxsgSize : ℕ := 160

abbrev maxSgEntries : ℕ := 162

abbrev hifWrite : BitVec 32 := 0x00000002

abbrev hifAsynchronous : BitVec 32 := 0x00000020

abbrev sdiohApiRcFail : Int := 1

/-- `struct amlw_hif_scatter_item`: a positive `int`, and the address of a frame. -/
structure ScatterItem where
  len : ℕ
  packet : ℕ
  deriving DecidableEq

/-- `struct amlw_hif_scatter_req`. -/
structure ScatterReq where
  addr : BitVec 32
  req : BitVec 32
  len : BitVec 32
  free : Bool
  result : Int
  scatCount : ℕ
  scatList : ℕ → ScatterItem

/-- What the host takes. -/
structure MmcHost where
  maxBlkCount : ℕ
  maxReqSize : ℕ

/-- `max_req_size`. -/
def MmcHost.limit (host : MmcHost) : ℕ := min (min host.maxBlkCount sdioMaxBlkCnt * sdioBlksize) host.maxReqSize

/-- An entry of the scatter-gather table: address and size. -/
structure SgEntry where
  buf : ℕ
  size : ℕ
  deriving DecidableEq

/-- A transfer that the host is given. -/
structure MmcRequest where
  sg : List SgEntry
  blocks : ℕ
  arg : BitVec 32
  write : Bool

/-- The errors of a command and of its data. -/
structure MmcError where
  cmd : Int
  data : Int

/-- `mmc_cmd.error || mmc_dat.error`. -/
def MmcError.failed (error : MmcError) : Bool := decide (error.cmd ≠ 0) || decide (error.data ≠ 0)

/-- `ALIGN(packet_len, blk_size)`. The sum may leave the range of an `int`, but it is compared unsigned. -/
def sgDataSize (packetLen : ℕ) : ℕ := (packetLen + (sdioBlksize - 1)) / sdioBlksize * sdioBlksize

def sgSetBuf (item : ScatterItem) : SgEntry := ⟨item.packet, sgDataSize item.len⟩

/-- The table of one transfer, and the entries that are left. -/
def assemble (maxReqSize : ℕ) : List ScatterItem → (ttlLen sgCount : ℕ) → List SgEntry × List ScatterItem
  | [], _, _ => ([], [])
  | item :: rest, ttlLen, sgCount =>
    if maxReqSize ≤ ttlLen then ([], item :: rest)
    else if maxsgSize ≤ sgCount then ([], item :: rest)
    else if maxReqSize - ttlLen < sgDataSize item.len then ([], item :: rest)
    else
      let (sg, left) := assemble maxReqSize rest (ttlLen + sgDataSize item.len) (sgCount + 1)
      (sgSetBuf item :: sg, left)

def ttlLen (sg : List SgEntry) : ℕ := (sg.map SgEntry.size).sum

def funcNum (req : BitVec 32) : BitVec 32 := if req &&& hifWrite ≠ 0 then 4 else 6

/-- The transfer of a table: block mode, to a fixed address. -/
def mmcRequest (addr req : BitVec 32) (sg : List SgEntry) : MmcRequest where
  sg
  blocks := ttlLen sg / sdioBlksize
  arg := (if req &&& hifWrite ≠ 0 then 1#32 <<< 31 else 0) ||| (funcNum req &&& 0x7) <<< 28 ||| 1#32 <<< 27 |||
    (addr &&& 0x1ffff) <<< 9 ||| (BitVec.ofNat 32 (ttlLen sg / sdioBlksize) &&& 0x1ff)
  write := req &&& hifWrite ≠ 0

/-- How the transfers end: with a table that is empty or not of whole blocks, or with the errors of the last. -/
inductive LoopEnd
  | refused
  | ended (error : MmcError) (busErr : Bool)

/-- The transfers. `respond` is the host, `n` counts the requests it has had; `none` when the fuel is out. -/
def scatLoop (addr req : BitVec 32) (maxReqSize : ℕ) (respond : ℕ → MmcError) :
    ℕ → List ScatterItem → ℕ → MmcError → Option (List MmcRequest × LoopEnd)
  | _, [], _, error => some ([], .ended error false)
  | 0, _ :: _, _, _ => none
  | fuel + 1, item :: rest, n, _ =>
    let (sg, left) := assemble maxReqSize (item :: rest) 0 0
    if ttlLen sg = 0 ∨ ttlLen sg % sdioBlksize ≠ 0 then some ([], .refused)
    else if (respond n).failed then some ([mmcRequest addr req sg], .ended (respond n) true)
    else
      (scatLoop addr req maxReqSize respond fuel left (n + 1) (respond n)).map fun (requests, ended) =>
        (mmcRequest addr req sg :: requests, ended)

namespace ScatterReq

variable (scatReq : ScatterReq)

def entries : List ScatterItem := (List.range scatReq.scatCount).map scatReq.scatList

/-- `aml_sdio_scat_complete`. -/
def scatComplete : ScatterReq := { scatReq with free := true, scatCount := 0, len := 0, addr := 0 }

/-- What `aml_tx_task` does with a frame, at `mpdu_num`. -/
def addFrame (mpduNum : ℕ) (item : ScatterItem) : ScatterReq :=
  { scatReq with
    scatList := Function.update scatReq.scatList mpduNum item
    scatCount := scatReq.scatCount + 1
    len := scatReq.len + BitVec.ofNat 32 item.len }

/-- A batch of frames; `mpdu_num` counts them. -/
def addFrames : ScatterReq → ℕ → List ScatterItem → ScatterReq
  | scatReq, _, [] => scatReq
  | scatReq, mpduNum, item :: rest => (scatReq.addFrame mpduNum item).addFrames (mpduNum + 1) rest

end ScatterReq

/-- What a call of `aml_sdio_scat_req_rw` leaves. -/
structure ScatOut where
  scatReq : ScatterReq
  busErr : Bool
  requests : List MmcRequest
  result : Int

/-- `aml_sdio_scat_req_rw`; `stale` is what the error fields hold when no transfer is made. -/
def scatReqRw (host : MmcHost) (respond : ℕ → MmcError) (stale : MmcError) (busErr : Bool)
    (scatReq : ScatterReq) : Option ScatOut :=
  if busErr then some ⟨scatReq.scatComplete, true, [], 0⟩
  else
    (scatLoop scatReq.addr scatReq.req host.limit respond scatReq.scatCount scatReq.entries 0 stale).map
      fun (requests, ended) =>
        match ended with
        | .refused => ⟨scatReq, false, requests, sdiohApiRcFail⟩
        | .ended error busErr =>
          let result := if error.cmd ≠ 0 then error.cmd else error.data
          let scatReq := { scatReq with result }
          let scatReq := if scatReq.req &&& hifAsynchronous ≠ 0 then scatReq.scatComplete else scatReq
          ⟨scatReq, busErr, requests, result⟩

/-! ### The property -/

def itemSize (item : ScatterItem) : ℕ := sgDataSize item.len

def packed (maxReqSize : ℕ) (items : List ScatterItem) : List (List ScatterItem) × List ScatterItem :=
  pack itemSize maxReqSize maxsgSize items.length items

/-- **What a call should do.** -/
structure ScatRight (host : MmcHost) (respond : ℕ → MmcError) (busErr : Bool) (scatReq : ScatterReq)
    (out : ScatOut) : Prop where
  inOrder : out.requests.flatMap MmcRequest.sg <+: scatReq.entries.map sgSetBuf
  all : busErr = false → (∀ i < out.requests.length, (respond i).failed = false) →
    out.requests.flatMap MmcRequest.sg = scatReq.entries.map sgSetBuf
  limits : ∀ request ∈ out.requests, ttlLen request.sg ≤ host.limit ∧ request.sg.length ≤ maxsgSize ∧
    request.blocks * sdioBlksize = ttlLen request.sg
  reset : out.scatReq.scatCount = 0 ∧ out.scatReq.len = 0
  next : ∀ items, (out.scatReq.addFrames 0 items).entries = items

/-- The bus is in recovery; or the request is one that is completed, or there is nothing to complete, and no entry is
too large or a transfer in front of the first that is fails. -/
def Completes (host : MmcHost) (respond : ℕ → MmcError) (busErr : Bool) (scatReq : ScatterReq) : Prop :=
  busErr = true ∨ (scatReq.req &&& hifAsynchronous ≠ 0 ∨ scatReq.scatCount = 0 ∧ scatReq.len = 0) ∧
      ((∀ item ∈ scatReq.entries, itemSize item ≤ host.limit) ∨
        ∃ k < (packed host.limit scatReq.entries).1.length, (respond k).failed = true)

/-! ### One transfer -/

section Assemble

variable {maxReqSize used count : ℕ} {items : List ScatterItem}

theorem assemble_eq : assemble maxReqSize items used count =
    ((fill itemSize maxReqSize maxsgSize items used count).1.map sgSetBuf,
      (fill itemSize maxReqSize maxsgSize items used count).2) := by
  induction items generalizing used count with
  | nil => rfl
  | cons item rest ih =>
    unfold assemble fill
    by_cases taken : used < maxReqSize ∧ count < maxsgSize ∧ itemSize item ≤ maxReqSize - used
    · obtain ⟨room, few, fits⟩ := taken
      rw [if_neg (Nat.not_le.mpr room), if_neg (Nat.not_le.mpr few),
        if_neg (show ¬maxReqSize - used < sgDataSize item.len from Nat.not_lt.mpr fits),
        if_pos ⟨room, few, fits⟩, ih]
      rfl
    · rw [if_neg taken]
      split
      · rfl
      split
      · rfl
      split
      · rfl
      case isFalse room few fits =>
        exact absurd ⟨Nat.not_le.mp room, Nat.not_le.mp few, Nat.not_lt.mp fits⟩ taken

theorem sgDataSize_pos {len : ℕ} (positive : 0 < len) : 0 < sgDataSize len := by
  show 0 < (len + 511) / 512 * 512
  omega

theorem ttlLen_map : ttlLen (items.map sgSetBuf) = (items.map itemSize).sum := by
  unfold ttlLen
  rw [List.map_map]
  rfl

theorem dvd_ttlLen : sdioBlksize ∣ ttlLen (items.map sgSetBuf) := by
  have blocks : ∀ size ∈ items.map itemSize, sdioBlksize ∣ size := by
    intro size member
    obtain ⟨item, -, rfl⟩ := List.mem_map.mp member
    exact Nat.dvd_mul_left _ _
  rw [ttlLen_map]
  exact List.dvd_sum blocks

theorem ttlLen_eq_zero (positive : ∀ item ∈ items, 0 < item.len) : ttlLen (items.map sgSetBuf) = 0 ↔ items = [] := by
  rw [ttlLen_map]
  cases items with
  | nil => exact iff_of_true rfl rfl
  | cons item rest =>
    refine iff_of_false ?_ (List.cons_ne_nil _ _)
    have some : 0 < itemSize item := sgDataSize_pos (positive item List.mem_cons_self)
    rw [List.map_cons, List.sum_cons]
    omega

end Assemble

/-! ### The transfers -/

def transfer (addr req : BitVec 32) (batch : List ScatterItem) : MmcRequest :=
  mmcRequest addr req (batch.map sgSetBuf)

/-- **How the transfers of a packing go**: up to the first that fails; else all of them, and the loop refuses what is
left. -/
inductive Course (addr req : BitVec 32) (respond : ℕ → MmcError) (n : ℕ)
    (plan : List (List ScatterItem) × List ScatterItem) : List MmcRequest → LoopEnd → Prop
  | stopped (k : ℕ) (within : k < plan.1.length) (fails : (respond (n + k)).failed = true)
      (before : ∀ i < k, (respond (n + i)).failed = false) :
      Course addr req respond n plan ((plan.1.take (k + 1)).map (transfer addr req)) (.ended (respond (n + k)) true)
  | refused (left : plan.2 ≠ []) (before : ∀ i < plan.1.length, (respond (n + i)).failed = false) :
      Course addr req respond n plan (plan.1.map (transfer addr req)) .refused
  | finished (error : MmcError) (left : plan.2 = [])
      (before : ∀ i < plan.1.length, (respond (n + i)).failed = false) :
      Course addr req respond n plan (plan.1.map (transfer addr req)) (.ended error false)

section Loop

variable {addr req : BitVec 32} {maxReqSize n : ℕ} {respond : ℕ → MmcError} {items : List ScatterItem}

variable {requests : List MmcRequest} {ended : LoopEnd}

theorem Course.cons {batch : List ScatterItem} {plan : List (List ScatterItem) × List ScatterItem}
    (good : (respond n).failed = false)
    (later : Course addr req respond (n + 1) plan requests ended) :
    Course addr req respond n (batch :: plan.1, plan.2) (transfer addr req batch :: requests) ended := by
  have first : ∀ k, (∀ i < k, (respond (n + 1 + i)).failed = false) →
      ∀ i < k + 1, (respond (n + i)).failed = false := by
    intro k before i within
    cases i with
    | zero => exact good
    | succ i =>
      rw [show n + (i + 1) = n + 1 + i by omega]
      exact before i (by omega)
  cases later with
  | stopped k within fails before =>
    rw [show n + 1 + k = n + (k + 1) by omega] at fails ⊢
    exact .stopped (k + 1) (Nat.succ_lt_succ within) fails (first k before)
  | refused left before => exact .refused left (first _ before)
  | finished error left before => exact .finished error left (first _ before)

theorem scatLoop_spec {fuel : ℕ} {error : MmcError} (positive : ∀ item ∈ items, 0 < item.len)
    (enough : items.length ≤ fuel) :
    ∃ requests ended, scatLoop addr req maxReqSize respond fuel items n error = some (requests, ended) ∧
      Course addr req respond n (pack itemSize maxReqSize maxsgSize fuel items) requests ended := by
  induction fuel generalizing items n error with
  | zero =>
    obtain rfl := List.eq_nil_of_length_eq_zero (Nat.le_zero.mp enough)
    exact ⟨[], .ended error false, rfl, .finished error rfl fun _ within => absurd within (Nat.not_lt_zero _)⟩
  | succ fuel ih =>
    cases items with
    | nil =>
      exact ⟨[], .ended error false, rfl, .finished error rfl fun _ within => absurd within (Nat.not_lt_zero _)⟩
    | cons item rest =>
      unfold scatLoop pack
      rw [assemble_eq]
      generalize filling : fill itemSize maxReqSize maxsgSize (item :: rest) 0 0 = filled
      have whole : filled.1 ++ filled.2 = item :: rest := filling ▸ fill_append
      have less : filled.1 ≠ [] → filled.2.length < (item :: rest).length := filling ▸ fill_left_length
      obtain ⟨batch, left⟩ := filled
      dsimp only at whole less ⊢
      have takes : ∀ item ∈ batch, 0 < item.len := fun a member =>
        positive a (whole ▸ List.mem_append_left _ member)
      have leaves : ∀ item ∈ left, 0 < item.len := fun a member =>
        positive a (whole ▸ List.mem_append_right _ member)
      by_cases empty : batch = []
      · -- the first entry is too large
        rw [if_pos (.inl ((ttlLen_eq_zero takes).mpr empty)), if_pos empty]
        exact ⟨[], .refused, rfl, .refused (List.cons_ne_nil _ _) fun _ within => absurd within (Nat.not_lt_zero _)⟩
      · have blocks : ¬(ttlLen (batch.map sgSetBuf) = 0 ∨ ttlLen (batch.map sgSetBuf) % sdioBlksize ≠ 0) := by
          rintro (none | odd)
          · exact empty ((ttlLen_eq_zero takes).mp none)
          · exact odd (Nat.mod_eq_zero_of_dvd dvd_ttlLen)
        rw [if_neg blocks, if_neg empty]
        cases outcome : (respond n).failed with
        | true =>
          rw [if_pos rfl]
          exact ⟨_, _, rfl, .stopped 0 (Nat.succ_pos _) outcome fun _ within => absurd within (Nat.not_lt_zero _)⟩
        | false =>
          have fewer : left.length ≤ fuel := by
            have := less empty
            omega
          obtain ⟨requests, ended, ran, course⟩ := @ih (n + 1) left (respond n) leaves fewer
          rw [if_neg Bool.false_ne_true, ran]
          exact ⟨_, _, rfl, course.cons outcome⟩

theorem sg_transfers (batches : List (List ScatterItem)) :
    (batches.map (transfer addr req)).flatMap MmcRequest.sg = batches.flatten.map sgSetBuf := by
  rw [List.flatMap_map, List.map_flatten]
  rfl

theorem Course.taken {plan : List (List ScatterItem) × List ScatterItem}
    (course : Course addr req respond n plan requests ended) :
    ∃ m, requests = (plan.1.take m).map (transfer addr req) := by
  cases course with
  | stopped k => exact ⟨k + 1, rfl⟩
  | refused => exact ⟨plan.1.length, by rw [List.take_length]⟩
  | finished => exact ⟨plan.1.length, by rw [List.take_length]⟩

theorem Course.inOrder
    (course : Course addr req respond n (packed maxReqSize items) requests ended) :
    requests.flatMap MmcRequest.sg <+: items.map sgSetBuf := by
  obtain ⟨m, rfl⟩ := course.taken
  rw [sg_transfers]
  refine List.IsPrefix.map _ ?_
  exact (List.IsPrefix.flatten (List.take_prefix m _)).trans ⟨_, pack_flatten⟩

theorem Course.limits
    (course : Course addr req respond n (packed maxReqSize items) requests ended) :
    ∀ request ∈ requests, ttlLen request.sg ≤ maxReqSize ∧ request.sg.length ≤ maxsgSize ∧
      request.blocks * sdioBlksize = ttlLen request.sg := by
  obtain ⟨m, rfl⟩ := course.taken
  intro request member
  obtain ⟨batch, taken, rfl⟩ := List.mem_map.mp member
  have bounds : (batch.map itemSize).sum ≤ maxReqSize ∧ batch.length ≤ maxsgSize := by
    refine forall_mem_pack (P := fun batch => (batch.map itemSize).sum ≤ maxReqSize ∧ batch.length ≤ maxsgSize)
      (fun items => ⟨?_, ?_⟩) batch (List.mem_of_mem_take taken)
    · rw [← Nat.zero_add (List.sum _)]
      exact fill_weight (Nat.zero_le _)
    · rw [← Nat.zero_add (List.length _)]
      exact fill_length (Nat.zero_le _)
  refine ⟨?_, ?_, Nat.div_mul_cancel dvd_ttlLen⟩
  · show ttlLen (batch.map sgSetBuf) ≤ _
    rw [ttlLen_map]
    exact bounds.1
  · show (batch.map sgSetBuf).length ≤ _
    rw [List.length_map]
    exact bounds.2

theorem Course.all {error : MmcError} {failed : Bool}
    (course : Course addr req respond n (packed maxReqSize items) requests (.ended error failed))
    (good : ∀ i < requests.length, (respond (n + i)).failed = false) :
    requests.flatMap MmcRequest.sg = items.map sgSetBuf := by
  cases course with
  | stopped k within fails =>
    refine absurd fails ?_
    rw [good k]
    · exact Bool.false_ne_true
    · rw [List.length_map, List.length_take]
      omega
  | finished _ left =>
    have whole : (packed maxReqSize items).1.flatten ++ (packed maxReqSize items).2 = items := pack_flatten
    rw [left, List.append_nil] at whole
    rw [sg_transfers, whole]

end Loop

/-! ### The next batch -/

theorem entries_addFrame {scatReq : ScatterReq} (item : ScatterItem) :
    (scatReq.addFrame scatReq.scatCount item).entries = scatReq.entries ++ [item] := by
  unfold ScatterReq.entries ScatterReq.addFrame
  dsimp only
  rw [List.range_succ, List.map_append, List.map_singleton, Function.update_self]
  congr 1
  refine List.map_congr_left fun i within => ?_
  rw [Function.update_of_ne (Nat.ne_of_lt (List.mem_range.mp within))]

theorem entries_addFrames {scatReq : ScatterReq} (items : List ScatterItem) :
    (scatReq.addFrames scatReq.scatCount items).entries = scatReq.entries ++ items := by
  induction items generalizing scatReq with
  | nil => exact (List.append_nil _).symm
  | cons item rest ih =>
    have later := @ih (scatReq.addFrame scatReq.scatCount item)
    rw [entries_addFrame, List.append_assoc] at later
    exact later

theorem next_of_reset {scatReq : ScatterReq} (reset : scatReq.scatCount = 0) (items : List ScatterItem) :
    (scatReq.addFrames 0 items).entries = items := by
  have added := @entries_addFrames scatReq items
  have none : scatReq.entries = [] := by
    unfold ScatterReq.entries
    rw [reset]
    rfl
  rw [reset, none] at added
  exact added

/-! ### The call -/

section Call

variable {host : MmcHost} {respond : ℕ → MmcError} {scatReq : ScatterReq}

def ended (scatReq : ScatterReq) (result : Int) : ScatterReq :=
  if scatReq.req &&& hifAsynchronous ≠ 0 then { scatReq with result }.scatComplete else { scatReq with result }

theorem ended_reset {result : Int} : (ended scatReq result).scatCount = 0 ∧ (ended scatReq result).len = 0 ↔
    scatReq.req &&& hifAsynchronous ≠ 0 ∨ scatReq.scatCount = 0 ∧ scatReq.len = 0 := by
  unfold ended
  split
  case isTrue async => exact iff_of_true ⟨rfl, rfl⟩ (.inl async)
  case isFalse sync => exact (or_iff_right sync).symm

theorem packed_left (positive : ∀ item ∈ scatReq.entries, 0 < item.len) :
    (packed host.limit scatReq.entries).2 = [] ↔ ∀ item ∈ scatReq.entries, itemSize item ≤ host.limit :=
  pack_left_eq_nil (fun item member => sgDataSize_pos (positive item member)) (by decide) le_rfl

theorem right_ended {requests : List MmcRequest} {error : MmcError} {failed : Bool} {result : Int}
    (course : Course scatReq.addr scatReq.req respond 0 (packed host.limit scatReq.entries) requests
      (.ended error failed)) (positive : ∀ item ∈ scatReq.entries, 0 < item.len) :
    ScatRight host respond false scatReq ⟨ended scatReq result, failed, requests, result⟩ ↔
      Completes host respond false scatReq := by
  constructor
  · intro right
    refine .inr ⟨ended_reset.mp right.reset, ?_⟩
    cases course with
    | stopped k within fails =>
      rw [Nat.zero_add] at fails
      exact .inr ⟨k, within, fails⟩
    | finished _ left => exact .inl ((packed_left positive).mp left)
  · intro completes
    have reset : (ended scatReq result).scatCount = 0 ∧ (ended scatReq result).len = 0 :=
      ended_reset.mpr (completes.resolve_left Bool.false_ne_true).1
    refine ⟨course.inOrder, fun _ good => course.all fun i within => ?_, course.limits, reset, next_of_reset reset.1⟩
    rw [Nat.zero_add]
    exact good i within

theorem not_right_refused {requests : List MmcRequest} {busErr : Bool} {result : Int}
    (left : (packed host.limit scatReq.entries).2 ≠ []) :
    ¬ScatRight host respond busErr scatReq ⟨scatReq, busErr, requests, result⟩ := by
  intro right
  have none : scatReq.entries = [] := by
    unfold ScatterReq.entries
    rw [show scatReq.scatCount = 0 from right.reset.1]
    rfl
  rw [none] at left
  exact left rfl

end Call

/-- **The call returns**, and every entry is transferred once and in order, within the limits, and the request is left
for the next batch, if and only if it completes. -/
theorem scatReqRw_right (host : MmcHost) (respond : ℕ → MmcError) (stale : MmcError) (busErr : Bool)
    (scatReq : ScatterReq) (positive : ∀ item ∈ scatReq.entries, 0 < item.len) :
    ∃ out, scatReqRw host respond stale busErr scatReq = some out ∧
      (ScatRight host respond busErr scatReq out ↔ Completes host respond busErr scatReq) := by
  have count : scatReq.entries.length = scatReq.scatCount := by
    unfold ScatterReq.entries
    rw [List.length_map, List.length_range]
  cases busErr with
  | true =>
    refine ⟨_, rfl, iff_of_true ⟨List.nil_prefix, fun idle => (nomatch idle), fun _ member => (nomatch member),
      ⟨rfl, rfl⟩, next_of_reset rfl⟩ (.inl rfl)⟩
  | false =>
    obtain ⟨requests, last, ran, course⟩ := @scatLoop_spec scatReq.addr scatReq.req host.limit 0 respond
      scatReq.entries scatReq.scatCount stale positive count.le
    rw [← count] at course
    unfold scatReqRw
    rw [if_neg Bool.false_ne_true, ran]
    cases last with
    | ended error failed => exact ⟨_, rfl, right_ended course positive⟩
    | refused =>
      obtain ⟨left, before⟩ : (packed host.limit scatReq.entries).2 ≠ [] ∧
          ∀ i < (packed host.limit scatReq.entries).1.length, (respond (0 + i)).failed = false := by
        cases course with
        | refused left before => exact ⟨left, before⟩
      refine ⟨_, rfl, iff_of_false (not_right_refused left) ?_⟩
      rintro (busy | ⟨-, fits | ⟨k, within, fails⟩⟩)
      · exact absurd busy Bool.false_ne_true
      · exact left ((packed_left positive).mpr fits)
      · have good := before k within
        rw [Nat.zero_add, fails] at good
        exact absurd good.symm Bool.false_ne_true

def mmcHost : MmcHost := ⟨511, 0x20000⟩

def frames (len : ℕ) : ScatterReq where
  addr := 0
  req := hifWrite ||| hifAsynchronous
  len := BitVec.ofNat 32 (140 + len)
  free := false
  result := 0
  scatCount := 3
  scatList i := ⟨if i = 2 then len else 70, i⟩

theorem scatReqRw_right_frames : ∃ out, scatReqRw mmcHost (fun _ => ⟨0, 0⟩) ⟨0, 0⟩ false (frames 0x1ff00) = some out ∧
      (ScatRight mmcHost (fun _ => ⟨0, 0⟩) false (frames 0x1ff00) out ↔
        Completes mmcHost (fun _ => ⟨0, 0⟩) false (frames 0x1ff00)) :=
  scatReqRw_right mmcHost (fun _ => ⟨0, 0⟩) ⟨0, 0⟩ false (frames 0x1ff00) (by decide +kernel)

/-- The call returns behind the first two frames, with all three still counted. -/
theorem large_refused : ¬∀ out, scatReqRw mmcHost (fun _ => ⟨0, 0⟩) ⟨0, 0⟩ false (frames 0x20001) = some out →
    ScatRight mmcHost (fun _ => ⟨0, 0⟩) false (frames 0x20001) out := by
  intro right
  have reset := (right ⟨frames 0x20001, false, [mmcRequest 0 (hifWrite ||| hifAsynchronous) [⟨0, 512⟩, ⟨1, 512⟩]],
    sdiohApiRcFail⟩ rfl).reset.1
  revert reset
  decide +kernel

end W2l.Sdio
