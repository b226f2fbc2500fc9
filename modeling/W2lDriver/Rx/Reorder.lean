/-
**Release of parked frames: `aml_sdio_usb_host_reoder_handle`.**

The firmware asks for the frames of one TID whose host ids lie in a window `{start, ..,
start + length - 1}` of `1 .. 4096`, taken cyclically: in the descriptor that is being handled, and in
`reorder_info`, one entry for each TID, when the reorder timer of the firmware ran out.

* `scanReorderList`, `releaseWindow`, `amlSdioUsbHostReoderHandle` — the loops of the source.
* `Release`, `serve` — what a request asks for: window and TID, and the frames it lets go.
* `exceptHostid_window` — the macro `EXCEPT_HOSTID` walks through the window, past 4096 to 1.
-/

import W2lDriver.Rx.Skb
import W2lDriver.Lib.Extract

namespace W2l.Rx

open RxState
open BitVec (lt_def toNat_ofNat)

/-! ### The loops of the source -/

def getTid (x : BitVec 32) : BitVec 32 := (x >>> 8) &&& 0xf

def exceptHostid (x : BitVec 32) : BitVec 32 := if 4096 < x then x % 4096 else x

def Hit (rxdata : Node → Rxdata) (hostid tid : BitVec 32) (n : Node) : Prop :=
  (rxdata n).hostId = hostid ∧ getTid (rxdata n).packageInfo = tid

instance (rxdata : Node → Rxdata) (hostid tid : BitVec 32) (n : Node) : Decidable (Hit rxdata hostid tid n) :=
  inferInstanceAs (Decidable (_ ∧ _))

/-- `list_for_each_entry_safe` over `reorder_list`: the frames with this id and TID are handled. -/
def scanReorderList (env : Node → RxEnv) (hostid tid : BitVec 32) :
    List Node → RxState × RxDescHead → RxState × RxDescHead
  | [], now => now
  | n :: rest, now =>
    if Hit now.1.rxdata hostid tid n then
      let handled := rxSkbHandle (env n) now.1 now.2 (some n)
      scanReorderList env hostid tid rest (handled.1, handled.2.1)
    else scanReorderList env hostid tid rest now

def releaseWindow (env : Node → RxEnv) (start tid : BitVec 32) :
    List Nat → RxState × RxDescHead → RxState × RxDescHead
  | [], now => now
  | j :: rest, now =>
    releaseWindow env start tid rest
      (scanReorderList env (exceptHostid (start + BitVec.ofNat 32 j)) tid now.1.reorderList now)

/-- `reorder_info[i].hostid != 0 && reorder_info[i].reorder_len != 0`. -/
def RxReorderInfo.pending (info : RxReorderInfo) : Bool :=
  info.hostid != 0 && info.reorderLen != 0

def serveTimeout (env : Node → RxEnv) (now : RxState × RxDescHead) (i : Nat) : RxState × RxDescHead :=
  let info := now.1.reorderInfo i
  if info.pending then
    let done := releaseWindow env info.hostid (getTid info.reorderLen) (List.range (info.reorderLen &&& 0xff).toNat)
      (now.1, { now.2 with status := rxStatForward })
    ({ done.1 with reorderInfo := Function.update done.1.reorderInfo i {} }, done.2)
  else now

def amlSdioUsbHostReoderHandle (env : Node → RxEnv) (s : RxState) (descStat : RxDescHead)
    (reorderHostidStart reorderLen : BitVec 32) : RxState × RxDescHead :=
  let served := (List.range 8).foldl (serveTimeout env) (s, descStat)
  if reorderHostidStart ≠ 0 ∧ reorderLen ≠ 0 then
    releaseWindow env reorderHostidStart (getTid served.2.packageInfo)
      (List.range reorderLen.toNat) (served.1, { served.2 with status := rxStatForward })
  else served

/-! ### What a request asks for -/

/-- The frames of a TID in a cyclic window of host ids. -/
structure Release where
  start : Nat
  length : Nat
  tid : BitVec 32
  deriving DecidableEq

namespace Release

def window (r : Release) : List (BitVec 32) :=
  (List.range r.length).map fun j => BitVec.ofNat 32 ((r.start - 1 + j) % 4096 + 1)

def Covers (r : Release) (frame : Rxdata) : Prop :=
  frame.hostId ∈ r.window ∧ getTid frame.packageInfo = r.tid

instance (r : Release) (frame : Rxdata) : Decidable (r.Covers frame) :=
  inferInstanceAs (Decidable (_ ∧ _))

/-- The frames that were asked for, in window order. -/
def letsGo (r : Release) (rxdata : Node → Rxdata) (stored : List Node) : List Node :=
  r.window.flatMap fun id => stored.filter fun n => Hit rxdata id r.tid n

def leaves (r : Release) (rxdata : Node → Rxdata) (stored : List Node) : List Node :=
  stored.filter fun n => ¬ r.Covers (rxdata n)

/-- A request the firmware may make: the window starts in `1 .. 4096` and meets no id twice. -/
structure Wf (r : Release) : Prop where
  start : 1 ≤ r.start ∧ r.start ≤ 4096
  length : r.length ≤ 4096

end Release

/-- The frames a list of requests lets go, request by request, and those it leaves. -/
def serve (rxdata : Node → Rxdata) : List Release → List Node → List Node × List Node
  | [], stored => ([], stored)
  | r :: rest, stored =>
    let later := serve rxdata rest (r.leaves rxdata stored)
    (r.letsGo rxdata stored ++ later.1, later.2)

/-- The requests of one call: the pending entries of `reorder_info`, then the descriptor's own. -/
def timeoutRequest (info : RxReorderInfo) : Option Release :=
  if info.pending then
    some ⟨info.hostid.toNat, (info.reorderLen &&& 0xff).toNat, getTid info.reorderLen⟩
  else none

def ownRequest (packageInfo start length : BitVec 32) : List Release :=
  if start ≠ 0 ∧ length ≠ 0 then [⟨start.toNat, length.toNat, getTid packageInfo⟩] else []

def requests (info : Nat → RxReorderInfo) (packageInfo start length : BitVec 32) : List Release :=
  (List.range 8).filterMap (fun i => timeoutRequest (info i)) ++ ownRequest packageInfo start length

theorem exceptHostid_window {start : BitVec 32} {j : Nat} (low : 1 ≤ start.toNat)
    (high : start.toNat ≤ 4096) (near : j < 4096) :
    exceptHostid (start + BitVec.ofNat 32 j) = BitVec.ofNat 32 ((start.toNat - 1 + j) % 4096 + 1) := by
  have sum : (start + BitVec.ofNat 32 j).toNat = start.toNat + j := by
    rw [BitVec.toNat_add, toNat_ofNat]
    omega
  have last : (4096 : BitVec 32).toNat = 4096 := rfl
  unfold exceptHostid
  apply BitVec.eq_of_toNat_eq
  by_cases past : (4096 : BitVec 32) < start + BitVec.ofNat 32 j
  · rw [if_pos past, BitVec.toNat_umod, sum, toNat_ofNat, last]
    rw [lt_def, sum, last] at past
    omega
  · rw [if_neg past, sum, toNat_ofNat]
    rw [lt_def, sum, last] at past
    omega

theorem Release.Wf.nodup {r : Release} (wf : r.Wf) : r.window.Nodup := by
  refine List.Nodup.map_on ?_ List.nodup_range
  intro i left j right same
  have values := congrArg BitVec.toNat same
  have lengths := wf.length
  have starts := wf.start
  rw [List.mem_range] at left right
  simp only [toNat_ofNat] at values
  omega

/-! ### The loops serve the requests -/

/-- The frames released so far, oldest first, each with the id and the length it was released under. -/
def forwards (log : List RxEvent) : List (Skb × BitVec 32 × BitVec 32) :=
  log.reverse.filterMap fun
    | .forward skb hostid frameLen => some (skb, hostid, frameLen)
    | _ => none

def RxState.frame (s : RxState) (n : Node) : Skb × BitVec 32 × BitVec 32 :=
  ((s.rxdata n).skb, (s.rxdata n).hostId, (s.rxdata n).frameLen)

/-- The state after the frames `out` were released, with `stored` left on `reorder_list`. -/
structure ReleasedTo (s s' : RxState) (out stored : List Node) : Prop where
  stored : s'.reorderList = stored
  out : forwards s'.log = forwards s.log ++ out.map s.frame
  rxdata : s'.rxdata = s.rxdata

theorem ReleasedTo.refl (s : RxState) : ReleasedTo s s [] s.reorderList :=
  ⟨rfl, by simp, rfl⟩

theorem ReleasedTo.trans {s₁ s₂ s₃ : RxState} {out₁ out₂ stored₁ stored₂ : List Node}
    (first : ReleasedTo s₁ s₂ out₁ stored₁) (second : ReleasedTo s₂ s₃ out₂ stored₂) :
    ReleasedTo s₁ s₃ (out₁ ++ out₂) stored₂ where
  stored := second.stored
  out := by
    have same : s₂.frame = s₁.frame := funext fun n => by
      unfold RxState.frame
      rw [first.rxdata]
    rw [second.out, first.out, same, List.map_append, List.append_assoc]
  rxdata := second.rxdata.trans first.rxdata

theorem has_forward : has rxStatForward rxStatDelete = false ∧
    has rxStatForward rxStatMonitor = false ∧ has rxStatForward rxStatLenUpdate = false ∧
    has rxStatForward rxStatSpurious = false ∧ has rxStatForward rxStatForward = true := by
  decide

/-- The scans forward, and leave the request alone they work for. -/
structure Forwarding (now now' : RxState × RxDescHead) : Prop where
  status : now'.2.status = rxStatForward
  packageInfo : now'.2.packageInfo = now.2.packageInfo
  info : now'.1.reorderInfo = now.1.reorderInfo

theorem Forwarding.trans {now₁ now₂ now₃ : RxState × RxDescHead} (first : Forwarding now₁ now₂)
    (second : Forwarding now₂ now₃) : Forwarding now₁ now₃ :=
  ⟨second.status, second.packageInfo.trans first.packageInfo, second.info.trans first.info⟩

theorem rxSkbHandle_release (env : RxEnv) (now : RxState × RxDescHead) (n : Node)
    (status : now.2.status = rxStatForward) :
    let handled := rxSkbHandle env now.1 now.2 (some n)
    ReleasedTo now.1 handled.1 [n] (now.1.reorderList.erase n) ∧ Forwarding now (handled.1, handled.2.1) := by
  obtain ⟨delete, monitor, length, spurious, forward⟩ := has_forward
  obtain ⟨s, desc⟩ := now
  have handled : rxSkbHandle env s desc (some n) = (((s.amlPutRxdataBackToFreeList n).emit
          (.forward (s.rxdata n).skb (s.rxdata n).hostId (s.rxdata n).frameLen)).emit
          (.gone (s.rxdata n).skb (forwardFate env (s.hwRxhdr (s.rxdata n).skb))),
        { desc with frameLen := (s.rxdata n).frameLen, hostid := (s.rxdata n).hostId }, 0) := by
    simp only [rxSkbHandle, handleParked, forwardHandle, checkLenUpdate,
      show desc.status = rxStatForward from status, delete, monitor, length, spurious, forward,
      Bool.false_eq_true, false_and, if_false, if_true]
  simp only [handled]
  refine ⟨⟨rfl, ?_, rfl⟩, ⟨status, rfl, rfl⟩⟩
  simp [forwards, RxState.emit, RxState.frame, amlPutRxdataBackToFreeList]

variable (env : Node → RxEnv)

theorem scanReorderList_part (hostid tid : BitVec 32)
    (rxdata : Node → Rxdata) (nodes : List Node) (now : RxState × RxDescHead)
    (status : now.2.status = rxStatForward) (same : now.1.rxdata = rxdata)
    (nodup : now.1.reorderList.Nodup) (distinct : nodes.Nodup)
    (linked : ∀ n ∈ nodes, n ∈ now.1.reorderList) :
    ReleasedTo now.1 (scanReorderList env hostid tid nodes now).1 (nodes.filter fun n => Hit rxdata hostid tid n)
        (now.1.reorderList.filter fun n => ¬ (n ∈ nodes ∧ Hit rxdata hostid tid n)) ∧
      Forwarding now (scanReorderList env hostid tid nodes now) := by
  induction nodes generalizing now with
  | nil =>
    refine ⟨?_, ⟨status, rfl, rfl⟩⟩
    simpa [scanReorderList] using ReleasedTo.refl now.1
  | cons n rest ih =>
    obtain ⟨fresh, restDistinct⟩ := List.nodup_cons.mp distinct
    by_cases hit : Hit rxdata hostid tid n
    · obtain ⟨first, forwarding⟩ := rxSkbHandle_release (env n) now n status
      have unfolded : scanReorderList env hostid tid (n :: rest) now =
          scanReorderList env hostid tid rest ((rxSkbHandle (env n) now.1 now.2 (some n)).1,
            (rxSkbHandle (env n) now.1 now.2 (some n)).2.1) := by
        rw [scanReorderList, same, if_pos hit]
      generalize rxSkbHandle (env n) now.1 now.2 (some n) = handled at *
      have stays : ∀ m ∈ rest, m ∈ handled.1.reorderList := by
        intro m later
        rw [first.stored]
        refine (List.mem_erase_of_ne ?_).mpr (linked m (by simp [later]))
        rintro rfl
        exact fresh later
      obtain ⟨second, forwarding'⟩ := ih (handled.1, handled.2.1) forwarding.status
        (first.rxdata.trans same) (first.stored ▸ nodup.erase n) restDistinct stays
      have left : now.1.reorderList.filter (fun m => ¬ (m ∈ n :: rest ∧ Hit rxdata hostid tid m)) =
          handled.1.reorderList.filter (fun m => ¬ (m ∈ rest ∧ Hit rxdata hostid tid m)) := by
        rw [first.stored, nodup.erase_eq_filter, List.filter_filter]
        refine List.filter_congr fun m _ => ?_
        by_cases here : m = n
        · simp [here, hit]
        · simp [here]
      rw [unfolded, List.filter_cons_of_pos (by simp [hit]), left]
      exact ⟨first.trans second, forwarding.trans forwarding'⟩
    · have unfolded : scanReorderList env hostid tid (n :: rest) now = scanReorderList env hostid tid rest now := by
        rw [scanReorderList, same, if_neg hit]
      have left : now.1.reorderList.filter (fun m => ¬ (m ∈ n :: rest ∧ Hit rxdata hostid tid m)) =
          now.1.reorderList.filter (fun m => ¬ (m ∈ rest ∧ Hit rxdata hostid tid m)) := by
        refine List.filter_congr fun m _ => ?_
        by_cases here : m = n
        · simp [here, hit, fresh]
        · simp [here]
      rw [unfolded, List.filter_cons_of_neg (by simp [hit]), left]
      exact ih now status same nodup restDistinct fun m later => linked m (by simp [later])

theorem matching_eq_hit (rxdata : Node → Rxdata) (hostid tid : BitVec 32) (nodes : List Node) :
    W2l.Lib.matching (fun n => (rxdata n).hostId) (fun n => getTid (rxdata n).packageInfo == tid)
      hostid nodes = nodes.filter fun n => Hit rxdata hostid tid n := by
  refine List.filter_congr fun n _ => ?_
  rw [Bool.eq_iff_iff, decide_eq_true_iff, decide_eq_true_iff, beq_iff_eq]
  exact Iff.rfl

/-- The frames of a TID with one of these ids, and the others. -/
def takeOut (rxdata : Node → Rxdata) (tid : BitVec 32) (ids : List (BitVec 32))
    (stored : List Node) : List Node × List Node :=
  W2l.Lib.extract (fun n => (rxdata n).hostId) (fun n => getTid (rxdata n).packageInfo == tid) ids
    stored

theorem releaseWindow_spec {start tid : BitVec 32}
    (rxdata : Node → Rxdata) (low : 1 ≤ start.toNat) (high : start.toNat ≤ 4096) (js : List Nat)
    (near : ∀ j ∈ js, j < 4096) (now : RxState × RxDescHead)
    (status : now.2.status = rxStatForward) (same : now.1.rxdata = rxdata)
    (nodup : now.1.reorderList.Nodup) :
    let out := takeOut rxdata tid
      (js.map fun j => BitVec.ofNat 32 ((start.toNat - 1 + j) % 4096 + 1)) now.1.reorderList
    ReleasedTo now.1 (releaseWindow env start tid js now).1 out.1 out.2 ∧
      Forwarding now (releaseWindow env start tid js now) := by
  induction js generalizing now with
  | nil => exact ⟨.refl now.1, status, rfl, rfl⟩
  | cons j rest ih =>
    have id := exceptHostid_window low high (near j (by simp))
    obtain ⟨first, forwarding⟩ := scanReorderList_part env
      (exceptHostid (start + BitVec.ofNat 32 j)) tid rxdata now.1.reorderList now status
      same nodup nodup fun n linked => linked
    have left : (now.1.reorderList.filter fun n => ¬ (n ∈ now.1.reorderList ∧
          Hit rxdata (exceptHostid (start + BitVec.ofNat 32 j)) tid n)) =
        now.1.reorderList.filter fun n => ¬ ((rxdata n).hostId = exceptHostid (start + BitVec.ofNat 32 j) ∧
          (getTid (rxdata n).packageInfo == tid) = true) := by
      refine List.filter_congr fun n linked => ?_
      simp [linked, Hit]
    obtain ⟨second, forwarding'⟩ := ih (fun i later => near i (by simp [later])) _
      forwarding.status (first.rxdata.trans same) (first.stored ▸ nodup.filter _)
    rw [first.stored, left] at second
    refine ⟨?_, forwarding.trans forwarding'⟩
    rw [List.map_cons, ← id, takeOut, W2l.Lib.extract, matching_eq_hit]
    exact first.trans second

/-! ### The whole call -/

/-- An entry of `reorder_info` after it was looked at. -/
def RxReorderInfo.cleared (info : RxReorderInfo) : RxReorderInfo :=
  if info.pending then {} else info

theorem takeOut_eq {r : Release} (wf : r.Wf) (rxdata : Node → Rxdata) (stored : List Node) :
    takeOut rxdata r.tid r.window stored = (r.letsGo rxdata stored, r.leaves rxdata stored) := by
  rw [takeOut, W2l.Lib.extract_eq wf.nodup]
  simp only [matching_eq_hit]
  refine Prod.ext rfl (List.filter_congr fun n _ => ?_)
  simp [Release.Covers]

variable {rs : List Release}

section

variable (rxdata : Node → Rxdata)

include rxdata

theorem serve_perm (wf : ∀ r ∈ rs, r.Wf)
    (stored : List Node) :
    ((serve rxdata rs stored).1 ++ (serve rxdata rs stored).2).Perm stored := by
  induction rs generalizing stored with
  | nil => exact .refl _
  | cons r rs ih =>
    have scans := @W2l.Lib.extract_perm _ _ _ (fun n => (rxdata n).hostId)
      (fun n => getTid (rxdata n).packageInfo == r.tid) r.window stored
    rw [← takeOut, takeOut_eq (wf r (by simp))] at scans
    rw [serve, List.append_assoc]
    exact ((ih (fun r' later => wf r' (by simp [later])) _).append_left _).trans scans

theorem serve_stored (rs : List Release) (stored : List Node) :
    (serve rxdata rs stored).2 = stored.filter fun n => ∀ r ∈ rs, ¬ r.Covers (rxdata n) := by
  induction rs generalizing stored with
  | nil => simp [serve]
  | cons r rs ih =>
    rw [serve, ih, Release.leaves, List.filter_filter]
    refine List.filter_congr fun n _ => ?_
    simp [Bool.and_comm]

theorem serve_append (rs rs' : List Release) (stored : List Node) :
    serve rxdata (rs ++ rs') stored = ((serve rxdata rs stored).1 ++ (serve rxdata rs' (serve rxdata rs stored).2).1,
        (serve rxdata rs' (serve rxdata rs stored).2).2) := by
  induction rs generalizing stored with
  | nil => rfl
  | cons r rs ih =>
    rw [List.cons_append, serve, ih]
    simp only [serve, List.append_assoc]

end

theorem serve_nodup {rxdata : Node → Rxdata} {stored : List Node}
    (nodup : stored.Nodup) : (serve rxdata rs stored).2.Nodup :=
  serve_stored rxdata rs stored ▸ nodup.filter _

theorem releaseWindow_serve {start tid : BitVec 32} {length : Nat}
    (rxdata : Node → Rxdata) (wf : (⟨start.toNat, length, tid⟩ : Release).Wf)
    (now : RxState × RxDescHead) (status : now.2.status = rxStatForward)
    (same : now.1.rxdata = rxdata) (nodup : now.1.reorderList.Nodup) :
    let out := serve rxdata [⟨start.toNat, length, tid⟩] now.1.reorderList
    ReleasedTo now.1 (releaseWindow env start tid (List.range length) now).1 out.1 out.2 ∧
      Forwarding now (releaseWindow env start tid (List.range length) now) := by
  have near : ∀ j ∈ List.range length, j < 4096 := fun j member =>
    Nat.lt_of_lt_of_le (List.mem_range.mp member) wf.length
  have scans := @releaseWindow_spec env start tid rxdata wf.start.1 wf.start.2 _ near now status
    same nodup
  have asked := takeOut_eq wf rxdata now.1.reorderList
  simp only [Release.window] at asked
  simp only [serve, List.append_nil]
  rwa [asked] at scans

theorem serveTimeout_spec (rxdata : Node → Rxdata) (i : Nat)
    (now : RxState × RxDescHead) (same : now.1.rxdata = rxdata)
    (nodup : now.1.reorderList.Nodup)
    (wf : ∀ r ∈ timeoutRequest (now.1.reorderInfo i), r.Wf) :
    let out := serve rxdata (timeoutRequest (now.1.reorderInfo i)).toList now.1.reorderList
    ReleasedTo now.1 (serveTimeout env now i).1 out.1 out.2 ∧
      (serveTimeout env now i).2.packageInfo = now.2.packageInfo ∧
      (serveTimeout env now i).1.reorderInfo = Function.update now.1.reorderInfo i (now.1.reorderInfo i).cleared := by
  unfold serveTimeout timeoutRequest RxReorderInfo.cleared
  cases pending : (now.1.reorderInfo i).pending with
  | false =>
    simp only [pending, Bool.false_eq_true, if_false, Function.update_eq_self]
    exact ⟨.refl now.1, trivial, trivial⟩
  | true =>
    have request := wf _ (by rw [timeoutRequest, pending]; rfl)
    obtain ⟨released, forwarding⟩ := releaseWindow_serve env rxdata request
      (now.1, { now.2 with status := rxStatForward }) rfl same nodup
    simp only [pending, if_true]
    refine ⟨⟨released.stored, released.out, released.rxdata⟩, forwarding.packageInfo, ?_⟩
    rw [forwarding.info]

theorem serveTimeouts_spec (rxdata : Node → Rxdata) (is : List Nat)
    (distinct : is.Nodup) (now : RxState × RxDescHead) (same : now.1.rxdata = rxdata)
    (nodup : now.1.reorderList.Nodup)
    (wf : ∀ i ∈ is, ∀ r ∈ timeoutRequest (now.1.reorderInfo i), r.Wf) :
    let done := is.foldl (serveTimeout env) now
    let out := serve rxdata (is.filterMap fun i => timeoutRequest (now.1.reorderInfo i))
      now.1.reorderList
    ReleasedTo now.1 done.1 out.1 out.2 ∧ done.2.packageInfo = now.2.packageInfo ∧ ∀ i, done.1.reorderInfo i =
        if i ∈ is then (now.1.reorderInfo i).cleared else now.1.reorderInfo i := by
  induction is generalizing now with
  | nil => exact ⟨.refl now.1, rfl, fun i => by simp⟩
  | cons i rest ih =>
    obtain ⟨fresh, restDistinct⟩ := List.nodup_cons.mp distinct
    obtain ⟨first, packageInfo, info⟩ :=
      serveTimeout_spec env rxdata i now same nodup (wf i (by simp))
    have others : ∀ j ∈ rest, (serveTimeout env now i).1.reorderInfo j = now.1.reorderInfo j := by
      intro j later
      rw [info, Function.update_of_ne]
      rintro rfl
      exact fresh later
    obtain ⟨second, packageInfo', info'⟩ := ih restDistinct (serveTimeout env now i)
      (first.rxdata.trans same) (first.stored ▸ serve_nodup nodup)
      fun j later => others j later ▸ wf j (by simp [later])
    have laterRequests : (rest.filterMap fun j =>
          timeoutRequest ((serveTimeout env now i).1.reorderInfo j)) =
        rest.filterMap fun j => timeoutRequest (now.1.reorderInfo j) :=
      List.filterMap_congr fun j later => by rw [others j later]
    have split : ((i :: rest).filterMap fun j => timeoutRequest (now.1.reorderInfo j)) =
        (timeoutRequest (now.1.reorderInfo i)).toList ++
          rest.filterMap fun j => timeoutRequest (now.1.reorderInfo j) := by
      rw [List.filterMap_cons]
      cases timeoutRequest (now.1.reorderInfo i) <;> rfl
    rw [first.stored, laterRequests] at second
    simp only [split, serve_append, List.foldl_cons]
    refine ⟨first.trans second, packageInfo'.trans packageInfo, fun j => ?_⟩
    rw [info' j, info]
    by_cases here : j = i
    · subst here
      simp [fresh]
    · simp [here]

/-- The frames `out` left, those of `stored` stay: each frame that was asked for and no other. -/
structure ServedExactly (s s' : RxState) (rs : List Release) : Prop where
  /-- Request by request and in window order, each frame with its own id and length. -/
  out : forwards s'.log = forwards s.log ++ (serve s.rxdata rs s.reorderList).1.map s.frame
  /-- The frames that no request covers stay, in order. -/
  stored : s'.reorderList = s.reorderList.filter fun n => ∀ r ∈ rs, ¬ r.Covers (s.rxdata n)
  once : ((serve s.rxdata rs s.reorderList).1 ++ s'.reorderList).Perm s.reorderList
  rxdata : s'.rxdata = s.rxdata

theorem ReleasedTo.exactly {s s' : RxState} (wf : ∀ r ∈ rs, r.Wf)
    (released : ReleasedTo s s' (serve s.rxdata rs s.reorderList).1
      (serve s.rxdata rs s.reorderList).2) : ServedExactly s s' rs where
  out := released.out
  stored := released.stored.trans (serve_stored _ _ _)
  once := released.stored ▸ serve_perm s.rxdata wf s.reorderList
  rxdata := released.rxdata

/-- **Reorder release.** Whatever is parked and whatever timers ran out, the call forwards exactly the
frames that were asked for, in window order and under their own id and length, leaves the others in
place and clears the entries it served. A window has 4096 ids at most; the callers mask the length
with `0xFF`. -/
theorem reorder_release (env : Node → RxEnv) (s : RxState) (desc : RxDescHead)
    (start length : BitVec 32) (nodup : s.reorderList.Nodup)
    (wf : ∀ r ∈ requests s.reorderInfo desc.packageInfo start length, r.Wf) :
    let s' := (amlSdioUsbHostReoderHandle env s desc start length).1
    ServedExactly s s' (requests s.reorderInfo desc.packageInfo start length) ∧
      ∀ i < 8, s'.reorderInfo i = (s.reorderInfo i).cleared := by
  have timeoutsWf : ∀ i ∈ List.range 8, ∀ r ∈ timeoutRequest (s.reorderInfo i), r.Wf := by
    intro i member r request
    refine wf r (List.mem_append_left _ ?_)
    exact List.mem_filterMap.mpr ⟨i, member, request⟩
  obtain ⟨first, packageInfo, info⟩ :=
    serveTimeouts_spec env s.rxdata (List.range 8) List.nodup_range (s, desc) rfl nodup timeoutsWf
  have entries : ∀ i < 8, ((List.range 8).foldl (serveTimeout env) (s, desc)).1.reorderInfo i =
      (s.reorderInfo i).cleared := by
    intro i below
    rw [info i, if_pos (List.mem_range.mpr below)]
  unfold amlSdioUsbHostReoderHandle
  generalize (List.range 8).foldl (serveTimeout env) (s, desc) = served at *
  by_cases own : start ≠ 0 ∧ length ≠ 0
  · have ownWf : (⟨start.toNat, length.toNat, getTid served.2.packageInfo⟩ : Release).Wf :=
      packageInfo ▸ wf _ (List.mem_append_right _ (by rw [ownRequest, if_pos own]; exact List.mem_singleton_self _))
    obtain ⟨second, forwarding⟩ := releaseWindow_serve env s.rxdata ownWf
      (served.1, { served.2 with status := rxStatForward }) rfl first.rxdata
      (first.stored ▸ serve_nodup nodup)
    simp only [if_pos own]
    refine ⟨ReleasedTo.exactly wf ?_, fun i below => ?_⟩
    · rw [first.stored] at second
      have both := first.trans second
      have tid : served.2.packageInfo = desc.packageInfo := packageInfo
      rw [requests, ownRequest, if_pos own, serve_append, ← tid]
      exact both
    · rw [forwarding.info]
      exact entries i below
  · simp only [if_neg own]
    refine ⟨ReleasedTo.exactly wf ?_, entries⟩
    rw [requests, ownRequest, if_neg own, List.append_nil]
    exact first

/-- Ids 4096 and 1 of TID 3 are released in this order, id 1 of TID 4 stays. -/
theorem reorder_release_wraps : let parked : RxState :=
      { reorderList := [0, 1, 2], freeRxdataList := [], rxdata := fun n =>
          if n = 0 then { hostId := 1, frameLen := 60, packageInfo := 0x301, skb := 10 }
          else if n = 1 then { hostId := 1, frameLen := 61, packageInfo := 0x401, skb := 11 }
          else { hostId := 4096, frameLen := 62, packageInfo := 0x301, skb := 12 } }
    let s' := (amlSdioUsbHostReoderHandle (fun _ => {}) parked { packageInfo := 0x302 } 4096 2).1
    forwards s'.log = [(12, 4096, 62), (10, 1, 60)] ∧ s'.reorderList = [1] ∧
      ServedExactly parked s' [⟨4096, 2, 3⟩] := by
  have asked : requests (fun _ => {}) 0x302 4096 2 = [⟨4096, 2, 3⟩] := by decide
  refine ⟨by decide, by decide, ?_⟩
  refine asked ▸ (reorder_release _ _ _ _ _ (by decide) ?_).1
  intro r request
  obtain rfl := List.mem_singleton.mp (asked ▸ request)
  exact ⟨by decide, by decide⟩

end W2l.Rx
