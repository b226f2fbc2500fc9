/-
**The payloads of scan results.**

`aml_scan_rx`, `aml_scan_find_already_saved`, `aml_scan_clear_scan_res` (`fullmac/aml_rx.c`),
`aml_sdio_rx_scanu_result_ind` (`aml_msg_rx.c`). On SDIO and USB the beacons and probe responses of a
scan are saved, one for each BSSID, until the results are taken. Their bytes are stored one behind the
other in `scanres_payload_buf`; where a frame does not fit behind the last one, it is stored at the
start.

* `ScanBuf`, `ScanBuf.rx`, `ScanBuf.taken` — the buffer, a received frame, the results taken.
* `PayloadsKept` — the payloads lie apart and inside the buffer and hold their frames, and a frame is
  found if and only if one of its BSSID was saved.
* `RoomKept` — **no frame is stored past the first payload of the scan**.
-/

import W2lDriver.Lib.Bytes
import W2lDriver.Lib.System

namespace W2l.Scan

open Lib
open List (mem_append mem_singleton not_mem_nil)
open Option (some.inj)

/-! ### The code -/

/-- `SCAN_RESULTS_MAX_CNT`, and the length of `scanres_payload_buf`. -/
def scanResultsMaxCnt : ℕ := 50
def scanresPayloadBufLen : ℕ := scanResultsMaxCnt * 500

/-- `bssid` of the `struct ieee80211_mgmt` at a position. -/
def bssidAt (mem : ℕ → Byte) (off : ℕ) : List Byte := slice mem (off + 16) 6

/-- A received frame: `hwvect.len`, and the memory from `skb->data` on. -/
structure RxFrame where
  len : BitVec 32
  data : ℕ → Byte

namespace RxFrame

def bssid (f : RxFrame) : List Byte := bssidAt f.data 0

/-- `ieee80211_is_beacon`, `ieee80211_is_probe_resp`. -/
def isResult (f : RxFrame) : Bool := f.data 0 &&& 0xfc = 0x80 ∨ f.data 0 &&& 0xfc = 0x50

end RxFrame

/-- `struct scan_results`, with the frame it was saved for. -/
structure ScanRes where
  payload : ℕ
  length : BitVec 32
  frame : RxFrame

/-- The part of `struct aml_hw` that saves the results, and the frames saved since the results were
taken last. -/
structure ScanBuf where
  scanRequest : Bool := false
  scanresPayloadBuf : ℕ → Byte := fun _ => 0
  scanresPayloadBufOffset : BitVec 32 := 0
  scanResList : List ScanRes := []
  /-- The length of `scan_res_avilable_list`. -/
  available : ℕ := scanResultsMaxCnt
  saved : List RxFrame := []

namespace ScanBuf

variable (s : ScanBuf) (f : RxFrame)

/-- `aml_scan_find_already_saved`. -/
def findAlreadySaved : Bool :=
  s.scanResList.any fun r => bssidAt s.scanresPayloadBuf r.payload = f.bssid

def place : ℕ :=
  if scanresPayloadBufLen < (s.scanresPayloadBufOffset + f.len).toNat then 0
  else s.scanresPayloadBufOffset.toNat

/-- `aml_scan_rx`. -/
def rx : ScanBuf :=
  if s.scanRequest = false ∨ f.isResult = false then s
  else if s.findAlreadySaved f then s
  else if s.available = 0 then s
  else
    { s with
      scanresPayloadBuf := fun k =>
        if s.place f ≤ k ∧ k < s.place f + f.len.toNat then f.data (k - s.place f)
        else s.scanresPayloadBuf k
      scanresPayloadBufOffset := BitVec.ofNat 32 (s.place f) + f.len
      scanResList := s.scanResList ++ [⟨s.place f, f.len, f⟩]
      available := s.available - 1
      saved := s.saved ++ [f] }

/-- `aml_scan_clear_scan_res`, and `aml_sdio_rx_scanu_result_ind`, which hands the results on. -/
def taken : ScanBuf :=
  { s with
    scanResList := []
    available := s.available + s.scanResList.length
    saved := [] }

end ScanBuf

/-- The request, a received frame, and the results taken. -/
inductive ScanBufAct
  | request (on : Bool)
  | rx (f : RxFrame)
  | taken

/-- `aml_scan_results_list_init`, and the calls. -/
def scanBufSystem : System ScanBuf ScanBufAct where
  init := {}
  step s
    | .request on => some { s with scanRequest := on }
    | .rx f => some (s.rx f)
    | .taken => some s.taken

/-! ### The property -/

def Apart (off n off' n' : ℕ) : Prop := off + n ≤ off' ∨ off' + n' ≤ off

instance (off n off' n' : ℕ) : Decidable (Apart off n off' n') :=
  inferInstanceAs (Decidable (_ ∨ _))

/-- **The payloads are kept.** -/
structure PayloadsKept (s : ScanBuf) : Prop where
  inside : ∀ r ∈ s.scanResList, r.payload + r.length.toNat ≤ scanresPayloadBufLen
  apart : s.scanResList.Pairwise fun r r' => Apart r.payload r.length.toNat r'.payload r'.length.toNat
  bytes : ∀ r ∈ s.scanResList, ∀ k < r.length.toNat, s.scanresPayloadBuf (r.payload + k) = r.frame.data k
  found : ∀ f, s.findAlreadySaved f = true ↔ ∃ g ∈ s.saved, g.bssid = f.bssid

def ScanBuf.saves (s : ScanBuf) (f : RxFrame) : Bool :=
  s.scanRequest && f.isResult && !s.findAlreadySaved f && decide (s.available ≠ 0)

/-- The frame has a BSSID, it is not longer than the buffer, and it does not run into the first payload:
before the storage starts over, it fits behind the last payload or in front of the first one; afterwards
it fits between them. -/
def Room (s : ScanBuf) (f : RxFrame) : Prop :=
  22 ≤ f.len.toNat ∧ f.len.toNat ≤ scanresPayloadBufLen ∧ ∀ first ∈ s.scanResList.head?,
    if first.payload < s.scanresPayloadBufOffset.toNat then
      s.scanresPayloadBufOffset.toNat + f.len.toNat ≤ scanresPayloadBufLen ∨ f.len.toNat ≤ first.payload
    else s.scanresPayloadBufOffset.toNat + f.len.toNat ≤ first.payload

instance (s : ScanBuf) (f : RxFrame) : Decidable (Room s f) := inferInstanceAs (Decidable (_ ∧ _ ∧ _))

/-- **There is room for the frames that are saved.** -/
def RoomKept (s : ScanBuf) : ScanBufAct → Prop
  | .rx f => s.saves f = true → Room s f
  | _ => True

instance (s : ScanBuf) : ∀ a, Decidable (RoomKept s a)
  | .rx f => inferInstanceAs (Decidable (s.saves f = true → Room s f))
  | .request _ | .taken => .isTrue trivial

/-! ### The invariant -/

/-- The payloads lie between the first one and the offset, and where the storage has started over, one
lies at the start. -/
structure Ring (list : List ScanRes) (offset : ℕ) : Prop where
  ahead : ∀ first ∈ list.head?, first.payload < offset →
    ∀ r ∈ list, first.payload ≤ r.payload ∧ r.payload + r.length.toNat ≤ offset
  around : ∀ first ∈ list.head?, offset ≤ first.payload →
    (∀ r ∈ list, r.payload + r.length.toNat ≤ offset ∨ first.payload ≤ r.payload) ∧ ∃ r ∈ list, r.payload = 0

/-- The payloads are kept, the entries are of the frames saved, and the offset is inside the buffer. -/
structure ScanBufInv (s : ScanBuf) : Prop where
  kept : PayloadsKept s
  offset : s.scanresPayloadBufOffset.toNat ≤ scanresPayloadBufLen
  ring : Ring s.scanResList s.scanresPayloadBufOffset.toNat
  saved : s.saved = s.scanResList.map ScanRes.frame
  length : ∀ r ∈ s.scanResList, r.length = r.frame.len ∧ 22 ≤ r.length.toNat

section Frames

variable {s : ScanBuf} {f : RxFrame}

theorem rx_ignored (ignored : s.saves f = false) : s.rx f = s := by
  unfold ScanBuf.rx
  split
  · rfl
  · split
    · rfl
    · split
      · rfl
      case isFalse tested saved some_ =>
        rw [not_or, Bool.not_eq_false, Bool.not_eq_false] at tested
        rw [Bool.not_eq_true] at saved
        unfold ScanBuf.saves at ignored
        rw [tested.1, tested.2, saved, decide_eq_true some_] at ignored
        nomatch ignored

theorem rx_saves (saves : s.saves f = true) : s.rx f =
    { s with
      scanresPayloadBuf := fun k =>
        if s.place f ≤ k ∧ k < s.place f + f.len.toNat then f.data (k - s.place f)
        else s.scanresPayloadBuf k
      scanresPayloadBufOffset := BitVec.ofNat 32 (s.place f) + f.len
      scanResList := s.scanResList ++ [⟨s.place f, f.len, f⟩]
      available := s.available - 1
      saved := s.saved ++ [f] } := by
  simp only [ScanBuf.saves, Bool.and_eq_true, Bool.not_eq_true', decide_eq_true_iff] at saves
  obtain ⟨⟨⟨request, result⟩, fresh⟩, some_⟩ := saves
  unfold ScanBuf.rx
  rw [if_neg (by rw [request, result]; decide), fresh, if_neg Bool.false_ne_true, if_neg some_]

theorem place_inside (offset : s.scanresPayloadBufOffset.toNat ≤ scanresPayloadBufLen)
    (short : f.len.toNat ≤ scanresPayloadBufLen) : s.place f + f.len.toNat ≤ scanresPayloadBufLen := by
  unfold ScanBuf.place
  split
  case isTrue => rwa [Nat.zero_add]
  case isFalse fits =>
    rw [BitVec.toNat_add] at fits
    unfold scanresPayloadBufLen scanResultsMaxCnt at offset short fits ⊢
    omega

theorem offset_rx (inside : s.place f + f.len.toNat ≤ scanresPayloadBufLen) :
    (BitVec.ofNat 32 (s.place f) + f.len).toNat = s.place f + f.len.toNat := by
  rw [BitVec.toNat_add, BitVec.toNat_ofNat]
  unfold scanresPayloadBufLen scanResultsMaxCnt at inside
  omega

theorem place_fits (fits : s.scanresPayloadBufOffset.toNat + f.len.toNat ≤ scanresPayloadBufLen) :
    s.place f = s.scanresPayloadBufOffset.toNat := by
  unfold ScanBuf.place
  rw [if_neg]
  rw [BitVec.toNat_add]
  unfold scanresPayloadBufLen scanResultsMaxCnt at fits ⊢
  omega

theorem place_over (offset : s.scanresPayloadBufOffset.toNat ≤ scanresPayloadBufLen)
    (short : f.len.toNat ≤ scanresPayloadBufLen)
    (long : ¬s.scanresPayloadBufOffset.toNat + f.len.toNat ≤ scanresPayloadBufLen) : s.place f = 0 := by
  unfold ScanBuf.place
  rw [if_pos]
  rw [BitVec.toNat_add]
  unfold scanresPayloadBufLen scanResultsMaxCnt at offset short long ⊢
  omega

section

variable (ring : Ring s.scanResList s.scanresPayloadBufOffset.toNat)

include ring

theorem Ring.free
    (inside : ∀ r ∈ s.scanResList, r.payload + r.length.toNat ≤ scanresPayloadBufLen)
    (offset : s.scanresPayloadBufOffset.toNat ≤ scanresPayloadBufLen) (room : Room s f) :
    ∀ r ∈ s.scanResList, Apart r.payload r.length.toNat (s.place f) f.len.toNat := by
  obtain ⟨-, short, fits⟩ := room
  intro r member
  obtain ⟨first, head⟩ : ∃ first, first ∈ s.scanResList.head? :=
    Option.isSome_iff_exists.mp (List.isSome_head?.mpr (List.ne_nil_of_mem member))
  have between := fits first head
  split at between
  case isTrue before =>
    obtain ⟨above, below⟩ := ring.ahead first head before r member
    by_cases behind : s.scanresPayloadBufOffset.toNat + f.len.toNat ≤ scanresPayloadBufLen
    · rw [place_fits behind]
      exact .inl below
    · rw [place_over offset short behind]
      exact .inr ((Nat.zero_add _).le.trans ((between.resolve_left behind).trans above))
  case isFalse around =>
    have start := inside first (List.mem_of_mem_head? head)
    rw [place_fits (by omega)]
    rcases (ring.around first head (by omega)).1 r member with below | above
    · exact .inl below
    · exact .inr (between.trans above)

theorem Ring.room
    (offset : s.scanresPayloadBufOffset.toNat ≤ scanresPayloadBufLen)
    (nonempty : ∀ r ∈ s.scanResList, 22 ≤ r.length.toNat) (long : 22 ≤ f.len.toNat)
    (short : f.len.toNat ≤ scanresPayloadBufLen)
    (apart : ∀ r ∈ s.scanResList, Apart r.payload r.length.toNat (s.place f) f.len.toNat) : Room s f := by
  refine ⟨long, short, fun first head => ?_⟩
  have member := List.mem_of_mem_head? head
  have size := nonempty first member
  split
  case isTrue before =>
    refine or_iff_not_imp_left.mpr fun behind => ?_
    rcases place_over offset short behind ▸ apart first member with below | above <;> omega
  case isFalse around =>
    by_cases behind : s.scanresPayloadBufOffset.toNat + f.len.toNat ≤ scanresPayloadBufLen
    · rcases place_fits behind ▸ apart first member with below | above <;> omega
    · obtain ⟨r, entry, start⟩ := (ring.around first head (by omega)).2
      have size := nonempty r entry
      rcases place_over offset short behind ▸ apart r entry with below | above <;> omega

theorem Ring.add
    (inside : ∀ r ∈ s.scanResList, r.payload + r.length.toNat ≤ scanresPayloadBufLen)
    (offset : s.scanresPayloadBufOffset.toNat ≤ scanresPayloadBufLen) (room : Room s f) :
    Ring (s.scanResList ++ [⟨s.place f, f.len, f⟩]) (s.place f + f.len.toNat) := by
  obtain ⟨long, short, fits⟩ := room
  cases list : s.scanResList with
  | nil =>
    refine ⟨fun first head _ r member => ?_, fun first head around => ?_⟩
    · obtain rfl := some.inj head
      obtain rfl := mem_singleton.mp member
      exact ⟨Nat.le_refl _, Nat.le_refl _⟩
    · obtain rfl := some.inj head
      dsimp only at around
      omega
  | cons first rest =>
    rw [list] at ring inside fits
    have between := fits first rfl
    have start := inside first List.mem_cons_self
    split at between
    case isTrue before =>
      have stored := ring.ahead first rfl before
      by_cases behind : s.scanresPayloadBufOffset.toNat + f.len.toNat ≤ scanresPayloadBufLen
      · rw [place_fits behind]
        refine ⟨fun first' head _ r member => ?_, fun first' head around => ?_⟩
        · obtain rfl := some.inj head
          rcases mem_append.mp member with old | new
          · have := stored r old
            omega
          · obtain rfl := mem_singleton.mp new
            exact ⟨before.le, Nat.le_refl _⟩
        · obtain rfl := some.inj head
          omega
      · rw [place_over offset short behind]
        have front := between.resolve_left behind
        refine ⟨fun first' head ahead => ?_, fun first' head _ => ⟨fun r member => ?_, ?_⟩⟩
        · obtain rfl := some.inj head
          omega
        · obtain rfl := some.inj head
          rcases mem_append.mp member with old | new
          · exact .inr (stored r old).1
          · obtain rfl := mem_singleton.mp new
            exact .inl (Nat.le_refl _)
        · exact ⟨_, List.mem_append_right _ (List.mem_singleton_self _), rfl⟩
    case isFalse around =>
      obtain ⟨stored, r, entry, zero⟩ := ring.around first rfl (by omega)
      rw [place_fits (by omega)]
      refine ⟨fun first' head ahead => ?_, fun first' head _ => ⟨fun r member => ?_, ?_⟩⟩
      · obtain rfl := some.inj head
        omega
      · obtain rfl := some.inj head
        rcases mem_append.mp member with old | new
        · have := stored r old
          omega
        · obtain rfl := mem_singleton.mp new
          exact .inl (Nat.le_refl _)
      · exact ⟨r, List.mem_append_left _ entry, zero⟩

end

theorem bssidAt_payload {mem : ℕ → Byte} {r : ScanRes}
    (bytes : ∀ k < r.length.toNat, mem (r.payload + k) = r.frame.data k) (long : 22 ≤ r.length.toNat) :
    bssidAt mem r.payload = r.frame.bssid := by
  unfold bssidAt RxFrame.bssid bssidAt slice
  refine List.map_congr_left fun k inside => ?_
  rw [List.mem_range] at inside
  rw [Nat.add_assoc, bytes (16 + k) (by omega), Nat.zero_add]

theorem found_of_bytes (bytes : ∀ r ∈ s.scanResList, ∀ k < r.length.toNat,
      s.scanresPayloadBuf (r.payload + k) = r.frame.data k)
    (saved : s.saved = s.scanResList.map ScanRes.frame)
    (length : ∀ r ∈ s.scanResList, r.length = r.frame.len ∧ 22 ≤ r.length.toNat) (f : RxFrame) :
    s.findAlreadySaved f = true ↔ ∃ g ∈ s.saved, g.bssid = f.bssid := by
  unfold ScanBuf.findAlreadySaved
  rw [List.any_eq_true, saved]
  constructor
  · rintro ⟨r, member, same⟩
    refine ⟨r.frame, List.mem_map.mpr ⟨r, member, rfl⟩, ?_⟩
    rw [← of_decide_eq_true same, bssidAt_payload (bytes r member) (length r member).2]
  · rintro ⟨g, member, same⟩
    obtain ⟨r, entry, rfl⟩ := List.mem_map.mp member
    refine ⟨r, entry, decide_eq_true ?_⟩
    rw [bssidAt_payload (bytes r entry) (length r entry).2, same]

theorem ScanBufInv.rx (inv : ScanBufInv s) (saves : s.saves f = true) (room : Room s f) : ScanBufInv (s.rx f) := by
  obtain ⟨long, short, -⟩ := id room
  have apart := inv.ring.free inv.kept.inside inv.offset room
  rw [rx_saves saves]
  have old : ∀ r ∈ s.scanResList, ∀ k < r.length.toNat,
      ¬(s.place f ≤ r.payload + k ∧ r.payload + k < s.place f + f.len.toNat) := by
    intro r member k less
    rcases apart r member with below | above <;> omega
  have inside := place_inside inv.offset short
  have bytes : ∀ r ∈ s.scanResList ++ [⟨s.place f, f.len, f⟩], ∀ k < r.length.toNat,
      (if s.place f ≤ r.payload + k ∧ r.payload + k < s.place f + f.len.toNat then
        f.data (r.payload + k - s.place f) else s.scanresPayloadBuf (r.payload + k)) = r.frame.data k := by
    intro r member k less
    rcases mem_append.mp member with before | new
    · rw [if_neg (old r before k less), inv.kept.bytes r before k less]
    · obtain rfl := mem_singleton.mp new
      rw [if_pos ⟨Nat.le_add_right _ _, Nat.add_lt_add_left less _⟩, Nat.add_sub_cancel_left]
  have saved : s.saved ++ [f] = (s.scanResList ++ [(⟨s.place f, f.len, f⟩ : ScanRes)]).map ScanRes.frame := by
    rw [inv.saved, List.map_append]
    rfl
  have length : ∀ r ∈ s.scanResList ++ [⟨s.place f, f.len, f⟩], r.length = r.frame.len ∧ 22 ≤ r.length.toNat := by
    intro r member
    rcases mem_append.mp member with before | new
    · exact inv.length r before
    · obtain rfl := mem_singleton.mp new
      exact ⟨rfl, long⟩
  refine ⟨⟨fun r member => ?_, ?_, bytes, fun g => found_of_bytes bytes saved length g⟩,
    (offset_rx inside).le.trans inside, ?_, saved, length⟩
  · rcases mem_append.mp member with before | new
    · exact inv.kept.inside r before
    · obtain rfl := mem_singleton.mp new
      exact inside
  · refine List.pairwise_append.mpr ⟨inv.kept.apart, List.pairwise_singleton _ _, fun r member r' new => ?_⟩
    obtain rfl := mem_singleton.mp new
    exact apart r member
  · rw [offset_rx inside]
    exact inv.ring.add inv.kept.inside inv.offset room

theorem ScanBufInv.taken (offset : s.scanresPayloadBufOffset.toNat ≤ scanresPayloadBufLen) : ScanBufInv s.taken where
  kept :=
    { inside := fun _ member => absurd member not_mem_nil
      apart := .nil
      bytes := fun _ member => absurd member not_mem_nil
      found := fun _ => iff_of_false Bool.false_ne_true fun ⟨_, member, _⟩ => not_mem_nil member }
  offset := offset
  ring :=
    { ahead := fun _ head => nomatch head
      around := fun _ head => nomatch head }
  saved := rfl
  length _ member := absurd member not_mem_nil

theorem ScanBufInv.step (inv : ScanBufInv s) {a : ScanBufAct} {s' : ScanBuf} (room : RoomKept s a)
    (stepped : scanBufSystem.step s a = some s') : ScanBufInv s' := by
  cases a with
  | request on =>
    obtain rfl := some.inj stepped
    exact ⟨⟨inv.kept.inside, inv.kept.apart, inv.kept.bytes, inv.kept.found⟩, inv.offset, inv.ring,
      inv.saved, inv.length⟩
  | rx f =>
    obtain rfl := some.inj stepped
    cases saves : s.saves f with
    | false =>
      rw [rx_ignored saves]
      exact inv
    | true => exact inv.rx saves (room saves)
  | taken =>
    obtain rfl := some.inj stepped
    exact .taken inv.offset

theorem ScanBufInv.room (inv : ScanBufInv s) (saves : s.saves f = true) (long : 22 ≤ f.len.toNat)
    (kept : PayloadsKept (s.rx f)) : Room s f := by
  rw [rx_saves saves] at kept
  have new : (⟨s.place f, f.len, f⟩ : ScanRes) ∈ s.scanResList ++ [⟨s.place f, f.len, f⟩] :=
    List.mem_append_right _ (List.mem_singleton_self _)
  refine inv.ring.room inv.offset (fun r member => (inv.length r member).2) long
    ((Nat.le_add_left _ _).trans (kept.inside _ new)) fun r member => ?_
  exact (List.pairwise_append.mp kept.apart).2.2 r member _ (List.mem_singleton_self _)

end Frames

/-- **The payloads are kept where there is room for each frame, and a frame with a BSSID for which there is
none breaks them.** -/
theorem payloads_kept {s : ScanBuf} (reach : scanBufSystem.Reachable RoomKept s) :
    PayloadsKept s ∧ ∀ f : RxFrame, 22 ≤ f.len.toNat → (PayloadsKept (s.rx f) ↔ RoomKept s (.rx f)) := by
  have start : ScanBufInv scanBufSystem.init := ScanBufInv.taken (s := {}) (Nat.zero_le _)
  have inv : ScanBufInv s := reach.invariant (I := ScanBufInv) start fun _ _ _ _ inv room stepped =>
    inv.step room stepped
  refine ⟨inv.kept, fun f long => ⟨fun kept saves => inv.room saves long kept, fun room => ?_⟩⟩
  exact (inv.step (a := .rx f) room rfl).kept

/-! ### Eleven beacons -/

def beacon (bssid : Byte) : RxFrame where
  len := 2304
  data k := if k = 0 then 0x80 else if k = 16 then bssid else 0

def beacons (n : ℕ) : List ScanBufAct :=
  .request true :: (List.range n).map fun k => .rx (beacon (BitVec.ofNat 8 (k + 1)))

/-- Ten beacons are saved. -/
theorem payloads_kept_ten : ∃ s, scanBufSystem.Reachable RoomKept s ∧ s.saved.length = 10 ∧ PayloadsKept s := by
  have reach := System.reachable_of_run scanBufSystem RoomKept (beacons 10) (by decide +kernel)
  generalize state : (System.run scanBufSystem RoomKept scanBufSystem.init (beacons 10)).get _ = s at reach
  refine ⟨s, reach, ?_, (payloads_kept reach).1⟩
  rw [← state]
  decide +kernel

/-- **The eleventh is stored over the first.** -/
theorem eleventh_beacon_aliases : ∃ s, scanBufSystem.Reachable (fun _ _ => True) s ∧ ¬PayloadsKept s := by
  have reach := System.reachable_of_run scanBufSystem (fun _ _ => True) (beacons 11) (by decide +kernel)
  generalize state : (System.run scanBufSystem (fun _ _ => True) scanBufSystem.init (beacons 11)).get _ = s
    at reach
  refine ⟨s, reach, fun kept => ?_⟩
  have places : s.scanResList.map (fun r => (r.payload, r.length.toNat)) =
      (List.range 10).map (fun k => (2304 * k, 2304)) ++ [(0, 2304)] := by
    rw [← state]
    decide +kernel
  have apart := List.Pairwise.map (fun r : ScanRes => (r.payload, r.length.toNat))
    (fun _ _ => id) (S := fun p q : ℕ × ℕ => Apart p.1 p.2 q.1 q.2) kept.apart
  rw [places] at apart
  revert apart
  decide

end W2l.Scan
