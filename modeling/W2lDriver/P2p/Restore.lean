/-
**A P2P action frame, rewritten for the transmission and restored for the report.**

`aml_filter_sp_mgmt_frame`, `aml_start_mgmt_xmit`, `aml_tx_cfm_task` (`fullmac/aml_tx.c`),
`aml_scc_p2p_action_restore` (`aml_scc.c`). While a station is connected, the channels of a P2P action frame
are changed in the copy that is sent. The frame as it was lies in one buffer of 500 bytes, its length and the
difference of the lengths in one byte each, for all frames; the confirmation of any such frame copies the
buffer back.

* `amlChangeP2pOperchan` — the change of the operating channel, in place.
* `amlChangeP2pOperchan_walked` — it is `changeP2pOperchan` where that one stays inside the frame.
* `restoreSystem` — frames are started and confirmed in any order.
* `ReportsExact` — **what is reported is what was submitted**.
* `OwnSave` — when it is: the lengths fit their bytes, and the buffer holds the frame that is confirmed.
-/

import W2lDriver.Lib.System
import W2lDriver.P2p.Exact

namespace W2l.P2p

open Lib
open Option (bind_eq_some_iff map_eq_some_iff some.inj)
open Function (update update_of_ne update_self)

/-! ### The code -/

/-- The loop of `aml_change_p2p_operchan` over attributes. -/
def operLoop (buf : Memory) (frameLen : ℕ) : ℕ → ℕ → Option ℕ
  | 0, _ => none
  | rounds + 1, offset =>
    if offset < frameLen then
      if buf offset = attrOperatingChannel then some offset
      else operLoop buf frameLen rounds (offset + lenAt buf offset + 3)
    else none

def putOperchan (toBand : Byte → Option Nl80211Band) (new : OperChan) (buf : Memory) (offset : ℕ) : Memory :=
  match toBand (buf (offset + 6)) with
  | none => buf
  | some bandOrg =>
    if bandOrg = new.band ∨ new.band = .band2GHz then
      let changed := if sccCompareOperClass (buf (offset + 6)) new.operClass then
        put buf (offset + 6) [new.operClass] else buf
      put changed (offset + 7) [new.chanNo]
    else buf

/-- `aml_change_p2p_operchan`, where there is memory behind the frame. -/
def amlChangeP2pOperchan (toBand : Byte → Option Nl80211Band) (new : OperChan) (buf : Memory) (frameLen : ℕ) :
    Memory :=
  if amlGetP2pIeOffset buf frameLen = 0 then buf
  else
    match operLoop buf frameLen frameLen (amlGetP2pIeOffset buf frameLen + 6) with
    | none => buf
    | some offset => putOperchan toBand new buf offset

/-- The two changes, and the difference of the lengths. -/
def rewriteFrame (toBand : Byte → Option Nl80211Band) (new : OperChan) (peer5g : Bool) (buf : Memory)
    (frameLen : ℕ) : Option (Memory × BitVec 16) :=
  (amlChangeP2pChanlist toBand new.chanNo new.band peer5g buf frameLen).map fun r =>
    (amlChangeP2pOperchan toBand new r.1 frameLen, r.2)

/-- The subtypes of P2P action frames whose channels are changed. -/
def goNegReq : Byte := 0
def goNegRsp : Byte := 1
def invitReq : Byte := 3
def invitRsp : Byte := 4

def IsAction (buf : Memory) : Prop := buf 0 &&& 0xfc = 0xd0

/-- What `aml_filter_sp_mgmt_frame` takes for a P2P action frame. -/
def P2pAction (buf : Memory) : Prop :=
  (buf 0 &&& 0xf0) >>> 4 = 0x0d ∧ buf 24 = 4 ∧ buf 25 = 9 ∧ buf 26 = 0x50 ∧ buf 27 = 0x6f ∧ buf 28 = 0x9a ∧ buf 29 = 9

def SccAction (buf : Memory) : Prop :=
  P2pAction buf ∧ (buf 30 = goNegReq ∨ buf 30 = goNegRsp ∨ buf 30 = invitReq ∨ buf 30 = invitRsp)

instance (buf : Memory) : Decidable (IsAction buf) := by unfold IsAction; infer_instance
instance (buf : Memory) : Decidable (P2pAction buf) := by unfold P2pAction; infer_instance
instance (buf : Memory) : Decidable (SccAction buf) := by unfold SccAction; infer_instance

/-- A frame to be confirmed: the bytes submitted and their number, what is in the buffer and
`sw_txhdr->frame_len`; `rewritten` is kept for the statements. -/
structure TxFrame where
  sent : Memory
  len : ℕ
  mem : Memory
  frameLen : BitVec 16
  rewritten : Bool

/-- A call of `cfg80211_mgmt_tx_status`, with what was submitted. -/
structure Report where
  sent : Memory
  len : ℕ
  reported : List Byte

/-- `g_scc_p2p_save`, `g_scc_p2p_len_before`, `g_scc_p2p_len_diff`, `g_scc_p2p_peer_5g_support` and the frames
on their way. `owner` and `reports` are kept for the statements: the frame that is in the buffer, and what has
been reported. -/
structure RestoreState where
  save : Memory := fun _ => 0
  lenBefore : BitVec 8 := 0
  lenDiff : BitVec 8 := 0
  peer5g : Bool := false
  frames : ℕ → Option TxFrame := fun _ => none
  owner : Option ℕ := none
  reports : List Report := []

/-- The size of `g_scc_p2p_save`. -/
def p2pSaveLen : ℕ := 500

/-- How `aml_start_mgmt_xmit` ends: the queue is not active, or the buffer is not mapped for the device. -/
inductive Outcome
  | queued
  | inactive
  | unmapped

inductive RestoreAct
  /-- A channel list received from the peer. -/
  | parse (support : Bool)
  /-- `aml_start_mgmt_xmit`, while a station is on a channel, or none is connected. -/
  | start (i : ℕ) (buf : Memory) (len : ℕ) (station : Option OperChan) (outcome : Outcome)
  /-- The confirmation of a frame. -/
  | confirm (i : ℕ)

namespace RestoreState

def peer5gAt (s : RestoreState) (buf : Memory) : Bool :=
  if buf 30 = goNegReq ∨ buf 30 = invitReq then false else s.peer5g

/-- `aml_filter_sp_mgmt_frame` at the start, and `sw_txhdr->frame_len`. Past the end of `g_scc_p2p_save` there is
no result. -/
def filterStart (toBand : Byte → Option Nl80211Band) (s : RestoreState) (buf : Memory) (len : ℕ)
    (station : Option OperChan) : Option (RestoreState × TxFrame) :=
  if P2pAction buf then
    let s := { s with peer5g := s.peer5gAt buf }
    match station with
    | none => some (s, ⟨buf, len, buf, .ofNat 16 len, false⟩)
    | some new =>
      if ¬SccAction buf then some (s, ⟨buf, len, buf, .ofNat 16 len, false⟩)
      else if len ≤ p2pSaveLen then
        (rewriteFrame toBand new s.peer5g buf len).map fun r =>
          ({ s with
              save := put s.save 0 (fetch buf 0 len)
              lenBefore := .ofNat 8 len
              lenDiff := r.2.setWidth 8 },
            ⟨buf, len, r.1, .ofNat 16 len - r.2, true⟩)
      else none
  else some (s, ⟨buf, len, buf, .ofNat 16 len, false⟩)

/-- The rest of `aml_start_mgmt_xmit`. -/
def finish (s : RestoreState) (i : ℕ) (f : TxFrame) : Outcome → RestoreState
  | .queued =>
    { s with
      frames := Function.update s.frames i (some f)
      owner := if f.rewritten then some i else s.owner }
  | .inactive =>
    { s with
      owner := if f.rewritten then none else s.owner
      reports := if P2pAction f.sent then ⟨f.sent, f.len, fetch f.sent 0 f.len⟩ :: s.reports else s.reports }
  | .unmapped => { s with owner := if f.rewritten then none else s.owner }

/-- `aml_scc_p2p_action_restore`. Where `frame_len` is, two bytes are behind it that nobody reads. -/
def restore (s : RestoreState) (f : TxFrame) : RestoreState × TxFrame :=
  if s.lenBefore ≠ 0 then
    ({ s with lenBefore := 0, owner := none },
      { f with
        mem := put f.mem 0 (fetch s.save 0 s.lenBefore.toNat)
        frameLen := f.frameLen + s.lenDiff.setWidth 16 })
  else (s, f)

/-- The part of `aml_tx_cfm_task` for management frames up to the restored frame. -/
def filterConfirm (s : RestoreState) (f : TxFrame) : RestoreState × TxFrame :=
  if IsAction f.mem ∧ SccAction f.mem then s.restore f else (s, f)

def report (s : RestoreState) (i : ℕ) (f : TxFrame) : RestoreState :=
  { s with
    frames := Function.update s.frames i none
    owner := if s.owner = some i then none else s.owner
    reports := ⟨f.sent, f.len, fetch f.mem 0 f.frameLen.toNat⟩ :: s.reports }

/-- A step. A frame has its own number, and a byte behind its header. -/
def step (toBand : Byte → Option Nl80211Band) (s : RestoreState) : RestoreAct → Option RestoreState
  | .parse support => some { s with peer5g := support }
  | .start i buf len station outcome =>
    if s.frames i = none ∧ 24 < len then
      (s.filterStart toBand buf len station).map fun r => r.1.finish i r.2 outcome
    else none
  | .confirm i => (s.frames i).map fun f => (s.filterConfirm f).1.report i (s.filterConfirm f).2

end RestoreState

/-- **The frames on their way.** -/
def restoreSystem (toBand : Byte → Option Nl80211Band) : System RestoreState RestoreAct where
  init := {}
  step := RestoreState.step toBand

/-! ### The property and the guard -/

/-- **What is reported is what was submitted.** -/
def ReportsExact (s : RestoreState) : Prop :=
  ∀ r ∈ s.reports, IsAction r.sent → SccAction r.sent → r.reported = fetch r.sent 0 r.len

def LengthsFit (toBand : Byte → Option Nl80211Band) (peer5g : Bool) (buf : Memory) (len : ℕ) : Option OperChan → Prop
  | none => len < 65536
  | some new =>
    len < 256 ∧
      match rewriteFrame toBand new peer5g buf len with
      | none => True
      | some r => r.2.toNat < 256

/-- **The save is the frame's own**: the lengths fit where they are kept; and where a save waits for its frame,
or a frame for its save, the frame that is confirmed is the one in the buffer. -/
def OwnSave (toBand : Byte → Option Nl80211Band) (s : RestoreState) : RestoreAct → Prop
  | .parse _ => True
  | .start _ buf len station _ => SccAction buf → LengthsFit toBand (s.peer5gAt buf) buf len station
  | .confirm i =>
    match s.frames i with
    | none => True
    | some f => SccAction f.sent → s.lenBefore ≠ 0 ∨ f.rewritten = true → s.owner = some i

instance (toBand : Byte → Option Nl80211Band) (peer5g : Bool) (buf : Memory) (len : ℕ) :
    (station : Option OperChan) → Decidable (LengthsFit toBand peer5g buf len station)
  | none => inferInstanceAs (Decidable (len < 65536))
  | some new =>
    match eq : rewriteFrame toBand new peer5g buf len with
    | none => decidable_of_iff (len < 256) (by rw [LengthsFit, eq]; exact ⟨fun short => ⟨short, trivial⟩, And.left⟩)
    | some r => decidable_of_iff (len < 256 ∧ r.2.toNat < 256) (by rw [LengthsFit, eq])

instance (toBand : Byte → Option Nl80211Band) (s : RestoreState) : (a : RestoreAct) → Decidable (OwnSave toBand s a)
  | .parse _ => .isTrue trivial
  | .start _ buf len station _ =>
    inferInstanceAs (Decidable (SccAction buf → LengthsFit toBand (s.peer5gAt buf) buf len station))
  | .confirm i =>
    match eq : s.frames i with
    | none => .isTrue (by rw [OwnSave, eq]; trivial)
    | some f =>
      decidable_of_iff (SccAction f.sent → s.lenBefore ≠ 0 ∨ f.rewritten = true → s.owner = some i)
        (by rw [OwnSave, eq])

/-! ### The change in place and the walk -/

section Walked

variable {toBand : Byte → Option Nl80211Band} {new : OperChan} {buf : Memory} {n o : ℕ}

theorem getElem_fetch {k : ℕ} (inside : k < (fetch buf 0 n).length) : (fetch buf 0 n)[k] = buf k := by
  have stored : buf (0 + k) = (fetch buf 0 n)[k] := stored_fetch k inside
  rw [← stored, Nat.zero_add]

theorem getElem?_fetch {k : ℕ} {x : Byte} (here : (fetch buf 0 n)[k]? = some x) : x = buf k := by
  obtain ⟨inside, same⟩ := List.getElem?_eq_some_iff.mp here
  rw [← same, getElem_fetch]

theorem fetch_set (k : ℕ) (x : Byte) : (fetch buf 0 n).set k x = fetch (put buf k [x]) 0 n := by
  refine List.ext_getElem ?_ fun j _ _ => ?_
  · rw [List.length_set, length_fetch, length_fetch]
  rw [List.getElem_set, getElem_fetch, getElem_fetch]
  split
  case isTrue same =>
    subst same
    exact (stored_singleton.mp stored_put).symm
  case isFalse other => rw [put_outside (by rw [List.length_singleton]; omega)]

theorem vendorAt_eq {found : Bool} (seen : vendorAt (fetch buf 0 n) o (buf o) = some found) :
    found = true ↔ buf o = attrVendorSpecific ∧ buf (o + 2) = 0x50 ∧ buf (o + 3) = 0x6f ∧ buf (o + 4) = 0x9a := by
  unfold vendorAt at seen
  split at seen
  case isFalse other =>
    obtain rfl := some.inj seen
    exact iff_of_false Bool.false_ne_true fun whole => other whole.1
  case isTrue vendor =>
    rw [and_iff_right vendor]
    obtain ⟨first, here, seen⟩ := bind_eq_some_iff.mp seen
    rw [getElem?_fetch here] at seen
    split at seen
    case isFalse other =>
      obtain rfl := some.inj seen
      exact iff_of_false Bool.false_ne_true fun whole => other whole.1
    case isTrue same =>
      rw [and_iff_right same]
      obtain ⟨second, here, seen⟩ := bind_eq_some_iff.mp seen
      rw [getElem?_fetch here] at seen
      split at seen
      case isFalse other =>
        obtain rfl := some.inj seen
        exact iff_of_false Bool.false_ne_true fun whole => other whole.1
      case isTrue same =>
        rw [and_iff_right same]
        obtain ⟨third, here, seen⟩ := bind_eq_some_iff.mp seen
        rw [getElem?_fetch here] at seen
        split at seen
        case isFalse other =>
          obtain rfl := some.inj seen
          exact iff_of_false Bool.false_ne_true other
        case isTrue same =>
          obtain rfl := some.inj seen
          exact iff_of_true rfl same

theorem ieLoop_walked {rounds rounds' e : ℕ} (walked : ieWalk (fetch buf 0 n) rounds o = some e)
    (enough : n ≤ o + rounds') : ieLoop buf n rounds' o = e := by
  induction rounds generalizing o rounds' with
  | zero => cases walked
  | succ rounds ih =>
    unfold ieWalk at walked
    rw [length_fetch] at walked
    split at walked
    case isFalse past =>
      obtain rfl := some.inj walked
      cases rounds' with
      | zero => rfl
      | succ rounds' =>
        unfold ieLoop
        rw [if_neg past]
    case isTrue inside =>
      obtain ⟨rounds', rfl⟩ : ∃ r, rounds' = r + 1 := ⟨rounds' - 1, by omega⟩
      obtain ⟨id, here, walked⟩ := bind_eq_some_iff.mp walked
      obtain ⟨len, there, walked⟩ := bind_eq_some_iff.mp walked
      obtain ⟨found, seen, walked⟩ := bind_eq_some_iff.mp walked
      rw [getElem?_fetch here] at seen
      have vendor := vendorAt_eq seen
      unfold ieLoop
      rw [if_pos inside]
      cases found with
      | true =>
        obtain rfl := some.inj walked
        rw [if_pos (vendor.mp rfl)]
      | false =>
        rw [if_neg fun whole => Bool.false_ne_true (vendor.mpr whole), ← getElem?_fetch there]
        exact ih walked (by omega)

theorem operLoop_walked {rounds rounds' : ℕ} {w : ℕ × Bool}
    (walked : attrWalk (fetch buf 0 n) attrOperatingChannel rounds o = some w) (enough : n ≤ o + rounds') :
    operLoop buf n rounds' o = if w.2 then some w.1 else none := by
  induction rounds generalizing o rounds' with
  | zero => cases walked
  | succ rounds ih =>
    unfold attrWalk at walked
    rw [length_fetch] at walked
    split at walked
    case isFalse past =>
      obtain rfl := some.inj walked
      cases rounds' with
      | zero => rfl
      | succ rounds' =>
        unfold operLoop
        rw [if_neg past]
        rfl
    case isTrue inside =>
      obtain ⟨rounds', rfl⟩ : ∃ r, rounds' = r + 1 := ⟨rounds' - 1, by omega⟩
      obtain ⟨id, here, walked⟩ := bind_eq_some_iff.mp walked
      obtain ⟨high, there, walked⟩ := bind_eq_some_iff.mp walked
      obtain ⟨low, next, walked⟩ := bind_eq_some_iff.mp walked
      have length : attrLen low high = lenAt buf o := by
        rw [attrLen, lenAt, getElem?_fetch there, getElem?_fetch next]
      rw [getElem?_fetch here] at walked
      unfold operLoop
      rw [if_pos inside]
      split at walked
      case isTrue same =>
        obtain rfl := some.inj walked
        rw [if_pos same]
        rfl
      case isFalse other =>
        rw [if_neg other]
        rw [length] at walked
        exact ih walked (by omega)

theorem putOperchan_walked {b : List Byte} (walked : setOperchan toBand new (fetch buf 0 n) o = some b) :
    fetch (putOperchan toBand new buf o) 0 n = b := by
  obtain ⟨org, here, walked⟩ := bind_eq_some_iff.mp walked
  obtain rfl := getElem?_fetch here
  unfold putOperchan
  cases known : toBand (buf (o + 6)) with
  | none =>
    simp only [known] at walked
    exact some.inj walked
  | some bandOrg =>
    simp only [known] at walked
    obtain ⟨chan, -, walked⟩ := bind_eq_some_iff.mp walked
    dsimp only
    split at walked
    case isFalse other =>
      rw [if_neg other]
      exact some.inj walked
    case isTrue band =>
      rw [if_pos band, ← some.inj walked]
      split
      case isTrue => rw [fetch_set, fetch_set]
      case isFalse => rw [fetch_set]

theorem amlChangeP2pOperchan_walked {b : List Byte} (walked : changeP2pOperchan toBand new (fetch buf 0 n) = some b) :
    fetch (amlChangeP2pOperchan toBand new buf n) 0 n = b := by
  obtain ⟨ie, element, walked⟩ := bind_eq_some_iff.mp walked
  have element : amlGetP2pIeOffset buf n = ie := ieLoop_walked element (Nat.le_add_left n 32)
  unfold amlChangeP2pOperchan
  rw [element]
  split at walked
  case isTrue nowhere =>
    rw [if_pos nowhere]
    exact some.inj walked
  case isFalse somewhere =>
    rw [if_neg somewhere]
    obtain ⟨w, found, walked⟩ := bind_eq_some_iff.mp walked
    rw [operLoop_walked found (Nat.le_add_left n _)]
    split at walked
    case isTrue here =>
      rw [if_pos here]
      exact putOperchan_walked walked
    case isFalse missing =>
      rw [if_neg missing]
      exact some.inj walked

theorem amlChangeP2pOperchan_walked_sample : let f := sampleFrame [36, 40] (by decide)
    let new : OperChan := ⟨.band5GHz, 116, 44⟩
    fetch (amlChangeP2pOperchan sampleToBand new (sampleMemory f) f.bytes.length) 0 f.bytes.length =
      (changeP2pOperchan sampleToBand new (fetch (sampleMemory f) 0 f.bytes.length)).get (by decide +kernel) :=
  amlChangeP2pOperchan_walked (Option.some_get _).symm

end Walked

/-! ### The header is kept -/

def SameHead (a b : Memory) : Prop := ∀ k < 32, a k = b k

section Head

variable {toBand : Byte → Option Nl80211Band} {new : OperChan} {a b c buf : Memory} {frameLen rounds offset : ℕ}

theorem SameHead.trans (first : SameHead a b) (second : SameHead b c) : SameHead a c := fun k inside =>
  (first k inside).trans (second k inside)

theorem sameHead_put (behind : 32 ≤ offset) (ws : List Byte) : SameHead (put buf offset ws) buf :=
  fun _ inside => put_outside (.inl (Nat.lt_of_lt_of_le inside behind))

theorem SameHead.isAction (same : SameHead a b) : IsAction a ↔ IsAction b := by
  unfold IsAction
  rw [same 0 (by decide)]

theorem SameHead.sccAction (same : SameHead a b) : SccAction a ↔ SccAction b := by
  unfold SccAction P2pAction
  rw [same 0 (by decide), same 24 (by decide), same 25 (by decide), same 26 (by decide), same 27 (by decide),
    same 28 (by decide), same 29 (by decide), same 30 (by decide)]

theorem le_ieLoop (found : ieLoop buf frameLen rounds offset ≠ 0) : offset ≤ ieLoop buf frameLen rounds offset := by
  induction rounds generalizing offset with
  | zero => exact absurd rfl found
  | succ rounds ih =>
    unfold ieLoop at found ⊢
    split at found
    case isFalse => exact absurd rfl found
    case isTrue inside =>
      rw [if_pos inside]
      split at found
      case isTrue here =>
        rw [if_pos here]
      case isFalse other =>
        rw [if_neg other]
        refine Nat.le_trans ?_ (ih found)
        exact Nat.le_add_right_of_le (Nat.le_add_right _ _)

theorem le_attrLoop {o : ℕ} (found : attrLoop buf frameLen rounds offset = some o) : offset ≤ o := by
  induction rounds generalizing offset with
  | zero => cases found
  | succ rounds ih =>
    unfold attrLoop at found
    split at found
    case isFalse => cases found
    case isTrue =>
      split at found
      case isTrue => exact (some.inj found).le
      case isFalse =>
        refine Nat.le_trans ?_ (ih found)
        exact Nat.le_add_right_of_le (Nat.le_add_right _ _)

theorem le_operLoop {o : ℕ} (found : operLoop buf frameLen rounds offset = some o) : offset ≤ o := by
  induction rounds generalizing offset with
  | zero => cases found
  | succ rounds ih =>
    unfold operLoop at found
    split at found
    case isFalse => cases found
    case isTrue =>
      split at found
      case isTrue => exact (some.inj found).le
      case isFalse =>
        refine Nat.le_trans ?_ (ih found)
        exact Nat.le_add_right_of_le (Nat.le_add_right _ _)

variable {r : Memory × BitVec 16}

theorem replaceList_head {ieOffset : ℕ} {chanList : List Byte}
    (replaced : replaceList buf frameLen ieOffset offset chanList = some r) (element : 32 ≤ ieOffset)
    (attr : 32 ≤ offset) : SameHead r.1 buf := by
  have first : SameHead (put buf (offset + 6) chanList) buf := sameHead_put (Nat.le_add_right_of_le attr) chanList
  unfold replaceList at replaced
  dsimp only at replaced
  split at replaced
  case isTrue =>
    obtain rfl := some.inj replaced
    exact first
  case isFalse =>
    split at replaced
    case isTrue => cases replaced
    case isFalse =>
      obtain rfl := some.inj replaced
      refine (sameHead_put (by omega) _).trans ?_
      refine (sameHead_put (Nat.le_add_right_of_le element) _).trans ?_
      exact (sameHead_put (Nat.le_add_right_of_le attr) _).trans first

theorem amlChangeP2pChanlist_head {target : Byte} {band : Nl80211Band} {peer5g : Bool}
    (changed : amlChangeP2pChanlist toBand target band peer5g buf frameLen = some r) : SameHead r.1 buf := by
  unfold amlChangeP2pChanlist at changed
  dsimp only at changed
  split at changed
  case isTrue =>
    obtain rfl := some.inj changed
    exact fun _ _ => rfl
  case isFalse element =>
    have behind : 32 ≤ amlGetP2pIeOffset buf frameLen := le_ieLoop element
    split at changed
    · obtain rfl := some.inj changed
      exact fun _ _ => rfl
    · rename_i offset found
      obtain ⟨chanList, -, replaced⟩ := bind_eq_some_iff.mp changed
      have attr := le_attrLoop found
      exact replaceList_head replaced behind (by omega)

theorem putOperchan_head (behind : 32 ≤ offset) : SameHead (putOperchan toBand new buf offset) buf := by
  unfold putOperchan
  split
  · exact fun _ _ => rfl
  split
  case isFalse => exact fun _ _ => rfl
  case isTrue =>
    refine (sameHead_put (Nat.le_add_right_of_le behind) _).trans ?_
    split
    case isTrue => exact sameHead_put (Nat.le_add_right_of_le behind) _
    case isFalse => exact fun _ _ => rfl

theorem amlChangeP2pOperchan_head : SameHead (amlChangeP2pOperchan toBand new buf frameLen) buf := by
  unfold amlChangeP2pOperchan
  split
  case isTrue => exact fun _ _ => rfl
  case isFalse element =>
    have behind : 32 ≤ amlGetP2pIeOffset buf frameLen := le_ieLoop element
    split
    · exact fun _ _ => rfl
    · rename_i offset found
      have attr := le_operLoop found
      exact putOperchan_head (by omega)

theorem rewriteFrame_head {peer5g : Bool}
    (rewritten : rewriteFrame toBand new peer5g buf frameLen = some r) : SameHead r.1 buf := by
  obtain ⟨listed, changed, rfl⟩ := map_eq_some_iff.mp rewritten
  exact amlChangeP2pOperchan_head.trans (amlChangeP2pChanlist_head changed)

end Head

/-! ### The invariant -/

/-- **The buffer is the one of the frame.** -/
structure Saved (s : RestoreState) (f : TxFrame) : Prop where
  stored : Stored s.save 0 (fetch f.sent 0 f.len)
  before : s.lenBefore.toNat = f.len
  length : f.frameLen + s.lenDiff.setWidth 16 = BitVec.ofNat 16 f.len

/-- A frame on its way. -/
structure OnWay (s : RestoreState) (i : ℕ) (f : TxFrame) : Prop where
  head : SameHead f.mem f.sent
  long : 24 < f.len
  untouched : f.rewritten = false → f.mem = f.sent
  whole : f.rewritten = false → SccAction f.sent → f.frameLen.toNat = f.len
  saved : s.owner = some i → Saved s f

structure RestoreInv (s : RestoreState) : Prop where
  frames : ∀ i f, s.frames i = some f → OnWay s i f
  owner : ∀ i, s.owner = some i → s.frames i ≠ none
  exact_ : ReportsExact s

namespace RestoreInv

variable {toBand : Byte → Option Nl80211Band} {s t : RestoreState} {i : ℕ} {f : TxFrame} {buf : Memory} {len : ℕ}
  {station : Option OperChan}

theorem keep (inv : RestoreInv s) (frames : t.frames = s.frames)
    (owner : t.owner = none ∨ t.owner = s.owner ∧ ∀ f, Saved s f → Saved t f) (reports : ReportsExact t) :
    RestoreInv t where
  frames i f here := by
    rw [frames] at here
    obtain ⟨head, long, untouched, whole, own⟩ := inv.frames i f here
    refine ⟨head, long, untouched, whole, fun this => ?_⟩
    rcases owner with none' | ⟨same, saved⟩
    · rw [none'] at this
      cases this
    · exact saved f (own (same ▸ this))
  owner i this := by
    rw [frames]
    rcases owner with none' | ⟨same, -⟩
    · rw [none'] at this
      cases this
    · exact inv.owner i (same ▸ this)
  exact_ := reports

theorem add (inv : RestoreInv s) (free : s.frames i = none)
    (frames : t.frames = update s.frames i (some f)) (way : OnWay t i f)
    (owner : t.owner = some i ∨ t.owner = s.owner ∧ ∀ f, Saved s f → Saved t f)
    (reports : t.reports = s.reports) : RestoreInv t where
  frames j g here := by
    rw [frames] at here
    by_cases same : j = i
    · subst same
      rw [update_self] at here
      obtain rfl := some.inj here
      exact way
    rw [update_of_ne same] at here
    obtain ⟨head, long, untouched, whole, own⟩ := inv.frames j g here
    refine ⟨head, long, untouched, whole, fun this => ?_⟩
    rcases owner with new | ⟨old, saved⟩
    · rw [new] at this
      exact absurd (some.inj this).symm same
    · exact saved g (own (old ▸ this))
  owner j this := by
    rw [frames]
    by_cases same : j = i
    · rw [same, update_self]
      exact Option.some_ne_none f
    rw [update_of_ne same]
    rcases owner with new | ⟨old, -⟩
    · rw [new] at this
      exact absurd (some.inj this).symm same
    · exact inv.owner j (old ▸ this)
  exact_ := by
    unfold ReportsExact
    rw [reports]
    exact inv.exact_

theorem reports_cons {r : Report} (reports : ReportsExact s)
    (right : IsAction r.sent → SccAction r.sent → r.reported = fetch r.sent 0 r.len)
    (more : t.reports = r :: s.reports) : ReportsExact t := by
  intro r' member
  rw [more] at member
  rcases List.mem_cons.mp member with rfl | before
  · exact right
  · exact reports r' before

/-! ### The start -/

/-- What `aml_filter_sp_mgmt_frame` leaves: the frame as it is, or the frame changed and its save. -/
inductive Filtered (toBand : Byte → Option Nl80211Band) (s : RestoreState) (buf : Memory) (len : ℕ)
    (station : Option OperChan) : RestoreState × TxFrame → Prop
  | same (peer5g : Bool) (plain : SccAction buf → station = none) :
    Filtered toBand s buf len station ({ s with peer5g }, ⟨buf, len, buf, .ofNat 16 len, false⟩)
  | changed {new : OperChan} {r : Memory × BitVec 16} (scc : SccAction buf) (some' : station = some new)
    (rewritten : rewriteFrame toBand new (s.peer5gAt buf) buf len = some r) :
    Filtered toBand s buf len station
      ({ s with
          peer5g := s.peer5gAt buf
          save := put s.save 0 (fetch buf 0 len)
          lenBefore := .ofNat 8 len
          lenDiff := r.2.setWidth 8 },
        ⟨buf, len, r.1, .ofNat 16 len - r.2, true⟩)

theorem filterStart_filtered {r : RestoreState × TxFrame} (filtered : s.filterStart toBand buf len station = some r) :
    Filtered toBand s buf len station r := by
  unfold RestoreState.filterStart at filtered
  split at filtered
  case isFalse other =>
    obtain rfl := some.inj filtered
    exact .same s.peer5g fun scc => absurd scc.1 other
  case isTrue =>
    dsimp only at filtered
    split at filtered
    · obtain rfl := some.inj filtered
      exact .same _ fun _ => rfl
    · rename_i new
      split at filtered
      case isTrue other =>
        obtain rfl := some.inj filtered
        exact .same _ fun scc => absurd scc other
      case isFalse scc =>
        split at filtered
        case isFalse => cases filtered
        case isTrue =>
          obtain ⟨r, rewritten, rfl⟩ := map_eq_some_iff.mp filtered
          exact .changed (Decidable.not_not.mp scc) rfl rewritten

theorem saved_changed {new : OperChan} {r : Memory × BitVec 16} {data : Memory}
    (rewritten : rewriteFrame toBand new (s.peer5gAt buf) buf len = some r)
    (fit : LengthsFit toBand (s.peer5gAt buf) buf len (some new)) (save : t.save = put data 0 (fetch buf 0 len))
    (before : t.lenBefore = .ofNat 8 len) (lenDiff : t.lenDiff = r.2.setWidth 8) :
    Saved t ⟨buf, len, r.1, .ofNat 16 len - r.2, true⟩ := by
  obtain ⟨short, diff⟩ := fit
  rw [rewritten] at diff
  have diff : r.2.toNat < 256 := diff
  refine ⟨?_, ?_, ?_⟩
  · rw [save]
    exact stored_put
  · rw [before]
    exact toNat_byte short
  · have wide : (r.2.setWidth 8).setWidth 16 = r.2 := by
      refine BitVec.eq_of_toNat_eq ?_
      rw [BitVec.toNat_setWidth, BitVec.toNat_setWidth]
      omega
    rw [lenDiff, wide]
    exact BitVec.sub_add_cancel _ _

theorem start (inv : RestoreInv s) (free : s.frames i = none) (long : 24 < len)
    (fit : SccAction buf → LengthsFit toBand (s.peer5gAt buf) buf len station) {r : RestoreState × TxFrame}
    (filtered : Filtered toBand s buf len station r) (outcome : Outcome) : RestoreInv (r.1.finish i r.2 outcome) := by
  have original : IsAction buf → SccAction buf → fetch buf 0 len = fetch buf 0 len := fun _ _ => rfl
  cases filtered with
  | same peer5g plain =>
    cases outcome with
    | queued =>
      refine inv.add free rfl ⟨fun _ _ => rfl, long, fun _ => rfl, fun _ scc => ?_, fun this => ?_⟩
        (.inr ⟨rfl, fun _ saved => ⟨saved.stored, saved.before, saved.length⟩⟩) rfl
      · have short := fit scc
        rw [plain scc] at short
        show (BitVec.ofNat 16 len).toNat = len
        rw [BitVec.toNat_ofNat]
        exact Nat.mod_eq_of_lt short
      · exact absurd free (inv.owner i this)
    | inactive =>
      refine inv.keep rfl (.inr ⟨rfl, fun _ saved => ⟨saved.stored, saved.before, saved.length⟩⟩) ?_
      show ReportsExact { s with reports := if P2pAction buf then _ else _ }
      split
      case isTrue => exact reports_cons inv.exact_ original rfl
      case isFalse => exact inv.exact_
    | unmapped =>
      exact inv.keep rfl (.inr ⟨rfl, fun _ saved => ⟨saved.stored, saved.before, saved.length⟩⟩) inv.exact_
  | changed scc some' rewritten =>
    subst some'
    cases outcome with
    | queued =>
      exact inv.add free rfl ⟨rewriteFrame_head rewritten, long, nofun, nofun,
        fun _ => saved_changed rewritten (fit scc) rfl rfl rfl⟩ (.inl rfl) rfl
    | inactive =>
      refine inv.keep rfl (.inl rfl) ?_
      show ReportsExact { s with reports := if P2pAction buf then _ else _ }
      split
      case isTrue => exact reports_cons inv.exact_ original rfl
      case isFalse => exact inv.exact_
    | unmapped => exact inv.keep rfl (.inl rfl) inv.exact_

/-! ### The confirmation -/

theorem saved_restored (saved : Saved s f) (short : f.len < 256) :
    fetch (put f.mem 0 (fetch s.save 0 s.lenBefore.toNat)) 0 (f.frameLen + s.lenDiff.setWidth 16).toNat =
      fetch f.sent 0 f.len := by
  have back := saved.stored.fetch
  rw [length_fetch] at back
  rw [saved.length, saved.before, back, BitVec.toNat_ofNat, Nat.mod_eq_of_lt (by omega)]
  have stored : Stored (put f.mem 0 (fetch f.sent 0 f.len)) 0 (fetch f.sent 0 f.len) := stored_put
  have read := stored.fetch
  rwa [length_fetch] at read

theorem remove (inv : RestoreInv s) (frames : t.frames = update s.frames i none)
    (owner : t.owner = none ∨ t.owner = s.owner ∧ s.owner ≠ some i ∧ ∀ f, Saved s f → Saved t f)
    (reports : ReportsExact t) : RestoreInv t where
  frames j g here := by
    rw [frames] at here
    by_cases same : j = i
    · rw [same, update_self] at here
      cases here
    rw [update_of_ne same] at here
    obtain ⟨head, long, untouched, whole, own⟩ := inv.frames j g here
    refine ⟨head, long, untouched, whole, fun this => ?_⟩
    rcases owner with none' | ⟨old, -, saved⟩
    · rw [none'] at this
      cases this
    · exact saved g (own (old ▸ this))
  owner j this := by
    rcases owner with none' | ⟨old, other, -⟩
    · rw [none'] at this
      cases this
    rw [old] at this
    have ne : j ≠ i := fun same => other (same ▸ this)
    rw [frames, update_of_ne ne]
    exact inv.owner j this
  exact_ := reports

theorem confirm (inv : RestoreInv s) (here : s.frames i = some f)
    (own : SccAction f.sent → s.lenBefore ≠ 0 ∨ f.rewritten = true → s.owner = some i) :
    RestoreInv ((s.filterConfirm f).1.report i (s.filterConfirm f).2) := by
  obtain ⟨head, long, untouched, whole, saved⟩ := inv.frames i f here
  unfold RestoreState.filterConfirm
  split
  case isTrue kind =>
    have scc := head.sccAction.mp kind.2
    unfold RestoreState.restore
    split
    case isTrue pending =>
      have mine := saved (own scc (.inl pending))
      have short : f.len < 256 := mine.before ▸ s.lenBefore.isLt
      refine inv.remove rfl (.inl ?_) ?_
      · show (if none = some i then none else none) = none
        exact ite_self none
      · exact reports_cons inv.exact_ (fun _ _ => saved_restored mine short) rfl
    case isFalse none' =>
      have plain : f.rewritten = false := by
        cases changed : f.rewritten with
        | false => rfl
        | true =>
          have before := (saved (own scc (.inr changed))).before
          rw [Decidable.not_not.mp none'] at before
          have zero : 0 = f.len := before
          omega
      refine inv.remove rfl ?_ ?_
      · by_cases this : s.owner = some i
        · exact .inl (if_pos this)
        · exact .inr ⟨if_neg this, this, fun _ saved => ⟨saved.stored, saved.before, saved.length⟩⟩
      · refine reports_cons inv.exact_ (fun _ _ => ?_) rfl
        show fetch f.mem 0 f.frameLen.toNat = fetch f.sent 0 f.len
        rw [untouched plain, whole plain scc]
  case isFalse other =>
    refine inv.remove rfl ?_ ?_
    · by_cases this : s.owner = some i
      · exact .inl (if_pos this)
      · exact .inr ⟨if_neg this, this, fun _ saved => ⟨saved.stored, saved.before, saved.length⟩⟩
    · exact reports_cons inv.exact_
        (fun action scc => absurd ⟨head.isAction.mpr action, head.sccAction.mpr scc⟩ other) rfl

end RestoreInv

section Runs

variable {toBand : Byte → Option Nl80211Band} {s : RestoreState}

theorem restoreInv (reach : (restoreSystem toBand).Reachable (OwnSave toBand) s) : RestoreInv s := by
  refine reach.invariant ⟨nofun, nofun, nofun⟩ ?_
  intro s a t _ inv allowed stepped
  cases a with
  | parse support =>
    obtain rfl := some.inj stepped
    exact inv.keep rfl (.inr ⟨rfl, fun _ saved => ⟨saved.stored, saved.before, saved.length⟩⟩) inv.exact_
  | start i buf len station outcome =>
    have stepped : (if s.frames i = none ∧ 24 < len then
      (s.filterStart toBand buf len station).map fun r => r.1.finish i r.2 outcome else none) = some t := stepped
    split at stepped
    case isFalse => cases stepped
    case isTrue new =>
      obtain ⟨r, filtered, rfl⟩ := map_eq_some_iff.mp stepped
      exact inv.start new.1 new.2 allowed (RestoreInv.filterStart_filtered filtered) outcome
  | confirm i =>
    obtain ⟨f, here, rfl⟩ := map_eq_some_iff.mp stepped
    have own : match s.frames i with
      | none => True
      | some f => SccAction f.sent → s.lenBefore ≠ 0 ∨ f.rewritten = true → s.owner = some i := allowed
    rw [here] at own
    exact inv.confirm here own

/-- **Every report is exact**, where the lengths fit and the buffer is the one of the frame. -/
theorem reports_exact (reach : (restoreSystem toBand).Reachable (OwnSave toBand) s) : ReportsExact s :=
  (restoreInv reach).exact_

end Runs

def startSample (i : ℕ) (chans : List Byte) (short : chans.length < 9) : RestoreAct :=
  .start i (sampleMemory (sampleFrame chans short)) (sampleFrame chans short).bytes.length
    (some ⟨.band5GHz, 36, 115⟩) .queued

theorem reports_exact_sample : ∃ s, s.reports.map (fun r => decide (SccAction r.sent)) = [true] ∧ ReportsExact s := by
  have reach := System.reachable_of_run (restoreSystem sampleToBand) (OwnSave sampleToBand)
    [startSample 0 [36, 40] (by decide), .confirm 0] (by decide +kernel)
  refine ⟨_, ?_, reports_exact reach⟩
  decide +kernel

/-- **Two frames on their way**: the first one is confirmed as the second one. -/
theorem reported_other : ¬∀ toBand s, (restoreSystem toBand).Reachable (fun _ _ => True) s → ReportsExact s := by
  intro all
  have reach := System.reachable_of_run (restoreSystem sampleToBand) (fun _ _ => True)
    [startSample 0 [36, 40] (by decide), startSample 1 [36, 44] (by decide), .confirm 0] (by decide +kernel)
  generalize state : (System.run (restoreSystem sampleToBand) (fun _ _ => True) (restoreSystem sampleToBand).init
    [startSample 0 [36, 40] (by decide), startSample 1 [36, 44] (by decide), .confirm 0]).get _ = s at reach
  have reports := all _ _ reach
  have wrong : ∃ r ∈ s.reports, IsAction r.sent ∧ SccAction r.sent ∧ r.reported ≠ fetch r.sent 0 r.len := by
    rw [← state]
    decide +kernel
  obtain ⟨r, member, action, scc, ne⟩ := wrong
  exact ne (reports r member action scc)

end W2l.P2p
