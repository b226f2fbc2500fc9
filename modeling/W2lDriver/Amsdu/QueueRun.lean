/-
**A-MSDUs in a TX queue: every run keeps the invariant.**

* `TxqInv` — no socket buffer is in two places, each buffer meets `BufferInv`, and the A-MSDU in
  progress is queued with room for one more subframe.
* `TxqInv.amsduAddSubframe`, `TxqInv.amsduUpdateLen`, … — one lemma for each function.
* `frames_kept` — **frames stay whole, each in one buffer**.
-/

import Mathlib.Data.List.Flatten
import Mathlib.Data.List.Perm.Subperm
import W2lDriver.Amsdu.Queue

namespace W2l.Amsdu

open Cmd (BusType)
open Lib (Byte slice write slice_write_outside padLen)
open List (append_assoc append_nil append_of_mem flatMap_append flatMap_cons map_cons mem_append
  mem_append_left mem_append_right mem_cons mem_cons_self mem_singleton perm_append_comm perm_middle
  take_append_drop)
open Option (map_eq_some_iff some.inj)

/-! ### The queue keeps its invariant -/

theorem adjustMaxnb_le (s : Txq) : s.adjustMaxnb.amsduMaxnb ≤ 6 := by
  unfold Txq.adjustMaxnb nxTxPayloadMax
  simp only
  split
  · decide
  · split
    · exact Int.le_refl 6
    · split <;> omega

namespace TxqInv

variable {s : Txq}

theorem noAmsdu (inv : TxqInv s) : TxqInv { s with amsdu := none } :=
  ⟨inv.nodup, inv.known, inv.buffers, inv.fresh, fun _ member => nomatch member⟩

theorem setAmsdu (inv : TxqInv { s with amsdu := none })
    (inProgress : ∀ i ∈ s.amsdu, InProgress s i) : TxqInv s :=
  ⟨inv.nodup, inv.known, inv.buffers, inv.fresh, inProgress⟩

section

variable (inv : TxqInv s)

include inv

theorem adjust : TxqInv s.adjustMaxnb :=
  ⟨inv.nodup, inv.known, inv.buffers, inv.fresh, inv.inProgress⟩

theorem disjoint {front back : List Buffer} {b : Buffer}
    (split : s.skList ++ s.inFlight = front ++ b :: back) :
    ∀ c ∈ front ++ back, c.skb.id ≠ b.skb.id := by
  have nodup := inv.nodup
  rw [Txq.ids, split] at nodup
  have moved := ((perm_middle (a := b)).flatMap_right Buffer.ids).nodup_iff.mp nodup
  rw [flatMap_cons, List.nodup_append] at moved
  intro c member same
  refine moved.2.2 b.skb.id mem_cons_self c.skb.id ?_ same.symm
  exact List.mem_flatMap.mpr ⟨c, member, mem_cons_self⟩

theorem unique {b c : Buffer} (there : b ∈ s.skList ++ s.inFlight)
    (other : c ∈ s.skList ++ s.inFlight) (same : c.skb.id = b.skb.id) : c = b := by
  obtain ⟨front, back, split⟩ := append_of_mem there
  rw [split] at other
  rcases mem_append.mp other with before | behind
  · exact absurd same (inv.disjoint split c (mem_append_left _ before))
  · rcases mem_cons.mp behind with rfl | after
    · rfl
    · exact absurd same (inv.disjoint split c (mem_append_right _ after))

theorem update_eq {b b' : Buffer} (queued : b ∈ s.skList)
    (same : b'.skb.id = b.skb.id) :
    ∃ front back, s.skList = front ++ b :: back ∧ (s.update b').skList = front ++ b' :: back := by
  obtain ⟨front, back, split⟩ := append_of_mem queued
  have whole : s.skList ++ s.inFlight = front ++ b :: (back ++ s.inFlight) := by
    rw [split, append_assoc, List.cons_append]
  have other := inv.disjoint whole
  have left : ∀ cs : List Buffer, (∀ c ∈ cs, c ∈ front ++ (back ++ s.inFlight)) →
      (cs.map fun c => if c.skb.id = b'.skb.id then b' else c) = cs := by
    intro cs inside
    refine (List.map_congr_left fun c member => ?_).trans (List.map_id cs)
    rw [if_neg (same ▸ other c (inside c member))]
    rfl
  refine ⟨front, back, split, ?_⟩
  rw [Txq.update, split, List.map_append, map_cons, if_pos same.symm,
    left front fun c member => mem_append_left _ member,
    left back fun c member => mem_append_right _ (mem_append_left _ member)]

end

theorem mem_update {b' c : Buffer} (member : c ∈ (s.update b').skList) :
    c = b' ∨ (c ∈ s.skList ∧ c.skb.id ≠ b'.skb.id) := by
  obtain ⟨d, there, rfl⟩ := List.mem_map.mp member
  split
  case isTrue => exact .inl rfl
  case isFalse other => exact .inr ⟨there, other⟩

theorem update (inv : TxqInv s) (idle : s.amsdu = none) {b b' : Buffer} (queued : b ∈ s.skList)
    (same : b'.skb.id = b.skb.id) {new : List Nat} (more : b'.ids = b.ids ++ new)
    (unseen : (s.ids ++ new).Nodup) (known : ∀ i ∈ new, i < s.nextId)
    (kept : BufferInv s.busType b') (fresh : FreshEth s.busType b') : TxqInv (s.update b') := by
  obtain ⟨front, back, split, updated⟩ := inv.update_eq queued same
  have ids : (s.update b').ids.Perm (s.ids ++ new) := by
    show (((s.update b').skList ++ s.inFlight).flatMap Buffer.ids).Perm _
    rw [updated, Txq.ids, split]
    simp only [flatMap_append, flatMap_cons, more, append_assoc]
    refine List.Perm.append_left _ (List.Perm.append_left _ ?_)
    rw [← append_assoc new]
    refine (perm_append_comm.append_right _).trans ?_
    rw [append_assoc]
    exact List.Perm.append_left _ perm_append_comm
  constructor
  case nodup => exact ids.nodup_iff.mpr unseen
  case known =>
    intro i member
    rcases mem_append.mp (ids.subset member) with old | added
    · exact inv.known i old
    · exact known i added
  case buffers =>
    intro c member
    rcases mem_append.mp member with there | flying
    · rcases mem_update there with rfl | ⟨old, -⟩
      · exact kept
      · exact inv.buffers c (mem_append_left _ old)
    · exact inv.buffers c (mem_append_right _ flying)
  case fresh =>
    intro c member
    rcases mem_update member with rfl | ⟨old, -⟩
    · exact fresh
    · exact inv.fresh c old
  case inProgress =>
    intro i member
    have off : (s.update b').amsdu = none := idle
    rw [off] at member
    cases member

theorem update_inProgress (inv : TxqInv s) {b b' : Buffer} (queued : b ∈ s.skList)
    (same : b'.skb.id = b.skb.id) (flag : b'.txuAmsdu = true) (room : b'.nb < 6) :
    InProgress (s.update b') b.skb.id := by
  obtain ⟨front, back, -, updated⟩ := inv.update_eq queued same
  refine ⟨b', ?_, same, flag, room⟩
  rw [updated]
  exact mem_append_right _ mem_cons_self

end TxqInv

/-- The buffer `aml_amsdu_add_subframe` is called with, or leaves to be queued alone. -/
structure GoesOn (s : Txq) (skb : Skb) (f : EthFrame) : Prop where
  whole : Whole skb f
  headroom : txMaxHeadroom s.busType ≤ skb.data
  unseen : skb.id ∉ s.ids
  known : skb.id < s.nextId

section

variable {s : Txq} {skb : Skb} {f : EthFrame} (goes : GoesOn s skb f)

include goes

theorem GoesOn.room {pad : Nat}
    (pads : pad ≤ 3) : amsduTxhdrLen + pad + 14 + f.llcLen ≤ skb.data := by
  have most : amsduTxhdrLen + 14 + 4 + 8 ≤ txMaxHeadroom s.busType := Nat.le_max_right _ _
  have headroom := goes.headroom
  have llc := f.llcLen_le
  omega

theorem GoesOn.nodup
    (inv : TxqInv s) : (s.ids ++ [skb.id]).Nodup := by
  refine List.nodup_append.mpr ⟨inv.nodup, List.pairwise_singleton _ _, ?_⟩
  intro i member j last same
  rw [mem_singleton.mp last] at same
  exact goes.unseen (same ▸ member)

/-- What `aml_amsdu_add_subframe_header` gives back. -/
theorem GoesOn.addSubframeHeader
    {pad : Nat} (pads : pad ≤ 3) (a2eInit : Bool) :
    (∃ h, amsduAddSubframeHeader s.busType a2eInit pad skb f = .ok h ∧ h.pad = pad ∧ h.frame = f ∧
        h.skb.id = skb.id ∧ SubBuilt h) ∨
      ∃ skb', amsduAddSubframeHeader s.busType a2eInit pad skb f = .error skb' ∧ GoesOn s skb' f := by
  by_cases failed : s.busType = .pcie ∧ a2eInit = false
  · obtain ⟨skb', restored, id, data, whole⟩ :=
      amsduAddSubframeHeader_restored goes.whole (goes.room pads) failed.1 failed.2
    exact .inr ⟨skb', restored, whole, data ▸ goes.headroom, id ▸ goes.unseen, id ▸ goes.known⟩
  · refine .inl (amsduAddSubframeHeader_built goes.whole (goes.room pads) fun pcie => ?_)
    cases mapped : a2eInit with
    | true => rfl
    | false => exact absurd ⟨pcie, mapped⟩ failed

end

/-! ### Frames from the network stack -/

theorem Whole.subframeLength {skb : Skb} {f : EthFrame} (whole : Whole skb f) :
    amsduSubframeLength (skb.hProto skb.data) skb.len = 14 + (f.llcLen + f.payload.length) := by
  rw [whole.toCarries.hProto, whole.len, amsduSubframeLength, EthFrame.llcLen, EthFrame.typed]
  simp only [decide_eq_true_eq]
  split <;> omega

/-- What a step of `aml_amsdu_add_subframe` has to leave. -/
def Added (s : Txq) (f : EthFrame) (out : Txq × Option Skb) : Prop :=
  TxqInv out.1 ∧ out.1.busType = s.busType ∧ ∀ skb ∈ out.2, GoesOn out.1 skb f

section AddSubframe

variable {s : Txq} {b : Buffer} {skb : Skb} {f : EthFrame}

theorem Added.goesOn {s' : Txq} (inv : TxqInv s') (bus : s'.busType = s.busType)
    (goes : GoesOn s' skb f) : Added s f (s', some skb) := by
  refine ⟨inv, bus, ?_⟩
  rintro skb' ⟨⟩
  exact goes

theorem TxqInv.addToAmsdu (inv : TxqInv s) (most : s.amsduMaxnb ≤ 6)
    (current : s.amsdu = some b.skb.id) (queued : b ∈ s.skList) (a2eInit : Bool)
    (goes : GoesOn s skb f) : Added s f (s.addToAmsdu b a2eInit skb f) := by
  obtain ⟨c, there, same, flag, room⟩ := inv.inProgress b.skb.id current
  obtain rfl := inv.unique (mem_append_left _ queued) (mem_append_left _ there) same
  have kept := inv.buffers c (mem_append_left _ queued)
  have agg := kept.aggregated flag
  have pads : c.pad ≤ 3 := by
    rw [agg.pad]
    exact padLen_le _
  have limitLt : s.amsduLen.toNat < 2 ^ 16 := s.amsduLen.isLt
  unfold Txq.addToAmsdu
  split
  case isTrue =>
    exact .goesOn inv.noAmsdu rfl ⟨goes.whole, goes.headroom, goes.unseen, goes.known⟩
  case isFalse passed =>
    obtain ⟨-, fits⟩ := not_or.mp passed
    rw [goes.whole.subframeLength] at fits
    rcases goes.addSubframeHeader pads a2eInit with
      ⟨h, done, pad, frame, id, built⟩ | ⟨skb', failed, goes'⟩
    · have sizes : c.len + c.pad + (14 + h.msduLen) ≤ s.amsduLen.toNat := by
        rw [built.msduLen, frame]
        omega
      have added := agg.ready.addHdr kept.subs built pad room limitLt sizes
      have inv' := kept.addHdr built pad (by omega) added
      have shape : { c.addHdr h s.amsduLen.toNat with txuAmsdu := true } = c.addHdr h s.amsduLen.toNat := by
        show { c.addHdr h s.amsduLen.toNat with txuAmsdu := true } =
          { c.addHdr h s.amsduLen.toNat with txuAmsdu := c.txuAmsdu }
        rw [flag]
      rw [shape] at inv'
      have more : (c.addHdr h s.amsduLen.toNat).ids = c.ids ++ [skb.id] := by
        rw [← id]
        exact congrArg (c.skb.id :: ·) List.map_append
      have updated : TxqInv { s.update (c.addHdr h s.amsduLen.toNat) with amsdu := none } :=
        inv.noAmsdu.update rfl queued rfl more (goes.nodup inv)
          (fun i last => mem_singleton.mp last ▸ goes.known) inv' (inv.fresh c queued)
      simp only [done]
      split
      case isTrue => exact ⟨updated, rfl, fun _ member => nomatch member⟩
      case isFalse less =>
        refine ⟨updated.setAmsdu ?_, rfl, fun _ member => nomatch member⟩
        intro j member
        have here : s.amsdu = some j := member
        rw [current] at here
        obtain rfl := some.inj here
        have few : (c.addHdr h s.amsduLen.toNat).nb < 6 := by
          have less' : ¬ s.amsduMaxnb ≤ ((c.addHdr h s.amsduLen.toNat).nb : Int) := less
          omega
        exact inv.update_inProgress queued rfl flag few
    · simp only [failed]
      exact .goesOn inv.noAmsdu rfl ⟨goes'.whole, goes'.headroom, goes'.unseen, goes'.known⟩

theorem TxqInv.startAmsdu (inv : TxqInv s) (idle : s.amsdu = none) (queued : b ∈ s.skList)
    (a2eInit : Bool) (goes : GoesOn s skb f) : Added s f (s.startAmsdu b a2eInit skb f) := by
  have kept := inv.buffers b (mem_append_left _ queued)
  have fresh := inv.fresh b queued
  have limitLt : s.amsduLen.toNat < 2 ^ 16 := s.amsduLen.isLt
  unfold Txq.startAmsdu
  simp only
  generalize read : amsduSubframeLength (b.skb.hProto b.skb.macHeader) (b.frameLen + 14) = len1
  split
  case isTrue => exact .goesOn inv rfl goes
  case isFalse passed =>
    simp only [not_or, ne_eq, not_not, Bool.not_eq_true, Nat.not_lt] at passed
    obtain ⟨len, retry, -, fits⟩ := passed
    rw [goes.whole.subframeLength, amsduPadding_eq] at fits
    have single := kept.single_of_len len
    have started := kept.start single len1
    have ready := kept.start_ready fresh retry read.symm (by omega)
    have padEq : (b.start len1).pad = padLen len1 := amsduPadding_eq len1
    have lenEq : (b.start len1).len = len1 := Nat.mod_eq_of_lt (by omega)
    have pads : (b.start len1).pad ≤ 3 := by
      rw [padEq]
      exact padLen_le _
    have alone : b.ids = [b.skb.id] := by
      rw [Buffer.ids, kept.single single]
      rfl
    rcases goes.addSubframeHeader pads a2eInit with
      ⟨h, done, pad, frame, id, built⟩ | ⟨skb', failed, goes'⟩
    · have sizes : (b.start len1).len + (b.start len1).pad + (14 + h.msduLen) ≤ s.amsduLen.toNat := by
        rw [lenEq, padEq, built.msduLen, frame]
        omega
      have agg := ready.addHdr started.subs built pad (show 1 < 6 by decide) limitLt sizes
      have inv' := started.addHdr built pad (by omega) agg
      have more : ({ (b.start len1).addHdr h s.amsduLen.toNat with txuAmsdu := true } : Buffer).ids =
          b.ids ++ [skb.id] := by
        rw [← id, alone]
        rfl
      have updated : TxqInv (s.update { (b.start len1).addHdr h s.amsduLen.toNat with txuAmsdu := true }) :=
        inv.update idle queued rfl more (goes.nodup inv) (fun i last => mem_singleton.mp last ▸ goes.known) inv' fresh
      have progress : InProgress
          (s.update { (b.start len1).addHdr h s.amsduLen.toNat with txuAmsdu := true }) b.skb.id :=
        inv.update_inProgress queued rfl rfl (show 2 < 6 by decide)
      simp only [done]
      split
      case isTrue =>
        refine ⟨TxqInv.setAmsdu updated.noAmsdu ?_, rfl, fun _ member => nomatch member⟩
        rintro j ⟨⟩
        exact progress
      case isFalse => exact ⟨updated, rfl, fun _ member => nomatch member⟩
    · have same : (b.start len1).ids = b.ids ++ [] := by
        rw [alone]
        rfl
      have unseen : (s.ids ++ []).Nodup := (append_nil s.ids).symm ▸ inv.nodup
      have updated : TxqInv (s.update (b.start len1)) :=
        inv.update idle queued rfl same unseen (fun i none => nomatch none) started fresh
      obtain ⟨front, back, split, after⟩ := @update_eq s inv b (b.start len1) queued rfl
      have ids : (s.update (b.start len1)).ids = s.ids := by
        show ((s.update (b.start len1)).skList ++ s.inFlight).flatMap Buffer.ids = _
        rw [after, Txq.ids, split]
        simp only [flatMap_append, flatMap_cons, same, append_nil]
      simp only [failed]
      exact .goesOn updated rfl ⟨goes'.whole, goes'.headroom, ids ▸ goes'.unseen, goes'.known⟩

theorem TxqInv.amsduAddSubframe (inv : TxqInv s) (a2eInit : Bool) (goes : GoesOn s skb f) :
    Added s f (s.amsduAddSubframe a2eInit skb f) := by
  have inv' := inv.adjust
  have most := adjustMaxnb_le s
  have goes' : GoesOn s.adjustMaxnb skb f :=
    ⟨goes.whole, goes.headroom, goes.unseen, goes.known⟩
  unfold Txq.amsduAddSubframe
  simp only
  split
  case isTrue => exact .goesOn inv' rfl goes'
  case isFalse =>
    split
    case h_1 i current =>
      split
      case h_1 c found =>
        have same : c.skb.id = i := by simpa using List.find?_some found
        exact inv'.addToAmsdu most (same ▸ current) (List.mem_of_find?_eq_some found) a2eInit goes'
      case h_2 => exact .goesOn inv' rfl goes'
    case h_2 current =>
      split
      case h_1 c last => exact inv'.startAmsdu current (List.mem_of_getLast? last) a2eInit goes'
      case h_2 => exact .goesOn inv' rfl goes'

end AddSubframe

theorem GoesOn.txHeadroom {s : Txq} {skb : Skb} {f : EthFrame} (goes : GoesOn s skb f) :
    txHeadroom s.busType ≤ skb.data :=
  (txHeadroom_le s.busType).trans goes.headroom

theorem bufferInv_pushTxhdr {bus : BusType} {skb : Skb} {f : EthFrame} {b : Buffer}
    (whole : Whole skb f) (room : txHeadroom bus ≤ skb.data) (skbEq : b.skb = pushTxhdr bus skb)
    (frame : b.frame = f) (frameLen : b.frameLen = (skb.len - 14) % 2 ^ 16)
    (packetLen : b.packetLen = [b.frameLen]) (hdrs : b.hdrs = []) (flag : b.txuAmsdu = false) :
    BufferInv bus b ∧ FreshEth bus b := by
  have small := f.payloadLength
  obtain ⟨off, payload⟩ := pushTxhdr_payload whole room
  refine ⟨⟨?_, ?_, ?_, ?_, fun _ => hdrs, ?_⟩, fun _ => ?_⟩
  · rw [frameLen, whole.len, frame, Nat.add_sub_cancel_left, Nat.mod_eq_of_lt (by omega)]
  · rw [skbEq, frame, off, payload]
  · rw [hdrs]
    intro h member
    cases member
  · rw [packetLen, hdrs]
    rfl
  · rw [flag]
    intro on
    cases on
  · rw [skbEq, frame]
    exact pushTxhdr_hProto whole room

namespace TxqInv

variable {s s' : Txq}

section

variable (inv : TxqInv s)

include inv

theorem queueSkb (spFrame : Bool) {skb : Skb} {f : EthFrame}
    (goes : GoesOn s skb f) : TxqInv (s.queueSkb spFrame skb f) := by
  have ids : (s.queueSkb spFrame skb f).ids.Perm (s.ids ++ [skb.id]) := by
    rw [← pushTxhdr_id s.busType skb]
    show ((s.skList ++ [_]) ++ s.inFlight).flatMap Buffer.ids |>.Perm _
    rw [Txq.ids]
    simp only [flatMap_append, append_assoc]
    exact List.Perm.append_left _ perm_append_comm
  have new : ∀ b ∈ (s.queueSkb spFrame skb f).skList,
      b ∈ s.skList ∨ (BufferInv s.busType b ∧ FreshEth s.busType b) := by
    intro b member
    rcases mem_append.mp member with old | last
    · exact .inl old
    · rw [mem_singleton.mp last]
      exact .inr (bufferInv_pushTxhdr goes.whole goes.txHeadroom rfl rfl rfl rfl rfl rfl)
  constructor
  case nodup => exact ids.nodup_iff.mpr (goes.nodup inv)
  case known =>
    intro i member
    rcases mem_append.mp (ids.subset member) with old | last
    · exact inv.known i old
    · exact mem_singleton.mp last ▸ goes.known
  case buffers =>
    intro b member
    rcases mem_append.mp member with queued | flying
    · rcases new b queued with old | ⟨kept, -⟩
      · exact inv.buffers b (mem_append_left _ old)
      · exact kept
    · exact inv.buffers b (mem_append_right _ flying)
  case fresh =>
    intro b queued
    rcases new b queued with old | ⟨-, fresh⟩
    · exact inv.fresh b old
    · exact fresh
  case inProgress =>
    intro i member
    obtain ⟨c, there, current⟩ := inv.inProgress i member
    exact ⟨c, mem_append_left _ there, current⟩

theorem withNextId : TxqInv { s with nextId := s.nextId + 1 } :=
  ⟨inv.nodup, fun i member => Nat.lt_succ_of_lt (inv.known i member), inv.buffers, inv.fresh, inv.inProgress⟩

theorem ofFrame_goesOn (mem : Nat → Byte) (headroom : Nat) (f : EthFrame) : GoesOn { s with nextId := s.nextId + 1 }
      (Skb.ofFrame s.nextId mem (max headroom (txMaxHeadroom s.busType)) f) f :=
  ⟨⟨ofFrame_carries _ mem _ f, rfl, rfl⟩, Nat.le_max_right _ _,
    fun member => Nat.lt_irrefl _ (inv.known _ member), Nat.lt_succ_self _⟩

theorem startXmit (mem : Nat → Byte) (headroom : Nat) (f : EthFrame)
    (spFrame a2eInit alloc : Bool) : TxqInv (s.startXmit mem headroom f spFrame a2eInit alloc) := by
  have added := inv.withNextId.amsduAddSubframe a2eInit (inv.ofFrame_goesOn mem headroom f)
  unfold Txq.startXmit
  simp only
  split
  case h_1 s₁ out =>
    rw [out] at added
    exact added.1
  case h_2 s₁ skb out =>
    rw [out] at added
    obtain ⟨kept, -, left⟩ := added
    split
    · exact kept.queueSkb spFrame (left skb rfl)
    · exact kept

theorem mono (nextId : s'.nextId = s.nextId) (ids : s'.ids.Subperm s.ids)
    (buffers : ∀ b ∈ s'.skList ++ s'.inFlight, BufferInv s'.busType b)
    (fresh : ∀ b ∈ s'.skList, FreshEth s'.busType b)
    (inProgress : ∀ i ∈ s'.amsdu, InProgress s' i) : TxqInv s' where
  nodup := by
    obtain ⟨left, perm, sub⟩ := ids
    exact perm.nodup_iff.mp (inv.nodup.sublist sub)
  known := fun i member => nextId ▸ inv.known i (ids.subset member)
  buffers := buffers
  fresh := fresh
  inProgress := inProgress

end

end TxqInv

/-! ### Buffers that leave the queue and come back -/

theorem BufferInv.setRetry {bus : BusType} {b : Buffer} (inv : BufferInv bus b) (retry : Bool) :
    BufferInv bus { b with txuRetry := retry } :=
  ⟨inv.frameLen, inv.payload, inv.subs, inv.packetLen, inv.single, fun flag =>
    let agg := inv.aggregated flag
    ⟨agg.nonempty, agg.nb, agg.few, agg.len, agg.pad, agg.fits, agg.limit, agg.aligned, agg.laid⟩⟩

theorem BufferInv.storeDesc {bus : BusType} {b : Buffer} (inv : BufferInv bus b) {desc : List Byte}
    (length : desc.length = txdescHostLen) : BufferInv bus (b.storeDesc bus desc) := by
  have size : desc.length = 72 := length
  have replaced : ∀ skb : Skb, slice skb.mem (payloadOff bus skb) b.frame.payload.length =
      b.frame.payload → BufferInv bus { b with skb := skb } := fun skb payload =>
    ⟨inv.frameLen, payload, inv.subs, inv.packetLen, inv.single, fun flag =>
      let agg := inv.aggregated flag
      ⟨agg.nonempty, agg.nb, agg.few, agg.len, agg.pad, agg.fits, agg.limit, agg.aligned, agg.laid⟩⟩
  cases bus with
  | pcie => exact inv
  | sdio =>
    have header : txHeadroom .sdio = 84 := rfl
    refine replaced _ ?_
    show slice (write b.skb.mem (b.skb.data + 12) desc) (b.skb.data + txHeadroom .sdio + 0) _ = _
    rw [slice_write_outside (.inr (by omega))]
    exact inv.payload
  | usb =>
    have header : txHeadroom .usb = 80 := rfl
    refine replaced _ ?_
    show slice (write b.skb.mem (b.skb.data + 8) desc) (b.skb.data + txHeadroom .usb + 0) _ = _
    rw [slice_write_outside (.inr (by omega))]
    exact inv.payload

theorem Buffer.storeDesc_ids (b : Buffer) (bus : BusType) (desc : List Byte) :
    (b.storeDesc bus desc).ids = b.ids := by
  cases bus <;> rfl

theorem Txq.txPush_some {s s' : Txq} {desc : List Byte} (stepped : s.txPush desc = some s') :
    ∃ b rest, s.skList = b :: rest ∧ desc.length = txdescHostLen ∧
      s' = { s with
        skList := rest
        nbRetry := s.nbRetry - 1
        amsdu := if s.amsdu = some b.skb.id then none else s.amsdu
        inFlight := s.inFlight ++ [{ b with txuRetry := false }.storeDesc s.busType desc] } := by
  unfold Txq.txPush at stepped
  split at stepped
  case h_1 => cases stepped
  case h_2 b rest list =>
    split at stepped
    case isFalse => cases stepped
    case isTrue length => exact ⟨b, rest, list, length, (some.inj stepped).symm⟩

theorem mem_insertRetry {l : List Buffer} {n : Nat} {x c : Buffer} (member : c ∈ l.take n ++ x :: l.drop n) :
    c ∈ l ∨ c = x := by
  rcases mem_append.mp member with front | behind
  · exact .inl (List.mem_of_mem_take front)
  · rcases mem_cons.mp behind with rfl | back
    · exact .inr rfl
    · exact .inl (List.mem_of_mem_drop back)

namespace TxqInv

variable {s s' : Txq}

section

variable (inv : TxqInv s)

include inv

theorem txPush {desc : List Byte} (stepped : s.txPush desc = some s') : TxqInv s' := by
  obtain ⟨b, rest, list, length, rfl⟩ := Txq.txPush_some stepped
  have first : b ∈ s.skList := list ▸ mem_cons_self
  have later : ∀ c ∈ rest, c ∈ s.skList := fun c member => list ▸ List.mem_cons_of_mem b member
  have sent := ((inv.buffers b (mem_append_left _ first)).setRetry false).storeDesc length
  have sentIds : ({ b with txuRetry := false }.storeDesc s.busType desc).ids = b.ids :=
    Buffer.storeDesc_ids _ _ _
  refine inv.mono rfl (List.Perm.subperm ?_) ?_ (fun c member => inv.fresh c (later c member)) ?_
  · show ((rest ++ (s.inFlight ++ [_])).flatMap Buffer.ids).Perm _
    rw [Txq.ids, list, ← append_assoc]
    simp only [flatMap_append, flatMap_cons, List.flatMap_nil, append_nil, sentIds, append_assoc]
    rw [← append_assoc]
    exact perm_append_comm
  · intro c member
    rcases mem_append.mp member with queued | flying
    · exact inv.buffers c (mem_append_left _ (later c queued))
    · rcases mem_append.mp flying with old | last
      · exact inv.buffers c (mem_append_right _ old)
      · rw [mem_singleton.mp last]
        exact sent
  · intro i member
    change i ∈ (if s.amsdu = some b.skb.id then none else s.amsdu) at member
    split at member
    case isTrue => cases member
    case isFalse other =>
      obtain ⟨c, there, same, room⟩ := inv.inProgress i member
      refine ⟨c, ?_, same, room⟩
      rw [list] at there
      rcases mem_cons.mp there with rfl | behind
      · exact absurd (member.trans (congrArg some same.symm)) other
      · exact behind

theorem txRetry {id : Nat} (stepped : s.txRetry id = some s') : TxqInv s' := by
  obtain ⟨b, found, rfl⟩ := map_eq_some_iff.mp stepped
  have flying : b ∈ s.inFlight := List.mem_of_find?_eq_some found
  have same : b.skb.id = id := by simpa using List.find?_some found
  have kept := (inv.buffers b (mem_append_right _ flying)).setRetry true
  obtain ⟨front, back, split⟩ := append_of_mem flying
  -- the entry is the only one with its socket buffer
  have left : (s.inFlight.filter fun c => c.skb.id != id) = front ++ back := by
    have whole : s.skList ++ s.inFlight = (s.skList ++ front) ++ b :: back := by
      rw [split, append_assoc]
    have other := inv.disjoint whole
    have stays : ∀ c ∈ front ++ back, (c.skb.id != id) = true := by
      intro c member
      refine bne_iff_ne.mpr (same ▸ other c ?_)
      rw [append_assoc]
      exact mem_append_right _ member
    rw [split, List.filter_append, List.filter_cons_of_neg (by simp [same]), ← List.filter_append,
      List.filter_eq_self.mpr stays]
  refine inv.mono rfl (List.Perm.subperm ?_) ?_ ?_ ?_
  · show (((s.skList.take s.nbRetry ++ { b with txuRetry := true } :: s.skList.drop s.nbRetry) ++
      s.inFlight.filter fun c => c.skb.id != id).flatMap Buffer.ids).Perm _
    have perm : (s.skList.take s.nbRetry ++ b :: s.skList.drop s.nbRetry ++ (front ++ back)).Perm
        (s.skList ++ s.inFlight) := by
      have there : (s.skList.take s.nbRetry ++ b :: s.skList.drop s.nbRetry).Perm (b :: s.skList) := by
        refine perm_middle.trans ?_
        rw [take_append_drop]
      rw [split]
      refine (there.append_right _).trans ?_
      rw [List.cons_append, ← append_assoc, ← append_assoc]
      exact perm_middle.symm
    refine List.Perm.trans ?_ (perm.flatMap_right Buffer.ids)
    rw [left]
    simp only [flatMap_append, flatMap_cons]
    exact List.Perm.refl _
  · intro c member
    rcases mem_append.mp member with queued | still
    · rcases mem_insertRetry queued with old | rfl
      · exact inv.buffers c (mem_append_left _ old)
      · exact kept
    · exact inv.buffers c (mem_append_right _ (List.mem_filter.mp still).1)
  · intro c queued
    rcases mem_insertRetry queued with old | rfl
    · exact inv.fresh c old
    · exact fun off => nomatch off
  · intro i member
    obtain ⟨c, there, current⟩ := inv.inProgress i member
    refine ⟨c, ?_, current⟩
    show c ∈ s.skList.take s.nbRetry ++ { b with txuRetry := true } :: s.skList.drop s.nbRetry
    rw [← take_append_drop s.nbRetry s.skList] at there
    rcases mem_append.mp there with front | back
    · exact mem_append_left _ front
    · exact mem_append_right _ (List.mem_cons_of_mem _ back)

theorem sublist {skList inFlight : List Buffer} (queued : skList.Sublist s.skList)
    (flying : inFlight.Sublist s.inFlight) {amsdu : Option Nat} {nbRetry : Nat}
    (inProgress : ∀ i ∈ amsdu, i ∈ s.amsdu ∧ ∃ b ∈ skList, b.skb.id = i) :
    TxqInv { s with skList := skList, inFlight := inFlight, amsdu := amsdu, nbRetry := nbRetry } := by
  have all : (skList ++ inFlight).Sublist (s.skList ++ s.inFlight) := queued.append flying
  refine inv.mono rfl (List.Sublist.subperm (all.flatMap Buffer.ids))
    (fun c member => inv.buffers c (all.subset member))
    (fun c member => inv.fresh c (queued.subset member)) fun i member => ?_
  obtain ⟨old, b, there, same⟩ := inProgress i member
  obtain ⟨c, before, known, current⟩ := inv.inProgress i old
  obtain rfl := inv.unique (mem_append_left _ before)
    (mem_append_left _ (queued.subset there)) (same.trans known.symm)
  exact ⟨b, there, same, current⟩

theorem confirm (id : Nat) : TxqInv { s with inFlight := s.inFlight.filter fun c => c.skb.id != id } :=
  inv.sublist (List.Sublist.refl _) List.filter_sublist fun i member =>
    let ⟨c, there, same, _⟩ := inv.inProgress i member
    ⟨member, c, there, same⟩

theorem txqDropSkb {id : Nat} (stepped : s.txqDropSkb id = some s') : TxqInv s' := by
  obtain ⟨b, found, rfl⟩ := map_eq_some_iff.mp stepped
  have queued : b ∈ s.skList := List.mem_of_find?_eq_some found
  have same : b.skb.id = id := by simpa using List.find?_some found
  refine inv.sublist List.filter_sublist (List.Sublist.refl _) fun i member => ?_
  split at member
  case isTrue => cases member
  case isFalse other =>
    obtain ⟨c, there, known, flag, room⟩ := inv.inProgress i member
    refine ⟨member, c, List.mem_filter.mpr ⟨there, bne_iff_ne.mpr fun here => other ?_⟩, known⟩
    -- the dropped entry would be the A-MSDU in progress, which has a subframe behind its first
    obtain rfl := inv.unique (mem_append_left _ queued) (mem_append_left _ there) (here.trans same.symm)
    have kept := inv.buffers c (mem_append_left _ queued)
    obtain ⟨h, rest, shape⟩ := List.exists_cons_of_ne_nil (kept.aggregated flag).nonempty
    refine ⟨?_, member.trans (congrArg some (known.symm.trans same))⟩
    rw [kept.packetLen, shape]
    exact Nat.succ_lt_succ (Nat.succ_pos _)

end

end TxqInv

/-! ### An A-MSDU taken apart -/

namespace Buffer

variable {bus : BusType} {b : Buffer}

theorem alone_inv (inv : BufferInv bus b) : BufferInv bus b.alone where
  frameLen := inv.frameLen
  payload := inv.payload
  subs := by
    intro h member
    cases member
  packetLen := by
    show b.packetLen.take 1 = _
    rw [inv.packetLen]
    rfl
  single := fun _ => rfl
  aggregated := fun flag => nomatch flag

theorem split_id {allocated : Bool} {h : AmsduTxhdr} {c : Buffer}
    (queued : b.split bus allocated h = some c) : c.ids = [h.skb.id] := by
  unfold split at queued
  simp only at queued
  split at queued
  case isTrue => cases queued
  case isFalse =>
    obtain rfl := some.inj queued
    show [(pushTxhdr bus (amsduDelSubframeHeader h)).id] = _
    rw [pushTxhdr_id]
    rfl

theorem split_inv {allocated : Bool} {h : AmsduTxhdr} {c : Buffer} (built : SubBuilt h)
    (queued : b.split bus allocated h = some c) : BufferInv bus c ∧ FreshEth bus c := by
  obtain ⟨whole, -⟩ := amsduDelSubframeHeader_whole built
  unfold split at queued
  simp only at queued
  split at queued
  case isTrue => cases queued
  case isFalse passed =>
    obtain rfl := some.inj queued
    have room : txHeadroom bus ≤ (amsduDelSubframeHeader h).data :=
      Nat.not_lt.mp (not_or.mp passed).1
    exact bufferInv_pushTxhdr whole room rfl rfl rfl rfl rfl rfl

theorem dismantle_ids (allocated : Nat → Bool) : ((b.dismantle bus allocated).flatMap ids).Sublist b.ids := by
  show (b.skb.id :: (b.hdrs.filterMap fun h => b.split bus (allocated h.skb.id) h).flatMap ids).Sublist
    (b.skb.id :: b.hdrs.map fun h => h.skb.id)
  refine List.Sublist.cons_cons _ ?_
  generalize b.hdrs = hdrs
  induction hdrs with
  | nil => exact List.Sublist.refl _
  | cons h rest ih =>
    rw [map_cons, List.filterMap_cons]
    split
    case h_1 => exact ih.cons _
    case h_2 c queued =>
      rw [flatMap_cons, split_id queued]
      exact ih.cons_cons _

theorem dismantle_inv (inv : BufferInv bus b) (fresh : FreshEth bus b) (allocated : Nat → Bool) :
    ∀ c ∈ b.dismantle bus allocated, BufferInv bus c ∧ FreshEth bus c := by
  intro c member
  rcases mem_cons.mp member with rfl | behind
  · exact ⟨alone_inv inv, fresh⟩
  · obtain ⟨h, there, queued⟩ := List.mem_filterMap.mp behind
    exact split_inv (inv.subs h there) queued

end Buffer

namespace TxqInv

variable {s s' : Txq}

theorem walk_ids (bus : BusType) (amsduLen : Nat) (allocated : Nat → Bool) (walked : List Buffer) :
    ((Txq.walk bus amsduLen allocated walked).flatMap Buffer.ids).Sublist (walked.flatMap Buffer.ids) := by
  unfold Txq.walk
  rw [List.flatMap_assoc]
  refine List.Sublist.flatMap_right walked fun b _ => ?_
  split
  case isTrue => exact Buffer.dismantle_ids allocated
  case isFalse =>
    rw [List.flatMap_singleton]

theorem amsduUpdateLen (inv : TxqInv s) (amsduLen : BitVec 16) (allocated : Nat → Bool) :
    TxqInv (s.amsduUpdateLen amsduLen allocated) := by
  unfold Txq.amsduUpdateLen
  split
  case isTrue => exact ⟨inv.nodup, inv.known, inv.buffers, inv.fresh, inv.inProgress⟩
  case isFalse =>
    split
    case isTrue => exact ⟨inv.nodup, inv.known, inv.buffers, inv.fresh, inv.inProgress⟩
    case isFalse =>
      have walked : ∀ c ∈ Txq.walk s.busType amsduLen.toNat allocated (s.skList.drop s.nbRetry),
          BufferInv s.busType c ∧ FreshEth s.busType c := by
        intro c member
        obtain ⟨b, there, inside⟩ := List.mem_flatMap.mp member
        have queued := List.mem_of_mem_drop there
        have kept := inv.buffers b (mem_append_left _ queued)
        split at inside
        case isTrue => exact Buffer.dismantle_inv kept (inv.fresh b queued) allocated c inside
        case isFalse =>
          rw [mem_singleton.mp inside]
          exact ⟨kept, inv.fresh b queued⟩
      refine inv.mono rfl (List.Sublist.subperm ?_) ?_ ?_ ?_
      · show ((s.skList.take s.nbRetry ++ Txq.walk s.busType amsduLen.toNat allocated
          (s.skList.drop s.nbRetry) ++ s.inFlight).flatMap Buffer.ids).Sublist
          ((s.skList ++ s.inFlight).flatMap Buffer.ids)
        have shorter := walk_ids s.busType amsduLen.toNat allocated (s.skList.drop s.nbRetry)
        have whole := congrArg (List.flatMap Buffer.ids) (take_append_drop s.nbRetry s.skList)
        rw [flatMap_append] at whole
        simp only [flatMap_append]
        rw [← whole]
        exact (shorter.append_left _).append_right _
      · intro c member
        rcases mem_append.mp member with queued | flying
        · rcases mem_append.mp queued with retry | behind
          · exact inv.buffers c (mem_append_left _ (List.mem_of_mem_take retry))
          · exact (walked c behind).1
        · exact inv.buffers c (mem_append_right _ flying)
      · intro c queued
        rcases mem_append.mp queued with retry | behind
        · exact inv.fresh c (List.mem_of_mem_take retry)
        · exact (walked c behind).2
      · intro i member
        change i ∈ (if (s.skList.drop s.nbRetry).any fun b => s.amsdu == some b.skb.id then none
          else s.amsdu) at member
        split at member
        case isTrue => cases member
        case isFalse passed =>
          obtain ⟨c, there, same, current⟩ := inv.inProgress i member
          refine ⟨c, mem_append_left _ ?_, same, current⟩
          rw [← take_append_drop s.nbRetry s.skList] at there
          rcases mem_append.mp there with retry | behind
          · exact retry
          · refine absurd (List.any_eq_true.mpr ⟨c, behind, ?_⟩) passed
            exact beq_iff_eq.mpr (member.trans (congrArg some same.symm))

end TxqInv

/-! ### Every run -/

namespace Txq

variable {s s' : Txq}

theorem addToAmsdu_busType (s : Txq) (b : Buffer) (a2eInit : Bool) (skb : Skb) (f : EthFrame) :
    (s.addToAmsdu b a2eInit skb f).1.busType = s.busType := by
  unfold addToAmsdu
  split
  · rfl
  · split
    · rfl
    · simp only
      split <;> rfl

theorem startAmsdu_busType (s : Txq) (b : Buffer) (a2eInit : Bool) (skb : Skb) (f : EthFrame) :
    (s.startAmsdu b a2eInit skb f).1.busType = s.busType := by
  unfold startAmsdu
  simp only
  split
  · rfl
  · split
    · rfl
    · split <;> rfl

theorem amsduAddSubframe_busType (s : Txq) (a2eInit : Bool) (skb : Skb) (f : EthFrame) :
    (s.amsduAddSubframe a2eInit skb f).1.busType = s.busType := by
  unfold amsduAddSubframe
  simp only
  split
  · rfl
  · split
    · split
      · exact addToAmsdu_busType _ _ _ _ _
      · rfl
    · split
      · exact startAmsdu_busType _ _ _ _ _
      · rfl

theorem startXmit_busType (s : Txq) (mem : Nat → Byte) (headroom : Nat) (f : EthFrame)
    (spFrame a2eInit alloc : Bool) :
    (s.startXmit mem headroom f spFrame a2eInit alloc).busType = s.busType := by
  have added := amsduAddSubframe_busType { s with nextId := s.nextId + 1 } a2eInit
    (Skb.ofFrame s.nextId mem (max headroom (txMaxHeadroom s.busType)) f) f
  unfold startXmit
  simp only
  split
  case h_1 s₁ out =>
    rw [out] at added
    exact added
  case h_2 s₁ skb out =>
    rw [out] at added
    split <;> exact added

theorem step_busType {a : TxqAct} (stepped : s.step a = some s') : s'.busType = s.busType := by
  cases a with
  | startXmit mem headroom f spFrame a2eInit alloc =>
    obtain rfl := some.inj stepped
    exact startXmit_busType _ _ _ _ _ _ _
  | push desc =>
    obtain ⟨b, rest, -, -, rfl⟩ := txPush_some stepped
    rfl
  | confirm id =>
    obtain rfl := some.inj stepped
    rfl
  | retry id =>
    obtain ⟨b, -, rfl⟩ := map_eq_some_iff.mp stepped
    rfl
  | drop id =>
    obtain ⟨b, -, rfl⟩ := map_eq_some_iff.mp stepped
    rfl
  | updateLen amsduLen allocated =>
    obtain rfl := some.inj stepped
    unfold amsduUpdateLen
    split
    · rfl
    · split <;> rfl
  | setAmsduMax amsduMax =>
    obtain rfl := some.inj stepped
    rfl

end Txq

theorem TxqInv.step {s s' : Txq} (inv : TxqInv s) {a : TxqAct} (stepped : s.step a = some s') : TxqInv s' := by
  cases a with
  | startXmit mem headroom f spFrame a2eInit alloc =>
    obtain rfl := some.inj stepped
    exact inv.startXmit mem headroom f spFrame a2eInit alloc
  | push desc => exact inv.txPush stepped
  | confirm id =>
    obtain rfl := some.inj stepped
    exact inv.confirm id
  | retry id => exact inv.txRetry stepped
  | drop id => exact inv.txqDropSkb stepped
  | updateLen amsduLen allocated =>
    obtain rfl := some.inj stepped
    exact inv.amsduUpdateLen amsduLen allocated
  | setAmsduMax amsduMax =>
    obtain rfl := some.inj stepped
    exact ⟨inv.nodup, inv.known, inv.buffers, inv.fresh, inv.inProgress⟩

section Run

variable {bus : BusType} {sta : Bool} {guard : Txq → TxqAct → Prop} {s : Txq}

section

variable (reach : (txqSystem bus sta).Reachable guard s)

include reach

theorem busType_of_reachable : s.busType = bus :=
  reach.invariant (I := fun s => s.busType = bus) rfl fun _ _ _ _ same _ stepped =>
    (Txq.step_busType stepped).trans same

theorem TxqInv.of_reachable : TxqInv s := by
  refine reach.invariant ?_ fun _ _ _ _ inv _ stepped => inv.step stepped
  refine ⟨List.nodup_nil, ?_, ?_, ?_, ?_⟩
  all_goals
    intro _ member
    cases member

theorem BufferInv.of_reachable {b : Buffer}
    (there : b ∈ s.skList ++ s.inFlight) : BufferInv bus b :=
  busType_of_reachable reach ▸ (TxqInv.of_reachable reach).buffers b there

structure FramesKept (s : Txq) : Prop where
  /-- No socket buffer is in two A-MSDUs, or twice in one. -/
  once : s.ids.Nodup
  bytes : ∀ b ∈ s.skList ++ s.inFlight,
    slice b.skb.mem (payloadOff s.busType b.skb) b.frameLen = b.frame.payload ∧ ∀ h ∈ b.hdrs, SubBuilt h
  pointer : ∀ i ∈ s.amsdu, InProgress s i

/-- **No frame is in two buffers, and its bytes stay**, whatever is joined, sent, dropped and taken apart. -/
theorem frames_kept : FramesKept s := by
  have inv := TxqInv.of_reachable reach
  refine ⟨inv.nodup, fun b there => ⟨?_, (inv.buffers b there).subs⟩, inv.inProgress⟩
  rw [(inv.buffers b there).frameLen]
  exact (inv.buffers b there).payload

end

end Run

/-! ### Two frames -/

def ipFrame (payload : List Byte) (small : payload.length + 8 < 2 ^ 16) : EthFrame where
  dest := [0, 1, 2, 3, 4, 5]
  source := [6, 7, 8, 9, 10, 11]
  proto := 0x800
  payload := payload
  destLength := rfl
  sourceLength := rfl
  payloadLength := small

def threeBytes : EthFrame := ipFrame [1, 2, 3] (by decide)

def twoBytes : EthFrame := ipFrame [4, 5] (by decide)

def twoFrames : List TxqAct :=
  [.updateLen 4000 fun _ => true, .startXmit (fun _ => 0) 0 threeBytes false true true,
    .startXmit (fun _ => 0) 0 twoBytes false true true]

theorem frames_kept_two : ∃ s, (txqSystem .usb true).Reachable (fun _ _ => True) s ∧
    s.skList.map (·.hdrs.length) = [1] ∧ FramesKept s := by
  have reach := Lib.System.reachable_of_run (txqSystem .usb true) (fun _ _ => True) twoFrames (by decide +kernel)
  exact ⟨_, reach, by decide +kernel, frames_kept reach⟩

end W2l.Amsdu
