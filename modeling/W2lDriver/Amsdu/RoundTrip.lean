/-
**A subframe header is taken off again: `aml_amsdu_add_subframe_header` and its two inverses.**

`aml_amsdu_del_subframe_header` restores the frame of a subframe that was sent; where the DMA mapping
fails, `aml_amsdu_add_subframe_header` restores it itself. Here the buffer is any buffer, whatever bytes
it holds. The A-MSDU descriptor of the first frame is written by `aml_amsdu_add_subframe` before the call.

* `SameFrame` — a buffer with the length and the bytes of another.
* `layoutSubframe_kept` — the Ethernet header is kept, and behind it nothing is written.
* `addSubframe_del`, `addSubframe_failed` — **both ways restore the frame**.
* `RestoredWhole`, `StartsNew`, `subframe_restored_iff` — **when a failed mapping leaves no trace**.
-/

import W2lDriver.Amsdu.QueueRun

namespace W2l.Amsdu

open Cmd (BusType)
open Lib (Byte slice write be16 ofBe16 slice_length write_inside write_outside)

/-! ### The bytes of any frame -/

/-- The same buffer: its length, and its bytes from its data on. -/
structure SameFrame (skb skb' : Skb) : Prop where
  id : skb'.id = skb.id
  data : skb'.data = skb.data
  len : skb'.len = skb.len
  bytes : ∀ k, skb.data ≤ k → skb'.mem k = skb.mem k

theorem SameFrame.refl (skb : Skb) : SameFrame skb skb := ⟨rfl, rfl, rfl, fun _ _ => rfl⟩

theorem be16_ofBe16 (high low : Byte) : be16 (ofBe16 high low) = [high, low] := by
  have upper : (high ++ low).extractLsb' 8 8 = high := by
    rw [BitVec.extractLsb'_append_eq_left]
  have lower : (high ++ low).extractLsb' 0 8 = low := by
    rw [BitVec.extractLsb'_append_eq_right]
  unfold be16 ofBe16
  rw [upper, lower]

/-- The frame whose header lies at `off`. -/
def headerAt (mem : Nat → Byte) (off : Nat) : EthFrame where
  dest := slice mem off 6
  source := slice mem (off + 6) 6
  proto := ofBe16 (mem (off + 12)) (mem (off + 13))
  payload := []
  destLength := slice_length
  sourceLength := slice_length
  payloadLength := by decide

theorem headerAt_header (mem : Nat → Byte) (off : Nat) : slice mem off 14 = (headerAt mem off).header := by
  have proto : slice mem (off + 6 + 6) 2 = [mem (off + 12), mem (off + 13)] := rfl
  rw [EthFrame.header]
  show slice mem off (6 + (6 + 2)) = slice mem off 6 ++ (slice mem (off + 6) 6 ++
    be16 (ofBe16 (mem (off + 12)) (mem (off + 13))))
  rw [be16_ofBe16, W2l.Lib.slice_append, W2l.Lib.slice_append, proto]

/-- The length of the LLC/SNAP header the bytes at `off` call for. -/
def llcAt (skb : Skb) (off : Nat) : Nat := if ethP8023Min ≤ (skb.hProto off).toNat then 8 else 0

section Undo

variable {skb : Skb} {bus : BusType} {a2eInit : Bool} {pad : Nat} {f : EthFrame}

theorem layoutSubframe_kept {pushed : Skb} {eth : Nat} (msduLen : Nat)
    (place : pushed.data + amsduTxhdrLen + 14 + pad + llcAt pushed eth = eth) :
    let laid := layoutSubframe pushed eth pad msduLen
    slice laid.mem (pushed.data + amsduTxhdrLen) 14 = slice pushed.mem eth 14 ∧
      laid.hProto (pushed.data + amsduTxhdrLen) = pushed.hProto eth ∧
      ∀ k, eth + 14 ≤ k → laid.mem k = pushed.mem k := by
  intro laid
  obtain ⟨head, -, -, rest⟩ := @layoutHeader_bytes pushed eth pad msduLen _ (headerAt_header pushed.mem eth)
  have proto : (layoutHeader pushed eth pad msduLen).hProto (pushed.data + amsduTxhdrLen) = pushed.hProto eth :=
    hProto_of_header head
  rw [← headerAt_header] at head
  have byte (k : Nat) (behind : pushed.data + amsduTxhdrLen + 14 + pad + 14 ≤ k) :
      (layoutHeader pushed eth pad msduLen).mem k = pushed.mem k :=
    (List.cons.inj (rest k 1 behind)).1
  generalize headerLaid : layoutHeader pushed eth pad msduLen = laidHeader at *
  by_cases typed : ethP8023Min ≤ (pushed.hProto eth).toNat
  · have shape : laid = laidHeader.store (pushed.data + amsduTxhdrLen + 14 + pad + 14) rfc1042Header := by
      show (if _ then _ else _) = _
      rw [headerLaid, if_pos (by rw [proto]; exact typed)]
    have llc : llcAt pushed eth = 8 := if_pos typed
    have six : rfc1042Header.length = 6 := rfl
    rw [shape]
    refine ⟨?_, ?_, fun k behind => ?_⟩
    · refine Eq.trans ?_ head
      exact W2l.Lib.slice_write_outside (.inl (by omega))
    · rw [← proto]
      unfold Skb.hProto Skb.store
      dsimp only
      rw [write_outside (.inl (by omega)), write_outside (.inl (by omega))]
    · refine Eq.trans (write_outside (.inr (by omega))) (byte k (by omega))
  · have shape : laid = laidHeader := by
      show (if _ then _ else _) = _
      rw [headerLaid, if_neg (by rw [proto]; exact typed)]
    have llc : llcAt pushed eth = 0 := if_neg typed
    rw [shape]
    exact ⟨head, proto, fun k behind => byte k (by omega)⟩

theorem movedBack {laid : Skb} {need : Nat} (id : laid.id = skb.id) (data : laid.data + need = skb.data)
    (len : laid.len = skb.len + need)
    (kept : slice laid.mem (laid.data + amsduTxhdrLen) 14 = slice skb.mem skb.data 14)
    (rest : ∀ k, skb.data + 14 ≤ k → laid.mem k = skb.mem k) :
    SameFrame skb ((laid.move skb.data (laid.data + amsduTxhdrLen) 14).pull need) := by
  refine ⟨id, data, ?_, fun k behind => ?_⟩
  · show laid.len - need = skb.len
    rw [len, Nat.add_sub_cancel]
  · show write laid.mem skb.data (slice laid.mem (laid.data + amsduTxhdrLen) 14) k = skb.mem k
    rw [kept]
    by_cases header : k < skb.data + 14
    · obtain ⟨j, rfl⟩ := Nat.exists_eq_add_of_le behind
      rw [write_inside (by rw [slice_length]; omega)]
      simp only [slice, List.getElem_map, List.getElem_range]
    · rw [write_outside (.inr (by rw [slice_length]; omega))]
      exact rest k (not_lt.mp header)

/-- What `aml_amsdu_add_subframe_header` pushes in front of a frame. -/
def headroomNeed (skb : Skb) (pad : Nat) : Nat := amsduTxhdrLen + pad + 14 + llcAt skb skb.data

def laidOutOf (skb : Skb) (pad : Nat) : Skb :=
  layoutSubframe (skb.push (headroomNeed skb pad)) skb.data pad (skb.len - 14 + llcAt skb skb.data)

theorem amsduAddSubframeHeader_cases : amsduAddSubframeHeader bus a2eInit pad skb f =
    if skb.data < headroomNeed skb pad then .error skb
    else if bus = .pcie ∧ a2eInit = false then
      .error (((laidOutOf skb pad).move skb.data ((laidOutOf skb pad).data + amsduTxhdrLen) 14).pull
        (headroomNeed skb pad))
    else .ok { skb := laidOutOf skb pad, pad := pad,
               msduLen := (skb.len - 14 + llcAt skb skb.data) % 2 ^ 16, frame := f } := by
  have llc : (if decide (ethP8023Min ≤ (skb.hProto skb.data).toNat) = true then 8 else 0) = llcAt skb skb.data := by
    simp only [decide_eq_true_eq]
    rfl
  unfold amsduAddSubframeHeader
  dsimp only
  rw [llc]
  rfl

theorem laidOutOf_kept (room : headroomNeed skb pad ≤ skb.data) :
    (laidOutOf skb pad).id = skb.id ∧ (laidOutOf skb pad).data + headroomNeed skb pad = skb.data ∧
      (laidOutOf skb pad).len = skb.len + headroomNeed skb pad ∧
      slice (laidOutOf skb pad).mem ((laidOutOf skb pad).data + amsduTxhdrLen) 14 = slice skb.mem skb.data 14 ∧
      llcAt (laidOutOf skb pad) ((laidOutOf skb pad).data + amsduTxhdrLen) = llcAt skb skb.data ∧
      ∀ k, skb.data + 14 ≤ k → (laidOutOf skb pad).mem k = skb.mem k := by
  obtain ⟨id, data, len, -⟩ := layoutSubframe_frame (skb.push (headroomNeed skb pad)) skb.data pad
    (skb.len - 14 + llcAt skb skb.data)
  have back : (skb.push (headroomNeed skb pad)).data + headroomNeed skb pad = skb.data :=
    Nat.sub_add_cancel room
  have place : (skb.push (headroomNeed skb pad)).data + amsduTxhdrLen + 14 + pad +
      llcAt (skb.push (headroomNeed skb pad)) skb.data = skb.data := by
    refine Eq.trans ?_ back
    show _ + amsduTxhdrLen + 14 + pad + llcAt skb skb.data = _
    unfold headroomNeed
    omega
  obtain ⟨kept, proto, rest⟩ :=
    layoutSubframe_kept (skb.len - 14 + llcAt skb skb.data) place
  refine ⟨id, ?_, len, ?_, ?_, rest⟩
  · exact (congrArg (· + headroomNeed skb pad) data).trans back
  · exact (congrArg (fun off => slice (laidOutOf skb pad).mem (off + amsduTxhdrLen) 14) data).trans kept
  · refine if_congr (iff_of_eq (congrArg (fun v : BitVec 16 => ethP8023Min ≤ v.toNat) ?_)) rfl rfl
    exact (congrArg (fun off => (laidOutOf skb pad).hProto (off + amsduTxhdrLen)) data).trans proto

theorem addSubframe_del {h : AmsduTxhdr} (added : amsduAddSubframeHeader bus a2eInit pad skb f = .ok h) :
    SameFrame skb (amsduDelSubframeHeader h) := by
  rw [amsduAddSubframeHeader_cases] at added
  split at added
  case isTrue => cases added
  case isFalse room =>
    split at added
    case isTrue => cases added
    case isFalse =>
      obtain ⟨id, data, len, kept, llc, rest⟩ := laidOutOf_kept (not_lt.mp room)
      cases added
      have forward : (laidOutOf skb pad).data + amsduTxhdrLen + pad + 14 +
          llcAt (laidOutOf skb pad) ((laidOutOf skb pad).data + amsduTxhdrLen) = skb.data := by
        unfold headroomNeed at data
        rw [llc]
        omega
      have pulled : skb.data - (laidOutOf skb pad).data = headroomNeed skb pad := by omega
      have shape : amsduDelSubframeHeader
          { skb := laidOutOf skb pad, pad := pad,
            msduLen := (skb.len - 14 + llcAt skb skb.data) % 2 ^ 16, frame := f } =
          ((laidOutOf skb pad).move skb.data ((laidOutOf skb pad).data + amsduTxhdrLen) 14).pull
            (headroomNeed skb pad) := by
        rw [← pulled, ← forward]
        rfl
      rw [shape]
      exact movedBack id data len kept rest

theorem addSubframe_failed {skb' : Skb}
    (failed : amsduAddSubframeHeader bus a2eInit pad skb f = .error skb') : SameFrame skb skb' := by
  rw [amsduAddSubframeHeader_cases] at failed
  split at failed
  case isTrue =>
    cases failed
    exact .refl skb
  case isFalse room =>
    split at failed
    case isTrue =>
      obtain ⟨id, data, len, kept, -, rest⟩ := laidOutOf_kept (not_lt.mp room)
      cases failed
      exact movedBack id data len kept rest
    case isFalse => cases failed

end Undo

/-! ### The queue -/

/-- **Whatever buffer comes, both inverses restore it; and a buffer that goes on alone because its
mapping failed leaves the queue's buffers as they were, its own too.** -/
structure RestoredWhole (s : Txq) (skb : Skb) (f : EthFrame) : Prop where
  roundTrip : ∀ bus a2eInit, ∀ pad ≤ 3, ∀ h, amsduAddSubframeHeader bus a2eInit pad skb f = .ok h →
    SameFrame skb (amsduDelSubframeHeader h)
  returned : ∀ bus, ∀ pad ≤ 3, ∀ skb', amsduAddSubframeHeader bus false pad skb f = .error skb' → SameFrame skb skb'
  descriptor : ∀ s' skb', s.amsduAddSubframe false skb f = (s', some skb') → s'.skList = s.skList ∧ SameFrame skb skb'

/-- The buffer would start an A-MSDU with the last one of the queue, on PCIe. -/
def StartsNew (s : Txq) (skb : Skb) : Prop :=
  s.busType = .pcie ∧ s.amsduLen ≠ 0 ∧ 2 ≤ s.adjustMaxnb.amsduMaxnb ∧ s.amsdu = none ∧
    ∃ b, s.skList.getLast? = some b ∧ b.len = 0 ∧ b.txuRetry = false ∧ b.txuSpFrame = false ∧
      let len1 := amsduSubframeLength (b.skb.hProto b.skb.macHeader) (b.frameLen + 14)
      len1 + amsduPadding len1 + amsduSubframeLength (skb.hProto skb.data) skb.len ≤ s.amsduLen.toNat

section Queue

variable {s s' : Txq} {skb skb' : Skb} {f : EthFrame} {b : Buffer}

theorem failed_pcie {bus : BusType} {a2eInit : Bool} {pad : Nat} (room : 81 ≤ skb.data) (small : pad ≤ 3)
    (failed : amsduAddSubframeHeader bus a2eInit pad skb f = .error skb') : bus = .pcie := by
  rw [amsduAddSubframeHeader_cases] at failed
  have llc : llcAt skb skb.data ≤ 8 := by
    unfold llcAt
    split <;> omega
  have need : headroomNeed skb pad ≤ skb.data := by
    unfold headroomNeed amsduTxhdrLen
    omega
  rw [if_neg (not_lt.mpr need)] at failed
  split at failed
  case isTrue pcie => exact pcie.1
  case isFalse => cases failed

theorem amsduPadding_le (n : Nat) : amsduPadding n ≤ 3 := by
  rw [amsduPadding_eq]
  exact padLen_le n

theorem addToAmsdu_alone {a2eInit : Bool} (alone : s.addToAmsdu b a2eInit skb f = (s', some skb')) :
    s'.skList = s.skList ∧ SameFrame skb skb' := by
  unfold Txq.addToAmsdu at alone
  split at alone
  case isTrue =>
    cases alone
    exact ⟨rfl, .refl skb⟩
  case isFalse =>
    split at alone
    case h_1 skb'' failed =>
      cases alone
      exact ⟨rfl, addSubframe_failed failed⟩
    case h_2 => cases alone

theorem startAmsdu_alone {a2eInit : Bool} (room : 81 ≤ skb.data)
    (alone : s.startAmsdu b a2eInit skb f = (s', some skb')) :
    SameFrame skb skb' ∧ (s'.skList = s.skList ∨
      s.busType = .pcie ∧ b.len = 0 ∧ b.txuRetry = false ∧ b.txuSpFrame = false ∧
        let len1 := amsduSubframeLength (b.skb.hProto b.skb.macHeader) (b.frameLen + 14)
        len1 + amsduPadding len1 + amsduSubframeLength (skb.hProto skb.data) skb.len ≤ s.amsduLen.toNat) := by
  unfold Txq.startAmsdu at alone
  dsimp only at alone
  split at alone
  case isTrue =>
    cases alone
    exact ⟨.refl skb, .inl rfl⟩
  case isFalse starts =>
    split at alone
    case h_1 skb'' failed =>
      cases alone
      refine ⟨addSubframe_failed failed, .inr ⟨failed_pcie room (amsduPadding_le _) failed, ?_⟩⟩
      obtain ⟨fresh, retry, special, fits⟩ := by
        simpa only [not_or, not_not, not_lt, Bool.not_eq_true] using starts
      exact ⟨fresh, retry, special, fits⟩
    case h_2 => cases alone

theorem startAmsdu_counted (last : s.skList.getLast? = some b)
    (pcie : s.busType = .pcie) (fresh : b.len = 0) (retry : b.txuRetry = false)
    (special : b.txuSpFrame = false)
    (fits : amsduSubframeLength (b.skb.hProto b.skb.macHeader) (b.frameLen + 14) +
      amsduPadding (amsduSubframeLength (b.skb.hProto b.skb.macHeader) (b.frameLen + 14)) +
      amsduSubframeLength (skb.hProto skb.data) skb.len ≤ s.amsduLen.toNat) :
    ∃ s' skb', s.startAmsdu b false skb f = (s', some skb') ∧ s'.skList ≠ s.skList := by
  generalize len1_ : amsduSubframeLength (b.skb.hProto b.skb.macHeader) (b.frameLen + 14) = len1 at fits
  have bound := s.amsduLen.isLt
  have positive : 14 ≤ len1 := by
    rw [← len1_]
    unfold amsduSubframeLength
    split <;> omega
  have error : ∃ skb', amsduAddSubframeHeader s.busType false (b.start len1).pad skb f = .error skb' := by
    rw [amsduAddSubframeHeader_cases]
    split
    case isTrue => exact ⟨_, rfl⟩
    case isFalse =>
      rw [if_pos ⟨pcie, rfl⟩]
      exact ⟨_, rfl⟩
  obtain ⟨skb', failed⟩ := error
  refine ⟨s.update (b.start len1), skb', ?_, fun same => ?_⟩
  · unfold Txq.startAmsdu
    dsimp only
    rw [len1_, if_neg (by simp [fresh, retry, special, not_lt.mpr fits]), failed]
  · have lasts := congrArg List.getLast? same
    change (s.skList.map fun c => if c.skb.id = (b.start len1).skb.id then b.start len1 else c).getLast? = _
      at lasts
    rw [List.getLast?_map, last] at lasts
    have counted := congrArg (fun b : Option Buffer => b.map Buffer.len) lasts
    change some (if b.skb.id = b.skb.id then b.start len1 else b).len = some b.len at counted
    rw [if_pos rfl, fresh] at counted
    have zero : len1 % 2 ^ 16 = 0 := Option.some.inj counted
    omega

/-- **A failed mapping leaves no trace exactly where no A-MSDU would be started.** -/
theorem subframe_restored_iff (room : 81 ≤ skb.data) : RestoredWhole s skb f ↔ ¬ StartsNew s skb := by
  constructor
  · rintro restored ⟨pcie, allowed, several, idle, b, last, fresh, retry, special, fits⟩
    obtain ⟨s', skb', alone, changed⟩ :=
      startAmsdu_counted (s := s.adjustMaxnb) (f := f) last pcie fresh retry special fits
    refine changed (restored.descriptor s' skb' ?_).1
    unfold Txq.amsduAddSubframe
    dsimp only
    rw [if_neg (by rintro (none_ | few); exacts [allowed none_, absurd few (Int.not_lt.mpr several)])]
    have idle' : s.adjustMaxnb.amsdu = none := idle
    have last' : s.adjustMaxnb.skList.getLast? = some b := last
    rw [idle', last']
    exact alone
  · intro none_
    refine ⟨fun bus a2eInit pad _ h added => addSubframe_del added,
      fun bus pad _ skb' failed => addSubframe_failed failed, fun s' skb' alone => ?_⟩
    unfold Txq.amsduAddSubframe at alone
    dsimp only at alone
    split at alone
    case isTrue =>
      cases alone
      exact ⟨rfl, .refl skb⟩
    case isFalse allowed =>
      obtain ⟨some_, several⟩ := not_or.mp allowed
      split at alone
      case h_1 i inProgress =>
        split at alone
        case h_1 b found => exact addToAmsdu_alone (s := s.adjustMaxnb) alone
        case h_2 =>
          cases alone
          exact ⟨rfl, .refl skb⟩
      case h_2 idle =>
        split at alone
        case h_1 b last =>
          obtain ⟨same, unchanged | started⟩ := startAmsdu_alone (s := s.adjustMaxnb) room alone
          · exact ⟨unchanged, same⟩
          · obtain ⟨pcie, fresh, retry, special, fits⟩ := started
            exact absurd ⟨pcie, some_, Int.not_lt.mp several, idle, b, last, fresh, retry, special, fits⟩ none_
        case h_2 =>
          cases alone
          exact ⟨rfl, .refl skb⟩

end Queue

/-- The queue with one frame that could start an A-MSDU, and the buffer of the next frame. -/
def onePending (bus : BusType) : Txq :=
  (({ busType := bus, sta := true } : Txq).amsduUpdateLen 4000 fun _ => true).startXmit (fun _ => 0) 0
    threeBytes false true true

def nextSkb (bus : BusType) : Skb :=
  .ofFrame 1 (fun _ => 0) (txMaxHeadroom bus) twoBytes

/-- On SDIO nothing is mapped. -/
theorem subframe_restored_sdio : RestoredWhole (onePending .sdio) (nextSkb .sdio) (ipFrame [4, 5] (by decide)) :=
  (subframe_restored_iff (by decide)).mpr fun starts => nomatch starts.1

/-- **The first frame is left with the length of an A-MSDU it is not.** -/
theorem first_frame_counted : ¬ RestoredWhole (onePending .pcie) (nextSkb .pcie) (ipFrame [4, 5] (by decide)) := by
  intro restored
  have same := (restored.descriptor _ _ rfl).1
  have counted := congrArg (List.map Buffer.len) same
  exact absurd counted (by decide +kernel)

end W2l.Amsdu
