/-
**The size of an A-MSDU.**

`aml_amsdu_add_subframe` counts the first frame by its MAC header, read again from the socket buffer.
On SDIO the TX header has taken its place.

* `AmsduSized` — what the counters of a queued A-MSDU should say.
* `MaxnbInv` — no A-MSDU has more frames than `amsdu_maxnb`, when the parameter is not lowered below
  what is queued.
-/

import W2lDriver.Amsdu.QueueRun

namespace W2l.Amsdu

open Cmd (BusType)
open Lib (Byte System)
open List (mem_append mem_append_left mem_append_right mem_filter)
open Option (some.inj)

/-- **The counters of an A-MSDU say its size**: `amsdu.nb` is `packet_cnt` and no more than allowed,
`amsdu.len` is the length of the body and no more than `amsdu_len`, and every later subframe starts
at a multiple of four. -/
structure AmsduSized (s : Txq) (b : Buffer) : Prop where
  nb : b.nb = b.packetLen.length
  few : (b.packetLen.length : Int) ≤ min s.amsduMaxnb nxTxPayloadMax
  len : b.len = b.body.length
  fits : b.len ≤ b.limit
  aligned : ∀ start ∈ b.starts, start % 4 = 0

/-- `amsdu_maxnb` is not lowered below what is queued or with the firmware. -/
def KeepsMaxnb (s : Txq) : TxqAct → Prop
  | .setAmsduMax amsduMax =>
    (∀ b ∈ s.skList ++ s.inFlight, b.txuAmsdu = true → (b.nb : Int) ≤ amsduMax) ∧
      ∀ b ∈ s.skList, s.amsdu = some b.skb.id → ((b.nb + 1 : Nat) : Int) ≤ amsduMax
  | _ => True

instance (s : Txq) (a : TxqAct) : Decidable (KeepsMaxnb s a) :=
  match a with
  | .setAmsduMax _ => inferInstanceAs (Decidable (_ ∧ _))
  | .startXmit .. => .isTrue trivial
  | .push _ => .isTrue trivial
  | .confirm _ => .isTrue trivial
  | .retry _ => .isTrue trivial
  | .drop _ => .isTrue trivial
  | .updateLen .. => .isTrue trivial

/-! ### The number of frames -/

/-- An A-MSDU may have `nb` frames; on USB never more than three. -/
def Allowed (s : Txq) (nb : Nat) : Prop := (nb : Int) ≤ s.amsduMaxnb ∧ (s.busType = .usb → nb ≤ 3)

/-- **No A-MSDU has more frames than allowed**, and the one in progress may get one more. -/
structure MaxnbInv (s : Txq) : Prop where
  capped : ∀ b ∈ s.skList ++ s.inFlight, b.txuAmsdu = true → Allowed s b.nb
  room : ∀ b ∈ s.skList, s.amsdu = some b.skb.id → Allowed s (b.nb + 1)

theorem Allowed.adjust {s : Txq} {nb : Nat} (allowed : Allowed s nb) (few : nb ≤ 6) : Allowed s.adjustMaxnb nb := by
  obtain ⟨under, usb⟩ := allowed
  refine ⟨?_, usb⟩
  unfold Txq.adjustMaxnb nxTxPayloadMax
  simp only
  split
  case isTrue onUsb =>
    have three := usb onUsb
    omega
  case isFalse =>
    split
    · omega
    · split <;> omega

theorem adjustMaxnb_usb {s : Txq} (usb : s.adjustMaxnb.busType = .usb) : s.adjustMaxnb.amsduMaxnb = 3 :=
  if_pos usb

namespace MaxnbInv

variable {s s' : Txq}

section

variable (inv : MaxnbInv s)

include inv

theorem keep (maxnb : s'.amsduMaxnb = s.amsduMaxnb)
    (bus : s'.busType = s.busType)
    (old : ∀ c ∈ s'.skList ++ s'.inFlight, c.txuAmsdu = true →
      ∃ b ∈ s.skList ++ s.inFlight, b.txuAmsdu = true ∧ b.nb = c.nb)
    (current : ∀ c ∈ s'.skList, s'.amsdu = some c.skb.id →
      ∃ b ∈ s.skList, s.amsdu = some b.skb.id ∧ b.nb = c.nb) : MaxnbInv s' where
  capped := by
    intro c member flag
    obtain ⟨b, there, on, same⟩ := old c member flag
    have allowed := inv.capped b there on
    rwa [Allowed, ← maxnb, ← bus, same] at allowed
  room := by
    intro c member progress
    obtain ⟨b, there, on, same⟩ := current c member progress
    have allowed := inv.room b there on
    rwa [Allowed, ← maxnb, ← bus, same] at allowed

theorem noAmsdu : MaxnbInv { s with amsdu := none } :=
  ⟨inv.capped, fun _ _ none => nomatch none⟩

theorem adjust (whole : TxqInv s) : MaxnbInv s.adjustMaxnb where
  capped := fun b member flag =>
    (inv.capped b member flag).adjust ((whole.buffers b member).aggregated flag).few
  room := by
    intro b member progress
    obtain ⟨c, there, same, -, less⟩ := whole.inProgress b.skb.id progress
    obtain rfl := whole.unique (mem_append_left _ member) (mem_append_left _ there) same
    exact (inv.room c member progress).adjust less

/-- One buffer gets `nb` frames. -/
theorem update {b' : Buffer} (allowed : b'.txuAmsdu = true → Allowed s b'.nb)
    (more : s.amsdu = some b'.skb.id → Allowed s (b'.nb + 1)) : MaxnbInv (s.update b') where
  capped := by
    intro c member flag
    rcases mem_append.mp member with queued | flying
    · rcases TxqInv.mem_update queued with rfl | ⟨old, -⟩
      · exact allowed flag
      · exact inv.capped c (mem_append_left _ old) flag
    · exact inv.capped c (mem_append_right _ flying) flag
  room := by
    intro c member progress
    rcases TxqInv.mem_update member with rfl | ⟨old, -⟩
    · exact more progress
    · exact inv.room c old progress

end

section AddSubframe

variable {b : Buffer} {skb : Skb} {f : EthFrame}

theorem addToAmsdu (inv : MaxnbInv s) (usb : s.busType = .usb → s.amsduMaxnb = 3)
    (current : s.amsdu = some b.skb.id) (queued : b ∈ s.skList) (a2eInit : Bool) :
    MaxnbInv (s.addToAmsdu b a2eInit skb f).1 := by
  have room := inv.room b queued current
  unfold Txq.addToAmsdu
  split
  case isTrue => exact inv.noAmsdu
  case isFalse =>
    split
    case h_1 => exact inv.noAmsdu
    case h_2 h done =>
      have nb : (b.addHdr h s.amsduLen.toNat).nb ≤ b.nb + 1 := Nat.mod_le _ _
      have allowed : Allowed s (b.addHdr h s.amsduLen.toNat).nb := by
        obtain ⟨under, three⟩ := room
        exact ⟨by omega, fun on => nb.trans (three on)⟩
      have updated : MaxnbInv { s.update (b.addHdr h s.amsduLen.toNat) with amsdu := none } :=
        inv.noAmsdu.update (fun _ => allowed) fun none => nomatch none
      simp only
      split
      case isTrue => exact updated
      case isFalse less =>
        refine inv.update (fun _ => allowed) fun _ => ?_
        have under : ¬ s.amsduMaxnb ≤ ((b.addHdr h s.amsduLen.toNat).nb : Int) := less
        refine ⟨by omega, fun on => ?_⟩
        have three := usb on
        omega

theorem startAmsdu (inv : MaxnbInv s) (two : 2 ≤ s.amsduMaxnb) (idle : s.amsdu = none) (a2eInit : Bool)
    (single : b.len = 0 → b.txuAmsdu = false) :
    MaxnbInv (s.startAmsdu b a2eInit skb f).1 := by
  have off : ∀ i, s.amsdu ≠ some i := fun i => idle ▸ nofun
  unfold Txq.startAmsdu
  simp only
  split
  case isTrue => exact inv
  case isFalse passed =>
    have len : b.len = 0 := of_not_not (not_or.mp passed).1
    generalize amsduSubframeLength (b.skb.hProto b.skb.macHeader) (b.frameLen + 14) = len1
    split
    case h_1 =>
      refine inv.update (fun flag => ?_) fun progress => absurd progress (off _)
      have on : b.txuAmsdu = true := flag
      rw [single len] at on
      cases on
    case h_2 h done =>
      have allowed : Allowed s 2 := ⟨two, fun _ => by decide⟩
      have updated : MaxnbInv (s.update { (b.start len1).addHdr h s.amsduLen.toNat with txuAmsdu := true }) :=
        inv.update (fun _ => allowed) fun progress => absurd progress (off _)
      split
      case isTrue less =>
        refine ⟨updated.capped, fun c member progress => ?_⟩
        have here : some b.skb.id = some c.skb.id := progress
        rcases TxqInv.mem_update member with rfl | ⟨-, other⟩
        · have under : ((2 : Nat) : Int) < s.amsduMaxnb := less
          refine ⟨show ((3 : Nat) : Int) ≤ s.amsduMaxnb by omega, fun _ => Nat.le_refl 3⟩
        · exact absurd (some.inj here).symm other
      case isFalse => exact updated

theorem amsduAddSubframe (inv : MaxnbInv s) (whole : TxqInv s) (a2eInit : Bool) :
    MaxnbInv (s.amsduAddSubframe a2eInit skb f).1 := by
  have inv' := inv.adjust whole
  have whole' := whole.adjust
  have usb := @adjustMaxnb_usb s
  unfold Txq.amsduAddSubframe
  simp only
  split
  case isTrue => exact inv'
  case isFalse passed =>
    have two : 2 ≤ s.adjustMaxnb.amsduMaxnb := Int.not_lt.mp (not_or.mp passed).2
    split
    case h_1 i current =>
      split
      case h_1 c found =>
        have same : c.skb.id = i := by simpa using List.find?_some found
        exact inv'.addToAmsdu usb (same ▸ current) (List.mem_of_find?_eq_some found) a2eInit
      case h_2 => exact inv'
    case h_2 current =>
      split
      case h_1 c last =>
        have queued := List.mem_of_getLast? last
        exact inv'.startAmsdu two current a2eInit (whole'.buffers c (mem_append_left _ queued)).single_of_len
      case h_2 => exact inv'

end AddSubframe

section

variable (inv : MaxnbInv s)

include inv

theorem startXmit (whole : TxqInv s) (mem : Nat → Byte) (headroom : Nat)
    (f : EthFrame) (spFrame a2eInit alloc : Bool) :
    MaxnbInv (s.startXmit mem headroom f spFrame a2eInit alloc) := by
  have inv' : MaxnbInv { s with nextId := s.nextId + 1 } := ⟨inv.capped, inv.room⟩
  have whole' := whole.withNextId
  have sized := @amsduAddSubframe _ (Skb.ofFrame s.nextId mem (max headroom (txMaxHeadroom s.busType)) f) f
    inv' whole' a2eInit
  have added := whole'.amsduAddSubframe a2eInit (whole.ofFrame_goesOn mem headroom f)
  unfold Txq.startXmit
  simp only
  split
  case h_1 s₁ out =>
    rw [out] at sized
    exact sized
  case h_2 s₁ skb out =>
    rw [out] at sized added
    obtain ⟨kept, -, left⟩ := added
    split
    case isFalse => exact sized
    case isTrue =>
      refine sized.keep rfl rfl ?_ ?_
      · intro c member flag
        rcases mem_append.mp member with queued | flying
        · rcases mem_append.mp queued with old | last
          · exact ⟨c, mem_append_left _ old, flag, rfl⟩
          · rw [List.mem_singleton.mp last] at flag
            cases flag
        · exact ⟨c, mem_append_right _ flying, flag, rfl⟩
      · intro c member progress
        rcases mem_append.mp member with old | last
        · exact ⟨c, old, progress, rfl⟩
        · -- the new entry is not the A-MSDU in progress
          obtain ⟨b, there, same, -⟩ := kept.inProgress c.skb.id progress
          refine absurd (List.mem_flatMap.mpr ⟨b, mem_append_left _ there, ?_⟩) (left skb rfl).unseen
          rw [List.mem_singleton.mp last] at same
          have id : b.skb.id = skb.id := same.trans (pushTxhdr_id _ _)
          exact id ▸ List.mem_cons_self

theorem txPush {desc : List Byte} (stepped : s.txPush desc = some s') : MaxnbInv s' := by
  obtain ⟨b, rest, list, -, rfl⟩ := Txq.txPush_some stepped
  have first : b ∈ s.skList := list ▸ List.mem_cons_self
  have later : ∀ c ∈ rest, c ∈ s.skList := fun c member => list ▸ List.mem_cons_of_mem b member
  have kept : ({ b with txuRetry := false }.storeDesc s.busType desc).txuAmsdu = b.txuAmsdu ∧
      ({ b with txuRetry := false }.storeDesc s.busType desc).nb = b.nb := by
    unfold Buffer.storeDesc
    split <;> exact ⟨rfl, rfl⟩
  refine inv.keep rfl rfl ?_ ?_
  · intro c member flag
    rcases mem_append.mp member with queued | flying
    · exact ⟨c, mem_append_left _ (later c queued), flag, rfl⟩
    · rcases mem_append.mp flying with old | last
      · exact ⟨c, mem_append_right _ old, flag, rfl⟩
      · rw [List.mem_singleton.mp last] at flag ⊢
        exact ⟨b, mem_append_left _ first, kept.1.symm.trans flag, kept.2.symm⟩
  · intro c member progress
    change (if s.amsdu = some b.skb.id then none else s.amsdu) = some c.skb.id at progress
    split at progress
    case isTrue => cases progress
    case isFalse => exact ⟨c, later c member, progress, rfl⟩

theorem txRetry (whole : TxqInv s) {id : Nat}
    (stepped : s.txRetry id = some s') : MaxnbInv s' := by
  obtain ⟨b, found, rfl⟩ := Option.map_eq_some_iff.mp stepped
  have flying : b ∈ s.inFlight := List.mem_of_find?_eq_some found
  refine inv.keep rfl rfl ?_ ?_
  · intro c member flag
    rcases mem_append.mp member with queued | still
    · rcases mem_insertRetry queued with old | rfl
      · exact ⟨c, mem_append_left _ old, flag, rfl⟩
      · exact ⟨b, mem_append_right _ flying, flag, rfl⟩
    · exact ⟨c, mem_append_right _ (mem_filter.mp still).1, flag, rfl⟩
  · intro c member progress
    rcases mem_insertRetry member with old | rfl
    · exact ⟨c, old, progress, rfl⟩
    · obtain ⟨d, there, same, -⟩ := whole.inProgress b.skb.id progress
      obtain rfl := whole.unique (mem_append_right _ flying) (mem_append_left _ there) same
      exact ⟨d, there, progress, rfl⟩

theorem txqDropSkb {id : Nat} (stepped : s.txqDropSkb id = some s') : MaxnbInv s' := by
  obtain ⟨b, -, rfl⟩ := Option.map_eq_some_iff.mp stepped
  refine inv.keep rfl rfl ?_ ?_
  · intro c member flag
    rcases mem_append.mp member with queued | flying
    · exact ⟨c, mem_append_left _ (mem_filter.mp queued).1, flag, rfl⟩
    · exact ⟨c, mem_append_right _ flying, flag, rfl⟩
  · intro c member progress
    change (if 1 < b.packetLen.length ∧ s.amsdu = some id then none else s.amsdu) = some c.skb.id at progress
    split at progress
    case isTrue => cases progress
    case isFalse => exact ⟨c, (mem_filter.mp member).1, progress, rfl⟩

end

theorem mem_walk {bus : BusType} {amsduLen : Nat} {allocated : Nat → Bool} {walked : List Buffer}
    {c : Buffer} (member : c ∈ Txq.walk bus amsduLen allocated walked) (flag : c.txuAmsdu = true) :
    c ∈ walked := by
  obtain ⟨b, there, inside⟩ := List.mem_flatMap.mp member
  split at inside
  case isFalse =>
    rw [List.mem_singleton.mp inside]
    exact there
  case isTrue =>
    rcases List.mem_cons.mp inside with rfl | behind
    · cases flag
    · obtain ⟨h, -, queued⟩ := List.mem_filterMap.mp behind
      unfold Buffer.split at queued
      simp only at queued
      split at queued
      case isTrue => cases queued
      case isFalse =>
        obtain rfl := some.inj queued
        cases flag

theorem amsduUpdateLen (inv : MaxnbInv s) (whole : TxqInv s) (amsduLen : BitVec 16)
    (allocated : Nat → Bool) : MaxnbInv (s.amsduUpdateLen amsduLen allocated) := by
  have whole' := whole.amsduUpdateLen amsduLen allocated
  unfold Txq.amsduUpdateLen at whole' ⊢
  split
  case isTrue => exact ⟨inv.capped, inv.room⟩
  case isFalse longer =>
    split
    case isTrue => exact ⟨inv.capped, inv.room⟩
    case isFalse station =>
      rw [if_neg longer, if_neg station] at whole'
      have queued : ∀ c ∈ s.skList.take s.nbRetry ++
          Txq.walk s.busType amsduLen.toNat allocated (s.skList.drop s.nbRetry),
          c.txuAmsdu = true → c ∈ s.skList := by
        intro c member flag
        rcases mem_append.mp member with retry | behind
        · exact List.mem_of_mem_take retry
        · exact List.mem_of_mem_drop (mem_walk behind flag)
      refine inv.keep rfl rfl ?_ ?_
      · intro c member flag
        rcases mem_append.mp member with there | flying
        · exact ⟨c, mem_append_left _ (queued c there flag), flag, rfl⟩
        · exact ⟨c, mem_append_right _ flying, flag, rfl⟩
      · intro c member progress
        -- the A-MSDU in progress is still one, so it was not taken apart
        obtain ⟨d, there, same, flag, -⟩ := whole'.inProgress c.skb.id progress
        obtain rfl := whole'.unique (mem_append_left _ member) (mem_append_left _ there) same
        change (if (s.skList.drop s.nbRetry).any fun b => s.amsdu == some b.skb.id then none
          else s.amsdu) = some d.skb.id at progress
        split at progress
        case isTrue => cases progress
        case isFalse => exact ⟨d, queued d member flag, progress, rfl⟩

theorem step (inv : MaxnbInv s) (whole : TxqInv s) {a : TxqAct} (keeps : KeepsMaxnb s a)
    (stepped : s.step a = some s') : MaxnbInv s' := by
  cases a with
  | startXmit mem headroom f spFrame a2eInit alloc =>
    obtain rfl := some.inj stepped
    exact inv.startXmit whole mem headroom f spFrame a2eInit alloc
  | push desc => exact inv.txPush stepped
  | confirm id =>
    obtain rfl := some.inj stepped
    refine inv.keep rfl rfl (fun c member flag => ⟨c, ?_, flag, rfl⟩)
      fun c member progress => ⟨c, member, progress, rfl⟩
    rcases mem_append.mp member with queued | flying
    · exact mem_append_left _ queued
    · exact mem_append_right _ (mem_filter.mp flying).1
  | retry id => exact inv.txRetry whole stepped
  | drop id => exact inv.txqDropSkb stepped
  | updateLen amsduLen allocated =>
    obtain rfl := some.inj stepped
    exact inv.amsduUpdateLen whole amsduLen allocated
  | setAmsduMax amsduMax =>
    obtain rfl := some.inj stepped
    obtain ⟨capped, room⟩ := keeps
    exact ⟨fun b member flag => ⟨capped b member flag, (inv.capped b member flag).2⟩,
      fun b member progress => ⟨room b member progress, (inv.room b member progress).2⟩⟩

theorem of_reachable {bus : BusType} {sta : Bool}
    (reach : (txqSystem bus sta).Reachable KeepsMaxnb s) : MaxnbInv s := by
  refine reach.invariant ?_ fun _ _ _ before inv keeps stepped =>
    inv.step (.of_reachable before) keeps stepped
  exact ⟨fun _ member => (nomatch member), fun _ member => (nomatch member)⟩

end MaxnbInv

/-! ### The size -/

/-- **An A-MSDU has the size it says exactly when the bus is not SDIO or its first frame has no
Ethernet type.** -/
theorem amsduSized_iff {bus : BusType} {sta : Bool} {s : Txq}
    (reach : (txqSystem bus sta).Reachable KeepsMaxnb s) {b : Buffer} (queued : b ∈ s.skList)
    (amsdu : b.txuAmsdu = true) :
    AmsduSized s b ↔ (bus = .sdio → b.frame.typed = false) := by
  have there : b ∈ s.skList ++ s.inFlight := mem_append_left _ queued
  have inv := BufferInv.of_reachable reach there
  have agg := inv.aggregated amsdu
  have count : b.nb = b.packetLen.length := by
    rw [agg.nb, inv.packetLen, List.length_cons, List.length_map]
  have len := agg.len
  unfold Buffer.uncounted EthFrame.llcLen at len
  constructor
  · intro sized onSdio
    rw [if_pos onSdio, sized.len] at len
    cases typed : b.frame.typed with
    | false => rfl
    | true =>
      rw [if_pos typed] at len
      omega
  · intro untyped
    have capped := (MaxnbInv.of_reachable reach).capped b there amsdu
    refine ⟨count, ?_, ?_, agg.fits, agg.aligned⟩
    · rw [← count]
      exact Int.le_min.mpr ⟨capped.1, Int.ofNat_le.mpr agg.few⟩
    · split at len
      case isTrue onSdio =>
        rw [untyped onSdio] at len
        exact len
      case isFalse => exact len

/-- The two frames on PCIe. -/
theorem amsduSized_pcie : ∃ s, (txqSystem .pcie true).Reachable KeepsMaxnb s ∧
      ∃ b ∈ s.skList, b.txuAmsdu = true ∧ AmsduSized s b := by
  have reach := System.reachable_of_run (txqSystem .pcie true) KeepsMaxnb twoFrames (by decide +kernel)
  refine ⟨_, reach, ?_⟩
  have one : ∃ b ∈ (Option.get (System.run (txqSystem .pcie true) KeepsMaxnb
      (txqSystem .pcie true).init twoFrames) (by decide +kernel)).skList, b.txuAmsdu = true := by
    decide +kernel
  obtain ⟨b, queued, amsdu⟩ := one
  exact ⟨b, queued, amsdu, (amsduSized_iff reach queued amsdu).mpr nofun⟩

/-- **On SDIO `amsdu.len` misses the LLC/SNAP header of the first frame.** -/
theorem amsduSized_sdio_short :
    ¬ ∀ (bus : BusType) (sta : Bool) (s : Txq), (txqSystem bus sta).Reachable KeepsMaxnb s →
      ∀ b ∈ s.skList, b.txuAmsdu = true → AmsduSized s b := by
  intro all
  have reach := System.reachable_of_run (txqSystem .sdio true) KeepsMaxnb twoFrames (by decide +kernel)
  have sized := all .sdio true _ reach
  have short : ¬ ∀ b ∈ (Option.get (System.run (txqSystem .sdio true) KeepsMaxnb
      (txqSystem .sdio true).init twoFrames) (by decide +kernel)).skList,
      b.txuAmsdu = true → b.len = b.body.length := by decide +kernel
  exact short fun b queued amsdu => (sized b queued amsdu).len

end W2l.Amsdu
