/-
**A smaller A-MSDU limit: `aml_amsdu_update_len` on all TX queues of a station.**

The firmware reduces the length of A-MSDUs with a confirmation. Every queue of the station whose own limit
is larger is walked behind its retries, and each A-MSDU that is longer is taken apart where it lies.

* `Parts` — a queue is its retries and the buffers behind them; what holds of each in every run.
* `amsduUpdateLenSta` — the function, for a station.
* `Reduced`, `ReducesWell`, `amsdu_update_len_iff` — **what it should leave, and exactly when it does**.
-/

import W2lDriver.Amsdu.Special

namespace W2l.Amsdu

open Cmd (BusType)
open Lib (Byte System)
open List (mem_append mem_append_left mem_append_right mem_cons mem_cons_of_mem mem_cons_self mem_filter
  mem_flatMap mem_map mem_singleton)
open Option (some.inj)

deriving instance DecidableEq for HostDesc

/-! ### The parts of a queue -/

/-- A buffer that has not been pushed since it was queued. -/
structure Other (s : Txq) (b : Buffer) : Prop where
  retry : b.txuRetry = false
  within : b.txuAmsdu = true → b.len ≤ s.amsduLen.toNat
  built : ∃ skb, Whole skb b.frame ∧ txHeadroom s.busType ≤ skb.data ∧ b.skb = pushTxhdr s.busType skb

/-- An A-MSDU starts with an ordinary frame, and its subframes have room for their TX header. -/
structure Sound (bus : BusType) (b : Buffer) : Prop where
  plain : b.txuAmsdu = true → b.txuSpFrame = false
  headroom : ∀ h ∈ b.hdrs, txHeadroom bus ≤ (amsduDelSubframeHeader h).data

/-- **The retries of a queue, and the buffers behind them.** -/
structure Parts (s : Txq) (retries others : List Buffer) : Prop where
  skList : s.skList = retries ++ others
  nbRetry : s.nbRetry = retries.length
  sta : s.sta = true
  retried : ∀ b ∈ retries, b.txuRetry = true
  other : ∀ b ∈ others, Other s b
  current : ∀ i ∈ s.amsdu, ∀ b ∈ retries, b.skb.id ≠ i
  sound : ∀ b ∈ s.skList ++ s.inFlight, Sound s.busType b

section Parts

variable {s s' : Txq} {r o : List Buffer} {b : Buffer}

theorem Parts.take (parts : Parts s r o) : s.skList.take s.nbRetry = r := by
  rw [parts.skList, parts.nbRetry, List.take_left]

theorem Parts.drop (parts : Parts s r o) : s.skList.drop s.nbRetry = o := by
  rw [parts.skList, parts.nbRetry, List.drop_left]

theorem Parts.mem_other (parts : Parts s r o) (member : b ∈ o) : b ∈ s.skList := by
  rw [parts.skList]
  exact mem_append_right _ member

theorem Other.congr (other : Other s b) (bus : s'.busType = s.busType)
    (amsduLen : s'.amsduLen = s.amsduLen) : Other s' b := by
  refine ⟨other.retry, ?_, ?_⟩
  · rw [amsduLen]
    exact other.within
  · rw [bus]
    exact other.built

theorem Sound.of_eq {bus : BusType} {c : Buffer} (sound : Sound bus b) (hdrs : c.hdrs = b.hdrs)
    (amsdu : c.txuAmsdu = b.txuAmsdu) (spFrame : c.txuSpFrame = b.txuSpFrame) : Sound bus c := by
  refine ⟨?_, ?_⟩
  · rw [amsdu, spFrame]
    exact sound.plain
  · rw [hdrs]
    exact sound.headroom

theorem Sound.alone {bus : BusType} (hdrs : b.hdrs = []) (amsdu : b.txuAmsdu = false) : Sound bus b := by
  refine ⟨fun flag => ?_, ?_⟩
  · rw [amsdu] at flag
    cases flag
  · rw [hdrs]
    intro h none_
    cases none_

theorem Parts.ne_retry (parts : Parts s r o) (inv : TxqInv s) (queued : b ∈ o) : ∀ c ∈ r, c.skb.id ≠ b.skb.id := by
  intro c member same
  have there : c ∈ s.skList := by
    rw [parts.skList]
    exact mem_append_left _ member
  obtain rfl := inv.unique (mem_append_left _ (parts.mem_other queued)) (mem_append_left _ there) same
  have flag := parts.retried c member
  rw [(parts.other c queued).retry] at flag
  cases flag

theorem Parts.update (parts : Parts s r o) (inv : TxqInv s) (queued : b ∈ o) {b' : Buffer}
    (same : b'.skb.id = b.skb.id) (other : Other s b') (sound : Sound s.busType b') :
    ∃ o', Parts (s.update b') r o' := by
  have kept : (r.map fun c => if c.skb.id = b'.skb.id then b' else c) = r := by
    refine (List.map_congr_left fun c member => ?_).trans (List.map_id r)
    exact if_neg fun here => parts.ne_retry inv queued c member (here.trans same)
  refine ⟨o.map fun c => if c.skb.id = b'.skb.id then b' else c, ?_, parts.nbRetry, parts.sta, parts.retried,
    fun c member => ?_, parts.current, fun c member => ?_⟩
  · show s.skList.map _ = _
    rw [parts.skList, List.map_append, kept]
  · obtain ⟨d, there, rfl⟩ := mem_map.mp member
    split
    · exact other.congr rfl rfl
    · exact (parts.other d there).congr rfl rfl
  · rcases mem_append.mp member with there | flying
    · rcases TxqInv.mem_update there with rfl | ⟨old, -⟩
      · exact sound
      · exact parts.sound c (mem_append_left _ old)
    · exact parts.sound c (mem_append_right _ flying)

theorem Parts.noAmsdu (parts : Parts s r o) : Parts { s with amsdu := none } r o :=
  ⟨parts.skList, parts.nbRetry, parts.sta, parts.retried,
    fun b member => (parts.other b member).congr rfl rfl, fun _ member => (nomatch member), parts.sound⟩

end Parts

/-! ### A new frame -/

section AddSubframe

variable {s : Txq} {r o : List Buffer} {b : Buffer} {skb : Skb} {f : EthFrame} {a2eInit : Bool}

section

variable (parts : Parts s r o)

include parts

theorem Parts.addHdr (inv : TxqInv s) (queued : b ∈ o) (b' : Buffer) {h : AmsduTxhdr}
    {pad : Nat} (goes : GoesOn s skb f) (added : amsduAddSubframeHeader s.busType a2eInit pad skb f = .ok h)
    (same : b'.skb = b.skb) (frame : b'.frame = b.frame) (retry : b'.txuRetry = b.txuRetry)
    (spFrame : b'.txuSpFrame = b.txuSpFrame) (ordinary : b.txuSpFrame = false)
    (hdrs : b'.hdrs = b.hdrs ++ [h] ∨ b'.hdrs = [h]) (limit : b'.limit = s.amsduLen.toNat)
    (kept : BufferInv s.busType b') : ∃ o', Parts (s.update b') r o' := by
  have back : txHeadroom s.busType ≤ (amsduDelSubframeHeader h).data := by
    rw [(addSubframe_del added).data]
    exact goes.txHeadroom
  refine parts.update inv queued (congrArg Skb.id same) ⟨?_, fun flag => ?_, ?_⟩ ⟨fun _ => ?_, fun g member => ?_⟩
  · rw [retry]
    exact (parts.other b queued).retry
  · rw [← limit]
    exact (kept.aggregated flag).fits
  · rw [same, frame]
    exact (parts.other b queued).built
  · rw [spFrame]
    exact ordinary
  · have earlier := (parts.sound b (mem_append_left _ (parts.mem_other queued))).headroom
    rcases hdrs with all | all
    · rw [all] at member
      rcases mem_append.mp member with old | last
      · exact earlier g old
      · rw [mem_singleton.mp last]
        exact back
    · rw [all] at member
      rw [mem_singleton.mp member]
      exact back

theorem addToAmsdu_parts (inv : TxqInv s) (queued : b ∈ s.skList)
    (current : s.amsdu = some b.skb.id) (goes : GoesOn s skb f)
    (inv' : TxqInv (s.addToAmsdu b a2eInit skb f).1) :
    ∃ o', Parts (s.addToAmsdu b a2eInit skb f).1 r o' := by
  have other : b ∈ o := by
    rw [parts.skList] at queued
    exact (mem_append.mp queued).resolve_left fun retry => parts.current _ current b retry rfl
  revert inv'
  unfold Txq.addToAmsdu
  split
  case isTrue => exact fun _ => ⟨o, parts.noAmsdu⟩
  case isFalse passed =>
    have ordinary : b.txuSpFrame = false := Bool.eq_false_iff.mpr (not_or.mp passed).1
    split
    case h_1 => exact fun _ => ⟨o, parts.noAmsdu⟩
    case h_2 h added =>
      dsimp only
      intro inv'
      have there : b.addHdr h s.amsduLen.toNat ∈ (s.update (b.addHdr h s.amsduLen.toNat)).skList :=
        mem_map.mpr ⟨b, queued, if_pos rfl⟩
      have kept : BufferInv s.busType (b.addHdr h s.amsduLen.toNat) := by
        split at inv'
        · exact inv'.buffers _ (mem_append_left _ there)
        · exact inv'.buffers _ (mem_append_left _ there)
      obtain ⟨o', updated⟩ :=
        parts.addHdr inv other (b.addHdr h s.amsduLen.toNat) goes added rfl rfl rfl rfl ordinary (.inl rfl) rfl kept
      split
      · exact ⟨o', updated.noAmsdu⟩
      · exact ⟨o', updated⟩

theorem startAmsdu_parts (inv : TxqInv s) (queued : b ∈ s.skList)
    (goes : GoesOn s skb f) (inv' : TxqInv (s.startAmsdu b a2eInit skb f).1) :
    ∃ o', Parts (s.startAmsdu b a2eInit skb f).1 r o' := by
  revert inv'
  unfold Txq.startAmsdu
  dsimp only
  generalize amsduSubframeLength (b.skb.hProto b.skb.macHeader) (b.frameLen + 14) = len1
  split
  case isTrue => exact fun _ => ⟨o, parts⟩
  case isFalse passed =>
    simp only [not_or, ne_eq, not_not, Bool.not_eq_true, not_lt] at passed
    obtain ⟨fresh, retry, ordinary, -⟩ := passed
    have other : b ∈ o := by
      rw [parts.skList] at queued
      refine (mem_append.mp queued).resolve_left fun member => ?_
      have flag := parts.retried b member
      rw [retry] at flag
      cases flag
    have single := (inv.buffers b (mem_append_left _ queued)).single_of_len fresh
    split
    case h_1 =>
      intro _
      refine parts.update inv other rfl ⟨retry, fun flag => ?_, (parts.other b other).built⟩ (.alone rfl single)
      have on : b.txuAmsdu = true := flag
      rw [single] at on
      cases on
    case h_2 h added =>
      intro inv'
      have there : { (b.start len1).addHdr h s.amsduLen.toNat with txuAmsdu := true } ∈
          (s.update { (b.start len1).addHdr h s.amsduLen.toNat with txuAmsdu := true }).skList :=
        mem_map.mpr ⟨b, queued, if_pos rfl⟩
      have kept : BufferInv s.busType { (b.start len1).addHdr h s.amsduLen.toNat with txuAmsdu := true } := by
        split at inv'
        · exact inv'.buffers _ (mem_append_left _ there)
        · exact inv'.buffers _ (mem_append_left _ there)
      obtain ⟨o', updated⟩ :=
        parts.addHdr inv other { (b.start len1).addHdr h s.amsduLen.toNat with txuAmsdu := true } goes added
          rfl rfl rfl rfl ordinary (.inr rfl) rfl kept
      split
      · refine ⟨o', updated.skList, updated.nbRetry, updated.sta, updated.retried,
          fun c member => (updated.other c member).congr rfl rfl, fun i now c member => ?_, updated.sound⟩
        rw [← some.inj now]
        exact parts.ne_retry inv other c member
      · exact ⟨o', updated⟩

theorem amsduAddSubframe_parts (inv : TxqInv s) (goes : GoesOn s skb f) :
    ∃ o', Parts (s.amsduAddSubframe a2eInit skb f).1 r o' := by
  have inv' := (inv.amsduAddSubframe a2eInit goes).1
  have parts' : Parts s.adjustMaxnb r o :=
    ⟨parts.skList, parts.nbRetry, parts.sta, parts.retried,
      fun b member => (parts.other b member).congr rfl rfl, parts.current, parts.sound⟩
  have goes' : GoesOn s.adjustMaxnb skb f := ⟨goes.whole, goes.headroom, goes.unseen, goes.known⟩
  revert inv'
  unfold Txq.amsduAddSubframe
  dsimp only
  split
  case isTrue => exact fun _ => ⟨o, parts'⟩
  case isFalse =>
    split
    case h_1 i current =>
      split
      case h_1 c found =>
        have same : c.skb.id = i := by simpa using List.find?_some found
        exact addToAmsdu_parts parts' inv.adjust (List.mem_of_find?_eq_some found) (same ▸ current) goes'
      case h_2 => exact fun _ => ⟨o, parts'⟩
    case h_2 =>
      split
      case h_1 c last => exact startAmsdu_parts parts' inv.adjust (List.mem_of_getLast? last) goes'
      case h_2 => exact fun _ => ⟨o, parts'⟩

end

end AddSubframe

/-! ### Taking apart -/

namespace Buffer

/-- A subframe as `aml_amsdu_dismantle` queues it. -/
def splitOff (b : Buffer) (bus : BusType) (h : AmsduTxhdr) : Buffer :=
  let skb := amsduDelSubframeHeader h
  let frameLen := skb.len - 14
  { b.alone with
    skb := pushTxhdr bus skb
    frameLen := frameLen % 2 ^ 16
    packetLen := [frameLen % 2 ^ 16]
    frame := h.frame }

theorem splitOff_of_split {b c : Buffer} {bus : BusType} {allocated : Bool} {h : AmsduTxhdr}
    (queued : b.split bus allocated h = some c) :
    txHeadroom bus ≤ (amsduDelSubframeHeader h).data ∧ c = b.splitOff bus h := by
  unfold split at queued
  dsimp only at queued
  split at queued
  case isTrue => cases queued
  case isFalse passed =>
    exact ⟨not_lt.mp (not_or.mp passed).1, (some.inj queued).symm⟩

theorem split_eq {b : Buffer} {bus : BusType} {h : AmsduTxhdr} (built : SubBuilt h)
    (room : txHeadroom bus ≤ (amsduDelSubframeHeader h).data) :
    b.split bus true h = some (b.splitOff bus h) := by
  have whole := (amsduDelSubframeHeader_whole built).1
  refine if_neg ?_
  rintro (short | none_ | ⟨-, long⟩)
  · exact absurd short (not_lt.mpr room)
  · cases none_
  · rw [whole.len, built.msduLen] at long
    omega

end Buffer

section Dismantle

variable {s s' : Txq} {r o : List Buffer} {b c : Buffer}

theorem Other.dismantle (other : Other s b) (inv : BufferInv s.busType b)
    {allocated : Nat → Bool} (member : c ∈ b.dismantle s.busType allocated) : Other s c ∧ Sound s.busType c := by
  rcases mem_cons.mp member with rfl | behind
  · exact ⟨⟨other.retry, fun flag => (nomatch flag), other.built⟩, .alone rfl rfl⟩
  · obtain ⟨h, there, queued⟩ := List.mem_filterMap.mp behind
    obtain ⟨room, rfl⟩ := Buffer.splitOff_of_split queued
    have whole := (amsduDelSubframeHeader_whole (inv.subs h there)).1
    exact ⟨⟨other.retry, fun flag => (nomatch flag), ⟨_, whole, room, rfl⟩⟩, .alone rfl rfl⟩

theorem Parts.updateLen (parts : Parts s r o) (inv : TxqInv s) (amsduLen : BitVec 16)
    (allocated : Nat → Bool) : ∃ o', Parts (s.amsduUpdateLen amsduLen allocated) r o' := by
  unfold Txq.amsduUpdateLen
  split
  case isTrue grows =>
    refine ⟨o, parts.skList, parts.nbRetry, parts.sta, parts.retried, fun b member => ?_, parts.current, parts.sound⟩
    obtain ⟨retry, within, built⟩ := parts.other b member
    exact ⟨retry, fun flag => (within flag).trans (BitVec.le_def.mp grows), built⟩
  case isFalse =>
    rw [if_neg (by rw [parts.sta]; decide), parts.take, parts.drop]
    have walked : ∀ c ∈ Txq.walk s.busType amsduLen.toNat allocated o,
        Other { s with amsduLen := amsduLen } c ∧ Sound s.busType c := by
      intro c member
      obtain ⟨b, there, inside⟩ := mem_flatMap.mp member
      have before := parts.other b there
      have queued := mem_append_left s.inFlight (parts.mem_other there)
      split at inside
      case isTrue =>
        obtain ⟨⟨retry, -, built⟩, sound⟩ := before.dismantle (inv.buffers b queued) inside
        refine ⟨⟨retry, fun flag => ?_, built⟩, sound⟩
        rcases mem_cons.mp inside with rfl | behind
        · cases flag
        · obtain ⟨h, -, split⟩ := List.mem_filterMap.mp behind
          obtain ⟨-, rfl⟩ := Buffer.splitOff_of_split split
          cases flag
      case isFalse stays =>
        rw [mem_singleton.mp inside]
        exact ⟨⟨before.retry, fun flag => not_lt.mp fun long => stays ⟨flag, long⟩, before.built⟩,
          parts.sound b queued⟩
    refine ⟨Txq.walk s.busType amsduLen.toNat allocated o, rfl, parts.nbRetry, parts.sta, parts.retried,
      fun c member => (walked c member).1.congr rfl rfl, fun i member => ?_, fun c member => ?_⟩
    · change i ∈ (if o.any fun b => s.amsdu == some b.skb.id then none else s.amsdu) at member
      split at member
      case isTrue => cases member
      case isFalse => exact parts.current i member
    · rcases mem_append.mp member with queued | flying
      · rcases mem_append.mp queued with retry | behind
        · refine parts.sound c (mem_append_left _ ?_)
          rw [parts.skList]
          exact mem_append_left _ retry
        · exact (walked c behind).2
      · exact parts.sound c (mem_append_right _ flying)

end Dismantle

/-! ### Every step -/

section Steps

variable {s s' : Txq} {r o : List Buffer}

theorem Parts.startXmit (parts : Parts s r o) (inv : TxqInv s) (mem : Nat → Byte) (headroom : Nat)
    (f : EthFrame) (spFrame a2eInit alloc : Bool) :
    ∃ o', Parts (s.startXmit mem headroom f spFrame a2eInit alloc) r o' := by
  have parts' : Parts { s with nextId := s.nextId + 1 } r o :=
    ⟨parts.skList, parts.nbRetry, parts.sta, parts.retried,
      fun b member => (parts.other b member).congr rfl rfl, parts.current, parts.sound⟩
  have goes := inv.ofFrame_goesOn mem headroom f
  have added := inv.withNextId.amsduAddSubframe a2eInit goes
  obtain ⟨o', left⟩ : ∃ o', Parts (Txq.amsduAddSubframe _ a2eInit _ _).1 r o' :=
    amsduAddSubframe_parts parts' inv.withNextId goes
  unfold Txq.startXmit
  dsimp only
  split
  case h_1 q out =>
    rw [out] at left
    exact ⟨o', left⟩
  case h_2 q skb out =>
    rw [out] at left added
    obtain ⟨-, -, back⟩ := added
    have goesOn := back skb rfl
    split
    case isFalse => exact ⟨o', left⟩
    case isTrue =>
      obtain ⟨last, list, new, sound⟩ : ∃ last : Buffer,
          (q.queueSkb spFrame skb f).skList = q.skList ++ [last] ∧ Other q last ∧ Sound q.busType last :=
        ⟨_, rfl, ⟨rfl, fun flag => (nomatch flag), skb, goesOn.whole, goesOn.txHeadroom, rfl⟩, .alone rfl rfl⟩
      refine ⟨o' ++ [last], ?_, left.nbRetry, left.sta, left.retried, fun b member => ?_, left.current,
        fun b member => ?_⟩
      · rw [list, left.skList, List.append_assoc]
      · rcases mem_append.mp member with old | here
        · exact (left.other b old).congr rfl rfl
        · rw [mem_singleton.mp here]
          exact new.congr rfl rfl
      · rw [list] at member
        rcases mem_append.mp member with queued | flying
        · rcases mem_append.mp queued with old | here
          · exact left.sound b (mem_append_left _ old)
          · rw [mem_singleton.mp here]
            exact sound
        · exact left.sound b (mem_append_right _ flying)

theorem Sound.storeDesc {bus : BusType} {b : Buffer} (sound : Sound bus b) (desc : List Byte) :
    Sound bus ({ b with txuRetry := false }.storeDesc bus desc) := by
  cases bus <;> exact sound.of_eq rfl rfl rfl

section

variable (parts : Parts s r o)

include parts

theorem Parts.txPush {desc : List Byte} (stepped : s.txPush desc = some s') : ∃ r' o', Parts s' r' o' := by
  obtain ⟨b, rest, list, -, rfl⟩ := Txq.txPush_some stepped
  have sound : ∀ c ∈ rest ++ (s.inFlight ++ [{ b with txuRetry := false }.storeDesc s.busType desc]),
      Sound s.busType c := by
    intro c member
    have before := parts.sound
    rw [list] at before
    rcases mem_append.mp member with later | flying
    · exact before c (mem_append_left _ (mem_cons_of_mem b later))
    · rcases mem_append.mp flying with old | last
      · exact before c (mem_append_right _ old)
      · rw [mem_singleton.mp last]
        exact (before b mem_cons_self).storeDesc desc
  have current : ∀ i ∈ (if s.amsdu = some b.skb.id then none else s.amsdu), i ∈ s.amsdu := by
    intro i member
    split at member
    · cases member
    · exact member
  have shape := parts.skList
  rw [list] at shape
  cases r with
  | nil =>
    -- a buffer that is no retry
    refine ⟨[], rest, rfl, ?_, parts.sta, fun c none_ => (nomatch none_), fun c member => ?_,
      fun i _ c none_ => (nomatch none_), sound⟩
    · show s.nbRetry - 1 = 0
      rw [parts.nbRetry]
      rfl
    · refine (parts.other c ?_).congr rfl rfl
      have all : b :: rest = o := shape
      rw [← all]
      exact mem_cons_of_mem b member
  | cons first retries =>
    obtain ⟨-, left⟩ := List.cons.inj shape
    refine ⟨retries, o, left, ?_, parts.sta, fun c member => parts.retried c (mem_cons_of_mem _ member),
      fun c member => (parts.other c member).congr rfl rfl,
      fun i member c there => parts.current i (current i member) c (mem_cons_of_mem _ there), sound⟩
    show s.nbRetry - 1 = retries.length
    rw [parts.nbRetry]
    rfl

theorem Parts.confirm (id : Nat) : Parts { s with inFlight := s.inFlight.filter fun c => c.skb.id != id } r o := by
  refine ⟨parts.skList, parts.nbRetry, parts.sta, parts.retried,
    fun b member => (parts.other b member).congr rfl rfl, parts.current, fun b member => ?_⟩
  rcases mem_append.mp member with queued | still
  · exact parts.sound b (mem_append_left _ queued)
  · exact parts.sound b (mem_append_right _ (mem_filter.mp still).1)

theorem Parts.txRetry (inv : TxqInv s) {id : Nat} (stepped : s.txRetry id = some s') : ∃ r' o', Parts s' r' o' := by
  obtain ⟨b, found, rfl⟩ := Option.map_eq_some_iff.mp stepped
  have flying : b ∈ s.inFlight := List.mem_of_find?_eq_some found
  refine ⟨r ++ [{ b with txuRetry := true }], o, ?_, ?_, parts.sta, fun c member => ?_,
    fun c member => (parts.other c member).congr rfl rfl, fun i now c member => ?_, fun c member => ?_⟩
  · show s.skList.take s.nbRetry ++ { b with txuRetry := true } :: s.skList.drop s.nbRetry = _
    rw [parts.take, parts.drop, List.append_assoc, List.singleton_append]
  · show s.nbRetry + 1 = _
    rw [parts.nbRetry, List.length_append]
    rfl
  · rcases mem_append.mp member with old | last
    · exact parts.retried c old
    · rw [mem_singleton.mp last]
  · rcases mem_append.mp member with old | last
    · exact parts.current i now c old
    · rw [mem_singleton.mp last]
      -- the A-MSDU in progress is queued, and no buffer is in two places
      obtain ⟨d, there, same, -⟩ := inv.inProgress i now
      intro here
      obtain rfl := inv.unique (mem_append_right _ flying) (mem_append_left _ there) (same.trans here.symm)
      have nodup := inv.nodup
      rw [Txq.ids, List.flatMap_append] at nodup
      exact (List.nodup_append.mp nodup).2.2 d.skb.id (mem_flatMap.mpr ⟨d, there, mem_cons_self⟩) d.skb.id
        (mem_flatMap.mpr ⟨d, flying, mem_cons_self⟩) rfl
  · rcases mem_append.mp member with queued | still
    · change c ∈ s.skList.take s.nbRetry ++ { b with txuRetry := true } :: s.skList.drop s.nbRetry at queued
      rcases mem_append.mp queued with front | behind
      · exact parts.sound c (mem_append_left _ (List.mem_of_mem_take front))
      · rcases mem_cons.mp behind with rfl | back
        · exact (parts.sound b (mem_append_right _ flying)).of_eq rfl rfl rfl
        · exact parts.sound c (mem_append_left _ (List.mem_of_mem_drop back))
    · exact parts.sound c (mem_append_right _ (mem_filter.mp still).1)

theorem Parts.txqDropSkb {id : Nat} (stepped : s.txqDropSkb id = some s') : ∃ r' o', Parts s' r' o' := by
  obtain ⟨b, -, rfl⟩ := Option.map_eq_some_iff.mp stepped
  refine ⟨r.filter fun c => c.skb.id != id, o.filter fun c => c.skb.id != id, ?_, ?_, parts.sta,
    fun c member => parts.retried c (mem_filter.mp member).1,
    fun c member => (parts.other c (mem_filter.mp member).1).congr rfl rfl, fun i now c member => ?_,
    fun c member => ?_⟩
  · show s.skList.filter _ = _
    rw [parts.skList, List.filter_append]
  · show ((s.skList.take s.nbRetry).filter _).length = _
    rw [parts.take]
  · change i ∈ (if 1 < b.packetLen.length ∧ s.amsdu = some id then none else s.amsdu) at now
    split at now
    · cases now
    · exact parts.current i now c (mem_filter.mp member).1
  · rcases mem_append.mp member with queued | flying
    · exact parts.sound c (mem_append_left _ (mem_filter.mp queued).1)
    · exact parts.sound c (mem_append_right _ flying)

theorem Parts.step (inv : TxqInv s) {a : TxqAct} (stepped : s.step a = some s') : ∃ r' o', Parts s' r' o' := by
  cases a with
  | startXmit mem headroom f spFrame a2eInit alloc =>
    obtain rfl := some.inj stepped
    exact ⟨r, parts.startXmit inv mem headroom f spFrame a2eInit alloc⟩
  | push desc => exact parts.txPush stepped
  | confirm id =>
    obtain rfl := some.inj stepped
    exact ⟨r, o, parts.confirm id⟩
  | retry id => exact parts.txRetry inv stepped
  | drop id => exact parts.txqDropSkb stepped
  | updateLen amsduLen allocated =>
    obtain rfl := some.inj stepped
    exact ⟨r, parts.updateLen inv amsduLen allocated⟩
  | setAmsduMax amsduMax =>
    obtain rfl := some.inj stepped
    exact ⟨r, o, parts.skList, parts.nbRetry, parts.sta, parts.retried,
      fun b member => (parts.other b member).congr rfl rfl, parts.current, parts.sound⟩

end

end Steps

theorem parts_of_reachable {bus : BusType} {guard : Txq → TxqAct → Prop} {s : Txq}
    (reach : (txqSystem bus true).Reachable guard s) : ∃ r o, Parts s r o := by
  refine reach.invariant (I := fun s => ∃ r o, Parts s r o) ?_ fun s a s' before parts _ stepped => ?_
  · exact ⟨[], [], rfl, rfl, rfl, fun _ none_ => absurd none_ List.not_mem_nil,
      fun _ none_ => absurd none_ List.not_mem_nil, fun _ none_ => (nomatch none_),
      fun _ none_ => absurd none_ List.not_mem_nil⟩
  · obtain ⟨r, o, there⟩ := parts
    exact there.step (TxqInv.of_reachable before) stepped

/-! ### The station -/

def Buffer.msdus (b : Buffer) : List (Nat × EthFrame) :=
  (b.skb.id, b.frame) :: b.hdrs.map fun h => (h.skb.id, h.frame)

/-- The descriptor `aml_start_xmit` writes for a frame. -/
def EthFrame.desc (f : EthFrame) : HostDesc := ⟨f.dest, f.source, f.proto⟩

def SpTxq.updateLen (s : SpTxq) (amsduLen : BitVec 16) (allocated : Nat → Bool) : SpTxq :=
  { s with txq := s.txq.amsduUpdateLen amsduLen allocated, tid := s.copiedTid }

/-- `aml_amsdu_update_len` for queue `t` of a station with these queues. -/
def amsduUpdateLenSta {ι : Type} [DecidableEq ι] (sta : ι → SpTxq) (t : ι) (amsduLen : BitVec 16)
    (allocated : Nat → Bool) : ι → SpTxq :=
  if (sta t).txq.amsduLen ≤ amsduLen then
    Function.update sta t { sta t with txq := { (sta t).txq with amsduLen := amsduLen } }
  else if (sta t).txq.sta = false then
    Function.update sta t { sta t with txq := { (sta t).txq with amsduLen := 0 } }
  else fun i =>
    if (sta i).txq.amsduLen ≤ amsduLen then sta i else (sta i).updateLen amsduLen allocated

/-- **An entry as `aml_start_xmit` queues a frame**: the TX header of the bus right before the frame, the
lengths, the flags and the descriptor of that frame. -/
structure QueuedAlone (bus : BusType) (special : List Nat) (c : Buffer) : Prop where
  skb : ∃ skb, Whole skb c.frame ∧ txHeadroom bus ≤ skb.data ∧ c.skb = pushTxhdr bus skb
  frameLen : c.frameLen = c.frame.payload.length
  packetLen : c.packetLen = [c.frameLen]
  flags : c.txuAmsdu = false ∧ c.txuRetry = false ∧ c.txuSpFrame = decide (c.skb.id ∈ special)
  amsdu : c.len = 0 ∧ c.nb = 0 ∧ c.hdrs = []
  desc : c.desc = c.frame.desc

/-- **What a smaller limit should leave of a queue.** -/
structure Reduced (bus : BusType) (before after : SpTxq) (amsduLen : Nat) : Prop where
  msdus : after.txq.skList.flatMap Buffer.msdus = before.txq.skList.flatMap Buffer.msdus
  retries : after.txq.nbRetry = before.txq.nbRetry ∧
    after.txq.skList.take before.txq.nbRetry = before.txq.skList.take before.txq.nbRetry
  short : ∀ b ∈ after.txq.skList.drop after.txq.nbRetry, b.txuAmsdu = true → b.body.length ≤ amsduLen
  form : ∀ b ∈ before.txq.skList.drop before.txq.nbRetry, b.txuAmsdu = true → amsduLen < b.len →
    ∀ c ∈ after.txq.skList, c.skb.id ∈ b.ids → QueuedAlone bus before.special c
  pointer : ∀ i ∈ after.txq.amsdu,
    ∃ b ∈ after.txq.skList, b ∈ before.txq.skList ∧ b.skb.id = i ∧ b.body.length ≤ amsduLen

/-- On SDIO no A-MSDU fits the limit by its counted length only; and the frames of each A-MSDU that is
longer have the addresses and the Ethernet type of its descriptor, and none is special. -/
structure ReducesWell (bus : BusType) (before : SpTxq) (amsduLen : Nat) : Prop where
  lengths : ∀ b ∈ before.txq.skList.drop before.txq.nbRetry, b.txuAmsdu = true → b.len ≤ amsduLen →
    b.len + Buffer.uncounted bus b.frame ≤ amsduLen
  forms : ∀ b ∈ before.txq.skList.drop before.txq.nbRetry, b.txuAmsdu = true → amsduLen < b.len →
    (∀ f ∈ b.frames, b.desc = f.desc) ∧ ∀ i ∈ b.ids, i ∉ before.special

/-! ### One queue -/

section Queue

variable {bus : BusType} {q : SpTxq} {r o : List Buffer} {b c : Buffer} {amsduLen : BitVec 16}

theorem splitOff_id (b : Buffer) (bus : BusType) (h : AmsduTxhdr) :
    (b.splitOff bus h).skb.id = h.skb.id := pushTxhdr_id bus (amsduDelSubframeHeader h)

section

variable (inv : BufferInv bus b)

include inv

theorem dismantle_eq (sound : Sound bus b) :
    b.dismantle bus (fun _ => true) = b.alone :: b.hdrs.map (b.splitOff bus) := by
  refine congrArg (b.alone :: ·) ?_
  rw [← List.filterMap_eq_map]
  exact List.filterMap_congr fun h there => Buffer.split_eq (inv.subs h there) (sound.headroom h there)

theorem dismantle_msdus (sound : Sound bus b) : (b.dismantle bus fun _ => true).flatMap Buffer.msdus = b.msdus := by
  rw [dismantle_eq inv sound, List.flatMap_cons, List.flatMap_map]
  have each : ∀ hdrs : List AmsduTxhdr, hdrs.flatMap (fun h => (b.splitOff bus h).msdus) =
      hdrs.map fun h => (h.skb.id, h.frame) := by
    intro hdrs
    rw [List.map_eq_flatMap]
    refine List.flatMap_congr fun h _ => ?_
    show [((b.splitOff bus h).skb.id, h.frame)] = [(h.skb.id, h.frame)]
    rw [splitOff_id]
  rw [each]
  rfl

theorem body_length (flag : b.txuAmsdu = true) :
    b.body.length = b.len + Buffer.uncounted bus b.frame := (inv.aggregated flag).len.symm

theorem queuedAlone_alone {special : List Nat} (sound : Sound bus b)
    (retry : b.txuRetry = false)
    (built : ∃ skb, Whole skb b.frame ∧ txHeadroom bus ≤ skb.data ∧ b.skb = pushTxhdr bus skb)
    (flag : b.txuAmsdu = true) : QueuedAlone bus special b.alone ↔ b.desc = b.frame.desc ∧ b.skb.id ∉ special := by
  have plain := sound.plain flag
  constructor
  · intro alone
    refine ⟨alone.desc, fun member => ?_⟩
    have spFrame := alone.flags.2.2
    change b.txuSpFrame = decide (b.skb.id ∈ special) at spFrame
    rw [plain, decide_eq_true member] at spFrame
    cases spFrame
  · rintro ⟨desc, ordinary⟩
    refine ⟨built, inv.frameLen, ?_, ⟨rfl, retry, ?_⟩, ⟨rfl, rfl, rfl⟩, desc⟩
    · show b.packetLen.take 1 = [b.frameLen]
      rw [inv.packetLen]
      rfl
    · show b.txuSpFrame = decide (b.skb.id ∈ special)
      rw [plain, decide_eq_false ordinary]

theorem queuedAlone_splitOff {special : List Nat} {h : AmsduTxhdr}
    (sound : Sound bus b) (retry : b.txuRetry = false) (flag : b.txuAmsdu = true) (there : h ∈ b.hdrs) :
    QueuedAlone bus special (b.splitOff bus h) ↔ b.desc = h.frame.desc ∧ h.skb.id ∉ special := by
  have plain := sound.plain flag
  have id := splitOff_id b bus h
  constructor
  · intro alone
    refine ⟨alone.desc, fun member => ?_⟩
    have spFrame := alone.flags.2.2
    change b.txuSpFrame = decide ((b.splitOff bus h).skb.id ∈ special) at spFrame
    rw [plain, id, decide_eq_true member] at spFrame
    cases spFrame
  · rintro ⟨desc, ordinary⟩
    have whole := (amsduDelSubframeHeader_whole (inv.subs h there)).1
    have small := h.frame.payloadLength
    refine ⟨⟨_, whole, sound.headroom h there, rfl⟩, ?_, rfl, ⟨rfl, retry, ?_⟩, ⟨rfl, rfl, rfl⟩, desc⟩
    · show ((amsduDelSubframeHeader h).len - 14) % 2 ^ 16 = h.frame.payload.length
      rw [whole.len, Nat.add_sub_cancel_left, Nat.mod_eq_of_lt (by omega)]
    · show b.txuSpFrame = decide ((b.splitOff bus h).skb.id ∈ special)
      rw [plain, id, decide_eq_false ordinary]

end

theorem reduced_skipped (parts : Parts q.txq r o) (inv : TxqInv q.txq) (onBus : q.txq.busType = bus)
    (skipped : q.txq.amsduLen ≤ amsduLen) :
    Reduced bus q q amsduLen.toNat ↔ ReducesWell bus q amsduLen.toNat := by
  have within (b : Buffer) (there : b ∈ o) (flag : b.txuAmsdu = true) : b.len ≤ amsduLen.toNat :=
    ((parts.other b there).within flag).trans (BitVec.le_def.mp skipped)
  have length (b : Buffer) (there : b ∈ o) (flag : b.txuAmsdu = true) :
      b.body.length = b.len + Buffer.uncounted bus b.frame :=
    body_length (onBus ▸ inv.buffers b (mem_append_left _ (parts.mem_other there))) flag
  constructor
  · intro reduced
    refine ⟨fun b there flag _ => ?_, fun b there flag long => ?_⟩
    · have short := reduced.short b there flag
      rw [parts.drop] at there
      rw [length b there flag] at short
      exact short
    · rw [parts.drop] at there
      exact absurd (within b there flag) (not_le.mpr long)
  · intro well
    have short (b : Buffer) (there : b ∈ o) (flag : b.txuAmsdu = true) : b.body.length ≤ amsduLen.toNat := by
      rw [length b there flag]
      refine well.lengths b ?_ flag (within b there flag)
      rw [parts.drop]
      exact there
    refine ⟨rfl, ⟨rfl, rfl⟩, fun b there flag => ?_, fun b there flag long => ?_, fun i now => ?_⟩
    · rw [parts.drop] at there
      exact short b there flag
    · rw [parts.drop] at there
      exact absurd (within b there flag) (not_le.mpr long)
    · obtain ⟨b, queued, same, flag, -⟩ := inv.inProgress i now
      have other : b ∈ o := by
        have member := queued
        rw [parts.skList] at member
        exact (mem_append.mp member).resolve_left fun retry => parts.current i now b retry same
      exact ⟨b, queued, queued, same, short b other flag⟩

theorem updateLen_walked (parts : Parts q.txq r o) (inv : TxqInv q.txq) (reduced : ¬ q.txq.amsduLen ≤ amsduLen) :
    (q.updateLen amsduLen fun _ => true).txq.skList = r ++ Txq.walk q.txq.busType amsduLen.toNat (fun _ => true) o ∧
      (q.updateLen amsduLen fun _ => true).txq.nbRetry = r.length ∧
      (q.updateLen amsduLen fun _ => true).txq.amsdu = none := by
  have shape : (q.updateLen amsduLen fun _ => true).txq =
      { q.txq with
        skList := r ++ Txq.walk q.txq.busType amsduLen.toNat (fun _ => true) o
        amsdu := if o.any fun b => q.txq.amsdu == some b.skb.id then none else q.txq.amsdu
        amsduLen := amsduLen } := by
    show q.txq.amsduUpdateLen amsduLen _ = _
    unfold Txq.amsduUpdateLen
    rw [if_neg reduced, if_neg (by rw [parts.sta]; decide), parts.take, parts.drop]
  rw [shape]
  refine ⟨rfl, parts.nbRetry, ?_⟩
  show (if o.any fun b => q.txq.amsdu == some b.skb.id then none else q.txq.amsdu) = none
  split
  case isTrue => rfl
  case isFalse passed =>
    cases now : q.txq.amsdu with
    | none => rfl
    | some i =>
      -- the A-MSDU in progress is behind the retries
      obtain ⟨b, queued, same, -⟩ := inv.inProgress i now
      rw [parts.skList] at queued
      have other : b ∈ o := (mem_append.mp queued).resolve_left fun retry => parts.current i now b retry same
      refine absurd (List.any_eq_true.mpr ⟨b, other, ?_⟩) passed
      rw [now, same]
      exact beq_self_eq_true _

theorem mem_walk_cases {walked : List Buffer} {limit : Nat}
    (member : c ∈ Txq.walk bus limit (fun _ => true) walked) :
    (c ∈ walked ∧ (c.txuAmsdu = true → c.len ≤ limit)) ∨
      ∃ b ∈ walked, b.txuAmsdu = true ∧ limit < b.len ∧ c ∈ b.dismantle bus fun _ => true := by
  obtain ⟨b, there, inside⟩ := mem_flatMap.mp member
  split at inside
  case isTrue long => exact .inr ⟨b, there, long.1, long.2, inside⟩
  case isFalse stays =>
    rw [mem_singleton.mp inside]
    exact .inl ⟨there, fun flag => not_lt.mp fun long => stays ⟨flag, long⟩⟩

theorem mem_walk_of_dismantle {walked : List Buffer} {limit : Nat} (there : b ∈ walked)
    (flag : b.txuAmsdu = true) (long : limit < b.len) (member : c ∈ b.dismantle bus fun _ => true) :
    c ∈ Txq.walk bus limit (fun _ => true) walked := by
  refine mem_flatMap.mpr ⟨b, there, ?_⟩
  rw [if_pos ⟨flag, long⟩]
  exact member

theorem dismantle_single (inv : BufferInv bus b) (sound : Sound bus b)
    (member : c ∈ b.dismantle bus fun _ => true) : c.txuAmsdu = false := by
  rw [dismantle_eq inv sound] at member
  rcases mem_cons.mp member with rfl | behind
  · rfl
  · obtain ⟨h, -, rfl⟩ := mem_map.mp behind
    rfl

/-- **A queue that is walked is reduced exactly in these states.** -/
theorem reduced_walked (parts : Parts q.txq r o) (inv : TxqInv q.txq) (onBus : q.txq.busType = bus)
    (reduced : ¬ q.txq.amsduLen ≤ amsduLen) :
    Reduced bus q (q.updateLen amsduLen fun _ => true) amsduLen.toNat ↔ ReducesWell bus q amsduLen.toNat := by
  subst onBus
  obtain ⟨skList, nbRetry, amsdu⟩ := updateLen_walked parts inv reduced
  have queued (b : Buffer) (there : b ∈ o) : BufferInv q.txq.busType b :=
    inv.buffers b (mem_append_left _ (parts.mem_other there))
  have sound (b : Buffer) (there : b ∈ o) : Sound q.txq.busType b :=
    parts.sound b (mem_append_left _ (parts.mem_other there))
  have behind : (q.updateLen amsduLen fun _ => true).txq.skList.drop
      (q.updateLen amsduLen fun _ => true).txq.nbRetry =
      Txq.walk q.txq.busType amsduLen.toNat (fun _ => true) o := by
    rw [skList, nbRetry, List.drop_left]
  -- a piece of an A-MSDU, in the queue
  have piece (b : Buffer) (there : b ∈ o) (flag : b.txuAmsdu = true) (long : amsduLen.toNat < b.len)
      (c : Buffer) (member : c ∈ b.dismantle q.txq.busType fun _ => true) :
      c ∈ (q.updateLen amsduLen fun _ => true).txq.skList := by
    rw [skList]
    exact mem_append_right _ (mem_walk_of_dismantle there flag long member)
  constructor
  · intro all
    refine ⟨fun b there flag fits => ?_, fun b there flag long => ?_⟩
    · rw [parts.drop] at there
      rw [← body_length (queued b there) flag]
      refine all.short b ?_ flag
      rw [behind]
      refine mem_flatMap.mpr ⟨b, there, ?_⟩
      rw [if_neg fun dismantled => absurd dismantled.2 (not_lt.mpr fits)]
      exact List.mem_singleton_self b
    · have form := all.form b there flag long
      rw [parts.drop] at there
      have pieces := dismantle_eq (queued b there) (sound b there)
      have first := (queuedAlone_alone (queued b there) (sound b there) (parts.other b there).retry
        (parts.other b there).built flag).mp
        (form b.alone (piece b there flag long _ (by rw [pieces]; exact mem_cons_self))
          mem_cons_self)
      have later (h : AmsduTxhdr) (member : h ∈ b.hdrs) : b.desc = h.frame.desc ∧ h.skb.id ∉ q.special := by
        refine (queuedAlone_splitOff (queued b there) (sound b there) (parts.other b there).retry flag member).mp
          (form (b.splitOff q.txq.busType h) (piece b there flag long _ ?_) ?_)
        · rw [pieces]
          exact mem_cons_of_mem _ (mem_map.mpr ⟨h, member, rfl⟩)
        · rw [splitOff_id]
          exact mem_cons_of_mem _ (mem_map.mpr ⟨h, member, rfl⟩)
      refine ⟨fun f member => ?_, fun i member => ?_⟩
      · rcases mem_cons.mp member with rfl | inside
        · exact first.1
        · obtain ⟨h, there, rfl⟩ := mem_map.mp inside
          exact (later h there).1
      · rcases mem_cons.mp member with rfl | inside
        · exact first.2
        · obtain ⟨h, there, rfl⟩ := mem_map.mp inside
          exact (later h there).2
  · intro well
    have after := inv.amsduUpdateLen amsduLen fun _ => true
    refine ⟨?_, ⟨nbRetry.trans parts.nbRetry.symm, ?_⟩, fun b there flag => ?_,
      fun b there flag long c member same => ?_,
      fun i now => ?_⟩
    · rw [skList, parts.skList, List.flatMap_append, List.flatMap_append]
      refine congrArg (r.flatMap Buffer.msdus ++ ·) ?_
      unfold Txq.walk
      rw [List.flatMap_assoc]
      refine List.flatMap_congr fun b there => ?_
      split
      · exact dismantle_msdus (queued b there) (sound b there)
      · rw [List.flatMap_singleton]
    · rw [skList, parts.take, parts.nbRetry, List.take_left]
    · rw [behind] at there
      rcases mem_walk_cases there with ⟨old, fits⟩ | ⟨d, old, -, -, inside⟩
      · rw [body_length (queued b old) flag]
        refine well.lengths b ?_ flag (fits flag)
        rw [parts.drop]
        exact old
      · rw [dismantle_single (queued d old) (sound d old) inside] at flag
        cases flag
    · obtain ⟨descs, ordinary⟩ := well.forms b there flag long
      rw [parts.drop] at there
      have pieces := dismantle_eq (queued b there) (sound b there)
      -- the piece with this socket buffer is the only entry with it
      have only (d : Buffer) (inside : d ∈ b.dismantle q.txq.busType fun _ => true) (id : c.skb.id = d.skb.id) :
          c = d :=
        after.unique (mem_append_left _ (piece b there flag long d inside)) (mem_append_left _ member) id
      rcases mem_cons.mp same with first | inside
      · rw [only b.alone (by rw [pieces]; exact mem_cons_self) first]
        exact (queuedAlone_alone (queued b there) (sound b there) (parts.other b there).retry
          (parts.other b there).built flag).mpr
          ⟨descs b.frame mem_cons_self, ordinary b.skb.id mem_cons_self⟩
      · obtain ⟨h, member', id⟩ := mem_map.mp inside
        rw [only (b.splitOff q.txq.busType h) (by
            rw [pieces]
            exact mem_cons_of_mem _ (mem_map.mpr ⟨h, member', rfl⟩))
          (by rw [splitOff_id]; exact id.symm)]
        exact (queuedAlone_splitOff (queued b there) (sound b there) (parts.other b there).retry flag member').mpr
          ⟨descs h.frame (mem_cons_of_mem _ (mem_map.mpr ⟨h, member', rfl⟩)),
            ordinary h.skb.id (mem_cons_of_mem _ (mem_map.mpr ⟨h, member', rfl⟩))⟩
    · rw [amsdu] at now
      cases now

end Queue

/-! ### All queues -/

section Station

variable {bus : BusType} {guard : SpTxq → SpAct → Prop}

theorem txq_reachable {q : SpTxq} (reach : (spSystem bus).Reachable guard q) :
    (txqSystem bus true).Reachable (fun _ _ => True) q.txq := by
  refine reach.invariant (I := fun q : SpTxq => (txqSystem bus true).Reachable (fun _ _ => True) q.txq) .init
    fun s a s' _ before _ stepped => ?_
  cases a with
  | startXmit mem headroom f tid a2eInit alloc =>
    obtain rfl := some.inj stepped
    exact before.step (a := .startXmit mem headroom f (filterSpDataFrame (s.newSkb mem headroom f)) a2eInit alloc)
      trivial rfl
  | other a =>
    obtain ⟨q, ran, -, tid, rfl, -⟩ := SpInv.step_other stepped
    exact before.step trivial ran

/-- **A smaller limit leaves the queues of a station as it should exactly in these states.** -/
theorem amsdu_update_len_iff {ι : Type} [DecidableEq ι] {sta : ι → SpTxq}
    (reach : ∀ i, (spSystem bus).Reachable guard (sta i)) (t : ι) (amsduLen : BitVec 16)
    (smaller : amsduLen < (sta t).txq.amsduLen) :
    (∀ i, Reduced bus (sta i) (amsduUpdateLenSta sta t amsduLen (fun _ => true) i) amsduLen.toNat) ↔
      ∀ i, ReducesWell bus (sta i) amsduLen.toNat := by
  obtain ⟨r, o, parts⟩ := parts_of_reachable (txq_reachable (reach t))
  have walks : amsduUpdateLenSta sta t amsduLen (fun _ => true) = fun i =>
      if (sta i).txq.amsduLen ≤ amsduLen then sta i else (sta i).updateLen amsduLen fun _ => true := by
    unfold amsduUpdateLenSta
    rw [if_neg (BitVec.not_le.mpr smaller), if_neg (by rw [parts.sta]; decide)]
  refine forall_congr' fun i => ?_
  obtain ⟨r, o, parts⟩ := parts_of_reachable (txq_reachable (reach i))
  have inv := TxqInv.of_reachable (txq_reachable (reach i))
  have onBus := busType_of_reachable (txq_reachable (reach i))
  rw [walks]
  dsimp only
  split
  case isTrue skipped => exact reduced_skipped parts inv onBus skipped
  case isFalse reduced => exact reduced_walked parts inv onBus reduced

end Station

def sameKind : List SpAct :=
  [.other (.updateLen 4000 fun _ => true), .startXmit (fun _ => 0) 0 threeBytes 0 true true,
    .startXmit (fun _ => 0) 0 twoBytes 0 true true]

theorem amsdu_update_len_sameKind :
    ∃ sta : Fin 9 → SpTxq, (∃ b ∈ (sta 0).txq.skList, b.txuAmsdu = true ∧ 20 < b.len) ∧
      ∀ i, Reduced .pcie (sta i) (amsduUpdateLenSta sta 0 20 (fun _ => true) i) 20 := by
  have reach := System.reachable_of_run (spSystem .pcie) (fun _ _ => True) sameKind (by decide +kernel)
  refine ⟨fun _ => _, ?_, (amsdu_update_len_iff (fun _ => reach) 0 20 (by decide +kernel)).mpr fun _ => ?_⟩
  · decide +kernel
  · exact ⟨by decide +kernel, by decide +kernel⟩

/-- An IPv6 frame behind an IPv4 frame. -/
def twoKinds : List SpAct :=
  [.other (.updateLen 4000 fun _ => true), .startXmit (fun _ => 0) 0 threeBytes 0 true true,
    .startXmit (fun _ => 0) 0 { twoBytes with proto := 0x86dd } 0 true true]

/-- **The IPv6 frame is queued with the descriptor of the IPv4 frame.** -/
theorem descriptor_copied : ¬ ∀ sta : Fin 9 → SpTxq, (∀ i, (spSystem .pcie).Reachable (fun _ _ => True) (sta i)) →
      20 < (sta 0).txq.amsduLen →
      ∀ i, Reduced .pcie (sta i) (amsduUpdateLenSta sta 0 20 (fun _ => true) i) 20 := by
  intro all
  have reach := System.reachable_of_run (spSystem .pcie) (fun _ _ => True) twoKinds (by decide +kernel)
  generalize state : (System.run (spSystem .pcie) (fun _ _ => True) (spSystem .pcie).init twoKinds).get _ = q at reach
  have form := (all (fun _ => q) (fun _ => reach) (by rw [← state]; decide +kernel) 0).form
  have copied : ∃ b ∈ q.txq.skList.drop q.txq.nbRetry, b.txuAmsdu = true ∧ 20 < b.len ∧
      ∃ c ∈ (amsduUpdateLenSta (fun _ : Fin 9 => q) 0 20 (fun _ => true) 0).txq.skList, c.skb.id ∈ b.ids ∧
        c.desc.ethertype ≠ c.frame.proto := by
    rw [← state]
    decide +kernel
  obtain ⟨b, there, flag, long, c, member, same, differs⟩ := copied
  exact differs (congrArg HostDesc.ethertype (form b there flag long c member same).desc)

end W2l.Amsdu
