/-
**The read pointer: every run.**

* `Undisturbed` — **no position meets a write-packet command**: none is put into the block while one is under
  way, none starts while one is put in; the data of `auc_write_sram_by_ep` ends before byte 401; and the bulk
  messages of a direct write succeed.
* `Stage`, `UsbInv` — what such steps keep.
-/

import W2lDriver.Usb.ReadPointer

namespace W2l.Usb

open Lib
open Option (ite_none_right_eq_some some.inj)
open Function (update update_of_ne)
open Bool (eq_false_iff)

/-- **What a step finds.** -/
def Undisturbed (s : UsbHw) : UsbAct → Prop
  | .triggerRstRxd w addr => w.carries (s.rxNeedUpdate + 1) addr = true → s.bus ≠ .frame ∧ ∀ i, s.bus ≠ .frameClear i
  | .triggerGoOn busErr => ∀ addr, s.trigger = .waiting addr → busErr = false
  | .sendFrame sizes _ => (∀ i addr, s.trigger ≠ .storing i addr) ∧ sizes.length ≤ 214
  | .writeSram _ data => s.coexFlag = true → data.length < writeSramDataLen → data.length ≤ 400
  | .busGoOn b kmalloc => s.trigger = .writing → b.ok = true ∧ kmalloc = true
  | _ => True

/-- The block holds zeros, or a position and none that was delivered is newer. -/
def Settled (s : UsbHw) : Prop :=
  s.block = List.replicate 8 0 ∨ ∃ n, s.slot = some n ∧ n < s.handed ∧ s.block = positionBytes (s.position n) ∧
    ∀ d ∈ s.delivered, ∀ m, d.number = some m → m ≤ n

/-- Position `n` was delivered. -/
def Told (s : UsbHw) (n : ℕ) : Prop :=
  ∃ d ∈ s.delivered, d.number = some n

/-- **What is under way with the block.** -/
inductive Stage (s : UsbHw) : Prop
  | settled (trigger : ∀ i addr, s.trigger ≠ .storing i addr) (frame : ∀ i, s.bus ≠ .frameClear i)
      (sram : ∀ w i, s.bus ≠ .sram w (.clear i)) (block : Settled s)
      (last : s.trigger = .idle → ∀ n, s.handed = n + 1 →
        Told s n ∨ (s.slot = some n ∧ s.block = positionBytes (s.position n)))
  | storing (i n : ℕ) (trigger : s.trigger = .storing i (s.position n)) (handed : s.handed = n + 1)
      (frame : s.bus ≠ .frame) (clear : ∀ i, s.bus ≠ .frameClear i) (sram : ∀ w i, s.bus ≠ .sram w (.clear i))
      (few : i ≤ 8) (bytes : slice s.resv carryRxrdIndex i = (positionBytes (s.position n)).take i)
  | frameClear (i : ℕ) (bus : s.bus = .frameClear i) (trigger : ∀ i addr, s.trigger ≠ .storing i addr)
      (few : i ≤ 8) (bytes : slice s.resv carryRxrdIndex i = (List.replicate 8 0).take i)
      (last : s.trigger = .idle → ∀ n, s.handed = n + 1 → Told s n)
  | sramClear (w : SramWrite) (i n : ℕ) (bus : s.bus = .sram w (.clear i)) (byRx : w.byRx = true)
      (handed : s.handed = n + 1) (told : Told s n) (few : i ≤ 8)
      (bytes : slice s.resv carryRxrdIndex i = (List.replicate 8 0).take i)

def Written (s : UsbHw) (w : SramWrite) : Prop :=
  if w.byRx = true then
    s.trigger = .writing ∧ w.addr = cmdDownFifoFdhAddr ∧
      ∃ n, s.handed = n + 1 ∧ w.data = le32 1 ++ le32 (s.position n)
  else w.addr ≠ cmdDownFifoFdhAddr

/-- **The invariant.** -/
structure UsbInv (s : UsbHw) : Prop where
  genuine : ∀ d ∈ s.delivered, ∃ n < s.handed, d = ⟨some n, s.position n⟩
  order : s.delivered.Pairwise fun new old => ∀ n m, new.number = some n → old.number = some m → m ≤ n
  clean : s.garbled = 0
  waiting : ∀ addr, s.trigger = .waiting addr → ∃ n, s.handed = n + 1 ∧ addr = s.position n
  sram : ∀ w stage, s.bus = .sram w stage → Written s w
  stage : Stage s

/-! ### Bytes -/

section Block

variable {s : UsbHw}

theorem carried_positionBytes (addr : BitVec 32) : carried (positionBytes addr) = some addr := by
  have flag : (positionBytes addr).take 4 = le32 updateFlag := rfl
  have rest : (positionBytes addr).drop 4 = le32 addr := rfl
  rw [carried, if_pos flag, rest, ofLe32_le32]

theorem carried_zeros : carried (List.replicate 8 0) = none := by decide

theorem block_write {resv : ℕ → Byte} {off : ℕ} {data : List Byte}
    (outside : carryRxrdIndex + 8 ≤ off ∨ off + data.length ≤ carryRxrdIndex) (n : ℕ) (few : n ≤ 8) :
    slice (write resv off data) carryRxrdIndex n = slice resv carryRxrdIndex n := by
  refine slice_write_outside ?_
  omega

theorem sizes_length (sizes : List (BitVec 16)) :
    ((sizes.drop 14).flatMap fun v => [v.extractLsb' 0 8, v.extractLsb' 8 8]).length = 2 * (sizes.length - 14) := by
  rw [← List.length_drop]
  induction sizes.drop 14 with
  | nil => rfl
  | cons v rest ih =>
    rw [List.flatMap_cons, List.length_append, ih, List.length_cons]
    show 2 + 2 * rest.length = 2 * (rest.length + 1)
    omega

theorem clear_next {resv : ℕ → Byte} {i : ℕ} (below : i < 8)
    (bytes : slice resv carryRxrdIndex i = (List.replicate 8 0).take i) :
    slice (write resv (carryRxrdIndex + i) [0]) carryRxrdIndex (i + 1) = (List.replicate 8 0).take (i + 1) := by
  have inside : i < (List.replicate 8 (0 : Byte)).length := by rwa [List.length_replicate]
  have next := slice_write_next inside bytes
  rwa [List.getElem_replicate] at next

end Block

/-! ### What a step leaves alone -/

section Frame

variable {s t : UsbHw}

theorem Settled.congr (settled : Settled s) (block : t.block = s.block) (slot : t.slot = s.slot)
    (handed : t.handed = s.handed) (position : t.position = s.position) (delivered : t.delivered = s.delivered) :
    Settled t := by
  unfold Settled
  rw [block, slot, handed, position, delivered]
  exact settled

theorem Settled.hand (settled : Settled s) (addr : BitVec 32) {trigger : TriggerCall} :
    Settled { s.hand addr with trigger := trigger } := by
  refine settled.imp_right fun ⟨n, slot, past, whole, newest⟩ => ⟨n, slot, Nat.lt_succ_of_lt past, ?_, newest⟩
  show s.block = positionBytes (update s.position s.handed addr n)
  rw [update_of_ne (Nat.ne_of_lt past)]
  exact whole

theorem Written.congr {w : SramWrite} (written : Written s w) (trigger : t.trigger = s.trigger)
    (handed : t.handed = s.handed) (position : t.position = s.position) : Written t w := by
  unfold Written
  rw [trigger, handed, position]
  exact written

theorem Written.other {w : SramWrite} (written : Written s w) (trigger : s.trigger ≠ .writing) :
    w.byRx = false ∧ w.addr ≠ cmdDownFifoFdhAddr := by
  unfold Written at written
  split at written
  · exact absurd written.1 trigger
  · case isFalse other => exact ⟨eq_false_iff.mpr other, written⟩

end Frame

namespace UsbInv

variable {s : UsbHw}

theorem init : UsbInv {} where
  genuine := fun _ mem => absurd mem List.not_mem_nil
  order := .nil
  clean := rfl
  waiting := nofun
  sram := nofun
  stage := .settled nofun nofun nofun (.inl rfl) nofun

/-! ### The RX side -/

section

variable (inv : UsbInv s)

include inv

theorem genuine_hand (addr : BitVec 32) :
    ∀ d ∈ s.delivered, ∃ n < s.handed + 1, d = ⟨some n, update s.position s.handed addr n⟩ := fun d mem => by
  obtain ⟨n, past, same⟩ := inv.genuine d mem
  refine ⟨n, Nat.lt_succ_of_lt past, ?_⟩
  rw [update_of_ne (Nat.ne_of_lt past)]
  exact same

theorem triggerRstRxd (idle : s.trigger = .idle) {w : RxWindow} {addr : BitVec 32}
    (undisturbed : Undisturbed s (.triggerRstRxd w addr)) : UsbInv (s.triggerRstRxd w addr) := by
  have notWriting : s.trigger ≠ .writing := by rw [idle]; decide
  have newest : addr = update s.position s.handed addr s.handed := by
    rw [Function.update_self]
  have sram : ∀ w stage, s.bus = .sram w stage → ∀ t : UsbHw, Written t w := fun w stage bus t => by
    obtain ⟨byRx, other⟩ := (inv.sram w stage bus).other notWriting
    unfold Written
    rw [if_neg (eq_false_iff.mp byRx)]
    exact other
  unfold UsbHw.triggerRstRxd
  split
  · exact inv
  split
  · case isTrue carries =>
    obtain ⟨frame, clear⟩ := undisturbed carries
    refine ⟨inv.genuine_hand addr, inv.order, inv.clean, nofun, fun w stage bus => sram w stage bus _, ?_⟩
    refine .storing 0 s.handed ?_ rfl frame clear (fun w i bus => ?_) (Nat.zero_le 8) rfl
    · exact congrArg (TriggerCall.storing 0) newest
    · cases inv.stage with
      | settled _ _ none => exact none w i bus
      | storing _ _ there => exact nomatch idle.symm.trans there
      | frameClear _ there => exact nomatch bus.symm.trans there
      | sramClear w' _ _ there byRx =>
        exact absurd byRx (eq_false_iff.mp ((inv.sram w' _ there).other notWriting).1)
  · refine ⟨inv.genuine_hand addr, inv.order, inv.clean, fun a same => ⟨s.handed, rfl, ?_⟩,
      fun w stage bus => sram w stage bus _, ?_⟩
    · obtain rfl := TriggerCall.waiting.inj same
      exact newest
    · cases inv.stage with
      | settled _ frame clear block => exact .settled nofun frame clear (block.hand addr) nofun
      | storing _ _ there => exact nomatch idle.symm.trans there
      | frameClear i bus _ few bytes => exact .frameClear i bus nofun few bytes nofun
      | sramClear w' _ _ there byRx =>
        exact absurd byRx (eq_false_iff.mp ((inv.sram w' _ there).other notWriting).1)

/-- `auc_write_sram_by_ep` builds its command. -/
theorem lockSram {w : SramWrite} {trigger : TriggerCall} (free : s.bus = .free)
    (short : s.coexFlag = true → w.data.length < writeSramDataLen → w.data.length ≤ 400)
    (calls : trigger = s.trigger ∨ trigger = .writing ∧ ∀ i addr, s.trigger ≠ .storing i addr)
    (written : Written { s with trigger := trigger } w) :
    UsbInv { s.lockSram w with trigger := trigger } := by
  have waiting : ∀ addr, trigger = .waiting addr → ∃ n, s.handed = n + 1 ∧ addr = s.position n := fun addr same => by
    rcases calls with kept | ⟨writing, -⟩
    · exact inv.waiting addr (kept.symm.trans same)
    · exact nomatch writing.symm.trans same
  have stage : ∀ (resv : ℕ → Byte) (st : SramStage), (∀ i, st ≠ .clear i) →
      (∀ n ≤ 8, slice resv carryRxrdIndex n = slice s.resv carryRxrdIndex n) →
      Stage { s with
        resv := resv
        bus := .sram w st
        trigger := trigger } := fun resv st command same => by
    have block : slice resv carryRxrdIndex 8 = s.block := same 8 le_rfl
    cases inv.stage with
    | settled notStoring _ _ settled last =>
      refine .settled (fun i addr there => ?_) nofun (fun w i bus => ?_)
        (settled.congr block rfl rfl rfl rfl) (fun idle n handed => ?_)
      · rcases calls with kept | ⟨writing, -⟩
        · exact notStoring i addr (kept.symm.trans there)
        · exact nomatch writing.symm.trans there
      · exact command i (BusCmd.sram.inj bus).2
      · have still : s.trigger = .idle := by
          rcases calls with kept | ⟨writing, -⟩
          · exact kept.symm.trans idle
          · exact nomatch writing.symm.trans idle
        refine (last still n handed).imp_right fun ⟨slot, whole⟩ => ⟨slot, ?_⟩
        exact block.trans whole
    | storing i n there handed frame clear sram few bytes =>
      have kept := calls.resolve_right fun ⟨_, notStoring⟩ => notStoring i _ there
      refine .storing i n (kept.trans there) handed nofun nofun (fun w i bus => ?_) few ?_
      · exact command i (BusCmd.sram.inj bus).2
      · exact (same i few).trans bytes
    | frameClear _ bus => exact nomatch free.symm.trans bus
    | sramClear _ _ _ bus => exact nomatch free.symm.trans bus
  unfold UsbHw.lockSram
  split
  · case isTrue coex =>
    obtain ⟨coex, fits⟩ := Bool.and_eq_true_iff.mp coex
    have inside := short coex (of_decide_eq_true fits)
    refine ⟨inv.genuine, inv.order, inv.clean, waiting, fun w' st bus => ?_, stage _ _ nofun fun n few => ?_⟩
    · obtain ⟨rfl, -⟩ := BusCmd.sram.inj bus
      exact written.congr rfl rfl rfl
    · rw [block_write (.inl (by decide)) n few]
      exact block_write (.inr (by unfold carryRxrdIndex; omega)) n few
  · refine ⟨inv.genuine, inv.order, inv.clean, waiting, fun w' st bus => ?_, stage _ _ nofun fun n few => rfl⟩
    obtain ⟨rfl, -⟩ := BusCmd.sram.inj bus
    exact written.congr rfl rfl rfl

theorem triggerGoOn {busErr : Bool} (undisturbed : Undisturbed s (.triggerGoOn busErr)) :
    UsbInv (s.triggerGoOn busErr) := by
  unfold UsbHw.triggerGoOn
  split
  · exact inv
  · case h_2 i addr here =>
    cases inv.stage with
    | settled none => exact absurd here (none i addr)
    | frameClear _ _ none => exact absurd here (none i addr)
    | sramClear w _ _ bus byRx =>
      have written := inv.sram w _ bus
      unfold Written at written
      rw [if_pos byRx] at written
      exact nomatch here.symm.trans written.1
    | storing i' n there handed frame clear sram few bytes =>
      obtain ⟨rfl, rfl⟩ := TriggerCall.storing.inj (here.symm.trans there)
      split
      · case h_1 b next =>
        obtain ⟨below, rfl⟩ := List.getElem?_eq_some_iff.mp next
        refine ⟨inv.genuine, inv.order, inv.clean, nofun, fun w stage bus => ?_, ?_⟩
        · obtain ⟨byRx, other⟩ := (inv.sram w stage bus).other (by rw [here]; nofun)
          unfold Written
          rw [if_neg (eq_false_iff.mp byRx)]
          exact other
        · exact .storing (i + 1) n rfl handed frame clear sram (Nat.succ_le_of_lt below) (slice_write_next below bytes)
      · case h_2 last =>
        have all : i = 8 := Nat.le_antisymm few (List.getElem?_eq_none_iff.mp last)
        subst all
        have number : s.handed - 1 = n := by omega
        rw [number]
        refine ⟨inv.genuine, inv.order, inv.clean, nofun, fun w stage bus => ?_, ?_⟩
        · obtain ⟨byRx, other⟩ := (inv.sram w stage bus).other (by rw [here]; nofun)
          unfold Written
          rw [if_neg (eq_false_iff.mp byRx)]
          exact other
        · refine .settled nofun clear sram (.inr ⟨n, rfl, ?_, bytes, fun d mem m number => ?_⟩)
            fun _ m last => .inr ?_
          · exact Nat.lt_of_lt_of_eq (Nat.lt_succ_self n) handed.symm
          · obtain ⟨k, past, rfl⟩ := inv.genuine d mem
            obtain rfl := some.inj number
            omega
          · obtain rfl : n = m := Nat.succ.inj (handed.symm.trans last)
            exact ⟨rfl, bytes⟩
  · case h_3 addr here =>
    rw [undisturbed addr here, if_neg Bool.false_ne_true]
    split
    · case isTrue free =>
      obtain ⟨n, handed, rfl⟩ := inv.waiting addr here
      refine inv.lockSram free (fun _ _ => by show 8 ≤ 400; decide) (.inr ⟨rfl, fun i a there => ?_⟩) ?_
      · exact nomatch here.symm.trans there
      · unfold Written
        rw [if_pos rfl]
        exact ⟨rfl, rfl, n, handed, rfl⟩
    · exact inv
  · exact inv

/-! ### The commands -/

theorem lockFrame (free : s.bus = .free) {sizes : List (BitVec 16)}
    (notStoring : ∀ i addr, s.trigger ≠ .storing i addr) (few : sizes.length ≤ 214) : UsbInv (s.lockFrame sizes) := by
  have block : (s.lockFrame sizes).block = s.block := by
    show slice (write s.resv 0 _) carryRxrdIndex 8 = slice s.resv carryRxrdIndex 8
    refine block_write (.inr ?_) 8 le_rfl
    rw [sizes_length]
    unfold carryRxrdIndex
    omega
  refine ⟨inv.genuine, inv.order, inv.clean, inv.waiting, nofun, ?_⟩
  cases inv.stage with
  | settled trigger _ _ settled last =>
    refine .settled trigger nofun nofun (settled.congr block rfl rfl rfl rfl) fun idle n handed => ?_
    exact (last idle n handed).imp_right fun ⟨slot, whole⟩ => ⟨slot, block.trans whole⟩
  | storing i n there => exact absurd there (notStoring i _)
  | frameClear _ bus => exact nomatch free.symm.trans bus
  | sramClear _ _ _ bus => exact nomatch free.symm.trans bus

theorem carry (settled : Settled s) (b : Bulk) : (s.carry b = { s with delivered := (s.carry b).delivered }) ∧
      (∀ d ∈ (s.carry b).delivered, ∃ n < s.handed, d = ⟨some n, s.position n⟩) ∧
      ((s.carry b).delivered.Pairwise fun new old => ∀ n m, new.number = some n → old.number = some m → m ≤ n) ∧
      Settled { s with delivered := (s.carry b).delivered } ∧
      (∀ n, Told s n → Told { s with delivered := (s.carry b).delivered } n) ∧
      (b.arrives = true → ∀ n, s.slot = some n → s.block = positionBytes (s.position n) →
        Told { s with delivered := (s.carry b).delivered } n) := by
  rcases settled with zeros | ⟨n, slot, past, whole, newest⟩
  · have carries : s.carry b = s := by
      unfold UsbHw.carry UsbHw.mark
      rw [if_pos (Or.inl zeros), zeros, carried_zeros]
      exact ite_self _
    rw [carries]
    refine ⟨rfl, inv.genuine, inv.order, .inl zeros, fun _ told => told, fun _ n _ whole => ?_⟩
    have clash := congrArg carried (zeros.symm.trans whole)
    rw [carried_zeros, carried_positionBytes] at clash
    exact nomatch clash
  · have known : s.block ∈ (List.range s.handed).map fun n => positionBytes (s.position n) :=
      List.mem_map.mpr ⟨n, List.mem_range.mpr past, whole.symm⟩
    have carries : s.carry b = if b.arrives = true then s.deliver (some n) (s.position n) else s := by
      unfold UsbHw.carry UsbHw.mark
      rw [if_pos (Or.inr known), whole, carried_positionBytes, slot]
    rw [carries]
    split
    · refine ⟨rfl, fun d mem => ?_, ?_, .inr ⟨n, slot, past, whole, fun d mem m number => ?_⟩,
        fun m ⟨d, mem, number⟩ => ⟨d, List.mem_cons_of_mem _ mem, number⟩, fun _ m slot' _ => ?_⟩
      · rcases List.mem_cons.mp mem with rfl | old
        · exact ⟨n, past, rfl⟩
        · exact inv.genuine d old
      · refine List.pairwise_cons.mpr ⟨fun old mem k m here number => ?_, inv.order⟩
        obtain rfl := some.inj here
        exact newest old mem m number
      · rcases List.mem_cons.mp mem with rfl | old
        · exact Nat.le_of_eq (some.inj number).symm
        · exact newest d old m number
      · obtain rfl := some.inj (slot.symm.trans slot')
        exact ⟨_, List.mem_cons_self, rfl⟩
    · case isFalse lost =>
      exact ⟨rfl, inv.genuine, inv.order, .inr ⟨n, slot, past, whole, newest⟩, fun _ told => told,
        fun arrives => absurd arrives lost⟩

theorem frame (here : s.bus = .frame) (b : Bulk) :
    UsbInv (if b.ok then { s.carry b with bus := .frameClear 0 } else { s.carry b with bus := .free }) := by
  cases inv.stage with
  | storing _ _ _ _ frame => exact absurd here frame
  | frameClear _ bus => exact nomatch here.symm.trans bus
  | sramClear _ _ _ bus => exact nomatch here.symm.trans bus
  | settled trigger _ _ settled last =>
    obtain ⟨same, genuine, order, settled', kept, told⟩ := inv.carry settled b
    rw [same]
    generalize (s.carry b).delivered = delivered at genuine order settled' kept told
    split
    · case isTrue ok =>
      have arrives : b.arrives = true := by
        unfold Bulk.arrives
        rw [ok]
        rfl
      refine ⟨genuine, order, inv.clean, inv.waiting, nofun, .frameClear 0 rfl trigger (Nat.zero_le 8) rfl ?_⟩
      intro idle n handed
      rcases last idle n handed with before | ⟨slot, whole⟩
      · exact kept n before
      · exact told arrives n slot whole
    · refine ⟨genuine, order, inv.clean, inv.waiting, nofun, .settled trigger nofun nofun ?_ fun idle n handed => ?_⟩
      · exact settled'.congr rfl rfl rfl rfl rfl
      · exact (last idle n handed).imp_left fun before => kept n before

theorem frameClear {i : ℕ} (here : s.bus = .frameClear i) :
    UsbInv (if i < 8 then
      { s with
        resv := write s.resv (carryRxrdIndex + i) [0]
        bus := .frameClear (i + 1) }
    else { s with bus := .free }) := by
  cases inv.stage with
  | settled _ none => exact absurd here (none i)
  | storing _ _ _ _ _ none => exact absurd here (none i)
  | sramClear _ _ _ bus => exact nomatch here.symm.trans bus
  | frameClear j there trigger few bytes last =>
    obtain rfl := BusCmd.frameClear.inj (here.symm.trans there)
    split
    · case isTrue below =>
      refine ⟨inv.genuine, inv.order, inv.clean, inv.waiting, nofun, ?_⟩
      exact .frameClear (i + 1) rfl trigger (Nat.succ_le_of_lt below) (clear_next below bytes) last
    · case isFalse all =>
      obtain rfl : i = 8 := Nat.le_antisymm few (Nat.not_lt.mp all)
      refine ⟨inv.genuine, inv.order, inv.clean, inv.waiting, nofun, ?_⟩
      exact .settled trigger nofun nofun (.inl bytes) fun idle n handed => .inl (last idle n handed)

theorem plain {resv : ℕ → Byte} {bus : BusCmd}
    (block : ∀ n ≤ 8, slice resv carryRxrdIndex n = slice s.resv carryRxrdIndex n)
    (before : (∀ i, s.bus ≠ .frameClear i) ∧ ∀ w i, s.bus ≠ .sram w (.clear i))
    (after : bus ≠ .frame ∧ (∀ i, bus ≠ .frameClear i) ∧ ∀ w i, bus ≠ .sram w (.clear i))
    (sram : ∀ w stage, bus = .sram w stage → Written s w) :
    UsbInv { s with
      resv := resv
      bus := bus } := by
  obtain ⟨frame, frameClear, sramClear⟩ := after
  refine ⟨inv.genuine, inv.order, inv.clean, inv.waiting, fun w stage there => ?_, ?_⟩
  · exact (sram w stage there).congr rfl rfl rfl
  · cases inv.stage with
    | settled trigger _ _ settled last =>
      refine .settled trigger frameClear sramClear (settled.congr (block 8 le_rfl) rfl rfl rfl rfl) ?_
      exact fun idle n handed => (last idle n handed).imp_right fun
        ⟨slot, whole⟩ => ⟨slot, (block 8 le_rfl).trans whole⟩
    | storing i n there handed _ _ _ few bytes =>
      exact .storing i n there handed frame frameClear sramClear few ((block i few).trans bytes)
    | frameClear i there => exact absurd there (before.1 i)
    | sramClear w i _ there => exact absurd there (before.2 w i)

theorem written {w : SramWrite} {stage : SramStage} (here : s.bus = .sram w stage)
    (byRx : w.byRx = true) {b : Bulk} (ok : b.ok = true) (resv : ℕ → Byte) :
    UsbInv ({ s.sramArrives w b with resv := resv }.sramDone w) := by
  have own := inv.sram w stage here
  unfold Written at own
  rw [if_pos byRx] at own
  obtain ⟨writing, addr, n, handed, data⟩ := own
  have arrives : (b.arrives && w.addr == cmdDownFifoFdhAddr) = true := by
    unfold Bulk.arrives
    rw [ok, addr]
    rfl
  have sent : s.sramArrives w b = s.deliver (some n) (s.position n) := by
    unfold UsbHw.sramArrives
    rw [if_pos arrives, if_pos byRx, handed, Nat.add_sub_cancel, data]
    show s.deliver (some n) (ofLe32 (le32 (s.position n))) = _
    rw [ofLe32_le32]
  unfold UsbHw.sramDone
  rw [if_pos addr, sent]
  have past : n < s.handed := by omega
  refine ⟨fun d mem => ?_, List.pairwise_cons.mpr ⟨fun old mem k m new number => ?_, inv.order⟩, inv.clean,
    inv.waiting, fun w' st bus => ?_, ?_⟩
  · rcases List.mem_cons.mp mem with rfl | old
    · exact ⟨n, past, rfl⟩
    · exact inv.genuine d old
  · obtain rfl := some.inj new
    obtain ⟨j, before, rfl⟩ := inv.genuine old mem
    obtain rfl := some.inj number
    show j ≤ n
    omega
  · obtain ⟨rfl, -⟩ := BusCmd.sram.inj bus
    exact (inv.sram w stage here).congr rfl rfl rfl
  · exact .sramClear w 0 n rfl byRx handed ⟨_, List.mem_cons_self, rfl⟩ (Nat.zero_le 8) rfl

theorem sramClear {w : SramWrite} {i : ℕ} (here : s.bus = .sram w (.clear i)) :
    UsbInv (if i < 8 then
      { s with
        resv := write s.resv (carryRxrdIndex + i) [0]
        bus := .sram w (.clear (i + 1)) }
    else s.release w) := by
  cases inv.stage with
  | settled _ _ none => exact absurd here (none w i)
  | storing _ _ _ _ _ _ none => exact absurd here (none w i)
  | frameClear _ bus => exact nomatch here.symm.trans bus
  | sramClear w' j n there byRx handed told few bytes =>
    obtain ⟨rfl, same⟩ := BusCmd.sram.inj (here.symm.trans there)
    obtain rfl := SramStage.clear.inj same
    split
    · case isTrue below =>
      refine ⟨inv.genuine, inv.order, inv.clean, inv.waiting, fun w' st bus => ?_, ?_⟩
      · obtain ⟨rfl, -⟩ := BusCmd.sram.inj bus
        exact (inv.sram w _ here).congr rfl rfl rfl
      · exact .sramClear w (i + 1) n rfl byRx handed told (Nat.succ_le_of_lt below) (clear_next below bytes)
    · case isFalse all =>
      obtain rfl : i = 8 := Nat.le_antisymm few (Nat.not_lt.mp all)
      unfold UsbHw.release
      rw [if_pos byRx]
      refine ⟨inv.genuine, inv.order, inv.clean, nofun, nofun, ?_⟩
      refine .settled nofun nofun nofun (.inl bytes) fun _ m last => .inl ?_
      obtain rfl : n = m := Nat.succ.inj (handed.symm.trans last)
      exact told

/-- **A command goes on.** -/
theorem busGoOn {b : Bulk} {kmalloc : Bool} (undisturbed : Undisturbed s (.busGoOn b kmalloc)) :
    UsbInv (s.busGoOn b kmalloc) := by
  have free : (BusCmd.free ≠ .frame) ∧ (∀ i, BusCmd.free ≠ .frameClear i) ∧ ∀ w i, BusCmd.free ≠ .sram w (.clear i) :=
    ⟨nofun, nofun, nofun⟩
  -- a command that is not of the RX side neither delivers a position nor clears the block
  have other : ∀ w stage, s.bus = .sram w stage → w.byRx = false → s.sramArrives w b = s ∧ ∀ t : UsbHw,
      t.sramDone w = { t with bus := .free } ∧ t.release w = { t with bus := .free } := fun w stage bus byRx => by
    have elsewhere := inv.sram w stage bus
    unfold Written at elsewhere
    rw [if_neg (eq_false_iff.mp byRx)] at elsewhere
    have release : ∀ t : UsbHw, t.release w = { t with bus := .free } := fun t => by
      unfold UsbHw.release
      rw [if_neg (eq_false_iff.mp byRx)]
    refine ⟨?_, fun t => ⟨?_, release t⟩⟩
    · unfold UsbHw.sramArrives
      rw [beq_eq_false_iff_ne.mpr elsewhere, Bool.and_false, if_neg Bool.false_ne_true]
    · unfold UsbHw.sramDone
      rw [if_neg elsewhere]
      exact release t
  have calls : ∀ w stage, s.bus = .sram w stage → w.byRx = true → b.ok = true ∧ kmalloc = true :=
    fun w stage bus byRx => by
      have own := inv.sram w stage bus
      unfold Written at own
      rw [if_pos byRx] at own
      exact undisturbed own.1
  have trailer : ∀ n ≤ 8, slice (write s.resv 479 [0, 0]) carryRxrdIndex n = slice s.resv carryRxrdIndex n :=
    fun n few => block_write (.inl (by decide)) n few
  unfold UsbHw.busGoOn
  split
  · exact inv
  · case h_2 here => exact inv.frame here b
  · case h_3 i here => exact inv.frameClear here
  · case h_4 w here =>
    dsimp only
    have before : (∀ i, s.bus ≠ .frameClear i) ∧ ∀ w i, s.bus ≠ .sram w (.clear i) := by
      rw [here]
      exact ⟨nofun, nofun⟩
    cases byRx : w.byRx with
    | true =>
      obtain ⟨ok, -⟩ := calls w _ here byRx
      rw [if_pos ok]
      exact inv.written here byRx ok _
    | false =>
      obtain ⟨nothing, ends⟩ := other w _ here byRx
      rw [nothing, (ends _).1, (ends _).2]
      split
      · exact inv.plain trailer before free nofun
      · exact inv.plain (fun _ _ => rfl) before free nofun
  · case h_5 w here =>
    have before : (∀ i, s.bus ≠ .frameClear i) ∧ ∀ w i, s.bus ≠ .sram w (.clear i) := by
      rw [here]
      exact ⟨nofun, nofun⟩
    split
    · refine inv.plain (fun _ _ => rfl) before ⟨nofun, nofun, nofun⟩ fun w' st bus => ?_
      obtain ⟨rfl, -⟩ := BusCmd.sram.inj bus
      exact inv.sram w _ here
    · case isFalse failed =>
      cases byRx : w.byRx with
      | true =>
        obtain ⟨ok, allocated⟩ := calls w _ here byRx
        rw [ok, allocated] at failed
        exact absurd rfl failed
      | false =>
        rw [((other w _ here byRx).2 _).2]
        exact inv.plain (fun _ _ => rfl) before free nofun
  · case h_6 w here =>
    have before : (∀ i, s.bus ≠ .frameClear i) ∧ ∀ w i, s.bus ≠ .sram w (.clear i) := by
      rw [here]
      exact ⟨nofun, nofun⟩
    cases byRx : w.byRx with
    | true =>
      obtain ⟨ok, -⟩ := calls w _ here byRx
      rw [if_pos ok]
      exact inv.written here byRx ok (s.sramArrives w b).resv
    | false =>
      obtain ⟨nothing, ends⟩ := other w _ here byRx
      rw [nothing, (ends _).1, (ends _).2, ite_self]
      exact inv.plain (fun _ _ => rfl) before free nofun
  · case h_7 w i here => exact inv.sramClear here
  · case h_8 here =>
    refine inv.plain (fun _ _ => rfl) ?_ free nofun
    rw [here]
    exact ⟨nofun, nofun⟩

theorem act {a : UsbAct} (undisturbed : Undisturbed s a) {t : UsbHw} (stepped : s.act a = some t) : UsbInv t := by
  cases a with
  | triggerRstRxd w addr =>
    obtain ⟨idle, here⟩ := ite_none_right_eq_some.mp stepped
    obtain rfl := some.inj here
    exact inv.triggerRstRxd idle undisturbed
  | triggerGoOn busErr =>
    obtain rfl := some.inj stepped
    exact inv.triggerGoOn undisturbed
  | sendFrame sizes busErr =>
    cases busErr with
    | true =>
      obtain rfl := some.inj stepped
      exact inv
    | false =>
      obtain ⟨free, here⟩ := ite_none_right_eq_some.mp stepped
      obtain rfl := some.inj here
      exact inv.lockFrame free undisturbed.1 undisturbed.2
  | writeSram addr data =>
    obtain ⟨⟨free, other⟩, here⟩ := ite_none_right_eq_some.mp stepped
    obtain rfl := some.inj here
    have elsewhere : Written { s with trigger := s.trigger } ⟨addr, data, false⟩ := by
      unfold Written
      rw [if_neg Bool.false_ne_true]
      exact other
    have same : { s.lockSram ⟨addr, data, false⟩ with trigger := s.trigger } = s.lockSram ⟨addr, data, false⟩ := by
      unfold UsbHw.lockSram
      split <;> rfl
    rw [← same]
    exact inv.lockSram free undisturbed (.inl rfl) elsewhere
  | header =>
    obtain ⟨free, here⟩ := ite_none_right_eq_some.mp stepped
    obtain rfl := some.inj here
    refine inv.plain (fun _ _ => rfl) ?_ ⟨nofun, nofun, nofun⟩ nofun
    rw [free]
    exact ⟨nofun, nofun⟩
  | busGoOn b kmalloc =>
    obtain rfl := some.inj stepped
    exact inv.busGoOn undisturbed
  | setCoexFlag coexFlag =>
    obtain rfl := some.inj stepped
    refine ⟨inv.genuine, inv.order, inv.clean, inv.waiting, fun w stage bus => ?_, ?_⟩
    · exact (inv.sram w stage bus).congr rfl rfl rfl
    · cases inv.stage with
      | settled trigger frame sram block last => exact .settled trigger frame sram block last
      | storing i n trigger handed frame clear sram few bytes =>
        exact .storing i n trigger handed frame clear sram few bytes
      | frameClear i bus trigger few bytes last => exact .frameClear i bus trigger few bytes last
      | sramClear w i n bus byRx handed told few bytes => exact .sramClear w i n bus byRx handed told few bytes

theorem handOff : HandOff s where
  last := fun idle n handed => by
    cases inv.stage with
    | settled _ _ _ _ last => exact (last idle n handed).imp_right And.right
    | storing _ _ trigger => exact nomatch idle.symm.trans trigger
    | frameClear _ _ _ _ _ last => exact .inl (last idle n handed)
    | sramClear w _ m _ _ before told =>
      obtain rfl : m = n := Nat.succ.inj (before.symm.trans handed)
      exact .inl told
  genuine := inv.genuine
  order := inv.order
  clean := inv.clean

end

end UsbInv

/-- **The read positions arrive** in every run of undisturbed steps. -/
theorem read_pointer_hand_off {s : UsbHw} (reach : usbSystem.Reachable Undisturbed s) : HandOff s := by
  have inv : UsbInv s := reach.invariant (I := UsbInv) UsbInv.init
    fun _ _ _ _ inv undisturbed stepped => inv.act undisturbed stepped
  exact inv.handOff

theorem reachable_goOn {s : UsbHw} (reach : usbSystem.Reachable Undisturbed s) (n : ℕ) :
    usbSystem.Reachable Undisturbed ((fun t => UsbHw.triggerGoOn t false)^[n] s) := by
  induction n with
  | zero => exact reach
  | succ n ih =>
    rw [Function.iterate_succ_apply']
    exact ih.step (show Undisturbed _ (.triggerGoOn false) from fun _ _ => rfl) rfl

/-- A frame carries a position that was put in before. -/
theorem read_pointer_hand_off_carried : ∃ s : UsbHw, s.delivered = [⟨some 0, 0x60013b84⟩] ∧ HandOff s := by
  have handed := System.Reachable.step (S := usbSystem) .init
    (show Undisturbed _ (.triggerRstRxd {} 0x60013b84) from fun _ => ⟨nofun, nofun⟩) rfl
  have stored := reachable_goOn handed 9
  have begun := stored.step (show Undisturbed _ (.sendFrame [100] false) from ⟨nofun, by decide⟩) rfl
  have sent := begun.step (show Undisturbed _ (.busGoOn {} true) from fun _ => ⟨rfl, rfl⟩) rfl
  exact ⟨_, by decide, read_pointer_hand_off sent⟩

/-- **A position that is put in between the command and the clearing** is erased. -/
theorem erased_position : ¬ ∀ s : UsbHw, usbSystem.Reachable (fun _ _ => True) s → HandOff s := by
  intro all
  have reach := System.reachable_of_run usbSystem (fun _ (_ : UsbAct) => True)
    ([.sendFrame [100] false, .busGoOn {} true, .triggerRstRxd {} 0x60013b84] ++
      List.replicate 9 (.triggerGoOn false) ++ List.replicate 9 (.busGoOn {} true)) rfl
  rcases (all _ reach).last rfl 0 rfl with ⟨d, mem, -⟩ | whole
  · exact absurd mem List.not_mem_nil
  · exact absurd whole (by decide)

end W2l.Usb
