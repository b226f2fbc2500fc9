/-
**A batch of frames over USB: rounds of the task.**

* `sendFrame_right` — a batch that is sent; `round_right` — a round.
* `Idle` — the task between rounds; `tx_batches_right` — **the run lemma**.
-/

import Mathlib.Tactic.IntervalCases
import W2lDriver.Usb.Batch

namespace W2l.UsbTx

open Lib Lib.Packing
open Task (queue)

/-! ### The command block -/

section Block

variable {cbw : Cbw} {sizes : List (BitVec 16)} {low high v : BitVec 16} {n i m : ℕ}

theorem word_low : (word low high).extractLsb' 0 16 = low := by
  apply BitVec.eq_of_getLsbD_eq
  intro i within
  unfold word
  rw [BitVec.getLsbD_extractLsb', BitVec.getLsbD_or, BitVec.getLsbD_shiftLeft, BitVec.getLsbD_setWidth, Nat.zero_add,
    decide_eq_true within, decide_eq_true (show i < 32 by omega)]
  simp only [Bool.true_and, Bool.not_true, Bool.false_and, Bool.or_false]

theorem word_high : (word low high).extractLsb' 16 16 = high := by
  apply BitVec.eq_of_getLsbD_eq
  intro i within
  unfold word
  rw [BitVec.getLsbD_extractLsb', BitVec.getLsbD_or, BitVec.getLsbD_shiftLeft, BitVec.getLsbD_setWidth,
    BitVec.getLsbD_setWidth, decide_eq_true within, decide_eq_true (show 16 + i < 32 by omega),
    decide_eq_false (show ¬16 + i < 16 by omega), Nat.add_sub_cancel_left, BitVec.getLsbD_of_ge low _ (by omega),
    decide_eq_true (show i < 32 by omega)]
  simp only [Bool.true_and, Bool.not_false, Bool.false_or, Bool.and_false]

theorem lengthBytes_getElem? : (sizes.flatMap lengthBytes)[2 * m]? = sizes[m]?.map (fun v => v.extractLsb' 0 8) ∧
    (sizes.flatMap lengthBytes)[2 * m + 1]? = sizes[m]?.map fun v => v.extractLsb' 8 8 := by
  induction sizes generalizing m with
  | nil => exact ⟨rfl, rfl⟩
  | cons v rest ih =>
    rw [List.flatMap_cons]
    cases m with
    | zero => exact ⟨rfl, rfl⟩
    | succ m => exact ih

theorem resv_build (behind : 14 ≤ i) (within : i < sizes.length) :
    (buildPacketInfo cbw n sizes).resv (2 * (i - 14) + 1) ++ (buildPacketInfo cbw n sizes).resv (2 * (i - 14)) =
      sizes.getD i 0 := by
  obtain ⟨lowByte, highByte⟩ := @lengthBytes_getElem? (sizes.drop 14) (i - 14)
  rw [List.getElem?_drop, Nat.add_sub_cancel' behind, List.getElem?_eq_getElem within] at lowByte highByte
  unfold buildPacketInfo write
  dsimp only
  rw [if_pos (Nat.zero_le _), if_pos (Nat.zero_le _), Nat.sub_zero, Nat.sub_zero, lowByte, highByte]
  exact (ofBe16_be16 sizes[i]).trans (List.getElem_eq_getD _)

theorem length_build (within : i < sizes.length) : (buildPacketInfo cbw n sizes).length i = sizes.getD i 0 := by
  by_cases front : i < 14
  · interval_cases i
    · exact word_low
    · exact word_high
    · exact word_low
    · exact word_high
    · exact word_low
    · exact word_high
    · exact word_low
    · exact word_high
    · exact word_low
    · exact word_high
    · exact word_low
    · exact word_high
    · exact word_high
    · exact ofBe16_be16 _
  · unfold Cbw.length
    rw [if_neg (by omega), if_neg (by omega), if_neg (by omega)]
    exact resv_build (Nat.not_lt.mp front) within

theorem lengths_build (few : sizes.length < 256) : (buildPacketInfo cbw sizes.length sizes).lengths = sizes := by
  have number : (buildPacketInfo cbw sizes.length sizes).flag.toNat = sizes.length := by
    show (BitVec.ofNat 8 sizes.length).toNat = _
    rw [BitVec.toNat_ofNat]
    exact Nat.mod_eq_of_lt few
  unfold Cbw.lengths
  rw [number]
  apply List.ext_getElem
  · rw [List.length_map, List.length_range]
  · intro i _ within
    rw [List.getElem_map, List.getElem_range, length_build within]
    exact (List.getElem_eq_getD _).symm

end Block

/-! ### The bulk requests -/

section Requests

variable {items : List ScatItem} {count : ℕ}

theorem segments_eq (one : ∀ item ∈ items, item.pageNum = 1) : segments items count =
    ((fill (fun _ => 0) 1 maxsgSize items 0 count).1.map ScatItem.segment,
      (fill (fun _ => 0) 1 maxsgSize items 0 count).2) := by
  induction items generalizing count with
  | nil => rfl
  | cons item rest ih =>
    have page := one item List.mem_cons_self
    unfold segments fill
    rw [page]
    by_cases room : count < maxsgSize
    · rw [if_neg (by push_cast; omega), if_pos rfl, if_pos ⟨Nat.one_pos, room, Nat.zero_le _⟩,
        ih fun other member => one other (List.mem_cons_of_mem _ member)]
      rfl
    · rw [if_pos (by push_cast; omega), if_neg fun taken => room taken.2.1]
      rfl

theorem fill_cons_ne_nil {item : ScatItem} : (fill (fun _ => 0) 1 maxsgSize (item :: items) 0 0).1 ≠ [] := by
  unfold fill
  rw [if_pos ⟨Nat.one_pos, by decide, Nat.zero_le _⟩]
  exact List.cons_ne_nil _ _

theorem sendPacket_spec {respond : ℕ → SgResult} {fuel n : ℕ} (one : ∀ item ∈ items, item.pageNum = 1)
    (enough : items.length ≤ fuel) :
    ∃ requests failed, sendPacket respond fuel items n = some (requests, failed) ∧
      requests.flatten <+: items.map ScatItem.segment ∧
      (failed = false → requests.flatten = items.map ScatItem.segment) ∧
      ∀ sg ∈ requests, sg.length ≤ maxsgSize := by
  induction fuel generalizing items n with
  | zero =>
    obtain rfl := List.eq_nil_of_length_eq_zero (Nat.le_zero.mp enough)
    exact ⟨[], false, rfl, List.prefix_rfl, fun _ => rfl, fun _ member => absurd member List.not_mem_nil⟩
  | succ fuel ih =>
    cases items with
    | nil => exact ⟨[], false, rfl, List.prefix_rfl, fun _ => rfl, fun _ member => absurd member List.not_mem_nil⟩
    | cons item rest =>
      have limit : (fill (fun _ => 0) 1 maxsgSize (item :: rest) 0 0).1.length ≤ maxsgSize := by
        rw [← Nat.zero_add (List.length _)]
        exact fill_length (Nat.zero_le _)
      unfold sendPacket
      rw [segments_eq one]
      generalize filling : fill (fun _ => 0) 1 maxsgSize (item :: rest) 0 0 = filled at limit ⊢
      have whole : filled.1 ++ filled.2 = item :: rest := filling ▸ fill_append
      have less : filled.2.length < (item :: rest).length := filling ▸ fill_left_length fill_cons_ne_nil
      obtain ⟨sg, left⟩ := filled
      dsimp only at whole less limit ⊢
      have short : (sg.map ScatItem.segment).length ≤ maxsgSize := by
        rw [List.length_map]
        exact limit
      rw [← whole, List.map_append]
      cases (respond n).failed with
      | true =>
        rw [if_pos rfl]
        refine ⟨_, _, rfl, ?_, fun good => absurd good.symm Bool.false_ne_true, ?_⟩
        · rw [List.flatten_singleton]
          exact List.prefix_append _ _
        · intro request member
          rw [List.mem_singleton.mp member]
          exact short
      | false =>
        have pages : ∀ item ∈ left, item.pageNum = 1 := fun other member =>
          one other (whole ▸ List.mem_append_right _ member)
        obtain ⟨requests, failed, ran, front, all, limits⟩ := @ih left (n + 1) pages (by
          rw [List.length_cons] at enough less
          omega)
        rw [if_neg Bool.false_ne_true, ran]
        refine ⟨_, _, rfl, ?_, fun good => ?_, ?_⟩
        · rw [List.flatten_cons]
          exact (List.prefix_append_right_inj _).mpr front
        · rw [List.flatten_cons, all good]
        · intro request member
          rcases List.mem_cons.mp member with rfl | later
          · exact short
          · exact limits request later

end Requests

/-! ### The queue -/

theorem entries_addFrame {req : ScatReq} (item : ScatItem) :
    (req.addFrame req.scatCount item).entries = req.entries ++ [item] := by
  unfold ScatReq.entries ScatReq.addFrame
  dsimp only
  rw [List.range_succ, List.map_append, List.map_singleton, Function.update_self]
  congr 1
  refine List.map_congr_left fun i within => ?_
  rw [Function.update_of_ne (Nat.ne_of_lt (List.mem_range.mp within))]

section Round

variable {r : Round} {task : Task}

theorem queue_spec {frames : List UsbFrame} {k : ℕ} (pages : task.totPageNum = k)
    (next : task.mpduNum = task.req.scatCount) :
    (queue r frames k task).req.entries = task.req.entries ++ (taken r frames k).map UsbFrame.item ∧
      (queue r frames k task).req.scatCount = task.req.scatCount + (taken r frames k).length ∧
      (queue r frames k task).totPageNum = k + (taken r frames k).length ∧
      (taken r frames k = [] → queue r frames k task = task) := by
  induction frames generalizing k task with
  | nil => exact ⟨(List.append_nil _).symm, rfl, pages, fun _ => rfl⟩
  | cons frame rest ih =>
    unfold queue taken
    rw [pages]
    by_cases takes : 2 ≤ r.txPageFreeNum k ∧ (k + 1 ≤ r.txPageOnce ∨ k = 0)
    · rw [if_pos takes, if_pos takes]
      obtain ⟨entries, count, total, -⟩ := @ih { task with
          req := task.req.addFrame task.mpduNum frame.item
          mpduNum := task.mpduNum + 1
          totPageNum := k + 1 } (k + 1) rfl (by rw [next]; rfl)
      refine ⟨?_, ?_, ?_, fun none => absurd none (List.cons_ne_nil _ _)⟩
      · rw [entries]
        dsimp only
        rw [next, entries_addFrame, List.append_assoc]
        rfl
      · rw [count, List.length_cons]
        show task.req.scatCount + 1 + _ = _
        omega
      · rw [total, List.length_cons]
        omega
    · rw [if_neg takes, if_neg takes]
      exact ⟨(List.append_nil _).symm, rfl, pages, fun _ => rfl⟩

/-- The task between rounds. -/
structure Idle (task : Task) : Prop where
  count : task.req.scatCount = 0
  len : task.req.len = 0
  next : task.mpduNum = 0
  pages : task.totPageNum = 0

theorem queue_idle (idle : Idle task) : (queue r r.waiting 0 task).req.entries = r.batch ∧
      (queue r r.waiting 0 task).req.scatCount = r.batch.length ∧
      (queue r r.waiting 0 task).totPageNum = r.batch.length ∧
      (r.batch = [] → queue r r.waiting 0 task = task) := by
  obtain ⟨entries, count, total, same⟩ :=
    @queue_spec r task r.waiting 0 idle.pages (idle.next.trans idle.count.symm)
  have none : task.req.entries = [] := by
    unfold ScatReq.entries
    rw [idle.count]
    rfl
  have length : r.batch.length = (taken r r.waiting 0).length := List.length_map _
  refine ⟨?_, ?_, ?_, fun empty => same (List.map_eq_nil_iff.mp empty)⟩
  · rw [entries, none, List.nil_append]
    rfl
  · rw [count, idle.count, Nat.zero_add, length]
  · rw [total, Nat.zero_add, length]

theorem one_page : ∀ item ∈ r.batch, item.pageNum = 1 := by
  intro item member
  obtain ⟨frame, -, rfl⟩ := List.mem_map.mp member
  rfl

/-! ### A round -/

section

variable (idle : Idle task)

include idle

theorem round_nothing (nothing : r.batch = []) :
    task.round r = some { task := task } ∧ BatchRight r { task := task } := by
  obtain ⟨-, -, total, same⟩ := @queue_idle r task idle
  constructor
  · unfold Task.round
    dsimp only
    rw [total, nothing, same nothing]
    exact if_pos rfl
  · exact ⟨nofun, nofun, List.nil_prefix, nofun, nofun, idle.count, idle.len, idle.next, idle.pages⟩

theorem round_busErr (some : r.batch ≠ []) (busErr : r.busErr = true) :
    ∃ sent, task.round r = .some sent ∧ BatchRight r sent ∧ Idle sent.task := by
  obtain ⟨-, -, total, -⟩ := @queue_idle r task idle
  have pages : (queue r r.waiting 0 task).totPageNum ≠ 0 := by
    rw [total]
    exact fun none => some (List.length_eq_zero_iff.mp none)
  unfold Task.round Task.sendFrame
  dsimp only
  rw [if_neg pages, if_pos busErr]
  exact ⟨_, rfl, ⟨nofun, nofun, List.nil_prefix, nofun, nofun, rfl, rfl, rfl, rfl⟩, ⟨rfl, rfl, rfl, rfl⟩⟩

theorem round_sends (some : r.batch ≠ []) (busOk : r.busErr = false)
    (few : r.batch.length ≤ bufferSizes) (short : ∀ item ∈ r.batch, item.len < 65536) (command : r.command = 0) :
    ∃ sent, task.round r = .some sent ∧ BatchRight r sent ∧ Idle sent.task := by
  obtain ⟨entries, count, total, -⟩ := @queue_idle r task idle
  have pages : (queue r r.waiting 0 task).totPageNum ≠ 0 := by
    rw [total]
    exact fun none => some (List.length_eq_zero_iff.mp none)
  obtain ⟨requests, failed, ran, front, all, limits⟩ := @sendPacket_spec r.batch r.respond r.batch.length 0 one_page le_rfl
  unfold Task.round Task.sendFrame
  dsimp only
  rw [if_neg pages, busOk, if_neg Bool.false_ne_true, entries, count, command, if_neg (not_not_intro rfl), ran]
  refine ⟨_, rfl, ⟨fun cbw block => ?_, fun cbw _ => ⟨few, fun j within => ?_⟩, front, fun _ _ good => all good, limits,
    rfl, rfl, rfl, rfl⟩, ⟨rfl, rfl, rfl, rfl⟩⟩
  · obtain rfl := Option.some.inj block
    have length : (r.batch.map fun item => BitVec.ofNat 16 item.len).length = r.batch.length := List.length_map _
    have fits : (r.batch.map fun item => BitVec.ofNat 16 item.len).length < 256 := by
      rw [length]
      exact lt_of_le_of_lt few (by decide)
    rw [← length, lengths_build fits, List.map_map]
    refine List.map_congr_left fun item member => ?_
    show (BitVec.ofNat 16 item.len).toNat = item.len
    rw [BitVec.toNat_ofNat]
    exact Nat.mod_eq_of_lt (short item member)
  · have inside : j < bufferSizes := lt_of_lt_of_le within few
    unfold bufferSizes at inside
    unfold carryRxrdIndex
    omega

theorem round_right (sendable : Sendable r) :
    ∃ sent, task.round r = some sent ∧ BatchRight r sent ∧ Idle sent.task := by
  by_cases nothing : r.batch = []
  · obtain ⟨ran, right⟩ := round_nothing idle nothing
    exact ⟨_, ran, right, idle⟩
  · rcases Bool.eq_false_or_eq_true r.busErr with busErr | busOk
    · exact round_busErr idle nothing busErr
    · obtain ⟨few, short, command⟩ :=
        (sendable.2.resolve_left fun busErr => by rw [busOk] at busErr; exact Bool.false_ne_true busErr).resolve_left nothing
      exact round_sends idle nothing busOk few short command

end

end Round

/-! ### The run -/

/-- **In every run whose rounds can be sent each round is right, and the next one returns.** -/
theorem tx_batches_right {s : Run} (reach : Rounds.Reachable (fun _ r => Sendable r) s) :
    TaskRight s ∧ ∀ r, Sendable r → (s.task.round r).isSome = true := by
  have start : TaskRight Rounds.init ∧ Idle Rounds.init.task :=
    ⟨fun _ _ member => absurd member List.not_mem_nil, rfl, rfl, rfl, rfl⟩
  have inv : TaskRight s ∧ Idle s.task := by
    refine reach.invariant (I := fun s => TaskRight s ∧ Idle s.task) start fun s r s' _ inv sendable stepped => ?_
    obtain ⟨sent, ran, right, idle⟩ := round_right inv.2 sendable
    have next : Rounds.step s r = some ⟨sent.task, s.rounds ++ [(r, sent)]⟩ := by
      show (s.task.round r).map _ = _
      rw [ran]
      rfl
    obtain rfl := Option.some.inj (next.symm.trans stepped)
    refine ⟨fun r' sent' member => ?_, idle⟩
    rcases List.mem_append.mp member with before | last
    · exact inv.1 r' sent' before
    · obtain ⟨rfl, rfl⟩ := Prod.mk.inj (List.mem_singleton.mp last)
      exact right
  refine ⟨inv.1, fun r sendable => ?_⟩
  obtain ⟨sent, ran, -⟩ := round_right inv.2 sendable
  rw [ran]
  rfl

/-- A round with one frame of ten bytes, whose command comes to `command`. -/
def oneFrame (command : Int) : Round where
  waiting := [⟨10, [], 0⟩]
  txPageFreeNum := fun _ => 21
  txPageOnce := 25
  busErr := false
  command := command
  respond := fun _ => ⟨0, 0⟩

/-- **A frame that is sent.** -/
theorem tx_batches_right_one : TaskRight ((Rounds.step Rounds.init (oneFrame 0)).get rfl) := by
  have sendable : Sendable (oneFrame 0) := by
    refine ⟨by decide, .inr (.inr ⟨by decide, fun item member => ?_, rfl⟩)⟩
    rw [List.mem_singleton.mp (show item ∈ [(⟨12, 1, 0⟩ : ScatItem)] from member)]
    decide
  exact (tx_batches_right (.step .init sendable (Option.some_get rfl).symm)).1

/-- **A command that fails leaves its frames in the request.** -/
theorem tx_batch_left : ¬∀ s, Rounds.Reachable (fun _ _ => True) s → TaskRight s := by
  intro right
  have reach : Rounds.Reachable (fun _ _ => True) ((Rounds.step Rounds.init (oneFrame (-1))).get rfl) :=
    .step .init trivial (Option.some_get rfl).symm
  have batch := right _ reach (oneFrame (-1)) _ List.mem_cons_self
  exact absurd batch.reset.1 (by decide)

end W2l.UsbTx
