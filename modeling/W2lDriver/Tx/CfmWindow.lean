/-
**The window of the confirmation table that is read.**

`txcfm_analyze_handler`, `aml_update_tx_cfm` (`fullmac/aml_tx.c`), `aml_tx_cfm_param_init` (`aml_utils.c`). With
`CONFIG_SDIO_TX_ENH` only some of the six SDIO blocks of the table are read. Each wake-up of the task that
processes the confirmations tells how many there were and at which slot it stopped, and the window is chosen from
that.

* `txcfmAnalyzeHandler` — the choice; `occupyBlk` is its estimate.
* `amlUpdateTxCfm` — the read, with the check before it.
* `windowSystem` — wake-ups, reads, and the switch of `aml_set_dyn_txcfm`.
* `WindowRight` — **the window is inside the table and has the block of the slot where the task goes on**, so the
  read takes what the firmware has written there.
-/

import W2lDriver.Cmd.Types
import W2lDriver.Lib.System

namespace W2l.Tx

open Cmd (BusType)
open Lib

/-! ### The code -/

/-- `TAGS_IN_SDIO_BLK`, `TXCFM_THRESH`, and the blocks of the table. -/
def tagsInSdioBlk : BitVec 32 := 32
def txcfmThresh : BitVec 32 := 3
def txcfmBlks : BitVec 32 := 6

/-- `txcfm_param_t`, without the threshold, which nothing reads. -/
structure TxcfmParam where
  dynEn : Bool
  preTag : BitVec 32 := 0
  threshCnt : BitVec 32 := 0
  startBlk : BitVec 32 := 0
  readBlk : BitVec 32 := txcfmBlks

def amlTxCfmParamInit : TxcfmParam := { dynEn := true }

/-- The blocks that so many confirmations from a slot on may occupy. -/
def occupyBlk (curTags leftTagNum : BitVec 32) : BitVec 32 :=
  curTags / tagsInSdioBlk + (if leftTagNum ≠ 0 then 1 else 0) + if curTags % tagsInSdioBlk ≠ 0 then 1 else 0

namespace TxcfmParam

variable (p : TxcfmParam)

def readAll : TxcfmParam := { p with startBlk := 0, readBlk := txcfmBlks }

/-- The window at the third wake-up in a row with no more confirmations than the one before. -/
def adjusted (curTags leftTagNum curBlkIdx : BitVec 32) : TxcfmParam :=
  if leftTagNum ≥ curTags then { p with startBlk := curBlkIdx, readBlk := 1 }
  else if curBlkIdx + occupyBlk curTags leftTagNum < txcfmBlks then
    { p with startBlk := curBlkIdx, readBlk := occupyBlk curTags leftTagNum }
  else { p.readAll with threshCnt := 0 }

/-- The window at the wake-ups before: it moves, and grows if need be. -/
def moved (curTags leftTagNum curBlkIdx : BitVec 32) : TxcfmParam :=
  if curBlkIdx + p.readBlk > txcfmBlks then p.readAll
  else if occupyBlk curTags leftTagNum > p.readBlk then
    if curBlkIdx + occupyBlk curTags leftTagNum > txcfmBlks then p.readAll
    else { p with startBlk := curBlkIdx, readBlk := occupyBlk curTags leftTagNum }
  else { p with startBlk := curBlkIdx }

def txcfmAnalyzeHandler (busType : BusType) (curTags preTags txcfmIdx : BitVec 32) : TxcfmParam :=
  let relativeIdx := (txcfmIdx + 1) % tagsInSdioBlk
  let curBlkIdx := txcfmIdx / tagsInSdioBlk
  let leftTagNum := tagsInSdioBlk - relativeIdx
  if busType ≠ .sdio then p
  else
    let q :=
      if curTags ≤ preTags then
        let stable := { p with threshCnt := p.threshCnt + 1 }
        if stable.threshCnt = txcfmThresh then
          { stable with threshCnt := 0 }.adjusted curTags leftTagNum curBlkIdx
        else stable.moved curTags leftTagNum curBlkIdx
      else { p.readAll with threshCnt := 0 }
    { q with preTag := curTags }

/-- The check in `aml_update_tx_cfm`. -/
def checked : TxcfmParam :=
  if p.startBlk + p.readBlk > txcfmBlks then { p.readAll with threshCnt := 0 } else p

/-- What `aml_set_dyn_txcfm` does. -/
def setDynTxcfm (en : Bool) : TxcfmParam := if p.dynEn = en then p else { dynEn := en }

end TxcfmParam

/-- The parameters, `read_cfm`, and the slot where `aml_tx_cfm_task` goes on. -/
structure WindowHw (Tag : Type) where
  param : TxcfmParam
  readCfm : ℕ → Tag
  txcfmIdx : ℕ

namespace WindowHw

variable {Tag : Type} (s : WindowHw Tag)

/-- `hi_sram_read` of so many slots of the table; a slot has 16 bytes, and a block 512. -/
def hiSramRead (sram : ℕ → Tag) (first count : ℕ) : WindowHw Tag :=
  { s with readCfm := fun k => if first ≤ k ∧ k < first + count then sram k else s.readCfm k }

/-- `aml_update_tx_cfm` on SDIO. -/
def amlUpdateTxCfm (sram : ℕ → Tag) : WindowHw Tag :=
  if s.param.dynEn then
    let p := s.param.checked
    { s with param := p }.hiSramRead sram (p.startBlk * tagsInSdioBlk).toNat (p.readBlk * tagsInSdioBlk).toNat
  else s.hiSramRead sram 0 192

end WindowHw

/-- A wake-up that stops at a slot, a read of what the firmware has written, and the private command. -/
inductive WindowAct (Tag : Type)
  | wakeUp (curTags txcfmIdx : BitVec 32)
  | update (sram : ℕ → Tag)
  | setDynTxcfm (en : Bool)

/-- The runs on SDIO. -/
def windowSystem {Tag : Type} (zero : Tag) : System (WindowHw Tag) (WindowAct Tag) where
  init := ⟨amlTxCfmParamInit, fun _ => zero, 0⟩
  step s
    | .wakeUp curTags txcfmIdx => some { s with
        param := s.param.txcfmAnalyzeHandler .sdio curTags s.param.preTag txcfmIdx
        txcfmIdx := txcfmIdx.toNat }
    | .update sram => some (s.amlUpdateTxCfm sram)
    | .setDynTxcfm en => some { s with param := s.param.setDynTxcfm en }

/-! ### The property -/

def InTable {Tag : Type} (_ : WindowHw Tag) : WindowAct Tag → Prop
  | .wakeUp curTags txcfmIdx => curTags.toNat ≤ 192 ∧ txcfmIdx.toNat < 192
  | _ => True

instance {Tag : Type} (s : WindowHw Tag) : ∀ a, Decidable (InTable s a)
  | .wakeUp curTags txcfmIdx => inferInstanceAs (Decidable (curTags.toNat ≤ 192 ∧ txcfmIdx.toNat < 192))
  | .update _ | .setDynTxcfm _ => .isTrue trivial

/-- **What the next read does**: its window is inside the table and has the block of the slot where the task goes
on, and the slots of that block get what the firmware has written. -/
structure WindowRight {Tag : Type} (s : WindowHw Tag) : Prop where
  some : 1 ≤ s.param.checked.readBlk.toNat
  inside : s.param.checked.startBlk.toNat + s.param.checked.readBlk.toNat ≤ 6
  first : s.param.checked.startBlk.toNat ≤ s.txcfmIdx / 32
  last : s.txcfmIdx / 32 < s.param.checked.startBlk.toNat + s.param.checked.readBlk.toNat
  seen : ∀ sram k, k / 32 = s.txcfmIdx / 32 → (s.amlUpdateTxCfm sram).readCfm k = sram k

/-! ### One wake-up -/

/-- A window inside the table that has a block. -/
structure Window (p : TxcfmParam) (blk : ℕ) : Prop where
  first : p.startBlk.toNat ≤ blk
  last : blk < p.startBlk.toNat + p.readBlk.toNat
  inside : p.startBlk.toNat + p.readBlk.toNat ≤ 6

section Choice

variable {p : TxcfmParam} {curTags leftTagNum curBlkIdx : BitVec 32} {blk : ℕ}

theorem Window.whole (start : p.startBlk = 0) (read : p.readBlk = txcfmBlks) (few : blk < 6) : Window p blk := by
  refine ⟨?_, ?_, ?_⟩ <;> rw [start] <;> try rw [read]
  · exact Nat.zero_le blk
  · exact few
  · decide

theorem Window.from_start {n : BitVec 32} (start : p.startBlk = curBlkIdx) (read : p.readBlk = n)
    (here : curBlkIdx.toNat = blk) (some : 0 < n.toNat) (room : blk + n.toNat ≤ 6) : Window p blk := by
  refine ⟨?_, ?_, ?_⟩ <;> rw [start, here] <;> try rw [read]
  · exact Nat.lt_add_of_pos_right some
  · exact room

theorem occupyBlk_toNat (curTags : BitVec 32) (left : leftTagNum ≠ 0) :
    0 < (occupyBlk curTags leftTagNum).toNat ∧ (occupyBlk curTags leftTagNum).toNat ≤ 2 ^ 27 + 2 := by
  have quotient : (curTags / tagsInSdioBlk).toNat ≤ 2 ^ 27 := by
    rw [BitVec.toNat_udiv]
    have small := curTags.isLt
    show curTags.toNat / 32 ≤ _
    omega
  unfold occupyBlk
  rw [if_pos left]
  generalize curTags / tagsInSdioBlk = quotientBlk at quotient
  split <;> bv_omega

theorem Window.adjusted (here : curBlkIdx.toNat = blk) (few : blk < 6) (left : leftTagNum ≠ 0) :
    Window (p.adjusted curTags leftTagNum curBlkIdx) blk := by
  unfold TxcfmParam.adjusted
  split
  · exact .from_start rfl rfl here Nat.one_pos few
  obtain ⟨some, small⟩ := occupyBlk_toNat curTags left
  split
  case isTrue room =>
    refine .from_start rfl rfl here some ?_
    unfold txcfmBlks at room
    bv_omega
  case isFalse => exact .whole rfl rfl few

theorem Window.moved (here : curBlkIdx.toNat = blk) (few : blk < 6) (left : leftTagNum ≠ 0)
    (some : 0 < p.readBlk.toNat) (small : p.readBlk.toNat ≤ 6) :
    Window (p.moved curTags leftTagNum curBlkIdx) blk := by
  unfold TxcfmParam.moved
  split
  · exact .whole rfl rfl few
  rename_i fits
  unfold txcfmBlks at *
  split
  · obtain ⟨some, large⟩ := occupyBlk_toNat curTags left
    split
    · exact .whole rfl rfl few
    · refine .from_start rfl rfl here some ?_
      bv_omega
  · refine .from_start rfl rfl here some ?_
    bv_omega

theorem Window.analyze {old : ℕ} (window : Window p old) {preTags txcfmIdx : BitVec 32}
    (slot : txcfmIdx.toNat < 192) :
    Window (p.txcfmAnalyzeHandler .sdio curTags preTags txcfmIdx) (txcfmIdx.toNat / 32) := by
  have here : (txcfmIdx / tagsInSdioBlk).toNat = txcfmIdx.toNat / 32 := BitVec.toNat_udiv
  have few : txcfmIdx.toNat / 32 < 6 := by omega
  have left : tagsInSdioBlk - (txcfmIdx + 1) % tagsInSdioBlk ≠ 0 := by
    have below : ((txcfmIdx + 1) % tagsInSdioBlk).toNat < 32 := by
      rw [BitVec.toNat_umod]
      exact Nat.mod_lt _ (by decide)
    unfold tagsInSdioBlk at below ⊢
    bv_omega
  have some : 0 < p.readBlk.toNat := by
    have := window.first
    have := window.last
    omega
  have small : p.readBlk.toNat ≤ 6 := Nat.le_trans (Nat.le_add_left _ _) window.inside
  unfold TxcfmParam.txcfmAnalyzeHandler
  dsimp only
  rw [if_neg fun other => other rfl]
  suffices chosen : ∀ q : TxcfmParam, Window q (txcfmIdx.toNat / 32) →
      Window { q with preTag := curTags } (txcfmIdx.toNat / 32) by
    apply chosen
    split
    · split
      · exact .adjusted here few left
      · exact .moved here few left some small
    · exact .whole rfl rfl few
  exact fun q chosen => ⟨chosen.first, chosen.last, chosen.inside⟩

theorem Window.checked (window : Window p blk) : p.checked = p := by
  unfold TxcfmParam.checked
  rw [if_neg]
  have inside := window.inside
  unfold txcfmBlks
  bv_omega

end Choice

/-! ### Every run -/

def WindowInv {Tag : Type} (s : WindowHw Tag) : Prop := Window s.param (s.txcfmIdx / 32) ∧ s.txcfmIdx < 192

section Run

variable {Tag : Type} {zero : Tag} {s : WindowHw Tag}

section

variable (inv : WindowInv s)

include inv

theorem WindowInv.update (sram : ℕ → Tag) : WindowInv (s.amlUpdateTxCfm sram) := by
  unfold WindowHw.amlUpdateTxCfm
  split
  · refine ⟨?_, inv.2⟩
    show Window s.param.checked _
    rw [inv.1.checked]
    exact inv.1
  · exact inv

theorem WindowInv.setDynTxcfm (en : Bool) : WindowInv { s with param := s.param.setDynTxcfm en } := by
  refine ⟨?_, inv.2⟩
  unfold TxcfmParam.setDynTxcfm
  split
  · exact inv.1
  · refine .whole rfl rfl ?_
    have := inv.2
    show s.txcfmIdx / 32 < 6
    omega

theorem WindowInv.seen (sram : ℕ → Tag) {k : ℕ} (block : k / 32 = s.txcfmIdx / 32) :
    (s.amlUpdateTxCfm sram).readCfm k = sram k := by
  obtain ⟨⟨first, last, inside⟩, slot⟩ := inv
  unfold WindowHw.amlUpdateTxCfm
  split
  · show (if _ then _ else _) = _
    rw [Window.checked ⟨first, last, inside⟩, if_pos]
    have start : (s.param.startBlk * tagsInSdioBlk).toNat = s.param.startBlk.toNat * 32 := by
      unfold tagsInSdioBlk
      bv_omega
    have read : (s.param.readBlk * tagsInSdioBlk).toNat = s.param.readBlk.toNat * 32 := by
      unfold tagsInSdioBlk
      bv_omega
    rw [start, read]
    omega
  · show (if _ then _ else _) = _
    rw [if_pos]
    omega

theorem WindowInv.right : WindowRight s := by
  have same := inv.1.checked
  refine ⟨?_, ?_, ?_, ?_, fun sram k block => inv.seen sram block⟩ <;> rw [same]
  · have := inv.1.first
    have := inv.1.last
    omega
  · exact inv.1.inside
  · exact inv.1.first
  · exact inv.1.last

end

/-- **In every run the next read has the block where the task goes on.** -/
theorem window_right (reach : (windowSystem zero).Reachable InTable s) : WindowRight s := by
  refine WindowInv.right (reach.invariant (I := WindowInv) ?_ fun s a t _ inv within stepped => ?_)
  · exact ⟨.whole rfl rfl (show 0 / 32 < 6 by decide), show 0 < 192 by decide⟩
  cases a with
  | wakeUp curTags txcfmIdx =>
    obtain rfl := Option.some.inj stepped
    exact ⟨inv.1.analyze within.2, within.2⟩
  | update sram =>
    obtain rfl := Option.some.inj stepped
    exact inv.update sram
  | setDynTxcfm en =>
    obtain rfl := Option.some.inj stepped
    exact inv.setDynTxcfm en

end Run

/-- Three wake-ups with one confirmation each, the last of them at slot 70, and a read. -/
theorem window_right_sample : ∃ s : WindowHw ℕ, s.param.startBlk = 2 ∧ s.param.readBlk = 1 ∧ WindowRight s := by
  have reach := System.reachable_of_run (windowSystem 0) InTable
    [.wakeUp 1 68, .wakeUp 1 69, .wakeUp 1 70, .wakeUp 1 70, .update id] (by decide +kernel)
  exact ⟨_, by decide +kernel, by decide +kernel, window_right reach⟩

end W2l.Tx
