/-
**Every resource of a buffer is released once: runs.**

* `Careful` — the steps that keep custody. On PCIe: no queue goes inactive between the two looks of a
  transmission, nothing is pushed after the shutdown, nothing is drained whose descriptor is mapped.
  On SDIO and USB: no buffer is dropped. On all of them: no recovery inside `aml_start_mgmt_xmit`, no
  failed allocation in `aml_send_tcp_ack`.
* `OwnInv.step` — one lemma per call, put together.
-/

import W2lDriver.Xmit.Release

namespace W2l.Xmit

open Cmd (BusType)
open Lib (System)
open List (append_nil count_append count_nil flatMap_append flatMap_cons mem_append mem_cons not_mem_nil)
open Function (update update_of_ne)
open Option (map_eq_some_iff some.inj)
open TxHw (held_count)

/-! ### Careful steps -/

def AckVerdict.passes : AckVerdict → Bool
  | .pass | .replace _ => true
  | .hold _ | .drop => false

/-- `aml_start_xmit` gets as far as the lock. -/
def XmitOutcome.reachesLock (x : XmitOutcome) : Prop :=
  x.recovery = false ∧ x.copy ≠ .failed ∧ x.sta = true ∧ x.ack.passes = true ∧
    x.inactive = false ∧ x.swTxhdr = true ∧ x.map = true

/-- **The steps that keep custody.** -/
def Careful (hw : TxHw) : Action → Prop
  | .txqInit t => ∀ f ∈ hw.queued, f.txq ≠ t
  | .txqDeinit t => hw.busType ≠ .pcie → ∀ f ∈ hw.queued, f.txq ≠ t
  | .startXmit t x => hw.busType = .pcie → x.reachesLock → hw.active t = true
  | .startMgmtXmit t x => x.skb = true → x.swTxhdr = true → x.recovery = false ∧
      (hw.busType = .pcie → x.map = true → hw.active t = true)
  | .tcpAckTimeout i t x => (∃ ack ∈ hw.acks, ack.1 = i) → x.swTxhdr = true ∧
      (hw.busType = .pcie → x.recovery = false → x.map = true → hw.active t = true)
  | .push _ _ => hw.busType = .pcie → hw.pciShutdown = false
  -- the firmware confirms only what it was given
  | .txCfm k _ _ => hw.busType = .pcie → ∀ f ∈ hw.pushed[k]?, f.ipcDesc.isMapped = true
  | .txqDropSkb _ => hw.busType = .pcie
  | .txDrain => ∀ f ∈ hw.pushed, hw.busType = .pcie ∧ f.ipcDesc.isMapped = false
  | _ => True

instance (x : XmitOutcome) : Decidable x.reachesLock :=
  inferInstanceAs (Decidable (_ ∧ _ ∧ _ ∧ _ ∧ _ ∧ _ ∧ _))

instance (hw : TxHw) : (a : Action) → Decidable (Careful hw a)
  | .txqInit t => inferInstanceAs (Decidable (∀ f ∈ hw.queued, f.txq ≠ t))
  | .txqDeinit t =>
    inferInstanceAs (Decidable (hw.busType ≠ .pcie → ∀ f ∈ hw.queued, f.txq ≠ t))
  | .startXmit t x =>
    inferInstanceAs (Decidable (hw.busType = .pcie → x.reachesLock → hw.active t = true))
  | .startMgmtXmit t x => inferInstanceAs (Decidable (x.skb = true → x.swTxhdr = true →
      x.recovery = false ∧ (hw.busType = .pcie → x.map = true → hw.active t = true)))
  | .tcpAckTimeout i t x => inferInstanceAs (Decidable ((∃ ack ∈ hw.acks, ack.1 = i) → x.swTxhdr = true ∧
        (hw.busType = .pcie → x.recovery = false → x.map = true → hw.active t = true)))
  | .push _ _ => inferInstanceAs (Decidable (hw.busType = .pcie → hw.pciShutdown = false))
  | .txCfm k _ _ => inferInstanceAs (Decidable (hw.busType = .pcie → ∀ f ∈ hw.pushed[k]?, f.ipcDesc.isMapped = true))
  | .txqDropSkb _ => inferInstanceAs (Decidable (hw.busType = .pcie))
  | .txDrain => inferInstanceAs (Decidable (∀ f ∈ hw.pushed, hw.busType = .pcie ∧ f.ipcDesc.isMapped = false))
  | .tcpDelayAckDeinit | .amsduDismantle .. | .pciShutdown => .isTrue trivial

/-! ### The calls that take a buffer -/

namespace OwnInv

variable {hw : TxHw} {loose : List Resource}

theorem xmitSkb {t skb : Nat} {x : XmitOutcome} (inv : OwnInv hw (.skb skb :: loose))
    (recovery : x.recovery = false) (copy : x.copy ≠ .failed)
    (careful : hw.busType = .pcie → x.reachesLock → hw.active t = true) :
    OwnInv (hw.xmitSkb t skb x) loose := by
  unfold TxHw.xmitSkb
  split
  case isTrue => exact inv.freeSkb
  case isFalse sta =>
    have passed := inv.filterTxTcpAck x.ack
    obtain ⟨active, busType⟩ := filterTxTcpAck_active hw skb x.ack
    generalize result : hw.filterTxTcpAck skb x.ack = filtered at passed active busType
    obtain ⟨hw1, filtered⟩ := filtered
    dsimp only at passed active busType ⊢
    cases filtered with
    | true => exact passed
    | false =>
      have verdict : x.ack.passes = true := by
        cases ack : x.ack <;> rw [ack] at result
        case pass => rfl
        case replace => rfl
        case hold => exact absurd (Prod.mk.inj result).2.symm Bool.false_ne_true
        case drop => exact absurd (Prod.mk.inj result).2.symm Bool.false_ne_true
      replace passed : OwnInv hw1 (.skb skb :: loose) := passed
      rw [if_neg Bool.false_ne_true]
      split
      case isTrue => exact passed.freeSkb
      case isFalse inactive =>
        have added := passed.amsduAddSubframe t x.amsdu
        obtain ⟨active', busType'⟩ := amsduAddSubframe_active hw1 t skb x.amsdu
        generalize hw1.amsduAddSubframe t skb x.amsdu = aggregated at added active' busType'
        obtain ⟨hw2, aggregated⟩ := aggregated
        dsimp only at added active' busType' ⊢
        cases aggregated with
        | true => exact added
        | false =>
          replace added : OwnInv hw2 (.skb skb :: loose) := added
          rw [if_neg Bool.false_ne_true]
          split
          case isTrue => exact added.freeSkb
          case isFalse swTxhdr =>
            refine (added.acquire fun _ => rfl).prepAndQueue false rfl fun pcie map => ?_
            show hw2.active t = true
            rw [active', active]
            exact careful (busType ▸ busType' ▸ pcie) ⟨recovery, copy, Bool.of_not_eq_false sta,
              verdict, Bool.eq_false_iff.mpr inactive, Bool.of_not_eq_false swTxhdr, map⟩

variable {t k : Nat}

theorem startXmit {x : XmitOutcome} (inv : OwnInv hw [])
    (careful : Careful hw (.startXmit t x)) : OwnInv (hw.startXmit t x) [] := by
  have given : OwnInv (hw.acquire .skb).1 [.skb hw.next] := inv.acquire fun _ => rfl
  unfold TxHw.startXmit
  dsimp only
  split
  case isTrue => exact given.freeSkb
  case isFalse recovery =>
    have running : x.recovery = false := Bool.eq_false_iff.mpr recovery
    split
    case h_1 copy => exact given.xmitSkb running (by simp [copy]) careful
    case h_2 => exact given.freeSkb
    case h_3 copy =>
      have copied : OwnInv ((hw.acquire .skb).1.acquire .skb).1
          [.skb (hw.acquire .skb).1.next, .skb hw.next] := given.acquire fun _ => rfl
      have own := (copied.perm (.swap _ _ _)).freeSkb
      exact OwnInv.xmitSkb own running (by simp [copy]) careful

theorem startMgmtXmit {x : MgmtOutcome} (inv : OwnInv hw [])
    (careful : Careful hw (.startMgmtXmit t x)) : OwnInv (hw.startMgmtXmit t x) [] := by
  unfold TxHw.startMgmtXmit
  split
  case isTrue => exact inv
  case isFalse skb =>
    have given : OwnInv (hw.acquire .skb).1 [.skb hw.next] := inv.acquire fun _ => rfl
    dsimp only
    split
    case isTrue => exact given.freeSkb
    case isFalse swTxhdr =>
      obtain ⟨running, active⟩ :=
        careful (Bool.of_not_eq_false skb) (Bool.of_not_eq_false swTxhdr)
      rw [if_neg (by simp [running])]
      exact (given.acquire fun _ => rfl).prepAndQueue true rfl active

theorem sendTcpAck {t skb : Nat} {x : AckOutcome} (inv : OwnInv hw [.skb skb])
    (swTxhdr : x.swTxhdr = true)
    (careful : hw.busType = .pcie → x.recovery = false → x.map = true → hw.active t = true) :
    OwnInv (hw.sendTcpAck t skb x) [] := by
  have given : OwnInv (hw.acquire .swTxhdr).1 [.swTxhdr hw.next, .skb skb] :=
    inv.acquire fun _ => rfl
  unfold TxHw.sendTcpAck
  rw [if_neg (by simp [swTxhdr])]
  dsimp only
  split
  case isTrue => exact given.giveUp
  case isFalse recovery =>
    exact given.prepAndQueue false rfl fun pcie map =>
      careful pcie (Bool.eq_false_iff.mpr recovery) map

theorem tcpAckTimeout {i t : Nat} {x : AckOutcome} (inv : OwnInv hw [])
    (careful : Careful hw (.tcpAckTimeout i t x)) : OwnInv (hw.tcpAckTimeout i t x) [] := by
  unfold TxHw.tcpAckTimeout
  split
  case h_1 => exact inv
  case h_2 ack found =>
    have member : ack ∈ hw.acks := List.mem_of_find?_eq_some found
    obtain ⟨swTxhdr, active⟩ := careful ⟨ack, member, by simpa using List.find?_some found⟩
    have taken : OwnInv { hw with acks := hw.acks.erase ack } [.skb ack.2] := by
      refine inv.place rfl rfl (fun r => ?_) inv.queued inv.pushed inv.active
      have perm := ((List.perm_cons_erase member).map fun ack => Resource.skb ack.2).count_eq r
      simp only [held_count, perm, List.map_cons, List.count_cons, count_nil]
      omega
    exact taken.sendTcpAck swTxhdr active

theorem tcpDelayAckDeinit (inv : OwnInv hw []) : OwnInv hw.tcpDelayAckDeinit [] := by
  have held : OwnInv { hw with acks := [] } (hw.acks.map fun ack => .skb ack.2) := by
    refine inv.place rfl rfl (fun r => ?_) inv.queued inv.pushed inv.active
    simp only [held_count, List.map_nil, count_nil]
    omega
  exact held.emit (.map _ _) (by rw [append_nil])

/-! ### Queues -/

theorem txqInit (inv : OwnInv hw []) (careful : Careful hw (.txqInit t)) : OwnInv (hw.txqInit t) [] := by
  have all : hw.queued.filter (·.txq ≠ t) = hw.queued :=
    List.filter_eq_self.mpr fun f member => decide_eq_true (careful f member)
  unfold TxHw.txqInit
  rw [all]
  refine inv.place rfl rfl (fun _ => rfl) inv.queued inv.pushed fun f member => ?_
  show update hw.active t true f.txq = true
  rw [update_of_ne (careful f member)]
  exact inv.active f member

theorem dropAll {fs : List Frame} (inv : OwnInv hw (fs.flatMap Frame.held)) (pcie : hw.busType = .pcie)
    (ready : ∀ f ∈ fs, f.Queued .pcie) : OwnInv (hw.emit (fs.flatMap (·.drop hw.busType))) [] := by
  rw [pcie]
  refine inv.emit (.flatMap fun f member => .drop (ready f member).toPrepared) ?_
  rw [append_nil, List.flatMap_congr fun f member => (ready f member).core_held]

theorem txqDeinit (inv : OwnInv hw []) (careful : Careful hw (.txqDeinit t)) : OwnInv (hw.txqDeinit t) [] := by
  unfold TxHw.txqDeinit
  split
  case isFalse => exact inv
  case isTrue =>
    have others : ∀ f ∈ hw.queued.filter (·.txq ≠ t),
        f ∈ hw.queued ∧ update hw.active t false f.txq = true := fun f member => by
      obtain ⟨inside, other⟩ := List.mem_filter.mp member
      rw [update_of_ne (of_decide_eq_true other)]
      exact ⟨inside, inv.active f inside⟩
    have taken : OwnInv { hw with
          active := update hw.active t false
          queued := hw.queued.filter (·.txq ≠ t) }
        ((hw.queued.filter (·.txq = t)).flatMap Frame.held) := by
      refine inv.place rfl rfl (fun r => ?_) (fun f member => inv.queued f (others f member).1)
        inv.pushed fun f member => (others f member).2
      have parts := count_filter hw.queued (·.txq = t) Frame.held r
      simp only [held_count, parts, count_nil, ne_eq, decide_not]
      omega
    by_cases pcie : hw.busType = .pcie
    · exact taken.dropAll pcie fun f member => pcie ▸ inv.queued f (List.mem_filter.mp member).1
    · have none : hw.queued.filter (·.txq = t) = [] :=
        List.filter_eq_nil_iff.mpr fun f member => by simp [careful pcie f member]
      rw [none] at taken ⊢
      exact taken.emit .nil (.refl _)

variable {f main : Frame}

theorem takeQueued (inv : OwnInv hw []) (found : hw.queued[k]? = some f) :
    OwnInv { hw with queued := hw.queued.eraseIdx k } f.held := by
  refine inv.place rfl rfl (fun r => ?_) (fun f' member => inv.queued f' (List.mem_of_mem_eraseIdx member)) inv.pushed
    fun f' member => inv.active f' (List.mem_of_mem_eraseIdx member)
  simp only [held_count, count_eraseIdx found r, count_nil]
  omega

theorem txqDropSkb (inv : OwnInv hw []) (found : hw.queued[k]? = some f)
    (careful : Careful hw (.txqDropSkb k)) : OwnInv (hw.txqDropSkb k f) [] := by
  have pcie : hw.busType = .pcie := careful
  have ready : f.Queued .pcie := pcie ▸ inv.queued f (List.mem_of_getElem? found)
  have taken := inv.takeQueued found
  rw [ready.core_held] at taken
  unfold TxHw.txqDropSkb
  rw [pcie]
  exact taken.emit (.drop ready.toPrepared) (by rw [append_nil])

/-! ### To the firmware and back -/

theorem join (inv : OwnInv hw f.held) (ready : f.Pushed hw.busType) :
    OwnInv { hw with pushed := hw.pushed ++ [f] } [] := by
  refine inv.place rfl rfl (fun r => ?_) inv.queued (fun f' member => ?_) inv.active
  · simp only [held_count, flatMap_append, List.flatMap_singleton, count_append, count_nil]
    omega
  · rcases mem_append.mp member with old | new
    · exact inv.pushed f' old
    · exact List.mem_singleton.mp new ▸ ready

section

variable (inv : OwnInv hw [])

include inv

theorem push {map : Bool}
    (found : hw.queued[k]? = some f) (careful : Careful hw (.push k map)) :
    OwnInv (hw.push k f map) [] := by
  have ready := inv.queued f (List.mem_of_getElem? found)
  have taken := inv.takeQueued found
  unfold TxHw.push
  split
  case h_1 pcie =>
    rw [if_neg (by simp [careful pcie])]
    obtain ⟨mapped, _⟩ := taken.ipcBufA2eInit map
    rw [ready.core_held] at mapped
    have pushed : ∀ ipcDesc, ({ f with ipcDesc := ipcDesc } : Frame).Pushed hw.busType :=
      fun _ => ⟨⟨ready.ipcData, ready.hdrs⟩, fun other => absurd pcie other⟩
    cases map with
    | false =>
      exact OwnInv.join (f := { f with ipcDesc := .null }) (mapped.perm List.perm_append_comm) (pushed _)
    | true =>
      exact OwnInv.join (f := { f with ipcDesc := .mapped hw.next }) (mapped.perm List.perm_append_comm) (pushed _)
  case h_2 => exact taken.join ⟨ready.toPrepared, fun _ => ready.ipcDesc⟩

theorem takePushed (found : hw.pushed[k]? = some f) : OwnInv { hw with pushed := hw.pushed.eraseIdx k } f.held := by
  refine inv.place rfl rfl (fun r => ?_) inv.queued
    (fun f' member => inv.pushed f' (List.mem_of_mem_eraseIdx member)) inv.active
  simp only [held_count, count_eraseIdx found r, count_nil]
  omega

theorem getSkbFromCfm (found : hw.pushed[k]? = some f)
    (careful : hw.busType = .pcie → ∀ f ∈ hw.pushed[k]?, f.ipcDesc.isMapped = true) :
    OwnInv (hw.getSkbFromCfm k f).1 (hw.getSkbFromCfm k f).2.core ∧
      (hw.getSkbFromCfm k f).2.Queued (hw.getSkbFromCfm k f).1.busType := by
  have ready := inv.pushed f (List.mem_of_getElem? found)
  have taken := inv.takePushed found
  unfold TxHw.getSkbFromCfm
  split
  case h_1 pcie =>
    refine ⟨taken.emit (.ipcBuf (careful pcie f found)) List.perm_append_comm, ?_⟩
    exact ⟨⟨ready.ipcData, ready.hdrs⟩, rfl⟩
  case h_2 other =>
    have queued : f.Queued hw.busType := ⟨ready.toPrepared, ready.ipcDesc other⟩
    exact ⟨queued.core_held ▸ taken, queued⟩

theorem txCfm {k place : Nat} {swRetry : Bool}
    (found : hw.pushed[k]? = some f) (careful : Careful hw (.txCfm k swRetry place)) :
    OwnInv (hw.txCfm k f swRetry place) [] := by
  obtain ⟨taken, ready⟩ := inv.getSkbFromCfm found careful
  unfold TxHw.txCfm
  generalize hw.getSkbFromCfm k f = result at taken ready
  obtain ⟨hw1, f1⟩ := result
  dsimp only at taken ready ⊢
  split
  case isTrue retried =>
    have whole : (hw1.queued.take place ++ hw1.queued.drop place).flatMap Frame.held =
        hw1.queued.flatMap Frame.held := by rw [List.take_append_drop]
    have members : ∀ f ∈ hw1.queued.take place ++ f1 :: hw1.queued.drop place,
        f = f1 ∨ f ∈ hw1.queued := fun f member => by
      rcases mem_append.mp member with early | late
      · exact .inr (List.mem_of_mem_take early)
      · exact (mem_cons.mp late).imp_right List.mem_of_mem_drop
    refine taken.place rfl rfl (fun r => ?_) (fun f member => ?_) taken.pushed fun f member => ?_
    · have parts := congrArg (List.count r) whole
      rw [flatMap_append, count_append] at parts
      simp only [held_count, flatMap_append, flatMap_cons, count_append, count_nil, ready.core_held, ← parts]
      omega
    · rcases members f member with rfl | old
      · exact ready
      · exact taken.queued f old
    · rcases members f member with rfl | old
      · exact retried.2.1
      · exact taken.active f old
  case isFalse => exact taken.emit ready.toPrepared.confirm (by rw [append_nil])

theorem txDrain (careful : Careful hw .txDrain) : OwnInv hw.txDrain [] := by
  have taken : OwnInv { hw with pushed := [] } (hw.pushed.flatMap Frame.held) := by
    refine inv.place rfl rfl (fun r => ?_) inv.queued (fun _ member => ?_) inv.active
    · simp only [held_count, List.flatMap_nil, count_nil]
      omega
    · exact absurd member not_mem_nil
  unfold TxHw.txDrain
  cases pushed : hw.pushed with
  | nil =>
    rw [pushed] at taken
    exact taken.emit .nil (.refl _)
  | cons f rest =>
    have pcie : hw.busType = .pcie := (careful f (pushed ▸ List.mem_cons_self)).1
    rw [← pushed]
    refine taken.dropAll pcie fun f member => ?_
    exact ⟨pcie ▸ (inv.pushed f member).toPrepared, (careful f member).2⟩

end

/-! ### An A-MSDU is taken apart -/

/-- The mapping of a subframe that becomes a buffer. -/
theorem subframe_ipcData {sub : AmsduTxhdr} (ready : main.Queued hw.busType)
    (own : sub.ipcData.isMapped = true ↔ hw.busType = .pcie) :
    let data := match hw.busType with
      | .pcie => sub.ipcData
      | _ => main.ipcData
    (data.isMapped = true ↔ hw.busType = .pcie) ∧ data.mappings = sub.ipcData.mappings := by
  dsimp only
  split
  case h_1 pcie => exact ⟨own.trans (by rw [pcie]), rfl⟩
  case h_2 other =>
    refine ⟨ready.ipcData, ?_⟩
    rw [IpcBuf.mappings_of_not (ready.toPrepared.not_mapped other).1,
      IpcBuf.mappings_of_not (Bool.eq_false_iff.mpr fun mapped => other (own.mp mapped))]

/-- The loop of `aml_amsdu_dismantle`: each subframe becomes a buffer of its own, or is given up. -/
theorem dismantleHdrs (outcome : Nat → SubframeOutcome) {subs : List AmsduTxhdr}
    (inv : OwnInv hw (subs.flatMap AmsduTxhdr.held ++ loose)) (ready : main.Queued hw.busType)
    (mapped : ∀ sub ∈ subs, (sub.ipcData.isMapped = true ↔ hw.busType = .pcie)) :
    OwnInv (TxHw.dismantleHdrs main outcome subs hw).1
        ((TxHw.dismantleHdrs main outcome subs hw).2.flatMap Frame.held ++ loose) ∧
      (∀ f ∈ (TxHw.dismantleHdrs main outcome subs hw).2, f.Queued hw.busType ∧ f.txq = main.txq) ∧
      (TxHw.dismantleHdrs main outcome subs hw).1.queued = hw.queued ∧
      (TxHw.dismantleHdrs main outcome subs hw).1.active = hw.active ∧
      (TxHw.dismantleHdrs main outcome subs hw).1.busType = hw.busType := by
  induction subs generalizing hw loose with
  | nil => exact ⟨inv, fun _ member => absurd member not_mem_nil, rfl, rfl, rfl⟩
  | cons sub rest ih =>
    have later := fun sub' member => mapped sub' (List.mem_cons_of_mem sub member)
    have own := mapped sub List.mem_cons_self
    rw [flatMap_cons, List.append_assoc] at inv
    have given : OwnInv (hw.acquire .swTxhdr).1 _ := inv.acquire fun _ => rfl
    unfold TxHw.dismantleHdrs
    split
    case h_1 => exact ih (inv.emit (.fail own) (.refl _)) ready later
    case h_2 =>
      have failed := given.emit ((Releases.one _).append (.fail own)) (.refl _)
      exact ih failed ready later
    case h_3 =>
      dsimp only
      obtain ⟨isMapped, mappings⟩ := subframe_ipcData ready own
      generalize frame : ({ main with
        skb := sub.skb
        swTxhdr := (hw.acquire .swTxhdr).2
        ipcData := match (hw.acquire .swTxhdr).1.busType with
          | .pcie => sub.ipcData
          | _ => main.ipcData
        hdrs := [] } : Frame) = f
      have queued : f.Queued hw.busType ∧ f.txq = main.txq := by
        subst frame
        exact ⟨⟨⟨isMapped, fun _ member => absurd member not_mem_nil⟩, ready.ipcDesc⟩, rfl⟩
      have whole : f.held = sub.ipcData.mappings ++ [.swTxhdr hw.next, .skb sub.skb] := by
        rw [queued.1.core_held, ← mappings]
        subst frame
        rfl
      have moved : OwnInv (hw.acquire .swTxhdr).1 (rest.flatMap AmsduTxhdr.held ++ (f.held ++ loose)) := by
        refine given.perm (List.perm_iff_count.mpr fun r => ?_)
        simp only [whole, AmsduTxhdr.held, List.count_cons, count_append, count_nil]
        omega
      obtain ⟨placed, others, same⟩ := ih moved ready later
      refine ⟨?_, fun f' member => ?_, same⟩
      · rw [flatMap_cons]
        refine placed.perm (List.perm_iff_count.mpr fun r => ?_)
        simp only [count_append]
        omega
      · rcases mem_cons.mp member with rfl | old
        · exact queued
        · exact others f' old

theorem dismantleHdrs_queued (main : Frame) (outcome : Nat → SubframeOutcome)
    (subs : List AmsduTxhdr) (hw : TxHw) (queued : List Frame) :
    TxHw.dismantleHdrs main outcome subs { hw with queued := queued } =
      ({ (TxHw.dismantleHdrs main outcome subs hw).1 with queued := queued },
        (TxHw.dismantleHdrs main outcome subs hw).2) := by
  induction subs generalizing hw with
  | nil => rfl
  | cons sub rest ih =>
    unfold TxHw.dismantleHdrs
    split
    case h_1 => exact ih (hw.emit (sub.fail hw.busType))
    case h_2 =>
      exact ih ((hw.acquire .swTxhdr).1.emit (.released (.swTxhdr hw.next) :: sub.fail hw.busType))
    case h_3 =>
      have next := ih (hw.acquire .swTxhdr).1
      dsimp only [TxHw.acquire] at next ⊢
      rw [next]

theorem takeSubframes (inv : OwnInv hw [])
    (found : hw.queued[k]? = some main) :
    OwnInv { hw with queued := hw.queued.set k { main with hdrs := [] } }
      (main.hdrs.flatMap AmsduTxhdr.held ++ []) := by
  have inside : main ∈ hw.queued := List.mem_of_getElem? found
  have ready := inv.queued main inside
  refine inv.place rfl rfl (fun r => ?_) (fun f member => ?_) inv.pushed fun f member => ?_
  · have before := count_eraseIdx found r
    simp only [held_count, count_set found, before, Frame.held, Frame.core, count_append, List.flatMap_nil, count_nil]
    omega
  · rcases List.mem_or_eq_of_mem_set member with old | rfl
    · exact inv.queued f old
    · exact ⟨⟨ready.ipcData, fun _ member => absurd member not_mem_nil⟩, ready.ipcDesc⟩
  · rcases List.mem_or_eq_of_mem_set member with old | rfl
    · exact inv.active f old
    · exact inv.active main inside

theorem amsduDismantle (outcome : Nat → SubframeOutcome)
    (inv : OwnInv hw []) (found : hw.queued[k]? = some main) :
    OwnInv (hw.amsduDismantle k main outcome) [] := by
  have inside : main ∈ hw.queued := List.mem_of_getElem? found
  have ready := inv.queued main inside
  obtain ⟨bound, _⟩ := List.getElem?_eq_some_iff.mp found
  obtain ⟨taken, others, _, active, busType⟩ :=
    (inv.takeSubframes found).dismantleHdrs outcome ready ready.hdrs
  have kept := congrArg (fun r : TxHw × List Frame => r.1.queued)
    (dismantleHdrs_queued main outcome main.hdrs hw hw.queued)
  rw [dismantleHdrs_queued] at taken others active busType
  unfold TxHw.amsduDismantle
  generalize TxHw.dismantleHdrs main outcome main.hdrs hw = result at *
  obtain ⟨hw1, fs⟩ := result
  dsimp only at taken others active busType kept ⊢
  rw [List.set_eq_take_append_cons_drop, if_pos bound] at taken
  rw [kept]
  have members : ∀ f ∈ hw.queued.take k ++ { main with hdrs := [] } :: fs ++ hw.queued.drop (k + 1),
      f ∈ hw.queued.take k ++ { main with hdrs := [] } :: hw.queued.drop (k + 1) ∨ f ∈ fs :=
    fun f member => by
      simp only [mem_append, mem_cons] at member ⊢
      tauto
  refine taken.place rfl rfl (fun r => ?_) (fun f member => ?_) taken.pushed fun f member => ?_
  · simp only [held_count, flatMap_append, flatMap_cons, count_append, count_nil]
    omega
  · rcases members f member with old | new
    · exact taken.queued f old
    · exact busType ▸ (others f new).1
  · rcases members f member with old | new
    · exact taken.active f old
    · show hw1.active f.txq = true
      rw [active, (others f new).2]
      exact inv.active main inside

/-! ### Runs -/

theorem init (busType : BusType) : OwnInv (xmitSystem busType).init [] where
  custody := .empty
  fresh _ member := absurd member not_mem_nil
  initialised _ member := absurd member not_mem_nil
  queued _ member := absurd member not_mem_nil
  pushed _ member := absurd member not_mem_nil
  active _ member := absurd member not_mem_nil

theorem step {hw' : TxHw} {a : Action} (inv : OwnInv hw []) (careful : Careful hw a)
    (stepped : hw.step a = some hw') : OwnInv hw' [] := by
  cases a
  case txqInit t => exact some.inj stepped ▸ inv.txqInit careful
  case txqDeinit t => exact some.inj stepped ▸ inv.txqDeinit careful
  case startXmit t x => exact some.inj stepped ▸ inv.startXmit careful
  case startMgmtXmit t x => exact some.inj stepped ▸ inv.startMgmtXmit careful
  case tcpAckTimeout i t x => exact some.inj stepped ▸ inv.tcpAckTimeout careful
  case tcpDelayAckDeinit => exact some.inj stepped ▸ inv.tcpDelayAckDeinit
  case push k map =>
    obtain ⟨f, found, rfl⟩ := map_eq_some_iff.mp stepped
    exact inv.push found careful
  case txCfm k swRetry place =>
    obtain ⟨f, found, rfl⟩ := map_eq_some_iff.mp stepped
    exact inv.txCfm found careful
  case txqDropSkb k =>
    obtain ⟨f, found, rfl⟩ := map_eq_some_iff.mp stepped
    exact inv.txqDropSkb found careful
  case amsduDismantle k outcome =>
    obtain ⟨f, found, rfl⟩ := map_eq_some_iff.mp stepped
    exact inv.amsduDismantle outcome found
  case pciShutdown =>
    obtain rfl := some.inj stepped
    exact inv.place rfl rfl (fun _ => rfl) inv.queued inv.pushed inv.active
  case txDrain => exact some.inj stepped ▸ inv.txDrain careful

end OwnInv

/-- **TX resource ownership.** In every run whose steps are careful, each socket buffer, each header
and each mapping is released exactly once or still held in one place, and
`aml_ipc_buf_a2e_release` is applied only to buffers that are mapped. -/
theorem txOwnership {busType : BusType} {hw : TxHw}
    (reach : (xmitSystem busType).Reachable Careful hw) : Owned hw :=
  (reach.invariant (I := fun hw => OwnInv hw []) (OwnInv.init busType)
    fun _ _ _ _ inv careful stepped => inv.step careful stepped).owned

/-- An A-MSDU of two buffers on PCIe that is retried, taken apart, dropped and confirmed, and a frame
whose mapping fails: in the end nothing is held. -/
theorem txOwnership_retried :
    ∃ hw, (xmitSystem .pcie).Reachable Careful hw ∧ hw.held = [] ∧ (released hw.log).length = 10 ∧ Owned hw := by
  have reach := System.reachable_of_run (xmitSystem .pcie) Careful
    [.txqInit 0, .startXmit 0 {}, .startXmit 0 { amsdu := some (0, true) }, .push 0 true,
      .txCfm 0 true 0, .startMgmtXmit 0 { map := false }, .amsduDismantle 0 fun _ => .queued,
      .txqDropSkb 0, .push 0 true, .txCfm 0 false 0] (by decide +kernel)
  exact ⟨_, reach, by decide +kernel, by decide +kernel, txOwnership reach⟩

/-- **Runs that break the promise**: a recovery inside `aml_start_mgmt_xmit` leaves the header, a queue
that goes inactive under a PCIe transmission leaves the mapping, and on SDIO a buffer that is dropped
has `aml_ipc_buf_a2e_release` applied to memory nobody wrote. -/
theorem txOwnership_broken : (∃ hw, (xmitSystem .usb).Reachable (fun _ _ => True) hw ∧ ¬ Owned hw) ∧
      (∃ hw, (xmitSystem .pcie).Reachable (fun _ _ => True) hw ∧ ¬ Owned hw) ∧
      ∃ hw, (xmitSystem .sdio).Reachable (fun _ _ => True) hw ∧ ¬ Owned hw := by
  refine ⟨?_, ?_, ?_⟩
  · have reach := System.reachable_of_run (xmitSystem .usb) (fun _ _ => True)
      [.startMgmtXmit 0 { recovery := true }] (by decide +kernel)
    refine ⟨_, reach, fun owned => ?_⟩
    have once := owned.once (.swTxhdr 2) (by decide +kernel)
    revert once
    decide +kernel
  · have reach := System.reachable_of_run (xmitSystem .pcie) (fun _ _ => True)
      [.startXmit 0 {}] (by decide +kernel)
    refine ⟨_, reach, fun owned => ?_⟩
    have once := owned.once (.mapping 3) (by decide +kernel)
    revert once
    decide +kernel
  · have reach := System.reachable_of_run (xmitSystem .sdio) (fun _ _ => True)
      [.txqInit 0, .startMgmtXmit 0 {}, .txqDropSkb 0] (by decide +kernel)
    refine ⟨_, reach, fun owned => ?_⟩
    have mapped := owned.initialised .unset (by decide +kernel)
    exact Bool.false_ne_true mapped

end W2l.Xmit
