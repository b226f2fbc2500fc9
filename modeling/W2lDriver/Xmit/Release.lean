/-
**Every resource of a buffer is released once.**

* `Owned` — the promise: what was acquired was released once and is held nowhere, or is held in one
  place and was not released; and `aml_ipc_buf_a2e_release` was applied only to buffers that are
  mapped.
* `OwnInv` — the invariant between two calls, and inside one with what the call itself holds.
* `Releases` — events that release, and what they release.
* `OwnInv.acquire`, `OwnInv.emit`, `OwnInv.place` — what a call is made of, and the parts of
  `aml_start_xmit` in these terms.
-/

import W2lDriver.Lib.Custody
import W2lDriver.Xmit.Resources

namespace W2l.Xmit

open Cmd (BusType)
open Lib (Custody)
open List (append_nil count_append mem_append mem_singleton)

/-! ### The promise -/

def acquired (log : List Event) : List Resource :=
  log.filterMap fun | .acquired r => some r | _ => none
def released (log : List Event) : List Resource :=
  log.filterMap fun | .released r => some r | _ => none

def AmsduTxhdr.held (sub : AmsduTxhdr) : List Resource :=
  sub.ipcData.mappings ++ [.skb sub.skb]

namespace Frame

/-- What a buffer holds next to the mapping of its descriptor, and all it holds. -/
def core (f : Frame) : List Resource :=
  f.hdrs.flatMap AmsduTxhdr.held ++ f.ipcData.mappings ++ [.swTxhdr f.swTxhdr, .skb f.skb]
def held (f : Frame) : List Resource := f.core ++ f.ipcDesc.mappings

end Frame

def TxHw.held (hw : TxHw) : List Resource :=
  hw.queued.flatMap Frame.held ++ hw.pushed.flatMap Frame.held ++ hw.acks.map fun ack => .skb ack.2

/-- **Each resource is released exactly once**, and no buffer is released that is not mapped. -/
structure Owned (hw : TxHw) : Prop where
  /-- Released once and held nowhere, or held in one place and not released. -/
  once : ∀ r ∈ acquired hw.log, (released hw.log).count r + hw.held.count r = 1
  only : ∀ r ∈ released hw.log, r ∈ acquired hw.log
  initialised : ∀ buf, .bufReleased buf ∈ hw.log → buf.isMapped = true

/-! ### The invariant -/

/-- `ipc_data` of a buffer and of its subframes is mapped on PCIe, and only there. -/
structure Frame.Prepared (busType : BusType) (f : Frame) : Prop where
  ipcData : f.ipcData.isMapped = true ↔ busType = .pcie
  hdrs : ∀ sub ∈ f.hdrs, (sub.ipcData.isMapped = true ↔ busType = .pcie)

/-- The descriptor of a buffer in a queue is not mapped. -/
structure Frame.Queued (busType : BusType) (f : Frame) : Prop extends Frame.Prepared busType f where
  ipcDesc : f.ipcDesc.isMapped = false

/-- The descriptor of a buffer at the firmware is mapped only on PCIe. -/
structure Frame.Pushed (busType : BusType) (f : Frame) : Prop extends Frame.Prepared busType f where
  ipcDesc : busType ≠ .pcie → f.ipcDesc.isMapped = false

/-- **Custody of the resources**; `loose` is what the running call holds. -/
structure OwnInv (hw : TxHw) (loose : List Resource) : Prop where
  custody : Custody (acquired hw.log) (released hw.log) (loose ++ hw.held)
  fresh : ∀ r ∈ acquired hw.log, r.id < hw.next
  initialised : ∀ buf, .bufReleased buf ∈ hw.log → buf.isMapped = true
  queued : ∀ f ∈ hw.queued, f.Queued hw.busType
  pushed : ∀ f ∈ hw.pushed, f.Pushed hw.busType
  active : ∀ f ∈ hw.queued, hw.active f.txq = true

theorem OwnInv.owned {hw : TxHw} (inv : OwnInv hw []) : Owned hw where
  once _ member := inv.custody.once member
  only _ member := inv.custody.mem_of_released member
  initialised := inv.initialised

/-! ### Logs -/

theorem acquired_append (log log' : List Event) :
    acquired (log ++ log') = acquired log ++ acquired log' := List.filterMap_append

theorem released_append (log log' : List Event) :
    released (log ++ log') = released log ++ released log' := List.filterMap_append

theorem IpcBuf.mappings_of_not {buf : IpcBuf} (not : buf.isMapped = false) : buf.mappings = [] := by
  cases buf with
  | unset => rfl
  | null => rfl
  | mapped p => exact absurd not.symm Bool.false_ne_true

/-- **Events that release**: no acquisition, and only buffers that are mapped. -/
structure Releases (events : List Event) (rs : List Resource) : Prop where
  acquired : acquired events = []
  released : (released events).Perm rs
  mapped : ∀ buf, .bufReleased buf ∈ events → buf.isMapped = true

namespace Releases

theorem nil : Releases [] [] := ⟨rfl, .refl _, fun _ member => absurd member List.not_mem_nil⟩

theorem append {events events' : List Event} {rs rs' : List Resource}
    (first : Releases events rs) (second : Releases events' rs') :
    Releases (events ++ events') (rs ++ rs') where
  acquired := by rw [acquired_append, first.acquired, second.acquired, append_nil]
  released := by
    rw [released_append]
    exact first.released.append second.released
  mapped buf member := (mem_append.mp member).elim (first.mapped buf) (second.mapped buf)

theorem one (r : Resource) : Releases [.released r] [r] where
  acquired := rfl
  released := .refl _
  mapped _ member := nomatch mem_singleton.mp member

theorem flatMap {α : Type} {xs : List α} {events : α → List Event} {rs : α → List Resource}
    (each : ∀ x ∈ xs, Releases (events x) (rs x)) : Releases (xs.flatMap events) (xs.flatMap rs) := by
  induction xs with
  | nil => exact nil
  | cons x rest ih =>
    exact (each x List.mem_cons_self).append (ih fun y member => each y (List.mem_cons_of_mem x member))

theorem map {α : Type} (xs : List α) (r : α → Resource) : Releases (xs.map fun x => .released (r x)) (xs.map r) := by
  induction xs with
  | nil => exact nil
  | cons x rest ih => exact (one (r x)).append ih

theorem ipcBuf {buf : IpcBuf} (mapped : buf.isMapped = true) :
    Releases (ipcBufA2eRelease .pcie buf) buf.mappings := by
  cases buf with
  | unset => exact absurd mapped Bool.false_ne_true
  | null => exact absurd mapped Bool.false_ne_true
  | mapped p =>
    refine ⟨rfl, .refl _, fun buf member => ?_⟩
    rcases List.mem_cons.mp member with same | member
    · obtain rfl := Event.bufReleased.inj same
      exact mapped
    · exact nomatch mem_singleton.mp member

theorem fail {busType : BusType} {sub : AmsduTxhdr}
    (mapped : sub.ipcData.isMapped = true ↔ busType = .pcie) :
    Releases (sub.fail busType) sub.held := by
  unfold AmsduTxhdr.fail AmsduTxhdr.held
  split
  case h_1 => exact (Releases.ipcBuf (mapped.mpr rfl)).append (.one _)
  case h_2 other =>
    rw [IpcBuf.mappings_of_not (Bool.eq_false_iff.mpr fun isMapped => other (mapped.mp isMapped))]
    exact .one _

theorem drop {f : Frame} (prepared : f.Prepared .pcie) : Releases (f.drop .pcie) f.core := by
  refine .append (.append (.flatMap fun sub member => ?_) (.ipcBuf (prepared.ipcData.mpr rfl))) ?_
  · exact (ipcBuf ((prepared.hdrs sub member).mpr rfl)).append (one _)
  · exact (one _).append (one _)

end Releases

namespace Frame

variable {busType : BusType} {f : Frame}

section

variable (prepared : f.Prepared busType)

include prepared

theorem Prepared.not_mapped (other : busType ≠ .pcie) :
    f.ipcData.isMapped = false ∧ ∀ sub ∈ f.hdrs, sub.ipcData.isMapped = false :=
  ⟨Bool.eq_false_iff.mpr fun mapped => other (prepared.ipcData.mp mapped),
    fun sub member => Bool.eq_false_iff.mpr fun mapped => other ((prepared.hdrs sub member).mp mapped)⟩

theorem Prepared.core_eq (other : busType ≠ .pcie) :
    f.core = f.hdrs.map (fun sub => .skb sub.skb) ++ [.swTxhdr f.swTxhdr, .skb f.skb] := by
  obtain ⟨ipcData, hdrs⟩ := prepared.not_mapped other
  have subs : f.hdrs.flatMap AmsduTxhdr.held = f.hdrs.map fun sub => .skb sub.skb := by
    rw [← List.flatMap_pure_eq_map]
    refine List.flatMap_congr fun sub member => ?_
    unfold AmsduTxhdr.held
    rw [IpcBuf.mappings_of_not (hdrs sub member)]
    rfl
  unfold core
  rw [subs, IpcBuf.mappings_of_not ipcData, append_nil]

theorem Prepared.confirm : Releases (f.confirm busType) f.core := by
  by_cases pcie : busType = .pcie
  · subst pcie
    exact .drop prepared
  · rw [prepared.core_eq pcie]
    have shape : f.confirm busType = f.hdrs.map (fun sub => Event.released (.skb sub.skb)) ++
        [.released (.swTxhdr f.swTxhdr), .released (.skb f.skb)] := by
      unfold Frame.confirm
      split
      · exact absurd rfl pcie
      · rfl
    rw [shape]
    exact (Releases.map _ _).append ((Releases.one _).append (.one _))

end

end Frame

/-! ### The primitives -/

namespace OwnInv

variable {hw : TxHw} {loose loose' : List Resource}

section

variable (inv : OwnInv hw loose)

include inv

theorem perm (same : loose.Perm loose') : OwnInv hw loose' :=
  { inv with custody := inv.custody.moved (same.append_right _) }

theorem acquire {make : Nat → Resource} (named : ∀ p, (make p).id = p) :
    OwnInv (hw.acquire make).1 (make hw.next :: loose) := by
  have log : acquired (hw.log ++ [.acquired (make hw.next)]) = acquired hw.log ++ [make hw.next] :=
    acquired_append _ _
  have releases : released (hw.log ++ [.acquired (make hw.next)]) = released hw.log := by
    rw [released_append]
    exact append_nil _
  refine { inv with custody := ?_, fresh := fun r member => ?_, initialised := fun buf member => ?_ }
  · show Custody (acquired (hw.log ++ _)) (released (hw.log ++ _)) _
    rw [log, releases]
    refine inv.custody.acquire fun old => ?_
    have below := inv.fresh _ old
    rw [named] at below
    exact Nat.lt_irrefl _ below
  · replace member : r ∈ acquired (hw.log ++ [.acquired (make hw.next)]) := member
    rw [log] at member
    rcases mem_append.mp member with old | new
    · exact Nat.lt_succ_of_lt (inv.fresh r old)
    · rw [mem_singleton.mp new, named]
      exact Nat.lt_succ_self _
  · rcases mem_append.mp member with old | new
    · exact inv.initialised buf old
    · exact nomatch mem_singleton.mp new

theorem emit {events : List Event} {rs : List Resource}
    (releases : Releases events rs) (owned : loose.Perm (rs ++ loose')) :
    OwnInv (hw.emit events) loose' := by
  have log : acquired (hw.log ++ events) = acquired hw.log := by
    rw [acquired_append, releases.acquired, append_nil]
  refine { inv with custody := ?_, fresh := fun r member => ?_, initialised := fun buf member => ?_ }
  · show Custody (acquired (hw.log ++ events)) (released (hw.log ++ events)) (loose' ++ hw.held)
    rw [log, released_append]
    refine Custody.releaseAll (inv.custody.moved ?_)
    rw [← List.append_assoc]
    exact (owned.trans (releases.released.symm.append_right _)).append_right _
  · replace member : r ∈ acquired (hw.log ++ events) := member
    rw [log] at member
    exact inv.fresh r member
  · exact (mem_append.mp member).elim (inv.initialised buf) (releases.mapped buf)

theorem place {hw' : TxHw} (log : hw'.log = hw.log)
    (next : hw'.next = hw.next)
    (counts : ∀ r, loose.count r + hw.held.count r = loose'.count r + hw'.held.count r)
    (queued : ∀ f ∈ hw'.queued, f.Queued hw'.busType)
    (pushed : ∀ f ∈ hw'.pushed, f.Pushed hw'.busType)
    (active : ∀ f ∈ hw'.queued, hw'.active f.txq = true) : OwnInv hw' loose' where
  custody := by
    rw [log]
    refine inv.custody.moved (List.perm_iff_count.mpr fun r => ?_)
    rw [count_append, count_append]
    exact counts r
  fresh := by
    rw [log, next]
    exact inv.fresh
  initialised := by
    rw [log]
    exact inv.initialised
  queued := queued
  pushed := pushed
  active := active

end

end OwnInv

theorem TxHw.held_count (hw : TxHw) (r : Resource) :
    hw.held.count r = (hw.queued.flatMap Frame.held).count r + (hw.pushed.flatMap Frame.held).count r +
      (hw.acks.map fun ack => Resource.skb ack.2).count r := by
  unfold TxHw.held
  rw [count_append, count_append]

theorem count_eraseIdx {fs : List Frame} {k : Nat} {f : Frame} (found : fs[k]? = some f)
    (r : Resource) : (fs.flatMap Frame.held).count r =
      f.held.count r + ((fs.eraseIdx k).flatMap Frame.held).count r := by
  obtain ⟨bound, rfl⟩ := List.getElem?_eq_some_iff.mp found
  have perm := ((List.getElem_cons_eraseIdx_perm bound).flatMap_right Frame.held).count_eq r
  rw [List.flatMap_cons, count_append] at perm
  exact perm.symm

theorem count_set {fs : List Frame} {k : Nat} {f : Frame} (found : fs[k]? = some f) (f' : Frame)
    (r : Resource) : ((fs.set k f').flatMap Frame.held).count r =
      f'.held.count r + ((fs.eraseIdx k).flatMap Frame.held).count r := by
  obtain ⟨bound, _⟩ := List.getElem?_eq_some_iff.mp found
  have perm := ((List.set_perm_cons_eraseIdx bound f').flatMap_right Frame.held).count_eq r
  rw [List.flatMap_cons, count_append] at perm
  exact perm

theorem count_filter {α : Type} (xs : List α) (p : α → Bool) (g : α → List Resource)
    (r : Resource) : (xs.flatMap g).count r =
      ((xs.filter p).flatMap g).count r + ((xs.filter fun x => !p x).flatMap g).count r := by
  have perm := ((List.filter_append_perm p xs).flatMap_right g).count_eq r
  rw [List.flatMap_append, count_append] at perm
  exact perm.symm

theorem Frame.Queued.core_held {busType : BusType} {f : Frame} (queued : f.Queued busType) : f.held = f.core := by
  unfold Frame.held
  rw [IpcBuf.mappings_of_not queued.ipcDesc, append_nil]

/-! ### A buffer is queued -/

namespace OwnInv

variable {hw : TxHw} {loose : List Resource}

/-- A mapping is made, or the buffer is `NULL`. -/
theorem ipcBufA2eInit (inv : OwnInv hw loose) (ok : Bool) :
    OwnInv (hw.ipcBufA2eInit ok).1 ((hw.ipcBufA2eInit ok).2.mappings ++ loose) ∧
      (hw.ipcBufA2eInit ok).2.isMapped = ok := by
  cases ok with
  | false => exact ⟨inv, rfl⟩
  | true => exact ⟨inv.acquire fun _ => rfl, rfl⟩

theorem giveUp {swTxhdr skb : Nat} (inv : OwnInv hw (.swTxhdr swTxhdr :: .skb skb :: loose)) :
    OwnInv (hw.emit [.released (.swTxhdr swTxhdr), .released (.skb skb)]) loose :=
  inv.emit ((Releases.one _).append (.one _)) (.refl _)

theorem freeSkb {skb : Nat} (inv : OwnInv hw (.skb skb :: loose)) :
    OwnInv (hw.emit [.released (.skb skb)]) loose := inv.emit (.one _) (.refl _)

theorem enqueue {f : Frame} (inv : OwnInv hw (f.held ++ loose)) (ready : f.Queued hw.busType)
    (active : hw.active f.txq = true) : OwnInv { hw with queued := hw.queued ++ [f] } loose := by
  refine inv.place rfl rfl (fun r => ?_) (fun f' member => ?_) inv.pushed fun f' member => ?_
  · simp only [TxHw.held_count, List.flatMap_append, List.flatMap_singleton, count_append]
    omega
  · rcases mem_append.mp member with old | new
    · exact inv.queued f' old
    · exact mem_singleton.mp new ▸ ready
  · rcases mem_append.mp member with old | new
    · exact inv.active f' old
    · exact mem_singleton.mp new ▸ active

theorem prepAndQueue {t skb swTxhdr : Nat} {blank : IpcBuf} {map : Bool} (mgmt : Bool)
    (inv : OwnInv hw (.swTxhdr swTxhdr :: .skb skb :: loose)) (clear : blank.isMapped = false)
    (careful : hw.busType = .pcie → map = true → hw.active t = true) :
    OwnInv (hw.prepAndQueue t skb swTxhdr mgmt blank map) loose := by
  have descriptor := IpcBuf.mappings_of_not clear
  unfold TxHw.prepAndQueue
  by_cases pcie : hw.busType = .pcie
  · have prepared : hw.prepDmaTx blank map = ((hw.ipcBufA2eInit map).1, (hw.ipcBufA2eInit map).2, map) := by
      unfold TxHw.prepDmaTx
      rw [pcie]
    obtain ⟨mapped, isMapped⟩ := inv.ipcBufA2eInit map
    rw [prepared]
    dsimp only
    cases map with
    | false => exact OwnInv.giveUp mapped
    | true =>
      have active : (hw.ipcBufA2eInit true).1.active t = true := careful pcie rfl
      rw [if_neg (by simp), if_neg (by simp [active])]
      refine OwnInv.enqueue (mapped.perm ?_) ⟨⟨⟨fun _ => pcie, fun _ => isMapped⟩, ?_⟩, clear⟩ active
      · show List.Perm _ (_ ++ blank.mappings ++ loose)
        rw [descriptor, append_nil]
        unfold Frame.core
        rw [List.flatMap_nil, List.nil_append, List.append_assoc]
        exact .refl _
      · exact fun _ member => absurd member List.not_mem_nil
  · have prepared : hw.prepDmaTx blank map = (hw, blank, true) := by
      unfold TxHw.prepDmaTx
      split
      · exact absurd ‹_› pcie
      · rfl
    rw [prepared]
    dsimp only
    rw [if_neg (by simp)]
    split
    case isTrue => exact inv.giveUp
    case isFalse active =>
      have ready : ∀ f : Frame, f.ipcData = blank → f.hdrs = [] → f.ipcDesc = blank →
          f.Queued hw.busType := fun f data subs desc =>
        ⟨⟨⟨fun mapped => absurd (data ▸ mapped) (by simp [clear]), fun isPcie => absurd isPcie pcie⟩,
          fun sub member => absurd (subs ▸ member) List.not_mem_nil⟩, desc ▸ clear⟩
      refine OwnInv.enqueue (inv.perm ?_) (ready _ rfl rfl rfl) (Bool.of_not_eq_false active)
      show List.Perm _ (_ ++ blank.mappings ++ loose)
      unfold Frame.core
      rw [List.flatMap_nil, List.nil_append, descriptor, append_nil]
      exact .refl _

/-! ### TCP acks -/

theorem dropAck (inv : OwnInv hw loose) (i : Nat) : OwnInv (hw.dropAck i) loose := by
  have split : ∀ r, (hw.acks.map fun ack => Resource.skb ack.2).count r =
      ((hw.acks.filter (·.1 = i)).map fun ack => Resource.skb ack.2).count r +
        ((hw.acks.filter (·.1 ≠ i)).map fun ack => Resource.skb ack.2).count r := fun r => by
    have parts := count_filter hw.acks (·.1 = i) (fun ack => [Resource.skb ack.2]) r
    simpa [← List.map_eq_flatMap] using parts
  have held : OwnInv { hw with acks := hw.acks.filter (·.1 ≠ i) }
      ((hw.acks.filter (·.1 = i)).map (fun ack => .skb ack.2) ++ loose) := by
    refine inv.place rfl rfl (fun r => ?_) inv.queued inv.pushed inv.active
    simp only [TxHw.held_count, count_append, split r]
    omega
  exact held.emit (.map _ _) (.refl _)

theorem filterTxTcpAck {skb : Nat} (inv : OwnInv hw (.skb skb :: loose)) (verdict : AckVerdict) :
    OwnInv (hw.filterTxTcpAck skb verdict).1
      (if (hw.filterTxTcpAck skb verdict).2 then loose else .skb skb :: loose) := by
  cases verdict with
  | pass => exact inv
  | replace i => exact inv.dropAck i
  | hold i =>
    refine (inv.dropAck i).place rfl rfl (fun r => ?_) (inv.dropAck i).queued (inv.dropAck i).pushed
      (inv.dropAck i).active
    simp only [TxHw.held_count, TxHw.filterTxTcpAck, if_true, List.map_cons, List.count_cons]
    omega
  | drop => exact inv.freeSkb

/-! ### Subframes -/

theorem held_addSubframe (main : Frame) (sub : AmsduTxhdr) (r : Resource) :
    ({ main with hdrs := main.hdrs ++ [sub] } : Frame).held.count r = main.held.count r + sub.held.count r := by
  unfold Frame.held Frame.core
  simp only [List.flatMap_append, List.flatMap_singleton, count_append]
  omega

theorem linkSubframe {k : Nat} {main : Frame} (sub : AmsduTxhdr)
    (inv : OwnInv hw (sub.held ++ loose))
    (found : hw.queued[k]? = some main)
    (mapped : sub.ipcData.isMapped = true ↔ hw.busType = .pcie) :
    OwnInv { hw with queued := hw.queued.set k { main with hdrs := main.hdrs ++ [sub] } } loose := by
  have inside : main ∈ hw.queued := List.mem_of_getElem? found
  refine inv.place rfl rfl (fun r => ?_) (fun f member => ?_) inv.pushed fun f member => ?_
  · have before := count_eraseIdx found r
    simp only [TxHw.held_count, count_set found, held_addSubframe, count_append, before]
    omega
  · rcases List.mem_or_eq_of_mem_set member with old | rfl
    · exact inv.queued f old
    · have ready := inv.queued main inside
      refine ⟨⟨ready.ipcData, fun sub' member => ?_⟩, ready.ipcDesc⟩
      rcases mem_append.mp member with old | new
      · exact ready.hdrs sub' old
      · exact mem_singleton.mp new ▸ mapped
  · rcases List.mem_or_eq_of_mem_set member with old | rfl
    · exact inv.active f old
    · exact inv.active main inside

theorem amsduAddSubframe_cases (hw : TxHw) (t skb : Nat) (choice : Option (Nat × Bool)) :
    hw.amsduAddSubframe t skb choice = (hw, false) ∨ ∃ k main, hw.queued[k]? = some main ∧
        ((hw.busType = .pcie ∧ hw.amsduAddSubframe t skb choice =
          ({ (hw.ipcBufA2eInit true).1 with
              queued := hw.queued.set k { main with
                hdrs := main.hdrs ++ [{ skb := skb, ipcData := (hw.ipcBufA2eInit true).2 }] } }, true)) ∨
        (hw.busType ≠ .pcie ∧ hw.amsduAddSubframe t skb choice =
          ({ hw with
              queued := hw.queued.set k { main with
                hdrs := main.hdrs ++ [{ skb := skb, ipcData := .unset }] } }, true))) := by
  rcases choice with _ | ⟨k, map⟩
  · exact .inl rfl
  · cases found : hw.queued[k]? with
    | none => exact .inl (by simp only [TxHw.amsduAddSubframe, found])
    | some main =>
      by_cases own : main.txq = t
      · by_cases pcie : hw.busType = .pcie
        · cases map with
          | false =>
            refine .inl ?_
            simp only [TxHw.amsduAddSubframe, found, if_pos own, pcie]
            rfl
          | true =>
            refine .inr ⟨k, main, found, .inl ⟨pcie, ?_⟩⟩
            simp only [TxHw.amsduAddSubframe, found, if_pos own, pcie]
            rfl
        · refine .inr ⟨k, main, found, .inr ⟨pcie, ?_⟩⟩
          simp only [TxHw.amsduAddSubframe, found, if_pos own]
      · exact .inl (by simp only [TxHw.amsduAddSubframe, found, if_neg own])

theorem amsduAddSubframe {skb : Nat} (inv : OwnInv hw (.skb skb :: loose)) (t : Nat)
    (choice : Option (Nat × Bool)) :
    OwnInv (hw.amsduAddSubframe t skb choice).1
      (if (hw.amsduAddSubframe t skb choice).2 then loose else .skb skb :: loose) := by
  rcases amsduAddSubframe_cases hw t skb choice with same | ⟨k, main, found, added | added⟩
  · rw [same]
    exact inv
  · obtain ⟨pcie, linked⟩ := added
    obtain ⟨mapped, isMapped⟩ := inv.ipcBufA2eInit true
    rw [linked]
    exact OwnInv.linkSubframe { skb := skb, ipcData := (hw.ipcBufA2eInit true).2 } mapped
      found ⟨fun _ => pcie, fun _ => isMapped⟩
  · obtain ⟨other, linked⟩ := added
    rw [linked]
    exact OwnInv.linkSubframe { skb := skb, ipcData := .unset } inv found
      ⟨fun mapped => absurd mapped Bool.false_ne_true, fun pcie => absurd pcie other⟩

end OwnInv

theorem filterTxTcpAck_active (hw : TxHw) (skb : Nat) (verdict : AckVerdict) :
    (hw.filterTxTcpAck skb verdict).1.active = hw.active ∧
      (hw.filterTxTcpAck skb verdict).1.busType = hw.busType := by
  cases verdict <;> exact ⟨rfl, rfl⟩

theorem amsduAddSubframe_active (hw : TxHw) (t skb : Nat) (choice : Option (Nat × Bool)) :
    (hw.amsduAddSubframe t skb choice).1.active = hw.active ∧
      (hw.amsduAddSubframe t skb choice).1.busType = hw.busType := by
  rcases OwnInv.amsduAddSubframe_cases hw t skb choice with same | ⟨k, main, _, added | added⟩
  · rw [same]
    exact ⟨rfl, rfl⟩
  · rw [added.2]
    exact ⟨rfl, rfl⟩
  · rw [added.2]
    exact ⟨rfl, rfl⟩

end W2l.Xmit
