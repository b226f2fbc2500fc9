/-
**The shared beacon buffers: every history of guarded steps.**

* `HoldsBufs` — **what is allocated is pointed to**, and how the operations keep it: `HoldsBufs.openBuf`,
  `HoldsBufs.fill`, `HoldsBufs.deinit`, `HoldsBufs.init`.
* `SccInv` — the invariant; `SccInv.congr` — steps that leave the buffers alone.
* `SccInv.changeHtIe`, `SccInv.syncBcn`, `SccInv.channelSwitch`, `SccInv.stopAp` — the other steps.
-/

import W2lDriver.Scc.Shared

namespace W2l.Scc

open Lib
open Chsw (Bus)
open Option (ite_none_right_eq_some mem_toList some_ne_none)
open List (mem_cons not_mem_nil)

/-! ### Two pointers -/

/-- **What is allocated is pointed to**, by one of two pointers. -/
structure HoldsBufs (h : Heap Frmbuf) (p q : Option ℕ) : Prop where
  owns : ∃ owned, h.Owns owned ∧ ∀ i ∈ owned, p = some i ∨ q = some i
  below : ∀ i, p = some i ∨ q = some i → i < h.next
  apart : ∀ i, p = some i → q ≠ some i

namespace HoldsBufs

variable {h h' : Heap Frmbuf} {p q : Option ℕ} {i : ℕ}

theorem empty : HoldsBufs {} none none where
  owns := ⟨[], Heap.Owns.empty, fun _ member => absurd member not_mem_nil⟩
  below := fun _ some => some.elim (nomatch ·) (nomatch ·)
  apart := fun _ some => nomatch some

section

variable (held : HoldsBufs h p q)

include held

theorem symm : HoldsBufs h q p where
  owns := by
    obtain ⟨owned, owns, pointed⟩ := held.owns
    exact ⟨owned, owns, fun i member => (pointed i member).symm⟩
  below := fun i some => held.below i some.symm
  apart := fun i some some' => held.apart i some' some

theorem once (i : ℕ) : h.frees i ≤ 1 := by
  obtain ⟨_, owns, _⟩ := held.owns
  exact owns.once i

theorem clean : h.misused = [] := by
  obtain ⟨_, owns, _⟩ := held.owns
  exact owns.clean

theorem pointed (live : h.Live i) : p = some i ∨ q = some i := by
  obtain ⟨_, owns, pointed⟩ := held.owns
  exact pointed i ((owns.live i).mpr live)

theorem openBuf (usable : Usable h p) {memory : Option Frmbuf}
    (opened : openBuf h p memory = some (h', i)) : HoldsBufs h' (some i) q ∧ h'.Live i := by
  obtain ⟨owned, owns, pointed⟩ := held.owns
  cases p with
  | some j =>
    obtain ⟨rfl, rfl⟩ := Prod.mk.inj (Option.some.inj opened)
    have live : h.Live j := usable
    rw [Heap.use_of_live live]
    exact ⟨held, live⟩
  | none =>
    cases memory with
    | none => exact nomatch opened
    | some fresh =>
      obtain ⟨rfl, rfl⟩ := Prod.mk.inj (Option.some.inj opened)
      refine ⟨⟨⟨h.next :: owned, owns.alloc fresh, fun i member => ?_⟩, fun i some => ?_, fun i some some' => ?_⟩, ?_⟩
      · rcases mem_cons.mp member with rfl | member
        · exact .inl rfl
        · exact .inr ((pointed i member).resolve_left (nomatch ·))
      · rcases some with here | there
        · obtain rfl := Option.some.inj here
          exact Nat.lt_succ_self _
        · exact Nat.lt_succ_of_lt (held.below i (.inr there))
      · obtain rfl := Option.some.inj some
        exact absurd (held.below _ (.inr some')) (Nat.lt_irrefl _)
      · exact ((owns.alloc fresh).live _).mp List.mem_cons_self

theorem fill (live : h.Live i) (b : Option Frmbuf) : HoldsBufs (fill h i b) p q := by
  obtain ⟨owned, owns, pointed⟩ := held.owns
  have member := (owns.live i).mpr live
  have next : (Scc.fill h i b).next = h.next := by
    show (h.use i).next = h.next
    rw [Heap.use_of_live live]
  refine ⟨⟨owned, owns.modify member _, pointed⟩, fun j some => ?_, held.apart⟩
  rw [next]
  exact held.below j some

end

theorem next_freeBuf (h : Heap Frmbuf) (p : Option ℕ) : (freeBuf h p).next = h.next := by
  cases p <;> rfl

theorem deinit (held : HoldsBufs h p q) (usable : Usable h p) (usable' : Usable h q) :
    HoldsBufs (freeBuf (freeBuf h p) q) p q ∧
      ∀ i, i < (freeBuf (freeBuf h p) q).next → (freeBuf (freeBuf h p) q).frees i = 1 := by
  obtain ⟨owned, owns, pointed⟩ := held.owns
  have all : owned.Perm (p.toList ++ q.toList) := by
    rw [List.perm_ext_iff_of_nodup owns.nodup]
    · intro i
      rw [List.mem_append, mem_toList, mem_toList]
      refine ⟨fun member => pointed i member, fun some => (owns.live i).mpr ?_⟩
      rcases some with rfl | rfl
      · exact usable
      · exact usable'
    · rw [List.nodup_append]
      refine ⟨p.toList_nodup, q.toList_nodup, fun i member j member' same => ?_⟩
      rw [mem_toList] at member member'
      subst same
      exact held.apart i member member'
  have none : (freeBuf (freeBuf h p) q).Owns [] := by
    have owns' := owns.perm all
    cases p with
    | none =>
      cases q with
      | none => exact owns'
      | some j => exact Heap.Owns.free owns'
    | some i =>
      have first : (h.free i).Owns q.toList := Heap.Owns.free owns'
      cases q with
      | none => exact first
      | some j => exact Heap.Owns.free first
  refine ⟨⟨⟨[], none, fun _ member => absurd member not_mem_nil⟩, fun i some => ?_, held.apart⟩,
    fun i inside => none.freed inside not_mem_nil⟩
  rw [next_freeBuf, next_freeBuf]
  exact held.below i some

theorem init (held : HoldsBufs h p q) (freed : Forgettable h p) (freed' : Forgettable h q) : HoldsBufs h none none := by
  obtain ⟨owned, owns, pointed⟩ := held.owns
  have none : owned = [] := by
    refine List.eq_nil_iff_forall_not_mem.mpr fun i member => ?_
    have live := (owns.live i).mp member
    rcases pointed i member with rfl | rfl
    · exact freed live
    · exact freed' live
  subst none
  exact ⟨⟨[], owns, fun _ member => absurd member not_mem_nil⟩, fun _ some => some.elim (nomatch ·) (nomatch ·),
    fun _ some => nomatch some⟩

end HoldsBufs

/-! ### The invariant -/

/-- **The invariant.** -/
structure SccInv (s : SccHw) : Prop where
  bufs : HoldsBufs s.heap s.sccBcnBuf s.sccCsaBcn
  sent : ∀ x ∈ s.sent, SentRight x
  inside : s.overruns = 0
  returns : ∀ r ∈ s.returns, r.mapped = false ∧ (r.csa = true → r.started = true)
  /-- When no AP is started no sync is due, and everything was freed. -/
  idle : (∀ v, (s.vifs v).started = false) → s.needUpdate = .idle ∧ ∀ i, i < s.heap.next → s.heap.frees i = 1
  csa : ∀ v, (s.vifs v).csa ≠ none → (s.vifs v).started = true
  waiting : ∀ v, (s.vifs v).starting = true → (s.vifs v).started = false

/-- What the invariant reads, apart from the interfaces, did not change. -/
structure Untouched (s s' : SccHw) : Prop where
  heap : s'.heap = s.heap
  sccBcnBuf : s'.sccBcnBuf = s.sccBcnBuf
  sccCsaBcn : s'.sccCsaBcn = s.sccCsaBcn
  sent : s'.sent = s.sent
  overruns : s'.overruns = s.overruns
  returns : s'.returns = s.returns

namespace SccInv

variable {s s' : SccHw} {v : ℕ} {memory : Option Frmbuf} {t : Chandef} {bus : Bus} {toChannel : BitVec 32 → Byte}

theorem safe (inv : SccInv s) : SccSafe s where
  sent := inv.sent
  inside := inv.inside
  once := inv.bufs.once
  unused := inv.bufs.clean
  held := fun _ live => inv.bufs.pointed live
  freed := fun none => (inv.idle none).2
  returns := inv.returns

theorem congr (inv : SccInv s) (same : Untouched s s')
    (idle : (∀ v, (s'.vifs v).started = false) → (∀ v, (s.vifs v).started = false) ∧
      (s.needUpdate = .idle → s'.needUpdate = .idle))
    (csa : ∀ v, (s'.vifs v).csa ≠ none → (s'.vifs v).started = true)
    (waiting : ∀ v, (s'.vifs v).starting = true → (s'.vifs v).started = false) : SccInv s' where
  bufs := by
    rw [same.heap, same.sccBcnBuf, same.sccCsaBcn]
    exact inv.bufs
  sent := by
    rw [same.sent]
    exact inv.sent
  inside := same.overruns.trans inv.inside
  returns := by
    rw [same.returns]
    exact inv.returns
  idle := fun none => by
    obtain ⟨before, need⟩ := idle none
    rw [same.heap]
    exact ⟨need (inv.idle before).1, (inv.idle before).2⟩
  csa := csa
  waiting := waiting

end SccInv

/-! ### Interfaces -/

section Interfaces

variable {s : SccHw} {v : ℕ} {f : ApVif → ApVif}

theorem setVif_read {β : Type} (g : ApVif → β) (keeps : ∀ vif, g (f vif) = g vif) (w : ℕ) :
    g ((s.setVif v f).vifs w) = g (s.vifs w) := by
  show g (Function.update s.vifs v (f (s.vifs v)) w) = _
  by_cases here : w = v
  · subst here
    rw [Function.update_self, keeps]
  · rw [Function.update_of_ne here]

theorem setVif_self : (s.setVif v f).vifs v = f (s.vifs v) := Function.update_self ..

theorem setVif_other {w : ℕ} (other : w ≠ v) : (s.setVif v f).vifs w = s.vifs w := Function.update_of_ne other ..

theorem saveBcnBuf_untouched {b : List Byte} (fits : b.length ≤ frmbufMaxlen) :
    Untouched s (s.saveBcnBuf b) ∧ (s.saveBcnBuf b).vifs = s.vifs ∧ (s.saveBcnBuf b).needUpdate = s.needUpdate := by
  obtain ⟨save, stored⟩ := Frmbuf.store_isSome (b := s.bcnSave) fits
  unfold SccHw.saveBcnBuf
  rw [stored]
  exact ⟨⟨rfl, rfl, rfl, rfl, rfl, rfl⟩, rfl, rfl⟩

theorem build_untouched {b : Build} (fits : b.Fits) : Untouched s (s.build v b) ∧
    (s.build v b).needUpdate = s.needUpdate ∧ ∀ w, ((s.build v b).vifs w).started = (s.vifs w).started ∧
      ((s.build v b).vifs w).csa = (s.vifs w).csa ∧ ((s.build v b).vifs w).starting = (s.vifs w).starting := by
  have read (f : ApVif → ApVif) (started : ∀ vif, (f vif).started = vif.started) (csa : ∀ vif, (f vif).csa = vif.csa)
      (starting : ∀ vif, (f vif).starting = vif.starting) (w : ℕ) :
      ((s.setVif v f).vifs w).started = (s.vifs w).started ∧ ((s.setVif v f).vifs w).csa = (s.vifs w).csa ∧
        ((s.setVif v f).vifs w).starting = (s.vifs w).starting :=
    ⟨setVif_read ApVif.started started w, setVif_read ApVif.csa csa w, setVif_read ApVif.starting starting w⟩
  cases b with
  | failed => exact ⟨⟨rfl, rfl, rfl, rfl, rfl, rfl⟩, rfl, fun _ => ⟨rfl, rfl, rfl⟩⟩
  | noBuf len =>
    exact ⟨⟨rfl, rfl, rfl, rfl, rfl, rfl⟩, rfl,
      read (fun vif => { vif with bcnLen := len }) (fun _ => rfl) (fun _ => rfl) fun _ => rfl⟩
  | built b =>
    have saved := saveBcnBuf_untouched (s := s.setVif v fun vif => { vif with bcnLen := b.size, own := some b }) fits
    refine ⟨⟨saved.1.heap, saved.1.sccBcnBuf, saved.1.sccCsaBcn, saved.1.sent, saved.1.overruns, saved.1.returns⟩,
      saved.2.2, fun w => ?_⟩
    show (((s.setVif v _).saveBcnBuf b.bytes).vifs w).started = _ ∧
      (((s.setVif v _).saveBcnBuf b.bytes).vifs w).csa = _ ∧
      (((s.setVif v _).saveBcnBuf b.bytes).vifs w).starting = _
    rw [saved.2.1]
    exact read (fun vif => { vif with bcnLen := b.size, own := some b }) (fun _ => rfl) (fun _ => rfl) (fun _ => rfl) w

end Interfaces

/-! ### Steps -/

namespace SccInv

variable {s s' : SccHw} {v : ℕ} {memory : Option Frmbuf} {t : Chandef} {bus : Bus} {toChannel : BitVec 32 → Byte}

theorem startAp (inv : SccInv s) (idle : (s.vifs v).started = false) {isAp : Bool} {b : Build} (fits : b.Fits) :
    SccInv (s.startAp v isAp b) := by
  obtain ⟨same, need, vifs⟩ := build_untouched (s := s.setVif v fun vif => { vif with isAp, starting := b.isBuilt })
    (v := v) fits
  have started (w : ℕ) : ((s.startAp v isAp b).vifs w).started = (s.vifs w).started :=
    (vifs w).1.trans (setVif_read ApVif.started (by intro; rfl) w)
  have csa (w : ℕ) : ((s.startAp v isAp b).vifs w).csa = (s.vifs w).csa :=
    (vifs w).2.1.trans (setVif_read ApVif.csa (by intro; rfl) w)
  refine inv.congr ⟨same.heap, same.sccBcnBuf, same.sccCsaBcn, same.sent, same.overruns, same.returns⟩
    (fun none => ⟨fun w => (started w).symm.trans (none w), fun _ => need.trans ‹_›⟩) (fun w some => ?_)
    fun w starting => ?_
  · rw [started w]
    rw [csa w] at some
    exact inv.csa w some
  · rw [started w]
    by_cases here : w = v
    · subst here
      exact idle
    · refine inv.waiting w (Eq.trans ?_ ((vifs w).2.2.symm.trans starting))
      rw [setVif_other here]

theorem vifs_startEnd (ok : Bool) : (s.startEnd v ok).vifs =
    (s.setVif v fun vif => { vif with starting := false, started := ok }).vifs := by
  cases ok <;> rfl

theorem startEnd (inv : SccInv s) (starting : (s.vifs v).starting = true) {ok : Bool}
    (forget : ok = true → Forgettable s.heap s.sccBcnBuf ∧ Forgettable s.heap s.sccCsaBcn) :
    SccInv (s.startEnd v ok) := by
  have waiting (w : ℕ) (here : ((s.setVif v fun vif => { vif with starting := false, started := ok }).vifs w).starting =
      true) : ((s.setVif v fun vif => { vif with starting := false, started := ok }).vifs w).started = false := by
    by_cases same : w = v
    · subst same
      rw [setVif_self] at here
      exact nomatch here
    · rw [setVif_other same] at here ⊢
      exact inv.waiting w here
  have csa (w : ℕ) (some : ((s.setVif v fun vif => { vif with starting := false, started := ok }).vifs w).csa ≠ none) :
      ((s.setVif v fun vif => { vif with starting := false, started := ok }).vifs w).started = true := by
    rw [setVif_read ApVif.csa (by intro; rfl)] at some
    have before := inv.csa w some
    by_cases same : w = v
    · subst same
      exact absurd before (by rw [inv.waiting w starting]; decide)
    · rw [setVif_other same]
      exact before
  cases ok with
  | false =>
    refine inv.congr ⟨rfl, rfl, rfl, rfl, rfl, rfl⟩ (fun none => ⟨fun w => ?_, id⟩) csa waiting
    by_cases same : w = v
    · subst same
      exact inv.waiting w starting
    · have off := none w
      rw [vifs_startEnd, setVif_other same] at off
      exact off
  | true =>
    obtain ⟨freed, freed'⟩ := forget rfl
    refine { bufs := inv.bufs.init freed freed', sent := inv.sent, inside := inv.inside, returns := inv.returns,
             idle := fun none => ?_, csa := csa, waiting := waiting }
    have off := none v
    rw [vifs_startEnd, setVif_self] at off
    exact nomatch off

theorem changeBeacon (inv : SccInv s) {b : Build} {ok : Bool} (fits : b.Fits) : SccInv (s.changeBeacon v b ok) := by
  obtain ⟨same, need, vifs⟩ := build_untouched (s := s) (v := v) fits
  have csa (w : ℕ) (some : ((s.build v b).vifs w).csa ≠ none) : ((s.build v b).vifs w).started = true := by
    rw [(vifs w).1]
    rw [(vifs w).2.1] at some
    exact inv.csa w some
  have waiting (w : ℕ) (starting : ((s.build v b).vifs w).starting = true) :
      ((s.build v b).vifs w).started = false := by
    rw [(vifs w).1]
    rw [(vifs w).2.2] at starting
    exact inv.waiting w starting
  unfold SccHw.changeBeacon
  dsimp only
  split
  case isTrue =>
    exact inv.congr ⟨same.heap, same.sccBcnBuf, same.sccCsaBcn, same.sent, same.overruns, same.returns⟩
      (fun none => ⟨fun w => (vifs w).1.symm.trans (none w), fun _ => rfl⟩) csa waiting
  case isFalse =>
    exact inv.congr same (fun none => ⟨fun w => (vifs w).1.symm.trans (none w), need.trans⟩) csa waiting

theorem of_started (inv : SccInv s) (bufs : HoldsBufs s'.heap s'.sccBcnBuf s'.sccCsaBcn)
    (started : ∃ v, (s.vifs v).started = true) (sent : ∀ x ∈ s'.sent, SentRight x) (inside : s'.overruns = 0)
    (returns : ∀ r ∈ s'.returns, r.mapped = false ∧ (r.csa = true → r.started = true))
    (same : ∀ w, (s'.vifs w).started = (s.vifs w).started ∧ (s'.vifs w).starting = (s.vifs w).starting)
    (csa : ∀ w, (s'.vifs w).csa ≠ none → (s.vifs w).started = true) : SccInv s' where
  bufs := bufs
  sent := sent
  inside := inside
  returns := returns
  idle := fun none => by
    obtain ⟨v, started⟩ := started
    exact nomatch ((same v).1.trans started).symm.trans (none v)
  csa := fun w some => (same w).1.trans (csa w some)
  waiting := fun w starting => (same w).1.trans (inv.waiting w ((same w).2.symm.trans starting))

theorem openBuf_some {h : Heap Frmbuf} {p : Option ℕ} {opened : Heap Frmbuf × ℕ}
    (some : openBuf h p memory = some opened) : p ≠ none ∨ memory ≠ none := by
  cases p with
  | some i => exact .inl (some_ne_none i)
  | none =>
    cases memory with
    | some fresh => exact .inr (some_ne_none fresh)
    | none => exact nomatch some

theorem changeHtIe (inv : SccInv s) (started : (s.vifs v).started = true) (guarded : s.HtIeGuard v memory)
    (changed : s.changeHtIe v t memory = some s') : SccInv s' ∧
      ∀ w, (s'.vifs w).started = (s.vifs w).started ∧ (s'.vifs w).starting = (s.vifs w).starting ∧
        (s'.vifs w).csa = (s.vifs w).csa := by
  unfold SccHw.changeHtIe at changed
  cases opened : openBuf s.heap s.sccBcnBuf memory with
  | none =>
    rw [opened] at changed
    exact nomatch changed
  | some pair =>
    obtain ⟨heap, i⟩ := pair
    obtain ⟨usable, fits⟩ := guarded (openBuf_some opened)
    obtain ⟨held, live⟩ := inv.bufs.openBuf usable opened
    have there : ((⟨s.bcnSave, some (contents heap i)⟩ : Bufs).sccBcnBuf <|> none) = some (contents heap i) := rfl
    obtain ⟨⟨bufs, frame⟩, result⟩ := changeBeaconHtIe_ends (t := t) there fits
    rw [opened] at changed
    dsimp only at changed
    rw [result] at changed
    obtain rfl := Option.some.inj changed
    have same (w : ℕ) := setVif_read (s := { s with
        heap := fill heap i bufs.sccBcnBuf, sccBcnBuf := some i, bcnSave := bufs.bcnSave }) (v := v)
      (f := fun vif => { vif with own := vif.own.map (Beacon.rewritten · t (s.vifs v).bcnLen) })
      (fun vif => (vif.started, vif.starting, vif.csa)) (fun _ => rfl) w
    have started' (w : ℕ) := congrArg Prod.fst (same w)
    have starting' (w : ℕ) := congrArg (fun x => x.2.1) (same w)
    have csa' (w : ℕ) := congrArg (fun x => x.2.2) (same w)
    refine ⟨inv.of_started (held.fill live bufs.sccBcnBuf) ⟨v, started⟩ inv.sent inv.inside inv.returns
      (fun w => ⟨started' w, starting' w⟩) fun w some => inv.csa w ?_, fun w => ⟨started' w, starting' w, csa' w⟩⟩
    exact fun none => some ((csa' w).trans none)

theorem csaFinish (inv : SccInv s) (there : (s.vifs v).csa = some t) {ok : Bool}
    (guarded : ok = true → s.HtIeGuard v memory) : SccInv (s.csaFinish v t ok memory) := by
  have started := inv.csa v (by rw [there]; exact some_ne_none t)
  -- what the rewrite leaves, if it is made
  have rewritten : ∃ s₁, (if ok then (s.changeHtIe v t memory).getD s else s) = s₁ ∧ SccInv s₁ ∧
      (s₁.vifs v).started = true := by
    cases ok with
    | false => exact ⟨s, rfl, inv, started⟩
    | true =>
      cases changed : s.changeHtIe v t memory with
      | none => exact ⟨s, rfl, inv, started⟩
      | some s' =>
        obtain ⟨inv', same⟩ := inv.changeHtIe started (guarded rfl) changed
        exact ⟨s', rfl, inv', (same v).1.trans started⟩
  obtain ⟨s₁, same, inv₁, started₁⟩ := rewritten
  unfold SccHw.csaFinish
  rw [same]
  have keeps (w : ℕ) := setVif_read (s := s₁) (v := v) (f := fun vif => { vif with csa := none })
    (fun vif => (vif.started, vif.starting)) (fun _ => rfl) w
  refine inv₁.of_started inv₁.bufs ⟨v, started₁⟩ inv₁.sent inv₁.inside inv₁.returns
    (fun w => ⟨congrArg Prod.fst (keeps w), congrArg Prod.snd (keeps w)⟩) fun w some => ?_
  by_cases here : w = v
  · subst here
    exact started₁
  · rw [setVif_other here] at some
    exact inv₁.csa w some

theorem exists_started (inv : SccInv s) (due : s.needUpdate ≠ .idle) : ∃ v, (s.vifs v).started = true := by
  by_contra none
  refine due (inv.idle fun v => ?_).1
  rw [← Bool.not_eq_true]
  exact fun started => none ⟨v, started⟩

variable {frame : List Byte}

theorem saveProbeRsp (inv : SccInv s) {queued : Bool} : SccInv (s.saveProbeRsp v frame queued) := by
  unfold SccHw.saveProbeRsp
  split
  case isFalse => exact inv
  case isTrue waited =>
    have started := inv.exists_started (by rw [waited.1]; decide)
    exact inv.of_started inv.bufs started inv.sent inv.inside inv.returns (fun _ => ⟨rfl, rfl⟩) inv.csa

theorem syncOld_eq (usable : Usable s.heap s.sccBcnBuf) {heap : Heap Frmbuf} {i : ℕ}
    (opened : openBuf s.heap s.sccBcnBuf memory = some (heap, i)) : s.syncOld memory = contents heap i := by
  unfold SccHw.syncOld
  cases pointer : s.sccBcnBuf with
  | some j =>
    rw [pointer] at opened usable
    obtain ⟨rfl, rfl⟩ := Prod.mk.inj (Option.some.inj opened)
    have live : s.heap.Live j := usable
    rw [Heap.use_of_live live]
  | none =>
    rw [pointer] at opened
    cases memory with
    | none => exact nomatch opened
    | some fresh =>
      obtain ⟨rfl, rfl⟩ := Prod.mk.inj (Option.some.inj opened)
      unfold contents
      rw [Heap.alloc_obj, Function.update_self]

theorem syncBcn (inv : SccInv s) {vif : ApVif} {works : List ApVif} (head : s.works = vif :: works) {ok : Bool}
    (guarded : s.SyncStepGuard memory) : SccInv ({ s with works }.syncBcn vif memory ok) := by
  have dropped : SccInv { s with works } :=
    inv.congr ⟨rfl, rfl, rfl, rfl, rfl, rfl⟩ (fun none => ⟨none, id⟩) inv.csa inv.waiting
  unfold SccHw.SyncStepGuard at guarded
  rw [head] at guarded
  dsimp only at guarded
  unfold SccHw.syncBcn
  split
  case isFalse => exact dropped
  case isTrue due =>
    have started := inv.exists_started (by rw [show s.needUpdate = _ from due]; decide)
    unfold SccHw.downloadBcn
    split
    case isFalse => exact dropped
    case isTrue ap =>
      dsimp only
      cases opened : openBuf s.heap s.sccBcnBuf memory with
      | none => exact dropped
      | some pair =>
        obtain ⟨heap, i⟩ := pair
        obtain ⟨usable, fits⟩ := guarded ⟨due, ap, openBuf_some opened⟩
        obtain ⟨held, live⟩ := inv.bufs.openBuf usable opened
        rw [syncOld_eq usable opened] at fits
        have there : ((⟨s.bcnSave, some (contents heap i)⟩ : Bufs).sccBcnBuf <|> none) = some (contents heap i) := rfl
        obtain ⟨r, result⟩ := changeBeacon_ends there fits
        dsimp only
        rw [result]
        exact inv.of_started (held.fill live r.bufs.sccBcnBuf) started inv.sent inv.inside inv.returns
          (fun _ => ⟨rfl, rfl⟩) inv.csa

theorem switchReturn (inv : SccInv s) {mapped started : Bool} (unmapped : mapped = false)
    (held : (s.vifs v).csa ≠ none → started = true) : SccInv (s.switchReturn v mapped started) where
  bufs := inv.bufs
  sent := inv.sent
  inside := inv.inside
  returns := by
    intro r member
    rcases mem_cons.mp member with rfl | member
    · exact ⟨unmapped, fun some => held (Option.isSome_iff_ne_none.mp some)⟩
    · exact inv.returns r member
  idle := inv.idle
  csa := inv.csa
  waiting := inv.waiting

theorem sendSwitch (inv : SccInv s) (started : (s.vifs v).started = true) (none : (s.vifs v).csa = none)
    {env : SwitchEnv}
    (right : bus ≠ .pcie ∨ env.mapped = true → SentRight ⟨frame, (BitVec.ofNat 16 ((s.vifs v).bcnLen + 4),
      BitVec.ofNat 16 ((s.vifs v).bcnLen + 10)), t, (s.vifs v).own⟩)
    (object : bus = .pcie ∧ env.mapped = true → env.csa = true) : SccInv (s.sendSwitch v bus t env frame) := by
  unfold SccHw.sendSwitch
  split
  case isTrue => exact inv.switchReturn rfl fun some => absurd none some
  case isFalse mapped =>
    have handed : bus ≠ .pcie ∨ env.mapped = true := by
      rw [← Bool.not_eq_false, ← not_and_or]
      exact mapped
    have sent : SccInv { s with sent := ⟨frame, (BitVec.ofNat 16 ((s.vifs v).bcnLen + 4),
        BitVec.ofNat 16 ((s.vifs v).bcnLen + 10)), t, (s.vifs v).own⟩ :: s.sent } :=
      { inv with
        sent := fun x member => by
          rcases mem_cons.mp member with rfl | member
          · exact right handed
          · exact inv.sent x member }
    dsimp only
    split
    case isTrue failed =>
      refine sent.switchReturn (decide_eq_false fun pcie => ?_) fun some => absurd none some
      have there := object ⟨pcie, handed.resolve_left (not_not_intro pcie)⟩
      rw [failed] at there
      exact nomatch there
    case isFalse =>
      split
      case isTrue => exact sent.switchReturn rfl fun some => absurd none some
      case isFalse =>
        refine switchReturn ?_ rfl fun _ => rfl
        have keeps (w : ℕ) := setVif_read (s := { s with sent := ⟨frame, (BitVec.ofNat 16 ((s.vifs v).bcnLen + 4),
            BitVec.ofNat 16 ((s.vifs v).bcnLen + 10)), t, (s.vifs v).own⟩ :: s.sent }) (v := v)
          (f := fun vif => { vif with csa := some t }) (fun vif => (vif.started, vif.starting)) (fun _ => rfl) w
        refine sent.of_started sent.bufs ⟨v, started⟩ sent.sent sent.inside sent.returns
          (fun w => ⟨congrArg Prod.fst (keeps w), congrArg Prod.snd (keeps w)⟩) fun w some => ?_
        by_cases here : w = v
        · subst here
          exact started
        · rw [setVif_other here] at some
          exact sent.csa w some

theorem switch_written (toChannel : BitVec 32 → Byte) (save old : Frmbuf) {len : ℕ}
    (fits : len + csaLen t ≤ frmbufMaxlen) :
    ∃ saved buf, save.load len = some saved ∧
      (do let saved ← save.load len; let buf ← old.store saved; buf.write len (csaBytes toChannel t)) = some buf ∧
      buf.bytes.take (len + (csaBytes toChannel t).length) = saved ++ csaBytes toChannel t := by
  have short : len ≤ frmbufMaxlen := (Nat.le_add_right _ _).trans fits
  have loaded : save.load len = some (save.bytes.take len) := if_pos short
  have length : (save.bytes.take len).length = len := by
    rw [List.length_take, save.full]
    exact Nat.min_eq_left short
  obtain ⟨copy, stored⟩ := Frmbuf.store_isSome (b := old) (length.trans_le short)
  have bytes := (Frmbuf.store_eq_some.mp stored).2
  have room : (csaBytes toChannel t).length ≤ (old.bytes.drop (save.bytes.take len).length).length := by
    rw [length_csaBytes, List.length_drop, old.full, length]
    omega
  have split : copy.bytes = save.bytes.take len ++
      ((old.bytes.drop (save.bytes.take len).length).take (csaBytes toChannel t).length ++
        (old.bytes.drop (save.bytes.take len).length).drop (csaBytes toChannel t).length) := by
    rw [bytes, List.take_append_drop]
  obtain ⟨buf, written, after⟩ := Frmbuf.write_middle (csaBytes toChannel t) split (by
    rw [List.length_take]
    exact (Nat.min_eq_left room).symm)
  rw [length] at written
  refine ⟨_, buf, loaded, ?_, ?_⟩
  · simp only [loaded, stored, written, Option.bind_eq_bind, Option.bind_some]
  · rw [after, ← List.append_assoc]
    refine List.take_left' ?_
    rw [List.length_append, length]

theorem sentRight_own (toChannel : BitVec 32 → Byte) {b : Beacon} {len : ℕ} (size : b.size = len)
    (bytes : frame = b.bytes ++ csaBytes toChannel t) (fits : len + csaLen t ≤ frmbufMaxlen) :
    SentRight ⟨frame, (BitVec.ofNat 16 (len + 4), BitVec.ofNat 16 (len + 10)), t, some b⟩ := by
  obtain ⟨es, elems, list⟩ := csaBytes_elements toChannel t
  obtain ⟨first, second⟩ := csaBytes_count toChannel t
  have short : len ≤ 1000 := (Nat.le_add_right _ _).trans fits
  have oft : (BitVec.ofNat 16 (len + 4)).toNat = b.size + 4 := by
    rw [BitVec.toNat_ofNat, size]
    exact Nat.mod_eq_of_lt (by omega)
  have oft' : (BitVec.ofNat 16 (len + 10)).toNat = b.size + 10 := by
    rw [BitVec.toNat_ofNat, size]
    exact Nat.mod_eq_of_lt (by omega)
  have at' (k : ℕ) : frame[b.size + k]? = (csaBytes toChannel t)[k]? := by
    rw [bytes]
    refine (List.getElem?_append_right (Nat.le_add_right _ _)).trans ?_
    exact congrArg ((csaBytes toChannel t)[·]?) (Nat.add_sub_cancel_left _ _)
  refine ⟨b, es, rfl, ?_, list, oft, oft', ?_, ?_⟩
  · rw [← elems]
    exact bytes
  · dsimp only
    rw [oft, at' 4]
    exact first
  · dsimp only
    rw [oft', at' 10]
    exact second

theorem channelSwitch (inv : SccInv s) (started : (s.vifs v).started = true) {env : SwitchEnv}
    (guarded : s.SwitchGuard v bus t env) : SccInv (s.channelSwitch v bus t env toChannel) := by
  unfold SccHw.channelSwitch
  split
  case isTrue => exact inv.switchReturn rfl fun _ => rfl
  case isFalse none =>
    rw [Option.not_isSome_iff_eq_none] at none
    cases opened : openBuf s.heap s.sccCsaBcn env.memory with
    | none => exact inv.switchReturn rfl fun some => absurd none some
    | some pair =>
      obtain ⟨heap, i⟩ := pair
      obtain ⟨usable, fits, holds, object⟩ := guarded ⟨none, openBuf_some opened⟩
      obtain ⟨held, live⟩ := inv.bufs.symm.openBuf usable opened
      obtain ⟨saved, buf, loaded, written, frame⟩ :=
        switch_written toChannel s.bcnSave (contents heap i) fits
      dsimp only
      rw [written]
      have filled : SccInv { s with heap := fill heap i (some buf), sccCsaBcn := some i } :=
        inv.of_started (held.fill live (some buf)).symm ⟨v, started⟩ inv.sent inv.inside inv.returns
          (fun _ => ⟨rfl, rfl⟩) inv.csa
      refine filled.sendSwitch started none (fun handed => ?_) object
      have own := holds handed
      unfold SccHw.Holds at own
      show SentRight ⟨_, _, t, (s.vifs v).own⟩
      cases beacon : (s.vifs v).own with
      | none =>
        rw [beacon] at own
        exact own.elim
      | some b =>
        rw [beacon] at own
        dsimp only at own
        refine sentRight_own toChannel (Frmbuf.load_eq_some.mp own).1 (frame.trans ?_) fits
        rw [Option.some.inj (loaded.symm.trans own)]

theorem stopAp (inv : SccInv s) (usable : Usable s.heap s.sccBcnBuf) (usable' : Usable s.heap s.sccCsaBcn) :
    SccInv (s.stopAp v) := by
  obtain ⟨held, freed⟩ := inv.bufs.deinit usable usable'
  have vifs : (s.stopAp v).vifs =
    (s.setVif v fun vif => { vif with started := false, bcnLen := 0, csa := none, own := none }).vifs := rfl
  refine { bufs := held, sent := inv.sent, inside := inv.inside, returns := inv.returns,
           idle := fun _ => ⟨rfl, freed⟩, csa := fun w some => ?_, waiting := fun w starting => ?_ }
  · rw [vifs] at some ⊢
    by_cases here : w = v
    · subst here
      rw [setVif_self] at some
      exact absurd rfl some
    · rw [setVif_other here] at some ⊢
      exact inv.csa w some
  · rw [vifs] at starting ⊢
    by_cases here : w = v
    · subst here
      rw [setVif_self]
    · rw [setVif_other here] at starting ⊢
      exact inv.waiting w starting

theorem step (inv : SccInv s) {a : SccAct} (guarded : SccGuard bus s a) (stepped : s.act bus toChannel a = some s') :
    SccInv s' := by
  cases a with
  | startAp v isAp b =>
    obtain ⟨idle, same⟩ := Option.ite_none_left_eq_some.mp stepped
    obtain rfl := Option.some.inj same
    exact inv.startAp (Bool.not_eq_true _ ▸ idle) guarded
  | startEnd v ok =>
    obtain ⟨starting, same⟩ := ite_none_right_eq_some.mp stepped
    obtain rfl := Option.some.inj same
    exact inv.startEnd starting guarded
  | changeBeacon v b ok =>
    obtain ⟨-, same⟩ := ite_none_right_eq_some.mp stepped
    obtain rfl := Option.some.inj same
    exact inv.changeBeacon guarded
  | channelSwitch v t env =>
    obtain ⟨started, same⟩ := ite_none_right_eq_some.mp stepped
    obtain rfl := Option.some.inj same
    exact inv.channelSwitch started guarded
  | changeHtIe v t memory notified =>
    obtain ⟨started, same⟩ := ite_none_right_eq_some.mp stepped
    cases changed : s.changeHtIe v t memory with
    | none =>
      rw [changed] at same
      obtain rfl := Option.some.inj same
      exact inv
    | some s₁ =>
      rw [changed] at same
      obtain rfl := Option.some.inj same
      obtain ⟨inv₁, vifs⟩ := inv.changeHtIe started guarded changed
      exact inv₁.of_started inv₁.bufs ⟨v, (vifs v).1.trans started⟩ inv₁.sent inv₁.inside inv₁.returns
        (fun _ => ⟨rfl, rfl⟩) inv₁.csa
  | csaFinish v ok memory =>
    obtain ⟨t, there, rfl⟩ := Option.map_eq_some_iff.mp stepped
    exact inv.csaFinish there guarded
  | saveProbeRsp v frame queued =>
    obtain rfl := Option.some.inj stepped
    exact inv.saveProbeRsp
  | syncBcn memory ok =>
    cases head : s.works with
    | nil =>
      unfold SccHw.act at stepped
      rw [head] at stepped
      exact nomatch stepped
    | cons vif works =>
      unfold SccHw.act at stepped
      rw [head] at stepped
      obtain rfl := Option.some.inj stepped
      exact inv.syncBcn head guarded
  | stopAp v =>
    obtain ⟨-, same⟩ := ite_none_right_eq_some.mp stepped
    obtain rfl := Option.some.inj same
    exact inv.stopAp guarded.1 guarded.2

theorem init : SccInv (sccSystem bus toChannel).init where
  bufs := HoldsBufs.empty
  sent := fun _ member => absurd member not_mem_nil
  inside := rfl
  returns := fun _ member => absurd member not_mem_nil
  idle := fun _ => ⟨rfl, fun i below => absurd below (Nat.not_lt_zero i)⟩
  csa := fun _ some => absurd rfl some
  waiting := fun _ starting => nomatch starting

end SccInv

/-! ### Histories -/

def toChannel2 (freq : BitVec 32) : Byte := freqToChan freq .band2GHz

/-- An AP that switches its channel, is stopped and started again, and follows a station. -/
def twoLives : List SccAct :=
  [.startAp 0 true (.built plainBeacon), .startEnd 0 true, .channelSwitch 0 channel6 { memory := some Frmbuf.zero },
    .csaFinish 0 true (some Frmbuf.zero), .changeBeacon 0 (.built plainBeacon) true, .stopAp 0,
    .startAp 0 true (.built plainBeacon), .startEnd 0 true, .changeHtIe 0 channel6 (some Frmbuf.zero) true,
    .saveProbeRsp 0 plainBeacon.bytes true, .syncBcn none true, .stopAp 0]

end W2l.Scc
