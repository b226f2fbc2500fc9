/-
**Remain on channel: the lifecycle in every run.**

* `Undisturbed` — **a step finds the RoC as the driver expects it**: no interface is closed or reset with a
  RoC on it, the wait for an earlier RoC ends with it, and a RoC that is refused, or that a frame is to be
  sent on, is still there.
* `RocInv` — what such steps keep.
-/

import W2lDriver.Roc.Remain

set_option linter.unusedSectionVars false

namespace W2l.Roc

open Lib (Heap System)
open Option (mem_toList some.inj)
open Function (update update_of_ne update_self)

variable {V C : Type} [DecidableEq V] [DecidableEq C]

/-- **What a step finds.** -/
def Undisturbed (s : RocHw V C) : RocAct V C → Prop
  | .call ok =>
    match s.call with
    | .waiting _ count => s.roc ≠ none → count ≤ 100
    | .sending _ roc => ok = false → s.roc = some roc ∧ s.handler = .idle
    | .reusing _ _ roc => s.heap.Live roc
    | _ => True
  | .close v => (s.roc.bind s.heap.obj).map Roc.vif ≠ some v
  | .recyVifReset v => (s.roc.bind s.heap.obj).map Roc.vif ≠ some v
  | _ => True

def Handler.roc : Handler V → Option ℕ
  | .idle => none
  | .switching roc => some roc
  | .expiring roc => some roc
  | .freeing roc => some roc

/-- The queue was taken out of use, the RoC is not freed yet. -/
def Handler.ended : Handler V → Bool
  | .freeing _ => true
  | _ => false

def RocHw.CallOk (s : RocHw V C) : Prop :=
  match s.call with
  | .allocating _ => s.roc = none
  | .sending r roc => (s.roc = some roc ∨ s.roc = none) ∧ (r.mgmtTx = true → roc ∉ s.asked)
  | .marking => ∀ roc, s.roc = some roc → roc ∉ s.asked
  | _ => True

/-- **The invariant.** -/
structure RocInv (s : RocHw V C) : Prop where
  owns : s.heap.Owns s.roc.toList
  held : ∀ roc, s.handler.roc = some roc → s.roc = some roc
  offchan : s.offchan.map OffchanTxq.ndev = if s.handler.ended then none else (s.roc.bind s.heap.obj).map Roc.vif
  call : s.CallOk
  asked : ∀ roc ∈ s.asked, roc < s.heap.next ∧
    ∀ x, s.heap.obj roc = some x → x.internal = false ∧ (x.onChan = true → .ready roc ∈ s.reports)
  past : ∀ roc, .expired roc ∈ s.reports → roc < s.heap.next ∧ (s.roc = some roc → s.handler.ended = true)
  announced : Announced s.asked s.reports

/-! ### Reports -/

section

variable {asked : List ℕ} {reports : List Report} (announced : Announced asked reports)

include announced

theorem Announced.ready
    (roc : ℕ) : Announced asked (.ready roc :: reports) := by
  intro later earlier r split wanted
  cases later with
  | nil =>
    cases split
  | cons first later =>
    obtain ⟨-, rest⟩ := List.cons_eq_cons.mp split
    exact announced later earlier r rest wanted

theorem Announced.expired
    {roc : ℕ} (told : roc ∈ asked → .ready roc ∈ reports) (new : .expired roc ∉ reports) :
    Announced asked (.expired roc :: reports) := by
  intro later earlier r split wanted
  cases later with
  | nil =>
    obtain ⟨same, rest⟩ := List.cons_eq_cons.mp split
    obtain rfl : roc = r := Report.expired.inj same
    exact rest ▸ ⟨told wanted, new⟩
  | cons first later =>
    obtain ⟨-, rest⟩ := List.cons_eq_cons.mp split
    exact announced later earlier r rest wanted

theorem Announced.ask
    {roc : ℕ} (new : .expired roc ∉ reports) : Announced (roc :: asked) reports := by
  intro later earlier r split wanted
  rcases List.mem_cons.mp wanted with rfl | wanted
  · refine absurd ?_ new
    rw [split]
    exact List.mem_append_right _ List.mem_cons_self
  · exact announced later earlier r split wanted

end

/-! ### The steps -/

variable {s : RocHw V C}

namespace RocInv

theorem withCall (inv : RocInv s) {t : RocHw V C}
    (same : t = { s with call := t.call, toFw := t.toFw }) (known : t.CallOk) : RocInv t := by
  rw [same] at known ⊢
  exact ⟨inv.owns, inv.held, inv.offchan, known, inv.asked, inv.past, inv.announced⟩

theorem owned {roc : ℕ} (here : s.roc = some roc) : roc ∈ s.roc.toList := by
  rw [here]
  exact List.mem_singleton_self roc

section

variable (inv : RocInv s)

include inv

variable {roc : ℕ}

theorem owns_one (here : s.roc = some roc) : s.heap.Owns [roc] := by
  have owns := inv.owns
  rw [here] at owns
  exact owns

theorem obj (here : s.roc = some roc) : ∃ x, s.heap.obj roc = some x :=
  inv.owns.obj (owned here)

theorem remainOnChannel (r : Request V C) : RocInv (s.remainOnChannel r) := by
  unfold RocHw.remainOnChannel
  split
  · exact inv.withCall rfl trivial
  · case h_2 none => exact inv.withCall rfl none

theorem mgmtTx (vif : V) (chan : C) (wait : ℕ) : RocInv (s.mgmtTx vif chan wait) := by
  unfold RocHw.mgmtTx
  split
  · exact inv.withCall rfl trivial
  · exact inv.remainOnChannel _

theorem cancel (idle : s.call = .idle) (isStaMode : V → Bool) (vif : V) (cookie : ℕ) :
    RocInv (s.cancelRemainOnChannel isStaMode vif cookie) := by
  have known : s.CallOk := inv.call
  unfold RocHw.CallOk at known
  unfold RocHw.cancelRemainOnChannel
  split
  · exact inv
  · split
    · exact inv
    · split
      · exact inv
      · refine inv.withCall rfl ?_
        unfold RocHw.CallOk
        dsimp only
        rw [idle]
        trivial

theorem launch (gone : s.roc = none) (r : Request V C) : RocInv (s.launch r) := by
  have idle : s.handler.roc = none := by
    cases held : s.handler.roc with
    | none => rfl
    | some roc =>
      have here := inv.held roc held
      rw [gone] at here
      cases here
  have running : s.handler.ended = false := by
    cases handler : s.handler with
    | freeing roc =>
      rw [handler] at idle
      cases idle
    | idle | switching | expiring => rfl
  have owns := inv.owns
  rw [gone] at owns
  have fresh : ∀ roc, .expired roc ∈ s.reports → roc ≠ s.heap.next := fun roc mem =>
    Nat.ne_of_lt (inv.past roc mem).1
  have older : ∀ roc ∈ s.asked, roc ≠ s.heap.next := fun roc mem => Nat.ne_of_lt (inv.asked roc mem).1
  refine ⟨owns.alloc _, fun roc held => ?_, ?_, ?_, ?_, fun roc mem => ?_, ?_⟩
  · have held : s.handler.roc = some roc := held
    rw [idle] at held
    cases held
  · show _ = if s.handler.ended then _ else (update s.heap.obj s.heap.next _ s.heap.next).map Roc.vif
    rw [running, if_neg Bool.false_ne_true, update_self]
    rfl
  · refine ⟨.inl rfl, fun mgmt mem => ?_⟩
    have mem : s.heap.next ∈ if r.mgmtTx then s.asked else s.heap.next :: s.asked := mem
    rw [if_pos mgmt] at mem
    exact older _ mem rfl
  · have both : ∀ roc ∈ s.heap.next :: s.asked, roc < s.heap.next + 1 ∧
        ∀ x, update s.heap.obj s.heap.next (some ⟨r.vif, r.chan, r.duration, false, false⟩) roc = some x →
          x.internal = false ∧ (x.onChan = true → .ready roc ∈ s.reports) := fun roc mem => by
      rcases List.mem_cons.mp mem with rfl | mem
      · refine ⟨Nat.lt_succ_self _, fun x read => ?_⟩
        rw [update_self] at read
        obtain rfl := some.inj read
        exact ⟨rfl, fun on => nomatch on⟩
      · rw [update_of_ne (older roc mem)]
        exact ⟨Nat.lt_succ_of_lt (inv.asked roc mem).1, (inv.asked roc mem).2⟩
    intro roc mem
    have mem : roc ∈ if r.mgmtTx then s.asked else s.heap.next :: s.asked := mem
    split at mem
    · exact both roc (List.mem_cons_of_mem _ mem)
    · exact both roc mem
  · refine ⟨Nat.lt_succ_of_lt (inv.past roc mem).1, fun here => ?_⟩
    exact absurd (some.inj here).symm (fresh roc mem)
  · show Announced (if r.mgmtTx then s.asked else s.heap.next :: s.asked) s.reports
    split
    · exact inv.announced
    · exact inv.announced.ask fun mem => fresh _ mem rfl

section

variable (here : s.roc = some roc)

include here

theorem ended {t : RocHw V C}
    (heap : t.heap = s.heap.free roc) (gone : t.roc = none) (out : t.offchan = none) (handler : t.handler = .idle)
    (asked : t.asked = s.asked) (reports : t.reports = s.reports) (known : t.CallOk) : RocInv t := by
  refine ⟨?_, fun roc held => ?_, ?_, known, fun r mem => ?_, fun r mem => ?_, ?_⟩
  · rw [heap, gone]
    exact (inv.owns_one here).free
  · rw [handler] at held
    cases held
  · rw [out, handler, gone]
    rfl
  · rw [asked] at mem
    rw [heap, reports]
    exact inv.asked r mem
  · rw [reports] at mem
    rw [heap, gone]
    exact ⟨(inv.past r mem).1, fun none => nomatch none⟩
  · rw [asked, reports]
    exact inv.announced

theorem modify {f : Roc V C → Roc V C} {t : RocHw V C}
    (heap : t.heap = s.heap.modify roc f) (same : t.roc = s.roc) (vif : ∀ x, (f x).vif = x.vif)
    (handler : ∀ i, t.handler.roc = some i → s.handler.roc = some i) (ended : t.handler.ended = s.handler.ended)
    (ndev : t.offchan.map OffchanTxq.ndev = s.offchan.map OffchanTxq.ndev) (known : t.CallOk)
    (asked : t.asked = s.asked)
    (told : roc ∈ s.asked → ∀ x, s.heap.obj roc = some x →
      (f x).internal = x.internal ∧ ((f x).onChan = true → x.onChan = true ∨ .ready roc ∈ t.reports))
    (more : ∀ r, r ∈ s.reports → r ∈ t.reports) (past : ∀ i, .expired i ∈ t.reports → .expired i ∈ s.reports)
    (announced : Announced s.asked t.reports) : RocInv t := by
  obtain ⟨x, read⟩ := inv.obj here
  have contents : t.heap.obj = update s.heap.obj roc (some (f x)) := by
    rw [heap, Heap.modify_obj, read]
    rfl
  have next : t.heap.next = s.heap.next := by
    rw [heap]
    unfold Heap.modify Heap.use
    split <;> rfl
  refine ⟨?_, fun i held => ?_, ?_, known, fun i mem => ?_, fun i mem => ?_, ?_⟩
  · rw [heap, same]
    exact inv.owns.modify (owned here) f
  · rw [same]
    exact inv.held i (handler i held)
  · rw [ndev, inv.offchan, ended, same, here]
    show (if _ then _ else (s.heap.obj roc).map Roc.vif) = if _ then _ else (t.heap.obj roc).map Roc.vif
    rw [contents, update_self, read]
    show (if _ then _ else some x.vif) = if _ then _ else some (f x).vif
    rw [vif]
  · rw [asked] at mem
    rw [next, contents]
    refine ⟨(inv.asked i mem).1, fun y found => ?_⟩
    by_cases at' : i = roc
    · subst at'
      rw [update_self] at found
      obtain rfl := some.inj found
      obtain ⟨user, ready⟩ := (inv.asked i mem).2 x read
      obtain ⟨internal, onChan⟩ := told mem x read
      refine ⟨internal.trans user, fun on => ?_⟩
      rcases onChan on with before | now
      · exact more _ (ready before)
      · exact now
    · rw [update_of_ne at'] at found
      obtain ⟨user, ready⟩ := (inv.asked i mem).2 y found
      exact ⟨user, fun on => more _ (ready on)⟩
  · rw [next, same, ended]
    exact inv.past i (past i mem)
  · rw [asked]
    exact announced

theorem live : s.heap.Live roc :=
  (inv.owns.live roc).mp (owned here)

end

theorem goOn (ok : Bool) (undisturbed : Undisturbed s (.call ok)) : RocInv (s.goOn ok) := by
  have known : s.CallOk := inv.call
  unfold Undisturbed at undisturbed
  unfold RocHw.CallOk at known
  unfold RocHw.goOn
  cases at' : s.call with
  | idle => exact inv
  | cancelling r => cases ok <;> exact inv.withCall rfl trivial
  | waiting r count =>
    rw [at'] at undisturbed
    dsimp only at undisturbed ⊢
    split
    · case isTrue none => exact inv.withCall rfl none
    · case isFalse there =>
      rw [if_neg (Nat.not_lt.mpr (undisturbed there))]
      exact inv.withCall rfl trivial
  | allocating r =>
    rw [at'] at known
    cases ok with
    | true => exact inv.launch known r
    | false => exact inv.withCall rfl trivial
  | sending r roc =>
    rw [at'] at known undisturbed
    cases ok with
    | true =>
      cases mgmt : r.mgmtTx with
      | false => exact inv.withCall rfl (by simp only [if_true, mgmt, Bool.false_eq_true, if_false]; trivial)
      | true =>
        refine inv.withCall rfl ?_
        simp only [if_true, mgmt]
        intro i here
        have here : s.roc = some i := here
        rcases known.1 with same | gone
        · obtain rfl : roc = i := some.inj (same.symm.trans here)
          exact known.2 mgmt
        · rw [gone] at here
          cases here
    | false =>
      obtain ⟨here, idle⟩ := undisturbed rfl
      exact inv.ended here rfl rfl rfl idle rfl rfl trivial
  | marking =>
    rw [at'] at known
    dsimp only
    unfold RocHw.markInternal
    split
    case h_2 => exact inv.withCall rfl trivial
    case h_1 roc here =>
      refine inv.modify here rfl rfl (fun _ => rfl) (fun _ held => held) rfl rfl trivial rfl
        (fun wanted => absurd wanted (known roc here)) (fun _ mem => mem) (fun _ mem => mem) inv.announced
  | reusing vif chan roc =>
    rw [at'] at undisturbed
    have live : s.heap.Live roc := undisturbed
    dsimp only
    rw [Heap.use_of_live live]
    split
    · split
      · exact inv.withCall rfl trivial
      · exact inv.withCall rfl trivial
    · exact inv.withCall rfl trivial
  | tracking =>
    dsimp only
    split
    case h_2 => exact inv.withCall rfl trivial
    case h_1 roc here =>
      rw [Heap.use_of_live (inv.live here)]
      exact inv.withCall rfl trivial

theorem load (idle : s.handler = .idle) {handler : ℕ → Handler V}
    (holds : ∀ roc, (handler roc).roc = some roc) (running : ∀ roc, (handler roc).ended = false) :
    RocInv (s.load handler) := by
  unfold RocHw.load
  split
  · case h_1 roc here =>
    have before : s.handler.ended = false := by
      rw [idle]
      rfl
    refine ⟨inv.owns, fun i held => ?_, ?_, inv.call, inv.asked, fun i mem => ?_, inv.announced⟩
    · exact here.trans ((holds roc).symm.trans held)
    · show _ = if (handler roc).ended then _ else _
      rw [running, ← before]
      exact inv.offchan
    · refine ⟨(inv.past i mem).1, fun same => ?_⟩
      show (handler roc).ended = true
      rw [running, ← before]
      exact (inv.past i mem).2 same
  · exact inv

/-- **The handler goes on.** -/
theorem handle : RocInv s.handle := by
  unfold RocHw.handle
  cases at' : s.handler with
  | idle => exact inv
  | switching roc =>
    have here := inv.held roc (by rw [at']; rfl)
    obtain ⟨x, read⟩ := inv.obj here
    have internal : roc ∈ s.asked → ((s.heap.obj roc).map Roc.internal).getD false = false := fun wanted => by
      rw [read]
      exact ((inv.asked roc wanted).2 x read).1
    dsimp only
    refine inv.modify here rfl rfl (fun _ => rfl) (fun i held => ?_) ?_ ?_ inv.call rfl
      (fun wanted x _ => ⟨rfl, fun _ => .inr ?_⟩) (fun r mem => ?_) (fun i mem => ?_) ?_
    · cases held
    · rw [at']
      rfl
    · show (s.offchan.map _).map _ = _
      rw [Option.map_map]
      rfl
    · show _ ∈ if _ then _ else _
      rw [internal wanted, if_neg Bool.false_ne_true]
      exact List.mem_cons_self
    · show _ ∈ if _ then _ else _
      split
      · exact mem
      · exact List.mem_cons_of_mem _ mem
    · have mem : Report.expired i ∈ if _ then _ else _ := mem
      split at mem
      · exact mem
      · rcases List.mem_cons.mp mem with same | mem
        · cases same
        · exact mem
    · show Announced _ (if _ then _ else _)
      split
      · exact inv.announced
      · exact inv.announced.ready roc
  | expiring roc =>
    have here := inv.held roc (by rw [at']; rfl)
    obtain ⟨x, read⟩ := inv.obj here
    have new : .expired roc ∉ s.reports := fun mem => by
      have ended := (inv.past roc mem).2 here
      rw [at'] at ended
      cases ended
    dsimp only
    rw [Heap.use_of_live (inv.live here), read]
    show RocInv (RocHw.txqOffchanDeinit { s with
      reports := if !x.internal && x.onChan then .expired roc :: s.reports else s.reports
      handler := .freeing roc })
    have either : ∀ r, r ∈ (if !x.internal && x.onChan then .expired roc :: s.reports else s.reports) →
        r = .expired roc ∨ r ∈ s.reports := fun r mem => by
      split at mem
      · exact List.mem_cons.mp mem
      · exact .inr mem
    refine ⟨inv.owns, fun i held => here.trans held, rfl, inv.call, fun i mem => ?_, fun i mem => ?_, ?_⟩
    · refine ⟨(inv.asked i mem).1, fun y found => ?_⟩
      obtain ⟨user, ready⟩ := (inv.asked i mem).2 y found
      refine ⟨user, fun on => ?_⟩
      show _ ∈ if _ then _ else _
      split
      · exact List.mem_cons_of_mem _ (ready on)
      · exact ready on
    · refine ⟨?_, fun _ => rfl⟩
      rcases either _ mem with same | mem
      · obtain rfl := Report.expired.inj same
        exact inv.owns.lt_next (owned here)
      · exact (inv.past i mem).1
    · show Announced _ (if _ then _ else _)
      split
      · case isTrue told =>
        refine inv.announced.expired (fun wanted => ?_) new
        exact ((inv.asked roc wanted).2 x read).2 (Bool.and_eq_true_iff.mp told).2
      · exact inv.announced
  | freeing roc =>
    have here := inv.held roc (by rw [at']; rfl)
    have out : s.offchan = none := by
      have gone := inv.offchan
      rw [at'] at gone
      exact Option.map_eq_none_iff.mp gone
    refine inv.ended here rfl rfl out rfl rfl rfl ?_
    have known := inv.call
    unfold RocHw.CallOk at known ⊢
    dsimp only
    split at known
    · rfl
    · exact ⟨.inr rfl, known.2⟩
    · exact fun i none => nomatch none
    · trivial

theorem dropRoc {v : V} (other : (s.roc.bind s.heap.obj).map Roc.vif ≠ some v) : s.dropRoc v = s := by
  unfold RocHw.dropRoc
  split
  · case h_1 roc here =>
    have there : (s.heap.obj roc).map Roc.vif ≠ some v := by
      rw [here] at other
      exact other
    dsimp only
    rw [Heap.use_of_live (inv.live here), if_neg there]
  · rfl

theorem act (isStaMode : V → Bool) {a : RocAct V C} (undisturbed : Undisturbed s a)
    {t : RocHw V C} (stepped : s.act isStaMode a = some t) : RocInv t := by
  have guarded : ∀ {p : Prop} [Decidable p] {u : RocHw V C}, (if p then some u else none) = some t → p ∧ u = t :=
    fun {p _ u} eq => by
      split at eq
      · case isTrue holds => exact ⟨holds, some.inj eq⟩
      · cases eq
  cases a with
  | remainOnChannel vif chan duration =>
    obtain ⟨-, rfl⟩ := guarded stepped
    exact inv.remainOnChannel _
  | mgmtTx vif chan wait =>
    obtain ⟨-, rfl⟩ := guarded stepped
    exact inv.mgmtTx vif chan wait
  | cancelRemainOnChannel vif cookie =>
    obtain ⟨idle, rfl⟩ := guarded stepped
    exact inv.cancel idle isStaMode vif cookie
  | call ok =>
    obtain rfl := some.inj stepped
    exact inv.goOn ok undisturbed
  | chanSwitchInd =>
    obtain ⟨idle, rfl⟩ := guarded stepped
    exact inv.load idle (fun _ => rfl) (fun _ => rfl)
  | expInd =>
    obtain ⟨idle, rfl⟩ := guarded stepped
    exact inv.load idle (fun _ => rfl) (fun _ => rfl)
  | handle =>
    obtain rfl := some.inj stepped
    exact inv.handle
  | close v | recyVifReset v =>
    obtain rfl := some.inj stepped
    rw [inv.dropRoc undisturbed]
    exact inv

end

end RocInv

/-! ### Runs -/

theorem RocInv.init : RocInv ({} : RocHw V C) where
  owns := Heap.Owns.empty
  held := fun _ held => nomatch held
  offchan := rfl
  call := trivial
  asked := fun _ mem => absurd mem List.not_mem_nil
  past := fun _ mem => absurd mem List.not_mem_nil
  announced := fun later earlier roc split => by
    have member : Report.expired roc ∈ later ++ .expired roc :: earlier :=
      List.mem_append_right _ List.mem_cons_self
    rw [← split] at member
    exact absurd member List.not_mem_nil

theorem RocInv.lifecycle (inv : RocInv s) : RocLifecycle s where
  freed := fun roc below => by
    split
    · case isTrue here => exact (inv.live here).2
    · case isFalse gone =>
      refine inv.owns.freed below fun mem => gone ?_
      exact mem_toList.mp mem
  unused := inv.owns.clean
  kept := fun roc => (inv.owns.live roc).symm.trans mem_toList
  offchan := fun idle => by
    have running : s.handler.ended = false := by
      cases at' : s.handler with
      | freeing roc => exact absurd at' (idle roc)
      | idle | switching | expiring => rfl
    rw [inv.offchan, running]
    rfl
  announced := inv.announced

/-- **The lifecycle of the RoCs** in every run of steps that find the RoC as expected. -/
theorem roc_lifecycle (isStaMode : V → Bool) {s : RocHw V C}
    (reach : (rocSystem isStaMode).Reachable Undisturbed s) : RocLifecycle s :=
  RocInv.lifecycle <| reach.invariant (I := RocInv) RocInv.init
    fun _ _ _ _ inv undisturbed stepped => inv.act isStaMode undisturbed stepped

/-- A RoC that is asked for, entered, and left. -/
theorem roc_lifecycle_once : ∃ s : RocHw Unit Unit,
    s.reports = [.expired 0, .ready 0] ∧ s.heap.frees 0 = 1 ∧ RocLifecycle s := by
  have asked := System.Reachable.step (S := rocSystem fun _ : Unit => false) .init
    (show Undisturbed _ (.remainOnChannel () () 100) from trivial) rfl
  have sent := asked.step (show Undisturbed _ (.call true) from trivial) rfl
  have answered := sent.step (show Undisturbed _ (.call true) from fun none => nomatch none) rfl
  have entered := (answered.step (show Undisturbed _ .chanSwitchInd from trivial) rfl).step
    (show Undisturbed _ .handle from trivial) rfl
  have expired := ((entered.step (show Undisturbed _ .expInd from trivial) rfl).step
    (show Undisturbed _ .handle from trivial) rfl).step (show Undisturbed _ .handle from trivial) rfl
  exact ⟨_, rfl, rfl, roc_lifecycle _ expired⟩

/-- **Closing an interface with a RoC** leaves the off-channel queue in use. -/
theorem close_leaves_offchan : ¬ ∀ (isStaMode : Unit → Bool) (s : RocHw Unit Unit),
    (rocSystem isStaMode).Reachable (fun _ _ => True) s → RocLifecycle s := by
  intro all
  have reach := System.reachable_of_run (rocSystem fun _ : Unit => false) (fun _ (_ : RocAct Unit Unit) => True)
    [.remainOnChannel () () 100, .call true, .call true, .close ()] rfl
  have queue := (all _ _ reach).offchan (fun roc freeing => nomatch freeing)
  cases queue

end W2l.Roc
