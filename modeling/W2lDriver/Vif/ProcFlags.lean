/-
**Interfaces: the flags that keep a recovery off are set while a callback runs, and only then.**

* `RecyGuarded` — **what the flags are for**: with no callback executing and every AP that is up beaconing,
  they are clear and a recovery goes on; while one executes, one of them is set.
* `Guard` — **when a step keeps that**: `start_ap` and `change_iface` find a flag set, an AP that starts was not
  stopped before, and one that is closed was started, or another AP is up and does not beacon.
-/

import W2lDriver.Vif.Callbacks

namespace W2l.Vif

open Gate (Iftype)
open Lib (System)
open Recy (Flag Hw delaying)
open Function (update update_of_ne update_self)
open Option (some.inj some_ne_none)
open Bool (and_eq_true eq_false_iff)
open List (any_cons any_eq_true any_nil mem_singleton_self not_mem_nil)

def procFlags : List Flag := [.openVifProc, .closeVifProc, .stopApProc]

namespace VifHw

variable (s : VifHw)

def Pending (v : ℕ) : Prop := s.up v = true ∧ beacons (s.iftype v) = true ∧ s.beaconing v = false

instance (v : ℕ) : Decidable (s.Pending v) := inferInstanceAs (Decidable (_ ∧ _ ∧ _))

def AllBeacon : Prop := ∀ v ∈ s.vifs, ¬s.Pending v

instance : Decidable s.AllBeacon := inferInstanceAs (Decidable (∀ v ∈ s.vifs, ¬s.Pending v))

def proc : Bool := s.hw.flagsChk procFlags

end VifHw

/-- **What the flags are for.** -/
structure RecyGuarded (s : VifHw) : Prop where
  idle : s.op = none → s.AllBeacon → s.proc = false
  recovers : s.op = none → s.AllBeacon → s.ongoing = false → s.recyBegin.isSome = true
  executing : s.op ≠ none → s.proc = true

/-- **When a step keeps that.** -/
def Guard (s : VifHw) : VifAct → Prop
  | .startAp _ => s.proc = true
  | .changeIface v type => ¬s.Refused v type → s.proc = true
  | .apStarted e => e.error = 0 → s.hw.flags .stopApProc = true →
      ∃ w ∈ s.vifs, s.op ≠ some (.starting w) ∧ s.Pending w
  | .closed => s.hw.flags .openVifProc = true → ∃ w ∈ s.vifs, s.op ≠ some (.closing w) ∧ s.Pending w
  | _ => True

instance (s : VifHw) : ∀ a, Decidable (Guard s a)
  | .open_ .. => .isTrue trivial
  | .opened _ => .isTrue trivial
  | .close .. => .isTrue trivial
  | .closed => inferInstanceAs (Decidable (_ = true → ∃ w ∈ s.vifs, _ ∧ _))
  | .startAp _ => inferInstanceAs (Decidable (_ = true))
  | .apStarted e => inferInstanceAs (Decidable (e.error = 0 → _ = true → ∃ w ∈ s.vifs, _ ∧ _))
  | .stopAp .. => .isTrue trivial
  | .apStopped => .isTrue trivial
  | .changeIface v type => inferInstanceAs (Decidable (¬s.Refused v type → _ = true))
  | .changed => .isTrue trivial
  | .recyBegin => .isTrue trivial
  | .recyEnd _ => .isTrue trivial

/-! ### Flags -/

section Flags

variable {s : VifHw}

theorem proc_eq_true : s.proc = true ↔
    s.hw.flags .openVifProc = true ∨ s.hw.flags .closeVifProc = true ∨ s.hw.flags .stopApProc = true := by
  show (procFlags.any s.hw.flags) = true ↔ _
  simp only [procFlags, any_cons, any_nil, Bool.or_false, Bool.or_eq_true]

theorem proc_eq_false : s.proc = false ↔
    s.hw.flags .openVifProc = false ∧ s.hw.flags .closeVifProc = false ∧ s.hw.flags .stopApProc = false := by
  show (procFlags.any s.hw.flags) = false ↔ _
  simp only [procFlags, any_cons, any_nil, Bool.or_false, Bool.or_eq_false_iff]

theorem delaying_eq_false : s.hw.flagsChk delaying = false ↔ s.proc = false ∧ s.ongoing = false := by
  rw [proc_eq_false]
  show (delaying.any s.hw.flags) = false ↔ _ ∧ ([Flag.stateOngoing].any s.hw.flags) = false
  simp only [delaying, any_cons, any_nil, Bool.or_false, Bool.or_eq_false_iff]
  tauto

theorem ongoing_eq : s.ongoing = s.hw.flags .stateOngoing := Bool.or_false _

theorem set_of_flagsClr {fs : List Flag} {f : Flag} (left : (s.hw.flagsClr fs).flags f = true) :
    s.hw.flags f = true := by
  have left : (!decide (f ∈ fs) && s.hw.flags f) = true := left
  exact (Bool.and_eq_true_iff.mp left).2

theorem flagsClr_mem {fs : List Flag} {f : Flag} (mem : f ∈ fs) : (s.hw.flagsClr fs).flags f = false := by
  show (!decide (f ∈ fs) && s.hw.flags f) = false
  rw [decide_eq_true mem, Bool.not_true, Bool.false_and]

theorem flagsSet_mem {fs : List Flag} {f : Flag} (mem : f ∈ fs) : (s.hw.flagsSet fs).flags f = true := by
  show (decide (f ∈ fs) || s.hw.flags f) = true
  rw [decide_eq_true mem, Bool.true_or]

end Flags

/-! ### The invariant -/

def VifHw.Waiting (s : VifHw) : Prop := ∃ w ∈ s.vifs, s.Pending w

/-- **The invariant.** -/
structure VifInv (s : VifHw) : Prop where
  table : ∀ i v, s.hw.ifaces.vifTable i = some v → i < nxItfMax ∧ s.up v = true ∧ s.hw.ifaces.vifIndex v = i
  running : ∀ v, s.running v = true → s.up v = true
  opening : ∀ v, s.op = some (.opening v) → v ∈ s.vifs ∧ ∀ i, s.hw.ifaces.vifTable i ≠ some v
  stopping : ∀ v, s.op = some (.stopping v) → v ∈ s.vifs ∧ s.up v = true ∧ beacons (s.iftype v) = true
  changing : ∀ v type, s.op = some (.changing v type) → s.up v = false
  opens : s.hw.flags .openVifProc = true → (∃ v, s.op = some (.opening v)) ∨ s.Waiting
  closes : s.hw.flags .closeVifProc = true → ∃ v, s.op = some (.closing v)
  stops : s.hw.flags .stopApProc = true → (∃ v, s.op = some (.stopping v)) ∨ s.Waiting
  ongoing : s.ongoing = true → s.proc = false
  executing : s.op ≠ none → s.proc = true

namespace VifInv

variable {s u : VifHw}

section

variable (inv : VifInv s)

include inv

theorem guarded : RecyGuarded s := by
  have clear : s.op = none → s.AllBeacon → s.proc = false := by
    intro none all
    have waits : ¬s.Waiting := fun ⟨w, mem, pending⟩ => all w mem pending
    rw [proc_eq_false]
    refine ⟨eq_false_iff.mpr fun set => ?_, eq_false_iff.mpr fun set => ?_, eq_false_iff.mpr fun set => ?_⟩
    · rcases inv.opens set with ⟨v, busy⟩ | waiting
      · rw [none] at busy
        cases busy
      · exact waits waiting
    · obtain ⟨v, busy⟩ := inv.closes set
      rw [none] at busy
      cases busy
    · rcases inv.stops set with ⟨v, busy⟩ | waiting
      · rw [none] at busy
        cases busy
      · exact waits waiting
  refine ⟨clear, fun none all calm => ?_, inv.executing⟩
  have free : s.hw.flagsChk delaying = false := delaying_eq_false.mpr ⟨clear none all, calm⟩
  show (if s.hw.flagsChk delaying = true then _ else some _).isSome = true
  rw [free]
  rfl

theorem not_ongoing (busy : s.op ≠ none) : s.ongoing = false := by
  refine eq_false_iff.mpr fun on => ?_
  have set := inv.executing busy
  rw [inv.ongoing on] at set
  cases set

theorem begins (idle : s.op = none) (calm : s.ongoing = false) {fs : List Flag} {op : Op}
    (own : ∀ f ∈ fs, f ∈ procFlags) (set : s.proc = true ∨ ∃ f ∈ fs, f ∈ procFlags)
    (opening : ∀ v, op = .opening v → v ∈ s.vifs ∧ ∀ i, s.hw.ifaces.vifTable i ≠ some v)
    (stopping : ∀ v, op = .stopping v → v ∈ s.vifs ∧ s.up v = true ∧ beacons (s.iftype v) = true)
    (changing : ∀ v type, op = .changing v type → s.up v = false)
    (opens : .openVifProc ∈ fs → ∃ v, op = .opening v) (closes : .closeVifProc ∈ fs → ∃ v, op = .closing v)
    (stops : .stopApProc ∈ fs → ∃ v, op = .stopping v) :
    VifInv { s.flagsSet fs with op := some op } := by
  have split : ∀ f, (s.hw.flagsSet fs).flags f = true → f ∈ fs ∨ s.hw.flags f = true := by
    intro f on
    have on : (decide (f ∈ fs) || s.hw.flags f) = true := on
    rcases Bool.or_eq_true_iff.mp on with mem | old
    · exact .inl (of_decide_eq_true mem)
    · exact .inr old
  have none : ∀ v, s.op = some v → False := fun v busy => by
    rw [idle] at busy
    cases busy
  have up : ∀ f, s.hw.flags f = true → (s.hw.flagsSet fs).flags f = true := by
    intro f on
    show (decide (f ∈ fs) || s.hw.flags f) = true
    rw [on, Bool.or_true]
  refine ⟨inv.table, inv.running, fun v same => opening v (some.inj same),
    fun v same => stopping v (some.inj same), fun v type same => changing v type (some.inj same),
    fun on => ?_, fun on => ?_, fun on => ?_, fun on => ?_, fun _ => ?_⟩
  · rcases split _ on with mem | old
    · obtain ⟨v, same⟩ := opens mem
      exact .inl ⟨v, congrArg some same⟩
    · rcases inv.opens old with ⟨v, busy⟩ | waiting
      · exact (none _ busy).elim
      · exact .inr waiting
  · rcases split _ on with mem | old
    · obtain ⟨v, same⟩ := closes mem
      exact ⟨v, congrArg some same⟩
    · obtain ⟨v, busy⟩ := inv.closes old
      exact (none _ busy).elim
  · rcases split _ on with mem | old
    · obtain ⟨v, same⟩ := stops mem
      exact .inl ⟨v, congrArg some same⟩
    · rcases inv.stops old with ⟨v, busy⟩ | waiting
      · exact (none _ busy).elim
      · exact .inr waiting
  · rw [ongoing_eq] at on calm
    have on : (decide (Flag.stateOngoing ∈ fs) || s.hw.flags .stateOngoing) = true := on
    rw [calm, Bool.or_false] at on
    exact absurd (own _ (of_decide_eq_true on)) (by decide)
  · show VifHw.proc { s.flagsSet fs with op := some op } = true
    rcases set with old | ⟨f, mem, isProc⟩
    · rw [proc_eq_true] at old ⊢
      exact old.imp (up _) (Or.imp (up _) (up _))
    · exact any_eq_true.mpr ⟨f, isProc, flagsSet_mem mem⟩

theorem begins_unset (idle : s.op = none) (set : s.proc = true) {op : Op}
    (opening : ∀ v, op ≠ .opening v) (stopping : ∀ v, op ≠ .stopping v)
    (changing : ∀ v type, op = .changing v type → s.up v = false) : VifInv { s with op := some op } := by
  have calm : s.ongoing = false := eq_false_iff.mpr fun on => by
    rw [inv.ongoing on] at set
    cases set
  have same : s.flagsSet [] = s := rfl
  have begun : VifInv { s.flagsSet [] with op := some op } :=
    inv.begins idle calm (fun f mem => absurd mem not_mem_nil) (.inl set)
      (fun v same => absurd same (opening v)) (fun v same => absurd same (stopping v)) changing
      (fun mem => absurd mem not_mem_nil) (fun mem => absurd mem not_mem_nil)
      (fun mem => absurd mem not_mem_nil)
  rw [same] at begun
  exact begun

theorem ends (busy : s.op ≠ none) (idle : u.op = none)
    (table : ∀ i v, u.hw.ifaces.vifTable i = some v → i < nxItfMax ∧ u.up v = true ∧ u.hw.ifaces.vifIndex v = i)
    (running : ∀ v, u.running v = true → u.up v = true)
    (calm : u.hw.flags .stateOngoing = true → s.hw.flags .stateOngoing = true)
    (opens : u.hw.flags .openVifProc = true → u.Waiting) (closes : u.hw.flags .closeVifProc = false)
    (stops : u.hw.flags .stopApProc = true → u.Waiting) : VifInv u := by
  have gone : ∀ op, u.op = some op → False := fun op same => by
    rw [idle] at same
    cases same
  refine ⟨table, running, fun v same => (gone _ same).elim, fun v same => (gone _ same).elim,
    fun v type same => (gone _ same).elim, fun on => .inr (opens on), fun on => ?_, fun on => .inr (stops on),
    fun on => ?_, fun busy => absurd idle busy⟩
  · rw [closes] at on
    cases on
  · have off := inv.not_ongoing busy
    rw [ongoing_eq] at off on
    rw [calm on] at off
    cases off

theorem clears (idle : s.op = none) (fs : List Flag) : VifInv (s.flagsClr fs) := by
  refine ⟨inv.table, inv.running, inv.opening, inv.stopping, inv.changing, fun on => inv.opens (set_of_flagsClr on),
    fun on => inv.closes (set_of_flagsClr on), fun on => inv.stops (set_of_flagsClr on), fun on => ?_,
    fun busy => absurd idle busy⟩
  rw [ongoing_eq] at on
  have before : s.ongoing = true := by
    rw [ongoing_eq]
    exact set_of_flagsClr on
  have free := proc_eq_false.mp (inv.ongoing before)
  refine proc_eq_false.mpr ⟨eq_false_iff.mpr fun left => ?_, eq_false_iff.mpr fun left => ?_,
    eq_false_iff.mpr fun left => ?_⟩
  · exact eq_false_iff.mp free.1 (set_of_flagsClr left)
  · exact eq_false_iff.mp free.2.1 (set_of_flagsClr left)
  · exact eq_false_iff.mp free.2.2 (set_of_flagsClr left)

theorem setRunning {v : ℕ} {on : Bool} (up : on = true → s.up v = true) : VifInv (s.setRunning v on) := by
  refine ⟨inv.table, fun w running => ?_, inv.opening, inv.stopping, inv.changing, inv.opens, inv.closes,
    inv.stops, inv.ongoing, inv.executing⟩
  have running : update s.running v on w = true := running
  by_cases here : w = v
  · rw [here, update_self] at running
    rw [here]
    exact up running
  · rw [update_of_ne here] at running
    exact inv.running w running

theorem waiting_of_opens (other : ∀ v, s.op ≠ some (.opening v))
    (on : s.hw.flags .openVifProc = true) : s.Waiting := by
  rcases inv.opens on with ⟨v, busy⟩ | waiting
  · exact absurd busy (other v)
  · exact waiting

theorem waiting_of_stops (other : ∀ v, s.op ≠ some (.stopping v))
    (on : s.hw.flags .stopApProc = true) : s.Waiting := by
  rcases inv.stops on with ⟨v, busy⟩ | waiting
  · exact absurd busy (other v)
  · exact waiting

theorem closes_eq_false (other : ∀ v, s.op ≠ some (.closing v)) : s.hw.flags .closeVifProc = false := by
  refine eq_false_iff.mpr fun on => ?_
  obtain ⟨v, busy⟩ := inv.closes on
  exact other v busy

end

theorem clear_of_clear {fs : List Flag} {f : Flag} (clear : s.hw.flags f = false) :
    (s.hw.flagsClr fs).flags f = false :=
  eq_false_iff.mpr fun on => eq_false_iff.mp clear (set_of_flagsClr on)

/-! ### Open and close -/

variable {v w : ℕ}

theorem openBegin (inv : VifInv s) (idle : s.op = none) (mem : v ∈ s.vifs) {busErr late : Bool}
    (stepped : s.openBegin v busErr late = some u) : VifInv u := by
  unfold VifHw.openBegin at stepped
  split at stepped
  · obtain rfl := some.inj stepped
    split
    · exact inv.clears idle _
    · exact inv
  · split at stepped
    · case isTrue there =>
      obtain rfl := some.inj stepped
      obtain ⟨i, -, found⟩ := any_eq_true.mp there
      exact inv.setRunning fun _ => (inv.table i v (of_decide_eq_true found)).2.1
    · case isFalse absent =>
      split at stepped
      · split at stepped
        · obtain rfl := some.inj stepped
          exact inv
        · cases stepped
      · case isFalse calm =>
        obtain rfl := some.inj stepped
        have gone : ∀ i, s.hw.ifaces.vifTable i ≠ some v := fun i found => absent
          (any_eq_true.mpr ⟨i, List.mem_range.mpr (inv.table i v found).1, decide_eq_true found⟩)
        refine inv.begins idle (eq_false_iff.mpr calm) (by decide) (.inr ⟨.openVifProc, by decide⟩)
          (fun w same => ?_) (fun w same => nomatch same) (fun w type same => nomatch same) (fun _ => ⟨v, rfl⟩)
          (fun wrong => absurd wrong (by decide)) (fun wrong => absurd wrong (by decide))
        obtain rfl := Op.opening.inj same
        exact ⟨mem, gone⟩

theorem pending_added {i : ℕ} (pending : s.Pending w) : (s.added v i).Pending w := by
  obtain ⟨up, isAp, silent⟩ := pending
  refine ⟨?_, isAp, ?_⟩
  · show update s.hw.ifaces.up v true w = true
    by_cases here : w = v
    · rw [here, update_self]
    · rw [update_of_ne here]
      exact up
  · show update s.beaconing v false w = false
    by_cases here : w = v
    · rw [here, update_self]
    · rw [update_of_ne here, silent]

theorem openEnd (inv : VifInv s) (busy : s.op = some (.opening v)) (e : VifHw.OpenEnv) : VifInv (s.openEnd v e) := by
  have some' : s.op ≠ none := by
    rw [busy]
    exact some_ne_none _
  obtain ⟨mem, gone⟩ := inv.opening v busy
  have notClosing : ∀ w, s.op ≠ some (.closing w) := fun w same => by
    rw [busy] at same
    cases same
  have notStopping : ∀ w, s.op ≠ some (.stopping w) := fun w same => by
    rw [busy] at same
    cases same
  have closed := inv.closes_eq_false notClosing
  unfold VifHw.openEnd
  split
  · refine inv.ends some' rfl inv.table inv.running set_of_flagsClr (fun on => ?_) (clear_of_clear closed)
      fun on => inv.waiting_of_stops notStopping (set_of_flagsClr on)
    rw [show (s.flagsClr [.openVifProc]).done.hw.flags .openVifProc = false from
      flagsClr_mem (mem_singleton_self _)] at on
    cases on
  · have upAfter : ∀ w, s.up w = true → (s.added v e.instNbr).up w = true := fun w up => by
      show update s.hw.ifaces.up v true w = true
      by_cases here : w = v
      · rw [here, update_self]
      · rw [update_of_ne here]
        exact up
    have own : (s.added v e.instNbr).up v = true := by
      show update s.hw.ifaces.up v true v = true
      rw [update_self]
    have table : ∀ i w, (s.added v e.instNbr).hw.ifaces.vifTable i = some w →
        i < nxItfMax ∧ (s.added v e.instNbr).up w = true ∧ (s.added v e.instNbr).hw.ifaces.vifIndex w = i := by
      intro i w there
      have there : update s.hw.ifaces.vifTable e.instNbr (some v) i = some w := there
      show _ ∧ _ ∧ update s.hw.ifaces.vifIndex v e.instNbr w = i
      by_cases new : i = e.instNbr
      · rw [new, update_self] at there
        obtain rfl := some.inj there
        rw [update_self, new]
        exact ⟨e.instNbr.isLt, own, rfl⟩
      · rw [update_of_ne new] at there
        obtain ⟨small, up, index⟩ := inv.table i w there
        have ne : w ≠ v := fun same => gone i (same ▸ there)
        rw [update_of_ne ne]
        exact ⟨small, upAfter w up, index⟩
    have running : ∀ on w, ((s.added v e.instNbr).setRunning v on).running w = true →
        (s.added v e.instNbr).up w = true := by
      intro on w running
      have running : update s.running v on w = true := running
      by_cases here : w = v
      · rw [here]
        exact own
      · rw [update_of_ne here] at running
        exact upAfter w (inv.running w running)
    have stops : s.hw.flags .stopApProc = true → (s.added v e.instNbr).Waiting := fun on => by
      obtain ⟨w, known, pending⟩ := inv.waiting_of_stops notStopping on
      exact ⟨w, known, pending_added pending⟩
    dsimp only
    split
    · refine inv.ends some' rfl table (running _) set_of_flagsClr (fun on => ?_) (clear_of_clear closed)
        fun on => stops (set_of_flagsClr on)
      rw [show (((s.added v e.instNbr).setRunning v _).flagsClr [.openVifProc]).done.hw.flags .openVifProc = false from
        flagsClr_mem (mem_singleton_self _)] at on
      cases on
    · case isFalse isAp =>
      refine inv.ends some' rfl table (running _) id (fun _ => ⟨v, mem, own, ?_, ?_⟩) closed stops
      · show beacons (s.iftype v) = true
        rw [not_and_or, not_not, not_not] at isAp
        rcases isAp with ap | go
        · rw [ap]
          rfl
        · rw [go]
          rfl
      · show update s.beaconing v false v = false
        rw [update_self]

theorem closeBegin (inv : VifInv s) (idle : s.op = none) {late : Bool}
    (stepped : s.closeBegin v late = some u) : VifInv u := by
  unfold VifHw.closeBegin at stepped
  split at stepped
  · split at stepped
    · obtain rfl := some.inj stepped
      exact inv.setRunning fun on => nomatch on
    · cases stepped
  · case isFalse calm =>
    obtain rfl := some.inj stepped
    exact inv.begins idle (eq_false_iff.mpr calm) (by decide) (.inr ⟨.closeVifProc, by decide⟩)
      (fun w same => nomatch same) (fun w same => nomatch same) (fun w type same => nomatch same)
      (fun wrong => absurd wrong (by decide)) (fun _ => ⟨v, rfl⟩) (fun wrong => absurd wrong (by decide))

theorem pending_removed (ne : w ≠ v) (pending : s.Pending w) : (s.removed v).Pending w := by
  obtain ⟨up, isAp, silent⟩ := pending
  refine ⟨?_, isAp, ?_⟩
  · show update s.hw.ifaces.up v false w = true
    rw [update_of_ne ne]
    exact up
  · show update s.beaconing v false w = false
    rw [update_of_ne ne, silent]

theorem closeEnd (inv : VifInv s) (busy : s.op = some (.closing v)) (guard : Guard s .closed) :
    VifInv (s.closeEnd v) := by
  have some' : s.op ≠ none := by
    rw [busy]
    exact some_ne_none _
  have notStopping : ∀ w, s.op ≠ some (.stopping w) := fun w same => by
    rw [busy] at same
    cases same
  unfold VifHw.closeEnd
  refine inv.ends some' rfl (fun i w there => ?_) (fun w running => ?_) set_of_flagsClr (fun on => ?_)
    (flagsClr_mem (List.mem_append_right _ (mem_singleton_self _))) fun on => ?_
  · have there : update s.hw.ifaces.vifTable (s.hw.ifaces.vifIndex v) none i = some w := there
    have ne : i ≠ s.hw.ifaces.vifIndex v := fun same => by
      rw [same, update_self] at there
      cases there
    rw [update_of_ne ne] at there
    obtain ⟨small, up, index⟩ := inv.table i w there
    have other : w ≠ v := fun same => ne (by rw [← index, same])
    refine ⟨small, ?_, index⟩
    show update s.hw.ifaces.up v false w = true
    rw [update_of_ne other]
    exact up
  · have running : update s.running v false w = true := running
    show update s.hw.ifaces.up v false w = true
    have ne : w ≠ v := fun same => by
      rw [same, update_self] at running
      cases running
    rw [update_of_ne ne] at running ⊢
    exact inv.running w running
  · obtain ⟨w, known, other, pending⟩ := guard (set_of_flagsClr on)
    have ne : w ≠ v := fun same => other (by rw [busy, same])
    exact ⟨w, known, pending_removed ne pending⟩
  · have before : s.hw.flags .stopApProc = true := set_of_flagsClr on
    obtain ⟨w, known, pending⟩ := inv.waiting_of_stops notStopping before
    have ne : w ≠ v := fun same => by
      have isAp : beacons (s.iftype v) = true := same ▸ pending.2.1
      have off : (s.hw.flagsClr ((if beacons (s.iftype v) then [.stopApProc] else []) ++ [.closeVifProc])).flags
          .stopApProc = false := by
        rw [isAp]
        exact flagsClr_mem (by decide)
      have on : (s.hw.flagsClr _).flags .stopApProc = true := on
      rw [off] at on
      cases on
    exact ⟨w, known, pending_removed ne pending⟩

/-! ### Start and stop -/

theorem pending_setBeaconing {on : Bool} (ne : w ≠ v) (pending : s.Pending w) : (s.setBeaconing v on).Pending w := by
  obtain ⟨up, isAp, silent⟩ := pending
  refine ⟨up, isAp, ?_⟩
  show update s.beaconing v on w = false
  rw [update_of_ne ne, silent]

theorem apStarted_fields (s : VifHw) (v : ℕ) : (s.apStarted v).vifs = s.vifs ∧
    (s.apStarted v).hw.ifaces = s.hw.ifaces ∧ (s.apStarted v).beaconing = update s.beaconing v true ∧
    ∀ f, f ≠ .apInfoSaved → (s.apStarted v).hw.flags f = s.hw.flags f := by
  unfold VifHw.apStarted
  split
  · exact ⟨rfl, rfl, rfl, fun _ _ => rfl⟩
  · exact ⟨rfl, rfl, rfl, fun f ne => s.hw.flagsSet_other fun mem => ne (List.mem_singleton.mp mem)⟩

variable {e : VifHw.StartEnv}

theorem startApEnd_of_fine (fine : e.error = 0) :
    s.startApEnd v e = ((s.apStarted v).flagsClr [.openVifProc]).done := by
  unfold VifHw.startApEnd
  rw [if_pos fine]

section

variable (inv : VifInv s)

include inv

theorem startApEnd (busy : s.op = some (.starting v))
    (guard : Guard s (.apStarted e)) : VifInv (s.startApEnd v e) := by
  have some' : s.op ≠ none := by
    rw [busy]
    exact some_ne_none _
  have notStopping : ∀ w, s.op ≠ some (.stopping w) := fun w same => by
    rw [busy] at same
    cases same
  have closed := inv.closes_eq_false fun w same => by
    rw [busy] at same
    cases same
  have opened : ∀ t : VifHw, (t.flagsClr [.openVifProc]).done.hw.flags .openVifProc = true → False := by
    intro t on
    rw [show (t.flagsClr [.openVifProc]).done.hw.flags .openVifProc = false from
      flagsClr_mem (mem_singleton_self _)] at on
    cases on
  unfold VifHw.startApEnd
  split
  case isFalse =>
    exact inv.ends some' rfl inv.table inv.running set_of_flagsClr (fun on => (opened _ on).elim)
      (clear_of_clear closed) fun on => inv.waiting_of_stops notStopping (set_of_flagsClr on)
  case isTrue fine =>
    have waiting : s.hw.flags .stopApProc = true → ∃ w ∈ s.vifs, (s.setBeaconing v true).Pending w := fun on => by
      obtain ⟨w, known, other, pending⟩ := guard fine on
      have ne : w ≠ v := fun same => other (by rw [busy, same])
      exact ⟨w, known, pending_setBeaconing ne pending⟩
    obtain ⟨vifs, ifaces, beaconing, flags⟩ := apStarted_fields s v
    have back : ∀ f, f ≠ .apInfoSaved → ((s.apStarted v).hw.flagsClr [.openVifProc]).flags f = true →
        s.hw.flags f = true := fun f ne on => (flags f ne).symm.trans (set_of_flagsClr on)
    refine inv.ends some' rfl (fun i w there => ?_) (fun w running => ?_) (back _ (by decide))
      (fun on => (opened _ on).elim) (eq_false_iff.mpr fun on => ?_) fun on => ?_
    · show _ ∧ (s.apStarted v).hw.ifaces.up w = true ∧ (s.apStarted v).hw.ifaces.vifIndex w = i
      have there : (s.apStarted v).hw.ifaces.vifTable i = some w := there
      rw [ifaces] at there ⊢
      exact inv.table i w there
    · show (s.apStarted v).hw.ifaces.up w = true
      have running : (s.apStarted v).running w = true := running
      unfold VifHw.apStarted at running
      rw [ifaces]
      refine inv.running w ?_
      split at running <;> exact running
    · exact eq_false_iff.mp closed (back _ (by decide) on)
    · obtain ⟨w, known, up, isAp, silent⟩ := waiting (back _ (by decide) on)
      refine ⟨w, ?_, ?_, ?_, ?_⟩
      · show w ∈ (s.apStarted v).vifs
        rw [vifs]
        exact known
      · show (s.apStarted v).hw.ifaces.up w = true
        rw [ifaces]
        exact up
      · show beacons ((s.apStarted v).hw.ifaces.iftype w) = true
        rw [ifaces]
        exact isAp
      · show (s.apStarted v).beaconing w = false
        rw [beaconing]
        exact silent

theorem stopApBegin (idle : s.op = none) (mem : v ∈ s.vifs) (running : s.running v = true)
    (isAp : beacons (s.iftype v) = true) {late : Bool} (stepped : s.stopApBegin v late = some u) : VifInv u := by
  unfold VifHw.stopApBegin at stepped
  split at stepped
  · split at stepped
    · obtain rfl := some.inj stepped
      exact inv
    · cases stepped
  · case isFalse calm =>
    obtain rfl := some.inj stepped
    refine inv.begins idle (eq_false_iff.mpr calm) (by decide) (.inr ⟨.stopApProc, by decide⟩)
      (fun w same => nomatch same) (fun w same => ?_) (fun w type same => nomatch same)
      (fun wrong => absurd wrong (by decide)) (fun wrong => absurd wrong (by decide)) (fun _ => ⟨v, rfl⟩)
    obtain rfl := Op.stopping.inj same
    exact ⟨mem, inv.running v running, isAp⟩

theorem stopApEnd (busy : s.op = some (.stopping v)) : VifInv (s.stopApEnd v) := by
  have some' : s.op ≠ none := by
    rw [busy]
    exact some_ne_none _
  obtain ⟨mem, up, isAp⟩ := inv.stopping v busy
  have waiting : (s.setBeaconing v false).Waiting := by
    refine ⟨v, mem, up, isAp, ?_⟩
    show update s.beaconing v false v = false
    rw [update_self]
  have closed := inv.closes_eq_false fun w same => by
    rw [busy] at same
    cases same
  exact inv.ends some' rfl inv.table inv.running set_of_flagsClr (fun _ => waiting) (clear_of_clear closed)
    fun _ => waiting

/-! ### Interface types -/

theorem changeIfaceEnd {type : Iftype} (busy : s.op = some (.changing v type)) :
    VifInv (s.changeIfaceEnd v type) := by
  have some' : s.op ≠ none := by
    rw [busy]
    exact some_ne_none _
  have down := inv.changing v type busy
  have closed := inv.closes_eq_false fun w same => by
    rw [busy] at same
    cases same
  have opens := inv.waiting_of_opens fun w same => by
    rw [busy] at same
    cases same
  have stops := inv.waiting_of_stops fun w same => by
    rw [busy] at same
    cases same
  unfold VifHw.changeIfaceEnd
  split
  · exact inv.ends some' rfl inv.table inv.running id opens closed stops
  · have waiting : s.Waiting → (((s.flagsClr (s.cleared v type)).retyped v type).done).Waiting := by
      rintro ⟨w, known, up, isAp, silent⟩
      have ne : w ≠ v := fun same => by
        rw [same, down] at up
        cases up
      refine ⟨w, known, up, ?_, silent⟩
      show beacons (update s.hw.ifaces.iftype v type w) = true
      rw [update_of_ne ne]
      exact isAp
    exact inv.ends some' rfl inv.table inv.running set_of_flagsClr (fun on => waiting (opens (set_of_flagsClr on)))
      (clear_of_clear closed) fun on => waiting (stops (set_of_flagsClr on))

/-! ### The run -/

theorem recyBegin (stepped : s.recyBegin = some u) : VifInv u := by
  unfold VifHw.recyBegin at stepped
  split at stepped
  · cases stepped
  · case isFalse free =>
    obtain rfl := some.inj stepped
    obtain ⟨clear, -⟩ := delaying_eq_false.mp (eq_false_iff.mpr free)
    have idle : s.op = none := by
      by_contra busy
      rw [inv.executing busy] at clear
      cases clear
    have back : ∀ f ∈ procFlags, (s.hw.flagsSet [.stateOngoing]).flags f = s.hw.flags f := fun f mem =>
      s.hw.flagsSet_other fun same => by
        rw [List.mem_singleton.mp same] at mem
        exact absurd mem (by decide)
    obtain ⟨opened, closed, stopped⟩ := proc_eq_false.mp clear
    have opened := (back .openVifProc (by decide)).trans opened
    have closed := (back .closeVifProc (by decide)).trans closed
    have stopped := (back .stopApProc (by decide)).trans stopped
    refine ⟨inv.table, inv.running, inv.opening, inv.stopping, inv.changing, fun on => ?_, fun on => ?_,
      fun on => ?_, fun _ => proc_eq_false.mpr ⟨opened, closed, stopped⟩, fun busy => absurd idle busy⟩
    · exact absurd on (eq_false_iff.mp opened)
    · exact absurd on (eq_false_iff.mp closed)
    · exact absurd on (eq_false_iff.mp stopped)

end

/-! What a callback that ends was. -/

theorem perform_opened {e : VifHw.OpenEnv} (stepped : s.perform (.opened e) = some u) :
    ∃ v, s.op = some (.opening v) ∧ s.openEnd v e = u := by
  unfold VifHw.perform at stepped
  dsimp only at stepped
  split at stepped
  · case h_1 v busy => exact ⟨v, busy, some.inj stepped⟩
  · cases stepped

theorem perform_closed (stepped : s.perform .closed = some u) : ∃ v, s.op = some (.closing v) ∧ s.closeEnd v = u := by
  unfold VifHw.perform at stepped
  dsimp only at stepped
  split at stepped
  · case h_1 v busy => exact ⟨v, busy, some.inj stepped⟩
  · cases stepped

theorem perform_apStarted (stepped : s.perform (.apStarted e) = some u) :
    ∃ v, s.op = some (.starting v) ∧ s.startApEnd v e = u := by
  unfold VifHw.perform at stepped
  dsimp only at stepped
  split at stepped
  · case h_1 v busy => exact ⟨v, busy, some.inj stepped⟩
  · cases stepped

theorem perform_apStopped (stepped : s.perform .apStopped = some u) :
    ∃ v, s.op = some (.stopping v) ∧ s.stopApEnd v = u := by
  unfold VifHw.perform at stepped
  dsimp only at stepped
  split at stepped
  · case h_1 v busy => exact ⟨v, busy, some.inj stepped⟩
  · cases stepped

theorem perform_changed (stepped : s.perform .changed = some u) :
    ∃ v type, s.op = some (.changing v type) ∧ s.changeIfaceEnd v type = u := by
  unfold VifHw.perform at stepped
  dsimp only at stepped
  split at stepped
  · case h_1 v type busy => exact ⟨v, type, busy, some.inj stepped⟩
  · cases stepped

theorem step (inv : VifInv s) {a : VifAct} (guard : Guard s a) (stepped : act s a = some u) : VifInv u := by
  unfold act at stepped
  by_cases issued : s.Issued a = true
  case neg =>
    rw [if_neg issued] at stepped
    cases stepped
  rw [if_pos issued] at stepped
  have idle : s.op.isNone = true → s.op = none := Option.isNone_iff_eq_none.mp
  cases a with
  | open_ v busErr late =>
    simp only [VifHw.Issued, and_eq_true, decide_eq_true_eq] at issued
    exact inv.openBegin (idle issued.1.1) issued.1.2 stepped
  | close v late =>
    simp only [VifHw.Issued, and_eq_true, decide_eq_true_eq] at issued
    exact inv.closeBegin (idle issued.1.1) stepped
  | startAp v =>
    simp only [VifHw.Issued, and_eq_true, decide_eq_true_eq] at issued
    obtain rfl := some.inj stepped
    exact inv.begins_unset (idle issued.1.1.1.1) guard (fun w same => nomatch same) (fun w same => nomatch same)
      fun w type same => nomatch same
  | stopAp v late =>
    simp only [VifHw.Issued, and_eq_true, decide_eq_true_eq] at issued
    exact inv.stopApBegin (idle issued.1.1.1) issued.1.1.2 issued.1.2 issued.2 stepped
  | changeIface v type =>
    simp only [VifHw.Issued, and_eq_true, decide_eq_true_eq] at issued
    have stepped : (if s.Refused v type then some s else some { s with op := some (.changing v type) }) = some u :=
      stepped
    by_cases refused : s.Refused v type
    · rw [if_pos refused] at stepped
      obtain rfl := some.inj stepped
      exact inv
    · rw [if_neg refused] at stepped
      obtain rfl := some.inj stepped
      refine inv.begins_unset (idle issued.1) (guard refused) (fun w same => nomatch same)
        (fun w same => nomatch same) fun w other same => ?_
      obtain ⟨rfl, -⟩ := Op.changing.inj same
      exact eq_false_iff.mpr fun up => refused (.inr (.inl up))
  | opened e =>
    obtain ⟨v, busy, rfl⟩ := perform_opened stepped
    exact inv.openEnd busy e
  | closed =>
    obtain ⟨v, busy, rfl⟩ := perform_closed stepped
    exact inv.closeEnd busy guard
  | apStarted e =>
    obtain ⟨v, busy, rfl⟩ := perform_apStarted stepped
    exact inv.startApEnd busy guard
  | apStopped =>
    obtain ⟨v, busy, rfl⟩ := perform_apStopped stepped
    exact inv.stopApEnd busy
  | changed =>
    obtain ⟨v, type, busy, rfl⟩ := perform_changed stepped
    exact inv.changeIfaceEnd busy
  | recyBegin => exact inv.recyBegin stepped
  | recyEnd apRestarted =>
    obtain rfl := some.inj stepped
    have on : s.ongoing = true := issued
    refine inv.clears ?_ _
    by_contra busy
    have set := inv.executing busy
    rw [inv.ongoing on] at set
    cases set

theorem fresh (new : Fresh s) : VifInv s := by
  obtain ⟨clear, calm⟩ := delaying_eq_false.mp new.clear
  obtain ⟨opened, closed, stopped⟩ := proc_eq_false.mp clear
  have gone : ∀ op, s.op = some op → False := fun op same => by
    rw [new.op] at same
    cases same
  refine ⟨fun i v there => ?_, fun v running => ?_, fun v same => (gone _ same).elim,
    fun v same => (gone _ same).elim, fun v type same => (gone _ same).elim, fun on => ?_, fun on => ?_,
    fun on => ?_, fun on => ?_, fun busy => absurd new.op busy⟩
  · rw [new.empty] at there
    cases there
  · rw [new.idle] at running
    cases running
  · exact absurd on (eq_false_iff.mp opened)
  · exact absurd on (eq_false_iff.mp closed)
  · exact absurd on (eq_false_iff.mp stopped)
  · exact absurd on (eq_false_iff.mp calm)

end VifInv

variable {s u : VifHw}

theorem guard_of_guarded {a : VifAct} (stepped : act s a = some u) (guarded : RecyGuarded u) : Guard s a := by
  unfold act at stepped
  by_cases issued : s.Issued a = true
  case neg =>
    rw [if_neg issued] at stepped
    cases stepped
  rw [if_pos issued] at stepped
  cases a with
  | open_ | opened | close | stopAp | apStopped | changed | recyBegin | recyEnd => trivial
  | startAp v =>
    obtain rfl := some.inj stepped
    exact guarded.executing (some_ne_none _)
  | changeIface v type =>
    intro taken
    have stepped : (if s.Refused v type then some s else some { s with op := some (.changing v type) }) = some u :=
      stepped
    rw [if_neg taken] at stepped
    obtain rfl := some.inj stepped
    exact guarded.executing (some_ne_none _)
  | apStarted e =>
    intro fine set
    obtain ⟨v, busy, rfl⟩ := VifInv.perform_apStarted stepped
    by_contra alone
    rw [VifInv.startApEnd_of_fine fine] at guarded
    have all : ((s.apStarted v).flagsClr [.openVifProc]).done.AllBeacon := by
      intro w known pending
      have known : w ∈ (s.apStarted v).vifs := known
      obtain ⟨up, isAp, silent⟩ := pending
      have up : (s.apStarted v).up w = true := up
      have isAp : beacons ((s.apStarted v).iftype w) = true := isAp
      have silent : (s.apStarted v).beaconing w = false := silent
      unfold VifHw.up at up
      unfold VifHw.iftype at isAp
      obtain ⟨vifs, ifaces, beaconing, -⟩ := VifInv.apStarted_fields s v
      rw [vifs] at known
      rw [ifaces] at up isAp
      rw [beaconing] at silent
      have ne : w ≠ v := fun same => by
        rw [same, update_self] at silent
        cases silent
      rw [update_of_ne ne] at silent
      refine alone ⟨w, known, fun same => ?_, up, isAp, silent⟩
      rw [busy] at same
      exact ne (Op.starting.inj (some.inj same)).symm
    have clear : ((s.apStarted v).hw.flagsClr [.openVifProc]).flags .stopApProc = false :=
      (proc_eq_false.mp (guarded.idle rfl all)).2.2
    rw [Hw.flagsClr_other _ (by decide), (VifInv.apStarted_fields s v).2.2.2 _ (by decide), set] at clear
    cases clear
  | closed =>
    intro set
    obtain ⟨v, busy, rfl⟩ := VifInv.perform_closed stepped
    by_contra alone
    have all : (s.closeEnd v).AllBeacon := by
      intro w known pending
      obtain ⟨up, isAp, silent⟩ := pending
      have up : update s.hw.ifaces.up v false w = true := up
      have silent : update s.beaconing v false w = false := silent
      have ne : w ≠ v := fun same => by
        rw [same, update_self] at up
        cases up
      rw [update_of_ne ne] at up silent
      refine alone ⟨w, known, fun same => ?_, up, isAp, silent⟩
      rw [busy] at same
      exact ne (Op.closing.inj (some.inj same)).symm
    have clear : (s.hw.flagsClr ((if beacons (s.iftype v) then [.stopApProc] else []) ++ [.closeVifProc])).flags
        .openVifProc = false := (proc_eq_false.mp (guarded.idle rfl all)).1
    have other : Flag.openVifProc ∉ (if beacons (s.iftype v) then [Flag.stopApProc] else []) ++ [.closeVifProc] := by
      split <;> decide
    rw [Hw.flagsClr_other _ other, set] at clear
    cases clear

/-- **The flags do what they are for** in every run whose steps meet the guard, and after such a run a step
keeps that exactly when it meets the guard too. -/
theorem proc_flags_guard {init : VifHw} (fresh : Fresh init) (reach : (system init).Reachable Guard s) :
    RecyGuarded s ∧ ∀ a t, act s a = some t → (RecyGuarded t ↔ Guard s a) := by
  have inv : VifInv s := reach.invariant (I := VifInv) (VifInv.fresh fresh)
    fun _ _ _ _ inv guard stepped => inv.step guard stepped
  exact ⟨inv.guarded, fun a t stepped => ⟨guard_of_guarded stepped, fun guard => (inv.step guard stepped).guarded⟩⟩

/-- A station and an AP, both down. -/
def twoInterfaces : VifHw where
  hw :=
    { bus := .usb
      flags := fun _ => false
      enabled := true
      isRecyOngoing := false
      busResetOngoing := false
      assocInfo := false
      ifaces :=
        { vifTable := fun _ => none
          ndev := fun _ => true
          iftype := fun v => if v = 0 then .station else .ap
          staList := fun _ => 0
          vifIndex := fun _ => 0
          up := fun _ => false }
      attempts := 0
      restarted := false
      added := [] }
  vifs := [0, 1]

theorem twoInterfaces_fresh : Fresh twoInterfaces := ⟨rfl, fun _ => rfl, fun _ => rfl, rfl⟩

def addedAs (instNbr : Fin nxItfMax) : VifHw.OpenEnv := ⟨0, 0, 0, instNbr, 0⟩

/-- The AP is stopped and closed, opened and started again, and beacons. -/
theorem proc_flags_guard_restarted : ∃ s, s.op = none ∧ s.beaconing 1 = true ∧ RecyGuarded s ∧
    ∀ a t, act s a = some t → (RecyGuarded t ↔ Guard s a) := by
  have reach := System.reachable_of_run (system twoInterfaces) Guard
    [.open_ 0 false false, .opened (addedAs 0), .open_ 1 false false, .opened (addedAs 1), .startAp 1,
      .apStarted ⟨0, .ok⟩, .stopAp 1 false, .apStopped, .close 1 false, .closed, .open_ 1 false false,
      .opened (addedAs 1), .startAp 1, .apStarted ⟨0, .ok⟩] (by decide +kernel)
  obtain ⟨guarded, step⟩ := proc_flags_guard twoInterfaces_fresh reach
  exact ⟨_, by decide +kernel, by decide +kernel, guarded, step⟩

/-- **The flag of a stop stays**: an AP is stopped and started again without a close. It beacons, nothing is
executing, and every recovery is put off. -/
theorem stop_flag_stays : ¬∀ init, Fresh init → ∀ s, (system init).Reachable (fun _ _ => True) s → RecyGuarded s := by
  intro claimed
  have reach := System.reachable_of_run (system twoInterfaces) (fun _ _ => True)
    [.open_ 1 false false, .opened (addedAs 1), .startAp 1, .apStarted ⟨0, .ok⟩, .stopAp 1 false, .apStopped,
      .startAp 1, .apStarted ⟨0, .ok⟩] (by decide +kernel)
  generalize state : (System.run (system twoInterfaces) (fun _ _ => True) _ _).get _ = q at reach
  have guarded := claimed twoInterfaces twoInterfaces_fresh q reach
  have idle : q.op = none := by
    rw [← state]
    decide +kernel
  have all : q.AllBeacon := by
    rw [← state]
    exact of_decide_eq_true (by decide +kernel)
  have set : q.proc = true := by
    rw [← state]
    decide +kernel
  rw [guarded.idle idle all] at set
  cases set

end W2l.Vif
