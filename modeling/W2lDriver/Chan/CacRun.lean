/-
**CAC: the lifecycle in every run.**

* `Clear` — **an event finds nothing in the way**: a request no other CAC, and an interface that is not
  linked; the firmware accepts it with a context of the table; the time is up, or the CAC is cancelled, when
  it was accepted and only one of the two; the interface of a CAC is linked and unlinked by nothing else.
* `Stage`, `CacInv` — what such events keep.
-/

import W2lDriver.Chan.Cac

set_option linter.unusedSectionVars false

namespace W2l.Chan

open Lib (System)
open Option (some.inj)
open List (countP_cons count_cons mem_cons not_mem_nil)

variable {V : Type} [DecidableEq V]

/-- **What an event finds.** -/
def Clear (s : CacHw V) : CacAct V → Prop
  | .startRadarDetection v _ => s.hw.cacVif = none ∧ s.hw.chIndex v = amlChNotSet
  | .answer cfm => ∃ chIdx, cfm = .accepted chIdx ∧ chIdx < nxChanCtxtCnt
  | .expire => s.starting = none
  | .cancel => s.hw.cacVif ≠ none → s.starting = none ∧ s.hw.cacWork = true
  | .unlink v => s.hw.cacVif ≠ some v
  | .link v _ _ => s.hw.cacVif ≠ some v
  | _ => True

/-- A CAC that was accepted, with its interface linked. -/
structure Running (s : CacHw V) (v : V) : Prop where
  vif : s.hw.cacVif = some v
  linked : s.hw.chIndex v < nxChanCtxtCnt
  starting : s.starting = none
  accepted : s.cac ∈ s.accepted
  unlinks : unlinks s.cac s.log = 0

/-- **How far the last CAC is.** -/
inductive Stage (s : CacHw V) : Prop
  | idle (vif : s.hw.cacVif = none) (work : s.hw.cacWork = false) (working : s.working = false)
      (cancelling : s.cancelling = 0) (starting : s.starting = none)
  | starting (v : V) (chandef : Chandef) (vif : s.hw.cacVif = some v) (notSet : s.hw.chIndex v = amlChNotSet)
      (waits : s.starting = some (v, chandef)) (work : s.hw.cacWork = true) (armed : s.armed = s.cac)
      (working : s.working = false) (cancelling : s.cancelling = 0) (new : s.cac ∉ s.accepted)
      (ends : ends s.cac s.log = 0) (unlinks : unlinks s.cac s.log = 0)
  | waiting (v : V) (running : Running s v) (work : s.hw.cacWork = true) (armed : s.armed = s.cac)
      (working : s.working = false) (cancelling : s.cancelling = 0) (ends : ends s.cac s.log = 0)
  | finishing (v : V) (running : Running s v) (work : s.hw.cacWork = false) (working : s.working = true)
      (cancelling : s.cancelling = 0) (ends : ends s.cac s.log = 1)
  | cancelling (v : V) (running : Running s v) (work : s.hw.cacWork = false) (working : s.working = false)
      (one : s.cancelling = 1) (ends : ends s.cac s.log = 0)

/-- **The invariant.** -/
structure CacInv (s : CacHw V) : Prop where
  stage : Stage s
  past : ∀ cac ∈ s.accepted, cac ≤ s.cac ∧ (¬ s.Ongoing cac → ends cac s.log = 1 ∧ unlinks cac s.log = 1)
  later : ∀ cac, s.cac < cac → ends cac s.log = 0 ∧ unlinks cac s.log = 0
  finished : ∀ cac armed, .finished cac armed ∈ s.log → cac ∈ s.accepted ∧ armed = cac ∧ .aborted cac ∉ s.log
  declined : s.declined = []
  inside : s.stray = 0
  alive : s.crashed = false

/-! ### The log -/

section Log

variable {cac c armed : ℕ} {log : List CacEvent}

theorem not_aborted (none : ends cac log = 0) : .aborted cac ∉ log := fun mem =>
  absurd (List.countP_eq_zero.mp none _ mem) (not_not.mpr (decide_eq_true rfl))

theorem not_finished (none : ends cac log = 0) : .finished cac armed ∉ log := fun mem =>
  absurd (List.countP_eq_zero.mp none _ mem) (not_not.mpr (decide_eq_true rfl))

theorem ends_finished : ends c (.finished cac armed :: log) = ends c log + if cac = c then 1 else 0 := by
  unfold ends
  rw [countP_cons]
  simp only [CacEvent.ends, decide_eq_true_eq]

theorem ends_aborted : ends c (.aborted cac :: log) = ends c log + if cac = c then 1 else 0 := by
  unfold ends
  rw [countP_cons]
  simp only [CacEvent.ends, decide_eq_true_eq]

theorem ends_unlinked : ends c (.unlinked cac :: log) = ends c log := by
  unfold ends
  rw [countP_cons]
  rfl

theorem unlinks_unlinked : unlinks c (.unlinked cac :: log) = unlinks c log + if cac = c then 1 else 0 := by
  unfold unlinks
  rw [count_cons]
  simp only [beq_iff_eq, CacEvent.unlinked.injEq]

theorem unlinks_finished : unlinks c (.finished cac armed :: log) = unlinks c log := by
  unfold unlinks
  rw [count_cons]
  rfl

theorem unlinks_aborted : unlinks c (.aborted cac :: log) = unlinks c log := by
  unfold unlinks
  rw [count_cons]
  rfl

end Log

/-! ### The events -/

variable {s : CacHw V} {v : V}

theorem chanctxUnlink_cacVif (s : ChanHw V) (v : V) : (s.chanctxUnlink v).cacVif = s.cacVif := by
  unfold ChanHw.chanctxUnlink
  split <;> rfl

theorem chanctxUnlink_cacWork (s : ChanHw V) (v : V) : (s.chanctxUnlink v).cacWork = s.cacWork := by
  unfold ChanHw.chanctxUnlink
  split <;> rfl

theorem chanctxUnlink_chIndex (s : ChanHw V) {v w : V} (other : w ≠ v) :
    (s.chanctxUnlink v).chIndex w = s.chIndex w := by
  unfold ChanHw.chanctxUnlink
  split
  · rfl
  · exact Function.update_of_ne other ..

theorem chanctxLink_cacVif (s : ChanHw V) (v : V) (chIdx : BitVec 8) (chandef : Option Chandef) :
    (s.chanctxLink v chIdx chandef).cacVif = s.cacVif := by
  unfold ChanHw.chanctxLink
  split <;> rfl

theorem chanctxLink_cacWork (s : ChanHw V) (v : V) (chIdx : BitVec 8) (chandef : Option Chandef) :
    (s.chanctxLink v chIdx chandef).cacWork = s.cacWork := by
  unfold ChanHw.chanctxLink
  split <;> rfl

theorem chanctxLink_chIndex (s : ChanHw V) {v w : V} (other : w ≠ v) (chIdx : BitVec 8)
    (chandef : Option Chandef) : (s.chanctxLink v chIdx chandef).chIndex w = s.chIndex w := by
  unfold ChanHw.chanctxLink
  split
  · rfl
  · exact Function.update_of_ne other ..

namespace CacInv

section

variable (inv : CacInv s)

include inv

theorem elsewhere {hw : ChanHw V} (vif : hw.cacVif = s.hw.cacVif)
    (work : hw.cacWork = s.hw.cacWork)
    (index : ∀ v, s.hw.cacVif = some v → hw.chIndex v = s.hw.chIndex v) : CacInv { s with hw := hw } := by
  have still : ∀ v, Running s v → Running { s with hw := hw } v := fun v running =>
    ⟨vif.trans running.vif, (index v running.vif).symm ▸ running.linked, running.starting, running.accepted,
      running.unlinks⟩
  refine ⟨?_, fun cac mem => ⟨(inv.past cac mem).1, fun passed => (inv.past cac mem).2 fun ongoing => passed ?_⟩,
    inv.later, inv.finished, inv.declined, inv.inside, inv.alive⟩
  · cases inv.stage with
    | idle none work' working cancelling starting =>
      exact .idle (vif.trans none) (work.trans work') working cancelling starting
    | starting v chandef some notSet waits work' armed working cancelling new ends unlinks =>
      exact .starting v chandef (vif.trans some) ((index v some).trans notSet) waits (work.trans work') armed working
        cancelling new ends unlinks
    | waiting v running work' armed working cancelling ends =>
      exact .waiting v (still v running) (work.trans work') armed working cancelling ends
    | finishing v running work' working cancelling ends =>
      exact .finishing v (still v running) (work.trans work') working cancelling ends
    | cancelling v running work' working one ends =>
      exact .cancelling v (still v running) (work.trans work') working one ends
  · exact ⟨ongoing.1, fun none => ongoing.2 (vif.symm.trans none)⟩

theorem unlink (other : s.hw.cacVif ≠ some v) : CacInv (s.unlink v) := by
  have same : s.unlink v = { s with hw := s.hw.chanctxUnlink v } := by
    unfold CacHw.unlink
    rw [if_neg fun both => other both.1]
  rw [same]
  refine inv.elsewhere (chanctxUnlink_cacVif _ _) (chanctxUnlink_cacWork _ _) fun w here => ?_
  refine chanctxUnlink_chIndex _ ?_
  rintro rfl
  exact other here

theorem link (other : s.hw.cacVif ≠ some v) (chIdx : BitVec 8) (chandef : Option Chandef) :
    CacInv { s with hw := s.hw.chanctxLink v chIdx chandef } := by
  refine inv.elsewhere (chanctxLink_cacVif ..) (chanctxLink_cacWork ..) fun w here => ?_
  refine chanctxLink_chIndex _ ?_ ..
  rintro rfl
  exact other here

theorem all_past (none : s.hw.cacVif = none) : ∀ cac ∈ s.accepted,
    cac ≤ s.cac ∧ ends cac s.log = 1 ∧ unlinks cac s.log = 1 := fun cac mem =>
  ⟨(inv.past cac mem).1, (inv.past cac mem).2 fun ongoing => ongoing.2 none⟩

theorem start (none : s.hw.cacVif = none) (notSet : s.hw.chIndex v = amlChNotSet)
    (chandef : Chandef) : CacInv (s.start v chandef) := by
  obtain ⟨work, working, cancelling⟩ : s.hw.cacWork = false ∧ s.working = false ∧ s.cancelling = 0 := by
    cases inv.stage with
    | idle _ work working cancelling _ => exact ⟨work, working, cancelling⟩
    | starting w _ vif | waiting w running | finishing w running | cancelling w running =>
      first
        | exact absurd (none.symm.trans vif) nofun
        | exact absurd (none.symm.trans running.vif) nofun
  have armed : (s.start v chandef).armed = s.cac + 1 := by
    unfold CacHw.start
    rw [work]
    rfl
  obtain ⟨noEnd, noUnlink⟩ := inv.later (s.cac + 1) (Nat.lt_succ_self _)
  refine ⟨?_, fun cac mem => ?_, fun cac after => ?_, inv.finished, inv.declined, inv.inside, inv.alive⟩
  · refine .starting v chandef rfl notSet rfl rfl armed working cancelling (fun mem => ?_) noEnd noUnlink
    exact absurd (inv.past _ mem).1 (Nat.not_succ_le_self _)
  · obtain ⟨before, passed⟩ := inv.all_past none cac mem
    exact ⟨Nat.le_succ_of_le before, fun _ => passed⟩
  · exact inv.later cac (Nat.lt_of_succ_lt after)

theorem answer {chandef : Chandef} (waits : s.starting = some (v, chandef)) {chIdx : BitVec 8}
    (inside : chIdx < nxChanCtxtCnt) : CacInv (s.answer v chandef (.accepted chIdx)) := by
  cases inv.stage with
  | idle _ _ _ _ starting => exact absurd (starting.symm.trans waits) nofun
  | waiting _ running => exact absurd (running.starting.symm.trans waits) nofun
  | finishing _ running => exact absurd (running.starting.symm.trans waits) nofun
  | cancelling _ running => exact absurd (running.starting.symm.trans waits) nofun
  | starting w d vif notSet waits' work armed working cancelling new ends unlinks =>
    obtain ⟨rfl, rfl⟩ := Prod.mk.inj (some.inj (waits'.symm.trans waits))
    have linked : (s.hw.chanctxLink w chIdx (some d)).chIndex w = chIdx := by
      unfold ChanHw.chanctxLink
      rw [if_neg (BitVec.not_le.mpr inside)]
      exact Function.update_self ..
    have still := (chanctxLink_cacVif s.hw w chIdx (some d)).trans vif
    refine ⟨.waiting w ⟨still, linked.symm ▸ inside, rfl, List.mem_cons_self, unlinks⟩
      ((chanctxLink_cacWork ..).trans work) armed working cancelling ends, fun cac mem => ?_, inv.later,
      fun cac armed mem => ?_, inv.declined, inv.inside, inv.alive⟩
    · rcases mem_cons.mp mem with rfl | mem
      · exact ⟨le_rfl, fun passed => absurd ⟨rfl, fun gone => nomatch still.symm.trans gone⟩ passed⟩
      · refine ⟨(inv.past cac mem).1, fun _ => (inv.past cac mem).2 fun ongoing => new ?_⟩
        exact ongoing.1 ▸ mem
    · obtain ⟨accepted, own, kept⟩ := inv.finished cac armed mem
      exact ⟨List.mem_cons_of_mem _ accepted, own, kept⟩

theorem expire (work : s.hw.cacWork = true) (answered : s.starting = none) : CacInv s.expire := by
  cases inv.stage with
  | idle _ work' => exact absurd (work'.symm.trans work) nofun
  | finishing _ _ work' => exact absurd (work'.symm.trans work) nofun
  | cancelling _ _ work' => exact absurd (work'.symm.trans work) nofun
  | starting _ _ _ _ waits => exact absurd (answered.symm.trans waits) nofun
  | waiting w running work' armed working cancelling none =>
    have after : s.expire = { s with
        hw := { s.hw with cacWork := false }
        log := .finished s.cac s.armed :: s.log
        working := true } := by
      unfold CacHw.expire
      dsimp only
      split
      · case h_1 none => exact absurd (none.symm.trans running.vif) nofun
      · case h_2 v here =>
        obtain rfl : v = w := some.inj (here.symm.trans running.vif)
        rw [CacHw.index_of_linked]
        exact running.linked
    rw [after]
    have others : ∀ c, c ≠ s.cac → ends c (.finished s.cac s.armed :: s.log) = ends c s.log := fun c other => by
      rw [ends_finished, if_neg (Ne.symm other), Nat.add_zero]
    refine ⟨.finishing w ⟨running.vif, running.linked, running.starting, running.accepted, ?_⟩ rfl rfl cancelling ?_,
      fun cac mem => ⟨(inv.past cac mem).1, fun passed => ?_⟩, fun cac later => ?_, fun cac armed' mem => ?_,
      inv.declined, inv.inside, inv.alive⟩
    · rw [unlinks_finished]
      exact running.unlinks
    · rw [ends_finished, none, if_pos rfl]
    · have other : cac ≠ s.cac := by
        rintro rfl
        exact passed ⟨rfl, fun gone => nomatch running.vif.symm.trans gone⟩
      rw [others cac other, unlinks_finished]
      exact (inv.past cac mem).2 passed
    · rw [others cac (Nat.ne_of_gt later), unlinks_finished]
      exact inv.later cac later
    · rcases mem_cons.mp mem with same | mem
      · obtain ⟨rfl, rfl⟩ := CacEvent.finished.inj same
        refine ⟨running.accepted, armed, fun mem => ?_⟩
        rcases mem_cons.mp mem with clash | mem
        · cases clash
        · exact not_aborted none mem
      · obtain ⟨accepted, own, kept⟩ := inv.finished cac armed' mem
        refine ⟨accepted, own, fun mem => ?_⟩
        rcases mem_cons.mp mem with clash | mem
        · cases clash
        · exact kept mem

theorem ended (running : Running s v) {t : CacHw V} {log : List CacEvent}
    (hw : t.hw = { s.hw.chanctxUnlink v with cacVif := none }) (work : s.hw.cacWork = false)
    (logged : t.log = .unlinked s.cac :: log) (working : t.working = false) (cancelling : t.cancelling = 0)
    (starting : t.starting = none) (cac : t.cac = s.cac) (accepted : t.accepted = s.accepted)
    (once : ends s.cac log = 1) (kept : ∀ c, c ≠ s.cac → ends c log = ends c s.log)
    (unlinked : ∀ c, unlinks c log = unlinks c s.log)
    (finished : ∀ c armed, .finished c armed ∈ log → c ∈ s.accepted ∧ armed = c ∧ .aborted c ∉ log)
    (declined : t.declined = s.declined) (stray : t.stray = s.stray) (crashed : t.crashed = s.crashed) :
    CacInv t := by
  have vif : t.hw.cacVif = none := by rw [hw]
  have endsOf : ∀ c, ends c t.log = ends c log := fun c => by rw [logged, ends_unlinked]
  have unlinksOf : ∀ c, unlinks c t.log = unlinks c s.log + if s.cac = c then 1 else 0 := fun c => by
    rw [logged, unlinks_unlinked, unlinked]
  refine ⟨.idle vif ?_ working cancelling starting, fun c mem => ?_, fun c later => ?_, fun c armed mem => ?_,
    declined.trans inv.declined, stray.trans inv.inside, crashed.trans inv.alive⟩
  · rw [hw]
    exact (chanctxUnlink_cacWork ..).trans work
  · rw [accepted] at mem
    rw [cac, endsOf, unlinksOf]
    refine ⟨(inv.past c mem).1, fun _ => ?_⟩
    by_cases same : c = s.cac
    · subst same
      rw [if_pos rfl, running.unlinks]
      exact ⟨once, rfl⟩
    · rw [kept c same, if_neg (Ne.symm same), Nat.add_zero]
      exact (inv.past c mem).2 fun ongoing => same ongoing.1.symm
  · rw [cac] at later
    have other : c ≠ s.cac := Nat.ne_of_gt later
    rw [endsOf, unlinksOf, kept c other, if_neg (Ne.symm other), Nat.add_zero]
    exact inv.later c later
  · rw [logged] at mem ⊢
    rw [accepted]
    rcases mem_cons.mp mem with clash | mem
    · cases clash
    · obtain ⟨own, same, kept⟩ := finished c armed mem
      refine ⟨own, same, fun mem => ?_⟩
      rcases mem_cons.mp mem with clash | mem
      · cases clash
      · exact kept mem

end

theorem unlink_running (running : Running s v) {t : CacHw V} (hw : t.hw = s.hw) :
    t.unlink v = { t with
      hw := s.hw.chanctxUnlink v
      log := .unlinked t.cac :: t.log } := by
  unfold CacHw.unlink
  rw [hw, if_pos ⟨running.vif, lt_ne_notSet running.linked⟩]

section

variable (inv : CacInv s)

include inv

theorem workEnd (works : s.working = true) : CacInv s.workEnd := by
  cases inv.stage with
  | idle _ _ working => exact absurd (working.symm.trans works) nofun
  | starting _ _ _ _ _ _ _ working => exact absurd (working.symm.trans works) nofun
  | waiting _ _ _ _ working => exact absurd (working.symm.trans works) nofun
  | cancelling _ _ _ working => exact absurd (working.symm.trans works) nofun
  | finishing w running work working cancelling once =>
    unfold CacHw.workEnd
    dsimp only
    rw [running.vif]
    dsimp only
    rw [unlink_running (t := { s with working := false }) running rfl]
    exact inv.ended running rfl work rfl rfl cancelling running.starting rfl rfl once (fun _ _ => rfl) (fun _ => rfl)
      inv.finished rfl rfl rfl

theorem cancel (clear : s.hw.cacVif ≠ none → s.starting = none ∧ s.hw.cacWork = true) : CacInv s.cancel := by
  unfold CacHw.cancel
  split
  · exact inv
  case h_2 w here =>
  obtain ⟨answered, work⟩ := clear (here ▸ nofun)
  cases inv.stage with
  | idle none => exact absurd (none.symm.trans here) nofun
  | starting _ _ _ _ waits => exact absurd (answered.symm.trans waits) nofun
  | finishing _ _ work' => exact absurd (work'.symm.trans work) nofun
  | cancelling _ _ work' => exact absurd (work'.symm.trans work) nofun
  | waiting v running _ armed working cancelling none =>
    obtain rfl : v = w := some.inj (running.vif.symm.trans here)
    rw [if_pos work, CacHw.index_of_linked running.linked]
    refine ⟨.cancelling v ⟨running.vif, running.linked, running.starting, running.accepted, running.unlinks⟩ rfl working
      ?_ none, inv.past, inv.later, inv.finished, inv.declined, inv.inside, inv.alive⟩
    show s.cancelling + 1 = 1
    rw [cancelling]

theorem cancelEnd (some : 0 < s.cancelling) : CacInv s.cancelEnd := by
  have contra : s.cancelling = 0 → False := fun none => absurd (none ▸ some) (Nat.lt_irrefl 0)
  cases inv.stage with
  | idle _ _ _ cancelling => exact (contra cancelling).elim
  | starting _ _ _ _ _ _ _ _ cancelling => exact (contra cancelling).elim
  | waiting _ _ _ _ _ cancelling => exact (contra cancelling).elim
  | finishing _ _ _ _ cancelling => exact (contra cancelling).elim
  | cancelling w running work working one none =>
    unfold CacHw.cancelEnd
    dsimp only
    rw [running.vif]
    dsimp only
    rw [unlink_running (t := { s with
      cancelling := s.cancelling - 1
      log := .aborted s.cac :: s.log }) running rfl]
    refine inv.ended running rfl work rfl working (show s.cancelling - 1 = 0 by rw [one]) running.starting rfl rfl ?_
      (fun c other => ?_) (fun _ => unlinks_aborted) (fun c armed mem => ?_) rfl rfl rfl
    · rw [ends_aborted, none, if_pos rfl]
    · rw [ends_aborted, if_neg (Ne.symm other), Nat.add_zero]
    · rcases mem_cons.mp mem with clash | mem
      · cases clash
      obtain ⟨accepted, own, kept⟩ := inv.finished c armed mem
      refine ⟨accepted, own, fun aborted => ?_⟩
      rcases mem_cons.mp aborted with same | aborted
      · obtain rfl := CacEvent.aborted.inj same
        exact not_finished none mem
      · exact kept aborted

theorem act {a : CacAct V} (clear : Clear s a) {t : CacHw V} (stepped : s.act a = some t) : CacInv t := by
  have guarded : ∀ {p : Prop} [Decidable p] {u : CacHw V}, (if p then some u else none) = some t → p ∧ u = t :=
    fun {p _ u} eq => by
      split at eq
      · case isTrue holds => exact ⟨holds, some.inj eq⟩
      · cases eq
  cases a with
  | startRadarDetection v chandef =>
    obtain ⟨-, rfl⟩ := guarded stepped
    exact inv.start clear.1 clear.2 chandef
  | answer cfm =>
    obtain ⟨chIdx, rfl, inside⟩ := clear
    unfold CacHw.act at stepped
    dsimp only at stepped
    split at stepped
    · cases stepped
    · case h_2 v chandef waits =>
      obtain rfl := some.inj stepped
      exact inv.answer waits inside
  | expire =>
    obtain ⟨runs, rfl⟩ := guarded stepped
    exact inv.expire runs.1 clear
  | workEnd =>
    obtain ⟨works, rfl⟩ := guarded stepped
    exact inv.workEnd works
  | cancel =>
    obtain rfl := some.inj stepped
    exact inv.cancel clear
  | cancelEnd =>
    obtain ⟨one, rfl⟩ := guarded stepped
    exact inv.cancelEnd one
  | unlink v =>
    obtain rfl := some.inj stepped
    exact inv.unlink clear
  | link v chIdx chandef =>
    obtain rfl := some.inj stepped
    exact inv.link clear chIdx (some chandef)

end

theorem init : CacInv ({} : CacHw V) where
  stage := .idle rfl rfl rfl rfl rfl
  past := fun _ mem => absurd mem not_mem_nil
  later := fun _ _ => ⟨rfl, rfl⟩
  finished := fun _ _ mem => absurd mem not_mem_nil
  declined := rfl
  inside := rfl
  alive := rfl

theorem lifecycle (inv : CacInv s) : CacLifecycle s where
  finished := inv.finished
  ended := fun cac mem => by
    by_cases ongoing : s.Ongoing cac
    · obtain ⟨rfl, set⟩ := ongoing
      cases inv.stage with
      | idle none => exact absurd none set
      | starting _ _ _ _ _ _ _ _ _ new => exact absurd mem new
      | waiting _ _ _ _ _ _ none => exact .inr ⟨none, rfl, set⟩
      | finishing _ _ _ _ _ once => exact .inl once
      | cancelling _ _ _ _ _ none => exact .inr ⟨none, rfl, set⟩
    · exact .inl ((inv.past cac mem).2 ongoing).1
  declined := fun mem => by
    rw [inv.declined] at mem
    exact absurd mem not_mem_nil
  unlinked := fun cac mem => by
    split
    · case isTrue ongoing =>
      obtain ⟨rfl, set⟩ := ongoing
      cases inv.stage with
      | idle none => exact absurd none set
      | starting _ _ _ _ _ _ _ _ _ new => exact absurd mem new
      | waiting _ running | finishing _ running | cancelling _ running => exact running.unlinks
    · case isFalse passed => exact ((inv.past cac mem).2 passed).2
  inside := inv.inside
  alive := inv.alive

end CacInv

/-! ### Runs -/

/-- **The lifecycle of the CACs** in every run of events that find nothing in the way. -/
theorem cac_lifecycle {s : CacHw V} (reach : (cacSystem V).Reachable Clear s) : CacLifecycle s :=
  CacInv.lifecycle <| reach.invariant (I := CacInv) CacInv.init fun _ _ _ _ inv clear stepped => inv.act clear stepped

/-- A CAC that is accepted and finishes, and one that is cancelled. -/
theorem cac_lifecycle_both : ∃ s : CacHw Unit,
    s.log = [.unlinked 2, .aborted 2, .unlinked 1, .finished 1 1] ∧ CacLifecycle s := by
  have started := System.Reachable.step (S := cacSystem Unit) .init
    (show Clear _ (.startRadarDetection () {}) from ⟨rfl, rfl⟩) rfl
  have accepted := started.step (show Clear _ (.answer (.accepted 0)) from ⟨0, rfl, by decide⟩) rfl
  have finished := (accepted.step (show Clear _ .expire from rfl) rfl).step (show Clear _ .workEnd from trivial) rfl
  have again := (finished.step (show Clear _ (.startRadarDetection () {}) from ⟨rfl, rfl⟩) rfl).step
    (show Clear _ (.answer (.accepted 0)) from ⟨0, rfl, by decide⟩) rfl
  have cancelled := (again.step (show Clear _ .cancel from fun _ => ⟨rfl, rfl⟩) rfl).step
    (show Clear _ .cancelEnd from trivial) rfl
  exact ⟨_, rfl, cac_lifecycle cancelled⟩

/-- **A request that is refused leaves its work**, which reports the CAC finished. -/
theorem refused_cac_finishes : ¬ ∀ s : CacHw Unit,
    (cacSystem Unit).Reachable (fun _ _ => True) s → CacLifecycle s := by
  intro all
  have reach := System.reachable_of_run (cacSystem Unit) (fun _ (_ : CacAct Unit) => True)
    [.startRadarDetection () {}, .answer .refused, .expire] rfl
  have accepted := ((all _ reach).finished 1 1 List.mem_cons_self).1
  exact absurd accepted List.not_mem_nil

end W2l.Chan
