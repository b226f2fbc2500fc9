/-
**Recovery: what taking the interfaces down and adding them again leaves.**

Both go through the slots in order and stop at the first error. A list of stations is emptied only as often as
the removals are answered.

* `Resets`, `resetAll`, `ResetEnds` with `vifReset_spec`, `vifReset_isSome` — the reset.
* `Restart.Reports`, `Restart.AddsAgain`, `Restart.Ends` with `vifRestart_spec`, `vifRestart_isSome` —
  **the restart**: when it reports success, which interfaces it has added then, and when it ends.
-/

import W2lDriver.Recy.Interfaces

namespace W2l.Recy

open Filter
open Gate (Iftype)
open Lib (eventually_drained)
open Option (isSome_map some.inj some_ne_none)

/-! ### What the reset leaves -/

/-- The interfaces in the slots are taken down. -/
def resetAll : List ℕ → Ifaces → Ifaces
  | [], f => f
  | i :: rest, f => match f.vifTable i with
    | none => resetAll rest f
    | some v => resetAll rest (f.reset v)

def Resets (slots : List ℕ) (f : Ifaces) : Prop :=
  ∀ i ∈ slots, ∀ v, f.vifTable i = some v → f.ndev v = true

def ResetEnds (s : Setting) (answers : ℕ → ℕ → Removal) : List ℕ → Ifaces → Prop
  | [], _ => True
  | i :: rest, f => match f.vifTable i with
    | none => ResetEnds s answers rest f
    | some v => f.ndev v = true →
      (f.iftype v = .ap → Empties s (answers v) (f.staList v)) ∧ ResetEnds s answers rest (f.reset v)

section Reset

variable {turns : ℕ} {answers : ℕ → ℕ → Removal} {slots : List ℕ} {hw hw' : Hw} {ret : Int}

theorem resetVif_eq {v : ℕ} {answers : ℕ → Removal} (ended : resetVif turns answers v hw = some hw') :
    hw' = { hw with ifaces := hw.ifaces.reset v } := by
  unfold resetVif at ended
  split at ended
  · exact absurd ended (some_ne_none _).symm
  · exact (some.inj ended).symm

theorem vifReset_spec (ended : vifReset turns answers slots hw = some (hw', ret)) :
    ∃ f, hw' = { hw with ifaces := f } ∧ (ret = 0 ↔ Resets slots hw.ifaces) ∧
      (ret = 0 → f = resetAll slots hw.ifaces) := by
  induction slots generalizing hw with
  | nil =>
    obtain ⟨rfl, rfl⟩ := Prod.mk.inj (some.inj ended)
    exact ⟨hw.ifaces, rfl, iff_of_true rfl fun _ member => absurd member List.not_mem_nil, fun _ => rfl⟩
  | cons i rest ih =>
    unfold vifReset at ended
    split at ended
    case h_1 empty =>
      obtain ⟨f, same, code, all⟩ := ih ended
      refine ⟨f, same, ?_, ?_⟩
      · rw [code]
        refine ⟨fun resets j member v found => ?_, fun resets j member => resets j (.tail i member)⟩
        rcases List.mem_cons.mp member with rfl | member
        · exact absurd (found.symm.trans empty) (some_ne_none v)
        · exact resets j member v found
      · rw [resetAll, empty]
        exact all
    case h_2 v found =>
      split at ended
      case isTrue gone =>
        obtain ⟨rfl, rfl⟩ := Prod.mk.inj (some.inj ended)
        refine ⟨hw.ifaces, rfl, iff_of_false (by decide) fun resets => ?_, fun zero => by cases zero⟩
        exact absurd (resets i List.mem_cons_self v found) (Bool.eq_false_iff.mp gone)
      case isFalse there =>
        split at ended
        case h_1 => exact absurd ended (some_ne_none _).symm
        case h_2 hw₁ down =>
          obtain rfl := resetVif_eq down
          obtain ⟨f, same, code, all⟩ := ih ended
          refine ⟨f, same, ?_, ?_⟩
          · rw [code]
            refine ⟨fun resets j member u at_ => ?_, fun resets j member => resets j (.tail i member)⟩
            rcases List.mem_cons.mp member with rfl | member
            · obtain rfl : v = u := some.inj (found.symm.trans at_)
              exact Bool.eq_true_of_not_eq_false there
            · exact resets j member u at_
          · rw [resetAll, found]
            exact all

theorem ResetEnds.of_isSome (ended : (vifReset turns answers slots hw).isSome) :
    ResetEnds hw.setting answers slots hw.ifaces := by
  induction slots generalizing hw with
  | nil => trivial
  | cons i rest ih =>
    unfold vifReset at ended
    split at ended
    case h_1 empty =>
      rw [ResetEnds, empty]
      exact ih ended
    case h_2 v found =>
      rw [ResetEnds, found]
      intro there
      rw [if_neg (fun gone => Bool.noConfusion (there.symm.trans gone))] at ended
      split at ended
      case h_1 => exact absurd ended Bool.false_ne_true
      case h_2 hw₁ down =>
        obtain rfl := resetVif_eq down
        refine ⟨fun isAp => ?_, ih ended⟩
        unfold resetVif at down
        split at down
        · exact absurd down (some_ne_none _).symm
        case isFalse kept =>
          exact .of_drained (Bool.eq_true_of_not_eq_false fun running => kept ⟨isAp, running⟩)

theorem vifReset_isSome {s : Setting} {f : Ifaces} (ends : ResetEnds s answers slots f) :
    ∀ᶠ turns in atTop, ∀ hw : Hw, hw.setting = s → hw.ifaces = f → (vifReset turns answers slots hw).isSome := by
  induction slots generalizing f with
  | nil => exact .of_forall fun _ _ _ _ => rfl
  | cons i rest ih =>
    unfold ResetEnds at ends
    split at ends
    case h_1 empty =>
      refine (ih ends).mono fun turns rest hw setting ifaces => ?_
      unfold vifReset
      rw [ifaces, empty]
      exact rest hw setting ifaces
    case h_2 v found =>
      by_cases there : f.ndev v = true
      · obtain ⟨empties, later⟩ := ends there
        have lists : ∀ᶠ turns in atTop, ∀ hw : Hw, hw.setting = s → hw.ifaces = f →
            resetVif turns (answers v) v hw = some { hw with ifaces := hw.ifaces.reset v } := by
          by_cases isAp : f.iftype v = .ap
          · refine (eventually_drained (empties isAp)).mono fun turns done hw setting ifaces => ?_
            unfold resetVif
            rw [setting, ifaces, done, if_neg fun both => Bool.noConfusion both.2]
          · refine .of_forall fun turns hw setting ifaces => ?_
            unfold resetVif
            rw [ifaces, if_neg fun both => isAp both.1]
        refine (lists.and (ih later)).mono fun turns both hw setting ifaces => ?_
        unfold vifReset
        rw [ifaces, found]
        dsimp only
        rw [if_neg fun gone => Bool.noConfusion (there.symm.trans gone), both.1 hw setting ifaces]
        exact both.2 _ setting (congrArg (Ifaces.reset · v) ifaces)
      · refine .of_forall fun turns hw setting ifaces => ?_
        unfold vifReset
        rw [ifaces, found]
        dsimp only
        rw [if_pos (Bool.eq_false_iff.mpr there)]
        rfl

end Reset

/-! ### What the restart leaves -/

namespace Restart

variable (a : Restart) (s : Setting)

def Reports : List ℕ → Locals → Ifaces → Prop
  | [], _, _ => True
  | i :: rest, l, f => match f.vifTable i with
    | none => Reports rest l f
    | some v => a.Accepted s i v l f ∧ Reports rest (a.localsNext s i v l f) (a.ifacesNext s i v l f)

/-- A slot holds `u` when the loop comes to it, and the request for it is not lost. -/
def AddsAgain (u : ℕ) : List ℕ → Locals → Ifaces → Prop
  | [], _, _ => False
  | i :: rest, l, f => match f.vifTable i with
    | none => AddsAgain u rest l f
    | some v => v = u ∧ a.Reached s i ∨ AddsAgain u rest (a.localsNext s i v l f) (a.ifacesNext s i v l f)

/-- The lists that the restart comes to are emptied. -/
def Ends : List ℕ → Locals → Ifaces → Prop
  | [], _, _ => True
  | i :: rest, l, f => match f.vifTable i with
    | none => Ends rest l f
    | some v => (a.Removes s i v l f → Empties s (a.removal v) (f.staList v)) ∧
      (a.Accepted s i v l f → Ends rest (a.localsNext s i v l f) (a.ifacesNext s i v l f))

end Restart

/-- What the restart does not change. -/
structure Keeps (hw hw' : Hw) : Prop where
  setting : hw'.setting = hw.setting
  fw : hw'.flags .fwOngoing = hw.flags .fwOngoing
  attempts : hw'.attempts = hw.attempts
  restarted : hw'.restarted = hw.restarted

namespace Keeps

variable {hw hw₁ hw' : Hw}

theorem refl (hw : Hw) : Keeps hw hw := ⟨rfl, rfl, rfl, rfl⟩

theorem trans (one : Keeps hw hw₁) (two : Keeps hw₁ hw') : Keeps hw hw' :=
  ⟨two.setting.trans one.setting, two.fw.trans one.fw, two.attempts.trans one.attempts,
    two.restarted.trans one.restarted⟩

end Keeps

section RestartRun

variable {turns i v : ℕ} {a : Restart} {l l' : Locals} {hw hw' : Hw} {ret : Int}

theorem delStations_eq {answers : ℕ → Removal} (ended : delStations turns answers v hw = some hw') :
    hw' = { hw with ifaces := hw.ifaces.emptied v } ∧ Empties hw.setting answers (hw.ifaces.staList v) := by
  unfold delStations at ended
  split at ended
  case isTrue done => exact ⟨(some.inj ended).symm, .of_drained done⟩
  case isFalse => exact absurd ended (some_ne_none _).symm

/-- What restarting an interface leaves after it is added. -/
structure AfterAdd (a : Restart) (i v : ℕ) (l : Locals) (hw : Hw) (l' : Locals) (hw' : Hw) (ret : Int) : Prop where
  keeps : Keeps hw hw'
  added : hw'.added = hw.added
  code : ret = 0 ↔ (hw.ifaces.iftype v = .station → hw.flags .assocInfoSaved = true →
      (staConnect hw.setting hw.ifaces (a.connect i) l.status).1 = 0 ∧
        (staConnect hw.setting hw.ifaces (a.connect i) l.status).2 = 0) ∧
    (hw.ifaces.iftype v = .ap → a.startAp i = 0)
  locals : ret = 0 → l' = { l with
    status := (if hw.ifaces.iftype v = .station ∧ hw.flags .assocInfoSaved = true then
      staConnect hw.setting hw.ifaces (a.connect i) l.status else (0, l.status)).2 }
  ifaces : ret = 0 → hw'.ifaces =
    if hw.ifaces.iftype v = .p2pGo ∨ hw.ifaces.iftype v = .ap then hw.ifaces.emptied v else hw.ifaces
  empties : hw.ifaces.iftype v = .p2pGo ∨ hw.ifaces.iftype v = .ap ∧ a.startAp i = 0 →
    Empties hw.setting (a.removal v) (hw.ifaces.staList v)

theorem restartAdded_spec (ended : restartAdded turns a i v l hw = some (l', hw', ret)) :
    AfterAdd a i v l hw l' hw' ret := by
  unfold restartAdded at ended
  split at ended
  case h_1 isSta =>
    have notAp : ¬hw.ifaces.iftype v = .ap := fun other => Iftype.noConfusion (isSta.symm.trans other)
    have notList : ¬(hw.ifaces.iftype v = .p2pGo ∨ hw.ifaces.iftype v = .ap) :=
      fun other => other.elim (fun go => Iftype.noConfusion (isSta.symm.trans go)) notAp
    split at ended
    case isTrue saved =>
      dsimp only at ended
      split at ended
      case isTrue failed =>
        cases some.inj ended
        exact
          { keeps := .refl hw
            added := rfl
            code := iff_of_false (by decide) fun fine =>
              failed.elim (fun err => err (fine.1 isSta saved).1) fun st => st (fine.1 isSta saved).2
            locals := fun zero => by cases zero
            ifaces := fun zero => by cases zero
            empties := fun list => absurd (list.imp_right And.left) notList }
      case isFalse fine =>
        cases some.inj ended
        obtain ⟨err, st⟩ := not_or.mp fine
        exact
          { keeps := ⟨rfl, rfl, rfl, rfl⟩
            added := rfl
            code := iff_of_true rfl ⟨fun _ _ => ⟨not_not.mp err, not_not.mp st⟩, fun isAp => absurd isAp notAp⟩
            locals := fun _ => by rw [if_pos ⟨isSta, saved⟩]
            ifaces := fun _ => by rw [if_neg notList]; rfl
            empties := fun list => absurd (list.imp_right And.left) notList }
    case isFalse unsaved =>
      cases some.inj ended
      exact
        { keeps := .refl hw
          added := rfl
          code := iff_of_true rfl ⟨fun _ saved => absurd saved unsaved, fun isAp => absurd isAp notAp⟩
          locals := fun _ => by rw [if_neg fun both => unsaved both.2]
          ifaces := fun _ => by rw [if_neg notList]
          empties := fun list => absurd (list.imp_right And.left) notList }
  case h_2 isGo =>
    have notSta : ¬hw.ifaces.iftype v = .station :=
      fun other => Iftype.noConfusion (isGo.symm.trans other)
    have notAp : ¬hw.ifaces.iftype v = .ap := fun other => Iftype.noConfusion (isGo.symm.trans other)
    obtain ⟨hw₁, removed, same⟩ := Option.map_eq_some_iff.mp ended
    cases same
    obtain ⟨rfl, empties⟩ := delStations_eq removed
    exact
      { keeps := ⟨rfl, rfl, rfl, rfl⟩
        added := rfl
        code := iff_of_true rfl ⟨fun isSta => absurd isSta notSta, fun isAp => absurd isAp notAp⟩
        locals := fun _ => by rw [if_neg fun both => notSta both.1]
        ifaces := fun _ => by rw [if_pos (Or.inl isGo)]; rfl
        empties := fun _ => empties }
  case h_3 isAp =>
    have notSta : ¬hw.ifaces.iftype v = .station :=
      fun other => Iftype.noConfusion (isAp.symm.trans other)
    have notGo : ¬hw.ifaces.iftype v = .p2pGo := fun other => Iftype.noConfusion (isAp.symm.trans other)
    split at ended
    case isTrue failed =>
      cases some.inj ended
      exact
        { keeps := ⟨rfl, rfl, rfl, rfl⟩
          added := rfl
          code := iff_of_false (by decide) fun fine => failed (fine.2 isAp)
          locals := fun zero => by cases zero
          ifaces := fun zero => by cases zero
          empties := fun list => list.elim (fun isGo => absurd isGo notGo) fun ap => absurd ap.2 failed }
    case isFalse started =>
      obtain ⟨hw₁, removed, same⟩ := Option.map_eq_some_iff.mp ended
      cases same
      obtain ⟨rfl, empties⟩ := delStations_eq removed
      exact
        { keeps := ⟨rfl, rfl, rfl, rfl⟩
          added := rfl
          code := iff_of_true rfl ⟨fun isSta => absurd isSta notSta, fun _ => not_not.mp started⟩
          locals := fun _ => by rw [if_neg fun both => notSta both.1]
          ifaces := fun _ => by rw [if_pos (Or.inr isAp)]; rfl
          empties := fun _ => empties }
  case h_4 notSta notGo notAp =>
    cases some.inj ended
    have notList : ¬(hw.ifaces.iftype v = .p2pGo ∨ hw.ifaces.iftype v = .ap) :=
      fun other => other.elim notGo notAp
    exact
      { keeps := .refl hw
        added := rfl
        code := iff_of_true rfl ⟨fun isSta => absurd isSta notSta, fun isAp => absurd isAp notAp⟩
        locals := fun _ => by rw [if_neg fun both => notSta both.1]
        ifaces := fun _ => by rw [if_neg notList]
        empties := fun list => absurd (list.imp_right And.left) notList }

/-- What restarting an interface leaves. -/
structure AfterRestart (a : Restart) (i v : ℕ) (l : Locals) (hw : Hw) (l' : Locals) (hw' : Hw)
    (ret : Int) : Prop where
  keeps : Keeps hw hw'
  code : ret = 0 ↔ a.Accepted hw.setting i v l hw.ifaces
  locals : ret = 0 → l' = a.localsNext hw.setting i v l hw.ifaces
  ifaces : ret = 0 → hw'.ifaces = a.ifacesNext hw.setting i v l hw.ifaces
  added : ret = 0 → hw'.added = if a.Reached hw.setting i then v :: hw.added else hw.added
  empties : a.Removes hw.setting i v l hw.ifaces → Empties hw.setting (a.removal v) (hw.ifaces.staList v)

theorem AfterRestart.ofNotAdded (notAdded : ¬a.Added hw.setting i v l hw.ifaces) (failed : ret ≠ 0) :
    AfterRestart a i v l hw l' hw ret where
  keeps := .refl hw
  code := iff_of_false failed fun accepted => notAdded accepted.1
  locals := fun zero => absurd zero failed
  ifaces := fun zero => absurd zero failed
  added := fun zero => absurd zero failed
  empties := fun removes => absurd removes.1 notAdded

theorem restartVif_spec (ended : restartVif turns a i v l hw = some (l', hw', ret)) :
    AfterRestart a i v l hw l' hw' ret := by
  unfold restartVif at ended
  split at ended
  case isTrue gone =>
    cases some.inj ended
    have notAdded : ¬a.Added hw.setting i v l hw.ifaces := fun added =>
      Bool.noConfusion (gone.symm.trans added.1)
    exact .ofNotAdded notAdded (by decide)
  case isFalse there =>
    dsimp only at ended
    split at ended
    case isTrue failed =>
      cases some.inj ended
      have notAdded : ¬a.Added hw.setting i v l hw.ifaces := fun added =>
        failed.elim (fun err => err added.2.1) fun status => status added.2.2
      exact .ofNotAdded notAdded (by decide)
    case isFalse fine =>
      obtain ⟨err, status⟩ := not_or.mp fine
      have added : a.Added hw.setting i v l hw.ifaces :=
        ⟨Bool.eq_true_of_not_eq_false there, not_not.mp err, not_not.mp status⟩
      have after := restartAdded_spec ended
      exact
        { keeps := ⟨after.keeps.setting, after.keeps.fw, after.keeps.attempts, after.keeps.restarted⟩
          code := by
            rw [after.code]
            refine ⟨fun fine => ⟨added, fun isSta saved => ?_, fine.2⟩,
              fun accepted => ⟨fun isSta saved => ?_, accepted.2.2⟩⟩
            · rw [Restart.connected, if_pos ⟨isSta, saved⟩]
              exact fine.1 isSta saved
            · have connected := accepted.2.1 isSta saved
              rw [Restart.connected, if_pos ⟨isSta, saved⟩] at connected
              exact connected
          locals := fun zero => after.locals zero
          ifaces := fun zero => after.ifaces zero
          added := fun zero => after.added
          empties := fun removes => after.empties removes.2 }

variable {slots : List ℕ}

/-- What the restart leaves. -/
structure RestartLeaves (a : Restart) (slots : List ℕ) (l : Locals) (hw hw' : Hw) (ret : Int) : Prop where
  keeps : Keeps hw hw'
  code : ret = 0 ↔ a.Reports hw.setting slots l hw.ifaces
  added : ret = 0 → ∀ u, u ∈ hw'.added ↔ u ∈ hw.added ∨ a.AddsAgain hw.setting u slots l hw.ifaces

theorem vifRestart_spec (ended : vifRestart turns a slots l hw = some (hw', ret)) :
    RestartLeaves a slots l hw hw' ret := by
  induction slots generalizing l hw with
  | nil =>
    obtain ⟨rfl, rfl⟩ := Prod.mk.inj (some.inj ended)
    exact ⟨.refl hw, iff_of_true rfl trivial, fun _ u => (or_iff_left not_false).symm⟩
  | cons i rest ih =>
    unfold vifRestart at ended
    split at ended
    case h_1 empty =>
      obtain ⟨keeps, code, added⟩ := ih ended
      refine ⟨keeps, ?_, fun zero u => ?_⟩
      · rw [code, Restart.Reports, empty]
      · rw [added zero u, Restart.AddsAgain, empty]
    case h_2 v found =>
      split at ended
      case h_1 => exact absurd ended (some_ne_none _).symm
      case h_2 l₁ hw₁ ret₁ restarted =>
        have one := restartVif_spec restarted
        split at ended
        case isTrue nonzero =>
          cases some.inj ended
          refine ⟨one.keeps, ?_, fun zero => absurd zero nonzero⟩
          rw [Restart.Reports, found]
          exact iff_of_false nonzero fun reports => nonzero (one.code.mpr reports.1)
        case isFalse zero =>
          have zero : ret₁ = 0 := not_not.mp zero
          obtain ⟨keeps, code, added⟩ := ih ended
          rw [one.locals zero, one.ifaces zero, one.keeps.setting] at code added
          refine ⟨one.keeps.trans keeps, ?_, fun done u => ?_⟩
          · rw [code, Restart.Reports, found]
            exact (and_iff_right (one.code.mp zero)).symm
          · rw [added done u, one.added zero, Restart.AddsAgain, found]
            dsimp only
            rw [← or_assoc]
            refine or_congr_left ?_
            split
            case isTrue reached =>
              rw [List.mem_cons, eq_comm, or_comm]
              exact or_congr_right (and_iff_left reached).symm
            case isFalse lost => exact (or_iff_left fun both => lost both.2).symm

theorem Restart.Ends.of_isSome (ended : (vifRestart turns a slots l hw).isSome) :
    a.Ends hw.setting slots l hw.ifaces := by
  induction slots generalizing l hw with
  | nil => trivial
  | cons i rest ih =>
    unfold vifRestart at ended
    split at ended
    case h_1 empty =>
      rw [Restart.Ends, empty]
      exact ih ended
    case h_2 v found =>
      rw [Restart.Ends, found]
      split at ended
      case h_1 => exact absurd ended Bool.false_ne_true
      case h_2 l₁ hw₁ ret₁ restarted =>
        have one := restartVif_spec restarted
        refine ⟨one.empties, fun accepted => ?_⟩
        have zero : ret₁ = 0 := one.code.mpr accepted
        rw [if_neg (not_not.mpr zero)] at ended
        have later := ih ended
        rw [one.locals zero, one.ifaces zero, one.keeps.setting] at later
        exact later

theorem delStations_isSome {s : Setting} {answers : ℕ → Removal} {n : ℕ} (empties : Empties s answers n) :
    ∀ᶠ turns in atTop, ∀ hw : Hw, hw.setting = s → hw.ifaces.staList v = n →
      (delStations turns answers v hw).isSome := by
  refine (eventually_drained empties).mono fun turns done hw setting left => ?_
  unfold delStations
  rw [setting, left, if_pos done]
  rfl

theorem restartAdded_isSome {s : Setting} {f : Ifaces}
    (empties : f.iftype v = .p2pGo ∨ f.iftype v = .ap ∧ a.startAp i = 0 → Empties s (a.removal v) (f.staList v)) :
    ∀ᶠ turns in atTop, ∀ (l : Locals) (hw : Hw), hw.setting = s → hw.ifaces = f →
      (restartAdded turns a i v l hw).isSome := by
  by_cases list : f.iftype v = .p2pGo ∨ f.iftype v = .ap ∧ a.startAp i = 0
  · refine (delStations_isSome (v := v) (empties list)).mono fun turns removed l hw setting ifaces => ?_
    unfold restartAdded
    rw [ifaces]
    rcases list with isGo | ⟨isAp, started⟩
    · rw [isGo]
      exact (isSome_map ..).trans (removed _ setting (congrArg (Ifaces.staList · v) ifaces))
    · rw [isAp]
      dsimp only
      rw [if_neg (not_not.mpr started)]
      exact (isSome_map ..).trans (removed _ setting (congrArg (Ifaces.staList · v) ifaces))
  · refine .of_forall fun turns l hw setting ifaces => ?_
    unfold restartAdded
    rw [ifaces]
    split
    · split
      · dsimp only
        split <;> rfl
      · rfl
    · case h_2 isGo => exact absurd (.inl isGo) list
    · case h_3 isAp => rw [if_pos fun started => list (.inr ⟨isAp, started⟩)]; rfl
    · rfl

theorem restartVif_isSome {s : Setting} {f : Ifaces}
    (empties : a.Removes s i v l f → Empties s (a.removal v) (f.staList v)) :
    ∀ᶠ turns in atTop, ∀ hw : Hw, hw.setting = s → hw.ifaces = f → (restartVif turns a i v l hw).isSome := by
  by_cases added : a.Added s i v l f
  · have rest := restartAdded_isSome (a := a) (i := i) (v := v) (s := s)
      (f := a.ifacesAdded s i v l f) fun list => empties ⟨added, list⟩
    refine rest.mono fun turns rest hw setting ifaces => ?_
    unfold restartVif
    split
    · rfl
    dsimp only
    split
    · rfl
    · exact rest _ _ setting (by rw [setting, ifaces]; rfl)
  · refine .of_forall fun turns hw setting ifaces => ?_
    unfold restartVif
    rw [setting, ifaces]
    split
    · rfl
    case isFalse there =>
      dsimp only
      rw [if_pos]
      · rfl
      · by_contra fine
        obtain ⟨err, status⟩ := not_or.mp fine
        exact added ⟨Bool.eq_true_of_not_eq_false there, not_not.mp err, not_not.mp status⟩

theorem vifRestart_isSome {s : Setting} {f : Ifaces} (ends : a.Ends s slots l f) :
    ∀ᶠ turns in atTop, ∀ hw : Hw, hw.setting = s → hw.ifaces = f → (vifRestart turns a slots l hw).isSome := by
  induction slots generalizing l f with
  | nil => exact .of_forall fun _ _ _ _ => rfl
  | cons i rest ih =>
    unfold Restart.Ends at ends
    split at ends
    case h_1 empty =>
      refine (ih ends).mono fun turns rest hw setting ifaces => ?_
      unfold vifRestart
      rw [ifaces, empty]
      exact rest hw setting ifaces
    case h_2 v found =>
      have head := restartVif_isSome (a := a) (i := i) (v := v) (l := l) ends.1
      have tail : ∀ᶠ turns in atTop, a.Accepted s i v l f → ∀ hw : Hw, hw.setting = s →
          hw.ifaces = a.ifacesNext s i v l f →
          (vifRestart turns a rest (a.localsNext s i v l f) hw).isSome := by
        by_cases accepted : a.Accepted s i v l f
        · exact (ih (ends.2 accepted)).mono fun turns rest _ => rest
        · exact .of_forall fun _ accepts => absurd accepts accepted
      refine (head.and tail).mono fun turns both hw setting ifaces => ?_
      obtain ⟨⟨l₁, hw₁, ret₁⟩, restarted⟩ := Option.isSome_iff_exists.mp (both.1 hw setting ifaces)
      have one := restartVif_spec restarted
      unfold vifRestart
      rw [ifaces, found]
      dsimp only
      rw [restarted]
      dsimp only
      split
      · rfl
      case isFalse zero =>
        have zero : ret₁ = 0 := not_not.mp zero
        have accepted := one.code.mp zero
        rw [setting, ifaces] at accepted
        have locals := one.locals zero
        have next := one.ifaces zero
        rw [setting, ifaces] at locals next
        rw [locals]
        exact both.2 accepted hw₁ (one.keeps.setting.trans setting) next

end RestartRun

end W2l.Recy
