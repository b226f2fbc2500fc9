/-
**Recovery: what a reload leaves.**

Each attempt clears `AML_RECY_IPC_ONGOING` when it gets as far as `aml_ipc_start`, whatever becomes of it
afterwards. On PCIe there is one attempt, and a failure to enable the platform is reported as a success.

* `Reloads` — what has changed after some attempts.
* `ReloadLeaves`, `fwReload_spec`, `fwReload_isSome` — **what the reload leaves, on every bus**.
-/

import W2lDriver.Recy.Reload

namespace W2l.Recy

open Filter
open Cmd (BusType)
open Lib (Replies eventually_poll)
open Option (isSome_iff_exists some.inj some_ne_none)

/-! ### What an attempt leaves -/

/-- From `hw` to `hw'` only the flag of the commands, the platform and the records have changed: the flag is
cleared when `ipc` came to pass, the firmware is started when `started` did. -/
structure Reloads (hw hw' : Hw) (ipc started : Prop) (made : ℕ) : Prop where
  bus : hw'.bus = hw.bus
  ifaces : hw'.ifaces = hw.ifaces
  assocInfo : hw'.assocInfo = hw.assocInfo
  added : hw'.added = hw.added
  kept : ∀ f, f ≠ .ipcOngoing → hw'.flags f = hw.flags f
  blocked : hw'.blocked = true ↔ hw.blocked = true ∧ ¬ipc
  restarted : hw'.restarted = true ↔ hw.restarted = true ∨ started
  attempts : hw'.attempts ≤ hw.attempts + made

namespace Reloads

variable {hw hw₁ hw' : Hw} {ipc ipc' started started' : Prop} {made made' : ℕ}

theorem trans (one : Reloads hw hw₁ ipc started made) (two : Reloads hw₁ hw' ipc' started' made') :
    Reloads hw hw' (ipc ∨ ipc') (started ∨ started') (made' + made) where
  bus := two.bus.trans one.bus
  ifaces := two.ifaces.trans one.ifaces
  assocInfo := two.assocInfo.trans one.assocInfo
  added := two.added.trans one.added
  kept f other := (two.kept f other).trans (one.kept f other)
  blocked := by rw [two.blocked, one.blocked, not_or, and_assoc]
  restarted := by rw [two.restarted, one.restarted, or_assoc]
  attempts := by
    have := one.attempts
    have := two.attempts
    omega

theorem congr (reloads : Reloads hw hw' ipc started made) (sameIpc : ipc ↔ ipc')
    (sameStarted : started ↔ started') (more : made ≤ made') :
    Reloads hw hw' ipc' started' made' where
  bus := reloads.bus
  ifaces := reloads.ifaces
  assocInfo := reloads.assocInfo
  added := reloads.added
  kept := reloads.kept
  blocked := by rw [reloads.blocked, sameIpc]
  restarted := by rw [reloads.restarted, sameStarted]
  attempts := reloads.attempts.trans (Nat.add_le_add_left more _)

theorem nothing (none : ¬ipc) (notStarted : ¬started) : Reloads hw hw ipc started 0 where
  bus := rfl
  ifaces := rfl
  assocInfo := rfl
  added := rfl
  kept _ _ := rfl
  blocked := ⟨fun blocked => ⟨blocked, none⟩, And.left⟩
  restarted := ⟨Or.inl, fun either => either.resolve_right notStarted⟩
  attempts := le_refl _

end Reloads

section Platform

variable {turns : ℕ} {p : Platform} {hw hw' : Hw} {ret : Int}

theorem sdioPlatformOn_spec (off : hw.enabled = false)
    (ended : sdioPlatformOn turns p hw = some (hw', ret)) :
    Reloads hw hw' (p.StartsIpc hw.bus) False 0 ∧ (ret = 0 ↔ p.TurnsOn hw.bus) := by
  unfold sdioPlatformOn at ended
  rw [off, if_neg Bool.false_ne_true] at ended
  split at ended
  case isTrue early =>
    obtain ⟨rfl, rfl⟩ := Prod.mk.inj (some.inj ended)
    have never : ¬p.StartsIpc hw.bus := fun starts => early starts.1
    exact ⟨.nothing never not_false, iff_of_false early fun on => never on.1⟩
  case isFalse early =>
    split at ended
    case h_1 => exact absurd ended (some_ne_none _).symm
    case h_2 failed =>
      obtain ⟨rfl, rfl⟩ := Prod.mk.inj (some.inj ended)
      have never : ¬p.StartsIpc hw.bus := fun starts =>
        Chip.noConfusion ((Replies.of_poll failed).unique starts.2.1)
      exact ⟨.nothing never not_false, iff_of_false (by decide) fun on => never on.1⟩
    case h_3 ready =>
      split at ended
      case isTrue other =>
        obtain ⟨rfl, rfl⟩ := Prod.mk.inj (some.inj ended)
        have never : ¬p.StartsIpc hw.bus := fun starts => other starts.2.2
        exact ⟨.nothing never not_false, iff_of_false other fun on => never on.1⟩
      case isFalse compatible =>
        obtain ⟨rfl, rfl⟩ := Prod.mk.inj (some.inj ended)
        have starts : p.StartsIpc hw.bus :=
          ⟨not_not.mp early, .of_poll ready, not_not.mp compatible⟩
        refine ⟨{ bus := rfl
                  ifaces := rfl
                  assocInfo := rfl
                  added := rfl
                  kept := fun f other => ?_
                  blocked := ?_
                  restarted := ⟨Or.inl, fun either => either.resolve_right not_false⟩
                  attempts := le_refl _ }, ?_⟩
        · exact hw.flagsClr_other (by simp [other])
        · exact iff_of_false Bool.false_ne_true fun both => both.2 starts
        · exact ⟨fun fine => ⟨starts, fine⟩, And.right⟩

theorem Platform.Ends.of_isSome (off : hw.enabled = false)
    (ended : (sdioPlatformOn turns p hw).isSome) : p.Ends hw.bus := by
  intro early
  unfold sdioPlatformOn at ended
  rw [off, if_neg Bool.false_ne_true, if_neg (not_not.mpr early)] at ended
  split at ended
  case h_1 => exact absurd ended Bool.false_ne_true
  case h_2 failed => exact ⟨_, .of_poll failed⟩
  case h_3 ready => exact ⟨_, .of_poll ready⟩

theorem sdioPlatformOn_isSome {bus : BusType} (ends : p.Ends bus) :
    ∀ᶠ turns in atTop, ∀ hw : Hw, hw.bus = bus → (sdioPlatformOn turns p hw).isSome := by
  by_cases early : p.beforeFirmware bus = 0
  · obtain ⟨r, first⟩ := ends early
    refine (eventually_poll first).mono fun turns answered hw same => ?_
    unfold sdioPlatformOn
    split
    · rfl
    · rw [same, if_neg (not_not.mpr early), answered]
      cases r with
      | ready => dsimp only; split <;> rfl
      | busErr => rfl
  · refine .of_forall fun turns hw same => ?_
    unfold sdioPlatformOn
    split
    · rfl
    · rw [same, if_pos early]
      rfl

end Platform

section Attempts

variable {turns : ℕ} {a : Attempt} {hw hw' : Hw} {ret : Int}

theorem prepare_reloads (hw : Hw) : Reloads hw (prepare hw) False False 1 where
  bus := rfl
  ifaces := rfl
  assocInfo := rfl
  added := rfl
  kept _ _ := rfl
  blocked := ⟨fun blocked => ⟨blocked, not_false⟩, And.left⟩
  restarted := ⟨Or.inl, fun either => either.resolve_right not_false⟩
  attempts := le_refl _

theorem reloadOnce_spec (ended : reloadOnce turns a hw = some (hw', ret)) :
    Reloads hw hw' (a.platform.StartsIpc hw.bus) (a.Restarts hw.bus) 1 ∧ (ret = 0 ↔ a.Succeeds hw.bus) := by
  unfold reloadOnce at ended
  split at ended
  case h_1 => exact absurd ended (some_ne_none _).symm
  case h_2 hw₁ code on =>
    obtain ⟨reloads, turned⟩ := sdioPlatformOn_spec rfl on
    have whole : Reloads hw hw₁ (a.platform.StartsIpc hw.bus) False 1 :=
      ((prepare_reloads hw).trans reloads).congr (by rw [false_or]; exact Iff.rfl) (or_self_iff) (le_refl _)
    have bus : hw₁.bus = hw.bus := whole.bus
    split at ended
    case isTrue off =>
      obtain ⟨rfl, rfl⟩ := Prod.mk.inj (some.inj ended)
      have failed : ¬a.Succeeds hw.bus := fun succeeds => off (turned.mpr succeeds.1)
      refine ⟨whole.congr Iff.rfl ?_ (le_refl _), iff_of_false (by decide) failed⟩
      exact iff_of_false not_false fun restarts => failed restarts.1
    case isFalse fine =>
      have isOn : a.platform.TurnsOn hw.bus := turned.mp (not_not.mp fine)
      have free : hw₁.blocked = false :=
        Bool.eq_false_iff.mpr fun blocked => (whole.blocked.mp blocked).2 isOn.1
      split at ended
      case isTrue refused =>
        rw [bus, free] at refused
        obtain ⟨rfl, rfl⟩ := Prod.mk.inj (some.inj ended)
        have failed : ¬a.Succeeds hw.bus := fun succeeds => refused succeeds.2
        refine ⟨whole.congr Iff.rfl ?_ (le_refl _), iff_of_false (by decide) failed⟩
        exact iff_of_false not_false fun restarts => failed restarts.1
      case isFalse configured =>
        rw [bus, free] at configured
        obtain ⟨rfl, rfl⟩ := Prod.mk.inj (some.inj ended)
        have succeeds : a.Succeeds hw.bus := ⟨isOn, not_not.mp configured⟩
        refine ⟨{ whole with restarted := ?_ }, iff_of_true rfl succeeds⟩
        show (hw₁.restarted || decide (StartReaches hw₁.bus hw₁.blocked a.start)) = true ↔ _
        rw [Bool.or_eq_true, whole.restarted, or_false, decide_eq_true_iff, bus, free]
        exact or_congr_right ⟨fun reaches => ⟨succeeds, reaches⟩, And.right⟩

theorem Platform.Ends.of_reloadOnce (ended : (reloadOnce turns a hw).isSome) : a.platform.Ends hw.bus := by
  unfold reloadOnce at ended
  split at ended
  case h_1 => exact absurd ended Bool.false_ne_true
  case h_2 on =>
    have off : (prepare hw).enabled = false := rfl
    have ends : a.platform.Ends (prepare hw).bus :=
      Platform.Ends.of_isSome off (isSome_iff_exists.mpr ⟨_, on⟩)
    exact ends

theorem reloadOnce_isSome {bus : BusType} (ends : a.platform.Ends bus) :
    ∀ᶠ turns in atTop, ∀ hw : Hw, hw.bus = bus → (reloadOnce turns a hw).isSome := by
  refine (sdioPlatformOn_isSome ends).mono fun turns on hw same => ?_
  obtain ⟨⟨hw₁, code⟩, turned⟩ := isSome_iff_exists.mp (on (prepare hw) same)
  unfold reloadOnce
  rw [turned]
  dsimp only
  split
  · rfl
  split <;> rfl

end Attempts

section Retries

variable {turns : ℕ} {answers : ℕ → Attempt} {bus : BusType}

/-- Attempt `k` is made: those from `t` on before it fail. -/
def Made (answers : ℕ → Attempt) (bus : BusType) (t k : ℕ) : Prop :=
  t ≤ k ∧ ∀ j, t ≤ j → j < k → ¬(answers j).Succeeds bus

variable {t left : ℕ}

theorem Made.first : Made answers bus t t :=
  ⟨le_refl t, fun _ ge lt => absurd lt (Nat.not_lt.mpr ge)⟩

theorem Made.step {t k : ℕ} (failed : ¬(answers t).Succeeds bus) (made : Made answers bus (t + 1) k) :
    Made answers bus t k := by
  refine ⟨Nat.le_of_succ_le made.1, fun j ge lt => ?_⟩
  rcases Nat.eq_or_lt_of_le ge with rfl | later
  · exact failed
  · exact made.2 j later lt

theorem Made.cases {t k : ℕ} (made : Made answers bus t k) :
    k = t ∨ ¬(answers t).Succeeds bus ∧ Made answers bus (t + 1) k := by
  rcases Nat.eq_or_lt_of_le made.1 with rfl | later
  · exact .inl rfl
  · exact .inr ⟨made.2 t (le_refl t) later, later, fun j ge lt => made.2 j (by omega) lt⟩

/-- Some attempt from `t` on, of `left` and one, has the property. -/
def Within (t left : ℕ) (P : ℕ → Prop) : Prop := ∃ k, t ≤ k ∧ k ≤ t + left ∧ P k

theorem within_zero {P : ℕ → Prop} : Within t 0 P ↔ P t := by
  refine ⟨fun ⟨k, ge, le, holds⟩ => ?_, fun holds => ⟨t, le_refl t, le_refl t, holds⟩⟩
  obtain rfl : k = t := le_antisymm le ge
  exact holds

theorem within_succ {P : ℕ → Prop} : Within t (left + 1) P ↔ P t ∨ Within (t + 1) left P := by
  constructor
  · rintro ⟨k, ge, le, holds⟩
    rcases Nat.eq_or_lt_of_le ge with rfl | later
    · exact .inl holds
    · exact .inr ⟨k, later, by omega, holds⟩
  · rintro (holds | ⟨k, ge, le, holds⟩)
    · exact ⟨t, le_refl t, Nat.le_add_right t _, holds⟩
    · exact ⟨k, by omega, by omega, holds⟩

def MadeRestarts (answers : ℕ → Attempt) (bus : BusType) (t k : ℕ) : Prop :=
  Made answers bus t k ∧ (answers k).Restarts bus

theorem within_madeRestarts (failed : ¬(answers t).Succeeds bus) : Within t (left + 1) (MadeRestarts answers bus t) ↔
      Within (t + 1) left (MadeRestarts answers bus (t + 1)) := by
  rw [within_succ]
  constructor
  · rintro (restarts | ⟨k, ge, le, made, restarts⟩)
    · exact absurd restarts.2.1 failed
    · rcases made.cases with rfl | ⟨_, later⟩
      · exact absurd ge (Nat.not_succ_le_self k)
      · exact ⟨k, ge, le, later, restarts⟩
  · rintro ⟨k, ge, le, made, restarts⟩
    exact .inr ⟨k, ge, le, made.step failed, restarts⟩

theorem tryAgain_spec {hw hw' : Hw} {ret : Int}
    (ended : tryAgain turns answers left t hw = some (hw', ret)) :
    Reloads hw hw' (Within t left fun k => (answers k).platform.StartsIpc hw.bus)
        (Within t left (MadeRestarts answers hw.bus t)) (left + 1) ∧
      (ret = 0 ↔ Within t left fun k => (answers k).Succeeds hw.bus) := by
  induction left generalizing t hw with
  | zero =>
    obtain ⟨reloads, code⟩ := reloadOnce_spec ended
    rw [within_zero, within_zero, within_zero]
    refine ⟨reloads.congr Iff.rfl ?_ (le_refl _), code⟩
    exact ⟨fun restarts => ⟨.first, restarts⟩, And.right⟩
  | succ left ih =>
    unfold tryAgain at ended
    split at ended
    case h_1 => exact absurd ended (some_ne_none _).symm
    case h_2 hw₁ code once =>
      obtain ⟨one, reported⟩ := reloadOnce_spec once
      split at ended
      case isTrue nonzero =>
        have failed : ¬(answers t).Succeeds hw.bus := fun succeeds => nonzero (reported.mpr succeeds)
        obtain ⟨rest, final⟩ := ih ended
        rw [one.bus] at rest final
        refine ⟨(one.trans rest).congr ?_ ?_ (le_refl _), ?_⟩
        · rw [within_succ]
        · rw [within_madeRestarts failed]
          exact or_iff_right fun restarts => failed restarts.1
        · rw [final, within_succ]
          exact (or_iff_right failed).symm
      case isFalse zero =>
        obtain ⟨rfl, rfl⟩ := Prod.mk.inj (some.inj ended)
        have succeeds : (answers t).Succeeds hw.bus := reported.mp (not_not.mp zero)
        refine ⟨one.congr ?_ ?_ (by omega), ?_⟩
        · rw [within_succ]
          exact iff_of_true succeeds.1.1 (.inl succeeds.1.1)
        · refine ⟨fun restarts => within_succ.mpr (.inl ⟨.first, restarts⟩), ?_⟩
          rintro ⟨k, _, _, made, restarts⟩
          rcases made.cases with rfl | ⟨failed, _⟩
          · exact restarts
          · exact absurd succeeds failed
        · rw [within_succ]
          exact iff_of_true (not_not.mp zero) (.inl succeeds)

def RetriesEnd (answers : ℕ → Attempt) (bus : BusType) (t left : ℕ) : Prop :=
  ∀ k ≤ t + left, Made answers bus t k → (answers k).platform.Ends bus

theorem RetriesEnd.of_isSome {hw : Hw}
    (ended : (tryAgain turns answers left t hw).isSome) : RetriesEnd answers hw.bus t left := by
  induction left generalizing t hw with
  | zero =>
    intro k le made
    obtain rfl : k = t := le_antisymm le made.1
    exact .of_reloadOnce ended
  | succ left ih =>
    intro k le made
    unfold tryAgain at ended
    split at ended
    case h_1 => exact absurd ended Bool.false_ne_true
    case h_2 hw₁ code once =>
      obtain ⟨one, reported⟩ := reloadOnce_spec once
      rcases made.cases with rfl | ⟨failed, later⟩
      · exact .of_reloadOnce (by rw [once]; rfl)
      · rw [if_pos fun zero => failed (reported.mp zero)] at ended
        have rest := ih ended
        rw [one.bus] at rest
        exact rest k (by omega) later

theorem tryAgain_isSome (ends : RetriesEnd answers bus t left) :
    ∀ᶠ turns in atTop, ∀ hw : Hw, hw.bus = bus → (tryAgain turns answers left t hw).isSome := by
  induction left generalizing t with
  | zero => exact reloadOnce_isSome (ends t (le_refl t) .first)
  | succ left ih =>
    have head := reloadOnce_isSome (ends t (Nat.le_add_right t _) .first)
    by_cases succeeds : (answers t).Succeeds bus
    · refine head.mono fun turns on hw same => ?_
      obtain ⟨⟨hw₁, code⟩, once⟩ := isSome_iff_exists.mp (on hw same)
      have zero : code = 0 := (reloadOnce_spec once).2.mpr (same ▸ succeeds)
      unfold tryAgain
      rw [once]
      dsimp only
      rw [if_neg (not_not.mpr zero)]
      rfl
    · have tail := ih fun k le made => ends k (by omega) (made.step succeeds)
      refine (head.and tail).mono fun turns both hw same => ?_
      obtain ⟨⟨hw₁, code⟩, once⟩ := isSome_iff_exists.mp (both.1 hw same)
      unfold tryAgain
      rw [once]
      dsimp only
      split
      · exact both.2 hw₁ ((reloadOnce_spec once).1.bus.trans same)
      · rfl

end Retries

/-! ### What the reload leaves -/

namespace Reload

variable (r : Reload) (hw : Hw)

def Reports : Prop :=
  if hw.bus ≠ .pcie then Within 0 3 fun k => (r.attempts k).Succeeds hw.bus
  else hw.enabled = true → r.pcie.enable = 0 → sendStart .pcie false r.pcie.start = 0

def Restarts : Prop :=
  if hw.bus ≠ .pcie then Within 0 3 (MadeRestarts r.attempts hw.bus 0)
  else hw.enabled = true ∧ r.pcie.enable = 0 ∧ StartReaches .pcie false r.pcie.start

/-- `AML_RECY_IPC_ONGOING` is clear afterwards. -/
def ClearsIpc : Prop :=
  if hw.bus ≠ .pcie then Within 0 3 fun k => (r.attempts k).platform.StartsIpc hw.bus
  else if hw.enabled = true then r.pcie.enable = 0
  else hw.blocked = false

/-- `AML_RECY_FW_ONGOING` is clear afterwards. -/
def ClearsFw : Prop :=
  if hw.bus ≠ .pcie then True
  else if hw.enabled = true then r.pcie.enable = 0 ∧ sendStart .pcie false r.pcie.start = 0
  else hw.flags .fwOngoing = false

def Ends : Prop := hw.bus ≠ .pcie → RetriesEnd r.attempts hw.bus 0 3

end Reload

/-- What a reload leaves. -/
structure ReloadLeaves (r : Reload) (hw hw' : Hw) (ret : Int) : Prop where
  bus : hw'.bus = hw.bus
  ifaces : hw'.ifaces = hw.ifaces
  assocInfo : hw'.assocInfo = hw.assocInfo
  added : hw'.added = hw.added
  kept : ∀ f, f ≠ .ipcOngoing → f ≠ .fwOngoing → hw'.flags f = hw.flags f
  ipc : hw'.blocked = false ↔ r.ClearsIpc hw
  fw : hw'.flags .fwOngoing = false ↔ r.ClearsFw hw
  restarted : hw'.restarted = true ↔ hw.restarted = true ∨ r.Restarts hw
  attempts : hw'.attempts ≤ hw.attempts + 4
  ret : ret = 0 ↔ r.Reports hw

section Whole

variable {turns : ℕ} {r : Reload} {hw hw' : Hw} {ret : Int}

theorem fwReloadForUsbSdio_spec (other : hw.bus ≠ .pcie)
    (ended : fwReloadForUsbSdio turns r.attempts hw = some (hw', ret)) :
    ReloadLeaves r hw hw' ret := by
  unfold fwReloadForUsbSdio at ended
  split at ended
  case h_1 => exact absurd ended (some_ne_none _).symm
  case h_2 hw₁ code tried =>
    obtain ⟨rfl, rfl⟩ := Prod.mk.inj (some.inj ended)
    obtain ⟨reloads, reported⟩ := tryAgain_spec tried
    exact
      { bus := reloads.bus
        ifaces := reloads.ifaces
        assocInfo := reloads.assocInfo
        added := reloads.added
        kept := fun f notIpc notFw => by
          rw [show ({ hw₁.flagsClr [.fwOngoing] with isRecyOngoing := false } : Hw).flags f =
            (hw₁.flagsClr [.fwOngoing]).flags f from rfl, hw₁.flagsClr_other (by simp [notFw]),
            reloads.kept f notIpc]
          exact hw.flagsSet_other (by simp [notFw, notIpc])
        ipc := by
          show hw₁.blocked = false ↔ _
          rw [← Bool.not_eq_true, reloads.blocked]
          unfold Reload.ClearsIpc
          rw [if_pos other]
          exact ⟨fun kept => not_not.mp fun never => kept ⟨rfl, never⟩, fun some both => both.2 some⟩
        fw := by
          unfold Reload.ClearsFw
          rw [if_pos other]
          exact iff_of_true rfl trivial
        restarted := by
          show hw₁.restarted = true ↔ _
          rw [reloads.restarted]
          unfold Reload.Restarts
          rw [if_pos other]
          exact Iff.rfl
        attempts := reloads.attempts
        ret := by
          unfold Reload.Reports
          rw [if_pos other, reported]
          exact Iff.rfl }

theorem fwReloadForPcie_spec (pcie : hw.bus = .pcie)
    (ended : fwReloadForPcie r.pcie hw = (hw', ret)) : ReloadLeaves r hw hw' ret := by
  have one : ¬hw.bus ≠ .pcie := not_not.mpr pcie
  unfold fwReloadForPcie at ended
  split at ended
  case isTrue off =>
    obtain ⟨rfl, rfl⟩ := Prod.mk.inj ended
    have never : ¬hw.enabled = true := Bool.eq_false_iff.mp off
    exact
      { bus := rfl
        ifaces := rfl
        assocInfo := rfl
        added := rfl
        kept := fun _ _ _ => rfl
        ipc := by rw [Reload.ClearsIpc, if_neg one, if_neg never]
        fw := by rw [Reload.ClearsFw, if_neg one, if_neg never]
        restarted := by
          rw [Reload.Restarts, if_neg one]
          exact (or_iff_left fun restarts => never restarts.1).symm
        attempts := Nat.le_add_right _ _
        ret := by
          rw [Reload.Reports, if_neg one]
          exact iff_of_true rfl fun on => absurd on never }
  case isFalse on =>
    have on : hw.enabled = true := Bool.eq_true_of_not_eq_false on
    dsimp only at ended
    split at ended
    case isTrue failed =>
      obtain ⟨rfl, rfl⟩ := Prod.mk.inj ended
      exact
        { bus := rfl
          ifaces := rfl
          assocInfo := rfl
          added := rfl
          kept := fun f notIpc notFw => hw.flagsSet_other (by simp [notIpc, notFw])
          ipc := by
            rw [Reload.ClearsIpc, if_neg one, if_pos on]
            exact iff_of_false (fun clear => Bool.noConfusion (show true = false from clear)) failed
          fw := by
            rw [Reload.ClearsFw, if_neg one, if_pos on]
            exact iff_of_false (fun clear => Bool.noConfusion (show true = false from clear))
              fun both => failed both.1
          restarted := by
            rw [Reload.Restarts, if_neg one]
            exact (or_iff_left fun restarts => failed restarts.2.1).symm
          attempts := Nat.add_le_add_left (by decide) _
          ret := by
            rw [Reload.Reports, if_neg one]
            exact iff_of_true rfl fun _ enabled => absurd enabled failed }
    case isFalse enabled =>
      have enabled : r.pcie.enable = 0 := not_not.mp enabled
      split at ended
      case isTrue refused =>
        obtain ⟨rfl, rfl⟩ := Prod.mk.inj ended
        have refused : sendStart hw.bus false r.pcie.start ≠ 0 := refused
        rw [pcie] at refused
        exact
          { bus := rfl
            ifaces := rfl
            assocInfo := rfl
            added := rfl
            kept := fun f notIpc notFw => by
              refine Eq.trans (Hw.flagsClr_other _ (by simp [notIpc])) ?_
              exact hw.flagsSet_other (by simp [notIpc, notFw])
            ipc := by
              rw [Reload.ClearsIpc, if_neg one, if_pos on]
              exact iff_of_true rfl enabled
            fw := by
              rw [Reload.ClearsFw, if_neg one, if_pos on]
              exact iff_of_false (fun clear => Bool.noConfusion (show true = false from clear))
                fun both => refused both.2
            restarted := by
              rw [Reload.Restarts, if_neg one]
              exact (or_iff_left fun restarts => refused restarts.2.2.sendStart_eq).symm
            attempts := Nat.add_le_add_left (by decide) _
            ret := by
              rw [Reload.Reports, if_neg one]
              exact iff_of_false (by decide) fun reports => refused (reports on enabled) }
      case isFalse taken =>
        obtain ⟨rfl, rfl⟩ := Prod.mk.inj ended
        have taken : sendStart hw.bus false r.pcie.start = 0 := not_not.mp taken
        rw [pcie] at taken
        exact
          { bus := rfl
            ifaces := rfl
            assocInfo := rfl
            added := rfl
            kept := fun f notIpc notFw => by
              refine Eq.trans (Hw.flagsClr_other _ (by simp [notFw])) ?_
              refine Eq.trans (Hw.flagsClr_other _ (by simp [notIpc])) ?_
              exact hw.flagsSet_other (by simp [notIpc, notFw])
            ipc := by
              rw [Reload.ClearsIpc, if_neg one, if_pos on]
              exact iff_of_true rfl enabled
            fw := by
              rw [Reload.ClearsFw, if_neg one, if_pos on]
              exact iff_of_true rfl ⟨enabled, taken⟩
            restarted := by
              rw [Reload.Restarts, if_neg one]
              show (hw.restarted || decide (StartReaches hw.bus false r.pcie.start)) = true ↔ _
              rw [Bool.or_eq_true, decide_eq_true_iff, pcie]
              exact or_congr_right ⟨fun reaches => ⟨on, enabled, reaches⟩, fun all => all.2.2⟩
            attempts := Nat.add_le_add_left (by decide) _
            ret := by
              rw [Reload.Reports, if_neg one]
              exact iff_of_true rfl fun _ _ => taken }

theorem fwReload_spec (ended : fwReload turns r hw = some (hw', ret)) : ReloadLeaves r hw hw' ret := by
  unfold fwReload at ended
  split at ended
  case isTrue other => exact fwReloadForUsbSdio_spec other ended
  case isFalse pcie => exact fwReloadForPcie_spec (not_not.mp pcie) (some.inj ended)

theorem Reload.Ends.of_isSome (ended : (fwReload turns r hw).isSome) : r.Ends hw := by
  intro other
  unfold fwReload fwReloadForUsbSdio at ended
  rw [if_pos other] at ended
  split at ended
  case h_1 => exact absurd ended Bool.false_ne_true
  case h_2 tried =>
    have ends := RetriesEnd.of_isSome (isSome_iff_exists.mpr ⟨_, tried⟩)
    exact ends

theorem fwReload_isSome (ends : r.Ends hw) :
    ∀ᶠ turns in atTop, ∀ hw₁ : Hw, hw₁.bus = hw.bus → (fwReload turns r hw₁).isSome := by
  by_cases other : hw.bus ≠ .pcie
  · refine (tryAgain_isSome (ends other)).mono fun turns tried hw₁ same => ?_
    unfold fwReload fwReloadForUsbSdio
    rw [if_pos (same ▸ other)]
    obtain ⟨⟨hw₂, code⟩, left⟩ := isSome_iff_exists.mp
      (tried { hw₁.flagsSet [.fwOngoing, .ipcOngoing] with isRecyOngoing := true } same)
    rw [left]
    rfl
  · refine .of_forall fun turns hw₁ same => ?_
    unfold fwReload
    rw [if_neg (same ▸ other)]
    rfl

end Whole

end W2l.Recy
