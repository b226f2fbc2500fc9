/-
**Recovery: a whole run.**

`aml_recy_doit` takes the interfaces down, loads the firmware again and adds the interfaces again. Nothing but
the flags tells the rest of the driver that it is over.

* `World` — all that a run meets; `doit` is `aml_recy_doit`.
* `LeavesUsable` — **the driver is usable after the run**, and a success is one.
* `Recovers` — what the run must meet for that.
-/

import W2lDriver.Recy.Restart
import W2lDriver.Recy.Retries

namespace W2l.Recy

open Filter
open Option (isSome_iff_exists some_ne_none)

/-- The slots of `vif_table` below `NX_VIRT_DEV_MAX`. -/
def slots : List ℕ := [0, 1, 2, 3]

/-- What a run meets. -/
structure World where
  /-- `bus_state_detect.bus_err` when the run begins. -/
  busErr : Bool
  removal : ℕ → ℕ → Removal
  reload : Reload
  restart : Restart

def delaying : List Flag := [.stopApProc, .openVifProc, .stateOngoing, .closeVifProc]

def startRun (hw : Hw) : Hw :=
  { hw.flagsSet [.stateOngoing, .dropXmitPkt] with attempts := 0, restarted := false, added := [] }

/-- `out` in `aml_recy_doit`. -/
def finish (hw : Hw) : Hw := hw.flagsClr [.stateOngoing, .dropXmitPkt]

/-- The variables of `aml_recy_vif_restart` before they are written. -/
def World.locals (w : World) : Locals := ⟨w.restart.cfm, w.restart.status⟩

/-- `aml_recy_doit`. -/
def doit (turns : ℕ) (w : World) (hw : Hw) : Option (Hw × Int) :=
  if hw.flagsChk delaying then
    some (if hw.bus ≠ .pcie ∧ w.busErr = true then { hw with busResetOngoing := false } else hw, 0)
  else match vifReset turns w.removal slots (startRun hw) with
    | none => none
    | some (hw, ret) =>
      if ret ≠ 0 then some (finish hw, ret)
      else match fwReload turns w.reload (hw.flagsClr [.dropXmitPkt]) with
        | none => none
        | some (hw, ret) =>
          if ret ≠ 0 then some (finish hw, ret)
          else (vifRestart turns w.restart slots w.locals hw).map fun done => (finish done.1, done.2)

/-- **A run leaves the driver usable.** -/
structure LeavesUsable (w : World) (hw : Hw) : Prop where
  ends : ∃ turns, (doit turns w hw).isSome
  attempts : ∀ turns hw' ret, doit turns w hw = some (hw', ret) → hw'.attempts ≤ 4
  clear : ∀ turns hw' ret, doit turns w hw = some (hw', ret) →
    hw'.flagsChk [.stateOngoing, .dropXmitPkt, .fwOngoing, .ipcOngoing] = false
  success : ∀ turns hw' ret, doit turns w hw = some (hw', ret) → ret = 0 →
    hw'.restarted = true ∧ ∀ i ∈ slots, ∀ v, hw.ifaces.vifTable i = some v → v ∈ hw'.added

/-- What the functions look at once commands are let through. -/
def Hw.working (hw : Hw) : Setting := { hw.setting with blocked := false }

def World.RestartReports (w : World) (hw : Hw) : Prop :=
  w.restart.Reports hw.working slots w.locals (resetAll slots hw.ifaces)

/-- **What a run must meet**: the waits end; no interface lacks its net device, or the flags were clear
before; the reload clears the flags; and when everything reports success, the start request and the request
of each interface have come to the firmware. -/
structure Recovers (w : World) (hw : Hw) : Prop where
  resetEnds : ResetEnds hw.setting w.removal slots hw.ifaces
  broken : ¬Resets slots hw.ifaces → hw.blocked = false ∧ hw.flags .fwOngoing = false
  reloadEnds : Resets slots hw.ifaces → w.reload.Ends hw
  clears : Resets slots hw.ifaces → w.reload.ClearsIpc hw ∧ w.reload.ClearsFw hw
  restartEnds : Resets slots hw.ifaces → w.reload.Reports hw →
    w.restart.Ends hw.working slots w.locals (resetAll slots hw.ifaces)
  honest : Resets slots hw.ifaces → w.reload.Reports hw → w.RestartReports hw →
    w.reload.Restarts hw ∧ ∀ i ∈ slots, ∀ v, hw.ifaces.vifTable i = some v →
      w.restart.AddsAgain hw.working v slots w.locals (resetAll slots hw.ifaces)

/-- What a run leaves. -/
structure Outcome (w : World) (hw hw' : Hw) (ret : Int) : Prop where
  attempts : hw'.attempts ≤ 4
  state : hw'.flags .stateOngoing = false
  drop : hw'.flags .dropXmitPkt = false
  ipc : hw'.blocked = false ↔
    (Resets slots hw.ifaces → w.reload.ClearsIpc hw) ∧ (¬Resets slots hw.ifaces → hw.blocked = false)
  fw : hw'.flags .fwOngoing = false ↔ (Resets slots hw.ifaces → w.reload.ClearsFw hw) ∧
    (¬Resets slots hw.ifaces → hw.flags .fwOngoing = false)
  code : ret = 0 ↔ Resets slots hw.ifaces ∧ w.reload.Reports hw ∧
    w.restart.Reports { hw.setting with blocked := hw'.blocked } slots w.locals (resetAll slots hw.ifaces)
  started : ret = 0 → (hw'.restarted = true ↔ w.reload.Restarts hw)
  added : ret = 0 → ∀ u, u ∈ hw'.added ↔ w.restart.AddsAgain { hw.setting with blocked := hw'.blocked } u
    slots w.locals (resetAll slots hw.ifaces)

section Run

variable {turns : ℕ} {w : World} {hw hw' : Hw} {ret : Int}

theorem ReloadLeaves.setting {r : Reload} (left : ReloadLeaves r hw hw' ret) :
    hw'.setting = { hw.setting with blocked := hw'.blocked } := by
  have saved := left.kept .assocInfoSaved (by decide) (by decide)
  show Setting.mk hw'.bus hw'.blocked (hw'.flags .assocInfoSaved) hw'.assocInfo = _
  rw [left.bus, saved, left.assocInfo]
  rfl

theorem flag_clear {fs : List Flag} {f : Flag} (clear : hw.flagsChk fs = false) (member : f ∈ fs) :
    hw.flags f = false :=
  Bool.eq_false_iff.mpr (List.any_eq_false.mp clear f member)

/-- **What a run leaves.** -/
theorem outcome_of_doit (begins : hw.flagsChk delaying = false)
    (ended : doit turns w hw = some (hw', ret)) : Outcome w hw hw' ret := by
  unfold doit at ended
  rw [begins, if_neg Bool.false_ne_true] at ended
  split at ended
  case h_1 => exact absurd ended (some_ne_none _).symm
  case h_2 hw₁ code down =>
    obtain ⟨f, rfl, reset, ifaces⟩ := vifReset_spec down
    split at ended
    case isTrue failed =>
      cases Option.some.inj ended
      have broken : ¬Resets slots hw.ifaces := fun resets => failed (reset.mpr resets)
      exact
        { attempts := Nat.zero_le 4
          state := rfl
          drop := rfl
          ipc := ⟨fun clear => ⟨fun resets => absurd resets broken, fun _ => clear⟩, fun both => both.2 broken⟩
          fw := ⟨fun clear => ⟨fun resets => absurd resets broken, fun _ => clear⟩, fun both => both.2 broken⟩
          code := iff_of_false failed fun all => broken all.1
          started := fun zero => absurd zero failed
          added := fun zero => absurd zero failed }
    case isFalse zero =>
      have zero : code = 0 := not_not.mp zero
      have resets : Resets slots hw.ifaces := reset.mp zero
      obtain rfl := ifaces zero
      split at ended
      case h_1 => exact absurd ended (some_ne_none _).symm
      case h_2 hw₂ code₂ loaded =>
        have left := fwReload_spec loaded
        have both (P Q R : Prop) (same : R ↔ P) :
            R ↔ (Resets slots hw.ifaces → P) ∧ (¬Resets slots hw.ifaces → Q) := by
          rw [same]
          exact ⟨fun p => ⟨fun _ => p, fun broken => absurd resets broken⟩, fun pq => pq.1 resets⟩
        split at ended
        case isTrue failed =>
          cases Option.some.inj ended
          exact
            { attempts := left.attempts
              state := rfl
              drop := rfl
              ipc := both _ _ _ left.ipc
              fw := both _ _ _ left.fw
              code := iff_of_false failed fun all => failed (left.ret.mpr all.2.1)
              started := fun zero => absurd zero failed
              added := fun zero => absurd zero failed }
        case isFalse zero₂ =>
          have zero₂ : code₂ = 0 := not_not.mp zero₂
          have reports : w.reload.Reports hw := left.ret.mp zero₂
          obtain ⟨⟨hw₃, code₃⟩, restarted, same⟩ := Option.map_eq_some_iff.mp ended
          cases same
          have last := vifRestart_spec restarted
          have blocked : hw₃.blocked = hw₂.blocked := congrArg Setting.blocked last.keeps.setting
          have setting : hw₂.setting = { hw.setting with blocked := hw₃.blocked } := by
            rw [left.setting, blocked]
            rfl
          have code := last.code
          have added := last.added
          rw [setting, left.ifaces] at code added
          exact
            { attempts := last.keeps.attempts.trans_le left.attempts
              state := rfl
              drop := rfl
              ipc := both _ _ _ ((iff_of_eq (congrArg (· = false) blocked)).trans left.ipc)
              fw := both _ _ _ ((iff_of_eq (congrArg (· = false) last.keeps.fw)).trans left.fw)
              code := code.trans ⟨fun all => ⟨resets, reports, all⟩, fun all => all.2.2⟩
              started := fun _ => by
                show hw₃.restarted = true ↔ _
                rw [last.keeps.restarted, left.restarted]
                exact or_iff_right Bool.false_ne_true
              added := fun done u => by
                show u ∈ hw₃.added ↔ _
                rw [added done u, left.added]
                exact or_iff_right List.not_mem_nil }

/-- What a run that ended has met. -/
structure Met (w : World) (hw hw' : Hw) : Prop where
  reset : ResetEnds hw.setting w.removal slots hw.ifaces
  reload : Resets slots hw.ifaces → w.reload.Ends hw
  restart : Resets slots hw.ifaces → w.reload.Reports hw →
    w.restart.Ends { hw.setting with blocked := hw'.blocked } slots w.locals (resetAll slots hw.ifaces)

theorem met_of_doit (begins : hw.flagsChk delaying = false)
    (ended : doit turns w hw = some (hw', ret)) : Met w hw hw' := by
  unfold doit at ended
  rw [begins, if_neg Bool.false_ne_true] at ended
  split at ended
  case h_1 => exact absurd ended (some_ne_none _).symm
  case h_2 hw₁ code down =>
    have resetEnds : ResetEnds (startRun hw).setting w.removal slots (startRun hw).ifaces :=
      ResetEnds.of_isSome (isSome_iff_exists.mpr ⟨_, down⟩)
    obtain ⟨f, rfl, reset, ifaces⟩ := vifReset_spec down
    split at ended
    case isTrue failed =>
      have broken : ¬Resets slots hw.ifaces := fun resets => failed (reset.mpr resets)
      exact ⟨resetEnds, fun resets => absurd resets broken, fun resets => absurd resets broken⟩
    case isFalse zero =>
      obtain rfl := ifaces (not_not.mp zero)
      split at ended
      case h_1 => exact absurd ended (some_ne_none _).symm
      case h_2 hw₂ code₂ loaded =>
        have reloadEnds := Reload.Ends.of_isSome (isSome_iff_exists.mpr ⟨_, loaded⟩)
        have left := fwReload_spec loaded
        refine ⟨resetEnds, fun _ => reloadEnds, fun _ reports => ?_⟩
        rw [if_neg (not_not.mpr (left.ret.mpr reports))] at ended
        obtain ⟨⟨hw₃, code₃⟩, restarted, same⟩ := Option.map_eq_some_iff.mp ended
        cases same
        have last := vifRestart_spec restarted
        have ends := Restart.Ends.of_isSome (isSome_iff_exists.mpr ⟨_, restarted⟩)
        have blocked : hw₃.blocked = hw₂.blocked := congrArg Setting.blocked last.keeps.setting
        have setting : hw₂.setting = { hw.setting with blocked := hw₃.blocked } := by
          rw [left.setting, blocked]
          rfl
        rw [setting, left.ifaces] at ends
        exact ends

theorem doit_isSome (begins : hw.flagsChk delaying = false) (recovers : Recovers w hw) :
    ∀ᶠ turns in atTop, (doit turns w hw).isSome := by
  have reset := vifReset_isSome recovers.resetEnds
  by_cases resets : Resets slots hw.ifaces
  · have reload := fwReload_isSome (recovers.reloadEnds resets)
    have restart : ∀ᶠ turns in atTop, w.reload.Reports hw → ∀ hw₂ : Hw, hw₂.setting = hw.working →
        hw₂.ifaces = resetAll slots hw.ifaces →
        (vifRestart turns w.restart slots w.locals hw₂).isSome := by
      by_cases reports : w.reload.Reports hw
      · exact (vifRestart_isSome (recovers.restartEnds resets reports)).mono fun turns done _ => done
      · exact .of_forall fun _ other => absurd other reports
    refine (reset.and (reload.and restart)).mono fun turns all => ?_
    obtain ⟨down, load, again⟩ := all
    obtain ⟨⟨hw₁, code⟩, downed⟩ := isSome_iff_exists.mp (down (startRun hw) rfl rfl)
    unfold doit
    rw [begins, if_neg Bool.false_ne_true, downed]
    dsimp only
    obtain ⟨f, same, code₁, ifaces⟩ := vifReset_spec downed
    split
    · rfl
    case isFalse zero =>
      obtain ⟨⟨hw₂, code₂⟩, loaded⟩ :=
        isSome_iff_exists.mp (load (hw₁.flagsClr [.dropXmitPkt]) (by rw [same]; rfl))
      rw [loaded]
      dsimp only
      have left := fwReload_spec loaded
      obtain rfl := ifaces (not_not.mp zero)
      subst same
      split
      · rfl
      case isFalse zero₂ =>
        have free : hw₂.blocked = false := left.ipc.mpr (recovers.clears resets).1
        have setting : hw₂.setting = hw.working := by
          rw [left.setting, free]
          rfl
        rw [Option.isSome_map]
        exact again (left.ret.mp (not_not.mp zero₂)) hw₂ setting left.ifaces
  · refine reset.mono fun turns down => ?_
    obtain ⟨⟨hw₁, code⟩, downed⟩ := isSome_iff_exists.mp (down (startRun hw) rfl rfl)
    unfold doit
    rw [begins, if_neg Bool.false_ne_true, downed]
    dsimp only
    obtain ⟨f, rfl, code₁, ifaces⟩ := vifReset_spec downed
    rw [if_pos fun zero => resets (code₁.mp zero)]
    rfl

end Run

/-! ### Two runs -/

/-- All that is asked is answered well; the platform is reset if `ready`. -/
def answering (ready : Bool) : World where
  busErr := false
  removal _ _ := ⟨false, ⟨false, 0⟩⟩
  reload :=
    { attempts := fun _ =>
        { platform := ⟨if ready then 0 else -1, 0, 0, 0, 0, fun _ => some .ready, 0, true, true, true, 0, 0⟩
          reset := ⟨false, 0⟩
          meConfig := ⟨false, 0⟩
          meChanConfig := ⟨false, 0⟩
          start := ⟨false, ⟨false, 0⟩⟩ }
      pcie := ⟨0, ⟨false, ⟨false, 0⟩⟩⟩ }
  restart := ⟨⟨0, 0⟩, 0, fun _ => ⟨⟨false, 0⟩, ⟨0, 0⟩⟩, fun _ => ⟨⟨false, 0⟩, 0⟩, fun _ => 0,
    fun _ _ => ⟨false, ⟨false, 0⟩⟩⟩

def oneStation : Hw where
  bus := .usb
  flags _ := false
  enabled := true
  isRecyOngoing := false
  busResetOngoing := false
  assocInfo := false
  ifaces :=
    { vifTable := fun i => if i = 0 then some 0 else none
      ndev := fun _ => true
      iftype := fun _ => .station
      staList := fun _ => 0
      vifIndex := fun _ => 0
      up := fun _ => true }
  attempts := 0
  restarted := false
  added := []

theorem answering_attempt (k : ℕ) : ((answering true).reload.attempts k).Restarts .usb := by
  have ready : W2l.Lib.Replies (fun _ : ℕ => some Chip.ready) .ready :=
    ⟨0, rfl, fun m lt => absurd lt (Nat.not_lt_zero m)⟩
  exact ⟨⟨⟨⟨rfl, ready, rfl⟩, rfl⟩, rfl⟩, fun both => Bool.false_ne_true both.2,
    fun both => Bool.false_ne_true both.2, rfl, rfl⟩

end W2l.Recy
