/-
**The course of one command: pushed, acknowledged, confirmed, returned.**

What the history says of a command against its flags and its caller, one command at a time.

* `Course` — the view of one command.
* `Course.Ok` — a command whose flags wait for nothing was acknowledged and confirmed, and one that is
  still to be pushed was not.
* `Course.Ok.…` — one lemma for each way the view changes.
-/

import W2lDriver.Cmd.Lifetime

namespace W2l.Cmd

/-- One command and what the history says of it. -/
structure Course where
  born : Prop
  ever : Prop        -- was linked
  linked : Prop
  pc : CallerPc
  nonblock : Bool
  reqCfm : Bool
  waitPush : Bool
  waitAck : Bool
  waitCfm : Bool
  result : Int
  held : Held
  sent : Prop
  acking : Prop      -- acknowledged, `cmd_mgr_llind` not yet run
  pushed : Prop
  acked : Prop
  confirmed : Prop   -- consumed a message with `msg->id == reqid`
  pcie : Prop

/-- The course of `c` in the state `s`. -/
def AmlHw.course (s : AmlHw) (c : CmdId) : Course where
  born := c < s.newCmd
  ever := c ∈ links s.log
  linked := c ∈ s.cmds
  pc := s.pc c
  nonblock := (s.flags c).nonblock
  reqCfm := (s.flags c).reqCfm
  waitPush := (s.flags c).waitPush
  waitAck := (s.flags c).waitAck
  waitCfm := (s.flags c).waitCfm
  result := (s.heap c).result
  held := s.task.held c
  sent := s.msga2eHostid = some c
  acking := s.irq = some c
  pushed := c ∈ pushes s.log
  acked := c ∈ acks s.log
  confirmed := ∃ rx, Event.confirm c rx (s.heap c).reqid ∈ s.log
  pcie := s.busType = .pcie

namespace Course

/-- Pushed, acknowledged and, if asked for, confirmed. -/
@[grind] def done (v : Course) : Prop :=
  v.pushed ∧ v.acked ∧ (v.reqCfm = true → v.confirmed)

/-- Pushed, or held by the thread that pushes it next. -/
@[grind] def going (v : Course) : Prop :=
  v.pushed ∨ v.pc = .direct ∨ v.held = .picked ∨ v.held = .cleared

/-- The call has returned, or is about to. -/
@[grind] def left (v : Course) : Bool :=
  match v.pc with
  | .leave _ | .returned _ => true
  | _ => false

/-- What holds of every command between two steps. -/
structure Ok (v : Course) : Prop where
  unborn : ¬ v.born → ¬ v.ever ∧ ¬ v.linked ∧ v.pc = .unborn ∧ v.held = .no ∧ ¬ v.sent ∧
    ¬ v.acking ∧ ¬ v.pushed ∧ ¬ v.acked
  linked : v.linked → v.ever
  called : v.pc ≠ .unborn → v.left = false → v.ever
  direct : v.pc = .direct → ¬ v.pushed ∧ v.waitPush = false ∧ v.held ≠ .picked ∧ v.held ≠ .cleared
  marked : v.waitPush = true → ¬ v.pushed ∧ v.held ≠ .cleared
  picked : v.held = .picked → v.waitPush = true ∧ v.ever
  cleared : v.held = .cleared → ¬ v.pushed ∧ v.ever
  owned : v.ever → v.waitPush = true ∨ v.pc = .direct ∨ v.held = .cleared ∨ v.pushed
  sent : v.sent ∨ v.acking → v.pushed
  acking : v.acking → v.acked
  pushed : v.pushed → v.ever
  acked : v.acked → v.pushed
  ack : v.ever → v.waitAck = false → v.acked
  cfm : v.ever → v.reqCfm = true → v.waitCfm = false → v.confirmed
  result : v.born → v.result = 0 → v.done
  returned : v.pc = .returned 0 → v.nonblock = false → v.done
  pcie : v.pcie → v.held = .no ∧ v.pc ≠ .signal

variable {v : Course}

/-! ### The call -/

section

variable (ok : v.Ok)

include ok

theorem Ok.refused (unborn : ¬ v.born) {ret : Int} (bad : ret ≠ 0)
    (nonblock reqCfm : Bool) (confirmed : Prop) :
    Ok { v with born := True, pc := .leave ret, nonblock := nonblock, reqCfm := reqCfm,
                waitPush := false, waitAck := false, waitCfm := false, result := ret,
                confirmed := confirmed } := by
  cases ok
  constructor <;> grind

theorem Ok.links (unborn : ¬ v.born) (defer : Bool) (pc : CallerPc)
    (nonblock reqCfm : Bool) (confirmed : Prop)
    (there : (defer = false ∧ pc = .direct) ∨ (defer = true ∧ (pc = .leave 0 ∨ pc = .wait))) :
    Ok { v with born := True, ever := True, linked := True, pc := pc, nonblock := nonblock,
                reqCfm := reqCfm, waitPush := defer, waitAck := true, waitCfm := reqCfm,
                result := eIntr, confirmed := confirmed } := by
  cases ok
  constructor <;> grind

/-- The caller leaves a `CALL_THREAD` command to `aml_msg_task`. -/
theorem Ok.toThread (here : v.pc = .direct) (other : ¬ v.pcie) : Ok { v with pc := .signal, waitPush := true } := by
  cases ok
  constructor <;> grind

theorem Ok.pushDirect (here : v.pc = .direct) (sent : Prop) :
    Ok { v with pc := .freeMsg, sent := sent, pushed := True } := by
  cases ok
  constructor <;> grind

theorem Ok.goesOn {pc : CallerPc} (here : v.left = false)
    (born : v.pc ≠ .unborn ∧ v.pc ≠ .direct)
    (there : pc = .leave 0 ∨ pc = .wait ∨ pc = .expired ∨ pc = .killed) :
    Ok { v with pc := pc } := by
  cases ok
  constructor <;> grind

theorem Ok.returns {ret : Int} (here : v.pc = .leave ret) {ret' : Int}
    (zero : ret' = 0 → v.nonblock = false → v.result = 0) :
    Ok { v with pc := .returned ret' } := by
  cases ok
  constructor <;> grind

/-! ### The firmware and the manager -/

theorem Ok.unsends : Ok { v with sent := False } := by
  cases ok
  constructor <;> grind

theorem Ok.acknowledged (here : v.sent) : Ok { v with sent := False, acking := True, acked := True } := by
  cases ok
  constructor <;> grind

/-- `cmd_mgr_llind`, which may or may not find the command. -/
theorem Ok.llind (here : v.acking) (waitAck : Bool) : Ok { v with acking := False, waitAck := waitAck } := by
  cases ok
  constructor <;> grind

theorem Ok.unlinked {result : Int}
    (zero : result = 0 → v.result = 0 ∨ (v.ever ∧ v.waitAck = false ∧ v.waitCfm = false)) :
    Ok { v with linked := False, result := result } := by
  cases ok
  constructor <;> grind

theorem Ok.fails {result : Int} (bad : result ≠ 0) : Ok { v with result := result } := by
  cases ok
  constructor <;> grind

theorem Ok.consumes : Ok { v with waitCfm := false, confirmed := True } := by
  cases ok
  constructor <;> grind

theorem Ok.handedOver (marked : v.waitPush = true) (linked : v.linked) (pcie : v.pcie)
    (sent : Prop) : Ok { v with waitPush := false, sent := sent, pushed := True } := by
  cases ok
  constructor <;> grind

/-! ### `aml_msg_task` -/

theorem Ok.pick (marked : v.waitPush = true) (linked : v.linked) (other : ¬ v.pcie) :
    Ok { v with held := .picked } := by
  cases ok
  constructor <;> grind

theorem Ok.clear (here : v.held = .picked) : Ok { v with held := .cleared, waitPush := false } := by
  cases ok
  constructor <;> grind

theorem Ok.taskPushes (here : v.held = .cleared) (sent : Prop) :
    Ok { v with held := .pushed, sent := sent, pushed := True } := by
  cases ok
  constructor <;> grind

theorem Ok.taskFrees (here : v.held = .pushed) : Ok { v with held := .no } := by
  cases ok
  constructor <;> grind

end

end Course

end W2l.Cmd
