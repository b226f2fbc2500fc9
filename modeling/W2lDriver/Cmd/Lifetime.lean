/-
**The life of one command.**

What happens to the memory of a command depends only on what the rest of the driver knows about that
command: where its caller stands, its flags, whether it is linked, held by `aml_msg_task` or known to
the firmware. `Life` is that view of one command.

* `Life.Ok` — who still owns the command and its message: the command lives while it is linked
  (non-blocking) or until its caller returns (blocking); the message lives while somebody still has to
  push and free it.
* `Life.Ok.…` — one lemma for each way the view changes.
-/

import W2lDriver.Cmd.Machine

namespace W2l.Cmd

/-- The part of a turn of `aml_msg_task` that holds a command. -/
inductive Held
  | no | picked | cleared | pushed
  deriving DecidableEq, Repr

/-- What `aml_msg_task` holds of the command `c`. -/
def MsgTask.held (task : MsgTask) (c : CmdId) : Held :=
  match task with
  | .picked (some d) => if d = c then .picked else .no
  | .cleared d => if d = c then .cleared else .no
  | .pushed d => if d = c then .pushed else .no
  | _ => .no

/-- One command as the driver sees it. -/
structure Life where
  born : Prop
  linked : Prop
  pc : CallerPc
  nonblock : Bool
  callThread : Bool
  waitPush : Bool
  waitAck : Bool
  done : Bool
  complete : Bool
  held : Held
  sent : Prop        -- at the firmware
  acked : Prop       -- acknowledged, `cmd_mgr_llind` not yet run
  cmdFreed : Prop
  msgFreed : Prop
  pcie : Prop

/-- The life of `c` in the state `s`. -/
def AmlHw.life (s : AmlHw) (c : CmdId) : Life where
  born := c < s.newCmd
  linked := c ∈ s.cmds
  pc := s.pc c
  nonblock := (s.flags c).nonblock
  callThread := (s.flags c).callThread
  waitPush := (s.flags c).waitPush
  waitAck := (s.flags c).waitAck
  done := (s.flags c).done
  complete := (s.heap c).complete
  held := s.task.held c
  sent := s.msga2eHostid = some c
  acked := s.irq = some c
  cmdFreed := Event.freeCmd c ∈ s.log
  msgFreed := Event.freeMsg c ∈ s.log
  pcie := s.busType = .pcie

namespace Life

/-- The caller has returned from `aml_send_msg`. -/
@[grind] def returned (v : Life) : Bool :=
  match v.pc with
  | .returned _ => true
  | _ => false

/-- The caller is past its wait. -/
@[grind] def left (v : Life) : Bool :=
  match v.pc with
  | .leave _ | .returned _ => true
  | _ => false

@[grind] def unsent (v : Life) : Prop := v.waitAck = true ∧ ¬ v.sent ∧ ¬ v.acked

@[grind] def marked (v : Life) : Prop := v.linked ∧ v.waitPush = true

/-- Somebody still has to push the message or to free it. -/
@[grind] def msgOwned (v : Life) : Prop :=
  v.pc = .direct ∨ v.pc = .freeMsg ∨ v.marked ∨ v.held ≠ .no

@[grind] def cmdOwned (v : Life) : Prop :=
  if v.nonblock then v.linked else v.returned = false

@[grind] def pusherDone (v : Life) : Prop := v.pc ≠ .direct ∧ v.pc ≠ .freeMsg ∧ v.held = .no

/-- What holds of every command between two steps. -/
structure Ok (v : Life) : Prop where
  unborn : ¬ v.born → ¬ v.linked ∧ v.pc = .unborn ∧ v.held = .no ∧ ¬ v.sent ∧ ¬ v.acked
  born : v.born → v.pc ≠ .unborn
  cmd : v.cmdFreed ↔ v.born ∧ ¬ v.cmdOwned
  msg : v.msgFreed ↔ v.born ∧ ¬ v.msgOwned
  thread : v.callThread = true → v.nonblock = true
  waiter : v.linked → v.nonblock = false → v.complete = false ∧ v.done = false ∧ v.left = false
  nonblock : v.nonblock = true → v.pc ≠ .wait ∧ v.pc ≠ .expired ∧ v.pc ≠ .killed
  signal : v.pc = .signal → v.nonblock = true ∧ ¬ v.pcie
  direct : v.pc = .direct → v.unsent
  early : v.pc = .direct ∨ v.pc = .freeMsg → v.waitPush = false ∧ v.held = .no ∧ v.cmdOwned
  marked : v.marked → v.unsent
  picked : v.held = .picked → v.marked
  cleared : v.held = .cleared → v.unsent
  held : v.held ≠ .no → v.cmdOwned ∧ ¬ v.pcie
  taken : v.held = .cleared ∨ v.held = .pushed → v.waitPush = false
  away : v.sent ∨ v.acked → v.waitAck = true ∧ (v.nonblock = true → v.linked)
  place : ¬ (v.sent ∧ v.acked)

variable {v : Life}

/-! ### What may still be read -/

section

variable (ok : v.Ok)

include ok

theorem Ok.cmd_of_owned (owned : v.cmdOwned) : ¬ v.cmdFreed := by
  simp [ok.cmd, owned]

theorem Ok.owned_of_linked (linked : v.linked) : v.cmdOwned := by
  have waiter := ok.waiter linked
  grind

theorem Ok.msg_of_owned (owned : v.msgOwned) : ¬ v.msgFreed := by
  simp [ok.msg, owned]

/-- `cmd_mgr_queue` links a new command. -/
theorem Ok.links (unborn : ¬ v.born) (defer : Bool) (pc : CallerPc)
    {nonblock callThread : Bool} (thread : callThread = true → nonblock = true)
    (there : (defer = false ∧ pc = .direct) ∨ (defer = true ∧ nonblock = true ∧ pc = .leave 0) ∨
      (defer = true ∧ nonblock = false ∧ pc = .wait)) :
    Ok { v with born := True, linked := True, pc := pc, nonblock := nonblock,
                callThread := callThread, waitPush := defer, waitAck := true, done := false,
                complete := false } := by
  cases ok
  constructor <;> grind

/-! ### Its caller -/

/-- The caller pushes; nothing is sent after `g_pci_shutdown`. -/
theorem Ok.pushDirect (here : v.pc = .direct) (sent : Prop) : Ok { v with pc := .freeMsg, sent := sent } := by
  cases ok
  constructor <;> grind

/-- The caller leaves a `CALL_THREAD` command to `aml_msg_task`. -/
theorem Ok.toThread (here : v.pc = .direct) (thread : v.callThread = true)
    (other : ¬ v.pcie) : Ok { v with pc := .signal, waitPush := true } := by
  cases ok
  constructor <;> grind

theorem Ok.signalled (here : v.pc = .signal) : Ok { v with pc := .leave 0 } := by
  cases ok
  constructor <;> grind

theorem Ok.callerFrees (here : v.pc = .freeMsg) {pc : CallerPc}
    (there : (pc = .leave 0 ∧ v.nonblock = true) ∨ (pc = .wait ∧ v.nonblock = false)) :
    Ok { v with pc := pc, msgFreed := True } := by
  cases ok
  constructor <;> grind

theorem Ok.givesUp (here : v.pc = .wait) {pc : CallerPc}
    (there : pc = .expired ∨ pc = .killed) : Ok { v with pc := pc } := by
  cases ok
  constructor <;> grind

theorem Ok.leaves (here : v.pc = .wait ∨ v.pc = .expired ∨ v.pc = .killed)
    (unlinked : ¬ v.linked) : Ok { v with pc := .leave 0 } := by
  cases ok
  constructor <;> grind

/-- `aml_send_msg` returns and frees a blocking command. -/
theorem Ok.returns {ret : Int} (here : v.pc = .leave ret) (ret' : Int)
    (free : v.nonblock = true ∨ v.held = .no) :
    Ok { v with pc := .returned ret', cmdFreed := v.cmdFreed ∨ v.nonblock = false } := by
  cases ok
  constructor <;> grind

/-! ### The firmware and the manager -/

theorem Ok.unsends : Ok { v with sent := False } := by
  cases ok
  constructor <;> grind

theorem Ok.acknowledged (here : v.sent) : Ok { v with sent := False, acked := True } := by
  cases ok
  constructor <;> grind

/-- `cmd_mgr_llind` clears `WAIT_ACK`, unless it does not find the command. -/
theorem Ok.llind (here : v.acked) (found : Bool) : Ok { v with acked := False, waitAck := !found } := by
  cases ok
  constructor <;> grind

/-- `cmd_complete`. -/
theorem Ok.completes (unmarked : ¬ v.marked) (away : v.held ≠ .picked)
    (free : v.nonblock = true → v.linked ∧ v.waitAck = false ∧ v.pusherDone) (complete : Bool) :
    Ok { v with linked := False, done := true, complete := complete,
                cmdFreed := v.cmdFreed ∨ v.nonblock = true } := by
  cases ok
  constructor <;> grind

/-- `cmd_mgr_drain`. -/
theorem Ok.drained (linked : v.linked)
    (free : if v.nonblock then v.waitPush = true ∧ v.held = .no else v.waitPush = false) :
    Ok { v with linked := False, complete := v.complete || !v.nonblock, cmdFreed := v.cmdFreed ∨ v.waitPush = true,
                msgFreed := v.msgFreed ∨ v.waitPush = true } := by
  cases ok
  constructor <;> grind

theorem Ok.handedOver (marked : v.marked) (pcie : v.pcie) (sent : Prop) :
    Ok { v with waitPush := false, sent := sent, msgFreed := True } := by
  cases ok
  constructor <;> grind

/-! ### `aml_msg_task` -/

theorem Ok.pick (marked : v.marked) (other : ¬ v.pcie) : Ok { v with held := .picked } := by
  cases ok
  constructor <;> grind

theorem Ok.clear (here : v.held = .picked) : Ok { v with held := .cleared, waitPush := false } := by
  cases ok
  constructor <;> grind

theorem Ok.taskPushes (here : v.held = .cleared) (sent : Prop) : Ok { v with held := .pushed, sent := sent } := by
  cases ok
  constructor <;> grind

theorem Ok.taskFrees (here : v.held = .pushed) : Ok { v with held := .no, msgFreed := True } := by
  cases ok
  constructor <;> grind

end

end Life

end W2l.Cmd
