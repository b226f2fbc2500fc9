/-
**The command manager as a transition system.**

One action is one lock section, or one step of a thread between two lock sections; any interleaving
of the callers, `aml_msg_task`, the acknowledgement interrupt and the firmware's messages is a run.

* `Act`, `step` — the actions and when they can happen.
* `cmdSystem` — the system that starts after `aml_cmd_mgr_init` and `ipc_host_init` on a given bus.
-/

import W2lDriver.Cmd.Manager
import W2lDriver.Lib.Execution

namespace W2l.Cmd

open Lib (System)
open List (suffix_cons suffix_refl)

/-- What may happen next. -/
inductive Act
  | sendMsg (req : SendReq) (env : SendEnv)
  | pushNow (cmd : CmdId)
  | signal (cmd : CmdId)
  | freeMsg (cmd : CmdId)
  | wake (cmd : CmdId)                       -- the wait ends by `complete`
  | expire (cmd : CmdId)                     -- the wait ends by its time-out
  | kill (cmd : CmdId)                       -- the wait ends by a fatal signal
  | poll (cmd : CmdId)
  | timeOut (cmd : CmdId)
  | finish (cmd : CmdId)
  | msgack                                   -- the firmware acknowledges
  | llind
  | msgind (msg : E2aMsg) (accept : Bool)    -- the firmware sends a message
  | drain
  | taskWake
  | taskClear
  | taskPush
  | taskFree
  | crash                                    -- the state is set to crashed from outside
  | pciShutdown
  | devStop                                  -- `AML_DEV_STARTED` is cleared
  deriving DecidableEq, Repr

namespace AmlHw

/-- The effect of an action where it can happen; nothing is modelled after `aml_msg_task` has
written through the list head. -/
def step (s : AmlHw) (a : Act) : Option AmlHw :=
  if s.task = .lost then none else
  match a with
  | .sendMsg req env => some (s.amlSendMsg req env)
  | .pushNow c => if s.pc c = .direct then some (s.pushNow c) else none
  | .signal c => if s.pc c = .signal then some (s.signal c) else none
  | .freeMsg c => if s.pc c = .freeMsg then some (s.freeMsg c) else none
  | .wake c =>
    if s.pc c = .wait ∧ (s.heap c).complete = true then
      some ((s.emit (.use c)).goto c (.leave 0)) else none
  | .expire c =>
    if s.pc c = .wait ∧ (s.heap c).complete = false then
      some ((s.emit (.use c)).goto c .expired) else none
  | .kill c =>
    if s.pc c = .wait ∧ (s.heap c).complete = false then
      some ((s.emit (.use c)).goto c .killed) else none
  | .poll c => if s.pc c = .killed then some (s.poll c) else none
  | .timeOut c => if s.pc c = .expired ∨ s.pc c = .killed then some (s.timeOut c) else none
  | .finish c => match s.pc c with
    | .leave ret => some (s.finish c ret)
    | _ => none
  | .msgack => if s.irq = none then some s.msgackHandler else none
  | .llind => match s.irq with
    | some c => some (s.takeIrq.cmdMgrLlind c)
    | none => none
  | .msgind msg accept => some (s.cmdMgrMsgind msg accept)
  | .drain => some s.cmdMgrDrain
  | .taskWake => if s.task = .idle ∧ 0 < s.amlMsgSem then some s.taskWake else none
  | .taskClear => match s.task with
    | .picked cursor => some (s.taskClear cursor)
    | _ => none
  | .taskPush => match s.task with
    | .cleared c => some (s.taskPush c)
    | _ => none
  | .taskFree => match s.task with
    | .pushed c => some (s.taskFree c)
    | _ => none
  | .crash => some { s with state := .crashed }
  | .pciShutdown => some { s with gPciShutdown := true }
  | .devStop => some { s with devStarted := false }

end AmlHw

/-- The driver after `aml_cmd_mgr_init` and `ipc_host_init`. -/
def cmdSystem (bus : BusType) : System AmlHw Act where
  init := { busType := bus }
  step := AmlHw.step

/-- Every action may happen whenever it can. -/
abbrev Anything : AmlHw → Act → Prop := fun _ _ => True

/-- A blocking request that may be sent before the device is started. -/
def startReq : SendReq where
  msg := { id := mmStartReq }
  reqcfm := true
  reqid := mmStartCfm

/-- The firmware's confirmation of `startReq`. -/
def startCfm : E2aMsg where
  id := mmStartCfm

/-- Another one. -/
def versionReq : SendReq where
  msg := { id := 4 }
  reqcfm := true
  reqid := mmVersionCfm

/-! ### What a run did -/

def Event.linked : Event → Option CmdId
  | .link c => some c
  | _ => none

def Event.pushed : Event → Option CmdId
  | .push c _ _ => some c
  | _ => none

def Event.acked : Event → Option CmdId
  | .ack c => some c
  | _ => none

def Event.quiet : Event → Bool
  | .link _ | .push _ _ _ | .pushHead | .ack _ => false
  | _ => true

def links (log : List Event) : List CmdId := (log.filterMap Event.linked).reverse

/-- The commands `ipc_host_msg_push` was called for so far, oldest first. -/
def pushes (log : List Event) : List CmdId := (log.filterMap Event.pushed).reverse

/-- The commands the firmware has acknowledged so far, oldest first. -/
def acks (log : List Event) : List CmdId := (log.filterMap Event.acked).reverse

@[simp] theorem links_nil : links [] = [] := rfl

@[simp] theorem pushes_nil : pushes [] = [] := rfl

@[simp] theorem links_cons (e : Event) (log : List Event) : links (e :: log) = links log ++ e.linked.toList := by
  cases e <;> simp [links, Event.linked, List.filterMap_cons]

@[simp] theorem pushes_cons (e : Event) (log : List Event) : pushes (e :: log) = pushes log ++ e.pushed.toList := by
  cases e <;> simp [pushes, Event.pushed, List.filterMap_cons]

@[simp] theorem acks_nil : acks [] = [] := rfl

@[simp] theorem acks_cons (e : Event) (log : List Event) : acks (e :: log) = acks log ++ e.acked.toList := by
  cases e <;> simp [acks, Event.acked, List.filterMap_cons]

theorem quiet_append {es : List Event} (log : List Event) (quiet : ∀ e ∈ es, e.quiet = true) :
    links (es ++ log) = links log ∧ pushes (es ++ log) = pushes log ∧ acks (es ++ log) = acks log := by
  induction es with
  | nil => exact ⟨rfl, rfl, rfl⟩
  | cons e es ih =>
    obtain ⟨links, pushes, acks⟩ := ih fun e' later => quiet e' (by simp [later])
    have now := quiet e (by simp)
    cases e <;>
      simp_all [Event.quiet, Event.linked, Event.pushed, Event.acked]

/-! ### What a step can do -/

/-- One constructor for each action that can happen, with when it can. -/
inductive Step (s : AmlHw) : Act → AmlHw → Prop
  | sendMsg (req : SendReq) (env : SendEnv) : Step s (.sendMsg req env) (s.amlSendMsg req env)
  | pushNow (c : CmdId) (here : s.pc c = .direct) : Step s (.pushNow c) (s.pushNow c)
  | signal (c : CmdId) (here : s.pc c = .signal) : Step s (.signal c) (s.signal c)
  | freeMsg (c : CmdId) (here : s.pc c = .freeMsg) : Step s (.freeMsg c) (s.freeMsg c)
  | wake (c : CmdId) (here : s.pc c = .wait) (done : (s.heap c).complete = true) :
      Step s (.wake c) ((s.emit (.use c)).goto c (.leave 0))
  | expire (c : CmdId) (here : s.pc c = .wait) (undone : (s.heap c).complete = false) :
      Step s (.expire c) ((s.emit (.use c)).goto c .expired)
  | kill (c : CmdId) (here : s.pc c = .wait) (undone : (s.heap c).complete = false) :
      Step s (.kill c) ((s.emit (.use c)).goto c .killed)
  | poll (c : CmdId) (here : s.pc c = .killed) : Step s (.poll c) (s.poll c)
  | timeOut (c : CmdId) (here : s.pc c = .expired ∨ s.pc c = .killed) : Step s (.timeOut c) (s.timeOut c)
  | finish (c : CmdId) (ret : Int) (here : s.pc c = .leave ret) : Step s (.finish c) (s.finish c ret)
  | msgack (free : s.irq = none) : Step s .msgack s.msgackHandler
  | llind (c : CmdId) (here : s.irq = some c) : Step s .llind (s.takeIrq.cmdMgrLlind c)
  | msgind (msg : E2aMsg) (accept : Bool) : Step s (.msgind msg accept) (s.cmdMgrMsgind msg accept)
  | drain : Step s .drain s.cmdMgrDrain
  | taskWake (here : s.task = .idle) (up : 0 < s.amlMsgSem) : Step s .taskWake s.taskWake
  | taskClear (cursor : Option CmdId) (here : s.task = .picked cursor) : Step s .taskClear (s.taskClear cursor)
  | taskPush (c : CmdId) (here : s.task = .cleared c) : Step s .taskPush (s.taskPush c)
  | taskFree (c : CmdId) (here : s.task = .pushed c) : Step s .taskFree (s.taskFree c)
  | crash : Step s .crash { s with state := .crashed }
  | pciShutdown : Step s .pciShutdown { s with gPciShutdown := true }
  | devStop : Step s .devStop { s with devStarted := false }

theorem AmlHw.step_cases {s s' : AmlHw} {a : Act} (stepped : s.step a = some s') : s.task ≠ .lost ∧ Step s a s' := by
  unfold AmlHw.step at stepped
  by_cases lost : s.task = .lost
  · simp [lost] at stepped
  refine ⟨lost, ?_⟩
  rw [if_neg lost] at stepped
  cases a with
  | sendMsg req env => exact Option.some.inj stepped ▸ .sendMsg req env
  | pushNow c =>
    obtain ⟨here, rfl⟩ := by simpa using stepped
    exact .pushNow c here
  | signal c =>
    obtain ⟨here, rfl⟩ := by simpa using stepped
    exact .signal c here
  | freeMsg c =>
    obtain ⟨here, rfl⟩ := by simpa using stepped
    exact .freeMsg c here
  | wake c =>
    obtain ⟨⟨here, done⟩, rfl⟩ := by simpa [-Bool.not_eq_true] using stepped
    exact .wake c here done
  | expire c =>
    obtain ⟨⟨here, undone⟩, rfl⟩ := by simpa [-Bool.not_eq_true] using stepped
    exact .expire c here undone
  | kill c =>
    obtain ⟨⟨here, undone⟩, rfl⟩ := by simpa [-Bool.not_eq_true] using stepped
    exact .kill c here undone
  | poll c =>
    obtain ⟨here, rfl⟩ := by simpa using stepped
    exact .poll c here
  | timeOut c =>
    obtain ⟨here, rfl⟩ := by simpa using stepped
    exact .timeOut c here
  | finish c =>
    cases here : s.pc c <;> simp only [here, reduceCtorEq, Option.some.injEq] at stepped
    exact stepped ▸ .finish c _ here
  | msgack =>
    obtain ⟨free, rfl⟩ := by simpa using stepped
    exact .msgack free
  | llind =>
    cases here : s.irq <;> simp only [here, reduceCtorEq, Option.some.injEq] at stepped
    exact stepped ▸ .llind _ here
  | msgind msg accept => exact Option.some.inj stepped ▸ .msgind msg accept
  | drain => exact Option.some.inj stepped ▸ .drain
  | taskWake =>
    obtain ⟨⟨here, up⟩, rfl⟩ := by simpa using stepped
    exact .taskWake here up
  | taskClear =>
    cases here : s.task <;> simp only [here, reduceCtorEq, Option.some.injEq] at stepped
    exact stepped ▸ .taskClear _ here
  | taskPush =>
    cases here : s.task <;> simp only [here, reduceCtorEq, Option.some.injEq] at stepped
    exact stepped ▸ .taskPush _ here
  | taskFree =>
    cases here : s.task <;> simp only [here, reduceCtorEq, Option.some.injEq] at stepped
    exact stepped ▸ .taskFree _ here
  | crash => exact Option.some.inj stepped ▸ .crash
  | pciShutdown => exact Option.some.inj stepped ▸ .pciShutdown
  | devStop => exact Option.some.inj stepped ▸ .devStop

/-! ### The log only grows -/

namespace AmlHw

section

variable (s : AmlHw)

include s

variable (c : CmdId)

theorem cmdComplete_log : s.log <:+ (s.cmdComplete c).log := by
  rw [cmdComplete_eq]
  exact ((suffix_cons _ _).trans (List.suffix_append _ _))

theorem ipcHostMsgPush_log (path : PushPath) : s.log <:+ (s.ipcHostMsgPush c path).log := by
  rw [ipcHostMsgPush_eq]
  exact suffix_cons _ _

theorem pushNext_log (path : PushPath) : s.log <:+ (s.pushNext c path).log := by
  unfold pushNext
  exact List.IsSuffix.trans (ipcHostMsgPush_log (s.onFlags c _) c path) (suffix_cons _ _)

theorem handOver_log (next : Option CmdId) (complete : Bool) : s.log <:+ (s.handOver next complete).log := by
  unfold handOver
  split
  · exact suffix_refl _
  · split
    · exact suffix_refl _
    · split
      · exact pushNext_log s _ _
      · exact suffix_refl _

theorem cmdMgrLlind_log : s.log <:+ (s.cmdMgrLlind c).log := by
  obtain ⟨acked, next, scan⟩ : ∃ acked next,
      llindScan s.heap (s.heap c).tkn none s.cmds = (acked, next) := ⟨_, _, rfl⟩
  have seen : s.log <:+ (s.llindAcked c next).log := ⟨[.walk _, .use c], rfl⟩
  cases acked with
  | none =>
    rw [cmdMgrLlind_lost scan]
    exact seen.trans (handOver_log (s.llindSeen c next) next false)
  | some d =>
    cases cfm : (s.flags c).waitCfm with
    | true =>
      rw [cmdMgrLlind_waits scan cfm]
      exact seen.trans (handOver_log _ next false)
    | false =>
      rw [cmdMgrLlind_done scan cfm]
      exact (seen.trans (cmdComplete_log _ c)).trans (handOver_log _ next true)

theorem handNext_log (next : Option CmdId) : s.log <:+ (s.handNext next).log := by
  unfold handNext
  split
  · exact suffix_refl _
  · rename_i next
    split
    · have used : s.log <:+ (s.emit (.use next)).log := suffix_cons _ _
      show s.log <:+ (if (s.flags next).waitPush then (s.emit (.use next)).pushNext next .msgind
        else s.emit (.use next)).log
      split
      · exact used.trans (pushNext_log _ next .msgind)
      · exact used
    · exact suffix_refl _

theorem cmdMgrMsgind_log (msg : E2aMsg) (accept : Bool) : s.log <:+ (s.cmdMgrMsgind msg accept).log := by
  cases found : (if accept then s.awaiting msg.id else none) with
  | none =>
    rw [cmdMgrMsgind_none found]
    exact suffix_cons _ _
  | some c =>
    have seen : s.log <:+ (s.msgindConfirmed msg c).log := ⟨[.confirm c _ _, .walk _], rfl⟩
    cases waits : (s.flags c).waitAck with
    | true =>
      rw [cmdMgrMsgind_waits found waits]
      exact seen
    | false =>
      rw [cmdMgrMsgind_done found waits]
      exact (seen.trans (cmdComplete_log _ c)).trans (handNext_log _ _)

theorem cmdMgrDrain_log : s.log <:+ s.cmdMgrDrain.log := by
  unfold cmdMgrDrain
  generalize s.cmds = cmds
  induction cmds generalizing s with
  | nil => exact suffix_refl _
  | cons c cmds ih =>
    have one : s.log <:+ (s.drainOne c).log := by
      rw [drainOne_eq]
      exact (suffix_cons _ _).trans (List.suffix_append _ _)
    exact one.trans (ih (s.drainOne c))

theorem amlSendMsg_log (req : SendReq) (env : SendEnv) : s.log <:+ (s.amlSendMsg req env).log := by
  unfold amlSendMsg
  split
  · exact suffix_cons _ _
  · unfold cmdMgrQueue
    split
    · exact suffix_cons _ _
    · split <;> exact suffix_cons _ _

theorem timeOut_log : s.log <:+ (s.timeOut c).log := by
  cases done : (s.flags c).done with
  | true =>
    rw [timeOut_done done]
    exact suffix_cons _ _
  | false =>
    rw [timeOut_undone done]
    exact List.IsSuffix.trans (suffix_cons _ _) (cmdComplete_log (s.timedOut c) c)

end

end AmlHw

theorem Step.log_grows {s s' : AmlHw} {a : Act} (step : Step s a s') : s.log <:+ s'.log := by
  cases step with
  | sendMsg req env => exact s.amlSendMsg_log req env
  | pushNow c here =>
    unfold AmlHw.pushNow
    split
    · exact suffix_cons _ _
    · exact s.ipcHostMsgPush_log c .queue
  | signal c here => exact suffix_refl _
  | freeMsg c here => exact ⟨[.freeMsg c, .use c], rfl⟩
  | wake c here done => exact suffix_cons _ _
  | expire c here undone => exact suffix_cons _ _
  | kill c here undone => exact suffix_cons _ _
  | poll c here =>
    rw [AmlHw.poll_eq]
    exact suffix_cons _ _
  | timeOut c here => exact s.timeOut_log c
  | finish c ret here =>
    rw [AmlHw.finish_eq]
    exact List.suffix_append _ _
  | msgack free =>
    unfold AmlHw.msgackHandler
    split
    · exact suffix_refl _
    · exact suffix_cons _ _
  | llind c here => exact s.takeIrq.cmdMgrLlind_log c
  | msgind msg accept => exact s.cmdMgrMsgind_log msg accept
  | drain => exact s.cmdMgrDrain_log
  | taskWake here up => exact suffix_cons _ _
  | taskClear cursor here => cases cursor <;> exact suffix_cons _ _
  | taskPush c here => exact s.ipcHostMsgPush_log c .msgTask
  | taskFree c here => exact ⟨[.freeMsg c, .use c], rfl⟩
  | crash => exact suffix_refl _
  | pciShutdown => exact suffix_refl _
  | devStop => exact suffix_refl _

theorem mem_links_of_suffix {log log' : List Event} (grown : log <:+ log') {c : CmdId}
    (linked : c ∈ links log) : c ∈ links log' := by
  obtain ⟨es, rfl⟩ := grown
  rw [links, List.filterMap_append, List.reverse_append]
  exact List.mem_append_left _ linked

end W2l.Cmd
