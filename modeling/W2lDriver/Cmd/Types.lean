/-
**The command manager's data: commands, messages, threads and what the code did.**

The command manager (`aml_cmds.c`, `aml_send_msg`, `ipc_host_msg_push`) sends one message at a time
to the firmware and waits for its acknowledgement and, when asked for, its confirmation.

* `AmlCmd`, `CmdFlags` — `struct aml_cmd` and its flag bits; `CmdId` stands for the address of a
  command, and no address is used twice.
* `CallerPc`, `MsgTask` — where the thread that called `aml_send_msg` and the thread `aml_msg_task`
  stand between two lock sections.
* `Event` — what the code did to a command, newest first in `AmlHw.log`; no function reads the log.
* `AmlHw` — the part of `struct aml_hw`, of `struct aml_cmd_mgr` and of `struct ipc_host_env_tag`
  these functions use.
-/

import Mathlib.Algebra.Order.Ring.Nat

namespace W2l.Cmd

/-! ### Message identifiers -/

/-- `lmac_msg_id_t`. -/
abbrev MsgId := Nat

abbrev mmResetCfm : MsgId := 1
abbrev mmStartReq : MsgId := 2
abbrev mmStartCfm : MsgId := 3
abbrev mmVersionCfm : MsgId := 5
abbrev mmSetIdleCfm : MsgId := 35
abbrev mmSetPsModeCfm : MsgId := 50
abbrev mmTimUpdateReq : MsgId := 65
abbrev mmBfmerEnableReq : MsgId := 80
abbrev mmOtherReq : MsgId := 105
abbrev mmMsgBypassId : MsgId := 1023
abbrev tdlsPeerTrafficIndReq : MsgId := 3079
abbrev meConfigCfm : MsgId := 5121
abbrev meChanConfigCfm : MsgId := 5123
abbrev meTrafficIndReq : MsgId := 5132
abbrev meTrafficIndCfm : MsgId := 5133
abbrev meRcSetRateReq : MsgId := 5136
abbrev smExternalAuthRequiredRsp : MsgId := 6151
abbrev meshPathCreateReq : MsgId := 9224
abbrev meshProxyAddReq : MsgId := 9228
abbrev privEfuseReadResult : MsgId := 16391

abbrev mmSubSetSuspendReq : Nat := 3
abbrev mmSubScanuCancelReq : Nat := 5
abbrev mmSubShutdown : Nat := 43

def isNonBlockingMsg (id : MsgId) : Bool :=
  id = mmTimUpdateReq ∨ id = meRcSetRateReq ∨ id = mmBfmerEnableReq ∨ id = meTrafficIndReq ∨
    id = tdlsPeerTrafficIndReq ∨ id = meshPathCreateReq ∨ id = meshProxyAddReq ∨
    id = smExternalAuthRequiredRsp

/-- `aml_msg_send_mtheod`: the messages left to `aml_msg_task` on SDIO and USB. -/
def amlMsgSendMtheod (id : MsgId) : Bool :=
  id = meTrafficIndReq ∨ id = smExternalAuthRequiredRsp

/-! ### Return codes -/

abbrev eIntr : Int := -4
abbrev eNoMem : Int := -12
abbrev eBusy : Int := -16
abbrev ePipe : Int := -32
abbrev eTimedOut : Int := -110

/-! ### Commands and messages -/

inductive BusType
  | usb | sdio | pcie
  deriving DecidableEq, Repr

/-- `AML_CMD_FLAG_*`. -/
structure CmdFlags where
  nonblock : Bool := false
  reqCfm : Bool := false
  waitPush : Bool := false
  waitAck : Bool := false
  waitCfm : Bool := false
  done : Bool := false
  callThread : Bool := false
  deriving DecidableEq, Repr

/-- `AML_CMD_WAIT_COMPLETE`: nothing is waited for any more. -/
def CmdFlags.waitComplete (flags : CmdFlags) : Bool :=
  !(flags.waitAck || flags.waitCfm)

/-- `struct lmac_msg`, a message to the firmware; `param` is its parameter in words. -/
structure LmacMsg where
  id : MsgId
  param : List Nat := []
  deriving DecidableEq, Repr

/-- `struct ipc_e2a_msg`, a message from the firmware. -/
structure E2aMsg where
  id : MsgId
  paramLen : Nat := 0
  param : List UInt8 := []
  deriving DecidableEq, Repr

abbrev amlCmdE2amsgLenMax : Nat := 1024

/-- `memcpy(cmd->e2a_msg, &msg->param, msg->param_len)` with the length cut to the maximum. -/
def E2aMsg.copyTo (msg : E2aMsg) (buffer : List UInt8) : List UInt8 :=
  let len := min msg.paramLen amlCmdE2amsgLenMax
  msg.param.take len ++ buffer.drop len

abbrev CmdId := Nat

/-- `struct aml_cmd`; `complete` is its completion, done or not. -/
structure AmlCmd where
  id : MsgId := 0
  reqid : MsgId := 0
  a2eMsg : LmacMsg := { id := 0 }
  e2aMsg : Option (List UInt8) := none
  tkn : BitVec 32 := 0
  flags : CmdFlags := {}
  mmSubId : Nat := 0
  complete : Bool := false
  result : Int := 0
  deriving DecidableEq, Repr

/-! ### Threads and events -/

/-- Where the thread that called `aml_send_msg` for a command stands. -/
inductive CallerPc
  | unborn            -- the call has not been made
  | direct            -- linked and not deferred, the lock released: about to push
  | signal            -- `WAIT_PUSH` set for a `CALL_THREAD` command: about to `up` the semaphore
  | freeMsg           -- pushed: about to free `cmd->a2e_msg`
  | wait              -- in `wait_for_completion_killable_timeout`
  | expired           -- the wait timed out, the lock not yet taken
  | killed            -- a fatal signal ended the wait: polling `DONE`
  | leave (ret : Int) -- `cmd_mgr_queue` returned to `aml_send_msg`
  | returned (ret : Int)
  deriving DecidableEq, Repr

/-- Where `aml_msg_task` stands. -/
inductive MsgTask
  | idle                            -- waiting for `aml_msg_sem`
  | picked (cursor : Option CmdId)  -- scan over; `none` is the list head, not a null pointer
  | cleared (cmd : CmdId)           -- `WAIT_PUSH` cleared
  | pushed (cmd : CmdId)            -- about to free `cmd->a2e_msg`
  | lost                            -- wrote and freed through the list head
  deriving DecidableEq, Repr

/-- Which code called `ipc_host_msg_push`. -/
inductive PushPath
  | queue | llind | msgind | msgTask
  deriving DecidableEq, Repr

/-- What the code did; memory of a command is read by `walk`, `use` and by most other events. -/
inductive Event
  | bypass (ret : Int)                                  -- `aml_send_msg` made no command
  | refuse (cmd : CmdId)                                -- `cmd_mgr_queue` did not link it
  | link (cmd : CmdId)
  | push (cmd : CmdId) (path : PushPath) (busy : Bool)  -- `busy`: `msga2e_hostid` was set
  | pushHead                                            -- the list head taken for a command
  | ack (cmd : CmdId)
  | confirm (cmd : CmdId) (rx : Nat) (id : MsgId)       -- the `rx`-th message received, `msg->id`
  | complete (cmd : CmdId) (linked : Bool)
  | drain (cmd : CmdId)
  | walk (cmds : List CmdId)
  | use (cmd : CmdId)
  | freeCmd (cmd : CmdId)
  | freeMsg (cmd : CmdId)
  deriving DecidableEq, Repr

/-! ### The driver -/

inductive CmdMgrState
  | deinit | inited | crashed
  deriving DecidableEq, Repr

abbrev amlCmdMaxQueued : BitVec 32 := 8

/-- The driver as the command manager sees it. -/
structure AmlHw where
  busType : BusType
  devStarted : Bool := false                 -- `AML_DEV_STARTED` in `flags`
  gPciShutdown : Bool := false
  -- `cmd_mgr`
  state : CmdMgrState := .inited
  nextTkn : BitVec 32 := 0
  queueSz : BitVec 32 := 0
  maxQueueSz : BitVec 32 := amlCmdMaxQueued
  cmds : List CmdId := []
  -- `ipc_env`
  msga2eHostid : Option CmdId := none
  msga2eCnt : BitVec 8 := 0
  msgA2eBuf : Option LmacMsg := none
  -- threads
  amlMsgSem : Nat := 0
  task : MsgTask := .idle
  irq : Option CmdId := none                 -- acknowledged, `cmd_mgr_llind` not yet run
  pc : CmdId → CallerPc := fun _ => .unborn
  -- memory and history
  heap : CmdId → AmlCmd := fun _ => {}
  newCmd : CmdId := 0
  rxCnt : Nat := 0
  log : List Event := []

namespace AmlHw

/-- The flags of a command. -/
@[simp] abbrev flags (s : AmlHw) (c : CmdId) : CmdFlags := (s.heap c).flags

@[simp] def emit (s : AmlHw) (e : Event) : AmlHw := { s with log := e :: s.log }

@[simp] def goto (s : AmlHw) (c : CmdId) (pc : CallerPc) : AmlHw :=
  { s with pc := Function.update s.pc c pc }

@[simp] def onCmd (s : AmlHw) (c : CmdId) (f : AmlCmd → AmlCmd) : AmlHw :=
  { s with heap := Function.update s.heap c (f (s.heap c)) }

@[simp] def onFlags (s : AmlHw) (c : CmdId) (f : CmdFlags → CmdFlags) : AmlHw :=
  s.onCmd c fun cmd => { cmd with flags := f cmd.flags }

end AmlHw

end W2l.Cmd
