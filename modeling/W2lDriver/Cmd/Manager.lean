/-
**`aml_cmds.c`, `aml_send_msg` and `ipc_host_msg_push`, one definition per lock section.**

Each definition is what the source does between taking and releasing the manager's lock, or between
two of them on one thread.

* `cmdComplete`, `cmdMgrQueue`, `cmdMgrLlind`, `cmdMgrMsgind`, `cmdMgrDrain` — the functions of the
  manager's table.
* `amlSendMsg`, `finish` — the two halves of `aml_send_msg` around `cmd_mgr->queue`.
* `pushNow`, `signal`, `freeMsg`, `poll`, `timeOut` — what `cmd_mgr_queue` does after its first
  lock section.
* `taskWake`, `taskClear`, `taskPush`, `taskFree` — one turn of `aml_msg_task`.
-/

import W2lDriver.Cmd.Types

namespace W2l.Cmd

open Function (update)

namespace AmlHw

/-! ### Completion and the push to the firmware -/

/-- `cmd_complete`. `list_del` of an entry that is not linked leaves the list as it is. -/
def cmdComplete (s : AmlHw) (c : CmdId) : AmlHw :=
  let cmd := s.heap c
  let s := s.emit (.complete c (decide (c ∈ s.cmds)))
  let s := { s with cmds := s.cmds.erase c, queueSz := s.queueSz - 1 }
  let s := { s with
    devStarted := s.devStarted || decide (cmd.id = mmStartReq ∧ cmd.reqid = mmStartCfm) }
  let s := s.onFlags c fun flags => { flags with done := true }
  if cmd.flags.nonblock then s.emit (.freeCmd c)
  else if cmd.flags.waitComplete then s.onCmd c fun cmd => { cmd with result := 0, complete := true }
  else s

def ipcHostMsgPush (s : AmlHw) (c : CmdId) (path : PushPath) : AmlHw :=
  let s := s.emit (.push c path s.msga2eHostid.isSome)
  if s.busType = .pcie ∧ s.gPciShutdown = true then s
  else { s with msgA2eBuf := some (s.heap c).a2eMsg, msga2eHostid := some c }

/-- The PCIe hand-over in `cmd_mgr_llind` and `cmd_mgr_msgind`: clear `WAIT_PUSH`, push, free. -/
def pushNext (s : AmlHw) (next : CmdId) (path : PushPath) : AmlHw :=
  let s := s.onFlags next fun flags => { flags with waitPush := false }
  (s.ipcHostMsgPush next path).emit (.freeMsg next)

/-- A command after `cmd_complete`. -/
def completed (cmd : AmlCmd) : AmlCmd :=
  let woken := !cmd.flags.nonblock && cmd.flags.waitComplete
  { cmd with
    flags := { cmd.flags with done := true }
    result := if woken then 0 else cmd.result
    complete := woken || cmd.complete }

theorem cmdComplete_eq (s : AmlHw) (c : CmdId) : s.cmdComplete c =
      { s with
        devStarted := s.devStarted ||
          decide ((s.heap c).id = mmStartReq ∧ (s.heap c).reqid = mmStartCfm)
        queueSz := s.queueSz - 1
        cmds := s.cmds.erase c
        heap := update s.heap c (completed (s.heap c))
        log := (if (s.flags c).nonblock then [Event.freeCmd c] else []) ++
          Event.complete c (decide (c ∈ s.cmds)) :: s.log } := by
  cases blocking : (s.heap c).flags.nonblock <;> cases woken : (s.heap c).flags.waitComplete <;>
    simp [cmdComplete, completed, blocking, woken]

theorem ipcHostMsgPush_eq (s : AmlHw) (c : CmdId) (path : PushPath) : s.ipcHostMsgPush c path =
      { s with
        msga2eHostid := if s.busType = .pcie ∧ s.gPciShutdown = true then s.msga2eHostid else some c
        msgA2eBuf := if s.busType = .pcie ∧ s.gPciShutdown = true then s.msgA2eBuf
          else some (s.heap c).a2eMsg
        log := Event.push c path s.msga2eHostid.isSome :: s.log } := by
  by_cases off : s.busType = .pcie ∧ s.gPciShutdown = true <;> simp [ipcHostMsgPush, off]

/-! ### `cmd_mgr_queue` -/

/-- The manager is not empty and its last command is still in the way. -/
def deferPush (s : AmlHw) : Bool :=
  match s.cmds.getLast? with
  | none => false
  | some last =>
    (s.flags last).waitAck || (s.flags last).waitPush ||
      (decide (s.busType = .pcie) && (s.flags last).waitCfm)

/-- Where a caller goes once its command is pushed or deferred. -/
def afterPush (s : AmlHw) (c : CmdId) : CallerPc :=
  if (s.flags c).nonblock then .leave 0 else .wait

/-- The flags and fields `cmd_mgr_queue` writes into the command it links. -/
def queued (s : AmlHw) (cmd : AmlCmd) : AmlCmd :=
  { cmd with
    flags := { cmd.flags with
      waitPush := s.deferPush || cmd.flags.waitPush
      waitAck := true
      waitCfm := cmd.flags.reqCfm || cmd.flags.waitCfm }
    tkn := s.nextTkn
    result := eIntr
    complete := if cmd.flags.nonblock then cmd.complete else false }

/-- The first lock section of `cmd_mgr_queue`. -/
def cmdMgrQueue (s : AmlHw) (c : CmdId) : AmlHw :=
  if s.state = .crashed then
    ((s.onCmd c fun cmd => { cmd with result := ePipe }).emit (.refuse c)).goto c (.leave ePipe)
  else if s.cmds ≠ [] ∧ s.queueSz = s.maxQueueSz then
    ((s.onCmd c fun cmd => { cmd with result := eNoMem }).emit (.refuse c)).goto c (.leave eNoMem)
  else
    let pc := if s.deferPush then s.afterPush c else .direct
    let s := s.onCmd c s.queued
    let s := { s with cmds := s.cmds ++ [c], queueSz := s.queueSz + 1, nextTkn := s.nextTkn + 1 }
    (s.emit (.link c)).goto c pc

/-- After the lock, not deferred: `WAIT_PUSH` for a `CALL_THREAD` command on SDIO and USB, else the
push. -/
def pushNow (s : AmlHw) (c : CmdId) : AmlHw :=
  if s.busType ≠ .pcie ∧ (s.flags c).callThread = true then
    ((s.emit (.use c)).onFlags c fun flags => { flags with waitPush := true }).goto c .signal
  else (s.ipcHostMsgPush c .queue).goto c .freeMsg

/-- `up(&aml_hw->aml_msg_sem)`. -/
def signal (s : AmlHw) (c : CmdId) : AmlHw :=
  { s with amlMsgSem := s.amlMsgSem + 1 }.goto c (s.afterPush c)

/-- `kfree(cmd->a2e_msg)` after the direct push. -/
def freeMsg (s : AmlHw) (c : CmdId) : AmlHw :=
  ((s.emit (.use c)).emit (.freeMsg c)).goto c (s.afterPush c)

/-- One look of a killed waiter at `DONE`. -/
def poll (s : AmlHw) (c : CmdId) : AmlHw :=
  let s := s.emit (.use c)
  if (s.flags c).done then s.goto c (.leave 0) else s

/-- The lock section of a waiter that timed out, or of a killed waiter that stopped polling. -/
def timeOut (s : AmlHw) (c : CmdId) : AmlHw :=
  let s := { s.emit (.use c) with state := .crashed }
  let s := if (s.flags c).done then s
    else (s.onCmd c fun cmd => { cmd with result := eTimedOut }).cmdComplete c
  s.goto c (.leave 0)

def crashedBy (s : AmlHw) (c : CmdId) : AmlHw :=
  { s with state := .crashed, log := .use c :: s.log }

/-- The state in which such a waiter completes its own command. -/
def timedOut (s : AmlHw) (c : CmdId) : AmlHw :=
  (s.crashedBy c).onCmd c fun cmd => { cmd with result := eTimedOut }

theorem timeOut_done {s : AmlHw} {c : CmdId} (done : (s.flags c).done = true) :
    s.timeOut c = (s.crashedBy c).goto c (.leave 0) := by
  have done' : (s.heap c).flags.done = true := done
  simp [timeOut, crashedBy, done']

theorem timeOut_undone {s : AmlHw} {c : CmdId} (undone : (s.flags c).done = false) :
    s.timeOut c = ((s.timedOut c).cmdComplete c).goto c (.leave 0) := by
  have undone' : (s.heap c).flags.done = false := undone
  simp [timeOut, timedOut, crashedBy, undone']

/-! ### `aml_send_msg` -/

end AmlHw

/-- The arguments of `aml_send_msg`: the message, `reqcfm`, `reqid` and the buffer `cfm`. -/
structure SendReq where
  msg : LmacMsg
  reqcfm : Bool := false
  reqid : MsgId
  cfm : Option (List UInt8) := none
  deriving DecidableEq, Repr

/-- What `aml_send_msg` reads of the rest of the driver. -/
structure SendEnv where
  busErr : Bool := false          -- `bus_state_detect.bus_err`
  suspended : Bool := false       -- `state > WIFI_SUSPEND_STATE_NONE || g_pci_msg_suspend`
  recyOngoing : Bool := false     -- `AML_RECY_STATE_ONGOING`
  ipcRecyOngoing : Bool := false  -- `aml_recy` is set and has `AML_RECY_IPC_ONGOING`
  ipcEnv : Bool := true
  kzalloc : Bool := true
  deriving DecidableEq, Repr

def LmacMsg.param0 (msg : LmacMsg) : Nat := msg.param.headD 0

def allowedBeforeStart (reqid : MsgId) : Bool :=
  reqid = mmResetCfm ∨ reqid = mmVersionCfm ∨ reqid = mmStartCfm ∨ reqid = mmSetIdleCfm ∨
    reqid = mmMsgBypassId ∨ reqid = meConfigCfm ∨ reqid = mmSetPsModeCfm ∨
    reqid = meChanConfigCfm ∨ reqid = privEfuseReadResult

/-- `nonblock` of `aml_send_msg`. -/
def SendReq.nonblock (req : SendReq) : Bool :=
  isNonBlockingMsg req.msg.id || decide (req.msg.param0 = mmSubShutdown ∧ req.msg.id = mmOtherReq)

/-- The `struct aml_cmd` that `aml_send_msg` fills in. -/
def SendReq.toCmd (req : SendReq) : AmlCmd where
  id := req.msg.id
  reqid := req.reqid
  a2eMsg := req.msg
  e2aMsg := req.cfm
  flags :=
    { nonblock := req.nonblock, reqCfm := req.reqcfm, callThread := amlMsgSendMtheod req.msg.id }
  mmSubId := if req.msg.id = mmOtherReq then req.msg.param0 else 0
  result := eIntr

namespace AmlHw

/-- The returns of `aml_send_msg` that free the message and make no command. -/
def sendBypass (s : AmlHw) (req : SendReq) (env : SendEnv) : Option Int :=
  if s.busType ≠ .pcie ∧ env.busErr then some 0
  else if env.suspended ∧ req.msg.param0 ≠ mmSubSetSuspendReq ∧
      req.msg.param0 ≠ mmSubScanuCancelReq ∧ req.msg.param0 ≠ mmSubShutdown ∧
      ¬ env.recyOngoing then some eBusy
  else if env.ipcRecyOngoing then some eBusy
  else if ¬ s.devStarted ∧ ¬ allowedBeforeStart req.reqid then some eBusy
  else if ¬ env.ipcEnv then some eBusy
  else if ¬ env.kzalloc then some eNoMem
  else none

/-- `kzalloc` of the command and the fields `aml_send_msg` fills in. -/
def allocCmd (s : AmlHw) (req : SendReq) : AmlHw :=
  { s with heap := Function.update s.heap s.newCmd req.toCmd, newCmd := s.newCmd + 1 }

/-- `aml_send_msg` up to the end of the first lock section of `cmd_mgr_queue`. -/
def amlSendMsg (s : AmlHw) (req : SendReq) (env : SendEnv) : AmlHw :=
  match s.sendBypass req env with
  | some ret => s.emit (.bypass ret)
  | none => (s.allocCmd req).cmdMgrQueue s.newCmd

/-- The state after a new command was refused with `ret`. -/
def refuseNew (s : AmlHw) (req : SendReq) (ret : Int) : AmlHw :=
  { s with
    heap := Function.update s.heap s.newCmd { req.toCmd with result := ret }
    newCmd := s.newCmd + 1
    pc := Function.update s.pc s.newCmd (.leave ret)
    log := .refuse s.newCmd :: s.log }

/-- A new command as `cmd_mgr_queue` links it. -/
def newLinked (s : AmlHw) (req : SendReq) : AmlCmd :=
  { req.toCmd with
    flags :=
      { nonblock := req.nonblock, reqCfm := req.reqcfm
        callThread := amlMsgSendMtheod req.msg.id
        waitPush := s.deferPush, waitAck := true, waitCfm := req.reqcfm }
    tkn := s.nextTkn
    result := eIntr }

def linkNew (s : AmlHw) (req : SendReq) : AmlHw :=
  { s with
    heap := Function.update s.heap s.newCmd (s.newLinked req)
    newCmd := s.newCmd + 1
    cmds := s.cmds ++ [s.newCmd]
    queueSz := s.queueSz + 1
    nextTkn := s.nextTkn + 1
    pc := Function.update s.pc s.newCmd (if s.deferPush then (if req.nonblock then .leave 0 else .wait) else .direct)
    log := .link s.newCmd :: s.log }

theorem deferPush_allocCmd {s : AmlHw} (fresh : s.newCmd ∉ s.cmds) (req : SendReq) :
    (s.allocCmd req).deferPush = s.deferPush := by
  unfold deferPush allocCmd
  dsimp only
  cases last : s.cmds.getLast? with
  | none => rfl
  | some last' =>
    have ne : last' ≠ s.newCmd := fun same => fresh (same ▸ List.mem_of_getLast? last)
    simp [ne]

theorem amlSendMsg_cases {s : AmlHw} (fresh : s.newCmd ∉ s.cmds) (req : SendReq) (env : SendEnv) :
    (∃ ret, s.amlSendMsg req env = s.emit (.bypass ret)) ∨
      (s.state = .crashed ∧ s.amlSendMsg req env = s.refuseNew req ePipe) ∨
      (s.cmds ≠ [] ∧ s.queueSz = s.maxQueueSz ∧ s.amlSendMsg req env = s.refuseNew req eNoMem) ∨
      (s.state ≠ .crashed ∧ (s.cmds = [] ∨ s.queueSz ≠ s.maxQueueSz) ∧ s.amlSendMsg req env = s.linkNew req) := by
  unfold amlSendMsg
  split
  · exact .inl ⟨_, rfl⟩
  · unfold cmdMgrQueue
    rw [deferPush_allocCmd fresh req]
    by_cases crashed : s.state = .crashed
    · exact .inr (.inl ⟨crashed, by simp [allocCmd, crashed, refuseNew]⟩)
    · by_cases full : s.cmds ≠ [] ∧ s.queueSz = s.maxQueueSz
      · exact .inr (.inr (.inl ⟨full.1, full.2, by simp [allocCmd, crashed, full, refuseNew]⟩))
      · have room : s.cmds = [] ∨ s.queueSz ≠ s.maxQueueSz := by
          simpa only [ne_eq, not_and_or, not_not] using full
        refine .inr (.inr (.inr ⟨crashed, room, ?_⟩))
        have linked : (s.allocCmd req).queued ((s.allocCmd req).heap s.newCmd) = s.newLinked req := by
          unfold queued
          rw [deferPush_allocCmd fresh req]
          cases blocking : req.nonblock <;>
            simp [allocCmd, newLinked, SendReq.toCmd, blocking]
        have same : (s.allocCmd req).state = s.state ∧ (s.allocCmd req).cmds = s.cmds ∧
            (s.allocCmd req).queueSz = s.queueSz ∧ (s.allocCmd req).maxQueueSz = s.maxQueueSz :=
          ⟨rfl, rfl, rfl, rfl⟩
        rw [same.1, same.2.1, same.2.2.1, same.2.2.2, if_neg crashed, if_neg full]
        simp only [onCmd, emit, goto, linked]
        simp [allocCmd, linkNew, afterPush, SendReq.toCmd]

/-- `aml_send_msg` after `cmd_mgr->queue` returned `ret`; `nonblock` is a local variable. -/
def finish (s : AmlHw) (c : CmdId) (ret : Int) : AmlHw :=
  if (s.flags c).nonblock then s.goto c (.returned ret)
  else
    let s := if ret = 0 then s.emit (.use c) else s
    let ret' := if ret = 0 then (s.heap c).result else ret
    (s.emit (.freeCmd c)).goto c (.returned ret')

theorem finish_eq (s : AmlHw) (c : CmdId) (ret : Int) : s.finish c ret =
      { s with
        pc := update s.pc c (.returned (if (s.flags c).nonblock = false ∧ ret = 0 then (s.heap c).result else ret))
        log := (if (s.flags c).nonblock then [] else
          Event.freeCmd c :: (if ret = 0 then [Event.use c] else [])) ++ s.log } := by
  cases blocking : (s.heap c).flags.nonblock <;> by_cases ok : ret = 0 <;>
    simp [finish, blocking, ok]

theorem poll_eq (s : AmlHw) (c : CmdId) : s.poll c =
      { s with
        pc := if (s.flags c).done then update s.pc c (.leave 0) else s.pc
        log := Event.use c :: s.log } := by
  cases done : (s.heap c).flags.done <;> simp [poll, done]

theorem poll_killed {s : AmlHw} {c : CmdId} (here : s.pc c = .killed) :
    s.poll c = (s.emit (.use c)).goto c (if (s.flags c).done then .leave 0 else .killed) := by
  rw [poll_eq]
  cases (s.heap c).flags.done <;> simp [← here]

/-! ### `cmd_mgr_llind` -/

/-- The scan of `cmd_mgr_llind`: the command that carries the token and the first one behind or
before it that waits for its push. -/
def llindScan (heap : CmdId → AmlCmd) (tkn : BitVec 32) : Option CmdId → List CmdId → Option CmdId × Option CmdId
  | acked, [] => (acked, none)
  | acked, cur :: rest =>
    if acked = none ∧ (heap cur).tkn = tkn then llindScan heap tkn (some cur) rest
    else if (heap cur).flags.waitPush then (acked, some cur)
    else llindScan heap tkn acked rest

/-- The commands a scan looks at when it stops at `stop`. -/
def walked (cmds : List CmdId) (stop : Option CmdId) : List CmdId :=
  match stop with
  | none => cmds
  | some c => cmds.take (cmds.idxOf c + 1)

theorem walked_subset (cmds : List CmdId) (stop : Option CmdId) : walked cmds stop ⊆ cmds := by
  cases stop with
  | none => exact List.Subset.refl _
  | some c => exact List.take_subset _ _

/-- What `cmd_mgr_llind` does with the command that waits for its push; `complete` is
`!defer_push`. -/
def handOver (s : AmlHw) (next : Option CmdId) (complete : Bool) : AmlHw :=
  match next with
  | none => s
  | some next =>
    if s.busType ≠ .pcie then { s with amlMsgSem := s.amlMsgSem + 1 }
    else if complete then s.pushNext next .llind
    else s

theorem handOver_up {s : AmlHw} (bus : s.busType ≠ .pcie) (next : Option CmdId) (complete : Bool) :
    s.handOver next complete = { s with amlMsgSem := s.amlMsgSem + next.toList.length } := by
  cases next <;> simp [handOver, bus]

def cmdMgrLlind (s : AmlHw) (c : CmdId) : AmlHw :=
  let (acked, next) := llindScan s.heap (s.heap c).tkn none s.cmds
  let s := (s.emit (.use c)).emit (.walk (walked s.cmds next))
  let s := if acked.isSome then s.onFlags c fun flags => { flags with waitAck := false } else s
  let complete := acked.isSome && (s.flags c).waitComplete
  let s := if complete then s.cmdComplete c else s
  s.handOver next complete

theorem llindScan_found (heap : CmdId → AmlCmd) (tkn : BitVec 32) (c : CmdId) (cmds : List CmdId) :
    llindScan heap tkn (some c) cmds = (some c, cmds.find? fun d => (heap d).flags.waitPush) := by
  induction cmds with
  | nil => rfl
  | cons cur rest ih =>
    cases waits : (heap cur).flags.waitPush <;> simp [llindScan, waits, ih]

theorem llindScan_front {heap : CmdId → AmlCmd} {tkn : BitVec 32} {front back : List CmdId}
    (passes : ∀ d ∈ front, (heap d).flags.waitPush = false ∧ (heap d).tkn ≠ tkn) :
    llindScan heap tkn none (front ++ back) = llindScan heap tkn none back := by
  induction front with
  | nil => rfl
  | cons cur rest ih =>
    obtain ⟨pushed, other⟩ := passes cur (by simp)
    simpa [llindScan, pushed, other] using ih fun d inside => passes d (by simp [inside])

theorem llindScan_carries {heap : CmdId → AmlCmd} {tkn : BitVec 32} {cmds : List CmdId} {d : CmdId}
    (found : (llindScan heap tkn none cmds).1 = some d) : d ∈ cmds ∧ (heap d).tkn = tkn := by
  induction cmds with
  | nil => simp [llindScan] at found
  | cons cur rest ih =>
    by_cases carries : (heap cur).tkn = tkn
    · obtain rfl : cur = d := by simpa [llindScan, carries, llindScan_found] using found
      exact ⟨by simp, carries⟩
    · by_cases waits : (heap cur).flags.waitPush = true
      · simp [llindScan, carries, waits] at found
      · obtain ⟨inside, same⟩ := ih (by simpa [llindScan, carries, waits] using found)
        exact ⟨List.mem_cons_of_mem _ inside, same⟩

section Llind

variable {s : AmlHw} {c : CmdId} {next : Option CmdId}

/-- The state of `cmd_mgr_llind` after its scan. -/
def llindSeen (s : AmlHw) (c : CmdId) (next : Option CmdId) : AmlHw :=
  { s with log := .walk (walked s.cmds next) :: .use c :: s.log }

/-- The state of `cmd_mgr_llind` once `WAIT_ACK` is cleared. -/
def llindAcked (s : AmlHw) (c : CmdId) (next : Option CmdId) : AmlHw :=
  (s.llindSeen c next).onFlags c fun flags => { flags with waitAck := false }

theorem cmdMgrLlind_lost (scan : llindScan s.heap (s.heap c).tkn none s.cmds = (none, next)) :
    s.cmdMgrLlind c = (s.llindSeen c next).handOver next false := by
  simp [cmdMgrLlind, llindSeen, scan]

theorem cmdMgrLlind_waits {d : CmdId}
    (scan : llindScan s.heap (s.heap c).tkn none s.cmds = (some d, next))
    (waits : (s.flags c).waitCfm = true) :
    s.cmdMgrLlind c = (s.llindAcked c next).handOver next false := by
  have waits' : (s.heap c).flags.waitCfm = true := waits
  simp [cmdMgrLlind, llindAcked, llindSeen, scan, CmdFlags.waitComplete, waits']

theorem cmdMgrLlind_done {d : CmdId}
    (scan : llindScan s.heap (s.heap c).tkn none s.cmds = (some d, next))
    (waits : (s.flags c).waitCfm = false) :
    s.cmdMgrLlind c = ((s.llindAcked c next).cmdComplete c).handOver next true := by
  have waits' : (s.heap c).flags.waitCfm = false := waits
  simp [cmdMgrLlind, llindAcked, llindSeen, scan, CmdFlags.waitComplete, waits']

end Llind

/-! ### `cmd_mgr_msgind` -/

/-- `cmd->list.next`, unless that is the list head. -/
def listNext (cmds : List CmdId) (c : CmdId) : Option CmdId := cmds[cmds.idxOf c + 1]?

/-- The first linked command that waits for a confirmation with this identifier. -/
def awaiting (s : AmlHw) (id : MsgId) : Option CmdId :=
  s.cmds.find? fun c => decide ((s.heap c).reqid = id) && (s.flags c).waitCfm

/-- A command that has consumed the confirmation `msg`. -/
def confirmed (msg : E2aMsg) (cmd : AmlCmd) : AmlCmd :=
  { cmd with
    flags := { cmd.flags with waitCfm := false }
    e2aMsg := cmd.e2aMsg.map msg.copyTo }

/-- The PCIe hand-over of `cmd_mgr_msgind`. -/
def handNext (s : AmlHw) (next : Option CmdId) : AmlHw :=
  match next with
  | none => s
  | some next =>
    if s.busType = .pcie then
      let s := s.emit (.use next)
      if (s.flags next).waitPush then s.pushNext next .msgind else s
    else s

/-- `cmd_mgr_msgind`. `accept`: the callback of `msg` returned 0; no callback of a confirmation
looks at the command it is given. -/
def cmdMgrMsgind (s : AmlHw) (msg : E2aMsg) (accept : Bool) : AmlHw :=
  let found := if accept then s.awaiting msg.id else none
  let s := { s.emit (.walk (walked s.cmds found)) with rxCnt := s.rxCnt + 1 }
  match found with
  | none => s
  | some c =>
    let next := listNext s.cmds c
    let s := (s.emit (.confirm c s.rxCnt msg.id)).onCmd c (confirmed msg)
    if (s.flags c).waitComplete then (s.cmdComplete c).handNext next else s

section Msgind

variable {s : AmlHw} {msg : E2aMsg} {accept : Bool} {c : CmdId}

/-- The state of `cmd_mgr_msgind` after its scan. -/
def msgindSeen (s : AmlHw) (found : Option CmdId) : AmlHw :=
  { s with rxCnt := s.rxCnt + 1, log := .walk (walked s.cmds found) :: s.log }

/-- The state of `cmd_mgr_msgind` once the command has consumed the message. -/
def msgindConfirmed (s : AmlHw) (msg : E2aMsg) (c : CmdId) : AmlHw :=
  ((s.msgindSeen (some c)).emit (.confirm c (s.rxCnt + 1) msg.id)).onCmd c (confirmed msg)

theorem cmdMgrMsgind_none (found : (if accept then s.awaiting msg.id else none) = none) :
    s.cmdMgrMsgind msg accept = s.msgindSeen none := by
  simp [cmdMgrMsgind, msgindSeen, found]

theorem cmdMgrMsgind_waits (found : (if accept then s.awaiting msg.id else none) = some c)
    (waits : (s.flags c).waitAck = true) :
    s.cmdMgrMsgind msg accept = s.msgindConfirmed msg c := by
  have waits' : (s.heap c).flags.waitAck = true := waits
  simp [cmdMgrMsgind, msgindConfirmed, msgindSeen, found, confirmed, CmdFlags.waitComplete, waits']

theorem cmdMgrMsgind_done (found : (if accept then s.awaiting msg.id else none) = some c)
    (waits : (s.flags c).waitAck = false) :
    s.cmdMgrMsgind msg accept = ((s.msgindConfirmed msg c).cmdComplete c).handNext (listNext s.cmds c) := by
  have waits' : (s.heap c).flags.waitAck = false := waits
  simp [cmdMgrMsgind, msgindConfirmed, msgindSeen, found, confirmed, CmdFlags.waitComplete, waits']

end Msgind

/-! ### `cmd_mgr_drain` -/

/-- One command of `cmd_mgr_drain`. -/
def drainOne (s : AmlHw) (c : CmdId) : AmlHw :=
  let s := { s.emit (.drain c) with cmds := s.cmds.erase c, queueSz := s.queueSz - 1 }
  let s := if (s.flags c).nonblock then s else s.onCmd c fun cmd => { cmd with complete := true }
  if (s.flags c).waitPush then (s.emit (.freeMsg c)).emit (.freeCmd c) else s

theorem drainOne_eq (s : AmlHw) (c : CmdId) : s.drainOne c =
      { s with
        queueSz := s.queueSz - 1
        cmds := s.cmds.erase c
        heap := if (s.flags c).nonblock then s.heap
          else update s.heap c { s.heap c with complete := true }
        log := (if (s.flags c).waitPush then [Event.freeCmd c, Event.freeMsg c] else []) ++
          Event.drain c :: s.log } := by
  cases blocking : (s.heap c).flags.nonblock <;> cases waits : (s.heap c).flags.waitPush <;>
    simp [drainOne, blocking, waits]

def cmdMgrDrain (s : AmlHw) : AmlHw := s.cmds.foldl drainOne s

/-! ### `aml_msg_task` -/

def firstWaitPush (s : AmlHw) : Option CmdId := s.cmds.find? fun c => (s.flags c).waitPush

/-- `down_interruptible` succeeds and the scan runs. -/
def taskWake (s : AmlHw) : AmlHw :=
  { s.emit (.walk (walked s.cmds s.firstWaitPush)) with
    amlMsgSem := s.amlMsgSem - 1
    task := .picked s.firstWaitPush }

/-- `cmd->flags &= ~AML_CMD_FLAG_WAIT_PUSH`. When the scan found nothing the cursor is not null but
the list head seen as a command: it is pushed and a pointer read out of it is freed. -/
def taskClear (s : AmlHw) (cursor : Option CmdId) : AmlHw :=
  match cursor with
  | some c =>
    { (s.emit (.use c)).onFlags c fun flags => { flags with waitPush := false } with
      task := .cleared c }
  | none => { s.emit .pushHead with task := .lost }

/-- `aml_ipc_msg_push` by `aml_msg_task`. -/
def taskPush (s : AmlHw) (c : CmdId) : AmlHw :=
  { s.ipcHostMsgPush c .msgTask with task := .pushed c }

/-- `kfree(cmd->a2e_msg)` by `aml_msg_task`. -/
def taskFree (s : AmlHw) (c : CmdId) : AmlHw :=
  { (s.emit (.use c)).emit (.freeMsg c) with task := .idle }

/-! ### The acknowledgement interrupt -/

/-- The interrupt handler enters `cmd_mgr_llind`. -/
def takeIrq (s : AmlHw) : AmlHw := { s with irq := none }

/-- `ipc_usb_host_msgack_handler`, `ipc_sdio_host_msgack_handler`, `ipc_pci_host_msgack_handler`, up
to the call of `cmd_mgr_llind`. -/
def msgackHandler (s : AmlHw) : AmlHw :=
  match s.msga2eHostid with
  | none => s
  | some c =>
    { s.emit (.ack c) with
      msga2eHostid := none
      msga2eCnt := s.msga2eCnt + 1
      irq := some c }

end AmlHw

end W2l.Cmd
