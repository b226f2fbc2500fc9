/-
**What a call of `aml_send_msg` brings back.**

The command manager with a record of its calls: what each asked for, what it was told and what its
buffer held when it came back.

* `Calling` — the driver, the messages received and the calls; `callSystem` steps it.
* `Answered` — a call that wanted a confirmation and was told 0 has one in its buffer, and the buffer
  is not written after the call.
* `KeptAt`, `Kept` — what the parts of the manager leave alone: they put no confirmation into a
  buffer, and no result is 0 while a confirmation is still awaited.
-/

import W2lDriver.Cmd.Confirm

namespace W2l.Cmd

open AmlHw
open Lib (System)
open Event (freeCmd)

/-! ### The calls -/

/-- A blocking call that asks for a confirmation and gives a buffer for it. -/
def SendReq.wants (req : SendReq) : Bool := !req.nonblock && req.reqcfm && req.cfm.isSome

def AmlCmd.wants (cmd : AmlCmd) : Bool :=
  !cmd.flags.nonblock && cmd.flags.reqCfm && cmd.e2aMsg.isSome

/-- How often a confirmation was copied into the buffer of a command. -/
def written (log : List Event) (c : CmdId) : Nat := (confirms log).countP fun t => t.1 = c

/-- What there is when a call returns. -/
structure Left where
  ret : Int
  buffer : Option (List UInt8)
  writes : Nat
  stop : Nat                      -- how many messages had been received

/-- One call of `aml_send_msg`. -/
structure Call where
  req : SendReq
  start : Nat                     -- how many messages had been received
  cmd : Option CmdId              -- none was made when the call was bypassed
  left : Option Left := none

/-- The driver, the messages it has received and the calls, oldest first. -/
structure Calling where
  hw : AmlHw
  msgs : List E2aMsg := []
  calls : List Call := []

namespace Calling

/-- The call `aml_send_msg` begins; a bypassed call is over at once. -/
def newCall (s : Calling) (req : SendReq) (env : SendEnv) : Call :=
  match s.hw.sendBypass req env with
  | some ret =>
    { req, start := s.msgs.length, cmd := none
      left := some { ret, buffer := req.cfm, writes := 0, stop := s.msgs.length } }
  | none => { req, start := s.msgs.length, cmd := some s.hw.newCmd }

/-- The caller of `c` returns with `ret`. -/
def leave (s : Calling) (c : CmdId) (ret : Int) (call : Call) : Call :=
  if call.cmd = some c ∧ call.left.isNone then
    { call with
      left := some
        { ret
          buffer := (s.hw.heap c).e2aMsg
          writes := written s.hw.log c
          stop := s.msgs.length } }
  else call

/-- The command was freed before its blocking caller reads `cmd->result`. -/
def stale (s : Calling) (c : CmdId) : Bool :=
  !(s.hw.flags c).nonblock && decide (Event.freeCmd c ∈ s.hw.log)

/-- A step of the driver. The number is what a caller finds that reads a freed command. -/
def step (s : Calling) (a : Act × Int) : Option Calling :=
  (s.hw.step a.1).map fun hw => match a.1 with
    | .sendMsg req env => { s with hw, calls := s.calls ++ [s.newCall req env] }
    | .msgind msg _ => { s with hw, msgs := s.msgs ++ [msg] }
    | .finish c => match hw.pc c with
      | .returned ret =>
        { s with hw, calls := s.calls.map (s.leave c (if s.stale c then a.2 else ret)) }
      | _ => { s with hw }
    | _ => { s with hw }

end Calling

def callSystem (bus : BusType) : System Calling (Act × Int) where
  init := { hw := (cmdSystem bus).init }
  step := Calling.step

/-! ### What is asked of them -/

/-- Among the messages received during the call there is one with the requested id whose parameters
the buffer holds. -/
def Call.Answer (call : Call) (msgs : List E2aMsg) (buffer : Option (List UInt8)) (stop : Nat) : Prop :=
  ∃ i msg, call.start ≤ i ∧ i < stop ∧ msgs[i]? = some msg ∧ msg.id = call.req.reqid ∧
    buffer = call.req.cfm.map msg.copyTo

/-- The calls that want a confirmation: 0 means that it is in the buffer, and after the call the
buffer is left alone. -/
structure Answered (s : Calling) : Prop where
  answer : ∀ call ∈ s.calls, call.req.wants = true → ∀ left ∈ call.left, left.ret = 0 →
    call.Answer s.msgs left.buffer left.stop
  alone : ∀ call ∈ s.calls, call.req.wants = true → ∀ left ∈ call.left, ∀ c ∈ call.cmd,
    (s.hw.heap c).e2aMsg = left.buffer ∧ written s.hw.log c = left.writes

/-- No call that wants a confirmation meets the early success of a failed bus, and `cmd_mgr_drain`
frees no command whose caller still reads it. -/
def heeds (s : Calling) (a : Act) : Bool :=
  match a with
  | .sendMsg req env => !req.wants || decide (s.hw.busType = .pcie) || !env.busErr
  | .drain => s.hw.cmds.all fun c => !(s.hw.heap c).wants || !(s.hw.flags c).waitPush
  | _ => true

abbrev Heeds : Calling → Act × Int → Prop := fun s a => heeds s a.1 = true

/-! ### What the manager leaves alone -/

section Kept

variable {s t u : AmlHw} {c d : CmdId}

/-- For the caller of `c`, `t` is as good as `s`. -/
structure KeptAt (s t : AmlHw) (c : CmdId) : Prop where
  linked : c ∈ t.cmds → c ∈ s.cmds
  pc : t.pc c = s.pc c
  reqid : (t.heap c).reqid = (s.heap c).reqid
  nonblock : (t.flags c).nonblock = (s.flags c).nonblock
  reqCfm : (t.flags c).reqCfm = (s.flags c).reqCfm
  waitCfm : (t.flags c).waitCfm = (s.flags c).waitCfm
  buffer : (t.heap c).e2aMsg = (s.heap c).e2aMsg
  result : (t.heap c).result = 0 → (s.heap c).result = 0 ∨ (s.flags c).waitCfm = false
  writes : written t.log c = written s.log c
  freed : Event.freeCmd c ∈ t.log → Event.freeCmd c ∈ s.log ∨ (s.heap c).wants = false

/-- Completed, by `cmd_complete` or by `cmd_mgr_drain`. -/
def AmlHw.gone (s : AmlHw) (c : CmdId) : Bool := (s.flags c).done || (s.heap c).complete

/-- No command is made, moved or confirmed; some may be completed and unlinked. -/
structure Kept (s t : AmlHw) : Prop where
  newCmd : t.newCmd = s.newCmd
  cmds : t.cmds.Sublist s.cmds
  each : ∀ c, KeptAt s t c
  gone : ∀ c, t.gone c = true → s.gone c = true ∨ c ∉ t.cmds
  freed : ∀ c, Event.freeCmd c ∈ t.log → Event.freeCmd c ∈ s.log ∨ c < s.newCmd

theorem KeptAt.wants (kept : KeptAt s t c) : (t.heap c).wants = (s.heap c).wants := by
  have nonblock : (t.heap c).flags.nonblock = (s.heap c).flags.nonblock := kept.nonblock
  have reqCfm : (t.heap c).flags.reqCfm = (s.heap c).flags.reqCfm := kept.reqCfm
  rw [AmlCmd.wants, AmlCmd.wants, nonblock, reqCfm, kept.buffer]

theorem KeptAt.refl (s : AmlHw) (c : CmdId) : KeptAt s s c :=
  ⟨id, rfl, rfl, rfl, rfl, rfl, rfl, .inl, rfl, .inl⟩

theorem KeptAt.trans (first : KeptAt s t c) (second : KeptAt t u c) : KeptAt s u c where
  linked inside := first.linked (second.linked inside)
  pc := second.pc.trans first.pc
  reqid := second.reqid.trans first.reqid
  nonblock := second.nonblock.trans first.nonblock
  reqCfm := second.reqCfm.trans first.reqCfm
  waitCfm := second.waitCfm.trans first.waitCfm
  buffer := second.buffer.trans first.buffer
  result zero := (second.result zero).elim first.result fun answered =>
    .inr (first.waitCfm.symm.trans answered)
  writes := second.writes.trans first.writes
  freed free := (second.freed free).elim first.freed fun unwanted =>
    .inr (first.wants.symm.trans unwanted)

theorem Kept.refl (s : AmlHw) : Kept s s :=
  ⟨rfl, List.Sublist.refl _, KeptAt.refl s, fun _ => .inl, fun _ => .inl⟩

theorem Kept.trans (first : Kept s t) (second : Kept t u) : Kept s u where
  newCmd := second.newCmd.trans first.newCmd
  cmds := second.cmds.trans first.cmds
  each c := (first.each c).trans (second.each c)
  gone c left := by
    rcases second.gone c left with before | unlinked
    · refine (first.gone c before).imp_right fun unlinked inside => ?_
      exact unlinked (second.cmds.subset inside)
    · exact .inr unlinked
  freed c free := by
    rcases second.freed c free with before | born
    · exact first.freed c before
    · exact .inr (first.newCmd ▸ born)

/-- An event that is neither a confirmation nor the end of a command. -/
def Event.plain : Event → Bool
  | .confirm _ _ _ | .freeCmd _ => false
  | _ => true

theorem written_plain {e : Event} (plain : e.plain = true) (log : List Event) (c : CmdId) :
    written (e :: log) c = written log c := by
  cases e <;> simp_all [Event.plain, written, Event.confirmed]

theorem Kept.of_same (newCmd : t.newCmd = s.newCmd) (cmds : t.cmds = s.cmds) (pc : t.pc = s.pc)
    (heap : t.heap = s.heap) (log : t.log = s.log) : Kept s t where
  newCmd := newCmd
  cmds := by rw [cmds]
  each c := by
    refine ⟨?_, by rw [pc], by rw [heap], by rw [flags, heap], by rw [flags, heap],
      by rw [flags, heap], by rw [heap], ?_, by rw [log], ?_⟩
    · rw [cmds]
      exact id
    · rw [heap]
      exact .inl
    · rw [log]
      exact .inl
  gone c := by
    rw [AmlHw.gone, flags, heap]
    exact .inl
  freed c := by
    rw [log]
    exact .inl

theorem Kept.emit (s : AmlHw) {e : Event} (plain : e.plain = true) : Kept s (s.emit e) where
  newCmd := rfl
  cmds := List.Sublist.refl _
  each c := by
    refine ⟨id, rfl, rfl, rfl, rfl, rfl, rfl, .inl, written_plain plain s.log c, fun free => ?_⟩
    rcases List.mem_cons.mp free with rfl | before
    · exact absurd plain Bool.false_ne_true
    · exact .inl before
  gone _ := .inl
  freed c free := by
    rcases List.mem_cons.mp free with rfl | before
    · exact absurd plain Bool.false_ne_true
    · exact .inl before

/-- What `cmd_mgr_queue`, `cmd_mgr_llind` and `aml_msg_task` do to the flags of a command. -/
theorem Kept.onFlags (s : AmlHw) (c : CmdId) {f : CmdFlags → CmdFlags}
    (same : ∀ flags, (f flags).nonblock = flags.nonblock ∧ (f flags).reqCfm = flags.reqCfm ∧
      (f flags).waitCfm = flags.waitCfm ∧ (f flags).done = flags.done) :
    Kept s (s.onFlags c f) where
  newCmd := rfl
  cmds := List.Sublist.refl _
  each d := by
    obtain ⟨nonblock, reqCfm, waitCfm, -⟩ := same (s.heap c).flags
    by_cases other : d = c
    · subst other
      refine ⟨id, rfl, ?_, ?_, ?_, ?_, ?_, ?_, rfl, .inl⟩ <;>
        simp [nonblock, reqCfm, waitCfm]
      exact .inl
    · refine ⟨id, rfl, ?_, ?_, ?_, ?_, ?_, ?_, rfl, .inl⟩ <;> simp [other]
      exact .inl
  gone d := by
    obtain ⟨-, -, -, done⟩ := same (s.heap c).flags
    by_cases other : d = c
    · subst other
      simp only [AmlHw.gone, flags, AmlHw.onFlags, onCmd, Function.update_self, done]
      exact .inl
    · simp only [AmlHw.gone, flags, AmlHw.onFlags, onCmd, Function.update_of_ne other]
      exact .inl
  freed _ := .inl

theorem Kept.fails (s : AmlHw) (c : CmdId) {ret : Int} (bad : ret ≠ 0) :
    Kept s (s.onCmd c fun cmd => { cmd with result := ret }) where
  newCmd := rfl
  cmds := List.Sublist.refl _
  each d := by
    by_cases other : d = c
    · subst other
      refine ⟨id, rfl, ?_, ?_, ?_, ?_, ?_, ?_, rfl, .inl⟩ <;> simp [bad]
    · refine ⟨id, rfl, ?_, ?_, ?_, ?_, ?_, ?_, rfl, .inl⟩ <;> simp [other]
      exact .inl
  gone d := by
    by_cases other : d = c
    · subst other
      simp only [AmlHw.gone, flags, onCmd, Function.update_self]
      exact .inl
    · simp only [AmlHw.gone, flags, onCmd, Function.update_of_ne other]
      exact .inl
  freed _ := .inl

end Kept

/-- What holds of the list and of the commands that were never made. -/
structure Sound (s : AmlHw) : Prop where
  nodup : s.cmds.Nodup
  unlinked : ∀ c, s.newCmd ≤ c → c ∉ s.cmds
  unborn : ∀ c, s.newCmd ≤ c → s.pc c = .unborn
  unmarked : ∀ c, s.newCmd ≤ c → (s.flags c).nonblock = false
  unfreed : ∀ c, s.newCmd ≤ c → Event.freeCmd c ∉ s.log
  gone : ∀ c, s.gone c = true → c ∉ s.cmds

theorem sound_init (bus : BusType) : Sound (cmdSystem bus).init where
  nodup := List.nodup_nil
  unlinked _ _ := List.not_mem_nil
  unborn _ _ := rfl
  unmarked _ _ := rfl
  unfreed _ _ := List.not_mem_nil
  gone _ _ := List.not_mem_nil

section Parts

variable {s t : AmlHw} {c : CmdId}

theorem Sound.kept (sound : Sound s) (kept : Kept s t) : Sound t where
  nodup := kept.cmds.nodup sound.nodup
  unlinked c fresh inside := by
    rw [kept.newCmd] at fresh
    exact sound.unlinked c fresh (kept.cmds.subset inside)
  unborn c fresh := by
    rw [kept.newCmd] at fresh
    exact (kept.each c).pc.trans (sound.unborn c fresh)
  unmarked c fresh := by
    rw [kept.newCmd] at fresh
    exact (kept.each c).nonblock.trans (sound.unmarked c fresh)
  unfreed c fresh free := by
    rw [kept.newCmd] at fresh
    rcases kept.freed c free with before | born
    · exact sound.unfreed c fresh before
    · exact absurd born (Nat.not_lt.mpr fresh)
  gone c left := by
    rcases kept.gone c left with before | unlinked
    · exact fun inside => sound.gone c before (kept.cmds.subset inside)
    · exact unlinked

theorem Sound.born_of_nonblock (sound : Sound s) (nonblock : (s.flags c).nonblock = true) : c < s.newCmd := by
  by_contra fresh
  rw [sound.unmarked c (Nat.le_of_not_lt fresh)] at nonblock
  exact Bool.false_ne_true nonblock

/-! ### The parts of the manager -/

theorem ipcHostMsgPush_kept (s : AmlHw) (c : CmdId) (path : PushPath) : Kept s (s.ipcHostMsgPush c path) := by
  have logged : Kept s (s.emit (.push c path s.msga2eHostid.isSome)) := .emit s rfl
  refine logged.trans ?_
  rw [ipcHostMsgPush_eq]
  exact .of_same rfl rfl rfl rfl rfl

theorem pushNext_kept (s : AmlHw) (c : CmdId) (path : PushPath) : Kept s (s.pushNext c path) := by
  have cleared : Kept s (s.onFlags c fun flags => { flags with waitPush := false }) :=
    .onFlags s c fun _ => ⟨rfl, rfl, rfl, rfl⟩
  exact (cleared.trans (ipcHostMsgPush_kept _ c path)).trans (.emit _ rfl)

theorem handOver_kept (s : AmlHw) (next : Option CmdId) (complete : Bool) : Kept s (s.handOver next complete) := by
  unfold handOver
  split
  · exact .refl s
  · split
    · exact .of_same rfl rfl rfl rfl rfl
    · split
      · exact pushNext_kept s _ .llind
      · exact .refl s

theorem handNext_kept (s : AmlHw) (next : Option CmdId) : Kept s (s.handNext next) := by
  unfold handNext
  split
  · exact .refl s
  · rename_i next
    split
    · have used : Kept s (s.emit (.use next)) := .emit s rfl
      show Kept s (if (s.flags next).waitPush then (s.emit (.use next)).pushNext next .msgind
        else s.emit (.use next))
      split
      · exact used.trans (pushNext_kept _ next .msgind)
      · exact used
    · exact .refl s

section

variable (sound : Sound s)

include sound

theorem cmdComplete_kept (c : CmdId) : Kept s (s.cmdComplete c) := by
  have logged (d : CmdId) : freeCmd d ∈ (s.cmdComplete c).log →
      freeCmd d ∈ s.log ∨ (d = c ∧ (s.heap c).flags.nonblock = true) := by
    rw [cmdComplete_eq]
    cases nonblock : (s.heap c).flags.nonblock <;> simp
    tauto
  refine ⟨by rw [cmdComplete_eq], ?_, fun d => ?_, fun d => ?_, fun d free => ?_⟩
  · rw [cmdComplete_eq]
    exact List.erase_sublist
  · have writes : written (s.cmdComplete c).log d = written s.log d := by
      rw [cmdComplete_eq]
      cases nonblock : (s.heap c).flags.nonblock <;>
        simp [written, Event.confirmed]
    have freed : freeCmd d ∈ (s.cmdComplete c).log → freeCmd d ∈ s.log ∨ (s.heap d).wants = false := fun free => by
      rcases logged d free with before | ⟨rfl, nonblock⟩
      · exact .inl before
      · exact .inr (by simp [AmlCmd.wants, nonblock])
    by_cases other : d = c
    · subst other
      have linked : d ∈ (s.cmdComplete d).cmds → d ∈ s.cmds := by
        rw [cmdComplete_eq]
        exact List.mem_of_mem_erase
      refine ⟨linked, ?_, ?_, ?_, ?_, ?_, ?_, ?_, writes, freed⟩ <;>
        rw [cmdComplete_eq] <;> simp [completed]
      -- the result: 0 only once neither `WAIT_ACK` nor `WAIT_CFM` is set
      cases ack : (s.heap d).flags.waitAck <;> cases cfm : (s.heap d).flags.waitCfm <;>
        simp [CmdFlags.waitComplete, ack, cfm]
    · have linked : d ∈ (s.cmdComplete c).cmds → d ∈ s.cmds := by
        rw [cmdComplete_eq]
        exact List.mem_of_mem_erase
      refine ⟨linked, ?_, ?_, ?_, ?_, ?_, ?_, ?_, writes, freed⟩ <;>
        rw [cmdComplete_eq] <;> simp [other]
      exact .inl
  · rw [cmdComplete_eq]
    by_cases other : d = c
    · subst other
      exact fun _ => .inr sound.nodup.not_mem_erase
    · simp only [AmlHw.gone, flags, Function.update_of_ne other]
      exact .inl
  · refine (logged d free).imp_right fun this => ?_
    obtain ⟨rfl, nonblock⟩ := this
    exact sound.born_of_nonblock nonblock

theorem cmdMgrLlind_kept (c : CmdId) : Kept s (s.cmdMgrLlind c) := by
  obtain ⟨acked, next, scan⟩ : ∃ acked next,
      llindScan s.heap (s.heap c).tkn none s.cmds = (acked, next) := ⟨_, _, rfl⟩
  have seen : Kept s (s.llindSeen c next) :=
    (Kept.emit s (e := .use c) rfl).trans (.emit _ (e := .walk (walked s.cmds next)) rfl)
  have cleared : Kept s (s.llindAcked c next) :=
    seen.trans (.onFlags _ c fun _ => ⟨rfl, rfl, rfl, rfl⟩)
  cases acked with
  | none =>
    rw [cmdMgrLlind_lost scan]
    exact seen.trans (handOver_kept _ next false)
  | some d =>
    cases cfm : (s.flags c).waitCfm with
    | true =>
      rw [cmdMgrLlind_waits scan cfm]
      exact cleared.trans (handOver_kept _ next false)
    | false =>
      rw [cmdMgrLlind_done scan cfm]
      have complete := cmdComplete_kept (sound.kept cleared) c
      exact (cleared.trans complete).trans (handOver_kept _ next true)

/-- `cmd_mgr_drain` leaves the result of the waiters at `-EINTR`. -/
theorem drainOne_kept (linked : c ∈ s.cmds)
    (heed : (s.heap c).wants = true → (s.flags c).waitPush = false) : Kept s (s.drainOne c) := by
  have logged (d : CmdId) : freeCmd d ∈ (s.drainOne c).log →
      freeCmd d ∈ s.log ∨ (d = c ∧ (s.heap c).flags.waitPush = true) := by
    rw [drainOne_eq]
    cases waits : (s.heap c).flags.waitPush <;> simp
    tauto
  have writes (d : CmdId) : written (s.drainOne c).log d = written s.log d := by
    rw [drainOne_eq]
    cases waits : (s.heap c).flags.waitPush <;> simp [written, Event.confirmed]
  have heap (d : CmdId) : ∃ complete, (s.drainOne c).heap d = { s.heap d with complete } ∧
        (complete = true → (s.heap d).complete = true ∨ d = c) := by
    rw [drainOne_eq]
    cases nonblock : (s.heap c).flags.nonblock with
    | true => exact ⟨_, by simp, .inl⟩
    | false =>
      by_cases other : d = c
      · subst other
        exact ⟨true, by simp, fun _ => .inr rfl⟩
      · exact ⟨_, by simp [other], .inl⟩
  have cmds : (s.drainOne c).cmds = s.cmds.erase c := by rw [drainOne_eq]
  refine ⟨by rw [drainOne_eq], cmds ▸ List.erase_sublist, fun d => ?_, fun d => ?_, fun d free => ?_⟩
  · obtain ⟨complete, same, -⟩ := heap d
    refine ⟨?_, by rw [drainOne_eq], ?_, ?_, ?_, ?_, ?_, ?_, writes d, fun free => ?_⟩ <;>
      try simp only [flags, same]
    · rw [cmds]
      exact List.mem_of_mem_erase
    · exact .inl
    · refine (logged d free).imp_right fun this => ?_
      obtain ⟨rfl, waits⟩ := this
      by_contra wants
      have pushed : (s.heap d).flags.waitPush = false := heed (by simpa using wants)
      exact Bool.false_ne_true (pushed.symm.trans waits)
  · obtain ⟨complete, same, why⟩ := heap d
    simp only [AmlHw.gone, flags, same, Bool.or_eq_true]
    rintro (done | drained)
    · exact .inl (.inl done)
    · rcases why drained with before | rfl
      · exact .inl (.inr before)
      · exact .inr (cmds ▸ sound.nodup.not_mem_erase)
  · refine (logged d free).imp_right fun this => ?_
    obtain ⟨rfl, -⟩ := this
    by_contra fresh
    exact sound.unlinked d (Nat.le_of_not_lt fresh) linked

theorem cmdMgrDrain_kept
    (heed : ∀ c ∈ s.cmds, (s.heap c).wants = true → (s.flags c).waitPush = false) :
    Kept s s.cmdMgrDrain := by
  have run (cmds : List CmdId) : ∀ s : AmlHw, Sound s → cmds.Nodup → cmds ⊆ s.cmds →
      (∀ c ∈ cmds, (s.heap c).wants = true → (s.flags c).waitPush = false) →
      Kept s (cmds.foldl drainOne s) := by
    induction cmds with
    | nil => exact fun s _ _ _ _ => .refl s
    | cons c cmds ih =>
      intro s sound nodup inside heed
      obtain ⟨apart, nodup⟩ := List.nodup_cons.mp nodup
      have one : Kept s (s.drainOne c) := drainOne_kept sound (inside (by simp)) (heed c (by simp))
      refine one.trans (ih _ (sound.kept one) nodup (fun d later => ?_) fun d later wants => ?_)
      · have ne : d ≠ c := fun same => apart (same ▸ later)
        rw [drainOne_eq]
        exact (List.mem_erase_of_ne ne).mpr (inside (List.mem_cons_of_mem c later))
      · have ne : d ≠ c := fun same => apart (same ▸ later)
        have same : (s.drainOne c).heap d = s.heap d := by
          rw [drainOne_eq]
          cases nonblock : (s.heap c).flags.nonblock <;> simp [ne]
        rw [same] at wants
        rw [flags, same]
        exact heed d (List.mem_cons_of_mem c later) wants
  exact run s.cmds s sound sound.nodup (List.Subset.refl _) heed

end

end Parts

end W2l.Cmd
