/-
**A call of `aml_send_msg` told 0 has its confirmation: the invariant over every run.**

* `Running`, `Ended`, `CallOk` — one call: on its way, or over with what it took away.
* `CallsInv` — every call that wants a confirmation is one of these.
* `CallsInv.kept`, `CallsInv.goes`, `CallsInv.confirms`, `CallsInv.begins`, `CallsInv.returns` — the
  ways a step changes the calls.
-/

import W2lDriver.Cmd.Answers

namespace W2l.Cmd

open AmlHw
open Lib (System)
open Function (update_of_ne update_self)
open List (mem_append mem_cons mem_singleton prefix_append prefix_refl)
open Option (some.inj)
open Kept (emit)

/-! ### One call -/

/-- A call on its way: until its confirmation is consumed its buffer is as it was and its result is
an error. -/
structure Running (s : Calling) (call : Call) (c : CmdId) : Prop where
  born : c < s.hw.newCmd
  begun : call.start ≤ s.msgs.length
  reqid : (s.hw.heap c).reqid = call.req.reqid
  wants : (s.hw.heap c).wants = true
  here : ∀ ret, s.hw.pc c ≠ .returned ret
  unlinked : ∀ ret, s.hw.pc c = .leave ret → c ∉ s.hw.cmds
  awaits : (s.hw.flags c).waitCfm = true → (s.hw.heap c).e2aMsg = call.req.cfm ∧ (s.hw.heap c).result ≠ 0
  got : (s.hw.flags c).waitCfm = false → call.Answer s.msgs (s.hw.heap c).e2aMsg s.msgs.length ∨
      ∃ ret, ret ≠ 0 ∧ s.hw.pc c = .leave ret
  unfreed : Event.freeCmd c ∉ s.hw.log

/-- A call that is over. -/
structure Ended (s : Calling) (call : Call) (c : CmdId) (left : Left) : Prop where
  born : c < s.hw.newCmd
  unlinked : c ∉ s.hw.cmds
  buffer : (s.hw.heap c).e2aMsg = left.buffer
  writes : written s.hw.log c = left.writes
  answer : left.ret = 0 → call.Answer s.msgs left.buffer left.stop

inductive CallOk (s : Calling) (call : Call) : Prop
  | bypassed (left : Left) (cmd : call.cmd = none) (here : call.left = some left) (bad : left.ret ≠ 0)
  | running (c : CmdId) (cmd : call.cmd = some c) (here : call.left = none) (ok : Running s call c)
  | ended (c : CmdId) (left : Left) (cmd : call.cmd = some c) (here : call.left = some left)
      (ok : Ended s call c left)

/-- The invariant. -/
structure CallsInv (s : Calling) : Prop where
  sound : Sound s.hw
  calls : ∀ call ∈ s.calls, call.req.wants = true → CallOk s call

theorem callsInv_init (bus : BusType) : CallsInv (callSystem bus).init :=
  ⟨sound_init bus, nofun⟩

theorem CallsInv.answered {s : Calling} (inv : CallsInv s) : Answered s where
  answer call inside wants left there zero := by
    cases inv.calls call inside wants with
    | bypassed left' cmd here bad =>
      obtain rfl : left' = left := some.inj (here.symm.trans there)
      exact absurd zero bad
    | running c cmd here ok => exact absurd (here.symm.trans there) nofun
    | ended c left' cmd here ok =>
      obtain rfl : left' = left := some.inj (here.symm.trans there)
      exact ok.answer zero
  alone call inside wants left there c made := by
    cases inv.calls call inside wants with
    | bypassed left' cmd here bad => exact absurd (cmd.symm.trans made) nofun
    | running c cmd here ok => exact absurd (here.symm.trans there) nofun
    | ended d left' cmd here ok =>
      obtain rfl : left' = left := some.inj (here.symm.trans there)
      obtain rfl : d = c := some.inj (cmd.symm.trans made)
      exact ⟨ok.buffer, ok.writes⟩

section Frame

variable {s t : Calling} {call : Call} {c : CmdId} {left : Left}

theorem Call.Answer.later {msgs msgs' : List E2aMsg} {buffer : Option (List UInt8)}
    {stop stop' : Nat} (answer : call.Answer msgs buffer stop) (more : msgs <+: msgs')
    (after : stop ≤ stop') : call.Answer msgs' buffer stop' := by
  obtain ⟨i, msg, begun, before, there, id, buffer⟩ := answer
  obtain ⟨rest, rfl⟩ := more
  refine ⟨i, msg, begun, by omega, ?_, id, buffer⟩
  obtain ⟨inside, -⟩ := List.getElem?_eq_some_iff.mp there
  rw [List.getElem?_append_left inside]
  exact there

theorem Running.kept (ok : Running s call c) (kept : KeptAt s.hw t.hw c)
    (newCmd : s.hw.newCmd ≤ t.hw.newCmd) (msgs : s.msgs <+: t.msgs) : Running t call c where
  born := ok.born.trans_le newCmd
  begun := ok.begun.trans msgs.length_le
  reqid := kept.reqid.trans ok.reqid
  wants := kept.wants.trans ok.wants
  here ret := by
    rw [kept.pc]
    exact ok.here ret
  unlinked ret leaves inside := by
    rw [kept.pc] at leaves
    exact ok.unlinked ret leaves (kept.linked inside)
  awaits waits := by
    rw [kept.waitCfm] at waits
    obtain ⟨buffer, bad⟩ := ok.awaits waits
    refine ⟨kept.buffer.trans buffer, fun zero => ?_⟩
    rcases kept.result zero with before | answered
    · exact bad before
    · exact Bool.false_ne_true (answered.symm.trans waits)
  got answered := by
    rw [kept.waitCfm] at answered
    rw [kept.buffer, kept.pc]
    exact (ok.got answered).imp_left fun answer => answer.later msgs msgs.length_le
  unfreed free := by
    rcases kept.freed free with before | unwanted
    · exact ok.unfreed before
    · exact Bool.false_ne_true (unwanted.symm.trans ok.wants)

theorem Ended.kept (ok : Ended s call c left) (kept : KeptAt s.hw t.hw c)
    (newCmd : s.hw.newCmd ≤ t.hw.newCmd) (msgs : s.msgs <+: t.msgs) : Ended t call c left where
  born := ok.born.trans_le newCmd
  unlinked inside := ok.unlinked (kept.linked inside)
  buffer := kept.buffer.trans ok.buffer
  writes := kept.writes.trans ok.writes
  answer zero := (ok.answer zero).later msgs le_rfl

theorem CallOk.next (ok : CallOk s call) (newCmd : s.hw.newCmd ≤ t.hw.newCmd)
    (msgs : s.msgs <+: t.msgs) (d : CmdId)
    (others : ∀ c, c ≠ d → c < s.hw.newCmd → KeptAt s.hw t.hw c)
    (running : Running s call d → Running t call d)
    (ended : ∀ left, Ended s call d left → Ended t call d left) : CallOk t call := by
  cases ok with
  | bypassed left cmd here bad => exact .bypassed left cmd here bad
  | running c cmd here ok =>
    refine .running c cmd here ?_
    by_cases same : c = d
    · subst same
      exact running ok
    · exact ok.kept (others c same ok.born) newCmd msgs
  | ended c left cmd here ok =>
    refine .ended c left cmd here ?_
    by_cases same : c = d
    · subst same
      exact ended left ok
    · exact ok.kept (others c same ok.born) newCmd msgs

theorem CallsInv.kept (inv : CallsInv s) (kept : Kept s.hw t.hw) (calls : t.calls = s.calls)
    (msgs : s.msgs <+: t.msgs) : CallsInv t where
  sound := inv.sound.kept kept
  calls call inside wants := by
    have newCmd : s.hw.newCmd ≤ t.hw.newCmd := kept.newCmd.ge
    refine (inv.calls call (calls ▸ inside) wants).next newCmd msgs 0 (fun c _ _ => kept.each c) ?_ ?_
    · exact fun ok => ok.kept (kept.each 0) newCmd msgs
    · exact fun left ok => ok.kept (kept.each 0) newCmd msgs

end Frame

/-! ### The caller goes on -/

section Caller

variable {s : Calling} {c : CmdId}

theorem Sound.born (sound : Sound s.hw) (here : s.hw.pc c ≠ .unborn) : c < s.hw.newCmd := by
  by_contra fresh
  exact here (sound.unborn c (Nat.le_of_not_lt fresh))

theorem KeptAt.goto {hw : AmlHw} {d : CmdId} (other : d ≠ c) (pc : CallerPc) : KeptAt hw (hw.goto c pc) d := by
  refine ⟨id, ?_, rfl, rfl, rfl, rfl, rfl, .inl, rfl, .inl⟩
  exact update_of_ne other ..

theorem Sound.goto (sound : Sound s.hw) (here : s.hw.pc c ≠ .unborn) (pc : CallerPc) : Sound (s.hw.goto c pc) where
  nodup := sound.nodup
  unlinked := sound.unlinked
  unborn d fresh := by
    have other : d ≠ c := fun same => absurd (sound.born here) (Nat.not_lt.mpr (same ▸ fresh))
    exact (update_of_ne other ..).trans (sound.unborn d fresh)
  unmarked := sound.unmarked
  unfreed := sound.unfreed
  gone := sound.gone

/-- A caller inside `cmd_mgr_queue` goes on; it leaves only when its command is not linked. -/
theorem CallsInv.goto (inv : CallsInv s) {pc : CallerPc} (here : s.hw.pc c ≠ .unborn)
    (inQueue : ∀ ret, s.hw.pc c ≠ .leave ret) (there : ∀ ret, pc ≠ .returned ret)
    (leaves : ∀ ret, pc = .leave ret → (s.hw.flags c).nonblock = true ∨ c ∉ s.hw.cmds) :
    CallsInv { s with hw := s.hw.goto c pc } where
  sound := inv.sound.goto here pc
  calls call inside wants := by
    refine (inv.calls call inside wants).next le_rfl (prefix_refl _) c
      (fun d other _ => .goto other pc) (fun ok => ?_) fun left ok => ?_
    · have now : (s.hw.goto c pc).pc c = pc := update_self ..
      refine ⟨ok.born, ok.begun, ok.reqid, ok.wants, ?_, ?_, ok.awaits, ?_, ok.unfreed⟩
      · rw [now]
        exact there
      · rw [now]
        intro ret leaving
        rcases leaves ret leaving with nonblock | unlinked
        · have wants := ok.wants
          have nonblock' : (s.hw.heap c).flags.nonblock = true := nonblock
          simp [AmlCmd.wants, nonblock'] at wants
        · exact unlinked
      · intro answered
        rcases ok.got answered with answer | ⟨ret, -, leaving⟩
        · exact .inl answer
        · exact absurd leaving (inQueue ret)
    · exact ⟨ok.born, ok.unlinked, ok.buffer, ok.writes, ok.answer⟩

theorem CallsInv.goes (inv : CallsInv s) {hw : AmlHw} (kept : Kept s.hw hw) {pc : CallerPc}
    (here : s.hw.pc c ≠ .unborn ∧ ∀ ret, s.hw.pc c ≠ .leave ret)
    (there : ∀ ret, pc ≠ .returned ret)
    (leaves : ∀ ret, pc = .leave ret → (hw.flags c).nonblock = true ∨ c ∉ hw.cmds) :
    CallsInv { s with hw := hw.goto c pc } := by
  have first : CallsInv { s with hw } := inv.kept kept rfl (prefix_refl _)
  have same : hw.pc c = s.hw.pc c := (kept.each c).pc
  refine first.goto ?_ ?_ there leaves
  · show hw.pc c ≠ .unborn
    rw [same]
    exact here.1
  · show ∀ ret, hw.pc c ≠ .leave ret
    rw [same]
    exact here.2

theorem leaves_afterPush {hw : AmlHw} {ret : Int} (leaving : hw.afterPush c = .leave ret) :
    (hw.flags c).nonblock = true := by
  unfold afterPush at leaving
  split at leaving
  · assumption
  · exact absurd leaving nofun

theorem afterPush_here (hw : AmlHw) (ret : Int) : hw.afterPush c ≠ .returned ret := by
  unfold afterPush
  split <;> exact nofun

end Caller

/-! ### The confirmation -/

section Confirm

variable {s : Calling} {c : CmdId} {msg : E2aMsg}

theorem written_confirm (log : List Event) (c d : CmdId) (rx : Nat) (id : MsgId) (other : d ≠ c) :
    written (.confirm c rx id :: log) d = written log d := by
  simp [written, Event.confirmed, other.symm]

theorem KeptAt.confirmed {hw : AmlHw} {d : CmdId} (other : d ≠ c) : KeptAt hw (hw.msgindConfirmed msg c) d := by
  have heap : (hw.msgindConfirmed msg c).heap d = hw.heap d := update_of_ne other ..
  refine ⟨id, rfl, by rw [heap], by rw [flags, heap], by rw [flags, heap], by rw [flags, heap],
    by rw [heap], fun zero => .inl (heap ▸ zero), ?_, fun free => .inl ?_⟩
  · exact (written_confirm _ c d _ _ other).trans (written_plain rfl _ d)
  · rcases mem_cons.mp free with same | seen
    · cases same
    · rcases mem_cons.mp seen with same | before
      · cases same
      · exact before

theorem Sound.confirmed (sound : Sound s.hw) : Sound (s.hw.msgindConfirmed msg c) := by
  have same (d : CmdId) : ((s.hw.msgindConfirmed msg c).flags d).nonblock = (s.hw.flags d).nonblock ∧
      (s.hw.msgindConfirmed msg c).gone d = s.hw.gone d := by
    by_cases other : d = c
    · subst other
      simp [msgindConfirmed, msgindSeen, AmlHw.gone, AmlHw.confirmed]
    · simp [msgindConfirmed, msgindSeen, AmlHw.gone, other]
  refine ⟨sound.nodup, sound.unlinked, sound.unborn, fun d fresh => ?_, fun d fresh free => ?_, fun d left => ?_⟩
  · exact (same d).1.trans (sound.unmarked d fresh)
  · rcases mem_cons.mp free with here | seen
    · cases here
    · rcases mem_cons.mp seen with here | before
      · cases here
      · exact sound.unfreed d fresh before
  · exact sound.gone d ((same d).2.symm.trans left)

/-- **The command that consumes a message has its parameters in the buffer**; the caller is still
there, as the command is linked. -/
theorem CallsInv.confirms (inv : CallsInv s) (linked : c ∈ s.hw.cmds)
    (waits : (s.hw.flags c).waitCfm = true) (asked : (s.hw.heap c).reqid = msg.id) :
    CallsInv { s with hw := s.hw.msgindConfirmed msg c, msgs := s.msgs ++ [msg] } where
  sound := inv.sound.confirmed
  calls call inside wants := by
    refine (inv.calls call inside wants).next le_rfl (prefix_append _ _) c
      (fun d other _ => .confirmed other) (fun ok => ?_) fun left ok => absurd linked ok.unlinked
    have now : (s.hw.msgindConfirmed msg c).heap c = AmlHw.confirmed msg (s.hw.heap c) :=
      update_self ..
    refine ⟨ok.born, ?_, ?_, ?_, ok.here, ok.unlinked, ?_, fun _ => .inl ?_, fun free => ?_⟩
    · exact ok.begun.trans (prefix_append _ _).length_le
    · rw [now]
      exact ok.reqid
    · rw [now]
      have wants := ok.wants
      simpa [AmlCmd.wants, AmlHw.confirmed] using wants
    · rw [flags, now]
      exact fun still => absurd still Bool.false_ne_true
    · refine ⟨s.msgs.length, msg, ok.begun, by simp, by simp, asked.symm.trans ok.reqid, ?_⟩
      rw [now, AmlHw.confirmed, (ok.awaits waits).1]
    · rcases mem_cons.mp free with here | seen
      · cases here
      · rcases mem_cons.mp seen with here | before
        · cases here
        · exact ok.unfreed before

end Confirm

/-! ### The call begins -/

section Begins

variable {s : Calling} {req : SendReq} {env : SendEnv}

variable {hw : AmlHw}

theorem sendBypass_ne_zero {ret : Int}
    (heed : hw.busType = .pcie ∨ env.busErr = false) (bypassed : hw.sendBypass req env = some ret) :
    ret ≠ 0 := by
  unfold sendBypass at bypassed
  split_ifs at bypassed with failed
  · rcases heed with pcie | working
    · exact absurd pcie failed.1
    · exact absurd (working.symm.trans failed.2) Bool.false_ne_true
  all_goals
    obtain rfl := some.inj bypassed
    decide

/-- `aml_send_msg` makes a command when nothing stops it before. -/
theorem amlSendMsg_made (made : hw.sendBypass req env = none) : (hw.amlSendMsg req env).newCmd = hw.newCmd + 1 := by
  unfold amlSendMsg
  rw [made]
  show ((hw.allocCmd req).cmdMgrQueue hw.newCmd).newCmd = hw.newCmd + 1
  unfold cmdMgrQueue
  split_ifs <;> rfl

/-- A new command: all that is known of the others stays. -/
theorem Sound.begins {hw hw' : AmlHw} {e : Event} (sound : Sound hw) (newCmd : hw'.newCmd = hw.newCmd + 1)
    (nodup : hw'.cmds.Nodup) (cmds : ∀ c, c ≠ hw.newCmd → c ∈ hw'.cmds → c ∈ hw.cmds)
    (pc : ∀ c, c ≠ hw.newCmd → hw'.pc c = hw.pc c) (heap : ∀ c, c ≠ hw.newCmd → hw'.heap c = hw.heap c)
    (log : hw'.log = e :: hw.log) (kept : ∀ c, e ≠ .freeCmd c)
    (gone : hw'.gone hw.newCmd → hw.newCmd ∉ hw'.cmds) : Sound hw' := by
  have other {c : CmdId} (fresh : hw'.newCmd ≤ c) : c ≠ hw.newCmd ∧ hw.newCmd ≤ c := by
    rw [newCmd] at fresh
    exact ⟨fun same => Nat.not_succ_le_self _ (same ▸ fresh), Nat.le_of_succ_le fresh⟩
  refine ⟨nodup, fun c fresh inside => ?_, fun c fresh => ?_, fun c fresh => ?_, fun c fresh free => ?_,
    fun c left => ?_⟩
  · exact sound.unlinked c (other fresh).2 (cmds c (other fresh).1 inside)
  · exact (pc c (other fresh).1).trans (sound.unborn c (other fresh).2)
  · rw [flags, heap c (other fresh).1]
    exact sound.unmarked c (other fresh).2
  · rw [log] at free
    exact sound.unfreed c (other fresh).2 ((mem_cons.mp free).resolve_left (kept c).symm)
  · by_cases new : c = hw.newCmd
    · exact new ▸ gone (new ▸ left)
    · rw [AmlHw.gone, flags, heap c new] at left
      exact fun inside => sound.gone c left (cmds c new inside)

theorem Sound.refuseNew (sound : Sound hw) (req : SendReq) (ret : Int) : Sound (hw.refuseNew req ret) :=
  sound.begins rfl sound.nodup (fun _ _ inside => inside) (fun _ other => update_of_ne other ..)
    (fun _ other => update_of_ne other ..) rfl nofun fun _ => sound.unlinked _ le_rfl

theorem Sound.linkNew (sound : Sound hw) (req : SendReq) : Sound (hw.linkNew req) := by
  refine sound.begins rfl ?_ (fun c other inside => ?_) (fun _ other => update_of_ne other ..)
    (fun _ other => update_of_ne other ..) rfl nofun fun left => ?_
  · refine List.nodup_append.mpr ⟨sound.nodup, List.nodup_singleton _, fun c inside d new => ?_⟩
    rintro rfl
    exact sound.unlinked c (mem_singleton.mp new).ge inside
  · exact (mem_append.mp inside).resolve_right fun last => other (mem_singleton.mp last)
  · have now : (hw.linkNew req).heap hw.newCmd = hw.newLinked req := update_self ..
    rw [AmlHw.gone, flags, now] at left
    exact absurd left Bool.false_ne_true

theorem KeptAt.begins {hw hw' : AmlHw} {c : CmdId} {e : Event} (heap : hw'.heap c = hw.heap c)
    (pc : hw'.pc c = hw.pc c) (cmds : c ∈ hw'.cmds → c ∈ hw.cmds) (log : hw'.log = e :: hw.log)
    (plain : e.plain = true) (kept : e ≠ .freeCmd c) : KeptAt hw hw' c := by
  refine ⟨cmds, pc, by rw [heap], by rw [flags, flags, heap], by rw [flags, flags, heap], by rw [flags, flags, heap],
    by rw [heap], fun zero => .inl (heap ▸ zero), ?_, fun free => .inl ?_⟩
  · rw [log]
    exact written_plain plain _ c
  · rw [log] at free
    exact (mem_cons.mp free).resolve_left kept.symm

theorem KeptAt.refuseNew {c : CmdId} (other : c ≠ hw.newCmd) (req : SendReq)
    (ret : Int) : KeptAt hw (hw.refuseNew req ret) c :=
  .begins (update_of_ne other ..) (update_of_ne other ..) id rfl rfl nofun

theorem KeptAt.linkNew {c : CmdId} (other : c ≠ hw.newCmd) (req : SendReq) : KeptAt hw (hw.linkNew req) c :=
  .begins (update_of_ne other ..) (update_of_ne other ..)
    (fun inside => (mem_append.mp inside).resolve_right fun last => other (mem_singleton.mp last)) rfl rfl
    nofun

theorem CallsInv.joins {new : Call} (inv : CallsInv s) (sound : Sound hw)
    (newCmd : s.hw.newCmd ≤ hw.newCmd) (others : ∀ c, c < s.hw.newCmd → KeptAt s.hw hw c)
    (ok : new.req.wants = true → CallOk { s with hw, calls := s.calls ++ [new] } new) :
    CallsInv { s with hw, calls := s.calls ++ [new] } where
  sound := sound
  calls call inside wants := by
    rcases mem_append.mp inside with before | now
    · -- no old call has the new command
      refine (inv.calls call before wants).next newCmd (prefix_refl _) s.hw.newCmd
        (fun c _ born => others c born) (fun ok => ?_) fun left ok => ?_
      · exact absurd ok.born (lt_irrefl _)
      · exact absurd ok.born (lt_irrefl _)
    · obtain rfl := mem_singleton.mp now
      exact ok wants

theorem CallsInv.sendMsg (inv : CallsInv s) (heed : heeds s (.sendMsg req env) = true) :
    CallsInv { s with hw := s.hw.amlSendMsg req env, calls := s.calls ++ [s.newCall req env] } := by
  have fresh : s.hw.newCmd ∉ s.hw.cmds := inv.sound.unlinked _ le_rfl
  have ne {c : CmdId} (born : c < s.hw.newCmd) : c ≠ s.hw.newCmd := born.ne
  cases made : s.hw.sendBypass req env with
  | some ret =>
    have bypassed : s.hw.amlSendMsg req env = s.hw.emit (.bypass ret) := by rw [amlSendMsg, made]
    have kept : Kept s.hw (s.hw.emit (.bypass ret)) := .emit _ rfl
    rw [bypassed]
    refine inv.joins (inv.sound.kept kept) le_rfl (fun c _ => kept.each c) fun wants => ?_
    have new : s.newCall req env =
        { req, start := s.msgs.length, cmd := none
          left := some { ret, buffer := req.cfm, writes := 0, stop := s.msgs.length } } := by
      rw [Calling.newCall, made]
    rw [new] at wants ⊢
    have heed' : s.hw.busType = .pcie ∨ env.busErr = false := by
      simpa [heeds, show req.wants = true from wants] using heed
    exact .bypassed _ rfl rfl (sendBypass_ne_zero heed' made)
  | none =>
    have new : s.newCall req env = { req, start := s.msgs.length, cmd := some s.hw.newCmd } := by
      rw [Calling.newCall, made]
    have wanted (wants : req.wants = true) : req.nonblock = false ∧ req.reqcfm = true ∧ req.cfm.isSome = true := by
      simpa [SendReq.wants, and_assoc] using wants
    have refused (ret : Int) (bad : ret ≠ 0) :
        CallsInv { s with hw := s.hw.refuseNew req ret, calls := s.calls ++ [s.newCall req env] } := by
      refine inv.joins (inv.sound.refuseNew req ret) (Nat.le_succ _)
        (fun c born => .refuseNew (ne born) req ret) fun wants => ?_
      rw [new] at wants ⊢
      obtain ⟨blocking, reqcfm, buffer⟩ := wanted wants
      have now : (s.hw.refuseNew req ret).heap s.hw.newCmd = { req.toCmd with result := ret } :=
        update_self ..
      have pc : (s.hw.refuseNew req ret).pc s.hw.newCmd = .leave ret := update_self ..
      refine .running _ rfl rfl ⟨Nat.lt_succ_self _, le_rfl, by rw [now]; rfl, ?_, ?_, ?_, ?_, ?_, ?_⟩
      · rw [now]
        simp [AmlCmd.wants, SendReq.toCmd, blocking, reqcfm, buffer]
      · rw [pc]
        rintro _ ⟨⟩
      · exact fun _ _ => fresh
      · rw [flags, now]
        exact fun waits => absurd waits Bool.false_ne_true
      · exact fun _ => .inr ⟨ret, bad, pc⟩
      · intro free
        exact inv.sound.unfreed _ le_rfl ((mem_cons.mp free).resolve_left (by rintro ⟨⟩))
    rcases amlSendMsg_cases fresh req env with ⟨ret, same⟩ | ⟨-, same⟩ | ⟨-, -, same⟩ | ⟨-, -, same⟩
    · have more := amlSendMsg_made made
      rw [same] at more
      exact absurd more (Nat.succ_ne_self _).symm
    · rw [same]
      exact refused ePipe (by decide)
    · rw [same]
      exact refused eNoMem (by decide)
    · rw [same]
      refine inv.joins (inv.sound.linkNew req) (Nat.le_succ _) (fun c born => .linkNew (ne born) req) fun wants => ?_
      rw [new] at wants ⊢
      obtain ⟨blocking, reqcfm, buffer⟩ := wanted wants
      have now : (s.hw.linkNew req).heap s.hw.newCmd = s.hw.newLinked req := update_self ..
      have pc : (s.hw.linkNew req).pc s.hw.newCmd = if s.hw.deferPush then .wait else .direct := by
        refine (update_self ..).trans ?_
        rw [blocking]
        rfl
      have inside (ret : Int) : (if s.hw.deferPush then CallerPc.wait else .direct) ≠ .leave ret ∧
          (if s.hw.deferPush then CallerPc.wait else .direct) ≠ .returned ret := by
        cases s.hw.deferPush <;> exact ⟨by rintro ⟨⟩, by rintro ⟨⟩⟩
      refine .running _ rfl rfl ⟨Nat.lt_succ_self _, le_rfl, by rw [now]; rfl, ?_, ?_, ?_, ?_, ?_, ?_⟩
      · rw [now]
        simp [AmlCmd.wants, newLinked, SendReq.toCmd, blocking, reqcfm, buffer]
      · rw [pc]
        exact fun ret => (inside ret).2
      · rw [pc]
        exact fun ret leaving => absurd leaving (inside ret).1
      · rw [flags, now]
        exact fun _ => ⟨rfl, show eIntr ≠ 0 by decide⟩
      · rw [flags, now]
        exact fun answered => absurd (reqcfm.symm.trans answered) Bool.false_ne_true.symm
      · intro free
        exact inv.sound.unfreed _ le_rfl ((mem_cons.mp free).resolve_left (by rintro ⟨⟩))

end Begins

/-! ### The call returns -/

section Returns

variable {s : Calling} {c : CmdId} {ret : Int}

/-- What `aml_send_msg` returns after `cmd_mgr_queue` returned `ret`. -/
def AmlHw.readBack (hw : AmlHw) (c : CmdId) (ret : Int) : Int :=
  if (hw.flags c).nonblock = false ∧ ret = 0 then (hw.heap c).result else ret

theorem finish_returned (hw : AmlHw) (c : CmdId) (ret : Int) :
    (hw.finish c ret).pc c = .returned (hw.readBack c ret) := by
  rw [finish_eq]
  exact update_self ..

theorem finish_log (hw : AmlHw) (c d : CmdId) (ret : Int) :
    (d ≠ c → Event.freeCmd d ∈ (hw.finish c ret).log → Event.freeCmd d ∈ hw.log) ∧
      written (hw.finish c ret).log d = written hw.log d := by
  rw [finish_eq]
  cases (hw.heap c).flags.nonblock <;> by_cases zero : ret = 0 <;>
    simp +contextual [zero, written, Event.confirmed]

theorem KeptAt.finish {hw : AmlHw} {d : CmdId} (other : d ≠ c) (ret : Int) : KeptAt hw (hw.finish c ret) d := by
  obtain ⟨freed, writes⟩ := finish_log hw c d ret
  refine ⟨?_, ?_, ?_, ?_, ?_, ?_, ?_, ?_, writes, fun free => .inl (freed other free)⟩ <;>
    rw [finish_eq]
  · exact id
  · exact update_of_ne other ..
  · exact .inl

theorem Running.ends {call : Call} (ok : Running s call c) (here : s.hw.pc c = .leave ret)
    (other : Int) :
    Ended { s with hw := s.hw.finish c ret } call c
      { ret := if s.stale c then other else s.hw.readBack c ret
        buffer := (s.hw.heap c).e2aMsg
        writes := written s.hw.log c
        stop := s.msgs.length } where
  born := by
    rw [finish_eq]
    exact ok.born
  unlinked := by
    rw [finish_eq]
    exact ok.unlinked ret here
  buffer := by rw [finish_eq]
  writes := (finish_log s.hw c c ret).2
  answer zero := by
    have fresh : s.stale c = false := by simp [Calling.stale, ok.unfreed]
    have blocking : (s.hw.flags c).nonblock = false := by
      have wants := ok.wants
      cases nonblock : (s.hw.heap c).flags.nonblock with
      | false => rfl
      | true => simp [AmlCmd.wants, nonblock] at wants
    rw [fresh, if_neg Bool.false_ne_true, AmlHw.readBack] at zero
    by_cases ok' : ret = 0
    · rw [if_pos ⟨blocking, ok'⟩] at zero
      cases cfm : (s.hw.flags c).waitCfm with
      | true => exact absurd zero (ok.awaits cfm).2
      | false =>
        refine (ok.got cfm).resolve_right ?_
        rintro ⟨ret', bad, leaving⟩
        obtain rfl : ret = ret' := CallerPc.leave.inj (here.symm.trans leaving)
        exact bad ok'
    · rw [if_neg fun both => ok' both.2] at zero
      exact absurd zero ok'

theorem CallsInv.finish (inv : CallsInv s) (here : s.hw.pc c = .leave ret) (other : Int) :
    CallsInv { s with
      hw := s.hw.finish c ret
      calls := s.calls.map (s.leave c (if s.stale c then other else s.hw.readBack c ret)) } where
  sound := by
    have born : c < s.hw.newCmd := inv.sound.born fun unborn => absurd (here.symm.trans unborn) nofun
    have other {d : CmdId} (fresh : s.hw.newCmd ≤ d) : d ≠ c := (born.trans_le fresh).ne'
    rw [finish_eq]
    refine ⟨inv.sound.nodup, inv.sound.unlinked, fun d fresh => ?_, inv.sound.unmarked,
      fun d fresh free => ?_, inv.sound.gone⟩
    · exact (update_of_ne (other fresh) ..).trans (inv.sound.unborn d fresh)
    · refine inv.sound.unfreed d fresh ((finish_log s.hw c d ret).1 (other fresh) ?_)
      rw [finish_eq]
      exact free
  calls call inside wants := by
    obtain ⟨old, there, rfl⟩ := List.mem_map.mp inside
    unfold Calling.leave at wants ⊢
    by_cases mine : old.cmd = some c ∧ old.left.isNone = true
    · rw [if_pos mine] at wants ⊢
      cases inv.calls old there wants with
      | bypassed left cmd done bad => exact absurd (cmd.symm.trans mine.1) nofun
      | running d cmd gone ok =>
        obtain rfl : d = c := some.inj (cmd.symm.trans mine.1)
        have ends := ok.ends here other
        exact .ended d _ cmd rfl ⟨ends.born, ends.unlinked, ends.buffer, ends.writes, ends.answer⟩
      | ended d left cmd done ok => simp [done] at mine
    · rw [if_neg mine] at wants ⊢
      cases inv.calls old there wants with
      | bypassed left cmd done bad => exact .bypassed left cmd done bad
      | running d cmd gone ok =>
        have apart : d ≠ c := fun same => mine ⟨same ▸ cmd, by rw [gone]; rfl⟩
        have newCmd : s.hw.newCmd ≤ (s.hw.finish c ret).newCmd := by rw [finish_eq]
        exact .running d cmd gone (ok.kept (.finish apart ret) newCmd (prefix_refl _))
      | ended d left cmd done ok =>
        refine .ended d left cmd done ⟨?_, ?_, ?_, ?_, ok.answer⟩
        · rw [finish_eq]
          exact ok.born
        · rw [finish_eq]
          exact ok.unlinked
        · rw [finish_eq]
          exact ok.buffer
        · exact (finish_log s.hw c d ret).2.trans ok.writes

end Returns

/-! ### Every run -/

section Steps

variable {s : Calling} {c : CmdId}

section

variable (inv : CallsInv s)

include inv

theorem CallsInv.pushNow (here : s.hw.pc c = .direct) : CallsInv { s with hw := s.hw.pushNow c } := by
  have now : s.hw.pc c ≠ .unborn ∧ ∀ ret, s.hw.pc c ≠ .leave ret := by
    rw [here]
    exact ⟨nofun, fun _ => nofun⟩
  unfold AmlHw.pushNow
  split
  · have used : Kept s.hw (s.hw.emit (.use c)) := .emit _ rfl
    have marked : Kept s.hw ((s.hw.emit (.use c)).onFlags c fun flags =>
        { flags with waitPush := true }) :=
      used.trans (.onFlags _ c fun _ => ⟨rfl, rfl, rfl, rfl⟩)
    exact inv.goes marked now (fun _ => nofun) fun _ => nofun
  · exact inv.goes (ipcHostMsgPush_kept _ c .queue) now (fun _ => nofun) fun _ => nofun

theorem CallsInv.afterPush {hw : AmlHw} (kept : Kept s.hw hw)
    (here : s.hw.pc c = .signal ∨ s.hw.pc c = .freeMsg) (same : hw.heap = s.hw.heap) :
    CallsInv { s with hw := hw.goto c (s.hw.afterPush c) } := by
  have now : s.hw.pc c ≠ .unborn ∧ ∀ ret, s.hw.pc c ≠ .leave ret := by
    rcases here with here | here <;> rw [here] <;> exact ⟨nofun, fun _ => nofun⟩
  refine inv.goes kept now (afterPush_here s.hw) fun ret leaving => .inl ?_
  rw [flags, same]
  exact leaves_afterPush leaving

theorem CallsInv.waits {pc : CallerPc}
    (here : s.hw.pc c = .wait ∨ s.hw.pc c = .expired ∨ s.hw.pc c = .killed)
    (there : pc = .expired ∨ pc = .killed ∨ (pc = .leave 0 ∧ s.hw.gone c = true)) :
    CallsInv { s with hw := (s.hw.emit (.use c)).goto c pc } := by
  have now : s.hw.pc c ≠ .unborn ∧ ∀ ret, s.hw.pc c ≠ .leave ret := by
    rcases here with here | here | here <;> rw [here] <;> exact ⟨nofun, fun _ => nofun⟩
  refine inv.goes (.emit _ rfl) now ?_ ?_
  · rcases there with rfl | rfl | ⟨rfl, -⟩ <;> exact fun _ => nofun
  · rcases there with rfl | rfl | ⟨rfl, gone⟩
    · exact fun _ => nofun
    · exact fun _ => nofun
    · exact fun _ _ => .inr (inv.sound.gone c gone)

theorem CallsInv.timeOut
    (here : s.hw.pc c = .expired ∨ s.hw.pc c = .killed) :
    CallsInv { s with hw := s.hw.timeOut c } := by
  have now : s.hw.pc c ≠ .unborn ∧ ∀ ret, s.hw.pc c ≠ .leave ret := by
    rcases here with here | here <;> rw [here] <;> exact ⟨nofun, fun _ => nofun⟩
  have crashed : Kept s.hw (s.hw.crashedBy c) :=
    (emit s.hw (e := .use c) rfl).trans (.of_same rfl rfl rfl rfl rfl)
  cases done : (s.hw.flags c).done with
  | true =>
    rw [timeOut_done done]
    refine inv.goes crashed now (fun _ => nofun) fun _ _ => .inr (inv.sound.gone c ?_)
    rw [AmlHw.gone, done, Bool.true_or]
  | false =>
    rw [timeOut_undone done]
    have failed : Kept s.hw (s.hw.timedOut c) := crashed.trans (.fails _ c (by decide))
    have sound := inv.sound.kept failed
    refine inv.goes (failed.trans (cmdComplete_kept sound c)) now (fun _ => nofun) fun _ _ => .inr ?_
    rw [cmdComplete_eq]
    exact sound.nodup.not_mem_erase

theorem CallsInv.msgind (msg : E2aMsg) (accept : Bool) :
    CallsInv { s with hw := s.hw.cmdMgrMsgind msg accept, msgs := s.msgs ++ [msg] } := by
  cases found : (if accept then s.hw.awaiting msg.id else none) with
  | none =>
    rw [cmdMgrMsgind_none found]
    have seen : Kept s.hw (s.hw.msgindSeen none) :=
      (emit s.hw (e := .walk (walked s.hw.cmds none)) rfl).trans (.of_same rfl rfl rfl rfl rfl)
    exact inv.kept seen rfl (prefix_append _ _)
  | some c =>
    obtain ⟨linked, asked, waits⟩ := awaiting_spec found
    have got := inv.confirms linked waits asked
    cases ack : (s.hw.flags c).waitAck with
    | true =>
      rw [cmdMgrMsgind_waits found ack]
      exact got
    | false =>
      rw [cmdMgrMsgind_done found ack]
      have complete := cmdComplete_kept got.sound c
      exact got.kept (complete.trans (handNext_kept _ _)) rfl (prefix_refl _)

/-- **One such step keeps the invariant.** -/
theorem CallsInv.step {s' : Calling} {a : Act × Int} (heed : Heeds s a)
    (stepped : s.step a = some s') : CallsInv s' := by
  obtain ⟨a, other⟩ := a
  obtain ⟨hw, moved, rfl⟩ := Option.map_eq_some_iff.mp stepped
  obtain ⟨-, step⟩ := step_cases moved
  have still {hw : AmlHw} (kept : Kept s.hw hw) : CallsInv { s with hw } :=
    inv.kept kept rfl (prefix_refl _)
  cases step with
  | sendMsg req env => exact inv.sendMsg heed
  | pushNow c here => exact inv.pushNow here
  | signal c here => exact inv.afterPush (.of_same rfl rfl rfl rfl rfl) (.inl here) rfl
  | freeMsg c here =>
    have freed := (emit s.hw (e := .use c) rfl).trans (.emit _ (e := .freeMsg c) rfl)
    exact inv.afterPush freed (.inr here) rfl
  | wake c here done =>
    refine inv.waits (.inl here) (.inr (.inr ⟨rfl, ?_⟩))
    rw [AmlHw.gone, done, Bool.or_true]
  | expire c here undone => exact inv.waits (.inl here) (.inl rfl)
  | kill c here undone => exact inv.waits (.inl here) (.inr (.inl rfl))
  | poll c here =>
    show CallsInv { s with hw := s.hw.poll c }
    rw [poll_killed here]
    refine inv.waits (.inr (.inr here)) ?_
    cases done : (s.hw.flags c).done with
    | true => exact .inr (.inr ⟨rfl, by rw [AmlHw.gone, done, Bool.true_or]⟩)
    | false => exact .inr (.inl rfl)
  | timeOut c here => exact inv.timeOut here
  | finish c ret here =>
    have returned := finish_returned s.hw c ret
    have after : (Calling.step s (.finish c, other)) = some
        { s with
          hw := s.hw.finish c ret
          calls := s.calls.map (s.leave c (if s.stale c then other else s.hw.readBack c ret)) } := by
      rw [Calling.step, moved, Option.map_some]
      simp only [returned]
    rw [after] at stepped
    exact some.inj stepped ▸ inv.finish here other
  | msgack free =>
    refine still ?_
    unfold msgackHandler
    split
    · exact .refl _
    · rename_i c there
      exact (emit s.hw (e := .ack c) rfl).trans (.of_same rfl rfl rfl rfl rfl)
  | llind c here =>
    have taken : Kept s.hw s.hw.takeIrq := .of_same rfl rfl rfl rfl rfl
    exact still (taken.trans (cmdMgrLlind_kept (inv.sound.kept taken) c))
  | msgind msg accept => exact inv.msgind msg accept
  | drain =>
    refine still (cmdMgrDrain_kept inv.sound fun c inside wants => ?_)
    have heed : ∀ c ∈ s.hw.cmds, (s.hw.heap c).wants = false ∨ (s.hw.heap c).flags.waitPush = false := by
      simpa [Heeds, heeds] using heed
    exact (heed c inside).resolve_left fun unwanted => Bool.false_ne_true (unwanted.symm.trans wants)
  | taskWake here up =>
    have walked := emit s.hw (e := .walk (walked s.hw.cmds s.hw.firstWaitPush)) rfl
    exact still (walked.trans (.of_same rfl rfl rfl rfl rfl))
  | taskClear cursor here =>
    refine still ?_
    cases cursor with
    | none => exact (emit s.hw (e := .pushHead) rfl).trans (.of_same rfl rfl rfl rfl rfl)
    | some c =>
      have used := emit s.hw (e := .use c) rfl
      have cleared : Kept s.hw ((s.hw.emit (.use c)).onFlags c fun flags =>
          { flags with waitPush := false }) :=
        used.trans (.onFlags _ c fun _ => ⟨rfl, rfl, rfl, rfl⟩)
      exact cleared.trans (.of_same rfl rfl rfl rfl rfl)
  | taskPush c here =>
    exact still ((ipcHostMsgPush_kept s.hw c .msgTask).trans (.of_same rfl rfl rfl rfl rfl))
  | taskFree c here =>
    have freed := (emit s.hw (e := .use c) rfl).trans (.emit _ (e := .freeMsg c) rfl)
    exact still (freed.trans (.of_same rfl rfl rfl rfl rfl))
  | crash | pciShutdown | devStop => exact still (.of_same rfl rfl rfl rfl rfl)

end

end Steps

/-- **In every run that heeds the failed bus and the drain, a call that wants a confirmation and is
told 0 has it in its buffer, and the buffer is left alone after the call.** -/
theorem calls_answered {bus : BusType} {s : Calling} (reach : (callSystem bus).Reachable Heeds s) : Answered s := by
  have inv : CallsInv s :=
    reach.invariant (callsInv_init bus) fun _ _ _ _ before heed stepped => before.step heed stepped
  exact inv.answered

def bufferReq : SendReq := { startReq with cfm := some [0, 0] }

/-- A confirmed call on SDIO. -/
theorem calls_answered_one : ∃ s, (callSystem .sdio).Reachable Heeds s ∧ Answered s ∧
      s.calls.map (fun call => call.left.map fun left => (left.ret, left.buffer)) = [some (0, some [7, 9])] :=
  have reach := System.reachable_of_run (callSystem .sdio) Heeds
    [(.sendMsg bufferReq {}, 0), (.pushNow 0, 0), (.freeMsg 0, 0), (.msgack, 0), (.llind, 0),
      (.msgind { id := mmStartCfm, paramLen := 2, param := [7, 9] } true, 0), (.wake 0, 0),
      (.finish 0, 0)] (by decide)
  ⟨_, reach, calls_answered reach, by decide⟩

/-- **A call on a failed bus**: 0 at once, and the buffer holds nothing that was received. -/
theorem call_unanswered : ¬ ∀ s, (callSystem .usb).Reachable (fun _ _ => True) s → Answered s := by
  intro sound
  have stepped : (callSystem .usb).step (callSystem .usb).init (.sendMsg bufferReq { busErr := true }, 0) = some
        { hw := (cmdSystem .usb).init.amlSendMsg bufferReq { busErr := true }
          calls :=
            [{ req := bufferReq, start := 0, cmd := none
               left := some { ret := 0, buffer := some [0, 0], writes := 0, stop := 0 } }] } := rfl
  have answer := (sound _ (.step .init trivial stepped)).answer
    _ (List.mem_singleton_self _) rfl _ rfl rfl
  obtain ⟨i, msg, -, before, -⟩ := answer
  exact absurd before (Nat.not_lt_zero i)

end W2l.Cmd
