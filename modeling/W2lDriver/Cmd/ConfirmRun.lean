/-
**Confirmations go to the commands they answer: every step and every run.**

* `keepsMatch` — the steps under which this holds: `cmd_mgr_msgind` picks a command that was pushed,
  `aml_msg_task` picks a command behind pushed ones only, and on PCIe no other linked command carries
  the token of the acknowledged one.
-/

import W2lDriver.Cmd.Confirm

namespace W2l.Cmd

open AmlHw
open Lib (System InOrder)

section Steps

variable {s : AmlHw} {c : CmdId}

def Event.aside (e : Event) : Prop := e.quiet = true ∧ e.confirmed = none

theorem course_emit {e : Event} (aside : e.aside) (d : CmdId) : (s.emit e).course d = s.course d := by
  cases e <;> simp_all [Event.aside, Event.quiet, Event.confirmed, AmlHw.course, Event.linked,
    Event.pushed, Event.acked]

theorem Event.aside.silent {e : Event} (aside : e.aside) : e.silent := by
  refine ⟨?_, aside.2⟩
  cases e <;> simp_all [Event.aside, Event.quiet, Event.pushed]

theorem Matched.emit (inv : Matched s) {e : Event} (aside : e.aside) : Matched (s.emit e) := by
  have calm : Calm s (s.emit e) := .of_log [e] rfl le_rfl rfl (by simpa using aside.silent)
  refine inv.next calm rfl 0 ?_ (fun d _ => .inl (course_emit aside d)) (fun _ => ?_) (fun _ => id)
    inv.task inv.sem fun _ _ => ⟨rfl, rfl⟩
  · rw [course_emit aside]
    exact inv.each 0
  · rw [course_emit aside]
    exact id

/-! ### `cmd_mgr_llind` -/

theorem course_llindAcked (s : AmlHw) (c : CmdId) (next : Option CmdId) :
    (s.takeIrq.llindAcked c next).course c = { s.course c with acking := False, waitAck := false } := by
  simp [AmlHw.course, llindAcked, llindSeen, takeIrq, Event.linked, Event.pushed, Event.acked]

/-- The scan of `cmd_mgr_llind`; `WAIT_ACK` is cleared if the command is found. -/
theorem Matched.llindScanned (inv : Matched s) (here : s.irq = some c) (next : Option CmdId) :
    Matched (s.takeIrq.llindSeen c next) ∧ Matched (s.takeIrq.llindAcked c next) := by
  have silent : ∀ e ∈ [.walk (walked s.takeIrq.cmds next), Event.use c], e.silent := by
    simp [Event.silent, Event.pushed, Event.confirmed]
  have ne' : ∀ {d}, d ≠ c → c ≠ d := fun ne eq => ne eq.symm
  constructor
  · have ok := (inv.each c).llind here (s.flags c).waitAck
    have seen : (s.takeIrq.llindSeen c next).course c = { s.course c with acking := False } := by
      simp [AmlHw.course, llindSeen, takeIrq, Event.linked, Event.pushed, Event.acked]
    refine inv.next (.of_log _ rfl le_rfl rfl silent) rfl c (seen ▸ ok) (fun d ne => .inl ?_)
      (fun _ => ?_) (fun _ => id) inv.task inv.sem fun _ _ => ⟨rfl, rfl⟩
    · simp [AmlHw.course, llindSeen, takeIrq, here, ne' ne, Event.linked, Event.pushed, Event.acked]
    · rw [seen]
      exact id
  · have acked := course_llindAcked s c next
    have ok := (inv.each c).llind here false
    refine inv.next (.of_log _ rfl le_rfl rfl silent) rfl c (acked ▸ ok) (fun d ne => .inl ?_)
      (fun _ => ?_) (fun _ => id) inv.task inv.sem fun d _ => ?_
    · simp [AmlHw.course, llindAcked, llindSeen, takeIrq, here, ne, ne' ne, Event.linked, Event.pushed, Event.acked]
    · rw [acked]
      exact id
    · by_cases same : d = c <;> simp [llindAcked, llindSeen, takeIrq, same]

theorem Matched.llind (inv : Matched s) (here : s.irq = some c)
    (token : s.busType = .pcie → ∀ e ∈ s.cmds, e = c ∨ (s.heap e).tkn ≠ (s.heap c).tkn) :
    Matched (s.takeIrq.cmdMgrLlind c) := by
  obtain ⟨acked, next, scan⟩ : ∃ acked next,
      llindScan s.heap (s.heap c).tkn none s.cmds = (acked, next) := ⟨_, _, rfl⟩
  obtain ⟨seen, cleared⟩ := inv.llindScanned here next
  have known : (s.course c).ever := (inv.each c).pushed ((inv.each c).sent (.inr here))
  have same : ∀ t : AmlHw, Matched t → t.busType = s.busType → Matched (t.handOver next false) := by
    intro t matched bus
    by_cases pcie : s.busType = .pcie
    · cases next with
      | none => exact matched
      | some x => simpa [handOver, bus, pcie] using matched
    · exact matched.handOver_other (bus ▸ pcie) next false
  cases acked with
  | none =>
    rw [cmdMgrLlind_lost (s := s.takeIrq) scan]
    exact same _ seen rfl
  | some d =>
    cases cfm : (s.flags c).waitCfm with
    | true =>
      rw [cmdMgrLlind_waits (s := s.takeIrq) scan cfm]
      exact same _ cleared rfl
    | false =>
      rw [cmdMgrLlind_done (s := s.takeIrq) scan cfm]
      have done : Matched ((s.takeIrq.llindAcked c next).cmdComplete c) := by
        refine cleared.complete ?_
        rw [course_llindAcked]
        exact known
      by_cases pcie : s.busType = .pcie
      · cases next with
        | none => exact done
        | some x =>
          obtain ⟨ne, linked, waits, ahead⟩ := inv.llindNext pcie here (token pcie) scan
          have waits' : (s.heap x).flags.waitPush = true := waits
          have hand : ∀ t : AmlHw, t.busType = .pcie → t.handOver (some x) true = t.pushNext x .llind := by
            intro t bus
            simp [handOver, bus]
          rw [hand _ (by rw [cmdComplete_eq]; exact pcie)]
          have pushes' : pushes ((s.takeIrq.llindAcked c (some x)).cmdComplete c).log = pushes s.log := by
            rw [cmdComplete_eq]
            cases ((s.takeIrq.llindAcked c (some x)).flags c).nonblock <;>
              simp [llindAcked, llindSeen, takeIrq, Event.pushed]
          refine done.pushNext ?_ ?_ ?_ ?_ .llind
          · rw [cmdComplete_eq]
            exact (List.mem_erase_of_ne ne).mpr linked
          · rw [cmdComplete_eq]
            simpa [ne, llindAcked, llindSeen, takeIrq] using waits'
          · rw [cmdComplete_eq]
            exact pcie
          · rw [pushes', cmdComplete_eq]
            exact ahead.sublist List.erase_sublist
      · refine done.handOver_other ?_ next true
        rw [cmdComplete_eq]
        exact pcie

/-! ### `cmd_mgr_msgind` -/

theorem listNext_split {cmds : List CmdId} {c d : CmdId} (linked : c ∈ cmds)
    (next : listNext cmds c = some d) : ∃ front rest, cmds = front ++ c :: d :: rest := by
  have here := List.idxOf_lt_length_of_mem linked
  obtain ⟨inside, at'⟩ := List.getElem?_eq_some_iff.mp next
  refine ⟨cmds.take (cmds.idxOf c), cmds.drop (cmds.idxOf c + 1 + 1), ?_⟩
  calc cmds = cmds.take (cmds.idxOf c) ++ cmds.drop (cmds.idxOf c) :=
        (List.take_append_drop _ _).symm
    _ = _ := by
        rw [List.drop_eq_getElem_cons here, List.drop_eq_getElem_cons inside, at', List.getElem_idxOf here]

section

variable (inv : Matched s)

include inv

theorem Matched.handNext {next : Option CmdId}
    (linked : ∀ d ∈ next, d ∈ s.cmds)
    (ahead : ∀ d ∈ next, s.cmds.Pairwise fun a b => b = d → a ∈ pushes s.log) :
    Matched (s.handNext next) := by
  unfold AmlHw.handNext
  split
  · exact inv
  · rename_i d
    split
    · rename_i pcie
      have used := inv.emit (show (Event.use d).aside from ⟨rfl, rfl⟩)
      dsimp only
      split
      · rename_i waits
        refine used.pushNext (linked d rfl) waits pcie ?_ .msgind
        simpa [Event.pushed] using ahead d rfl
      · exact used
    · exact inv

theorem Matched.msgind (msg : E2aMsg) (accept : Bool)
    (sent : ∀ c, (if accept then s.awaiting msg.id else none) = some c → c ∈ pushes s.log) :
    Matched (s.cmdMgrMsgind msg accept) := by
  cases found : (if accept then s.awaiting msg.id else none) with
  | none =>
    rw [cmdMgrMsgind_none found]
    have seen : Matched (s.emit (.walk (walked s.cmds none))) := inv.emit ⟨rfl, rfl⟩
    exact seen.frame (.of_log [] rfl (Nat.le_succ _) rfl (by simp)) rfl seen.each seen.task seen.sem
      seen.ready (fun _ _ => id) fun _ _ => ⟨rfl, rfl⟩
  | some c =>
    have pushed := sent c found
    obtain ⟨linked, -, -⟩ := awaiting_spec found
    have taken := inv.consume found pushed
    cases waits : (s.flags c).waitAck with
    | true =>
      rw [cmdMgrMsgind_waits found waits]
      exact taken
    | false =>
      rw [cmdMgrMsgind_done found waits]
      have done := taken.complete ((taken.each c).linked linked)
      have pushes' : pushes ((s.msgindConfirmed msg c).cmdComplete c).log = pushes s.log := by
        rw [cmdComplete_eq]
        cases ((s.msgindConfirmed msg c).flags c).nonblock <;>
          simp [msgindConfirmed, msgindSeen, Event.pushed]
      refine done.handNext (fun d next => ?_) fun d next => ?_
      · obtain ⟨inside, ne⟩ := listNext_spec inv.nodup linked next
        rw [cmdComplete_eq]
        exact (List.mem_erase_of_ne ne).mpr inside
      · obtain ⟨front, rest, split⟩ := listNext_split linked next
        have before := inv.front split (.inl pushed)
        have whole : s.cmds = (front ++ [c]) ++ d :: rest := by simp [split]
        rw [pushes', cmdComplete_eq]
        refine (pairwise_ahead inv.nodup whole fun a inside => ?_).sublist List.erase_sublist
        rcases List.mem_append.mp inside with first | last
        · exact before a first
        · obtain rfl : a = c := by simpa using last
          exact pushed

/-! ### `cmd_mgr_drain` and the time-out -/

theorem Matched.drainOne (c : CmdId) : Matched (s.drainOne c) := by
  have ok : Course.Ok { s.course c with linked := False, result := (s.heap c).result } :=
    (inv.each c).unlinked .inl
  have silent : ∀ e ∈ (if (s.flags c).waitPush then [Event.freeCmd c, Event.freeMsg c] else []) ++
      [.drain c], e.silent := by
    cases (s.flags c).waitPush <;> simp [Event.silent, Event.pushed, Event.confirmed]
  rw [drainOne_eq]
  refine inv.unlink (.of_log _ rfl le_rfl (List.append_assoc _ [_] _).symm silent) c rfl ?_
    (fun d ne => ?_) rfl rfl fun d => ?_
  · cases blocking : (s.heap c).flags.nonblock <;> cases waits : (s.heap c).flags.waitPush <;>
      simpa [AmlHw.course, blocking, waits, inv.nodup.mem_erase_iff, Event.linked, Event.pushed, Event.acked] using ok
  · cases (s.heap c).flags.nonblock <;> cases (s.heap c).flags.waitPush <;>
      simp [AmlHw.course, ne, inv.nodup.mem_erase_iff, Event.linked, Event.pushed, Event.acked]
  · cases (s.heap c).flags.nonblock <;> by_cases same : d = c <;> simp [same]

theorem Matched.drain : Matched s.cmdMgrDrain := by
  unfold AmlHw.cmdMgrDrain
  suffices all : ∀ (l : List CmdId) (t : AmlHw), Matched t → Matched (l.foldl AmlHw.drainOne t) from
    all s.cmds s inv
  intro l
  induction l with
  | nil => exact fun t invT => invT
  | cons c rest ih => exact fun t invT => ih (t.drainOne c) (invT.drainOne c)

theorem Matched.goto {pc : CallerPc}
    (here : Course.Ok { s.course c with pc := pc }) (away : pc ≠ .direct) :
    Matched (s.goto c pc) := by
  have course : (s.goto c pc).course c = { s.course c with pc := pc } := by
    simp [AmlHw.course]
  refine inv.next (.of_log [] rfl le_rfl rfl (by simp)) rfl c (course ▸ here) (fun d ne => .inl ?_)
    (fun _ => ?_) (fun _ there => ?_) inv.task inv.sem fun _ _ => ⟨rfl, rfl⟩
  · simp [AmlHw.course, ne]
  · rw [course]
    rintro (pushed | there | held)
    · exact .inl pushed
    · exact absurd there away
    · exact .inr (.inr held)
  · exact absurd (by simpa using there) away

theorem Matched.timeOut (here : s.pc c = .expired ∨ s.pc c = .killed) : Matched (s.timeOut c) := by
  have waiter : (s.course c).left = false ∧ (s.course c).pc ≠ .unborn ∧ (s.course c).pc ≠ .direct := by
    rcases here with there | there <;> simp [AmlHw.course, Course.left, there]
  have used := inv.emit (show (Event.use c).aside from ⟨rfl, rfl⟩)
  cases done : (s.flags c).done with
  | true =>
    rw [timeOut_done done]
    have crashed : Matched (s.crashedBy c) :=
      used.frame (.of_log [] rfl le_rfl rfl (by simp)) rfl used.each used.task used.sem used.ready
        (fun _ _ => id) fun _ _ => ⟨rfl, rfl⟩
    refine crashed.goto ((crashed.each c).goesOn ?_ ?_ (.inl rfl)) (by simp)
    · exact waiter.1
    · exact waiter.2
  | false =>
    rw [timeOut_undone done]
    have course : (s.timedOut c).course c = { s.course c with result := eTimedOut } := by
      simp [AmlHw.course, timedOut, crashedBy, Event.linked, Event.pushed, Event.acked]
    have ok : Course.Ok { s.course c with result := eTimedOut } :=
      (inv.each c).fails (by decide)
    have failed : Matched (s.timedOut c) := by
      refine inv.next (.of_log [.use c] rfl le_rfl rfl ?_) rfl c (course ▸ ok)
        (fun d ne => .inl ?_) (fun _ => ?_) (fun _ => id) inv.task inv.sem fun d _ => ?_
      · simp [Event.silent, Event.pushed, Event.confirmed]
      · simp [AmlHw.course, timedOut, crashedBy, ne, Event.linked, Event.pushed, Event.acked]
      · rw [course]
        exact id
      · by_cases same : d = c <;> simp [timedOut, crashedBy, same]
    have ever : ((s.timedOut c).course c).ever := by
      rw [course]
      exact (inv.each c).called waiter.2.1 waiter.1
    have left := failed.complete ever
    have pc : ((s.timedOut c).cmdComplete c).pc = s.pc := by
      rw [cmdComplete_eq]
      rfl
    refine left.goto ((left.each c).goesOn ?_ ?_ (.inl rfl)) (by simp)
    · simpa [AmlHw.course, Course.left, pc] using waiter.1
    · simpa [AmlHw.course, pc] using waiter.2

/-! ### The callers -/

theorem Matched.goesOn {pc : CallerPc}
    (here : s.pc c = .signal ∨ s.pc c = .freeMsg ∨ s.pc c = .wait ∨ s.pc c = .killed)
    (there : pc = .leave 0 ∨ pc = .wait ∨ pc = .expired ∨ pc = .killed) : Matched (s.goto c pc) := by
  refine inv.goto ((inv.each c).goesOn ?_ ?_ there) ?_
  · rcases here with at' | at' | at' | at' <;> simp [AmlHw.course, Course.left, at']
  · rcases here with at' | at' | at' | at' <;> simp [AmlHw.course, at']
  · rcases there with rfl | rfl | rfl | rfl <;> simp

end

theorem afterPush_cases (s : AmlHw) (c : CmdId) : s.afterPush c = .leave 0 ∨ s.afterPush c = .wait := by
  unfold AmlHw.afterPush
  split
  · exact .inl rfl
  · exact .inr rfl

section

variable (inv : Matched s)

include inv

theorem Matched.afterPush (here : s.pc c = .signal ∨ s.pc c = .freeMsg) : Matched (s.goto c (s.afterPush c)) := by
  refine inv.goesOn ?_ ?_
  · rcases here with at' | at' <;> simp [at']
  · rcases afterPush_cases s c with after | after <;> simp [after]

theorem Matched.pushNow (here : s.pc c = .direct) : Matched (s.pushNow c) := by
  have ok := inv.each c
  unfold AmlHw.pushNow
  split
  · rename_i thread
    have course : (((s.emit (.use c)).onFlags c fun flags => { flags with waitPush := true }).goto c
        .signal).course c = { s.course c with pc := .signal, waitPush := true } := by
      simp [AmlHw.course, Event.linked, Event.pushed, Event.acked]
    refine inv.next (.of_log [.use c] rfl le_rfl rfl ?_) rfl c (course ▸ ok.toThread here thread.1)
      (fun d ne => .inl ?_) (fun _ _ => .inr (.inl here)) (fun _ => by simp) inv.task inv.sem
      fun d _ => ?_
    · simp [Event.silent, Event.pushed, Event.confirmed]
    · simp [AmlHw.course, ne, Event.linked, Event.pushed, Event.acked]
    · by_cases same : d = c <;> simp [same]
  · rw [ipcHostMsgPush_eq]
    refine inv.push c rfl rfl rfl ?_ ?_ inv.pushedBefore (ok.direct here).1 ?_ ?_ (fun d ne => ?_)
      (by simp) inv.task inv.sem fun _ => ⟨rfl, rfl⟩
    · simp [Event.pushed]
    · simp [Event.confirmed]
    · refine inv.ready.imp fun {a b} after same => after ?_
      exact same ▸ .inr (.inl here)
    · have pushed := ok.pushDirect here (if s.busType = .pcie ∧ s.gPciShutdown = true
        then s.msga2eHostid = some c else True)
      split <;> simp_all [AmlHw.course, Event.linked, Event.pushed, Event.acked]
    · have ne' : c ≠ d := fun eq => ne eq.symm
      by_cases off : s.busType = .pcie ∧ s.gPciShutdown = true
      · exact .inl (by simp [AmlHw.course, ne, off, Event.linked, Event.pushed, Event.acked])
      · exact .inr (by simp [AmlHw.course, ne, off, Event.linked, Event.pushed, Event.acked, ne'])

theorem Matched.signal (here : s.pc c = .signal) : Matched (s.signal c) := by
  have upped : Matched { s with amlMsgSem := s.amlMsgSem + 1 } := by
    refine inv.frame (.of_log [] rfl le_rfl rfl (by simp)) rfl inv.each inv.task (fun pcie => ?_)
      inv.ready (fun _ _ => id) fun _ _ => ⟨rfl, rfl⟩
    exact absurd here ((inv.each c).pcie pcie).2
  exact upped.afterPush (.inl here)

theorem Matched.finish {ret : Int} (here : s.pc c = .leave ret) : Matched (s.finish c ret) := by
  rw [finish_eq]
  have quiet : ∀ e ∈ (if (s.flags c).nonblock then [] else
      Event.freeCmd c :: (if ret = 0 then [Event.use c] else [])), e.aside := by
    cases (s.flags c).nonblock <;> by_cases ok : ret = 0 <;>
      simp [ok, Event.aside, Event.quiet, Event.confirmed]
  have logged : ∀ (es : List Event) (t : AmlHw), Matched t → (∀ e ∈ es, e.aside) →
      Matched { t with log := es ++ t.log } := by
    intro es t matched
    induction es with
    | nil => exact fun _ => matched
    | cons e rest ih =>
      intro aside
      exact (ih fun e' later => aside e' (by simp [later])).emit (aside e (by simp))
  have freed := logged _ s inv quiet
  refine freed.goto ((freed.each c).returns here fun zero blocking => ?_) (by simp)
  have blocking' : (s.flags c).nonblock = false := blocking
  by_cases ok : ret = 0
  · show (s.heap c).result = 0
    simpa [blocking', ok] using zero
  · simp [ok] at zero

theorem Matched.msgack (free : s.irq = none) : Matched s.msgackHandler := by
  unfold AmlHw.msgackHandler
  split
  · exact inv
  · rename_i c sent
    refine inv.next (.of_log [.ack c] rfl le_rfl rfl ?_) rfl c ?_ (fun d ne => .inl ?_) (fun _ => ?_)
      (fun _ => id) inv.task inv.sem fun _ _ => ⟨rfl, rfl⟩
    · simp [Event.silent, Event.pushed, Event.confirmed]
    · simpa [AmlHw.course, Event.linked, Event.pushed, Event.acked] using
        (inv.each c).acknowledged sent
    · have ne' : c ≠ d := fun eq => ne eq.symm
      simp [AmlHw.course, sent, free, ne, ne', Event.linked, Event.pushed, Event.acked]
    · rintro (pushed | rest)
      · exact .inl (by simpa [AmlHw.course, Event.pushed] using pushed)
      · exact .inr rest

/-! ### `aml_msg_task` -/

theorem Matched.taskWake (here : s.task = .idle) (up : 0 < s.amlMsgSem)
    (first : s.firstWaitPush = some c)
    (ahead : s.cmds.Pairwise fun a b => b = c → a ∈ pushes s.log) : Matched s.taskWake := by
  have found := List.find?_some first
  have linked : c ∈ s.cmds := List.mem_of_find?_eq_some first
  have other : s.busType ≠ .pcie := fun pcie => absurd (inv.sem pcie) (by omega)
  have course : s.taskWake.course c = { s.course c with held := .picked } := by
    simp [AmlHw.course, AmlHw.taskWake, first, MsgTask.held, Event.linked, Event.pushed, Event.acked]
  have others : ∀ d, d ≠ c → s.taskWake.course d = s.course d := by
    intro d ne
    have ne' : c ≠ d := fun eq => ne eq.symm
    simp [AmlHw.course, AmlHw.taskWake, first, MsgTask.held, here, ne', Event.linked, Event.pushed, Event.acked]
  refine inv.frame (.of_log [.walk _] rfl le_rfl rfl ?_) rfl (fun d => ?_) ?_
    (fun pcie => absurd pcie other) ?_ (fun _ _ => id) fun _ _ => ⟨rfl, rfl⟩
  · simp [Event.silent, Event.pushed, Event.confirmed]
  · by_cases same : d = c
    · rw [same, course]
      exact (inv.each c).pick found linked other
    · exact others d same ▸ inv.each d
  · simp [AmlHw.taskWake, first]
  · refine (inv.ready.and ahead).imp fun {a b} both going => ?_
    by_cases same : b = c
    · exact both.2 same
    · exact both.1 (others b same ▸ going)

theorem Matched.taskClear (here : s.task = .picked (some c)) : Matched (s.taskClear (some c)) := by
  have held : (s.course c).held = .picked := by simp [AmlHw.course, here, MsgTask.held]
  unfold AmlHw.taskClear
  refine inv.next (.of_log [.use c] rfl le_rfl rfl ?_) rfl c ?_ (fun d ne => .inl ?_)
    (fun _ _ => .inr (.inr (.inl held))) (fun _ => id) (by simp) inv.sem fun d _ => ?_
  · simp [Event.silent, Event.pushed, Event.confirmed]
  · simpa [AmlHw.course, MsgTask.held, Event.linked, Event.pushed, Event.acked] using
      (inv.each c).clear held
  · have ne' : c ≠ d := fun eq => ne eq.symm
    simp [AmlHw.course, MsgTask.held, here, ne, ne', Event.linked, Event.pushed, Event.acked]
  · by_cases same : d = c <;> simp [same]

theorem Matched.taskPush (here : s.task = .cleared c) : Matched (s.taskPush c) := by
  have ok := inv.each c
  have held : (s.course c).held = .cleared := by simp [AmlHw.course, here, MsgTask.held]
  simp only [AmlHw.taskPush, ipcHostMsgPush_eq]
  refine inv.push c rfl rfl rfl ?_ ?_ inv.pushedBefore (ok.cleared held).1 ?_ ?_ (fun d ne => ?_)
    (fun direct => (ok.direct direct).2.2.2 held) (by simp) inv.sem fun _ => ⟨rfl, rfl⟩
  · simp [Event.pushed]
  · simp [Event.confirmed]
  · refine inv.ready.imp fun {a b} after same => after ?_
    exact same ▸ .inr (.inr (.inr held))
  · have pushed := ok.taskPushes held (if s.busType = .pcie ∧ s.gPciShutdown = true
      then s.msga2eHostid = some c else True)
    split <;> simp_all [AmlHw.course, MsgTask.held, Event.linked, Event.pushed, Event.acked]
  · have ne' : c ≠ d := fun eq => ne eq.symm
    by_cases off : s.busType = .pcie ∧ s.gPciShutdown = true
    · exact .inl (by simp [AmlHw.course, off, MsgTask.held, here, ne, ne', Event.linked, Event.pushed, Event.acked])
    · exact .inr (by simp [AmlHw.course, off, MsgTask.held, here, ne, ne', Event.linked, Event.pushed, Event.acked])

theorem Matched.taskFree (here : s.task = .pushed c) : Matched (s.taskFree c) := by
  have held : (s.course c).held = .pushed := by simp [AmlHw.course, here, MsgTask.held]
  unfold AmlHw.taskFree
  refine inv.next (.of_log [.freeMsg c, .use c] rfl le_rfl rfl ?_) rfl c ?_ (fun d ne => .inl ?_)
    (fun _ => ?_) (fun _ => id) (by simp) inv.sem fun _ _ => ⟨rfl, rfl⟩
  · simp [Event.silent, Event.pushed, Event.confirmed]
  · simpa [AmlHw.course, MsgTask.held, Event.linked, Event.pushed, Event.acked] using
      (inv.each c).taskFrees held
  · have ne' : c ≠ d := fun eq => ne eq.symm
    simp [AmlHw.course, MsgTask.held, here, ne', Event.linked, Event.pushed, Event.acked]
  · rintro (pushed | direct | there)
    · exact .inl (by simpa [AmlHw.course, Event.pushed] using pushed)
    · exact .inr (.inl direct)
    · simp [AmlHw.course, MsgTask.held] at there

/-! ### `aml_send_msg` -/

theorem Matched.sendMsg (waits : Waits s) (req : SendReq) (env : SendEnv) : Matched (s.amlSendMsg req env) := by
  rcases amlSendMsg_cases inv.fresh.1 req env with
    ⟨ret, same⟩ | ⟨-, same⟩ | ⟨-, -, same⟩ | ⟨-, -, same⟩
  · exact same ▸ inv.emit ⟨rfl, rfl⟩
  · exact same ▸ inv.refuseNew req (by decide)
  · exact same ▸ inv.refuseNew req (by decide)
  · rw [same]
    have last : ∀ last, s.cmds.getLast? = some last → s.deferPush = false →
        last ∈ s.cmds ∧ (s.flags last).waitAck = false ∧ (s.busType = .pcie → (s.flags last).waitCfm = false) := by
      intro last isLast now
      have free : ((s.flags last).waitAck = false ∧ (s.flags last).waitPush = false) ∧
          (s.busType = .pcie → (s.flags last).waitCfm = false) := by
        simpa [deferPush, isLast] using now
      exact ⟨List.mem_of_getLast? isLast, free.1.1, free.2⟩
    refine inv.linkNew req (fun now => ?_) fun now pcie => ?_
    · cases isLast : s.cmds.getLast? with
      | none => simp [List.getLast?_eq_none_iff.mp isLast]
      | some x =>
        obtain ⟨inside, idle, -⟩ := last x isLast now
        have ok := inv.each x
        have pushed : x ∈ pushes s.log := ok.acked (ok.ack (ok.linked inside) idle)
        obtain ⟨front, split⟩ := List.getLast?_eq_some_iff.mp isLast
        have before := inv.front split (.inl pushed)
        rw [split]
        intro a member
        rcases List.mem_append.mp member with first | last
        · exact before a first
        · exact List.mem_singleton.mp last ▸ pushed
    · cases isLast : s.cmds.getLast? with
      | none => exact List.getLast?_eq_none_iff.mp isLast
      | some x =>
        obtain ⟨inside, acked, confirmed⟩ := last x isLast now
        rcases waits x inside with ack | cfm
        · simp [acked] at ack
        · simp [confirmed pcie] at cfm

end

/-! ### What linked commands wait for -/

section

variable (waits : Waits s)

include waits

theorem Waits.of_kept {s' : AmlHw} (cmds : s'.cmds ⊆ s.cmds)
    (flags : ∀ d ∈ s'.cmds, (s'.flags d).waitAck = (s.flags d).waitAck ∧
      (s'.flags d).waitCfm = (s.flags d).waitCfm) : Waits s' := by
  intro d inside
  rw [(flags d inside).1, (flags d inside).2]
  exact waits d (cmds inside)

theorem Waits.onFlags (c : CmdId) (f : CmdFlags → CmdFlags)
    (kept : ∀ flags, (f flags).waitAck = flags.waitAck ∧ (f flags).waitCfm = flags.waitCfm) :
    Waits (s.onFlags c f) := by
  refine waits.of_kept (List.Subset.refl _) fun d _ => ?_
  by_cases same : d = c
  · subst same
    simpa using kept (s.heap d).flags
  · simp [same]

theorem Waits.pushNext (x : CmdId) (path : PushPath) : Waits (s.pushNext x path) := by
  simp only [AmlHw.pushNext, ipcHostMsgPush_eq]
  exact waits.onFlags x (fun flags => { flags with waitPush := false }) fun _ => ⟨rfl, rfl⟩

theorem Waits.handOver (next : Option CmdId) (complete : Bool) : Waits (s.handOver next complete) := by
  unfold AmlHw.handOver
  split
  · exact waits
  · split
    · exact waits
    · split
      · exact waits.pushNext _ _
      · exact waits

theorem Waits.handNext (next : Option CmdId) : Waits (s.handNext next) := by
  unfold AmlHw.handNext
  split
  · exact waits
  · split
    · dsimp only
      split
      · rename_i x _ _
        exact Waits.pushNext (s := s.emit (.use x)) waits _ _
      · exact waits
    · exact waits

end

theorem Waits.complete (nodup : s.cmds.Nodup)
    (waits : ∀ d ∈ s.cmds, d ≠ c → (s.flags d).waitAck = true ∨ (s.flags d).waitCfm = true) :
    Waits (s.cmdComplete c) := by
  rw [cmdComplete_eq]
  intro d inside
  obtain ⟨ne, linked⟩ := nodup.mem_erase_iff.mp inside
  simpa [ne] using waits d linked ne

section

variable (waits : Waits s)

include waits

theorem Waits.llind (nodup : s.cmds.Nodup) (c : CmdId) : Waits (s.takeIrq.cmdMgrLlind c) := by
  obtain ⟨acked, next, scan⟩ : ∃ acked next,
      llindScan s.heap (s.heap c).tkn none s.cmds = (acked, next) := ⟨_, _, rfl⟩
  have others : ∀ d ∈ s.cmds, d ≠ c → ((s.takeIrq.llindAcked c next).flags d).waitAck = true ∨
      ((s.takeIrq.llindAcked c next).flags d).waitCfm = true := by
    intro d inside ne
    simpa [llindAcked, llindSeen, takeIrq, ne] using waits d inside
  cases acked with
  | none =>
    rw [cmdMgrLlind_lost (s := s.takeIrq) scan]
    exact Waits.handOver (s := s.takeIrq.llindSeen c next) waits next false
  | some d =>
    cases cfm : (s.flags c).waitCfm with
    | true =>
      rw [cmdMgrLlind_waits (s := s.takeIrq) scan cfm]
      refine Waits.handOver (fun d inside => ?_) next false
      by_cases same : d = c
      · have cfm' : (s.heap c).flags.waitCfm = true := cfm
        exact .inr (by simpa [llindAcked, llindSeen, takeIrq, same] using cfm')
      · exact others d inside same
    | false =>
      rw [cmdMgrLlind_done (s := s.takeIrq) scan cfm]
      exact (Waits.complete (s := s.takeIrq.llindAcked c next) nodup others).handOver next true

theorem Waits.msgind (nodup : s.cmds.Nodup) (msg : E2aMsg) (accept : Bool) : Waits (s.cmdMgrMsgind msg accept) := by
  cases found : (if accept then s.awaiting msg.id else none) with
  | none =>
    rw [cmdMgrMsgind_none found]
    exact waits
  | some c =>
    have others : ∀ d ∈ s.cmds, d ≠ c → ((s.msgindConfirmed msg c).flags d).waitAck = true ∨
        ((s.msgindConfirmed msg c).flags d).waitCfm = true := by
      intro d inside ne
      simpa [msgindConfirmed, msgindSeen, ne] using waits d inside
    cases ack : (s.flags c).waitAck with
    | true =>
      rw [cmdMgrMsgind_waits found ack]
      intro d inside
      by_cases same : d = c
      · have ack' : (s.heap c).flags.waitAck = true := ack
        exact .inl (by simpa [msgindConfirmed, msgindSeen, confirmed, same] using ack')
      · exact others d inside same
    | false =>
      rw [cmdMgrMsgind_done found ack]
      exact (Waits.complete (s := s.msgindConfirmed msg c) nodup others).handNext _

theorem Waits.drainOne (c : CmdId) : Waits (s.drainOne c) := by
  rw [drainOne_eq]
  refine waits.of_kept List.erase_subset fun d _ => ?_
  cases (s.heap c).flags.nonblock <;> by_cases same : d = c <;> simp [same]

theorem Waits.drain : Waits s.cmdMgrDrain := by
  unfold AmlHw.cmdMgrDrain
  suffices all : ∀ (l : List CmdId) (t : AmlHw), Waits t → Waits (l.foldl AmlHw.drainOne t) from
    all s.cmds s waits
  intro l
  induction l with
  | nil => exact fun t waitsT => waitsT
  | cons c rest ih => exact fun t waitsT => ih (t.drainOne c) (waitsT.drainOne c)

theorem Waits.timeOut (nodup : s.cmds.Nodup) (c : CmdId) : Waits (s.timeOut c) := by
  cases done : (s.flags c).done with
  | true =>
    rw [timeOut_done done]
    exact waits
  | false =>
    rw [timeOut_undone done]
    refine Waits.complete (s := s.timedOut c) nodup fun d inside ne => ?_
    simpa [timedOut, crashedBy, ne] using waits d inside

theorem Waits.sendMsg (fresh : s.newCmd ∉ s.cmds) (req : SendReq) (env : SendEnv) : Waits (s.amlSendMsg req env) := by
  have other : ∀ d ∈ s.cmds, d ≠ s.newCmd := fun d inside same => fresh (same ▸ inside)
  rcases amlSendMsg_cases fresh req env with
    ⟨ret, same⟩ | ⟨-, same⟩ | ⟨-, -, same⟩ | ⟨-, -, same⟩
  · exact same ▸ waits
  · rw [same]
    exact waits.of_kept (List.Subset.refl _) fun d inside => by simp [AmlHw.refuseNew, other d inside]
  · rw [same]
    exact waits.of_kept (List.Subset.refl _) fun d inside => by simp [AmlHw.refuseNew, other d inside]
  · rw [same]
    intro d inside
    rcases List.mem_append.mp inside with old | new
    · simpa [AmlHw.linkNew, other d old] using waits d old
    · obtain rfl := List.mem_singleton.mp new
      simp [AmlHw.linkNew, newLinked]

theorem Waits.step {s' : AmlHw} {a : Act} (nodup : s.cmds.Nodup)
    (fresh : s.newCmd ∉ s.cmds) (step : Step s a s') : Waits s' := by
  cases step with
  | sendMsg req env => exact waits.sendMsg fresh req env
  | pushNow c here =>
    unfold AmlHw.pushNow
    split
    · exact waits.onFlags c (fun flags => { flags with waitPush := true }) fun _ => ⟨rfl, rfl⟩
    · rw [ipcHostMsgPush_eq]
      exact waits
  | poll c here =>
    rw [poll_eq]
    exact waits
  | timeOut c here => exact waits.timeOut nodup c
  | finish c ret here =>
    rw [finish_eq]
    exact waits
  | msgack free =>
    unfold msgackHandler
    split <;> exact waits
  | llind c here => exact waits.llind nodup c
  | msgind msg accept => exact waits.msgind nodup msg accept
  | drain => exact waits.drain
  | taskClear cursor here =>
    cases cursor with
    | none => exact waits
    | some c => exact waits.onFlags c (fun flags => { flags with waitPush := false }) fun _ => ⟨rfl, rfl⟩
  | taskPush c here =>
    simp only [AmlHw.taskPush, ipcHostMsgPush_eq]
    exact waits
  | signal | freeMsg | wake | expire | kill | taskWake | taskFree | crash | pciShutdown | devStop =>
    exact waits

end

/-! ### Every step and every run -/

/-- Linked, and neither its caller nor `aml_msg_task` nor a hand-over still has to push it. -/
def AmlHw.handed (s : AmlHw) (c : CmdId) : Bool :=
  !(s.flags c).waitPush && decide (s.pc c ≠ .direct) && decide (s.task.held c ≠ .cleared)

theorem Matched.pushed_of_handed (inv : Matched s) (linked : c ∈ s.cmds) (handed : s.handed c = true) :
    c ∈ pushes s.log := by
  obtain ⟨⟨unmarked, away⟩, apart⟩ : ((s.heap c).flags.waitPush = false ∧ s.pc c ≠ .direct) ∧
      s.task.held c ≠ .cleared := by simpa [AmlHw.handed] using handed
  have ok := inv.each c
  rcases ok.owned (ok.linked linked) with waits | here | held | sent
  · simp [AmlHw.course, unmarked] at waits
  · exact absurd here away
  · exact absurd held apart
  · exact sent

end Steps

/-- The steps under which confirmations go to the commands they answer. `msgind`: the command that
consumes the message was pushed. `taskWake`: `aml_msg_task` finds a command, and those before it were
pushed. `llind`: on PCIe no other linked command carries the token of the acknowledged one. -/
def keepsMatch (s : AmlHw) : Act → Bool
  | .msgind msg accept => (if accept then s.awaiting msg.id else none).all s.handed
  | .taskWake => match s.firstWaitPush with
    | none => false
    | some c => (s.cmds.takeWhile (· ≠ c)).all s.handed
  | .llind => decide (s.busType ≠ .pcie) || s.irq.all fun c =>
      s.cmds.all fun d => decide (d = c ∨ (s.heap d).tkn ≠ (s.heap c).tkn)
  | _ => true

abbrev KeepsMatch : AmlHw → Act → Prop := fun s a => keepsMatch s a = true

theorem matched_step {s s' : AmlHw} {a : Act} (inv : Matched s) (waits : Waits s)
    (ok : keepsMatch s a = true) (stepped : s.step a = some s') : Matched s' ∧ Waits s' := by
  obtain ⟨-, step⟩ := step_cases stepped
  refine ⟨?_, waits.step inv.nodup inv.fresh.1 step⟩
  have used : ∀ c, Matched (s.emit (.use c)) := fun c => inv.emit ⟨rfl, rfl⟩
  have still : ∀ t : AmlHw, Calm s t → t.cmds = s.cmds → t.course = s.course → t.pc = s.pc →
      t.heap = s.heap → t.task = s.task → t.amlMsgSem = s.amlMsgSem → Matched t := by
    intro t calm cmds course pc heap task sem
    refine inv.frame calm cmds (course ▸ inv.each) (task ▸ inv.task)
      (fun pcie => sem ▸ inv.sem (calm.bus ▸ pcie)) (course ▸ inv.ready) (fun _ _ => pc ▸ id) ?_
    intro d _
    simp [heap]
  cases step with
  | sendMsg req env => exact inv.sendMsg waits req env
  | pushNow c here => exact inv.pushNow here
  | signal c here => exact inv.signal here
  | freeMsg c here =>
    have freed : Matched ((s.emit (.use c)).emit (.freeMsg c)) := (used c).emit ⟨rfl, rfl⟩
    exact freed.afterPush (.inr here)
  | wake c here done => exact (used c).goesOn (.inr (.inr (.inl here))) (.inl rfl)
  | expire c here undone => exact (used c).goesOn (.inr (.inr (.inl here))) (.inr (.inr (.inl rfl)))
  | kill c here undone => exact (used c).goesOn (.inr (.inr (.inl here))) (.inr (.inr (.inr rfl)))
  | poll c here =>
    rw [poll_killed here]
    refine (used c).goesOn (.inr (.inr (.inr here))) ?_
    cases (s.heap c).flags.done <;> simp
  | timeOut c here => exact inv.timeOut here
  | finish c ret here => exact inv.finish here
  | msgack free => exact inv.msgack free
  | llind c here =>
    refine inv.llind here fun pcie d inside => ?_
    have all : ∀ d ∈ s.cmds, d = c ∨ (s.heap d).tkn ≠ (s.heap c).tkn := by
      simpa [keepsMatch, here, pcie] using ok
    exact all d inside
  | msgind msg accept =>
    refine inv.msgind msg accept fun c found => ?_
    refine inv.pushed_of_handed (awaiting_spec found).1 ?_
    simpa [keepsMatch, found] using ok
  | drain => exact inv.drain
  | taskWake here up =>
    cases first : s.firstWaitPush with
    | none => simp [keepsMatch, first] at ok
    | some c =>
      have ahead : ∀ a ∈ s.cmds.takeWhile (· ≠ c), s.handed a = true := by
        simpa only [keepsMatch, first, List.all_eq_true] using ok
      have linked : c ∈ s.cmds := List.mem_of_find?_eq_some first
      obtain ⟨front, back, split⟩ := List.append_of_mem linked
      obtain ⟨-, -, apart⟩ := List.nodup_append.mp (split ▸ inv.nodup)
      have passed : s.cmds.takeWhile (· ≠ c) = front ++ (c :: back).takeWhile (· ≠ c) := by
        rw [split]
        exact List.takeWhile_append_of_pos fun a inside => by simpa using apart a inside c (by simp)
      refine inv.taskWake here up first (pairwise_ahead inv.nodup split fun a inside => ?_)
      refine inv.pushed_of_handed (by simp [split, inside]) (ahead a ?_)
      exact passed ▸ List.mem_append_left _ inside
  | taskClear cursor here =>
    cases cursor with
    | none => exact absurd here inv.task
    | some c => exact inv.taskClear here
  | taskPush c here => exact inv.taskPush here
  | taskFree c here => exact inv.taskFree here
  | crash | pciShutdown | devStop =>
    exact still _ (.of_log [] rfl le_rfl rfl (by simp)) rfl rfl rfl rfl rfl rfl

/-- What confirmations promise. -/
structure ConfirmSound (s : AmlHw) : Prop where
  returned : ∀ c, s.pc c = .returned 0 → (s.flags c).nonblock = false → c ∈ pushes s.log ∧ c ∈ acks s.log ∧
      ((s.flags c).reqCfm = true → ∃ rx, Event.confirm c rx (s.heap c).reqid ∈ s.log)
  afterPush : PushedBefore s.log
  once : ((confirms s.log).map (·.2.1)).Nodup
  inOrder : ∀ r, InOrder (pushes s.log) (consumers s.log r) s.cmds (s.awaits r)

end W2l.Cmd
