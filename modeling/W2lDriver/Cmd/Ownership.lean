/-
**Who frees a command and its message.**

Four places free: `cmd_complete` (non-blocking commands), `aml_send_msg` (blocking commands),
`cmd_mgr_drain`, and whoever pushed the message. Every other access must come before.

* `Clean` — nothing in the history touches a command or a message after it was freed; in particular
  nothing is freed twice.
* `keepsOwner` — the steps under which this holds.
* `Owned` — the invariant: the history is clean and the life of every command is in order.
-/

import W2lDriver.Cmd.Lifetime
import W2lDriver.Cmd.Structure

namespace W2l.Cmd

open AmlHw
open Lib (System)

/-! ### The history -/

def Event.touches : Event → CmdId → Bool
  | .refuse d, c | .link d, c | .push d _ _, c | .confirm d _ _, c | .complete d _, c | .drain d, c
  | .use d, c | .freeCmd d, c => decide (d = c)
  | .walk cmds, c => decide (c ∈ cmds)
  | _, _ => false

def Event.touchesMsg : Event → CmdId → Bool
  | .push d _ _, c | .freeMsg d, c => decide (d = c)
  | _, _ => false

/-- `later` does not touch what `earlier` freed. -/
def Event.After (later earlier : Event) : Prop :=
  ∀ c, (earlier = .freeCmd c → later.touches c = false) ∧ (earlier = .freeMsg c → later.touchesMsg c = false)

def Clean (log : List Event) : Prop := log.Pairwise Event.After

/-- `e` touches nothing that `log` freed. -/
def Allowed (log : List Event) (e : Event) : Prop :=
  ∀ c, (e.touches c = true → Event.freeCmd c ∉ log) ∧ (e.touchesMsg c = true → Event.freeMsg c ∉ log)

section

variable {log : List Event} (clean : Clean log)

include clean

theorem Clean.cons {e : Event} (allowed : Allowed log e) : Clean (e :: log) := by
  refine List.pairwise_cons.mpr ⟨fun earlier inside c => ⟨?_, ?_⟩, clean⟩
  · rintro rfl
    by_contra touched
    exact (allowed c).1 (by simpa using touched) inside
  · rintro rfl
    by_contra touched
    exact (allowed c).2 (by simpa using touched) inside

theorem Clean.freeCmd_once (c : CmdId) : log.count (.freeCmd c) ≤ 1 := by
  induction log with
  | nil => simp
  | cons e log ih =>
    obtain ⟨after, clean⟩ := List.pairwise_cons.mp clean
    rw [List.count_cons]
    split
    · rename_i same
      obtain rfl : e = .freeCmd c := by simpa using same
      have none : log.count (.freeCmd c) = 0 := by
        refine List.count_eq_zero.mpr fun inside => ?_
        simpa [Event.touches] using (after _ inside c).1 rfl
      omega
    · simpa using ih clean

theorem Clean.freeMsg_once (c : CmdId) : log.count (.freeMsg c) ≤ 1 := by
  induction log with
  | nil => simp
  | cons e log ih =>
    obtain ⟨after, clean⟩ := List.pairwise_cons.mp clean
    rw [List.count_cons]
    split
    · rename_i same
      obtain rfl : e = .freeMsg c := by simpa using same
      have none : log.count (.freeMsg c) = 0 := by
        refine List.count_eq_zero.mpr fun inside => ?_
        simpa [Event.touchesMsg] using (after _ inside c).2 rfl
      omega
    · simpa using ih clean

end

/-! ### The invariant -/

/-- What holds between two steps. -/
structure Owned (s : AmlHw) : Prop where
  each : ∀ c, (s.life c).Ok
  nodup : s.cmds.Nodup
  task : s.task ≠ .picked none
  sem : s.busType = .pcie → s.amlMsgSem = 0
  clean : Clean s.log

theorem owned_init (bus : BusType) : Owned (cmdSystem bus).init where
  each c := by
    constructor <;> simp [cmdSystem, AmlHw.life, Life.cmdOwned, Life.msgOwned, Life.marked, Life.unsent, MsgTask.held]
  nodup := List.nodup_nil
  task := by simp [cmdSystem]
  sem := fun _ => rfl
  clean := List.Pairwise.nil

section Step

variable {s s' : AmlHw} {c : CmdId}

theorem allowed_of_life {e : Event}
    (cmd : ∀ c, e.touches c = true → ¬ (s.life c).cmdFreed)
    (msg : ∀ c, e.touchesMsg c = true → ¬ (s.life c).msgFreed) : Allowed s.log e := by
  intro c
  refine ⟨fun touched => ?_, fun touched => ?_⟩
  · simpa [AmlHw.life] using cmd c touched
  · simpa [AmlHw.life] using msg c touched

section

variable (inv : Owned s)

include inv

theorem Owned.next (c : CmdId) (here : (s'.life c).Ok)
    (others : ∀ d, d ≠ c → s'.life d = s.life d ∨ s'.life d = { s.life d with sent := False })
    (nodup : s'.cmds.Nodup) (task : s'.task ≠ .picked none)
    (sem : s'.busType = .pcie → s'.amlMsgSem = 0) (clean : Clean s'.log) : Owned s' where
  each d := by
    by_cases same : d = c
    · exact same ▸ here
    · rcases others d same with kept | unsent
      · exact kept ▸ inv.each d
      · exact unsent ▸ (inv.each d).unsends
  nodup := nodup
  task := task
  sem := sem
  clean := clean

theorem Owned.emit {e : Event} (allowed : Allowed s.log e)
    (quiet : ∀ c, e ≠ .freeCmd c ∧ e ≠ .freeMsg c) : Owned (s.emit e) where
  each d := by
    have same : (s.emit e).life d = s.life d := by
      simp [AmlHw.life, (quiet d).1.symm, (quiet d).2.symm]
    exact same ▸ inv.each d
  nodup := inv.nodup
  task := inv.task
  sem := inv.sem
  clean := inv.clean.cons allowed

theorem Owned.walk {cmds : List CmdId} (sub : cmds ⊆ s.cmds) : Owned (s.emit (.walk cmds)) := by
  refine inv.emit (allowed_of_life (fun c touched => ?_) (by simp [Event.touchesMsg])) (by simp)
  have inside : c ∈ s.cmds := sub (by simpa [Event.touches] using touched)
  exact (inv.each c).cmd_of_owned ((inv.each c).owned_of_linked inside)

theorem Owned.use (owned : (s.life c).cmdOwned) : Owned (s.emit (.use c)) := by
  refine inv.emit (allowed_of_life (fun d touched => ?_) (by simp [Event.touchesMsg])) (by simp)
  obtain rfl : c = d := by simpa [Event.touches] using touched
  exact (inv.each c).cmd_of_owned owned

end

@[simp] theorem life_use (s : AmlHw) (c d : CmdId) : (s.emit (.use c)).life d = s.life d := by
  simp [AmlHw.life]

theorem Owned.goto (inv : Owned s) {pc : CallerPc} (ok : Life.Ok { s.life c with pc := pc }) :
    Owned (s.goto c pc) := by
  refine inv.next c ?_ (fun d ne => .inl ?_) inv.nodup inv.task inv.sem inv.clean
  · simpa [AmlHw.life] using ok
  · simp [AmlHw.life, ne]

theorem Owned.allowed_push (inv : Owned s) (cmd : (s.life c).cmdOwned) (msg : (s.life c).msgOwned)
    (path : PushPath) (busy : Bool) : Allowed s.log (.push c path busy) := by
  refine allowed_of_life (fun d touched => ?_) fun d touched => ?_
  · obtain rfl : c = d := by simpa [Event.touches] using touched
    exact (inv.each c).cmd_of_owned cmd
  · obtain rfl : c = d := by simpa [Event.touchesMsg] using touched
    exact (inv.each c).msg_of_owned msg

theorem Owned.allowed_freeMsg (inv : Owned s) (msg : (s.life c).msgOwned) : Allowed s.log (.freeMsg c) := by
  refine allowed_of_life (by simp [Event.touches]) fun d touched => ?_
  obtain rfl : c = d := by simpa [Event.touchesMsg] using touched
  exact (inv.each c).msg_of_owned msg

theorem Allowed.later {log : List Event} {e first : Event} (allowed : Allowed log e)
    (after : e.After first) : Allowed (first :: log) e := by
  intro c
  refine ⟨fun touched inside => ?_, fun touched inside => ?_⟩
  · rcases List.mem_cons.mp inside with same | old
    · simp [(after c).1 same.symm] at touched
    · exact (allowed c).1 touched old
  · rcases List.mem_cons.mp inside with same | old
    · simp [(after c).2 same.symm] at touched
    · exact (allowed c).2 touched old

section

variable (inv : Owned s)

include inv

theorem Owned.pushNow (here : s.pc c = .direct) : Owned (s.pushNow c) := by
  have early := (inv.each c).early (.inl here)
  have msg : (s.life c).msgOwned := .inl here
  unfold AmlHw.pushNow
  split
  · rename_i thread
    have ok := (inv.each c).toThread here thread.2 thread.1
    have used := inv.use early.2.2
    refine used.next c ?_ (fun d ne => .inl ?_) inv.nodup inv.task inv.sem used.clean
    · simpa [AmlHw.life] using ok
    · simp [AmlHw.life, ne]
  · rw [ipcHostMsgPush_eq]
    refine inv.next c ?_ (fun d ne => ?_) inv.nodup inv.task inv.sem
      (inv.clean.cons (inv.allowed_push early.2.2 msg _ _))
    · have ok := (inv.each c).pushDirect here (if s.busType = .pcie ∧ s.gPciShutdown = true
        then s.msga2eHostid = some c else True)
      split <;> simp_all [AmlHw.life]
    · by_cases off : s.busType = .pcie ∧ s.gPciShutdown = true
      · exact .inl (by simp [AmlHw.life, ne, off])
      · have ne' : c ≠ d := fun eq => ne eq.symm
        exact .inr (by simp [AmlHw.life, ne, off, ne'])

theorem Owned.signal (here : s.pc c = .signal) : Owned (s.signal c) := by
  have sent := (inv.each c).signal here
  have nonblock : (s.heap c).flags.nonblock = true := sent.1
  have pc : s.afterPush c = .leave 0 := by simp [afterPush, nonblock]
  unfold AmlHw.signal
  rw [pc]
  refine inv.next c ?_ (fun d ne => .inl ?_) inv.nodup inv.task ?_ inv.clean
  · simpa [AmlHw.life] using (inv.each c).signalled here
  · simp [AmlHw.life, ne]
  · exact fun pcie => absurd pcie sent.2

theorem Owned.freeMsg (here : s.pc c = .freeMsg) : Owned (s.freeMsg c) := by
  have early := (inv.each c).early (.inr here)
  have used := inv.use early.2.2
  have msg : ((s.emit (.use c)).life c).msgOwned := by
    rw [life_use]
    exact .inr (.inl here)
  have there : (s.afterPush c = .leave 0 ∧ (s.life c).nonblock = true) ∨
      (s.afterPush c = .wait ∧ (s.life c).nonblock = false) := by
    cases blocking : (s.heap c).flags.nonblock <;> simp [afterPush, AmlHw.life, blocking]
  unfold AmlHw.freeMsg
  refine inv.next c ?_ (fun d ne => .inl ?_) inv.nodup inv.task inv.sem (used.clean.cons (used.allowed_freeMsg msg))
  · simpa [AmlHw.life, afterPush] using (inv.each c).callerFrees here there
  · simp [AmlHw.life, ne]

theorem Owned.waits (here : s.pc c = .wait ∨ s.pc c = .expired ∨ s.pc c = .killed)
    {pc : CallerPc} (ok : Life.Ok { s.life c with pc := pc }) :
    Owned ((s.emit (.use c)).goto c pc) := by
  refine (inv.use ?_).goto (by rwa [life_use])
  have nonblock := (inv.each c).nonblock
  have pc : (s.life c).pc = .wait ∨ (s.life c).pc = .expired ∨ (s.life c).pc = .killed := here
  grind

theorem Owned.unlinked
    (here : s.pc c = .wait ∨ s.pc c = .expired ∨ s.pc c = .killed)
    (ended : (s.heap c).complete = true ∨ (s.flags c).done = true) : ¬ (s.life c).linked := by
  intro linked
  have nonblock := (inv.each c).nonblock
  have waiter := (inv.each c).waiter linked
  have pc : (s.life c).pc = .wait ∨ (s.life c).pc = .expired ∨ (s.life c).pc = .killed := here
  have ended' : (s.life c).complete = true ∨ (s.life c).done = true := ended
  grind

theorem Owned.poll (here : s.pc c = .killed) : Owned (s.poll c) := by
  have waiter : s.pc c = .wait ∨ s.pc c = .expired ∨ s.pc c = .killed := .inr (.inr here)
  rw [poll_killed here]
  refine inv.waits waiter ?_
  split
  · rename_i done
    exact (inv.each c).leaves waiter (inv.unlinked waiter (.inr done))
  · rw [← here]
    exact inv.each c

end

theorem Owned.leaving {ret : Int} (here : s.pc c = .leave ret)
    (blocking : (s.flags c).nonblock = false) : (s.life c).cmdOwned := by
  have pc : (s.life c).pc = .leave ret := here
  have blocking' : (s.life c).nonblock = false := blocking
  grind

section

variable (inv : Owned s)

include inv

/-- `aml_send_msg` frees a blocking command last. -/
theorem Owned.frees {ret : Int} (here : s.pc c = .leave ret)
    (blocking : (s.flags c).nonblock = false) (alone : s.task.held c = .no) (ret' : Int) :
    Owned ((s.emit (.freeCmd c)).goto c (.returned ret')) := by
  have blocking' : (s.heap c).flags.nonblock = false := blocking
  have allowed : Allowed s.log (.freeCmd c) := by
    refine allowed_of_life (fun d touched => ?_) (by simp [Event.touchesMsg])
    obtain rfl : c = d := by simpa [Event.touches] using touched
    exact (inv.each c).cmd_of_owned (Owned.leaving here blocking)
  refine inv.next c ?_ (fun d ne => .inl ?_) inv.nodup inv.task inv.sem (inv.clean.cons allowed)
  · simpa [AmlHw.life, blocking'] using (inv.each c).returns here ret' (.inr alone)
  · simp [AmlHw.life, ne]

theorem Owned.finish {ret : Int} (here : s.pc c = .leave ret)
    (free : (s.flags c).nonblock = true ∨ s.task.held c = .no) : Owned (s.finish c ret) := by
  unfold AmlHw.finish
  cases blocking : (s.flags c).nonblock with
  | true =>
    have nonblock : (s.life c).nonblock = true := blocking
    exact inv.goto (by simpa [nonblock] using (inv.each c).returns here ret (.inl nonblock))
  | false =>
    have alone : s.task.held c = .no := free.resolve_left (by simp [blocking])
    by_cases ok : ret = 0
    · have used := inv.use (Owned.leaving here blocking)
      simpa [ok] using used.frees here blocking alone (s.heap c).result
    · simpa [ok] using inv.frees here blocking alone ret

/-! ### The manager -/

/-- `cmd_complete` of a command that nobody else is about to push. -/
theorem Owned.complete (owned : (s.life c).cmdOwned)
    (unmarked : ¬ (s.life c).marked) (away : s.task.held c ≠ .picked)
    (free : (s.flags c).nonblock = true → c ∈ s.cmds ∧ (s.flags c).waitAck = false ∧ (s.life c).pusherDone) :
    Owned (s.cmdComplete c) := by
  have allowed : Allowed s.log (.complete c (decide (c ∈ s.cmds))) := by
    refine allowed_of_life (fun d touched => ?_) (by simp [Event.touchesMsg])
    obtain rfl : c = d := by simpa [Event.touches] using touched
    exact (inv.each c).cmd_of_owned owned
  have ok := (inv.each c).completes unmarked away free (completed (s.heap c)).complete
  have clean : Clean (s.cmdComplete c).log := by
    rw [cmdComplete_eq]
    have done := inv.clean.cons allowed
    cases (s.flags c).nonblock with
    | false => exact done
    | true =>
      refine done.cons (Allowed.later ?_ (by simp [Event.After]))
      refine allowed_of_life (fun d touched => ?_) (by simp [Event.touchesMsg])
      obtain rfl : c = d := by simpa [Event.touches] using touched
      exact (inv.each c).cmd_of_owned owned
  rw [cmdComplete_eq] at clean ⊢
  refine inv.next c ?_ (fun d ne => .inl ?_) (inv.nodup.erase c) inv.task inv.sem clean
  · cases blocking : (s.heap c).flags.nonblock <;>
      simpa [AmlHw.life, blocking, completed, inv.nodup.mem_erase_iff] using ok
  · cases (s.heap c).flags.nonblock <;> simp [AmlHw.life, ne, inv.nodup.mem_erase_iff]

theorem Owned.pushNext (marked : (s.life c).marked) (pcie : s.busType = .pcie)
    (path : PushPath) : Owned (s.pushNext c path) := by
  have cmd := (inv.each c).owned_of_linked marked.1
  have msg : (s.life c).msgOwned := .inr (.inr (.inl marked))
  have clean : Clean (.freeMsg c :: .push c path s.msga2eHostid.isSome :: s.log) := by
    refine (inv.clean.cons (inv.allowed_push cmd msg path _)).cons ?_
    exact (inv.allowed_freeMsg msg).later (by simp [Event.After])
  simp only [AmlHw.pushNext, ipcHostMsgPush_eq, AmlHw.emit, AmlHw.onFlags, AmlHw.onCmd]
  refine inv.next c ?_ (fun d ne => ?_) inv.nodup inv.task inv.sem clean
  · have ok := (inv.each c).handedOver marked pcie (if s.busType = .pcie ∧ s.gPciShutdown = true
      then s.msga2eHostid = some c else True)
    split <;> simp_all [AmlHw.life]
  · have ne' : c ≠ d := fun eq => ne eq.symm
    by_cases off : s.busType = .pcie ∧ s.gPciShutdown = true
    · exact .inl (by simp [AmlHw.life, ne, off])
    · exact .inr (by simp [AmlHw.life, ne, off, ne'])

theorem Owned.handOver {next : Option CmdId}
    (marked : ∀ d ∈ next, (s.life d).marked) (complete : Bool) : Owned (s.handOver next complete) := by
  unfold AmlHw.handOver
  split
  · exact inv
  · rename_i d
    split
    · rename_i other
      refine ⟨fun e => inv.each e, inv.nodup, inv.task, fun pcie => absurd pcie other, inv.clean⟩
    · rename_i pcie
      split
      · exact inv.pushNext (marked d rfl) (by simpa using pcie) .llind
      · exact inv

end

theorem life_llindAcked (s : AmlHw) (c : CmdId) (next : Option CmdId) :
    (s.takeIrq.llindAcked c next).life c = { s.life c with acked := False, waitAck := false } := by
  simp [AmlHw.life, llindAcked, llindSeen, takeIrq]

/-- The scan of `cmd_mgr_llind`; `WAIT_ACK` is cleared if the command is found. -/
theorem Owned.llindScanned (inv : Owned s) (here : s.irq = some c) (owned : (s.life c).cmdOwned)
    (next : Option CmdId) :
    Owned (s.takeIrq.llindSeen c next) ∧ Owned (s.takeIrq.llindAcked c next) := by
  have waitAck : (s.heap c).flags.waitAck = true := ((inv.each c).away (.inr here)).1
  have read : Owned ((s.emit (.use c)).emit (.walk (walked s.cmds next))) :=
    (inv.use owned).walk (walked_subset _ _)
  constructor
  · refine read.next c ?_ (fun d ne => .inl ?_) inv.nodup inv.task inv.sem read.clean
    · simpa [AmlHw.life, llindSeen, takeIrq, waitAck] using (inv.each c).llind here false
    · have ne' : c ≠ d := fun eq => ne eq.symm
      simp [AmlHw.life, llindSeen, takeIrq, here, ne']
  · refine read.next c ?_ (fun d ne => .inl ?_) inv.nodup inv.task inv.sem read.clean
    · rw [life_llindAcked]
      exact (inv.each c).llind here true
    · have ne' : c ≠ d := fun eq => ne eq.symm
      simp [AmlHw.life, llindAcked, llindSeen, takeIrq, here, ne, ne']

theorem Owned.llind (inv : Owned s) (here : s.irq = some c)
    (nonblocking : (s.flags c).nonblock = true → (s.flags c).waitCfm = true ∨ (s.life c).pusherDone)
    (blocking : (s.flags c).nonblock = false → (s.life c).returned = false) :
    Owned (s.takeIrq.cmdMgrLlind c) := by
  obtain ⟨acked, next, scan⟩ : ∃ acked next,
      llindScan s.heap (s.heap c).tkn none s.cmds = (acked, next) := ⟨_, _, rfl⟩
  have away := (inv.each c).away (.inr here)
  have owned : (s.life c).cmdOwned := by
    unfold Life.cmdOwned
    split
    · rename_i nonblock
      exact away.2 nonblock
    · rename_i block
      have block' : (s.life c).nonblock = false := by simpa using block
      exact blocking block'
  obtain ⟨seen, cleared⟩ := inv.llindScanned here owned next
  have unmarked : ¬ (s.life c).marked := fun marked => ((inv.each c).marked marked).2.2 here
  have ahead : ∀ d ∈ next, d ≠ c ∧ d ∈ s.cmds ∧ (s.flags d).waitPush = true := by
    intro d found
    have scanned : (llindScan s.heap (s.heap c).tkn none s.cmds).2 = some d := by
      rw [scan]
      exact found
    obtain ⟨linked, waits⟩ := llindScan_mem.2 d scanned
    exact ⟨fun same => unmarked (same ▸ ⟨linked, waits⟩), linked, waits⟩
  cases acked with
  | none =>
    rw [cmdMgrLlind_lost (s := s.takeIrq) scan]
    exact seen.handOver (fun d found => (ahead d found).2) false
  | some d =>
    have marked : ∀ d ∈ next, ((s.takeIrq.llindAcked c next).life d).marked := by
      intro d found
      obtain ⟨ne, linked, waits⟩ := ahead d found
      have waits' : (s.heap d).flags.waitPush = true := waits
      simpa [AmlHw.life, Life.marked, llindAcked, llindSeen, takeIrq, ne, waits'] using linked
    cases cfm : (s.flags c).waitCfm with
    | true =>
      rw [cmdMgrLlind_waits (s := s.takeIrq) scan cfm]
      exact cleared.handOver marked false
    | false =>
      rw [cmdMgrLlind_done (s := s.takeIrq) scan cfm]
      have life := life_llindAcked s c next
      have done : Owned ((s.takeIrq.llindAcked c next).cmdComplete c) := by
        refine cleared.complete (life ▸ owned) (life ▸ unmarked) ?_ fun nonblock => ?_
        · exact fun picked => unmarked ((inv.each c).picked picked)
        · have nonblock' : (s.flags c).nonblock = true := by
            simpa [llindAcked, llindSeen, takeIrq] using nonblock
          refine ⟨away.2 nonblock', by simp [llindAcked], life ▸ ?_⟩
          exact (nonblocking nonblock').resolve_left (by simp [cfm])
      refine done.handOver (fun d found => ?_) true
      obtain ⟨ne, -, -⟩ := ahead d found
      have still := marked d found
      rw [cmdComplete_eq]
      simpa [AmlHw.life, Life.marked, ne, cleared.nodup.mem_erase_iff] using still

theorem Owned.handNext (inv : Owned s) {next : Option CmdId} (linked : ∀ d ∈ next, d ∈ s.cmds) :
    Owned (s.handNext next) := by
  unfold AmlHw.handNext
  split
  · exact inv
  · rename_i d
    have here : (s.life d).linked := linked d rfl
    have used := inv.use ((inv.each d).owned_of_linked here)
    split
    · rename_i pcie
      dsimp only
      split
      · rename_i waits
        exact used.pushNext ⟨here, waits⟩ pcie .msgind
      · exact used
    · exact inv

theorem life_msgindConfirmed (s : AmlHw) (msg : E2aMsg) (c d : CmdId) :
    (s.msgindConfirmed msg c).life d = s.life d := by
  by_cases same : d = c <;> simp [AmlHw.life, msgindConfirmed, msgindSeen, confirmed, same]

section

variable (inv : Owned s)

include inv

theorem Owned.msgind (msg : E2aMsg) (accept : Bool)
    (free : ∀ c, (if accept then s.awaiting msg.id else none) = some c →
      (s.flags c).nonblock = true → (s.flags c).waitAck = true ∨ (s.life c).pusherDone) :
    Owned (s.cmdMgrMsgind msg accept) := by
  cases found : (if accept then s.awaiting msg.id else none) with
  | none =>
    rw [cmdMgrMsgind_none found]
    have scanned := inv.walk (walked_subset s.cmds none)
    exact ⟨scanned.each, scanned.nodup, scanned.task, scanned.sem, scanned.clean⟩
  | some c =>
    have linked : (s.life c).linked := (awaiting_spec found).1
    have owned := (inv.each c).owned_of_linked linked
    have scanned := inv.walk (walked_subset s.cmds (some c))
    have allowed : Allowed (s.emit (.walk (walked s.cmds (some c)))).log (.confirm c (s.rxCnt + 1) msg.id) := by
      refine allowed_of_life (fun d touched => ?_) (by simp [Event.touchesMsg])
      obtain rfl : c = d := by simpa [Event.touches] using touched
      exact (scanned.each c).cmd_of_owned (by simpa [AmlHw.life] using owned)
    have taken : Owned (s.msgindConfirmed msg c) :=
      ⟨fun d => life_msgindConfirmed s msg c d ▸ inv.each d, inv.nodup, inv.task, inv.sem, scanned.clean.cons allowed⟩
    cases waits : (s.flags c).waitAck with
    | true =>
      rw [cmdMgrMsgind_waits found waits]
      exact taken
    | false =>
      rw [cmdMgrMsgind_done found waits]
      have life := life_msgindConfirmed s msg c c
      have unmarked : ¬ (s.life c).marked := by
        intro marked
        have unsent : (s.life c).waitAck = true := ((inv.each c).marked marked).1
        rw [show (s.life c).waitAck = false from waits] at unsent
        exact absurd unsent (by simp)
      have done : Owned ((s.msgindConfirmed msg c).cmdComplete c) := by
        refine taken.complete (life ▸ owned) (life ▸ unmarked) ?_ fun nonblock => ?_
        · exact fun picked => unmarked ((inv.each c).picked picked)
        · have nonblock' : (s.flags c).nonblock = true := by
            simpa [msgindConfirmed, msgindSeen, confirmed] using nonblock
          refine ⟨linked, ?_, life ▸ ?_⟩
          · simpa [msgindConfirmed, msgindSeen, confirmed] using waits
          · exact (free c found nonblock').resolve_left (by simp [waits])
      refine done.handNext fun d next => ?_
      obtain ⟨inside, ne⟩ := listNext_spec inv.nodup linked next
      rw [cmdComplete_eq]
      exact (List.mem_erase_of_ne ne).mpr inside

/-- `cmd_mgr_drain` frees the commands nobody waits for, which must not have been pushed. -/
theorem Owned.drainOne (linked : c ∈ s.cmds)
    (free : if (s.flags c).nonblock then (s.flags c).waitPush = true ∧ s.task.held c = .no
      else (s.flags c).waitPush = false) : Owned (s.drainOne c) := by
  have owned := (inv.each c).owned_of_linked linked
  have ok := (inv.each c).drained linked free
  have drained : Clean (.drain c :: s.log) := by
    refine inv.clean.cons (allowed_of_life (fun d touched => ?_) (by simp [Event.touchesMsg]))
    obtain rfl : c = d := by simpa [Event.touches] using touched
    exact (inv.each c).cmd_of_owned owned
  rw [drainOne_eq]
  refine inv.next c ?_ (fun d ne => .inl ?_) (inv.nodup.erase c) inv.task inv.sem ?_
  · cases blocking : (s.heap c).flags.nonblock <;> cases waits : (s.heap c).flags.waitPush <;>
      simpa [AmlHw.life, blocking, waits, inv.nodup.mem_erase_iff] using ok
  · cases (s.heap c).flags.nonblock <;> cases (s.heap c).flags.waitPush <;>
      simp [AmlHw.life, ne, inv.nodup.mem_erase_iff]
  · cases waits : (s.flags c).waitPush with
    | false => exact drained
    | true =>
      have msg : (s.life c).msgOwned := .inr (.inr (.inl ⟨linked, waits⟩))
      have freed := drained.cons ((inv.allowed_freeMsg msg).later (by simp [Event.After]))
      refine freed.cons (Allowed.later (Allowed.later ?_ (by simp [Event.After]))
        (by simp [Event.After, Event.touchesMsg]))
      refine allowed_of_life (fun d touched => ?_) (by simp [Event.touchesMsg])
      obtain rfl : c = d := by simpa [Event.touches] using touched
      exact (inv.each c).cmd_of_owned owned

theorem Owned.drain
    (free : ∀ c ∈ s.cmds, if (s.flags c).nonblock
      then (s.flags c).waitPush = true ∧ s.task.held c = .no
      else (s.flags c).waitPush = false) : Owned s.cmdMgrDrain := by
  unfold AmlHw.cmdMgrDrain
  suffices all : ∀ l (t : AmlHw), Owned t → t.cmds = l →
      (∀ c ∈ l, t.flags c = s.flags c) → t.task = s.task → l ⊆ s.cmds →
      Owned (l.foldl AmlHw.drainOne t) from
    all s.cmds s inv rfl (fun _ _ => rfl) rfl (List.Subset.refl _)
  intro l
  induction l with
  | nil => exact fun t invT _ _ _ _ => invT
  | cons c rest ih =>
    intro t invT cmds flags task sub
    have one : Owned (t.drainOne c) := by
      refine invT.drainOne (by simp [cmds]) ?_
      rw [flags c (by simp), task]
      exact free c (sub (by simp))
    refine ih (t.drainOne c) one (by simp [drainOne_eq, cmds]) (fun d inside => ?_)
      (by simp [drainOne_eq, task]) fun d inside => sub (List.mem_cons_of_mem _ inside)
    rw [← flags d (List.mem_cons_of_mem _ inside), drainOne_eq]
    by_cases same : d = c <;> cases (t.heap c).flags.nonblock <;> simp [same]

theorem Owned.timeOut (here : s.pc c = .expired ∨ s.pc c = .killed)
    (free : (s.flags c).done = true ∨ (s.flags c).waitPush = false) : Owned (s.timeOut c) := by
  have waiter : s.pc c = .wait ∨ s.pc c = .expired ∨ s.pc c = .killed := .inr here
  have pc : (s.life c).pc = .wait ∨ (s.life c).pc = .expired ∨ (s.life c).pc = .killed := waiter
  have nonblock := (inv.each c).nonblock
  have blocking : (s.life c).nonblock = false := by grind
  have owned : (s.life c).cmdOwned := by grind
  have used := inv.use owned
  cases done : (s.flags c).done with
  | true =>
    rw [timeOut_done done]
    have crashed : Owned (s.crashedBy c) :=
      ⟨fun d => life_use s c d ▸ used.each d, inv.nodup, inv.task, inv.sem, used.clean⟩
    refine crashed.goto ?_
    have ok := (inv.each c).leaves waiter (inv.unlinked waiter (.inr done))
    simpa [AmlHw.life, crashedBy] using ok
  | false =>
    rw [timeOut_undone done]
    have pushed := free.resolve_left (by simp [done])
    have life : ∀ d, (s.timedOut c).life d = s.life d := by
      intro d
      by_cases same : d = c <;> simp [AmlHw.life, timedOut, crashedBy, same]
    have crashed : Owned (s.timedOut c) :=
      ⟨fun d => life d ▸ inv.each d, inv.nodup, inv.task, inv.sem, used.clean⟩
    have unmarked : ¬ (s.life c).marked := fun marked => by
      have waits : (s.heap c).flags.waitPush = true := marked.2
      simp [waits] at pushed
    have left : Owned ((s.timedOut c).cmdComplete c) := by
      refine crashed.complete (life c ▸ owned) (life c ▸ unmarked) ?_ fun nonblock' => ?_
      · exact fun picked => unmarked ((inv.each c).picked picked)
      · have both : (s.life c).nonblock = true := by
          simpa [AmlHw.life, timedOut, crashedBy] using nonblock'
        simp [both] at blocking
    refine left.goto ((left.each c).leaves ?_ ?_)
    · rw [cmdComplete_eq]
      exact waiter
    · rw [cmdComplete_eq]
      exact inv.nodup.not_mem_erase

/-! ### `aml_msg_task` -/

theorem Owned.taskWake (here : s.task = .idle) (up : 0 < s.amlMsgSem)
    (first : s.firstWaitPush = some c) : Owned s.taskWake := by
  have found := List.find?_some first
  have linked : c ∈ s.cmds := List.mem_of_find?_eq_some first
  have other : s.busType ≠ .pcie := fun pcie => absurd (inv.sem pcie) (by omega)
  have walked := inv.walk (walked_subset s.cmds s.firstWaitPush)
  unfold AmlHw.taskWake
  refine walked.next c ?_ (fun d ne => .inl ?_) inv.nodup (by simp [first])
    (fun pcie => absurd pcie other) walked.clean
  · have ok := (inv.each c).pick ⟨linked, found⟩ other
    simpa [AmlHw.life, first, MsgTask.held] using ok
  · have ne' : c ≠ d := fun eq => ne eq.symm
    simp [AmlHw.life, first, MsgTask.held, here, ne']

theorem Owned.taskClear (here : s.task = .picked (some c)) : Owned (s.taskClear (some c)) := by
  have held : (s.life c).held = .picked := by simp [AmlHw.life, here, MsgTask.held]
  have used := inv.use ((inv.each c).held (by simp [held])).1
  unfold AmlHw.taskClear
  refine used.next c ?_ (fun d ne => .inl ?_) inv.nodup (by simp) inv.sem used.clean
  · simpa [AmlHw.life, MsgTask.held] using (inv.each c).clear held
  · have ne' : c ≠ d := fun eq => ne eq.symm
    simp [AmlHw.life, MsgTask.held, here, ne, ne']

theorem Owned.taskPush (here : s.task = .cleared c) : Owned (s.taskPush c) := by
  have held : (s.life c).held = .cleared := by simp [AmlHw.life, here, MsgTask.held]
  have cmd := ((inv.each c).held (by simp [held])).1
  have msg : (s.life c).msgOwned := .inr (.inr (.inr (by simp [held])))
  have clean := inv.clean.cons (inv.allowed_push cmd msg .msgTask s.msga2eHostid.isSome)
  simp only [AmlHw.taskPush, ipcHostMsgPush_eq]
  refine inv.next c ?_ (fun d ne => ?_) inv.nodup (by simp) inv.sem clean
  · have ok := (inv.each c).taskPushes held (if s.busType = .pcie ∧ s.gPciShutdown = true
      then s.msga2eHostid = some c else True)
    split <;> simp_all [AmlHw.life, MsgTask.held]
  · have ne' : c ≠ d := fun eq => ne eq.symm
    by_cases off : s.busType = .pcie ∧ s.gPciShutdown = true
    · exact .inl (by simp [AmlHw.life, off, MsgTask.held, here, ne'])
    · exact .inr (by simp [AmlHw.life, off, MsgTask.held, here, ne'])

theorem Owned.taskFree (here : s.task = .pushed c) : Owned (s.taskFree c) := by
  have held : (s.life c).held = .pushed := by simp [AmlHw.life, here, MsgTask.held]
  have used := inv.use ((inv.each c).held (by simp [held])).1
  have msg : ((s.emit (.use c)).life c).msgOwned := by
    rw [life_use]
    exact .inr (.inr (.inr (by simp [held])))
  unfold AmlHw.taskFree
  refine used.next c ?_ (fun d ne => .inl ?_) inv.nodup (by simp) inv.sem (used.clean.cons (used.allowed_freeMsg msg))
  · simpa [AmlHw.life, MsgTask.held] using (inv.each c).taskFrees held
  · have ne' : c ≠ d := fun eq => ne eq.symm
    simp [AmlHw.life, MsgTask.held, here, ne, ne']

end

/-! ### `aml_send_msg` -/

/-- A message left to `aml_msg_task` is sent by a non-blocking command. -/
theorem nonblock_of_callThread (req : SendReq) (thread : amlMsgSendMtheod req.msg.id = true) :
    req.nonblock = true := by
  simp only [amlMsgSendMtheod, decide_eq_true_eq] at thread
  rcases thread with same | same <;> simp [SendReq.nonblock, isNonBlockingMsg, same]

theorem Owned.linkNew (inv : Owned s) (req : SendReq) : Owned (s.linkNew req) := by
  have unborn := (inv.each s.newCmd).unborn (Nat.lt_irrefl _)
  have fresh : s.newCmd ∉ s.cmds := unborn.1
  have allowed : Allowed s.log (.link s.newCmd) := by
    refine allowed_of_life (fun d touched => ?_) (by simp [Event.touchesMsg])
    obtain rfl : s.newCmd = d := by simpa [Event.touches] using touched
    exact fun freed => absurd ((inv.each s.newCmd).cmd.mp freed).1 (Nat.lt_irrefl _)
  unfold AmlHw.linkNew
  refine inv.next s.newCmd ?_ (fun d ne => .inl ?_)
    (inv.nodup.append (List.nodup_singleton _) (by simpa using fresh)) inv.task inv.sem
    (inv.clean.cons allowed)
  · have ok := (inv.each s.newCmd).links (Nat.lt_irrefl _) s.deferPush
      (if s.deferPush then (if req.nonblock then .leave 0 else .wait) else .direct)
      (nonblock_of_callThread req) (by cases s.deferPush <;> cases req.nonblock <;> simp)
    simpa [AmlHw.life, newLinked, SendReq.toCmd] using ok
  · have ne' : d < s.newCmd + 1 ↔ d < s.newCmd :=
      ⟨fun lt => Nat.lt_of_le_of_ne (Nat.le_of_lt_succ lt) ne, fun lt => Nat.lt_succ_of_lt lt⟩
    simp [AmlHw.life, ne, ne']

end Step

/-! ### Runs that lose no owner -/

def AmlHw.pusherDone (s : AmlHw) (c : CmdId) : Bool :=
  decide (s.pc c ≠ .direct ∧ s.pc c ≠ .freeMsg ∧ s.task.held c = .no)

/-- No call is refused; a waiter times out only after its command was handed to its pusher; a command
is freed only after its pusher freed its message, and not before the firmware's acknowledgement; a
drain finds only pushed blocking commands and unpushed non-blocking ones; and `aml_msg_task` wakes
only when there is a command to push. -/
def keepsOwner (s : AmlHw) : Act → Bool
  | .sendMsg req env => (s.sendBypass req env).isSome ||
      decide (s.state ≠ .crashed ∧ (s.cmds = [] ∨ s.queueSz ≠ s.maxQueueSz))
  | .timeOut c => (s.flags c).done || !(s.flags c).waitPush
  | .finish c => (s.flags c).nonblock || decide (s.task.held c = .no)
  | .llind => match s.irq with
    | some c => if (s.flags c).nonblock then (s.flags c).waitCfm || s.pusherDone c
      else !(s.life c).returned
    | none => true
  | .msgind msg accept => match if accept then s.awaiting msg.id else none with
    | some c => !(s.flags c).nonblock || (s.flags c).waitAck || s.pusherDone c
    | none => true
  | .drain => s.cmds.all fun c =>
      if (s.flags c).nonblock then (s.flags c).waitPush && decide (s.task.held c = .no)
      else !(s.flags c).waitPush
  | .taskWake => s.firstWaitPush.isSome
  | _ => true

abbrev KeepsOwner : AmlHw → Act → Prop := fun s a => keepsOwner s a = true

theorem owned_step {s s' : AmlHw} {a : Act} (inv : Owned s) (ok : keepsOwner s a = true)
    (stepped : s.step a = some s') : Owned s' := by
  obtain ⟨-, step⟩ := step_cases stepped
  cases step with
  | sendMsg req env =>
    have fresh : s.newCmd ∉ s.cmds := ((inv.each s.newCmd).unborn (Nat.lt_irrefl _)).1
    cases bypass : s.sendBypass req env with
    | some ret =>
      have same : s.amlSendMsg req env = s.emit (.bypass ret) := by simp [amlSendMsg, bypass]
      rw [same]
      exact inv.emit (fun c => by simp [Event.touches, Event.touchesMsg]) (by simp)
    | none =>
      obtain ⟨alive, room⟩ : s.state ≠ .crashed ∧ (s.cmds = [] ∨ s.queueSz ≠ s.maxQueueSz) := by
        simpa [keepsOwner, bypass] using ok
      rcases amlSendMsg_cases fresh req env with
        ⟨ret, same⟩ | ⟨crashed, -⟩ | ⟨full, size, -⟩ | ⟨-, -, same⟩
      · rw [same]
        exact inv.emit (fun c => by simp [Event.touches, Event.touchesMsg]) (by simp)
      · exact absurd crashed alive
      · exact room.elim (fun empty => absurd empty full) fun ne => absurd size ne
      · exact same ▸ inv.linkNew req
  | pushNow c here => exact inv.pushNow here
  | signal c here => exact inv.signal here
  | freeMsg c here => exact inv.freeMsg here
  | wake c here done =>
    exact inv.waits (.inl here) ((inv.each c).leaves (.inl here) (inv.unlinked (.inl here) (.inl done)))
  | expire c here undone => exact inv.waits (.inl here) ((inv.each c).givesUp here (.inl rfl))
  | kill c here undone => exact inv.waits (.inl here) ((inv.each c).givesUp here (.inr rfl))
  | poll c here => exact inv.poll here
  | timeOut c here => exact inv.timeOut here (by simpa [keepsOwner] using ok)
  | finish c ret here => exact inv.finish here (by simpa [keepsOwner] using ok)
  | msgack free =>
    unfold msgackHandler
    split
    · exact inv
    · rename_i c sent
      have acked : Owned (s.emit (.ack c)) :=
        inv.emit (fun c => by simp [Event.touches, Event.touchesMsg]) (by simp)
      refine acked.next c ?_ (fun d ne => .inl ?_) inv.nodup inv.task inv.sem acked.clean
      · simpa [AmlHw.life] using (inv.each c).acknowledged sent
      · have ne' : c ≠ d := fun eq => ne eq.symm
        simp [AmlHw.life, sent, free, ne']
  | llind c here =>
    refine inv.llind here (fun nonblock => ?_) fun blocking => ?_
    · simpa [keepsOwner, here, show (s.heap c).flags.nonblock = true from nonblock,
        AmlHw.pusherDone, Life.pusherDone, AmlHw.life] using ok
    · simpa [keepsOwner, here, show (s.heap c).flags.nonblock = false from blocking] using ok
  | msgind msg accept =>
    refine inv.msgind msg accept fun c found nonblock => ?_
    simpa [keepsOwner, found, show (s.heap c).flags.nonblock = true from nonblock,
      AmlHw.pusherDone, Life.pusherDone, AmlHw.life] using ok
  | drain =>
    refine inv.drain fun c linked => ?_
    have free := List.all_eq_true.mp ok c linked
    cases nonblock : (s.heap c).flags.nonblock <;> simpa [nonblock] using free
  | taskWake here up =>
    obtain ⟨c, first⟩ := Option.isSome_iff_exists.mp ok
    exact inv.taskWake here up first
  | taskClear cursor here =>
    cases cursor with
    | none => exact absurd here inv.task
    | some c => exact inv.taskClear here
  | taskPush c here => exact inv.taskPush here
  | taskFree c here => exact inv.taskFree here
  | crash => exact ⟨inv.each, inv.nodup, inv.task, inv.sem, inv.clean⟩
  | pciShutdown => exact ⟨inv.each, inv.nodup, inv.task, inv.sem, inv.clean⟩
  | devStop => exact ⟨inv.each, inv.nodup, inv.task, inv.sem, inv.clean⟩

/-- The call has returned, and neither the list nor `aml_msg_task` holds its command. -/
def Over (s : AmlHw) (c : CmdId) : Prop :=
  (s.life c).returned = true ∧ c ∉ s.cmds ∧ s.task.held c = .no

/-- Nothing is touched after it was freed, and a call that is over has freed its command and its
message, each once. -/
structure MemorySound (s : AmlHw) : Prop where
  clean : Clean s.log
  cmdOnce : ∀ c, s.log.count (.freeCmd c) ≤ 1
  msgOnce : ∀ c, s.log.count (.freeMsg c) ≤ 1
  freed : ∀ c, Over s c → s.log.count (.freeCmd c) = 1 ∧ s.log.count (.freeMsg c) = 1

theorem Life.Ok.freed_of_over {v : Life} (ok : v.Ok) (returned : v.returned = true)
    (unlinked : ¬ v.linked) (alone : v.held = .no) : v.cmdFreed ∧ v.msgFreed := by
  have born : v.born := by
    by_contra unborn
    have pc := (ok.unborn unborn).2.1
    simp [Life.returned, pc] at returned
  rw [ok.cmd, ok.msg]
  refine ⟨⟨born, ?_⟩, born, ?_⟩
  · grind
  · grind

/-- **In every such run everything is freed exactly once, and never touched afterwards.** -/
theorem memorySound_of_keepsOwner {bus : BusType} {s : AmlHw}
    (reach : (cmdSystem bus).Reachable KeepsOwner s) : MemorySound s := by
  have inv : Owned s :=
    reach.invariant (owned_init bus) fun _ _ _ _ before ok stepped => owned_step before ok stepped
  refine ⟨inv.clean, inv.clean.freeCmd_once, inv.clean.freeMsg_once, fun c ended => ?_⟩
  obtain ⟨cmd, msg⟩ := (inv.each c).freed_of_over ended.1 ended.2.1 ended.2.2
  have cmdSome := List.count_pos_iff.mpr (show Event.freeCmd c ∈ s.log from cmd)
  have msgSome := List.count_pos_iff.mpr (show Event.freeMsg c ∈ s.log from msg)
  have cmdOnce := inv.clean.freeCmd_once c
  have msgOnce := inv.clean.freeMsg_once c
  omega

def trafficReq : SendReq where
  msg := { id := meTrafficIndReq }
  reqid := meTrafficIndCfm

/-- A blocking command and a non-blocking one behind it, both over. -/
theorem memorySound_two : ∃ s, (cmdSystem .sdio).Reachable KeepsOwner s ∧ Over s 0 ∧ Over s 1 ∧ MemorySound s :=
  have reach := System.reachable_of_run (cmdSystem .sdio) KeepsOwner
    [.sendMsg startReq {}, .pushNow 0, .freeMsg 0, .msgack, .llind, .msgind startCfm true, .wake 0,
      .finish 0, .sendMsg trafficReq {}, .pushNow 1, .signal 1, .finish 1, .taskWake, .taskClear,
      .taskPush, .taskFree, .msgack, .llind] (by decide)
  ⟨_, reach, ⟨by decide, by decide, by decide⟩, ⟨by decide, by decide, by decide⟩, memorySound_of_keepsOwner reach⟩

/-- **A refused call**: `aml_send_msg` frees the command it made, and nobody frees the message. -/
theorem refused_message_leaks : ¬ ∀ s, (cmdSystem .sdio).Reachable Anything s → MemorySound s := by
  intro sound
  have reach := System.reachable_of_run (cmdSystem .sdio) Anything
    [.crash, .sendMsg startReq {}, .finish 0] (by decide)
  have freed := (sound _ reach).freed 0 ⟨by decide, by decide, by decide⟩
  exact absurd freed.2 (by decide)

end W2l.Cmd
