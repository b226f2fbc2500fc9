/-
**SDIO and USB: one token passes between the callers, `aml_msg_task`, the firmware and the
acknowledgement interrupt.**

On these buses the next command is pushed by another thread, woken by a semaphore. The invariant says
who may push next: the token is a command and a place, and everything that could push, wake or
acknowledge belongs to the token's place.

* `Place`, `Pipe` — the token and what the list, the mailbox, the semaphore and the threads look like
  while it is at a place.
* `Pipe.llind` — **the interrupt passes the token to the next command that waits for its push**.
-/

import W2lDriver.Cmd.Structure

namespace W2l.Cmd

open AmlHw
open List (append_assoc append_nil mem_append mem_cons nodup_append)
open AmlHw (flags linkNew)

/-! ### The token -/

/-- Where the command stands that is pushed next or not yet acknowledged. -/
inductive Place
  | direct    -- its caller is about to push it or to hand it to `aml_msg_task`
  | signal    -- its caller is about to `up` the semaphore
  | sem       -- the semaphore is up
  | picked    -- `aml_msg_task` has found it
  | cleared   -- `aml_msg_task` is about to push it
  | sent      -- at the firmware
  | acking    -- acknowledged, `cmd_mgr_llind` not yet run
  deriving DecidableEq, Repr

def Place.out : Place → Bool
  | .sent | .acking => true
  | _ => false

/-- The command carries `WAIT_PUSH`. -/
def Place.marked : Place → Bool
  | .signal | .sem | .picked => true
  | _ => false

abbrev Token := Option (CmdId × Place)

/-- The command of the token if the token is at `place`. -/
def Token.at (tok : Token) (place : Place) : Option CmdId :=
  tok.bind fun t => if t.2 = place then some t.1 else none

def Token.unsent (tok : Token) : List CmdId :=
  match tok with
  | some (x, place) => if place.out then [] else [x]
  | none => []

/-- `aml_msg_task` stands where the token says. -/
def TaskAt (task : MsgTask) (tok : Token) : Prop :=
  match task with
  | .idle | .pushed _ => Token.at tok .picked = none ∧ Token.at tok .cleared = none
  | .picked cursor => ∃ x, cursor = some x ∧ tok = some (x, .picked)
  | .cleared x => tok = some (x, .cleared)
  | .lost => False

/-- The commands of the list carry successive tokens from `tkn` up to `last`. -/
def Chain (heap : CmdId → AmlCmd) : BitVec 32 → List CmdId → BitVec 32 → Prop
  | tkn, [], last => tkn = last
  | tkn, c :: rest, last => (heap c).tkn = tkn ∧ Chain heap (tkn + 1) rest last

/-- What holds between two steps while the token is `tok`: `before` are acknowledged, `mine` is the
token's command if it is still linked, and `after` wait for their push. -/
structure Pipe (s : AmlHw) (tok : Token) (before mine after : List CmdId) : Prop where
  bus : s.busType ≠ .pcie
  hostid : s.msga2eHostid = tok.at .sent
  irq : s.irq = tok.at .acking
  sem : s.amlMsgSem = (tok.at .sem).toList.length
  task : TaskAt s.task tok
  direct : ∀ c, s.pc c = .direct ↔ tok = some (c, .direct)
  signal : ∀ c, s.pc c = .signal ↔ tok = some (c, .signal)
  cmds : s.cmds = before ++ mine ++ after
  nodup : s.cmds.Nodup
  acked : ∀ c ∈ before, (s.flags c).waitAck = false ∧ (s.flags c).waitPush = false
  waits : ∀ c ∈ after, (s.flags c).waitAck = true ∧ (s.flags c).waitPush = true
  idle : tok = none → mine = [] ∧ after = []
  token : ∀ x place, tok = some (x, place) →
    (mine = [x] ∧ (s.flags x).waitAck = true ∧ (s.flags x).waitPush = place.marked) ∨
      (mine = [] ∧ place.out = true ∧ s.state = .crashed ∧ x ∉ s.cmds)
  chain : ∀ x place, tok = some (x, place) → x < s.newCmd ∧ Chain s.heap ((s.heap x).tkn + 1) after s.nextTkn
  born : ∀ c, s.newCmd ≤ c → c ∉ s.cmds ∧ s.pc c = .unborn
  free : ∀ c path busy, Event.push c path busy ∈ s.log → busy = false ∧ (path = .queue ∨ path = .msgTask)
  order : links s.log = pushes s.log ++ tok.unsent ++ after
  unacked : pushes s.log = acks s.log ++ s.msga2eHostid.toList
  once : (links s.log).Nodup ∧ ∀ c ∈ links s.log, c < s.newCmd
  sane : Event.pushHead ∉ s.log

theorem pipe_init {bus : BusType} (other : bus ≠ .pcie) : Pipe (cmdSystem bus).init none [] [] [] where
  bus := other
  hostid := rfl
  irq := rfl
  sem := rfl
  task := ⟨rfl, rfl⟩
  direct := by simp [cmdSystem]
  signal := by simp [cmdSystem]
  cmds := rfl
  nodup := List.nodup_nil
  acked := by simp
  waits := by simp
  idle := by simp
  token := by simp
  chain := by simp
  born := by simp [cmdSystem]
  free := by simp [cmdSystem]
  order := rfl
  unacked := rfl
  once := by simp [cmdSystem]
  sane := by simp [cmdSystem]

section Chain

variable {heap heap' : CmdId → AmlCmd} {cmds : List CmdId} {tkn last : BitVec 32}

theorem Chain.congr (chain : Chain heap tkn cmds last)
    (same : ∀ c ∈ cmds, (heap' c).tkn = (heap c).tkn) : Chain heap' tkn cmds last := by
  induction cmds generalizing tkn with
  | nil => exact chain
  | cons c rest ih =>
    exact ⟨(same c (by simp)).trans chain.1, ih chain.2 fun d later => same d (List.mem_cons_of_mem _ later)⟩

theorem Chain.snoc (chain : Chain heap tkn cmds last) {c : CmdId} (new : (heap c).tkn = last) :
    Chain heap tkn (cmds ++ [c]) (last + 1) := by
  induction cmds generalizing tkn with
  | nil =>
    obtain rfl : tkn = last := chain
    exact ⟨new, rfl⟩
  | cons d rest ih => exact ⟨chain.1, ih chain.2⟩

end Chain

variable {tok : Token}

/-- Steps that leave the token where it is. An acknowledged command may leave the list, or the
token's own once it was pushed. -/
theorem Pipe.shrink {s s' : AmlHw} {before mine after : List CmdId}
    (inv : Pipe s tok before mine after) {before' mine' : List CmdId}
    (cmds : s'.cmds = before' ++ mine' ++ after) (sub : s'.cmds.Sublist s.cmds)
    (old : before' ⊆ before)
    (own : mine' = mine ∨ mine' = [] ∧ s'.state = .crashed ∧ ∃ x p, tok = some (x, p) ∧ p.out = true ∧ x ∉ s'.cmds)
    (bus : s'.busType = s.busType) (hostid : s'.msga2eHostid = s.msga2eHostid)
    (irq : s'.irq = s.irq) (sem : s'.amlMsgSem = s.amlMsgSem) (task : TaskAt s'.task tok)
    (newCmd : s'.newCmd = s.newCmd) (nextTkn : s'.nextTkn = s.nextTkn)
    (state : s.state = .crashed → s'.state = .crashed)
    (pc : ∀ c, s'.pc c = s.pc c ∨ ((s.pc c ≠ .direct ∧ s.pc c ≠ .signal ∧ s.pc c ≠ .unborn) ∧
      s'.pc c ≠ .direct ∧ s'.pc c ≠ .signal))
    (tkn : ∀ d, (s'.heap d).tkn = (s.heap d).tkn)
    (flags : ∀ d ∈ s'.cmds, (s'.flags d).waitAck = (s.flags d).waitAck ∧ (s'.flags d).waitPush = (s.flags d).waitPush)
    (log : ∃ es, s'.log = es ++ s.log ∧ ∀ e ∈ es, e.quiet = true) :
    Pipe s' tok before' mine' after := by
  obtain ⟨es, log, quiet⟩ := log
  obtain ⟨links, pushes, acks⟩ := quiet_append s.log quiet
  constructor
  case bus => exact bus ▸ inv.bus
  case hostid => exact hostid.trans inv.hostid
  case irq => exact irq.trans inv.irq
  case sem => exact sem.trans inv.sem
  case task => exact task
  case direct =>
    intro c
    rw [← inv.direct c]
    rcases pc c with same | ⟨⟨old, -⟩, new, -⟩
    · rw [same]
    · simp [old, new]
  case signal =>
    intro c
    rw [← inv.signal c]
    rcases pc c with same | ⟨⟨-, old, -⟩, -, new⟩
    · rw [same]
    · simp [old, new]
  case cmds => exact cmds
  case nodup => exact inv.nodup.sublist sub
  case acked =>
    intro c member
    have same := flags c (by simp [cmds, member])
    rw [same.1, same.2]
    exact inv.acked c (old member)
  case waits =>
    intro c member
    have same := flags c (by simp [cmds, member])
    rw [same.1, same.2]
    exact inv.waits c member
  case idle =>
    intro none
    rcases own with rfl | ⟨-, -, x, p, token, -⟩
    · exact inv.idle none
    · simp [none] at token
  case token =>
    intro x place here
    rcases own with rfl | ⟨gone, crashed, y, p, token, out, absent⟩
    · rcases inv.token x place here with ⟨linked, ack, push⟩ | ⟨gone, out, crashed, absent⟩
      · have same := flags x (by simp [cmds, linked])
        rw [same.1, same.2]
        exact .inl ⟨linked, ack, push⟩
      · exact .inr ⟨gone, out, state crashed, fun inside => absent (sub.subset inside)⟩
    · obtain ⟨rfl, rfl⟩ : y = x ∧ p = place := by simpa [here, eq_comm] using token
      exact .inr ⟨gone, out, crashed, absent⟩
  case chain =>
    intro x place here
    obtain ⟨old, chain⟩ := inv.chain x place here
    rw [newCmd, nextTkn, tkn x]
    exact ⟨old, chain.congr fun c _ => tkn c⟩
  case born =>
    intro c old
    have before := inv.born c (newCmd ▸ old)
    refine ⟨fun inside => before.1 (sub.subset inside), ?_⟩
    rcases pc c with same | ⟨⟨-, -, born⟩, -⟩
    · exact same.trans before.2
    · exact absurd before.2 born
  case free =>
    intro c path busy now
    rw [log, mem_append] at now
    rcases now with new | old
    · simpa [Event.quiet] using quiet _ new
    · exact inv.free c path busy old
  case order => rw [log, links, pushes, inv.order]
  case unacked => rw [log, pushes, acks, hostid, inv.unacked]
  case once =>
    rw [log, links, newCmd]
    exact inv.once
  case sane =>
    rw [log, mem_append]
    rintro (new | old)
    · simpa [Event.quiet] using quiet _ new
    · exact inv.sane old

theorem Pipe.still {s s' : AmlHw} {before mine after : List CmdId}
    (inv : Pipe s tok before mine after) (bus : s'.busType = s.busType)
    (hostid : s'.msga2eHostid = s.msga2eHostid) (irq : s'.irq = s.irq)
    (sem : s'.amlMsgSem = s.amlMsgSem) (task : TaskAt s'.task tok) (cmds : s'.cmds = s.cmds)
    (newCmd : s'.newCmd = s.newCmd) (nextTkn : s'.nextTkn = s.nextTkn)
    (state : s.state = .crashed → s'.state = .crashed)
    (pc : ∀ c, s'.pc c = s.pc c ∨ ((s.pc c ≠ .direct ∧ s.pc c ≠ .signal ∧ s.pc c ≠ .unborn) ∧
      s'.pc c ≠ .direct ∧ s'.pc c ≠ .signal))
    (heap : ∀ c, (s'.flags c).waitAck = (s.flags c).waitAck ∧
      (s'.flags c).waitPush = (s.flags c).waitPush ∧ (s'.heap c).tkn = (s.heap c).tkn)
    (log : ∃ es, s'.log = es ++ s.log ∧ ∀ e ∈ es, e.quiet = true) :
    Pipe s' tok before mine after :=
  inv.shrink (cmds.trans inv.cmds) (cmds ▸ List.Sublist.refl _) (List.Subset.refl _) (.inl rfl) bus
    hostid irq sem task newCmd nextTkn state pc (fun d => (heap d).2.2)
    (fun d _ => ⟨(heap d).1, (heap d).2.1⟩) log

/-! ### The token moves -/

theorem Pipe.move {s s' : AmlHw} {x : CmdId} {p : Place} {before mine after : List CmdId}
    (inv : Pipe s (some (x, p)) before mine after) (q : Place)
    (bus : s'.busType = s.busType) (cmds : s'.cmds = s.cmds) (newCmd : s'.newCmd = s.newCmd)
    (nextTkn : s'.nextTkn = s.nextTkn) (state : s'.state = s.state)
    (hostid : s'.msga2eHostid = Token.at (some (x, q)) .sent)
    (irq : s'.irq = Token.at (some (x, q)) .acking)
    (sem : s'.amlMsgSem = (Token.at (some (x, q)) .sem).toList.length)
    (task : TaskAt s'.task (some (x, q)))
    (direct : ∀ c, s'.pc c = .direct ↔ q = .direct ∧ x = c)
    (signal : ∀ c, s'.pc c = .signal ↔ q = .signal ∧ x = c)
    (born : ∀ c, s.newCmd ≤ c → s'.pc c = s.pc c)
    (heap : ∀ c, (s'.flags c).waitAck = (s.flags c).waitAck ∧ (s'.heap c).tkn = (s.heap c).tkn ∧
      (c ≠ x ∨ p.out = true → (s'.flags c).waitPush = (s.flags c).waitPush))
    (mark : (s.flags x).waitPush = p.marked → (s'.flags x).waitPush = q.marked)
    (onward : p.out = true → q.out = true) (linked : links s'.log = links s.log)
    (sent : pushes s'.log ++ Token.unsent (some (x, q)) = pushes s.log ++ Token.unsent (some (x, p)))
    (unacked : pushes s'.log = acks s'.log ++ s'.msga2eHostid.toList)
    (free : ∀ c path busy, Event.push c path busy ∈ s'.log → busy = false ∧ (path = .queue ∨ path = .msgTask))
    (sane : Event.pushHead ∉ s'.log) : Pipe s' (some (x, q)) before mine after := by
  have apart : ∀ c, c ∈ before ∨ c ∈ after → c ≠ x ∨ p.out = true := by
    intro c member
    rcases inv.token x p rfl with ⟨here, -⟩ | ⟨-, out, -⟩
    · have split : (before ++ [x] ++ after).Nodup := here ▸ inv.cmds ▸ inv.nodup
      simp only [nodup_append, mem_append, List.mem_singleton] at split
      refine .inl ?_
      rintro rfl
      rcases member with inside | inside
      · exact split.1.2.2 c inside c rfl rfl
      · exact split.2.2 c (.inr rfl) c inside rfl
    · exact .inr out
  constructor
  case bus => exact bus ▸ inv.bus
  case hostid => exact hostid
  case irq => exact irq
  case sem => exact sem
  case task => exact task
  case direct =>
    intro c
    rw [direct c, Option.some.injEq, Prod.mk.injEq, and_comm]
  case signal =>
    intro c
    rw [signal c, Option.some.injEq, Prod.mk.injEq, and_comm]
  case cmds => exact cmds.trans inv.cmds
  case nodup => exact cmds ▸ inv.nodup
  case acked =>
    intro c member
    rw [(heap c).1, (heap c).2.2 (apart c (.inl member))]
    exact inv.acked c member
  case waits =>
    intro c member
    rw [(heap c).1, (heap c).2.2 (apart c (.inr member))]
    exact inv.waits c member
  case idle => simp
  case token =>
    intro y place here
    obtain ⟨rfl, rfl⟩ : x = y ∧ q = place := by simpa using here
    rw [(heap x).1]
    rcases inv.token x p rfl with ⟨here, ack, push⟩ | ⟨gone, out, crashed, absent⟩
    · exact .inl ⟨here, ack, mark push⟩
    · exact .inr ⟨gone, onward out, state.trans crashed, cmds ▸ absent⟩
  case chain =>
    intro y place here
    obtain ⟨rfl, rfl⟩ : x = y ∧ q = place := by simpa using here
    obtain ⟨old, chain⟩ := inv.chain x p rfl
    rw [newCmd, nextTkn, (heap x).2.1]
    exact ⟨old, chain.congr fun c _ => (heap c).2.1⟩
  case born =>
    intro c old
    rw [newCmd] at old
    have unborn := inv.born c old
    exact ⟨cmds ▸ unborn.1, (born c old).trans unborn.2⟩
  case free => exact free
  case order => rw [linked, sent, inv.order]
  case unacked => exact unacked
  case once =>
    rw [linked, newCmd]
    exact inv.once
  case sane => exact sane

theorem Pipe.tokenAt {s : AmlHw} {x : CmdId} {p : Place} {before mine after : List CmdId}
    (inv : Pipe s (some (x, p)) before mine after) :
    s.msga2eHostid = (if p = .sent then some x else none) ∧ s.irq = (if p = .acking then some x else none) ∧
      s.amlMsgSem = (if p = .sem then 1 else 0) := by
  refine ⟨inv.hostid, inv.irq, ?_⟩
  rw [inv.sem, Token.at]
  by_cases here : p = .sem <;> simp [here]

section Moves

variable {s : AmlHw} {c : CmdId} {before mine after : List CmdId}

theorem Pipe.callerGoes {p : Place} (inv : Pipe s (some (c, p)) before mine after) (pc : CallerPc)
    (d : CmdId) (here : s.pc c = .direct ∨ s.pc c = .signal) :
    (Function.update s.pc c pc d = .direct ↔ pc = .direct ∧ c = d) ∧
      (Function.update s.pc c pc d = .signal ↔ pc = .signal ∧ c = d) ∧
      (s.newCmd ≤ d → Function.update s.pc c pc d = s.pc d) := by
  have direct := inv.direct d
  have signal := inv.signal d
  by_cases same : d = c
  · subst same
    refine ⟨by simp, by simp, fun old => ?_⟩
    have unborn := (inv.born d old).2
    rcases here with here | here <;> simp [here] at unborn
  · have ne : c ≠ d := fun eq => same eq.symm
    simp_all

/-- `aml_msg_task` is elsewhere while the token is not with it. -/
theorem Pipe.task_elsewhere {p q : Place} (inv : Pipe s (some (c, p)) before mine after)
    (was : p ≠ .picked ∧ p ≠ .cleared) (goes : q ≠ .picked ∧ q ≠ .cleared) :
    TaskAt s.task (some (c, q)) := by
  have here := inv.task
  cases at' : s.task <;> simp_all [TaskAt, Token.at]

theorem Pipe.pushNow (inv : Pipe s (some (c, .direct)) before mine after) :
    ∃ q, (q = .sent ∨ q = .signal) ∧ Pipe (s.pushNow c) (some (c, q)) before mine after := by
  have here : s.pc c = .direct := (inv.direct c).mpr rfl
  obtain ⟨hostid, irq, sem⟩ := inv.tokenAt
  have goes := fun pc d => inv.callerGoes pc d (.inl here)
  have bus := inv.bus
  unfold AmlHw.pushNow
  split
  · -- a `CALL_THREAD` command: `aml_msg_task` will push it
    refine ⟨.signal, .inr rfl, inv.move .signal rfl rfl rfl rfl rfl hostid irq sem
      (inv.task_elsewhere (by simp) (by simp)) (fun d => by simpa using (goes .signal d).1)
      (fun d => by simpa using (goes .signal d).2.1) (fun d => (goes .signal d).2.2)
      (fun d => ?_) (fun _ => by simp [Place.marked]) (by simp [Place.out]) (by simp [Event.linked])
      (by simp [Event.pushed, Token.unsent, Place.out]) ?_ (by simpa using inv.free)
      (by simpa using inv.sane)⟩
    · by_cases same : d = c <;> simp [same, Place.out]
    · simpa [Event.pushed, Event.acked] using inv.unacked
  · refine ⟨.sent, .inl rfl, ?_⟩
    rw [ipcHostMsgPush_eq]
    have unacked := inv.unacked
    simp only [hostid] at unacked
    refine inv.move .sent rfl rfl rfl rfl rfl (by simp [bus, Token.at]) irq sem
      (inv.task_elsewhere (by simp) (by simp)) (fun d => by simpa using (goes .freeMsg d).1)
      (fun d => by simpa using (goes .freeMsg d).2.1) (fun d => (goes .freeMsg d).2.2)
      (fun d => by simp) (by simp [Place.marked]) (by simp [Place.out])
      (by simp [Event.linked]) (by simp [Event.pushed, Token.unsent, Place.out]) ?_ ?_
      (by simpa using inv.sane)
    · simpa [Event.pushed, Event.acked, bus] using unacked
    · intro d path busy now
      rcases mem_cons.mp now with new | old
      · obtain ⟨-, rfl, rfl⟩ : d = c ∧ path = .queue ∧ busy = s.msga2eHostid.isSome := by
          simpa using new
        simp [hostid]
      · exact inv.free d path busy old

theorem Pipe.signalled (inv : Pipe s (some (c, .signal)) before mine after) :
    Pipe (s.signal c) (some (c, .sem)) before mine after := by
  have here : s.pc c = .signal := (inv.signal c).mpr rfl
  obtain ⟨hostid, irq, sem⟩ := inv.tokenAt
  have goes := fun pc d => inv.callerGoes pc d (.inr here)
  have leaves : s.afterPush c ≠ .direct ∧ s.afterPush c ≠ .signal := by
    unfold AmlHw.afterPush
    split <;> simp
  unfold AmlHw.signal
  exact inv.move .sem rfl rfl rfl rfl rfl hostid irq (by simpa [Token.at] using sem)
    (inv.task_elsewhere (by simp) (by simp))
    (fun d => (goes (s.afterPush c) d).1.trans (by simp [leaves.1]))
    (fun d => (goes (s.afterPush c) d).2.1.trans (by simp [leaves.2]))
    (fun d => (goes (s.afterPush c) d).2.2) (by simp)
    (by simp [Place.marked]) (by simp [Place.out]) rfl rfl inv.unacked inv.free inv.sane

theorem Pipe.callersStay {p q : Place} (inv : Pipe s (some (c, p)) before mine after)
    (was : p ≠ .direct ∧ p ≠ .signal) (goes : q ≠ .direct ∧ q ≠ .signal) (d : CmdId) :
    (s.pc d = .direct ↔ q = .direct ∧ c = d) ∧ (s.pc d = .signal ↔ q = .signal ∧ c = d) := by
  rw [inv.direct d, inv.signal d]
  simp [was, goes]

theorem Pipe.firstWaitPush {p : Place} (inv : Pipe s (some (c, p)) before mine after)
    (marked : p.marked = true) : s.firstWaitPush = some c := by
  obtain ⟨here, -, push⟩ : mine = [c] ∧ _ := by
    rcases inv.token c p rfl with linked | ⟨-, out, -⟩
    · exact linked
    · cases p <;> simp [Place.out, Place.marked] at out marked
  unfold AmlHw.firstWaitPush
  rw [inv.cmds, here, append_assoc, List.find?_append]
  have none : before.find? (fun d => (s.flags d).waitPush) = none :=
    List.find?_eq_none.mpr fun d member => by simp [(inv.acked d member).2]
  rw [none]
  simp [push, marked]

theorem Pipe.woken (inv : Pipe s (some (c, .sem)) before mine after) :
    Pipe s.taskWake (some (c, .picked)) before mine after := by
  obtain ⟨hostid, irq, sem⟩ := inv.tokenAt
  have goes := inv.callersStay (q := .picked) (by simp) (by simp)
  have first := inv.firstWaitPush rfl
  unfold AmlHw.taskWake
  exact inv.move .picked rfl rfl rfl rfl rfl hostid irq (by simp [sem, Token.at])
    ⟨c, first, rfl⟩ (fun d => (goes d).1) (fun d => (goes d).2) (fun _ _ => rfl) (by simp)
    (by simp [Place.marked]) (by simp [Place.out]) (by simp [Event.linked])
    (by simp [Event.pushed, Token.unsent, Place.out])
    (by simpa [Event.pushed, Event.acked] using inv.unacked) (by simpa using inv.free)
    (by simpa using inv.sane)

theorem Pipe.cleared (inv : Pipe s (some (c, .picked)) before mine after) :
    Pipe (s.taskClear (some c)) (some (c, .cleared)) before mine after := by
  obtain ⟨hostid, irq, sem⟩ := inv.tokenAt
  have goes := inv.callersStay (q := .cleared) (by simp) (by simp)
  unfold AmlHw.taskClear
  exact inv.move .cleared rfl rfl rfl rfl rfl hostid irq sem rfl (fun d => (goes d).1)
    (fun d => (goes d).2) (fun _ _ => rfl)
    (fun d => by by_cases same : d = c <;> simp [same, Place.out])
    (by simp [Place.marked]) (by simp [Place.out]) (by simp [Event.linked])
    (by simp [Event.pushed, Token.unsent, Place.out])
    (by simpa [Event.pushed, Event.acked] using inv.unacked) (by simpa using inv.free)
    (by simpa using inv.sane)

theorem Pipe.pushed (inv : Pipe s (some (c, .cleared)) before mine after) :
    Pipe (s.taskPush c) (some (c, .sent)) before mine after := by
  obtain ⟨hostid, irq, sem⟩ := inv.tokenAt
  have goes := inv.callersStay (q := .sent) (by simp) (by simp)
  have bus := inv.bus
  have unacked := inv.unacked
  simp only [hostid] at unacked
  unfold AmlHw.taskPush
  rw [ipcHostMsgPush_eq]
  refine inv.move .sent rfl rfl rfl rfl rfl (by simp [bus, Token.at]) irq sem
    (by simp [TaskAt, Token.at]) (fun d => (goes d).1) (fun d => (goes d).2) (fun _ _ => rfl)
    (by simp) (by simp [Place.marked]) (by simp [Place.out]) (by simp [Event.linked])
    (by simp [Event.pushed, Token.unsent, Place.out]) ?_ ?_ (by simpa using inv.sane)
  · simpa [Event.pushed, Event.acked, bus] using unacked
  · intro d path busy now
    rcases mem_cons.mp now with new | old
    · obtain ⟨-, rfl, rfl⟩ : d = c ∧ path = .msgTask ∧ busy = s.msga2eHostid.isSome := by
        simpa using new
      simp [hostid]
    · exact inv.free d path busy old

theorem Pipe.acknowledged (inv : Pipe s (some (c, .sent)) before mine after) :
    Pipe s.msgackHandler (some (c, .acking)) before mine after := by
  obtain ⟨hostid, irq, sem⟩ := inv.tokenAt
  have goes := inv.callersStay (q := .acking) (by simp) (by simp)
  have sent : s.msga2eHostid = some c := by simpa using hostid
  have unacked := inv.unacked
  unfold msgackHandler
  simp only [sent] at unacked ⊢
  exact inv.move .acking rfl rfl rfl rfl rfl rfl rfl sem
    (inv.task_elsewhere (by simp) (by simp)) (fun d => (goes d).1) (fun d => (goes d).2)
    (fun _ _ => rfl) (by simp) (by simp [Place.marked]) (by simp [Place.out])
    (by simp [Event.linked]) (by simp [Event.pushed, Token.unsent, Place.out])
    (by simpa [Event.pushed, Event.acked] using unacked) (by simpa using inv.free)
    (by simpa using inv.sane)

end Moves

/-! ### The token is passed on -/

section Scan

variable {heap : CmdId → AmlCmd} {cmds : List CmdId}

/-- The scan of `cmd_mgr_llind` passes over commands that do not wait for their push. -/
theorem llindScan_over (tkn : BitVec 32) (rest : List CmdId) (acked : Option CmdId)
    (pushed : ∀ c ∈ cmds, (heap c).flags.waitPush = false) :
    ∃ acked', llindScan heap tkn acked (cmds ++ rest) = llindScan heap tkn acked' rest ∧
      (acked.isSome = true ∨ (∃ c ∈ cmds, (heap c).tkn = tkn) → acked'.isSome = true) := by
  induction cmds generalizing acked with
  | nil => exact ⟨acked, rfl, by simp⟩
  | cons c cmds ih =>
    have later := fun acked => ih acked fun d member => pushed d (List.mem_cons_of_mem _ member)
    have notWaits := pushed c (by simp)
    by_cases found : acked = none ∧ (heap c).tkn = tkn
    · obtain ⟨acked', same, isSome⟩ := later (some c)
      exact ⟨acked', by simp [llindScan, found, same], fun _ => isSome (.inl rfl)⟩
    · obtain ⟨acked', same, isSome⟩ := later acked
      refine ⟨acked', by simp [llindScan, found, notWaits, same], fun known => isSome ?_⟩
      rcases known with already | ⟨d, member, carries⟩
      · exact .inl already
      · rcases mem_cons.mp member with rfl | member
        · cases acked with
          | none => exact absurd ⟨rfl, carries⟩ found
          | some a => exact .inl rfl
        · exact .inr ⟨d, member, carries⟩

theorem llindScan_stop {tkn : BitVec 32} (acked : Option CmdId)
    (waits : ∀ c ∈ cmds, (heap c).flags.waitPush = true)
    (other : ∀ c ∈ cmds.head?, (heap c).tkn ≠ tkn) :
    llindScan heap tkn acked cmds = (acked, cmds.head?) := by
  cases cmds with
  | nil => rfl
  | cons c rest =>
    have ne := other c rfl
    simp [llindScan, ne, waits c (by simp)]

end Scan

@[simp] def nextToken : List CmdId → Token
  | [] => none
  | d :: _ => some (d, .sem)

theorem Pipe.passOn {s s' : AmlHw} {x : CmdId} {before mine after : List CmdId}
    (inv : Pipe s (some (x, .acking)) before mine after) (before' : List CmdId)
    (bus : s'.busType = s.busType) (newCmd : s'.newCmd = s.newCmd)
    (nextTkn : s'.nextTkn = s.nextTkn) (task : s'.task = s.task) (pc : s'.pc = s.pc)
    (hostid : s'.msga2eHostid = none) (irq : s'.irq = none)
    (sem : s'.amlMsgSem = after.head?.toList.length) (cmds : s'.cmds = before' ++ after)
    (sub : s'.cmds.Sublist s.cmds) (tkn : ∀ c, (s'.heap c).tkn = (s.heap c).tkn)
    (acked : ∀ c ∈ before', (s'.flags c).waitAck = false ∧ (s'.flags c).waitPush = false)
    (waits : ∀ c ∈ after, s'.flags c = s.flags c)
    (log : ∃ es, s'.log = es ++ s.log ∧ ∀ e ∈ es, e.quiet = true) :
    Pipe s' (nextToken after) before' after.head?.toList after.tail := by
  obtain ⟨es, log, quiet⟩ := log
  obtain ⟨links, pushes, acks⟩ := quiet_append s.log quiet
  obtain ⟨noHost, -, -⟩ := inv.tokenAt
  have parts : after = after.head?.toList ++ after.tail := by cases after <;> rfl
  have noCaller := inv.callersStay (q := .sem) (by simp) (by simp)
  constructor
  case bus => exact bus ▸ inv.bus
  case hostid => cases after <;> simpa [Token.at] using hostid
  case irq => cases after <;> simpa [Token.at] using irq
  case sem => cases after <;> simpa [Token.at] using sem
  case task =>
    have here := inv.task
    rw [task]
    cases after <;> cases at' : s.task <;> rw [at'] at here <;> simp [TaskAt, Token.at] at here ⊢
  case direct =>
    intro c
    rw [pc, (noCaller c).1]
    cases after <;> simp
  case signal =>
    intro c
    rw [pc, (noCaller c).2]
    cases after <;> simp
  case cmds => rw [cmds, append_assoc, ← parts]
  case nodup => exact inv.nodup.sublist sub
  case acked => exact acked
  case waits =>
    intro c member
    have inside := List.mem_of_mem_tail member
    rw [waits c inside]
    exact inv.waits c inside
  case idle => cases after <;> simp
  case token =>
    intro y place here
    cases after with
    | nil => simp at here
    | cons d rest =>
      obtain ⟨rfl, rfl⟩ : d = y ∧ Place.sem = place := by simpa using here
      rw [waits d (by simp)]
      exact .inl ⟨rfl, inv.waits d (by simp)⟩
  case chain =>
    intro y place here
    cases after with
    | nil => simp at here
    | cons d rest =>
      obtain ⟨rfl, rfl⟩ : d = y ∧ Place.sem = place := by simpa using here
      have member : d ∈ s.cmds := by simp [inv.cmds]
      obtain ⟨-, carries, chain⟩ := inv.chain x .acking rfl
      have old : d < s.newCmd := Nat.lt_of_not_le fun young => (inv.born d young).1 member
      rw [newCmd, nextTkn, tkn d, carries]
      exact ⟨old, chain.congr fun c _ => tkn c⟩
  case born =>
    intro c old
    have unborn := inv.born c (newCmd ▸ old)
    exact ⟨fun inside => unborn.1 (sub.subset inside), pc ▸ unborn.2⟩
  case free =>
    intro c path busy now
    rw [log, mem_append] at now
    rcases now with new | old
    · simpa [Event.quiet] using quiet _ new
    · exact inv.free c path busy old
  case order =>
    have order := inv.order
    simp only [Token.unsent, Place.out, if_true, append_nil] at order
    rw [log, links, pushes, order, append_assoc]
    cases after <;> simp [Token.unsent, Place.out]
  case unacked =>
    rw [log, pushes, acks, hostid, inv.unacked, noHost]
    rfl
  case once =>
    rw [log, links, newCmd]
    exact inv.once
  case sane =>
    rw [log, mem_append]
    rintro (new | old)
    · simpa [Event.quiet] using quiet _ new
    · exact inv.sane old

theorem Pipe.llind {s : AmlHw} {x : CmdId} {before mine after : List CmdId}
    (inv : Pipe s (some (x, .acking)) before mine after) :
    ∃ before', Pipe (s.takeIrq.cmdMgrLlind x) (nextToken after) before' after.head?.toList
      after.tail := by
  obtain ⟨noHost, -, noSem⟩ := inv.tokenAt
  have bus := inv.bus
  have waits : ∀ c ∈ after, (s.heap c).flags.waitPush = true := fun c member => (inv.waits c member).2
  have other : ∀ c ∈ after.head?, (s.heap c).tkn ≠ (s.heap x).tkn := by
    intro c first
    obtain ⟨rest, same⟩ := List.head?_eq_some_iff.mp first
    have carries : (s.heap c).tkn = (s.heap x).tkn + 1 := by
      have chain := (inv.chain x .acking rfl).2
      rw [same] at chain
      exact chain.1
    rw [carries]
    bv_omega
  have quiet : ∀ nonblock linked : Bool, ∀ e ∈ (if nonblock then [Event.freeCmd x] else []) ++
      [.complete x linked, .walk (walked s.cmds after.head?), .use x], e.quiet = true := by
    intro nonblock linked
    cases nonblock <;> simp [Event.quiet]
  have cmds : s.cmds = (before ++ mine) ++ after := inv.cmds
  have split := cmds ▸ inv.nodup
  -- the command may have timed out and be removed; then no other one is its own
  obtain ⟨apart, only, push⟩ : x ∉ after ∧ (∀ c ∈ mine, c = x) ∧ ∀ c ∈ mine, (s.flags c).waitPush = false := by
    rcases inv.token x .acking rfl with ⟨rfl, -, push⟩ | ⟨rfl, -, -, absent⟩
    · exact ⟨fun inside => (nodup_append.mp split).2.2 x (by simp) x inside rfl, by simp,
        by simpa [Place.marked] using push⟩
    · exact ⟨fun inside => absent (by simp [cmds, inside]), by simp, by simp⟩
  have others : ∀ c ∈ before ++ mine, c ≠ x → (s.flags c).waitAck = false ∧ (s.flags c).waitPush = false := by
    intro c member ne
    exact inv.acked c ((mem_append.mp member).resolve_right fun own => ne (only c own))
  have pushed : ∀ c ∈ before ++ mine, (s.heap c).flags.waitPush = false := by
    intro c member
    rcases mem_append.mp member with old | own
    · exact (inv.acked c old).2
    · exact push c own
  have apart' : ∀ c ∈ after, c ≠ x := fun c member same => apart (same ▸ member)
  obtain ⟨acked, scan, found⟩ := llindScan_over (s.heap x).tkn after none pushed
  rw [llindScan_stop _ waits other, ← cmds] at scan
  cases acked with
  | none =>
    have absent : x ∉ before ++ mine := fun inside => by simpa using found (.inr ⟨x, inside, rfl⟩)
    refine ⟨before ++ mine, ?_⟩
    rw [cmdMgrLlind_lost (s := s.takeIrq) scan, handOver_up (s := s.takeIrq.llindSeen x after.head?) bus]
    exact inv.passOn _ rfl rfl rfl rfl rfl noHost rfl (by simp [llindSeen, takeIrq, noSem]) cmds
      (List.Sublist.refl _) (fun _ => rfl) (fun c member => others c member fun same => absent (same ▸ member))
      (fun _ _ => rfl) ⟨[.walk _, .use x], rfl, by simp [Event.quiet]⟩
  | some d =>
    cases cfm : (s.flags x).waitCfm with
    | true =>
      refine ⟨before ++ mine, ?_⟩
      rw [cmdMgrLlind_waits (s := s.takeIrq) scan cfm, handOver_up (s := s.takeIrq.llindAcked x after.head?) bus]
      refine inv.passOn _ rfl rfl rfl rfl rfl noHost rfl ?_ cmds (List.Sublist.refl _) ?_ ?_ ?_ ?_
      all_goals simp only [llindAcked, llindSeen, takeIrq, onFlags, onCmd]
      · simp [noSem]
      · intro c
        by_cases same : c = x <;> simp [same]
      · intro c member
        by_cases same : c = x
        · subst same
          simpa using pushed c member
        · simpa [same] using others c member same
      · intro c member
        simp [apart' c member]
      · exact ⟨[.walk _, .use x], rfl, by simp [Event.quiet]⟩
    | false =>
      refine ⟨(before ++ mine).erase x, ?_⟩
      have bus' : ((s.takeIrq.llindAcked x after.head?).cmdComplete x).busType ≠ .pcie := by
        simpa [cmdComplete_eq, llindAcked, llindSeen, takeIrq] using bus
      rw [cmdMgrLlind_done (s := s.takeIrq) scan cfm, handOver_up bus', cmdComplete_eq]
      have left : s.cmds.erase x = (before ++ mine).erase x ++ after := by
        rw [cmds, List.erase_append]
        split
        · rfl
        · case isFalse absent => rw [List.erase_of_not_mem apart, List.erase_of_not_mem absent]
      refine inv.passOn _ rfl rfl rfl rfl rfl noHost rfl ?_ left (List.erase_sublist) ?_ ?_ ?_ ?_
      all_goals simp only [llindAcked, llindSeen, takeIrq, onFlags, onCmd]
      · simp [noSem]
      · intro c
        by_cases same : c = x <;> simp [same, completed]
      · intro c member
        obtain ⟨ne, member⟩ := (nodup_append.mp split).1.mem_erase_iff.mp member
        simpa [ne] using others c member ne
      · intro c member
        simp [apart' c member]
      · exact ⟨_, (append_assoc _ [_, _, _] _).symm, by simpa using quiet (s.flags x).nonblock _⟩

/-! ### The other steps -/

theorem Pipe.refuseNew {s : AmlHw} {before mine after : List CmdId}
    (inv : Pipe s tok before mine after) (req : SendReq) (ret : Int) :
    Pipe (s.refuseNew req ret) tok before mine after := by
  have fresh := inv.born s.newCmd le_rfl
  have split := inv.cmds
  have distinct : ∀ d ∈ s.cmds, d ≠ s.newCmd := fun d inside same => fresh.1 (same ▸ inside)
  have heap : ∀ d, d ≠ s.newCmd → (s.refuseNew req ret).heap d = s.heap d := by
    intro d ne
    simp [AmlHw.refuseNew, ne]
  have mineOld : ∀ d ∈ mine, d ≠ s.newCmd := fun d member => distinct d (by simp [split, member])
  constructor
  case bus => exact inv.bus
  case hostid => exact inv.hostid
  case irq => exact inv.irq
  case sem => exact inv.sem
  case task => exact inv.task
  case direct =>
    intro c
    rw [← inv.direct c]
    by_cases same : c = s.newCmd <;> simp [AmlHw.refuseNew, same, fresh.2]
  case signal =>
    intro c
    rw [← inv.signal c]
    by_cases same : c = s.newCmd <;> simp [AmlHw.refuseNew, same, fresh.2]
  case cmds => exact inv.cmds
  case nodup => exact inv.nodup
  case acked =>
    intro c member
    rw [flags, heap c (distinct c (by simp [split, member]))]
    exact inv.acked c member
  case waits =>
    intro c member
    rw [flags, heap c (distinct c (by simp [split, member]))]
    exact inv.waits c member
  case idle => exact inv.idle
  case token =>
    intro x place here
    have ne : x ≠ s.newCmd := Nat.ne_of_lt (inv.chain x place here).1
    rw [flags, heap x ne]
    exact inv.token x place here
  case chain =>
    intro x place here
    obtain ⟨old, chain⟩ := inv.chain x place here
    rw [heap x (Nat.ne_of_lt old)]
    refine ⟨Nat.lt_succ_of_lt old, chain.congr fun c member => ?_⟩
    rw [heap c (distinct c (by simp [split, member]))]
  case born =>
    intro c old
    have ne : c ≠ s.newCmd := Nat.ne_of_gt old
    simpa [AmlHw.refuseNew, ne] using inv.born c (Nat.le_of_succ_le old)
  case free => simpa [AmlHw.refuseNew] using inv.free
  case order => simpa [AmlHw.refuseNew, Event.linked, Event.pushed] using inv.order
  case unacked => simpa [AmlHw.refuseNew, Event.acked, Event.pushed] using inv.unacked
  case once =>
    obtain ⟨nodup, old⟩ := inv.once
    simp only [AmlHw.refuseNew, links_cons, Event.linked, Option.toList_none, append_nil]
    exact ⟨nodup, fun c linked => Nat.lt_succ_of_lt (old c linked)⟩
  case sane => simpa [AmlHw.refuseNew] using inv.sane

/-- The last linked command is in the way exactly while there is a token whose command may still be
linked. -/
theorem Pipe.deferPush {s : AmlHw} {before mine after : List CmdId}
    (inv : Pipe s tok before mine after) : s.deferPush = !(mine ++ after).isEmpty := by
  have bus := inv.bus
  unfold AmlHw.deferPush
  cases last : s.cmds.getLast? with
  | none =>
    have empty := List.getLast?_eq_none_iff.mp last
    rw [inv.cmds] at empty
    simp_all
  | some c =>
    rw [inv.cmds, append_assoc, List.getLast?_append] at last
    cases none : (mine ++ after).getLast? with
    | none =>
      have empty := List.getLast?_eq_none_iff.mp none
      rw [none] at last
      have member : c ∈ before := List.mem_of_getLast? (by simpa using last)
      have acked := inv.acked c member
      simp_all
    | some d =>
      rw [none] at last
      obtain rfl : d = c := by simpa using last
      have member : d ∈ mine ++ after := List.mem_of_getLast? none
      have waits : (s.flags d).waitAck = true := by
        rcases mem_append.mp member with own | later
        · cases tok with
          | none => simp [(inv.idle rfl).1] at own
          | some t =>
            rcases inv.token t.1 t.2 rfl with ⟨here, ack, -⟩ | ⟨gone, -⟩
            · obtain rfl : d = t.1 := by simpa [here] using own
              exact ack
            · simp [gone] at own
        · exact (inv.waits d later).1
      have nonempty : mine ++ after ≠ [] := List.ne_nil_of_mem member
      simp only [flags] at waits ⊢
      simp_all

section Link

variable {s : AmlHw} {before mine after : List CmdId}

theorem Pipe.once_link {tok : Token} (inv : Pipe s tok before mine after) :
    (links (.link s.newCmd :: s.log)).Nodup ∧ ∀ c ∈ links (.link s.newCmd :: s.log), c < s.newCmd + 1 := by
  obtain ⟨nodup, old⟩ := inv.once
  have new : s.newCmd ∉ links s.log := fun inside => absurd (old _ inside) (Nat.lt_irrefl _)
  constructor
  · simpa [Event.linked, nodup_append] using ⟨nodup, fun c inside same => new (same ▸ inside)⟩
  · intro c linked
    simp only [links_cons, Event.linked, Option.toList_some, mem_append, List.mem_singleton] at linked
    rcases linked with before | rfl
    · exact Nat.lt_succ_of_lt (old c before)
    · exact Nat.lt_succ_self _

theorem Pipe.linkFirst (inv : Pipe s none before mine after) (req : SendReq) :
    Pipe (s.linkNew req) (some (s.newCmd, .direct)) before [s.newCmd] [] := by
  have fresh := inv.born s.newCmd le_rfl
  obtain ⟨rfl, rfl⟩ := inv.idle rfl
  have cmds : s.cmds = before := by simpa using inv.cmds
  have defer : s.deferPush = false := by simp [inv.deferPush]
  have distinct : ∀ d ∈ s.cmds, d ≠ s.newCmd := fun d inside same => fresh.1 (same ▸ inside)
  have noCaller : ∀ c, s.pc c ≠ .direct ∧ s.pc c ≠ .signal := fun c =>
    ⟨fun here => by simpa using (inv.direct c).mp here, fun here => by simpa using (inv.signal c).mp here⟩
  constructor <;> simp only [linkNew]
  case bus => exact inv.bus
  case hostid => exact inv.hostid
  case irq => exact inv.irq
  case sem => exact inv.sem
  case task =>
    have here := inv.task
    cases at' : s.task <;> rw [at'] at here <;> simp [TaskAt, Token.at] at here ⊢
  case direct =>
    intro c
    by_cases same : c = s.newCmd
    · simp [same, defer]
    · have ne : s.newCmd ≠ c := fun eq => same eq.symm
      simp [same, ne, (noCaller c).1]
  case signal =>
    intro c
    by_cases same : c = s.newCmd
    · simp [same, defer]
    · simp [same, (noCaller c).2]
  case cmds => simp [cmds]
  case nodup =>
    exact inv.nodup.append (List.nodup_singleton _) (by simpa using fresh.1)
  case acked =>
    intro c member
    simpa [distinct c (cmds ▸ member)] using inv.acked c member
  case waits => simp
  case idle => simp
  case token =>
    intro x place here
    obtain ⟨rfl, rfl⟩ : s.newCmd = x ∧ Place.direct = place := by simpa using here
    exact .inl ⟨rfl, by simp [newLinked], by simp [newLinked, defer, Place.marked]⟩
  case chain =>
    intro x place here
    obtain ⟨rfl, rfl⟩ : s.newCmd = x ∧ Place.direct = place := by simpa using here
    exact ⟨Nat.lt_succ_self _, by simp [Chain, newLinked]⟩
  case born =>
    intro c old
    have ne : c ≠ s.newCmd := Nat.ne_of_gt old
    simpa [ne] using inv.born c (Nat.le_of_succ_le old)
  case free => simpa using inv.free
  case order =>
    have order := inv.order
    simp only [Token.unsent, append_nil] at order
    simp [order, Event.linked, Event.pushed, Token.unsent, Place.out]
  case unacked => simpa [Event.acked, Event.pushed] using inv.unacked
  case once => exact inv.once_link
  case sane => simpa using inv.sane

theorem Pipe.linkBehind {x : CmdId} {p : Place} (inv : Pipe s (some (x, p)) before mine after)
    (req : SendReq) (alive : s.state ≠ .crashed) :
    Pipe (s.linkNew req) (some (x, p)) before mine (after ++ [s.newCmd]) := by
  have fresh := inv.born s.newCmd le_rfl
  have split := inv.cmds
  have distinct : ∀ d ∈ s.cmds, d ≠ s.newCmd := fun d inside same => fresh.1 (same ▸ inside)
  obtain ⟨old, chain⟩ := inv.chain x p rfl
  have ne : x ≠ s.newCmd := Nat.ne_of_lt old
  obtain ⟨here, ack, push⟩ : mine = [x] ∧ _ := by
    rcases inv.token x p rfl with linked | ⟨-, -, crashed, -⟩
    · exact linked
    · exact absurd crashed alive
  have defer : s.deferPush = true := by simp [inv.deferPush, here]
  constructor
  case idle => simp
  all_goals simp only [linkNew]
  case bus => exact inv.bus
  case hostid => exact inv.hostid
  case irq => exact inv.irq
  case sem => exact inv.sem
  case task => exact inv.task
  case direct =>
    intro c
    rw [← inv.direct c]
    by_cases same : c = s.newCmd
    · cases blocking : req.nonblock <;> simp [same, defer, fresh.2]
    · simp [same]
  case signal =>
    intro c
    rw [← inv.signal c]
    by_cases same : c = s.newCmd
    · cases blocking : req.nonblock <;> simp [same, defer, fresh.2]
    · simp [same]
  case cmds => simp [split]
  case nodup =>
    exact inv.nodup.append (List.nodup_singleton _) (by simpa using fresh.1)
  case acked =>
    intro c member
    simpa [distinct c (by simp [split, member])] using inv.acked c member
  case waits =>
    intro c member
    rcases mem_append.mp member with old | new
    · simpa [distinct c (by simp [split, old])] using inv.waits c old
    · obtain rfl : c = s.newCmd := by simpa using new
      simp [newLinked, defer]
  case token =>
    intro y place at'
    obtain ⟨rfl, rfl⟩ : x = y ∧ p = place := by simpa using at'
    exact .inl ⟨here, by simpa [ne] using ack, by simpa [ne] using push⟩
  case chain =>
    intro y place at'
    obtain ⟨rfl, rfl⟩ : x = y ∧ p = place := by simpa using at'
    refine ⟨Nat.lt_succ_of_lt old, ?_⟩
    rw [Function.update_of_ne ne]
    refine (chain.congr fun c member => ?_).snoc (by simp [newLinked])
    simp [distinct c (by simp [split, member])]
  case born =>
    intro c old
    have ne : c ≠ s.newCmd := Nat.ne_of_gt old
    simpa [ne] using inv.born c (Nat.le_of_succ_le old)
  case free => simpa using inv.free
  case order => simp [inv.order, Event.linked, Event.pushed]
  case unacked => simpa [Event.acked, Event.pushed] using inv.unacked
  case once => exact inv.once_link
  case sane => simpa using inv.sane

end Link

end W2l.Cmd
