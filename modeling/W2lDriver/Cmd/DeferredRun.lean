/-
**SDIO and USB: every run, and every fair run.**

* `pushedOnly` — the steps under which the token is never lost: nothing is drained, and a waiter that
  times out removes its command only after the command was pushed.
* `Fair` — every thread that can take a step takes one sooner or later.
-/

import W2lDriver.Cmd.Deferred

namespace W2l.Cmd

open AmlHw
open Lib (System)
open List (append_assoc mem_append prefix_refl)
open Event (quiet)

/-- Nothing is drained, and a waiter removes only a command that was pushed. -/
def pushedOnly (s : AmlHw) : Act → Bool
  | .drain => false
  | .timeOut c => (s.flags c).done || (!(s.flags c).waitPush && decide (s.task ≠ .cleared c))
  | _ => true

abbrev PushedOnly : AmlHw → Act → Prop := fun s a => pushedOnly s a = true

/-! ### Who moves the token -/

/-- The threads, the firmware and the interrupt. -/
inductive Agent
  | caller (cmd : CmdId) | msgTask | firmware | interrupt
  deriving DecidableEq, Repr

def Agent.moves : Agent → Act → Prop
  | .caller c, a => a = .pushNow c ∨ a = .signal c
  | .msgTask, a => a = .taskWake ∨ a = .taskClear ∨ a = .taskPush ∨ a = .taskFree
  | .firmware, a => a = .msgack
  | .interrupt, a => a = .llind

def Act.moving : Act → Bool
  | .pushNow _ | .signal _ | .taskWake | .taskClear | .taskPush | .taskFree | .msgack | .llind => true
  | _ => false

theorem Agent.moving {g : Agent} {a : Act} (moves : g.moves a) : a.moving = true := by
  cases g with
  | caller c => rcases moves with rfl | rfl <;> rfl
  | msgTask => rcases moves with rfl | rfl | rfl | rfl <;> rfl
  | firmware => exact moves ▸ rfl
  | interrupt => exact moves ▸ rfl

def Place.agent (place : Place) (x : CmdId) : Agent :=
  match place with
  | .direct | .signal => .caller x
  | .sem | .picked | .cleared => .msgTask
  | .sent => .firmware
  | .acking => .interrupt

def Token.agent (tok : Token) : Option Agent := tok.map fun t => t.2.agent t.1

def Moves (turn : Option Agent) (a : Act) : Prop := ∃ g, turn = some g ∧ g.moves a

def Place.left : Place → Nat
  | .cleared => 3
  | .picked => 4
  | .sem => 5
  | .signal => 7
  | .direct => 8
  | .acking => 9
  | .sent => 10

def Token.left (tok : Token) : Nat :=
  match tok with
  | some t => t.2.left
  | none => 0

/-- One while `aml_msg_task` has not freed the message it pushed. -/
def MsgTask.busy : MsgTask → Nat
  | .pushed _ => 1
  | _ => 0

/-- What one step does to the token and to the commands behind it. -/
inductive Turn (s s' : AmlHw) (a : Act) : Token → List CmdId → Token → List CmdId → Prop
  | rest {tok : Token} {after after' : List CmdId} (task : s'.task = s.task) (other : ¬ Moves tok.agent a)
      (grown : after <+: after') : Turn s s' a tok after tok after'
  | free {tok : Token} {after : List CmdId} (x : CmdId) (task : s.task = .pushed x)
      (task' : s'.task = .idle) : Turn s s' a tok after tok after
  | first (x : CmdId) : Turn s s' a none [] (some (x, .direct)) []
  | goes {x : CmdId} {p q : Place} {after : List CmdId} (own : (p.agent x).moves a)
      (same : q.out = p.out) (less : q.left < p.left) (busy : s'.task.busy ≤ s.task.busy) :
      Turn s s' a (some (x, p)) after (some (x, q)) after
  | sends {x : CmdId} {p : Place} {after : List CmdId} (own : (p.agent x).moves a)
      (unsent : p.out = false) : Turn s s' a (some (x, p)) after (some (x, .sent)) after
  | passes {x : CmdId} {after : List CmdId} (own : a = .llind) (task : s'.task = s.task) :
      Turn s s' a (some (x, .acking)) after (nextToken after) after.tail

/-! ### One step -/

section Turn

variable {s : AmlHw} {tok : Token} {before mine after : List CmdId} {a : Act}

def Turns (s s' : AmlHw) (a : Act) (tok : Token) (after : List CmdId) : Prop :=
  ∃ tok' before' mine' after', Pipe s' tok' before' mine' after' ∧ Turn s s' a tok after tok' after'

theorem Turn.still {s' : AmlHw} {after' : List CmdId} (idle : a.moving = false)
    (task : s'.task = s.task) (grown : after <+: after') : Turn s s' a tok after tok after' :=
  .rest task (fun ⟨_, _, moves⟩ => by simp [Agent.moving moves] at idle) grown

theorem Pipe.callerOn {c : CmdId} (inv : Pipe s tok before mine after) (pc : CallerPc)
    (es : List Event) (here : s.pc c ≠ .direct ∧ s.pc c ≠ .signal ∧ s.pc c ≠ .unborn)
    (there : pc ≠ .direct ∧ pc ≠ .signal) (quiet : ∀ e ∈ es, e.quiet = true) :
    Pipe { s with pc := Function.update s.pc c pc, log := es ++ s.log } tok before mine after := by
  refine inv.still rfl rfl rfl rfl inv.task rfl rfl rfl id (fun d => ?_) (fun _ => ⟨rfl, rfl, rfl⟩) ⟨es, rfl, quiet⟩
  by_cases same : d = c
  · subst same
    exact .inr ⟨here, by simpa using there⟩
  · simp [same]

theorem Token.at_eq_some {tok : Token} {place : Place} {x : CmdId} :
    tok.at place = some x ↔ tok = some (x, place) := by
  cases tok with
  | none => simp [Token.at]
  | some t =>
    obtain ⟨y, q⟩ := t
    by_cases same : q = place <;> simp [Token.at, same]

section

variable (inv : Pipe s tok before mine after)

include inv

theorem Pipe.turn_sendMsg (req : SendReq) (env : SendEnv) :
    Turns s (s.amlSendMsg req env) (.sendMsg req env) tok after := by
  have fresh := inv.born s.newCmd le_rfl
  rcases amlSendMsg_cases fresh.1 req env with
    ⟨ret, same⟩ | ⟨-, same⟩ | ⟨-, -, same⟩ | ⟨alive, -, same⟩ <;> rw [same]
  · exact ⟨tok, before, mine, after, inv.still rfl rfl rfl rfl inv.task rfl rfl rfl id
      (fun _ => .inl rfl) (fun _ => ⟨rfl, rfl, rfl⟩) ⟨[.bypass ret], rfl, by simp [quiet]⟩,
      .still rfl rfl (prefix_refl _)⟩
  · exact ⟨tok, before, mine, after, inv.refuseNew req _, .still rfl rfl (prefix_refl _)⟩
  · exact ⟨tok, before, mine, after, inv.refuseNew req _, .still rfl rfl (prefix_refl _)⟩
  · cases tok with
    | none =>
      obtain ⟨-, rfl⟩ := inv.idle rfl
      exact ⟨_, _, _, _, inv.linkFirst req, .first _⟩
    | some t =>
      exact ⟨_, _, _, _, inv.linkBehind req alive, .still rfl rfl (List.prefix_append _ _)⟩

variable {c : CmdId}

theorem Pipe.mem_before (member : c ∈ s.cmds)
    (ack : (s.flags c).waitAck = false) : c ∈ before := by
  rw [inv.cmds, mem_append, mem_append] at member
  rcases member with (old | own) | later
  · exact old
  · cases tok with
    | none => simp [(inv.idle rfl).1] at own
    | some t =>
      rcases inv.token t.1 t.2 rfl with ⟨here, waits, -⟩ | ⟨gone, -⟩
      · obtain rfl : c = t.1 := by simpa [here] using own
        simp [waits] at ack
      · simp [gone] at own
  · simp [(inv.waits c later).1] at ack

theorem Pipe.erase_before (old : c ∈ before) : s.cmds.erase c = before.erase c ++ mine ++ after := by
  rw [inv.cmds, append_assoc, List.erase_append_left _ old, append_assoc]

/-- `cmd_complete` of an acknowledged command, of one that is not linked, or after a crash of the
token's own command once it was pushed. -/
theorem Pipe.complete
    (leaves : c ∈ before ∨ c ∉ s.cmds ∨ (s.state = .crashed ∧ ∃ p, tok = some (c, p) ∧ p.out = true)) :
    ∃ before' mine', Pipe (s.cmdComplete c) tok before' mine' after := by
  suffices fits : ∃ before' mine', s.cmds.erase c = before' ++ mine' ++ after ∧ before' ⊆ before ∧
      (mine' = mine ∨ mine' = [] ∧ s.state = .crashed ∧
        ∃ x p, tok = some (x, p) ∧ p.out = true ∧ x ∉ s.cmds.erase c) by
    obtain ⟨before', mine', cmds, old, own⟩ := fits
    have quiet : ∀ e ∈ (if (s.flags c).nonblock then [Event.freeCmd c] else []) ++
        [.complete c (decide (c ∈ s.cmds))], e.quiet = true := by
      cases (s.flags c).nonblock <;> simp [quiet]
    refine ⟨before', mine', ?_⟩
    rw [cmdComplete_eq]
    refine inv.shrink cmds List.erase_sublist old own rfl rfl rfl rfl inv.task rfl rfl id
      (fun _ => .inl rfl) (fun d => ?_) (fun d member => ?_)
      ⟨_, (append_assoc _ [_] _).symm, quiet⟩
    · by_cases same : d = c <;> simp [same, completed]
    · have ne : d ≠ c := (inv.nodup.mem_erase_iff.mp member).1
      simp [ne]
  by_cases old : c ∈ before
  · exact ⟨before.erase c, mine, inv.erase_before old, List.erase_subset, .inl rfl⟩
  rcases leaves with old' | gone | ⟨crashed, p, own, out⟩
  · exact absurd old' old
  · exact ⟨before, mine, by rw [List.erase_of_not_mem gone, inv.cmds], List.Subset.refl _, .inl rfl⟩
  · refine ⟨before, [], ?_, List.Subset.refl _, .inr ⟨rfl, crashed, c, p, own, out, ?_⟩⟩
    · rcases inv.token c p own with ⟨rfl, -⟩ | ⟨rfl, -, -, absent⟩
      · rw [inv.cmds, append_assoc, List.erase_append_right _ old]
        simp
      · rw [List.erase_of_not_mem absent, inv.cmds]
    · exact fun inside => (inv.nodup.mem_erase_iff.mp inside).1 rfl

theorem Pipe.turn_msgind (msg : E2aMsg) (accept : Bool) :
    Turns s (s.cmdMgrMsgind msg accept) (.msgind msg accept) tok after := by
  have seen : Pipe (s.msgindSeen none) tok before mine after :=
    inv.still rfl rfl rfl rfl inv.task rfl rfl rfl id (fun _ => .inl rfl)
      (fun _ => ⟨rfl, rfl, rfl⟩) ⟨[.walk _], rfl, by simp [quiet]⟩
  have consumed : ∀ c, Pipe (s.msgindConfirmed msg c) tok before mine after := by
    intro c
    refine inv.still rfl rfl rfl rfl inv.task rfl rfl rfl id (fun _ => .inl rfl) (fun d => ?_)
      ⟨[.confirm c _ _, .walk _], rfl, by simp [quiet]⟩
    by_cases same : d = c <;> simp [msgindConfirmed, msgindSeen, same, confirmed]
  cases found : (if accept then s.awaiting msg.id else none) with
  | none =>
    rw [cmdMgrMsgind_none found]
    exact ⟨_, _, _, _, seen, .still rfl rfl (prefix_refl _)⟩
  | some c =>
    cases waits : (s.flags c).waitAck with
    | true =>
      rw [cmdMgrMsgind_waits found waits]
      exact ⟨_, _, _, _, consumed c, .still rfl rfl (prefix_refl _)⟩
    | false =>
      have old := inv.mem_before (awaiting_spec found).1 waits
      obtain ⟨before', mine', left⟩ := (consumed c).complete (.inl old)
      have next : ((s.msgindConfirmed msg c).cmdComplete c).handNext (listNext s.cmds c) =
          (s.msgindConfirmed msg c).cmdComplete c := by
        cases listNext s.cmds c <;> simp [handNext, left.bus]
      rw [cmdMgrMsgind_done found waits, next]
      refine ⟨_, _, _, _, left, .still rfl ?_ (prefix_refl _)⟩
      rw [cmdComplete_eq]
      rfl

theorem Pipe.leaves_of_pushed
    (pushed : (s.flags c).waitPush = false ∧ s.task ≠ .cleared c) (caller : s.pc c ≠ .direct) :
    c ∈ before ∨ c ∉ s.cmds ∨ ∃ p, tok = some (c, p) ∧ p.out = true := by
  by_cases member : c ∈ s.cmds
  · rw [inv.cmds, mem_append, mem_append] at member
    rcases member with (old | own) | later
    · exact .inl old
    · refine .inr (.inr ?_)
      cases tok with
      | none => simp [(inv.idle rfl).1] at own
      | some t =>
        obtain ⟨x, p⟩ := t
        rcases inv.token x p rfl with ⟨here, -, push⟩ | ⟨gone, -⟩
        · obtain rfl : c = x := by simpa [here] using own
          refine ⟨p, rfl, ?_⟩
          have notMarked : p.marked = false := push.symm.trans pushed.1
          have task := inv.task
          have direct := inv.direct c
          cases p <;> simp only [Place.marked, reduceCtorEq] at notMarked
          · exact absurd (direct.mpr rfl) caller
          · cases at' : s.task <;> rw [at'] at task <;> simp [TaskAt, Token.at] at task
            exact absurd (task ▸ at') pushed.2
          · rfl
          · rfl
        · simp [gone] at own
    · have waits := (inv.waits c later).2
      simp [pushed.1] at waits
  · exact .inr (.inl member)

theorem Pipe.turn_timeOut
    (allowed : pushedOnly s (.timeOut c) = true) (here : s.pc c = .expired ∨ s.pc c = .killed) :
    Turns s (s.timeOut c) (.timeOut c) tok after := by
  have caller : s.pc c ≠ .direct ∧ s.pc c ≠ .signal ∧ s.pc c ≠ .unborn := by
    rcases here with at' | at' <;> simp [at']
  cases done : (s.flags c).done with
  | true =>
    have crashed : Pipe (s.crashedBy c) tok before mine after :=
      inv.still rfl rfl rfl rfl inv.task rfl rfl rfl (fun _ => rfl) (fun _ => .inl rfl)
        (fun _ => ⟨rfl, rfl, rfl⟩) ⟨[.use c], rfl, by simp [quiet]⟩
    rw [timeOut_done done]
    exact ⟨_, _, _, _, crashed.callerOn (.leave 0) [] caller (by simp) (by simp), .still rfl rfl (prefix_refl _)⟩
  | false =>
    have crashed : Pipe (s.timedOut c) tok before mine after := by
      refine inv.still rfl rfl rfl rfl inv.task rfl rfl rfl (fun _ => rfl) (fun _ => .inl rfl)
        (fun d => ?_) ⟨[.use c], rfl, by simp [quiet]⟩
      by_cases same : d = c <;> simp [timedOut, crashedBy, same]
    have pushed : (s.flags c).waitPush = false ∧ s.task ≠ .cleared c := by
      have done' : (s.heap c).flags.done = false := done
      simpa [pushedOnly, done'] using allowed
    have leaves := inv.leaves_of_pushed pushed caller.1
    obtain ⟨before', mine', left⟩ := crashed.complete
      (leaves.imp_right fun gone => gone.imp_right fun own => ⟨rfl, own⟩)
    have kept : ((s.timedOut c).cmdComplete c).pc = s.pc ∧ ((s.timedOut c).cmdComplete c).task = s.task := by
      rw [cmdComplete_eq]
      exact ⟨rfl, rfl⟩
    rw [timeOut_undone done]
    exact ⟨_, _, _, _, left.callerOn (.leave 0) [] (by rw [kept.1]; exact caller) (by simp)
      (by simp), .still rfl kept.2 (prefix_refl _)⟩

theorem Pipe.turn_caller (pc : CallerPc)
    (es : List Event) (here : s.pc c ≠ .direct ∧ s.pc c ≠ .signal ∧ s.pc c ≠ .unborn)
    (there : pc ≠ .direct ∧ pc ≠ .signal) (quiet : ∀ e ∈ es, e.quiet = true)
    (idle : a.moving = false) :
    Turns s { s with pc := Function.update s.pc c pc, log := es ++ s.log } a tok after :=
  ⟨_, _, _, _, inv.callerOn pc es here there quiet, .still idle rfl (prefix_refl _)⟩

end

theorem afterPush_elsewhere (s : AmlHw) (c : CmdId) : s.afterPush c ≠ .direct ∧ s.afterPush c ≠ .signal := by
  unfold afterPush
  split <;> simp

theorem cmdMgrLlind_task {s : AmlHw} (bus : s.busType ≠ .pcie) (c : CmdId) : (s.cmdMgrLlind c).task = s.task := by
  obtain ⟨acked, next, scan⟩ : ∃ acked next,
      llindScan s.heap (s.heap c).tkn none s.cmds = (acked, next) := ⟨_, _, rfl⟩
  cases acked with
  | none =>
    rw [cmdMgrLlind_lost scan, handOver_up (s := s.llindSeen c next) bus]
    rfl
  | some d =>
    cases cfm : (s.flags c).waitCfm with
    | true =>
      rw [cmdMgrLlind_waits scan cfm, handOver_up (s := s.llindAcked c next) bus]
      rfl
    | false =>
      rw [cmdMgrLlind_done scan cfm, cmdComplete_eq, handOver_up (by exact bus)]
      rfl

/-- **One step leaves the token where it is or moves it on.** -/
theorem Pipe.turn {s' : AmlHw} (inv : Pipe s tok before mine after) (allowed : pushedOnly s a = true)
    (stepped : s.step a = some s') : Turns s s' a tok after := by
  have sem := inv.sem
  have task := inv.task
  obtain ⟨-, step⟩ := step_cases stepped
  cases step with
  | sendMsg req env => exact inv.turn_sendMsg req env
  | pushNow c here =>
    obtain rfl := (inv.direct c).mp here
    obtain ⟨q, rfl | rfl, moved⟩ := inv.pushNow
    · exact ⟨_, _, _, _, moved, .sends (.inl rfl) rfl⟩
    · refine ⟨_, _, _, _, moved, .goes (.inl rfl) rfl (by decide) ?_⟩
      unfold AmlHw.pushNow
      split
      · exact le_rfl
      · rw [ipcHostMsgPush_eq]
        exact le_rfl
  | signal c here =>
    obtain rfl := (inv.signal c).mp here
    exact ⟨_, _, _, _, inv.signalled, .goes (.inr rfl) rfl (by decide) le_rfl⟩
  | freeMsg c here =>
    exact inv.turn_caller _ [.freeMsg c, .use c] (by simp [here]) (afterPush_elsewhere s c) (by simp [quiet])
      rfl
  | wake c here done =>
    exact inv.turn_caller _ [.use c] (by simp [here]) (by simp) (by simp [quiet])
      rfl
  | expire c here undone =>
    exact inv.turn_caller _ [.use c] (by simp [here]) (by simp) (by simp [quiet])
      rfl
  | kill c here undone =>
    exact inv.turn_caller _ [.use c] (by simp [here]) (by simp) (by simp [quiet])
      rfl
  | poll c here =>
    rw [poll_killed here]
    refine inv.turn_caller _ [.use c] (by simp [here]) ?_ (by simp [quiet]) rfl
    split <;> simp
  | timeOut c here => exact inv.turn_timeOut allowed here
  | finish c ret here =>
    rw [finish_eq]
    refine inv.turn_caller _ _ (by simp [here]) (by simp) ?_ rfl
    cases (s.flags c).nonblock <;> by_cases ok : ret = 0 <;> simp [ok, quiet]
  | msgack free =>
    cases sent : s.msga2eHostid with
    | some c =>
      obtain rfl := Token.at_eq_some.mp (inv.hostid.symm.trans sent)
      refine ⟨_, _, _, _, inv.acknowledged, .goes rfl rfl (by decide) ?_⟩
      simp [msgackHandler, sent]
    | none =>
      have same : s.msgackHandler = s := by simp [msgackHandler, sent]
      rw [same]
      refine ⟨_, _, _, _, inv, .rest rfl ?_ (prefix_refl _)⟩
      rintro ⟨g, turn, moves⟩
      obtain ⟨⟨x, place⟩, rfl, rfl⟩ := Option.map_eq_some_iff.mp turn
      have hostid := inv.hostid
      cases place <;> simp [Place.agent, Agent.moves, Token.at, sent] at moves hostid
  | llind c here =>
    obtain rfl := Token.at_eq_some.mp (inv.irq.symm.trans here)
    obtain ⟨before', passed⟩ := inv.llind
    exact ⟨_, _, _, _, passed, .passes rfl (cmdMgrLlind_task (s := s.takeIrq) inv.bus c)⟩
  | msgind msg accept => exact inv.turn_msgind msg accept
  | drain => simp [pushedOnly] at allowed
  | taskWake here up =>
    obtain ⟨x, sem'⟩ : ∃ x, tok.at .sem = some x := by
      rw [sem] at up
      exact Option.isSome_iff_exists.mp (by cases at' : tok.at .sem <;> simp [at'] at up ⊢)
    obtain rfl := Token.at_eq_some.mp sem'
    exact ⟨_, _, _, _, inv.woken, .goes (.inl rfl) rfl (by decide) (by simp [AmlHw.taskWake, MsgTask.busy])⟩
  | taskClear cursor here =>
    rw [here] at task
    obtain ⟨x, rfl, rfl⟩ := task
    exact ⟨_, _, _, _, inv.cleared, .goes (.inr (.inl rfl)) rfl (by decide) (by simp [AmlHw.taskClear, MsgTask.busy])⟩
  | taskPush c here =>
    rw [here] at task
    obtain rfl : tok = some (c, .cleared) := task
    exact ⟨_, _, _, _, inv.pushed, .sends (.inr (.inr (.inl rfl))) rfl⟩
  | taskFree c here =>
    rw [here] at task
    refine ⟨_, _, _, _, inv.still rfl rfl rfl rfl task rfl rfl rfl id (fun _ => .inl rfl)
      (fun _ => ⟨rfl, rfl, rfl⟩) ⟨[.freeMsg c, .use c], rfl, by simp [quiet]⟩,
      .free c here rfl⟩
  | crash =>
    exact ⟨_, _, _, _, inv.still rfl rfl rfl rfl task rfl rfl rfl (fun _ => rfl) (fun _ => .inl rfl)
      (fun _ => ⟨rfl, rfl, rfl⟩) ⟨[], rfl, by simp⟩, .still rfl rfl (prefix_refl _)⟩
  | pciShutdown =>
    exact ⟨_, _, _, _, inv.still rfl rfl rfl rfl task rfl rfl rfl id (fun _ => .inl rfl)
      (fun _ => ⟨rfl, rfl, rfl⟩) ⟨[], rfl, by simp⟩, .still rfl rfl (prefix_refl _)⟩
  | devStop =>
    exact ⟨_, _, _, _, inv.still rfl rfl rfl rfl task rfl rfl rfl id (fun _ => .inl rfl)
      (fun _ => ⟨rfl, rfl, rfl⟩) ⟨[], rfl, by simp⟩, .still rfl rfl (prefix_refl _)⟩

end Turn

/-! ### Every run -/

theorem pipe_of_reachable {bus : BusType} (other : bus ≠ .pcie) {s : AmlHw}
    (reach : (cmdSystem bus).Reachable PushedOnly s) :
    ∃ tok before mine after, Pipe s tok before mine after := by
  refine reach.invariant (I := fun s => ∃ tok before mine after, Pipe s tok before mine after)
    ⟨_, _, _, _, pipe_init other⟩ ?_
  rintro s a s' - ⟨tok, before, mine, after, inv⟩ allowed stepped
  obtain ⟨tok', before', mine', after', inv', -⟩ := inv.turn allowed stepped
  exact ⟨_, _, _, _, inv'⟩

/-- Commands are pushed one at a time, once, by one path and in queue order, and `aml_msg_task`
wakes only when there is a command to push. -/
structure OneAtATime (s : AmlHw) : Prop where
  free : ∀ c path busy, Event.push c path busy ∈ s.log → busy = false
  unacked : pushes s.log = acks s.log ++ s.msga2eHostid.toList
  once : (pushes s.log).Nodup
  order : pushes s.log <+: links s.log
  path : ∀ c path busy, Event.push c path busy ∈ s.log → path = .queue ∨ path = .msgTask
  wakes : s.task = .idle → 0 < s.amlMsgSem → s.firstWaitPush.isSome = true
  finds : s.task ≠ .picked none ∧ s.task ≠ .lost
  sane : Event.pushHead ∉ s.log

theorem Pipe.oneAtATime {s : AmlHw} {tok : Token} {before mine after : List CmdId}
    (inv : Pipe s tok before mine after) : OneAtATime s where
  free c path busy now := (inv.free c path busy now).1
  unacked := inv.unacked
  once := by
    have nodup := inv.once.1
    rw [inv.order, append_assoc] at nodup
    exact nodup.of_append_left
  order := ⟨tok.unsent ++ after, by rw [inv.order, append_assoc]⟩
  path c path busy now := (inv.free c path busy now).2
  wakes := by
    intro _ up
    rw [inv.sem] at up
    cases at' : tok.at .sem with
    | none => simp [at'] at up
    | some x =>
      obtain rfl := Token.at_eq_some.mp at'
      rw [inv.firstWaitPush rfl]
      rfl
  finds := by
    have task := inv.task
    constructor <;> intro here <;> simp [here, TaskAt] at task
  sane := inv.sane

/-! ### Every fair run -/

def tokenOf (s : AmlHw) : Token :=
  match s.msga2eHostid, s.irq, s.task with
  | some x, _, _ => some (x, .sent)
  | none, some x, _ => some (x, .acking)
  | none, none, .picked (some x) => some (x, .picked)
  | none, none, .cleared x => some (x, .cleared)
  | none, none, _ => ((links s.log).drop (pushes s.log).length).head?.map fun x =>
      (x, if 0 < s.amlMsgSem then .sem else if s.pc x = .signal then .signal else .direct)

def turnOf (s : AmlHw) : Option Agent := (tokenOf s).agent

section Live

variable {s : AmlHw} {tok : Token} {before mine after : List CmdId}

theorem Pipe.queue (inv : Pipe s tok before mine after) :
    (links s.log).drop (pushes s.log).length = tok.unsent ++ after := by
  rw [inv.order, append_assoc, List.drop_left]

theorem Pipe.tokenOf_eq (inv : Pipe s tok before mine after) : tokenOf s = tok := by
  have hostid := inv.hostid
  have irq := inv.irq
  have task := inv.task
  have sem := inv.sem
  have queue := inv.queue
  cases tok with
  | none =>
    obtain ⟨-, rfl⟩ := inv.idle rfl
    simp only [Token.at, Option.bind_none] at hostid irq
    cases at' : s.task <;> rw [at'] at task <;> simp [TaskAt, Token.at] at task <;>
      simp [tokenOf, hostid, irq, at', queue, Token.unsent]
  | some t =>
    obtain ⟨x, p⟩ := t
    have direct := inv.direct x
    have signal := inv.signal x
    cases p <;> cases at' : s.task <;> rw [at'] at task <;>
      simp [TaskAt, Token.at] at task hostid irq sem direct signal <;>
      simp_all [tokenOf, Token.unsent, Place.out]

/-- What is still to be done before `c` is pushed: the commands before it, then the token's way. -/
def wayTo (c : CmdId) (s : AmlHw) : ℕ :=
  10 * ((links s.log).idxOf c - (pushes s.log).length) + (tokenOf s).left + s.task.busy

theorem Pipe.waiting {c : CmdId} (inv : Pipe s tok before mine after) (linked : c ∈ links s.log)
    (unpushed : c ∉ pushes s.log) :
    c ∈ tok.unsent ++ after ∧ (links s.log).idxOf c - (pushes s.log).length = (tok.unsent ++ after).idxOf c := by
  rw [inv.order, append_assoc] at linked ⊢
  refine ⟨(mem_append.mp linked).resolve_left unpushed, ?_⟩
  rw [List.idxOf_append_of_notMem unpushed, Nat.add_sub_cancel_left]

theorem Pipe.wayTo_eq {c : CmdId} (inv : Pipe s tok before mine after) (linked : c ∈ links s.log)
    (unpushed : c ∉ pushes s.log) :
    wayTo c s = 10 * (tok.unsent ++ after).idxOf c + tok.left + s.task.busy := by
  rw [wayTo, (inv.waiting linked unpushed).2, inv.tokenOf_eq]

def PushedIfLinked (c : CmdId) (s : AmlHw) : Prop := c ∈ links s.log → c ∈ pushes s.log

theorem MsgTask.busy_le (task : MsgTask) : task.busy ≤ 1 := by
  cases task <;> simp [MsgTask.busy]

theorem Pipe.turn_shortens {s' : AmlHw} {a : Act} {tok' : Token} {before' mine' after' : List CmdId}
    {c : CmdId} (inv : Pipe s tok before mine after) (inv' : Pipe s' tok' before' mine' after')
    (turn : Turn s s' a tok after tok' after') (linked : c ∈ links s.log)
    (unpushed : c ∉ pushes s.log) (linked' : c ∈ links s'.log) (unpushed' : c ∉ pushes s'.log) :
    (wayTo c s' < wayTo c s ∧ (Moves tok.agent a ∨ tok' = tok)) ∨
      (¬ Moves tok.agent a ∧ tok' = tok ∧ wayTo c s' = wayTo c s) := by
  obtain ⟨member, -⟩ := inv.waiting linked unpushed
  obtain ⟨member', -⟩ := inv'.waiting linked' unpushed'
  rw [inv.wayTo_eq linked unpushed, inv'.wayTo_eq linked' unpushed']
  cases turn with
  | rest task other grown =>
    obtain ⟨new, rfl⟩ := grown
    refine .inr ⟨other, rfl, ?_⟩
    rw [← append_assoc, List.idxOf_append_of_mem member, task]
  | free x task task' =>
    refine .inl ⟨?_, .inr rfl⟩
    simp [task, task', MsgTask.busy]
  | first x => simp [Token.unsent] at member
  | @goes x p q _ own same less busy =>
    refine .inl ⟨?_, .inl ⟨_, rfl, own⟩⟩
    have unsent : Token.unsent (some (x, q)) = Token.unsent (some (x, p)) := by
      simp [Token.unsent, same]
    rw [unsent]
    simp only [Token.left]
    omega
  | @sends x p _ own unsent =>
    refine .inl ⟨?_, .inl ⟨_, rfl, own⟩⟩
    have mine : Token.unsent (some (x, p)) = [x] := by simp [Token.unsent, unsent]
    have none : Token.unsent (some (x, .sent)) = [] := rfl
    have behind : c ∈ after := by simpa [none] using member'
    have apart : x ≠ c := by
      rintro rfl
      have nodup := inv.once.1
      rw [inv.order, mine, append_assoc, List.nodup_append] at nodup
      simp [behind] at nodup
    have busy := s'.task.busy_le
    have slow : 3 ≤ p.left := by cases p <;> simp [Place.left]
    have sent : Place.sent.left = 10 := rfl
    rw [mine, none, List.nil_append, List.singleton_append, List.idxOf_cons_ne _ apart]
    simp only [Token.left]
    omega
  | passes own task =>
    refine .inl ⟨?_, .inl ⟨_, rfl, own⟩⟩
    cases after with
    | nil => simp [Token.unsent, Place.out] at member
    | cons d rest => simp [Token.unsent, Place.out, Token.left, Place.left, task]

theorem ranked_wayTo {bus : BusType} (other : bus ≠ .pcie) (c : CmdId) :
    System.Execution.Ranked (PushedIfLinked c) turnOf (wayTo c) Moves (cmdSystem bus)
      PushedOnly := by
  have one : ∀ s a s', (cmdSystem bus).Reachable PushedOnly s → PushedOnly s a →
      (cmdSystem bus).step s a = some s' → ¬ PushedIfLinked c s → ¬ PushedIfLinked c s' →
      (wayTo c s' < wayTo c s ∧ (Moves (turnOf s) a ∨ turnOf s' = turnOf s)) ∨
        (¬ Moves (turnOf s) a ∧ turnOf s' = turnOf s ∧ wayTo c s' = wayTo c s) := by
    intro s a s' reach allowed stepped todo todo'
    simp only [PushedIfLinked, Classical.not_imp] at todo todo'
    obtain ⟨tok, before, mine, after, inv⟩ := pipe_of_reachable other reach
    obtain ⟨tok', before', mine', after', inv', turn⟩ := inv.turn allowed stepped
    rw [turnOf, turnOf, inv.tokenOf_eq, inv'.tokenOf_eq]
    refine (inv.turn_shortens inv' turn todo.1 todo.2 todo'.1 todo'.2).imp ?_ ?_
    · exact fun ⟨less, moved⟩ => ⟨less, moved.imp_right fun same => by rw [same]⟩
    · exact fun ⟨rests, same, equal⟩ => ⟨rests, by rw [same], equal⟩
  constructor
  case moves =>
    intro s a s' reach allowed stepped todo moves
    by_cases done : PushedIfLinked c s'
    · exact .inl done
    · rcases one s a s' reach allowed stepped todo done with ⟨less, -⟩ | ⟨rests, -⟩
      · exact .inr less
      · exact absurd moves rests
  case waits =>
    intro s a s' reach allowed stepped todo rests
    by_cases done : PushedIfLinked c s'
    · exact .inl done
    · rcases one s a s' reach allowed stepped todo done with ⟨less, moved⟩ | ⟨-, same, equal⟩
      · exact .inr ⟨moved.resolve_left rests, less.le⟩
      · exact .inr ⟨same, equal.le⟩

end Live

def Agent.Ready (g : Agent) (s : AmlHw) : Prop :=
  match g with
  | .caller c => s.pc c = .direct ∨ s.pc c = .signal
  | .msgTask => s.task ≠ .idle ∨ s.amlMsgSem ≠ 0
  | .firmware => s.msga2eHostid ≠ none
  | .interrupt => s.irq ≠ none

/-- Every agent that stays able to move does so sooner or later. -/
def Fair {bus : BusType} (ρ : (cmdSystem bus).Execution PushedOnly) : Prop :=
  ∀ (g : Agent) n, ∃ m, n ≤ m ∧ (g.moves (ρ.act m) ∨ ¬ g.Ready (ρ.state m))

theorem Pipe.turn_ready {s : AmlHw} {tok : Token} {before mine after : List CmdId}
    (inv : Pipe s tok before mine after) {g : Agent} (turn : turnOf s = some g) : g.Ready s := by
  rw [turnOf, inv.tokenOf_eq] at turn
  obtain ⟨⟨x, place⟩, rfl, rfl⟩ := Option.map_eq_some_iff.mp turn
  obtain ⟨hostid, irq, sem⟩ := inv.tokenAt
  have task := inv.task
  cases place with
  | direct => exact .inl ((inv.direct x).mpr rfl)
  | signal => exact .inr ((inv.signal x).mpr rfl)
  | sem => exact .inr (by simp [sem])
  | picked =>
    refine .inl fun here => ?_
    simp [here, TaskAt, Token.at] at task
  | cleared =>
    refine .inl fun here => ?_
    simp [here, TaskAt, Token.at] at task
  | sent => simp [Place.agent, Agent.Ready, hostid]
  | acking => simp [Place.agent, Agent.Ready, irq]

theorem Fair.moves {bus : BusType} {ρ : (cmdSystem bus).Execution PushedOnly} (fair : Fair ρ)
    (other : bus ≠ .pcie) (n : ℕ) {g : Agent} (turn : turnOf (ρ.state n) = some g) :
    ∃ m, n ≤ m ∧ (Moves (turnOf (ρ.state n)) (ρ.act m) ∨ turnOf (ρ.state m) ≠ turnOf (ρ.state n)) := by
  obtain ⟨m, later, moved⟩ := fair g n
  rw [turn]
  refine ⟨m, later, moved.imp (fun moves => ⟨g, rfl, moves⟩) fun gone here => gone ?_⟩
  obtain ⟨tok, before, mine, after, inv⟩ := pipe_of_reachable other (ρ.reachable m)
  exact inv.turn_ready here

theorem Pipe.someone {s : AmlHw} {tok : Token} {before mine after : List CmdId} {c : CmdId}
    (inv : Pipe s tok before mine after) (todo : ¬ PushedIfLinked c s) :
    ∃ g, turnOf s = some g := by
  simp only [PushedIfLinked, Classical.not_imp] at todo
  obtain ⟨member, -⟩ := inv.waiting todo.1 todo.2
  rw [turnOf, inv.tokenOf_eq]
  cases tok with
  | none => simp [Token.unsent, (inv.idle rfl).2] at member
  | some t => exact ⟨_, rfl⟩

/-- **Deferred commands are pushed one at a time, once, in order, and all of them.** -/
theorem deferred_pipelined {bus : BusType} (other : bus ≠ .pcie) :
    (∀ s, (cmdSystem bus).Reachable PushedOnly s → OneAtATime s) ∧
      ∀ ρ : (cmdSystem bus).Execution PushedOnly, Fair ρ → ∀ n c,
        c ∈ links (ρ.state n).log → ∃ m, n ≤ m ∧ c ∈ pushes (ρ.state m).log := by
  constructor
  · intro s reach
    obtain ⟨tok, before, mine, after, inv⟩ := pipe_of_reachable other reach
    exact inv.oneAtATime
  · intro ρ fair n c linked
    have eventually := ρ.eventually_of_rank (ranked_wayTo other c) (fun n todo => by
      obtain ⟨tok, before, mine, after, inv⟩ := pipe_of_reachable other (ρ.reachable n)
      obtain ⟨g, turn⟩ := inv.someone todo
      exact fair.moves other n turn) n
    obtain ⟨m, later, pushed⟩ := eventually
    have still : c ∈ links (ρ.state m).log := by
      refine ρ.stable (P := fun s => c ∈ links s.log) ?_ later linked
      intro s a s' _ linked _ stepped
      exact mem_links_of_suffix (step_cases stepped).2.log_grows linked
    exact ⟨m, later, pushed still⟩

/-- Two commands, the second behind the first: both are pushed and acknowledged. -/
def twoDeferred : List Act :=
  [.sendMsg startReq {}, .pushNow 0, .freeMsg 0, .sendMsg versionReq {}, .msgack, .llind, .taskWake,
    .taskClear, .taskPush, .taskFree, .msgack, .llind]

/-- The fair run that does nothing after `twoDeferred`. -/
theorem deferred_pipelined_two : ∃ ρ : (cmdSystem .sdio).Execution PushedOnly, Fair ρ ∧ 1 ∈ links (ρ.state 4).log ∧
      1 ∉ pushes (ρ.state 4).log ∧ ∃ m, 4 ≤ m ∧ 1 ∈ pushes (ρ.state m).log := by
  let run := System.run (cmdSystem .sdio) PushedOnly (cmdSystem .sdio).init twoDeferred
  have calm : run.any (fun s => decide (s.task = .idle ∧ s.amlMsgSem = 0 ∧
    s.msga2eHostid = none ∧ s.irq = none ∧ turnOf s = none)) = true := by decide
  obtain ⟨last, ran, calm⟩ := (Option.any_eq_true _ _).mp calm
  obtain ⟨task, sem, hostid, irq, turn⟩ := of_decide_eq_true calm
  have reach : (cmdSystem .sdio).Reachable PushedOnly last :=
    System.reachable_of_run_from .init ran
  have stays : (cmdSystem .sdio).step last .msgack = some last := by
    simp [cmdSystem, step, task, irq, msgackHandler, hostid]
  let ρ : (cmdSystem .sdio).Execution PushedOnly := .ofLoop .msgack twoDeferred ran stays rfl
  have fair : Fair ρ := by
    intro g n
    refine ⟨n + twoDeferred.length, by omega, .inr ?_⟩
    have here : ρ.state (n + twoDeferred.length) = last :=
      System.Execution.loopState_last ran (by omega)
    rw [here]
    obtain ⟨tok, before, mine, after, inv⟩ := pipe_of_reachable (by decide) reach
    cases g with
    | caller c =>
      rw [turnOf, inv.tokenOf_eq] at turn
      obtain rfl : tok = none := Option.map_eq_none_iff.mp turn
      simp [Agent.Ready, inv.direct c, inv.signal c]
    | msgTask => simp [Agent.Ready, task, sem]
    | firmware => simp [Agent.Ready, hostid]
    | interrupt => simp [Agent.Ready, irq]
  have deferred : 1 ∈ links (System.Execution.loopState (cmdSystem .sdio) (cmdSystem .sdio).init
      twoDeferred 4).log ∧ 1 ∉ pushes (System.Execution.loopState (cmdSystem .sdio)
      (cmdSystem .sdio).init twoDeferred 4).log := by decide
  obtain ⟨linked, unpushed⟩ := deferred
  exact ⟨ρ, fair, linked, unpushed, (deferred_pipelined (by decide)).2 ρ fair 4 1 linked⟩

/-- **A waiter that times out before its command is pushed**: the semaphore is already up for it, and
`aml_msg_task` pushes and frees through the list head. -/
theorem timeOut_of_deferred_wakes_in_vain : ¬ ∀ s, (cmdSystem .sdio).Reachable Anything s → OneAtATime s := by
  intro sound
  have reach := System.reachable_of_run (cmdSystem .sdio) Anything
    [.sendMsg startReq {}, .pushNow 0, .freeMsg 0, .sendMsg versionReq {}, .msgack, .llind,
      .expire 1, .timeOut 1, .taskWake, .taskClear] (by decide)
  exact (sound _ reach).sane (by decide)

end W2l.Cmd
