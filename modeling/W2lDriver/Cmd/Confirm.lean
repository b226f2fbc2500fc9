/-
**Confirmations and the commands that consume them: the invariant.**

* `confirms`, `consumers` — who consumed which message, oldest first.
* `Matched` — the invariant: the pushed commands of the list come first, a confirmation is consumed by
  a command that was pushed, and the confirmations are matched in order.
-/

import W2lDriver.Cmd.Course
import W2lDriver.Cmd.Structure
import W2lDriver.Lib.Matching

namespace W2l.Cmd

open AmlHw
open Lib (InOrder)
open List (mem_append_left mem_cons mem_map nodup_cons pairwise_append pairwise_cons)
open Course (left waitCfm)
open AmlHw (course flags)
open Event (acked)

/-! ### The history -/

def Event.confirmed : Event → Option (CmdId × ℕ × MsgId)
  | .confirm c rx id => some (c, rx, id)
  | _ => none

/-- The confirmations consumed so far, oldest first: by whom, which message, with which `msg->id`. -/
def confirms (log : List Event) : List (CmdId × ℕ × MsgId) :=
  (log.filterMap Event.confirmed).reverse

@[simp] theorem confirms_nil : confirms [] = [] := rfl

@[simp] theorem confirms_cons (e : Event) (log : List Event) :
    confirms (e :: log) = confirms log ++ e.confirmed.toList := by
  cases e <;> simp [confirms, Event.confirmed, List.filterMap_cons]

theorem mem_confirms {log : List Event} {c : CmdId} {rx : ℕ} {id : MsgId} :
    (c, rx, id) ∈ confirms log ↔ Event.confirm c rx id ∈ log := by
  simp only [confirms, List.mem_reverse, List.mem_filterMap]
  constructor
  · rintro ⟨e, inside, consumed⟩
    cases e <;> simp only [Event.confirmed, reduceCtorEq, Option.some.injEq, Prod.mk.injEq] at consumed
    obtain ⟨rfl, rfl, rfl⟩ := consumed
    exact inside
  · exact fun inside => ⟨_, inside, rfl⟩

/-- Who consumed the messages with `msg->id == r`, oldest first. -/
def consumers (log : List Event) (r : MsgId) : List CmdId :=
  ((confirms log).filter fun t => decide (t.2.2 = r)).map (·.1)

theorem mem_consumers {log : List Event} {r : MsgId} {c : CmdId} :
    c ∈ consumers log r ↔ ∃ rx, Event.confirm c rx r ∈ log := by
  simp only [consumers, mem_map, List.mem_filter, decide_eq_true_eq]
  constructor
  · rintro ⟨⟨d, rx, id⟩, ⟨inside, rfl⟩, rfl⟩
    exact ⟨rx, mem_confirms.mp inside⟩
  · rintro ⟨rx, inside⟩
    exact ⟨(c, rx, r), ⟨mem_confirms.mpr inside, rfl⟩, rfl⟩

/-- A confirmation is consumed by a command that had been pushed. -/
def PushedBefore : List Event → Prop
  | [] => True
  | .confirm c _ _ :: log => c ∈ pushes log ∧ PushedBefore log
  | _ :: log => PushedBefore log

instance decidablePushedBefore : DecidablePred PushedBefore
  | [] => isTrue trivial
  | .confirm c _ _ :: log =>
    have := decidablePushedBefore log
    inferInstanceAs (Decidable (c ∈ pushes log ∧ PushedBefore log))
  | .bypass _ :: log | .refuse _ :: log | .link _ :: log | .push _ _ _ :: log | .pushHead :: log
  | .ack _ :: log | .complete _ _ :: log | .drain _ :: log | .walk _ :: log | .use _ :: log
  | .freeCmd _ :: log | .freeMsg _ :: log => decidablePushedBefore log

/-! ### The invariant -/

/-- The command waits for a confirmation with `msg->id == r`. -/
def AmlHw.awaits (s : AmlHw) (r : MsgId) (c : CmdId) : Bool :=
  decide ((s.heap c).reqid = r) && (s.flags c).waitCfm

/-- What holds between two steps. -/
structure Matched (s : AmlHw) : Prop where
  each : ∀ c, (s.course c).Ok
  nodup : s.cmds.Nodup
  task : s.task ≠ .picked none
  sem : s.busType = .pcie → s.amlMsgSem = 0
  once : (pushes s.log).Nodup
  ready : s.cmds.Pairwise fun a b => (s.course b).going → a ∈ pushes s.log
  alone : s.busType = .pcie → s.cmds.Pairwise fun _ b => s.pc b ≠ .direct
  cfm : ∀ c rx id, Event.confirm c rx id ∈ s.log →
    c ∈ pushes s.log ∧ (s.flags c).waitCfm = false ∧ (s.heap c).reqid = id
  pushedBefore : PushedBefore s.log
  rx : ((confirms s.log).map (·.2.1)).Nodup ∧ ∀ t ∈ confirms s.log, t.2.1 ≤ s.rxCnt
  order : ∀ r, InOrder (pushes s.log) (consumers s.log r) s.cmds (s.awaits r)

def Waits (s : AmlHw) : Prop :=
  ∀ c ∈ s.cmds, (s.flags c).waitAck = true ∨ (s.flags c).waitCfm = true

theorem matched_init (bus : BusType) : Matched (cmdSystem bus).init where
  each c := by
    constructor <;> simp [cmdSystem, course, MsgTask.held, left]
  nodup := List.nodup_nil
  task := by simp [cmdSystem]
  sem := fun _ => rfl
  once := List.nodup_nil
  ready := List.Pairwise.nil
  alone := fun _ => List.Pairwise.nil
  cfm := by simp [cmdSystem]
  pushedBefore := trivial
  rx := by simp [cmdSystem]
  order := fun _ => InOrder.nil

/-- A step that neither pushes nor confirms. -/
structure Calm (s s' : AmlHw) : Prop where
  bus : s'.busType = s.busType
  pushes : pushes s'.log = pushes s.log
  confirm : ∀ c rx id, Event.confirm c rx id ∈ s'.log ↔ Event.confirm c rx id ∈ s.log
  confirms : confirms s'.log = confirms s.log
  pushedBefore : PushedBefore s.log → PushedBefore s'.log
  rx : s.rxCnt ≤ s'.rxCnt

section Steps

variable {s s' : AmlHw}

theorem Calm.consumers (calm : Calm s s') (r : MsgId) : consumers s'.log r = consumers s.log r := by
  rw [Cmd.consumers, Cmd.consumers, calm.confirms]

theorem Matched.frame (inv : Matched s) (calm : Calm s s') (cmds : s'.cmds = s.cmds)
    (each : ∀ c, (s'.course c).Ok) (task : s'.task ≠ .picked none)
    (sem : s'.busType = .pcie → s'.amlMsgSem = 0)
    (ready : s.cmds.Pairwise fun a b => (s'.course b).going → a ∈ pushes s.log)
    (direct : ∀ c ∈ s.cmds, s'.pc c = .direct → s.pc c = .direct)
    (heap : ∀ c, c ∈ s.cmds ∨ c ∈ pushes s.log →
      (s'.heap c).reqid = (s.heap c).reqid ∧ (s'.flags c).waitCfm = (s.flags c).waitCfm) :
    Matched s' where
  each := each
  nodup := cmds ▸ inv.nodup
  task := task
  sem := sem
  once := calm.pushes ▸ inv.once
  ready := by
    rw [cmds, calm.pushes]
    exact ready
  alone pcie := by
    rw [cmds]
    exact (inv.alone (calm.bus ▸ pcie)).imp_of_mem fun _ inside away at' =>
      away (direct _ inside at')
  cfm c rx id consumed := by
    obtain ⟨pushed, waits, same⟩ := inv.cfm c rx id ((calm.confirm c rx id).mp consumed)
    have kept := heap c (.inr pushed)
    rw [calm.pushes, kept.1, kept.2]
    exact ⟨pushed, waits, same⟩
  pushedBefore := calm.pushedBefore inv.pushedBefore
  rx := by
    rw [calm.confirms]
    exact ⟨inv.rx.1, fun t inside => (inv.rx.2 t inside).trans calm.rx⟩
  order r := by
    rw [calm.pushes, calm.consumers, cmds]
    refine (inv.order r).congr fun c inside => ?_
    obtain ⟨reqid, waits⟩ := heap c (.inl inside)
    simp only [awaits, reqid, waits]

def Event.silent (e : Event) : Prop := e.pushed = none ∧ e.confirmed = none

theorem silent_append {es : List Event} (log : List Event) (silent : ∀ e ∈ es, e.silent) :
    pushes (es ++ log) = pushes log ∧ confirms (es ++ log) = confirms log ∧
      (PushedBefore log → PushedBefore (es ++ log)) := by
  induction es with
  | nil => exact ⟨rfl, rfl, id⟩
  | cons e es ih =>
    obtain ⟨now, later⟩ := List.forall_mem_cons.mp silent
    obtain ⟨pushes, confirms, before⟩ := ih later
    refine ⟨by simp [pushes, now.1], by simp [confirms, now.2], fun holds => ?_⟩
    cases e <;> simp_all [Event.silent, Event.confirmed, PushedBefore]

theorem Calm.of_log (es : List Event) (bus : s'.busType = s.busType) (rx : s.rxCnt ≤ s'.rxCnt)
    (log : s'.log = es ++ s.log) (silent : ∀ e ∈ es, e.silent) : Calm s s' := by
  obtain ⟨pushes, confirms, before⟩ := silent_append s.log silent
  rw [← log] at pushes confirms before
  refine ⟨bus, pushes, fun c rx id => ?_, confirms, before, rx⟩
  rw [← mem_confirms, confirms, mem_confirms]

section

variable (inv : Matched s)

include inv

theorem Matched.next (calm : Calm s s') (cmds : s'.cmds = s.cmds) (c : CmdId)
    (here : (s'.course c).Ok)
    (others : ∀ d, d ≠ c → s'.course d = s.course d ∨ s'.course d = { s.course d with sent := False })
    (going : c ∈ s.cmds → (s'.course c).going → (s.course c).going)
    (direct : c ∈ s.cmds → s'.pc c = .direct → s.pc c = .direct)
    (task : s'.task ≠ .picked none) (sem : s'.busType = .pcie → s'.amlMsgSem = 0)
    (heap : ∀ d, d ∈ s.cmds ∨ d ∈ pushes s.log →
      (s'.heap d).reqid = (s.heap d).reqid ∧ (s'.flags d).waitCfm = (s.flags d).waitCfm) :
    Matched s' := by
  have ready : s.cmds.Pairwise fun a b => (s'.course b).going → a ∈ pushes s.log := by
    refine inv.ready.imp_of_mem fun {a b} _ inside after go => after ?_
    by_cases same : b = c
    · subst same
      exact going inside go
    · rcases others b same with kept | unsent
      · exact kept ▸ go
      · rw [unsent] at go
        exact go
  refine inv.frame calm cmds (fun d => ?_) task sem ready (fun d inside => ?_) heap
  · by_cases same : d = c
    · exact same ▸ here
    · rcases others d same with kept | unsent
      · exact kept ▸ inv.each d
      · exact unsent ▸ (inv.each d).unsends
  · by_cases same : d = c
    · subst same
      exact direct inside
    · have pc : s'.pc d = s.pc d := by
        rcases others d same with kept | unsent
        · exact congrArg Course.pc kept
        · exact congrArg Course.pc unsent
      exact fun at' => pc ▸ at'

theorem Matched.push (x : CmdId) (bus : s'.busType = s.busType)
    (rx : s'.rxCnt = s.rxCnt) (cmds : s'.cmds = s.cmds)
    (pushed : pushes s'.log = pushes s.log ++ [x])
    (confirm : confirms s'.log = confirms s.log) (before : PushedBefore s'.log)
    (fresh : x ∉ pushes s.log)
    (ahead : s.cmds.Pairwise fun a b => b = x → a ∈ pushes s.log) (here : (s'.course x).Ok)
    (others : ∀ d, d ≠ x → s'.course d = s.course d ∨ s'.course d = { s.course d with sent := False })
    (moved : s'.pc x ≠ .direct) (task : s'.task ≠ .picked none)
    (sem : s'.busType = .pcie → s'.amlMsgSem = 0)
    (heap : ∀ d, (s'.heap d).reqid = (s.heap d).reqid ∧ (s'.flags d).waitCfm = (s.flags d).waitCfm) : Matched s' where
  each d := by
    by_cases same : d = x
    · exact same ▸ here
    · rcases others d same with kept | unsent
      · exact kept ▸ inv.each d
      · exact unsent ▸ (inv.each d).unsends
  nodup := cmds ▸ inv.nodup
  task := task
  sem := sem
  once := by
    rw [pushed]
    exact inv.once.append (List.nodup_singleton _) (by simpa using fresh)
  ready := by
    rw [cmds, pushed]
    refine (inv.ready.and ahead).imp fun {a b} ⟨after, first⟩ go => mem_append_left _ ?_
    by_cases same : b = x
    · exact first same
    · refine after ?_
      rcases others b same with kept | unsent
      · exact kept ▸ go
      · rw [unsent] at go
        exact go
  alone pcie := by
    rw [cmds]
    refine (inv.alone (bus ▸ pcie)).imp fun {a b} away at' => ?_
    by_cases same : b = x
    · exact moved (same ▸ at')
    · have pc : s'.pc b = s.pc b := by
        rcases others b same with kept | unsent
        · exact congrArg Course.pc kept
        · exact congrArg Course.pc unsent
      exact away (pc ▸ at')
  cfm c rx id consumed := by
    rw [← mem_confirms, confirm, mem_confirms] at consumed
    obtain ⟨old, waits, same⟩ := inv.cfm c rx id consumed
    rw [pushed, (heap c).1, (heap c).2]
    exact ⟨mem_append_left _ old, waits, same⟩
  pushedBefore := before
  rx := by
    rw [confirm, rx]
    exact inv.rx
  order r := by
    have same : consumers s'.log r = consumers s.log r := by rw [consumers, consumers, confirm]
    have wants : s'.awaits r = s.awaits r := by
      funext c
      simp only [awaits, heap c]
    rw [same, wants, cmds, pushed]
    by_cases inside : x ∈ s.cmds
    · obtain ⟨front, back, split⟩ := List.append_of_mem inside
      have ready := inv.ready
      rw [split, pairwise_append, pairwise_cons] at ready ahead
      refine (inv.order r).send fresh split (fun y member => ?_) fun y member => ?_
      · exact ahead.2.2 y member x (by simp) rfl
      · refine ⟨fun sent => fresh (ready.2.1.1 y member (.inl sent)), ?_⟩
        rintro rfl
        have nodup := split ▸ inv.nodup
        exact (nodup_cons.mp nodup.of_append_right).1 member
    · exact (inv.order r).sendGone fresh inside

theorem Matched.unlink (calm : Calm s s') (x : CmdId)
    (cmds : s'.cmds = s.cmds.erase x) (here : (s'.course x).Ok)
    (others : ∀ d, d ≠ x → s'.course d = s.course d) (task : s'.task = s.task)
    (sem : s'.amlMsgSem = s.amlMsgSem)
    (heap : ∀ d, (s'.heap d).reqid = (s.heap d).reqid ∧ (s'.flags d).waitCfm = (s.flags d).waitCfm) : Matched s' where
  each d := by
    by_cases same : d = x
    · exact same ▸ here
    · exact others d same ▸ inv.each d
  nodup := cmds ▸ inv.nodup.erase x
  task := task ▸ inv.task
  sem pcie := sem ▸ inv.sem (calm.bus ▸ pcie)
  once := calm.pushes ▸ inv.once
  ready := by
    rw [cmds, calm.pushes]
    refine (inv.ready.sublist List.erase_sublist).imp_of_mem fun {a b} _ inside after go => ?_
    have ne : b ≠ x := (inv.nodup.mem_erase_iff.mp inside).1
    exact after (others b ne ▸ go)
  alone pcie := by
    rw [cmds]
    refine ((inv.alone (calm.bus ▸ pcie)).sublist List.erase_sublist).imp_of_mem fun {a b} _ inside away at' => ?_
    have ne : b ≠ x := (inv.nodup.mem_erase_iff.mp inside).1
    have pc : s'.pc b = s.pc b := congrArg Course.pc (others b ne)
    exact away (pc ▸ at')
  cfm c rx id consumed := by
    obtain ⟨old, waits, same⟩ := inv.cfm c rx id ((calm.confirm c rx id).mp consumed)
    rw [calm.pushes, (heap c).1, (heap c).2]
    exact ⟨old, waits, same⟩
  pushedBefore := calm.pushedBefore inv.pushedBefore
  rx := by
    rw [calm.confirms]
    exact ⟨inv.rx.1, fun t inside => (inv.rx.2 t inside).trans calm.rx⟩
  order r := by
    have wants : s'.awaits r = s.awaits r := by
      funext c
      simp only [awaits, heap c]
    rw [calm.pushes, calm.consumers, cmds, wants]
    refine (inv.order r).leave inv.nodup fun waits consumed => ?_
    obtain ⟨rx, inside⟩ := mem_consumers.mp consumed
    have idle := (inv.cfm x rx r inside).2.1
    simp [awaits, show (s.heap x).flags.waitCfm = false from idle] at waits

theorem Matched.fresh : s.newCmd ∉ s.cmds ∧ s.newCmd ∉ pushes s.log := by
  have unborn := (inv.each s.newCmd).unborn (Nat.lt_irrefl _)
  exact ⟨unborn.2.1, unborn.2.2.2.2.2.2.1⟩

theorem Matched.refuseNew (req : SendReq) {ret : Int} (bad : ret ≠ 0) : Matched (s.refuseNew req ret) := by
  obtain ⟨unlinked, unpushed⟩ := inv.fresh
  have other : ∀ d, d ∈ s.cmds ∨ d ∈ pushes s.log → d ≠ s.newCmd := by
    rintro d (inside | inside) rfl
    · exact unlinked inside
    · exact unpushed inside
  have calm : Calm s (s.refuseNew req ret) :=
    .of_log [.refuse s.newCmd] rfl le_rfl rfl (by simp [Event.silent, Event.pushed, Event.confirmed])
  refine inv.next calm rfl s.newCmd ?_ (fun d ne => .inl ?_) (fun inside => absurd inside unlinked)
    (fun inside => absurd inside unlinked) inv.task inv.sem fun d known => ?_
  · have ok := (inv.each s.newCmd).refused (Nat.lt_irrefl _) bad req.nonblock req.reqcfm
      (∃ rx, Event.confirm s.newCmd rx req.reqid ∈ s.log)
    simpa [course, AmlHw.refuseNew, SendReq.toCmd, Event.linked, Event.pushed, acked] using ok
  · have ne' : d < s.newCmd + 1 ↔ d < s.newCmd :=
      ⟨fun lt => Nat.lt_of_le_of_ne (Nat.le_of_lt_succ lt) ne, fun lt => Nat.lt_succ_of_lt lt⟩
    simp [course, AmlHw.refuseNew, ne, ne', Event.linked, Event.pushed, acked]
  · simp [AmlHw.refuseNew, other d known]

/-- A command is linked behind the others; not deferred only if all of them were pushed. -/
theorem Matched.linkNew (req : SendReq)
    (ahead : s.deferPush = false → ∀ a ∈ s.cmds, a ∈ pushes s.log)
    (only : s.deferPush = false → s.busType = .pcie → s.cmds = []) : Matched (s.linkNew req) := by
  obtain ⟨unlinked, unpushed⟩ := inv.fresh
  have other : ∀ d ∈ s.cmds, d ≠ s.newCmd := fun d inside same => unlinked (same ▸ inside)
  have others : ∀ d, d ≠ s.newCmd → (s.linkNew req).course d = s.course d := by
    intro d ne
    have ne' : d < s.newCmd + 1 ↔ d < s.newCmd :=
      ⟨fun lt => Nat.lt_of_le_of_ne (Nat.le_of_lt_succ lt) ne, fun lt => Nat.lt_succ_of_lt lt⟩
    simp [course, AmlHw.linkNew, ne, ne', Event.linked, Event.pushed, acked]
  have pc : ((s.linkNew req).course s.newCmd).pc =
      if s.deferPush then (if req.nonblock then .leave 0 else .wait) else .direct := by
    simp [course, AmlHw.linkNew]
  have held : ((s.linkNew req).course s.newCmd).held = .no :=
    ((inv.each s.newCmd).unborn (Nat.lt_irrefl _)).2.2.2.1
  have calm : Calm s (s.linkNew req) :=
    .of_log [.link s.newCmd] rfl le_rfl rfl (by simp [Event.silent, Event.pushed, Event.confirmed])
  have direct : ((s.linkNew req).course s.newCmd).pc = .direct → s.deferPush = false := by
    rw [pc]
    cases s.deferPush <;> cases req.nonblock <;> simp
  constructor
  case each =>
    intro d
    by_cases same : d = s.newCmd
    · subst same
      have ok := (inv.each s.newCmd).links (Nat.lt_irrefl _) s.deferPush
        (if s.deferPush then (if req.nonblock then .leave 0 else .wait) else .direct) req.nonblock
        req.reqcfm (∃ rx, Event.confirm s.newCmd rx req.reqid ∈ s.log)
        (by cases s.deferPush <;> cases req.nonblock <;> simp)
      simpa [course, AmlHw.linkNew, newLinked, SendReq.toCmd, Event.linked, Event.pushed, acked] using ok
    · exact others d same ▸ inv.each d
  case nodup => exact inv.nodup.append (List.nodup_singleton _) (by simpa using unlinked)
  case task => exact inv.task
  case sem => exact inv.sem
  case once => exact calm.pushes ▸ inv.once
  case ready =>
    rw [calm.pushes]
    refine pairwise_append.mpr ⟨?_, List.pairwise_singleton _ _, fun a inside b new go => ?_⟩
    · exact inv.ready.imp_of_mem fun _ inside after go => after (others _ (other _ inside) ▸ go)
    · obtain rfl : b = s.newCmd := by simpa using new
      refine ahead (direct ?_) a inside
      have unpushed' : ¬ ((s.linkNew req).course s.newCmd).pushed := by
        show s.newCmd ∉ pushes (s.linkNew req).log
        rw [calm.pushes]
        exact unpushed
      rcases go with pushed | here | picked | cleared
      · exact absurd pushed unpushed'
      · exact here
      · simp [held] at picked
      · simp [held] at cleared
  case alone =>
    intro pcie
    refine pairwise_append.mpr ⟨?_, List.pairwise_singleton _ _, fun a inside b new at' => ?_⟩
    · refine (inv.alone pcie).imp_of_mem fun {a b} _ inside away at' => away ?_
      have pc : (s.linkNew req).pc b = s.pc b :=
        congrArg Course.pc (others b (other b inside))
      exact pc ▸ at'
    · obtain rfl : b = s.newCmd := by simpa using new
      simp [only (direct at') pcie] at inside
  case cfm =>
    intro c rx id consumed
    obtain ⟨pushed, waits, same⟩ := inv.cfm c rx id ((calm.confirm c rx id).mp consumed)
    have ne : c ≠ s.newCmd := fun eq => unpushed (eq ▸ pushed)
    rw [calm.pushes]
    simpa [AmlHw.linkNew, ne] using ⟨pushed, waits, same⟩
  case pushedBefore => exact calm.pushedBefore inv.pushedBefore
  case rx =>
    rw [calm.confirms]
    exact inv.rx
  case order =>
    intro r
    rw [calm.pushes, calm.consumers]
    refine ((inv.order r).congr fun d inside => ?_).queue unpushed
    simp [awaits, AmlHw.linkNew, other d inside]

/-- `cmd_mgr_msgind` hands the message to a command that was pushed. -/
theorem Matched.consume {msg : E2aMsg} {accept : Bool} {c : CmdId}
    (found : (if accept then s.awaiting msg.id else none) = some c)
    (pushed : c ∈ pushes s.log) : Matched (s.msgindConfirmed msg c) := by
  obtain ⟨linked, reqid, waits⟩ := awaiting_spec found
  have log : (s.msgindConfirmed msg c).log =
      .confirm c (s.rxCnt + 1) msg.id :: .walk (walked s.cmds (some c)) :: s.log := rfl
  have heap : ∀ d, d ≠ c → (s.msgindConfirmed msg c).heap d = s.heap d := by
    intro d ne
    simp [msgindConfirmed, msgindSeen, ne]
  have kept : ∀ d, ((s.msgindConfirmed msg c).heap d).reqid = (s.heap d).reqid := by
    intro d
    by_cases same : d = c <;> simp [msgindConfirmed, msgindSeen, same, confirmed]
  have pushes' : pushes (s.msgindConfirmed msg c).log = pushes s.log := by
    simp [log, Event.pushed]
  have confirms' : confirms (s.msgindConfirmed msg c).log = confirms s.log ++ [(c, s.rxCnt + 1, msg.id)] := by
    simp [log, Event.confirmed]
  have others : ∀ d, d ≠ c → (s.msgindConfirmed msg c).course d = s.course d := by
    intro d ne
    simp [course, ne, msgindConfirmed, msgindSeen, Event.linked, Event.pushed, acked]
  have here : (s.msgindConfirmed msg c).course c = { s.course c with waitCfm := false, confirmed := True } := by
    simp [course, msgindConfirmed, msgindSeen, confirmed, reqid, Event.linked, Event.pushed, acked]
  have going : ∀ d, ((s.msgindConfirmed msg c).course d).going → (s.course d).going := by
    intro d
    by_cases same : d = c
    · subst same
      rw [here]
      exact id
    · rw [others d same]
      exact id
  constructor
  case each =>
    intro d
    by_cases same : d = c
    · subst same
      exact here ▸ (inv.each d).consumes
    · exact others d same ▸ inv.each d
  case nodup => exact inv.nodup
  case task => exact inv.task
  case sem => exact inv.sem
  case once => exact pushes' ▸ inv.once
  case ready =>
    rw [pushes']
    exact inv.ready.imp fun after go => after (going _ go)
  case alone => exact inv.alone
  case cfm =>
    intro d rx id consumed
    rw [pushes', kept]
    rw [log, mem_cons, mem_cons] at consumed
    rcases consumed with now | walk | old
    · obtain ⟨rfl, rfl, rfl⟩ : d = c ∧ rx = s.rxCnt + 1 ∧ id = msg.id := by simpa using now
      exact ⟨pushed, congrArg waitCfm here, reqid⟩
    · simp at walk
    · obtain ⟨known, idle, same⟩ := inv.cfm d rx id old
      have ne : d ≠ c := by
        rintro rfl
        simp [waits] at idle
      exact ⟨known, by rw [flags, heap d ne]; exact idle, same⟩
  case pushedBefore =>
    rw [log]
    exact ⟨by simpa [Event.pushed] using pushed, inv.pushedBefore⟩
  case rx =>
    obtain ⟨nodup, bound⟩ := inv.rx
    rw [confirms', List.map_append, List.map_singleton]
    refine ⟨nodup.append (List.nodup_singleton _) ?_, fun t inside => ?_⟩
    · intro n old new
      obtain ⟨t, inside, rfl⟩ := mem_map.mp old
      have le := bound t inside
      have eq : t.2.1 = s.rxCnt + 1 := by simpa using new
      omega
    · rcases List.mem_append.mp inside with old | new
      · exact (bound t old).trans (Nat.le_succ _)
      · obtain rfl : t = (c, s.rxCnt + 1, msg.id) := by simpa using new
        exact le_rfl
  case order =>
    intro r
    rw [pushes']
    by_cases same : msg.id = r
    · subst same
      have served : consumers (s.msgindConfirmed msg c).log msg.id = consumers s.log msg.id ++ [c] := by
        simp [consumers, confirms', List.filter_append]
      have first : s.cmds.find? (s.awaits msg.id) = some c := by
        have asked : accept = true ∧ s.awaiting msg.id = some c := by simpa using found
        exact asked.2
      rw [served]
      refine (inv.order msg.id).answer first pushed (fun d ne => ?_) ?_ inv.nodup
      · simp only [awaits, flags, heap d ne]
      · have idle : ((s.msgindConfirmed msg c).heap c).flags.waitCfm = false :=
          congrArg waitCfm here
        simp [awaits, idle]
    · have served : consumers (s.msgindConfirmed msg c).log r = consumers s.log r := by
        simp [consumers, confirms', List.filter_append, same]
      rw [served]
      refine (inv.order r).congr fun d _ => ?_
      by_cases eq : d = c
      · subst eq
        have ne : (s.heap d).reqid ≠ r := fun eq => same (reqid ▸ eq)
        simp [awaits, kept, ne]
      · simp only [awaits, flags, heap d eq]

/-! ### The steps of the manager -/

theorem Matched.complete {c : CmdId} (ever : (s.course c).ever) : Matched (s.cmdComplete c) := by
  rw [cmdComplete_eq]
  have silent : ∀ e ∈ (if (s.flags c).nonblock then [Event.freeCmd c] else []) ++
      [.complete c (decide (c ∈ s.cmds))], e.silent := by
    cases (s.flags c).nonblock <;> simp [Event.silent, Event.pushed, Event.confirmed]
  refine inv.unlink (.of_log _ rfl le_rfl (List.append_assoc _ [_] _).symm silent) c rfl ?_
    (fun d ne => ?_) rfl rfl fun d => ?_
  · have zero : (completed (s.heap c)).result = 0 → (s.course c).result = 0 ∨
        ((s.course c).ever ∧ (s.course c).waitAck = false ∧ (s.course c).waitCfm = false) := by
      intro zero
      unfold completed at zero
      dsimp only at zero
      split at zero
      · rename_i woken
        have idle : (s.heap c).flags.waitComplete = true := (Bool.and_eq_true _ _ ▸ woken : _ ∧ _).2
        simp only [CmdFlags.waitComplete, Bool.not_eq_true', Bool.or_eq_false_iff] at idle
        exact .inr ⟨ever, idle.1, idle.2⟩
      · exact .inl zero
    have ok := (inv.each c).unlinked zero
    cases blocking : (s.heap c).flags.nonblock <;>
      simpa [course, blocking, completed, inv.nodup.mem_erase_iff, Event.linked, Event.pushed, acked] using ok
  · cases (s.heap c).flags.nonblock <;>
      simp [course, ne, inv.nodup.mem_erase_iff, Event.linked, Event.pushed, acked]
  · by_cases same : d = c <;> simp [same, completed]

theorem Matched.pushNext {x : CmdId} (linked : x ∈ s.cmds)
    (waits : (s.flags x).waitPush = true) (pcie : s.busType = .pcie)
    (ahead : s.cmds.Pairwise fun a b => b = x → a ∈ pushes s.log) (path : PushPath) :
    Matched (s.pushNext x path) := by
  have marked := (inv.each x).marked waits
  have away : s.pc x ≠ .direct := fun here => by
    have clear := ((inv.each x).direct here).2.1
    simp [show (s.course x).waitPush = true from waits] at clear
  simp only [AmlHw.pushNext, ipcHostMsgPush_eq, AmlHw.emit, AmlHw.onFlags, AmlHw.onCmd]
  refine inv.push x rfl rfl rfl ?_ ?_ ?_ marked.1 ahead ?_ (fun d ne => ?_) away inv.task inv.sem fun d => ?_
  · simp [Event.pushed]
  · simp [Event.confirmed]
  · exact inv.pushedBefore
  · have ok := (inv.each x).handedOver waits linked pcie (if s.busType = .pcie ∧
      s.gPciShutdown = true then s.msga2eHostid = some x else True)
    split <;> simp_all [course, Event.linked, Event.pushed, acked]
  · have ne' : x ≠ d := fun eq => ne eq.symm
    by_cases off : s.busType = .pcie ∧ s.gPciShutdown = true
    · exact .inl (by simp [course, ne, off, Event.linked, Event.pushed, acked])
    · exact .inr (by simp [course, ne, off, Event.linked, Event.pushed, acked, ne'])
  · by_cases same : d = x <;> simp [same]

/-- On SDIO and USB the next command is left to `aml_msg_task`. -/
theorem Matched.handOver_other (other : s.busType ≠ .pcie) (next : Option CmdId)
    (complete : Bool) : Matched (s.handOver next complete) := by
  rw [handOver_up other]
  exact inv.frame (.of_log [] rfl le_rfl rfl (by simp)) rfl inv.each inv.task
    (fun pcie => absurd pcie other) inv.ready (fun _ _ => id) fun _ _ => ⟨rfl, rfl⟩

end

theorem pairwise_ahead {cmds before behind : List CmdId} {x : CmdId} {P : CmdId → Prop}
    (nodup : cmds.Nodup) (split : cmds = before ++ x :: behind) (first : ∀ a ∈ before, P a) :
    cmds.Pairwise fun a b => b = x → P a := by
  subst split
  obtain ⟨nodupBefore, nodupRest, apart⟩ := List.nodup_append.mp nodup
  refine pairwise_append.mpr ⟨?_, ?_, fun a inside b _ _ => first a inside⟩
  · refine List.Pairwise.imp_of_mem (fun {a b} _ inside _ same => ?_) nodupBefore
    exact absurd same (apart b inside x (by simp))
  · refine pairwise_cons.mpr ⟨fun b inside same => ?_, ?_⟩
    · exact absurd (same ▸ inside) (nodup_cons.mp nodupRest).1
    · refine List.Pairwise.imp_of_mem (fun {a b} _ inside _ same => ?_) nodupRest.of_cons
      exact absurd (same ▸ inside) (nodup_cons.mp nodupRest).1

theorem Matched.front (inv : Matched s) {c : CmdId} {front back : List CmdId}
    (split : s.cmds = front ++ c :: back) (going : (s.course c).going) :
    ∀ a ∈ front, a ∈ pushes s.log := by
  have ready := inv.ready
  rw [split, pairwise_append] at ready
  exact fun a inside => ready.2.2 a inside c (by simp) going

theorem Matched.llindNext (inv : Matched s) {c d x : CmdId} (pcie : s.busType = .pcie)
    (here : s.irq = some c)
    (token : ∀ e ∈ s.cmds, e = c ∨ (s.heap e).tkn ≠ (s.heap c).tkn)
    (scan : llindScan s.heap (s.heap c).tkn none s.cmds = (some d, some x)) :
    x ≠ c ∧ x ∈ s.cmds ∧ (s.flags x).waitPush = true ∧ s.cmds.Pairwise fun a b => b = x → a ∈ pushes s.log := by
  have pushed : c ∈ pushes s.log := (inv.each c).sent (.inr here)
  have unmarked : ∀ e, e ∈ pushes s.log → (s.heap e).flags.waitPush = false := by
    intro e sent
    by_contra marked
    exact ((inv.each e).marked (by simpa [course] using marked)).1 sent
  have linked : c ∈ s.cmds := by
    have inside : d ∈ s.cmds ∧ (s.heap d).tkn = (s.heap c).tkn :=
      llindScan_carries (by rw [scan])
    rcases token d inside.1 with rfl | ne
    · exact inside.1
    · exact absurd inside.2 ne
  obtain ⟨front, back, split⟩ := List.append_of_mem linked
  have nodup := split ▸ inv.nodup
  obtain ⟨-, nodupRest, apart⟩ := List.nodup_append.mp nodup
  have before := inv.front split (.inl pushed)
  -- the scan passes over the front, finds `c` and looks on behind it
  have behind : back.find? (fun e => (s.heap e).flags.waitPush) = some x := by
    have passed : llindScan s.heap (s.heap c).tkn none (front ++ c :: back) =
        llindScan s.heap (s.heap c).tkn none (c :: back) := by
      refine llindScan_front fun e inside => ⟨unmarked e (before e inside), ?_⟩
      have ne : e ≠ c := apart e inside c (by simp)
      exact (token e (by simp [split, inside])).resolve_left ne
    rw [split, passed] at scan
    simp only [llindScan, and_self, if_true, llindScan_found] at scan
    exact congrArg Prod.snd scan
  obtain ⟨marked, mid, rest, split', unmarked'⟩ := List.find?_eq_some_iff_append.mp behind
  have inside : ∀ e ∈ mid ++ x :: rest, e ∈ s.cmds := fun e member => by
    rw [split, split']
    exact List.mem_append_right _ (List.mem_cons_of_mem _ member)
  have alone := inv.alone pcie
  rw [split, pairwise_append, pairwise_cons] at alone
  -- a command behind `c` that is not marked was pushed
  have middle : ∀ e ∈ mid, e ∈ pushes s.log := by
    intro e member
    have ok := inv.each e
    have away : s.pc e ≠ .direct := alone.2.1.1 e (split' ▸ mem_append_left _ member)
    have clear : (s.heap e).flags.waitPush = false := by simpa using unmarked' e member
    rcases ok.owned (ok.linked (inside e (mem_append_left _ member))) with
      waits | here | held | sent
    · simp [course, clear] at waits
    · exact absurd here away
    · simp [(ok.pcie pcie).1] at held
    · exact sent
  refine ⟨fun same => ?_, inside x (by simp), marked, ?_⟩
  · exact absurd (unmarked c pushed) (by simp [← same, marked])
  · have whole : s.cmds = (front ++ c :: mid) ++ x :: rest := by
      rw [split, split', List.append_assoc, List.cons_append]
    refine pairwise_ahead inv.nodup whole fun a member => ?_
    rcases List.mem_append.mp member with first | later
    · exact before a first
    · rcases mem_cons.mp later with rfl | between
      · exact pushed
      · exact middle a between

end Steps

end W2l.Cmd
