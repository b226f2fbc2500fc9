/-
**PCIe: the commands go to the firmware one by one, in the order they were queued.**

Runs on PCIe in which no wait times out or is killed and nothing is drained; acknowledgements and
confirmations come in any order, also confirmations nobody asked for.

* `PcieInv` — the invariant: only the head of the list may be at the firmware, every other command
  still waits for its push and for its acknowledgement.
* `PcieInv.advance` — the hand-over, shared by `cmd_mgr_llind` and `cmd_mgr_msgind`: the head leaves
  and the next command is pushed.
-/

import W2lDriver.Cmd.Structure

namespace W2l.Cmd

open AmlHw
open Lib (System)
open Event (push use)

/-- No wait ends by a time-out or a signal, and nothing is drained. -/
def undisturbed : Act → Bool
  | .expire _ | .kill _ | .timeOut _ | .drain => false
  | _ => true

/-- The commands linked and not yet handed to `ipc_host_msg_push`. -/
def unpushed (s : AmlHw) : List CmdId :=
  match s.cmds with
  | [] => []
  | head :: rest => if s.pc head = .direct then head :: rest else rest

def HeadUnacked (s : AmlHw) (c : CmdId) : Prop :=
  s.cmds.head? = some c ∧ (s.flags c).waitAck = true

/-- What holds between two steps on PCIe. -/
structure PcieInv (s : AmlHw) : Prop where
  bus : s.busType = .pcie
  list : ListInv s
  idle : s.task = .idle
  sem : s.amlMsgSem = 0
  noSignal : ∀ c, s.pc c ≠ .signal
  head : ∀ c ∈ s.cmds.head?, (s.flags c).waitPush = false
  tail : ∀ c ∈ s.cmds.tail, (s.flags c).waitPush = true ∧ (s.flags c).waitAck = true
  direct : ∀ c, s.pc c = .direct → HeadUnacked s c ∧ s.msga2eHostid = none ∧ s.irq = none
  hostid : ∀ c, s.msga2eHostid = some c → HeadUnacked s c ∧ s.irq = none
  irq : ∀ c, s.irq = some c → HeadUnacked s c
  free : ∀ c path busy, Event.push c path busy ∈ s.log → busy = false
  order : links s.log = pushes s.log ++ unpushed s
  nodup : (links s.log).Nodup
  old : ∀ c ∈ links s.log, c < s.newCmd

theorem pcieInv_init : PcieInv (cmdSystem .pcie).init where
  bus := rfl
  list := listInv_init .pcie
  idle := rfl
  sem := rfl
  noSignal := by simp [cmdSystem]
  head := by simp [cmdSystem]
  tail := by simp [cmdSystem]
  direct := by simp [cmdSystem]
  hostid := by simp [cmdSystem]
  irq := by simp [cmdSystem]
  free := by simp [cmdSystem]
  order := rfl
  nodup := by simp [cmdSystem]
  old := by simp [cmdSystem]

section

variable {s : AmlHw} (inv : PcieInv s)

include inv

theorem PcieInv.frame {s' : AmlHw} (list : ListInv s')
    (bus : s'.busType = s.busType) (task : s'.task = s.task) (sem : s'.amlMsgSem = s.amlMsgSem)
    (cmds : s'.cmds = s.cmds) (newCmd : s'.newCmd = s.newCmd)
    (hostid : s'.msga2eHostid = s.msga2eHostid) (irq : s'.irq = s.irq)
    (pc : ∀ c, (s'.pc c = .direct ↔ s.pc c = .direct) ∧ s'.pc c ≠ .signal)
    (flags : ∀ c, (s'.flags c).waitPush = (s.flags c).waitPush ∧ (s'.flags c).waitAck = (s.flags c).waitAck)
    (pushed : ∀ c path busy, push c path busy ∈ s'.log → push c path busy ∈ s.log)
    (links : links s'.log = links s.log) (pushes : pushes s'.log = pushes s.log) : PcieInv s' where
  bus := bus.trans inv.bus
  list := list
  idle := task.trans inv.idle
  sem := sem.trans inv.sem
  noSignal c := (pc c).2
  head c first := by
    rw [(flags c).1]
    exact inv.head c (cmds ▸ first)
  tail c later := by
    rw [(flags c).1, (flags c).2]
    exact inv.tail c (cmds ▸ later)
  direct c here := by
    have before := inv.direct c ((pc c).1.mp here)
    rw [HeadUnacked, cmds, hostid, irq, (flags c).2]
    exact before
  hostid c sent := by
    rw [HeadUnacked, cmds, irq, (flags c).2]
    exact inv.hostid c (hostid ▸ sent)
  irq c taken := by
    rw [HeadUnacked, cmds, (flags c).2]
    exact inv.irq c (irq ▸ taken)
  free c path busy now := inv.free c path busy (pushed c path busy now)
  order := by
    have same : unpushed s' = unpushed s := by
      unfold unpushed
      rw [cmds]
      cases s.cmds with
      | nil => rfl
      | cons head rest => simp only [(pc head).1]
    rw [links, pushes, same]
    exact inv.order
  nodup := links ▸ inv.nodup
  old c linked := newCmd ▸ inv.old c (links ▸ linked)

theorem PcieInv.deferPush : s.deferPush = !s.cmds.isEmpty := by
  unfold AmlHw.deferPush
  cases last : s.cmds.getLast? with
  | none => simp [List.getLast?_eq_none_iff.mp last]
  | some c =>
    have member : c ∈ s.cmds := List.mem_of_getLast? last
    have waits := (inv.list.waited c member).2
    have nonempty : s.cmds ≠ [] := List.ne_nil_of_mem member
    cases ack : (s.heap c).flags.waitAck <;>
      simp_all [CmdFlags.waitComplete, inv.bus]

theorem PcieInv.advance {s' : AmlHw} (list : ListInv s') {head : CmdId}
    {rest : List CmdId} (cmds : s.cmds = head :: rest) (acked : s.pc head ≠ .direct)
    (bus : s'.busType = s.busType) (task : s'.task = s.task) (sem : s'.amlMsgSem = s.amlMsgSem)
    (newCmd : s'.newCmd = s.newCmd) (pc : s'.pc = s.pc) (cmds' : s'.cmds = rest)
    (irq : s'.irq = none) (hostid : ∀ c, s'.msga2eHostid = some c → rest.head? = some c)
    (waitAck : ∀ c ∈ rest, (s'.flags c).waitAck = (s.flags c).waitAck)
    (waitPush : ∀ c ∈ rest, (s'.flags c).waitPush = if rest.head? = some c then false else (s.flags c).waitPush)
    (free : ∀ c path busy, push c path busy ∈ s'.log → busy = false)
    (links : links s'.log = links s.log)
    (pushes : pushes s'.log = pushes s.log ++ rest.head?.toList) : PcieInv s' := by
  -- nobody is about to push: that caller's command would be the head
  have noDirect : ∀ c, s.pc c ≠ .direct := by
    intro c here
    have first := (inv.direct c here).1.1
    rw [cmds, List.head?_cons, Option.some.injEq] at first
    exact acked (first ▸ here)
  have tail : ∀ c ∈ rest, (s.flags c).waitPush = true ∧ (s.flags c).waitAck = true := by
    simpa [cmds] using inv.tail
  constructor
  case bus => exact bus.trans inv.bus
  case list => exact list
  case idle => exact task.trans inv.idle
  case sem => exact sem.trans inv.sem
  case noSignal => exact pc ▸ inv.noSignal
  case head =>
    intro c first
    rw [cmds', Option.mem_def] at first
    rw [waitPush c (List.mem_of_mem_head? first), if_pos first]
  case tail =>
    intro c later
    rw [cmds'] at later
    have member := List.mem_of_mem_tail later
    have notFirst : rest.head? ≠ some c := by
      intro first
      have nodup : rest.Nodup := cmds' ▸ list.nodup
      cases rest with
      | nil => simp at member
      | cons d rest' =>
        obtain rfl : d = c := by simpa using first
        exact (List.nodup_cons.mp nodup).1 later
    rw [waitPush c member, if_neg notFirst, waitAck c member]
    exact tail c member
  case direct =>
    intro c here
    exact absurd (pc ▸ here) (noDirect c)
  case hostid =>
    intro c sent
    have first := hostid c sent
    have member := List.mem_of_mem_head? first
    exact ⟨⟨cmds' ▸ first, (waitAck c member).trans (tail c member).2⟩, irq⟩
  case irq => simp [irq]
  case free => exact free
  case order =>
    have before := inv.order
    rw [unpushed, cmds] at before
    simp only [acked, if_false] at before
    rw [links, before, pushes, unpushed, cmds']
    cases rest with
    | nil => simp
    | cons d rest' => simp [pc, noDirect d]
  case nodup => exact links ▸ inv.nodup
  case old => exact fun c linked => newCmd ▸ inv.old c (links ▸ linked)

/-! ### What each step keeps -/

theorem PcieInv.refuseNew (req : SendReq) (ret : Int)
    (list : ListInv (s.refuseNew req ret)) : PcieInv (s.refuseNew req ret) := by
  have fresh := inv.list.unborn s.newCmd le_rfl
  have distinct : ∀ d ∈ s.cmds, d ≠ s.newCmd := fun d inside same => fresh.1 (same ▸ inside)
  have first : ∀ d, s.cmds.head? = some d → d ≠ s.newCmd := fun d here =>
    distinct d (List.mem_of_mem_head? here)
  constructor <;> simp only [AmlHw.refuseNew]
  case bus => exact inv.bus
  case list => exact list
  case idle => exact inv.idle
  case sem => exact inv.sem
  case noSignal =>
    intro c
    by_cases same : c = s.newCmd <;> simp [same, inv.noSignal]
  case head =>
    intro c here
    simpa [first c here] using inv.head c here
  case tail =>
    intro c later
    simpa [distinct c (List.mem_of_mem_tail later)] using inv.tail c later
  case direct =>
    intro c here
    have ne : c ≠ s.newCmd := by
      rintro rfl
      simp at here
    have before := inv.direct c (by simpa [ne] using here)
    simpa [HeadUnacked, ne] using before
  case hostid =>
    intro c sent
    have before := inv.hostid c sent
    simpa [HeadUnacked, first c before.1.1] using before
  case irq =>
    intro c taken
    have before := inv.irq c taken
    simpa [HeadUnacked, first c before.1] using before
  case free => simpa using inv.free
  case order =>
    have same : ∀ d ∈ s.cmds, Function.update s.pc s.newCmd (.leave ret) d = s.pc d :=
      fun d inside => by simp [distinct d inside]
    have order := inv.order
    unfold unpushed at order ⊢
    cases cmds : s.cmds with
    | nil => simpa [cmds, Event.linked, Event.pushed] using order
    | cons head rest =>
      simpa [cmds, same head (by simp [cmds]), Event.linked, Event.pushed] using order
  case nodup => simpa [Event.linked] using inv.nodup
  case old =>
    intro c linked
    exact Nat.lt_succ_of_lt (inv.old c (by simpa [Event.linked] using linked))

theorem PcieInv.linkNew (req : SendReq)
    (list : ListInv (s.linkNew req)) : PcieInv (s.linkNew req) := by
  have fresh := inv.list.unborn s.newCmd le_rfl
  have distinct : ∀ d ∈ s.cmds, d ≠ s.newCmd := fun d inside same => fresh.1 (same ▸ inside)
  have first : ∀ d, s.cmds.head? = some d → (s.cmds ++ [s.newCmd]).head? = some d ∧ d ≠ s.newCmd := fun d here =>
    ⟨by rw [List.head?_append, here]; rfl, distinct d (List.mem_of_mem_head? here)⟩
  have defer := inv.deferPush
  constructor <;> simp only [AmlHw.linkNew]
  case bus => exact inv.bus
  case list => exact list
  case idle => exact inv.idle
  case sem => exact inv.sem
  case noSignal =>
    intro c
    by_cases same : c = s.newCmd
    · subst same
      cases s.deferPush <;> cases req.nonblock <;> simp
    · simpa [same] using inv.noSignal c
  case head =>
    intro c here
    cases cmds : s.cmds with
    | nil =>
      obtain rfl : s.newCmd = c := by simpa [cmds] using here
      simp [newLinked, defer, cmds]
    | cons head rest =>
      have here' : s.cmds.head? = some c := by simpa [cmds] using here
      simpa [(first c here').2] using inv.head c here'
  case tail =>
    intro c later
    cases cmds : s.cmds with
    | nil => simp [cmds] at later
    | cons head rest =>
      have split : c ∈ rest ∨ c = s.newCmd := by simpa [cmds] using later
      rcases split with before | rfl
      · have ne := distinct c (by simp [cmds, before])
        simpa [ne] using inv.tail c (by simp [cmds, before])
      · simp [newLinked, defer, cmds]
  case direct =>
    intro c here
    by_cases same : c = s.newCmd
    · subst same
      have empty : s.cmds = [] := by
        cases cmds : s.cmds with
        | nil => rfl
        | cons head rest =>
          cases blocking : req.nonblock <;> simp [defer, cmds, blocking] at here
      refine ⟨⟨by simp [empty], by simp [newLinked]⟩, ?_, ?_⟩
      · exact Option.eq_none_iff_forall_ne_some.mpr fun d sent => by
          simpa [empty] using (inv.hostid d sent).1.1
      · exact Option.eq_none_iff_forall_ne_some.mpr fun d taken => by
          simpa [empty] using (inv.irq d taken).1
    · have before := inv.direct c (by simpa [same] using here)
      exact ⟨⟨(first c before.1.1).1, by simpa [same] using before.1.2⟩, before.2⟩
  case hostid =>
    intro c sent
    have before := inv.hostid c sent
    have kept := first c before.1.1
    exact ⟨⟨kept.1, by simpa [kept.2] using before.1.2⟩, before.2⟩
  case irq =>
    intro c taken
    have before := inv.irq c taken
    have kept := first c before.1
    exact ⟨kept.1, by simpa [kept.2] using before.2⟩
  case free => simpa using inv.free
  case order =>
    have order := inv.order
    unfold unpushed at order ⊢
    cases cmds : s.cmds with
    | nil => simpa [cmds, defer, Event.linked, Event.pushed] using order
    | cons head rest =>
      have ne := distinct head (by simp [cmds])
      rw [cmds] at order
      by_cases here : s.pc head = .direct <;>
        simp_all [Event.linked, Event.pushed]
  case nodup =>
    have new : s.newCmd ∉ Cmd.links s.log := fun inside => absurd (inv.old _ inside) (Nat.lt_irrefl _)
    simpa [Event.linked, List.nodup_append] using ⟨inv.nodup, fun c inside same => new (same ▸ inside)⟩
  case old =>
    intro c linked
    simp only [links_cons, Event.linked, Option.toList_some, List.mem_append, List.mem_singleton] at linked
    rcases linked with before | rfl
    · exact Nat.lt_succ_of_lt (inv.old c before)
    · exact Nat.lt_succ_self _

theorem PcieInv.amlSendMsg (req : SendReq) (env : SendEnv) : PcieInv (s.amlSendMsg req env) := by
  have list := inv.list.amlSendMsg req env
  have fresh := inv.list.unborn s.newCmd le_rfl
  rcases amlSendMsg_cases fresh.1 req env with
    ⟨ret, same⟩ | ⟨-, same⟩ | ⟨-, -, same⟩ | ⟨-, -, same⟩ <;> rw [same] at list ⊢
  · exact inv.frame list rfl rfl rfl rfl rfl rfl rfl (by simp [inv.noSignal]) (by simp) (by simp)
      (by simp [Event.linked]) (by simp [Event.pushed])
  · exact inv.refuseNew req _ list
  · exact inv.refuseNew req _ list
  · exact inv.linkNew req list

theorem PcieInv.pushNow {c : CmdId} (here : s.pc c = .direct)
    (list : ListInv (s.pushNow c)) : PcieInv (s.pushNow c) := by
  obtain ⟨unacked, mailbox, irq⟩ := inv.direct c here
  obtain ⟨rest, cmds⟩ : ∃ rest, s.cmds = c :: rest := List.head?_eq_some_iff.mp unacked.1
  have bus := inv.bus
  have pushed : s.pushNow c = (s.ipcHostMsgPush c .queue).goto c .freeMsg := by
    simp [AmlHw.pushNow, bus]
  rw [pushed, ipcHostMsgPush_eq] at list ⊢
  constructor <;> simp only [goto]
  case bus => exact bus
  case list => exact list
  case idle => exact inv.idle
  case sem => exact inv.sem
  case noSignal =>
    intro d
    by_cases same : d = c <;> simp [same, inv.noSignal]
  case head => exact inv.head
  case tail => exact inv.tail
  case direct =>
    intro d here'
    have ne : d ≠ c := by
      rintro rfl
      simp at here'
    have other := (inv.direct d (by simpa [ne] using here')).1.1
    simp [cmds, ne.symm] at other
  case hostid =>
    intro d sent
    have same : d = c := by
      split at sent
      · simp [mailbox] at sent
      · exact (Option.some.inj sent).symm
    rw [same]
    exact ⟨unacked, irq⟩
  case irq =>
    intro d taken
    simp [irq] at taken
  case free => simpa [mailbox] using inv.free
  case order =>
    have order := inv.order
    simp only [unpushed, cmds, here, if_true] at order
    simp [unpushed, cmds, order, Event.linked, Event.pushed]
  case nodup => simpa [Event.linked] using inv.nodup
  case old => simpa [Event.linked] using inv.old

end

/-- The scan of `cmd_mgr_llind` for the head finds the head and its successor. -/
theorem llindScan_head {heap : CmdId → AmlCmd} {head : CmdId} {rest : List CmdId}
    (tail : ∀ c ∈ rest, (heap c).flags.waitPush = true) :
    llindScan heap (heap head).tkn none (head :: rest) = (some head, rest.head?) := by
  cases rest with
  | nil => simp [llindScan]
  | cons next rest => simp [llindScan, tail next (by simp)]

/-- The head of `s` has left and its successor has been pushed. -/
def HandedOver (s s' : AmlHw) : Prop :=
  ∀ head rest, s.cmds = head :: rest → s'.cmds = rest ∧ pushes s'.log = pushes s.log ++ rest.head?.toList

section

variable {s : AmlHw} (inv : PcieInv s)

include inv

theorem PcieInv.complete_head {t : AmlHw} {head : CmdId} {rest : List CmdId}
    (cmds : s.cmds = head :: rest) (acked : s.pc head ≠ .direct)
    (path : PushPath) (bus : t.busType = s.busType) (task : t.task = s.task)
    (sem : t.amlMsgSem = s.amlMsgSem) (newCmd : t.newCmd = s.newCmd) (pc : t.pc = s.pc)
    (cmds' : t.cmds = rest) (irq : t.irq = none) (hostid : t.msga2eHostid = none)
    (flags : ∀ c ∈ rest, t.flags c = s.flags c)
    (free : ∀ c path busy, push c path busy ∈ t.log → busy = false)
    (links : links t.log = links s.log) (pushes : pushes t.log = pushes s.log)
    (list : ListInv (match rest.head? with | none => t | some next => t.pushNext next path)) :
    PcieInv (match rest.head? with | none => t | some next => t.pushNext next path) ∧
      HandedOver s (match rest.head? with | none => t | some next => t.pushNext next path) := by
  constructor
  case right =>
    intro head' rest' cmds''
    obtain ⟨-, rfl⟩ : head = head' ∧ rest = rest' := by simpa [cmds] using cmds''
    cases rest with
    | nil => exact ⟨cmds', by simpa using pushes⟩
    | cons next rest =>
      simp only [List.head?_cons, AmlHw.pushNext, ipcHostMsgPush_eq, onFlags, onCmd, emit]
      exact ⟨cmds', by simpa [Event.pushed] using pushes⟩
  cases rest with
  | nil =>
    refine inv.advance list cmds acked bus task sem newCmd pc cmds' irq ?_ ?_ ?_ free links ?_
    · simp [hostid]
    · simp
    · simp
    · simpa using pushes
  | cons next rest =>
    refine inv.advance list cmds acked ?_ ?_ ?_ ?_ ?_ ?_ ?_ ?_ ?_ ?_ ?_ ?_ ?_
    all_goals simp only [List.head?_cons, AmlHw.pushNext, ipcHostMsgPush_eq, onFlags, onCmd, emit]
    · exact bus
    · exact task
    · exact sem
    · exact newCmd
    · exact pc
    · exact cmds'
    · exact irq
    · intro c sent
      by_cases off : t.busType = .pcie ∧ t.gPciShutdown = true
      · simp [off, hostid] at sent
      · simpa [off] using sent
    · intro c member
      have same := flags c member
      by_cases first : c = next
      · subst first
        simpa using congrArg CmdFlags.waitAck same
      · simpa [first] using congrArg CmdFlags.waitAck same
    · intro c member
      have same := flags c member
      by_cases first : c = next
      · simp [first]
      · have ne : next ≠ c := fun same => first same.symm
        simpa [first, ne] using congrArg CmdFlags.waitPush same
    · simpa [hostid] using free
    · simpa [Event.linked] using links
    · simpa [Event.pushed] using pushes

theorem PcieInv.quiet_of_irq {c : CmdId} (here : s.irq = some c) : s.msga2eHostid = none ∧ ∀ d, s.pc d ≠ .direct := by
  constructor
  · exact Option.eq_none_iff_forall_ne_some.mpr fun d sent => by
      simpa [here] using (inv.hostid d sent).2
  · intro d direct
    simpa [here] using (inv.direct d direct).2.2

theorem PcieInv.llind {c : CmdId} (here : s.irq = some c)
    (list : ListInv (s.takeIrq.cmdMgrLlind c)) :
    PcieInv (s.takeIrq.cmdMgrLlind c) ∧
      ((s.takeIrq.cmdMgrLlind c).cmds = s.cmds ∨ HandedOver s (s.takeIrq.cmdMgrLlind c)) := by
  obtain ⟨first, waitAck⟩ := inv.irq c here
  obtain ⟨rest, cmds⟩ : ∃ rest, s.cmds = c :: rest := List.head?_eq_some_iff.mp first
  obtain ⟨mailbox, noDirect⟩ := inv.quiet_of_irq here
  have tail : ∀ d ∈ rest, (s.flags d).waitPush = true ∧ (s.flags d).waitAck = true := by
    simpa [cmds] using inv.tail
  have nodup : c ∉ rest := (List.nodup_cons.mp (cmds ▸ inv.list.nodup)).1
  have scan : llindScan s.heap (s.heap c).tkn none s.cmds = (some c, rest.head?) := by
    rw [cmds]
    exact llindScan_head fun d member => (tail d member).1
  have bus := inv.bus
  cases waits : (s.flags c).waitCfm with
  | true =>
    -- the confirmation is still to come: the head stays
    have stays : (s.takeIrq.cmdMgrLlind c) = (s.takeIrq.llindAcked c rest.head?) := by
      rw [cmdMgrLlind_waits (s := s.takeIrq) scan waits]
      cases rest.head? <;> simp [handOver, llindAcked, llindSeen, takeIrq, bus]
    rw [stays] at list ⊢
    refine ⟨?_, .inl rfl⟩
    constructor
    case list => exact list
    all_goals simp only [llindAcked, llindSeen, takeIrq, onFlags, onCmd]
    case bus => exact bus
    case idle => exact inv.idle
    case sem => exact inv.sem
    case noSignal => exact inv.noSignal
    case head =>
      intro d here
      obtain rfl : c = d := by simpa [cmds] using here
      simpa using inv.head c first
    case tail =>
      intro d later
      have member : d ∈ rest := by simpa [cmds] using later
      have ne : d ≠ c := fun same => nodup (same ▸ member)
      simpa [ne] using tail d member
    case direct => exact fun d direct => absurd direct (noDirect d)
    case hostid => simp [mailbox]
    case irq => simp
    case free => simpa using inv.free
    case order => simpa [unpushed, Event.linked, Event.pushed] using inv.order
    case nodup => simpa [Event.linked] using inv.nodup
    case old => simpa [Event.linked] using inv.old
  | false =>
    -- nothing is waited for any more: the head leaves
    have leaves : (s.takeIrq.cmdMgrLlind c) =
        match rest.head? with
        | none => (s.takeIrq.llindAcked c rest.head?).cmdComplete c
        | some next =>
          ((s.takeIrq.llindAcked c rest.head?).cmdComplete c).pushNext next .llind := by
      rw [cmdMgrLlind_done (s := s.takeIrq) scan waits]
      cases rest.head? <;> simp [handOver, cmdComplete_eq, llindAcked, llindSeen, takeIrq, bus]
    rw [leaves] at list ⊢
    refine (inv.complete_head cmds (noDirect c) .llind ?_ ?_ ?_ ?_ ?_ ?_ ?_ ?_ ?_ ?_ ?_ ?_ list).imp
      id .inr
    all_goals simp only [cmdComplete_eq, llindAcked, llindSeen, takeIrq, onFlags, onCmd]
    · simp [cmds]
    · exact mailbox
    · intro d member
      have ne : d ≠ c := fun same => nodup (same ▸ member)
      simp [ne]
    · intro d path busy now
      refine inv.free d path busy ?_
      cases blocking : (s.heap c).flags.nonblock <;> simpa [blocking] using now
    · cases blocking : (s.heap c).flags.nonblock <;> simp [Event.linked]
    · cases blocking : (s.heap c).flags.nonblock <;> simp [Event.pushed]

/-- A confirmation completes the head or nobody: any other command still waits for its
acknowledgement. -/
theorem PcieInv.msgind (msg : E2aMsg) (accept : Bool)
    (list : ListInv (s.cmdMgrMsgind msg accept)) :
    PcieInv (s.cmdMgrMsgind msg accept) ∧ ((s.cmdMgrMsgind msg accept).cmds = s.cmds ∨
        HandedOver s (s.cmdMgrMsgind msg accept)) := by
  cases found : (if accept then s.awaiting msg.id else none) with
  | none =>
    rw [cmdMgrMsgind_none found] at list ⊢
    refine ⟨?_, .inl rfl⟩
    exact inv.frame list rfl rfl rfl rfl rfl rfl rfl (by simp [msgindSeen, inv.noSignal])
      (by simp [msgindSeen]) (by simp [msgindSeen]) (by simp [msgindSeen, Event.linked])
      (by simp [msgindSeen, Event.pushed])
  | some c =>
    have member : c ∈ s.cmds := (awaiting_spec found).1
    cases acked : (s.flags c).waitAck with
    | true =>
      rw [cmdMgrMsgind_waits found acked] at list ⊢
      refine ⟨inv.frame list rfl rfl rfl rfl rfl rfl rfl ?_ ?_ ?_ ?_ ?_, .inl rfl⟩
      all_goals simp only [msgindConfirmed, msgindSeen, emit, onCmd]
      · simp [inv.noSignal]
      · intro d
        by_cases same : d = c <;> simp [same, confirmed]
      · simp
      · simp [Event.linked]
      · simp [Event.pushed]
    | false =>
      obtain ⟨head, rest, cmds⟩ : ∃ head rest, s.cmds = head :: rest :=
        List.exists_cons_of_ne_nil (List.ne_nil_of_mem member)
      have first : c = head := by
        rw [cmds] at member
        rcases List.mem_cons.mp member with same | later
        · exact same
        · have := (inv.tail c (by simpa [cmds] using later)).2
          simp [this] at acked
      subst first
      have tail : ∀ d ∈ rest, (s.flags d).waitPush = true ∧ (s.flags d).waitAck = true := by
        simpa [cmds] using inv.tail
      have nodup : c ∉ rest := (List.nodup_cons.mp (cmds ▸ inv.list.nodup)).1
      have noDirect : s.pc c ≠ .direct := fun direct => by
        simp [(inv.direct c direct).1.2] at acked
      have mailbox : s.msga2eHostid = none :=
        Option.eq_none_iff_forall_ne_some.mpr fun d sent => by
          have unacked := (inv.hostid d sent).1
          obtain rfl : c = d := by simpa [cmds] using unacked.1
          simp [unacked.2] at acked
      have irq : s.irq = none :=
        Option.eq_none_iff_forall_ne_some.mpr fun d taken => by
          have unacked := inv.irq d taken
          obtain rfl : c = d := by simpa [cmds] using unacked.1
          simp [unacked.2] at acked
      have next : listNext s.cmds c = rest.head? := by
        rw [listNext, cmds, List.idxOf_cons_self]
        cases rest <;> rfl
      let seen : AmlHw := { (s.msgindConfirmed msg c).cmdComplete c with
        log := rest.head?.toList.map use ++ ((s.msgindConfirmed msg c).cmdComplete c).log }
      have leaves : s.cmdMgrMsgind msg accept =
          match rest.head? with | none => seen | some next => seen.pushNext next .msgind := by
        have bus : ((s.msgindConfirmed msg c).cmdComplete c).busType = .pcie := by
          simpa [cmdComplete_eq, msgindConfirmed, msgindSeen] using inv.bus
        rw [cmdMgrMsgind_done found acked, next]
        cases rest with
        | nil => simp [handNext, seen]
        | cons d rest =>
          have ne : d ≠ c := fun same => nodup (by simp [same])
          have waits : (((s.msgindConfirmed msg c).cmdComplete c).flags d).waitPush = true := by
            simpa [cmdComplete_eq, msgindConfirmed, msgindSeen, ne] using (tail d (by simp)).1
          simp [handNext, seen, bus, waits]
      rw [leaves] at list ⊢
      refine (inv.complete_head cmds noDirect .msgind ?_ ?_ ?_ ?_ ?_ ?_ ?_ ?_ ?_ ?_ ?_ ?_ list).imp
        id .inr
      all_goals simp only [seen, cmdComplete_eq, msgindConfirmed, msgindSeen, emit, onCmd]
      · simp [cmds]
      · exact irq
      · exact mailbox
      · intro d member
        have ne : d ≠ c := fun same => nodup (same ▸ member)
        simp [ne]
      · intro d path busy now
        refine inv.free d path busy ?_
        cases blocking : (s.heap c).flags.nonblock <;> simpa [blocking, confirmed] using now
      · cases rest <;> cases blocking : (s.heap c).flags.nonblock <;>
          simp [blocking, confirmed, Event.linked]
      · cases rest <;> cases blocking : (s.heap c).flags.nonblock <;>
          simp [blocking, confirmed, Event.pushed]

theorem PcieInv.msgack (list : ListInv s.msgackHandler) : PcieInv s.msgackHandler := by
  unfold msgackHandler at list ⊢
  cases sent : s.msga2eHostid with
  | none => exact inv
  | some c =>
    simp only [sent] at list ⊢
    obtain ⟨unacked, irq⟩ := inv.hostid c sent
    constructor
    case list => exact list
    all_goals simp only [emit]
    case bus => exact inv.bus
    case idle => exact inv.idle
    case sem => exact inv.sem
    case noSignal => exact inv.noSignal
    case head => exact inv.head
    case tail => exact inv.tail
    case direct =>
      intro d direct
      simpa [sent] using (inv.direct d direct).2.1
    case hostid => simp
    case irq =>
      intro d taken
      obtain rfl : c = d := by simpa using taken
      exact unacked
    case free => simpa using inv.free
    case order => simpa [unpushed, Event.linked, Event.pushed] using inv.order
    case nodup => simpa [Event.linked] using inv.nodup
    case old => simpa [Event.linked] using inv.old

theorem PcieInv.leave {c : CmdId} {pc : CallerPc} (es : List Event)
    (list : ListInv { s with pc := Function.update s.pc c pc, log := es ++ s.log })
    (here : s.pc c ≠ .direct) (calm : pc ≠ .direct ∧ pc ≠ .signal)
    (quiet : ∀ e ∈ es, e.linked = none ∧ e.pushed = none) :
    PcieInv { s with pc := Function.update s.pc c pc, log := es ++ s.log } := by
  have links : Cmd.links (es ++ s.log) = Cmd.links s.log ∧ Cmd.pushes (es ++ s.log) = Cmd.pushes s.log := by
    clear list
    induction es with
    | nil => exact ⟨rfl, rfl⟩
    | cons e es ih =>
      have rest := ih fun e' later => quiet e' (by simp [later])
      have now := quiet e (by simp)
      simp [now.1, now.2, rest.1, rest.2]
  refine inv.frame list rfl rfl rfl rfl rfl rfl rfl ?_ (fun _ => ⟨rfl, rfl⟩) ?_ links.1 links.2
  · intro d
    by_cases same : d = c
    · simp [same, here, calm]
    · simp [same, inv.noSignal]
  · intro d path busy now
    rcases List.mem_append.mp now with new | old
    · simpa [Event.pushed] using (quiet _ new).2
    · exact old

theorem PcieInv.orderly {a : Act} (calm : undisturbed a = true) : orderly s a = true := by
  cases a with
  | drain => simp [undisturbed] at calm
  | llind =>
    cases taken : s.irq with
    | none => simp [Cmd.orderly, taken]
    | some c => simp [Cmd.orderly, taken, List.mem_of_mem_head? (inv.irq c taken).1]
  | _ => rfl

theorem pcieInv_step {s' : AmlHw} {a : Act} (calm : undisturbed a = true)
    (stepped : s.step a = some s') : PcieInv s' := by
  have list : ListInv s' := listInv_step inv.list (inv.orderly calm) stepped
  have notAfter : ∀ c, s.afterPush c ≠ .direct ∧ s.afterPush c ≠ .signal := by
    intro c
    unfold AmlHw.afterPush
    split <;> simp
  cases (step_cases stepped).2 with
  | sendMsg req env => exact inv.amlSendMsg req env
  | pushNow c here => exact inv.pushNow here list
  | signal c here => exact absurd here (inv.noSignal c)
  | freeMsg c here =>
    exact inv.leave [.freeMsg c, .use c] list (by simp [here]) (notAfter c) (by simp [Event.linked, Event.pushed])
  | wake c here done =>
    exact inv.leave [.use c] list (by simp [here]) (by simp) (by simp [Event.linked, Event.pushed])
  | expire c here undone => simp [undisturbed] at calm
  | kill c here undone => simp [undisturbed] at calm
  | poll c here =>
    rw [poll_eq] at list ⊢
    by_cases done : (s.flags c).done = true
    · rw [if_pos done] at list ⊢
      exact inv.leave [.use c] list (by simp [here]) (by simp) (by simp [Event.linked, Event.pushed])
    · rw [if_neg done] at list ⊢
      exact inv.frame list rfl rfl rfl rfl rfl rfl rfl (by simp [inv.noSignal]) (by simp) (by simp)
        (by simp [Event.linked]) (by simp [Event.pushed])
  | timeOut c here => simp [undisturbed] at calm
  | finish c ret here =>
    rw [finish_eq] at list ⊢
    refine inv.leave _ list (by simp [here]) (by simp) ?_
    cases (s.flags c).nonblock <;> by_cases ok : ret = 0 <;> simp [ok, Event.linked, Event.pushed]
  | msgack free => exact inv.msgack list
  | llind c here => exact (inv.llind here list).1
  | msgind msg accept => exact (inv.msgind msg accept list).1
  | drain => simp [undisturbed] at calm
  | taskWake here up => simp [inv.sem] at up
  | taskClear cursor here => simp [inv.idle] at here
  | taskPush c here => simp [inv.idle] at here
  | taskFree c here => simp [inv.idle] at here
  | crash =>
    exact inv.frame list rfl rfl rfl rfl rfl rfl rfl (by simp [inv.noSignal]) (by simp) (by simp)
      rfl rfl
  | pciShutdown =>
    exact inv.frame list rfl rfl rfl rfl rfl rfl rfl (by simp [inv.noSignal]) (by simp) (by simp)
      rfl rfl
  | devStop =>
    exact inv.frame list rfl rfl rfl rfl rfl rfl rfl (by simp [inv.noSignal]) (by simp) (by simp)
      rfl rfl

end

theorem PcieInv.of_reachable {s : AmlHw}
    (reach : (cmdSystem .pcie).Reachable (fun _ a => undisturbed a = true) s) : PcieInv s :=
  reach.invariant pcieInv_init fun _ _ _ _ inv calm stepped => pcieInv_step inv calm stepped

theorem PcieInv.stays_or_handedOver {s s' : AmlHw} {a : Act} (inv : PcieInv s)
    (calm : undisturbed a = true) (stepped : s.step a = some s') :
    (∀ c ∈ s.cmds, c ∈ s'.cmds) ∨ HandedOver s s' := by
  have list : ListInv s' := listInv_step inv.list (inv.orderly calm) stepped
  have same : ∀ {t : AmlHw}, t.cmds = s.cmds → (∀ c ∈ s.cmds, c ∈ t.cmds) ∨ HandedOver s t :=
    fun cmds => .inl fun c member => cmds ▸ member
  cases (step_cases stepped).2 with
  | sendMsg req env =>
    have fresh := inv.list.unborn s.newCmd le_rfl
    left
    rcases amlSendMsg_cases fresh.1 req env with
      ⟨ret, same⟩ | ⟨-, same⟩ | ⟨-, -, same⟩ | ⟨-, -, same⟩ <;>
      simp +contextual [same, AmlHw.refuseNew, AmlHw.linkNew]
  | pushNow c here =>
    refine same ?_
    unfold AmlHw.pushNow
    split <;> simp [ipcHostMsgPush_eq]
  | signal c here => exact same rfl
  | freeMsg c here => exact same rfl
  | wake c here done => exact same rfl
  | expire c here undone => exact same rfl
  | kill c here undone => exact same rfl
  | poll c here => exact same (by rw [poll_eq])
  | timeOut c here => simp [undisturbed] at calm
  | finish c ret here => exact same (by rw [finish_eq])
  | msgack free =>
    refine same ?_
    unfold msgackHandler
    split <;> rfl
  | llind c here =>
    rcases (inv.llind here list).2 with kept | handed
    · exact same kept
    · exact .inr handed
  | msgind msg accept =>
    rcases (inv.msgind msg accept list).2 with kept | handed
    · exact same kept
    · exact .inr handed
  | drain => simp [undisturbed] at calm
  | taskWake here up => simp [inv.sem] at up
  | taskClear cursor here => simp [inv.idle] at here
  | taskPush c here => simp [inv.idle] at here
  | taskFree c here => simp [inv.idle] at here
  | crash => exact same rfl
  | pciShutdown => exact same rfl
  | devStop => exact same rfl

/-! ### The pipeline -/

/-- The commands go out one by one: what the state and the history of a PCIe driver look like. -/
structure Pipelined (s : AmlHw) : Prop where
  head : ∀ head rest, s.cmds = head :: rest →
    (s.flags head).waitPush = false ∧ ∀ c ∈ rest, (s.flags c).waitPush = true
  free : ∀ c path busy, Event.push c path busy ∈ s.log → busy = false
  once : (pushes s.log).Nodup
  order : links s.log = pushes s.log ++ unpushed s
  sent : ∀ c ∈ links s.log, c ∉ s.cmds → (pushes s.log).count c = 1

end W2l.Cmd
