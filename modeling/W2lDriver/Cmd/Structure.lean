/-
**The command list is sound until a drain meets a waiter that has given up.**

* `ListInv` — the invariant behind it: a linked command is still waited for and not `DONE`; a waiter
  that timed out or was killed finds its command `DONE` or linked.
* `orderly` — the steps after which the list stays sound: no drain while the waiter of a linked
  command has given up its wait, and no acknowledgement that completes an unlinked command because
  another linked command carries its token.
-/

import Mathlib.Data.List.Nodup
import W2lDriver.Cmd.Machine

namespace W2l.Cmd

open AmlHw
open Lib (System)
open List (mem_append mem_cons mem_cons_of_mem mem_erase_of_ne mem_of_mem_erase)
open CmdFlags (waitComplete)

/-! ### The invariant -/

def CallerPc.Pending : CallerPc → Prop
  | .direct | .signal | .freeMsg | .wait => True
  | _ => False

/-- The caller has given up its wait and not yet looked at `DONE` under the lock. -/
def CallerPc.gaveUp : CallerPc → Bool
  | .expired | .killed => true
  | _ => false

/-- What holds between two steps of an orderly run. -/
structure ListInv (s : AmlHw) : Prop where
  nodup : s.cmds.Nodup
  size : s.queueSz.toNat = s.cmds.length
  maxSz : s.maxQueueSz = amlCmdMaxQueued
  room : s.cmds.length ≤ amlCmdMaxQueued.toNat
  waited : ∀ c ∈ s.cmds, (s.flags c).done = false ∧ (s.flags c).waitComplete = false
  gaveUp : ∀ c, (s.pc c).gaveUp = true → (s.flags c).done = true ∨ c ∈ s.cmds
  pending : ∀ c, (s.flags c).nonblock = false → (s.pc c).Pending → c ∈ s.cmds ∨ (s.heap c).complete = true
  blocks : ∀ c, s.pc c = .wait → (s.flags c).nonblock = false
  unborn : ∀ c, s.newCmd ≤ c → c ∉ s.cmds ∧ s.pc c = .unborn
  linked : ∀ c b, Event.complete c b ∈ s.log → b = true

theorem listInv_init (bus : BusType) : ListInv (cmdSystem bus).init where
  nodup := List.nodup_nil
  size := rfl
  maxSz := rfl
  room := Nat.zero_le _
  waited := by simp [cmdSystem]
  gaveUp := by simp [cmdSystem, CallerPc.gaveUp]
  pending := by simp [cmdSystem, CallerPc.Pending]
  blocks := by simp [cmdSystem]
  unborn := by simp [cmdSystem]
  linked := by simp [cmdSystem]

section

variable {s : AmlHw} (inv : ListInv s)

include inv

theorem ListInv.frame {s' : AmlHw} (cmds : s'.cmds = s.cmds)
    (queueSz : s'.queueSz = s.queueSz) (maxQueueSz : s'.maxQueueSz = s.maxQueueSz)
    (newCmd : s'.newCmd = s.newCmd) (pc : s'.pc = s.pc)
    (heap : ∀ c, (s'.flags c).done = (s.flags c).done ∧
      (s'.flags c).nonblock = (s.flags c).nonblock ∧ (s'.heap c).complete = (s.heap c).complete ∧
      ((s.flags c).waitComplete = false → (s'.flags c).waitComplete = false))
    (log : ∀ c b, Event.complete c b ∈ s'.log → Event.complete c b ∈ s.log) : ListInv s' where
  nodup := cmds ▸ inv.nodup
  size := by rw [queueSz, cmds, inv.size]
  maxSz := maxQueueSz ▸ inv.maxSz
  room := cmds ▸ inv.room
  waited c member := by
    obtain ⟨done, -, -, waits⟩ := heap c
    have before := inv.waited c (cmds ▸ member)
    exact ⟨done.trans before.1, waits before.2⟩
  gaveUp c given := by
    rw [pc] at given
    rw [cmds, (heap c).1]
    exact inv.gaveUp c given
  pending c blocking waits := by
    obtain ⟨-, nonblock, complete, -⟩ := heap c
    rw [pc] at waits
    rw [cmds, complete]
    exact inv.pending c (nonblock ▸ blocking) waits
  blocks c waits := (heap c).2.1.trans (inv.blocks c (pc ▸ waits))
  unborn c old := by
    rw [cmds, pc]
    exact inv.unborn c (newCmd ▸ old)
  linked c b done := inv.linked c b (log c b done)

theorem ListInv.goto (c : CmdId) (pc : CallerPc)
    (born : s.pc c ≠ .unborn)
    (gaveUp : pc.gaveUp = true → (s.flags c).done = true ∨ c ∈ s.cmds)
    (pending : (s.flags c).nonblock = false → pc.Pending → (s.pc c).Pending)
    (blocks : pc = .wait → (s.flags c).nonblock = false) :
    ListInv (s.goto c pc) where
  nodup := inv.nodup
  size := inv.size
  maxSz := inv.maxSz
  room := inv.room
  waited := inv.waited
  gaveUp d given := by
    by_cases same : d = c
    · subst same
      simpa using gaveUp (by simpa using given)
    · exact inv.gaveUp d (by simpa [same] using given)
  pending d blocking waits := by
    by_cases same : d = c
    · subst same
      exact inv.pending d blocking (pending blocking (by simpa using waits))
    · exact inv.pending d blocking (by simpa [same] using waits)
  blocks d waits := by
    by_cases same : d = c
    · subst same
      exact blocks (by simpa using waits)
    · exact inv.blocks d (by simpa [same] using waits)
  unborn d old := by
    have ne : d ≠ c := fun same => born (same ▸ (inv.unborn d old).2)
    simpa [ne] using inv.unborn d old
  linked := inv.linked

/-! ### What each lock section keeps -/

theorem ListInv.cmdComplete {c : CmdId} (member : c ∈ s.cmds)
    (f : AmlCmd → AmlCmd) (nonblock : (f (s.heap c)).flags.nonblock = (s.heap c).flags.nonblock)
    (complete : (f (s.heap c)).complete = (s.heap c).complete)
    (ready : (f (s.heap c)).flags.waitComplete = true ∨ ¬ (s.pc c).Pending) :
    ListInv ((s.onCmd c f).cmdComplete c) := by
  have positive : 0 < s.cmds.length := List.length_pos_of_mem member
  have size := inv.size
  have room := inv.room
  constructor <;> simp only [cmdComplete_eq, onCmd]
  case nodup => exact inv.nodup.erase c
  case size =>
    have small : amlCmdMaxQueued.toNat = 8 := rfl
    have one : (1 : BitVec 32).toNat = 1 := rfl
    rw [List.length_erase_of_mem member, ← size, BitVec.toNat_sub, one]
    omega
  case maxSz => exact inv.maxSz
  case room =>
    rw [List.length_erase_of_mem member]
    omega
  case waited =>
    intro d inside
    have ne : d ≠ c := fun same => inv.nodup.not_mem_erase (same ▸ inside)
    simpa [ne] using inv.waited d (mem_of_mem_erase inside)
  case gaveUp =>
    intro d given
    by_cases same : d = c
    · subst same
      simp [completed]
    · simpa [same, mem_erase_of_ne] using inv.gaveUp d given
  case pending =>
    intro d blocking waits
    by_cases same : d = c
    · subst same
      have blocking' : (s.heap d).flags.nonblock = false := by
        simpa [completed, nonblock] using blocking
      rcases ready with woken | left
      · simp [completed, nonblock, blocking', woken]
      · exact absurd waits left
    · simpa [same, mem_erase_of_ne] using
        inv.pending d (by simpa [same] using blocking) waits
  case blocks =>
    intro d waits
    by_cases same : d = c
    · subst same
      simpa [completed, nonblock] using inv.blocks d waits
    · simpa [same] using inv.blocks d waits
  case unborn =>
    intro d old
    exact ⟨fun inside => (inv.unborn d old).1 (mem_of_mem_erase inside), (inv.unborn d old).2⟩
  case linked =>
    intro d b done
    simp only [mem_append, mem_cons, Event.complete.injEq] at done
    rcases done with freed | ⟨-, rfl⟩ | old
    · split at freed <;> simp at freed
    · simpa using member
    · exact inv.linked d b old

theorem ListInv.emit {e : Event} (other : ∀ c b, e ≠ .complete c b) : ListInv (s.emit e) :=
  inv.frame rfl rfl rfl rfl rfl (by simp) fun c b done => by
    simpa [(other c b).symm] using done

theorem ListInv.ipcHostMsgPush (c : CmdId) (path : PushPath) : ListInv (s.ipcHostMsgPush c path) := by
  rw [ipcHostMsgPush_eq]
  exact inv.frame rfl rfl rfl rfl rfl (by simp) (by simp)

/-- Setting or clearing `WAIT_PUSH`. -/
theorem ListInv.setWaitPush (c : CmdId) (value : Bool) :
    ListInv (s.onFlags c fun flags => { flags with waitPush := value }) :=
  inv.frame rfl rfl rfl rfl rfl (fun d => by by_cases same : d = c <;> simp [same, waitComplete]) fun _ _ => id

theorem ListInv.pushNext (c : CmdId) (path : PushPath) : ListInv (s.pushNext c path) :=
  ((inv.setWaitPush c false).ipcHostMsgPush c path).emit (by simp)

theorem ListInv.handOver (next : Option CmdId) (complete : Bool) : ListInv (s.handOver next complete) := by
  cases next with
  | none => exact inv
  | some next =>
    simp only [AmlHw.handOver]
    split_ifs
    · exact inv.frame rfl rfl rfl rfl rfl (by simp) (by simp)
    · exact inv.pushNext next .llind
    · exact inv

theorem ListInv.handNext (next : Option CmdId) : ListInv (s.handNext next) := by
  cases next with
  | none => exact inv
  | some next =>
    simp only [AmlHw.handNext]
    split_ifs
    · exact (inv.emit (by simp)).pushNext next .msgind
    · exact inv.emit (by simp)
    · exact inv

theorem ListInv.linked_of_waits {c : CmdId} (here : s.pc c = .wait)
    (undone : (s.heap c).complete = false) : c ∈ s.cmds := by
  rcases inv.pending c (inv.blocks c here) (by simp [here, CallerPc.Pending]) with inside | done
  · exact inside
  · simp [undone] at done

/-- A call makes no command, or one that is refused, or one that is linked and waited for. -/
theorem ListInv.amlSendMsg (req : SendReq) (env : SendEnv) : ListInv (s.amlSendMsg req env) := by
  have fresh := inv.unborn s.newCmd le_rfl
  have distinct : ∀ d ∈ s.cmds, d ≠ s.newCmd := fun d inside same => fresh.1 (same ▸ inside)
  have refused : ∀ ret, ListInv (s.refuseNew req ret) := by
    intro ret
    constructor <;> simp only [refuseNew]
    case nodup => exact inv.nodup
    case size => exact inv.size
    case maxSz => exact inv.maxSz
    case room => exact inv.room
    case waited =>
      intro d inside
      simpa [distinct d inside] using inv.waited d inside
    case gaveUp =>
      intro d given
      by_cases same : d = s.newCmd
      · simp [same, CallerPc.gaveUp] at given
      · simpa [same] using inv.gaveUp d (by simpa [same] using given)
    case pending =>
      intro d blocking waits
      by_cases same : d = s.newCmd
      · simp [same, CallerPc.Pending] at waits
      · simpa [same] using
          inv.pending d (by simpa [same] using blocking) (by simpa [same] using waits)
    case blocks =>
      intro d waits
      by_cases same : d = s.newCmd
      · simp [same] at waits
      · simpa [same] using inv.blocks d (by simpa [same] using waits)
    case unborn =>
      intro d old
      have ne : d ≠ s.newCmd := Nat.ne_of_gt old
      simpa [ne] using inv.unborn d (Nat.le_of_succ_le old)
    case linked => simpa using inv.linked
  rcases amlSendMsg_cases fresh.1 req env with
    ⟨ret, same⟩ | ⟨-, same⟩ | ⟨-, -, same⟩ | ⟨-, notFull, same⟩ <;> rw [same]
  · exact inv.emit (by simp)
  · exact refused _
  · exact refused _
  have small : amlCmdMaxQueued.toNat = 8 := rfl
  have size := inv.size
  have room := inv.room
  have free : s.cmds.length < amlCmdMaxQueued.toNat := by
    rcases notFull with empty | notFull
    · simp [empty]
    · have : s.cmds.length ≠ amlCmdMaxQueued.toNat := fun full =>
        notFull (BitVec.eq_of_toNat_eq (by rw [inv.maxSz, size, full]))
      omega
  constructor <;> simp only [linkNew]
  case nodup =>
    exact inv.nodup.append (List.nodup_singleton _) (by simpa using fresh.1)
  case size =>
    have one : (1 : BitVec 32).toNat = 1 := rfl
    rw [BitVec.toNat_add, one, List.length_append, List.length_singleton]
    omega
  case maxSz => exact inv.maxSz
  case room =>
    rw [List.length_append, List.length_singleton]
    omega
  case waited =>
    intro d inside
    rcases mem_append.mp inside with old | new
    · simpa [distinct d old] using inv.waited d old
    · simp only [List.mem_singleton] at new
      simp [new, newLinked, waitComplete]
  case gaveUp =>
    intro d given
    by_cases same : d = s.newCmd
    · simp [same]
    · simpa [same] using inv.gaveUp d (by simpa [same] using given)
  case pending =>
    intro d blocking waits
    by_cases same : d = s.newCmd
    · simp [same]
    · simpa [same] using
        inv.pending d (by simpa [same] using blocking) (by simpa [same] using waits)
  case blocks =>
    intro d waits
    by_cases same : d = s.newCmd
    · subst same
      by_cases blocking : req.nonblock = true
      · by_cases defer : s.deferPush = true <;> simp [defer, blocking] at waits
      · simpa [newLinked] using blocking
    · simpa [same] using inv.blocks d (by simpa [same] using waits)
  case unborn =>
    intro d old
    have ne : d ≠ s.newCmd := Nat.ne_of_gt old
    simpa [ne] using inv.unborn d (Nat.le_of_succ_le old)
  case linked => simpa using inv.linked

end

/-- The scan of `cmd_mgr_llind` only finds linked commands. -/
theorem llindScan_mem {heap : CmdId → AmlCmd} {tkn : BitVec 32} {cmds : List CmdId}
    {start : Option CmdId} :
    (∀ c, (llindScan heap tkn start cmds).1 = some c → start = some c ∨ c ∈ cmds) ∧
      ∀ c, (llindScan heap tkn start cmds).2 = some c → c ∈ cmds ∧ (heap c).flags.waitPush = true := by
  induction cmds generalizing start with
  | nil => simp [llindScan]
  | cons cur rest ih =>
    unfold llindScan
    split_ifs with carries waits
    · refine ⟨fun c found => ?_, fun c found => ?_⟩
      · rcases ih.1 c found with same | inside
        · exact .inr (by simp [Option.some.inj same])
        · exact .inr (mem_cons_of_mem _ inside)
      · exact ⟨mem_cons_of_mem _ (ih.2 c found).1, (ih.2 c found).2⟩
    · refine ⟨fun c found => .inl found, fun c found => ?_⟩
      obtain rfl : cur = c := Option.some.inj found
      exact ⟨List.mem_cons_self, waits⟩
    · refine ⟨fun c found => ?_, fun c found => ?_⟩
      · exact (ih.1 c found).imp id (mem_cons_of_mem _)
      · exact ⟨mem_cons_of_mem _ (ih.2 c found).1, (ih.2 c found).2⟩

/-- An acknowledgement that is not found, or of a linked command, or of one that still waits for its
confirmation. -/
theorem ListInv.cmdMgrLlind {s : AmlHw} (inv : ListInv s) (c : CmdId)
    (orderly : (llindScan s.heap (s.heap c).tkn none s.cmds).1 = none ∨ c ∈ s.cmds ∨
      (s.flags c).waitCfm = true) : ListInv (s.cmdMgrLlind c) := by
  have seen : ∀ next, ListInv (s.llindSeen c next) := fun next =>
    inv.frame rfl rfl rfl rfl rfl (by simp [llindSeen]) (by simp [llindSeen])
  obtain ⟨⟨acked, next⟩, scan⟩ : ∃ r, llindScan s.heap (s.heap c).tkn none s.cmds = r := ⟨_, rfl⟩
  rw [scan] at orderly
  cases acked with
  | none =>
    rw [cmdMgrLlind_lost scan]
    exact (seen next).handOver next false
  | some d =>
    cases waits : (s.flags c).waitCfm with
    | true =>
      -- the acknowledgement alone does not complete it
      rw [cmdMgrLlind_waits scan waits]
      have cleared : ListInv (s.llindAcked c next) :=
        (seen next).frame rfl rfl rfl rfl rfl (fun e => by
            have waits' : (s.heap c).flags.waitCfm = true := waits
            by_cases same : e = c <;>
              simp [llindAcked, llindSeen, same, waitComplete, waits'])
          fun _ _ => id
      exact cleared.handOver next false
    | false =>
      rw [cmdMgrLlind_done scan waits]
      have member : c ∈ s.cmds := by simpa [waits] using orderly
      have done := (seen next).cmdComplete member
        (fun cmd => { cmd with flags := { cmd.flags with waitAck := false } }) rfl rfl
        (.inl (by simpa [llindSeen, waitComplete] using waits))
      exact done.handOver next true

/-- The command `cmd_mgr_msgind` finds is linked and waits for this confirmation. -/
theorem awaiting_spec {s : AmlHw} {id : MsgId} {accept : Bool} {c : CmdId}
    (found : (if accept then s.awaiting id else none) = some c) :
    c ∈ s.cmds ∧ (s.heap c).reqid = id ∧ (s.flags c).waitCfm = true := by
  obtain ⟨-, found⟩ : accept = true ∧ s.awaiting id = some c := by simpa using found
  exact ⟨List.mem_of_find?_eq_some found, by simpa using List.find?_some found⟩

theorem listNext_spec {cmds : List CmdId} (nodup : cmds.Nodup) {c d : CmdId} (linked : c ∈ cmds)
    (next : listNext cmds c = some d) : d ∈ cmds ∧ d ≠ c := by
  refine ⟨List.mem_of_getElem? next, ?_⟩
  rintro rfl
  obtain ⟨inside, at'⟩ := List.getElem?_eq_some_iff.mp next
  have here := List.getElem_idxOf (List.idxOf_lt_length_of_mem linked)
  have same := nodup.getElem_inj_iff.mp (at'.trans here.symm)
  exact absurd same (by omega)

section

variable {s : AmlHw} (inv : ListInv s)

include inv

theorem ListInv.cmdMgrMsgind (msg : E2aMsg) (accept : Bool) : ListInv (s.cmdMgrMsgind msg accept) := by
  cases found : (if accept then s.awaiting msg.id else none) with
  | none =>
    rw [cmdMgrMsgind_none found]
    exact inv.frame rfl rfl rfl rfl rfl (by simp [msgindSeen]) (by simp [msgindSeen])
  | some c =>
    have member : c ∈ s.cmds := (awaiting_spec found).1
    have seen : ListInv ((s.msgindSeen (some c)).emit (.confirm c (s.rxCnt + 1) msg.id)) :=
      inv.frame rfl rfl rfl rfl rfl (by simp [msgindSeen]) (by simp [msgindSeen])
    cases acked : (s.flags c).waitAck with
    | true =>
      -- the confirmation came first
      rw [cmdMgrMsgind_waits found acked]
      exact seen.frame rfl rfl rfl rfl rfl (fun d => by
          have acked' : (s.heap c).flags.waitAck = true := acked
          by_cases same : d = c <;>
            simp [msgindConfirmed, msgindSeen, same, confirmed, waitComplete, acked'])
        fun _ _ => id
    | false =>
      rw [cmdMgrMsgind_done found acked]
      have done := seen.cmdComplete (c := c) member (confirmed msg) rfl rfl
        (.inl (by simpa [msgindSeen, confirmed, waitComplete] using acked))
      exact done.handNext (listNext s.cmds c)

theorem ListInv.timeOut (c : CmdId)
    (gaveUp : (s.pc c).gaveUp = true) : ListInv (s.timeOut c) := by
  have idle : ¬ (s.pc c).Pending := by
    cases here : s.pc c <;> simp [here, CallerPc.gaveUp, CallerPc.Pending] at gaveUp ⊢
  have born : s.pc c ≠ .unborn := by
    intro here
    simp [here, CallerPc.gaveUp] at gaveUp
  have seen : ListInv { s.emit (.use c) with state := .crashed } :=
    inv.frame rfl rfl rfl rfl rfl (by simp) (by simp)
  have left : ∀ t, ListInv t → t.pc = s.pc → ListInv (t.goto c (.leave 0)) :=
    fun t invT pc => invT.goto c _ (pc ▸ born) (by simp [CallerPc.gaveUp]) (by simp [CallerPc.Pending]) (by simp)
  unfold AmlHw.timeOut
  by_cases done : (s.flags c).done = true
  · simpa [done] using left _ seen rfl
  · have member : c ∈ s.cmds := by simpa [done] using inv.gaveUp c gaveUp
    have completed := seen.cmdComplete (c := c) member
      (fun cmd => { cmd with result := eTimedOut }) rfl rfl (.inr idle)
    simpa [done] using left _ completed (by simp [cmdComplete_eq])

theorem ListInv.drainOne {c : CmdId} (member : c ∈ s.cmds)
    (waits : (s.pc c).gaveUp = false) : ListInv (s.drainOne c) := by
  have positive : 0 < s.cmds.length := List.length_pos_of_mem member
  have size := inv.size
  have room := inv.room
  have flags : ∀ d, (s.drainOne c).flags d = s.flags d := by
    intro d
    by_cases same : d = c <;> cases blocking : (s.flags c).nonblock <;>
      simp_all [drainOne_eq]
  have complete : ∀ d, (s.heap d).complete = true → ((s.drainOne c).heap d).complete = true := by
    intro d
    by_cases same : d = c <;> cases blocking : (s.flags c).nonblock <;>
      simp_all [drainOne_eq]
  constructor
  case nodup => simpa [drainOne_eq] using inv.nodup.erase c
  case size =>
    have small : amlCmdMaxQueued.toNat = 8 := rfl
    have one : (1 : BitVec 32).toNat = 1 := rfl
    simp only [drainOne_eq]
    rw [List.length_erase_of_mem member, ← size, BitVec.toNat_sub, one]
    omega
  case maxSz => simpa [drainOne_eq] using inv.maxSz
  case room =>
    simp only [drainOne_eq]
    rw [List.length_erase_of_mem member]
    omega
  case waited =>
    intro d inside
    rw [flags d]
    exact inv.waited d (mem_of_mem_erase (by simpa [drainOne_eq] using inside))
  case gaveUp =>
    intro d given
    have given' : (s.pc d).gaveUp = true := by simpa [drainOne_eq] using given
    have ne : d ≠ c := by
      rintro rfl
      simp [waits] at given'
    rw [flags d]
    simpa [drainOne_eq, mem_erase_of_ne ne] using inv.gaveUp d given'
  case pending =>
    intro d blocking pending
    rw [flags d] at blocking
    have pending' : (s.pc d).Pending := by simpa [drainOne_eq] using pending
    by_cases same : d = c
    · subst same
      have blocking' : (s.heap d).flags.nonblock = false := blocking
      exact .inr (by simp [drainOne_eq, blocking'])
    · refine (inv.pending d blocking pending').imp (fun inside => ?_) (complete d)
      simpa [drainOne_eq, mem_erase_of_ne same] using inside
  case blocks =>
    intro d waits'
    rw [flags d]
    exact inv.blocks d (by simpa [drainOne_eq] using waits')
  case unborn =>
    intro d old
    have before := inv.unborn d (by simpa [drainOne_eq] using old)
    exact ⟨fun inside => before.1 (mem_of_mem_erase (by simpa [drainOne_eq] using inside)),
      by simpa [drainOne_eq] using before.2⟩
  case linked =>
    intro d b done
    refine inv.linked d b ?_
    simp only [drainOne_eq, mem_append, mem_cons, reduceCtorEq, false_or] at done
    rcases done with freed | old
    · split at freed <;> simp at freed
    · exact old

theorem ListInv.cmdMgrDrain
    (waits : ∀ c ∈ s.cmds, (s.pc c).gaveUp = false) : ListInv s.cmdMgrDrain := by
  unfold AmlHw.cmdMgrDrain
  suffices all : ∀ l (t : AmlHw), ListInv t → t.cmds = l → (∀ c ∈ l, (t.pc c).gaveUp = false) →
      ListInv (l.foldl AmlHw.drainOne t) from all s.cmds s inv rfl waits
  intro l
  induction l with
  | nil => exact fun t invT _ _ => invT
  | cons c rest ih =>
    intro t invT cmds waitsT
    have head : c ∈ t.cmds := by simp [cmds]
    refine ih (t.drainOne c) (invT.drainOne head (waitsT c (by simp))) ?_ fun d inside => ?_
    · simp [drainOne_eq, cmds]
    · simpa [drainOne_eq] using waitsT d (mem_cons_of_mem _ inside)

end

/-! ### Orderly runs -/

/-- Some linked command carries the token of `c`, and none before it waits for its push. -/
def tokenLinked (s : AmlHw) (c : CmdId) : Bool :=
  (s.cmds.find? fun d => decide ((s.heap d).tkn = (s.heap c).tkn) || (s.flags d).waitPush).any
    fun d => (s.heap d).tkn = (s.heap c).tkn

/-- The scan of `cmd_mgr_llind` finds the token where the list has it. -/
theorem llindScan_acked {heap : CmdId → AmlCmd} {tkn : BitVec 32} (cmds : List CmdId)
    (absent : (cmds.find? fun d => decide ((heap d).tkn = tkn) || (heap d).flags.waitPush).any
      (fun d => decide ((heap d).tkn = tkn)) = false) :
    (llindScan heap tkn none cmds).1 = none := by
  induction cmds with
  | nil => rfl
  | cons cur rest ih =>
    unfold llindScan
    by_cases carries : (heap cur).tkn = tkn
    · simp [carries] at absent
    · by_cases waits : (heap cur).flags.waitPush = true
      · simp [carries, waits]
      · simpa [carries, waits] using ih (by simpa [carries, waits] using absent)

/-- The steps that keep the list sound. -/
def orderly (s : AmlHw) : Act → Bool
  | .drain => s.cmds.all fun c => !(s.pc c).gaveUp
  | .llind => match s.irq with
    | some c => !tokenLinked s c || decide (c ∈ s.cmds) || (s.flags c).waitCfm
    | none => true
  | _ => true

section

variable {s : AmlHw} (inv : ListInv s)

include inv

/-- A caller that leaves `cmd_mgr_queue` or goes to free its message. -/
theorem ListInv.leave (c : CmdId) (pc : CallerPc)
    (born : s.pc c ≠ .unborn) (calm : pc.gaveUp = false)
    (pending : ¬ pc.Pending ∨ (s.pc c).Pending ∧ pc ≠ .wait) : ListInv (s.goto c pc) :=
  inv.goto c pc born (by simp [calm]) (by tauto) (by rintro rfl; simp [CallerPc.Pending] at pending)

theorem ListInv.afterPush (c : CmdId) (here : (s.pc c).Pending) : ListInv (s.goto c (s.afterPush c)) := by
  have born : s.pc c ≠ .unborn := by
    intro unborn
    simp [unborn, CallerPc.Pending] at here
  unfold AmlHw.afterPush
  split
  · exact inv.leave c _ born rfl (.inl (by simp [CallerPc.Pending]))
  · exact inv.goto c _ born (by simp [CallerPc.gaveUp]) (fun _ _ => here)
      (by simpa using ‹¬(s.flags c).nonblock = true›)

/-- **One orderly step keeps the invariant.** -/
theorem listInv_step {s' : AmlHw} {a : Act} (ok : orderly s a = true)
    (stepped : s.step a = some s') : ListInv s' := by
  have used : ∀ c, ListInv (s.emit (.use c)) := fun c => inv.emit (by simp)
  cases (step_cases stepped).2 with
  | sendMsg req env => exact inv.amlSendMsg req env
  | pushNow c here =>
    have pending : (s.pc c).Pending := by simp [here, CallerPc.Pending]
    unfold AmlHw.pushNow
    split
    · exact ((used c).setWaitPush c true).leave c _ (by simp [here]) rfl (.inr ⟨pending, by simp⟩)
    · have pushed := inv.ipcHostMsgPush c .queue
      exact pushed.leave c _ (by simp [ipcHostMsgPush_eq, here]) rfl
        (.inr ⟨by simpa [ipcHostMsgPush_eq] using pending, by simp⟩)
  | signal c here =>
    have upped : ListInv { s with amlMsgSem := s.amlMsgSem + 1 } :=
      inv.frame rfl rfl rfl rfl rfl (by simp) (by simp)
    exact upped.afterPush c (by simp [here, CallerPc.Pending])
  | freeMsg c here =>
    have freed : ListInv ((s.emit (.use c)).emit (.freeMsg c)) := (used c).emit (by simp)
    exact freed.afterPush c (by simp [here, CallerPc.Pending])
  | wake c here done =>
    exact (used c).leave c _ (by simp [here]) rfl (.inl (by simp [CallerPc.Pending]))
  | expire c here undone =>
    exact (used c).goto c _ (by simp [here]) (fun _ => .inr (inv.linked_of_waits here undone))
      (by simp [CallerPc.Pending]) (by simp)
  | kill c here undone =>
    exact (used c).goto c _ (by simp [here]) (fun _ => .inr (inv.linked_of_waits here undone))
      (by simp [CallerPc.Pending]) (by simp)
  | poll c here =>
    unfold AmlHw.poll
    dsimp only
    split
    · exact (used c).leave c _ (by simp [here]) rfl (.inl (by simp [CallerPc.Pending]))
    · exact used c
  | timeOut c here =>
    exact inv.timeOut c (by rcases here with here | here <;> simp [here, CallerPc.gaveUp])
  | finish c ret here =>
    unfold AmlHw.finish
    split
    · exact inv.leave c _ (by simp [here]) rfl (.inl (by simp [CallerPc.Pending]))
    · have freed : ListInv ((if ret = 0 then s.emit (.use c) else s).emit (.freeCmd c)) := by
        split
        · exact (used c).emit (by simp)
        · exact inv.emit (by simp)
      refine freed.leave c _ ?_ rfl (.inl (by simp [CallerPc.Pending]))
      split <;> simp [here]
  | msgack free =>
    unfold AmlHw.msgackHandler
    split
    · exact inv
    · exact inv.frame rfl rfl rfl rfl rfl (by simp) (by simp)
  | llind c here =>
    have known : tokenLinked s c = false ∨ c ∈ s.cmds ∨ (s.flags c).waitCfm = true := by
      simpa [orderly, here, or_assoc] using ok
    have taken : ListInv s.takeIrq :=
      inv.frame rfl rfl rfl rfl rfl (by simp [takeIrq]) (by simp [takeIrq])
    exact taken.cmdMgrLlind c (known.imp (llindScan_acked s.cmds) id)
  | msgind msg accept => exact inv.cmdMgrMsgind msg accept
  | drain => exact inv.cmdMgrDrain (by simpa [orderly] using ok)
  | taskWake here up =>
    exact inv.frame rfl rfl rfl rfl rfl (by simp [taskWake]) (by simp [taskWake])
  | taskClear cursor here =>
    cases cursor with
    | none => exact inv.frame rfl rfl rfl rfl rfl (by simp [taskClear]) (by simp [taskClear])
    | some c =>
      exact ((used c).setWaitPush c false).frame rfl rfl rfl rfl rfl (by simp [taskClear]) (by simp [taskClear])
  | taskPush c here =>
    have pushed := inv.ipcHostMsgPush c .msgTask
    exact pushed.frame rfl rfl rfl rfl rfl (by simp [taskPush]) (by simp [taskPush])
  | taskFree c here =>
    exact inv.frame rfl rfl rfl rfl rfl (by simp [taskFree]) (by simp [taskFree])
  | crash => exact inv.frame rfl rfl rfl rfl rfl (by simp) (by simp)
  | pciShutdown => exact inv.frame rfl rfl rfl rfl rfl (by simp) (by simp)
  | devStop => exact inv.frame rfl rfl rfl rfl rfl (by simp) (by simp)

end

/-- The list as `cmd_mgr` promises it. -/
structure ListSound (s : AmlHw) : Prop where
  size : s.queueSz.toNat = s.cmds.length
  room : s.cmds.length ≤ s.maxQueueSz.toNat
  nodup : s.cmds.Nodup
  linked : ∀ c b, Event.complete c b ∈ s.log → b = true

/-- **Every orderly run keeps the list sound.** -/
theorem listSound_of_orderly {bus : BusType} {s : AmlHw}
    (reach : (cmdSystem bus).Reachable (fun s a => orderly s a = true) s) : ListSound s := by
  have inv : ListInv s :=
    reach.invariant (listInv_init bus) fun _ _ _ _ before ok stepped => listInv_step before ok stepped
  exact ⟨inv.size, inv.maxSz ▸ inv.room, inv.nodup, inv.linked⟩

/-- A start request sent, acknowledged and confirmed. -/
theorem listSound_of_started :
    ∃ s, (cmdSystem .pcie).Reachable (fun s a => orderly s a = true) s ∧ s.devStarted = true ∧ ListSound s :=
  have reach := System.reachable_of_run (cmdSystem .pcie) (fun s a => orderly s a = true)
    [.sendMsg startReq {}, .pushNow 0, .freeMsg 0, .msgack, .llind, .msgind startCfm true, .wake 0,
      .finish 0, .drain] (by decide)
  ⟨_, reach, by decide, listSound_of_orderly reach⟩

/-- **A drain between a time-out and its lock section**: the late `cmd_complete` finds the command
unlinked, and `queue_sz` wraps. -/
theorem drain_then_timeOut_wraps : ¬ ∀ s, (cmdSystem .sdio).Reachable Anything s → ListSound s := by
  intro sound
  have reach := System.reachable_of_run (cmdSystem .sdio) (Anything)
    [.sendMsg startReq {}, .pushNow 0, .freeMsg 0, .expire 0, .drain, .timeOut 0] (by decide)
  have size := (sound _ reach).size
  exact absurd size (by decide)

end W2l.Cmd
