/-
**NAPI receive: nothing is lost while the budget covers the queue.**

* `NapiInv` — nothing is lost, and the running poll has budget for all that it took.
* `NapiInv.*` — one lemma for each step.
-/

import Mathlib.Tactic.IntervalCases
import Mathlib.Tactic.Linarith
import W2lDriver.Rx.Napi

namespace W2l.Rx

open Lib
open Option (bind_eq_some_iff isNone_iff_eq_none ite_none_right_eq_some some.inj)
open List (prefix_rfl)

variable {Skb : Type}

namespace NapiState

/-- Nothing is lost, and the running poll has budget for all that it took. -/
structure NapiInv (s : NapiState Skb) : Prop extends NothingLost s where
  enough : ∀ p, s.poll = some p → ((p.done + p.rxProcessQueue.length : ℕ) : ℤ) ≤ p.weight

@[simp] theorem taken_none {s : NapiState Skb} (none : s.poll = none) : s.taken = [] := by
  rw [taken, none]
  rfl

@[simp] theorem taken_some {s : NapiState Skb} {p : NapiPoll Skb} (running : s.poll = some p) :
    s.taken = p.rxProcessQueue := by
  rw [taken, running]
  rfl

theorem napiInv_start : NapiInv (start : NapiState Skb) :=
  ⟨⟨rfl, rfl, fun waiting => absurd rfl waiting⟩, fun _ running => nomatch running⟩

namespace NapiInv

variable {s : NapiState Skb}

section

variable (inv : NapiInv s)

include inv

theorem splice : NapiInv s.splice := by
  refine ⟨⟨?_, inv.dropsNone, fun _ => .inr (.inl (Nat.succ_pos _))⟩, inv.enough⟩
  show s.placed ++ s.napiRxPendingQueue = s.delivered ++ s.taken ++ (s.napiRxUploadQueue ++ s.napiRxPendingQueue)
  rw [inv.inOrder, List.append_assoc]

theorem amlRxDataSkb (skb : Skb) : NapiInv (s.amlRxDataSkb skb) := by
  have queued : NapiInv { s with napiRxPendingQueue := s.napiRxPendingQueue ++ [skb] } :=
    ⟨⟨inv.inOrder, inv.dropsNone, inv.hasPoller⟩, inv.enough⟩
  unfold NapiState.amlRxDataSkb
  dsimp only
  split
  · exact queued.splice
  · exact queued

theorem ipcHostRxdescHandler : NapiInv s.ipcHostRxdescHandler := by
  unfold NapiState.ipcHostRxdescHandler
  split
  · exact inv
  · exact inv.splice

theorem napiSchedule (kicks rechecks : ℕ) : NapiInv { s.napiSchedule with kicks := kicks, rechecks := rechecks } :=
  ⟨⟨inv.inOrder, inv.dropsNone, fun _ => .inl rfl⟩, inv.enough⟩

theorem pollStart {weight : ℤ} (idle : s.poll = none)
    (budget : (s.napiRxUploadQueue.length : ℤ) ≤ weight) : NapiInv (s.pollStart weight) := by
  refine ⟨⟨?_, inv.dropsNone, fun waiting => absurd rfl waiting⟩, ?_⟩
  · show s.placed = s.delivered ++ s.napiRxUploadQueue ++ []
    rw [inv.inOrder, taken_none idle, List.append_nil, List.append_nil]
  · rintro p ⟨⟩
    simpa using budget

end

variable {p : NapiPoll Skb} {s' : NapiState Skb}

theorem deliver_cases (stepped : s.deliver p = some s') :
    ∃ skb rest, p.rxProcessQueue = skb :: rest ∧ (p.done : ℤ) < p.weight ∧
      s' = { s with
        poll := some { p with done := p.done + 1, rxProcessQueue := rest }
        delivered := s.delivered ++ [skb] } := by
  unfold NapiState.deliver at stepped
  split at stepped
  · next skb rest queue =>
    split at stepped
    · next within => exact ⟨skb, rest, queue, within, (some.inj stepped).symm⟩
    · cases stepped
  · cases stepped

section

variable (inv : NapiInv s)

include inv

section

variable (running : s.poll = some p)

include running

theorem deliver
    (stepped : s.deliver p = some s') : NapiInv s' := by
  obtain ⟨skb, rest, queue, -, rfl⟩ := deliver_cases stepped
  refine ⟨⟨?_, inv.dropsNone, inv.hasPoller⟩, ?_⟩
  · show s.placed = s.delivered ++ [skb] ++ rest ++ s.napiRxUploadQueue
    rw [inv.inOrder, taken_some running, queue, List.append_assoc s.delivered [skb] rest, List.singleton_append]
  · rintro p' ⟨⟩
    have before := inv.enough p running
    rw [queue] at before
    simp only [List.length_cons] at before
    push_cast at before ⊢
    linarith

theorem used_up
    (left : ¬((p.done : ℤ) < p.weight ∧ p.rxProcessQueue ≠ [])) : p.rxProcessQueue = [] := by
  by_contra waiting
  have before := inv.enough p running
  have some : 0 < p.rxProcessQueue.length := List.length_pos_of_ne_nil waiting
  refine left ⟨?_, waiting⟩
  omega

theorem pollEnd
    (usedUp : p.rxProcessQueue = []) : NapiInv (s.pollEnd p) := by
  have inOrder : s.placed = s.delivered ++ [] ++ s.napiRxUploadQueue := by
    rw [inv.inOrder, taken_some running, usedUp]
  have dropsNone : s.dropped ++ p.rxProcessQueue = [] := by
    rw [inv.dropsNone, usedUp]
    rfl
  unfold NapiState.pollEnd
  dsimp only
  split
  · exact ⟨⟨inOrder, dropsNone, fun _ => .inr (.inr (Nat.succ_pos _))⟩, fun _ => nofun⟩
  · exact ⟨⟨inOrder, dropsNone, inv.hasPoller⟩, fun _ => nofun⟩

end

theorem recheck (empty : s.napiRxUploadQueue = []) (rechecks : ℕ) : NapiInv { s with rechecks := rechecks } :=
  ⟨⟨inv.inOrder, inv.dropsNone, fun waiting => absurd empty waiting⟩, inv.enough⟩

theorem step {a : NapiAct Skb} (allowed : WithinBudget s a)
    (stepped : s.step a = some s') : NapiInv s' := by
  cases a with
  | receive skb =>
    obtain rfl := some.inj stepped
    exact inv.amlRxDataSkb skb
  | descriptorsDone =>
    obtain rfl := some.inj stepped
    exact inv.ipcHostRxdescHandler
  | schedule =>
    obtain ⟨-, same⟩ := ite_none_right_eq_some.mp stepped
    obtain rfl := some.inj same
    exact inv.napiSchedule _ _
  | pollStart weight =>
    obtain ⟨⟨-, idle⟩, same⟩ := ite_none_right_eq_some.mp stepped
    obtain rfl := some.inj same
    exact inv.pollStart (isNone_iff_eq_none.mp idle) allowed
  | deliver =>
    obtain ⟨p, running, delivered⟩ := bind_eq_some_iff.mp stepped
    exact inv.deliver running delivered
  | pollEnd =>
    obtain ⟨p, running, ended⟩ := bind_eq_some_iff.mp stepped
    obtain ⟨left, same⟩ := Option.ite_none_left_eq_some.mp ended
    obtain rfl := some.inj same
    exact inv.pollEnd running (inv.used_up running left)
  | recheck =>
    obtain ⟨-, same⟩ := ite_none_right_eq_some.mp stepped
    obtain rfl := some.inj same
    dsimp only
    split
    · next empty => exact inv.recheck (List.isEmpty_iff.mp empty) _
    · exact inv.napiSchedule _ _
  | setPendPktNum num =>
    obtain rfl := some.inj stepped
    exact ⟨⟨inv.inOrder, inv.dropsNone, inv.hasPoller⟩, inv.enough⟩

end

end NapiInv

end NapiState

open NapiState

theorem napiInv_reachable {s : NapiState Skb} (reach : (napiReceive Skb).Reachable WithinBudget s) : NapiInv s :=
  reach.invariant napiInv_start fun _ _ _ _ inv allowed stepped => inv.step allowed stepped

/-! ### Every placed skb is delivered -/

/-- Who has to act next. -/
inductive NapiStage
  | poll
  | kernel
  | wake
  deriving DecidableEq

namespace NapiState

def stage (s : NapiState Skb) : NapiStage :=
  if s.poll.isSome then .poll else if s.scheduled then .kernel else .wake

/-- The steps that the one who has to act next takes. -/
def stageMove : NapiStage → NapiAct Skb → Prop
  | .poll, a => a = .deliver ∨ a = .pollEnd
  | .kernel, a => ∃ weight, a = .pollStart weight
  | .wake, a => a = .schedule ∨ a = .recheck

/-- How far the state is from the next delivery. -/
def phase (s : NapiState Skb) : ℕ :=
  match s.poll with
  | some p => if p.rxProcessQueue.isEmpty then 3 else 0
  | none => if s.scheduled then 1 else 2

/-- The deliveries that the first `k` skbs still need, refined by the phase. -/
def deliveryRank (k : ℕ) (s : NapiState Skb) : ℕ := 4 * (k - s.delivered.length) + s.phase

/-- The first `k` placed skbs are delivered; also when there are not yet `k` of them. -/
def firstDelivered (k : ℕ) (s : NapiState Skb) : Prop :=
  s.placed.length < k ∨ k ≤ s.delivered.length

variable {k : ℕ}

/-- A skb of the first `k` that is not delivered is with the poll or in the upload queue. -/
theorem NapiInv.remaining {s : NapiState Skb} (inv : NapiInv s)
    (undone : ¬ s.firstDelivered k) :
    s.delivered.length < k ∧ 0 < s.taken.length + s.napiRxUploadQueue.length := by
  have total := congrArg List.length inv.inOrder
  simp only [List.length_append] at total
  simp only [firstDelivered, not_or, Nat.not_lt, Nat.not_le] at undone
  omega

theorem NapiInv.waiting {s : NapiState Skb} (inv : NapiInv s)
    (undone : ¬ s.firstDelivered k) (idle : s.poll = none) : s.napiRxUploadQueue ≠ [] := by
  have left := (inv.remaining undone).2
  rw [taken_none idle, List.length_nil, Nat.zero_add] at left
  exact List.ne_nil_of_length_pos left

theorem stage_poll {s : NapiState Skb} {p : NapiPoll Skb} (running : s.poll = some p) : s.stage = .poll := by
  rw [stage, running]
  rfl

theorem stage_idle {s : NapiState Skb} (idle : s.poll = none) : s.stage = if s.scheduled then .kernel else .wake := by
  rw [stage, idle]
  rfl

theorem idle_of_stage {s : NapiState Skb} (other : s.stage ≠ .poll) : s.poll = none := by
  cases running : s.poll with
  | none => rfl
  | some p => exact absurd (stage_poll running) other

theorem scheduled_of_stage {s : NapiState Skb} (kernel : s.stage = .kernel) : s.scheduled = true := by
  rw [stage_idle (idle_of_stage (by rw [kernel]; decide))] at kernel
  by_contra unscheduled
  simp [unscheduled] at kernel

theorem unscheduled_of_stage {s : NapiState Skb} (wake : s.stage = .wake) : s.scheduled = false := by
  rw [stage_idle (idle_of_stage (by rw [wake]; decide))] at wake
  by_contra scheduled
  simp [scheduled] at wake

/-- What a step leaves alone when it waits: the stage, and the rank does not grow. -/
def Waits (k : ℕ) (s s' : NapiState Skb) : Prop :=
  s'.stage = s.stage ∧ s'.deliveryRank k ≤ s.deliveryRank k

theorem waits_of_same {s s' : NapiState Skb} (poll : s'.poll = s.poll)
    (scheduled : s'.scheduled = s.scheduled) (delivered : s'.delivered = s.delivered) :
    Waits k s s' := by
  constructor
  · rw [stage, stage, poll, scheduled]
  · rw [deliveryRank, deliveryRank, phase, phase, poll, scheduled, delivered]

theorem waits_of_scheduled {s s' : NapiState Skb} (poll : s'.poll = s.poll)
    (scheduled : s'.scheduled = true) (delivered : s'.delivered = s.delivered)
    (awake : s.stage ≠ .wake) : Waits k s s' := by
  cases running : s.poll with
  | some p =>
    have running' : s'.poll = some p := poll.trans running
    constructor
    · rw [stage_poll running, stage_poll running']
    · rw [deliveryRank, deliveryRank, phase, phase, running, running', delivered]
  | none =>
    have already : s.scheduled = true := by
      by_contra unscheduled
      rw [stage_idle running] at awake
      simp [unscheduled] at awake
    exact waits_of_same poll (scheduled.trans already.symm) delivered

theorem splice_waits (k : ℕ) (s : NapiState Skb) : Waits k s s.splice :=
  waits_of_same rfl rfl rfl

theorem amlRxDataSkb_waits (k : ℕ) (s : NapiState Skb) (skb : Skb) : Waits k s (s.amlRxDataSkb skb) := by
  unfold amlRxDataSkb
  dsimp only
  split <;> exact waits_of_same rfl rfl rfl

theorem ipcHostRxdescHandler_waits (k : ℕ) (s : NapiState Skb) : Waits k s s.ipcHostRxdescHandler := by
  unfold ipcHostRxdescHandler
  split
  · exact ⟨rfl, le_rfl⟩
  · exact s.splice_waits k

theorem step_waits {s s' : NapiState Skb} {a : NapiAct Skb}
    (stepped : s.step a = some s') (other : ¬ stageMove s.stage a) : Waits k s s' := by
  cases a with
  | receive skb =>
    obtain rfl := some.inj stepped
    exact s.amlRxDataSkb_waits k skb
  | descriptorsDone =>
    obtain rfl := some.inj stepped
    exact s.ipcHostRxdescHandler_waits k
  | schedule =>
    obtain ⟨-, same⟩ := ite_none_right_eq_some.mp stepped
    obtain rfl := some.inj same
    exact waits_of_scheduled rfl rfl rfl fun wake => other (by rw [wake]; exact .inl rfl)
  | pollStart weight =>
    obtain ⟨⟨scheduled, idle⟩, -⟩ := ite_none_right_eq_some.mp stepped
    have kernel : s.stage = .kernel := by
      rw [stage_idle (isNone_iff_eq_none.mp idle), scheduled]
      rfl
    exact absurd (by rw [kernel]; exact ⟨weight, rfl⟩) other
  | deliver =>
    obtain ⟨p, running, -⟩ := bind_eq_some_iff.mp stepped
    exact absurd (by rw [stage_poll running]; exact .inl rfl) other
  | pollEnd =>
    obtain ⟨p, running, -⟩ := bind_eq_some_iff.mp stepped
    exact absurd (by rw [stage_poll running]; exact .inr rfl) other
  | recheck =>
    have awake : s.stage ≠ .wake := fun wake => other (by rw [wake]; exact .inr rfl)
    obtain ⟨-, same⟩ := ite_none_right_eq_some.mp stepped
    obtain rfl := some.inj same
    dsimp only
    split
    · exact waits_of_same rfl rfl rfl
    · exact waits_of_scheduled rfl rfl rfl awake
  | setPendPktNum num =>
    obtain rfl := some.inj stepped
    exact waits_of_same rfl rfl rfl

theorem poll_moves {s s' : NapiState Skb} {a : NapiAct Skb} {p : NapiPoll Skb}
    (inv : NapiInv s) (undone : ¬ s.firstDelivered k) (stepped : s.step a = some s')
    (running : s.poll = some p) (move : a = .deliver ∨ a = .pollEnd) :
    s'.deliveryRank k < s.deliveryRank k := by
  have short := (inv.remaining undone).1
  rcases move with rfl | rfl
  · obtain ⟨p', running', delivered⟩ := bind_eq_some_iff.mp stepped
    obtain rfl := some.inj (running.symm.trans running')
    obtain ⟨skb, rest, queue, -, rfl⟩ := NapiInv.deliver_cases delivered
    have before : s.phase = 0 := by simp [phase, running, queue]
    have after : phase { s with
        poll := some { p with done := p.done + 1, rxProcessQueue := rest }
        delivered := s.delivered ++ [skb] } ≤ 3 := by
      unfold phase
      dsimp only
      split <;> omega
    unfold deliveryRank
    rw [before]
    simp only [List.length_append, List.length_singleton]
    omega
  · obtain ⟨p', running', ended⟩ := bind_eq_some_iff.mp stepped
    obtain rfl := some.inj (running.symm.trans running')
    obtain ⟨left, same⟩ := Option.ite_none_left_eq_some.mp ended
    obtain rfl := some.inj same
    have before : s.phase = 3 := by simp [phase, running, inv.used_up running left]
    have idle : (s.pollEnd p).poll = none := by
      unfold NapiState.pollEnd
      dsimp only
      split <;> rfl
    have kept : (s.pollEnd p).delivered = s.delivered := by
      unfold NapiState.pollEnd
      dsimp only
      split <;> rfl
    have after : (s.pollEnd p).phase ≤ 2 := by
      rw [phase, idle]
      dsimp only
      split <;> omega
    unfold deliveryRank
    rw [before, kept]
    omega

theorem kernel_moves {s s' : NapiState Skb} {weight : ℤ} (inv : NapiInv s)
    (undone : ¬ s.firstDelivered k) (stepped : s.step (.pollStart weight) = some s') :
    s'.deliveryRank k < s.deliveryRank k := by
  obtain ⟨⟨scheduled, idle⟩, same⟩ := ite_none_right_eq_some.mp stepped
  obtain rfl := some.inj same
  have idle := isNone_iff_eq_none.mp idle
  have before : s.phase = 1 := by simp [phase, idle, scheduled]
  have after : (s.pollStart weight).phase = 0 := by
    simp [phase, NapiState.pollStart, inv.waiting undone idle]
  unfold deliveryRank
  rw [before, after]
  show 4 * (k - s.delivered.length) + 0 < _
  omega

theorem wake_moves {s s' : NapiState Skb} {a : NapiAct Skb} (inv : NapiInv s)
    (undone : ¬ s.firstDelivered k) (stepped : s.step a = some s') (wake : s.stage = .wake)
    (move : a = .schedule ∨ a = .recheck) : s'.deliveryRank k < s.deliveryRank k := by
  have idle : s.poll = none := idle_of_stage (by rw [wake]; decide)
  have before : s.phase = 2 := by simp [phase, idle, unscheduled_of_stage wake]
  have lowered : ∀ t : NapiState Skb, t.poll = none → t.scheduled = true →
      t.delivered = s.delivered → t.deliveryRank k < s.deliveryRank k := by
    intro t none scheduled delivered
    have after : t.phase = 1 := by simp [phase, none, scheduled]
    unfold deliveryRank
    rw [before, after, delivered]
    omega
  rcases move with rfl | rfl
  · obtain ⟨-, same⟩ := ite_none_right_eq_some.mp stepped
    obtain rfl := some.inj same
    exact lowered _ idle rfl rfl
  · obtain ⟨-, same⟩ := ite_none_right_eq_some.mp stepped
    obtain rfl := some.inj same
    have waiting := inv.waiting undone idle
    dsimp only
    rw [if_neg (by rw [List.isEmpty_iff]; exact waiting)]
    exact lowered _ idle rfl rfl

end NapiState

theorem napi_ranked (k : ℕ) : System.Execution.Ranked (firstDelivered k) NapiState.stage (deliveryRank k) stageMove
      (napiReceive Skb) WithinBudget where
  moves s a s' reach allowed stepped undone move := by
    have inv := napiInv_reachable reach
    refine .inr ?_
    cases which : s.stage with
    | poll =>
      rw [which] at move
      cases running : s.poll with
      | some p => exact poll_moves inv undone stepped running move
      | none =>
        rw [stage_idle running] at which
        split at which <;> cases which
    | kernel =>
      rw [which] at move
      obtain ⟨weight, rfl⟩ := move
      exact kernel_moves inv undone stepped
    | wake =>
      rw [which] at move
      exact wake_moves inv undone stepped which move
  waits s a s' reach allowed stepped undone other := .inr (step_waits stepped other)

theorem napi_fair {ρ : (napiReceive Skb).Execution WithinBudget} (scheduling : Scheduling ρ)
    {k n : ℕ} (undone : ¬ (ρ.state n).firstDelivered k) :
    ∃ m, n ≤ m ∧ (stageMove (ρ.state n).stage (ρ.act m) ∨ (ρ.state m).stage ≠ (ρ.state n).stage) := by
  have inv := napiInv_reachable (ρ.reachable n)
  cases which : (ρ.state n).stage with
  | poll =>
    have running : (ρ.state n).poll ≠ none := by
      intro idle
      rw [stage_idle idle] at which
      split at which <;> cases which
    obtain ⟨m, later, acts⟩ := scheduling.returns n running
    exact ⟨m, later, .inl acts⟩
  | kernel =>
    have idle := idle_of_stage (s := ρ.state n) (by rw [which]; decide)
    obtain ⟨m, later, acts⟩ := scheduling.polls n (scheduled_of_stage which) idle
    exact ⟨m, later, .inl acts⟩
  | wake =>
    have idle := idle_of_stage (s := ρ.state n) (by rw [which]; decide)
    rcases inv.hasPoller (inv.waiting undone idle) with scheduled | kicks | rechecks
    · rw [unscheduled_of_stage which] at scheduled
      cases scheduled
    · obtain ⟨m, later, acts⟩ := scheduling.schedules n kicks
      exact ⟨m, later, .inl (.inl acts)⟩
    · obtain ⟨m, later, acts⟩ := scheduling.rechecks n rechecks
      exact ⟨m, later, .inl (.inr acts)⟩

theorem NapiState.placed_grows {s s' : NapiState Skb} {a : NapiAct Skb}
    (stepped : s.step a = some s') : s.placed <+: s'.placed := by
  cases a with
  | receive skb =>
    obtain rfl := some.inj stepped
    unfold amlRxDataSkb
    dsimp only
    split
    · exact List.prefix_append _ _
    · exact prefix_rfl
  | descriptorsDone =>
    obtain rfl := some.inj stepped
    unfold ipcHostRxdescHandler
    split
    · exact prefix_rfl
    · exact List.prefix_append _ _
  | schedule =>
    obtain ⟨-, same⟩ := ite_none_right_eq_some.mp stepped
    obtain rfl := some.inj same
    exact prefix_rfl
  | pollStart weight =>
    obtain ⟨-, same⟩ := ite_none_right_eq_some.mp stepped
    obtain rfl := some.inj same
    exact prefix_rfl
  | deliver =>
    obtain ⟨p, -, delivered⟩ := bind_eq_some_iff.mp stepped
    obtain ⟨skb, rest, -, -, rfl⟩ := NapiInv.deliver_cases delivered
    exact prefix_rfl
  | pollEnd =>
    obtain ⟨p, -, ended⟩ := bind_eq_some_iff.mp stepped
    obtain ⟨-, same⟩ := Option.ite_none_left_eq_some.mp ended
    obtain rfl := some.inj same
    unfold NapiState.pollEnd
    dsimp only
    split <;> exact prefix_rfl
  | recheck =>
    obtain ⟨-, same⟩ := ite_none_right_eq_some.mp stepped
    obtain rfl := some.inj same
    dsimp only
    split <;> exact prefix_rfl
  | setPendPktNum num =>
    obtain rfl := some.inj stepped
    exact prefix_rfl

/-- **Nothing is lost and everything is delivered, in order**, while the budget covers the queue. -/
theorem napi_loses_nothing : (∀ s, (napiReceive Skb).Reachable WithinBudget s → s.NothingLost) ∧
      ∀ ρ : (napiReceive Skb).Execution WithinBudget, Scheduling ρ →
        ∀ n, ∃ m, n ≤ m ∧ (ρ.state n).placed <+: (ρ.state m).delivered := by
  refine ⟨fun s reach => (napiInv_reachable reach).toNothingLost, fun ρ scheduling n => ?_⟩
  obtain ⟨m, later, done⟩ := ρ.eventually_of_rank (napi_ranked (ρ.state n).placed.length)
    (fun _ undone => napi_fair scheduling undone) n
  refine ⟨m, later, ?_⟩
  have grown : (ρ.state n).placed <+: (ρ.state m).placed :=
    ρ.stable (P := fun s => (ρ.state n).placed <+: s.placed)
      (fun _ _ _ _ before _ stepped => before.trans (placed_grows stepped)) later List.prefix_rfl
  have delivered : (ρ.state m).delivered <+: (ρ.state m).placed := by
    rw [(napiInv_reachable (ρ.reachable m)).inOrder, List.append_assoc]
    exact List.prefix_append _ _
  refine List.prefix_of_prefix_length_le grown delivered ?_
  exact done.resolve_left (Nat.not_lt.mpr grown.length_le)

/-- One skb, received at the end of the descriptors, polled with the usual weight. -/
def oneSkb : List (NapiAct ℕ) :=
  [.receive 7, .descriptorsDone, .schedule, .pollStart 48, .deliver, .pollEnd, .recheck]

def oneSkbEnd : NapiState ℕ := ⟨[], [], 16, false, none, 0, 0, [7], [7], []⟩

theorem oneSkb_ran : System.run (napiReceive ℕ) WithinBudget (napiReceive ℕ).init oneSkb = some oneSkbEnd := rfl

/-- The run of `oneSkb`, continued by an idle device. -/
def oneSkbExecution : (napiReceive ℕ).Execution WithinBudget :=
  .ofLoop (.setPendPktNum 16) oneSkb oneSkb_ran rfl trivial

theorem oneSkb_last {n : ℕ} (past : 7 ≤ n) : oneSkbExecution.state n = oneSkbEnd :=
  System.Execution.loopState_last oneSkb_ran past

/-- In the run of `oneSkb` everybody who can act does so at once. -/
theorem oneSkb_scheduling : Scheduling oneSkbExecution := by
  have idle : ∀ {n}, ¬ n < 7 → oneSkbExecution.state n = oneSkbEnd :=
    fun past => oneSkb_last (Nat.not_lt.mp past)
  constructor
  · intro n scheduled free
    refine ⟨n, le_rfl, 48, ?_⟩
    by_cases early : n < 7
    · interval_cases n <;> first | rfl | (cases free; done) | cases scheduled
    · rw [idle early] at scheduled
      cases scheduled
  · intro n running
    refine ⟨n, le_rfl, ?_⟩
    by_cases early : n < 7
    · interval_cases n <;> first | exact .inl rfl | exact .inr rfl | exact absurd rfl running
    · rw [idle early] at running
      exact absurd rfl running
  · intro n kicks
    refine ⟨n, le_rfl, ?_⟩
    by_cases early : n < 7
    · interval_cases n <;> first | rfl | cases kicks
    · rw [idle early] at kicks
      cases kicks
  · intro n rechecks
    refine ⟨n, le_rfl, ?_⟩
    by_cases early : n < 7
    · interval_cases n <;> first | rfl | cases rechecks
    · rw [idle early] at rechecks
      cases rechecks

theorem napi_loses_nothing_oneSkb :
    ∃ m, 2 ≤ m ∧ (oneSkbExecution.state 2).placed <+: (oneSkbExecution.state m).delivered :=
  napi_loses_nothing.2 oneSkbExecution oneSkb_scheduling 2

/-- Two skbs and a poll of weight one: the second skb is dropped. -/
theorem napi_loses_second : ¬ ∀ s, (napiReceive ℕ).Reachable (fun _ _ => True) s → s.NothingLost := by
  intro claim
  have bad := claim _ (System.reachable_of_run (napiReceive ℕ) (fun _ _ => True)
    [.receive 1, .receive 2, .descriptorsDone, .schedule, .pollStart 1, .deliver, .pollEnd] rfl)
  exact absurd bad.dropsNone (by decide)

end W2l.Rx
