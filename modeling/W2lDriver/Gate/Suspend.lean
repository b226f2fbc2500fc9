/-
**Suspend and resume.**

`fullmac/aml_main.c`. Suspending stops the interfaces that are up for every reason, resuming starts them
for reasons that depend on what they are. A suspend that fails resumes at once, also the interfaces it
has not come to.

* `PsHw`, `SuspendEnv` — the state, and how each step goes.
* `psWowSuspend`, `psWowResume`, `suspendResume` — `aml_ps_wow_suspend`, `aml_ps_wow_resume`, and the one
  followed by the other.
* `suspendResume_txq` — **what becomes of a queue**.
* `Restored` — a queue has the reasons it had, `AML_TXQ_STOP_FULL` without credits, and is scheduled
  accordingly.
-/

import W2lDriver.Gate.Gated

namespace W2l.Gate

open Sched (StopReason)

variable {V S : Type} [DecidableEq V] [DecidableEq S]

/-! ### The functions -/

/-- The driver, with `state` and `AML_CONNECTING`. -/
structure PsHw (V S : Type) where
  gate : GateHw V S := {}
  /-- `state` is `WIFI_SUSPEND_STATE_WOW`. -/
  wow : Bool := false
  connecting : Bool := false

/-- How the steps go. -/
structure SuspendEnv (V : Type) where
  /-- `ndev` of an interface is set. -/
  ndev : V → Bool := fun _ => true
  /-- At an interface the scan is cancelled and the queues run empty. -/
  quiet : V → Bool := fun _ => true
  /-- The firmware is told, answers, and no command is left. -/
  sent : Bool := true
  /-- The firmware wakes up and answers. -/
  woken : Bool := true

def Iftype.waits : Iftype → Bool
  | .station | .p2pClient | .ap | .p2pGo => true
  | _ => false

def amlTxqStop : Finset StopReason := {.full, .csa, .staPs, .vifPs, .chan, .coexInactive}

theorem mem_amlTxqStop (r : StopReason) : r ∈ amlTxqStop := by
  cases r <;> decide

/-- What resuming starts an interface for: `AML_TXQ_STOP` without the reasons others clear. -/
def Iftype.wakeReason : Iftype → Finset StopReason
  | .station => amlTxqStop \ {.chan}
  | .ap => amlTxqStop \ {.chan, .staPs}
  | .p2pGo => amlTxqStop \ {.chan, .staPs, .vifPs}
  | .p2pClient => amlTxqStop \ {.chan, .vifPs}
  | _ => ∅

namespace GateHw

variable (s : GateHw V S)

def psVifs (env : SuspendEnv V) : List V := s.vifs.filter fun v => (s.vif v).up && env.ndev v

/-- The interfaces a suspend comes to, and whether it comes behind them. -/
def psWalk (env : SuspendEnv V) : List V → List V × Bool
  | [] => ([], true)
  | v :: rest =>
    if (s.vif v).iftype.waits && !env.quiet v then ([v], false)
    else (v :: (psWalk env rest).1, (psWalk env rest).2)

/-- An interface is woken up. The queue for unknown stations of an AP is started for all reasons. -/
def psWake (v : V) : GateHw V S :=
  match (s.vif v).iftype with
  | .station => s.txqVifStart v (Iftype.wakeReason .station)
  | .ap =>
    (s.txqVifStart v (Iftype.wakeReason .ap)).mapTxq (fun q => decide (q = .unk (s.masterVif v)))
      (Txq.start amlTxqStop)
  | .p2pGo =>
    (s.txqVifStart v (Iftype.wakeReason .p2pGo)).mapTxq (fun q => decide (q = .unk (s.masterVif v)))
      (Txq.start amlTxqStop)
  | .p2pClient => s.txqVifStart v (Iftype.wakeReason .p2pClient)
  | .meshPoint | .apVlan | .monitor => s

end GateHw

def psWowResume (env : SuspendEnv V) (s : PsHw V S) : PsHw V S :=
  if s.wow = false then s
  else if env.woken = false then s
  else
    { s with
      gate := (s.gate.psVifs env).foldl (fun g v => g.psWake v) s.gate
      wow := false }

/-- `aml_ps_wow_suspend`, and whether it returns `0`. -/
def psWowSuspend (env : SuspendEnv V) (s : PsHw V S) : PsHw V S × Bool :=
  if s.wow then (s, false)
  else if s.connecting then (s, false)
  else
    let walk := s.gate.psWalk env (s.gate.psVifs env)
    let t := { s with
      gate := walk.1.foldl (fun g v => g.txqVifStop v amlTxqStop) s.gate
      wow := true }
    if walk.2 && env.sent then (t, true) else (psWowResume env t, false)

def suspendResume (env : SuspendEnv V) (s : PsHw V S) : PsHw V S :=
  if (psWowSuspend env s).2 then psWowResume env (psWowSuspend env s).1 else (psWowSuspend env s).1

/-! ### What becomes of a queue -/

namespace Txq

/-- A queue is in the list of its hardware queue if it is not stopped and has buffers. -/
def Scheduled (x : Txq) : Prop := x.inHwqList = true ↔ x.status = ∅ ∧ x.skbReady = true

variable {x : Txq} {reason : Finset StopReason}

theorem start_empty : x.start ∅ = x := by
  unfold start
  exact if_neg fun both => both.2 (Finset.inter_empty _)

theorem start_credits : (x.start reason).credits = x.credits := by
  unfold start
  split
  · dsimp only
    split <;> rfl
  · rfl

theorem Scheduled.start (scheduled : x.Scheduled) : (x.start reason).Scheduled := by
  unfold Txq.start
  split
  · case isTrue both =>
    have stopped : x.status ≠ ∅ := fun none => both.2 (by rw [none, Finset.empty_inter])
    have out : x.inHwqList = false := Bool.eq_false_iff.mpr fun listed => stopped (scheduled.mp listed).1
    dsimp only
    split
    · case isTrue ready => exact iff_of_true rfl ready
    · case isFalse ready =>
      refine iff_of_false ?_ ready
      rw [out]
      exact Bool.false_ne_true
  · exact scheduled

def starts (x : Txq) (reasons : List (Finset StopReason)) : Txq := reasons.foldl (fun x r => x.start r) x

def cleared : List (Finset StopReason) → Finset StopReason
  | [] => ∅
  | r :: rest => r ∪ cleared rest

variable (reasons : List (Finset StopReason))

theorem starts_active : (x.starts reasons).active = x.active := by
  unfold starts
  induction reasons generalizing x with
  | nil => rfl
  | cons r rest ih => exact ih.trans (x.start_active r)

theorem starts_credits : (x.starts reasons).credits = x.credits := by
  unfold starts
  induction reasons generalizing x with
  | nil => rfl
  | cons r rest ih => exact ih.trans start_credits

theorem starts_status (active : x.active = true) (reasons : List (Finset StopReason)) :
    (x.starts reasons).status = x.status \ cleared reasons := by
  unfold starts
  induction reasons generalizing x with
  | nil => exact (Finset.sdiff_empty).symm
  | cons r rest ih =>
    have still : (x.start r).active = true := (x.start_active r).trans active
    calc ((r :: rest).foldl (fun x r => x.start r) x).status
        = (x.start r).status \ cleared rest := ih still
      _ = (x.status \ r) \ cleared rest := by rw [start_status r active]
      _ = x.status \ cleared (r :: rest) := by
        rw [sdiff_sdiff_left]
        rfl

theorem Scheduled.starts (scheduled : x.Scheduled) (reasons : List (Finset StopReason)) :
    (x.starts reasons).Scheduled := by
  unfold Txq.starts
  induction reasons generalizing x with
  | nil => exact scheduled
  | cons r rest ih => exact ih scheduled.start

theorem starts_of_disjoint (disjoint : Disjoint x.status (cleared reasons)) : x.starts reasons = x := by
  unfold starts
  induction reasons with
  | nil => rfl
  | cons r rest ih =>
    obtain ⟨first, later⟩ := Finset.disjoint_union_right.mp disjoint
    have idle : x.start r = x := by
      unfold start
      exact if_neg fun both => both.2 (Finset.disjoint_iff_inter_eq_empty.mp first)
    rw [List.foldl_cons, idle]
    exact ih later

theorem stop_scheduled (active : x.active = true) : (x.stop amlTxqStop).Scheduled := by
  unfold stop
  rw [if_pos active]
  refine iff_of_false Bool.false_ne_true fun both => ?_
  have none : x.status ∪ amlTxqStop = ∅ := both.1
  have has : .chan ∈ x.status ∪ amlTxqStop := Finset.mem_union_right _ (mem_amlTxqStop _)
  rw [none] at has
  exact absurd has (Finset.notMem_empty _)

theorem stop_credits : (x.stop reason).credits = x.credits := by
  unfold stop
  split <;> rfl

end Txq

namespace GateHw

variable (s : GateHw V S)

def psStarts (v : V) (q : Queue V S) : List (Finset StopReason) :=
  [if s.started v q then (s.vif v).iftype.wakeReason else ∅,
    if ((s.vif v).iftype = .ap ∨ (s.vif v).iftype = .p2pGo) ∧ q = .unk (s.masterVif v) then amlTxqStop
    else ∅]

theorem psWake_txq (v : V) : s.psWake v = { s with txq := fun q => (s.txq q).starts (s.psStarts v q) } := by
  have once : ∀ (reason : Finset StopReason) (hit : Prop) [Decidable hit] (x : Txq),
      (if hit then x.start reason else x) = x.start (if hit then reason else ∅) := fun reason hit _ x => by
    split
    · rfl
    · exact Txq.start_empty.symm
  have whole : ∀ (t : GateHw V S) (g : Queue V S → Txq), t = { s with txq := t.txq } → (∀ q, t.txq q = g q) →
      t = { s with txq := g } := fun t g same eq => by
    rw [same]
    exact congrArg (fun g => { s with txq := g }) (funext eq)
  refine whole _ _ ?_ fun q => ?_
  · unfold psWake
    split <;> first | rfl | rw [txqVifStart_txq]; rfl
  · unfold psWake psStarts Txq.starts
    cases kind : (s.vif v).iftype <;>
      simp only [txqVifStart_txq, mapTxq, List.foldl_cons, List.foldl_nil, once, reduceCtorEq, or_false, or_true,
        or_self, true_and, false_and, if_false, Txq.start_empty, Iftype.wakeReason, ite_self, decide_eq_true_eq]

theorem foldl_psWake (vifs : List V) : vifs.foldl (fun g v => g.psWake v) s =
      { s with txq := fun q => (s.txq q).starts (vifs.flatMap fun v => s.psStarts v q) } := by
  induction vifs generalizing s with
  | nil => rfl
  | cons v rest ih =>
    rw [List.foldl_cons, ih, psWake_txq]
    refine congrArg (fun g => { s with txq := g }) (funext fun q => ?_)
    rw [List.flatMap_cons]
    unfold Txq.starts
    rw [List.foldl_append]
    rfl

end GateHw

def PsHw.refused (s : PsHw V S) : Bool := s.wow || s.connecting

def PsHw.halted (s : PsHw V S) (env : SuspendEnv V) (q : Queue V S) : Bool :=
  !s.refused && (s.gate.psWalk env (s.gate.psVifs env)).1.any fun v => s.gate.stopped v q

def PsHw.starts (s : PsHw V S) (env : SuspendEnv V) (q : Queue V S) : List (Finset StopReason) :=
  if s.refused = false ∧ env.woken = true then (s.gate.psVifs env).flatMap fun v => s.gate.psStarts v q
  else []

variable {s : PsHw V S} {env : SuspendEnv V}

theorem suspendResume_txq (q : Queue V S) : (suspendResume env s).gate.txq q =
    (if s.halted env q then (s.gate.txq q).stop amlTxqStop else s.gate.txq q).starts (s.starts env q) := by
  unfold suspendResume psWowSuspend PsHw.halted PsHw.starts PsHw.refused
  cases wow : s.wow with
  | true => rfl
  | false =>
  cases connecting : s.connecting with
  | true => rfl
  | false =>
  have halted := GateHw.foldl_txqVifStop (s := s.gate) (s.gate.psWalk env (s.gate.psVifs env)).1 amlTxqStop
  -- a resume follows, after the suspend or within it
  have resumed : ∀ t : PsHw V S, t.wow = true →
      (∀ q, t.gate.txq q = if (s.gate.psWalk env (s.gate.psVifs env)).1.any fun v => s.gate.stopped v q then
        (s.gate.txq q).stop amlTxqStop else s.gate.txq q) →
      (∀ v, t.gate.psStarts v = s.gate.psStarts v) → t.gate.psVifs env = s.gate.psVifs env →
      (psWowResume env t).gate.txq q =
        (if (s.gate.psWalk env (s.gate.psVifs env)).1.any fun v => s.gate.stopped v q then
          (s.gate.txq q).stop amlTxqStop else s.gate.txq q).starts
            (if env.woken = true then (s.gate.psVifs env).flatMap fun v => s.gate.psStarts v q else []) :=
    fun t asleep txq starts vifs => by
      unfold psWowResume
      rw [asleep, if_neg (by decide)]
      cases woken : env.woken with
      | false => exact txq q
      | true =>
        rw [if_neg (by decide), if_pos rfl, GateHw.foldl_psWake, vifs]
        dsimp only
        rw [txq q]
        refine congrArg _ (congrArg (fun f => (s.gate.psVifs env).flatMap f) (funext fun v => ?_))
        rw [starts v]
  have here := resumed { s with
    gate := (s.gate.psWalk env (s.gate.psVifs env)).1.foldl (fun g v => g.txqVifStop v amlTxqStop) s.gate
    wow := true } rfl (fun q => by rw [halted]; rfl) (fun v => by rw [halted]; rfl) (by rw [halted]; rfl)
  cases through : (s.gate.psWalk env (s.gate.psVifs env)).2 && env.sent with
  | true => simpa only [wow, connecting, through, Bool.false_eq_true, if_false, if_true, Bool.or_self, Bool.not_false,
      Bool.true_and, true_and] using here
  | false => simpa only [wow, connecting, through, Bool.false_eq_true, if_false, if_true, Bool.or_self, Bool.not_false,
      Bool.true_and, true_and] using here

/-! ### Are they restored? -/

/-- **The queues are restored.** -/
def Restored (s t : GateHw V S) : Prop :=
  ∀ q, (s.txq q).active = true → (t.txq q).active = true ∧ (t.txq q).status = (s.txq q).status ∧
    (.full ∈ (t.txq q).status ↔ (t.txq q).credits ≤ 0) ∧ (t.txq q).Scheduled

/-- **A queue finds the reasons it had**: a queue that is stopped had all that are not cleared, a queue
that is not stopped none that are. -/
def Unharmed (env : SuspendEnv V) (s : PsHw V S) (q : Queue V S) : Prop :=
  (.full ∈ (s.gate.txq q).status ↔ (s.gate.txq q).credits ≤ 0) ∧
    if s.halted env q then (s.gate.txq q).status = amlTxqStop \ Txq.cleared (s.starts env q)
    else Disjoint (s.gate.txq q).status (Txq.cleared (s.starts env q)) ∧ (s.gate.txq q).Scheduled

/-- **When the queues are restored.** -/
theorem suspend_restores_iff (env : SuspendEnv V) (s : PsHw V S) :
    Restored s.gate (suspendResume env s).gate ↔ ∀ q, (s.gate.txq q).active = true → Unharmed env s q := by
  refine forall_congr' fun q => forall_congr' fun active => ?_
  rw [suspendResume_txq]
  unfold Unharmed
  generalize s.starts env q = reasons
  cases s.halted env q with
  | true =>
    rw [if_pos rfl, if_pos rfl]
    have still : ((s.gate.txq q).stop amlTxqStop).active = true := ((s.gate.txq q).stop_active _).trans active
    have all : (s.gate.txq q).status ∪ amlTxqStop = amlTxqStop :=
      Finset.union_eq_right.mpr fun r _ => mem_amlTxqStop r
    have status : (((s.gate.txq q).stop amlTxqStop).starts reasons).status = amlTxqStop \ Txq.cleared reasons := by
      rw [Txq.starts_status still, Txq.stop_status _ active, all]
    have credits : (((s.gate.txq q).stop amlTxqStop).starts reasons).credits = (s.gate.txq q).credits := by
      rw [Txq.starts_credits, Txq.stop_credits]
    have scheduled := (Txq.stop_scheduled active).starts reasons
    rw [Txq.starts_active, status, credits]
    constructor
    · rintro ⟨-, same, full, -⟩
      exact ⟨same ▸ full, same.symm⟩
    · rintro ⟨full, same⟩
      exact ⟨still, same.symm, same ▸ full, scheduled⟩
  | false =>
    rw [if_neg Bool.false_ne_true, if_neg Bool.false_ne_true]
    constructor
    · rintro ⟨-, same, full, scheduled⟩
      have disjoint : Disjoint (s.gate.txq q).status (Txq.cleared reasons) := by
        rw [Txq.starts_status active] at same
        exact Finset.sdiff_eq_self_iff_disjoint.mp same
      rw [Txq.starts_of_disjoint reasons disjoint] at full scheduled
      exact ⟨full, disjoint, scheduled⟩
    · rintro ⟨full, disjoint, scheduled⟩
      rw [Txq.starts_of_disjoint reasons disjoint]
      exact ⟨active, rfl, full, scheduled⟩

def connectedStation : PsHw Unit Unit where
  gate := {
    vifs := [()]
    vif := fun _ => { up := true, iftype := .station, ap := some () }
    staVif := fun _ => ()
    txq := fun q => { active := decide (q = .sta () ⟨0, by decide⟩), credits := 4 } }

/-- **A suspend and a resume stop the queues of a station for its channel.** -/
theorem suspend_stops_channel :
    ¬ ∀ (env : SuspendEnv Unit) (s : PsHw Unit Unit), Restored s.gate (suspendResume env s).gate := by
  intro restored
  have same := (restored {} connectedStation (.sta () ⟨0, by decide⟩) rfl).2.1
  have has : StopReason.chan ∈ ((suspendResume {} connectedStation).gate.txq (.sta () ⟨0, by decide⟩)).status := by
    rw [suspendResume_txq]
    decide
  rw [same] at has
  exact absurd has (Finset.notMem_empty _)

end W2l.Gate
