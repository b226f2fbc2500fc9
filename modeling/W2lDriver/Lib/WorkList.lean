/-
**A list of jobs, the work item that empties it, and the threads that add to it.**

A thread puts a job on the list and then queues the work item. The work item takes jobs from the front
until the list is empty; it does not run twice at once, and may be queued again while it runs.
Nothing here names a particular program.

* `step` — one critical section, or one atomic operation, at a time.
* `Sound.step` — **nothing is lost or doubled, and for a job on the list somebody is on the way**.
* `Sound.emptied` — **once the threads are through, the work item alone serves what is left**.
-/

import Mathlib.Data.List.Perm.Basic

namespace W2l.Lib

open List (append_assoc append_nil nil_append nil_sublist perm_append_comm)
open Option (ite_none_right_eq_some)

structure WorkList (α : Type) where
  waiting : List α := []
  /-- The work item is queued and has not started. -/
  pending : Bool := false
  running : Bool := false
  serving : Option α := none
  /-- The threads between putting a job on the list and queueing the work item. -/
  adding : ℕ := 0
  cancelled : Bool := false
  added : List α := []
  served : List α := []
  dropped : List α := []

namespace WorkList

variable {α : Type}

inductive Act (α : Type)
  | put (a : α)
  /-- A thread queues the work item, or finds that it is queued. -/
  | queue
  | start
  | take
  | finish
  | drop
  | cancel

def step (s : WorkList α) : Act α → Option (WorkList α)
  | .put a => some { s with waiting := s.waiting ++ [a], adding := s.adding + 1, added := s.added ++ [a] }
  | .queue => if 0 < s.adding then some { s with adding := s.adding - 1, pending := true } else none
  | .start => if s.pending = true ∧ s.running = false then some { s with pending := false, running := true } else none
  | .take =>
    if s.running = true ∧ s.serving = none then
      match s.waiting with
      | [] => some { s with running := false }
      | a :: rest => some { s with waiting := rest, serving := some a }
    else none
  | .finish => s.serving.map fun a => { s with serving := none, served := s.served ++ [a] }
  | .drop => some { s with waiting := [], dropped := s.dropped ++ s.waiting }
  | .cancel => if s.running = false then some { s with pending := false, cancelled := true } else none

/-- Nothing is added once the work item was cancelled, and it is cancelled when all threads are through. -/
def Orderly (s : WorkList α) : Act α → Prop
  | .put _ => s.cancelled = false
  | .cancel => s.adding = 0
  | _ => True

/-- The jobs of the list and of the work item. -/
def held (s : WorkList α) : List α := s.serving.toList ++ s.waiting

structure Sound (s : WorkList α) : Prop where
  once : s.added.Perm (s.served ++ s.held ++ s.dropped)
  order : (s.served ++ s.held).Sublist s.added
  serves : s.serving ≠ none → s.running = true
  woken : s.waiting ≠ [] → s.cancelled = false → s.pending = true ∨ s.running = true ∨ 0 < s.adding
  closed : s.cancelled = true → s.adding = 0 ∧ s.pending = false ∧ s.running = false

variable {s s' : WorkList α}

namespace Sound

theorem empty : Sound ({} : WorkList α) := ⟨.refl _, .refl _, fun some => absurd rfl some, nofun, nofun⟩

theorem step {a : Act α} (sound : Sound s) (orderly : s.Orderly a) (stepped : s.step a = some s') : Sound s' := by
  obtain ⟨once, order, serves, woken, closed⟩ := sound
  cases a with
  | put a =>
    obtain rfl := Option.some.inj stepped
    refine ⟨(once.append_right [a]).trans ?_, ?_, serves, fun _ _ => .inr (.inr (Nat.succ_pos _)),
      fun past => nomatch past.symm.trans orderly⟩
    · simpa only [held, append_assoc] using
        ((perm_append_comm.append_left s.waiting).append_left s.serving.toList).append_left s.served
    · simpa only [held, append_assoc] using order.append_right [a]
  | queue =>
    obtain ⟨some, same⟩ := ite_none_right_eq_some.mp stepped
    obtain rfl := Option.some.inj same
    exact ⟨once, order, serves, fun _ _ => .inl rfl, fun past => absurd (closed past).1 (Nat.ne_of_gt some)⟩
  | start =>
    obtain ⟨⟨pending, -⟩, same⟩ := ite_none_right_eq_some.mp stepped
    obtain rfl := Option.some.inj same
    exact ⟨once, order, fun _ => rfl, fun _ _ => .inr (.inl rfl),
      fun past => nomatch (closed past).2.1.symm.trans pending⟩
  | take =>
    obtain ⟨⟨running, free⟩, same⟩ := ite_none_right_eq_some.mp stepped
    have live : s.cancelled ≠ true := fun past => nomatch (closed past).2.2.symm.trans running
    split at same
    case h_1 none =>
      obtain rfl := Option.some.inj same
      exact ⟨once, order, fun some => absurd free some, fun some => absurd none some, fun past => absurd past live⟩
    case h_2 a rest list =>
      obtain rfl := Option.some.inj same
      unfold held at once order
      rw [free, list] at once order
      exact ⟨once, order, fun _ => running, fun _ _ => .inr (.inl running), fun past => absurd past live⟩
  | finish =>
    obtain ⟨a, serving, rfl⟩ := Option.map_eq_some_iff.mp stepped
    have moved : s.served ++ s.held = s.served ++ [a] ++ s.waiting := by
      rw [held, serving, append_assoc]
      rfl
    rw [moved] at once order
    exact ⟨once, order, fun some => absurd rfl some, woken, closed⟩
  | drop =>
    obtain rfl := Option.some.inj stepped
    have fewer : (s.serving.toList ++ []).Sublist s.held := (nil_sublist _).append_left _
    refine ⟨once.trans ?_, (fewer.append_left _).trans order, serves, fun some => absurd rfl some, closed⟩
    simpa only [held, append_assoc, nil_append] using
      (perm_append_comm.append_left s.serving.toList).append_left s.served
  | cancel =>
    obtain ⟨idle, same⟩ := ite_none_right_eq_some.mp stepped
    obtain rfl := Option.some.inj same
    exact ⟨once, order, serves, nofun, fun _ => ⟨orderly, rfl, idle⟩⟩

/-- **What was neither served nor dropped is gone when a cancelled list is empty.** -/
theorem ended (sound : Sound s) (cancelled : s.cancelled = true) (empty : s.waiting = []) :
    s.added.Perm (s.served ++ s.dropped) := by
  have free : s.serving = none := by
    by_contra some
    exact nomatch (sound.closed cancelled).2.2.symm.trans (sound.serves some)
  have once := sound.once
  rwa [held, free, empty, append_assoc] at once

end Sound

/-- The steps of the work item. -/
def Act.Works : Act α → Prop
  | .start | .take | .finish => True
  | _ => False

/-- The work item can go on from `s` alone until it has served `jobs` and holds none. -/
def Serves (s : WorkList α) (jobs : List α) : Prop :=
  ∃ (acts : List (Act α)) (s' : WorkList α), (∀ a ∈ acts, a.Works) ∧ acts.foldlM step s = some s' ∧
    s'.held = [] ∧ s'.served = s.served ++ jobs

theorem Serves.behind {jobs jobs' : List α} (later : Serves s' jobs') (a : Act α) (works : a.Works)
    (stepped : s.step a = some s') (served : s'.served ++ jobs' = s.served ++ jobs) : Serves s jobs := by
  obtain ⟨acts, t, all, ran, empty, same⟩ := later
  refine ⟨a :: acts, t, List.forall_mem_cons.mpr ⟨works, all⟩, ?_, empty, same.trans served⟩
  rw [List.foldlM_cons, stepped]
  exact ran

theorem serves_waiting (running : s.running = true) (free : s.serving = none) : Serves s s.waiting := by
  induction list : s.waiting generalizing s with
  | nil => exact ⟨[], s, nofun, rfl, by rw [held, free, list]; rfl, (append_nil _).symm⟩
  | cons a rest ih =>
    have took : s.step .take = some { s with waiting := rest, serving := some a } := by
      simp [step, running, free, list]
    have later := ih (s := { s with waiting := rest, serving := none, served := s.served ++ [a] }) running rfl rfl
    exact (later.behind (s := { s with waiting := rest, serving := some a }) .finish trivial rfl
      (append_assoc _ _ _)).behind .take trivial took rfl

/-- **Once the threads are through, the work item alone serves all that is left.** -/
theorem Sound.emptied (sound : Sound s) (through : s.adding = 0) (live : s.cancelled = false) : Serves s s.held := by
  unfold held
  cases serving : s.serving with
  | some a =>
    have finished : s.step .finish = some { s with serving := none, served := s.served ++ [a] } :=
      congrArg (Option.map _) serving
    exact (serves_waiting (s := { s with serving := none, served := s.served ++ [a] })
      (sound.serves (serving ▸ nofun)) rfl).behind .finish trivial finished (append_assoc _ _ _)
  | none =>
    by_cases running : s.running = true
    · exact serves_waiting running serving
    by_cases none : s.waiting = []
    · rw [none]
      exact ⟨[], s, nofun, rfl, by rw [held, serving, none]; rfl, (append_nil _).symm⟩
    · have pending : s.pending = true := by simpa [running, through] using sound.woken none live
      exact (serves_waiting (s := { s with pending := false, running := true }) rfl serving).behind .start
        trivial (if_pos ⟨pending, Bool.eq_false_iff.mpr running⟩) rfl

end WorkList

end W2l.Lib
