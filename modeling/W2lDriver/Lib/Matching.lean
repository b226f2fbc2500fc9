/-
**Answers matched to requests in order.**

Requests are sent one by one and wait in a list; an answer goes to the first request of the list that
wants it. Some requests leave the list unanswered, and the list may hold requests that were not sent
yet. `InOrder` says that the answers and the requests still waiting are, in this order, the requests
that were sent and have not left: the `k`-th answer went to the `k`-th of them.

* `InOrder.send`, `InOrder.sendGone`, `InOrder.queue`, `InOrder.leave`, `InOrder.answer` — what can
  happen to the list.
-/

import Mathlib.Data.List.Nodup

namespace W2l.Lib

open List (filter_append filter_congr filter_cons filter_eq_nil_iff filter_filter)

variable {α : Type} [DecidableEq α]

/-- `sent`: the requests sent, oldest first; `answered`: who got the answers, oldest first; `waiting`:
the list; `wants`: who waits for an answer. -/
def InOrder (sent answered waiting : List α) (wants : α → Bool) : Prop :=
  sent.filter (fun x => decide (x ∈ answered) || (decide (x ∈ waiting) && wants x)) =
    answered ++ waiting.filter fun x => wants x && decide (x ∈ sent)

namespace InOrder

variable {sent answered waiting : List α} {wants wants' : α → Bool} {x : α}

theorem nil : InOrder ([] : List α) [] [] wants := rfl

section

variable (ordered : InOrder sent answered waiting wants)

include ordered

theorem congr
    (same : ∀ y ∈ waiting, wants' y = wants y) : InOrder sent answered waiting wants' := by
  unfold InOrder at ordered ⊢
  have left : ∀ y ∈ sent, (decide (y ∈ answered) || (decide (y ∈ waiting) && wants' y)) =
        (decide (y ∈ answered) || (decide (y ∈ waiting) && wants y)) := by
    intro y _
    by_cases inside : y ∈ waiting
    · rw [same y inside]
    · simp [inside]
  have right : ∀ y ∈ waiting, (wants' y && decide (y ∈ sent)) = (wants y && decide (y ∈ sent)) :=
    fun y inside => by rw [same y inside]
  rw [filter_congr left, filter_congr right]
  exact ordered

theorem answered_sent (x : α)
    (got : x ∈ answered) : x ∈ sent := by
  have inside : x ∈ answered ++ waiting.filter fun y => wants y && decide (y ∈ sent) :=
    List.mem_append_left _ got
  rw [← ordered] at inside
  exact (List.mem_filter.mp inside).1

/-- A request is sent after all before it in the list, and before all behind it. -/
theorem send {before behind : List α}
    (fresh : x ∉ sent) (split : waiting = before ++ x :: behind)
    (first : ∀ y ∈ before, y ∈ sent) (last : ∀ y ∈ behind, y ∉ sent ∧ y ≠ x) :
    InOrder (sent ++ [x]) answered waiting wants := by
  unfold InOrder at ordered ⊢
  have unanswered : x ∉ answered := fun got => fresh (answered_sent ordered x got)
  have apart : ∀ y ∈ before, y ≠ x := by
    rintro y inside rfl
    exact fresh (first y inside)
  have old : waiting.filter (fun y => wants y && decide (y ∈ sent)) = before.filter wants := by
    have one : before.filter (fun y => wants y && decide (y ∈ sent)) = before.filter wants :=
      filter_congr fun y inside => by simp [first y inside]
    have none : behind.filter (fun y => wants y && decide (y ∈ sent)) = [] :=
      filter_eq_nil_iff.mpr fun y inside => by simp [(last y inside).1]
    rw [split, filter_append, one, filter_cons]
    simp [fresh, none]
  have new : waiting.filter (fun y => wants y && decide (y ∈ sent ++ [x])) =
      before.filter wants ++ [x].filter wants := by
    have one : before.filter (fun y => wants y && decide (y ∈ sent ++ [x])) = before.filter wants :=
      filter_congr fun y inside => by simp [first y inside]
    have none : behind.filter (fun y => wants y && decide (y ∈ sent ++ [x])) = [] :=
      filter_eq_nil_iff.mpr fun y inside => by
        simp [(last y inside).1, (last y inside).2]
    rw [split, filter_append, one, filter_cons, none]
    by_cases wanted : wants x = true <;> simp [wanted]
  have own : [x].filter (fun y => decide (y ∈ answered) || (decide (y ∈ waiting) && wants y)) = [x].filter wants := by
    have inside : x ∈ waiting := by simp [split]
    simp [filter_cons, unanswered, inside]
  rw [filter_append, ordered, old, own, new, List.append_assoc]

theorem sendGone (fresh : x ∉ sent)
    (gone : x ∉ waiting) : InOrder (sent ++ [x]) answered waiting wants := by
  unfold InOrder at ordered ⊢
  have unanswered : x ∉ answered := fun got => fresh (answered_sent ordered x got)
  have right : waiting.filter (fun y => wants y && decide (y ∈ sent ++ [x])) =
      waiting.filter fun y => wants y && decide (y ∈ sent) := by
    refine filter_congr fun y inside => ?_
    have ne : y ≠ x := fun same => gone (same ▸ inside)
    simp [ne]
  rw [filter_append, ordered, right]
  simp [unanswered, gone]

theorem queue (fresh : x ∉ sent) : InOrder sent answered (waiting ++ [x]) wants := by
  unfold InOrder at ordered ⊢
  have left : ∀ y ∈ sent, (decide (y ∈ answered) || (decide (y ∈ waiting ++ [x]) && wants y)) =
        (decide (y ∈ answered) || (decide (y ∈ waiting) && wants y)) := by
    intro y inside
    have ne : y ≠ x := fun same => fresh (same ▸ inside)
    simp [ne]
  rw [filter_congr left, ordered, filter_append]
  simp [fresh]

/-- A request leaves the list; it is not answered any more. -/
theorem leave (nodup : waiting.Nodup)
    (open' : wants x = true → x ∉ answered) : InOrder sent answered (waiting.erase x) wants := by
  unfold InOrder at ordered ⊢
  by_cases wanted : wants x = true
  · -- both sides lose `x`
    have unanswered := open' wanted
    have left : ∀ y ∈ sent, (decide (y ∈ answered) || (decide (y ∈ waiting.erase x) && wants y)) = (decide (y ≠ x) &&
            (decide (y ∈ answered) || (decide (y ∈ waiting) && wants y))) := by
      intro y _
      by_cases same : y = x
      · subst same
        simp [unanswered, nodup.not_mem_erase]
      · simp [same, List.mem_erase_of_ne same]
    have kept : answered.filter (fun y => decide (y ≠ x)) = answered :=
      List.filter_eq_self.mpr fun y got => by
        simpa using fun same : y = x => unanswered (same ▸ got)
    rw [filter_congr left, ← filter_filter, ordered, filter_append, kept,
      nodup.erase_eq_filter, filter_filter, filter_filter]
    congr 1
    refine filter_congr fun y _ => ?_
    rw [Bool.and_comm]
    simp [bne, Bool.beq_eq_decide_eq]
  · -- neither side has `x`
    have left : ∀ y ∈ sent, (decide (y ∈ answered) || (decide (y ∈ waiting.erase x) && wants y)) =
          (decide (y ∈ answered) || (decide (y ∈ waiting) && wants y)) := by
      intro y _
      by_cases same : y = x
      · simp [same, wanted]
      · simp [List.mem_erase_of_ne same]
    have right : (waiting.erase x).filter (fun y => wants y && decide (y ∈ sent)) =
        waiting.filter fun y => wants y && decide (y ∈ sent) := by
      rw [nodup.erase_eq_filter, filter_filter]
      refine filter_congr fun y _ => ?_
      by_cases same : y = x <;> simp [same, wanted]
    rw [filter_congr left, ordered, right]

/-- **An answer goes to the first request of the list that wants it.** -/
theorem answer (found : waiting.find? wants = some x)
    (known : x ∈ sent) (same : ∀ y, y ≠ x → wants' y = wants y) (served : wants' x = false)
    (nodup : waiting.Nodup) : InOrder sent (answered ++ [x]) waiting wants' := by
  unfold InOrder at ordered ⊢
  have wanted : wants x = true := List.find?_some found
  obtain ⟨-, before, behind, split, none⟩ := List.find?_eq_some_iff_append.mp found
  have split' : (before ++ x :: behind).Nodup := split ▸ nodup
  have apart : ∀ y ∈ behind, y ≠ x := by
    rintro y inside rfl
    exact (List.nodup_cons.mp split'.of_append_right).1 inside
  have unwanted : ∀ y ∈ before, wants y = false ∧ wants' y = false := by
    intro y inside
    have not' : wants y = false := by simpa using none y inside
    have ne : y ≠ x := by
      rintro rfl
      simp [wanted] at not'
    exact ⟨not', same y ne ▸ not'⟩
  have left : ∀ y ∈ sent, (decide (y ∈ answered ++ [x]) || (decide (y ∈ waiting) && wants' y)) =
        (decide (y ∈ answered) || (decide (y ∈ waiting) && wants y)) := by
    intro y _
    by_cases eq : y = x
    · simp [eq, wanted, split]
    · simp [eq, same y eq]
  have old : waiting.filter (fun y => wants y && decide (y ∈ sent)) =
      x :: behind.filter fun y => wants y && decide (y ∈ sent) := by
    have one : before.filter (fun y => wants y && decide (y ∈ sent)) = [] :=
      filter_eq_nil_iff.mpr fun y inside => by simp [(unwanted y inside).1]
    rw [split, filter_append, one]
    simp [wanted, known]
  have new : waiting.filter (fun y => wants' y && decide (y ∈ sent)) =
      behind.filter fun y => wants y && decide (y ∈ sent) := by
    have one : before.filter (fun y => wants' y && decide (y ∈ sent)) = [] :=
      filter_eq_nil_iff.mpr fun y inside => by simp [(unwanted y inside).2]
    rw [split, filter_append, one, filter_cons, List.nil_append]
    simp only [served, Bool.false_and, Bool.false_eq_true, if_false]
    exact filter_congr fun y inside => by rw [same y (apart y inside)]
  rw [filter_congr left, ordered, old, new, List.append_assoc]
  rfl

end

end InOrder

end W2l.Lib
