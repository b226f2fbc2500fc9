/-
**Lists whose members carry a flag.**

An element has a list of its own, and a flag that says whether it is in it, as a linked list does whose links are
in the elements. Nothing here names a particular program.

* `Flagged` — **an element is in its own list, once, if its flag is set, and in no list if it is not**.
* `Flagged.add`, `Flagged.remove`, `Flagged.perm` — what is done to the lists and keeps that.
-/

import Mathlib.Data.List.Nodup

namespace W2l.Lib

open Function (update update_of_ne update_self)

variable {Q T : Type} [DecidableEq Q] [DecidableEq T]

/-- **An element is in its own list, once, if its flag is set, and in no list if it is not.** -/
def Flagged (lists : Q → List T) (flag : T → Bool) (own : T → Q) : Prop :=
  ∀ q t, (lists q).count t = if flag t = true ∧ own t = q then 1 else 0

namespace Flagged

variable {lists lists' : Q → List T} {flag flag' : T → Bool} {own own' : T → Q} {q : Q} {t : T}

section

variable (flagged : Flagged lists flag own)

include flagged

theorem mem_iff : t ∈ lists q ↔ flag t = true ∧ own t = q := by
  rw [← List.count_pos_iff, flagged q t]
  by_cases here : flag t = true ∧ own t = q
  · rw [if_pos here]
    exact iff_of_true Nat.one_pos here
  · rw [if_neg here]
    exact iff_of_false (Nat.lt_irrefl 0) here

theorem nodup (q : Q) : (lists q).Nodup := by
  refine List.nodup_iff_count_le_one.mpr fun t => ?_
  rw [flagged q t]
  split
  · exact Nat.le_refl 1
  · exact Nat.zero_le 1

theorem perm (same : ∀ q, (lists' q).Perm (lists q))
    (flags : ∀ t, flag' t = flag t) (owns : ∀ t, flag t = true → own' t = own t) : Flagged lists' flag' own' := by
  intro q t
  rw [(same q).count_eq, flagged q t, flags t]
  refine if_congr (and_congr_right fun set => ?_) rfl rfl
  rw [owns t set]

/-- **An element enters its list.** -/
theorem add (unset : flag t = false) :
    Flagged (update lists (own t) (lists (own t) ++ [t])) (update flag t true) own := by
  intro q u
  by_cases same : u = t
  · subst same
    rw [update_self]
    have absent (q : Q) : (lists q).count u = 0 := by
      rw [flagged q u, unset]
      exact if_neg fun both => nomatch both.1
    by_cases here : own u = q
    · subst here
      rw [update_self, List.count_append, absent, List.count_singleton_self, if_pos ⟨rfl, rfl⟩]
    · rw [update_of_ne (Ne.symm here), absent, if_neg fun both => here both.2]
  · rw [update_of_ne same, ← flagged q u]
    by_cases here : q = own t
    · subst here
      have absent : u ∉ [t] := fun member => same (List.mem_singleton.mp member)
      rw [update_self, List.count_append, List.count_eq_zero.mpr absent]
      rfl
    · rw [update_of_ne here]

/-- **An element leaves its list.** -/
theorem remove (t : T) : Flagged (fun q => (lists q).erase t) (update flag t false) own := by
  intro q u
  show ((lists q).erase t).count u = _
  by_cases same : u = t
  · subst same
    rw [List.count_erase_self, update_self, if_neg fun both => nomatch both.1]
    have once := List.nodup_iff_count_le_one.mp (flagged.nodup q) u
    exact Nat.sub_eq_zero_of_le once
  · rw [update_of_ne same, List.count_erase_of_ne same, flagged q u]

end

end Flagged

end W2l.Lib
