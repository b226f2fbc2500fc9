/-
**Reference counts.**

A finite family of users, each of which refers to one object, or to what stands for none. The count of
an object is right when it is the number of its users. Nothing here names a particular program.

* `users` — the number of users of an object.
-/

import Mathlib.Data.Fintype.Card

namespace W2l.Lib

open Finset (erase_idem mem_filter mem_univ univ)

variable {α κ : Type} [Fintype α] [DecidableEq κ]

def users (refers : α → κ) (k : κ) : Nat := (Finset.univ.filter fun a => refers a = k).card

theorem users_pos {refers : α → κ} (a : α) : 0 < users refers (refers a) :=
  Finset.card_pos.mpr ⟨a, mem_filter.mpr ⟨mem_univ a, rfl⟩⟩

variable (refers : α → κ)

theorem users_le (k : κ) : users refers k ≤ Fintype.card α :=
  Finset.card_le_univ _

theorem users_lt {a : α} {k : κ} (other : refers a ≠ k) : users refers k < Fintype.card α := by
  refine Finset.card_lt_univ_of_notMem (x := a) fun member => other ?_
  exact (mem_filter.mp member).2

/-- **One user changes what it refers to.** -/
theorem users_update [DecidableEq α] (a : α) (k k' : κ) :
    users (Function.update refers a k) k' + (if refers a = k' then 1 else 0) =
      users refers k' + (if k = k' then 1 else 0) := by
  have split : ∀ f : α → κ, users f k' =
      ((univ.erase a).filter fun b => f b = k').card + if f a = k' then 1 else 0 := by
    intro f
    rw [users, ← Finset.insert_erase (mem_univ a), Finset.filter_insert]
    by_cases here : f a = k'
    · rw [if_pos here, if_pos here, Finset.card_insert_of_notMem]
      · rw [Finset.erase_insert_eq_erase, erase_idem]
      · intro member
        exact Finset.notMem_erase a _ (mem_filter.mp member).1
    · rw [if_neg here, if_neg here, Finset.erase_insert_eq_erase, erase_idem, Nat.add_zero]
  have others : ((univ.erase a).filter fun b => Function.update refers a k b = k') =
      (univ.erase a).filter fun b => refers b = k' := by
    refine Finset.filter_congr fun b member => ?_
    rw [Function.update_of_ne (Finset.ne_of_mem_erase member)]
  rw [split (Function.update refers a k), split refers, others, Function.update_self]
  omega

end W2l.Lib
