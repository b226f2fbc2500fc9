/-
**Custody: what was acquired, what was released, and what is held.**

A program acquires things one at a time, holds them in places it knows, and releases them. Custody is
kept when every thing that was acquired has been released, or is held, once. Nothing here names a
particular program.

* `Custody` — the balance of the three lists.
* `Custody.acquire`, `Custody.releaseAll`, `Custody.moved` — the three things a program does.
* `Custody.once` — **each thing acquired was released once and is held nowhere, or is held in one
  place and was not released**.
-/

import Mathlib.Data.List.Perm.Basic
import Mathlib.Data.List.Nodup

namespace W2l.Lib

/-- The things acquired are different, and are those released and those held. -/
structure Custody {ρ : Type} (acquired released held : List ρ) : Prop where
  nodup : acquired.Nodup
  balance : acquired.Perm (released ++ held)

namespace Custody

variable {ρ : Type} {acquired released held : List ρ}

theorem empty : Custody ([] : List ρ) [] [] := ⟨List.nodup_nil, .refl _⟩

theorem acquire (custody : Custody acquired released held) {r : ρ} (fresh : r ∉ acquired) :
    Custody (acquired ++ [r]) released (r :: held) where
  nodup := by
    refine List.nodup_append.mpr ⟨custody.nodup, List.nodup_singleton r, ?_⟩
    rintro a old _ new rfl
    exact fresh (List.mem_singleton.mp new ▸ old)
  balance := calc
    (acquired ++ [r]).Perm (r :: acquired) := List.perm_append_singleton r acquired
    List.Perm _ (r :: (released ++ held)) := custody.balance.cons r
    List.Perm _ (released ++ r :: held) := List.perm_middle.symm

theorem moved {held' : List ρ} (custody : Custody acquired released held)
    (perm : held.Perm held') : Custody acquired released held' :=
  ⟨custody.nodup, custody.balance.trans (perm.append_left released)⟩

theorem releaseAll {rs : List ρ} (custody : Custody acquired released (rs ++ held)) :
    Custody acquired (released ++ rs) held where
  nodup := custody.nodup
  balance := by
    rw [List.append_assoc]
    exact custody.balance

variable [DecidableEq ρ]

/-- **Released once, or held in one place.** -/
theorem once (custody : Custody acquired released held) {r : ρ} (member : r ∈ acquired) :
    released.count r + held.count r = 1 := by
  rw [← List.count_append, ← custody.balance.count_eq]
  exact List.count_eq_one_of_mem custody.nodup member

omit [DecidableEq ρ] in
theorem mem_of_released (custody : Custody acquired released held) {r : ρ}
    (member : r ∈ released) : r ∈ acquired :=
  custody.balance.mem_iff.mpr (List.mem_append_left held member)

end Custody

end W2l.Lib
