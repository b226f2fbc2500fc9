/-
**Words from a position on, and stores.**

A memory is a function from positions to words. Nothing here names a particular program.

* `Stored` — a list lies in the memory from a position on.
* `put`, `stored_put` — a store, and what is read back.
* `Stored.put`, `Stored.replace`, `Stored.overwrite` — **a store elsewhere, a store over words of the
  list, and a store over its end**.
-/

import Mathlib.Data.List.Basic

namespace W2l.Lib

variable {α : Type}

def Stored (data : Nat → α) (off : Nat) (ws : List α) : Prop :=
  ∀ k (inside : k < ws.length), data (off + k) = ws[k]

def put (data : Nat → α) (off : Nat) (ws : List α) : Nat → α := fun k =>
  if off ≤ k then (ws[k - off]?).getD (data k) else data k

/-- So many words from a position on. -/
def fetch (data : Nat → α) (off n : Nat) : List α := (List.range n).map fun k => data (off + k)

variable {data : Nat → α} {off off' n : Nat} {w : α} {ws ws' xs : List α}

theorem put_outside {k : Nat} (outside : k < off ∨ off + ws.length ≤ k) : put data off ws k = data k := by
  unfold put
  split
  case isTrue above => rw [List.getElem?_eq_none (by omega), Option.getD_none]
  case isFalse => rfl

theorem put_nil : put data off [] = data := by
  funext k
  exact put_outside (Nat.lt_or_ge k off)

theorem stored_put : Stored (put data off ws) off ws := fun k inside => by
  rw [put, if_pos (Nat.le_add_right off k), Nat.add_sub_cancel_left,
    List.getElem?_eq_getElem inside, Option.getD_some]

theorem Stored.put (stored : Stored data off ws)
    (outside : off' + ws'.length ≤ off ∨ off + ws.length ≤ off') :
    Stored (put data off' ws') off ws := fun k inside => by
  rw [put_outside (by omega), stored k inside]

theorem Stored.update (stored : Stored data off ws) {p : Nat} {w : α}
    (outside : p < off ∨ off + ws.length ≤ p) : Stored (Function.update data p w) off ws :=
  fun k inside => by rw [Function.update_of_ne (by omega), stored k inside]

theorem stored_append : Stored data off (ws ++ ws') ↔ Stored data off ws ∧ Stored data (off + ws.length) ws' := by
  refine ⟨fun stored => ⟨fun k inside => ?_, fun k inside => ?_⟩, fun ⟨first, second⟩ k inside => ?_⟩
  · rw [stored k (by rw [List.length_append]; omega), List.getElem_append_left inside]
  · have there := stored (ws.length + k) (by rw [List.length_append]; omega)
    rw [List.getElem_append_right (by omega)] at there
    rw [Nat.add_assoc, there]
    congr 1
    omega
  · rw [List.length_append] at inside
    by_cases left : k < ws.length
    · rw [List.getElem_append_left left, first k left]
    · rw [List.getElem_append_right (by omega), ← second (k - ws.length) (by omega)]
      congr 1
      omega

theorem stored_nil : Stored data off [] := fun k inside => absurd inside (Nat.not_lt_zero k)

theorem stored_singleton : Stored data off [w] ↔ data off = w := by
  refine ⟨fun stored => stored 0 Nat.one_pos, fun same k inside => ?_⟩
  obtain rfl : k = 0 := Nat.lt_one_iff.mp inside
  exact same

theorem stored_cons : Stored data off (w :: ws) ↔ data off = w ∧ Stored data (off + 1) ws := by
  rw [← List.singleton_append, stored_append, stored_singleton]
  rfl

@[simp] theorem length_fetch : (fetch data off n).length = n := by
  rw [fetch, List.length_map, List.length_range]

theorem stored_fetch : Stored data off (fetch data off n) := fun k inside => by
  simp only [fetch, List.getElem_map, List.getElem_range]

theorem Stored.fetch (stored : Stored data off ws) : fetch data off ws.length = ws := by
  refine List.ext_getElem length_fetch fun k _ inside => ?_
  refine Eq.trans ?_ (stored k inside)
  simp only [Lib.fetch, List.getElem_map, List.getElem_range]

theorem Stored.replace {old : List α} (stored : Stored data off (xs ++ (old ++ ws)))
    (same : ws'.length = old.length) (at_ : off' = off + xs.length) :
    Stored (Lib.put data off' ws') off (xs ++ (ws' ++ ws)) := by
  subst at_
  obtain ⟨front, rest⟩ := stored_append.mp stored
  obtain ⟨-, back⟩ := stored_append.mp rest
  refine stored_append.mpr ⟨front.put (.inr (Nat.le_refl _)), stored_append.mpr ⟨stored_put, ?_⟩⟩
  rw [same]
  exact back.put (.inl (by omega))

theorem Stored.overwrite (stored : Stored data off xs) (at_ : off' = off + xs.length) :
    Stored (Lib.put data off' ws') off (xs ++ ws') := by
  subst at_
  exact stored_append.mpr ⟨stored.put (.inr (Nat.le_refl _)), stored_put⟩

end W2l.Lib
