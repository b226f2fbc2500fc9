/-
**Lists that hand their nodes to one another.**

Intrusive lists over one table of nodes: a node leaves one list and is linked at the tail of another.
The concatenation of the lists stays a permutation of the table.

* `perm_takeFirst` — the first node of one list goes to the tail of the other.
* `perm_giveBack` — a node from anywhere in one list goes to the tail of the other.
* `map_update_of_notMem`, `perm_map_erase` — what the nodes carry, when another node is written and
  when a node leaves.
-/

import Mathlib.Data.List.Perm.Basic
import Mathlib.Data.List.Nodup

namespace W2l.Lib

variable {α β : Type}

theorem perm_takeFirst (a : α) (xs ys : List α) : (xs ++ (ys ++ [a])).Perm (a :: xs ++ ys) := by
  rw [← List.append_assoc]
  exact List.perm_append_singleton a (xs ++ ys)

theorem perm_giveBack [DecidableEq α] {a : α} (xs : List α) {ys : List α} (member : a ∈ ys) :
    ((xs ++ [a]) ++ ys.erase a).Perm (xs ++ ys) := by
  rw [List.append_assoc]
  exact (List.perm_cons_erase member).symm.append_left xs

theorem map_update_of_notMem [DecidableEq α] {f : α → β} {a : α} {b : β} {xs : List α}
    (fresh : a ∉ xs) : xs.map (Function.update f a b) = xs.map f := by
  refine List.map_congr_left fun x member => ?_
  rw [Function.update_of_ne]
  rintro rfl
  exact fresh member

theorem perm_map_erase [DecidableEq α] (f : α → β) {a : α} {xs : List α} (member : a ∈ xs) :
    (xs.map f).Perm (f a :: (xs.erase a).map f) :=
  (List.perm_cons_erase member).map f

end W2l.Lib
