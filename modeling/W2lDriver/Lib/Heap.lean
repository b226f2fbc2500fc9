/-
**A heap of objects that are freed by hand.**

Objects are named in the order they are allocated and keep their contents when they are freed. Freeing
is counted, and a use of an object that is not allocated is remembered. Nothing here names a particular
program.

* `Heap.alloc`, `Heap.free`, `Heap.use`, `Heap.modify` — the operations.
* `Heap.Owns` — **the objects that are allocated are those of a list**, no freed object was used and
  none was freed twice.
* `Owns.alloc`, `Owns.free`, `Owns.use`, `Owns.modify` — the rules.
* `Owns.freed` — an object that is not in the list was freed once.
-/

import Mathlib.Data.List.Nodup
import Mathlib.Order.Basic

namespace W2l.Lib

open Function (update update_of_ne update_self)

/-- Objects by number. -/
structure Heap (α : Type) where
  /-- The objects below were allocated. -/
  next : ℕ := 0
  obj : ℕ → Option α := fun _ => none
  /-- How often an object was freed. -/
  frees : ℕ → ℕ := fun _ => 0
  /-- What was used when it was not allocated. -/
  misused : List ℕ := []

namespace Heap

variable {α : Type} (h : Heap α) (i : ℕ)

/-- An object is allocated. -/
def Live : Prop := i < h.next ∧ h.frees i = 0

instance : Decidable (h.Live i) := inferInstanceAs (Decidable (_ ∧ _))

/-- A new object, `h.next`. -/
def alloc (a : α) : Heap α :=
  { h with next := h.next + 1, obj := Function.update h.obj h.next (some a) }

def free : Heap α := { h with frees := Function.update h.frees i (h.frees i + 1) }

/-- An object is read. -/
def use : Heap α := if h.Live i then h else { h with misused := i :: h.misused }

/-- An object is read and written. -/
def modify (f : α → α) : Heap α := { h.use i with obj := Function.update h.obj i ((h.obj i).map f) }

variable {h i}

@[simp] theorem alloc_obj (a : α) : (h.alloc a).obj = update h.obj h.next (some a) := rfl

@[simp] theorem modify_obj (f : α → α) : (h.modify i f).obj = update h.obj i ((h.obj i).map f) := rfl

theorem use_of_live (live : h.Live i) : h.use i = h := if_pos live

/-- **The objects that are allocated** are those of a list. -/
structure Owns (h : Heap α) (owned : List ℕ) : Prop where
  nodup : owned.Nodup
  live : ∀ i, i ∈ owned ↔ h.Live i
  once : ∀ i, h.frees i ≤ 1
  fresh : ∀ i, h.next ≤ i → h.frees i = 0 ∧ h.obj i = none
  some_of_lt : ∀ i, i < h.next → (h.obj i).isSome = true
  clean : h.misused = []

namespace Owns

variable {owned : List ℕ}

theorem empty : Owns ({} : Heap α) [] where
  nodup := List.nodup_nil
  live := fun i => iff_of_false List.not_mem_nil fun live => absurd live.1 (Nat.not_lt_zero i)
  once := fun _ => Nat.zero_le 1
  fresh := fun _ _ => ⟨rfl, rfl⟩
  some_of_lt := fun i below => absurd below (Nat.not_lt_zero i)
  clean := rfl

section

variable (owns : h.Owns owned)

include owns

theorem perm {owned' : List ℕ} (perm : owned.Perm owned') : h.Owns owned' :=
  { owns with
    nodup := perm.nodup_iff.mp owns.nodup
    live := fun i => perm.mem_iff.symm.trans (owns.live i) }

theorem lt_next (mem : i ∈ owned) : i < h.next := ((owns.live i).mp mem).1

theorem obj (mem : i ∈ owned) : ∃ a, h.obj i = some a :=
  Option.isSome_iff_exists.mp (owns.some_of_lt i (owns.lt_next mem))

theorem next_notMem : h.next ∉ owned := fun mem =>
  absurd (owns.lt_next mem) (Nat.lt_irrefl _)

/-- **An object that is not owned was freed once.** -/
theorem freed (below : i < h.next) (out : i ∉ owned) : h.frees i = 1 := by
  have dead : h.frees i ≠ 0 := fun none => out ((owns.live i).mpr ⟨below, none⟩)
  have most := owns.once i
  omega

theorem alloc (a : α) : (h.alloc a).Owns (h.next :: owned) where
  nodup := List.nodup_cons.mpr ⟨owns.next_notMem, owns.nodup⟩
  live := fun i => by
    rw [List.mem_cons, owns.live i]
    show _ ↔ i < h.next + 1 ∧ h.frees i = 0
    constructor
    · rintro (rfl | ⟨below, unfreed⟩)
      · exact ⟨Nat.lt_succ_self _, (owns.fresh _ (Nat.le_refl _)).1⟩
      · exact ⟨Nat.lt_succ_of_lt below, unfreed⟩
    · rintro ⟨below, unfreed⟩
      rcases Nat.lt_succ_iff_lt_or_eq.mp below with older | rfl
      · exact .inr ⟨older, unfreed⟩
      · exact .inl rfl
  once := owns.once
  fresh := fun i above => by
    have later : h.next < i := above
    have old := owns.fresh i (Nat.le_of_lt later)
    exact ⟨old.1, (update_of_ne (Nat.ne_of_gt later) _ _).trans old.2⟩
  some_of_lt := fun i below => by
    show (update h.obj h.next (some a) i).isSome = true
    rcases Nat.lt_succ_iff_lt_or_eq.mp below with older | rfl
    · rw [update_of_ne (Nat.ne_of_lt older)]
      exact owns.some_of_lt i older
    · rw [update_self]
      rfl
  clean := owns.clean

end

/-- The first of the owned objects is freed. -/
theorem free (owns : h.Owns (i :: owned)) : (h.free i).Owns owned where
  nodup := (List.nodup_cons.mp owns.nodup).2
  live := fun j => by
    show _ ↔ j < h.next ∧ update h.frees i (h.frees i + 1) j = 0
    by_cases same : j = i
    · subst same
      rw [update_self]
      exact iff_of_false (List.nodup_cons.mp owns.nodup).1 fun both => Nat.succ_ne_zero _ both.2
    · rw [update_of_ne same]
      have here := owns.live j
      rw [List.mem_cons, or_iff_right same] at here
      exact here
  once := fun j => by
    show update h.frees i (h.frees i + 1) j ≤ 1
    by_cases same : j = i
    · subst same
      have first : update h.frees j (h.frees j + 1) j = 1 := by
        rw [update_self, ((owns.live j).mp List.mem_cons_self).2]
      exact Nat.le_of_eq first
    · rw [update_of_ne same]
      exact owns.once j
  fresh := fun j above => by
    have other : j ≠ i := by
      rintro rfl
      exact absurd (owns.lt_next List.mem_cons_self) (Nat.not_lt.mpr above)
    exact ⟨(update_of_ne other _ _).trans (owns.fresh j above).1, (owns.fresh j above).2⟩
  some_of_lt := owns.some_of_lt
  clean := owns.clean

theorem use_eq (owns : h.Owns owned) (mem : i ∈ owned) : h.use i = h :=
  use_of_live ((owns.live i).mp mem)

theorem modify (owns : h.Owns owned) (mem : i ∈ owned) (f : α → α) : (h.modify i f).Owns owned := by
  have same : h.modify i f = { h with obj := update h.obj i ((h.obj i).map f) } := by
    unfold Heap.modify
    rw [owns.use_eq mem]
  rw [same]
  refine { owns with
    live := owns.live
    fresh := fun j above => ⟨(owns.fresh j above).1, ?_⟩
    some_of_lt := fun j below => ?_ }
  · have other : j ≠ i := by
      rintro rfl
      exact absurd (owns.lt_next mem) (Nat.not_lt.mpr above)
    exact (update_of_ne other _ _).trans (owns.fresh j above).2
  · show (update h.obj i ((h.obj i).map f) j).isSome = true
    by_cases here : j = i
    · subst here
      rw [update_self, Option.isSome_map]
      exact owns.some_of_lt j below
    · rw [update_of_ne here]
      exact owns.some_of_lt j below

end Owns

end Heap

end W2l.Lib
