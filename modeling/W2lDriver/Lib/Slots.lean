/-
**A table of slots with a count and a free hint.**

A table has a busy flag for each slot, the number of busy slots, and possibly a slot known to be free.
Slots are given back and taken one at a time; what the slots hold is a list. Nothing here names a
particular program.

* `Slots.Sound` — the count is right and the hint is free.
* `Slots.sound_free`, `Slots.sound_take` — giving back and taking keep it.
* `Slots.pick_free`, `Slots.pick_none` — **the slot picked is free, and none is picked only when all
  are busy**.
-/

import Mathlib.Data.Fintype.Card

namespace W2l.Lib

open Function (update update_eq_self update_self)

structure Slots (n : Nat) where
  busy : Fin n → Bool
  used : Int
  hint : Option (Fin n)

namespace Slots

variable {n : Nat} (s : Slots n)

def busyNum (busy : Fin n → Bool) : Nat := (Finset.univ.filter fun i => busy i = true).card

structure Sound : Prop where
  used : s.used = busyNum s.busy
  hint : ∀ i ∈ s.hint, s.busy i = false

/-- A slot is given back and becomes the hint. -/
def free (i : Fin n) : Slots n where
  busy := Function.update s.busy i false
  used := s.used - 1
  hint := some i

/-- A slot is taken and the hint is forgotten. -/
def take (i : Fin n) : Slots n where
  busy := Function.update s.busy i true
  used := s.used + 1
  hint := none

/-- The slot to take: the hint, or the first one that is free. -/
def pick : Option (Fin n) :=
  if s.used = n then none
  else match s.hint with
    | some i => some i
    | none => (List.finRange n).find? fun i => !s.busy i

variable {i : Fin n} {busy : Fin n → Bool}

theorem busyNum_update_true (free : busy i = false) : busyNum (update busy i true) = busyNum busy + 1 := by
  have absent : i ∉ Finset.univ.filter fun j => busy j = true := by simp [free]
  rw [busyNum, busyNum, ← Finset.card_insert_of_notMem absent]
  congr 1
  ext j
  by_cases same : j = i
  · simp [same]
  · simp [same]

theorem busyNum_update_false (taken : busy i = true) : busyNum (update busy i false) + 1 = busyNum busy := by
  have free : update busy i false i = false := update_self ..
  rw [← busyNum_update_true free, Function.update_idem, ← taken, update_eq_self]

theorem busyNum_eq_iff : busyNum busy = n ↔ ∀ i, busy i = true := by
  have card : busyNum busy = n ↔ (Finset.univ.filter fun i => busy i = true).card =
      (Finset.univ : Finset (Fin n)).card := by
    rw [busyNum, Finset.card_univ, Fintype.card_fin]
  rw [card, Finset.card_filter_eq_iff]
  simp

variable {s}

section

variable (sound : s.Sound)

include sound

theorem sound_free (busy : s.busy i = true) : (s.free i).Sound where
  used := by
    have count := busyNum_update_false busy
    show s.used - 1 = _
    rw [sound.used, ← count]
    simp [free]
  hint := by
    rintro j hint
    obtain rfl := Option.some.inj hint
    exact update_self ..

theorem sound_take (free : s.busy i = false) : (s.take i).Sound where
  used := by
    show s.used + 1 = _
    rw [sound.used, take, busyNum_update_true free]
    rfl
  hint := by
    rintro j hint
    cases hint

/-- **The slot picked is free.** -/
theorem pick_free (picked : s.pick = some i) : s.busy i = false := by
  unfold pick at picked
  split at picked
  case isTrue => cases picked
  case isFalse =>
    split at picked
    case h_1 j hint =>
      obtain rfl := Option.some.inj picked
      exact sound.hint j hint
    case h_2 => simpa using List.find?_some picked

/-- **None is picked only when all are busy.** -/
theorem pick_none (nothing : s.pick = none) (i : Fin n) : s.busy i = true := by
  unfold pick at nothing
  split at nothing
  case isTrue full =>
    rw [sound.used] at full
    exact busyNum_eq_iff.mp (Int.ofNat.inj full) i
  case isFalse =>
    split at nothing
    case h_1 => cases nothing
    case h_2 => simpa using List.find?_eq_none.mp nothing i (List.mem_finRange i)

end

end Slots

/-! ### What the slots hold -/

section Contents

variable {n : Nat} {α : Type}

def contents (slot : Fin n → Option α) : List α := (List.finRange n).filterMap slot

theorem mem_contents {slot : Fin n → Option α} {x : α} : x ∈ contents slot ↔ ∃ i, slot i = some x := by
  simp [contents]

/-- The contents with one slot apart. -/
theorem contents_perm (slot : Fin n → Option α) (i : Fin n) : ∃ rest : List α,
    ∀ x : Option α, (contents (update slot i x)).Perm (x.toList ++ rest) := by
  obtain ⟨before, after, parts⟩ := List.append_of_mem (List.mem_finRange i)
  have nodup := parts ▸ List.nodup_finRange n
  have outside : ∀ x, ∀ j ∈ before ++ after, update slot i x j = slot j :=
    fun x j member => by
      refine Function.update_of_ne ?_ _ _
      rintro rfl
      exact (List.nodup_middle.mp nodup).notMem member
  refine ⟨(before ++ after).filterMap slot, fun x => ?_⟩
  calc contents (update slot i x)
      = before.filterMap (update slot i x) ++ (x.toList ++ after.filterMap (update slot i x)) := by
        rw [contents, parts, List.filterMap_append, List.filterMap_cons]
        cases x <;> simp
    _ = before.filterMap slot ++ (x.toList ++ after.filterMap slot) := by
        rw [List.filterMap_congr fun j member => outside x j (List.mem_append_left _ member),
          List.filterMap_congr fun j member => outside x j (List.mem_append_right _ member)]
    List.Perm _ (x.toList ++ (before.filterMap slot ++ after.filterMap slot)) := by
        rw [← List.append_assoc, ← List.append_assoc]
        exact List.perm_append_comm.append_right _
    _ = x.toList ++ (before ++ after).filterMap slot := by rw [List.filterMap_append]

/-- **One slot before and after an update.** -/
theorem contents_exchange (slot : Fin n → Option α) (i : Fin n) (x : Option α) : ∃ rest : List α,
    (contents slot).Perm ((slot i).toList ++ rest) ∧ (contents (update slot i x)).Perm (x.toList ++ rest) := by
  obtain ⟨rest, perm⟩ := contents_perm slot i
  have before := perm (slot i)
  rw [update_eq_self] at before
  exact ⟨rest, before, perm x⟩

end Contents

end W2l.Lib
