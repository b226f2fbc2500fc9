/-
**Buffers that are filled by reserving room and writing into it.**

A byte that was reserved and not written is `none`. Nothing here names a particular program.

* `overwrite` — a write into such a list; `overwrite_append` — a write behind a front leaves the front alone.
* `PartElement`, `partBytes` — an element whose content may have gaps, and a list of them in memory.
* `partElements` — the strict reading: the whole buffer must be a list of elements with written headers;
  `partElements_bytes` — **a list in memory reads as itself**.
-/

import W2lDriver.Lib.Element

namespace W2l.Lib

/-! ### Writing into what was reserved -/

section Overwrite

variable {α : Type}

/-- Write `ws` from `pos` on. -/
def overwrite (data : List (Option α)) (pos : ℕ) (ws : List α) : List (Option α) :=
  data.take pos ++ (ws.map some ++ data.drop (pos + ws.length))

variable {front back : List (Option α)} {ws : List α} {pos : ℕ}

theorem overwrite_append : overwrite (front ++ back) (front.length + pos) ws = front ++ overwrite back pos ws := by
  unfold overwrite
  rw [List.take_length_add_append, Nat.add_assoc, List.drop_length_add_append, List.append_assoc]

theorem overwrite_part {region mid rest : List (Option α)} {done : List α}
    (split : region = done.map some ++ (mid ++ rest)) (here : pos = done.length) (same : mid.length = ws.length) :
    overwrite region pos ws = (done ++ ws).map some ++ rest := by
  have start : pos = (done.map some).length + 0 := here.trans (List.length_map ..).symm
  rw [split, start, overwrite_append]
  unfold overwrite
  rw [List.take_zero, Nat.zero_add, ← same, List.drop_left, List.nil_append, List.map_append, List.append_assoc]

end Overwrite

/-! ### Elements with gaps -/

/-- An element some of whose content may not be written. -/
structure PartElement where
  id : Byte
  data : List (Option Byte)
  deriving DecidableEq

def PartElement.bytes (e : PartElement) : List (Option Byte) :=
  some e.id :: some (BitVec.ofNat 8 e.data.length) :: e.data

def partBytes (es : List PartElement) : List (Option Byte) := es.flatMap PartElement.bytes

def Element.toPart (e : Element) : PartElement := ⟨e.id, e.data.map some⟩

/-- Read a buffer as a list of at most `fuel` elements. -/
def readElements : ℕ → List (Option Byte) → Option (List PartElement)
  | _, [] => some []
  | fuel + 1, some id :: some len :: rest =>
    if len.toNat ≤ rest.length then
      (readElements fuel (rest.drop len.toNat)).map fun es => ⟨id, rest.take len.toNat⟩ :: es
    else none
  | _, _ => none

def partElements (buf : List (Option Byte)) : Option (List PartElement) := readElements buf.length buf

section Elements

variable {e : PartElement} {es : List PartElement} {fuel : ℕ}

theorem partBytes_cons : partBytes (e :: es) = e.bytes ++ partBytes es := List.flatMap_cons

theorem partBytes_append (es' : List PartElement) : partBytes (es ++ es') = partBytes es ++ partBytes es' :=
  List.flatMap_append

theorem partBytes_singleton (e : PartElement) : partBytes [e] = e.bytes := by
  rw [partBytes_cons]
  exact List.append_nil _

theorem partBytes_toPart (es : List Element) : partBytes (es.map Element.toPart) = (elementsBytes es).map some := by
  induction es with
  | nil => rfl
  | cons e es ih =>
    rw [List.map_cons, partBytes_cons, ih, elementsBytes_cons, List.map_append]
    congr 1
    unfold PartElement.bytes Element.bytes Element.toPart
    dsimp only
    rw [List.length_map, List.map_cons, List.map_cons]

theorem readElements_bytes (short : ∀ e ∈ es, e.data.length < 256) (enough : es.length ≤ fuel) :
    readElements fuel (partBytes es) = some es := by
  induction es generalizing fuel with
  | nil =>
    unfold partBytes readElements
    rfl
  | cons e es ih =>
    obtain ⟨fuel, rfl⟩ := Nat.exists_eq_add_one_of_ne_zero (Nat.ne_of_gt (Nat.zero_lt_of_lt enough))
    obtain ⟨here, later⟩ := List.forall_mem_cons.mp short
    rw [partBytes_cons]
    show readElements (fuel + 1) (some e.id :: some (BitVec.ofNat 8 e.data.length) :: (e.data ++ partBytes es)) = _
    unfold readElements
    have length : (BitVec.ofNat 8 e.data.length).toNat = e.data.length := by
      rw [BitVec.toNat_ofNat]
      exact Nat.mod_eq_of_lt here
    have whole : (BitVec.ofNat 8 e.data.length).toNat ≤ (e.data ++ partBytes es).length := by
      rw [length, List.length_append]
      exact Nat.le_add_right _ _
    rw [if_pos whole, length, List.drop_left, List.take_left, ih later (Nat.le_of_succ_le_succ enough)]
    rfl

theorem length_le_partBytes (es : List PartElement) : es.length ≤ (partBytes es).length := by
  induction es with
  | nil => exact le_rfl
  | cons e es ih =>
    rw [partBytes_cons, List.length_append, List.length_cons]
    unfold PartElement.bytes
    rw [List.length_cons]
    omega

/-- **A list in memory reads as itself.** -/
theorem partElements_bytes (short : ∀ e ∈ es, e.data.length < 256) : partElements (partBytes es) = some es :=
  readElements_bytes short (length_le_partBytes es)

end Elements

end W2l.Lib
