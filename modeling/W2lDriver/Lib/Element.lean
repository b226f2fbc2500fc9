/-
**Lists of elements: a number, a length and so many bytes.**

The elements of management frames, as a list and as bytes, and the walk over the bytes. Nothing here names a
particular program.

* `Element`, `Element.bytes`, `elementsBytes` — an element, and a list in memory.
* `elements` — the elements at the front of a buffer, up to the first that is cut; `findElem`, `offsetElem` — the
  first with a number, and where it begins.
* `lastWith`, `lastWith_eq_some` — the last element with a number.
-/

import Mathlib.Algebra.BigOperators.Group.List.Basic
import W2lDriver.Lib.Bytes

namespace W2l.Lib

/-- An element. -/
structure Element where
  id : Byte
  data : List Byte
  short : data.length < 256
  deriving DecidableEq

def Element.bytes (e : Element) : List Byte := e.id :: BitVec.ofNat 8 e.data.length :: e.data

def elementsBytes (es : List Element) : List Byte := es.flatMap Element.bytes

/-- `datalen + sizeof(struct element)`. -/
def Element.size (e : Element) : ℕ := e.data.length + 2

/-- The walk over a buffer, at most `fuel` elements. -/
def walkElements : ℕ → List Byte → List Element
  | fuel + 1, id :: len :: rest =>
    if whole : len.toNat ≤ rest.length then
      ⟨id, rest.take len.toNat, by rw [List.length_take_of_le whole]; exact len.isLt⟩ ::
        walkElements fuel (rest.drop len.toNat)
    else []
  | _, _ => []

def elements (buf : List Byte) : List Element := walkElements buf.length buf

def findElem (id : Byte) (buf : List Byte) : Option Element := (elements buf).find? fun e => decide (e.id = id)

/-- Where it begins. -/
def offsetElem (id : Byte) (buf : List Byte) : Option ℕ :=
  if (findElem id buf).isSome then
    some (elementsBytes ((elements buf).takeWhile fun e => decide (e.id ≠ id))).length
  else none

def lastWith (id : Byte) (es : List Element) : Option Element :=
  es.foldl (fun last e => if e.id = id then some e else last) none

section Elements

variable {e : Element} {es : List Element} {buf : List Byte} {fuel : ℕ} {id : Byte}

theorem elementsBytes_cons : elementsBytes (e :: es) = e.bytes ++ elementsBytes es := List.flatMap_cons

theorem elementsBytes_append (es' : List Element) : elementsBytes (es ++ es') = elementsBytes es ++ elementsBytes es' :=
  List.flatMap_append

theorem Element.length_bytes (e : Element) : e.bytes.length = e.size := rfl

theorem length_elementsBytes (es : List Element) : (elementsBytes es).length = (es.map Element.size).sum := by
  induction es with
  | nil => rfl
  | cons e es ih => rw [elementsBytes_cons, List.length_append, ih, List.map_cons, List.sum_cons, e.length_bytes]

theorem walkElements_bytes (enough : es.length ≤ fuel) : walkElements fuel (elementsBytes es) = es := by
  induction es generalizing fuel with
  | nil => cases fuel <;> rfl
  | cons e es ih =>
    obtain ⟨fuel, rfl⟩ := Nat.exists_eq_add_one_of_ne_zero (Nat.ne_of_gt (Nat.zero_lt_of_lt enough))
    rw [elementsBytes_cons]
    show walkElements (fuel + 1) (e.id :: BitVec.ofNat 8 e.data.length :: (e.data ++ elementsBytes es)) = _
    unfold walkElements
    have length : (BitVec.ofNat 8 e.data.length).toNat = e.data.length := by
      rw [BitVec.toNat_ofNat]
      exact Nat.mod_eq_of_lt e.short
    have whole : (BitVec.ofNat 8 e.data.length).toNat ≤ (e.data ++ elementsBytes es).length := by
      rw [length, List.length_append]
      exact Nat.le_add_right _ _
    rw [dif_pos whole]
    congr 1
    · congr 1
      rw [length, List.take_left]
    · rw [length, List.drop_left]
      exact ih (Nat.le_of_succ_le_succ enough)

theorem length_le_elementsBytes (es : List Element) : es.length ≤ (elementsBytes es).length := by
  induction es with
  | nil => exact le_rfl
  | cons e es ih =>
    rw [elementsBytes_cons, List.length_append, e.length_bytes, List.length_cons]
    unfold Element.size
    omega

/-- **A list in memory reads as itself.** -/
theorem elements_bytes (es : List Element) : elements (elementsBytes es) = es :=
  walkElements_bytes (length_le_elementsBytes es)

theorem walkElements_front : elementsBytes (walkElements fuel buf) <+: buf := by
  induction fuel generalizing buf with
  | zero => exact List.nil_prefix
  | succ fuel ih =>
    match buf with
    | [] => exact List.nil_prefix
    | [_] => exact List.nil_prefix
    | id :: len :: rest =>
      unfold walkElements
      split
      case isTrue whole =>
        obtain ⟨tail, same⟩ := @ih (rest.drop len.toNat)
        refine ⟨tail, ?_⟩
        rw [elementsBytes_cons]
        unfold Element.bytes
        dsimp only
        rw [List.length_take_of_le whole, BitVec.ofNat_toNat, BitVec.setWidth_eq, List.append_assoc, List.cons_append,
          List.cons_append, same, List.take_append_drop]
      case isFalse => exact List.nil_prefix

/-- **What is read is the front of the buffer.** -/
theorem elements_front (buf : List Byte) : elementsBytes (elements buf) <+: buf := walkElements_front

/-! ### The last element with a number -/

theorem lastWith_append (e : Element) (es : List Element) :
    lastWith id (es ++ [e]) = if e.id = id then some e else lastWith id es := by
  unfold lastWith
  rw [List.foldl_append]
  rfl

/-- **The last element with a number** is one of them. -/
theorem lastWith_eq_some (found : lastWith id es = some e) : e ∈ es ∧ e.id = id := by
  induction es using List.reverseRecOn with
  | nil => exact absurd found.symm (Option.some_ne_none _)
  | append_singleton es last ih =>
    rw [lastWith_append] at found
    split at found
    case isTrue here =>
      obtain rfl := Option.some.inj found
      exact ⟨List.mem_append_right _ List.mem_cons_self, here⟩
    case isFalse => exact ⟨List.mem_append_left _ (ih found).1, (ih found).2⟩

end Elements

end W2l.Lib
