/-
**Elements found in a range of bytes, and edited where they are.**

Nothing here names a particular program.

* `elementsWithin`, `elements_take` — **the elements in the first bytes of a list in memory** are those that fit.
* `findElement`, `findElement_eq_some` — where the first element with a number is; `searchEnd` — how far the search
  reads.
* `Element.setData`, `set_data` — a byte that is written through an element's address.
* `Edits`, `editWithin`, `edit_found` — a change of an element's bytes through its address, and **what the change
  of the element that was found does to the list**.
* `Reached`, `getElem?_editWithin` — the elements that are found, by position.
-/

import W2lDriver.Lib.Element

namespace W2l.Lib

open List (append_assoc length_append map_cons)

/-- The elements that fit in `n` bytes. -/
def elementsWithin : ℕ → List Element → List Element
  | _, [] => []
  | n, e :: es => if e.size ≤ n then e :: elementsWithin (n - e.size) es else []

/-- Where the first element with a number starts. -/
def offsetOf (id : Byte) : List Element → Option ℕ
  | [] => none
  | e :: es => if e.id = id then some 0 else (offsetOf id es).map (e.size + ·)

/-- Where the first element of a buffer with a number starts. -/
def findElement (id : Byte) (buf : List Byte) : Option ℕ := offsetOf id (elements buf)

section Within

variable {e : Element} {es : List Element} {buf rest : List Byte} {fuel n : ℕ}

theorem walkElements_enough {fuel' : ℕ} (enough : buf.length ≤ fuel) (enough' : buf.length ≤ fuel') :
    walkElements fuel buf = walkElements fuel' buf := by
  induction fuel generalizing fuel' buf with
  | zero =>
    obtain rfl := List.eq_nil_of_length_eq_zero (Nat.le_zero.mp enough)
    cases fuel' <;> rfl
  | succ fuel ih =>
    match buf with
    | [] => cases fuel' <;> rfl
    | [_] => cases fuel' <;> rfl
    | id :: len :: rest =>
      obtain ⟨fuel', rfl⟩ := Nat.exists_eq_add_one_of_ne_zero (Nat.ne_of_gt (Nat.zero_lt_of_lt enough'))
      have shorter : (rest.drop len.toNat).length ≤ rest.length := by
        rw [List.length_drop]
        exact Nat.sub_le _ _
      rw [List.length_cons, List.length_cons] at enough enough'
      unfold walkElements
      rw [@ih (rest.drop len.toNat) fuel' (by omega) (by omega)]

theorem toNat_length (e : Element) : (BitVec.ofNat 8 e.data.length).toNat = e.data.length := by
  rw [BitVec.toNat_ofNat]
  exact Nat.mod_eq_of_lt e.short

/-- An element is read first. -/
theorem elements_append_bytes (e : Element) (rest : List Byte) : elements (e.bytes ++ rest) = e :: elements rest := by
  unfold elements
  show walkElements ((e.data ++ rest).length + 1 + 1) (e.id :: BitVec.ofNat 8 e.data.length :: (e.data ++ rest)) = _
  have whole : (BitVec.ofNat 8 e.data.length).toNat ≤ (e.data ++ rest).length := by
    rw [toNat_length, length_append]
    exact Nat.le_add_right _ _
  rw [walkElements, dif_pos whole]
  congr 1
  · congr 1
    rw [toNat_length, List.take_left]
  · rw [toNat_length, List.drop_left]
    refine walkElements_enough ?_ le_rfl
    rw [length_append]
    omega

theorem elements_cut (short : n < e.size) : elements ((e.bytes ++ rest).take n) = [] := by
  unfold Element.size at short
  match n with
  | 0 => rfl
  | 1 => rfl
  | n + 2 =>
    unfold elements
    show walkElements ((((e.data ++ rest).take n).length + 1) + 1)
      (e.id :: BitVec.ofNat 8 e.data.length :: (e.data ++ rest).take n) = []
    rw [walkElements, dif_neg]
    rw [toNat_length, List.length_take]
    omega

/-- **The elements in the first bytes of a list in memory.** -/
theorem elements_take (inside : n ≤ (elementsBytes es).length) :
    elements ((elementsBytes es ++ rest).take n) = elementsWithin n es := by
  induction es generalizing n with
  | nil =>
    obtain rfl := Nat.le_zero.mp inside
    rfl
  | cons e es ih =>
    rw [elementsBytes_cons, length_append, e.length_bytes] at inside
    rw [elementsBytes_cons, append_assoc]
    unfold elementsWithin
    by_cases fits : e.size ≤ n
    · obtain ⟨m, rfl⟩ := Nat.exists_eq_add_of_le fits
      rw [if_pos fits, Nat.add_sub_cancel_left, ← ih (Nat.le_of_add_le_add_left inside), ← e.length_bytes,
        List.take_length_add_append, elements_append_bytes]
    · rw [if_neg fits, elements_cut (Nat.lt_of_not_le fits)]

theorem elementsWithin_of_le (fits : (elementsBytes es).length ≤ n) : elementsWithin n es = es := by
  induction es generalizing n with
  | nil => rfl
  | cons e es ih =>
    rw [elementsBytes_cons, length_append, e.length_bytes] at fits
    unfold elementsWithin
    rw [if_pos (by omega), ih (by omega)]

theorem elements_append (es : List Element) (rest : List Byte) :
    elements (elementsBytes es ++ rest) = es ++ elements rest := by
  induction es with
  | nil => rfl
  | cons e es ih => rw [elementsBytes_cons, append_assoc, elements_append_bytes, ih, List.cons_append]

end Within

/-! ### Searches -/

/-- How far the search for the first element of a buffer with a number reads: two bytes of every element it passes. -/
def searchEnd (id : Byte) (buf : List Byte) : ℕ :=
  match findElement id buf with
  | some off => off + 2
  | none =>
    let read := (elementsBytes (elements buf)).length
    if read + 2 ≤ buf.length then read + 2 else read

section Search

variable {id : Byte} {es : List Element} {buf : List Byte} {off : ℕ}

theorem offsetOf_cons (e : Element) :
    offsetOf id (e :: es) = if e.id = id then some 0 else (offsetOf id es).map (e.size + ·) := rfl

theorem offsetOf_eq_none : offsetOf id es = none ↔ es.find? (·.id = id) = none := by
  induction es with
  | nil => exact iff_of_true rfl rfl
  | cons e es ih =>
    rw [offsetOf_cons]
    by_cases here : e.id = id
    · rw [if_pos here, List.find?_cons_of_pos (p := fun e : Element => e.id = id) (decide_eq_true here)]
      exact iff_of_false (Option.some_ne_none _) (Option.some_ne_none _)
    · have skipped : ¬decide (e.id = id) = true := by rw [decide_eq_true_iff]; exact here
      rw [if_neg here, List.find?_cons_of_neg (p := fun e : Element => e.id = id) skipped, Option.map_eq_none_iff]
      exact ih

/-- Where the first element with a number is. -/
theorem offsetOf_eq_some (found : offsetOf id es = some off) :
    ∃ front e rest, es = front ++ e :: rest ∧ (elementsBytes front).length = off ∧ es.find? (·.id = id) = some e := by
  induction es generalizing off with
  | nil => exact nomatch found
  | cons e es ih =>
    rw [offsetOf_cons] at found
    split at found
    case isTrue here =>
      obtain rfl := Option.some.inj found
      exact ⟨[], e, es, rfl, rfl, List.find?_cons_of_pos (p := fun e : Element => e.id = id) (decide_eq_true here)⟩
    case isFalse there =>
      obtain ⟨off', found', rfl⟩ := Option.map_eq_some_iff.mp found
      obtain ⟨front, e', rest, rfl, length, first⟩ := ih found'
      refine ⟨e :: front, e', rest, rfl, ?_, ?_⟩
      · rw [elementsBytes_cons, length_append, length, e.length_bytes]
      · rw [List.find?_cons_of_neg (p := fun e : Element => e.id = id) (by rw [decide_eq_true_iff]; exact there)]
        exact first

theorem offsetOf_append (es' : List Element) : offsetOf id (es ++ es') =
    (offsetOf id es).or ((offsetOf id es').map ((elementsBytes es).length + ·)) := by
  induction es with
  | nil =>
    show offsetOf id es' = (offsetOf id es').map (0 + ·)
    simp only [Nat.zero_add, Option.map_id']
  | cons e es ih =>
    rw [List.cons_append, offsetOf_cons, offsetOf_cons]
    split
    case isTrue => rfl
    case isFalse =>
      rw [ih, Option.map_or, Option.map_map, elementsBytes_cons, length_append, e.length_bytes]
      congr 2
      funext off
      exact (Nat.add_assoc _ _ _).symm

/-- The first element with a number, behind those with other ones. -/
theorem offsetOf_takeWhile (member : ∃ e ∈ es, e.id = id) :
    offsetOf id es = some (elementsBytes (es.takeWhile (·.id ≠ id))).length := by
  induction es with
  | nil => exact absurd member.choose_spec.1 List.not_mem_nil
  | cons e es ih =>
    rw [offsetOf_cons]
    by_cases here : e.id = id
    · rw [if_pos here, List.takeWhile_cons_of_neg (p := fun e : Element => e.id ≠ id) (by simp [here])]
      rfl
    · obtain ⟨e', member, same⟩ := member
      have later : e' ∈ es := by
        rcases List.mem_cons.mp member with rfl | later
        · exact absurd same here
        · exact later
      rw [if_neg here, List.takeWhile_cons_of_pos (p := fun e : Element => e.id ≠ id) (by simp [here]),
        ih ⟨e', later, same⟩, elementsBytes_cons, length_append, e.length_bytes]
      rfl

/-- **What is found** starts where the search says. -/
theorem findElement_eq_some (found : findElement id buf = some off) :
    ∃ front e rest, buf = front ++ (e.bytes ++ rest) ∧ front.length = off ∧
      (elements buf).find? (·.id = id) = some e := by
  obtain ⟨front, e, rest, all, length, first⟩ := offsetOf_eq_some found
  obtain ⟨tail, same⟩ := elements_front buf
  refine ⟨elementsBytes front, e, elementsBytes rest ++ tail, ?_, length, first⟩
  rw [← same, all, elementsBytes_append, elementsBytes_cons, append_assoc, append_assoc]

theorem searchEnd_le : searchEnd id buf ≤ buf.length := by
  unfold searchEnd
  split
  case h_1 off found =>
    obtain ⟨front, e, rest, all, length, _⟩ := findElement_eq_some found
    rw [all, length_append, length_append, e.length_bytes]
    unfold Element.size
    omega
  case h_2 =>
    dsimp only
    split
    case isTrue fits => exact fits
    case isFalse => exact (elements_front buf).length_le

end Search

/-! ### Changes -/

/-- **A change through an element's address** does `f` to the element. -/
def Edits (edit : List Byte → ℕ → List Byte) (f : Element → Element) : Prop :=
  ∀ front e rest, edit (front ++ (e.bytes ++ rest)) front.length = front ++ ((f e).bytes ++ rest)

/-- The change of what was found, if something was. -/
def editAt (edit : List Byte → ℕ → List Byte) (front : ℕ) (buf : List Byte) : Option ℕ → List Byte
  | none => buf
  | some off => edit buf (front + off)

def Element.setData (e : Element) (i : ℕ) (v : Byte) : Element :=
  { e with
    data := e.data.set i v
    short := by
      rw [List.length_set]
      exact e.short }

/-- `f` on the first element with a number, if it fits in `n` bytes. -/
def editWithin (id : Byte) (f : Element → Element) : ℕ → List Element → List Element
  | _, [] => []
  | n, e :: es =>
    if e.size ≤ n then if e.id = id then f e :: es else e :: editWithin id f (n - e.size) es else e :: es

section Edit

variable {id : Byte} {f : Element → Element} {edit : List Byte → ℕ → List Byte} {es : List Element} {n : ℕ}

@[simp] theorem Element.length_setData (e : Element) (i : ℕ) (v : Byte) :
    (e.setData i v).data.length = e.data.length := List.length_set

theorem Element.getD_setData {e : Element} {i j : ℕ} (other : i ≠ j) (v : Byte) :
    (e.setData i v).data.getD j 0 = e.data.getD j 0 := by
  show (e.data.set i v).getD j 0 = _
  rw [List.getD_eq_getElem?_getD, List.getElem?_set_ne other, List.getD_eq_getElem?_getD]

theorem Element.getD_setData_self {e : Element} {i : ℕ} (inside : i < e.data.length) (v : Byte) :
    (e.setData i v).data.getD i 0 = v := by
  show (e.data.set i v).getD i 0 = _
  rw [List.getD_eq_getElem?_getD, List.getElem?_set_self inside, Option.getD_some]

/-- A byte that is written again as it is. -/
theorem Element.setData_getD (e : Element) (i : ℕ) : e.setData i (e.data.getD i 0) = e := by
  have same : e.data.set i (e.data.getD i 0) = e.data := by
    refine List.ext_getElem? fun j => ?_
    rw [List.getElem?_set]
    split
    case isTrue here =>
      subst here
      split
      case isTrue inside => rw [List.getD_eq_getElem?_getD, List.getElem?_eq_getElem inside, Option.getD_some]
      case isFalse outside => exact (List.getElem?_eq_none (Nat.le_of_not_lt outside)).symm
    case isFalse => rfl
  unfold Element.setData
  cases e with
  | mk id data short =>
    dsimp only at same
    congr 1

variable (front : List Byte)

theorem getD_length (e : Element) (rest : List Byte) :
    (front ++ (e.bytes ++ rest)).getD (front.length + 1) 0 = BitVec.ofNat 8 e.data.length := by
  rw [List.getD_append_right _ _ _ _ (Nat.le_add_right _ _), Nat.add_sub_cancel_left]
  rfl

theorem getD_data (e : Element) (rest : List Byte) {i : ℕ} (inside : i < e.data.length) :
    (front ++ (e.bytes ++ rest)).getD (front.length + (i + 2)) 0 = e.data.getD i 0 := by
  rw [List.getD_append_right _ _ _ _ (Nat.le_add_right _ _), Nat.add_sub_cancel_left]
  show (e.data ++ rest).getD i 0 = _
  exact List.getD_append _ _ _ _ inside

/-- **A byte is written through the address.** -/
theorem set_data (e : Element) (rest : List Byte) {i : ℕ} (inside : i < e.data.length) (v : Byte) :
    (front ++ (e.bytes ++ rest)).set (front.length + (i + 2)) v = front ++ ((e.setData i v).bytes ++ rest) := by
  rw [List.set_append_right _ _ (Nat.le_add_right _ _), Nat.add_sub_cancel_left]
  show front ++ e.id :: BitVec.ofNat 8 e.data.length :: (e.data ++ rest).set i v =
    front ++ e.id :: BitVec.ofNat 8 (e.data.set i v).length :: (e.data.set i v ++ rest)
  rw [List.length_set, List.set_append_left _ _ inside]

/-- **What the change of the element that was found does to the list.** -/
theorem edit_found (id : Byte) (edits : Edits edit f) (inside : n ≤ (elementsBytes es).length)
    (front rest : List Byte) :
    editAt edit front.length (front ++ (elementsBytes es ++ rest))
        (findElement id ((elementsBytes es ++ rest).take n)) =
      front ++ (elementsBytes (editWithin id f n es) ++ rest) := by
  unfold findElement
  rw [elements_take inside]
  induction es generalizing n front with
  | nil => rfl
  | cons e es ih =>
    rw [elementsBytes_cons, length_append, e.length_bytes] at inside
    unfold elementsWithin editWithin
    by_cases fits : e.size ≤ n
    swap
    · rw [if_neg fits, if_neg fits]
      rfl
    rw [if_pos fits, if_pos fits, elementsBytes_cons, append_assoc]
    rw [offsetOf_cons]
    by_cases here : e.id = id
    · rw [if_pos here, if_pos here, elementsBytes_cons, append_assoc]
      exact edits front e (elementsBytes es ++ rest)
    · have next := @ih (n - e.size) (by omega) (front ++ e.bytes)
      rw [if_neg here, if_neg here, elementsBytes_cons, append_assoc e.bytes, ← append_assoc front,
        ← append_assoc front, ← next]
      cases offsetOf id (elementsWithin (n - e.size) es) with
      | none => rfl
      | some off =>
        show edit _ (front.length + (e.size + off)) = edit _ ((front ++ e.bytes).length + off)
        rw [length_append, e.length_bytes, Nat.add_assoc]

/-- The number and the length of an element stay. -/
structure Keeps (f : Element → Element) : Prop where
  id : ∀ e, (f e).id = e.id
  size : ∀ e, (f e).size = e.size

theorem map_editWithin {β : Type} {g : Element → β} (keeps : ∀ e, g (f e) = g e) :
    (editWithin id f n es).map g = es.map g := by
  induction es generalizing n with
  | nil => rfl
  | cons e es ih =>
    unfold editWithin
    split
    case isTrue =>
      split
      case isTrue => rw [map_cons, map_cons, keeps]
      case isFalse => rw [map_cons, map_cons, ih]
    case isFalse => rfl

theorem length_editWithin (keeps : Keeps f) :
    (elementsBytes (editWithin id f n es)).length = (elementsBytes es).length := by
  rw [length_elementsBytes, length_elementsBytes, map_editWithin keeps.size]

/-! ### Elements that are found -/

/-- **The element at `i` is found**: no element before it has the number, and it ends in the first `n` bytes. -/
def Reached (id : Byte) (n : ℕ) (es : List Element) (i : ℕ) : Prop :=
  id ∉ (es.map Element.id).take i ∧ ((es.map Element.size).take (i + 1)).sum ≤ n

instance (id : Byte) (n : ℕ) (es : List Element) (i : ℕ) : Decidable (Reached id n es i) :=
  inferInstanceAs (Decidable (_ ∧ _))

theorem reached_editWithin {id' : Byte} {n' i : ℕ} (keeps : Keeps f) :
    Reached id' n' (editWithin id f n es) i ↔ Reached id' n' es i := by
  unfold Reached
  rw [map_editWithin keeps.id, map_editWithin keeps.size]

/-- **What is changed**, by position. -/
theorem getElem?_editWithin (i : ℕ) : (editWithin id f n es)[i]? =
    es[i]?.map fun e => if e.id = id ∧ Reached id n es i then f e else e := by
  induction es generalizing n i with
  | nil => rfl
  | cons e es ih =>
    unfold editWithin
    have first : Reached id n (e :: es) 0 ↔ e.size ≤ n := by
      unfold Reached
      rw [map_cons, map_cons, List.take_zero, List.take_succ_cons, List.take_zero, List.sum_singleton]
      exact and_iff_right List.not_mem_nil
    have later (j : ℕ) : Reached id n (e :: es) (j + 1) ↔ e.id ≠ id ∧ e.size ≤ n ∧ Reached id (n - e.size) es j := by
      unfold Reached
      rw [map_cons, map_cons, List.take_succ_cons, List.take_succ_cons, List.mem_cons, List.sum_cons]
      constructor
      · rintro ⟨none, fits⟩
        exact ⟨fun here => none (.inl here.symm), by omega, fun there => none (.inr there), by omega⟩
      · rintro ⟨other, fits, none, fits'⟩
        exact ⟨fun one => one.elim (fun here => other here.symm) none, by omega⟩
    cases i with
    | zero =>
      rw [List.getElem?_cons_zero, Option.map_some]
      by_cases fits : e.size ≤ n
      · rw [if_pos fits]
        by_cases here : e.id = id
        · rw [if_pos here, if_pos ⟨here, first.mpr fits⟩, List.getElem?_cons_zero]
        · rw [if_neg here, if_neg fun both => here both.1, List.getElem?_cons_zero]
      · rw [if_neg fits, if_neg fun both => fits (first.mp both.2), List.getElem?_cons_zero]
    | succ j =>
      rw [List.getElem?_cons_succ]
      by_cases fits : e.size ≤ n
      · rw [if_pos fits]
        by_cases here : e.id = id
        · rw [if_pos here, List.getElem?_cons_succ]
          refine Option.map_id'.symm.trans (Option.map_congr fun e' _ => ?_)
          exact (if_neg fun both => ((later j).mp both.2).1 here).symm
        · rw [if_neg here, List.getElem?_cons_succ, ih]
          refine Option.map_congr fun e' _ => ?_
          refine if_congr (and_congr_right' ?_) rfl rfl
          exact ⟨fun inner => (later j).mpr ⟨here, fits, inner⟩, fun outer => ((later j).mp outer).2.2⟩
      · rw [if_neg fits, List.getElem?_cons_succ]
        refine Option.map_id'.symm.trans (Option.map_congr fun e' _ => ?_)
        exact (if_neg fun both => fits ((later j).mp both.2).2.1).symm

end Edit

end W2l.Lib
