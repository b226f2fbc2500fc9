/-
**A ring of records of different lengths.**

Records are stored one behind another in a ring; none is split. When the next record does not fit in
front of the end of the ring, a marker is left there and the record is stored at the start. Nothing
here names a particular program.

* `Layout` — the records of a ring, from the one to read next: in one run, or in two when the writer is
  ahead by a round.
* `Layout.accounted` — free words, stored words and words skipped at the end are the ring.
* `Layout.putNext`, `Layout.putWrapped`, `Layout.pop` — **storing a record keeps those that are stored,
  and taking the first one leaves the others**.
-/

import W2lDriver.Lib.Stored

namespace W2l.Lib

open List (length_append)

variable {α : Type} {data : Nat → α}

/-! ### The layout -/

/-- **The records of a ring**, with its free words and the words skipped at its end. -/
inductive Layout (size : Nat) (marker : α) (data : Nat → α) (read write free skipped : Nat) : List (List α) → Prop
  /-- The writer is ahead in the same round. -/
  | flat {es : List (List α)} (stored : Stored data read es.flatten)
      (upTo : read + es.flatten.length = write) (below : write < size)
      (room : free + es.flatten.length = size) (skip : skipped = 0) (fresh : es = [] → read = 0) :
      Layout size marker data read write free skipped es
  /-- The writer is ahead by a round. -/
  | wrapped {front back : List (List α)} {stop : Nat} (some : front ≠ [])
      (stored : Stored data read front.flatten) (upTo : read + front.flatten.length = stop)
      (skip : stop + skipped = size) (mark : stop < size → data stop = marker)
      (again : Stored data 0 back.flatten) (from_ : back.flatten.length = write)
      (room : write + free = read) (below : read < size) (ends : back = [] → skipped = 0) :
      Layout size marker data read write free skipped (front ++ back)

namespace Layout

variable {size read write free skipped : Nat} {marker : α} {e : List α} {es : List (List α)}

theorem empty (positive : 0 < size) : Layout size marker data 0 0 size 0 [] :=
  .flat stored_nil rfl positive rfl rfl fun _ => rfl

section

variable (layout : Layout size marker data read write free skipped es)

include layout

/-- **Free, stored and skipped words are the ring.** -/
theorem accounted : free + es.flatten.length + skipped = size := by
  cases layout with
  | flat stored upTo below room skip => omega
  | wrapped some stored upTo skip mark again from_ room below ends =>
    rw [List.flatten_append, length_append]
    omega

theorem write_lt : write < size := by
  cases layout with
  | flat stored upTo below => exact below
  | wrapped some stored upTo skip mark again from_ room below ends => omega

theorem contiguous_le
    (ahead : ¬ write < read) (room : 0 < free) : size - write ≤ free := by
  cases layout with
  | flat stored upTo below room => omega
  | wrapped some stored upTo skip mark again from_ room below ends => omega

theorem skipped_eq_zero
    (few : es.length ≤ 1) : skipped = 0 := by
  cases layout with
  | flat stored upTo below room skip => exact skip
  | wrapped nonempty stored upTo skip mark again from_ room below ends =>
    rw [length_append] at few
    have := List.length_pos_iff.mpr nonempty
    exact ends (List.eq_nil_of_length_eq_zero (by omega))

end

theorem front (layout : Layout size marker data read write free skipped (e :: es)) : Stored data read e := by
  generalize whole : e :: es = all at layout
  cases layout with
  | flat stored =>
    subst whole
    exact (stored_append.mp stored).1
  | @wrapped front back stop nonempty stored =>
    obtain _ | ⟨e', front⟩ := front
    · exact absurd rfl nonempty
    · obtain ⟨rfl, -⟩ := List.cons.inj whole
      exact (stored_append.mp stored).1

/-- **A record is stored in front of the end.** -/
theorem putNext (layout : Layout size marker data read write free skipped es) (some : e ≠ [])
    (fits : e.length ≤ free) (next : write < read ∨ write + e.length ≤ size) :
    Layout size marker (put data write e) read
      (if write + e.length < size then write + e.length else 0) (free - e.length) skipped
      (es ++ [e]) := by
  have positive := List.length_pos_iff.mpr some
  have total : (es ++ [e]).flatten = es.flatten ++ e := by simp
  cases layout with
  | flat stored upTo below room skip fresh =>
    have both : Stored (put data write e) read (es.flatten ++ e) := by
      refine stored_append.mpr ⟨stored.put (.inr (by omega)), ?_⟩
      rw [upTo]
      exact stored_put
    by_cases inside : write + e.length < size
    · rw [if_pos inside]
      refine .flat (total ▸ both) ?_ inside ?_ skip fun clash => by simp at clash
      · rw [total, length_append]
        omega
      · rw [total, length_append]
        omega
    · rw [if_neg inside, ← List.append_nil (es ++ [e])]
      refine .wrapped (by simp) (total ▸ both) ?_ (by omega)
        (fun clash => absurd clash (Nat.lt_irrefl _)) stored_nil rfl (by omega) (by omega) fun _ => skip
      rw [total, length_append]
      omega
  | @wrapped front back stop nonempty stored upTo skip mark again from_ room below ends =>
    rw [if_pos (by omega), List.append_assoc]
    have both : Stored (put data write e) 0 (back.flatten ++ e) := by
      refine stored_append.mpr ⟨again.put (.inr (by omega)), ?_⟩
      rw [from_, Nat.zero_add]
      exact stored_put
    have later : (back ++ [e]).flatten = back.flatten ++ e := by simp
    refine .wrapped nonempty (stored.put (.inl (by omega))) upTo skip (fun within => ?_)
      (later ▸ both) ?_ (by omega) below fun clash => by simp at clash
    · rw [put_outside (by omega), mark within]
    · rw [later, length_append]
      omega

/-- **A record is stored at the start**, behind a marker at the end. -/
theorem putWrapped (layout : Layout size marker data read write free skipped es) (some : e ≠ [])
    (ahead : ¬ write < read) (fits : e.length ≤ free - (size - write)) :
    Layout size marker (put (Function.update data write marker) 0 e) read
      (if e.length < size then e.length else 0) (free - (size - write) - e.length) (size - write)
      (es ++ [e]) := by
  have positive := List.length_pos_iff.mpr some
  cases layout with
  | flat stored upTo below room skip fresh =>
    have nonempty : es ≠ [] := by
      rintro rfl
      have start := fresh rfl
      simp only [List.flatten_nil, List.length_nil] at upTo room
      omega
    rw [if_pos (by omega)]
    have later : [e].flatten = e := by simp
    refine .wrapped nonempty ?_ upTo (by omega) (fun _ => ?_) ?_ ?_ (by omega) (by omega)
      fun clash => by simp at clash
    · exact (stored.update (.inr (by omega))).put (.inl (by omega))
    · rw [put_outside (by omega), Function.update_self]
    · rw [later]
      exact stored_put
    · rw [later]
  | wrapped nonempty stored upTo skip mark again from_ room below => omega

/-- **The first record is taken.** The next one is behind it, or at the start of the ring. -/
theorem pop (layout : Layout size marker data read write free skipped (e :: es)) (more : es ≠ [])
    (clear : ∀ e' ∈ es, ∃ w ws, e' = w :: ws ∧ w ≠ marker) :
    (read + e.length < size ∧ data (read + e.length) ≠ marker ∧
        Layout size marker data (read + e.length) write (free + e.length) skipped es) ∨
      (read + e.length < size ∧ data (read + e.length) = marker ∧ skipped = size - (read + e.length) ∧
        Layout size marker data 0 write (free + e.length + skipped) 0 es) ∨
      (read + e.length = size ∧ skipped = 0 ∧ Layout size marker data 0 write (free + e.length) 0 es) := by
  -- Behind a record there is the first word of the next one.
  have behind : ∀ {rest : List (List α)}, rest ≠ [] → (∀ e' ∈ rest, e' ∈ es) →
      Stored data (read + e.length) rest.flatten →
      data (read + e.length) ≠ marker ∧ 0 < rest.flatten.length := fun {rest} some sub stored => by
    obtain _ | ⟨next, rest⟩ := rest
    · exact absurd rfl some
    · obtain ⟨w, ws, rfl, good⟩ := clear next (sub next List.mem_cons_self)
      refine ⟨?_, by simp⟩
      have word := stored 0 (by simp)
      rw [Nat.add_zero] at word
      rw [word]
      exact good
  generalize whole : e :: es = all at layout
  cases layout with
  | flat stored upTo below room skip fresh =>
    subst whole
    rw [List.flatten_cons] at stored upTo room
    rw [length_append] at upTo room
    obtain ⟨-, rest⟩ := stored_append.mp stored
    obtain ⟨good, -⟩ := behind more (fun _ member => member) rest
    exact .inl ⟨by omega, good, .flat rest (by omega) below (by omega) skip fun none => absurd none more⟩
  | @wrapped front back stop nonempty stored upTo skip mark again from_ room below ends =>
    obtain _ | ⟨e', front⟩ := front
    · exact absurd rfl nonempty
    obtain ⟨rfl, same⟩ : e = e' ∧ es = front ++ back := List.cons.inj whole
    rw [List.flatten_cons] at stored upTo
    rw [length_append] at upTo
    obtain ⟨-, rest⟩ := stored_append.mp stored
    by_cases last : front = []
    · subst last
      simp only [List.flatten_nil, List.length_nil, Nat.add_zero] at upTo
      rw [same, List.nil_append]
      have flat : ∀ room', room' + back.flatten.length = size →
          Layout size marker data 0 write room' 0 back := fun room' all =>
        .flat again (by omega) (by omega) all rfl fun _ => rfl
      by_cases within : stop < size
      · exact .inr (.inl ⟨by omega, upTo ▸ mark within, by omega, flat _ (by omega)⟩)
      · exact .inr (.inr ⟨by omega, by omega, flat _ (by omega)⟩)
    · obtain ⟨good, long⟩ := behind last
        (fun e' member => same ▸ List.mem_append_left back member) rest
      rw [same]
      exact .inl ⟨by omega, good, .wrapped last rest (by omega) skip mark again from_ (by omega) (by omega) ends⟩

end Layout

end W2l.Lib
