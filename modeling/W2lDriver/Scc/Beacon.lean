/-
**The buffers that hold beacons.**

* `Frmbuf` — a buffer of `AML_SCC_FRMBUF_MAXLEN` bytes; `load`, `store` and `write` fail where `memcpy` would leave
  it.
* `load_store` — **what was stored is read back**; `write_middle` — bytes that are replaced.
* `Beacon` — a beacon as a header and a list of elements.
* `Bufs` — the buffers; `bufsOf` — with a beacon.
-/

import W2lDriver.Lib.ElementEdit

namespace W2l.Scc

open Lib (Byte Element elementsBytes)

/-- `AML_SCC_FRMBUF_MAXLEN`. -/
abbrev frmbufMaxlen : ℕ := 1000

/-- `offsetof(struct ieee80211_mgmt, u.beacon.variable)`, and that of `u.probe_resp.variable`. -/
abbrev varOffset : ℕ := 36

/-! ### Buffers -/

/-- A buffer of `AML_SCC_FRMBUF_MAXLEN` bytes. -/
structure Frmbuf where
  bytes : List Byte
  full : bytes.length = frmbufMaxlen
  deriving DecidableEq

namespace Frmbuf

def zero : Frmbuf := ⟨List.replicate frmbufMaxlen 0, List.length_replicate⟩

/-- The first `n` bytes. -/
def load (b : Frmbuf) (n : ℕ) : Option (List Byte) := if n ≤ frmbufMaxlen then some (b.bytes.take n) else none

/-- The buffer with other bytes in front. -/
def store (b : Frmbuf) (data : List Byte) : Option Frmbuf :=
  if inside : data.length ≤ frmbufMaxlen then
    some ⟨data ++ b.bytes.drop data.length, by
      rw [List.length_append, List.length_drop, b.full]
      exact Nat.add_sub_cancel' inside⟩
  else none

/-- The buffer with other bytes from `off` on. -/
def write (b : Frmbuf) (off : ℕ) (data : List Byte) : Option Frmbuf :=
  if inside : off + data.length ≤ frmbufMaxlen then
    some ⟨b.bytes.take off ++ (data ++ b.bytes.drop (off + data.length)), by
      rw [List.length_append, List.length_append, List.length_take, List.length_drop, b.full]
      omega⟩
  else none

variable {b b' : Frmbuf} {data : List Byte} {n : ℕ}

theorem store_eq_some : b.store data = some b' ↔
    data.length ≤ frmbufMaxlen ∧ b'.bytes = data ++ b.bytes.drop data.length := by
  unfold store
  split
  case isTrue inside =>
    rw [Option.some.injEq]
    refine ⟨fun same => ⟨inside, by rw [← same]⟩, fun same => ?_⟩
    cases b' with
    | mk bytes full =>
      obtain rfl := same.2
      rfl
  case isFalse outside => exact iff_of_false (nomatch ·) fun both => outside both.1

theorem store_isSome (inside : data.length ≤ frmbufMaxlen) : ∃ b', b.store data = some b' :=
  ⟨_, dif_pos inside⟩

theorem load_eq_some : b.load n = some data ↔ data.length = n ∧ data <+: b.bytes := by
  unfold load
  split
  case isTrue inside =>
    rw [Option.some.injEq]
    constructor
    · rintro rfl
      refine ⟨?_, List.take_prefix _ _⟩
      rw [List.length_take, b.full]
      exact Nat.min_eq_left inside
    · rintro ⟨rfl, front⟩
      exact (List.prefix_iff_eq_take.mp front).symm
  case isFalse outside =>
    refine iff_of_false (nomatch ·) fun ⟨length, front⟩ => outside ?_
    rw [← length, ← b.full]
    exact front.length_le

theorem load_store (stored : b.store data = some b') : b'.load data.length = some data := by
  rw [load_eq_some, (store_eq_some.mp stored).2]
  exact ⟨rfl, List.prefix_append _ _⟩

theorem write_isSome {off : ℕ} (inside : off + data.length ≤ frmbufMaxlen) : ∃ b', b.write off data = some b' :=
  ⟨_, dif_pos inside⟩

theorem drop_write {off k : ℕ} (written : b.write off data = some b') (behind : off + data.length ≤ k) :
    b'.bytes.drop k = b.bytes.drop k := by
  unfold write at written
  split at written
  case isTrue inside =>
    obtain rfl := Option.some.inj written
    obtain ⟨m, rfl⟩ := Nat.exists_eq_add_of_le behind
    have front : (b.bytes.take off).length = off := by
      rw [List.length_take, b.full]
      omega
    dsimp only
    rw [← List.drop_drop, ← List.drop_drop, List.drop_left' front, List.drop_left, List.drop_drop]
  case isFalse => exact nomatch written

theorem write_middle (data : List Byte) {front middle rest : List Byte} (all : b.bytes = front ++ (middle ++ rest))
    (same : data.length = middle.length) :
    ∃ b', b.write front.length data = some b' ∧ b'.bytes = front ++ (data ++ rest) := by
  have full := b.full
  rw [all, List.length_append, List.length_append] at full
  refine ⟨_, dif_pos (by omega), ?_⟩
  dsimp only
  rw [all, List.take_left, same, ← List.drop_drop, List.drop_left, List.drop_left]

end Frmbuf

/-- `bcn_save` and `scc_bcn_buf`, which is `NULL` or a buffer. -/
structure Bufs where
  bcnSave : Frmbuf
  sccBcnBuf : Option Frmbuf
  deriving DecidableEq

theorem noBuffer_iff {o o' : Option Frmbuf} : (o <|> o') = none ↔ ¬(o ≠ none ∨ o' ≠ none) := by
  rw [← not_and_or, not_not]
  cases o with
  | none => exact (and_iff_right rfl).symm
  | some _ => exact iff_of_false (nomatch ·) fun both => nomatch both.1

theorem buffer_of_some {o o' : Option Frmbuf} {old : Frmbuf} (buffer : (o <|> o') = some old) :
    o ≠ none ∨ o' ≠ none := by
  rw [← not_not (a := _ ∨ _), ← noBuffer_iff, buffer]
  exact Option.some_ne_none old

/-! ### Beacons -/

/-- A beacon, or a probe response. -/
structure Beacon where
  /-- Up to `variable`. -/
  header : List Byte
  whole : header.length = varOffset
  elems : List Element
  deriving DecidableEq

namespace Beacon

variable (b : Beacon)

def bytes : List Byte := b.header ++ elementsBytes b.elems

/-- `bcn->len`. -/
def size : ℕ := b.bytes.length

def withElems (es : List Element) : Beacon := { b with elems := es }

theorem size_eq : b.size = varOffset + (elementsBytes b.elems).length := by
  unfold size bytes
  rw [List.length_append, b.whole]

variable {b}

theorem bytes_withElems_inj {es es' : List Element} :
    (b.withElems es).bytes = (b.withElems es').bytes ↔ es = es' := by
  refine ⟨fun same => ?_, fun same => by rw [same]⟩
  have elems : elementsBytes es = elementsBytes es' := List.append_cancel_left same
  rw [← Lib.elements_bytes es, elems, Lib.elements_bytes]

end Beacon

/-! ### A beacon in the buffers -/

def beaconOf (elems : List Element) : Beacon := ⟨List.replicate varOffset 0, List.length_replicate, elems⟩

theorem one_short : ([1] : List Byte).length < 256 := by decide

def bufsOf (b : Beacon) : Bufs where
  bcnSave := (Frmbuf.zero.store b.bytes).getD Frmbuf.zero
  sccBcnBuf := some Frmbuf.zero

theorem bufsOf_stored {b : Beacon} (fits : b.size ≤ frmbufMaxlen) :
    b.bytes.take frmbufMaxlen <+: (bufsOf b).bcnSave.bytes := by
  obtain ⟨save, stored⟩ := Frmbuf.store_isSome (b := Frmbuf.zero) fits
  rw [List.take_of_length_le fits]
  unfold bufsOf
  dsimp only
  rw [stored, Option.getD_some, (Frmbuf.store_eq_some.mp stored).2]
  exact List.prefix_append _ _

end W2l.Scc
