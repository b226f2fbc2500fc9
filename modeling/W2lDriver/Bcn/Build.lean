/-
**Building a beacon.**

`aml_build_bcn` (`fullmac/aml_main.c`). The head and the tail of the stored beacon are replaced one after the other,
with an allocation before each, and a third one for the buffer behind both.

* `Bcn`, `BeaconData` — the stored beacon, and the data of a new one.
* `amlBuildBcn` — the function; `Bcn.bytes` — head, TIM, tail and IEs.
* `BuildRight` — **what a call should do**: the new beacon, or nothing changed.
* `BuildAtomic` — when it does; `build_atomic` — **just then**.
-/

import W2lDriver.Lib.Bytes

namespace W2l.Bcn

open Lib

/-! ### The code -/

/-- `struct aml_bcn`; `head_len`, `tail_len` and `ies_len` are set with their parts. -/
structure Bcn where
  head : Option (List Byte)
  tail : Option (List Byte)
  ies : Option (List Byte)
  timLen : ℕ
  len : ℕ
  dtim : Byte
  deriving DecidableEq

namespace Bcn

variable (bcn : Bcn)

def headLen : ℕ := (bcn.head.getD []).length

def tailLen : ℕ := (bcn.tail.getD []).length

def iesLen : ℕ := (bcn.ies.getD []).length

/-- `WLAN_EID_TIM` and its length, DTIM count and period, bitmap control and bitmap. -/
def tim : List Byte := [5, 4, 0, bcn.dtim, 0, 0]

def bytes : List Byte := bcn.head.getD [] ++ (bcn.tim ++ (bcn.tail.getD [] ++ bcn.ies.getD []))

end Bcn

/-- `struct cfg80211_beacon_data`, as far as it is read. -/
structure BeaconData where
  head : Option (List Byte)
  tail : Option (List Byte)

/-- What each `kmalloc` returns: there is memory. -/
structure BuildMem where
  head : Bool
  tail : Bool
  buf : Bool

/-- A part that is replaced; `none` is where there is no memory. -/
def putPart (mem : Bool) (new old : Option (List Byte)) : Option (Option (List Byte)) :=
  if new.isSome && !mem then none else some (new.or old)

/-- The last part of `aml_build_bcn`. -/
def buildBuf (mem : Bool) (bcn : Bcn) : Bcn × Option (List Byte) :=
  if bcn.head.isNone then (bcn, none)
  else
    let bcn := { bcn with timLen := 6, len := bcn.headLen + bcn.tailLen + bcn.iesLen + 6 }
    (bcn, if mem then some bcn.bytes else none)

def amlBuildBcn (mem : BuildMem) (bcn : Bcn) (new : BeaconData) : Bcn × Option (List Byte) :=
  match putPart mem.head new.head bcn.head with
  | none => (bcn, none)
  | some head =>
    match putPart mem.tail new.tail bcn.tail with
    | none => ({ bcn with head }, none)
    | some tail => buildBuf mem.buf { bcn with head, tail }

/-! ### The property -/

/-- The stored parts, their lengths and the length of the whole are the same. -/
structure SameParts (a b : Bcn) : Prop where
  head : a.head = b.head
  tail : a.tail = b.tail
  ies : a.ies = b.ies
  len : a.len = b.len

/-- **What a call should do.** -/
structure BuildRight (bcn : Bcn) (out : Bcn × Option (List Byte)) : Prop where
  failed : out.2 = none → SameParts out.1 bcn
  done : ∀ buf, out.2 = some buf → buf = out.1.bytes ∧ out.1.len = buf.length ∧
    buf.length = out.1.headLen + 6 + out.1.tailLen + out.1.iesLen

/-! ### When it does -/

def Kept (new old : Option (List Byte)) : Prop := new.or old = old

def Bcn.with_ (bcn : Bcn) (new : BeaconData) : Bcn :=
  { bcn with head := new.head.or bcn.head, tail := new.tail.or bcn.tail }

/-- The new data are the old ones. -/
structure Unchanged (bcn : Bcn) (new : BeaconData) : Prop where
  head : Kept new.head bcn.head
  tail : Kept new.tail bcn.tail
  len : bcn.len = (bcn.with_ new).bytes.length

/-- **When a call does what it should**: if it fails behind a part that is replaced, the part is the old one. -/
def BuildAtomic (mem : BuildMem) (bcn : Bcn) (new : BeaconData) : Prop :=
  if new.head.isSome && !mem.head then True
  else if new.tail.isSome && !mem.tail then Kept new.head bcn.head
  else if (bcn.with_ new).head.isNone then Kept new.tail bcn.tail
  else mem.buf = false → Unchanged bcn new

section Build

variable {mem : BuildMem} {bcn : Bcn} {new : BeaconData}

theorem length_bytes : bcn.bytes.length = bcn.headLen + bcn.tailLen + bcn.iesLen + 6 := by
  unfold Bcn.bytes Bcn.headLen Bcn.tailLen Bcn.iesLen Bcn.tim
  rw [List.length_append, List.length_append, List.length_append]
  simp only [List.length_cons, List.length_nil]
  omega

/-- The beacon behind a build that replaced both parts. -/
def Bcn.built (bcn : Bcn) (new : BeaconData) : Bcn :=
  { bcn.with_ new with timLen := 6, len := (bcn.with_ new).bytes.length }

theorem amlBuildBcn_built (head : (new.head.isSome && !mem.head) = false) (tail : (new.tail.isSome && !mem.tail) = false)
    (present : (bcn.with_ new).head.isNone = false) :
    amlBuildBcn mem bcn new = (bcn.built new, if mem.buf then some (bcn.with_ new).bytes else none) := by
  unfold amlBuildBcn putPart
  rw [head, tail]
  show buildBuf mem.buf (bcn.with_ new) = _
  unfold buildBuf
  rw [present, if_neg Bool.false_ne_true, ← length_bytes]
  rfl

theorem built_right : (bcn.with_ new).bytes = (bcn.built new).bytes ∧
    (bcn.built new).len = (bcn.with_ new).bytes.length ∧
    (bcn.with_ new).bytes.length = (bcn.built new).headLen + 6 + (bcn.built new).tailLen + (bcn.built new).iesLen := by
  refine ⟨rfl, rfl, ?_⟩
  rw [length_bytes]
  show (bcn.with_ new).headLen + (bcn.with_ new).tailLen + (bcn.with_ new).iesLen + 6 =
    (bcn.with_ new).headLen + 6 + (bcn.with_ new).tailLen + (bcn.with_ new).iesLen
  omega

theorem sameParts_built : SameParts (bcn.built new) bcn ↔ Unchanged bcn new :=
  ⟨fun same => ⟨same.head, same.tail, same.len.symm⟩, fun same => ⟨same.head, same.tail, rfl, same.len.symm⟩⟩

/-- **A build that fails** leaves the parts just when those it replaced are the old ones; any other is right. -/
theorem build_atomic (mem : BuildMem) (bcn : Bcn) (new : BeaconData) :
    BuildRight bcn (amlBuildBcn mem bcn new) ↔ BuildAtomic mem bcn new := by
  unfold BuildAtomic
  cases head : new.head.isSome && !mem.head with
  | true =>
    rw [if_pos rfl]
    have none : amlBuildBcn mem bcn new = (bcn, none) := by
      unfold amlBuildBcn putPart
      rw [head]
      rfl
    rw [none]
    exact ⟨fun _ => trivial, fun _ => ⟨fun _ => ⟨rfl, rfl, rfl, rfl⟩, nofun⟩⟩
  | false =>
    rw [if_neg Bool.false_ne_true]
    cases tail : new.tail.isSome && !mem.tail with
    | true =>
      rw [if_pos rfl]
      have none : amlBuildBcn mem bcn new = ({ bcn with head := new.head.or bcn.head }, none) := by
        unfold amlBuildBcn putPart
        rw [head, tail]
        rfl
      rw [none]
      exact ⟨fun right => (right.failed rfl).head, fun kept => ⟨fun _ => ⟨kept, rfl, rfl, rfl⟩, nofun⟩⟩
    | false =>
      rw [if_neg Bool.false_ne_true]
      cases present : (bcn.with_ new).head.isNone with
      | true =>
        rw [if_pos rfl]
        have none : amlBuildBcn mem bcn new = (bcn.with_ new, none) := by
          unfold amlBuildBcn putPart
          rw [head, tail]
          show buildBuf mem.buf (bcn.with_ new) = _
          unfold buildBuf
          rw [present]
          rfl
        have noHead : Kept new.head bcn.head := by
          have absent := Option.isNone_iff_eq_none.mp present
          unfold Kept
          exact absent.trans (Option.or_eq_none_iff.mp absent).2.symm
        rw [none]
        exact ⟨fun right => (right.failed rfl).tail, fun kept => ⟨fun _ => ⟨noHead, kept, rfl, rfl⟩, nofun⟩⟩
      | false =>
        rw [if_neg Bool.false_ne_true, amlBuildBcn_built head tail present]
        cases mem.buf with
        | true =>
          refine ⟨fun _ => nofun, fun _ => ⟨nofun, fun buf here => ?_⟩⟩
          obtain rfl := Option.some.inj here
          exact built_right
        | false =>
          exact ⟨fun right _ => sameParts_built.mp (right.failed rfl),
            fun same => ⟨fun _ => sameParts_built.mpr (same rfl), nofun⟩⟩

end Build

end W2l.Bcn
