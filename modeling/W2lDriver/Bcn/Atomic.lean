/-
**Beacon updates: when they are atomic.**

* `stored_right` — a beacon that was built, saved and forwarded; `refused_right` — one that was refused.
-/

import W2lDriver.Bcn.Update

namespace W2l.Bcn

open Lib
open Cmd (eNoMem)
open Scc (Frmbuf frmbufMaxlen varOffset)

section Atomic

variable {env : Env} {bcn old : Bcn} {save : Frmbuf} {saved : Option Frmbuf} {buf edited : List Byte}
  {new : BeaconData}

/-- What is saved at a success. -/
structure Done (bcn : Bcn) (saved : Option Frmbuf) (buf : List Byte) : Prop where
  bytes : buf = bcn.bytes
  saved : ∃ b, saved = some b ∧ b.load buf.length = some buf

theorem forward_right : UpdateRight old save (env.forward bcn saved buf edited) ↔
    env.bus = .pcie ∧ (env.mapped = true → env.reply = 0 → Done bcn saved buf) ∧
      (env.mapped = false ∨ env.reply ≠ 0 → SameParts bcn old ∧ saved = some save) := by
  have length : bcn.bytes.length = bcn.headLen + 6 + bcn.tailLen + bcn.iesLen := by
    rw [length_bytes]
    omega
  unfold Env.forward
  cases env.bus with
  | usb =>
    refine ⟨fun right => ?_, fun all => nomatch all.1⟩
    exact absurd (right.initialised false List.mem_cons_self) Bool.false_ne_true
  | sdio =>
    refine ⟨fun right => ?_, fun all => nomatch all.1⟩
    exact absurd (right.initialised false List.mem_cons_self) Bool.false_ne_true
  | pcie =>
    dsimp only
    cases env.mapped with
    | false =>
      rw [if_pos (by decide)]
      constructor
      · exact fun right => ⟨rfl, fun mapped => absurd mapped Bool.false_ne_true,
          fun _ => right.failed (show eIo ≠ 0 by decide)⟩
      · rintro ⟨-, -, failed⟩
        exact ⟨fun _ => failed (.inl rfl), fun success => absurd success (show eIo ≠ 0 by decide), rfl,
          fun _ member => nomatch member⟩
    | true =>
      rw [if_neg (by decide)]
      constructor
      · intro right
        refine ⟨rfl, fun _ success => ?_, fun failed => ?_⟩
        · obtain ⟨_, b, built, bytes, -, stored, loaded⟩ := right.done success
          obtain rfl := Option.some.inj built
          exact ⟨bytes, b, stored, loaded⟩
        · exact right.failed (failed.resolve_left fun unmapped => Bool.false_ne_true unmapped.symm)
      · rintro ⟨-, done, failed⟩
        refine ⟨fun error => failed (.inr error), fun success => ?_, rfl, ?_⟩
        · obtain ⟨bytes, b, stored, loaded⟩ := done rfl success
          exact ⟨buf, b, rfl, bytes, by rw [bytes]; exact length, stored, loaded⟩
        · intro u member
          rcases List.mem_cons.mp member with rfl | member
          · rfl
          · exact List.mem_singleton.mp member

theorem store_same : save.store buf = some save ↔ Saved save buf := by
  unfold Saved
  rw [Frmbuf.store_eq_some, Frmbuf.load_eq_some]
  constructor
  · rintro ⟨-, same⟩
    exact ⟨rfl, same ▸ List.prefix_append _ _⟩
  · rintro ⟨-, tail, same⟩
    have inside : buf.length ≤ frmbufMaxlen := by
      rw [← save.full, ← same, List.length_append]
      exact Nat.le_add_right _ _
    refine ⟨inside, ?_⟩
    rw [← same, List.drop_left]

theorem done_stored (inside : (old.with_ new).bytes.length ≤ frmbufMaxlen) :
    Done (old.built new) (save.store (old.with_ new).bytes) (old.with_ new).bytes := by
  obtain ⟨b, stored⟩ := @Frmbuf.store_isSome save _ inside
  exact ⟨rfl, b, stored, Frmbuf.load_store stored⟩

theorem stored_isSome {b : Frmbuf} (stored : save.store buf = some b) : buf.length ≤ frmbufMaxlen :=
  (Frmbuf.store_eq_some.mp stored).1

theorem stored_right : UpdateRight old save
      (env.forward (old.built new) (save.store (old.with_ new).bytes) (old.with_ new).bytes edited) ↔
    StoredAtomic env true old save new := by
  rw [forward_right, sameParts_built, store_same]
  constructor
  · rintro ⟨pcie, done, failed⟩
    refine ⟨?_, fun _ => pcie, fun fails => failed (fails.resolve_left fun refused => Bool.false_ne_true refused.symm)⟩
    by_cases succeeds : env.mapped = true ∧ env.reply = 0
    · obtain ⟨b, stored, -⟩ := (done succeeds.1 succeeds.2).saved
      exact stored_isSome stored
    · have fails : env.mapped = false ∨ env.reply ≠ 0 := by
        rwa [not_and_or, Bool.not_eq_true] at succeeds
      exact stored_isSome (store_same.mpr (failed fails).2)
  · rintro ⟨inside, pcie, failed⟩
    exact ⟨pcie rfl, fun _ _ => done_stored inside, fun fails => failed (.inr fails)⟩

theorem refused_right : UpdateRight old save
      { error := eNoMem, bcn := old.built new, save := save.store (old.with_ new).bytes,
        built := some (old.with_ new).bytes, frees := 1 } ↔
    StoredAtomic env false old save new := by
  have noMem : eNoMem ≠ 0 := by decide
  constructor
  · intro right
    obtain ⟨same, stored⟩ := right.failed noMem
    exact ⟨stored_isSome stored, fun accepted => absurd accepted Bool.false_ne_true,
      fun _ => ⟨sameParts_built.mp same, store_same.mp stored⟩⟩
  · rintro ⟨-, -, failed⟩
    obtain ⟨same, stored⟩ := failed (.inl rfl)
    exact ⟨fun _ => ⟨sameParts_built.mpr same, store_same.mpr stored⟩, fun success => absurd success noMem, rfl,
      fun _ member => nomatch member⟩

theorem error_right {error : Int} (failed : error ≠ 0) :
    UpdateRight old save { error, bcn, save := some save } ↔ SameParts bcn old :=
  ⟨fun right => (right.failed failed).1,
    fun same => ⟨fun _ => ⟨same, rfl⟩, fun success => absurd success failed, rfl, fun _ member => nomatch member⟩⟩

/-! ### The build -/

variable {mem : BuildMem}

theorem amlBuildBcn_cases :
    Builds mem bcn new ∧ amlBuildBcn mem bcn new = (bcn.built new, some (bcn.with_ new).bytes) ∨
      ¬Builds mem bcn new ∧ ∃ left, amlBuildBcn mem bcn new = (left, none) := by
  by_cases builds : Builds mem bcn new
  · obtain ⟨head, tail, present, buf⟩ := builds
    refine .inl ⟨⟨head, tail, present, buf⟩, ?_⟩
    rw [amlBuildBcn_built head tail present, buf]
    rfl
  · refine .inr ⟨builds, ?_⟩
    unfold Builds at builds
    cases head : new.head.isSome && !mem.head with
    | true =>
      unfold amlBuildBcn putPart
      rw [head]
      exact ⟨_, rfl⟩
    | false =>
      cases tail : new.tail.isSome && !mem.tail with
      | true =>
        unfold amlBuildBcn putPart
        rw [head, tail]
        exact ⟨_, rfl⟩
      | false =>
        cases present : (bcn.with_ new).head.isNone with
        | true =>
          unfold amlBuildBcn putPart
          rw [head, tail]
          show ∃ left, buildBuf mem.buf (bcn.with_ new) = (left, none)
          unfold buildBuf
          rw [present]
          exact ⟨_, rfl⟩
        | false =>
          rw [amlBuildBcn_built head tail present]
          cases buf : mem.buf with
          | true => exact absurd ⟨head, tail, present, buf⟩ builds
          | false => exact ⟨_, rfl⟩

theorem buildFailed_right {left : Bcn} {error : Int} (failed : error ≠ 0)
    (none : amlBuildBcn mem bcn new = (left, none)) :
    UpdateRight bcn save { error, bcn := left, save := some save } ↔ BuildAtomic mem bcn new := by
  rw [error_right failed, ← build_atomic, none]
  exact ⟨fun same => ⟨fun _ => same, nofun⟩, fun right => right.failed rfl⟩

end Atomic

/-! ### The operations -/

theorem change_atomic (env : ChangeEnv) (bcn : Bcn) (save : Frmbuf) (new : BeaconData) :
    UpdateRight bcn save (amlCfg80211ChangeBeacon env bcn save new) ↔ ChangeAtomic env bcn save new := by
  have noMem : eNoMem ≠ 0 := by decide
  unfold amlCfg80211ChangeBeacon ChangeAtomic
  cases env.recovering with
  | true =>
    rw [if_pos rfl, error_right noMem]
    exact ⟨fun _ => .inl rfl, fun _ => ⟨rfl, rfl, rfl, rfl⟩⟩
  | false =>
    rw [if_neg Bool.false_ne_true, or_iff_right Bool.false_ne_true]
    rcases @amlBuildBcn_cases bcn new env.mem with ⟨builds, built⟩ | ⟨fails, left, none⟩
    · rw [built, if_pos builds]
      dsimp only
      have accepted : env.accepted bcn new = !env.htopWrong
          (readAt (bcn.with_ new).bytes env.behind varOffset (((bcn.built new).len + (256 - varOffset)) % 256)) := rfl
      rw [accepted]
      cases env.htopWrong
          (readAt (bcn.with_ new).bytes env.behind varOffset (((bcn.built new).len + (256 - varOffset)) % 256)) with
      | true =>
        rw [if_pos rfl]
        exact refused_right
      | false =>
        rw [if_neg Bool.false_ne_true]
        exact stored_right
    · rw [none, if_neg fails]
      exact buildFailed_right noMem none

theorem updateRight_dtim {bcn : Bcn} {save : Frmbuf} {out : Out} {dtim : Byte} :
    UpdateRight bcn save out ↔ UpdateRight { bcn with dtim } save out := by
  have same : ∀ a, SameParts a bcn ↔ SameParts a { bcn with dtim } := fun a =>
    ⟨fun same => ⟨same.head, same.tail, same.ies, same.len⟩, fun same => ⟨same.head, same.tail, same.ies, same.len⟩⟩
  constructor
  · rintro ⟨failed, done, freed, initialised⟩
    exact ⟨fun error => ⟨(same _).mp (failed error).1, (failed error).2⟩, done, freed, initialised⟩
  · rintro ⟨failed, done, freed, initialised⟩
    exact ⟨fun error => ⟨(same _).mpr (failed error).1, (failed error).2⟩, done, freed, initialised⟩

variable {behind : ℕ → Byte}

theorem length_readAt {buf : List Byte} {off n : ℕ} : (readAt buf behind off n).length = n := by
  unfold readAt
  rw [List.length_map, List.length_range]

theorem readAt_inside {buf : List Byte} {n : ℕ} (inside : n ≤ buf.length) : readAt buf behind 0 n = buf.take n := by
  unfold readAt
  apply List.ext_getElem
  · rw [List.length_map, List.length_range, List.length_take_of_le inside]
  · intro i here _
    rw [List.getElem_map, List.getElem_range, List.getElem_take, Nat.zero_add]
    exact (List.getElem_eq_getD _).symm

theorem done_copy {bcn : Bcn} {save : Frmbuf} :
    Done bcn (some save) (readAt save.bytes behind 0 bcn.len) ↔ save.load bcn.len = some bcn.bytes := by
  constructor
  · rintro ⟨bytes, b, same, loaded⟩
    obtain rfl := Option.some.inj same
    rwa [length_readAt, bytes] at loaded
  · intro loaded
    have inside : bcn.len ≤ save.bytes.length := by
      obtain ⟨length, front⟩ := Frmbuf.load_eq_some.mp loaded
      rw [← length]
      exact front.length_le
    have copy : readAt save.bytes behind 0 bcn.len = bcn.bytes := by
      obtain ⟨length, front⟩ := Frmbuf.load_eq_some.mp loaded
      rw [readAt_inside inside, ← length]
      exact (List.prefix_iff_eq_take.mp front).symm
    refine ⟨copy, save, rfl, ?_⟩
    rw [length_readAt, copy]
    exact loaded

theorem start_atomic (env : StartEnv) (bcn : Bcn) (save : Frmbuf) (new : BeaconData) :
    UpdateRight bcn save (amlSendApmStartReq env bcn save new) ↔ StartAtomic env bcn save new := by
  have noMem : eNoMem ≠ 0 := by decide
  unfold amlSendApmStartReq StartAtomic
  cases env.reqMem with
  | false =>
    rw [if_pos (by decide), error_right noMem]
    exact ⟨fun _ => .inl rfl, fun _ => ⟨rfl, rfl, rfl, rfl⟩⟩
  | true =>
    rw [if_neg (by decide), or_iff_right (by decide)]
    rw [@updateRight_dtim _ _ _ env.dtim]
    dsimp only
    cases env.recovering with
    | true =>
      rw [if_pos rfl, if_pos rfl]
      cases env.mem.buf with
      | false =>
        rw [if_pos (by decide), error_right noMem]
        exact ⟨fun _ => .inl rfl, fun _ => ⟨rfl, rfl, rfl, rfl⟩⟩
      | true =>
        have memory : ¬true = false := by decide
        rw [if_neg (by decide), forward_right, or_iff_right memory, done_copy]
        exact ⟨fun right => ⟨right.1, right.2.1⟩, fun saved => ⟨saved.1, saved.2, fun _ => ⟨⟨rfl, rfl, rfl, rfl⟩, rfl⟩⟩⟩
    | false =>
      rw [if_neg Bool.false_ne_true, if_neg Bool.false_ne_true]
      rcases @amlBuildBcn_cases { bcn with dtim := env.dtim } new env.mem with ⟨builds, built⟩ | ⟨fails, left, none⟩
      · rw [built, if_pos builds]
        exact stored_right
      · rw [none, if_neg fails]
        exact buildFailed_right noMem none

/-- **Each of the three operations is right just when its condition holds.** -/
theorem beacon_atomic (mem : BuildMem) (change : ChangeEnv) (start : StartEnv) (bcn : Bcn) (save : Frmbuf)
    (new : BeaconData) :
    (BuildRight bcn (amlBuildBcn mem bcn new) ↔ BuildAtomic mem bcn new) ∧
      (UpdateRight bcn save (amlCfg80211ChangeBeacon change bcn save new) ↔ ChangeAtomic change bcn save new) ∧
      (UpdateRight bcn save (amlSendApmStartReq start bcn save new) ↔ StartAtomic start bcn save new) :=
  ⟨build_atomic mem bcn new, change_atomic change bcn save new, start_atomic start bcn save new⟩

/-! ### Where they are not -/

def inForce : Bcn := ⟨some [1], some [2], none, 6, 8, 0⟩

def newData : BeaconData := ⟨some [3], some [4]⟩

/-- A change on PCIe without memory for the new tail. -/
def noTailEnv : ChangeEnv where
  bus := .pcie
  mem := ⟨true, false, true⟩
  mapped := true
  behind := fun _ => 0
  sgi := false
  use2040 := false
  reply := 0
  recovering := false
  chanctxValid := true
  curPrimary := 1

/-- **A change that has no memory for the tail leaves the new head** with the old tail. -/
theorem change_halfway : ¬∀ env bcn save new, UpdateRight bcn save (amlCfg80211ChangeBeacon env bcn save new) := by
  intro right
  have same := ((right noTailEnv inForce .zero newData).failed (show eNoMem ≠ 0 by decide)).1.head
  exact absurd same (by decide)

end W2l.Bcn
