/-
**The scan of the confirmation table.**

`aml_tx_cfm_task` (`fullmac/aml_tx.c`). On SDIO and USB the firmware writes its confirmations to a
table of `SRAM_TXCFM_CNT` slots. A wake-up of the task goes over the slots from the place it has
reached, up to the first one whose host id is not at the firmware. On SDIO the counter of the slots
also counts the packets of each frame.

* `scanLoop`, `wakeUp` — a wake-up, with the slots it reads and the confirmations it processes.
* `confirmed` — the run of slots whose host ids are at the firmware.
* `WakeRight` — what a wake-up should do.
* `lookup_out` — what the lookup of a host id takes from the pool.
-/

import W2lDriver.Ipc.HostId

namespace W2l.Tx

open Cmd (BusType)
open Ipc
open Option (some.inj)
open Function (update update_of_ne)

/-! ### The code -/

abbrev sramTxcfmCnt : ℕ := 192

def nextSlot (idx : ℕ) : ℕ := (idx + 1) % sramTxcfmCnt

theorem slot_ne (idx : ℕ) : idx % sramTxcfmCnt ≠ (idx + 1) % sramTxcfmCnt := by
  unfold sramTxcfmCnt
  omega

/-- The state of a wake-up: the pool, `ipc_env->txcfm_idx`, the variables of the task, the slots it has
read, the confirmations it has processed, and `cur_tags` of the call of `txcfm_analyze_handler`. -/
structure CfmScan where
  env : HostEnv
  txcfmIdx : ℕ
  drvTxcfmIdx : ℕ
  i : BitVec 8 := 0
  visited : List ℕ := []
  processed : List (ℕ × Ptr) := []
  analyzed : Option ℕ := none

section Loop

variable (analyze : Bool) (hostids : ℕ → BitVec 32) (packetCnt : Ptr → BitVec 8)

/-- The loop over the slots, for so many rounds at most, of a task that is not told to quit. With
`analyze` the driver is built with `CONFIG_SDIO_TX_ENH`, and `dyn_en` is set. -/
def scanLoop : ℕ → CfmScan → Option CfmScan
  | 0, _ => none
  | fuel + 1, s =>
    if s.i.toNat < sramTxcfmCnt then
      let s := { s with txcfmIdx := s.drvTxcfmIdx, visited := s.visited ++ [s.drvTxcfmIdx] }
      let (env, skb) := s.env.ipcHostTxHostIdToPtrForSdioUsb (hostids s.drvTxcfmIdx)
      if skb = 0 then
        some { s with env := env, analyzed := if analyze then some s.i.toNat else none }
      else
        -- the loop over the packets of a frame counts with `i`
        let i := if s.env.busType = .sdio then packetCnt skb else s.i
        scanLoop fuel { s with
          env := env
          processed := s.processed ++ [(s.drvTxcfmIdx, skb)]
          i := i + 1
          drvTxcfmIdx := nextSlot s.drvTxcfmIdx }
    else some s

def wakeUp (env : HostEnv) (txcfmIdx drvTxcfmIdx fuel : ℕ) : Option CfmScan :=
  scanLoop analyze hostids packetCnt fuel { env := env, txcfmIdx := txcfmIdx, drvTxcfmIdx := drvTxcfmIdx }

end Loop

/-! ### The property -/

/-- The host ids at the firmware, with their pointers. -/
def outstanding (env : HostEnv) : List (BitVec 32 × Ptr) := env.txHostidPushed.map env.entry

/-- The run of slots, of so many at most, whose host ids are at the firmware. -/
def confirmed (hostids : ℕ → BitVec 32) : ℕ → List (BitVec 32 × Ptr) → ℕ → List (ℕ × Ptr)
  | 0, _, _ => []
  | n + 1, out, idx =>
    match out.find? (·.1 = hostids idx) with
    | none => []
    | some e => (idx, e.2) :: confirmed hostids n (out.filter (·.1 ≠ hostids idx)) (nextSlot idx)

def cfmRun (hostids : ℕ → BitVec 32) (env : HostEnv) (idx : ℕ) : List (ℕ × Ptr) :=
  confirmed hostids sramTxcfmCnt (outstanding env) idx

/-- **What a wake-up should do**: process the run, read no slot twice, leave the index behind the run,
and report the length of the run. -/
def WakeRight (analyze : Bool) (hostids : ℕ → BitVec 32) (packetCnt : Ptr → BitVec 8) (env : HostEnv)
    (txcfmIdx idx : ℕ) : Prop :=
  ∃ fuel s, wakeUp analyze hostids packetCnt env txcfmIdx idx fuel = some s ∧
    s.processed = cfmRun hostids env idx ∧ s.visited.Nodup ∧ s.visited.length ≤ sramTxcfmCnt ∧
    s.txcfmIdx = (idx + s.processed.length) % sramTxcfmCnt ∧
    (analyze = true → s.analyzed = some s.processed.length)

/-- The run is not the whole table, and on SDIO no frame has so many packets that the loop ends, and,
where the length is reported, the last frame of the run has one packet less than the run has frames. -/
def WakeFits (analyze : Bool) (hostids : ℕ → BitVec 32) (packetCnt : Ptr → BitVec 8) (env : HostEnv)
    (idx : ℕ) : Prop :=
  let run := cfmRun hostids env idx
  run.length < sramTxcfmCnt ∧ (env.busType = .sdio → (∀ frame ∈ run, (packetCnt frame.2 + 1).toNat < sramTxcfmCnt) ∧
      (analyze = true → ∀ frame ∈ run.getLast?, (packetCnt frame.2 + 1).toNat = run.length))

/-! ### The pool -/

/-- A pool in use on SDIO or USB: no pointer in it is `NULL`. -/
structure Loaded (env : HostEnv) : Prop where
  pool : PoolInv env
  bus : env.busType ≠ .pcie
  saved : ∀ i ∈ env.txHostidPushed, env.hostptr i ≠ 0

def SavesBuffers (_ : HostEnv) : PoolCall → Prop
  | .ptrToId hostPtr => hostPtr ≠ 0
  | _ => True

instance (env : HostEnv) : ∀ call, Decidable (SavesBuffers env call)
  | .ptrToId hostPtr => inferInstanceAs (Decidable (hostPtr ≠ 0))
  | .idToPtr _ | .flush => .isTrue trivial

namespace Loaded

variable {env : HostEnv} {hostid : BitVec 32}

theorem pushed_nodup (loaded : Loaded env) : env.txHostidPushed.Nodup :=
  (List.nodup_append.mp loaded.pool.nodup).2.1

theorem not_refused (loaded : Loaded env) {i : ℕ} (pushed : i ∈ env.txHostidPushed)
    (same : env.hostid i = hostid) : ¬(hostid = 0 ∨ ipcHostidCnt < (hostid &&& 0xffff).toNat) := by
  have inside := loaded.pool.pushed_lt pushed
  have size : tableSize env.busType = ipcHostidCnt := by
    cases bus : env.busType with
    | pcie => exact absurd bus loaded.bus
    | sdio => rfl
    | usb => rfl
  rintro (zero | large)
  · exact loaded.pool.ids.ne_zero inside (same.trans zero)
  · rw [← same, loaded.pool.ids.low i inside, BitVec.toNat_ofNat] at large
    have := Nat.mod_le (i + 1) (2 ^ 32)
    omega

theorem find_outstanding (env : HostEnv) (hostid : BitVec 32) : (outstanding env).find? (·.1 = hostid) =
      (env.txHostidPushed.find? (env.hostid · = hostid)).map env.entry := List.find?_map

theorem lookup_none (absent : (outstanding env).find? (·.1 = hostid) = none) :
    env.ipcHostTxHostIdToPtrForSdioUsb hostid = (env, 0) := by
  rw [find_outstanding, Option.map_eq_none_iff] at absent
  unfold HostEnv.ipcHostTxHostIdToPtrForSdioUsb
  rw [absent, ite_self]

theorem lookup_some (loaded : Loaded env) {e : BitVec 32 × Ptr}
    (found : (outstanding env).find? (·.1 = hostid) = some e) :
    ∃ env', env.ipcHostTxHostIdToPtrForSdioUsb hostid = (env', e.2) ∧ e.2 ≠ 0 ∧ Loaded env' ∧
      env'.busType = env.busType ∧ outstanding env' = (outstanding env).filter (·.1 ≠ hostid) := by
  rw [find_outstanding, Option.map_eq_some_iff] at found
  obtain ⟨i, found, rfl⟩ := found
  have pushed := List.mem_of_find?_eq_some found
  have equal := List.find?_some found
  have same : env.hostid i = hostid := of_decide_eq_true equal
  have accepted := loaded.not_refused pushed same
  have pool := loaded.pool.idToPtrForSdioUsb loaded.bus hostid
  unfold HostEnv.ipcHostTxHostIdToPtrForSdioUsb at pool ⊢
  rw [if_neg accepted, found] at pool ⊢
  have others : ∀ j ∈ env.txHostidPushed.erase i, j ≠ i := fun j member here =>
    loaded.pushed_nodup.not_mem_erase (here ▸ member)
  refine ⟨_, rfl, loaded.saved i pushed, ⟨pool, loaded.bus, fun j member => ?_⟩, rfl, ?_⟩
  · exact loaded.saved j (List.mem_of_mem_erase member)
  · show (env.txHostidPushed.erase i).map _ = _
    rw [outstanding, List.filter_map, loaded.pushed_nodup.erase_eq_filter]
    have keep : env.txHostidPushed.filter (· != i) =
        env.txHostidPushed.filter ((fun e : BitVec 32 × Ptr => decide (e.1 ≠ hostid)) ∘ env.entry) := by
      refine List.filter_congr fun j member => ?_
      show (j != i) = decide (env.hostid j ≠ hostid)
      rw [Bool.eq_iff_iff, bne_iff_ne, decide_eq_true_iff]
      refine not_congr ⟨fun here => here ▸ same, fun equal => ?_⟩
      exact loaded.pool.ids.injective (loaded.pool.pushed_lt member) (loaded.pool.pushed_lt pushed)
        (equal.trans same.symm)
    rw [← keep, ← loaded.pushed_nodup.erase_eq_filter]
    refine List.map_congr_left fun j member => ?_
    show (update env.hostid i _ j, env.hostptr j) = _
    rw [update_of_ne (others j member)]
    rfl

theorem init {busType : BusType} (bus : busType ≠ .pcie) : Loaded (HostEnv.ipcHostInit busType) :=
  ⟨poolInv_init busType, bus, fun _ member => absurd member List.not_mem_nil⟩

theorem step (loaded : Loaded env) {env' : HostEnv} {call : PoolCall} (buffer : SavesBuffers env call)
    (stepped : env.step call = some env') : Loaded env' := by
  cases call with
  | ptrToId hostPtr =>
    obtain rfl := some.inj stepped
    refine ⟨loaded.pool.ptrToId hostPtr, ?_, fun i member => ?_⟩
    · rw [PoolInv.ptrToId_busType]
      exact loaded.bus
    · unfold HostEnv.ipcHostTxHostPtrToId at member ⊢
      split at member
      case h_1 => exact loaded.saved i member
      case h_2 j rest available =>
        rcases eq_or_ne i j with rfl | other
        · show update env.hostptr i hostPtr i ≠ 0
          rw [Function.update_self]
          exact buffer
        · show update env.hostptr j hostPtr i ≠ 0
          rw [update_of_ne other]
          rcases List.mem_append.mp member with before | now
          · exact loaded.saved i before
          · exact absurd (List.mem_singleton.mp now) other
  | idToPtr hostid =>
    obtain rfl := some.inj stepped
    have usb : env.lookup hostid = env.ipcHostTxHostIdToPtrForSdioUsb hostid := by
      unfold HostEnv.lookup
      cases bus : env.busType with
      | pcie => exact absurd bus loaded.bus
      | sdio => rfl
      | usb => rfl
    rw [usb]
    cases found : (outstanding env).find? (·.1 = hostid) with
    | none =>
      rw [lookup_none found]
      exact loaded
    | some e =>
      obtain ⟨env', taken, -, loaded', -⟩ := loaded.lookup_some found
      rw [taken]
      exact loaded'
  | flush =>
    obtain rfl := some.inj stepped
    refine ⟨loaded.pool.flush, ?_, fun i member => ?_⟩
    · rw [PoolInv.flush_busType]
      exact loaded.bus
    · unfold HostEnv.ipcHostTxFlush at member ⊢
      split at member
      case h_1 => exact loaded.saved i member
      case h_2 j rest pushed => exact loaded.saved i (List.mem_of_mem_erase member)

theorem of_reachable {busType : BusType} (bus : busType ≠ .pcie)
    (reach : (poolSystem busType).Reachable SavesBuffers env) : Loaded env :=
  reach.invariant (init bus) fun _ _ _ _ loaded buffer stepped => loaded.step buffer stepped

end Loaded

/-! ### The loop -/

section Loop

variable {analyze : Bool} {hostids : ℕ → BitVec 32} {packetCnt : Ptr → BitVec 8} {s s' : CfmScan}
  {start fuel n : ℕ}

def CfmScan.confirm (packetCnt : Ptr → BitVec 8) (s : CfmScan) (env : HostEnv) (skb : Ptr) : CfmScan :=
  { s with
    env := env
    txcfmIdx := s.drvTxcfmIdx
    drvTxcfmIdx := nextSlot s.drvTxcfmIdx
    i := (if s.env.busType = .sdio then packetCnt skb else s.i) + 1
    visited := s.visited ++ [s.drvTxcfmIdx]
    processed := s.processed ++ [(s.drvTxcfmIdx, skb)] }

theorem scanLoop_done (full : ¬s.i.toNat < sramTxcfmCnt) :
    scanLoop analyze hostids packetCnt (fuel + 1) s = some s := by
  rw [scanLoop, if_neg full]

theorem scanLoop_none (room : s.i.toNat < sramTxcfmCnt)
    (absent : (outstanding s.env).find? (·.1 = hostids s.drvTxcfmIdx) = none) :
    scanLoop analyze hostids packetCnt (fuel + 1) s =
      some { s with
        txcfmIdx := s.drvTxcfmIdx
        visited := s.visited ++ [s.drvTxcfmIdx]
        analyzed := if analyze then some s.i.toNat else none } := by
  rw [scanLoop, if_pos room]
  dsimp only
  rw [Loaded.lookup_none absent, if_pos rfl]

theorem scanLoop_some (room : s.i.toNat < sramTxcfmCnt) {env : HostEnv} {skb : Ptr}
    (taken : s.env.ipcHostTxHostIdToPtrForSdioUsb (hostids s.drvTxcfmIdx) = (env, skb)) (buffer : skb ≠ 0) :
    scanLoop analyze hostids packetCnt (fuel + 1) s =
      scanLoop analyze hostids packetCnt fuel (s.confirm packetCnt env skb) := by
  rw [scanLoop, if_pos room]
  dsimp only
  rw [taken]
  dsimp only
  rw [if_neg buffer]
  rfl

theorem scanLoop_visited (ran : scanLoop analyze hostids packetCnt fuel s = some s') :
    s.visited.length ≤ s'.visited.length ∧ (s.i.toNat < sramTxcfmCnt → s.visited.length < s'.visited.length) := by
  induction fuel generalizing s with
  | zero => nomatch ran
  | succ fuel ih =>
    rw [scanLoop] at ran
    split at ran
    case isFalse full => exact ⟨some.inj ran ▸ Nat.le_refl _, fun room => absurd room full⟩
    case isTrue =>
      have longer : ∀ {v : List ℕ}, v = s.visited ++ [s.drvTxcfmIdx] → s.visited.length < v.length :=
        fun same => by rw [same, List.length_append]; exact Nat.lt_succ_self _
      dsimp only at ran
      split at ran
      · have grown := longer (congrArg CfmScan.visited (some.inj ran)).symm
        exact ⟨grown.le, fun _ => grown⟩
      · have grown := Nat.lt_of_lt_of_le (longer rfl) (ih ran).1
        exact ⟨grown.le, fun _ => grown⟩

theorem scanLoop_mono (ran : scanLoop analyze hostids packetCnt fuel s = some s') (more : ℕ) :
    scanLoop analyze hostids packetCnt (more + fuel) s = some s' := by
  induction fuel generalizing s with
  | zero => nomatch ran
  | succ fuel ih =>
    rw [scanLoop] at ran
    rw [← Nat.add_assoc, scanLoop]
    split at ran
    case isFalse full => rwa [if_neg full]
    case isTrue room =>
      rw [if_pos room]
      dsimp only at ran ⊢
      split at ran
      case isTrue absent => rwa [if_pos absent]
      case isFalse buffer =>
        rw [if_neg buffer]
        exact ih ran

/-- A scan that has gone on from a slot: each slot read was confirmed. -/
structure Along (start : ℕ) (s : CfmScan) : Prop where
  loaded : Loaded s.env
  drvTxcfmIdx : s.drvTxcfmIdx = (start + s.processed.length) % sramTxcfmCnt
  visited : s.visited = (List.range s.processed.length).map fun k => (start + k) % sramTxcfmCnt
  txcfmIdx : s.processed ≠ [] → s.txcfmIdx = (start + (s.processed.length - 1)) % sramTxcfmCnt
  count : s.env.busType ≠ .sdio → s.i.toNat = s.processed.length
  room : s.env.busType = .sdio → s.i.toNat < sramTxcfmCnt

theorem Along.visited_succ (along : Along start s) : s.visited ++ [s.drvTxcfmIdx] =
    (List.range (s.processed.length + 1)).map fun k => (start + k) % sramTxcfmCnt := by
  rw [List.range_succ, List.map_append, ← along.visited, along.drvTxcfmIdx]
  rfl

theorem Along.confirm (along : Along start s) {env : HostEnv} (skb : Ptr) (loaded : Loaded env)
    (bus : env.busType = s.env.busType) (less : s.processed.length < sramTxcfmCnt)
    (calm : s.env.busType = .sdio → (packetCnt skb + 1).toNat < sramTxcfmCnt) :
    Along start (s.confirm packetCnt env skb) := by
  have length : (s.processed ++ [(s.drvTxcfmIdx, skb)]).length = s.processed.length + 1 :=
    List.length_append
  constructor
  case loaded => exact loaded
  case drvTxcfmIdx =>
    show nextSlot s.drvTxcfmIdx = (start + (s.processed ++ [(s.drvTxcfmIdx, skb)]).length) % sramTxcfmCnt
    rw [length, along.drvTxcfmIdx, nextSlot, Nat.mod_add_mod, Nat.add_assoc]
  case visited =>
    show s.visited ++ [s.drvTxcfmIdx] = _
    rw [along.visited_succ]
    show _ = (List.range (s.processed ++ [(s.drvTxcfmIdx, skb)]).length).map _
    rw [length]
  case txcfmIdx =>
    intro _
    show s.drvTxcfmIdx = (start + ((s.processed ++ [(s.drvTxcfmIdx, skb)]).length - 1)) % sramTxcfmCnt
    rw [length, along.drvTxcfmIdx]
    rfl
  case count =>
    intro other
    change env.busType ≠ .sdio at other
    rw [bus] at other
    show ((if s.env.busType = .sdio then packetCnt skb else s.i) + 1).toNat =
      (s.processed ++ [(s.drvTxcfmIdx, skb)]).length
    have counted := along.count other
    rw [if_neg other, length, BitVec.toNat_add, counted]
    have small : sramTxcfmCnt < 256 := by decide
    exact Nat.mod_eq_of_lt (show s.processed.length + 1 < 256 by omega)
  case room =>
    intro sdio
    change env.busType = .sdio at sdio
    rw [bus] at sdio
    show ((if s.env.busType = .sdio then packetCnt skb else s.i) + 1).toNat < sramTxcfmCnt
    rw [if_pos sdio]
    exact calm sdio

theorem Along.less (along : Along start s) (less : s.processed.length < sramTxcfmCnt) : s.i.toNat < sramTxcfmCnt := by
  by_cases sdio : s.env.busType = .sdio
  · exact along.room sdio
  · rw [along.count sdio]
    exact less

/-- What `i` holds behind the frames of a run. -/
def counted (packetCnt : Ptr → BitVec 8) (bus : BusType) (i : BitVec 8) (run : List (ℕ × Ptr)) : ℕ :=
  if bus = .sdio then run.getLast?.elim i.toNat fun frame => (packetCnt frame.2 + 1).toNat
  else i.toNat + run.length

theorem scanLoop_run (analyze : Bool) (s : CfmScan) (along : Along start s)
    (size : s.processed.length + n = sramTxcfmCnt)
    (short : (confirmed hostids n (outstanding s.env) s.drvTxcfmIdx).length < n)
    (calm : s.env.busType = .sdio → ∀ frame ∈ confirmed hostids n (outstanding s.env) s.drvTxcfmIdx,
      (packetCnt frame.2 + 1).toNat < sramTxcfmCnt) :
    ∃ fuel s', scanLoop analyze hostids packetCnt fuel s = some s' ∧
      s'.processed = s.processed ++ confirmed hostids n (outstanding s.env) s.drvTxcfmIdx ∧
      s'.visited = ((List.range (s'.processed.length + 1)).map fun k => (start + k) % sramTxcfmCnt) ∧
      s'.txcfmIdx = (start + s'.processed.length) % sramTxcfmCnt ∧
      s'.analyzed = if analyze then some (counted packetCnt s.env.busType s.i
        (confirmed hostids n (outstanding s.env) s.drvTxcfmIdx)) else none := by
  induction n generalizing s with
  | zero => exact absurd short (Nat.not_lt_zero _)
  | succ n ih =>
    have room := along.less (by omega)
    rw [confirmed] at short calm ⊢
    cases found : (outstanding s.env).find? (·.1 = hostids s.drvTxcfmIdx) with
    | none =>
      refine ⟨1, _, scanLoop_none room found, (List.append_nil _).symm, along.visited_succ, along.drvTxcfmIdx, ?_⟩
      unfold counted
      rw [List.getLast?_nil, Option.elim_none, List.length_nil, Nat.add_zero, ite_self]
    | some e =>
      rw [found] at short calm
      dsimp only at short calm ⊢
      obtain ⟨env, taken, buffer, loaded, bus, rest⟩ := along.loaded.lookup_some found
      have next : Along start (s.confirm packetCnt env e.2) := along.confirm e.2 loaded bus (by omega)
        fun sdio => calm sdio _ List.mem_cons_self
      have length : (s.confirm packetCnt env e.2).processed.length = s.processed.length + 1 :=
        List.length_append
      obtain ⟨fuel, s', ran, processed, visited, txcfmIdx, analyzed⟩ := ih (s.confirm packetCnt env e.2) next
        (by omega) (by
          show (confirmed hostids n (outstanding env) (nextSlot s.drvTxcfmIdx)).length < n
          rw [rest]
          exact Nat.lt_of_succ_lt_succ short) fun sdio frame member => by
          change env.busType = .sdio at sdio
          change frame ∈ confirmed hostids n (outstanding env) (nextSlot s.drvTxcfmIdx) at member
          rw [rest] at member
          exact calm (bus ▸ sdio) frame (List.mem_cons_of_mem _ member)
      change s'.processed = (s.processed ++ [(s.drvTxcfmIdx, e.2)]) ++
        confirmed hostids n (outstanding env) (nextSlot s.drvTxcfmIdx) at processed
      change s'.analyzed = if analyze then some (counted packetCnt env.busType
        ((if s.env.busType = .sdio then packetCnt e.2 else s.i) + 1)
        (confirmed hostids n (outstanding env) (nextSlot s.drvTxcfmIdx))) else none at analyzed
      rw [rest] at processed analyzed
      refine ⟨fuel + 1, s', (scanLoop_some room taken buffer).trans ran, ?_, visited, txcfmIdx, ?_⟩
      · rw [processed, List.append_assoc]
        rfl
      · rw [analyzed, bus]
        refine if_congr Iff.rfl (congrArg some ?_) rfl
        unfold counted
        by_cases sdio : s.env.busType = .sdio
        · rw [if_pos sdio, if_pos sdio, if_pos sdio, List.getLast?_cons]
          cases (confirmed hostids n _ (nextSlot s.drvTxcfmIdx)).getLast? <;> rfl
        · have count := along.count sdio
          have grows : (s.i + 1).toNat = s.i.toNat + 1 := by
            rw [BitVec.toNat_add]
            have small : sramTxcfmCnt < 256 := by decide
            exact Nat.mod_eq_of_lt (show s.i.toNat + 1 < 256 by omega)
          rw [if_neg sdio, if_neg sdio, if_neg sdio, grows, List.length_cons, Nat.add_assoc, Nat.add_comm 1]

/-- **A run that is disturbed, or that is the whole table, goes wrong**: a slot is read twice, or the
index is left in front of the last confirmation. -/
theorem scanLoop_wrong (s : CfmScan) (along : Along start s) (size : s.processed.length + n = sramTxcfmCnt)
    (wrong : (confirmed hostids n (outstanding s.env) s.drvTxcfmIdx).length = n ∨ s.env.busType = .sdio ∧
      ∃ frame ∈ confirmed hostids n (outstanding s.env) s.drvTxcfmIdx, sramTxcfmCnt ≤ (packetCnt frame.2 + 1).toNat)
    (ran : scanLoop analyze hostids packetCnt fuel s = some s') :
    sramTxcfmCnt < s'.visited.length ∨ s'.txcfmIdx ≠ (start + s'.processed.length) % sramTxcfmCnt := by
  obtain _ | fuel := fuel
  · nomatch ran
  induction n generalizing s fuel with
  | zero =>
    have read : s.visited.length = sramTxcfmCnt := by
      rw [along.visited, List.length_map, List.length_range]
      exact size
    by_cases room : s.i.toNat < sramTxcfmCnt
    · exact .inl (read ▸ (scanLoop_visited ran).2 room)
    · rw [scanLoop_done room] at ran
      obtain rfl := some.inj ran
      have some_ : s.processed ≠ [] := fun none_ => by
        rw [none_] at size
        nomatch size
      have positive := List.length_pos_iff.mpr some_
      have behind := slot_ne (start + (s.processed.length - 1))
      rw [Nat.add_assoc, Nat.sub_add_cancel positive] at behind
      rw [along.txcfmIdx some_]
      exact .inr behind
  | succ n ih =>
    have room := along.less (by omega)
    rw [confirmed] at wrong
    cases found : (outstanding s.env).find? (·.1 = hostids s.drvTxcfmIdx) with
    | none =>
      rw [found] at wrong
      rcases wrong with short | ⟨-, _, member, -⟩
      · nomatch short
      · exact absurd member List.not_mem_nil
    | some e =>
      rw [found] at wrong
      dsimp only at wrong
      obtain ⟨env, taken, buffer, loaded, bus, rest⟩ := along.loaded.lookup_some found
      rw [scanLoop_some room taken buffer] at ran
      have length : (s.confirm packetCnt env e.2).processed.length = s.processed.length + 1 :=
        List.length_append
      obtain _ | fuel := fuel
      · nomatch ran
      by_cases calm : s.env.busType = .sdio → (packetCnt e.2 + 1).toNat < sramTxcfmCnt
      · refine ih (s.confirm packetCnt env e.2) (along.confirm e.2 loaded bus (by omega) calm) (by omega) ?_
          fuel ran
        show (confirmed hostids n (outstanding env) (nextSlot s.drvTxcfmIdx)).length = n ∨ env.busType = .sdio ∧
          ∃ frame ∈ confirmed hostids n (outstanding env) (nextSlot s.drvTxcfmIdx), _
        rw [rest, bus]
        refine wrong.imp Nat.succ.inj fun ⟨sdio, frame, member, large⟩ => ⟨sdio, frame, ?_, large⟩
        rcases List.mem_cons.mp member with rfl | later
        · exact absurd (calm sdio) (not_lt.mpr large)
        · exact later
      · -- The counter ends the loop.
        obtain ⟨sdio, large⟩ := Classical.not_imp.mp calm
        have full : ¬(s.confirm packetCnt env e.2).i.toNat < sramTxcfmCnt := by
          show ¬((if s.env.busType = .sdio then packetCnt e.2 else s.i) + 1).toNat < sramTxcfmCnt
          rwa [if_pos sdio]
        rw [scanLoop_done full] at ran
        obtain rfl := some.inj ran
        refine .inr ?_
        rw [length]
        show s.drvTxcfmIdx ≠ _
        rw [along.drvTxcfmIdx, ← Nat.add_assoc]
        exact slot_ne _

end Loop

/-! ### A wake-up -/

theorem length_confirmed_le (hostids : ℕ → BitVec 32) (n : ℕ) (out : List (BitVec 32 × Ptr)) (idx : ℕ) :
    (confirmed hostids n out idx).length ≤ n := by
  induction n generalizing out idx with
  | zero => exact Nat.le_refl 0
  | succ n ih =>
    rw [confirmed]
    split
    · exact Nat.zero_le _
    · exact Nat.succ_le_succ (ih _ _)

theorem slots_nodup (start : ℕ) {n : ℕ} (few : n ≤ sramTxcfmCnt) :
    ((List.range n).map fun k => (start + k) % sramTxcfmCnt).Nodup := by
  refine List.nodup_range.map_on fun j left k right same => ?_
  rw [List.mem_range] at left right
  unfold sramTxcfmCnt at few same
  omega

/-- **When a wake-up does what it should**, whatever is in the table. -/
theorem wakeUp_right_iff {busType : BusType} (other : busType ≠ .pcie) {env : HostEnv}
    (reach : (poolSystem busType).Reachable SavesBuffers env) (analyze : Bool) (hostids : ℕ → BitVec 32)
    (packetCnt : Ptr → BitVec 8) (txcfmIdx : ℕ) {idx : ℕ} (inside : idx < sramTxcfmCnt) :
    WakeRight analyze hostids packetCnt env txcfmIdx idx ↔ WakeFits analyze hostids packetCnt env idx := by
  have loaded := Loaded.of_reachable other reach
  have along : Along idx { env := env, txcfmIdx := txcfmIdx, drvTxcfmIdx := idx } :=
    { loaded := loaded
      drvTxcfmIdx := (Nat.mod_eq_of_lt inside).symm
      visited := rfl
      txcfmIdx := fun some_ => absurd rfl some_
      count := fun _ => rfl
      room := fun _ => Nat.zero_lt_succ 191 }
  have counts : env.busType ≠ .sdio → counted packetCnt env.busType 0 (cfmRun hostids env idx) =
      (cfmRun hostids env idx).length := fun usb => by
    unfold counted
    rw [if_neg usb]
    exact Nat.zero_add _
  refine ⟨fun ⟨fuel, s, ran, processed, nodup, few, index, reported⟩ => ?_, fun ⟨short, calm⟩ => ?_⟩
  · have still := fun wrong => scanLoop_wrong (n := sramTxcfmCnt) _ along (Nat.zero_add _) wrong ran
    have right : ¬(sramTxcfmCnt < s.visited.length ∨ s.txcfmIdx ≠ (idx + s.processed.length) % sramTxcfmCnt) :=
      not_or.mpr ⟨not_lt.mpr few, not_not.mpr index⟩
    have short : (cfmRun hostids env idx).length < sramTxcfmCnt :=
      lt_of_le_of_ne (length_confirmed_le _ _ _ _) fun whole => right (still (.inl whole))
    have calm : env.busType = .sdio → ∀ frame ∈ cfmRun hostids env idx,
        (packetCnt frame.2 + 1).toNat < sramTxcfmCnt := fun sdio frame member =>
      not_le.mp fun large => right (still (.inr ⟨sdio, frame, member, large⟩))
    refine ⟨short, fun sdio => ⟨calm sdio, fun on frame last => ?_⟩⟩
    obtain ⟨fuel', s', ran', -, -, -, analyzed⟩ := scanLoop_run (n := sramTxcfmCnt) analyze _ along
      (Nat.zero_add _) short calm
    have same : s = s' := Option.some.inj <|
      (scanLoop_mono ran fuel').symm.trans (Nat.add_comm fuel fuel' ▸ scanLoop_mono ran' fuel)
    have equal := (same ▸ analyzed).symm.trans (reported on)
    rw [if_pos on, processed] at equal
    have last' : (confirmed hostids sramTxcfmCnt (outstanding env) idx).getLast? = some frame := last
    simp only [counted, if_pos sdio, last', Option.elim_some] at equal
    exact Option.some.inj equal
  · obtain ⟨fuel, s, ran, processed, visited, index, analyzed⟩ := scanLoop_run (n := sramTxcfmCnt)
      analyze _ along (Nat.zero_add _) short fun sdio => (calm sdio).1
    have processed' : s.processed = cfmRun hostids env idx := processed
    have small : s.processed.length + 1 ≤ sramTxcfmCnt := by
      rw [processed']
      exact short
    refine ⟨fuel, s, ran, processed', ?_, ?_, index, fun on => ?_⟩
    · rw [visited]
      exact slots_nodup idx small
    · rw [visited, List.length_map, List.length_range]
      exact small
    · rw [analyzed, if_pos on, processed']
      refine congrArg some ?_
      by_cases sdio : env.busType = .sdio
      · show counted packetCnt env.busType 0 (cfmRun hostids env idx) = _
        unfold counted
        rw [if_pos sdio]
        cases last : (cfmRun hostids env idx).getLast? with
        | none =>
          rw [List.getLast?_eq_none_iff] at last
          rw [last]
          rfl
        | some frame => exact (calm sdio).2 on frame last
      · exact counts sdio

def threePushed : List PoolCall := [.ptrToId 1, .ptrToId 2, .ptrToId 3]

def firstThree (idx : ℕ) : BitVec 32 :=
  if idx < 3 then BitVec.ofNat 32 (idx + 1) ||| HostEnv.shiftedPrefix (BitVec.ofNat 16 (idx + 1)) else 0

/-- On USB a wake-up confirms them. -/
theorem wakeUp_right_usb : ∃ env, (poolSystem .usb).Reachable SavesBuffers env ∧
    cfmRun firstThree env 0 = [(0, 1), (1, 2), (2, 3)] ∧
    WakeRight true firstThree (fun _ => 1) env 0 0 := by
  have reach := Lib.System.reachable_of_run (poolSystem .usb) SavesBuffers threePushed (by decide +kernel)
  generalize state : (Lib.System.run (poolSystem .usb) SavesBuffers (poolSystem .usb).init threePushed).get _ = env
    at reach
  have run : cfmRun firstThree env 0 = [(0, 1), (1, 2), (2, 3)] := by
    rw [← state]
    decide +kernel
  have usb : env.busType = .usb := by
    rw [← state]
    decide +kernel
  refine ⟨env, reach, run, ?_⟩
  refine (wakeUp_right_iff (by decide) reach true firstThree (fun _ => 1) 0 (by decide)).mpr ?_
  unfold WakeFits
  rw [run, usb]
  exact ⟨by decide, fun sdio => (nomatch sdio)⟩

/-- **On SDIO a wake-up that confirms three frames of one packet reports two.** -/
theorem wakeUp_miscounts : ∃ env, (poolSystem .sdio).Reachable SavesBuffers env ∧
    ¬WakeRight true firstThree (fun _ => 1) env 0 0 := by
  have reach := Lib.System.reachable_of_run (poolSystem .sdio) SavesBuffers threePushed (by decide +kernel)
  generalize state : (Lib.System.run (poolSystem .sdio) SavesBuffers (poolSystem .sdio).init threePushed).get _ = env
    at reach
  refine ⟨env, reach, fun ⟨fuel, s, ran, processed, _, _, _, reported⟩ => ?_⟩
  have run : cfmRun firstThree env 0 = [(0, 1), (1, 2), (2, 3)] := by
    rw [← state]
    decide +kernel
  have result : (wakeUp true firstThree (fun _ => 1) env 0 0 4).map (·.analyzed) = some (some 2) := by
    rw [← state]
    decide +kernel
  obtain ⟨s', ran', analyzed⟩ := Option.map_eq_some_iff.mp result
  have same : s = s' := Option.some.inj <|
    (scanLoop_mono ran 4).symm.trans (Nat.add_comm fuel 4 ▸ scanLoop_mono ran' fuel)
  have equal := (same ▸ analyzed).symm.trans (reported rfl)
  rw [processed, run] at equal
  exact absurd equal (by decide)

end W2l.Tx
