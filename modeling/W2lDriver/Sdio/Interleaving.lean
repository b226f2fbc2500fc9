/-
**SDIO windows: every interleaving.**

* `Apart` — **an access finds its function free**: function 4 is used for the shared RAM, function 6 for the
  RX ring and by one thread, function 7 by one thread, its blocks in the window of the last word; and the
  writes of the base registers arrive.
* `Phase` — how far the access of a thread is, and what holds there.
-/

import W2lDriver.Sdio.Windows

set_option linter.unusedSectionVars false

namespace W2l.Sdio

open Lib (System)
open Function (update update_of_ne update_self)
open List (mem_cons mem_singleton not_mem_nil)
open Option (some.inj)
open SdioHw (command rxBase window)

variable {T : Type} [DecidableEq T]

def Op.func : Op → Option Func
  | .writeBase func _ => some func
  | .func4SetBaseAddr _ _ => some .f4
  | .func6SetBaseAddr _ => some .f6
  | .transfer t => some t.func
  | _ => none

def Op.programs : Op → Bool
  | .writeBase _ _ | .func4SetBaseAddr _ _ | .func6SetBaseAddr _ => true
  | _ => false

def Uses (func : Func) (ops : List Op) : Prop :=
  ∃ op ∈ ops, op.func = some func

/-- **What an access finds.** -/
def Apart (s : SdioHw T) : SdioAct T → Prop
  | .start _ (.txBuffer _ addr _) => InSharedRam addr
  | .start _ (.btHiWord _ _) => ∀ u, ¬ Uses .f7 (s.todo u)
  | .start _ (.btSram _ addr _) => (∀ u, ¬ Uses .f7 (s.todo u)) ∧ s.base .f7 = addr &&& windowMask
  | .start _ (.rxBuffer addr len) => InRxRing addr len ∧ ∀ u, ¬ Uses .f6 (s.todo u)
  | .start _ _ => True
  | .goOn t ok => ∀ op ∈ (s.todo t).head?, op.programs = true → ok = true

def RightNow (s : SdioHw T) (t : Transfer) : Prop :=
  Made.Right ⟨t, s.base t.func, s.window t.func t.requested, s.command t⟩

/-- **How far the access of a thread is.** -/
inductive Phase (s : SdioHw T) (t : T) : List Op → Prop
  | done : Phase s t []
  | random (tr : Transfer) (func : tr.func = .f2) (addr : tr.addr = tr.requested) :
      Phase s t [.lock, .writeBase .f2 (tr.requested &&& windowMask), .transfer tr, .unlock]
  | randomBase (tr : Transfer) (func : tr.func = .f2) (addr : tr.addr = tr.requested) (own : s.owner = some t) :
      Phase s t [.writeBase .f2 (tr.requested &&& windowMask), .transfer tr, .unlock]
  | tx (tr : Transfer) (func : tr.func = .f4) (addr : tr.addr = tr.requested) (ram : InSharedRam tr.requested) :
      Phase s t [.lock, .func4SetBaseAddr tr.requested tr.len, .transfer tr, .unlock]
  | txBase (tr : Transfer) (func : tr.func = .f4) (addr : tr.addr = tr.requested) (ram : InSharedRam tr.requested)
      (own : s.owner = some t) : Phase s t [.func4SetBaseAddr tr.requested tr.len, .transfer tr, .unlock]
  | locked (tr : Transfer) (func : tr.func = .f2 ∨ tr.func = .f4) (right : RightNow s tr) (own : s.owner = some t) :
      Phase s t [.transfer tr, .unlock]
  | unlock (own : s.owner = some t) : Phase s t [.unlock]
  | bt (tr : Transfer) (func : tr.func = .f7) (addr : tr.addr = tr.requested &&& sdioAddrMask) :
      Phase s t [.mapping, .writeBase .f7 (tr.requested &&& windowMask), .transfer tr]
  | btBase (tr : Transfer) (func : tr.func = .f7) (addr : tr.addr = tr.requested &&& sdioAddrMask) :
      Phase s t [.writeBase .f7 (tr.requested &&& windowMask), .transfer tr]
  | btReady (tr : Transfer) (func : tr.func = .f7) (right : RightNow s tr) : Phase s t [.transfer tr]
  | rx (p : Piece) (rest : List Piece) (ring : ∀ q ∈ p :: rest, InRxRing q.addr q.len) :
      Phase s t ((p :: rest).flatMap amlSdioFunc6RxBufferRead)
  | rxReady (p : Piece) (rest : List Piece) (ring : ∀ q ∈ rest, InRxRing q.addr q.len)
      (right : RightNow s ⟨.f6, false, p.addr, p.addr, p.len, p.dst⟩) :
      Phase s t (.transfer ⟨.f6, false, p.addr, p.addr, p.len, p.dst⟩ :: rest.flatMap amlSdioFunc6RxBufferRead)

/-- The cached bases are what the registers hold. -/
structure Cached (s : SdioHw T) : Prop where
  tx : s.base .f4 = s.txBufferBaseAddr
  ram : InSharedRam s.txBufferBaseAddr
  rx : s.base .f6 = s.rxBufferBaseAddr

/-- **The invariant.** -/
structure SdioInv (s : SdioHw T) : Prop where
  cached : Cached s
  phase : ∀ t, Phase s t (s.todo t)
  alone : ∀ func, func = .f6 ∨ func = .f7 → ∀ t u, Uses func (s.todo t) → Uses func (s.todo u) → t = u
  made : WindowsRight s

/-! ### Windows -/

section Window

theorem window_add (addr : BitVec 32) : (addr &&& windowMask).toNat + (addr &&& sdioAddrMask).toNat = addr.toNat := by
  have disjoint : (addr &&& windowMask) &&& (addr &&& sdioAddrMask) = 0#32 := by
    have masks : windowMask &&& sdioAddrMask = 0#32 := by decide
    have regroup : (addr &&& windowMask) &&& (addr &&& sdioAddrMask) = addr &&& (windowMask &&& sdioAddrMask) := by
      ext i
      simp only [BitVec.getElem_and]
      cases addr[i] <;> rfl
    rw [regroup, masks, BitVec.and_zero]
  have sum : (addr &&& windowMask) + (addr &&& sdioAddrMask) = addr := by
    have masks : windowMask ||| sdioAddrMask = BitVec.allOnes 32 := by decide
    rw [BitVec.add_eq_or_of_and_eq_zero _ _ disjoint, ← BitVec.and_or_distrib_left, masks, BitVec.and_allOnes]
  rw [← BitVec.toNat_add_of_and_eq_zero disjoint, sum]

theorem command_lt (addr : BitVec 32) : (addr &&& sdioAddrMask).toNat < 2 ^ 17 := by
  rw [BitVec.toNat_and]
  exact Nat.lt_of_le_of_lt Nat.and_le_right (by decide)

theorem mask_idem (addr : BitVec 32) : (addr &&& sdioAddrMask) &&& sdioAddrMask = addr &&& sdioAddrMask := by
  rw [BitVec.and_assoc, BitVec.and_self]

variable {s u : SdioHw T} {tr : Transfer}

theorem rightNow_masked (func : tr.func = .f2 ∨ tr.func = .f7)
    (addr : tr.addr &&& sdioAddrMask = tr.requested &&& sdioAddrMask)
    (base : s.base tr.func = tr.requested &&& windowMask) : RightNow s tr := by
  have window : s.window tr.func tr.requested = tr.requested &&& windowMask := by
    unfold window
    rcases func with same | same <;> rw [same]
  have command : s.command tr = (tr.requested &&& sdioAddrMask).toNat := by
    unfold command
    rcases func with same | same <;> rw [same, addr]
  refine ⟨base.trans window.symm, ?_, ?_⟩
  · show (s.base tr.func).toNat + s.command tr = tr.requested.toNat
    rw [base, command]
    exact window_add tr.requested
  · show s.command tr < 2 ^ 17
    rw [command]
    exact command_lt tr.requested

theorem right_cached {base addr : BitVec 32} (below : base.toNat ≤ addr.toNat) (near : addr.toNat - base.toNat < 2 ^ 17)
    (large : 2 ^ 17 ≤ base.toNat) :
    base.toNat + addr.toNat % base.toNat = addr.toNat ∧ addr.toNat % base.toNat < 2 ^ 17 := by
  have offset : addr.toNat % base.toNat = addr.toNat - base.toNat := by
    rw [Nat.mod_eq_sub_mod below]
    exact Nat.mod_eq_of_lt (Nat.lt_of_lt_of_le near large)
  rw [offset]
  exact ⟨Nat.add_sub_cancel' below, near⟩

theorem RightNow.congr (right : RightNow s tr) (base : u.base tr.func = s.base tr.func)
    (tx : tr.func = .f4 → u.txBufferBaseAddr = s.txBufferBaseAddr)
    (rx : tr.func = .f6 → u.rxBufferBaseAddr = s.rxBufferBaseAddr) : RightNow u tr := by
  have window : u.window tr.func tr.requested = s.window tr.func tr.requested := by
    unfold window
    cases func : tr.func with
    | f2 => rfl
    | f7 => rfl
    | f4 => exact tx func
    | f6 => exact rx func
  have command : u.command tr = s.command tr := by
    unfold command
    cases func : tr.func with
    | f2 => rfl
    | f7 => rfl
    | f4 =>
      show tr.addr.toNat % u.txBufferBaseAddr.toNat = tr.addr.toNat % s.txBufferBaseAddr.toNat
      rw [tx func]
    | f6 =>
      show tr.addr.toNat % u.rxBufferBaseAddr.toNat = tr.addr.toNat % s.rxBufferBaseAddr.toNat
      rw [rx func]
  unfold RightNow
  rw [base, window, command]
  exact right

end Window

/-! ### The pieces of a read -/

section Pieces

variable {addr : BitVec 32} {len : ℕ}

section

variable (ring : InRxRing addr len)

include ring

theorem ring_len : len ≤ len256K := by
  obtain ⟨above, below⟩ := ring
  have start : rxbufStartAddr.toNat = 0x60013b4c := rfl
  have finish : rxbufEndAddrLarge.toNat = 0x60053b4c := rfl
  unfold len256K
  omega

theorem second_toNat : (addr + BitVec.ofNat 32 len128K).toNat = addr.toNat + len128K := by
  obtain ⟨-, below⟩ := ring
  have finish : rxbufEndAddrLarge.toNat = 0x60053b4c := rfl
  rw [BitVec.toNat_add]
  show (addr.toNat + len128K) % 2 ^ 32 = addr.toNat + len128K
  refine Nat.mod_eq_of_lt ?_
  unfold len128K
  omega

theorem rxPieces_ring : ∀ p ∈ rxPieces addr len, InRxRing p.addr p.len := by
  have second := second_toNat ring
  obtain ⟨above, below⟩ := ring
  unfold rxPieces
  rw [if_neg (Nat.not_lt.mpr (ring_len ⟨above, below⟩))]
  split
  · case isTrue long =>
    intro p mem
    rcases mem_cons.mp mem with rfl | mem
    · exact ⟨above, by show addr.toNat + len128K ≤ _; omega⟩
    · obtain rfl := mem_singleton.mp mem
      refine ⟨?_, ?_⟩
      · show rxbufStartAddr.toNat ≤ (addr + BitVec.ofNat 32 len128K).toNat
        omega
      · show (addr + BitVec.ofNat 32 len128K).toNat + (len - len128K) ≤ _
        omega
  · intro p mem
    obtain rfl := mem_singleton.mp mem
    exact ⟨above, below⟩

theorem rxPieces_cover {alignSize : ℕ → ℕ} (padded : ∀ n, alignSize n < n + 512) :
    Covers alignSize addr len (rxPieces addr len) := by
  have second := second_toNat ring
  have short := ring_len ring
  have staged : ∀ n ≤ len128K, alignSize n ≤ wlanAmlSdioSize := fun n few => by
    have small := padded n
    unfold len128K at few
    unfold wlanAmlSdioSize
    omega
  unfold rxPieces
  rw [if_neg (Nat.not_lt.mpr short)]
  split
  · case isTrue long =>
    refine ⟨?_, fun p mem => ?_⟩
    · have lengths : len = len128K + (len - len128K) := (Nat.add_sub_cancel' (Nat.le_of_lt long)).symm
      have first : Piece.bytes ⟨0, addr, len128K⟩ = (List.range len128K).map fun i => (i, addr.toNat + i) := by
        unfold Piece.bytes
        refine List.map_congr_left fun i _ => ?_
        rw [Nat.zero_add]
      have rest : Piece.bytes ⟨len128K, addr + BitVec.ofNat 32 len128K, len - len128K⟩ =
          (List.range (len - len128K)).map fun i => (len128K + i, addr.toNat + (len128K + i)) := by
        unfold Piece.bytes
        refine List.map_congr_left fun i _ => ?_
        show (len128K + i, (addr + BitVec.ofNat 32 len128K).toNat + i) = _
        rw [second, Nat.add_assoc]
      rw [List.flatMap_cons, List.flatMap_cons, List.flatMap_nil, List.append_nil, first, rest]
      conv_rhs => rw [lengths, List.range_add, List.map_append, List.map_map]
      rfl
    · rcases mem_cons.mp mem with rfl | mem
      · exact staged _ (Nat.le_refl _)
      · obtain rfl := mem_singleton.mp mem
        refine staged _ ?_
        show len - len128K ≤ len128K
        unfold len256K at short
        unfold len128K
        omega
  · case isFalse few =>
    refine ⟨?_, fun p mem => ?_⟩
    · rw [List.flatMap_cons, List.flatMap_nil, List.append_nil]
      unfold Piece.bytes
      refine List.map_congr_left fun i _ => ?_
      rw [Nat.zero_add]
    · obtain rfl := mem_singleton.mp mem
      exact staged _ (Nat.not_lt.mp few)

end

theorem rxBase_near (above : rxbufStartAddr.toNat ≤ addr.toNat) (below : addr.toNat ≤ rxbufEndAddrLarge.toNat) :
    (rxBase addr).toNat ≤ addr.toNat ∧ addr.toNat - (rxBase addr).toNat < 2 ^ 17 ∧ 2 ^ 17 ≤ (rxBase addr).toNat := by
  have start : rxbufStartAddr.toNat = 0x60013b4c := rfl
  have middle : (rxbufStartAddr + BitVec.ofNat 32 len128K).toNat = 0x60033b4c := rfl
  have finish : (rxbufStartAddr + BitVec.ofNat 32 len256K).toNat = 0x60053b4c := rfl
  have last : rxbufEndAddrLarge.toNat = 0x60053b4c := rfl
  unfold rxBase
  split
  · case isTrue high =>
    have high : (rxbufStartAddr + BitVec.ofNat 32 len256K).toNat ≤ addr.toNat := BitVec.le_def.mp high
    omega
  · case isFalse low =>
    have low : addr.toNat < (rxbufStartAddr + BitVec.ofNat 32 len256K).toNat :=
      Nat.not_le.mp fun high => low (BitVec.le_def.mpr high)
    split
    · case isTrue high =>
      have high : (rxbufStartAddr + BitVec.ofNat 32 len128K).toNat ≤ addr.toNat := BitVec.le_def.mp high
      omega
    · case isFalse lower =>
      have lower : addr.toNat < (rxbufStartAddr + BitVec.ofNat 32 len128K).toNat :=
        Nat.not_le.mp fun high => lower (BitVec.le_def.mpr high)
      omega

end Pieces

/-! ### One operation -/

/-- **What an operation of thread `t` leaves.** -/
structure Stepped (s u : SdioHw T) (t : T) (op : Op) (rest : List Op) : Prop where
  todo : u.todo = s.todo
  cached : Cached u
  phase : Phase u t rest
  made : ∀ m ∈ u.made, m ∈ s.made ∨ m.Right
  /-- The lock and what it guards do not change under another thread. -/
  guarded : ∀ v, v ≠ t → s.owner = some v → u.owner = some v ∧ u.base .f2 = s.base .f2 ∧ u.base .f4 = s.base .f4 ∧
    u.txBufferBaseAddr = s.txBufferBaseAddr
  bt : op.func = some .f7 ∨ u.base .f7 = s.base .f7
  rx : op.func = some .f6 ∨ u.base .f6 = s.base .f6 ∧ u.rxBufferBaseAddr = s.rxBufferBaseAddr

section Step

variable {s u : SdioHw T} {t v : T} {op : Op} {rest : List Op}

theorem Phase.frame {ops : List Op} (phase : Phase s v ops)
    (guarded : s.owner = some v → u.owner = some v ∧ u.base .f2 = s.base .f2 ∧ u.base .f4 = s.base .f4 ∧
      u.txBufferBaseAddr = s.txBufferBaseAddr)
    (bt : Uses .f7 ops → u.base .f7 = s.base .f7)
    (rx : Uses .f6 ops → u.base .f6 = s.base .f6 ∧ u.rxBufferBaseAddr = s.rxBufferBaseAddr) : Phase u v ops := by
  cases phase with
  | done => exact .done
  | random tr func addr => exact .random tr func addr
  | randomBase tr func addr own => exact .randomBase tr func addr (guarded own).1
  | tx tr func addr ram => exact .tx tr func addr ram
  | txBase tr func addr ram own => exact .txBase tr func addr ram (guarded own).1
  | locked tr func right own =>
    obtain ⟨own', base2, base4, tx⟩ := guarded own
    refine .locked tr func (right.congr ?_ (fun _ => tx) fun same => ?_) own'
    · rcases func with same | same
      · rw [same, base2]
      · rw [same, base4]
    · rcases func with same' | same' <;> exact nomatch same'.symm.trans same
  | unlock own => exact .unlock (guarded own).1
  | bt tr func addr => exact .bt tr func addr
  | btBase tr func addr => exact .btBase tr func addr
  | btReady tr func right =>
    have base := bt ⟨_, List.mem_singleton_self _, congrArg some func⟩
    refine .btReady tr func (right.congr ?_ (fun same => ?_) fun same => ?_)
    · rw [func, base]
    · exact nomatch func.symm.trans same
    · exact nomatch func.symm.trans same
  | rx p rest ring => exact .rx p rest ring
  | rxReady p rest ring right =>
    obtain ⟨base, cached⟩ := rx ⟨_, List.mem_cons_self, rfl⟩
    exact .rxReady p rest ring (right.congr base nofun fun _ => cached)

theorem alone_owner (own : s.owner = some t) {P : Prop} : v ≠ t → s.owner = some v → P := fun other owner =>
  absurd (some.inj (owner.symm.trans own)) other

theorem Stepped.quiet (cached : Cached s) (phase : Phase u t rest) (todo : u.todo = s.todo) (owner : u.owner = s.owner)
    (base : u.base = s.base) (tx : u.txBufferBaseAddr = s.txBufferBaseAddr)
    (rx : u.rxBufferBaseAddr = s.rxBufferBaseAddr) (made : ∀ m ∈ u.made, m ∈ s.made ∨ m.Right) :
    Stepped s u t op rest where
  todo := todo
  cached := by
    refine ⟨?_, ?_, ?_⟩
    · rw [base, tx]
      exact cached.tx
    · rw [tx]
      exact cached.ram
    · rw [base, rx]
      exact cached.rx
  phase := phase
  made := made
  guarded := fun _ _ own => ⟨owner.trans own, congrFun base _, congrFun base _, tx⟩
  bt := .inr (congrFun base _)
  rx := .inr ⟨congrFun base _, rx⟩

theorem stepped_transfer (cached : Cached s) {tr : Transfer} (right : RightNow s tr) {ok : Bool}
    (phase : ∀ made, Phase { s with made := made } t rest) :
    Stepped s (s.transfer tr ok) t op rest := by
  unfold SdioHw.transfer
  split
  · refine .quiet cached (phase _) rfl rfl rfl rfl rfl fun m mem => ?_
    rcases mem_cons.mp mem with rfl | old
    · exact .inr right
    · exact .inl old
  · exact .quiet cached (phase s.made) rfl rfl rfl rfl rfl fun m mem => .inl mem

theorem Phase.made {ops : List Op} (phase : Phase s t ops) (made : List Made) : Phase { s with made := made } t ops :=
  phase.frame (fun own => ⟨own, rfl, rfl, rfl⟩) (fun _ => rfl) fun _ => ⟨rfl, rfl⟩

theorem writeBase_cached (cached : Cached s) {func : Func} (other : func = .f2 ∨ func = .f7) (value : BitVec 32) :
    Cached { s with base := update s.base func value } := by
  have apart4 : Func.f4 ≠ func := by rcases other with rfl | rfl <;> decide
  have apart6 : Func.f6 ≠ func := by rcases other with rfl | rfl <;> decide
  refine ⟨?_, cached.ram, ?_⟩
  · show update s.base func value .f4 = s.txBufferBaseAddr
    rw [update_of_ne apart4]
    exact cached.tx
  · show update s.base func value .f6 = s.rxBufferBaseAddr
    rw [update_of_ne apart6]
    exact cached.rx

theorem func4_right (cached : Cached s) {tr : Transfer} (func : tr.func = .f4) (addr : tr.addr = tr.requested)
    (ram : InSharedRam tr.requested) :
    let u := s.func4SetBaseAddr tr.requested tr.len true
    Cached u ∧ RightNow u tr ∧ u.owner = s.owner ∧ u.todo = s.todo ∧ u.made = s.made ∧
      u.base .f7 = s.base .f7 ∧ u.base .f6 = s.base .f6 ∧ u.rxBufferBaseAddr = s.rxBufferBaseAddr := by
  dsimp only
  have right : ∀ u : SdioHw T, u.base .f4 = u.txBufferBaseAddr → u.txBufferBaseAddr.toNat ≤ tr.requested.toNat →
      tr.requested.toNat - u.txBufferBaseAddr.toNat < 2 ^ 17 → InSharedRam u.txBufferBaseAddr → RightNow u tr :=
    fun u base below near inRam => by
      have large : 2 ^ 17 ≤ u.txBufferBaseAddr.toNat := Nat.le_trans (by decide) inRam.1
      obtain ⟨sum, small⟩ := right_cached below near large
      have command : u.command tr = tr.requested.toNat % u.txBufferBaseAddr.toNat := by
        unfold command
        rw [func, addr]
      have window : u.window tr.func tr.requested = u.txBufferBaseAddr := by
        unfold window
        rw [func]
      refine ⟨?_, ?_, ?_⟩
      · show u.base tr.func = u.window tr.func tr.requested
        rw [window, func]
        exact base
      · show (u.base tr.func).toNat + u.command tr = tr.requested.toNat
        rw [func, base, command]
        exact sum
      · show u.command tr < 2 ^ 17
        rw [command]
        exact small
  unfold SdioHw.func4SetBaseAddr
  split
  · have base : ∀ f, f ≠ .f4 → update s.base .f4 tr.requested f = s.base f := fun f other =>
      update_of_ne other ..
    have own : update s.base .f4 tr.requested .f4 = tr.requested := by rw [update_self]
    refine ⟨⟨own, ram, (base .f6 (by decide)).trans cached.rx⟩, right _ own (Nat.le_refl _) ?_ ram, rfl, rfl, rfl,
      base .f7 (by decide), base .f6 (by decide), rfl⟩
    show tr.requested.toNat - tr.requested.toNat < 2 ^ 17
    rw [Nat.sub_self]
    decide
  · case isFalse fits =>
    obtain ⟨low, above, -⟩ := not_or.mp fits |>.imp id not_or.mp
    have below : s.txBufferBaseAddr.toNat ≤ tr.requested.toNat :=
      Nat.not_lt.mp fun less => above (BitVec.lt_def.mpr less)
    have offset : tr.requested.toNat % s.txBufferBaseAddr.toNat = tr.requested.toNat - s.txBufferBaseAddr.toNat := by
      rw [Nat.mod_eq_sub_mod below]
      refine Nat.mod_eq_of_lt ?_
      have floor := cached.ram.1
      have ceiling := ram.2
      omega
    refine ⟨cached, right s cached.tx below ?_ cached.ram, rfl, rfl, rfl, rfl, rfl, rfl⟩
    have near := Nat.not_le.mp low
    rw [offset] at near
    exact near

theorem func6_right (cached : Cached s) {p : Piece} (ring : InRxRing p.addr p.len) :
    let u := s.func6SetBaseAddr p.addr true
    Cached u ∧ RightNow u ⟨.f6, false, p.addr, p.addr, p.len, p.dst⟩ ∧ u.owner = s.owner ∧ u.todo = s.todo ∧
      u.made = s.made ∧ (∀ f, f ≠ .f6 → u.base f = s.base f) ∧ u.txBufferBaseAddr = s.txBufferBaseAddr := by
  dsimp only
  obtain ⟨below, near, large⟩ := rxBase_near ring.1 (Nat.le_trans (Nat.le_add_right _ _) ring.2)
  obtain ⟨sum, small⟩ := right_cached below near large
  have right : ∀ u : SdioHw T, u.base .f6 = rxBase p.addr → u.rxBufferBaseAddr = rxBase p.addr →
      RightNow u ⟨.f6, false, p.addr, p.addr, p.len, p.dst⟩ := fun u base cached => by
    refine ⟨base.trans cached.symm, ?_, ?_⟩
    · show (u.base .f6).toNat + p.addr.toNat % u.rxBufferBaseAddr.toNat = p.addr.toNat
      rw [base, cached]
      exact sum
    · show p.addr.toNat % u.rxBufferBaseAddr.toNat < 2 ^ 17
      rw [cached]
      exact small
  unfold SdioHw.func6SetBaseAddr
  split
  · have base : ∀ f, f ≠ .f6 → update s.base .f6 (rxBase p.addr) f = s.base f := fun f other =>
      update_of_ne other ..
    have own : update s.base .f6 (rxBase p.addr) .f6 = rxBase p.addr := by
      rw [update_self]
    exact ⟨⟨(base .f4 (by decide)).trans cached.tx, cached.ram, own⟩, right _ own rfl, rfl, rfl, rfl, base, rfl⟩
  · case isFalse same =>
    have same := not_not.mp same
    exact ⟨cached, right s (cached.rx.trans same) same, rfl, rfl, rfl, fun _ _ => rfl, rfl⟩

theorem phase_pieces {ps : List Piece} (ring : ∀ q ∈ ps, InRxRing q.addr q.len) :
    Phase s t (ps.flatMap amlSdioFunc6RxBufferRead) := by
  cases ps with
  | nil => exact .done
  | cons p rest => exact .rx p rest ring

theorem exec_stepped (cached : Cached s) (phase : Phase s t (op :: rest)) {ok : Bool}
    (arrives : op.programs = true → ok = true) (done : s.exec t ok op = some u) : Stepped s u t op rest := by
  cases phase with
  | random tr func addr =>
    obtain ⟨free, here⟩ := Option.ite_none_right_eq_some.mp done
    obtain rfl := some.inj here
    exact ⟨rfl, ⟨cached.tx, cached.ram, cached.rx⟩, .randomBase tr func addr rfl, fun m mem => .inl mem,
      fun v _ own => (nomatch free.symm.trans own), .inr rfl, .inr ⟨rfl, rfl⟩⟩
  | tx tr func addr ram =>
    obtain ⟨free, here⟩ := Option.ite_none_right_eq_some.mp done
    obtain rfl := some.inj here
    exact ⟨rfl, ⟨cached.tx, cached.ram, cached.rx⟩, .txBase tr func addr ram rfl, fun m mem => .inl mem,
      fun v _ own => (nomatch free.symm.trans own), .inr rfl, .inr ⟨rfl, rfl⟩⟩
  | randomBase tr func addr own =>
    obtain rfl := arrives rfl
    obtain rfl := some.inj done
    have base : ∀ f, f ≠ .f2 → update s.base .f2 (tr.requested &&& windowMask) f = s.base f := fun f other =>
      update_of_ne other ..
    refine ⟨rfl, writeBase_cached cached (.inl rfl) _, .locked tr (.inl func) (rightNow_masked (.inl func) ?_ ?_) own,
      fun m mem => .inl mem, fun v => alone_owner own, .inr (base .f7 (by decide)), .inr ⟨base .f6 (by decide), rfl⟩⟩
    · rw [addr]
    · show update s.base .f2 _ tr.func = _
      rw [func, update_self]
  | txBase tr func addr ram own =>
    obtain rfl := arrives rfl
    obtain rfl := some.inj done
    obtain ⟨cached', right, owner, todo, made, base7, base6, rx⟩ := func4_right cached func addr ram
    exact ⟨todo, cached', .locked tr (.inr func) right (owner.trans own), fun m mem => .inl (made ▸ mem),
      fun v => alone_owner own, .inr base7, .inr ⟨base6, rx⟩⟩
  | locked tr func right own =>
    obtain rfl := some.inj done
    exact stepped_transfer cached right (Phase.unlock own).made
  | unlock own =>
    obtain rfl := some.inj done
    exact ⟨rfl, ⟨cached.tx, cached.ram, cached.rx⟩, .done, fun m mem => .inl mem, fun v => alone_owner own, .inr rfl,
      .inr ⟨rfl, rfl⟩⟩
  | bt tr func addr =>
    obtain rfl := some.inj done
    split
    · exact .quiet cached (.btBase tr func addr) rfl rfl rfl rfl rfl fun m mem => .inl mem
    · exact .quiet cached (.btBase tr func addr) rfl rfl rfl rfl rfl fun m mem => .inl mem
  | btBase tr func addr =>
    obtain rfl := arrives rfl
    obtain rfl := some.inj done
    have base : ∀ f, f ≠ .f7 → update s.base .f7 (tr.requested &&& windowMask) f = s.base f := fun f other =>
      update_of_ne other ..
    refine ⟨rfl, writeBase_cached cached (.inr rfl) _, .btReady tr func (rightNow_masked (.inr func) ?_ ?_),
      fun m mem => .inl mem, fun v _ own => ⟨own, base .f2 (by decide), base .f4 (by decide), rfl⟩, .inl rfl,
      .inr ⟨base .f6 (by decide), rfl⟩⟩
    · rw [addr]
      exact mask_idem tr.requested
    · show update s.base .f7 _ tr.func = _
      rw [func, update_self]
  | btReady tr func right =>
    obtain rfl := some.inj done
    exact stepped_transfer cached right Phase.done.made
  | rxReady p rest ring right =>
    obtain rfl := some.inj done
    exact stepped_transfer cached right (phase_pieces ring).made
  | rx p rest ring =>
    obtain rfl := arrives rfl
    obtain rfl := some.inj done
    obtain ⟨cached', right, owner, todo, made, base, tx⟩ := func6_right cached (ring p List.mem_cons_self)
    refine ⟨todo, cached', .rxReady p rest (fun q mem => ring q (List.mem_cons_of_mem _ mem)) right,
      fun m mem => .inl (made ▸ mem), fun v _ own => ?_, .inr (base .f7 (by decide)), .inl rfl⟩
    exact ⟨owner.trans own, base .f2 (by decide), base .f4 (by decide), tx⟩

end Step

/-! ### The functions of an access -/

section Functions

variable {func : Func} {write : Bool} {addr requested : BitVec 32} {len : ℕ}

theorem uses_random (used : Uses func (random write addr len)) : func = .f2 := by
  obtain ⟨op, mem, same⟩ := used
  simp only [random, mem_cons, not_mem_nil, or_false] at mem
  rcases mem with rfl | rfl | rfl | rfl
  · exact nomatch same
  · exact (some.inj same).symm
  · exact (some.inj same).symm
  · exact nomatch same

theorem uses_txBuffer (used : Uses func (txBuffer write addr len)) : func = .f4 := by
  obtain ⟨op, mem, same⟩ := used
  simp only [txBuffer, mem_cons, not_mem_nil, or_false] at mem
  rcases mem with rfl | rfl | rfl | rfl
  · exact nomatch same
  · exact (some.inj same).symm
  · exact (some.inj same).symm
  · exact nomatch same

theorem uses_btSdioSram (used : Uses func (btSdioSram write addr requested len)) : func = .f7 := by
  obtain ⟨op, mem, same⟩ := used
  obtain rfl := mem_singleton.mp mem
  exact (some.inj same).symm

theorem uses_btHiWord (used : Uses func (btHiWord write addr)) : func = .f7 := by
  obtain ⟨op, mem, same⟩ := used
  rcases List.mem_append.mp mem with first | last
  · simp only [mem_cons, not_mem_nil, or_false] at first
    rcases first with rfl | rfl
    · exact nomatch same
    · exact (some.inj same).symm
  · exact uses_btSdioSram ⟨op, last, same⟩

theorem uses_rxBuffer (used : Uses func (amlSdioRxBufferRead addr len)) : func = .f6 := by
  obtain ⟨op, mem, same⟩ := used
  obtain ⟨p, -, mem⟩ := List.mem_flatMap.mp mem
  simp only [amlSdioFunc6RxBufferRead, mem_cons, not_mem_nil, or_false] at mem
  rcases mem with rfl | rfl
  · exact (some.inj same).symm
  · exact (some.inj same).symm

end Functions

/-! ### Runs -/

namespace SdioInv

variable {s : SdioHw T}

theorem init (base2 base7 miscCtrl : BitVec 32) : SdioInv (sdioSystem (T := T) base2 base7 miscCtrl).init where
  cached := ⟨rfl, (show InSharedRam txbufStartAddr from ⟨by decide, by decide⟩), rfl⟩
  phase := fun _ => .done
  alone := fun _ _ _ _ ⟨_, mem, _⟩ => absurd mem not_mem_nil
  made := fun _ mem => absurd mem not_mem_nil

theorem start_phase {t : T} {a : Access} (apart : Apart s (.start t a)) : Phase s t a.ops := by
  cases a with
  | randomWord write addr => cases write <;> exact .random ⟨.f2, _, addr, addr, 4, 0⟩ rfl rfl
  | randomRam write addr len => cases write <;> exact .random ⟨.f2, _, addr, addr, len, 0⟩ rfl rfl
  | txBuffer write addr len => cases write <;> exact .tx ⟨.f4, _, addr, addr, len, 0⟩ rfl rfl apart
  | btHiWord write addr => cases write <;> exact .bt ⟨.f7, _, addr &&& sdioAddrMask, addr, 4, 0⟩ rfl rfl
  | btSram write addr len =>
    cases write <;> exact .btReady ⟨.f7, _, addr, addr, len, 0⟩ rfl (rightNow_masked (.inr rfl) rfl apart.2)
  | rxBuffer addr len => exact phase_pieces (rxPieces_ring apart.1)

theorem start_alone {t : T} {a : Access} (apart : Apart s (.start t a)) {func : Func} (shared : func = .f6 ∨ func = .f7)
    (used : Uses func a.ops) (u : T) : ¬ Uses func (s.todo u) := by
  have not2 : func ≠ .f2 := by rcases shared with rfl | rfl <;> decide
  have not4 : func ≠ .f4 := by rcases shared with rfl | rfl <;> decide
  cases a with
  | randomWord write addr => cases write <;> exact absurd (uses_random used) not2
  | randomRam write addr len => cases write <;> exact absurd (uses_random used) not2
  | txBuffer write addr len => cases write <;> exact absurd (uses_txBuffer used) not4
  | btHiWord write addr =>
    obtain rfl : func = .f7 := by cases write <;> exact uses_btHiWord used
    exact apart u
  | btSram write addr len =>
    obtain rfl : func = .f7 := by cases write <;> exact uses_btSdioSram used
    exact apart.1 u
  | rxBuffer addr len =>
    obtain rfl := uses_rxBuffer used
    exact apart.2 u

section

variable (inv : SdioInv s)

include inv

theorem alone_update {t : T} {ops : List Op} {func : Func} (shared : func = .f6 ∨ func = .f7)
    (here : ∀ v, v ≠ t → Uses func ops → ¬ Uses func (s.todo v)) {v w : T}
    (first : Uses func (update s.todo t ops v)) (second : Uses func (update s.todo t ops w)) :
    v = w := by
  by_cases ofV : v = t
  · by_cases ofW : w = t
    · exact ofV.trans ofW.symm
    · subst ofV
      rw [update_self] at first
      rw [update_of_ne ofW] at second
      exact absurd second (here w ofW first)
  · rw [update_of_ne ofV] at first
    by_cases ofW : w = t
    · subst ofW
      rw [update_self] at second
      exact absurd first (here v ofV second)
    · rw [update_of_ne ofW] at second
      exact inv.alone func shared v w first second

theorem start {t : T} {a : Access} (apart : Apart s (.start t a)) :
    SdioInv { s with todo := update s.todo t a.ops } where
  cached := ⟨inv.cached.tx, inv.cached.ram, inv.cached.rx⟩
  phase := fun v => by
    have keep : ∀ ops, Phase s v ops → Phase { s with todo := update s.todo t a.ops } v ops := fun _ phase =>
      phase.frame (fun own => ⟨own, rfl, rfl, rfl⟩) (fun _ => rfl) fun _ => ⟨rfl, rfl⟩
    refine keep _ ?_
    show Phase s v (update s.todo t a.ops v)
    by_cases here : v = t
    · subst here
      rw [update_self]
      exact start_phase apart
    · rw [update_of_ne here]
      exact inv.phase v
  alone := fun _ shared _ _ first second =>
    inv.alone_update shared (fun v _ used => start_alone apart shared used v) first second
  made := inv.made

theorem goOn {t : T} {ok : Bool} {op : Op} {rest : List Op} (todo : s.todo t = op :: rest)
    (arrives : op.programs = true → ok = true) {u : SdioHw T} (done : s.exec t ok op = some u) :
    SdioInv { u with todo := update u.todo t rest } := by
  have own := inv.phase t
  rw [todo] at own
  have stepped := exec_stepped inv.cached own arrives done
  have usesOp : ∀ func, op.func = some func → Uses func (s.todo t) := fun func same => by
    rw [todo]
    exact ⟨op, List.mem_cons_self, same⟩
  have usesRest : ∀ func, Uses func rest → Uses func (s.todo t) := fun func ⟨o, mem, same⟩ => by
    rw [todo]
    exact ⟨o, List.mem_cons_of_mem _ mem, same⟩
  refine ⟨⟨stepped.cached.tx, stepped.cached.ram, stepped.cached.rx⟩, fun v => ?_,
    fun func shared v w first second => ?_,
    fun m mem => ?_⟩
  · have keep : ∀ ops, Phase u v ops → Phase { u with todo := update u.todo t rest } v ops := fun _ phase =>
      phase.frame (fun own => ⟨own, rfl, rfl, rfl⟩) (fun _ => rfl) fun _ => ⟨rfl, rfl⟩
    refine keep _ ?_
    show Phase u v (update u.todo t rest v)
    by_cases here : v = t
    · subst here
      rw [update_self]
      exact stepped.phase
    · rw [update_of_ne here, stepped.todo]
      refine (inv.phase v).frame (stepped.guarded v here) (fun used => ?_) fun used => ?_
      · refine stepped.bt.resolve_left fun same => here ?_
        exact inv.alone .f7 (.inr rfl) v t used (usesOp _ same)
      · refine stepped.rx.resolve_left fun same => here ?_
        exact inv.alone .f6 (.inl rfl) v t used (usesOp _ same)
  · have first : Uses func (update u.todo t rest v) := first
    have second : Uses func (update u.todo t rest w) := second
    rw [stepped.todo] at first second
    refine inv.alone_update shared (fun x other used clash => other ?_) first second
    exact inv.alone func shared x t clash (usesRest func used)
  · rcases stepped.made m mem with old | right
    · exact inv.made m old
    · exact right

theorem act {a : SdioAct T} (apart : Apart s a) {u : SdioHw T} (stepped : s.act a = some u) : SdioInv u := by
  cases a with
  | start t a =>
    unfold SdioHw.act at stepped
    dsimp only at stepped
    split at stepped
    · obtain rfl := some.inj stepped
      exact inv.start apart
    · cases stepped
  | goOn t ok =>
    unfold SdioHw.act at stepped
    dsimp only at stepped
    split at stepped
    · cases stepped
    · case h_2 op rest todo =>
      obtain ⟨u, done, rfl⟩ := Option.map_eq_some_iff.mp stepped
      refine inv.goOn todo (fun programs => apart op ?_ programs) done
      rw [todo]
      exact Option.mem_some_self op

end

end SdioInv

/-- **Each transfer is made in its own window**, in every run of accesses that find their function free, and
the pieces of a read cover the range, where the bus pads a length to blocks of 512 bytes. -/
theorem sdio_windows (base2 base7 miscCtrl : BitVec 32) {s : SdioHw T}
    (reach : (sdioSystem base2 base7 miscCtrl).Reachable Apart s) {alignSize : ℕ → ℕ}
    (padded : ∀ n, alignSize n < n + 512) :
    WindowsRight s ∧ ∀ addr len, InRxRing addr len → Covers alignSize addr len (rxPieces addr len) := by
  have inv : SdioInv s := reach.invariant (I := SdioInv) (SdioInv.init base2 base7 miscCtrl)
    fun _ _ _ _ inv apart stepped => inv.act apart stepped
  exact ⟨inv.made, fun _ _ ring => rxPieces_cover ring padded⟩

/-- One word is read in its window, on a bus that pads to 512 bytes. -/
theorem sdio_windows_word : ∃ s : SdioHw Bool, s.made.length = 1 ∧ WindowsRight s ∧ ∀ addr len, InRxRing addr len →
      Covers (fun n => (n + 511) / 512 * 512) addr len (rxPieces addr len) := by
  have begun := System.Reachable.step (S := sdioSystem (T := Bool) 0 0 0) .init
    (show Apart _ (.start true (.btHiWord false 0x00f01000)) from fun _ ⟨_, mem, _⟩ => absurd mem not_mem_nil) rfl
  have mapped := begun.step (show Apart _ (.goOn true true) from fun _ _ _ => rfl) rfl
  have based := mapped.step (show Apart _ (.goOn true true) from fun _ _ _ => rfl) rfl
  have moved := based.step (show Apart _ (.goOn true true) from fun _ _ _ => rfl) rfl
  exact ⟨_, rfl, sdio_windows 0 0 0 moved fun n => by omega⟩

/-- **Two words of function 7 at one time**: the first is read in the window of the second. -/
theorem bt_words_race : ¬ ∀ s : SdioHw Bool, (sdioSystem 0 0 0).Reachable (fun _ _ => True) s → WindowsRight s := by
  intro all
  have reach := System.reachable_of_run (sdioSystem (T := Bool) 0 0 0) (fun _ _ => True)
    [.start true (.btHiWord false 0x00f01000), .start false (.btHiWord false 0x00d00000), .goOn true true,
      .goOn true true, .goOn false true, .goOn false true, .goOn true true] rfl
  have right := (all _ reach _ List.mem_cons_self).address
  exact absurd right (by decide)

end W2l.Sdio
