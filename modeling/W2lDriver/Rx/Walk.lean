/-
**The walk through one chunk: the inner loop of `aml_rx_task` (SDIO and USB).**

Every descriptor of a chunk holds the firmware's address of the next one. The loop checks that the
address lies in the ring, handles the frame, and translates the address into a position of the
chunk: the bytes before the wrap are its first part, those from `RXBUF_START_ADDR` on its second.

* `walkBody` — one iteration, on the bytes of the chunk.
* `WalkSafe` — what the loop should do on a chunk: end, read inside, advance.
* `Chained` — chunks whose descriptors lead from one to a later one until the chunk ends or an address
  is out of the ring.
-/

import W2lDriver.Rx.Ring
import W2lDriver.Rx.Reorder

namespace W2l.Rx

open BitVec (le_def lt_def toNat_sub_of_le)

/-! ### Bytes -/

def readU32 (mem : Nat → BitVec 8) (off : Nat) : BitVec 32 :=
  mem (off + 3) ++ mem (off + 2) ++ mem (off + 1) ++ mem off

def readU16 (mem : Nat → BitVec 8) (off : Nat) : BitVec 16 := mem (off + 1) ++ mem off

def writeU32 (mem : Nat → BitVec 8) (off : Nat) (v : BitVec 32) : Nat → BitVec 8 := fun k =>
  if off ≤ k ∧ k < off + 4 then v.extractLsb' (8 * (k - off)) 8 else mem k

def writeU16 (mem : Nat → BitVec 8) (off : Nat) (v : BitVec 16) : Nat → BitVec 8 := fun k =>
  if off ≤ k ∧ k < off + 2 then v.extractLsb' (8 * (k - off)) 8 else mem k

theorem readU32_congr {mem mem' : Nat → BitVec 8} {off : Nat}
    (same : ∀ k, off ≤ k → mem' k = mem k) : readU32 mem' off = readU32 mem off := by
  unfold readU32
  rw [same off le_rfl, same (off + 1) (by omega), same (off + 2) (by omega), same (off + 3) (by omega)]

/-! ### One iteration -/

/-- `NEXT_PKT_OFFSET`, `RX_STATUS_OFFSET`, `RX_FRMLEN_OFFSET`, `RX_HOSTID_OFFSET` and
`RX_REORDER_LEN_OFFSET` of the small descriptor. -/
def nextPktOffset : Nat := 28
def rxStatusOffset : Nat := 52
def rxFrmlenOffset : Nat := 0
def rxHostidOffset : Nat := 8
def rxReorderLenOffset : Nat := 10

/-- The locals of the loop, as offsets into the chunk's buffer, and what it changes. -/
structure WalkState where
  /-- `host_buf_start - rxbuf`. -/
  off : Nat
  lastFwPos : BitVec 32
  mem : Nat → BitVec 8
  rx : RxState

/-- What an iteration finds outside. -/
structure WalkEnv where
  amlRxTaskQuit : Bool := false
  rxEnv : RxEnv := {}
  releaseEnv : Node → RxEnv := fun _ => {}

/-- `first_len + second_len`. -/
def RxbufList.len (c : RxbufList) : Nat := c.firstLen.toNat + c.secondLen.toNat

/-- The header `rx_skb_handle` works on: a descriptor that lies across the two parts counts as one at
the start of the second. -/
def headerOff (c : RxbufList) (off : Nat) : Nat :=
  if off < c.firstLen.toNat ∧ c.firstLen.toNat < off + rxDescSize.toNat then c.firstLen.toNat
  else off

def descAt (mem : Nat → BitVec 8) (off : Nat) : RxDescHead :=
  let statusFramlen := readU32 mem (off + rxStatusOffset)
  { hostid := statusFramlen >>> 16
    frameLen := (readU32 mem (off + rxFrmlenOffset) <<< 8) ||| (statusFramlen &&& 0xff)
    status := (statusFramlen &&& 0xff00) >>> 8
    packageInfo := (readU16 mem (off + rxReorderLenOffset)).setWidth 32 }

/-- `rx_skb_handle` comes to `hw_rxhdr->hwvect.len = desc_stat->frame_len` in the chunk's buffer. -/
def writesLen (env : RxEnv) (desc : RxDescHead) : Bool :=
  env.devAllocSkb && !(desc.status == rxStatAlloc && desc.packageInfo != 0) &&
    (has desc.status rxStatLenUpdate ||
      (!has desc.status rxStatSpurious && has desc.status rxStatForward))

def handleFrame (env : WalkEnv) (c : RxbufList) (s : WalkState) : (Nat → BitVec 8) × RxState :=
  let desc := descAt s.mem s.off
  let start := readU32 s.mem (s.off + rxHostidOffset) &&& 0xffff
  let handled := rxSkbHandle env.rxEnv s.rx desc none
  let released := amlSdioUsbHostReoderHandle env.releaseEnv handled.1 handled.2.1 start (desc.packageInfo &&& 0xff)
  (if writesLen env.rxEnv desc
    then writeU16 s.mem (headerOff c s.off) ((desc.frameLen >>> 8).setWidth 16) else s.mem,
    released.1)

/-- `*next_fw_pkt > rx_buf_end || *next_fw_pkt < RXBUF_START_ADDR`. -/
def outOfRing (c : RxbufList) (next : BitVec 32) : Bool :=
  decide (c.rxBufEnd < next) || decide (next < rxbufStartAddr)

/-- From `next_handle` to the end of the body. -/
def nextHandle (c : RxbufList) (s : WalkState) : WalkState :=
  let read := readU32 s.mem (s.off + nextPktOffset)
  let short := decide (c.rxBufEnd - read < rxDescSize)
  let next := if short then rxbufStartAddr else read
  { s with
    mem := if short then writeU32 s.mem (s.off + nextPktOffset) rxbufStartAddr else s.mem
    off := if s.lastFwPos < next then s.off + (next - s.lastFwPos).toNat
      else c.firstLen.toNat + (next - rxbufStartAddr).toNat
    lastFwPos := next }

/-- The body of the loop; `none` is `break`. -/
def walkBody (env : WalkEnv) (c : RxbufList) (s : WalkState) : Option WalkState :=
  if outOfRing c (readU32 s.mem (s.off + nextPktOffset)) then none
  else
    let desc := descAt s.mem s.off
    -- an empty descriptor is passed by
    if readU32 s.mem (s.off + rxStatusOffset) = 0 ∧ desc.packageInfo &&& 0xff = 0 then
      some (nextHandle c s)
    else
      let handled := handleFrame env c s
      some (nextHandle c { s with mem := handled.1, rx := handled.2 })

def walkTurn (env : WalkEnv) (c : RxbufList) (s : WalkState) : Option WalkState :=
  if !env.amlRxTaskQuit && decide (s.off < c.len) then walkBody env c s else none

/-- The state before the `n`-th iteration, if the loop comes that far. -/
def walkStates (c : RxbufList) : (Nat → WalkEnv) → WalkState → Nat → Option WalkState
  | _, s, 0 => some s
  | envs, s, n + 1 =>
    (walkTurn (envs 0) c s).bind fun s' => walkStates c (fun k => envs (k + 1)) s' n

def walkStart (c : RxbufList) (rx : RxState) : WalkState :=
  { off := 0, lastFwPos := c.rxbufDataStart, mem := c.rxbuf, rx := rx }

def fieldReads (c : RxbufList) (s : WalkState) : List (Nat × Nat) :=
  (s.off + nextPktOffset, 4) :: if outOfRing c (readU32 s.mem (s.off + nextPktOffset)) then []
    else [(s.off + rxStatusOffset, 4), (s.off + rxFrmlenOffset, 4), (s.off + rxReorderLenOffset, 2),
      (s.off + rxHostidOffset, 4)]

/-- **A walk that ends, reads inside the chunk and advances.** -/
structure WalkOk (c : RxbufList) (envs : Nat → WalkEnv) (s : WalkState) : Prop where
  ends : ∃ n, walkStates c envs s n = none
  inside : ∀ n s', walkStates c envs s n = some s' → (envs n).amlRxTaskQuit = false →
    s'.off < c.len → ∀ r ∈ fieldReads c s', r.1 + r.2 ≤ c.len
  advances : ∀ n s' s'', walkStates c envs s n = some s' → walkStates c envs s (n + 1) = some s'' → s'.off < s''.off

def WalkSafe (c : RxbufList) : Prop := ∀ envs rx, WalkOk c envs (walkStart c rx)

/-- A chunk of `aml_sdio_rxdataind`, whatever the bounds of its node and its bytes. -/
def Filled (c : RxbufList) : Prop :=
  ∃ sram old new node mem, rxbufStartAddr ≤ old ∧ rxbufStartAddr ≤ new ∧
    c = { fill sram old new node with rxbuf := mem }

/-! ### Chained chunks -/

def nextAt (c : RxbufList) (off : Nat) : BitVec 32 := readU32 c.rxbuf (off + nextPktOffset)

def fwPosAt (c : RxbufList) (off : Nat) : Nat :=
  if off < c.firstLen.toNat then c.rxbufDataStart.toNat + off
  else rxbufStartAddr.toNat + (off - c.firstLen.toNat)

/-- The address the loop goes to: not into a tail without room for a descriptor. -/
def adjustedNext (c : RxbufList) (off : Nat) : BitVec 32 :=
  if c.rxBufEnd - nextAt c off < rxDescSize then rxbufStartAddr else nextAt c off

/-- The offset the loop goes to. -/
def target (c : RxbufList) (off : Nat) : Nat :=
  if fwPosAt c off < (adjustedNext c off).toNat then
    off + ((adjustedNext c off).toNat - fwPosAt c off)
  else c.firstLen.toNat + ((adjustedNext c off).toNat - rxbufStartAddr.toNat)

/-- **Descriptors that lie in the chunk and lead to later ones.** -/
inductive Chained (c : RxbufList) : Nat → Prop
  | past (off : Nat) : c.len ≤ off → Chained c off
  | outOfRing (off : Nat) : off < c.len → off + nextPktOffset + 4 ≤ c.len →
      outOfRing c (nextAt c off) = true → Chained c off
  | next (off : Nat) : off < c.len → off + rxStatusOffset + 4 ≤ c.len →
      Rx.outOfRing c (nextAt c off) = false → off < target c off → Chained c (target c off) →
      Chained c off

/-! ### The walk follows the chain -/

/-- The chunks `fill` makes: everything before the wrap; a skipped tail; or two parts, the first up to
the end of the ring as the node has it. -/
inductive ChunkShape (c : RxbufList) : Prop
  | ahead : c.secondLen = 0 → rxbufStartAddr ≤ c.rxbufDataStart → ChunkShape c
  | short : c.firstLen = 0 → (c.secondLen ≠ 0 → c.rxbufDataStart = rxbufStartAddr) → ChunkShape c
  | wrapped : rxbufStartAddr ≤ c.rxbufDataStart → c.firstLen = c.rxBufEnd - c.rxbufDataStart →
      rxDescSize ≤ c.firstLen → ChunkShape c

theorem Filled.shape {c : RxbufList} (filled : Filled c) : ChunkShape c := by
  obtain ⟨sram, old, new, node, mem, oldLow, newLow, rfl⟩ := filled
  unfold fill
  by_cases ahead : old < new
  · rw [if_pos ahead]
    exact .ahead rfl oldLow
  · rw [if_neg ahead]
    by_cases short : node.rxBufEnd - old < rxDescSize
    · rw [if_pos short]
      refine .short rfl fun some => ?_
      have past : rxbufStartAddr < new := by
        rw [lt_def]
        rw [le_def] at newLow
        refine Nat.lt_of_le_of_ne newLow fun same => some ?_
        show new - rxbufStartAddr = 0
        rw [BitVec.eq_of_toNat_eq same, BitVec.sub_self]
        rfl
      exact if_pos past
    · rw [if_neg short]
      exact .wrapped oldLow rfl (BitVec.not_lt.mp short)

/-- What holds before an iteration that takes place. -/
structure WalkInv (c : RxbufList) (s : WalkState) : Prop where
  last : s.lastFwPos.toNat = fwPosAt c s.off
  /-- The bytes from the next pointer on are those of the firmware. -/
  mem : ∀ k, s.off + nextPktOffset ≤ k → s.mem k = c.rxbuf k
  /-- A descriptor of the first part of two lies in it as a whole. -/
  room : s.off < c.firstLen.toNat → c.secondLen = 0 ∨ s.off + rxDescSize.toNat ≤ c.firstLen.toNat

theorem walkInv_start {c : RxbufList} (shape : ChunkShape c) (rx : RxState) (some : 0 < c.len) :
    WalkInv c (walkStart c rx) := by
  constructor
  case last =>
    show c.rxbufDataStart.toNat = fwPosAt c 0
    unfold fwPosAt
    by_cases first : 0 < c.firstLen.toNat
    · rw [if_pos first, Nat.add_zero]
    · rw [if_neg first, Nat.zero_sub, Nat.add_zero]
      have empty : c.firstLen.toNat = 0 := Nat.eq_zero_of_not_pos first
      cases shape with
      | ahead second => simp [RxbufList.len, empty, second] at some
      | short _ start =>
        rw [start]
        rintro second
        simp [RxbufList.len, empty, second] at some
      | wrapped _ _ room =>
        rw [le_def, empty] at room
        exact absurd room (by decide)
  case mem => exact fun _ _ => rfl
  case room =>
    intro first
    cases shape with
    | ahead second => exact .inl second
    | short empty =>
      rw [empty] at first
      exact absurd first (Nat.lt_irrefl 0)
    | wrapped _ _ room =>
      right
      rw [le_def] at room
      exact (Nat.zero_add _).trans_le room

namespace WalkInv

variable {c : RxbufList} {s : WalkState}

section

variable (inv : WalkInv c s)

include inv

theorem nextAt : readU32 s.mem (s.off + nextPktOffset) = Rx.nextAt c s.off :=
  readU32_congr inv.mem

theorem handleFrame (inside : s.off + rxDescSize.toNat ≤ c.len)
    (env : WalkEnv) :
    WalkInv c { s with mem := (Rx.handleFrame env c s).1, rx := (Rx.handleFrame env c s).2 } := by
  refine ⟨inv.last, fun k later => ?_, inv.room⟩
  have header : headerOff c s.off = s.off := by
    refine if_neg fun ⟨first, across⟩ => ?_
    rcases inv.room first with second | room
    · rw [RxbufList.len, second] at inside
      exact absurd across (Nat.not_lt.mpr inside)
    · exact absurd across (Nat.not_lt.mpr room)
  have written : (Rx.handleFrame env c s).1 =
      if writesLen env.rxEnv (descAt s.mem s.off) then
        writeU16 s.mem (headerOff c s.off) (((descAt s.mem s.off).frameLen >>> 8).setWidth 16)
      else s.mem := rfl
  show (Rx.handleFrame env c s).1 k = c.rxbuf k
  rw [written]
  split
  · rw [header, writeU16, if_neg]
    · exact inv.mem k later
    · rintro ⟨-, below⟩
      change s.off + nextPktOffset ≤ k at later
      unfold nextPktOffset at later
      omega
  · exact inv.mem k later

/-- **The next descriptor**: the offset the chain names; if it is a later one, the invariant holds
there. -/
theorem nextHandle (shape : ChunkShape c)
    (valid : outOfRing c (Rx.nextAt c s.off) = false) :
    (Rx.nextHandle c s).off = target c s.off ∧ (s.off < (Rx.nextHandle c s).off → (Rx.nextHandle c s).off < c.len →
        WalkInv c (Rx.nextHandle c s)) := by
  obtain ⟨below, above⟩ : Rx.nextAt c s.off ≤ c.rxBufEnd ∧ rxbufStartAddr ≤ Rx.nextAt c s.off := by
    simpa [outOfRing] using valid
  have low : rxbufStartAddr.toNat ≤ (adjustedNext c s.off).toNat := by
    unfold adjustedNext
    split
    · exact le_rfl
    · exact le_def.mp above
  have lastFwPos : (Rx.nextHandle c s).lastFwPos = adjustedNext c s.off := by
    simp only [Rx.nextHandle, inv.nextAt, decide_eq_true_eq]
    rfl
  have off : (Rx.nextHandle c s).off =
      if s.lastFwPos < adjustedNext c s.off then
        s.off + (adjustedNext c s.off - s.lastFwPos).toNat
      else c.firstLen.toNat + (adjustedNext c s.off - rxbufStartAddr).toNat := by
    simp only [Rx.nextHandle, inv.nextAt, decide_eq_true_eq]
    rfl
  have goes : (Rx.nextHandle c s).off = target c s.off := by
    rw [off, target, ← inv.last]
    by_cases later : s.lastFwPos < adjustedNext c s.off
    · rw [if_pos later, if_pos (lt_def.mp later), toNat_sub_of_le (BitVec.le_of_lt later)]
    · rw [if_neg later, if_neg fun less => later (lt_def.mpr less), toNat_sub_of_le (le_def.mpr low)]
  refine ⟨goes, fun advance inside => ?_⟩
  have lastLow : rxbufStartAddr.toNat ≤ fwPosAt c s.off := by
    unfold fwPosAt
    split
    case isTrue first =>
      cases shape with
      | ahead _ start => exact Nat.le_add_right_of_le (le_def.mp start)
      | short empty => simp [empty] at first
      | wrapped start => exact Nat.le_add_right_of_le (le_def.mp start)
    case isFalse => exact Nat.le_add_right _ _
  rw [goes] at advance inside
  -- a step within the first of two parts leaves room for a descriptor there
  have stays : fwPosAt c s.off < (adjustedNext c s.off).toNat → s.off < c.firstLen.toNat →
      c.secondLen = 0 ∨ target c s.off + rxDescSize.toNat ≤ c.firstLen.toNat := by
    intro later first
    cases shape with
    | ahead second => exact .inl second
    | short empty => simp [empty] at first
    | wrapped _ length =>
      right
      have plain : ¬ c.rxBufEnd - Rx.nextAt c s.off < rxDescSize := by
        intro short
        rw [adjustedNext, if_pos short] at later
        exact absurd lastLow (Nat.not_le.mpr later)
      have same : adjustedNext c s.off = Rx.nextAt c s.off := if_neg plain
      have pos : fwPosAt c s.off = c.rxbufDataStart.toNat + s.off := if_pos first
      have tail : (c.rxBufEnd - Rx.nextAt c s.off).toNat =
          c.rxBufEnd.toNat - (Rx.nextAt c s.off).toNat := toNat_sub_of_le below
      rw [lt_def, tail] at plain
      rw [le_def] at below
      rw [same, pos] at later
      have whole : c.firstLen.toNat = c.rxBufEnd.toNat - c.rxbufDataStart.toNat := by
        rw [length]
        refine toNat_sub_of_le (le_def.mpr ?_)
        omega
      rw [target, same, pos, if_pos later, whole]
      omega
  constructor
  case last =>
    rw [lastFwPos, goes]
    by_cases later : fwPosAt c s.off < (adjustedNext c s.off).toNat
    · have arrives : target c s.off = s.off + ((adjustedNext c s.off).toNat - fwPosAt c s.off) :=
        if_pos later
      by_cases first : s.off < c.firstLen.toNat
      · have pos : fwPosAt c s.off = c.rxbufDataStart.toNat + s.off := if_pos first
        have first' : target c s.off < c.firstLen.toNat := by
          rcases stays later first with second | room
          · simpa [RxbufList.len, second] using inside
          · exact Nat.lt_of_lt_of_le (Nat.lt_add_of_pos_right (by decide)) room
        rw [fwPosAt, if_pos first', arrives, pos]
        omega
      · have pos : fwPosAt c s.off = rxbufStartAddr.toNat + (s.off - c.firstLen.toNat) := if_neg first
        rw [fwPosAt, if_neg (by omega), arrives, pos]
        omega
    · have arrives : target c s.off =
          c.firstLen.toNat + ((adjustedNext c s.off).toNat - rxbufStartAddr.toNat) := if_neg later
      rw [fwPosAt, if_neg (by omega), arrives]
      omega
  case mem =>
    intro k from'
    rw [goes] at from'
    by_cases short : c.rxBufEnd - Rx.nextAt c s.off < rxDescSize
    · have start : adjustedNext c s.off = rxbufStartAddr := if_pos short
      have arrives : target c s.off = c.firstLen.toNat := by
        rw [target, start, if_neg (Nat.not_lt.mpr lastLow), Nat.sub_self, Nat.add_zero]
      rw [arrives] at advance inside from'
      have written : (Rx.nextHandle c s).mem = writeU32 s.mem (s.off + nextPktOffset) rxbufStartAddr := by
        simp only [Rx.nextHandle, inv.nextAt, decide_eq_true_eq, if_pos short]
      have far : s.off + nextPktOffset + 4 ≤ k := by
        rcases inv.room advance with second | room
        · simp [RxbufList.len, second] at inside
        · have size : nextPktOffset + 4 ≤ rxDescSize.toNat := by decide
          omega
      rw [written, writeU32, if_neg (by omega)]
      exact inv.mem k (by omega)
    · have kept : (Rx.nextHandle c s).mem = s.mem := by
        simp only [Rx.nextHandle, inv.nextAt, decide_eq_true_eq, if_neg short]
      rw [kept]
      exact inv.mem k (by omega)
  case room =>
    rw [goes]
    intro first'
    by_cases later : fwPosAt c s.off < (adjustedNext c s.off).toNat
    · exact stays later (by omega)
    · have arrives : target c s.off =
          c.firstLen.toNat + ((adjustedNext c s.off).toNat - rxbufStartAddr.toNat) := if_neg later
      exact absurd first' (by omega)

theorem turn (shape : ChunkShape c) (inside : s.off + rxDescSize.toNat ≤ c.len)
    (valid : outOfRing c (Rx.nextAt c s.off) = false) (env : WalkEnv)
    (goesOn : env.amlRxTaskQuit = false) :
    ∃ s', walkTurn env c s = some s' ∧ s'.off = target c s.off ∧
      (s.off < s'.off → s'.off < c.len → WalkInv c s') := by
  have active : s.off < c.len := Nat.lt_of_lt_of_le (Nat.lt_add_of_pos_right (by decide)) inside
  have body : walkTurn env c s = walkBody env c s := by
    rw [walkTurn, goesOn]
    simp [active]
  rw [body, walkBody, inv.nextAt, valid]
  simp only [Bool.false_eq_true, if_false]
  split
  · exact ⟨_, rfl, inv.nextHandle shape valid⟩
  · exact ⟨_, rfl, (inv.handleFrame inside env).nextHandle shape valid⟩

theorem turn_outOfRing (invalid : outOfRing c (Rx.nextAt c s.off) = true)
    (env : WalkEnv) : walkTurn env c s = none := by
  unfold walkTurn walkBody
  rw [inv.nextAt, invalid]
  simp

theorem fieldReads_inside : (∀ r ∈ fieldReads c s, r.1 + r.2 ≤ c.len) ↔ s.off + nextPktOffset + 4 ≤ c.len ∧
        (outOfRing c (Rx.nextAt c s.off) = false → s.off + rxStatusOffset + 4 ≤ c.len) := by
  unfold fieldReads
  rw [inv.nextAt]
  cases outOfRing c (Rx.nextAt c s.off) with
  | true => simp
  | false =>
    simp only [Bool.false_eq_true, if_false, List.forall_mem_cons, List.not_mem_nil, forall_true_left,
      rxFrmlenOffset, rxReorderLenOffset, rxHostidOffset, rxStatusOffset, nextPktOffset]
    refine and_congr_right fun _ => ⟨fun all => all.1, fun status => ⟨status, ?_, ?_, ?_, ?_⟩⟩
    · omega
    · omega
    · omega
    · intro r none
      cases none

end

end WalkInv

/-! ### Safe chunks are the chained ones -/

theorem walkTurn_past {c : RxbufList} {s : WalkState} (past : c.len ≤ s.off) (env : WalkEnv) :
    walkTurn env c s = none := by
  simp [walkTurn, Nat.not_lt.mpr past]

variable {envs : Nat → WalkEnv}

theorem walkOk_of_turn_none {c : RxbufList} {s : WalkState}
    (ended : walkTurn (envs 0) c s = none)
    (inside : s.off < c.len → ∀ r ∈ fieldReads c s, r.1 + r.2 ≤ c.len) : WalkOk c envs s := by
  have later : ∀ n, walkStates c envs s (n + 1) = none := fun n => by
    rw [walkStates, ended]
    rfl
  constructor
  case ends => exact ⟨1, later 0⟩
  case inside =>
    intro n s' here _ active
    cases n with
    | zero =>
      obtain rfl := Option.some.inj here
      exact inside active
    | succ n => simp [later n] at here
  case advances =>
    intro n s' s'' _ next
    simp [later n] at next

theorem walkOk_of_turn {c : RxbufList} {s s' : WalkState}
    (goesOn : walkTurn (envs 0) c s = some s')
    (inside : ∀ r ∈ fieldReads c s, r.1 + r.2 ≤ c.len) (advance : s.off < s'.off)
    (rest : WalkOk c (fun k => envs (k + 1)) s') : WalkOk c envs s := by
  have later : ∀ n, walkStates c envs s (n + 1) = walkStates c (fun k => envs (k + 1)) s' n :=
    fun n => by
      rw [walkStates, goesOn]
      rfl
  constructor
  case ends =>
    obtain ⟨n, ended⟩ := rest.ends
    exact ⟨n + 1, (later n).trans ended⟩
  case inside =>
    intro n t here goes active
    cases n with
    | zero =>
      obtain rfl := Option.some.inj here
      exact inside
    | succ n => exact rest.inside n t ((later n).symm.trans here) goes active
  case advances =>
    intro n t t' here next
    rw [later] at next
    cases n with
    | zero =>
      obtain rfl := Option.some.inj here
      obtain rfl := Option.some.inj next
      exact advance
    | succ n => exact rest.advances n t t' ((later n).symm.trans here) next

theorem WalkOk.tail {c : RxbufList} {s s' : WalkState}
    (ok : WalkOk c envs s) (goesOn : walkTurn (envs 0) c s = some s') :
    s.off < s'.off ∧ WalkOk c (fun k => envs (k + 1)) s' := by
  have later : ∀ n, walkStates c envs s (n + 1) = walkStates c (fun k => envs (k + 1)) s' n :=
    fun n => by
      rw [walkStates, goesOn]
      rfl
  refine ⟨ok.advances 0 s s' rfl (later 0), ?_, ?_, ?_⟩
  · obtain ⟨n, ended⟩ := ok.ends
    cases n with
    | zero => cases ended
    | succ n => exact ⟨n, (later n).symm.trans ended⟩
  · exact fun n t here => ok.inside (n + 1) t ((later n).trans here)
  · exact fun n t t' here next =>
      ok.advances (n + 1) t t' ((later n).trans here) ((later (n + 1)).trans next)

theorem Chained.walkOk {c : RxbufList} (shape : ChunkShape c) {off : Nat} (chained : Chained c off)
    {s : WalkState} (here : s.off = off) (inv : off < c.len → WalkInv c s)
    (envs : Nat → WalkEnv) : WalkOk c envs s := by
  induction chained generalizing s envs with
  | past off past =>
    exact walkOk_of_turn_none (walkTurn_past (here ▸ past) _) fun active =>
      absurd active (Nat.not_lt.mpr (here ▸ past))
  | outOfRing off active fits invalid =>
    subst here
    have inv := inv active
    exact walkOk_of_turn_none (inv.turn_outOfRing invalid _) fun _ =>
      inv.fieldReads_inside.mpr ⟨fits, fun valid => by rw [invalid] at valid; cases valid⟩
  | next off active fits valid advance _ ih =>
    subst here
    have inv := inv active
    have inside : ∀ r ∈ fieldReads c s, r.1 + r.2 ≤ c.len :=
      inv.fieldReads_inside.mpr ⟨Nat.le_trans (by unfold nextPktOffset rxStatusOffset; omega) fits, fun _ => fits⟩
    cases quit : (envs 0).amlRxTaskQuit with
    | true => exact walkOk_of_turn_none (by simp [walkTurn, quit]) fun _ => inside
    | false =>
      obtain ⟨s', goesOn, goes, inv'⟩ := inv.turn shape fits valid (envs 0) quit
      refine walkOk_of_turn goesOn inside (goes ▸ advance) ?_
      exact ih goes (fun active' => inv' (goes ▸ advance) (goes ▸ active')) _

theorem chained_of_walkOk {c : RxbufList} (shape : ChunkShape c) {s : WalkState}
    (inv : s.off < c.len → WalkInv c s) (ok : WalkOk c (fun _ => {}) s) : Chained c s.off := by
  by_cases active : s.off < c.len
  · have inv := inv active
    have reads := inv.fieldReads_inside.mp (ok.inside 0 s rfl rfl active)
    cases valid : outOfRing c (nextAt c s.off) with
    | true => exact .outOfRing s.off active reads.1 valid
    | false =>
      have fits := reads.2 valid
      obtain ⟨s', goesOn, goes, inv'⟩ := inv.turn shape fits valid {} rfl
      obtain ⟨advance, rest⟩ := ok.tail goesOn
      have later := chained_of_walkOk shape (inv' advance) rest
      exact .next s.off active fits valid (goes ▸ advance) (goes ▸ later)
  · exact .past s.off (Nat.le_of_not_lt active)
termination_by c.len - s.off

/-- **RX chunk walk.** On a chunk of `aml_sdio_rxdataind` the loop of `aml_rx_task` ends, reads inside
the chunk and advances, whatever happens outside, exactly when the descriptors are chained. -/
theorem walkSafe_iff_chained {c : RxbufList} (filled : Filled c) : WalkSafe c ↔ Chained c 0 := by
  have shape := filled.shape
  constructor
  · intro safe
    exact chained_of_walkOk shape (s := walkStart c (amlRxdataInit 0))
      (fun active => walkInv_start shape _ active) (safe _ _)
  · intro chained envs rx
    exact chained.walkOk shape rfl (fun active => walkInv_start shape rx active) envs

/-- A chunk of the large SDIO ring with these two next pointers, at offsets 0 and 56. -/
def twoDescriptors (old new first second : BitVec 32) : RxbufList :=
  { fill (fun _ => 0) old new { rxBufEnd := rxbufEndAddrLarge .sdio } with
    rxbuf := writeU32 (writeU32 (fun _ => 0) 28 first) 84 second }

/-- Two empty descriptors, one after the other. -/
theorem walkSafe_iff_chained_two :
    let c := twoDescriptors rxbufStartAddr (rxbufStartAddr + 112) (rxbufStartAddr + 56) (rxbufStartAddr + 112)
    c.len = 112 ∧ WalkSafe c := by
  have filled : Filled (twoDescriptors rxbufStartAddr (rxbufStartAddr + 112) (rxbufStartAddr + 56)
      (rxbufStartAddr + 112)) := ⟨_, _, _, _, _, by decide, by decide, rfl⟩
  refine ⟨by decide, (walkSafe_iff_chained filled).mpr ?_⟩
  refine .next 0 (by decide) (by decide) (by decide) (by decide) ?_
  refine .next _ (by decide) (by decide) (by decide) (by decide) ?_
  exact .past _ (by decide)

/-- **A descriptor at the start of the ring that points to itself**, read after the wrap: the loop comes
back to it for ever. -/
theorem walk_selfPointer : let c := twoDescriptors (rxbufEndAddrLarge .sdio) (rxbufStartAddr + 112) rxbufStartAddr 0
    Filled c ∧ c.len = 112 ∧ ¬ WalkSafe c := by
  refine ⟨⟨_, _, _, _, _, by decide, by decide, rfl⟩, by decide, fun safe => ?_⟩
  have ok := safe (fun _ => {}) (amlRxdataInit 0)
  exact absurd (ok.advances 0 _ _ rfl rfl) (by decide)

end W2l.Rx
