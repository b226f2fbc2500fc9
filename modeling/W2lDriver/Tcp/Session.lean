/-
**The TCP ACK sessions.**

`aml_tcp_ack.c`. A pure ACK of a flow that has a session is forwarded, or held in the session for a
newer one or for the timer. A session is found by the 4-tuple, taken from a table of 128, and given
back when it was not used for a while.

* `AckMgr` — `struct aml_tcp_sess_mgr` with its sessions; `amlFilterTxTcpAck`, `amlTcpAckTimeout` and
  `amlCheckTcpackSkb` on it.
* `AckMgr.Sound` — the count, the hint, the choice of a free session and the 4-tuples.
-/

import W2lDriver.Lib.Slots
import W2lDriver.Lib.System
import W2lDriver.Cmd.Types

namespace W2l.Tcp

open Cmd (BusType)
open Lib (Slots)
open Function (comp_update update update_eq_self update_idem update_of_ne update_self)

/-! ### Constants -/

abbrev amlTcpSessNum : Nat := 128
def maxTcpAckLen : BitVec 32 := 200
def maxDropTcpAckCnt : Nat := 24
def maxDropTcpAckCntSdio : Nat := 24
def maxDropTcpAckCntUsb : Nat := 10
def tckSessTimeoutTime : Nat := 5000
def minWin : BitVec 32 := 96
def sizeKb : BitVec 32 := 1024

def amlU32Before (a b : BitVec 32) : Bool := (a - b).toInt ≤ 0

def timeAfter (a b : BitVec 64) : Bool := (b - a).toInt < 0

/-- `msecs_to_jiffies`, rounded up. -/
def msecsToJiffies (hz ms : Nat) : BitVec 64 := BitVec.ofNat 64 ((ms * hz + 999) / 1000)

/-! ### State -/

/-- What `aml_check_tcp_ack_type` makes of a frame: 0, 1 or 2. -/
inductive AckType
  | notAck
  | ack
  /-- An ACK with other information. -/
  | ackInfo
  deriving DecidableEq

/-- The 4-tuple of `struct aml_pkt_info`. -/
structure Flow where
  source : BitVec 16
  dest : BitVec 16
  saddr : BitVec 32
  daddr : BitVec 32
  deriving DecidableEq

/-- A frame as the filter sees it. -/
structure Skb where
  /-- The number of the call that brings it. -/
  id : Nat
  len : BitVec 32
  type : AckType
  flow : Flow
  seq : BitVec 32
  win : BitVec 16
  /-- The window scale option, 0 without one. -/
  winScale : BitVec 16
  deriving DecidableEq

/-- `struct aml_tcp_ack_tx`: a frame with the station and the interface it is for. -/
structure AckTx where
  sta : Nat
  amlVif : Nat
  skb : Skb
  deriving DecidableEq

/-- `struct aml_tcp_sess_info`. -/
structure SessInfo where
  busy : Bool := false
  dropCnt : BitVec 8 := 0
  winScale : BitVec 16 := 0
  lastTime : BitVec 64
  timeout : BitVec 64
  /-- The timer is pending. -/
  timer : Bool := false
  skb : Option Skb := none
  /-- The pointer `in_txq_skb`. -/
  inTxqSkb : Option Nat := none
  sta : Nat := 0
  amlVif : Nat := 0
  flow : Flow := ⟨0, 0, 0, 0⟩
  seq : BitVec 32 := 0
  deriving DecidableEq

/-- `struct aml_tcp_sess_mgr`. -/
structure AckMgr where
  enable : Bool := true
  dynamicAdjust : Bool := false
  usedNum : Int := 0
  /-- None is −1. -/
  freeIndex : Option (Fin amlTcpSessNum) := some 0
  totalDropCnt : BitVec 32 := 0
  lastTime : BitVec 64
  timeout : BitVec 64
  maxDropCnt : Nat
  tcpInfo : Fin amlTcpSessNum → SessInfo
  ackWinsize : BitVec 32 := minWin
  winScale : BitVec 16 := 1

/-- `aml_tcp_delay_ack_init` at the time `jiffies`, with `hz` jiffies a second. -/
def amlTcpDelayAckInit (bus : BusType) (hz : Nat) (jiffies : BitVec 64) : AckMgr where
  lastTime := jiffies
  timeout := msecsToJiffies hz tckSessTimeoutTime
  maxDropCnt :=
    match bus with
    | .pcie => maxDropTcpAckCnt
    | .usb => maxDropTcpAckCntUsb
    | .sdio => maxDropTcpAckCntSdio
  tcpInfo := fun _ => { lastTime := jiffies, timeout := msecsToJiffies hz tckSessTimeoutTime }

namespace AckMgr

def setSess (m : AckMgr) (i : Fin amlTcpSessNum) (t : SessInfo) : AckMgr :=
  { m with tcpInfo := Function.update m.tcpInfo i t }

/-! ### The table -/

/-- The test of `aml_tcp_sess_ageout`: busy, and its time is over. -/
def Expired (jiffies : BitVec 64) (t : SessInfo) : Prop :=
  t.busy = true ∧ timeAfter jiffies (t.lastTime + t.timeout) = true

instance (jiffies : BitVec 64) (t : SessInfo) : Decidable (Expired jiffies t) :=
  inferInstanceAs (Decidable (_ ∧ _))

/-- The body of the loop of `aml_tcp_sess_ageout`. -/
def ageSess (jiffies : BitVec 64) (i : Fin amlTcpSessNum) (m : AckMgr) : AckMgr :=
  if Expired jiffies (m.tcpInfo i) then
    { m.setSess i { m.tcpInfo i with busy := false } with
      freeIndex := some i
      usedNum := m.usedNum - 1 }
  else m

/-- `aml_tcp_sess_ageout`: from the last session to the first. -/
def amlTcpSessAgeout (m : AckMgr) (jiffies : BitVec 64) : AckMgr :=
  if timeAfter jiffies (m.lastTime + m.timeout) then
    (List.finRange amlTcpSessNum).foldr (ageSess jiffies) { m with lastTime := jiffies }
  else m

def amlTcpSessFind (m : AckMgr) (flow : Flow) : Option (Fin amlTcpSessNum) :=
  (List.finRange amlTcpSessNum).find? fun i => (m.tcpInfo i).busy && (m.tcpInfo i).flow = flow

def amlAllocTcpSess (m : AckMgr) : Option (Fin amlTcpSessNum × AckMgr) :=
  if m.usedNum = amlTcpSessNum then none
  else match m.freeIndex with
    | some i => some (i, { m with freeIndex := none, usedNum := m.usedNum + 1 })
    | none => ((List.finRange amlTcpSessNum).find? fun i => !(m.tcpInfo i).busy).map fun i =>
        (i, { m with freeIndex := none, usedNum := m.usedNum + 1 })

/-! ### The filter -/

/-- What a call of the filter leaves behind. -/
structure Filtered where
  mgr : AckMgr
  /-- `ret`: the frame does not go on to `aml_start_xmit`. -/
  ret : Bool
  /-- `drop_skb`, freed. -/
  dropSkb : Option Skb := none
  /-- `type` at the end of the call. -/
  type : AckType := .notAck
  /-- The session that was taken, as it was. -/
  taken : Option SessInfo := none

/-- The end of `aml_replace_tcp_ack`. -/
def replaced (m : AckMgr) (i : Fin amlTcpSessNum) (t : SessInfo) (ret : Bool) (dropSkb : Option Skb)
    (type : AckType) : Filtered where
  mgr := { m.setSess i t with
    totalDropCnt := if dropSkb.isSome then m.totalDropCnt + 1 else m.totalDropCnt }
  ret := ret
  dropSkb := dropSkb
  type := type

def amlReplaceTcpAck (m : AckMgr) (jiffies : BitVec 64) (i : Fin amlTcpSessNum) (skb : Skb)
    (type : AckType) : Filtered :=
  let t := { m.tcpInfo i with lastTime := jiffies }
  if type = .ackInfo then
    if amlU32Before t.seq skb.seq then
      m.replaced i
        { t with
          seq := skb.seq
          skb := none
          timer := t.timer && t.skb.isNone
          inTxqSkb := none
          dropCnt := BitVec.ofNat 8 m.maxDropCnt }
        false t.skb type
    else m.replaced i t true (some skb) type
  else if amlU32Before t.seq skb.seq then
    let t' := { t with skb := none, dropCnt := t.dropCnt + 1, seq := skb.seq }
    if t'.inTxqSkb = none ∧ m.maxDropCnt ≤ t'.dropCnt.toNat then
      m.replaced i { t' with dropCnt := 0, inTxqSkb := some skb.id, timer := false } false t.skb type
    else m.replaced i { t' with skb := some skb, timer := true } true t.skb type
  else m.replaced i t true (some skb) type

/-- The window scale of a SYN-ACK, and in the session the one seen last. -/
def noteWinScale (m : AckMgr) (winScale : BitVec 16) : AckMgr :=
  if winScale ≠ 0 ∧ m.winScale ≠ winScale then { m with winScale := winScale } else m

def syncWinScale (m : AckMgr) (i : Fin amlTcpSessNum) : AckMgr :=
  if m.winScale ≠ 0 ∧ (m.tcpInfo i).winScale ≠ m.winScale then
    m.setSess i { m.tcpInfo i with winScale := m.winScale }
  else m

/-- `win < (ack_mgr->ack_winsize * SIZE_KB)` turns an ACK into one with other information. -/
def windowType (m : AckMgr) (i : Fin amlTcpSessNum) (skb : Skb) : AckType :=
  if (m.tcpInfo i).winScale.setWidth 32 * skb.win.setWidth 32 < m.ackWinsize * sizeKb then .ackInfo
  else skb.type

/-- The drop count of `dynamic_adjust`. -/
def adjustDropCnt (m : AckMgr) : AckMgr :=
  if m.dynamicAdjust then
    { m with
      maxDropCnt := if (maxDropTcpAckCnt : Int) < m.usedNum.tdiv 2 then maxDropTcpAckCnt
        else (BitVec.ofInt 8 (m.usedNum.tdiv 2)).toNat }
  else m

/-- The session of a new flow. -/
def openSess (m : AckMgr) (jiffies : BitVec 64) (i : Fin amlTcpSessNum) (tx : AckTx) : AckMgr :=
  m.setSess i { m.tcpInfo i with
    busy := true
    lastTime := jiffies
    dropCnt := BitVec.ofNat 8 m.maxDropCnt
    winScale := m.winScale
    sta := tx.sta
    amlVif := tx.amlVif
    timer := true
    flow := tx.skb.flow
    seq := tx.skb.seq }

/-- `aml_filter_tx_tcp_ack` behind the ageing, for a frame that is an ACK. -/
def filterAck (m : AckMgr) (jiffies : BitVec 64) (tx : AckTx) : Filtered :=
  match m.amlTcpSessFind tx.skb.flow with
  | some i =>
    let m := m.syncWinScale i
    m.amlReplaceTcpAck jiffies i tx.skb (m.windowType i tx.skb)
  | none =>
    match m.amlAllocTcpSess with
    | some (i, m) =>
      { mgr := m.adjustDropCnt.openSess jiffies i tx
        ret := false
        type := tx.skb.type
        taken := some (m.tcpInfo i) }
    | none => { mgr := m, ret := false, type := tx.skb.type }

def amlFilterTxTcpAck (m : AckMgr) (jiffies : BitVec 64) (tx : AckTx) : Filtered :=
  if !m.enable || maxTcpAckLen < tx.skb.len then { mgr := m, ret := false }
  else
    let m := (m.amlTcpSessAgeout jiffies).noteWinScale tx.skb.winScale
    if tx.skb.type = .notAck then { mgr := m, ret := false } else m.filterAck jiffies tx

/-! ### The timer and the push -/

/-- `aml_tcp_ack_timeout`, with what it hands to `aml_send_tcp_ack`; the timer is not pending. -/
def amlTcpAckTimeout (m : AckMgr) (i : Fin amlTcpSessNum) : AckMgr × Option AckTx :=
  let t := m.tcpInfo i
  match t.skb with
  | some skb =>
    if t.busy && t.inTxqSkb.isNone then
      (m.setSess i { t with skb := none, dropCnt := 0, inTxqSkb := some skb.id }, some ⟨t.sta, t.amlVif, skb⟩)
    else (m, none)
  | none => (m, none)

def amlCheckTcpackSkb (m : AckMgr) (skb : Nat) (len : BitVec 32) : AckMgr :=
  if !m.enable || maxTcpAckLen < len then m
  else { m with
    tcpInfo := fun i =>
      let t := m.tcpInfo i
      if t.busy && t.inTxqSkb = some skb then { t with inTxqSkb := none } else t }

/-! ### Ageing -/

variable {m : AckMgr} {jiffies : BitVec 64} {tx : AckTx}

def slots (m : AckMgr) : Slots amlTcpSessNum where
  busy i := (m.tcpInfo i).busy
  used := m.usedNum
  hint := m.freeIndex

def AgedOut (m : AckMgr) (jiffies : BitVec 64) (i : Fin amlTcpSessNum) : Prop :=
  timeAfter jiffies (m.lastTime + m.timeout) = true ∧ Expired jiffies (m.tcpInfo i)

instance (i : Fin amlTcpSessNum) : Decidable (AgedOut m jiffies i) :=
  inferInstanceAs (Decidable (_ ∧ _))

theorem ageSess_of_ne {i j : Fin amlTcpSessNum} (other : j ≠ i) : (ageSess jiffies i m).tcpInfo j = m.tcpInfo j := by
  unfold AckMgr.ageSess
  split
  · exact update_of_ne other _ _
  · rfl

theorem foldr_ageSess {l : List (Fin amlTcpSessNum)} (nodup : l.Nodup) (i : Fin amlTcpSessNum) :
    (l.foldr (ageSess jiffies) m).tcpInfo i =
      if i ∈ l ∧ Expired jiffies (m.tcpInfo i) then { m.tcpInfo i with busy := false }
      else m.tcpInfo i := by
  induction l with
  | nil => simp
  | cons j l ih =>
    obtain ⟨fresh, distinct⟩ := List.nodup_cons.mp nodup
    rw [List.foldr_cons]
    by_cases same : i = j
    · subst same
      have before : (l.foldr (ageSess jiffies) m).tcpInfo i = m.tcpInfo i := by
        rw [ih distinct, if_neg fun aged => fresh aged.1]
      by_cases expired : Expired jiffies (m.tcpInfo i)
      · rw [AckMgr.ageSess, if_pos (before ▸ expired), if_pos ⟨List.mem_cons_self, expired⟩, before]
        exact update_self ..
      · rw [AckMgr.ageSess, if_neg (before ▸ expired), if_neg fun aged => expired aged.2, before]
    · rw [ageSess_of_ne same, ih distinct]
      simp only [List.mem_cons, same, false_or]

theorem ageout_tcpInfo (m : AckMgr) (jiffies : BitVec 64) (i : Fin amlTcpSessNum) :
    (m.amlTcpSessAgeout jiffies).tcpInfo i =
      if m.AgedOut jiffies i then { m.tcpInfo i with busy := false } else m.tcpInfo i := by
  unfold amlTcpSessAgeout
  by_cases due : timeAfter jiffies (m.lastTime + m.timeout) = true
  · rw [if_pos due, foldr_ageSess (List.nodup_finRange _)]
    simp only [AgedOut, due, List.mem_finRange, true_and]
  · rw [if_neg due, if_neg fun aged => due aged.1]

/-- Ageing clears `busy` and leaves the rest of a session. -/
theorem ageout_keeps (m : AckMgr) (jiffies : BitVec 64) (i : Fin amlTcpSessNum) :
    ∃ busy, (m.amlTcpSessAgeout jiffies).tcpInfo i = { m.tcpInfo i with busy := busy } ∧
      (busy = true → (m.tcpInfo i).busy = true) ∧
      (busy = false → (m.tcpInfo i).busy = false ∨ m.AgedOut jiffies i) := by
  rw [ageout_tcpInfo]
  split
  case isTrue aged => exact ⟨false, rfl, fun busy => absurd busy (by decide), fun _ => .inr aged⟩
  case isFalse => exact ⟨(m.tcpInfo i).busy, rfl, id, .inl⟩

/-! ### The table is sound -/

/-- The count, the hint, and one session for a 4-tuple. -/
structure Sound (m : AckMgr) : Prop where
  slots : m.slots.Sound
  unique : ∀ i j, (m.tcpInfo i).busy = true → (m.tcpInfo j).busy = true →
    (m.tcpInfo i).flow = (m.tcpInfo j).flow → i = j

theorem Sound.same {m' : AckMgr} (sound : Sound m) (slots : m'.slots = m.slots)
    (flow : ∀ i, (m'.tcpInfo i).busy = true → (m'.tcpInfo i).flow = (m.tcpInfo i).flow) :
    Sound m' where
  slots := slots ▸ sound.slots
  unique i j busy busy' equal := by
    have still : ∀ k, (m'.tcpInfo k).busy = (m.tcpInfo k).busy := fun k =>
      congrFun (congrArg Slots.busy slots) k
    refine sound.unique i j (still i ▸ busy) (still j ▸ busy') ?_
    rw [← flow i busy, ← flow j busy', equal]

theorem slots_setSess (m : AckMgr) (i : Fin amlTcpSessNum) (t : SessInfo) :
    (m.setSess i t).slots = ⟨update m.slots.busy i t.busy, m.usedNum, m.freeIndex⟩ :=
  congrArg (Slots.mk · m.usedNum m.freeIndex) (comp_update SessInfo.busy m.tcpInfo i t)

variable {i : Fin amlTcpSessNum}

theorem slots_same (m : AckMgr) {t : SessInfo}
    (busy : t.busy = (m.tcpInfo i).busy) : (m.setSess i t).slots = m.slots := by
  rw [slots_setSess, busy]
  exact congrArg (Slots.mk · m.usedNum m.freeIndex) (update_eq_self i m.slots.busy)

theorem Sound.ageSess (sound : Sound m) (i : Fin amlTcpSessNum) : Sound (ageSess jiffies i m) := by
  unfold AckMgr.ageSess
  split
  case isFalse => exact sound
  case isTrue expired =>
    have free := Slots.sound_free sound.slots (i := i) expired.1
    constructor
    case slots =>
      convert free using 1
      exact congrArg (Slots.mk · (m.usedNum - 1) (some i)) (comp_update SessInfo.busy m.tcpInfo i _)
    case unique =>
      have kept : ∀ k, ((m.setSess i { m.tcpInfo i with busy := false }).tcpInfo k).busy = true →
          (m.setSess i { m.tcpInfo i with busy := false }).tcpInfo k = m.tcpInfo k := fun k busy => by
        refine update_of_ne ?_ _ _
        rintro rfl
        simp [AckMgr.setSess] at busy
      intro j k busy busy' equal
      have left := kept j busy
      have right := kept k busy'
      exact sound.unique j k (left ▸ busy) (right ▸ busy') (left ▸ right ▸ equal)

theorem Sound.ageout (sound : Sound m) (jiffies : BitVec 64) : Sound (m.amlTcpSessAgeout jiffies) := by
  have loop : ∀ l : List (Fin amlTcpSessNum),
      Sound (l.foldr (AckMgr.ageSess jiffies) { m with lastTime := jiffies }) := fun l => by
    induction l with
    | nil => exact ⟨sound.slots, sound.unique⟩
    | cons i l ih => exact ih.ageSess i
  unfold amlTcpSessAgeout
  split
  · exact loop _
  · exact sound

/-! ### What a call of the filter does -/

/-- The session of an ACK in slot `i`, from `t` to `t'`. -/
inductive Replaced (t : SessInfo) (tx : AckTx) (f : Filtered) (t' : SessInfo) : Prop
  /-- It goes on; what was held is freed. -/
  | goesOn (before : amlU32Before t.seq tx.skb.seq = true) (seq : t'.seq = tx.skb.seq)
      (skb : t'.skb = none) (timer : t'.timer = true → t.timer = true)
      (ret : f.ret = false) (dropSkb : f.dropSkb = t.skb)
  /-- It is held in place of what was held. -/
  | held (before : amlU32Before t.seq tx.skb.seq = true) (seq : t'.seq = tx.skb.seq)
      (skb : t'.skb = some tx.skb) (timer : t'.timer = true)
      (ret : f.ret = true) (dropSkb : f.dropSkb = t.skb) (type : f.type ≠ .ackInfo)
  /-- It is older than the last one. -/
  | refused (after : amlU32Before t.seq tx.skb.seq = false) (seq : t'.seq = t.seq)
      (skb : t'.skb = t.skb) (timer : t'.timer = t.timer)
      (ret : f.ret = true) (dropSkb : f.dropSkb = some tx.skb)

/-- **A call of the filter**, from the table `m` it finds. -/
inductive FilterCase (m : AckMgr) (tx : AckTx) (f : Filtered) : Prop
  /-- The table stays as it is. -/
  | passed (tcpInfo : f.mgr.tcpInfo = m.tcpInfo) (slots : f.mgr.slots = m.slots)
      (ret : f.ret = false) (dropSkb : f.dropSkb = none) (taken : f.taken = none)
      (full : tx.skb.type = .notAck ∨ m.amlTcpSessFind tx.skb.flow = none)
  | opened (ack : tx.skb.type ≠ .notAck) (i : Fin amlTcpSessNum) (t : SessInfo)
      (new : m.amlTcpSessFind tx.skb.flow = none) (pick : m.slots.pick = some i)
      (tcpInfo : f.mgr.tcpInfo = Function.update m.tcpInfo i t)
      (slots : f.mgr.slots = m.slots.take i) (flow : t.flow = tx.skb.flow) (seq : t.seq = tx.skb.seq)
      (sta : t.sta = tx.sta ∧ t.amlVif = tx.amlVif) (timer : t.timer = true)
      (skb : t.skb = (m.tcpInfo i).skb) (busy : t.busy = true)
      (ret : f.ret = false) (dropSkb : f.dropSkb = none) (taken : f.taken = some (m.tcpInfo i))
  | replaced (ack : tx.skb.type ≠ .notAck) (i : Fin amlTcpSessNum) (t : SessInfo)
      (found : m.amlTcpSessFind tx.skb.flow = some i)
      (tcpInfo : f.mgr.tcpInfo = Function.update m.tcpInfo i t) (slots : f.mgr.slots = m.slots)
      (flow : t.flow = (m.tcpInfo i).flow) (busy : t.busy = (m.tcpInfo i).busy)
      (sta : t.sta = (m.tcpInfo i).sta ∧ t.amlVif = (m.tcpInfo i).amlVif)
      (how : Replaced (m.tcpInfo i) tx f t) (taken : f.taken = none)

theorem find_some {flow : Flow} (found : m.amlTcpSessFind flow = some i) :
    (m.tcpInfo i).busy = true ∧ (m.tcpInfo i).flow = flow := by
  simpa using List.find?_some found

theorem find_none {flow : Flow} (missing : m.amlTcpSessFind flow = none) (i : Fin amlTcpSessNum)
    (busy : (m.tcpInfo i).busy = true) : (m.tcpInfo i).flow ≠ flow := by
  simpa [busy] using List.find?_eq_none.mp missing i (List.mem_finRange i)

/-- `aml_alloc_tcp_sess` picks a slot and counts it. -/
theorem alloc_eq (m : AckMgr) : m.amlAllocTcpSess = m.slots.pick.map fun i =>
    (i, { m with freeIndex := none, usedNum := m.usedNum + 1 }) := by
  unfold amlAllocTcpSess Slots.pick
  by_cases full : m.usedNum = amlTcpSessNum
  · rw [if_pos full, if_pos (show m.slots.used = _ from full)]
    rfl
  · rw [if_neg full, if_neg (show ¬ m.slots.used = _ from full)]
    cases hint : m.freeIndex with
    | some i => rw [show m.slots.hint = _ from hint]; rfl
    | none => rw [show m.slots.hint = _ from hint]; rfl

theorem replace_cases (m : AckMgr) (jiffies : BitVec 64) (i : Fin amlTcpSessNum) (tx : AckTx)
    (type : AckType) : ∃ t, (m.amlReplaceTcpAck jiffies i tx.skb type).mgr.tcpInfo = update m.tcpInfo i t ∧
      (m.amlReplaceTcpAck jiffies i tx.skb type).mgr.slots = m.slots ∧
      t.flow = (m.tcpInfo i).flow ∧ t.busy = (m.tcpInfo i).busy ∧
      (t.sta = (m.tcpInfo i).sta ∧ t.amlVif = (m.tcpInfo i).amlVif) ∧
      Replaced (m.tcpInfo i) tx (m.amlReplaceTcpAck jiffies i tx.skb type) t ∧
      (m.amlReplaceTcpAck jiffies i tx.skb type).taken = none := by
  unfold amlReplaceTcpAck
  dsimp only
  by_cases before : amlU32Before (m.tcpInfo i).seq tx.skb.seq = true
  · by_cases info : type = .ackInfo
    · rw [if_pos info, if_pos before]
      refine ⟨_, rfl, slots_same m rfl, rfl, rfl, ⟨rfl, rfl⟩, ?_, rfl⟩
      exact .goesOn before rfl rfl (fun timer => (Bool.and_eq_true _ _ ▸ timer).1) rfl rfl
    · rw [if_neg info, if_pos before]
      split
      · refine ⟨_, rfl, slots_same m rfl, rfl, rfl, ⟨rfl, rfl⟩, ?_, rfl⟩
        exact .goesOn before rfl rfl (fun timer => absurd timer Bool.false_ne_true) rfl rfl
      · refine ⟨_, rfl, slots_same m rfl, rfl, rfl, ⟨rfl, rfl⟩, ?_, rfl⟩
        exact .held before rfl rfl rfl rfl rfl info
  · have after : amlU32Before (m.tcpInfo i).seq tx.skb.seq = false := Bool.eq_false_iff.mpr before
    by_cases info : type = .ackInfo
    · rw [if_pos info, if_neg before]
      exact ⟨_, rfl, slots_same m rfl, rfl, rfl, ⟨rfl, rfl⟩, .refused after rfl rfl rfl rfl rfl, rfl⟩
    · rw [if_neg info, if_neg before]
      exact ⟨_, rfl, slots_same m rfl, rfl, rfl, ⟨rfl, rfl⟩, .refused after rfl rfl rfl rfl rfl, rfl⟩

/-- `syncWinScale` changes the window scale of a session at most. -/
theorem syncWinScale_spec (m : AckMgr) (i : Fin amlTcpSessNum) : (∃ scale, (m.syncWinScale i).tcpInfo =
      update m.tcpInfo i { m.tcpInfo i with winScale := scale }) ∧
      (m.syncWinScale i).slots = m.slots := by
  unfold syncWinScale
  split
  · exact ⟨⟨m.winScale, rfl⟩, slots_same m rfl⟩
  · refine ⟨⟨(m.tcpInfo i).winScale, ?_⟩, rfl⟩
    exact (update_eq_self i m.tcpInfo).symm

theorem Replaced.ofScale {t t' : SessInfo} {f : Filtered} {scale : BitVec 16}
    (how : Replaced { t with winScale := scale } tx f t') : Replaced t tx f t' := by
  cases how with
  | goesOn before seq skb timer ret dropSkb => exact .goesOn before seq skb timer ret dropSkb
  | held before seq skb timer ret dropSkb type => exact .held before seq skb timer ret dropSkb type
  | refused after seq skb timer ret dropSkb => exact .refused after seq skb timer ret dropSkb

theorem filterAck_cases (m : AckMgr) (jiffies : BitVec 64) (tx : AckTx)
    (ack : tx.skb.type ≠ .notAck) :
    FilterCase m tx (m.filterAck jiffies tx) := by
  unfold filterAck
  split
  case h_1 i found =>
    obtain ⟨⟨scale, synced⟩, syncedSlots⟩ := syncWinScale_spec m i
    obtain ⟨t, tcpInfo, slots, flow, busy, sta, how, taken⟩ := replace_cases (m.syncWinScale i)
      jiffies i tx ((m.syncWinScale i).windowType i tx.skb)
    have here : (m.syncWinScale i).tcpInfo i = { m.tcpInfo i with winScale := scale } := by
      rw [synced, update_self]
    rw [here] at flow busy sta how
    refine .replaced ack i t found ?_ (slots.trans syncedSlots) flow busy sta how.ofScale taken
    rw [tcpInfo, synced, update_idem]
  case h_2 missing =>
    split
    case h_1 i next alloc =>
      rw [alloc_eq] at alloc
      obtain ⟨j, pick, same⟩ := Option.map_eq_some_iff.mp alloc
      obtain ⟨rfl, rfl⟩ := Prod.mk.inj same
      have adjusted : ∀ m : AckMgr, m.adjustDropCnt.tcpInfo = m.tcpInfo ∧
          m.adjustDropCnt.slots = m.slots := fun m => by
        unfold adjustDropCnt
        split <;> exact ⟨rfl, rfl⟩
      refine .opened ack j _ missing pick (congrArg (update · j _) (adjusted _).1) ?_ rfl rfl
        ⟨rfl, rfl⟩ rfl (congrArg (fun info => (info j).skb) (adjusted _).1) rfl rfl rfl rfl
      have counted := (adjusted { m with freeIndex := none, usedNum := m.usedNum + 1 }).2
      refine (slots_setSess _ _ _).trans ?_
      rw [counted]
      exact congrArg₂ (Slots.mk _) (congrArg Slots.used counted) (congrArg Slots.hint counted)
    case h_2 => exact .passed rfl rfl rfl rfl rfl (.inr missing)

/-- The table an ACK finds: aged, and with the window scale noted. -/
def aged (m : AckMgr) (jiffies : BitVec 64) (tx : AckTx) : AckMgr :=
  (m.amlTcpSessAgeout jiffies).noteWinScale tx.skb.winScale

theorem aged_spec (m : AckMgr) (jiffies : BitVec 64) (tx : AckTx) :
    (m.aged jiffies tx).tcpInfo = (m.amlTcpSessAgeout jiffies).tcpInfo ∧
      (m.aged jiffies tx).slots = (m.amlTcpSessAgeout jiffies).slots := by
  unfold aged noteWinScale
  split <;> exact ⟨rfl, rfl⟩

theorem busy_aged {m : AckMgr} {jiffies : BitVec 64} {tx : AckTx}
    (busy : ((m.aged jiffies tx).tcpInfo i).busy = true) :
    (m.aged jiffies tx).tcpInfo i = m.tcpInfo i ∧ ¬ m.AgedOut jiffies i := by
  rw [(aged_spec ..).1, ageout_tcpInfo] at busy ⊢
  split at busy
  case isTrue => cases busy
  case isFalse same => exact ⟨if_neg same, same⟩

def Unseen (m : AckMgr) (tx : AckTx) : Prop := m.enable = false ∨ maxTcpAckLen < tx.skb.len

instance (m : AckMgr) (tx : AckTx) : Decidable (m.Unseen tx) := inferInstanceAs (Decidable (_ ∨ _))

theorem filter_unseen (unseen : m.Unseen tx) : m.amlFilterTxTcpAck jiffies tx = { mgr := m, ret := false } := by
  unfold amlFilterTxTcpAck
  rw [if_pos]
  simpa [Unseen] using unseen

theorem filter_cases (m : AckMgr) (jiffies : BitVec 64) (tx : AckTx) (seen : ¬ m.Unseen tx) :
    FilterCase (m.aged jiffies tx) tx (m.amlFilterTxTcpAck jiffies tx) := by
  unfold amlFilterTxTcpAck
  rw [if_neg (by simpa [Unseen] using seen)]
  dsimp only
  split
  case isTrue notAck => exact .passed rfl rfl rfl rfl rfl (.inl notAck)
  case isFalse ack => exact filterAck_cases _ jiffies tx ack

theorem Sound.aged (sound : Sound m) (jiffies : BitVec 64) (tx : AckTx) : Sound (m.aged jiffies tx) := by
  obtain ⟨tcpInfo, slots⟩ := aged_spec m jiffies tx
  exact (sound.ageout jiffies).same slots fun i _ => by rw [tcpInfo]

theorem Sound.filter (sound : Sound m) (jiffies : BitVec 64) (tx : AckTx) :
    Sound (m.amlFilterTxTcpAck jiffies tx).mgr := by
  by_cases unseen : m.Unseen tx
  · rw [filter_unseen unseen]
    exact sound
  · have table := sound.aged jiffies tx
    cases filter_cases m jiffies tx unseen with
    | passed tcpInfo slots => exact table.same slots fun i _ => by rw [tcpInfo]
    | opened ack i t new pick tcpInfo slots flow seq sta timer skb busy =>
      have free := Slots.pick_free table.slots pick
      refine ⟨slots ▸ Slots.sound_take table.slots free, fun j k left right equal => ?_⟩
      rw [tcpInfo] at left right equal
      by_cases atJ : j = i <;> by_cases atK : k = i
      · rw [atJ, atK]
      · rw [atJ, update_self, update_of_ne atK, flow] at equal
        rw [update_of_ne atK] at right
        exact absurd equal.symm (find_none new k right)
      · rw [atK, update_self, update_of_ne atJ, flow] at equal
        rw [update_of_ne atJ] at left
        exact absurd equal (find_none new j left)
      · rw [update_of_ne atJ] at left equal
        rw [update_of_ne atK] at right equal
        exact table.unique j k left right equal
    | replaced ack i t found tcpInfo slots flow =>
      refine table.same slots fun j _ => ?_
      rw [tcpInfo]
      by_cases here : j = i
      · rw [here, update_self, flow]
      · rw [update_of_ne here]

theorem timeout_cases (m : AckMgr) (i : Fin amlTcpSessNum) :
    (m.amlTcpAckTimeout i = (m, none) ∧ ((m.tcpInfo i).skb = none ∨ (m.tcpInfo i).busy = false ∨
        (m.tcpInfo i).inTxqSkb ≠ none)) ∨
      ∃ skb, (m.tcpInfo i).skb = some skb ∧ (m.tcpInfo i).busy = true ∧
        (m.tcpInfo i).inTxqSkb = none ∧ m.amlTcpAckTimeout i =
          (m.setSess i { m.tcpInfo i with skb := none, dropCnt := 0, inTxqSkb := some skb.id },
            some ⟨(m.tcpInfo i).sta, (m.tcpInfo i).amlVif, skb⟩) := by
  unfold amlTcpAckTimeout
  dsimp only
  cases holds : (m.tcpInfo i).skb with
  | none => exact .inl ⟨rfl, .inl rfl⟩
  | some skb =>
    dsimp only
    by_cases ready : ((m.tcpInfo i).busy && (m.tcpInfo i).inTxqSkb.isNone) = true
    · obtain ⟨busy, marker⟩ := Bool.and_eq_true_iff.mp ready
      exact .inr ⟨skb, rfl, busy, Option.isNone_iff_eq_none.mp marker, if_pos ready⟩
    · refine .inl ⟨if_neg ready, .inr ?_⟩
      cases busy : (m.tcpInfo i).busy with
      | false => exact .inl rfl
      | true =>
        refine .inr fun marker => ready ?_
        rw [busy, marker]
        rfl

/-- `aml_check_tcpack_skb` clears markers at most. -/
theorem check_tcpInfo (m : AckMgr) (skb : Nat) (len : BitVec 32) (i : Fin amlTcpSessNum) :
    ∃ marker, (m.amlCheckTcpackSkb skb len).tcpInfo i = { m.tcpInfo i with inTxqSkb := marker } ∧
      (marker = none ∨ marker = (m.tcpInfo i).inTxqSkb) := by
  unfold amlCheckTcpackSkb
  split
  · exact ⟨(m.tcpInfo i).inTxqSkb, rfl, .inr rfl⟩
  · dsimp only
    split
    · exact ⟨none, rfl, .inl rfl⟩
    · exact ⟨(m.tcpInfo i).inTxqSkb, rfl, .inr rfl⟩

theorem check_slots (m : AckMgr) (skb : Nat) (len : BitVec 32) : (m.amlCheckTcpackSkb skb len).slots = m.slots := by
  have busy : ∀ i, ((m.amlCheckTcpackSkb skb len).tcpInfo i).busy = (m.tcpInfo i).busy := fun i => by
    obtain ⟨marker, same, -⟩ := check_tcpInfo m skb len i
    rw [same]
  unfold slots
  rw [funext busy]
  unfold amlCheckTcpackSkb
  split <;> rfl

theorem Sound.check (sound : Sound m) (skb : Nat) (len : BitVec 32) : Sound (m.amlCheckTcpackSkb skb len) := by
  refine sound.same (check_slots m skb len) fun i _ => ?_
  obtain ⟨marker, same, -⟩ := check_tcpInfo m skb len i
  rw [same]

def expire (m : AckMgr) (i : Fin amlTcpSessNum) : AckMgr :=
  m.setSess i { m.tcpInfo i with timer := false }

/-- The session of an expired timer, from `t` to `t'`, and what was sent. -/
inductive Fired (t : SessInfo) (sent : Option AckTx) (t' : SessInfo) : Prop
  /-- There is nothing to send, or the timer gives up. -/
  | nothing (skb : t'.skb = t.skb) (result : sent = none) (idle : t.skb = none ∨ t.busy = false ∨ t.inTxqSkb ≠ none)
  | sent (x : Skb) (holds : t.skb = some x) (busy : t.busy = true) (marker : t.inTxqSkb = none)
      (skb : t'.skb = none) (result : sent = some ⟨t.sta, t.amlVif, x⟩)

theorem expired_cases (m : AckMgr) (i : Fin amlTcpSessNum) :
    ∃ t, ((m.expire i).amlTcpAckTimeout i).1.tcpInfo = update m.tcpInfo i t ∧
      ((m.expire i).amlTcpAckTimeout i).1.slots = m.slots ∧
      t.flow = (m.tcpInfo i).flow ∧ t.seq = (m.tcpInfo i).seq ∧ t.busy = (m.tcpInfo i).busy ∧
      t.timer = false ∧ Fired (m.tcpInfo i) ((m.expire i).amlTcpAckTimeout i).2 t := by
  have here : (m.expire i).tcpInfo i = { m.tcpInfo i with timer := false } :=
    update_self ..
  obtain ⟨same, idle⟩ | ⟨skb, holds, busy, marker, same⟩ := timeout_cases (m.expire i) i
  · rw [same]
    rw [here] at idle
    exact ⟨_, rfl, slots_same m rfl, rfl, rfl, rfl, rfl, .nothing rfl rfl idle⟩
  · rw [here] at same holds busy marker
    rw [same]
    refine ⟨_, update_idem .., ?_, rfl, rfl, rfl, rfl, .sent skb holds busy marker rfl rfl⟩
    refine (slots_same (m.expire i) ?_).trans (slots_same m rfl)
    rw [here]

theorem Sound.timeout (sound : Sound m) (i : Fin amlTcpSessNum) : Sound ((m.expire i).amlTcpAckTimeout i).1 := by
  obtain ⟨t, tcpInfo, slots, flow, -⟩ := expired_cases m i
  refine sound.same slots fun j _ => ?_
  rw [tcpInfo]
  by_cases here : j = i
  · rw [here, update_self, flow]
  · rw [update_of_ne here]

end AckMgr

theorem sound_init (bus : BusType) (hz : Nat) (jiffies : BitVec 64) : (amlTcpDelayAckInit bus hz jiffies).Sound where
  slots := by
    constructor
    · show (0 : Int) = Slots.busyNum fun _ => false
      simp [Slots.busyNum]
    · rintro i -
      rfl
  unique i j busy := by cases busy

end W2l.Tcp
