/-
**The loops that remove the stations of an AP end where their calls are let through.**

`aml_cfg80211_del_station` (`fullmac/aml_main.c`), called with no address until `ap.sta_list` is empty by
`aml_cfg80211_stop_ap`, `aml_recy_vif_reset` and `aml_recy_vif_restart` (`aml_recy.c`); its command is
sent by `aml_send_msg` (`aml_msg_tx.c`). A call that is refused, or whose command fails, leaves the list as
it is, and the loop calls again.

* `DelEnv`, `sentDel` — what a call finds, and the result of its command.
* `Removal`, `removed` — the loop; `removed_delAll` says that it is the one of `StaHw.delAll`.
* `Passes` — **a call is let through**.
-/

import Mathlib.Data.Nat.Count
import W2lDriver.Cmd.Manager
import W2lDriver.Sta.Invariant

namespace W2l.Sta

open Cmd (AmlHw SendEnv SendReq MsgId eBusy eIntr eNoMem ePipe eTimedOut mmSubSetSuspendReq
  mmSubScanuCancelReq mmSubShutdown)
open StaHw (delAll)

/-! ### One call -/

abbrev meStaDelReq : MsgId := 5129
abbrev meStaDelCfm : MsgId := 5130

/-- The request of `aml_send_me_sta_del`; the first word of its parameter holds the index. -/
def staDelReq (i : ℕ) : SendReq where
  msg := { id := meStaDelReq, param := [i] }
  reqcfm := true
  reqid := meStaDelCfm

/-- How the wait for a command ends. -/
inductive Waited
  | confirmed
  | timedOut
  | drained
  deriving DecidableEq

/-- `cmd->result`. -/
def Waited.result : Waited → Int
  | .confirmed => 0
  | .timedOut => eTimedOut
  | .drained => eIntr

/-- What a call finds. -/
structure DelEnv where
  /-- `AML_RECY_DEL_STA_PROC` at each look of the call. -/
  looks : ℕ → Bool := fun _ => false
  /-- `aml_msg_zalloc` has memory. -/
  msgAlloc : Bool := true
  hw : AmlHw
  send : SendEnv := {}
  waited : Waited := .confirmed
  /-- The manager is initialised again before the next call. -/
  reinit : Bool := false

/-- `while (aml_recy_flags_chk(AML_RECY_DEL_STA_PROC))` from a look on, with `cnt` and so many rounds left:
whether the call is refused. -/
def waitDelSta (looks : ℕ → Bool) : ℕ → ℕ → ℕ → Bool
  | 0, _, _ => true
  | rounds + 1, look, cnt =>
    if looks look then if cnt > 20 then true else waitDelSta looks rounds (look + 1) (cnt + 1) else false

def refused (looks : ℕ → Bool) : Bool := looks 0 && waitDelSta looks 22 1 0

/-- `aml_send_me_sta_del`, with the manager crashed or not. -/
def sentDel (env : DelEnv) (crashed : Bool) (i : ℕ) : Int :=
  if env.msgAlloc = false then eNoMem
  else
    match env.hw.sendBypass (staDelReq i) env.send with
    | some ret => ret
    | none =>
      if crashed = true ∨ env.hw.state = .crashed then ePipe
      else if env.hw.cmds ≠ [] ∧ env.hw.queueSz = env.hw.maxQueueSz then eNoMem
      else env.waited.result

/-! ### The loop -/

/-- The driver in the loop, and whether a command of the loop that timed out has crashed the manager. -/
structure Removal (M : Type) where
  hw : StaHw M
  crashed : Bool := false

namespace Removal

variable {M : Type} [DecidableEq M] (r : Removal M) (v : ℕ)

def call (env : DelEnv) : DelCall where
  busy := refused env.looks
  sent :=
    match r.hw.found v none with
    | none => 0
    | some i => sentDel env r.crashed i

/-- One round of `while (!list_empty(&aml_vif->ap.sta_list))`. -/
def next (env : DelEnv) : Removal M :=
  if (r.hw.vif v).staList = [] then r
  else
    { hw := r.hw.delStation v none (r.call v env)
      crashed := !env.reinit && (r.crashed || decide ((r.call v env).busy = false ∧
        (r.call v env).sent = eTimedOut)) }

end Removal

section Loop

variable {M : Type} [DecidableEq M]

def removed (v : ℕ) (calls : ℕ → DelEnv) (r : Removal M) : ℕ → Removal M
  | 0 => r
  | n + 1 => (removed v calls r n).next v (calls n)

end Loop

/-! ### The calls that are let through -/

/-- `aml_send_msg` makes a command of the request: the driver is not suspended, unless a recovery is going on
or the index of the station is that of one of the requests that may be sent then; the messages of the
firmware are not being recovered; and the driver is up. -/
def Sendable (env : DelEnv) (i : ℕ) : Prop :=
  (env.send.suspended = true → env.send.recyOngoing = true ∨
      i = mmSubSetSuspendReq ∨ i = mmSubScanuCancelReq ∨ i = mmSubShutdown) ∧
    env.send.ipcRecyOngoing = false ∧ env.hw.devStarted = true ∧ env.send.ipcEnv = true ∧
    env.send.kzalloc = true

instance (env : DelEnv) (i : ℕ) : Decidable (Sendable env i) :=
  inferInstanceAs (Decidable (_ ∧ _ ∧ _ ∧ _ ∧ _))

/-- The manager is crashed, or it has room and the firmware confirms in time. -/
def Served (env : DelEnv) (crashed : Bool) : Prop :=
  crashed = true ∨ env.hw.state = .crashed ∨
    (env.hw.cmds ≠ [] → env.hw.queueSz ≠ env.hw.maxQueueSz) ∧ env.waited = .confirmed

instance (env : DelEnv) (crashed : Bool) : Decidable (Served env crashed) :=
  inferInstanceAs (Decidable (_ ∨ _ ∨ _))

/-- **A call is let through**: at one of its looks no other thread is removing a station, there is memory for
its message, and the bus is gone or the command is made and served. -/
def Passes (env : DelEnv) (crashed : Bool) (i : ℕ) : Prop :=
  (∃ look < 23, env.looks look = false) ∧ env.msgAlloc = true ∧
    ((env.hw.busType ≠ .pcie ∧ env.send.busErr = true) ∨ Sendable env i ∧ Served env crashed)

instance (env : DelEnv) (crashed : Bool) (i : ℕ) : Decidable (Passes env crashed i) :=
  inferInstanceAs (Decidable (_ ∧ _ ∧ (_ ∨ _)))

/-- The loop has a station to remove, and the call for it is let through. -/
def Removal.Passes {M : Type} (r : Removal M) (v : ℕ) (env : DelEnv) : Prop :=
  ∃ i ∈ (r.hw.vif v).staList.head?, W2l.Sta.Passes env r.crashed i

instance {M : Type} (r : Removal M) (v : ℕ) (env : DelEnv) : Decidable (r.Passes v env) :=
  inferInstanceAs (Decidable (∃ i ∈ (r.hw.vif v).staList.head?, W2l.Sta.Passes env r.crashed i))

/-! ### The length of the list -/

section Call

variable {env : DelEnv} {crashed : Bool} {i : ℕ}

theorem waitDelSta_eq (looks : ℕ → Bool) (rounds look cnt : ℕ) (sum : rounds + cnt = 22) :
    waitDelSta looks rounds look cnt = true ↔ ∀ k < rounds, looks (look + k) = true := by
  induction rounds generalizing look cnt with
  | zero => exact iff_of_true rfl fun k less => absurd less (Nat.not_lt_zero k)
  | succ rounds ih =>
    have split : (∀ k < rounds + 1, looks (look + k) = true) ↔
        looks look = true ∧ ∀ k < rounds, looks (look + 1 + k) = true := by
      constructor
      · intro all
        refine ⟨all 0 (Nat.succ_pos _), fun k less => ?_⟩
        rw [Nat.add_assoc, Nat.add_comm 1 k]
        exact all (k + 1) (Nat.succ_lt_succ less)
      · rintro ⟨first, rest⟩ k less
        cases k with
        | zero => exact first
        | succ k =>
          rw [Nat.add_comm k 1, ← Nat.add_assoc]
          exact rest k (Nat.lt_of_succ_lt_succ less)
    unfold waitDelSta
    rw [split]
    split
    case isTrue set =>
      rw [and_iff_right set]
      split
      case isTrue last =>
        -- the last round: no look is left
        obtain rfl : rounds = 0 := by omega
        exact iff_of_true rfl fun k less => absurd less (Nat.not_lt_zero k)
      case isFalse more => exact ih (look + 1) (cnt + 1) (by omega)
    case isFalse clear => exact iff_of_false Bool.false_ne_true fun both => clear both.1

theorem refused_eq_false (looks : ℕ → Bool) : refused looks = false ↔ ∃ look < 23, looks look = false := by
  have all : refused looks = true ↔ ∀ look < 23, looks look = true := by
    unfold refused
    rw [Bool.and_eq_true, waitDelSta_eq looks 22 1 0 rfl]
    constructor
    · rintro ⟨first, rest⟩ look less
      cases look with
      | zero => exact first
      | succ k =>
        rw [Nat.add_comm]
        exact rest k (Nat.lt_of_succ_lt_succ less)
    · exact fun all => ⟨all 0 (by decide), fun k less => all (1 + k) (by omega)⟩
  rw [← Bool.not_eq_true, all]
  push Not
  simp only [Bool.not_eq_true]

/-- What `aml_send_msg` does with the request. -/
theorem sendBypass_cases (env : DelEnv) (i : ℕ) :
    (env.hw.busType ≠ .pcie ∧ env.send.busErr = true) ∧ env.hw.sendBypass (staDelReq i) env.send = some 0 ∨
    ¬(env.hw.busType ≠ .pcie ∧ env.send.busErr = true) ∧
      (Sendable env i ∧ env.hw.sendBypass (staDelReq i) env.send = none ∨
        ¬Sendable env i ∧ ∃ ret, env.hw.sendBypass (staDelReq i) env.send = some ret ∧ ¬StaHw.Taken ret) := by
  have allowed : Cmd.allowedBeforeStart (staDelReq i).reqid = false := rfl
  have index : (staDelReq i).msg.param0 = i := rfl
  have busy : ¬StaHw.Taken eBusy := by decide
  have noMem : ¬StaHw.Taken eNoMem := by decide
  unfold AmlHw.sendBypass Sendable
  rw [allowed, index]
  by_cases gone : env.hw.busType ≠ .pcie ∧ env.send.busErr = true
  · exact .inl ⟨gone, if_pos gone⟩
  · refine .inr ⟨gone, ?_⟩
    rw [if_neg gone]
    split
    case isTrue suspended =>
      refine .inr ⟨fun ⟨up, _⟩ => ?_, _, rfl, busy⟩
      have := up suspended.1
      tauto
    case isFalse awake =>
      have up : env.send.suspended = true → env.send.recyOngoing = true ∨
          i = mmSubSetSuspendReq ∨ i = mmSubScanuCancelReq ∨ i = mmSubShutdown := by tauto
      split
      case isTrue ipc =>
        refine .inr ⟨fun ⟨_, none', _⟩ => ?_, _, rfl, busy⟩
        exact Bool.false_ne_true (none'.symm.trans ipc)
      case isFalse ipc =>
        rw [Bool.not_eq_true] at ipc
        split
        case isTrue down => exact .inr ⟨fun ⟨_, _, started, _⟩ => down.1 started, _, rfl, busy⟩
        case isFalse started =>
          have started' : env.hw.devStarted = true := by tauto
          split
          case isTrue down => exact .inr ⟨fun ⟨_, _, _, ipcEnv, _⟩ => down ipcEnv, _, rfl, busy⟩
          case isFalse ipcEnv =>
            split
            case isTrue none' => exact .inr ⟨fun ⟨_, _, _, _, memory⟩ => none' memory, _, rfl, noMem⟩
            case isFalse memory => exact .inl ⟨⟨up, ipc, started', not_not.mp ipcEnv, not_not.mp memory⟩, rfl⟩

theorem served_taken (env : DelEnv) (crashed : Bool) :
    StaHw.Taken (if crashed = true ∨ env.hw.state = .crashed then ePipe
      else if env.hw.cmds ≠ [] ∧ env.hw.queueSz = env.hw.maxQueueSz then eNoMem
      else env.waited.result) ↔ Served env crashed := by
  unfold Served
  split
  case isTrue down =>
    refine iff_of_true (Or.inr rfl) ?_
    tauto
  case isFalse up =>
    rw [← or_assoc, or_iff_right up]
    split
    case isTrue full => exact iff_of_false (by decide) fun room => room.1 full.1 full.2
    case isFalse room =>
      rw [and_iff_right fun some' full => room ⟨some', full⟩]
      cases env.waited with
      | confirmed => exact iff_of_true (by decide) rfl
      | timedOut => exact iff_of_false (by decide) (by decide)
      | drained => exact iff_of_false (by decide) (by decide)

theorem sentDel_taken : StaHw.Taken (sentDel env crashed i) ↔ env.msgAlloc = true ∧
    ((env.hw.busType ≠ .pcie ∧ env.send.busErr = true) ∨ Sendable env i ∧ Served env crashed) := by
  unfold sentDel
  split
  case isTrue none' =>
    refine iff_of_false (by decide) fun both => ?_
    exact Bool.false_ne_true (none'.symm.trans both.1)
  case isFalse memory =>
    rw [Bool.not_eq_false] at memory
    rw [and_iff_right memory]
    rcases sendBypass_cases env i with ⟨gone, same⟩ | ⟨up, ⟨sendable, same⟩ | ⟨kept, ret, same, lost⟩⟩
    · rw [same]
      exact iff_of_true (Or.inl rfl) (.inl gone)
    · rw [same, or_iff_right up, and_iff_right sendable]
      exact served_taken env crashed
    · rw [same]
      exact iff_of_false lost fun either => either.elim up fun both => kept both.1

end Call

section Loop

variable {M : Type} [DecidableEq M] {r : Removal M} {v : ℕ}

theorem found_head : r.hw.found v none = (r.hw.vif v).staList.head? := by
  unfold StaHw.found
  cases (r.hw.vif v).staList with
  | nil => rfl
  | cons i rest => rfl

theorem next_staList (env : DelEnv) : ((r.next v env).hw.vif v).staList =
    if r.Passes v env then (r.hw.vif v).staList.tail else (r.hw.vif v).staList := by
  unfold Removal.next
  split
  case isTrue empty =>
    rw [empty, List.tail_nil, ite_self]
  case isFalse some' =>
    obtain ⟨i, rest, list⟩ := List.exists_cons_of_ne_nil some'
    have found : r.hw.found v none = some i := by
      rw [found_head, list, List.head?_cons]
    have sent : (r.call v env).sent = sentDel env r.crashed i := by
      unfold Removal.call
      rw [found]
    have passes : r.Passes v env ↔ (r.call v env).busy = false ∧ StaHw.Taken (r.call v env).sent := by
      rw [sent, sentDel_taken]
      unfold Removal.Passes
      rw [list, List.head?_cons]
      show _ ↔ refused env.looks = false ∧ _
      rw [refused_eq_false]
      exact ⟨fun ⟨_, same, passes⟩ => Option.some.inj same ▸ passes, fun passes => ⟨i, rfl, passes⟩⟩
    show ((r.hw.delStation v none (r.call v env)).vif v).staList = _
    by_cases busy : (r.call v env).busy = true
    · rw [if_neg fun passed => Bool.false_ne_true ((passes.mp passed).1.symm.trans busy)]
      unfold StaHw.delStation
      rw [if_pos busy]
    · rw [Bool.not_eq_true] at busy
      rw [delStation_found busy found, dropSta_vif]
      by_cases taken : StaHw.Taken (r.call v env).sent
      · rw [if_pos (passes.mpr ⟨busy, taken⟩)]
        show (if _ then _ else _) = _
        rw [if_pos ⟨rfl, taken⟩, list, List.erase_cons_head, List.tail_cons]
      · rw [if_neg fun passed => taken (passes.mp passed).2]
        exact if_neg fun both => taken both.2

theorem removed_length (calls : ℕ → DelEnv) (n : ℕ) :
    ((removed v calls r n).hw.vif v).staList.length = (r.hw.vif v).staList.length -
      Nat.count (fun k => (removed v calls r k).Passes v (calls k)) n := by
  induction n with
  | zero => rw [Nat.count_zero, Nat.sub_zero, removed]
  | succ n ih =>
    rw [Nat.count_succ, removed, next_staList]
    split
    · rw [List.length_tail, ih, Nat.sub_sub]
    · rw [ih, Nat.add_zero]

def delCalls (v : ℕ) (calls : ℕ → DelEnv) (r : Removal M) (n : ℕ) : List DelCall :=
  (List.range n).map fun k => (removed v calls r k).call v (calls k)

theorem delAll_append (calls : List DelCall) (call : DelCall) (s : StaHw M) : delAll v (calls ++ [call]) s =
      if ((delAll v calls s).vif v).staList = [] then delAll v calls s
      else (delAll v calls s).delStation v none call := by
  induction calls generalizing s with
  | nil => rfl
  | cons first rest ih =>
    have cons : ∀ l, delAll v (first :: l) s = if (s.vif v).staList = [] then s
        else delAll v l (s.delStation v none first) := fun _ => rfl
    rw [List.cons_append, cons, cons]
    by_cases empty : (s.vif v).staList = []
    · rw [if_pos empty, if_pos empty, if_pos empty]
    · rw [if_neg empty, if_neg empty]
      exact ih _

theorem removed_delAll (r : Removal M) (v : ℕ) (calls : ℕ → DelEnv) (n : ℕ) :
    delAll v (delCalls v calls r n) r.hw = (removed v calls r n).hw := by
  induction n with
  | zero => rfl
  | succ n ih =>
    unfold delCalls at ih ⊢
    rw [List.range_succ, List.map_append, List.map_singleton, delAll_append, ih, removed]
    unfold Removal.next
    split
    · rfl
    · rfl

/-- **The loop ends if and only if as many calls are let through as there are stations.** -/
theorem removal_ends_iff (r : Removal M) (v : ℕ) (calls : ℕ → DelEnv) :
    (∃ n, ((StaHw.delAll v (delCalls v calls r n) r.hw).vif v).staList = []) ↔
      ∃ n, (r.hw.vif v).staList.length ≤ Nat.count (fun k => (removed v calls r k).Passes v (calls k)) n := by
  refine exists_congr fun n => ?_
  rw [removed_delAll, ← List.length_eq_zero_iff, removed_length, Nat.sub_eq_zero_iff_le]

end Loop

def oneStation : StaHw ℕ where
  sta _ := { valid := true, active := true, macAddr := 7 }
  vif _ := { iftype := .ap, staList := [0] }
  vifs := [0]

def suspendedEnv : DelEnv where
  hw := { busType := .sdio, devStarted := true }
  send := { suspended := true }

/-- **While the driver is suspended, the loop calls for ever.** -/
theorem suspended_removal_hangs :
    ¬∃ n, ((StaHw.delAll 0 (delCalls 0 (fun _ => suspendedEnv) ⟨oneStation, false⟩ n) oneStation).vif 0).staList
      = [] := by
  rintro ⟨n, empty⟩
  have stays : ∀ n, ((removed 0 (fun _ => suspendedEnv) ⟨oneStation, false⟩ n).hw.vif 0).staList = [0] := by
    intro n
    induction n with
    | zero => rfl
    | succ n ih =>
      rw [removed, next_staList, if_neg, ih]
      rintro ⟨i, head, -, -, passes⟩
      rw [ih] at head
      obtain rfl := Option.some.inj head
      revert passes
      rintro (gone | ⟨sendable, -⟩)
      · exact absurd gone.2 (by decide)
      · exact absurd sendable (by decide)
  have same := removed_delAll ⟨oneStation, false⟩ 0 (fun _ => suspendedEnv) n
  rw [same, stays n] at empty
  nomatch empty

end W2l.Sta
