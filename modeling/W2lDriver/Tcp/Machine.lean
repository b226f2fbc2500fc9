/-
**The ACK filter, its timers and the frames behind it.**

The filter in front of `aml_start_xmit`, the timers of the sessions, and what becomes of a frame the
filter lets go on or a timer sends: it waits in a txq, is pushed, dropped, or merged into an A-MSDU.
Only a push of the frame itself calls `aml_check_tcpack_skb` for it.

* `AckHw` — the sessions, the frames on their way, and the history of a run.
* `TableRight` — the count, the hint, the allocation, the 4-tuples, and that a session is clean when
  it is given to a flow.
-/

import W2lDriver.Tcp.Session

namespace W2l.Tcp

open Cmd (BusType)
open Lib (System Slots)
open Option (map_eq_some_iff some.inj)
open Function (update_of_ne update_self)

/-! ### State -/

/-- The end of a frame. -/
inductive Outcome
  | transmitted (tx : AckTx)
  | freed (skb : Skb)
  deriving DecidableEq

def Outcome.skb : Outcome → Skb
  | .transmitted tx => tx.skb
  | .freed skb => skb

structure AckHw where
  mgr : AckMgr
  nextId : Nat := 0
  /-- Behind the filter, up to the push. -/
  queued : List AckTx := []
  /-- Merged into an A-MSDU of another frame. -/
  merged : List AckTx := []
  /-- All calls of the filter. -/
  submitted : List AckTx := []
  /-- The frames the filter returned 1 for. -/
  kept : List Skb := []
  /-- The frames that went on, at once or with a timer. -/
  emitted : List Skb := []
  /-- The frames that were ACKs with other information, by option or by window. -/
  ackInfo : List Skb := []
  /-- The sessions as they were when they were taken. -/
  taken : List SessInfo := []
  outcomes : List Outcome := []

def ackInit (bus : BusType) (hz : Nat) (jiffies : BitVec 64) : AckHw where
  mgr := amlTcpDelayAckInit bus hz jiffies

/-- What `aml_send_tcp_ack` comes to. -/
inductive Sent
  | queued
  /-- Recovery, no DMA mapping, or an inactive txq. -/
  | freed
  /-- `kmem_cache_alloc` fails: it frees a pointer it has not set yet. -/
  | noHeader
  deriving DecidableEq

inductive AckAct
  /-- `aml_filter_tx_tcp_ack`; the number of the frame is the next one. -/
  | filter (jiffies : BitVec 64) (tx : AckTx)
  /-- The timer of a session expires. -/
  | timeout (i : Fin amlTcpSessNum) (sent : Sent)
  /-- `aml_tx_push` of a frame, which is `len` long by then, and `aml_check_tcpack_skb`. -/
  | push (id : Nat) (len : BitVec 32)
  | drop (id : Nat)
  /-- `aml_amsdu_add_subframe` takes the frame, and the A-MSDU is pushed or dropped. -/
  | aggregate (id : Nat)
  | pushAmsdu (id : Nat)
  | dropAmsdu (id : Nat)
  /-- `aml_check_tcpack_skb` for a frame the filter has not seen. -/
  | check (skb : Nat) (len : BitVec 32)

def AckAct.Own : AckAct → Prop
  | .filter _ _ => False
  | _ => True

namespace AckHw

/-! ### Steps -/

def numbered (s : AckHw) (tx : AckTx) : AckTx := { tx with skb := { tx.skb with id := s.nextId } }

def filter (s : AckHw) (jiffies : BitVec 64) (tx : AckTx) : AckHw :=
  let tx := s.numbered tx
  let f := s.mgr.amlFilterTxTcpAck jiffies tx
  { s with
    mgr := f.mgr
    nextId := s.nextId + 1
    submitted := s.submitted ++ [tx]
    queued := if f.ret then s.queued else s.queued ++ [tx]
    emitted := if f.ret then s.emitted else s.emitted ++ [tx.skb]
    kept := if f.ret then s.kept ++ [tx.skb] else s.kept
    ackInfo := if f.type = .ackInfo then s.ackInfo ++ [tx.skb] else s.ackInfo
    taken := s.taken ++ f.taken.toList
    outcomes := s.outcomes ++ f.dropSkb.toList.map .freed }

/-- `aml_send_tcp_ack`. -/
def send (s : AckHw) (tx : AckTx) : Sent → AckHw
  | .queued => { s with queued := s.queued ++ [tx], emitted := s.emitted ++ [tx.skb] }
  | .freed => { s with outcomes := s.outcomes ++ [.freed tx.skb] }
  | .noHeader => s

def timeout (s : AckHw) (i : Fin amlTcpSessNum) (sent : Sent) : Option AckHw :=
  if (s.mgr.tcpInfo i).timer then
    match (s.mgr.expire i).amlTcpAckTimeout i with
    | (mgr, some tx) => some ({ s with mgr := mgr }.send tx sent)
    | (mgr, none) => some { s with mgr := mgr }
  else none

def pick (l : List AckTx) (id : Nat) : Option AckTx := l.find? fun tx => tx.skb.id = id

def step (s : AckHw) : AckAct → Option AckHw
  | .filter jiffies tx => some (s.filter jiffies tx)
  | .timeout i sent => s.timeout i sent
  | .push id len => (pick s.queued id).map fun tx =>
      { s with
        mgr := s.mgr.amlCheckTcpackSkb id len
        queued := s.queued.erase tx
        outcomes := s.outcomes ++ [.transmitted tx] }
  | .drop id => (pick s.queued id).map fun tx =>
      { s with queued := s.queued.erase tx, outcomes := s.outcomes ++ [.freed tx.skb] }
  | .aggregate id => (pick s.queued id).map fun tx =>
      { s with queued := s.queued.erase tx, merged := s.merged ++ [tx] }
  | .pushAmsdu id => (pick s.merged id).map fun tx =>
      { s with merged := s.merged.erase tx, outcomes := s.outcomes ++ [.transmitted tx] }
  | .dropAmsdu id => (pick s.merged id).map fun tx =>
      { s with merged := s.merged.erase tx, outcomes := s.outcomes ++ [.freed tx.skb] }
  | .check skb len => some { s with mgr := s.mgr.amlCheckTcpackSkb skb len }

end AckHw

def ackSystem (bus : BusType) (hz : Nat) (jiffies : BitVec 64) : System AckHw AckAct where
  init := ackInit bus hz jiffies
  step := AckHw.step

/-! ### What a step changes -/

/-- **What a step does to the sessions.** -/
inductive MgrCase (s s' : AckHw) : AckAct → Prop
  | filter (jiffies : BitVec 64) (tx : AckTx) (next : s' = s.filter jiffies tx) : MgrCase s s' (.filter jiffies tx)
  | timeout (i : Fin amlTcpSessNum) (sent : Sent) (pending : (s.mgr.tcpInfo i).timer = true)
      (mgr : s'.mgr = ((s.mgr.expire i).amlTcpAckTimeout i).1) (taken : s'.taken = s.taken) :
      MgrCase s s' (.timeout i sent)
  | check (a : AckAct) (skb : Nat) (len : BitVec 32)
      (mgr : s'.mgr = s.mgr.amlCheckTcpackSkb skb len) (taken : s'.taken = s.taken) : MgrCase s s' a
  | none (a : AckAct) (mgr : s'.mgr = s.mgr) (taken : s'.taken = s.taken) : MgrCase s s' a

theorem mgr_cases {s s' : AckHw} {a : AckAct} (stepped : s.step a = some s') : MgrCase s s' a := by
  cases a with
  | filter jiffies tx => exact .filter jiffies tx (some.inj stepped).symm
  | timeout i sent =>
    simp only [AckHw.step, AckHw.timeout] at stepped
    split at stepped
    case isFalse => cases stepped
    case isTrue pending =>
      split at stepped
      case h_1 mgr tx fired =>
        obtain rfl := some.inj stepped
        refine .timeout i sent pending ?_ ?_
        · rw [fired]
          cases sent <;> rfl
        · cases sent <;> rfl
      case h_2 mgr fired =>
        obtain rfl := some.inj stepped
        exact .timeout i sent pending (by rw [fired]) rfl
  | push id len =>
    obtain ⟨tx, -, rfl⟩ := map_eq_some_iff.mp stepped
    exact .check _ id len rfl rfl
  | drop id =>
    obtain ⟨tx, -, rfl⟩ := map_eq_some_iff.mp stepped
    exact .none _ rfl rfl
  | aggregate id =>
    obtain ⟨tx, -, rfl⟩ := map_eq_some_iff.mp stepped
    exact .none _ rfl rfl
  | pushAmsdu id =>
    obtain ⟨tx, -, rfl⟩ := map_eq_some_iff.mp stepped
    exact .none _ rfl rfl
  | dropAmsdu id =>
    obtain ⟨tx, -, rfl⟩ := map_eq_some_iff.mp stepped
    exact .none _ rfl rfl
  | check skb len =>
    obtain rfl := some.inj stepped
    exact .check _ skb len rfl rfl

/-! ### The table -/

variable {bus : BusType} {hz : Nat} {jiffies : BitVec 64} {s s' : AckHw}

theorem sound_step {a : AckAct} (sound : s.mgr.Sound) (stepped : s.step a = some s') : s'.mgr.Sound := by
  cases mgr_cases stepped with
  | filter jiffies tx next =>
    rw [next]
    exact sound.filter jiffies _
  | timeout i sent pending mgr =>
    rw [mgr]
    exact sound.timeout i
  | check a skb len mgr =>
    rw [mgr]
    exact sound.check skb len
  | none a mgr =>
    rw [mgr]
    exact sound

theorem sound_of_reachable {guard : AckHw → AckAct → Prop}
    (reach : (ackSystem bus hz jiffies).Reachable guard s) : s.mgr.Sound :=
  reach.invariant (I := fun s : AckHw => s.mgr.Sound) (sound_init bus hz jiffies)
    fun _ _ _ _ sound _ stepped => sound_step sound stepped

/-- A session holds no frame, no marker and no pending timer. -/
def Clean (t : SessInfo) : Prop := t.skb = none ∧ t.inTxqSkb = none ∧ t.timer = false

instance (t : SessInfo) : Decidable (Clean t) := inferInstanceAs (Decidable (_ ∧ _))

/-- **The session table.** -/
structure TableRight (s : AckHw) : Prop where
  usedNum : s.mgr.usedNum = Slots.busyNum fun i => (s.mgr.tcpInfo i).busy
  freeIndex : ∀ i ∈ s.mgr.freeIndex, (s.mgr.tcpInfo i).busy = false
  /-- The filter allocates from the aged table. -/
  alloc : ∀ jiffies i m, (s.mgr.amlTcpSessAgeout jiffies).amlAllocTcpSess = some (i, m) →
    ((s.mgr.amlTcpSessAgeout jiffies).tcpInfo i).busy = false
  allocFails : ∀ jiffies, (s.mgr.amlTcpSessAgeout jiffies).amlAllocTcpSess = none →
    ∀ i, ((s.mgr.amlTcpSessAgeout jiffies).tcpInfo i).busy = true
  unique : ∀ i j, (s.mgr.tcpInfo i).busy = true → (s.mgr.tcpInfo j).busy = true →
    (s.mgr.tcpInfo i).flow = (s.mgr.tcpInfo j).flow → i = j
  taken : ∀ t ∈ s.taken, Clean t

/-- **Only clean sessions are aged out.** -/
def AgesClean (s : AckHw) : AckAct → Prop
  | .filter jiffies tx => ¬ s.mgr.Unseen tx → ∀ i, s.mgr.AgedOut jiffies i → Clean (s.mgr.tcpInfo i)
  | _ => True

/-- A session that is not busy is clean, and so was every one that was taken. -/
structure CleanInv (s : AckHw) : Prop where
  idle : ∀ i, (s.mgr.tcpInfo i).busy = false → Clean (s.mgr.tcpInfo i)
  taken : ∀ t ∈ s.taken, Clean t

theorem CleanInv.filter (inv : CleanInv s) (sound : s.mgr.Sound) {jiffies : BitVec 64} {tx : AckTx}
    (clean : AgesClean s (.filter jiffies tx)) : CleanInv (s.filter jiffies tx) := by
  by_cases unseen : s.mgr.Unseen (s.numbered tx)
  · have result : s.mgr.amlFilterTxTcpAck jiffies (s.numbered tx) = { mgr := s.mgr, ret := false } :=
      AckMgr.filter_unseen unseen
    refine ⟨?_, ?_⟩
    · have same : (s.filter jiffies tx).mgr = s.mgr := congrArg AckMgr.Filtered.mgr result
      rw [same]
      exact inv.idle
    · show ∀ t ∈ s.taken ++ (s.mgr.amlFilterTxTcpAck jiffies (s.numbered tx)).taken.toList, _
      rw [result]
      simpa using inv.taken
  · have idle : ∀ i, ((s.mgr.aged jiffies (s.numbered tx)).tcpInfo i).busy = false →
        Clean ((s.mgr.aged jiffies (s.numbered tx)).tcpInfo i) := fun i => by
      rw [(AckMgr.aged_spec ..).1, AckMgr.ageout_tcpInfo]
      split
      case isTrue aged => exact fun _ => clean unseen i aged
      case isFalse => exact inv.idle i
    have next : (s.filter jiffies tx).mgr = (s.mgr.amlFilterTxTcpAck jiffies (s.numbered tx)).mgr := rfl
    have log : (s.filter jiffies tx).taken =
        s.taken ++ (s.mgr.amlFilterTxTcpAck jiffies (s.numbered tx)).taken.toList := rfl
    cases AckMgr.filter_cases s.mgr jiffies (s.numbered tx) unseen with
    | passed tcpInfo slots ret dropSkb taken =>
      refine ⟨?_, ?_⟩
      · rw [next, tcpInfo]
        exact idle
      · rw [log, taken]
        simpa using inv.taken
    | opened ack i t new pick tcpInfo slots flow seq sta timer skb busy ret dropSkb taken =>
      have free := Slots.pick_free (sound.aged jiffies (s.numbered tx)).slots pick
      refine ⟨fun j idling => ?_, ?_⟩
      · rw [next, tcpInfo] at idling ⊢
        have other : j ≠ i := by
          rintro rfl
          rw [update_self, busy] at idling
          cases idling
        rw [update_of_ne other] at idling ⊢
        exact idle j idling
      · rw [log, taken]
        intro t member
        rcases List.mem_append.mp member with old | this
        · exact inv.taken t old
        · obtain rfl := List.mem_singleton.mp this
          exact idle i free
    | replaced ack i t found tcpInfo slots flow busy sta how taken =>
      have wasBusy := (AckMgr.find_some found).1
      refine ⟨fun j idling => ?_, ?_⟩
      · rw [next, tcpInfo] at idling ⊢
        have other : j ≠ i := by
          rintro rfl
          rw [update_self, busy, wasBusy] at idling
          cases idling
        rw [update_of_ne other] at idling ⊢
        exact idle j idling
      · rw [log, taken]
        simpa using inv.taken

theorem CleanInv.step (inv : CleanInv s) (sound : s.mgr.Sound) {a : AckAct} (clean : AgesClean s a)
    (stepped : s.step a = some s') : CleanInv s' := by
  cases mgr_cases stepped with
  | filter jiffies tx next =>
    rw [next]
    exact inv.filter sound clean
  | timeout i sent pending mgr taken =>
    -- Its timer is pending: the session is busy.
    have busy : (s.mgr.tcpInfo i).busy = true := by
      cases idle : (s.mgr.tcpInfo i).busy with
      | true => rfl
      | false => exact absurd ((inv.idle i idle).2.2.symm.trans pending) Bool.false_ne_true
    obtain ⟨t, tcpInfo, -, -, -, still, -⟩ := AckMgr.expired_cases s.mgr i
    refine ⟨fun j idle => ?_, taken ▸ inv.taken⟩
    rw [mgr, tcpInfo] at idle ⊢
    have other : j ≠ i := by
      rintro rfl
      rw [update_self, still, busy] at idle
      cases idle
    rw [update_of_ne other] at idle ⊢
    exact inv.idle j idle
  | check a skb len mgr taken =>
    refine ⟨fun i idle => ?_, taken ▸ inv.taken⟩
    obtain ⟨marker, same, cleared⟩ := AckMgr.check_tcpInfo s.mgr skb len i
    rw [mgr, same] at idle ⊢
    have before := inv.idle i idle
    refine ⟨before.1, ?_, before.2.2⟩
    rcases cleared with none | kept
    · exact none
    · exact kept.trans before.2.1
  | none a mgr taken =>
    refine ⟨?_, taken ▸ inv.taken⟩
    rw [mgr]
    exact inv.idle

/-- **TCP ACK session table.** The count, the hint, the allocation and the 4-tuples are right in every
run, and a session is clean when it is given to a flow in every run that ages out clean sessions. -/
theorem table_right (reach : (ackSystem bus hz jiffies).Reachable AgesClean s) : TableRight s := by
  have sound := sound_of_reachable reach
  have clean : CleanInv s := by
    refine reach.invariant ⟨fun _ _ => ⟨rfl, rfl, rfl⟩, by simp [ackSystem, ackInit]⟩ ?_
    exact fun _ _ _ before inv allowed stepped => inv.step (sound_of_reachable before) allowed stepped
  constructor
  case usedNum => exact sound.slots.used
  case freeIndex => exact sound.slots.hint
  case alloc =>
    intro jiffies i m alloc
    rw [AckMgr.alloc_eq] at alloc
    obtain ⟨j, pick, same⟩ := Option.map_eq_some_iff.mp alloc
    obtain ⟨rfl, -⟩ := Prod.mk.inj same
    exact Slots.pick_free (sound.ageout jiffies).slots pick
  case allocFails =>
    intro jiffies alloc
    rw [AckMgr.alloc_eq, Option.map_eq_none_iff] at alloc
    exact Slots.pick_none (sound.ageout jiffies).slots alloc
  case unique => exact sound.unique
  case taken => exact clean.taken

/-! ### Runs -/

instance (s : AckHw) (a : AckAct) : Decidable (AgesClean s a) :=
  match a with
  | .filter jiffies tx => inferInstanceAs (Decidable (¬ s.mgr.Unseen tx →
      ∀ i, s.mgr.AgedOut jiffies i → Clean (s.mgr.tcpInfo i)))
  | .timeout _ _ | .push _ _ | .drop _ | .aggregate _ | .pushAmsdu _ | .dropAmsdu _ | .check _ _ =>
    .isTrue trivial

/-- The SYN-ACK that makes the windows of `ackFrame` large. -/
def synAck : AckTx :=
  ⟨0, 0, ⟨0, 60, .notAck, ⟨0, 0, 0, 0⟩, 0, 0, 128⟩⟩

def ackFrame (source : BitVec 16) (seq : BitVec 32) : AckTx :=
  ⟨0, 0, ⟨0, 54, .ack, ⟨source, 80, 1, 2⟩, seq, 2000, 0⟩⟩

/-- A session is used, its timer expires, and a second flow takes it when it is aged out. -/
theorem table_right_reused : ∃ s, (ackSystem .sdio 250 0).Reachable AgesClean s ∧ s.taken.length = 2 ∧
      (s.mgr.tcpInfo 0).flow.source = 2 ∧ s.mgr.usedNum = 1 ∧ TableRight s := by
  have reach := System.reachable_of_run (ackSystem .sdio 250 0) AgesClean
    [.filter 0 synAck, .filter 0 (ackFrame 1 1), .timeout 0 .queued, .filter 3000 (ackFrame 2 1)]
    (by decide +kernel)
  exact ⟨_, reach, by decide +kernel, by decide +kernel, by decide +kernel, table_right reach⟩

/-- **A session is given away with the frame of another flow.** The timer gave up because the frame of
the marker was still queued; then the session was aged out. -/
theorem table_dirty : ¬ ∀ bus hz jiffies s, (ackSystem bus hz jiffies).Reachable (fun _ _ => True) s →
      TableRight s := by
  intro right
  have reach := System.reachable_of_run (ackSystem .sdio 250 0) (fun _ _ => True)
    [.filter 0 synAck, .filter 0 (ackFrame 1 1), .filter 0 (ackFrame 1 2), .filter 0 (ackFrame 1 3),
      .timeout 0 .queued, .filter 3000 (ackFrame 2 1)]
    (by decide +kernel)
  have taken := (right .sdio 250 0 _ reach).taken
  revert taken
  decide +kernel

end W2l.Tcp
