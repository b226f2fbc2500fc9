/-
**What becomes of a buffer that is pushed.**

`aml_tx_push` charges the credits of the TX queue and of the hardware queue whether or not the IPC
took the buffer. A host id is always left; what can go wrong is on PCIe, after `g_pci_shutdown` or
when the descriptor cannot be mapped.

* `LedgerInv.txPush`, `LedgerInv.hwqProcess`, `LedgerInv.txCfm` — the steps that move credits.
* `LedgerInv.of_reachable` — the invariant in every run.
-/

import W2lDriver.Sched.Ledger

namespace W2l.Sched

open Cmd (BusType)
open Ipc (PoolInv KnownId HostEnv)
open Lib (System)
open Option (ite_none_right_eq_some some.inj)
open List (mem_append mem_cons_self mem_singleton nodup_cons not_mem_nil)
open AmlHw (inFlight modHwq_of_ne modHwq_self modSwTxhdr_of_ne modSwTxhdr_self pushCalls txDrain)

/-! ### The counters before the call -/

theorem Scheduled.pushCounted (hw : AmlHw) (t : TxqId) : let hw1 := hw.modTxq t fun x =>
      { x with credits := s8 (x.credits - 1), pktPushed := u8Inc x.pktPushed }
    let hw2 := if (hw1.txq t).credits ≤ 0 then hw1.txqStop t {.full} else hw1
    Scheduled hw (if (hw2.txq t).pushLimit ≠ 0 then
      hw2.modTxq t fun x => { x with pushLimit := u8Dec x.pushLimit } else hw2) := by
  intro hw1 hw2
  have counted : Scheduled hw hw1 := .modTxq hw t rfl (.refl _)
  have stopped : Scheduled hw hw2 := .ite (counted.trans (.txqStop hw1 t {.full})) counted
  exact .ite (stopped.trans (.modTxq hw2 t rfl (.refl _))) stopped

theorem Scheduled.txPushCharge (hw : AmlHw) (skb : Skb) :
    Scheduled (hw.modSwTxhdr skb fun h => { h with hwQueue := (hw.txq (hw.swTxhdr skb).txq).hwq })
      (hw.txPushCharge skb) := by
  delta AmlHw.txPushCharge
  extract_lets t hw1 hw2 hw3
  have retried : hw2 = (hw.modSwTxhdr skb fun h => { h with hwQueue := (hw.txq t).hwq }).modTxq t
      fun x => if x.nbRetry ≠ 0 then x.retryGone else { x with pktSent := u8Inc x.pktSent } := by
    have hwq : (hw1.txq t).hwq = (hw.txq t).hwq := by
      rw [AmlHw.modTxq_self]
      split <;> rfl
    show hw1.modSwTxhdr skb (fun h => { h with hwQueue := (hw1.txq t).hwq }) = _
    rw [hwq]
    rfl
  have first : Scheduled (hw.modSwTxhdr skb fun h => { h with hwQueue := (hw.txq t).hwq }) hw2 := by
    rw [retried]
    refine .modTxq _ t ?_ ?_
    · split <;> rfl
    · split <;> exact .refl _
  exact (first.trans (.setMoreDataFlag hw2 skb)).trans (.pushCounted hw3 t)

namespace LedgerInv

variable {hw : AmlHw} {t : TxqId} {skb : Skb}

theorem modHwQueue (inv : LedgerInv hw) (landed : skb ∉ hw.inFlight) (q : HwqId) :
    LedgerInv (hw.modSwTxhdr skb fun h => { h with hwQueue := q }) := by
  have txq : ∀ skb', ((hw.modSwTxhdr skb fun h => { h with hwQueue := q }).swTxhdr skb').txq =
      (hw.swTxhdr skb').txq := fun skb' => by
    rcases eq_or_ne skb' skb with rfl | other
    · rw [modSwTxhdr_self]
    · rw [modSwTxhdr_of_ne _ _ _ other]
  refine { inv with credits := fun q' => ?_, queued := fun t skb' member => ?_ }
  · have queues : (hw.modSwTxhdr skb fun h => { h with hwQueue := q }).queuesInFlight = hw.queuesInFlight := by
      refine List.map_congr_left fun skb' member => ?_
      rw [modSwTxhdr_of_ne]
      rintro rfl
      exact landed member
    rw [queues]
    exact inv.credits q'
  · exact (inv.queued t skb' member).congr rfl rfl (txq skb')

end LedgerInv

theorem Held.modHwQueue {hw : AmlHw} {t : TxqId} {skb' : Skb} (held : Held hw t skb') (skb : Skb)
    (q : HwqId) : Held (hw.modSwTxhdr skb fun h => { h with hwQueue := q }) t skb' where
  toLanded := by
    refine held.toLanded.congr rfl rfl ?_
    rcases eq_or_ne skb' skb with rfl | other
    · rw [modSwTxhdr_self]
    · rw [modSwTxhdr_of_ne _ _ _ other]
  unqueued := held.unqueued

/-- **What `aml_tx_push` has done before it calls the IPC.** -/
structure Charged (hw hw' : AmlHw) (skb : Skb) : Prop where
  inv : LedgerInv hw'
  hwQueue : (hw'.swTxhdr skb).hwQueue = txqHwq (hw.swTxhdr skb).txq
  env : hw'.env = hw.env
  busType : hw'.busType = hw.busType
  pciShutdown : hw'.pciShutdown = hw.pciShutdown
  txDescSave : hw'.txDescSave = hw.txDescSave
  dmaDescs : hw'.dmaDescs = hw.dmaDescs
  credits : ∀ q, (hw'.hwq q).credits = (hw.hwq q).credits
  held : ∀ {t skb'}, Held hw t skb' → Held hw' t skb'

theorem LedgerInv.txPushCharge {hw : AmlHw} {t : TxqId} {skb : Skb} (inv : LedgerInv hw)
    (held : Held hw t skb) : Charged hw (hw.txPushCharge skb) skb := by
  have frame := Scheduled.txPushCharge hw skb
  constructor
  case inv => exact (inv.modHwQueue held.landed _).scheduled frame
  case hwQueue =>
    rw [frame.swTxhdr, modSwTxhdr_self]
    exact inv.ownHwq _
  case env => exact frame.env
  case busType => exact frame.busType
  case pciShutdown => exact frame.pciShutdown
  case txDescSave => exact frame.txDescSave
  case dmaDescs => exact frame.dmaDescs
  case credits => exact frame.credits
  case held =>
    intro t' skb' held'
    exact (held'.modHwQueue skb _).scheduled frame

/-! ### The call into the IPC -/

theorem ipcTxdescPush_eq {hw : AmlHw} (pool : PoolInv hw.env)
    (available : hw.env.txHostidAvailable ≠ []) (a2eInit : Skb → Bool) (skb : Skb) :
    hw.ipcTxdescPush a2eInit skb =
      if hw.busType = .pcie then
        if hw.pciShutdown then hw
        else { hw with
          env := (hw.env.ipcHostTxHostPtrToId skb).1
          dmaDescs := hw.dmaDescs ++ if a2eInit skb then [skb] else [] }
      else { hw with
        env := (hw.env.ipcHostTxHostPtrToId skb).1
        txDescSave := hw.txDescSave ++ [skb] } := by
  have hostid := (pool.ptrToId_available skb available).2.1
  have sdio : hw.sdioIpcTxdescPush skb = { hw with
      env := (hw.env.ipcHostTxHostPtrToId skb).1
      txDescSave := hw.txDescSave ++ [skb] } := if_neg hostid
  have pci : hw.pciIpcTxdescPush a2eInit skb = { hw with
      env := (hw.env.ipcHostTxHostPtrToId skb).1
      dmaDescs := hw.dmaDescs ++ if a2eInit skb then [skb] else [] } := by
    refine (if_neg hostid).trans ?_
    by_cases mapped : a2eInit skb = true
    · simp only [if_pos mapped]
      rfl
    · simp only [if_neg mapped, List.append_nil]
      rfl
  unfold AmlHw.ipcTxdescPush
  split
  case h_1 pcie => rw [if_pos pcie, pci]
  case h_2 other => rw [if_neg other, sdio]

/-- The value of an `u8` that is not `0` goes down by one. -/
theorem u8Dec_eq {n : Nat} (some : 0 < n) (small : n < 2 ^ 8) : u8Dec n = n - 1 := by
  unfold u8Dec
  omega

theorem u8Inc_eq {n : Nat} (small : n + 1 < 2 ^ 8) : u8Inc n = n + 1 := Nat.mod_eq_of_lt small

namespace LedgerInv

variable {hw : AmlHw} {t : TxqId} {skb : Skb} {q : HwqId}

section

variable (inv : LedgerInv hw)

include inv

theorem u8Dec_credits (some : 0 < (hw.hwq q).credits) : u8Dec (hw.hwq q).credits = (hw.hwq q).credits - 1 := by
  have bound := inv.credits_le q
  exact u8Dec_eq some (by omega)

theorem modHwq {f : Hwq → Hwq} (size : (f (hw.hwq q)).size = (hw.hwq q).size)
    (list : (f (hw.hwq q)).list = (hw.hwq q).list)
    (credits : (f (hw.hwq q)).credits + hw.queuesInFlight.count q ≤ (hw.hwq q).size) :
    LedgerInv (hw.modHwq q f) := by
  refine { inv with
    size := fun q' => ?_
    credits := fun q' => ?_
    linked := fun q' t member => ?_
    queued := fun t skb member => (inv.queued t skb member).congr rfl rfl rfl } <;>
      rcases eq_or_ne q' q with rfl | other
  · rw [modHwq_self, size]
    exact inv.size q'
  · rw [modHwq_of_ne _ _ _ other]
    exact inv.size q'
  · rw [modHwq_self, size]
    exact credits
  · rw [modHwq_of_ne _ _ _ other]
    exact inv.credits q'
  · rw [modHwq_self, list] at member
    exact inv.linked q' t member
  · rw [modHwq_of_ne _ _ _ other] at member
    exact inv.linked q' t member

/-- `aml_tx_push` takes one credit. -/
theorem spent (some : 0 < (hw.hwq q).credits) :
    LedgerInv (hw.modHwq q fun h => { h with credits := u8Dec h.credits }) := by
  refine inv.modHwq rfl rfl ?_
  have bound := inv.credits q
  have charged := inv.u8Dec_credits some
  dsimp only
  omega

theorem handed (held : Held hw t skb) (queue : (hw.swTxhdr skb).hwQueue = q)
    (slack : (hw.hwq q).credits + hw.queuesInFlight.count q < (hw.hwq q).size)
    (available : hw.env.txHostidAvailable ≠ []) (txDescSave dmaDescs : List Skb) :
    LedgerInv { hw with
      env := (hw.env.ipcHostTxHostPtrToId skb).1
      txDescSave := txDescSave
      dmaDescs := dmaDescs } := by
  have flight := (inv.pool.ptrToId_available skb available).2.2
  constructor
  case pool => exact inv.pool.ptrToId skb
  case bus => exact (PoolInv.ptrToId_busType hw.env skb).trans inv.bus
  case size => exact inv.size
  case ownHwq => exact inv.ownHwq
  case linked => exact inv.linked
  case nodup => exact inv.nodup
  case started => exact inv.started
  case credits =>
    intro q'
    unfold AmlHw.queuesInFlight inFlight
    rw [flight, List.map_append, List.count_append, List.map_singleton, queue]
    rcases eq_or_ne q q' with rfl | other
    · rw [List.count_singleton_self]
      exact slack
    · rw [List.count_singleton, if_neg (by simpa using other)]
      exact inv.credits q'
  case queued =>
    intro t' skb' member
    have before := inv.queued t' skb' member
    refine ⟨before.txq, before.known, fun inside => ?_⟩
    unfold inFlight at inside
    rw [flight] at inside
    rcases mem_append.mp inside with old | last
    · exact before.landed old
    · obtain rfl := mem_singleton.mp last
      exact held.unqueued t' member
  case flying =>
    unfold inFlight
    rw [flight]
    refine List.nodup_append.mpr ⟨inv.flying, List.nodup_singleton skb, ?_⟩
    rintro a old _ last rfl
    exact held.landed (mem_singleton.mp last ▸ old)
  case known =>
    intro skb' member
    unfold inFlight at member
    rw [flight] at member
    rcases mem_append.mp member with old | last
    · exact inv.known skb' old
    · obtain rfl := mem_singleton.mp last
      exact held.known

theorem landed {env : HostEnv} (pool : PoolInv env)
    (busType : env.busType = hw.env.busType)
    (flight : hw.inFlight.Perm (skb :: env.atFirmware)) :
    LedgerInv { hw with env := env } ∧ Held { hw with env := env } (hw.swTxhdr skb).txq skb ∧
      (hw.hwq (hw.swTxhdr skb).hwQueue).credits + ({ hw with env := env } : AmlHw).queuesInFlight.count
        (hw.swTxhdr skb).hwQueue < (hw.hwq (hw.swTxhdr skb).hwQueue).size := by
  have distinct := nodup_cons.mp (flight.nodup_iff.mp inv.flying)
  have inside : skb ∈ hw.inFlight := flight.mem_iff.mpr mem_cons_self
  have old : ∀ skb' ∈ env.atFirmware, skb' ∈ hw.inFlight := fun skb' member =>
    flight.mem_iff.mpr (List.mem_cons_of_mem _ member)
  have counts : ∀ q, hw.queuesInFlight.count q = ({ hw with env := env } : AmlHw).queuesInFlight.count q +
        if (hw.swTxhdr skb).hwQueue = q then 1 else 0 := fun q => by
    have queues := (flight.map fun skb => (hw.swTxhdr skb).hwQueue).count_eq q
    rw [List.map_cons, List.count_cons] at queues
    simp only [beq_iff_eq] at queues
    exact queues
  refine ⟨{ inv with
    pool := pool
    bus := busType.trans inv.bus
    credits := fun q => ?_
    queued := fun t skb' member => ?_
    flying := distinct.2
    known := fun skb' member => inv.known skb' (old skb' member) },
    ⟨⟨rfl, inv.known skb inside, distinct.1⟩, fun t' member => ?_⟩, ?_⟩
  · have bound := inv.credits q
    rw [counts q] at bound
    exact (Nat.le_add_right _ _).trans (Nat.add_assoc .. ▸ bound)
  · have before := inv.queued t skb' member
    exact ⟨before.txq, before.known, fun inside => before.landed (old skb' inside)⟩
  · exact (inv.queued t' skb member).landed inside
  · have bound := inv.credits (hw.swTxhdr skb).hwQueue
    rw [counts, if_pos rfl] at bound
    omega

end

end LedgerInv

/-! ### One push -/

/-- A buffer `aml_tx_push` may be called with. -/
structure Pushable (hw : AmlHw) (t : TxqId) (skb : Skb) : Prop where
  inv : LedgerInv hw
  held : Held hw t skb
  credits : 0 < (hw.hwq (txqHwq t)).credits

namespace Pushable

variable {hw : AmlHw} {t : TxqId} {skb : Skb}

section

variable (push : Pushable hw t skb)

include push

/-- `aml_tx_push`, by what the IPC does. -/
theorem txPush_eq (a2eInit : Skb → Bool) : hw.txPush a2eInit skb =
      ((hw.txPushCharge skb).ipcTxdescPush a2eInit skb).modHwq (txqHwq t) fun h =>
        { h with credits := u8Dec h.credits } := by
  have charged := push.inv.txPushCharge push.held
  have available : (hw.txPushCharge skb).env.txHostidAvailable ≠ [] := by
    rw [charged.env]
    exact push.inv.available push.credits
  have hwq : (((hw.txPushCharge skb).ipcTxdescPush a2eInit skb).txq
      (((hw.txPushCharge skb).ipcTxdescPush a2eInit skb).swTxhdr skb).txq).hwq = txqHwq t := by
    have own : ((hw.txPushCharge skb).txq ((hw.txPushCharge skb).swTxhdr skb).txq).hwq = txqHwq t := by
      rw [charged.inv.ownHwq, (charged.held push.held).txq]
    rw [ipcTxdescPush_eq charged.inv.pool available]
    split
    · split <;> exact own
    · exact own
  unfold AmlHw.txPush
  dsimp only
  rw [hwq]

theorem handed (queue : (hw.swTxhdr skb).hwQueue = txqHwq t)
    (txDescSave dmaDescs : List Skb) :
    LedgerInv ({ hw with
      env := (hw.env.ipcHostTxHostPtrToId skb).1
      txDescSave := txDescSave
      dmaDescs := dmaDescs }.modHwq (txqHwq t) fun h => { h with credits := u8Dec h.credits }) := by
  have held := push.held
  refine (push.inv.spent push.credits).handed
    ⟨held.toLanded.congr rfl rfl rfl, held.unqueued⟩ queue ?_ (push.inv.available push.credits) _ _
  have bound := push.inv.credits (txqHwq t)
  have some := push.credits
  rw [modHwq_self]
  show u8Dec _ + hw.queuesInFlight.count (txqHwq t) < (hw.hwq (txqHwq t)).size
  rw [push.inv.u8Dec_credits some]
  omega

theorem held_handed {skb' : Skb} (other : skb' ≠ skb)
    (held : Held hw t skb') (txDescSave dmaDescs : List Skb) :
    Held { hw with
      env := (hw.env.ipcHostTxHostPtrToId skb).1
      txDescSave := txDescSave
      dmaDescs := dmaDescs } t skb' := by
  refine ⟨⟨held.txq, held.known, fun inside => ?_⟩, held.unqueued⟩
  have flight := (push.inv.pool.ptrToId_available skb (push.inv.available push.credits)).2.2
  unfold inFlight at inside
  rw [flight] at inside
  rcases mem_append.mp inside with old | last
  · exact held.landed old
  · exact other (mem_singleton.mp last)

theorem txPush (a2eInit : Skb → Bool) : LedgerInv (hw.txPush a2eInit skb) ∧
      ((hw.txPush a2eInit skb).hwq (txqHwq t)).credits + 1 = (hw.hwq (txqHwq t)).credits ∧
      ∀ skb', skb' ≠ skb → Held hw t skb' → Held (hw.txPush a2eInit skb) t skb' := by
  have charged := push.inv.txPushCharge push.held
  have some : 0 < ((hw.txPushCharge skb).hwq (txqHwq t)).credits := by
    rw [charged.credits]
    exact push.credits
  have pushable : Pushable (hw.txPushCharge skb) t skb := ⟨charged.inv, charged.held push.held, some⟩
  have queue : ((hw.txPushCharge skb).swTxhdr skb).hwQueue = txqHwq t := by
    rw [charged.hwQueue, push.held.txq]
  have credits : ∀ hw' : AmlHw, hw'.hwq = (hw.txPushCharge skb).hwq →
      ((hw'.modHwq (txqHwq t) fun h => { h with credits := u8Dec h.credits }).hwq
        (txqHwq t)).credits + 1 = (hw.hwq (txqHwq t)).credits := fun hw' same => by
    rw [modHwq_self, same]
    show u8Dec _ + 1 = _
    rw [charged.inv.u8Dec_credits some, charged.credits]
    exact Nat.sub_add_cancel push.credits
  rw [push.txPush_eq, ipcTxdescPush_eq charged.inv.pool (charged.inv.available some)]
  split
  · split
    · exact ⟨charged.inv.spent some, credits _ rfl, fun skb' _ held =>
        ⟨(charged.held held).toLanded.congr rfl rfl rfl, (charged.held held).unqueued⟩⟩
    · refine ⟨pushable.handed queue _ _, credits _ rfl, fun skb' other held => ?_⟩
      have still := pushable.held_handed other (charged.held held) (hw.txPushCharge skb).txDescSave
        ((hw.txPushCharge skb).dmaDescs ++ if a2eInit skb then [skb] else [])
      exact ⟨still.toLanded.congr rfl rfl rfl, still.unqueued⟩
  · refine ⟨pushable.handed queue _ _, credits _ rfl, fun skb' other held => ?_⟩
    have still := pushable.held_handed other (charged.held held)
      ((hw.txPushCharge skb).txDescSave ++ [skb]) (hw.txPushCharge skb).dmaDescs
    exact ⟨still.toLanded.congr rfl rfl rfl, still.unqueued⟩

end

end Pushable

/-! ### One hardware queue -/

theorem txPushAll_ledger (a2eInit : Skb → Bool) {t : TxqId} {skbs : List Skb} {hw : AmlHw}
    (inv : LedgerInv hw) (held : ∀ skb ∈ skbs, Held hw t skb) (distinct : skbs.Nodup)
    (enough : skbs.length ≤ (hw.hwq (txqHwq t)).credits) :
    LedgerInv (AmlHw.txPushAll a2eInit skbs hw) ∧ ∀ call ∈ pushCalls a2eInit skbs hw, Pushable call.1 t call.2 := by
  induction skbs generalizing hw with
  | nil => exact ⟨inv, fun _ member => absurd member not_mem_nil⟩
  | cons skb rest ih =>
    rw [List.length_cons] at enough
    have push : Pushable hw t skb := ⟨inv, held skb mem_cons_self, by omega⟩
    obtain ⟨inv', spent, others⟩ := push.txPush a2eInit
    have later := ih inv' (fun skb' member => others skb'
        (fun same => (nodup_cons.mp distinct).1 (same ▸ member))
        (held skb' (List.mem_cons_of_mem _ member)))
      (nodup_cons.mp distinct).2 (by omega)
    refine ⟨later.1, fun call member => ?_⟩
    rcases List.mem_cons.mp member with rfl | member
    · exact push
    · exact later.2 call member

theorem skbsToPush_le (hw : AmlHw) (q : HwqId) (t : TxqId) : (hw.skbsToPush q t).1 ≤ (hw.hwq q).credits := by
  have least : min (hw.txq t).getCredits ((hw.hwq q).credits : Int) ≤ (hw.hwq q).credits :=
    min_le_right _ _
  simp only [AmlHw.skbsToPush]
  split
  case isTrue all => exact Int.ofNat_le.mp (all.trans least)
  case isFalse => exact Int.toNat_le.mpr least

namespace LedgerInv

variable {hw : AmlHw} {t : TxqId} {q : HwqId}

section

variable (inv : LedgerInv hw)

include inv

theorem getSkbToPush (q : HwqId) (t : TxqId) : LedgerInv (hw.getSkbToPush q t).2 ∧ (hw.getSkbToPush q t).1.Nodup ∧
      ∀ skb ∈ (hw.getSkbToPush q t).1, Held (hw.getSkbToPush q t).2 t skb := by
  have frame : Scheduled hw (hw.getSkbToPush q t).2 :=
    .modTxq hw t (f := fun x => { x with skList := x.skList.drop (hw.skbsToPush q t).1 }) rfl (List.drop_sublist _ _)
  refine ⟨inv.scheduled frame, (inv.nodup t).sublist (List.take_sublist _ _), fun skb member => ?_⟩
  have before := inv.queued t skb (List.mem_of_mem_take member)
  refine ⟨before.scheduled frame, fun t' inside => ?_⟩
  have own := inv.queued t' skb ((frame.skList t').subset inside)
  obtain rfl : t' = t := own.txq.symm.trans before.txq
  have cut : (hw.txq t').skList.take (hw.skbsToPush q t').1 ++
      (hw.txq t').skList.drop (hw.skbsToPush q t').1 = (hw.txq t').skList := List.take_append_drop _ _
  have apart := List.disjoint_of_nodup_append (cut.symm ▸ inv.nodup t')
  refine apart member ?_
  show skb ∈ (hw.txq t').skList.drop (hw.skbsToPush q t').1
  have rest : ((hw.getSkbToPush q t').2.txq t').skList = (hw.txq t').skList.drop (hw.skbsToPush q t').1 := by
    unfold AmlHw.getSkbToPush
    rw [AmlHw.modTxq_self]
  exact rest ▸ inside

variable (a2eInit : Skb → Bool)

theorem hwqProcessTxq (own : txqHwq t = q) : LedgerInv (hw.hwqProcessTxq a2eInit q t) ∧
      ∀ call ∈ pushCalls a2eInit (hw.getSkbToPush q t).1 (hw.getSkbToPush q t).2, Pushable call.1 t call.2 := by
  obtain ⟨cut, distinct, held⟩ := inv.getSkbToPush q t
  have few : (hw.getSkbToPush q t).1.length ≤ ((hw.getSkbToPush q t).2.hwq (txqHwq t)).credits := by
    rw [own]
    exact (List.length_take_le _ _).trans (skbsToPush_le hw q t)
  obtain ⟨pushed, calls⟩ := txPushAll_ledger a2eInit cut held distinct few
  refine ⟨?_, calls⟩
  have again := pushed.scheduled (.hwqReschedule _ t q (hw.skbsToPush q t).2)
  have aborted := again.scheduled (.abortLegacySp _ t)
  exact aborted.scheduled (.ite (.modTxq _ t rfl (.refl _)) (.refl _))

theorem hwqProcessLoop {ts : List TxqId}
    (own : ∀ t ∈ ts, txqHwq t = q) :
    LedgerInv (AmlHw.hwqProcessLoop a2eInit q ts hw) ∧
      ∀ call ∈ AmlHw.loopPushCalls a2eInit q ts hw, ∃ t, Pushable call.1 t call.2 := by
  induction ts generalizing hw with
  | nil => exact ⟨inv, fun _ member => absurd member not_mem_nil⟩
  | cons t rest ih =>
    have ownRest : ∀ t ∈ rest, txqHwq t = q := fun t' member => own t' (List.mem_cons_of_mem _ member)
    unfold AmlHw.hwqProcessLoop AmlHw.loopPushCalls
    split
    case isTrue => exact ih inv ownRest
    case isFalse =>
      split
      case isTrue => exact ⟨inv, fun _ member => absurd member not_mem_nil⟩
      case isFalse =>
        obtain ⟨inv', calls⟩ := inv.hwqProcessTxq a2eInit (own t mem_cons_self)
        have later := ih inv' ownRest
        refine ⟨later.1, fun call member => ?_⟩
        rcases mem_append.mp member with now | then'
        · exact ⟨t, calls call now⟩
        · exact later.2 call then'

theorem hwqProcess (q : HwqId) :
    LedgerInv (hw.hwqProcess a2eInit q) ∧ ∀ call ∈ hw.hwqPushCalls a2eInit q, ∃ t, Pushable call.1 t call.2 :=
  (inv.scheduled (.modHwq hw q rfl rfl fun _ member => .inl member)).hwqProcessLoop a2eInit
    fun t member => inv.linked q t member

/-! ### Buffers come back -/

/-- `aml_txq_confirm_any`, for a buffer that was at the firmware. -/
theorem txqConfirmAny (t : TxqId) (q : HwqId)
    (slack : (hw.hwq q).credits + hw.queuesInFlight.count q < (hw.hwq q).size) :
    LedgerInv (hw.txqConfirmAny t q) := by
  have frame : Scheduled hw (hw.modTxq t fun x => { x with pktPushed := x.pktPushed - 1 }) :=
    .modTxq hw t rfl (.refl _)
  have small := nxTxdescCnt_le hw.busType q
  rw [← inv.size] at small
  refine (inv.scheduled frame).modHwq rfl rfl ?_
  show u8Inc (hw.hwq q).credits + hw.queuesInFlight.count q ≤ (hw.hwq q).size
  rw [u8Inc_eq (by omega)]
  omega

theorem confirmed {env : HostEnv} {skb : Skb} (pool : PoolInv env)
    (busType : env.busType = hw.env.busType)
    (flight : hw.inFlight.Perm (skb :: env.atFirmware)) :
    LedgerInv (({ hw with env := env } : AmlHw).txqConfirmAny (hw.swTxhdr skb).txq (hw.swTxhdr skb).hwQueue) ∧
      Held (({ hw with env := env } : AmlHw).txqConfirmAny (hw.swTxhdr skb).txq
        (hw.swTxhdr skb).hwQueue) (hw.swTxhdr skb).txq skb := by
  obtain ⟨inv', held, slack⟩ := inv.landed pool busType flight
  refine ⟨inv'.txqConfirmAny _ _ slack, ?_⟩
  have frame : Scheduled { hw with env := env } (({ hw with env := env } : AmlHw).modTxq
      (hw.swTxhdr skb).txq fun x => { x with pktPushed := x.pktPushed - 1 }) :=
    .modTxq _ _ rfl (.refl _)
  have still := held.scheduled frame
  exact ⟨still.toLanded.congr rfl rfl rfl, still.unqueued⟩

theorem txRetry {skb : Skb} (held : Held hw (hw.swTxhdr skb).txq skb) : LedgerInv (hw.txRetry skb) := by
  unfold AmlHw.txRetry
  have frame : ∀ t, Scheduled hw (hw.modTxq t fun x => { x with credits := s8 (x.credits + 1) }) :=
    fun t => .modTxq hw t rfl (.refl _)
  have started := fun t : TxqId => Scheduled.ite
    (p := 0 < ((hw.modTxq t fun x => { x with credits := s8 (x.credits + 1) }).txq t).credits)
    ((frame t).trans (.txqStart _ t {.full})) (frame t)
  exact (inv.scheduled (started _)).txqQueueSkb (held.scheduled (started _)) true none

theorem txCfm {hostid : BitVec 32} (credits : Int) (swRetry : Bool)
    (known : hw.busType = .pcie → KnownId hw.env hostid) :
    LedgerInv (hw.txCfm hostid credits swRetry) := by
  have pool := inv.pool.lookup (inv.bus ▸ known)
  have busType := PoolInv.lookup_busType hw.env hostid
  have found := inv.pool.atFirmware_lookup (inv.bus ▸ known)
  unfold AmlHw.txCfm
  generalize hw.env.lookup hostid = result at pool busType found
  obtain ⟨env, skb⟩ := result
  dsimp only at pool busType found ⊢
  rcases found with nothing | flight
  · obtain ⟨rfl, rfl⟩ := Prod.mk.inj nothing
    exact inv
  · have someSkb := (inv.known skb (flight.mem_iff.mpr mem_cons_self)).1
    rw [if_neg someSkb]
    obtain ⟨inv', held⟩ := inv.confirmed pool busType flight
    split
    · exact inv'.txRetry held
    · exact inv'.scheduled (.ite (.txqConfirmCredits _ _ credits) (.refl _))

end

theorem txDrain (n : Nat) (inv : LedgerInv hw) : LedgerInv (txDrain n hw) := by
  induction n generalizing hw with
  | zero => exact inv
  | succ n ih =>
    have pool := inv.pool.flush
    have busType := PoolInv.flush_busType hw.env
    have found := PoolInv.atFirmware_flush hw.env
    unfold txDrain
    generalize hw.env.ipcHostTxFlush = result at pool busType found
    obtain ⟨env, skb⟩ := result
    dsimp only at pool busType found ⊢
    rcases found with nothing | flight
    · obtain ⟨rfl, rfl⟩ := Prod.mk.inj nothing
      exact inv
    · have someSkb := (inv.known skb (flight.mem_iff.mpr mem_cons_self)).1
      rw [if_neg someSkb]
      exact ih (inv.confirmed pool busType flight).1

/-! ### Runs -/

theorem init (busType : BusType) : LedgerInv (hwInit busType) where
  pool := Ipc.poolInv_init busType
  bus := rfl
  size _ := rfl
  credits _ := Nat.le_refl _
  ownHwq _ := rfl
  linked _ _ member := absurd member not_mem_nil
  nodup _ := List.nodup_nil
  queued _ _ member := absurd member not_mem_nil
  flying := List.nodup_nil
  known _ member := absurd member not_mem_nil
  started := Nat.one_pos

theorem startXmit (inv : LedgerInv hw) (t : TxqId) (amlSta : Option StaId) (mgmt : Bool) :
    LedgerInv (hw.startXmit t amlSta mgmt) :=
  (inv.prepared _).txqQueueSkb (inv.prepared_held { txq := t, amlSta := amlSta, mgmt := mgmt }) false none

theorem amsduDismantle (inv : LedgerInv hw) {t : TxqId} {prev : Skb}
    (queued : prev ∈ (hw.txq t).skList) : LedgerInv (hw.amsduDismantle t prev) := by
  have held := inv.prepared_held (hw.swTxhdr prev)
  rw [(inv.queued t prev queued).txq] at held
  exact (inv.prepared _).txqQueueSkb held false (some prev)

theorem step {hw' : AmlHw} {a : Action} (inv : LedgerInv hw) (known : KnownCfm hw a)
    (stepped : hw.step a = some hw') : LedgerInv hw' := by
  cases a
  case txqInit t status psId => exact some.inj stepped ▸ inv.txqInit t status psId
  case txqDeinit t => exact some.inj stepped ▸ inv.scheduled (.txqDeinit hw t)
  case txqStart t reason => exact some.inj stepped ▸ inv.scheduled (.txqStart hw t reason)
  case txqStop t reason => exact some.inj stepped ▸ inv.scheduled (.txqStop hw t reason)
  case startXmit t amlSta mgmt =>
    obtain ⟨_, stepped⟩ := ite_none_right_eq_some.mp stepped
    exact some.inj stepped ▸ inv.startXmit t amlSta mgmt
  case amsduDismantle t prev =>
    obtain ⟨queued, stepped⟩ := ite_none_right_eq_some.mp stepped
    exact some.inj stepped ▸ inv.amsduDismantle queued
  case hwqProcess q a2eInit => exact some.inj stepped ▸ (inv.hwqProcess a2eInit q).1
  case txqDropOldTraffic t old =>
    exact some.inj stepped ▸ inv.scheduled (.txqDropOldTraffic hw t old)
  case txCfm hostid credits swRetry =>
    exact some.inj stepped ▸ inv.txCfm (s8 credits) swRetry known
  case txqCreditUpdate t update =>
    exact some.inj stepped ▸ inv.scheduled (.txqCreditUpdate hw t (s8 update))
  case psBhEnable i enable =>
    obtain ⟨inTable, stepped⟩ := ite_none_right_eq_some.mp stepped
    exact some.inj stepped ▸ inv.psBhEnable inTable enable
  case psBhTrafficReq i pktReq psId =>
    obtain ⟨_, stepped⟩ := ite_none_right_eq_some.mp stepped
    exact some.inj stepped ▸ inv.scheduled (.psBhTrafficReq hw i _ psId)
  case txTask n =>
    obtain rfl := some.inj stepped
    exact { inv with queued := fun t skb member => (inv.queued t skb member).congr rfl rfl rfl }
  case pciShutdown =>
    obtain rfl := some.inj stepped
    exact { inv with queued := fun t skb member => (inv.queued t skb member).congr rfl rfl rfl }
  case txDrain => exact some.inj stepped ▸ inv.txDrain _

theorem of_reachable {busType : BusType} (reach : (schedSystem busType).Reachable KnownCfm hw) : LedgerInv hw :=
  reach.invariant (init busType) fun _ _ _ _ inv known stepped => inv.step known stepped

end LedgerInv

/-! ### Handed over, or left alone -/

/-- **The transport has the buffer**, under one host id that is new and not `0`. -/
structure Handed (hw hw' : AmlHw) (skb : Skb) : Prop where
  hostid : ∃ i hostid, hw'.env.txHostidPushed = hw.env.txHostidPushed ++ [i] ∧
    hw'.env.entry i = (hostid, skb) ∧ hostid ≠ 0
  once : hw'.inFlight.count skb = 1
  transport : match hw.busType with
    | .pcie => hw'.dmaDescs = hw.dmaDescs ++ [skb]
    | _ => hw'.txDescSave = hw.txDescSave ++ [skb]

/-- **The push did nothing**, and a queue owns the buffer. -/
structure LeftAlone (hw hw' : AmlHw) (skb : Skb) : Prop where
  hwqCredits : ∀ q, (hw'.hwq q).credits = (hw.hwq q).credits
  txqCredits : ∀ t, (hw'.txq t).credits = (hw.txq t).credits
  pktPushed : ∀ t, (hw'.txq t).pktPushed = (hw.txq t).pktPushed
  env : hw'.env = hw.env
  dmaDescs : hw'.dmaDescs = hw.dmaDescs
  owned : ∃ t, skb ∈ (hw'.txq t).skList

namespace Pushable

variable {hw : AmlHw} {t : TxqId} {skb : Skb}

section

variable (push : Pushable hw t skb)

include push

theorem not_leftAlone (a2eInit : Skb → Bool) : ¬ LeftAlone hw (hw.txPush a2eInit skb) skb := by
  intro alone
  have same := alone.hwqCredits (txqHwq t)
  have spent := (push.txPush a2eInit).2.1
  omega

theorem handed_of_taken {hw' : AmlHw}
    (env : hw'.env = (hw.env.ipcHostTxHostPtrToId skb).1)
    (transport : match hw.busType with
      | .pcie => hw'.dmaDescs = hw.dmaDescs ++ [skb]
      | _ => hw'.txDescSave = hw.txDescSave ++ [skb]) : Handed hw hw' skb := by
  obtain ⟨⟨i, pushed, entry⟩, hostid, flight⟩ :=
    push.inv.pool.ptrToId_available skb (push.inv.available push.credits)
  refine ⟨⟨i, _, env ▸ pushed, env ▸ entry, hostid⟩, ?_, transport⟩
  unfold inFlight
  rw [env, flight, List.count_append, List.count_singleton_self]
  have landed : hw.env.atFirmware.count skb = 0 := List.count_eq_zero.mpr push.held.landed
  rw [landed]

theorem handed_iff (a2eInit : Skb → Bool) : Handed hw (hw.txPush a2eInit skb) skb ↔
      (hw.busType = .pcie → hw.pciShutdown = false ∧ a2eInit skb = true) := by
  have charged := push.inv.txPushCharge push.held
  have some : 0 < ((hw.txPushCharge skb).hwq (txqHwq t)).credits := by
    rw [charged.credits]
    exact push.credits
  rw [push.txPush_eq, ipcTxdescPush_eq charged.inv.pool (charged.inv.available some),
    charged.busType, charged.pciShutdown]
  by_cases pcie : hw.busType = .pcie
  · rw [if_pos pcie]
    by_cases shutdown : hw.pciShutdown = true
    · rw [if_pos shutdown]
      refine iff_of_false (fun handed => ?_) fun working => ?_
      · obtain ⟨i, _, pushed, _⟩ := handed.hostid
        have same : (hw.txPushCharge skb).env.txHostidPushed = hw.env.txHostidPushed ++ [i] := pushed
        rw [charged.env] at same
        simpa using congrArg List.length same
      · exact absurd (working pcie).1 (by simp [shutdown])
    · rw [if_neg shutdown]
      have running : hw.pciShutdown = false := Bool.eq_false_iff.mpr shutdown
      by_cases mapped : a2eInit skb = true
      · refine iff_of_true (push.handed_of_taken ?_ ?_) fun _ => ⟨running, mapped⟩
        · show ((hw.txPushCharge skb).env.ipcHostTxHostPtrToId skb).1 = _
          rw [charged.env]
        · rw [pcie]
          show (hw.txPushCharge skb).dmaDescs ++ (if a2eInit skb then [skb] else []) = _
          rw [charged.dmaDescs, if_pos mapped]
      · refine iff_of_false (fun handed => ?_) fun working => mapped (working pcie).2
        have written := handed.transport
        rw [pcie] at written
        have same : (hw.txPushCharge skb).dmaDescs ++ (if a2eInit skb then [skb] else []) =
          hw.dmaDescs ++ [skb] := written
        rw [charged.dmaDescs, if_neg mapped] at same
        simpa using congrArg List.length same
  · rw [if_neg pcie]
    refine iff_of_true (push.handed_of_taken ?_ ?_) fun isPcie => absurd isPcie pcie
    · show ((hw.txPushCharge skb).env.ipcHostTxHostPtrToId skb).1 = _
      rw [charged.env]
    · split
      case h_1 isPcie => exact absurd isPcie pcie
      case h_2 =>
        show (hw.txPushCharge skb).txDescSave ++ [skb] = _
        rw [charged.txDescSave]

end

end Pushable

/-- **A pushed buffer is handed over or left alone exactly if**, on PCIe, the driver is not shut down
and the descriptor is mapped. A host id is left for it in any case. -/
theorem txPush_handed_iff {busType : BusType} {hw hw' : AmlHw} {skb : Skb}
    (reach : (schedSystem busType).Reachable KnownCfm hw) (a2eInit : Skb → Bool) (q : HwqId)
    (call : (hw', skb) ∈ hw.hwqPushCalls a2eInit q) :
    hw'.env.txHostidAvailable ≠ [] ∧
      ((Handed hw' (hw'.txPush a2eInit skb) skb ∨ LeftAlone hw' (hw'.txPush a2eInit skb) skb) ↔
        (hw'.busType = .pcie → hw'.pciShutdown = false ∧ a2eInit skb = true)) := by
  obtain ⟨t, push⟩ := ((LedgerInv.of_reachable reach).hwqProcess a2eInit q).2 _ call
  refine ⟨push.inv.available push.credits, ?_⟩
  rw [or_iff_left (push.not_leftAlone a2eInit)]
  exact push.handed_iff a2eInit

/-- Two buffers of one queue, the second pushed with the first at the firmware. -/
theorem txPush_handed_second : ∃ hw, (schedSystem .sdio).Reachable KnownCfm hw ∧
      ∃ call ∈ hw.hwqPushCalls (fun _ => true) .be, call.1.inFlight = [1] ∧ call.2 = 2 ∧
        call.1.env.txHostidAvailable ≠ [] ∧
        ((Handed call.1 (call.1.txPush (fun _ => true) call.2) call.2 ∨
            LeftAlone call.1 (call.1.txPush (fun _ => true) call.2) call.2) ↔
          (call.1.busType = .pcie → call.1.pciShutdown = false ∧ true = true)) := by
  have reach := System.reachable_of_run (schedSystem .sdio) KnownCfm
    [.txqInit 0 ∅ .legacy, .startXmit 0 (some 0) false, .startXmit 0 (some 0) false]
    (by decide +kernel)
  exact ⟨_, reach, _, List.getElem_mem (n := 1) (by decide +kernel), by decide +kernel,
    by decide +kernel, txPush_handed_iff reach (fun _ => true) .be (List.getElem_mem _)⟩

/-- **A buffer pushed after the shutdown is lost**: its credits are gone, and neither the transport nor
a queue has it. -/
theorem txPush_lost : ∃ hw, (schedSystem .pcie).Reachable KnownCfm hw ∧ ∃ call ∈ hw.hwqPushCalls (fun _ => true) .be,
        ¬ (Handed call.1 (call.1.txPush (fun _ => true) call.2) call.2 ∨
          LeftAlone call.1 (call.1.txPush (fun _ => true) call.2) call.2) := by
  have reach := System.reachable_of_run (schedSystem .pcie) KnownCfm
    [.txqInit 0 ∅ .legacy, .startXmit 0 (some 0) false, .pciShutdown] (by decide +kernel)
  refine ⟨_, reach, _, List.getElem_mem (n := 0) (by decide +kernel), ?_⟩
  rintro (handed | alone)
  · have once := handed.once
    revert once
    decide +kernel
  · have credits := alone.hwqCredits .be
    revert credits
    decide +kernel

/-- Each buffer is in one place, and credits are good for a buffer. -/
structure BuffersOnce (hw : AmlHw) : Prop where
  credits : ∀ q, (hw.hwq q).credits + hw.queuesInFlight.count q ≤ nxTxdescCnt hw.busType q
  hostid : ∀ q, 0 < (hw.hwq q).credits → hw.env.txHostidAvailable ≠ []
  queued : ∀ t, (hw.txq t).skList.Nodup ∧ (hw.txq t).skList.Disjoint hw.inFlight
  apart : ∀ t t', t ≠ t' → (hw.txq t).skList.Disjoint (hw.txq t').skList
  flying : hw.inFlight.Nodup

/-- **No buffer is in two places, and no queue is handed more than it has descriptors**, whatever is
queued, pushed, confirmed, dropped or dismantled, and whichever queue is removed and made again meanwhile. -/
theorem buffers_once {busType : BusType} {hw : AmlHw} (reach : (schedSystem busType).Reachable KnownCfm hw) :
    BuffersOnce hw := by
  have inv := LedgerInv.of_reachable reach
  refine ⟨fun q => inv.size q ▸ inv.credits q, fun _ => inv.available, fun t => ⟨inv.nodup t, ?_⟩, ?_, inv.flying⟩
  · exact fun skb here => (inv.queued t skb here).landed
  · exact fun t t' other skb here there => other ((inv.queued t skb here).txq.symm.trans (inv.queued t' skb there).txq)

/-- A queue is removed and made again with a buffer at the firmware. -/
theorem buffers_once_again : ∃ hw, (schedSystem .sdio).Reachable KnownCfm hw ∧ hw.inFlight = [1] ∧
    (hw.txq 0).skList = [2] ∧ BuffersOnce hw := by
  have reach := System.reachable_of_run (schedSystem .sdio) KnownCfm
    [.txqInit 0 ∅ .legacy, .startXmit 0 (some 0) false, .hwqProcess .be fun _ => true, .txqDeinit 0,
      .txqInit 0 ∅ .legacy, .startXmit 0 (some 0) false] (by decide +kernel)
  exact ⟨_, reach, by decide +kernel, by decide +kernel, buffers_once reach⟩

end W2l.Sched
