/-
**The work queue of the driver.**

`aml_wq.c`. Any thread allocates a work and adds it to `work_list`; the kernel runs `aml_wq_doit`, which takes
the works from the front, runs and frees them. Each lock section and each test is a step of its own.

* `doit` — what is called for a work.
* `wqSystem` — the runs, in which nothing is added once `aml_wq_deinit` has begun (`WorkList.Orderly`).
* `WqSound` — **each work is run or freed, once and in order, and somebody comes for one that waits**.
-/

import W2lDriver.Lib.Bytes
import W2lDriver.Lib.System
import W2lDriver.Lib.WorkList

namespace W2l.Wq

open Lib

/-- `enum aml_wq_type`, less the values that are not handled. -/
inductive WqType
  | recy
  | syncTrace
  | syncBeacon
  | showTxMsg
  | checkScc
  | recyConnectRetry
  | allocRxRate
  | other

structure AmlWq where
  id : WqType
  data : List Byte

inductive Call
  | recyDoit
  | sccCheckChanConflict
  | recyStaConnect
  | sendSyncTrace
  | sccSyncBcn (data : List Byte)
  | showTxMsg (data : List Byte)
  | allocGlobalRxRate (data : List Byte)

/-- The switch of `aml_wq_doit`. -/
def doit (wq : AmlWq) : Option Call :=
  match wq.id with
  | .recy => some .recyDoit
  | .checkScc => some .sccCheckChanConflict
  | .recyConnectRetry => some .recyStaConnect
  | .syncTrace => some .sendSyncTrace
  | .syncBeacon => some (.sccSyncBcn wq.data)
  | .showTxMsg => some (.showTxMsg wq.data)
  | .allocRxRate => some (.allocGlobalRxRate wq.data)
  | .other => none

inductive Action
  /-- `aml_wq_alloc`, and the lock section of `aml_wq_add`. -/
  | add (id : WqType) (data : List Byte)
  /-- `work_pending` and `queue_work`. -/
  | queueWork
  /-- The kernel starts `aml_wq_doit`. -/
  | work
  | get
  /-- The switch returns. -/
  | kfree
  /-- `aml_wq_del`, and the lock section of `aml_wq_deinit`. -/
  | del
  | cancelWorkSync

def Action.act : Action → WorkList.Act AmlWq
  | add id data => .put ⟨id, data⟩
  | queueWork => .queue
  | work => .start
  | get => .take
  | kfree => .finish
  | del => .drop
  | cancelWorkSync => .cancel

def wqSystem : System (WorkList AmlWq) Action := ⟨{}, fun s a => s.step a.act⟩

structure WqSound (s : WorkList AmlWq) : Prop where
  /-- A work was run, or is there, or was thrown away; it was freed in the first and the last case. -/
  once : s.added.Perm (s.served ++ s.held ++ s.dropped)
  order : (s.served.filterMap doit).Sublist (s.added.filterMap doit)
  woken : s.waiting ≠ [] → s.cancelled = false → s.pending = true ∨ s.running = true ∨ 0 < s.adding
  drains : s.adding = 0 → s.cancelled = false → s.Serves s.held
  freed : s.cancelled = true → s.waiting = [] → s.added.Perm (s.served ++ s.dropped)

end W2l.Wq
