/-
**Remain on channel.**

`aml_cfg80211_remain_on_channel`, `aml_cfg80211_cancel_remain_on_channel` and the off-channel part of
`aml_cfg80211_mgmt_tx` (`fullmac/aml_main.c`), the RoC branch of the channel switch indication and
`aml_rx_remain_on_channel_exp_ind` (`aml_msg_rx.c`), and what `aml_close` and `aml_recy_vif_reset`
(`aml_recy.c`) do with `aml_hw->roc`.

A call of the configuration sleeps while the firmware answers, a handler holds the pointer it has read;
anything may come in between.

* `Roc`, `RocHw` — `struct aml_roc`, and the driver with where the call and the handler are.
* `RocHw.call`, `RocHw.handle` — the call, the handler go on.
* `RocHw.act`, `rocSystem` — **the runs**.
* `RocLifecycle` — each RoC is freed once and not used afterwards, the off-channel queue is in use while
  there is one, and its end is reported after its start.
-/

import W2lDriver.Lib.Heap
import W2lDriver.Lib.System

namespace W2l.Roc

open Lib (Heap System)

structure Roc (V C : Type) where
  vif : V
  chan : C
  duration : ℕ
  /-- It was started by `aml_cfg80211_mgmt_tx`. -/
  internal : Bool := false
  onChan : Bool := false
  deriving DecidableEq

/-- What is asked for, and whether `aml_cfg80211_mgmt_tx` asks. -/
structure Request (V C : Type) where
  vif : V
  chan : C
  duration : ℕ
  mgmtTx : Bool
  deriving DecidableEq

/-- Where the call of the configuration is. Calls exclude each other. -/
inductive Call (V C : Type)
  | idle
  | cancelling (r : Request V C)              -- waits for the answer of `aml_send_cancel_roc`
  | waiting (r : Request V C) (count : ℕ)     -- waits for the end of the earlier RoC
  | allocating (r : Request V C)
  | sending (r : Request V C) (roc : ℕ)       -- waits for the answer of `aml_send_roc`
  | marking                                   -- `aml_cfg80211_mgmt_tx` has started a RoC
  | reusing (vif : V) (chan : C) (roc : ℕ)    -- `aml_cfg80211_mgmt_tx` has read `aml_hw->roc`
  | tracking                                  -- its frame was handed over
  deriving DecidableEq

/-- Where the handler of indications is. -/
inductive Handler (V : Type)
  | idle
  | switching (roc : ℕ)
  | expiring (roc : ℕ)
  | freeing (roc : ℕ)
  deriving DecidableEq

/-- What cfg80211 is told, by cookie. -/
inductive Report
  | ready (cookie : ℕ)
  | expired (cookie : ℕ)
  deriving DecidableEq

/-- What the firmware is sent. -/
inductive ToFw (V C : Type)
  | roc (vif : V) (chan : C) (duration : ℕ)
  | cancelRoc
  deriving DecidableEq

/-- The queue `NX_OFF_CHAN_TXQ_IDX` when it is in use. -/
structure OffchanTxq (V : Type) where
  ndev : V
  /-- `AML_TXQ_STOP_CHAN`. -/
  stopped : Bool := true
  deriving DecidableEq

/-- The driver. -/
structure RocHw (V C : Type) where
  heap : Heap (Roc V C) := {}
  roc : Option ℕ := none
  offchan : Option (OffchanTxq V) := none
  call : Call V C := .idle
  handler : Handler V := .idle
  /-- The latest first. -/
  toFw : List (ToFw V C) := []
  /-- The latest first. -/
  reports : List Report := []
  /-- The RoCs that were requested by user space. -/
  asked : List ℕ := []

/-- What happens. -/
inductive RocAct (V C : Type)
  | remainOnChannel (vif : V) (chan : C) (duration : ℕ)
  | mgmtTx (vif : V) (chan : C) (wait : ℕ)
  | cancelRemainOnChannel (vif : V) (cookie : ℕ)
  | call (ok : Bool)        -- the call goes on: what it waits for has succeeded, or failed
  | chanSwitchInd
  | expInd
  | handle                  -- the handler goes on
  | close (vif : V)
  | recyVifReset (vif : V)

variable {V C : Type} [DecidableEq V] [DecidableEq C]

namespace RocHw

variable (s : RocHw V C)

def txqOffchanInit (v : V) : RocHw V C := { s with offchan := some { ndev := v } }

def txqOffchanDeinit : RocHw V C := { s with offchan := none }

def txqOffchanStart : RocHw V C :=
  { s with offchan := s.offchan.map fun q => { q with stopped := false } }

/-- `aml_cfg80211_remain_on_channel`, up to where it sleeps. -/
def remainOnChannel (r : Request V C) : RocHw V C :=
  match s.roc with
  | some _ => { s with call := .cancelling r, toFw := .cancelRoc :: s.toFw }
  | none => { s with call := .allocating r }

/-- `aml_cfg80211_mgmt_tx`, for a frame that is to be sent off-channel. -/
def mgmtTx (vif : V) (chan : C) (wait : ℕ) : RocHw V C :=
  match s.roc with
  | some roc => { s with call := .reusing vif chan roc }
  | none => s.remainOnChannel ⟨vif, chan, if wait = 0 then 30 else wait, true⟩

/-- `aml_cfg80211_cancel_remain_on_channel`. -/
def cancelRemainOnChannel (isStaMode : V → Bool) (vif : V) (cookie : ℕ) : RocHw V C :=
  if s.roc = none then s
  else if s.roc ≠ some cookie then s
  else if isStaMode vif then s
  else { s with toFw := .cancelRoc :: s.toFw }

/-- A RoC is allocated, stored and sent. -/
def launch (r : Request V C) : RocHw V C :=
  { s.txqOffchanInit r.vif with
    heap := s.heap.alloc ⟨r.vif, r.chan, r.duration, false, false⟩
    roc := some s.heap.next
    toFw := .roc r.vif r.chan r.duration :: s.toFw
    asked := if r.mgmtTx then s.asked else s.heap.next :: s.asked
    call := .sending r s.heap.next }

/-- Behind the RoC of `aml_cfg80211_mgmt_tx` the call goes on with `internal`. -/
def markInternal : RocHw V C :=
  match s.roc with
  | some roc => { s with heap := s.heap.modify roc fun x => { x with internal := true } }
  | none => s

/-- **The call goes on.** -/
def goOn (ok : Bool) : RocHw V C :=
  match s.call with
  | .idle => s
  | .cancelling r => if ok then { s with call := .waiting r 0 } else { s with call := .idle }
  | .waiting r count =>
    if s.roc = none then { s with call := .allocating r }
    else if count > 100 then { s with call := .allocating r }
    else { s with call := .waiting r (count + 1) }
  | .allocating r => if ok then s.launch r else { s with call := .idle }
  | .sending r roc =>
    if ok then { s with call := if r.mgmtTx then .marking else .idle }
    else { ({ s with heap := s.heap.free roc, roc := none } : RocHw V C).txqOffchanDeinit with call := .idle }
  | .marking => { s.markInternal with call := .tracking }
  | .reusing vif chan roc =>
    let s := { s with heap := s.heap.use roc }
    match s.heap.obj roc with
    | some x => { s with call := if x.vif ≠ vif ∨ x.chan ≠ chan then .idle else .tracking }
    | none => { s with call := .idle }
  | .tracking =>
    match s.roc with
    | some roc => { s with heap := s.heap.use roc, call := .idle }
    | none => { s with call := .idle }

/-- A handler begins with reading `aml_hw->roc`. -/
def load (handler : ℕ → Handler V) : RocHw V C :=
  match s.roc with
  | some roc => { s with handler := handler roc }
  | none => s

/-- **The handler goes on**: the RoC branch of `aml_rx_chan_switch_ind`,
`aml_rx_remain_on_channel_exp_ind`. -/
def handle : RocHw V C :=
  match s.handler with
  | .idle => s
  | .switching roc =>
    let internal := ((s.heap.obj roc).map Roc.internal).getD false
    let s := { s with
      heap := s.heap.modify roc fun x => { x with onChan := true }
      reports := if internal then s.reports else .ready roc :: s.reports
      handler := .idle }
    s.txqOffchanStart
  | .expiring roc =>
    let reported := ((s.heap.obj roc).map fun x => !x.internal && x.onChan).getD false
    let s := { s with
      heap := s.heap.use roc
      reports := if reported then .expired roc :: s.reports else s.reports
      handler := .freeing roc }
    s.txqOffchanDeinit
  | .freeing roc => { s with heap := s.heap.free roc, roc := none, handler := .idle }

/-- What `aml_close` and `aml_recy_vif_reset` do, under `roc_lock`. -/
def dropRoc (v : V) : RocHw V C :=
  match s.roc with
  | some roc =>
    let s := { s with heap := s.heap.use roc }
    if (s.heap.obj roc).map Roc.vif = some v then { s with heap := s.heap.free roc, roc := none } else s
  | none => s

/-- **What happens.** A call comes when there is none, an indication when the last one was handled. -/
def act (isStaMode : V → Bool) : RocAct V C → Option (RocHw V C)
  | .remainOnChannel vif chan duration =>
    if s.call = .idle then some (s.remainOnChannel ⟨vif, chan, duration, false⟩) else none
  | .mgmtTx vif chan wait => if s.call = .idle then some (s.mgmtTx vif chan wait) else none
  | .cancelRemainOnChannel vif cookie =>
    if s.call = .idle then some (s.cancelRemainOnChannel isStaMode vif cookie) else none
  | .call ok => some (s.goOn ok)
  | .chanSwitchInd => if s.handler = .idle then some (s.load .switching) else none
  | .expInd => if s.handler = .idle then some (s.load .expiring) else none
  | .handle => some s.handle
  | .close v => some (s.dropRoc v)
  | .recyVifReset v => some (s.dropRoc v)

end RocHw

def rocSystem (isStaMode : V → Bool) : System (RocHw V C) (RocAct V C) where
  init := {}
  step := fun s a => s.act isStaMode a

/-- The end of a RoC that was asked for is reported once, after its start. -/
def Announced (asked : List ℕ) (reports : List Report) : Prop :=
  ∀ later earlier roc, reports = later ++ .expired roc :: earlier → roc ∈ asked →
    .ready roc ∈ earlier ∧ .expired roc ∉ earlier

/-- **The lifecycle of the RoCs.** -/
structure RocLifecycle (s : RocHw V C) : Prop where
  /-- A RoC that is not `aml_hw->roc` was freed once, that one is not. -/
  freed : ∀ roc, roc < s.heap.next → s.heap.frees roc = if s.roc = some roc then 0 else 1
  unused : s.heap.misused = []
  /-- `aml_hw->roc` is not overwritten while the RoC is there, and does not outlive it. -/
  kept : ∀ roc, s.heap.Live roc ↔ s.roc = some roc
  /-- Unless the handler is between the two. -/
  offchan : (∀ roc, s.handler ≠ .freeing roc) → s.offchan.map OffchanTxq.ndev = (s.roc.bind s.heap.obj).map Roc.vif
  announced : Announced s.asked s.reports

end W2l.Roc
