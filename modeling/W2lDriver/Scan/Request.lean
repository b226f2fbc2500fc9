/-
**Scan requests.**

`aml_cfg80211_scan`, `aml_scan_abort`, `aml_cancel_scan`, `aml_close` (`fullmac/aml_main.c`),
`aml_rx_scanu_start_cfm`, `aml_scanu_cancel_cfm` (`aml_msg_rx.c`). `aml_hw->scan_request` has no lock: the
request is stored when the command that starts the scan was sent, a handler reports it and then clears it.

* `ScanHw` — the request, the calls that are under way, and which requests were accepted, answered by the
  firmware and reported to cfg80211.
* `ScanHw.scan`, `ScanHw.store` — a scan request, cut behind the command.
* `ScanHw.cfm`, `ScanHw.scanAbort` — what completes a request, cut before `scan_request` is cleared.
* `ScanHw.close`, `ScanHw.closeGoOn` — an interface that is closed cancels its scan.
* `ScanCompletion` — **each accepted request is completed once.**
-/

import W2lDriver.Lib.System

namespace W2l.Scan

open Lib (System)

/-- `aml_recy->link_loss`. -/
structure LinkLoss where
  isEnabled : Bool := false
  isHappened : Bool := false
  isRequested : Bool := false
  scanResultCnt : ℕ := 0

/-- A confirmation; `aml_scanu_cancel_cfm` looks its interface up. -/
inductive Cfm (V : Type)
  | start
  | cancel (vif : Option V)

/-- A message handler is done, or has `scan_request` still to clear. -/
inductive Handler (V : Type)
  | idle
  | clearing (cfm : Cfm V)

/-- The recovery: behind its test of `scan_request`, or in `aml_scan_abort` behind the report. -/
inductive Abort
  | idle
  | tested
  | clearing
  deriving DecidableEq

/-- Where `aml_cancel_scan` is. -/
inductive CancelStage
  | sending
  | polling (cnt : ℕ)
  | returned
  deriving DecidableEq

/-- A call of `aml_close`; `awaits` until the scan that it cancels has ended. -/
structure Closing (V : Type) where
  vif : V
  stage : CancelStage
  awaits : Bool

/-- **The scan state.** -/
structure ScanHw (V : Type) where
  scanRequest : Option ℕ := none
  scanHang : V → Bool := fun _ => false
  cancelScanCfm : V → Bool := fun _ => false
  linkLoss : LinkLoss := {}
  /-- A request whose command was sent and that is not stored yet. -/
  call : Option ℕ := none
  handler : Handler V := .idle
  aborting : Abort := .idle
  closing : Option (Closing V) := none
  /-- The requests so far, and their interfaces. -/
  requests : ℕ := 0
  vifOf : ℕ → Option V := fun _ => none
  accepted : List ℕ := []
  refused : List ℕ := []
  /-- The request that the firmware works on, and those whose end it told. -/
  pending : Option ℕ := none
  answered : List ℕ := []
  /-- The arguments of `cfg80211_scan_done`. -/
  done : List (Option ℕ) := []
  /-- The requests that were left when their interface was closed. -/
  abandoned : List ℕ := []

/-- What a scan request finds. -/
structure ScanEnv where
  /-- `AML_RECY_STATE_ONGOING`. -/
  recyOngoing : Bool := false
  /-- The RoC that runs, and whether its interface is in STA mode. -/
  roc : Option Bool := none
  cancelRoc : ℤ := 0
  /-- The result of `aml_send_scanu_req`, and whether the firmware got the command. -/
  send : ℤ := 0
  reached : Bool := true

def eAgain : ℤ := -11

def eBusy : ℤ := -16

namespace ScanHw

variable {V : Type} [DecidableEq V] (s : ScanHw V)

/-- `aml_cfg80211_scan`, up to the command: an error, or what sending it says. -/
def scanError (vif : V) (env : ScanEnv) : Option ℤ :=
  if env.recyOngoing || (s.linkLoss.isEnabled && s.linkLoss.isRequested) then some eBusy
  else if s.scanHang vif then some eAgain
  else
    match env.roc with
    | some isStaMode => if isStaMode then if env.cancelRoc ≠ 0 then some eBusy else none else some eBusy
    | none => none

/-- **`aml_cfg80211_scan`**, until the command is sent. -/
def scan (vif : V) (env : ScanEnv) : ScanHw V :=
  let r := s.requests
  let s := { s with
    requests := r + 1
    vifOf := Function.update s.vifOf r (some vif) }
  if (s.scanError vif env).isSome then { s with refused := r :: s.refused }
  else
    let s := { s with pending := if env.reached then some r else s.pending }
    if env.send ≠ 0 then { s with refused := r :: s.refused } else { s with call := some r }

def store (r : ℕ) : ScanHw V :=
  { s with
    scanRequest := some r
    call := none
    accepted := r :: s.accepted }

/-- The scan has ended. -/
def answer : ScanHw V :=
  { s with
    pending := none
    answered := s.pending.toList ++ s.answered
    closing := s.closing.map fun c => { c with awaits := false } }

/-- `cfg80211_scan_done`, if there is a request. -/
def complete : ScanHw V :=
  match s.scanRequest with
  | none => s
  | some r => { s with done := some r :: s.done }

/-- `aml_rx_scanu_start_cfm`, `aml_scanu_cancel_cfm`, until the request is reported. -/
def cfm (c : Cfm V) : ScanHw V :=
  { s.complete.answer with handler := .clearing c }

/-- The handler clears the request. -/
def cfmEnd : Cfm V → ScanHw V
  | .start =>
    { s with
      scanRequest := none
      handler := .idle
      linkLoss :=
        if s.linkLoss.isEnabled && s.linkLoss.isHappened && s.linkLoss.scanResultCnt == 0 then
          { s.linkLoss with
            isRequested := true
            isHappened := false
            scanResultCnt := 0 }
        else s.linkLoss }
  | .cancel vif =>
    { s with
      scanRequest := none
      handler := .idle
      cancelScanCfm :=
        match vif with
        | some v => Function.update s.cancelScanCfm v true
        | none => s.cancelScanCfm }

/-- The recovery aborts a scan, if there is one; the firmware forgets its scan. -/
def abort : ScanHw V :=
  if s.scanRequest = none then s.answer else { s with aborting := .tested }

/-- **`aml_scan_abort`**, until the request is reported, and its end. -/
def scanAbort : ScanHw V :=
  match s.aborting with
  | .idle => s
  | .tested => { ({ s with done := s.scanRequest :: s.done } : ScanHw V).answer with aborting := .clearing }
  | .clearing =>
    { s with
      scanRequest := none
      aborting := .idle }

/-- `aml_close`, until the command of `aml_cancel_scan`. -/
def close (vif : V) : ScanHw V :=
  if (s.scanRequest.bind s.vifOf) = some vif then
    { s with
      scanHang := Function.update s.scanHang vif true
      closing := some ⟨vif, .sending, true⟩ }
  else { s with closing := some ⟨vif, .returned, false⟩ }

def left (vif : V) : List ℕ :=
  s.accepted.filter fun r => some r ∉ s.done ∧ s.vifOf r = some vif

/-- **`aml_close` goes on**: `aml_cancel_scan` waits, then the interface is removed. -/
def closeGoOn (c : Closing V) (error : ℤ) : ScanHw V :=
  match c.stage with
  | .sending =>
    if error ≠ 0 then { s with closing := some { c with stage := .returned } }
    else { s with closing := some { c with stage := .polling 0 } }
  | .polling cnt =>
    if s.cancelScanCfm c.vif then { s with closing := some { c with stage := .returned } }
    else if cnt > 20 then { s with closing := some { c with stage := .returned } }
    else { s with closing := some { c with stage := .polling (cnt + 1) } }
  | .returned =>
    { s with
      scanHang := Function.update s.scanHang c.vif false
      closing := none
      abandoned := s.left c.vif ++ s.abandoned }

end ScanHw

/-- What happens. -/
inductive ScanAct (V : Type)
  | scan (vif : V) (env : ScanEnv)
  | store
  | cfm (c : Cfm V)
  | cfmEnd
  | abort
  | scanAbort
  | close (vif : V)
  | closeGoOn (error : ℤ)
  /-- `aml_set_scan_hang`, also of the other callers of `aml_cancel_scan`; the link loss of the recovery. -/
  | setScanHang (vif : V) (scanHang : Bool)
  | setLinkLoss (linkLoss : LinkLoss)

variable {V : Type} [DecidableEq V]

/-- **What happens.** The scan requests and `aml_close` hold the lock of the interfaces, the handlers run one
after the other, the recovery is a thread of its own. -/
def ScanHw.act (s : ScanHw V) : ScanAct V → Option (ScanHw V)
  | .scan vif env => if s.call = none ∧ s.closing.isNone then some (s.scan vif env) else none
  | .store => s.call.map s.store
  | .cfm c =>
    match s.handler with
    | .idle => some (s.cfm c)
    | .clearing _ => none
  | .cfmEnd =>
    match s.handler with
    | .idle => none
    | .clearing c => some (s.cfmEnd c)
  | .abort => if s.aborting = .idle then some s.abort else none
  | .scanAbort => some s.scanAbort
  | .close vif => if s.call = none ∧ s.closing.isNone then some (s.close vif) else none
  | .closeGoOn error => s.closing.map fun c => s.closeGoOn c error
  | .setScanHang vif scanHang => some { s with scanHang := Function.update s.scanHang vif scanHang }
  | .setLinkLoss linkLoss => some { s with linkLoss := linkLoss }

def scanSystem (V : Type) [DecidableEq V] : System (ScanHw V) (ScanAct V) where
  init := {}
  step := ScanHw.act

namespace ScanHw

variable (s : ScanHw V)

/-- A request that was accepted and not completed. -/
def Outstanding (r : ℕ) : Prop :=
  r ∈ s.accepted ∧ some r ∉ s.done

/-- Nothing that reported a request has it still to clear. -/
def Idle : Prop :=
  s.handler = .idle ∧ s.aborting ≠ .clearing

end ScanHw

/-- **Each accepted request is completed once.** -/
structure ScanCompletion (s : ScanHw V) : Prop where
  once : ∀ r, s.done.count (some r) ≤ 1
  /-- Only requests that were accepted are completed, never a NULL pointer. -/
  accepted : ∀ d ∈ s.done, ∃ r ∈ s.accepted, d = some r
  refused : ∀ r ∈ s.refused, some r ∉ s.done
  request : s.Idle → ∀ r, s.scanRequest = some r ↔ s.Outstanding r
  /-- No confirmation is lost. -/
  answered : ∀ r ∈ s.answered, ¬ s.Outstanding r
  abandoned : s.abandoned = []

end W2l.Scan
