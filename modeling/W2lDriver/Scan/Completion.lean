/-
**Scan completion: every run.**

* `Orderly` — **an event finds nothing in the way**: a request no earlier one; a confirmation or an abort
  no request of its scan that is not stored, and no report that is not cleared; the end of `aml_close` the
  scan that it cancelled ended.
* `ScanInv` — what such events keep.
-/

import W2lDriver.Scan.Request
import Mathlib.Data.List.Basic

set_option linter.unusedSectionVars false

namespace W2l.Scan

open Lib (System)
open Option (map_eq_some_iff mem_toList some.inj)
open List (mem_cons not_mem_nil)

variable {V : Type} [DecidableEq V]

def ScanHw.Early (s : ScanHw V) : Prop :=
  ∃ r, s.call = some r ∧ s.pending = some r

/-- **What an event finds.** -/
def Orderly (s : ScanHw V) : ScanAct V → Prop
  | .scan _ _ => ∀ r, ¬ s.Outstanding r
  | .store => s.handler = .idle ∧ s.aborting = .idle
  | .cfm _ => s.aborting = .idle ∧ ¬ s.Early
  | .abort => s.handler = .idle ∧ ¬ s.Early
  | .closeGoOn _ => ∀ c, s.closing = some c → c.stage = .returned → c.awaits = false
  | _ => True

/-- **The invariant.** -/
structure ScanInv (s : ScanHw V) : Prop where
  acceptedPast : ∀ r ∈ s.accepted, r < s.requests
  refusedPast : ∀ r ∈ s.refused, r < s.requests ∧ r ∉ s.accepted
  answeredPast : ∀ r ∈ s.answered, r < s.requests
  pendingPast : ∀ r, s.pending = some r → r < s.requests
  call : ∀ r, s.call = some r → r < s.requests ∧ r ∉ s.accepted ∧ r ∉ s.refused ∧ r ∉ s.answered ∧
    ∀ q, ¬ s.Outstanding q
  done : ∀ d ∈ s.done, ∃ r ∈ s.accepted, d = some r
  once : ∀ r, s.done.count (some r) ≤ 1
  stored : s.Idle → ∀ r, s.scanRequest = some r → s.Outstanding r
  outstanding : ∀ r, s.Outstanding r → s.Idle ∧ s.scanRequest = some r
  answered : ∀ r ∈ s.answered, ¬ s.Outstanding r
  aborting : s.aborting ≠ .idle → s.handler = .idle
  tested : s.aborting = .tested → s.scanRequest ≠ none
  closing : ∀ c, s.closing = some c → s.call = none ∧
    (c.awaits = false → ∀ r, s.Outstanding r → s.vifOf r ≠ some c.vif)
  abandoned : s.abandoned = []

namespace ScanInv

variable {s : ScanHw V}

theorem init : ScanInv ({} : ScanHw V) where
  acceptedPast := fun _ mem => absurd mem not_mem_nil
  refusedPast := fun _ mem => absurd mem not_mem_nil
  answeredPast := fun _ mem => absurd mem not_mem_nil
  pendingPast := nofun
  call := nofun
  done := fun _ mem => absurd mem not_mem_nil
  once := fun _ => Nat.zero_le 1
  stored := nofun
  outstanding := fun _ left => absurd left.1 not_mem_nil
  answered := fun _ mem => absurd mem not_mem_nil
  aborting := fun busy => (busy rfl).elim
  tested := nofun
  closing := nofun
  abandoned := rfl

/-! ### A request -/

section

variable (inv : ScanInv s)

include inv

theorem taken (none : s.call = none) (vif : V) (closed : s.closing = .none) :
    ScanInv { s with
      requests := s.requests + 1
      vifOf := Function.update s.vifOf s.requests (some vif) } where
  acceptedPast := fun r mem => Nat.lt_succ_of_lt (inv.acceptedPast r mem)
  refusedPast := fun r mem => ⟨Nat.lt_succ_of_lt (inv.refusedPast r mem).1, (inv.refusedPast r mem).2⟩
  answeredPast := fun r mem => Nat.lt_succ_of_lt (inv.answeredPast r mem)
  pendingPast := fun r here => Nat.lt_succ_of_lt (inv.pendingPast r here)
  call := fun _ here => nomatch none.symm.trans here
  done := inv.done
  once := inv.once
  stored := inv.stored
  outstanding := inv.outstanding
  answered := inv.answered
  aborting := inv.aborting
  tested := inv.tested
  closing := fun _ here => nomatch closed.symm.trans here
  abandoned := inv.abandoned

theorem refuse {r : ℕ} (past : r < s.requests) (new : r ∉ s.accepted) (none : s.call = none) :
    ScanInv { s with refused := r :: s.refused } where
  acceptedPast := inv.acceptedPast
  refusedPast := fun q mem => by
    rcases mem_cons.mp mem with rfl | old
    · exact ⟨past, new⟩
    · exact inv.refusedPast q old
  answeredPast := inv.answeredPast
  pendingPast := inv.pendingPast
  call := fun _ here => nomatch none.symm.trans here
  done := inv.done
  once := inv.once
  stored := inv.stored
  outstanding := inv.outstanding
  answered := inv.answered
  aborting := inv.aborting
  tested := inv.tested
  closing := inv.closing
  abandoned := inv.abandoned

theorem reach {r : ℕ} (past : r < s.requests) : ScanInv { s with pending := some r } where
  acceptedPast := inv.acceptedPast
  refusedPast := inv.refusedPast
  answeredPast := inv.answeredPast
  pendingPast := fun _ here => by
    obtain rfl := some.inj here
    exact past
  call := inv.call
  done := inv.done
  once := inv.once
  stored := inv.stored
  outstanding := inv.outstanding
  answered := inv.answered
  aborting := inv.aborting
  tested := inv.tested
  closing := inv.closing
  abandoned := inv.abandoned

theorem scan (none : s.call = none) (closed : s.closing = .none)
    (alone : ∀ r, ¬ s.Outstanding r) (vif : V) (env : ScanEnv) : ScanInv (s.scan vif env) := by
  have new : s.requests ∉ s.accepted := fun mem => Nat.lt_irrefl _ (inv.acceptedPast _ mem)
  have past : s.requests < s.requests + 1 := Nat.lt_succ_self _
  have taken := inv.taken none vif closed
  unfold ScanHw.scan
  dsimp only
  split
  · exact taken.refuse past new none
  · have sent : ScanInv { s with
        requests := s.requests + 1
        vifOf := Function.update s.vifOf s.requests (some vif)
        pending := if env.reached then some s.requests else s.pending } := by
      cases env.reached with
      | true => exact taken.reach past
      | false => exact taken
    split
    · exact sent.refuse past new none
    · refine ⟨sent.acceptedPast, sent.refusedPast, sent.answeredPast, sent.pendingPast, fun r here => ?_, sent.done,
        sent.once, sent.stored, sent.outstanding, sent.answered, sent.aborting, sent.tested,
        fun _ here => (nomatch closed.symm.trans here), sent.abandoned⟩
      obtain rfl := some.inj here
      exact ⟨past, new, fun mem => Nat.lt_irrefl _ (inv.refusedPast _ mem).1,
        fun mem => Nat.lt_irrefl _ (inv.answeredPast _ mem), alone⟩

theorem store {r : ℕ} (here : s.call = some r) (handler : s.handler = .idle)
    (aborting : s.aborting = .idle) : ScanInv (s.store r) := by
  obtain ⟨past, new, kept, unanswered, alone⟩ := inv.call r here
  have unreported : some r ∉ s.done := fun mem => by
    obtain ⟨q, known, same⟩ := inv.done _ mem
    obtain rfl := some.inj same
    exact new known
  have only : ∀ q, (s.store r).Outstanding q ↔ q = r := fun q => by
    refine ⟨fun ⟨mem, left⟩ => ?_, fun same => ?_⟩
    · rcases mem_cons.mp mem with same | old
      · exact same
      · exact (alone q ⟨old, left⟩).elim
    · subst same
      exact ⟨List.mem_cons_self, unreported⟩
  have idle : s.Idle := ⟨handler, by rw [aborting]; decide⟩
  refine ⟨fun q mem => ?_, fun q mem => ?_, inv.answeredPast, inv.pendingPast, nofun, fun d mem => ?_, inv.once,
    fun _ q stored => ?_, fun q left => ?_, fun q mem => ?_, inv.aborting, fun _ => nofun,
    fun c closing => ?_, inv.abandoned⟩
  · rcases mem_cons.mp mem with rfl | old
    · exact past
    · exact inv.acceptedPast q old
  · refine ⟨(inv.refusedPast q mem).1, fun known => ?_⟩
    rcases mem_cons.mp known with rfl | old
    · exact kept mem
    · exact (inv.refusedPast q mem).2 old
  · obtain ⟨q, known, same⟩ := inv.done d mem
    exact ⟨q, List.mem_cons_of_mem _ known, same⟩
  · exact (only q).mpr (some.inj stored).symm
  · exact ⟨idle, congrArg some ((only q).mp left).symm⟩
  · rw [only]
    rintro rfl
    exact unanswered mem
  · exact nomatch here.symm.trans (inv.closing c closing).1

end

/-! ### Its end -/

theorem report (idle : s.Idle) (inv : ScanInv s) {r : ℕ} (here : s.scanRequest = some r) :
    (∀ d ∈ some r :: s.done, ∃ q ∈ s.accepted, d = some q) ∧ (∀ q, (some r :: s.done).count (some q) ≤ 1) ∧
      ∀ q, ¬ ({ s with done := some r :: s.done } : ScanHw V).Outstanding q := by
  obtain ⟨known, left⟩ := inv.stored idle r here
  refine ⟨fun d mem => ?_, fun q => ?_, fun q => ?_⟩
  · rcases mem_cons.mp mem with rfl | old
    · exact ⟨r, known, rfl⟩
    · exact inv.done d old
  · rw [List.count_cons]
    split
    · case isTrue same =>
      obtain rfl := some.inj (eq_of_beq same)
      have none : s.done.count (some r) = 0 := List.count_eq_zero.mpr left
      omega
    · exact inv.once q
  · rintro ⟨mem, unreported⟩
    have before : s.Outstanding q := ⟨mem, fun old => unreported (List.mem_cons_of_mem _ old)⟩
    have same := here.symm.trans (inv.outstanding q before).2
    exact unreported (mem_cons.mpr (.inl same.symm))

section

variable (inv : ScanInv s)

include inv

theorem reported (early : ¬ s.Early) {done : List (Option ℕ)} {handler : Handler V}
    {aborting : Abort} (known : ∀ d ∈ done, ∃ q ∈ s.accepted, d = some q) (once : ∀ q, done.count (some q) ≤ 1)
    (alone : ∀ q, ¬ ({ s with done := done } : ScanHw V).Outstanding q)
    (clearing : handler = .idle → aborting ≠ .clearing → s.scanRequest = none)
    (apart : aborting ≠ .idle → handler = .idle)
    (tested : aborting ≠ .tested) :
    ScanInv { ({ s with done := done } : ScanHw V).answer with
      handler := handler
      aborting := aborting } where
  acceptedPast := inv.acceptedPast
  refusedPast := inv.refusedPast
  answeredPast := fun r mem => by
    rcases List.mem_append.mp mem with new | old
    · exact inv.pendingPast r (mem_toList.mp new)
    · exact inv.answeredPast r old
  pendingPast := nofun
  call := fun r here => by
    obtain ⟨past, new, kept, unanswered, -⟩ := inv.call r here
    refine ⟨past, new, kept, fun mem => ?_, alone⟩
    rcases List.mem_append.mp mem with told | old
    · exact early ⟨r, here, mem_toList.mp told⟩
    · exact unanswered old
  done := known
  once := once
  stored := fun idle _ here => nomatch (clearing idle.1 idle.2).symm.trans here
  outstanding := fun r left => (alone r left).elim
  answered := fun r _ => alone r
  aborting := apart
  tested := fun same => absurd same tested
  closing := fun c here => by
    obtain ⟨old, before, rfl⟩ := map_eq_some_iff.mp here
    exact ⟨(inv.closing old before).1, fun _ r left => (alone r left).elim⟩
  abandoned := inv.abandoned

theorem cfm (c : Cfm V) (handler : s.handler = .idle) (aborting : s.aborting = .idle)
    (early : ¬ s.Early) : ScanInv (s.cfm c) := by
  have idle : s.Idle := ⟨handler, by rw [aborting]; decide⟩
  have clearing : Handler.clearing c = Handler.idle → s.aborting ≠ .clearing → s.scanRequest = none := nofun
  have apart : s.aborting ≠ .idle → Handler.clearing c = Handler.idle := fun busy => (busy aborting).elim
  have tested : s.aborting ≠ .tested := by rw [aborting]; decide
  unfold ScanHw.cfm ScanHw.complete
  split
  · case h_1 none =>
    refine inv.reported early inv.done inv.once (fun r left => ?_) clearing apart tested
    exact nomatch none.symm.trans (inv.outstanding r left).2
  · case h_2 r here =>
    obtain ⟨known, once, alone⟩ := inv.report idle here
    exact inv.reported early known once alone clearing apart tested

theorem cleared (busy : ¬ s.Idle) {t : ScanHw V} (accepted : t.accepted = s.accepted)
    (refused : t.refused = s.refused) (answered : t.answered = s.answered) (pending : t.pending = s.pending)
    (call : t.call = s.call) (requests : t.requests = s.requests) (done : t.done = s.done)
    (closing : t.closing = s.closing) (abandoned : t.abandoned = s.abandoned)
    (cleared : t.scanRequest = none) (aborting : t.aborting = .idle) :
    ScanInv t := by
  have same : ∀ r, t.Outstanding r ↔ s.Outstanding r := fun r => by
    unfold ScanHw.Outstanding
    rw [accepted, done]
  have alone : ∀ r, ¬ t.Outstanding r := fun r left => busy (inv.outstanding r ((same r).mp left)).1
  refine ⟨?_, ?_, ?_, ?_, fun r here => ?_, ?_, ?_, fun _ r here => ?_, fun r left => (alone r left).elim,
    fun r _ => alone r, fun some => (some aborting).elim, fun tested => ?_, fun c here => ?_, ?_⟩
  · rw [accepted, requests]
    exact inv.acceptedPast
  · rw [refused, accepted, requests]
    exact inv.refusedPast
  · rw [answered, requests]
    exact inv.answeredPast
  · rw [pending, requests]
    exact inv.pendingPast
  · rw [requests, accepted, refused, answered]
    obtain ⟨past, new, kept, unanswered, -⟩ := inv.call r (call ▸ here)
    exact ⟨past, new, kept, unanswered, alone⟩
  · rw [done, accepted]
    exact inv.done
  · rw [done]
    exact inv.once
  · exact nomatch cleared.symm.trans here
  · exact nomatch aborting.symm.trans tested
  · rw [call]
    exact ⟨(inv.closing c (closing ▸ here)).1, fun _ r left => (alone r left).elim⟩
  · exact abandoned.trans inv.abandoned

theorem cfmEnd {c : Cfm V} (handler : s.handler = .clearing c) : ScanInv (s.cfmEnd c) := by
  have busy : ¬ s.Idle := fun idle => nomatch handler.symm.trans idle.1
  have aborting : s.aborting = .idle := by
    by_contra other
    exact nomatch handler.symm.trans (inv.aborting other)
  cases c with
  | start => exact inv.cleared busy rfl rfl rfl rfl rfl rfl rfl rfl rfl rfl aborting
  | cancel vif => exact inv.cleared busy rfl rfl rfl rfl rfl rfl rfl rfl rfl rfl aborting

theorem abort (handler : s.handler = .idle) (early : ¬ s.Early) (aborting : s.aborting = .idle) :
    ScanInv s.abort := by
  unfold ScanHw.abort
  split
  · case isTrue none =>
    have alone : ∀ r, ¬ s.Outstanding r := fun r left => nomatch none.symm.trans (inv.outstanding r left).2
    exact inv.reported early inv.done inv.once alone (fun _ _ => none) (fun busy => (busy aborting).elim)
      (by rw [aborting]; decide)
  · case isFalse some =>
    have idle : s.Idle := ⟨handler, by rw [aborting]; decide⟩
    exact ⟨inv.acceptedPast, inv.refusedPast, inv.answeredPast, inv.pendingPast, inv.call, inv.done, inv.once,
      fun _ => inv.stored idle, fun r left => ⟨⟨handler, nofun⟩, (inv.outstanding r left).2⟩, inv.answered,
      fun _ => handler, fun _ => some, inv.closing, inv.abandoned⟩

theorem scanAbort : ScanInv s.scanAbort := by
  unfold ScanHw.scanAbort
  split
  · exact inv
  · case h_2 tested =>
    have handler : s.handler = .idle := inv.aborting (by rw [tested]; decide)
    have idle : s.Idle := ⟨handler, by rw [tested]; decide⟩
    obtain ⟨r, here⟩ := Option.ne_none_iff_exists'.mp (inv.tested tested)
    have early : ¬ s.Early := fun ⟨q, call, _⟩ => (inv.call q call).2.2.2.2 r (inv.stored idle r here)
    obtain ⟨known, once, alone⟩ := inv.report idle here
    rw [← here] at known once alone
    exact inv.reported early known once alone (fun _ other => (other rfl).elim) (fun _ => handler) nofun
  · case h_3 clearing =>
    have handler : s.handler = .idle := inv.aborting (by rw [clearing]; decide)
    exact inv.cleared (fun idle => idle.2 clearing) rfl rfl rfl rfl rfl rfl rfl rfl rfl rfl rfl

/-! ### A close -/

/-- What a call of `aml_close` and the flags of the interfaces leave alone. -/
theorem closingTo {scanHang : V → Bool} {linkLoss : LinkLoss} {closing : Option (Closing V)}
    (kept : ∀ c, closing = some c → s.call = none ∧
      (c.awaits = false → ∀ r, s.Outstanding r → s.vifOf r ≠ some c.vif)) :
    ScanInv { s with
      scanHang := scanHang
      linkLoss := linkLoss
      closing := closing } :=
  ⟨inv.acceptedPast, inv.refusedPast, inv.answeredPast, inv.pendingPast, inv.call, inv.done, inv.once, inv.stored,
    inv.outstanding, inv.answered, inv.aborting, inv.tested, kept, inv.abandoned⟩

theorem close (none : s.call = none) (vif : V) : ScanInv (s.close vif) := by
  unfold ScanHw.close
  split
  · refine inv.closingTo fun c here => ?_
    obtain rfl := some.inj here
    exact ⟨none, nofun⟩
  · case isFalse other =>
    refine inv.closingTo fun c here => ?_
    obtain rfl := some.inj here
    refine ⟨none, fun _ r left same => other ?_⟩
    rw [(inv.outstanding r left).2]
    exact same

theorem closeGoOn {c : Closing V} (here : s.closing = some c)
    (ended : c.stage = .returned → c.awaits = false) (error : ℤ) : ScanInv (s.closeGoOn c error) := by
  have kept : ∀ stage, ∀ d, some { c with stage := stage } = some d → s.call = none ∧
      (d.awaits = false → ∀ r, s.Outstanding r → s.vifOf r ≠ some d.vif) := fun stage d same => by
    obtain rfl := some.inj same
    exact inv.closing c here
  unfold ScanHw.closeGoOn
  split
  · split
    · exact inv.closingTo (kept _)
    · exact inv.closingTo (kept _)
  · split
    · exact inv.closingTo (kept _)
    · split
      · exact inv.closingTo (kept _)
      · exact inv.closingTo (kept _)
  · case h_3 returned =>
    have nothing : s.left c.vif = [] := List.filter_eq_nil_iff.mpr fun r mem left => by
      obtain ⟨unreported, vif⟩ := of_decide_eq_true left
      exact (inv.closing c here).2 (ended returned) r ⟨mem, unreported⟩ vif
    rw [nothing, List.nil_append]
    exact inv.closingTo nofun

theorem act {a : ScanAct V} (orderly : Orderly s a) {t : ScanHw V}
    (stepped : s.act a = some t) : ScanInv t := by
  cases a with
  | scan vif env =>
    obtain ⟨⟨none, closed⟩, here⟩ := Option.ite_none_right_eq_some.mp stepped
    obtain rfl := some.inj here
    exact inv.scan none (Option.isNone_iff_eq_none.mp closed) orderly vif env
  | store =>
    obtain ⟨r, here, rfl⟩ := map_eq_some_iff.mp stepped
    exact inv.store here orderly.1 orderly.2
  | cfm c =>
    cases handler : s.handler with
    | idle =>
      unfold ScanHw.act at stepped
      rw [handler] at stepped
      obtain rfl := some.inj stepped
      exact inv.cfm c handler orderly.1 orderly.2
    | clearing d =>
      unfold ScanHw.act at stepped
      rw [handler] at stepped
      exact nomatch stepped
  | cfmEnd =>
    cases handler : s.handler with
    | idle =>
      unfold ScanHw.act at stepped
      rw [handler] at stepped
      exact nomatch stepped
    | clearing c =>
      unfold ScanHw.act at stepped
      rw [handler] at stepped
      obtain rfl := some.inj stepped
      exact inv.cfmEnd handler
  | abort =>
    obtain ⟨aborting, here⟩ := Option.ite_none_right_eq_some.mp stepped
    obtain rfl := some.inj here
    exact inv.abort orderly.1 orderly.2 aborting
  | scanAbort =>
    obtain rfl := some.inj stepped
    exact inv.scanAbort
  | close vif =>
    obtain ⟨⟨none, -⟩, here⟩ := Option.ite_none_right_eq_some.mp stepped
    obtain rfl := some.inj here
    exact inv.close none vif
  | closeGoOn error =>
    obtain ⟨c, here, rfl⟩ := map_eq_some_iff.mp stepped
    exact inv.closeGoOn here (orderly c here) error
  | setScanHang vif scanHang =>
    obtain rfl := some.inj stepped
    exact inv.closingTo inv.closing
  | setLinkLoss linkLoss =>
    obtain rfl := some.inj stepped
    exact inv.closingTo inv.closing

theorem completion : ScanCompletion s where
  once := inv.once
  accepted := inv.done
  refused := fun r mem reported => by
    obtain ⟨q, known, same⟩ := inv.done _ reported
    obtain rfl := some.inj same
    exact (inv.refusedPast _ mem).2 known
  request := fun idle r => ⟨inv.stored idle r, fun left => (inv.outstanding r left).2⟩
  answered := inv.answered
  abandoned := inv.abandoned

end

end ScanInv

/-- **Each accepted request is completed once** in every run of events that find nothing in the way. -/
theorem scan_completion {s : ScanHw V} (reach : (scanSystem V).Reachable Orderly s) : ScanCompletion s := by
  have inv : ScanInv s := reach.invariant (I := ScanInv) ScanInv.init
    fun _ _ _ _ inv orderly stepped => inv.act orderly stepped
  exact inv.completion

/-- A scan that the firmware confirms. -/
theorem scan_completion_confirmed : ∃ s : ScanHw Bool, s.done = [some 0] ∧ s.scanRequest = none ∧
    ScanCompletion s := by
  have asked := System.Reachable.step (S := scanSystem Bool) .init
    (show Orderly _ (.scan true {}) from fun _ left => absurd left.1 List.not_mem_nil) rfl
  have stored := asked.step (show Orderly _ .store from ⟨rfl, rfl⟩) rfl
  have confirmed := stored.step (show Orderly _ (.cfm .start) from ⟨rfl, fun ⟨_, call, _⟩ => nomatch call⟩) rfl
  have cleared := confirmed.step (show Orderly _ .cfmEnd from trivial) rfl
  exact ⟨_, rfl, rfl, scan_completion cleared⟩

/-- **A confirmation that comes before the request is stored** is lost. -/
theorem early_confirmation_is_lost : ¬ ∀ s : ScanHw Bool,
    (scanSystem Bool).Reachable (fun _ _ => True) s → ScanCompletion s := by
  intro all
  have reach := System.reachable_of_run (scanSystem Bool) (fun _ (_ : ScanAct Bool) => True)
    [.scan true {}, .cfm .start, .cfmEnd, .store] rfl
  refine (all _ reach).answered 0 ?_ ⟨?_, ?_⟩
  · exact List.mem_singleton_self 0
  · exact List.mem_singleton_self 0
  · exact List.not_mem_nil

end W2l.Scan
