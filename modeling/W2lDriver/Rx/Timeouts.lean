/-
**Reorder timeouts.**

`aml_sdio_usb_rx_reord_flush_ind` (`aml_msg_rx.c`) writes the window of a timer that ran out into
`reorder_info`, `aml_sdio_usb_host_reoder_handle` (`fullmac/aml_rx.c`) serves the entries one after the
other, each under `reoder_lock`. The messages come in between.

* `TimeoutHw` — the RX path, with the windows that were indicated and not applied yet.
* `TimeoutHw.reordFlushInd`, `TimeoutHw.goOn` — the message, and the next entry of a call.
* `goOn_iterate` — undisturbed, the steps of a call are `aml_sdio_usb_host_reoder_handle`.
* `TimeoutsApplied` — **every window is applied by the next call**, to all frames it covers.
* `Separate` — **a message finds its entry free**, or with windows that its own contains.
-/

import W2lDriver.Rx.Reorder

namespace W2l.Rx

open RxState
open Lib (System)
open Option (some.inj)
open Function (update update_of_ne update_self)

/-- A call of `aml_sdio_usb_host_reoder_handle` that is under way. -/
structure ReorderCall where
  next : ℕ
  desc : RxDescHead
  start : BitVec 32
  length : BitVec 32
  deriving DecidableEq

/-- The RX path with its messages. -/
structure TimeoutHw where
  rx : RxState
  call : Option ReorderCall := none
  /-- The windows indicated before the call that are not applied yet, and those indicated since. -/
  due : List Release := []
  later : List Release := []
  /-- The windows that were applied and left a frame they cover. -/
  missed : List Release := []
  /-- Writes behind `reorder_info`. -/
  stray : ℕ := 0

def indicated (info : RxReorderInfo) : Release :=
  ⟨info.hostid.toNat, (info.reorderLen &&& 0xff).toNat, getTid info.reorderLen⟩

/-- The length of `reorder_info`. -/
def reorderInfoCnt : ℕ := 8

namespace TimeoutHw

variable (s : TimeoutHw)

/-- `aml_sdio_usb_rx_reord_flush_ind`. -/
def reordFlushInd (info : RxReorderInfo) : TimeoutHw :=
  let i := (getTid info.reorderLen).toNat
  { s with
    rx := { s.rx with reorderInfo := Function.update s.rx.reorderInfo i info }
    later := s.later ++ [indicated info]
    stray := if i < reorderInfoCnt then s.stray else s.stray + 1 }

def begin (desc : RxDescHead) (start length : BitVec 32) : TimeoutHw :=
  { s with
    call := some ⟨0, desc, start, length⟩
    due := s.due ++ s.later
    later := [] }

def serve (env : Node → RxEnv) (c : ReorderCall) : TimeoutHw :=
  let served := serveTimeout env (s.rx, c.desc) c.next
  { s with
    rx := served.1
    call := some { c with
      next := c.next + 1
      desc := served.2 }
    due := s.due.filter fun r => r.tid.toNat ≠ c.next
    later := s.later.filter fun r => r.tid.toNat ≠ c.next
    missed := s.missed ++ (s.due ++ s.later).filter fun r =>
      r.tid.toNat = c.next ∧ ∃ n ∈ served.1.reorderList, r.Covers (served.1.rxdata n) }

/-- The end of a call, with the window of the descriptor. -/
def finish (env : Node → RxEnv) (c : ReorderCall) : TimeoutHw :=
  { s with
    rx :=
      if c.start ≠ 0 ∧ c.length ≠ 0 then
        (releaseWindow env c.start (getTid c.desc.packageInfo) (List.range c.length.toNat)
          (s.rx, { c.desc with status := rxStatForward })).1
      else s.rx
    call := none }

/-- A call goes on. -/
def goOn (env : Node → RxEnv) : TimeoutHw :=
  match s.call with
  | none => s
  | some c => if c.next < reorderInfoCnt then s.serve env c else s.finish env c

end TimeoutHw

/-- What happens. -/
inductive TimeoutAct
  | reordFlushInd (info : RxReorderInfo)
  | rxSkbHandle (env : RxEnv) (desc : RxDescHead)
  | hostReoderHandle (desc : RxDescHead) (start length : BitVec 32)
  | goOn (env : Node → RxEnv)

/-- **What happens.** The RX task handles a frame, or is in a call. -/
def TimeoutHw.act (s : TimeoutHw) : TimeoutAct → Option TimeoutHw
  | .reordFlushInd info => some (s.reordFlushInd info)
  | .rxSkbHandle env desc =>
    if s.call = none then some { s with rx := (rxSkbHandle env s.rx desc none).1 } else none
  | .hostReoderHandle desc start length => if s.call = none then some (s.begin desc start length) else none
  | .goOn env => some (s.goOn env)

def timeoutSystem (created : ℕ) : System TimeoutHw TimeoutAct where
  init := { rx := amlRxdataInit created }
  step := TimeoutHw.act

/-- **Every window is applied.** -/
structure TimeoutsApplied (s : TimeoutHw) : Prop where
  inside : s.stray = 0
  /-- When a call returns, the windows indicated before it are applied. -/
  applied : s.call = none → s.due = []
  /-- A window that is applied leaves no frame that it covers. -/
  released : s.missed = []

/-! ### A call -/

variable (env : Node → RxEnv)

theorem serve_fields (s : TimeoutHw) (c : ReorderCall) (here : s.call = some c)
    (below : c.next < reorderInfoCnt) :
    (s.goOn env).rx = (serveTimeout env (s.rx, c.desc) c.next).1 ∧
      (s.goOn env).call = some { c with
        next := c.next + 1
        desc := (serveTimeout env (s.rx, c.desc) c.next).2 } := by
  unfold TimeoutHw.goOn
  rw [here]
  dsimp only
  rw [if_pos below]
  exact ⟨rfl, rfl⟩

theorem goOn_entries (s : TimeoutHw) (desc : RxDescHead) (start length : BitVec 32) (k : ℕ)
    (few : k ≤ reorderInfoCnt) :
    let now := (List.range k).foldl (serveTimeout env) (s.rx, desc)
    ((fun t => TimeoutHw.goOn t env)^[k] (s.begin desc start length)).rx = now.1 ∧
      ((fun t => TimeoutHw.goOn t env)^[k] (s.begin desc start length)).call = some ⟨k, now.2, start, length⟩ := by
  induction k with
  | zero => exact ⟨rfl, rfl⟩
  | succ k ih =>
    obtain ⟨rx, call⟩ := ih (Nat.le_of_succ_le few)
    rw [Function.iterate_succ_apply', List.range_succ, List.foldl_append]
    obtain ⟨rx', call'⟩ := serve_fields env _ _ call few
    rw [rx', call', rx]
    exact ⟨rfl, rfl⟩

theorem goOn_iterate (s : TimeoutHw) (desc : RxDescHead) (start length : BitVec 32) :
    ((fun t => TimeoutHw.goOn t env)^[reorderInfoCnt + 1] (s.begin desc start length)).rx =
      (amlSdioUsbHostReoderHandle env s.rx desc start length).1 := by
  obtain ⟨rx, call⟩ := goOn_entries env s desc start length reorderInfoCnt le_rfl
  rw [show reorderInfoCnt = 8 from rfl] at rx call ⊢
  rw [Function.iterate_succ_apply']
  generalize (fun t => TimeoutHw.goOn t env)^[8] (s.begin desc start length) = t at rx call ⊢
  unfold TimeoutHw.goOn
  split
  · case h_1 none => exact nomatch none.symm.trans call
  · case h_2 c here =>
    obtain rfl := some.inj (here.symm.trans call)
    dsimp only
    rw [if_neg (show ¬ 8 < reorderInfoCnt from Nat.lt_irrefl 8)]
    unfold TimeoutHw.finish amlSdioUsbHostReoderHandle
    generalize (List.range 8).foldl (serveTimeout env) (s.rx, desc) = served at rx ⊢
    dsimp only
    rw [rx]
    exact (apply_ite Prod.fst _ _ _).symm

/-! ### The lists of the RX path -/

section Lists

variable {created : ℕ}

theorem scanReorderList_inv (hostid tid : BitVec 32) (nodes : List Node)
    (now : RxState × RxDescHead) (status : now.2.status = rxStatForward) (inv : RxdataInv created now.1)
    (distinct : nodes.Nodup) (linked : ∀ n ∈ nodes, n ∈ now.1.reorderList) :
    RxdataInv created (scanReorderList env hostid tid nodes now).1 ∧
      Forwarding now (scanReorderList env hostid tid nodes now) := by
  induction nodes generalizing now with
  | nil => exact ⟨inv, status, rfl, rfl⟩
  | cons n rest ih =>
    obtain ⟨fresh, restDistinct⟩ := List.nodup_cons.mp distinct
    rw [scanReorderList]
    split
    · obtain ⟨released, forwarding⟩ := rxSkbHandle_release (env n) now n status
      have here : ∀ m ∈ some n, m ∈ now.1.reorderList := fun m same => by
        obtain rfl := Option.mem_some.mp same
        exact linked _ List.mem_cons_self
      have inv' := inv.call here (rxSkbHandle_cases now.1 ⟨env n, now.2, some n⟩)
      obtain ⟨inv'', forwarding'⟩ := ih ((rxSkbHandle (env n) now.1 now.2 (some n)).1,
        (rxSkbHandle (env n) now.1 now.2 (some n)).2.1) forwarding.status inv' restDistinct fun m later => by
          show m ∈ (rxSkbHandle (env n) now.1 now.2 (some n)).1.reorderList
          rw [released.stored]
          refine (List.mem_erase_of_ne ?_).mpr (linked m (List.mem_cons_of_mem _ later))
          rintro rfl
          exact fresh later
      exact ⟨inv'', forwarding.trans forwarding'⟩
    · exact ih now status inv restDistinct fun m later => linked m (List.mem_cons_of_mem _ later)

theorem releaseWindow_inv (start tid : BitVec 32) (js : List ℕ) (now : RxState × RxDescHead)
    (status : now.2.status = rxStatForward) (inv : RxdataInv created now.1) :
    RxdataInv created (releaseWindow env start tid js now).1 ∧ Forwarding now (releaseWindow env start tid js now) := by
  induction js generalizing now with
  | nil => exact ⟨inv, status, rfl, rfl⟩
  | cons j rest ih =>
    have distinct : now.1.reorderList.Nodup := (List.nodup_append.mp inv.nodup).1
    obtain ⟨inv', forwarding⟩ := scanReorderList_inv env (exceptHostid (start + BitVec.ofNat 32 j)) tid
      now.1.reorderList now status inv distinct fun _ linked => linked
    obtain ⟨inv'', forwarding'⟩ := ih _ forwarding.status inv'
    exact ⟨inv'', forwarding.trans forwarding'⟩

theorem serveTimeout_inv (now : RxState × RxDescHead) (i : ℕ) (inv : RxdataInv created now.1) :
    RxdataInv created (serveTimeout env now i).1 := by
  unfold serveTimeout
  dsimp only
  split
  · have inv' := (releaseWindow_inv env (now.1.reorderInfo i).hostid (getTid (now.1.reorderInfo i).reorderLen)
      (List.range ((now.1.reorderInfo i).reorderLen &&& 0xff).toNat)
      (now.1, { now.2 with status := rxStatForward }) rfl inv).1
    exact ⟨inv'.partition, inv'.once, inv'.old⟩
  · exact inv

/-- A fresh frame leaves `reorder_info` alone. -/
theorem rxSkbHandle_info (env : RxEnv) (s : RxState) (desc : RxDescHead) :
    (rxSkbHandle env s desc none).1.reorderInfo = s.reorderInfo := by
  have outcome := rxSkbHandle_cases s ⟨env, desc, none⟩
  generalize (rxSkbHandle env s desc none).1 = t at outcome
  cases outcome with
  | taken n es clear => cases clear
  | noMemory => rfl
  | fresh => rfl
  | parked desc' =>
    show (park s.devAllocSkb.1 desc' s.newSkb env.hwRxhdr).reorderInfo = s.reorderInfo
    unfold park
    cases free : s.freeRxdataList with
    | nil =>
      have taken : s.devAllocSkb.1.amlGetRxdataFromFreeList = (s.devAllocSkb.1, none) := by
        unfold amlGetRxdataFromFreeList
        rw [show s.devAllocSkb.1.freeRxdataList = [] from free]
      rw [taken]
      rfl
    | cons n rest =>
      have taken : s.devAllocSkb.1.amlGetRxdataFromFreeList =
          ({ s.devAllocSkb.1 with freeRxdataList := rest }, some n) := by
        unfold amlGetRxdataFromFreeList
        rw [show s.devAllocSkb.1.freeRxdataList = n :: rest from free]
      rw [taken]
      rfl

end Lists

/-! ### Runs -/

/-- **What a message finds.** -/
def Separate (s : TimeoutHw) : TimeoutAct → Prop
  | .reordFlushInd info =>
    (1 ≤ info.hostid.toNat ∧ info.hostid.toNat ≤ 4096) ∧ (getTid info.reorderLen).toNat < reorderInfoCnt ∧
      ∀ r ∈ s.due ++ s.later, r.tid = getTid info.reorderLen → r.window ⊆ (indicated info).window
  | _ => True

def Waits (s : TimeoutHw) (r : Release) : Prop :=
  r.tid.toNat < reorderInfoCnt ∧
    (r.window = [] ∨ ∃ q, timeoutRequest (s.rx.reorderInfo r.tid.toNat) = some q ∧ r.window ⊆ q.window)

/-- **The invariant.** -/
structure TimeoutInv (created : ℕ) (s : TimeoutHw) : Prop where
  rx : RxdataInv created s.rx
  entries : ∀ i r, timeoutRequest (s.rx.reorderInfo i) = some r → r.Wf ∧ r.tid.toNat = i
  waits : ∀ r ∈ s.due ++ s.later, Waits s r
  call : ∀ c, s.call = some c → ∀ r ∈ s.due, c.next ≤ r.tid.toNat
  applied : s.call = none → s.due = []
  released : s.missed = []
  inside : s.stray = 0

namespace TimeoutInv

variable {created : ℕ} {s : TimeoutHw}

theorem init : TimeoutInv created { rx := amlRxdataInit created } where
  rx := rxdataInv_init created
  entries := fun _ _ pending => nomatch pending
  waits := fun _ mem => absurd mem List.not_mem_nil
  call := fun _ here => nomatch here
  applied := fun _ => rfl
  released := rfl
  inside := rfl

section

variable (inv : TimeoutInv created s)

include inv

theorem reordFlushInd {info : RxReorderInfo}
    (separate : Separate s (.reordFlushInd info)) :
    TimeoutInv created (s.reordFlushInd info) := by
  obtain ⟨hostid, below, fits⟩ := separate
  have window : (indicated info).window = [] ∨ timeoutRequest info = some (indicated info) := by
    unfold timeoutRequest
    by_cases pending : info.pending
    · rw [if_pos pending]
      exact .inr rfl
    · have some : info.hostid ≠ 0 := by
        intro zero
        rw [zero] at hostid
        exact absurd hostid.1 (by decide)
      have none : info.reorderLen = 0 := by
        by_contra nonzero
        refine pending ?_
        unfold RxReorderInfo.pending
        exact Bool.and_eq_true_iff.mpr ⟨bne_iff_ne.mpr some, bne_iff_ne.mpr nonzero⟩
      refine .inl ?_
      unfold Release.window indicated
      rw [none]
      rfl
  have wf : (indicated info).Wf := by
    refine ⟨hostid, ?_⟩
    show (info.reorderLen &&& 0xff).toNat ≤ 4096
    have low : (info.reorderLen &&& 0xff).toNat ≤ 255 := by
      rw [BitVec.toNat_and]
      exact Nat.and_le_right
    omega
  refine ⟨⟨inv.rx.partition, inv.rx.once, inv.rx.old⟩, fun i r pending => ?_, fun r mem => ?_, inv.call, inv.applied,
    inv.released, ?_⟩
  · have pending : timeoutRequest (update s.rx.reorderInfo (getTid info.reorderLen).toNat info i) = some r :=
      pending
    by_cases here : i = (getTid info.reorderLen).toNat
    · subst here
      rw [update_self] at pending
      unfold timeoutRequest at pending
      split at pending
      · obtain rfl := some.inj pending
        exact ⟨wf, rfl⟩
      · cases pending
    · rw [update_of_ne here] at pending
      exact inv.entries i r pending
  · have mem : r ∈ s.due ++ (s.later ++ [indicated info]) := mem
    have here : update s.rx.reorderInfo (getTid info.reorderLen).toNat info (getTid info.reorderLen).toNat =
        info := update_self ..
    rw [← List.append_assoc] at mem
    rcases List.mem_append.mp mem with old | new
    · obtain ⟨inside, waits⟩ := inv.waits r old
      refine ⟨inside, ?_⟩
      show _ ∨ ∃ q, timeoutRequest (update s.rx.reorderInfo (getTid info.reorderLen).toNat info r.tid.toNat) =
        some q ∧ _
      by_cases same : r.tid = getTid info.reorderLen
      · rw [same, here]
        rcases window with none | pending
        · refine .inl (List.eq_nil_iff_forall_not_mem.mpr fun id mem => ?_)
          have covered := fits r old same mem
          rw [none] at covered
          exact absurd covered List.not_mem_nil
        · exact .inr ⟨_, pending, fits r old same⟩
      · rw [update_of_ne fun clash => same (BitVec.eq_of_toNat_eq clash)]
        exact waits
    · obtain rfl := List.mem_singleton.mp new
      refine ⟨below, ?_⟩
      show _ ∨ ∃ q, timeoutRequest (update s.rx.reorderInfo (getTid info.reorderLen).toNat info
        (getTid info.reorderLen).toNat) = some q ∧ _
      rw [here]
      exact window.imp_right fun pending => ⟨_, pending, fun _ mem => mem⟩
  · show (if (getTid info.reorderLen).toNat < reorderInfoCnt then s.stray else s.stray + 1) = 0
    rw [if_pos below]
    exact inv.inside

theorem rxSkbHandle (env : RxEnv) (desc : RxDescHead) :
    TimeoutInv created { s with rx := (Rx.rxSkbHandle env s.rx desc none).1 } := by
  have info := rxSkbHandle_info env s.rx desc
  refine ⟨?_, ?_, ?_, inv.call, inv.applied, inv.released, inv.inside⟩
  · have nothing : ∀ n ∈ (none : Option Node), n ∈ s.rx.reorderList := nofun
    exact inv.rx.call nothing (rxSkbHandle_cases s.rx ⟨env, desc, none⟩)
  · show ∀ i r, timeoutRequest ((Rx.rxSkbHandle env s.rx desc none).1.reorderInfo i) = some r → _
    rw [info]
    exact inv.entries
  · show ∀ r ∈ s.due ++ s.later, _ ∧ (_ ∨ ∃ q, timeoutRequest
      ((Rx.rxSkbHandle env s.rx desc none).1.reorderInfo r.tid.toNat) = some q ∧ _)
    rw [info]
    exact inv.waits

theorem begin (desc : RxDescHead) (start length : BitVec 32) : TimeoutInv created (s.begin desc start length) where
  rx := inv.rx
  entries := inv.entries
  waits := fun r mem => inv.waits r (by rwa [TimeoutHw.begin, List.append_nil] at mem)
  call := fun c here r _ => by
    obtain rfl := some.inj here
    exact Nat.zero_le _
  applied := nofun
  released := inv.released
  inside := inv.inside

theorem serve {c : ReorderCall} (here : s.call = some c) : TimeoutInv created (s.serve env c) := by
  have distinct : s.rx.reorderList.Nodup := (List.nodup_append.mp inv.rx.nodup).1
  obtain ⟨released, -, info⟩ := serveTimeout_spec env s.rx.rxdata c.next (s.rx, c.desc) rfl distinct
    fun r pending => (inv.entries c.next r pending).1
  have rx := serveTimeout_inv env (s.rx, c.desc) c.next inv.rx
  have left := released.stored
  rw [serve_stored] at left
  have entry : ∀ i, timeoutRequest ((serveTimeout env (s.rx, c.desc) c.next).1.reorderInfo i) =
      if i = c.next then none else timeoutRequest (s.rx.reorderInfo i) := fun i => by
    rw [info]
    split
    · case isTrue same =>
      subst same
      rw [update_self]
      unfold RxReorderInfo.cleared timeoutRequest
      split
      · rfl
      · rfl
    · case isFalse other => rw [update_of_ne other]
  refine ⟨rx, fun i r pending => ?_, fun r mem => ?_, fun d there r mem => ?_, nofun, ?_, inv.inside⟩
  · have pending : timeoutRequest ((serveTimeout env (s.rx, c.desc) c.next).1.reorderInfo i) = some r := pending
    rw [entry] at pending
    split at pending
    · cases pending
    · exact inv.entries i r pending
  · have mem : r ∈ (s.due.filter fun r => r.tid.toNat ≠ c.next) ++ s.later.filter fun r => r.tid.toNat ≠ c.next := mem
    rw [← List.filter_append] at mem
    obtain ⟨old, other⟩ := List.mem_filter.mp mem
    obtain ⟨inside, waits⟩ := inv.waits r old
    refine ⟨inside, ?_⟩
    show _ ∨ ∃ q, timeoutRequest ((serveTimeout env (s.rx, c.desc) c.next).1.reorderInfo r.tid.toNat) = some q ∧ _
    rw [entry, if_neg (of_decide_eq_true other)]
    exact waits
  · obtain rfl := some.inj there
    obtain ⟨old, other⟩ := List.mem_filter.mp mem
    exact Nat.lt_of_le_of_ne (inv.call c here r old) (Ne.symm (of_decide_eq_true other))
  · show s.missed ++ _ = []
    rw [inv.released, List.nil_append, List.filter_eq_nil_iff]
    intro r mem missed
    obtain ⟨tid, n, stays, covered⟩ := of_decide_eq_true missed
    rw [left] at stays
    obtain ⟨-, uncovered⟩ := List.mem_filter.mp stays
    have uncovered := of_decide_eq_true uncovered
    rw [released.rxdata] at covered
    obtain ⟨-, empty | ⟨q, pending, inside⟩⟩ := inv.waits r mem
    · have clash := covered.1
      rw [empty] at clash
      exact absurd clash List.not_mem_nil
    · rw [tid] at pending
      have sameTid : q.tid = r.tid :=
        BitVec.eq_of_toNat_eq ((inv.entries c.next q pending).2.trans tid.symm)
      refine uncovered q ?_ ⟨inside covered.1, covered.2.trans sameTid.symm⟩
      exact Option.mem_toList.mpr pending

theorem finish {c : ReorderCall} (here : s.call = some c)
    (last : reorderInfoCnt ≤ c.next) : TimeoutInv created (s.finish env c) := by
  have none : s.due = [] := List.eq_nil_iff_forall_not_mem.mpr fun r mem => by
    have inside := (inv.waits r (List.mem_append_left _ mem)).1
    have past := inv.call c here r mem
    omega
  have rx : RxdataInv created (s.finish env c).rx ∧ (s.finish env c).rx.reorderInfo = s.rx.reorderInfo := by
    unfold TimeoutHw.finish
    dsimp only
    split
    · obtain ⟨inv', forwarding⟩ := releaseWindow_inv env c.start (getTid c.desc.packageInfo) (List.range c.length.toNat)
        (s.rx, { c.desc with status := rxStatForward }) rfl inv.rx
      exact ⟨inv', forwarding.info⟩
    · exact ⟨inv.rx, rfl⟩
  refine ⟨rx.1, ?_, ?_, nofun, fun _ => none, inv.released, inv.inside⟩
  · rw [rx.2]
    exact inv.entries
  · show ∀ r ∈ s.due ++ s.later, _ ∧ (_ ∨ ∃ q, timeoutRequest ((s.finish env c).rx.reorderInfo r.tid.toNat) =
      some q ∧ _)
    rw [rx.2]
    exact inv.waits

theorem act {a : TimeoutAct} (separate : Separate s a) {t : TimeoutHw}
    (stepped : s.act a = some t) : TimeoutInv created t := by
  cases a with
  | reordFlushInd info =>
    obtain rfl := some.inj stepped
    exact inv.reordFlushInd separate
  | rxSkbHandle env desc =>
    unfold TimeoutHw.act at stepped
    dsimp only at stepped
    split at stepped
    · obtain rfl := some.inj stepped
      exact inv.rxSkbHandle env desc
    · cases stepped
  | hostReoderHandle desc start length =>
    unfold TimeoutHw.act at stepped
    dsimp only at stepped
    split at stepped
    · obtain rfl := some.inj stepped
      exact inv.begin desc start length
    · cases stepped
  | goOn env =>
    obtain rfl := some.inj stepped
    unfold TimeoutHw.goOn
    split
    · exact inv
    · case h_2 c here =>
      split
      · exact inv.serve env here
      · case isFalse last => exact inv.finish env here (Nat.not_lt.mp last)

end

end TimeoutInv

/-- **The windows are applied** in every run of messages that find their entry free. -/
theorem reorder_timeouts (created : ℕ) {s : TimeoutHw} (reach : (timeoutSystem created).Reachable Separate s) :
    TimeoutsApplied s := by
  have inv : TimeoutInv created s := reach.invariant (I := TimeoutInv created) TimeoutInv.init
    fun _ _ _ _ inv separate stepped => inv.act separate stepped
  exact ⟨inv.inside, inv.applied, inv.released⟩

def storedFrame : RxDescHead where
  hostid := 1
  frameLen := 0x1000
  status := rxStatAlloc
  packageInfo := 1

/-- A frame is stored, its window is indicated, and the next call lets it go. -/
theorem reorder_timeouts_one : ∃ s : TimeoutHw, s.rx.reorderList = [] ∧ s.rx.freeRxdataList = [0] ∧
    TimeoutsApplied s := by
  have stored := System.Reachable.step (S := timeoutSystem 1) .init
    (show Separate _ (.rxSkbHandle {} storedFrame) from trivial) rfl
  have told := stored.step (show Separate _ (.reordFlushInd ⟨1, 1⟩) from
    ⟨⟨le_rfl, by decide⟩, by decide, fun r mem => absurd mem List.not_mem_nil⟩) rfl
  have called := told.step (show Separate _ (.hostReoderHandle storedFrame 0 0) from trivial) rfl
  have served := called.step (show Separate _ (.goOn fun _ => {}) from trivial) rfl
  exact ⟨_, by decide, by decide, reorder_timeouts 1 served⟩

/-- **A second message for a TID** before the next call loses the first. -/
theorem second_timeout_loses_first : ¬ ∀ (created : ℕ) (s : TimeoutHw),
    (timeoutSystem created).Reachable (fun _ _ => True) s → TimeoutsApplied s := by
  intro all
  have reach := System.reachable_of_run (timeoutSystem 1) (fun _ (_ : TimeoutAct) => True)
    [.rxSkbHandle {} storedFrame, .reordFlushInd ⟨1, 1⟩, .reordFlushInd ⟨2, 1⟩, .hostReoderHandle storedFrame 0 0,
      .goOn fun _ => {}] rfl
  exact absurd (all 1 _ reach).released (by decide)

end W2l.Rx
