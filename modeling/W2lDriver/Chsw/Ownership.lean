/-
**Channel switches of an AP: the ownership in every run.**

* `afterBuild`, `Complete` — what a beacon stores when it was built, and when it is built to the end.
* `Fits` — **a call that loses nothing**: off PCIe one that ends before the new beacon is sent; on PCIe also
  one that ends before the object is allocated, or with its beacon, if the stored beacon does not change
  unless the call succeeds.
* `Smooth` — such calls, and the AP is stopped only without a work that is pending or runs.
* `Intact`, `csa_ownership` — **the ownership of the objects** in every run of such steps.
-/

import W2lDriver.Chsw.Switch

namespace W2l.Chsw

open Lib (Heap System)
open Function (update_of_ne update_self)
open List (append_nil cons_append count_append count_cons mem_append_left mem_append_right mem_cons
  mem_cons_of_mem mem_cons_self nodup_nil not_mem_nil perm_iff_count)
open Option (mem_toList some.inj toList_some)
open CsaHw (csaAt csaHeld delCsa forceCount)

/-! ### Beacons -/

def afterTail (env : BuildEnv) (new : BeaconData) (old : Stored) : Stored :=
  match new.tail with
  | none => old
  | some d => if env.tail then { old with tail := some d } else old

/-- **What a beacon stores** when `aml_build_bcn` returns. -/
def afterBuild (env : BuildEnv) (new : BeaconData) (old : Stored) : Stored :=
  match new.head with
  | none => afterTail env new old
  | some d => if env.head then afterTail env new { old with head := some d } else old

/-- **`aml_build_bcn` returns a buffer.** -/
def Complete (env : BuildEnv) (new : BeaconData) (old : Stored) : Prop :=
  (new.head ≠ none → env.head = true) ∧ (new.tail ≠ none → env.tail = true) ∧
    (new.head ≠ none ∨ old.head ≠ none) ∧ env.buf = true

instance (env : BuildEnv) (new : BeaconData) (old : Stored) : Decidable (Complete env new old) :=
  inferInstanceAs (Decidable (_ ∧ _ ∧ _ ∧ _))

section Heap

variable {h : Heap Obj} {l : List ℕ} {p : Option ℕ}

theorem kfree_owns (owns : h.Owns (p.toList ++ l)) : (kfree h p).Owns l := by
  cases p with
  | none => exact owns
  | some i => exact Heap.Owns.free owns

@[simp] theorem kfree_obj : (kfree h p).obj = h.obj := by
  cases p <;> rfl

theorem touch_owned (owns : h.Owns l) (owned : ∀ i, p = some i → i ∈ l) : touch h p = h := by
  cases p with
  | none => rfl
  | some i => exact owns.use_eq (owned i rfl)

theorem alloc_frame (owns : h.Owns l) {a : Obj} {i : ℕ} (mem : i ∈ l) : (h.alloc a).obj i = h.obj i :=
  update_of_ne (Nat.ne_of_lt (owns.lt_next mem)) ..

theorem readBytes_congr {h' : Heap Obj} (same : ∀ i, p = some i → h'.obj i = h.obj i) :
    readBytes h' p = readBytes h p := by
  cases p with
  | none => rfl
  | some i =>
    show ((h'.obj i).map Obj.toBytes).getD [] = ((h.obj i).map Obj.toBytes).getD []
    rw [same i rfl]

theorem storedOf_congr {h' : Heap Obj} {bcn : Bcn} (same : ∀ i ∈ bcn.parts, h'.obj i = h.obj i) :
    storedOf h' bcn = storedOf h bcn := by
  have each : ∀ q : Option ℕ, (∀ i, q = some i → i ∈ bcn.parts) →
      (q.map fun i => readBytes h' (some i)) = q.map fun i => readBytes h (some i) := fun q part => by
    cases q with
    | none => rfl
    | some i =>
      refine congrArg some (readBytes_congr fun j here => ?_)
      exact same j (part j here)
  unfold storedOf
  rw [each bcn.head fun i here => mem_append_left _ (mem_toList.mpr here),
    each bcn.tail fun i here => mem_append_right _ (mem_toList.mpr here)]

end Heap

/-- **What `aml_build_bcn` does**: it allocates what the beacon and the buffer point to. -/
structure Builds (h : Heap Obj) (l : List ℕ) (r : Built) (after : Stored) (complete : Prop) : Prop where
  owns : r.heap.Owns (r.buf.toList ++ (r.bcn.parts ++ l))
  frame : ∀ i ∈ l, r.heap.obj i = h.obj i
  stored : storedOf r.heap r.bcn = after
  done : r.buf ≠ none ↔ complete

section Build

variable (env : BuildEnv) (new : BeaconData) (bcn : Bcn) {h : Heap Obj} {l : List ℕ}

theorem buildFrame_builds (owns : h.Owns (bcn.parts ++ l)) :
    Builds h l (buildFrame env bcn h) (storedOf h bcn) (bcn.head ≠ none ∧ env.buf = true) := by
  unfold buildFrame
  by_cases none : bcn.head = none
  · rw [if_pos none]
    exact ⟨owns, fun _ _ => rfl, rfl, iff_of_false (fun some => some rfl) fun both => both.1 none⟩
  rw [if_neg none]
  cases buf : env.buf with
  | false => exact ⟨owns, fun _ _ => rfl, rfl, iff_of_false (fun some => some rfl) nofun⟩
  | true =>
    rw [if_pos rfl]
    dsimp only
    have headOwned : ∀ i, bcn.head = some i → i ∈ bcn.parts ++ l := fun i here =>
      mem_append_left _ (mem_append_left _ (mem_toList.mpr here))
    have tailOwned : ∀ i, bcn.tail = some i → i ∈ bcn.parts ++ l := fun i here =>
      mem_append_left _ (mem_append_right _ (mem_toList.mpr here))
    rw [touch_owned owns headOwned, touch_owned owns tailOwned]
    refine ⟨owns.alloc _, fun i mem => alloc_frame owns (mem_append_right _ mem), ?_, iff_of_true nofun ⟨none, rfl⟩⟩
    refine storedOf_congr fun i mem => ?_
    exact alloc_frame owns (mem_append_left _ mem)

theorem replace_owns {p : Option ℕ} {rest : List ℕ} (owns : h.Owns (p.toList ++ rest)) (d : Bytes) :
    (kfree (h.alloc (.bytes d)) p).Owns (h.next :: rest) := by
  refine kfree_owns ((owns.alloc _).perm ?_)
  exact List.perm_middle.symm

theorem replace_obj {p : Option ℕ} {rest : List ℕ} (owns : h.Owns (p.toList ++ rest)) (d : Bytes) {i : ℕ}
    (mem : i ∈ rest) : (kfree (h.alloc (.bytes d)) p).obj i = h.obj i := by
  rw [kfree_obj]
  exact alloc_frame owns (mem_append_right _ mem)

theorem replace_read {p : Option ℕ} (d : Bytes) : readBytes (kfree (h.alloc (.bytes d)) p) (some h.next) = d := by
  show (((kfree (h.alloc (.bytes d)) p).obj h.next).map Obj.toBytes).getD [] = d
  rw [kfree_obj, Heap.alloc_obj, update_self]
  rfl

theorem Builds.mono {h' : Heap Obj} {r : Built} {after after' : Stored} {complete complete' : Prop}
    (builds : Builds h' l r after complete) (frame : ∀ i ∈ l, h'.obj i = h.obj i) (stored : after = after')
    (done : complete ↔ complete') : Builds h l r after' complete' :=
  ⟨builds.owns, fun i mem => (builds.frame i mem).trans (frame i mem), builds.stored.trans stored,
    builds.done.trans done⟩

theorem buildTail_builds (owns : h.Owns (bcn.parts ++ l)) :
    Builds h l (buildTail env new bcn h) (afterTail env new (storedOf h bcn))
      ((new.tail ≠ none → env.tail = true) ∧ bcn.head ≠ none ∧ env.buf = true) := by
  unfold buildTail afterTail
  cases tail : new.tail with
  | none =>
    refine (buildFrame_builds env bcn owns).mono (fun _ _ => rfl) rfl ⟨fun both => ⟨fun some => ?_, both⟩, And.right⟩
    exact (some rfl).elim
  | some d =>
    cases allocated : env.tail with
    | false =>
      refine ⟨owns, fun _ _ => rfl, rfl, iff_of_false (fun some => some rfl) fun both => ?_⟩
      exact nomatch both.1 nofun
    | true =>
      have moved : h.Owns (bcn.tail.toList ++ (bcn.head.toList ++ l)) := by
        refine owns.perm ?_
        rw [perm_iff_count]
        intro x
        simp only [Bcn.parts, count_append]
        omega
      have owns' := replace_owns moved d
      have built := buildFrame_builds env { bcn with tail := some h.next, tailLen := d.length } (l := l)
        (h := kfree (h.alloc (.bytes d)) bcn.tail) (owns'.perm (by
          rw [perm_iff_count]
          intro x
          simp only [Bcn.parts, count_append, count_cons, toList_some, List.count_nil]
          omega))
      refine built.mono (fun i mem => replace_obj moved d (mem_append_right _ mem)) ?_
        ⟨fun both => ⟨fun _ => rfl, both⟩, And.right⟩
      have head : (bcn.head.map fun i => readBytes (kfree (h.alloc (.bytes d)) bcn.tail) (some i)) =
          bcn.head.map fun i => readBytes h (some i) := by
        cases part : bcn.head with
        | none => rfl
        | some i =>
          refine congrArg some (readBytes_congr fun j here => ?_)
          obtain rfl := some.inj here
          refine replace_obj moved d (mem_append_left _ ?_)
          rw [part]
          exact List.mem_singleton_self i
      show Stored.mk _ (some (readBytes _ (some h.next))) = _
      rw [head, replace_read]
      rfl

theorem buildBcn_builds (owns : h.Owns (bcn.parts ++ l)) :
    Builds h l (buildBcn env new bcn h) (afterBuild env new (storedOf h bcn))
      (Complete env new (storedOf h bcn)) := by
  have headOf : (storedOf h bcn).head ≠ none ↔ bcn.head ≠ none := not_congr Option.map_eq_none_iff
  unfold buildBcn afterBuild Complete
  rw [headOf]
  cases head : new.head with
  | none =>
    refine (buildTail_builds env new bcn owns).mono (fun _ _ => rfl) rfl ⟨?_, ?_⟩
    · exact fun ⟨tail, there, buf⟩ => ⟨fun some => (some rfl).elim, tail, .inr there, buf⟩
    · exact fun ⟨_, tail, there, buf⟩ => ⟨tail, there.resolve_left fun some => some rfl, buf⟩
  | some d =>
    cases allocated : env.head with
    | false =>
      refine ⟨owns, fun _ _ => rfl, rfl, iff_of_false (fun some => some rfl) fun both => ?_⟩
      exact nomatch both.1 nofun
    | true =>
      have moved : h.Owns (bcn.head.toList ++ (bcn.tail.toList ++ l)) := by
        rw [← List.append_assoc]
        exact owns
      have owns' := replace_owns moved d
      have built := buildTail_builds env new { bcn with head := some h.next, headLen := d.length } (l := l)
        (h := kfree (h.alloc (.bytes d)) bcn.head) owns'
      refine built.mono (fun i mem => replace_obj moved d (mem_append_right _ mem)) ?_ ⟨?_, ?_⟩
      · have tail : (bcn.tail.map fun i => readBytes (kfree (h.alloc (.bytes d)) bcn.head) (some i)) =
            bcn.tail.map fun i => readBytes h (some i) := by
          cases part : bcn.tail with
          | none => rfl
          | some i =>
            refine congrArg some (readBytes_congr fun j here => ?_)
            obtain rfl := some.inj here
            refine replace_obj moved d (mem_append_left _ ?_)
            rw [part]
            exact List.mem_singleton_self i
        have same : storedOf (kfree (h.alloc (.bytes d)) bcn.head)
            { bcn with head := some h.next, headLen := d.length } = { storedOf h bcn with head := some d } := by
          show Stored.mk (some (readBytes _ (some h.next))) _ = _
          rw [replace_read, tail]
          rfl
        rw [same]
        rfl
      · exact fun ⟨tail, _, buf⟩ => ⟨fun _ => rfl, tail, .inl nofun, buf⟩
      · exact fun ⟨_, tail, _, buf⟩ => ⟨tail, nofun, buf⟩

end Build

/-! ### The object -/

section Object

variable {bus : Bus} {s : CsaHw} {i : ℕ} {l : List ℕ}

/-- What an object points to: a beacon and a buffer on PCIe, nothing in the SCC case. -/
structure OfBus (bus : Bus) (c : Csa) : Prop where
  set : ∃ a, c.buf = .set a
  scc : c.scc = true → c.bcn = {} ∧ c.buf = .set none
  pcie : c.scc = false → bus = .pcie

theorem csaAt_eq {c : Csa} (obj : s.heap.obj i = some (.csa c)) : s.csaAt i = c := by
  unfold csaAt
  rw [obj]

theorem csaHeld_some {c : Csa} (here : s.csa = some i) (obj : s.heap.obj i = some (.csa c)) :
    s.csaHeld = i :: (c.buf.parts ++ c.bcn.parts) := by
  unfold csaHeld
  split
  · case h_1 none => exact nomatch none.symm.trans here
  · case h_2 j there =>
    obtain rfl : j = i := some.inj (there.symm.trans here)
    rw [csaAt_eq obj]

theorem csaHeld_congr {t : CsaHw} (csa : t.csa = s.csa)
    (obj : ∀ i, s.csa = some i → t.heap.obj i = s.heap.obj i) : t.csaHeld = s.csaHeld := by
  have same : ∀ i, s.csa = some i → t.csaAt i = s.csaAt i := fun i here => by
    unfold csaAt
    rw [obj i here]
  unfold csaHeld
  rw [csa]
  split
  · rfl
  · case h_2 i here => rw [same i here]

theorem delBcn_owns {bcn : Bcn} {h : Heap Obj} (owns : h.Owns (bcn.parts ++ l)) : (delBcn bcn h).Owns l := by
  refine kfree_owns (kfree_owns ?_)
  rw [← List.append_assoc]
  exact owns

theorem delBcn_obj {bcn : Bcn} {h : Heap Obj} : (delBcn bcn h).obj = h.obj := by
  unfold delBcn
  rw [kfree_obj, kfree_obj]

theorem dealloc_set {a : Option ℕ} (pcie : a ≠ none → bus = .pcie) (owns : s.heap.Owns (a.toList ++ l)) :
    ∃ h : Heap Obj, s.ipcBufDealloc bus (.set a) = { s with heap := h } ∧ h.Owns l ∧ h.obj = s.heap.obj := by
  cases a with
  | none => exact ⟨s.heap, rfl, owns, rfl⟩
  | some j => exact ⟨s.heap.free j, if_pos (pcie nofun), owns.free, rfl⟩

theorem delCsa_spec {c : Csa} (here : s.csa = some i) (obj : s.heap.obj i = some (.csa c)) (fits : OfBus bus c)
    (owns : s.heap.Owns (i :: (c.buf.parts ++ c.bcn.parts) ++ l)) :
    ∃ h : Heap Obj, s.delCsa bus = { s with heap := h, csa := none } ∧ h.Owns l ∧ h.obj = s.heap.obj := by
  obtain ⟨a, buf⟩ := fits.set
  have pcie : a ≠ none → bus = .pcie := fun some => by
    cases scc : c.scc with
    | false => exact fits.pcie scc
    | true => exact absurd (IpcBuf.set.inj (buf.symm.trans (fits.scc scc).2)) some
  have used : { s with heap := s.heap.use i } = s := by rw [owns.use_eq mem_cons_self]
  have ordered : s.heap.Owns (a.toList ++ (c.bcn.parts ++ (i :: l))) := by
    refine owns.perm ?_
    rw [buf, perm_iff_count]
    intro x
    simp only [IpcBuf.parts, count_append, count_cons, cons_append]
    omega
  obtain ⟨h, given, owns', objs⟩ := dealloc_set pcie ordered
  refine ⟨(delBcn c.bcn h).free i, ?_, (delBcn_owns owns').free, ?_⟩
  · unfold delCsa
    split
    · case h_1 none => exact nomatch none.symm.trans here
    · case h_2 j there =>
      obtain rfl : j = i := some.inj (there.symm.trans here)
      dsimp only
      rw [csaAt_eq obj, used, buf, given]
  · exact delBcn_obj.trans objs

end Object

/-! ### The call -/

def Unchanged (s : CsaHw) (settings : CsaSettings) (env : CsaEnv) : Prop :=
  afterBuild env.first settings.beaconCsa s.stored = s.stored

/-- **A call that loses nothing.** -/
def Fits (bus : Bus) (s : CsaHw) (settings : CsaSettings) (env : CsaEnv) : Prop :=
  s.csa = none ∧ (bcnMaxCsaCpt < settings.counterOffsets.length ∨
      (¬ Complete env.first settings.beaconCsa s.stored ∧ Unchanged s settings env) ∨
      (Complete env.first settings.beaconCsa s.stored ∧ bus = .pcie ∧
        (((env.mapped = false ∨ env.csa = false) ∧ Unchanged s settings env) ∨
          (env.mapped = true ∧ env.csa = true ∧ Complete env.second settings.beaconAfter ⟨none, none⟩ ∧
            env.mappedAfter = true ∧ (env.sent = false → Unchanged s settings env)))))

/-- What a call leaves: all but the objects of the interface as it was. -/
structure Leaves (bus : Bus) (s : CsaHw) (t : CsaHw × Option Errno) : Prop where
  owns : t.1.heap.Owns t.1.held
  csa : ∀ i, t.1.csa = some i → ∃ c, t.1.heap.obj i = some (.csa c) ∧ OfBus bus c
  started : t.1.csa ≠ none ↔ t.1.inProgress = true
  failed : t.2 ≠ none → t.1.csa = none ∧ t.1.stored = s.stored
  queued : t.1.queued = s.queued
  running : t.1.running = s.running
  uninit : t.1.uninit = s.uninit
  calls : t.1.calls = s.calls

section Call

variable {s u : CsaHw} {settings : CsaSettings} {env : CsaEnv} {b : ℕ}

/-- The interface between the steps of a call: the stored beacon was built, with the parts of it. -/
structure Between (s u : CsaHw) : Prop where
  none : u.csa = none
  idle : u.inProgress = false
  queued : u.queued = s.queued
  running : u.running = s.running
  uninit : u.uninit = s.uninit
  calls : u.calls = s.calls

theorem leaves_failed (between : Between s u) (owns : u.heap.Owns u.bcn.parts) (kept : u.stored = s.stored)
    (bus : Bus) (error : Errno) : Leaves bus s (u, some error) where
  owns := by
    unfold CsaHw.held csaHeld
    rw [between.none, append_nil]
    exact owns
  csa := fun i here => nomatch between.none.symm.trans here
  started := iff_of_false (fun some => some between.none) fun idle => nomatch between.idle.symm.trans idle
  failed := fun _ => ⟨between.none, kept⟩
  queued := between.queued
  running := between.running
  uninit := between.uninit
  calls := between.calls

theorem switchEnd_failed (between : Between s u) (owns : u.heap.Owns (b :: u.bcn.parts)) (kept : u.stored = s.stored)
    (error : Errno) : Leaves .pcie s (u.switchEnd .pcie (.set (some b)) (some error)) :=
  leaves_failed (u := { u with heap := u.heap.free b })
    ⟨between.none, between.idle, between.queued, between.running, between.uninit, between.calls⟩
      owns.free kept .pcie error

theorem switchSend_leaves {i : ℕ} {c : Csa} (between : Between s { u with csa := none }) (here : u.csa = some i)
    (obj : u.heap.obj i = some (.csa c)) (fits : OfBus .pcie c)
    (owns : u.heap.Owns (b :: (u.bcn.parts ++ i :: (c.buf.parts ++ c.bcn.parts))))
    (kept : env.sent = false → u.stored = s.stored) : Leaves .pcie s (u.switchSend .pcie env (.set (some b))) := by
  unfold CsaHw.switchSend
  cases sent : env.sent with
  | true =>
    rw [if_pos rfl]
    refine ⟨?_, fun j there => ?_, iff_of_true (here ▸ nofun) rfl, fun some => (some rfl).elim, between.queued,
      between.running, between.uninit, between.calls⟩
    · show (u.heap.free b).Owns (u.bcn.parts ++ csaHeld { u with heap := u.heap.free b, inProgress := true })
      rw [csaHeld_some (s := { u with heap := u.heap.free b, inProgress := true }) here obj]
      exact owns.free
    · obtain rfl : i = j := some.inj (here.symm.trans there)
      exact ⟨c, obj, fits⟩
  | false =>
    have ordered : u.heap.Owns (i :: (c.buf.parts ++ c.bcn.parts) ++ (b :: u.bcn.parts)) := by
      refine owns.perm ?_
      rw [perm_iff_count]
      intro x
      simp only [count_append, count_cons, cons_append]
      omega
    obtain ⟨h, deleted, owns', objs⟩ := delCsa_spec here obj fits ordered
    rw [if_neg Bool.false_ne_true, deleted]
    refine switchEnd_failed (u := { u with heap := h, csa := none })
      ⟨rfl, between.idle, between.queued, between.running, between.uninit, between.calls⟩ owns' ?_ .io
    exact (storedOf_congr fun j _ => congrFun objs j).trans (kept sent)

theorem switchAlloc_leaves (between : Between s u) (owns : u.heap.Owns (b :: u.bcn.parts))
    (way : (env.csa = false ∧ u.stored = s.stored) ∨
      (env.csa = true ∧ Complete env.second settings.beaconAfter ⟨none, none⟩ ∧ env.mappedAfter = true ∧
        (env.sent = false → u.stored = s.stored))) :
    Leaves .pcie s (u.switchAlloc .pcie settings env (.set (some b))) := by
  unfold CsaHw.switchAlloc
  rcases way with ⟨csa, kept⟩ | ⟨csa, complete, mapped, kept⟩
  · rw [if_pos csa]
    exact switchEnd_failed between owns kept .nomem
  rw [if_neg (by rw [csa]; decide)]
  dsimp only
  have built := buildBcn_builds env.second settings.beaconAfter {}
    (h := u.heap.alloc (.csa {})) (l := u.heap.next :: b :: u.bcn.parts) (owns.alloc _)
  generalize buildBcn env.second settings.beaconAfter {} (u.heap.alloc (.csa {})) = r at built ⊢
  have csaOwned : u.heap.next ∈ r.buf.toList ++ (r.bcn.parts ++ u.heap.next :: b :: u.bcn.parts) :=
    mem_append_right _ (mem_append_right _ mem_cons_self)
  have frame : ∀ i ∈ b :: u.bcn.parts, r.heap.obj i = u.heap.obj i := fun i mem =>
    (built.frame i (mem_cons_of_mem _ mem)).trans (alloc_frame owns mem)
  have csaObj : r.heap.obj u.heap.next = some (.csa {}) := by
    rw [built.frame _ mem_cons_self]
    exact update_self ..
  have fresh : ∀ i ∈ u.bcn.parts, i ≠ u.heap.next := fun i mem =>
    Nat.ne_of_lt (owns.lt_next (mem_cons_of_mem _ mem))
  have owns' := built.owns
  cases buf : r.buf with
  | none => exact absurd buf (built.done.mpr complete)
  | some after =>
    rw [buf] at owns' csaOwned
    dsimp only
    unfold CsaHw.switchMap ipcBufA2eInit
    dsimp only
    rw [if_pos mapped]
    dsimp only
    have modified := owns'.modify csaOwned fun _ => .csa { bcn := r.bcn }
    have twice := modified.modify csaOwned fun _ => .csa { bcn := r.bcn, buf := .set (some after) }
    have at' : csaAt { u with heap := r.heap.modify u.heap.next fun _ => .csa { bcn := r.bcn } } u.heap.next =
        { bcn := r.bcn } := by
      refine csaAt_eq ?_
      show Function.update r.heap.obj u.heap.next ((r.heap.obj u.heap.next).map _) u.heap.next = _
      rw [update_self, csaObj]
      rfl
    rw [at', if_pos rfl]
    have other : ∀ i ∈ u.bcn.parts, ((r.heap.modify u.heap.next fun _ => .csa { bcn := r.bcn }).modify u.heap.next
        fun _ => .csa { bcn := r.bcn, buf := .set (some after) }).obj i = u.heap.obj i := fun i mem => by
      rw [Heap.modify_obj, update_of_ne (fresh i mem), Heap.modify_obj, update_of_ne (fresh i mem)]
      exact frame i (mem_cons_of_mem _ mem)
    refine switchSend_leaves (c := { bcn := r.bcn, buf := .set (some after) })
      ⟨rfl, between.idle, between.queued, between.running, between.uninit, between.calls⟩ rfl ?_
      ⟨⟨_, rfl⟩, nofun, fun _ => rfl⟩ (twice.perm ?_) fun refused => ?_
    · dsimp only
      rw [Heap.modify_obj, update_self, Heap.modify_obj, update_self, csaObj]
      rfl
    · rw [perm_iff_count]
      intro x
      simp only [IpcBuf.parts, toList_some, count_append, count_cons, cons_append, List.nil_append]
      omega
    · exact (storedOf_congr other).trans (kept refused)

theorem channelSwitch_leaves {bus : Bus} (fits : Fits bus s settings env) (owns : s.heap.Owns s.bcn.parts)
    (idle : s.inProgress = false) : Leaves bus s (s.channelSwitch bus settings env) := by
  obtain ⟨none, way⟩ := fits
  have between : Between s s := ⟨none, idle, rfl, rfl, rfl, rfl⟩
  unfold CsaHw.channelSwitch
  rw [if_neg (not_not.mpr none)]
  by_cases many : bcnMaxCsaCpt < settings.counterOffsets.length
  · rw [if_pos many]
    exact leaves_failed between owns rfl bus .inval
  rw [if_neg many]
  have way := way.resolve_left many
  dsimp only
  have built := buildBcn_builds env.first settings.beaconCsa s.bcn (h := s.heap) (l := [])
    ((append_nil s.bcn.parts).symm ▸ owns)
  rw [show storedOf s.heap s.bcn = s.stored from rfl] at built
  generalize buildBcn env.first settings.beaconCsa s.bcn s.heap = r at built ⊢
  have owns' := built.owns
  rw [append_nil] at owns'
  cases buf : r.buf with
  | none =>
    obtain ⟨-, kept⟩ := way.resolve_right fun both => built.done.mpr both.1 buf
    rw [buf] at owns'
    exact leaves_failed (s := s) (u := { s with heap := r.heap, bcn := r.bcn })
      ⟨none, idle, rfl, rfl, rfl, rfl⟩ owns' (built.stored.trans kept) bus .nomem
  | some bcnBuf =>
    obtain ⟨-, rfl, rest⟩ := way.resolve_left fun both => both.1 (built.done.mp (buf ▸ nofun))
    rw [buf] at owns'
    have forced := owns'.modify mem_cons_self fun o =>
      .bytes (forceCount settings r.bcn.headLen r.bcn.timLen o.toBytes)
    have apart : ∀ i ∈ r.bcn.parts, i ≠ bcnBuf := fun i mem => by
      rintro rfl
      exact (List.nodup_cons.mp owns'.nodup).1 mem
    have stored : storedOf (r.heap.modify bcnBuf fun o =>
        .bytes (forceCount settings r.bcn.headLen r.bcn.timLen o.toBytes)) r.bcn =
        afterBuild env.first settings.beaconCsa s.stored := by
      refine (storedOf_congr fun i mem => ?_).trans built.stored
      rw [Heap.modify_obj]
      exact update_of_ne (apart i mem) ..
    dsimp only
    unfold CsaHw.switchBuf ipcBufA2eInit
    dsimp only
    cases mapped : env.mapped with
    | false =>
      rcases rest with ⟨-, kept⟩ | ⟨clash, -⟩
      · exact leaves_failed (s := s) (u := { s with
          heap := (r.heap.modify bcnBuf fun o =>
            .bytes (forceCount settings r.bcn.headLen r.bcn.timLen o.toBytes)).free bcnBuf
          bcn := r.bcn }) ⟨none, idle, rfl, rfl, rfl, rfl⟩ forced.free (stored.trans kept) .pcie .io
      · exact nomatch clash.symm.trans mapped
    | true =>
      rw [if_pos rfl]
      refine switchAlloc_leaves (s := s) (u := { s with
        heap := r.heap.modify bcnBuf fun o =>
          .bytes (forceCount settings r.bcn.headLen r.bcn.timLen o.toBytes)
        bcn := r.bcn }) ⟨none, idle, rfl, rfl, rfl, rfl⟩ forced ?_
      rcases rest with ⟨failing, kept⟩ | ⟨-, csa, complete, after, kept⟩
      · exact .inl ⟨failing.resolve_left fun clash => (nomatch mapped.symm.trans clash), stored.trans kept⟩
      · exact .inr ⟨csa, complete, after, fun refused => stored.trans (kept refused)⟩

end Call

/-! ### Runs -/

/-- **What a step finds.** -/
def Smooth (bus : Bus) (s : CsaHw) : CsaAct → Prop
  | .channelSwitch settings env => Fits bus s settings env
  | .csaFinishInd _ _ => s.running = []
  | .stopAp => s.queued = [] ∧ s.running = []
  | _ => True

/-- **The invariant.** -/
structure Intact (bus : Bus) (s : CsaHw) : Prop where
  owns : s.heap.Owns s.held
  csa : ∀ i, s.csa = some i → ∃ c, s.heap.obj i = some (.csa c) ∧ OfBus bus c
  queued : ∀ i ∈ s.queued, s.csa = some i
  running : ∀ i ∈ s.running, s.csa = some i ∧ s.queued = []
  alone : s.running.Nodup ∧ s.queued.Nodup
  initialised : s.uninit = 0
  started : s.csa ≠ none ↔ s.inProgress = true
  failed : ∀ call ∈ s.calls, call.error ≠ none → call.csa = none ∧ call.after = call.before

namespace Intact

variable {bus : Bus} {s : CsaHw} {i : ℕ}

theorem ownership (intact : Intact bus s) : CsaOwnership s where
  once := intact.owns.once
  freed := fun _ below out => intact.owns.freed below out
  kept := fun i mem => (intact.owns.live i).mp mem
  unused := intact.owns.clean
  initialised := intact.initialised
  inProgress := intact.started
  failed := intact.failed

theorem init : Intact bus {} where
  owns := Heap.Owns.empty
  csa := fun _ here => nomatch here
  queued := fun _ mem => absurd mem not_mem_nil
  running := fun _ mem => absurd mem not_mem_nil
  alone := ⟨nodup_nil, nodup_nil⟩
  initialised := rfl
  started := iff_of_false (fun some => some rfl) nofun
  failed := fun _ mem => absurd mem not_mem_nil

theorem no_work (intact : Intact bus s) (none : s.csa = none) : s.queued = [] ∧ s.running = [] :=
  ⟨List.eq_nil_iff_forall_not_mem.mpr fun i mem => (nomatch none.symm.trans (intact.queued i mem)),
    List.eq_nil_iff_forall_not_mem.mpr fun i mem => (nomatch none.symm.trans (intact.running i mem).1)⟩

theorem held_none (none : s.csa = none) : s.held = s.bcn.parts := by
  unfold CsaHw.held csaHeld
  rw [none, append_nil]

section

variable (intact : Intact bus s)

include intact

theorem startAp (new : BeaconData) (env : BuildEnv) : Intact bus (s.startAp new env) := by
  have built := buildBcn_builds env new s.bcn (h := s.heap) (l := s.csaHeld) intact.owns
  unfold CsaHw.startAp
  dsimp only
  generalize buildBcn env new s.bcn s.heap = r at built ⊢
  have same : ∀ i, s.csa = some i → (kfree r.heap r.buf).obj i = s.heap.obj i := fun i here => by
    obtain ⟨c, obj, -⟩ := intact.csa i here
    rw [kfree_obj, built.frame i ?_]
    rw [csaHeld_some here obj]
    exact mem_cons_self
  refine ⟨?_, fun i here => ?_, intact.queued, intact.running, intact.alone, intact.initialised, intact.started,
    intact.failed⟩
  · have held : csaHeld { s with heap := kfree r.heap r.buf, bcn := r.bcn } = s.csaHeld :=
      csaHeld_congr rfl same
    show (kfree r.heap r.buf).Owns (r.bcn.parts ++ csaHeld { s with heap := kfree r.heap r.buf, bcn := r.bcn })
    rw [held]
    exact kfree_owns built.owns
  · obtain ⟨c, obj, fits⟩ := intact.csa i here
    exact ⟨c, (same i here).trans obj, fits⟩

theorem channelSwitch {settings : CsaSettings} {env : CsaEnv}
    (fits : Fits bus s settings env) : Intact bus (s.callChannelSwitch bus settings env) := by
  obtain ⟨noQueued, noRunning⟩ := intact.no_work fits.1
  have idle : s.inProgress = false :=
    Bool.eq_false_iff.mpr fun started => intact.started.mpr started fits.1
  have leaves := channelSwitch_leaves fits (held_none fits.1 ▸ intact.owns) idle
  have queued := leaves.queued.trans noQueued
  have running := leaves.running.trans noRunning
  unfold CsaHw.callChannelSwitch
  dsimp only
  refine ⟨leaves.owns, fun i here => ?_, fun i mem => ?_, fun i mem => ?_, ?_, leaves.uninit.trans intact.initialised,
    leaves.started, fun call mem => ?_⟩
  · exact leaves.csa i here
  · have mem : i ∈ (s.channelSwitch bus settings env).1.queued := mem
    rw [queued] at mem
    exact absurd mem not_mem_nil
  · have mem : i ∈ (s.channelSwitch bus settings env).1.running := mem
    rw [running] at mem
    exact absurd mem not_mem_nil
  · show (s.channelSwitch bus settings env).1.running.Nodup ∧ (s.channelSwitch bus settings env).1.queued.Nodup
    rw [queued, running]
    exact ⟨nodup_nil, nodup_nil⟩
  · rcases mem_cons.mp mem with rfl | mem
    · exact leaves.failed
    · rw [leaves.calls] at mem
      exact intact.failed call mem

theorem sccChannelSwitch (csa sent : Bool) : Intact bus (s.sccChannelSwitch csa sent) := by
  unfold CsaHw.sccChannelSwitch
  split
  · exact intact
  case isFalse idle =>
  have none : s.csa = none := not_not.mp idle
  obtain ⟨noQueued, noRunning⟩ := intact.no_work none
  have owns := intact.owns
  rw [held_none none] at owns
  split
  · exact intact
  split
  · refine ⟨?_, fun i here => ?_, fun i mem => ?_, fun i mem => ?_, intact.alone, intact.initialised,
      iff_of_true nofun rfl, intact.failed⟩
    · unfold CsaHw.held
      rw [csaHeld_some (c := { scc := true }) rfl (update_self ..)]
      exact (owns.alloc _).perm (List.perm_append_singleton _ _).symm
    · obtain rfl : s.heap.next = i := some.inj here
      exact ⟨_, update_self .., ⟨_, rfl⟩, fun _ => ⟨rfl, rfl⟩, nofun⟩
    · have mem : i ∈ s.queued := mem
      rw [noQueued] at mem
      exact absurd mem not_mem_nil
    · have mem : i ∈ s.running := mem
      rw [noRunning] at mem
      exact absurd mem not_mem_nil
  · refine ⟨?_, fun i here => (nomatch none.symm.trans here), intact.queued, intact.running, intact.alone,
      intact.initialised, intact.started, intact.failed⟩
    rw [held_none (by exact none)]
    exact (owns.alloc _).free

theorem csaFinishInd (rests : s.running = []) (status chIdx : ℕ) : Intact bus (s.csaFinishInd status chIdx) := by
  unfold CsaHw.csaFinishInd
  split
  · exact intact
  case h_2 i here =>
  obtain ⟨c, obj, fits⟩ := intact.csa i here
  have owned : i ∈ s.held := by
    unfold CsaHw.held
    rw [csaHeld_some here obj]
    exact mem_append_right _ mem_cons_self
  have after : (s.heap.modify i fun _ => .csa { s.csaAt i with status := status, chIdx := chIdx }).obj i =
      some (.csa { c with status := status, chIdx := chIdx }) := by
    rw [Heap.modify_obj, update_self, obj, csaAt_eq obj]
    rfl
  refine ⟨?_, fun j there => ?_, fun j mem => ?_, fun j mem => ?_, ⟨rests ▸ nodup_nil, ?_⟩, intact.initialised,
    intact.started, intact.failed⟩
  · have same : s.held = s.bcn.parts ++ i :: (c.buf.parts ++ c.bcn.parts) := congrArg _ (csaHeld_some here obj)
    unfold CsaHw.held
    rw [csaHeld_some (s := { s with
      heap := s.heap.modify i fun _ => .csa { s.csaAt i with status := status, chIdx := chIdx }
      queued := if i ∈ s.queued then s.queued else i :: s.queued }) here after, ← same]
    exact intact.owns.modify owned _
  · obtain rfl : i = j := some.inj (here.symm.trans there)
    exact ⟨_, after, fits.set, fits.scc, fits.pcie⟩
  · have mem : j ∈ if i ∈ s.queued then s.queued else i :: s.queued := mem
    split at mem
    · exact intact.queued j mem
    · rcases mem_cons.mp mem with rfl | mem
      · exact here
      · exact intact.queued j mem
  · have mem : j ∈ s.running := mem
    rw [rests] at mem
    exact absurd mem not_mem_nil
  · show (if i ∈ s.queued then s.queued else i :: s.queued).Nodup
    split
    · exact intact.alone.2
    · case isFalse new => exact List.nodup_cons.mpr ⟨new, intact.alone.2⟩

theorem workBegin (pending : i ∈ s.queued) : Intact bus (s.workBegin bus i) := by
  have here := intact.queued i pending
  obtain ⟨c, obj, fits⟩ := intact.csa i here
  have parts : s.csaHeld = i :: (c.buf.parts ++ c.bcn.parts) := csaHeld_some here obj
  have owned : i ∈ s.held := mem_append_right _ (parts ▸ mem_cons_self)
  have rests : s.running = [] := List.eq_nil_iff_forall_not_mem.mpr fun j mem => by
    have none := (intact.running j mem).2
    rw [none] at pending
    exact absurd pending not_mem_nil
  -- only one object has its work pending
  have only : s.queued.erase i = [] := by
    refine List.eq_nil_iff_forall_not_mem.mpr fun j mem => ?_
    obtain ⟨other, mem⟩ := (intact.alone.2.mem_erase_iff).mp mem
    exact other (some.inj ((intact.queued j mem).symm.trans here))
  have used : s.heap.use i = s.heap := intact.owns.use_eq owned
  have same : s.workBegin bus i = { s with
      queued := s.queued.erase i
      running := i :: s.running } := by
    obtain ⟨a, buf⟩ := fits.set
    have read : touch s.heap a = s.heap := touch_owned intact.owns fun j is => by
      refine mem_append_right _ ?_
      rw [parts, buf, is]
      exact mem_cons_of_mem _ mem_cons_self
    unfold CsaHw.workBegin
    dsimp only
    rw [csaAt_eq obj, used, buf]
    cases c.scc <;> cases bus <;> simp only [read]
  rw [same]
  refine ⟨intact.owns, intact.csa, fun j mem => ?_, fun j mem => ?_, ⟨?_, ?_⟩, intact.initialised, intact.started,
    intact.failed⟩
  · exact intact.queued j (List.mem_of_mem_erase mem)
  · obtain rfl := List.mem_singleton.mp (rests ▸ mem : j ∈ [i])
    exact ⟨here, only⟩
  · show (i :: s.running).Nodup
    rw [rests]
    exact List.nodup_singleton i
  · exact intact.alone.2.erase i

theorem gone {t : CsaHw} (owns : t.heap.Owns t.bcn.parts) (none : t.csa = none)
    (idle : t.inProgress = false) (queued : t.queued = []) (running : t.running = []) (uninit : t.uninit = s.uninit)
    (calls : t.calls = s.calls) : Intact bus t where
  owns := held_none none ▸ owns
  csa := fun _ here => nomatch none.symm.trans here
  queued := fun i mem => by
    rw [queued] at mem
    exact absurd mem not_mem_nil
  running := fun i mem => by
    rw [running] at mem
    exact absurd mem not_mem_nil
  alone := by
    rw [queued, running]
    exact ⟨nodup_nil, nodup_nil⟩
  initialised := uninit.trans intact.initialised
  started := iff_of_false (fun some => some none) fun started => nomatch idle.symm.trans started
  failed := by
    rw [calls]
    exact intact.failed

theorem workEnd (runs : i ∈ s.running) : Intact bus (s.workEnd bus i) := by
  obtain ⟨here, noQueued⟩ := intact.running i runs
  obtain ⟨c, obj, fits⟩ := intact.csa i here
  have parts : s.csaHeld = i :: (c.buf.parts ++ c.bcn.parts) := csaHeld_some here obj
  have owned : i ∈ s.held := mem_append_right _ (parts ▸ mem_cons_self)
  have used : s.heap.use i = s.heap := intact.owns.use_eq owned
  have only : s.running.erase i = [] := by
    refine List.eq_nil_iff_forall_not_mem.mpr fun j mem => ?_
    obtain ⟨other, mem⟩ := (intact.alone.1.mem_erase_iff).mp mem
    exact other (some.inj ((intact.running j mem).1.symm.trans here))
  have owns : s.heap.Owns (i :: (c.buf.parts ++ c.bcn.parts) ++ s.bcn.parts) := by
    refine intact.owns.perm ?_
    unfold CsaHw.held
    rw [parts]
    exact List.perm_append_comm
  unfold CsaHw.workEnd
  dsimp only
  rw [csaAt_eq obj, used]
  cases scc : c.scc with
  | true =>
    obtain ⟨noBcn, noBuf⟩ := fits.scc scc
    rw [noBcn, noBuf] at owns
    exact intact.gone (t := { s with
      heap := s.heap.free i
      csa := none
      running := s.running.erase i
      inProgress := false }) owns.free rfl rfl noQueued only rfl rfl
  | false =>
    rw [if_neg Bool.false_ne_true]
    obtain ⟨h, deleted, owns', -⟩ := delCsa_spec
      (s := { s with running := s.running.erase i, inProgress := false }) here obj fits owns
    rw [deleted]
    exact intact.gone owns' rfl rfl noQueued only rfl rfl

theorem stopAp (noQueued : s.queued = []) (noRunning : s.running = []) : Intact bus (s.stopAp bus) := by
  have owns := delBcn_owns intact.owns
  unfold CsaHw.stopAp
  cases csa : s.csa with
  | none =>
    have before : s.csaHeld = [] := by
      unfold csaHeld
      rw [csa]
    have same : delCsa bus { s with heap := delBcn s.bcn s.heap, bcn := {}, inProgress := false } =
        { s with heap := delBcn s.bcn s.heap, bcn := {}, inProgress := false } := by
      unfold delCsa
      split
      · rfl
      · case h_2 i here => exact nomatch csa.symm.trans here
    rw [csa] at same
    rw [before] at owns
    rw [same]
    exact intact.gone owns rfl rfl noQueued noRunning rfl rfl
  | some i =>
    obtain ⟨c, obj, fits⟩ := intact.csa i csa
    rw [csaHeld_some csa obj, ← append_nil (_ :: _)] at owns
    obtain ⟨h, deleted, owns', -⟩ := delCsa_spec
      (s := { s with heap := delBcn s.bcn s.heap, bcn := {}, inProgress := false }) csa
      (by rw [delBcn_obj]; exact obj) fits owns
    rw [csa] at deleted
    rw [deleted]
    exact intact.gone owns' rfl rfl noQueued noRunning rfl rfl

theorem act {a : CsaAct} (smooth : Smooth bus s a) {t : CsaHw}
    (stepped : s.act bus a = some t) : Intact bus t := by
  cases a with
  | startAp new env =>
    obtain rfl := some.inj stepped
    exact intact.startAp new env
  | channelSwitch settings env =>
    obtain rfl := some.inj stepped
    exact intact.channelSwitch smooth
  | sccChannelSwitch csa sent =>
    obtain rfl := some.inj stepped
    exact intact.sccChannelSwitch csa sent
  | csaFinishInd status chIdx =>
    obtain rfl := some.inj stepped
    exact intact.csaFinishInd smooth status chIdx
  | workBegin i =>
    unfold CsaHw.act at stepped
    dsimp only at stepped
    split at stepped
    · case isTrue pending =>
      obtain rfl := some.inj stepped
      exact intact.workBegin pending.1
    · cases stepped
  | workEnd i =>
    unfold CsaHw.act at stepped
    dsimp only at stepped
    split at stepped
    · case isTrue runs =>
      obtain rfl := some.inj stepped
      exact intact.workEnd runs
    · cases stepped
  | stopAp =>
    obtain rfl := some.inj stepped
    exact intact.stopAp smooth.1 smooth.2

end

end Intact

/-- **The ownership of the objects** in every run of steps that lose nothing. -/
theorem csa_ownership (bus : Bus) {s : CsaHw} (reach : (csaSystem bus).Reachable (Smooth bus) s) : CsaOwnership s :=
  Intact.ownership <| reach.invariant (I := Intact bus) Intact.init
    fun _ _ _ _ intact smooth stepped => intact.act smooth stepped

def plainBeacon : BeaconData := ⟨some [1], none⟩

def oneSwitch : CsaSettings where
  beaconCsa := ⟨some [2], none⟩
  beaconAfter := plainBeacon

/-- A switch that succeeds and ends. -/
theorem csa_ownership_switched : ∃ s : CsaHw, s.csa = none ∧ s.calls.map CallLog.error = [none] ∧ CsaOwnership s := by
  have started := System.Reachable.step (S := csaSystem .pcie) .init
    (show Smooth .pcie _ (.startAp plainBeacon {}) from trivial) rfl
  have switched := started.step (show Smooth .pcie _ (.channelSwitch oneSwitch {}) from
    ⟨rfl, .inr (.inr ⟨by decide, rfl, .inr ⟨rfl, rfl, by decide, rfl, nofun⟩⟩)⟩) rfl
  have indicated := switched.step (show Smooth .pcie _ (.csaFinishInd 0 1) from rfl) rfl
  have worked := (indicated.step (show Smooth .pcie _ (.workBegin 4) from trivial) rfl).step
    (show Smooth .pcie _ (.workEnd 4) from trivial) rfl
  exact ⟨_, rfl, rfl, csa_ownership .pcie worked⟩

/-- **A call that fails leaves the beacon with the CSA stored.** -/
theorem failed_switch_keeps_csa_beacon : ¬ ∀ s : CsaHw,
    (csaSystem .pcie).Reachable (fun _ _ => True) s → CsaOwnership s := by
  intro all
  have reach := System.reachable_of_run (csaSystem .pcie) (fun _ (_ : CsaAct) => True)
    [.startAp plainBeacon {}, .channelSwitch oneSwitch { sent := false }] rfl
  have same := ((all _ reach).failed _ mem_cons_self nofun).2
  exact absurd same (by decide)

end W2l.Chsw
