/-
**The radar pools: every sequence of operations.**

* `PoolInv` — the queues are sound, and the objects of all detectors and those of the pools are all there are.
-/

import W2lDriver.Radar.Pool

namespace W2l.RadarPool

open Lib

/-- The objects of all detectors and those of the pools are all there are. -/
structure PoolInv (s : State) : Prop where
  queued : ∀ d ∈ s.dets, Queued d
  accounted : Accounted s.pools (s.dets.flatMap Pde.pulseIds) (s.dets.flatMap Pde.pseqIds)

section Steps

variable {s s' : State} {i : ℕ} {d : Pde}

theorem flatMap_middle {α : Type} (f : α → List ℕ) (l r : List α) (a : α) :
    ((l ++ a :: r).flatMap f).Perm (f a ++ (l ++ r).flatMap f) := by
  rw [List.flatMap_append, List.flatMap_cons, List.flatMap_append]
  exact List.perm_append_comm_assoc _ _ _

theorem PoolInv.atDet (inv : PoolInv s) (there : s.dets[i]? = some d) {y : Held} (right : Right ⟨s.pools, d⟩ y) :
    PoolInv { pools := y.pools, dets := s.dets.set i y.pde } := by
  obtain ⟨below, here⟩ := List.getElem?_eq_some_iff.mp there
  obtain ⟨l, r, whole, -, changed⟩ := @List.exists_of_set _ i y.pde _ below
  rw [here] at whole
  refine ⟨fun e member => ?_, ?_⟩
  · dsimp only at member
    rw [changed] at member
    rcases List.mem_append.mp member with before | behind
    · exact inv.queued e (whole ▸ List.mem_append_left _ before)
    · rcases List.mem_cons.mp behind with rfl | after
      · exact right.queued
      · exact inv.queued e (whole ▸ List.mem_append_right _ (List.mem_cons_of_mem _ after))
  · have acc := inv.accounted
    rw [whole] at acc
    dsimp only
    rw [changed]
    exact (right.keeps _ _ (acc.perm (flatMap_middle _ _ _ _) (flatMap_middle _ _ _ _))).perm
      (flatMap_middle _ _ _ _).symm (flatMap_middle _ _ _ _).symm

theorem Accounted.deregister {h : Pools} {pulses pseqs : List ℕ} (acc : Accounted h pulses pseqs) :
    Accounted h.poolDeregisterRef pulses pseqs := by
  unfold Pools.poolDeregisterRef
  split
  case isTrue => exact ⟨acc.pulses.releaseAll, acc.pseqs.releaseAll⟩
  case isFalse => exact ⟨acc.pulses, acc.pseqs⟩

theorem PoolInv.exit (inv : PoolInv s) (stepped : s.priDetectorExit i = some s') : PoolInv s' := by
  obtain ⟨d, there, rfl⟩ := Option.map_eq_some_iff.mp stepped
  obtain ⟨below, here⟩ := List.getElem?_eq_some_iff.mp there
  obtain ⟨l, r, whole, place, -⟩ := @List.exists_of_set _ i d _ below
  rw [here] at whole
  have erased : s.dets.eraseIdx i = l ++ r := by
    rw [whole, List.eraseIdx_append_of_length_le (le_of_eq place), place, Nat.sub_self]
    rfl
  have reset := right_reset (x := ⟨s.pools, d⟩) (inv.queued d (List.mem_of_getElem? there)) 0
  refine ⟨fun e member => inv.queued e (List.mem_of_mem_eraseIdx member), ?_⟩
  have acc := inv.accounted
  rw [whole] at acc
  dsimp only
  rw [erased]
  exact (reset.keeps _ _ (acc.perm (flatMap_middle _ _ _ _) (flatMap_middle _ _ _ _))).deregister

theorem queued_init {rs : Radar.RadarDetectorSpecs} (known : rs ∈ Radar.shortSpecs ∨ rs ∈ Radar.longSpecs)
    (line freq : ℕ) : Queued (priDetectorInit line rs freq) := by
  refine ⟨.nil, rfl, ?_, fun two => (Nat.not_succ_le_zero 1 two).elim⟩
  unfold priDetectorInit
  dsimp only
  rcases known with short | long
  · have two := (Radar.usable_of_mem short).ppb
    rw [if_neg (of_decide_eq_true (List.mem_filter.mp short).2)]
    omega
  · rw [if_pos (of_decide_eq_true (List.mem_filter.mp long).2)]
    decide

theorem PoolInv.step {event : Event} (inv : PoolInv s) (inOrder : InOrder s event)
    (stepped : step s event = some s') : PoolInv s' := by
  cases event with
  | get line rs freq alloc =>
    obtain rfl := Option.some.inj stepped
    unfold State.priDetectorGet
    split
    case isTrue => exact inv
    case isFalse =>
      refine ⟨List.forall_mem_cons.mpr ⟨queued_init inOrder line freq, inv.queued⟩, ?_⟩
      exact ⟨inv.accounted.pulses, inv.accounted.pseqs⟩
  | add i ts mem =>
    obtain ⟨d, there, rfl⟩ := Option.map_eq_some_iff.mp stepped
    exact inv.atDet there (right_add (inv.queued d (List.mem_of_getElem? there)) (inOrder d there) mem)
  | reset i ts =>
    obtain ⟨d, there, rfl⟩ := Option.map_eq_some_iff.mp stepped
    exact inv.atDet there (right_reset (inv.queued d (List.mem_of_getElem? there)) ts)
  | exit i => exact inv.exit stepped

theorem inOnePlace {made : ℕ} {freed places : List ℕ} (custody : Custody (List.range made) freed places) :
    InOnePlace made freed places := by
  constructor
  · intro id below kept
    have once := custody.once (List.mem_range.mpr below)
    rw [List.count_eq_zero.mpr kept, Nat.zero_add] at once
    exact once
  · intro id member
    have known := custody.balance.mem_iff.mpr (List.mem_append_right freed member)
    refine ⟨List.mem_range.mp known, fun gone => ?_⟩
    have once := custody.once known
    have here := List.count_pos_iff.mpr member
    have there := List.count_pos_iff.mpr gone
    omega

end Steps

/-- **After any sequence of operations** the pulse queues are ordered, counted, short enough and within their windows,
and each `pulse_elem` and `pri_sequence` is in one place. -/
theorem pool_sound {s : State} (reach : poolSystem.Reachable InOrder s) : PoolSound s := by
  have start : PoolInv {} := ⟨List.forall_mem_nil _, .empty, .empty⟩
  have inv : PoolInv s := reach.invariant (I := PoolInv) start
    fun _ _ _ _ inv inOrder stepped => inv.step inOrder stepped
  exact ⟨inv.queued, inOnePlace inv.accounted.pulses, inOnePlace inv.accounted.pseqs⟩

def shortPattern : Radar.RadarDetectorSpecs := Radar.shortSpecs.head (by decide +kernel)

/-- A detector and a pulse. -/
theorem pool_sound_pulse : ∃ s, s.pools.madePulses = 1 ∧ s.dets.length = 1 ∧ PoolSound s := by
  have made : poolSystem.Reachable InOrder _ := .step (a := .get 0 shortPattern 5500 true) .init
    (.inl (List.head_mem _)) rfl
  have first (d : Pde) (there : [priDetectorInit 0 shortPattern 5500][0]? = some d) :
      ∀ p ∈ d.pulses, p.ts ≤ 1000 := by
    obtain rfl := Option.some.inj there
    exact List.forall_mem_nil _
  have added : poolSystem.Reachable InOrder _ := .step (a := .add 0 1000 ⟨true, 1, ⟨0, 0, 0, 0, 0, 0, 0, 0⟩⟩) made
    first rfl
  exact ⟨_, by decide +kernel, by decide +kernel, pool_sound added⟩

end W2l.RadarPool
