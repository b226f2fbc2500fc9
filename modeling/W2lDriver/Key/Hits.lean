/-
**Keys: which hardware key a deletion hits.**

* `DelMeets` — **what a `del_key` has to do**: it deletes the key of its triple and no other, and where the
  triple has none it deletes nothing and says so.
* `delCall_meets_iff` — when a call does: the triple has a key and the slot holds the index of it.
* `Standing` — **the slot was last written for the triple**: by its own last successful `add_key`, in the entry
  the station still has, and the key was not deleted since.
-/

import W2lDriver.Key.Slots

set_option linter.unusedSectionVars false

namespace W2l.Key

open Lib (System)
open Function (update update_of_ne update_self)
open Option (some.inj)

variable {V M : Type} [DecidableEq V] [DecidableEq M]

/-- **What a `del_key` has to do.** -/
structure DelMeets (c : DelCall V M) : Prop where
  hits : ∀ hwIdx, c.installed = some hwIdx → (c.after = Function.update c.before hwIdx none ∧ c.error = none) ∨
      ∃ error, c.answer = .failed error ∧ c.after = c.before ∧ c.error = some (.send error)
  keeps : ∀ hwIdx key, c.before hwIdx = some key → key.triple ≠ c.triple → c.after hwIdx = some key
  absent : c.installed = none → c.after = c.before ∧ c.error = some .enoent

/-- **The slot of the triple was last written by its own last successful `add_key`, and the key is still
installed.** -/
def Standing (s : KeyHw V M) (t : Triple V M) : Prop :=
  (s.installed t).isSome = true ∧ (s.granted t).map Prod.fst = s.slotOf t ∧ (s.slotOf t).bind s.writer = some t

instance (s : KeyHw V M) (t : Triple V M) : Decidable (Standing s t) := inferInstanceAs (Decidable (_ ∧ _ ∧ _))

def Guard (s : KeyHw V M) : KeyAct V M → Prop
  | .delKey t answer => Standing s t ∧ answer ≠ .dropped ()
  | _ => True

instance (s : KeyHw V M) : ∀ a, Decidable (Guard s a)
  | .openVif .. => .isTrue trivial
  | .addStation .. => .isTrue trivial
  | .delStation .. => .isTrue trivial
  | .addKey .. => .isTrue trivial
  | .delKey t answer => inferInstanceAs (Decidable (Standing s t ∧ answer ≠ .dropped ()))

/-! ### Slots -/

namespace KeyHw

variable (s : KeyHw V M)

@[simp]
theorem keyAt_store_self (slot : Slot V) (hwIdx : UInt8) : (s.store slot hwIdx).keyAt slot = hwIdx := by
  cases slot with
  | sta i =>
    show (update s.staTable i _ i).key = hwIdx
    rw [update_self]
  | vif v keyIndex =>
    show update s.vifKey v _ v keyIndex = hwIdx
    rw [update_self, update_self]

theorem keyAt_store_of_ne {slot other : Slot V} (ne : other ≠ slot) (hwIdx : UInt8) :
    (s.store slot hwIdx).keyAt other = s.keyAt other := by
  cases slot with
  | sta i =>
    cases other with
    | vif v keyIndex => rfl
    | sta j =>
      show (update s.staTable i _ j).key = _
      rw [update_of_ne (fun same => ne (congrArg Slot.sta same))]
      rfl
  | vif v keyIndex =>
    cases other with
    | sta j => rfl
    | vif w j =>
      show update s.vifKey v _ w j = s.vifKey w j
      by_cases here : w = v
      · subst here
        rw [update_self, update_of_ne (fun same => ne (congrArg (Slot.vif w) same))]
      · rw [update_of_ne here]

@[simp]
theorem store_granted (slot : Slot V) (hwIdx : UInt8) : (s.store slot hwIdx).granted = s.granted := by
  cases slot <;> rfl

@[simp]
theorem store_dels (slot : Slot V) (hwIdx : UInt8) : (s.store slot hwIdx).dels = s.dels := by
  cases slot <;> rfl

variable {s}

theorem installed_eq_some {t : Triple V M} {hwIdx : UInt8} : s.installed t = some hwIdx ↔
      (∃ slot, s.granted t = some (slot, hwIdx)) ∧ (s.hwKeys hwIdx).map HwKey.triple = some t := by
  unfold installed
  rw [Option.bind_eq_some_iff]
  constructor
  · rintro ⟨⟨slot, granted⟩, last, there⟩
    split at there
    · case isTrue here =>
      obtain rfl : granted = hwIdx := some.inj there
      exact ⟨⟨slot, last⟩, here⟩
    · cases there
  · rintro ⟨⟨slot, last⟩, here⟩
    exact ⟨(slot, hwIdx), last, if_pos here⟩

end KeyHw

/-! ### One call -/

variable {s : KeyHw V M}

variable {t : Triple V M}

theorem absent_never_met (absent : s.installed t = none) (answer : Answer Unit) : ¬DelMeets (s.delCall t answer) := by
  intro meets
  have error : (s.delKey t answer).2 = some .enoent := (meets.absent absent).2
  unfold KeyHw.delKey at error
  split at error
  · cases error
  · split at error <;> cases error

theorem delMeets_of_hit {hwIdx : UInt8} (has : s.installed t = some hwIdx)
    {answer : Answer Unit} {after : UInt8 → Option (HwKey V M)}
    (hit : after = update s.hwKeys hwIdx none) :
    DelMeets ⟨t, some hwIdx, answer, s.hwKeys, after, none⟩ where
  hits found same := by
    obtain rfl : hwIdx = found := some.inj same
    exact .inl ⟨hit, rfl⟩
  keeps other key there differs := by
    have there : s.hwKeys other = some key := there
    have own : (s.hwKeys hwIdx).map HwKey.triple = some t := (KeyHw.installed_eq_some.mp has).2
    have ne : other ≠ hwIdx := by
      intro same
      rw [← same, there] at own
      exact differs (some.inj own)
    show after other = some key
    rw [hit, update_of_ne ne, there]
  absent none := nomatch none

theorem delMeets_of_failed {hwIdx : UInt8} {keys : UInt8 → Option (HwKey V M)}
    (error : SendError) : DelMeets ⟨t, some hwIdx, .failed error, keys, keys, some (.send error)⟩ where
  hits _ _ := .inr ⟨error, rfl, rfl, rfl⟩
  keeps _ _ there _ := there
  absent none := nomatch none

theorem delCall_confirmed {slot : Slot V} (found : s.slotOf t = some slot) : s.delCall t (.confirmed ()) =
      ⟨t, s.installed t, .confirmed (), s.hwKeys, update s.hwKeys (s.keyAt slot) none, none⟩ := by
  unfold KeyHw.delCall KeyHw.delKey
  rw [found]

theorem delCall_failed {slot : Slot V} (found : s.slotOf t = some slot) (error : SendError) :
    s.delCall t (.failed error) = ⟨t, s.installed t, .failed error, s.hwKeys, s.hwKeys, some (.send error)⟩ := by
  unfold KeyHw.delCall KeyHw.delKey
  rw [found]

theorem delCall_meets_iff (t : Triple V M) (answer : Answer Unit) : DelMeets (s.delCall t answer) ↔
      ∃ hwIdx slot, s.installed t = some hwIdx ∧ s.slotOf t = some slot ∧
        ((∃ error, answer = .failed error) ∨ (answer = .confirmed () ∧ s.keyAt slot = hwIdx)) := by
  constructor
  · intro meets
    cases has : s.installed t with
    | none => exact absurd meets (absent_never_met has answer)
    | some hwIdx =>
      have own : (s.hwKeys hwIdx).map HwKey.triple = some t := (KeyHw.installed_eq_some.mp has).2
      have there : s.hwKeys hwIdx ≠ none := by
        intro gone
        rw [gone] at own
        cases own
      have hits := meets.hits hwIdx has
      unfold KeyHw.delCall KeyHw.delKey at hits
      cases found : s.slotOf t with
      | none =>
        rw [found] at hits
        obtain ⟨-, none⟩ | ⟨error, -, -, other⟩ := hits
        · cases none
        · cases other
      | some slot =>
        rw [found] at hits
        refine ⟨hwIdx, slot, rfl, rfl, ?_⟩
        cases answer with
        | failed error => exact .inl ⟨error, rfl⟩
        | dropped _ =>
          obtain ⟨same, -⟩ | ⟨error, other, -⟩ := hits
          · have same : s.hwKeys hwIdx = update s.hwKeys hwIdx none hwIdx := congrFun same hwIdx
            rw [update_self] at same
            exact absurd same there
          · cases other
        | confirmed _ =>
          refine .inr ⟨rfl, ?_⟩
          obtain ⟨same, -⟩ | ⟨error, other, -⟩ := hits
          · have same : update s.hwKeys (s.keyAt slot) none hwIdx =
                update s.hwKeys hwIdx none hwIdx := congrFun same hwIdx
            by_contra ne
            rw [update_self, update_of_ne (Ne.symm ne)] at same
            exact there same
          · cases other
  · rintro ⟨hwIdx, slot, has, found, ⟨error, rfl⟩ | ⟨rfl, holds⟩⟩
    · rw [delCall_failed found, has]
      exact delMeets_of_failed error
    · rw [delCall_confirmed found, has]
      exact delMeets_of_hit has (by rw [holds])

/-! ### The run -/

/-- **The invariant**: a slot holds what the triple it was last written for was granted. -/
structure KeyInv (s : KeyHw V M) : Prop where
  saved : ∀ t slot hwIdx, s.granted t = some (slot, hwIdx) → s.writer slot = some t → s.keyAt slot = hwIdx
  met : ∀ c ∈ s.dels, DelMeets c

namespace KeyInv

theorem frame (inv : KeyInv s) {u : KeyHw V M} (granted : u.granted = s.granted) (writer : u.writer = s.writer)
    (keys : ∀ slot, u.keyAt slot = s.keyAt slot) (dels : u.dels = s.dels) : KeyInv u where
  saved t slot hwIdx last wrote := by
    rw [granted] at last
    rw [writer] at wrote
    rw [keys]
    exact inv.saved t slot hwIdx last wrote
  met c mem := by
    rw [dels] at mem
    exact inv.met c mem

theorem keyAt_staTable {u : KeyHw V M} {i : Fin nxRemoteStaMax} {sta : AmlSta M}
    (table : u.staTable = update s.staTable i sta) (same : sta.key = (s.staTable i).key)
    (vif : u.vifKey = s.vifKey) (slot : Slot V) : u.keyAt slot = s.keyAt slot := by
  cases slot with
  | vif v keyIndex =>
    show u.vifKey v keyIndex = s.vifKey v keyIndex
    rw [vif]
  | sta j =>
    show (u.staTable j).key = (s.staTable j).key
    rw [table]
    by_cases here : j = i
    · rw [here, update_self, same]
    · rw [update_of_ne here]

section

variable (inv : KeyInv s)

include inv

theorem grant (t : Triple V M) (req : MmKeyAddReq) (hwIdx : UInt8) : KeyInv (s.grant t req hwIdx) :=
  inv.frame rfl rfl (fun slot => by cases slot <;> rfl) rfl

theorem saveGranted (t : Triple V M) (slot : Slot V) (hwIdx : UInt8) : KeyInv (s.saveGranted t slot hwIdx) where
  saved u other found last wrote := by
    have last : update s.granted t (some (slot, hwIdx)) u = some (other, found) := last
    have wrote : update s.writer slot (some t) other = some u := wrote
    show (s.store slot hwIdx).keyAt other = found
    by_cases own : u = t
    · rw [own, update_self] at last
      obtain ⟨rfl, rfl⟩ := Prod.mk.inj (some.inj last)
      exact s.keyAt_store_self slot hwIdx
    · have ne : other ≠ slot := by
        rintro rfl
        rw [update_self] at wrote
        exact own (some.inj wrote).symm
      rw [update_of_ne own] at last
      rw [update_of_ne ne] at wrote
      rw [s.keyAt_store_of_ne ne]
      exact inv.saved u other found last wrote
  met c mem := inv.met c ((s.store_dels slot hwIdx) ▸ mem)

theorem saveStack (slot : Slot V) (hwIdx : UInt8) : KeyInv (s.saveStack slot hwIdx) where
  saved u other found last wrote := by
    have last : (s.store slot hwIdx).granted u = some (other, found) := last
    have wrote : update s.writer slot none other = some u := wrote
    show (s.store slot hwIdx).keyAt other = found
    have ne : other ≠ slot := by
      rintro rfl
      rw [update_self] at wrote
      cases wrote
    rw [s.store_granted] at last
    rw [update_of_ne ne] at wrote
    rw [s.keyAt_store_of_ne ne]
    exact inv.saved u other found last wrote
  met c mem := inv.met c ((s.store_dels slot hwIdx) ▸ mem)

theorem addKey (t : Triple V M) (pairwise : Bool) (params : KeyParams)
    (answer : Answer MmKeyAddCfm) : KeyInv (s.addKey t pairwise params answer).1 := by
  unfold KeyHw.addKey
  split
  · exact inv
  · case h_2 slot found =>
    split
    · exact inv
    · case h_2 cipher suite =>
      cases answer with
      | failed error => exact inv
      | dropped cfm =>
        dsimp only
        split
        · exact inv
        · exact inv.saveStack slot cfm.hwKeyIdx
      | confirmed cfm =>
        dsimp only
        split
        · exact inv
        · exact (inv.grant t _ cfm.hwKeyIdx).saveGranted t slot cfm.hwKeyIdx

theorem delMeets {t : Triple V M} (standing : Standing s t) {answer : Answer Unit}
    (taken : answer ≠ .dropped ()) : DelMeets (s.delCall t answer) := by
  obtain ⟨some', lastSlot, wrote⟩ := standing
  obtain ⟨hwIdx, has⟩ := Option.isSome_iff_exists.mp some'
  obtain ⟨⟨slot, last⟩, -⟩ := KeyHw.installed_eq_some.mp has
  rw [last] at lastSlot
  have found : s.slotOf t = some slot := lastSlot.symm
  rw [found] at wrote
  refine (delCall_meets_iff t answer).mpr ⟨hwIdx, slot, has, found, ?_⟩
  cases answer with
  | failed error => exact .inl ⟨error, rfl⟩
  | dropped _ => exact absurd rfl taken
  | confirmed _ => exact .inr ⟨rfl, inv.saved t slot hwIdx last wrote⟩

theorem step {a : KeyAct V M} {u : KeyHw V M} (guard : Guard s a) (stepped : act s a = some u) : KeyInv u := by
  cases a with
  | openVif v vifIndex =>
    obtain rfl := some.inj stepped
    exact inv.frame rfl rfl (fun slot => by cases slot <;> rfl) rfl
  | addStation i mac =>
    obtain rfl := some.inj stepped
    exact inv.frame rfl rfl (keyAt_staTable rfl rfl rfl) rfl
  | delStation i freed =>
    obtain rfl := some.inj stepped
    exact inv.frame rfl rfl (keyAt_staTable rfl rfl rfl) rfl
  | addKey t pairwise params answer =>
    have stepped : (if s.Free answer then some (s.addKey t pairwise params answer).1 else none) = some u := stepped
    by_cases free : s.Free answer
    · rw [if_pos free] at stepped
      obtain rfl := some.inj stepped
      exact inv.addKey t pairwise params answer
    · rw [if_neg free] at stepped
      cases stepped
  | delKey t answer =>
    obtain rfl := some.inj stepped
    have same : KeyInv (s.delKey t answer).1 ∧ (s.delKey t answer).1.dels = s.dels := by
      unfold KeyHw.delKey
      split
      · exact ⟨inv, rfl⟩
      · split
        · exact ⟨inv, rfl⟩
        · exact ⟨inv, rfl⟩
        · exact ⟨inv.frame rfl rfl (fun slot => by cases slot <;> rfl) rfl, rfl⟩
    refine ⟨fun u slot hwIdx last wrote => ?_, fun c mem => ?_⟩
    · have held := same.1.saved u slot hwIdx last wrote
      cases slot <;> exact held
    · rcases List.mem_cons.mp mem with rfl | old
      · exact inv.delMeets guard.1 guard.2
      · exact inv.met c old

end

end KeyInv

/-- **Keys are not confused**: in every run each of whose `del_key` finds its slot written for its triple, each
deletes the key of its triple and no other. -/
theorem keys_not_confused [Inhabited M] {s : KeyHw V M} (reach : (system V M).Reachable Guard s) :
    ∀ c ∈ s.dels, DelMeets c := by
  refine (reach.invariant (I := KeyInv) ?_ fun _ _ _ _ inv guard stepped => inv.step guard stepped).met
  exact ⟨fun _ _ _ last _ => (nomatch last), fun _ mem => (nomatch mem)⟩

def wepKey : KeyParams := ⟨[1, 2, 3, 4, 5], 5, .wep40⟩

/-- A group key is deleted, and so is one of a station that has taken over the entry of another. -/
theorem keys_not_confused_reused : ∃ s : KeyHw ℕ ℕ, (∃ c₁ c₂, s.dels = [c₁, c₂]) ∧ ∀ c ∈ s.dels, DelMeets c := by
  have reach := System.reachable_of_run (system ℕ ℕ) Guard
    [.openVif 0 1, .addStation 3 7, .addKey ⟨0, none, 1⟩ false wepKey (.confirmed ⟨0, 4⟩),
      .addKey ⟨0, some 7, 0⟩ true wepKey (.confirmed ⟨0, 9⟩), .delStation 3 true, .addStation 3 8,
      .addKey ⟨0, some 8, 0⟩ true wepKey (.confirmed ⟨0, 9⟩), .delKey ⟨0, some 8, 0⟩ (.confirmed ()),
      .delKey ⟨0, none, 1⟩ (.confirmed ())] (by decide +kernel)
  exact ⟨_, ⟨_, _, rfl⟩, keys_not_confused reach⟩

/-- **A stale slot**: the key of a station is deleted, its index is granted to another station, and a second
`del_key` for the first one, which has no key any more, deletes the key of the other. -/
theorem stale_slot_hits_other :
    ¬∀ s : KeyHw ℕ ℕ, (system ℕ ℕ).Reachable (fun _ _ => True) s → ∀ c ∈ s.dels, DelMeets c := by
  intro claimed
  have reach := System.reachable_of_run (system ℕ ℕ) (fun _ _ => True)
    [.addStation 0 7, .addStation 1 8, .addKey ⟨0, some 7, 0⟩ true wepKey (.confirmed ⟨0, 4⟩),
      .delKey ⟨0, some 7, 0⟩ (.confirmed ()), .addKey ⟨0, some 8, 0⟩ true wepKey (.confirmed ⟨0, 4⟩),
      .delKey ⟨0, some 7, 0⟩ (.confirmed ())] (by decide +kernel)
  generalize state : (System.run (system ℕ ℕ) (fun _ _ => True) _ _).get _ = q at reach
  have meets := claimed q reach
  have lost : (q.dels.any fun c => decide (c.triple = ⟨0, some 7, 0⟩ ∧
      (c.before 4).map HwKey.triple = some ⟨0, some 8, 0⟩ ∧ c.after 4 = none)) = true := by
    rw [← state]
    decide +kernel
  obtain ⟨c, mem, hit⟩ := List.any_eq_true.mp lost
  obtain ⟨own, others, gone⟩ := of_decide_eq_true hit
  obtain ⟨key, there, triple⟩ := Option.map_eq_some_iff.mp others
  have kept := (meets c mem).keeps 4 key there (by rw [triple, own]; decide)
  rw [gone] at kept
  cases kept

end W2l.Key
