/-
**Station interfaces: the places that say whether one is connected agree.**

* `LinkFacts` — **what they say**: the carrier is on iff `sta.ap` is set, which is a valid entry with active
  queues; such an entry has an interface; `AML_CONNECTING` is set iff an accepted request is not answered.
* `Guard` — **when a step keeps that**: the exact condition, for each indication, close and requesting thread.
-/

import W2lDriver.Conn.Link

set_option linter.unusedSectionVars false

namespace W2l.Conn

open Gate (Iftype)
open Lib (System)
open Function (update update_of_ne update_self)
open Option (ite_none_right_eq_some some.inj)

variable {V : Type} [DecidableEq V]

/-- **What the places say.** The flag is read when the threads of accepted requests have gone on. -/
structure LinkFacts (s : ConnHw V) : Prop where
  carrier : ∀ v ∈ s.vifs, (s.link v).iftype.isStation = true → ((s.link v).carrier = true ↔ (s.link v).ap ≠ none)
  ap : ∀ v ∈ s.vifs, ∀ i, (s.link v).ap = some i → (s.sta i).valid = true ∧ (s.sta i).active = true
  owned : ∀ i, (s.sta i).valid = true → (s.sta i).active = true → ∃ v ∈ s.vifs, (s.link v).ap = some i
  connecting : ¬s.Requesting → (s.connecting = true ↔ s.Pending)

def ConnHw.AnswersLast (s : ConnHw V) (v : V) : Prop :=
  (s.link v).pending ≤ 1 ∧ ∀ w ∈ s.vifs, w ≠ v → (s.link w).pending = 0

instance (s : ConnHw V) (v : V) : Decidable (s.AnswersLast v) :=
  inferInstanceAs (Decidable (_ ∧ ∀ w ∈ s.vifs, _))

/-- **When a step keeps that**: a request is not answered before its thread goes on; an answer is the last one
that is waited for, a success is for an interface with no other AP, a failure for one that stays connected; an
interface is not connected when it is closed or authenticates. -/
def Guard (s : ConnHw V) : ConnAct V → Prop
  | .close v => (s.link v).ap = none
  | .connectEnd v => (∃ w ∈ s.vifs, w ≠ v ∧ (s.link w).requesting = true) ∨ s.Pending
  | .smConnectInd ind =>
    match s.vifTable ind.vifIdx with
    | none => True
    | some v => (ind.statusCode = 0 → (s.link v).ap = none ∨ (s.link v).ap = some ind.apIdx) ∧
        (ind.statusCode ≠ 0 → (s.link v).ap ≠ none) ∧ (s.Requesting ∨ s.AnswersLast v)
  | .smExternalAuthRequiredInd vifIdx taken =>
    match s.vifTable vifIdx with
    | none => True
    | some v => s.ExternalAuthRefused v vifIdx taken ∨ (s.link v).ap = none
  | _ => True

instance (s : ConnHw V) : ∀ a, Decidable (Guard s a)
  | .open_ .. => .isTrue trivial
  | .close v => inferInstanceAs (Decidable ((s.link v).ap = none))
  | .connectBegin .. => .isTrue trivial
  | .connectEnd _ => inferInstanceAs (Decidable ((∃ w ∈ s.vifs, _) ∨ s.Pending))
  | .smConnectInd ind =>
    match e : s.vifTable ind.vifIdx with
    | none => .isTrue (by rw [Guard, e]; trivial)
    | some v => decidable_of_iff ((ind.statusCode = 0 → (s.link v).ap = none ∨ (s.link v).ap = some ind.apIdx) ∧
        (ind.statusCode ≠ 0 → (s.link v).ap ≠ none) ∧ (s.Requesting ∨ s.AnswersLast v)) (by rw [Guard, e])
  | .smDisconnectInd .. => .isTrue trivial
  | .smExternalAuthRequiredInd vifIdx taken =>
    match e : s.vifTable vifIdx with
    | none => .isTrue (by rw [Guard, e]; trivial)
    | some v => decidable_of_iff (s.ExternalAuthRefused v vifIdx taken ∨ (s.link v).ap = none) (by rw [Guard, e])

/-! ### One link -/

/-- A link that agrees with the entries. -/
structure Link.Sound (l : Link) (sta : ℕ → Entry) : Prop where
  carrier : l.iftype.isStation = true → (l.carrier = true ↔ l.ap ≠ none)
  ap : ∀ i, l.ap = some i → (sta i).valid = true ∧ (sta i).active = true
  kind : l.ap ≠ none → l.iftype.isStation = true
  down : l.up = false → l.ap = none
  asked : l.requested = true → l.iftype.isStation = true

/-- **The invariant.** -/
structure ConnInv (s : ConnHw V) : Prop where
  sound : ∀ v, (s.link v).Sound s.sta
  listed : ∀ v, (s.link v).up = true → v ∈ s.vifs
  single : ∀ v w i, (s.link v).ap = some i → (s.link w).ap = some i → v = w
  owned : ∀ i, (s.sta i).valid = true → (s.sta i).active = true → ∃ v, (s.link v).ap = some i
  table : ∀ i v, s.vifTable i = some v → (s.link v).up = true ∧ (s.link v).vifIndex = i
  connecting : ¬s.Requesting → (s.connecting = true ↔ s.Pending)

theorem exists_update {link : V → Link} {vifs : List V} {v : V} (mem : v ∈ vifs) (l : Link) (p : Link → Prop) :
    (∃ w ∈ vifs, p (update link v l w)) ↔ p l ∨ ∃ w ∈ vifs, w ≠ v ∧ p (link w) := by
  constructor
  · rintro ⟨w, inside, has⟩
    by_cases here : w = v
    · rw [here, update_self] at has
      exact .inl has
    · rw [update_of_ne here] at has
      exact .inr ⟨w, inside, here, has⟩
  · rintro (has | ⟨w, inside, other, has⟩)
    · exact ⟨v, mem, by rw [update_self]; exact has⟩
    · exact ⟨w, inside, by rw [update_of_ne other]; exact has⟩

theorem exists_update_same {link : V → Link} {vifs : List V} {v : V} {l : Link} {p : Link → Prop}
    (same : p l ↔ p (link v)) : (∃ w ∈ vifs, p (update link v l w)) ↔ ∃ w ∈ vifs, p (link w) := by
  refine exists_congr fun w => and_congr_right fun _ => ?_
  by_cases here : w = v
  · rw [here, update_self]
    exact same
  · rw [update_of_ne here]

namespace ConnInv

variable {s u : ConnHw V} {v : V} {l : Link}

section

variable (inv : ConnInv s)

include inv

theorem mem_of_ap {i : ℕ} (there : (s.link v).ap = some i) : v ∈ s.vifs := by
  refine inv.listed v ?_
  by_contra down
  have none := (inv.sound v).down (Bool.eq_false_iff.mpr down)
  rw [none] at there
  cases there

theorem facts : LinkFacts s := by
  refine ⟨fun v _ => (inv.sound v).carrier, fun v _ => (inv.sound v).ap, fun i valid active => ?_, inv.connecting⟩
  obtain ⟨v, there⟩ := inv.owned i valid active
  exact ⟨v, inv.mem_of_ap there, there⟩

theorem move (vifs : u.vifs = s.vifs) (link : u.link = update s.link v l)
    (sound : l.Sound u.sta) (listed : l.up = true → v ∈ s.vifs)
    (single : ∀ w i, w ≠ v → l.ap = some i → (s.link w).ap ≠ some i)
    (others : ∀ w i, w ≠ v → (s.link w).ap = some i → u.sta i = s.sta i)
    (owned : ∀ i, (u.sta i).valid = true → (u.sta i).active = true →
      l.ap = some i ∨ ∃ w, w ≠ v ∧ (s.link w).ap = some i)
    (table : ∀ i w, u.vifTable i = some w → (u.link w).up = true ∧ (u.link w).vifIndex = i)
    (connecting : ¬u.Requesting → (u.connecting = true ↔ u.Pending)) : ConnInv u := by
  have own : u.link v = l := by rw [link, update_self]
  have other : ∀ w, w ≠ v → u.link w = s.link w := fun w ne => by rw [link, update_of_ne ne]
  refine ⟨fun w => ?_, fun w up => ?_, fun w x i first second => ?_, fun i valid active => ?_, table, connecting⟩
  · by_cases here : w = v
    · rw [here, own]
      exact sound
    · rw [other w here]
      have before := inv.sound w
      refine ⟨before.carrier, fun i there => ?_, before.kind, before.down, before.asked⟩
      rw [others w i here there]
      exact before.ap i there
  · rw [vifs]
    by_cases here : w = v
    · rw [here, own] at up
      exact here ▸ listed up
    · rw [other w here] at up
      exact inv.listed w up
  · by_cases here : w = v
    · by_cases there : x = v
      · rw [here, there]
      · rw [here, own] at first
        rw [other x there] at second
        exact absurd second (single x i there first)
    · rw [other w here] at first
      by_cases there : x = v
      · rw [there, own] at second
        exact absurd first (single w i here second)
      · rw [other x there] at second
        exact inv.single w x i first second
  · rcases owned i valid active with mine | ⟨w, ne, there⟩
    · exact ⟨v, by rw [own]; exact mine⟩
    · exact ⟨w, by rw [other w ne]; exact there⟩

theorem keep (vifs : u.vifs = s.vifs) (link : u.link = update s.link v l)
    (sta : u.sta = s.sta) (ap : l.ap = (s.link v).ap) (sound : l.Sound s.sta) (listed : l.up = true → v ∈ s.vifs)
    (table : ∀ i w, u.vifTable i = some w → (u.link w).up = true ∧ (u.link w).vifIndex = i)
    (connecting : ¬u.Requesting → (u.connecting = true ↔ u.Pending)) : ConnInv u := by
  refine inv.move vifs link (sta ▸ sound) listed (fun w i ne mine there => ?_) (fun w i _ _ => by rw [sta])
    (fun i valid active => ?_) table connecting
  · rw [ap] at mine
    exact ne (inv.single w v i there mine)
  · rw [sta] at valid active
    obtain ⟨w, there⟩ := inv.owned i valid active
    by_cases here : w = v
    · rw [here, ← ap] at there
      exact .inl there
    · exact .inr ⟨w, here, there⟩

theorem sameTable (link : u.link = update s.link v l) (vifTable : u.vifTable = s.vifTable)
    (up : l.up = (s.link v).up) (vifIndex : l.vifIndex = (s.link v).vifIndex) (i : ℕ) (w : V)
    (there : u.vifTable i = some w) : (u.link w).up = true ∧ (u.link w).vifIndex = i := by
  rw [vifTable] at there
  have before := inv.table i w there
  rw [link]
  by_cases here : w = v
  · rw [here] at before ⊢
    rw [update_self, up, vifIndex]
    exact before
  · rw [update_of_ne here]
    exact before

theorem sameRequests (vifs : u.vifs = s.vifs) (link : u.link = update s.link v l)
    (flag : u.connecting = s.connecting) (pending : l.pending = (s.link v).pending)
    (requesting : l.requesting = (s.link v).requesting) : ¬u.Requesting → (u.connecting = true ↔ u.Pending) := by
  have asks : u.Requesting ↔ s.Requesting := by
    unfold ConnHw.Requesting
    rw [vifs, link]
    exact exists_update_same (p := fun l => l.requesting = true) (by rw [requesting])
  have waits : u.Pending ↔ s.Pending := by
    unfold ConnHw.Pending
    rw [vifs, link]
    exact exists_update_same (p := fun l => l.pending ≠ 0) (by rw [pending])
  rw [asks, waits, flag]
  exact inv.connecting

/-! ### Steps -/

theorem openVif (mem : v ∈ s.vifs) (down : (s.link v).up = false) (vifIndex : ℕ) :
    ConnInv (s.openVif v vifIndex) := by
  have before := inv.sound v
  have none := before.down down
  refine inv.keep rfl rfl rfl rfl ⟨fun _ => ?_, before.ap, before.kind, fun wrong => (nomatch wrong), before.asked⟩
    (fun _ => mem) (fun i w there => ?_) (inv.sameRequests rfl rfl rfl rfl rfl)
  · show false = true ↔ (s.link v).ap ≠ Option.none
    rw [none]
    exact ⟨fun wrong => (nomatch wrong), fun wrong => absurd rfl wrong⟩
  · have there : update s.vifTable vifIndex (some v) i = some w := there
    show (update s.link v _ w).up = true ∧ (update s.link v _ w).vifIndex = i
    by_cases index : i = vifIndex
    · rw [index, update_self] at there
      obtain rfl := some.inj there
      rw [update_self, index]
      exact ⟨rfl, rfl⟩
    · rw [update_of_ne index] at there
      have old := inv.table i w there
      have other : w ≠ v := by
        rintro rfl
        rw [old.1] at down
        cases down
      rw [update_of_ne other]
      exact old

theorem closeVif_eq (none : (s.link v).ap = none) : ∃ carrier,
    s.closeVif v = { s.setLink v { s.link v with up := false, carrier := carrier } with
      vifTable := update s.vifTable (s.link v).vifIndex Option.none } ∧
    ((s.link v).iftype.isStation = true → carrier = false) := by
  have off : (s.link v).iftype.isStation = true → (s.link v).carrier = false := by
    intro station
    refine Bool.eq_false_iff.mpr fun on => ?_
    exact ((inv.sound v).carrier station).mp on none
  by_cases carrier : (s.link v).carrier = true
  · have other : ¬(s.link v).iftype.isStation = true := fun station => by
      rw [off station] at carrier
      cases carrier
    unfold ConnHw.closeVif
    dsimp only
    rw [if_pos carrier, if_neg other]
    by_cases vlan : (s.link v).iftype = .apVlan
    · rw [if_pos vlan]
      exact ⟨false, rfl, fun _ => rfl⟩
    · rw [if_neg vlan]
      exact ⟨(s.link v).carrier, rfl, off⟩
  · unfold ConnHw.closeVif
    dsimp only
    rw [if_neg carrier]
    exact ⟨(s.link v).carrier, rfl, off⟩

theorem closeVif (none : (s.link v).ap = none) : ConnInv (s.closeVif v) := by
  obtain ⟨carrier, closed, off⟩ := inv.closeVif_eq none
  rw [closed]
  have before := inv.sound v
  refine inv.keep rfl rfl rfl rfl ⟨fun station => ?_, before.ap, before.kind, fun _ => none, before.asked⟩
    (fun wrong => (nomatch wrong)) (fun i w there => ?_) (inv.sameRequests rfl rfl rfl rfl rfl)
  · show carrier = true ↔ (s.link v).ap ≠ Option.none
    rw [off station, none]
    exact ⟨fun wrong => (nomatch wrong), fun wrong => absurd rfl wrong⟩
  · have there : update s.vifTable (s.link v).vifIndex Option.none i = some w := there
    by_cases index : i = (s.link v).vifIndex
    · rw [index, update_self] at there
      cases there
    · rw [update_of_ne index] at there
      have old := inv.table i w there
      have other : w ≠ v := by
        rintro rfl
        exact index old.2.symm
      show (update s.link v _ w).up = true ∧ (update s.link v _ w).vifIndex = i
      rw [update_of_ne other]
      exact old

theorem connectBegin (mem : v ∈ s.vifs) (station : (s.link v).iftype.isStation = true)
    (sme : ConnectParams) (sent : Int) (status : CoStatus) : ConnInv (s.connectBegin v sme sent status) := by
  unfold ConnHw.connectBegin
  split
  · have before := inv.sound v
    refine inv.keep rfl rfl rfl rfl ⟨before.carrier, before.ap, before.kind, before.down, fun _ => station⟩
      (inv.listed v) (inv.sameTable rfl rfl rfl rfl) fun idle => ?_
    exact absurd ((exists_update mem _ fun l => l.requesting = true).mpr (.inl rfl)) idle
  · exact inv

end

theorem connectEnd_requests (mem : v ∈ s.vifs) :
    ((s.connectEnd v).Requesting ↔ ∃ w ∈ s.vifs, w ≠ v ∧ (s.link w).requesting = true) ∧
    ((s.connectEnd v).Pending ↔ s.Pending) := by
  refine ⟨(exists_update mem _ fun l => l.requesting = true).trans ?_,
    exists_update_same (p := fun l => l.pending ≠ 0) Iff.rfl⟩
  exact ⟨fun either => either.resolve_left fun wrong => (nomatch wrong), .inr⟩

theorem connectEnd (inv : ConnInv s) (mem : v ∈ s.vifs)
    (guard : (∃ w ∈ s.vifs, w ≠ v ∧ (s.link w).requesting = true) ∨ s.Pending) : ConnInv (s.connectEnd v) := by
  have before := inv.sound v
  obtain ⟨asks, waits⟩ := connectEnd_requests mem
  refine inv.keep rfl rfl rfl rfl ⟨before.carrier, before.ap, before.kind, before.down, before.asked⟩
    (inv.listed v) (inv.sameTable rfl rfl rfl rfl) fun idle => ?_
  rw [asks] at idle
  rw [waits]
  exact ⟨fun _ => guard.resolve_left idle, fun _ => rfl⟩

theorem answered (mem : v ∈ s.vifs) (vifs : u.vifs = s.vifs)
    (link : u.link = update s.link v l) (pending : l.pending = (s.link v).pending - 1)
    (requesting : l.requesting = (s.link v).requesting) :
    (u.Requesting ↔ s.Requesting) ∧ (¬u.Pending ↔ s.AnswersLast v) := by
  unfold ConnHw.Requesting ConnHw.Pending
  rw [vifs, link]
  refine ⟨exists_update_same (p := fun l => l.requesting = true) (by rw [requesting]), ?_⟩
  rw [exists_update mem l fun l => l.pending ≠ 0, not_or, not_exists, pending]
  refine and_congr (by omega) (forall_congr' fun w => ?_)
  rw [not_and, not_and, not_not]

theorem smConnectInd (inv : ConnInv s) (mem : v ∈ s.vifs) (up : (s.link v).up = true) {ind : ConnectInd}
    (asked : (s.link v).requested = true) (granted : s.Granted v ind)
    (success : ind.statusCode = 0 → (s.link v).ap = none ∨ (s.link v).ap = some ind.apIdx)
    (failure : ind.statusCode ≠ 0 → (s.link v).ap ≠ none) (last : s.Requesting ∨ s.AnswersLast v) :
    ConnInv (s.smConnectInd v ind) := by
  have before := inv.sound v
  have station := before.asked asked
  have flag : ∀ {u : ConnHw V}, u.connecting = false → (u.Requesting ↔ s.Requesting) →
      (¬u.Pending ↔ s.AnswersLast v) → ¬u.Requesting → (u.connecting = true ↔ u.Pending) := by
    intro u off asks waits idle
    have none := waits.mpr (last.resolve_left fun on => idle (asks.mpr on))
    rw [off]
    exact ⟨fun wrong => (nomatch wrong), fun some' => absurd some' none⟩
  unfold ConnHw.smConnectInd
  dsimp only
  by_cases ok : ind.statusCode = 0
  · rw [if_pos ok]
    have requests := answered (u := (({ s with connecting := false } : ConnHw V).setSta ind.apIdx
      ⟨true, true, ind.vifIdx⟩).setLink v
        { s.link v with pending := (s.link v).pending - 1, ap := some ind.apIdx, carrier := true }) mem rfl rfl rfl rfl
    have fresh : ∀ w, w ≠ v → (s.link w).ap ≠ some ind.apIdx := by
      intro w ne there
      have listed := inv.mem_of_ap there
      refine granted ok w listed ne ?_ there
      by_contra down
      rw [(inv.sound w).down (Bool.eq_false_iff.mpr down)] at there
      cases there
    refine inv.move rfl rfl ⟨fun _ => ⟨fun _ wrong => (nomatch wrong), fun _ => rfl⟩, fun i same => ?_,
        fun _ => station, fun down => ?_, fun _ => station⟩ (fun _ => mem) (fun w i ne same there => ?_)
      (fun w i ne there => ?_) (fun i valid active => ?_) (inv.sameTable rfl rfl rfl rfl)
      (flag rfl requests.1 requests.2)
    · obtain rfl := some.inj same
      show (update s.sta ind.apIdx _ ind.apIdx).valid = true ∧ (update s.sta ind.apIdx _ ind.apIdx).active = true
      rw [update_self]
      exact ⟨rfl, rfl⟩
    · have down : (s.link v).up = false := down
      rw [up] at down
      cases down
    · obtain rfl := some.inj same
      exact fresh w ne there
    · have other : i ≠ ind.apIdx := by
        rintro rfl
        exact fresh w ne there
      exact update_of_ne other _ _
    · by_cases own : i = ind.apIdx
      · rw [own]
        exact .inl rfl
      · have kept : update s.sta ind.apIdx ⟨true, true, ind.vifIdx⟩ i = s.sta i :=
          update_of_ne own _ _
        have valid : (update s.sta ind.apIdx ⟨true, true, ind.vifIdx⟩ i).valid = true := valid
        have active : (update s.sta ind.apIdx ⟨true, true, ind.vifIdx⟩ i).active = true := active
        rw [kept] at valid active
        obtain ⟨w, there⟩ := inv.owned i valid active
        refine .inr ⟨w, ?_, there⟩
        rintro rfl
        rcases success ok with none | same
        · rw [none] at there
          cases there
        · exact own (some.inj (there.symm.trans same))
  · rw [if_neg ok]
    have requests := answered (u := ({ s with connecting := false } : ConnHw V).setLink v
      { s.link v with pending := (s.link v).pending - 1, extAuth := false, carrier := true }) mem rfl rfl rfl rfl
    exact inv.keep rfl rfl rfl rfl ⟨fun _ => ⟨fun _ => failure ok, fun _ => rfl⟩, before.ap, before.kind,
        before.down, fun _ => station⟩ (inv.listed v) (inv.sameTable rfl rfl rfl rfl)
      (flag rfl requests.1 requests.2)

theorem smDisconnectInd (inv : ConnInv s) (up : (s.link v).up = true) : ConnInv (s.smDisconnectInd v) := by
  have before := inv.sound v
  have off : ((s.link v).carrier && !(s.link v).up) = false := by rw [up, Bool.not_true, Bool.and_false]
  unfold ConnHw.smDisconnectInd
  dsimp only
  rw [off]
  split
  · case h_1 none =>
    have none : (s.link v).ap = Option.none := none
    refine inv.keep rfl rfl rfl rfl ⟨fun _ => ?_, before.ap, before.kind, before.down, before.asked⟩
      (inv.listed v) (inv.sameTable rfl rfl rfl rfl) (inv.sameRequests rfl rfl rfl rfl rfl)
    show false = true ↔ (s.link v).ap ≠ Option.none
    rw [none]
    exact ⟨fun wrong => (nomatch wrong), fun wrong => absurd rfl wrong⟩
  · case h_2 i there =>
    have there : (s.link v).ap = some i := there
    have gone : ∀ j, j ≠ i → update s.sta i { s.sta i with active := false, valid := false } j = s.sta j :=
      fun j ne => update_of_ne ne _ _
    refine inv.move rfl rfl ⟨fun _ => ⟨fun wrong => (nomatch wrong), fun wrong => absurd rfl wrong⟩,
        fun j wrong => (nomatch wrong), fun wrong => absurd rfl wrong, fun _ => rfl, before.asked⟩ (inv.listed v)
      (fun w j ne wrong => (nomatch wrong)) (fun w j ne other => ?_) (fun j valid active => ?_)
      (inv.sameTable rfl rfl rfl rfl) (inv.sameRequests rfl rfl rfl rfl rfl)
    · refine gone j ?_
      rintro rfl
      exact ne (inv.single w v j other there)
    · by_cases own : j = i
      · have valid : (update s.sta i { s.sta i with active := false, valid := false } j).valid = true := valid
        rw [own, update_self] at valid
        cases valid
      · have valid : (update s.sta i { s.sta i with active := false, valid := false } j).valid = true := valid
        have active : (update s.sta i
            { s.sta i with active := false, valid := false } j).active = true := active
        rw [gone j own] at valid active
        obtain ⟨w, here⟩ := inv.owned j valid active
        refine .inr ⟨w, ?_, here⟩
        rintro rfl
        exact own (some.inj (here.symm.trans there))

theorem smExternalAuthRequiredInd (inv : ConnInv s) {vifIdx : ℕ} {taken : Bool}
    (guard : s.ExternalAuthRefused v vifIdx taken ∨ (s.link v).ap = none) :
    ConnInv (s.smExternalAuthRequiredInd v vifIdx taken) := by
  unfold ConnHw.smExternalAuthRequiredInd
  split
  · exact inv
  · case isFalse taken' =>
    have none := guard.resolve_left taken'
    have before := inv.sound v
    refine inv.keep rfl rfl rfl none.symm ⟨fun station => ?_, fun i wrong => (nomatch wrong),
        fun wrong => absurd rfl wrong, fun _ => rfl, before.asked⟩ (inv.listed v)
      (inv.sameTable rfl rfl rfl rfl) (inv.sameRequests rfl rfl rfl rfl rfl)
    have agree := before.carrier station
    rw [none] at agree
    exact agree

theorem init (iftype : V → Iftype) (vifs : List V) : ConnInv (init iftype vifs) := by
  refine ⟨fun v => ⟨fun _ => ⟨fun wrong => (nomatch wrong), fun wrong => absurd rfl wrong⟩,
    fun i wrong => (nomatch wrong),
      fun wrong => absurd rfl wrong, fun _ => rfl, fun wrong => (nomatch wrong)⟩, fun v wrong => (nomatch wrong),
    fun v w i wrong => (nomatch wrong), fun i wrong => (nomatch wrong), fun i v wrong => (nomatch wrong), fun _ => ?_⟩
  exact ⟨fun wrong => (nomatch wrong), fun ⟨v, _, wrong⟩ => absurd rfl wrong⟩

theorem step (inv : ConnInv s) {a : ConnAct V} (guard : Guard s a) (stepped : act s a = some u) : ConnInv u := by
  cases a with
  | open_ v vifIndex =>
    obtain ⟨⟨mem, down, -, -⟩, same⟩ := ite_none_right_eq_some.mp stepped
    obtain rfl := some.inj same
    exact inv.openVif mem down vifIndex
  | close v =>
    obtain ⟨-, same⟩ := ite_none_right_eq_some.mp stepped
    obtain rfl := some.inj same
    exact inv.closeVif guard
  | connectBegin v sme sent status =>
    obtain ⟨⟨mem, -, station, -⟩, same⟩ := ite_none_right_eq_some.mp stepped
    obtain rfl := some.inj same
    exact inv.connectBegin mem station sme sent status
  | connectEnd v =>
    obtain ⟨⟨mem, -⟩, same⟩ := ite_none_right_eq_some.mp stepped
    obtain rfl := some.inj same
    exact inv.connectEnd mem guard
  | smConnectInd ind =>
    unfold act at stepped
    dsimp only at stepped
    split at stepped
    · cases stepped
    · case h_2 v there =>
      obtain ⟨⟨asked, -, granted⟩, same⟩ := ite_none_right_eq_some.mp stepped
      obtain rfl := some.inj same
      rw [Guard, there] at guard
      obtain ⟨success, failure, last⟩ := guard
      have up := (inv.table _ v there).1
      exact inv.smConnectInd (inv.listed v up) up asked granted success failure last
  | smDisconnectInd vifIdx reassoc =>
    unfold act at stepped
    dsimp only at stepped
    split at stepped
    · obtain rfl := some.inj stepped
      exact inv
    · case h_2 v there =>
      obtain rfl := some.inj stepped
      exact inv.smDisconnectInd (inv.table _ v there).1
  | smExternalAuthRequiredInd vifIdx taken =>
    unfold act at stepped
    dsimp only at stepped
    split at stepped
    · cases stepped
    · case h_2 v there =>
      obtain rfl := some.inj stepped
      rw [Guard, there] at guard
      exact inv.smExternalAuthRequiredInd guard

end ConnInv

/-! ### The other steps -/

section Others

variable {s u : ConnHw V} {v : V}

theorem link_setLink (l : Link) : (s.setLink v l).link v = l := update_self ..

/-- An interface that is connected when it is closed keeps `sta.ap`. -/
theorem closeVif_ap (inv : ConnInv s) (facts : LinkFacts (s.closeVif v)) (mem : v ∈ s.vifs) : (s.link v).ap = none := by
  by_contra some'
  have before := inv.sound v
  have station := before.kind some'
  have on := (before.carrier station).mpr some'
  have closed : (s.closeVif v).vifs = s.vifs ∧
      (s.closeVif v).link = update s.link v { s.link v with up := false, carrier := false } := by
    unfold ConnHw.closeVif ConnHw.txqStaDeinit
    dsimp only
    rw [if_pos on, if_pos station]
    split
    · exact ⟨rfl, rfl⟩
    · exact ⟨rfl, rfl⟩
  obtain ⟨vifs, link⟩ := closed
  have agree := facts.carrier v (by rw [vifs]; exact mem)
  rw [link, update_self] at agree
  exact absurd ((agree station).mpr some') Bool.false_ne_true

theorem connectEnd_waits (facts : LinkFacts (s.connectEnd v)) (mem : v ∈ s.vifs) :
    (∃ w ∈ s.vifs, w ≠ v ∧ (s.link w).requesting = true) ∨ s.Pending := by
  obtain ⟨asks, waits⟩ := ConnInv.connectEnd_requests mem
  refine Classical.or_iff_not_imp_left.mpr fun idle => ?_
  exact waits.mp ((facts.connecting (mt asks.mp idle)).mp rfl)

theorem smConnectInd_answers (inv : ConnInv s) {ind : ConnectInd} (facts : LinkFacts (s.smConnectInd v ind))
    (mem : v ∈ s.vifs) (asked : (s.link v).requested = true) :
    (ind.statusCode = 0 → (s.link v).ap = none ∨ (s.link v).ap = some ind.apIdx) ∧
      (ind.statusCode ≠ 0 → (s.link v).ap ≠ none) ∧ (s.Requesting ∨ s.AnswersLast v) := by
  have flag : ∀ {u : ConnHw V}, LinkFacts u → u.connecting = false → (u.Requesting ↔ s.Requesting) →
      (¬u.Pending ↔ s.AnswersLast v) → s.Requesting ∨ s.AnswersLast v := by
    intro u facts off asks waits
    refine Classical.or_iff_not_imp_left.mpr fun idle => waits.mp fun some' => ?_
    have on := (facts.connecting (mt asks.mp idle)).mpr some'
    rw [off] at on
    cases on
  unfold ConnHw.smConnectInd at facts
  dsimp only at facts
  by_cases ok : ind.statusCode = 0
  · rw [if_pos ok] at facts
    have requests := ConnInv.answered (s := s) (v := v) (u := (({ s with connecting := false } : ConnHw V).setSta
      ind.apIdx ⟨true, true, ind.vifIdx⟩).setLink v { s.link v with
        pending := (s.link v).pending - 1, ap := some ind.apIdx, carrier := true }) mem rfl rfl rfl rfl
    refine ⟨fun _ => ?_, fun wrong => absurd ok wrong, flag facts rfl requests.1 requests.2⟩
    by_contra other
    rw [not_or] at other
    obtain ⟨i, there⟩ := Option.ne_none_iff_exists'.mp other.1
    -- the old entry is as it was, and no interface has it any more
    have ne : i ≠ ind.apIdx := fun same => other.2 (same ▸ there)
    have before := (inv.sound v).ap i there
    have kept : update s.sta ind.apIdx ⟨true, true, ind.vifIdx⟩ i = s.sta i := update_of_ne ne _ _
    obtain ⟨w, -, has⟩ := facts.owned i ((congrArg Entry.valid kept).trans before.1)
      ((congrArg Entry.active kept).trans before.2)
    have has : (update s.link v _ w).ap = some i := has
    by_cases here : w = v
    · rw [here, update_self] at has
      exact ne (some.inj has).symm
    · rw [update_of_ne here] at has
      exact here (inv.single w v i has there)
  · rw [if_neg ok] at facts
    have requests := ConnInv.answered (s := s) (v := v) (u := ({ s with connecting := false } : ConnHw V).setLink v
      { s.link v with pending := (s.link v).pending - 1, extAuth := false, carrier := true }) mem rfl rfl rfl rfl
    refine ⟨fun wrong => absurd wrong ok, fun _ => ?_, flag facts rfl requests.1 requests.2⟩
    have agree := facts.carrier v mem
    rw [link_setLink] at agree
    exact (agree ((inv.sound v).asked asked)).mp rfl

/-- An interface that is connected when external authentication is taken loses `sta.ap` and keeps the carrier. -/
theorem smExternalAuthRequiredInd_idle (inv : ConnInv s) {vifIdx : ℕ} {taken : Bool}
    (facts : LinkFacts (s.smExternalAuthRequiredInd v vifIdx taken)) (mem : v ∈ s.vifs) :
    s.ExternalAuthRefused v vifIdx taken ∨ (s.link v).ap = none := by
  refine Classical.or_iff_not_imp_left.mpr fun taken' => ?_
  by_contra some'
  have before := inv.sound v
  have station := before.kind some'
  unfold ConnHw.smExternalAuthRequiredInd at facts
  rw [if_neg taken'] at facts
  have agree := facts.carrier v mem
  rw [link_setLink] at agree
  exact (agree station).mp ((before.carrier station).mpr some') rfl

theorem guard_of_facts (inv : ConnInv s) {a : ConnAct V} (stepped : act s a = some u) (facts : LinkFacts u) :
    Guard s a := by
  cases a with
  | open_ | connectBegin | smDisconnectInd => trivial
  | close v =>
    obtain ⟨⟨mem, -⟩, same⟩ := ite_none_right_eq_some.mp stepped
    obtain rfl := some.inj same
    exact closeVif_ap inv facts mem
  | connectEnd v =>
    obtain ⟨⟨mem, -⟩, same⟩ := ite_none_right_eq_some.mp stepped
    obtain rfl := some.inj same
    exact connectEnd_waits facts mem
  | smConnectInd ind =>
    unfold act at stepped
    dsimp only at stepped
    split at stepped
    · cases stepped
    · case h_2 v there =>
      obtain ⟨⟨asked, -⟩, same⟩ := ite_none_right_eq_some.mp stepped
      obtain rfl := some.inj same
      rw [Guard, there]
      exact smConnectInd_answers inv facts (inv.listed v (inv.table _ v there).1) asked
  | smExternalAuthRequiredInd vifIdx taken =>
    unfold act at stepped
    dsimp only at stepped
    split at stepped
    · cases stepped
    · case h_2 v there =>
      obtain rfl := some.inj stepped
      rw [Guard, there]
      exact smExternalAuthRequiredInd_idle inv facts (inv.listed v (inv.table _ v there).1)

/-- **The places agree** in every run whose steps meet the guard, and after such a run a step keeps them so
exactly when it meets the guard too. -/
theorem connections_agree {iftype : V → Iftype} {vifs : List V} (reach : (system iftype vifs).Reachable Guard s) :
    LinkFacts s ∧ ∀ a t, act s a = some t → (LinkFacts t ↔ Guard s a) := by
  have inv : ConnInv s :=
    reach.invariant (I := ConnInv) (ConnInv.init iftype vifs) fun _ _ _ _ inv guard stepped => inv.step guard stepped
  exact ⟨inv.facts, fun a t stepped =>
    ⟨guard_of_facts inv stepped, fun guard => (inv.step guard stepped).facts⟩⟩

end Others

/-- Two interfaces: one is refused, the other authenticates externally, connects, loses the AP and roams. -/
theorem connections_agree_two : ∃ s : ConnHw ℕ, (s.link 0).ap = some 5 ∧ s.connecting = false ∧ LinkFacts s ∧
    ∀ a t, act s a = some t → (LinkFacts t ↔ Guard s a) := by
  have reach := System.reachable_of_run (system (fun _ => .station) [0, 1]) Guard
    [.open_ 0 0, .open_ 1 1, .connectBegin 1 {} 0 .coBusy, .connectBegin 0 { authType := .sae } 0 .coOk,
      .connectBegin 0 { authType := .sae, externalAuthSupport := true } 0 .coOk, .connectEnd 0,
      .smExternalAuthRequiredInd 0 true, .smConnectInd { vifIdx := 0, apIdx := 3 }, .smDisconnectInd 0 true,
      .smConnectInd { vifIdx := 0, roamed := true, apIdx := 5 },
      .close 1, .smDisconnectInd 1 false] (by decide +kernel)
  obtain ⟨facts, step⟩ := connections_agree reach
  exact ⟨_, by decide +kernel, by decide +kernel, facts, step⟩

/-- **A failed connection turns the carrier on**: the request is accepted and its thread goes on, then the
indication says that the connection failed. -/
theorem failed_connect_sets_carrier : ¬∀ s : ConnHw ℕ,
    (system (fun _ => .station) [0]).Reachable (fun _ _ => True) s → LinkFacts s := by
  intro claimed
  have reach := System.reachable_of_run (system (fun _ => .station) [0]) (fun _ _ => True)
    [.open_ 0 0, .connectBegin 0 {} 0 .coOk, .connectEnd 0, .smConnectInd { vifIdx := 0, statusCode := 1 }]
    (by decide +kernel)
  generalize state : (System.run (system (fun _ => .station) [0]) (fun _ _ => True) _ _).get _ = q at reach
  have mem : 0 ∈ q.vifs := by
    rw [← state]
    decide +kernel
  have station : (q.link 0).iftype.isStation = true := by
    rw [← state]
    decide +kernel
  have on : (q.link 0).carrier = true := by
    rw [← state]
    decide +kernel
  have ap : (q.link 0).ap = none := by
    rw [← state]
    decide +kernel
  exact ((claimed q reach).carrier 0 mem station).mp on ap

end W2l.Conn
