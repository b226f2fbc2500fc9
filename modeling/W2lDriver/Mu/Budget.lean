/-
**The budget of a run that creates MU groups.**

`aml_mu_group_work`, `aml_mu_group_create`, `aml_mu_group_create_one` (`aml_mu_group.c`). A run may create so many
groups. The function that creates one takes it off the budget, and the function that called it does so again; the
walk over the stations goes on until the budget is 0.

* `Work`, `Work.create`, `Work.loop` — the run, with the budget and the groups it has created.
* `Work.loop_hw` — it is the run of the driver.
* `BudgetRight` — **what a run should do with its budget**.
-/

import W2lDriver.Mu.Groups

set_option linter.unusedSectionVars false

namespace W2l.Mu

variable {S : Type} [DecidableEq S]

/-! ### The run -/

/-- The state of a run: the driver, `nb_group_left`, and the groups it has created with their users. -/
structure Work (S : Type) where
  hw : MuHw S
  left : Int
  made : List (ℕ × List S) := []

namespace Work

/-- `aml_mu_group_create_one` for two users, and the count of its caller. -/
def createOne (sta user : S) (w : Work S) : Work S :=
  let one := w.hw.createOne sta user
  if one.2 then ⟨one.1, w.left - 2, w.made ++ [(w.hw.activeGroups.getLast?.getD 0, [sta, user])]⟩
  else { w with hw := one.1 }

/-- `aml_mu_group_create`. -/
def create (sta : S) : List S → Work S → Work S
  | [], w => w
  | user :: rest, w => if w.left = 0 then w else create sta rest (w.createOne sta user)

/-- A station is done with. -/
def leave (sta : S) (w : Work S) : Work S :=
  { w with
    hw := { w.hw.setInfo sta { w.hw.info sta with lastUpdate := w.hw.updateCount } with
      activeSta := w.hw.activeSta.erase sta } }

/-- The loop of `aml_mu_group_work`. -/
def loop : List S → Work S → Work S
  | [], w => w
  | sta :: rest, w => loop rest (leave sta (if w.left ≠ 0 then create sta rest w else w))

end Work

/-- **What a run should do**: every group takes one off the budget, which does not go below 0; there are no more
than there are groups; and each is still there in the end, with the users it was created with. -/
structure BudgetRight (s : MuHw S) (stas : List S) (budget : Int) : Prop where
  counted : (Work.loop stas ⟨s, budget, []⟩).left = budget - (Work.loop stas ⟨s, budget, []⟩).made.length
  kept : 0 ≤ (Work.loop stas ⟨s, budget, []⟩).left
  few : (Work.loop stas ⟨s, budget, []⟩).made.length ≤ nxMuGroupMax
  present : ∀ g ∈ (Work.loop stas ⟨s, budget, []⟩).made, ∀ sta ∈ g.2,
    ∃ i, ((Work.loop stas ⟨s, budget, []⟩).hw.groups g.1).users i = some sta

def Share (s : MuHw S) (first second : S) : Prop := (s.info first).map &&& (s.info second).map ≠ 0

instance (s : MuHw S) (first second : S) : Decidable (Share s first second) :=
  inferInstanceAs (Decidable ((s.info first).map &&& (s.info second).map ≠ 0))

/-! ### It is the run of the driver -/

section Refines

variable {sta user : S} {rest : List S} (w : Work S)

theorem Work.createOne_eq : w.createOne sta user =
    ⟨(w.hw.createOne sta user).1, if (w.hw.createOne sta user).2 then w.left - 2 else w.left,
      (w.createOne sta user).made⟩ := by
  unfold Work.createOne
  dsimp only
  split <;> rfl

theorem Work.create_hw : ((Work.create sta rest w).hw, (Work.create sta rest w).left) =
    Mu.create sta rest w.left w.hw := by
  induction rest generalizing w with
  | nil => rfl
  | cons user rest ih =>
    unfold Work.create Mu.create
    split
    case isTrue => rfl
    case isFalse =>
      rw [ih, w.createOne_eq]

theorem Work.loop_hw (stas : List S) : (Work.loop stas w).hw = workLoop stas w.left w.hw := by
  induction stas generalizing w with
  | nil => rfl
  | cons sta rest ih =>
    unfold Work.loop workLoop
    rw [ih]
    split
    case isTrue =>
      have same : _ = Mu.create sta rest w.left w.hw := w.create_hw
      rw [← same]
      rfl
    case isFalse => rfl

end Refines

/-! ### Two for each group -/

section Count

variable {sta user : S} {rest : List S} (w : Work S)

/-- What is twice the created groups and the budget stays. -/
def Work.total (w : Work S) : Int := w.left + 2 * w.made.length

theorem Work.createOne_total : (w.createOne sta user).total = w.total := by
  unfold Work.createOne Work.total
  dsimp only
  split
  case isTrue =>
    show w.left - 2 + 2 * ((w.made ++ [_]).length : Int) = w.left + 2 * w.made.length
    rw [List.length_append, List.length_singleton]
    omega
  case isFalse => rfl

theorem Work.create_total : (Work.create sta rest w).total = w.total := by
  induction rest generalizing w with
  | nil => rfl
  | cons user rest ih =>
    unfold Work.create
    split
    · rfl
    · rw [ih, w.createOne_total]

theorem Work.loop_total (stas : List S) : (Work.loop stas w).total = w.total := by
  induction stas generalizing w with
  | nil => rfl
  | cons sta rest ih =>
    unfold Work.loop
    rw [ih]
    show Work.total (if w.left ≠ 0 then Work.create sta rest w else w) = w.total
    split
    · exact w.create_total
    · rfl

theorem Work.loop_left (s : MuHw S) (stas : List S) (budget : Int) : (Work.loop stas ⟨s, budget, []⟩).left =
    budget - 2 * (Work.loop stas ⟨s, budget, []⟩).made.length := by
  have total := Work.loop_total ⟨s, budget, []⟩ stas
  unfold Work.total at total
  rw [List.length_nil] at total
  dsimp only at total
  omega

end Count

/-! ### When no group is created -/

section Idle

variable {sta user : S} {rest stas : List S} {w w' w'' : Work S}

/-- Nothing is created between two states. -/
structure Idle (w w' : Work S) : Prop where
  made : w'.made = w.made
  left : w'.left = w.left
  map : ∀ x, (w'.hw.info x).map = (w.hw.info x).map

theorem Idle.refl (w : Work S) : Idle w w := ⟨rfl, rfl, fun _ => rfl⟩

theorem Idle.trans (first : Idle w w') (second : Idle w' w'') : Idle w w'' :=
  ⟨second.made.trans first.made, second.left.trans first.left, fun x => (second.map x).trans (first.map x)⟩

theorem Idle.share (idle : Idle w w') {first second : S} : Share w'.hw first second ↔ Share w.hw first second := by
  unfold Share
  rw [idle.map, idle.map]

theorem createOne_idle (share : Share w.hw sta user) : Idle w (w.createOne sta user) := by
  have one : w.hw.createOne sta user = ({ w.hw with
      activeGroups := moveHead w.hw.activeGroups
        (getFirstGroupId ((w.hw.info sta).map &&& (w.hw.info user).map)) }, false) := if_pos share
  unfold Work.createOne
  rw [one]
  exact ⟨rfl, rfl, fun _ => rfl⟩

theorem createOne_made (apart : ¬Share w.hw sta user) : (w.createOne sta user).made.length = w.made.length + 1 := by
  have one : (w.hw.createOne sta user).2 = true := by
    unfold MuHw.createOne
    dsimp only
    rw [if_neg (show ¬((w.hw.info sta).map &&& (w.hw.info user).map ≠ 0) from apart)]
  unfold Work.createOne
  dsimp only
  rw [if_pos one, List.length_append, List.length_singleton]

theorem createOne_grows (w : Work S) : w.made.length ≤ (w.createOne sta user).made.length := by
  by_cases share : Share w.hw sta user
  · rw [(createOne_idle share).made]
  · rw [createOne_made share]
    exact Nat.le_succ _

theorem create_grows (w : Work S) : w.made.length ≤ (Work.create sta rest w).made.length := by
  induction rest generalizing w with
  | nil => exact le_rfl
  | cons user rest ih =>
    unfold Work.create
    split
    · exact le_rfl
    · exact (createOne_grows w).trans (ih _)

theorem create_idle (all : ∀ user ∈ rest, Share w.hw sta user) : Idle w (Work.create sta rest w) := by
  induction rest generalizing w with
  | nil => exact .refl w
  | cons user rest ih =>
    unfold Work.create
    split
    · exact .refl w
    · have first := createOne_idle (all user List.mem_cons_self)
      refine first.trans (ih fun next member => ?_)
      exact first.share.mpr (all next (List.mem_cons_of_mem _ member))

theorem create_makes (budget : w.left ≠ 0) (member : user ∈ rest) (apart : ¬Share w.hw sta user) :
    w.made.length < (Work.create sta rest w).made.length := by
  induction rest generalizing w with
  | nil => cases member
  | cons next rest ih =>
    unfold Work.create
    rw [if_neg budget]
    by_cases share : Share w.hw sta next
    · have first := createOne_idle share
      rw [← first.made]
      refine ih (first.left ▸ budget) ?_ (fun later => apart (first.share.mp later))
      exact (List.mem_cons.mp member).resolve_left fun same => apart (same ▸ share)
    · calc w.made.length < w.made.length + 1 := Nat.lt_succ_self _
        _ = (w.createOne sta next).made.length := (createOne_made share).symm
        _ ≤ _ := create_grows _

theorem leave_idle (sta : S) (w : Work S) : Idle w (Work.leave sta w) := by
  refine ⟨rfl, rfl, fun x => ?_⟩
  show (Function.update w.hw.info sta _ x).map = _
  rcases eq_or_ne x sta with rfl | other
  · rw [Function.update_self]
  · rw [Function.update_of_ne other]

theorem loop_grows (w : Work S) : w.made.length ≤ (Work.loop stas w).made.length := by
  induction stas generalizing w with
  | nil => exact le_rfl
  | cons sta rest ih =>
    unfold Work.loop
    refine le_trans ?_ (ih _)
    show w.made.length ≤ (if w.left ≠ 0 then Work.create sta rest w else w).made.length
    split
    · exact create_grows w
    · exact le_rfl

theorem loop_idle (all : stas.Pairwise (Share w.hw)) : Idle w (Work.loop stas w) := by
  induction stas generalizing w with
  | nil => exact .refl w
  | cons sta rest ih =>
    obtain ⟨first, later⟩ := List.pairwise_cons.mp all
    unfold Work.loop
    have made : Idle w (if w.left ≠ 0 then Work.create sta rest w else w) := by
      split
      · exact create_idle first
      · exact .refl w
    have left := made.trans (leave_idle sta _)
    exact left.trans (ih (later.imp fun share => left.share.mpr share))

theorem loop_makes (budget : w.left ≠ 0) (some : ¬stas.Pairwise (Share w.hw)) :
    w.made.length < (Work.loop stas w).made.length := by
  induction stas generalizing w with
  | nil => exact absurd List.Pairwise.nil some
  | cons sta rest ih =>
    unfold Work.loop
    rw [if_pos budget]
    by_cases first : ∀ user ∈ rest, Share w.hw sta user
    · have left := (create_idle first).trans (leave_idle sta _)
      rw [← left.made]
      refine ih (left.left ▸ budget) fun all => some (List.pairwise_cons.mpr ⟨first, ?_⟩)
      exact all.imp fun share => left.share.mp share
    · push Not at first
      obtain ⟨user, member, apart⟩ := first
      exact (create_makes budget member apart).trans_le (loop_grows (Work.leave sta (Work.create sta rest w)))

theorem loop_empty (empty : w.left = 0) : Idle w (Work.loop stas w) := by
  induction stas generalizing w with
  | nil => exact .refl w
  | cons sta rest ih =>
    unfold Work.loop
    rw [if_neg (not_not_intro empty)]
    have left := leave_idle sta w
    exact left.trans (ih (left.left.trans empty))

end Idle

/-! ### When the budget is right -/

section Right

variable {s : MuHw S} {stas : List S} {budget : Int}

/-- **A run does with its budget what it should exactly if it creates nothing**: the budget is 0, or each two of
the stations share a group. -/
theorem budgetRight_iff (s : MuHw S) (stas : List S) (budget : Int) :
    BudgetRight s stas budget ↔ 0 ≤ budget ∧ (budget = 0 ∨ stas.Pairwise (Share s)) := by
  constructor
  · intro right
    have left := Work.loop_left s stas budget
    have counted := right.counted
    have kept := right.kept
    have none_ : (Work.loop stas ⟨s, budget, []⟩).made.length = 0 := by omega
    refine ⟨by omega, or_iff_not_imp_left.mpr fun some => ?_⟩
    by_contra apart
    have makes := loop_makes (w := ⟨s, budget, []⟩) some apart
    rw [none_] at makes
    exact absurd makes (Nat.not_lt_zero _)
  · rintro ⟨kept, which⟩
    have idle : Idle ⟨s, budget, []⟩ (Work.loop stas ⟨s, budget, []⟩) := by
      rcases which with empty | all
      · exact loop_empty empty
      · exact loop_idle all
    refine ⟨?_, ?_, ?_, ?_⟩
    · rw [idle.left, idle.made]
      exact (sub_zero budget).symm
    · rw [idle.left]
      exact kept
    · rw [idle.made]
      exact Nat.zero_le _
    · rw [idle.made]
      exact fun _ member => absurd member List.not_mem_nil

end Right

/-- Two stations without a group get one, and the budget goes down by two. -/
theorem created_counted_twice : ¬BudgetRight (init : MuHw ℕ) [0, 1] nxMuGroupMax := by
  intro right
  have counted := right.counted
  revert counted
  decide +kernel

end W2l.Mu
