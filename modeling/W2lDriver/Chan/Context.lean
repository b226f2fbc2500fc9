/-
**Channel contexts.**

`aml_main.c`. An interface on a channel is linked to a context of `chanctx_table`, which counts the
interfaces linked to it.

* `ChanHw` — the contexts, and the context of each interface.
* `chanctxLink`, `chanctxUnlink` — `aml_chanctx_link`, `aml_chanctx_unlink`.
* `Balanced` — **a context counts its interfaces, and has no channel without one**.
* `Balanced.unlink`, `link_balanced_iff` — unlinking keeps it, and **linking keeps it exactly when the
  interface is not linked**.
-/

import W2lDriver.Lib.RefCount

set_option linter.unusedSectionVars false

namespace W2l.Chan

open Lib (users users_pos users_lt users_update)
open Function (update update_of_ne update_self)

/-! ### Contexts -/

/-- What `aml_chanctx_link` compares of a `struct cfg80211_chan_def`. -/
structure Chandef where
  band : Nat := 0
  width : Nat := 0
  centerFreq : Nat := 0
  centerFreq1 : Nat := 0
  centerFreq2 : Nat := 0
  deriving DecidableEq

/-- `struct aml_chanctx`. The channel is `NULL` or set. -/
structure Chanctx where
  chanDef : Option Chandef := none
  count : BitVec 8 := 0
  deriving DecidableEq

namespace Chanctx

/-- A context with an interface more. -/
def link (ctxt : Chanctx) (chandef : Option Chandef) : Chanctx where
  chanDef := match chandef with
    | none => ctxt.chanDef
    | some d => if ctxt.chanDef = some d then ctxt.chanDef else some d
  count := ctxt.count + 1

/-- A context with an interface less. -/
def unlink (ctxt : Chanctx) : Chanctx :=
  let count := if ctxt.count = 0 then ctxt.count else ctxt.count - 1
  { chanDef := if count = 0 then none else ctxt.chanDef
    count := count }

theorem unlink_count {ctxt : Chanctx} (positive : 0 < ctxt.count.toNat) :
    ctxt.unlink.count.toNat = ctxt.count.toNat - 1 := by
  have some : ctxt.count ≠ 0 := fun zero => by
    rw [zero] at positive
    exact absurd positive (Nat.lt_irrefl 0)
  have count : ctxt.unlink.count = ctxt.count - 1 := if_neg some
  have one : (1 : BitVec 8) ≤ ctxt.count := BitVec.le_def.mpr positive
  rw [count, BitVec.toNat_sub_of_le one]
  rfl

theorem unlink_chan (ctxt : Chanctx) (zero : ctxt.unlink.count = 0) : ctxt.unlink.chanDef = none :=
  if_pos zero

end Chanctx

def amlChNotSet : BitVec 8 := 0xff

def nxChanCtxtCnt : BitVec 8 := 3

/-- The channel contexts, with the interfaces `V`. -/
structure ChanHw (V : Type) where
  /-- `ch_index` of each interface. -/
  chIndex : V → BitVec 8 := fun _ => amlChNotSet
  chanctxTable : BitVec 8 → Chanctx := fun _ => {}
  /-- `radar.cac_vif`. -/
  cacVif : Option V := none
  /-- `radar.cac_work` is pending. -/
  cacWork : Bool := false
  monitorVif : Option V := none

variable {V : Type} [DecidableEq V]

namespace ChanHw

def chanctxLink (s : ChanHw V) (vif : V) (chIdx : BitVec 8) (chandef : Option Chandef) : ChanHw V :=
  if nxChanCtxtCnt ≤ chIdx then s
  else
    { s with
      chIndex := Function.update s.chIndex vif chIdx
      chanctxTable := Function.update s.chanctxTable chIdx ((s.chanctxTable chIdx).link chandef) }

def chanctxUnlink (s : ChanHw V) (vif : V) : ChanHw V :=
  if s.chIndex vif = amlChNotSet then s
  else
    { s with
      chIndex := Function.update s.chIndex vif amlChNotSet
      chanctxTable := Function.update s.chanctxTable (s.chIndex vif)
        (s.chanctxTable (s.chIndex vif)).unlink }

def chanctxValid (s : ChanHw V) (chIdx : BitVec 8) : Bool :=
  chIdx < nxChanCtxtCnt && (s.chanctxTable chIdx).chanDef.isSome

end ChanHw

/-! ### The counts -/

variable [Fintype V]

/-- **A context counts the interfaces linked to it**, and has no channel if there are none. -/
structure Balanced (s : ChanHw V) : Prop where
  inside : ∀ vif, s.chIndex vif = amlChNotSet ∨ s.chIndex vif < nxChanCtxtCnt
  count : ∀ i < nxChanCtxtCnt, (s.chanctxTable i).count.toNat = users s.chIndex i
  chan : ∀ i < nxChanCtxtCnt, (s.chanctxTable i).count = 0 → (s.chanctxTable i).chanDef = none

variable {s t : ChanHw V} {vif : V} {chIdx : BitVec 8} {chandef : Option Chandef}

theorem lt_ne_notSet {i : BitVec 8} (inside : i < nxChanCtxtCnt) : i ≠ amlChNotSet := by
  rintro rfl
  exact absurd inside (by decide)

theorem Balanced.congr (balanced : Balanced s) (index : t.chIndex = s.chIndex)
    (table : t.chanctxTable = s.chanctxTable) : Balanced t := by
  refine ⟨?_, ?_, ?_⟩
  · rw [index]
    exact balanced.inside
  · rw [index, table]
    exact balanced.count
  · rw [table]
    exact balanced.chan

theorem Balanced.init : Balanced ({} : ChanHw V) := by
  refine ⟨fun vif => .inl rfl, fun i inside => ?_, fun i _ _ => rfl⟩
  refine (Finset.card_eq_zero.mpr ?_).symm
  refine Finset.filter_eq_empty_iff.mpr fun vif _ same => ?_
  exact lt_ne_notSet inside same.symm

theorem Balanced.change (balanced : Balanced s) {k i : BitVec 8} {ctxt : Chanctx}
    (index : t.chIndex = update s.chIndex vif k)
    (table : t.chanctxTable = update s.chanctxTable i ctxt)
    (inside : k = amlChNotSet ∨ k < nxChanCtxtCnt)
    (count : i < nxChanCtxtCnt → ctxt.count.toNat = users (update s.chIndex vif k) i)
    (others : ∀ j < nxChanCtxtCnt, j ≠ i → users (update s.chIndex vif k) j = users s.chIndex j)
    (chan : i < nxChanCtxtCnt → ctxt.count = 0 → ctxt.chanDef = none) : Balanced t := by
  refine ⟨fun other => ?_, fun j here => ?_, fun j here => ?_⟩
  · rw [index]
    by_cases same : other = vif
    · subst same
      rw [update_self]
      exact inside
    · rw [update_of_ne same]
      exact balanced.inside other
  · rw [index, table]
    by_cases same : j = i
    · subst same
      rw [update_self]
      exact count here
    · rw [update_of_ne same, others j here same]
      exact balanced.count j here
  · rw [table]
    by_cases same : j = i
    · subst same
      rw [update_self]
      exact chan here
    · rw [update_of_ne same]
      exact balanced.chan j here

theorem Balanced.unlink (balanced : Balanced s) (vif : V) : Balanced (s.chanctxUnlink vif) := by
  unfold ChanHw.chanctxUnlink
  by_cases notSet : s.chIndex vif = amlChNotSet
  · rw [if_pos notSet]
    exact balanced
  rw [if_neg notSet]
  have here := (balanced.inside vif).resolve_left notSet
  have positive : 0 < users s.chIndex (s.chIndex vif) := users_pos vif
  have counted := balanced.count _ here
  have exchange := users_update s.chIndex vif amlChNotSet
  refine balanced.change rfl rfl (.inl rfl) (fun _ => ?_) (fun j inside other => ?_) ?_
  · have one := exchange (s.chIndex vif)
    rw [if_pos rfl, if_neg (lt_ne_notSet here).symm] at one
    rw [Chanctx.unlink_count (counted ▸ positive), counted]
    omega
  · have one := exchange j
    rwa [if_neg (fun clash => other clash.symm), if_neg (lt_ne_notSet inside).symm] at one
  · exact fun _ => Chanctx.unlink_chan _

section

variable (few : Fintype.card V < 256)

include few

theorem Balanced.link (balanced : Balanced s)
    (notSet : s.chIndex vif = amlChNotSet) (chIdx : BitVec 8) (chandef : Option Chandef) :
    Balanced (s.chanctxLink vif chIdx chandef) := by
  unfold ChanHw.chanctxLink
  by_cases outside : nxChanCtxtCnt ≤ chIdx
  · rw [if_pos outside]
    exact balanced
  rw [if_neg outside]
  have here : chIdx < nxChanCtxtCnt := BitVec.not_le.mp outside
  have room : users s.chIndex chIdx < Fintype.card V :=
    users_lt s.chIndex (notSet ▸ (lt_ne_notSet here).symm)
  have more : ((s.chanctxTable chIdx).link chandef).count.toNat = users s.chIndex chIdx + 1 := by
    show ((s.chanctxTable chIdx).count + 1).toNat = _
    rw [BitVec.toNat_add, balanced.count chIdx here]
    exact Nat.mod_eq_of_lt (by show _ + 1 < 256; omega)
  have exchange := users_update s.chIndex vif chIdx
  refine balanced.change rfl rfl (.inr here) (fun _ => ?_) (fun j inside other => ?_) fun _ zero => ?_
  · have one := exchange chIdx
    rw [notSet, if_neg (lt_ne_notSet here).symm, if_pos rfl] at one
    exact more.trans one.symm
  · have one := exchange j
    rwa [notSet, if_neg (lt_ne_notSet inside).symm, if_neg (fun clash => other clash.symm)] at one
  · rw [zero] at more
    exact absurd more (Nat.succ_ne_zero _).symm

theorem Balanced.not_link (balanced : Balanced s) (here : chIdx < nxChanCtxtCnt)
    (linked : s.chIndex vif ≠ amlChNotSet) (chandef : Option Chandef) :
    ¬ Balanced (s.chanctxLink vif chIdx chandef) := by
  intro after
  have at_ := (balanced.inside vif).resolve_left linked
  have count := after.count (s.chIndex vif) at_
  have before := balanced.count (s.chIndex vif) at_
  have exchange := users_update s.chIndex vif chIdx (s.chIndex vif)
  have all : users s.chIndex (s.chIndex vif) < 256 := (Lib.users_le s.chIndex _).trans_lt few
  unfold ChanHw.chanctxLink at count
  rw [if_neg (BitVec.not_le.mpr here)] at count
  dsimp only at count
  rw [if_pos rfl] at exchange
  by_cases same : s.chIndex vif = chIdx
  · rw [if_pos same.symm] at exchange
    rw [same, update_self] at count
    rw [same] at before exchange all
    have more : ((s.chanctxTable chIdx).link chandef).count.toNat = (users s.chIndex chIdx + 1) % 256 := by
      show ((s.chanctxTable chIdx).count + 1).toNat = _
      rw [BitVec.toNat_add, before]
      rfl
    rw [more] at count
    omega
  · rw [if_neg (fun clash => same clash.symm)] at exchange
    rw [update_of_ne same, before] at count
    omega

/-- **Linking keeps the counts exactly when the interface is not linked**, or the index is not one of a
context. -/
theorem link_balanced_iff (balanced : Balanced s) :
    Balanced (s.chanctxLink vif chIdx chandef) ↔ s.chIndex vif = amlChNotSet ∨ nxChanCtxtCnt ≤ chIdx := by
  refine ⟨fun after => ?_, ?_⟩
  · by_contra linked
    obtain ⟨set, inside⟩ := not_or.mp linked
    exact balanced.not_link few (BitVec.not_le.mp inside) set chandef after
  · rintro (notSet | outside)
    · exact balanced.link few notSet chIdx chandef
    · rw [ChanHw.chanctxLink, if_pos outside]
      exact balanced

end

end W2l.Chan
