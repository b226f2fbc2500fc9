/-
**The frames of an internal RoC, and the requests that end their waits.**

`aml_cfg80211_mgmt_tx`, `aml_cfg80211_mgmt_tx_cancel_wait` (`fullmac/aml_main.c`). A RoC that was started to send a
frame counts the frames sent in it, and has their cookies in an array of `NX_ROC_TX`, each at the count when it was
sent. When the wait for a frame is cancelled its cookie is cleared and the count goes down, so a later frame may
take the place of one that is waited for.

* `mgmtTxSent`, `mgmtTxCancelWait` — the array and the count.
* `cookieSystem` — frames with distinct cookies, and cancels of any cookie.
* `CookieRight` — **what a step should do**: the count is the number of the frames that are waited for, a cancel of
  another cookie changes nothing, and the RoC is cancelled when the last wait is.
* `Placed` — when it does: a cookie that is cancelled is one of those waited for, or the array has all of them, and
  the count fits an `int`.
-/

import Mathlib.Data.Fintype.Card
import W2lDriver.Lib.System

namespace W2l.Roc

open Lib

/-! ### The code -/

abbrev nxRocTx : ℕ := 5

/-- The value an `int` takes. -/
def toInt (n : Int) : Int := n.bmod (2 ^ 32)

theorem toInt_of_lt {n : Int} (low : -2 ^ 31 ≤ n) (high : n < 2 ^ 31) : toInt n = n := by
  unfold toInt
  rw [Int.bmod_eq_of_le]
  · omega
  · omega

/-- The part of `struct aml_roc` for its frames. -/
structure RocTx where
  internal : Bool
  txCnt : Int := 0
  txCookie : Fin nxRocTx → BitVec 64 := fun _ => 0

namespace RocTx

variable (roc : RocTx) (cookie : BitVec 64)

/-- What `aml_cfg80211_mgmt_tx` does behind a frame. -/
def mgmtTxSent : RocTx :=
  { roc with
    txCookie := fun i => if (i : Int) = roc.txCnt then cookie else roc.txCookie i
    txCnt := toInt (roc.txCnt + 1) }

def entry : Option (Fin nxRocTx) :=
  (List.finRange nxRocTx).find? fun i => decide (roc.txCookie i ≠ 0) && decide (roc.txCookie i = cookie)

/-- `nb_tx_cookie` behind a loop that finds none. -/
def nbTxCookie : ℕ := (Finset.univ.filter fun i => roc.txCookie i ≠ 0).card

/-- `aml_cfg80211_mgmt_tx_cancel_wait`, and whether it calls `aml_cfg80211_cancel_remain_on_channel`. -/
def mgmtTxCancelWait : RocTx × Bool :=
  if roc.txCnt = 0 then (roc, false)
  else
    match roc.entry cookie with
    | some i =>
      let roc := { roc with txCookie := Function.update roc.txCookie i 0, txCnt := toInt (roc.txCnt - 1) }
      (roc, roc.internal && decide (roc.txCnt ≤ 0))
    | none =>
      -- a frame behind the first `NX_ROC_TX` may be meant
      if (roc.nbTxCookie : Int) ≠ roc.txCnt then
        let roc := { roc with txCnt := toInt (roc.txCnt - 1) }
        (roc, roc.internal && decide (roc.txCnt ≤ 0))
      else (roc, false)

end RocTx

/-- The RoC; how often it was cancelled; the cookies of its frames, and those whose waits were not cancelled. -/
structure CookieHw where
  roc : RocTx
  cancels : ℕ := 0
  sent : List (BitVec 64) := []
  waiting : List (BitVec 64) := []

/-- A frame, and the end of a wait. -/
inductive CookieAct
  | mgmtTx (cookie : BitVec 64)
  | cancelWait (cookie : BitVec 64)

namespace CookieHw

variable (s : CookieHw)

/-- A frame is sent; its cookie is the address of its socket buffer. -/
def mgmtTx (cookie : BitVec 64) : CookieHw :=
  { s with
    roc := s.roc.mgmtTxSent cookie
    sent := cookie :: s.sent
    waiting := cookie :: s.waiting }

def cancelWait (cookie : BitVec 64) : CookieHw :=
  { s with
    roc := (s.roc.mgmtTxCancelWait cookie).1
    cancels := if (s.roc.mgmtTxCancelWait cookie).2 then s.cancels + 1 else s.cancels
    waiting := s.waiting.erase cookie }

end CookieHw

/-- The runs within one internal RoC. -/
def cookieSystem : System CookieHw CookieAct where
  init := { roc := { internal := true } }
  step s
    | .mgmtTx cookie => if cookie ≠ 0 ∧ cookie ∉ s.sent then some (s.mgmtTx cookie) else none
    | .cancelWait cookie => some (s.cancelWait cookie)

/-! ### The property -/

def EndsLast (s : CookieHw) : CookieAct → Prop
  | .mgmtTx _ => False
  | .cancelWait cookie => s.waiting = [cookie]

instance (s : CookieHw) : ∀ a, Decidable (EndsLast s a)
  | .mgmtTx _ => .isFalse id
  | .cancelWait cookie => inferInstanceAs (Decidable (s.waiting = [cookie]))

/-- **What a step should do.** -/
structure CookieRight (s : CookieHw) (a : CookieAct) (t : CookieHw) : Prop where
  count : t.roc.txCnt = t.waiting.length
  other : ∀ cookie, a = .cancelWait cookie → cookie ∉ s.waiting → t.roc = s.roc
  cancels : t.cancels = s.cancels + if EndsLast s a then 1 else 0

/-- A cookie that is cancelled is one of those waited for, or the array has all of them; the count is an `int`. -/
def Placed (s : CookieHw) : CookieAct → Prop
  | .mgmtTx _ => s.waiting.length + 1 < 2 ^ 31
  | .cancelWait cookie => cookie ∈ s.waiting ∨ s.roc.nbTxCookie = s.waiting.length

instance (s : CookieHw) : ∀ a, Decidable (Placed s a)
  | .mgmtTx _ => inferInstanceAs (Decidable (s.waiting.length + 1 < 2 ^ 31))
  | .cancelWait cookie => inferInstanceAs (Decidable (cookie ∈ s.waiting ∨ s.roc.nbTxCookie = s.waiting.length))

/-! ### The invariant -/

/-- **The count and the array.** -/
structure CookieInv (s : CookieHw) : Prop where
  internal : s.roc.internal = true
  count : s.roc.txCnt = s.waiting.length
  fits : s.waiting.length < 2 ^ 31
  nodup : s.waiting.Nodup
  known : ∀ cookie ∈ s.waiting, cookie ∈ s.sent
  real : 0 ∉ s.sent
  entries : ∀ i, s.roc.txCookie i ≠ 0 → s.roc.txCookie i ∈ s.waiting
  once : ∀ i j, s.roc.txCookie i ≠ 0 → s.roc.txCookie i = s.roc.txCookie j → i = j

section Step

variable {s : CookieHw} {cookie : BitVec 64}

theorem entry_some {roc : RocTx} {i : Fin nxRocTx} (found : roc.entry cookie = some i) :
    roc.txCookie i ≠ 0 ∧ roc.txCookie i = cookie := by
  have both := List.find?_some found
  rw [Bool.and_eq_true, decide_eq_true_iff, decide_eq_true_iff] at both
  exact both

theorem entry_none {roc : RocTx} (absent : roc.entry cookie = none) (i : Fin nxRocTx) (some : roc.txCookie i ≠ 0) :
    roc.txCookie i ≠ cookie := by
  intro same
  refine List.find?_eq_none.mp absent i (List.mem_finRange i) ?_
  rw [decide_eq_true some, decide_eq_true same]
  rfl

namespace CookieInv

section

variable (inv : CookieInv s)

include inv

theorem nbTxCookie_le {list : List (BitVec 64)}
    (entries : ∀ i, s.roc.txCookie i ≠ 0 → s.roc.txCookie i ∈ list) : s.roc.nbTxCookie ≤ list.length := by
  have inside : (Finset.univ.filter fun i => s.roc.txCookie i ≠ 0).image s.roc.txCookie ⊆ list.toFinset := by
    intro c member
    obtain ⟨i, some, rfl⟩ := Finset.mem_image.mp member
    exact List.mem_toFinset.mpr (entries i (Finset.mem_filter.mp some).2)
  calc s.roc.nbTxCookie
      = ((Finset.univ.filter fun i => s.roc.txCookie i ≠ 0).image s.roc.txCookie).card := by
        refine (Finset.card_image_of_injOn fun i some j _ same => ?_).symm
        exact inv.once i j (Finset.mem_filter.mp some).2 same
    _ ≤ list.toFinset.card := Finset.card_le_card inside
    _ ≤ list.length := list.toFinset_card_le

theorem missing (member : cookie ∈ s.waiting) (absent : s.roc.entry cookie = none) :
    s.roc.nbTxCookie < s.waiting.length := by
  have others : s.roc.nbTxCookie ≤ (s.waiting.erase cookie).length := by
    refine inv.nbTxCookie_le fun i some => ?_
    exact (List.mem_erase_of_ne (entry_none absent i some)).mpr (inv.entries i some)
  rw [List.length_erase_of_mem member] at others
  have := List.length_pos_of_mem member
  omega

theorem cancel_mem (member : cookie ∈ s.waiting) : (s.roc.mgmtTxCancelWait cookie).1.txCnt = s.roc.txCnt - 1 ∧
      (s.roc.mgmtTxCancelWait cookie).1.internal = s.roc.internal ∧
      ((s.roc.mgmtTxCancelWait cookie).1.txCookie = s.roc.txCookie ∧ s.roc.entry cookie = none ∨
        ∃ i, s.roc.txCookie i = cookie ∧
          (s.roc.mgmtTxCancelWait cookie).1.txCookie = Function.update s.roc.txCookie i 0) ∧
      (s.roc.mgmtTxCancelWait cookie).2 = decide (s.roc.txCnt - 1 ≤ 0) := by
  have some_ : s.roc.txCnt ≠ 0 := by
    rw [inv.count]
    have := List.length_pos_of_mem member
    omega
  have less : toInt (s.roc.txCnt - 1) = s.roc.txCnt - 1 := by
    have := inv.count
    have := inv.fits
    exact toInt_of_lt (by omega) (by omega)
  unfold RocTx.mgmtTxCancelWait
  rw [if_neg some_]
  split
  case h_1 i found =>
    dsimp only
    rw [less, inv.internal]
    exact ⟨rfl, rfl, .inr ⟨i, (entry_some found).2, rfl⟩, Bool.true_and _⟩
  case h_2 absent =>
    have fewer := inv.missing member absent
    rw [if_pos (by rw [inv.count]; omega)]
    dsimp only
    rw [less, inv.internal]
    exact ⟨rfl, rfl, .inl ⟨rfl, absent⟩, Bool.true_and _⟩

theorem cancel_other (other : cookie ∉ s.waiting) : s.roc.mgmtTxCancelWait cookie =
    if s.roc.nbTxCookie = s.waiting.length then (s.roc, false)
    else ({ s.roc with txCnt := s.roc.txCnt - 1 }, s.roc.internal && decide (s.roc.txCnt - 1 ≤ 0)) := by
  have few := inv.nbTxCookie_le inv.entries
  have absent : s.roc.entry cookie = none := by
    cases found : s.roc.entry cookie with
    | none => rfl
    | some i =>
      obtain ⟨some, same⟩ := entry_some found
      exact absurd (same ▸ inv.entries i some) other
  unfold RocTx.mgmtTxCancelWait
  rw [absent]
  dsimp only
  rw [inv.count]
  by_cases all : s.roc.nbTxCookie = s.waiting.length
  · rw [if_pos all, if_neg (not_not_intro (congrArg Nat.cast all)), ite_self]
  · have some : (s.waiting.length : Int) ≠ 0 := by omega
    have := inv.fits
    rw [if_neg all, if_neg some, if_pos (by omega), toInt_of_lt (by omega) (by omega)]

theorem mgmtTx_count (room : s.waiting.length + 1 < 2 ^ 31) :
    (s.mgmtTx cookie).roc.txCnt = (s.mgmtTx cookie).waiting.length := by
  show toInt (s.roc.txCnt + 1) = ((cookie :: s.waiting).length : Int)
  have := inv.count
  rw [toInt_of_lt (by omega) (by omega), inv.count, List.length_cons]
  omega

theorem mgmtTx (real : cookie ≠ 0) (fresh : cookie ∉ s.sent)
    (room : s.waiting.length + 1 < 2 ^ 31) : CookieInv (s.mgmtTx cookie) := by
  have unseen : ∀ i, s.roc.txCookie i ≠ cookie := fun i same =>
    fresh (inv.known _ (same ▸ inv.entries i (same ▸ real)))
  refine ⟨inv.internal, inv.mgmtTx_count room, room, ?_, ?_, ?_, fun i some => ?_, fun i j some same => ?_⟩
  · exact List.nodup_cons.mpr ⟨fun member => fresh (inv.known _ member), inv.nodup⟩
  · intro c member
    rcases List.mem_cons.mp member with rfl | before
    · exact List.mem_cons_self
    · exact List.mem_cons_of_mem _ (inv.known c before)
  · intro zero
    rcases List.mem_cons.mp zero with now | before
    · exact real now.symm
    · exact inv.real before
  · change (if _ then _ else _) ≠ _ at some
    show (if _ then _ else _) ∈ _
    split at some
    case isTrue here =>
      rw [if_pos here]
      exact List.mem_cons_self
    case isFalse there =>
      rw [if_neg there]
      exact List.mem_cons_of_mem _ (inv.entries i some)
  · change (if _ then _ else _) ≠ _ at some
    change (if _ then _ else _) = (if _ then _ else _) at same
    split at some
    case isTrue here =>
      rw [if_pos here] at same
      split at same
      case isTrue here' => exact Fin.ext (by omega)
      case isFalse => exact absurd same.symm (unseen j)
    case isFalse there =>
      rw [if_neg there] at same
      split at same
      case isTrue => exact absurd same (unseen i)
      case isFalse => exact inv.once i j some same

theorem cancelWait_mem (member : cookie ∈ s.waiting) : CookieInv (s.cancelWait cookie) := by
  obtain ⟨count, internal, array, -⟩ := inv.cancel_mem member
  have left : ∀ i, (s.cancelWait cookie).roc.txCookie i ≠ 0 →
      s.roc.txCookie i ≠ cookie ∧ (s.cancelWait cookie).roc.txCookie i = s.roc.txCookie i := by
    intro i some
    change (s.roc.mgmtTxCancelWait cookie).1.txCookie i ≠ 0 at some
    show _ ∧ (s.roc.mgmtTxCancelWait cookie).1.txCookie i = _
    rcases array with ⟨same, absent⟩ | ⟨k, here, cleared⟩
    · rw [same] at some ⊢
      exact ⟨entry_none absent i some, rfl⟩
    · rw [cleared] at some ⊢
      rcases eq_or_ne i k with rfl | other
      · exact absurd (Function.update_self ..) some
      · rw [Function.update_of_ne other] at some ⊢
        exact ⟨fun same => other (inv.once i k some (same.trans here.symm)), rfl⟩
  refine ⟨internal.trans inv.internal, ?_, lt_of_le_of_lt List.length_erase_le inv.fits, inv.nodup.erase cookie,
    fun c later => inv.known c (List.mem_of_mem_erase later), inv.real, fun i some => ?_, fun i j some same => ?_⟩
  · show (s.roc.mgmtTxCancelWait cookie).1.txCnt = ((s.waiting.erase cookie).length : Int)
    rw [count, inv.count, List.length_erase_of_mem member]
    have := List.length_pos_of_mem member
    omega
  · obtain ⟨other, same⟩ := left i some
    rw [same] at some ⊢
    exact (List.mem_erase_of_ne other).mpr (inv.entries i some)
  · obtain ⟨-, first⟩ := left i some
    obtain ⟨-, second⟩ := left j (same ▸ some)
    rw [first] at some same
    exact inv.once i j some (same.trans second)

theorem cancelWait_other (other : cookie ∉ s.waiting)
    (all : s.roc.nbTxCookie = s.waiting.length) : s.cancelWait cookie = s := by
  unfold CookieHw.cancelWait
  rw [inv.cancel_other other, if_pos all, List.erase_of_not_mem other]
  rfl

theorem step {a : CookieAct} {t : CookieHw} (placed : Placed s a)
    (taken : cookieSystem.step s a = some t) : CookieInv t := by
  cases a with
  | mgmtTx cookie =>
    obtain ⟨⟨real, fresh⟩, same⟩ := Option.ite_none_right_eq_some.mp taken
    obtain rfl := Option.some.inj same
    exact inv.mgmtTx real fresh placed
  | cancelWait cookie =>
    obtain rfl := Option.some.inj taken
    by_cases member : cookie ∈ s.waiting
    · exact inv.cancelWait_mem member
    · rw [inv.cancelWait_other member (placed.resolve_left member)]
      exact inv

theorem right_mgmtTx : CookieRight s (.mgmtTx cookie) (s.mgmtTx cookie) ↔ s.waiting.length + 1 < 2 ^ 31 := by
  constructor
  · intro right
    by_contra full
    have count : toInt (s.roc.txCnt + 1) = ((cookie :: s.waiting).length : Int) := right.count
    have := inv.fits
    have most : s.waiting.length = 2147483647 := by omega
    rw [inv.count, List.length_cons, most] at count
    exact absurd count (by decide)
  · intro room
    exact ⟨inv.mgmtTx_count room, fun _ same => (nomatch same), rfl⟩

theorem right_mem (member : cookie ∈ s.waiting) : CookieRight s (.cancelWait cookie) (s.cancelWait cookie) := by
  obtain ⟨-, -, -, ends⟩ := inv.cancel_mem member
  refine ⟨(inv.cancelWait_mem member).count, fun c same other => ?_, ?_⟩
  · obtain rfl := CookieAct.cancelWait.inj same
    exact absurd member other
  · show (if (s.roc.mgmtTxCancelWait cookie).2 then s.cancels + 1 else s.cancels) = _
    rw [ends, inv.count]
    by_cases last : s.waiting = [cookie]
    · rw [if_pos (show EndsLast s (.cancelWait cookie) from last), last]
      rfl
    · have more : ¬ (s.waiting.length : Int) - 1 ≤ 0 := by
        intro few
        obtain ⟨c, alone⟩ := List.length_eq_one_iff.mp
          (show s.waiting.length = 1 by have := List.length_pos_of_mem member; omega)
        rw [alone] at member last
        exact last (congrArg (fun c => [c]) (List.mem_singleton.mp member).symm)
      rw [if_neg (show ¬ EndsLast s (.cancelWait cookie) from last), decide_eq_false more]
      rfl

theorem right_other (other : cookie ∉ s.waiting) :
    CookieRight s (.cancelWait cookie) (s.cancelWait cookie) ↔ s.roc.nbTxCookie = s.waiting.length := by
  constructor
  · intro right
    by_contra some
    have same := congrArg RocTx.txCnt (right.other cookie rfl other)
    change (s.roc.mgmtTxCancelWait cookie).1.txCnt = s.roc.txCnt at same
    rw [inv.cancel_other other, if_neg some] at same
    change s.roc.txCnt - 1 = s.roc.txCnt at same
    omega
  · intro all
    rw [inv.cancelWait_other other all]
    refine ⟨inv.count, fun _ _ _ => rfl, ?_⟩
    have none : ¬ EndsLast s (.cancelWait cookie) := by
      intro last
      refine other ?_
      rw [show s.waiting = [cookie] from last]
      exact List.mem_cons_self
    rw [if_neg none, Nat.add_zero]

theorem right_iff {a : CookieAct} {t : CookieHw} (taken : cookieSystem.step s a = some t) :
    CookieRight s a t ↔ Placed s a := by
  cases a with
  | mgmtTx cookie =>
    obtain ⟨-, same⟩ := Option.ite_none_right_eq_some.mp taken
    obtain rfl := Option.some.inj same
    exact inv.right_mgmtTx
  | cancelWait cookie =>
    obtain rfl := Option.some.inj taken
    by_cases member : cookie ∈ s.waiting
    · exact iff_of_true (inv.right_mem member) (.inl member)
    · rw [inv.right_other member]
      exact ⟨.inr, fun placed => placed.resolve_left member⟩

end

end CookieInv

end Step

theorem cookieInv_init : CookieInv cookieSystem.init where
  internal := rfl
  count := rfl
  fits := by decide
  nodup := List.nodup_nil
  known _ member := (List.not_mem_nil member).elim
  real := List.not_mem_nil
  entries _ some := absurd rfl some
  once _ _ some := absurd rfl some

/-! ### The runs -/

/-- **The frames of an internal RoC.** In every run of placed steps the count is the number of the frames that are
waited for, and the next step does what it should if and only if it is placed. -/
theorem cookies_right (s : CookieHw) (reach : cookieSystem.Reachable Placed s) : s.roc.txCnt = s.waiting.length ∧
      ∀ a t, cookieSystem.step s a = some t → (CookieRight s a t ↔ Placed s a) := by
  have inv : CookieInv s :=
    reach.invariant cookieInv_init fun _ _ _ _ inv placed taken => CookieInv.step inv placed taken
  exact ⟨inv.count, fun _ _ taken => inv.right_iff taken⟩

def sixFrames : List CookieAct :=
  [.mgmtTx 1, .mgmtTx 2, .mgmtTx 3, .mgmtTx 4, .mgmtTx 5, .mgmtTx 6, .cancelWait 6, .cancelWait 9, .cancelWait 1,
    .cancelWait 2, .cancelWait 3, .cancelWait 4, .cancelWait 5]

theorem cookies_right_six : ∃ s, s.cancels = 1 ∧ s.sent.length = 6 ∧ s.roc.txCnt = s.waiting.length ∧
    ∀ a t, cookieSystem.step s a = some t → (CookieRight s a t ↔ Placed s a) := by
  have ran : (System.run cookieSystem Placed cookieSystem.init sixFrames).isSome = true := by decide +kernel
  refine ⟨(System.run cookieSystem Placed cookieSystem.init sixFrames).get ran, ?_, ?_, ?_⟩
  · decide +kernel +revert
  · decide +kernel +revert
  · exact cookies_right _ (System.reachable_of_run cookieSystem Placed sixFrames ran)

/-- Two frames, the first of them cancelled: the third takes the place of the second, and the cookie of a cancelled
frame ends its wait. -/
theorem slot_taken : ¬∀ s, cookieSystem.Reachable (fun _ _ => True) s →
    ∀ a t, cookieSystem.step s a = some t → CookieRight s a t := by
  intro right
  have ran : (System.run cookieSystem (fun _ _ => True) cookieSystem.init
      [.mgmtTx 1, .mgmtTx 2, .cancelWait 1, .mgmtTx 3]).isSome = true := by decide +kernel
  have reach := System.reachable_of_run cookieSystem (fun _ _ => True) _ ran
  have count := (right _ reach (.cancelWait 1) _ rfl).count
  revert count
  clear reach
  decide +kernel +revert

end W2l.Roc
