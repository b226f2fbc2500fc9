/-
**The walkers of P2P action frames on well-formed frames.**

A frame as `P2pFrame` builds it is walked to the attribute looked for, where the first element with the
organisation of P2P is the P2P element and the walk does not leave it without the attribute.

* `P2pFrame.attr?` — the attribute of the P2P element.
* `Exact` — **5 GHz is recorded if and only if the channel list has such a channel, and only the attribute
  looked for is changed**.
* `Reached` — the last entry of the list makes no difference, and the intent is there.
-/

import W2lDriver.P2p.Chanlist
import W2lDriver.P2p.Walkers

namespace W2l.P2p

open Lib (Byte)
open List (append_assoc drop_left flatMap_cons length_append length_cons)
open Option (bind_none bind_some some.inj some_ne_none)

/-! ### The property -/

def Ie.attrs? : Ie → Option (List Attr)
  | .p2p attrs _ => some attrs
  | .other _ _ _ _ _ => none

namespace P2pFrame

variable (f : P2pFrame)

def attr? (attr : Byte) : Option Attr :=
  (f.ies.findSome? Ie.attrs?).bind fun attrs => attrs.find? fun a => a.id = attr

def InAttr (attr : Byte) (k : ℕ) : Prop :=
  ∃ pre before a after short post, f.ies = pre ++ .p2p (before ++ a :: after) short :: post ∧
    pre.findSome? Ie.attrs? = none ∧ (∀ x ∈ before, x.id ≠ attr) ∧ a.id = attr ∧
    32 + (iesBytes pre).length + 6 + (attrsBytes before).length ≤ k ∧
    k < 32 + (iesBytes pre).length + 6 + (attrsBytes before).length + a.bytes.length

def OnlyIn (attr : Byte) (b : List Byte) : Prop :=
  b.length = f.bytes.length ∧ ∀ k, ¬f.InAttr attr k → b[k]? = f.bytes[k]?

/-- The operating channel and the intent have the length they are to have. -/
def Shaped : Prop :=
  (∀ a, f.attr? attrOperatingChannel = some a → a.body.length = 5) ∧
    ∀ a, f.attr? attrGroupOwnerIntent = some a → a.body.length = 1

/-- No element has the organisation of P2P; or the first one is the P2P element, and it has the attribute or
ends the frame. -/
def Straight (attr : Byte) : Prop :=
  (∀ ie ∈ f.ies, ie.wfa = false) ∨ ∃ pre attrs short post, f.ies = pre ++ .p2p attrs short :: post ∧
    (∀ ie ∈ pre, ie.wfa = false) ∧ ((∃ a ∈ attrs, a.id = attr) ∨ post = [])

end P2pFrame

def Has5g (es : List ChanEntry) : Prop := ∃ e ∈ es, ∃ chan ∈ e.chans, 36 ≤ chan

instance (es : List ChanEntry) : Decidable (Has5g es) :=
  inferInstanceAs (Decidable (∃ e ∈ es, ∃ chan ∈ e.chans, 36 ≤ chan))

/-- **5 GHz is recorded as the channel list has it, and only the attribute looked for is changed.** -/
structure Exact (toBand : Byte → Option Nl80211Band) (f : P2pFrame) : Prop where
  records : rxParseP2pChanList f.bytes = some (some true) ↔
    ∃ country es three, f.attr? attrChannelList = some (.chanList country es three) ∧ Has5g es
  operchan : ∀ new, ∃ b, changeP2pOperchan toBand new f.bytes = some b ∧ f.OnlyIn attrOperatingChannel b
  intent : ∃ b, changeP2pIntent f.bytes = some b ∧ f.OnlyIn attrGroupOwnerIntent b

/-- The entries that are looked at have a channel of 5 GHz if there is one, and a frame with a P2P element has
the intent. -/
def Reached (f : P2pFrame) : Prop :=
  (∀ country es three, f.attr? attrChannelList = some (.chanList country es three) → Has5g es → Has5g (visited es)) ∧
    (f.ies.findSome? Ie.attrs? ≠ none → f.attr? attrGroupOwnerIntent ≠ none)

/-! ### The walk over elements -/

section Elements

variable {b : List Byte} {o rounds : ℕ} {t : List Byte}

theorem ieWalk_ie {ie : Ie} (here : b.drop o = ie.bytes ++ t) : ieWalk b (rounds + 1) o =
    (vendorAt b o ie.id).bind fun found => if found then some o else ieWalk b rounds (o + ie.bytes.length) := by
  have cons : b.drop o = ie.id :: BitVec.ofNat 8 ie.body.length :: (ie.body ++ t) := here
  rw [ieWalk, if_pos ((inside_iff cons).mpr (List.cons_ne_nil _ _)), get_here cons, get_drop cons 1]
  show ((vendorAt b o ie.id).bind fun found => if found then some o
    else ieWalk b rounds (o + (BitVec.ofNat 8 ie.body.length).toNat + 2)) = _
  rw [toNat_byte ie.body_short, Nat.add_assoc, length_ieBytes]

theorem vendorAt_ie {ie : Ie} (here : b.drop o = ie.bytes ++ t) : vendorAt b o ie.id = some ie.wfa := by
  have behind : b.drop (o + 2) = ie.body ++ t := drop_next here 2
  unfold vendorAt Ie.wfa
  by_cases vendor : ie.id = attrVendorSpecific
  swap
  · rw [if_neg vendor, decide_eq_false vendor, Bool.false_and]
  have long := three_le_body vendor
  have front : (ie.body ++ t).take 3 = ie.body.take 3 := List.take_append_of_le_length long
  have three : wfaOui <+: ie.body ++ t ↔ ie.body.take 3 = wfaOui := by
    rw [List.prefix_iff_eq_take, ← front]
    exact eq_comm
  rw [if_pos vendor, decide_eq_true vendor, Bool.true_and]
  rcases bytesAt_cases wfaOui behind with ⟨pre, eq⟩ | ⟨no, eq⟩ | ⟨⟨short, -⟩, -⟩
  · rw [eq, decide_eq_true (three.mp pre)]
  · rw [eq, decide_eq_false]
    intro same
    refine no ?_
    show (ie.body ++ t).take 3 <+: wfaOui
    exact ⟨[], (List.append_nil _).trans (front.trans same)⟩
  · have short : (ie.body ++ t).length < 3 := short
    rw [length_append] at short
    omega

theorem ieWalk_others {pre : List Ie} (others : ∀ ie ∈ pre, ie.wfa = false)
    (here : b.drop o = iesBytes pre ++ t) (enough : pre.length ≤ rounds) :
    ieWalk b rounds o = ieWalk b (rounds - pre.length) (o + (iesBytes pre).length) := by
  induction pre generalizing o rounds with
  | nil => rfl
  | cons ie pre ih =>
    obtain ⟨rounds, rfl⟩ : ∃ n, rounds = n + 1 := ⟨rounds - 1, by rw [length_cons] at enough; omega⟩
    have whole : iesBytes (ie :: pre) = ie.bytes ++ iesBytes pre := flatMap_cons
    rw [whole, append_assoc] at here
    have next : b.drop (o + ie.bytes.length) = iesBytes pre ++ t := by
      rw [drop_next here, drop_left]
    rw [ieWalk_ie here, vendorAt_ie here, others ie List.mem_cons_self, bind_some,
      if_neg Bool.false_ne_true, ih (fun ie' member => others ie' (List.mem_cons_of_mem ie member)) next
        (Nat.le_of_succ_le_succ enough), whole, length_append, length_cons,
      Nat.add_sub_add_right, Nat.add_assoc]

theorem wfa_p2p (attrs : List Attr) (short : 4 + (attrsBytes attrs).length < 256) :
    (Ie.p2p attrs short).wfa = true := rfl

theorem attrs?_others {pre : List Ie} (others : ∀ ie ∈ pre, ie.wfa = false) : pre.findSome? Ie.attrs? = none := by
  rw [List.findSome?_eq_none_iff]
  intro ie member
  cases ie with
  | p2p attrs short => nomatch (wfa_p2p attrs short).symm.trans (others _ member)
  | other id body short vendor notP2p => rfl

variable {f : P2pFrame} {pre post : List Ie} {attrs : List Attr}
  {short : 4 + (attrsBytes attrs).length < 256}

theorem drop_ies (f : P2pFrame) : f.bytes.drop 32 = iesBytes f.ies := by
  unfold P2pFrame.bytes
  rw [← f.headerLength, drop_left]

theorem getP2pIeOffset_none (others : ∀ ie ∈ f.ies, ie.wfa = false) : getP2pIeOffset f.bytes = some 0 := by
  have few := length_le_iesBytes f.ies
  have length := length_frame f
  have here : f.bytes.drop 32 = iesBytes f.ies ++ [] := by rw [drop_ies, List.append_nil]
  unfold getP2pIeOffset
  rw [ieWalk_others others here (by omega), ← length]
  obtain ⟨rounds, positive⟩ : ∃ rounds, f.bytes.length + 1 - f.ies.length = rounds + 1 :=
    ⟨f.bytes.length - f.ies.length, by omega⟩
  rw [positive, ieWalk, if_neg (Nat.lt_irrefl _)]

section

variable (whole : f.ies = pre ++ .p2p attrs short :: post)

include whole

theorem drop_p2p : f.bytes.drop (32 + (iesBytes pre).length) = (Ie.p2p attrs short).bytes ++ iesBytes post := by
  have split : iesBytes f.ies = iesBytes pre ++ ((Ie.p2p attrs short).bytes ++ iesBytes post) := by
    rw [whole, iesBytes, List.flatMap_append, flatMap_cons]
    rfl
  rw [← List.drop_drop, drop_ies, split, drop_left]

theorem getP2pIeOffset_p2p
    (others : ∀ ie ∈ pre, ie.wfa = false) :
    getP2pIeOffset f.bytes = some (32 + (iesBytes pre).length) := by
  have few := length_le_iesBytes pre
  have here := drop_p2p whole
  have start : f.bytes.drop 32 = iesBytes pre ++ ((Ie.p2p attrs short).bytes ++ iesBytes post) := by
    rw [drop_ies, whole, iesBytes, List.flatMap_append, flatMap_cons]
    rfl
  have long := congrArg List.length start
  rw [List.length_drop, length_append] at long
  unfold getP2pIeOffset
  rw [ieWalk_others others start (by omega)]
  obtain ⟨rounds, positive⟩ : ∃ rounds, f.bytes.length + 1 - pre.length = rounds + 1 :=
    ⟨f.bytes.length - pre.length, by omega⟩
  rw [positive, ieWalk_ie here, vendorAt_ie here, wfa_p2p, bind_some, if_pos rfl]

theorem drop_attrs : f.bytes.drop (32 + (iesBytes pre).length + 6) = attrsBytes attrs ++ iesBytes post :=
  drop_next (drop_p2p whole) 6

end

end Elements

/-! ### The walk over attributes -/

section Attributes

variable {b : List Byte} {o rounds : ℕ} {t : List Byte} {attr : Byte}

theorem attrLen_le16 {n : ℕ} (short : n < 65536) : attrLen (BitVec.ofNat 8 n) (BitVec.ofNat 8 (n / 256)) = n := by
  unfold attrLen
  rw [BitVec.toNat_append, BitVec.toNat_ofNat, BitVec.toNat_ofNat,
    ← Nat.shiftLeft_add_eq_or_of_lt (Nat.mod_lt _ (by decide)), Nat.shiftLeft_eq]
  omega

theorem attrWalk_attr {a : Attr} (here : b.drop o = a.bytes ++ t) (short : a.body.length < 65536) :
    attrWalk b attr (rounds + 1) o =
      if a.id = attr then some (o, true) else attrWalk b attr rounds (o + a.bytes.length) := by
  have cons : b.drop o = a.id :: BitVec.ofNat 8 a.body.length :: BitVec.ofNat 8 (a.body.length / 256) ::
      (a.body ++ t) := here
  rw [attrWalk, if_pos ((inside_iff cons).mpr (List.cons_ne_nil _ _)), get_here cons, get_drop cons 1,
    get_drop cons 2]
  show (if a.id = attr then some (o, true) else attrWalk b attr rounds (o + attrLen _ _ + 3)) = _
  rw [attrLen_le16 short, length_attrBytes, Nat.add_assoc]

theorem attrWalk_others {before : List Attr} (others : ∀ a ∈ before, a.id ≠ attr)
    (here : b.drop o = attrsBytes before ++ t) (short : (attrsBytes before).length < 65536)
    (enough : before.length ≤ rounds) :
    attrWalk b attr rounds o = attrWalk b attr (rounds - before.length) (o + (attrsBytes before).length) := by
  induction before generalizing o rounds with
  | nil => rfl
  | cons a before ih =>
    obtain ⟨rounds, rfl⟩ : ∃ n, rounds = n + 1 := ⟨rounds - 1, by rw [length_cons] at enough; omega⟩
    have whole : attrsBytes (a :: before) = a.bytes ++ attrsBytes before := flatMap_cons
    have size := length_attrBytes a
    rw [whole, length_append] at short
    rw [whole, append_assoc] at here
    have next : b.drop (o + a.bytes.length) = attrsBytes before ++ t := by
      rw [drop_next here, drop_left]
    rw [attrWalk_attr here (by omega), if_neg (others a List.mem_cons_self),
      ih (fun a' member => others a' (List.mem_cons_of_mem a member)) next (by omega)
        (Nat.le_of_succ_le_succ enough), whole, length_append, length_cons,
      Nat.add_sub_add_right, Nat.add_assoc]

end Attributes

/-! ### The walk over entries -/

section Entries

variable {b : List Byte} {o rounds : ℕ} {t : List Byte}

theorem entryWalk_entries {es : List ChanEntry} {chanListIeLen idx : ℕ}
    (here : b.drop (o + idx) = entriesBytes es ++ t) (upTo : idx + (entriesBytes es).length = chanListIeLen + 3)
    (short : (entriesBytes es).length < 257) (some' : 0 < rounds) (enough : chanListIeLen < idx + rounds) :
    entryWalk b o chanListIeLen rounds idx = some (decide (Has5g (visited es))) := by
  induction es generalizing idx rounds with
  | nil =>
    obtain ⟨rounds, rfl⟩ : ∃ n, rounds = n + 1 := ⟨rounds - 1, by omega⟩
    rw [show (entriesBytes []).length = 0 from rfl] at upTo
    rw [entryWalk, if_neg (by omega), decide_eq_false]
    rintro ⟨e, member, _⟩
    exact List.not_mem_nil member
  | cons e es ih =>
    obtain ⟨rounds, rfl⟩ : ∃ n, rounds = n + 1 := ⟨rounds - 1, by omega⟩
    have size : (entriesBytes (e :: es)).length = e.bytes.length + (entriesBytes es).length :=
      length_append
    have two := e.length_bytes
    rw [entryWalk]
    unfold visited
    by_cases few : (entriesBytes (e :: es)).length ≤ 3
    · rw [if_neg (by omega), if_pos few, decide_eq_false]
      rintro ⟨e, member, _⟩
      exact List.not_mem_nil member
    have cons : b.drop (o + idx) = e.operClass :: BitVec.ofNat 8 e.chans.length ::
        (e.chans ++ (entriesBytes es ++ t)) := by
      rw [here, ← append_assoc]
      rfl
    have number := toNat_byte e.short
    have notFull : BitVec.ofNat 8 e.chans.length ≠ 255 := by
      intro full
      have width : e.chans.length = 255 := by rw [← number, full]; rfl
      omega
    have chans : (e.chans ++ (entriesBytes es ++ t)).take e.chans.length = e.chans := List.take_left
    have next : b.drop (o + (idx + e.chans.length + 2)) = entriesBytes es ++ t := by
      rw [show o + (idx + e.chans.length + 2) = o + idx + 2 + e.chans.length by omega, ← List.drop_drop,
        drop_next cons 2]
      exact drop_left
    rw [if_pos (by omega), if_neg few, get_here cons, get_drop cons 1]
    show ((chanLoop b (o + idx) _ 257 1).bind fun high => _) = _
    rw [chanLoop_eq cons, number, chans]
    by_cases high : ∃ x ∈ e.chans, 36 ≤ x
    · rw [if_pos high, bind_some, if_pos rfl, decide_eq_true]
      exact ⟨e, List.mem_cons_self, high⟩
    · have rest : Has5g (e :: visited es) ↔ Has5g (visited es) := by
        unfold Has5g
        rw [List.exists_mem_cons_iff, or_iff_right high]
      rw [if_neg high, if_neg (by rw [length_append]; omega), decide_eq_false notFull, bind_some,
        if_neg Bool.false_ne_true, ih next (by omega) (by omega) (by omega) (by omega)]
      exact congrArg some (decide_eq_decide.mpr rest.symm)

end Entries

/-! ### The three functions -/

section Functions

variable {f : P2pFrame} {attr : Byte} {α : Type} {none' : α} {missing body : ℕ → Option α}

/-- **What a walk to an attribute comes to**: no P2P element, the attribute, or the end of the frame. -/
theorem atAttr_cases (straight : f.Straight attr) (none' : α) (missing body : ℕ → Option α) :
    (f.ies.findSome? Ie.attrs? = none ∧ f.attr? attr = none ∧ atAttr f.bytes attr none' missing body = some none') ∨
    (∃ a o t, f.attr? attr = some a ∧ a.id = attr ∧ f.bytes.drop o = a.bytes ++ t ∧
        (attrsBytes [a]).length < 252 ∧ (∀ k, o ≤ k → k < o + a.bytes.length → f.InAttr attr k) ∧
        atAttr f.bytes attr none' missing body = body o) ∨
    (f.ies.findSome? Ie.attrs? ≠ none ∧ f.attr? attr = none ∧
        atAttr f.bytes attr none' missing body = missing f.bytes.length) := by
  rcases straight with others | ⟨pre, attrs, short, post, whole, others, ends⟩
  · have nowhere := attrs?_others others
    refine .inl ⟨nowhere, ?_, ?_⟩
    · unfold P2pFrame.attr?
      rw [nowhere, bind_none]
    · unfold atAttr
      rw [getP2pIeOffset_none others, bind_some, if_pos rfl]
  have first : f.ies.findSome? Ie.attrs? = some attrs := by
    rw [whole, List.findSome?_append, attrs?_others others]
    rfl
  have found : f.attr? attr = attrs.find? fun a => a.id = attr := by
    unfold P2pFrame.attr?
    rw [first, bind_some]
  have ie := getP2pIeOffset_p2p whole others
  have start := drop_attrs whole
  have long := congrArg List.length start
  rw [List.length_drop, length_append] at long
  have walk : atAttr f.bytes attr none' missing body =
      (attrWalk f.bytes attr (f.bytes.length + 1) (32 + (iesBytes pre).length + 6)).bind
        fun w => if w.2 then body w.1 else missing w.1 := by
    unfold atAttr
    rw [ie, bind_some, if_neg (by omega)]
  rw [found, first, walk]
  cases search : attrs.find? fun a => a.id = attr with
  | some a =>
    obtain ⟨id, before, after, rfl, notIn⟩ := List.find?_eq_some_iff_append.mp search
    have id := of_decide_eq_true id
    have notIn : ∀ x ∈ before, x.id ≠ attr := by
      intro x member same
      have := notIn x member
      rw [decide_eq_true same] at this
      nomatch this
    have split : attrsBytes (before ++ a :: after) = attrsBytes before ++ (a.bytes ++ attrsBytes after) := by
      rw [attrsBytes, List.flatMap_append, flatMap_cons]
      rfl
    have few := length_le_attrsBytes before
    have size := length_attrBytes a
    rw [split, append_assoc] at start
    rw [split, length_append, length_append] at short long
    have here : f.bytes.drop (32 + (iesBytes pre).length + 6 + (attrsBytes before).length) =
        a.bytes ++ (attrsBytes after ++ iesBytes post) := by
      rw [drop_next start, drop_left, append_assoc]
    obtain ⟨rounds, positive⟩ : ∃ rounds, f.bytes.length + 1 - before.length = rounds + 1 :=
      ⟨f.bytes.length - before.length, by omega⟩
    refine .inr (.inl ⟨a, _, _, rfl, id, here, ?_, fun k above below => ?_, ?_⟩)
    · rw [attrsBytes, List.flatMap_singleton]
      omega
    · have whole' := whole
      exact ⟨pre, before, a, after, _, post, whole', attrs?_others others, notIn, id, above, below⟩
    · rw [attrWalk_others notIn start (by omega) (by omega), positive, attrWalk_attr here (by omega), if_pos id,
        bind_some, if_pos rfl]
  | none =>
    have notIn : ∀ x ∈ attrs, x.id ≠ attr := by
      intro x member same
      have := List.find?_eq_none.mp search x member
      exact this (decide_eq_true same)
    have last : post = [] := ends.resolve_left fun ⟨x, member, same⟩ => notIn x member same
    have few := length_le_attrsBytes attrs
    rw [last] at long
    rw [show (iesBytes []).length = 0 from rfl] at long
    have end_ : 32 + (iesBytes pre).length + 6 + (attrsBytes attrs).length = f.bytes.length := by
      have element := congrArg List.length (drop_p2p whole)
      rw [List.length_drop, length_append, length_ieBytes] at element
      have body : (Ie.p2p attrs short).body.length = (attrsBytes attrs).length + 4 := by
        show (wfaOui ++ p2pType :: attrsBytes attrs).length = _
        rw [length_append, length_cons]
        show 3 + _ = _
        omega
      omega
    obtain ⟨rounds, positive⟩ : ∃ rounds, f.bytes.length + 1 - attrs.length = rounds + 1 :=
      ⟨f.bytes.length - attrs.length, by omega⟩
    refine .inr (.inr ⟨some_ne_none _, rfl, ?_⟩)
    rw [attrWalk_others notIn start (by omega) (by omega), end_, positive, attrWalk, if_neg (Nat.lt_irrefl _),
      bind_some, if_neg Bool.false_ne_true]

theorem P2pFrame.OnlyIn.refl (f : P2pFrame) (attr : Byte) : f.OnlyIn attr f.bytes := ⟨rfl, fun _ _ => rfl⟩

theorem P2pFrame.OnlyIn.set {b : List Byte} (only : f.OnlyIn attr b) {k : ℕ} (inside : f.InAttr attr k) (x : Byte) :
    f.OnlyIn attr (b.set k x) := by
  refine ⟨List.length_set.trans only.1, fun k' outside => ?_⟩
  have ne : k ≠ k' := by
    rintro rfl
    exact outside inside
  rw [List.getElem?_set_ne ne]
  exact only.2 k' outside

theorem Has5g.of_visited {es : List ChanEntry} (has : Has5g (visited es)) : Has5g es := by
  rcases visited_cases es with all | ⟨last, whole, -⟩
  · rwa [all] at has
  · obtain ⟨e, member, high⟩ := has
    refine ⟨e, ?_, high⟩
    rw [whole]
    exact List.mem_append_left _ member

theorem records_iff (straight : f.Straight attrChannelList) : (rxParseP2pChanList f.bytes = some (some true) ↔
      ∃ country es three, f.attr? attrChannelList = some (.chanList country es three) ∧ Has5g es) ↔
    ∀ country es three, f.attr? attrChannelList = some (.chanList country es three) →
      Has5g es → Has5g (visited es) := by
  have unlisted : f.attr? attrChannelList = none → rxParseP2pChanList f.bytes = some none →
      ((rxParseP2pChanList f.bytes = some (some true) ↔
        ∃ country es three, f.attr? attrChannelList = some (.chanList country es three) ∧ Has5g es) ↔
      ∀ country es three, f.attr? attrChannelList = some (.chanList country es three) →
        Has5g es → Has5g (visited es)) := by
    intro none' ran
    rw [none', ran]
    refine iff_of_true (iff_of_false (fun same => nomatch same) ?_) fun _ _ _ same => nomatch same
    rintro ⟨_, _, _, same, -⟩
    nomatch same
  rcases atAttr_cases straight none (fun _ => some none) (chanListAt f.bytes) with
    ⟨-, none', ran⟩ | ⟨a, o, t, found, id, here, short, -, ran⟩ | ⟨-, none', ran⟩
  · exact unlisted none' ran
  · cases a with
    | other id' body ne => exact absurd id ne
    | chanList country es three =>
      have cons : f.bytes.drop o = attrChannelList :: BitVec.ofNat 8 (country ++ entriesBytes es).length ::
          BitVec.ofNat 8 ((country ++ entriesBytes es).length / 256) :: (country ++ (entriesBytes es ++ t)) := by
        rw [here, ← append_assoc country]
        rfl
      have size := length_attrBytes (.chanList country es three)
      rw [attrsBytes, List.flatMap_singleton, size] at short
      have small : (country ++ entriesBytes es).length < 252 := Nat.lt_of_add_right_lt short
      have ran : rxParseP2pChanList f.bytes = chanListAt f.bytes o := ran
      unfold chanListAt at ran
      rw [get_drop cons 1, get_drop cons 2] at ran
      dsimp only [List.getElem?_cons_succ, List.getElem?_cons_zero, bind_some] at ran
      have six : f.bytes.drop (o + 6) = entriesBytes es ++ t := by
        rw [drop_next cons 6]
        show (country ++ (entriesBytes es ++ t)).drop 3 = _
        rw [← three, drop_left]
      rw [length_append, three] at small
      rw [attrLen_le16 (by rw [length_append, three]; omega), entryWalk_entries six
        (by rw [length_append, three]; omega) (by omega) (Nat.succ_pos _) (by omega), Option.map_some] at ran
      rw [ran, found]
      constructor
      · rintro records _ es' _ same high
        obtain ⟨rfl, rfl⟩ : country = _ ∧ es = es' := by simpa using same
        have recorded := records.mpr ⟨_, _, _, rfl, high⟩
        exact of_decide_eq_true (some.inj (some.inj recorded))
      · intro seen
        constructor
        · intro recorded
          have has : Has5g (visited es) := of_decide_eq_true (some.inj (some.inj recorded))
          exact ⟨country, es, three, rfl, has.of_visited⟩
        · rintro ⟨_, es', _, same, high⟩
          obtain ⟨rfl, rfl⟩ : country = _ ∧ es = es' := by simpa using same
          rw [decide_eq_true (seen _ _ _ rfl high)]
  · exact unlisted none' ran

theorem operchan_only (straight : f.Straight attrOperatingChannel)
    (shaped : ∀ a, f.attr? attrOperatingChannel = some a → a.body.length = 5)
    (toBand : Byte → Option Nl80211Band) (new : OperChan) :
    ∃ b, changeP2pOperchan toBand new f.bytes = some b ∧ f.OnlyIn attrOperatingChannel b := by
  have unchanged := P2pFrame.OnlyIn.refl f attrOperatingChannel
  unfold changeP2pOperchan
  rcases atAttr_cases straight f.bytes (fun _ => some f.bytes) (setOperchan toBand new f.bytes) with
    ⟨-, -, ran⟩ | ⟨a, o, t, found, -, here, -, inside, ran⟩ | ⟨-, -, ran⟩
  · exact ⟨_, ran, unchanged⟩
  · have size := length_attrBytes a
    have five := shaped a found
    have long : 7 < (f.bytes.drop o).length := by
      rw [here, length_append]
      omega
    rw [ran]
    unfold setOperchan
    rw [get_drop rfl 6, get_drop rfl 7, List.getElem?_eq_getElem long,
      List.getElem?_eq_getElem ((by decide : 6 < 7).trans long), bind_some]
    split
    · exact ⟨_, rfl, unchanged⟩
    · rw [bind_some]
      split
      · refine ⟨_, rfl, P2pFrame.OnlyIn.set ?_ (inside (o + 7) (by omega) (by omega)) _⟩
        split
        · exact unchanged.set (inside (o + 6) (by omega) (by omega)) _
        · exact unchanged
      · exact ⟨_, rfl, unchanged⟩
  · exact ⟨_, ran, unchanged⟩

theorem intent_only (straight : f.Straight attrGroupOwnerIntent)
    (shaped : ∀ a, f.attr? attrGroupOwnerIntent = some a → a.body.length = 1) :
    (∃ b, changeP2pIntent f.bytes = some b ∧ f.OnlyIn attrGroupOwnerIntent b) ↔
      (f.ies.findSome? Ie.attrs? ≠ none → f.attr? attrGroupOwnerIntent ≠ none) := by
  unfold changeP2pIntent
  rcases atAttr_cases straight f.bytes (setIntent f.bytes) (setIntent f.bytes) with
    ⟨nowhere, -, ran⟩ | ⟨a, o, t, found, -, here, -, inside, ran⟩ | ⟨there, none', ran⟩
  · rw [ran]
    exact iff_of_true ⟨_, rfl, .refl f _⟩ fun there => absurd nowhere there
  · have size := length_attrBytes a
    have one := shaped a found
    have long : 3 < (f.bytes.drop o).length := by
      rw [here, length_append]
      omega
    rw [ran, found]
    refine iff_of_true ?_ fun _ => some_ne_none a
    unfold setIntent
    rw [get_drop rfl 3, List.getElem?_eq_getElem long]
    exact ⟨_, rfl, (P2pFrame.OnlyIn.refl f _).set (inside (o + 3) (by omega) (by omega)) _⟩
  · have past : setIntent f.bytes f.bytes.length = none := by
      unfold setIntent
      rw [List.getElem?_eq_none (Nat.le_add_right _ _), bind_none]
    rw [ran, past, none']
    exact iff_of_false (fun ⟨_, same, _⟩ => nomatch same) fun both => both there rfl

end Functions

theorem exact_iff {f : P2pFrame} (toBand : Byte → Option Nl80211Band) (shaped : f.Shaped)
    (list : f.Straight attrChannelList) (operchan : f.Straight attrOperatingChannel)
    (intent : f.Straight attrGroupOwnerIntent) : Exact toBand f ↔ Reached f := by
  constructor
  · exact fun exact' => ⟨(records_iff list).mp exact'.records, (intent_only intent shaped.2).mp exact'.intent⟩
  · exact fun reached => ⟨(records_iff list).mpr reached.1,
      operchan_only operchan shaped.1 toBand, (intent_only intent shaped.2).mpr reached.2⟩

/-- **The walkers, on every byte string and on the well-formed frames whose attributes they come to.** -/
theorem walkers_iff (toBand : Byte → Option Nl80211Band) : (∀ b : List Byte, Inside toBand b ↔ Fits toBand b) ∧
    ∀ f : P2pFrame, f.Shaped → f.Straight attrChannelList → f.Straight attrOperatingChannel →
      f.Straight attrGroupOwnerIntent → (Exact toBand f ↔ Reached f) :=
  ⟨walkers_inside_iff toBand, fun _ shaped list operchan intent => exact_iff toBand shaped list operchan intent⟩

/-! ### Two frames -/

/-- A GO negotiation request with an intent, a channel list and an operating channel. -/
def negotiation : P2pFrame where
  header := (sampleFrame [] (by decide)).header
  ies := [.p2p [.other 4 [14] (by decide), sampleList [36, 40] (by decide),
      .other 17 [0x58, 0x58, 4, 81, 6] (by decide)] (by decide)]
  headerLength := rfl

theorem walkers_iff_sample : Exact sampleToBand negotiation := by
  have straight : ∀ attr ∈ [attrChannelList, attrOperatingChannel, attrGroupOwnerIntent],
      negotiation.Straight attr := by
    intro attr member
    refine .inr ⟨[], _, _, [], rfl, fun ie member => absurd member List.not_mem_nil, .inr rfl⟩
  have shaped : negotiation.Shaped := by
    constructor
    · intro a found
      obtain rfl := Option.some.inj found
      rfl
    · intro a found
      obtain rfl := Option.some.inj found
      rfl
  refine ((walkers_iff sampleToBand).2 negotiation shaped (straight _ (by decide)) (straight _ (by decide))
    (straight _ (by decide))).mpr ⟨fun country es three found _ => ?_, fun _ none' => nomatch none'⟩
  obtain ⟨rfl, rfl⟩ : [0x58, 0x58, 4] = country ∧ _ = es := by
    have same := Option.some.inj found
    simpa [sampleList] using same
  decide

/-- **A frame that ends behind the id of an element**: its length is read past the end. -/
theorem walk_cut_length : ¬∀ toBand b, Inside toBand b := by
  intro all
  have ended := (all sampleToBand (List.replicate 33 attrVendorSpecific)).ieOffset
  revert ended
  decide

end W2l.P2p
