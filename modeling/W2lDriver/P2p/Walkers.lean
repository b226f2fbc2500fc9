/-
**The walkers of P2P action frames stay inside the frame.**

`aml_get_p2p_ie_offset`, `aml_rx_parse_p2p_chan_list`, `aml_change_p2p_operchan`, `aml_change_p2p_intent`
(`aml_p2p.c`). They walk the elements of a frame, the attributes of the P2P element and the entries of its
channel list by the lengths the frame holds. Here the frame is all the memory there is: an access outside
of it has no result, and neither has a loop that does not end.

* `getP2pIeOffset`, `rxParseP2pChanList`, `changeP2pOperchan`, `changeP2pIntent` — the four functions.
* `IesFit`, `AttrsFit`, `EntriesFit` — **the byte strings they can walk**: a length is never cut, and what
  is looked for is whole.
* `walkers_inside_iff` — the four stay inside the frame and end if and only if the frame is one of these.
-/

import W2lDriver.P2p.Frame

namespace W2l.P2p

open Lib (Byte)
open List (cons_ne_nil drop_drop length_cons length_take not_mem_nil)
open Option (bind_eq_some_iff bind_none bind_some some.inj)

/-! ### The code -/

/-- `&&` over the bytes from a position on: the next one is read where the one before it is as expected. -/
def bytesAt (b : List Byte) : ℕ → List Byte → Option Bool
  | _, [] => some true
  | o, x :: rest => b[o]?.bind fun y => if y = x then bytesAt b (o + 1) rest else some false

/-- The test of an element for the organisation of P2P. -/
def vendorAt (b : List Byte) (o : ℕ) (id : Byte) : Option Bool :=
  if id = attrVendorSpecific then bytesAt b (o + 2) wfaOui else some false

/-- The loop of `aml_get_p2p_ie_offset`. -/
def ieWalk (b : List Byte) : ℕ → ℕ → Option ℕ
  | 0, _ => none
  | rounds + 1, o =>
    if o < b.length then
      b[o]?.bind fun id => b[o + 1]?.bind fun len => (vendorAt b o id).bind fun found =>
        if found then some o else ieWalk b rounds (o + len.toNat + 2)
    else some 0

def getP2pIeOffset (b : List Byte) : Option ℕ := ieWalk b (b.length + 1) 32

/-- `(buf[offset + 2] << 8) | buf[offset + 1]`. -/
def attrLen (low high : Byte) : ℕ := (high ++ low).toNat

/-- The loops over attributes, up to one: where they end, and `is_found`. -/
def attrWalk (b : List Byte) (attr : Byte) : ℕ → ℕ → Option (ℕ × Bool)
  | 0, _ => none
  | rounds + 1, o =>
    if o < b.length then
      b[o]?.bind fun id => b[o + 2]?.bind fun high => b[o + 1]?.bind fun low =>
        if id = attr then some (o, true) else attrWalk b attr rounds (o + attrLen low high + 3)
    else some (o, false)

/-- `for (i = 1; i <= oper_class_len; i++)`, where `i` is a `u8`; the entry is at `p`. -/
def chanLoop (b : List Byte) (p : ℕ) (len : Byte) : ℕ → Byte → Option Bool
  | 0, _ => none
  | rounds + 1, i =>
    if i ≤ len then
      b[p + 1 + i.toNat]?.bind fun chan => if 36 ≤ chan then some true else chanLoop b p len rounds (i + 1)
    else some false

/-- `while (idx < chan_list_ie_len)`. -/
def entryWalk (b : List Byte) (o chanListIeLen : ℕ) : ℕ → ℕ → Option Bool
  | 0, _ => none
  | rounds + 1, idx =>
    if idx < chanListIeLen then
      b[o + idx]?.bind fun _ => b[o + idx + 1]?.bind fun len =>
        (chanLoop b (o + idx) len 257 1).bind fun high =>
          if high then some true else entryWalk b o chanListIeLen rounds (idx + len.toNat + 2)
    else some false

/-- An attribute of the first element with the organisation of P2P: `body` is given where it is, if it is
found, and `missing` where the walk ends. -/
def atAttr {α : Type} (b : List Byte) (attr : Byte) (none' : α) (missing body : ℕ → Option α) : Option α :=
  (getP2pIeOffset b).bind fun ie =>
    if ie = 0 then some none'
    else (attrWalk b attr (b.length + 1) (ie + 6)).bind fun w => if w.2 then body w.1 else missing w.1

def chanListAt (b : List Byte) (o : ℕ) : Option (Option Bool) :=
  b[o + 1]?.bind fun low => b[o + 2]?.bind fun high =>
    (entryWalk b o (attrLen low high) (attrLen low high + 1) 6).map some

/-- `aml_rx_parse_p2p_chan_list`: what it sets the 5 GHz support of the peer to, if it does. -/
def rxParseP2pChanList (b : List Byte) : Option (Option Bool) :=
  atAttr b attrChannelList none (fun _ => some none) (chanListAt b)

/-- `P2P_ATTR_OPERATING_CHANNEL`, `P2P_ATTR_GROUP_OWNER_INTENT`, `GO_INTENT_H`. -/
def attrOperatingChannel : Byte := 17
def attrGroupOwnerIntent : Byte := 4
def goIntentH : Byte := 15

def sccCompareOperClass (org new : Byte) : Bool :=
  if org = new then false
  else if (81 ≤ new ∧ new ≤ 83) ∧ (81 ≤ org ∧ org ≤ 83) then false
  else if (115 ≤ new ∧ new ≤ 117) ∧ (115 ≤ org ∧ org ≤ 117) then false
  else if (118 ≤ new ∧ new ≤ 120) ∧ (118 ≤ org ∧ org ≤ 120) then false
  else if (121 ≤ new ∧ new ≤ 123) ∧ (121 ≤ org ∧ org ≤ 123) then false
  else if (124 ≤ new ∧ new ≤ 127) ∧ (124 ≤ org ∧ org ≤ 127) then false
  else true

/-- What the change of the operating channel takes of `chan_def`: the band, the number of the channel and
`aml_get_operation_class`. -/
structure OperChan where
  band : Nl80211Band
  chanNo : Byte
  operClass : Byte

/-- The operating channel at a position, where `toBand` is `ieee80211_operating_class_to_band`. -/
def setOperchan (toBand : Byte → Option Nl80211Band) (new : OperChan) (b : List Byte) (o : ℕ) : Option (List Byte) :=
  b[o + 6]?.bind fun org =>
    match toBand org with
    | none => some b
    | some bandOrg =>
      -- the message about the change reads the channel, too
      b[o + 7]?.bind fun _ =>
        if bandOrg = new.band ∨ new.band = .band2GHz then
          let b := if sccCompareOperClass org new.operClass then b.set (o + 6) new.operClass else b
          some (b.set (o + 7) new.chanNo)
        else some b

def changeP2pOperchan (toBand : Byte → Option Nl80211Band) (new : OperChan) (b : List Byte) : Option (List Byte) :=
  atAttr b attrOperatingChannel b (fun _ => some b) (setOperchan toBand new b)

def setIntent (b : List Byte) (o : ℕ) : Option (List Byte) :=
  b[o + 3]?.bind fun tie => some (b.set (o + 3) (goIntentH <<< 1 ||| (tie &&& 1)))

/-- `aml_change_p2p_intent`, which does not ask whether the attribute was found. -/
def changeP2pIntent (b : List Byte) : Option (List Byte) :=
  atAttr b attrGroupOwnerIntent b (setIntent b) (setIntent b)

/-! ### The byte strings they can walk -/

/-- Elements, one behind another; the last one may be cut behind its length, but a vendor element not before
the byte that tells it from those of P2P. Behind the type of the first P2P element, `inner` holds. -/
inductive IesFit (inner : List Byte → Prop) : List Byte → Prop
  | nil : IesFit inner []
  | p2p {len : Byte} {rest : List Byte} (fits : inner (rest.drop 1)) :
    IesFit inner (attrVendorSpecific :: len :: 0x50 :: 0x6f :: 0x9a :: rest)
  | ie {id len : Byte} {rest : List Byte} (other : id = attrVendorSpecific → ¬rest.take 3 <+: wfaOui)
    (next : IesFit inner (rest.drop len.toNat)) : IesFit inner (id :: len :: rest)

/-- Attributes, one behind another, up to the one looked for, on which `body` holds; at an end without it,
`missing` does. -/
inductive AttrsFit (attr : Byte) (missing : Prop) (body : List Byte → Prop) : List Byte → Prop
  | nil (end_ : missing) : AttrsFit attr missing body []
  | found {low high : Byte} {rest : List Byte} (fits : body (attr :: low :: high :: rest)) :
    AttrsFit attr missing body (attr :: low :: high :: rest)
  | other {id low high : Byte} {rest : List Byte} (ne : id ≠ attr)
    (next : AttrsFit attr missing body (rest.drop (attrLen low high))) :
    AttrsFit attr missing body (id :: low :: high :: rest)

/-- Entries that begin in so many bytes, up to one with a channel from 36 on, or of 255 channels. -/
inductive EntriesFit : ℕ → List Byte → Prop
  | done {s : List Byte} : EntriesFit 0 s
  | high {n : ℕ} {operClass len : Byte} {rest : List Byte} (channel : ∃ x ∈ rest.take len.toNat, 36 ≤ x) :
    EntriesFit (n + 1) (operClass :: len :: rest)
  | full {n : ℕ} {operClass : Byte} {rest : List Byte} (inside : 255 ≤ rest.length) :
    EntriesFit (n + 1) (operClass :: 255 :: rest)
  | low {n : ℕ} {operClass len : Byte} {rest : List Byte} (inside : len.toNat ≤ rest.length)
    (next : EntriesFit (n + 1 - (len.toNat + 2)) (rest.drop len.toNat)) :
    EntriesFit (n + 1) (operClass :: len :: rest)

/-- The channel list: its entries begin up to three bytes before its end. -/
def ListFits (s : List Byte) : Prop :=
  ∃ id low high rest, s = id :: low :: high :: rest ∧ EntriesFit (attrLen low high - 6) (rest.drop 3)

/-- The operating channel: its class is there, and its number, if the class has a band. -/
def OperchanFits (toBand : Byte → Option Nl80211Band) (s : List Byte) : Prop :=
  ∃ org, s[6]? = some org ∧ (toBand org ≠ none → 7 < s.length)

/-- **The byte strings that the walkers can walk.** -/
structure Fits (toBand : Byte → Option Nl80211Band) (b : List Byte) : Prop where
  chanList : IesFit (AttrsFit attrChannelList True ListFits) (b.drop 32)
  operchan : IesFit (AttrsFit attrOperatingChannel True (OperchanFits toBand)) (b.drop 32)
  intent : IesFit (AttrsFit attrGroupOwnerIntent False fun s => 3 < s.length) (b.drop 32)

/-- **The walkers stay inside the frame and end.** -/
structure Inside (toBand : Byte → Option Nl80211Band) (b : List Byte) : Prop where
  ieOffset : (getP2pIeOffset b).isSome
  chanList : (rxParseP2pChanList b).isSome
  operchan : ∀ new, (changeP2pOperchan toBand new b).isSome
  intent : (changeP2pIntent b).isSome

/-! ### One round -/

section Rounds

variable {b : List Byte} {o : ℕ} {s : List Byte}

section

variable (here : b.drop o = s)

include here

theorem get_drop (k : ℕ) : b[o + k]? = s[k]? := by
  rw [← here, List.getElem?_drop]

theorem get_here : b[o]? = s[0]? := get_drop here 0

theorem inside_iff : o < b.length ↔ s ≠ [] := by
  rw [← here, ne_eq, List.drop_eq_nil_iff, Nat.not_le]

theorem drop_next (k : ℕ) : b.drop (o + k) = s.drop k := by
  rw [← here, drop_drop]

end

theorem bytesAt_cases (expected : List Byte) (here : b.drop o = s) :
    (expected <+: s ∧ bytesAt b o expected = some true) ∨
    (¬s.take expected.length <+: expected ∧ bytesAt b o expected = some false) ∨
    ((s.length < expected.length ∧ s <+: expected) ∧ bytesAt b o expected = none) := by
  induction expected generalizing o s with
  | nil => exact .inl ⟨List.nil_prefix, rfl⟩
  | cons x rest ih =>
    unfold bytesAt
    rw [get_here here]
    cases s with
    | nil => exact .inr (.inr ⟨⟨Nat.succ_pos _, List.nil_prefix⟩, rfl⟩)
    | cons y t =>
      show _ ∧ (if y = x then _ else _) = _ ∨ _ ∧ (if y = x then _ else _) = _ ∨
        _ ∧ (if y = x then _ else _) = _
      by_cases same : y = x
      · rw [if_pos same, same, length_cons, List.take_succ_cons, length_cons]
        rcases ih (drop_next here 1) with ⟨pre, eq⟩ | ⟨no, eq⟩ | ⟨⟨less, pre⟩, eq⟩
        · exact .inl ⟨(List.prefix_cons_inj x).mpr pre, eq⟩
        · exact .inr (.inl ⟨mt (List.prefix_cons_inj x).mp no, eq⟩)
        · exact .inr (.inr ⟨⟨Nat.succ_lt_succ less, (List.prefix_cons_inj x).mpr pre⟩, eq⟩)
      · rw [if_neg same]
        refine .inr (.inl ⟨fun pre => ?_, rfl⟩)
        rw [length_cons, List.take_succ_cons] at pre
        exact same (List.cons_prefix_cons.mp pre).1

end Rounds

/-! ### The walks -/

section Walks

variable {b : List Byte} {o : ℕ}

theorem ieWalk_fits {inner : List Byte → Prop} (rounds : ℕ) (pos : 0 < o) (some' : 0 < rounds)
    (enough : b.length < o + rounds) :
    IesFit inner (b.drop o) ↔ ∃ e, ieWalk b rounds o = some e ∧ (e ≠ 0 → inner (b.drop (e + 6))) := by
  induction rounds generalizing o with
  | zero => exact absurd some' (Nat.lt_irrefl 0)
  | succ rounds ih =>
    unfold ieWalk
    generalize here : b.drop o = s
    match s with
    | [] =>
      rw [if_neg fun less => (inside_iff here).mp less rfl]
      exact iff_of_true .nil ⟨0, rfl, fun ne => absurd rfl ne⟩
    | [id] =>
      rw [if_pos ((inside_iff here).mpr (cons_ne_nil _ _)), get_here here, get_drop here 1]
      refine iff_of_false (fun fits => nomatch fits) ?_
      rintro ⟨e, none', -⟩
      nomatch none'
    | id :: len :: rest =>
      have inside := (inside_iff here).mpr (cons_ne_nil _ _)
      rw [if_pos inside, get_here here, get_drop here 1]
      show _ ↔ ∃ e, ((vendorAt b o id).bind fun found => _) = some e ∧ _
      have next : b.drop (o + len.toNat + 2) = rest.drop len.toNat := by
        rw [Nat.add_right_comm, ← drop_drop, drop_next here 2]
        rfl
      have six : b.drop (o + 6) = rest.drop 4 := drop_next here 6
      unfold vendorAt
      by_cases vendor : id = attrVendorSpecific
      swap
      · rw [if_neg vendor, bind_some, if_neg Bool.false_ne_true, ← ih (by omega) (by omega) (by omega), next]
        constructor
        · rintro (_ | _ | ⟨-, fits⟩)
          · exact absurd rfl vendor
          · exact fits
        · exact fun fits => .ie (fun same => absurd same vendor) fits
      rw [if_pos vendor]
      rcases bytesAt_cases wfaOui (drop_next here 2) with ⟨pre, eq⟩ | ⟨no, eq⟩ | ⟨⟨short, pre⟩, eq⟩
      · obtain ⟨t, rfl⟩ := pre
        rw [eq, bind_some, if_pos rfl, vendor]
        constructor
        · intro fits
          refine ⟨o, rfl, fun _ => ?_⟩
          rw [six]
          cases fits with
          | p2p inner => exact inner
          | ie other => exact absurd List.prefix_rfl (other rfl)
        · rintro ⟨e, found, inner⟩
          obtain rfl := some.inj found
          have inner := inner (by omega)
          rw [six] at inner
          exact .p2p inner
      · rw [eq, bind_some, if_neg Bool.false_ne_true, ← ih (by omega) (by omega) (by omega), next]
        constructor
        · intro fits
          cases fits with
          | p2p inner => exact absurd List.prefix_rfl no
          | ie _ fits => exact fits
        · exact fun fits => .ie (fun _ => no) fits
      · rw [eq, bind_none]
        refine iff_of_false (fun fits => ?_) fun ⟨e, none', _⟩ => nomatch none'
        cases fits with
        | p2p inner => exact absurd short (by show ¬_ + 3 < 3; omega)
        | ie other =>
          have less : rest.length < 3 := short
          refine other vendor ?_
          rw [List.take_of_length_le less.le]
          exact pre

theorem attrWalk_fits {attr : Byte} {missing : Prop} {body : List Byte → Prop} (rounds : ℕ)
    (some' : 0 < rounds) (enough : b.length < o + rounds) :
    AttrsFit attr missing body (b.drop o) ↔ ∃ w, attrWalk b attr rounds o = some w ∧
      if w.2 then body (b.drop w.1) else missing := by
  induction rounds generalizing o with
  | zero => exact absurd some' (Nat.lt_irrefl 0)
  | succ rounds ih =>
    unfold attrWalk
    generalize here : b.drop o = s
    match s with
    | [] =>
      have past : ¬o < b.length := fun less => (inside_iff here).mp less rfl
      rw [if_neg past]
      constructor
      · rintro ⟨end_⟩
        exact ⟨(o, false), rfl, end_⟩
      · rintro ⟨w, ended, end_⟩
        obtain rfl := some.inj ended
        exact .nil end_
    | [id] =>
      rw [if_pos ((inside_iff here).mpr (cons_ne_nil _ _)), get_here here, get_drop here 2]
      exact iff_of_false (fun fits => nomatch fits) fun ⟨w, none', _⟩ => nomatch none'
    | [id, low] =>
      rw [if_pos ((inside_iff here).mpr (cons_ne_nil _ _)), get_here here, get_drop here 2]
      exact iff_of_false (fun fits => nomatch fits) fun ⟨w, none', _⟩ => nomatch none'
    | id :: low :: high :: rest =>
      have inside := (inside_iff here).mpr (cons_ne_nil _ _)
      rw [if_pos inside, get_here here, get_drop here 2, get_drop here 1]
      show _ ↔ ∃ w, (if id = attr then some (o, true) else _) = some w ∧ _
      by_cases same : id = attr
      · rw [if_pos same, same]
        constructor
        · intro fits
          refine ⟨(o, true), rfl, ?_⟩
          show body (b.drop o)
          rw [here, same]
          cases fits with
          | found body => exact body
          | other ne => exact absurd rfl ne
        · rintro ⟨w, found, body⟩
          obtain rfl := some.inj found
          refine .found ?_
          have body : _ := body
          rw [if_pos rfl, here, same] at body
          exact body
      · have next : b.drop (o + attrLen low high + 3) = rest.drop (attrLen low high) := by
          rw [Nat.add_right_comm, ← drop_drop, drop_next here 3]
          rfl
        rw [if_neg same, ← ih (by omega) (by omega), next]
        constructor
        · intro fits
          cases fits with
          | found => exact absurd rfl same
          | other _ fits => exact fits
        · exact .other same

theorem attrWalk_past {attr : Byte} {rounds end_ : ℕ} (ended : attrWalk b attr rounds o = some (end_, false)) :
    b.length ≤ end_ := by
  induction rounds generalizing o with
  | zero => nomatch ended
  | succ rounds ih =>
    unfold attrWalk at ended
    split at ended
    case isFalse past =>
      obtain ⟨rfl, -⟩ := Prod.ext_iff.mp (some.inj ended)
      exact Nat.le_of_not_lt past
    case isTrue =>
      obtain ⟨id, -, ended⟩ := bind_eq_some_iff.mp ended
      obtain ⟨high, -, ended⟩ := bind_eq_some_iff.mp ended
      obtain ⟨low, -, ended⟩ := bind_eq_some_iff.mp ended
      split at ended
      · nomatch ended
      · exact ih ended

end Walks

/-! ### The channel list -/

section Channels

variable {b : List Byte} {o p : ℕ} {operClass len : Byte} {rest : List Byte}

theorem chanLoop_from (here : b.drop p = operClass :: len :: rest) (rounds j : ℕ) (first : 1 ≤ j)
    (upTo : j ≤ len.toNat + 1) (byte : j ≤ 255) (enough : 258 ≤ rounds + j) (read : j - 1 ≤ rest.length) :
    chanLoop b p len rounds (BitVec.ofNat 8 j) = if ∃ x ∈ (rest.take len.toNat).drop (j - 1), 36 ≤ x then some true
      else if rest.length < len.toNat then none else some (decide (len = 255)) := by
  induction rounds generalizing j with
  | zero => omega
  | succ rounds ih =>
    have index : (BitVec.ofNat 8 j).toNat = j := by
      rw [BitVec.toNat_ofNat]
      omega
    have within : BitVec.ofNat 8 j ≤ len ↔ j ≤ len.toNat := by rw [BitVec.le_def, index]
    have chan : b[p + 1 + j]? = rest[j - 1]? := by
      rw [show p + 1 + j = p + (j - 1 + 2) by omega]
      exact get_drop here (j - 1 + 2)
    unfold chanLoop
    rw [index, chan]
    by_cases more : j ≤ len.toNat
    swap
    · have last : len.toNat = j - 1 := by omega
      have below : len ≠ 255 := by
        rintro rfl
        exact more byte
      rw [if_neg (mt within.mp more), if_neg, if_neg (by omega), decide_eq_false below]
      rintro ⟨x, member, -⟩
      rw [List.drop_eq_nil_of_le (by rw [length_take]; omega)] at member
      exact not_mem_nil member
    rw [if_pos (within.mpr more)]
    cases got : rest[j - 1]? with
    | none =>
      have short : rest.length ≤ j - 1 := List.getElem?_eq_none_iff.mp got
      rw [bind_none, if_neg, if_pos (by omega)]
      rintro ⟨x, member, -⟩
      rw [List.drop_eq_nil_of_le (by rw [length_take]; omega)] at member
      exact not_mem_nil member
    | some x =>
      obtain ⟨long, at_⟩ := List.getElem?_eq_some_iff.mp got
      have tail : (rest.take len.toNat).drop (j - 1) = x :: (rest.take len.toNat).drop j := by
        rw [List.drop_eq_getElem_cons (by rw [length_take]; omega), List.getElem_take, at_, Nat.sub_add_cancel first]
      rw [bind_some, tail]
      by_cases high : 36 ≤ x
      · rw [if_pos high, if_pos ⟨x, List.mem_cons_self, high⟩]
      · simp only [List.exists_mem_cons_iff, high, false_or, if_false]
        by_cases last : j = 255
        · subst last
          have width := len.isLt
          have number : len.toNat = 255 := by omega
          obtain rfl : len = 255 := BitVec.eq_of_toNat_eq number
          have all : ¬rest.length < (255 : Byte).toNat := by
            show ¬rest.length < 255
            omega
          rw [if_neg, if_neg all]
          · obtain _ | rounds := rounds
            · omega
            · unfold chanLoop
              rw [if_pos (by decide)]
              show (b[p + 1]?.bind fun chan => _) = _
              rw [get_drop here 1]
              rfl
          · rintro ⟨y, member, -⟩
            rw [List.drop_eq_nil_of_le (by rw [length_take]; omega)] at member
            exact not_mem_nil member
        · have succ : BitVec.ofNat 8 j + 1 = BitVec.ofNat 8 (j + 1) := by
            rw [BitVec.ofNat_add]
            rfl
          rw [succ, ih (j + 1) (by omega) (by omega) (by omega) (by omega) (by omega), Nat.add_sub_cancel]

theorem chanLoop_eq (here : b.drop p = operClass :: len :: rest) : chanLoop b p len 257 1 =
      if ∃ x ∈ rest.take len.toNat, 36 ≤ x then some true
      else if rest.length < len.toNat then none else some (decide (len = 255)) :=
  chanLoop_from here 257 1 (Nat.le_refl 1) (by omega) (by decide) (by decide) (Nat.zero_le _)

theorem entryWalk_fits {chanListIeLen idx : ℕ} (rounds : ℕ) (some' : 0 < rounds)
    (enough : chanListIeLen < idx + rounds) :
    EntriesFit (chanListIeLen - idx) (b.drop (o + idx)) ↔ (entryWalk b o chanListIeLen rounds idx).isSome := by
  induction rounds generalizing idx with
  | zero => exact absurd some' (Nat.lt_irrefl 0)
  | succ rounds ih =>
    unfold entryWalk
    by_cases more : idx < chanListIeLen
    swap
    · rw [if_neg more, Nat.sub_eq_zero_of_le (Nat.le_of_not_lt more)]
      exact iff_of_true .done rfl
    obtain ⟨n, left⟩ : ∃ n, chanListIeLen - idx = n + 1 := ⟨chanListIeLen - idx - 1, by omega⟩
    rw [if_pos more, left]
    generalize here : b.drop (o + idx) = s
    match s with
    | [] =>
      rw [get_here here]
      exact iff_of_false (fun fits => nomatch fits) Bool.false_ne_true
    | [operClass] =>
      rw [get_here here, get_drop here 1]
      exact iff_of_false (fun fits => nomatch fits) Bool.false_ne_true
    | operClass :: len :: rest =>
      have next : b.drop (o + (idx + len.toNat + 2)) = rest.drop len.toNat := by
        rw [show o + (idx + len.toNat + 2) = o + idx + 2 + len.toNat by omega, ← drop_drop, drop_next here 2]
        rfl
      have step : EntriesFit (chanListIeLen - (idx + len.toNat + 2)) (b.drop (o + (idx + len.toNat + 2))) ↔
          (entryWalk b o chanListIeLen rounds (idx + len.toNat + 2)).isSome = true := ih (by omega) (by omega)
      rw [next, show chanListIeLen - (idx + len.toNat + 2) = n + 1 - (len.toNat + 2) by omega] at step
      rw [get_here here, get_drop here 1]
      show _ ↔ ((chanLoop b (o + idx) len 257 1).bind fun high => _).isSome = true
      rw [chanLoop_eq here]
      by_cases high : ∃ x ∈ rest.take len.toNat, 36 ≤ x
      · rw [if_pos high]
        exact iff_of_true (.high high) rfl
      rw [if_neg high]
      by_cases short : rest.length < len.toNat
      · rw [if_pos short]
        refine iff_of_false (fun fits => ?_) Bool.false_ne_true
        cases fits with
        | high channel => exact high channel
        | full inside => exact absurd inside (Nat.not_le.mpr short)
        | low inside => exact absurd inside (Nat.not_le.mpr short)
      rw [if_neg short, bind_some]
      by_cases full : len = 255
      · subst full
        exact iff_of_true (.full (Nat.le_of_not_lt short)) rfl
      rw [decide_eq_false full, if_neg Bool.false_ne_true, ← step]
      constructor
      · intro fits
        cases fits with
        | high channel => exact absurd channel high
        | full => exact absurd rfl full
        | low _ fits => exact fits
      · exact .low (Nat.le_of_not_lt short)

end Channels

/-! ### The four functions -/

section Functions

variable {b : List Byte} {α : Type} {attr : Byte}

theorem atAttr_isSome {none' : α} {missing body : ℕ → Option α} {atEnd : Prop} {fits : List Byte → Prop}
    (missing_iff : ∀ o, b.length ≤ o → ((missing o).isSome ↔ atEnd))
    (body_iff : ∀ o, (body o).isSome ↔ fits (b.drop o)) :
    (atAttr b attr none' missing body).isSome ↔ IesFit (AttrsFit attr atEnd fits) (b.drop 32) := by
  rw [ieWalk_fits (b.length + 1) (by decide) (Nat.succ_pos _) (by omega)]
  unfold atAttr getP2pIeOffset
  cases ieWalk b (b.length + 1) 32 with
  | none => exact iff_of_false Bool.false_ne_true fun ⟨e, none', _⟩ => nomatch none'
  | some e =>
    rw [bind_some]
    by_cases nowhere : e = 0
    · rw [if_pos nowhere]
      exact iff_of_true rfl ⟨e, rfl, fun ne => absurd nowhere ne⟩
    rw [if_neg nowhere]
    have walk : AttrsFit attr atEnd fits (b.drop (e + 6)) ↔ ∃ w, attrWalk b attr (b.length + 1) (e + 6) = some w ∧
        if w.2 then fits (b.drop w.1) else atEnd := attrWalk_fits (b.length + 1) (Nat.succ_pos _) (by omega)
    trans AttrsFit attr atEnd fits (b.drop (e + 6))
    · rw [walk]
      cases ended : attrWalk b attr (b.length + 1) (e + 6) with
      | none => exact iff_of_false Bool.false_ne_true fun ⟨w, none', _⟩ => nomatch none'
      | some w =>
        rw [bind_some]
        obtain ⟨end_, found⟩ := w
        cases found with
        | true =>
          show (body end_).isSome ↔ _
          rw [body_iff]
          constructor
          · exact fun fits => ⟨_, rfl, fits⟩
          · rintro ⟨w, same, fits⟩
            obtain rfl := some.inj same
            exact fits
        | false =>
          show (missing end_).isSome ↔ _
          rw [missing_iff end_ (attrWalk_past ended)]
          constructor
          · exact fun fits => ⟨_, rfl, fits⟩
          · rintro ⟨w, same, fits⟩
            obtain rfl := some.inj same
            exact fits
    · constructor
      · exact fun fits => ⟨e, rfl, fun _ => fits⟩
      · rintro ⟨e', same, fits⟩
        obtain rfl := some.inj same
        exact fits nowhere

theorem isSome_ieOffset : (getP2pIeOffset b).isSome ↔ IesFit (fun _ => True) (b.drop 32) := by
  rw [ieWalk_fits (b.length + 1) (by decide) (Nat.succ_pos _) (by omega)]
  unfold getP2pIeOffset
  rw [Option.isSome_iff_exists]
  exact exists_congr fun e => (and_iff_left fun _ => trivial).symm

theorem isSome_rxParseP2pChanList :
    (rxParseP2pChanList b).isSome ↔ IesFit (AttrsFit attrChannelList True ListFits) (b.drop 32) := by
  refine atAttr_isSome (fun o _ => iff_of_true rfl trivial) fun o => ?_
  unfold chanListAt
  generalize here : b.drop o = s
  match s with
  | [] | [_] | [_, _] =>
    rw [get_drop here 1, get_drop here 2]
    refine iff_of_false Bool.false_ne_true ?_
    rintro ⟨id, low, high, rest, short, -⟩
    nomatch short
  | id :: low :: high :: rest =>
    have six : b.drop (o + 6) = rest.drop 3 := drop_next here 6
    rw [get_drop here 1, get_drop here 2]
    show ((entryWalk b o (attrLen low high) (attrLen low high + 1) 6).map some).isSome = true ↔ _
    rw [Option.isSome_map, ← entryWalk_fits _ (Nat.succ_pos _) (by omega), six]
    constructor
    · exact fun fits => ⟨id, low, high, rest, rfl, fits⟩
    · rintro ⟨_, _, _, _, same, fits⟩
      obtain ⟨rfl, rfl, rfl, rfl⟩ : _ ∧ _ ∧ _ ∧ _ := by simpa using same
      exact fits

theorem isSome_changeP2pOperchan {toBand : Byte → Option Nl80211Band} {new : OperChan} :
    (changeP2pOperchan toBand new b).isSome ↔
      IesFit (AttrsFit attrOperatingChannel True (OperchanFits toBand)) (b.drop 32) := by
  refine atAttr_isSome (fun o _ => iff_of_true rfl trivial) fun o => ?_
  unfold setOperchan OperchanFits
  have at6 : b[o + 6]? = (b.drop o)[6]? := get_drop rfl 6
  have at7 : b[o + 7]? = (b.drop o)[7]? := get_drop rfl 7
  rw [at6, at7]
  generalize b.drop o = s
  cases s[6]? with
  | none => exact iff_of_false Bool.false_ne_true fun ⟨_, none', _⟩ => nomatch none'
  | some org =>
    rw [bind_some]
    have only : (∃ org', some org = some org' ∧ (toBand org' ≠ none → 7 < s.length)) ↔
        (toBand org ≠ none → 7 < s.length) := by
      constructor
      · rintro ⟨_, same, long⟩
        exact some.inj same ▸ long
      · exact fun long => ⟨org, rfl, long⟩
    rw [only]
    cases band : toBand org with
    | none => exact iff_of_true rfl fun ne => absurd rfl ne
    | some bandOrg =>
      rw [forall_prop_of_true (Option.some_ne_none bandOrg)]
      cases seven : s[7]? with
      | none => exact iff_of_false Bool.false_ne_true (Nat.not_lt.mpr (List.getElem?_eq_none_iff.mp seven))
      | some no =>
        have long : 7 < s.length := (List.getElem?_eq_some_iff.mp seven).1
        refine iff_of_true ?_ long
        show (if _ then _ else _ : Option (List Byte)).isSome = true
        split
        · rfl
        · rfl

theorem isSome_changeP2pIntent : (changeP2pIntent b).isSome ↔
    IesFit (AttrsFit attrGroupOwnerIntent False fun s => 3 < s.length) (b.drop 32) := by
  have change : ∀ o, (setIntent b o).isSome ↔ 3 < (b.drop o).length := by
    intro o
    unfold setIntent
    rw [Option.isSome_bind, List.length_drop]
    cases got : b[o + 3]? with
    | none =>
      have short := List.getElem?_eq_none_iff.mp got
      exact iff_of_false Bool.false_ne_true (by omega)
    | some tie =>
      have long := (List.getElem?_eq_some_iff.mp got).1
      exact iff_of_true rfl (by omega)
  refine atAttr_isSome (fun o past => ?_) ?_
  · rw [change, List.length_drop]
    exact iff_of_false (by omega) id
  · exact change

end Functions

theorem IesFit.mono {inner inner' : List Byte → Prop} (le : ∀ s, inner s → inner' s) {s : List Byte}
    (fits : IesFit inner s) : IesFit inner' s := by
  induction fits with
  | nil => exact .nil
  | p2p fits => exact .p2p (le _ fits)
  | ie other _ ih => exact .ie other ih

theorem walkers_inside_iff (toBand : Byte → Option Nl80211Band) (b : List Byte) :
    Inside toBand b ↔ Fits toBand b := by
  constructor
  · intro inside
    exact ⟨isSome_rxParseP2pChanList.mp inside.chanList,
      isSome_changeP2pOperchan.mp (inside.operchan ⟨.band2GHz, 0, 0⟩),
      isSome_changeP2pIntent.mp inside.intent⟩
  · intro fits
    exact ⟨isSome_ieOffset.mpr (fits.chanList.mono fun _ _ => trivial), isSome_rxParseP2pChanList.mpr fits.chanList,
      fun _ => isSome_changeP2pOperchan.mpr fits.operchan, isSome_changeP2pIntent.mpr fits.intent⟩

end W2l.P2p
