/-
**The channel list of a P2P action frame, rewritten in place.**

`aml_p2p.c`. While a station is connected, the driver reduces the channel list of the P2P action
frames it sends to the channel of the station. It walks the elements of the frame and the attributes
of the P2P element, collects what is left of the list in a buffer of 200 bytes, and moves the rest of
the frame to the front.

* `amlGetP2pIeOffset`, `amlSccP2pRewriteChanList`, `amlChangeP2pChanlist` — the three functions.
* `Right` — the frame in the buffer is the frame with its channel list reduced.
* `ieLoop_ies`, `attrLoop_attrs`, `rewriteLoop_entries` — what the loops do on a well-formed frame.
-/

import W2lDriver.Lib.Stored
import W2lDriver.P2p.Frame

namespace W2l.P2p

open Lib
open List (append_assoc append_nil flatMap_append flatMap_cons length_append length_cons length_nil
  length_singleton mem_cons_of_mem mem_cons_self)
open BitVec (toNat_add toNat_ofNat)

abbrev Memory := Nat → Byte

/-! ### The code -/

/-- The 16-bit length behind the id of an attribute. -/
def lenAt (buf : Memory) (offset : Nat) : Nat := (buf (offset + 2) ++ buf (offset + 1)).toNat

/-- The loop of `aml_get_p2p_ie_offset`; a round goes on by two bytes at least. -/
def ieLoop (buf : Memory) (frameLen : Nat) : Nat → Nat → Nat
  | 0, _ => 0
  | rounds + 1, offset =>
    if offset < frameLen then
      if buf offset = attrVendorSpecific ∧ buf (offset + 2) = 0x50 ∧ buf (offset + 3) = 0x6f ∧
          buf (offset + 4) = 0x9a then offset
      else ieLoop buf frameLen rounds (offset + (buf (offset + 1)).toNat + 2)
    else 0

def amlGetP2pIeOffset (buf : Memory) (frameLen : Nat) : Nat := ieLoop buf frameLen frameLen 32

/-- The loop of `aml_change_p2p_chanlist` over attributes, up to the channel list. -/
def attrLoop (buf : Memory) (frameLen : Nat) : Nat → Nat → Option Nat
  | 0, _ => none
  | rounds + 1, offset =>
    if offset < frameLen then
      if buf offset = attrChannelList then some offset
      else attrLoop buf frameLen rounds (offset + lenAt buf offset + 3)
    else none

/-- The length of `chan_list_buf`. -/
def chanListBufLen : Nat := 200

section Rewrite

variable (toBand : Byte → Option Nl80211Band) (target : Byte) (band : Nl80211Band) (peer5g : Bool)

/-- The search of an entry at `p` for the target channel. -/
def matchEntry (buf : Memory) (p : Nat) : List Byte :=
  if target ∈ fetch buf (p + 2) (buf (p + 1)).toNat then [buf p, 1, target] else []

/-- What a round of the loop copies of the entry at `p`. -/
def selectEntry (buf : Memory) (p : Nat) : List Byte :=
  if band = .band5GHz then
    if peer5g then matchEntry target buf p
    else if toBand (buf p) = some .band2GHz then fetch buf p ((buf (p + 1)).toNat + 2)
    else matchEntry target buf p
  else matchEntry target buf p

/-- The loop of `aml_scc_p2p_rewrite_chan_list`, with what is in `chan_list_buf`. Past the end of that
buffer there is no result. -/
def rewriteLoop (buf : Memory) (offset chanListIeLen : Nat) : Nat → Nat → List Byte → Option (List Byte)
  | 0, _, chanListBuf => some chanListBuf
  | rounds + 1, idx, chanListBuf =>
    if idx < chanListIeLen then
      let selected := selectEntry toBand target band peer5g buf (offset + idx)
      if chanListBuf.length + selected.length ≤ chanListBufLen then
        rewriteLoop buf offset chanListIeLen rounds (idx + (buf (offset + idx + 1)).toNat + 2)
          (chanListBuf ++ selected)
      else none
    else some chanListBuf

/-- `aml_scc_p2p_rewrite_chan_list`: the list in front of the `memcpy` to the frame. -/
def amlSccP2pRewriteChanList (buf : Memory) (offset : Nat) : Option (List Byte) :=
  rewriteLoop toBand target band peer5g buf offset (lenAt buf offset) (lenAt buf offset) 6 []

/-- The rest of `aml_change_p2p_chanlist`, with the element at `ieOffset`, its channel list at `offset`
and what is left of it. A shift by more than the width leaves nothing; a list that ends past the frame
leaves a length below zero for the last copy, which has no result. -/
def replaceList (buf : Memory) (frameLen ieOffset offset : Nat) (chanList : List Byte) :
    Option (Memory × BitVec 16) :=
  let ieLen := lenAt buf offset
  let buf := put buf (offset + 6) chanList
  if chanList.length = 0 then some (buf, 0)
  else if frameLen < offset + ieLen + 3 then none
  else
    let chanListLenAfter : BitVec 16 := BitVec.ofNat 16 chanList.length + 3
    let lenDiff : BitVec 16 := BitVec.ofNat 16 (lenAt buf offset) - chanListLenAfter
    let buf := put buf (offset + 1)
      [(chanListLenAfter &&& 0xff).setWidth 8, (chanListLenAfter >>> 0xff).setWidth 8]
    let buf := put buf (ieOffset + 1) [buf (ieOffset + 1) - lenDiff.setWidth 8]
    let rest := fetch buf (offset + ieLen + 3) (frameLen - offset - ieLen - 3)
    some (put buf (offset + 3 + chanListLenAfter.toNat) rest, lenDiff)

/-- `aml_change_p2p_chanlist`: the buffer and `*frame_len_offset`, which is 0 before. The target is
`aml_ieee80211_freq_to_chan` of the new channel, `toBand` is `ieee80211_operating_class_to_band`. -/
def amlChangeP2pChanlist (buf : Memory) (frameLen : Nat) : Option (Memory × BitVec 16) :=
  let ieOffset := amlGetP2pIeOffset buf frameLen
  if ieOffset = 0 then some (buf, 0)
  else
    match attrLoop buf frameLen frameLen (ieOffset + 6) with
    | none => some (buf, 0)
    | some offset =>
      (amlSccP2pRewriteChanList toBand target band peer5g buf offset).bind (replaceList buf frameLen ieOffset offset)

/-- **The frame in the buffer is the frame with its channel list reduced.** -/
def Right (f : P2pFrame) (buf : Memory) : Prop :=
  ∃ buf' lenDiff, amlChangeP2pChanlist toBand target band peer5g buf f.bytes.length = some (buf', lenDiff) ∧
    Stored buf' 0 (f.rewrite toBand target band peer5g).bytes ∧
    (f.rewrite toBand target band peer5g).bytes.length + lenDiff.toNat = f.bytes.length

end Rewrite

/-! ### The loops on a well-formed frame -/

theorem toNat_byte {n : Nat} (short : n < 256) : (BitVec.ofNat 8 n).toNat = n := by
  rw [toNat_ofNat]
  exact Nat.mod_eq_of_lt short

variable {buf : Memory} {frameLen rounds offset n : Nat}

theorem lenAt_stored (stored : Stored buf (offset + 1) (le16 n)) (short : n < 65536) : lenAt buf offset = n := by
  obtain ⟨low, rest⟩ := stored_cons.mp stored
  obtain ⟨high, -⟩ := stored_cons.mp rest
  rw [lenAt, show offset + 2 = offset + 1 + 1 from rfl, high, low, BitVec.toNat_append,
    toNat_ofNat, toNat_ofNat, ← Nat.shiftLeft_add_eq_or_of_lt (Nat.mod_lt _ (by decide)),
    Nat.shiftLeft_eq]
  omega

theorem three_le_body {ie : Ie} (vendor : ie.id = attrVendorSpecific) : 3 ≤ ie.body.length := by
  cases ie with
  | p2p attrs short =>
    show 3 ≤ (wfaOui ++ p2pType :: attrsBytes attrs).length
    rw [length_append]
    exact Nat.le_add_right 3 _
  | other id body short long => exact long vendor

theorem wfa_iff {ie : Ie} (stored : Stored buf offset ie.bytes) :
    ie.wfa = true ↔ buf offset = attrVendorSpecific ∧ buf (offset + 2) = 0x50 ∧
      buf (offset + 3) = 0x6f ∧ buf (offset + 4) = 0x9a := by
  obtain ⟨id, rest⟩ := stored_cons.mp stored
  obtain ⟨-, body⟩ := stored_cons.mp rest
  rw [Ie.wfa, Bool.and_eq_true, decide_eq_true_iff, decide_eq_true_iff, id]
  refine and_congr_right fun vendor => ?_
  have long := three_le_body vendor
  obtain ⟨a, b, c, tail, whole⟩ : ∃ a b c tail, ie.body = a :: b :: c :: tail := by
    match ie.body, long with
    | a :: b :: c :: tail, _ => exact ⟨a, b, c, tail, rfl⟩
  rw [whole] at body ⊢
  obtain ⟨first, rest⟩ := stored_cons.mp body
  obtain ⟨second, rest⟩ := stored_cons.mp rest
  obtain ⟨third, -⟩ := stored_cons.mp rest
  rw [show offset + 2 = offset + 1 + 1 from rfl, first, show offset + 3 = offset + 1 + 1 + 1 from rfl,
    second, show offset + 4 = offset + 1 + 1 + 1 + 1 from rfl, third]
  simp [wfaOui]

theorem length_ieBytes (ie : Ie) : ie.bytes.length = ie.body.length + 2 := rfl

theorem ieLoop_skip {pre rest : List Ie} (others : ∀ ie ∈ pre, ie.wfa = false)
    (stored : Stored buf offset (iesBytes (pre ++ rest)))
    (inside : offset + (iesBytes (pre ++ rest)).length = frameLen) (enough : pre.length ≤ rounds) :
    ieLoop buf frameLen rounds offset =
      ieLoop buf frameLen (rounds - pre.length) (offset + (iesBytes pre).length) := by
  induction pre generalizing offset rounds with
  | nil => rfl
  | cons ie pre ih =>
    obtain _ | rounds := rounds
    · exact absurd enough (Nat.not_succ_le_zero _)
    have whole : iesBytes (ie :: pre ++ rest) = ie.bytes ++ iesBytes (pre ++ rest) := rfl
    rw [whole] at stored inside
    rw [length_append] at inside
    obtain ⟨first, behind⟩ := stored_append.mp stored
    have other := mt (wfa_iff first).mpr (by rw [others ie mem_cons_self]; exact Bool.false_ne_true)
    have length := length_ieBytes ie
    have next : (buf (offset + 1)).toNat = ie.body.length := by
      obtain ⟨-, rest⟩ := stored_cons.mp first
      rw [(stored_cons.mp rest).1, toNat_byte ie.body_short]
    rw [ieLoop, if_pos (by omega), if_neg other, next, Nat.add_assoc, ← length,
      ih (fun ie' member => others ie' (mem_cons_of_mem ie member)) behind (by omega)
        (Nat.le_of_succ_le_succ enough), length_cons, Nat.add_sub_add_right]
    refine congrArg _ ?_
    show _ = offset + (ie.bytes ++ iesBytes pre).length
    rw [length_append, Nat.add_assoc]

theorem length_le_iesBytes (ies : List Ie) : ies.length ≤ (iesBytes ies).length := by
  induction ies with
  | nil => exact Nat.le_refl _
  | cons ie ies ih =>
    show ies.length + 1 ≤ (ie.bytes ++ iesBytes ies).length
    rw [length_append, length_ieBytes]
    omega

section Search

variable {f : P2pFrame} {pre post : List Ie} {ie : Ie}

theorem stored_ies (stored : Stored buf 0 f.bytes) : Stored buf 32 (iesBytes f.ies) := by
  have behind := (stored_append.mp stored).2
  rwa [f.headerLength, Nat.zero_add] at behind

theorem length_frame (f : P2pFrame) : f.bytes.length = 32 + (iesBytes f.ies).length := by
  rw [P2pFrame.bytes, length_append, f.headerLength]

theorem amlGetP2pIeOffset_wfa (stored : Stored buf 0 f.bytes) (whole : f.ies = pre ++ ie :: post)
    (others : ∀ ie ∈ pre, ie.wfa = false) (first : ie.wfa = true) :
    amlGetP2pIeOffset buf f.bytes.length = 32 + (iesBytes pre).length := by
  have length := length_frame f
  have few := length_le_iesBytes f.ies
  have ies := stored_ies stored
  rw [whole] at length few ies
  have walk := ieLoop_skip others ies length.symm (by rw [length_append] at few; omega : pre.length ≤ f.bytes.length)
  rw [length_append, length_cons] at few
  obtain ⟨rounds, positive⟩ : ∃ rounds, f.bytes.length - pre.length = rounds + 1 :=
    ⟨f.bytes.length - pre.length - 1, by omega⟩
  have split : iesBytes (pre ++ ie :: post) = iesBytes pre ++ (ie.bytes ++ iesBytes post) := by
    rw [iesBytes, flatMap_append, flatMap_cons]
    rfl
  rw [split] at length ies
  obtain ⟨here, -⟩ := stored_append.mp (stored_append.mp ies).2
  rw [length_append, length_append, length_ieBytes] at length
  rw [amlGetP2pIeOffset, walk, positive, ieLoop, if_pos (by omega), if_pos ((wfa_iff here).mp first)]

end Search

/-! ### Attributes -/

theorem length_attrBytes (a : Attr) : a.bytes.length = a.body.length + 3 := by
  rw [Attr.bytes, length_cons, length_append]
  show 2 + _ + 1 = _
  omega

theorem attrLoop_attrs {before after : List Attr} {a : Attr}
    (others : ∀ a ∈ before, a.id ≠ attrChannelList) (list : a.id = attrChannelList)
    (stored : Stored buf offset (attrsBytes (before ++ a :: after)))
    (short : (attrsBytes (before ++ a :: after)).length < 65536)
    (inside : offset + (attrsBytes (before ++ a :: after)).length ≤ frameLen)
    (enough : before.length < rounds) :
    attrLoop buf frameLen rounds offset = some (offset + (attrsBytes before).length) := by
  induction before generalizing offset rounds with
  | nil =>
    obtain _ | rounds := rounds
    · exact absurd enough (Nat.not_lt_zero _)
    have here := (stored_append.mp (show Stored buf offset (a.bytes ++ attrsBytes after) from stored)).1
    have length : (attrsBytes ([] ++ a :: after)).length = a.bytes.length + (attrsBytes after).length :=
      length_append
    have long := length_attrBytes a
    rw [attrLoop, if_pos (by omega), if_pos ((stored_cons.mp here).1.trans list)]
    rfl
  | cons b before ih =>
    obtain _ | rounds := rounds
    · exact absurd enough (Nat.not_lt_zero _)
    have whole : attrsBytes (b :: before ++ a :: after) = b.bytes ++ attrsBytes (before ++ a :: after) :=
      rfl
    rw [whole] at stored
    rw [whole, length_append] at short inside
    obtain ⟨here, behind⟩ := stored_append.mp stored
    obtain ⟨id, rest⟩ := stored_cons.mp here
    have length := length_attrBytes b
    have next : lenAt buf offset = b.body.length :=
      lenAt_stored (stored_append.mp rest).1 (by omega)
    have other : buf offset ≠ attrChannelList := by
      rw [id]
      exact others b mem_cons_self
    rw [attrLoop, if_pos (by omega), if_neg other, next, Nat.add_assoc, ← length,
      ih (fun c member => others c (mem_cons_of_mem b member)) behind (by omega) (by omega)
        (Nat.lt_of_succ_lt_succ enough)]
    refine congrArg some ?_
    show _ = offset + (b.bytes ++ attrsBytes before).length
    rw [length_append, Nat.add_assoc]

theorem length_le_attrsBytes (attrs : List Attr) : attrs.length ≤ (attrsBytes attrs).length := by
  induction attrs with
  | nil => exact Nat.le_refl _
  | cons a attrs ih =>
    show attrs.length + 1 ≤ (a.bytes ++ attrsBytes attrs).length
    rw [length_append, length_attrBytes]
    omega

/-! ### Entries -/

section Entries

variable {toBand : Byte → Option Nl80211Band} {target : Byte} {band : Nl80211Band} {peer5g : Bool}
  {e : ChanEntry} {es : List ChanEntry}

/-- **The entries the loop looks at**: not one that begins in the last three bytes. -/
def visited : List ChanEntry → List ChanEntry
  | [] => []
  | e :: es => if (entriesBytes (e :: es)).length ≤ 3 then [] else e :: visited es

theorem visited_cases (es : List ChanEntry) :
    visited es = es ∨ ∃ last, es = visited es ++ [last] ∧ last.chans.length ≤ 1 := by
  induction es with
  | nil => exact .inl rfl
  | cons e es ih =>
    have size : (entriesBytes (e :: es)).length = e.chans.length + 2 + (entriesBytes es).length :=
      length_append
    unfold visited
    split
    case isTrue few =>
      refine .inr ⟨e, ?_, by omega⟩
      obtain _ | ⟨e', es⟩ := es
      · rfl
      · have more : (entriesBytes (e' :: es)).length = e'.chans.length + 2 + (entriesBytes es).length :=
          length_append
        omega
    case isFalse =>
      refine ih.imp (congrArg _) fun ⟨last, whole, one⟩ => ⟨last, congrArg _ whole, one⟩

theorem length_visited_le (es : List ChanEntry) : (entriesBytes (visited es)).length ≤ (entriesBytes es).length := by
  rcases visited_cases es with all | ⟨last, whole, -⟩
  · rw [all]
  · conv => rhs; rw [whole]
    rw [entriesBytes, entriesBytes, flatMap_append, length_append]
    exact Nat.le_add_right _ _

theorem entriesBytes_reduceAll_cons {p : Nat} (stored : Stored buf p e.bytes) :
    entriesBytes (reduceAll toBand target band peer5g (e :: es)) = selectEntry toBand target band peer5g buf p ++
        entriesBytes (reduceAll toBand target band peer5g es) := by
  obtain ⟨operClass, rest⟩ := stored_cons.mp stored
  obtain ⟨number, chans⟩ := stored_cons.mp rest
  have number : (buf (p + 1)).toNat = e.chans.length := by rw [number, toNat_byte e.short]
  have verbatim : fetch buf p ((buf (p + 1)).toNat + 2) = e.bytes := by
    rw [number]
    exact stored.fetch
  have search : matchEntry target buf p = if target ∈ e.chans then [e.operClass, 1, target] else [] := by
    rw [matchEntry, number, operClass, show fetch buf (p + 2) e.chans.length = e.chans from chans.fetch]
  unfold reduceAll
  by_cases keep : band = .band5GHz ∧ peer5g = false ∧ toBand e.operClass = some .band2GHz
  · have kept : e.reduce toBand target band peer5g = some e := if_pos keep
    rw [List.filterMap_cons_some kept, selectEntry, if_pos keep.1,
      if_neg (by rw [keep.2.1]; exact Bool.false_ne_true), operClass, if_pos keep.2.2, verbatim]
    rfl
  · have same : selectEntry toBand target band peer5g buf p = matchEntry target buf p := by
      unfold selectEntry
      by_cases high : band = .band5GHz
      · rw [if_pos high]
        by_cases peer : peer5g = true
        · rw [if_pos peer]
        · rw [if_neg peer, operClass, if_neg fun low => keep ⟨high, Bool.not_eq_true _ ▸ peer, low⟩]
      · rw [if_neg high]
    rw [same, search]
    by_cases member : target ∈ e.chans
    · have kept : e.reduce toBand target band peer5g = some ⟨e.operClass, [target], show 1 < 256 by decide⟩ := by
        rw [ChanEntry.reduce, if_neg keep, if_pos member]
      rw [List.filterMap_cons_some kept, if_pos member]
      rfl
    · have gone : e.reduce toBand target band peer5g = none := by
        rw [ChanEntry.reduce, if_neg keep, if_neg member]
      rw [List.filterMap_cons_none gone, if_neg member]
      rfl

theorem rewriteLoop_past {len idx : Nat} {chanListBuf : List Byte} (past : len ≤ idx) :
    rewriteLoop toBand target band peer5g buf offset len rounds idx chanListBuf = some chanListBuf := by
  obtain _ | rounds := rounds
  · rfl
  · rw [rewriteLoop, if_neg (Nat.not_lt.mpr past)]

theorem rewriteLoop_entries {len idx : Nat} {chanListBuf : List Byte}
    (stored : Stored buf (offset + idx) (entriesBytes es))
    (upTo : idx + (entriesBytes es).length = len + 3) (enough : len ≤ rounds + idx)
    (room : chanListBuf.length ≤ chanListBufLen) :
    rewriteLoop toBand target band peer5g buf offset len rounds idx chanListBuf =
      if chanListBuf.length + (entriesBytes (reduceAll toBand target band peer5g (visited es))).length ≤
          chanListBufLen then
        some (chanListBuf ++ entriesBytes (reduceAll toBand target band peer5g (visited es)))
      else none := by
  have nothing : entriesBytes (reduceAll toBand target band peer5g []) = [] := rfl
  induction es generalizing idx rounds chanListBuf with
  | nil =>
    have past : len ≤ idx := by
      rw [show (entriesBytes []).length = 0 from rfl] at upTo
      omega
    rw [rewriteLoop_past past, visited, nothing, append_nil, length_nil, Nat.add_zero, if_pos room]
  | cons e es ih =>
    have size : (entriesBytes (e :: es)).length = e.bytes.length + (entriesBytes es).length :=
      length_append
    have long := e.length_bytes
    by_cases past : len ≤ idx
    · have few : visited (e :: es) = [] := if_pos (by omega)
      rw [rewriteLoop_past past, few, nothing, append_nil, length_nil, Nat.add_zero, if_pos room]
    obtain _ | rounds := rounds
    · exact absurd enough (by omega)
    obtain ⟨here, behind⟩ :=
      stored_append.mp (show Stored buf (offset + idx) (e.bytes ++ entriesBytes es) from stored)
    have number : (buf (offset + idx + 1)).toNat = e.chans.length := by
      obtain ⟨-, rest⟩ := stored_cons.mp here
      rw [(stored_cons.mp rest).1, toNat_byte e.short]
    have more : visited (e :: es) = e :: visited es := if_neg (by omega)
    rw [more, entriesBytes_reduceAll_cons here, rewriteLoop, if_pos (by omega), number]
    dsimp only
    generalize selectEntry toBand target band peer5g buf (offset + idx) = selected
    rw [length_append]
    rw [Nat.add_assoc, long, ← Nat.add_assoc idx] at behind
    by_cases fits : chanListBuf.length + selected.length ≤ chanListBufLen
    · rw [if_pos fits, ih behind (by omega) (by omega) (by rw [length_append]; exact fits),
        length_append, append_assoc, Nat.add_assoc]
    · rw [if_neg fits, if_neg (by omega)]

end Entries

/-! ### The new frame -/

/-- The bytes of a frame around its channel list `entries`, with the length of the element. -/
def framed (front : List Byte) (ieLen : Nat) (middle country entries rest : List Byte) : List Byte :=
  front ++ ([BitVec.ofNat 8 ieLen] ++ (middle ++ (le16 (entries.length + 3) ++ (country ++ (entries ++ rest)))))

theorem after_bytes (short : n + 3 < 256) :
    [((BitVec.ofNat 16 n + 3) &&& 0xff).setWidth 8, ((BitVec.ofNat 16 n + 3) >>> 0xff).setWidth 8] =
      le16 (n + 3) := by
  have sum : (BitVec.ofNat 16 n + 3).toNat = n + 3 := by
    rw [toNat_add, toNat_ofNat]
    show (n % 65536 + 3) % 65536 = n + 3
    omega
  have low : ((BitVec.ofNat 16 n + 3) &&& 0xff).setWidth 8 = BitVec.ofNat 8 (n + 3) := by
    apply BitVec.eq_of_toNat_eq
    rw [BitVec.toNat_setWidth, BitVec.toNat_and, sum, toNat_ofNat]
    show ((n + 3) &&& (2 ^ 8 - 1)) % 2 ^ 8 = _
    rw [Nat.and_two_pow_sub_one_eq_mod, Nat.mod_mod]
  have high : ((BitVec.ofNat 16 n + 3) >>> 0xff).setWidth 8 = BitVec.ofNat 8 ((n + 3) / 256) := by
    rw [BitVec.ushiftRight_eq_zero (by decide), Nat.div_eq_of_lt short]
    rfl
  rw [low, high, le16]

theorem toNat_lenDiff {k : Nat} (less : k ≤ n) (short : n + 3 < 256) :
    (BitVec.ofNat 16 (n + 3) - (BitVec.ofNat 16 k + 3)).toNat = n - k := by
  rw [BitVec.toNat_sub, toNat_add, toNat_ofNat, toNat_ofNat]
  show (65536 - (k % 65536 + 3) % 65536 + (n + 3) % 65536) % 65536 = _
  omega

theorem ofNat_sub_lenDiff {d : BitVec 16} (le : d.toNat ≤ n) :
    BitVec.ofNat 8 n - d.setWidth 8 = BitVec.ofNat 8 (n - d.toNat) := by
  apply BitVec.eq_of_toNat_eq
  rw [BitVec.toNat_sub, BitVec.toNat_setWidth, toNat_ofNat, toNat_ofNat]
  omega

variable {front middle country entries rest chanList : List Byte} {ieLen ieOffset : Nat}

theorem replaceList_nil : replaceList buf frameLen ieOffset offset [] = some (buf, 0) := by
  simp only [replaceList, put_nil]
  exact if_pos rfl

/-- **The frame behind a copy of what is left of the list.** -/
theorem replaceList_framed (stored : Stored buf 0 (framed front ieLen middle country entries rest))
    (three : country.length = 3) (short : entries.length + 3 < 256) (less : chanList.length ≤ entries.length)
    (some : chanList ≠ []) (inIe : entries.length ≤ ieLen) (element : ieOffset + 1 = front.length)
    (list : offset + 1 = front.length + 1 + middle.length)
    (whole : frameLen = (framed front ieLen middle country entries rest).length) :
    ∃ buf' lenDiff, replaceList buf frameLen ieOffset offset chanList = Option.some (buf', lenDiff) ∧
      lenDiff.toNat = entries.length - chanList.length ∧
      Stored buf' 0 (framed front (ieLen - (entries.length - chanList.length)) middle country chanList
        rest) := by
  have positive := List.length_pos_iff.mpr some
  have two : ∀ n, (le16 n).length = 2 := fun _ => rfl
  have total : frameLen = offset + (entries.length + 3) + 3 + rest.length := by
    rw [whole, framed]
    simp only [length_append, length_singleton, two]
    omega
  have ieLen_eq : ∀ {buf : Memory} {tail : List Byte}, Stored buf 0
      (front ++ ([BitVec.ofNat 8 ieLen] ++ (middle ++ (le16 (entries.length + 3) ++ tail)))) →
      lenAt buf offset = entries.length + 3 := fun {buf tail} stored => by
    obtain ⟨-, behind⟩ := stored_append.mp stored
    obtain ⟨-, behind⟩ := stored_append.mp behind
    obtain ⟨-, behind⟩ := stored_append.mp behind
    refine lenAt_stored ?_ (by omega)
    rw [show offset + 1 = 0 + front.length + [BitVec.ofNat 8 ieLen].length + middle.length by
      rw [list, Nat.zero_add]; rfl]
    exact (stored_append.mp behind).1
  have first := ieLen_eq stored
  -- What is left of the list, in the frame.
  have copied : Stored (put buf (offset + 6) chanList) 0 (front ++ ([BitVec.ofNat 8 ieLen] ++ (middle ++
      (le16 (entries.length + 3) ++ (country ++ (chanList ++ (entries.drop chanList.length ++ rest))))))) := by
    have cut : Stored buf 0 ((front ++ ([BitVec.ofNat 8 ieLen] ++ (middle ++
        (le16 (entries.length + 3) ++ country)))) ++ (entries.take chanList.length ++
          (entries.drop chanList.length ++ rest))) := by
      rw [framed] at stored
      rw [← append_assoc (entries.take _), List.take_append_drop]
      simpa only [append_assoc] using stored
    have done : Stored (put buf (offset + 6) chanList) 0 ((front ++ ([BitVec.ofNat 8 ieLen] ++ (middle ++
        (le16 (entries.length + 3) ++ country)))) ++ (chanList ++ (entries.drop chanList.length ++ rest))) :=
      cut.replace (by rw [List.length_take]; omega) (by simp only [length_append, length_singleton, two]; omega)
    simpa only [append_assoc] using done
  have second := ieLen_eq copied
  -- The length of the list.
  have listLen : Stored (put (put buf (offset + 6) chanList) (offset + 1) (le16 (chanList.length + 3))) 0
      (front ++ ([BitVec.ofNat 8 ieLen] ++ (middle ++ (le16 (chanList.length + 3) ++
        (country ++ (chanList ++ (entries.drop chanList.length ++ rest))))))) := by
    have cut : Stored (put buf (offset + 6) chanList) 0 ((front ++ ([BitVec.ofNat 8 ieLen] ++ middle)) ++
        (le16 (entries.length + 3) ++ (country ++ (chanList ++ (entries.drop chanList.length ++ rest))))) := by
      simpa only [append_assoc] using copied
    have done : Stored (put (put buf (offset + 6) chanList) (offset + 1) (le16 (chanList.length + 3))) 0
        ((front ++ ([BitVec.ofNat 8 ieLen] ++ middle)) ++ (le16 (chanList.length + 3) ++
          (country ++ (chanList ++ (entries.drop chanList.length ++ rest))))) :=
      cut.replace rfl (by simp only [length_append, length_singleton]; omega)
    simpa only [append_assoc] using done
  generalize diff : BitVec.ofNat 16 (entries.length + 3) - (BitVec.ofNat 16 chanList.length + 3) = d
  have shrunk : d.toNat = entries.length - chanList.length := diff ▸ toNat_lenDiff less short
  have after : (BitVec.ofNat 16 chanList.length + 3).toNat = chanList.length + 3 := by
    rw [toNat_add, toNat_ofNat]
    show (chanList.length % 65536 + 3) % 65536 = _
    omega
  generalize stored₂ : put (put buf (offset + 6) chanList) (offset + 1) (le16 (chanList.length + 3)) = buf₂ at listLen
  -- The length of the element.
  have byte : buf₂ (ieOffset + 1) = BitVec.ofNat 8 ieLen := by
    have here := stored_singleton.mp (stored_append.mp (stored_append.mp listLen).2).1
    rwa [element, ← Nat.zero_add front.length]
  have elementLen : Stored (put buf₂ (ieOffset + 1) [buf₂ (ieOffset + 1) - d.setWidth 8]) 0
      (framed front (ieLen - d.toNat) middle country chanList (entries.drop chanList.length ++ rest)) := by
    rw [byte, ofNat_sub_lenDiff (by omega), framed]
    exact listLen.replace rfl (by omega)
  generalize stored₃ : put buf₂ (ieOffset + 1) [buf₂ (ieOffset + 1) - d.setWidth 8] = buf₃ at elementLen
  -- The rest of the frame.
  have moved : fetch buf₃ (offset + (entries.length + 3) + 3) rest.length = rest := by
    have cut : Stored buf₃ 0 ((front ++ ([BitVec.ofNat 8 (ieLen - d.toNat)] ++ (middle ++
        (le16 (chanList.length + 3) ++ (country ++ (chanList ++ entries.drop chanList.length)))))) ++ rest) := by
      rw [framed] at elementLen
      simpa only [append_assoc] using elementLen
    have behind := (stored_append.mp cut).2
    refine Eq.trans ?_ behind.fetch
    refine congrArg (fetch buf₃ · rest.length) ?_
    simp only [length_append, length_singleton, two, List.length_drop]
    omega
  refine ⟨put buf₃ (offset + 3 + (chanList.length + 3)) rest, d, ?_, shrunk, ?_⟩
  · simp only [replaceList, first, second]
    rw [if_neg (by omega), if_neg (by omega), after_bytes (by omega), stored₂, diff, stored₃, after,
      show frameLen - offset - (entries.length + 3) - 3 = rest.length by omega, moved]
  · rw [← shrunk]
    have cut : Stored buf₃ 0 (front ++ ([BitVec.ofNat 8 (ieLen - d.toNat)] ++ (middle ++
        (le16 (chanList.length + 3) ++ (country ++ chanList))))) := by
      have both : Stored buf₃ 0 ((front ++ ([BitVec.ofNat 8 (ieLen - d.toNat)] ++ (middle ++
          (le16 (chanList.length + 3) ++ (country ++ chanList))))) ++ (entries.drop chanList.length ++ rest)) := by
        rw [framed] at elementLen
        simpa only [append_assoc] using elementLen
      exact (stored_append.mp both).1
    have done : Stored (put buf₃ (offset + 3 + (chanList.length + 3)) rest) 0
        ((front ++ ([BitVec.ofNat 8 (ieLen - d.toNat)] ++ (middle ++ (le16 (chanList.length + 3) ++
          (country ++ chanList))))) ++ rest) :=
      cut.overwrite (by simp only [length_append, length_singleton, two]; omega)
    rw [framed]
    simpa only [append_assoc] using done

/-! ### The frame around its channel list -/

section Listing

variable {toBand : Byte → Option Nl80211Band} {target : Byte} {band : Nl80211Band} {peer5g : Bool}
  {attrs before after : List Attr} {es : List ChanEntry} {f : P2pFrame} {pre post : List Ie}

theorem attrsList_eq_some (found : attrsList attrs = some es) :
    ∃ before country three after, attrs = before ++ .chanList country es three :: after ∧
      ∀ a ∈ before, a.id ≠ attrChannelList := by
  induction attrs with
  | nil => cases found
  | cons a attrs ih =>
    cases a with
    | chanList country entries three =>
      obtain rfl : entries = es := Option.some.inj found
      exact ⟨[], country, three, attrs, rfl, fun a member => absurd member List.not_mem_nil⟩
    | other id body other =>
      obtain ⟨before, country, three, after, rfl, others⟩ := ih found
      refine ⟨.other id body other :: before, country, three, after, rfl, fun a member => ?_⟩
      rcases List.mem_cons.mp member with rfl | later
      · exact other
      · exact others a later

theorem rewriteAttrs_append {country : List Byte} {three : country.length = 3}
    (others : ∀ a ∈ before, a.id ≠ attrChannelList) :
    rewriteAttrs toBand target band peer5g (before ++ .chanList country es three :: after) =
      before ++ .chanList country (if reduceAll toBand target band peer5g es = [] then es
          else reduceAll toBand target band peer5g es) three :: after := by
  induction before with
  | nil =>
    show rewriteAttrs toBand target band peer5g (.chanList country es three :: after) = _
    unfold rewriteAttrs
    split
    · rfl
    · rfl
  | cons a before ih =>
    cases a with
    | chanList country' es' three' => exact absurd rfl (others _ mem_cons_self)
    | other id body other =>
      show .other id body other :: rewriteAttrs toBand target band peer5g (before ++ _) = _
      rw [ih fun a member => others a (mem_cons_of_mem _ member)]
      rfl

theorem rewriteIes_append {rest : List Ie} (others : ∀ ie ∈ pre, ie.wfa = false) :
    rewriteIes toBand target band peer5g (pre ++ rest) = pre ++ rewriteIes toBand target band peer5g rest := by
  induction pre with
  | nil => rfl
  | cons ie pre ih =>
    have later := ih fun ie' member => others ie' (mem_cons_of_mem ie member)
    cases ie with
    | p2p attrs short => exact absurd (others _ mem_cons_self) (by simp [Ie.wfa, Ie.id, Ie.body, wfaOui])
    | other id body short vendor notP2p =>
      show Ie.other id body short vendor notP2p :: rewriteIes toBand target band peer5g (pre ++ rest) = _
      rw [later]
      rfl

theorem attrsBytes_split {country : List Byte} {three : country.length = 3} :
    attrsBytes (before ++ .chanList country es three :: after) = attrsBytes before ++
      (attrChannelList :: (le16 ((entriesBytes es).length + 3) ++ (country ++ entriesBytes es)) ++
        attrsBytes after) := by
  unfold attrsBytes
  rw [flatMap_append, flatMap_cons]
  show _ ++ (attrChannelList :: (le16 (country ++ entriesBytes es).length ++ (country ++ entriesBytes es)) ++ _) = _
  rw [length_append, three, Nat.add_comm 3]

theorem length_attrsBytes {country : List Byte} {three : country.length = 3} :
    (attrsBytes (before ++ .chanList country es three :: after)).length =
      (attrsBytes before).length + 6 + (entriesBytes es).length + (attrsBytes after).length := by
  rw [attrsBytes_split]
  simp only [length_append, length_cons, length_nil, le16, three]
  omega

theorem bytes_framed {country : List Byte} {three : country.length = 3}
    {short : 4 + (attrsBytes (before ++ .chanList country es three :: after)).length < 256}
    (whole : f.ies = pre ++ .p2p (before ++ .chanList country es three :: after) short :: post) :
    f.bytes = framed (f.header ++ (iesBytes pre ++ [attrVendorSpecific]))
      (10 + (attrsBytes before).length + (entriesBytes es).length + (attrsBytes after).length)
      (wfaOui ++ p2pType :: (attrsBytes before ++ [attrChannelList])) country (entriesBytes es)
      (attrsBytes after ++ iesBytes post) := by
  have length : (wfaOui ++ p2pType :: attrsBytes (before ++ .chanList country es three :: after)).length =
      10 + (attrsBytes before).length + (entriesBytes es).length + (attrsBytes after).length := by
    rw [length_append, length_cons, length_attrsBytes]
    show 3 + _ = _
    omega
  rw [P2pFrame.bytes, whole, iesBytes, flatMap_append, flatMap_cons, framed, ← length]
  show f.header ++ (iesBytes pre ++ (attrVendorSpecific :: BitVec.ofNat 8 (wfaOui ++ p2pType ::
    attrsBytes (before ++ .chanList country es three :: after)).length :: (wfaOui ++ p2pType ::
      attrsBytes (before ++ .chanList country es three :: after)) ++ iesBytes post)) = _
  generalize BitVec.ofNat 8 (wfaOui ++ p2pType ::
    attrsBytes (before ++ .chanList country es three :: after)).length = len
  rw [attrsBytes_split]
  simp only [append_assoc, List.cons_append, List.nil_append]

def P2pFrame.listing (f : P2pFrame) : Option (List ChanEntry) :=
  match f.ies.find? Ie.wfa with
  | some (.p2p attrs _) => attrsList attrs
  | _ => none

/-- **Where the channel list is.** -/
structure ListAt (f : P2pFrame) (pre : List Ie) (before : List Attr) (country : List Byte)
    (es : List ChanEntry) (three : country.length = 3) (after : List Attr) (post : List Ie) : Prop where
  short : 4 + (attrsBytes (before ++ .chanList country es three :: after)).length < 256
  whole : f.ies = pre ++ .p2p (before ++ .chanList country es three :: after) short :: post
  others : ∀ ie ∈ pre, ie.wfa = false
  before : ∀ a ∈ before, a.id ≠ attrChannelList

theorem listing_eq_some (found : f.listing = some es) :
    ∃ pre before country three after post, ListAt f pre before country es three after post := by
  unfold P2pFrame.listing at found
  cases first : f.ies.find? Ie.wfa with
  | none => rw [first] at found; cases found
  | some ie =>
    rw [first] at found
    obtain ⟨-, pre, post, whole, others⟩ := List.find?_eq_some_iff_append.mp first
    cases ie with
    | other id body short vendor notP2p => cases found
    | p2p attrs short =>
      obtain ⟨before, country, three, after, rfl, notList⟩ := attrsList_eq_some found
      exact ⟨pre, before, country, three, after, post, short, whole,
        fun ie member => by simpa using others ie member, notList⟩

variable {country : List Byte} {three : country.length = 3}

theorem amlChangeP2pChanlist_listAt (stored : Stored buf 0 f.bytes)
    (listAt : ListAt f pre before country es three after post) :
    amlChangeP2pChanlist toBand target band peer5g buf f.bytes.length =
      if (entriesBytes (reduceAll toBand target band peer5g (visited es))).length ≤ chanListBufLen then
        replaceList buf f.bytes.length (32 + (iesBytes pre).length)
          (32 + (iesBytes pre).length + 6 + (attrsBytes before).length)
          (entriesBytes (reduceAll toBand target band peer5g (visited es)))
      else none := by
  obtain ⟨short, whole, others, notList⟩ := listAt
  have element := amlGetP2pIeOffset_wfa stored whole others rfl
  have length := length_frame f
  have ies := stored_ies stored
  rw [whole] at length ies
  have split : iesBytes (pre ++ .p2p (before ++ .chanList country es three :: after) short :: post) =
      iesBytes pre ++ (attrVendorSpecific :: BitVec.ofNat 8 (wfaOui ++ p2pType ::
        attrsBytes (before ++ .chanList country es three :: after)).length ::
          (wfaOui ++ p2pType :: attrsBytes (before ++ .chanList country es three :: after)) ++ iesBytes post) := by
    rw [iesBytes, flatMap_append, flatMap_cons]
    rfl
  rw [split] at length ies
  -- The attributes, behind six bytes of the element.
  have attrs : Stored buf (32 + (iesBytes pre).length + 6)
      (attrsBytes (before ++ .chanList country es three :: after)) := by
    have here := (stored_append.mp (stored_append.mp ies).2).1
    have body := (stored_cons.mp (stored_cons.mp here).2).2
    exact (stored_cons.mp (stored_append.mp body).2).2
  have inside : 32 + (iesBytes pre).length + 6 +
      (attrsBytes (before ++ .chanList country es three :: after)).length ≤ f.bytes.length := by
    rw [length]
    simp only [length_append, length_cons, wfaOui, length_nil]
    omega
  have few := length_le_attrsBytes (before ++ .chanList country es three :: after)
  rw [length_append, length_cons] at few
  have search := attrLoop_attrs notList rfl attrs (by omega) inside (by omega : before.length < f.bytes.length)
  -- The channel list.
  rw [length_attrsBytes] at short
  rw [attrsBytes_split] at attrs
  obtain ⟨-, list⟩ := stored_cons.mp (stored_append.mp (stored_append.mp attrs).2).1
  obtain ⟨len, body⟩ := stored_append.mp list
  have entries := (stored_append.mp body).2
  rw [three] at entries
  have ieLen := lenAt_stored len (by omega)
  have loop : amlSccP2pRewriteChanList toBand target band peer5g buf
      (32 + (iesBytes pre).length + 6 + (attrsBytes before).length) = if ([] : List Byte).length +
            (entriesBytes (reduceAll toBand target band peer5g (visited es))).length ≤ chanListBufLen then
          some ([] ++ entriesBytes (reduceAll toBand target band peer5g (visited es)))
        else none := by
    rw [amlSccP2pRewriteChanList, ieLen]
    exact rewriteLoop_entries entries (by omega) (by omega) (Nat.zero_le _)
  rw [amlChangeP2pChanlist, element]
  simp only [search]
  rw [if_neg (by omega), loop, length_nil, Nat.zero_add, List.nil_append]
  split
  · rfl
  · rfl

theorem p2p_congr {attrs attrs' : List Attr} (same : attrs = attrs')
    {short : 4 + (attrsBytes attrs).length < 256} {short' : 4 + (attrsBytes attrs').length < 256} :
    Ie.p2p attrs short = Ie.p2p attrs' short' := by
  subst same
  rfl

theorem attrsList_append (notList : ∀ a ∈ before, a.id ≠ attrChannelList) :
    attrsList (before ++ .chanList country es three :: after) = some es := by
  induction before with
  | nil => rfl
  | cons a before ih =>
    cases a with
    | chanList country' es' three' => exact absurd rfl (notList _ mem_cons_self)
    | other id body other => exact ih fun a member => notList a (mem_cons_of_mem _ member)

theorem ListAt.rewrite (listAt : ListAt f pre before country es three after post) :
    ListAt (f.rewrite toBand target band peer5g) pre before country
      (if reduceAll toBand target band peer5g es = [] then es
        else reduceAll toBand target band peer5g es) three after post := by
  obtain ⟨short, whole, others, notList⟩ := listAt
  have attrs : rewriteAttrs toBand target band peer5g (before ++ .chanList country es three :: after) = _ :=
    rewriteAttrs_append notList
  have less := length_rewriteAttrs_le toBand target band peer5g (before ++ .chanList country es three :: after)
  rw [attrs] at less
  refine ⟨by omega, ?_, others, notList⟩
  show rewriteIes toBand target band peer5g f.ies = _
  rw [whole, rewriteIes_append others]
  refine congrArg (pre ++ ·) ?_
  unfold rewriteIes
  rw [if_neg (by rw [attrsList_append notList]; exact Option.some_ne_none es)]
  refine congrArg (· :: post) ?_
  exact p2p_congr attrs

theorem reduceAll_append (es es' : List ChanEntry) : reduceAll toBand target band peer5g (es ++ es') =
      reduceAll toBand target band peer5g es ++ reduceAll toBand target band peer5g es' :=
  List.filterMap_append

theorem entriesBytes_append (es es' : List ChanEntry) :
    entriesBytes (es ++ es') = entriesBytes es ++ entriesBytes es' := flatMap_append

theorem entriesBytes_singleton (e : ChanEntry) : entriesBytes [e] = e.bytes := List.flatMap_singleton ..

theorem entriesBytes_eq_nil : entriesBytes es = [] ↔ es = [] := by
  refine ⟨fun none => ?_, fun none => none ▸ rfl⟩
  cases es with
  | nil => rfl
  | cons e es => cases none

theorem reduce_single {last e : ChanEntry} (one : last.chans.length ≤ 1)
    (left : last.reduce toBand target band peer5g = some e) : e = last := by
  unfold ChanEntry.reduce at left
  split at left
  · exact (Option.some.inj left).symm
  · split at left
    case isTrue member =>
      obtain rfl := Option.some.inj left
      obtain ⟨operClass, chans, short⟩ := last
      have positive := List.length_pos_of_mem member
      obtain ⟨chan, rfl⟩ := List.length_eq_one_iff.mp (Nat.le_antisymm one positive)
      rw [List.mem_singleton.mp member]
    case isFalse => cases left

theorem visited_concat {init : List ChanEntry} {last : ChanEntry} (one : last.chans.length ≤ 1) :
    visited (init ++ [last]) = init := by
  induction init with
  | nil =>
    refine if_pos ?_
    rw [entriesBytes_singleton, last.length_bytes]
    omega
  | cons e init ih =>
    have size : (entriesBytes (e :: (init ++ [last]))).length =
        e.chans.length + 2 + ((entriesBytes init).length + (last.chans.length + 2)) := by
      show (e.bytes ++ entriesBytes (init ++ [last])).length = _
      rw [entriesBytes_append, entriesBytes_singleton, length_append, length_append]
      rfl
    show visited (e :: (init ++ [last])) = _
    rw [visited, if_neg (by omega), ih]

end Listing

/-! ### When the frame is right -/

theorem Stored.unique {off : Nat} {xs ys : List Byte} (first : Stored buf off xs)
    (second : Stored buf off ys) (same : xs.length = ys.length) : xs = ys := by
  rw [← first.fetch, ← second.fetch, same]

section Result

variable (toBand : Byte → Option Nl80211Band) (target : Byte) (band : Nl80211Band) (peer5g : Bool)

/-- An entry of at most one channel at the end, behind others, is not one that is kept. -/
def LastUnmatched (es : List ChanEntry) : Prop :=
  ∀ init last, es = init ++ [last] → init ≠ [] → last.chans.length ≤ 1 → last.reduce toBand target band peer5g = none

def ListRight (f : P2pFrame) : Prop :=
  match f.listing with
  | some es => LastUnmatched toBand target band peer5g es ∧
      (entriesBytes (reduceAll toBand target band peer5g (visited es))).length ≤ chanListBufLen
  | none => (f.rewrite toBand target band peer5g).bytes = f.bytes

/-- Where the first element with the organisation of P2P has no channel list, the search does not
find one behind it. -/
def SearchRight (f : P2pFrame) (buf : Memory) : Prop :=
  f.listing = none → amlGetP2pIeOffset buf f.bytes.length ≠ 0 →
    attrLoop buf f.bytes.length f.bytes.length (amlGetP2pIeOffset buf f.bytes.length + 6) = none

variable {toBand target band peer5g}
variable {f : P2pFrame} {pre post : List Ie} {before after : List Attr} {country : List Byte}
  {three : country.length = 3} {es : List ChanEntry}

theorem right_unchanged {buf' : Memory} (stored : Stored buf' 0 f.bytes)
    (ran : amlChangeP2pChanlist toBand target band peer5g buf f.bytes.length = some (buf', 0)) :
    Right toBand target band peer5g f buf ↔ (f.rewrite toBand target band peer5g).bytes = f.bytes := by
  constructor
  · rintro ⟨buf'', lenDiff, ran', rewritten, length⟩
    rw [ran] at ran'
    obtain ⟨rfl, rfl⟩ : buf' = buf'' ∧ 0 = lenDiff := by simpa using ran'
    exact Stored.unique rewritten stored length
  · intro same
    exact ⟨buf', 0, ran, same ▸ stored, by rw [same]; rfl⟩

theorem LastUnmatched.reduceAll (unmatched : LastUnmatched toBand target band peer5g es) :
    reduceAll toBand target band peer5g (visited es) = reduceAll toBand target band peer5g es ∨
      visited es = [] ∧ reduceAll toBand target band peer5g es = es := by
  rcases visited_cases es with all | ⟨last, whole, one⟩
  · exact .inl (by rw [all])
  have tail : P2p.reduceAll toBand target band peer5g es = P2p.reduceAll toBand target band peer5g (visited es) ++
        P2p.reduceAll toBand target band peer5g [last] := by rw [← reduceAll_append, ← whole]
  cases left : last.reduce toBand target band peer5g with
  | none =>
    refine .inl ?_
    rw [tail, show P2p.reduceAll toBand target band peer5g [last] = [] from
      List.filterMap_cons_none left, append_nil]
  | some e =>
    obtain rfl := reduce_single one left
    by_cases alone : visited es = []
    · refine .inr ⟨alone, ?_⟩
      rw [tail, alone, show P2p.reduceAll toBand target band peer5g [e] = [e] from
        List.filterMap_cons_some left]
      rw [alone] at whole
      exact whole.symm
    · rw [unmatched _ e whole alone one] at left
      cases left

theorem length_reduceAll_lost {init : List ChanEntry} {last : ChanEntry} (one : last.chans.length ≤ 1)
    (kept : last.reduce toBand target band peer5g ≠ none) :
    (entriesBytes (reduceAll toBand target band peer5g (init ++ [last]))).length =
      (entriesBytes (reduceAll toBand target band peer5g (visited (init ++ [last])))).length + last.bytes.length := by
  obtain ⟨e, left⟩ := Option.ne_none_iff_exists'.mp kept
  obtain rfl := reduce_single one left
  rw [visited_concat one, reduceAll_append, entriesBytes_append, length_append,
    show reduceAll toBand target band peer5g [e] = [e] from List.filterMap_cons_some left,
    entriesBytes_singleton]

theorem length_framed {front middle country entries rest : List Byte} {ieLen : Nat} :
    (framed front ieLen middle country entries rest).length =
      front.length + 1 + middle.length + 2 + country.length + entries.length + rest.length := by
  have two : ∀ n, (le16 n).length = 2 := fun _ => rfl
  rw [framed]
  simp only [length_append, length_singleton, two]
  omega

/-- **When a frame with a channel list is right.** -/
theorem right_listAt_iff (stored : Stored buf 0 f.bytes)
    (listAt : ListAt f pre before country es three after post) :
    Right toBand target band peer5g f buf ↔ LastUnmatched toBand target band peer5g es ∧
      (entriesBytes (reduceAll toBand target band peer5g (visited es))).length ≤ chanListBufLen := by
  have ran : amlChangeP2pChanlist toBand target band peer5g buf f.bytes.length = _ :=
    amlChangeP2pChanlist_listAt stored listAt
  by_cases fits : (entriesBytes (reduceAll toBand target band peer5g (visited es))).length ≤ chanListBufLen
  swap
  · rw [if_neg fits] at ran
    refine ⟨fun ⟨buf', lenDiff, ran', _⟩ => ?_, fun right => absurd right.2 fits⟩
    rw [ran] at ran'
    cases ran'
  rw [if_pos fits] at ran
  have frame := bytes_framed listAt.whole
  have rewritten : (f.rewrite toBand target band peer5g).bytes = _ := bytes_framed listAt.rewrite.whole
  have header : (f.rewrite toBand target band peer5g).header = f.header := rfl
  -- An entry that is kept and not looked at shows in the length of the new frame.
  have lost : ∀ {init last}, es = init ++ [last] → last.chans.length ≤ 1 →
      last.reduce toBand target band peer5g ≠ none →
      (f.rewrite toBand target band peer5g).bytes.length + (entriesBytes es).length =
        f.bytes.length + (entriesBytes (reduceAll toBand target band peer5g (visited es))).length +
          last.bytes.length ∧ (entriesBytes es).length = (entriesBytes init).length + last.bytes.length := by
    intro init last whole one kept
    have length : (entriesBytes (reduceAll toBand target band peer5g es)).length =
        (entriesBytes (reduceAll toBand target band peer5g (visited es))).length + last.bytes.length := by
      rw [whole]
      exact length_reduceAll_lost one kept
    have more : reduceAll toBand target band peer5g es ≠ [] := fun none => by
      rw [none, last.length_bytes, show (entriesBytes []).length = 0 from rfl] at length
      omega
    rw [rewritten, frame, length_framed, length_framed, if_neg more, length, header]
    refine ⟨by omega, ?_⟩
    rw [whole, entriesBytes_append, entriesBytes_singleton, length_append]
  by_cases empty : reduceAll toBand target band peer5g (visited es) = []
  · rw [empty] at ran
    have run : amlChangeP2pChanlist toBand target band peer5g buf f.bytes.length = some (buf, 0) := by
      rw [ran, show entriesBytes [] = [] from rfl, replaceList_nil]
    rw [right_unchanged stored run]
    constructor
    · intro same
      refine ⟨fun init last whole more one => by_contra fun kept => ?_, fits⟩
      obtain ⟨new, old⟩ := lost whole one kept
      have positive := List.length_pos_iff.mpr (mt entriesBytes_eq_nil.mp more)
      rw [same, empty, show (entriesBytes []).length = 0 from rfl] at new
      omega
    · rintro ⟨unmatched, -⟩
      have kept : (if reduceAll toBand target band peer5g es = [] then es
          else reduceAll toBand target band peer5g es) = es := by
        rcases unmatched.reduceAll with all | ⟨-, all⟩
        · exact if_pos (all ▸ empty)
        · rw [all]
          exact ite_self es
      rw [rewritten, frame, kept, header]
  · have short := listAt.short
    rw [length_attrsBytes] at short
    have less := (length_reduceAll_le toBand target band peer5g (visited es)).trans (length_visited_le es)
    have element : 32 + (iesBytes pre).length + 1 = (f.header ++ (iesBytes pre ++ [attrVendorSpecific])).length := by
      rw [length_append, length_append, f.headerLength, length_singleton, Nat.add_assoc]
    have list : 32 + (iesBytes pre).length + 6 + (attrsBytes before).length + 1 =
        (f.header ++ (iesBytes pre ++ [attrVendorSpecific])).length + 1 +
          (wfaOui ++ p2pType :: (attrsBytes before ++ [attrChannelList])).length := by
      rw [← element]
      simp only [wfaOui, length_append, length_cons, length_nil]
      omega
    obtain ⟨buf', lenDiff, run, diff, moved⟩ := replaceList_framed (frame ▸ stored) three (by omega) less
      (mt entriesBytes_eq_nil.mp empty) (by omega) element list (congrArg List.length frame)
    rw [run] at ran
    constructor
    · rintro ⟨buf'', lenDiff', ran', -, length⟩
      rw [ran] at ran'
      obtain ⟨rfl, rfl⟩ : buf' = buf'' ∧ lenDiff = lenDiff' := by simpa using ran'
      refine ⟨fun init last whole more one => by_contra fun kept => ?_, fits⟩
      obtain ⟨new, old⟩ := lost whole one kept
      have size := last.length_bytes
      omega
    · rintro ⟨unmatched, -⟩
      have all : reduceAll toBand target band peer5g (visited es) = reduceAll toBand target band peer5g es :=
        unmatched.reduceAll.resolve_right fun ⟨nothing, _⟩ => empty (by rw [nothing]; rfl)
      rw [all] at empty diff moved less
      rw [if_neg empty] at rewritten
      refine ⟨buf', lenDiff, ran, ?_, ?_⟩
      · rw [rewritten]
        rw [show 10 + (attrsBytes before).length + (entriesBytes es).length + (attrsBytes after).length -
          ((entriesBytes es).length - (entriesBytes (reduceAll toBand target band peer5g es)).length) =
            10 + (attrsBytes before).length +
              (entriesBytes (reduceAll toBand target band peer5g es)).length + (attrsBytes after).length
          by omega] at moved
        exact moved
      · rw [rewritten, frame, length_framed, length_framed, header]
        omega

/-- **When the frame in the buffer is right**, if the search comes to a channel list or to none. -/
theorem chanlist_right_iff {toBand : Byte → Option Nl80211Band} {target : Byte} {band : Nl80211Band}
    {peer5g : Bool} {f : P2pFrame} {buf : Memory} (stored : Stored buf 0 f.bytes)
    (search : SearchRight f buf) :
    Right toBand target band peer5g f buf ↔ ListRight toBand target band peer5g f := by
  cases listing : f.listing with
  | some es =>
    obtain ⟨pre, before, country, three, after, post, listAt⟩ := listing_eq_some listing
    rw [right_listAt_iff stored listAt, ListRight, listing]
  | none =>
    rw [ListRight, listing]
    refine right_unchanged stored ?_
    simp only [amlChangeP2pChanlist]
    by_cases nowhere : amlGetP2pIeOffset buf f.bytes.length = 0
    · rw [if_pos nowhere]
    · rw [if_neg nowhere, search listing nowhere]

end Result

/-! ### A frame whose last entry is lost -/

/-- `ieee80211_operating_class_to_band`. -/
def sampleToBand (operClass : Byte) : Option Nl80211Band :=
  if operClass = 112 ∨ 115 ≤ operClass ∧ operClass ≤ 130 then some .band5GHz
  else if 131 ≤ operClass ∧ operClass ≤ 135 ∨ operClass = 137 then some .band6GHz
  else if 81 ≤ operClass ∧ operClass ≤ 84 then some .band2GHz
  else if operClass = 180 then some .band60GHz
  else none

/-- The channels 1 and 6, and some at 5 GHz. -/
def sampleList (chans : List Byte) (short : chans.length < 9) : Attr :=
  .chanList [0x58, 0x58, 4] [⟨81, [1, 6], by decide⟩, ⟨115, chans, by omega⟩] rfl

/-- A GO negotiation request for them. -/
def sampleFrame (chans : List Byte) (short : chans.length < 9) : P2pFrame where
  header := [0xd0, 0, 0, 0, 2, 0, 0, 0, 0, 1, 2, 0, 0, 0, 0, 2, 2, 0, 0, 0, 0, 1, 0, 0,
    4, 9, 0x50, 0x6f, 0x9a, 9, 0, 1]
  ies := [.p2p [sampleList chans short]
    (by simp [sampleList, attrsBytes, Attr.bytes, Attr.body, entriesBytes, ChanEntry.bytes, le16]; omega)]
  headerLength := rfl

def sampleMemory (f : P2pFrame) : Memory := fun k => f.bytes.getD k 0

theorem sampleMemory_stored (f : P2pFrame) : Stored (sampleMemory f) 0 f.bytes := fun k inside => by
  rw [sampleMemory, Nat.zero_add, List.getD_eq_getElem?_getD, List.getElem?_eq_getElem inside, Option.getD_some]

/-- **The only channel of the last entry is the target, and the frame is left as it is.** -/
theorem chanlist_last_lost : ¬ ∀ f buf, Stored buf 0 f.bytes → Right sampleToBand 36 .band5GHz true f buf := by
  intro all
  obtain ⟨buf', lenDiff, ran, -, length⟩ :=
    all (sampleFrame [36] (by decide)) _ (sampleMemory_stored _)
  have unchanged : (amlChangeP2pChanlist sampleToBand 36 .band5GHz true
      (sampleMemory (sampleFrame [36] (by decide))) (sampleFrame [36] (by decide)).bytes.length).map
        Prod.snd = some 0 := by decide +kernel
  rw [ran] at unchanged
  obtain rfl : lenDiff = 0 := Option.some.inj unchanged
  revert length
  decide +kernel

theorem chanlist_right_sample : Right sampleToBand 36 .band5GHz true
    (sampleFrame [36, 40] (by decide)) (sampleMemory (sampleFrame [36, 40] (by decide))) := by
  refine (chanlist_right_iff (sampleMemory_stored _) fun none => ?_).mpr ⟨fun init last whole _ one => ?_, ?_⟩
  · cases none
  · have last_eq := congrArg List.getLast? whole
    rw [List.getLast?_concat] at last_eq
    obtain rfl := Option.some.inj last_eq
    exact absurd one (by decide)
  · decide

end W2l.P2p
