/-
**The length of the radiotap header.**

`aml_rx_rtap_hdrlen`, `aml_rx_add_rtap_hdr`, and their callers `aml_rx_monitor` and
`aml_unsup_rx_vec_ind` (`fullmac/aml_rx.c`). One function counts the bytes of the radiotap header of a
received frame, the other writes them; on a frame that is not supported, without `hwvect`, six more bytes
of vendor data follow, aligned to two.

* `rtapHdrlen`, `addRtapHdr` — the two functions; of the second one the layout and the present words.
* `RtapExact` — the header has the length that was counted, and its fields are aligned.
* `Counted` — **the vectors for which the two agree**.
-/

import W2lDriver.Lib.Layout

namespace W2l.Rx

open Lib

/-! ### The receive vector -/

/-- `FORMATMOD_NON_HT_DUP_OFDM` and the formats above it. -/
def formatmodNonHtDupOfdm : ℕ := 1
def formatmodHtMf : ℕ := 2
def formatmodHtGf : ℕ := 3
def formatmodVht : ℕ := 4
def formatmodHeSu : ℕ := 5

def phyChnlBw40 : BitVec 3 := 1

def ieee80211MaxChains : ℕ := 4

/-- The part of `struct rx_vector_1` that decides the layout. -/
structure RxVector1 where
  formatMod : BitVec 4
  chBw : BitVec 3
  antennaSet : BitVec 8
  legRate : BitVec 4
  /-- `ht.aggregation`. -/
  aggregation : Bool

/-- `hweight8`, and `hweight32` of a byte. -/
def hweight8 (x : BitVec 8) : ℕ := ((List.range 8).filter (x.getLsbD ·)).length

/-- `legrates_lut[].idx`, without the rates that are `-1`. -/
def legratesLut : List (Option ℕ) :=
  [some 0, some 1, some 2, some 3, none, none, none, none,
    some 10, some 8, some 6, some 4, some 11, some 9, some 7, some 5]

/-- The formats of HT frames, and the aggregation as both functions compute it. -/
def isHt (format : ℕ) : Bool := format = formatmodHtMf ∨ format = formatmodHtGf

def aggregated (format : ℕ) (aggregation : Bool) : Bool :=
  format ≥ formatmodVht ∨ (format > formatmodNonHtDupOfdm ∧ aggregation = true)

namespace RxVector1

variable (v : RxVector1)

def format : ℕ := v.formatMod.toNat

def antennas : ℕ := hweight8 v.antennaSet

/-- `for_each_set_bit(chain, &chains, IEEE80211_MAX_CHAINS)`. -/
def chains : List ℕ := (List.range ieee80211MaxChains).filter (v.antennaSet.getLsbD ·)

/-- `legrates_idx`, where the rate is that of a legacy frame. -/
def legratesIdx : Option ℕ := legratesLut[v.legRate.toNat]?.join

end RxVector1

/-! ### The count -/

/-- What a `u8` keeps. -/
def u8 (n : ℕ) : ℕ := n % 256

/-- `aml_rx_rtap_hdrlen`, by the weight of `antenna_set`, the format and the aggregation. -/
def rtapCounted (antennas format : ℕ) (aggregation hasVendRtap : Bool) : ℕ :=
  let len := u8 (8 + 8)
  let len := if antennas > 1 then u8 (len + 4 * antennas) else len
  let len := if hasVendRtap then len else u8 (u8 (alignUp 8 len) + 8)
  let len := u8 (len + 1)
  let len := if antennas = 1 then u8 (len + 1) else len
  let len := u8 (alignUp 2 len)
  let len := if isHt format then u8 (len + 3) else len
  let len := if !hasVendRtap && aggregated format aggregation then u8 (u8 (alignUp 4 len) + 8) else len
  let len := if format = formatmodVht then u8 (u8 (alignUp 2 len) + 12) else len
  let len := if format = formatmodHeSu then u8 (u8 (alignUp 2 len) + 12) else len
  let len := if antennas > 1 then u8 (len + 2 * antennas) else len
  if hasVendRtap then u8 (alignUp 2 (u8 (len + 4))) else len

/-- `aml_rx_rtap_hdrlen`. -/
def rtapHdrlen (v : RxVector1) (hasVendRtap : Bool) : ℕ :=
  rtapCounted v.antennas v.format v.aggregation hasVendRtap

/-! ### The header -/

/-- The fields of the header. -/
inductive RtapField
  | tsft | flags | rate | channel | dbmAntsignal | antenna | rxFlags | mcs | ampduStatus | vht | he
  deriving DecidableEq

/-- The bit of a field in a present word, `IEEE80211_RADIOTAP_*`. -/
def RtapField.bit : RtapField → ℕ
  | .tsft => 0
  | .flags => 1
  | .rate => 2
  | .channel => 3
  | .dbmAntsignal => 5
  | .antenna => 11
  | .rxFlags => 14
  | .mcs => 19
  | .ampduStatus => 20
  | .vht => 21
  | .he => 23

def RtapField.align : RtapField → ℕ
  | .tsft => 8
  | .ampduStatus => 4
  | .channel | .rxFlags | .vht | .he => 2
  | .flags | .rate | .dbmAntsignal | .antenna | .mcs => 1

/-- `struct ieee80211_radiotap_header`, the present words, and the layout behind them. -/
structure Rtap where
  itLen : BitVec 16
  itPresent : List (BitVec 32)
  cursor : Cursor RtapField

namespace Rtap

variable (r : Rtap)

/-- A field, and its bit in the first present word. -/
def put (field : RtapField) (size : ℕ) : Rtap :=
  { r with
    itPresent := r.itPresent.modifyHead (· ||| 1 <<< field.bit)
    cursor := r.cursor.put field size }

/-- The two fields of a chain; their bits stand in a present word of their own. -/
def putChain : Rtap := { r with cursor := (r.cursor.put .dbmAntsignal 1).put .antenna 1 }

def pad (a : ℕ) : Rtap := { r with cursor := r.cursor.pad a }

def skip (n : ℕ) : Rtap := { r with cursor := r.cursor.skip n }

/-- `if (c)`. -/
def when (c : Prop) [Decidable c] (f : Rtap → Rtap) : Rtap := if c then f r else r

end Rtap

/-- `IEEE80211_RADIOTAP_EXT` and the two namespaces. -/
def radiotapExt : BitVec 32 := 1 <<< 31
def radiotapNamespace : BitVec 32 := 1 <<< 29
def vendorNamespace : BitVec 32 := 1 <<< 30

def chainPresent : BitVec 32 := 1 <<< RtapField.antenna.bit ||| 1 <<< RtapField.dbmAntsignal.bit

/-- The words stored at `it_present`: those before the last one, and the last one. -/
def chainWords (v : RxVector1) : List (BitVec 32) × BitVec 32 :=
  if v.antennas > 1 then
    v.chains.foldl (fun w _ => (w.1 ++ [w.2 ||| radiotapExt ||| radiotapNamespace], chainPresent)) ([], 0)
  else ([], 0)

def presentWords (v : RxVector1) (vendRtapLen : ℕ) (vendItPresent : BitVec 32) : List (BitVec 32) :=
  let w := chainWords v
  if vendRtapLen = 0 then w.1 ++ [w.2]
  else w.1 ++ [w.2 ||| vendorNamespace ||| radiotapExt] ++ [vendItPresent]

/-- `aml_rx_add_rtap_hdr`, to the time stamp. -/
def rtapStart (v : RxVector1) (hwvect : Bool) (rtapLen vendRtapLen : ℕ) (vendItPresent : BitVec 32) : Rtap :=
  let words := presentWords v vendRtapLen vendItPresent
  let r : Rtap :=
    { itLen := BitVec.ofNat 16 (rtapLen + vendRtapLen)
      itPresent := words
      cursor := { pos := 4 + 4 * words.length } }
  r.when (hwvect = true) fun r => (r.pad 8).put .tsft 8

/-- From the flags to those of the reception. -/
def rtapRx (v : RxVector1) (r : Rtap) : Rtap :=
  let r := r.put .flags 1
  -- the byte of the rate is written for every format
  let r := if v.format ≤ formatmodNonHtDupOfdm then r.put .rate 1 else r.skip 1
  let r := r.put .channel 4
  let r := r.when (v.antennas = 1) fun r => (r.put .dbmAntsignal 1).put .antenna 1
  (r.pad 2).put .rxFlags 2

def rtapFormat (v : RxVector1) (hwvect : Bool) (r : Rtap) : Rtap :=
  -- a byte is left out behind `IEEE80211_RADIOTAP_MCS_HAVE_*`
  let r := r.when (isHt v.format = true) fun r => r.put .mcs 4
  let r := r.when (aggregated v.format v.aggregation = true ∧ hwvect = true) fun r => (r.pad 4).put .ampduStatus 8
  -- at 40 MHz the bandwidth is written twice
  let r := r.when (v.format = formatmodVht) fun r => r.put .vht (if v.chBw = phyChnlBw40 then 13 else 12)
  let r := r.when (v.format ≥ formatmodHeSu) fun r => (r.pad 2).put .he 12
  r.when (v.antennas > 1) fun r => v.chains.foldl (fun r _ => r.putChain) r

/-- `aml_rx_add_rtap_hdr`; `none` where it runs into `BUG_ON`. -/
def addRtapHdr (v : RxVector1) (hwvect : Bool) (rtapLen vendRtapLen : ℕ) (vendItPresent : BitVec 32) : Option Rtap :=
  if v.format ≤ formatmodNonHtDupOfdm ∧ v.legratesIdx = none then none
  else some (rtapFormat v hwvect (rtapRx v (rtapStart v hwvect rtapLen vendRtapLen vendItPresent)))

/-- `sizeof(struct vendor_radiotap_hdr)` and the two bytes of data behind it. -/
def vendRtapLen : ℕ := 6 + 2

/-- The header `aml_rx_monitor` and, with vendor data, `aml_unsup_rx_vec_ind` write. -/
def callerHdr (v : RxVector1) (hasVendRtap : Bool) : Option Rtap :=
  if hasVendRtap then addRtapHdr v false (rtapHdrlen v true) vendRtapLen 1
  else addRtapHdr v true (rtapHdrlen v false) 0 0

/-- The bytes of a header that ends here: vendor data behind it are aligned to two. -/
def rtapBytes (pos : ℕ) (hasVendRtap : Bool) : ℕ := if hasVendRtap then alignUp 2 pos else pos

/-! ### The property -/

/-- **The header has the length that was counted, each field is aligned, and the length fits in a `u8`.** -/
def RtapExact (v : RxVector1) (hasVendRtap : Bool) : Prop :=
  ∃ r ∈ callerHdr v hasVendRtap, rtapHdrlen v hasVendRtap = rtapBytes r.cursor.pos hasVendRtap ∧
    r.cursor.Fits RtapField.align ∧ rtapBytes r.cursor.pos hasVendRtap < 256

/-- **The vectors for which the two agree**: legacy rates of the table; one antenna and no more than
HE single user, where HT frames are aggregated or come with vendor data and VHT frames are not of 40 MHz;
and the VHT frames of 40 MHz with vendor data and another number of antennas, all among the first four,
where the byte too many is one of those counted too many. -/
def Counted (v : RxVector1) (hasVendRtap : Bool) : Prop :=
  (v.format ≤ formatmodNonHtDupOfdm → v.legratesIdx ≠ none) ∧ (v.antennas = 1 ∧ v.format ≤ formatmodHeSu ∧
        (isHt v.format = true → v.aggregation = true ∨ hasVendRtap = true) ∧
        (v.format = formatmodVht → v.chBw ≠ phyChnlBw40) ∨
      hasVendRtap = true ∧ v.format = formatmodVht ∧ v.chBw = phyChnlBw40 ∧ v.antennas ≠ 1 ∧ v.antennaSet.toNat < 16)

/-! ### Where the fields are -/

namespace Rtap

variable {r : Rtap}

/-- The fields fit, and the header has an even length. -/
structure Level (r : Rtap) : Prop where
  fits : r.cursor.Fits RtapField.align
  even : 2 ∣ r.cursor.pos

theorem Level.when (level : Level r) {c : Prop} [Decidable c] {f : Rtap → Rtap} (step : Level (f r)) :
    Level (r.when c f) := by
  unfold Rtap.when
  split
  · exact step
  · exact level

variable {field : RtapField}

theorem Level.put (level : Level r) (align : field.align ∣ 2) {size : ℕ}
    (even : 2 ∣ size) : Level (r.put field size) where
  fits := level.fits.put (Nat.dvd_trans align level.even) size
  even := Nat.dvd_add level.even even

theorem Level.padPut (fits : r.cursor.Fits RtapField.align) {a : ℕ} (pos : 0 < a)
    (align : field.align ∣ a) (two : 2 ∣ a) {size : ℕ} (even : 2 ∣ size) :
    Level ((r.pad a).put field size) := by
  have padded : a ∣ (r.cursor.pad a).pos := by
    rw [Cursor.pad_pos _ pos]
    exact dvd_alignUp _ _
  exact ⟨(fits.pad pos).put (Nat.dvd_trans align padded) size, Nat.dvd_add (Nat.dvd_trans two padded) even⟩

theorem fits_byte (fits : r.cursor.Fits RtapField.align) (align : field.align = 1) :
    (r.put field 1).cursor.Fits RtapField.align := by
  refine fits.put ?_ 1
  rw [align]
  exact Nat.one_dvd _

theorem Level.two (level : Level r) {field field' : RtapField} (align : field.align = 1)
    (align' : field'.align = 1) : Level ((r.put field 1).put field' 1) where
  fits := fits_byte (fits_byte level.fits align) align'
  even := (Nat.dvd_add level.even (Nat.dvd_refl 2) : 2 ∣ r.cursor.pos + 2)

theorem Level.one (level : Level r) (align : field.align = 1) : Level ((r.put field 1).skip 1) where
  fits := (fits_byte level.fits align).skip 1
  even := (Nat.dvd_add level.even (Nat.dvd_refl 2) : 2 ∣ r.cursor.pos + 2)

theorem fits_when (fits : r.cursor.Fits RtapField.align) {c : Prop} [Decidable c] {f : Rtap → Rtap}
    (step : c → (f r).cursor.Fits RtapField.align) : (r.when c f).cursor.Fits RtapField.align := by
  unfold Rtap.when
  split
  case isTrue holds => exact step holds
  case isFalse => exact fits

theorem fits_chains (fits : r.cursor.Fits RtapField.align) (chains : List ℕ) :
    (chains.foldl (fun r _ => r.putChain) r).cursor.Fits RtapField.align := by
  induction chains generalizing r with
  | nil => exact fits
  | cons _ rest ih => exact ih ((fits.put (Nat.one_dvd _) 1).put (Nat.one_dvd _) 1)

end Rtap

section Layout

variable {v : RxVector1} {hwvect : Bool} {r : Rtap}

theorem level_words (itLen : BitVec 16) (words : List (BitVec 32)) :
    Rtap.Level ⟨itLen, words, { pos := 4 + 4 * words.length }⟩ where
  fits := .nil _ _
  even := Nat.dvd_add (by decide) (Nat.dvd_trans (by decide : 2 ∣ 4) (Nat.dvd_mul_right 4 _))

theorem level_start {rtapLen vendRtapLen : ℕ} {vendItPresent : BitVec 32} :
    (rtapStart v hwvect rtapLen vendRtapLen vendItPresent).Level := by
  have words := level_words (BitVec.ofNat 16 (rtapLen + vendRtapLen)) (presentWords v vendRtapLen vendItPresent)
  refine words.when (c := hwvect = true) (f := fun r => (r.pad 8).put .tsft 8) ?_
  exact .padPut words.fits (by decide) (by decide) (by decide) (by decide)

theorem level_rx (level : r.Level) : (rtapRx v r).Level := by
  have rate : (if v.format ≤ formatmodNonHtDupOfdm then (r.put .flags 1).put .rate 1
      else (r.put .flags 1).skip 1).Level := by
    split
    · exact level.two rfl rfl
    · exact level.one rfl
  have channel := rate.put (by decide : RtapField.channel.align ∣ 2) (by decide : 2 ∣ 4)
  have antenna := channel.when (c := v.antennas = 1) (f := fun r => (r.put .dbmAntsignal 1).put .antenna 1)
    (channel.two rfl rfl)
  exact .padPut antenna.fits (by decide) (by decide) (by decide) (by decide)

theorem fits_format (level : r.Level) : (rtapFormat v hwvect r).cursor.Fits RtapField.align := by
  have mcs := level.when (c := isHt v.format = true) (f := fun r => r.put .mcs 4) (level.put (by decide) (by decide))
  have ampdu := mcs.when (c := aggregated v.format v.aggregation = true ∧ hwvect = true)
    (f := fun r => (r.pad 4).put .ampduStatus 8)
    (.padPut mcs.fits (by decide) (by decide) (by decide) (by decide))
  have vht := Rtap.fits_when ampdu.fits (c := v.format = formatmodVht)
    (f := fun r => r.put .vht (if v.chBw = phyChnlBw40 then 13 else 12))
    fun _ => ampdu.fits.put (show RtapField.vht.align ∣ _ from ampdu.even) _
  have he := Rtap.fits_when vht (c := v.format ≥ formatmodHeSu) (f := fun r => (r.pad 2).put .he 12)
    fun _ => (Rtap.Level.padPut vht (by decide) (by decide) (by decide) (by decide)).fits
  exact Rtap.fits_when he fun _ => Rtap.fits_chains he v.chains

end Layout

/-! ### How long the header is -/

/-- The position behind the fields of a header with so many antennas and chains. -/
def rtapWritten (antennas chains format : ℕ) (aggregation bw40 hasVendRtap : Bool) : ℕ :=
  let pos := 8 + 4 * (if antennas > 1 then chains else 0) + if hasVendRtap then 4 else 0
  let pos := if hasVendRtap then pos else alignUp 8 pos + 8
  let pos := pos + 6
  let pos := if antennas = 1 then pos + 2 else pos
  let pos := alignUp 2 pos + 2
  let pos := if isHt format then pos + 4 else pos
  let pos := if aggregated format aggregation = true ∧ hasVendRtap = false then alignUp 4 pos + 8 else pos
  let pos := if format = formatmodVht then pos + (if bw40 then 13 else 12) else pos
  let pos := if format ≥ formatmodHeSu then alignUp 2 pos + 12 else pos
  if antennas > 1 then pos + 2 * chains else pos

section Length

variable {v : RxVector1} {hwvect : Bool} {r : Rtap}

theorem when_pos {c : Prop} [Decidable c] {f : Rtap → Rtap} :
    (r.when c f).cursor.pos = if c then (f r).cursor.pos else r.cursor.pos := by
  unfold Rtap.when
  split
  · rfl
  · rfl

theorem put_pos {field : RtapField} {size : ℕ} : (r.put field size).cursor.pos = r.cursor.pos + size := rfl

theorem padPut_pos {a size : ℕ} (pos : 0 < a) (field : RtapField) :
    ((r.pad a).put field size).cursor.pos = alignUp a r.cursor.pos + size :=
  congrArg (· + size) (r.cursor.pad_pos pos)

theorem chains_pos (chains : List ℕ) :
    (chains.foldl (fun r _ => r.putChain) r).cursor.pos = r.cursor.pos + 2 * chains.length := by
  induction chains generalizing r with
  | nil => rfl
  | cons _ rest ih =>
    rw [List.foldl_cons, ih, List.length_cons]
    show r.cursor.pos + 1 + 1 + 2 * rest.length = _
    omega

theorem rtapRx_pos : (rtapRx v r).cursor.pos =
    alignUp 2 (if v.antennas = 1 then r.cursor.pos + 6 + 2 else r.cursor.pos + 6) + 2 := by
  have rate : (if v.format ≤ formatmodNonHtDupOfdm then (r.put .flags 1).put .rate 1
      else (r.put .flags 1).skip 1).cursor.pos = r.cursor.pos + 2 := by
    split
    · rfl
    · rfl
  unfold rtapRx
  dsimp only
  rw [padPut_pos (by decide), when_pos]
  congr 2
  show (if v.antennas = 1 then _ + 4 + 1 + 1 else _ + 4) = _
  rw [rate]

theorem rtapFormat_pos : (rtapFormat v hwvect r).cursor.pos = (let pos := r.cursor.pos
     let pos := if isHt v.format then pos + 4 else pos
     let pos := if aggregated v.format v.aggregation = true ∧ hwvect = true then alignUp 4 pos + 8 else pos
     let pos := if v.format = formatmodVht then pos + (if v.chBw = phyChnlBw40 then 13 else 12) else pos
     let pos := if v.format ≥ formatmodHeSu then alignUp 2 pos + 12 else pos
     if v.antennas > 1 then pos + 2 * v.chains.length else pos) := by
  unfold rtapFormat
  simp only [when_pos, chains_pos, padPut_pos Nat.two_pos, padPut_pos (by decide : 0 < 4), put_pos]

theorem length_chainWords (v : RxVector1) :
    (chainWords v).1.length = if v.antennas > 1 then v.chains.length else 0 := by
  have fold : ∀ (chains : List ℕ) (w : List (BitVec 32) × BitVec 32),
      (chains.foldl (fun w _ => (w.1 ++ [w.2 ||| radiotapExt ||| radiotapNamespace], chainPresent)) w).1.length =
        w.1.length + chains.length := by
    intro chains
    induction chains with
    | nil => exact fun _ => rfl
    | cons _ rest ih =>
      intro w
      rw [List.foldl_cons, ih, List.length_append, List.length_singleton, List.length_cons]
      omega
  unfold chainWords
  split
  · rw [fold, List.length_nil, Nat.zero_add]
  · rfl

theorem length_presentWords (v : RxVector1) (vendRtapLen : ℕ) (vendItPresent : BitVec 32) :
    (presentWords v vendRtapLen vendItPresent).length =
      (if v.antennas > 1 then v.chains.length else 0) + (if vendRtapLen = 0 then 0 else 1) + 1 := by
  unfold presentWords
  dsimp only
  split
  · rw [List.length_append, length_chainWords]
    rfl
  · rw [List.length_append, List.length_append, length_chainWords]
    rfl

theorem callerHdr_spec (v : RxVector1) (hasVendRtap : Bool)
    (rate : v.format ≤ formatmodNonHtDupOfdm → v.legratesIdx ≠ none) :
    ∃ r, callerHdr v hasVendRtap = some r ∧ r.cursor.Fits RtapField.align ∧
      r.cursor.pos = rtapWritten v.antennas v.chains.length v.format v.aggregation
        (decide (v.chBw = phyChnlBw40)) hasVendRtap := by
  have added : ∀ hwvect rtapLen vendRtapLen vendItPresent, addRtapHdr v hwvect rtapLen vendRtapLen vendItPresent =
        some (rtapFormat v hwvect (rtapRx v (rtapStart v hwvect rtapLen vendRtapLen vendItPresent))) :=
    fun _ _ _ _ => if_neg fun ⟨legacy, missing⟩ => rate legacy missing
  have start : ∀ hwvect rtapLen vendRtapLen vendItPresent,
      (rtapStart v hwvect rtapLen vendRtapLen vendItPresent).cursor.pos =
        if hwvect = true then alignUp 8 (4 + 4 * (presentWords v vendRtapLen vendItPresent).length) + 8
        else 4 + 4 * (presentWords v vendRtapLen vendItPresent).length := by
    intro hwvect rtapLen vendRtapLen vendItPresent
    unfold rtapStart
    dsimp only
    rw [when_pos, padPut_pos (by decide)]
  have words : ∀ n : ℕ, 4 + 4 * (n + 1 + 1) = 8 + 4 * n + 4 := by omega
  have word : ∀ n : ℕ, 4 + 4 * (n + 0 + 1) = 8 + 4 * n + 0 := by omega
  unfold callerHdr rtapWritten
  cases hasVendRtap with
  | true =>
    refine ⟨_, added .., fits_format (level_rx level_start), ?_⟩
    rw [rtapFormat_pos, rtapRx_pos, start, length_presentWords, if_neg Bool.false_ne_true,
      if_neg (by decide : vendRtapLen ≠ 0), words]
    simp only [decide_eq_true_eq, if_true, and_false, if_false, Bool.false_eq_true, Bool.true_eq_false]
  | false =>
    refine ⟨_, added .., fits_format (level_rx level_start), ?_⟩
    rw [rtapFormat_pos, rtapRx_pos, start, length_presentWords, if_pos rfl, if_pos rfl, word]
    simp only [decide_eq_true_eq, and_true, if_false, Bool.false_eq_true]

end Length

/-- `antenna_set` and its chains. -/
theorem antennas_chains (v : RxVector1) : v.chains.length ≤ 4 ∧ v.chains.length ≤ v.antennas ∧
    v.antennas ≤ v.chains.length + 4 ∧ (v.antennaSet.toNat < 16 ↔ v.antennas = v.chains.length) := by
  unfold RxVector1.antennas RxVector1.chains
  generalize v.antennaSet = set
  revert set
  decide +kernel

/-- Where the count and the position agree, with so many antennas behind the first four. -/
def CountedBy (chains more format : ℕ) (aggregation bw40 hasVendRtap : Bool) : Prop :=
  chains + more = 1 ∧ format ≤ formatmodHeSu ∧ (isHt format = true → aggregation = true ∨ hasVendRtap = true) ∧
      (format = formatmodVht → bw40 = false) ∨
    hasVendRtap = true ∧ format = formatmodVht ∧ bw40 = true ∧ chains + more ≠ 1 ∧ more = 0

instance (chains more format : ℕ) (aggregation bw40 hasVendRtap : Bool) :
    Decidable (CountedBy chains more format aggregation bw40 hasVendRtap) :=
  inferInstanceAs (Decidable (_ ∧ _ ∧ _ ∧ _ ∨ _ ∧ _ ∧ _ ∧ _ ∧ _))

theorem counted_written : ∀ chains < 5, ∀ more < 5, ∀ format < 16, ∀ aggregation bw40 hasVendRtap : Bool,
    rtapBytes (rtapWritten (chains + more) chains format aggregation bw40 hasVendRtap) hasVendRtap < 256 ∧
    (rtapCounted (chains + more) format aggregation hasVendRtap =
        rtapBytes (rtapWritten (chains + more) chains format aggregation bw40 hasVendRtap) hasVendRtap ↔
      CountedBy chains more format aggregation bw40 hasVendRtap) := by
  decide +kernel

/-- **The two functions agree on the vectors described, and on no others.** -/
theorem rtapExact_iff (v : RxVector1) (hasVendRtap : Bool) : RtapExact v hasVendRtap ↔ Counted v hasVendRtap := by
  by_cases rate : v.format ≤ formatmodNonHtDupOfdm → v.legratesIdx ≠ none
  case neg =>
    rw [Classical.not_imp, not_not] at rate
    have bug : callerHdr v hasVendRtap = none := by
      unfold callerHdr addRtapHdr
      rw [if_pos rate, if_pos rate, ite_self]
    refine iff_of_false ?_ fun counted => counted.1 rate.1 rate.2
    rintro ⟨r, written, -⟩
    rw [bug] at written
    nomatch written
  case pos =>
    obtain ⟨r, written, fits, pos⟩ := callerHdr_spec v hasVendRtap rate
    obtain ⟨four, le, more, low⟩ := antennas_chains v
    obtain ⟨k, sum⟩ := Nat.exists_eq_add_of_le le
    obtain ⟨small, agree⟩ := counted_written v.chains.length (by omega) k (by omega) v.format
      v.formatMod.isLt v.aggregation (v.chBw = phyChnlBw40) hasVendRtap
    rw [← sum, ← pos] at small agree
    have counted : Counted v hasVendRtap ↔
        CountedBy v.chains.length k v.format v.aggregation (v.chBw = phyChnlBw40) hasVendRtap := by
      have first : v.antennaSet.toNat < 16 ↔ k = 0 := by omega
      unfold Counted CountedBy
      rw [and_iff_right rate, ← sum, first, decide_eq_true_iff, decide_eq_false_iff_not]
    rw [counted, ← agree]
    constructor
    · rintro ⟨r', written', same, -⟩
      obtain rfl := Option.some.inj (written.symm.trans written')
      exact same
    · exact fun same => ⟨r, written, same, fits, small⟩

/-- **A VHT frame of 40 MHz**: 48 bytes are counted, and 49 are written. -/
theorem vht40_overrun : ¬RtapExact ⟨4, phyChnlBw40, 1, 0, false⟩ false := by
  rintro ⟨r, written, same, -⟩
  have pos : (callerHdr ⟨4, phyChnlBw40, 1, 0, false⟩ false).map (·.cursor.pos) = some 49 := by decide +kernel
  rw [written] at pos
  have last : r.cursor.pos = 49 := Option.some.inj pos
  rw [last] at same
  revert same
  decide +kernel

end W2l.Rx
