/-
**Channel definitions, and what elements announce them.**

* `Chandef` — what the SCC code reads of a `struct cfg80211_chan_def`; `freqToChan` — the channel of a frequency.
* `Chandef.secondary`, `Chandef.vhtOper` — what the HT and VHT operation elements of a channel announce.
* `retarget` — **an element of a beacon, for another channel**.
-/

import Mathlib.Tactic.IntervalCases
import W2lDriver.Lib.ElementEdit
import W2lDriver.P2p.Frame

namespace W2l.Scc

open Lib (Byte Element Keeps)
open P2p (Nl80211Band)

/-! ### Channels -/

inductive ChanWidth
  | w20NoHt
  | w20
  | w40
  | w80
  | w80P80
  | w160
  | w5
  | w10
  deriving DecidableEq

def ChanWidth.number : ChanWidth → ℕ
  | w20NoHt => 0
  | w20 => 1
  | w40 => 2
  | w80 => 3
  | w80P80 => 4
  | w160 => 5
  | w5 => 6
  | w10 => 7

/-- `struct cfg80211_chan_def`. -/
structure Chandef where
  band : Nl80211Band
  /-- `chan->center_freq`, of the primary channel. -/
  centerFreq : BitVec 32
  width : ChanWidth
  centerFreq1 : BitVec 32
  centerFreq2 : BitVec 32
  deriving DecidableEq

/-- `aml_ieee80211_freq_to_chan`. -/
def freqToChan (freq : BitVec 32) (band : Nl80211Band) : Byte :=
  if band = .band5GHz then
    if 4910 ≤ freq ∧ freq ≤ 4980 then ((freq - 4000) / 5).setWidth 8 else ((freq - 5000) / 5).setWidth 8
  else if freq = 2484 then 14
  else if freq < 2484 then ((freq - 2407) / 5).setWidth 8
  else 0

namespace Chandef

variable (t : Chandef)

def chanNo : Byte := freqToChan t.centerFreq t.band

def segment (freq : BitVec 32) : Byte := freqToChan freq t.band

/-- Which 20 MHz channel of a segment of `2 * half` MHz around `centerFreq1` the primary channel is, from 0. -/
def place (half : ℕ) : ℕ := (t.centerFreq.toNat + half - 10 - t.centerFreq1.toNat) / 20

/-- The middle of the 80 MHz with the primary channel, in 160 MHz around `centerFreq1`. -/
def primary80 : BitVec 32 := if t.centerFreq < t.centerFreq1 then t.centerFreq1 - 40 else t.centerFreq1 + 40

/-- `STA channel width` and `secondary channel offset` in `ht_param`: any width, with the secondary channel above
(5) or below (7). In 80 MHz and more the channels are paired from the lowest. -/
def secondary : Byte :=
  match t.width with
  | .w20NoHt | .w20 | .w5 | .w10 => 0
  | .w40 => if t.centerFreq1 < t.centerFreq then 7 else if t.centerFreq < t.centerFreq1 then 5 else 4
  | .w80 | .w80P80 => if t.place 40 % 2 = 0 then 5 else 7
  | .w160 => if t.place 80 % 2 = 0 then 5 else 7

def vhtOper : Byte × Byte × Byte :=
  match t.width with
  | .w20NoHt | .w20 | .w40 | .w5 | .w10 => (0, 0, 0)
  | .w80 => (1, t.segment t.centerFreq1, 0)
  | .w80P80 => (1, t.segment t.centerFreq1, t.segment t.centerFreq2)
  | .w160 => (1, t.segment t.primary80, t.segment t.centerFreq1)

end Chandef

/-! ### Elements -/

/-- `WLAN_EID_DS_PARAMS`. -/
def eidDsParams : Byte := 3

/-- `WLAN_EID_HT_OPERATION`. -/
def eidHtOperation : Byte := 61

/-- `WLAN_EID_VHT_OPERATION`. -/
def eidVhtOperation : Byte := 192

def withDs (chan : Byte) (e : Element) : Element := if e.data.length = 1 then e.setData 0 chan else e

/-- An HT operation element with a primary channel and the low bits of `ht_param`. -/
def withHt (chan param : Byte) (e : Element) : Element :=
  if 22 ≤ e.data.length then (e.setData 0 chan).setData 1 (e.data.getD 1 0 &&& 0xF8 ||| param) else e

/-- A VHT operation element with a width and two segments. -/
def withVht (fields : Byte × Byte × Byte) (e : Element) : Element :=
  if 5 ≤ e.data.length then ((e.setData 0 fields.1).setData 1 fields.2.1).setData 2 fields.2.2 else e

/-- **An element of a beacon, for another channel.** -/
def retarget (t : Chandef) (e : Element) : Element :=
  if e.id = eidDsParams then withDs t.chanNo e
  else if e.id = eidHtOperation then withHt t.chanNo t.secondary e
  else if e.id = eidVhtOperation then withVht t.vhtOper e
  else e

section Keeps

variable (chan param : Byte) (fields : Byte × Byte × Byte) (e : Element)

@[simp] theorem withDs_id : (withDs chan e).id = e.id := by
  unfold withDs
  split <;> rfl

@[simp] theorem withHt_id : (withHt chan param e).id = e.id := by
  unfold withHt
  split <;> rfl

@[simp] theorem withVht_id : (withVht fields e).id = e.id := by
  unfold withVht
  split <;> rfl

theorem keeps_withDs : Keeps (withDs chan) where
  id := withDs_id chan
  size := fun e => by
    unfold withDs Element.size
    split
    case isTrue => rw [Element.length_setData]
    case isFalse => rfl

theorem keeps_withHt : Keeps (withHt chan param) where
  id := withHt_id chan param
  size := fun e => by
    unfold withHt Element.size
    split
    case isTrue => rw [Element.length_setData, Element.length_setData]
    case isFalse => rfl

theorem keeps_withVht : Keeps (withVht fields) where
  id := withVht_id fields
  size := fun e => by
    unfold withVht Element.size
    split
    case isTrue => rw [Element.length_setData, Element.length_setData, Element.length_setData]
    case isFalse => rfl

end Keeps

end W2l.Scc
