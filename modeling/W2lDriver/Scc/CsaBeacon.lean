/-
**The elements that announce a channel switch.**

* `Chandef.operationClass` — `aml_get_operation_class`; `csaBytes` — what `aml_scc_channel_switch` appends to a beacon.
* `CsaList` — a CSA, an extended CSA, and what belongs to the width.
* `csaBytes_elements` — **what is appended is such a list**, with the count at offsets 4 and 10.
-/

import W2lDriver.Scc.Chandef

namespace W2l.Scc

open Lib

def csaBlockTx : Byte := 1

def csaCount : Byte := 10

/-- `WLAN_EID_CHANNEL_SWITCH`. -/
def eidChannelSwitch : Byte := 37

/-- `WLAN_EID_EXT_CHANSWITCH_ANN`. -/
def eidExtChanswitchAnn : Byte := 60

/-- `WLAN_EID_SECONDARY_CHANNEL_OFFSET`. -/
def eidSecondaryChannelOffset : Byte := 62

/-- `WLAN_EID_WIDE_BW_CHANNEL_SWITCH`. -/
def eidWideBwChannelSwitch : Byte := 194

/-- `WLAN_EID_CHANNEL_SWITCH_WRAPPER`. -/
def eidChannelSwitchWrapper : Byte := 196

namespace Chandef

variable (t : Chandef)

/-- The class at 40 MHz, with the secondary channel above or below, or at another width. -/
def classOf (above below other : Byte) : Byte :=
  if t.width = .w40 then if t.centerFreq < t.centerFreq1 then above else below else other

/-- `aml_get_operation_class`. -/
def operationClass : Byte :=
  let freq := t.centerFreq1
  if 2412 ≤ freq ∧ freq ≤ 2472 then
    if ChanWidth.w40.number < t.width.number then 0 else t.classOf 83 84 81
  else if freq = 2484 then if t.width ≠ .w20NoHt then 0 else 82
  else if 5180 ≤ freq ∧ freq ≤ 5240 then t.classOf 116 117 115
  else if 5260 ≤ freq ∧ freq ≤ 5320 then t.classOf 119 120 118
  else if 5500 ≤ freq ∧ freq ≤ 5720 then t.classOf 122 123 121
  else if 5745 ≤ freq ∧ freq ≤ 5845 then t.classOf 126 127 (if freq ≤ 5805 then 124 else 125)
  else if 56160 + 2160 * 1 ≤ freq ∧ freq ≤ 56160 + 2160 * 6 then
    if ChanWidth.w40.number ≤ t.width.number then 0 else 180
  else 0

def secondarySide : Byte := if t.centerFreq < t.centerFreq1 then 1 else 3

def wideWidth : Byte :=
  match t.width with
  | .w80 => 1
  | .w160 => 2
  | .w80P80 => 3
  | .w20NoHt | .w20 | .w40 | .w5 | .w10 => 0

end Chandef

section Csa

variable (toChannel : BitVec 32 → Byte) (t : Chandef)

/-- **What is appended**, where `toChannel` is `ieee80211_frequency_to_channel`. -/
def csaBytes : List Byte :=
  [eidChannelSwitch, 3, csaBlockTx, toChannel t.centerFreq, csaCount,
    eidExtChanswitchAnn, 4, csaBlockTx, t.operationClass, toChannel t.centerFreq, csaCount] ++
  (if t.width = .w40 then [eidSecondaryChannelOffset, 1, t.secondarySide] else []) ++
  if t.width = .w80 ∨ t.width = .w80P80 ∨ t.width = .w160 then
    [eidChannelSwitchWrapper, 5, eidWideBwChannelSwitch, 3, t.wideWidth, toChannel t.centerFreq1,
      if t.centerFreq2 ≠ 0 then toChannel t.centerFreq2 else 0]
  else []

def WidthElement (t : Chandef) (rest : List Element) : Prop :=
  match t.width with
  | .w40 => ∃ e, rest = [e] ∧ e.id = eidSecondaryChannelOffset ∧ e.data.length = 1
  | .w80 | .w80P80 | .w160 => ∃ e inner : Element, rest = [e] ∧ e.id = eidChannelSwitchWrapper ∧
      e.data = inner.bytes ∧ inner.id = eidWideBwChannelSwitch ∧ inner.data.length = 3
  | .w20NoHt | .w20 | .w5 | .w10 => rest = []

/-- **A CSA, an extended CSA, and what belongs to the width.** -/
def CsaList (t : Chandef) (es : List Element) : Prop :=
  ∃ csa ext rest, es = csa :: ext :: rest ∧ csa.id = eidChannelSwitch ∧ csa.data.length = 3 ∧
    ext.id = eidExtChanswitchAnn ∧ ext.data.length = 4 ∧ WidthElement t rest

theorem csaBytes_elements : ∃ es, csaBytes toChannel t = elementsBytes es ∧ CsaList t es := by
  let csa : Element := ⟨eidChannelSwitch, [csaBlockTx, toChannel t.centerFreq, csaCount], show 3 < 256 by decide⟩
  let ext : Element :=
    ⟨eidExtChanswitchAnn, [csaBlockTx, t.operationClass, toChannel t.centerFreq, csaCount], show 4 < 256 by decide⟩
  let side : Element := ⟨eidSecondaryChannelOffset, [t.secondarySide], show 1 < 256 by decide⟩
  let wide : Element := ⟨eidWideBwChannelSwitch, [t.wideWidth, toChannel t.centerFreq1,
    if t.centerFreq2 ≠ 0 then toChannel t.centerFreq2 else 0], show 3 < 256 by decide⟩
  let wrapper : Element := ⟨eidChannelSwitchWrapper, wide.bytes, show 5 < 256 by decide⟩
  unfold csaBytes CsaList WidthElement
  cases t.width with
  | w20NoHt | w20 | w5 | w10 => exact ⟨[csa, ext], rfl, csa, ext, [], rfl, rfl, rfl, rfl, rfl, rfl⟩
  | w40 => exact ⟨[csa, ext, side], rfl, csa, ext, [side], rfl, rfl, rfl, rfl, rfl, side, rfl, rfl, rfl⟩
  | w80 | w80P80 | w160 =>
    exact ⟨[csa, ext, wrapper], rfl, csa, ext, [wrapper], rfl, rfl, rfl, rfl, rfl, wrapper, wide, rfl, rfl, rfl, rfl,
      rfl⟩

theorem csaBytes_count : (csaBytes toChannel t)[4]? = some csaCount ∧ (csaBytes toChannel t)[10]? = some csaCount := by
  unfold csaBytes
  exact ⟨rfl, rfl⟩

/-- How many bytes are appended. -/
def csaLen (t : Chandef) : ℕ :=
  match t.width with
  | .w40 => 14
  | .w80 | .w80P80 | .w160 => 18
  | .w20NoHt | .w20 | .w5 | .w10 => 11

theorem length_csaBytes : (csaBytes toChannel t).length = csaLen t := by
  unfold csaBytes csaLen
  cases t.width <;> rfl

end Csa

end W2l.Scc
