/-
**Radar patterns and the test for a multiple of an interval.**

`aml_radar.c`. The regulatory tables give the patterns of pulses that are a radar: the interval between
pulses, the pulses of a burst and how many of them are enough.

* `RadarDetectorSpecs` and the tables — `struct radar_detector_specs` and the tables of the domains.
* `shortSpecs` — the patterns of a SHORT, WEATHER or INTERLEAVED detector.
* `Usable`, `usable_of_mem` — what all of them have.
* `pdeGetMultiple` — `pde_get_multiple`.
* `pdeGetMultiple_near` — **a distance it accepts is within the tolerance of a multiple**.
-/

import Mathlib.Algebra.Order.Ring.Nat
import Mathlib.Data.List.Basic

namespace W2l.Radar

open BitVec (le_def toNat_sub_of_le toNat_udiv)

/-! ### Patterns -/

inductive RadarWaveformType
  | short
  | weather
  | interleaved
  | long
  deriving DecidableEq

structure RadarDetectorSpecs where
  typeId : BitVec 8
  widthMin : BitVec 8
  widthMax : BitVec 8
  priMin : BitVec 16
  priMax : BitVec 16
  numPri : BitVec 8
  ppb : BitVec 8
  ppbThresh : BitVec 8
  maxPriTolerance : BitVec 8
  type : RadarWaveformType
  deriving DecidableEq

def priTolerance : Nat := 16

/-- `PPB_THRESH`, half of the pulses of a burst. -/
def ppbThresh (ppb : Nat) : Nat := (ppb * 50 + 50) / 100

def prf2pri (prf : Nat) : Nat := (1000000 + prf / 2) / prf

def etsiPatternShort (id wmin wmax pmin pmax ppb : Nat) : RadarDetectorSpecs where
  typeId := .ofNat 8 id
  widthMin := .ofNat 8 wmin
  widthMax := .ofNat 8 wmax
  priMin := .ofNat 16 (prf2pri pmax - priTolerance)
  priMax := .ofNat 16 (prf2pri pmin + priTolerance)
  numPri := 1
  ppb := .ofNat 8 ppb
  ppbThresh := .ofNat 8 (ppbThresh ppb)
  maxPriTolerance := .ofNat 8 priTolerance
  type := .short

def etsiPatternInterleaved (id wmin wmax pmin pmax prfmin prfmax ppb : Nat) : RadarDetectorSpecs where
  typeId := .ofNat 8 id
  widthMin := .ofNat 8 wmin
  widthMax := .ofNat 8 wmax
  priMin := .ofNat 16 (prf2pri pmax * prfmin - priTolerance)
  priMax := .ofNat 16 (prf2pri pmin * prfmax + priTolerance)
  numPri := .ofNat 8 prfmax
  ppb := .ofNat 8 (ppb * prfmax)
  ppbThresh := .ofNat 8 (ppbThresh ppb)
  maxPriTolerance := .ofNat 8 priTolerance
  type := .interleaved

/-- `FCC_PATTERN`, `JP_PATTERN`. -/
def fccPattern (id wmin wmax pmin pmax prf ppb : Nat) (type : RadarWaveformType) : RadarDetectorSpecs where
  typeId := .ofNat 8 id
  widthMin := .ofNat 8 wmin
  widthMax := .ofNat 8 wmax
  priMin := .ofNat 16 (pmin - priTolerance)
  priMax := .ofNat 16 (pmax * prf + priTolerance)
  numPri := .ofNat 8 prf
  ppb := .ofNat 8 (ppb * prf)
  ppbThresh := .ofNat 8 (ppbThresh ppb)
  maxPriTolerance := .ofNat 8 priTolerance
  type := type

def etsiRadarRefTypesV17Riu : List RadarDetectorSpecs := [
  etsiPatternShort 0 0 8 700 700 18,
  etsiPatternShort 1 0 10 200 1000 10,
  etsiPatternShort 2 0 22 200 1600 15,
  etsiPatternShort 3 0 22 2300 4000 25,
  etsiPatternShort 4 20 38 2000 4000 20,
  etsiPatternInterleaved 5 0 8 300 400 2 3 10,
  etsiPatternInterleaved 6 0 8 400 1200 2 3 15]

def etsiRadarRefTypesV17Fcu : List RadarDetectorSpecs := [
  etsiPatternShort 0 0 8 700 700 18,
  etsiPatternShort 1 0 8 200 1000 10,
  etsiPatternShort 2 0 16 200 1600 15,
  etsiPatternShort 3 0 16 2300 4000 25,
  etsiPatternShort 4 20 34 2000 4000 20,
  etsiPatternInterleaved 5 0 8 300 400 2 3 10,
  etsiPatternInterleaved 6 0 8 400 1200 2 3 15]

def fccRadarRefTypesRiu : List RadarDetectorSpecs := [
  fccPattern 0 0 8 1428 1428 1 18 .short,
  fccPattern 1 0 8 518 3066 1 102 .weather,
  fccPattern 2 0 8 150 230 1 23 .short,
  fccPattern 3 6 20 200 500 1 16 .short,
  fccPattern 4 10 28 200 500 1 12 .short,
  fccPattern 5 50 110 1000 2000 1 8 .long,
  fccPattern 6 0 8 333 333 1 9 .short]

def fccRadarRefTypesFcu : List RadarDetectorSpecs := [
  fccPattern 0 0 8 1428 1428 1 18 .short,
  fccPattern 1 0 8 518 3066 1 102 .weather,
  fccPattern 2 0 8 150 230 1 23 .short,
  fccPattern 3 6 12 200 500 1 16 .short,
  fccPattern 4 10 22 200 500 1 12 .short,
  fccPattern 5 50 104 1000 2000 1 8 .long,
  fccPattern 6 0 8 333 333 1 9 .short]

def jpRadarRefTypesRiu : List RadarDetectorSpecs := [
  fccPattern 0 0 8 1428 1428 1 18 .short,
  fccPattern 1 2 8 3846 3846 1 18 .short,
  fccPattern 2 0 8 1388 1388 1 18 .short,
  fccPattern 3 0 8 4000 4000 1 18 .short,
  fccPattern 4 0 8 150 230 1 23 .short,
  fccPattern 5 6 20 200 500 1 16 .short,
  fccPattern 6 10 28 200 500 1 12 .short,
  fccPattern 7 50 110 1000 2000 1 8 .long,
  fccPattern 8 0 8 333 333 1 9 .short]

def jpRadarRefTypesFcu : List RadarDetectorSpecs := [
  fccPattern 0 0 8 1428 1428 1 18 .short,
  fccPattern 1 2 6 3846 3846 1 18 .short,
  fccPattern 2 0 8 1388 1388 1 18 .short,
  fccPattern 3 2 2 4000 4000 1 18 .short,
  fccPattern 4 0 8 150 230 1 23 .short,
  fccPattern 5 6 12 200 500 1 16 .short,
  fccPattern 6 10 22 200 500 1 12 .short,
  fccPattern 7 50 104 1000 2000 1 8 .long,
  fccPattern 8 0 8 333 333 1 9 .short]

/-- The patterns of the tables that are not for a LONG detector. -/
def shortSpecs : List RadarDetectorSpecs :=
  (etsiRadarRefTypesV17Riu ++ etsiRadarRefTypesV17Fcu ++ fccRadarRefTypesRiu ++ fccRadarRefTypesFcu ++
    jpRadarRefTypesRiu ++ jpRadarRefTypesFcu).filter fun rs => rs.type ≠ .long

/-- The threshold of a sequence, which depends on its interval for a weather radar. -/
def seqThresh (rs : RadarDetectorSpecs) (pri : BitVec 32) : BitVec 8 :=
  if rs.type = .weather then
    .ofNat 8 (ppbThresh ((19000000 : BitVec 32) / (360 * pri) |>.setWidth 8).toNat)
  else rs.ppbThresh

/-- What a detector relies on in its pattern. -/
structure Usable (rs : RadarDetectorSpecs) : Prop where
  ppb : 2 ≤ rs.ppb.toNat
  thresh : rs.type ≠ .weather → 3 ≤ rs.ppbThresh.toNat
  weather : rs.type = .weather → 500 ≤ rs.priMin.toNat ∧ rs.priMax.toNat ≤ 3100

theorem usable_of_mem {rs : RadarDetectorSpecs} (member : rs ∈ shortSpecs) : Usable rs := by
  have all : ∀ rs ∈ shortSpecs, 2 ≤ rs.ppb.toNat ∧ (rs.type ≠ .weather → 3 ≤ rs.ppbThresh.toNat) ∧
      (rs.type = .weather → 500 ≤ rs.priMin.toNat ∧ rs.priMax.toNat ≤ 3100) := by decide +kernel
  obtain ⟨ppb, thresh, weather⟩ := all rs member
  exact ⟨ppb, thresh, weather⟩

theorem Usable.three_le {rs : RadarDetectorSpecs} (usable : Usable rs) {pri : BitVec 32}
    (low : rs.priMin.toNat ≤ pri.toNat) (high : pri.toNat ≤ rs.priMax.toNat) :
    3 ≤ (seqThresh rs pri).toNat := by
  unfold seqThresh
  by_cases weather : rs.type = .weather
  · rw [if_pos weather]
    obtain ⟨least, most⟩ := usable.weather weather
    have product : ((360 : BitVec 32) * pri).toNat = 360 * pri.toNat := by
      rw [BitVec.toNat_mul]
      show 360 * pri.toNat % 4294967296 = _
      omega
    have quotient : ((19000000 : BitVec 32) / (360 * pri)).toNat = 19000000 / (360 * pri.toNat) := by
      rw [toNat_udiv, product]
      rfl
    have lower : 17 ≤ 19000000 / (360 * pri.toNat) :=
      (Nat.le_div_iff_mul_le (by omega)).mpr (by omega)
    have upper : 19000000 / (360 * pri.toNat) < 106 := Nat.div_lt_of_lt_mul (by omega)
    rw [BitVec.toNat_ofNat, BitVec.toNat_setWidth, quotient, ppbThresh]
    omega
  · rw [if_neg weather]
    exact usable.thresh weather

/-! ### Multiples -/

def pdeGetMultiple (val fraction tolerance : BitVec 32) : BitVec 32 :=
  if fraction = 0 then 0
  else
    let delta := if val < fraction then fraction - val else val - fraction
    if delta ≤ tolerance then 1
    else
      let factor := val / fraction
      let remainder := val % fraction
      if tolerance < remainder then
        if fraction - remainder ≤ tolerance then factor + 1 else 0
      else factor

/-- A distance is within the tolerance of a positive multiple of an interval. -/
def Near (tolerance pri distance : Nat) : Prop :=
  ∃ factor, 0 < factor ∧ distance ≤ factor * pri + tolerance ∧ factor * pri ≤ distance + tolerance

theorem pdeGetMultiple_near {val fraction tolerance : BitVec 32}
    (accepted : pdeGetMultiple val fraction tolerance ≠ 0) :
    Near tolerance.toNat fraction.toNat val.toNat := by
  simp only [pdeGetMultiple] at accepted
  by_cases zero : fraction = 0
  · rw [if_pos zero] at accepted
    exact absurd rfl accepted
  rw [if_neg zero] at accepted
  have positive : 0 < fraction.toNat := by
    rw [Nat.pos_iff_ne_zero]
    exact fun none => zero (BitVec.eq_of_toNat_eq none)
  by_cases close : (if val < fraction then fraction - val else val - fraction) ≤ tolerance
  · refine ⟨1, Nat.one_pos, ?_⟩
    rw [Nat.one_mul]
    split at close
    case isTrue below =>
      rw [le_def, toNat_sub_of_le (BitVec.le_of_lt below)] at close
      rw [BitVec.lt_def] at below
      omega
    case isFalse above =>
      rw [BitVec.not_lt] at above
      rw [le_def, toNat_sub_of_le above] at close
      rw [le_def] at above
      omega
  rw [if_neg close] at accepted
  have division := Nat.div_add_mod val.toNat fraction.toNat
  have less := Nat.mod_lt val.toNat positive
  have remainder : (val % fraction).toNat = val.toNat % fraction.toNat := BitVec.toNat_umod
  have quotient : (val / fraction).toNat = val.toNat / fraction.toNat := toNat_udiv
  by_cases far : tolerance < val % fraction
  · rw [if_pos far] at accepted
    by_cases next : fraction - val % fraction ≤ tolerance
    · refine ⟨val.toNat / fraction.toNat + 1, Nat.succ_pos _, ?_⟩
      have inside : val % fraction ≤ fraction := by
        rw [le_def, remainder]
        omega
      rw [le_def, toNat_sub_of_le inside, remainder] at next
      rw [Nat.add_mul, Nat.one_mul, Nat.mul_comm (val.toNat / fraction.toNat)]
      omega
    · rw [if_neg next] at accepted
      exact absurd rfl accepted
  · rw [if_neg far] at accepted
    rw [BitVec.not_lt, le_def, remainder] at far
    refine ⟨val.toNat / fraction.toNat, ?_, ?_⟩
    · rw [← quotient, Nat.pos_iff_ne_zero]
      exact fun none => accepted (BitVec.eq_of_toNat_eq none)
    · rw [Nat.mul_comm (val.toNat / fraction.toNat)]
      omega

end W2l.Radar
