/-
**Parsing an RSN element: what is read, and what is made of it.**

`aml_rsne_to_connect_params` (`aml_main.c`) skips the version, takes the group cipher and the first pairwise
cipher, skips the lists of pairwise ciphers, AKM suites and PMKIDs, and looks whether something follows.

* `amlRsneToConnectParams` — the function, with the bytes it reads.
* `Fits`, `firstPairwise`, `MgmtCipher` — **what the element holds**: which of its parts fit in the data, the
  first pairwise suite, a complete group management cipher.
* `RsneRight` — what a caller can rely on.
-/

import W2lDriver.Lib.Bytes

namespace W2l.Rsne

open Lib (Byte)

/-! ### The function -/

inductive Mfp
  | no
  | required
  | optional
  deriving DecidableEq

/-- The fields of `struct cfg80211_connect_params` that are set. -/
structure ConnectParams where
  controlPortNoEncrypt : Bool
  controlPort : Bool
  controlPortEthertype : BitVec 16
  cipherGroup : BitVec 32
  nCiphersPairwise : ℕ
  ciphersPairwise : BitVec 32
  mfp : Mfp
  deriving DecidableEq

/-- `ntohl(*((u32 *)pos))`. -/
def ntohl (data : ℕ → Byte) (pos : ℕ) : BitVec 32 := data pos ++ data (pos + 1) ++ data (pos + 2) ++ data (pos + 3)

/-- `le16_to_cpu(*((u16 *)pos))`. -/
def le16 (data : ℕ → Byte) (pos : ℕ) : ℕ := (data (pos + 1) ++ data pos).toNat

/-- `cpu_to_be16(ETH_P_PAE)` on a little-endian machine. -/
def ethPPae : BitVec 16 := 0x8e88

/-- What a call returns, what it leaves, and the position and size of each of its reads. -/
structure Outcome where
  ret : ℕ
  sme : ConnectParams
  reads : List (ℕ × ℕ)

/-- `aml_rsne_to_connect_params` on an element of `datalen` bytes; memory goes on behind them. -/
def amlRsneToConnectParams (data : ℕ → Byte) (datalen : ℕ) (sme : ConnectParams) : Outcome :=
  if datalen < 8 then ⟨1, sme, []⟩
  else
    let sme := { sme with
      controlPortNoEncrypt := false
      controlPort := true
      controlPortEthertype := ethPPae
      cipherGroup := ntohl data 2 }
    let clen := le16 data 6 * 4
    let reads := [(2, 4), (6, 2)]
    let pos := 8
    let len := datalen - 8
    if len < clen + 2 then ⟨1, sme, reads⟩
    else
      -- only one cipher suite is needed
      let sme := { sme with
        nCiphersPairwise := 1
        ciphersPairwise := ntohl data pos }
      let reads := reads ++ [(pos, 4)]
      let pos := pos + clen
      let len := len - clen
      let clen := le16 data pos * 4
      let reads := reads ++ [(pos, 2)]
      let pos := pos + 2
      let len := len - 2
      if len < clen then ⟨1, sme, reads⟩
      else
        let pos := pos + clen
        let len := len - clen
        if len < 4 then ⟨0, sme, reads⟩
        else
          let pos := pos + 2
          let clen := le16 data pos * 16
          let reads := reads ++ [(pos, 2)]
          let len := len - 4
          ⟨0, if clen < len then { sme with mfp := .required } else sme, reads⟩

/-! ### The element -/

section Element

variable (data : ℕ → Byte) (datalen : ℕ)

/-- The number of pairwise suites, and where the number of AKM suites is. -/
def pairwiseCount : ℕ := le16 data 6
def akmPos : ℕ := 8 + pairwiseCount data * 4

/-- The number of AKM suites, and where the RSN capabilities are. -/
def akmCount : ℕ := le16 data (akmPos data)
def capsPos : ℕ := akmPos data + 2 + akmCount data * 4

def pmkidEnd : ℕ := capsPos data + 4 + le16 data (capsPos data + 2) * 16

/-- Version, group cipher and both lists with their counts fit in the data. -/
def Fits : Prop := 8 ≤ datalen ∧ akmPos data + 2 ≤ datalen ∧ capsPos data ≤ datalen

def firstPairwise : Option (BitVec 32) := if pairwiseCount data = 0 then none else some (ntohl data 8)

/-- A complete group management cipher suite follows the list of PMKIDs. -/
def MgmtCipher : Prop := Fits data datalen ∧ capsPos data + 4 ≤ datalen ∧ pmkidEnd data + 4 ≤ datalen

instance : Decidable (Fits data datalen) := inferInstanceAs (Decidable (_ ∧ _ ∧ _))
instance : Decidable (MgmtCipher data datalen) := inferInstanceAs (Decidable (_ ∧ _ ∧ _))

/-- **What a caller can rely on.** -/
structure RsneRight (sme : ConnectParams) (r : Outcome) : Prop where
  inside : ∀ read ∈ r.reads, read.1 + read.2 ≤ datalen
  fits : r.ret = 0 → Fits data datalen
  pairwise : r.ret = 0 → firstPairwise data = some r.sme.ciphersPairwise ∧ r.sme.nCiphersPairwise = 1
  mfp : r.sme.mfp = if MgmtCipher data datalen then .required else sme.mfp

/-- **When it can**: where there is no pairwise suite the element ends before the number of AKM suites, or this
lies in the data with two bytes behind it and the AKM list does not fit; and the list of PMKIDs is not followed by
one to three bytes. -/
def Parsable : Prop :=
  (8 ≤ datalen → pairwiseCount data = 0 → datalen < 10 ∨ (12 ≤ datalen ∧ datalen < capsPos data)) ∧
    (Fits data datalen → capsPos data + 4 ≤ datalen → datalen ≤ pmkidEnd data ∨ pmkidEnd data + 4 ≤ datalen)

end Element

/-! ### How it ends -/

section Cases

variable {data : ℕ → Byte} {datalen : ℕ} (sme : ConnectParams)

/-- What is set before the lists. -/
def begun (data : ℕ → Byte) (sme : ConnectParams) : ConnectParams :=
  { sme with
    controlPortNoEncrypt := false
    controlPort := true
    controlPortEthertype := ethPPae
    cipherGroup := ntohl data 2 }

def paired (data : ℕ → Byte) (sme : ConnectParams) : ConnectParams :=
  { begun data sme with
    nCiphersPairwise := 1
    ciphersPairwise := ntohl data 8 }

def pairedReads (data : ℕ → Byte) : List (ℕ × ℕ) := [(2, 4), (6, 2), (8, 4), (akmPos data, 2)]

theorem rsne_short (short : datalen < 8) : amlRsneToConnectParams data datalen sme = ⟨1, sme, []⟩ := by
  unfold amlRsneToConnectParams
  rw [if_pos short]

theorem rsne_pairwise (long : 8 ≤ datalen) (short : datalen < akmPos data + 2) :
    amlRsneToConnectParams data datalen sme = ⟨1, begun data sme, [(2, 4), (6, 2)]⟩ := by
  unfold akmPos pairwiseCount at short
  unfold amlRsneToConnectParams
  rw [if_neg (not_lt.mpr long)]
  dsimp only
  rw [if_pos (by omega)]
  rfl

theorem rsne_akm (long : 8 ≤ datalen) (room : akmPos data + 2 ≤ datalen) (short : datalen < capsPos data) :
    amlRsneToConnectParams data datalen sme = ⟨1, paired data sme, pairedReads data⟩ := by
  unfold capsPos akmCount akmPos pairwiseCount at short
  unfold akmPos pairwiseCount at room
  unfold amlRsneToConnectParams
  rw [if_neg (not_lt.mpr long)]
  dsimp only
  rw [if_neg (by omega), if_pos (by omega)]
  rfl

theorem rsne_ends (fits : Fits data datalen) (short : datalen < capsPos data + 4) :
    amlRsneToConnectParams data datalen sme = ⟨0, paired data sme, pairedReads data⟩ := by
  obtain ⟨long, room, caps⟩ := fits
  unfold capsPos akmCount akmPos pairwiseCount at short caps
  unfold akmPos pairwiseCount at room
  unfold amlRsneToConnectParams
  rw [if_neg (not_lt.mpr long)]
  dsimp only
  rw [if_neg (by omega), if_neg (by omega), if_pos (by omega)]
  rfl

theorem rsne_pmkids (fits : Fits data datalen) (room : capsPos data + 4 ≤ datalen) :
    amlRsneToConnectParams data datalen sme =
      ⟨0, if pmkidEnd data < datalen then { paired data sme with mfp := .required } else paired data sme,
        pairedReads data ++ [(capsPos data + 2, 2)]⟩ := by
  obtain ⟨long, akm, caps⟩ := fits
  have more : le16 data (8 + le16 data 6 * 4 + 2 + le16 data (8 + le16 data 6 * 4) * 4 + 2) * 16 <
      datalen - 8 - le16 data 6 * 4 - 2 - le16 data (8 + le16 data 6 * 4) * 4 - 4 ↔ pmkidEnd data < datalen := by
    unfold pmkidEnd capsPos akmCount akmPos pairwiseCount
    unfold capsPos akmCount akmPos pairwiseCount at room
    omega
  unfold capsPos akmCount akmPos pairwiseCount at room caps
  unfold akmPos pairwiseCount at akm
  unfold amlRsneToConnectParams
  rw [if_neg (not_lt.mpr long)]
  dsimp only
  rw [if_neg (by omega), if_neg (by omega), if_neg (by omega)]
  rw [if_congr more rfl rfl]
  rfl

end Cases

/-! ### When it is right -/

section Right

variable {data : ℕ → Byte} {datalen : ℕ} {sme : ConnectParams}

theorem pairedReads_inside (room : akmPos data + 2 ≤ datalen) :
    (∀ read ∈ pairedReads data, read.1 + read.2 ≤ datalen) ↔ (pairwiseCount data = 0 → 12 ≤ datalen) := by
  have place : akmPos data = 8 + pairwiseCount data * 4 := rfl
  unfold pairedReads
  simp only [List.forall_mem_cons, List.not_mem_nil, false_imp_iff, implies_true, and_true]
  omega

theorem firstPairwise_paired : firstPairwise data = some (paired data sme).ciphersPairwise ↔
    pairwiseCount data ≠ 0 := by
  unfold firstPairwise
  split
  case isTrue none => exact ⟨fun wrong => (nomatch wrong), fun some_ => absurd none some_⟩
  case isFalse some_ => exact ⟨fun _ => some_, fun _ => rfl⟩

theorem right_refused (sme : ConnectParams) {sme' : ConnectParams} {reads : List (ℕ × ℕ)} (same : sme'.mfp = sme.mfp)
    (short : ¬MgmtCipher data datalen) :
    RsneRight data datalen sme ⟨1, sme', reads⟩ ↔ ∀ read ∈ reads, read.1 + read.2 ≤ datalen := by
  refine ⟨RsneRight.inside, fun inside => ⟨inside, fun wrong => ?_, fun wrong => ?_, ?_⟩⟩
  · exact absurd wrong Nat.one_ne_zero
  · exact absurd wrong Nat.one_ne_zero
  · rw [if_neg short]
    exact same

theorem right_accepted {sme' : ConnectParams} {reads : List (ℕ × ℕ)} (fits : Fits data datalen)
    (inside : (∀ read ∈ reads, read.1 + read.2 ≤ datalen) ↔ (pairwiseCount data = 0 → 12 ≤ datalen))
    (cipher : sme'.ciphersPairwise = (paired data sme).ciphersPairwise) (one : sme'.nCiphersPairwise = 1) :
    RsneRight data datalen sme ⟨0, sme', reads⟩ ↔
      pairwiseCount data ≠ 0 ∧ sme'.mfp = if MgmtCipher data datalen then .required else sme.mfp := by
  constructor
  · intro right
    have first := (right.pairwise rfl).1
    rw [cipher] at first
    exact ⟨firstPairwise_paired.mp first, right.mfp⟩
  · rintro ⟨some_, mfp⟩
    refine ⟨inside.mpr fun none => absurd none some_, fun _ => fits, fun _ => ⟨?_, one⟩, mfp⟩
    rw [cipher]
    exact firstPairwise_paired.mpr some_

theorem parsable_accepted (fits : Fits data datalen) :
    (8 ≤ datalen → pairwiseCount data = 0 → datalen < 10 ∨ (12 ≤ datalen ∧ datalen < capsPos data)) ↔
      pairwiseCount data ≠ 0 := by
  obtain ⟨long, akm, caps⟩ := fits
  have place : akmPos data = 8 + pairwiseCount data * 4 := rfl
  constructor
  · intro ends none
    have := ends long none
    omega
  · exact fun some_ _ none => absurd none some_

def noParams : ConnectParams := ⟨false, false, 0, 0, 0, 0, .no⟩

/-- **When a caller can rely on the outcome.** -/
theorem rsne_right_iff (data : ℕ → Byte) (datalen : ℕ) :
    (∀ sme, RsneRight data datalen sme (amlRsneToConnectParams data datalen sme)) ↔ Parsable data datalen := by
  have place : akmPos data = 8 + pairwiseCount data * 4 := rfl
  have behind : capsPos data = akmPos data + 2 + akmCount data * 4 := rfl
  by_cases long : 8 ≤ datalen
  swap
  · refine iff_of_true (fun sme => ?_) ⟨fun also => absurd also long, fun fits => absurd fits.1 long⟩
    rw [rsne_short sme (not_le.mp long), right_refused sme rfl fun cipher => long cipher.1.1]
    exact List.forall_mem_nil _
  by_cases akm : akmPos data + 2 ≤ datalen
  swap
  · refine iff_of_true (fun sme => ?_) ⟨fun _ none => .inl (by omega), fun fits => absurd fits.2.1 akm⟩
    rw [rsne_pairwise sme long (not_le.mp akm),
      right_refused sme (rfl : (begun data sme).mfp = sme.mfp) fun cipher => akm cipher.1.2.1]
    simp only [List.forall_mem_cons, List.not_mem_nil, false_imp_iff, implies_true, and_true]
    omega
  by_cases caps : capsPos data ≤ datalen
  swap
  · have refused (sme : ConnectParams) : RsneRight data datalen sme (amlRsneToConnectParams data datalen sme) ↔
        (pairwiseCount data = 0 → 12 ≤ datalen) := by
      rw [rsne_akm sme long akm (not_le.mp caps),
        right_refused sme (rfl : (paired data sme).mfp = sme.mfp) fun cipher => caps cipher.1.2.2]
      exact pairedReads_inside akm
    constructor
    · intro right
      have room := (refused noParams).mp (right noParams)
      exact ⟨fun _ none => .inr ⟨room none, not_le.mp caps⟩, fun fits => absurd fits.2.2 caps⟩
    · intro parsable sme
      refine (refused sme).mpr fun none => ?_
      have ends := parsable.1 long none
      omega
  have fits : Fits data datalen := ⟨long, akm, caps⟩
  unfold Parsable
  rw [parsable_accepted fits]
  by_cases room : capsPos data + 4 ≤ datalen
  · have inside : (∀ read ∈ pairedReads data ++ [(capsPos data + 2, 2)], read.1 + read.2 ≤ datalen) ↔
        (pairwiseCount data = 0 → 12 ≤ datalen) := by
      rw [List.forall_mem_append, pairedReads_inside akm]
      exact and_iff_left (List.forall_mem_singleton.mpr room)
    have cipher : MgmtCipher data datalen ↔ pmkidEnd data + 4 ≤ datalen :=
      ⟨fun cipher => cipher.2.2, fun complete => ⟨fits, room, complete⟩⟩
    have accepted (sme : ConnectParams) : RsneRight data datalen sme (amlRsneToConnectParams data datalen sme) ↔
        pairwiseCount data ≠ 0 ∧ (if pmkidEnd data < datalen then Mfp.required else sme.mfp) =
          if pmkidEnd data + 4 ≤ datalen then Mfp.required else sme.mfp := by
      rw [rsne_pmkids sme fits room, right_accepted fits inside (by split <;> rfl) (by split <;> rfl)]
      refine and_congr_right fun _ => ?_
      rw [if_congr cipher rfl rfl, apply_ite ConnectParams.mfp]
      rfl
    constructor
    · intro right
      obtain ⟨some_, mfp⟩ := (accepted noParams).mp (right noParams)
      refine ⟨some_, fun _ _ => ?_⟩
      by_contra neither
      rw [if_pos (by omega), if_neg (by omega)] at mfp
      exact nomatch mfp
    · rintro ⟨some_, ends⟩ sme
      refine (accepted sme).mpr ⟨some_, if_congr ?_ rfl rfl⟩
      have := ends fits room
      omega
  · have accepted (sme : ConnectParams) : RsneRight data datalen sme (amlRsneToConnectParams data datalen sme) ↔
        pairwiseCount data ≠ 0 := by
      rw [rsne_ends sme fits (not_le.mp room), right_accepted fits (pairedReads_inside akm) rfl rfl,
        if_neg fun cipher => room cipher.2.1]
      exact and_iff_left rfl
    constructor
    · exact fun right => ⟨(accepted noParams).mp (right noParams), fun _ also => absurd also room⟩
    · exact fun parsable sme => (accepted sme).mpr parsable.1

end Right

/-! ### Where it is not -/

/-- One pairwise suite, one AKM suite, no PMKID, and one byte. -/
def strayElement : List Byte :=
  [1, 0, 0, 15, 0xac, 4, 1, 0, 0, 15, 0xac, 4, 1, 0, 0, 15, 0xac, 2, 0, 0, 0, 0, 0]

/-- One byte behind the PMKIDs makes management frame protection required. -/
theorem rsne_not_right :
    ¬∀ data datalen sme, RsneRight data datalen sme (amlRsneToConnectParams data datalen sme) := by
  intro all
  exact absurd (all (fun k => strayElement.getD k 0) 23 noParams).mfp (by decide)

end W2l.Rsne
