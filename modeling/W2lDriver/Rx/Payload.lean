/-
**The payload of a frame that lies across the wrap: the copies of `rx_skb_handle` (SDIO and USB).**

A descriptor is followed by the Ethernet offset and the payload. Where the chunk has two parts, a comment
tells five cases by what lies before the end of the first part. The copies tell them apart by the
descriptor, the payload offset and `UNWRAP_SIZE`.

* `payloadCopies` — the calls of `memcpy`, on the positions of the chunk's buffer.
* `payloadAt` — where the comment has each byte of the payload.
* `PayloadCopied` — the frame's bytes and no others, by copies within the frame's length.
* `CopySafe`, `payload_copied_iff` — **when the copies are those of the comment**.
-/

import W2lDriver.Lib.Bytes
import W2lDriver.Rx.Ring

namespace W2l.Rx

open Lib (Byte slice write)
open BitVec (le_def ofInt toNat_ofInt)

/-! ### The copies -/

/-- `RX_PD_LEN`, `RX_PAYLOAD_OFFSET`, `UNWRAP_SIZE`. -/
def rxPdLen : Nat := 0
def rxPayloadOffset : Nat := rxDescSize.toNat + rxPdLen
def unwrapSize : Nat := 56

/-- One `memcpy` into `skb->data` out of the chunk's buffer. -/
structure Memcpy where
  dst : Nat
  src : Nat
  size : BitVec 32
  deriving DecidableEq

/-- The frame length word of a descriptor: the Ethernet offset in its low byte. -/
def ethHdrOffset (word : BitVec 32) : Nat := (word.setWidth 8).toNat
def frameLen (word : BitVec 32) : BitVec 32 := word >>> 8

/-- The copies of `rx_skb_handle`; `rxbufEnd` is `rxbuf + first_len`, and `hostBufStart` the position of
the descriptor. -/
def payloadCopies (rxbufEnd hostBufStart : Nat) (word : BitVec 32) : List Memcpy :=
  let eth := ethHdrOffset word
  let len := frameLen word
  if hostBufStart < rxbufEnd ∧ rxbufEnd < hostBufStart + rxPayloadOffset + eth + len.toNat then
    if hostBufStart + rxDescSize.toNat < rxbufEnd then
      if hostBufStart + rxPayloadOffset < rxbufEnd then
        if hostBufStart + rxPayloadOffset + unwrapSize < rxbufEnd then
          let uploadLen := BitVec.ofInt 32 ((rxbufEnd : Int) - hostBufStart - rxPayloadOffset - eth)
          [⟨0, hostBufStart + rxPayloadOffset + eth, uploadLen⟩,
            ⟨uploadLen.toNat, rxbufEnd + rxPdLen, len - uploadLen⟩]
        else [⟨0, rxbufEnd + eth, len⟩]
      else [⟨0, rxbufEnd + rxPdLen + eth, len⟩]
    else [⟨0, rxbufEnd + rxPayloadOffset + eth, len⟩]
  else [⟨0, hostBufStart + rxPayloadOffset + eth, len⟩]

/-- `skb->data` after a copy. -/
def Memcpy.run (mem : Nat → Byte) (data : Nat → Byte) (m : Memcpy) : Nat → Byte :=
  write data m.dst (slice mem m.src m.size.toNat)

/-- `skb->data` after all copies. -/
def skbData (mem data : Nat → Byte) (copies : List Memcpy) : Nat → Byte :=
  copies.foldl (Memcpy.run mem) data

/-! ### The layout -/

/-- Where the comment of `rx_skb_handle` has byte `k` of the payload: without a wrap all lies in
sequence; else it tells which of `rxdesc`, `rpd`, `offset` and `payload` lie before the end of the first
part, and the rest follows in the second, behind the `rpd`. -/
def payloadAt (rxbufEnd hostBufStart eth len k : Nat) : Nat :=
  if rxbufEnd ≤ hostBufStart ∨ hostBufStart + rxPayloadOffset + eth + len ≤ rxbufEnd then
    hostBufStart + rxPayloadOffset + eth + k
  -- 1: the descriptor does not fit
  else if rxbufEnd < hostBufStart + rxDescSize.toNat then rxbufEnd + rxPayloadOffset + eth + k
  -- 2, 3: no offset is before the end
  else if rxbufEnd ≤ hostBufStart + rxPayloadOffset then rxbufEnd + rxPdLen + eth + k
  -- 4: part of the offset
  else if rxbufEnd ≤ hostBufStart + rxPayloadOffset + eth then
    rxbufEnd + rxPdLen + (hostBufStart + rxPayloadOffset + eth - rxbufEnd) + k
  -- 5: part of the payload
  else if hostBufStart + rxPayloadOffset + eth + k < rxbufEnd then
    hostBufStart + rxPayloadOffset + eth + k
  else rxbufEnd + rxPdLen + (hostBufStart + rxPayloadOffset + eth + k - rxbufEnd)

/-- The copies fill the frame with its payload, whatever the chunk and the buffer hold. -/
structure PayloadCopied (rxbufEnd hostBufStart : Nat) (word : BitVec 32) : Prop where
  sizes : ∀ m ∈ payloadCopies rxbufEnd hostBufStart word, m.size ≤ frameLen word
  total : ((payloadCopies rxbufEnd hostBufStart word).map fun m => m.size.toNat).sum = (frameLen word).toNat
  bytes : ∀ (mem data : Nat → Byte), ∀ k < (frameLen word).toNat,
    skbData mem data (payloadCopies rxbufEnd hostBufStart word) k =
      mem (payloadAt rxbufEnd hostBufStart (ethHdrOffset word) (frameLen word).toNat k)
  outside : ∀ (mem data : Nat → Byte) (k : Nat), (frameLen word).toNat ≤ k →
    skbData mem data (payloadCopies rxbufEnd hostBufStart word) k = data k

/-- Where the descriptor ends in the first part and the frame does not, more than `UNWRAP_SIZE` bytes
follow the descriptor there and the Ethernet offset is among them; or the frame is empty and no more
than that follow. -/
def CopySafe (rxbufEnd hostBufStart : Nat) (word : BitVec 32) : Prop :=
  hostBufStart + rxDescSize.toNat ≤ rxbufEnd →
    rxbufEnd < hostBufStart + rxPayloadOffset + ethHdrOffset word + (frameLen word).toNat →
    (hostBufStart + rxPayloadOffset + unwrapSize < rxbufEnd ∧
        hostBufStart + rxPayloadOffset + ethHdrOffset word ≤ rxbufEnd) ∨
      (frameLen word = 0 ∧ rxbufEnd ≤ hostBufStart + rxPayloadOffset + unwrapSize)

instance (rxbufEnd hostBufStart : Nat) (word : BitVec 32) : Decidable (CopySafe rxbufEnd hostBufStart word) :=
  inferInstanceAs (Decidable (_ → _ → _ ∨ _))

/-! ### One copy and two -/

section Runs

variable {mem data : Nat → Byte} {m : Memcpy} {k : Nat}

theorem Memcpy.run_inside (mem data : Nat → Byte) (m : Memcpy) (inside : k < m.size.toNat) :
    m.run mem data (m.dst + k) = mem (m.src + k) := by
  have within : k < (slice mem m.src m.size.toNat).length := by rw [W2l.Lib.slice_length]; exact inside
  unfold Memcpy.run
  rw [W2l.Lib.write_inside within]
  simp only [slice, List.getElem_map, List.getElem_range]

theorem Memcpy.run_outside (outside : k < m.dst ∨ m.dst + m.size.toNat ≤ k) : m.run mem data k = data k := by
  unfold Memcpy.run
  refine W2l.Lib.write_outside ?_
  rw [W2l.Lib.slice_length]
  exact outside

end Runs

section Layout

variable {rxbufEnd hostBufStart : Nat} {word : BitVec 32}

theorem payloadAt_eq (rxbufEnd hostBufStart eth len k : Nat) : payloadAt rxbufEnd hostBufStart eth len k =
      if hostBufStart < rxbufEnd ∧ rxbufEnd < hostBufStart + 56 then rxbufEnd + 56 + eth + k
      else hostBufStart + 56 + eth + k := by
  have desc : rxDescSize.toNat = 56 := rfl
  have payload : rxPayloadOffset = 56 := rfl
  have pd : rxPdLen = 0 := rfl
  unfold payloadAt
  rw [desc, payload, pd]
  split_ifs <;> omega

theorem payloadCopied_single {src base : Nat}
    (copies : payloadCopies rxbufEnd hostBufStart word = [⟨0, src, frameLen word⟩])
    (place : ∀ k, payloadAt rxbufEnd hostBufStart (ethHdrOffset word) (frameLen word).toNat k = base + k) :
    PayloadCopied rxbufEnd hostBufStart word ↔ src = base ∨ frameLen word = 0 := by
  have run (mem data : Nat → Byte) : skbData mem data (payloadCopies rxbufEnd hostBufStart word) =
      Memcpy.run mem data ⟨0, src, frameLen word⟩ := by
    rw [copies]
    rfl
  constructor
  · intro all
    by_contra other
    obtain ⟨elsewhere, some_⟩ := not_or.mp other
    have first : 0 < (frameLen word).toNat := by
      refine Nat.pos_of_ne_zero fun zero => some_ (BitVec.eq_of_toNat_eq zero)
    -- a chunk that differs from zero at the first byte of the payload only
    have byte := all.bytes (Function.update (fun _ => 0) base 1) (fun _ => 0) 0 first
    have read := Memcpy.run_inside (Function.update (fun _ => 0) base 1) (fun _ => 0) ⟨0, src, frameLen word⟩ first
    rw [run, place, Nat.add_zero, Function.update_self] at byte
    dsimp only at read
    rw [Nat.add_zero, byte, Nat.add_zero, Function.update_of_ne elsewhere] at read
    exact absurd read (by decide)
  · intro right
    refine ⟨fun m member => ?_, ?_, fun mem data k below => ?_, fun mem data k above => ?_⟩
    · rw [copies, List.mem_singleton] at member
      rw [member]
      exact BitVec.le_refl _
    · rw [copies]
      exact Nat.add_zero _
    · have same : src = base := by
        refine right.resolve_right fun zero => ?_
        rw [zero] at below
        exact absurd below (Nat.not_lt_zero k)
      rw [run, place, ← same]
      have read := Memcpy.run_inside mem data ⟨0, src, frameLen word⟩ below
      rw [Nat.zero_add] at read
      exact read
    · rw [run]
      exact Memcpy.run_outside (.inr (by rw [Nat.zero_add]; exact above))

theorem frameLen_lt (word : BitVec 32) : (frameLen word).toNat < 2 ^ 24 := by
  unfold frameLen
  rw [BitVec.toNat_ushiftRight, Nat.shiftRight_eq_div_pow]
  have bound := word.isLt
  omega

theorem ethHdrOffset_lt (word : BitVec 32) : ethHdrOffset word < 2 ^ 8 := (word.setWidth 8).isLt

theorem payloadCopied_split {uploadLen : BitVec 32}
    (copies : payloadCopies rxbufEnd hostBufStart word =
      [⟨0, hostBufStart + 56 + ethHdrOffset word, uploadLen⟩, ⟨uploadLen.toNat, rxbufEnd, frameLen word - uploadLen⟩])
    (place : ∀ k, payloadAt rxbufEnd hostBufStart (ethHdrOffset word) (frameLen word).toNat k =
      hostBufStart + 56 + ethHdrOffset word + k)
    (upload : hostBufStart + 56 + ethHdrOffset word + uploadLen.toNat = rxbufEnd)
    (less : uploadLen ≤ frameLen word) : PayloadCopied rxbufEnd hostBufStart word := by
  have rest : (frameLen word - uploadLen).toNat = (frameLen word).toNat - uploadLen.toNat :=
    BitVec.toNat_sub_of_le less
  have below := le_def.mp less
  have run (mem data : Nat → Byte) : skbData mem data (payloadCopies rxbufEnd hostBufStart word) =
      Memcpy.run mem (Memcpy.run mem data ⟨0, hostBufStart + 56 + ethHdrOffset word, uploadLen⟩)
        ⟨uploadLen.toNat, rxbufEnd, frameLen word - uploadLen⟩ := by
    rw [copies]
    rfl
  refine ⟨fun m member => ?_, ?_, fun mem data k inside => ?_, fun mem data k above => ?_⟩
  · rw [copies] at member
    rcases List.mem_pair.mp member with rfl | rfl
    · exact less
    · refine le_def.mpr ?_
      rw [rest]
      exact Nat.sub_le _ _
  · rw [copies]
    show uploadLen.toNat + ((frameLen word - uploadLen).toNat + 0) = _
    rw [rest]
    omega
  · rw [run, place]
    by_cases first : k < uploadLen.toNat
    · rw [Memcpy.run_outside (.inl first)]
      have read := Memcpy.run_inside mem data ⟨0, hostBufStart + 56 + ethHdrOffset word, uploadLen⟩ first
      rw [Nat.zero_add] at read
      exact read
    · obtain ⟨j, rfl⟩ := Nat.exists_eq_add_of_le (not_lt.mp first)
      have inside : j < (frameLen word - uploadLen).toNat := by omega
      have read := Memcpy.run_inside mem (Memcpy.run mem data ⟨0, hostBufStart + 56 + ethHdrOffset word, uploadLen⟩)
        ⟨uploadLen.toNat, rxbufEnd, frameLen word - uploadLen⟩ inside
      rw [← Nat.add_assoc, upload]
      exact read
  · rw [run, Memcpy.run_outside, Memcpy.run_outside]
    · exact .inr (by show 0 + uploadLen.toNat ≤ k; omega)
    · exact .inr (by show uploadLen.toNat + (frameLen word - uploadLen).toNat ≤ k; omega)

/-- The bytes before the wrap as `uint32_t`. -/
theorem uploadLen_fits (loop : hostBufStart < rxbufEnd ∧
      rxbufEnd < hostBufStart + 56 + ethHdrOffset word + (frameLen word).toNat)
    (fits : hostBufStart + 56 + ethHdrOffset word ≤ rxbufEnd) :
    (ofInt 32 ((rxbufEnd : Int) - hostBufStart - (56 : Nat) - ethHdrOffset word)).toNat =
      rxbufEnd - (hostBufStart + 56 + ethHdrOffset word) := by
  have small := frameLen_lt word
  rw [toNat_ofInt]
  omega

theorem uploadLen_wraps (across : rxbufEnd < hostBufStart + 56 + ethHdrOffset word)
    (descriptor : hostBufStart + 56 ≤ rxbufEnd) :
    2 ^ 32 - 2 ^ 8 < (ofInt 32 ((rxbufEnd : Int) - hostBufStart - (56 : Nat) - ethHdrOffset word)).toNat := by
  have offset := ethHdrOffset_lt word
  rw [toNat_ofInt]
  omega

/-- The copies with the sizes of the small descriptor; the branch without offset in the first part is
never taken. -/
theorem payloadCopies_eq (rxbufEnd hostBufStart : Nat) (word : BitVec 32) :
    payloadCopies rxbufEnd hostBufStart word = if hostBufStart < rxbufEnd ∧
          rxbufEnd < hostBufStart + 56 + ethHdrOffset word + (frameLen word).toNat then
        if hostBufStart + 56 < rxbufEnd then
          if hostBufStart + 56 + 56 < rxbufEnd then
            let uploadLen :=
              ofInt 32 ((rxbufEnd : Int) - hostBufStart - (56 : Nat) - ethHdrOffset word)
            [⟨0, hostBufStart + 56 + ethHdrOffset word, uploadLen⟩,
              ⟨uploadLen.toNat, rxbufEnd, frameLen word - uploadLen⟩]
          else [⟨0, rxbufEnd + ethHdrOffset word, frameLen word⟩]
        else [⟨0, rxbufEnd + 56 + ethHdrOffset word, frameLen word⟩]
      else [⟨0, hostBufStart + 56 + ethHdrOffset word, frameLen word⟩] := by
  have desc : rxDescSize.toNat = 56 := rfl
  have payload : rxPayloadOffset = 56 := rfl
  have pd : rxPdLen = 0 := rfl
  have unwrap : unwrapSize = 56 := rfl
  unfold payloadCopies
  dsimp only
  rw [desc, payload, pd, unwrap]
  refine if_congr Iff.rfl (ite_congr rfl (fun descriptor => ?_) fun _ => rfl) rfl
  rw [if_pos descriptor]
  rfl

/-- **The copies are those of the comment exactly in these states.** -/
theorem payload_copied_iff (rxbufEnd hostBufStart : Nat) (word : BitVec 32) :
    PayloadCopied rxbufEnd hostBufStart word ↔ CopySafe rxbufEnd hostBufStart word := by
  have desc : rxDescSize.toNat = 56 := rfl
  have payload : rxPayloadOffset = 56 := rfl
  have unwrap : unwrapSize = 56 := rfl
  have small := frameLen_lt word
  have offset := ethHdrOffset_lt word
  have place := payloadAt_eq rxbufEnd hostBufStart (ethHdrOffset word) (frameLen word).toNat
  have copies := payloadCopies_eq rxbufEnd hostBufStart word
  unfold CopySafe
  rw [desc, payload, unwrap]
  by_cases loop : hostBufStart < rxbufEnd ∧ rxbufEnd < hostBufStart + 56 + ethHdrOffset word + (frameLen word).toNat
  · have empty : frameLen word = 0 ↔ (frameLen word).toNat = 0 := BitVec.toNat_inj.symm
    rw [if_pos loop] at copies
    by_cases descriptor : hostBufStart + 56 < rxbufEnd
    · have contiguous := fun k => (place k).trans (if_neg (by omega))
      rw [if_pos descriptor] at copies
      by_cases unwraps : hostBufStart + 56 + 56 < rxbufEnd
      · rw [if_pos unwraps] at copies
        by_cases fits : hostBufStart + 56 + ethHdrOffset word ≤ rxbufEnd
        · have upload := uploadLen_fits loop fits
          refine iff_of_true (payloadCopied_split copies contiguous ?_ (BitVec.le_def.mpr ?_)) fun _ _ => ?_
          · rw [upload]
            omega
          · rw [upload]
            omega
          · exact .inl ⟨unwraps, fits⟩
        · refine iff_of_false (fun all => ?_) fun safe => ?_
          · have within := BitVec.le_def.mp (all.sizes _ (by rw [copies]; exact List.mem_cons_self))
            have wraps : 2 ^ 32 - 2 ^ 8 <
                (BitVec.ofInt 32 ((rxbufEnd : Int) - hostBufStart - (56 : Nat) - ethHdrOffset word)).toNat :=
              uploadLen_wraps (not_le.mp fits) (by omega)
            dsimp only at within
            omega
          · rcases safe (by omega) (by omega) with left | left
            · exact fits left.2
            · omega
      · rw [if_neg unwraps] at copies
        rw [payloadCopied_single copies contiguous, empty]
        omega
    · rw [if_neg descriptor] at copies
      by_cases moved : rxbufEnd < hostBufStart + 56
      · rw [payloadCopied_single copies fun k => (place k).trans (if_pos ⟨loop.1, moved⟩), empty]
        omega
      · rw [payloadCopied_single copies fun k => (place k).trans (if_neg (by omega)), empty]
        omega
  · rw [if_neg loop] at copies
    refine iff_of_true ((payloadCopied_single copies fun k => (place k).trans (if_neg ?_)).mpr (.inl rfl))
      fun _ _ => ?_
    · omega
    · omega

end Layout

/-- A frame of 200 bytes, 100 of them before the wrap. -/
theorem payload_copied_split : PayloadCopied 156 0 0xc800#32 :=
  (payload_copied_iff 156 0 0xc800#32).mpr (by decide)

/-- An Ethernet offset of 100 of which 60 bytes lie before the wrap: the first copy has `2 ^ 32 - 40`
bytes. -/
theorem offset_wrapped_not_copied : ¬ PayloadCopied 116 0 0xc864#32 :=
  fun all => absurd (all.sizes ⟨0, 156, 4294967256⟩ (by decide)) (by decide)

end W2l.Rx
