/-
**An A-MSDU on SDIO and USB: what is sent, and what the receiver makes of it.**

`aml_tx_task` (`aml_utils.c`) copies the TX header and the first payload of an A-MSDU into a zeroed
buffer and its subframes behind them. The firmware puts the subframe header and LLC/SNAP of the
first frame in front of its payload.

* `Buffer.copied`, `Buffer.announced` — the bytes in the buffer, and the length the bus is given.
* `Carried` — an MSDU carries a frame: its addresses, its Ethernet type and its payload.
-/

import W2lDriver.Amsdu.QueueRun

namespace W2l.Amsdu

open Cmd (BusType)
open Lib (Byte System slice slice_append slice_length Subframe be16 decode decode_encode)

/-! ### What is sent -/

/-- `SDIO_TXHEADER_LEN`; on USB only the descriptor. -/
def txheaderLen : BusType → Nat
  | .sdio => 4 + txdescHostLen
  | _ => txdescHostLen

def sdioFrameTailLen : Nat := 12

/-- `ALIGN(x, 4)`. -/
def align4 (x : Nat) : Nat := (x + 3) / 4 * 4

namespace Buffer

/-- The bytes `aml_tx_task` copies: from `frm` behind the `struct aml_txhdr`, then each subframe
with its padding. -/
def copied (bus : BusType) (b : Buffer) : List Byte :=
  slice b.skb.mem (b.skb.data + 8) (b.frameLen + txheaderLen bus) ++ b.hdrs.flatMap fun h =>
      slice h.skb.mem (h.skb.data + amsduTxhdrLen + 14) (h.msduLen + 14 + h.pad)

/-- `scat_list[].len`. -/
def announced (bus : BusType) (b : Buffer) : Nat :=
  match bus with
  | .usb => align4 (b.copied .usb).length
  | _ => b.packetLen.sum + txheaderLen bus + sdioFrameTailLen

end Buffer

def EthFrame.firmwareHeader (f : EthFrame) : List Byte := f.subframe.header ++ f.llcSnap

/-- **An MSDU carries a frame.** -/
structure Carried (f : EthFrame) (msdu : Subframe) : Prop where
  dest : msdu.dest = f.dest
  source : msdu.source = f.source
  typed : f.typed = true → msdu.body = rfc1042Header ++ (be16 f.proto ++ f.payload)
  untyped : f.typed = false → msdu.body = f.payload

theorem EthFrame.subframe_carried (f : EthFrame) : Carried f f.subframe where
  dest := rfl
  source := rfl
  typed := by
    intro typed
    show f.llcSnap ++ f.payload = _
    rw [EthFrame.llcSnap, if_pos typed, List.append_assoc]
  untyped := by
    intro untyped
    show f.llcSnap ++ f.payload = _
    rw [EthFrame.llcSnap, if_neg (by rw [untyped]; decide), List.nil_append]

theorem EthFrame.firmwareHeader_payload (f : EthFrame) (tail : List Byte) :
    f.firmwareHeader ++ (f.payload ++ tail) = f.subframe.raw ++ tail := by
  show (f.subframe.header ++ f.llcSnap) ++ (f.payload ++ tail) = f.subframe.header ++ (f.llcSnap ++ f.payload) ++ tail
  simp only [List.append_assoc]

/-! ### What is copied -/

namespace BufferInv

variable {bus : BusType} {b : Buffer}

section

variable (inv : BufferInv bus b)

include inv

theorem copied_hdrs : (b.hdrs.flatMap fun h =>
      slice h.skb.mem (h.skb.data + amsduTxhdrLen + 14) (h.msduLen + 14 + h.pad)) =
      Buffer.laidOut b.hdrs := by
  have each := List.map_congr_left fun h member => (inv.subs h member).bytes
  rw [Buffer.laidOut, List.flatMap_def, List.flatMap_def, ← each]
  refine congrArg List.flatten (List.map_congr_left fun h _ => ?_)
  congr 1
  omega

theorem copied_drop (onBus : bus ≠ .pcie) :
    (b.copied bus).drop (txheaderLen bus) = b.frame.payload ++ Buffer.laidOut b.hdrs := by
  have header : (slice b.skb.mem (b.skb.data + 8) (txheaderLen bus)).length = txheaderLen bus :=
    slice_length
  have place : payloadOff bus b.skb = b.skb.data + 8 + txheaderLen bus := by
    cases bus with
    | pcie => exact absurd rfl onBus
    | sdio => rfl
    | usb => rfl
  have payload := inv.payload
  rw [place] at payload
  rw [Buffer.copied, inv.copied_hdrs, Nat.add_comm b.frameLen, slice_append, inv.frameLen, payload,
    List.append_assoc, List.drop_left' header]

theorem copied_length : (b.copied bus).length = txheaderLen bus + b.packetLen.sum := by
  rw [Buffer.copied, List.length_append, slice_length, List.length_flatMap, inv.packetLen, List.sum_cons]
  simp only [slice_length]
  omega

theorem announced_eq (onBus : bus ≠ .pcie) :
    b.announced bus = if bus = .sdio then (b.copied bus).length + sdioFrameTailLen
      else align4 (b.copied bus).length := by
  have length := inv.copied_length
  cases bus with
  | pcie => exact absurd rfl onBus
  | sdio =>
    rw [if_pos rfl, length, Nat.add_comm (txheaderLen .sdio)]
    rfl
  | usb => rfl

theorem decode_copied (onBus : bus ≠ .pcie) (amsdu : b.txuAmsdu = true) :
    decode (b.frame.firmwareHeader ++ (b.copied bus).drop (txheaderLen bus)) =
      some (b.frames.map EthFrame.subframe) := by
  rw [inv.copied_drop onBus, b.frame.firmwareHeader_payload, (inv.aggregated amsdu).laid, Buffer.body, decode_encode]

end

end BufferInv

/-! ### The round trip -/

/-- **The receiver gets the frames of an A-MSDU back**, and the bus the length of what is sent. -/
theorem amsdu_roundTrip {bus : BusType} {sta : Bool} {guard : Txq → TxqAct → Prop} {s : Txq}
    (reach : (txqSystem bus sta).Reachable guard s) (onBus : bus ≠ .pcie) {b : Buffer}
    (sent : b ∈ s.inFlight) (amsdu : b.txuAmsdu = true) :
    (∃ msdus, decode (b.frame.firmwareHeader ++ (b.copied bus).drop (txheaderLen bus)) = some msdus ∧
        List.Forall₂ Carried b.frames msdus) ∧
      (b.copied bus).length = txheaderLen bus + b.packetLen.sum ∧
      b.announced bus = if bus = .sdio then (b.copied bus).length + sdioFrameTailLen
        else align4 (b.copied bus).length := by
  have inv := BufferInv.of_reachable reach (List.mem_append_right _ sent)
  refine ⟨⟨_, inv.decode_copied onBus amsdu, ?_⟩, inv.copied_length, inv.announced_eq onBus⟩
  refine List.forall₂_map_right_iff.mpr (List.forall₂_same.mpr fun f _ => f.subframe_carried)

def twoFramesSent : List TxqAct := twoFrames ++ [.push (List.replicate txdescHostLen 0)]

theorem amsdu_roundTrip_sdio : ∃ s, (txqSystem .sdio true).Reachable (fun _ _ => True) s ∧
      ∃ b ∈ s.inFlight, b.frames.length = 2 ∧ b.announced .sdio = (b.copied .sdio).length + sdioFrameTailLen ∧
        ∃ msdus, decode (b.frame.firmwareHeader ++ (b.copied .sdio).drop (txheaderLen .sdio)) =
            some msdus ∧ List.Forall₂ Carried b.frames msdus := by
  have reach := System.reachable_of_run (txqSystem .sdio true) (fun _ _ => True) twoFramesSent (by decide +kernel)
  have one : ∃ b ∈ (Option.get (System.run (txqSystem .sdio true) (fun _ _ => True)
      (txqSystem .sdio true).init twoFramesSent) (by decide +kernel)).inFlight,
      b.txuAmsdu = true ∧ b.frames.length = 2 := by decide +kernel
  obtain ⟨b, sent, amsdu, two⟩ := one
  obtain ⟨back, -, announced⟩ := amsdu_roundTrip reach (by decide) sent amsdu
  exact ⟨_, reach, b, sent, two, announced, back⟩

/-- **On USB the length announced can be more than what is copied**: it is a multiple of four. -/
theorem amsdu_usb_rounded : ¬ ∀ (sta : Bool) (s : Txq), (txqSystem .usb sta).Reachable (fun _ _ => True) s →
      ∀ b ∈ s.inFlight, b.txuAmsdu = true →
        decode (b.frame.firmwareHeader ++ (b.copied .usb).drop (txheaderLen .usb)) =
            some (b.frames.map EthFrame.subframe) ∧
          b.announced .usb = (b.copied .usb).length := by
  intro all
  have reach := System.reachable_of_run (txqSystem .usb true) (fun _ _ => True) twoFramesSent (by decide +kernel)
  have same := all true _ reach
  have rounded : ¬ ∀ b ∈ (Option.get (System.run (txqSystem .usb true) (fun _ _ => True)
      (txqSystem .usb true).init twoFramesSent) (by decide +kernel)).inFlight,
      b.txuAmsdu = true → b.announced .usb = (b.copied .usb).length := by decide +kernel
  exact rounded fun b sent amsdu => (same b sent amsdu).2

end W2l.Amsdu
