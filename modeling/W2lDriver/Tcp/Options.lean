/-
**The options of a TCP header.**

`aml_tcp_ack.c`. `aml_check_tcp_ack_type` looks for pure ACKs and for SYN-ACKs, and
`aml_get_tcp_ack_info` walks the options of their TCP header for the window scale. The `break` at the
end-of-options byte and at an option of a bad length leaves the `switch`, not the loop.

* `amlGetTcpAckInfo`, `amlCheckTcpAckType` — the two functions, with the bytes the walk reads.
* `Item`, `items` — the options of a header up to the first byte that ends them.
* `ScanRight` — the walk ends, inside the options, at that byte, and finds the window scale.
-/

import W2lDriver.Lib.Bytes
import W2lDriver.Lib.Stored
import W2lDriver.Tcp.Session

namespace W2l.Tcp

open Lib
open List (append_assoc flatMap_cons length_append length_cons mem_append mem_append_left mem_cons
  mem_cons_self mem_singleton not_mem_nil)

/-! ### The code -/

/-- `TCPOPT_EOL`, `TCPOPT_NOP`, `TCPOPT_WINDOW`, `TCPOPT_TIMESTAMP`. -/
def tcpoptEol : Byte := 0
def tcpoptNop : Byte := 1
def tcpoptWindow : Byte := 3
def tcpoptTimestamp : Byte := 8

/-- The variables of the walk, the positions it reads, and those where it looks for an option. -/
structure Walk where
  ptr : ℕ
  /-- A length below zero is like 0: the loop is not entered. -/
  len : ℕ
  type : ℕ := 1
  winScale : Option (BitVec 16) := none
  reads : List ℕ := []
  starts : List ℕ := []

/-- `*ptr++`. -/
def Walk.next (w : Walk) : Walk := { w with ptr := w.ptr + 1, reads := w.reads ++ [w.ptr] }

/-- The inner `switch`, for an option of a length that fits. -/
def Walk.take (mem : ℕ → Byte) (w : Walk) (opcode : Byte) (opsize : ℕ) : Walk :=
  let w :=
    if opcode = tcpoptTimestamp then w
    else if opcode = tcpoptWindow then
      { w with
        reads := w.reads ++ [w.ptr]
        winScale := if (mem w.ptr).toNat < 15 then some (1 <<< (mem w.ptr).toNat) else w.winScale }
    else { w with type := 2 }
  { w with ptr := w.ptr + (opsize - 2), len := w.len - opsize }

def Walk.round (mem : ℕ → Byte) (w : Walk) : Walk :=
  let opcode := mem w.ptr
  let w := { w with starts := w.starts ++ [w.ptr] }.next
  -- `break` leaves the `switch`
  if opcode = tcpoptEol then w
  else if opcode = tcpoptNop then { w with len := w.len - 1 }
  else
    let opsize := (mem w.ptr).toNat
    let w := w.next
    if opsize < 2 then w
    else if w.len < opsize then w
    else w.take mem opcode opsize

def rounds (mem : ℕ → Byte) : ℕ → Walk → Option Walk
  | 0, _ => none
  | fuel + 1, w => if 0 < w.len ∧ w.type ≠ 0 then rounds mem fuel (w.round mem) else some w

/-- `doff * 4` of the header at `tcphdr`, and `sizeof(struct tcphdr)`. -/
def hdrLen (mem : ℕ → Byte) (tcphdr : ℕ) : ℕ := (mem (tcphdr + 12)).toNat / 16 * 4
def tcphdrSize : ℕ := 20

def amlGetTcpAckInfo (mem : ℕ → Byte) (tcphdr : ℕ) (tcpTotLen : ℤ) (fuel : ℕ) : Option Walk :=
  if (hdrLen mem tcphdr : ℤ) < tcpTotLen then
    some { ptr := tcphdr + tcphdrSize, len := hdrLen mem tcphdr, type := 0 }
  else rounds mem fuel { ptr := tcphdr + tcphdrSize, len := hdrLen mem tcphdr - tcphdrSize }

/-- The number in two bytes of the packet, the high byte first. -/
def ntohs (mem : ℕ → Byte) (off : ℕ) : ℕ := (mem off ++ mem (off + 1)).toNat

/-- `sizeof(struct ethhdr)`, `ETH_P_IP`, `IPPROTO_TCP`. -/
def ethhdrSize : ℕ := 14
def ethPIp : ℕ := 0x0800
def ipprotoTcp : Byte := 6

/-- The call of `aml_get_tcp_ack_info` for a packet: the TCP header and the length. For a SYN-ACK
`tcp_tot_len` is not set; `unset` is what it holds. -/
def ackInfoCall (mem : ℕ → Byte) (unset : ℤ) : Option (ℕ × ℤ) :=
  let iphdr := ethhdrSize
  let ipHdrLen := (mem iphdr).toNat % 16 * 4
  let tcphdr := iphdr + ipHdrLen
  if ntohs mem 12 ≠ ethPIp then none
  else if (mem iphdr).toNat / 16 ≠ 4 ∨ mem (iphdr + 9) ≠ ipprotoTcp then none
  else if mem (tcphdr + 13) = 0x10 then some (tcphdr, ntohs mem (iphdr + 2) - ipHdrLen)
  else if mem (tcphdr + 13) = 0x12 then some (tcphdr, unset)
  else none

structure PktInfo where
  flow : Flow
  seq : BitVec 32
  win : BitVec 16

/-- The `struct aml_pkt_info` of a packet; addresses and ports stay in network order. -/
def pktInfo (mem : ℕ → Byte) (tcphdr : ℕ) : PktInfo where
  flow :=
    { source := mem (tcphdr + 1) ++ mem tcphdr
      dest := mem (tcphdr + 3) ++ mem (tcphdr + 2)
      saddr := mem (ethhdrSize + 15) ++ mem (ethhdrSize + 14) ++ mem (ethhdrSize + 13) ++ mem (ethhdrSize + 12)
      daddr := mem (ethhdrSize + 19) ++ mem (ethhdrSize + 18) ++ mem (ethhdrSize + 17) ++
        mem (ethhdrSize + 16) }
  seq := mem (tcphdr + 8) ++ mem (tcphdr + 9) ++ mem (tcphdr + 10) ++ mem (tcphdr + 11)
  win := mem (tcphdr + 14) ++ mem (tcphdr + 15)

/-- `aml_check_tcp_ack_type`: what it returns, `*msg` and `*win_scale` where they are written. -/
def amlCheckTcpAckType (mem : ℕ → Byte) (unset : ℤ) (fuel : ℕ) : Option (ℕ × Option PktInfo × Option (BitVec 16)) :=
  match ackInfoCall mem unset with
  | none => some (0, none, none)
  | some (tcphdr, tcpTotLen) =>
    (amlGetTcpAckInfo mem tcphdr tcpTotLen fuel).map fun w =>
      if mem (tcphdr + 13) = 0x12 then (0, none, w.winScale)
      else (w.type, if 0 < w.type then some (pktInfo mem tcphdr) else none, w.winScale)

/-! ### Options -/

/-- An option that is well formed. -/
inductive Item
  | nop
  | opt (kind : Byte) (data : List Byte)
  deriving DecidableEq

namespace Item

def bytes : Item → List Byte
  | nop => [tcpoptNop]
  | opt kind data => kind :: BitVec.ofNat 8 (data.length + 2) :: data

def Proper : Item → Prop
  | nop => True
  | opt kind data => kind ≠ tcpoptEol ∧ kind ≠ tcpoptNop ∧ data.length + 2 < 256

end Item

def itemsBytes (is : List Item) : List Byte := is.flatMap Item.bytes

/-- The options in some bytes, up to an end-of-options byte or an option of a bad length, and the bytes
from there on. -/
def items : ℕ → List Byte → List Item × List Byte
  | 0, area => ([], area)
  | _ + 1, [] => ([], [])
  | fuel + 1, kind :: rest =>
    if kind = tcpoptEol then ([], kind :: rest)
    else if kind = tcpoptNop then
      let (is, left) := items fuel rest
      (.nop :: is, left)
    else
      match rest with
      | [] => ([], [kind])
      | size :: body =>
        if size.toNat < 2 ∨ body.length + 2 < size.toNat then ([], kind :: size :: body)
        else
          let (is, left) := items fuel (body.drop (size.toNat - 2))
          (.opt kind (body.take (size.toNat - 2)) :: is, left)

/-- What ends the options in front of the end of the header. -/
inductive Stop : List Byte → Prop
  | eol (rest : List Byte) : Stop (tcpoptEol :: rest)
  | lone (kind : Byte) (other : kind ≠ tcpoptNop) : Stop [kind]
  | size (kind size : Byte) (body : List Byte) (other : kind ≠ tcpoptNop)
      (bad : size.toNat < 2 ∨ body.length + 2 < size.toNat) : Stop (kind :: size :: body)

theorem items_spec (fuel : ℕ) (area : List Byte) (enough : area.length ≤ fuel) :
    area = itemsBytes (items fuel area).1 ++ (items fuel area).2 ∧
      (∀ i ∈ (items fuel area).1, i.Proper) ∧ ((items fuel area).2 = [] ∨ Stop (items fuel area).2) := by
  induction fuel generalizing area with
  | zero =>
    obtain rfl := List.length_eq_zero_iff.mp (Nat.le_zero.mp enough)
    exact ⟨rfl, fun _ member => absurd member not_mem_nil, .inl rfl⟩
  | succ fuel ih =>
    cases area with
    | nil => exact ⟨rfl, fun _ member => absurd member not_mem_nil, .inl rfl⟩
    | cons kind rest =>
      unfold items
      by_cases eol : kind = tcpoptEol
      · rw [if_pos eol, eol]
        exact ⟨rfl, fun _ member => absurd member not_mem_nil, .inr (.eol rest)⟩
      rw [if_neg eol]
      by_cases nop : kind = tcpoptNop
      · obtain ⟨whole, proper, left⟩ := ih rest (Nat.le_of_succ_le_succ enough)
        rw [if_pos nop, nop]
        refine ⟨congrArg (tcpoptNop :: ·) whole, fun i member => ?_, left⟩
        rcases mem_cons.mp member with rfl | later
        · trivial
        · exact proper i later
      rw [if_neg nop]
      cases rest with
      | nil => exact ⟨rfl, fun _ member => absurd member not_mem_nil, .inr (.lone kind nop)⟩
      | cons size body =>
        dsimp only
        by_cases bad : size.toNat < 2 ∨ body.length + 2 < size.toNat
        · rw [if_pos bad]
          exact ⟨rfl, fun _ member => absurd member not_mem_nil, .inr (.size kind size body nop bad)⟩
        · obtain ⟨low, high⟩ := not_or.mp bad
          rw [length_cons, length_cons] at enough
          obtain ⟨whole, proper, left⟩ := ih (body.drop (size.toNat - 2)) (by rw [List.length_drop]; omega)
          have length : (body.take (size.toNat - 2)).length + 2 = size.toNat := by
            rw [List.length_take]
            omega
          rw [if_neg bad]
          refine ⟨?_, fun i member => ?_, left⟩
          · show kind :: size :: body = kind :: BitVec.ofNat 8 ((body.take (size.toNat - 2)).length + 2) ::
              (body.take (size.toNat - 2) ++ itemsBytes _) ++ _
            rw [length, BitVec.ofNat_toNat, BitVec.setWidth_eq, List.cons_append, List.cons_append,
              append_assoc, ← whole, List.take_append_drop]
          · rcases mem_cons.mp member with rfl | later
            · exact ⟨eol, nop, lt_of_eq_of_lt length size.isLt⟩
            · exact proper i later

/-- The bytes behind the headers of the window-scale options. -/
def shifts : List Item → List Byte
  | [] => []
  | .nop :: is => shifts is
  | .opt kind data :: is =>
    if kind = tcpoptWindow then (data ++ itemsBytes is).head?.toList ++ shifts is else shifts is

def HasWindow (is : List Item) : Prop :=
  ∃ i ∈ is, ∃ shift : Byte, i = .opt tcpoptWindow [shift] ∧ shift.toNat < 15

def begins : ℕ → List Item → List ℕ
  | _, [] => []
  | off, i :: is => off :: begins (off + i.bytes.length) is

/-! ### The walk over options -/

section Walked

variable {mem : ℕ → Byte}

def Walk.after (mem : ℕ → Byte) (w : Walk) : Item → Walk
  | .nop => { { w with starts := w.starts ++ [w.ptr] }.next with len := w.len - 1 }
  | .opt kind data => ({ w with starts := w.starts ++ [w.ptr] }.next.next).take mem kind (data.length + 2)

theorem round_item {w : Walk} {i : Item} (stored : Stored mem w.ptr i.bytes) (proper : i.Proper)
    (fits : i.bytes.length ≤ w.len) : w.round mem = w.after mem i := by
  cases i with
  | nop =>
    have opcode : mem w.ptr = tcpoptNop := stored_singleton.mp stored
    unfold Walk.round
    rw [opcode]
    rfl
  | opt kind data =>
    obtain ⟨opcode, behind⟩ := stored_cons.mp stored
    obtain ⟨size, -⟩ := stored_cons.mp behind
    obtain ⟨notEol, notNop, short⟩ := proper
    have opsize : (mem (w.ptr + 1)).toNat = data.length + 2 := by
      rw [size, BitVec.toNat_ofNat]
      exact Nat.mod_eq_of_lt short
    unfold Walk.round
    dsimp only
    rw [opcode, if_neg notEol, if_neg notNop]
    show (if (mem (w.ptr + 1)).toNat < 2 then _ else if w.len < (mem (w.ptr + 1)).toNat then _ else
      Walk.take mem _ kind (mem (w.ptr + 1)).toNat) = _
    have room : ¬w.len < data.length + 2 := not_lt.mpr fits
    rw [opsize, if_neg (by omega), if_neg room]
    rfl

/-- What an option leaves of the walk. -/
structure Advanced (mem : ℕ → Byte) (i : Item) (w w' : Walk) : Prop where
  ptr : w'.ptr = w.ptr + i.bytes.length
  len : w'.len = w.len - i.bytes.length
  starts : w'.starts = w.starts ++ [w.ptr]
  live : w.type ≠ 0 → w'.type ≠ 0
  kept : ∀ a ∈ w.reads, a ∈ w'.reads
  reads : ∀ a ∈ w'.reads, a ∈ w.reads ∨ w.ptr ≤ a ∧
    (a < w.ptr + i.bytes.length ∨ i = .opt tcpoptWindow [] ∧ a = w.ptr + i.bytes.length)
  bare : i = .opt tcpoptWindow [] → w.ptr + i.bytes.length ∈ w'.reads
  winScale : w'.winScale ≠ none ↔ w.winScale ≠ none ∨
    ∃ data, i = .opt tcpoptWindow data ∧ (mem (w.ptr + 2)).toNat < 15

theorem after_advanced (w : Walk) (i : Item) : Advanced mem i w (w.after mem i) := by
  cases i with
  | nop =>
    refine ⟨rfl, rfl, rfl, id, fun a member => mem_append_left _ member, fun a member => ?_,
      fun same => (nomatch same), (or_iff_left fun ⟨_, same, _⟩ => (nomatch same)).symm⟩
    rcases mem_append.mp member with before | now
    · exact .inl before
    · obtain rfl := mem_singleton.mp now
      exact .inr ⟨Nat.le_refl _, .inl (Nat.lt_succ_self _)⟩
  | opt kind data =>
    have length : (Item.opt kind data).bytes.length = data.length + 2 := rfl
    have place : w.ptr + 1 + 1 + (data.length + 2 - 2) = w.ptr + (data.length + 2) := by omega
    have header : ∀ a ∈ w.reads ++ [w.ptr] ++ [w.ptr + 1], a ∈ w.reads ∨ w.ptr ≤ a ∧ a < w.ptr + 2 := by
      intro a member
      rw [append_assoc] at member
      rcases mem_append.mp member with before | now
      · exact .inl before
      · rcases mem_cons.mp now with rfl | now
        · exact .inr ⟨Nat.le_refl _, by omega⟩
        · obtain rfl := mem_singleton.mp now
          exact .inr ⟨Nat.le_succ _, by omega⟩
    have old : ∀ a ∈ w.reads, a ∈ w.reads ++ [w.ptr] ++ [w.ptr + 1] := fun a member =>
      mem_append_left _ (mem_append_left _ member)
    unfold Walk.after Walk.take
    dsimp only
    by_cases timestamp : kind = tcpoptTimestamp
    · have other : kind ≠ tcpoptWindow := timestamp ▸ by decide
      rw [if_pos timestamp]
      refine ⟨place, rfl, rfl, id, old, fun a member => ?_, ?_, ?_⟩
      · exact (header a member).imp_right fun ⟨low, high⟩ => ⟨low, .inl (by rw [length]; omega)⟩
      · exact fun same => absurd (Item.opt.inj same).1 other
      · exact (or_iff_left fun ⟨_, same, _⟩ => other (Item.opt.inj same).1).symm
    rw [if_neg timestamp]
    by_cases window : kind = tcpoptWindow
    · rw [if_pos window]
      refine ⟨place, rfl, rfl, id, fun a member => mem_append_left _ (old a member),
        fun a member => ?_, fun same => ?_, ?_⟩
      · rcases mem_append.mp member with before | now
        · exact (header a before).imp_right fun ⟨low, high⟩ => ⟨low, .inl (by rw [length]; omega)⟩
        · obtain rfl : a = w.ptr + 2 := mem_singleton.mp now
          refine .inr ⟨Nat.le_add_right _ _, ?_⟩
          cases data with
          | nil => exact .inr ⟨congrArg (Item.opt · []) window, rfl⟩
          | cons shift rest => exact .inl (by rw [length, length_cons]; omega)
      · obtain ⟨-, rfl⟩ := Item.opt.inj same
        exact List.mem_append_right _ (List.mem_singleton_self _)
      · show (if (mem (w.ptr + 2)).toNat < 15 then some _ else w.winScale) ≠ none ↔ _
        split
        case isTrue small =>
          exact iff_of_true (Option.some_ne_none _) (.inr ⟨data, congrArg (Item.opt · data) window, small⟩)
        case isFalse large => exact (or_iff_left fun ⟨_, _, small⟩ => large small).symm
    · rw [if_neg window]
      refine ⟨place, rfl, rfl, fun _ => Nat.succ_ne_zero 1, old, fun a member => ?_, ?_, ?_⟩
      · exact (header a member).imp_right fun ⟨low, high⟩ => ⟨low, .inl (by rw [length]; omega)⟩
      · exact fun same => absurd (Item.opt.inj same).1 window
      · exact (or_iff_left fun ⟨_, same, _⟩ => window (Item.opt.inj same).1).symm

/-- What options leave of the walk; `wide` says that the last one is no window scale without a shift. -/
structure Walked (mem : ℕ → Byte) (is : List Item) (w w' : Walk) : Prop where
  ptr : w'.ptr = w.ptr + (itemsBytes is).length
  len : w'.len = w.len - (itemsBytes is).length
  starts : w'.starts = w.starts ++ begins w.ptr is
  live : w'.type ≠ 0
  kept : ∀ a ∈ w.reads, a ∈ w'.reads
  reads : ∀ a ∈ w'.reads, a ∈ w.reads ∨ w.ptr ≤ a ∧ (a < w.ptr + (itemsBytes is).length ∨
    is.getLast? = some (.opt tcpoptWindow []) ∧ a = w.ptr + (itemsBytes is).length)
  bare : is.getLast? = some (.opt tcpoptWindow []) → w.ptr + (itemsBytes is).length ∈ w'.reads
  winScale : is.getLast? ≠ some (.opt tcpoptWindow []) →
    (w'.winScale ≠ none ↔ w.winScale ≠ none ∨ ∃ shift ∈ shifts is, shift.toNat < 15)

theorem bytes_pos (i : Item) : 0 < i.bytes.length := by
  cases i with
  | nop => exact Nat.one_pos
  | opt kind data => exact Nat.succ_pos _

/-- **The walk goes over well-formed options.** -/
theorem rounds_items (is : List Item) (w : Walk) (proper : ∀ i ∈ is, i.Proper)
    (stored : Stored mem w.ptr (itemsBytes is)) (fits : (itemsBytes is).length ≤ w.len) (live : w.type ≠ 0) :
    ∃ w', (∀ fuel, rounds mem (is.length + fuel) w = rounds mem fuel w') ∧ Walked mem is w w' := by
  induction is generalizing w with
  | nil =>
    refine ⟨w, fun fuel => by rw [List.length_nil, Nat.zero_add], rfl, rfl, (List.append_nil _).symm, live,
      fun _ member => member, fun _ member => .inl member, fun same => (nomatch same), fun _ => ?_⟩
    exact (or_iff_left fun ⟨_, member, _⟩ => not_mem_nil member).symm
  | cons i is ih =>
    have whole : itemsBytes (i :: is) = i.bytes ++ itemsBytes is := flatMap_cons
    have length : (itemsBytes (i :: is)).length = i.bytes.length + (itemsBytes is).length := by
      rw [whole, length_append]
    rw [whole] at stored
    obtain ⟨first, rest⟩ := stored_append.mp stored
    have one : Advanced mem i w (w.after mem i) := after_advanced w i
    have positive := bytes_pos i
    obtain ⟨w', run, walked⟩ := ih (w.after mem i) (fun j member => proper j (List.mem_cons_of_mem i member))
      (by rw [one.ptr]; exact rest) (by rw [one.len]; omega) (one.live live)
    have end_ : w.ptr + i.bytes.length + (itemsBytes is).length = w.ptr + (itemsBytes (i :: is)).length := by
      rw [length, Nat.add_assoc]
    have last : ∀ j is', is = j :: is' → (i :: is).getLast? = is.getLast? := fun j is' same => by
      rw [same, List.getLast?_cons_cons]
    refine ⟨w', fun fuel => ?_, ?_⟩
    · rw [length_cons, Nat.add_right_comm]
      show (if 0 < w.len ∧ w.type ≠ 0 then rounds mem (is.length + fuel) (w.round mem) else _) = _
      rw [if_pos ⟨by omega, live⟩, round_item first (proper i mem_cons_self) (by omega), run]
    constructor
    case ptr => rw [walked.ptr, one.ptr, end_]
    case len => rw [walked.len, one.len, length, Nat.sub_sub]
    case starts =>
      rw [walked.starts, one.starts, one.ptr, append_assoc]
      rfl
    case live => exact walked.live
    case kept => exact fun a member => walked.kept a (one.kept a member)
    case reads =>
      intro a member
      rcases walked.reads a member with before | ⟨low, high⟩
      · refine (one.reads a before).imp_right fun ⟨low, high⟩ => ⟨low, ?_⟩
        rcases high with inside | ⟨same, here⟩
        · exact .inl (by omega)
        · cases is with
          | nil => exact .inr ⟨congrArg some same, here.trans (congrArg (w.ptr + ·) length.symm)⟩
          | cons j is' =>
            have next := bytes_pos j
            have more : (itemsBytes (j :: is')).length = j.bytes.length + (itemsBytes is').length := by
              rw [itemsBytes, flatMap_cons, length_append]
              rfl
            exact .inl (by omega)
      · rw [one.ptr] at low high
        refine .inr ⟨by omega, high.imp (fun inside => by omega) fun ⟨same, here⟩ => ⟨?_, by omega⟩⟩
        cases is with
        | nil => nomatch same
        | cons j is' => rw [last j is' rfl, same]
    case bare =>
      intro same
      cases is with
      | nil =>
        rw [length]
        exact walked.kept _ (one.bare (Option.some.inj same))
      | cons j is' =>
        rw [last j is' rfl] at same
        have there := walked.bare same
        rw [one.ptr, end_] at there
        exact there
    case winScale =>
      intro wide
      have wide' : is.getLast? ≠ some (.opt tcpoptWindow []) := by
        cases is with
        | nil => exact fun same => (nomatch same)
        | cons j is' => rwa [last j is' rfl] at wide
      rw [walked.winScale wide', one.winScale, or_assoc]
      refine or_congr_right ?_
      cases i with
      | nop => exact or_iff_right fun ⟨_, same, _⟩ => (nomatch same)
      | opt kind data =>
        rw [shifts]
        by_cases window : kind = tcpoptWindow
        · rw [if_pos window]
          subst window
          -- The byte behind the header is of the option, or of the next one.
          have next : ∃ shift, (data ++ itemsBytes is).head? = some shift ∧ mem (w.ptr + 2) = shift := by
            have behind : Stored mem (w.ptr + 1 + 1) (data ++ itemsBytes is) :=
              (stored_cons.mp (stored_cons.mp stored).2).2
            cases bytes : data ++ itemsBytes is with
            | nil =>
              obtain ⟨none_, empty⟩ := List.append_eq_nil_iff.mp bytes
              cases is with
              | nil => exact absurd (congrArg (fun data => some (Item.opt tcpoptWindow data)) none_) wide
              | cons j is' =>
                have := bytes_pos j
                rw [itemsBytes, flatMap_cons, List.append_eq_nil_iff] at empty
                rw [empty.1] at this
                exact absurd this (Nat.lt_irrefl 0)
            | cons shift rest =>
              rw [bytes] at behind
              exact ⟨shift, rfl, (stored_cons.mp behind).1⟩
          obtain ⟨shift, head, here⟩ := next
          rw [head, here]
          refine ⟨fun either => ?_, fun ⟨s, member, small⟩ => ?_⟩
          · rcases either with ⟨_, _, small⟩ | ⟨s, member, small⟩
            · exact ⟨shift, mem_cons_self, small⟩
            · exact ⟨s, List.mem_cons_of_mem shift member, small⟩
          · rcases mem_cons.mp member with rfl | later
            · exact .inl ⟨data, rfl, small⟩
            · exact .inr ⟨s, later, small⟩
        · rw [if_neg window]
          exact or_iff_right fun ⟨_, same, _⟩ => window (Item.opt.inj same).1

/-! ### The walk behind the options -/

theorem round_starts (w : Walk) : (w.round mem).starts = w.starts ++ [w.ptr] := by
  unfold Walk.round
  dsimp only
  split
  · rfl
  · split
    · rfl
    · split
      · rfl
      · split
        · rfl
        · unfold Walk.take
          dsimp only
          split
          · rfl
          · split <;> rfl

theorem rounds_starts {fuel : ℕ} {w w' : Walk} (run : rounds mem fuel w = some w') : w.starts <+: w'.starts := by
  induction fuel generalizing w with
  | zero => nomatch run
  | succ fuel ih =>
    rw [rounds] at run
    split at run
    · have longer : w.starts <+: (w.round mem).starts := round_starts w ▸ List.prefix_append _ _
      exact longer.trans (ih run)
    · exact Option.some.inj run ▸ List.prefix_rfl

theorem rounds_mono {fuel : ℕ} {w w' : Walk} (run : rounds mem fuel w = some w') (more : ℕ) :
    rounds mem (more + fuel) w = some w' := by
  induction fuel generalizing w with
  | zero => nomatch run
  | succ fuel ih =>
    rw [rounds] at run
    rw [← Nat.add_assoc, rounds]
    split at run
    case isTrue goes =>
      rw [if_pos goes]
      exact ih run
    case isFalse ends => rwa [if_neg ends]

theorem round_stop {w : Walk} {left : List Byte} (stop : Stop left) (stored : Stored mem w.ptr left)
    (len : w.len = left.length) : (w.round mem).len = w.len ∧ (w.round mem).type = w.type := by
  have opcode : ∀ kind rest, left = kind :: rest → mem w.ptr = kind := fun kind rest same => by
    rw [same] at stored
    exact (stored_cons.mp stored).1
  unfold Walk.round
  dsimp only
  by_cases eol : mem w.ptr = tcpoptEol
  · rw [if_pos eol]
    exact ⟨rfl, rfl⟩
  rw [if_neg eol]
  cases stop with
  | eol rest => exact absurd (opcode _ _ rfl) eol
  | lone kind other =>
    rw [opcode _ _ rfl, if_neg other]
    show Walk.len (if (mem (w.ptr + 1)).toNat < 2 then _ else if w.len < (mem (w.ptr + 1)).toNat then _
      else _) = _ ∧ Walk.type (if (mem (w.ptr + 1)).toNat < 2 then _ else if w.len <
        (mem (w.ptr + 1)).toNat then _ else _) = _
    rw [List.length_singleton] at len
    by_cases small : (mem (w.ptr + 1)).toNat < 2
    · rw [if_pos small]
      exact ⟨rfl, rfl⟩
    · rw [if_neg small, if_pos (by omega)]
      exact ⟨rfl, rfl⟩
  | size kind size body other bad =>
    have opsize : mem (w.ptr + 1) = size := (stored_cons.mp (stored_cons.mp stored).2).1
    rw [opcode _ _ rfl, if_neg other]
    show Walk.len (if (mem (w.ptr + 1)).toNat < 2 then _ else if w.len < (mem (w.ptr + 1)).toNat then _
      else _) = _ ∧ Walk.type (if (mem (w.ptr + 1)).toNat < 2 then _ else if w.len <
        (mem (w.ptr + 1)).toNat then _ else _) = _
    rw [opsize]
    rcases bad with small | large
    · rw [if_pos small]
      exact ⟨rfl, rfl⟩
    · rw [if_pos (show w.len < _ by rw [len]; exact large)]
      split <;> exact ⟨rfl, rfl⟩

end Walked

/-! ### The property -/

def optionArea (mem : ℕ → Byte) (tcphdr : ℕ) : List Byte :=
  fetch mem (tcphdr + tcphdrSize) (hdrLen mem tcphdr - tcphdrSize)

def optionItems (mem : ℕ → Byte) (tcphdr : ℕ) : List Item × List Byte :=
  items (optionArea mem tcphdr).length (optionArea mem tcphdr)

def optionStarts (mem : ℕ → Byte) (tcphdr : ℕ) : List ℕ :=
  begins (tcphdr + tcphdrSize) (optionItems mem tcphdr).1 ++ if (optionItems mem tcphdr).2 = [] then [] else
      [tcphdr + tcphdrSize + (itemsBytes (optionItems mem tcphdr).1).length]

/-- **The walk is right**: it ends, reads only option bytes, does not go on behind what ends the
options, and writes the window scale if there is one. -/
def ScanRight (mem : ℕ → Byte) (tcphdr : ℕ) (tcpTotLen : ℤ) : Prop :=
  ∃ fuel w, amlGetTcpAckInfo mem tcphdr tcpTotLen fuel = some w ∧
    (∀ a ∈ w.reads, tcphdr + tcphdrSize ≤ a ∧ a < tcphdr + hdrLen mem tcphdr) ∧
    w.starts <+: optionStarts mem tcphdr ∧
    (w.winScale ≠ none ↔ HasWindow (optionItems mem tcphdr).1)

/-- The packet has data and no window scale, or the options fill the header to its end, no option of
the window scale without a shift is the last one, and a byte below 15 is not taken for a shift unless
there is a shift. -/
def ScanFits (mem : ℕ → Byte) (tcphdr : ℕ) (tcpTotLen : ℤ) : Prop :=
  let is := (optionItems mem tcphdr).1
  if (hdrLen mem tcphdr : ℤ) < tcpTotLen then ¬HasWindow is
  else (optionItems mem tcphdr).2 = [] ∧ is.getLast? ≠ some (.opt tcpoptWindow []) ∧
    ((∃ shift ∈ shifts is, shift.toNat < 15) → HasWindow is)

theorem mem_shifts {is : List Item} {shift : Byte} (member : .opt tcpoptWindow [shift] ∈ is) : shift ∈ shifts is := by
  induction is with
  | nil => exact absurd member not_mem_nil
  | cons i is ih =>
    rcases mem_cons.mp member with rfl | later
    · rw [shifts, if_pos rfl]
      exact mem_cons_self
    · cases i with
      | nop => exact ih later
      | opt kind data =>
        rw [shifts]
        split
        · exact List.mem_append_right _ (ih later)
        · exact ih later

section Right

variable {mem : ℕ → Byte} {tcphdr : ℕ} {tcpTotLen : ℤ}

/-- **When the walk is right.** -/
theorem scanRight_iff : ScanRight mem tcphdr tcpTotLen ↔ ScanFits mem tcphdr tcpTotLen := by
  unfold ScanRight ScanFits amlGetTcpAckInfo
  by_cases data : (hdrLen mem tcphdr : ℤ) < tcpTotLen
  · -- There is no walk.
    simp only [if_pos data]
    refine ⟨fun ⟨_, w, same, _, _, written⟩ => ?_, fun absent => ?_⟩
    · rw [← Option.some.inj same] at written
      exact fun found => absurd rfl (written.mpr found)
    · exact ⟨0, _, rfl, fun _ member => absurd member not_mem_nil, List.nil_prefix,
        iff_of_false (not_not.mpr rfl) absent⟩
  simp only [if_neg data]
  obtain ⟨whole, proper, left⟩ := items_spec _ (optionArea mem tcphdr) (Nat.le_refl _)
  have areaStored : Stored mem (tcphdr + tcphdrSize) (optionArea mem tcphdr) := stored_fetch
  have areaLength : (optionArea mem tcphdr).length = hdrLen mem tcphdr - tcphdrSize := length_fetch
  unfold optionStarts
  change optionArea mem tcphdr = itemsBytes (optionItems mem tcphdr).1 ++ (optionItems mem tcphdr).2 at whole
  change ∀ i ∈ (optionItems mem tcphdr).1, i.Proper at proper
  change (optionItems mem tcphdr).2 = [] ∨ Stop (optionItems mem tcphdr).2 at left
  generalize (optionItems mem tcphdr).1 = is at whole proper ⊢
  generalize (optionItems mem tcphdr).2 = rest at whole left ⊢
  rw [whole, length_append] at areaLength
  rw [whole] at areaStored
  obtain ⟨isStored, restStored⟩ := stored_append.mp areaStored
  obtain ⟨w', run, walked⟩ := rounds_items is
    { ptr := tcphdr + tcphdrSize, len := hdrLen mem tcphdr - tcphdrSize } proper isStored (by
      show _ ≤ hdrLen mem tcphdr - tcphdrSize
      omega) Nat.one_ne_zero
  have ptr : w'.ptr = tcphdr + tcphdrSize + (itemsBytes is).length := walked.ptr
  have len : w'.len = rest.length := by
    rw [walked.len]
    show hdrLen mem tcphdr - tcphdrSize - _ = _
    omega
  have starts : w'.starts = begins (tcphdr + tcphdrSize) is := walked.starts
  rcases left with rfl | stop
  · -- The options fill the header.
    rw [if_pos rfl, List.append_nil]
    have ended : ∀ fuel, rounds mem (fuel + 1) w' = some w' := fun fuel => by
      rw [rounds, if_neg fun goes => absurd goes.1 (by rw [len]; exact Nat.lt_irrefl 0)]
    have room : tcphdr + tcphdrSize + (itemsBytes is).length = tcphdr + hdrLen mem tcphdr ∨ is = [] := by
      cases is with
      | nil => exact .inr rfl
      | cons i is' =>
        have := bytes_pos i
        have more : (itemsBytes (i :: is')).length = i.bytes.length + (itemsBytes is').length := by
          rw [itemsBytes, flatMap_cons, length_append]
          rfl
        rw [List.length_nil] at areaLength
        exact .inl (by omega)
    have final : ∀ {fuel w}, rounds mem fuel
        { ptr := tcphdr + tcphdrSize, len := hdrLen mem tcphdr - tcphdrSize } = some w →
        w = w' := fun {fuel w} result => by
      have longer := rounds_mono result (is.length + 1)
      rw [Nat.add_assoc, run, Nat.add_comm 1, ended] at longer
      exact (Option.some.inj longer).symm
    refine ⟨fun ⟨fuel, w, result, inside, _, written⟩ => ?_, fun ⟨_, wide, found⟩ => ?_⟩
    · obtain rfl := final result
      have wide : is.getLast? ≠ some (.opt tcpoptWindow []) := fun bare => by
        have outside := (inside _ (walked.bare bare)).2
        rcases room with full | rfl
        · exact absurd outside (not_lt.mpr full.ge)
        · nomatch bare
      refine ⟨rfl, wide, fun small => written.mp ((walked.winScale wide).mpr (.inr small))⟩
    · refine ⟨is.length + 1, w', (run 1).trans (ended 0), fun a member => ?_, ?_, ?_⟩
      · obtain ⟨low, high⟩ := (walked.reads a member).resolve_left not_mem_nil
        have inside := high.resolve_right fun both => wide both.1
        rcases room with full | rfl
        · exact ⟨low, full ▸ inside⟩
        · exact absurd (Nat.lt_of_le_of_lt low inside) (Nat.lt_irrefl _)
      · exact starts ▸ List.prefix_rfl
      · rw [walked.winScale wide]
        refine ⟨fun either => found (either.resolve_left fun absent => absent rfl),
          fun ⟨i, member, shift, same, small⟩ => ?_⟩
        exact .inr ⟨shift, mem_shifts (same ▸ member), small⟩
  · -- What ends the options does not end the walk.
    have some_ : rest ≠ [] := fun none_ => by
      rw [none_] at stop
      nomatch stop
    refine iff_of_false (fun ⟨fuel, w, result, _, few, _⟩ => ?_) fun fits => some_ fits.1
    have longer := rounds_mono result (is.length + 2)
    rw [Nat.add_assoc, run, Nat.add_comm 2] at longer
    have positive : 0 < rest.length := List.length_pos_iff.mpr some_
    obtain ⟨sameLen, sameType⟩ := round_stop stop (ptr ▸ restStored) len
    rw [rounds, if_pos ⟨len ▸ positive, walked.live⟩, rounds,
      if_pos ⟨sameLen.trans len ▸ positive, sameType ▸ walked.live⟩] at longer
    have many := (rounds_starts longer).length_le
    rw [round_starts, round_starts, length_append, length_append, starts] at many
    have bound := few.length_le
    rw [if_neg some_, length_append] at bound
    simp only [List.length_singleton] at many bound
    omega

end Right

/-- With options that fit, `aml_check_tcp_ack_type` returns. -/
theorem amlCheckTcpAckType_returns {mem : ℕ → Byte} {unset : ℤ}
    (fits : ∀ call ∈ ackInfoCall mem unset, ScanFits mem call.1 call.2) :
    ∃ fuel, (amlCheckTcpAckType mem unset fuel).isSome := by
  unfold amlCheckTcpAckType
  cases made : ackInfoCall mem unset with
  | none => exact ⟨0, rfl⟩
  | some call =>
    obtain ⟨fuel, w, run, -⟩ := scanRight_iff.mpr (fits call made)
    refine ⟨fuel, ?_⟩
    dsimp only
    rw [run]
    rfl

/-- **When the options of a packet are walked right.** -/
theorem options_scanned_iff (mem : ℕ → Byte) (unset : ℤ) :
    (∀ call ∈ ackInfoCall mem unset, ScanRight mem call.1 call.2) ↔
      ∀ call ∈ ackInfoCall mem unset, ScanFits mem call.1 call.2 :=
  forall₂_congr fun _ _ => scanRight_iff

def endedOptions : ℕ → Byte := fun k =>
  ([0, 0, 0, 0, 0, 0, 0, 0, 0, 0, 0, 0, 0x08, 0x00, 0x45, 0, 0, 48, 0, 0, 0, 0, 64, 6, 0, 0, 10, 0, 0, 1, 10, 0, 0, 2,
    0, 80, 0x12, 0x34, 0, 0, 0, 1, 0, 0, 0, 2, 0x70, 0x12, 0xff, 0xff, 0, 0, 0, 0,
    2, 4, 0x05, 0xb4, 3, 3, 7, 0] : List Byte).getD k 0

/-- It is walked on behind the end of its options. -/
theorem endedOptions_walked_on : ¬∀ call ∈ ackInfoCall endedOptions 0, ScanRight endedOptions call.1 call.2 := by
  intro right
  have passed : ackInfoCall endedOptions 0 = some (34, 0) := by decide +kernel
  have fits := scanRight_iff.mp (right (34, 0) passed)
  have scanned : ¬(hdrLen endedOptions 34 : ℤ) < 0 := by decide +kernel
  simp only [ScanFits, if_neg scanned] at fits
  exact absurd fits.1 (by decide +kernel)

end W2l.Tcp
