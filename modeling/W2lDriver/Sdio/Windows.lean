/-
**SDIO windows.**

A function of the SDIO card shows 128 KiB of the chip from its base register on (`aml_bus/w2_sdio.c`).
Functions 2 and 7 program the register for each word, function 4 and 6 keep its value in
`tx_buffer_base_addr`, `rx_buffer_base_addr`. Only functions 2 and 4 hold `wifi_ipc_mutex`.

* `Op`, `Access.ops` — what an access does, one operation on the bus after the other.
* `SdioHw` — the registers, the cached bases, the lock, what each thread has still to do, and the transfers
  that were made.
* `rxPieces` — the pieces of `aml_sdio_rx_buffer_read`.
* `WindowsRight` — **each transfer is made in its own window**; `Covers` — the pieces cover a range.
-/

import W2lDriver.Lib.System

namespace W2l.Sdio

open Lib (System)

/-- The SDIO functions with a base register that is changed. -/
inductive Func
  | f2
  | f4
  | f6
  | f7
  deriving DecidableEq

def len128K : ℕ := 128 * 1024
def len256K : ℕ := 256 * 1024

/-- `SDIO_ADDR_MASK`, and the bits above it. -/
def sdioAddrMask : BitVec 32 := 0x1ffff
def windowMask : BitVec 32 := 0xfffe0000

def sramMaxLen : ℕ := 1024 * 128

def rxbufStartAddr : BitVec 32 := 0x60013b4c

/-- `RXBUF_END_ADDR_LARGE`, the end of the ring when it is largest. -/
def rxbufEndAddrLarge : BitVec 32 := 0x60053b4c

def txbufStartAddr : BitVec 32 := 0x6001e000

/-- The size of `g_func_kmalloc_buf`. -/
def wlanAmlSdioSize : ℕ := 320 * 1024

/-- `aml_sdio_bottom_write`, `aml_sdio_bottom_read`: the address they are given, and the one that is meant;
`dst` is the offset in the destination. -/
structure Transfer where
  func : Func
  write : Bool
  addr : BitVec 32
  requested : BitVec 32
  len : ℕ
  dst : ℕ := 0

/-- An operation of an access. -/
inductive Op
  /-- `AML_WIFI_IPC_MUTEX_ON`, `AML_WIFI_IPC_MUTEX_OFF`. -/
  | lock
  | unlock
  /-- Bit 25 of `RG_SDIO_IF_MISC_CTRL` is set. -/
  | mapping
  /-- `aml_sdio_self_define_domain_write32` of a base register. -/
  | writeBase (func : Func) (value : BitVec 32)
  | func4SetBaseAddr (addr : BitVec 32) (len : ℕ)
  | func6SetBaseAddr (addr : BitVec 32)
  | transfer (t : Transfer)

/-! ### The accesses -/

def random (write : Bool) (addr : BitVec 32) (len : ℕ) : List Op :=
  [.lock, .writeBase .f2 (addr &&& windowMask), .transfer ⟨.f2, write, addr, addr, len, 0⟩, .unlock]

def amlSdioRandomWordWrite (addr : BitVec 32) : List Op := random true addr 4
def amlSdioRandomWordRead (addr : BitVec 32) : List Op := random false addr 4
def amlSdioRandomRamWrite (addr : BitVec 32) (len : ℕ) : List Op := random true addr len
def amlSdioRandomRamRead (addr : BitVec 32) (len : ℕ) : List Op := random false addr len

def txBuffer (write : Bool) (addr : BitVec 32) (len : ℕ) : List Op :=
  [.lock, .func4SetBaseAddr addr len, .transfer ⟨.f4, write, addr, addr, len, 0⟩, .unlock]

def amlSdioTxBufferWrite (addr : BitVec 32) (len : ℕ) : List Op := txBuffer true addr len
def amlSdioTxBufferRead (addr : BitVec 32) (len : ℕ) : List Op := txBuffer false addr len

/-- `aml_bt_sdio_read_sram`, `aml_bt_sdio_write_sram`, with the address that is meant. -/
def btSdioSram (write : Bool) (addr requested : BitVec 32) (len : ℕ) : List Op :=
  [.transfer ⟨.f7, write, addr, requested, len, 0⟩]

def amlBtSdioReadSram (addr : BitVec 32) (len : ℕ) : List Op := btSdioSram false addr addr len
def amlBtSdioWriteSram (addr : BitVec 32) (len : ℕ) : List Op := btSdioSram true addr addr len

/-- What `aml_bt_hi_read_word`, `aml_bt_hi_write_word` do. -/
def btHiWord (write : Bool) (addr : BitVec 32) : List Op :=
  [.mapping, .writeBase .f7 (addr &&& windowMask)] ++ btSdioSram write (addr &&& sdioAddrMask) addr 4

def amlBtHiReadWord (addr : BitVec 32) : List Op := btHiWord false addr
def amlBtHiWriteWord (addr : BitVec 32) : List Op := btHiWord true addr

/-- A piece of a read: its place in the destination, its address and length. -/
structure Piece where
  dst : ℕ
  addr : BitVec 32
  len : ℕ

/-- How `aml_sdio_rx_buffer_read` cuts a read. -/
def rxPieces (addr : BitVec 32) (len : ℕ) : List Piece :=
  if len > len256K then
    [⟨0, addr, len128K⟩, ⟨len128K, addr + BitVec.ofNat 32 len128K, len128K⟩,
      ⟨len256K, addr + BitVec.ofNat 32 len256K, len - len256K⟩]
  else if len > len128K then
    [⟨0, addr, len128K⟩, ⟨len128K, addr + BitVec.ofNat 32 len128K, len - len128K⟩]
  else [⟨0, addr, len⟩]

def amlSdioFunc6RxBufferRead (p : Piece) : List Op :=
  [.func6SetBaseAddr p.addr, .transfer ⟨.f6, false, p.addr, p.addr, p.len, p.dst⟩]

def amlSdioRxBufferRead (addr : BitVec 32) (len : ℕ) : List Op :=
  (rxPieces addr len).flatMap amlSdioFunc6RxBufferRead

/-- The accesses. -/
inductive Access
  | randomWord (write : Bool) (addr : BitVec 32)
  | randomRam (write : Bool) (addr : BitVec 32) (len : ℕ)
  | txBuffer (write : Bool) (addr : BitVec 32) (len : ℕ)
  | btHiWord (write : Bool) (addr : BitVec 32)
  | btSram (write : Bool) (addr : BitVec 32) (len : ℕ)
  | rxBuffer (addr : BitVec 32) (len : ℕ)

def Access.ops : Access → List Op
  | .randomWord true addr => amlSdioRandomWordWrite addr
  | .randomWord false addr => amlSdioRandomWordRead addr
  | .randomRam true addr len => amlSdioRandomRamWrite addr len
  | .randomRam false addr len => amlSdioRandomRamRead addr len
  | .txBuffer true addr len => amlSdioTxBufferWrite addr len
  | .txBuffer false addr len => amlSdioTxBufferRead addr len
  | .btHiWord true addr => amlBtHiWriteWord addr
  | .btHiWord false addr => amlBtHiReadWord addr
  | .btSram true addr len => amlBtSdioWriteSram addr len
  | .btSram false addr len => amlBtSdioReadSram addr len
  | .rxBuffer addr len => amlSdioRxBufferRead addr len

/-! ### The bus -/

/-- A transfer that was made: the base register, the value it was to have, the command address. -/
structure Made where
  transfer : Transfer
  base : BitVec 32
  window : BitVec 32
  command : ℕ

/-- **The SDIO side**, with the threads `T`. -/
structure SdioHw (T : Type) where
  base : Func → BitVec 32
  txBufferBaseAddr : BitVec 32
  rxBufferBaseAddr : BitVec 32
  miscCtrl : BitVec 32
  /-- The thread that holds `wifi_ipc_mutex`. -/
  owner : Option T := none
  todo : T → List Op := fun _ => []
  made : List Made := []

namespace SdioHw

variable {T : Type} [DecidableEq T] (s : SdioHw T)

/-- The value that the base register is to have for an address. -/
def window (func : Func) (requested : BitVec 32) : BitVec 32 :=
  match func with
  | .f2 | .f7 => requested &&& windowMask
  | .f4 => s.txBufferBaseAddr
  | .f6 => s.rxBufferBaseAddr

def command (t : Transfer) : ℕ :=
  match t.func with
  | .f2 | .f7 => (t.addr &&& sdioAddrMask).toNat
  | .f4 => t.addr.toNat % s.txBufferBaseAddr.toNat
  | .f6 => t.addr.toNat % s.rxBufferBaseAddr.toNat

def writeBase (func : Func) (value : BitVec 32) (ok : Bool) : SdioHw T :=
  if ok then { s with base := Function.update s.base func value } else s

/-- `aml_sdio_func4_set_base_addr`. -/
def func4SetBaseAddr (addr : BitVec 32) (len : ℕ) (ok : Bool) : SdioHw T :=
  if addr.toNat % s.txBufferBaseAddr.toNat ≥ sramMaxLen ∨ addr < s.txBufferBaseAddr ∨
      (addr.toNat % s.txBufferBaseAddr.toNat < sramMaxLen ∧
        (addr.toNat + len) % s.txBufferBaseAddr.toNat ≥ sramMaxLen) then
    { s with txBufferBaseAddr := addr }.writeBase .f4 addr ok
  else s

/-- The base that `aml_sdio_func6_set_base_addr` chooses. -/
def rxBase (addr : BitVec 32) : BitVec 32 :=
  if addr ≥ rxbufStartAddr + BitVec.ofNat 32 len256K then rxbufStartAddr + BitVec.ofNat 32 len256K
  else if addr ≥ rxbufStartAddr + BitVec.ofNat 32 len128K then rxbufStartAddr + BitVec.ofNat 32 len128K
  else rxbufStartAddr

/-- `aml_sdio_func6_set_base_addr`. -/
def func6SetBaseAddr (addr : BitVec 32) (ok : Bool) : SdioHw T :=
  if s.rxBufferBaseAddr ≠ rxBase addr then
    { s with rxBufferBaseAddr := rxBase addr }.writeBase .f6 (rxBase addr) ok
  else s

def transfer (t : Transfer) (ok : Bool) : SdioHw T :=
  if ok then
    { s with made := ⟨t, s.base t.func, s.window t.func t.requested, s.command t⟩ :: s.made }
  else s

/-- An operation of thread `t`; `ok` whether the bus takes it. -/
def exec (t : T) (ok : Bool) : Op → Option (SdioHw T)
  | .lock => if s.owner = none then some { s with owner := some t } else none
  | .unlock => some { s with owner := none }
  | .mapping => some (if ok then { s with miscCtrl := s.miscCtrl ||| 1 <<< 25 } else s)
  | .writeBase func value => some (s.writeBase func value ok)
  | .func4SetBaseAddr addr len => some (s.func4SetBaseAddr addr len ok)
  | .func6SetBaseAddr addr => some (s.func6SetBaseAddr addr ok)
  | .transfer tr => some (s.transfer tr ok)

end SdioHw

/-- What happens: a thread begins an access, or goes on with its access. -/
inductive SdioAct (T : Type)
  | start (t : T) (a : Access)
  | goOn (t : T) (ok : Bool)

variable {T : Type} [DecidableEq T]

def SdioHw.act (s : SdioHw T) : SdioAct T → Option (SdioHw T)
  | .start t a =>
    match s.todo t with
    | [] => some { s with todo := Function.update s.todo t a.ops }
    | _ :: _ => none
  | .goOn t ok =>
    match s.todo t with
    | [] => none
    | op :: rest => (s.exec t ok op).map fun u => { u with todo := Function.update u.todo t rest }

/-- The runs from `aml_sdio_init_base_addr` on; what functions 2 and 7 and the control register hold there is
left open. -/
def sdioSystem (base2 base7 miscCtrl : BitVec 32) : System (SdioHw T) (SdioAct T) where
  init :=
    { base := fun
        | .f2 => base2
        | .f4 => txbufStartAddr
        | .f6 => rxbufStartAddr
        | .f7 => base7
      txBufferBaseAddr := txbufStartAddr
      rxBufferBaseAddr := rxbufStartAddr
      miscCtrl := miscCtrl }
  step := SdioHw.act

/-! ### The properties -/

/-- **A transfer in its own window.** -/
structure Made.Right (m : Made) : Prop where
  window : m.base = m.window
  address : m.base.toNat + m.command = m.transfer.requested.toNat
  command : m.command < 2 ^ 17

/-- **Each transfer is made in its own window.** -/
def WindowsRight (s : SdioHw T) : Prop :=
  ∀ m ∈ s.made, m.Right

def Piece.bytes (p : Piece) : List (ℕ × ℕ) :=
  (List.range p.len).map fun i => (p.dst + i, p.addr.toNat + i)

/-- **The pieces cover a range** once and in order, each within the staging buffer when the bus pads its
length. -/
structure Covers (alignSize : ℕ → ℕ) (addr : BitVec 32) (len : ℕ) (pieces : List Piece) : Prop where
  once : pieces.flatMap Piece.bytes = (List.range len).map fun i => (i, addr.toNat + i)
  staged : ∀ p ∈ pieces, alignSize p.len ≤ wlanAmlSdioSize

def InRxRing (addr : BitVec 32) (len : ℕ) : Prop :=
  rxbufStartAddr.toNat ≤ addr.toNat ∧ addr.toNat + len ≤ rxbufEndAddrLarge.toNat

def InSharedRam (addr : BitVec 32) : Prop :=
  0x60000000 ≤ addr.toNat ∧ addr.toNat < 0x60080000

end W2l.Sdio
