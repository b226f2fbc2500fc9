/-
**Changing and starting a beacon.**

`aml_cfg80211_change_beacon` (`fullmac/aml_main.c`), `aml_send_apm_start_req` (`aml_msg_tx.c`), `aml_save_bcn_buf`
(`aml_sap.c`). A beacon is built, saved, checked, and given to the firmware in the way of the bus.

* `Env`, `ChangeEnv`, `StartEnv` — what a call meets.
* `Out` — what it leaves: the stored beacon, the saved copy, the buffer built, what the firmware gets, and the uses of
  the IPC buffer, each with whether it was initialised.
* `Env.forward` — from the sync of the buffer on; `amlCfg80211ChangeBeacon`, `amlSendApmStartReq` — the whole.
* `UpdateRight` — **what a call should do**.
* `ChangeAtomic`, `StartAtomic` — when it does.
-/

import W2lDriver.Bcn.Build
import W2lDriver.Cmd.Types
import W2lDriver.Scc.Beacon

namespace W2l.Bcn

open Lib
open Cmd (BusType eNoMem)
open Scc (Frmbuf frmbufMaxlen varOffset)

/-! ### What a call meets and leaves -/

/-- `-EIO`. -/
def eIo : Int := -5

/-- The bus, the memory, whether a buffer can be mapped, what is behind a buffer in memory, `sgi` and `use_2040`, and
what the message to the firmware returns. -/
structure Env where
  bus : BusType
  mem : BuildMem
  mapped : Bool
  behind : ℕ → Byte
  sgi : Bool
  use2040 : Bool
  reply : Int

/-- For a change: a recovery is going on, and the channel of the interface. -/
structure ChangeEnv extends Env where
  recovering : Bool
  chanctxValid : Bool
  curPrimary : Byte

/-- For a start: there is memory for the request, a recovery is going on with the settings saved, what is behind
`bcn_save`, and the DTIM period. -/
structure StartEnv extends Env where
  reqMem : Bool
  recovering : Bool
  behindSave : ℕ → Byte
  dtim : Byte

/-- What the firmware gets: the bytes, their number, and where the TIM is. -/
structure BcnMsg where
  bytes : List Byte
  bcnLen : ℕ
  timOft : ℕ
  timLen : ℕ

/-- What a call leaves; no saved copy is one that was written behind its end. -/
structure Out where
  error : Int
  bcn : Bcn
  save : Option Frmbuf
  built : Option (List Byte) := none
  sent : Option BcnMsg := none
  frees : ℕ := 0
  ipcUses : List Bool := []

/-! ### The code -/

/-- `n` bytes from `off` on, those of the buffer and those behind it. -/
def readAt (buf : List Byte) (behind : ℕ → Byte) (off n : ℕ) : List Byte :=
  (List.range n).map fun i => buf.getD (off + i) (behind (off + i))

def ChangeEnv.htopWrong (env : ChangeEnv) (var : List Byte) : Bool :=
  match findElem 61 var with
  | none => false
  | some htop =>
    if htop.data.length < 22 then false
    else if !env.chanctxValid then true
    else decide (htop.data.getD 0 0 ≠ env.curPrimary)

/-- `cap_info` in an HT capability element, whose low byte has the two bits. -/
def Env.editHtCap (env : Env) (var buf : List Byte) : List Byte :=
  match offsetElem 45 var with
  | none => buf
  | some off =>
    buf.modify (varOffset + off + 2) fun b =>
      (b &&& 0x9f) ||| (if env.sgi then 0x20 else 0) ||| (if env.use2040 then 0x40 else 0)

/-- From the sync of the buffer for the firmware on: `aml_ipc_buf_a2e_init` on PCIe, and a write and `kfree` elsewhere;
then the message with `buf.dma_addr`, and `aml_ipc_buf_dealloc`, which on PCIe frees the buffer. -/
def Env.forward (env : Env) (bcn : Bcn) (save : Option Frmbuf) (buf edited : List Byte) : Out :=
  let sent := some ⟨edited, bcn.len, bcn.headLen, bcn.timLen⟩
  match env.bus with
  | .pcie =>
    if !env.mapped then { error := eIo, bcn, save, built := some buf, frees := 1 }
    else { error := env.reply, bcn, save, built := some buf, sent, frees := 1, ipcUses := [true, true] }
  | _ => { error := env.reply, bcn, save, built := some buf, sent, frees := 1, ipcUses := [false, false] }

/-- `aml_cfg80211_change_beacon`; the length that is searched has 8 bits. -/
def amlCfg80211ChangeBeacon (env : ChangeEnv) (bcn : Bcn) (save : Frmbuf) (new : BeaconData) : Out :=
  if env.recovering then { error := eNoMem, bcn, save := some save }
  else
    match amlBuildBcn env.mem bcn new with
    | (bcn, none) => { error := eNoMem, bcn, save := some save }
    | (bcn, some buf) =>
      let var := readAt buf env.behind varOffset ((bcn.len + (256 - varOffset)) % 256)
      if env.htopWrong var then { error := eNoMem, bcn, save := save.store buf, built := some buf, frees := 1 }
      else env.forward bcn (save.store buf) buf (env.editHtCap var buf)

/-- What `aml_send_apm_start_req` searches; a negative length is taken for a large one. -/
def StartEnv.var (env : StartEnv) (bcn : Bcn) (buf : List Byte) : List Byte :=
  readAt buf env.behind varOffset ((bcn.len + (2 ^ 32 - varOffset)) % 2 ^ 32)

/-- `aml_send_apm_start_req`; in a recovery the beacon is the saved copy. -/
def amlSendApmStartReq (env : StartEnv) (bcn : Bcn) (save : Frmbuf) (new : BeaconData) : Out :=
  if !env.reqMem then { error := eNoMem, bcn, save := some save }
  else
    let bcn := { bcn with dtim := env.dtim }
    if env.recovering then
      if !env.mem.buf then { error := eNoMem, bcn, save := some save }
      else
        let buf := readAt save.bytes env.behindSave 0 bcn.len
        env.forward bcn (some save) buf (env.editHtCap (env.var bcn buf) buf)
    else
      match amlBuildBcn env.mem bcn new with
      | (bcn, none) => { error := eNoMem, bcn, save := some save }
      | (bcn, some buf) => env.forward bcn (save.store buf) buf (env.editHtCap (env.var bcn buf) buf)

/-! ### The property -/

/-- **What a call should do**: it fails and leaves what was in force, or the beacon it built is head, TIM, tail and IEs
and is the saved copy; the buffer is freed once, and the IPC buffer is not used before it is initialised. -/
structure UpdateRight (bcn : Bcn) (save : Frmbuf) (out : Out) : Prop where
  failed : out.error ≠ 0 → SameParts out.bcn bcn ∧ out.save = some save
  done : out.error = 0 → ∃ buf saved, out.built = some buf ∧ buf = out.bcn.bytes ∧
    buf.length = out.bcn.headLen + 6 + out.bcn.tailLen + out.bcn.iesLen ∧ out.save = some saved ∧
    saved.load buf.length = some buf
  freed : out.frees = if out.built.isSome then 1 else 0
  initialised : ∀ u ∈ out.ipcUses, u = true

/-! ### When it does -/

def Builds (mem : BuildMem) (bcn : Bcn) (new : BeaconData) : Prop :=
  (new.head.isSome && !mem.head) = false ∧ (new.tail.isSome && !mem.tail) = false ∧
    (bcn.with_ new).head.isNone = false ∧ mem.buf = true

instance (mem : BuildMem) (bcn : Bcn) (new : BeaconData) : Decidable (Builds mem bcn new) := by
  unfold Builds
  infer_instance

def Saved (save : Frmbuf) (bytes : List Byte) : Prop := save.load bytes.length = some bytes

/-- **When a call that has built a beacon does what it should**: the saved copy can hold it, the bus is PCIe unless the
beacon is refused, and if it is refused, not mapped or not answered with success, it is the old one. -/
def StoredAtomic (env : Env) (accepted : Bool) (bcn : Bcn) (save : Frmbuf) (new : BeaconData) : Prop :=
  (bcn.with_ new).bytes.length ≤ frmbufMaxlen ∧ (accepted = true → env.bus = .pcie) ∧
    (accepted = false ∨ env.mapped = false ∨ env.reply ≠ 0 → Unchanged bcn new ∧ Saved save (bcn.with_ new).bytes)

def ChangeEnv.accepted (env : ChangeEnv) (bcn : Bcn) (new : BeaconData) : Bool :=
  let bytes := (bcn.with_ new).bytes
  !env.htopWrong (readAt bytes env.behind varOffset ((bytes.length + (256 - varOffset)) % 256))

/-- **When a change is atomic.** -/
def ChangeAtomic (env : ChangeEnv) (bcn : Bcn) (save : Frmbuf) (new : BeaconData) : Prop :=
  env.recovering = true ∨ if Builds env.mem bcn new then StoredAtomic env.toEnv (env.accepted bcn new) bcn save new
    else BuildAtomic env.mem bcn new

/-- **When a start from the saved copy is atomic**: the bus is PCIe, and if it succeeds the copy is the beacon. -/
def SavedAtomic (env : Env) (bcn : Bcn) (save : Frmbuf) : Prop :=
  env.bus = .pcie ∧ (env.mapped = true → env.reply = 0 → save.load bcn.len = some bcn.bytes)

/-- **When a start is atomic.** -/
def StartAtomic (env : StartEnv) (bcn : Bcn) (save : Frmbuf) (new : BeaconData) : Prop :=
  env.reqMem = false ∨ let bcn := { bcn with dtim := env.dtim }
    if env.recovering then env.mem.buf = false ∨ SavedAtomic env.toEnv bcn save
    else if Builds env.mem bcn new then StoredAtomic env.toEnv true bcn save new
    else BuildAtomic env.mem bcn new

end W2l.Bcn
