/-
**Recovery: loading the firmware again.**

`aml_recy.c`, `aml_platform.c`. What the bus, the chip and the firmware do is a given value for each
question: `Attempt` for one attempt on USB and SDIO, `PcieReload` for PCIe. The bus reset between two
attempts changes nothing that is modelled.

* `Hw` — the flags of `struct aml_recy`, the platform, the interfaces; `attempts`, `restarted` and `added`
  record what was done.
* `sendMsg` — whether `aml_send_msg` sends, drops or refuses a command; `Reaches` — the firmware has taken it.
* `sdioPlatformOn`, `fwReloadForUsbSdio`, `fwReloadForPcie` — `none` while the chip is waited for.
-/

import W2lDriver.Gate.Queues
import W2lDriver.Lib.Waiting

namespace W2l.Recy

open Cmd (BusType eNoMem eBusy)
open Gate (Iftype)
open Lib (poll Replies)

/-! ### The driver -/

/-- `AML_RECY_*`, without the flag of a station that is being removed. -/
inductive Flag
  | assocInfoSaved
  | checkScc
  | apInfoSaved
  | stateOngoing
  | fwOngoing
  | goOngoing
  | stopApProc
  | ipcOngoing
  | openVifProc
  | closeVifProc
  | dropXmitPkt
  deriving DecidableEq

/-- The interfaces, each under a name of its own. -/
structure Ifaces where
  vifTable : ℕ → Option ℕ
  /-- The interface has a net device. -/
  ndev : ℕ → Bool
  iftype : ℕ → Iftype
  /-- How many stations `ap.sta_list` holds. -/
  staList : ℕ → ℕ
  vifIndex : ℕ → ℕ
  up : ℕ → Bool

structure Hw where
  bus : BusType
  /-- `aml_recy->flags`. -/
  flags : Flag → Bool
  /-- `plat->enabled`. -/
  enabled : Bool
  isRecyOngoing : Bool
  busResetOngoing : Bool
  /-- `assoc_info.chan` and `assoc_info.ies_buf` are there. -/
  assocInfo : Bool
  ifaces : Ifaces
  /-- How often loading the firmware was tried. -/
  attempts : ℕ
  /-- The firmware took a start request. -/
  restarted : Bool
  /-- The interfaces that the firmware added. -/
  added : List ℕ

namespace Hw

variable (hw : Hw)

/-- `aml_recy_flags_set`. -/
def flagsSet (fs : List Flag) : Hw := { hw with flags := fun f => decide (f ∈ fs) || hw.flags f }

/-- `aml_recy_flags_clr`. -/
def flagsClr (fs : List Flag) : Hw := { hw with flags := fun f => !decide (f ∈ fs) && hw.flags f }

theorem flagsSet_other {fs : List Flag} {f : Flag} (other : f ∉ fs) : (hw.flagsSet fs).flags f = hw.flags f := by
  show (decide (f ∈ fs) || hw.flags f) = hw.flags f
  rw [decide_eq_false other, Bool.false_or]

theorem flagsClr_other {fs : List Flag} {f : Flag} (other : f ∉ fs) : (hw.flagsClr fs).flags f = hw.flags f := by
  show (!decide (f ∈ fs) && hw.flags f) = hw.flags f
  rw [decide_eq_false other, Bool.not_false, Bool.true_and]

/-- `aml_recy_flags_chk`. -/
def flagsChk (fs : List Flag) : Bool := fs.any hw.flags

def blocked : Bool := hw.flags .ipcOngoing

end Hw

/-! ### Commands -/

/-- What a command meets: the bus failed by then, else what its sender gets. -/
structure Command where
  busErr : Bool
  result : Int

section Send

variable (bus : BusType) (blocked : Bool) (c : Command)

def sendMsg : Int :=
  if bus ≠ .pcie ∧ c.busErr = true then 0
  else if blocked then eBusy
  else c.result

def Reaches : Prop := ¬(bus ≠ .pcie ∧ c.busErr = true) ∧ blocked = false ∧ c.result = 0

instance : Decidable (Reaches bus blocked c) :=
  inferInstanceAs (Decidable (¬(bus ≠ .pcie ∧ c.busErr = true) ∧ blocked = false ∧ c.result = 0))

variable {bus blocked c}

theorem Reaches.sendMsg_eq (reaches : Reaches bus blocked c) : sendMsg bus blocked c = 0 := by
  obtain ⟨working, free, fine⟩ := reaches
  unfold sendMsg
  rw [if_neg working, free, if_neg Bool.false_ne_true, fine]

end Send

/-- `aml_send_start` looks at the bus itself first. -/
structure Start where
  busErr : Bool
  command : Command

def sendStart (bus : BusType) (blocked : Bool) (s : Start) : Int :=
  if bus ≠ .pcie ∧ s.busErr = true then eBusy else sendMsg bus blocked s.command

def StartReaches (bus : BusType) (blocked : Bool) (s : Start) : Prop :=
  ¬(bus ≠ .pcie ∧ s.busErr = true) ∧ Reaches bus blocked s.command

instance (bus : BusType) (blocked : Bool) (s : Start) : Decidable (StartReaches bus blocked s) :=
  inferInstanceAs (Decidable (¬(bus ≠ .pcie ∧ s.busErr = true) ∧ Reaches bus blocked s.command))

theorem StartReaches.sendStart_eq {bus : BusType} {blocked : Bool} {s : Start}
    (reaches : StartReaches bus blocked s) : sendStart bus blocked s = 0 := by
  unfold sendStart
  rw [if_neg reaches.1]
  exact reaches.2.sendMsg_eq

/-! ### The platform on USB and SDIO -/

/-- What a look at the chip's identity finds, unless the chip is still starting. -/
inductive Chip
  | ready
  | busErr
  deriving DecidableEq

/-- What `aml_sdio_platform_on` gets from each of its calls. -/
structure Platform where
  reset : Int
  agcLoad : Int
  fwDownload : Int
  startWifi : Int
  ipcInit : Int
  chip : ℕ → Option Chip
  fwCompatible : Int
  buffer : Bool
  cr : Bool
  urb : Bool
  createThread : Int
  enable : Int

namespace Platform

variable (p : Platform) (bus : BusType)

/-- `aml_sdio_platform_on` before the processor of the firmware is started. -/
def beforeFirmware : Int :=
  if p.reset ≠ 0 then -1
  else if p.agcLoad ≠ 0 then p.agcLoad
  else if bus = .usb ∧ p.fwDownload ≠ 0 then p.fwDownload
  else if bus = .usb ∧ p.startWifi ≠ 0 then p.startWifi
  else p.ipcInit

/-- `aml_sdio_platform_on` after `aml_ipc_start`. -/
def afterIpcStart : Int :=
  if bus = .usb ∧ (p.buffer && p.cr && p.urb) = false then eNoMem
  else if p.createThread ≠ 0 then eNoMem
  else if bus = .sdio ∧ p.enable ≠ 0 then p.enable
  else 0

/-- `aml_ipc_start` is reached. -/
def StartsIpc : Prop := p.beforeFirmware bus = 0 ∧ Replies p.chip .ready ∧ p.fwCompatible = 0

def TurnsOn : Prop := p.StartsIpc bus ∧ p.afterIpcStart bus = 0

def Ends : Prop := p.beforeFirmware bus = 0 → ∃ r, Replies p.chip r

end Platform

def platformOff (hw : Hw) : Hw := { hw with enabled := false }

def sdioPlatformOn (turns : ℕ) (p : Platform) (hw : Hw) : Option (Hw × Int) :=
  if hw.enabled then some (hw, 0)
  else if p.beforeFirmware hw.bus ≠ 0 then some (hw, p.beforeFirmware hw.bus)
  else match poll p.chip turns 0 with
    | none => none
    | some .busErr => some (hw, -1)
    | some .ready =>
      if p.fwCompatible ≠ 0 then some (hw, p.fwCompatible)
      else some ({ hw.flagsClr [.ipcOngoing] with enabled := decide (p.afterIpcStart hw.bus = 0) },
        p.afterIpcStart hw.bus)

/-! ### Reloading on USB and SDIO -/

/-- What one attempt meets. -/
structure Attempt where
  platform : Platform
  reset : Command
  meConfig : Command
  meChanConfig : Command
  start : Start

namespace Attempt

variable (a : Attempt) (bus : BusType) (blocked : Bool)

/-- The requests after the platform is on. -/
def configure : Int :=
  if sendMsg bus blocked a.reset ≠ 0 then -1
  else if sendMsg bus blocked a.meConfig ≠ 0 then -1
  else if sendMsg bus blocked a.meChanConfig ≠ 0 then -1
  else if sendStart bus blocked a.start ≠ 0 then -1
  else 0

def Succeeds : Prop := a.platform.TurnsOn bus ∧ a.configure bus false = 0

def Restarts : Prop := a.Succeeds bus ∧ StartReaches bus false a.start

end Attempt

/-- `Try_again`: the platform is turned off, and the device on USB reset. -/
def prepare (hw : Hw) : Hw :=
  { platformOff hw with
    busResetOngoing := hw.busResetOngoing && decide (hw.bus ≠ .usb)
    attempts := hw.attempts + 1 }

/-- `aml_recy_fw_reload_for_usb_sdio` from `Try_again` to `out`. -/
def reloadOnce (turns : ℕ) (a : Attempt) (hw : Hw) : Option (Hw × Int) :=
  match sdioPlatformOn turns a.platform (prepare hw) with
  | none => none
  | some (hw, ret) =>
    if ret ≠ 0 then some (hw, -1)
    else if a.configure hw.bus hw.blocked ≠ 0 then some (hw, -1)
    else some ({ hw with
      restarted := hw.restarted || decide (StartReaches hw.bus hw.blocked a.start) }, 0)

/-- `Try_again`, with `left` further attempts. -/
def tryAgain (turns : ℕ) (answers : ℕ → Attempt) : ℕ → ℕ → Hw → Option (Hw × Int)
  | 0, tryCnt, hw => reloadOnce turns (answers tryCnt) hw
  | left + 1, tryCnt, hw => match reloadOnce turns (answers tryCnt) hw with
    | none => none
    | some (hw, ret) => if ret ≠ 0 then tryAgain turns answers left (tryCnt + 1) hw else some (hw, ret)

/-- `aml_recy_fw_reload_for_usb_sdio`. -/
def fwReloadForUsbSdio (turns : ℕ) (answers : ℕ → Attempt) (hw : Hw) : Option (Hw × Int) :=
  match tryAgain turns answers 3 0
      { hw.flagsSet [.fwOngoing, .ipcOngoing] with isRecyOngoing := true } with
  | none => none
  | some (hw, ret) => some ({ hw.flagsClr [.fwOngoing] with isRecyOngoing := false }, ret)

/-! ### Reloading on PCIe -/

/-- What the reload on PCIe meets. The results of the three requests before the start are not looked at. -/
structure PcieReload where
  enable : Int
  start : Start

/-- `aml_recy_fw_reload_for_pcie`. -/
def fwReloadForPcie (a : PcieReload) (hw : Hw) : Hw × Int :=
  if hw.enabled = false then (hw, 0)
  else
    let hw := hw.flagsSet [.fwOngoing, .ipcOngoing]
    let hw := { hw with enabled := false, attempts := hw.attempts + 1 }
    -- the failure is not passed on
    if a.enable ≠ 0 then (hw, 0)
    else
      let hw := { hw.flagsClr [.ipcOngoing] with enabled := true }
      if sendStart hw.bus hw.blocked a.start ≠ 0 then (hw, -1)
      else ({ hw.flagsClr [.fwOngoing] with
        restarted := hw.restarted || decide (StartReaches hw.bus hw.blocked a.start) }, 0)

/-- What the reload meets, on each bus. -/
structure Reload where
  attempts : ℕ → Attempt
  pcie : PcieReload

/-- `aml_recy_fw_reload`. -/
def fwReload (turns : ℕ) (r : Reload) (hw : Hw) : Option (Hw × Int) :=
  if hw.bus ≠ .pcie then fwReloadForUsbSdio turns r.attempts hw
  else some (fwReloadForPcie r.pcie hw)

end W2l.Recy
