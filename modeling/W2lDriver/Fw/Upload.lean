/-
**Uploading the firmware: PCIe, USB and SDIO.**

`aml_plat_fw_upload`, `wifi_fw_download`, `aml_download_wifi_fw_img` and what the platform start code makes of their
results. On PCIe each word is stored and read back; USB and SDIO stage an image and send it in pieces. What the device
takes is recorded byte by byte with its address.

* `storeLines`, `transferLoop` — the loop of PCIe, and the loop that sends a staged image.
* `amlPlatFwUpload`, `wifiFwDownload`, `amlDownloadWifiFwImg`, `amlPciPlatformOn`, `amlSdioPlatformOn` — the code.
* `UploadRight` — **all or error**: success means that both images were read from the file and written, failure stops
  the start, reads and staging stay inside, and the firmware object is released once.
* `PcieSound`, `UsbSound`, `SdioSound` — the conditions.
-/

import W2lDriver.Fw.Image

namespace W2l.Fw

open Lib

def swab32 (w : BitVec 32) : BitVec 32 :=
  w.extractLsb' 0 8 ++ w.extractLsb' 8 8 ++ w.extractLsb' 16 8 ++ w.extractLsb' 24 8

def swapped (w : BitVec 32) : List Byte := le32 (swab32 w)

/-- An image: where its lines start in the file, how many there are, and where its words go. -/
structure Image where
  src : ℕ
  lines : ℕ
  base : ℕ

def Image.starts (image : Image) : List ℕ := lineStarts image.lines image.src

def placed (base : ℕ) (words : List (BitVec 32)) : List (Byte × ℕ) := (words.flatMap swapped).zipIdx base

/-- What an upload finds: the result of `request_firmware`, the file, what lies behind it, the staging buffer. -/
structure FwEnv where
  request : ℤ
  file : List Byte
  behind : List Byte
  prealloc : Bool

def FwEnv.mem (env : FwEnv) : List Byte := env.file ++ env.behind

/-- What an upload leaves. -/
structure Upload where
  ret : ℤ
  /-- The bytes that the device took, with their addresses. -/
  log : List (Byte × ℕ)
  /-- The end of what was looked at in the file. -/
  reach : ℕ
  /-- The bytes of the staging buffer that were written. -/
  staged : ℕ
  released : ℕ

/-! ### PCIe -/

inductive Stop
  | done
  | parse
  | readBack
  deriving DecidableEq

structure Stores where
  log : List (Byte × ℕ)
  stop : Stop
  reach : ℕ

/-- The loop of `aml_plat_fw_upload` over `n` lines; `sticks` says which addresses read back what was stored. -/
def storeLines (mem : List Byte) (sticks : ℕ → Bool) : ℕ → ℕ → ℕ → Stores
  | 0, _, _ => ⟨[], .done, 0⟩
  | n + 1, src, dst =>
    let reach := src + lineReach (mem.drop src)
    match decodeLine (mem.drop src) with
    | .error _ => ⟨[], .parse, reach⟩
    | .ok w =>
      if sticks dst then
        let later := storeLines mem sticks n (src + BYTE_IN_LINE) (dst + 4)
        ⟨(swapped w).zipIdx dst ++ later.log, later.stop, max reach later.reach⟩
      else ⟨(swapped w).zipIdx dst, .readBack, reach⟩

def pcieInstr (file : List Byte) : Image :=
  if file.length < RAM_BIN_LEN then ⟨0, ICCM_RAM_LEN / 4, ICCM_ROM_LEN⟩ else ⟨0, ICCM_ALL_LEN / 4, 0⟩

def pcieData (file : List Byte) : Image :=
  ⟨(pcieInstr file).lines * BYTE_IN_LINE, DCCM_ALL_LEN / 4, DCCM_RAM_ADDR⟩

/-- `aml_plat_fw_upload`. A line that does not convert goes to `end` with `err` still 0; a failed read-back returns. -/
def amlPlatFwUpload (env : FwEnv) (sticks : ℕ → Bool) : Upload :=
  if env.request ≠ 0 then ⟨env.request, [], 0, 0, 0⟩
  else
    let store := fun image : Image => storeLines env.mem sticks image.lines image.src image.base
    let iccm := store (pcieInstr env.file)
    match iccm.stop with
    | .parse => ⟨0, iccm.log, iccm.reach, 0, 1⟩
    | .readBack => ⟨-1, iccm.log, iccm.reach, 0, 0⟩
    | .done =>
      let dccm := store (pcieData env.file)
      let log := iccm.log ++ dccm.log
      let reach := max iccm.reach dccm.reach
      match dccm.stop with
      | .parse => ⟨0, log, reach, 0, 1⟩
      | .readBack => ⟨-1, log, reach, 0, 0⟩
      | .done => ⟨0, log, reach, 0, 1⟩

/-- The check of `aml_pci_platform_on`: a result, or it goes on to the start of the firmware. -/
def amlPciPlatformOn (load : ℤ) : Option ℤ := if load ≠ 0 then some load else none

/-! ### Sending a staged image -/

abbrev USB_MAX_TRANS_SIZE : ℕ := 64 * 1024
abbrev SRAM_MAX_LEN : ℕ := 128 * 1024
abbrev FW_VERBOSE_RING_SIZE : ℕ := 260 * 1024

/-- The loop that sends `bytes` in pieces; `ok k`: piece `k` is taken, `goOn`: the loop ignores a failure. -/
def transferLoop (size : ℕ) (goOn : Bool) (ok : ℕ → Bool) : ℕ → ℕ → ℕ → List Byte → List (Byte × ℕ)
  | 0, _, _, _ => []
  | fuel + 1, k, addr, bytes =>
    if bytes = [] then []
    else
      let later := transferLoop size goOn ok fuel (k + 1) (addr + size) (bytes.drop size)
      if ok k then (bytes.take size).zipIdx addr ++ later
      else if goOn then later
      else []

/-- `wifi_iccm_download` and `wifi_dccm_download`: the command stage is call 0, piece `k` is call `k + 1`. -/
def wifiDownload (bulk : ℕ → Bool) (base : ℕ) (bytes : List Byte) : List (Byte × ℕ) :=
  if bulk 0 then transferLoop USB_MAX_TRANS_SIZE false bulk bytes.length 1 base bytes else []

def usbInstr : Image := ⟨ICCM_ROM_LEN / 4 * BYTE_IN_LINE, ICCM_RAM_LEN / 4, ICCM_ROM_LEN⟩
def usbData : Image := ⟨ICCM_ALL_LEN / 4 * BYTE_IN_LINE, (DCCM_ALL_LEN - 8 * 1024) / 4, DCCM_RAM_ADDR⟩

/-- `wifi_fw_download`; what the two downloads return is not looked at. -/
def wifiFwDownload (env : FwEnv) (iccmBulk dccmBulk : ℕ → Bool) : Upload :=
  if env.request ≠ 0 then ⟨env.request, [], 0, 0, 0⟩
  else if env.prealloc = false then ⟨-ENOMEM, [], 0, 0, 1⟩
  else
    let iccm := hexLines env.mem usbInstr.lines usbInstr.src
    if iccm.err ≠ 0 then ⟨iccm.err, [], iccm.reach, 4 * iccm.words.length, 1⟩
    else
      let log := wifiDownload iccmBulk usbInstr.base (iccm.words.flatMap swapped)
      let dccm := hexLines env.mem usbData.lines usbData.src
      let reach := max iccm.reach dccm.reach
      let staged := max (4 * iccm.words.length) (4 * dccm.words.length)
      if dccm.err ≠ 0 then ⟨dccm.err, log, reach, staged, 1⟩
      else ⟨0, log ++ wifiDownload dccmBulk usbData.base (dccm.words.flatMap swapped), reach, staged, 1⟩

/-- What the device does in an upload on SDIO: which writes it takes, and what the two comparisons say. -/
structure SdioBus where
  iccmTakes : ℕ → Bool
  iccmSame : Bool
  dccmTakes : ℕ → Bool
  dccmSame : Bool

def sdioInstr : Image := ⟨ICCM_ROM_LEN / 4 * BYTE_IN_LINE, ICCM_RAM_LEN / 4, ICCM_ROM_LEN⟩
def sdioData : Image := ⟨ICCM_ALL_LEN / 4 * BYTE_IN_LINE, DCCM_ALL_LEN / 4, DCCM_RAM_ADDR⟩

/-- An `unsigned char` result. -/
def toUchar (ret : ℤ) : ℤ := ret % 256

/-- The writes of `hi_random_ram_write`, which has no result. -/
def sramDownload (takes : ℕ → Bool) (base : ℕ) (bytes : List Byte) : List (Byte × ℕ) :=
  transferLoop SRAM_MAX_LEN true takes bytes.length 0 base bytes

def amlDownloadWifiFwImg (env : FwEnv) (bus : SdioBus) : Upload :=
  if env.request ≠ 0 then ⟨toUchar env.request, [], 0, 0, 0⟩
  else if env.prealloc = false then ⟨toUchar (-ENOMEM), [], 0, 0, 1⟩
  else
    let iccm := hexLines env.mem sdioInstr.lines sdioInstr.src
    if iccm.err ≠ 0 then ⟨toUchar iccm.err, [], iccm.reach, 4 * iccm.words.length, 1⟩
    else
      let log := sramDownload bus.iccmTakes sdioInstr.base (iccm.words.flatMap swapped)
      if bus.iccmSame = false then ⟨0, log, iccm.reach, 4 * iccm.words.length, 1⟩
      else
        let dccm := hexLines env.mem sdioData.lines sdioData.src
        let reach := max iccm.reach dccm.reach
        let staged := max (4 * iccm.words.length) (4 * dccm.words.length)
        if dccm.err ≠ 0 then ⟨toUchar dccm.err, log, reach, staged, 1⟩
        else
          let log := log ++ sramDownload bus.dccmTakes sdioData.base (dccm.words.flatMap swapped)
          if bus.dccmSame = false then ⟨0, log, reach, staged, 1⟩ else ⟨1, log, reach, staged, 1⟩

inductive FwBus
  | usb
  | sdio
  deriving DecidableEq

/-- The checks of `aml_sdio_platform_on` around the download: a result, or it goes on to the start of the firmware. -/
def amlSdioPlatformOn (bus : FwBus) (download : ℤ) : Option ℤ :=
  match bus with
  | .usb => if download ≠ 0 then some download else none
  | .sdio => none

/-! ### All or error -/

/-- Both images were read from the file, and the device took their swapped words at consecutive addresses. -/
def Loaded (file : List Byte) (instr data : Image) (log : List (Byte × ℕ)) : Prop :=
  ∃ instrWords dataWords, List.Forall₂ (LineIs file) instr.starts instrWords ∧
    List.Forall₂ (LineIs file) data.starts dataWords ∧
    log = placed instr.base instrWords ++ placed data.base dataWords

/-- **All or error.** -/
structure UploadRight (env : FwEnv) (instr data : Image) (success goesOn : Prop) (u : Upload) : Prop where
  honest : success → Loaded env.file instr data u.log
  stops : ¬ success → ¬ goesOn
  readsInside : u.reach ≤ env.file.length
  stagesInside : u.staged ≤ FW_VERBOSE_RING_SIZE
  releasedOnce : u.released = if env.request = 0 then 1 else 0

def PcieSound (env : FwEnv) (sticks : ℕ → Bool) : Prop :=
  env.request ≠ 0 ∨ ∀ image ∈ [pcieInstr env.file, pcieData env.file],
    Sound env.file image.starts ∧ ∀ i < image.lines, sticks (image.base + 4 * i) = true

/-- USB: there is no file or no buffer, or the lines are readable and, where they are sound, every call succeeds. -/
def UsbSound (env : FwEnv) (iccmBulk dccmBulk : ℕ → Bool) : Prop :=
  env.request ≠ 0 ∨ env.prealloc = false ∨ (Readable env.file (usbInstr.starts ++ usbData.starts) ∧
      (Sound env.file (usbInstr.starts ++ usbData.starts) → ∀ k < 4, iccmBulk k = true ∧ dccmBulk k = true))

def SdioSound (env : FwEnv) (bus : SdioBus) : Prop :=
  env.request = 0 ∧ env.prealloc = true ∧ Sound env.file sdioInstr.starts ∧ Sound env.file sdioData.starts ∧
    (∀ k < 2, bus.iccmTakes k = true ∧ bus.dccmTakes k = true) ∧ bus.iccmSame = true ∧ bus.dccmSame = true

end W2l.Fw
