/-
**The configuration file: written when it is new, read when it exists.**

`aml_cfg.c`. A file is its bytes and the position of the descriptor; `FILE_READ` and `FILE_WRITE` may transfer less than
they are asked for, but something as long as there is something. What a buffer on the stack holds before it is written
is a parameter, and so is what lies behind it.

* `amlCfgRead`, `amlCfgWrite` — the loops around `FILE_READ` and `FILE_WRITE`; `amlCfgRead_eq`, `amlCfgWrite_eq`.
* `amlCfgStoreTag` — a line for a tag, with how far the line buffer and the file buffer are used.
* `amlCfgToFile`, `storeCfg`, `amlCfgFromFile` — the two directions.
* `Restores`, `ReadsInside`, `StoresInside` — **what they should do**.
-/

import Mathlib.Data.Vector.Basic
import W2lDriver.Cfg.Text

namespace W2l.Cfg

open Lib

/-! ### The file -/

abbrev AML_CFG_LBUF_MAXLEN : ℕ := 64
abbrev AML_CFG_FBUF_MAXLEN : ℕ := 1024
abbrev AML_EFUSE_CHIPID_LEN : ℕ := 12

/-- An open file. -/
structure CfgFile where
  data : List Byte
  fPos : ℕ

/-- The rounds of `aml_cfg_read`; round `k` transfers at most `more k + 1` bytes. -/
def cfgReadLoop (more : ℕ → ℕ) : ℕ → ℕ → ℕ → CfgFile → List Byte × CfgFile
  | 0, _, _, fp => ([], fp)
  | fuel + 1, k, room, fp =>
    let got := (fp.data.drop fp.fPos).take (min room (more k + 1))
    if got = [] then ([], fp)
    else
      let later := cfgReadLoop more fuel (k + 1) (room - got.length)
        { fp with fPos := fp.fPos + got.length }
      (got ++ later.1, later.2)

/-- `aml_cfg_read`: what it puts into the buffer, and the file after it. -/
def amlCfgRead (more : ℕ → ℕ) (fp : CfgFile) (len : ℕ) : List Byte × CfgFile :=
  cfgReadLoop more len 0 len fp

/-- The rounds of `aml_cfg_write`. -/
def cfgWriteLoop (more : ℕ → ℕ) : ℕ → ℕ → List Byte → CfgFile → CfgFile
  | 0, _, _, fp => fp
  | fuel + 1, k, buf, fp =>
    let put := buf.take (more k + 1)
    cfgWriteLoop more fuel (k + 1) (buf.drop put.length)
      { data := fp.data.take fp.fPos ++ put ++ fp.data.drop (fp.fPos + put.length)
        fPos := fp.fPos + put.length }

def amlCfgWrite (more : ℕ → ℕ) (fp : CfgFile) (buf : List Byte) : CfgFile :=
  cfgWriteLoop more buf.length 0 buf fp

/-! ### Writing -/

abbrev Mac := Vector Byte 6

structure AmlCfg where
  chipidL : BitVec 32
  chipidH : BitVec 32
  vif0Mac : Mac
  vif1Mac : Mac

/-- What a call of `aml_cfg_store_tag` leaves: the file, and the bytes of `lbuf` and `fbuf` that it went through. -/
structure Stored where
  fp : CfgFile
  lbufUsed : ℕ
  fbufUsed : ℕ

/-- What `fbuf` holds after the read, with the stack behind it. -/
def fileBuffer (more : ℕ → ℕ) (stack : List Byte) (fp : CfgFile) : List Byte :=
  let got := (amlCfgRead more fp AML_CFG_FBUF_MAXLEN).1
  got ++ stack.drop got.length

/-- `"%s=%s\n"`. -/
def tagLine (tagName tagValue : List Byte) : List Byte := tagName ++ equalSign :: tagValue ++ [newline]

/-- `aml_cfg_store_tag`; `stack` is the memory from `fbuf` on before the call. -/
def amlCfgStoreTag (more : ℕ → ℕ) (stack : List Byte) (fp : CfgFile) (tagName tagValue : List Byte) : Stored :=
  if AML_CFG_LBUF_MAXLEN < tagName.length + tagValue.length then ⟨fp, 0, 0⟩
  else
    let lbuf := tagLine tagName tagValue
    let fbuf := fileBuffer more stack fp
    let fp := (amlCfgRead more fp AML_CFG_FBUF_MAXLEN).2
    if AML_CFG_FBUF_MAXLEN < strlen fbuf + lbuf.length then ⟨fp, lbuf.length + 1, strlen fbuf + 1⟩
    else ⟨amlCfgWrite more fp lbuf, lbuf.length + 1, max (strlen fbuf + 1) (lbuf.length + 1)⟩

/-- `"%04x%08x"` of `chipid_h & 0xffff` and `chipid_l`. -/
def chipidStr (cfg : AmlCfg) : List Byte :=
  hexField 4 (cfg.chipidH.toNat % 2 ^ 16) ++ hexField 8 cfg.chipidL.toNat

def octetText : List Byte → List Byte
  | [] => []
  | [b] => hexField 2 b.toNat
  | b :: later => hexField 2 b.toNat ++ colon :: octetText later

/-- `MACFMT`. -/
def macStr (mac : Mac) : List Byte := octetText mac.toList

def chipIdTag : List Byte := ascii ['C', 'H', 'I', 'P', '_', 'I', 'D']
def vif0MacaddrTag : List Byte := ascii ['V', 'I', 'F', '0', '_', 'M', 'A', 'C', 'A', 'D', 'D', 'R']
def vif1MacaddrTag : List Byte := ascii ['V', 'I', 'F', '1', '_', 'M', 'A', 'C', 'A', 'D', 'D', 'R']

/-- The memory at `fbuf` when each of the three tags is stored. -/
structure Frames where
  chipId : List Byte
  vif0 : List Byte
  vif1 : List Byte

def amlCfgStoreChipid (more : ℕ → ℕ) (stack : List Byte) (cfg : AmlCfg) (fp : CfgFile) : CfgFile :=
  (amlCfgStoreTag more stack fp chipIdTag (chipidStr cfg)).fp

def amlCfgStoreMacaddr (more : ℕ → ℕ) (frames : Frames) (cfg : AmlCfg) (fp : CfgFile) : CfgFile :=
  let fp := (amlCfgStoreTag more frames.vif0 fp vif0MacaddrTag (macStr cfg.vif0Mac)).fp
  (amlCfgStoreTag more frames.vif1 fp vif1MacaddrTag (macStr cfg.vif1Mac)).fp

/-- The end of `aml_cfg_to_file`. -/
def storeCfg (more : ℕ → ℕ) (frames : Frames) (cfg : AmlCfg) (fp : CfgFile) : CfgFile :=
  amlCfgStoreMacaddr more frames cfg (amlCfgStoreChipid more frames.chipId cfg fp)

abbrev AML_EFUSE_MACADDR_LOW : ℕ := 0x1
abbrev AML_EFUSE_MACADDR_HIGH : ℕ := 0x2
abbrev AML_EFUSE_MACADDR_VALID : ℕ := 0x7
abbrev AML_EFUSE_CHIPID_LOW : ℕ := 0x8
abbrev AML_EFUSE_CHIPID_HIGH : ℕ := 0x9
abbrev AML_EFUSE_MACADDR_LOW1 : ℕ := 0x11
abbrev AML_EFUSE_MACADDR_HIGH1 : ℕ := 0x12
abbrev AML_EFUSE_MACADDR_OFFSET : ℕ := 0x11

/-- `aml_cfg_get_macaddr`: nothing when the efuse holds no address. -/
def amlCfgGetMacaddr (efuse : ℕ → BitVec 32) : Option Mac :=
  let macValid := efuse AML_EFUSE_MACADDR_VALID >>> AML_EFUSE_MACADDR_OFFSET &&& 1
  let low := if macValid = 1 then efuse AML_EFUSE_MACADDR_LOW1 else efuse AML_EFUSE_MACADDR_LOW
  let high := if macValid = 1 then efuse AML_EFUSE_MACADDR_HIGH1 else efuse AML_EFUSE_MACADDR_HIGH
  if low = 0 ∨ high = 0 then none
  else some #v[high.extractLsb' 8 8, high.extractLsb' 0 8, low.extractLsb' 24 8, low.extractLsb' 16 8,
    low.extractLsb' 8 8, low.extractLsb' 0 8]

def amlCfgCheckMacaddr (mac : Mac) (useAmlOui : Bool) : Mac :=
  let mac := if useAmlOui then ((mac.set 0 0x1c).set 1 0xa4).set 2 0x10 else mac
  mac.set 0 (mac[0] &&& 0xfc)

def locallyAdministered (mac : Mac) : Mac := mac.set 0 (mac[0] ||| 0x02)

/-- What `aml_cfg_to_file` puts into `cfg`; `random` is the address that `aml_cfg_rand_mac` starts from. -/
def fillCfg (efuse : ℕ → BitVec 32) (random : Mac) : AmlCfg :=
  let vif0Mac := match amlCfgGetMacaddr efuse with
    | some mac => amlCfgCheckMacaddr mac false
    | none => amlCfgCheckMacaddr random true
  ⟨efuse AML_EFUSE_CHIPID_LOW, efuse AML_EFUSE_CHIPID_HIGH, vif0Mac, locallyAdministered vif0Mac⟩

/-- `aml_cfg_to_file` on the file that `aml_cfg_create` has made. -/
def amlCfgToFile (more : ℕ → ℕ) (frames : Frames) (efuse : ℕ → BitVec 32) (random : Mac) : AmlCfg × CfgFile :=
  (fillCfg efuse random, storeCfg more frames (fillCfg efuse random) ⟨[], 0⟩)

/-! ### Reading -/

/-- The octets that `sscanf` stores, the others as they were. -/
def storeOctets (mac : Mac) (octets : List Byte) : Mac :=
  Vector.ofFn fun i => (octets[i.val]?).getD (mac.get i)

/-- The chip id part of `aml_cfg_from_file`; `behind` is the stack behind `chipid_h`. -/
def readChipid (fbuf behind : List Byte) (cfg : AmlCfg) : Option AmlCfg := do
  match ← amlCfgFindTag fbuf (strlen fbuf) (chipIdTag ++ [equalSign]) AML_EFUSE_CHIPID_LEN with
  | none => some cfg
  | some tagPtr =>
    let low ← simpleStrtoul (fbuf.drop (tagPtr + 4))
    let high ← simpleStrtoul ((fbuf.drop tagPtr).take 4 ++ behind)
    some { cfg with chipidL := BitVec.ofNat 32 low.1, chipidH := BitVec.ofNat 32 high.1 }

/-- The part of `aml_cfg_from_file` for one address. -/
def readMac (fbuf tagName : List Byte) (mac : Mac) : Option Mac := do
  match ← amlCfgFindTag fbuf (strlen fbuf) (tagName ++ [equalSign]) 17 with
  | none => some mac
  | some tagPtr => (scanOctets 6 (fbuf.drop tagPtr)).map (storeOctets mac)

/-- `aml_cfg_from_file`; no result when a read goes outside what it is given. -/
def amlCfgFromFile (more : ℕ → ℕ) (behind : List Byte) (cfg : AmlCfg) (fp : CfgFile) : Option AmlCfg :=
  let got := (amlCfgRead more fp AML_CFG_FBUF_MAXLEN).1
  if AML_CFG_FBUF_MAXLEN ≤ got.length then some cfg
  else do
    let fbuf := got ++ List.replicate (AML_CFG_FBUF_MAXLEN - got.length) 0
    let cfg ← readChipid fbuf behind cfg
    let vif0Mac ← readMac fbuf vif0MacaddrTag cfg.vif0Mac
    let vif1Mac ← readMac fbuf vif1MacaddrTag cfg.vif1Mac
    some { cfg with vif0Mac := vif0Mac, vif1Mac := vif1Mac }

/-! ### What they should do -/

/-- **The round trip**: whatever `cfg` held before, the file restores what it was written from. -/
def Restores (more : ℕ → ℕ) (behind : List Byte) (cfg : AmlCfg) (fp : CfgFile) : Prop :=
  ∀ before : AmlCfg, ∃ after, amlCfgFromFile more behind before { fp with fPos := 0 } = some after ∧
    after.chipidL = cfg.chipidL ∧ after.chipidH.toNat % 2 ^ 16 = cfg.chipidH.toNat % 2 ^ 16 ∧
    after.vif0Mac = cfg.vif0Mac ∧ after.vif1Mac = cfg.vif1Mac

/-- **Reading stays inside**: there is a result without anything behind the buffers. -/
def ReadsInside (more : ℕ → ℕ) (cfg : AmlCfg) (fp : CfgFile) : Prop :=
  (amlCfgFromFile more [] cfg fp).isSome = true

/-- **Storing stays inside** the line buffer and the file buffer. -/
def StoresInside (more : ℕ → ℕ) (stack : List Byte) (fp : CfgFile) (tagName tagValue : List Byte) : Prop :=
  (amlCfgStoreTag more stack fp tagName tagValue).lbufUsed ≤ AML_CFG_LBUF_MAXLEN ∧
    (amlCfgStoreTag more stack fp tagName tagValue).fbufUsed ≤ AML_CFG_FBUF_MAXLEN

/-! ### The conditions -/

/-- The uninitialised file buffer passes for a short enough text. -/
def Fits (stack : List Byte) (lineSize : ℕ) : Prop := strlen stack + lineSize ≤ AML_CFG_FBUF_MAXLEN

instance (stack : List Byte) (lineSize : ℕ) : Decidable (Fits stack lineSize) := Nat.decLe _ _

/-- The digits that follow `chipid_h` on the stack, which the conversion takes along. -/
def strayDigits (behind : List Byte) : List Byte := behind.takeWhile fun c => (hexVal c).isSome

/-- The stack behind `chipid_h` goes on with a byte that is no digit, or leaves the low 16 bits as they are. -/
def Harmless (behind : List Byte) (chipidH : ℕ) : Prop :=
  strayDigits behind ≠ behind ∧
    (16 ^ (strayDigits behind).length * (chipidH % 2 ^ 16) + hexNumber (strayDigits behind)) % 2 ^ 16 = chipidH % 2 ^ 16

/-- All three lines are stored and the chip id is read back as it was. -/
def Survives (frames : Frames) (behind : List Byte) (cfg : AmlCfg) : Prop :=
  Fits frames.chipId 21 ∧ Fits frames.vif0 31 ∧ Fits frames.vif1 31 ∧ Harmless behind cfg.chipidH.toNat

/-- A conversion of these four bytes ends inside them: behind a mark of the radix one is no digit. -/
def Ends (digits : List Byte) : Prop :=
  ∃ text, skipRadix digits = some text ∧ ¬ HexText text

end W2l.Cfg
