/-
**Keys: the slots the driver remembers hardware indices in, and the calls that use them.**

* `KeyHw.getSta` — `aml_get_sta`: the first valid entry of the table with the address.
* `KeyHw.slotOf` — which slot a call uses: one for each entry of the station table, whatever the key index,
  and one for each index of the interface where no address is given.
* `KeyHw.addKey` — `aml_cfg80211_add_key`: the command, and the index it was granted into the slot.
* `KeyHw.delKey` — `aml_cfg80211_del_key`: the command with whatever index the slot holds.

The firmware's keys are a table from hardware indices. It grants an index that is not in use and frees it
on a deletion; whether it frees the keys of a station that is removed is left open.
-/

import W2lDriver.Lib.System

namespace W2l.Key

open Lib (System)

abbrev nxRemoteStaMax : ℕ := 16

def wpiSubkeyLen : ℕ := 16

def wpiKeyLen : ℕ := 32

/-! ### The command -/

/-- The cipher suite selectors. -/
inductive CipherSuite
  | wep40
  | wep104
  | tkip
  | ccmp
  | aesCmac
  | sms4
  | gcmp
  | gcmp256
  | ccmp256
  | other (suite : UInt32)
  deriving DecidableEq

/-- `MAC_CIPHER_*`. -/
inductive MacCipher
  | wep40
  | wep104
  | tkip
  | ccmp
  | wpiSms4
  | bipCmac128
  | gcmp128
  | gcmp256
  | ccmp256
  deriving DecidableEq

def macCipher : CipherSuite → Option MacCipher
  | .wep40 => some .wep40
  | .wep104 => some .wep104
  | .tkip => some .tkip
  | .ccmp => some .ccmp
  | .aesCmac => some .bipCmac128
  | .sms4 => some .wpiSms4
  | .gcmp => some .gcmp128
  | .gcmp256 => some .gcmp256
  | .ccmp256 => some .ccmp256
  | .other _ => none

def swap (key : List UInt8) (i j : ℕ) : List UInt8 :=
  (key.set i (key.getD j 0)).set j (key.getD i 0)

def reverseSms4 (key : List UInt8) : List UInt8 :=
  let first := (List.range (wpiSubkeyLen / 2)).foldl (fun key i => swap key i (wpiSubkeyLen - 1 - i)) key
  (List.range (wpiSubkeyLen / 2)).foldl (fun key i => swap key (i + wpiSubkeyLen) (wpiKeyLen - 1 - i)) first

structure KeyParams where
  key : List UInt8
  keyLen : UInt8
  cipher : CipherSuite
  deriving DecidableEq

structure MmKeyAddReq where
  staIdx : UInt8
  keyIdx : UInt8
  pairwise : Bool
  instNbr : UInt8
  length : UInt8
  array : List UInt8
  cipherSuite : MacCipher
  deriving DecidableEq

structure MmKeyAddCfm where
  status : UInt8
  hwKeyIdx : UInt8
  deriving DecidableEq

/-- What `aml_send_msg` fails with. -/
inductive SendError
  | ebusy
  | enomem
  | epipe
  | eintr
  | etimedout
  deriving DecidableEq

/-- How a call ends. -/
inductive Errno
  | einval
  | eio
  | enoent
  | send (error : SendError)
  deriving DecidableEq

/-- What becomes of a command: it fails, a broken bus takes it with success and leaves the confirmation as
it was on the stack, or it is confirmed. -/
inductive Answer (α : Type)
  | failed (error : SendError)
  | dropped (stack : α)
  | confirmed (cfm : α)
  deriving DecidableEq

/-! ### The state -/

variable {V M : Type} [DecidableEq V] [DecidableEq M]

/-- What a key is installed for: an interface, a station or the group, and a key index. `cfg80211` refuses
indices above five. -/
structure Triple (V M : Type) where
  vif : V
  mac : Option M
  keyIndex : Fin 6
  deriving DecidableEq

/-- A key of the hardware. -/
structure HwKey (V M : Type) where
  triple : Triple V M
  req : MmKeyAddReq
  deriving DecidableEq

/-- `struct aml_sta`: `key` is `key.hw_idx`. -/
structure AmlSta (M : Type) where
  valid : Bool
  macAddr : M
  key : UInt8
  deriving DecidableEq

/-- A slot for a hardware index. -/
inductive Slot (V : Type)
  | sta (i : Fin nxRemoteStaMax)
  | vif (v : V) (keyIndex : Fin 6)
  deriving DecidableEq

/-- A call of `del_key` that has returned: the triple, the key the triple had, the keys of the hardware
before and after, and how it ended. -/
structure DelCall (V M : Type) where
  triple : Triple V M
  installed : Option UInt8
  answer : Answer Unit
  before : UInt8 → Option (HwKey V M)
  after : UInt8 → Option (HwKey V M)
  error : Option Errno

/-- The driver and the hardware. `granted` is what the last successful `add_key` for a triple was granted,
with the slot it was written to; `writer` is the triple whose index a slot was last written for; `dels` are
the calls of `del_key`, the last one first. -/
structure KeyHw (V M : Type) where
  staTable : Fin nxRemoteStaMax → AmlSta M
  vifKey : V → Fin 6 → UInt8
  vifIndex : V → UInt8
  hwKeys : UInt8 → Option (HwKey V M) := fun _ => none
  granted : Triple V M → Option (Slot V × UInt8) := fun _ => none
  writer : Slot V → Option (Triple V M) := fun _ => none
  dels : List (DelCall V M) := []

namespace KeyHw

variable (s : KeyHw V M)

def getSta (mac : M) : Option (Fin nxRemoteStaMax) :=
  (List.finRange nxRemoteStaMax).find? fun i => (s.staTable i).valid && decide ((s.staTable i).macAddr = mac)

/-- The slot of a call: `&sta->key` or `&vif->key[key_index]`. -/
def slotOf (t : Triple V M) : Option (Slot V) :=
  match t.mac with
  | some mac => (s.getSta mac).map Slot.sta
  | none => some (.vif t.vif t.keyIndex)

def keyAt : Slot V → UInt8
  | .sta i => (s.staTable i).key
  | .vif v keyIndex => s.vifKey v keyIndex

/-- `aml_key->hw_idx = hwIdx`. -/
def store (slot : Slot V) (hwIdx : UInt8) : KeyHw V M :=
  match slot with
  | .sta i => { s with staTable := Function.update s.staTable i { s.staTable i with key := hwIdx } }
  | .vif v keyIndex => { s with vifKey := Function.update s.vifKey v (Function.update (s.vifKey v) keyIndex hwIdx) }

/-- The key a triple has: what its last successful `add_key` was granted, as long as the hardware has it. -/
def installed (t : Triple V M) : Option UInt8 :=
  (s.granted t).bind fun grant => if (s.hwKeys grant.2).map HwKey.triple = some t then some grant.2 else none

/-! ### The calls -/

/-- The `sta_idx` of the command. -/
def staIdx (t : Triple V M) : UInt8 :=
  match t.mac.bind s.getSta with
  | some i => UInt8.ofNat i
  | none => 0xFF

/-- `aml_send_key_add`. -/
def keyAddReq (t : Triple V M) (pairwise : Bool) (params : KeyParams) (cipher : MacCipher) : MmKeyAddReq where
  staIdx := s.staIdx t
  keyIdx := UInt8.ofNat t.keyIndex
  pairwise := pairwise
  instNbr := s.vifIndex t.vif
  length := params.keyLen
  array := (if params.cipher = .sms4 then reverseSms4 params.key else params.key).take params.keyLen.toNat
  cipherSuite := cipher

def grant (t : Triple V M) (req : MmKeyAddReq) (hwIdx : UInt8) : KeyHw V M :=
  { s with hwKeys := Function.update s.hwKeys hwIdx (some ⟨t, req⟩) }

def saveGranted (t : Triple V M) (slot : Slot V) (hwIdx : UInt8) : KeyHw V M :=
  { s.store slot hwIdx with
    granted := Function.update s.granted t (some (slot, hwIdx))
    writer := Function.update s.writer slot (some t) }

def saveStack (slot : Slot V) (hwIdx : UInt8) : KeyHw V M :=
  { s.store slot hwIdx with writer := Function.update s.writer slot none }

/-- `aml_cfg80211_add_key`. -/
def addKey (t : Triple V M) (pairwise : Bool) (params : KeyParams) (answer : Answer MmKeyAddCfm) :
    KeyHw V M × Option Errno :=
  match s.slotOf t with
  | none => (s, some .einval)
  | some slot =>
    match macCipher params.cipher with
    | none => (s, some .einval)
    | some cipher =>
      match answer with
      | .failed error => (s, some (.send error))
      | .dropped cfm =>
        if cfm.status ≠ 0 then (s, some .eio) else (s.saveStack slot cfm.hwKeyIdx, none)
      | .confirmed cfm =>
        if cfm.status ≠ 0 then (s, some .eio)
        else ((s.grant t (s.keyAddReq t pairwise params cipher) cfm.hwKeyIdx).saveGranted t slot cfm.hwKeyIdx, none)

/-- `aml_cfg80211_del_key`. -/
def delKey (t : Triple V M) (answer : Answer Unit) : KeyHw V M × Option Errno :=
  match s.slotOf t with
  | none => (s, some .einval)
  | some slot =>
    match answer with
    | .failed error => (s, some (.send error))
    | .dropped _ => (s, none)
    | .confirmed _ => ({ s with hwKeys := Function.update s.hwKeys (s.keyAt slot) none }, none)

def delCall (t : Triple V M) (answer : Answer Unit) : DelCall V M where
  triple := t
  installed := s.installed t
  answer := answer
  before := s.hwKeys
  after := (s.delKey t answer).1.hwKeys
  error := (s.delKey t answer).2

/-! ### Stations come and go -/

/-- An entry of the table is given to a station; its key is left as it was. -/
def addStation (i : Fin nxRemoteStaMax) (mac : M) : KeyHw V M :=
  { s with staTable := Function.update s.staTable i { s.staTable i with valid := true, macAddr := mac } }

/-- An entry is given up; the firmware may free the keys of the station. -/
def delStation (i : Fin nxRemoteStaMax) (freed : Bool) : KeyHw V M :=
  { s with
    staTable := Function.update s.staTable i { s.staTable i with valid := false }
    hwKeys := fun hwIdx => (s.hwKeys hwIdx).filter fun key =>
      !(freed && decide (key.triple.mac = some (s.staTable i).macAddr)) }

end KeyHw

/-! ### The system -/

/-- What can happen. -/
inductive KeyAct (V M : Type)
  | openVif (v : V) (vifIndex : UInt8)
  | addStation (i : Fin nxRemoteStaMax) (mac : M)
  | delStation (i : Fin nxRemoteStaMax) (freed : Bool)
  | addKey (t : Triple V M) (pairwise : Bool) (params : KeyParams) (answer : Answer MmKeyAddCfm)
  | delKey (t : Triple V M) (answer : Answer Unit)
  deriving DecidableEq

/-- The firmware grants an index that is not in use. -/
def KeyHw.Free (s : KeyHw V M) : Answer MmKeyAddCfm → Prop
  | .confirmed cfm => cfm.status = 0 → s.hwKeys cfm.hwKeyIdx = none
  | _ => True

instance (s : KeyHw V M) : ∀ answer, Decidable (s.Free answer)
  | .failed _ => .isTrue trivial
  | .dropped _ => .isTrue trivial
  | .confirmed cfm => inferInstanceAs (Decidable (cfm.status = 0 → s.hwKeys cfm.hwKeyIdx = none))

/-- One step. -/
def act (s : KeyHw V M) : KeyAct V M → Option (KeyHw V M)
  | .openVif v vifIndex => some { s with vifIndex := Function.update s.vifIndex v vifIndex }
  | .addStation i mac => some (s.addStation i mac)
  | .delStation i freed => some (s.delStation i freed)
  | .addKey t pairwise params answer => if s.Free answer then some (s.addKey t pairwise params answer).1 else none
  | .delKey t answer => some { (s.delKey t answer).1 with dels := s.delCall t answer :: s.dels }

/-- A driver that was just loaded: the table is zeroed. -/
def init [Inhabited M] : KeyHw V M where
  staTable := fun _ => ⟨false, default, 0⟩
  vifKey := fun _ _ => 0
  vifIndex := fun _ => 0

def system (V M : Type) [DecidableEq V] [DecidableEq M] [Inhabited M] : System (KeyHw V M) (KeyAct V M) :=
  ⟨init, act⟩

end W2l.Key
