/-
**Channel switches of an AP: the objects.**

`aml_build_bcn`, `aml_del_bcn`, `aml_del_csa`, `aml_csa_finish`, `aml_cfg80211_channel_switch`
(`fullmac/aml_main.c`), `aml_ipc_buf_a2e_init`, `aml_ipc_buf_dealloc` (`aml_utils.c`),
`aml_scc_channel_switch`, `aml_scc_csa_finish` (`aml_scc.c`) and `aml_rx_csa_finish_ind`
(`aml_msg_rx.c`), for one interface.

* `Obj`, `Bcn`, `IpcBuf`, `Csa` — what is allocated, and who points to it.
* `buildBcn`, `ipcBufA2eInit`, `CsaHw.ipcBufDealloc`, `CsaHw.delCsa` — the helpers.
* `CsaHw.channelSwitch` — the call, with every way it can fail.
* `csaSystem` — **the runs**.
* `CsaOwnership` — everything is freed once, and a call that fails changes nothing.
-/

import W2lDriver.Lib.Heap
import W2lDriver.Lib.System

namespace W2l.Chsw

open Lib (Heap System)

abbrev Bytes := List (BitVec 8)

inductive Bus
  | pcie
  | usb
  | sdio
  deriving DecidableEq

/-- `struct aml_bcn`. There are no extra IEs. -/
structure Bcn where
  head : Option ℕ := none
  tail : Option ℕ := none
  headLen : ℕ := 0
  tailLen : ℕ := 0
  timLen : ℕ := 0
  len : ℕ := 0
  dtim : BitVec 8 := 0
  deriving DecidableEq

/-- `struct aml_ipc_buf`: what is on the stack, or an address. -/
inductive IpcBuf
  | garbage
  | set (addr : Option ℕ)
  deriving DecidableEq

/-- `struct aml_csa`, and whether `aml_scc_channel_switch` allocated it. -/
structure Csa where
  bcn : Bcn := {}
  buf : IpcBuf := .set none
  status : ℕ := 0
  chIdx : ℕ := 0
  scc : Bool := false
  deriving DecidableEq

/-- What is allocated. -/
inductive Obj
  | bytes (b : Bytes)
  | csa (c : Csa)
  deriving DecidableEq

/-- `struct cfg80211_beacon_data`. -/
structure BeaconData where
  head : Option Bytes
  tail : Option Bytes
  deriving DecidableEq

/-- The allocations of `aml_build_bcn` that succeed. -/
structure BuildEnv where
  head : Bool := true
  tail : Bool := true
  buf : Bool := true
  deriving DecidableEq

/-! ### Beacons -/

/-- `kfree`, of a pointer that may be `NULL`. -/
def kfree (h : Heap Obj) : Option ℕ → Heap Obj
  | none => h
  | some i => h.free i

def Obj.toBytes : Obj → Bytes
  | .bytes b => b
  | .csa _ => []

/-- What `memcpy` reads at a pointer. -/
def readBytes (h : Heap Obj) (p : Option ℕ) : Bytes := ((p.bind h.obj).map Obj.toBytes).getD []

def touch (h : Heap Obj) : Option ℕ → Heap Obj
  | none => h
  | some i => h.use i

/-- What `aml_build_bcn` leaves, with the buffer it returns. -/
structure Built where
  heap : Heap Obj
  bcn : Bcn
  buf : Option ℕ

/-- `WLAN_EID_TIM`, its length and its contents. -/
def tim (dtim : BitVec 8) : Bytes := [5, 4, 0, dtim, 0, 0]

/-- The end of `aml_build_bcn`: the buffer. -/
def buildFrame (env : BuildEnv) (bcn : Bcn) (h : Heap Obj) : Built :=
  if bcn.head = none then ⟨h, bcn, none⟩
  else
    let bcn := { bcn with
      timLen := 6
      len := bcn.headLen + bcn.tailLen + 6 }
    if env.buf then
      let frame := readBytes h bcn.head ++ tim bcn.dtim ++ readBytes h bcn.tail
      ⟨(touch (touch h bcn.head) bcn.tail).alloc (.bytes frame), bcn, some h.next⟩
    else ⟨h, bcn, none⟩

/-- `aml_build_bcn`, from the tail on. -/
def buildTail (env : BuildEnv) (new : BeaconData) (bcn : Bcn) (h : Heap Obj) : Built :=
  match new.tail with
  | none => buildFrame env bcn h
  | some d =>
    if env.tail then
      buildFrame env { bcn with
        tail := some h.next
        tailLen := d.length } (kfree (h.alloc (.bytes d)) bcn.tail)
    else ⟨h, bcn, none⟩

def buildBcn (env : BuildEnv) (new : BeaconData) (bcn : Bcn) (h : Heap Obj) : Built :=
  match new.head with
  | none => buildTail env new bcn h
  | some d =>
    if env.head then
      buildTail env new { bcn with
        head := some h.next
        headLen := d.length } (kfree (h.alloc (.bytes d)) bcn.head)
    else ⟨h, bcn, none⟩

/-- `aml_del_bcn`, on the heap. -/
def delBcn (bcn : Bcn) (h : Heap Obj) : Heap Obj := kfree (kfree h bcn.head) bcn.tail

/-- `aml_ipc_buf_a2e_init`, and whether it succeeds. The mapping may fail. -/
def ipcBufA2eInit (bus : Bus) (mapped : Bool) (data : ℕ) : IpcBuf × Bool :=
  match bus with
  | .pcie => if mapped then (.set (some data), true) else (.set none, false)
  | .usb | .sdio => (.set (some data), true)

/-! ### The interface -/

/-- How a call ends. -/
inductive Errno
  | busy
  | inval
  | nomem
  | io
  deriving DecidableEq

/-- A stored beacon. -/
structure Stored where
  head : Option Bytes
  tail : Option Bytes
  deriving DecidableEq

def storedOf (h : Heap Obj) (bcn : Bcn) : Stored :=
  ⟨bcn.head.map fun i => readBytes h (some i), bcn.tail.map fun i => readBytes h (some i)⟩

/-- A call of `aml_cfg80211_channel_switch` that has returned. -/
structure CallLog where
  error : Option Errno
  csa : Option ℕ
  before : Stored
  after : Stored
  deriving DecidableEq

/-- The interface. -/
structure CsaHw where
  heap : Heap Obj := {}
  /-- `ap.bcn`. -/
  bcn : Bcn := {}
  /-- `ap.csa`. -/
  csa : Option ℕ := none
  /-- The objects whose work is pending, and those whose work runs. -/
  queued : List ℕ := []
  running : List ℕ := []
  /-- How often `aml_ipc_buf_dealloc` was given a buffer that was not initialised. -/
  uninit : ℕ := 0
  /-- A switch was started, and has not ended. -/
  inProgress : Bool := false
  calls : List CallLog := []

/-- The parameters of a switch, `struct cfg80211_csa_settings`. -/
structure CsaSettings where
  beaconCsa : BeaconData
  beaconAfter : BeaconData
  counterOffsets : List ℕ := []
  count : ℕ := 1

/-- How the steps of a call go. -/
structure CsaEnv where
  first : BuildEnv := {}
  mapped : Bool := true
  csa : Bool := true
  second : BuildEnv := {}
  mappedAfter : Bool := true
  sent : Bool := true

def bcnMaxCsaCpt : ℕ := 2

namespace CsaHw

variable (bus : Bus) (s : CsaHw)

def stored : Stored := storedOf s.heap s.bcn

/-- `aml_ipc_buf_dealloc`. Behind garbage there is nothing to free off PCIe. -/
def ipcBufDealloc : IpcBuf → CsaHw
  | .garbage => { s with uninit := s.uninit + 1 }
  | .set none => s
  | .set (some i) => if bus = .pcie then { s with heap := s.heap.free i } else s

/-- The contents of a `struct aml_csa`. -/
def csaAt (i : ℕ) : Csa :=
  match s.heap.obj i with
  | some (.csa c) => c
  | _ => {}

def delCsa : CsaHw :=
  match s.csa with
  | none => s
  | some i =>
    let c := s.csaAt i
    let s := { s with heap := s.heap.use i }.ipcBufDealloc bus c.buf
    { s with
      heap := (delBcn c.bcn s.heap).free i
      csa := none }

def forceCount (settings : CsaSettings) (headLen timLen : ℕ) (b : Bytes) : Bytes :=
  if settings.count = 0 then
    settings.counterOffsets.foldl (fun b o => b.set ((o + headLen + timLen) % 65536) 2) b
  else b

/-- `aml_cfg80211_channel_switch` from its `end` on. -/
def switchEnd (buf : IpcBuf) (error : Option Errno) : CsaHw × Option Errno :=
  (s.ipcBufDealloc bus buf, error)

/-- The new beacon is sent, and the work is initialised. -/
def switchSend (env : CsaEnv) (buf : IpcBuf) : CsaHw × Option Errno :=
  if env.sent then { s with inProgress := true }.switchEnd bus buf none
  else (s.delCsa bus).switchEnd bus buf (some .io)

/-- The buffer of the beacon behind the switch, for the object `csa`. -/
def switchMap (env : CsaEnv) (buf : IpcBuf) (csa after : ℕ) : CsaHw × Option Errno :=
  let init := ipcBufA2eInit bus env.mappedAfter after
  let s := { s with heap := s.heap.modify csa fun _ => .csa { s.csaAt csa with buf := init.1 } }
  if init.2 then { s with csa := some csa }.switchSend bus env buf
  else { s with heap := s.heap.free after }.switchEnd bus buf (some .io)

def switchAlloc (settings : CsaSettings) (env : CsaEnv) (buf : IpcBuf) : CsaHw × Option Errno :=
  if env.csa = false then s.switchEnd bus buf (some .nomem)
  else
    let csa := s.heap.next
    let built := buildBcn env.second settings.beaconAfter {} (s.heap.alloc (.csa {}))
    let s := { s with heap := built.heap.modify csa fun _ => .csa { bcn := built.bcn } }
    match built.buf with
    | none => (s.delCsa bus).switchEnd bus buf (some .nomem)
    | some after => s.switchMap bus env buf csa after

/-- The new beacon `bcnBuf` goes to the firmware. -/
def switchBuf (settings : CsaSettings) (env : CsaEnv) (bcnBuf : ℕ) : CsaHw × Option Errno :=
  match bus with
  | .pcie =>
    let init := ipcBufA2eInit .pcie env.mapped bcnBuf
    if init.2 then s.switchAlloc .pcie settings env init.1
    else ({ s with heap := s.heap.free bcnBuf }, some .io)
  | .usb => { s with heap := (s.heap.use bcnBuf).free bcnBuf }.switchAlloc .usb settings env .garbage
  | .sdio => { s with heap := (s.heap.use bcnBuf).free bcnBuf }.switchAlloc .sdio settings env .garbage

/-- `aml_cfg80211_channel_switch`. -/
def channelSwitch (settings : CsaSettings) (env : CsaEnv) : CsaHw × Option Errno :=
  if s.csa ≠ none then (s, some .busy)
  else if settings.counterOffsets.length > bcnMaxCsaCpt then (s, some .inval)
  else
    let built := buildBcn env.first settings.beaconCsa s.bcn s.heap
    let s := { s with
      heap := built.heap
      bcn := built.bcn }
    match built.buf with
    | none => (s, some .nomem)
    | some bcnBuf =>
      { s with
        heap := s.heap.modify bcnBuf fun o => .bytes (forceCount settings s.bcn.headLen s.bcn.timLen o.toBytes)
        }.switchBuf bus settings env bcnBuf

def callChannelSwitch (settings : CsaSettings) (env : CsaEnv) : CsaHw :=
  let t := s.channelSwitch bus settings env
  { t.1 with calls := ⟨t.2, t.1.csa, s.stored, t.1.stored⟩ :: t.1.calls }

/-- `aml_scc_channel_switch`, as far as the object goes. -/
def sccChannelSwitch (csa sent : Bool) : CsaHw :=
  if s.csa ≠ none then s
  else if csa = false then s
  else if sent then
    { s with
      heap := s.heap.alloc (.csa { scc := true })
      csa := some s.heap.next
      inProgress := true }
  else { s with heap := (s.heap.alloc (.csa { scc := true })).free s.heap.next }

/-- `aml_rx_csa_finish_ind` of an AP. -/
def csaFinishInd (status chIdx : ℕ) : CsaHw :=
  match s.csa with
  | none => s
  | some i =>
    { s with
      heap := s.heap.modify i fun _ => .csa { s.csaAt i with status := status, chIdx := chIdx }
      queued := if i ∈ s.queued then s.queued else i :: s.queued }

/-- `aml_csa_finish`, `aml_scc_csa_finish`, up to where they sleep. -/
def workBegin (i : ℕ) : CsaHw :=
  let c := s.csaAt i
  let h := s.heap.use i
  { s with
    heap := match c.buf, c.scc, bus with
      | .set p, false, .usb => touch h p
      | .set p, false, .sdio => touch h p
      | _, _, _ => h
    queued := s.queued.erase i
    running := i :: s.running }

/-- The rest of them. -/
def workEnd (i : ℕ) : CsaHw :=
  let c := s.csaAt i
  let s := { s with
    heap := s.heap.use i
    running := s.running.erase i
    inProgress := false }
  if c.scc then
    { s with
      heap := s.heap.free i
      csa := none }
  else s.delCsa bus

/-- What `aml_cfg80211_stop_ap` frees. -/
def stopAp : CsaHw :=
  { s with
    heap := delBcn s.bcn s.heap
    bcn := {}
    inProgress := false }.delCsa bus

def startAp (new : BeaconData) (env : BuildEnv) : CsaHw :=
  let built := buildBcn env new s.bcn s.heap
  { s with
    heap := kfree built.heap built.buf
    bcn := built.bcn }

end CsaHw

/-- What happens. -/
inductive CsaAct
  | startAp (new : BeaconData) (env : BuildEnv)
  | channelSwitch (settings : CsaSettings) (env : CsaEnv)
  | sccChannelSwitch (csa sent : Bool)
  | csaFinishInd (status chIdx : ℕ)
  | workBegin (csa : ℕ)
  | workEnd (csa : ℕ)
  | stopAp

/-- **What happens.** A work begins when it is pending and does not run, and ends when it runs. -/
def CsaHw.act (bus : Bus) (s : CsaHw) : CsaAct → Option CsaHw
  | .startAp new env => some (s.startAp new env)
  | .channelSwitch settings env => some (s.callChannelSwitch bus settings env)
  | .sccChannelSwitch csa sent => some (s.sccChannelSwitch csa sent)
  | .csaFinishInd status chIdx => some (s.csaFinishInd status chIdx)
  | .workBegin i => if i ∈ s.queued ∧ i ∉ s.running then some (s.workBegin bus i) else none
  | .workEnd i => if i ∈ s.running then some (s.workEnd bus i) else none
  | .stopAp => some (s.stopAp bus)

def csaSystem (bus : Bus) : System CsaHw CsaAct where
  init := {}
  step := CsaHw.act bus

/-! ### Ownership -/

def Bcn.parts (bcn : Bcn) : List ℕ := bcn.head.toList ++ bcn.tail.toList

def IpcBuf.parts : IpcBuf → List ℕ
  | .garbage => []
  | .set addr => addr.toList

/-- An object and what it points to. -/
def CsaHw.csaHeld (s : CsaHw) : List ℕ :=
  match s.csa with
  | none => []
  | some i => i :: ((s.csaAt i).buf.parts ++ (s.csaAt i).bcn.parts)

def CsaHw.held (s : CsaHw) : List ℕ := s.bcn.parts ++ s.csaHeld

/-- **The ownership of the objects.** -/
structure CsaOwnership (s : CsaHw) : Prop where
  /-- Nothing is freed twice. -/
  once : ∀ i, s.heap.frees i ≤ 1
  /-- What the interface does not point to any more was freed. -/
  freed : ∀ i, i < s.heap.next → i ∉ s.held → s.heap.frees i = 1
  /-- What it points to was not. -/
  kept : ∀ i ∈ s.held, s.heap.Live i
  /-- Nothing is used after it was freed. -/
  unused : s.heap.misused = []
  initialised : s.uninit = 0
  inProgress : s.csa ≠ none ↔ s.inProgress = true
  /-- A call that fails leaves no object, and the stored beacon as it was. -/
  failed : ∀ call ∈ s.calls, call.error ≠ none → call.csa = none ∧ call.after = call.before

end W2l.Chsw
