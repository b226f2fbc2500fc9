/-
**Channel gating of the TX queues: the events.**

`aml_msg_rx.c`, `fullmac/aml_main.c`. The queues of an interface are stopped while the radio is on another
channel, and for the reasons the firmware gives for a whole interface.

* `GateAct`, `GateHw.act` — the indications and requests, and what their handlers do to the queues.
* `GateState` — with the channel the firmware is on and the reasons in force for each interface.
* `Promised` — what the kernel and the firmware promise: **a channel is left before another is entered**.
* `ChannelGating` — **a queue that may send is on the current channel, and a queue of a station carries
  every reason in force for its interface**.
-/

import W2lDriver.Gate.Queues

namespace W2l.Gate

open Chan (amlChNotSet nxChanCtxtCnt)
open Lib (System)
open Sched (StopReason)

/-- The TDLS frames that change `tdls_status`. -/
inductive TdlsAction
  | setupRequest
  | setupResponse
  | setupConfirm
  | other
  deriving DecidableEq

/-- The events. Of a confirmation only what it grants is kept, if the status is `CO_OK`. -/
inductive GateAct (V S : Type)
  | open_ (vif : V) (iftype : Iftype) (master : Option V)
  | chanPreSwitchInd (chanIdx : BitVec 8)
  | chanSwitchInd (chanIdx : BitVec 8) (roc rocTdls : Bool) (vif : V)
  | tdlsChanSwitchBaseInd (vif : V)
  | tdlsChswEn (sta : S) (en : Bool)
  | startAp (vif : V) (cfm : Option (BitVec 8))
  | stopAp (vif : V)
  | addStation (vif : V) (cfm : Option S) (pmState : Bool)
  | delStation (vif : V) (sta : S) (sent : Bool)
  /-- `aml_cfg80211_change_station` adds a TDLS station. -/
  | changeStation (vif : V) (cfm : Option S)
  | tdlsMgmt (vif : V) (action : TdlsAction) (ok : Bool)
  | tdlsOper (vif : V) (sent : Bool)
  | smConnectInd (vif : V) (ap : S) (chIdx : BitVec 8)
  | smDisconnectInd (vif : V)
  /-- `aml_csa_finish`, `aml_scc_csa_finish`, and `aml_rx_csa_finish_ind` of a station. -/
  | csaFinish (vif : V) (ok : Bool) (chIdx : BitVec 8)
  | p2pVifPsChangeInd (vif : V) (on : Bool)
  | csaTrafficInd (vif : V) (enable : Bool)
  | coexistStopRestoreTxqInd (inactive : Bool)
  | remainOnChannel (vif : V)
  | remainOnChannelExpInd
  /-- `aml_ps_bh_enable`. -/
  | psBhEnable (sta : S) (enable : Bool)
  /-- The credits of a queue are used up, or it gets some. -/
  | credits (q : Queue V S) (full : Bool)

variable {V S : Type} [DecidableEq V] [DecidableEq S]

namespace GateHw

variable (s : GateHw V S)

/-- `aml_chanctx_link`, `aml_chanctx_unlink` as far as the interface goes. -/
def chanctxLink (v : V) (chIdx : BitVec 8) : GateHw V S :=
  if nxChanCtxtCnt ≤ chIdx then s else s.modVif v fun x => { x with chIndex := chIdx }
def chanctxUnlink (v : V) : GateHw V S := s.modVif v fun x => { x with chIndex := amlChNotSet }

/-- The interfaces that are up and meet a condition. -/
def upVifs (p : Vif V S → Bool) : List V := s.vifs.filter fun v => (s.vif v).up && p (s.vif v)

/-- `aml_rx_chan_pre_switch_ind`. -/
def chanPreSwitchInd (chanIdx : BitVec 8) : GateHw V S :=
  (s.upVifs fun x => decide (x.chIndex = chanIdx)).foldl (fun s v => s.txqVifStop v {.chan}) s

/-- `aml_rx_chan_switch_ind`. -/
def chanSwitchInd (chanIdx : BitVec 8) (roc rocTdls : Bool) (vif : V) : GateHw V S :=
  if rocTdls then
    let s :=
      if vif ∈ s.vifs then
        (s.modVif vif fun x => { x with rocTdls := true }).mapTxq
          (isSta (s.vif vif).tdlsSta.toList) (Txq.start {.chan})
      else s
    { s with curChanctx := chanIdx }
  else if roc = false then
    let s := (s.upVifs fun x => decide (x.chIndex = chanIdx)).foldl (fun s v => s.txqVifStart v {.chan}) s
    { s with curChanctx := chanIdx }
  else
    match s.roc with
    -- the indication is dropped, and `cur_chanctx` stays as it is
    | none => s
    | some (v, _) =>
      { s.mapTxq (fun q => decide (q = .offchan)) (Txq.start {.chan}) with
        roc := some (v, true)
        curChanctx := chanIdx }

/-- `aml_rx_tdls_chan_switch_base_ind`. -/
def tdlsChanSwitchBaseInd (v : V) : GateHw V S :=
  if v ∈ s.vifs then
    (s.modVif v fun x => { x with rocTdls := false }).mapTxq (isSta (s.vif v).tdlsSta.toList) (Txq.stop {.chan})
  else s

def txqStatus (chIdx : BitVec 8) : Finset StopReason :=
  if s.curChanctx = chIdx then ∅ else {.chan}

/-- `aml_cfg80211_start_ap`. -/
def startAp (v : V) : Option (BitVec 8) → GateHw V S
  | none => s
  | some chIdx => (s.chanctxLink v chIdx).txqVifInit v (s.txqStatus chIdx)

/-- `aml_cfg80211_stop_ap`. Each round deletes a station. -/
def stopAp (v : V) : GateHw V S :=
  let s := (s.chanctxUnlink v).mapTxq (isSta (s.vif v).staList) Txq.deinit
  (s.modVif v fun x => { x with staList := [] }).txqVifDeinit v

def psBhEnable (i : S) (enable : Bool) : GateHw V S :=
  s.mapTxq (isSta [i]) (if enable then Txq.stop {.staPs} else Txq.start {.staPs})

/-- `aml_cfg80211_add_station`. -/
def addStation (v : V) (pmState : Bool) : Option S → GateHw V S
  | none => s
  | some i =>
    let s := { s with staVif := Function.update s.staVif i (some v) }
    let s := s.txqStaInit i (s.txqVifGetStatus v)
    (s.modVif v fun x => { x with staList := x.staList ++ [i] }).psBhEnable i pmState

/-- `aml_cfg80211_del_station` of an address. If the command fails, the station stays in the list. -/
def delStation (v : V) (i : S) (sent : Bool) : GateHw V S :=
  if i ∈ (s.vif v).staList then
    let s := s.txqStaDeinit i
    if sent then s.modVif v fun x => { x with staList := x.staList.erase i } else s
  else s

/-- `aml_cfg80211_change_station` of a TDLS station that is not in the table. -/
def changeStation (v : V) : Option S → GateHw V S
  | none => s
  | some i =>
    let s := { s with staVif := Function.update s.staVif i (some v) }
    let s := s.txqStaInit i (s.txqVifGetStatus v)
    s.modVif v fun x =>
      { x with
        tdlsStatus := if x.tdlsStatus = .setupRspTx then .linkActive else x.tdlsStatus
        tdlsSta := some i }

/-- `aml_cfg80211_tdls_mgmt`. -/
def tdlsMgmt (v : V) (action : TdlsAction) (ok : Bool) : GateHw V S :=
  if (s.vif v).iftype ≠ .station ∨ (s.vif v).up = false ∨ (s.vif v).ap = none then s
  else
    match action with
    | .setupRequest =>
      if (s.vif v).tdlsSta.isSome ∧ (s.vif v).tdlsStatus = .linkActive then s
      else s.modVif v fun x => { x with tdlsStatus := .setupReqTx }
    | .setupResponse => s.modVif v fun x => { x with tdlsStatus := .setupRspTx }
    | .setupConfirm => if ok then s.modVif v fun x => { x with tdlsStatus := .linkActive } else s
    | .other => s

/-- `aml_cfg80211_tdls_oper` of the TDLS station. -/
def tdlsOper (v : V) (sent : Bool) : GateHw V S :=
  match (s.vif v).tdlsSta with
  | none => s
  | some i =>
    let s := s.txqStaDeinit i
    if sent then
      s.modVif v fun x =>
        { x with
          tdlsStatus := .linkIdle
          tdlsSta := none }
    else s

/-- `aml_rx_sm_connect_ind`; `tdls` is `WIPHY_FLAG_SUPPORTS_TDLS`. -/
def smConnectInd (tdls : Bool) (v : V) (i : S) (chIdx : BitVec 8) : GateHw V S :=
  let s := { s with staVif := Function.update s.staVif i (some v) }
  let s := s.modVif v fun x => { x with ap := some i }
  let s := (s.chanctxLink v chIdx).txqStaInit i (s.txqStatus chIdx)
  if tdls then s.txqUnkVifInit v else s

/-- `aml_rx_sm_disconnect_ind`. -/
def smDisconnectInd (tdls : Bool) (v : V) : GateHw V S :=
  let s :=
    match (s.vif v).ap with
    | none => s
    | some i =>
      let s := s.txqStaDeinit i
      (if tdls then s.txqUnkVifDeinit v else s).modVif v fun x => { x with ap := none }
  s.chanctxUnlink v

/-- The end of a channel switch. -/
def csaFinish (v : V) (ok : Bool) (chIdx : BitVec 8) : GateHw V S :=
  if ok then
    let s := (s.chanctxUnlink v).chanctxLink v chIdx
    if s.curChanctx = chIdx then s.txqVifStart v {.chan} else s.txqVifStop v {.chan}
  else s

/-- `aml_rx_p2p_vif_ps_change_ind`, `aml_rx_csa_traffic_ind`. -/
def vifTraffic (v : V) (reason : StopReason) (stop : Bool) : GateHw V S :=
  if v ∈ s.vifs then if stop then s.txqVifStop v {reason} else s.txqVifStart v {reason} else s

/-- `aml_rx_coexist_stop_restore_txq_ind`. -/
def coexistStopRestoreTxqInd (inactive : Bool) : GateHw V S :=
  if inactive then
    (s.upVifs fun _ => true).foldl (fun s v => s.txqVifStop v {.coexInactive}) s
  else (s.upVifs fun _ => true).foldl (fun s v => s.txqVifStart v {.coexInactive}) s

/-- An event. -/
def act (tdls : Bool) : GateAct V S → GateHw V S
  | .open_ v iftype master =>
    { s with
      vifs := s.vifs ++ [v]
      vif := Function.update s.vif v { iftype, master, up := true } }
  | .chanPreSwitchInd chanIdx => s.chanPreSwitchInd chanIdx
  | .chanSwitchInd chanIdx roc rocTdls vif => s.chanSwitchInd chanIdx roc rocTdls vif
  | .tdlsChanSwitchBaseInd v => s.tdlsChanSwitchBaseInd v
  | .tdlsChswEn i en => { s with chswEn := Function.update s.chswEn i en }
  | .startAp v cfm => s.startAp v cfm
  | .stopAp v => s.stopAp v
  | .addStation v cfm pmState => s.addStation v pmState cfm
  | .delStation v i sent => s.delStation v i sent
  | .changeStation v cfm => s.changeStation v cfm
  | .tdlsMgmt v action ok => s.tdlsMgmt v action ok
  | .tdlsOper v sent => s.tdlsOper v sent
  | .smConnectInd v i chIdx => s.smConnectInd tdls v i chIdx
  | .smDisconnectInd v => s.smDisconnectInd tdls v
  | .csaFinish v ok chIdx => s.csaFinish v ok chIdx
  | .p2pVifPsChangeInd v on => s.vifTraffic v .vifPs on
  | .csaTrafficInd v enable => s.vifTraffic v .csa !enable
  | .coexistStopRestoreTxqInd inactive => s.coexistStopRestoreTxqInd inactive
  | .remainOnChannel v =>
    { s.mapTxq (fun q => decide (q = .offchan)) fun _ => Txq.init {.chan} with roc := some (v, false) }
  | .remainOnChannelExpInd =>
    match s.roc with
    | none => s
    | some _ => { s.mapTxq (fun q => decide (q = .offchan)) Txq.deinit with roc := none }
  | .psBhEnable i enable => s.psBhEnable i enable
  | .credits q full =>
    s.mapTxq (fun q' => decide (q' = q)) (if full then Txq.stop {.full} else Txq.start {.full})

end GateHw

/-! ### What is in force -/

/-- The driver, with what the firmware said. -/
structure GateState (V S : Type) where
  hw : GateHw V S := {}
  /-- The channel of the last switch, until it is left. -/
  air : Option (BitVec 8) := some 0
  /-- The reasons each interface was stopped for and not started again. -/
  inForce : V → Finset StopReason := fun _ => ∅

namespace GateState

variable (s : GateState V S)

def force (v : V) (reason : StopReason) (stop : Bool) : V → Finset StopReason :=
  Function.update s.inForce v (if stop then insert reason (s.inForce v) else (s.inForce v).erase reason)

/-- An event. The end of a link ends the stops that were for it. -/
def act (tdls : Bool) (a : GateAct V S) : GateState V S where
  hw := s.hw.act tdls a
  air :=
    match a with
    | .chanPreSwitchInd chanIdx => if s.air = some chanIdx then none else s.air
    | .chanSwitchInd chanIdx _ _ _ => some chanIdx
    | _ => s.air
  inForce :=
    match a with
    | .p2pVifPsChangeInd v on => s.force v .vifPs on
    | .csaTrafficInd v enable => s.force v .csa !enable
    | .coexistStopRestoreTxqInd inactive => fun v =>
      if v ∈ s.hw.vifs then
        if inactive then insert .coexInactive (s.inForce v) else (s.inForce v).erase .coexInactive
      else s.inForce v
    | .stopAp v | .smDisconnectInd v => Function.update s.inForce v (s.inForce v ∩ {.coexInactive})
    | _ => s.inForce

/-- The firmware is on the channel of an interface. -/
def Served (v : V) : Prop := (s.hw.vif v).chIndex = s.hw.curChanctx ∧ s.air = some s.hw.curChanctx

end GateState

def GateHw.own (s : GateHw V S) (v : V) : Bool :=
  decide (v ∈ s.vifs) && (s.vif v).up && decide ((s.vif v).iftype ≠ .apVlan)

/-- The interface is an AP, or a station. -/
def Iftype.isAp : Iftype → Bool
  | .ap | .p2pGo | .meshPoint => true
  | _ => false
def Iftype.isStation : Iftype → Bool
  | .station | .p2pClient => true
  | _ => false

/-- **What the kernel and the firmware promise**: interfaces are used when they are up and as what they
are, and the firmware leaves a channel before it enters another. -/
def Promised (s : GateState V S) : GateAct V S → Bool
  | .open_ v iftype master =>
    decide (v ∉ s.hw.vifs) && (decide (iftype ≠ .apVlan) ||
      master.any fun m => s.hw.own m && (s.hw.vif m).iftype.isAp)
  | .chanSwitchInd chanIdx _ _ _ => decide (s.air = none ∨ s.air = some chanIdx)
  | .startAp v _ | .stopAp v | .addStation v _ _ | .delStation v _ _ =>
    s.hw.own v && (s.hw.vif v).iftype.isAp
  | .changeStation v _ | .tdlsMgmt v _ _ | .tdlsOper v _ | .smConnectInd v _ _ | .smDisconnectInd v =>
    s.hw.own v && (s.hw.vif v).iftype.isStation
  | .csaFinish v _ _ | .p2pVifPsChangeInd v _ | .csaTrafficInd v _ => s.hw.own v
  | _ => true

/-- The runs of the events. -/
def gateSystem (V S : Type) [DecidableEq V] [DecidableEq S] (tdls : Bool) : System (GateState V S) (GateAct V S) where
  init := {}
  step s a := if Promised s a then some (s.act tdls a) else none

/-! ### Channel gating -/

/-- A queue belongs to an interface. -/
def GateHw.Of (s : GateHw V S) : Queue V S → V → Prop
  | .sta i _, v => s.staVif i = some v
  | .bcmc w, v => w = v
  | .unk w, v => w = v
  | .offchan, _ => False

def GateHw.OnChannel (s : GateHw V S) (v : V) : Prop :=
  (∃ w, s.roc = some (w, true)) ∨ (s.vif v).rocTdls = true

def GateState.InForce (s : GateState V S) (v : V) (r : StopReason) : Prop :=
  r ∈ s.inForce v ∨ r = .chan ∧ ¬ s.Served v ∧ ¬ s.hw.OnChannel v

/-- **Channel gating.** -/
structure ChannelGating (s : GateState V S) : Prop where
  /-- A queue that the channel does not stop is on the current one. -/
  gated : ∀ q v, s.hw.Of q v → ¬ s.hw.OnChannel v → (s.hw.txq q).active = true →
    .chan ∉ (s.hw.txq q).status → (s.hw.vif v).chIndex = s.hw.curChanctx
  /-- A queue of a station carries what is in force for its interface. -/
  carried : ∀ i tid v, s.hw.staVif i = some v → (s.hw.txq (.sta i tid)).active = true →
    ∀ r, s.InForce v r → r ∈ (s.hw.txq (.sta i tid)).status

end W2l.Gate
