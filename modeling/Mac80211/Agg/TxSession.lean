import Mac80211.Lib.Reach
import Mathlib.Data.UInt

/-!
# The originator of a block-ack session

`agg-tx.c` and `ieee80211_ba_session_work` of `ht.c`, for one station and one TID. Callbacks, timers
and local requests only leave bits for the worker; the worker, the responses of the peer and the
stops hold `ampdu_mlme.mtx`, and each of them is one step. Callbacks come at any time, and driver
and peer answer as they like. Frames that are queued meanwhile and the time between requests are
left out; `sid` tells sessions apart and is no field of the source.

## Main definitions

* `TxBa`, `TxBaOut`, `txBaStep`
-/

namespace Mac80211

/-! ### The state -/

/-- `struct tid_ampdu_tx`; the first eight flags are `state`. -/
structure TidAmpduTx where
  sid : ℕ
  /-- `HT_AGG_STATE_DRV_READY`. -/
  drvReady : Bool := false
  /-- `HT_AGG_STATE_RESPONSE_RECEIVED`. -/
  responseReceived : Bool := false
  /-- `HT_AGG_STATE_OPERATIONAL`. -/
  operational : Bool := false
  /-- `HT_AGG_STATE_STOPPING`. -/
  stopping : Bool := false
  /-- `HT_AGG_STATE_WANT_START`. -/
  wantStart : Bool := false
  /-- `HT_AGG_STATE_WANT_STOP`. -/
  wantStop : Bool := false
  /-- `HT_AGG_STATE_START_CB`. -/
  startCb : Bool := false
  /-- `HT_AGG_STATE_STOP_CB`. -/
  stopCb : Bool := false
  timeout : UInt16 := 0
  dialogToken : UInt8 := 0
  /-- `stop_initiator` is `WLAN_BACK_RECIPIENT`. -/
  stoppedByPeer : Bool := false
  txStop : Bool := false
  bufSize : UInt16 := 0
  amsdu : Bool := false
  /-- `addba_resp_timer` is pending. -/
  addbaRespTimer : Bool := false
  /-- `session_timer` is pending. -/
  sessionTimer : Bool := false

/-- What the hardware and the station are capable of. -/
structure TxBaCaps where
  maxTxAggregationSubframes : UInt16 := 64
  hasHe : Bool := false

/-- `struct sta_ampdu_mlme`, for one TID. -/
structure TxBa where
  tidStartTx : Option TidAmpduTx := none
  tidTx : Option TidAmpduTx := none
  addbaReqNum : UInt8 := 0
  dialogTokenAllocator : UInt8 := 0
  /-- The sessions so far. -/
  nextSid : ℕ := 0

/-- `enum ieee80211_ampdu_mlme_action`, for the originator. -/
inductive AmpduAction
  | txStart
  | txStopCont
  | txStopFlush
  | txStopFlushCont
  | txOperational (bufSize : UInt16) (amsdu : Bool)

/-- What leaves the state machine: calls of the driver, and frames for the peer. -/
inductive TxBaOut
  | ampduAction (sid : ℕ) (action : AmpduAction)
  | addbaRequest (dialogToken : UInt8) (bufSize timeout : UInt16)
  | delba

/-- `enum ieee80211_agg_stop_reason`. -/
inductive AggStopReason
  | declined
  | localRequest
  | peerRequest
  | destroySta
deriving DecidableEq

/-! ### Start -/

/-- `HT_AGG_MAX_RETRIES`. -/
def htAggMaxRetries : UInt8 := 15

/-- `HT_AGG_BURST_RETRIES`. -/
def htAggBurstRetries : UInt8 := 3

/-- `ieee80211_start_tx_ba_session`. Sessions on this TID are allowed or not; `recent`: the last
request is not long ago. -/
def startTxBaSession (s : TxBa) (timeout : UInt16) (allowed recent alloc : Bool) : TxBa :=
  if !allowed then s
  else if htAggMaxRetries < s.addbaReqNum then s
  else if htAggBurstRetries < s.addbaReqNum ∧ recent then s
  else if s.tidTx.isSome || s.tidStartTx.isSome then s
  else if !alloc then s
  else
    { s with
      dialogTokenAllocator := s.dialogTokenAllocator + 1
      tidStartTx := some
        { sid := s.nextSid, wantStart := true, timeout := timeout,
          dialogToken := s.dialogTokenAllocator + 1 }
      nextSid := s.nextSid + 1 }

/-- `ieee80211_tx_ba_session_handle_start`; the driver may deny the start. -/
def handleStart (caps : TxBaCaps) (s : TxBa) (t : TidAmpduTx) (denied : Bool) : TxBa × List TxBaOut :=
  if denied then ({ s with tidTx := none }, [.ampduAction t.sid .txStart])
  else
    ({ s with
       tidTx := some { t with wantStart := false, addbaRespTimer := true }
       addbaReqNum := s.addbaReqNum + 1 },
     [.ampduAction t.sid .txStart,
      .addbaRequest t.dialogToken (if caps.hasHe then caps.maxTxAggregationSubframes else 64) t.timeout])

/-- `ieee80211_agg_tx_operational`. -/
def aggTxOperational (t : TidAmpduTx) : TidAmpduTx × List TxBaOut :=
  ({ t with operational := true }, [.ampduAction t.sid (.txOperational t.bufSize t.amsdu)])

/-- `ieee80211_start_tx_ba_cb`. -/
def startTxBaCb (t : TidAmpduTx) : TidAmpduTx × List TxBaOut :=
  if t.drvReady then (t, [])
  else if t.responseReceived then aggTxOperational { t with drvReady := true }
  else ({ t with drvReady := true }, [])

/-! ### Stop -/

/-- What the driver is told. -/
def AggStopReason.action : AggStopReason → AmpduAction
  | .destroySta => .txStopFlush
  | _ => .txStopCont

/-- `___ieee80211_stop_tx_ba_session`. -/
def stopTxBaSession (s : TxBa) (reason : AggStopReason) : TxBa × List TxBaOut :=
  let s := { s with tidStartTx := none }
  match s.tidTx with
  | none => (s, [])
  | some t =>
    if t.stopping then
      (s, if reason = .destroySta then [.ampduAction t.sid .txStopFlushCont] else [])
    else if t.wantStart then ({ s with tidTx := none }, [])
    else
      ({ s with
         tidTx := some { t with
           stopping := true
           addbaRespTimer := false
           sessionTimer := false
           operational := false
           stoppedByPeer := reason = .peerRequest
           txStop := reason = .localRequest } },
       [.ampduAction t.sid reason.action])

/-- `ieee80211_stop_tx_ba_cb`. -/
def stopTxBaCb (s : TxBa) (t : TidAmpduTx) : TxBa × List TxBaOut :=
  if !t.stopping then (s, [])
  else ({ s with tidTx := none }, if !t.stoppedByPeer && t.txStop then [.delba] else [])

/-- `ieee80211_stop_tx_ba_session`: the worker is asked for it. -/
def requestStop (s : TxBa) : TxBa :=
  { s with tidTx := s.tidTx.map fun t => if t.stopping then t else { t with wantStop := true } }

/-! ### The worker -/

/-- `HT_AGG_STATE_START_CB` is cleared and handled. -/
def workStartCb (t : TidAmpduTx) (blocked : Bool) : TidAmpduTx × List TxBaOut :=
  if !blocked && t.startCb then startTxBaCb { t with startCb := false } else (t, [])

/-- `HT_AGG_STATE_WANT_STOP` is cleared and handled. -/
def workWantStop (s : TxBa) (t : TidAmpduTx) : TxBa × List TxBaOut :=
  if t.wantStop then stopTxBaSession { s with tidTx := some { t with wantStop := false } } .localRequest
  else ({ s with tidTx := some t }, [])

/-- `HT_AGG_STATE_STOP_CB` is cleared and handled. -/
def workStopCb (s : TxBa) : TxBa × List TxBaOut :=
  match s.tidTx with
  | none => (s, [])
  | some t =>
    if t.stopCb then
      let t := { t with stopCb := false }
      stopTxBaCb { s with tidTx := some t } t
    else (s, [])

/-- `ieee80211_ba_session_work`, for the sessions of the originator. -/
def txBaSessionWork (caps : TxBaCaps) (s : TxBa) (blocked denied : Bool) : TxBa × List TxBaOut :=
  match (if blocked then none else s.tidStartTx), s.tidTx with
  | some t, none => handleStart caps { s with tidStartTx := none } t denied
  | some _, some t => handleStart caps { s with tidStartTx := none } t denied
  | none, none => (s, [])
  | none, some t =>
    let (t, o₁) := workStartCb t blocked
    let (s, o₂) := workWantStop s t
    let (s, o₃) := workStopCb s
    (s, o₁ ++ o₂ ++ o₃)

/-! ### Responses and timers -/

/-- The fields of an ADDBA response, for this TID. -/
structure TxAddbaResp where
  dialogToken : UInt8
  status : UInt16 := 0
  bufSize : UInt16
  amsdu : Bool := false
  timeout : UInt16 := 0

/-- `ieee80211_process_addba_resp`. -/
def processAddbaResp (caps : TxBaCaps) (s : TxBa) (resp : TxAddbaResp) : TxBa × List TxBaOut :=
  let bufSize := min resp.bufSize caps.maxTxAggregationSubframes
  match s.tidTx with
  | none => (s, [])
  | some t =>
    if resp.dialogToken ≠ t.dialogToken then (s, [])
    else
      let t := { t with addbaRespTimer := false }
      let s := { s with tidTx := some t }
      if t.wantStop || t.stopping then (s, [])
      else if resp.status = 0 ∧ bufSize ≠ 0 then
        if t.responseReceived then (s, [])
        else
          let t := { t with responseReceived := true, bufSize := bufSize, amsdu := resp.amsdu }
          let (t, o) := if t.drvReady then aggTxOperational t else (t, [])
          ({ s with
             tidTx := some { t with
               timeout := resp.timeout
               sessionTimer := t.sessionTimer || resp.timeout ≠ 0 }
             addbaReqNum := 0 }, o)
      else stopTxBaSession s .declined

/-- `sta_addba_resp_timer_expired`. -/
def addbaRespTimerExpired (s : TxBa) : TxBa :=
  match s.tidTx with
  | none => s
  | some t =>
    if !t.addbaRespTimer then s
    else
      let s := { s with tidTx := some { t with addbaRespTimer := false } }
      if t.responseReceived then s else requestStop s

/-- `sta_tx_agg_session_timer_expired`; `active` says that there was a frame lately. -/
def sessionTimerExpired (s : TxBa) (active : Bool) : TxBa :=
  match s.tidTx with
  | none => s
  | some t =>
    if !t.sessionTimer then s
    else if t.stopping then { s with tidTx := some { t with sessionTimer := false } }
    else if active then s
    else requestStop { s with tidTx := some { t with sessionTimer := false } }

/-! ### The session as a machine -/

/-- What can happen. -/
inductive TxBaEvent
  | start (timeout : UInt16) (allowed recent alloc : Bool)
  | work (blocked denied : Bool)
  /-- `ieee80211_start_tx_ba_cb_irqsafe`. -/
  | startCb
  /-- `ieee80211_stop_tx_ba_cb_irqsafe`. -/
  | stopCb
  | addbaResp (resp : TxAddbaResp)
  | addbaRespTimer
  | sessionTimer (active : Bool)
  /-- `ieee80211_stop_tx_ba_session`. -/
  | requestStop
  /-- A DELBA of the peer, and what else stops sessions with the lock held. -/
  | stop (reason : AggStopReason)
  /-- The callbacks that `ieee80211_sta_tear_down_BA_sessions` handles. -/
  | tearDownCb

/-- One step. -/
def txBaStep (caps : TxBaCaps) (s : TxBa) : TxBaEvent → Option (TxBa × List TxBaOut)
  | .start timeout allowed recent alloc => some (startTxBaSession s timeout allowed recent alloc, [])
  | .work blocked denied => some (txBaSessionWork caps s blocked denied)
  | .startCb => some ({ s with tidTx := s.tidTx.map fun t => { t with startCb := true } }, [])
  | .stopCb => some ({ s with tidTx := s.tidTx.map fun t => { t with stopCb := true } }, [])
  | .addbaResp resp => some (processAddbaResp caps s resp)
  | .addbaRespTimer => some (addbaRespTimerExpired s, [])
  | .sessionTimer active => some (sessionTimerExpired s active, [])
  | .requestStop => some (requestStop s, [])
  | .stop reason => some (stopTxBaSession s reason)
  | .tearDownCb => some (workStopCb s)

end Mac80211
