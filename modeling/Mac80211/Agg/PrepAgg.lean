import Mac80211.Agg.TxSession
import Mac80211.PowerSave.Buffers

/-!
# Frames that wait for a block-ack session

`ieee80211_tx_prep_agg` beside `agg-tx.c`, for one station and one TID: while a session is set up or
torn down, its frames wait on `tid_tx->pending`.

The transmit path reads the pointer and two bits without a lock, so these may be old. Whoever
changes a session holds `ampdu_mlme.mtx`; what happens under `sta->lock` is one step. A session is
the place where it was allocated, and stays readable after it was released.

## Main definitions

* `AggTx`, `MlmeMtx`, `TxPc`, `aggStep`
-/

namespace Mac80211

/-! ### The state -/

/-- `struct tid_ampdu_tx`; the first eight flags are `state`. -/
structure AggObj where
  /-- `HT_AGG_STATE_OPERATIONAL`. -/
  operational : Bool := false
  /-- `HT_AGG_STATE_WANT_START`. -/
  wantStart : Bool := false
  /-- `HT_AGG_STATE_STOPPING`. -/
  stopping : Bool := false
  /-- `HT_AGG_STATE_DRV_READY`. -/
  drvReady : Bool := false
  /-- `HT_AGG_STATE_RESPONSE_RECEIVED`. -/
  responseReceived : Bool := false
  /-- `HT_AGG_STATE_WANT_STOP`. -/
  wantStop : Bool := false
  /-- `HT_AGG_STATE_START_CB`. -/
  startCb : Bool := false
  /-- `HT_AGG_STATE_STOP_CB`. -/
  stopCb : Bool := false
  dialogToken : UInt8 := 0
  /-- `stop_initiator` is `WLAN_BACK_RECIPIENT`. -/
  stoppedByPeer : Bool := false
  txStop : Bool := false
  pending : List TxSkb := []

/-- Where the holder of `ampdu_mlme.mtx` is. -/
inductive MlmeMtx
  | free
  /-- `ieee80211_tx_ba_session_handle_start`, before `HT_AGG_STATE_WANT_START` is cleared. -/
  | live (sid : ℕ)
  /-- There, while the driver is asked. -/
  | starting (sid : ℕ)
  /-- `ieee80211_agg_tx_operational`, before it takes the lock. -/
  | operational (sid : ℕ)
  /-- `___ieee80211_stop_tx_ba_session`, before `HT_AGG_STATE_OPERATIONAL` is cleared. -/
  | stopping (sid : ℕ) (reason : AggStopReason)
  /-- There, while the driver is told. -/
  | stopped (sid : ℕ) (reason : AggStopReason)
  /-- Before `kfree_rcu`. -/
  | releasing (sid : ℕ)
deriving DecidableEq

/-- Where a frame is in `ieee80211_tx_prep_agg`, with the pointer it came with. -/
inductive TxPc
  | idle
  | loaded (sid : ℕ) (skb : TxSkb)
  /-- `HT_AGG_STATE_OPERATIONAL` was not set. -/
  | notOperational (sid : ℕ) (skb : TxSkb)
  /-- `HT_AGG_STATE_WANT_START` was not set either. -/
  | locking (skb : TxSkb)
deriving DecidableEq

/-- `struct sta_ampdu_mlme`, for one TID, with the sessions and everybody who is under way. -/
structure AggTx where
  tidStartTx : Option ℕ := none
  tidTx : Option ℕ := none
  obj : ℕ → AggObj := fun _ => {}
  /-- The sessions so far. -/
  nextSid : ℕ := 0
  dialogTokenAllocator : UInt8 := 0
  mtx : MlmeMtx := .free
  cpu : ℕ → TxPc := fun _ => .idle
  /-- `WLAN_STA_SP`. -/
  staSp : Bool := false

/-- What does not change. -/
structure AggCfg where
  /-- `&tx->sdata->vif`. -/
  vif : SdataId
  /-- `sdata->vif.hw_queue[ieee80211_ac_from_tid(tid)]`. -/
  queue : ℕ
  /-- `sta.txq[tid]`: there is an intermediate queue. -/
  hasTxq : Bool := false
  maxTxAggregationSubframes : UInt16 := 64

/-- What happens to frames and sessions. -/
inductive AggOut
  /-- `ieee80211_tx_prep_agg` returns `false`. -/
  | passed (skb : TxSkb)
  | parked (sid : ℕ) (skb : TxSkb)
  /-- `ieee80211_free_txskb`, and how many are left. -/
  | purged (sid : ℕ) (skb : TxSkb) (left : ℕ)
  /-- To the tail of `local->pending[queue]`. -/
  | spliced (queue sid : ℕ) (skbs : List TxSkb)
  /-- `kfree` or `kfree_rcu`, and what was on its list. -/
  | released (sid : ℕ) (left : List TxSkb)
deriving DecidableEq

namespace AggTx

def setObj (s : AggTx) (sid : ℕ) (o : AggObj) : AggTx := { s with obj := Function.update s.obj sid o }

def setCpu (s : AggTx) (cpu : ℕ) (pc : TxPc) : AggTx := { s with cpu := Function.update s.cpu cpu pc }

/-- `tid_tx->pending` of the session there is. -/
def pending (s : AggTx) : List TxSkb :=
  match s.tidTx with
  | none => []
  | some sid => (s.obj sid).pending

/-! ### Under the lock -/

/-- `ieee80211_agg_splice_packets`. -/
def aggSplicePackets (cfg : AggCfg) (s : AggTx) (sid : ℕ) : AggTx × List AggOut :=
  if (s.obj sid).pending = [] then (s, [])
  else (s.setObj sid { s.obj sid with pending := [] }, [.spliced cfg.queue sid (s.obj sid).pending])

/-- `ieee80211_remove_tid_tx`. -/
def removeTidTx (cfg : AggCfg) (s : AggTx) (sid : ℕ) : AggTx × List AggOut :=
  let (s, o) := aggSplicePackets cfg s sid
  ({ s with tidTx := none }, o ++ [.released sid (s.obj sid).pending])

/-- `ieee80211_start_tx_ba_session`; all its other checks are `allowed`. -/
def startTxBaSession (s : AggTx) (allowed alloc : Bool) : AggTx :=
  if !allowed then s
  else if s.tidTx.isSome || s.tidStartTx.isSome then s
  else if !alloc then s
  else { s.setObj s.nextSid {
      wantStart := true
      dialogToken := s.dialogTokenAllocator + 1 } with
    dialogTokenAllocator := s.dialogTokenAllocator + 1
    tidStartTx := some s.nextSid
    nextSid := s.nextSid + 1 }

/-- `ieee80211_stop_tx_ba_session`, also for the timers. -/
def requestStop (s : AggTx) : AggTx :=
  match s.tidTx with
  | none => s
  | some sid => if (s.obj sid).stopping then s else s.setObj sid { s.obj sid with wantStop := true }

/-- A frame that is put on `pending`: `IEEE80211_TX_INTFL_NEED_TXPROCESSING` is set,
`IEEE80211_TX_TEMPORARY_FLAGS` are cleared. -/
def park (cfg : AggCfg) (skb : TxSkb) : TxSkb :=
  { skb with info := { skb.info with
      vif := cfg.vif
      needTxprocessing := true
      ampdu := false
      noPsBuffer := false
      sendAfterDtim := false } }

/-- `IEEE80211_TX_CTL_AMPDU` is set. -/
def asAmpdu (skb : TxSkb) : TxSkb := { skb with info := { skb.info with ampdu := true } }

/-- `ieee80211_tx_prep_agg` with `sta->lock` held. -/
def prepAggLocked (cfg : AggCfg) (s : AggTx) (skb : TxSkb) : AggTx × List AggOut :=
  match s.tidTx with
  | none => (s, [.passed skb])
  | some sid =>
    if (s.obj sid).operational then (s, [.passed (asAmpdu skb)])
    else
      let s := if skb.info.noPsBuffer then { s with staSp := false } else s
      let pending := (s.obj sid).pending ++ [park cfg skb]
      if STA_MAX_TX_BUFFER < pending.length then
        (s.setObj sid { s.obj sid with pending := pending.tail },
          .parked sid (park cfg skb) :: pending.head?.toList.map fun oldest =>
            .purged sid oldest pending.tail.length)
      else (s.setObj sid { s.obj sid with pending := pending }, [.parked sid (park cfg skb)])

/-! ### With the mutex -/

/-- `___ieee80211_stop_tx_ba_session`, up to where it gives the lock back. -/
def stopTxBaSession (s : AggTx) (reason : AggStopReason) : AggTx × List AggOut :=
  let o := s.tidStartTx.toList.map fun sid => .released sid (s.obj sid).pending
  let s := { s with tidStartTx := none }
  match s.tidTx with
  | none => (s, o)
  | some sid =>
    if (s.obj sid).stopping then (s, o)
    else if (s.obj sid).wantStart then ({ s with
      tidTx := none
      mtx := .releasing sid }, o)
    else ({ s.setObj sid { s.obj sid with stopping := true } with mtx := .stopping sid reason }, o)

/-- `ieee80211_stop_tx_ba_cb`. -/
def stopTxBaCb (cfg : AggCfg) (s : AggTx) (sid : ℕ) : AggTx × List AggOut :=
  if !(s.obj sid).stopping then (s, []) else removeTidTx cfg s sid

/-- `ieee80211_start_tx_ba_cb`. -/
def startTxBaCb (s : AggTx) (sid : ℕ) : AggTx :=
  let t := s.obj sid
  if t.drvReady then s
  else if t.responseReceived then
    { s.setObj sid { t with drvReady := true } with mtx := .operational sid }
  else s.setObj sid { t with drvReady := true }

/-- What the mutex is taken for. -/
inductive Turn
  /-- `ieee80211_ba_session_work`: a session "goes live". -/
  | goLive (blocked : Bool)
  /-- There: `HT_AGG_STATE_START_CB`. -/
  | startCb (blocked : Bool)
  /-- There: `HT_AGG_STATE_WANT_STOP`. -/
  | wantStop
  /-- There, and in `ieee80211_sta_tear_down_BA_sessions`: `HT_AGG_STATE_STOP_CB`. -/
  | stopCb
  /-- `ieee80211_process_addba_resp`. -/
  | addbaResp (resp : TxAddbaResp)
  /-- `___ieee80211_stop_tx_ba_session` for anybody else. -/
  | stop (reason : AggStopReason)

/-- The mutex is taken. -/
def turn (cfg : AggCfg) (s : AggTx) : Turn → AggTx × List AggOut
  | .goLive blocked =>
    match (if blocked then none else s.tidStartTx), s.tidTx with
    | none, _ => (s, [])
    | some new, none => ({ s with
        tidStartTx := none
        tidTx := some new
        mtx := .live new }, [])
    | some new, some old => ({ s with
        tidStartTx := none
        mtx := .live old }, [.released new (s.obj new).pending])
  | .startCb blocked =>
    match s.tidTx with
    | none => (s, [])
    | some sid =>
      if !blocked && (s.obj sid).startCb then
        (startTxBaCb (s.setObj sid { s.obj sid with startCb := false }) sid, [])
      else (s, [])
  | .wantStop =>
    match s.tidTx with
    | none => (s, [])
    | some sid =>
      if (s.obj sid).wantStop then
        stopTxBaSession (s.setObj sid { s.obj sid with wantStop := false }) .localRequest
      else (s, [])
  | .stopCb =>
    match s.tidTx with
    | none => (s, [])
    | some sid =>
      if (s.obj sid).stopCb then stopTxBaCb cfg (s.setObj sid { s.obj sid with stopCb := false }) sid
      else (s, [])
  | .addbaResp resp =>
    match s.tidTx with
    | none => (s, [])
    | some sid =>
      let t := s.obj sid
      if resp.dialogToken ≠ t.dialogToken then (s, [])
      else if t.wantStop || t.stopping then (s, [])
      else if resp.status = 0 ∧ min resp.bufSize cfg.maxTxAggregationSubframes ≠ 0 then
        if t.responseReceived then (s, [])
        else if t.drvReady then
          ({ s.setObj sid { t with responseReceived := true } with mtx := .operational sid }, [])
        else (s.setObj sid { t with responseReceived := true }, [])
      else stopTxBaSession s .declined
  | .stop reason => stopTxBaSession s reason

/-- Its holder goes on. The driver may deny a start. -/
def goOn (cfg : AggCfg) (s : AggTx) (denied : Bool) : Option (AggTx × List AggOut) :=
  match s.mtx with
  | .free => none
  | .live sid => some ({ s.setObj sid { s.obj sid with wantStart := false } with mtx := .starting sid }, [])
  | .starting sid =>
    if denied then
      let (s, o) := aggSplicePackets cfg s sid
      some ({ s with
        tidTx := none
        mtx := .releasing sid }, o)
    else some ({ s with mtx := .free }, [])
  | .operational sid =>
    let (s, o) := aggSplicePackets cfg s sid
    some ({ s.setObj sid { s.obj sid with operational := true } with mtx := .free }, o)
  | .stopping sid reason =>
    some ({ s.setObj sid { s.obj sid with operational := false } with mtx := .stopped sid reason }, [])
  | .stopped sid reason =>
    some ({ s.setObj sid { s.obj sid with
        stoppedByPeer := reason = .peerRequest
        txStop := reason = .localRequest } with mtx := .free }, [])
  | .releasing sid => some ({ s with mtx := .free }, [.released sid (s.obj sid).pending])

/-! ### Frames -/

/-- `ieee80211_tx_prepare` reads the pointer. -/
def prepare (s : AggTx) (cpu : ℕ) (skb : TxSkb) : Option (AggTx × List AggOut) :=
  let skb := { skb with info := { skb.info with needTxprocessing := false } }
  match s.cpu cpu, s.tidTx with
  | .idle, none => some (s, [.passed skb])
  | .idle, some sid => some (s.setCpu cpu (.loaded sid skb), [])
  | _, _ => none

/-- `ieee80211_tx_prep_agg` goes on. -/
def txGo (cfg : AggCfg) (s : AggTx) (cpu : ℕ) : Option (AggTx × List AggOut) :=
  match s.cpu cpu with
  | .idle => none
  | .loaded sid skb =>
    if (s.obj sid).operational then some (s.setCpu cpu .idle, [.passed (asAmpdu skb)])
    else some (s.setCpu cpu (.notOperational sid skb), [])
  | .notOperational sid skb =>
    if (s.obj sid).wantStart then some (s.setCpu cpu .idle, [.passed skb])
    else if cfg.hasTxq then some (s.setCpu cpu .idle, [.passed skb])
    else some (s.setCpu cpu (.locking skb), [])
  | .locking skb => some (prepAggLocked cfg (s.setCpu cpu .idle) skb)

end AggTx

/-! ### The machine -/

/-- What can happen. -/
inductive AggEvent
  | prepare (cpu : ℕ) (skb : TxSkb)
  | txGo (cpu : ℕ)
  | start (allowed alloc : Bool)
  | requestStop
  /-- `ieee80211_start_tx_ba_cb_irqsafe`, with the session that it has looked up. -/
  | startCbIrqsafe (sid : ℕ)
  /-- `ieee80211_stop_tx_ba_cb_irqsafe`. -/
  | stopCbIrqsafe (sid : ℕ)
  | turn (t : AggTx.Turn)
  | goOn (denied : Bool)

/-- One step. -/
def aggStep (cfg : AggCfg) (s : AggTx) : AggEvent → Option (AggTx × List AggOut)
  | .prepare cpu skb => s.prepare cpu skb
  | .txGo cpu => s.txGo cfg cpu
  | .start allowed alloc => some (s.startTxBaSession allowed alloc, [])
  | .requestStop => some (s.requestStop, [])
  | .startCbIrqsafe sid => some (s.setObj sid { s.obj sid with startCb := true }, [])
  | .stopCbIrqsafe sid => some (s.setObj sid { s.obj sid with stopCb := true }, [])
  | .turn t => if s.mtx = .free then some (s.turn cfg t) else none
  | .goOn denied => s.goOn cfg denied

end Mac80211
