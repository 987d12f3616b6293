import Mac80211.PowerSave.Buffers
import Mathlib.Data.Nat.Bitwise

/-!
# Answers to a station that is asleep

`ieee80211_sta_ps_deliver_response` of `sta_info.c`: the answer to a poll or the beginning of a
service period is made of frames in the station's queues, filtered ones first, or left to the
driver, or a null frame. For what becomes of the counters see `staPsDeliverResponse`.

## Main definitions

* `PsQueues`, `getFrames`, `deliverResponse`
-/

namespace Mac80211

/-- `IEEE80211_QOS_CTL_EOSP`. -/
def QOS_CTL_EOSP : UInt8 := 0x10

/-! ### The state -/

/-- `enum ieee80211_frame_release_type`. -/
inductive ReleaseReason
  | pspoll
  | uapsd
deriving DecidableEq

/-- A frame, as far as its delivery goes. -/
structure BufferedFrame where
  frameControl : UInt16
  /-- The first byte of the QoS control field, if the header has one. -/
  qosCtl : UInt8 := 0
  priority : ℤ := 0
  /-- `IEEE80211_TX_CTL_NO_PS_BUFFER`. -/
  noPsBuffer : Bool := false
  /-- `IEEE80211_TX_CTRL_PS_RESPONSE`. -/
  psResponse : Bool := false
  /-- `IEEE80211_TX_STATUS_EOSP`. -/
  statusEosp : Bool := false
  /-- `IEEE80211_TX_CTL_REQ_TX_STATUS`. -/
  reqTxStatus : Bool := false
  /-- What is behind the header. -/
  body : List UInt8 := []
deriving DecidableEq

namespace BufferedFrame

/-- There is a QoS control field. -/
def hasQos (skb : BufferedFrame) : Bool := isDataQos skb.frameControl || isQosNullfunc skb.frameControl

/-- The frame says that it ends the service period. -/
def eosp (skb : BufferedFrame) : Bool := skb.hasQos && skb.qosCtl &&& QOS_CTL_EOSP ≠ 0

/-- The frame says that there are more. -/
def moreData (skb : BufferedFrame) : Bool := skb.frameControl &&& FCTL_MOREDATA ≠ 0

/-- The frame without what is changed when it is delivered. -/
def base (skb : BufferedFrame) : BufferedFrame :=
  { skb with
    frameControl := skb.frameControl &&& ~~~FCTL_MOREDATA
    qosCtl := skb.qosCtl &&& ~~~QOS_CTL_EOSP
    noPsBuffer := false
    psResponse := false
    statusEosp := false
    reqTxStatus := false }

end BufferedFrame

/-- `struct sta_info`, as far as delivery goes. -/
structure PsQueues where
  txFiltered : Ac → List BufferedFrame
  psTxBuf : Ac → List BufferedFrame
  driverBufferedTids : UInt64 := 0
  txqBufferedTids : UInt64 := 0
  wme : Bool := true
  uapsdQueues : UInt8 := 0
  maxSp : UInt8 := 0
  /-- `WLAN_STA_SP`. -/
  sp : Bool := false

namespace PsQueues

variable (sta : PsQueues)

/-- The frames in the queues of an access category. -/
def soft (ac : Ac) : List BufferedFrame := sta.txFiltered ac ++ sta.psTxBuf ac

/-- The TIDs of an access category with frames in the driver or in an intermediate queue. -/
def hard (ac : Ac) : UInt64 := (sta.driverBufferedTids ||| sta.txqBufferedTids) &&& tidsForAc ac

end PsQueues

/-- What a null response depends on. -/
structure NullEnv where
  type : IfType := .ap
  /-- `IEEE80211_STA_DISABLE_HE`. -/
  disableHe : Bool := false
  /-- `dev_alloc_skb` returns a buffer. -/
  alloc : Bool := true
  /-- There is a channel context. -/
  chanctx : Bool := true
  /-- The queues of the TIDs, and whether there are frames in them after the driver released some. -/
  txq : ℕ → Option Bool := fun _ => none

/-! ### Taking frames -/

/-- The access category is looked at. -/
def usable (ignoredAcs : UInt8) (ac : Ac) : Bool := ignoredAcs &&& acToQosMask ac = 0

/-- What `ieee80211_sta_ps_get_frames` changes. -/
structure Gather where
  sta : PsQueues
  nFrames : ℕ
  frames : List BufferedFrame := []
  driverReleaseTids : UInt64 := 0
  /-- The change of `total_ps_buffered`. -/
  total : ℤ := 0

/-- The loop that takes frames of one access category: filtered ones first. -/
def dequeueLoop (ac : Ac) : ℕ → Gather → Gather
  | 0, g => { g with nFrames := 0 }
  | n + 1, g =>
    match g.sta.txFiltered ac with
    | skb :: q =>
      dequeueLoop ac n { g with
        sta := { g.sta with txFiltered := Function.update g.sta.txFiltered ac q }
        frames := g.frames ++ [skb] }
    | [] =>
      match g.sta.psTxBuf ac with
      | skb :: q =>
        dequeueLoop ac n { g with
          sta := { g.sta with psTxBuf := Function.update g.sta.psTxBuf ac q }
          frames := g.frames ++ [skb]
          total := g.total - 1 }
      | [] => { g with nFrames := n + 1 }

/-- If we already have frames from software, then we can't also release from hardware queues. -/
def gatherTids (g : Gather) (ac : Ac) : UInt64 :=
  if g.frames.isEmpty then
    g.driverReleaseTids ||| g.sta.driverBufferedTids &&& tidsForAc ac |||
      g.sta.txqBufferedTids &&& tidsForAc ac
  else g.driverReleaseTids

/-- One access category. -/
def gatherAc (g : Gather) (ac : Ac) : Gather :=
  let g := { g with driverReleaseTids := gatherTids g ac }
  if g.driverReleaseTids = 0 then dequeueLoop ac g.nFrames g else g

/-- `ieee80211_sta_ps_get_frames`. -/
def getFrames (ignoredAcs : UInt8) : List Ac → Gather → Gather
  | [], g => g
  | ac :: acs, g =>
    if !usable ignoredAcs ac then getFrames ignoredAcs acs g
    else
      let g := gatherAc g ac
      if !(g.sta.txFiltered ac).isEmpty || !(g.sta.psTxBuf ac).isEmpty then g
      else getFrames ignoredAcs acs g

/-! ### The answer -/

/-- `hweight16`. -/
def hweight16 (w : UInt64) : ℕ := (List.range 16).countP fun i => w.toNat.testBit i

/-- `ieee80211_sta_ps_more_data`. -/
def staPsMoreData (sta : PsQueues) (ignoredAcs : UInt8) (reason : ReleaseReason) (driverReleaseTids : UInt64) :
    Bool :=
  if reason = .pspoll && 1 < hweight16 driverReleaseTids then true
  else ([0, 1, 2, 3] : List Ac).any fun ac =>
    usable ignoredAcs ac && (!(sta.txFiltered ac).isEmpty || !(sta.psTxBuf ac).isEmpty)

/-- `find_highest_prio_tid`, of one TID at least; the lower three TIDs aren't ordered perfectly. -/
def findHighestPrioTid (tids : UInt64) : ℕ :=
  if tids &&& 0xf8 ≠ 0 then Nat.log2 tids.toNat
  else if tids &&& 1 ≠ 0 then 0
  else Nat.log2 tids.toNat

/-- For PS-Poll, the driver releases frames of one TID. -/
def pickTids (tids : UInt64) (reason : ReleaseReason) : UInt64 :=
  if tids ≠ 0 && reason = .pspoll then 1 <<< (findHighestPrioTid tids).toUInt64 else tids

/-- The frame that `ieee80211_send_null_response` makes. -/
def nullFrame (sta : PsQueues) (tid : ℤ) (reason : ReleaseReason) (moreData : Bool) : BufferedFrame :=
  let eosp := sta.wme && reason = .uapsd
  { frameControl := FTYPE_DATA ||| (if sta.wme then STYPE_QOS_NULLFUNC else STYPE_NULLFUNC) ||| FCTL_FROMDS |||
      if eosp && moreData then FCTL_MOREDATA else 0
    qosCtl := if eosp then UInt8.ofInt tid ||| QOS_CTL_EOSP else if sta.wme then UInt8.ofInt tid else 0
    priority := tid
    noPsBuffer := true
    psResponse := true
    statusEosp := true
    reqTxStatus := true }

/-- What comes out of an answer. -/
structure Delivery where
  sta : PsQueues
  /-- The change of `total_ps_buffered`. -/
  total : ℤ := 0
  /-- `drv_allow_buffered_frames`: the TIDs, the number of frames, and whether there is more. -/
  allowed : Option (UInt64 × ℕ × Bool) := none
  /-- The frames passed to `ieee80211_add_pending_skbs`. -/
  pending : List BufferedFrame := []
  /-- The null frame passed to `ieee80211_xmit`. -/
  null : Option BufferedFrame := none
  /-- `drv_release_buffered_frames`: the TIDs, the number of frames, and whether there is more. -/
  released : Option (UInt64 × ℕ × Bool) := none
  /-- `sta_info_recalc_tim` is called. -/
  recalcTim : Bool := false

/-- A null response is put together. Don't send NDPs when STA is connected HE. -/
def NullEnv.built (env : NullEnv) : Bool := !(env.type = .station && !env.disableHe) && env.alloc

/-- `ieee80211_send_null_response`. -/
def sendNullResponse (env : NullEnv) (sta : PsQueues) (tid : ℤ) (reason : ReleaseReason) (moreData : Bool) :
    Option BufferedFrame :=
  if env.built && env.chanctx then some (nullFrame sta tid reason moreData) else none

/-- The flags and the MoreData bit of a frame that is delivered. -/
def BufferedFrame.respond (skb : BufferedFrame) (more : Bool) : BufferedFrame :=
  { skb with
    noPsBuffer := true
    psResponse := true
    frameControl :=
      if more then skb.frameControl ||| FCTL_MOREDATA else skb.frameControl &&& ~~~FCTL_MOREDATA }

/-- What the loop over the frames changes. -/
structure MarkedFrames where
  pending : List BufferedFrame := []
  num : ℕ := 0
  tids : UInt16 := 0
  needNull : Bool := false

/-- `BIT`, for a variable of 16 bits. -/
def tidBit (priority : ℤ) : UInt16 := (1 <<< (UInt64.ofInt priority)).toUInt16

/-- The last frame, with which the service period ends. -/
def BufferedFrame.endSp (skb : BufferedFrame) (reason : ReleaseReason) : BufferedFrame :=
  if reason ≠ .uapsd then { skb with statusEosp := true, reqTxStatus := true }
  else if skb.hasQos then
    { skb with
      qosCtl := skb.qosCtl ||| QOS_CTL_EOSP
      statusEosp := true
      reqTxStatus := true }
  -- without a QoS header there is no EOSP bit
  else { skb with frameControl := skb.frameControl ||| FCTL_MOREDATA }

/-- The loop over the frames of an answer. -/
def markLoop (reason : ReleaseReason) (moreData : Bool) : List BufferedFrame → MarkedFrames → MarkedFrames
  | [], m => m
  | skb :: frames, m =>
    let skb := skb.respond (moreData || !frames.isEmpty)
    let m := { m with num := m.num + 1, tids := m.tids ||| tidBit skb.priority }
    if !frames.isEmpty then markLoop reason moreData frames { m with pending := m.pending ++ [skb] }
    else
      let m := { m with pending := m.pending ++ [skb.endSp reason] }
      if reason = .uapsd && !skb.hasQos then { m with needNull := true, num := m.num + 1 } else m

/-- The first access category that is looked at, or `IEEE80211_NUM_ACS`. -/
def firstAc (ignoredAcs : UInt8) : ℕ :=
  (([0, 1, 2, 3] : List Ac).findIdx fun ac => usable ignoredAcs ac)

/-- There is nothing: a null frame is sent. -/
def nullAnswer (env : NullEnv) (g : Gather) (ignoredAcs : UInt8) (reason : ReleaseReason) : Delivery :=
  let tid : ℤ := 7 - 2 * firstAc ignoredAcs
  { sta := g.sta
    total := g.total
    allowed := if env.built then some (1 <<< UInt64.ofInt tid, 1, false) else none
    null := sendNullResponse env g.sta tid reason false }

/-- Frames from the queues are sent. -/
def softwareAnswer (env : NullEnv) (g : Gather) (reason : ReleaseReason) (moreData : Bool) : Delivery :=
  let m := markLoop reason moreData g.frames {}
  { sta := g.sta
    total := g.total
    allowed := some (m.tids.toUInt64, m.num, moreData)
    pending := m.pending
    null := if m.needNull then
        sendNullResponse env g.sta (findHighestPrioTid m.tids.toUInt64) reason false
      else none
    recalcTim := true }

/-- The driver releases frames. -/
def driverAnswer (env : NullEnv) (g : Gather) (nFrames : ℕ) (driverReleaseTids : UInt64) (moreData : Bool) :
    Delivery where
  sta := g.sta
  total := g.total
  released := some (driverReleaseTids, nFrames, moreData)
  recalcTim := (env.txq 0).isSome && (List.range (NUM_TIDS + 1)).any fun tid =>
    env.txq tid = some false && driverReleaseTids.toNat.testBit tid

/-- `ieee80211_sta_ps_deliver_response`. -/
def deliverResponse (env : NullEnv) (sta : PsQueues) (nFrames : ℕ) (ignoredAcs : UInt8)
    (reason : ReleaseReason) : Delivery :=
  let g := getFrames ignoredAcs [0, 1, 2, 3] { sta := { sta with sp := true }, nFrames := nFrames }
  let moreData := staPsMoreData g.sta ignoredAcs reason g.driverReleaseTids
  let driverReleaseTids := pickTids g.driverReleaseTids reason
  if g.frames.isEmpty && driverReleaseTids = 0 then nullAnswer env g ignoredAcs reason
  else if driverReleaseTids = 0 then softwareAnswer env g reason moreData
  else driverAnswer env g nFrames driverReleaseTids moreData

/-- `ieee80211_sta_ps_deliver_poll_response`. -/
def deliverPollResponse (env : NullEnv) (sta : PsQueues) : Delivery :=
  deliverResponse env sta 1 (if sta.uapsdQueues = 15 then 0 else sta.uapsdQueues) .pspoll

/-- `ieee80211_sta_ps_deliver_uapsd`. -/
def deliverUapsd (env : NullEnv) (sta : PsQueues) : Delivery :=
  if sta.uapsdQueues = 0 then { sta := sta }
  else
    let nFrames := match sta.maxSp.toNat with
      | 1 => 2
      | 2 => 4
      | 3 => 6
      | 0 => 128
      | n => n
    deliverResponse env sta nFrames (~~~sta.uapsdQueues) .uapsd

end Mac80211
