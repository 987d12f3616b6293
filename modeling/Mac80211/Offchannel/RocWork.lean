import Mathlib.Data.UInt
import Mac80211.Lib.Reach

/-!
# Remain on channel

`offchannel.c`: requests wait in `roc_list`, and those at the front that go together run together.
With hardware support the driver is asked, and calls back; otherwise `roc_work` switches channels.
Every request has an identity here, which nothing reads. What is told to user space, sent and asked
of the driver is emitted.

## Main definitions

* `RocLocal`, `RocOut`, `rocStep`
-/

namespace Mac80211

/-- `struct ieee80211_roc_work`. -/
structure RocWork where
  /-- Which request this is. -/
  id : ℕ
  sdata : ℕ
  chan : ℕ
  started : Bool := false
  abort : Bool := false
  hwBegun : Bool := false
  notified : Bool := false
  onChannel : Bool := false
  /-- `start_time`, in jiffies. -/
  startTime : UInt64 := 0
  /-- `duration`, in milliseconds. -/
  duration : ℕ
  reqDuration : ℕ
  /-- There is a `frame`. -/
  frame : Bool
  cookie : UInt64 := 0
  mgmtTxCookie : UInt64 := 0
  /-- `type`: `ROC_TYPE_NORMAL` or `ROC_TYPE_MGMT_TX`. -/
  type : ℕ
deriving DecidableEq

/-- The two requests are for one interface and one channel. -/
def RocWork.Together (a b : RocWork) : Prop := a.sdata = b.sdata ∧ a.chan = b.chan
deriving Decidable

/-- What does not change while the device runs, and the kernel's time conversions. -/
structure RocConfig where
  /-- `ops->remain_on_channel` is there. -/
  hwRoc : Bool
  useChanctx : Bool := false
  /-- `wiphy->max_remain_on_channel_duration`. -/
  maxRocDuration : ℕ := 5000
  msecsToJiffies : ℕ → UInt64
  jiffiesToMsecs : UInt64 → ℕ

/-- What happens around one call. -/
structure RocEnv where
  /-- `jiffies`. -/
  now : UInt64
  /-- `drv_remain_on_channel` returns 0. -/
  remain : Bool := true
  /-- `drv_cancel_remain_on_channel` returns 0. -/
  cancel : Bool := true
  /-- `kzalloc` gives memory. -/
  alloc : Bool := true
  /-- `scanning`, or `ieee80211_is_radar_required`. -/
  busy : Bool := false
  inReconfig : Bool := false
  /-- The channel is the one in use, and not narrower than 20 MHz. -/
  operating : ℕ → Bool := fun _ => false

/-- `struct ieee80211_local`, as far as `offchannel.c` schedules work. -/
structure RocLocal where
  rocList : List RocWork := []
  rocCookieCounter : UInt64 := 0
  hwRocStartTime : UInt64 := 0
  /-- `hw_roc_start` is queued. -/
  hwRocStart : Bool := false
  /-- `hw_roc_done` is queued. -/
  hwRocDone : Bool := false
  /-- `roc_work` is queued. -/
  rocWork : Bool := false
  /-- The identity the next request gets. -/
  nextId : ℕ := 0

/-- What others see. -/
inductive RocOut
  /-- The request was accepted. -/
  | accepted (id : ℕ)
  /-- `cfg80211_ready_on_channel`. -/
  | ready (id : ℕ)
  | tx (id : ℕ)
  /-- `cfg80211_mgmt_tx_status`: it never was. -/
  | txStatus (id : ℕ)
  /-- `cfg80211_remain_on_channel_expired`, `cfg80211_tx_mgmt_expired`. -/
  | expired (id : ℕ)
  /-- `ieee80211_cancel_roc` returned 0 for the request. -/
  | cancelled (id : ℕ)
  /-- `drv_remain_on_channel`, with a duration and a type. -/
  | remain (sdata chan duration type : ℕ)
  /-- `drv_cancel_remain_on_channel`. -/
  | cancel
deriving DecidableEq

/-! ### Starting and ending -/

/-- `ieee80211_roc_notify_destroy`: what user space is told about a request that goes. -/
def rocNotifyDestroy (roc : RocWork) : List RocOut :=
  (if roc.frame then [.txStatus roc.id] else []) ++ [.expired roc.id]

/-- `remaining` of a started request, as a `long`. -/
def RocConfig.remaining (cfg : RocConfig) (now : UInt64) (roc : RocWork) : ℤ :=
  (roc.startTime + cfg.msecsToJiffies roc.duration - now).toBitVec.toInt

/-- A started request that is over. -/
def RocConfig.finished (cfg : RocConfig) (now : UInt64) (roc : RocWork) : Bool :=
  roc.abort || roc.hwBegun || cfg.remaining now roc ≤ 0

/-- `ieee80211_end_finished_rocs`: what is left, what is told, and `remaining_dur_min`. -/
def endFinishedRocs (cfg : RocConfig) (now : UInt64) : List RocWork → List RocWork × List RocOut × ℤ
  | [] => ([], [], 2 ^ 63 - 1)
  | roc :: rocs =>
    if !roc.started then (roc :: rocs, [], 2 ^ 63 - 1)
    else
      let (left, out, dur) := endFinishedRocs cfg now rocs
      if cfg.finished now roc then (left, rocNotifyDestroy roc ++ out, dur)
      else (roc :: left, out, min dur (cfg.remaining now roc))

/-- `ieee80211_handle_roc_started`. -/
def handleRocStarted (startTime : UInt64) (roc : RocWork) : RocWork × List RocOut :=
  if roc.notified then (roc, [])
  else
    let roc := { roc with startTime := startTime, started := true, notified := true }
    if roc.mgmtTxCookie ≠ 0 then
      if roc.frame then ({ roc with frame := false }, [.tx roc.id]) else (roc, [])
    else (roc, [.ready roc.id])

/-- The loop of `ieee80211_hw_roc_start`. -/
def hwRocStartLoop (startTime : UInt64) : List RocWork → List RocWork × List RocOut
  | [] => ([], [])
  | roc :: rocs =>
    if !roc.started then (roc :: rocs, [])
    else
      let (roc, out) := handleRocStarted startTime { roc with hwBegun := true }
      let (rocs, out') := hwRocStartLoop startTime rocs
      (roc :: rocs, out ++ out')

/-- Change the requests at the front that are together with `first`. -/
def updateGroup (first : RocWork) (f : RocWork → RocWork × List RocOut) :
    List RocWork → List RocWork × List RocOut
  | [] => ([], [])
  | roc :: rocs =>
    if ¬ roc.Together first then (roc :: rocs, [])
    else
      let (roc, out) := f roc
      let (rocs, out') := updateGroup first f rocs
      (roc :: rocs, out ++ out')

/-- The group `_ieee80211_start_next_roc` asks the driver for. -/
def rocGroup (first : RocWork) (rocs : List RocWork) : List RocWork :=
  rocs.takeWhile fun roc => roc.Together first

namespace RocLocal

variable (cfg : RocConfig) (env : RocEnv)

/-- `ieee80211_hw_roc_start`. -/
def runHwRocStart (s : RocLocal) : RocLocal × List RocOut :=
  let (rocs, out) := hwRocStartLoop s.hwRocStartTime s.rocList
  ({ s with rocList := rocs, hwRocStart := false }, out)

/-- `_ieee80211_start_next_roc`. -/
def startNextRoc' (s : RocLocal) : RocLocal × List RocOut :=
  match s.rocList with
  | [] => (s, [])
  | roc :: _ =>
    if roc.started then (s, [])
    else if cfg.hwRoc then
      let group := rocGroup roc s.rocList
      let ask : RocOut := .remain roc.sdata roc.chan (group.foldl (fun d t => max t.duration d) 0)
        (group.foldl (fun y t => max t.type y) 0)
      if !env.remain then
        let (rocs, out) := updateGroup roc
          (fun t => ({ t with started := true, abort := true }, [])) s.rocList
        ({ s with rocList := rocs, hwRocDone := true }, ask :: out)
      else
        let (rocs, out) := updateGroup roc (fun t => ({ t with started := true }, [])) s.rocList
        ({ s with rocList := rocs }, ask :: out)
    else
      let onChannel := env.operating roc.chan
      let (rocs, out) := updateGroup roc
        (fun t => handleRocStarted env.now { t with onChannel := onChannel }) s.rocList
      ({ s with rocList := rocs, rocWork := true }, out)

/-- `ieee80211_start_next_roc`. -/
def startNextRoc (s : RocLocal) : RocLocal × List RocOut :=
  match s.rocList with
  | [] => (s, [])
  | roc :: _ =>
    if env.inReconfig || roc.started then (s, [])
    else if cfg.hwRoc then s.startNextRoc' cfg env
    else ({ s with rocWork := true }, [])

/-- `ieee80211_recalc_sw_work`, and whether there is still something started. -/
def recalcSwWork (s : RocLocal) : RocLocal × List RocOut × Bool :=
  let (rocs, out, dur) := endFinishedRocs cfg env.now s.rocList
  let s := { s with rocList := rocs }
  if dur = 2 ^ 63 - 1 then (s, out, false) else ({ s with rocWork := true }, out, true)

/-- `__ieee80211_roc_work`. -/
def runRocWork (s : RocLocal) : RocLocal × List RocOut :=
  if cfg.hwRoc then (s, [])
  else
    match s.rocList with
    | [] => (s, [])
    | roc :: _ =>
      if !roc.started then s.startNextRoc' cfg env
      else
        match s.recalcSwWork cfg env with
        | (s, out, true) => (s, out)
        | (s, out, false) =>
          let (s, out') := s.startNextRoc cfg env
          (s, out ++ out')

/-- `ieee80211_hw_roc_done`. -/
def runHwRocDone (s : RocLocal) : RocLocal × List RocOut :=
  let (rocs, out, _) := endFinishedRocs cfg env.now s.rocList
  let (s, out') := { s with rocList := rocs, hwRocDone := false }.startNextRoc cfg env
  (s, out ++ out')

end RocLocal

/-! ### Requests -/

/-- `new_roc->duration > jiffies_to_msecs(remaining)` and the check before it: the new request fits
into what is left of a started one. -/
def RocConfig.fits (cfg : RocConfig) (now : UInt64) (new cur : RocWork) : Bool :=
  !(!cur.hwBegun && cur.duration < new.duration) &&
    !(cfg.jiffiesToMsecs (cur.startTime + cfg.msecsToJiffies cur.duration - now) < new.duration)

/-- `ieee80211_coalesce_hw_started_roc`: the request as it goes in behind `cur`. -/
def coalesceHwStartedRoc (cfg : RocConfig) (now : UInt64) (new cur : RocWork) :
    Option (RocWork × List RocOut) :=
  if !cfg.fits now new cur then none
  else
    -- if the existing one has already begun then let this one also begin
    if cur.hwBegun then some (handleRocStarted now { new with hwBegun := true })
    else some (new, [])

/-- The loop of `ieee80211_start_roc_work`: the list with the request in it, what is told, and
whether `ieee80211_recalc_sw_work` is to run. -/
def placeRoc (cfg : RocConfig) (now : UInt64) (roc : RocWork) :
    Bool → List RocWork → Option (List RocWork × List RocOut × Bool)
  | _, [] => none
  | combineStarted, tmp :: rest =>
    let skip (combine : Bool) :=
      (placeRoc cfg now roc combine rest).map fun (rocs, out, sw) => (tmp :: rocs, out, sw)
    if ¬ tmp.Together roc then skip combineStarted
    else if !tmp.started then some (tmp :: roc :: rest, [], false)
    else if !combineStarted then skip false
    else if !cfg.hwRoc then
      if cfg.maxRocDuration <
          (cfg.jiffiesToMsecs (now - tmp.startTime) + roc.duration) % 2 ^ 32 then skip false
      else
        let (roc, out) := handleRocStarted now { roc with onChannel := tmp.onChannel }
        some (tmp :: roc :: rest, out, true)
    else
      match coalesceHwStartedRoc cfg now roc tmp with
      | some (roc, out) => some (tmp :: roc :: rest, out, false)
      | none => skip false

/-- A request: a channel, or a frame with its cookie. -/
structure RocRequest where
  sdata : ℕ
  /-- `channel`. -/
  chan : ℕ
  duration : ℕ
  /-- `*cookie`, if there is a `txskb`. -/
  frame : Option UInt64 := none
  type : ℕ := 0

namespace RocLocal

/-- The next cookie: not 0, which means none. -/
def mgmtTxCookie (s : RocLocal) : UInt64 :=
  if s.rocCookieCounter + 1 = 0 then 1 else s.rocCookieCounter + 1

/-- The request as it is allocated. -/
def newRoc (s : RocLocal) (req : RocRequest) : RocWork :=
  let duration := if req.duration = 0 then 10 else req.duration
  { id := s.nextId
    sdata := req.sdata
    chan := req.chan
    duration := duration
    reqDuration := duration
    frame := req.frame.isSome
    cookie := if req.frame.isNone then s.mgmtTxCookie else 0
    mgmtTxCookie := req.frame.getD 0
    type := req.type }

/-- The cookie and the identity of a request are used up. -/
def took (s : RocLocal) (req : RocRequest) : RocLocal :=
  { s with
    nextId := s.nextId + 1
    rocCookieCounter := if req.frame.isNone then s.mgmtTxCookie else s.rocCookieCounter }

variable (cfg : RocConfig) (env : RocEnv)

/-- `ieee80211_start_roc_work`. -/
def startRocWork (s : RocLocal) (req : RocRequest) : RocLocal × List RocOut :=
  if cfg.useChanctx && !cfg.hwRoc || !env.alloc then (s, [])
  else
    let roc := s.newRoc req
    let s := s.took req
    if s.rocList.isEmpty && !env.busy then
      if !cfg.hwRoc then
        ({ s with rocList := [roc], rocWork := true }, [.accepted roc.id])
      else
        let ask : RocOut := .remain roc.sdata roc.chan roc.duration roc.type
        if !env.remain then (s, [ask])
        else ({ s with rocList := [{ roc with started := true }] }, [ask, .accepted roc.id])
    else
      match placeRoc cfg env.now roc true s.rocList with
      | none => ({ s with rocList := s.rocList ++ [roc] }, [.accepted roc.id])
      | some (rocs, out, false) => ({ s with rocList := rocs }, .accepted roc.id :: out)
      | some (rocs, out, true) =>
        let (s, out', _) := { s with rocList := rocs }.recalcSwWork cfg env
        (s, .accepted roc.id :: out ++ out')

/-- The request `ieee80211_cancel_roc` looks for. -/
def findRoc (s : RocLocal) (cookie : UInt64) (mgmtTx : Bool) : Option RocWork :=
  s.rocList.find? fun roc => (if mgmtTx then roc.mgmtTxCookie else roc.cookie) = cookie

/-- Take a request off the list. -/
def destroy (s : RocLocal) (id : ℕ) : RocLocal :=
  { s with rocList := s.rocList.filter fun roc => roc.id ≠ id }

/-- `ieee80211_cancel_roc`, once `hw_roc_start` has run. -/
def cancelRoc' (s : RocLocal) (cookie : UInt64) (mgmtTx : Bool) : RocLocal × List RocOut :=
  match s.findRoc cookie mgmtTx with
  | none => (s, [])
  | some found =>
    if !found.started then (s.destroy found.id, rocNotifyDestroy found ++ [.cancelled found.id])
    else if cfg.hwRoc then
      if !env.cancel then (s, [.cancel])
      else
        let out := (s.rocList.takeWhile RocWork.started).flatMap rocNotifyDestroy
        let (s, out') :=
          { s with rocList := s.rocList.dropWhile RocWork.started }.startNextRoc cfg env
        (s, .cancel :: out ++ out' ++ [.cancelled found.id])
    else
      let rocs := s.rocList.map fun roc => if roc.id = found.id then { roc with abort := true } else roc
      ({ s with rocList := rocs, rocWork := true }, [.cancelled found.id])

/-- `ieee80211_cancel_roc`. -/
def cancelRoc (s : RocLocal) (cookie : UInt64) (mgmtTx : Bool) : RocLocal × List RocOut :=
  if cookie = 0 then (s, [])
  else
    let (s, out) := if s.hwRocStart then s.runHwRocStart else (s, [])
    let (s, out') := s.cancelRoc' cfg env cookie mgmtTx
    (s, out ++ out')

/-- The request is one `ieee80211_roc_purge` is for. -/
def purges (sdata : Option ℕ) (roc : RocWork) : Bool := sdata.all fun i => roc.sdata = i

/-- `ieee80211_roc_purge`. -/
def rocPurge (s : RocLocal) (sdata : Option ℕ) : RocLocal × List RocOut :=
  let gone (roc : RocWork) : Bool := purges sdata roc && (!roc.started || cfg.hwRoc)
  let aborted (roc : RocWork) : Bool := purges sdata roc && roc.started && !cfg.hwRoc
  let out := (s.rocList.filter gone).flatMap fun roc =>
    (if roc.started then [.cancel] else []) ++ rocNotifyDestroy roc
  let rocs := (s.rocList.filter fun roc => !gone roc).map fun roc =>
    if aborted roc then { roc with abort := true } else roc
  let work := s.rocList.any aborted
  let s := { s with rocList := rocs }
  if work then
    let (s, out') := s.runRocWork cfg env
    (s, out ++ out')
  else (s, out)

end RocLocal

/-! ### The machine -/

/-- What happens. -/
inductive RocEvent
  /-- `ieee80211_start_roc_work`. -/
  | start (env : RocEnv) (req : RocRequest)
  /-- `ieee80211_ready_on_channel`, from the driver. -/
  | ready (now : UInt64)
  /-- `ieee80211_remain_on_channel_expired`, from the driver. -/
  | expired
  /-- `hw_roc_start` runs. -/
  | hwRocStart
  /-- `hw_roc_done` runs. -/
  | hwRocDone (env : RocEnv)
  /-- `roc_work` runs. -/
  | rocWork (env : RocEnv)
  /-- `ieee80211_start_next_roc`, after a scan or a restart. -/
  | next (env : RocEnv)
  /-- `ieee80211_cancel_roc`. -/
  | cancel (env : RocEnv) (cookie : UInt64) (mgmtTx : Bool)
  /-- `ieee80211_roc_purge`. -/
  | purge (env : RocEnv) (sdata : Option ℕ)

/-- One event. Work runs if it is queued. -/
def rocStep (cfg : RocConfig) (s : RocLocal) : RocEvent → Option (RocLocal × List RocOut)
  | .start env req => some (s.startRocWork cfg env req)
  | .ready now => some ({ s with hwRocStartTime := now, hwRocStart := true }, [])
  | .expired => some ({ s with hwRocDone := true }, [])
  | .hwRocStart => if s.hwRocStart then some s.runHwRocStart else none
  | .hwRocDone env => if s.hwRocDone then some (s.runHwRocDone cfg env) else none
  | .rocWork env =>
    if s.rocWork then some ({ s with rocWork := false }.runRocWork cfg env) else none
  | .next env => some (s.startNextRoc cfg env)
  | .cancel env cookie mgmtTx => some (s.cancelRoc cfg env cookie mgmtTx)
  | .purge env sdata => some (s.rocPurge cfg env sdata)

end Mac80211
