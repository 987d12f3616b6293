import Mac80211.Frame
import Mac80211.Lib.Reach

/-!
# The reorder buffer

`rx.c`: a block-ack session keeps received frames in a ring of `buf_size` slots; slot `i` is for the
sequence numbers that are `i` modulo `buf_size`. Frames of one A-MSDU share a slot, which is ready
when it is complete, or marked as filtered.

A shift count of 64 and more is taken modulo 64, as the machine does. Loops that need not end are
given as much fuel as they can use, and the result is `none` where they would go on.

## Main definitions

* `TidAmpduRx`, `reorderStep`
-/

namespace Mac80211

/-! ### Sequence numbers -/

/-- `IEEE80211_SN_MODULO`. -/
def SN_MODULO : ℕ := 4096

/-- `ieee80211_sn_add`. -/
def snAdd (sn1 sn2 : ℕ) : ℕ := (sn1 + sn2) % SN_MODULO

/-- `ieee80211_sn_inc`. -/
def snInc (sn : ℕ) : ℕ := snAdd sn 1

/-- `ieee80211_sn_sub`. -/
def snSub (sn1 sn2 : ℕ) : ℕ := (sn1 + (SN_MODULO - sn2 % SN_MODULO)) % SN_MODULO

/-- `ieee80211_sn_less`. -/
def snLess (sn1 sn2 : ℕ) : Bool := SN_MODULO / 2 < snSub sn1 sn2

/-! ### The session -/

/-- A QoS data frame with a sequence number. -/
structure AmpduSkb where
  seqCtrl : UInt16
  /-- `RX_FLAG_AMSDU_MORE`. -/
  amsduMore : Bool := false
  body : List UInt8 := []
deriving DecidableEq

/-- `(sc & IEEE80211_SCTL_SEQ) >> 4`. -/
def AmpduSkb.sn (skb : AmpduSkb) : ℕ := (skb.seqCtrl &&& SCTL_SEQ).toNat / 2 ^ 4

/-- `struct tid_ampdu_rx`. -/
structure TidAmpduRx where
  /-- `reorder_buf`: the slots. -/
  reorderBuf : ℕ → List AmpduSkb := fun _ => []
  reorderBufFiltered : UInt64 := 0
  /-- `reorder_time`, in jiffies. -/
  reorderTime : ℕ → UInt64 := fun _ => 0
  /-- When `reorder_timer` goes off, if it is armed. -/
  reorderTimer : Option UInt64 := none
  headSeqNum : ℕ
  /-- `stored_mpdu_num`, a `u16`. -/
  storedMpduNum : ℕ := 0
  ssn : ℕ
  bufSize : ℕ
  autoSeq : Bool := false
  removed : Bool := false
  started : Bool := false

/-- `BIT_ULL(n)`. -/
def bitUll (n : ℕ) : UInt64 := 1 <<< UInt64.ofNat n

namespace TidAmpduRx

variable (t : TidAmpduRx)

/-- The slot the window begins with. -/
def headIndex : ℕ := t.headSeqNum % t.bufSize

/-- The last frame of the slot is there. -/
def complete (index : ℕ) : Bool :=
  match (t.reorderBuf index).getLast? with
  | none => false
  | some tail => !tail.amsduMore

/-- `ieee80211_rx_reorder_ready`. -/
def rxReorderReady (index : ℕ) : Bool :=
  t.reorderBufFiltered &&& bitUll index ≠ 0 || t.complete index

/-- `__skb_queue_purge(&tid_agg_rx->reorder_buf[index])`. -/
def purge (index : ℕ) : TidAmpduRx := { t with reorderBuf := Function.update t.reorderBuf index [] }

end TidAmpduRx

/-! ### Releasing frames -/

/-- `ieee80211_release_reorder_frame`. -/
def releaseReorderFrame (t : TidAmpduRx) (index : ℕ) (frames : List AmpduSkb) :
    TidAmpduRx × List AmpduSkb :=
  let skbs := t.reorderBuf index
  let ready := !skbs.isEmpty && t.rxReorderReady index
  ({ t with
      reorderBuf := Function.update t.reorderBuf index []
      storedMpduNum := if ready then (t.storedMpduNum + 65535) % 65536 else t.storedMpduNum
      reorderBufFiltered := t.reorderBufFiltered &&& ~~~bitUll index
      headSeqNum := snInc t.headSeqNum },
    if ready then frames ++ skbs else frames)

/-- The loop of `ieee80211_release_reorder_frames`. -/
def releaseLoop (headSeqNum : ℕ) : ℕ → TidAmpduRx → List AmpduSkb → TidAmpduRx × List AmpduSkb
  | 0, t, frames => (t, frames)
  | n + 1, t, frames =>
    if snLess t.headSeqNum headSeqNum then
      let (t, frames) := releaseReorderFrame t t.headIndex frames
      releaseLoop headSeqNum n t frames
    else (t, frames)

/-- `ieee80211_release_reorder_frames`. -/
def releaseReorderFrames (t : TidAmpduRx) (headSeqNum : ℕ) (frames : List AmpduSkb) :
    TidAmpduRx × List AmpduSkb :=
  releaseLoop headSeqNum SN_MODULO t frames

/-- Empty the slots from `i` up to, and without, slot `j`. -/
def purgeLoop (j : ℕ) : ℕ → ℕ → TidAmpduRx → TidAmpduRx
  | 0, _, t => t
  | n + 1, i, t => if i = j then t else purgeLoop j n ((i + 1) % t.bufSize) (t.purge i)

/-- The slot has waited for longer than `HT_RX_REORDER_BUF_TIMEOUT`. -/
def timedOut (hz jiffies : UInt64) (t : TidAmpduRx) (j : ℕ) : Bool :=
  timeAfter jiffies (t.reorderTime j + hz / 10)

/-- The loop that gives up on missing frames. The slot in the result is the one it stops at because
it has not timed out. -/
def timeoutLoop (hz jiffies : UInt64) (index : ℕ) : ℕ → ℕ → ℕ → TidAmpduRx → List AmpduSkb →
    TidAmpduRx × List AmpduSkb × Option ℕ
  | 0, _, _, t, frames => (t, frames, none)
  | n + 1, j, skipped, t, frames =>
    if j = index then (t, frames, none)
    else if !t.rxReorderReady j then
      timeoutLoop hz jiffies index n ((j + 1) % t.bufSize) (skipped + 1) t frames
    else if skipped ≠ 0 && !timedOut hz jiffies t j then (t, frames, some j)
    else
      let t := purgeLoop j t.bufSize ((index + 1) % t.bufSize) t
      let (t, frames) := releaseReorderFrame t j frames
      let t := { t with headSeqNum := snAdd t.headSeqNum skipped }
      timeoutLoop hz jiffies index n ((j + 1) % t.bufSize) 0 t frames

/-- Release frames until the next missing one. -/
def readyLoop : ℕ → TidAmpduRx → List AmpduSkb → Option (TidAmpduRx × List AmpduSkb)
  | 0, _, _ => none
  | n + 1, t, frames =>
    if t.rxReorderReady t.headIndex then
      let (t, frames) := releaseReorderFrame t t.headIndex frames
      readyLoop n t frames
    else some (t, frames)

/-- `(index - 1) % tid_agg_rx->buf_size`, where the remainder of a negative number is negative. -/
def lastIndex (index bufSize : ℕ) : Option ℕ :=
  if index = 0 then if bufSize = 1 then some 0 else none else some (index - 1)

/-- The slot the timer is set for. The search has no end if there is none. -/
def timerSlot (t : TidAmpduRx) : Option ℕ :=
  ((List.range t.bufSize).map fun m => (t.headIndex + m) % t.bufSize).find? fun j =>
    lastIndex t.headIndex t.bufSize = some j || t.rxReorderReady j

/-- `mod_timer`, for slot `j`. -/
def setReleaseTimer (hz : UInt64) (t : TidAmpduRx) (j : ℕ) : TidAmpduRx :=
  if t.removed then t
  else { t with reorderTimer := some (t.reorderTime j + 1 + hz / 10) }

/-- The timer, after frames have been released. -/
def rearmTimer (hz : UInt64) (t : TidAmpduRx) : Option TidAmpduRx :=
  if t.storedMpduNum ≠ 0 then (timerSlot t).map (setReleaseTimer hz t)
  else some { t with reorderTimer := none }

/-- `ieee80211_sta_reorder_release`. -/
def staReorderRelease (hz jiffies : UInt64) (t : TidAmpduRx) (frames : List AmpduSkb) :
    Option (TidAmpduRx × List AmpduSkb) :=
  if !t.rxReorderReady t.headIndex && t.storedMpduNum ≠ 0 then
    match timeoutLoop hz jiffies t.headIndex t.bufSize ((t.headIndex + 1) % t.bufSize) 1 t frames with
    | (t, frames, some j) => some (setReleaseTimer hz t j, frames)
    | (t, frames, none) => (rearmTimer hz t).map fun t => (t, frames)
  else
    (readyLoop (t.bufSize + 1) t frames).bind fun (t, frames) =>
      (rearmTimer hz t).map fun t => (t, frames)

/-! ### A frame arrives -/

/-- What becomes of a frame. -/
inductive Fate
  /-- It is processed right away: the session has not started. -/
  | early
  /-- It is processed right away: it is next. -/
  | next
  /-- It is old, or there already. -/
  | freed
  /-- It is in the buffer now. -/
  | queued
deriving DecidableEq

/-- Offloaded sessions pick the starting sequence number from the first frame. -/
def pickSeq (t : TidAmpduRx) (sn : ℕ) : TidAmpduRx :=
  if t.autoSeq then { t with autoSeq := false, ssn := sn, headSeqNum := sn } else t

/-- Release some previous frames to make room for this sequence number. -/
def makeRoom (t : TidAmpduRx) (sn : ℕ) : TidAmpduRx × List AmpduSkb :=
  if !snLess sn (t.headSeqNum + t.bufSize) then
    releaseReorderFrames t (snInc (snSub sn t.bufSize)) []
  else (t, [])

/-- Put the frame in the reordering buffer. -/
def store (jiffies : UInt64) (t : TidAmpduRx) (skb : AmpduSkb) : TidAmpduRx :=
  let index := skb.sn % t.bufSize
  let t := { t with
    reorderBuf := Function.update t.reorderBuf index (t.reorderBuf index ++ [skb]) }
  if skb.amsduMore then t
  else { t with
    reorderTime := Function.update t.reorderTime index jiffies
    storedMpduNum := (t.storedMpduNum + 1) % 65536 }

/-- `ieee80211_sta_manage_reorder_buf`, on a session that has started. -/
def manageStarted (hz jiffies : UInt64) (t : TidAmpduRx) (skb : AmpduSkb) :
    Option (TidAmpduRx × List AmpduSkb × Fate) :=
  if snLess skb.sn t.headSeqNum then some (t, [], .freed)
  else
    let (t, frames) := makeRoom t skb.sn
    if t.rxReorderReady (skb.sn % t.bufSize) then some (t, frames, .freed)
    else if skb.sn = t.headSeqNum && t.storedMpduNum = 0 then
      some (if skb.amsduMore then t else { t with headSeqNum := snInc t.headSeqNum }, frames, .next)
    else
      let t := store jiffies t skb
      if skb.amsduMore then some (t, frames, .queued)
      else (staReorderRelease hz jiffies t frames).map fun (t, frames) => (t, frames, .queued)

/-- `ieee80211_sta_manage_reorder_buf`. -/
def manageReorderBuf (hz jiffies : UInt64) (t : TidAmpduRx) (skb : AmpduSkb) :
    Option (TidAmpduRx × List AmpduSkb × Fate) :=
  let t := pickSeq t skb.sn
  if !t.started && snLess skb.sn t.headSeqNum then some (t, [], .early)
  else manageStarted hz jiffies { t with started := true } skb

/-! ### Filtered frames -/

/-- The new bitmap: bit `i` of `filtered` is for sequence number `ssn + i`. -/
def markBits (t : TidAmpduRx) (ssn : ℕ) (filtered : UInt64) : UInt64 :=
  (List.range t.bufSize).foldl (fun bits i =>
    let index := (ssn + i) % t.bufSize
    let bits := bits &&& ~~~bitUll index
    if filtered &&& bitUll i ≠ 0 then bits ||| bitUll index else bits) t.reorderBufFiltered

/-- The first part of `ieee80211_mark_rx_ba_filtered_frames`: frames before `ssn` are released. -/
def markRelease (t : TidAmpduRx) (ssn receivedMpdus : ℕ) : TidAmpduRx × List AmpduSkb :=
  if SN_MODULO / 2 ≤ receivedMpdus then
    let (t, frames) := releaseReorderFrames t ((t.headSeqNum + t.bufSize) % SN_MODULO) []
    ({ t with headSeqNum := ssn }, frames)
  else releaseReorderFrames t ssn []

/-- The second part: the marks are set. -/
def markFiltered (t : TidAmpduRx) (ssn : ℕ) (filtered : UInt64) : TidAmpduRx :=
  let diff := snSub t.headSeqNum ssn
  { t with reorderBufFiltered :=
      markBits t ((ssn + diff) % 65536) (filtered >>> UInt64.ofNat diff) }

/-- `ieee80211_mark_rx_ba_filtered_frames`. -/
def markRxBaFilteredFrames (hz jiffies : UInt64) (t : TidAmpduRx) (ssn : ℕ) (filtered : UInt64)
    (receivedMpdus : ℕ) : Option (TidAmpduRx × List AmpduSkb) :=
  let (t, frames) := markRelease t ssn receivedMpdus
  if t.bufSize ≤ snSub t.headSeqNum ssn then some ({ t with reorderBufFiltered := 0 }, frames)
  else staReorderRelease hz jiffies (markFiltered t ssn filtered) frames

/-! ### A session as a machine -/

/-- A new session, as `___ieee80211_start_rx_ba_session` sets it up. -/
def newTidAmpduRx (bufSize ssn : ℕ) (autoSeq : Bool) : TidAmpduRx where
  headSeqNum := ssn
  ssn := ssn
  bufSize := bufSize
  autoSeq := autoSeq

/-- What can happen to a session. -/
inductive ReorderOp
  /-- `ieee80211_sta_manage_reorder_buf`. -/
  | frame (jiffies : UInt64) (skb : AmpduSkb)
  /-- `ieee80211_rx_h_ctrl`, on a block-ack request. -/
  | bar (seqCtrl : UInt16)
  /-- `ieee80211_release_reorder_timeout`. -/
  | timeout (jiffies : UInt64)
  /-- `ieee80211_mark_rx_ba_filtered_frames`. -/
  | mark (jiffies : UInt64) (ssn : UInt16) (filtered : UInt64) (receivedMpdus : UInt16)

/-- What comes out. -/
inductive ReorderOut
  /-- A frame goes to the handlers, in its place. -/
  | delivered (skb : AmpduSkb)
  /-- A frame goes to the handlers before the session has started. -/
  | early (skb : AmpduSkb)
  | freed (skb : AmpduSkb)
  /-- A block-ack request has moved the window. -/
  | moved (n : ℕ)
deriving DecidableEq

/-- What becomes of the frame itself. -/
def Fate.outs (skb : AmpduSkb) : Fate → List ReorderOut
  | early => [.early skb]
  | next => [.delivered skb]
  | freed => [.freed skb]
  | queued => []

/-- One step of a session. Frames that are released come before the one at hand. -/
def reorderStep (hz : UInt64) (t : TidAmpduRx) : ReorderOp → Option (TidAmpduRx × List ReorderOut)
  | .frame jiffies skb =>
    (manageReorderBuf hz jiffies t skb).map fun (t, frames, fate) =>
      (t, frames.map .delivered ++ fate.outs skb)
  | .bar seqCtrl =>
    let (t', frames) := releaseReorderFrames t (seqCtrl.toNat / 2 ^ 4) []
    some (t', frames.map .delivered ++ [.moved (snSub t'.headSeqNum t.headSeqNum)])
  | .timeout jiffies =>
    (staReorderRelease hz jiffies t []).map fun (t, frames) => (t, frames.map .delivered)
  | .mark jiffies ssn filtered receivedMpdus =>
    (markRxBaFilteredFrames hz jiffies t ssn.toNat filtered receivedMpdus.toNat).map
      fun (t, frames) => (t, frames.map .delivered)

end Mac80211
