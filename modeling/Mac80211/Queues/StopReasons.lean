import Mac80211.Frame
import Mac80211.Lib.Reach

/-!
# Stopping and waking hardware queues

`util.c`: a hardware queue is stopped as long as there is a reason for it, and reasons may be
counted. Stopping it stops the categories that map to it, and all those of an interface whose
`cab_queue` it is: by `txqs_stopped`, or by the queue of the net device. The hardware, its
interfaces and intermediate queues are in `QueueHw` and do not change; they are named by their
positions.

## Main definitions

* `QueueHw`, `QueueState`
-/

namespace Mac80211

/-- `enum queue_stop_reason`. -/
inductive QueueStopReason
  | driver
  | ps
  | csa
  | aggregation
  | suspend
  | skbAdd
  | offchannel
  | flush
  | tdlsTeardown
  | reserveTid
deriving DecidableEq

/-! ### The hardware -/

/-- `struct ieee80211_sub_if_data`, as far as queues go. -/
structure QueueVif where
  /-- `sdata->dev` is there. -/
  dev : Bool := true
  hwQueue : Fin 4 → ℕ
  /-- `vif.cab_queue`; `IEEE80211_INVAL_HW_QUEUE` is 255. -/
  cabQueue : ℕ := 255

/-- `struct ieee80211_txq`. -/
structure QueueTxq where
  vif : ℕ
  ac : Fin 4
  /-- It is `vif->txq`, and not that of a station. -/
  ofVif : Bool := false

/-- What does not change. -/
structure QueueHw where
  queues : ℕ
  /-- `ops->wake_tx_queue` is there. -/
  wakeTxQueue : Bool
  /-- `interfaces`. -/
  vifs : List QueueVif
  txqs : List QueueTxq := []

namespace QueueHw

variable (hw : QueueHw)

/-- `n_acs`. -/
def nAcs : ℕ := if hw.queues < 4 then 1 else 4

/-- Stopping queue `q` stops this category. -/
def stops (q v : ℕ) (ac : Fin 4) : Bool :=
  (hw.vifs[v]?).any fun d => d.dev && ac < hw.nAcs && (d.hwQueue ac = q || d.cabQueue = q)

/-- Waking queue `q` wakes this category. -/
def wakes (q v : ℕ) (ac : Fin 4) : Bool :=
  (hw.vifs[v]?).any fun d => ac < hw.nAcs && (d.hwQueue ac = q || d.cabQueue = q)

end QueueHw

/-! ### The state -/

/-- What changes. -/
structure QueueState where
  /-- `queue_stop_reasons`, bit by bit. -/
  reasons : ℕ → QueueStopReason → Bool := fun _ _ => false
  /-- `q_stop_reasons`, an `int`. -/
  counts : ℕ → QueueStopReason → ℤ := fun _ _ => 0
  /-- The number of frames in `pending`. -/
  pending : ℕ → ℕ := fun _ => 0
  txqsStopped : ℕ → Fin 4 → Bool := fun _ _ => false
  /-- `__QUEUE_STATE_DRV_XOFF` of the net device. -/
  netifStopped : ℕ → Fin 4 → Bool := fun _ _ => false
  /-- `IEEE80211_TXQ_STOP_NETIF_TX`. -/
  txqStopNetifTx : ℕ → Bool := fun _ => false
  txqFrames : ℕ → ℕ := fun _ => 0

namespace QueueState

variable (s : QueueState)

/-- `queue_stop_reasons[q] != 0`. -/
def stopped (q : ℕ) : Bool :=
  [QueueStopReason.driver, .ps, .csa, .aggregation, .suspend, .skbAdd, .offchannel, .flush,
    .tdlsTeardown, .reserveTid].any (s.reasons q)

/-- Write a count. -/
def setCount (q : ℕ) (r : QueueStopReason) (n : ℤ) : QueueState :=
  { s with counts := Function.update s.counts q (Function.update (s.counts q) r n) }

/-- Write a bit. -/
def setReason (q : ℕ) (r : QueueStopReason) (b : Bool) : QueueState :=
  { s with reasons := Function.update s.reasons q (Function.update (s.reasons q) r b) }

end QueueState

/-- `i++` of an `int`. -/
def incInt (n : ℤ) : ℤ := if n = 2 ^ 31 - 1 then -2 ^ 31 else n + 1

/-- `i--` of an `int`. -/
def decInt (n : ℤ) : ℤ := if n = -2 ^ 31 then 2 ^ 31 - 1 else n - 1

section Operations

variable (hw : QueueHw)

/-- `__ieee80211_stop_queue`. -/
def stopQueue (s : QueueState) (q : ℕ) (r : QueueStopReason) (refcounted : Bool) : QueueState :=
  if hw.queues ≤ q then s
  else
    let s := s.setCount q r (if refcounted then incInt (s.counts q r) else 1)
    if s.reasons q r then s
    else
      { s.setReason q r true with
        txqsStopped := fun v ac => s.txqsStopped v ac || hw.wakeTxQueue && hw.stops q v ac
        netifStopped := fun v ac => s.netifStopped v ac || !hw.wakeTxQueue && hw.stops q v ac }

/-- `_ieee80211_wake_txqs` wakes this category: one of its queues is not stopped. -/
def wokenTxqs (s : QueueState) (v : ℕ) (ac : Fin 4) : Bool :=
  (List.range hw.queues).any fun i => !s.stopped i && hw.wakes i v ac

/-- `_ieee80211_wake_txqs`, with `__ieee80211_wake_txqs` for each category that is woken. -/
def wakeTxqs (s : QueueState) : QueueState :=
  { s with
    txqsStopped := fun v ac => s.txqsStopped v ac && !wokenTxqs hw s v ac
    txqStopNetifTx := fun t => s.txqStopNetifTx t && !(hw.txqs[t]?).any fun q =>
      -- the flag of `vif->txq` is cleared whatever its category
      if q.ofVif then (List.finRange 4).any (wokenTxqs hw s q.vif) else wokenTxqs hw s q.vif q.ac }

/-- `ieee80211_propagate_queue_wake`. -/
def propagateQueueWake (s : QueueState) (q : ℕ) : QueueState :=
  if hw.wakeTxQueue then s
  else
    { s with netifStopped := fun v ac => s.netifStopped v ac && !(hw.vifs[v]?).any fun d =>
        d.dev && !(d.cabQueue ≠ 255 && s.stopped d.cabQueue) && ac < hw.nAcs &&
          (d.hwQueue ac = q || d.cabQueue = q && !s.stopped (d.hwQueue ac) &&
            s.pending (d.hwQueue ac) = 0) }

/-- The count that `__ieee80211_wake_queue` leaves. -/
def wakeCount (n : ℤ) (refcounted : Bool) : ℤ := if refcounted then max (decInt n) 0 else 0

/-- `__ieee80211_wake_queue` up to where it finds that somebody still has the queue stopped. -/
def dropReason (s : QueueState) (q : ℕ) (r : QueueStopReason) (refcounted : Bool) : QueueState :=
  let n := wakeCount (s.counts q r) refcounted
  let s := s.setCount q r n
  if n = 0 then s.setReason q r false else s

/-- `__ieee80211_wake_queue`. Whatever the tasklets do is up to them. -/
def wakeQueue (s : QueueState) (q : ℕ) (r : QueueStopReason) (refcounted : Bool) : QueueState :=
  if hw.queues ≤ q || !s.reasons q r then s
  else
    let s := dropReason s q r refcounted
    if s.stopped q then s
    else
      let s := if s.pending q = 0 then propagateQueueWake hw s q else s
      if hw.wakeTxQueue && r ≠ .driver then wakeTxqs hw s else s

/-- `__skb_queue_tail(&local->pending[queue], skb)`. -/
def pushPending (s : QueueState) (q : ℕ) : QueueState :=
  { s with pending := Function.update s.pending q (s.pending q + 1) }

/-- One queue in `ieee80211_tx_pending`: `left` frames are still there when it stops sending. -/
def txPendingQueue (left : ℕ → ℕ) (s : QueueState) (q : ℕ) : QueueState :=
  if s.stopped q || s.pending q = 0 then s
  else
    let s := { s with pending := Function.update s.pending q (left q) }
    if s.pending q = 0 then propagateQueueWake hw s q else s

end Operations

/-! ### The machine -/

/-- What happens. -/
inductive QueueEvent
  /-- `ieee80211_stop_queue_by_reason`. -/
  | stop (q : ℕ) (r : QueueStopReason) (refcounted : Bool)
  /-- `ieee80211_wake_queue_by_reason`. -/
  | wake (q : ℕ) (r : QueueStopReason) (refcounted : Bool)
  /-- `ieee80211_add_pending_skb`, with the queue of the frame. -/
  | addPendingSkb (q : ℕ)
  /-- `ieee80211_add_pending_skbs`. -/
  | addPendingSkbs (qs : List ℕ)
  /-- The tasklet `ieee80211_tx_pending`. -/
  | txPending (left : ℕ → ℕ)
  /-- The tasklet `ieee80211_wake_txqs`. -/
  | wakeTxqs
  /-- Frames are put into an intermediate queue. -/
  | enqueue (t n : ℕ)
  /-- `ieee80211_tx_dequeue`. -/
  | txDequeue (t : ℕ)

/-- A frame was handed out of an intermediate queue. -/
structure HandedOut where
  vif : ℕ
  ac : Fin 4
  /-- Its hardware queue had a reason to be stopped. -/
  stopped : Bool
deriving DecidableEq

/-- What the functions do one after the other under the lock. -/
inductive QueueOp
  | stop (q : ℕ) (r : QueueStopReason) (refcounted : Bool)
  | wake (q : ℕ) (r : QueueStopReason) (refcounted : Bool)
  | push (q : ℕ)
  | sweep
  | send (left : ℕ → ℕ) (q : ℕ)

/-- One of them. -/
def QueueOp.apply (hw : QueueHw) (s : QueueState) : QueueOp → QueueState
  | stop q r refcounted => stopQueue hw s q r refcounted
  | wake q r refcounted => wakeQueue hw s q r refcounted
  | push q => pushPending s q
  | sweep => Mac80211.wakeTxqs hw s
  | send left q => txPendingQueue hw left s q

/-- The operations of an event. -/
def QueueEvent.ops (hw : QueueHw) : QueueEvent → List QueueOp
  | stop q r refcounted => [.stop q r refcounted]
  | wake q r refcounted => [.wake q r refcounted]
  | addPendingSkb q => [.stop q .skbAdd false, .push q, .wake q .skbAdd false]
  | addPendingSkbs qs =>
    qs.flatMap (fun q => [.stop q .skbAdd false, .push q]) ++
      (List.range hw.queues).map fun i => .wake i .skbAdd false
  | txPending left => (List.range hw.queues).map fun i => .send left i
  | wakeTxqs => [.sweep]
  | enqueue .. | txDequeue _ => []

/-- `ieee80211_tx_dequeue`, as far as it is about stopped queues. -/
def txDequeueStep (hw : QueueHw) (s : QueueState) (t : ℕ) : QueueState × List HandedOut :=
  match hw.txqs[t]? with
  | none => (s, [])
  | some q =>
    if s.txqStopNetifTx t then (s, [])
    else if s.txqsStopped q.vif q.ac then
      ({ s with txqStopNetifTx := Function.update s.txqStopNetifTx t true }, [])
    else if s.txqFrames t = 0 then (s, [])
    else
      ({ s with txqFrames := Function.update s.txqFrames t (s.txqFrames t - 1) },
        [{ vif := q.vif, ac := q.ac,
           stopped := (hw.vifs[q.vif]?).any fun d => s.stopped (d.hwQueue q.ac) }])

/-- One event. -/
def queueStep (hw : QueueHw) (s : QueueState) (e : QueueEvent) :
    Option (QueueState × List HandedOut) :=
  match e with
  | .txDequeue t => some (txDequeueStep hw s t)
  | .enqueue t n => some ({ s with txqFrames := Function.update s.txqFrames t (s.txqFrames t + n) }, [])
  | e => some ((e.ops hw).foldl (QueueOp.apply hw) s, [])

end Mac80211
