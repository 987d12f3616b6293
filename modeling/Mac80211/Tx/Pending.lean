import Mac80211.Tx.Outgoing
import Mac80211.Lib.Sums

/-!
# Frames that wait for a queue

`ieee80211_tx_frags` gives frames to the driver one by one; where the queue is stopped, the rest
goes to `local->pending`, from where the tasklet `ieee80211_tx_pending` sends it later. Any number
of its loops are under way, and a step is one iteration of one of them, a new list, one frame of the
tasklet, a frame that is put into a pending queue, or an interface that goes down. Everything else
on the device may change between two steps.

A frame carries its turn, which the code does not have: when it was passed in, or put into a pending
queue.

## Main definitions

* `PendState`, `pendStep`, `Accounted`, `Orderly`
-/

namespace Mac80211

/-- A frame. -/
structure TurnSkb where
  skb : TxSkb
  /-- When it was passed in, or what it was made from. -/
  turn : ℕ
  /-- The number of the list it was passed to `ieee80211_tx_frags` in. -/
  list : ℕ
  /-- Its place in the list. -/
  frag : ℕ
deriving DecidableEq

namespace TurnSkb

variable (p : TurnSkb)

/-- The hardware queue. -/
def queue : ℕ := p.skb.info.hwQueue

/-- The frame is still to be processed. -/
def raw : Bool := p.skb.info.needTxprocessing

/-- Passed in earlier. -/
def Before (p p' : TurnSkb) : Prop := p.turn < p'.turn ∨ p.turn = p'.turn ∧ p.frag < p'.frag

end TurnSkb

instance : DecidableRel TurnSkb.Before :=
  fun p p' => inferInstanceAs (Decidable (p.turn < p'.turn ∨ p.turn = p'.turn ∧ p.frag < p'.frag))

/-- A list of frames. -/
def numbered (turn list : ℕ) (skbs : List TxSkb) : List TurnSkb :=
  skbs.zipIdx.map fun x => ⟨x.1, turn, list, x.2⟩

/-- A loop of `ieee80211_tx_frags` that is under way. -/
structure PendLoop where
  vif : Option SdataId
  txpending : Bool
  /-- The frames that are left. -/
  skbs : List TurnSkb

/-- Why a frame is freed. -/
inductive FreeReason
  /-- Its interface went down, or there is no monitor interface any more. -/
  | gone
  /-- Off-channel frames are dropped if the queue is stopped for another reason. -/
  | offchannel
deriving DecidableEq

/-- What comes out. -/
inductive PendOut
  /-- A frame is passed to `ieee80211_tx_frags`, or put into a pending queue as it is. -/
  | passed (p : TurnSkb)
  /-- `drv_tx`. -/
  | handed (p : TurnSkb) (vif : SdataId)
  | freed (p : TurnSkb) (reason : FreeReason)
deriving DecidableEq

/-- The device. -/
structure PendState where
  /-- Everything but the pending queues. -/
  dev : Local := {}
  pending : ℕ → List TurnSkb := fun _ => []
  loops : List PendLoop := []
  next : ℕ := 0

namespace PendState

variable (s : PendState)

/-- The device without the turns. -/
def device : Local := { s.dev with pending := fun q => (s.pending q).map TurnSkb.skb }

/-- A pending queue changes. -/
def setPending (q : ℕ) (skbs : List TurnSkb) : PendState :=
  { s with pending := Function.update s.pending q skbs }

end PendState

/-- What becomes of a frame that the tasklet takes. -/
structure TaskletEnv where
  /-- What `ieee80211_tx` passes to `ieee80211_tx_frags` for a frame that is to be processed;
  nothing without a channel, or if a handler drops or queues it. -/
  out : Option (Option SdataId × List TxSkb) := none
  /-- The hardware queue of the virtual monitor interface. -/
  monitorQueue : ℕ := 0

/-- What can happen. -/
inductive PendEvent
  /-- The device changes: queues are stopped and woken, interfaces come and go. -/
  | device (dev : Local)
  /-- `ieee80211_tx_frags`, of a new list. -/
  | txFrags (vif : Option SdataId) (skbs : List TxSkb)
  /-- `ieee80211_add_pending_skb`. -/
  | addPendingSkb (skb : TxSkb)
  /-- One frame of `ieee80211_tx_pending`. -/
  | txPending (q : ℕ) (env : TaskletEnv)
  /-- One iteration of a loop. -/
  | next (k : ℕ)
  /-- An interface goes down: its frames in a pending queue are freed. -/
  | doStop (vif : SdataId) (q : ℕ)
  /-- `ieee80211_clear_tx_pending`, of one queue. No interface is up any more. -/
  | clearTxPending (q : ℕ)

/-- The frame as it is passed on, on an inactive monitor interface for the queue of the virtual one. -/
def requeued (s : Local) (monitorQueue : ℕ) (p : TurnSkb) : TurnSkb :=
  let d := s.sdata p.skb.info.vif
  if d.type = .monitor && !d.monitorActive && s.monitorSdata.isSome then
    { p with skb := { p.skb with info := { p.skb.info with hwQueue := monitorQueue } } }
  else p

/-- `ieee80211_tx_pending_skb`, of a frame that is not in the pending queue any more. -/
def pendingSkb (s : PendState) (env : TaskletEnv) (p : TurnSkb) : PendState × List PendOut :=
  if p.raw then
    match env.out with
    | none => (s, [])
    | some (vif, skbs) =>
      let ps := numbered p.turn s.next skbs
      ({ s with
        loops := s.loops ++ [{ vif := vif, txpending := true, skbs := ps }]
        next := s.next + 1 }, ps.map .passed)
  else
    match driverVif s.dev p.skb.info.vif with
    | none => (s, [.freed p .gone])
    | some vif =>
      ({ s with
        loops := s.loops ++ [{ vif := vif, txpending := true, skbs := [requeued s.dev env.monitorQueue p] }] }, [])

/-- The frames of a loop and those of the pending queue, in the order in which they wait. -/
def PendLoop.line (l : PendLoop) (queue : List TurnSkb) : List TurnSkb :=
  if l.txpending then l.skbs ++ queue else queue ++ l.skbs

/-- One iteration of the loop of `ieee80211_tx_frags`. When it is over, no frames are left. -/
def pendIterate (s : PendState) (k : ℕ) (l : PendLoop) : Option (PendState × List PendOut) :=
  match l.skbs with
  | [] => some (s, [])
  | p :: ps =>
    let goOn := fun ps => { s with loops := s.loops.set k { l with skbs := ps } }
    match iteration s.device l.vif l.txpending p.skb with
    | .park q => some ((goOn []).setPending q (l.line (s.pending q)), [])
    | .drop => some (goOn [], l.skbs.map (.freed · .offchannel))
    | .send v => some (goOn ps, [.handed p v])
    | .fault => none

/-- One step. -/
def pendStep (s : PendState) : PendEvent → Option (PendState × List PendOut)
  | .device dev => some ({ s with dev := dev }, [])
  | .txFrags vif skbs =>
    let ps := numbered s.next s.next skbs
    some ({ s with
      loops := s.loops ++ [{ vif := vif, txpending := false, skbs := ps }]
      next := s.next + 1 }, ps.map .passed)
  | .addPendingSkb skb =>
    let p : TurnSkb := ⟨skb, s.next, s.next, 0⟩
    some ({ s with next := s.next + 1 }.setPending p.queue (s.pending p.queue ++ [p]),
      if p.raw then [] else [.passed p])
  | .txPending q env =>
    match s.pending q with
    | [] => some (s, [])
    | p :: ps => some (pendingSkb (s.setPending q ps) env p)
  | .next k => s.loops[k]?.bind (pendIterate s k)
  | .doStop vif q =>
    some (s.setPending q ((s.pending q).filter fun p => p.skb.info.vif ≠ vif),
      ((s.pending q).filter fun p => p.skb.info.vif = vif).map (.freed · .gone))
  | .clearTxPending q => some (s.setPending q [], (s.pending q).map (.freed · .gone))

/-! ### The order -/

/-- The frames that were passed in. -/
def passedOf (os : List PendOut) : List TurnSkb :=
  os.filterMap fun | .passed p => some p | _ => none

/-- The frames the driver has. -/
def handedOf (os : List PendOut) : List TurnSkb :=
  os.filterMap fun | .handed p _ => some p | _ => none

/-- The frames that were freed. -/
def freedOf (os : List PendOut) : List TurnSkb :=
  os.filterMap fun | .freed p _ => some p | _ => none

/-- The frames the driver has for a queue. -/
def handedOn (q : ℕ) (os : List PendOut) : List TurnSkb := (handedOf os).filter fun p => p.queue = q

/-- The frames of the loops. -/
def PendState.underWay (s : PendState) : List TurnSkb := s.loops.flatMap PendLoop.skbs

/-- Which frame it is, whatever queue it is for. -/
def TurnSkb.tag (p : TurnSkb) : ℕ × ℕ := (p.list, p.frag)

/-- How often a frame is in a list, among those that have been processed. -/
def tally (t : ℕ × ℕ) (ps : List TurnSkb) : ℕ := ps.countP fun p => !p.raw && p.tag = t

/-- How often it waits in one of the first `Q` pending queues. -/
def PendState.waiting (s : PendState) (Q : ℕ) (t : ℕ × ℕ) : ℕ := ∑ q ∈ Finset.range Q, tally t (s.pending q)

/-- Fragments of one frame: they have been processed, and are for one queue and off-channel together. -/
def Fragments (skbs : List TxSkb) : Prop :=
  ∀ skb ∈ skbs, skb.info.needTxprocessing = false ∧ ∀ skb' ∈ skbs,
    skb'.info.hwQueue = skb.info.hwQueue ∧ skb'.info.offchanTxOk = skb.info.offchanTxOk
deriving Decidable

/-- **The condition for the accounting.** A list that is passed to `ieee80211_tx_frags` consists of fragments
of one frame. -/
def PassesFragments (_s : PendState) (_os : List PendOut) : PendEvent → Prop
  | .txFrags _ skbs => Fragments skbs
  | .txPending _ env => ∀ out ∈ env.out, Fragments out.2
  | _ => True

instance (s : PendState) (os : List PendOut) (e : PendEvent) : Decidable (PassesFragments s os e) :=
  match e with
  | .txFrags _ skbs => inferInstanceAs (Decidable (Fragments skbs))
  | .txPending _ env => inferInstanceAs (Decidable (∀ out ∈ env.out, Fragments out.2))
  | .device _ | .next _ | .addPendingSkb _ | .doStop .. | .clearTxPending _ =>
    inferInstanceAs (Decidable True)

/-- **Every frame is in one place**: once with the driver, or freed, or under way, or waiting in the
queue it is for; and it is freed with its interface, or off-channel. -/
structure Accounted (s : PendState) (os : List PendOut) : Prop where
  once : ∃ Q, (∀ q, Q ≤ q → s.pending q = []) ∧ ∀ p ∈ passedOf os,
    tally p.tag (handedOf os) + tally p.tag (freedOf os) + tally p.tag s.underWay + s.waiting Q p.tag = 1
  queue : ∀ q, ∀ p ∈ s.pending q, p.queue = q
  freed : ∀ p reason, PendOut.freed p reason ∈ os → reason = .gone ∨ p.skb.info.offchanTxOk = true

/-- Frames for one queue that may be kept waiting. -/
def PlainFor (q : ℕ) (skb : TxSkb) : Prop := skb.info.hwQueue = q ∧ skb.info.offchanTxOk = false

/-- Frames for one queue that are processed, and may be kept waiting. -/
def ReadyFor (q : ℕ) (skb : TxSkb) : Prop := PlainFor q skb ∧ skb.info.needTxprocessing = false

/-- **The condition for the order.** While a loop is under way for a queue none begins for it, and
no other puts a frame into its pending queue. The frames of a list are for one queue, not
off-channel, as are those made from a frame of a pending queue. -/
def Orderly (s : PendState) (_os : List PendOut) : PendEvent → Prop
  | .txFrags _ skbs => ∀ skb ∈ skbs, (∀ skb' ∈ skbs, ReadyFor skb.info.hwQueue skb') ∧
    ∀ p ∈ s.underWay, p.queue ≠ skb.info.hwQueue
  | .addPendingSkb skb =>
    skb.info.offchanTxOk = false ∧ ∀ p ∈ s.underWay, p.queue ≠ skb.info.hwQueue
  | .txPending q env =>
    (∀ out ∈ env.out, ∀ skb ∈ out.2, ReadyFor q skb) ∧ env.monitorQueue = q ∧ ∀ p ∈ s.underWay, p.queue ≠ q
  | _ => True

instance (q : ℕ) (skb : TxSkb) : Decidable (ReadyFor q skb) :=
  inferInstanceAs (Decidable ((skb.info.hwQueue = q ∧ skb.info.offchanTxOk = false) ∧
    skb.info.needTxprocessing = false))

instance (s : PendState) (os : List PendOut) (e : PendEvent) : Decidable (Orderly s os e) :=
  match e with
  | .txFrags _ skbs => inferInstanceAs (Decidable (∀ skb ∈ skbs,
      (∀ skb' ∈ skbs, ReadyFor skb.info.hwQueue skb') ∧ ∀ p ∈ s.underWay, p.queue ≠ skb.info.hwQueue))
  | .addPendingSkb skb => inferInstanceAs (Decidable (skb.info.offchanTxOk = false ∧
      ∀ p ∈ s.underWay, p.queue ≠ skb.info.hwQueue))
  | .txPending q env => inferInstanceAs (Decidable ((∀ out ∈ env.out, ∀ skb ∈ out.2, ReadyFor q skb) ∧
      env.monitorQueue = q ∧ ∀ p ∈ s.underWay, p.queue ≠ q))
  | .device _ | .next _ | .doStop .. | .clearTxPending _ => inferInstanceAs (Decidable True)

/-- Frames that are passed in are for one queue, and no loop is under way for it. -/
theorem Orderly.exists_queue {s : PendState} {os : List PendOut} {vif : Option SdataId} {skbs : List TxSkb}
    (h : Orderly s os (.txFrags vif skbs)) :
    ∃ q, (∀ skb ∈ skbs, ReadyFor q skb) ∧ (skbs ≠ [] → ∀ p ∈ s.underWay, p.queue ≠ q) := by
  rcases skbs with _ | ⟨skb, skbs⟩
  · exact ⟨0, by simp, by simp⟩
  · obtain ⟨hready, hfree⟩ := h skb List.mem_cons_self
    exact ⟨skb.info.hwQueue, hready, fun _ => hfree⟩

end Mac80211
