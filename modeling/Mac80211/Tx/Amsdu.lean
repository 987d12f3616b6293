import Mac80211.Convert.Amsdu

/-!
# Putting an A-MSDU together

`ieee80211_amsdu_aggregate` and `ieee80211_amsdu_prepare_head` of `tx.c`: the fast path appends a
frame to the last one that waits in the queue of its flow, which is rewritten in place the first
time. Everything is done with the header that is cached now, the pointer to the list of fragments is
taken before the head may move, and an RFC 1042 header is put in front of any EtherType.

## Main definitions

* `QueuedSkb`, `amsduAggregate`
-/

namespace Mac80211

open Machine

/-! ### Offsets of a cached header -/

namespace FastTx

/-- `fast_tx->hdr_len - sizeof(rfc1042_header)`. -/
def hdrLen (f : FastTx) : ℕ := 24 + (f.hdr.rest.length - 6)

/-- The address at `da_offs`. -/
def da (f : FastTx) (h : Hdr) : Mac := if f.daIsAddr3 then h.addr3 else h.addr1

/-- The address at `sa_offs`. -/
def sa (f : FastTx) (h : Hdr) : Mac :=
  match f.saField with
  | 2 => h.addr2
  | 3 => h.addr3
  | _ => macOfBytes h.rest 0

/-- Write the address at `da_offs`. -/
def setDa (f : FastTx) (h : Hdr) (a : Mac) : Hdr :=
  if f.daIsAddr3 then { h with addr3 := a } else { h with addr1 := a }

/-- Write the address at `sa_offs`. -/
def setSa (f : FastTx) (h : Hdr) (a : Mac) : Hdr :=
  match f.saField with
  | 2 => { h with addr2 := a }
  | 3 => { h with addr3 := a }
  | _ => h.setAddr4 a

end FastTx

/-! ### The queue -/

/-- A frame in the queue of a flow. -/
structure QueuedSkb where
  hdr : Hdr
  fragList : List (List UInt8) := []
  len : ℕ
  /-- The fragments, here and in `frag_list`. -/
  nfrags : ℕ := 1
  /-- `skb_headroom`. -/
  headroom : ℕ := 0
  /-- `skb_is_gso`. -/
  gso : Bool := false
  /-- `IEEE80211_TX_CTL_RATE_CTRL_PROBE`. -/
  rateCtrlProbe : Bool := false
  /-- `IEEE80211_TX_CTRL_AMSDU`. -/
  amsdu : Bool := false
  /-- History: the cached header the frame was built from; the slow path has none. -/
  cached : Option FastTx := none
  /-- History: the frames that were joined. -/
  frames : List EthFrame := []

/-- Around one frame of the fast path. -/
structure AggEnv where
  /-- The flow of the frame, `fq_flow_classify`. -/
  flow : ℕ := 0
  /-- `TX_AMSDU` of the hardware, and no `IEEE80211_TXQ_NO_AMSDU`. -/
  txAmsdu : Bool := true
  /-- `skb_is_gso`. -/
  gso : Bool := false
  maxAmsduLen : UInt16 := 3839
  maxRcAmsduLen : UInt16 := 0
  /-- `sta->sta.max_tid_amsdu_len[tid]`. -/
  maxTidAmsduLen : UInt16 := 0
  /-- `sta->sta.max_amsdu_subframes`. -/
  maxSubframes : ℕ := 0
  /-- `local->hw.max_tx_fragments`. -/
  maxFrags : ℕ := 0
  /-- `skb_shinfo(skb)->nr_frags`. -/
  nrFrags : ℕ := 0
  /-- `drv_can_aggregate_in_amsdu`. -/
  canAggregate : Bool := true
  /-- `pskb_expand_head` finds memory for the head. -/
  allocHead : Bool := true
  /-- `ieee80211_amsdu_realloc_pad` finds room in front of the frame. -/
  allocPad : Bool := true
  /-- The frame is queued, if it is not appended to another: rate control and the queue take it. -/
  queued : Bool := true
  /-- `skb_headroom` when it is queued. -/
  headroom : ℕ := 32
  /-- `IEEE80211_TX_CTL_RATE_CTRL_PROBE`. -/
  rateCtrlProbe : Bool := false

/-- The address that stands for a BSS, by type of interface. -/
def amsduBssid (d : SubIfData) : Option Mac :=
  match d.type with
  | .station => some d.bssid
  | .ap | .apVlan => some d.addr
  | _ => none

/-- The outer addresses of an A-MSDU: they are replaced by the BSSID, by the DS bits. -/
def amsduOuter (d : SubIfData) (f : FastTx) (h : Hdr) : Hdr :=
  match amsduBssid d with
  | none => h
  | some bssid =>
    let h := if hasFromds h.frameControl then f.setSa h bssid else h
    if hasTods h.frameControl then f.setDa h bssid else h

/-- `*qc |= IEEE80211_QOS_CTL_A_MSDU_PRESENT`. -/
def setAmsduPresent (h : Hdr) : Hdr :=
  let off := if hasA4 h.frameControl then 6 else 0
  { h with rest := Bytes.memcpyAt h.rest off [h.byte off ||| 0x80] }

/-- The header of the first subframe is put between the header and the body. -/
def insertSubframeHdr (f : FastTx) (len : ℕ) (h : Hdr) : Hdr :=
  let off := f.hdrLen - 24
  -- what does not fit, or is negative, is cut off
  let subframeLen := (((len : ℤ) - f.hdrLen) % 2 ^ 16).toNat
  { h with rest := h.rest.take off ++ ((f.da h).toList ++ ((f.sa h).toList ++
      (Bytes.be16 subframeLen ++ h.rest.drop off))) }

/-- `ieee80211_amsdu_prepare_head`. -/
def amsduPrepareHead (d : SubIfData) (f : FastTx) (alloc : Bool) (skb : QueuedSkb) :
    Option QueuedSkb :=
  if skb.rateCtrlProbe then none
  else if skb.amsdu then some skb
  else if skb.headroom < 14 && !alloc then none
  else
    some { skb with
      hdr := setAmsduPresent (amsduOuter d f (insertSubframeHdr f skb.len skb.hdr))
      len := skb.len + 14
      headroom := (if skb.headroom < 14 then skb.headroom + 14 else skb.headroom) - 14
      amsdu := true }

/-- The smaller of two lengths, of which the second may be missing. -/
def capLen (len : ℕ) (cap : UInt16) : ℕ := if cap = 0 then len else min len cap.toNat

/-- What is checked before the head is touched: that there may be A-MSDUs, and that this one would not be
too long or of too many parts. -/
def amsduAllowed (env : AggEnv) (eth : EthFrame) (head : QueuedSkb) : Bool :=
  let maxAmsduLen := capLen (capLen env.maxAmsduLen.toNat env.maxRcAmsduLen) env.maxTidAmsduLen
  env.txAmsdu && !env.gso && !head.gso && 12 + eth.payload.length + head.len ≤ maxAmsduLen &&
    (env.maxSubframes = 0 || head.fragList.length + 2 ≤ env.maxSubframes) &&
    (env.maxFrags = 0 || 1 + env.nrFrags + head.nfrags ≤ env.maxFrags) && env.canAggregate

/-- The padding in front of a subframe that is appended. -/
def amsduPad (f : FastTx) (head : QueuedSkb) : ℕ := ((4 - ((head.len : ℤ) - f.hdrLen) % 4) % 4).toNat

/-- A frame with the subframe header and the padding in front of it. -/
def paddedSubframe (pad : ℕ) (eth : EthFrame) : List UInt8 :=
  let subframeLen := 12 + eth.payload.length - 6
  List.replicate pad 0 ++ (eth.dest.toList ++ (eth.source.toList ++ (Bytes.be16 subframeLen ++
    (rfc1042Header ++ eth.payload))))

/-- The rest of `ieee80211_amsdu_aggregate`: what becomes of the head, and whether the frame is
taken. `frag_tail` points into the head; if `ieee80211_amsdu_prepare_head` has moved it, the frame
is written to memory that is no part of it. -/
def amsduAggregate (d : SubIfData) (f : FastTx) (env : AggEnv) (eth : EthFrame) (head : QueuedSkb) :
    QueuedSkb × Bool :=
  if !amsduAllowed env eth head then (head, false)
  else
    match amsduPrepareHead d f env.allocHead head with
    | none => (head, false)
    | some head' =>
      if !env.allocPad then (head', false)
      else
        let moved := !head.amsdu && head.headroom < 14
        let skb := paddedSubframe (amsduPad f head') eth
        ({ head' with
          fragList := if moved then head'.fragList else head'.fragList ++ [skb]
          len := head'.len + skb.length
          nfrags := head'.nfrags + 1 + env.nrFrags
          frames := head'.frames ++ [eth] }, true)

/-! ### Steps -/

/-- A station's queues for a TID, by flow, and the header that is cached for it. -/
structure AmsduTxq where
  fastTx : Option FastTx := none
  /-- `flow->queue`. -/
  flows : ℕ → List QueuedSkb := fun _ => []

/-- What happens to the queues. -/
inductive AmsduOp
  /-- `ieee80211_check_fast_xmit`, in a state of the device. -/
  | checkFastXmit (s : Local) (ok : Bool) (j : StaId)
  /-- `ieee80211_xmit_fast`, on an interface. -/
  | xmitFast (env : AggEnv) (tx : TxEnv) (d : SubIfData) (eth : EthFrame)
  /-- A frame of the slow path is queued. -/
  | queueSlow (flow : ℕ) (h : Hdr) (headroom : ℕ)
  /-- A frame is taken out, or dropped. -/
  | remove (flow : ℕ) (n : ℕ)

/-- The queue of one flow changes. -/
def AmsduTxq.setFlow (s : AmsduTxq) (flow : ℕ) (queue : List QueuedSkb) : AmsduTxq :=
  { s with flows := Function.update s.flows flow queue }

/-- A frame of the fast path, to be queued. -/
def fastSkb (f : FastTx) (env : AggEnv) (eth : EthFrame) : QueuedSkb where
  hdr := f.build eth
  len := (f.build eth).len
  nfrags := 1 + env.nrFrags
  headroom := env.headroom
  gso := env.gso
  rateCtrlProbe := env.rateCtrlProbe
  cached := some f
  frames := [eth]

/-- `ieee80211_xmit_fast`, up to the queue: the frame is appended to the last one of its flow, or queued
behind it. -/
def amsduXmitFast (s : AmsduTxq) (f : FastTx) (env : AggEnv) (d : SubIfData) (eth : EthFrame) :
    AmsduTxq :=
  let queue := s.flows env.flow
  let enqueue (queue : List QueuedSkb) : AmsduTxq :=
    s.setFlow env.flow (if env.queued then queue ++ [fastSkb f env eth] else queue)
  match queue.getLast? with
  | none => enqueue queue
  | some head =>
    if !fastQos f.hdr.frameControl then enqueue queue
    else
      let (head, taken) := amsduAggregate d f env eth head
      let queue := queue.dropLast ++ [head]
      if taken then s.setFlow env.flow queue else enqueue queue

/-- One step. A frame shorter than an Ethernet header does not come this far, and one that
`ieee80211_xmit_fast` does not accept goes another way. -/
def amsduStep (s : AmsduTxq) : AmsduOp → Option (AmsduTxq × List Empty)
  | .checkFastXmit l ok j => some ({ s with fastTx := checkFastXmit l ok j }, [])
  | .xmitFast env tx d eth =>
    match s.fastTx with
    | none => some (s, [])
    | some f =>
      if 2 ≤ eth.payload.length && xmitFastAccepts tx f eth then
        some (amsduXmitFast s f env d eth, [])
      else some (s, [])
  | .queueSlow flow h headroom =>
    some (s.setFlow flow (s.flows flow ++ [{ hdr := h, len := h.len, headroom := headroom }]), [])
  | .remove flow n => some (s.setFlow flow ((s.flows flow).eraseIdx n), [])

end Mac80211
