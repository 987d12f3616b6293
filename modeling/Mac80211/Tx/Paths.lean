import Mac80211.Tx.Handlers

/-!
# Transmit paths

`tx.c`, from `ieee80211_xmit`, `ieee80211_xmit_fast` or the pending queue to the driver:
`ieee80211_tx_frags`, where base addresses are replaced frame by frame, or `ieee80211_tx_dequeue`,
or `ieee80211_get_buffered_bc`. Every frame the driver gets is written to the history. Where the
source loops until it has a frame, or until a queue is empty, one round is one call here: between
two rounds the locks are released.

## Main definitions

* `txFrags`, `ieee80211Xmit`, `xmitFast`, `txDequeue`
-/

namespace Mac80211

/-! ### To the driver -/

/-- `IEEE80211_QUEUE_STOP_REASON_OFFCHANNEL`. -/
def STOP_REASON_OFFCHANNEL : ℕ := 6

/-- The queue is stopped, or frames that wait for it come first. -/
def queueBlocked (s : Local) (txpending : Bool) (q : ℕ) : Bool :=
  s.queueStopReasons q ≠ 0 || !txpending && !(s.pending q).isEmpty

/-- Stopped for a reason other than off-channel operation. -/
def stoppedOnChannel (s : Local) (q : ℕ) : Bool :=
  s.queueStopReasons q ≠ 0 && s.queueStopReasons q ≠ 2 ^ STOP_REASON_OFFCHANNEL

/-- Put frames in front of a pending queue, or behind it. -/
def park (s : Local) (txpending : Bool) (q : ℕ) (skbs : List TxSkb) : Local :=
  let queue := if txpending then skbs ++ s.pending q else s.pending q ++ skbs
  { s with pending := Function.update s.pending q queue }

/-- `drv_tx`, with the addresses replaced. -/
def drvTx (s : Local) (vif : SdataId) (sta : Option StaId) (skb : TxSkb) : Local :=
  s.logged (.handed .txFrags vif sta
    { skb with hdr := macAddrChangeHdrTx s vif skb.hdr, info := { skb.info with vif := vif } })

/-- `ieee80211_tx_frags`. The interface is read when the addresses are replaced, so a null pointer
ends badly. -/
def txFrags (vif : Option SdataId) (sta : Option StaId) (txpending : Bool) :
    List TxSkb → Local → Option Local
  | [], s => some s
  | skb :: skbs, s =>
    let q := skb.info.hwQueue
    if queueBlocked s txpending q && !skb.info.offchanTxOk then
      some (park s txpending q (skb :: skbs))
    -- Drop off-channel frames if queues are stopped for any reason other than off-channel operation
    else if skb.info.offchanTxOk && stoppedOnChannel s q then some s
    else
      match vif with
      | none => none
      | some v => txFrags vif sta txpending skbs (drvTx s v sta skb)

/-- The interface the driver knows. The outer `none` drops the frame, the inner one is a null
pointer. -/
def driverVif (s : Local) (i : SdataId) : Option (Option SdataId) :=
  let d := s.sdata i
  match d.type with
  | .monitor =>
    if d.monitorActive then some (some i)
    else if s.monitorSdata.isNone && s.queueControl then none
    else some s.monitorSdata
  | .apVlan => some d.bss
  | _ => some (some i)

/-- `__ieee80211_tx`. -/
def ieee80211Tx' (sta : Option StaId) (txpending : Bool) (skbs : List TxSkb) (s : Local) :
    Option Local :=
  match skbs with
  | [] => some s
  | skb :: _ =>
    let sta := sta.filter fun j => (s.sta j).uploaded
    match driverVif s skb.info.vif with
    | none => some s
    | some vif => txFrags vif sta txpending skbs s

/-! ### Intermediate queues -/

/-- `ieee80211_is_bufferable_mmpdu`. -/
def isBufferableMmpdu (fc : UInt16) : Bool :=
  isMgmt fc && (isAction fc || isDisassoc fc || isDeauth fc)

/-- `ieee80211_get_txq`. -/
def getTxq (s : Local) (vif : SdataId) (sta : Option StaId) (skb : TxSkb) : Option Txq :=
  let fc := skb.hdr.frameControl
  if skb.info.sendAfterDtim || skb.info.psResponse then none
  else if !isDataPresent fc then
    match sta with
    | none => none
    | some j =>
      if (!isMgmt fc || isBufferableMmpdu fc || (s.sdata vif).type = .station) &&
          (s.sta j).uploaded && s.staMmpduTxq then
        some ⟨vif, sta, NUM_TIDS⟩
      else none
  else
    match sta with
    | some j => if (s.sta j).uploaded then some ⟨vif, sta, skb.priority % NUM_TIDS⟩ else none
    | none => some ⟨vif, none, 0⟩

/-- `ieee80211_queue_skb`: the state with the frame queued, if there is a queue for it. -/
def queueSkb (s : Local) (i : SdataId) (sta : Option StaId) (skb : TxSkb) : Option Local :=
  let d := s.sdata i
  if !s.wakeTxQueue || d.type = .monitor then none
  else
    let vif := if d.type = .apVlan then d.bss.getD i else i
    (getTxq s vif sta skb).map fun q =>
      { s with txq := Function.update s.txq q (s.txq q ++ [skb]) }

/-! ### The slow path -/

section

variable (sha1 : List UInt8 → Vector UInt8 20) (C : Crypto)

/-- `ieee80211_tx`. -/
def ieee80211Tx (env : TxEnv) (i : SdataId) (sta : Option StaId) (skb : TxSkb) (txpending : Bool)
    (noSeqno : Bool) (s : Local) : Option Local :=
  match txPrepare s i sta env skb with
  | none => some s
  | some (tx, skb) =>
    let tx := { tx with noSeqno := noSeqno }
    let skb := { skb with info := { skb.info with hwQueue := env.hwQueue } }
    match invokeTxHandlersEarly env s tx skb with
    | (s, none) => some s
    | (s, some (tx, skb)) =>
      match queueSkb s i tx.sta skb with
      | some s => some s
      | none =>
        match invokeTxHandlersLate sha1 C env s tx skb with
        | none => none
        | some (s, none) => some s
        | some (s, some skbs) => ieee80211Tx' tx.sta txpending skbs s

/-- `ieee80211_set_qos_hdr`: the TID, and no acknowledgement for group addressed frames. -/
def setQosHdr (skb : TxSkb) : TxSkb :=
  if isDataQos skb.hdr.frameControl then
    let off := if hasA4 skb.hdr.frameControl then 6 else 0
    let flags := (skb.hdr.byte off &&& ~~~0x6f) |||
      if isMulticastEtherAddr skb.hdr.addr1 then 0x20 else 0
    { skb with hdr := { skb.hdr with
      rest := Bytes.memcpyAt skb.hdr.rest off [flags ||| UInt8.ofNat (skb.priority % 8), 0] } }
  else skb

/-- `ieee80211_xmit`. -/
def ieee80211Xmit (env : TxEnv) (i : SdataId) (sta : Option StaId) (skb : TxSkb) (noSeqno : Bool)
    (s : Local) : Option Local :=
  ieee80211Tx sha1 C env i sta
    (setQosHdr { skb with info := { skb.info with vif := i } }) false noSeqno s

/-- `ieee80211_tx_pending_skb`. -/
def txPendingSkb (env : TxEnv) (skb : TxSkb) (s : Local) : Option Local :=
  if skb.info.needTxprocessing then
    if env.chanctx then ieee80211Tx sha1 C env skb.info.vif none skb true false s else some s
  else ieee80211Tx' (staInfoGet s skb.info.vif skb.hdr.addr1) true [skb] s

/-- One round of `ieee80211_tx_pending`. -/
def txPending (env : TxEnv) (q : ℕ) (s : Local) : Option Local :=
  if s.queueStopReasons q ≠ 0 then some s
  else
    match s.pending q with
    | [] => some s
    | skb :: skbs =>
      txPendingSkb sha1 C env skb { s with pending := Function.update s.pending q skbs }

end

/-! ### The fast path -/

/-- An Ethernet frame, from the EtherType on in `payload`. -/
structure EthFrame where
  /-- `h_dest`. -/
  dest : Mac
  /-- `h_source`. -/
  source : Mac
  /-- The rest of the frame. -/
  payload : List UInt8
  priority : ℕ := 0
deriving DecidableEq

/-- `rfc1042_header`. -/
def rfc1042Header : List UInt8 := [0xaa, 0xaa, 0x03, 0x00, 0x00, 0x00]

/-- `bridge_tunnel_header`. -/
def bridgeTunnelHeader : List UInt8 := [0xaa, 0xaa, 0x03, 0x00, 0x00, 0xf8]

/-- `ETH_P_802_3_MIN`: smaller values are lengths. -/
def ETH_P_802_3_MIN : ℕ := 0x0600

/-- `ETH_P_AARP`. -/
def ETH_P_AARP : ℕ := 0x80f3

/-- `ETH_P_IPX`. -/
def ETH_P_IPX : ℕ := 0x8137

namespace EthFrame

/-- `h_proto`. -/
def etherType (eth : EthFrame) : ℕ :=
  (eth.payload.getD 0 0).toNat * 256 + (eth.payload.getD 1 0).toNat

/-- The encapsulated payload: AARP and IPX go through a bridge tunnel, a length field is dropped. -/
def encaps (eth : EthFrame) : List UInt8 :=
  if eth.etherType = 0x80f3 || eth.etherType = 0x8137 then bridgeTunnelHeader ++ eth.payload
  else if ETH_P_802_3_MIN ≤ eth.etherType then rfc1042Header ++ eth.payload
  else eth.payload.drop 2

end EthFrame

/-- The fixed addresses and the places of the others, by interface type. -/
def fastTxAddrs (d : SubIfData) (sta : StaInfo) : Option (Hdr × Bool × ℕ) :=
  let hdr (fc : UInt16) (addr1 addr2 addr3 : Mac) (four : Bool) : Hdr :=
    ⟨FTYPE_DATA ||| fc, 0, addr1, addr2, addr3, 0, if four then List.replicate 6 0 else []⟩
  let none6 : Mac := Vector.replicate 6 0
  let fromAp := some (hdr FCTL_FROMDS none6 d.addr none6 false, false, 3)
  match d.type with
  -- DA SA BSSID
  | .adhoc => some (hdr 0 none6 none6 d.bssid false, false, 2)
  | .station =>
    if sta.tdlsPeer then some (hdr 0 none6 none6 d.bssid false, false, 2)
    -- RA TA DA SA
    else if d.use4addr then
      some (hdr (FCTL_FROMDS ||| FCTL_TODS) d.bssid d.addr none6 true, true, 4)
    -- BSSID SA DA
    else some (hdr FCTL_TODS d.bssid none6 none6 false, true, 2)
  | .apVlan =>
    if d.use4addr then some (hdr (FCTL_FROMDS ||| FCTL_TODS) sta.addr d.addr none6 true, true, 4)
    else fromAp
  -- DA BSSID SA
  | .ap => fromAp
  | _ => none

/-- `IEEE80211_FAST_XMIT_MAX_IV`. -/
def FAST_XMIT_MAX_IV : ℕ := 18

/-- Which key, whether its packet numbers are filled in, and the room for the cipher header. The
outer `none` rules the fast path out. -/
def fastTxKey (s : Local) (j : StaId) : Option (Option KeyId × Bool × ℕ) :=
  match s.ptkOf j <|> (s.sdataOf j).defaultUnicastKey with
  | none => some (none, false, 0)
  | some k =>
    let key := s.keys k
    if !key.uploadedToHardware || key.tainted then none
    else
      match key.cipher with
      | .ccmp | .ccmp256 | .gcmp | .gcmp256 =>
        some (some k, key.generateIv, if key.generateIv || key.putIvSpace then CCMP_HDR_LEN else 0)
      | .tkip => if key.generateIv then none else some (some k, false, if key.putIvSpace then 8 else 0)
      | .wep40 | .wep104 =>
        if key.generateIv then none else some (some k, false, if key.putIvSpace then 4 else 0)
      | .aesCmac | .bipCmac256 | .bipGmac128 | .bipGmac256 => none
      | .other =>
        if key.generateIv then none
        else if !key.cipherScheme || !key.putIvSpace then some (some k, false, 0)
        else if FAST_XMIT_MAX_IV < key.ivLen then none
        else some (some k, false, key.ivLen)

/-- `ieee80211_check_fast_xmit`. `ok`: the checks of hardware and power save flags, a channel
context, memory, and no TKIP key that leaves the MIC to the hardware. -/
def checkFastXmit (s : Local) (ok : Bool) (j : StaId) : Option FastTx :=
  let sta := s.sta j
  if !ok || sta.staState ≠ .authorized || s.fragThreshold ≠ 2 ^ 32 - 1 && !s.supportsTxFrag then none
  else
    match fastTxAddrs (s.sdata sta.sdata) sta, fastTxKey s j with
    | some (hdr, daIsAddr3, saField), some (key, pnOffs, ivLen) =>
      let qos := if sta.wme then STYPE_QOS_DATA else 0
      let protect := if key.isSome then FCTL_PROTECTED else 0
      some {
        hdr := { hdr with
          frameControl := hdr.frameControl ||| qos ||| protect
          rest := hdr.rest ++ (if sta.wme then [0, 0] else []) ++ List.replicate ivLen 0 ++
            rfc1042Header }
        daIsAddr3 := daIsAddr3
        saField := saField
        key := key
        pnOffs := pnOffs }
    | _, _ => none

/-- `hdr->frame_control & IEEE80211_STYPE_QOS_DATA`. -/
def fastQos (fc : UInt16) : Bool := fc &&& STYPE_QOS_DATA ≠ 0

/-- The header `ieee80211_xmit_fast` puts in front of a frame. -/
def FastTx.build (f : FastTx) (eth : EthFrame) : Hdr :=
  let h := f.hdr
  let h := if f.daIsAddr3 then { h with addr3 := eth.dest } else { h with addr1 := eth.dest }
  let h := match f.saField with
    | 2 => { h with addr2 := eth.source }
    | 3 => { h with addr3 := eth.source }
    | _ => h.setAddr4 eth.source
  let h := { h with rest := h.rest ++ eth.payload }
  if fastQos h.frameControl then
    let off := if hasA4 h.frameControl then 6 else 0
    { h with rest := Bytes.memcpyAt h.rest off [UInt8.ofNat (eth.priority % 8)] }
  else h

/-- The sequence number of the fast path: a group address is no exception here. -/
def fastNextSeq (s : Local) (i : SdataId) (j : StaId) (skb : TxSkb) : Local × UInt16 :=
  if fastQos skb.hdr.frameControl then txNextSeq s j (skb.priority % 8) else sdataNextSeq s i

/-- Fill in the cipher header at `pn_offs`. The reserved byte is not written. -/
def TxSkb.putIv (skb : TxSkb) (iv : List UInt8) : TxSkb :=
  let off := hdrlen skb.hdr.frameControl - 24
  { skb with hdr := { skb.hdr with
    rest := Bytes.memcpyAt (Bytes.memcpyAt skb.hdr.rest off (iv.take 2)) (off + 3) (iv.drop 3) } }

/-- `ieee80211_xmit_fast_finish`. -/
def xmitFastFinish (s : Local) (i : SdataId) (j : StaId) (pnOffs : Bool) (key : Option KeyId)
    (hwQueue : ℕ) (skb : TxSkb) : Local × TxSkb :=
  let skb := { skb with info := { skb.info with
    hwKey := key <|> skb.info.hwKey, hwQueue := hwQueue } }
  let (s, seq) := fastNextSeq s i j skb
  let skb := skb.setSeq seq
  match key with
  | some k =>
    if pnOffs && (s.keys k).cipher.isCcmpOrGcmp then
      let (s, pn) := s.incTxPn k
      (s, skb.putIv (pn2hdr pn (s.keys k).keyidx))
    else (s, skb)
  | none => (s, skb)

/-- What `ieee80211_xmit_fast` refuses: the control port protocol, other encapsulations, frames
whose fate the socket wants to know, and sessions not yet operational. -/
def xmitFastAccepts (env : TxEnv) (f : FastTx) (eth : EthFrame) : Bool :=
  !env.portProtocol && ETH_P_802_3_MIN ≤ eth.etherType && !env.wifiStatus &&
    !(fastQos f.hdr.frameControl && env.ampduStarting)

/-- `ieee80211_xmit_fast`, on a frame that it accepts. -/
def xmitFast (env : TxEnv) (i : SdataId) (j : StaId) (f : FastTx) (eth : EthFrame) (s : Local) :
    Option Local :=
  let skb : TxSkb := {
    hdr := f.build eth
    info := { vif := i, dontfrag := true, ampdu := env.ampdu, fastXmit := true }
    priority := eth.priority }
  if !env.rateCtrl then some s
  else
    match queueSkb s i (some j) skb with
    | some s => some s
    | none =>
      let (s, skb) := xmitFastFinish s i j f.pnOffs f.key env.hwQueue skb
      let vif := if (s.sdata i).type = .apVlan then (s.sdata i).bss else some i
      txFrags vif (some j) false [skb] s

/-! ### From the network stack -/

/-- `ieee80211_lookup_ra_sta`. The outer `none` drops the frame. -/
def lookupRaSta (env : TxEnv) (s : Local) (i : SdataId) (eth : EthFrame) : Option (Option StaId) :=
  let d := s.sdata i
  let byDest := if isMulticastEtherAddr eth.dest then some none
    else some (staInfoGetBss s i eth.dest)
  let ap := (staInfoGet s i d.bssid).map some
  match d.type with
  | .apVlan => if d.vlanSta.isSome then some d.vlanSta else if d.use4addr then none else byDest
  | .ap | .adhoc => byDest
  | .meshPoint => some none
  | .station =>
    match (staInfoGet s i eth.dest).filter fun j => (s.sta j).tdlsPeer with
    | some j => if env.tdlsPeerAuth then some (some j) else if env.tdlsSetup then ap else none
    | none => ap
  | _ => none

/-- The flags and the addresses `ieee80211_build_hdr` puts in, by interface type. -/
def buildAddrs (env : TxEnv) (s : Local) (i : SdataId) (sta : Option StaId) (eth : EthFrame) :
    Option Hdr :=
  let d := s.sdata i
  let hdr (fc : UInt16) (addr1 addr2 addr3 : Mac) (addr4 : List UInt8) : Option Hdr :=
    some ⟨FTYPE_DATA ||| fc, 0, addr1, addr2, addr3, 0, addr4⟩
  -- DA BSSID SA
  let fromAp := hdr FCTL_FROMDS eth.dest d.addr eth.source []
  match d.type with
  | .apVlan =>
    if d.use4addr then
      match sta with
      | none => none
      -- RA TA DA SA
      | some j => hdr (FCTL_FROMDS ||| FCTL_TODS) (s.sta j).addr d.addr eth.dest eth.source.toList
    else fromAp
  | .ap => fromAp
  | .station =>
    -- DA SA BSSID
    if sta.any fun j => (s.sta j).tdlsPeer then hdr 0 eth.dest eth.source d.bssid []
    else if d.use4addr && !env.portProtocol then
      hdr (FCTL_FROMDS ||| FCTL_TODS) d.bssid d.addr eth.dest eth.source.toList
    -- BSSID SA DA
    else hdr FCTL_TODS d.bssid eth.source eth.dest []
  | .adhoc => hdr 0 eth.dest eth.source d.bssid []
  | _ => none

/-- `ieee80211_build_hdr`. -/
def buildHdr (env : TxEnv) (s : Local) (i : SdataId) (sta : Option StaId) (eth : EthFrame) :
    Option TxSkb :=
  if !env.chanctx then none
  else
    (buildAddrs env s i sta eth).bind fun h =>
      let wme := sta.any fun j => (s.sta j).wme
      let authorized := sta.any fun j => (s.sta j).staState = .authorized
      let eapol := env.portProtocol && (s.sdata i).addr = eth.source
      if !isMulticastEtherAddr h.addr1 && !authorized && !eapol then none
      else
        some {
          hdr := { h with
            frameControl := if wme then h.frameControl ||| STYPE_QOS_DATA else h.frameControl
            rest := h.rest ++ (if wme then [0, 0] else []) ++ eth.encaps }
          priority := eth.priority }

/-- `__ieee80211_subif_start_xmit`. -/
def subifStartXmit (sha1 : List UInt8 → Vector UInt8 20) (C : Crypto) (env : TxEnv) (i : SdataId)
    (eth : EthFrame) (s : Local) : Option Local :=
  match lookupRaSta env s i eth with
  | none => some s
  | some sta =>
    match sta.bind fun j => (s.sta j).fastTx.map fun f => (j, f) with
    | some (j, f) =>
      if xmitFastAccepts env f eth then xmitFast env i j f eth s
      else slow sta
    | none => slow sta
where
  slow (sta : Option StaId) : Option Local :=
    match buildHdr env s i sta eth with
    | none => some s
    | some skb => ieee80211Xmit sha1 C env i sta skb false s

/-! ### What the driver takes -/

/-- A frame leaves through the return value. `vif` is where it comes from. -/
def handOver (path : Egress) (s : Local) (vif : SdataId) (sta : Option StaId) (skb : TxSkb) :
    Option Local :=
  match driverVif s vif with
  | none => some s
  | some v =>
    let v := v.getD vif
    some (s.logged (.handed path v sta { skb with info := { skb.info with vif := v } }))

/-- A data frame to a station that is not authorized, other than one of the control port protocol
from this interface. -/
def dropsUnauth (s : Local) (j : StaId) (skb : TxSkb) : Bool :=
  let d := s.sdata skb.info.vif
  isData skb.hdr.frameControl && d.type ≠ .meshPoint && !isMulticastEtherAddr skb.hdr.addr1 &&
    (s.sta j).staState ≠ .authorized && !(skb.info.portCtrlProto && d.addr = skb.hdr.addr2)

/-- Take frame number `n` out of an intermediate queue. -/
def Local.eraseTxq (s : Local) (q : Txq) (n : ℕ) : Local :=
  { s with txq := Function.update s.txq q ((s.txq q).eraseIdx n) }

/-- The next frame of `bc_buf`, and the interface it was sent on. -/
def takeBc (s : Local) (i : SdataId) : Option (Local × SdataId × TxSkb) :=
  match (s.sdata i).bcBuf with
  | [] => none
  | skb :: skbs =>
    let skb := if skbs.isEmpty then skb else
      { skb with hdr := { skb.hdr with frameControl := skb.hdr.frameControl ||| FCTL_MOREDATA } }
    let dev := if (s.sdata i).type = .ap then skb.info.vif else i
    some (s.updSdata i fun d => { d with bcBuf := skbs }, dev, skb)

section

variable (sha1 : List UInt8 → Vector UInt8 20) (C : Crypto)

/-- One round of `ieee80211_tx_dequeue` on frame number `n` of a queue: the queues are fair among
flows, and do not keep frames in order. -/
def txDequeue (env : TxEnv) (q : Txq) (n : ℕ) (s : Local) : Option Local :=
  match s.txqFrags q with
  | skb :: skbs =>
    some ({ s with txqFrags := Function.update s.txqFrags q skbs }.logged
      (.handed .txDequeue skb.info.vif q.sta skb))
  | [] =>
    match (s.txq q)[n]? with
    | none => some s
    | some skb =>
      let s := s.eraseTxq q n
      if q.sta.any fun j => dropsUnauth s j skb then some s
      else
        match txHSelectKey s { sdata := skb.info.vif, sta := q.sta } skb with
        | none => some s
        | some (tx, skb) =>
          let skb := { skb with info := { skb.info with ampdu := env.ampdu } }
          match skb.info.fastXmit, q.sta with
          | true, some j =>
            let pnOffs := tx.key.any fun k => (s.keys k).generateIv
            let (s, skb) := xmitFastFinish s (s.sta j).sdata j pnOffs tx.key env.hwQueue skb
            handOver .txDequeue s tx.sdata q.sta skb
          | true, none => none
          | false, _ =>
            match invokeTxHandlersLate sha1 C env s tx skb with
            | some (s, some (skb :: skbs)) =>
              handOver .txDequeue
                { s with txqFrags := Function.update s.txqFrags q (s.txqFrags q ++ skbs) }
                tx.sdata q.sta skb
            | r => r.map Prod.fst

/-- One round of `ieee80211_get_buffered_bc`, after a DTIM beacon. -/
def getBufferedBc (env : TxEnv) (i : SdataId) (s : Local) : Option Local :=
  if (s.sdata i).type ≠ .ap && (s.sdata i).type ≠ .meshPoint then some s
  else
    match takeBc s i with
    | none => some s
    | some (s, dev, skb) =>
      match txPrepare s dev none env skb with
      | none => some s
      | some (tx, skb) =>
        match invokeTxHandlersEarly env s { tx with psBuffered := true } skb with
        | (s, none) => some s
        | (s, some (tx, skb)) =>
          match invokeTxHandlersLate sha1 C env s tx skb with
          | some (s, some (skb :: _)) => some (s.logged (.handed .getBufferedBc i tx.sta skb))
          | r => r.map Prod.fst

end

end Mac80211
