import Mac80211.Wpa.Encrypt
import Mac80211.Randomizer.Rewrite

/-!
# Transmit handlers

`tx.c`: the early handlers look for the station, buffer the frame for a sleeping receiver and select
a key; the late ones, which may run long after, rotate addresses, assign the sequence number,
fragment and encrypt. The verdicts of handlers that depend on nothing in the model are part of a
`TxEnv`. A frame that is kept comes back through `ieee80211_add_pending_skb`.

## Main definitions

* `TxEnv`, `invokeTxHandlersEarly`, `invokeTxHandlersLate`
-/

namespace Mac80211

/-- `ieee80211_tx_result`. -/
inductive TxResult
  | txContinue
  | txDrop
  | txQueued
deriving DecidableEq

/-- `struct ieee80211_tx_data`, without the frame. -/
structure TxData where
  sdata : SdataId
  sta : Option StaId := none
  key : Option KeyId := none
  /-- `IEEE80211_TX_PS_BUFFERED`. -/
  psBuffered : Bool := false
  /-- `IEEE80211_TX_NO_SEQNO`. -/
  noSeqno : Bool := false

/-- What happens around the transmission of one frame. -/
structure TxEnv where
  /-- Around a rotation. -/
  gen : GenEnv := {}
  /-- `insert_entry` found memory. -/
  insert : Bool := true
  /-- Around the encryption. -/
  encrypt : EncryptEnv := {}
  /-- `ieee80211_tx_prep_agg` kept the frame. -/
  aggQueued : Bool := false
  /-- There is an aggregation session: `IEEE80211_TX_CTL_AMPDU`, `IEEE80211_TXQ_AMPDU`. -/
  ampdu : Bool := false
  /-- `ieee80211_tx_h_check_assoc` lets the frame pass. -/
  checkAssoc : Bool := true
  /-- The station is asleep, and the frame is one to be kept for it. -/
  staPs : Bool := false
  /-- The frame is one of the control port protocol. -/
  portProtocol : Bool := false
  /-- `control_port_no_encrypt`. -/
  portNoEncrypt : Bool := false
  /-- `ieee80211_tx_h_rate_ctrl` found a rate. -/
  rateCtrl : Bool := true
  /-- `ieee80211_tx_h_michael_mic_add` found room. -/
  michaelMicAdd : Bool := true
  /-- `dev_alloc_skb` found memory for the fragments. -/
  fragAlloc : Bool := true
  /-- `ieee80211_duration`. -/
  duration : TxSkb → UInt16 := fun skb => skb.hdr.durationId
  /-- `vif.hw_queue[skb_get_queue_mapping(skb)]`. -/
  hwQueue : ℕ := 0
  /-- The interface has a channel context. -/
  chanctx : Bool := true
  /-- `SKBTX_WIFI_STATUS`: the socket wants to know what became of the frame. -/
  wifiStatus : Bool := false
  /-- An aggregation session for the TID is being set up, and not operational yet. -/
  ampduStarting : Bool := false
  /-- `WLAN_STA_TDLS_PEER_AUTH` of a TDLS peer. -/
  tdlsPeerAuth : Bool := true
  /-- `ieee80211_is_tdls_setup`. -/
  tdlsSetup : Bool := false

/-! ### Looking for the station -/

/-- `sta_info_hash_lookup`: the stations with an address, the newest first. -/
def staInfoHashLookup (s : Local) (addr : Mac) : List StaId :=
  s.staList.reverse.filter fun j => (s.sta j).addr = addr

/-- `sta_info_get`. -/
def staInfoGet (s : Local) (i : SdataId) (addr : Mac) : Option StaId :=
  (staInfoHashLookup s addr).find? fun j => (s.sta j).sdata = i

/-- `sta_info_get_bss`. -/
def staInfoGetBss (s : Local) (i : SdataId) (addr : Mac) : Option StaId :=
  (staInfoHashLookup s addr).find? fun j => (s.sta j).sdata = i ∨
    (s.sdataOf j).bss.isSome ∧ (s.sdataOf j).bss = (s.sdata i).bss

/-- The station a frame is for, where the caller does not know it. `none` drops the frame. -/
def txPrepareSta (s : Local) (i : SdataId) (env : TxEnv) (skb : TxSkb) : Option (Option StaId) :=
  let d := s.sdata i
  let known : Option (Option StaId) :=
    if d.type = .apVlan then
      if d.vlanSta.isNone && d.use4addr then none else some d.vlanSta
    else if skb.info.injected || env.portProtocol then
      some (staInfoGetBss s i skb.hdr.addr1)
    else some none
  known.map fun sta =>
    if sta.isNone && !isMulticastEtherAddr skb.hdr.addr1 then staInfoGet s i skb.hdr.addr1 else sta

/-- `ieee80211_tx_prepare`. The caller gives the station, or leaves it open. `none` is `TX_DROP` or
`TX_QUEUED`. -/
def txPrepare (s : Local) (i : SdataId) (sta : Option StaId) (env : TxEnv) (skb : TxSkb) :
    Option (TxData × TxSkb) :=
  let found := if sta.isSome then some sta else txPrepareSta s i env skb
  match found with
  | none => none
  | some sta =>
    let qos := isDataQos skb.hdr.frameControl && !isQosNullfunc skb.hdr.frameControl
    if sta.isSome && qos && env.aggQueued then none
    else
      let ampdu := skb.info.ampdu || sta.isSome && qos && env.ampdu
      let whole := isMulticastEtherAddr skb.hdr.addr1 ||
        skb.hdr.len + FCS_LEN ≤ s.fragThreshold || ampdu
      some ({ sdata := i, sta := sta }, { skb with info := { skb.info with
        needTxprocessing := false, ampdu := ampdu, dontfrag := skb.info.dontfrag || whole } })

/-! ### Early handlers -/

/-- The interface whose `bc_buf` a group addressed frame may go to. -/
def psSdata (s : Local) (i : SdataId) : Option SdataId :=
  match (s.sdata i).type with
  | .ap | .apVlan => (s.sdata i).bss
  | .meshPoint => some i
  | _ => none

/-- `ieee80211_tx_h_multicast_ps_buf`. -/
def txHMulticastPsBuf (s : Local) (tx : TxData) (skb : TxSkb) : Local × TxSkb × TxResult :=
  match psSdata s tx.sdata with
  | none => (s, skb, .txContinue)
  | some b =>
    let ps := s.sdata b
    if hasOrder skb.hdr.frameControl || isProbeReq skb.hdr.frameControl then (s, skb, .txContinue)
    else if ps.numStaPs = 0 && ps.bcBuf.isEmpty then (s, skb, .txContinue)
    else
      let skb := { skb with info := { skb.info with sendAfterDtim := true } }
      if !s.hostBroadcastPsBuffering then (s, skb, .txContinue)
      else
        let old := if AP_MAX_BC_BUFFER ≤ ps.bcBuf.length then ps.bcBuf.tail else ps.bcBuf
        (s.updSdata b fun d => { d with bcBuf := old ++ [skb] }, skb, .txQueued)

/-- `ieee80211_tx_h_ps_buf`. -/
def txHPsBuf (env : TxEnv) (s : Local) (tx : TxData) (skb : TxSkb) : Local × TxSkb × TxResult :=
  if tx.psBuffered then (s, skb, .txContinue)
  else if isMulticastEtherAddr skb.hdr.addr1 then txHMulticastPsBuf s tx skb
  else if tx.sta.isSome && env.staPs && !skb.info.noPsBuffer then (s, skb, .txQueued)
  else (s, skb, .txContinue)

/-- `ieee80211_tx_h_check_control_port_protocol`. -/
def txHCheckControlPortProtocol (env : TxEnv) (skb : TxSkb) : TxSkb :=
  if env.portProtocol then { skb with info := { skb.info with
    portCtrlProto := true, dontEncrypt := skb.info.dontEncrypt || env.portNoEncrypt } }
  else skb

/-- `ieee80211_use_mfp`. -/
def useMfp (s : Local) (sta : Option StaId) (h : Hdr) : Bool :=
  isMgmt h.frameControl && (sta.any fun j => (s.sta j).mfp) && h.isRobustMgmtFrame

/-- The first key there is for a frame, in the order of `ieee80211_tx_h_select_key`. -/
def selectKey (s : Local) (tx : TxData) (h : Hdr) : Option KeyId :=
  let d := s.sdata tx.sdata
  let multicast := isMulticastEtherAddr h.addr1
  tx.sta.bind s.ptkOf
    <|> (if h.isGroupPrivacyAction then d.defaultMulticastKey else none)
    <|> (if isMgmt h.frameControl && multicast && h.isRobustMgmtFrame then d.defaultMgmtKey else none)
    <|> (if multicast then d.defaultMulticastKey else d.defaultUnicastKey)

/-- Frames a cipher does not cover are sent in the clear. -/
def Cipher.covers (c : Cipher) (s : Local) (sta : Option StaId) (h : Hdr) : Bool :=
  match c with
  | wep40 | wep104 | tkip => isDataPresent h.frameControl
  | ccmp | ccmp256 | gcmp | gcmp256 =>
    isDataPresent h.frameControl || useMfp s sta h || h.isGroupPrivacyAction
  | aesCmac | bipCmac256 | bipGmac128 | bipGmac256 => isMgmt h.frameControl
  | other => true

/-- `skip_hw`: management frames that the hardware cannot encrypt. -/
def Key.skipHw (key : Key) (fc : UInt16) : Bool :=
  key.cipher.isCcmpOrGcmp && key.swMgmtTx && isMgmt fc

/-- `ieee80211_tx_h_select_key`. `none` is `TX_DROP`. -/
def txHSelectKey (s : Local) (tx : TxData) (skb : TxSkb) : Option (TxData × TxSkb) :=
  let h := skb.hdr
  if skb.info.dontEncrypt then some ({ tx with key := none }, skb)
  else
    match selectKey s tx h with
    | some k =>
      let key := s.keys k
      if !key.cipher.covers s tx.sta h then some ({ tx with key := none }, skb)
      else if key.tainted && !isDeauth h.frameControl then none
      else
        let hwKey := if !key.skipHw h.frameControl && key.uploadedToHardware then some k
          else skb.info.hwKey
        some ({ tx with key := some k }, { skb with info := { skb.info with hwKey := hwKey } })
    | none =>
      if !isMgmt h.frameControl && tx.sta.any fun j => (s.sta j).usesEncryption then none
      else some ({ tx with key := none }, skb)

/-- `invoke_tx_handlers_early`. Without a frame, it was dropped or is kept somewhere. -/
def invokeTxHandlersEarly (env : TxEnv) (s : Local) (tx : TxData) (skb : TxSkb) :
    Local × Option (TxData × TxSkb) :=
  if !env.checkAssoc then (s, none)
  else
    match txHPsBuf env s tx skb with
    | (s, skb, .txContinue) =>
      match txHSelectKey s tx (txHCheckControlPortProtocol env skb) with
      | none => (s, none)
      | some (tx, skb) => if env.rateCtrl then (s, some (tx, skb)) else (s, none)
    | (s, _, _) => (s, none)

/-! ### Late handlers -/

/-- `ieee80211_tx_next_seq`. -/
def txNextSeq (s : Local) (j : StaId) (tid : ℕ) : Local × UInt16 :=
  let seq := (s.sta j).tidSeq tid
  (s.updSta j fun t => { t with
    tidSeq := Function.update t.tidSeq tid ((seq + 0x10) &&& SCTL_SEQ) }, seq)

/-- The next number of the interface's own counter. -/
def sdataNextSeq (s : Local) (i : SdataId) : Local × UInt16 :=
  (s.updSdata i fun d => { d with sequenceNumber := d.sequenceNumber + 0x10 },
    (s.sdata i).sequenceNumber)

/-- `hdr->seq_ctrl = ...`. -/
def TxSkb.setSeq (skb : TxSkb) (seq : UInt16) : TxSkb :=
  { skb with hdr := { skb.hdr with seqCtrl := seq } }

/-- `ieee80211_tx_h_sequence`. -/
def txHSequence (s : Local) (tx : TxData) (skb : TxSkb) : Local × TxSkb :=
  let fc := skb.hdr.frameControl
  if (s.sdata skb.info.vif).type = .monitor || isCtl fc || hdrlen fc < 24 || isQosNullfunc fc then
    (s, skb)
  else if !isDataQos fc || isMulticastEtherAddr skb.hdr.addr1 then
    if tx.noSeqno then (s, skb)
    else
      let (s, seq) := sdataNextSeq s tx.sdata
      (s, skb.setSeq seq)
  else
    match tx.sta with
    | none => (s, skb)
    | some j =>
      let (s, seq) := txNextSeq s j skb.hdr.getTid.toNat
      (s, skb.setSeq seq)

/-- One fragment: number `n`, with this part of the body. -/
def TxSkb.fragment (skb : TxSkb) (n : ℕ) (more : Bool) (part : List UInt8) : TxSkb :=
  let frag := skb.withBody part
  { frag with hdr := { frag.hdr with
    frameControl := if more then skb.hdr.frameControl ||| FCTL_MOREFRAGS
      else skb.hdr.frameControl &&& ~~~FCTL_MOREFRAGS
    seqCtrl := skb.hdr.seqCtrl ||| (UInt16.ofNat n &&& SCTL_FRAG) } }

/-- The fragments, numbered from `n`. -/
def TxSkb.fragments (skb : TxSkb) : ℕ → List (List UInt8) → List TxSkb
  | _, [] => []
  | n, part :: parts => skb.fragment n (!parts.isEmpty) part :: skb.fragments (n + 1) parts

/-- `ieee80211_tx_h_fragment`. `none` is `TX_DROP`. -/
def txHFragment (env : TxEnv) (s : Local) (skb : TxSkb) : Option (List TxSkb) :=
  if skb.info.dontfrag || s.supportsTxFrag then some [skb]
  else if skb.info.ampdu then none
  else if skb.hdr.len + FCS_LEN ≤ s.fragThreshold then none
  else if !env.fragAlloc then none
  else
    let perFragm := s.fragThreshold - hdrlen skb.hdr.frameControl - FCS_LEN
    some (skb.fragments 0 (skb.hdr.body.toChunks perFragm))

/-- `ieee80211_tx_h_encrypt`. -/
def txHEncrypt (C : Crypto) (env : TxEnv) (s : Local) (tx : TxData) (skbs : List TxSkb) :
    Local × Option (List TxSkb) :=
  match tx.key with
  | none => (s, some skbs)
  | some k => cryptoEncrypt C env.encrypt k s skbs

/-- `ieee80211_tx_h_calculate_duration`. -/
def txHCalculateDuration (env : TxEnv) (skb : TxSkb) : TxSkb :=
  { skb with hdr := { skb.hdr with durationId := env.duration skb } }

/-- `invoke_tx_handlers_late`. Without frames, the frame was dropped. -/
def invokeTxHandlersLate (sha1 : List UInt8 → Vector UInt8 20) (C : Crypto) (env : TxEnv) (s : Local)
    (tx : TxData) (skb : TxSkb) : Option (Local × Option (List TxSkb)) :=
  if skb.info.retransmission then some (s, some [skb])
  else
    (handleRandomMac sha1 env.gen env.insert tx.sta s).map fun s =>
      if !env.michaelMicAdd then (s, none)
      else
        let (s, skb) := txHSequence s tx skb
        match txHFragment env s skb with
        | none => (s, none)
        | some skbs =>
          let (s, skbs) := txHEncrypt C env s tx skbs
          (s, skbs.map (List.map (txHCalculateDuration env)))

end Mac80211
