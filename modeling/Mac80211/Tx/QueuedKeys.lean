import Mac80211.Tx.FastFrame

/-!
# Keys that change while a frame waits

`ieee80211_xmit_fast` lays a frame out for the key of that time, and `ieee80211_tx_dequeue` selects
the key it leaves with; all that is recomputed is whether, and where, a packet number is written.

## Main definitions

* `KeyFits`

## Main results

* `queued_frame_protectedOk_iff` — when what leaves is in order
-/

namespace Mac80211

open Machine Option

/-! ### Keys and layouts -/

/-- The room for a cipher header that a key in `hw_key` calls for, as `ccmp_encrypt_skb`,
`tkip_encrypt_skb`, `wep_encrypt_skb` and `ieee80211_crypto_cs_encrypt` make it. -/
def Key.ivRoom (key : Key) : ℕ :=
  match key.cipher with
  | .ccmp | .ccmp256 | .gcmp | .gcmp256 =>
    if key.generateIv || key.putIvSpace then CCMP_HDR_LEN else 0
  | .tkip => if key.generateIv || key.putIvSpace then 8 else 0
  | .wep40 | .wep104 => if key.generateIv || key.putIvSpace then 4 else 0
  | .aesCmac | .bipCmac256 | .bipGmac128 | .bipGmac256 => 0
  | .other => if key.cipherScheme && key.putIvSpace then key.ivLen else 0

/-- The room between the header and the RFC 1042 header of a cached header. -/
def FastTx.ivRoom (f : FastTx) : ℕ :=
  f.hdr.rest.length - (hdrlen f.hdr.frameControl - 24) - rfc1042Header.length

/-- The frame of `ieee80211_xmit_fast`. -/
def FastTx.skb (f : FastTx) (env : TxEnv) (i : SdataId) (eth : EthFrame) : TxSkb where
  hdr := f.build eth
  info := { vif := i, dontfrag := true, ampdu := env.ampdu, fastXmit := true }
  priority := eth.priority

/-- The cipher header of a frame. Only that of CCMP and GCMP is made here; without `GENERATE_IV` it is
left to the hardware. -/
structure CipherHdr (s : Local) (k : KeyId) (iv : List UInt8) : Prop where
  length : iv.length = (s.keys k).ivRoom
  generated : (s.keys k).generateIv = true →
    (s.keys k).cipher.isCcmpOrGcmp = true ∧ iv = pn2hdr (s.incTxPn k).2 (s.keys k).keyidx
  untouched : (s.keys k).generateIv = false → iv = List.replicate iv.length 0

/-- A frame that was queued as `h` may leave: the Protected bit says whether there is a key, whose
cipher header stands in front of the RFC 1042 header; else only the sequence number has changed. -/
structure ProtectedOk (s : Local) (h : Hdr) (payload : List UInt8) (skb : TxSkb) : Prop where
  hdr : skb.hdr = { h with seqCtrl := skb.hdr.seqCtrl, rest := skb.hdr.rest }
  bit : hasProtected skb.hdr.frameControl = skb.info.hwKey.isSome
  layout : ∃ iv, skb.hdr.rest =
      h.rest.take (hdrlen h.frameControl - 24) ++ (iv ++ (rfc1042Header ++ payload)) ∧
    (skb.info.hwKey = none → iv = []) ∧ ∀ k, skb.info.hwKey = some k → CipherHdr s k iv

namespace Local

variable (s : Local) (i : SdataId) (j : StaId)

/-- The key there is for a unicast data frame from an interface to a station. -/
def unicastKey : Option KeyId := s.ptkOf j <|> (s.sdata i).defaultUnicastKey

/-- The key such a frame leaves with: a management cipher does not cover it. -/
def sendingKey : Option KeyId := (s.unicastKey i j).filter fun k => !(s.keys k).cipher.isBip

/-- A frame that waits is dropped: the station is not authorized; it has no key, and had one; the key is
tainted. -/
def DropsQueued : Prop :=
  (s.sta j).staState ≠ .authorized ∨
    s.unicastKey i j = none ∧ (s.sta j).usesEncryption = true ∨
    ∃ k, s.sendingKey i j = some k ∧ (s.keys k).tainted = true

instance : Decidable (s.DropsQueued i j) := by
  unfold DropsQueued
  have : Decidable (∃ k, s.sendingKey i j = some k ∧ (s.keys k).tainted = true) :=
    decidable_of_iff ((s.sendingKey i j).any fun k => (s.keys k).tainted) (by
      cases s.sendingKey i j <;> simp)
  infer_instance

/-- The key a frame leaves with asks for the layout of the cached header. -/
def KeyFits (f : FastTx) : Prop :=
  match s.sendingKey i j with
  | none => f.key = none
  | some k => f.key.isSome ∧ f.ivRoom = (s.keys k).ivRoom ∧
    ((s.keys k).generateIv = true → (s.keys k).cipher.isCcmpOrGcmp = true)

end Local

/-! ### The frame that waits -/

theorem fast_frameControl {fc : UInt16} (hfc : fc ∈ [0x0008, 0x0108, 0x0208, 0x0308])
    (wme protect : Bool) :
    let fc' := fc ||| (if wme then STYPE_QOS_DATA else 0) ||| if protect then FCTL_PROTECTED else 0
    hasProtected fc' = protect ∧ isData fc' = true ∧ isDataPresent fc' = true ∧ isMgmt fc' = false ∧
      isDeauth fc' = false := by
  simp only [List.mem_cons, List.not_mem_nil, or_false] at hfc
  rcases hfc with rfl | rfl | rfl | rfl <;> cases wme <;> cases protect <;> decide

/-- How a frame was laid out. -/
structure LaidOut (f : FastTx) (eth : EthFrame) (pre : List UInt8) : Prop where
  length : pre.length = hdrlen (f.build eth).frameControl - 24
  rest : (f.build eth).rest =
    pre ++ (List.replicate f.ivRoom 0 ++ (rfc1042Header ++ eth.payload))
  isProtected : hasProtected (f.build eth).frameControl = f.key.isSome
  data : isData (f.build eth).frameControl = true
  present : isDataPresent (f.build eth).frameControl = true
  notMgmt : isMgmt (f.build eth).frameControl = false
  notDeauth : isDeauth (f.build eth).frameControl = false
  unprotected : f.key = none → f.ivRoom = 0

theorem laidOut_of_checkFastXmit {s : Local} {ok : Bool} {j : StaId} {f : FastTx}
    (hvalid : checkFastXmit s ok j = some f) (eth : EthFrame) : ∃ pre, LaidOut f eth pre := by
  obtain ⟨h, ivLen, -, haddrs, hkey, hrest, hbuild⟩ := FastTx.build_eq hvalid eth
  obtain ⟨h', ivLen', -, haddrs', hkey', hf⟩ := checkFastXmit_cases hvalid
  obtain ⟨hfc, hlen, -⟩ := fastTxAddrs_shape haddrs
  obtain ⟨-, -, -, hhdr⟩ := qos_of_frameControl hfc (s.sta j).wme f.key.isSome
  obtain ⟨hprot, hdata, hpresent, hmgmt, hdeauth⟩ :=
    fast_frameControl hfc (s.sta j).wme f.key.isSome
  have hsame : h' = h := by
    rw [haddrs] at haddrs'
    exact (Prod.mk.inj (some.inj haddrs')).1.symm
  have hroom : f.ivRoom = ivLen := by
    rw [FastTx.ivRoom, hrest, hf, hsame]
    dsimp only
    rw [hhdr, hlen]
    simp only [rfc1042Header, List.length_cons, List.length_nil]
    split <;> omega
  refine ⟨(eth.place h f.daIsAddr3 f.saField).rest ++
      (if (s.sta j).wme then [UInt8.ofNat (eth.priority % 8), 0] else []), ?_, ?_, ?_, ?_, ?_, ?_, ?_, ?_⟩
  · rw [hbuild]
    dsimp only
    rw [hhdr, List.length_append, EthFrame.length_rest_place, hlen]
    cases (s.sta j).wme with
    | true =>
      simp only [if_true, List.length_cons, List.length_nil]
      omega
    | false =>
      simp only [Bool.false_eq_true, if_false, List.length_nil]
      omega
  · rw [hbuild, hroom]
    simp only [List.append_assoc]
  · rw [hbuild]
    exact hprot
  · rw [hbuild]
    exact hdata
  · rw [hbuild]
    exact hpresent
  · rw [hbuild]
    exact hmgmt
  · rw [hbuild]
    exact hdeauth
  · intro hnone
    rw [hroom]
    rw [fastTxKey] at hkey
    split at hkey
    · obtain ⟨-, -, rfl⟩ := by simpa using hkey
      rfl
    · exfalso
      dsimp only at hkey
      rw [hnone] at hkey
      repeat' split at hkey
      all_goals simp at hkey

/-! ### Selecting the key again -/

section Select

variable {s : Local} {i : SdataId} {j : StaId} {f : FastTx} {eth : EthFrame} {env : TxEnv}
  {pre : List UInt8}

theorem selectKey_skb (h : LaidOut f eth pre) (hu : isMulticastEtherAddr (f.build eth).addr1 = false) :
    selectKey s { sdata := i, sta := some j } (f.skb env i eth).hdr = s.unicastKey i j := by
  have hgroup : (f.build eth).isGroupPrivacyAction = false := by
    rw [Hdr.isGroupPrivacyAction, hu]
    simp
  rw [FastTx.skb, selectKey, hgroup, hu, h.notMgmt]
  rfl

/-- The ciphers for management frames are the ones that do not cover it. -/
theorem covers_skb (h : LaidOut f eth pre) (c : Cipher) (sta : Option StaId) :
    c.covers s sta (f.skb env i eth).hdr = !c.isBip := by
  cases c with
  | wep40 | wep104 | tkip => exact h.present
  | ccmp | ccmp256 | gcmp | gcmp256 =>
    have hpresent : isDataPresent (f.skb env i eth).hdr.frameControl = true := h.present
    simp [Cipher.covers, Cipher.isBip, hpresent]
  | aesCmac | bipCmac256 | bipGmac128 | bipGmac256 => exact h.notMgmt
  | other => rfl

theorem txHSelectKey_drops (h : LaidOut f eth pre)
    (hu : isMulticastEtherAddr (f.build eth).addr1 = false)
    (hdrop : s.unicastKey i j = none ∧ (s.sta j).usesEncryption = true ∨
      ∃ k, s.sendingKey i j = some k ∧ (s.keys k).tainted = true) :
    txHSelectKey s { sdata := i, sta := some j } (f.skb env i eth) = none := by
  have hmgmt : isMgmt (f.skb env i eth).hdr.frameControl = false := h.notMgmt
  have hdeauth : isDeauth (f.skb env i eth).hdr.frameControl = false := h.notDeauth
  rw [txHSelectKey]
  dsimp only
  rw [if_neg (by simp [FastTx.skb]), selectKey_skb h hu]
  rcases hdrop with ⟨hnone, huses⟩ | ⟨k, hk, htaint⟩
  · rw [hnone]
    simp [hmgmt, huses]
  · obtain ⟨hk, hbip⟩ := filter_eq_some_iff.1 hk
    rw [hk]
    simp [covers_skb h, hdeauth, htaint, by simpa using hbip]

theorem txHSelectKey_takes (h : LaidOut f eth pre)
    (hu : isMulticastEtherAddr (f.build eth).addr1 = false) (hdrop : ¬ s.DropsQueued i j) :
    ∃ hw, (hw = none ∨ hw = s.sendingKey i j) ∧
      txHSelectKey s { sdata := i, sta := some j } (f.skb env i eth) =
        some ({ sdata := i, sta := some j, key := s.sendingKey i j },
          { f.skb env i eth with info := { (f.skb env i eth).info with hwKey := hw } }) := by
  obtain ⟨-, hdrop⟩ := not_or.1 hdrop
  obtain ⟨huses, htaint⟩ := not_or.1 hdrop
  rw [txHSelectKey]
  dsimp only
  rw [if_neg (by simp [FastTx.skb]), selectKey_skb h hu]
  cases hk : s.unicastKey i j with
  | none =>
    have hsend : s.sendingKey i j = none := by rw [Local.sendingKey, hk]; rfl
    have huses : (s.sta j).usesEncryption = false := by
      rw [← Bool.not_eq_true]
      exact fun huse => huses ⟨hk, huse⟩
    refine ⟨none, .inl rfl, ?_⟩
    rw [hsend]
    simp [huses, FastTx.skb]
  | some k =>
    dsimp only
    rw [covers_skb h]
    cases hbip : (s.keys k).cipher.isBip with
    | true =>
      have hsend : s.sendingKey i j = none := by
        rw [Local.sendingKey, hk]
        simp [hbip]
      exact ⟨none, .inl rfl, by rw [hsend]; rfl⟩
    | false =>
      have hsend : s.sendingKey i j = some k := by
        rw [Local.sendingKey, hk]
        simp [hbip]
      have htaint : (s.keys k).tainted = false := by
        rw [← Bool.not_eq_true]
        exact fun ht => htaint ⟨k, hsend, ht⟩
      rw [hsend]
      simp only [Bool.not_false, Bool.not_true, Bool.false_eq_true, if_false, htaint, Bool.false_and]
      refine ⟨_, ?_, rfl⟩
      split
      · exact .inr rfl
      · exact .inl rfl

end Select

/-! ### The packet number -/

variable {skb : TxSkb}

theorem putIv_of_room {pre tail : List UInt8} (pn : Pn) (keyidx : ℕ)
    (hpre : pre.length = hdrlen skb.hdr.frameControl - 24)
    (hrest : skb.hdr.rest = pre ++ (List.replicate 8 0 ++ tail)) :
    (skb.putIv (pn2hdr pn keyidx)).hdr =
      { skb.hdr with rest := pre ++ (pn2hdr pn keyidx ++ tail) } := by
  rw [TxSkb.putIv, hrest, ← hpre]
  dsimp only
  have hfirst := Bytes.memcpyAt_append_right pre (List.replicate 8 0 ++ tail) 0 ((pn2hdr pn keyidx).take 2)
  rw [Nat.add_zero] at hfirst
  rw [hfirst, Bytes.memcpyAt_append_right]
  rfl

theorem length_putIv (pn : Pn) (keyidx : ℕ)
    (hlen : hdrlen skb.hdr.frameControl - 24 + 8 ≤ skb.hdr.rest.length) :
    (skb.putIv (pn2hdr pn keyidx)).hdr.rest.length = skb.hdr.rest.length := by
  rw [TxSkb.putIv]
  dsimp only
  have htwo : ((pn2hdr pn keyidx).take 2).length = 2 := rfl
  have hfive : ((pn2hdr pn keyidx).drop 3).length = 5 := rfl
  have hfirst : (Bytes.memcpyAt skb.hdr.rest (hdrlen skb.hdr.frameControl - 24)
      ((pn2hdr pn keyidx).take 2)).length = skb.hdr.rest.length := Bytes.length_memcpyAt (by omega)
  rw [Bytes.length_memcpyAt (by omega), hfirst]

/-! ### Leaving -/

section Leave

variable {s : Local} {i : SdataId} {j : StaId}

theorem fastNextSeq_frame (s : Local) (i : SdataId) (j : StaId) (skb : TxSkb) :
    (fastNextSeq s i j skb).1.keys = s.keys ∧ (fastNextSeq s i j skb).1.log = s.log ∧
      ∀ i', ((fastNextSeq s i j skb).1.sdata i').type = (s.sdata i').type := by
  rw [fastNextSeq]
  split
  · exact ⟨rfl, rfl, fun _ => rfl⟩
  · refine ⟨rfl, rfl, fun i' => ?_⟩
    rw [sdataNextSeq]
    dsimp only
    by_cases h : i' = i
    · rw [h, Local.updSdata_sdata_self]
    · rw [Local.updSdata_sdata_of_ne s h]

/-- What `ieee80211_xmit_fast_finish` makes of the bytes behind the addresses. -/
def finishedRest (s : Local) (pnOffs : Bool) (key : Option KeyId) (skb : TxSkb) : List UInt8 :=
  match key with
  | some k =>
    if pnOffs && (s.keys k).cipher.isCcmpOrGcmp then
      (skb.putIv (pn2hdr (s.incTxPn k).2 (s.keys k).keyidx)).hdr.rest
    else skb.hdr.rest
  | none => skb.hdr.rest

theorem xmitFastFinish_frame {pnOffs : Bool} {key : Option KeyId} {hwQueue : ℕ}
    {r : Local × TxSkb} (hr : xmitFastFinish s i j pnOffs key hwQueue skb = r) :
    s.log <:+ r.1.log ∧ (∀ i', (r.1.sdata i').type = (s.sdata i').type) ∧
      r.2.info.hwKey = (key <|> skb.info.hwKey) ∧
      ∃ seq, r.2.hdr = { skb.hdr with seqCtrl := seq, rest := finishedRest s pnOffs key skb } := by
  subst hr
  unfold xmitFastFinish finishedRest
  dsimp only
  obtain ⟨hkeys, hlog, htype⟩ := fastNextSeq_frame s i j { skb with info := { skb.info with
    hwKey := key <|> skb.info.hwKey, hwQueue := hwQueue } }
  obtain ⟨s₁, seq, hseq⟩ : ∃ s₁ seq, fastNextSeq s i j { skb with info := { skb.info with
    hwKey := key <|> skb.info.hwKey, hwQueue := hwQueue } } = (s₁, seq) := ⟨_, _, rfl⟩
  rw [hseq] at hkeys hlog htype ⊢
  dsimp only at hkeys hlog htype ⊢
  cases key with
  | none => exact ⟨hlog ▸ List.suffix_rfl, htype, rfl, seq, rfl⟩
  | some k =>
    dsimp only
    rw [hkeys]
    split
    · refine ⟨?_, htype, rfl, seq, ?_⟩
      · change s.log <:+ _ :: s₁.log
        rw [hlog]
        exact List.suffix_cons _ _
      · have hpn : (s₁.incTxPn k).2 = (s.incTxPn k).2 := by
          rw [Local.incTxPn, Local.incTxPn, Local.updKey, Local.updKey, hkeys]
        have hidx : ((s₁.incTxPn k).1.keys k).keyidx = (s.keys k).keyidx := by
          have hself := congrArg Key.keyidx (Local.updKey_keys_self s₁ k Key.incTxPn)
          rw [hkeys] at hself
          exact hself
        rw [hpn, hidx]
        rfl
    · exact ⟨hlog ▸ List.suffix_rfl, htype, rfl, seq, rfl⟩

/-- What a frame that waits leaves as. -/
def leavingHdr (s : Local) (i : SdataId) (j : StaId) (skb : TxSkb) (seq : UInt16) : Hdr :=
  { skb.hdr with
    seqCtrl := seq
    rest := finishedRest s ((s.sendingKey i j).any fun k => (s.keys k).generateIv) (s.sendingKey i j) skb }

/-- A frame that was returned, newest in the history. -/
def Returned (s s' : Local) (skb : TxSkb) : Prop :=
  ∃ v sta l, s'.log = .handed .txDequeue v sta skb :: l ∧ s.log <:+ l

theorem not_returned_of_log {s s' : Local} (hlog : s'.log = s.log) (skb : TxSkb) :
    ¬ Returned s s' skb := by
  rintro ⟨v, sta, l, heq, hl⟩
  have hlen := hl.length_le
  rw [← hlog, heq, List.length_cons] at hlen
  omega

variable {sha1 : List UInt8 → Vector UInt8 20} {C : Crypto} {env env' : TxEnv} {f : FastTx}
  {eth : EthFrame} {pre : List UInt8} {q : Txq} {n : ℕ}

theorem dropsUnauth_skb (h : LaidOut f eth pre)
    (hu : isMulticastEtherAddr (f.build eth).addr1 = false)
    (hmesh : (s.sdata i).type ≠ .meshPoint) :
    dropsUnauth s j (f.skb env i eth) = decide ((s.sta j).staState ≠ .authorized) := by
  rw [dropsUnauth]
  simp only [FastTx.skb, h.data, hu]
  simp only [Bool.true_and, Bool.not_false, Bool.and_true, Bool.false_and]
  exact (congrArg (fun b => b && _) (decide_eq_true hmesh)).trans (Bool.true_and _)

/-- A frame that waits is dropped, or leaves under the key there is now. -/
theorem txDequeue_skb (h : LaidOut f eth pre) (hu : isMulticastEtherAddr (f.build eth).addr1 = false)
    (hwait : (s.txq q)[n]? = some (f.skb env i eth)) (hq : q.sta = some j) (hfrags : s.txqFrags q = [])
    (hmesh : (s.sdata i).type ≠ .meshPoint) (hmon : (s.sdata i).type ≠ .monitor) :
    (s.DropsQueued i j → txDequeue sha1 C env' q n s = some (s.eraseTxq q n)) ∧
      (¬ s.DropsQueued i j → ∃ s' skb seq, txDequeue sha1 C env' q n s = some s' ∧ Returned s s' skb ∧
        skb.info.hwKey = s.sendingKey i j ∧ skb.hdr = leavingHdr s i j (f.skb env i eth) seq) := by
  have hdrop : dropsUnauth (s.eraseTxq q n) j (f.skb env i eth) =
      decide ((s.sta j).staState ≠ .authorized) := dropsUnauth_skb h hu hmesh
  constructor
  · intro hd
    rw [txDequeue, hfrags]
    dsimp only
    rw [hwait]
    dsimp only
    rw [hq, any_some, hdrop]
    rcases hd with hauth | hd
    · rw [if_pos (by simp [hauth])]
    · split
      · rfl
      · have hsel : txHSelectKey (s.eraseTxq q n) { sdata := i, sta := some j } (f.skb env i eth) =
            none := txHSelectKey_drops h hu hd
        have hvif : (f.skb env i eth).info.vif = i := rfl
        rw [hvif, hsel]
  · intro hd
    have hauth : (s.sta j).staState = .authorized := by
      by_contra hno
      exact hd (.inl hno)
    have htakes : ∃ hw, (hw = none ∨ hw = s.sendingKey i j) ∧
        txHSelectKey (s.eraseTxq q n) { sdata := i, sta := some j } (f.skb env i eth) =
          some ({ sdata := i, sta := some j, key := s.sendingKey i j },
            { f.skb env i eth with info := { (f.skb env i eth).info with hwKey := hw } }) :=
      txHSelectKey_takes h hu hd
    obtain ⟨hw, hhw, hsel⟩ := htakes
    have hvif : (f.skb env i eth).info.vif = i := rfl
    have hfast : (f.skb env i eth).info.fastXmit = true := rfl
    rw [txDequeue, hfrags]
    dsimp only
    rw [hwait]
    dsimp only
    rw [hq, any_some, hdrop, if_neg (by simp [hauth]), hvif, hsel]
    dsimp only
    rw [hfast]
    dsimp only
    generalize hr : xmitFastFinish (s.eraseTxq q n) ((s.eraseTxq q n).sta j).sdata j
      ((s.sendingKey i j).any fun k => ((s.eraseTxq q n).keys k).generateIv) (s.sendingKey i j)
      env'.hwQueue _ = r
    obtain ⟨hlog, htype, hkey, seq, hhdr⟩ := xmitFastFinish_frame hr
    obtain ⟨v, hv⟩ : ∃ v, driverVif r.1 i = some v := by
      have hmon' : (r.1.sdata i).type ≠ .monitor := htype i ▸ hmon
      rw [driverVif]
      split
      · rename_i hm
        exact absurd hm hmon'
      · exact ⟨_, rfl⟩
      · exact ⟨_, rfl⟩
    rw [handOver, hv]
    refine ⟨_, _, seq, rfl, ⟨_, _, _, rfl, hlog⟩, ?_, ?_⟩
    · rw [hkey]
      rcases hhw with rfl | rfl
      · simp
      · simp
    · dsimp only
      rw [hhdr]
      rfl

theorem Key.ivRoom_of_generateIv {key : Key} (hgen : key.generateIv = true)
    (hccmp : key.cipher.isCcmpOrGcmp = true) : key.ivRoom = 8 := by
  rw [Key.ivRoom]
  cases hc : key.cipher
  all_goals
    rw [hc] at hccmp
    simp [Cipher.isCcmpOrGcmp] at hccmp
  all_goals simp [hgen, CCMP_HDR_LEN]

theorem length_finishedRest (h : LaidOut f eth pre) (heth : 2 ≤ eth.payload.length) (pnOffs : Bool)
    (key : Option KeyId) :
    (finishedRest s pnOffs key (f.skb env i eth)).length = (f.build eth).rest.length := by
  unfold finishedRest
  split
  · split
    · refine length_putIv _ _ ?_
      change hdrlen (f.build eth).frameControl - 24 + 8 ≤ (f.build eth).rest.length
      rw [h.rest, ← h.length]
      simp only [List.length_append, List.length_replicate, rfc1042Header, List.length_cons,
        List.length_nil]
      omega
    · rfl
  · rfl

/-- What becomes of the room for the cipher header, where the key fits. -/
theorem finishedRest_of_fits (h : LaidOut f eth pre) {k : KeyId} (hroom : f.ivRoom = (s.keys k).ivRoom)
    (hgen : (s.keys k).generateIv = true → (s.keys k).cipher.isCcmpOrGcmp = true) :
    ∃ iv, finishedRest s (s.keys k).generateIv (some k) (f.skb env i eth) =
      pre ++ (iv ++ (rfc1042Header ++ eth.payload)) ∧ CipherHdr s k iv := by
  have hbuilt : (f.skb env i eth).hdr.rest =
      pre ++ (List.replicate f.ivRoom 0 ++ (rfc1042Header ++ eth.payload)) := h.rest
  cases hg : (s.keys k).generateIv with
  | true =>
    have hccmp := hgen hg
    have height : (s.keys k).ivRoom = 8 := Key.ivRoom_of_generateIv hg hccmp
    rw [hroom, height] at hbuilt
    have hpre : pre.length = hdrlen (f.skb env i eth).hdr.frameControl - 24 := h.length
    have hput := congrArg Hdr.rest (putIv_of_room (s.incTxPn k).2 (s.keys k).keyidx hpre hbuilt)
    refine ⟨pn2hdr (s.incTxPn k).2 (s.keys k).keyidx, ?_, height.symm, fun _ => ⟨hccmp, rfl⟩,
      fun hno => ?_⟩
    · rw [finishedRest, hccmp, Bool.and_self, if_pos rfl, hput]
    · rw [hg] at hno
      cases hno
  | false =>
    refine ⟨List.replicate f.ivRoom 0, ?_, ?_, fun hyes => ?_, fun _ => ?_⟩
    · rw [finishedRest, Bool.false_and, if_neg (by simp)]
      exact hbuilt
    · rw [List.length_replicate, hroom]
    · rw [hg] at hyes
      cases hyes
    · rw [List.length_replicate]

/-- **A frame that leaves is in order exactly if its key fits.** -/
theorem protectedOk_iff_keyFits (h : LaidOut f eth pre) (heth : 2 ≤ eth.payload.length)
    {seq : UInt16} (hkey : skb.info.hwKey = s.sendingKey i j)
    (hhdr : skb.hdr = leavingHdr s i j (f.skb env i eth) seq) :
    ProtectedOk s (f.build eth) eth.payload skb ↔ s.KeyFits i j f := by
  have hhead : (f.build eth).rest.take (hdrlen (f.build eth).frameControl - 24) = pre := by
    rw [h.rest, ← h.length, List.take_left]
  have hfc : skb.hdr.frameControl = (f.build eth).frameControl := by rw [hhdr]; rfl
  have hsame : skb.hdr = { f.build eth with seqCtrl := skb.hdr.seqCtrl, rest := skb.hdr.rest } := by
    rw [hhdr]
    rfl
  have hrest : skb.hdr.rest = finishedRest s ((s.sendingKey i j).any fun k => (s.keys k).generateIv)
      (s.sendingKey i j) (f.skb env i eth) := by
    rw [hhdr]
    rfl
  have hlen : skb.hdr.rest.length = (f.build eth).rest.length := by
    rw [hrest]
    exact length_finishedRest h heth _ _
  have hbit : hasProtected skb.hdr.frameControl = f.key.isSome := by rw [hfc, h.isProtected]
  rw [Local.KeyFits]
  cases hsend : s.sendingKey i j with
  | none =>
    rw [hsend] at hkey hrest
    constructor
    · intro hok
      have hnone := hok.bit
      rw [hbit, hkey] at hnone
      simpa using hnone
    · intro hnone
      have hclear : hasProtected skb.hdr.frameControl = skb.info.hwKey.isSome := by
        rw [hbit, hkey, hnone]
      refine ⟨hsame, hclear, [], ?_, fun _ => rfl, fun k hk => ?_⟩
      · have hbuilt : skb.hdr.rest = (f.build eth).rest := hrest
        rw [hhead, hbuilt, h.rest, h.unprotected hnone]
        rfl
      · rw [hkey] at hk
        cases hk
  | some k =>
    rw [hsend] at hkey hrest
    rw [any_some] at hrest
    constructor
    · intro hok
      obtain ⟨iv, hiv, -, hcipher⟩ := hok.layout
      have hcipher := hcipher k hkey
      refine ⟨?_, ?_, fun hgen => (hcipher.generated hgen).1⟩
      · have hbit' := hok.bit
        rw [hbit, hkey] at hbit'
        exact hbit'
      · rw [← hcipher.length]
        have hboth := congrArg List.length hiv
        rw [hlen, hhead, h.rest] at hboth
        simp only [List.length_append, List.length_replicate] at hboth
        omega
    · rintro ⟨hsome, hroom, hgen⟩
      obtain ⟨iv, hiv, hcipher⟩ := finishedRest_of_fits h hroom hgen
      have hset : hasProtected skb.hdr.frameControl = skb.info.hwKey.isSome := by
        rw [hbit, hkey, hsome]
        rfl
      refine ⟨hsame, hset, iv, ?_, fun hk => ?_, fun k' hk' => ?_⟩
      · rw [hhead, hrest, hiv]
      · rw [hkey] at hk
        cases hk
      · rw [hkey] at hk'
        cases hk'
        exact hcipher

/-- What `ieee80211_tx_dequeue` returns of a frame that waits is in order exactly if the frame is dropped, or
the key there is now fits. -/
theorem txDequeue_protectedOk_iff (h : LaidOut f eth pre) (heth : 2 ≤ eth.payload.length)
    (hu : isMulticastEtherAddr (f.build eth).addr1 = false)
    (hwait : (s.txq q)[n]? = some (f.skb env i eth)) (hq : q.sta = some j) (hfrags : s.txqFrags q = [])
    (hmesh : (s.sdata i).type ≠ .meshPoint) (hmon : (s.sdata i).type ≠ .monitor) :
    (∀ s' skb, txDequeue sha1 C env' q n s = some s' → Returned s s' skb →
        ProtectedOk s (f.build eth) eth.payload skb) ↔
      s.DropsQueued i j ∨ s.KeyFits i j f := by
  obtain ⟨hdrops, hleaves⟩ :=
    @txDequeue_skb s i j sha1 C env env' f eth pre q n h hu hwait hq hfrags hmesh hmon
  by_cases hd : s.DropsQueued i j
  · refine ⟨fun _ => .inl hd, fun _ s' skb hs' hret => ?_⟩
    rw [hdrops hd] at hs'
    cases hs'
    exact absurd hret (not_returned_of_log rfl skb)
  · obtain ⟨s', skb, seq, hs', hret, hkey, hhdr⟩ := hleaves hd
    have hiff := protectedOk_iff_keyFits h heth hkey hhdr
    constructor
    · intro hall
      exact .inr (hiff.1 (hall s' skb hs' hret))
    · rintro (hd' | hfits) s'' skb' hs'' hret'
      · exact absurd hd' hd
      · rw [hs'] at hs''
        cases hs''
        -- only one frame can be the newest
        obtain ⟨v, sta, l, hl, -⟩ := hret
        obtain ⟨v', sta', l', hl', -⟩ := hret'
        have hhead := hl.symm.trans hl'
        have hskb : skb = skb' := by
          have := (List.cons.inj hhead).1
          simp only [Logged.handed.injEq] at this
          exact this.2.2.2
        exact hskb ▸ hiff.2 hfits

end Leave

/-! ### While it waits -/

section Wait

variable {sha1 : List UInt8 → Vector UInt8 20} {C : Crypto} {s s' : Local}

/-- Every cached header was made by `ieee80211_check_fast_xmit`, some time. -/
def CacheBuilt (s : Local) : Prop :=
  ∀ j f, (s.sta j).fastTx = some f → ∃ l ok, checkFastXmit l ok j = some f

/-- What no event changes. -/
structure Stays (s s' : Local) : Prop where
  cached : CacheBuilt s → CacheBuilt s'
  type : ∀ i ∈ s.interfaces, i ∈ s'.interfaces ∧ (s'.sdata i).type = (s.sdata i).type

theorem SameConfig.stays (h : SameConfig s s') : Stays s s' where
  cached := fun hs j f hf => hs j f ((congrArg StaInfo.fastTx (h.sta j) :).symm.trans hf)
  type := fun i hi => ⟨h.interfaces ▸ hi, (congrArg SubIfData.type (h.sdata i) :)⟩

theorem stays_updSta {j : StaId} {f : StaInfo → StaInfo} (h : ∀ g, (f (s.sta j)).fastTx = some g →
      (s.sta j).fastTx = some g ∨ ∃ l ok, checkFastXmit l ok j = some g) : Stays s (s.updSta j f) where
  cached := fun hs j' g hg => by
    by_cases hj : j' = j
    · subst hj
      rw [Local.updSta_sta_self] at hg
      exact (h g hg).elim (hs j' g) id
    · rw [Local.updSta_sta_of_ne s hj] at hg
      exact hs j' g hg
  type := fun _ hi => ⟨hi, rfl⟩

theorem stays_updSdata {i : SdataId} {f : SubIfData → SubIfData}
    (h : (f (s.sdata i)).type = (s.sdata i).type) : Stays s (s.updSdata i f) where
  cached := fun hs => hs
  type := fun i' hi => by
    refine ⟨hi, ?_⟩
    by_cases hi' : i' = i
    · rw [hi', Local.updSdata_sdata_self, h]
    · rw [Local.updSdata_sdata_of_ne s hi']

theorem stays_keyOp {op : KeyOp} (h : op.apply s = some s') : Stays s s' := by
  rw [KeyOp.apply] at h
  split at h
  · cases h
    cases op with
    | setPtk j idx k | setPtkIdx j idx | setGtk j idx k =>
      rw [KeyOp.write]
      refine stays_updSta ?_
      exact fun _ hg => .inl hg
    | setKey i idx k | setDefaultUnicast i k | setDefaultMulticast i k | setDefaultMgmt i k =>
      rw [KeyOp.write]
      refine stays_updSdata ?_
      rfl
    | alloc key => exact ⟨fun hs => hs, fun _ hi => ⟨hi, rfl⟩⟩
    | taint k => exact ⟨fun hs => hs, fun _ hi => ⟨hi, rfl⟩⟩
  · cases h

theorem stays_handle {e : Event} (h : s.handle sha1 C e = some s') : Stays s s' := by
  cases he : e.changesConfig with
  | false =>
    obtain ⟨s₁, hw, hh⟩ := does_handle he h
    exact (hw.sameConfig.trans (Hands.sameConfig hh)).stays
  | true =>
    cases e with
    | key op => exact stays_keyOp h
    | checkFastXmit ok j =>
      cases h
      exact stays_updSta fun g hg => .inr ⟨s, ok, hg⟩
    | moveState j state =>
      cases h
      exact stays_updSta fun _ hg => .inl hg
    | setBssid i bssid | numStaPs i n =>
      cases h
      exact stays_updSdata rfl
    | addInterface i d =>
      rw [Local.handle] at h
      split at h
      · cases h
      · rename_i hnew
        cases h
        refine ⟨fun hs => hs, fun i' hi' => ⟨List.mem_append_left _ hi', ?_⟩⟩
        have hne : i' ≠ i := by
          rintro rfl
          exact hnew hi'
        exact congrArg SubIfData.type (Function.update_of_ne hne ..)
    | addSta j t =>
      rw [Local.handle] at h
      split at h
      · cases h
      · cases h
        refine ⟨fun hs j' g hg => ?_, fun _ hi => ⟨hi, rfl⟩⟩
        have hg : (Function.update s.sta j (newSta t s.currentTp) j').fastTx = some g := hg
        by_cases hj : j' = j
        · subst hj
          rw [Function.update_self] at hg
          cases hg
        · rw [Function.update_of_ne hj] at hg
          exact hs j' g hg
    | removeSta j | stopReasons q r =>
      cases h
      exact ⟨fun hs => hs, fun _ hi => ⟨hi, rfl⟩⟩
    | _ => cases he

variable {s₀ : Local} {os : List Logged}

theorem stays_of_reach (hr : Reach (deviceStep sha1 C) (fun _ _ _ => True) s₀ s os) : Stays s₀ s := by
  refine hr.invariant (fun s _ => Stays s₀ s) ⟨fun hs => hs, fun _ hi => ⟨hi, rfl⟩⟩ ?_
  intro s os e s' o h _ hs
  obtain ⟨s₁, hs₁, heq⟩ := map_eq_some_iff.1 hs
  obtain ⟨rfl, -⟩ := Prod.mk.inj heq
  have hstep : Stays s s₁ := by
    have hcleared : Stays { s with log := [] } s₁ := stays_handle hs₁
    exact ⟨hcleared.cached, hcleared.type⟩
  refine ⟨fun hs => hstep.cached (h.cached hs), fun i hi => ?_⟩
  obtain ⟨hi', htype⟩ := h.type i hi
  obtain ⟨hi'', htype'⟩ := hstep.type i hi'
  exact ⟨hi'', htype'.trans htype⟩

/-- `__ieee80211_subif_start_xmit` finds the station and its cached header, the fast path takes the frame,
and it goes to an intermediate queue. -/
structure Queued (env : TxEnv) (s s' : Local) (i : SdataId) (j : StaId) (f : FastTx) (eth : EthFrame) :
    Prop where
  iface : i ∈ s.interfaces
  sta : lookupRaSta env s i eth = some (some j)
  fastTx : (s.sta j).fastTx = some f
  accepts : xmitFastAccepts env f eth = true
  rateCtrl : env.rateCtrl = true
  queued : queueSkb s i (some j) (f.skb env i eth) = some s'

section

variable {env : TxEnv} {i : SdataId} {j : StaId} {f : FastTx} {eth : EthFrame}

theorem Queued.type_ne (h : Queued env s s' i j f eth) :
    (s.sdata i).type ≠ .meshPoint ∧ (s.sdata i).type ≠ .monitor := by
  have hsta := h.sta
  constructor
  · intro hmesh
    rw [lookupRaSta, hmesh] at hsta
    cases hsta
  · intro hmon
    rw [lookupRaSta, hmon] at hsta
    cases hsta

theorem Queued.type_eq (h : Queued env s s' i j f eth) :
    i ∈ s'.interfaces ∧ (s'.sdata i).type = (s.sdata i).type := by
  have hqueued := h.queued
  rw [queueSkb] at hqueued
  split at hqueued
  · cases hqueued
  · obtain ⟨q, -, rfl⟩ := map_eq_some_iff.1 hqueued
    exact ⟨h.iface, rfl⟩

end

theorem cacheBuilt_bootLocal (hw : Local) : CacheBuilt (bootLocal hw) := fun _ _ hf => by cases hf

/-- **Frames that wait keep a consistent layout, as long as their key does.** What
`ieee80211_tx_dequeue` returns of a frame of the fast path has the Protected bit exactly if it has a
key, room for that key's cipher header, and the packet number there only: if and only if the frame
is dropped, or the key there is now asks for its layout. -/
theorem queued_frame_protectedOk_iff {hw s₁ : Local} {os' : List Logged} {env env' : TxEnv} {i : SdataId}
    {j : StaId} {f : FastTx} {eth : EthFrame} {q : Txq} {n : ℕ}
    (hr : Reach (deviceStep sha1 C) (fun _ _ _ => True) (bootLocal hw) s₀ os)
    (hqueued : Queued env s₀ s₁ i j f eth) (heth : 2 ≤ eth.payload.length)
    (hu : isMulticastEtherAddr (f.build eth).addr1 = false)
    (hr' : Reach (deviceStep sha1 C) (fun _ _ _ => True) s₁ s os')
    (hq : q.sta = some j) (hwait : (s.txq q)[n]? = some (f.skb env i eth)) (hfrags : s.txqFrags q = []) :
    (∀ s' skb, txDequeue sha1 C env' q n s = some s' → Returned s s' skb →
        ProtectedOk s (f.build eth) eth.payload skb) ↔
      s.DropsQueued i j ∨ s.KeyFits i j f := by
  obtain ⟨l, ok, hvalid⟩ :=
    (stays_of_reach hr).cached (cacheBuilt_bootLocal hw) j f hqueued.fastTx
  obtain ⟨pre, hlaid⟩ := laidOut_of_checkFastXmit hvalid eth
  obtain ⟨hi, htype⟩ := hqueued.type_eq
  have htype' : (s.sdata i).type = (s₀.sdata i).type :=
    ((stays_of_reach hr').type i hi).2.trans htype
  obtain ⟨hmesh, hmon⟩ := hqueued.type_ne
  exact txDequeue_protectedOk_iff hlaid heth hu hwait hq hfrags (htype' ▸ hmesh) (htype' ▸ hmon)

end Wait

/-! ### Two keys -/

/-- An AP with a queueing driver, and an authorized station, whose header is cached. -/
def queueingSta (keys : List Event) : List Event :=
  setupAp 0 (toyMac 1) ++ [.addSta 0 { addr := toyMac 3, sdata := 0 }] ++ keys ++
    [.moveState 0 .authorized, .checkFastXmit true 0]

/-- A pairwise key in the hardware, which leaves CCMP headers to the stack. -/
def hardwareKey (k : KeyId) : Key where
  cipher := .ccmp
  key := List.replicate 16 (UInt8.ofNat k)
  generateIv := true
  uploadedToHardware := true

/-- It is installed. -/
def installKey (k : KeyId) : List Event :=
  [.key (.alloc (hardwareKey k)),
    .key (.setPtk 0 0 (some k)), .key (.setPtkIdx 0 0)]

/-- A frame to the station is queued after some events, and waits during others. -/
def waitingRun (es es' : List Event) : Option (Local × FastTx × Local × Local) :=
  (run (deviceStep toyHash toyCrypto) (bootLocal { wakeTxQueue := true }) es).bind fun r =>
    (r.1.sta 0).fastTx.bind fun f =>
      (queueSkb r.1 0 (some 0) (f.skb {} 0 ethToSta)).bind fun s₁ =>
        (run (deviceStep toyHash toyCrypto) s₁ es').map fun r' => (r.1, f, s₁, r'.1)

/-- It is one of the fast path, and still waits. -/
def waitingCheck (s₀ : Local) (f : FastTx) (s : Local) : Bool :=
  s₀.interfaces.contains 0 && lookupRaSta {} s₀ 0 ethToSta = some (some 0) &&
    xmitFastAccepts {} f ethToSta && !isMulticastEtherAddr (f.build ethToSta).addr1 &&
    (s.txq ⟨0, some 0, 0⟩)[0]? = some (f.skb {} 0 ethToSta) && (s.txqFrags ⟨0, some 0, 0⟩).isEmpty &&
    s.log.isEmpty

theorem waitingRun_spec {es es' : List Event} {s₀ s₁ s : Local} {f : FastTx}
    (h : waitingRun es es' = some (s₀, f, s₁, s)) (hcheck : waitingCheck s₀ f s = true) :
    ∃ os os', Reach (deviceStep toyHash toyCrypto) (fun _ _ _ => True)
        (bootLocal { wakeTxQueue := true }) s₀ os ∧
      Queued {} s₀ s₁ 0 0 f ethToSta ∧ isMulticastEtherAddr (f.build ethToSta).addr1 = false ∧
      Reach (deviceStep toyHash toyCrypto) (fun _ _ _ => True) s₁ s os' ∧
      (s.txq ⟨0, some 0, 0⟩)[0]? = some (f.skb {} 0 ethToSta) ∧ s.txqFrags ⟨0, some 0, 0⟩ = [] ∧
      s.log = [] := by
  simp only [waitingCheck, Bool.and_eq_true, decide_eq_true_eq, Bool.not_eq_true',
    List.contains_iff_mem, List.isEmpty_iff] at hcheck
  obtain ⟨⟨⟨⟨⟨⟨hi, hsta⟩, haccepts⟩, hu⟩, hwait⟩, hfrags⟩, hlog⟩ := hcheck
  obtain ⟨⟨s₀', os⟩, hrun, h⟩ := bind_eq_some_iff.1 h
  obtain ⟨f', hf, h⟩ := bind_eq_some_iff.1 h
  obtain ⟨s₁', hq, h⟩ := bind_eq_some_iff.1 h
  obtain ⟨⟨s', os'⟩, hrun', h⟩ := map_eq_some_iff.1 h
  cases h
  exact ⟨os, os', .of_run_init hrun, ⟨hi, hsta, hf, haccepts, rfl, hq⟩, hu, .of_run_init hrun', hwait,
    hfrags, hlog⟩

/-- The key is replaced by another while a frame waits, and the frame leaves with the other. -/
theorem queued_frame_rekeyed : ∃ s₀ f s₁ s, waitingRun (queueingSta (installKey 0)) (installKey 1) =
      some (s₀, f, s₁, s) ∧ f.key = some 0 ∧ s.sendingKey 0 0 = some 1 ∧
      ∀ s' skb, txDequeue toyHash toyCrypto {} ⟨0, some 0, 0⟩ 0 s = some s' → Returned s s' skb →
        ProtectedOk s (f.build ethToSta) ethToSta.payload skb := by
  have hrun : (waitingRun (queueingSta (installKey 0)) (installKey 1)).map (fun r =>
      (waitingCheck r.1 r.2.1 r.2.2.2, r.2.1.key, r.2.1.ivRoom, r.2.2.2.sendingKey 0 0,
        (r.2.2.2.keys 1).ivRoom, (r.2.2.2.keys 1).cipher.isCcmpOrGcmp)) =
      some (true, some 0, 8, some 1, 8, true) := by
    decide +kernel
  obtain ⟨⟨s₀, f, s₁, s⟩, hrun, heq⟩ := map_eq_some_iff.1 hrun
  simp only [Prod.mk.injEq] at heq
  obtain ⟨hcheck, hkey, hroom, hsend, hroom', hccmp⟩ := heq
  obtain ⟨os, os', hr, hqueued, hu, hr', hwait, hfrags, -⟩ := waitingRun_spec hrun hcheck
  refine ⟨s₀, f, s₁, s, hrun, hkey, hsend,
    (queued_frame_protectedOk_iff hr hqueued (by decide) hu hr' rfl hwait hfrags).2 (.inr ?_)⟩
  rw [Local.KeyFits, hsend]
  exact ⟨by rw [hkey]; rfl, hroom.trans hroom'.symm, fun _ => hccmp⟩

/-- What `ieee80211_tx_dequeue` returns, newest in the history. -/
def newestFrame (s : Local) : Option TxSkb :=
  match s.log with
  | .handed .txDequeue _ _ skb :: _ => some skb
  | _ => none

theorem returned_of_newestFrame {s s' : Local} (hlog : s.log = [])
    (h : newestFrame s' = some skb) : Returned s s' skb := by
  rw [newestFrame] at h
  split at h
  · rename_i v sta skb' l hl
    cases h
    exact ⟨v, sta, l, hl, hlog ▸ List.nil_suffix⟩
  · cases h

/-- A key is installed while a frame waits: it leaves with that key, without the Protected bit, its
packet number where the LLC header was. -/
theorem queued_frame_overwritten : ∃ s₀ f s₁ s s' skb, waitingRun (queueingSta []) (installKey 0) =
      some (s₀, f, s₁, s) ∧
      txDequeue toyHash toyCrypto {} ⟨0, some 0, 0⟩ 0 s = some s' ∧ Returned s s' skb ∧
      (f.build ethToSta).rest = rfc1042Header ++ [8, 0, 1, 2, 3] ∧ skb.info.hwKey = some 0 ∧
      hasProtected skb.hdr.frameControl = false ∧
      skb.hdr.rest = [1, 0, 3, 0x20, 0, 0, 0, 0] ++ [1, 2, 3] ∧
      ¬ ProtectedOk s (f.build ethToSta) ethToSta.payload skb := by
  have hrun : ((waitingRun (queueingSta []) (installKey 0)).bind fun r =>
      (txDequeue toyHash toyCrypto {} ⟨0, some 0, 0⟩ 0 r.2.2.2).bind fun s' =>
        (newestFrame s').map fun skb => (r, s', skb)).map (fun t =>
      (waitingCheck t.1.1 t.1.2.1 t.1.2.2.2, (t.1.2.1.build ethToSta).rest, t.2.2.info.hwKey,
        hasProtected t.2.2.hdr.frameControl, t.2.2.hdr.rest)) =
      some (true, rfc1042Header ++ [8, 0, 1, 2, 3], some 0, false,
        [1, 0, 3, 0x20, 0, 0, 0, 0] ++ [1, 2, 3]) := by
    decide +kernel
  obtain ⟨⟨r, s', skb⟩, hrun, heq⟩ := map_eq_some_iff.1 hrun
  simp only [Prod.mk.injEq] at heq
  obtain ⟨hcheck, hbuilt, hkey, hbit, hrest⟩ := heq
  obtain ⟨⟨s₀, f, s₁, s⟩, hwaiting, hrun⟩ := bind_eq_some_iff.1 hrun
  obtain ⟨s'', hs', hrun⟩ := bind_eq_some_iff.1 hrun
  obtain ⟨skb', hskb, hrun⟩ := map_eq_some_iff.1 hrun
  simp only [Prod.mk.injEq] at hrun
  obtain ⟨rfl, rfl, rfl⟩ := hrun
  obtain ⟨-, -, -, -, -, -, -, -, hlog⟩ := waitingRun_spec hwaiting hcheck
  refine ⟨s₀, f, s₁, s, s'', skb', hwaiting, hs', returned_of_newestFrame hlog hskb, hbuilt, hkey, hbit,
    hrest, fun hok => ?_⟩
  have hset := hok.bit
  rw [hbit, hkey] at hset
  cases hset

end Mac80211
