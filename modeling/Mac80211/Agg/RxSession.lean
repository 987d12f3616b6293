import Mac80211.Rx.Reorder
import Mathlib.Tactic.IntervalCases

/-!
# Setting up a block-ack session

`agg-rx.c` and `ht.c`, the recipient's side: ADDBA requests, responses and updates, DELBA and
timeouts. A response is built from the request and not from the session, so an update is answered
with the buffer size of the request, while the session keeps its own. Allocations and the driver's
answers are part of the event.

## Main results

* `addba_agrees_iff` — when the answer is what the session has
-/

namespace Mac80211

open Machine

/-! ### The state -/

/-- `struct tid_ampdu_rx`, with the negotiated timeout. -/
structure RxBaSession extends TidAmpduRx where
  /-- `timeout`, in TUs. -/
  timeout : UInt16

/-- What the hardware says about itself. -/
structure BaHw where
  /-- `SUPPORTS_REORDERING_BUFFER`. -/
  supportsReorderingBuffer : Bool := false
  /-- `SUPPORTS_AMSDU_IN_AMPDU`. -/
  supportsAmsduInAmpdu : Bool := false

/-- What a station is capable of, as far as block-ack sessions go. -/
structure BaCaps where
  htSupported : Bool := true
  /-- `ht_cap.cap & IEEE80211_HT_CAP_DELAY_BA`. -/
  delayBa : Bool := false
  hasHe : Bool := false
  maxRxAggregationSubframes : UInt16 := 64
  /-- `WLAN_STA_BLOCK_BA`. -/
  blockBa : Bool := false

/-- `struct sta_ampdu_mlme`, and the capabilities. Bit maps are functions of the TID. -/
structure AmpduMlme where
  tidRx : ℕ → Option RxBaSession := fun _ => none
  tidRxToken : ℕ → UInt8 := fun _ => 0
  aggSessionValid : ℕ → Bool := fun _ => false
  unexpectedAgg : ℕ → Bool := fun _ => false
  tidRxTimerExpired : ℕ → Bool := fun _ => false
  tidRxStopRequested : ℕ → Bool := fun _ => false
  /-- `tid_rx_manage_offl`: the first 16 bits ask for a start, the next 16 for a stop. -/
  tidRxManageOffl : ℕ → Bool := fun _ => false
  caps : BaCaps := {}

/-- `IEEE80211_FIRST_TSPEC_TSID`. -/
def FIRST_TSPEC_TSID : UInt16 := 8

/-- `IEEE80211_MAX_AMPDU_BUF_HT`. -/
def MAX_AMPDU_BUF_HT : UInt16 := 0x40

/-- `IEEE80211_MAX_AMPDU_BUF`. -/
def MAX_AMPDU_BUF : UInt16 := 0x100

/-- `enum ieee80211_statuscode`, as far as it is used. -/
inductive StatusCode
  /-- `WLAN_STATUS_SUCCESS`. -/
  | success
  /-- `WLAN_STATUS_REQUEST_DECLINED`. -/
  | requestDeclined
  /-- `WLAN_STATUS_INVALID_QOS_PARAM`. -/
  | invalidQosParam
deriving DecidableEq

/-- An ADDBA response. -/
structure AddbaResp where
  dialogToken : UInt8
  status : StatusCode
  capab : UInt16
  timeout : UInt16
deriving DecidableEq

/-- `IEEE80211_ADDBA_PARAM_TID_MASK`. -/
def addbaTid (capab : UInt16) : UInt16 := (capab &&& 0x003c) >>> 2

/-- `IEEE80211_ADDBA_PARAM_POLICY_MASK`. -/
def addbaPolicy (capab : UInt16) : UInt16 := (capab &&& 0x0002) >>> 1

/-- `IEEE80211_ADDBA_PARAM_BUF_SIZE_MASK`. -/
def addbaBufSize (capab : UInt16) : UInt16 := (capab &&& 0xffc0) >>> 6

/-- What is sent. -/
inductive BaOut
  | addbaResp (resp : AddbaResp)
  /-- A DELBA as the recipient. -/
  | delba (tid : ℕ)
deriving DecidableEq

/-! ### Operations -/

/-- What is outside: allocations and the driver. -/
structure BaEnv where
  /-- `kzalloc` of the session. -/
  allocTidRx : Bool := true
  /-- `kcalloc` of `reorder_buf`. -/
  allocReorderBuf : Bool := true
  /-- `kcalloc` of `reorder_time`. -/
  allocReorderTime : Bool := true
  /-- `drv_ampdu_action` for the start returns zero. -/
  drvOk : Bool := true
  /-- `dev_alloc_skb` of the answer. -/
  allocSkb : Bool := true

/-- `___ieee80211_stop_rx_ba_session`. The driver's answer is only logged. -/
def stopRxBaSession (s : AmpduMlme) (tid : ℕ) (recipient tx allocSkb : Bool) :
    AmpduMlme × List BaOut :=
  if s.aggSessionValid tid then
    ({ s with
        tidRx := Function.update s.tidRx tid none
        aggSessionValid := Function.update s.aggSessionValid tid false },
      if recipient && tx && allocSkb then [.delba tid] else [])
  else (s, [])

/-- The parameters in a response: A-MSDU support, policy, TID and buffer size. -/
def addbaCapab (amsdu : Bool) (policy tid bufSize : UInt16) : UInt16 :=
  (if amsdu then (1 : UInt16) else 0) ||| policy <<< 1 ||| tid <<< 2 ||| bufSize <<< 6

/-- `ieee80211_send_addba_resp`. -/
def sendAddbaResp (hw : BaHw) (tid : UInt16) (dialogToken : UInt8) (status : StatusCode)
    (policy bufSize timeout : UInt16) (allocSkb : Bool) : List BaOut :=
  if allocSkb then
    [.addbaResp
      { dialogToken := dialogToken
        status := status
        capab := addbaCapab hw.supportsAmsduInAmpdu policy tid bufSize
        timeout := timeout }]
  else []

/-- The largest buffer the station can ask for. -/
def BaCaps.maxBufSize (caps : BaCaps) : UInt16 :=
  if caps.hasHe then MAX_AMPDU_BUF else MAX_AMPDU_BUF_HT

/-- The size that is taken for the one in a request. -/
def BaCaps.bufSize (caps : BaCaps) (bufSize : UInt16) : UInt16 :=
  let bufSize := if bufSize = 0 then caps.maxBufSize else bufSize
  if caps.maxRxAggregationSubframes < bufSize then caps.maxRxAggregationSubframes else bufSize

/-- The checks a request must pass before the state is looked at. -/
def BaCaps.refusal (caps : BaCaps) (tid baPolicy bufSize : UInt16) : Option StatusCode :=
  if FIRST_TSPEC_TSID ≤ tid then some .requestDeclined
  else if !caps.htSupported then some .requestDeclined
  else if caps.blockBa then some .requestDeclined
  else if (baPolicy ≠ 1 && !caps.delayBa) || caps.maxBufSize < bufSize then some .invalidQosParam
  else none

/-- The `end` label of `___ieee80211_start_rx_ba_session`. -/
def startEnd (hw : BaHw) (s : AmpduMlme) (tid : UInt16) (dialogToken : UInt8)
    (bufSize timeout : UInt16) (tx allocSkb : Bool) (status : StatusCode) :
    AmpduMlme × List BaOut :=
  (if status = .success then
      { s with
        aggSessionValid := Function.update s.aggSessionValid tid.toNat true
        unexpectedAgg := Function.update s.unexpectedAgg tid.toNat false
        tidRxToken := Function.update s.tidRxToken tid.toNat dialogToken }
    else s,
    if tx then sendAddbaResp hw tid dialogToken status 1 bufSize timeout allocSkb else [])

/-- A session is set up. -/
def setupSession (hw : BaHw) (s : AmpduMlme) (env : BaEnv) (timeout startSeqNum tid bufSize : UInt16)
    (autoSeq : Bool) : AmpduMlme × StatusCode :=
  if hw.supportsReorderingBuffer then
    (s, if env.drvOk then .success else .requestDeclined)
  else if !env.allocTidRx then (s, .requestDeclined)
  else if !env.allocReorderBuf || !env.allocReorderTime then (s, .requestDeclined)
  else if !env.drvOk then (s, .requestDeclined)
  else
    ({ s with
        tidRx := Function.update s.tidRx tid.toNat (some
          { newTidAmpduRx bufSize.toNat startSeqNum.toNat autoSeq with timeout := timeout }) },
      .success)

/-- `___ieee80211_start_rx_ba_session`. -/
def startRxBaSession (hw : BaHw) (s : AmpduMlme) (env : BaEnv) (dialogToken : UInt8)
    (timeout startSeqNum baPolicy tid bufSize : UInt16) (tx autoSeq : Bool) :
    AmpduMlme × List BaOut :=
  match s.caps.refusal tid baPolicy bufSize with
  | some status => startEnd hw s tid dialogToken bufSize timeout tx env.allocSkb status
  | none =>
    let bufSize := s.caps.bufSize bufSize
    if s.aggSessionValid tid.toNat && s.tidRxToken tid.toNat = dialogToken then
      let status := match s.tidRx tid.toNat with
        | some tidRx => if tidRx.timeout = timeout then .success else .requestDeclined
        | none => .requestDeclined
      startEnd hw s tid dialogToken bufSize timeout tx env.allocSkb status
    else
      let (s, _) := stopRxBaSession s tid.toNat true false env.allocSkb
      let (s, status) := setupSession hw s env timeout startSeqNum tid bufSize autoSeq
      startEnd hw s tid dialogToken bufSize timeout tx env.allocSkb status

/-- The fixed fields of an ADDBA request. -/
structure AddbaReq where
  dialogToken : UInt8
  capab : UInt16
  timeout : UInt16
  startSeqNum : UInt16

/-- `ieee80211_process_addba_request`. -/
def processAddbaRequest (hw : BaHw) (s : AmpduMlme) (env : BaEnv) (req : AddbaReq)
    (parseError : Bool) : AmpduMlme × List BaOut :=
  if parseError then (s, [])
  else
    startRxBaSession hw s env req.dialogToken req.timeout (req.startSeqNum >>> 4)
      (addbaPolicy req.capab) (addbaTid req.capab) (addbaBufSize req.capab) true false

/-- `ieee80211_process_delba`, on the recipient's side. -/
def processDelba (s : AmpduMlme) (params : UInt16) : AmpduMlme × List BaOut :=
  if (params &&& 0x0800) >>> 11 = 1 then
    stopRxBaSession s ((params &&& 0xf000) >>> 12).toNat false true true
  else (s, [])

/-- `test_and_clear_bit`, with what is done if the bit is set. -/
def whenBit (bit : Bool) (f : AmpduMlme → AmpduMlme × List BaOut)
    (r : AmpduMlme × List BaOut) : AmpduMlme × List BaOut :=
  if bit then ((f r.1).1, r.2 ++ (f r.1).2) else r

/-- `ieee80211_ba_session_work`, for one TID. -/
def baSessionWorkTid (hw : BaHw) (env : ℕ → BaEnv) (blocked : Bool) (r : AmpduMlme × List BaOut)
    (tid : ℕ) : AmpduMlme × List BaOut :=
  let s := r.1
  let r := whenBit (s.tidRxTimerExpired tid) (fun s => stopRxBaSession
    { s with tidRxTimerExpired := Function.update s.tidRxTimerExpired tid false } tid true true
    (env tid).allocSkb) r
  let r := whenBit (s.tidRxStopRequested tid) (fun s => stopRxBaSession
    { s with tidRxStopRequested := Function.update s.tidRxStopRequested tid false } tid true true
    (env tid).allocSkb) r
  let r := whenBit (!blocked && s.tidRxManageOffl tid) (fun s => startRxBaSession hw
    { s with tidRxManageOffl := Function.update s.tidRxManageOffl tid false } (env tid) 0 0 0 1
    (UInt16.ofNat tid) MAX_AMPDU_BUF_HT false true) r
  whenBit (s.tidRxManageOffl (tid + NUM_TIDS)) (fun s => stopRxBaSession
    { s with tidRxManageOffl := Function.update s.tidRxManageOffl (tid + NUM_TIDS) false } tid true
    false (env tid).allocSkb) r

/-- `ieee80211_ba_session_work`. -/
def baSessionWork (hw : BaHw) (s : AmpduMlme) (env : ℕ → BaEnv) : AmpduMlme × List BaOut :=
  (List.range NUM_TIDS).foldl (baSessionWorkTid hw env s.caps.blockBa) (s, [])

/-! ### A station as a machine -/

/-- What can happen. -/
inductive BaOp
  /-- An ADDBA request, and whether its elements could be parsed. -/
  | addba (env : BaEnv) (req : AddbaReq) (parseError : Bool)
  | delba (params : UInt16)
  /-- `sta_rx_agg_session_timer_expired`, `ieee80211_rx_ba_timer_expired`. -/
  | timerExpired (tid : ℕ)
  /-- `ieee80211_stop_rx_ba_session`. -/
  | stopRequested (bitmap : ℕ → Bool)
  /-- `ieee80211_manage_rx_ba_offl`. -/
  | manageOffl (tid : ℕ)
  /-- `ieee80211_ba_session_work`. -/
  | work (env : ℕ → BaEnv)
  | caps (caps : BaCaps)

/-- One step. -/
def baStep (hw : BaHw) (s : AmpduMlme) : BaOp → Option (AmpduMlme × List BaOut)
  | .addba env req parseError => some (processAddbaRequest hw s env req parseError)
  | .delba params => some (processDelba s params)
  | .timerExpired tid =>
    some ({ s with tidRxTimerExpired := Function.update s.tidRxTimerExpired tid true }, [])
  | .stopRequested bitmap =>
    some ({ s with tidRxStopRequested := fun tid => s.tidRxStopRequested tid || bitmap tid }, [])
  | .manageOffl tid =>
    some ({ s with tidRxManageOffl := Function.update s.tidRxManageOffl tid true }, [])
  | .work env => some (baSessionWork hw s env)
  | .caps caps => some ({ s with caps := caps }, [])

/-! ### The fields of a response -/

theorem addbaTid_lt (capab : UInt16) : (addbaTid capab).toNat < 16 := by
  have hle : (capab.toNat &&& 0x3c) ≤ 0x3c := Nat.and_le_right
  rw [addbaTid, UInt16.toNat_shiftRight, UInt16.toNat_and, Nat.shiftRight_eq_div_pow]
  show (capab.toNat &&& 0x3c) / 4 < 16
  omega

theorem addbaBufSize_lt (capab : UInt16) : (addbaBufSize capab).toNat < 1024 := by
  have hle : (capab.toNat &&& 0xffc0) ≤ 0xffc0 := Nat.and_le_right
  rw [addbaBufSize, UInt16.toNat_shiftRight, UInt16.toNat_and, Nat.shiftRight_eq_div_pow]
  show (capab.toNat &&& 0xffc0) / 64 < 1024
  omega

theorem shiftLeft_six_and_low (b : UInt16) : b <<< 6 &&& (0x3c : UInt16) = 0 := by
  rw [← UInt16.toBitVec_inj]
  ext i hi
  simp only [UInt16.toBitVec_and, UInt16.toBitVec_shiftLeft]
  interval_cases i <;> simp

theorem shiftLeft_six_and_high (b : UInt16) : b <<< 6 &&& (0xffc0 : UInt16) = b <<< 6 := by
  rw [← UInt16.toBitVec_inj]
  ext i hi
  simp only [UInt16.toBitVec_and, UInt16.toBitVec_shiftLeft]
  interval_cases i <;> simp

theorem or_and_distrib (x y m : UInt16) : (x ||| y) &&& m = x &&& m ||| y &&& m := by
  rw [← UInt16.toBitVec_inj]
  simp only [UInt16.toBitVec_and, UInt16.toBitVec_or]
  ext i hi
  simp only [BitVec.getElem_and, BitVec.getElem_or, Bool.and_or_distrib_right]

theorem addbaCapab_low (amsdu : Bool) {tid : UInt16} (htid : tid.toNat < 16) :
    ((if amsdu then (1 : UInt16) else 0) ||| (1 : UInt16) <<< 1 ||| tid <<< 2) &&& (0x3c : UInt16) =
        tid <<< 2 ∧
      ((if amsdu then (1 : UInt16) else 0) ||| (1 : UInt16) <<< 1 ||| tid <<< 2) &&&
        (0xffc0 : UInt16) = 0 ∧
      tid <<< 2 >>> 2 = tid := by
  obtain ⟨n, hn, rfl⟩ : ∃ n, n < 16 ∧ tid = UInt16.ofNat n :=
    ⟨tid.toNat, htid, UInt16.ofNat_toNat.symm⟩
  cases amsdu <;> interval_cases n <;> decide

theorem addbaTid_addbaCapab (amsdu : Bool) {tid : UInt16} (htid : tid.toNat < 16) (b : UInt16) :
    addbaTid (addbaCapab amsdu 1 tid b) = tid := by
  obtain ⟨hlow, -, hback⟩ := addbaCapab_low amsdu htid
  rw [addbaTid, addbaCapab, or_and_distrib, hlow, shiftLeft_six_and_low, UInt16.or_zero, hback]

theorem addbaBufSize_addbaCapab (amsdu : Bool) {tid b : UInt16} (htid : tid.toNat < 16)
    (hb : b.toNat < 1024) : addbaBufSize (addbaCapab amsdu 1 tid b) = b := by
  obtain ⟨-, hlow, -⟩ := addbaCapab_low amsdu htid
  have hback : b <<< 6 >>> 6 = b := by
    rw [← UInt16.toNat_inj, UInt16.toNat_shiftRight, UInt16.toNat_shiftLeft,
      Nat.shiftLeft_eq, Nat.shiftRight_eq_div_pow]
    show b.toNat * 64 % 65536 / 64 = b.toNat
    omega
  rw [addbaBufSize, addbaCapab, or_and_distrib, hlow, shiftLeft_six_and_high, UInt16.zero_or, hback]

/-! ### Sessions and their marks -/

/-- A session is marked as valid exactly if there is one. -/
def BaInv (s : AmpduMlme) : Prop := ∀ tid, s.aggSessionValid tid = true ↔ s.tidRx tid ≠ none

variable {status : StatusCode} {outs : List BaOut} {caps : BaCaps}

section Inv

variable {hw : BaHw} {s : AmpduMlme} {env : BaEnv}

theorem BaInv.stop (h : BaInv s) (tid : ℕ) (recipient tx allocSkb : Bool) :
    BaInv (stopRxBaSession s tid recipient tx allocSkb).1 := by
  rw [stopRxBaSession]
  split
  · intro tid'
    by_cases htid : tid' = tid
    · simp [htid]
    · simpa [htid] using h tid'
  · exact h

theorem BaInv.startEnd (h : BaInv s) {tid bufSize timeout : UInt16} {dialogToken : UInt8}
    {tx allocSkb : Bool} (hsome : status = .success → s.tidRx tid.toNat ≠ none) :
    BaInv (startEnd hw s tid dialogToken bufSize timeout tx allocSkb status).1 := by
  rw [Mac80211.startEnd]
  dsimp only
  split
  · rename_i hstatus
    intro tid'
    by_cases htid : tid' = tid.toNat
    · simpa [htid] using hsome hstatus
    · simpa [htid] using h tid'
  · exact h

theorem setupSession_spec (hhw : hw.supportsReorderingBuffer = false)
    (timeout startSeqNum tid bufSize : UInt16) (autoSeq : Bool) :
    setupSession hw s env timeout startSeqNum tid bufSize autoSeq = (s, .requestDeclined) ∨
    setupSession hw s env timeout startSeqNum tid bufSize autoSeq =
      ({ s with
          tidRx := Function.update s.tidRx tid.toNat (some
            { newTidAmpduRx bufSize.toNat startSeqNum.toNat autoSeq with timeout := timeout }) },
        .success) := by
  rw [setupSession, hhw, if_neg Bool.false_ne_true]
  split
  · exact .inl rfl
  split
  · exact .inl rfl
  split
  · exact .inl rfl
  · exact .inr rfl

theorem refusal_ne_success {tid baPolicy bufSize : UInt16}
    (h : caps.refusal tid baPolicy bufSize = some status) : status ≠ .success := by
  rintro rfl
  rw [BaCaps.refusal] at h
  split at h
  · cases h
  split at h
  · cases h
  split at h
  · cases h
  split at h <;> cases h

/-- What goes into the end of `___ieee80211_start_rx_ba_session`: the state, the status and the
size. -/
inductive Started (s : AmpduMlme) (dialogToken : UInt8) (timeout baPolicy tid bufSize : UInt16) :
    AmpduMlme → UInt16 → StatusCode → Prop
  | refused {status : StatusCode} (href : s.caps.refusal tid baPolicy bufSize = some status) :
      Started s dialogToken timeout baPolicy tid bufSize s bufSize status
  | kept {sess : RxBaSession} (href : s.caps.refusal tid baPolicy bufSize = none)
      (htoken : s.tidRxToken tid.toNat = dialogToken) (hsess : s.tidRx tid.toNat = some sess)
      (htimeout : sess.timeout = timeout) :
      Started s dialogToken timeout baPolicy tid bufSize s (s.caps.bufSize bufSize) .success
  | declined (href : s.caps.refusal tid baPolicy bufSize = none)
      (hother : ∀ sess, s.tidRx tid.toNat = some sess → sess.timeout ≠ timeout) :
      Started s dialogToken timeout baPolicy tid bufSize s (s.caps.bufSize bufSize) .requestDeclined
  | failed {s' : AmpduMlme} (href : s.caps.refusal tid baPolicy bufSize = none) (hinv : BaInv s')
      (hnew : s.aggSessionValid tid.toNat = true → s.tidRxToken tid.toNat ≠ dialogToken) :
      Started s dialogToken timeout baPolicy tid bufSize s' (s.caps.bufSize bufSize)
        .requestDeclined
  | opened {s' : AmpduMlme} {sess : RxBaSession}
      (href : s.caps.refusal tid baPolicy bufSize = none) (hinv : BaInv s')
      (hnew : s.aggSessionValid tid.toNat = true → s.tidRxToken tid.toNat ≠ dialogToken)
      (hsize : sess.bufSize = (s.caps.bufSize bufSize).toNat) (htimeout : sess.timeout = timeout) :
      Started s dialogToken timeout baPolicy tid bufSize
        { s' with tidRx := Function.update s'.tidRx tid.toNat (some sess) }
        (s.caps.bufSize bufSize) .success

/-- **Every call is one of these.** -/
theorem startRxBaSession_spec (hhw : hw.supportsReorderingBuffer = false) (h : BaInv s)
    (dialogToken : UInt8) (timeout startSeqNum baPolicy tid bufSize : UInt16) (tx autoSeq : Bool) :
    ∃ s' size status, Started s dialogToken timeout baPolicy tid bufSize s' size status ∧
      startRxBaSession hw s env dialogToken timeout startSeqNum baPolicy tid bufSize tx autoSeq =
        startEnd hw s' tid dialogToken size timeout tx env.allocSkb status := by
  rw [startRxBaSession]
  split
  · rename_i status href
    exact ⟨s, bufSize, status, .refused href, rfl⟩
  · rename_i href
    dsimp only
    split
    · rename_i hupdate
      rw [Bool.and_eq_true, decide_eq_true_eq] at hupdate
      cases hsess : s.tidRx tid.toNat with
      | none => exact ⟨s, _, _, .declined href (by simp [hsess]), rfl⟩
      | some sess =>
        by_cases htimeout : sess.timeout = timeout
        · refine ⟨s, _, _, .kept href hupdate.2 hsess htimeout, ?_⟩
          simp only [if_pos htimeout]
        · refine ⟨s, _, _, .declined href (by simpa [hsess] using htimeout), ?_⟩
          simp only [if_neg htimeout]
    · rename_i hupdate
      have hnew : s.aggSessionValid tid.toNat = true → s.tidRxToken tid.toNat ≠ dialogToken := by
        intro hvalid htoken
        exact hupdate (by simp [hvalid, htoken])
      have hstop := h.stop tid.toNat true false env.allocSkb
      rcases @setupSession_spec hw _ env hhw timeout startSeqNum tid (s.caps.bufSize bufSize) autoSeq
        with heq | heq
      · rw [heq]
        exact ⟨_, _, _, .failed href hstop hnew, rfl⟩
      · rw [heq]
        exact ⟨_, _, _, .opened href hstop hnew rfl rfl, rfl⟩

theorem BaInv.start (h : BaInv s) (hhw : hw.supportsReorderingBuffer = false) (dialogToken : UInt8)
    (timeout startSeqNum baPolicy tid bufSize : UInt16) (tx autoSeq : Bool) :
    BaInv (startRxBaSession hw s env dialogToken timeout startSeqNum baPolicy tid bufSize tx
      autoSeq).1 := by
  obtain ⟨s', size, status, hst, heq⟩ := @startRxBaSession_spec hw s env hhw h dialogToken timeout
    startSeqNum baPolicy tid bufSize tx autoSeq
  rw [heq]
  cases hst with
  | refused href => exact h.startEnd fun hstatus => absurd hstatus (refusal_ne_success href)
  | kept _ _ hsess => exact h.startEnd fun _ => by simp [hsess]
  | declined => exact h.startEnd nofun
  | failed _ hinv => exact hinv.startEnd nofun
  | @opened s' sess _ hinv =>
    -- the new session is there, and is marked at the end
    intro tid'
    by_cases htid : tid' = tid.toNat
    · simp [Mac80211.startEnd, htid]
    · simpa [Mac80211.startEnd, htid] using hinv tid'

/-- The worker keeps the marks right, and sends nothing but DELBAs. -/
def WorkInv (r : AmpduMlme × List BaOut) : Prop := BaInv r.1 ∧ ∀ o ∈ r.2, ∃ tid, o = .delba tid

theorem WorkInv.whenBit {r : AmpduMlme × List BaOut} (h : WorkInv r) (bit : Bool)
    {f : AmpduMlme → AmpduMlme × List BaOut} (hf : ∀ s, BaInv s → WorkInv (f s)) :
    WorkInv (whenBit bit f r) := by
  rw [Mac80211.whenBit]
  split
  · obtain ⟨hinv, houts⟩ := hf r.1 h.1
    refine ⟨hinv, fun o ho => ?_⟩
    rcases List.mem_append.mp ho with ho | ho
    · exact h.2 o ho
    · exact houts o ho
  · exact h

theorem workInv_stop (h : BaInv s) (tid : ℕ) (recipient tx allocSkb : Bool) :
    WorkInv (stopRxBaSession s tid recipient tx allocSkb) := by
  refine ⟨h.stop tid recipient tx allocSkb, fun o ho => ?_⟩
  rw [stopRxBaSession] at ho
  split at ho
  · dsimp only at ho
    split at ho
    · exact ⟨tid, List.mem_singleton.mp ho⟩
    · cases ho
  · cases ho

theorem workInv_start (h : BaInv s) (hhw : hw.supportsReorderingBuffer = false)
    (dialogToken : UInt8) (timeout startSeqNum baPolicy tid bufSize : UInt16) (autoSeq : Bool) :
    WorkInv (startRxBaSession hw s env dialogToken timeout startSeqNum baPolicy tid bufSize false
      autoSeq) := by
  refine ⟨h.start hhw dialogToken timeout startSeqNum baPolicy tid bufSize false autoSeq, ?_⟩
  obtain ⟨s', size, status, -, heq⟩ := @startRxBaSession_spec hw s env hhw h dialogToken timeout
    startSeqNum baPolicy tid bufSize false autoSeq
  rw [heq]
  exact nofun

theorem WorkInv.tid {r : AmpduMlme × List BaOut} (h : WorkInv r)
    (hhw : hw.supportsReorderingBuffer = false) (envs : ℕ → BaEnv) (blocked : Bool) (tid : ℕ) :
    WorkInv (baSessionWorkTid hw envs blocked r tid) := by
  refine (((h.whenBit _ fun s hs => ?_).whenBit _ fun s hs => ?_).whenBit _ fun s hs => ?_).whenBit _
    fun s hs => ?_
  · refine workInv_stop ?_ _ _ _ _
    exact hs
  · refine workInv_stop ?_ _ _ _ _
    exact hs
  · refine workInv_start ?_ hhw _ _ _ _ _ _ _
    exact hs
  · refine workInv_stop ?_ _ _ _ _
    exact hs

theorem workInv_baSessionWork (h : BaInv s) (hhw : hw.supportsReorderingBuffer = false)
    (envs : ℕ → BaEnv) : WorkInv (baSessionWork hw s envs) := by
  rw [baSessionWork]
  refine List.foldlRecOn (motive := WorkInv) _ _ ⟨h, nofun⟩ fun r hr tid _ => ?_
  exact hr.tid hhw envs _ tid

theorem BaInv.step (h : BaInv s) (hhw : hw.supportsReorderingBuffer = false) {op : BaOp}
    {s' : AmpduMlme} (hstep : baStep hw s op = some (s', outs)) : BaInv s' := by
  cases op with
  | addba env req parseError =>
    obtain rfl := congrArg Prod.fst (Option.some.inj hstep)
    rw [processAddbaRequest]
    split
    · exact h
    · exact h.start hhw _ _ _ _ _ _ _ _
  | delba params =>
    obtain rfl := congrArg Prod.fst (Option.some.inj hstep)
    rw [processDelba]
    split
    · exact h.stop _ _ _ _
    · exact h
  | work envs =>
    obtain rfl := congrArg Prod.fst (Option.some.inj hstep)
    exact (workInv_baSessionWork h hhw envs).1
  | timerExpired => obtain ⟨rfl, -⟩ := Prod.mk.inj (Option.some.inj hstep); exact h
  | stopRequested => obtain ⟨rfl, -⟩ := Prod.mk.inj (Option.some.inj hstep); exact h
  | manageOffl => obtain ⟨rfl, -⟩ := Prod.mk.inj (Option.some.inj hstep); exact h
  | caps => obtain ⟨rfl, -⟩ := Prod.mk.inj (Option.some.inj hstep); exact h

/-- **A session is marked as valid exactly if there is one**, in every state of every run. -/
theorem valid_iff_of_reach (hhw : hw.supportsReorderingBuffer = false)
    (h : Reach (baStep hw) (fun _ _ _ => True) { caps := caps } s outs) : BaInv s := by
  refine h.invariant (fun s _ => BaInv s) (fun tid => by simp) ?_
  intro s _ op s' o hinv _ hstep
  exact hinv.step hhw hstep

end Inv

/-! ### What a response promises -/

/-- A success names size and timeout of the session that is active then; anything else leaves an
active one with the same token alone. -/
def RespAgrees (s s' : AmpduMlme) (resp : AddbaResp) : Prop :=
  let tid := (addbaTid resp.capab).toNat
  (resp.status = .success → ∃ sess, s'.tidRx tid = some sess ∧ s'.aggSessionValid tid = true ∧
    sess.bufSize = (addbaBufSize resp.capab).toNat ∧ sess.timeout = resp.timeout) ∧
  (resp.status ≠ .success → s.aggSessionValid tid = true → s.tidRxToken tid = resp.dialogToken →
    s'.tidRx tid = s.tidRx tid ∧ s'.aggSessionValid tid = true ∧
      s'.tidRxToken tid = s.tidRxToken tid)

/-- The responses of a step are true. -/
def Agrees (s s' : AmpduMlme) (outs : List BaOut) : Prop :=
  ∀ resp, .addbaResp resp ∈ outs → RespAgrees s s' resp

/-- The request repeats token and timeout of the active session, and asks for another buffer size.
-/
def Resizes (s : AmpduMlme) (req : AddbaReq) : Prop :=
  let tid := addbaTid req.capab
  s.caps.refusal tid (addbaPolicy req.capab) (addbaBufSize req.capab) = none ∧
    s.tidRxToken tid.toNat = req.dialogToken ∧
    ∃ sess, s.tidRx tid.toNat = some sess ∧ sess.timeout = req.timeout ∧
      sess.bufSize ≠ (s.caps.bufSize (addbaBufSize req.capab)).toNat

/-- Such a request is answered. -/
def AnsweredResize (s : AmpduMlme) : BaOp → Prop
  | .addba env req parseError => parseError = false ∧ env.allocSkb = true ∧ Resizes s req
  | _ => False

section Agreement

variable {hw : BaHw} {s s' : AmpduMlme} {env : BaEnv}

theorem bufSize_lt {tid baPolicy bufSize : UInt16}
    (href : caps.refusal tid baPolicy bufSize = none) :
    tid.toNat < 8 ∧ (caps.bufSize bufSize).toNat ≤ 256 := by
  have hmax : caps.maxBufSize.toNat ≤ 256 := by
    rw [BaCaps.maxBufSize]
    split <;> decide
  have hboth : ¬ FIRST_TSPEC_TSID ≤ tid ∧ ¬ caps.maxBufSize < bufSize := by
    rw [BaCaps.refusal] at href
    split at href
    · cases href
    rename_i htid
    split at href
    · cases href
    split at href
    · cases href
    split at href
    · cases href
    rename_i hsize
    rw [Bool.or_eq_true, not_or, decide_eq_true_eq] at hsize
    exact ⟨htid, hsize.2⟩
  obtain ⟨htid, hsize⟩ := hboth
  rw [UInt16.le_iff_toNat_le] at htid
  rw [UInt16.lt_iff_toNat_lt] at hsize
  constructor
  · have height : FIRST_TSPEC_TSID.toNat = 8 := rfl
    omega
  · have hinner : (if bufSize = 0 then caps.maxBufSize else bufSize).toNat ≤ 256 := by
      split <;> omega
    simp only [BaCaps.bufSize]
    generalize (if bufSize = 0 then caps.maxBufSize else bufSize) = size at hinner ⊢
    split
    · rename_i hlt
      rw [UInt16.lt_iff_toNat_lt] at hlt
      omega
    · exact hinner

theorem agrees_startEnd {s₀ : AmpduMlme} {tid size timeout : UInt16} {dialogToken : UInt8}
    {allocSkb : Bool} (htid : tid.toNat < 16) (hsize : size.toNat < 1024) :
    Agrees s₀ (startEnd hw s tid dialogToken size timeout true allocSkb status).1
        (startEnd hw s tid dialogToken size timeout true allocSkb status).2 ↔
      (allocSkb = true → if status = .success then
          ∃ sess, s.tidRx tid.toNat = some sess ∧ sess.bufSize = size.toNat ∧ sess.timeout = timeout
        else s₀.aggSessionValid tid.toNat = true → s₀.tidRxToken tid.toNat = dialogToken →
          s.tidRx tid.toNat = s₀.tidRx tid.toNat ∧ s.aggSessionValid tid.toNat = true ∧
            s.tidRxToken tid.toNat = s₀.tidRxToken tid.toNat) := by
  have htid' := addbaTid_addbaCapab hw.supportsAmsduInAmpdu htid size
  have hsize' := addbaBufSize_addbaCapab hw.supportsAmsduInAmpdu htid hsize
  cases allocSkb with
  | false => simp [Agrees, startEnd, sendAddbaResp]
  | true =>
    by_cases hstatus : status = .success
    · simp [Agrees, startEnd, sendAddbaResp, RespAgrees, htid', hsize', hstatus]
    · simp [Agrees, startEnd, sendAddbaResp, RespAgrees, htid', hstatus]

theorem addba_agrees (hhw : hw.supportsReorderingBuffer = false) (h : BaInv s) (req : AddbaReq) :
    Agrees s (processAddbaRequest hw s env req false).1 (processAddbaRequest hw s env req false).2 ↔
      ¬ (env.allocSkb = true ∧ Resizes s req) := by
  have htid := addbaTid_lt req.capab
  have hlt := addbaBufSize_lt req.capab
  rw [processAddbaRequest, if_neg Bool.false_ne_true]
  obtain ⟨s', size, status, hst, heq⟩ := @startRxBaSession_spec hw s env hhw h req.dialogToken
    req.timeout (req.startSeqNum >>> 4) (addbaPolicy req.capab) (addbaTid req.capab)
    (addbaBufSize req.capab) true false
  rw [heq]
  cases hst with
  | refused href =>
    rw [agrees_startEnd htid hlt, if_neg (refusal_ne_success href)]
    refine iff_of_true (fun _ hvalid _ => ⟨rfl, hvalid, rfl⟩) ?_
    rintro ⟨-, hnone, -⟩
    rw [href] at hnone
    cases hnone
  | @kept sess href htoken hsess htimeout =>
    have hle := (bufSize_lt href).2
    rw [agrees_startEnd htid (by omega), if_pos rfl, not_and]
    refine imp_congr_right fun _ => ?_
    constructor
    · rintro ⟨sess', hsess', hsize, -⟩ ⟨-, -, sess'', hsess'', -, hne⟩
      rw [hsess'] at hsess''
      cases hsess''
      exact hne hsize
    · intro hno
      refine ⟨sess, hsess, ?_, htimeout⟩
      by_contra hne
      exact hno ⟨href, htoken, sess, hsess, htimeout, hne⟩
  | declined href hother =>
    have hle := (bufSize_lt href).2
    rw [agrees_startEnd htid (by omega), if_neg (by decide)]
    refine iff_of_true (fun _ hvalid _ => ⟨rfl, hvalid, rfl⟩) ?_
    rintro ⟨-, -, -, sess, hsess, htimeout, -⟩
    exact hother sess hsess htimeout
  | failed href hinv hnew =>
    have hle := (bufSize_lt href).2
    rw [agrees_startEnd htid (by omega), if_neg (by decide)]
    refine iff_of_true (fun _ hvalid htoken => absurd htoken (hnew hvalid)) ?_
    rintro ⟨-, -, htoken, sess, hsess, -, -⟩
    exact hnew ((h _).mpr (by simp [hsess])) htoken
  | @opened s' sess href hinv hnew hsize htimeout =>
    have hle := (bufSize_lt href).2
    rw [agrees_startEnd htid (by omega), if_pos rfl]
    refine iff_of_true (fun _ => ⟨sess, Function.update_self .., hsize, htimeout⟩) ?_
    rintro ⟨-, -, htoken, sess, hsess, -, -⟩
    exact hnew ((h _).mpr (by simp [hsess])) htoken

theorem agrees_of_delbas (h : ∀ o ∈ outs, ∃ tid, o = .delba tid) : Agrees s s' outs := by
  intro resp hresp
  obtain ⟨tid, htid⟩ := h _ hresp
  cases htid

/-- **The responses of a step are true exactly if it does not answer a request that resizes the
active session.** -/
theorem addba_agrees_iff (hhw : hw.supportsReorderingBuffer = false) {caps : BaCaps}
    {before : List BaOut}
    (h : Reach (baStep hw) (fun _ _ _ => True) { caps := caps } s before) {op : BaOp}
    {outs : List BaOut} (hstep : baStep hw s op = some (s', outs)) :
    Agrees s s' outs ↔ ¬ AnsweredResize s op := by
  have hinv := valid_iff_of_reach hhw h
  cases op with
  | addba env req parseError =>
    obtain ⟨rfl, rfl⟩ : s' = _ ∧ outs = _ := Prod.ext_iff.mp (Option.some.inj hstep).symm
    cases parseError with
    | true => exact iff_of_true (fun _ => nofun) (by rintro ⟨hfalse, -⟩; cases hfalse)
    | false => simpa [AnsweredResize] using addba_agrees hhw hinv req
  | delba params =>
    obtain ⟨rfl, rfl⟩ : s' = _ ∧ outs = _ := Prod.ext_iff.mp (Option.some.inj hstep).symm
    refine iff_of_true ?_ not_false
    rw [processDelba]
    split
    · exact agrees_of_delbas (workInv_stop hinv _ _ _ _).2
    · exact fun _ => nofun
  | work envs =>
    obtain ⟨rfl, rfl⟩ : s' = _ ∧ outs = _ := Prod.ext_iff.mp (Option.some.inj hstep).symm
    exact iff_of_true (agrees_of_delbas (workInv_baSessionWork hinv hhw envs).2) not_false
  | timerExpired =>
    cases hstep
    exact iff_of_true (fun _ => nofun) not_false
  | stopRequested =>
    cases hstep
    exact iff_of_true (fun _ => nofun) not_false
  | manageOffl =>
    cases hstep
    exact iff_of_true (fun _ => nofun) not_false
  | caps =>
    cases hstep
    exact iff_of_true (fun _ => nofun) not_false

/-- A request for TID 0, without a timeout. -/
def addbaReq (dialogToken : UInt8) (bufSize : UInt16) : BaOp :=
  .addba {} ⟨dialogToken, addbaCapab false 1 0 bufSize, 0, 0⟩ false

/-- The general theorem on a request that replaces a session. -/
theorem addba_agrees_replacement : ∃ s s' before outs,
    Reach (baStep {}) (fun _ _ _ => True) { caps := {} } s before ∧
    baStep {} s (addbaReq 2 8) = some (s', outs) ∧
    outs = [.addbaResp ⟨2, .success, addbaCapab false 1 0 8, 0⟩] ∧ Agrees s s' outs := by
  have hfirst : Reach (baStep {}) (fun _ _ _ => True) { caps := {} } _ _ :=
    Reach.step (e := addbaReq 1 64) .init trivial rfl
  refine ⟨_, _, _, _, hfirst, rfl, by decide +kernel, ?_⟩
  refine (@addba_agrees_iff {} _ _ rfl {} _ hfirst (addbaReq 2 8) _ rfl).mpr ?_
  rintro ⟨-, -, -, htoken, -⟩
  revert htoken
  decide +kernel

/-- **A resized update is answered with the new size, and the session keeps its own.** -/
theorem resized_update_disagrees : ∃ s s' before outs,
    Reach (baStep {}) (fun _ _ _ => True) { caps := {} } s before ∧
    baStep {} s (addbaReq 1 8) = some (s', outs) ∧ ¬ Agrees s s' outs := by
  have hfirst : Reach (baStep {}) (fun _ _ _ => True) { caps := {} } _ _ :=
    Reach.step (e := addbaReq 1 64) .init trivial rfl
  refine ⟨_, _, _, _, hfirst, rfl, fun hagrees => ?_⟩
  have hresp := hagrees ⟨1, .success, addbaCapab false 1 0 8, 0⟩ (by decide +kernel)
  obtain ⟨sess, hsess, -, hsize, -⟩ := hresp.1 rfl
  have hbuf := congrArg (Option.map fun t : RxBaSession => t.bufSize) hsess
  rw [Option.map_some, hsize] at hbuf
  revert hbuf
  decide +kernel

end Agreement

end Mac80211
