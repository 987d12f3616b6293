import Mac80211.Rx.Defragment
import Mac80211.Wpa.Replay
import Mathlib.Data.List.Chain

/-!
# Which fragments end up in one frame

The code matches a plain fragment with the station's PTK, and its sequential check reads whatever
has moved that key's counter; an entry begun by a plain fragment is not checked at all. So a sender
must not change between plain and protected fragments under one key, and no key may change under the
fragments that wait.

## Main definitions

* `MsduOk`, `FragmentCond`, `KeepsSender`, `FragInv`

## Main results

* `FragmentCond.fromSender` — what decryption makes of such a fragment
* `msduOk_of_reach` — no run of them mixes protections
-/

namespace Mac80211

open Machine Option

/-! ### The machine -/

/-- Something happens on the receive side. -/
inductive RxEvent
  /-- A frame is received: the buffer, its station, the QoS control byte that `ieee80211_parse_qos`
  saw, the time, and the allocations. -/
  | frame (sdata : SdataId) (skb : RxSkb) (sta : Option StaId) (qc : UInt8) (jiffies : UInt64)
      (env : RxAlloc)
  | key (op : KeyOp)

/-- What the handlers are given for a frame. -/
def rxDataOf (skb : RxSkb) (sta : Option StaId) (qc : UInt8) : RxData where
  skb := skb
  sta := sta
  seqnoIdx := (parseQos skb.hdr.frameControl qc).1
  securityIdx := (parseQos skb.hdr.frameControl qc).2

/-- The fragments of a frame that was put together. -/
def Defragmented.msdus : Defragmented → List (List Fragment)
  | .msdu _ fragments => [fragments]
  | _ => []

/-- One event. The output is the frame it completes, if any. -/
def rxStep (C : Crypto) (hz : UInt64) (s : Local) : RxEvent → Option (Local × List (List Fragment))
  | .frame i skb sta qc jiffies env =>
    let out := rxFragment C hz jiffies env s i (rxDataOf skb sta qc)
    some (out.2, out.1.msdus)
  | .key op => (op.apply s).map fun s' => (s', [])

/-- Protected with one of the suites the sequential check is for. -/
def Fragment.pnProtected (f : Fragment) : Bool :=
  f.isProtected && f.cipher.any Cipher.isCcmpOrGcmp

/-- The packet numbers go up by exactly one. -/
def Consecutive (fs : List Fragment) : Prop :=
  fs.IsChain fun a b => pnVal b.pn = pnVal a.pn + 1

/-- No mixing. -/
def MsduOk (fs : List Fragment) : Prop :=
  ∀ first rest, fs = first :: rest →
    (first.pnProtected = true →
      (∀ g ∈ fs, g.isProtected = true ∧ g.verified = true ∧ g.key = first.key) ∧
        Consecutive fs) ∧
    (first.isProtected = false → ∀ g ∈ fs, g.isProtected = false)

/-- The transmitters, and what they protect. -/
structure Senders where
  /-- The station a transmitter address belongs to on an interface. -/
  sta : SdataId → Mac → Option StaId
  /-- The transmitter protects its fragments to the interface while this is its pairwise key. -/
  protects : SdataId → Mac → Option KeyId → Bool

/-- The pairwise key in use with a transmitter. -/
def Senders.ptk (P : Senders) (s : Local) (i : SdataId) (a : Mac) : Option KeyId :=
  (P.sta i a).bind s.ptkOf

/-- The stations decide whose key is whose. -/
theorem Senders.ptk_congr {s s' : Local} (P : Senders) (h : s'.sta = s.sta) (i : SdataId) (a : Mac) :
    P.ptk s' i a = P.ptk s i a := by
  have hptkOf : s'.ptkOf = s.ptkOf := funext fun j => by simp only [Local.ptkOf, h]
  rw [ptk, hptkOf]
  rfl

/-- `ieee80211_rx_h_defragment` has something to do with the frame. -/
def Hdr.isFragment (h : Hdr) : Bool :=
  !isCtl h.frameControl && !isMulticastEtherAddr h.addr1 &&
    (hasMorefrags h.frameControl || h.frag ≠ 0)

/-- The condition on a fragment that is received. -/
structure FragmentCond (P : Senders) (s : Local) (i : SdataId) (rx : RxData) : Prop where
  /-- It is matched with the transmitter's station. -/
  sta : rx.sta = P.sta i rx.skb.hdr.addr2
  /-- It is protected if the transmitter protects its fragments at this time. -/
  isProtected : hasProtected rx.skb.hdr.frameControl =
    P.protects i rx.skb.hdr.addr2 (P.ptk s i rx.skb.hdr.addr2)
  /-- It names no other pairwise key than the one in use. -/
  ptkIdx : ∀ k ∈ rxPtkIdx s rx, k ∈ P.ptk s i rx.skb.hdr.addr2
  /-- Its packet number is compared and stored here: the hardware has neither stripped its cipher
  header nor validated the number. -/
  checked : hasProtected rx.skb.hdr.frameControl = true →
    ∀ k ∈ P.ptk s i rx.skb.hdr.addr2, (s.keys k).cipher.isCcmpOrGcmp = true →
      (rx.skb.status.decrypted && rx.skb.status.ivStripped) = false ∧
        rx.pnCheckedBy (s.keys k).cipher = true

/-- A key change leaves the pairwise key of a protected fragment's sender alone, and does not make
the sender of a plain one protect what it sends. -/
def KeepsSender (P : Senders) (s s' : Local) (i : SdataId) (f : Fragment) : Prop :=
  let a := f.skb.hdr.addr2
  (f.isProtected = false → P.protects i a (P.ptk s' i a) = false) ∧
    (f.pnProtected = true → P.ptk s' i a = P.ptk s i a)

/-- The condition on an event. Keys change only in ways that keep the senders of the frames that
have been begun. -/
def RxCond (P : Senders) (s : Local) : RxEvent → Prop
  | .frame i skb sta qc _ _ => skb.hdr.isFragment = true → FragmentCond P s i (rxDataOf skb sta qc)
  | .key op => ∀ i, ∀ e ∈ (s.sdata i).fragments, ∀ f ∈ e.skbList.head?,
      KeepsSender P s (op.write s) i f

/-! ### Queues -/

/-- The `rx_pn` slot of a frame is a function of its frame type and `seqno_idx`. -/
def securityIdxOf (fc : UInt16) (queue : ℕ) : ℕ :=
  if queue < NUM_TIDS then queue else if isMgmt fc then NUM_TIDS else 0

theorem parseQos_snd (fc : UInt16) (qc : UInt8) :
    (parseQos fc qc).2 = securityIdxOf fc (parseQos fc qc).1 := by
  rw [parseQos]
  split
  · have hlt : (qc &&& 0x0f).toNat < NUM_TIDS := by
      rw [UInt8.toNat_and]
      exact lt_of_le_of_lt Nat.and_le_right (by decide)
    rw [securityIdxOf, if_pos hlt]
  · rw [securityIdxOf, if_neg (lt_irrefl _)]

theorem isMgmt_congr {a b : UInt16} (h : (a ^^^ b) &&& FCTL_FTYPE = 0) : isMgmt a = isMgmt b := by
  have hdistrib : (a ^^^ b) &&& FCTL_FTYPE = (a &&& FCTL_FTYPE) ^^^ (b &&& FCTL_FTYPE) := by
    rw [← UInt16.toBitVec_inj]
    refine BitVec.eq_of_getLsbD_eq fun i _ => ?_
    simp [Bool.and_xor_distrib_right]
  rw [hdistrib, UInt16.xor_eq_zero_iff] at h
  rw [isMgmt, isMgmt, h]

/-! ### What decryption leaves behind -/

/-- Counters only grow, keys keep their cipher, and nothing else moves. -/
structure KeysGrow (s s' : Local) : Prop where
  cipher : ∀ k, (s'.keys k).cipher = (s.keys k).cipher
  rxPn : ∀ k q, pnVal ((s.keys k).rxPn q) ≤ pnVal ((s'.keys k).rxPn q)
  nextKey : s'.nextKey = s.nextKey
  sdata : s'.sdata = s.sdata
  sta : s'.sta = s.sta

theorem KeysGrow.refl (s : Local) : KeysGrow s s :=
  ⟨fun _ => rfl, fun _ _ => le_rfl, rfl, rfl, rfl⟩

variable {rx : RxData}

theorem Decrypted.grow {key : Key} {out : Except Drop RxSkb × Key} (h : Decrypted key rx out) :
    out.2.cipher = key.cipher ∧ ∀ q, pnVal (key.rxPn q) ≤ pnVal (out.2.rxPn q) := by
  cases h with
  | skipped _ hc hpn => exact ⟨hc, fun q => by rw [hpn]⟩
  | rejected _ _ hc hpn => exact ⟨hc, fun q => by rw [hpn]⟩
  | stored _ hnew _ =>
    refine ⟨rfl, fun q => ?_⟩
    rw [Key.setRxPn_rxPn]
    split
    · rename_i hq
      rw [hq]
      exact (isReplay_eq_false_iff.mp hnew).1
    · exact le_rfl

theorem keysGrow_cryptoDecrypt (C : Crypto) (env : RxAlloc) (s : Local) (rx : RxData) (k : KeyId) :
    KeysGrow s (s.updKey k fun _ => (cryptoDecrypt C env (s.keys k) rx).2) := by
  have hg := (cryptoDecrypt_spec C env (s.keys k) rx).grow
  refine ⟨fun k' => ?_, fun k' q => ?_, rfl, rfl, rfl⟩
  all_goals by_cases hk : k' = k
  · subst hk; rw [Local.updKey_keys_self]; exact hg.1
  · rw [Local.updKey_keys_of_ne s hk]
  · subst hk; rw [Local.updKey_keys_self]; exact hg.2 q
  · rw [Local.updKey_keys_of_ne s hk]

/-- Every key pointer of the state points to an allocated key. -/
structure PointersOk (s : Local) : Prop where
  ptk : ∀ j idx, ∀ k ∈ (s.sta j).ptk idx, k < s.nextKey
  gtk : ∀ j idx, ∀ k ∈ (s.sta j).gtk idx, k < s.nextKey
  keys : ∀ i idx, ∀ k ∈ (s.sdata i).keys idx, k < s.nextKey
  mgmt : ∀ i, ∀ k ∈ (s.sdata i).defaultMgmtKey, k < s.nextKey

/-- The key a selection ends in. -/
def Selected.key : Selected → Option KeyId
  | drop => none
  | skip k => k
  | decrypt k => k

variable {n : ℕ}

theorem firstDefaultKey_lt {keys : ℕ → Option KeyId} (h : ∀ idx, ∀ k ∈ keys idx, k < n) :
    ∀ k ∈ firstDefaultKey keys, k < n := by
  intro k hk
  obtain ⟨idx, -, hidx⟩ := List.exists_of_findSome?_eq_some hk
  exact h idx k hidx

theorem or_lt {a b : Option KeyId} (ha : ∀ k ∈ a, k < n) (hb : ∀ k ∈ b, k < n) :
    ∀ k ∈ a <|> b, k < n := by
  cases a with
  | none => exact hb
  | some x => exact ha

theorem bind_lt {α : Type*} {a : Option α} {f : α → Option KeyId}
    (h : ∀ x, ∀ k ∈ f x, k < n) : ∀ k ∈ a.bind f, k < n := by
  intro k hk
  obtain ⟨x, -, hx⟩ := bind_eq_some_iff.mp hk
  exact h x k hx

variable {s : Local}

theorem PointersOk.unprotectedKey (h : PointersOk s) (i : SdataId) (rx : RxData) :
    ∀ k ∈ unprotectedKey s i rx, k < s.nextKey := by
  have hdefault := or_lt (bind_lt (a := rx.sta) fun j => firstDefaultKey_lt (h.gtk j))
    (firstDefaultKey_lt (h.keys i))
  rw [Mac80211.unprotectedKey]
  split
  · rename_i k hk
    split
    · intro k' hk'
      cases hk'
      exact h.mgmt i k hk
    · exact hdefault
  · exact hdefault

theorem PointersOk.indexedKey (h : PointersOk s) (i : SdataId) (rx : RxData) (idx : ℕ) :
    ∀ k ∈ indexedKey s i rx idx, k < s.nextKey := by
  refine or_lt ?_ ?_
  · split
    · exact bind_lt fun j => h.gtk j idx
    · simp
  · intro k hk
    exact h.keys i idx k (filter_eq_some_iff.mp hk).1

theorem PointersOk.rxPtkIdx (h : PointersOk s) (rx : RxData) :
    ∀ k ∈ rxPtkIdx s rx, k < s.nextKey := by
  rw [Mac80211.rxPtkIdx]
  split
  · exact bind_lt fun j => bind_lt fun idx => h.ptk j idx
  · simp

theorem PointersOk.bipKey (h : PointersOk s) (i : SdataId) (rx : RxData) (idx : ℕ) :
    ∀ k ∈ (bipKey s i rx idx).key, k < s.nextKey := by
  rw [Mac80211.bipKey]
  split
  · simp [Selected.key]
  split
  · simp [Selected.key]
  split
  · simp [Selected.key]
  · exact or_lt (bind_lt fun j => h.gtk j _) (h.keys i _)

theorem PointersOk.rxSelectKey (h : PointersOk s) (i : SdataId) (rx : RxData) :
    ∀ k ∈ (rxSelectKey s i rx).key, k < s.nextKey := by
  simp only [Mac80211.rxSelectKey]
  split
  · simp [Selected.key]
  split
  · rename_i staPtk hptk
    have hsta : staPtk < s.nextKey := by
      split at hptk
      · cases hptk
      · exact bind_lt (fun j => h.ptk j _) staPtk hptk
    have hkey : ∀ k ∈ some ((Mac80211.rxPtkIdx s rx).getD staPtk), k < s.nextKey := by
      intro k hk
      cases hk
      cases hidx : Mac80211.rxPtkIdx s rx with
      | none => exact hsta
      | some k => exact h.rxPtkIdx rx k hidx
    split <;> exact hkey
  split
  · exact h.bipKey i rx _
  split
  · exact h.unprotectedKey i rx
  split
  · simp [Selected.key]
  split
  · simp [Selected.key]
  · exact h.indexedKey i rx _

/-- The first handler passes on the selected key. -/
theorem key_of_rxHDecrypt {C : Crypto} {env : RxAlloc} {i : SdataId} {rx rx' : RxData} {s' : Local}
    (h : rxHDecrypt C env s i rx = (.ok rx', s')) :
    rx'.key = (rxSelectKey s i rx).key ∧ rxSelectKey s i rx ≠ .drop := by
  rw [rxHDecrypt] at h
  split at h
  · cases h
  · rename_i key hsel
    cases h
    exact ⟨by rw [hsel]; rfl, by rw [hsel]; exact Selected.noConfusion⟩
  · cases h
  · rename_i k hsel
    simp only at h
    split at h
    · cases h
    split at h
    · cases h
    · rw [← Except.ok.inj (Prod.mk.inj h).1]
      exact ⟨by rw [hsel]; rfl, by rw [hsel]; exact Selected.noConfusion⟩

/-- It leaves the header as it is. -/
theorem header_of_rxHDecrypt {C : Crypto} {env : RxAlloc} {i : SdataId} {rx rx' : RxData}
    {s' : Local} (h : rxHDecrypt C env s i rx = (.ok rx', s')) :
    ∃ rest, rx'.skb.hdr = { rx.skb.hdr with rest := rest } := by
  rw [rxHDecrypt] at h
  split at h
  · cases h
  · rename_i key hsel
    cases h
    exact ⟨_, rfl⟩
  · cases h
  · rename_i k hsel
    simp only at h
    split at h
    · cases h
    split at h
    · cases h
    · rename_i skb hok
      rw [← Except.ok.inj (Prod.mk.inj h).1]
      exact cryptoDecrypt_header C env (s.keys k) rx skb hok

/-- What the second handler is given: the frame, and its record. -/
structure Handed (s : Local) (rx : RxData) (f : Fragment) : Prop where
  isProtected : f.isProtected = hasProtected rx.skb.hdr.frameControl
  key : f.key = rx.key
  cipher : f.cipher = rx.key.map fun k => (s.keys k).cipher
  skb : f.skb = rx.skb
  queue : rx.securityIdx = securityIdxOf rx.skb.hdr.frameControl rx.seqnoIdx
  lt : ∀ k ∈ rx.key, k < s.nextKey
  /-- The counter of a verified frame is at the frame's own number. -/
  pn : f.verified = true → f.cipher.any Cipher.isCcmpOrGcmp = true → keyRxPn s rx = some f.pn

theorem rxHDecrypt_grow (C : Crypto) (env : RxAlloc) (s : Local) (i : SdataId) (rx : RxData) :
    KeysGrow s (rxHDecrypt C env s i rx).2 := by
  rw [rxHDecrypt]
  split
  · exact .refl s
  · exact .refl s
  · exact .refl s
  · simp only
    split
    · exact .refl s
    · split <;> exact keysGrow_cryptoDecrypt C env s rx _

/-- After a successful decryption that checks packet numbers, the counter is at the frame's. -/
theorem Decrypted.rxPn_of_ok {key key' : Key} {skb : RxSkb}
    (h : Decrypted key rx (.ok skb, key')) (hc : rx.pnCheckedBy key.cipher = true)
    (haead : key.cipher.isCcmpOrGcmp = true) :
    key'.rxPn rx.securityIdx = hdr2pn rx.skb.hdr.body := by
  cases h with
  | skipped hc' => rw [hc] at hc'; cases hc'
  | stored =>
    have hq : rx.pnQueue key.cipher = rx.securityIdx := by
      simp [RxData.pnQueue, Cipher.isBip_of_isCcmpOrGcmp haead]
    rw [Key.setRxPn_rxPn, hq, if_pos rfl, rx.wirePn_of_isCcmpOrGcmp haead]

variable {i : SdataId} {s s' : Local} {C : Crypto}

/-- **The first handler's contract.** -/
theorem handed_of_rxHDecrypt {env : RxAlloc} {rx rx' : RxData} (hp : PointersOk s)
    (hq : rx.securityIdx = securityIdxOf rx.skb.hdr.frameControl rx.seqnoIdx)
    (h : rxHDecrypt C env s i rx = (.ok rx', s')) :
    Handed s' rx' (fragmentOf s i rx rx'.skb rx'.key) := by
  have hlt := hp.rxSelectKey i rx
  rw [rxHDecrypt] at h
  split at h
  · cases h
  · rename_i key hsel
    cases h
    rw [hsel] at hlt
    refine ⟨rfl, rfl, rfl, rfl, hq, hlt, fun hv => ?_⟩
    simp [fragmentOf, hsel] at hv
  · cases h
  · rename_i k hsel
    simp only at h
    split at h
    · cases h
    have hspec := cryptoDecrypt_spec C env (s.keys k) rx
    have hgrow := keysGrow_cryptoDecrypt C env s rx k
    split at h
    · cases h
    · rename_i skb hok
      cases h
      have hfc : skb.hdr.frameControl = rx.skb.hdr.frameControl := by
        obtain ⟨rest, hrest⟩ := cryptoDecrypt_header C env (s.keys k) rx skb hok
        rw [hrest]
      rw [hsel] at hlt
      refine ⟨?_, rfl, ?_, rfl, ?_, ?_, fun hv haead => ?_⟩
      · simp only [fragmentOf, hfc]
      · simp only [fragmentOf, map_some, hgrow.cipher]
      · simp only [hfc]; exact hq
      · simp only [hgrow.nextKey]; exact hlt
      · have hv' : rx.pnCheckedBy (s.keys k).cipher = true := by simpa [fragmentOf, hsel] using hv
        have haead' : (s.keys k).cipher.isCcmpOrGcmp = true := by simpa [fragmentOf] using haead
        have hspec' : Decrypted (s.keys k) rx (.ok skb, (cryptoDecrypt C env (s.keys k) rx).2) := by
          rw [← hok]; exact hspec
        have hpn := hspec'.rxPn_of_ok hv' haead'
        simp only [keyRxPn, map_some, Local.updKey_keys_self, fragmentOf]
        rw [hpn]

/-- What the first handler makes of a fragment that meets the condition: it is under its sender's
key if it is protected. -/
structure FromSender (P : Senders) (s : Local) (i : SdataId) (f : Fragment) : Prop where
  isProtected : f.isProtected = P.protects i f.skb.hdr.addr2 (P.ptk s i f.skb.hdr.addr2)
  key : f.isProtected = true → ∀ k ∈ P.ptk s i f.skb.hdr.addr2, f.key = some k
  /-- Without such a key it has no packet number. -/
  keyed : f.pnProtected = true → f.key = P.ptk s i f.skb.hdr.addr2
  verified : f.pnProtected = true → f.verified = true

variable {P : Senders} {rx : RxData}

/-- The selection for a protected unicast frame whose station has a key. -/
theorem FragmentCond.rxSelectKey_of_ptk (h : FragmentCond P s i rx) {k : KeyId}
    (hu : isMulticastEtherAddr rx.skb.hdr.addr1 = false)
    (hprot : hasProtected rx.skb.hdr.frameControl = true)
    (hk : P.ptk s i rx.skb.hdr.addr2 = some k) : rxSelectKey s i rx = .drop ∨
      rxSelectKey s i rx = if rx.skb.status.decrypted && rx.skb.status.ivStripped
        then .skip (some k) else .decrypt (some k) := by
  have hptk : rx.sta.bind s.ptkOf = some k := by rw [h.sta]; exact hk
  have hidx : (rxPtkIdx s rx).getD k = k := by
    cases hx : rxPtkIdx s rx with
    | none => rfl
    | some k' => exact some.inj ((h.ptkIdx k' hx).symm.trans hk)
  simp only [rxSelectKey, hu, hptk, hidx, hprot, Bool.false_eq_true, if_false, Bool.not_true,
    Bool.or_false]
  split
  · exact .inl rfl
  · exact .inr rfl

/-- Without a pairwise key, only WEP is left. -/
theorem rxSelectKey_of_ptk_eq_none (hu : isMulticastEtherAddr rx.skb.hdr.addr1 = false)
    (hprot : hasProtected rx.skb.hdr.frameControl = true) (hptk : rx.sta.bind s.ptkOf = none) :
    ∀ k ∈ (rxSelectKey s i rx).key, (s.keys k).cipher.isCcmpOrGcmp = false := by
  simp only [rxSelectKey, hu, hptk, hprot, Bool.false_eq_true, if_false, if_true, Bool.not_true]
  split
  · simp [Selected.key]
  split
  · simp [Selected.key]
  split
  · simp [Selected.key]
  · intro k hk
    simp only [Selected.key, indexedKey, hu, Bool.false_eq_true, if_false] at hk
    obtain ⟨-, hwep⟩ := filter_eq_some_iff.mp hk
    rcases (by simpa using hwep : (s.keys k).cipher = .wep40 ∨ (s.keys k).cipher = .wep104) with
      hc | hc <;> rw [hc] <;> rfl

/-- **The first handler's contract for the fragments of a sender.** -/
theorem FragmentCond.fromSender {env : RxAlloc} {rx' : RxData} (h : FragmentCond P s i rx)
    (hu : isMulticastEtherAddr rx.skb.hdr.addr1 = false)
    (hdec : rxHDecrypt C env s i rx = (.ok rx', s')) :
    FromSender P s' i (fragmentOf s i rx rx'.skb rx'.key) := by
  obtain ⟨hkey, hdrop⟩ := key_of_rxHDecrypt hdec
  obtain ⟨rest, hhdr⟩ := header_of_rxHDecrypt hdec
  have haddr : rx'.skb.hdr.addr2 = rx.skb.hdr.addr2 := by rw [hhdr]
  have hsta : s'.sta = s.sta := by
    have hgrow := rxHDecrypt_grow C env s i rx
    rw [hdec] at hgrow
    exact hgrow.sta
  have hptk : P.ptk s' i rx'.skb.hdr.addr2 = P.ptk s i rx.skb.hdr.addr2 := by
    rw [haddr, P.ptk_congr hsta]
  have hsel : hasProtected rx.skb.hdr.frameControl = true → ∀ k ∈ P.ptk s i rx.skb.hdr.addr2,
      rx'.key = some k := by
    intro hprot k hk
    rw [hkey, (h.rxSelectKey_of_ptk hu hprot hk).resolve_left hdrop]
    split <;> rfl
  have hpn : (fragmentOf s i rx rx'.skb rx'.key).pnProtected = true →
      ∃ k, P.ptk s i rx.skb.hdr.addr2 = some k ∧ hasProtected rx.skb.hdr.frameControl = true ∧
        (s.keys k).cipher.isCcmpOrGcmp = true := by
    intro hp
    obtain ⟨hprot, hc⟩ := (Bool.and_eq_true ..).mp hp
    cases hk : P.ptk s i rx.skb.hdr.addr2 with
    | none =>
      have hwep := rxSelectKey_of_ptk_eq_none (i := i) hu hprot (by rw [h.sta]; exact hk)
      rw [← hkey] at hwep
      obtain ⟨c, hc', haead⟩ := (any_eq_true ..).mp hc
      obtain ⟨k, hk', rfl⟩ := map_eq_some_iff.mp hc'
      rw [hwep k hk'] at haead
      cases haead
    | some k =>
      refine ⟨k, rfl, hprot, ?_⟩
      simpa [fragmentOf, hsel hprot k hk] using hc
  refine ⟨?_, ?_, fun hp => ?_, fun hp => ?_⟩
  · change _ = P.protects i rx'.skb.hdr.addr2 (P.ptk s' i rx'.skb.hdr.addr2)
    rw [hptk, haddr]
    exact h.isProtected
  · change _ → ∀ k ∈ P.ptk s' i rx'.skb.hdr.addr2, _
    rw [hptk]
    exact hsel
  · obtain ⟨k, hk, hprot, -⟩ := hpn hp
    exact (hsel hprot k hk).trans (hptk.trans hk).symm
  · obtain ⟨k, hk, hprot, haead⟩ := hpn hp
    obtain ⟨hstripped, hchecked⟩ := h.checked hprot k hk haead
    have hdecrypt := (h.rxSelectKey_of_ptk hu hprot hk).resolve_left hdrop
    rw [hstripped] at hdecrypt
    simpa [fragmentOf, hdecrypt] using hchecked

/-! ### The ring -/

theorem reassembleFind_mem (hz jiffies : UInt64) (frag seq queue : ℕ) (hdr : Hdr) :
    ∀ (n idx : ℕ) (entries : List FragmentEntry),
      ∀ e ∈ (reassembleFind hz jiffies frag seq queue hdr n idx entries).2,
        e ∈ entries ∨ e.skbList = []
  | 0, _, _, e, he => .inl he
  | n + 1, idx, entries, e, he => by
    simp only [reassembleFind] at he
    split at he
    · split at he
      · rcases reassembleFind_mem hz jiffies frag seq queue hdr n _ _ e he with he | he
        · rcases List.mem_or_eq_of_mem_set he with he | rfl
          · exact .inl he
          · exact .inr rfl
        · exact .inr he
      · exact .inl he
    · exact reassembleFind_mem hz jiffies frag seq queue hdr n _ _ e he

theorem reassembleFind_isMatch (hz jiffies : UInt64) (frag seq queue : ℕ) (hdr : Hdr) :
    ∀ (n idx : ℕ) (entries : List FragmentEntry) {j : ℕ} {entries' : List FragmentEntry},
      reassembleFind hz jiffies frag seq queue hdr n idx entries = (some j, entries') →
      (entries'.getD j {}).isMatch frag seq queue hdr = true
  | 0, _, _, _, _, h => by cases h
  | n + 1, idx, entries, j, entries', h => by
    simp only [reassembleFind] at h
    split at h
    · rename_i hmatch
      split at h
      · exact reassembleFind_isMatch hz jiffies frag seq queue hdr n _ _ h
      · cases h
        exact hmatch
    · exact reassembleFind_isMatch hz jiffies frag seq queue hdr n _ _ h

variable {e : FragmentEntry}

/-- A matching entry has a first fragment of the same frame type and sender, on the same queue. -/
theorem FragmentEntry.exists_of_isMatch {frag seq queue : ℕ} {hdr : Hdr}
    (h : e.isMatch frag seq queue hdr = true) :
    ∃ g rest, e.skbList = g :: rest ∧ e.rxQueue = queue ∧
      (hdr.frameControl ^^^ g.skb.hdr.frameControl) &&& FCTL_FTYPE = 0 ∧
      hdr.addr2 = g.skb.hdr.addr2 := by
  rw [FragmentEntry.isMatch] at h
  split at h
  · cases h
  · rename_i g rest hlist
    simp only [Bool.and_eq_true, decide_eq_true_eq] at h
    exact ⟨g, rest, hlist, h.1.1.1.1.2, h.1.1.2, h.2⟩

/-! ### The invariant -/

/-- A checked entry: its fragments were verified under `k`, in sequence up to `last_pn`, which the
counter of `k` has reached. -/
structure SequentialOk (s : Local) (e : FragmentEntry) (g : Fragment) (k : KeyId) : Prop where
  lt : k < s.nextKey
  all : ∀ f ∈ e.skbList, f.isProtected = true ∧ f.verified = true ∧ f.key = some k
  consecutive : Consecutive e.skbList
  last : ∀ f ∈ e.skbList.getLast?, f.pn = e.lastPn
  bound : pnVal e.lastPn ≤ pnVal ((s.keys k).rxPn (securityIdxOf g.skb.hdr.frameControl e.rxQueue))

/-- The sender of a first fragment has kept to what it was. -/
structure SenderOk (P : Senders) (s : Local) (i : SdataId) (g : Fragment) : Prop where
  plain : g.isProtected = false → P.protects i g.skb.hdr.addr2 (P.ptk s i g.skb.hdr.addr2) = false
  keyed : g.pnProtected = true →
    P.protects i g.skb.hdr.addr2 (P.ptk s i g.skb.hdr.addr2) = true ∧
      g.key = P.ptk s i g.skb.hdr.addr2

/-- What holds of every entry of the cache, `g` being its first fragment. -/
structure EntryOk (P : Senders) (s : Local) (i : SdataId) (e : FragmentEntry) : Prop where
  sender : ∀ g ∈ e.skbList.head?, SenderOk P s i g
  plain : ∀ g rest, e.skbList = g :: rest → g.isProtected = false →
    ∀ f ∈ e.skbList, f.isProtected = false
  /-- The check is on where the first fragment was protected with CCMP or GCMP. -/
  check : ∀ g rest, e.skbList = g :: rest → e.checkSequentialPn = g.pnProtected
  sequential : e.checkSequentialPn = true → ∀ g rest, e.skbList = g :: rest →
    ∃ k, SequentialOk s e g k

theorem FromSender.senderOk {f : Fragment} (h : FromSender P s i f) : SenderOk P s i f := by
  refine ⟨fun hp => h.isProtected.symm.trans hp, fun hp => ⟨?_, h.keyed hp⟩⟩
  rw [← h.isProtected]
  exact ((Bool.and_eq_true ..).mp hp).1

theorem EntryOk.of_nil (h : e.skbList = []) : EntryOk P s i e := by
  refine ⟨fun g hg => ?_, fun g rest hl => ?_, fun g rest hl => ?_, fun _ g rest hl => ?_⟩
  · rw [h] at hg
    cases hg
  all_goals rw [h] at hl; cases hl

theorem EntryOk.msduOk (h : EntryOk P s i e) : MsduOk e.skbList := by
  intro first rest hl
  refine ⟨fun hp => ?_, h.plain first rest hl⟩
  obtain ⟨k, hk⟩ := h.sequential (by rw [h.check first rest hl, hp]) first rest hl
  have hfirst : first.key = some k := (hk.all first (by rw [hl]; exact List.mem_cons_self)).2.2
  exact ⟨fun g hg => by rw [hfirst]; exact hk.all g hg, hk.consecutive⟩

/-- Counters of allocated keys only grow. This is all the invariant needs of the keys. -/
structure CountersGrow (s s' : Local) : Prop where
  nextKey : s.nextKey ≤ s'.nextKey
  rxPn : ∀ k < s.nextKey, ∀ q, pnVal ((s.keys k).rxPn q) ≤ pnVal ((s'.keys k).rxPn q)

theorem KeysGrow.countersGrow (h : KeysGrow s s') : CountersGrow s s' :=
  ⟨h.nextKey.ge, fun k _ q => h.rxPn k q⟩

theorem EntryOk.mono (h : EntryOk P s i e) (hg : CountersGrow s s')
    (hs : ∀ g ∈ e.skbList.head?, SenderOk P s i g → SenderOk P s' i g) : EntryOk P s' i e := by
  refine ⟨fun g hl => hs g hl (h.sender g hl), h.plain, h.check, fun hc g rest hl => ?_⟩
  obtain ⟨k, hk⟩ := h.sequential hc g rest hl
  exact ⟨k, hk.lt.trans_le hg.nextKey, hk.all, hk.consecutive, hk.last,
    hk.bound.trans (hg.rxPn k hk.lt _)⟩

theorem SenderOk.of_sta {g : Fragment} (h : SenderOk P s i g) (hsta : s'.sta = s.sta) :
    SenderOk P s' i g := by
  refine ⟨?_, ?_⟩ <;> rw [P.ptk_congr hsta]
  · exact h.plain
  · exact h.keyed

variable {f : Fragment}

/-- Behind a plain first fragment, its sender does not protect. -/
theorem FromSender.plain_of_head {g : Fragment} (h : FromSender P s i f) (hg : SenderOk P s i g)
    (haddr : f.skb.hdr.addr2 = g.skb.hdr.addr2) (hp : g.isProtected = false) :
    f.isProtected = false := by
  rw [h.isProtected, haddr]
  exact hg.plain hp

/-- Behind a protected one, it protects under the same key. -/
theorem FromSender.key_of_head {g : Fragment} {k : KeyId} (h : FromSender P s i f)
    (hg : SenderOk P s i g) (haddr : f.skb.hdr.addr2 = g.skb.hdr.addr2)
    (hp : g.pnProtected = true) (hk : g.key = some k) :
    f.isProtected = true ∧ f.key = some k := by
  obtain ⟨hprotects, hkey⟩ := hg.keyed hp
  have hprot : f.isProtected = true := by rw [h.isProtected, haddr, hprotects]
  exact ⟨hprot, h.key hprot k (by rw [haddr, ← hkey, hk]; rfl)⟩

theorem EntryOk.add
    (hf : Handed s rx f) (hfrom : FromSender P s i f) (hlist : e.skbList = [f])
    (hqueue : e.rxQueue = rx.seqnoIdx)
    (hcheck : e.checkSequentialPn = (hasPnKey s rx && hasProtected rx.skb.hdr.frameControl))
    (hpn : e.checkSequentialPn = true → keyRxPn s rx = some e.lastPn) : EntryOk P s i e := by
  have hprot : e.checkSequentialPn = f.pnProtected := by
    rw [hcheck, Fragment.pnProtected, hf.isProtected, hf.cipher, Bool.and_comm, hasPnKey]
    cases rx.key <;> rfl
  refine ⟨fun g hg => ?_, fun g rest hl hg => ?_, fun g rest hl => ?_, fun hc g rest hl => ?_⟩
  · rw [hlist] at hg
    cases hg
    exact hfrom.senderOk
  all_goals
    obtain ⟨rfl, -⟩ : f = g ∧ [] = rest := by rw [hlist] at hl; simpa using hl
  · rw [hlist]
    intro x hx
    rw [List.mem_singleton.mp hx]
    exact hg
  · exact hprot
  · have hp : f.pnProtected = true := by rw [← hprot]; exact hc
    have hv := hfrom.verified hp
    obtain ⟨hprot', haead⟩ : f.isProtected = true ∧ f.cipher.any Cipher.isCcmpOrGcmp = true := by
      rwa [Fragment.pnProtected, Bool.and_eq_true] at hp
    have hown := hf.pn hv haead
    have hlast : f.pn = e.lastPn := some.inj (hown.symm.trans (hpn hc))
    obtain ⟨k, hk, hkpn⟩ := map_eq_some_iff.mp (hpn hc)
    refine ⟨k, hf.lt k hk, ?_, ?_, ?_, ?_⟩
    · rw [hlist]
      intro x hx
      rw [List.mem_singleton.mp hx]
      exact ⟨hprot', hv, hf.key.trans hk⟩
    · rw [hlist]
      exact List.IsChain.singleton f
    · rw [hlist]
      intro x hx
      cases hx
      exact hlast
    · rw [← hkpn, hf.queue, hf.skb, hqueue]

/-- A fragment goes to the end of an entry. The sequential check compares with its own number, and
the bound keeps that from wrapping around. -/
theorem EntryOk.push {frag seq : ℕ} (he : EntryOk P s i e) (hf : Handed s rx f)
    (hfrom : FromSender P s i f) (hmatch : e.isMatch frag seq rx.seqnoIdx rx.skb.hdr = true)
    (hfits : e.pnFits s rx = true) : EntryOk P s i (e.push f frag) := by
  obtain ⟨g, rest, hlist, hqueue, hftype, haddr⟩ := FragmentEntry.exists_of_isMatch hmatch
  have hsender : SenderOk P s i g := he.sender g (by rw [hlist]; rfl)
  have haddr : f.skb.hdr.addr2 = g.skb.hdr.addr2 := by rw [hf.skb, haddr]
  have hlist' : (e.push f frag).skbList = g :: (rest ++ [f]) := by
    rw [FragmentEntry.push, hlist, List.cons_append]
  refine ⟨fun g' hg' => ?_, fun g' rest' hl hg => ?_, fun g' rest' hl => ?_,
    fun hc g' rest' hl => ?_⟩
  · rw [hlist'] at hg'
    cases hg'
    exact hsender
  all_goals
    obtain ⟨rfl, rfl⟩ : g = g' ∧ rest ++ [f] = rest' := by rw [hlist'] at hl; simpa using hl
  · intro x hx
    rcases List.mem_append.mp hx with hx | hx
    · exact he.plain g rest hlist hg x hx
    · rw [List.mem_singleton.mp hx]
      exact hfrom.plain_of_head hsender haddr hg
  · exact he.check g rest hlist
  · have hc : e.checkSequentialPn = true := hc
    obtain ⟨k, hk⟩ := he.sequential hc g rest hlist
    have hgk : g.key = some k := (hk.all g (by rw [hlist]; exact List.mem_cons_self)).2.2
    obtain ⟨hprot, hkey⟩ := hfrom.key_of_head hsender haddr
      (by rw [← he.check g rest hlist, hc]) hgk
    have hrxk : rx.key = some k := hf.key.symm.trans hkey
    rw [FragmentEntry.pnFits, hc, Bool.not_true, Bool.false_or, Bool.and_eq_true] at hfits
    have haead : f.cipher.any Cipher.isCcmpOrGcmp = true := by
      rw [hf.cipher, hrxk]
      simpa [hasPnKey, hrxk] using hfits.1
    have hv : f.verified = true :=
      hfrom.verified (by rw [Fragment.pnProtected, hprot, haead, Bool.and_self])
    have hown : keyRxPn s rx = some f.pn := hf.pn hv haead
    have hnext : incrPn e.lastPn = f.pn := by
      have hcmp := hfits.2
      rw [hown, any_some, decide_eq_true_eq,
        Bytes.memcmp_eq_eq_iff (by simp only [Vector.length_toList])] at hcmp
      exact Vector.toList_inj.mp hcmp
    -- the counter of the entry's key and queue is now at the fragment's number
    have hslot : (s.keys k).rxPn (securityIdxOf g.skb.hdr.frameControl e.rxQueue) = f.pn := by
      have hidx : rx.securityIdx = securityIdxOf g.skb.hdr.frameControl e.rxQueue := by
        rw [hf.queue, hqueue, securityIdxOf, securityIdxOf, isMgmt_congr hftype]
      rw [← hidx]
      simpa [keyRxPn, hrxk] using hown
    have hsucc : pnVal f.pn = pnVal e.lastPn + 1 := by
      have hval := pnVal_incrPn e.lastPn
      have hbound := hk.bound
      have hlt := pnVal_lt e.lastPn
      rw [hslot] at hbound
      rw [hnext] at hval
      omega
    have hpush : (e.push f frag).lastPn = f.pn := by
      rw [FragmentEntry.push, hc, if_pos rfl, hnext]
    refine ⟨k, hk.lt, fun x hx => ?_, ?_, fun x hx => ?_, ?_⟩
    · rcases List.mem_append.mp hx with hx | hx
      · exact hk.all x hx
      · rw [List.mem_singleton.mp hx]
        exact ⟨hprot, hv, hkey⟩
    · refine hk.consecutive.append (List.IsChain.singleton f) fun a ha b hb => ?_
      cases hb
      rw [hk.last a ha]
      exact hsucc
    · have hx' : (e.skbList ++ [f]).getLast? = some x := hx
      rw [List.getLast?_concat] at hx'
      rw [← some.inj hx', hpush]
    · rw [hpush]
      change _ ≤ pnVal ((s.keys k).rxPn (securityIdxOf g.skb.hdr.frameControl e.rxQueue))
      rw [hslot]

/-- The invariant of the receive side. -/
structure FragInv (P : Senders) (s : Local) : Prop where
  pointers : PointersOk s
  entries : ∀ i, ∀ e ∈ (s.sdata i).fragments, EntryOk P s i e

theorem FragInv.grow (h : FragInv P s) (hg : KeysGrow s s') : FragInv P s' := by
  refine ⟨⟨?_, ?_, ?_, ?_⟩, fun i e he => ?_⟩
  · rw [hg.sta, hg.nextKey]; exact h.pointers.ptk
  · rw [hg.sta, hg.nextKey]; exact h.pointers.gtk
  · rw [hg.sdata, hg.nextKey]; exact h.pointers.keys
  · rw [hg.sdata, hg.nextKey]; exact h.pointers.mgmt
  · rw [hg.sdata] at he
    exact (h.entries i e he).mono hg.countersGrow fun g _ hs => hs.of_sta hg.sta

theorem FragInv.updSdata (h : FragInv P s) (i : SdataId)
    (g : SubIfData → SubIfData) (hkeys : ∀ d, (g d).keys = d.keys)
    (hmgmt : ∀ d, (g d).defaultMgmtKey = d.defaultMgmtKey)
    (hentries : ∀ e ∈ (g (s.sdata i)).fragments, EntryOk P s i e) :
    FragInv P (s.updSdata i g) := by
  have hmono : ∀ j e, EntryOk P s j e → EntryOk P (s.updSdata i g) j e := fun j e he =>
    he.mono ⟨le_rfl, fun _ _ _ => le_rfl⟩ fun _ _ hs => hs.of_sta rfl
  refine ⟨⟨h.pointers.ptk, h.pointers.gtk, fun j => ?_, fun j => ?_⟩, fun j e he => ?_⟩
  all_goals by_cases hj : j = i
  · subst hj; rw [Local.updSdata_sdata_self, hkeys]; exact h.pointers.keys j
  · rw [Local.updSdata_sdata_of_ne s hj]; exact h.pointers.keys j
  · subst hj; rw [Local.updSdata_sdata_self, hmgmt]; exact h.pointers.mgmt j
  · rw [Local.updSdata_sdata_of_ne s hj]; exact h.pointers.mgmt j
  · subst hj; rw [Local.updSdata_sdata_self] at he; exact hmono _ e (hentries e he)
  · rw [Local.updSdata_sdata_of_ne s hj] at he; exact hmono j e (h.entries j e he)

variable {entries : List FragmentEntry}

theorem FragInv.setFragments (h : FragInv P s) (i : SdataId)
    (hentries : ∀ e ∈ entries, EntryOk P s i e) :
    FragInv P (s.updSdata i fun d => d.setFragments entries) :=
  h.updSdata i (fun d => d.setFragments entries) (fun _ => rfl) (fun _ => rfl) hentries

theorem FragInv.findEntry (h : FragInv P s) (hz jiffies : UInt64) (i : SdataId)
    (rx : RxData) : ∀ e ∈ (findEntry hz jiffies s i rx).2, EntryOk P s i e := by
  intro e he
  rcases reassembleFind_mem hz jiffies _ _ _ _ _ _ _ e he with he | he
  · exact h.entries i e he
  · exact .of_nil he

theorem entryOk_set {e' : FragmentEntry} (idx : ℕ)
    (h : ∀ e ∈ entries, EntryOk P s i e) (he' : EntryOk P s i e') :
    ∀ e ∈ entries.set idx e', EntryOk P s i e := by
  intro e he
  rcases List.mem_or_eq_of_mem_set he with he | rfl
  · exact h e he
  · exact he'

theorem findEntry_mem {hz jiffies : UInt64} {idx : ℕ}
    (h : findEntry hz jiffies s i rx = (some idx, entries)) :
    (entries.getD idx {}).isMatch rx.skb.hdr.frag rx.skb.hdr.seq rx.seqnoIdx rx.skb.hdr = true ∧
      entries.getD idx {} ∈ entries := by
  have hmatch := reassembleFind_isMatch hz jiffies _ _ _ _ _ _ _ h
  obtain ⟨g, rest, hlist, -⟩ := FragmentEntry.exists_of_isMatch hmatch
  refine ⟨hmatch, ?_⟩
  rw [List.getD_eq_getElem?_getD] at hlist ⊢
  cases hget : entries[idx]? with
  | none => rw [hget] at hlist; cases hlist
  | some e => exact List.mem_of_getElem? hget

/-- The second handler keeps the invariant, and what it completes is unmixed. -/
theorem FragInv.rxHDefragment {hz jiffies : UInt64} (env : RxAlloc)
    (h : FragInv P s) (hf : Handed s rx f)
    (hfrom : rx.skb.hdr.isFragment = true → FromSender P s i f) :
    FragInv P (rxHDefragment hz jiffies env s i rx f).2 ∧
      ∀ fs ∈ (rxHDefragment hz jiffies env s i rx f).1.msdus, MsduOk fs := by
  simp only [Mac80211.rxHDefragment]
  split
  · exact ⟨h, by simp [Defragmented.msdus]⟩
  rename_i haddressed
  split
  · exact ⟨h, by simp [Defragmented.msdus]⟩
  rename_i hfragmented
  have hfrom : FromSender P s i f := by
    refine hfrom ?_
    simp only [Bool.or_eq_true, not_or, Bool.not_eq_true] at haddressed
    rw [Hdr.isFragment, haddressed.1, haddressed.2]
    simpa [or_iff_not_imp_left] using hfragmented
  split
  · exact ⟨h, by simp [Defragmented.msdus]⟩
  split
  · -- the first fragment takes over a ring entry
    have hnew : EntryOk P s i (firstEntry jiffies s i rx f) := by
      refine EntryOk.add hf hfrom rfl rfl rfl fun hc => ?_
      have hc : (hasPnKey s rx && hasProtected rx.skb.hdr.frameControl) = true := hc
      simp only [firstEntry, if_pos hc]
      rw [Bool.and_eq_true, hasPnKey] at hc
      obtain ⟨k, hk, -⟩ := (any_eq_true ..).mp hc.1
      simp [keyRxPn, hk]
    exact ⟨h.updSdata i (reassembleAdd (firstEntry jiffies s i rx f)) (fun _ => rfl) (fun _ => rfl)
      (entryOk_set _ (h.entries i) hnew), by simp [Defragmented.msdus]⟩
  have hpurged := h.findEntry hz jiffies i rx
  split
  · rename_i entries hfind
    rw [hfind] at hpurged
    exact ⟨h.setFragments i hpurged, by simp [Defragmented.msdus]⟩
  rename_i idx entries hfind
  rw [hfind] at hpurged
  split
  · exact ⟨h.setFragments i hpurged, by simp [Defragmented.msdus]⟩
  rename_i hfits
  have hfits : (entries.getD idx {}).pnFits s rx = true := by simpa using hfits
  obtain ⟨hmatch, hmem⟩ := findEntry_mem hfind
  have hpush : EntryOk P s i ((entries.getD idx {}).push f rx.skb.hdr.frag) :=
    (hpurged _ hmem).push hf hfrom hmatch hfits
  split
  · exact ⟨h.setFragments i (entryOk_set idx hpurged hpush), by simp [Defragmented.msdus]⟩
  -- the last fragment: the entry is emptied, and its list is the frame
  have hinv := h.setFragments i (entryOk_set idx hpurged (EntryOk.of_nil
    (e := ((entries.getD idx {}).push f rx.skb.hdr.frag).purge) rfl))
  split
  · exact ⟨hinv, by simp [Defragmented.msdus]⟩
  split
  · refine ⟨hinv, fun fs hfs => ?_⟩
    rw [List.mem_singleton.mp hfs]
    exact hpush.msduOk
  · exact ⟨hinv, by simp [Defragmented.msdus]⟩

/-! ### Runs -/

theorem PointersOk.updSta (h : PointersOk s) (j : StaId) (f : StaInfo → StaInfo)
    (hptk : ∀ idx, ∀ k ∈ (f (s.sta j)).ptk idx, k < s.nextKey)
    (hgtk : ∀ idx, ∀ k ∈ (f (s.sta j)).gtk idx, k < s.nextKey) : PointersOk (s.updSta j f) := by
  refine ⟨fun i => ?_, fun i => ?_, h.keys, h.mgmt⟩
  all_goals by_cases hi : i = j
  · subst hi; rw [Local.updSta_sta_self]; exact hptk
  · rw [Local.updSta_sta_of_ne s hi]; exact h.ptk i
  · subst hi; rw [Local.updSta_sta_self]; exact hgtk
  · rw [Local.updSta_sta_of_ne s hi]; exact h.gtk i

theorem PointersOk.updSdata (h : PointersOk s) (i : SdataId)
    (f : SubIfData → SubIfData) (hkeys : ∀ idx, ∀ k ∈ (f (s.sdata i)).keys idx, k < s.nextKey)
    (hmgmt : ∀ k ∈ (f (s.sdata i)).defaultMgmtKey, k < s.nextKey) :
    PointersOk (s.updSdata i f) := by
  refine ⟨h.ptk, h.gtk, fun j => ?_, fun j => ?_⟩
  all_goals by_cases hj : j = i
  · subst hj; rw [Local.updSdata_sdata_self]; exact hkeys
  · rw [Local.updSdata_sdata_of_ne s hj]; exact h.keys j
  · subst hj; rw [Local.updSdata_sdata_self]; exact hmgmt
  · rw [Local.updSdata_sdata_of_ne s hj]; exact h.mgmt j

theorem update_lt {t : ℕ → Option KeyId} (h : ∀ idx, ∀ k ∈ t idx, k < n) {idx : ℕ}
    {p : Option KeyId} (hp : ∀ k ∈ p, k < n) : ∀ idx', ∀ k ∈ Function.update t idx p idx', k < n := by
  intro idx'
  by_cases hi : idx' = idx
  · subst hi; rw [Function.update_self]; exact hp
  · rw [Function.update_of_ne hi]; exact h idx'

theorem PointersOk.write (h : PointersOk s) (op : KeyOp)
    (hptr : ∀ k ∈ op.pointer, k < s.nextKey) : PointersOk (op.write s) := by
  cases op with
  | alloc key =>
    have hlt : ∀ {p : Option KeyId}, (∀ k ∈ p, k < s.nextKey) → ∀ k ∈ p, k < s.nextKey + 1 :=
      fun hp k hk => (hp k hk).trans (Nat.lt_succ_self _)
    exact ⟨fun j idx => hlt (h.ptk j idx), fun j idx => hlt (h.gtk j idx),
      fun i idx => hlt (h.keys i idx), fun i => hlt (h.mgmt i)⟩
  | setPtk sta idx k =>
    rw [KeyOp.write]
    refine h.updSta sta _ ?_ ?_
    · exact update_lt (h.ptk sta) hptr
    · exact h.gtk sta
  | setPtkIdx sta idx =>
    rw [KeyOp.write]
    refine h.updSta sta _ ?_ ?_
    · exact h.ptk sta
    · exact h.gtk sta
  | setGtk sta idx k =>
    rw [KeyOp.write]
    refine h.updSta sta _ ?_ ?_
    · exact h.ptk sta
    · exact update_lt (h.gtk sta) hptr
  | setKey i idx k =>
    rw [KeyOp.write]
    refine h.updSdata i _ ?_ ?_
    · exact update_lt (h.keys i) hptr
    · exact h.mgmt i
  | setDefaultUnicast i k =>
    rw [KeyOp.write]
    refine h.updSdata i _ ?_ ?_
    · exact h.keys i
    · exact h.mgmt i
  | setDefaultMulticast i k =>
    rw [KeyOp.write]
    refine h.updSdata i _ ?_ ?_
    · exact h.keys i
    · exact h.mgmt i
  | setDefaultMgmt i k =>
    rw [KeyOp.write]
    refine h.updSdata i _ ?_ ?_
    · exact h.keys i
    · exact hptr
  | taint k => exact ⟨h.ptk, h.gtk, h.keys, h.mgmt⟩

/-- The one key whose counters are written has an id nobody refers to. -/
theorem countersGrow_write (s : Local) (op : KeyOp) : CountersGrow s (op.write s) := by
  cases op with
  | alloc key =>
    refine ⟨Nat.le_succ _, fun k hk q => ?_⟩
    change _ ≤ pnVal ((Function.update s.keys s.nextKey { key with txPn := 0 } k).rxPn q)
    rw [Function.update_of_ne hk.ne]
  | taint k =>
    refine ⟨le_rfl, fun k' _ q => ?_⟩
    by_cases hk : k' = k
    · subst hk; rw [KeyOp.write, Local.updKey_keys_self]
    · rw [KeyOp.write, Local.updKey_keys_of_ne s hk]
  | _ => exact ⟨le_rfl, fun _ _ _ => le_rfl⟩

theorem write_fragments (s : Local) (op : KeyOp) (i : SdataId) :
    ((op.write s).sdata i).fragments = (s.sdata i).fragments := by
  have hupd : ∀ j (f : SubIfData → SubIfData), (∀ d, (f d).fragments = d.fragments) →
      ((s.updSdata j f).sdata i).fragments = (s.sdata i).fragments := by
    intro j f hf
    by_cases hi : i = j
    · subst hi; rw [Local.updSdata_sdata_self, hf]
    · rw [Local.updSdata_sdata_of_ne s hi]
  cases op with
  | setKey j | setDefaultUnicast j | setDefaultMulticast j | setDefaultMgmt j =>
    rw [KeyOp.write]
    exact hupd j _ fun _ => rfl
  | _ => rfl

theorem FragInv.keyOp {op : KeyOp} (h : FragInv P s) (hcond : RxCond P s (.key op))
    (hs : op.apply s = some s') : FragInv P s' := by
  rw [KeyOp.apply] at hs
  split at hs
  · rename_i hptr
    cases hs
    refine ⟨h.pointers.write op hptr, fun i e he => ?_⟩
    rw [write_fragments] at he
    refine (h.entries i e he).mono (countersGrow_write s op) fun g hg hsender => ?_
    obtain ⟨hplain, hkeyed⟩ := hcond i e he g hg
    refine ⟨hplain, fun hp => ?_⟩
    rw [hkeyed hp]
    exact hsender.keyed hp
  · cases hs

theorem FragInv.step {hz : UInt64} {e : RxEvent}
    {o : List (List Fragment)} (h : FragInv P s) (hcond : RxCond P s e)
    (hs : rxStep C hz s e = some (s', o)) : FragInv P s' ∧ ∀ fs ∈ o, MsduOk fs := by
  cases e with
  | key op =>
    rw [rxStep, map_eq_some_iff] at hs
    obtain ⟨s₁, hs₁, heq⟩ := hs
    cases heq
    exact ⟨h.keyOp hcond hs₁, by simp⟩
  | frame i skb sta qc jiffies env =>
    simp only [rxStep] at hs
    cases hs
    have hgrow := rxHDecrypt_grow C env s i (rxDataOf skb sta qc)
    rw [rxFragment]
    split
    · rename_i s₁ hdec
      rw [hdec] at hgrow
      exact ⟨h.grow hgrow, by simp [Defragmented.msdus]⟩
    · rename_i rx s₁ hdec
      rw [hdec] at hgrow
      have hf := handed_of_rxHDecrypt h.pointers (parseQos_snd _ _) hdec
      refine (h.grow hgrow).rxHDefragment env hf fun hfragment => ?_
      obtain ⟨rest, hhdr⟩ := header_of_rxHDecrypt hdec
      have hfragment : skb.hdr.isFragment = true := by rw [hhdr] at hfragment; exact hfragment
      refine (hcond hfragment).fromSender ?_ hdec
      simp only [Hdr.isFragment, Bool.and_eq_true, Bool.not_eq_true'] at hfragment
      exact hfragment.1.2

/-- **No frame mixes protections**, in any run whose senders do not change between plain and
protected fragments under one key, and whose keys do not change under fragments in the ring. -/
theorem msduOk_of_reach {C : Crypto} {hz : UInt64} {P : Senders} {s₀ s : Local}
    {os : List (List Fragment)} (hptr : PointersOk s₀)
    (hempty : ∀ i, ∀ e ∈ (s₀.sdata i).fragments, e.skbList = [])
    (h : Reach (rxStep C hz) (fun s _ e => RxCond P s e) s₀ s os) : ∀ fs ∈ os, MsduOk fs := by
  have hinv : FragInv P s ∧ ∀ fs ∈ os, MsduOk fs := by
    refine h.invariant (fun s os => FragInv P s ∧ ∀ fs ∈ os, MsduOk fs)
      ⟨⟨hptr, fun i e he => .of_nil (hempty i e he)⟩, by simp⟩ ?_
    intro s os e s' o ⟨hs, hos⟩ hC hstep
    obtain ⟨hs', ho⟩ := hs.step hC hstep
    refine ⟨hs', fun fs hfs => ?_⟩
    rcases List.mem_append.mp hfs with hfs | hfs
    · exact hos fs hfs
    · exact ho fs hfs
  exact hinv.2

/-! ### A plain fragment in a protected frame -/

/-- An AP interface and a station with a CCMP key. -/
def oneStation : Local where
  keys := fun _ => freshCcmpKey
  nextKey := 1
  sdata := fun _ => { type := .ap, addr := localMac 1 }
  sta := fun _ =>
    { addr := localMac 2, sdata := 0, ptkIdx := 0
      ptk := fun idx => if idx = 0 then some 0 else none }

/-- A frame from the station: protected frames have been decrypted by the hardware. -/
def stationFrame (fc seqCtrl : UInt16) (pn : Option ℕ) : RxEvent :=
  .frame 0
    { hdr := ⟨FTYPE_DATA ||| FCTL_TODS ||| (if pn.isSome then FCTL_PROTECTED else 0) ||| fc, 0,
        localMac 1, localMac 2, localMac 3, seqCtrl,
        (pn.map fun n => pn2hdr (pnOfNat n) 0).getD [] ++ [0xaa]⟩
      status := { decrypted := pn.isSome, micStripped := pn.isSome } }
    (some 0) 0 0 {}

/-- Fragments 0 and 1 of frame 1, with the packet numbers 5 and 6. -/
def goodFragments : List RxEvent :=
  [stationFrame FCTL_MOREFRAGS 0x10 (some 5), stationFrame 0 0x11 (some 6)]

/-- Fragment 0 of frame 1 with number 5; a whole frame with number 6; a plain fragment 1. -/
def mixedFragments : List RxEvent :=
  [stationFrame FCTL_MOREFRAGS 0x10 (some 5), stationFrame 0 0x20 (some 6), stationFrame 0 0x11 none]

theorem pointersOk_oneStation : PointersOk oneStation := by
  refine ⟨fun j idx k hk => ?_, by simp [oneStation], by simp [oneStation], by simp [oneStation]⟩
  change (if idx = 0 then some 0 else none) = some k at hk
  split at hk
  · exact (some.inj hk).symm.trans_lt Nat.zero_lt_one
  · cases hk

/-- One station, which protects everything. -/
def oneSender : Senders where
  sta := fun _ _ => some 0
  protects := fun _ _ _ => true

/-- While no frame has been begun, keys may change. -/
theorem rxCond_key_of_nil {op : KeyOp} (h : ∀ i, ∀ e ∈ (s.sdata i).fragments, e.skbList = []) :
    RxCond P s (.key op) := by
  intro i e he f hf
  rw [h i e he] at hf
  cases hf

/-- The general theorem on a new key and two fragments under it. -/
theorem msduOk_of_good_fragments : ∃ s fs,
    Reach (rxStep .rejectAll 250) (fun s _ e => RxCond oneSender s e) oneStation s [fs] ∧
    fs.length = 2 ∧ MsduOk fs := by
  have hout : (run (rxStep .rejectAll 250) oneStation
      (.key (.alloc freshCcmpKey) :: .key (.setPtk 0 0 (some 1)) :: goodFragments)).map
      (fun r => r.2.map List.length) = some [2] := by decide +kernel
  obtain ⟨⟨s, os⟩, hrun, hos⟩ := map_eq_some_iff.mp hout
  obtain ⟨fs, rfl, hlen⟩ := List.map_eq_singleton_iff.mp hos
  have hmeets : Meets (rxStep .rejectAll 250) (fun s _ e => RxCond oneSender s e) oneStation
      [] (.key (.alloc freshCcmpKey) :: .key (.setPtk 0 0 (some 1)) :: goodFragments) := by
    refine ⟨rxCond_key_of_nil (by simp [oneStation]), fun s' o hs => ?_⟩
    cases hs
    refine ⟨rxCond_key_of_nil (by simp [KeyOp.write, oneStation]), fun s' o hs => ?_⟩
    cases hs
    refine ⟨fun _ => ⟨by decide, by decide, by decide, by decide⟩, fun s' o hs => ?_⟩
    cases hs
    exact ⟨fun _ => ⟨by decide, by decide, by decide, by decide⟩, fun _ _ _ => trivial⟩
  have hreach : Reach (rxStep .rejectAll 250) (fun s _ e => RxCond oneSender s e) oneStation
      s [fs] := Reach.of_run .init hmeets hrun
  refine ⟨s, fs, hreach, hlen, ?_⟩
  exact msduOk_of_reach pointersOk_oneStation (by simp [oneStation]) hreach fs
    (List.mem_singleton.mpr rfl)

/-- **A plain fragment completes a protected frame**: another frame has moved the counter to the
number the check expects. -/
theorem plain_fragment_joins : ∃ s os, Reach (rxStep .rejectAll 250) (fun _ _ _ => True) oneStation
    s os ∧ ∃ fs ∈ os, ¬ MsduOk fs := by
  have hout : (run (rxStep .rejectAll 250) oneStation mixedFragments).map
      (fun r => r.2.map fun fs => fs.map fun f => (f.isProtected, f.pnProtected)) =
      some [[(true, true), (false, false)]] := by decide +kernel
  obtain ⟨⟨s, os⟩, hrun, hos⟩ := map_eq_some_iff.mp hout
  obtain ⟨fs, rfl, hfs⟩ := List.map_eq_singleton_iff.mp hos
  refine ⟨s, [fs], Reach.of_run_init hrun, fs, List.mem_singleton.mpr rfl, fun hok => ?_⟩
  obtain ⟨f, fs', rfl, hf, hfs'⟩ := List.map_eq_cons_iff.mp hfs
  obtain ⟨g, rfl, hg⟩ := List.map_eq_singleton_iff.mp hfs'
  have hall : g.isProtected = true :=
    (((hok f [g] rfl).1 (congrArg Prod.snd hf)).1 g (by simp)).1
  have hplain : g.isProtected = false := congrArg Prod.fst hg
  rw [hplain] at hall
  exact Bool.noConfusion hall

end Mac80211
