import Mac80211.Wpa.SpecialBlocks

/-!
# Decryption

`wpa.c`: CCMP and GCMP are the same code around two AEAD calls, and the three BIP functions around
three MACs; each pair is one definition here, applied to its own cipher and lengths. The
cryptographic primitives are arbitrary functions. `Drop` says which return statement it was: when
`pskb_trim` fails, the packet number has already been stored.

## Main results

* `cryptoDecrypt_spec`
-/

namespace Mac80211

/-- The identity of a station entry; ids stand for pointers. -/
abbrev StaId := ℕ

/-- `struct ieee80211_rx_status`: the flags about decryption. -/
structure RxStatus where
  /-- `RX_FLAG_DECRYPTED`. -/
  decrypted : Bool := false
  /-- `RX_FLAG_MIC_STRIPPED`. -/
  micStripped : Bool := false
  /-- `RX_FLAG_IV_STRIPPED`. -/
  ivStripped : Bool := false
  /-- `RX_FLAG_PN_VALIDATED`. -/
  pnValidated : Bool := false
  /-- `RX_FLAG_ALLOW_SAME_PN`. -/
  allowSamePn : Bool := false
deriving DecidableEq

/-- A received `struct sk_buff`. -/
structure RxSkb where
  hdr : Hdr
  /-- All of it is in the linear part: `skb->data_len` is zero. -/
  linear : Bool := true
  /-- `IEEE80211_SKB_RXCB(skb)`. -/
  status : RxStatus := {}
deriving DecidableEq

/-- `struct ieee80211_rx_data`. -/
structure RxData where
  skb : RxSkb
  sta : Option StaId := none
  key : Option KeyId := none
  seqnoIdx : ℕ := 0
  securityIdx : ℕ := 0

/-- Which `return RX_DROP_UNUSABLE` or `return RX_DROP_MONITOR` was taken. -/
inductive Drop
  /-- `pskb_may_pull` failed. -/
  | pull
  /-- `skb_linearize` failed. -/
  | linearize
  /-- No station, or too short. -/
  | short
  /-- No MMIE at the end of the frame. -/
  | mmie
  /-- The packet number was seen before. -/
  | replay
  /-- The MIC is wrong. -/
  | mic
  /-- `kmalloc` failed. -/
  | nomem
  /-- `pskb_trim` failed, after the packet number was stored. -/
  | trim
  /-- No usable key. -/
  | key
  /-- Another cipher's function refused the frame. -/
  | legacy
deriving DecidableEq

/-- The outcomes of the allocations, and of the cipher functions outside this module, while one
frame is processed. -/
structure RxAlloc where
  /-- `__pskb_pull_tail` found memory. -/
  pull : Bool := true
  /-- `skb_linearize` found memory. -/
  linearize : Bool := true
  /-- `pskb_trim` of a nonlinear buffer found memory. -/
  trim : Bool := true
  /-- `kmalloc` of the GMAC buffer found memory. -/
  kmalloc : Bool := true
  /-- `pskb_expand_head` found memory. -/
  expandHead : Bool := true
  /-- The body that the WEP, TKIP or hardware-only cipher function leaves, if it takes the
  frame. -/
  legacy : Except Drop (List UInt8) := .error .legacy

/-- The cryptographic primitives, with the key as their first argument. -/
structure Crypto where
  /-- `ieee80211_aes_ccm_encrypt`: `b_0`, `aad` and data, to the encrypted data and a MIC of the
  given length. -/
  aesCcmEncrypt : List UInt8 → List UInt8 → List UInt8 → List UInt8 → ℕ → List UInt8
  /-- `ieee80211_aes_gcm_encrypt`. -/
  aesGcmEncrypt : List UInt8 → List UInt8 → List UInt8 → List UInt8 → ℕ → List UInt8
  /-- `ieee80211_aes_ccm_decrypt`: `b_0`, `aad`, data and MIC, to the plain text if it verifies. -/
  aesCcmDecrypt : List UInt8 → List UInt8 → List UInt8 → List UInt8 → List UInt8 →
    Option (List UInt8)
  /-- `ieee80211_aes_gcm_decrypt`. -/
  aesGcmDecrypt : List UInt8 → List UInt8 → List UInt8 → List UInt8 → List UInt8 →
    Option (List UInt8)
  /-- `ieee80211_aes_cmac`: `aad` and data, to the MIC. -/
  aesCmac : List UInt8 → List UInt8 → List UInt8 → List UInt8
  /-- `ieee80211_aes_cmac_256`. -/
  aesCmac256 : List UInt8 → List UInt8 → List UInt8 → List UInt8
  /-- `ieee80211_aes_gmac`: `aad`, nonce and data, to the MIC. -/
  aesGmac : List UInt8 → List UInt8 → List UInt8 → List UInt8 → Option (List UInt8)

namespace RxSkb

/-- `pskb_may_pull`. -/
def mayPull (env : RxAlloc) (skb : RxSkb) (n : ℕ) : Bool :=
  n ≤ skb.hdr.len && (skb.linear || env.pull)

/-- `pskb_trim(skb, skb->len - n)`: only a nonlinear buffer that gets shorter can fail. -/
def trimOk (env : RxAlloc) (skb : RxSkb) (n : ℕ) : Bool := n = 0 || skb.linear || env.trim

/-- Replace everything behind the 802.11 header. -/
def withBody (skb : RxSkb) (body : List UInt8) : RxSkb :=
  { skb with hdr := { skb.hdr with
      rest := skb.hdr.rest.take (hdrlen skb.hdr.frameControl - 24) ++ body } }

end RxSkb

/-! ### CCMP and GCMP -/

/-- The call into the AEAD: special blocks, encrypted data and MIC, to the plain text. -/
abbrev AeadOpen := Key → Hdr → Pn → List UInt8 → List UInt8 → Option (List UInt8)

/-- `memcmp(pn, rx_pn, 6) < 0`, or equal where that is not allowed. -/
def isReplay (pn stored : Pn) (allowSame : Bool) : Bool :=
  match Bytes.memcmp pn.toList stored.toList with
  | .lt => true
  | .eq => !allowSame
  | .gt => false

/-- Remove the cipher header and MIC. -/
def aeadFinish (env : RxAlloc) (micLen : ℕ) (skb : RxSkb) (plain : List UInt8) (key : Key) :
    Except Drop RxSkb × Key :=
  if skb.trimOk env micLen then (.ok (skb.withBody plain), key) else (.error .trim, key)

/-- The packet number check and the MIC check, on a frame that is long enough. -/
def aeadVerify (op : AeadOpen) (micLen : ℕ) (env : RxAlloc) (key : Key) (queue : ℕ) (skb : RxSkb) :
    Except Drop RxSkb × Key :=
  let payload := skb.hdr.body.drop CCMP_HDR_LEN
  let data := payload.take (payload.length - micLen)
  let mic := payload.drop (payload.length - micLen)
  if skb.status.pnValidated then aeadFinish env micLen skb data key
  else
    let pn := hdr2pn skb.hdr.body
    if isReplay pn (key.rxPn queue) skb.status.allowSamePn then
      (.error .replay, { key with replays := key.replays + 1 })
    else if skb.status.decrypted then aeadFinish env micLen skb data (key.setRxPn queue pn)
    else
      match op key skb.hdr pn data mic with
      | none => (.error .mic, key)
      | some plain => aeadFinish env micLen skb plain (key.setRxPn queue pn)

/-- The shared body of `ieee80211_crypto_ccmp_decrypt` and `ieee80211_crypto_gcmp_decrypt`. -/
def aeadDecrypt (op : AeadOpen) (micLen : ℕ) (env : RxAlloc) (key : Key) (rx : RxData) :
    Except Drop RxSkb × Key :=
  let skb := rx.skb
  let hdr := skb.hdr
  let status := skb.status
  if !isData hdr.frameControl && !hdr.isRobustMgmtFrame then (.ok skb, key)
  else if status.decrypted && !skb.mayPull env (hdrlen hdr.frameControl + CCMP_HDR_LEN) then
    (.error .pull, key)
  else if !status.decrypted && !(skb.linear || env.linearize) then (.error .linearize, key)
  else
    let micLen := if status.decrypted && status.micStripped then 0 else micLen
    let skb := if status.decrypted then skb else { skb with linear := true }
    if rx.sta.isNone || hdr.len < hdrlen hdr.frameControl + CCMP_HDR_LEN + micLen then
      (.error .short, key)
    else aeadVerify op micLen env key rx.securityIdx skb

/-- `ieee80211_crypto_ccmp_decrypt`. -/
def cryptoCcmpDecrypt (C : Crypto) (micLen : ℕ) :
    RxAlloc → Key → RxData → Except Drop RxSkb × Key :=
  aeadDecrypt (fun key hdr pn data mic =>
    let b := ccmpSpecialBlocks hdr pn
    C.aesCcmDecrypt key.key b.nonce b.aad data mic) micLen

/-- `ieee80211_crypto_gcmp_decrypt`. -/
def cryptoGcmpDecrypt (C : Crypto) : RxAlloc → Key → RxData → Except Drop RxSkb × Key :=
  aeadDecrypt (fun key hdr pn data mic =>
    let b := gcmpSpecialBlocks hdr pn
    C.aesGcmDecrypt key.key b.nonce b.aad data mic) GCMP_MIC_LEN

/-! ### BIP -/

/-- `WLAN_EID_MMIE`. -/
def EID_MMIE : UInt8 := 76

/-- `sizeof(struct ieee80211_mmie)`: element id, length, key id, packet number and MIC. -/
def MMIE_LEN : ℕ := 18

/-- `sizeof(struct ieee80211_mmie_16)`. -/
def MMIE_16_LEN : ℕ := 26

/-- The last `n` bytes of the frame. -/
def Hdr.mmie (h : Hdr) (n : ℕ) : List UInt8 := h.rest.drop (h.rest.length - n)

/-- `bip_ipn_swap` of the element's `sequence_number`. -/
def mmieIpn (mmie : List UInt8) : Pn :=
  #v[mmie.getD 9 0, mmie.getD 8 0, mmie.getD 7 0, mmie.getD 6 0, mmie.getD 5 0, mmie.getD 4 0]

/-- The shared body of the three BIP functions. `mac` is the MIC over the frame; `needsMem` says
that it is computed into an allocated buffer. -/
def bipDecrypt (mmieLen : ℕ) (needsMem : Bool) (mac : Key → Hdr → Pn → Option (List UInt8))
    (env : RxAlloc) (key : Key) (rx : RxData) : Except Drop RxSkb × Key :=
  let skb := rx.skb
  let hdr := skb.hdr
  if !isMgmt hdr.frameControl then (.ok skb, key)
  else if hdr.len < 24 + mmieLen then (.error .short, key)
  else
    let mmie := hdr.mmie mmieLen
    if mmie.getD 0 0 ≠ EID_MMIE || (mmie.getD 1 0).toNat ≠ mmieLen - 2 then (.error .mmie, key)
    else
      let ipn := mmieIpn mmie
      if isReplay ipn (key.rxPn 0) false then
        (.error .replay, { key with replays := key.replays + 1 })
      else
        let trimmed := { skb with hdr := { hdr with
          rest := hdr.rest.take (hdr.rest.length - mmieLen) } }
        if skb.status.decrypted then (.ok trimmed, key.setRxPn 0 ipn)
        else if needsMem && !env.kmalloc then (.error .nomem, key)
        else if mac key hdr ipn ≠ some (mmie.drop 10) then
          (.error .mic, { key with icverrors := key.icverrors + 1 })
        else (.ok trimmed, key.setRxPn 0 ipn)

/-- `ieee80211_crypto_aes_cmac_decrypt`. -/
def cryptoAesCmacDecrypt (C : Crypto) : RxAlloc → Key → RxData → Except Drop RxSkb × Key :=
  bipDecrypt MMIE_LEN false fun key hdr _ => some (C.aesCmac key.key (bipAad hdr) hdr.rest)

/-- `ieee80211_crypto_aes_cmac_256_decrypt`. -/
def cryptoAesCmac256Decrypt (C : Crypto) : RxAlloc → Key → RxData → Except Drop RxSkb × Key :=
  bipDecrypt MMIE_16_LEN false fun key hdr _ =>
    some (C.aesCmac256 key.key (bipAad hdr) hdr.rest)

/-- `ieee80211_crypto_aes_gmac_decrypt`. -/
def cryptoAesGmacDecrypt (C : Crypto) : RxAlloc → Key → RxData → Except Drop RxSkb × Key :=
  bipDecrypt MMIE_16_LEN true fun key hdr ipn =>
    C.aesGmac key.key (bipAad hdr) (hdr.addr2.toList ++ ipn.toList) hdr.rest

/-- The `switch` in `ieee80211_rx_h_decrypt`. -/
def cryptoDecrypt (C : Crypto) (env : RxAlloc) (key : Key) (rx : RxData) :
    Except Drop RxSkb × Key :=
  match key.cipher with
  | .ccmp => cryptoCcmpDecrypt C CCMP_MIC_LEN env key rx
  | .ccmp256 => cryptoCcmpDecrypt C CCMP_256_MIC_LEN env key rx
  | .gcmp | .gcmp256 => cryptoGcmpDecrypt C env key rx
  | .aesCmac => cryptoAesCmacDecrypt C env key rx
  | .bipCmac256 => cryptoAesCmac256Decrypt C env key rx
  | .bipGmac128 | .bipGmac256 => cryptoAesGmacDecrypt C env key rx
  | .wep40 | .wep104 | .tkip | .other => (env.legacy.map rx.skb.withBody, key)

/-! ### What a call does to the packet numbers -/

namespace RxData

/-- The cipher's function looks at this kind of frame at all. -/
def handledBy (rx : RxData) (c : Cipher) : Bool :=
  let hdr := rx.skb.hdr
  c.isCcmpOrGcmp && (isData hdr.frameControl || hdr.isRobustMgmtFrame) ||
    c.isBip && isMgmt hdr.frameControl

/-- The cipher's function compares and stores the packet number: it handles the frame, and the
driver has not said that the hardware did. -/
def pnCheckedBy (rx : RxData) (c : Cipher) : Bool :=
  rx.handledBy c && !(c.isCcmpOrGcmp && rx.skb.status.pnValidated)

/-- The `rx_pn` slot it is compared with. -/
def pnQueue (rx : RxData) (c : Cipher) : ℕ := if c.isBip then 0 else rx.securityIdx

/-- Where the packet number is on the wire. -/
def wirePn (rx : RxData) : Cipher → Pn
  | .aesCmac => mmieIpn (rx.skb.hdr.mmie MMIE_LEN)
  | .bipCmac256 | .bipGmac128 | .bipGmac256 => mmieIpn (rx.skb.hdr.mmie MMIE_16_LEN)
  | _ => hdr2pn rx.skb.hdr.body

/-- A repeated packet number is let through. -/
def samePnAllowed (rx : RxData) (c : Cipher) : Bool :=
  c.isCcmpOrGcmp && rx.skb.status.allowSamePn

end RxData

/-- The three things a decryption can do. -/
inductive Decrypted (key : Key) (rx : RxData) : Except Drop RxSkb × Key → Prop
  /-- The packet number is not looked at, and the counters stay. -/
  | skipped {r : Except Drop RxSkb} {key' : Key} (hc : rx.pnCheckedBy key.cipher = false)
      (hcipher : key'.cipher = key.cipher) (hpn : key'.rxPn = key.rxPn) : Decrypted key rx (r, key')
  /-- The frame is dropped before its packet number is stored. -/
  | rejected {e : Drop} {key' : Key} (hc : rx.pnCheckedBy key.cipher = true) (he : e ≠ .trim)
      (hcipher : key'.cipher = key.cipher) (hpn : key'.rxPn = key.rxPn) :
      Decrypted key rx (.error e, key')
  /-- The packet number is new, and is stored. The frame is accepted, or `pskb_trim` fails. -/
  | stored {r : Except Drop RxSkb} (hc : rx.pnCheckedBy key.cipher = true)
      (hnew : isReplay (rx.wirePn key.cipher) (key.rxPn (rx.pnQueue key.cipher))
        (rx.samePnAllowed key.cipher) = false)
      (hr : r = .error .trim ∨ ∃ skb, r = .ok skb) :
      Decrypted key rx (r, key.setRxPn (rx.pnQueue key.cipher) (rx.wirePn key.cipher))

section Spec

variable {key : Key} {rx : RxData} {env : RxAlloc} {c : Cipher}

theorem Cipher.isBip_of_isCcmpOrGcmp (h : c.isCcmpOrGcmp = true) : c.isBip = false := by
  cases c <;> first | rfl | cases h

theorem RxData.wirePn_of_isCcmpOrGcmp (rx : RxData) (h : c.isCcmpOrGcmp = true) :
    rx.wirePn c = hdr2pn rx.skb.hdr.body := by
  cases c <;> first | rfl | cases h

theorem aeadFinish_eq (env : RxAlloc) (micLen : ℕ) (skb : RxSkb) (plain : List UInt8) (key : Key) :
    ∃ r, aeadFinish env micLen skb plain key = (r, key) ∧
      (r = .error .trim ∨ ∃ skb', r = .ok skb') := by
  rw [aeadFinish]
  split
  · exact ⟨_, rfl, .inr ⟨_, rfl⟩⟩
  · exact ⟨_, rfl, .inl rfl⟩

theorem RxData.pnCheckedBy_of_isCcmpOrGcmp (rx : RxData) (h : c.isCcmpOrGcmp = true) :
    rx.pnCheckedBy c = ((isData rx.skb.hdr.frameControl || rx.skb.hdr.isRobustMgmtFrame) &&
      !rx.skb.status.pnValidated) := by
  simp [RxData.pnCheckedBy, RxData.handledBy, h, Cipher.isBip_of_isCcmpOrGcmp h]

variable {skb : RxSkb}

/-- Past the length checks a frame is exempt, rejected, or stored. The buffer may have been
linearized on the way. -/
theorem aeadVerify_spec (op : AeadOpen) (micLen : ℕ) (h : key.cipher.isCcmpOrGcmp = true)
    (hdata : (isData rx.skb.hdr.frameControl || rx.skb.hdr.isRobustMgmtFrame) = true)
    (hhdr : skb.hdr = rx.skb.hdr) (hst : skb.status = rx.skb.status) :
    Decrypted key rx (aeadVerify op micLen env key rx.securityIdx skb) := by
  have hpn := rx.wirePn_of_isCcmpOrGcmp h
  have hqueue : rx.pnQueue key.cipher = rx.securityIdx := by
    simp [RxData.pnQueue, Cipher.isBip_of_isCcmpOrGcmp h]
  have hsame : rx.samePnAllowed key.cipher = rx.skb.status.allowSamePn := by
    simp [RxData.samePnAllowed, h]
  have hchecked := rx.pnCheckedBy_of_isCcmpOrGcmp h
  rw [hdata, Bool.true_and] at hchecked
  simp only [aeadVerify, hhdr, hst]
  cases hval : rx.skb.status.pnValidated with
  | true =>
    obtain ⟨r, hr, -⟩ := aeadFinish_eq env micLen skb _ key
    rw [if_pos rfl, hr]
    exact .skipped (by rw [hchecked, hval]; rfl) rfl rfl
  | false =>
    have hc : rx.pnCheckedBy key.cipher = true := by rw [hchecked, hval]; rfl
    rw [if_neg Bool.false_ne_true]
    split
    · exact .rejected hc (by decide) rfl rfl
    rename_i hnew
    -- both exits that store the packet number end in the same way
    have hstore : ∀ plain, Decrypted key rx
        (aeadFinish env micLen skb plain (key.setRxPn rx.securityIdx (hdr2pn rx.skb.hdr.body))) := by
      intro plain
      obtain ⟨r, hr, hr'⟩ := aeadFinish_eq env micLen skb plain
        (key.setRxPn rx.securityIdx (hdr2pn rx.skb.hdr.body))
      have hd : Decrypted key rx (r, _) := .stored hc
        (by rw [hpn, hqueue, hsame]; exact Bool.eq_false_iff.mpr hnew) hr'
      rw [hpn, hqueue] at hd
      rwa [hr]
    split
    · exact hstore _
    · split
      · exact .rejected hc (by decide) rfl rfl
      · exact hstore _

theorem aeadDecrypt_spec (op : AeadOpen) (micLen : ℕ) (h : key.cipher.isCcmpOrGcmp = true) :
    Decrypted key rx (aeadDecrypt op micLen env key rx) := by
  -- the exits before the packet number is looked at
  have hearly : ∀ e : Drop, e ≠ .trim → Decrypted key rx (.error e, key) := by
    intro e he
    cases hc : rx.pnCheckedBy key.cipher with
    | false => exact .skipped hc rfl rfl
    | true => exact .rejected hc he rfl rfl
  simp only [aeadDecrypt]
  split
  · rename_i hdata
    refine .skipped ?_ rfl rfl
    rw [rx.pnCheckedBy_of_isCcmpOrGcmp h]
    simp_all
  rename_i hdata
  rw [← Bool.not_or, Bool.not_eq_true', Bool.not_eq_false] at hdata
  split
  · exact hearly .pull (by decide)
  split
  · exact hearly .linearize (by decide)
  generalize (if (rx.skb.status.decrypted && rx.skb.status.micStripped) = true then 0
    else micLen) = micLen'
  split
  · exact hearly .short (by decide)
  · refine aeadVerify_spec op _ h hdata ?_ ?_ <;> split <;> rfl

theorem bipDecrypt_spec {mmieLen : ℕ} {needsMem : Bool} {mac : Key → Hdr → Pn → Option (List UInt8)}
    (h : key.cipher.isBip = true) (hpn : rx.wirePn key.cipher = mmieIpn (rx.skb.hdr.mmie mmieLen)) :
    Decrypted key rx (bipDecrypt mmieLen needsMem mac env key rx) := by
  have haead : key.cipher.isCcmpOrGcmp = false := by
    cases hc : key.cipher.isCcmpOrGcmp with
    | false => rfl
    | true => rw [Cipher.isBip_of_isCcmpOrGcmp hc] at h; cases h
  have hqueue : rx.pnQueue key.cipher = 0 := by simp [RxData.pnQueue, h]
  have hchecked : rx.pnCheckedBy key.cipher = isMgmt rx.skb.hdr.frameControl := by
    simp [RxData.pnCheckedBy, RxData.handledBy, h, haead]
  have hsame : rx.samePnAllowed key.cipher = false := by simp [RxData.samePnAllowed, haead]
  simp only [bipDecrypt]
  split
  · rename_i hmgmt
    exact .skipped (by rw [hchecked]; simpa using hmgmt) rfl rfl
  rename_i hmgmt
  have hc : rx.pnCheckedBy key.cipher = true := by rw [hchecked]; simpa using hmgmt
  have hstore : ∀ skb : RxSkb,
      isReplay (mmieIpn (rx.skb.hdr.mmie mmieLen)) (key.rxPn 0) false = false →
      Decrypted key rx (.ok skb, key.setRxPn 0 (mmieIpn (rx.skb.hdr.mmie mmieLen))) := by
    intro skb hnew
    have hd : Decrypted key rx (.ok skb, _) := .stored hc
      (by rw [hpn, hqueue, hsame]; exact hnew) (.inr ⟨skb, rfl⟩)
    rwa [hpn, hqueue] at hd
  split
  · exact .rejected hc (by decide) rfl rfl
  split
  · exact .rejected hc (by decide) rfl rfl
  split
  · exact .rejected hc (by decide) rfl rfl
  rename_i hnew
  have hnew := Bool.eq_false_iff.mpr hnew
  split
  · exact hstore _ hnew
  split
  · exact .rejected hc (by decide) rfl rfl
  split
  · exact .rejected hc (by decide) rfl rfl
  · exact hstore _ hnew

/-- **What a decryption does to the packet numbers.** Either it leaves them alone, or it has
checked the frame's number and stored it. -/
theorem cryptoDecrypt_spec (C : Crypto) (env : RxAlloc) (key : Key) (rx : RxData) :
    Decrypted key rx (cryptoDecrypt C env key rx) := by
  rw [cryptoDecrypt]
  split <;> rename_i hc
  · exact aeadDecrypt_spec _ _ (by rw [hc]; rfl)
  · exact aeadDecrypt_spec _ _ (by rw [hc]; rfl)
  · exact aeadDecrypt_spec _ _ (by rw [hc]; rfl)
  · exact aeadDecrypt_spec _ _ (by rw [hc]; rfl)
  · exact bipDecrypt_spec (by rw [hc]; rfl) (by rw [hc]; rfl)
  · exact bipDecrypt_spec (by rw [hc]; rfl) (by rw [hc]; rfl)
  · exact bipDecrypt_spec (by rw [hc]; rfl) (by rw [hc]; rfl)
  · exact bipDecrypt_spec (by rw [hc]; rfl) (by rw [hc]; rfl)
  all_goals exact .skipped (by rw [hc]; rfl) rfl rfl

/-! ### What a call does to the frame -/

/-- Whatever is let through has its header unchanged. -/
def KeepsHeader (rx : RxData) (out : Except Drop RxSkb × Key) : Prop :=
  ∀ skb, out.1 = .ok skb → ∃ rest, skb.hdr = { rx.skb.hdr with rest := rest }

theorem KeepsHeader.of_error (e : Drop) (key' : Key) : KeepsHeader rx (.error e, key') := by
  intro skb h
  cases h

theorem KeepsHeader.of_ok {key' : Key} (rest : List UInt8)
    (h : skb.hdr = { rx.skb.hdr with rest := rest }) : KeepsHeader rx (.ok skb, key') := by
  intro skb' h'
  rw [← Except.ok.inj h']
  exact ⟨rest, h⟩

theorem keepsHeader_aeadVerify (op : AeadOpen) (micLen queue : ℕ) (h : skb.hdr = rx.skb.hdr) :
    KeepsHeader rx (aeadVerify op micLen env key queue skb) := by
  have hfinish : ∀ plain key', KeepsHeader rx (aeadFinish env micLen skb plain key') := by
    intro plain key'
    rw [aeadFinish]
    split
    · exact .of_ok _ (by rw [← h]; rfl)
    · exact .of_error _ _
  simp only [aeadVerify]
  split
  · exact hfinish _ _
  split
  · exact .of_error _ _
  split
  · exact hfinish _ _
  split
  · exact .of_error _ _
  · exact hfinish _ _

theorem keepsHeader_aeadDecrypt (op : AeadOpen) (micLen : ℕ) :
    KeepsHeader rx (aeadDecrypt op micLen env key rx) := by
  simp only [aeadDecrypt]
  split
  · exact .of_ok _ rfl
  split
  · exact .of_error _ _
  split
  · exact .of_error _ _
  generalize (if (rx.skb.status.decrypted && rx.skb.status.micStripped) = true then 0
    else micLen) = micLen'
  split
  · exact .of_error _ _
  · refine keepsHeader_aeadVerify op _ _ ?_
    split <;> rfl

theorem keepsHeader_bipDecrypt (mmieLen : ℕ) (needsMem : Bool)
    (mac : Key → Hdr → Pn → Option (List UInt8)) :
    KeepsHeader rx (bipDecrypt mmieLen needsMem mac env key rx) := by
  simp only [bipDecrypt]
  split
  · exact .of_ok _ rfl
  split
  · exact .of_error _ _
  split
  · exact .of_error _ _
  split
  · exact .of_error _ _
  split
  · exact .of_ok _ rfl
  split
  · exact .of_error _ _
  split
  · exact .of_error _ _
  · exact .of_ok _ rfl

theorem cryptoDecrypt_header (C : Crypto) (env : RxAlloc) (key : Key) (rx : RxData) :
    KeepsHeader rx (cryptoDecrypt C env key rx) := by
  rw [cryptoDecrypt]
  split
  iterate 4 exact keepsHeader_aeadDecrypt _ _
  iterate 4 exact keepsHeader_bipDecrypt _ _ _
  all_goals
    cases env.legacy with
    | error e => exact .of_error _ _
    | ok body => exact .of_ok _ rfl

end Spec

end Mac80211
