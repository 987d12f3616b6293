import Mac80211.State

/-!
# Encryption

`wpa.c`, `wep.c`: the functions behind `ieee80211_tx_h_encrypt`. The first fragment that fails ends
the frame; packet numbers that were taken by then stay taken. Of the WEP, TKIP and hardware ciphers
only the packet number is modelled; what they make of the body is an arbitrary function.

## Main definitions

* `ccmpEncryptSkb`, `gcmpEncryptSkb`
-/

namespace Mac80211

/-- `pn64 = atomic64_inc_return(&key->conf.tx_pn)`, with the 48 bits of it that go out. -/
def Local.incTxPn (s : Local) (k : KeyId) : Local × Pn :=
  let s' := s.updKey k Key.incTxPn
  let pn := pnOfNat (s'.keys k).txPn
  (s'.logged (.draw k (pnVal pn) s.now), pn)

/-- What happens around the encryption of one frame. -/
structure EncryptEnv where
  /-- There is head and tail room in a fragment. -/
  room : TxSkb → Bool := fun _ => true
  /-- `aead_encrypt` found memory. -/
  aeadAlloc : TxSkb → Bool := fun _ => true
  /-- What the room for the cipher header holds if nothing is written there. -/
  ivSpace : List UInt8 := List.replicate 8 0
  /-- What WEP, TKIP and the hardware ciphers make of a packet number and a body. -/
  legacy : ℕ → List UInt8 → Option (List UInt8) := fun _ body => some body

namespace TxSkb

/-- Replace everything behind the 802.11 header. -/
def withBody (skb : TxSkb) (body : List UInt8) : TxSkb :=
  { skb with hdr := { skb.hdr with
      rest := skb.hdr.rest.take (hdrlen skb.hdr.frameControl - 24) ++ body } }

/-- `hdr->frame_control |= IEEE80211_FCTL_PROTECTED`. -/
def setProtected (skb : TxSkb) : TxSkb :=
  { skb with hdr := { skb.hdr with frameControl := skb.hdr.frameControl ||| FCTL_PROTECTED } }

end TxSkb

/-- Run a cipher over the fragments. `none` is `TX_DROP`. -/
def encryptAll (f : Local → TxSkb → Local × Option TxSkb) :
    Local → List TxSkb → Local × Option (List TxSkb)
  | s, [] => (s, some [])
  | s, skb :: skbs =>
    match f s skb with
    | (s, none) => (s, none)
    | (s, some skb) =>
      match encryptAll f s skbs with
      | (s, none) => (s, none)
      | (s, some skbs) => (s, some (skb :: skbs))

/-! ### CCMP and GCMP -/

/-- The hardware does not want a cipher header. -/
def Key.hwNeedsNothing (hwKey : Key) (fc : UInt16) : Bool :=
  !hwKey.generateIv && !hwKey.putIvSpace && !(hwKey.generateIvMgmt && isMgmt fc)

/-- The shared body of `ccmp_encrypt_skb` and `gcmp_encrypt_skb`. `op` is the AEAD call on the
frame with its cipher header. -/
def aeadEncryptSkb (op : Key → Hdr → Pn → List UInt8 → List UInt8) (env : EncryptEnv) (k : KeyId)
    (s : Local) (skb : TxSkb) : Local × Option TxSkb :=
  let hwKey := skb.info.hwKey.map s.keys
  if hwKey.any fun hw => hw.hwNeedsNothing skb.hdr.frameControl then (s, some skb)
  else if !env.room skb then (s, none)
  else if hwKey.any Key.putIvSpace then (s, some (skb.withBody (env.ivSpace ++ skb.hdr.body)))
  else
    let (s, pn) := s.incTxPn k
    let ivHdr := pn2hdr pn (s.keys k).keyidx
    if hwKey.isSome then (s, some (skb.withBody (ivHdr ++ skb.hdr.body)))
    else if !env.aeadAlloc skb then (s, none)
    else
      let sealed := op (s.keys k) (skb.withBody (ivHdr ++ skb.hdr.body)).hdr pn skb.hdr.body
      (s, some (skb.withBody (ivHdr ++ sealed)))

/-- `ccmp_encrypt_skb`. -/
def ccmpEncryptSkb (C : Crypto) (micLen : ℕ) : EncryptEnv → KeyId → Local → TxSkb →
    Local × Option TxSkb :=
  aeadEncryptSkb fun key hdr pn data =>
    let b := ccmpSpecialBlocks hdr pn
    C.aesCcmEncrypt key.key b.nonce b.aad data micLen

/-- `gcmp_encrypt_skb`. -/
def gcmpEncryptSkb (C : Crypto) : EncryptEnv → KeyId → Local → TxSkb → Local × Option TxSkb :=
  aeadEncryptSkb fun key hdr pn data =>
    let b := gcmpSpecialBlocks hdr pn
    C.aesGcmEncrypt key.key b.nonce b.aad data GCMP_MIC_LEN

/-! ### The other ciphers -/

/-- `wep_encrypt_skb`, and a body the hardware encrypts. -/
def legacyEncryptSkb (env : EncryptEnv) (s : Local) (skb : TxSkb) : Local × Option TxSkb :=
  (s, (env.legacy 0 skb.hdr.body).map skb.withBody)

/-- `tkip_encrypt_skb`. -/
def tkipEncryptSkb (env : EncryptEnv) (k : KeyId) (s : Local) (skb : TxSkb) :
    Local × Option TxSkb :=
  let hwKey := skb.info.hwKey.map s.keys
  if hwKey.any fun hw => !hw.generateIv && !hw.putIvSpace then (s, some skb)
  else if !env.room skb then (s, none)
  else if hwKey.any Key.putIvSpace then (s, some (skb.withBody (env.ivSpace ++ skb.hdr.body)))
  else
    let (s, pn) := s.incTxPn k
    (s, (env.legacy (pnVal pn) skb.hdr.body).map skb.withBody)

/-- `bip_ipn_set64`. -/
def bipIpnSet64 (pn : Pn) : List UInt8 := [pn[5]!, pn[4]!, pn[3]!, pn[2]!, pn[1]!, pn[0]!]

/-- The shared body of the three BIP functions: a single frame gets an MMIE. `mac` is the MIC over
the frame with the MMIE, its own place zeroed. -/
def bipEncrypt (mmieLen : ℕ) (hwMmie : Key → Bool) (mac : Key → Hdr → Pn → Option (List UInt8))
    (env : EncryptEnv) (k : KeyId) (s : Local) (skbs : List TxSkb) :
    Local × Option (List TxSkb) :=
  match skbs with
  | [skb] =>
    if skb.info.hwKey.isSome && !hwMmie (s.keys k) then (s, some [skb])
    else if !env.room skb then (s, none)
    else
      let (s, pn) := s.incTxPn k
      let head := [EID_MMIE, UInt8.ofNat (mmieLen - 2)] ++ le16 (UInt16.ofNat (s.keys k).keyidx) ++
        bipIpnSet64 pn
      let put (mic : List UInt8) : TxSkb :=
        { skb with hdr := { skb.hdr with rest := skb.hdr.rest ++ head ++ mic } }
      let blank := put (List.replicate (mmieLen - 10) 0)
      if skb.info.hwKey.isSome then (s, some [blank])
      else (s, (mac (s.keys k) blank.hdr pn).map fun mic => [put mic])
  | _ => (s, none)

/-- `ieee80211_crypto_aes_cmac_encrypt`, the only one of the three where the hardware may ask for
the MMIE. -/
def cryptoAesCmacEncrypt (C : Crypto) : EncryptEnv → KeyId → Local → List TxSkb →
    Local × Option (List TxSkb) :=
  bipEncrypt MMIE_LEN Key.generateMmie fun key hdr _ =>
    some (C.aesCmac key.key (bipAad hdr) hdr.rest)

/-- `ieee80211_crypto_aes_cmac_256_encrypt`. -/
def cryptoAesCmac256Encrypt (C : Crypto) : EncryptEnv → KeyId → Local → List TxSkb →
    Local × Option (List TxSkb) :=
  bipEncrypt MMIE_16_LEN (fun _ => false) fun key hdr _ =>
    some (C.aesCmac256 key.key (bipAad hdr) hdr.rest)

/-- `ieee80211_crypto_aes_gmac_encrypt`. -/
def cryptoAesGmacEncrypt (C : Crypto) : EncryptEnv → KeyId → Local → List TxSkb →
    Local × Option (List TxSkb) :=
  bipEncrypt MMIE_16_LEN (fun _ => false) fun key hdr pn =>
    C.aesGmac key.key (bipAad hdr) (hdr.addr2.toList ++ pn.toList) hdr.rest

/-- `ieee80211_crypto_hw_encrypt`: nothing to do, if the hardware has the key. -/
def cryptoHwEncrypt (env : EncryptEnv) (s : Local) (skbs : List TxSkb) :
    Local × Option (List TxSkb) :=
  if skbs.any fun skb => skb.info.hwKey.isNone then (s, none)
  else encryptAll (legacyEncryptSkb env) s (skbs.map TxSkb.setProtected)

/-- The `switch` in `ieee80211_tx_h_encrypt`. -/
def cryptoEncrypt (C : Crypto) (env : EncryptEnv) (k : KeyId) (s : Local) (skbs : List TxSkb) :
    Local × Option (List TxSkb) :=
  match (s.keys k).cipher with
  | .wep40 | .wep104 => encryptAll (legacyEncryptSkb env) s (skbs.map TxSkb.setProtected)
  | .tkip => encryptAll (tkipEncryptSkb env k) s (skbs.map TxSkb.setProtected)
  | .ccmp => encryptAll (ccmpEncryptSkb C CCMP_MIC_LEN env k) s (skbs.map TxSkb.setProtected)
  | .ccmp256 => encryptAll (ccmpEncryptSkb C CCMP_256_MIC_LEN env k) s (skbs.map TxSkb.setProtected)
  | .aesCmac => cryptoAesCmacEncrypt C env k s skbs
  | .bipCmac256 => cryptoAesCmac256Encrypt C env k s skbs
  | .bipGmac128 | .bipGmac256 => cryptoAesGmacEncrypt C env k s skbs
  | .gcmp | .gcmp256 => encryptAll (gcmpEncryptSkb C env k) s (skbs.map TxSkb.setProtected)
  | .other => cryptoHwEncrypt env s skbs

end Mac80211
