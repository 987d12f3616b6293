import Mac80211.Lib.Bytes
import Mac80211.Frame

/-!
# Keys and packet numbers

`struct ieee80211_key` (`key.h`). On the receive side and on the wire a packet number is six bytes,
most significant first; on the transmit side it is the counter `conf.tx_pn`, of which the low 48
bits go out. A key keeps its cipher for life. The CMAC and GMAC arms have a single `rx_pn`; it is
slot 0 here.

## Main definitions

* `Key`, `Pn`, `pnVal`, `pnOfNat`
-/

namespace Mac80211

/-- The identity of a key; ids stand for pointers. -/
abbrev KeyId := ℕ

/-- A packet number: six bytes, most significant first. -/
abbrev Pn := Vector UInt8 6

/-- The number a packet number stands for. -/
def pnVal (pn : Pn) : ℕ := Bytes.beNat pn.toList

theorem pnVal_lt (pn : Pn) : pnVal pn < 2 ^ 48 := by
  have h := Bytes.beNat_lt pn.toList
  rw [Vector.length_toList] at h
  exact h

theorem memcmp_pn (a b : Pn) : Bytes.memcmp a.toList b.toList = compare (pnVal a) (pnVal b) :=
  Bytes.memcmp_eq_compare (by simp)

/-- The loop `for (i = 5; i >= 0; i--) { pn[i]++; if (pn[i]) break; }`. -/
def incrPn (pn : Pn) : Pn := ⟨(Bytes.incr pn.toList).toArray, by simp⟩

theorem pnVal_incrPn (pn : Pn) : pnVal (incrPn pn) = (pnVal pn + 1) % 2 ^ 48 := by
  have h := Bytes.beNat_incr pn.toList
  rw [Vector.length_toList] at h
  exact h

/-- `pn[5] = pn64; pn[4] = pn64 >> 8; ...; pn[0] = pn64 >> 40`. -/
def pnOfNat (n : ℕ) : Pn :=
  #v[UInt8.ofNat (n / 2 ^ 40), UInt8.ofNat (n / 2 ^ 32), UInt8.ofNat (n / 2 ^ 24),
    UInt8.ofNat (n / 2 ^ 16), UInt8.ofNat (n / 2 ^ 8), UInt8.ofNat n]

theorem pnVal_pnOfNat (n : ℕ) : pnVal (pnOfNat n) = n % 2 ^ 48 := by
  simp only [pnVal, pnOfNat, Vector.toList_mk, Bytes.beNat, List.length_cons, List.length_nil,
    UInt8.toNat_ofNat']
  omega

/-- `WLAN_CIPHER_SUITE_*`; `other` is a suite only the hardware knows. -/
inductive Cipher
  | wep40
  | wep104
  | tkip
  | ccmp
  | ccmp256
  | gcmp
  | gcmp256
  | aesCmac
  | bipCmac256
  | bipGmac128
  | bipGmac256
  | other
deriving DecidableEq

/-- The four suites whose receive counters `rx_h_defragment` looks at. -/
def Cipher.isCcmpOrGcmp : Cipher → Bool
  | ccmp | ccmp256 | gcmp | gcmp256 => true
  | _ => false

/-- The four BIP suites, which protect group addressed management frames. -/
def Cipher.isBip : Cipher → Bool
  | aesCmac | bipCmac256 | bipGmac128 | bipGmac256 => true
  | _ => false

/-- `struct ieee80211_key`. The defaults are what `ieee80211_key_alloc` leaves at zero. -/
structure Key where
  cipher : Cipher
  /-- `conf.key`, with `conf.keylen` its length. -/
  key : List UInt8
  keyidx : ℕ := 0
  /-- `IEEE80211_KEY_FLAG_GENERATE_IV`. -/
  generateIv : Bool := false
  /-- `IEEE80211_KEY_FLAG_GENERATE_IV_MGMT`. -/
  generateIvMgmt : Bool := false
  /-- `IEEE80211_KEY_FLAG_GENERATE_MMIE`. -/
  generateMmie : Bool := false
  /-- `IEEE80211_KEY_FLAG_PUT_IV_SPACE`. -/
  putIvSpace : Bool := false
  /-- `IEEE80211_KEY_FLAG_SW_MGMT_TX`. -/
  swMgmtTx : Bool := false
  /-- `KEY_FLAG_UPLOADED_TO_HARDWARE`. -/
  uploadedToHardware : Bool := false
  /-- `KEY_FLAG_TAINTED`. -/
  tainted : Bool := false
  /-- `KEY_FLAG_CIPHER_SCHEME`. -/
  cipherScheme : Bool := false
  /-- `conf.iv_len`, of a cipher scheme. -/
  ivLen : ℕ := 0
  /-- `IEEE80211_KEY_FLAG_NO_AUTO_TX`: Extended Key ID, the key is only received with at first. -/
  noAutoTx : Bool := false
  /-- `conf.tx_pn`, an `atomic64_t`. -/
  txPn : ℕ := 0
  /-- `u.ccmp.rx_pn`, `u.gcmp.rx_pn`; slot 0 is `u.aes_cmac.rx_pn`, `u.aes_gmac.rx_pn`. -/
  rxPn : ℕ → Pn := fun _ => Vector.replicate 6 0
  replays : UInt32 := 0
  icverrors : UInt32 := 0

namespace Key

/-- `atomic64_inc_return(&key->conf.tx_pn)`: the counter after it, which is the value returned. -/
def incTxPn (k : Key) : Key := { k with txPn := (k.txPn + 1) % 2 ^ 64 }

/-- `memcpy(key->u.ccmp.rx_pn[queue], pn, 6)`. -/
def setRxPn (k : Key) (queue : ℕ) (pn : Pn) : Key :=
  { k with rxPn := fun q => if q = queue then pn else k.rxPn q }

theorem setRxPn_rxPn (k : Key) (queue : ℕ) (pn : Pn) (q : ℕ) :
    (k.setRxPn queue pn).rxPn q = if q = queue then pn else k.rxPn q := rfl

end Key

end Mac80211
