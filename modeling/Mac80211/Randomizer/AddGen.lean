import Mac80211.State

/-!
# Generating addresses

`mac_add_gen.c`: `generate_mac_add_ap_all` gives every station of the device a new address,
`generate_mac_add_sta` a station's own interface. Both restart the sequence numbers of the
interface, and overwrite the packet number counter of the keys with `generate_pn`. SHA-1 is an
arbitrary function; a station without PTK is a write through a null pointer, and the result is
`none`.

## Main definitions

* `generatePn`, `generateMacAddApAll`, `generateMacAddSta`
-/

namespace Mac80211

/-- `generate_pn`: the period modulo `2 ^ 24`, in the upper half of the 48 bits. -/
def generatePn (now : ℕ) : ℕ := now / RND_TP % 2 ^ 24 * 2 ^ 24

/-- The bytes of a `long long`, least significant first. -/
def leBytes64 (n : ℕ) : List UInt8 := (List.range 8).map fun i => UInt8.ofNat (n / 256 ^ i)

@[simp] theorem length_leBytes64 (n : ℕ) : (leBytes64 n).length = 8 := rfl

/-- `hash[0] = (hash[0] & 0xFC) | 0x02`, and the first six bytes. -/
def macOfHash (hash : Vector UInt8 20) : Mac :=
  #v[(hash[0] &&& 0xFC) ||| 0x02, hash[1], hash[2], hash[3], hash[4], hash[5]]

theorem isLocalEtherAddr_macOfHash (hash : Vector UInt8 20) :
    isLocalEtherAddr (macOfHash hash) = true := by
  have hbit : ∀ n < 256, ((UInt8.ofNat n &&& 0xFC) ||| 0x02) &&& 0x02 ≠ 0 := by decide +kernel
  have hbyte := hbit hash[0].toNat hash[0].toNat_lt
  rw [UInt8.ofNat_toNat] at hbyte
  exact decide_eq_true hbyte

/-- What happens around a rotation. -/
structure GenEnv where
  /-- The buffer, the hash and its descriptor could be allocated. -/
  alloc : Bool := true
  /-- What the buffer held before. -/
  junk : List UInt8 := List.replicate 30 0
  /-- A table entry for the station could be allocated. -/
  insert : StaId → Bool := fun _ => true
  /-- How many seconds pass before the clock is read for the station. -/
  delay : StaId → ℕ := fun _ => 0

namespace Local

/-- Time passes. -/
def advance (s : Local) (n : ℕ) : Local := { s with now := s.now + n }

/-- `atomic64_set(&key->conf.tx_pn, pn)`. -/
def setTxPn (s : Local) (k : KeyId) (pn : ℕ) : Local :=
  (s.updKey k fun key => { key with txPn := pn }).logged (.reset k s.now)

/-- Reset the counter of the key `p` points to, if it points to one. -/
def setTxPn? (s : Local) (p : Option KeyId) (pn : ℕ) : Local :=
  match p with
  | some k => s.setTxPn k pn
  | none => s

end Local

theorem setTxPn_keys (s : Local) (k k' : KeyId) (pn : ℕ) : (s.setTxPn k pn).keys k' =
      if k = k' then { s.keys k' with txPn := pn } else s.keys k' := by
  split
  · rename_i h
    subst h
    exact Local.updKey_keys_self s k fun key => { key with txPn := pn }
  · rename_i h
    exact Local.updKey_keys_of_ne s (Ne.symm h) fun key => { key with txPn := pn }

section

variable (sha1 : List UInt8 → Vector UInt8 20)

/-- The hash input of `generate_mac_add_ap_all`: key, address and period at fixed offsets. -/
def apHashInput (data key : List UInt8) (addr : Mac) (tp : ℕ) : List UInt8 :=
  Bytes.memcpyAt (Bytes.memcpyAt (Bytes.memcpyAt data 0 key) 16 addr.toList) (6 + 16) (leBytes64 tp)

/-- The hash input of `generate_mac_add_sta`: the period goes behind the key's own length. -/
def staHashInput (data key : List UInt8) (addr : Mac) (tp : ℕ) : List UInt8 :=
  Bytes.memcpyAt (Bytes.memcpyAt (Bytes.memcpyAt data 0 key) 16 addr.toList) (6 + key.length)
    (leBytes64 tp)

/-- `total_size`. -/
def HASH_INPUT_LEN : ℕ := 6 + 16 + 8

/-- The body of the loop in `generate_mac_add_ap_all`. The buffer stays from one station to the
next. -/
def generateMacAddApStep (env : GenEnv) (tp : ℕ) (st : Local × List UInt8) (j : StaId) :
    Option (Local × List UInt8) :=
  let s := st.1
  let sta := s.sta j
  match s.ptkOf j with
  -- the address would be the base address, but the counter is reset through a null pointer
  | none => none
  | some k =>
    let data := apHashInput st.2 (s.keys k).key sta.addr tp
    let rMac := macOfHash (sha1 (data.take HASH_INPUT_LEN))
    -- sequence reset
    let s := s.updSdata sta.sdata fun d => { d with sequenceNumber := 0 }
    let s := s.advance (env.delay j)
    let pn := generatePn s.now
    let s := (s.setTxPn k pn).setTxPn? (s.sdata sta.sdata).defaultMulticastKey pn
    some ({ s with translationTable :=
      updateEntryByBase (env.insert j) s.translationTable sta.addr rMac }, data)

/-- `generate_mac_add_ap_all`. -/
def generateMacAddApAll (env : GenEnv) (tp : ℕ) (s : Local) : Option Local :=
  if env.alloc then
    (s.staList.foldlM (generateMacAddApStep sha1 env tp) (s, env.junk)).map Prod.fst
  else some s

/-- `generate_mac_add_sta`. -/
def generateMacAddSta (env : GenEnv) (tp : ℕ) (j : StaId) (s : Local) : Option Local :=
  if env.alloc then
    let sta := s.sta j
    let addr := (s.sdata sta.sdata).addr
    match s.ptkOf j with
    -- the hash of whatever was in the buffer, and then a write through a null pointer
    | none => none
    | some k =>
      let data := staHashInput env.junk (s.keys k).key addr tp
      let rMac := macOfHash (sha1 (data.take HASH_INPUT_LEN))
      -- sequence reset
      let s := s.updSdata sta.sdata fun d => { d with sequenceNumber := 0 }
      let s := s.advance (env.delay j)
      let s := s.setTxPn k (generatePn s.now)
      some { s with sTranslationTable := sUpdateEntryByBase s.sTranslationTable addr rMac }
  else some s

end

end Mac80211
