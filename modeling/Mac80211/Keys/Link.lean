import Mac80211.Rx.Defragment
import Mac80211.Device

/-!
# Installing pairwise keys

`key.c`: `ieee80211_key_link` puts a key into a pairwise slot. A key with the bytes of the one in
the slot is thrown away; any other starts with counters of its own. It is used for sending at once,
unless it is one for Extended Key ID, which `ieee80211_set_tx` switches to. If the hardware refuses
it, the old key goes.

## Main definitions

* `keyLink`, `keyReplace`
-/

namespace Mac80211

/-! ### The hardware -/

/-- What `drv_set_key` returns. -/
inductive DrvSetKey
  /-- 0: the hardware has the key. -/
  | ok
  /-- 1: it is to be done in software. -/
  | one
  | error
deriving DecidableEq

/-- Around the installation of a key. -/
structure LinkEnv where
  /-- `ops->set_key` is there. -/
  setKey : Bool := true
  drvSetKey : DrvSetKey := .ok
  /-- `SW_CRYPTO_CONTROL`. -/
  swCryptoControl : Bool := false
  wowlan : Bool := false
  /-- `ieee80211_check_fast_xmit` finds memory, and nothing that it does not handle. -/
  fastXmit : Bool := true

/-- `ieee80211_key_enable_hw_accel` on a pairwise key: refused, or whether the key is in the hardware. -/
def keyEnableHwAccel (env : LinkEnv) (sta : StaInfo) (cipher : Cipher) : Option Bool :=
  match if !env.setKey || !sta.uploaded then .error else env.drvSetKey with
  | .ok => some true
  | .one => if cipher = .other then none else some false
  | .error => if cipher = .other || env.swCryptoControl then none else some false

/-! ### The station -/

/-- `_ieee80211_set_tx_key`. -/
def setTxKey (env : LinkEnv) (s : Local) (j : StaId) (idx : ℕ) : Local :=
  let s := s.updSta j fun t => { t with usesEncryption := true, ptkIdx := idx }
  s.updSta j fun t => { t with fastTx := checkFastXmit s env.fastXmit j }

/-- `ieee80211_pairwise_rekey`: sending stops until the new key is there. -/
def pairwiseRekey (s : Local) (j : StaId) (old : Option KeyId) (noAutoTx : Bool) : Local :=
  match old with
  | none => s
  | some k =>
    if !noAutoTx && (s.keys k).uploadedToHardware then
      let s := s.updKey k fun key => { key with tainted := true }
      s.updSta j fun t => { t with fastTx := none }
    else s

/-- Write `KEY_FLAG_UPLOADED_TO_HARDWARE`. -/
def Local.setUploaded (s : Local) (k : KeyId) (b : Bool) : Local :=
  s.updKey k fun key => { key with uploadedToHardware := b }

/-- Give the new key to the hardware, and whether that succeeds. -/
def enableKey (env : LinkEnv) (s : Local) (j : StaId) (new : KeyId) : Local × Bool :=
  match keyEnableHwAccel env (s.sta j) (s.keys new).cipher with
  | none => (s, false)
  | some b => (s.setUploaded new b, true)

/-- The hardware's part of `ieee80211_key_replace`. -/
def replaceInHardware (env : LinkEnv) (s : Local) (j : StaId) (old : Option KeyId) (new : KeyId) :
    Local × Bool :=
  match old with
  | some k =>
    if (s.keys k).uploadedToHardware then enableKey env (s.setUploaded k false) j new else (s, true)
  | none => if env.wowlan then (s, true) else enableKey env s j new

/-- Write a pairwise slot. -/
def Local.setPtk (s : Local) (j : StaId) (idx : ℕ) (k : Option KeyId) : Local :=
  s.updSta j fun t => { t with ptk := Function.update t.ptk idx k }

/-- `ieee80211_key_replace`, for a new pairwise key. -/
def keyReplace (env : LinkEnv) (s : Local) (j : StaId) (idx : ℕ) (old : Option KeyId) (new : KeyId) :
    Local × Bool :=
  let noAutoTx := (s.keys new).noAutoTx
  let (s, ok) := replaceInHardware env (pairwiseRekey s j old noAutoTx) j old new
  if ok then
    let s := s.setPtk j idx (some new)
    (if noAutoTx then s else setTxKey env s j idx, true)
  else (s, false)

/-- `ieee80211_key_alloc`: nothing has been sent with the key; `seq` is what was received last. -/
def newKey (key : Key) (idx : ℕ) (seq : Option Pn) : Key :=
  { key with
    keyidx := idx
    txPn := 0
    rxPn := fun _ => seq.getD (Vector.replicate 6 0)
    uploadedToHardware := false
    tainted := false
    replays := 0
    icverrors := 0 }

/-- Put a key into memory. -/
def Local.allocKey (s : Local) (key : Key) : Local :=
  { s with keys := Function.update s.keys s.nextKey key, nextKey := s.nextKey + 1 }

/-- `ieee80211_key_identical`, for pairwise keys. -/
def keyIdentical (s : Local) (old : Option KeyId) (key : Key) : Bool :=
  old.any fun k => (s.keys k).key = key.key

/-- `ieee80211_key_link`, for a pairwise key: the state, and the key that was installed. -/
def keyLink (env : LinkEnv) (s : Local) (j : StaId) (idx : ℕ) (key : Key) (seq : Option Pn) :
    Local × Option KeyId :=
  let old := (s.sta j).ptk idx
  let alt := (s.sta j).ptk (idx ^^^ 1)
  if (alt.any fun k => (s.keys k).cipher ≠ key.cipher) || old.any fun k => (s.keys k).cipher ≠ key.cipher then
    (s, none)
  -- silently accept key re-installation without really installing the new version
  else if keyIdentical s old key then (s, none)
  else
    let k := s.nextKey
    match keyReplace env (s.allocKey (newKey key idx seq)) j idx old k with
    | (s, true) => (s, some k)
    | (s, false) => (s.setPtk j idx none, none)

/-- `ieee80211_set_tx`. -/
def setTx (env : LinkEnv) (s : Local) (j : StaId) (idx : ℕ) : Local :=
  if (s.sta j).ptkIdx = idx then s
  else
    match (s.sta j).ptk idx with
    | none => s
    | some k => if (s.keys k).noAutoTx then setTxKey env s j idx else s

/-! ### The machine -/

/-- The device, and the pairwise keys that were installed for the station so far. -/
structure KeyState where
  loc : Local
  linked : List KeyId := []

/-- What happens. -/
inductive KeyEvent
  /-- `ieee80211_key_link` with a pairwise key of the station. -/
  | link (env : LinkEnv) (idx : ℕ) (key : Key) (seq : Option Pn)
  /-- `ieee80211_set_tx` for the station. -/
  | setTx (env : LinkEnv) (idx : ℕ)
  /-- `ieee80211_rx_h_decrypt` on a frame for an interface. -/
  | rx (env : RxAlloc) (i : SdataId) (rx : RxData)
  /-- Anything else. -/
  | dev (e : Event)

/-- The event leaves the pairwise keys of the station where they are. -/
def Event.spares (j : StaId) : Event → Bool
  | .key (.setPtk j' _ _) | .key (.setPtkIdx j' _) | .removeSta j' => j' ≠ j
  | _ => true

/-- One event. Pairwise keys of station `j` are installed by `ieee80211_key_link` only, and never
deleted. -/
def keyStep (sha1 : List UInt8 → Vector UInt8 20) (C : Crypto) (j : StaId) (s : KeyState) :
    KeyEvent → Option (KeyState × List Logged)
  | .link env idx key seq =>
    if j ∈ s.loc.staList then
      let (loc, k) := keyLink env s.loc j idx key seq
      some ({ loc := loc, linked := k.toList ++ s.linked }, [])
    else none
  | .setTx env idx =>
    if j ∈ s.loc.staList then some ({ s with loc := Mac80211.setTx env s.loc j idx }, []) else none
  | .rx env i rx => some ({ s with loc := (rxHDecrypt C env s.loc i rx).2 }, [])
  | .dev e =>
    if e.spares j then
      (deviceStep sha1 C s.loc e).map fun (loc, o) => ({ s with loc := loc }, o)
    else none

/-- The packet numbers used under some key bytes, oldest first. -/
def materialPns (s : KeyState) (material : List UInt8) (os : List Logged) : List ℕ :=
  os.filterMap fun
    | .draw k pn _ => if k ∈ s.linked ∧ (s.loc.keys k).key = material then some pn else none
    | _ => none

end Mac80211
