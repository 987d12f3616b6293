import Mac80211.Keys.FastTxView

/-!
# The tailroom counters

`key.c`: `crypto_tx_tailroom_needed_cnt` counts the keys of an interface that want tailroom, and
what `crypto_tx_tailroom_pending_dec` says will be taken off later; an access point adds its count
to that of its VLANs. The driver may write to the flags of a key. The default keys and the cached
headers are left out.

## Main definitions

* `TailState`, `TailEvent`
-/

namespace Mac80211

/-- The interfaces and the hardware, while keys come and go. -/
structure TailNet where
  type : SdataId → IfType
  /-- `ieee80211_sdata_running`. -/
  running : SdataId → Bool
  vlans : SdataId → List SdataId
  /-- The access point of an interface that is on such a list: `sdata->bss`. -/
  master : SdataId → Option SdataId
  mem_vlans : ∀ v a, v ∈ vlans a ↔ master v = some a
  nodup : ∀ a, (vlans a).Nodup
  type_master : ∀ v a, master v = some a → type v = .apVlan ∧ type a = .ap
  running_vlan : ∀ v, type v = .apVlan → running v = true → ∃ a, master v = some a
  /-- The access point of an interface in station mode is found from that interface only, other
  stations only from interfaces of their access point. -/
  isAp : StaId → Bool
  /-- `ops->set_key` is there. -/
  setKey : Bool
  /-- `SW_CRYPTO_CONTROL`. -/
  swCryptoControl : Bool
  /-- `SUPPORTS_PER_STA_GTK`. -/
  perStaGtk : Bool

/-- The flags of a key that are about tailroom. -/
structure TailFlags where
  /-- `IEEE80211_KEY_FLAG_GENERATE_MMIC`. -/
  generateMmic : Bool := false
  /-- `IEEE80211_KEY_FLAG_PUT_MIC_SPACE`. -/
  putMicSpace : Bool := false
  /-- `IEEE80211_KEY_FLAG_RESERVE_TAILROOM`. -/
  reserveTailroom : Bool := false

/-- One of them is set. -/
def TailFlags.any (f : TailFlags) : Bool := f.generateMmic || f.putMicSpace || f.reserveTailroom

/-- A key, with where it is linked. -/
structure TailKey where
  /-- `key->sdata`, and whose it is. -/
  home : KeyHome := ⟨0, .iface⟩
  keyidx : ℕ := 0
  cipher : Cipher := .ccmp
  /-- `conf.key`, with `conf.keylen` its length. -/
  key : List UInt8 := []
  /-- `IEEE80211_KEY_FLAG_NO_AUTO_TX`. -/
  noAutoTx : Bool := false
  /-- The flags about tailroom. -/
  flags : TailFlags := {}
  /-- `KEY_FLAG_UPLOADED_TO_HARDWARE`. -/
  uploadedToHardware : Bool := false
  /-- `KEY_FLAG_TAINTED`. -/
  tainted : Bool := false

/-- Write `KEY_FLAG_UPLOADED_TO_HARDWARE`. -/
def TailKey.setUploaded (key : TailKey) (b : Bool) : TailKey := { key with uploadedToHardware := b }

/-- Write the flags about tailroom. -/
def TailKey.setFlags (key : TailKey) (flags : TailFlags) : TailKey := { key with flags := flags }

/-- Set `KEY_FLAG_TAINTED`. -/
def TailKey.taint (key : TailKey) : TailKey := { key with tainted := true }

/-- Around one operation. -/
structure TailEnv where
  wowlan : Bool := false
  /-- `sta->uploaded`. -/
  staUploaded : StaId → Bool := fun _ => true
  /-- What the driver says to a key, and the flags it leaves there. -/
  drvSetKey : KeyId → DrvSetKey × TailFlags := fun _ => (.ok, {})

/-- Keys, and the counters of the interfaces. -/
structure TailState where
  keys : KeyId → TailKey := fun _ => {}
  /-- The next key that is allocated. -/
  nextKey : KeyId := 0
  /-- `key_list` of each interface. -/
  keyList : SdataId → List KeyId := fun _ => []
  /-- `sta->ptk`, `sta->gtk` and `sdata->keys`. -/
  slots : KeySlot → Option KeyId := fun _ => none
  /-- `crypto_tx_tailroom_needed_cnt`, an `int`. -/
  neededCnt : SdataId → ℤ := fun _ => 0
  /-- `crypto_tx_tailroom_pending_dec`, an `int`. -/
  pendingDec : SdataId → ℤ := fun _ => 0

namespace TailState

variable (net : TailNet) (env : TailEnv) (s : TailState)

/-- A write to a key. -/
def updKey (k : KeyId) (f : TailKey → TailKey) : TailState :=
  { s with keys := Function.update s.keys k (f (s.keys k)) }

/-- Write `KEY_FLAG_UPLOADED_TO_HARDWARE` of a key. -/
def setUploaded (k : KeyId) (b : Bool) : TailState := s.updKey k fun key => key.setUploaded b

/-- Write the flags about tailroom of a key. -/
def setFlags (k : KeyId) (flags : TailFlags) : TailState := s.updKey k fun key => key.setFlags flags

/-- Set `KEY_FLAG_TAINTED` of a key. -/
def taint (k : KeyId) : TailState := s.updKey k TailKey.taint

/-- Add to the counter of an interface. -/
def addNeeded (i : SdataId) (delta : ℤ) : TailState :=
  { s with neededCnt := Function.update s.neededCnt i (s.neededCnt i + delta) }

/-- Write `crypto_tx_tailroom_pending_dec`. -/
def setPending (i : SdataId) (n : ℤ) : TailState :=
  { s with pendingDec := Function.update s.pendingDec i n }

/-- Write `crypto_tx_tailroom_needed_cnt` and `crypto_tx_tailroom_pending_dec`: 0. -/
def zeroCounts (i : SdataId) : TailState :=
  { s with
    neededCnt := Function.update s.neededCnt i 0
    pendingDec := Function.update s.pendingDec i 0 }

/-! ### Counting -/

/-- `update_vlan_tailroom_need_count`. -/
def updateVlanTailroomNeedCount (i : SdataId) (delta : ℤ) : TailState :=
  if net.type i ≠ .ap then s else (net.vlans i).foldl (fun s vlan => s.addNeeded vlan delta) s

/-- `increment_tailroom_need_count`. -/
def incrementTailroomNeedCount (i : SdataId) : TailState :=
  (s.updateVlanTailroomNeedCount net i 1).addNeeded i 1

/-- `decrease_tailroom_need_count`. -/
def decreaseTailroomNeedCount (i : SdataId) (delta : ℤ) : TailState :=
  (s.updateVlanTailroomNeedCount net i (-delta)).addNeeded i (-delta)

/-! ### The hardware -/

/-- The driver is not asked about the key, and what stands for its answer. -/
def unsupported (key : TailKey) : Option DrvSetKey :=
  if !net.setKey then some .error
  else
    match key.home.owner with
    | .pairwise j => if !env.staUploaded j then some .error else none
    | .group j =>
      if !net.perStaGtk || !env.staUploaded j then some .error
      else if net.type key.home.sdata = .apVlan then some .one
      else none
    | .iface => if net.type key.home.sdata = .apVlan then some .one else none

/-- `out_unsupported`: all but one kind of cipher we can do in software - if driver can. -/
def inSoftware (ret : DrvSetKey) (cipher : Cipher) : Bool :=
  cipher ≠ .other && (ret = .one || !net.swCryptoControl)

/-- `ieee80211_key_enable_hw_accel`. -/
def enableHwAccel (k : KeyId) : TailState × Bool :=
  let key := s.keys k
  if key.tainted then
    let s := if key.uploadedToHardware && !key.flags.any then
        s.incrementTailroomNeedCount net key.home.sdata
      else s
    (s.setUploaded k false, false)
  else
    match unsupported net env key with
    | some ret => (s, inSoftware net ret key.cipher)
    | none =>
      let (ret, flags) := env.drvSetKey k
      let s := s.setFlags k flags
      if ret = .ok then
        let s := s.setUploaded k true
        (if !flags.any then s.decreaseTailroomNeedCount net key.home.sdata 1 else s, true)
      else (s, inSoftware net ret key.cipher)

/-- `ieee80211_key_disable_hw_accel`. -/
def disableHwAccel (k : KeyId) : TailState :=
  let key := s.keys k
  if !net.setKey then s
  else if !key.uploadedToHardware then s
  else
    let s := if !key.flags.any then s.incrementTailroomNeedCount net key.home.sdata else s
    s.setUploaded k false

/-! ### Replacing a key -/

/-- `ieee80211_pairwise_rekey`: what it does to the old key. -/
def pairwiseRekey (old : Option KeyId) (new : KeyId) : TailState :=
  if (s.keys new).noAutoTx then s
  else
    match old with
    | none => s
    | some k =>
      if !(s.keys k).uploadedToHardware then s
      else s.taint k

/-- The hardware's part of `ieee80211_key_replace`. -/
def replaceInHw (old new : Option KeyId) : TailState × Bool :=
  match old, new with
  | some k, new =>
    if (s.keys k).uploadedToHardware then
      match new with
      | some k' => (s.disableHwAccel net k).enableHwAccel net env k'
      | none => (s.disableHwAccel net k, true)
    else (s, true)
  | none, some k' => if env.wowlan then (s, true) else s.enableHwAccel net env k'
  | none, none => (s, true)

/-- `list_add_tail_rcu(&new->list, &sdata->key_list)`. -/
def listAdd (i : SdataId) (k : KeyId) : TailState :=
  { s with keyList := Function.update s.keyList i (s.keyList i ++ [k]) }

/-- `list_del_rcu(&old->list)`. -/
def listDel (k : KeyId) : TailState :=
  let i := (s.keys k).home.sdata
  { s with keyList := Function.update s.keyList i ((s.keyList i).erase k) }

/-- Write a slot. -/
def setSlot (p : KeySlot) (k : Option KeyId) : TailState :=
  { s with slots := Function.update s.slots p k }

/-- `idx` of `ieee80211_key_replace`. -/
def replacedIdx (old new : Option KeyId) : ℕ :=
  match old, new with
  | some k, _ => (s.keys k).keyidx
  | none, some k => (s.keys k).keyidx
  | none, none => 0

/-- `ieee80211_key_replace`, and whether it returns 0. -/
def keyReplace (home : KeyHome) (old new : Option KeyId) : TailState × Bool :=
  let idx := s.replacedIdx old new
  let s := match new with
    | some k => s.listAdd home.sdata k
    | none => s
  let s := match home.owner, new with
    | .pairwise _, some k => s.pairwiseRekey old k
    | _, _ => s
  let (s, ok) := s.replaceInHw net env old new
  if !ok then (s, false)
  else
    let s := s.setSlot (home.slot idx) new
    match old with
    | some k => (s.listDel k, true)
    | none => (s, true)

/-! ### Linking and freeing -/

/-- `__ieee80211_key_destroy`, for a key that was linked. -/
def keyDestroy (k : KeyId) (delayTailroom : Bool) : TailState :=
  let i := (s.keys k).home.sdata
  if delayTailroom then s.setPending i (s.pendingDec i + 1) else s.decreaseTailroomNeedCount net i 1

/-- `ieee80211_key_free`: replace key with nothingness. -/
def keyFree (k : KeyId) (delayTailroom : Bool) : TailState :=
  ((s.keyReplace net env (s.keys k).home (some k) none).1).keyDestroy net k delayTailroom

/-- The bytes of a key as `ieee80211_key_identical` compares them: in station mode a TKIP group key
without the MIC key for sending. -/
def comparedKey (home : KeyHome) (cipher : Cipher) (key : List UInt8) : List UInt8 :=
  let pairwise := match home.owner with
    | .pairwise _ => true
    | _ => false
  if net.type home.sdata = .station ∧ cipher = .tkip ∧ key.length = 32 ∧ !pairwise then
    Bytes.memcpyAt key 16 (List.replicate 8 0)
  else key

/-- `ieee80211_key_identical`. -/
def keyIdentical (home : KeyHome) (old : Option KeyId) (key : TailKey) : Bool :=
  old.any fun k => comparedKey net home key.cipher (s.keys k).key =
    comparedKey net home key.cipher key.key

/-- The new key has not the cipher of those it goes with. -/
def otherCipher (home : KeyHome) (idx : ℕ) (cipher : Cipher) : Bool :=
  ((s.slots (home.slot idx)).any fun k => (s.keys k).cipher ≠ cipher) ||
    match home.owner with
    | .pairwise j => (s.slots (.ptk j (idx ^^^ 1))).any fun k => (s.keys k).cipher ≠ cipher
    | _ => false

/-- The key is put into memory, with where it is linked. -/
def allocKey (home : KeyHome) (idx : ℕ) (key : TailKey) : TailState :=
  { s with
    keys := Function.update s.keys s.nextKey
      { key with home := home, keyidx := idx, uploadedToHardware := false, tainted := false }
    nextKey := s.nextKey + 1 }

/-- `ieee80211_key_link`. -/
def keyLink (home : KeyHome) (idx : ℕ) (key : TailKey) : TailState :=
  let old := s.slots (home.slot idx)
  let delayTailroom : Bool := net.type home.sdata = .station
  if s.otherCipher home idx key.cipher then s
  else if s.keyIdentical net home old key then s
  else
    let k := s.nextKey
    let s := (s.allocKey home idx key).incrementTailroomNeedCount net home.sdata
    match s.keyReplace net env home old (some k) with
    | (s, true) =>
      match old with
      | some k' => s.keyDestroy net k' delayTailroom
      | none => s
    | (s, false) => s.keyFree net env k delayTailroom

/-- `ieee80211_del_key`. -/
def delKey (home : KeyHome) (idx : ℕ) : TailState :=
  match s.slots (home.slot idx) with
  | none => s
  | some k => s.keyFree net env k (net.type home.sdata = .station)

/-- `ieee80211_remove_key`: if key was uploaded, we assume the driver has removed it. -/
def removeKey (k : KeyId) : TailState :=
  let key := s.keys k
  let s := if key.uploadedToHardware then
      let s := s.setUploaded k false
      if !key.flags.any then s.incrementTailroomNeedCount net key.home.sdata else s
    else s
  s.keyFree net env k false

/-! ### Many keys -/

/-- `ieee80211_delayed_tailroom_dec`. -/
def delayedTailroomDec (i : SdataId) : TailState :=
  (s.decreaseTailroomNeedCount net i (s.pendingDec i)).setPending i 0

/-- `ieee80211_free_keys_iface`, and the keys that are left to destroy. -/
def freeKeysIface (i : SdataId) : TailState × List KeyId :=
  let s := (s.decreaseTailroomNeedCount net i (s.pendingDec i)).setPending i 0
  ((s.keyList i).foldl (fun s k => (s.keyReplace net env (s.keys k).home (some k) none).1) s,
    s.keyList i)

/-- `ieee80211_free_keys`. -/
def freeKeys (i : SdataId) : TailState :=
  let r := s.freeKeysIface net env i
  let r := if net.type i = .ap then
      (net.vlans i).foldl (fun r vlan =>
        let r' := r.1.freeKeysIface net env vlan
        (r'.1, r.2 ++ r'.2)) r
    else r
  r.2.foldl (fun s k => s.keyDestroy net k false) r.1

/-- The slots of a station: `sta->gtk`, then `sta->ptk`. -/
def staSlots (j : StaId) : List KeySlot :=
  [.gtk j 0, .gtk j 1, .gtk j 2, .gtk j 3, .gtk j 4, .gtk j 5,
    .ptk j 0, .ptk j 1, .ptk j 2, .ptk j 3]

/-- `ieee80211_free_sta_keys`. -/
def freeStaKeys (j : StaId) : TailState :=
  (staSlots j).foldl (fun s p =>
    match s.slots p with
    | none => s
    | some k => s.keyFree net env k (net.type (s.keys k).home.sdata = .station)) s

/-- `ieee80211_reenable_keys`. -/
def reenableKeys (i : SdataId) : TailState :=
  let s := s.zeroCounts i
  let s := if net.type i = .ap then (net.vlans i).foldl (fun s vlan => s.zeroCounts vlan) s else s
  if net.running i then
    (s.keyList i).foldl (fun s k => ((s.incrementTailroomNeedCount net i).enableHwAccel net env k).1) s
  else s

/-- `ieee80211_resume_disconnect`. -/
def resumeDisconnect (i : SdataId) : TailState :=
  (s.keyList i).foldl (fun s k => s.taint k) s

end TailState

/-! ### The machine -/

/-- What happens. -/
inductive TailEvent
  /-- `ieee80211_key_link`. -/
  | link (env : TailEnv) (home : KeyHome) (idx : ℕ) (key : TailKey)
  /-- `ieee80211_key_free`, from `ieee80211_del_key`. -/
  | del (env : TailEnv) (home : KeyHome) (idx : ℕ)
  /-- `ieee80211_key_free`, from `ieee80211_remove_key`, which the driver calls. -/
  | remove (env : TailEnv) (k : KeyId)
  /-- `ieee80211_free_sta_keys`. -/
  | freeSta (env : TailEnv) (j : StaId)
  /-- `ieee80211_free_keys`. -/
  | freeKeys (env : TailEnv) (i : SdataId)
  /-- `ieee80211_reenable_keys`, for a running interface. -/
  | reenable (env : TailEnv) (i : SdataId)
  /-- `ieee80211_resume_disconnect`, for an interface in station mode. -/
  | resumeDisconnect (i : SdataId)
  /-- `ieee80211_delayed_tailroom_dec`. -/
  | delayedDec (i : SdataId)

/-- A key of a station is linked or deleted through an interface the station is found from. -/
def TailNet.Finds (net : TailNet) (home : KeyHome) : Prop :=
  ∀ j ∈ home.owner.sta, (net.type home.sdata = .station ↔ net.isAp j = true)
deriving Decidable

/-- One event. Nothing is emitted. -/
def tailStep (net : TailNet) (s : TailState) : TailEvent → Option (TailState × List Unit)
  | .link env home idx key => if net.Finds home then some (s.keyLink net env home idx key, []) else none
  | .del env home idx => if net.Finds home then some (s.delKey net env home idx, []) else none
  | .remove env k => if k ∈ s.keyList (s.keys k).home.sdata then some (s.removeKey net env k, []) else none
  | .freeSta env j => some (s.freeStaKeys net env j, [])
  | .freeKeys env i => some (s.freeKeys net env i, [])
  | .reenable env i => if net.running i then some (s.reenableKeys net env i, []) else none
  | .resumeDisconnect i => if net.type i = .station then some (s.resumeDisconnect i, []) else none
  | .delayedDec i => some (s.delayedTailroomDec net i, [])

end Mac80211
