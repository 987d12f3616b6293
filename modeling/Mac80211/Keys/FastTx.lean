import Mac80211.Keys.Link

/-!
# Keys and the cached header of a station

`key.c` for all keys and stations at once. A station's `fast_tx` holds the key its frames are sent
with, so what changes that key has to look at `fast_tx` again. `checkFastXmit` also looks at the
power save flags here.

## Main definitions

* `FastState`, `FastEvent`
-/

namespace Mac80211

/-- Whose key it is: `key->sta`, and `IEEE80211_KEY_FLAG_PAIRWISE`. -/
inductive KeyOwner
  | pairwise (j : StaId)
  | group (j : StaId)
  | iface

/-- The station of a key. -/
def KeyOwner.sta : KeyOwner → Option StaId
  | pairwise j | group j => some j
  | iface => none

/-- Where a key was linked: `key->sdata`, and whose it is. -/
structure KeyHome where
  sdata : SdataId
  owner : KeyOwner

/-- The power save flags of a station. -/
structure StaPs where
  /-- `WLAN_STA_PS_STA`. -/
  psSta : Bool := false
  /-- `WLAN_STA_PS_DRIVER`. -/
  psDriver : Bool := false
  /-- `WLAN_STA_PS_DELIVER`. -/
  psDeliver : Bool := false
  /-- `WLAN_STA_CLEAR_PS_FILT`. -/
  clearPsFilt : Bool := false

/-- One of the flags is set. -/
def StaPs.asleep (p : StaPs) : Bool := p.psSta || p.psDriver || p.psDeliver || p.clearPsFilt

/-- Around one operation. -/
structure FastEnv where
  /-- `ops->set_key` is there. -/
  setKey : Bool := true
  drvSetKey : DrvSetKey := .ok
  /-- `SW_CRYPTO_CONTROL`. -/
  swCryptoControl : Bool := false
  /-- `SUPPORTS_PER_STA_GTK`. -/
  perStaGtk : Bool := true
  wowlan : Bool := false
  /-- For each station, `ieee80211_check_fast_xmit` finds memory, a channel context, and flags it
  handles. -/
  fast : StaId → Bool := fun _ => true

/-- The device, with where its keys are linked. -/
structure FastState where
  /-- Interfaces, stations and keys. -/
  loc : Local := {}
  /-- Where each key was linked. -/
  home : KeyId → KeyHome := fun _ => ⟨0, .iface⟩
  /-- `key_list` of each interface. -/
  keyList : SdataId → List KeyId := fun _ => []
  /-- The power save flags. -/
  ps : StaId → StaPs := fun _ => {}

namespace FastState

variable (env : FastEnv) (s : FastState)

/-- A write to a station. -/
def updSta (j : StaId) (f : StaInfo → StaInfo) : FastState := { s with loc := s.loc.updSta j f }

/-- A write to an interface. -/
def updSdata (i : SdataId) (f : SubIfData → SubIfData) : FastState :=
  { s with loc := s.loc.updSdata i f }

/-- A write to a key. -/
def updKey (k : KeyId) (f : Key → Key) : FastState := { s with loc := s.loc.updKey k f }

/-- A write to the power save flags of a station. -/
def updPs (j : StaId) (f : StaPs → StaPs) : FastState :=
  { s with ps := Function.update s.ps j (f (s.ps j)) }

/-! ### The cache -/

/-- `ieee80211_check_fast_xmit`. -/
def checkFastXmit (j : StaId) : FastState :=
  s.updSta j fun t => { t with
    fastTx := Mac80211.checkFastXmit s.loc (env.fast j && !(s.ps j).asleep) j }

/-- `ieee80211_clear_fast_xmit`. -/
def clearFastXmit (j : StaId) : FastState := s.updSta j fun t => { t with fastTx := none }

/-- The station is one of those `ieee80211_check_fast_xmit_iface` looks at. -/
def sharesBss (i : SdataId) (j : StaId) : Bool :=
  (s.loc.sta j).sdata = i ||
    (s.loc.sdataOf j).bss.isSome && (s.loc.sdataOf j).bss = (s.loc.sdata i).bss

/-- `ieee80211_check_fast_xmit_iface`. -/
def checkFastXmitIface (i : SdataId) : FastState :=
  s.loc.staList.foldl (fun s j => if s.sharesBss i j then s.checkFastXmit env j else s) s

/-! ### The hardware -/

/-- What the driver says to a new key, if it is asked. -/
def askDriver (home : KeyHome) : DrvSetKey :=
  if !env.setKey then .error
  else
    match home.owner with
    | .pairwise j => if !(s.loc.sta j).uploaded then .error else env.drvSetKey
    | .group j =>
      if !env.perStaGtk || !(s.loc.sta j).uploaded then .error
      else if (s.loc.sdata home.sdata).type = .apVlan then .one
      else env.drvSetKey
    | .iface => if (s.loc.sdata home.sdata).type = .apVlan then .one else env.drvSetKey

/-- What the driver refuses is done in software, if that is possible. -/
def inSoftware (home : KeyHome) (cipher : Cipher) : Bool :=
  match s.askDriver env home with
  | .ok => true
  | .one => cipher ≠ .other
  | .error => cipher ≠ .other && !env.swCryptoControl

/-- `ieee80211_key_enable_hw_accel`. -/
def enableHwAccel (k : KeyId) : FastState × Bool :=
  let key := s.loc.keys k
  if key.tainted then (s.updKey k fun key => { key with uploadedToHardware := false }, false)
  else
    (if s.askDriver env (s.home k) = .ok then
        s.updKey k fun key => { key with uploadedToHardware := true }
      else s,
      s.inSoftware env (s.home k) key.cipher)

/-- `ieee80211_key_disable_hw_accel`. -/
def disableHwAccel (k : KeyId) : FastState :=
  s.updKey k fun key => { key with uploadedToHardware := false }

/-! ### Choosing keys -/

/-- `_ieee80211_set_tx_key`. -/
def setTxKey (j : StaId) (idx : ℕ) : FastState :=
  (s.updSta j fun t => { t with usesEncryption := true, ptkIdx := idx }).checkFastXmit env j

/-- `__ieee80211_set_default_key`; no index is -1. -/
def setDefaultKey (i : SdataId) (idx : Option ℕ) (uni multi : Bool) : FastState :=
  let key := idx.bind fun n => if n < 4 then (s.loc.sdata i).keys n else none
  let s := if uni then
      (s.updSdata i fun d => { d with defaultUnicastKey := key }).checkFastXmitIface env i
    else s
  if multi then s.updSdata i fun d => { d with defaultMulticastKey := key } else s

/-- `__ieee80211_set_default_mgmt_key`. -/
def setDefaultMgmtKey (i : SdataId) (idx : Option ℕ) : FastState :=
  let key := idx.bind fun n => if 4 ≤ n ∧ n < 6 then (s.loc.sdata i).keys n else none
  s.updSdata i fun d => { d with defaultMgmtKey := key }

/-! ### Replacing a key -/

/-- The slot of a key. -/
def slot (home : KeyHome) (idx : ℕ) : Option KeyId :=
  match home.owner with
  | .pairwise j => (s.loc.sta j).ptk idx
  | .group j => (s.loc.sta j).gtk idx
  | .iface => (s.loc.sdata home.sdata).keys idx

/-- `ieee80211_pairwise_rekey`, without Extended Key ID: stop Tx till we are on the new key. -/
def pairwiseRekey (j : StaId) (old : Option KeyId) (new : KeyId) : FastState :=
  if (s.loc.keys new).noAutoTx then s
  else
    match old with
    | none => s
    | some k =>
      if (s.loc.keys k).uploadedToHardware then
        (s.updKey k fun key => { key with tainted := true }).clearFastXmit j
      else s

/-- The hardware's part of `ieee80211_key_replace`, and whether the new key can be used. -/
def replaceInHw (old new : Option KeyId) : FastState × Bool :=
  match old, new with
  | some k, new =>
    if (s.loc.keys k).uploadedToHardware then
      match new with
      | some k' => (s.disableHwAccel k).enableHwAccel env k'
      | none => (s.disableHwAccel k, true)
    else (s, true)
  | none, some k' => if env.wowlan then (s, true) else s.enableHwAccel env k'
  | none, none => (s, true)

/-- The defaults of an interface that were the old key, before its slot is written: with no new key there
is none. -/
def dropDefaults (i : SdataId) (old : KeyId) : FastState :=
  let d := s.loc.sdata i
  let s := if d.defaultUnicastKey = some old then s.setDefaultKey env i none true false else s
  let s := if d.defaultMulticastKey = some old then s.setDefaultKey env i none false true else s
  if d.defaultMgmtKey = some old then s.setDefaultMgmtKey i none else s

/-- The defaults of an interface that were the old key, after its slot is written: the new key is. -/
def moveDefaults (i : SdataId) (d : SubIfData) (old : KeyId) (idx : ℕ) : FastState :=
  let s := if d.defaultUnicastKey = some old then s.setDefaultKey env i (some idx) true false else s
  let s := if d.defaultMulticastKey = some old then s.setDefaultKey env i (some idx) false true else s
  if d.defaultMgmtKey = some old then s.setDefaultMgmtKey i (some idx) else s

/-- Write the slot, and what depends on it. -/
def store (home : KeyHome) (idx : ℕ) (old new : Option KeyId) : FastState :=
  match home.owner with
  | .pairwise j =>
    let s := s.updSta j fun t => { t with ptk := Function.update t.ptk idx new }
    match new with
    | some k =>
      if (s.loc.keys k).noAutoTx then s else s.setTxKey env j (s.loc.keys k).keyidx
    | none => s
  | .group j => s.updSta j fun t => { t with gtk := Function.update t.gtk idx new }
  | .iface =>
    let i := home.sdata
    let d := s.loc.sdata i
    match old, new with
    | some k, none =>
      (s.dropDefaults env i k).updSdata i fun d => { d with keys := Function.update d.keys idx none }
    | some k, some k' =>
      (s.updSdata i fun d => { d with keys := Function.update d.keys idx (some k') }).moveDefaults env
        i d k (s.loc.keys k').keyidx
    | none, new => s.updSdata i fun d => { d with keys := Function.update d.keys idx new }

/-- `list_add_tail_rcu(&new->list, &sdata->key_list)`. -/
def listAdd (i : SdataId) (k : KeyId) : FastState :=
  { s with keyList := Function.update s.keyList i (s.keyList i ++ [k]) }

/-- `list_del_rcu(&old->list)`. -/
def listDel (k : KeyId) : FastState :=
  let i := (s.home k).sdata
  { s with keyList := Function.update s.keyList i ((s.keyList i).erase k) }

/-- `ieee80211_key_replace`, where `idx` is the `keyidx` of the old or the new key. -/
def keyReplace (home : KeyHome) (idx : ℕ) (old new : Option KeyId) : FastState × Bool :=
  let s := match new with
    | some k => s.listAdd home.sdata k
    | none => s
  let s := match home.owner, new with
    | .pairwise j, some k => s.pairwiseRekey j old k
    | _, _ => s
  let (s, ok) := s.replaceInHw env old new
  if !ok then (s, false)
  else
    let s := s.store env home idx old new
    match old with
    | some k => (s.listDel k, true)
    | none => (s, true)

/-! ### Linking and freeing -/

/-- The key as `ieee80211_key_identical` compares it: in station mode a TKIP group key without the MIC
key for sending. -/
def comparedKey (home : KeyHome) (key : Key) : List UInt8 :=
  let pairwise := match home.owner with
    | .pairwise _ => true
    | _ => false
  if (s.loc.sdata home.sdata).type = .station ∧ key.cipher = .tkip ∧ key.key.length = 32 ∧ !pairwise then
    Bytes.memcpyAt key.key 16 (List.replicate 8 0)
  else key.key

/-- `ieee80211_key_identical`. -/
def keyIdentical (home : KeyHome) (old : Option KeyId) (key : Key) : Bool :=
  old.any fun k => s.comparedKey home { key with key := (s.loc.keys k).key } = s.comparedKey home key

/-- The new key has not the cipher of those it goes with. -/
def otherCipher (home : KeyHome) (idx : ℕ) (cipher : Cipher) : Bool :=
  ((s.slot home idx).any fun k => (s.loc.keys k).cipher ≠ cipher) ||
    match home.owner with
    | .pairwise j => ((s.loc.sta j).ptk (idx ^^^ 1)).any fun k => (s.loc.keys k).cipher ≠ cipher
    | _ => false

/-- The key is put into memory, with where it is linked. -/
def allocKey (home : KeyHome) (key : Key) : FastState :=
  { s with
    loc := s.loc.allocKey key
    home := Function.update s.home s.loc.nextKey home }

/-- `ieee80211_key_link`. -/
def keyLink (home : KeyHome) (idx : ℕ) (key : Key) (seq : Option Pn) : FastState :=
  let old := s.slot home idx
  if s.otherCipher home idx key.cipher then s
  else if s.keyIdentical home old key then s
  else
    let k := s.loc.nextKey
    match (s.allocKey home (newKey key idx seq)).keyReplace env home idx old (some k) with
    | (s, true) => s
    | (s, false) => (s.keyReplace env home idx (some k) none).1

/-- `ieee80211_key_free`, for the key in a slot. -/
def keyFree (home : KeyHome) (idx : ℕ) : FastState :=
  match s.slot home idx with
  | none => s
  | some k => (s.keyReplace env (s.home k) (s.loc.keys k).keyidx (some k) none).1

/-! ### Stations -/

/-- The transitions `sta_info_move_state` allows. -/
def mayMove : StaState → StaState → Bool
  | .auth, .none | .none, .auth | .assoc, .auth => true
  | .auth, .assoc | .authorized, .assoc | .assoc, .authorized => true
  | _, _ => false

/-- `sta_info_move_state`; `ok` says that the driver agrees. -/
def moveState (ok : Bool) (j : StaId) (state : StaState) : FastState :=
  let old := (s.loc.sta j).staState
  if !mayMove old state || !ok then s
  else
    let s := s.updSta j fun t => { t with staState := state }
    match state with
    | .assoc => if old = .authorized then s.clearFastXmit j else s
    | .authorized => s.checkFastXmit env j
    | _ => s

/-- `sta_ps_start`. -/
def staPsStart (j : StaId) : FastState :=
  if (s.loc.sdataOf j).type = .ap ∨ (s.loc.sdataOf j).type = .apVlan then
    (s.updPs j fun p => { p with psSta := true }).clearFastXmit j
  else s

/-- `ieee80211_sta_ps_deliver_wakeup`. -/
def staPsDeliverWakeup (j : StaId) : FastState :=
  if (s.loc.sdataOf j).type = .ap ∨ (s.loc.sdataOf j).type = .apVlan ∨
      (s.loc.sdataOf j).type = .meshPoint then
    (s.updPs j fun p => { p with psDeliver := false }).checkFastXmit env j
  else s

/-- `sta_ps_end`. -/
def staPsEnd (j : StaId) : FastState :=
  if (s.ps j).psDriver then s.updPs j fun p => { p with psSta := false }
  else (s.updPs j fun p => { p with psDeliver := true, psSta := false }).staPsDeliverWakeup env j

/-- `ieee80211_sta_ps_transition`. -/
def staPsTransition (j : StaId) (start : Bool) : FastState :=
  if start = (s.ps j).psSta then s
  else if start then s.staPsStart j
  else s.staPsEnd env j

/-- `ieee80211_sta_block_awake`; `polled` is `WLAN_STA_PSPOLL` or `WLAN_STA_UAPSD`. -/
def staBlockAwake (j : StaId) (block polled : Bool) : FastState :=
  if block then (s.updPs j fun p => { p with psDriver := true }).clearFastXmit j
  else if !(s.ps j).psDriver then s
  else if !(s.ps j).psSta then s.updPs j fun p => { p with psDeliver := true, psDriver := false }
  else if polled then s.updPs j fun p => { p with psDriver := false }
  else (s.updPs j fun p => { p with psDriver := false }).checkFastXmit env j

/-- `sta_deliver_ps_frames`. -/
def staDeliverPsFrames (j : StaId) : FastState :=
  if !(s.ps j).psSta then s.staPsDeliverWakeup env j else s

/-- `ieee80211_handle_filtered_frame`. -/
def handleFilteredFrame (j : StaId) : FastState :=
  (s.updPs j fun p => { p with clearPsFilt := true }).clearFastXmit j

/-- `ieee80211_tx_prepare`, for a frame to the station. -/
def txPrepare (j : StaId) : FastState :=
  if (s.ps j).clearPsFilt then
    (s.updPs j fun p => { p with clearPsFilt := false }).checkFastXmit env j
  else s

end FastState

/-! ### The machine -/

/-- What happens. -/
inductive FastEvent
  /-- `ieee80211_key_link`. -/
  | link (env : FastEnv) (home : KeyHome) (idx : ℕ) (key : Key) (seq : Option Pn)
  /-- `ieee80211_key_free`, for the key in a slot. -/
  | free (env : FastEnv) (home : KeyHome) (idx : ℕ)
  /-- `ieee80211_set_tx_key`, for a pairwise key of a station. -/
  | setTxKey (env : FastEnv) (j : StaId) (idx : ℕ)
  /-- `ieee80211_set_default_key`. -/
  | setDefaultKey (env : FastEnv) (i : SdataId) (idx : Option ℕ) (uni multi : Bool)
  /-- `sta_info_move_state`. -/
  | moveState (env : FastEnv) (ok : Bool) (j : StaId) (state : StaState)
  /-- `ieee80211_sta_ps_transition`. -/
  | psTransition (env : FastEnv) (j : StaId) (start : Bool)
  /-- `ieee80211_sta_block_awake`. -/
  | blockAwake (env : FastEnv) (j : StaId) (block polled : Bool)
  /-- `drv_deliver_wk`. -/
  | deliver (env : FastEnv) (j : StaId)
  /-- A frame to the station comes back filtered. -/
  | filtered (j : StaId)
  /-- The next frame to the station is sent on the slow path. -/
  | prepare (env : FastEnv) (j : StaId)

/-- The station an event is about. -/
def FastEvent.sta : FastEvent → Option StaId
  | link _ home .. | free _ home .. => home.owner.sta
  | setTxKey _ j _ | moveState _ _ j _ | psTransition _ j _ | blockAwake _ j .. => some j
  | deliver _ j | filtered j | prepare _ j => some j
  | setDefaultKey .. => none

/-- What an event does. -/
def FastState.handle (s : FastState) : FastEvent → FastState
  | .link env home idx key seq => s.keyLink env home idx key seq
  | .free env home idx => s.keyFree env home idx
  | .setTxKey env j idx => s.setTxKey env j idx
  | .setDefaultKey env i idx uni multi => s.setDefaultKey env i idx uni multi
  | .moveState env ok j state => s.moveState env ok j state
  | .psTransition env j start => s.staPsTransition env j start
  | .blockAwake env j block polled => s.staBlockAwake env j block polled
  | .deliver env j => s.staDeliverPsFrames env j
  | .filtered j => s.handleFilteredFrame j
  | .prepare env j => s.txPrepare env j

/-- One event. Nothing is emitted. -/
def fastStep (s : FastState) (e : FastEvent) : Option (FastState × List Unit) :=
  if e.sta.all fun j => j ∈ s.loc.staList then some (s.handle e, []) else none

end Mac80211
