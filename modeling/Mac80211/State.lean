import Mac80211.Randomizer.Table
import Mac80211.Wpa.Decrypt

/-!
# The state of the stack

`ieee80211_i.h`, `sta_info.h`: interfaces, stations, keys and queues of one
`struct ieee80211_local`, with the two address tables, which the source keeps in static variables.
Pointers are ids, and each kind of object lives in a heap of its own, a total function from ids; a
field that is not initialised has the value `kzalloc` gives it.

## Main definitions

* `Local`, `SubIfData`, `StaInfo`, `TxSkb`
-/

namespace Mac80211

open Buckets Function

/-- The identity of an interface; ids stand for pointers. -/
abbrev SdataId := ℕ

/-- `AP_MAX_BC_BUFFER`. -/
def AP_MAX_BC_BUFFER : ℕ := 128

/-- `RND_TP`: a randomization period, in seconds. -/
def RND_TP : ℕ := 15

/-- `enum nl80211_iftype`, as far as the transmit and receive paths tell types apart. -/
inductive IfType
  | station
  | ap
  | apVlan
  | monitor
  | meshPoint
  | adhoc
  | other
deriving DecidableEq

/-- `enum ieee80211_sta_state`. -/
inductive StaState
  | notexist
  | none
  | auth
  | assoc
  | authorized
deriving DecidableEq

/-! ### Error numbers -/

def ENOENT : ℤ := 2
def EIO : ℤ := 5
def EAGAIN : ℤ := 11
def ENOMEM : ℤ := 12
def EBUSY : ℤ := 16
def EEXIST : ℤ := 17
def EINVAL : ℤ := 22
def EILSEQ : ℤ := 84
def EOPNOTSUPP : ℤ := 95
def ENOTSUPP : ℤ := 524

/-! ### Frames to be sent -/

/-- `struct ieee80211_tx_info`. -/
structure TxInfo where
  vif : SdataId := 0
  hwKey : Option KeyId := none
  hwQueue : ℕ := 0
  /-- `IEEE80211_TX_INTFL_DONT_ENCRYPT`. -/
  dontEncrypt : Bool := false
  /-- `IEEE80211_TX_INTFL_NEED_TXPROCESSING`. -/
  needTxprocessing : Bool := false
  /-- `IEEE80211_TX_INTFL_RETRANSMISSION`. -/
  retransmission : Bool := false
  /-- `IEEE80211_TX_INTFL_OFFCHAN_TX_OK`. -/
  offchanTxOk : Bool := false
  /-- `IEEE80211_TX_CTL_DONTFRAG`. -/
  dontfrag : Bool := false
  /-- `IEEE80211_TX_CTL_AMPDU`. -/
  ampdu : Bool := false
  /-- `IEEE80211_TX_CTL_NO_PS_BUFFER`. -/
  noPsBuffer : Bool := false
  /-- `IEEE80211_TX_CTL_SEND_AFTER_DTIM`. -/
  sendAfterDtim : Bool := false
  /-- `IEEE80211_TX_INTFL_NL80211_FRAME_TX` or `IEEE80211_TX_CTL_INJECTED`. -/
  injected : Bool := false
  /-- `IEEE80211_TX_CTRL_PS_RESPONSE`. -/
  psResponse : Bool := false
  /-- `IEEE80211_TX_CTRL_PORT_CTRL_PROTO`. -/
  portCtrlProto : Bool := false
  /-- `IEEE80211_TX_CTRL_FAST_XMIT`. -/
  fastXmit : Bool := false
deriving DecidableEq

/-- A `struct sk_buff` on its way out. -/
structure TxSkb where
  hdr : Hdr
  /-- `IEEE80211_SKB_CB(skb)`. -/
  info : TxInfo := {}
  priority : ℕ := 0
deriving DecidableEq

/-- `struct ieee80211_fast_tx`: the cached header of a station. Where an address of the frame is
copied to is kept as the header field it lands in. -/
structure FastTx where
  /-- `hdr`, whose destination and source fields are still to be filled in. -/
  hdr : Hdr
  /-- `da_offs`: the destination goes to `addr1`, or to `addr3`. -/
  daIsAddr3 : Bool
  /-- `sa_offs`: the source goes to `addr2`, to `addr3`, or to `addr4`. -/
  saField : ℕ
  key : Option KeyId
  /-- `pn_offs ≠ 0`: the cipher header is part of the cached header. -/
  pnOffs : Bool
deriving DecidableEq

/-! ### Received fragments -/

/-- A fragment in the cache. The code keeps the buffer; how it came in is remembered here. -/
structure Fragment where
  /-- The buffer, without its header unless it is the first one. -/
  skb : RxSkb
  /-- The Protected bit of the frame received. -/
  isProtected : Bool
  /-- `rx->key`, the key the frame was matched with. -/
  key : Option KeyId
  /-- The cipher of that key. -/
  cipher : Option Cipher
  /-- The cipher's function ran on the frame under that key, and compared and stored its packet
  number. -/
  verified : Bool
  /-- That packet number. -/
  pn : Pn

/-- `struct ieee80211_fragment_entry`. -/
structure FragmentEntry where
  skbList : List Fragment := []
  /-- `first_frag_time`, in jiffies. -/
  firstFragTime : UInt64 := 0
  seq : ℕ := 0
  rxQueue : ℕ := 0
  lastFrag : ℕ := 0
  checkSequentialPn : Bool := false
  lastPn : Pn := Vector.replicate 6 0

/-! ### Interfaces and stations -/

/-- `struct ieee80211_sub_if_data`. -/
structure SubIfData where
  type : IfType
  addr : Mac
  /-- `u.mgd.bssid`, `u.ibss.bssid`. -/
  bssid : Mac := Vector.replicate 6 0
  use4addr : Bool := false
  /-- `bss`: the AP interface an AP or AP_VLAN interface belongs to. -/
  bss : Option SdataId := none
  /-- `u.vlan.sta`. -/
  vlanSta : Option StaId := none
  /-- `MONITOR_FLAG_ACTIVE`. -/
  monitorActive : Bool := false
  startTimePeriod : ℕ := 0
  sequenceNumber : UInt16 := 0
  keys : ℕ → Option KeyId := fun _ => none
  defaultUnicastKey : Option KeyId := none
  defaultMulticastKey : Option KeyId := none
  defaultMgmtKey : Option KeyId := none
  numStaPs : ℕ := 0
  bcBuf : List TxSkb := []
  /-- `fragments`, `IEEE80211_FRAGMENT_MAX` of them. -/
  fragments : List FragmentEntry := List.replicate 4 {}
  fragmentNext : ℕ := 0

/-- `struct ieee80211_cipher_scheme`, as far as `ieee80211_get_keyid` reads it. -/
structure CipherScheme where
  hdrLen : ℕ
  keyIdxOff : ℕ
  keyIdxMask : UInt8
  keyIdxShift : ℕ

/-- `struct sta_info`. -/
structure StaInfo where
  addr : Mac
  sdata : SdataId
  staState : StaState := .none
  uploaded : Bool := true
  ptk : ℕ → Option KeyId := fun _ => none
  /-- `ptk_idx`, initially `INVALID_PTK_KEYIDX`. -/
  ptkIdx : ℕ := 2
  gtk : ℕ → Option KeyId := fun _ => none
  startTimePeriod : ℕ := 0
  tidSeq : ℕ → UInt16 := fun _ => 0
  fastTx : Option FastTx := none
  wme : Bool := false
  /-- `WLAN_STA_MFP`. -/
  mfp : Bool := false
  /-- `WLAN_STA_TDLS_PEER`. -/
  tdlsPeer : Bool := false
  /-- `WLAN_STA_USES_ENCRYPTION`. -/
  usesEncryption : Bool := false
  cipherScheme : Option CipherScheme := none

/-- `struct ieee80211_txq`: the intermediate queue of a station's TID, or of an interface. -/
structure Txq where
  vif : SdataId
  sta : Option StaId
  tid : ℕ
deriving DecidableEq

/-! ### What has happened -/

/-- The ways a frame leaves mac80211 for the driver. -/
inductive Egress
  /-- `drv_tx` in `ieee80211_tx_frags`. -/
  | txFrags
  /-- The return value of `ieee80211_tx_dequeue`. -/
  | txDequeue
  /-- The return value of `ieee80211_get_buffered_bc`. -/
  | getBufferedBc
deriving DecidableEq

/-- One entry of the history. -/
inductive Logged
  /-- A packet number was taken from `tx_pn` of a key, at a time. -/
  | draw (key : KeyId) (pn : ℕ) (time : ℕ)
  /-- `tx_pn` of a key was overwritten, at a time. -/
  | reset (key : KeyId) (time : ℕ)
  /-- A frame was handed to the driver for an interface, with `control.sta`. -/
  | handed (path : Egress) (vif : SdataId) (sta : Option StaId) (skb : TxSkb)

/-! ### The device -/

/-- `struct ieee80211_local`, the address tables, and the wall clock. The history `log` is not in
the source; nothing reads it. -/
structure Local where
  /-- `ktime_get_real_seconds()`. -/
  now : ℕ := 0
  /-- `ops->wake_tx_queue` is there: the driver pulls frames from intermediate queues. -/
  wakeTxQueue : Bool := false
  /-- `HOST_BROADCAST_PS_BUFFERING`: group addressed frames wait in `bc_buf` for the DTIM beacon. -/
  hostBroadcastPsBuffering : Bool := false
  /-- `SUPPORTS_TX_FRAG`. -/
  supportsTxFrag : Bool := false
  /-- `QUEUE_CONTROL`. -/
  queueControl : Bool := false
  /-- `STA_MMPDU_TXQ`: stations have an intermediate queue for management frames. -/
  staMmpduTxq : Bool := false
  fragThreshold : ℕ := 2 ^ 32 - 1
  keys : KeyId → Key := fun _ => { cipher := .other, key := [] }
  /-- The id the next key gets; no key is ever given the id of another. -/
  nextKey : KeyId := 0
  sdata : SdataId → SubIfData := fun _ => { type := .other, addr := Vector.replicate 6 0 }
  interfaces : List SdataId := []
  monitorSdata : Option SdataId := none
  sta : StaId → StaInfo := fun _ => { addr := Vector.replicate 6 0, sdata := 0 }
  staList : List StaId := []
  translationTable : TranslationTable := Table.empty _ _
  sTranslationTable : PairTable := Table.empty _ _
  queueStopReasons : ℕ → ℕ := fun _ => 0
  pending : ℕ → List TxSkb := fun _ => []
  /-- The frames in each intermediate queue. -/
  txq : Txq → List TxSkb := fun _ => []
  /-- The fragments each intermediate queue hands out first. -/
  txqFrags : Txq → List TxSkb := fun _ => []
  /-- What has happened so far, newest first. -/
  log : List Logged := []

namespace Local

variable (s : Local)

/-- `ktime_get_real_seconds()/RND_TP`. -/
def currentTp : ℕ := s.now / RND_TP

/-- A write to a key. -/
def updKey (k : KeyId) (f : Key → Key) : Local :=
  { s with keys := Function.update s.keys k (f (s.keys k)) }

/-- A write to an interface. -/
def updSdata (i : SdataId) (f : SubIfData → SubIfData) : Local :=
  { s with sdata := Function.update s.sdata i (f (s.sdata i)) }

/-- A write to a station. -/
def updSta (i : StaId) (f : StaInfo → StaInfo) : Local :=
  { s with sta := Function.update s.sta i (f (s.sta i)) }

/-- Add to the history. -/
def logged (l : Logged) : Local := { s with log := l :: s.log }

/-- `sta->ptk[sta->ptk_idx]`. -/
def ptkOf (i : StaId) : Option KeyId := (s.sta i).ptk (s.sta i).ptkIdx

/-- `sta->sdata`. -/
def sdataOf (i : StaId) : SubIfData := s.sdata (s.sta i).sdata

@[simp] theorem updKey_keys_self (k : KeyId) (f : Key → Key) :
    (s.updKey k f).keys k = f (s.keys k) := update_self ..

theorem updKey_keys_of_ne {k k' : KeyId} (h : k' ≠ k) (f : Key → Key) :
    (s.updKey k f).keys k' = s.keys k' := update_of_ne h ..

@[simp] theorem updSdata_sdata_self (i : SdataId) (f : SubIfData → SubIfData) :
    (s.updSdata i f).sdata i = f (s.sdata i) := update_self ..

theorem updSdata_sdata_of_ne {i j : SdataId} (h : j ≠ i) (f : SubIfData → SubIfData) :
    (s.updSdata i f).sdata j = s.sdata j := update_of_ne h ..

@[simp] theorem updSta_sta_self (i : StaId) (f : StaInfo → StaInfo) :
    (s.updSta i f).sta i = f (s.sta i) := update_self ..

theorem updSta_sta_of_ne {i j : StaId} (h : j ≠ i) (f : StaInfo → StaInfo) :
    (s.updSta i f).sta j = s.sta j := update_of_ne h ..

end Local

/-! ### Key management -/

/-- The writes `key.c` does, one pointer at a time and in any order. -/
inductive KeyOp
  /-- `ieee80211_key_alloc`. -/
  | alloc (key : Key)
  /-- `sta->ptk[idx] = key`. -/
  | setPtk (sta : StaId) (idx : ℕ) (key : Option KeyId)
  /-- `sta->ptk_idx = idx`. -/
  | setPtkIdx (sta : StaId) (idx : ℕ)
  /-- `sta->gtk[idx] = key`. -/
  | setGtk (sta : StaId) (idx : ℕ) (key : Option KeyId)
  /-- `sdata->keys[idx] = key`. -/
  | setKey (sdata : SdataId) (idx : ℕ) (key : Option KeyId)
  /-- `sdata->default_unicast_key = key`. -/
  | setDefaultUnicast (sdata : SdataId) (key : Option KeyId)
  /-- `sdata->default_multicast_key = key`. -/
  | setDefaultMulticast (sdata : SdataId) (key : Option KeyId)
  /-- `sdata->default_mgmt_key = key`. -/
  | setDefaultMgmt (sdata : SdataId) (key : Option KeyId)
  /-- `key->flags |= KEY_FLAG_TAINTED`. -/
  | taint (key : KeyId)

namespace KeyOp

/-- The pointer an operation stores. -/
def pointer : KeyOp → Option KeyId
  | setPtk _ _ k | setGtk _ _ k | setKey _ _ k => k
  | setDefaultUnicast _ k | setDefaultMulticast _ k | setDefaultMgmt _ k => k
  | taint k => some k
  | alloc _ | setPtkIdx _ _ => none

/-- The write itself. A fresh key has sent nothing. -/
def write (s : Local) : KeyOp → Local
  | alloc key => { s with
      keys := Function.update s.keys s.nextKey { key with txPn := 0 }
      nextKey := s.nextKey + 1 }
  | setPtk sta idx k => s.updSta sta fun t => { t with ptk := Function.update t.ptk idx k }
  | setPtkIdx sta idx => s.updSta sta fun t => { t with ptkIdx := idx }
  | setGtk sta idx k => s.updSta sta fun t => { t with gtk := Function.update t.gtk idx k }
  | setKey i idx k => s.updSdata i fun d => { d with keys := Function.update d.keys idx k }
  | setDefaultUnicast i k => s.updSdata i fun d => { d with defaultUnicastKey := k }
  | setDefaultMulticast i k => s.updSdata i fun d => { d with defaultMulticastKey := k }
  | setDefaultMgmt i k => s.updSdata i fun d => { d with defaultMgmtKey := k }
  | taint k => s.updKey k fun key => { key with tainted := true }

/-- Only keys that were allocated can be pointed to. -/
def apply (s : Local) (op : KeyOp) : Option Local :=
  if ∀ k ∈ op.pointer, k < s.nextKey then some (op.write s) else none

end KeyOp

end Mac80211
