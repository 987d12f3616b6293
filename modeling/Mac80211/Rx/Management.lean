import Mac80211.Device
import Mac80211.Randomizer.Delete
import Mac80211.Rx.Defragment

/-!
# Receiving a deauthentication frame

`rx.c`, on a station interface: what a deauthentication frame runs through. `ieee80211_rx_h_check`
takes the entry of the receiver out of `s_translation_table`, before it is found out whether the
frame may be believed. Handlers that let a management frame pass are left out, and so are
statistics; what becomes of action frames is a parameter.

## Main definitions

* `DeviceEvent`, `rxHCheck`
-/

namespace Mac80211

open Buckets Machine

def STYPE_ASSOC_RESP : UInt16 := 0x0010
def STYPE_REASSOC_RESP : UInt16 := 0x0030
def STYPE_PROBE_RESP : UInt16 := 0x0050
def STYPE_BEACON : UInt16 := 0x0080
def STYPE_AUTH : UInt16 := 0x00B0

/-- `ieee80211_is_any_nullfunc`. -/
def isAnyNullfunc (fc : UInt16) : Bool := isSubtype FTYPE_DATA STYPE_NULLFUNC fc || isQosNullfunc fc

/-- `is_broadcast_ether_addr`. -/
def isBroadcastEtherAddr (a : Mac) : Bool := a = Vector.replicate 6 0xff

/-- `ieee80211_rx_result`. -/
inductive RxResult
  | rxContinue
  | rxDropUnusable
  | rxDropMonitor
  | rxQueued
deriving DecidableEq

/-- What a received frame finds around it. -/
structure RxEnv where
  alloc : RxAlloc := {}
  /-- `HZ`. -/
  hz : UInt64 := 100
  jiffies : UInt64 := 0
  /-- `RX_FLAG_DUP_VALIDATED`. -/
  dupValidated : Bool := false
  /-- `last_seq_ctrl` of the station. -/
  lastSeqCtrl : UInt16 := 0
  /-- What `ieee80211_rx_h_action` and the handlers after it make of an action frame. -/
  action : RxResult := .rxDropMonitor
  /-- `cfg80211_rx_mgmt`: somebody in user space takes the frame. -/
  rxMgmt : Bool := false

/-! ### Handlers -/

/-- `ieee80211_rx_h_check_dup`: the frame is a retransmission. -/
def rxHCheckDup (env : RxEnv) (rx : RxData) : Bool :=
  let h := rx.skb.hdr
  if env.dupValidated then false
  else if isCtl h.frameControl || isAnyNullfunc h.frameControl || isMulticastEtherAddr h.addr1 then false
  else if rx.sta.isNone then false
  else h.frameControl &&& FCTL_RETRY ≠ 0 && env.lastSeqCtrl = h.seqCtrl

/-- `ieee80211_rx_h_check`, as far as it is about deauthentication. -/
def rxHCheck (s : Local) (i : SdataId) (h : Hdr) : Local :=
  if isDeauth h.frameControl then
    match (s.sdata i).type with
    | .station => { s with sTranslationTable := deleteEntry s.sTranslationTable h.addr1 }
    | _ => s
  else s

/-- `ieee80211_drop_unencrypted_mgmt`. -/
def dropUnencryptedMgmt (s : Local) (rx : RxData) : Bool :=
  let h := rx.skb.hdr
  let multicast := isMulticastEtherAddr h.addr1
  if rx.skb.status.decrypted then false
  else if rx.sta.any fun j => (s.sta j).mfp then
    if !hasProtected h.frameControl && (!multicast && h.isRobustMgmtFrame) && rx.key.isSome then true
    else if (multicast && h.isRobustMgmtFrame) && (getMmieKeyidx rx.skb).isNone then true
    else isAction h.frameControl && rx.key.isNone && h.isRobustMgmtFrame
  else false

/-- `ieee80211_rx_h_mgmt`, on a station interface. -/
def rxHMgmt (h : Hdr) : RxResult :=
  let stype := h.frameControl &&& FCTL_STYPE
  if stype = STYPE_AUTH ∨ stype = STYPE_BEACON ∨ stype = STYPE_PROBE_RESP then .rxQueued
  else if stype = STYPE_DEAUTH ∨ stype = STYPE_ASSOC_RESP ∨ stype = STYPE_REASSOC_RESP ∨
      stype = STYPE_DISASSOC then
    if isMulticastEtherAddr h.addr1 && !isBroadcastEtherAddr h.addr1 then .rxDropMonitor else .rxQueued
  else .rxDropMonitor

/-- From `ieee80211_rx_h_mgmt_check` on. -/
def rxMgmtHandlers (env : RxEnv) (s : Local) (rx : RxData) : RxResult :=
  if dropUnencryptedMgmt s rx then .rxDropUnusable
  else if isAction rx.skb.hdr.frameControl then env.action
  else if env.rxMgmt then .rxQueued
  else rxHMgmt rx.skb.hdr

/-- What the receive path finally does with a frame. -/
inductive RxVerdict
  /-- It goes to the MLME, or to user space. -/
  | accepted
  | rejected
  /-- It is a fragment, and waits for the next one. -/
  | stored
deriving DecidableEq

/-- The end of a frame that is not a waiting fragment. -/
def RxResult.verdict : RxResult → RxVerdict
  | rxQueued => .accepted
  | _ => .rejected

/-- `ieee80211_rx_handlers`. -/
def rxHandlers (C : Crypto) (env : RxEnv) (s : Local) (i : SdataId) (rx : RxData) : RxVerdict × Local :=
  match rxHDecrypt C env.alloc s i rx with
  | (.error _, s) => (.rejected, s)
  | (.ok rx', s') =>
    match rxHDefragment env.hz env.jiffies env.alloc s' i rx' (fragmentOf s i rx rx'.skb rx'.key) with
    | (.dropped, s'') => (.rejected, s'')
    | (.queued, s'') => (.stored, s'')
    | (.whole skb, s'') => ((rxMgmtHandlers env s'' { rx' with skb := skb }).verdict, s'')
    | (.msdu skb _, s'') => ((rxMgmtHandlers env s'' { rx' with skb := skb }).verdict, s'')

/-- `ieee80211_invoke_rx_handlers`. -/
def invokeRxHandlers (C : Crypto) (env : RxEnv) (s : Local) (i : SdataId) (rx : RxData) :
    RxVerdict × Local :=
  if rxHCheckDup env rx then (.rejected, s) else rxHandlers C env (rxHCheck s i rx.skb.hdr) i rx

/-! ### The table and the later handlers -/

/-- Another table. -/
def Local.withPairTable (s : Local) (t : PairTable) : Local := { s with sTranslationTable := t }

section Frame

variable {C : Crypto} {env : RxEnv} {s : Local} {i : SdataId} {rx : RxData}

theorem rxHDecrypt_withPairTable (alloc : RxAlloc) (t : PairTable) :
    rxHDecrypt C alloc (s.withPairTable t) i rx =
      ((rxHDecrypt C alloc s i rx).1, (rxHDecrypt C alloc s i rx).2.withPairTable t) := by
  have hselect : rxSelectKey (s.withPairTable t) i rx = rxSelectKey s i rx := rfl
  rw [rxHDecrypt, rxHDecrypt, hselect]
  cases rxSelectKey s i rx with
  | drop => rfl
  | skip key => rfl
  | decrypt key =>
    cases key with
    | none => rfl
    | some k =>
      have hkeys : (s.withPairTable t).keys k = s.keys k := rfl
      dsimp only
      rw [hkeys]
      split
      · rfl
      · split
        · rfl
        · rfl

theorem rxHDefragment_withPairTable (f : Fragment) (t : PairTable) :
    rxHDefragment env.hz env.jiffies env.alloc (s.withPairTable t) i rx f =
      ((rxHDefragment env.hz env.jiffies env.alloc s i rx f).1,
        (rxHDefragment env.hz env.jiffies env.alloc s i rx f).2.withPairTable t) := by
  have hfind : findEntry env.hz env.jiffies (s.withPairTable t) i rx =
      findEntry env.hz env.jiffies s i rx := rfl
  have hfits (e : FragmentEntry) : e.pnFits (s.withPairTable t) rx = e.pnFits s rx := rfl
  rw [rxHDefragment, rxHDefragment, hfind]
  split
  · rfl
  · split
    · rfl
    · split
      · rfl
      · split
        · rfl
        · split
          · rfl
          · dsimp only
            rw [hfits]
            split
            · rfl
            · split
              · rfl
              · split
                · rfl
                · split
                  · rfl
                  · rfl

theorem rxHandlers_withPairTable (t : PairTable) : rxHandlers C env (s.withPairTable t) i rx =
      ((rxHandlers C env s i rx).1, (rxHandlers C env s i rx).2.withPairTable t) := by
  rw [rxHandlers, rxHandlers, rxHDecrypt_withPairTable]
  rcases rxHDecrypt C env.alloc s i rx with ⟨_ | rx', s'⟩
  · rfl
  · dsimp only
    have hfragment : fragmentOf (s.withPairTable t) i rx rx'.skb rx'.key =
        fragmentOf s i rx rx'.skb rx'.key := rfl
    rw [hfragment, rxHDefragment_withPairTable]
    rcases rxHDefragment env.hz env.jiffies env.alloc s' i rx' (fragmentOf s i rx rx'.skb rx'.key) with
      ⟨_ | _ | _ | _, s''⟩
    · rfl
    · rfl
    · rfl
    · rfl

end Frame

/-! ### All that happens to the tables -/

/-- An event of the device, or the check of a received frame. -/
inductive DeviceEvent
  | event (e : Event)
  /-- `ieee80211_rx_h_check`, on a frame for an interface. -/
  | check (i : SdataId) (h : Hdr)

/-- One event. -/
def receiveStep (sha1 : List UInt8 → Vector UInt8 20) (C : Crypto) (s : Local) :
    DeviceEvent → Option (Local × List Logged)
  | .event e => deviceStep sha1 C s e
  | .check i h => some (rxHCheck s i h, [])

end Mac80211
