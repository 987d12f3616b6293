import Mac80211.Rx.Reorder
import Mac80211.State
import Mathlib.Algebra.BigOperators.Fin

/-!
# Buffering for sleeping stations

`tx.c`, `sta_info.c`, `rx.c` and `mesh_ps.c`: frames for a station that is asleep wait in its
queues, and group frames in a queue of the interface. `total_ps_buffered` counts all of them, and
`num_sta_ps` the stations asleep.

What concerns one station is a function of the station that says what becomes of it and by how much
the two counters change. Frames that leave a queue are not followed. Removing a station takes it off
the list first, and cleans it up later; anything may happen between the two.

## Main definitions

* `PsLocal`, `PsSta`, `psStep`
-/

namespace Mac80211

/-! ### The state -/

/-- An access category; `IEEE80211_AC_VO` is 0 and `IEEE80211_AC_BK` is 3. -/
abbrev Ac := Fin 4

/-- A buffered frame. -/
structure PsSkb where
  dev : SdataId := 0
  jiffies : UInt64 := 0

/-- `struct sta_info`, as far as power saving goes. -/
structure PsSta where
  sdata : SdataId
  /-- `WLAN_STA_PS_STA`. -/
  psSta : Bool := false
  /-- `WLAN_STA_PS_DRIVER`. -/
  psDriver : Bool := false
  /-- `WLAN_STA_PS_DELIVER`. -/
  psDeliver : Bool := false
  /-- `WLAN_STA_PSPOLL`. -/
  pspoll : Bool := false
  /-- `WLAN_STA_UAPSD`. -/
  uapsd : Bool := false
  /-- `WLAN_STA_SP`. -/
  sp : Bool := false
  /-- `WLAN_STA_MPSP_OWNER`. -/
  mpspOwner : Bool := false
  psTxBuf : Ac → List PsSkb := fun _ => []
  txFiltered : Ac → List PsSkb := fun _ => []
  driverBufferedTids : UInt64 := 0
  txqBufferedTids : UInt64 := 0
  uapsdQueues : UInt8 := 0
  maxSp : UInt8 := 0
  listenInterval : ℕ := 0
  /-- `drv_deliver_wk` is queued. -/
  drvDeliverWk : Bool := false

/-- An interface, with the `ps_data` of an AP or mesh interface. -/
structure PsIface where
  type : IfType
  /-- `bss`: an AP is its own, an AP_VLAN has that of its AP. -/
  bss : Option SdataId := none
  bcBuf : List PsSkb := []
  numStaPs : ℤ := 0
  dtimCount : ℕ := 0
  dtimBcMc : Bool := false
  beaconInt : ℕ := 0

/-- `struct ieee80211_local`, as far as power saving goes. -/
structure PsLocal where
  interfaces : List SdataId
  iface : SdataId → PsIface
  staList : List ℕ := []
  sta : ℕ → PsSta := fun _ => { sdata := 0 }
  /-- The stations that have not been freed. -/
  alive : Finset ℕ := ∅
  totalPsBuffered : ℤ := 0

/-- Hardware flags. -/
structure PsHw where
  /-- `HOST_BROADCAST_PS_BUFFERING`. -/
  hostBroadcastPsBuffering : Bool := true
  hz : ℕ := 250

/-- `TOTAL_MAX_TX_BUFFER`. -/
def TOTAL_MAX_TX_BUFFER : ℤ := 512

/-- `STA_MAX_TX_BUFFER`. -/
def STA_MAX_TX_BUFFER : ℕ := 64

namespace PsSta

variable (sta : PsSta)

/-- One of the three flags that keep frames from being sent. -/
def asleep : Bool := sta.psSta || sta.psDriver || sta.psDeliver

/-- The number of frames in the queues. -/
def buffered : ℕ := ∑ ac : Ac, (sta.psTxBuf ac).length

/-- Put `q` in the queue of an access category. -/
def setBuf (ac : Ac) (q : List PsSkb) : PsSta :=
  { sta with psTxBuf := Function.update sta.psTxBuf ac q }

/-- Put `q` in the queue of filtered frames. -/
def setFiltered (ac : Ac) (q : List PsSkb) : PsSta :=
  { sta with txFiltered := Function.update sta.txFiltered ac q }

end PsSta

/-- The interface whose `ps_data` is used for interface `j`. -/
def PsLocal.psOf (s : PsLocal) (j : SdataId) : Option SdataId :=
  match (s.iface j).type with
  | .ap | .apVlan => (s.iface j).bss
  | .meshPoint => some j
  | _ => none

/-- The interface has a `ps_data` of its own. -/
def PsIface.hasPs (d : PsIface) : Bool := d.type = .ap || d.type = .meshPoint

/-! ### Making room -/

/-- Drop one frame from the lowest-priority AC that has frames at all, and count. -/
def purgeAcs : List Ac → PsSta → ℤ → PsSta × ℤ
  | [], sta, total => (sta, total)
  | ac :: acs, sta, total =>
    match sta.psTxBuf ac with
    | [] => purgeAcs acs sta total
    | _ :: q => (sta.setBuf ac q, total + q.length)

/-- The part of `purge_old_ps_buffers` for one interface. -/
def purgeIface (r : PsLocal × ℤ) (j : SdataId) : PsLocal × ℤ :=
  let d := r.1.iface j
  if d.hasPs then
    ({ r.1 with iface := Function.update r.1.iface j { d with bcBuf := d.bcBuf.tail } },
      r.2 + d.bcBuf.tail.length)
  else r

/-- The part of `purge_old_ps_buffers` for one station. -/
def purgeSta (r : PsLocal × ℤ) (i : ℕ) : PsLocal × ℤ :=
  let (sta, total) := purgeAcs [3, 2, 1, 0] (r.1.sta i) r.2
  ({ r.1 with sta := Function.update r.1.sta i sta }, total)

/-- `purge_old_ps_buffers`. -/
def purgeOldPsBuffers (s : PsLocal) : PsLocal :=
  let r := s.interfaces.foldl purgeIface (s, 0)
  let r := s.staList.foldl purgeSta r
  { r.1 with totalPsBuffered := r.2 }

/-- Make room if there are too many frames. -/
def purgeIfFull (s : PsLocal) : PsLocal :=
  if TOTAL_MAX_TX_BUFFER ≤ s.totalPsBuffered then purgeOldPsBuffers s else s

/-! ### One station -/

/-- What becomes of a station, and by how much the counters change. -/
structure StaDelta where
  sta : PsSta
  /-- The change of `total_ps_buffered`. -/
  total : ℤ := 0
  /-- The change of `num_sta_ps`. -/
  num : ℤ := 0

/-- The last part of `ieee80211_tx_h_unicast_ps_buf`: the frame is put in the queue. -/
def psBuffer (sta : PsSta) (ac : Ac) (skb : PsSkb) : StaDelta :=
  if STA_MAX_TX_BUFFER ≤ (sta.psTxBuf ac).length then
    { sta := sta.setBuf ac ((sta.psTxBuf ac).tail ++ [skb]) }
  else
    { sta := sta.setBuf ac (sta.psTxBuf ac ++ [skb])
      total := 1 }

/-- `sta_ps_start`. With intermediate queues, `txqs` says which TIDs have frames there. -/
def staPsStart (type : IfType) (sta : PsSta) (txqs : Option UInt64) : StaDelta :=
  if type = .ap || type = .apVlan then
    { sta := { sta with
        psSta := true
        txqBufferedTids := txqs.getD sta.txqBufferedTids }
      num := 1 }
  else { sta := sta }

/-- `ieee80211_sta_ps_deliver_wakeup`. -/
def staPsDeliverWakeup (hasPs : Bool) (sta : PsSta) : StaDelta :=
  if hasPs then
    { sta := { sta with
        sp := false
        driverBufferedTids := 0
        txqBufferedTids := 0
        txFiltered := fun _ => []
        psTxBuf := fun _ => []
        psDeliver := false
        pspoll := false
        uapsd := false }
      total := -sta.buffered
      num := -1 }
  else { sta := sta }

/-- `sta_ps_end`. -/
def staPsEnd (hasPs : Bool) (sta : PsSta) : StaDelta :=
  if sta.psDriver then { sta := { sta with psSta := false } }
  else staPsDeliverWakeup hasPs { sta with psDeliver := true, psSta := false }

/-- Frames of one AC, filtered ones first: at most `n` of them. The result has the number of frames
that may still be taken. -/
def takeFrames (ac : Ac) : ℕ → PsSta → ℤ → ℕ → PsSta × ℤ × ℕ × ℕ
  | 0, sta, total, got => (sta, total, got, 0)
  | n + 1, sta, total, got =>
    match sta.txFiltered ac with
    | _ :: q => takeFrames ac n (sta.setFiltered ac q) total (got + 1)
    | [] =>
      match sta.psTxBuf ac with
      | _ :: q => takeFrames ac n (sta.setBuf ac q) (total - 1) (got + 1)
      | [] => (sta, total, got, n + 1)

/-- `ieee80211_ac_to_qos_mask`. -/
def acToQosMask : Ac → UInt8 := ![0x01, 0x02, 0x08, 0x04]

/-- `ieee80211_tids_for_ac`. -/
def tidsForAc : Ac → UInt64 := ![0xc0, 0x30, 0x09, 0x06]

/-- `ieee80211_sta_ps_get_frames`. -/
def staPsGetFrames (ignoredAcs : UInt8) : List Ac → ℕ → PsSta → ℤ → ℕ → UInt64 → PsSta × ℤ
  | [], _, sta, total, _, _ => (sta, total)
  | ac :: acs, n, sta, total, got, driverReleaseTids =>
    if ignoredAcs &&& acToQosMask ac ≠ 0 then
      staPsGetFrames ignoredAcs acs n sta total got driverReleaseTids
    else
      let driverReleaseTids :=
        if got = 0 then
          driverReleaseTids ||| sta.driverBufferedTids &&& tidsForAc ac |||
            sta.txqBufferedTids &&& tidsForAc ac
        else driverReleaseTids
      let (sta, total, got, n) :=
        if driverReleaseTids = 0 then takeFrames ac n sta total got else (sta, total, got, n)
      if sta.txFiltered ac ≠ [] || sta.psTxBuf ac ≠ [] then (sta, total)
      else staPsGetFrames ignoredAcs acs n sta total got driverReleaseTids

/-- `ieee80211_sta_ps_deliver_response`. -/
def staPsDeliverResponse (sta : PsSta) (nFrames : ℕ) (ignoredAcs : UInt8) : StaDelta :=
  let (sta, total) := staPsGetFrames ignoredAcs [0, 1, 2, 3] nFrames { sta with sp := true } 0 0 0
  { sta := sta
    total := total }

/-- `ieee80211_sta_ps_deliver_poll_response`. -/
def staPsDeliverPollResponse (sta : PsSta) : StaDelta :=
  staPsDeliverResponse sta 1 (if sta.uapsdQueues = 15 then 0 else sta.uapsdQueues)

/-- `ieee80211_sta_ps_deliver_uapsd`. -/
def staPsDeliverUapsd (sta : PsSta) : StaDelta :=
  if sta.uapsdQueues = 0 then { sta := sta }
  else
    let nFrames := match sta.maxSp.toNat with
      | 1 => 2
      | 2 => 4
      | 3 => 6
      | 0 => 128
      | n => n
    staPsDeliverResponse sta nFrames (~~~sta.uapsdQueues)

/-- `ieee80211_sta_pspoll`. -/
def staPspoll (sta : PsSta) : StaDelta :=
  if sta.sp then { sta := sta }
  else if !sta.psDriver then staPsDeliverPollResponse sta
  else { sta := { sta with pspoll := true } }

/-- `ieee80211_sta_uapsd_trigger`; `ac` is that of the TID, or none for `IEEE80211_NUM_TIDS`. -/
def staUapsdTrigger (sta : PsSta) (ac : Option Ac) : StaDelta :=
  if (ac.any fun ac => sta.uapsdQueues &&& acToQosMask ac = 0) then { sta := sta }
  else if sta.sp then { sta := sta }
  else if !sta.psDriver then staPsDeliverUapsd sta
  else { sta := { sta with uapsd := true } }

/-- `ieee80211_sta_block_awake`. -/
def staBlockAwake (sta : PsSta) (block : Bool) : StaDelta :=
  if block then { sta := { sta with psDriver := true } }
  else if !sta.psDriver then { sta := sta }
  else if !sta.psSta then
    { sta := { sta with psDeliver := true, psDriver := false, drvDeliverWk := true } }
  else if sta.pspoll || sta.uapsd then
    { sta := { sta with psDriver := false, drvDeliverWk := true } }
  else { sta := { sta with psDriver := false } }

/-- `sta_deliver_ps_frames`, if the work is queued. -/
def staDeliverPsFrames (hasPs : Bool) (sta : PsSta) : StaDelta :=
  if sta.drvDeliverWk then
    let sta := { sta with drvDeliverWk := false }
    if !sta.psSta then staPsDeliverWakeup hasPs sta
    else if sta.pspoll then staPsDeliverPollResponse { sta with pspoll := false }
    else if sta.uapsd then staPsDeliverUapsd { sta with uapsd := false }
    else { sta := sta }
  else { sta := sta }

/-- `sta_info_buffer_expired`. -/
def bufferExpired (hz beaconInt : ℕ) (jiffies : UInt64) (sta : PsSta) (skb : PsSkb) : Bool :=
  timeAfter jiffies (skb.jiffies +
    UInt64.ofNat (max (sta.listenInterval * beaconInt * 32 / 15625 * hz) (10 * hz)))

/-- `sta_info_cleanup_expire_buffered_ac`. -/
def expireBufferedAc (expired : PsSkb → Bool) (r : PsSta × ℤ) (ac : Ac) : PsSta × ℤ :=
  let sta := r.1.setFiltered ac ((r.1.txFiltered ac).dropWhile expired)
  let q := (sta.psTxBuf ac).dropWhile expired
  (sta.setBuf ac q, r.2 - ((sta.psTxBuf ac).length - q.length))

/-- `sta_info_cleanup_expire_buffered`. -/
def expireBuffered (hasPs : Bool) (expired : PsSkb → Bool) (sta : PsSta) : StaDelta :=
  if hasPs then
    let (sta, total) := [0, 1, 2, 3].foldl (expireBufferedAc expired) (sta, 0)
    { sta := sta
      total := total }
  else { sta := sta }

/-- `ieee80211_handle_filtered_frame`, the part that keeps the frame. -/
def handleFilteredFrame (sta : PsSta) (ac : Ac) (skb : PsSkb) : StaDelta :=
  if sta.psSta && (sta.txFiltered ac).length < STA_MAX_TX_BUFFER then
    { sta := sta.setFiltered ac (sta.txFiltered ac ++ [skb]) }
  else { sta := sta }

/-- `ieee80211_mps_sta_status_update`, of a station that is associated. -/
def mpsStaStatusUpdate (sta : PsSta) (estab doBuffer : Bool) : StaDelta :=
  let sta := if !estab || !doBuffer then { sta with mpspOwner := false } else sta
  if sta.psSta = doBuffer then { sta := sta }
  else if doBuffer then
    { sta := { sta with psSta := true }
      num := 1 }
  else staPsDeliverWakeup true sta

/-- `mps_frame_deliver`, for all frames if there is no number. -/
def mpsFrameDeliver (sta : PsSta) (nFrames : Option ℕ) : StaDelta :=
  let n := nFrames.getD (sta.buffered + ∑ ac : Ac, (sta.txFiltered ac).length)
  let (sta, total, _, _) := ([0, 1, 2, 3] : List Ac).foldl
    (fun (r : PsSta × ℤ × ℕ × ℕ) ac => takeFrames ac r.2.2.2 r.1 r.2.1 r.2.2.1) (sta, 0, 0, n)
  { sta := sta
    total := total }

/-- The counters in `__cleanup_single_sta`. On an interface without `ps_data` it returns early. -/
def cleanupSingleSta (hasPs : Bool) (sta : PsSta) : StaDelta :=
  if sta.asleep && !hasPs then { sta := sta }
  else
    { sta := { sta with
        psSta := false
        psDriver := false
        psDeliver := false
        psTxBuf := fun _ => []
        txFiltered := fun _ => [] }
      total := -sta.buffered
      num := if sta.asleep then -1 else 0 }

/-- What can happen to one station. -/
inductive StaOp
  /-- It says it goes to sleep: `ieee80211_rx_h_sta_process`, `ieee80211_sta_ps_transition`. -/
  | doze (txqs : Option UInt64)
  /-- It says it is awake. -/
  | wake
  | pspoll
  | uapsdTrigger (ac : Option Ac)
  | blockAwake (block : Bool)
  /-- `sta_deliver_ps_frames`. -/
  | deliver
  /-- The timer `sta_info_cleanup`. -/
  | expire (jiffies : UInt64)
  | filtered (ac : Ac) (skb : PsSkb)
  /-- `ieee80211_sta_set_buffered`. -/
  | setBuffered (tids : UInt64)
  /-- `ieee80211_sta_eosp`. -/
  | eosp
  | mpsStatus (estab doBuffer : Bool)
  | mpsDeliver (owner : Bool) (nFrames : Option ℕ)

/-- What it does. -/
def staOp (hw : PsHw) (d : PsIface) (hasPs : Bool) (sta : PsSta) : StaOp → StaDelta
  | .doze txqs => if sta.psSta then { sta := sta } else staPsStart d.type sta txqs
  | .wake => if sta.psSta then staPsEnd hasPs sta else { sta := sta }
  | .pspoll => staPspoll sta
  | .uapsdTrigger ac => staUapsdTrigger sta ac
  | .blockAwake block => staBlockAwake sta block
  | .deliver => staDeliverPsFrames hasPs sta
  | .expire jiffies => expireBuffered hasPs (bufferExpired hw.hz d.beaconInt jiffies sta) sta
  | .filtered ac skb => handleFilteredFrame sta ac skb
  | .setBuffered tids => { sta := { sta with driverBufferedTids := tids } }
  | .eosp => { sta := { sta with sp := false } }
  | .mpsStatus estab doBuffer =>
    if d.type = .meshPoint then mpsStaStatusUpdate sta estab doBuffer else { sta := sta }
  | .mpsDeliver owner nFrames =>
    if d.type = .meshPoint then mpsFrameDeliver { sta with mpspOwner := owner } nFrames
    else { sta := sta }

/-! ### The device -/

/-- Change `num_sta_ps` of the interface whose `ps_data` counts for `j`. -/
def PsLocal.addNum (s : PsLocal) (j : SdataId) (n : ℤ) : SdataId → PsIface :=
  match s.psOf j with
  | some p => Function.update s.iface p { s.iface p with numStaPs := (s.iface p).numStaPs + n }
  | none => s.iface

/-- Put a change into effect. -/
def PsLocal.commit (s : PsLocal) (i : ℕ) (r : StaDelta) : PsLocal :=
  { s with
    sta := Function.update s.sta i r.sta
    iface := s.addNum (s.sta i).sdata r.num
    totalPsBuffered := s.totalPsBuffered + r.total }

/-- The `ps_data` of a station's interface is there. -/
def PsLocal.staHasPs (s : PsLocal) (i : ℕ) : Bool := (s.psOf (s.sta i).sdata).isSome

/-- `ieee80211_tx_h_unicast_ps_buf`. -/
def txUnicastPsBuf (s : PsLocal) (i : ℕ) (ac : Ac) (skb : PsSkb) (noPsBuffer unbufferable : Bool) :
    PsLocal :=
  if (s.sta i).asleep && !noPsBuffer then
    if unbufferable then s
    else
      let s := purgeIfFull s
      if !(s.sta i).asleep then s else s.commit i (psBuffer (s.sta i) ac skb)
  else s

/-- `ieee80211_tx_h_multicast_ps_buf`; `pass` is for ordered frames and probe requests. -/
def txMulticastPsBuf (hw : PsHw) (s : PsLocal) (j : SdataId) (skb : PsSkb) (pass : Bool) : PsLocal :=
  match s.psOf j with
  | none => s
  | some p =>
    if pass then s
    else if (s.iface p).numStaPs = 0 && (s.iface p).bcBuf.isEmpty then s
    else if !hw.hostBroadcastPsBuffering then s
    else
      let s := purgeIfFull s
      let d := s.iface p
      if AP_MAX_BC_BUFFER ≤ d.bcBuf.length then
        { s with iface := Function.update s.iface p { d with bcBuf := d.bcBuf.tail ++ [skb] } }
      else
        { s with
          iface := Function.update s.iface p { d with bcBuf := d.bcBuf ++ [skb] }
          totalPsBuffered := s.totalPsBuffered + 1 }

/-- The loop of `ieee80211_get_buffered_bc`: frames are taken until one can be sent. -/
def getBufferedBcLoop (prepare : PsSkb → Bool) : List PsSkb → ℤ → List PsSkb × ℤ
  | [], total => ([], total)
  | skb :: q, total =>
    if prepare skb then (q, total - 1) else getBufferedBcLoop prepare q (total - 1)

/-- `ieee80211_get_buffered_bc`; `up` says that there is a channel, and a beacon on an AP. -/
def PsLocal.getBufferedBc (s : PsLocal) (j : SdataId) (up : Bool) (prepare : PsSkb → Bool) : PsLocal :=
  let d := s.iface j
  if up && d.hasPs && d.dtimCount = 0 && d.dtimBcMc then
    let (q, total) := getBufferedBcLoop prepare d.bcBuf s.totalPsBuffered
    { s with
      iface := Function.update s.iface j { d with bcBuf := q }
      totalPsBuffered := total }
  else s

/-- `ieee80211_stop_ap`, `ieee80211_stop_mesh`. -/
def purgeBc (s : PsLocal) (j : SdataId) : PsLocal :=
  let d := s.iface j
  if d.hasPs then
    { s with
      iface := Function.update s.iface j { d with bcBuf := [] }
      totalPsBuffered := s.totalPsBuffered - d.bcBuf.length }
  else s

/-- `ieee80211_do_stop`, of an AP_VLAN: remove all packets in parent bc_buf pointing to this dev. -/
def vlanDown (s : PsLocal) (j : SdataId) : PsLocal :=
  match (s.iface j).type, (s.iface j).bss with
  | .apVlan, some p =>
    let d := s.iface p
    let q := d.bcBuf.filter fun skb => skb.dev ≠ j
    { s with
      iface := Function.update s.iface p { d with bcBuf := q }
      totalPsBuffered := s.totalPsBuffered - (d.bcBuf.length - q.length) }
  | _, _ => s

/-- `__sta_info_destroy_part1`: off the list. -/
def unlinkSta (s : PsLocal) (i : ℕ) : PsLocal := { s with staList := s.staList.erase i }

/-- `cleanup_single_sta`. -/
def cleanupSta (s : PsLocal) (i : ℕ) : PsLocal :=
  let s := s.commit i (cleanupSingleSta (s.staHasPs i) (s.sta i))
  { s with alive := s.alive.erase i }

/-- `ieee80211_sta_expire`, for one station and up to the point where it is off the list. -/
def expireSta (s : PsLocal) (i : ℕ) : PsLocal :=
  let j := (s.sta i).sdata
  let s := if (s.iface j).type = .meshPoint && (s.sta i).psSta then
      { s with iface := s.addNum j (-1) }
    else s
  unlinkSta s i

/-- A new station. -/
def newPsSta (j : SdataId) (uapsdQueues maxSp : UInt8) (listenInterval : ℕ) : PsSta where
  sdata := j
  uapsdQueues := uapsdQueues
  maxSp := maxSp
  listenInterval := listenInterval

/-- What can happen. -/
inductive PsOp
  | sta (i : ℕ) (op : StaOp)
  | txUnicast (i : ℕ) (ac : Ac) (skb : PsSkb) (noPsBuffer unbufferable : Bool)
  | txMulticast (j : SdataId) (skb : PsSkb) (pass : Bool)
  | bufferedBc (j : SdataId) (up : Bool) (prepare : PsSkb → Bool)
  /-- The DTIM count goes on. -/
  | beacon (j : SdataId) (dtimCount : ℕ) (dtimBcMc : Bool)
  | stop (j : SdataId)
  | vlanDown (j : SdataId)
  | addSta (i : ℕ) (j : SdataId) (uapsdQueues maxSp : UInt8) (listenInterval : ℕ)
  | unlink (i : ℕ)
  | expireSta (i : ℕ)
  | cleanup (i : ℕ)

/-- One step. Only what is there can be used. -/
def psStep (hw : PsHw) (s : PsLocal) : PsOp → Option (PsLocal × List Empty)
  | .sta i op =>
    if i ∈ s.alive then
      some (s.commit i (staOp hw (s.iface (s.sta i).sdata) (s.staHasPs i) (s.sta i) op), [])
    else none
  | .txUnicast i ac skb noPsBuffer unbufferable =>
    if i ∈ s.alive then some (txUnicastPsBuf s i ac skb noPsBuffer unbufferable, []) else none
  | .txMulticast j skb pass =>
    if j ∈ s.interfaces then some (txMulticastPsBuf hw s j skb pass, []) else none
  | .bufferedBc j up prepare =>
    if j ∈ s.interfaces then some (s.getBufferedBc j up prepare, []) else none
  | .beacon j dtimCount dtimBcMc =>
    let d := { s.iface j with dtimCount := dtimCount, dtimBcMc := dtimBcMc }
    some ({ s with iface := Function.update s.iface j d }, [])
  | .stop j => if j ∈ s.interfaces then some (purgeBc s j, []) else none
  | .vlanDown j => if j ∈ s.interfaces then some (vlanDown s j, []) else none
  | .addSta i j uapsdQueues maxSp listenInterval =>
    if i ∉ s.alive ∧ j ∈ s.interfaces then
      some ({ s with
        alive := insert i s.alive
        staList := i :: s.staList
        sta := Function.update s.sta i (newPsSta j uapsdQueues maxSp listenInterval) }, [])
    else none
  | .unlink i => if i ∈ s.staList then some (unlinkSta s i, []) else none
  | .expireSta i => if i ∈ s.staList then some (expireSta s i, []) else none
  | .cleanup i => if i ∈ s.alive ∧ i ∉ s.staList then some (cleanupSta s i, []) else none

end Mac80211
