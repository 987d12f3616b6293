import Mac80211.Mesh.Matches
import Mac80211.Mesh.Peering

/-!
# The peers of a mesh interface

A mesh interface with a record for each of its stations, `estab_plinks`, and everything that writes
a `plink_state`. User space sets one only if it does the peering itself (`user_mpm`), which may
change at any time here.

## Main definitions

* `PlinkIf`, `plinkIfStep`
-/

namespace Mac80211

/-! ### The interface -/

/-- `struct sta_info` of a station of a mesh. -/
structure MeshPeer where
  addr : Mac
  /-- `WLAN_STA_AUTH`. -/
  auth : Bool := true
  mesh : MeshSta := {}
deriving DecidableEq

/-- `mshcfg`, and what `join` sets up. -/
structure PlinkCfg where
  /-- `dot11MeshMaxPeerLinks`. -/
  maxPeerLinks : UInt16
  /-- `dot11MeshMaxRetries`. -/
  maxRetries : ℕ
  /-- `security` is `IEEE80211_MESH_SEC_NONE`. -/
  secNone : Bool := true
  profile : MeshProfile

/-- A mesh interface, as far as peering goes. -/
structure PlinkIf where
  peers : List MeshPeer := []
  estabPlinks : ℤ := 0
  cfg : PlinkCfg
  userMpm : Bool := false

namespace PlinkIf

variable (s : PlinkIf)

/-- `sta_info_get`. -/
def staInfoGet (addr : Mac) : Option MeshPeer := s.peers.find? fun p => p.addr = addr

/-- `mesh_plink_free_count`. -/
def meshPlinkFreeCount : ℤ := s.cfg.maxPeerLinks.toNat - s.estabPlinks

/-- Write to the record of a station. -/
def putPeer (peer : MeshPeer) : PlinkIf :=
  { s with peers := s.peers.map fun p => if p.addr = peer.addr then peer else p }

/-- `atomic_inc` and `atomic_dec` of `estab_plinks`. -/
def addEstab (n : ℤ) : PlinkIf := { s with estabPlinks := s.estabPlinks + n }

/-- What a call finds: `mesh_matches_local`, a free count that is not 0, `WLAN_STA_AUTH` of the
record, and the link IDs of others. A record made by the kernel has `WLAN_STA_AUTH`; none is made if
user space does the peering. -/
def callEnv (env : PlinkEnv) (addr : Mac) (elems : MeshElems) : PlinkEnv :=
  { env with
    matchesLocal := meshMatchesLocal s.cfg.profile elems
    free := s.meshPlinkFreeCount != 0
    auth := ((s.staInfoGet addr).map MeshPeer.auth).getD true
    alloc := env.alloc && !s.userMpm
    inUse := (s.peers.filter fun p => p.addr ≠ addr).map fun p => p.mesh.llid }

/-- The record for an address is now this one, if there is one. -/
def store (addr : Mac) (sta : Option MeshSta) : PlinkIf :=
  match sta, s.staInfoGet addr with
  | none, _ => s
  | some mesh, some peer => s.putPeer { peer with mesh := mesh }
  | some mesh, none => { s with peers := s.peers ++ [{
      addr := addr
      mesh := mesh }] }

@[simp] theorem store_none (addr : Mac) : s.store addr none = s := rfl

theorem store_new {addr : Mac} (h : s.staInfoGet addr = none) (mesh : MeshSta) :
    s.store addr (some mesh) = { s with peers := s.peers ++ [{
      addr := addr
      mesh := mesh }] } := by
  simp [store, h]

theorem store_known {addr : Mac} {peer : MeshPeer} (h : s.staInfoGet addr = some peer) (mesh : MeshSta) :
    s.store addr (some mesh) = s.putPeer { peer with mesh := mesh } := by
  simp [store, h]

end PlinkIf

/-! ### Records, and what is counted -/

/-- `__mesh_plink_deactivate`. -/
def meshPlinkDeactivateLocked (sta : MeshSta) : MeshSta × ℤ :=
  ({ sta with plinkState := .blocked }, if sta.plinkState = .estab then -1 else 0)

/-- `mesh_plink_block`. -/
def meshPlinkBlock (sta : MeshSta) : MeshSta × ℤ :=
  let (sta, n) := meshPlinkDeactivateLocked sta
  ({ sta with plinkState := .blocked }, n)

/-- What `mesh_plink_fsm` counts: `mesh_plink_establish`, and `__mesh_plink_deactivate`. -/
def meshPlinkFsmEstab (sta : MeshSta) (event : PlinkEvent) : ℤ :=
  match sta.plinkState, event with
  | .opnRcvd, .cnfAcpt => 1
  | .cnfRcvd, .opnAcpt => 1
  | .estab, .clsAcpt => (meshPlinkDeactivateLocked sta).2
  | _, _ => 0

/-- `enum nl80211_plink_action`. -/
inductive PlinkAction
  | noAction
  | actionOpen
  | actionBlock
deriving DecidableEq

/-- `struct station_parameters`. -/
structure StationParams where
  /-- `NL80211_STA_FLAG_AUTHENTICATED`, if it is in the mask. -/
  auth : Option Bool := none
  /-- `plink_state`, with `STATION_PARAM_APPLY_PLINK_STATE`. -/
  plinkState : Option PlinkState := none
  plinkAction : PlinkAction := .noAction

/-- The first half of `sta_apply_mesh_params`. -/
def staApplyPlinkState (sta : MeshSta) : Option PlinkState → MeshSta × ℤ
  | none => (sta, 0)
  | some .estab => ({ sta with plinkState := .estab }, if sta.plinkState ≠ .estab then 1 else 0)
  | some state => ({ sta with plinkState := state }, if sta.plinkState = .estab then -1 else 0)

/-- `sta_apply_mesh_params`. -/
def staApplyMeshParams (env : PlinkEnv) (sta : MeshSta) (params : StationParams) : Option (MeshSta × ℤ) :=
  let (sta, n) := staApplyPlinkState sta params.plinkState
  match params.plinkAction with
  | .noAction => some (sta, n)
  | .actionOpen => (meshPlinkOpen env sta).map fun (sta, _, _) => (sta, n)
  | .actionBlock =>
    let (sta, m) := meshPlinkBlock sta
    some (sta, n + m)

/-- `sta_apply_parameters`: `WLAN_STA_AUTH` is cleared before the rest, and set after it. -/
def staApplyParameters (env : PlinkEnv) (peer : MeshPeer) (params : StationParams) :
    Option (MeshPeer × ℤ) :=
  let auth := peer.auth && params.auth != some false
  (staApplyMeshParams { env with auth := auth } peer.mesh params).map fun (mesh, n) =>
    ({ peer with
      auth := auth || params.auth == some true
      mesh := mesh }, n)

/-- `cfg80211_check_station_change`, for a mesh peer. -/
def checkStationChange (userMpm : Bool) (params : StationParams) : Bool :=
  if userMpm then params.plinkAction != .actionOpen else params.plinkState.isNone

/-! ### Frames -/

/-- A peering frame. -/
structure PlinkMgmt where
  da : Mac
  sa : Mac
  action : PeeringAction
  elems : MeshElems

/-- `get_unaligned_le16`. -/
def unalignedLe16 (ie : List UInt8) (offset : ℕ) : UInt16 :=
  (ie.getD offset 0).toUInt16 ||| (ie.getD (offset + 1) 0).toUInt16 <<< 8

/-- What `mesh_process_plink_frame` takes from a frame, unless it drops it. -/
def plinkFrame? (secNone : Bool) (mgmt : PlinkMgmt) : Option PlinkFrame :=
  match mgmt.elems.peering with
  | none => none
  | some ie =>
    if mgmt.elems.rsnLen ≠ 0 && secNone then none
    else if mgmt.action = .peeringOpen ∧ ie.length ≠ 4 ∨ mgmt.action = .peeringConfirm ∧ ie.length ≠ 6 ∨
        mgmt.action = .peeringClose ∧ ie.length ≠ 6 ∧ ie.length ≠ 8 then none
    else if mgmt.action ≠ .peeringClose ∧
        (mgmt.elems.meshId.isNone ∨ mgmt.elems.meshConfig.isNone) then none
    else some {
      action := mgmt.action
      llid := unalignedLe16 ie 2
      plid := if mgmt.action = .peeringConfirm ∨ mgmt.action = .peeringClose ∧ ie.length = 8 then
        some (unalignedLe16 ie 4) else none }

/-- The event of a frame for a record, if `mesh_plink_fsm` gets to see it. -/
def meshFrameEvent (env : PlinkEnv) (sta : MeshSta) (frame : PlinkFrame) : PlinkEvent :=
  if frame.action = .peeringOpen ∧ !env.rssi then .plinkUndefined
  else meshPlinkGetEvent env (some sta) frame (frame.plid.getD 0) frame.llid

/-- An Open or Confirm brought a link further: from where it was, with this configuration. -/
structure PlinkAdvance where
  addr : Mac
  state : PlinkState
  /-- `mesh_matches_local`. -/
  matchesLocal : Bool
  /-- `estab_plinks`, before. -/
  estabPlinks : ℤ
  maxPeerLinks : UInt16

/-- The states on the way to a link. -/
def PlinkState.advanced : PlinkState → Bool
  | opnRcvd | cnfRcvd | estab => true
  | _ => false

/-- `mesh_rx_plink_frame`. -/
def meshRxPlinkFrame (s : PlinkIf) (env : PlinkEnv) (mgmt : PlinkMgmt) :
    Option (PlinkIf × List PlinkAdvance) :=
  if s.cfg.profile.meshId = [] ∨ s.userMpm then some (s, [])
  else if isMulticastEtherAddr mgmt.da then some (s, [])
  else
    match plinkFrame? s.cfg.secNone mgmt with
    | none => some (s, [])
    | some frame =>
      let env := s.callEnv env mgmt.sa mgmt.elems
      let old := (s.staInfoGet mgmt.sa).map MeshPeer.mesh
      let n := (old.map fun sta => meshPlinkFsmEstab sta (meshFrameEvent env sta frame)).getD 0
      (meshProcessPlinkFrame env old frame).map fun (sta, _, _) =>
        ((s.store mgmt.sa sta).addEstab n,
          match sta with
          | none => []
          | some sta =>
            if sta.plinkState.advanced && old.map MeshSta.plinkState != some sta.plinkState then [{
              addr := mgmt.sa
              state := sta.plinkState
              matchesLocal := meshMatchesLocal s.cfg.profile mgmt.elems
              estabPlinks := s.estabPlinks
              maxPeerLinks := s.cfg.maxPeerLinks }]
            else [])

/-- `ieee80211_mesh_rx_bcn_presp`. -/
def meshRxBeacon (s : PlinkIf) (env : PlinkEnv) (sa : Mac) (elems : MeshElems) : Option PlinkIf :=
  if s.cfg.profile.meshId = [] then some s
  else if elems.meshId.isNone ∨ elems.meshConfig.isNone ∨ decide (elems.rsnLen ≠ 0) = s.cfg.secNone then some s
  else if !meshMatchesLocal s.cfg.profile elems then some s
  else
    (meshNeighbourUpdate (s.callEnv env sa elems) ((s.staInfoGet sa).map MeshPeer.mesh)).map
      fun (sta, _, _) => s.store sa sta

/-! ### Everything that happens -/

/-- `mesh_sta_cleanup`, of a station that is removed. -/
def meshStaCleanup (s : PlinkIf) (addr : Mac) : PlinkIf :=
  match s.staInfoGet addr with
  | none => s
  | some peer =>
    { s with peers := s.peers.filter fun p => p.addr ≠ addr }.addEstab
      (meshPlinkDeactivateLocked peer.mesh).2

/-- `sta_info_flush`. -/
def staInfoFlush (s : PlinkIf) : PlinkIf := (s.peers.map MeshPeer.addr).foldl meshStaCleanup s

/-- `ieee80211_add_station`. A new record does not have `WLAN_STA_AUTH` yet, and no `plink_state` is set. -/
def addStation (s : PlinkIf) (env : PlinkEnv) (addr : Mac) (params : StationParams) : Option PlinkIf :=
  (staApplyParameters env {
      addr := addr
      auth := false } { params with plinkState := none }).map fun (peer, n) =>
    if (s.staInfoGet addr).isSome || !env.alloc then s
    else { s with peers := s.peers ++ [peer] }.addEstab n

/-- `ieee80211_change_station`. -/
def changeStation (s : PlinkIf) (env : PlinkEnv) (addr : Mac) (params : StationParams) : Option PlinkIf :=
  match s.staInfoGet addr with
  | none => some s
  | some peer =>
    if !checkStationChange s.userMpm params then some s
    else (staApplyParameters (s.callEnv env addr {}) peer params).map fun (peer, n) =>
      (s.putPeer peer).addEstab n

/-- What happens at an interface. -/
inductive PlinkIfEvent
  | join (userMpm : Bool) (cfg : PlinkCfg)
  | leave
  /-- `ieee80211_update_mesh_config`, and a switch of channels. -/
  | updateConfig (cfg : PlinkCfg)
  | addStation (env : PlinkEnv) (addr : Mac) (params : StationParams)
  | changeStation (env : PlinkEnv) (addr : Mac) (params : StationParams)
  /-- One station, or all of them. -/
  | delStation (addr : Option Mac)
  | beacon (env : PlinkEnv) (sa : Mac) (elems : MeshElems)
  | frame (env : PlinkEnv) (mgmt : PlinkMgmt)
  /-- `mesh_plink_timer`. -/
  | timer (addr : Mac)

/-- One event. -/
def plinkIfStep (s : PlinkIf) : PlinkIfEvent → Option (PlinkIf × List PlinkAdvance)
  | .join userMpm cfg => some ({ s with
      userMpm := userMpm
      cfg := cfg }, [])
  | .leave =>
    let s := staInfoFlush s
    some ({ s with cfg := { s.cfg with profile := { s.cfg.profile with meshId := [] } } }, [])
  | .updateConfig cfg => some ({ s with cfg := cfg }, [])
  | .addStation env addr params => (addStation s env addr params).map fun s => (s, [])
  | .changeStation env addr params => (changeStation s env addr params).map fun s => (s, [])
  | .delStation none => some (staInfoFlush s, [])
  | .delStation (some addr) => some (meshStaCleanup s addr, [])
  | .beacon env sa elems => (meshRxBeacon s env sa elems).map fun s => (s, [])
  | .frame env mgmt => meshRxPlinkFrame s env mgmt
  | .timer addr =>
    match s.staInfoGet addr with
    | none => none
    | some peer => some (s.putPeer { peer with mesh := (meshPlinkTimer s.cfg.maxRetries peer.mesh).1 }, [])

/-! ### What a frame does to a record -/

/-- A frame leaves the record alone, or the state machine takes it, with another `plid` perhaps, or it
makes a new record. -/
inductive FrameMove (env : PlinkEnv) (old : Option MeshSta) (frame : PlinkFrame) : Option MeshSta → Prop
  | same (hevent : ∀ sta, old = some sta → meshFrameEvent env sta frame = .plinkUndefined) :
      FrameMove env old frame old
  | known {sta sta' : MeshSta} {plid : UInt16} {frames : List PlinkFrame} {drawn : List UInt16}
      (hold : old = some sta)
      (hfsm : meshPlinkFsm env { sta with plid := plid } (meshFrameEvent env sta frame) =
        some (sta', frames, drawn)) :
      FrameMove env old frame (some sta')
  | new {sta' : MeshSta} {plid : UInt16} {frames : List PlinkFrame} {drawn : List UInt16}
      (hold : old = none)
      (hevent : meshPlinkGetEvent env none frame (frame.plid.getD 0) frame.llid = .opnAcpt)
      (hfsm : meshPlinkFsm env { plid := plid } .opnAcpt = some (sta', frames, drawn)) :
      FrameMove env old frame (some sta')

theorem meshProcessPlinkFrame_move {env : PlinkEnv} {old new : Option MeshSta} {frame : PlinkFrame}
    {frames : List PlinkFrame} {drawn : List UInt16}
    (h : meshProcessPlinkFrame env old frame = some (new, frames, drawn)) :
    FrameMove env old frame new := by
  rw [meshProcessPlinkFrame] at h
  dsimp only at h
  by_cases hrssi : frame.action = .peeringOpen ∧ !env.rssi
  · rw [if_pos hrssi] at h
    cases h
    exact .same fun sta _ => if_pos hrssi
  · rw [if_neg hrssi] at h
    have hframe : ∀ sta, meshFrameEvent env sta frame =
        meshPlinkGetEvent env (some sta) frame (frame.plid.getD 0) frame.llid := fun sta => if_neg hrssi
    cases old with
    | none =>
      cases hevent : meshPlinkGetEvent env none frame (frame.plid.getD 0) frame.llid with
      | opnAcpt =>
        rw [hevent] at h
        by_cases halloc : env.alloc = true
        · obtain ⟨⟨sta', frames', drawn'⟩, hfsm, heq⟩ := Option.map_eq_some_iff.1 ((if_pos halloc).symm.trans h)
          cases heq
          exact .new rfl hevent hfsm
        · cases (if_neg halloc).symm.trans h
          exact .same fun _ hsta => nomatch hsta
      | _ =>
        rw [hevent] at h
        cases h
        exact .same fun _ hsta => nomatch hsta
    | some sta =>
      -- the `plid` that the state machine finds
      have hrun : ∀ plid : UInt16, ((meshPlinkFsm env { sta with plid := plid }
          (meshFrameEvent env sta frame)).map fun (sta, frames, drawn) => (some sta, frames, drawn)) =
            some (new, frames, drawn) → FrameMove env (some sta) frame new := by
        intro plid hfsm
        obtain ⟨⟨sta', frames', drawn'⟩, hfsm, heq⟩ := Option.map_eq_some_iff.1 hfsm
        cases heq
        exact .known rfl hfsm
      rw [← hframe] at h
      cases hevent : meshFrameEvent env sta frame with
      | plinkUndefined =>
        rw [hevent] at h
        cases h
        exact .same fun _ hsta => Option.some.inj hsta ▸ hevent
      | cnfAcpt =>
        rw [hevent] at h hrun
        dsimp only at h
        by_cases hplid : sta.plid = 0
        · rw [if_pos hplid] at h
          exact hrun _ h
        · rw [if_neg hplid] at h
          exact hrun sta.plid h
      | opnAcpt =>
        rw [hevent] at h hrun
        exact hrun _ h
      | _ =>
        rw [hevent] at h hrun
        exact hrun sta.plid h

end Mac80211
