import Mathlib.Data.UInt
import Mac80211.Lib.Reach

/-!
# Mesh peering

`mesh_plink.c`, with the peering in the kernel: two mesh stations, each with a record for the other,
and the frames between them. A frame that was sent may arrive any number of times, at any time
later, or never; timers run whenever they like. The receiver's `plid` is the sender's `llid`.

## Main definitions

* `MeshSta`, `PlinkFrame`, `meshPlinkFsm`
-/

namespace Mac80211

/-- `enum nl80211_plink_state`. -/
inductive PlinkState
  | listen
  | opnSnt
  | opnRcvd
  | cnfRcvd
  | estab
  | holding
  | blocked
deriving DecidableEq

/-- `enum plink_event`. -/
inductive PlinkEvent
  | plinkUndefined
  | opnAcpt
  | opnRjct
  | opnIgnr
  | cnfAcpt
  | cnfRjct
  | cnfIgnr
  | clsAcpt
  | clsIgnr
deriving DecidableEq

/-- `enum ieee80211_self_protected_actioncode`, the peering actions. -/
inductive PeeringAction
  | peeringOpen
  | peeringConfirm
  | peeringClose
deriving DecidableEq

/-- `struct mesh_sta`, as far as peering goes. -/
structure MeshSta where
  plinkState : PlinkState := .listen
  llid : UInt16 := 0
  plid : UInt16 := 0
  reason : ℕ := 0
  plinkRetries : ℕ := 0
deriving DecidableEq

/-- A peering frame: what its peering element says. -/
structure PlinkFrame where
  /-- `action_code`. -/
  action : PeeringAction
  /-- The sender's link ID. -/
  llid : UInt16
  /-- The receiver's link ID, if it is there. -/
  plid : Option UInt16
  reason : ℕ := 0
deriving DecidableEq

/-- `WLAN_REASON_MESH_PEER_CANCELED`. -/
def reasonMeshPeerCanceled : ℕ := 52

/-- `WLAN_REASON_MESH_CONFIG`. -/
def reasonMeshConfig : ℕ := 54

/-- `WLAN_REASON_MESH_CLOSE`. -/
def reasonMeshClose : ℕ := 55

/-- `WLAN_REASON_MESH_MAX_RETRIES`. -/
def reasonMeshMaxRetries : ℕ := 56

/-- `WLAN_REASON_MESH_CONFIRM_TIMEOUT`. -/
def reasonMeshConfirmTimeout : ℕ := 57

/-- `mesh_plink_frame_tx`. -/
def meshPlinkFrameTx (action : PeeringAction) (llid plid : UInt16) (reason : ℕ) : PlinkFrame :=
  match action with
  | .peeringOpen => { action := action, llid := llid, plid := none }
  | .peeringConfirm => { action := action, llid := llid, plid := some plid }
  | .peeringClose =>
    { action := action, llid := llid, plid := if plid ≠ 0 then some plid else none, reason := reason }

/-- What happens around one call. -/
structure PlinkEnv where
  /-- `mesh_matches_local`. -/
  matchesLocal : Bool := true
  /-- `mesh_plink_free_count` is not 0. -/
  free : Bool := true
  /-- `WLAN_STA_AUTH`. -/
  auth : Bool := true
  /-- `rssi_threshold_check`. -/
  rssi : Bool := true
  /-- There is memory for a new record, and room for it. -/
  alloc : Bool := true
  /-- `mesh_peer_accepts_plinks`, `accepting_plinks` and `auto_open_plinks`. -/
  autoOpen : Bool := true
  /-- The link IDs of the records for other stations. -/
  inUse : List UInt16 := []
  /-- What `get_random_bytes` gives. -/
  random : List UInt16 := []

/-! ### The state machine -/

/-- `mesh_get_new_llid`: random numbers until one is not in use. -/
def meshGetNewLlid (env : PlinkEnv) (sta : MeshSta) : Option UInt16 :=
  env.random.find? fun llid => llid ∉ sta.llid :: env.inUse

/-- `mesh_plink_fsm_restart`. -/
def meshPlinkFsmRestart (sta : MeshSta) : MeshSta :=
  { sta with
    plinkState := .listen
    llid := 0
    plid := 0
    reason := 0
    plinkRetries := 0 }

/-- `mesh_plink_close`. -/
def meshPlinkClose (sta : MeshSta) (event : PlinkEvent) : MeshSta :=
  { sta with
    reason := if event = .clsAcpt then reasonMeshClose else reasonMeshConfig
    plinkState := .holding }

/-- The switch of `mesh_plink_fsm`: the record after, what to send, and the link ID that was drawn. -/
def meshPlinkFsm' (env : PlinkEnv) (sta : MeshSta) (event : PlinkEvent) :
    Option (MeshSta × Option PeeringAction × List UInt16) :=
  match sta.plinkState, event with
  | .listen, .clsAcpt => some (meshPlinkFsmRestart sta, none, [])
  | .listen, .opnAcpt =>
    (meshGetNewLlid env sta).map fun llid =>
      ({ sta with plinkState := .opnRcvd, llid := llid }, some .peeringOpen, [llid])
  | .opnSnt, .opnRjct | .opnSnt, .cnfRjct | .opnSnt, .clsAcpt =>
    some (meshPlinkClose sta event, some .peeringClose, [])
  | .opnSnt, .opnAcpt => some ({ sta with plinkState := .opnRcvd }, some .peeringConfirm, [])
  | .opnSnt, .cnfAcpt => some ({ sta with plinkState := .cnfRcvd }, none, [])
  | .opnRcvd, .opnRjct | .opnRcvd, .cnfRjct | .opnRcvd, .clsAcpt =>
    some (meshPlinkClose sta event, some .peeringClose, [])
  | .opnRcvd, .opnAcpt => some (sta, some .peeringConfirm, [])
  | .opnRcvd, .cnfAcpt => some ({ sta with plinkState := .estab }, none, [])
  | .cnfRcvd, .opnRjct | .cnfRcvd, .cnfRjct | .cnfRcvd, .clsAcpt =>
    some (meshPlinkClose sta event, some .peeringClose, [])
  | .cnfRcvd, .opnAcpt => some ({ sta with plinkState := .estab }, some .peeringConfirm, [])
  | .estab, .clsAcpt => some (meshPlinkClose sta event, some .peeringClose, [])
  | .estab, .opnAcpt => some (sta, some .peeringConfirm, [])
  | .holding, .clsAcpt => some (meshPlinkFsmRestart sta, none, [])
  | .holding, .opnAcpt | .holding, .cnfAcpt | .holding, .opnRjct | .holding, .cnfRjct =>
    some (sta, some .peeringClose, [])
  | _, _ => some (sta, none, [])

/-- The frames `mesh_plink_fsm` sends for an action. -/
def meshPlinkFrames (sta : MeshSta) : Option PeeringAction → List PlinkFrame
  | none => []
  | some .peeringOpen =>
    [meshPlinkFrameTx .peeringOpen sta.llid sta.plid sta.reason,
      meshPlinkFrameTx .peeringConfirm sta.llid sta.plid 0]
  | some action => [meshPlinkFrameTx action sta.llid sta.plid sta.reason]

/-- `mesh_plink_fsm`: the record after, the frames sent, and the link ID that was drawn. -/
def meshPlinkFsm (env : PlinkEnv) (sta : MeshSta) (event : PlinkEvent) :
    Option (MeshSta × List PlinkFrame × List UInt16) :=
  (meshPlinkFsm' env sta event).map fun (sta, action, drawn) =>
    (sta, meshPlinkFrames sta action, drawn)

/-- `mesh_plink_get_event`. -/
def meshPlinkGetEvent (env : PlinkEnv) (sta : Option MeshSta) (frame : PlinkFrame)
    (llid plid : UInt16) : PlinkEvent :=
  let matchesLocal := frame.action = .peeringClose || env.matchesLocal
  match sta with
  | none =>
    if !matchesLocal then .opnRjct
    else if frame.action ≠ .peeringOpen then .plinkUndefined
    else if !env.free then .plinkUndefined
    else .opnAcpt
  | some sta =>
    if !env.auth then .plinkUndefined
    else if sta.plinkState = .blocked then .plinkUndefined
    else
      match frame.action with
      -- what does not match is rejected first, and then ignored or accepted all the same
      | .peeringOpen =>
        if !env.free || (sta.plid ≠ 0 && sta.plid ≠ plid) then .opnIgnr else .opnAcpt
      | .peeringConfirm =>
        if !env.free || sta.llid ≠ llid || (sta.plid ≠ 0 && sta.plid ≠ plid) then .cnfIgnr
        else .cnfAcpt
      | .peeringClose =>
        if sta.plinkState = .estab then .clsAcpt
        else if sta.plid ≠ plid then .clsIgnr
        else if frame.plid.isSome && sta.llid ≠ llid then .clsIgnr
        else .clsAcpt

/-- `mesh_process_plink_frame`: the record after, the frames sent, and the link ID that was drawn. -/
def meshProcessPlinkFrame (env : PlinkEnv) (sta : Option MeshSta) (frame : PlinkFrame) :
    Option (Option MeshSta × List PlinkFrame × List UInt16) :=
  -- the llid in the frame is the plid from the point of view of this host
  let plid := frame.llid
  let llid := frame.plid.getD 0
  if frame.action = .peeringOpen ∧ !env.rssi then some (sta, [], [])
  else
    let run (sta : MeshSta) (event : PlinkEvent) :=
      (meshPlinkFsm env sta event).map fun (sta, frames, drawn) => (some sta, frames, drawn)
    match meshPlinkGetEvent env sta frame llid plid, sta with
    | .opnAcpt, some sta => run { sta with plid := plid } .opnAcpt
    | .opnAcpt, none => if env.alloc then run { plid := plid } .opnAcpt else some (none, [], [])
    | .opnRjct, none =>
      some (none, [meshPlinkFrameTx .peeringClose 0 plid reasonMeshConfig], [])
    | _, none => some (none, [], [])
    | .plinkUndefined, some sta => some (some sta, [], [])
    | .cnfAcpt, some sta => run (if sta.plid = 0 then { sta with plid := plid } else sta) .cnfAcpt
    | event, some sta => run sta event

/-! ### What happens without a frame -/

/-- `mesh_plink_timer`. -/
def meshPlinkTimer (maxRetries : ℕ) (sta : MeshSta) : MeshSta × List PlinkFrame :=
  match sta.plinkState with
  | .opnRcvd | .opnSnt =>
    if sta.plinkRetries < maxRetries then
      ({ sta with plinkRetries := sta.plinkRetries + 1 },
        [meshPlinkFrameTx .peeringOpen sta.llid sta.plid 0])
    else
      ({ sta with plinkState := .holding },
        [meshPlinkFrameTx .peeringClose sta.llid sta.plid reasonMeshMaxRetries])
  | .cnfRcvd =>
    ({ sta with plinkState := .holding },
      [meshPlinkFrameTx .peeringClose sta.llid sta.plid reasonMeshConfirmTimeout])
  | .holding => (meshPlinkFsmRestart sta, [])
  | _ => (sta, [])

/-- `mesh_plink_open`: the link ID is drawn before the state is looked at. -/
def meshPlinkOpen (env : PlinkEnv) (sta : MeshSta) : Option (MeshSta × List PlinkFrame × List UInt16) :=
  if !env.auth then some (sta, [], [])
  else (meshGetNewLlid env sta).map fun llid =>
    let sta := { sta with llid := llid }
    if sta.plinkState ≠ .listen ∧ sta.plinkState ≠ .blocked then (sta, [], [llid])
    else ({ sta with plinkState := .opnSnt }, [meshPlinkFrameTx .peeringOpen llid 0 0], [llid])

/-- `mesh_neighbour_update`, from a beacon. -/
def meshNeighbourUpdate (env : PlinkEnv) (sta : Option MeshSta) :
    Option (Option MeshSta × List PlinkFrame × List UInt16) :=
  if sta.isNone && !env.alloc then some (none, [], [])
  else
    let sta := sta.getD {}
    if sta.plinkState = .listen && env.autoOpen && env.rssi then
      (meshPlinkOpen env sta).map fun (sta, frames, drawn) => (some sta, frames, drawn)
    else some (some sta, [], [])

/-- `mesh_plink_deactivate`, when the record goes. -/
def meshPlinkDeactivate (sta : MeshSta) : List PlinkFrame :=
  [meshPlinkFrameTx .peeringClose sta.llid sta.plid reasonMeshPeerCanceled]

/-! ### Two stations -/

/-- One of the two stations. -/
inductive MeshNode
  | a
  | b
deriving DecidableEq

/-- The other station. -/
def MeshNode.peer : MeshNode → MeshNode
  | .a => .b
  | .b => .a

@[simp] theorem MeshNode.peer_peer : ∀ p : MeshNode, p.peer.peer = p
  | .a => rfl
  | .b => rfl

theorem MeshNode.peer_ne : ∀ p : MeshNode, p.peer ≠ p
  | .a => by decide
  | .b => by decide

theorem MeshNode.eq_or_eq_peer (p q : MeshNode) : q = p ∨ q = p.peer := by
  cases p <;> cases q <;> decide

/-- Two stations, each with its record for the other, and what was sent. -/
structure MeshPair where
  /-- The record each has for the other, if there is one. -/
  sta : MeshNode → Option MeshSta := fun _ => none
  /-- What was sent and may arrive, with its sender. -/
  air : List (MeshNode × PlinkFrame) := []

/-- What happens at one of the stations. -/
inductive MeshEvent
  /-- A beacon of the other is heard. -/
  | neighbour (env : PlinkEnv)
  /-- A frame of the other arrives. -/
  | receive (env : PlinkEnv) (frame : PlinkFrame)
  /-- `plink_timer` runs. -/
  | timer
  | destroy

/-- What a station does with its record: the record after, the frames sent, and the link ID drawn. -/
def meshHandle (maxRetries : ℕ) (sta : Option MeshSta) :
    MeshEvent → Option (Option MeshSta × List PlinkFrame × List UInt16)
  | .neighbour env => meshNeighbourUpdate env sta
  | .receive env frame => meshProcessPlinkFrame env sta frame
  | .timer =>
    match sta with
    | none => none
    | some sta =>
      let (sta, frames) := meshPlinkTimer maxRetries sta
      some (some sta, frames, [])
  | .destroy =>
    match sta with
    | none => none
    | some sta => some (none, meshPlinkDeactivate sta, [])

/-- The frame an event is about was sent by the other station. -/
def MeshEvent.sentBy (air : List (MeshNode × PlinkFrame)) (p : MeshNode) : MeshEvent → Prop
  | .receive _ frame => (p, frame) ∈ air
  | _ => True

instance (air : List (MeshNode × PlinkFrame)) (p : MeshNode) : DecidablePred (MeshEvent.sentBy air p)
  | .receive _ frame => inferInstanceAs (Decidable ((p, frame) ∈ air))
  | .neighbour _ => instDecidableTrue
  | .timer => instDecidableTrue
  | .destroy => instDecidableTrue

/-- One event at one station. A link ID that is drawn is emitted. -/
def meshStep (maxRetries : ℕ) (s : MeshPair) (e : MeshNode × MeshEvent) :
    Option (MeshPair × List (MeshNode × UInt16)) :=
  if e.2.sentBy s.air e.1.peer then
    (meshHandle maxRetries (s.sta e.1) e.2).map fun (sta, frames, drawn) =>
      ({ sta := Function.update s.sta e.1 sta
         air := s.air ++ frames.map (Prod.mk e.1) },
        drawn.map (Prod.mk e.1))
  else none

end Mac80211
