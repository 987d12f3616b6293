import Mac80211.State

/-!
# Mesh paths

`mesh_pathtbl.c`: a table of paths and one of proxy entries, each with a hash table, a list to walk
over, and a list of known gates. Paths live at addresses; one that has been freed stays where it
was, read by nobody. The number of paths `mpaths` is a field of the interface.

## Main definitions

* `MeshIf`, `MeshTbl`
-/

namespace Mac80211

def ENXIO : ℤ := 6
def ENOSPC : ℤ := 28

/-- `MESH_MAX_MPATHS`. -/
def meshMaxMpaths : ℤ := 1024

/-- `MESH_FRAME_QUEUE_LEN`. -/
def meshFrameQueueLen : ℕ := 10

/-- `enum mesh_path_flags`. -/
structure MeshPathFlags where
  active : Bool := false
  resolving : Bool := false
  snValid : Bool := false
  fixed : Bool := false
  resolved : Bool := false
  reqQueued : Bool := false
  deleted : Bool := false

/-- A `struct sk_buff` on the way into the mesh. -/
structure MeshSkb where
  /-- What tells one frame from another; a copy is a copy of the same frame. -/
  uid : ℕ
  /-- The frame, with the mesh header and what follows it in `rest`. -/
  hdr : Hdr
  /-- `info->control.vif` is set. -/
  vif : Bool := true
  hwQueue : ℕ := 0
deriving DecidableEq

/-- `struct mesh_path`. -/
structure MeshPath where
  dst : Mac
  mpp : Mac
  nextHop : Option ℕ := none
  frameQueue : List MeshSkb := []
  sn : UInt32 := 0
  metric : UInt32 := 0
  hopCount : UInt8 := 0
  expTime : UInt64
  flags : MeshPathFlags := {}
  isGate : Bool := false
  pathChangeCount : UInt32 := 0

/-- `struct mesh_table`. -/
structure MeshTable where
  knownGates : List ℕ := []
  /-- What is in the hash table. -/
  rhead : List ℕ := []
  walkHead : List ℕ := []
  entries : ℤ := 0

/-- The two tables of an interface. -/
inductive MeshTbl
  | meshPaths
  | mppPaths
deriving DecidableEq

/-- A mesh interface, as far as paths go. -/
structure MeshIf where
  addr : Mac
  path : ℕ → MeshPath
  /-- The next address `kzalloc` gives out. -/
  nextPath : ℕ := 0
  tbl : MeshTbl → MeshTable := fun _ => {}
  mpaths : ℤ := 0
  numGates : ℤ := 0
  meshPathsGeneration : ℕ := 0
  mppPathsGeneration : ℕ := 0
  droppedFramesNoRoute : ℕ := 0
  pending : ℕ → List MeshSkb := fun _ => []

namespace MeshIf

/-- Write to a path. -/
def updPath (s : MeshIf) (p : ℕ) (f : MeshPath → MeshPath) : MeshIf :=
  { s with path := Function.update s.path p (f (s.path p)) }

/-- Write to a table. -/
def updTbl (s : MeshIf) (t : MeshTbl) (f : MeshTable → MeshTable) : MeshIf :=
  { s with tbl := Function.update s.tbl t (f (s.tbl t)) }

@[simp] theorem path_updPath (s : MeshIf) (p : ℕ) (f : MeshPath → MeshPath) :
    (s.updPath p f).path p = f (s.path p) := by
  simp [updPath]

theorem path_updPath_of_ne (s : MeshIf) {p q : ℕ} (h : q ≠ p) (f : MeshPath → MeshPath) :
    (s.updPath p f).path q = s.path q := by
  simp [updPath, h]

@[simp] theorem tbl_updPath (s : MeshIf) (p : ℕ) (f : MeshPath → MeshPath) :
    (s.updPath p f).tbl = s.tbl := rfl

@[simp] theorem path_updTbl (s : MeshIf) (t : MeshTbl) (f : MeshTable → MeshTable) :
    (s.updTbl t f).path = s.path := rfl

@[simp] theorem tbl_updTbl (s : MeshIf) (t : MeshTbl) (f : MeshTable → MeshTable) :
    (s.updTbl t f).tbl t = f (s.tbl t) := by
  simp [updTbl]

@[simp] theorem addr_updPath (s : MeshIf) (p : ℕ) (f : MeshPath → MeshPath) :
    (s.updPath p f).addr = s.addr := rfl

@[simp] theorem mpaths_updPath (s : MeshIf) (p : ℕ) (f : MeshPath → MeshPath) :
    (s.updPath p f).mpaths = s.mpaths := rfl

@[simp] theorem mpaths_updTbl (s : MeshIf) (t : MeshTbl) (f : MeshTable → MeshTable) :
    (s.updTbl t f).mpaths = s.mpaths := rfl

@[simp] theorem numGates_updPath (s : MeshIf) (p : ℕ) (f : MeshPath → MeshPath) :
    (s.updPath p f).numGates = s.numGates := rfl

@[simp] theorem numGates_updTbl (s : MeshIf) (t : MeshTbl) (f : MeshTable → MeshTable) :
    (s.updTbl t f).numGates = s.numGates := rfl

@[simp] theorem nextPath_updPath (s : MeshIf) (p : ℕ) (f : MeshPath → MeshPath) :
    (s.updPath p f).nextPath = s.nextPath := rfl

@[simp] theorem nextPath_updTbl (s : MeshIf) (t : MeshTbl) (f : MeshTable → MeshTable) :
    (s.updTbl t f).nextPath = s.nextPath := rfl

theorem tbl_updTbl_of_ne (s : MeshIf) {t t' : MeshTbl} (h : t' ≠ t) (f : MeshTable → MeshTable) :
    (s.updTbl t f).tbl t' = s.tbl t' := by
  simp [updTbl, h]

end MeshIf

/-! ### Looking up -/

/-- `mpath_expired`. -/
def mpathExpired (jiffies : UInt64) (mpath : MeshPath) : Bool :=
  mpath.flags.active && timeAfter jiffies mpath.expTime && !mpath.flags.fixed

/-- `rhashtable_lookup`. -/
def rhashtableLookup (s : MeshIf) (t : MeshTbl) (dst : Mac) : Option ℕ :=
  (s.tbl t).rhead.find? fun p => (s.path p).dst == dst

/-- `mpath_lookup`: a path found expired is not active any more. -/
def mpathLookup (jiffies : UInt64) (s : MeshIf) (t : MeshTbl) (dst : Mac) : Option ℕ × MeshIf :=
  match rhashtableLookup s t dst with
  | none => (none, s)
  | some p =>
    if mpathExpired jiffies (s.path p) then
      (some p, s.updPath p fun m => { m with flags := { m.flags with active := false } })
    else (some p, s)

/-- `mesh_path_lookup`. -/
def meshPathLookup (jiffies : UInt64) (s : MeshIf) (dst : Mac) : Option ℕ × MeshIf :=
  mpathLookup jiffies s .meshPaths dst

/-- `mpp_path_lookup`. -/
def mppPathLookup (jiffies : UInt64) (s : MeshIf) (dst : Mac) : Option ℕ × MeshIf :=
  mpathLookup jiffies s .mppPaths dst

/-! ### Gates -/

/-- `mesh_path_add_gate`. -/
def meshPathAddGate (s : MeshIf) (p : ℕ) : ℤ × MeshIf :=
  if (s.path p).isGate then (-EEXIST, s)
  else
    let s := s.updPath p fun m => { m with isGate := true }
    let s := { s with numGates := s.numGates + 1 }
    (0, s.updTbl .meshPaths fun tbl => { tbl with knownGates := p :: tbl.knownGates })

/-- `mesh_gate_del`. -/
def meshGateDel (s : MeshIf) (t : MeshTbl) (p : ℕ) : MeshIf :=
  if !(s.path p).isGate then s
  else
    let s := s.updPath p fun m => { m with isGate := false }
    let s := s.updTbl t fun tbl => { tbl with knownGates := tbl.knownGates.erase p }
    { s with numGates := s.numGates - 1 }

/-! ### Adding -/

/-- `mesh_path_new`. -/
def meshPathNew (jiffies : UInt64) (s : MeshIf) (dst : Mac) : ℕ × MeshIf :=
  let mpath : MeshPath := {
    dst := dst
    mpp := Vector.replicate 6 0
    expTime := jiffies }
  (s.nextPath, { s with
    path := Function.update s.path s.nextPath mpath
    nextPath := s.nextPath + 1 })

/-- A new path goes into the hash table and to the head of the list. -/
def linkPath (s : MeshIf) (t : MeshTbl) (p : ℕ) : MeshIf :=
  s.updTbl t fun tbl => { tbl with
    rhead := p :: tbl.rhead
    walkHead := p :: tbl.walkHead }

/-- `mesh_path_add`. `kzalloc` is what the allocation does, `insertErr` the error with which the hash
table refuses a new element. -/
def meshPathAdd (jiffies : UInt64) (kzalloc : Bool) (insertErr : Option ℤ) (s : MeshIf) (dst : Mac) :
    Except ℤ ℕ × MeshIf :=
  if dst = s.addr then (.error (-ENOTSUPP), s)
  else if isMulticastEtherAddr dst then (.error (-ENOTSUPP), s)
  -- `atomic_add_unless`
  else if s.mpaths = meshMaxMpaths then (.error (-ENOSPC), s)
  else
    let s := { s with mpaths := s.mpaths + 1 }
    if !kzalloc then (.error (-ENOMEM), s)
    else
      let (new, s) := meshPathNew jiffies s dst
      match rhashtableLookup s .meshPaths dst with
      | some p => (.ok p, { s with meshPathsGeneration := s.meshPathsGeneration + 1 })
      | none =>
        match insertErr with
        | some err => (.error err, s)
        | none =>
          let s := linkPath s .meshPaths new
          (.ok new, { s with meshPathsGeneration := s.meshPathsGeneration + 1 })

/-- `mpp_path_add`. -/
def mppPathAdd (jiffies : UInt64) (kzalloc : Bool) (insertErr : Option ℤ) (s : MeshIf) (dst mpp : Mac) :
    ℤ × MeshIf :=
  if dst = s.addr then (-ENOTSUPP, s)
  else if isMulticastEtherAddr dst then (-ENOTSUPP, s)
  else if !kzalloc then (-ENOMEM, s)
  else
    let (new, s) := meshPathNew jiffies s dst
    let s := s.updPath new fun m => { m with mpp := mpp }
    let gen := s.mppPathsGeneration + 1
    match rhashtableLookup s .mppPaths dst with
    | some _ => (-EEXIST, { s with mppPathsGeneration := gen })
    | none =>
      match insertErr with
      | some err => (err, { s with mppPathsGeneration := gen })
      | none => (0, { linkPath s .mppPaths new with mppPathsGeneration := gen })

/-! ### Freeing -/

/-- `mesh_path_flush_pending`: every frame of the queue is discarded. -/
def meshPathFlushPending (s : MeshIf) (p : ℕ) : MeshIf :=
  { s.updPath p (fun m => { m with frameQueue := [] }) with
    droppedFramesNoRoute := s.droppedFramesNoRoute + (s.path p).frameQueue.length }

/-- `mesh_path_free_rcu`. -/
def meshPathFreeRcu (s : MeshIf) (t : MeshTbl) (p : ℕ) : MeshIf :=
  let s := s.updPath p fun m => { m with flags := { m.flags with
    resolving := true
    deleted := true } }
  let s := meshGateDel s t p
  let s := { s with mpaths := s.mpaths - 1 }
  let s := s.updTbl t fun tbl => { tbl with entries := tbl.entries - 1 }
  meshPathFlushPending s p

/-- `__mesh_path_del`. -/
def meshPathDelEntry (s : MeshIf) (t : MeshTbl) (p : ℕ) : MeshIf :=
  let s := s.updTbl t fun tbl => { tbl with
    walkHead := tbl.walkHead.erase p
    rhead := tbl.rhead.erase p }
  meshPathFreeRcu s t p

/-- `hlist_for_each_entry_safe` over a table, deleting the paths that meet a condition. -/
def walkDel (s : MeshIf) (t : MeshTbl) (cond : MeshPath → Bool) : MeshIf :=
  (s.tbl t).walkHead.foldl (fun s p => if cond (s.path p) then meshPathDelEntry s t p else s) s

/-- `mesh_path_flush_by_nexthop`. -/
def meshPathFlushByNexthop (s : MeshIf) (sta : ℕ) : MeshIf :=
  walkDel s .meshPaths fun mpath => mpath.nextHop == some sta

/-- `mpp_flush_by_proxy`. -/
def mppFlushByProxy (s : MeshIf) (proxy : Mac) : MeshIf :=
  walkDel s .mppPaths fun mpath => mpath.mpp == proxy

/-- `table_flush_by_iface`. -/
def tableFlushByIface (s : MeshIf) (t : MeshTbl) : MeshIf := walkDel s t fun _ => true

/-- `mesh_path_flush_by_iface`. -/
def meshPathFlushByIface (s : MeshIf) : MeshIf :=
  tableFlushByIface (tableFlushByIface s .meshPaths) .mppPaths

/-- `table_path_del`. -/
def tablePathDel (s : MeshIf) (t : MeshTbl) (addr : Mac) : ℤ × MeshIf :=
  match rhashtableLookup s t addr with
  | none => (- ENXIO, s)
  | some p => (0, meshPathDelEntry s t p)

/-- `mesh_path_del`. -/
def meshPathDel (s : MeshIf) (addr : Mac) : ℤ × MeshIf :=
  let s := mppFlushByProxy s addr
  let (err, s) := tablePathDel s .meshPaths addr
  (err, { s with meshPathsGeneration := s.meshPathsGeneration + 1 })

/-- The condition of `mesh_path_tbl_expire`; `MESH_PATH_EXPIRE` is 600 seconds. -/
def pathExpires (jiffies hz : UInt64) (mpath : MeshPath) : Bool :=
  !mpath.flags.resolving && !mpath.flags.fixed && timeAfter jiffies (mpath.expTime + 600 * hz)

/-- `mesh_path_tbl_expire`. -/
def meshPathTblExpire (jiffies hz : UInt64) (s : MeshIf) (t : MeshTbl) : MeshIf :=
  walkDel s t (pathExpires jiffies hz)

/-- `mesh_path_expire`. -/
def meshPathExpire (jiffies hz : UInt64) (s : MeshIf) : MeshIf :=
  meshPathTblExpire jiffies hz (meshPathTblExpire jiffies hz s .meshPaths) .mppPaths

/-- `mesh_pathtbl_init`. -/
def meshPathtblInit (addr : Mac) : MeshIf where
  addr := addr
  path _ := {
    dst := addr
    mpp := addr
    expTime := 0 }

end Mac80211
