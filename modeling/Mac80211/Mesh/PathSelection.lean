import Mac80211.Mesh.Gates
import Mac80211.Mesh.LinkMetric
import Mac80211.Mesh.PathAccounting

/-!
# Path preference

`hwmp_route_info_get` of `mesh_hwmp.c`: a path is replaced if the sequence number is newer, or the
same with a smaller metric; to change the next hop, ten ninths of the new metric have to be smaller.
`mult_frac` computes these in a `u32`, where they do not fit from 3865470567 on.

## Main results

* `preferenceKept_iff` — when no path is replaced by a worse one
-/

namespace Mac80211

/-! ### The source -/

/-- `enum nl80211_mesh_power_mode`. -/
inductive MeshPowerMode
  | unknown
  | active
  | lightSleep
  | deepSleep
deriving DecidableEq

/-- A neighbour, as far as path selection goes. -/
structure MeshNeighbour where
  addr : Mac
  link : MeshLink
  localPm : MeshPowerMode

/-- A mesh interface and its neighbours. -/
structure HwmpState where
  mif : MeshIf
  sta : ℕ → MeshNeighbour
  nonpeerPm : MeshPowerMode
  psPeersDeepSleep : ℕ

/-- `enum mpath_frame_type`. -/
inductive MpathFrameType
  | preq
  | prep
  | perr
  | rann
deriving DecidableEq

/-- What the function depends on beside the frame. -/
structure HwmpEnv where
  jiffies : UInt64
  usecsToJiffies : UInt32 → UInt64
  staInfoGet : Mac → Option ℕ
  /-- Whether the allocation of a path to an address succeeds. -/
  kzalloc : Mac → Bool
  /-- The error with which the hash table refuses one. -/
  insertErr : Mac → Option ℤ

/-- `SN_GT`: sequence numbers wrap around. -/
def snGt (x y : UInt32) : Bool := 2 ^ 31 ≤ (y - x).toNat

/-- `SN_DELTA`. -/
def snDelta (x y : UInt32) : UInt32 := if x ≥ y then x - y else y - x

/-- `mult_frac`, in the type of its operand. -/
def multFrac (x numer denom : UInt32) : UInt32 := x / denom * numer + x % denom * numer / denom

/-- `u32_field_get`. -/
def u32FieldGet (ie : List UInt8) (offset : ℕ) (ae : Bool) : UInt32 :=
  let offset := if ae then offset + 6 else offset
  (ie.getD offset 0).toUInt32 ||| (ie.getD (offset + 1) 0).toUInt32 <<< 8 |||
    (ie.getD (offset + 2) 0).toUInt32 <<< 16 ||| (ie.getD (offset + 3) 0).toUInt32 <<< 24

/-- An address in an element. -/
def ieAddr (ie : List UInt8) (offset : ℕ) : Mac := Vector.ofFn fun i => ie.getD (offset + i) 0

/-- `AE_F_SET`. -/
def aeFSet (ie : List UInt8) : Bool := ie.getD 0 0 &&& 0x40 != 0

/-- What is taken from an element about the station it comes from. -/
structure OrigInfo where
  addr : Mac
  sn : UInt32
  lifetime : UInt32
  metric : UInt32
  hopcount : UInt8
deriving DecidableEq

/-- The `PREQ_IE_…` and `PREP_IE_…` macros. -/
def origInfo (ie : List UInt8) : MpathFrameType → Option OrigInfo
  | .preq => some {
      addr := ieAddr ie 7
      sn := u32FieldGet ie 13 false
      lifetime := u32FieldGet ie 17 (aeFSet ie)
      metric := u32FieldGet ie 21 (aeFSet ie)
      hopcount := ie.getD 1 0 + 1 }
  | .prep => some {
      addr := ieAddr ie 3
      sn := u32FieldGet ie 9 false
      lifetime := u32FieldGet ie 13 (aeFSet ie)
      metric := u32FieldGet ie 17 (aeFSet ie)
      hopcount := ie.getD 1 0 + 1 }
  | _ => none

/-- `ieee80211_mps_set_frame_flags`, for a given station. -/
def mpsSetFrameFlags (st : HwmpState) (sta : ℕ) (hdr : Hdr) : Hdr :=
  let unicast := !isMulticastEtherAddr hdr.addr1
  let pm := if unicast && isDataQos hdr.frameControl && (st.sta sta).link.plinkState == .estab then
    (st.sta sta).localPm else st.nonpeerPm
  let hdr := { hdr with
    frameControl := if pm = .active then hdr.frameControl &&& ~~~FCTL_PM else hdr.frameControl ||| FCTL_PM }
  if !isDataQos hdr.frameControl then hdr
  else
    let i := (if hasA4 hdr.frameControl then 6 else 0) + 1
    let level := (unicast && pm == .deepSleep) || (!unicast && decide (0 < st.psPeersDeepSleep))
    { hdr with rest := hdr.rest.set i (if level then hdr.byte i ||| 0x02 else hdr.byte i &&& ~~~0x02) }

/-- `mesh_path_assign_nexthop`. -/
def meshPathAssignNexthop (st : HwmpState) (p sta : ℕ) : HwmpState :=
  { st with mif := st.mif.updPath p fun m => { m with
      nextHop := some sta
      frameQueue := m.frameQueue.map fun skb => { skb with
        hdr := mpsSetFrameFlags st sta { skb.hdr with
          addr1 := (st.sta sta).addr
          addr2 := st.mif.addr } } } }

/-- `mesh_path_activate`. -/
def meshPathActivate (m : MeshPath) : MeshPath :=
  { m with flags := { m.flags with
      active := true
      resolved := true } }

/-- What is done to a path for fresh information, with a sequence number (first half of the
function) or without (second). -/
def hwmpUpdate (st : HwmpState) (p sta : ℕ) (sn : Option UInt32) (metric : UInt32) (hopCount : UInt8)
    (expTime : UInt64) : HwmpState :=
  let st := if (st.mif.path p).nextHop ≠ some sta then
    { st with mif := st.mif.updPath p fun m => { m with pathChangeCount := m.pathChangeCount + 1 } }
    else st
  let st := meshPathAssignNexthop st p sta
  let mif := st.mif.updPath p fun m => meshPathActivate { m with
    flags := { m.flags with snValid := m.flags.snValid || sn.isSome }
    metric := metric
    sn := sn.getD m.sn
    expTime := if timeAfter m.expTime expTime then m.expTime else expTime
    hopCount := hopCount }
  let sta' := { st.sta sta with link := { (st.sta sta).link with failAvg := 1 } }
  { st with
    sta := Function.update st.sta sta sta'
    mif := (meshPathTxPending { mif := mif } p).mif }

/-- What to do about the path to the originator: `process`, and `fresh_info`. -/
def origDecision (m : MeshPath) (sta : ℕ) (origSn newMetric : UInt32) : Bool × Bool :=
  if m.flags.fixed then (true, false)
  else if m.flags.active && m.flags.snValid then
    if snGt m.sn origSn || m.sn == origSn &&
        decide ((if m.nextHop ≠ some sta then multFrac newMetric 10 9 else newMetric) ≥ m.metric) then
      (false, false)
    else (true, true)
  else if !m.flags.active then
    let haveSn := m.flags.snValid
    let newerSn := haveSn && snGt origSn m.sn
    let bounced := haveSn && decide (snDelta origSn m.sn > 32)
    if !haveSn || newerSn then (true, true)
    else if bounced then (true, true)
    else (false, false)
  else (true, true)

/-- The path to a station, or a new one, and whether it is new. -/
def pathFor (E : HwmpEnv) (mif : MeshIf) (addr : Mac) : Except ℤ (ℕ × Bool) × MeshIf :=
  match meshPathLookup E.jiffies mif addr with
  | (some p, mif) => (.ok (p, false), mif)
  | (none, mif) =>
    match meshPathAdd E.jiffies (E.kzalloc addr) (E.insertErr addr) mif addr with
    | (.ok p, mif) => (.ok (p, true), mif)
    | (.error err, mif) => (.error err, mif)

/-- The first half of `hwmp_route_info_get`: the path to the originator. Whether to go on with the frame;
nothing if there is no path. -/
def hwmpOrig (E : HwmpEnv) (st : HwmpState) (sta : ℕ) (info : OrigInfo) (newMetric : UInt32)
    (expTime : UInt64) : Option Bool × HwmpState :=
  if info.addr = st.mif.addr then (some false, st)
  else
    match pathFor E st.mif info.addr with
    | (.error _, mif) => (none, { st with mif := mif })
    | (.ok (p, new), mif) =>
      let st := { st with mif := mif }
      let decision := if new then (true, true) else origDecision (mif.path p) sta info.sn newMetric
      (some decision.1, if decision.2 then
        hwmpUpdate st p sta (some info.sn) newMetric info.hopcount expTime else st)

/-- The second half: the path to the transmitter. False if there is none. -/
def hwmpTransmitter (E : HwmpEnv) (st : HwmpState) (sta : ℕ) (info : OrigInfo) (ta : Mac)
    (lastHopMetric : UInt32) (expTime : UInt64) : Bool × HwmpState :=
  if info.addr = ta then (true, st)
  else
    match pathFor E st.mif ta with
    | (.error _, mif) => (false, { st with mif := mif })
    | (.ok (p, new), mif) =>
      let st := { st with mif := mif }
      let m := mif.path p
      let fresh := new || !(m.flags.fixed || m.flags.active &&
        decide ((if m.nextHop ≠ some sta then multFrac lastHopMetric 10 9 else lastHopMetric) > m.metric))
      (true, if fresh then hwmpUpdate st p sta none lastHopMetric 1 expTime else st)

/-- `new_metric`. -/
def newMetric (origMetric lastHopMetric : UInt32) : UInt32 :=
  if origMetric + lastHopMetric < origMetric then MAX_METRIC else origMetric + lastHopMetric

/-- `hwmp_route_info_get`, for a frame from `ta` with this element. -/
def hwmpRouteInfoGet (E : HwmpEnv) (st : HwmpState) (ta : Mac) (ie : List UInt8)
    (action : MpathFrameType) : UInt32 × HwmpState :=
  match E.staInfoGet ta with
  | none => (0, st)
  | some sta =>
    -- the metric never divides by 0
    let lastHopMetric := (airtimeLinkMetricGet (st.sta sta).link).getD 0
    match origInfo ie action with
    | none => (0, st)
    | some info =>
      let metric := newMetric info.metric lastHopMetric
      let expTime := E.jiffies + E.usecsToJiffies (info.lifetime * 1024)
      match hwmpOrig E st sta info metric expTime with
      | (none, st) => (0, st)
      | (some process, st) =>
        match hwmpTransmitter E st sta info ta lastHopMetric expTime with
        | (false, st) => (0, st)
        | (true, st) => (if process then metric else 0, st)

/-! ### Arithmetic -/

theorem toNat_multFrac (x : UInt32) : (multFrac x 10 9).toNat = 10 * x.toNat / 9 % 2 ^ 32 := by
  have h10 : UInt32.toNat 10 = 10 := rfl
  have h9 : UInt32.toNat 9 = 9 := rfl
  have hrem : x.toNat % 9 * 10 % 2 ^ 32 = x.toNat % 9 * 10 := Nat.mod_eq_of_lt (by omega)
  have hexact : 10 * x.toNat / 9 = x.toNat / 9 * 10 + x.toNat % 9 * 10 / 9 := by omega
  rw [multFrac, UInt32.toNat_add, UInt32.toNat_mul, UInt32.toNat_div, UInt32.toNat_div,
    UInt32.toNat_mul, UInt32.toNat_mod, h10, h9, hrem, Nat.mod_add_mod, hexact]

theorem snGt_of_not {x y : UInt32} (hne : x ≠ y) (h : ¬snGt x y = true) : snGt y x = true := by
  have hxy := UInt32.toNat_sub x y
  have hyx := UInt32.toNat_sub y x
  have hx := x.toNat_lt
  have hy := y.toNat_lt
  have hne' : x.toNat ≠ y.toNat := fun heq => hne (UInt32.toNat_inj.mp heq)
  rw [snGt, decide_eq_true_eq] at h ⊢
  omega

theorem snGt_self (x : UInt32) : snGt x x = false := by
  rw [snGt, UInt32.sub_self]
  rfl

/-! ### The path to the originator -/

section Paths

variable {E : HwmpEnv} {st : HwmpState} {mif : MeshIf} {addr : Mac} {p sta : ℕ}

theorem dst_of_lookup {t : MeshTbl} (h : rhashtableLookup mif t addr = some p) :
    (mif.path p).dst = addr := by
  rw [rhashtableLookup] at h
  simpa using List.find?_some h

/-- Adding a path changes no other, and the path given back leads to the address. -/
theorem meshPathAdd_spec (jiffies : UInt64) (kzalloc : Bool) (insertErr : Option ℤ) (mif : MeshIf)
    (addr : Mac) : (∀ q, (meshPathAdd jiffies kzalloc insertErr mif addr).1 = .ok q →
      ((meshPathAdd jiffies kzalloc insertErr mif addr).2.path q).dst = addr) ∧
    ∀ q, q < mif.nextPath → (meshPathAdd jiffies kzalloc insertErr mif addr).2.path q = mif.path q := by
  have hnew : ∀ q, q < mif.nextPath → ∀ n, (meshPathNew jiffies { mif with mpaths := n } addr).2.path q =
      mif.path q := fun q hq n => Function.update_of_ne hq.ne _ _
  rw [meshPathAdd]
  split
  · exact ⟨fun q hq => absurd hq (by simp), fun _ _ => rfl⟩
  · split
    · exact ⟨fun q hq => absurd hq (by simp), fun _ _ => rfl⟩
    · split
      · exact ⟨fun q hq => absurd hq (by simp), fun _ _ => rfl⟩
      · dsimp only
        split
        · exact ⟨fun q hq => absurd hq (by simp), fun _ _ => rfl⟩
        · cases hfound : rhashtableLookup
              (meshPathNew jiffies { mif with mpaths := mif.mpaths + 1 } addr).2 .meshPaths addr with
          | some p =>
            refine ⟨fun q hq => ?_, fun q hq => hnew q hq _⟩
            cases hq
            exact dst_of_lookup hfound
          | none =>
            cases insertErr with
            | some err => exact ⟨fun q hq => absurd hq (by simp), fun q hq => hnew q hq _⟩
            | none =>
              refine ⟨fun q hq => ?_, fun q hq => hnew q hq _⟩
              cases hq
              show ((meshPathNew jiffies { mif with mpaths := mif.mpaths + 1 } addr).2.path
                mif.nextPath).dst = addr
              simp [meshPathNew]

/-- What looking for a path, or adding one, does to paths. -/
structure PathForSpec (mif mif' : MeshIf) (addr : Mac) : Prop where
  dst : ∀ q, q < mif.nextPath → (mif'.path q).dst = (mif.path q).dst
  other : ∀ q, q < mif.nextPath → (mif.path q).dst ≠ addr → mif'.path q = mif.path q

theorem pathFor_spec (E : HwmpEnv) (mif : MeshIf) (addr : Mac) :
    PathForSpec mif (pathFor E mif addr).2 addr ∧
      ∀ q new, (pathFor E mif addr).1 = .ok (q, new) → ((pathFor E mif addr).2.path q).dst = addr := by
  rw [pathFor, meshPathLookup, mpathLookup]
  cases hfound : rhashtableLookup mif .meshPaths addr with
  | none =>
    dsimp only
    obtain ⟨hdst, hpath⟩ := meshPathAdd_spec E.jiffies (E.kzalloc addr) (E.insertErr addr) mif addr
    cases hadd : meshPathAdd E.jiffies (E.kzalloc addr) (E.insertErr addr) mif addr with
    | mk r mif' =>
      rw [hadd] at hdst hpath
      cases r with
      | error err => exact ⟨⟨fun q hq => by rw [hpath q hq], fun q hq _ => hpath q hq⟩,
          fun q new hq => absurd hq (by simp)⟩
      | ok p =>
        refine ⟨⟨fun q hq => by rw [hpath q hq], fun q hq _ => hpath q hq⟩, fun q new hq => ?_⟩
        cases hq
        exact hdst p rfl
  | some p =>
    have hp := dst_of_lookup hfound
    have hother : ∀ q, (mif.path q).dst ≠ addr → q ≠ p := fun q hq hqp => hq (by rw [hqp]; exact hp)
    dsimp only
    by_cases hexp : mpathExpired E.jiffies (mif.path p) = true
    · rw [if_pos hexp]
      dsimp only
      refine ⟨⟨fun q _ => ?_, fun q _ hq => MeshIf.path_updPath_of_ne _ (hother q hq) _⟩, fun q new hq => ?_⟩
      · by_cases hqp : q = p
        · rw [hqp, MeshIf.path_updPath]
        · rw [MeshIf.path_updPath_of_ne _ hqp]
      · cases hq
        rw [MeshIf.path_updPath]
        exact hp
    · rw [if_neg hexp]
      refine ⟨⟨fun _ _ => rfl, fun _ _ _ => rfl⟩, fun q new hq => ?_⟩
      cases hq
      exact hp

/-- What the update of a path does. -/
structure UpdateSpec (st st' : HwmpState) (p sta : ℕ) (sn : Option UInt32) (metric : UInt32) : Prop where
  nextHop : (st'.mif.path p).nextHop = some sta
  sn : (st'.mif.path p).sn = sn.getD (st.mif.path p).sn
  metric : (st'.mif.path p).metric = metric
  dst : (st'.mif.path p).dst = (st.mif.path p).dst
  other : ∀ q, q ≠ p → st'.mif.path q = st.mif.path q
  nextPath : st'.mif.nextPath = st.mif.nextPath

theorem path_meshPathTxPending (G : GateState) {p q : ℕ} (h : q ≠ p) :
    (meshPathTxPending G p).mif.path q = G.mif.path q := by
  rw [meshPathTxPending]
  split
  · exact Function.update_of_ne h _ _
  · rfl

theorem path_meshPathTxPending_self (G : GateState) (p : ℕ) :
    ∃ queue, (meshPathTxPending G p).mif.path p = { G.mif.path p with frameQueue := queue } := by
  rw [meshPathTxPending]
  split
  · exact ⟨_, Function.update_self _ _ _⟩
  · exact ⟨_, rfl⟩

theorem nextPath_meshPathTxPending (G : GateState) (p : ℕ) :
    (meshPathTxPending G p).mif.nextPath = G.mif.nextPath := by
  rw [meshPathTxPending]
  split
  · rfl
  · rfl

theorem updateSpec (st : HwmpState) (p sta : ℕ) (sn : Option UInt32) (metric : UInt32)
    (hopCount : UInt8) (expTime : UInt64) :
    UpdateSpec st (hwmpUpdate st p sta sn metric hopCount expTime) p sta sn metric := by
  rw [hwmpUpdate]
  dsimp only
  generalize hcount : (if (st.mif.path p).nextHop ≠ some sta then
    { st with mif := st.mif.updPath p fun m => { m with pathChangeCount := m.pathChangeCount + 1 } }
    else st) = st₁
  have hself : (st₁.mif.path p).sn = (st.mif.path p).sn ∧ (st₁.mif.path p).dst = (st.mif.path p).dst := by
    rw [← hcount]
    split
    · simp
    · exact ⟨rfl, rfl⟩
  have hother : ∀ q, q ≠ p → st₁.mif.path q = st.mif.path q := fun q hq => by
    rw [← hcount]
    split
    · exact Function.update_of_ne hq _ _
    · rfl
  have hnext : st₁.mif.nextPath = st.mif.nextPath := by
    rw [← hcount]
    split
    · rfl
    · rfl
  generalize hmif : (MeshIf.updPath (meshPathAssignNexthop st₁ p sta).mif p _) = mif
  obtain ⟨queue, hqueue⟩ := path_meshPathTxPending_self { mif := mif } p
  refine ⟨?_, ?_, ?_, ?_, fun q hq => ?_, ?_⟩
  · rw [hqueue, ← hmif]
    simp [meshPathActivate, meshPathAssignNexthop]
  · rw [hqueue, ← hmif]
    simp [meshPathActivate, meshPathAssignNexthop, hself.1]
  · rw [hqueue, ← hmif]
    simp [meshPathActivate, meshPathAssignNexthop]
  · rw [hqueue, ← hmif]
    simp [meshPathActivate, meshPathAssignNexthop, hself.2]
  · rw [path_meshPathTxPending _ hq, ← hmif, meshPathAssignNexthop, MeshIf.path_updPath_of_ne _ hq,
      MeshIf.path_updPath_of_ne _ hq, hother q hq]
  · rw [nextPath_meshPathTxPending, ← hmif]
    exact hnext

theorem path_hwmpTransmitter {info : OrigInfo} {ta : Mac} {lastHopMetric : UInt32} {expTime : UInt64}
    (hlt : p < st.mif.nextPath) (hdst : (st.mif.path p).dst = info.addr) :
    (hwmpTransmitter E st sta info ta lastHopMetric expTime).2.mif.path p = st.mif.path p := by
  rw [hwmpTransmitter]
  split
  · rfl
  · rename_i hta
    have hne : (st.mif.path p).dst ≠ ta := fun h => hta (hdst.symm.trans h)
    obtain ⟨⟨hdst', hother⟩, hfound⟩ := pathFor_spec E st.mif ta
    cases hpath : pathFor E st.mif ta with
    | mk r mif =>
      rw [hpath] at hdst' hother hfound
      cases r with
      | error err => exact hother p hlt hne
      | ok found =>
        obtain ⟨q, new⟩ := found
        have hqp : p ≠ q := fun h => hne (by rw [← hdst' p hlt, h, hfound q new rfl])
        dsimp only
        generalize (new || !_) = fresh
        cases fresh with
        | true =>
          have hu := updateSpec { st with mif := mif } q sta none lastHopMetric 1 expTime
          exact (hu.other p hqp).trans (hother p hlt hne)
        | false => exact hother p hlt hne

end Paths

/-! ### Offers -/

/-- A request or reply from another station to which there is a path: it is active when it is looked up,
has a sequence number, and is not fixed. -/
structure Offer (E : HwmpEnv) (st : HwmpState) (ta : Mac) (ie : List UInt8) (action : MpathFrameType)
    (p sta : ℕ) (info : OrigInfo) : Prop where
  inv : MeshTablesInv st.mif
  known : E.staInfoGet ta = some sta
  carries : origInfo ie action = some info
  notOurs : info.addr ≠ st.mif.addr
  found : (meshPathLookup E.jiffies st.mif info.addr).1 = some p
  active : ((meshPathLookup E.jiffies st.mif info.addr).2.path p).flags.active = true
  snValid : (st.mif.path p).flags.snValid = true
  notFixed : (st.mif.path p).flags.fixed = false

/-- `last_hop_metric`. -/
def lastHopMetric (st : HwmpState) (sta : ℕ) : UInt32 :=
  (airtimeLinkMetricGet (st.sta sta).link).getD 0

section Offers

variable {E : HwmpEnv} {st : HwmpState} {ta : Mac} {ie : List UInt8} {action : MpathFrameType}
  {p sta : ℕ} {info : OrigInfo}

namespace Offer

theorem lookup_eq (h : Offer E st ta ie action p sta info) :
    rhashtableLookup st.mif .meshPaths info.addr = some p := by
  have hfound := h.found
  rw [meshPathLookup, mpathLookup] at hfound
  cases hr : rhashtableLookup st.mif .meshPaths info.addr with
  | none =>
    rw [hr] at hfound
    exact absurd hfound (by simp)
  | some q =>
    rw [hr] at hfound
    dsimp only at hfound
    split at hfound
    · exact hfound
    · exact hfound

/-- A path that is active after it has been looked up had not expired. -/
theorem not_expired (h : Offer E st ta ie action p sta info) :
    ¬mpathExpired E.jiffies (st.mif.path p) = true := by
  intro hexp
  have hactive := h.active
  rw [meshPathLookup, mpathLookup, h.lookup_eq] at hactive
  dsimp only at hactive
  rw [if_pos hexp, MeshIf.path_updPath] at hactive
  exact absurd hactive (by simp)

theorem meshPathLookup_eq (h : Offer E st ta ie action p sta info) :
    meshPathLookup E.jiffies st.mif info.addr = (some p, st.mif) := by
  rw [meshPathLookup, mpathLookup, h.lookup_eq]
  dsimp only
  rw [if_neg h.not_expired]

theorem path_active (h : Offer E st ta ie action p sta info) :
    (st.mif.path p).flags.active = true := by
  have hactive := h.active
  rwa [h.meshPathLookup_eq] at hactive

theorem hwmpOrig_eq (h : Offer E st ta ie action p sta info) (metric : UInt32) (expTime : UInt64) :
    hwmpOrig E st sta info metric expTime =
      (some (origDecision (st.mif.path p) sta info.sn metric).1,
        if (origDecision (st.mif.path p) sta info.sn metric).2 then
          hwmpUpdate st p sta (some info.sn) metric info.hopcount expTime else st) := by
  have hpath : pathFor E st.mif info.addr = (.ok (p, false), st.mif) := by
    rw [pathFor, h.meshPathLookup_eq]
  rw [hwmpOrig, if_neg h.notOurs, hpath]
  rfl

/-- The path to the originator afterwards: what the frame offers if the decision is for it, and as it was
otherwise. -/
theorem path_eq (h : Offer E st ta ie action p sta info) :
    if (origDecision (st.mif.path p) sta info.sn (newMetric info.metric (lastHopMetric st sta))).2 then
      ((hwmpRouteInfoGet E st ta ie action).2.mif.path p).nextHop = some sta ∧
      ((hwmpRouteInfoGet E st ta ie action).2.mif.path p).sn = info.sn ∧
      ((hwmpRouteInfoGet E st ta ie action).2.mif.path p).metric =
        newMetric info.metric (lastHopMetric st sta)
    else (hwmpRouteInfoGet E st ta ie action).2.mif.path p = st.mif.path p := by
  have hlt : p < st.mif.nextPath := h.inv.lt _ p (h.inv.mem_of_lookup h.lookup_eq)
  have hdst : (st.mif.path p).dst = info.addr := dst_of_lookup h.lookup_eq
  -- whatever becomes of the second half, its state is what is left
  have hwhole : ∃ metric expTime, metric = newMetric info.metric (lastHopMetric st sta) ∧
      (hwmpRouteInfoGet E st ta ie action).2 =
        (hwmpTransmitter E (hwmpOrig E st sta info metric expTime).2 sta info ta (lastHopMetric st sta)
          expTime).2 := by
    refine ⟨_, E.jiffies + E.usecsToJiffies (info.lifetime * 1024), rfl, ?_⟩
    rw [hwmpRouteInfoGet, h.known, h.carries]
    dsimp only
    rw [← lastHopMetric, h.hwmpOrig_eq]
    dsimp only
    generalize hwmpTransmitter E _ sta info ta (lastHopMetric st sta) _ = r
    obtain ⟨b, st'⟩ := r
    cases b
    · rfl
    · rfl
  obtain ⟨metric, expTime, hmetric, hst⟩ := hwhole
  rw [hst, h.hwmpOrig_eq, ← hmetric]
  dsimp only
  split
  · have hu := updateSpec st p sta (some info.sn) metric info.hopcount expTime
    rw [path_hwmpTransmitter (by rw [hu.nextPath]; exact hlt) (hu.dst.trans hdst)]
    exact ⟨hu.nextHop, hu.sn, hu.metric⟩
  · exact path_hwmpTransmitter hlt hdst

end Offer

/-! ### The preference -/

/-- What the frame offers: the metric it carries and that of the last hop. -/
def offeredMetric (st : HwmpState) (sta : ℕ) (info : OrigInfo) : ℕ :=
  (newMetric info.metric (lastHopMetric st sta)).toNat

/-- The path is not the one it was. -/
def Replaced (m m' : MeshPath) : Prop :=
  ¬(m'.nextHop = m.nextHop ∧ m'.sn = m.sn ∧ m'.metric = m.metric)

/-- The path is replaced only by newer information, or as new with a smaller metric; and its next
hop changes only if ten ninths of the metric are smaller. -/
def PreferenceKept (E : HwmpEnv) (st : HwmpState) (ta : Mac) (ie : List UInt8) (action : MpathFrameType)
    (p sta : ℕ) (info : OrigInfo) : Prop :=
  Replaced (st.mif.path p) ((hwmpRouteInfoGet E st ta ie action).2.mif.path p) →
    snGt info.sn (st.mif.path p).sn = true ∨
    info.sn = (st.mif.path p).sn ∧
      offeredMetric st sta info < (st.mif.path p).metric.toNat ∧
      ((st.mif.path p).nextHop ≠ some sta →
        10 * offeredMetric st sta info < 9 * (st.mif.path p).metric.toNat)

/-- The offer would change the next hop, ten ninths of its metric do not fit into 32 bits, and what
is left of them is smaller than the metric of the path. -/
def HysteresisWraps (st : HwmpState) (p sta : ℕ) (info : OrigInfo) : Prop :=
  info.sn = (st.mif.path p).sn ∧ (st.mif.path p).nextHop ≠ some sta ∧
    2 ^ 32 ≤ 10 * offeredMetric st sta info / 9 ∧
    10 * offeredMetric st sta info / 9 - 2 ^ 32 < (st.mif.path p).metric.toNat

/-- The decision about an active path with a sequence number: newer, or as new with a smaller
metric, given what is put on it for another next hop. -/
theorem origDecision_eq {m : MeshPath} {sta : ℕ} {sn metric : UInt32} (hactive : m.flags.active = true)
    (hsn : m.flags.snValid = true) (hfixed : m.flags.fixed = false) :
    (origDecision m sta sn metric).2 = true ↔ ¬snGt m.sn sn = true ∧ (m.sn = sn →
      (if m.nextHop ≠ some sta then 10 * metric.toNat / 9 % 2 ^ 32 else metric.toNat) < m.metric.toNat) := by
  have hoffer : (if m.nextHop ≠ some sta then multFrac metric 10 9 else metric).toNat =
      if m.nextHop ≠ some sta then 10 * metric.toNat / 9 % 2 ^ 32 else metric.toNat := by
    split
    · exact toNat_multFrac metric
    · rfl
  rw [origDecision, hactive, hsn, hfixed, ← hoffer]
  generalize (if m.nextHop ≠ some sta then multFrac metric 10 9 else metric) = x
  rw [← UInt32.lt_iff_toNat_lt, if_neg (by decide), if_pos (by decide)]
  by_cases hgt : snGt m.sn sn = true
  · simp [hgt]
  · by_cases heq : m.sn = sn
    · by_cases hle : x ≥ m.metric
      · simp [heq, hle, snGt_self, UInt32.not_lt.mpr hle]
      · simp [heq, hle, snGt_self, UInt32.not_le.mp hle]
    · simp [hgt, heq]

theorem tenNinths_mod {n : ℕ} (hn : n < 2 ^ 32) :
    10 * n / 9 % 2 ^ 32 = if 2 ^ 32 ≤ 10 * n / 9 then 10 * n / 9 - 2 ^ 32 else 10 * n / 9 := by
  split
  · omega
  · omega

theorem Offer.taken_of_wraps (h : Offer E st ta ie action p sta info)
    (hwraps : HysteresisWraps st p sta info) :
    (origDecision (st.mif.path p) sta info.sn (newMetric info.metric (lastHopMetric st sta))).2 = true := by
  obtain ⟨hsn, hnext, hbig, hsmall⟩ := hwraps
  refine (origDecision_eq h.path_active h.snValid h.notFixed).mpr ⟨?_, fun _ => ?_⟩
  · rw [hsn, snGt_self]
    exact Bool.false_ne_true
  · rw [if_pos hnext, tenNinths_mod (UInt32.toNat_lt _)]
    exact (if_pos hbig).trans_lt hsmall

/-- **The preference is respected, except where ten ninths of the metric wrap around.** -/
theorem preferenceKept_iff (h : Offer E st ta ie action p sta info) :
    PreferenceKept E st ta ie action p sta info ↔ ¬HysteresisWraps st p sta info := by
  have hpath := h.path_eq
  have hlt : offeredMetric st sta info < 2 ^ 32 := UInt32.toNat_lt _
  have hmetric : (st.mif.path p).metric.toNat < 2 ^ 32 := UInt32.toNat_lt _
  constructor
  · intro hkept hwraps
    rw [if_pos (h.taken_of_wraps hwraps)] at hpath
    obtain ⟨hsn, hnext, hbig, -⟩ := hwraps
    have hreplaced : Replaced (st.mif.path p) ((hwmpRouteInfoGet E st ta ie action).2.mif.path p) :=
      fun hsame => hnext (hsame.1.symm.trans hpath.1)
    rcases hkept hreplaced with hnewer | ⟨-, -, hten⟩
    · rw [hsn, snGt_self] at hnewer
      exact Bool.false_ne_true hnewer
    · have hlow := hten hnext
      omega
  · intro hfits hreplaced
    by_cases hd : (origDecision (st.mif.path p) sta info.sn
        (newMetric info.metric (lastHopMetric st sta))).2 = true
    · obtain ⟨hnotOlder, hsmaller⟩ := (origDecision_eq h.path_active h.snValid h.notFixed).mp hd
      by_cases hsn : (st.mif.path p).sn = info.sn
      · refine .inr ⟨hsn.symm, ?_⟩
        have hlow := hsmaller hsn
        by_cases hnext : (st.mif.path p).nextHop = some sta
        · rw [if_neg (not_not.mpr hnext)] at hlow
          exact ⟨hlow, fun hne => absurd hnext hne⟩
        · rw [if_pos hnext, tenNinths_mod (UInt32.toNat_lt _)] at hlow
          have hsmall : ¬2 ^ 32 ≤ 10 * offeredMetric st sta info / 9 := fun hbig =>
            hfits ⟨hsn.symm, hnext, hbig, ((if_pos hbig).symm.trans_lt hlow)⟩
          have hten : 10 * offeredMetric st sta info / 9 < (st.mif.path p).metric.toNat :=
            (if_neg hsmall).symm.trans_lt hlow
          exact ⟨by omega, fun _ => by omega⟩
      · exact .inl (snGt_of_not hsn hnotOlder)
    · rw [if_neg hd] at hpath
      rw [hpath] at hreplaced
      exact absurd ⟨rfl, rfl, rfl⟩ hreplaced

/-- Path 0 leads to the originator by way of station 0, with metric 1000000000. -/
private def offerState : HwmpState where
  mif := {
    addr := Vector.replicate 6 2
    path := fun _ => {
      dst := Vector.replicate 6 4
      mpp := Vector.replicate 6 0
      nextHop := some 0
      sn := 7
      metric := 1000000000
      expTime := 1000
      flags := {
        active := true
        snValid := true } }
    nextPath := 1
    tbl := fun t => if t = .meshPaths then { rhead := [0], walkHead := [0] } else {} }
  sta sta := {
    addr := Vector.replicate 6 (UInt8.ofNat (16 * sta))
    link := {
      plinkState := .estab
      failAvg := 0
      txRateAvg := 540
      expectedThroughput := 0 }
    localPm := .active }
  nonpeerPm := .active
  psPeersDeepSleep := 0

/-- Station 1 is the transmitter; path 1 is new. -/
private def offerEnv : HwmpEnv where
  jiffies := 100
  usecsToJiffies usecs := usecs.toUInt64 / 4000
  staInfoGet addr := if addr = Vector.replicate 6 16 then some 1 else none
  kzalloc _ := true
  insertErr _ := none

/-- A path request with sequence number 7 and this byte four times for its metric. -/
private def offerPreq (metric : UInt8) : List UInt8 :=
  [0, 0, 31] ++ List.replicate 4 1 ++ List.replicate 6 4 ++ [7, 0, 0, 0] ++ List.replicate 4 0 ++
    List.replicate 4 metric

private theorem offer_of_preq (b : UInt8) (info : OrigInfo)
    (hinfo : origInfo (offerPreq b) .preq = some info) (haddr : info.addr = Vector.replicate 6 4) :
    Offer offerEnv offerState (Vector.replicate 6 16) (offerPreq b) .preq 0 1 info where
  inv := {
    nodup := fun t => by cases t <;> decide
    rhead := fun t => by cases t <;> rfl
    lt := fun t => by cases t <;> decide
    disjoint := fun p _ => List.not_mem_nil
    gates_nodup := List.nodup_nil
    gates_iff := fun p => ⟨fun hp => absurd hp List.not_mem_nil, fun hp => absurd hp.2 Bool.false_ne_true⟩
    mpp_no_gate := fun p hp => absurd hp List.not_mem_nil
    numGates_eq := rfl
    mpaths_le := by decide }
  known := rfl
  carries := hinfo
  notOurs := by rw [haddr]; decide
  found := by rw [haddr]; decide
  active := by rw [haddr]; decide
  snValid := rfl
  notFixed := rfl

/-- An offer of 16843009 and a last hop. -/
theorem preferenceKept_small : PreferenceKept offerEnv offerState (Vector.replicate 6 16)
    (offerPreq 1) .preq 0 1 {
      addr := Vector.replicate 6 4
      sn := 7
      lifetime := 0
      metric := 16843009
      hopcount := 1 } := by
  refine (preferenceKept_iff (offer_of_preq 1 _ (by decide) rfl)).mpr ?_
  rw [HysteresisWraps]
  decide +kernel

/-- The greatest metric takes the place of 1000000000. -/
theorem preference_wraps :
    Offer offerEnv offerState (Vector.replicate 6 16) (offerPreq 255) .preq 0 1 {
      addr := Vector.replicate 6 4
      sn := 7
      lifetime := 0
      metric := MAX_METRIC
      hopcount := 1 } ∧
    ((hwmpRouteInfoGet offerEnv offerState (Vector.replicate 6 16) (offerPreq 255)
      .preq).2.mif.path 0).metric = MAX_METRIC ∧
    ¬PreferenceKept offerEnv offerState (Vector.replicate 6 16) (offerPreq 255) .preq 0 1 {
      addr := Vector.replicate 6 4
      sn := 7
      lifetime := 0
      metric := MAX_METRIC
      hopcount := 1 } := by
  have hmetric : ((hwmpRouteInfoGet offerEnv offerState (Vector.replicate 6 16)
    (offerPreq 255) .preq).2.mif.path 0).metric = MAX_METRIC := by decide +kernel
  refine ⟨offer_of_preq 255 _ (by decide) rfl, hmetric, fun hkept => ?_⟩
  rcases hkept (fun hsame => absurd (hmetric.symm.trans hsame.2.2) (by decide)) with hnewer | ⟨-, hlow, -⟩
  · exact absurd hnewer (by decide)
  · exact absurd hlow (by decide +kernel)

end Offers

end Mac80211
