import Mac80211.Chan.Dfs
import Mac80211.Convert.Ethernet

/-!
# Channel contexts

`net/mac80211/chan.c`: which interface is on which channel. A context lists the interfaces that are
assigned to it and those that have reserved it. One that wants to move reserves a context and tells
when it is ready; a context that was allocated for this replaces another one.

Contexts are numbered as they are allocated; one that was freed is no longer on `chanctx_list`. What
only goes to the driver is left out. The answers of driver and allocator are a `ChanEnv` for each
call.

## Main definitions

* `ChanLocal`, `ChanEnv`, `vifUseReservedSwitch`
-/

namespace Mac80211

/-! ### Compatible channel definitions -/

/-- `cfg80211_chandef_identical`. -/
def chandefIdentical (c1 c2 : ChanDef) : Bool :=
  c1.chan = c2.chan && c1.width = c2.width && c1.centerFreq1 = c2.centerFreq1 &&
    c1.centerFreq2 = c2.centerFreq2

/-- `chandef_primary_freqs`: the centres of the primary 40 MHz and 80 MHz. -/
def chandefPrimaryFreqs (c : ChanDef) : UInt32 × UInt32 :=
  let control := c.chan.getD 0
  match c.width with
  | .w40 => (c.centerFreq1, 0)
  | .w80 | .w80p80 =>
    let n := (30 + control - c.centerFreq1) / 20 / 2
    (c.centerFreq1 - 20 + 40 * n, c.centerFreq1)
  | .w160 =>
    let n := (70 + control - c.centerFreq1) / 20 / 2
    (c.centerFreq1 - 60 + 40 * n, c.centerFreq1 - 40 + 80 * (n / 2))
  | _ => (0, 0)

/-- The place of a width in `enum nl80211_chan_width`. -/
def ChanWidth.rank : ChanWidth → ℕ
  | w20NoHt => 0
  | w20 => 1
  | w40 => 2
  | w80 => 3
  | w80p80 => 4
  | w160 => 5
  | w5 => 6
  | w10 => 7

/-- `cfg80211_chandef_compatible`: the wider of the two, if both fit together. -/
def chandefCompatible (c1 c2 : ChanDef) : Option ChanDef :=
  if chandefIdentical c1 c2 then some c1
  else if c1.chan ≠ c2.chan then none
  else if c1.width = c2.width then none
  else if c1.width = .w5 ∨ c1.width = .w10 ∨ c2.width = .w5 ∨ c2.width = .w10 then none
  else if c1.width = .w20NoHt ∨ c1.width = .w20 then some c2
  else if c2.width = .w20NoHt ∨ c2.width = .w20 then some c1
  else
    let (c1Pri40, c1Pri80) := chandefPrimaryFreqs c1
    let (c2Pri40, c2Pri80) := chandefPrimaryFreqs c2
    if c1Pri40 ≠ c2Pri40 then none
    else if c1Pri80 ≠ 0 ∧ c2Pri80 ≠ 0 ∧ c1Pri80 ≠ c2Pri80 then none
    else if c2.width.rank < c1.width.rank then some c1
    else some c2

/-- The loops that narrow `compat` down by one definition after the other, until nothing is left. -/
def compatAll : List ChanDef → Option ChanDef → Option ChanDef
  | [], compat => compat
  | d :: ds, compat =>
    match chandefCompatible d (compat.getD d) with
    | none => none
    | some compat => compatAll ds (some compat)

/-! ### Contexts and interfaces -/

/-- A pointer to a context. -/
abbrev CtxId := ℕ

/-- A pointer to an interface. -/
abbrev VifId := ℕ

/-- `enum ieee80211_chanctx_mode`. -/
inductive ChanctxMode
  | shared
  | exclusive
deriving DecidableEq

/-- `enum ieee80211_chanctx_replace_state`. -/
inductive ReplaceState
  | replaceNone
  | willBeReplaced
  | replacesOther
deriving DecidableEq

/-- `struct ieee80211_chanctx`. -/
structure Chanctx where
  assignedVifs : List VifId := []
  reservedVifs : List VifId := []
  replaceState : ReplaceState := .replaceNone
  replaceCtx : Option CtxId := none
  mode : ChanctxMode := .shared
  /-- `conf.def`. -/
  confDef : ChanDef

/-- `struct ieee80211_sub_if_data`, as far as channels go. -/
structure ChanVif where
  chanctxConf : Option CtxId := none
  chandef : ChanDef
  reservedChanctx : Option CtxId := none
  reservedChandef : ChanDef
  reservedReady : Bool := false

/-- `struct ieee80211_local`, as far as channels go. -/
structure ChanLocal where
  chanctxList : List CtxId
  /-- The memory of the contexts. -/
  ctx : CtxId → Chanctx
  nextCtx : CtxId
  vif : VifId → ChanVif

/-- What does not change while the device is there. -/
structure ChanHw where
  /-- `use_chanctx`: the driver knows channel contexts. -/
  useChanctx : Bool
  /-- `ops->switch_vif_chanctx` is there. -/
  switchVifChanctx : Bool
  /-- `vif.type`. -/
  iftype : VifId → Nl80211Iftype

/-- `enum ieee80211_chanctx_switch_mode`. -/
inductive ChanctxSwitchMode
  | reassignVif
  | swapContexts
deriving DecidableEq

/-- `struct ieee80211_vif_chanctx_switch`. -/
structure VifChanctxSwitch where
  vif : VifId
  oldCtx : CtxId
  newCtx : CtxId

/-- What a call finds around it. -/
structure ChanEnv (H : ChanHw) where
  interfaces : List VifId
  /-- `ieee80211_sdata_running`. -/
  running : VifId → Bool
  vlans : VifId → List VifId
  /-- Only VLAN interfaces are on such a list. -/
  vlans_type : ∀ v, ∀ w ∈ vlans v, H.iftype w = .apVlan
  /-- The definitions of the TDLS peers that use a wider channel. -/
  tdlsChandefs : List ChanDef
  /-- `cfg80211_chandef_dfs_required`. -/
  dfsRequired : ℤ
  /-- `ieee80211_check_combinations`. -/
  checkCombinations : ℤ
  /-- `ieee80211_max_num_channels`. -/
  maxNumChannels : ℤ
  /-- `kzalloc` has memory for a context. -/
  kzalloc : Bool
  /-- `kcalloc` has memory for the list of a switch. -/
  kcalloc : Bool
  addChanctx : CtxId → ℤ
  /-- `drv_assign_vif_chanctx`. -/
  assignVifChanctx : VifId → CtxId → ℤ
  switchVifChanctx : List VifChanctxSwitch → ChanctxSwitchMode → ℤ

namespace ChanLocal

variable (s : ChanLocal)

/-- Write to a context. -/
def modCtx (c : CtxId) (f : Chanctx → Chanctx) : ChanLocal :=
  { s with ctx := Function.update s.ctx c (f (s.ctx c)) }

/-- Write to an interface. -/
def modVif (v : VifId) (f : ChanVif → ChanVif) : ChanLocal :=
  { s with vif := Function.update s.vif v (f (s.vif v)) }

/-- `list_del(&sdata->assigned_chanctx_list)`: the interface is off whatever list it is on. -/
def delAssigned (v : VifId) : ChanLocal :=
  { s with ctx := fun c => { s.ctx c with assignedVifs := (s.ctx c).assignedVifs.erase v } }

/-- `list_add(&sdata->assigned_chanctx_list, &ctx->assigned_vifs)`. -/
def addAssigned (v : VifId) (c : CtxId) : ChanLocal :=
  s.modCtx c fun x => { x with assignedVifs := v :: x.assignedVifs }

/-- `list_del(&sdata->reserved_chanctx_list)`. -/
def delReserved (v : VifId) : ChanLocal :=
  { s with ctx := fun c => { s.ctx c with reservedVifs := (s.ctx c).reservedVifs.erase v } }

/-- `list_add(&sdata->reserved_chanctx_list, &ctx->reserved_vifs)`. -/
def addReserved (v : VifId) (c : CtxId) : ChanLocal :=
  s.modCtx c fun x => { x with reservedVifs := v :: x.reservedVifs }

/-- `list_del_rcu(&ctx->list)`, and `kfree_rcu(ctx, rcu_head)` after it. -/
def delCtx (c : CtxId) : ChanLocal := { s with chanctxList := s.chanctxList.erase c }

/-- `rcu_assign_pointer(sdata->vif.chanctx_conf, conf)`. -/
def setConf (v : VifId) (conf : Option CtxId) : ChanLocal :=
  s.modVif v fun x => { x with chanctxConf := conf }

/-- `list_del(&sdata->reserved_chanctx_list); sdata->reserved_chanctx = NULL;`. -/
def clearReservation (v : VifId) : ChanLocal :=
  (s.delReserved v).modVif v fun x => { x with reservedChanctx := none }

/-- `ieee80211_chanctx_refcount`. -/
def refcount (c : CtxId) : ℕ := (s.ctx c).assignedVifs.length + (s.ctx c).reservedVifs.length

/-- `ieee80211_chanctx_reserved_chandef`. -/
def reservedChandef (c : CtxId) (compat : Option ChanDef) : Option ChanDef :=
  compatAll ((s.ctx c).reservedVifs.map fun v => (s.vif v).reservedChandef) compat

/-- `ieee80211_chanctx_non_reserved_chandef`. -/
def nonReservedChandef (c : CtxId) (compat : Option ChanDef) : Option ChanDef :=
  compatAll (((s.ctx c).assignedVifs.filter fun v => (s.vif v).reservedChanctx.isNone).map fun v =>
    (s.vif v).chandef) compat

/-- `ieee80211_chanctx_combined_chandef`. -/
def combinedChandef (c : CtxId) (compat : Option ChanDef) : Option ChanDef :=
  (s.reservedChandef c compat).bind fun compat => s.nonReservedChandef c (some compat)

/-- `ieee80211_chanctx_can_reserve_chandef`. -/
def canReserveChandef (c : CtxId) (chandef : ChanDef) : Bool :=
  (s.combinedChandef c (some chandef)).isSome ||
    !(s.ctx c).reservedVifs.isEmpty && (s.reservedChandef c (some chandef)).isSome

/-- `ieee80211_find_reservation_chanctx`. -/
def findReservationChanctx (chandef : ChanDef) (mode : ChanctxMode) : Option CtxId :=
  if mode = .exclusive then none
  else s.chanctxList.find? fun c =>
    (s.ctx c).replaceState ≠ .willBeReplaced && (s.ctx c).mode ≠ .exclusive &&
      s.canReserveChandef c chandef

/-- `ieee80211_change_chanctx`. -/
def changeChanctx (c : CtxId) (chandef : ChanDef) : ChanLocal :=
  if chandefIdentical (s.ctx c).confDef chandef then s
  else s.modCtx c fun x => { x with confDef := chandef }

/-- What `ieee80211_find_chanctx` finds, and the definition it changes it to. -/
def findChanctx (chandef : ChanDef) (mode : ChanctxMode) : Option (CtxId × ChanDef) :=
  if mode = .exclusive then none
  else s.chanctxList.findSome? fun c =>
    if (s.ctx c).replaceState ≠ .replaceNone then none
    else if (s.ctx c).mode = .exclusive then none
    else
      (chandefCompatible (s.ctx c).confDef chandef).bind fun compat =>
        (s.reservedChandef c (some compat)).map fun compat => (c, compat)

/-- `ieee80211_alloc_chanctx`, and `list_add_rcu` after it. -/
def allocChanctx (chandef : ChanDef) (mode : ChanctxMode) : ChanLocal :=
  { s with
    chanctxList := s.nextCtx :: s.chanctxList
    ctx := Function.update s.ctx s.nextCtx { mode, confDef := chandef }
    nextCtx := s.nextCtx + 1 }

/-- `ieee80211_free_chanctx`, where the reference count is zero. -/
def freeUnused (c : CtxId) : ChanLocal := if s.refcount c = 0 then s.delCtx c else s

/-- The end of a replacement: neither replaces, nor is replaced. -/
def unlink (c : CtxId) : ChanLocal :=
  s.modCtx c fun x => { x with replaceCtx := none, replaceState := .replaceNone }

/-- `ieee80211_vif_has_in_place_reservation`. -/
def HasInPlaceReservation (v : VifId) : Prop :=
  ∃ o ∈ (s.vif v).chanctxConf, ∃ n ∈ (s.vif v).reservedChanctx,
    (s.ctx o).replaceState = .willBeReplaced ∧ (s.ctx n).replaceState = .replacesOther
deriving Decidable

end ChanLocal

section Calls

variable {H : ChanHw} (E : ChanEnv H)

/-! ### Assigning -/

/-- `ieee80211_recalc_chanctx_chantype`. -/
def recalcChanctxChantype (s : ChanLocal) (c : CtxId) : ChanLocal :=
  let vifs := E.interfaces.filter fun v =>
    E.running v && (s.vif v).chanctxConf = some c && H.iftype v ≠ .apVlan
  match compatAll (vifs.map fun v => (s.vif v).chandef) none with
  | none => s
  | some compat =>
    match compatAll E.tdlsChandefs (some compat) with
    | none => s
    | some compat => s.changeChanctx c compat

/-- `ieee80211_new_chanctx`: the context is the first one on the list then. -/
def newChanctx (s : ChanLocal) (chandef : ChanDef) (mode : ChanctxMode) : Except ℤ ChanLocal :=
  if !E.kzalloc then .error (-ENOMEM)
  else
    let err := if H.useChanctx then E.addChanctx s.nextCtx else 0
    if err ≠ 0 then .error err else .ok (s.allocChanctx chandef mode)

/-- `ieee80211_assign_vif_chanctx`. -/
def assignVifChanctx (s : ChanLocal) (v : VifId) (newCtx : Option CtxId) : ℤ × ChanLocal :=
  if H.iftype v = .nan then (-ENOTSUPP, s)
  else
    let currCtx := (s.vif v).chanctxConf
    let s := if currCtx.isSome then s.delAssigned v else s
    let (ret, s) := match newCtx with
      | none => (0, s.setConf v none)
      | some c =>
        let ret := E.assignVifChanctx v c
        if ret ≠ 0 then (ret, s.setConf v none) else (0, (s.addAssigned v c).setConf v (some c))
    match currCtx with
    | none => (ret, s)
    | some c => (ret, if (s.ctx c).assignedVifs ≠ [] then recalcChanctxChantype E s c else s)

/-- `__ieee80211_vif_copy_chanctx_to_vlans`, without `clear`. -/
def vifCopyChanctxToVlans (s : ChanLocal) (v : VifId) : ChanLocal :=
  { s with vif := fun w =>
      if w ∈ E.vlans v then { s.vif w with chanctxConf := (s.vif v).chanctxConf } else s.vif w }

/-- `ieee80211_vif_update_chandef`. -/
def vifUpdateChandef (s : ChanLocal) (v : VifId) (chandef : ChanDef) : ChanLocal :=
  { s with vif := fun w =>
      if w = v ∨ H.iftype v = .ap ∧ w ∈ E.vlans v then { s.vif w with chandef } else s.vif w }

/-! ### Reserving -/

/-- `ieee80211_vif_unreserve_chanctx`. -/
def vifUnreserveChanctx (s : ChanLocal) (v : VifId) : ℤ × ChanLocal :=
  match (s.vif v).reservedChanctx with
  | none => (-EINVAL, s)
  | some c =>
    let s := s.clearReservation v
    if s.refcount c = 0 then
      if (s.ctx c).replaceState = .replacesOther then
        match (s.ctx c).replaceCtx with
        | none => (-EINVAL, s)
        | some o => (0, (s.unlink o).delCtx c)
      else (0, s.delCtx c)
    else (0, s)

/-- The context that a new one may replace: that of the interface, or another one. -/
def replaceableCtx (s : ChanLocal) (currCtx : Option CtxId) : Option CtxId :=
  let taken := fun c => (s.ctx c).replaceState = .willBeReplaced ∨ (s.ctx c).reservedVifs ≠ []
  let currCtx :=
    if currCtx.all fun c => decide (taken c) then
      (s.chanctxList.find? fun c =>
        (s.ctx c).replaceState = .replaceNone && (s.ctx c).reservedVifs.isEmpty).or currCtx
    else currCtx
  currCtx.filter fun c => decide ¬taken c

/-- The end of `ieee80211_vif_reserve_chanctx`. -/
def reserve (s : ChanLocal) (v : VifId) (c : CtxId) (chandef : ChanDef) : ChanLocal :=
  (s.addReserved v c).modVif v fun x =>
    { x with reservedChanctx := some c, reservedChandef := chandef, reservedReady := false }

/-- `ieee80211_alloc_chanctx` of a context that replaces another one. -/
def allocReplacement (s : ChanLocal) (currCtx : CtxId) (chandef : ChanDef) (mode : ChanctxMode) :
    ChanLocal :=
  ((s.allocChanctx chandef mode).modCtx s.nextCtx fun x =>
    { x with replaceCtx := some currCtx, replaceState := .replacesOther }).modCtx currCtx fun x =>
      { x with replaceCtx := some s.nextCtx, replaceState := .willBeReplaced }

/-- `ieee80211_vif_reserve_chanctx`. -/
def vifReserveChanctx (s : ChanLocal) (v : VifId) (chandef : ChanDef) (mode : ChanctxMode) :
    ℤ × ChanLocal :=
  let currCtx := (s.vif v).chanctxConf
  if currCtx.isSome ∧ H.useChanctx ∧ !H.switchVifChanctx then (-ENOTSUPP, s)
  else
    match s.findReservationChanctx chandef mode with
    | some c => (0, reserve s v c chandef)
    | none =>
      if (s.chanctxList.length : ℤ) < E.maxNumChannels then
        match newChanctx E s chandef mode with
        | .error err => (err, s)
        | .ok s' => (0, reserve s' v s.nextCtx chandef)
      else
        match replaceableCtx s currCtx with
        | none => (-EBUSY, s)
        | some c =>
          if !E.kzalloc then (-ENOMEM, s)
          else (0, reserve (allocReplacement s c chandef mode) v s.nextCtx chandef)

/-! ### Moving to an existing context -/

/-- `drv_switch_vif_chanctx`. -/
def drvSwitchVifChanctx (vifs : List VifChanctxSwitch) (mode : ChanctxSwitchMode) : ℤ :=
  if !H.switchVifChanctx then -EOPNOTSUPP else E.switchVifChanctx vifs mode

/-- `ieee80211_vif_use_reserved_reassign`. -/
def vifUseReservedReassign (s : ChanLocal) (v : VifId) : ℤ × ChanLocal :=
  if !(s.vif v).reservedReady then (-EBUSY, s)
  else
    match (s.vif v).reservedChanctx, (s.vif v).chanctxConf with
    | none, _ => (-EINVAL, s)
    | some _, none => (-EINVAL, s)
    | some newCtx, some oldCtx =>
      if (s.ctx newCtx).replaceState = .replacesOther then (-EINVAL, s)
      else
        match s.nonReservedChandef newCtx (some (s.vif v).reservedChandef) with
        | none => (-EINVAL, s)
        | some chandef =>
          let s := (s.changeChanctx newCtx chandef).clearReservation v
          let err := drvSwitchVifChanctx E [⟨v, oldCtx, newCtx⟩] .reassignVif
          if err ≠ 0 then (err, s.freeUnused newCtx)
          else
            let s := ((s.delAssigned v).addAssigned v newCtx).setConf v (some newCtx)
            let s := if H.iftype v = .ap then vifCopyChanctxToVlans E s v else s
            let s := s.freeUnused oldCtx
            (0, vifUpdateChandef E s v (s.vif v).reservedChandef)

/-- `ieee80211_vif_use_reserved_assign`. -/
def vifUseReservedAssign (s : ChanLocal) (v : VifId) : ℤ × ChanLocal :=
  if !(s.vif v).reservedReady then (-EINVAL, s)
  else
    match (s.vif v).chanctxConf, (s.vif v).reservedChanctx with
    | some _, _ => (-EINVAL, s)
    | none, none => (-EINVAL, s)
    | none, some newCtx =>
      if (s.ctx newCtx).replaceState = .replacesOther then (-EINVAL, s)
      else
        match s.nonReservedChandef newCtx (some (s.vif v).reservedChandef) with
        | none => (-EINVAL, s)
        | some chandef =>
          let s := (s.changeChanctx newCtx chandef).clearReservation v
          let (err, s) := assignVifChanctx E s v (some newCtx)
          if err ≠ 0 then (err, s.freeUnused newCtx) else (0, s)

/-! ### Replacing contexts -/

/-- What the first loop of `ieee80211_vif_use_reserved_switch` counts. -/
structure SwitchCounts where
  /-- `new_ctx`, which is not set if the driver knows contexts. -/
  newCtx : Option CtxId := none
  nCtx : ℕ := 0
  nVifsSwitch : ℕ := 0
  nVifsAssign : ℕ := 0
  nVifsCtxless : ℕ := 0

/-- How the first loop is left early. -/
inductive SwitchStop
  /-- `return -EAGAIN`. -/
  | again
  /-- `goto err`. -/
  | err (err : ℤ)

/-- The loop over the interfaces that have reserved one context. -/
def countVifs (s : ChanLocal) : List VifId → SwitchCounts → Except SwitchStop SwitchCounts
  | [], n => .ok n
  | v :: vs, n =>
    if s.HasInPlaceReservation v ∧ !(s.vif v).reservedReady then .error .again
    else
      countVifs s vs <|
        match (s.vif v).chanctxConf with
        | some oldCtx =>
          if (s.ctx oldCtx).replaceState = .willBeReplaced then { n with nVifsSwitch := n.nVifsSwitch + 1 }
          else { n with nVifsAssign := n.nVifsAssign + 1 }
        | none => { n with nVifsCtxless := n.nVifsCtxless + 1 }

variable (H) in
/-- The loop over the contexts. -/
def countCtxs (s : ChanLocal) : List CtxId → SwitchCounts → Except SwitchStop SwitchCounts
  | [], n => .ok n
  | c :: cs, n =>
    if (s.ctx c).replaceState ≠ .replacesOther then countCtxs s cs n
    else
      match (s.ctx c).replaceCtx with
      | none => .error (.err (-EINVAL))
      | some o =>
        let assigned := (s.ctx o).assignedVifs
        let reserved := assigned.filter fun v => (s.vif v).reservedChanctx.isSome
        let ready := reserved.filter fun v => (s.vif v).reservedReady
        if assigned.length ≠ reserved.length then
          .error (if ready.length = reserved.length then .err (-EBUSY) else .again)
        else
          let n := { n with newCtx := if H.useChanctx then n.newCtx else some c, nCtx := n.nCtx + 1 }
          match countVifs s (s.ctx c).reservedVifs n with
          | .error e => .error e
          | .ok n => countCtxs s cs n

variable (H) in
/-- The checks of `ieee80211_vif_use_reserved_switch`. -/
def verifySwitch (s : ChanLocal) : Except SwitchStop SwitchCounts :=
  match countCtxs H s s.chanctxList {} with
  | .error e => .error e
  | .ok n =>
    if n.nCtx = 0 ∨ n.nVifsSwitch = 0 ∧ n.nVifsAssign = 0 ∧ n.nVifsCtxless = 0 ∨
        1 < n.nCtx ∧ !H.useChanctx ∨ n.newCtx = none ∧ !H.useChanctx then .error (.err (-EINVAL))
    else .ok n

/-- `ieee80211_chsw_switch_vifs`. -/
def chswSwitchVifs (s : ChanLocal) : ℤ :=
  if !E.kcalloc then -ENOMEM
  else
    let ctxs := s.chanctxList.filter fun c => (s.ctx c).replaceState = .replacesOther
    if ctxs.any fun c => (s.ctx c).replaceCtx.isNone then -EINVAL
    else
      drvSwitchVifChanctx E (ctxs.flatMap fun c =>
        ((s.ctx c).reservedVifs.filter fun v => s.HasInPlaceReservation v).filterMap fun v =>
          (s.vif v).chanctxConf.map fun oldCtx => ⟨v, oldCtx, c⟩) .swapContexts

/-- `ieee80211_chsw_switch_ctxs`: the first error of `ieee80211_add_chanctx`. -/
def chswSwitchCtxs (s : ChanLocal) : ℤ :=
  let ctxs := s.chanctxList.filter fun c =>
    (s.ctx c).replaceState = .replacesOther &&
      (s.ctx c).replaceCtx.all fun o => (s.ctx o).assignedVifs.isEmpty
  ((ctxs.map fun c => E.addChanctx c).find? fun err => err ≠ 0).getD 0

/-- `ieee80211_chsw_switch_hwconf`. -/
def chswSwitchHwconf (s : ChanLocal) (newCtx : Option CtxId) : ℤ :=
  match newCtx.bind fun c => s.reservedChandef c none with
  | none => -EINVAL
  | some _ => 0

/-- The driver switches. -/
def switchDriver (s : ChanLocal) (n : SwitchCounts) : ℤ :=
  if H.useChanctx then
    let err := if 0 < n.nVifsSwitch then chswSwitchVifs E s else 0
    if err ≠ 0 then err
    else if 0 < n.nVifsAssign ∨ 0 < n.nVifsCtxless then chswSwitchCtxs E s
    else 0
  else chswSwitchHwconf s n.newCtx

/-- An interface with an in-place reservation points to the new context. -/
def pointToNew (c : CtxId) (s : ChanLocal) (v : VifId) : ChanLocal :=
  if ¬s.HasInPlaceReservation v then s
  else
    let s := s.setConf v (some c)
    let s := if H.iftype v = .ap then vifCopyChanctxToVlans E s v else s
    (vifUpdateChandef E s v (s.vif v).reservedChandef)

/-- An interface that points to the new context is on its list. -/
def moveToNew (c : CtxId) (s : ChanLocal) (v : VifId) : ChanLocal :=
  if (s.vif v).chanctxConf ≠ some c then s
  else ((((s.delReserved v).delAssigned v).addAssigned v c).modVif v fun x =>
    { x with reservedChanctx := none })

/-- A reservation that was deferred is used now. -/
def useDeferred (c : CtxId) (s : ChanLocal) (v : VifId) : ChanLocal :=
  if s.HasInPlaceReservation v then s
  else if (s.vif v).reservedChanctx ≠ some c then s
  else if !(s.vif v).reservedReady then s
  else
    let (err, s) :=
      if (s.vif v).chanctxConf.isSome then vifUseReservedReassign E s v else vifUseReservedAssign E s v
    if err ≠ 0 then (vifUnreserveChanctx s v).2 else s

/-- A context takes over the interfaces that have reserved it in place. -/
def swapIn (c : CtxId) (s : ChanLocal) : ChanLocal :=
  let s := (s.ctx c).reservedVifs.foldl (pointToNew E c) s
  let s := recalcChanctxChantype E s c
  (s.ctx c).reservedVifs.foldl (moveToNew c) s

/-- The turn of a context. -/
def takeOver (c : CtxId) (s : ChanLocal) : ChanLocal :=
  let s := swapIn E c s
  (s.ctx c).reservedVifs.foldl (useDeferred E c) s

/-- The loop over the contexts that take over; `false` where one replaces nothing. -/
def takeOverAll : List CtxId → ChanLocal → Bool × ChanLocal
  | [], s => (true, s)
  | c :: cs, s =>
    if (s.ctx c).replaceState ≠ .replacesOther then takeOverAll cs s
    else
      match (s.ctx c).replaceCtx with
      | none => (false, s)
      | some _ => takeOverAll cs (takeOver E c s)

/-- An old context is freed. -/
def freeReplaced (s : ChanLocal) (c : CtxId) : ChanLocal :=
  if (s.ctx c).replaceState ≠ .willBeReplaced then s
  else
    match (s.ctx c).replaceCtx with
    | none => s
    | some n => (s.unlink n).delCtx c

/-- The reservations of one context are given up. -/
def unreserveAll (s : ChanLocal) (c : CtxId) : ChanLocal :=
  if (s.ctx c).replaceState ≠ .replacesOther then s
  else (s.ctx c).reservedVifs.foldl (fun s v => (vifUnreserveChanctx s v).2) s

/-- The `err` label: all reservations of contexts that replace others are given up. -/
def switchFailed (s : ChanLocal) : ChanLocal := s.chanctxList.foldl unreserveAll s

/-- `ieee80211_vif_use_reserved_switch`. -/
def vifUseReservedSwitch (s : ChanLocal) : ℤ × ChanLocal :=
  match verifySwitch H s with
  | .error .again => (-EAGAIN, s)
  | .error (.err err) => (err, switchFailed s)
  | .ok n =>
    let err := switchDriver E s n
    if err ≠ 0 then (err, switchFailed s)
    else
      match takeOverAll E s.chanctxList s with
      | (false, s) => (-EINVAL, switchFailed s)
      | (true, s) => (0, s.chanctxList.foldl freeReplaced s)

/-! ### The calls -/

/-- `use_reserved_switch`: others have reserved the context too. -/
def readiesSwitch (s : ChanLocal) (v : VifId) : Bool :=
  (s.vif v).reservedChanctx.any fun n =>
    (s.ctx n).replaceState = .replacesOther && 1 < (s.ctx n).reservedVifs.length

/-- `ieee80211_vif_release_channel`, up to the switch that the release may ready. -/
def releaseCtx (s : ChanLocal) (v : VifId) (c : CtxId) : ChanLocal :=
  let s := if (s.vif v).reservedChanctx.isSome then (vifUnreserveChanctx s v).2 else s
  (assignVifChanctx E s v none).2.freeUnused c

/-- `ieee80211_vif_release_channel`. -/
def vifReleaseChannel (s : ChanLocal) (v : VifId) : ChanLocal :=
  match (s.vif v).chanctxConf with
  | none => s
  | some c =>
    let s' := releaseCtx E s v c
    if readiesSwitch s v then (vifUseReservedSwitch E s').2 else s'

/-- `ieee80211_find_chanctx`, or else `ieee80211_new_chanctx`. -/
def findOrNewChanctx (s : ChanLocal) (chandef : ChanDef) (mode : ChanctxMode) :
    Except ℤ (CtxId × ChanLocal) :=
  match s.findChanctx chandef mode with
  | some (c, compat) => .ok (c, s.changeChanctx c compat)
  | none => (newChanctx E s chandef mode).map fun s' => (s.nextCtx, s')

/-- `ieee80211_vif_use_channel`. -/
def vifUseChannel (s : ChanLocal) (v : VifId) (chandef : ChanDef) (mode : ChanctxMode) :
    ℤ × ChanLocal :=
  if E.dfsRequired < 0 then (E.dfsRequired, s)
  else if E.checkCombinations < 0 then (E.checkCombinations, s)
  else
    let s := vifReleaseChannel E s v
    match findOrNewChanctx E s chandef mode with
    | .error err => (err, s)
    | .ok (c, s) =>
      let (ret, s) := assignVifChanctx E (vifUpdateChandef E s v chandef) v (some c)
      if ret ≠ 0 then (ret, s.freeUnused c) else (0, s)

/-- `ieee80211_vif_use_reserved_context`, up to the switch: a context that is there is used at once. -/
def useExisting (s : ChanLocal) (v : VifId) (newCtx : CtxId) : ℤ × ChanLocal :=
  let s' := s.modVif v fun x => { x with reservedReady := true }
  if (s.ctx newCtx).replaceState = .replaceNone then
    if (s.vif v).chanctxConf.isSome then vifUseReservedReassign E s' v else vifUseReservedAssign E s' v
  else (0, s')

/-- In-place reservations may have become ready. -/
def mayFinalize (s : ChanLocal) (oldCtx : Option CtxId) (newCtx : CtxId) : Bool :=
  (oldCtx.any fun o => (s.ctx o).replaceState = .willBeReplaced) ||
    (s.ctx newCtx).replaceState = .replacesOther

/-- `ieee80211_vif_use_reserved_context`. -/
def vifUseReservedContext (s : ChanLocal) (v : VifId) : ℤ × ChanLocal :=
  match (s.vif v).reservedChanctx with
  | none => (-EINVAL, s)
  | some newCtx =>
    if (s.ctx newCtx).replaceState = .willBeReplaced then (-EINVAL, s)
    else if (s.vif v).reservedReady then (-EINVAL, s)
    else
      let (err, s') := useExisting E s v newCtx
      if err ≠ 0 then (err, s')
      else if mayFinalize s' (s.vif v).chanctxConf newCtx then
        let (err, s') := vifUseReservedSwitch E s'
        if err ≠ 0 ∧ err ≠ -EAGAIN ∧ (s'.ctx newCtx).replaceState = .replacesOther then (err, s')
        else (0, s')
      else (0, s')

end Calls

/-- A call, and what it finds around it. -/
inductive ChanCall
  | useChannel (v : VifId) (chandef : ChanDef) (mode : ChanctxMode)
  | releaseChannel (v : VifId)
  | reserveChanctx (v : VifId) (chandef : ChanDef) (mode : ChanctxMode)
  | unreserveChanctx (v : VifId)
  | useReservedContext (v : VifId)

/-- The interface that a call is about. -/
def ChanCall.vif : ChanCall → VifId
  | useChannel v _ _ | releaseChannel v | reserveChanctx v _ _ | unreserveChanctx v
  | useReservedContext v => v

/-- The call is `ieee80211_vif_reserve_chanctx`. -/
def ChanCall.isReserve : ChanCall → Bool
  | reserveChanctx _ _ _ => true
  | _ => false

/-- One call, under the lock, and what it returns. -/
def chanStep (H : ChanHw) (s : ChanLocal) : ChanCall × ChanEnv H → Option (ChanLocal × List ℤ)
  | (.useChannel v chandef mode, E) =>
    let (ret, s) := vifUseChannel E s v chandef mode
    some (s, [ret])
  | (.releaseChannel v, E) => some (vifReleaseChannel E s v, [])
  | (.reserveChanctx v chandef mode, E) =>
    let (ret, s) := vifReserveChanctx E s v chandef mode
    some (s, [ret])
  | (.unreserveChanctx v, _) =>
    let (ret, s) := vifUnreserveChanctx s v
    some (s, [ret])
  | (.useReservedContext v, E) =>
    let (ret, s) := vifUseReservedContext E s v
    some (s, [ret])

end Mac80211
