import Mac80211.Lib.Reach
import Mac80211.Lib.Sums
import Mac80211.State
import Mathlib.Algebra.BigOperators.Ring.Finset

/-!
# The states of a station

`sta_info_move_state` of `sta_info.c`, with what inserts and destroys a station. The driver is told
of a change first and may refuse; what else it sets off is recorded as an output. A station can be
authorized before it is inserted; if it is freed then, the interface still counts it.

## Main definitions

* `StaInv`, `StaEvent.KeepsCounted`

## Main results

* `StaInv.step` — what each event keeps
* `moveState_of_reach`
-/

namespace Mac80211

open Machine Function Finset

/-! ### The state -/

/-- The order of the states. -/
def StaState.rank : StaState → ℕ
  | .notexist => 0
  | .none => 1
  | .auth => 2
  | .assoc => 3
  | .authorized => 4

/-- `struct sta_info`, as far as its state goes. -/
structure StaEntry where
  sdata : SdataId
  staState : StaState := .none
  /-- `WLAN_STA_AUTH`. -/
  auth : Bool := false
  /-- `WLAN_STA_ASSOC`. -/
  assoc : Bool := false
  /-- `WLAN_STA_AUTHORIZED`. -/
  authorized : Bool := false
  /-- `WLAN_STA_INSERTED`. -/
  inserted : Bool := false
  uploaded : Bool := false
  supportP2pPs : Bool := false

/-- An interface. -/
structure StaIface where
  type : IfType
  /-- The interface `bss` is part of, of an AP_VLAN. -/
  bss : SdataId := 0
  /-- `IEEE80211_SDATA_IN_DRIVER`. -/
  inDriver : Bool := true
  /-- `u.ap.num_mcast_sta`, or `u.vlan.num_mcast_sta`. -/
  numMcastSta : ℤ := 0

/-- `struct ieee80211_local`, as far as stations go. -/
structure StaLocal where
  /-- The driver has `sta_state`. -/
  hasStaState : Bool := true
  /-- The driver has `sta_add`. -/
  hasStaAdd : Bool := false
  iface : SdataId → StaIface
  stas : Finset ℕ := ∅
  sta : ℕ → StaEntry := fun _ => { sdata := 0 }

/-- What a change of state sets off. -/
inductive StaOut
  | drvStaState (j : ℕ) (old new : StaState)
  | drvStaAdd (j : ℕ)
  | drvStaRemove (j : ℕ)
  | recalcMinChandef (i : SdataId)
  | recalcP2pGoPsAllowed (i : SdataId)
  | checkFastXmit (j : ℕ)
  | clearFastXmit (j : ℕ)
  | checkFastRx (j : ℕ)
  | clearFastRx (j : ℕ)
  | layer2Update (i : SdataId) (j : ℕ)

namespace StaLocal

variable (s : StaLocal)

/-- Write a station. -/
def updSta (j : ℕ) (f : StaEntry → StaEntry) : StaLocal :=
  { s with sta := Function.update s.sta j (f (s.sta j)) }

/-- Add to the counter of an interface of an access point. -/
def addMcast (i : SdataId) (n : ℤ) : StaLocal :=
  match (s.iface i).type with
  | .ap | .apVlan =>
    let d := s.iface i
    { s with iface := Function.update s.iface i { d with numMcastSta := d.numMcastSta + n } }
  | _ => s

/-- `ieee80211_vif_inc_num_mcast`. -/
def vifIncNumMcast (i : SdataId) : StaLocal := s.addMcast i 1

/-- `ieee80211_vif_dec_num_mcast`. -/
def vifDecNumMcast (i : SdataId) : StaLocal := s.addMcast i (-1)

/-- `get_bss_sdata`. -/
def getBssSdata (i : SdataId) : SdataId :=
  if (s.iface i).type = .apVlan then (s.iface i).bss else i

end StaLocal

/-! ### The driver -/

/-- `drv_sta_state`; `ret` is what the callback of the driver returns. -/
def drvStaState (s : StaLocal) (j : ℕ) (old new : StaState) (ret : ℤ) : ℤ × StaLocal × List StaOut :=
  if !(s.iface (s.getBssSdata (s.sta j).sdata)).inDriver then (- EIO, s, [])
  else if s.hasStaState then (ret, s, [.drvStaState j old new])
  else if old = .auth && new = .assoc then
    let (ret, outs) := if s.hasStaAdd then (ret, [.drvStaAdd j]) else (0, [])
    (ret, if ret = 0 then s.updSta j fun t => { t with uploaded := true } else s, outs)
  else if old = .assoc && new = .auth then (0, s, [.drvStaRemove j])
  else (0, s, [])

/-- The states below a state, and the next state of each. -/
def stepsBelow (state : StaState) : List (StaState × StaState) :=
  [(.notexist, .none), (.none, .auth), (.auth, .assoc), (.assoc, .authorized)].take state.rank

/-- Tell the driver of one state after the other, until it fails; then how far it came. -/
def insertUp (j : ℕ) (rets : StaState → ℤ) :
    List (StaState × StaState) → StaLocal → ℤ × StaState × StaLocal × List StaOut
  | [], s => (0, (s.sta j).staState, s, [])
  | (state, next) :: steps, s =>
    match drvStaState s j state next (rets state) with
    | (err, s, outs) =>
      if err ≠ 0 then (err, state, s, outs)
      else
        let (err, state, s, outs') := insertUp j rets steps s
        (err, state, s, outs ++ outs')

/-- Unwind, whatever the driver says. -/
def insertDown (j : ℕ) (rets : StaState → ℤ) :
    List (StaState × StaState) → StaLocal → StaLocal × List StaOut
  | [], s => (s, [])
  | (prev, state) :: steps, s =>
    let (_, s, outs) := drvStaState s j state prev (rets state)
    let (s, outs') := insertDown j rets steps s
    (s, outs ++ outs')

/-- `sta_info_insert_drv_state`; `up` and `down` are what the driver returns, by the state that is
left. -/
def insertDrvState (s : StaLocal) (j : ℕ) (up down : StaState → ℤ) : ℤ × StaLocal × List StaOut :=
  let (err, state, s, outs) := insertUp j up (stepsBelow (s.sta j).staState) s
  if err = 0 then
    (0, if !s.hasStaAdd then s.updSta j fun t => { t with uploaded := true } else s, outs)
  else
    let (s, outs') := insertDown j down (stepsBelow state).reverse s
    (if (s.iface (s.sta j).sdata).type = .adhoc then 0 else err, s, outs ++ outs')

/-! ### Changes of state -/

/-- The transitions that there are. -/
def allowedMove (old new : StaState) : Bool :=
  match new with
  | .none => old = .auth
  | .auth => old = .none || old = .assoc
  | .assoc => old = .auth || old = .authorized
  | .authorized => old = .assoc
  | .notexist => false

/-- What is recalculated when a station comes or goes. -/
def recalcAssoc (t : StaEntry) : List StaOut :=
  .recalcMinChandef t.sdata :: if t.supportP2pPs then [] else [.recalcP2pGoPsAllowed t.sdata]

/-- Reflect the change in all state variables. -/
def reflectMove (s : StaLocal) (j : ℕ) (new : StaState) : StaLocal × List StaOut :=
  let t := s.sta j
  match new with
  | .none =>
    if t.staState = .auth then (s.updSta j fun t => { t with auth := false }, []) else (s, [])
  | .auth =>
    if t.staState = .none then (s.updSta j fun t => { t with auth := true }, [])
    else if t.staState = .assoc then (s.updSta j fun t => { t with assoc := false }, recalcAssoc t)
    else (s, [])
  | .assoc =>
    if t.staState = .auth then (s.updSta j fun t => { t with assoc := true }, recalcAssoc t)
    else if t.staState = .authorized then
      ((s.vifDecNumMcast t.sdata).updSta j fun t => { t with authorized := false },
        [.clearFastXmit j, .clearFastRx j])
    else (s, [])
  | .authorized =>
    let (s, outs) :=
      if t.staState = .assoc then
        ((s.vifIncNumMcast t.sdata).updSta j fun t => { t with authorized := true },
          [.checkFastXmit j, .checkFastRx j])
      else (s, [])
    match (s.iface t.sdata).type with
    | .apVlan | .ap => (s, outs ++ [.layer2Update t.sdata j])
    | _ => (s, outs)
  | .notexist => (s, [])

/-- `sta_info_move_state`. -/
def moveState (s : StaLocal) (j : ℕ) (new : StaState) (ret : ℤ) : ℤ × StaLocal × List StaOut :=
  if (s.sta j).staState = new then (0, s, [])
  else if !allowedMove (s.sta j).staState new then (-EINVAL, s, [])
  else
    let (err, s, outs) :=
      if (s.sta j).inserted then drvStaState s j (s.sta j).staState new ret else (0, s, [])
    if err ≠ 0 then (err, s, outs)
    else
      let (s, outs') := reflectMove s j new
      (0, s.updSta j fun t => { t with staState := new }, outs ++ outs')

/-- `ieee80211_change_station`, as far as the interface goes. -/
def changeVlan (s : StaLocal) (j : ℕ) (i : SdataId) : StaLocal × List StaOut :=
  let authorized := (s.sta j).authorized
  let s := if authorized then s.vifDecNumMcast (s.sta j).sdata else s
  let s := s.updSta j fun t => { t with sdata := i }
  if authorized then (s.vifIncNumMcast i, [.checkFastXmit j, .layer2Update i j])
  else (s, [.checkFastXmit j])

/-! ### Coming and going -/

/-- `sta_info_free`. Nothing is undone of what the station counts for. -/
def staInfoFree (s : StaLocal) (j : ℕ) : StaLocal := { s with stas := s.stas.erase j }

/-- `sta_info_insert_rcu`; `check` is what the checks and allocations before the driver return. A
station that cannot be inserted is freed. -/
def staInfoInsert (s : StaLocal) (j : ℕ) (check : ℤ) (up down : StaState → ℤ) :
    ℤ × StaLocal × List StaOut :=
  if check ≠ 0 then (check, staInfoFree s j, [])
  else
    let (err, s, outs) := insertDrvState s j up down
    if err ≠ 0 then (err, staInfoFree s j, outs)
    else
      let s := s.updSta j fun t => { t with inserted := true }
      (0, s, outs ++ if StaState.assoc.rank ≤ (s.sta j).staState.rank then recalcAssoc (s.sta j) else [])

/-- The first loop of `__sta_info_destroy_part2`: it goes on until the driver agrees. `rets` is what
the driver returns, time after time. -/
def destroyAuthorized (j : ℕ) : List ℤ → StaLocal → Option (StaLocal × List StaOut)
  | [], s => if (s.sta j).staState = .authorized then none else some (s, [])
  | ret :: rets, s =>
    if (s.sta j).staState = .authorized then
      let (_, s, outs) := moveState s j .assoc ret
      (destroyAuthorized j rets s).map fun r => (r.1, outs ++ r.2)
    else some (s, [])

/-- The second loop: down state by state, until the driver refuses. -/
def destroyDown (j : ℕ) (rets : StaState → ℤ) :
    List (StaState × StaState) → StaLocal → StaLocal × List StaOut
  | [], s => (s, [])
  | (prev, state) :: steps, s =>
    let (ret, s, outs) := moveState s j prev (rets state)
    if ret ≠ 0 then (s, outs)
    else
      let (s, outs') := destroyDown j rets steps s
      (s, outs ++ outs')

/-- `__sta_info_destroy`. -/
def staInfoDestroy (s : StaLocal) (j : ℕ) (rets : List ℤ) (down : StaState → ℤ) :
    Option (StaLocal × List StaOut) :=
  match destroyAuthorized j rets s with
  | none => none
  | some (s, outs) =>
    let (s, outs') := destroyDown j down ((stepsBelow (s.sta j).staState).drop 1).reverse s
    let (_, s, outs'') :=
      if (s.sta j).uploaded then drvStaState s j .none .notexist (down .none) else (0, s, [])
    some (staInfoFree s j, outs ++ outs' ++ outs'')

/-! ### The machine -/

/-- What can happen to the stations. -/
inductive StaEvent
  /-- `sta_info_alloc`. -/
  | alloc (j : ℕ) (i : SdataId) (supportP2pPs : Bool)
  /-- `sta_info_insert_rcu`. -/
  | insert (j : ℕ) (check : ℤ) (up down : StaState → ℤ)
  /-- `sta_info_free` of a station that was never inserted. -/
  | free (j : ℕ)
  /-- `__sta_info_destroy`. -/
  | destroy (j : ℕ) (rets : List ℤ) (down : StaState → ℤ)
  /-- `sta_info_move_state`. -/
  | move (j : ℕ) (new : StaState) (ret : ℤ)
  /-- `ieee80211_change_station`. -/
  | vlan (j : ℕ) (i : SdataId)

/-- One event. -/
def staStep (s : StaLocal) : StaEvent → Option (StaLocal × List StaOut)
  | .alloc j i supportP2pPs =>
    if j ∈ s.stas then none
    else some ({ s with
      stas := insert j s.stas
      sta := Function.update s.sta j { sdata := i, supportP2pPs := supportP2pPs } }, [])
  | .insert j check up down =>
    if j ∈ s.stas ∧ (s.sta j).inserted = false then some (staInfoInsert s j check up down).2 else none
  | .free j =>
    if j ∈ s.stas ∧ (s.sta j).inserted = false then some (staInfoFree s j, []) else none
  | .destroy j rets down =>
    if j ∈ s.stas ∧ (s.sta j).inserted = true then staInfoDestroy s j rets down else none
  | .move j new ret => if j ∈ s.stas then some (moveState s j new ret).2 else none
  | .vlan j i => if j ∈ s.stas then some (changeVlan s j i) else none

/-! ### What is to hold -/

/-- The flags say what the state says. -/
structure StaEntry.Consistent (t : StaEntry) : Prop where
  exist : StaState.none.rank ≤ t.staState.rank
  auth : t.auth = decide (StaState.auth.rank ≤ t.staState.rank)
  assoc : t.assoc = decide (StaState.assoc.rank ≤ t.staState.rank)
  authorized : t.authorized = decide (StaState.authorized.rank ≤ t.staState.rank)

/-- The authorized stations of an interface. -/
def StaLocal.authorizedOn (s : StaLocal) (i : SdataId) : Finset ℕ :=
  s.stas.filter fun j => (s.sta j).sdata = i ∧ (s.sta j).staState = .authorized

/-- Flags and counters agree with the states. -/
structure StaInv (s : StaLocal) : Prop where
  consistent : ∀ j ∈ s.stas, (s.sta j).Consistent
  count : ∀ i, (s.iface i).type = .ap ∨ (s.iface i).type = .apVlan →
    (s.iface i).numMcastSta = (s.authorizedOn i).card

/-- An interface counts the station. -/
def StaLocal.Counted (s : StaLocal) (j : ℕ) : Prop :=
  (s.sta j).staState = .authorized ∧
    ((s.iface (s.sta j).sdata).type = .ap ∨ (s.iface (s.sta j).sdata).type = .apVlan)
deriving Decidable

/-- The driver takes a change of state: it knows the interface, and the callback that it has for this
change returns `0`. -/
def StaLocal.DriverTakes (s : StaLocal) (j : ℕ) (old new : StaState) (ret : ℤ) : Prop :=
  (s.iface (s.getBssSdata (s.sta j).sdata)).inDriver = true ∧
    (s.hasStaState = true ∨ old = .auth ∧ new = .assoc ∧ s.hasStaAdd = true → ret = 0)
deriving Decidable

/-- A station that is counted is not freed on the way in: the checks succeed, and the driver takes one
state after the other. -/
def StaEvent.KeepsCounted (s : StaLocal) : StaEvent → Prop
  | .insert j check up _ => s.Counted j →
    check = 0 ∧ ∀ p ∈ stepsBelow .authorized, s.DriverTakes j p.1 p.2 (up p.1)
  | .free j => ¬ s.Counted j
  | _ => True

instance (s : StaLocal) : (e : StaEvent) → Decidable (e.KeepsCounted s)
  | .insert .. => inferInstanceAs (Decidable (_ → _))
  | .free _ => inferInstanceAs (Decidable (¬ _))
  | .alloc .. => .isTrue trivial
  | .destroy .. => .isTrue trivial
  | .move .. => .isTrue trivial
  | .vlan .. => .isTrue trivial

/-! ### Counting -/

section Counting

variable {s s' : StaLocal} {j : ℕ} {i : SdataId}

/-- One if the station counts for an interface. -/
def StaEntry.counts (t : StaEntry) (i : SdataId) : ℕ :=
  if t.sdata = i ∧ t.staState = .authorized then 1 else 0

theorem card_authorizedOn (s : StaLocal) (i : SdataId) :
    (s.authorizedOn i).card = ∑ j ∈ s.stas, (s.sta j).counts i :=
  card_filter ..

theorem card_authorizedOn_change (hstas : s'.stas = s.stas) (hj : j ∈ s.stas)
    (hother : ∀ k, k ≠ j → s'.sta k = s.sta k) (i : SdataId) :
    (s'.authorizedOn i).card + (s.sta j).counts i = (s.authorizedOn i).card + (s'.sta j).counts i := by
  rw [card_authorizedOn, card_authorizedOn, hstas]
  have hcounts : ∀ k, k ≠ j → (s'.sta k).counts i = (s.sta k).counts i := by
    intro k hk
    rw [hother k hk]
  exact sum_change hj hcounts

@[simp] theorem StaLocal.updSta_sta_self (s : StaLocal) (j : ℕ) (f : StaEntry → StaEntry) :
    (s.updSta j f).sta j = f (s.sta j) :=
  update_self ..

theorem StaLocal.updSta_sta_of_ne (s : StaLocal) {j k : ℕ} (hk : k ≠ j) (f : StaEntry → StaEntry) :
    (s.updSta j f).sta k = s.sta k :=
  update_of_ne hk ..

@[simp] theorem StaLocal.updSta_iface (s : StaLocal) (j : ℕ) (f : StaEntry → StaEntry) :
    (s.updSta j f).iface = s.iface := rfl

theorem StaLocal.addMcast_eq (s : StaLocal) (i : SdataId) (n : ℤ) :
    s.addMcast i n = { s with iface := (s.addMcast i n).iface } := by
  rw [addMcast]
  split
  · rfl
  · rfl
  · rfl

@[simp] theorem StaLocal.addMcast_sta (s : StaLocal) (i : SdataId) (n : ℤ) :
    (s.addMcast i n).sta = s.sta := by
  rw [addMcast_eq]

@[simp] theorem StaLocal.addMcast_stas (s : StaLocal) (i : SdataId) (n : ℤ) :
    (s.addMcast i n).stas = s.stas := by
  rw [addMcast_eq]

@[simp] theorem StaLocal.addMcast_type (s : StaLocal) (i : SdataId) (n : ℤ) (i' : SdataId) :
    ((s.addMcast i n).iface i').type = (s.iface i').type := by
  have hupd : (Function.update s.iface i { s.iface i with numMcastSta := (s.iface i).numMcastSta + n }
      i').type = (s.iface i').type := by
    by_cases hi : i' = i
    · rw [hi, update_self]
    · rw [update_of_ne hi]
  rw [addMcast]
  split
  · exact hupd
  · exact hupd
  · rfl

theorem StaLocal.addMcast_numMcastSta (s : StaLocal) (i : SdataId) (n : ℤ) {i' : SdataId}
    (htype : (s.iface i').type = .ap ∨ (s.iface i').type = .apVlan) :
    ((s.addMcast i n).iface i').numMcastSta = (s.iface i').numMcastSta + if i = i' then n else 0 := by
  have hupd : (Function.update s.iface i { s.iface i with numMcastSta := (s.iface i).numMcastSta + n }
      i').numMcastSta = (s.iface i').numMcastSta + if i = i' then n else 0 := by
    by_cases hi : i' = i
    · rw [hi, update_self, if_pos rfl]
    · rw [update_of_ne hi, if_neg (Ne.symm hi), add_zero]
  rw [addMcast]
  split
  · exact hupd
  · exact hupd
  · rename_i hap hvlan
    rw [if_neg, add_zero]
    rintro rfl
    rcases htype with h | h
    · exact hap h
    · exact hvlan h

theorem StaLocal.authorizedOn_addMcast (s : StaLocal) (i : SdataId) (n : ℤ) (i' : SdataId) :
    (s.addMcast i n).authorizedOn i' = s.authorizedOn i' := by
  rw [authorizedOn, authorizedOn, addMcast_stas, addMcast_sta]

end Counting

/-! ### The driver leaves the states alone -/

section Driver

variable {s s' : StaLocal} {j : ℕ}

/-- Nothing changes but what was uploaded to the driver. -/
structure SameStates (s s' : StaLocal) : Prop where
  hasStaState : s'.hasStaState = s.hasStaState
  hasStaAdd : s'.hasStaAdd = s.hasStaAdd
  iface : s'.iface = s.iface
  stas : s'.stas = s.stas
  sta : ∀ j, ∃ uploaded inserted, s'.sta j = { s.sta j with
    uploaded := uploaded
    inserted := inserted }

theorem SameStates.refl (s : StaLocal) : SameStates s s := ⟨rfl, rfl, rfl, rfl, fun _ => ⟨_, _, rfl⟩⟩

theorem SameStates.trans {s'' : StaLocal} (h : SameStates s s') (h' : SameStates s' s'') :
    SameStates s s'' := by
  refine ⟨h'.hasStaState.trans h.hasStaState, h'.hasStaAdd.trans h.hasStaAdd,
    h'.iface.trans h.iface, h'.stas.trans h.stas, fun j => ?_⟩
  obtain ⟨u, n, heq⟩ := h.sta j
  obtain ⟨u', n', heq'⟩ := h'.sta j
  exact ⟨u', n', by rw [heq', heq]⟩

theorem sameStates_updSta {f : StaEntry → StaEntry} (hf : ∀ t, ∃ uploaded inserted, f t = { t with
    uploaded := uploaded
    inserted := inserted }) : SameStates s (s.updSta j f) := by
  refine ⟨rfl, rfl, rfl, rfl, fun k => ?_⟩
  by_cases hk : k = j
  · rw [hk, StaLocal.updSta_sta_self]
    exact hf _
  · rw [StaLocal.updSta_sta_of_ne s hk]
    exact ⟨_, _, rfl⟩

/-- A call of the driver changes no state, and nothing at all if it fails. -/
theorem drvStaState_cases {old new : StaState} {ret err : ℤ} {outs : List StaOut}
    (h : drvStaState s j old new ret = (err, s', outs)) : SameStates s s' ∧ (err ≠ 0 → s' = s) := by
  have hupload : SameStates s (s.updSta j fun t => { t with uploaded := true }) :=
    sameStates_updSta fun t => ⟨_, _, rfl⟩
  rw [drvStaState] at h
  split at h
  · obtain ⟨-, rfl, -⟩ := h
    exact ⟨.refl s, fun _ => rfl⟩
  split at h
  · obtain ⟨-, rfl, -⟩ := h
    exact ⟨.refl s, fun _ => rfl⟩
  split at h
  · split at h
    obtain ⟨rfl, rfl, -⟩ := h
    split
    · exact ⟨hupload, fun hne => absurd ‹_› hne⟩
    · exact ⟨.refl s, fun _ => rfl⟩
  split at h
  · obtain ⟨-, rfl, -⟩ := h
    exact ⟨.refl s, fun _ => rfl⟩
  · obtain ⟨-, rfl, -⟩ := h
    exact ⟨.refl s, fun _ => rfl⟩

theorem drvStaState_of_takes {old new : StaState} {ret : ℤ} (h : s.DriverTakes j old new ret) :
    (drvStaState s j old new ret).1 = 0 := by
  obtain ⟨hin, hret⟩ := h
  rw [drvStaState, if_neg (by simp [hin])]
  split
  · rename_i hstate
    exact hret (.inl hstate)
  split
  · rename_i hmove
    simp only [Bool.and_eq_true, decide_eq_true_eq] at hmove
    cases hadd : s.hasStaAdd with
    | false => rfl
    | true => exact hret (.inr ⟨hmove.1, hmove.2, hadd⟩)
  split
  · rfl
  · rfl

theorem SameStates.sdata (h : SameStates s s') (j : ℕ) : (s'.sta j).sdata = (s.sta j).sdata := by
  obtain ⟨u, n, heq⟩ := h.sta j
  rw [heq]

theorem SameStates.staState (h : SameStates s s') (j : ℕ) :
    (s'.sta j).staState = (s.sta j).staState := by
  obtain ⟨u, n, heq⟩ := h.sta j
  rw [heq]

theorem SameStates.driverTakes {old new : StaState} {ret : ℤ} (hsame : SameStates s s')
    (h : s.DriverTakes j old new ret) : s'.DriverTakes j old new ret := by
  rw [StaLocal.DriverTakes, StaLocal.getBssSdata, hsame.hasStaState, hsame.hasStaAdd, hsame.iface,
    hsame.sdata]
  exact h

theorem insertUp_of_takes {rets : StaState → ℤ} {steps : List (StaState × StaState)}
    (h : ∀ p ∈ steps, s.DriverTakes j p.1 p.2 (rets p.1)) : (insertUp j rets steps s).1 = 0 := by
  induction steps generalizing s with
  | nil => rfl
  | cons step steps ih =>
    obtain ⟨state, next⟩ := step
    have herr := drvStaState_of_takes (h _ List.mem_cons_self)
    rw [insertUp]
    split
    rename_i err s₁ outs hdrv
    rw [hdrv] at herr
    rw [if_neg (by simpa using herr)]
    exact ih fun p hp => (drvStaState_cases hdrv).1.driverTakes (h p (List.mem_cons_of_mem _ hp))

theorem sameStates_insertUp (j : ℕ) (rets : StaState → ℤ) (steps : List (StaState × StaState)) (s : StaLocal) :
    SameStates s (insertUp j rets steps s).2.2.1 := by
  induction steps generalizing s with
  | nil => exact .refl s
  | cons step steps ih =>
    obtain ⟨state, next⟩ := step
    rw [insertUp]
    split
    rename_i err s₁ outs hdrv
    have hsame := (drvStaState_cases hdrv).1
    split
    · exact hsame
    · exact hsame.trans (ih s₁)

theorem sameStates_insertDown (j : ℕ) (rets : StaState → ℤ) (steps : List (StaState × StaState))
    (s : StaLocal) : SameStates s (insertDown j rets steps s).1 := by
  induction steps generalizing s with
  | nil => exact .refl s
  | cons step steps ih =>
    obtain ⟨prev, state⟩ := step
    rw [insertDown]
    have hsame := (@drvStaState_cases s _ j state prev (rets state) _ _ rfl).1
    exact hsame.trans (ih _)

theorem sameStates_insertDrvState (s : StaLocal) (j : ℕ) (up down : StaState → ℤ) :
    SameStates s (insertDrvState s j up down).2.1 := by
  have hup := sameStates_insertUp j up (stepsBelow (s.sta j).staState) s
  rw [insertDrvState]
  split
  rename_i err state s₁ outs heq
  rw [heq] at hup
  split
  · split
    · exact hup.trans (sameStates_updSta fun t => ⟨_, _, rfl⟩)
    · exact hup
  · exact hup.trans (sameStates_insertDown j down _ s₁)

theorem insertDrvState_of_takes {up down : StaState → ℤ}
    (h : ∀ p ∈ stepsBelow (s.sta j).staState, s.DriverTakes j p.1 p.2 (up p.1)) :
    (insertDrvState s j up down).1 = 0 := by
  have hup := insertUp_of_takes h
  rw [insertDrvState]
  split
  rename_i err state s₁ outs heq
  rw [heq] at hup
  rw [if_pos hup]

end Driver

/-! ### One call -/

section Call

variable {s s' s₁ : StaLocal} {j : ℕ} {new : StaState} {ret err : ℤ} {outs : List StaOut}

/-- A call fails and changes nothing, or the station is there already, or the driver agrees to an
existing transition and the change is reflected. -/
theorem moveState_cases (h : moveState s j new ret = (err, s', outs)) :
    (err ≠ 0 ∧ s' = s) ∨ (err = 0 ∧ (s.sta j).staState = new ∧ s' = s) ∨
      (err = 0 ∧ allowedMove (s.sta j).staState new = true ∧ ∃ s₁, SameStates s s₁ ∧
        s' = (reflectMove s₁ j new).1.updSta j fun t => { t with staState := new }) := by
  rw [moveState] at h
  split at h
  · rename_i hsame
    obtain ⟨rfl, rfl, -⟩ := h
    exact .inr (.inl ⟨rfl, hsame, rfl⟩)
  split at h
  · obtain ⟨rfl, rfl, -⟩ := h
    exact .inl ⟨by decide, rfl⟩
  rename_i hallowed
  rw [Bool.not_eq_true, Bool.not_eq_false'] at hallowed
  split at h
  rename_i err₁ s₁ outs₁ hdrv
  have hdrv' : SameStates s s₁ ∧ (err₁ ≠ 0 → s₁ = s) := by
    split at hdrv
    · exact drvStaState_cases hdrv
    · obtain ⟨rfl, rfl, -⟩ := hdrv
      exact ⟨.refl s, fun hne => absurd rfl hne⟩
  split at h
  · rename_i hfail
    obtain ⟨rfl, rfl, -⟩ := h
    exact .inl ⟨hfail, hdrv'.2 hfail⟩
  · obtain ⟨rfl, rfl, -⟩ := h
    exact .inr (.inr ⟨rfl, hallowed, s₁, hdrv'.1, rfl⟩)

/-- What a change of state does. -/
structure StaMoved (s s' : StaLocal) (j : ℕ) (new : StaState) : Prop where
  stas : s'.stas = s.stas
  type : ∀ i, (s'.iface i).type = (s.iface i).type
  other : ∀ k, k ≠ j → s'.sta k = s.sta k
  staState : (s'.sta j).staState = new
  consistent : (s'.sta j).Consistent
  count : ∀ i, (s.iface i).type = .ap ∨ (s.iface i).type = .apVlan →
    (s'.iface i).numMcastSta + (s.sta j).counts i = (s.iface i).numMcastSta + (s'.sta j).counts i

/-- The station in another state, with the flags of that state. -/
def StaEntry.inState (t : StaEntry) (new : StaState) : StaEntry :=
  { t with
    staState := new
    auth := decide (StaState.auth.rank ≤ new.rank)
    assoc := decide (StaState.assoc.rank ≤ new.rank)
    authorized := decide (StaState.authorized.rank ≤ new.rank) }

variable {f g : StaEntry → StaEntry}

/-- Flags and state are written one after the other, and a counter before. -/
theorem moved_of_inState (hsta : s₁.sta = s.sta) (hstas : s₁.stas = s.stas)
    (htype : ∀ i, (s₁.iface i).type = (s.iface i).type) (hexist : StaState.none.rank ≤ new.rank)
    (hfg : g (f (s.sta j)) = (s.sta j).inState new)
    (hcount : ∀ i, (s.iface i).type = .ap ∨ (s.iface i).type = .apVlan → (s₁.iface i).numMcastSta +
      (s.sta j).counts i = (s.iface i).numMcastSta + ((s.sta j).inState new).counts i) :
    StaMoved s ((s₁.updSta j f).updSta j g) j new := by
  have hself : ((s₁.updSta j f).updSta j g).sta j = (s.sta j).inState new := by
    rw [StaLocal.updSta_sta_self, StaLocal.updSta_sta_self, hsta, hfg]
  refine ⟨hstas, htype, ?_, ?_, ?_, ?_⟩
  · intro k hk
    rw [StaLocal.updSta_sta_of_ne _ hk, StaLocal.updSta_sta_of_ne _ hk, hsta]
  · rw [hself]
    rfl
  · rw [hself]
    exact ⟨hexist, rfl, rfl, rfl⟩
  · rw [hself]
    exact hcount

theorem moved_updSta (hexist : StaState.none.rank ≤ new.rank)
    (hfg : g (f (s.sta j)) = (s.sta j).inState new) (hold : (s.sta j).staState ≠ .authorized)
    (hnew : new ≠ .authorized) : StaMoved s ((s.updSta j f).updSta j g) j new := by
  refine moved_of_inState rfl rfl (fun _ => rfl) hexist hfg fun i _ => ?_
  rw [StaEntry.counts, StaEntry.counts, if_neg fun h => hold h.2, if_neg fun h => hnew h.2]

theorem moved_addMcast {n : ℤ} (hexist : StaState.none.rank ≤ new.rank)
    (hfg : g (f (s.sta j)) = (s.sta j).inState new)
    (hn : n + (if (s.sta j).staState = .authorized then 1 else 0) = if new = .authorized then 1 else 0) :
    StaMoved s (((s.addMcast (s.sta j).sdata n).updSta j f).updSta j g) j new := by
  refine moved_of_inState (by simp) (by simp) (by simp) hexist hfg fun i htype => ?_
  rw [StaLocal.addMcast_numMcastSta s _ n htype, StaEntry.counts, StaEntry.counts]
  change _ = (s.iface i).numMcastSta + ((if (s.sta j).sdata = i ∧ new = .authorized then 1 else 0 : ℕ) : ℤ)
  by_cases hi : (s.sta j).sdata = i
  · simp only [hi, true_and, if_true, Nat.cast_ite, Nat.cast_one, Nat.cast_zero]
    rw [add_assoc, hn]
  · simp [hi]

theorem moved_reflectMove (hcons : (s.sta j).Consistent) (hallowed : allowedMove (s.sta j).staState new = true) :
    StaMoved s ((reflectMove s j new).1.updSta j fun t => { t with staState := new }) j new := by
  obtain ⟨-, hauth, hassoc, hauthorized⟩ := hcons
  cases new with
  | notexist => cases hallowed
  | none =>
    have hold : (s.sta j).staState = .auth := by simpa [allowedMove] using hallowed
    rw [hold] at hauth hassoc hauthorized
    rw [reflectMove, if_pos hold]
    dsimp only
    refine moved_updSta ?_ ?_ ?_ ?_
    · decide
    · rw [StaEntry.inState, hassoc, hauthorized]
      rfl
    · simp [hold]
    · simp
  | auth =>
    have hold : (s.sta j).staState = .none ∨ (s.sta j).staState = .assoc := by
      simpa [allowedMove] using hallowed
    rcases hold with hold | hold
    · rw [hold] at hauth hassoc hauthorized
      rw [reflectMove, if_pos hold]
      dsimp only
      refine moved_updSta ?_ ?_ ?_ ?_
      · decide
      · rw [StaEntry.inState, hassoc, hauthorized]
        rfl
      · simp [hold]
      · simp
    · rw [hold] at hauth hassoc hauthorized
      rw [reflectMove, if_neg (by simp [hold]), if_pos hold]
      dsimp only
      refine moved_updSta ?_ ?_ ?_ ?_
      · decide
      · rw [StaEntry.inState, hauth, hauthorized]
        rfl
      · simp [hold]
      · simp
  | assoc =>
    have hold : (s.sta j).staState = .auth ∨ (s.sta j).staState = .authorized := by
      simpa [allowedMove] using hallowed
    rcases hold with hold | hold
    · rw [hold] at hauth hassoc hauthorized
      rw [reflectMove, if_pos hold]
      dsimp only
      refine moved_updSta ?_ ?_ ?_ ?_
      · decide
      · rw [StaEntry.inState, hauth, hauthorized]
        rfl
      · simp [hold]
      · simp
    · rw [hold] at hauth hassoc hauthorized
      rw [reflectMove, if_neg (by simp [hold]), if_pos hold]
      dsimp only
      refine moved_addMcast ?_ ?_ ?_
      · decide
      · rw [StaEntry.inState, hauth, hassoc]
        rfl
      · simp [hold]
  | authorized =>
    have hold : (s.sta j).staState = .assoc := by simpa [allowedMove] using hallowed
    rw [hold] at hauth hassoc hauthorized
    have hmoved : StaMoved s (((s.vifIncNumMcast (s.sta j).sdata).updSta j fun t =>
        { t with authorized := true }).updSta j fun t => { t with staState := .authorized }) j .authorized := by
      refine moved_addMcast ?_ ?_ ?_
      · decide
      · rw [StaEntry.inState, hauth, hassoc]
        rfl
      · simp [hold]
    rw [reflectMove, if_pos hold]
    simp only
    split
    · exact hmoved
    · exact hmoved
    · exact hmoved

theorem adjacent_of_allowedMove {old : StaState} (h : allowedMove old new = true) :
    new.rank = old.rank + 1 ∨ old.rank = new.rank + 1 := by
  revert h
  cases old <;> cases new <;> decide

end Call

/-! ### Every run -/

section Run

variable {s s' s₀ : StaLocal} {j : ℕ} {new : StaState} {os : List StaOut}

theorem StaInv.of_moved (hinv : StaInv s) (hj : j ∈ s.stas) (h : StaMoved s s' j new) : StaInv s' := by
  refine ⟨fun k hk => ?_, fun i htype => ?_⟩
  · by_cases hkj : k = j
    · rw [hkj]
      exact h.consistent
    · rw [h.other k hkj]
      exact hinv.consistent k (h.stas ▸ hk)
  · rw [h.type i] at htype
    have hcount := h.count i htype
    have hcard := card_authorizedOn_change h.stas hj h.other i
    rw [hinv.count i htype] at hcount
    omega

theorem StaInv.of_sameStates (hinv : StaInv s) (h : SameStates s s') : StaInv s' := by
  have hcounts : ∀ k i, (s'.sta k).counts i = (s.sta k).counts i := by
    intro k i
    obtain ⟨u, n, heq⟩ := h.sta k
    rw [heq]
    rfl
  refine ⟨fun k hk => ?_, fun i htype => ?_⟩
  · obtain ⟨hexist, hauth, hassoc, hauthorized⟩ := hinv.consistent k (h.stas ▸ hk)
    obtain ⟨u, n, heq⟩ := h.sta k
    rw [heq]
    exact ⟨hexist, hauth, hassoc, hauthorized⟩
  · rw [h.iface] at htype ⊢
    rw [hinv.count i htype, card_authorizedOn, card_authorizedOn, h.stas]
    simp only [hcounts]

theorem StaInv.moveState {ret err : ℤ} {outs : List StaOut} (hinv : StaInv s) (hj : j ∈ s.stas)
    (h : moveState s j new ret = (err, s', outs)) :
    StaInv s' ∧ j ∈ s'.stas ∧ ((s'.sta j).staState = new ∨ s' = s) := by
  rcases moveState_cases h with ⟨-, rfl⟩ | ⟨-, -, rfl⟩ | ⟨-, hallowed, s₁, hsame, rfl⟩
  · exact ⟨hinv, hj, .inr rfl⟩
  · exact ⟨hinv, hj, .inr rfl⟩
  · have hinv₁ := hinv.of_sameStates hsame
    have hj₁ : j ∈ s₁.stas := hsame.stas ▸ hj
    rw [← hsame.staState j] at hallowed
    have hmoved := moved_reflectMove (hinv₁.consistent j hj₁) hallowed
    exact ⟨hinv₁.of_moved hj₁ hmoved, hmoved.stas ▸ hj₁, .inl hmoved.staState⟩

theorem StaInv.free (hinv : StaInv s) (h : ¬ s.Counted j) : StaInv (staInfoFree s j) := by
  refine ⟨fun k hk => hinv.consistent k (mem_of_mem_erase hk), fun i htype => ?_⟩
  have hzero : (s.sta j).counts i = 0 := by
    rw [StaEntry.counts, if_neg]
    rintro ⟨rfl, hstate⟩
    exact h ⟨hstate, htype⟩
  change (s.iface i).numMcastSta = _
  rw [hinv.count i htype, card_authorizedOn, card_authorizedOn]
  exact congrArg _ (sum_erase (f := fun k => (s.sta k).counts i) s.stas hzero).symm

theorem StaInv.inserted {check : ℤ} {up down : StaState → ℤ} (hinv : StaInv s)
    (h : (StaEvent.insert j check up down).KeepsCounted s) :
    StaInv (staInfoInsert s j check up down).2.1 := by
  have hsame := sameStates_insertDrvState s j up down
  rw [staInfoInsert]
  by_cases hcounted : s.Counted j
  · obtain ⟨hcheck, htakes⟩ := h hcounted
    rw [← hcounted.1] at htakes
    have herr := @insertDrvState_of_takes s j up down htakes
    rw [if_neg (by simpa using hcheck)]
    split
    rename_i err s₁ outs heq
    rw [heq] at herr hsame
    rw [if_neg (by simpa using herr)]
    exact hinv.of_sameStates (hsame.trans (sameStates_updSta fun t => ⟨_, _, rfl⟩))
  · split
    · exact hinv.free hcounted
    split
    rename_i err s₁ outs heq
    rw [heq] at hsame
    split
    · refine (hinv.of_sameStates hsame).free ?_
      rwa [StaLocal.Counted, hsame.staState, hsame.sdata, hsame.iface]
    · exact hinv.of_sameStates (hsame.trans (sameStates_updSta fun t => ⟨_, _, rfl⟩))

theorem StaInv.destroyAuthorized {rets : List ℤ} {outs : List StaOut} (hinv : StaInv s) (hj : j ∈ s.stas)
    (h : destroyAuthorized j rets s = some (s', outs)) :
    StaInv s' ∧ j ∈ s'.stas ∧ (s'.sta j).staState ≠ .authorized := by
  induction rets generalizing s outs with
  | nil =>
    rw [Mac80211.destroyAuthorized] at h
    split at h
    · cases h
    · rename_i hstate
      cases h
      exact ⟨hinv, hj, hstate⟩
  | cons ret rets ih =>
    rw [Mac80211.destroyAuthorized] at h
    split at h
    · obtain ⟨r, hr, heq⟩ := Option.map_eq_some_iff.mp h
      cases heq
      obtain ⟨hinv₁, hj₁, -⟩ := hinv.moveState hj (Prod.ext rfl rfl)
      exact ih hinv₁ hj₁ hr
    · rename_i hstate
      cases h
      exact ⟨hinv, hj, hstate⟩

theorem StaInv.destroyDown {rets : StaState → ℤ} {steps : List (StaState × StaState)} (hinv : StaInv s)
    (hj : j ∈ s.stas) (hstate : (s.sta j).staState ≠ .authorized) (hsteps : ∀ p ∈ steps, p.1 ≠ .authorized) :
    StaInv (destroyDown j rets steps s).1 ∧
      ((destroyDown j rets steps s).1.sta j).staState ≠ .authorized := by
  induction steps generalizing s with
  | nil => exact ⟨hinv, hstate⟩
  | cons step steps ih =>
    obtain ⟨prev, state⟩ := step
    rw [Mac80211.destroyDown]
    split
    rename_i ret s₁ outs hmove
    obtain ⟨hinv₁, hj₁, hstate₁⟩ := hinv.moveState hj hmove
    have hstate₁' : (s₁.sta j).staState ≠ .authorized := by
      rcases hstate₁ with hnew | rfl
      · rw [hnew]
        exact hsteps _ List.mem_cons_self
      · exact hstate
    split
    · exact ⟨hinv₁, hstate₁'⟩
    · exact ih hinv₁ hj₁ hstate₁' fun p hp => hsteps p (List.mem_cons_of_mem _ hp)

theorem ne_authorized_of_stepsBelow {state : StaState} :
    ∀ p ∈ ((stepsBelow state).drop 1).reverse, p.1 ≠ .authorized := by
  cases state <;> decide

theorem StaInv.destroy {rets : List ℤ} {down : StaState → ℤ} {outs : List StaOut} (hinv : StaInv s)
    (hj : j ∈ s.stas) (h : staInfoDestroy s j rets down = some (s', outs)) : StaInv s' := by
  rw [staInfoDestroy] at h
  split at h
  · cases h
  · rename_i s₁ outs₁ hloop
    obtain ⟨hinv₁, hj₁, hstate₁⟩ := hinv.destroyAuthorized hj hloop
    have hdown := @StaInv.destroyDown s₁ j down _ hinv₁ hj₁ hstate₁
      (@ne_authorized_of_stepsBelow (s₁.sta j).staState)
    split at h
    rename_i s₂ outs₂ hdown₂
    rw [hdown₂] at hdown
    split at h
    rename_i err s₃ outs₃ hdrv
    have hsame : SameStates s₂ s₃ := by
      split at hdrv
      · exact (drvStaState_cases hdrv).1
      · obtain ⟨-, rfl, -⟩ := hdrv
        exact .refl s₂
    cases h
    refine (hdown.1.of_sameStates hsame).free fun hcounted => hdown.2 ?_
    rw [← hsame.staState j]
    exact hcounted.1

theorem StaInv.alloc (hinv : StaInv s) (hj : j ∉ s.stas) (i : SdataId) (p : Bool) : StaInv { s with
      stas := insert j s.stas
      sta := Function.update s.sta j { sdata := i, supportP2pPs := p } } := by
  have hother : ∀ k ∈ s.stas, Function.update s.sta j { sdata := i, supportP2pPs := p } k = s.sta k :=
    fun k hk => update_of_ne (ne_of_mem_of_not_mem hk hj) ..
  refine ⟨fun k hk => ?_, fun i' htype => ?_⟩
  · rcases mem_insert.mp hk with rfl | hk
    · change (Function.update s.sta k { sdata := i, supportP2pPs := p } k).Consistent
      rw [update_self]
      exact ⟨le_rfl, rfl, rfl, rfl⟩
    · change (Function.update s.sta j { sdata := i, supportP2pPs := p } k).Consistent
      rw [hother k hk]
      exact hinv.consistent k hk
  · change (s.iface i').numMcastSta = _
    rw [hinv.count i' htype, card_authorizedOn, card_authorizedOn, sum_insert hj]
    have hnew : (Function.update s.sta j { sdata := i, supportP2pPs := p } j).counts i' = 0 := by
      rw [update_self, StaEntry.counts, if_neg (by simp)]
    have hsum : ∑ k ∈ s.stas, (Function.update s.sta j { sdata := i, supportP2pPs := p } k).counts i' =
        ∑ k ∈ s.stas, (s.sta k).counts i' :=
      sum_congr rfl fun k hk => by rw [hother k hk]
    rw [hnew, hsum, zero_add]

theorem StaInv.changeVlan (hinv : StaInv s) (hj : j ∈ s.stas) (i : SdataId) :
    StaInv (changeVlan s j i).1 := by
  obtain ⟨hexist, hauth, hassoc, hauthorized⟩ := hinv.consistent j hj
  -- flags and state are those of before
  have hcons : ∀ s₁ : StaLocal, s₁.sta = s.sta → s₁.stas = s.stas → ∀ k ∈ s₁.stas,
      ((s₁.updSta j fun t => { t with sdata := i }).sta k).Consistent := by
    intro s₁ hsta hstas k hk
    by_cases hkj : k = j
    · rw [hkj, StaLocal.updSta_sta_self, hsta]
      exact ⟨hexist, hauth, hassoc, hauthorized⟩
    · rw [StaLocal.updSta_sta_of_ne _ hkj, hsta]
      exact hinv.consistent k (hstas ▸ hk)
  have hcard : ∀ s₁ : StaLocal, s₁.sta = s.sta → s₁.stas = s.stas → ∀ i',
      ((s₁.updSta j fun t => { t with sdata := i }).authorizedOn i').card + (s.sta j).counts i' =
        (s.authorizedOn i').card + ({ s.sta j with sdata := i } : StaEntry).counts i' := by
    intro s₁ hsta hstas i'
    have hchange := @card_authorizedOn_change s (s₁.updSta j fun t => { t with sdata := i }) j hstas hj
      (fun k hk => by rw [StaLocal.updSta_sta_of_ne _ hk, hsta]) i'
    rwa [StaLocal.updSta_sta_self, hsta] at hchange
  rw [Mac80211.changeVlan]
  split
  · rename_i htrue
    have hstate : (s.sta j).staState = .authorized := by
      rw [htrue] at hauthorized
      have hrank := of_decide_eq_true hauthorized.symm
      revert hrank
      cases (s.sta j).staState <;> decide
    have hsta := StaLocal.addMcast_sta s (s.sta j).sdata (-1)
    have hstas := StaLocal.addMcast_stas s (s.sta j).sdata (-1)
    rw [StaLocal.vifIncNumMcast, StaLocal.vifDecNumMcast]
    refine ⟨fun k hk => ?_, fun i' htype => ?_⟩
    · rw [StaLocal.addMcast_stas] at hk
      rw [StaLocal.addMcast_sta]
      exact hcons _ hsta hstas k hk
    · rw [StaLocal.addMcast_type, StaLocal.updSta_iface, StaLocal.addMcast_type] at htype
      have hchange := hcard _ hsta hstas i'
      simp only [StaEntry.counts, hstate, and_true] at hchange
      rw [StaLocal.addMcast_numMcastSta _ _ _ (by simpa using htype), StaLocal.updSta_iface,
        StaLocal.addMcast_numMcastSta _ _ _ htype, hinv.count i' htype, StaLocal.authorizedOn_addMcast]
      by_cases hold : (s.sta j).sdata = i'
      · rw [if_pos hold] at hchange ⊢
        by_cases hnew : i = i'
        · rw [if_pos hnew] at hchange ⊢
          omega
        · rw [if_neg hnew] at hchange ⊢
          omega
      · rw [if_neg hold] at hchange ⊢
        by_cases hnew : i = i'
        · rw [if_pos hnew] at hchange ⊢
          omega
        · rw [if_neg hnew] at hchange ⊢
          omega
  · rename_i hfalse
    have hstate : (s.sta j).staState ≠ .authorized := by
      intro hstate
      rw [hstate] at hauthorized
      exact hfalse hauthorized
    refine ⟨hcons s rfl rfl, fun i' htype => ?_⟩
    have hchange := hcard s rfl rfl i'
    rw [StaEntry.counts, StaEntry.counts, if_neg fun h => hstate h.2, if_neg fun h => hstate h.2] at hchange
    change (s.iface i').numMcastSta = ((s.updSta j fun t => { t with sdata := i }).authorizedOn i').card
    rw [hinv.count i' htype]
    omega

/-- **The invariant of the machine.** -/
theorem StaInv.step {e : StaEvent} {outs : List StaOut} (hinv : StaInv s) (hkeeps : e.KeepsCounted s)
    (h : staStep s e = some (s', outs)) : StaInv s' := by
  cases e with
  | alloc j i p =>
    rw [staStep] at h
    split at h
    · cases h
    · rename_i hj
      cases h
      exact hinv.alloc hj i p
  | insert j check up down =>
    rw [staStep] at h
    split at h
    · obtain rfl := (congrArg Prod.fst (Option.some.inj h)).symm
      exact hinv.inserted hkeeps
    · cases h
  | free j =>
    rw [staStep] at h
    split at h
    · cases h
      exact hinv.free hkeeps
    · cases h
  | destroy j rets down =>
    rw [staStep] at h
    split at h
    · rename_i hj
      exact hinv.destroy hj.1 h
    · cases h
  | move j new ret =>
    rw [staStep] at h
    split at h
    · rename_i hj
      have hmove : Mac80211.moveState s j new ret = ((Mac80211.moveState s j new ret).1, s', outs) :=
        Prod.ext rfl (Option.some.inj h)
      exact (hinv.moveState hj hmove).1
    · cases h
  | vlan j i =>
    rw [staStep] at h
    split at h
    · rename_i hj
      obtain rfl := (congrArg Prod.fst (Option.some.inj h)).symm
      exact hinv.changeVlan hj i
    · cases h

/-- No stations yet. -/
structure StaLocal.Empty (s : StaLocal) : Prop where
  stas : s.stas = ∅
  numMcastSta : ∀ i, (s.iface i).numMcastSta = 0

theorem StaLocal.Empty.inv (h : s.Empty) : StaInv s := by
  refine ⟨fun j hj => ?_, fun i _ => ?_⟩
  · rw [h.stas] at hj
    exact absurd hj (notMem_empty j)
  · rw [h.numMcastSta i, card_authorizedOn, h.stas, sum_empty]
    rfl

/-- In every run that frees no counted station on the way in, the flags of each station are those of
its state, and each interface of an access point counts its authorized stations. A call that returns
an error changes nothing; one that succeeds leaves the station in the state asked for, which it was
in already or which is next to the one it was in. -/
theorem moveState_of_reach (hs₀ : s₀.Empty)
    (h : Reach staStep (fun s _ e => e.KeepsCounted s) s₀ s os) :
    (∀ j ∈ s.stas, (s.sta j).Consistent) ∧
    (∀ i, (s.iface i).type = .ap ∨ (s.iface i).type = .apVlan →
      (s.iface i).numMcastSta = (s.authorizedOn i).card) ∧
    ∀ j ∈ s.stas, ∀ new ret err s' outs, moveState s j new ret = (err, s', outs) →
      (err ≠ 0 → s' = s) ∧
      (err = 0 → (s'.sta j).staState = new ∧
        ((s.sta j).staState = new ∨ new.rank = (s.sta j).staState.rank + 1 ∨
          (s.sta j).staState.rank = new.rank + 1)) := by
  have hinv : StaInv s := h.invariant (fun s _ => StaInv s) hs₀.inv
    fun _ _ _ _ _ hinv hkeeps => hinv.step hkeeps
  refine ⟨hinv.consistent, hinv.count, fun j hj new ret err s' outs hmove => ?_⟩
  rcases moveState_cases hmove with ⟨hne, rfl⟩ | ⟨rfl, hsame, rfl⟩ | ⟨rfl, hallowed, s₁, hsame, rfl⟩
  · exact ⟨fun _ => rfl, fun h => absurd h hne⟩
  · exact ⟨fun h => absurd rfl h, fun _ => ⟨hsame, .inl hsame⟩⟩
  · refine ⟨fun h => absurd rfl h, fun _ => ⟨?_, .inr (adjacent_of_allowedMove hallowed)⟩⟩
    rw [StaLocal.updSta_sta_self]

/-- A station is authorized before it is inserted, and another one after, against a driver that
refuses once. -/
theorem moveState_of_reach_run : ∃ s : StaLocal, s.stas = {0} ∧ (s.iface 0).numMcastSta = 1 ∧
    (s.iface 0).numMcastSta = (s.authorizedOn 0).card := by
  let s₀ : StaLocal := { iface := fun _ => { type := .ap } }
  let events : List StaEvent := [.alloc 0 0 false, .move 0 .auth 0, .move 0 .assoc 0,
    .move 0 .authorized 0, .insert 0 0 (fun _ => 0) fun _ => 0, .alloc 1 0 true,
    .insert 1 0 (fun _ => 0) fun _ => 0, .move 1 .auth 0, .move 1 .assoc 0, .move 1 .authorized (-1),
    .move 1 .authorized 0, .destroy 1 [-1, 0] fun _ => 0, .alloc 2 0 false,
    .insert 2 0 (fun _ => -1) fun _ => 0]
  have hcond : Meets staStep (fun s _ e => e.KeepsCounted s) s₀ [] events := by
    decide +kernel
  have hrun : (run staStep s₀ events).map
      (fun r => (r.1.stas, (r.1.iface 0).numMcastSta, (r.1.iface 0).type)) = some ({0}, 1, .ap) := by
    decide +kernel
  obtain ⟨⟨s, os⟩, hr, hs⟩ := Option.map_eq_some_iff.mp hrun
  simp only [Prod.mk.injEq] at hs
  obtain ⟨hstas, hnum, htype⟩ := hs
  have hcount := (moveState_of_reach ⟨rfl, fun _ => rfl⟩ (Reach.of_run .init hcond hr)).2.1 0 (.inl htype)
  exact ⟨s, hstas, hnum, hcount⟩

/-- A station that is there is added once more as an authorized one: it is counted and freed, and
the counter is one too high from then on. -/
theorem freed_station_counts : ∃ s os, Reach staStep (fun _ _ _ => True)
    { iface := fun _ => { type := .ap } } s os ∧
    s.stas = ∅ ∧ (s.iface 0).type = .ap ∧ (s.iface 0).numMcastSta = 1 := by
  have hrun : (run staStep { iface := fun _ => { type := .ap } } [.alloc 0 0 false, .move 0 .auth 0,
      .move 0 .assoc 0, .move 0 .authorized 0, .insert 0 (-EEXIST) (fun _ => 0) fun _ => 0]).map
      (fun r => (r.1.stas, (r.1.iface 0).type, (r.1.iface 0).numMcastSta)) = some (∅, .ap, 1) := by
    decide +kernel
  obtain ⟨⟨s, os⟩, hr, hs⟩ := Option.map_eq_some_iff.mp hrun
  simp only [Prod.mk.injEq] at hs
  exact ⟨s, os, .of_run_init hr, hs⟩

end Run

end Mac80211
