import Mac80211.Elems.Elements
import Mac80211.Lib.Bytes
import Mac80211.Lib.ListHead
import Mac80211.Lib.Reach

/-!
# The table of BSSes

`net/wireless/scan.c`: an entry is on `bss_list` and in a tree, and goes away when its reference
count drops to 0. Of the kernel's red-black library only what it keeps in order is known.

Entries of one hidden network are in a ring, `hidden_list`; rings are told apart by labels.
`nontrans_list` is kept pointer by pointer. A buffer of elements does not change, so a pointer is
the contents and a number that tells buffers apart. `refs` is no field of the source: it has the
references that callers hold.

## Main definitions

* `Bss`, `Rdev`, `bssUpdate`
-/

namespace Mac80211

open Bytes

/-! ### Elements -/

/-- `cfg80211_find_ie`: the data of the first element with this ID. -/
def findIeAux (eid : UInt8) : ℕ → List UInt8 → Option (List UInt8)
  | n + 1, id :: len :: rest =>
    if rest.length < len.toNat then none
    else if id = eid then some (rest.take len.toNat)
    else findIeAux eid n (rest.drop len.toNat)
  | _, _ => none

@[inherit_doc findIeAux]
def findIe (eid : UInt8) (ies : List UInt8) : Option (List UInt8) := findIeAux eid ies.length ies

def WLAN_EID_MESH_CONFIG : UInt8 := 113
def WLAN_EID_MESH_ID : UInt8 := 114

/-! ### The state -/

/-- `struct cfg80211_bss_ies`. -/
structure BssIes where
  /-- Which buffer it is. -/
  id : ℕ := 0
  data : List UInt8
  tsf : UInt64 := 0
deriving DecidableEq

/-- `struct ieee80211_channel`. -/
structure Channel where
  centerFreq : ℕ
  /-- `NL80211_BAND_60GHZ`. -/
  is60Ghz : Bool := false
deriving DecidableEq

/-- `struct cfg80211_internal_bss`. -/
structure Bss where
  bssid : Mac
  channel : Channel
  scanWidth : ℕ := 0
  capability : UInt16 := 0
  /-- One of the two below, whichever was told last or is preferred. -/
  ies : Option BssIes := none
  beaconIes : Option BssIes := none
  proberespIes : Option BssIes := none
  ts : UInt64 := 0
  hiddenBeaconBss : Option ℕ := none
  transmittedBss : Option ℕ := none
  refcount : ℤ := 0
  hold : ℤ := 0
  /-- The ring of `hidden_list` it is in. -/
  ring : ℕ := 0

/-- `ieee80211_bss_get_ie`. -/
def Bss.getIe (b : Bss) (eid : UInt8) : Option (List UInt8) := b.ies.bind fun ies => findIe eid ies.data

/-- The shape of `bss_tree`. -/
inductive BssTree
  | nil
  | node (left : BssTree) (b : ℕ) (right : BssTree)

/-- The entries from left to right. -/
def BssTree.toList : BssTree → List ℕ
  | nil => []
  | node l b r => l.toList ++ b :: r.toList

/-- `linux/rbtree.h`: colours and rotations do not change the order. -/
structure RbLib where
  /-- `rb_insert_color`, after `rb_link_node`. -/
  insertColor : BssTree → BssTree
  /-- `rb_erase`. -/
  erase : BssTree → ℕ → BssTree
  toList_insertColor : ∀ t, (insertColor t).toList = t.toList
  toList_erase : ∀ t b, (erase t b).toList = t.toList.erase b

/-- `struct cfg80211_registered_device`, as far as BSSes go. -/
structure Rdev where
  bss : ℕ → Bss := fun _ => { bssid := Vector.replicate 6 0, channel := ⟨0, false⟩ }
  /-- The entries that have not been freed. -/
  live : Finset ℕ := ∅
  bssList : List ℕ := []
  bssTree : BssTree := .nil
  bssEntries : ℤ := 0
  /-- The `nontrans_list` of each entry. -/
  nontrans : ListHead.Heads ℕ := ⟨id, id⟩
  /-- The buffers that have been freed, each as often as it was. -/
  freed : List ℕ := []
  /-- No buffer has this number or a larger one. -/
  freshIes : ℕ := 0
  /-- No entry and no ring has this label or a larger one. -/
  fresh : ℕ := 0
  /-- The references that callers hold. -/
  refs : ℕ → ℕ := fun _ => 0

namespace Rdev

variable (s : Rdev)

/-- Change one entry. -/
def upd (b : ℕ) (f : Bss → Bss) : Rdev := { s with bss := Function.update s.bss b (f (s.bss b)) }

/-- Add to `refcount`. -/
def addRef (b : ℕ) (n : ℤ) : Rdev := s.upd b fun e => { e with refcount := e.refcount + n }

/-- `kfree_rcu`, of a buffer if there is one. -/
def kfree (ies : Option BssIes) : Rdev := { s with freed := s.freed ++ (ies.map BssIes.id).toList }

/-- `list_empty(&bss->hidden_list)`. -/
def hiddenListEmpty (b : ℕ) : Bool := ∀ c ∈ s.live, c ≠ b → (s.bss c).ring ≠ (s.bss b).ring

/-- `list_del_init(&bss->hidden_list)`. -/
def hiddenListDel (b : ℕ) : Rdev :=
  { s.upd b fun e => { e with ring := s.fresh } with fresh := s.fresh + 1 }

end Rdev

/-! ### References -/

/-- `bss_ref_get`. -/
def bssRefGet (s : Rdev) (b : ℕ) : Rdev :=
  let s := s.addRef b 1
  let (s, b) := match (s.bss b).hiddenBeaconBss with
    | some h => (s.addRef h 1, h)
    | none => (s, b)
  -- the variable now stands for the hidden beacon, if there is one
  match (s.bss b).transmittedBss with
  | some t => s.addRef t 1
  | none => s

/-- The buffers that are freed with an entry. The elements of a beacon belong to the entry of the hidden
beacon, if there is one. -/
def Bss.ownIes (e : Bss) : List ℕ :=
  (if e.hiddenBeaconBss.isNone then (e.beaconIes.map BssIes.id).toList else []) ++
    (e.proberespIes.map BssIes.id).toList

/-- `bss_free`. -/
def bssFree (s : Rdev) (b : ℕ) : Rdev :=
  if (s.bss b).hold ≠ 0 then s
  else
    { s with
      live := s.live.erase b
      freed := s.freed ++ (s.bss b).ownIes }

/-- Take one off the count, and free the entry if nothing is left. -/
def bssDecRef (s : Rdev) (b : ℕ) : Rdev :=
  let s := s.addRef b (-1)
  if (s.bss b).refcount = 0 then bssFree s b else s

/-- `bss_ref_put`. -/
def bssRefPut (s : Rdev) (b : ℕ) : Rdev :=
  let s := match (s.bss b).hiddenBeaconBss with
    | some h => bssDecRef s h
    | none => s
  let s := match (s.bss b).transmittedBss with
    | some t => bssDecRef s t
    | none => s
  bssDecRef s b

/-- `__cfg80211_unlink_bss`. -/
def unlinkBss (lib : RbLib) (s : Rdev) (b : ℕ) : Rdev × Bool :=
  if !s.hiddenListEmpty b && (s.bss b).hiddenBeaconBss.isNone then (s, false)
  else
    let s := if s.hiddenListEmpty b then s else s.hiddenListDel b
    let s := { s with
      bssList := s.bssList.erase b
      nontrans := s.nontrans.delInit b
      bssTree := lib.erase s.bssTree b
      bssEntries := s.bssEntries - 1 }
    (bssRefPut s b, true)

/-- `__cfg80211_bss_expire`. -/
def bssExpire (lib : RbLib) (s : Rdev) (expireTime : UInt64) : Rdev :=
  s.bssList.foldl (fun s b =>
    if (s.bss b).hold ≠ 0 then s
    else if !timeAfter expireTime (s.bss b).ts then s
    else (unlinkBss lib s b).1) s

/-- The choice of `cfg80211_bss_expire_oldest`. -/
def oldestBss (s : Rdev) : Option ℕ :=
  s.bssList.foldl (fun oldest b =>
    if (s.bss b).hold ≠ 0 then oldest
    else if !s.hiddenListEmpty b && (s.bss b).hiddenBeaconBss.isNone then oldest
    else if oldest.any fun o => timeAfter (s.bss b).ts (s.bss o).ts then oldest
    else some b) none

/-- `cfg80211_bss_expire_oldest`. -/
def bssExpireOldest (lib : RbLib) (s : Rdev) : Rdev × Bool :=
  match oldestBss s with
  | none => (s, false)
  | some b => unlinkBss lib s b

/-! ### Lookups -/

/-- `enum bss_compare_mode`. -/
inductive BssCmp
  | regular
  | hideZlen
  | hideNul
deriving DecidableEq

/-- By length, longer first, and then by contents. -/
def cmpLen (ie₁ ie₂ : List UInt8) : Ordering :=
  if ie₁.length ≠ ie₂.length then compare ie₂.length ie₁.length else memcmp ie₁ ie₂

/-- `WLAN_CAPABILITY_IS_STA_BSS`. -/
def isStaBss (capability : UInt16) : Bool := capability &&& 0x3 = 0

/-- `cmp_bss`, from the BSSIDs on. -/
def cmpBssid (a b : Bss) (aIes bIes : List UInt8) (mode : BssCmp) : Ordering :=
  match memcmp a.bssid.toList b.bssid.toList with
  | .eq =>
    match findIe WLAN_EID_SSID aIes, findIe WLAN_EID_SSID bIes with
    | none, none => .eq
    | none, some _ => .lt
    | some _, none => .gt
    | some ie₁, some ie₂ =>
      match mode with
      | .regular => cmpLen ie₁ ie₂
      -- we assume the BSS entry we're looking for has a zero-length SSID
      | .hideZlen => compare ie₂.length 0
      | .hideNul =>
        if ie₁.length ≠ ie₂.length then compare ie₂.length ie₁.length
        else if ie₂.all (· = 0) then .eq
        else .lt
  | o => o

/-- `cmp_bss`. -/
def cmpBss (a b : Bss) (mode : BssCmp) : Ordering :=
  if a.channel ≠ b.channel then compare b.channel.centerFreq a.channel.centerFreq
  else
    match a.ies, b.ies with
    | none, _ => .lt
    | some _, none => .gt
    | some ⟨_, aIes, _⟩, some ⟨_, bIes, _⟩ =>
      let id₁ := if isStaBss a.capability then findIe WLAN_EID_MESH_ID aIes else none
      let id₂ := if isStaBss b.capability then findIe WLAN_EID_MESH_ID bIes else none
      match id₁, id₂ with
      | some id₁, some id₂ =>
        match findIe WLAN_EID_MESH_CONFIG aIes, findIe WLAN_EID_MESH_CONFIG bIes with
        | some conf₁, some conf₂ => (cmpLen id₁ id₂).then (cmpLen conf₁ conf₂)
        | _, _ => cmpBssid a b aIes bIes mode
      | _, _ => cmpBssid a b aIes bIes mode

/-- The descent of `rb_find_bss`. -/
def BssTree.find (cmp : ℕ → Ordering) : BssTree → Option ℕ
  | nil => none
  | node l b r =>
    match cmp b with
    | .eq => some b
    | .lt => l.find cmp
    | .gt => r.find cmp

/-- `rb_find_bss`. -/
def rbFindBss (s : Rdev) (res : Bss) (mode : BssCmp) : Option ℕ :=
  s.bssTree.find fun b => cmpBss res (s.bss b) mode

/-- The descent of `rb_insert_bss`; none if there is an equal entry. -/
def BssTree.insert (cmp : ℕ → Ordering) (n : ℕ) : BssTree → Option BssTree
  | nil => some (node nil n nil)
  | node l b r =>
    match cmp b with
    | .eq => none
    | .lt => (l.insert cmp n).map fun l => node l b r
    | .gt => (r.insert cmp n).map fun r => node l b r

/-- `rb_insert_bss`. -/
def rbInsertBss (lib : RbLib) (s : Rdev) (n : ℕ) : Rdev :=
  match s.bssTree.insert (fun b => cmpBss (s.bss n) (s.bss b) .regular) n with
  | some t => { s with bssTree := lib.insertColor t }
  | none => s

/-- `enum ieee80211_bss_type`. -/
inductive BssType
  | ess
  | pbss
  | ibss
  | mbss
  | any
deriving DecidableEq

/-- `cfg80211_bss_type_match`. -/
def bssTypeMatch (capability : UInt16) (is60Ghz : Bool) : BssType → Bool
  | .any => true
  | .ess => capability &&& 0x3 = if is60Ghz then 0x3 else 0x1
  | .pbss => is60Ghz && capability &&& 0x3 = 0x2
  | .ibss => capability &&& 0x3 = if is60Ghz then 0x1 else 0x2
  | .mbss => !is60Ghz && capability &&& 0x3 = 0

/-- What `cfg80211_get_bss` is asked for. -/
structure BssQuery where
  channel : Option Channel := none
  bssid : Option Mac := none
  ssid : Option (List UInt8) := none
  bssType : BssType := .any
  /-- `IEEE80211_PRIVACY_ON`, `IEEE80211_PRIVACY_OFF`, or any. -/
  privacy : Option Bool := none
  now : UInt64 := 0
  hz : UInt64 := 250

/-- `is_bss`. -/
def isBss (a : Bss) (bssid : Option Mac) (ssid : Option (List UInt8)) : Bool :=
  bssid.all (fun bssid => a.bssid = bssid) &&
    ssid.all fun ssid => a.getIe WLAN_EID_SSID = some ssid

/-- The entry that `cfg80211_get_bss` is looking for. -/
def BssQuery.isWanted (q : BssQuery) (b : Bss) : Bool :=
  bssTypeMatch b.capability b.channel.is60Ghz q.bssType &&
  q.privacy.all (fun on => on = (b.capability &&& 0x10 ≠ 0 : Bool)) &&
  q.channel.all (fun channel => b.channel = channel) &&
  (!isMulticastEtherAddr b.bssid && b.bssid ≠ Vector.replicate 6 0) &&
  !(timeAfter q.now (b.ts + 30 * q.hz) && b.hold = 0) &&
  isBss b q.bssid q.ssid

/-- `cfg80211_get_bss`. -/
def getBss (s : Rdev) (q : BssQuery) : Rdev × Option ℕ :=
  match s.bssList.find? fun b => q.isWanted (s.bss b) with
  | some b => (bssRefGet s b, some b)
  | none => (s, none)

/-! ### Updates -/

/-- What is told of a BSS: `tmp` of `cfg80211_bss_update`. -/
structure InformBss where
  bssid : Mac
  channel : Channel
  scanWidth : ℕ := 0
  capability : UInt16 := 0
  /-- The elements are those of a probe response. -/
  isProberesp : Bool
  ies : BssIes
  ts : UInt64 := 0
  transmittedBss : Option ℕ := none

/-- The entry made of it. Nothing reads `transmitted_bss` before it is set again, in `linkBss`. -/
def InformBss.toBss (tmp : InformBss) : Bss where
  bssid := tmp.bssid
  channel := tmp.channel
  scanWidth := tmp.scanWidth
  capability := tmp.capability
  ies := some tmp.ies
  beaconIes := if tmp.isProberesp then none else some tmp.ies
  proberespIes := if tmp.isProberesp then some tmp.ies else none
  ts := tmp.ts

/-- The end of `cfg80211_update_known_bss`. -/
def refreshBss (tmp : InformBss) (known : Bss) : Bss :=
  { known with
    capability := tmp.capability
    ts := tmp.ts }

/-- `cfg80211_update_known_bss`, and whether it has not dropped the information. -/
def updateKnownBss (s : Rdev) (known : ℕ) (tmp : InformBss) : Rdev × Bool :=
  let e := s.bss known
  if tmp.isProberesp then
    let s := s.upd known fun e =>
      refreshBss tmp { e with
        proberespIes := some tmp.ies
        ies := some tmp.ies }
    (s.kfree e.proberespIes, true)
  else if e.hiddenBeaconBss.isSome && !s.hiddenListEmpty known then (s.kfree (some tmp.ies), false)
  else
    let ies := if e.beaconIes = e.ies then some tmp.ies else e.ies
    let s := { s with
      bss := fun b =>
        if b ∈ s.live ∧ (s.bss b).ring = e.ring then { s.bss b with beaconIes := some tmp.ies }
        else s.bss b }
    let s := s.upd known fun e =>
      refreshBss tmp { e with
        beaconIes := some tmp.ies
        ies := ies }
    (s.kfree e.beaconIes, true)

/-- The SSID of a hidden network: there, but empty or all zeros. -/
def hiddenSsid (ies : List UInt8) : Option (List UInt8) :=
  (findIe WLAN_EID_SSID ies).filter fun ssid => ssid.all (· = 0)

/-- The entry is a probe response that belongs to this hidden beacon. -/
def combines (s : Rdev) (tmp : InformBss) (ssid : List UInt8) (b : ℕ) : Bool :=
  let e := s.bss b
  e.bssid = tmp.bssid && e.channel = tmp.channel && e.scanWidth = tmp.scanWidth &&
  e.beaconIes.isNone &&
  (e.getIe WLAN_EID_SSID).any (fun ie => ssid = [] || ie.length = ssid.length) &&
  e.hiddenBeaconBss.isNone

/-- Combine them. -/
def combineBss (s : Rdev) (tmp : InformBss) (new b : ℕ) : Rdev :=
  let count := (s.bss b).refcount
  let ring := (s.bss new).ring
  let s := s.upd b fun e =>
    { e with
      ring := ring
      hiddenBeaconBss := some new
      beaconIes := some tmp.ies }
  s.addRef new count

/-- `cfg80211_combine_bsses`. -/
def combineBsses (s : Rdev) (tmp : InformBss) (new : ℕ) : Rdev :=
  match hiddenSsid tmp.ies.data with
  | none => s
  | some ssid =>
    s.bssList.foldl (fun s b => if combines s tmp ssid b then combineBss s tmp new b else s) s

/-- The beacon entry a probe response belongs to. -/
def hiddenBeaconFor (s : Rdev) (tmp : InformBss) : Option ℕ :=
  rbFindBss s tmp.toBss .hideZlen <|> rbFindBss s tmp.toBss .hideNul

/-- A probe response joins its hidden beacon. -/
def joinHidden (s : Rdev) (new hidden : ℕ) : Rdev :=
  let h := s.bss hidden
  let s := s.upd new fun e =>
    { e with
      hiddenBeaconBss := some hidden
      ring := h.ring
      beaconIes := h.beaconIes }
  s.addRef hidden 1

/-- A new entry. -/
def allocBss (s : Rdev) (tmp : InformBss) : Rdev :=
  { s with
    fresh := s.fresh + 1
    live := insert s.fresh s.live
    nontrans := s.nontrans.init s.fresh
    bss := Function.update s.bss s.fresh { tmp.toBss with refcount := 1, ring := s.fresh } }

/-- A new entry, linked to those of its group. -/
def newBss (s : Rdev) (tmp : InformBss) : Rdev :=
  if tmp.isProberesp then
    match hiddenBeaconFor s tmp with
    | some hidden => joinHidden (allocBss s tmp) s.fresh hidden
    | none => allocBss s tmp
  else combineBsses (allocBss s tmp) tmp s.fresh

/-- The entry is put on the list and in the tree. -/
def linkBss (lib : RbLib) (s : Rdev) (tmp : InformBss) (new : ℕ) : Rdev :=
  let s := match tmp.transmittedBss with
    | some p => bssRefGet (s.upd new fun e => { e with transmittedBss := some p }) p
    | none => s
  let s := { s with
    bssList := s.bssList ++ [new]
    bssEntries := s.bssEntries + 1 }
  bssRefGet (rbInsertBss lib s new) new

/-- `cfg80211_bss_update`; `alloc` says that there is memory. -/
def bssUpdate (lib : RbLib) (limit : ℤ) (s : Rdev) (tmp : InformBss) (alloc : Bool) :
    Rdev × Option ℕ :=
  match rbFindBss s tmp.toBss .regular with
  | some found =>
    let (s, known) := updateKnownBss s found tmp
    if known then (bssRefGet s found, some found) else (s, none)
  | none =>
    if !alloc then (s.kfree (some tmp.ies), none)
    else
      let new := s.fresh
      let s := newBss s tmp
      let (s, room) := if limit ≤ s.bssEntries then bssExpireOldest lib s else (s, true)
      if room then (linkBss lib s tmp new, some new)
      -- nobody frees the elements
      else ({ s with live := s.live.erase new }, none)

/-! ### The table as a machine -/

/-- What can happen. -/
inductive BssOp
  | update (tmp : InformBss) (alloc : Bool)
  | get (q : BssQuery)
  /-- `cfg80211_ref_bss`. -/
  | ref (b : ℕ)
  /-- `cfg80211_put_bss`. -/
  | put (b : ℕ)
  | unlink (b : ℕ)
  | expire (expireTime : UInt64)
  /-- `cfg80211_hold_bss`. -/
  | hold (b : ℕ)
  /-- `cfg80211_unhold_bss`. -/
  | unhold (b : ℕ)

/-- A caller gets a reference. -/
def Rdev.handOut (r : Rdev × Option ℕ) : Rdev :=
  match r.2 with
  | some b => { r.1 with refs := Function.update r.1.refs b (r.1.refs b + 1) }
  | none => r.1

/-- `cfg80211_hold_bss`, `cfg80211_unhold_bss`. -/
def addHold (s : Rdev) (b : ℕ) (n : ℤ) : Rdev :=
  let s := s.upd b fun e => { e with hold := e.hold + n }
  match (s.bss b).transmittedBss with
  | some t => s.upd t fun e => { e with hold := e.hold + n }
  | none => s

/-- One step. Callers only name entries that are there, give back what they hold, and hold the BSS
that transmits for the one they tell of. -/
def bssStep (lib : RbLib) (limit : ℤ) (s : Rdev) : BssOp → Option (Rdev × List Empty)
  | .update tmp alloc =>
    if ∀ p ∈ tmp.transmittedBss, 0 < s.refs p then
      some (Rdev.handOut (bssUpdate lib limit s tmp alloc), [])
    else none
  | .get q => some (Rdev.handOut (getBss s q), [])
  | .ref b => if b ∈ s.live then some (Rdev.handOut (bssRefGet s b, some b), []) else none
  | .put b =>
    if 0 < s.refs b then
      some (bssRefPut { s with refs := Function.update s.refs b (s.refs b - 1) } b, [])
    else none
  | .unlink b => if b ∈ s.bssList then some ((unlinkBss lib s b).1, []) else none
  | .expire expireTime => some (bssExpire lib s expireTime, [])
  | .hold b => if b ∈ s.live then some (addHold s b 1, []) else none
  | .unhold b => if b ∈ s.live ∧ (s.bss b).hold ≠ 0 then some (addHold s b (-1), []) else none

end Mac80211
