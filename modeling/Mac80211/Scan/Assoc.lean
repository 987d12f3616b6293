import Mac80211.Scan.Nontransmitted

/-!
# The BSS of a connection changes its channel

`cfg80211_update_assoc_bss_entry` changes the channel of an entry that is in the tree. An entry for
the BSS on the new channel is taken over and goes with all on its list; the entry and those it
transmits for are put into the tree again.

## Main definitions

* `updateAssocBssEntry`, `tableStep`
-/

namespace Mac80211

open ListHead

/-- What an entry tells of its BSS: its probe response, or its beacon. -/
def Bss.told (e : Bss) : Option InformBss :=
  let tmp := fun isProberesp ies =>
    { bssid := e.bssid, channel := e.channel, scanWidth := e.scanWidth, capability := e.capability,
      isProberesp, ies, ts := e.ts : InformBss }
  match e.proberespIes, e.beaconIes with
  | some ies, _ => some (tmp true ies)
  | none, some ies => some (tmp false ies)
  | none, none => none

/-- `cfg80211_update_known_bss`, with what an entry has. -/
def updateFromEntry (s : Rdev) (known new : ℕ) : Rdev × Bool :=
  match (s.bss new).told with
  | some tmp => updateKnownBss s known tmp
  | none => (s.upd known fun e => { e with capability := (s.bss new).capability, ts := (s.bss new).ts }, true)

/-- The entry of the BSS on its new channel. -/
def assocNew (s : Rdev) (c : ℕ) (bssType : BssType) : Option ℕ :=
  s.bssList.find? fun b =>
    bssTypeMatch (s.bss b).capability (s.bss b).channel.is60Ghz bssType && b ≠ c &&
      cmpBss (s.bss b) (s.bss c) .regular = .eq

/-- What it has is taken over, and it goes with all that are on its list. -/
def unlinkNew (lib : RbLib) (s : Rdev) (c new : ℕ) : Option Rdev :=
  let (s, known) := updateFromEntry s c new
  let s := if known then s.upd new fun e => { e with proberespIes := none, beaconIes := none } else s
  let first := s.nontrans.next new
  (forEachSafe Rdev.nontrans (fun s m => (unlinkBss lib s m).1) new s.fuel s first
    (s.nontrans.next first)).map fun s => (unlinkBss lib s new).1

/-- `rb_erase` and `rb_insert_bss`. -/
def reinsertBss (lib : RbLib) (s : Rdev) (b : ℕ) : Rdev :=
  rbInsertBss lib { s with bssTree := lib.erase s.bssTree b } b

/-- An entry gets a channel. -/
def setChannel (s : Rdev) (channel : Channel) (b : ℕ) : Rdev := s.upd b fun e => { e with channel := channel }

/-- The entry is put into the tree again, and so are those on its list. -/
def moveBss (lib : RbLib) (s : Rdev) (channel : Channel) (c : ℕ) : Option Rdev :=
  let s := reinsertBss lib s c
  (walk s.nontrans c s.fuel (s.nontrans.next c)).map fun ms =>
    ms.foldl (fun s m => reinsertBss lib (setChannel s channel m) m) s

/-- `cfg80211_update_assoc_bss_entry`, for `current_bss`. -/
def updateAssocBssEntry (lib : RbLib) (s : Rdev) (cur : ℕ) (channel : Channel) (bssType : BssType) :
    Option Rdev :=
  if (s.bss cur).channel = channel then some s
  else
    let c := (s.bss cur).transmittedBss.getD cur
    let s := setChannel s channel c
    (match assocNew s c bssType with
      | some new => unlinkNew lib s c new
      | none => some s).bind fun s => moveBss lib s channel c

/-! ### The table as a machine -/

/-- What can happen. -/
inductive TableOp
  | table (op : BssOp)
  /-- `cfg80211_update_notlisted_nontrans`. -/
  | notlisted (b : ℕ) (frame : MbssFrame)
  /-- `cfg80211_update_assoc_bss_entry`. -/
  | assoc (cur : ℕ) (channel : Channel) (bssType : BssType)

/-- One step. Who is connected holds the entry of the BSS. -/
def tableStep (lib : RbLib) (limit : ℤ) (s : Rdev) : TableOp → Option (Rdev × List Empty)
  | .table op => bssStep lib limit s op
  | .notlisted b frame => if b ∈ s.live then some (updateNotlisted s b frame, []) else none
  | .assoc cur channel bssType =>
    if 0 < s.refs cur then
      (updateAssocBssEntry lib s cur channel bssType).map fun s => (s, [])
    else none

end Mac80211
