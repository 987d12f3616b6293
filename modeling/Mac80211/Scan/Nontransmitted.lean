import Mac80211.Scan.Update

/-!
# BSSes that another one transmits for

A BSS in a profile gets an entry on the `nontrans_list` of the one that transmits for it
(`cfg80211_inform_single_bss_data`, `cfg80211_add_nontrans_list`); those of which a frame tells
nothing get elements made of the frame's own. BSSID and elements of a profile are any. The loops
over a list run on what is there; if they do not end, nor does the function.

## Main definitions

* `informNontrans`, `notlistedIes`, `updateNotlistedAll`
-/

namespace Mac80211

open Bytes ListHead

/-! ### Profiles -/

/-- The entries there can be, and one more. -/
def Rdev.fuel (s : Rdev) : ℕ := s.fresh + 1

/-- `cfg80211_add_nontrans_list`, and whether it has not failed. -/
def addNontransList (s : Rdev) (t b : ℕ) : Option (Rdev × Bool) :=
  match (s.bss b).getIe WLAN_EID_SSID with
  | none => some (s, false)
  | some ssid =>
    (find s.nontrans t (fun m => isBss (s.bss m) (some (s.bss b).bssid) (some ssid)) s.fuel
      (s.nontrans.next t)).map fun found =>
        (if found then s else { s with nontrans := s.nontrans.addTail b t }, true)

/-- What is told of a BSS that `t` transmits for. -/
def InformBss.transmittedBy (tmp : InformBss) (s : Rdev) (t : ℕ) : InformBss :=
  { tmp with
    transmittedBss := some t
    ts := (s.bss t).ts }

/-- `cfg80211_inform_single_bss_data`, for a BSS that `t` transmits for. The caller gets the reference
that comes with the update. -/
def informNontrans (lib : RbLib) (limit : ℤ) (s : Rdev) (t : ℕ) (tmp : InformBss) (alloc : Bool) :
    Option Rdev :=
  let r := bssUpdate lib limit s (tmp.transmittedBy s t) alloc
  let s := Rdev.handOut r
  match r.2 with
  | none => some s
  | some b =>
    (addNontransList s t b).map fun (s, added) => if added then s else (unlinkBss lib s b).1

/-! ### What a frame does not tell of -/

/-- `cfg80211_find_ie`: where the first element with this ID is. -/
def findIePosAux (eid : UInt8) : ℕ → ℕ → List UInt8 → Option ℕ
  | n + 1, pos, id :: len :: rest =>
    if rest.length < len.toNat then none
    else if id = eid then some pos
    else findIePosAux eid n (pos + 2 + len.toNat) (rest.drop len.toNat)
  | _, _, _ => none

@[inherit_doc findIePosAux]
def findIePos (eid : UInt8) (ies : List UInt8) : Option ℕ := findIePosAux eid ies.length 0 ies

/-- The elements that `cfg80211_update_notlisted_nontrans` makes: those of the frame, with another
SSID and without the Multiple BSSID element. -/
def notlistedIes (ie ssid : List UInt8) : Option (List UInt8) :=
  match findIePos WLAN_EID_SSID ie, findIePos WLAN_EID_MULTIPLE_BSSID ie with
  | some transSsid, some mbssid =>
    if mbssid < transSsid then none
    else
      let len := fun pos => (ie.getD (pos + 1) 0).toNat
      let cpyLen := fun n => (n + 2) % 256
      let newIeLen := ie.length - len transSsid - len mbssid + ssid.length
      let between := transSsid + cpyLen (len transSsid)
      let newIe :=
        (WLAN_EID_SSID :: ssid.length.toUInt8 :: ssid).take (cpyLen ssid.length) ++
        (ie.drop between).take (mbssid - between) ++
        ie.drop (mbssid + cpyLen (len mbssid))
      some ((newIe ++ List.replicate newIeLen 0).take newIeLen)
  | _, _ => none

/-- A beacon or a probe response, as far as `cfg80211_update_notlisted_nontrans` looks at it. -/
structure MbssFrame where
  isProberesp : Bool
  ie : List UInt8
  tsf : UInt64 := 0
  /-- There is memory. -/
  alloc : Bool := true

/-- `cfg80211_update_notlisted_nontrans`. -/
def updateNotlisted (s : Rdev) (b : ℕ) (frame : MbssFrame) : Rdev :=
  match ((s.bss b).getIe WLAN_EID_SSID).bind (notlistedIes frame.ie) with
  | none => s
  | some data =>
    if !frame.alloc then s
    else
      let e := s.bss b
      let ies : BssIes := ⟨s.freshIes, data, frame.tsf⟩
      let s := { s with freshIes := s.freshIes + 1 }
      if frame.isProberesp then
        (s.upd b fun e => { e with
          proberespIes := some ies
          ies := some ies }).kfree e.proberespIes
      else
        (s.upd b fun e => { e with
          beaconIes := some ies
          ies := some ies }).kfree e.beaconIes

/-- The elements of the entry are older. -/
def Rdev.iesBefore (s : Rdev) (b : ℕ) (tsf : UInt64) : Bool := (s.bss b).ies.any fun ies => ies.tsf < tsf

/-- The end of `cfg80211_inform_bss_frame_data`: go through the list of the BSS that has sent the
frame. -/
def updateNotlistedAll (s : Rdev) (t : ℕ) (frame : MbssFrame) : Option Rdev :=
  (walk s.nontrans t s.fuel (s.nontrans.next t)).map fun ms =>
    ms.foldl (fun s' m =>
      if (s.bss t).ies.any fun ies => s'.iesBefore m ies.tsf then updateNotlisted s' m frame else s') s

/-! ### Unlinking -/

/-- `cfg80211_unlink_bss`. -/
def unlinkWithNontrans (lib : RbLib) (s : Rdev) (b : ℕ) : Option Rdev :=
  if b ∉ s.bssList then some s
  else
    let first := s.nontrans.next b
    (forEachSafe Rdev.nontrans (fun s m => (unlinkBss lib s m).1) b s.fuel s first
      (s.nontrans.next first)).map fun s => (unlinkBss lib s b).1

/-! ### The table as a machine -/

/-- What can happen. -/
inductive MbssOp
  /-- A frame of a BSS, or what callers do. -/
  | table (op : BssOp)
  /-- A profile in a frame of this BSS. -/
  | profile (t : ℕ) (tmp : InformBss) (alloc : Bool)
  /-- The rest of what is on the list of this BSS. -/
  | notlisted (t : ℕ) (frame : MbssFrame)
  /-- `cfg80211_unlink_bss`. -/
  | unlink (b : ℕ)

/-- What is told of BSSes that others transmit for is told in profiles, and single entries are not
unlinked from outside. -/
def BssOp.isPlain : BssOp → Bool
  | .update tmp _ => tmp.transmittedBss.isNone
  | .unlink _ => false
  | _ => true

/-- One step. The BSS that has sent a frame is held until the frame has been looked at. -/
def mbssStep (lib : RbLib) (limit : ℤ) (s : Rdev) : MbssOp → Option (Rdev × List Empty)
  | .table op => if op.isPlain then bssStep lib limit s op else none
  | .profile t tmp alloc =>
    if 0 < s.refs t then
      (informNontrans lib limit s t tmp alloc).map fun s => (s, [])
    else none
  | .notlisted t frame =>
    if 0 < s.refs t then (updateNotlistedAll s t frame).map fun s => (s, []) else none
  | .unlink b => if b ∈ s.live then (unlinkWithNontrans lib s b).map fun s => (s, []) else none

end Mac80211
