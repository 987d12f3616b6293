import Mac80211.Frame

/-!
# Information elements

`for_each_element` of `include/linux/ieee80211.h`, and how `net/wireless/scan.c` takes elements of a
frame for one of several BSSes. An element keeps the offset it was found at. Bytes are read with
`data[i]?`: a function whose result is `none` has read behind the element.

## Main definitions

* `Elem`, `elements`, `findElem`
-/

namespace Mac80211

open List

/-! ### The loop -/

/-- `struct element`, and where it is. -/
structure Elem where
  /-- The offset of the header. -/
  off : ℕ
  id : UInt8
  data : List UInt8
deriving DecidableEq

namespace Elem

/-- The offset of the data. -/
def pos (e : Elem) : ℕ := e.off + 2

/-- The offset behind the element. -/
def stop (e : Elem) : ℕ := e.pos + e.data.length

/-- The element with its header. -/
def bytes (e : Elem) : List UInt8 := e.id :: UInt8.ofNat e.data.length :: e.data

end Elem

/-- `for_each_element` over what is left of a buffer at an offset. -/
def elements (off : ℕ) : List UInt8 → List Elem
  | id :: len :: rest =>
    if rest.length < len.toNat then []
    else
      ⟨off, id, rest.take len.toNat⟩ :: elements (off + 2 + len.toNat) (rest.drop len.toNat)
  | _ => []
termination_by bytes => bytes.length
decreasing_by simp only [length_drop, length_cons]; omega

/-- `for_each_element_completed`. -/
def elementsCompleted : List UInt8 → Bool
  | [] => true
  | _ :: len :: rest =>
    if rest.length < len.toNat then false else elementsCompleted (rest.drop len.toNat)
  | _ => false
termination_by bytes => bytes.length
decreasing_by simp only [length_drop, length_cons]; omega

/-- `cfg80211_find_elem`. -/
def findElem (eid : UInt8) (es : List Elem) : Option Elem := es.find? fun e => e.id = eid

/-- `cfg80211_find_ext_elem`. -/
def findExtElem (ext : UInt8) (es : List Elem) : Option Elem :=
  es.find? fun e => e.id = 255 && e.data.head? = some ext

theorem elem_end_le {off : ℕ} {bytes : List UInt8} {e : Elem} (h : e ∈ elements off bytes) :
    off ≤ e.off ∧ e.stop ≤ off + bytes.length := by
  fun_induction elements off bytes with
  | case1 => simp at h
  | case2 off id len rest hlen ih =>
    rw [mem_cons] at h
    rcases h with rfl | h
    · simp only [Elem.stop, Elem.pos, length_take, length_cons]
      omega
    · have := ih h
      simp only [length_drop, length_cons] at this ⊢
      omega
  | case3 => simp at h

theorem elements_pairwise (off : ℕ) (bytes : List UInt8) :
    (elements off bytes).Pairwise fun a b => a.stop ≤ b.off := by
  fun_induction elements off bytes with
  | case1 => exact .nil
  | case2 off id len rest hlen ih =>
    refine .cons (fun b hb => ?_) ih
    have hb := (elem_end_le hb).1
    simp only [Elem.stop, Elem.pos, length_take]
    omega
  | case3 => exact .nil

theorem eq_or_disjoint {off : ℕ} {bytes : List UInt8} {a b : Elem} (ha : a ∈ elements off bytes)
    (hb : b ∈ elements off bytes) : a = b ∨ a.stop ≤ b.off ∨ b.stop ≤ a.off := by
  have hpair := elements_pairwise off bytes
  generalize elements off bytes = es at ha hb hpair
  induction hpair with
  | nil => cases ha
  | cons hfirst _ ih =>
    rw [mem_cons] at ha hb
    rcases ha with rfl | ha <;> rcases hb with rfl | hb
    · exact .inl rfl
    · exact .inr (.inl (hfirst b hb))
    · exact .inr (.inr (hfirst a ha))
    · exact ih ha hb

/-! ### Non-transmitted profiles -/

def WLAN_EID_SSID : UInt8 := 0
def WLAN_EID_MULTIPLE_BSSID : UInt8 := 71
def WLAN_EID_NON_TX_BSSID_CAP : UInt8 := 83
def WLAN_EID_MULTI_BSSID_IDX : UInt8 := 85
def WLAN_EID_WIDE_BW_CHANNEL_SWITCH : UInt8 := 194
def WLAN_EID_EXTENSION : UInt8 := 255

/-- `cfg80211_is_element_inherited`: the element is not on the list of its kind. -/
def isElementInherited (e nonInherit : Elem) : Option Bool :=
  if e.id = WLAN_EID_MULTIPLE_BSSID then some false
  else if nonInherit.data.length < 2 then some true
  else do
    let idLen := (← nonInherit.data[1]?).toNat
    if nonInherit.data.length < 3 + idLen then return true
    else
      let extIdLen := (← nonInherit.data[2 + idLen]?).toNat
      if nonInherit.data.length < 3 + idLen + extIdLen then return true
      else if e.id = WLAN_EID_EXTENSION then
        if extIdLen = 0 then return true
        else
          let id ← e.data[0]?
          return !((nonInherit.data.drop (3 + idLen)).take extIdLen).contains id
      else if idLen = 0 then return true
      else return !((nonInherit.data.drop 2).take idLen).contains e.id

/-- `ether_addr_to_u64`. -/
def etherAddrToU64 (a : Mac) : UInt64 := a.toList.foldl (fun n b => n <<< 8 ||| b.toUInt64) 0

/-- `u64_to_ether_addr`. -/
def u64ToEtherAddr (n : UInt64) : Mac :=
  #v[(n >>> 40).toUInt8, (n >>> 32).toUInt8, (n >>> 24).toUInt8, (n >>> 16).toUInt8,
    (n >>> 8).toUInt8, n.toUInt8]

/-- `cfg80211_gen_new_bssid`. The shift of `GENMASK_ULL` has six bits. -/
def genNewBssid (bssid : Mac) (maxBssid index : UInt8) : Mac :=
  let mask : UInt64 := (0xffffffffffffffff : UInt64) >>> (64 - maxBssid.toUInt64)
  let n := etherAddrToU64 bssid
  u64ToEtherAddr ((n &&& ~~~mask) ||| (((n &&& mask) + index.toUInt64) &&& mask))

/-- `cfg80211_get_profile_continuation`: the data of the subelement that goes on with a profile. -/
def getProfileContinuation (frame : List UInt8) (mbssid sub : Elem) : Option (Option (List UInt8)) :=
  let next := findElem WLAN_EID_MULTIPLE_BSSID (elements mbssid.stop (frame.drop mbssid.stop))
  match next with
  | none => some none
  | some next =>
    if sub.stop < mbssid.stop - 1 then some none
    else if next.data.length < 4 then some none
    else do
      let id ← next.data[1]?
      let len := (← next.data[2]?).toNat
      if next.data.length < 3 + len then return none
      else if id ≠ 0 || len < 2 then return none
      else
        let first ← next.data[3]?
        if first = WLAN_EID_NON_TX_BSSID_CAP then return none
        else return some ((next.data.drop 3).take len)

/-- The loop of `cfg80211_merge_profile`, which asks for the same continuation every time. -/
def mergeLoop (frame : List UInt8) (mbssid sub : Elem) (maxCopyLen : ℕ) :
    ℕ → List UInt8 → Option (List UInt8)
  | 0, merged => some merged
  | n + 1, merged => do
    match ← getProfileContinuation frame mbssid sub with
    | none => return merged
    | some next =>
      if maxCopyLen < merged.length + next.length then return merged
      else mergeLoop frame mbssid sub maxCopyLen n (merged ++ next)

/-- `cfg80211_merge_profile`. Each round adds two bytes at least. -/
def mergeProfile (frame : List UInt8) (mbssid sub : Elem) (maxCopyLen : ℕ) : Option (List UInt8) :=
  if maxCopyLen < sub.data.length then some []
  else mergeLoop frame mbssid sub maxCopyLen maxCopyLen sub.data

end Mac80211
