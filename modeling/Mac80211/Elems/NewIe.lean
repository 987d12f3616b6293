import Mac80211.Elems.Elements

/-!
# Elements for a BSS that is not transmitted

`cfg80211_gen_new_ie`: the SSID of the profile, the elements of the frame that are inherited, and
the rest of the profile. An element that has been copied gets the ID of an SSID in a copy of the
profile. A function whose result is `none` has read behind the end of a buffer.

## Main definitions

* `genNewIe`, `GeneratesRight`
-/

namespace Mac80211

def WLAN_EID_VENDOR_SPECIFIC : UInt8 := 221
def WLAN_EID_EXT_NON_INHERITANCE : UInt8 := 56

/-- `IEEE80211_MAX_DATA_LEN`. -/
def IEEE80211_MAX_DATA_LEN : ℕ := 2304

/-- `cfg80211_is_element_inherited`, also if the profile has no Non-Inheritance element. -/
def isInherited (e : Elem) (nonInherit : Option Elem) : Option Bool :=
  match nonInherit with
  | none => some (e.id ≠ WLAN_EID_MULTIPLE_BSSID)
  | some nonInherit => isElementInherited e nonInherit

/-- What `memcmp` looks at: the OUI, the type and the subtype. -/
def vendorPrefix (bytes : List UInt8) : Option (List UInt8) :=
  if bytes.length < 5 then none else some (bytes.take 5)

/-- `tmp`: the element of the copy of the profile that one of the frame is compared with. -/
def lookupElement (id : UInt8) (rest subCopy : List UInt8) : Option (Option Elem) :=
  if id = WLAN_EID_EXTENSION then (rest[0]?).map fun ext => findExtElem ext (elements 0 subCopy)
  else some (findElem id (elements 0 subCopy))

/-- One element of the frame: what is copied, and the copy of the profile after it. -/
def mergeElement (nonInherit : Option Elem) (id len : UInt8) (rest subCopy : List UInt8) :
    Option (List UInt8 × List UInt8) :=
  let old := id :: len :: rest.take len.toNat
  match lookupElement id rest subCopy with
  | none => none
  | some none =>
    (isInherited ⟨0, id, rest⟩ nonInherit).map fun inherited => (if inherited then old else [], subCopy)
  | some (some tmp) =>
    let copied := ((subCopy.drop tmp.off).take (tmp.data.length + 2), subCopy.set tmp.off WLAN_EID_SSID)
    if id = WLAN_EID_VENDOR_SPECIFIC then
      match vendorPrefix rest, vendorPrefix (subCopy.drop tmp.pos) with
      | some oldVendor, some newVendor => some (if oldVendor = newVendor then copied else (old, subCopy))
      | _, _ => none
    else some copied

/-- The loop over the frame, from what is behind the SSID on. -/
def mergeLoopOld (nonInherit : Option Elem) : List UInt8 → List UInt8 → Option (List UInt8 × List UInt8)
  | id :: len :: rest, subCopy =>
    if rest.length < len.toNat then some ([], subCopy)
    else if id = WLAN_EID_SSID then mergeLoopOld nonInherit (len :: rest) subCopy
    else
      match mergeElement nonInherit id len rest subCopy with
      | none => none
      | some (copied, subCopy) =>
        if rest.length = len.toNat then some (copied, subCopy)
        else
          (mergeLoopOld nonInherit (rest.drop len.toNat) subCopy).map fun (copied', subCopy) =>
            (copied ++ copied', subCopy)
  | _, _ => none
termination_by bytes => bytes.length
decreasing_by
  · simp only [List.length_cons]
    omega
  · simp only [List.length_drop, List.length_cons]
    omega

/-- The loop over the copy of the profile, for what has not been copied yet. -/
def copyLeft : List UInt8 → Option (List UInt8)
  | id :: len :: rest =>
    if rest.length < len.toNat then some []
    else
      let copied :=
        if id = WLAN_EID_NON_TX_BSSID_CAP || id = WLAN_EID_SSID then []
        else id :: len :: rest.take len.toNat
      if rest.length = len.toNat then some copied
      else (copyLeft (rest.drop len.toNat)).map (copied ++ ·)
  | _ => none
termination_by bytes => bytes.length
decreasing_by
  simp only [List.length_drop, List.length_cons]
  omega

/-- `cfg80211_gen_new_ie`, if there is memory for the copy of the profile: what is written to `new_ie`. -/
def genNewIe (ie subelement : List UInt8) : Option (List UInt8) := do
  let ssid := (findElem WLAN_EID_SSID (elements 0 subelement)).elim [] Elem.bytes
  let nonInherit := findExtElem WLAN_EID_EXT_NON_INHERITANCE (elements 0 subelement)
  let old := (findElem WLAN_EID_SSID (elements 0 ie)).elim ie fun e => ie.drop e.stop
  let (merged, subCopy) ← mergeLoopOld nonInherit old subelement
  let left ← copyLeft subCopy
  return ssid ++ merged ++ left

/-! ### What should come out -/

/-- An element that fits. -/
structure InfoElement where
  id : UInt8
  data : List UInt8
  fits : data.length < 256
deriving DecidableEq

namespace InfoElement

variable (e : InfoElement)

/-- The bytes of an element. -/
def bytes : List UInt8 := e.id :: UInt8.ofNat e.data.length :: e.data

/-- The element at an offset. -/
def found (off : ℕ) : Elem := ⟨off, e.id, e.data⟩

end InfoElement

/-- A well-formed list of elements. -/
def encode (es : List InfoElement) : List UInt8 := es.flatMap InfoElement.bytes

/-- The Non-Inheritance element of a profile. -/
def nonInheritance (sub : List InfoElement) : Option Elem :=
  (sub.find? fun e => e.id = WLAN_EID_EXTENSION && e.data.head? = some WLAN_EID_EXT_NON_INHERITANCE).map (·.found 0)

/-- An element that the profile inherits, if it does not override it. -/
def Inherits (sub : List InfoElement) (e : InfoElement) : Prop :=
  isInherited (e.found 0) (nonInheritance sub) = some true

/-- An element of a profile overrides one that has the same ID; with the same extension, or from the same
vendor. -/
def InfoElement.Overrides (new old : InfoElement) : Prop :=
  new.id = old.id ∧ (old.id = WLAN_EID_EXTENSION → new.data.head? = old.data.head?) ∧
    (old.id = WLAN_EID_VENDOR_SPECIFIC → new.data.take 5 = old.data.take 5)

/-- The element of the profile is one for the new BSS. -/
def InfoElement.isOwn (e : InfoElement) : Bool := e.id ≠ WLAN_EID_SSID && e.id ≠ WLAN_EID_NON_TX_BSSID_CAP

/-- **What should come out**: the SSID of the profile, the elements of the frame that are inherited
and not overridden, and those of the profile but the SSID and the Nontransmitted-BSSID-Capability,
as often as they are there; with no read or write outside. -/
def GeneratesRight (ie sub : List InfoElement) : Prop :=
  ∃ es : List InfoElement, genNewIe (encode ie) (encode sub) = some (encode es) ∧
    (encode es).length ≤ IEEE80211_MAX_DATA_LEN ∧
    (∀ ssid, sub.find? (·.id = WLAN_EID_SSID) = some ssid → es.head? = some ssid) ∧
    (∀ e ∈ ie, Inherits sub e → (∀ new ∈ sub, ¬new.Overrides e) → e ∈ es) ∧
    ∀ e ∈ sub, e.isOwn → es.count e = sub.count e

end Mac80211
