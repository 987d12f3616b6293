import Mac80211.Elems.Elements

/-!
# Parsing the elements of a management frame

`_ieee802_11_parse_elems_crc` and `ieee802_11_parse_elems_crc` of `net/mac80211/util.c`. A profile
that is asked for is put together in a temporary buffer, and the same parser goes through it. Most
kinds of elements differ only in the field and the check of the length: `elemKind` is the table of
these. A pointer is a buffer and an offset into it.

## Main definitions

* `Elems`, `elemKind`, `parseElem`
-/

namespace Mac80211

/-! ### The result -/

/-- The pointers of `struct ieee802_11_elems`. -/
inductive ElemField
  | lnkId | chSwTiming | extCapab | ssid | suppRates | dsParams | tim | challenge | rsn | erpInfo
  | extSuppRates | wmmInfo | wmmParam | htCapElem | htOperation | vhtCapElem | vhtOperation
  | meshConfig | heCap | heOperation | heSpr | muEdcaParamSet | uoraElement | meshId | peering
  | awakeWindow | preq | prep | perr | rann | chSwitchIe | extChanswIe | wideBwChanswIe
  | maxChannelSwitchTime | countryElem | pwrConstrElem | ciscoDtpcElem | timeoutInt | opmodeNotif
  | secChanOffs | meshChanswParamsIe | maxIdlePeriodIe | mbssidConfigIe | bssidIndex | addbaExtIe
deriving DecidableEq

/-- The buffers there are. -/
inductive ElemBuf
  | frame
  /-- `nontransmitted_profile`, which is freed before the parser returns. -/
  | profile
deriving DecidableEq

structure ElemPtr where
  buf : ElemBuf
  off : ℕ
deriving DecidableEq

/-- `struct ieee802_11_elems`. -/
structure Elems where
  ptr : ElemField → Option ElemPtr := fun _ => none
  /-- The lengths that go with some of the pointers; nothing reads the others. -/
  len : ElemField → ℕ := fun _ => 0
  dtimCount : UInt8 := 0
  dtimPeriod : UInt8 := 0
  parseError : Bool := false

/-! ### One element -/

/-- How an element is checked. -/
inductive ElemKind
  /-- Any length, which is stored with the pointer. -/
  | any (f : ElemField)
  /-- At least so long, else it is an error; the flag says that it counts for the checksum. -/
  | atLeast (f : ElemField) (n : ℕ) (crc : Bool)
  /-- At least so long, else it is ignored. -/
  | ifAtLeast (f : ElemField) (n : ℕ)
  | exactly (f : ElemField) (n : ℕ)
  | linkId
  | wideBw
  | wrapper
  | vendor
  | cisco
  | extension
  | unknown

/-- The `switch` over the element IDs. -/
def elemKind (id : UInt8) : ElemKind :=
  match id.toNat with
  | 0 => .any .ssid
  | 1 => .any .suppRates
  | 3 => .atLeast .dsParams 1 false
  | 5 => .atLeast .tim 4 false
  | 7 => .any .countryElem
  | 16 => .any .challenge
  | 32 => .exactly .pwrConstrElem 1
  | 37 => .exactly .chSwitchIe 3
  | 42 => .atLeast .erpInfo 1 false
  | 45 => .atLeast .htCapElem 26 false
  | 48 => .any .rsn
  | 50 => .any .extSuppRates
  | 56 => .atLeast .timeoutInt 5 false
  | 60 => .exactly .extChanswIe 4
  | 61 => .atLeast .htOperation 22 false
  | 62 => .exactly .secChanOffs 1
  | 90 => .ifAtLeast .maxIdlePeriodIe 3
  | 101 => .linkId
  | 104 => .exactly .chSwTiming 4
  | 113 => .atLeast .meshConfig 7 false
  | 114 => .any .meshId
  | 117 => .any .peering
  | 118 => .exactly .meshChanswParamsIe 6
  | 119 => .ifAtLeast .awakeWindow 2
  | 126 => .atLeast .rann 21 false
  | 127 => .any .extCapab
  | 130 => .any .preq
  | 131 => .any .prep
  | 132 => .any .perr
  | 150 => .cisco
  | 159 => .exactly .addbaExtIe 1
  | 191 => .atLeast .vhtCapElem 12 false
  | 192 => .atLeast .vhtOperation 5 true
  | 194 => .wideBw
  | 196 => .wrapper
  | 199 => .atLeast .opmodeNotif 1 true
  | 221 => .vendor
  | 255 => .extension
  | _ => .unknown

/-- The IDs of which a second element is an error. -/
def onceOnly : List UInt8 :=
  [0, 1, 2, 3, 4, 5, 6, 16, 48, 42, 50, 45, 61, 191, 192, 114, 113, 117, 130, 131, 132, 126, 37, 60, 7,
    32, 56, 62, 194, 118, 127, 104, 101, 90]

/-- What the parser makes of one element. -/
structure Parsed where
  /-- The pointer that is stored: its field, the offset and the length. -/
  store : Option (ElemField × ℕ × ℕ) := none
  /-- `elem_parse_failed`. -/
  failed : Bool := false
  /-- The element counts for the checksum whatever the filter says. -/
  crc : Bool := false

/-- `le32_to_cpu` of the first bytes. -/
def le32? (bs : List UInt8) : Option ℕ := do
  let b0 ← bs[0]?
  let b1 ← bs[1]?
  let b2 ← bs[2]?
  let b3 ← bs[3]?
  return b0.toNat + 256 * b1.toNat + 65536 * b2.toNat + 16777216 * b3.toNat

/-- `ieee80211_he_oper_size`, with the extension ID. -/
def heOperSize (bs : List UInt8) : Option ℕ := do
  let params ← le32? bs
  return 6 + (if params.testBit 14 then 3 else 0) + (if params.testBit 15 then 1 else 0) +
    (if params.testBit 17 then 4 else 0) + 1

/-- `ieee80211_he_spr_size`, with the extension ID. -/
def heSprSize (bs : List UInt8) : Option ℕ := do
  let params ← bs[0]?
  return 1 + (if params.toNat.testBit 2 then 1 else 0) + (if params.toNat.testBit 3 then 18 else 0) + 1

/-- `WLAN_EID_EXTENSION`: the first byte says which. -/
def parseExtension (e : Elem) : Option Parsed := do
  let elen := e.data.length
  let ext ← e.data[0]?
  -- HE MU EDCA
  if ext = 38 ∧ 14 ≤ elen then
    return { store := some (.muEdcaParamSet, e.pos + 1, elen), crc := true }
  -- HE capability
  else if ext = 35 then return { store := some (.heCap, e.pos + 1, elen - 1) }
  -- HE operation
  else if ext = 36 ∧ 6 ≤ elen then
    let size ← heOperSize (e.data.drop 1)
    return if size ≤ elen then { store := some (.heOperation, e.pos + 1, elen) } else {}
  -- UORA
  else if ext = 37 ∧ 1 ≤ elen then return { store := some (.uoraElement, e.pos + 1, elen) }
  -- max channel switch time
  else if ext = 52 ∧ elen = 4 then return { store := some (.maxChannelSwitchTime, e.pos + 1, elen) }
  -- multiple BSSID configuration
  else if ext = 55 ∧ elen = 3 then return { store := some (.mbssidConfigIe, e.pos + 1, elen) }
  -- HE spatial reuse
  else if ext = 39 ∧ 1 ≤ elen then
    let size ← heSprSize (e.data.drop 1)
    return if size ≤ elen then { store := some (.heSpr, e.pos + 1, elen) } else {}
  else return {}

/-- `WLAN_EID_VENDOR_SPECIFIC`: the two WMM elements. -/
def parseVendor (e : Elem) : Option Parsed :=
  let elen := e.data.length
  if elen < 4 then some {}
  else do
    let b0 ← e.data[0]?
    let b1 ← e.data[1]?
    let b2 ← e.data[2]?
    let b3 ← e.data[3]?
    if b0 ≠ 0x00 ∨ b1 ≠ 0x50 ∨ b2 ≠ 0xf2 then return {}
    else if elen < 5 ∨ b3 ≠ 2 then return { crc := true }
    else
      let b4 ← e.data[4]?
      if b4 = 0 then return { store := some (.wmmInfo, e.pos, elen), crc := true }
      else if b4 = 1 then return { store := some (.wmmParam, e.pos, elen), crc := true }
      else return { crc := true }

/-- `WLAN_EID_CISCO_VENDOR_SPECIFIC`: dynamic transmit power control. -/
def parseCisco (e : Elem) : Option Parsed :=
  let elen := e.data.length
  if elen < 4 then some { failed := true }
  else do
    let b0 ← e.data[0]?
    let b1 ← e.data[1]?
    let b2 ← e.data[2]?
    let b3 ← e.data[3]?
    if b0 ≠ 0x00 ∨ b1 ≠ 0x40 ∨ b2 ≠ 0x96 ∨ b3 ≠ 0x00 then return {}
    else if elen ≠ 6 then return { failed := true }
    else return { store := some (.ciscoDtpcElem, e.pos, elen), crc := true }

/-- `WLAN_EID_CHANNEL_SWITCH_WRAPPER`: only one of the elements in it is looked for. -/
def parseWrapper (action : Bool) (e : Elem) : Parsed :=
  if action then { failed := true }
  else
    match findElem WLAN_EID_WIDE_BW_CHANNEL_SWITCH (elements e.pos e.data) with
    | none => {}
    | some ie =>
      if ie.data.length = 3 then { store := some (.wideBwChanswIe, ie.pos, ie.data.length) }
      else { failed := true }

/-- The second `switch` of `_ieee802_11_parse_elems_crc`. -/
def parseElem (action : Bool) (e : Elem) : Option Parsed :=
  let elen := e.data.length
  match elemKind e.id with
  | .any f => some { store := some (f, e.pos, elen) }
  | .atLeast f n crc =>
    some (if n ≤ elen then { store := some (f, e.pos, elen), crc := crc } else { failed := true })
  | .ifAtLeast f n => some (if n ≤ elen then { store := some (f, e.pos, elen) } else {})
  | .exactly f n =>
    some (if elen = n then { store := some (f, e.pos, elen) } else { failed := true })
  | .linkId =>
    some (if elen + 2 = 20 then { store := some (.lnkId, e.off, elen) } else { failed := true })
  | .wideBw =>
    some (if action ∧ elen = 3 then { store := some (.wideBwChanswIe, e.pos, elen) }
      else { failed := true })
  | .wrapper => some (parseWrapper action e)
  | .vendor => parseVendor e
  | .cisco => parseCisco e
  | .extension => parseExtension e
  | .unknown => some {}

/-! ### One pass -/

namespace Elems

/-- A pointer is stored. -/
def put (el : Elems) (buf : ElemBuf) : Option (ElemField × ℕ × ℕ) → Elems
  | none => el
  | some (f, off, len) =>
    { el with
      ptr := Function.update el.ptr f (some ⟨buf, off⟩)
      len := Function.update el.len f len }

/-- An error, if there was one. -/
def note (el : Elems) (failed : Bool) : Elems := { el with parseError := el.parseError || failed }

end Elems

section Pass

variable (crc32Be : UInt32 → List UInt8 → UInt32) (action : Bool) (filter : UInt64)
variable (checkInherit : Option Elem) (buf : ElemBuf)

/-- The element is passed over. -/
def skipsElem (e : Elem) : Option Bool :=
  match checkInherit with
  | none => some false
  | some nonInherit => (isElementInherited e nonInherit).map not

/-- The checksum over an element that counts. -/
def addCrc (counts : Bool) (crc : UInt32) (e : Elem) : UInt32 :=
  if filter ≠ 0 ∧ counts then crc32Be crc e.bytes else crc

/-- The filter selects the element. -/
def filtered (e : Elem) : Bool := e.id < 64 && filter >>> e.id.toUInt64 &&& 1 = 1

/-- The loop of `_ieee802_11_parse_elems_crc`. -/
def parseLoop : List Elem → List UInt8 → Elems → UInt32 → Option (Elems × UInt32)
  | [], _, el, crc => some (el, crc)
  | e :: es, seen, el, crc => do
    let skip ← skipsElem checkInherit e
    if skip then parseLoop es seen el crc
    else if e.id ∈ onceOnly ∧ e.id ∈ seen then parseLoop es seen (el.note true) crc
    else
      let crc' := addCrc crc32Be filter (filtered filter e) crc e
      let p ← parseElem action e
      parseLoop es (if p.failed then seen else e.id :: seen) ((el.put buf p.store).note p.failed)
        (addCrc crc32Be filter p.crc crc' e)

/-- `_ieee802_11_parse_elems_crc`. -/
def parsePass (bytes : List UInt8) (el : Elems) (crc : UInt32) : Option (Elems × UInt32) := do
  let (el, crc) ← parseLoop crc32Be action filter checkInherit buf (elements 0 bytes) [] el crc
  return (el.note (!elementsCompleted bytes), crc)

end Pass

/-! ### The profile of a BSS -/

/-- `nontransmitted_profile` and `bssid_index`. -/
structure Profile where
  bytes : List UInt8 := []
  /-- Where the index is in the buffer, and `bssid_index_len`. -/
  index : Option (ℕ × ℕ) := none

/-- The inner loop of `ieee802_11_find_bssid_profile`, over the subelements that are left. -/
def findProfileSubs (frame : List UInt8) (transmitter bss : Mac) (mbssid : Elem) :
    List Elem → Profile → Option Profile
  | [], p => some p
  | sub :: subs, p =>
    if sub.id ≠ 0 ∨ sub.data.length < 4 then findProfileSubs frame transmitter bss mbssid subs p
    else do
      let cap ← sub.data[0]?
      let capLen ← sub.data[1]?
      if cap ≠ WLAN_EID_NON_TX_BSSID_CAP ∨ capLen ≠ 2 then
        findProfileSubs frame transmitter bss mbssid subs p
      else
        let bytes ← mergeProfile frame mbssid sub frame.length
        match findElem WLAN_EID_MULTI_BSSID_IDX (elements 0 bytes) with
        | none => findProfileSubs frame transmitter bss mbssid subs { p with bytes := bytes }
        | some index =>
          match index.data with
          | [] => findProfileSubs frame transmitter bss mbssid subs { p with bytes := bytes }
          | i :: _ =>
            if i = 0 then findProfileSubs frame transmitter bss mbssid subs { p with bytes := bytes }
            else
              let maxBssid ← mbssid.data[0]?
              if genNewBssid transmitter maxBssid i = bss then
                return { bytes := bytes, index := some (index.pos, index.data.length) }
              else findProfileSubs frame transmitter bss mbssid subs { p with bytes := bytes }

/-- The outer loop, over the elements that are left. A profile that was found does not end it. -/
def findProfileElems (frame : List UInt8) (transmitter bss : Mac) :
    List Elem → Profile → Option Profile
  | [], p => some p
  | e :: es, p =>
    if e.id ≠ WLAN_EID_MULTIPLE_BSSID ∨ e.data.length < 2 then
      findProfileElems frame transmitter bss es p
    else do
      let p ← findProfileSubs frame transmitter bss e (elements (e.pos + 1) (e.data.drop 1)) p
      findProfileElems frame transmitter bss es p

/-- `ieee802_11_find_bssid_profile`. Without an index no profile was found. -/
def findBssidProfile (frame : List UInt8) (transmitter bss : Option Mac) : Option Profile :=
  match transmitter, bss with
  | some transmitter, some bss =>
    (findProfileElems frame transmitter bss (elements 0 frame) {}).map fun p =>
      if p.index.isSome then p else {}
  | _, _ => some {}

/-! ### The whole parser -/

/-- The bytes of a buffer. The temporary one is as long as the frame, with zeros at its end. -/
def ElemBuf.read (frame : List UInt8) (p : Profile) : ElemBuf → ℕ → Option UInt8
  | .frame, off => frame[off]?
  | .profile, off => (p.bytes ++ List.replicate (frame.length - p.bytes.length) 0)[off]?

/-- The DTIM count and period of the TIM element. -/
def setDtim (frame : List UInt8) (p : Profile) (el : Elems) : Option Elems :=
  match el.ptr .tim with
  | none => some el
  | some tim =>
    if el.parseError then some el
    else do
      let period ← tim.buf.read frame p (tim.off + 1)
      let count ← tim.buf.read frame p tim.off
      return { el with dtimPeriod := period, dtimCount := count }

/-- They are overridden by those of the profile. -/
def overrideDtim (frame : List UInt8) (p : Profile) (el : Elems) : Option Elems :=
  match el.ptr .bssidIndex with
  | none => some el
  | some index => do
    let period ← (if 2 ≤ el.len .bssidIndex then index.buf.read frame p (index.off + 1)
      else some el.dtimPeriod : Option UInt8)
    let count ← (if 3 ≤ el.len .bssidIndex then index.buf.read frame p (index.off + 2)
      else some el.dtimCount : Option UInt8)
    return { el with dtimPeriod := period, dtimCount := count }

/-- `ieee802_11_parse_elems_crc`; `alloc` says that there is memory for the profile. -/
def parseElemsCrc (crc32Be : UInt32 → List UInt8 → UInt32) (frame : List UInt8) (action : Bool)
    (filter : UInt64) (crc : UInt32) (transmitter bss : Option Mac) (alloc : Bool) :
    Option (Elems × UInt32) := do
  let p ← (if alloc then findBssidProfile frame transmitter bss else some {} : Option Profile)
  let el : Elems := Elems.put {} .profile (p.index.map fun (off, len) => (.bssidIndex, off, len))
  let nonInherit := findExtElem 56 (elements 0 p.bytes)
  let (el, crc) ← parsePass crc32Be action filter nonInherit .frame frame el crc
  let el ← (if p.bytes = [] then some el
    else (parsePass crc32Be action 0 none .profile p.bytes el 0).map Prod.fst : Option Elems)
  let el ← setDtim frame p el
  let el ← overrideDtim frame p el
  return (el, crc)

end Mac80211
