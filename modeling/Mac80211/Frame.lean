import Mathlib.Data.UInt

/-!
# 802.11 frames

`include/linux/ieee80211.h` and `ieee80211_hdrlen`: the header, the frame control predicates, and
the fields at a computed offset.

Only a four-address frame has a fourth address: in every other frame the bytes at offset 24 are the
QoS control field, the cipher header or the body. So `Hdr.rest` is the memory from offset 24 on, and
`hdr->addr4` its first six bytes. Frame control and sequence control are the numbers `le16_to_cpu`
gives.

## Main definitions

* `Hdr`, `hdrlen`
-/

namespace Mac80211

/-- An Ethernet address, `u8[ETH_ALEN]`. -/
abbrev Mac := Vector UInt8 6

/-- The addresses in examples. -/
def localMac (last : UInt8) : Mac := #v[2, 0, 0, 0, 0, last]

instance neZeroFour : NeZero 4 := ⟨by decide⟩
instance neZeroSixteen : NeZero 16 := ⟨by decide⟩

/-- `is_multicast_ether_addr`. -/
def isMulticastEtherAddr (a : Mac) : Bool := a[0]! &&& 0x01 ≠ 0

/-- `is_local_ether_addr`: the locally administered bit. -/
def isLocalEtherAddr (a : Mac) : Bool := a[0]! &&& 0x02 ≠ 0

/-- `time_after(a, b)`: jiffies wrap around. -/
def timeAfter (a b : UInt64) : Bool := 2 ^ 63 ≤ (b - a).toNat

/-! ### Frame control -/

def FCTL_FTYPE : UInt16 := 0x000c
def FCTL_STYPE : UInt16 := 0x00f0
def FCTL_TODS : UInt16 := 0x0100
def FCTL_FROMDS : UInt16 := 0x0200
def FCTL_MOREFRAGS : UInt16 := 0x0400
def FCTL_RETRY : UInt16 := 0x0800
def FCTL_PM : UInt16 := 0x1000
def FCTL_MOREDATA : UInt16 := 0x2000
def FCTL_PROTECTED : UInt16 := 0x4000
def FCTL_ORDER : UInt16 := 0x8000

def FTYPE_MGMT : UInt16 := 0x0000
def FTYPE_CTL : UInt16 := 0x0004
def FTYPE_DATA : UInt16 := 0x0008

def STYPE_NULLFUNC : UInt16 := 0x0040
def STYPE_PROBE_REQ : UInt16 := 0x0040
def STYPE_DISASSOC : UInt16 := 0x00A0
def STYPE_DEAUTH : UInt16 := 0x00C0
def STYPE_ACTION : UInt16 := 0x00D0
def STYPE_QOS_DATA : UInt16 := 0x0080
def STYPE_QOS_NULLFUNC : UInt16 := 0x00C0

def SCTL_FRAG : UInt16 := 0x000F
def SCTL_SEQ : UInt16 := 0xFFF0

/-- `FCS_LEN`. -/
def FCS_LEN : ℕ := 4

/-- `IEEE80211_NUM_TIDS`. -/
def NUM_TIDS : ℕ := 16

def hasTods (fc : UInt16) : Bool := fc &&& FCTL_TODS ≠ 0
def hasFromds (fc : UInt16) : Bool := fc &&& FCTL_FROMDS ≠ 0
def hasA4 (fc : UInt16) : Bool := fc &&& (FCTL_TODS ||| FCTL_FROMDS) = FCTL_TODS ||| FCTL_FROMDS
def hasMorefrags (fc : UInt16) : Bool := fc &&& FCTL_MOREFRAGS ≠ 0
def hasProtected (fc : UInt16) : Bool := fc &&& FCTL_PROTECTED ≠ 0
def hasOrder (fc : UInt16) : Bool := fc &&& FCTL_ORDER ≠ 0
def isMgmt (fc : UInt16) : Bool := fc &&& FCTL_FTYPE = FTYPE_MGMT
def isCtl (fc : UInt16) : Bool := fc &&& FCTL_FTYPE = FTYPE_CTL
def isData (fc : UInt16) : Bool := fc &&& FCTL_FTYPE = FTYPE_DATA

/-- `ieee80211_is_data_qos`: one bit of the subtype decides. -/
def isDataQos (fc : UInt16) : Bool :=
  fc &&& (FCTL_FTYPE ||| STYPE_QOS_DATA) = FTYPE_DATA ||| STYPE_QOS_DATA

/-- `ieee80211_is_data_present`: a data frame whose subtype carries data. -/
def isDataPresent (fc : UInt16) : Bool := fc &&& (FCTL_FTYPE ||| 0x40) = FTYPE_DATA

/-- The subtype tests compare type and subtype at once. -/
def isSubtype (ftype stype fc : UInt16) : Bool :=
  fc &&& (FCTL_FTYPE ||| FCTL_STYPE) = ftype ||| stype

def isProbeReq : UInt16 → Bool := isSubtype FTYPE_MGMT STYPE_PROBE_REQ
def isDisassoc : UInt16 → Bool := isSubtype FTYPE_MGMT STYPE_DISASSOC
def isDeauth : UInt16 → Bool := isSubtype FTYPE_MGMT STYPE_DEAUTH
def isAction : UInt16 → Bool := isSubtype FTYPE_MGMT STYPE_ACTION
def isQosNullfunc : UInt16 → Bool := isSubtype FTYPE_DATA STYPE_QOS_NULLFUNC

/-- `ieee80211_hdrlen`. -/
def hdrlen (fc : UInt16) : ℕ :=
  if isData fc then
    (if hasA4 fc then 30 else 24) +
      (if isDataQos fc then 2 + (if hasOrder fc then 4 else 0) else 0)
  else if isMgmt fc then
    24 + (if hasOrder fc then 4 else 0)
  else if isCtl fc then
    if fc &&& 0x00E0 = 0x00C0 then 10 else 16
  else 24

theorem hdrlen_of_isData {fc : UInt16} (h : isData fc = true) : 24 ≤ hdrlen fc := by
  rw [hdrlen, if_pos h]
  split <;> omega

/-- A data frame with a fourth address. -/
def fourAddr (fc : UInt16) : Bool := isData fc && hasA4 fc

theorem hdrlen_of_fourAddr {fc : UInt16} (h : fourAddr fc = true) : 30 ≤ hdrlen fc := by
  obtain ⟨hdata, ha4⟩ := Bool.and_eq_true_iff.mp h
  rw [hdrlen, if_pos hdata, if_pos ha4]
  omega

theorem or_and_of_disjoint {fc flag mask : UInt16} (h : flag &&& mask = 0) :
    (fc ||| flag) &&& mask = fc &&& mask := by
  have hdistrib : (fc ||| flag) &&& mask = (fc &&& mask) ||| (flag &&& mask) := by
    rw [← UInt16.toBitVec_inj]
    exact BitVec.and_or_distrib_right
  rw [hdistrib, h, UInt16.or_zero]

theorem clear_and_of_subset {fc flag mask : UInt16} (h : ~~~flag &&& mask = mask) :
    fc &&& ~~~flag &&& mask = fc &&& mask := by
  rw [UInt16.and_assoc, h]

theorem fourAddr_or {fc flag : UInt16}
    (h : flag &&& FCTL_FTYPE = 0 ∧ flag &&& (FCTL_TODS ||| FCTL_FROMDS) = 0) :
    fourAddr (fc ||| flag) = fourAddr fc := by
  simp only [fourAddr, isData, hasA4, or_and_of_disjoint h.1, or_and_of_disjoint h.2]

theorem fourAddr_clear {fc flag : UInt16} (h : ~~~flag &&& FCTL_FTYPE = FCTL_FTYPE ∧
      ~~~flag &&& (FCTL_TODS ||| FCTL_FROMDS) = FCTL_TODS ||| FCTL_FROMDS) :
    fourAddr (fc &&& ~~~flag) = fourAddr fc := by
  simp only [fourAddr, isData, hasA4, clear_and_of_subset h.1, clear_and_of_subset h.2]

/-! ### The header -/

/-- `struct ieee80211_hdr`, with the memory behind it. -/
structure Hdr where
  frameControl : UInt16
  durationId : UInt16
  addr1 : Mac
  addr2 : Mac
  addr3 : Mac
  seqCtrl : UInt16
  /-- The bytes from offset 24 on. -/
  rest : List UInt8
deriving DecidableEq

attribute [ext] Hdr

namespace Hdr

/-- `skb->len` of a frame of at least 24 bytes. -/
def len (h : Hdr) : ℕ := 24 + h.rest.length

/-- The byte at offset `24 + i`. -/
def byte (h : Hdr) (i : ℕ) : UInt8 := h.rest.getD i 0

/-- `hdr->addr4`: six bytes at offset 24, if the memory is there. -/
def addr4? (h : Hdr) : Option Mac :=
  if hl : 6 ≤ h.rest.length then some ⟨(h.rest.take 6).toArray, by simp [hl]⟩ else none

/-- `memcpy(hdr->addr4, a, ETH_ALEN)`. -/
def setAddr4 (h : Hdr) (a : Mac) : Hdr :=
  if 6 ≤ h.rest.length then { h with rest := a.toList ++ h.rest.drop 6 } else h

/-- `ieee80211_get_qos_ctl`, first byte: behind three or four addresses. -/
def qosCtl (h : Hdr) : UInt8 := h.byte (if hasA4 h.frameControl then 6 else 0)

/-- `ieee80211_get_tid`. -/
def getTid (h : Hdr) : UInt8 := h.qosCtl &&& 0x0f

/-- `ieee80211_is_robust_mgmt_frame`: the category octet decides for an action frame. -/
def isRobustMgmtFrame (h : Hdr) : Bool :=
  if h.len < 25 then false
  else if isDisassoc h.frameControl || isDeauth h.frameControl then true
  else if isAction h.frameControl then
    hasProtected h.frameControl || !([4, 7, 11, 15, 20, 21, 127].contains (h.byte 0))
  else false

/-- `ieee80211_is_group_privacy_action`: a mesh or multihop action frame to a group. -/
def isGroupPrivacyAction (h : Hdr) : Bool :=
  if h.len < 25 then false
  else if !isAction h.frameControl || !isMulticastEtherAddr h.addr1 then false
  else h.byte 0 = 13 || h.byte 0 = 14

/-- Only what comes behind three addresses is written. -/
theorem setAddr4_eq (h : Hdr) (a : Mac) : h.setAddr4 a = { h with rest := (h.setAddr4 a).rest } := by
  rw [setAddr4]
  split <;> rfl

@[simp] theorem setAddr4_frameControl (h : Hdr) (a : Mac) :
    (h.setAddr4 a).frameControl = h.frameControl := by
  rw [setAddr4_eq]

@[simp] theorem setAddr4_durationId (h : Hdr) (a : Mac) :
    (h.setAddr4 a).durationId = h.durationId := by
  rw [setAddr4_eq]

@[simp] theorem setAddr4_addr1 (h : Hdr) (a : Mac) : (h.setAddr4 a).addr1 = h.addr1 := by
  rw [setAddr4_eq]

@[simp] theorem setAddr4_addr2 (h : Hdr) (a : Mac) : (h.setAddr4 a).addr2 = h.addr2 := by
  rw [setAddr4_eq]

@[simp] theorem setAddr4_addr3 (h : Hdr) (a : Mac) : (h.setAddr4 a).addr3 = h.addr3 := by
  rw [setAddr4_eq]

@[simp] theorem setAddr4_seqCtrl (h : Hdr) (a : Mac) : (h.setAddr4 a).seqCtrl = h.seqCtrl := by
  rw [setAddr4_eq]

theorem addr4?_eq_some_iff {h : Hdr} {a : Mac} :
    h.addr4? = some a ↔ ∃ tail, h.rest = a.toList ++ tail := by
  rw [addr4?]
  constructor
  · intro ha
    split at ha
    · cases ha
      exact ⟨h.rest.drop 6, by simp [Vector.toList]⟩
    · cases ha
  · rintro ⟨tail, hr⟩
    have hlen : 6 ≤ h.rest.length := by simp [hr]
    rw [dif_pos hlen]
    refine congrArg some (Vector.toList_inj.mp ?_)
    change h.rest.take 6 = a.toList
    rw [hr, List.take_append_of_le_length (by simp), List.take_of_length_le (by simp)]

/-- Where there is an `addr4`, writing it replaces exactly those six bytes. -/
theorem rest_setAddr4 {h : Hdr} {a : Mac} {tail : List UInt8} (hr : h.rest = a.toList ++ tail)
    (b : Mac) : (h.setAddr4 b).rest = b.toList ++ tail := by
  have hlen : 6 ≤ h.rest.length := by simp [hr]
  have hdrop : (a.toList ++ tail).drop 6 = tail := by
    rw [List.drop_append_of_le_length (by simp), List.drop_of_length_le (by simp), List.nil_append]
  rw [setAddr4, if_pos hlen, hr, hdrop]

@[simp] theorem length_rest_setAddr4 (h : Hdr) (a : Mac) :
    (h.setAddr4 a).rest.length = h.rest.length := by
  rw [setAddr4]
  split
  · simp only [List.length_append, Vector.length_toList, List.length_drop]
    omega
  · rfl

theorem addr4?_eq_none_iff {h : Hdr} : h.addr4? = none ↔ h.rest.length < 6 := by
  rw [addr4?]
  split <;> simp <;> omega

end Hdr

end Mac80211
