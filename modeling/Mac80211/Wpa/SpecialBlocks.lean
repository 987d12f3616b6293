import Mac80211.Key
import Mathlib.Tactic.IntervalCases

/-!
# Nonces and authenticated data

`wpa.c`: the packet number in the cipher header, and the blocks that CCMP, GCMP and BIP authenticate
a header with, computed from the header in memory. `b_0` has 14 bytes that the code sets, `j_0`
twelve that reach the GCM layer; both are those bytes, in order.

## Main definitions

* `aad`, `ccmpSpecialBlocks`, `gcmpSpecialBlocks`
-/

namespace Mac80211

/-- `IEEE80211_CCMP_HDR_LEN`, `IEEE80211_GCMP_HDR_LEN`. -/
def CCMP_HDR_LEN : ℕ := 8

def CCMP_MIC_LEN : ℕ := 8
def CCMP_256_MIC_LEN : ℕ := 16
def GCMP_MIC_LEN : ℕ := 16

/-- `put_unaligned(x, (__le16 *) p)`. -/
def le16 (x : UInt16) : List UInt8 := [x.toUInt8, (x >>> 8).toUInt8]

/-- `put_unaligned_be16`. -/
def be16 (x : UInt16) : List UInt8 := [(x >>> 8).toUInt8, x.toUInt8]

/-- `ccmp_hdr2pn`, `gcmp_hdr2pn`: the packet number in an eight byte cipher header. -/
def hdr2pn (hdr : List UInt8) : Pn :=
  #v[hdr.getD 7 0, hdr.getD 6 0, hdr.getD 5 0, hdr.getD 4 0, hdr.getD 1 0, hdr.getD 0 0]

/-- `ccmp_pn2hdr`, `gcmp_pn2hdr`. -/
def pn2hdr (pn : Pn) (keyId : ℕ) : List UInt8 :=
  [pn[5]!, pn[4]!, 0, 0x20 ||| UInt8.ofNat (keyId * 2 ^ 6), pn[3]!, pn[2]!, pn[1]!, pn[0]!]

theorem hdr2pn_pn2hdr (pn : Pn) (keyId : ℕ) (tail : List UInt8) :
    hdr2pn (pn2hdr pn keyId ++ tail) = pn := by
  refine Vector.ext fun i hi => ?_
  interval_cases i <;> rfl

namespace Hdr

/-- The bytes from `hdrlen` on: `skb->data + hdrlen`. -/
def body (h : Hdr) : List UInt8 := h.rest.drop (hdrlen h.frameControl - 24)

/-- `qos_tid`, zero where the frame has no QoS control field. -/
def qosTid (h : Hdr) : UInt8 := if isDataQos h.frameControl then h.getTid else 0

/-- `mask_fc`: Retry, PwrMgt and MoreData are zeroed, three subtype bits too unless this is a
management frame, and Protected is set. -/
def maskFc (h : Hdr) : UInt16 :=
  let fc := h.frameControl &&& ~~~(FCTL_RETRY ||| FCTL_PM ||| FCTL_MOREDATA)
  (if isMgmt h.frameControl then fc else fc &&& ~~~0x0070) ||| FCTL_PROTECTED

/-- The 32 bytes of additional data, the same for CCMP and GCMP:
`FC | A1 | A2 | A3 | SC | [A4] | [QC]` behind their length. -/
def aad (h : Hdr) : List UInt8 :=
  be16 (UInt16.ofNat (hdrlen h.frameControl - 2)) ++ le16 h.maskFc ++
    h.addr1.toList ++ h.addr2.toList ++ h.addr3.toList ++
    -- the sequence number is masked out, the fragment number stays
    [h.seqCtrl.toUInt8 &&& 0x0f, 0] ++
    if hasA4 h.frameControl then h.rest.take 6 ++ [h.qosTid, 0]
    else [h.qosTid, 0, 0, 0, 0, 0, 0, 0]

end Hdr

/-- What a cipher is given to authenticate a frame: nonce and additional data. -/
structure SpecialBlocks where
  /-- `b_0`, `j_0`. -/
  nonce : List UInt8
  aad : List UInt8
deriving DecidableEq

/-- `ccmp_special_blocks`. -/
def ccmpSpecialBlocks (h : Hdr) (pn : Pn) : SpecialBlocks where
  nonce := [0x1, h.qosTid ||| (if isMgmt h.frameControl then 0x10 else 0)] ++
    h.addr2.toList ++ pn.toList
  aad := h.aad

/-- `gcmp_special_blocks`. -/
def gcmpSpecialBlocks (h : Hdr) (pn : Pn) : SpecialBlocks where
  nonce := h.addr2.toList ++ pn.toList ++ [0, 0, 0x01]
  aad := h.aad

/-- `bip_aad`: `FC(masked) || A1 || A2 || A3`. -/
def bipAad (h : Hdr) : List UInt8 :=
  le16 (h.frameControl &&& ~~~(FCTL_RETRY ||| FCTL_PM ||| FCTL_MOREDATA)) ++
    h.addr1.toList ++ h.addr2.toList ++ h.addr3.toList

end Mac80211
