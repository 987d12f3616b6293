import Mac80211.Tx.Paths

/-!
# From 802.11 to 802.3

`ieee80211_data_to_8023_exthdr`: the addresses are picked by the two DS bits, which have to go with
the type of the interface. An LLC/SNAP header that stands for an EtherType is removed.

## Main definitions

* `dataTo8023Exthdr`, `decapsulate`
-/

namespace Mac80211

/-- `enum nl80211_iftype`. -/
inductive Nl80211Iftype
  | unspecified
  | adhoc
  | station
  | ap
  | apVlan
  | wds
  | monitor
  | meshPoint
  | p2pClient
  | p2pGo
  | p2pDevice
  | ocb
  | nan
deriving DecidableEq

/-- `ieee80211_get_DA`. -/
def Hdr.getDA (h : Hdr) : Mac := if hasTods h.frameControl then h.addr3 else h.addr1

/-- `ieee80211_get_SA`. -/
def Hdr.getSA (h : Hdr) : Mac :=
  if hasA4 h.frameControl then h.addr4?.getD (Vector.replicate 6 0)
  else if hasFromds h.frameControl then h.addr3
  else h.addr2

/-! ### Encapsulation -/

/-- The body starts with a bridge tunnel header, or an RFC 1042 one not of AppleTalk ARP or IPX. -/
def stripsSnap (body : List UInt8) : Bool :=
  body.take 6 = rfc1042Header && Bytes.be16At body 6 ≠ ETH_P_AARP && Bytes.be16At body 6 ≠ ETH_P_IPX ||
    body.take 6 = bridgeTunnelHeader

/-- The frame from `h_proto` on, without RFC 1042 or bridge tunnel header; anything else gets a
length. -/
def decapsulate (body : List UInt8) : List UInt8 :=
  if stripsSnap body then body.drop 6 else Bytes.be16 body.length ++ body

/-! ### Addresses -/

def MESH_FLAGS_AE_A4 : UInt8 := 0x1
def MESH_FLAGS_AE_A5_A6 : UInt8 := 0x2
def MESH_FLAGS_AE : UInt8 := 0x3

/-- `__ieee80211_get_mesh_hdrlen`. -/
def meshHdrlen (flags : UInt8) : ℕ :=
  if flags &&& MESH_FLAGS_AE = MESH_FLAGS_AE_A4 then 12
  else if flags &&& MESH_FLAGS_AE = MESH_FLAGS_AE_A5_A6 then 18
  else 6

/-- The address at an offset. -/
def macOfBytes (bs : List UInt8) (off : ℕ) : Mac := Vector.ofFn fun i => bs.getD (off + i) 0

/-- Destination, source, and the offset of the payload behind the first 24 bytes; `off` is where the
802.11 header ends. -/
def convertAddrs (h : Hdr) (addr : Mac) (iftype : Nl80211Iftype) (off : ℕ) : Option (Mac × Mac × ℕ) :=
  let dest := h.getDA
  let source := h.getSA
  let meshFlags := if iftype = .meshPoint then h.byte off &&& MESH_FLAGS_AE else 0
  match hasTods h.frameControl, hasFromds h.frameControl with
  | true, false =>
    if iftype ≠ .ap ∧ iftype ≠ .apVlan ∧ iftype ≠ .p2pGo then none else some (dest, source, off)
  | true, true =>
    if iftype ≠ .wds ∧ iftype ≠ .meshPoint ∧ iftype ≠ .apVlan ∧ iftype ≠ .station then none
    else if iftype = .meshPoint then
      if meshFlags = MESH_FLAGS_AE_A4 then none
      else if meshFlags = MESH_FLAGS_AE_A5_A6 then
        some (macOfBytes h.rest (off + 6), macOfBytes h.rest (off + 12), off + meshHdrlen meshFlags)
      else some (dest, source, off + meshHdrlen meshFlags)
    else some (dest, source, off)
  | false, true =>
    if iftype ≠ .station ∧ iftype ≠ .p2pClient ∧ iftype ≠ .meshPoint ∨
        isMulticastEtherAddr dest ∧ source = addr then none
    else if iftype = .meshPoint then
      if meshFlags = MESH_FLAGS_AE_A5_A6 then none
      else if meshFlags = MESH_FLAGS_AE_A4 then
        some (dest, macOfBytes h.rest (off + 6), off + meshHdrlen meshFlags)
      else some (dest, source, off + meshHdrlen meshFlags)
    else some (dest, source, off)
  | false, false =>
    if iftype ≠ .adhoc ∧ iftype ≠ .station ∧ iftype ≠ .ocb then none else some (dest, source, off)

/-- `ieee80211_data_to_8023_exthdr`. -/
def dataTo8023Exthdr (h : Hdr) (addr : Mac) (iftype : Nl80211Iftype) (dataOffset : ℕ) :
    Option EthFrame :=
  let len := hdrlen h.frameControl + dataOffset
  if !isDataPresent h.frameControl || h.len < len + 8 then none
  else
    (convertAddrs h addr iftype (len - 24)).map fun (dest, source, off) =>
      { dest := dest, source := source, payload := decapsulate (h.rest.drop off) }

end Mac80211
