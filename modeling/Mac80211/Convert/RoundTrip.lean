import Mac80211.Convert.Ethernet
import Mac80211.Tx.FastFrame

/-!
# There and back

`ieee80211_build_hdr` and `ieee80211_data_to_8023_exthdr` are in different modules and decide
differently: by the EtherType, and by the LLC/SNAP header. A length field does not come back as
such, and a station does not take back a group addressed frame of its own.

## Main results

* `round_trip_iff` — which frames come back as they were
-/

namespace Mac80211

open Machine List Option

/-! ### Encapsulation -/

/-- The frame behind `h_proto`. -/
def EthFrame.data (eth : EthFrame) : List UInt8 := eth.payload.drop 2

/-- A frame that keeps its type or length field: an EtherType, or a right length with eight bytes
that are no LLC/SNAP header to be removed. -/
def EthFrame.survives (eth : EthFrame) : Bool :=
  ETH_P_802_3_MIN ≤ eth.etherType ||
    eth.etherType = eth.data.length % 2 ^ 16 && 8 ≤ eth.data.length && !stripsSnap eth.data

section Encapsulation

variable {eth : EthFrame}

theorem etherType_eq (eth : EthFrame) : eth.etherType = Bytes.be16At eth.payload 0 := rfl

theorem EthFrame.payload_eq (hlen : 2 ≤ eth.payload.length) :
    eth.payload = Bytes.be16 eth.etherType ++ eth.data := by
  obtain ⟨hi, lo, tail, heq⟩ : ∃ hi lo tail, eth.payload = hi :: lo :: tail := by
    match h : eth.payload with
    | [] => simp [h] at hlen
    | [_] => simp [h] at hlen
    | hi :: lo :: tail => exact ⟨hi, lo, tail, rfl⟩
  rw [etherType_eq, EthFrame.data, heq, Bytes.be16_be16At]
  rfl

/-- A bridge tunnel header is removed, and so is an RFC 1042 header that is not in its place. -/
theorem stripsSnap_header {header tail : List UInt8} (hlen : header.length = 6)
    (h : header = rfc1042Header ∧ Bytes.be16At tail 0 ≠ ETH_P_AARP ∧ Bytes.be16At tail 0 ≠ ETH_P_IPX ∨
      header = bridgeTunnelHeader) :
    stripsSnap (header ++ tail) = true := by
  have hproto : Bytes.be16At (header ++ tail) 6 = Bytes.be16At tail 0 := by
    rw [← hlen]
    exact Bytes.be16At_append header tail 0
  rw [stripsSnap, hproto, take_left' hlen]
  rcases h with ⟨rfl, haarp, hipx⟩ | rfl
  · simp [haarp, hipx]
  · simp

/-- What `ieee80211_build_hdr` puts around a frame, by its type or length field. -/
theorem EthFrame.encaps_cases (eth : EthFrame) :
    (ETH_P_802_3_MIN ≤ eth.etherType ∧ ∃ header : List UInt8, eth.encaps = header ++ eth.payload ∧
      (header = rfc1042Header ∧ eth.etherType ≠ ETH_P_AARP ∧ eth.etherType ≠ ETH_P_IPX ∨
        header = bridgeTunnelHeader)) ∨
      eth.etherType < ETH_P_802_3_MIN ∧ eth.encaps = eth.data := by
  rw [EthFrame.encaps]
  split
  · rename_i hbridge
    simp only [Bool.or_eq_true, decide_eq_true_eq] at hbridge
    refine .inl ⟨?_, bridgeTunnelHeader, rfl, .inr rfl⟩
    rcases hbridge with h | h <;> rw [h] <;> decide
  · rename_i hbridge
    simp only [Bool.or_eq_true, decide_eq_true_eq, not_or] at hbridge
    split
    · rename_i hmin
      exact .inl ⟨hmin, rfc1042Header, rfl, .inl ⟨rfl, hbridge⟩⟩
    · rename_i hmin
      exact .inr ⟨by omega, rfl⟩

/-- **Encapsulation and back.** -/
theorem decapsulate_encaps_iff (hlen : 2 ≤ eth.payload.length) :
    8 ≤ eth.encaps.length ∧ decapsulate eth.encaps = eth.payload ↔ eth.survives = true := by
  rw [EthFrame.survives, Bool.or_eq_true, Bool.and_eq_true, Bool.and_eq_true, decide_eq_true_eq,
    decide_eq_true_eq, decide_eq_true_eq, Bool.not_eq_true']
  rcases eth.encaps_cases with ⟨hmin, header, heq, hheader⟩ | ⟨hmin, heq⟩
  · have hsix : header.length = 6 := by
      rcases hheader with ⟨rfl, -⟩ | rfl <;> rfl
    have hdecap : decapsulate eth.encaps = eth.payload := by
      rw [heq, decapsulate, if_pos (stripsSnap_header hsix hheader), drop_left' hsix]
    refine iff_of_true ⟨?_, hdecap⟩ (.inl hmin)
    rw [heq, length_append]
    omega
  · rw [heq]
    constructor
    · rintro ⟨height, hdecap⟩
      have hstrip : stripsSnap eth.data = false := by
        by_contra hstrip
        rw [Bool.not_eq_false] at hstrip
        have hshort := congrArg List.length hdecap
        rw [decapsulate, if_pos hstrip, length_drop, EthFrame.data, length_drop] at hshort
        omega
      rw [decapsulate, hstrip, if_neg Bool.false_ne_true] at hdecap
      refine .inr ⟨⟨?_, height⟩, hstrip⟩
      rw [etherType_eq, ← hdecap]
      exact Bytes.be16At_be16 _ _
    · rintro (hmin' | ⟨⟨hfield, height⟩, hstrip⟩)
      · omega
      · refine ⟨height, ?_⟩
        rw [decapsulate, hstrip, if_neg Bool.false_ne_true]
        conv_rhs => rw [EthFrame.payload_eq hlen, hfield, Bytes.be16_mod]

end Encapsulation

/-! ### Addresses -/

/-- The frame goes to a TDLS peer. -/
def toTdlsPeer (s : Local) (sta : Option StaId) : Bool := sta.any fun j => (s.sta j).tdlsPeer

/-- The types of interface that an interface's frames are for; a four-address VLAN and station are
for each other. -/
def receivers (s : Local) (i : SdataId) (sta : Option StaId) : List Nl80211Iftype :=
  let d := s.sdata i
  match d.type with
  | .ap => [.station, .p2pClient]
  | .apVlan => if d.use4addr then [.station] else [.station, .p2pClient]
  | .station =>
    if toTdlsPeer s sta then [.station]
    else if d.use4addr then [.apVlan]
    else [.ap, .apVlan, .p2pGo]
  | .adhoc => [.adhoc]
  | _ => []

/-- A group addressed frame of an AP, received by the station it comes from. -/
def echoed (s : Local) (i : SdataId) (addr : Mac) (eth : EthFrame) : Bool :=
  (s.sdata i).threeAddrAp && isMulticastEtherAddr eth.dest && eth.source = addr

section Addresses

variable {env : TxEnv} {s : Local} {i : SdataId} {sta : Option StaId} {eth : EthFrame} {p : Hdr}

theorem buildAddrs_cases (h : buildAddrs env s i sta eth = some p) :
    ((s.sdata i).threeAddrAp = true ∧
      p = ⟨0x0208, 0, eth.dest, (s.sdata i).addr, eth.source, 0, []⟩) ∨
    ((s.sdata i).type = .station ∧ toTdlsPeer s sta = false ∧
      p = ⟨0x0108, 0, (s.sdata i).bssid, eth.source, eth.dest, 0, []⟩) ∨
    (((s.sdata i).type = .adhoc ∨ (s.sdata i).type = .station ∧ toTdlsPeer s sta = true) ∧
      p = ⟨0x0008, 0, eth.dest, eth.source, (s.sdata i).bssid, 0, []⟩) ∨
    (((s.sdata i).type = .apVlan ∨ (s.sdata i).type = .station ∧ toTdlsPeer s sta = false) ∧
      (s.sdata i).use4addr = true ∧
      ∃ ra, p = ⟨0x0308, 0, ra, (s.sdata i).addr, eth.dest, 0, eth.source.toList⟩) := by
  simp only [buildAddrs] at h
  cases htype : (s.sdata i).type with
  | ap =>
    simp only [htype, Option.some.injEq] at h
    refine .inl ⟨?_, h.symm⟩
    simp [SubIfData.threeAddrAp, htype]
  | apVlan =>
    simp only [htype] at h
    split at h
    · rename_i hfour
      split at h
      · cases h
      · exact .inr (.inr (.inr ⟨.inl rfl, hfour, _, (Option.some.inj h).symm⟩))
    · rename_i hfour
      refine .inl ⟨?_, (Option.some.inj h).symm⟩
      simpa [SubIfData.threeAddrAp, htype] using hfour
  | station =>
    simp only [htype] at h
    split at h
    · rename_i htdls
      exact .inr (.inr (.inl ⟨.inr ⟨rfl, htdls⟩, (Option.some.inj h).symm⟩))
    · rename_i htdls
      rw [Bool.not_eq_true] at htdls
      split at h
      · rename_i hfour
        exact .inr (.inr (.inr ⟨.inr ⟨rfl, htdls⟩, (Bool.and_eq_true_iff.mp hfour).1, _,
          (Option.some.inj h).symm⟩))
      · exact .inr (.inl ⟨rfl, htdls, (Option.some.inj h).symm⟩)
  | adhoc =>
    simp only [htype, Option.some.injEq] at h
    exact .inr (.inr (.inl ⟨.inl rfl, h.symm⟩))
  | _ => simp [htype] at h

theorem ds_of_qos (wme : Bool) {fc : UInt16} (hfc : fc ∈ [0x0008, 0x0108, 0x0208, 0x0308]) :
    let fc' := fc ||| if wme then STYPE_QOS_DATA else 0
    hasTods fc' = hasTods fc ∧ hasFromds fc' = hasFromds fc ∧ hasA4 fc' = hasA4 fc ∧
      isDataPresent fc' = true ∧
      hdrlen fc' = 24 + (if hasA4 fc then 6 else 0) + if wme then 2 else 0 := by
  simp only [mem_cons, not_mem_nil, or_false] at hfc
  rcases hfc with rfl | rfl | rfl | rfl <;> cases wme <;> decide

/-- Whoever the frame is for reads destination and source off it, whatever follows the header. -/
theorem convertAddrs_of_buildAddrs (hp : buildAddrs env s i sta eth = some p) (wme : Bool)
    (tail : List UInt8) {rx : Nl80211Iftype} (hrx : rx ∈ receivers s i sta) (addr : Mac) (off : ℕ) :
    convertAddrs { p with
      frameControl := p.frameControl ||| if wme then STYPE_QOS_DATA else 0
      rest := p.rest ++ tail } addr rx off =
      if echoed s i addr eth then none else some (eth.dest, eth.source, off) := by
  rcases buildAddrs_cases hp with ⟨hap, rfl⟩ | ⟨htype, htdls, rfl⟩ | ⟨htype, rfl⟩ |
    ⟨htype, hfour, ra, rfl⟩
  · obtain ⟨htods, hfromds, ha4, -⟩ := @ds_of_qos wme 0x0208 (by decide)
    have hrx' : rx = .station ∨ rx = .p2pClient := by
      simp only [SubIfData.threeAddrAp, Bool.or_eq_true, Bool.and_eq_true, decide_eq_true_eq,
        Bool.not_eq_true'] at hap
      rcases hap with htype | ⟨htype, hfour⟩
      · simpa [receivers, htype] using hrx
      · simpa [receivers, htype, hfour] using hrx
    have hecho : (isMulticastEtherAddr eth.dest = true ∧ eth.source = addr) ↔
        echoed s i addr eth = true := by
      simp [echoed, hap]
    simp only [convertAddrs, Hdr.getDA, Hdr.getSA, htods, hfromds, ha4]
    show (if (rx ≠ .station ∧ rx ≠ .p2pClient ∧ rx ≠ .meshPoint) ∨
      (isMulticastEtherAddr eth.dest = true ∧ eth.source = addr) then none else _) = _
    by_cases h : echoed s i addr eth = true
    · rw [if_pos (.inr (hecho.mpr h)), if_pos h]
    · have hthere : ¬(rx ≠ .station ∧ rx ≠ .p2pClient ∧ rx ≠ .meshPoint) := by tauto
      rw [if_neg h, if_neg (not_or.mpr ⟨hthere, mt hecho.mp h⟩)]
      rcases hrx' with rfl | rfl <;> rfl
  · obtain ⟨htods, hfromds, ha4, -⟩ := @ds_of_qos wme 0x0108 (by decide)
    have hrx' : rx = .ap ∨ rx = .apVlan ∨ rx = .p2pGo := by
      by_cases hfour : (s.sdata i).use4addr = true
      · exact .inr (.inl (by simpa [receivers, htype, htdls, hfour] using hrx))
      · simpa [receivers, htype, htdls, hfour] using hrx
    have hecho : echoed s i addr eth = false := by
      simp [echoed, SubIfData.threeAddrAp, htype]
    rw [hecho]
    simp only [convertAddrs, Hdr.getDA, Hdr.getSA, htods, hfromds, ha4]
    rcases hrx' with rfl | rfl | rfl <;> rfl
  · obtain ⟨htods, hfromds, ha4, -⟩ := @ds_of_qos wme 0x0008 (by decide)
    have hrx' : rx = .adhoc ∨ rx = .station := by
      rcases htype with htype | ⟨htype, htdls⟩
      · exact .inl (by simpa [receivers, htype] using hrx)
      · exact .inr (by simpa [receivers, htype, htdls] using hrx)
    have hecho : echoed s i addr eth = false := by
      rcases htype with htype | ⟨htype, -⟩ <;> simp [echoed, SubIfData.threeAddrAp, htype]
    rw [hecho]
    simp only [convertAddrs, Hdr.getDA, Hdr.getSA, htods, hfromds, ha4]
    rcases hrx' with rfl | rfl <;> rfl
  · obtain ⟨htods, hfromds, ha4, -⟩ := @ds_of_qos wme 0x0308 (by decide)
    have hrx' : rx = .station ∨ rx = .apVlan := by
      rcases htype with htype | ⟨htype, htdls⟩
      · exact .inl (by simpa [receivers, htype, hfour] using hrx)
      · exact .inr (by simpa [receivers, htype, htdls, hfour] using hrx)
    have hecho : echoed s i addr eth = false := by
      rcases htype with htype | ⟨htype, -⟩ <;> simp [echoed, SubIfData.threeAddrAp, htype, hfour]
    have haddr4 : ∀ fc, (⟨fc, 0, ra, (s.sdata i).addr, eth.dest, 0, eth.source.toList ++ tail⟩ :
        Hdr).addr4? = some eth.source := fun fc => Hdr.addr4?_eq_some_iff.mpr ⟨tail, rfl⟩
    rw [hecho]
    simp only [convertAddrs, Hdr.getDA, Hdr.getSA, htods, hfromds, ha4, haddr4]
    rcases hrx' with rfl | rfl <;> rfl

end Addresses

/-! ### Whole frames -/

section RoundTrip

variable {env : TxEnv} {s : Local} {i : SdataId} {sta : Option StaId} {eth : EthFrame} {skb : TxSkb}
  {rx : Nl80211Iftype}

theorem buildHdr_cases (h : buildHdr env s i sta eth = some skb) :
    ∃ (p : Hdr) (wme : Bool), buildAddrs env s i sta eth = some p ∧ skb.hdr = { p with
      frameControl := p.frameControl ||| if wme then STYPE_QOS_DATA else 0
      rest := p.rest ++ ((if wme then [0, 0] else []) ++ eth.encaps) } := by
  rw [buildHdr] at h
  split at h
  · cases h
  · obtain ⟨p, hp, hskb⟩ := bind_eq_some_iff.mp h
    refine ⟨p, sta.any fun j => (s.sta j).wme, hp, ?_⟩
    generalize (sta.any fun j => (s.sta j).wme) = wme at hskb ⊢
    simp only at hskb
    split at hskb
    · cases hskb
    · cases hskb
      cases wme <;> simp

/-- **What becomes of a frame that was sent**: refused if too short or back at its source; otherwise
only the encapsulation makes a difference. -/
theorem dataTo8023_buildHdr (h : buildHdr env s i sta eth = some skb) (hrx : rx ∈ receivers s i sta)
    (addr : Mac) : dataTo8023Exthdr skb.hdr addr rx 0 =
      if eth.encaps.length < 8 ∨ echoed s i addr eth = true then none
      else some { dest := eth.dest, source := eth.source, payload := decapsulate eth.encaps } := by
  obtain ⟨p, wme, hp, heq⟩ := buildHdr_cases h
  have hfc : p.frameControl ∈ [(0x0008 : UInt16), 0x0108, 0x0208, 0x0308] ∧
      p.rest.length = if hasA4 p.frameControl then 6 else 0 := by
    rcases buildAddrs_cases hp with ⟨-, rfl⟩ | ⟨-, -, rfl⟩ | ⟨-, rfl⟩ | ⟨-, -, ra, rfl⟩
    · exact ⟨by dsimp only; decide, by simp; decide⟩
    · exact ⟨by dsimp only; decide, by simp; decide⟩
    · exact ⟨by dsimp only; decide, by simp; decide⟩
    · exact ⟨by dsimp only; decide, by simp; decide⟩
  obtain ⟨-, -, -, hpresent, hhdrlen⟩ := ds_of_qos wme hfc.1
  rw [← hfc.2] at hhdrlen
  have hconv := convertAddrs_of_buildAddrs hp wme ((if wme then [0, 0] else []) ++ eth.encaps) hrx addr
  rw [heq, dataTo8023Exthdr]
  dsimp only
  rw [hpresent, hhdrlen, hconv]
  set head := p.rest ++ (if wme then [0, 0] else []) with hhead
  have hheadlen : head.length = p.rest.length + if wme then 2 else 0 := by
    rw [hhead, length_append]
    cases wme <;> rfl
  have hoff : 24 + p.rest.length + (if wme then 2 else 0) + 0 - 24 = head.length := by omega
  rw [← append_assoc, ← hhead, hoff]
  have hlen : Hdr.len { p with
      frameControl := p.frameControl ||| if wme then STYPE_QOS_DATA else 0
      rest := head ++ eth.encaps } = 24 + head.length + eth.encaps.length := by
    rw [Hdr.len, length_append]
    omega
  rw [hlen]
  have hguard : (!true || decide (24 + head.length + eth.encaps.length <
      24 + p.rest.length + (if wme then 2 else 0) + 0 + 8)) = true ↔ eth.encaps.length < 8 := by
    simp only [Bool.not_true, Bool.false_or, decide_eq_true_eq]
    omega
  by_cases hshort : eth.encaps.length < 8
  · rw [if_pos (hguard.mpr hshort), if_pos (.inl hshort)]
  · rw [if_neg (mt hguard.mp hshort)]
    by_cases hecho : echoed s i addr eth = true
    · rw [if_pos hecho, if_pos (.inr hecho)]
      rfl
    · rw [if_neg hecho, if_neg (not_or.mpr ⟨hshort, hecho⟩), map_some, drop_left]

/-- **802.3 to 802.11 and back.** A frame comes back as it was exactly if it has an EtherType, or a
right length field, eight bytes or more, and no LLC/SNAP header that the receiver removes; and it is
no group frame of an AP that comes back to its source. -/
theorem round_trip_iff (hlen : 2 ≤ eth.payload.length) (h : buildHdr env s i sta eth = some skb)
    (hrx : rx ∈ receivers s i sta) (addr : Mac) : dataTo8023Exthdr skb.hdr addr rx 0 =
        some { dest := eth.dest, source := eth.source, payload := eth.payload } ↔
      eth.survives = true ∧ echoed s i addr eth = false := by
  rw [dataTo8023_buildHdr h hrx, ← decapsulate_encaps_iff hlen]
  by_cases hecho : echoed s i addr eth = true
  · simp [hecho]
  · by_cases hshort : eth.encaps.length < 8
    · simp [hshort]
    · have height : 8 ≤ eth.encaps.length := by omega
      simp [hecho, hshort, height]

end RoundTrip

/-! ### A frame that comes back different -/

/-- An IPv4 packet in an 802.3 frame: a length field, and an LLC/SNAP header. -/
def snapToSta : EthFrame :=
  { ethToSta with payload := [0, 10, 0xaa, 0xaa, 0x03, 0x00, 0x00, 0x00, 0x08, 0x00, 0x45, 0x11] }

/-- An AppleTalk ARP packet. -/
def aarpToSta : EthFrame := { ethToSta with payload := [0x80, 0xf3, 0x00, 0x01] }

/-- An AP with one authorized station. -/
def oneStaEvents : List Event := setupAp 0 (toyMac 1) ++ setupSta 0 0 (toyMac 3) 0

/-- What the station gets of a frame that the AP sends to it. -/
def throughAir (s : Local) (eth : EthFrame) : Option (Option EthFrame) :=
  (buildHdr {} s 0 (some 0) eth).bind fun skb =>
    if .station ∈ receivers s 0 (some 0) then
      some (dataTo8023Exthdr skb.hdr (toyMac 3) .station 0)
    else none

theorem throughAir_eq_some {s : Local} {eth : EthFrame} {r : Option EthFrame}
    (h : throughAir s eth = some r) :
    ∃ skb, buildHdr {} s 0 (some 0) eth = some skb ∧ .station ∈ receivers s 0 (some 0) ∧
      dataTo8023Exthdr skb.hdr (toyMac 3) .station 0 = r := by
  obtain ⟨skb, hskb, h⟩ := bind_eq_some_iff.mp h
  split at h
  · exact ⟨skb, hskb, ‹_›, Option.some.inj h⟩
  · cases h

/-- The 802.3 frame to the station comes back as an Ethernet frame with EtherType IPv4, eight bytes
shorter. -/
theorem snap_length_frame_changes :
    ∃ s os skb, Reach (deviceStep toyHash toyCrypto) (fun _ _ _ => True) (bootLocal {}) s os ∧
      buildHdr {} s 0 (some 0) snapToSta = some skb ∧ .station ∈ receivers s 0 (some 0) ∧
      dataTo8023Exthdr skb.hdr (toyMac 3) .station 0 =
        some { dest := toyMac 3, source := toyMac 9, payload := [0x08, 0x00, 0x45, 0x11] } ∧
      snapToSta.payload ≠ [0x08, 0x00, 0x45, 0x11] := by
  have hrun : (run (deviceStep toyHash toyCrypto) (bootLocal {}) oneStaEvents).bind
      (fun r => throughAir r.1 snapToSta) =
      some (some { dest := toyMac 3, source := toyMac 9, payload := [0x08, 0x00, 0x45, 0x11] }) := by
    decide +kernel
  obtain ⟨⟨s, os⟩, hr, hair⟩ := bind_eq_some_iff.mp hrun
  obtain ⟨skb, hskb, hrx, heq⟩ := throughAir_eq_some hair
  exact ⟨s, os, skb, Reach.of_run_init hr, hskb, hrx, heq, by decide⟩

theorem round_trip_aarp :
    ∃ s os skb, Reach (deviceStep toyHash toyCrypto) (fun _ _ _ => True) (bootLocal {}) s os ∧
      buildHdr {} s 0 (some 0) aarpToSta = some skb ∧
      dataTo8023Exthdr skb.hdr (toyMac 3) .station 0 =
        some { dest := toyMac 3, source := toyMac 9, payload := [0x80, 0xf3, 0x00, 0x01] } := by
  have hrun : ((run (deviceStep toyHash toyCrypto) (bootLocal {}) oneStaEvents).bind
      fun r => if echoed r.1 0 (toyMac 3) aarpToSta then none else throughAir r.1 aarpToSta).isSome =
      true := by
    decide +kernel
  obtain ⟨r, h⟩ := isSome_iff_exists.mp hrun
  obtain ⟨⟨s, os⟩, hr, hair⟩ := bind_eq_some_iff.mp h
  split at hair
  · cases hair
  · rename_i hecho
    obtain ⟨skb, hskb, hrx, -⟩ := throughAir_eq_some hair
    refine ⟨s, os, skb, Reach.of_run_init hr, hskb, ?_⟩
    exact (round_trip_iff (by decide) hskb hrx (toyMac 3)).mpr
      ⟨by decide, Bool.not_eq_true _ ▸ hecho⟩

end Mac80211
