import Mac80211.Tx.FastPath

/-!
# What the fast path sends

`ieee80211_xmit_fast` copies a cached header in front of a frame; `ieee80211_build_hdr` makes one
from scratch, and the QoS control field, the Protected bit and room for the cipher header come
later. A frame also has to be sent on an interface that looks like the one of the station.

## Main definitions

* `Hdr.filled` — which bytes these are

## Main results

* `fast_frame_eq_filled` — all others agree
-/

namespace Mac80211

open Machine List Option

/-! ### The addresses -/

/-- An interface of an AP whose frames have three addresses. -/
def SubIfData.threeAddrAp (d : SubIfData) : Bool :=
  d.type = .ap || d.type = .apVlan && !d.use4addr

/-- Frames to one station look alike on two interfaces: it is the same one, or they are an AP and its
VLANs. -/
def SameHeader (s : Local) (i i' : SdataId) : Prop :=
  i = i' ∨ (s.sdata i).threeAddrAp = true ∧ (s.sdata i').threeAddrAp = true ∧
    (s.sdata i).addr = (s.sdata i').addr

section Addresses

variable {env : TxEnv} {s : Local} {i i' : SdataId} {j : StaId} {eth : EthFrame} {h : Hdr} {da : Bool}
  {sa : ℕ}

theorem buildAddrs_of_threeAddrAp (hap : (s.sdata i).threeAddrAp = true) :
    buildAddrs env s i (some j) eth =
      some ⟨FTYPE_DATA ||| FCTL_FROMDS, 0, eth.dest, (s.sdata i).addr, eth.source, 0, []⟩ := by
  simp only [SubIfData.threeAddrAp, Bool.or_eq_true, Bool.and_eq_true, decide_eq_true_eq,
    Bool.not_eq_true'] at hap
  rcases hap with htype | ⟨htype, hfour⟩
  · simp only [buildAddrs, htype]
  · simp only [buildAddrs, htype, hfour, Bool.false_eq_true, if_false]

theorem SameHeader.buildAddrs_eq (hi : SameHeader s i i') :
    buildAddrs env s i (some j) eth = buildAddrs env s i' (some j) eth := by
  rcases hi with rfl | ⟨hap, hap', haddr⟩
  · rfl
  · rw [buildAddrs_of_threeAddrAp hap, buildAddrs_of_threeAddrAp hap', haddr]

end Addresses

section Place

variable (eth : EthFrame) (h : Hdr) (da : Bool) (sa : ℕ)

@[simp] theorem EthFrame.place_frameControl :
    (eth.place h da sa).frameControl = h.frameControl := by
  simp only [EthFrame.place]
  split <;> split <;> simp

@[simp] theorem EthFrame.length_rest_place : (eth.place h da sa).rest.length = h.rest.length := by
  simp only [EthFrame.place]
  split <;> split <;> simp

/-- The addresses are written in front of whatever the cached header goes on with. -/
theorem EthFrame.place_append (hlen : sa = 2 ∨ sa = 3 ∨ sa = 4 ∧ 6 ≤ h.rest.length) (fc : UInt16)
    (tail : List UInt8) : eth.place { h with frameControl := fc, rest := h.rest ++ tail } da sa =
      { eth.place h da sa with frameControl := fc, rest := (eth.place h da sa).rest ++ tail } := by
  simp only [EthFrame.place]
  cases da
  all_goals
    split
    · rfl
    · rfl
    · rename_i htwo hthree
      have hsix : 6 ≤ h.rest.length := by
        rcases hlen with hsa | hsa | ⟨-, hsix⟩
        · exact absurd hsa htwo
        · exact absurd hsa hthree
        · exact hsix
      have hsix' : 6 ≤ h.rest.length + tail.length := by omega
      simp [Hdr.setAddr4, hsix, hsix', drop_append_of_le_length hsix]

end Place

/-! ### The rest of the header -/

/-- What else is in the cached header: the frame control says whether there is a fourth address, and
there is room for it if so. -/
theorem fastTxAddrs_shape {d : SubIfData} {sta : StaInfo} {h : Hdr} {da : Bool} {sa : ℕ}
    (hfast : fastTxAddrs d sta = some (h, da, sa)) :
    h.frameControl ∈ [0x0008, 0x0108, 0x0208, 0x0308] ∧
      h.rest.length = (if hasA4 h.frameControl then 6 else 0) ∧
      (hasA4 h.frameControl = false ∧ (sa = 2 ∨ sa = 3 ∧ da = false) ∨
        hasA4 h.frameControl = true ∧ sa = 4) := by
  simp only [fastTxAddrs] at hfast
  split at hfast
  · cases hfast
    exact ⟨by dsimp only; decide, by simp; decide, .inl ⟨by dsimp only; decide, .inl rfl⟩⟩
  · split at hfast
    · cases hfast
      exact ⟨by dsimp only; decide, by simp; decide, .inl ⟨by dsimp only; decide, .inl rfl⟩⟩
    · split at hfast
      · cases hfast
        exact ⟨by dsimp only; decide, by simp; decide, .inr ⟨by dsimp only; decide, rfl⟩⟩
      · cases hfast
        exact ⟨by dsimp only; decide, by simp; decide, .inl ⟨by dsimp only; decide, .inl rfl⟩⟩
  · split at hfast
    · cases hfast
      exact ⟨by dsimp only; decide, by simp; decide, .inr ⟨by dsimp only; decide, rfl⟩⟩
    · cases hfast
      exact ⟨by dsimp only; decide, by simp; decide, .inl ⟨by dsimp only; decide, .inr ⟨rfl, rfl⟩⟩⟩
  · cases hfast
    exact ⟨by dsimp only; decide, by simp; decide, .inl ⟨by dsimp only; decide, .inr ⟨rfl, rfl⟩⟩⟩
  · cases hfast

/-- The frame control of a data frame, with QoS or not and protected or not. -/
theorem qos_of_frameControl {fc : UInt16} (hfc : fc ∈ [0x0008, 0x0108, 0x0208, 0x0308])
    (wme protect : Bool) :
    let fc' := fc ||| (if wme then STYPE_QOS_DATA else 0) ||| if protect then FCTL_PROTECTED else 0
    fastQos fc' = wme ∧ isDataQos fc' = wme ∧ hasA4 fc' = hasA4 fc ∧
      hdrlen fc' = 24 + (if hasA4 fc then 6 else 0) + if wme then 2 else 0 := by
  simp only [mem_cons, not_mem_nil, or_false] at hfc
  rcases hfc with rfl | rfl | rfl | rfl <;> cases wme <;> cases protect <;> decide

section Build

variable {env : TxEnv} {s : Local} {i : SdataId} {j : StaId} {f : FastTx} {eth : EthFrame} {ok : Bool}

theorem checkFastXmit_cases (hvalid : checkFastXmit s ok j = some f) :
    ∃ h ivLen, (s.sta j).staState = .authorized ∧
      fastTxAddrs (s.sdataOf j) (s.sta j) = some (h, f.daIsAddr3, f.saField) ∧
      fastTxKey s j = some (f.key, f.pnOffs, ivLen) ∧
      f.hdr = { h with
        frameControl := h.frameControl ||| (if (s.sta j).wme then STYPE_QOS_DATA else 0) |||
          if f.key.isSome then FCTL_PROTECTED else 0
        rest := h.rest ++ (if (s.sta j).wme then [0, 0] else []) ++ List.replicate ivLen 0 ++
          rfc1042Header } := by
  simp only [checkFastXmit] at hvalid
  split at hvalid
  · cases hvalid
  · rename_i hok
    simp only [Bool.or_eq_true, not_or] at hok
    have hauth : (s.sta j).staState = .authorized := by simpa using hok.1.2
    split at hvalid
    · rename_i h da sa key pnOffs ivLen haddrs hkey
      cases hvalid
      exact ⟨h, ivLen, hauth, haddrs, hkey, rfl⟩
    · cases hvalid

/-- **All bytes of a frame of the fast path**: addresses, TID, room for the cipher header, RFC 1042
header, and the frame from its EtherType on. -/
theorem FastTx.build_eq (hvalid : checkFastXmit s ok j = some f) (eth : EthFrame) :
    ∃ h ivLen, (s.sta j).staState = .authorized ∧
      fastTxAddrs (s.sdataOf j) (s.sta j) = some (h, f.daIsAddr3, f.saField) ∧
      fastTxKey s j = some (f.key, f.pnOffs, ivLen) ∧
      f.hdr.rest.length = h.rest.length + (if (s.sta j).wme then 2 else 0) + ivLen + 6 ∧
      f.build eth = { eth.place h f.daIsAddr3 f.saField with
        frameControl := h.frameControl ||| (if (s.sta j).wme then STYPE_QOS_DATA else 0) |||
          if f.key.isSome then FCTL_PROTECTED else 0
        rest := (eth.place h f.daIsAddr3 f.saField).rest ++
          (if (s.sta j).wme then [UInt8.ofNat (eth.priority % 8), 0] else []) ++
          List.replicate ivLen 0 ++ (rfc1042Header ++ eth.payload) } := by
  obtain ⟨h, ivLen, hauth, haddrs, hkey, hf⟩ := checkFastXmit_cases hvalid
  obtain ⟨hfc, hlen, hroom⟩ := fastTxAddrs_shape haddrs
  obtain ⟨hqos, -, ha4, -⟩ := qos_of_frameControl hfc (s.sta j).wme f.key.isSome
  refine ⟨h, ivLen, hauth, haddrs, hkey, ?_, ?_⟩
  · rw [hf]
    simp only [length_append, length_replicate, rfc1042Header, length_cons,
      length_nil]
    cases (s.sta j).wme <;> rfl
  have hsix : f.saField = 2 ∨ f.saField = 3 ∨ f.saField = 4 ∧ 6 ≤ h.rest.length := by
    rcases hroom with ⟨-, hsa | ⟨hsa, -⟩⟩ | ⟨hfour, hsa⟩
    · exact .inl hsa
    · exact .inr (.inl hsa)
    · exact .inr (.inr ⟨hsa, by rw [hlen, if_pos hfour]⟩)
  rw [FastTx.build_eq_place, hf]
  dsimp only
  simp only [append_assoc]
  rw [eth.place_append h f.daIsAddr3 f.saField hsix]
  dsimp only
  rw [hqos, ha4, ← hlen]
  cases (s.sta j).wme with
  | false => simp
  | true =>
    have htid := Bytes.memcpyAt_append (eth.place h f.daIsAddr3 f.saField).rest
      (UInt8.ofNat (eth.priority % 8)) 0
      (0 :: (List.replicate ivLen 0 ++ (rfc1042Header ++ eth.payload)))
    rw [eth.length_rest_place] at htid
    simpa using htid

theorem buildHdr_eq {p : Hdr} (hchan : env.chanctx = true) (hauth : (s.sta j).staState = .authorized)
    (haddrs : buildAddrs env s i (some j) eth = some p) : buildHdr env s i (some j) eth = some {
      hdr := { p with
        frameControl := p.frameControl ||| if (s.sta j).wme then STYPE_QOS_DATA else 0
        rest := p.rest ++ (if (s.sta j).wme then [0, 0] else []) ++ eth.encaps }
      priority := eth.priority } := by
  have hfc : ∀ wme : Bool, (if wme then p.frameControl ||| STYPE_QOS_DATA else p.frameControl) =
      p.frameControl ||| if wme then STYPE_QOS_DATA else 0 := by
    intro wme
    cases wme <;> simp
  simp only [buildHdr, hchan, haddrs, hauth, hfc, any_some, bind_some, Bool.not_true,
    Bool.false_eq_true, if_false, decide_true, Bool.and_false, Bool.false_and]

end Build

/-! ### Comparing the frames -/

/-- What `ieee80211_build_hdr` leaves to others: the TID, the Protected bit, and `ivLen` bytes in
front of the body for the cipher header. -/
def Hdr.filled (h : Hdr) (tid : ℕ) (protect : Bool) (ivLen : ℕ) : Hdr :=
  let n := hdrlen h.frameControl - 24
  let head := h.rest.take n
  { h with
    frameControl := h.frameControl ||| if protect then FCTL_PROTECTED else 0
    rest := (if isDataQos h.frameControl then
        Bytes.memcpyAt head (if hasA4 h.frameControl then 6 else 0) [UInt8.ofNat tid]
      else head) ++ List.replicate ivLen 0 ++ h.rest.drop n }

/-- Other protocols than AppleTalk ARP and IPX get an RFC 1042 header. -/
theorem EthFrame.encaps_eq_rfc1042 {eth : EthFrame} (htype : ETH_P_802_3_MIN ≤ eth.etherType)
    (haarp : eth.etherType ≠ ETH_P_AARP) (hipx : eth.etherType ≠ ETH_P_IPX) :
    eth.encaps = rfc1042Header ++ eth.payload := by
  rw [ETH_P_AARP] at haarp
  rw [ETH_P_IPX] at hipx
  simp [EthFrame.encaps, haarp, hipx, htype]

section Compare

variable {env : TxEnv} {s : Local} {i : SdataId} {j : StaId} {f : FastTx} {eth : EthFrame} {ok : Bool}

/-- **The fast path sends what the slow path builds**, of a frame it accepts that is neither
AppleTalk ARP nor IPX, on the station's interface or one that looks like it: but for the TID, the
Protected bit, set exactly if there is a key, and the room for its cipher header. -/
theorem fast_frame_eq_filled (hvalid : checkFastXmit s ok j = some f)
    (haccept : xmitFastAccepts env f eth = true) (hchan : env.chanctx = true)
    (hi : SameHeader s i (s.sta j).sdata) (haarp : eth.etherType ≠ ETH_P_AARP)
    (hipx : eth.etherType ≠ ETH_P_IPX) : ∃ skb ivLen, buildHdr env s i (some j) eth = some skb ∧
      fastTxKey s j = some (f.key, f.pnOffs, ivLen) ∧
      f.build eth = skb.hdr.filled (eth.priority % 8) f.key.isSome ivLen := by
  obtain ⟨h, ivLen, hauth, haddrs, hkey, -, hbuild⟩ := FastTx.build_eq hvalid eth
  obtain ⟨hfc, hlen, -⟩ := fastTxAddrs_shape haddrs
  obtain ⟨-, hqos, ha4, hhdrlen⟩ := qos_of_frameControl hfc (s.sta j).wme false
  simp only [xmitFastAccepts, Bool.and_eq_true, Bool.not_eq_true', decide_eq_true_eq] at haccept
  obtain ⟨⟨⟨hport, htype⟩, -⟩, -⟩ := haccept
  have hslow : buildAddrs env s i (some j) eth = some (eth.place h f.daIsAddr3 f.saField) :=
    hi.buildAddrs_eq.trans (buildAddrs_eq_place hport haddrs)
  refine ⟨_, ivLen, buildHdr_eq hchan hauth hslow, hkey, ?_⟩
  rw [hbuild, EthFrame.encaps_eq_rfc1042 htype haarp hipx]
  simp only [Bool.false_eq_true, if_false, UInt16.or_zero] at hqos ha4 hhdrlen
  rw [Hdr.filled]
  dsimp only
  rw [eth.place_frameControl, hqos, ha4, hhdrlen, ← hlen]
  have hp := eth.length_rest_place h f.daIsAddr3 f.saField
  cases (s.sta j).wme with
  | false => simp
  | true =>
    have hn : 24 + h.rest.length + 2 - 24 =
        ((eth.place h f.daIsAddr3 f.saField).rest ++ [0, 0]).length := by
      simp only [length_append, length_cons, length_nil]
      omega
    have htid := Bytes.memcpyAt_append (eth.place h f.daIsAddr3 f.saField).rest
      (UInt8.ofNat (eth.priority % 8)) 0 [0]
    rw [hp] at htid
    simp only [if_true, hn, take_left, drop_left, htid]

end Compare

/-! ### A station with QoS and a key -/

/-- The station has a key in the hardware, which leaves the cipher header to the host. -/
def qosStaEvents : List Event :=
  setupAp 0 (toyMac 1) ++
    [.addSta 0 { addr := toyMac 3, sdata := 0, wme := true },
      .key (.alloc {
        cipher := .ccmp
        key := List.replicate 16 0
        uploadedToHardware := true
        generateIv := true }),
      .key (.setPtk 0 0 (some 0)), .key (.setPtkIdx 0 0), .moveState 0 .authorized,
      .checkFastXmit true 0]

/-- A packet for the voice queue. -/
def voiceToSta : EthFrame := { ethToSta with priority := 6 }

/-- What both paths make of a packet that the fast path accepts. -/
def bothFrames (s : Local) (eth : EthFrame) : Option (Hdr × Hdr) :=
  (checkFastXmit s true 0).bind fun f =>
    if (s.sta 0).fastTx = some f ∧ lookupRaSta {} s 0 eth = some (some 0) ∧ (s.sta 0).sdata = 0 ∧
        xmitFastAccepts {} f eth = true then
      (buildHdr {} s 0 (some 0) eth).map fun skb => (f.build eth, skb.hdr)
    else none

theorem bothFrames_eq_some {s : Local} {eth : EthFrame} {fast slow : Hdr}
    (h : bothFrames s eth = some (fast, slow)) :
    ∃ f skb, checkFastXmit s true 0 = some f ∧ (s.sta 0).fastTx = some f ∧
      lookupRaSta {} s 0 eth = some (some 0) ∧ (s.sta 0).sdata = 0 ∧
      xmitFastAccepts {} f eth = true ∧ buildHdr {} s 0 (some 0) eth = some skb ∧
      f.build eth = fast ∧ skb.hdr = slow := by
  obtain ⟨f, hf, h⟩ := bind_eq_some_iff.mp h
  split at h
  · rename_i hcond
    obtain ⟨skb, hskb, heq⟩ := map_eq_some_iff.mp h
    obtain ⟨hfast, hslow⟩ := Prod.mk.inj heq
    exact ⟨f, skb, hf, hcond.1, hcond.2.1, hcond.2.2.1, hcond.2.2.2, hskb, hfast, hslow⟩
  · cases h

/-- A packet of priority 6 to a station with QoS and a key: the fast path's frame says Protected and
TID 6, with eight bytes for the cipher header; `ieee80211_build_hdr` has none of it. -/
theorem fast_header_says_more :
    ∃ s os f skb, Reach (deviceStep toyHash toyCrypto) (fun _ _ _ => True) (bootLocal {}) s os ∧
      checkFastXmit s true 0 = some f ∧ (s.sta 0).fastTx = some f ∧
      lookupRaSta {} s 0 voiceToSta = some (some 0) ∧ xmitFastAccepts {} f voiceToSta = true ∧
      buildHdr {} s 0 (some 0) voiceToSta = some skb ∧
      (f.build voiceToSta).frameControl = 0x4288 ∧ skb.hdr.frameControl = 0x0288 ∧
      (f.build voiceToSta).rest = [6, 0] ++ List.replicate 8 0 ++ voiceToSta.encaps ∧
      skb.hdr.rest = [0, 0] ++ voiceToSta.encaps := by
  have hrun : (run (deviceStep toyHash toyCrypto) (bootLocal {}) qosStaEvents).bind
      (fun r => bothFrames r.1 voiceToSta) = some
        (⟨0x4288, 0, toyMac 3, toyMac 1, toyMac 9, 0,
          [6, 0] ++ List.replicate 8 0 ++ voiceToSta.encaps⟩,
        ⟨0x0288, 0, toyMac 3, toyMac 1, toyMac 9, 0, [0, 0] ++ voiceToSta.encaps⟩) := by
    decide +kernel
  obtain ⟨⟨s, os⟩, hr, hboth⟩ := bind_eq_some_iff.mp hrun
  obtain ⟨f, skb, hvalid, hcached, hlookup, -, haccept, hskb, hfast, hslow⟩ :=
    bothFrames_eq_some hboth
  refine ⟨s, os, f, skb, Reach.of_run_init hr, hvalid, hcached, hlookup, haccept, hskb, ?_⟩
  rw [hfast, hslow]
  exact ⟨rfl, rfl, rfl, rfl⟩

theorem fast_frame_eq_filled_voice :
    ∃ s os f skb, Reach (deviceStep toyHash toyCrypto) (fun _ _ _ => True) (bootLocal {}) s os ∧
      checkFastXmit s true 0 = some f ∧ xmitFastAccepts {} f voiceToSta = true ∧
      buildHdr {} s 0 (some 0) voiceToSta = some skb ∧
      ∃ ivLen, f.build voiceToSta = skb.hdr.filled 6 f.key.isSome ivLen := by
  have hrun : ((run (deviceStep toyHash toyCrypto) (bootLocal {}) qosStaEvents).bind
      fun r => bothFrames r.1 voiceToSta).isSome = true := by
    decide +kernel
  obtain ⟨⟨fast, slow⟩, h⟩ := isSome_iff_exists.mp hrun
  obtain ⟨⟨s, os⟩, hr, hboth⟩ := bind_eq_some_iff.mp h
  obtain ⟨f, -, hvalid, -, -, hsdata, haccept, -⟩ := bothFrames_eq_some hboth
  obtain ⟨skb, ivLen, hskb, -, heq⟩ := fast_frame_eq_filled (i := 0) hvalid haccept rfl
    (.inl hsdata.symm) (by decide) (by decide)
  exact ⟨s, os, f, skb, Reach.of_run_init hr, hvalid, haccept, hskb, ivLen, heq⟩

end Mac80211
