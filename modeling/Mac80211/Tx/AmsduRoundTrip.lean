import Mac80211.Tx.Amsdu

/-!
# An A-MSDU there and back

What `ieee80211_amsdu_to_8023s` makes of frames that `ieee80211_amsdu_aggregate` has joined. Every
frame in the queue is one of the fast path as it was built, or consists of the subframes that were
joined.

## Main definitions

* `joinable` — names what breaks it

## Main results

* `amsdu_round_trip_of_reach`
-/

namespace Mac80211

open Machine List Option

/-! ### A frame of the fast path -/

/-- A header that `ieee80211_check_fast_xmit` has made. -/
def FastTx.Valid (f : FastTx) : Prop := ∃ s ok j, checkFastXmit s ok j = some f

/-- Two cached headers are of one length and have the addresses at the same offsets. -/
def FastTx.sameLayout (f g : FastTx) : Bool :=
  f.hdrLen = g.hdrLen && f.daIsAddr3 = g.daIsAddr3 && f.saField = g.saField

section Built

variable {f g : FastTx} {eth : EthFrame}

/-- The parts of a frame that was built from a cached header. -/
structure Built (f : FastTx) (eth : EthFrame) (h : Hdr) : Prop where
  length : h.rest.length = f.hdrLen - 24 + eth.subframeLen
  body : h.rest.drop (f.hdrLen - 24) = rfc1042Header ++ eth.payload
  da : f.da h = eth.dest
  sa : f.sa h = eth.source
  /-- There is a fourth address exactly if the source is one. -/
  a4 : hasA4 h.frameControl = true ↔ f.saField = 4

/-- The source is the second, third or fourth address, and there is room for it, and for QoS control. -/
structure FastTx.Fields (f : FastTx) : Prop where
  saField : f.saField = 2 ∨ f.saField = 3 ∨ f.saField = 4
  addr4 : f.saField = 4 → 6 ≤ f.hdrLen - 24
  qos : fastQos f.hdr.frameControl = true → (if f.saField = 4 then 6 else 0) + 2 ≤ f.hdrLen - 24
  hdrLen : 24 ≤ f.hdrLen

theorem FastTx.Valid.fields (hf : f.Valid) : f.Fields := by
  obtain ⟨s, ok, j, hvalid⟩ := hf
  obtain ⟨h, ivLen, -, haddrs, -, hf⟩ := checkFastXmit_cases hvalid
  obtain ⟨hfc, hlen, hsa⟩ := fastTxAddrs_shape haddrs
  obtain ⟨hqos, -, -, -⟩ := qos_of_frameControl hfc (s.sta j).wme f.key.isSome
  have hlength : f.hdrLen - 24 = h.rest.length + (if (s.sta j).wme then 2 else 0) + ivLen := by
    rw [FastTx.hdrLen, hf]
    simp only [length_append, length_replicate, rfc1042Header, length_cons,
      length_nil]
    cases (s.sta j).wme
    · simp only [Bool.false_eq_true, if_false, length_nil]
      omega
    · simp only [if_true, length_cons, length_nil]
      omega
  have hfour : f.saField = 4 → h.rest.length = 6 := by
    intro hsa'
    rcases hsa with ⟨-, h2 | ⟨h3, -⟩⟩ | ⟨ha4, -⟩
    · omega
    · omega
    · rw [hlen, if_pos ha4]
  refine ⟨?_, ?_, ?_, Nat.le_add_right 24 _⟩
  · rcases hsa with ⟨-, h2 | ⟨h3, -⟩⟩ | ⟨-, h4⟩
    · exact .inl h2
    · exact .inr (.inl h3)
    · exact .inr (.inr h4)
  · intro hsa'
    have := hfour hsa'
    omega
  · intro hq
    rw [hf] at hq
    have hwme : (s.sta j).wme = true := hqos.symm.trans hq
    rw [hwme, if_pos rfl] at hlength
    split
    · rename_i hsa'
      have := hfour hsa'
      omega
    · omega

theorem FastTx.Valid.built (hf : f.Valid) (eth : EthFrame) : Built f eth (f.build eth) := by
  obtain ⟨s, ok, j, hvalid⟩ := hf
  obtain ⟨h, ivLen, -, haddrs, -, hlength, hbuild⟩ := FastTx.build_eq hvalid eth
  obtain ⟨hfc, hlen, hsa⟩ := fastTxAddrs_shape haddrs
  obtain ⟨-, -, ha4, -⟩ := qos_of_frameControl hfc (s.sta j).wme f.key.isSome
  set p := eth.place h f.daIsAddr3 f.saField with hp
  set head := p.rest ++ (if (s.sta j).wme then [UInt8.ofNat (eth.priority % 8), 0] else []) ++
    List.replicate ivLen 0 with hhead
  have hoff : head.length = f.hdrLen - 24 := by
    have hplen : p.rest.length = h.rest.length := eth.length_rest_place h f.daIsAddr3 f.saField
    rw [FastTx.hdrLen, hlength, hhead, length_append, length_append, hplen,
      length_replicate]
    cases (s.sta j).wme
    · simp only [Bool.false_eq_true, if_false, length_nil]
      omega
    · simp only [if_true, length_cons, length_nil]
      omega
  rw [hbuild]
  constructor
  · rw [← hoff, ← eth.length_llc]
    exact length_append
  · exact drop_left' hoff
  · rw [FastTx.da]
    show (if f.daIsAddr3 then p.addr3 else p.addr1) = _
    rw [hp, EthFrame.place_addr1, EthFrame.place_addr3]
    rcases hsa with ⟨-, h2 | ⟨-, hda⟩⟩ | ⟨-, h4⟩
    · cases f.daIsAddr3 <;> simp [h2]
    · simp [hda]
    · cases f.daIsAddr3 <;> simp [h4]
  · rw [FastTx.sa]
    rcases hsa with ⟨-, h2 | ⟨h3, -⟩⟩ | ⟨hyes, h4⟩
    · simp [h2, hp, EthFrame.place_addr2]
    · simp [h3, hp, EthFrame.place_addr3]
    · have hrest : p.rest = eth.source.toList := by
        have hsix : h.rest.length = 6 := by rw [hlen, if_pos hyes]
        rw [hp, h4]
        show (Hdr.setAddr4 (if f.daIsAddr3 then _ else _) eth.source).rest = _
        cases f.daIsAddr3 <;> simp [Hdr.setAddr4, hsix]
      rw [h4, hhead, hrest]
      have hmac := macOfBytes_append eth.source []
      simp only [nil_append, length_nil] at hmac
      simp only [append_assoc]
      exact hmac _
  · rw [ha4]
    rcases hsa with ⟨hno, h2 | ⟨h3, -⟩⟩ | ⟨hyes, h4⟩
    · simp [hno, h2]
    · simp [hno, h3]
    · simp [hyes, h4]

end Built

/-! ### Rewriting the head -/

/-- Two headers with the same frame control, and the same bytes from an offset on. -/
structure SameBody (off : ℕ) (h h' : Hdr) : Prop where
  frameControl : h'.frameControl = h.frameControl
  length : h'.rest.length = h.rest.length
  body : h'.rest.drop off = h.rest.drop off

section Rewrite

variable {off : ℕ} {h h' h'' : Hdr} {f g : FastTx} {d : SubIfData} {eth : EthFrame}

theorem SameBody.refl (off : ℕ) (h : Hdr) : SameBody off h h := ⟨rfl, rfl, rfl⟩

theorem SameBody.trans (h₁ : SameBody off h h') (h₂ : SameBody off h' h'') : SameBody off h h'' :=
  ⟨h₂.frameControl.trans h₁.frameControl, h₂.length.trans h₁.length, h₂.body.trans h₁.body⟩

theorem sameBody_setDa (f : FastTx) (h : Hdr) (a : Mac) : SameBody off h (f.setDa h a) := by
  rw [FastTx.setDa]
  split <;> exact ⟨rfl, rfl, rfl⟩

theorem sameBody_setSa (hf : f.Fields) (hoff : f.saField = 4 → 6 ≤ off) (h : Hdr) (a : Mac) :
    SameBody off h (f.setSa h a) := by
  rw [FastTx.setSa]
  rcases hf.saField with hsa | hsa | hsa
  · rw [hsa]
    exact ⟨rfl, rfl, rfl⟩
  · rw [hsa]
    exact ⟨rfl, rfl, rfl⟩
  · rw [hsa]
    refine ⟨h.setAddr4_frameControl a, h.length_rest_setAddr4 a, ?_⟩
    show (h.setAddr4 a).rest.drop off = _
    rw [Hdr.setAddr4]
    split
    · rename_i hsix
      have hlen : 0 + a.toList.length = 6 := by simp
      have hcopy : a.toList ++ h.rest.drop 6 = Bytes.memcpyAt h.rest 0 a.toList := by
        rw [Bytes.memcpyAt, hlen]
        rfl
      show (a.toList ++ h.rest.drop 6).drop off = _
      rw [hcopy]
      exact Bytes.drop_memcpyAt (hlen.trans_le hsix) (hlen.trans_le (hoff hsa))
    · rfl

theorem sameBody_amsduOuter (hf : f.Fields) (hoff : f.saField = 4 → 6 ≤ off) (d : SubIfData) (h : Hdr) :
    SameBody off h (amsduOuter d f h) := by
  rw [amsduOuter]
  split
  · exact SameBody.refl off h
  · rename_i bssid _
    have hsa : SameBody off h (if hasFromds h.frameControl then f.setSa h bssid else h) := by
      split
      · exact sameBody_setSa hf hoff h bssid
      · exact SameBody.refl off h
    dsimp only
    generalize (if hasFromds h.frameControl then f.setSa h bssid else h) = h₁ at hsa ⊢
    split
    · exact hsa.trans (sameBody_setDa f h₁ bssid)
    · exact hsa

theorem sameBody_setAmsduPresent (hoff : (if hasA4 h.frameControl then 6 else 0) + 1 ≤ off)
    (hlen : off ≤ h.rest.length) : SameBody off h (setAmsduPresent h) := by
  have hbuf : (if hasA4 h.frameControl then 6 else 0) +
      [h.byte (if hasA4 h.frameControl then 6 else 0) ||| 0x80].length ≤ h.rest.length :=
    hoff.trans hlen
  exact ⟨rfl, Bytes.length_memcpyAt hbuf, Bytes.drop_memcpyAt hbuf hoff⟩

theorem insertSubframeHdr_body (hg : g.Fields) (hb : Built g eth h) (hlayout : f.sameLayout g = true)
    (hfits : eth.subframeLen < 2 ^ 16) :
    let h' := insertSubframeHdr f h.len h
    h'.frameControl = h.frameControl ∧ h'.rest.length = h.rest.length + 14 ∧
      h'.rest.drop (g.hdrLen - 24) = eth.subframe := by
  simp only [FastTx.sameLayout, Bool.and_eq_true, decide_eq_true_eq] at hlayout
  obtain ⟨⟨hlen, hda⟩, hsa⟩ := hlayout
  have hda' : f.da h = eth.dest := by
    rw [← hb.da, FastTx.da, FastTx.da, hda]
  have hsa' : f.sa h = eth.source := by
    rw [← hb.sa, FastTx.sa, FastTx.sa, hsa]
  have hsub : (((h.len : ℤ) - f.hdrLen) % 2 ^ 16).toNat = eth.subframeLen := by
    have h₁ := hb.length
    have h₂ := hg.hdrLen
    have h₃ : (h.len : ℤ) - f.hdrLen = (eth.subframeLen : ℤ) := by
      rw [hlen, Hdr.len]
      omega
    rw [h₃]
    omega
  have htake : (h.rest.take (g.hdrLen - 24)).length = g.hdrLen - 24 := by
    have h₁ := hb.length
    rw [length_take]
    omega
  have hrest : (insertSubframeHdr f h.len h).rest = h.rest.take (g.hdrLen - 24) ++ eth.subframe := by
    rw [insertSubframeHdr]
    dsimp only
    rw [hda', hsa', hsub, hlen, hb.body]
    rfl
  refine ⟨rfl, ?_, ?_⟩
  · have h₁ := hb.length
    rw [hrest, length_append, htake, eth.length_subframe]
    omega
  · rw [hrest]
    exact drop_left' htake

end Rewrite

/-! ### The queue -/

/-- What follows the header of a frame that was built from `g`: the body of an A-MSDU. -/
def QueuedSkb.body (k : QueuedSkb) (g : FastTx) : List UInt8 :=
  k.hdr.rest.drop (g.hdrLen - 24) ++ k.fragList.flatten

/-- The frame is as `ieee80211_xmit_fast` has queued it. -/
structure Single (k : QueuedSkb) (g : FastTx) (eth : EthFrame) : Prop where
  hdr : k.hdr = g.build eth
  fragList : k.fragList = []
  len : k.len = k.hdr.len
  frames : k.frames = [eth]
  header : 2 ≤ eth.payload.length

/-- The frame is an A-MSDU of the frames it consists of. -/
structure Joined (k : QueuedSkb) (g : FastTx) : Prop where
  nonempty : k.frames ≠ []
  aggregatable : ∀ e ∈ k.frames, e.Aggregatable
  /-- Their subframes, each but the last padded to a multiple of four. -/
  body : k.body g = Padded.join 4 0 (k.frames.map EthFrame.subframe)
  len : k.len = g.hdrLen + (k.body g).length

/-- A frame of the queue. -/
structure SkbInv (k : QueuedSkb) : Prop where
  /-- The cached header it was built from was up to date. -/
  valid : ∀ g, k.cached = some g → g.Valid
  /-- A frame of the fast path. -/
  single : k.amsdu = false → ∀ g, k.cached = some g → ∃ eth, Single k g eth
  /-- An A-MSDU. -/
  joined : k.amsdu = true → ∃ g, k.cached = some g ∧ Joined k g

/-- The queues of a station. -/
structure AmsduInv (s : AmsduTxq) : Prop where
  fastTx : ∀ f, s.fastTx = some f → f.Valid
  skb : ∀ flow, ∀ k ∈ s.flows flow, SkbInv k

/-- An EtherType that the receiver finds behind an RFC 1042 header. -/
def EthFrame.rfc1042Type (eth : EthFrame) : Bool :=
  eth.etherType ≠ ETH_P_AARP && eth.etherType ≠ ETH_P_IPX

/-- The head is rewritten: it is no probe, and there is room or memory. -/
def headReady (env : AggEnv) (head : QueuedSkb) : Bool :=
  !head.rateCtrlProbe && (head.amsdu || 14 ≤ head.headroom || env.allocHead)

/-- A frame and a head that fit together. An A-MSDU needs a header of the same length modulo four,
any other head the same layout, room in front, and an EtherType that goes with RFC 1042, as the
frame does. -/
def joinable (f : FastTx) (env : AggEnv) (eth : EthFrame) (head : QueuedSkb) : Bool :=
  (if head.amsdu then head.cached.any fun g => f.hdrLen % 4 = g.hdrLen % 4
    else (head.cached.any fun g => f.sameLayout g) && (14 ≤ head.headroom || !env.allocPad) &&
      head.frames.all EthFrame.rfc1042Type) &&
    (!env.allocPad || eth.rfc1042Type)

/-- What a step must find: where a frame is about to be appended to another, the two fit together. -/
def amsduFits (s : AmsduTxq) : AmsduOp → Bool
  | .xmitFast env tx _ eth =>
    match s.fastTx, (s.flows env.flow).getLast? with
    | some f, some head =>
      !(xmitFastAccepts tx f eth && fastQos f.hdr.frameControl && amsduAllowed env eth head &&
        headReady env head) || joinable f env eth head
    | _, _ => true
  | _ => true

/-- The condition on a step. -/
def AmsduCond (s : AmsduTxq) (_ : List Empty) (op : AmsduOp) : Prop := amsduFits s op = true
deriving Decidable

section Queue

variable {s s' : AmsduTxq} {f g : FastTx} {d : SubIfData} {env : AggEnv} {eth eth' : EthFrame}
  {head head' k : QueuedSkb}

theorem lt_of_amsduAllowed (h : amsduAllowed env eth head = true) :
    12 + eth.payload.length + head.len < 2 ^ 16 := by
  have hcap : ∀ len cap, capLen len cap ≤ len := by
    intro len cap
    rw [capLen]
    split <;> omega
  simp only [amsduAllowed, Bool.and_eq_true, decide_eq_true_eq] at h
  have h₁ := h.1.1.1.2
  have h₂ := hcap (capLen env.maxAmsduLen.toNat env.maxRcAmsduLen) env.maxTidAmsduLen
  have h₃ := hcap env.maxAmsduLen.toNat env.maxRcAmsduLen
  have h₄ := env.maxAmsduLen.toNat_lt
  omega

theorem aggregatable_of_type (htype : eth.rfc1042Type = true) (hheader : 2 ≤ eth.payload.length)
    (hfits : eth.subframeLen < 2 ^ 16) : eth.Aggregatable := by
  simp only [EthFrame.rfc1042Type, Bool.and_eq_true, decide_eq_true_eq] at htype
  exact ⟨hheader, hfits, htype.1, htype.2⟩

/-- **The first frame becomes a subframe.** -/
theorem Single.prepareHead (h : Single head g eth) (hg : g.Valid) (hf : f.Valid)
    (hqos : fastQos f.hdr.frameControl = true) (hlayout : f.sameLayout g = true)
    (heth : eth.Aggregatable) {alloc : Bool} (hamsdu : head.amsdu = false)
    (hprep : amsduPrepareHead d f alloc head = some head') :
    Joined head' g ∧ head'.frames = [eth] ∧ head'.fragList = [] ∧ head'.cached = head.cached ∧
      head'.amsdu = true := by
  rw [amsduPrepareHead, hamsdu] at hprep
  split at hprep
  · cases hprep
  · simp only [Bool.false_eq_true, if_false] at hprep
    split at hprep
    · cases hprep
    · cases hprep
      have hb : Built g eth head.hdr := h.hdr ▸ hg.built eth
      have hbody := insertSubframeHdr_body hg.fields hb hlayout heth.fits
      rw [← h.len] at hbody
      simp only [FastTx.sameLayout, Bool.and_eq_true, decide_eq_true_eq] at hlayout
      obtain ⟨⟨hlen, -⟩, hsa⟩ := hlayout
      obtain ⟨hfc₁, hlen₁, hdrop₁⟩ := hbody
      have houter := sameBody_amsduOuter hf.fields (fun h4 => hlen ▸ hf.fields.addr4 h4) d
        (insertSubframeHdr f head.len head.hdr)
      have hoff : (if hasA4 (amsduOuter d f (insertSubframeHdr f head.len head.hdr)).frameControl
          then 6 else 0) + 1 ≤ g.hdrLen - 24 := by
        have hq := hf.fields.qos hqos
        have hiff : hasA4 head.hdr.frameControl = true ↔ f.saField = 4 := by rw [hb.a4, hsa]
        rw [houter.frameControl, hfc₁, if_congr hiff rfl rfl]
        omega
      have hpresent := sameBody_setAmsduPresent hoff (by
        rw [houter.length, hlen₁, hb.length]
        omega)
      have hsame := houter.trans hpresent
      have hbody : QueuedSkb.body { head with
          hdr := setAmsduPresent (amsduOuter d f (insertSubframeHdr f head.len head.hdr))
          len := head.len + 14
          headroom := (if head.headroom < 14 then head.headroom + 14 else head.headroom) - 14
          amsdu := true } g = eth.subframe := by
        rw [QueuedSkb.body, hsame.body, hdrop₁, h.fragList]
        exact append_nil _
      refine ⟨⟨?_, ?_, ?_, ?_⟩, h.frames, h.fragList, rfl, rfl⟩
      · simp [h.frames]
      · simpa [h.frames] using heth
      · rw [hbody, h.frames]
        rfl
      · have h₁ := hb.length
        have h₂ := hg.fields.hdrLen
        rw [hbody, eth.length_subframe]
        show head.len + 14 = _
        rw [h.len, Hdr.len]
        omega

/-- **A frame is appended to an A-MSDU**, behind the padding of what is there. -/
theorem Joined.append (h : Joined head g) (hmod : f.hdrLen % 4 = g.hdrLen % 4)
    (heth : eth.Aggregatable) (nfrags : ℕ) : Joined { head with
      fragList := head.fragList ++ [paddedSubframe (amsduPad f head) eth]
      len := head.len + (paddedSubframe (amsduPad f head) eth).length
      nfrags := nfrags
      frames := head.frames ++ [eth] } g := by
  have hpad : amsduPad f head = Padded.pad 4 (head.body g).length := by
    have hlen := h.len
    rw [amsduPad, Padded.pad]
    omega
  have hsub : paddedSubframe (amsduPad f head) eth =
      List.replicate (Padded.pad 4 (head.body g).length) 0 ++ eth.subframe := by
    rw [paddedSubframe, hpad, EthFrame.subframe, EthFrame.subframeLen,
      show 12 + eth.payload.length - 6 = 6 + eth.payload.length by omega]
  have hbody : QueuedSkb.body { head with
      fragList := head.fragList ++ [paddedSubframe (amsduPad f head) eth]
      len := head.len + (paddedSubframe (amsduPad f head) eth).length
      nfrags := nfrags
      frames := head.frames ++ [eth] } g = head.body g ++ paddedSubframe (amsduPad f head) eth := by
    simp only [QueuedSkb.body, flatten_append, flatten_singleton, append_assoc]
  refine ⟨by simp, ?_, ?_, ?_⟩
  · intro e he
    rcases mem_append.mp he with he | he
    · exact h.aggregatable e he
    · rw [mem_singleton.mp he]
      exact heth
  · obtain ⟨e, es, hes⟩ := exists_cons_of_ne_nil h.nonempty
    have hjoin := h.body
    rw [hes, map_cons] at hjoin
    rw [hbody, hsub, hes, map_append, map_cons, map_singleton,
      Padded.join_concat 0 (by omega), ← hjoin, Padded.fill, append_assoc]
  · rw [hbody, length_append]
    show head.len + _ = _
    rw [h.len]
    omega

theorem SkbInv.prepareHead (h : SkbInv head) (hf : f.Valid) (hqos : fastQos f.hdr.frameControl = true)
    (hallowed : amsduAllowed env eth head = true) (hjoin : joinable f env eth head = true)
    (hprep : amsduPrepareHead d f env.allocHead head = some head') :
    head'.amsdu = true ∧ ∃ g, head'.cached = some g ∧ g.Valid ∧ Joined head' g ∧
      f.hdrLen % 4 = g.hdrLen % 4 := by
  rw [joinable, Bool.and_eq_true] at hjoin
  cases hamsdu : head.amsdu with
  | true =>
    rw [hamsdu, if_pos rfl] at hjoin
    obtain ⟨g, hg, hjoined⟩ := h.joined hamsdu
    rw [hg, any_some, decide_eq_true_eq] at hjoin
    rw [amsduPrepareHead, hamsdu] at hprep
    split at hprep
    · cases hprep
    · rw [if_pos rfl] at hprep
      cases hprep
      exact ⟨hamsdu, g, hg, h.valid g hg, hjoined, hjoin.1⟩
  | false =>
    rw [hamsdu, if_neg Bool.false_ne_true, Bool.and_eq_true, Bool.and_eq_true] at hjoin
    obtain ⟨⟨⟨hlayout, -⟩, htype⟩, -⟩ := hjoin
    obtain ⟨g, hg, hlayout⟩ := (any_eq_true _ _).mp hlayout
    obtain ⟨e, hsingle⟩ := h.single hamsdu g hg
    have he : e.Aggregatable := by
      rw [hsingle.frames] at htype
      refine aggregatable_of_type (by simpa using htype) hsingle.header ?_
      have hlt := lt_of_amsduAllowed hallowed
      have hlen := ((h.valid g hg).built e).length
      rw [hsingle.len, Hdr.len, hsingle.hdr, hlen] at hlt
      omega
    obtain ⟨hjoined, -, -, hcached, hamsdu'⟩ :=
      hsingle.prepareHead (h.valid g hg) hf hqos hlayout he hamsdu hprep
    simp only [FastTx.sameLayout, Bool.and_eq_true, decide_eq_true_eq] at hlayout
    exact ⟨hamsdu', g, hcached.trans hg, h.valid g hg, hjoined, by rw [hlayout.1.1]⟩

theorem headReady_of_prepareHead (hprep : amsduPrepareHead d f env.allocHead head = some head') :
    headReady env head = true := by
  rw [amsduPrepareHead] at hprep
  rw [headReady]
  cases hprobe : head.rateCtrlProbe with
  | true => simp [hprobe] at hprep
  | false =>
    cases hamsdu : head.amsdu with
    | true => rfl
    | false =>
      by_cases hroom : head.headroom < 14
      · cases halloc : env.allocHead with
        | true => simp
        | false => simp [hprobe, hamsdu, hroom, halloc] at hprep
      · have : 14 ≤ head.headroom := by omega
        simp [this]

/-- **Appending a frame keeps the head**, if the two fit together. -/
theorem SkbInv.aggregate (h : SkbInv head) (hf : f.Valid) (hqos : fastQos f.hdr.frameControl = true)
    (hheader : 2 ≤ eth.payload.length)
    (hfits : amsduAllowed env eth head = true → headReady env head = true →
      joinable f env eth head = true) :
    SkbInv (amsduAggregate d f env eth head).1 := by
  rw [amsduAggregate]
  split
  · exact h
  · rename_i hallowed
    rw [Bool.not_eq_true, Bool.not_eq_false'] at hallowed
    split
    · exact h
    · rename_i head' hprep
      have hjoin := hfits hallowed (headReady_of_prepareHead hprep)
      obtain ⟨hamsdu, g, hcached, hg, hjoined, hmod⟩ := h.prepareHead hf hqos hallowed hjoin hprep
      have hskb : ∀ k : QueuedSkb, k.cached = head'.cached → k.amsdu = head'.amsdu → Joined k g →
          SkbInv k := by
        intro k hk hkamsdu hkjoined
        refine ⟨?_, ?_, fun _ => ⟨g, hk.trans hcached, hkjoined⟩⟩
        · intro g' hg'
          cases (hk.trans hcached).symm.trans hg'
          exact hg
        · intro hno
          rw [hkamsdu, hamsdu] at hno
          cases hno
      split
      · exact hskb head' rfl rfl hjoined
      · rename_i hpad
        rw [Bool.not_eq_true, Bool.not_eq_false'] at hpad
        simp only [joinable, hpad, Bool.and_eq_true, Bool.not_true, Bool.or_false, Bool.false_or] at hjoin
        have heth : eth.Aggregatable := by
          refine aggregatable_of_type hjoin.2 hheader ?_
          have hlt := lt_of_amsduAllowed hallowed
          rw [EthFrame.subframeLen]
          omega
        have hmoved : (!head.amsdu && decide (head.headroom < 14)) = false := by
          cases hamsdu' : head.amsdu with
          | true => rfl
          | false =>
            have hroom := hjoin.1
            rw [hamsdu', if_neg Bool.false_ne_true, Bool.and_eq_true, Bool.and_eq_true,
              decide_eq_true_eq] at hroom
            simp [hroom.1.2]
        rw [hmoved]
        exact hskb _ rfl rfl (hjoined.append hmod heth _)

/-! ### Runs -/

theorem AmsduInv.setFlow (h : AmsduInv s) {flow : ℕ} {queue : List QueuedSkb}
    (hqueue : ∀ k ∈ queue, SkbInv k) : AmsduInv (s.setFlow flow queue) := by
  refine ⟨h.fastTx, fun flow' k hk => ?_⟩
  rw [AmsduTxq.setFlow] at hk
  dsimp only at hk
  by_cases hflow : flow' = flow
  · subst hflow
    rw [Function.update_self] at hk
    exact hqueue k hk
  · rw [Function.update_of_ne hflow] at hk
    exact h.skb flow' k hk

theorem skbInv_fastSkb (hf : f.Valid) (hheader : 2 ≤ eth.payload.length) (env : AggEnv) :
    SkbInv (fastSkb f env eth) := by
  refine ⟨?_, ?_, fun hamsdu => by cases hamsdu⟩
  · intro g hg
    cases hg
    exact hf
  · intro _ g hg
    cases hg
    exact ⟨eth, rfl, rfl, rfl, rfl, hheader⟩

theorem AmsduInv.xmitFast (h : AmsduInv s) (hf : s.fastTx = some f) (hheader : 2 ≤ eth.payload.length)
    (hfits : fastQos f.hdr.frameControl = true → ∀ head, (s.flows env.flow).getLast? = some head →
      amsduAllowed env eth head = true → headReady env head = true → joinable f env eth head = true) :
    AmsduInv (amsduXmitFast s f env d eth) := by
  have hvalid := h.fastTx f hf
  have henqueue : ∀ queue, (∀ k ∈ queue, SkbInv k) → AmsduInv
      (s.setFlow env.flow (if env.queued then queue ++ [fastSkb f env eth] else queue)) := by
    intro queue hqueue
    refine h.setFlow fun k hk => ?_
    split at hk
    · rcases mem_append.mp hk with hk | hk
      · exact hqueue k hk
      · rw [mem_singleton.mp hk]
        exact skbInv_fastSkb hvalid hheader env
    · exact hqueue k hk
  rw [amsduXmitFast]
  split
  · exact henqueue _ (h.skb env.flow)
  · rename_i head hlast
    split
    · exact henqueue _ (h.skb env.flow)
    · rename_i hqos
      rw [Bool.not_eq_true, Bool.not_eq_false'] at hqos
      have hhead : SkbInv head := h.skb env.flow head (mem_of_getLast? hlast)
      have hagg := hhead.aggregate (d := d) hvalid hqos hheader (hfits hqos head hlast)
      have hqueue : ∀ k ∈ (s.flows env.flow).dropLast ++ [(amsduAggregate d f env eth head).1],
          SkbInv k := by
        intro k hk
        rcases mem_append.mp hk with hk | hk
        · exact h.skb env.flow k (mem_of_mem_dropLast hk)
        · rw [mem_singleton.mp hk]
          exact hagg
      dsimp only
      split
      · exact h.setFlow hqueue
      · exact henqueue _ hqueue

/-- **Every step keeps the queues**, if what it joins fits together. -/
theorem AmsduInv.step {op : AmsduOp} {os o : List Empty} (h : AmsduInv s) (hcond : AmsduCond s os op)
    (hstep : amsduStep s op = some (s', o)) : AmsduInv s' := by
  cases op with
  | checkFastXmit l ok j =>
    cases hstep
    exact ⟨fun f hf => ⟨l, ok, j, hf⟩, h.skb⟩
  | xmitFast env tx d eth =>
    rw [amsduStep] at hstep
    split at hstep
    · cases hstep
      exact h
    · rename_i f hf
      split at hstep
      · rename_i haccept
        cases hstep
        rw [Bool.and_eq_true, decide_eq_true_eq] at haccept
        refine h.xmitFast hf haccept.1 fun hqos head hlast hallowed hready => ?_
        simpa [AmsduCond, amsduFits, hf, hlast, haccept.2, hqos, hallowed, hready] using hcond
      · cases hstep
        exact h
  | queueSlow flow hdr headroom =>
    cases hstep
    refine h.setFlow fun k hk => ?_
    rcases mem_append.mp hk with hk | hk
    · exact h.skb flow k hk
    · rw [mem_singleton.mp hk]
      exact ⟨fun g hg => (by cases hg), fun _ g hg => (by cases hg), fun hamsdu => (by cases hamsdu)⟩
  | remove flow n =>
    cases hstep
    exact h.setFlow fun k hk => h.skb flow k (mem_of_mem_eraseIdx hk)

end Queue

/-- **An A-MSDU there and back.** In every run whose steps only join what fits together, every
A-MSDU in the queue consists of the subframes of the frames joined, in order, with the right lengths
and padding. The receiver gets exactly these frames, whichever way it copies them, but for those it
is told not to accept. -/
theorem amsdu_round_trip_of_reach {s : AmsduTxq} {os : List Empty} {flow : ℕ} {k : QueuedSkb}
    (h : Reach amsduStep AmsduCond {} s os) (hk : k ∈ s.flows flow) (hamsdu : k.amsdu = true) :
    ∃ g, k.cached = some g ∧ k.frames ≠ [] ∧
      k.body g = Padded.join 4 0 (k.frames.map EthFrame.subframe) ∧
      (∀ e ∈ k.frames, e.subframeLen < 2 ^ 16) ∧
      (∀ reuseSkb, amsduTo8023s { reuseSkb := reuseSkb } (k.body g) = k.frames.map EthFrame.plain) ∧
      ∀ env : AmsduEnv, (∀ n, env.alloc n = true) →
        amsduTo8023s env (k.body g) =
          (k.frames.filter fun e => env.accepts e.dest e.source).map EthFrame.plain := by
  have hinv : AmsduInv s := by
    refine h.invariant (fun s _ => AmsduInv s) ⟨fun f hf => (by cases hf), fun _ k hk => (by cases hk)⟩ ?_
    intro s os op s' o hinv hcond hstep
    exact hinv.step hcond hstep
  obtain ⟨g, hg, hjoined⟩ := (hinv.skb flow k hk).joined hamsdu
  have hconv : ∀ env : AmsduEnv, (∀ n, env.alloc n = true) →
      amsduTo8023s env (k.body g) =
        (k.frames.filter fun e => env.accepts e.dest e.source).map EthFrame.plain := by
    intro env halloc
    rw [hjoined.body, amsduTo8023s_join halloc hjoined.nonempty hjoined.aggregatable]
    induction k.frames with
    | nil => rfl
    | cons e es ih =>
      rw [flatMap_cons, ih, AmsduEnv.convert, filter_cons]
      split <;> rfl
  refine ⟨g, hg, hjoined.nonempty, hjoined.body, fun e he => (hjoined.aggregatable e he).fits, ?_, hconv⟩
  intro reuseSkb
  rw [hconv _ fun _ => rfl]
  congr 1
  exact filter_eq_self.mpr fun _ _ => rfl

/-! ### A queue of three frames -/

/-- The device after some events. -/
def deviceAfter (es : List Event) : Local :=
  ((run (deviceStep toyHash toyCrypto) (bootLocal {}) es).map Prod.fst).getD (bootLocal {})

/-- The station's cached header is brought up to date. -/
def checkSta (es : List Event) : AmsduOp := .checkFastXmit (deviceAfter es) true 0

/-- A packet to the station, on the AP's interface. -/
def sendSta (env : AggEnv) (eth : EthFrame) : AmsduOp :=
  .xmitFast env {} ((deviceAfter qosStaEvents).sdata 0) eth

/-- Packets of all lengths modulo four. -/
def threePackets : List EthFrame :=
  [{ ethToSta with payload := [8, 0, 1, 2, 3] }, { ethToSta with payload := [8, 0, 4, 5, 6, 7] },
    { ethToSta with payload := [0x86, 0xdd, 8] }]

/-- The packets are sent one after the other. -/
def threeSent : List AmsduOp := checkSta qosStaEvents :: threePackets.map (sendSta {})

/-- The first frame of the first flow. -/
def firstQueued (s : AmsduTxq) : Option QueuedSkb := (s.flows 0).head?

theorem mem_of_firstQueued {s : AmsduTxq} {k : QueuedSkb} (h : firstQueued s = some k) :
    k ∈ s.flows 0 :=
  mem_of_head? h

/-- Three packets become one A-MSDU, and come back as three packets. -/
theorem amsdu_round_trip_three : ∃ s os k g, Reach amsduStep AmsduCond {} s os ∧ k ∈ s.flows 0 ∧
    k.amsdu = true ∧ k.frames = threePackets ∧ k.cached = some g ∧
    amsduTo8023s {} (k.body g) = threePackets := by
  have hmeets : Meets amsduStep AmsduCond {} [] threeSent := by decide +kernel
  have hrun : ((run amsduStep {} threeSent).bind fun r => firstQueued r.1).map
      (fun k => (k.amsdu, k.frames)) = some (true, threePackets) := by
    decide +kernel
  obtain ⟨k, hk, hfields⟩ := map_eq_some_iff.mp hrun
  obtain ⟨⟨s, os⟩, hs, hfirst⟩ := bind_eq_some_iff.mp hk
  obtain ⟨hamsdu, hframes⟩ := Prod.mk.inj hfields
  have hreach := Reach.of_run .init hmeets hs
  have hmem := mem_of_firstQueued hfirst
  obtain ⟨g, hg, -, -, -, hconv, -⟩ := amsdu_round_trip_of_reach hreach hmem hamsdu
  refine ⟨s, os, k, g, hreach, hmem, hamsdu, hframes, hg, ?_⟩
  rw [hconv true, hframes]
  rfl

/-! ### Queues that do not come back -/

/-- What a receiver makes of the first frame, if it is an A-MSDU, and what it was made of. -/
def firstReceived (s : AmsduTxq) : Option (List EthFrame × List EthFrame) :=
  (firstQueued s).bind fun k =>
    if k.amsdu then k.cached.map fun g => (k.frames, amsduTo8023s {} (k.body g)) else none

theorem firstReceived_eq_some {s : AmsduTxq} {sent received : List EthFrame}
    (h : firstReceived s = some (sent, received)) :
    ∃ k g, k ∈ s.flows 0 ∧ k.amsdu = true ∧ k.cached = some g ∧ k.frames = sent ∧
      amsduTo8023s {} (k.body g) = received := by
  obtain ⟨k, hk, h⟩ := bind_eq_some_iff.mp h
  split at h
  · rename_i hamsdu
    obtain ⟨g, hg, h⟩ := map_eq_some_iff.mp h
    obtain ⟨hsent, hreceived⟩ := Prod.mk.inj h
    exact ⟨k, g, mem_of_firstQueued hk, hamsdu, hg, hsent, hreceived⟩
  · cases h

/-- An AppleTalk ARP packet is appended to an IPv4 packet. It comes back with a length for its
EtherType, and with the RFC 1042 header. -/
theorem aarp_subframe_changes : ∃ s os k g, Reach amsduStep (fun _ _ _ => True) {} s os ∧
    k ∈ s.flows 0 ∧ k.amsdu = true ∧ k.cached = some g ∧ k.frames = [ethToSta, aarpToSta] ∧
    amsduTo8023s {} (k.body g) =
      [ethToSta, { aarpToSta with payload := [0, 10] ++ rfc1042Header ++ aarpToSta.payload }] := by
  have hrun : ((run amsduStep {} [checkSta qosStaEvents, sendSta {} ethToSta,
      sendSta {} aarpToSta]).bind fun r => firstReceived r.1) = some ([ethToSta, aarpToSta],
      [ethToSta, { aarpToSta with payload := [0, 10] ++ rfc1042Header ++ aarpToSta.payload }]) := by
    decide +kernel
  obtain ⟨⟨s, os⟩, hs, hreceived⟩ := bind_eq_some_iff.mp hrun
  obtain ⟨k, g, hk, hamsdu, hg, hsent, hreceived⟩ := firstReceived_eq_some hreceived
  exact ⟨s, os, k, g, Reach.of_run_init hs, hk, hamsdu, hg, hsent, hreceived⟩

end Mac80211
