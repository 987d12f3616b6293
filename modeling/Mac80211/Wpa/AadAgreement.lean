import Mac80211.Randomizer.Rewrite

/-!
# Nonce and additional data across the rewriting

An AP encrypts a frame under its base addresses and rewrites them with a table of every station; the
receiving station has only its own entry. The fourth address is rewritten in three-address frames as
well, where the QoS control field and the cipher header are.

## Main results

* `special_blocks_agree_iff` — when both compute the same nonce and additional data
-/

namespace Mac80211

/-- A data frame with the cipher header of `pn`. -/
structure Encrypted (h : Hdr) (pn : Pn) : Prop where
  isData : isData h.frameControl = true
  len : hdrlen h.frameControl - 24 ≤ h.rest.length
  body : ∃ keyId payload, h.body = pn2hdr pn keyId ++ payload

/-! ### Two headers with the same blocks -/

theorem append_eq_append_iff_of_length {a b c d : List UInt8} (h : a.length = b.length) :
    a ++ c = b ++ d ↔ a = b ∧ c = d :=
  ⟨fun hab => List.append_inj hab h, fun hab => by rw [hab.1, hab.2]⟩

variable {h h' : Hdr}

/-- What the additional data depends on, among headers with the same fixed fields. -/
theorem Hdr.aad_eq_iff (hfc : h'.frameControl = h.frameControl)
    (hseq : h'.seqCtrl = h.seqCtrl) (hlen : h'.rest.length = h.rest.length) :
    h'.aad = h.aad ↔ h'.addr1 = h.addr1 ∧ h'.addr2 = h.addr2 ∧ h'.addr3 = h.addr3 ∧
      (hasA4 h.frameControl = true → h'.rest.take 6 = h.rest.take 6) ∧ h'.qosTid = h.qosTid := by
  have hmask : h'.maskFc = h.maskFc := by rw [Hdr.maskFc, Hdr.maskFc, hfc]
  simp only [Hdr.aad, hfc, hseq, hmask]
  rw [append_eq_append_iff_of_length (by simp), List.append_left_inj,
    append_eq_append_iff_of_length (by simp), append_eq_append_iff_of_length (by simp),
    List.append_right_inj, Vector.toList_inj, Vector.toList_inj, Vector.toList_inj]
  cases hasA4 h.frameControl with
  | true =>
    rw [if_pos rfl, if_pos rfl, append_eq_append_iff_of_length (by simp [hlen])]
    simp only [List.cons.injEq, and_true, true_imp_iff, and_assoc]
  | false =>
    simp [and_assoc]

theorem ccmpSpecialBlocks_eq_iff {pn pn' : Pn}
    (hfc : h'.frameControl = h.frameControl) (hseq : h'.seqCtrl = h.seqCtrl)
    (hlen : h'.rest.length = h.rest.length) :
    ccmpSpecialBlocks h' pn' = ccmpSpecialBlocks h pn ↔ h'.aad = h.aad ∧ pn' = pn := by
  constructor
  · intro heq
    have haad : h'.aad = h.aad := congrArg SpecialBlocks.aad heq
    have hnonce := congrArg SpecialBlocks.nonce heq
    obtain ⟨-, h2, -, -, htid⟩ := (Hdr.aad_eq_iff hfc hseq hlen).mp haad
    simp only [ccmpSpecialBlocks, hfc, h2, htid, List.append_cancel_left_eq] at hnonce
    exact ⟨haad, Vector.toList_inj.mp hnonce⟩
  · rintro ⟨haad, rfl⟩
    obtain ⟨-, h2, -, -, htid⟩ := (Hdr.aad_eq_iff hfc hseq hlen).mp haad
    rw [ccmpSpecialBlocks, ccmpSpecialBlocks, haad, hfc, h2, htid]

theorem gcmpSpecialBlocks_eq_iff {pn pn' : Pn}
    (hfc : h'.frameControl = h.frameControl) (hseq : h'.seqCtrl = h.seqCtrl)
    (hlen : h'.rest.length = h.rest.length) :
    gcmpSpecialBlocks h' pn' = gcmpSpecialBlocks h pn ↔ h'.aad = h.aad ∧ pn' = pn := by
  constructor
  · intro heq
    have haad : h'.aad = h.aad := congrArg SpecialBlocks.aad heq
    have hnonce := congrArg SpecialBlocks.nonce heq
    obtain ⟨-, h2, -⟩ := (Hdr.aad_eq_iff hfc hseq hlen).mp haad
    simp only [gcmpSpecialBlocks, h2, List.append_assoc, List.append_cancel_left_eq,
      List.append_cancel_right_eq] at hnonce
    exact ⟨haad, Vector.toList_inj.mp hnonce⟩
  · rintro ⟨haad, rfl⟩
    obtain ⟨-, h2, -⟩ := (Hdr.aad_eq_iff hfc hseq hlen).mp haad
    rw [gcmpSpecialBlocks, gcmpSpecialBlocks, haad, h2]

/-! ### The bytes at offset 24 -/

section Overlap

variable (w : Mac) (tail : List UInt8)

theorem getD_append_of_lt {i : ℕ} (hi : i < 6) : (w.toList ++ tail).getD i 0 = w[i] := by
  rw [List.getD_eq_getElem?_getD, List.getElem?_append_left (by simpa using hi)]
  simp [hi]

theorem getD_append_of_ge {i : ℕ} (hi : 6 ≤ i) : (w.toList ++ tail).getD i 0 = tail.getD (i - 6) 0 := by
  rw [List.getD_eq_getElem?_getD, List.getElem?_append_right (by simpa using hi)]
  simp

end Overlap

/-- In a three-address frame, replacing the bytes `w` at offset 24 by `w'` keeps TID and packet
number. The cipher header starts at the third of them with a QoS field, behind them with an HT
control field, else at the first. -/
def OverlapKept (fc : UInt16) (w w' : Mac) : Prop :=
  if isDataQos fc then
    w'[0]! &&& (0x0f : UInt8) = w[0]! &&& (0x0f : UInt8) ∧
      (hasOrder fc = false → w'[2]! = w[2]! ∧ w'[3]! = w[3]!)
  else w'[0]! = w[0]! ∧ w'[1]! = w[1]! ∧ w'[4]! = w[4]! ∧ w'[5]! = w[5]!
deriving Decidable

theorem overlapKept_iff {fc : UInt16} {w w' : Mac} : OverlapKept fc w w' ↔
    if isDataQos fc then
      w'[0] &&& (0x0f : UInt8) = w[0] &&& (0x0f : UInt8) ∧
        (hasOrder fc = false → w'[2] = w[2] ∧ w'[3] = w[3])
    else w'[0] = w[0] ∧ w'[1] = w[1] ∧ w'[4] = w[4] ∧ w'[5] = w[5] :=
  Iff.rfl

/-- A four-address header keeps TID and packet number when its fourth address is replaced. -/
theorem qosTid_body_of_hasA4 (hfc : h'.frameControl = h.frameControl)
    (hdata : isData h.frameControl = true) (ha4 : hasA4 h.frameControl = true) {w w' : Mac}
    {tail : List UInt8} (hr : h.rest = w.toList ++ tail) (hr' : h'.rest = w'.toList ++ tail) :
    h'.qosTid = h.qosTid ∧ h'.body = h.body := by
  constructor
  · have hbyte : h'.byte 6 = h.byte 6 := by
      rw [Hdr.byte, Hdr.byte, hr, hr', getD_append_of_ge _ _ le_rfl, getD_append_of_ge _ _ le_rfl]
    simp only [Hdr.qosTid, Hdr.getTid, Hdr.qosCtl, hfc, ha4, if_true, hbyte]
  · have hlen : 30 ≤ hdrlen h.frameControl := by
      rw [hdrlen, if_pos hdata, if_pos ha4]
      omega
    have hdrop : ∀ v : Mac, (v.toList ++ tail).drop (hdrlen h.frameControl - 24) =
        tail.drop (hdrlen h.frameControl - 30) := by
      intro v
      rw [List.drop_append, List.drop_of_length_le (by rw [Vector.length_toList]; omega),
        List.nil_append, Vector.length_toList]
      congr 1
    rw [Hdr.body, Hdr.body, hfc, hr, hr', hdrop, hdrop]

/-- A three-address header keeps them exactly if the overlapping bytes are kept. -/
theorem qosTid_pn_iff_of_not_hasA4 (hfc : h'.frameControl = h.frameControl)
    (hdata : isData h.frameControl = true) (ha4 : hasA4 h.frameControl = false) {w w' : Mac}
    {tail : List UInt8} (hr : h.rest = w.toList ++ tail) (hr' : h'.rest = w'.toList ++ tail) :
    h'.qosTid = h.qosTid ∧ hdr2pn h'.body = hdr2pn h.body ↔ OverlapKept h.frameControl w w' := by
  have hpn : ∀ {a b : List UInt8}, hdr2pn a = hdr2pn b ↔ a.getD 7 0 = b.getD 7 0 ∧
      a.getD 6 0 = b.getD 6 0 ∧ a.getD 5 0 = b.getD 5 0 ∧ a.getD 4 0 = b.getD 4 0 ∧
      a.getD 1 0 = b.getD 1 0 ∧ a.getD 0 0 = b.getD 0 0 := by
    intro a b
    simp [hdr2pn]
  have hdrop : ∀ (l : List UInt8) (m i : ℕ), (l.drop m).getD i 0 = l.getD (m + i) 0 := by
    intro l m i
    rw [List.getD_eq_getElem?_getD, List.getElem?_drop, List.getD_eq_getElem?_getD]
  cases hq : isDataQos h.frameControl with
  | false =>
    have hlen : hdrlen h.frameControl = 24 := by simp [hdrlen, hdata, ha4, hq]
    have htid : h'.qosTid = h.qosTid := by simp [Hdr.qosTid, hfc, hq]
    rw [Hdr.body, Hdr.body, hfc, hlen, hpn, overlapKept_iff, if_neg (by simp [hq]), hr, hr']
    simp only [Nat.sub_self, List.drop_zero, getD_append_of_lt _ _ (show 0 < 6 by omega),
      getD_append_of_lt _ _ (show 1 < 6 by omega), getD_append_of_lt _ _ (show 4 < 6 by omega),
      getD_append_of_lt _ _ (show 5 < 6 by omega), getD_append_of_ge _ _ (show 6 ≤ 6 by omega),
      getD_append_of_ge _ _ (show 6 ≤ 7 by omega)]
    constructor
    · rintro ⟨-, -, -, h5, h4, h1, h0⟩
      exact ⟨h0, h1, h4, h5⟩
    · rintro ⟨h0, h1, h4, h5⟩
      exact ⟨htid, trivial, trivial, h5, h4, h1, h0⟩
  | true =>
    have htid : h'.qosTid = h.qosTid ↔ w'[0] &&& (0x0f : UInt8) = w[0] &&& (0x0f : UInt8) := by
      have hbyte : ∀ (g : Hdr) (v : Mac), g.rest = v.toList ++ tail → g.byte 0 = v[0] := by
        intro g v hg
        rw [Hdr.byte, hg, getD_append_of_lt _ _ (by omega)]
      simp [Hdr.qosTid, Hdr.getTid, Hdr.qosCtl, hfc, hq, ha4, hbyte h w hr, hbyte h' w' hr']
    rw [htid, overlapKept_iff, if_pos (by simp [hq]), and_congr_right_iff]
    intro _
    cases ho : hasOrder h.frameControl with
    | true =>
      have hlen : hdrlen h.frameControl = 30 := by simp [hdrlen, hdata, ha4, hq, ho]
      rw [Hdr.body, Hdr.body, hfc, hlen, hpn, hr, hr']
      simp
    | false =>
      have hlen : hdrlen h.frameControl = 26 := by simp [hdrlen, hdata, ha4, hq, ho]
      rw [Hdr.body, Hdr.body, hfc, hlen, hpn, hr, hr']
      simp only [hdrop, Nat.reduceSub, Nat.reduceAdd,
        getD_append_of_lt _ _ (show 2 < 6 by omega), getD_append_of_lt _ _ (show 3 < 6 by omega),
        getD_append_of_ge _ _ (show 6 ≤ 6 by omega), getD_append_of_ge _ _ (show 6 ≤ 7 by omega),
        getD_append_of_ge _ _ (show 6 ≤ 8 by omega), getD_append_of_ge _ _ (show 6 ≤ 9 by omega)]
      constructor
      · rintro ⟨-, -, -, -, h3, h2⟩ -
        exact ⟨h2, h3⟩
      · intro hkept
        obtain ⟨h2, h3⟩ := hkept trivial
        exact ⟨trivial, trivial, trivial, trivial, h3, h2⟩

/-! ### The way there and back -/

/-- An address that both tables give back: the receiver's own base address, or one that the AP does
not rewrite and that is not the receiver's random address. -/
def Survives (t : TranslationTable) (base random a : Mac) : Prop :=
  a = base ∨ txMac t a = a ∧ a ≠ random
deriving Decidable

/-- What an address becomes on its way from the AP to the receiver. -/
def relayMac (t : TranslationTable) (base random a : Mac) : Mac :=
  if txMac t a = random then base else txMac t a

theorem relayMac_eq_self_iff {t : TranslationTable} {base random : Mac}
    (ht : lookup t base = some random) (a : Mac) :
    relayMac t base random a = a ↔ Survives t base random a := by
  have hbase : txMac t base = random := by rw [txMac_eq_lookup, ht]; rfl
  rw [relayMac, Survives]
  split
  · rename_i hr
    constructor
    · intro hba
      exact .inl hba.symm
    · rintro (rfl | ⟨hta, hne⟩)
      · rfl
      · exact absurd (hta.symm.trans hr) hne
  · rename_i hr
    constructor
    · intro hta
      exact .inr ⟨hta, fun hc => hr (hta.trans hc)⟩
    · rintro (rfl | ⟨hta, -⟩)
      · exact absurd hbase hr
      · exact hta

/-- With its own pair as its only entry, a station turns one address back. -/
theorem rxMac_of_entries {t : PairTable} {base random : Mac}
    (ht : t.entries = [⟨base, random⟩]) (a : Mac) : rxMac t a = if a = random then base else a := by
  rw [rxMac, searchByRandomMac, Buckets.Table.find?_eq, ht, List.find?_singleton]
  by_cases ha : random = a
  · simp [ha]
  · simp [ha, Ne.symm ha]

/-- The condition: the addresses survive, and in a three-address frame the bytes in the place of the
fourth keep the TID and the packet number. -/
def AddrsSurvive (t : TranslationTable) (base random : Mac) (h : Hdr) : Prop :=
  Survives t base random h.addr1 ∧ Survives t base random h.addr2 ∧
    Survives t base random h.addr3 ∧
    ∀ w, h.addr4? = some w →
      if hasA4 h.frameControl then Survives t base random w
      else OverlapKept h.frameControl w (relayMac t base random w)

/-- **When the receiver authenticates what the sender did.** Nonce and additional data of a station
for a frame of its AP are those of the AP exactly if the addresses survive, given that both tables
agree on its own pair. -/
theorem special_blocks_agree_iff {sha1 : List UInt8 → Vector UInt8 20} {env : GenEnv}
    {ap sta : Local} {vif : SdataId} {base random : Mac} {h h' : Hdr} {pn : Pn}
    (hap : (ap.sdata vif).type = .ap) (hsta : whichInstance sta = .sta)
    (hpair : sta.sTranslationTable.entries = [⟨base, random⟩])
    (hagree : lookup ap.translationTable base = some random) (henc : Encrypted h pn)
    (hrx : macAddrChangeHdrRx sha1 env sta (macAddrChangeHdrTx ap vif h) = some (sta, h')) :
    (ccmpSpecialBlocks h' (hdr2pn h'.body) = ccmpSpecialBlocks h pn ↔
      AddrsSurvive ap.translationTable base random h) ∧
    (gcmpSpecialBlocks h' (hdr2pn h'.body) = gcmpSpecialBlocks h pn ↔
      AddrsSurvive ap.translationTable base random h) := by
  set g := relayMac ap.translationTable base random with hg
  have hh' : h' = h.mapAddrs g := by
    have hcomp : (fun a => rxMac sta.sTranslationTable (txMac ap.translationTable a)) = g := by
      funext a
      rw [rxMac_of_entries hpair, hg, relayMac]
    rw [macAddrChangeHdrRx, hsta, macAddrChangeHdrTx, hap] at hrx
    simp only [Option.some.injEq, Prod.mk.injEq, true_and] at hrx
    rw [← hrx, Hdr.mapAddrs_mapAddrs, hcomp]
  have hfc : h'.frameControl = h.frameControl := by rw [hh', Hdr.mapAddrs_frameControl]
  have hseq : h'.seqCtrl = h.seqCtrl := by rw [hh', Hdr.mapAddrs_seqCtrl]
  have hlen : h'.rest.length = h.rest.length := by rw [hh', Hdr.length_rest_mapAddrs]
  obtain ⟨keyId, payload, hbody⟩ := henc.body
  have hpn : hdr2pn h.body = pn := by rw [hbody, hdr2pn_pn2hdr]
  -- there are at least the eight bytes of the cipher header behind the third address
  obtain ⟨w, tail, hw, hr⟩ : ∃ w tail, h.addr4? = some w ∧ h.rest = w.toList ++ tail := by
    have hlong : 6 ≤ h.rest.length := by
      have hblen := congrArg List.length hbody
      rw [Hdr.body, List.length_drop, List.length_append] at hblen
      have h8 : (pn2hdr pn keyId).length = 8 := rfl
      omega
    cases hw : h.addr4? with
    | none => exact absurd (Hdr.addr4?_eq_none_iff.mp hw) (by omega)
    | some w =>
      obtain ⟨tail, hr⟩ := Hdr.addr4?_eq_some_iff.mp hw
      exact ⟨w, tail, rfl, hr⟩
  have hr' : h'.rest = (g w).toList ++ tail := by rw [hh']; exact Hdr.rest_mapAddrs g h hr
  have hself := fun a => relayMac_eq_self_iff hagree a
  have hcond : h'.aad = h.aad ∧ hdr2pn h'.body = pn ↔
      AddrsSurvive ap.translationTable base random h := by
    rw [Hdr.aad_eq_iff hfc hseq hlen, AddrsSurvive, ← hself, ← hself, ← hself, ← hpn, hh',
      Hdr.mapAddrs_addr1, Hdr.mapAddrs_addr2, Hdr.mapAddrs_addr3, ← hh', and_assoc, and_assoc,
      and_assoc, and_assoc]
    refine and_congr_right fun _ => and_congr_right fun _ => and_congr_right fun _ => ?_
    cases ha4 : hasA4 h.frameControl with
    | true =>
      obtain ⟨htid, hb⟩ := qosTid_body_of_hasA4 hfc henc.isData ha4 hr hr'
      have htake : ∀ v : Mac, (v.toList ++ tail).take 6 = v.toList := fun v => by simp
      rw [htid, hb, hr, hr', htake, htake, Vector.toList_inj]
      simp only [true_imp_iff, and_true, if_true, hw, Option.some.injEq, forall_eq']
      exact hself w
    | false =>
      have hover := qosTid_pn_iff_of_not_hasA4 hfc henc.isData ha4 hr hr'
      simp only [Bool.false_eq_true, false_imp_iff, true_and, if_false, hw, Option.some.injEq,
        forall_eq']
      exact hover
  constructor
  · rw [ccmpSpecialBlocks_eq_iff hfc hseq hlen]
    exact hcond
  · rw [gcmpSpecialBlocks_eq_iff hfc hseq hlen]
    exact hcond

/-! ### A relayed frame -/

/-- An AP that has given `base` and `other` random addresses. -/
def relayAp (base random other otherRandom : Mac) : Local where
  sdata := fun _ => { type := .ap, addr := #v[0, 0, 0, 0, 0, 1] }
  translationTable :=
    insertEntry true (insertEntry true (Buckets.Table.empty _ _) base random) other otherRandom

/-- A station with its own pair. -/
def pairSta (base random : Mac) : Local where
  interfaces := [0]
  sdata := fun _ => { type := .station, addr := base }
  sTranslationTable := insertEntry true (Buckets.Table.empty _ _) base random

/-- A QoS data frame from the AP, encrypted under packet number 7. -/
def relayFrame (addr1 addr3 : Mac) : Hdr where
  frameControl := 0x4288
  durationId := 0
  addr1 := addr1
  addr2 := #v[0, 0, 0, 0, 0, 1]
  addr3 := addr3
  seqCtrl := 0x10
  rest := [0, 0] ++ pn2hdr (pnOfNat 7) 0 ++ [1, 2, 3, 4]

theorem encrypted_relayFrame (addr1 addr3 : Mac) :
    Encrypted (relayFrame addr1 addr3) (pnOfNat 7) where
  isData := show isData 0x4288 = true by decide
  len := show hdrlen 0x4288 - 24 ≤ 14 by decide
  body := ⟨0, [1, 2, 3, 4], show ([0, 0] ++ pn2hdr (pnOfNat 7) 0 ++ [1, 2, 3, 4]).drop
    (hdrlen 0x4288 - 24) = _ by decide⟩

/-- A frame that the AP relays: its third address leaves as the random one of the first station, and
stays so at the receiver, whose additional data differ. -/
theorem relayed_frame_disagrees :
    let base : Mac := #v[0, 0, 0, 0, 0, 2]
    let random : Mac := #v[2, 0, 0, 0, 0, 2]
    let other : Mac := #v[0, 0, 0, 0, 0, 3]
    let ap := relayAp base random other #v[2, 0, 0, 0, 0, 3]
    let sta := pairSta base random
    let h := relayFrame base other
    (ap.sdata 0).type = .ap ∧ whichInstance sta = .sta ∧
      sta.sTranslationTable.entries = [⟨base, random⟩] ∧
      lookup ap.translationTable base = some random ∧ Encrypted h (pnOfNat 7) ∧
      ∀ sha1 env, ∃ h',
        macAddrChangeHdrRx sha1 env sta (macAddrChangeHdrTx ap 0 h) = some (sta, h') ∧
        ccmpSpecialBlocks h' (hdr2pn h'.body) ≠ ccmpSpecialBlocks h (pnOfNat 7) ∧
        gcmpSpecialBlocks h' (hdr2pn h'.body) ≠ gcmpSpecialBlocks h (pnOfNat 7) := by
  refine ⟨rfl, by decide, by decide +kernel, by decide +kernel, encrypted_relayFrame _ _, ?_⟩
  intro sha1 env
  refine ⟨_, rfl, ?_, ?_⟩ <;> decide +kernel

theorem direct_frame_agrees :
    let base : Mac := #v[0, 0, 0, 0, 0, 2]
    let random : Mac := #v[2, 0, 0, 0, 0, 2]
    let ap := relayAp base random #v[0, 0, 0, 0, 0, 3] #v[2, 0, 0, 0, 0, 3]
    let sta := pairSta base random
    let h := relayFrame base #v[0, 0, 0, 0, 0, 1]
    AddrsSurvive ap.translationTable base random h ∧
      ∀ sha1 env, ∃ h',
        macAddrChangeHdrRx sha1 env sta (macAddrChangeHdrTx ap 0 h) = some (sta, h') ∧
        ccmpSpecialBlocks h' (hdr2pn h'.body) = ccmpSpecialBlocks h (pnOfNat 7) ∧
        gcmpSpecialBlocks h' (hdr2pn h'.body) = gcmpSpecialBlocks h (pnOfNat 7) := by
  intro base random ap sta h
  have hsurv : AddrsSurvive ap.translationTable base random h := by
    refine ⟨.inl rfl, .inr ⟨by decide +kernel, by decide⟩, .inr ⟨by decide +kernel, by decide⟩, ?_⟩
    intro w hw
    have h4 : h.addr4? = some #v[0, 0, 7, 0, 0, 0x20] := by decide +kernel
    obtain rfl : #v[0, 0, 7, 0, 0, 0x20] = w := Option.some.inj (h4.symm.trans hw)
    decide +kernel
  have hpair : sta.sTranslationTable.entries = [⟨base, random⟩] := by decide +kernel
  have hagree : lookup ap.translationTable base = some random := by decide +kernel
  refine ⟨hsurv, fun sha1 env => ⟨_, rfl, ?_⟩⟩
  have hiff := @special_blocks_agree_iff sha1 env ap sta 0 base random h _ (pnOfNat 7) rfl
    (by decide) hpair hagree (encrypted_relayFrame _ _) rfl
  exact ⟨hiff.1.mpr hsurv, hiff.2.mpr hsurv⟩

end Mac80211
