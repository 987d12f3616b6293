import Mac80211.Lib.Chunks
import Mac80211.Rx.Defragment
import Mac80211.Tx.Handlers

/-!
# Splitting a frame

`ieee80211_fragment` and `ieee80211_tx_h_fragment`, with the arithmetic as the code does it: the
length of a part is an `int`, and the fragment number is ORed into the sequence control field.

## Main results

* `ieee80211Fragment_eq`, `txHFragmentLoop_spec`
-/

namespace Mac80211

open List

/-! ### The code -/

/-- The loop of `ieee80211_fragment`; `pos` counts from the end of the header. There is no result if
it does not end, or a buffer is made shorter than empty. -/
def fragmentLoop (body : List UInt8) (perFragm : ℤ) : ℕ → ℤ → ℤ → Option (List (List UInt8))
  | 0, _, _ => none
  | fuel + 1, pos, rem =>
    if rem = 0 then some []
    else
      let fraglen := if perFragm > rem then rem else perFragm
      if fraglen < 0 then none
      else
        (fragmentLoop body perFragm fuel (pos + fraglen) (rem - fraglen)).map fun parts =>
          (body.drop pos.toNat).take fraglen.toNat :: parts

/-- `ieee80211_fragment`: the parts of the body. -/
def ieee80211Fragment (h : Hdr) (fragThreshold : ℕ) : Option (List (List UInt8)) :=
  let hl := hdrlen h.frameControl
  let perFragm : ℤ := fragThreshold - hl - FCS_LEN
  let rem : ℤ := h.len - hl - perFragm
  if rem < 0 then none
  else (fragmentLoop h.body perFragm (h.len + 1) perFragm rem).map fun parts =>
    h.body.take perFragm.toNat :: parts

/-- `ieee80211_tx_h_fragment`. -/
def txHFragmentLoop (env : TxEnv) (s : Local) (skb : TxSkb) : Option (List TxSkb) :=
  if skb.info.dontfrag || s.supportsTxFrag then some [skb]
  else if skb.info.ampdu then none
  else if skb.hdr.len + FCS_LEN ≤ s.fragThreshold then none
  else if !env.fragAlloc then none
  else (ieee80211Fragment skb.hdr s.fragThreshold).map (skb.fragments 0)

/-! ### The loop -/

section Loop

variable {perFragm : ℤ} {h : Hdr} {fragThreshold : ℕ}

/-- Without room for a byte the loop makes no progress, or goes back. -/
theorem fragmentLoop_eq_none (body : List UInt8) (hper : perFragm ≤ 0) (fuel : ℕ) (pos : ℤ) {rem : ℤ} (hrem : 0 < rem) :
    fragmentLoop body perFragm fuel pos rem = none := by
  induction fuel generalizing pos with
  | zero => rfl
  | succ fuel ih =>
    have hfraglen : (if perFragm > rem then rem else perFragm) = perFragm := if_neg (by omega)
    rw [fragmentLoop, if_neg (ne_of_gt hrem), hfraglen]
    by_cases hneg : perFragm < 0
    · exact if_pos hneg
    · obtain rfl : perFragm = 0 := by omega
      rw [if_neg hneg, sub_zero, ih, Option.map_none]

theorem fragmentLoop_eq (body : List UInt8) {n : ℕ} (hn : 0 < n) (fuel pos rem : ℕ) (hfuel : rem < fuel)
    (hrem : pos + rem = body.length) :
    fragmentLoop body n fuel pos rem = some ((body.drop pos).toChunks n) := by
  induction fuel generalizing pos rem with
  | zero => omega
  | succ fuel ih =>
    rw [fragmentLoop]
    by_cases hdone : rem = 0
    · rw [if_pos (by omega), drop_of_length_le (by omega), Chunks.toChunks_nil]
    have hne : body.drop pos ≠ [] := by
      rw [Ne, drop_eq_nil_iff]
      omega
    have hrem' : ¬(rem : ℤ) = 0 := by omega
    have hlength : (body.drop pos).length = rem := by
      rw [length_drop]
      omega
    rw [if_neg hrem', Chunks.toChunks_eq hn hne]
    by_cases hlast : (n : ℤ) > rem
    · have hloop := ih (pos + rem) 0 (by omega) (by omega)
      rw [drop_of_length_le (by omega), Chunks.toChunks_nil, Nat.cast_add, Nat.cast_zero] at hloop
      rw [if_pos hlast, if_neg (by omega), sub_self, hloop, Option.map_some, Int.toNat_natCast,
        Int.toNat_natCast, take_of_length_le hlength.le, take_of_length_le (by omega),
        drop_of_length_le (show (body.drop pos).length ≤ n by omega), Chunks.toChunks_nil]
    · have hloop := ih (pos + n) (rem - n) (by omega) (by omega)
      rw [Nat.cast_add, Nat.cast_sub (by omega)] at hloop
      rw [if_neg hlast, if_neg (by omega), hloop, Option.map_some, Int.toNat_natCast,
        Int.toNat_natCast, drop_drop]

theorem length_body (hhdr : 24 ≤ hdrlen h.frameControl) (hlen : hdrlen h.frameControl ≤ h.len) :
    hdrlen h.frameControl + h.body.length = h.len := by
  rw [Hdr.len] at hlen ⊢
  rw [Hdr.body, length_drop]
  omega

/-- **The parts are chunks of the body**, of what the threshold leaves for them; and if that is not at least one
byte, the loop does not end well. -/
theorem ieee80211Fragment_eq (hhdr : 24 ≤ hdrlen h.frameControl)
    (hlong : fragThreshold < h.len + FCS_LEN) : ieee80211Fragment h fragThreshold =
      if hdrlen h.frameControl + FCS_LEN < fragThreshold then
        some (h.body.toChunks (fragThreshold - hdrlen h.frameControl - FCS_LEN))
      else none := by
  rw [ieee80211Fragment]
  by_cases hroom : hdrlen h.frameControl + FCS_LEN < fragThreshold
  · obtain ⟨n, hn⟩ : ∃ n, fragThreshold = hdrlen h.frameControl + FCS_LEN + n :=
      Nat.exists_eq_add_of_le hroom.le
    have hlen := length_body hhdr (by omega)
    have hper : (fragThreshold : ℤ) - hdrlen h.frameControl - FCS_LEN = n := by omega
    have hrem : (h.len : ℤ) - hdrlen h.frameControl - n = (h.body.length - n : ℕ) := by omega
    have hne : h.body ≠ [] := by
      rw [Ne, ← length_eq_zero_iff]
      omega
    have hloop := fragmentLoop_eq h.body (show 0 < n by omega) (h.len + 1) n (h.body.length - n)
      (by omega) (by omega)
    rw [if_pos hroom, hper, hrem, if_neg (by omega), hloop, Option.map_some, Int.toNat_natCast,
      show fragThreshold - hdrlen h.frameControl - FCS_LEN = n by omega,
      Chunks.toChunks_eq (by omega) hne]
  · have hper : (fragThreshold : ℤ) - hdrlen h.frameControl - FCS_LEN ≤ 0 := by omega
    have hrem : 0 < (h.len : ℤ) - hdrlen h.frameControl -
        (fragThreshold - hdrlen h.frameControl - FCS_LEN) := by omega
    rw [if_neg hroom, if_neg (by omega), fragmentLoop_eq_none h.body hper _ _ hrem, Option.map_none]

end Loop

/-! ### One fragment -/

section Flags

/-- The More Fragments bit as the second pass leaves it. -/
def markMore (fc : UInt16) (more : Bool) : UInt16 :=
  if more then fc ||| FCTL_MOREFRAGS else fc &&& ~~~FCTL_MOREFRAGS

theorem markMore_and {mask : UInt16} (hor : FCTL_MOREFRAGS &&& mask = 0)
    (hclear : ~~~FCTL_MOREFRAGS &&& mask = mask) (fc : UInt16) (more : Bool) :
    markMore fc more &&& mask = fc &&& mask := by
  rw [markMore]
  split
  · exact or_and_of_disjoint hor
  · exact clear_and_of_subset hclear

theorem hasMorefrags_markMore (fc : UInt16) (more : Bool) : hasMorefrags (markMore fc more) = more := by
  rcases more
  · have hclear : fc &&& ~~~FCTL_MOREFRAGS &&& FCTL_MOREFRAGS = 0 := by
      rw [UInt16.and_assoc]
      exact UInt16.and_zero
    simp [markMore, hasMorefrags, hclear]
  · have hset : (fc ||| FCTL_MOREFRAGS) &&& FCTL_MOREFRAGS = FCTL_MOREFRAGS := by
      rw [← UInt16.toBitVec_inj, UInt16.toBitVec_and, UInt16.toBitVec_or]
      ext i hi
      simp only [BitVec.getElem_and, BitVec.getElem_or]
      exact (by decide : ∀ a b : Bool, ((a || b) && b) = b) _ _
    simp only [markMore, hasMorefrags, if_true, hset]
    rfl

theorem isData_markMore (fc : UInt16) (more : Bool) : isData (markMore fc more) = isData fc := by
  simp only [isData, @markMore_and FCTL_FTYPE (by decide) (by decide) fc more]

theorem isCtl_markMore (fc : UInt16) (more : Bool) : isCtl (markMore fc more) = isCtl fc := by
  simp only [isCtl, @markMore_and FCTL_FTYPE (by decide) (by decide) fc more]

theorem isMgmt_markMore (fc : UInt16) (more : Bool) : isMgmt (markMore fc more) = isMgmt fc := by
  simp only [isMgmt, @markMore_and FCTL_FTYPE (by decide) (by decide) fc more]

theorem hasA4_markMore (fc : UInt16) (more : Bool) : hasA4 (markMore fc more) = hasA4 fc := by
  simp only [hasA4, @markMore_and (FCTL_TODS ||| FCTL_FROMDS) (by decide) (by decide) fc more]

theorem isDataQos_markMore (fc : UInt16) (more : Bool) :
    isDataQos (markMore fc more) = isDataQos fc := by
  simp only [isDataQos, @markMore_and (FCTL_FTYPE ||| STYPE_QOS_DATA) (by decide) (by decide) fc more]

theorem hasOrder_markMore (fc : UInt16) (more : Bool) : hasOrder (markMore fc more) = hasOrder fc := by
  simp only [hasOrder, @markMore_and FCTL_ORDER (by decide) (by decide) fc more]

theorem hdrlen_markMore (fc : UInt16) (more : Bool) : hdrlen (markMore fc more) = hdrlen fc := by
  simp only [hdrlen, isData_markMore, isCtl_markMore, isMgmt_markMore, hasA4_markMore,
    isDataQos_markMore, hasOrder_markMore, @markMore_and 0x00E0 (by decide) (by decide) fc more]

theorem hasProtected_markMore (fc : UInt16) (more : Bool) :
    hasProtected (markMore fc more) = hasProtected fc := by
  simp only [hasProtected, @markMore_and FCTL_PROTECTED (by decide) (by decide) fc more]

theorem seqCtrl_or_frag {sc : UInt16} (hsc : sc &&& SCTL_FRAG = 0) {n : ℕ} (hn : n < 16) :
    ((sc ||| (UInt16.ofNat n &&& SCTL_FRAG)) &&& SCTL_FRAG).toNat = n := by
  have hdistrib : (sc ||| (UInt16.ofNat n &&& SCTL_FRAG)) &&& SCTL_FRAG =
      (sc &&& SCTL_FRAG) ||| (UInt16.ofNat n &&& SCTL_FRAG &&& SCTL_FRAG) := by
    rw [← UInt16.toBitVec_inj]
    exact BitVec.and_or_distrib_right
  rw [hdistrib, hsc, UInt16.zero_or, UInt16.and_assoc, UInt16.and_self, UInt16.toNat_and,
    UInt16.toNat_ofNat']
  have hmask : SCTL_FRAG.toNat = 2 ^ 4 - 1 := rfl
  rw [hmask, Nat.and_two_pow_sub_one_eq_mod]
  omega

theorem seqCtrl_or_seq (sc : UInt16) (n : ℕ) :
    (sc ||| (UInt16.ofNat n &&& SCTL_FRAG)) &&& SCTL_SEQ = sc &&& SCTL_SEQ := by
  refine or_and_of_disjoint ?_
  rw [UInt16.and_assoc]
  exact UInt16.and_zero

end Flags

section Fragment

variable {skb : TxSkb} {n : ℕ} {more : Bool} {part : List UInt8}

theorem frameControl_fragment (skb : TxSkb) (n : ℕ) (more : Bool) (part : List UInt8) :
    (skb.fragment n more part).hdr.frameControl = markMore skb.hdr.frameControl more := rfl

theorem addr1_fragment (skb : TxSkb) (n : ℕ) (more : Bool) (part : List UInt8) :
    (skb.fragment n more part).hdr.addr1 = skb.hdr.addr1 := by
  rw [TxSkb.fragment, TxSkb.withBody]

theorem addr2_fragment (skb : TxSkb) (n : ℕ) (more : Bool) (part : List UInt8) :
    (skb.fragment n more part).hdr.addr2 = skb.hdr.addr2 := by
  rw [TxSkb.fragment, TxSkb.withBody]

theorem frag_fragment (hsc : skb.hdr.seqCtrl &&& SCTL_FRAG = 0) (hn : n < 16) :
    (skb.fragment n more part).hdr.frag = n := seqCtrl_or_frag hsc hn

theorem seq_fragment (skb : TxSkb) (n : ℕ) (more : Bool) (part : List UInt8) :
    (skb.fragment n more part).hdr.seq = skb.hdr.seq := by
  have hseq : (skb.fragment n more part).hdr.seqCtrl &&& SCTL_SEQ = skb.hdr.seqCtrl &&& SCTL_SEQ :=
    seqCtrl_or_seq skb.hdr.seqCtrl n
  rw [Hdr.seq, Hdr.seq, hseq]

theorem rest_fragment (skb : TxSkb) (n : ℕ) (more : Bool) (part : List UInt8) :
    (skb.fragment n more part).hdr.rest =
      skb.hdr.rest.take (hdrlen skb.hdr.frameControl - 24) ++ part := rfl

/-- The header is there in full. -/
def Hdr.Whole (h : Hdr) : Prop := 24 ≤ hdrlen h.frameControl ∧ hdrlen h.frameControl ≤ h.len

theorem length_take_of_whole (h : skb.hdr.Whole) :
    (skb.hdr.rest.take (hdrlen skb.hdr.frameControl - 24)).length =
      hdrlen skb.hdr.frameControl - 24 := by
  have hlen := h.2
  rw [Hdr.len] at hlen
  rw [length_take]
  omega

theorem body_fragment (h : skb.hdr.Whole) (n : ℕ) (more : Bool) (part : List UInt8) :
    (skb.fragment n more part).hdr.body = part := by
  rw [Hdr.body, frameControl_fragment, hdrlen_markMore, rest_fragment,
    drop_left' (length_take_of_whole h)]

theorem len_fragment (h : skb.hdr.Whole) (n : ℕ) (more : Bool) (part : List UInt8) :
    (skb.fragment n more part).hdr.len = hdrlen skb.hdr.frameControl + part.length := by
  have hfour := h.1
  rw [Hdr.len, rest_fragment, length_append, length_take_of_whole h]
  omega

theorem parseQos_fragment (hdata : isData skb.hdr.frameControl = true) (h : skb.hdr.Whole) (n : ℕ)
    (more : Bool) (part : List UInt8) :
    (parseQos (skb.fragment n more part).hdr.frameControl (skb.fragment n more part).hdr.qosCtl).1 =
      (parseQos skb.hdr.frameControl skb.hdr.qosCtl).1 := by
  rw [parseQos, parseQos, frameControl_fragment, isDataQos_markMore]
  by_cases hqos : isDataQos skb.hdr.frameControl = true
  · have hindex : (if hasA4 skb.hdr.frameControl then 6 else 0) <
        hdrlen skb.hdr.frameControl - 24 := by
      rw [hdrlen, if_pos hdata, if_pos hqos]
      split <;> split <;> omega
    have hbyte : (skb.fragment n more part).hdr.qosCtl = skb.hdr.qosCtl := by
      simp only [Hdr.qosCtl, Hdr.byte, frameControl_fragment, hasA4_markMore, rest_fragment,
        getD_eq_getElem?_getD]
      rw [getElem?_append_left (by rw [length_take_of_whole h]; exact hindex),
        getElem?_take_of_lt hindex]
    rw [if_pos hqos, if_pos hqos, hbyte]
  · rw [if_neg hqos, if_neg hqos]

end Fragment

/-! ### All fragments -/

section Fragments

variable {env : TxEnv} {s : Local} {skb : TxSkb} {frags : List TxSkb}

theorem length_fragments (skb : TxSkb) (n : ℕ) (parts : List (List UInt8)) :
    (skb.fragments n parts).length = parts.length := by
  induction parts generalizing n with
  | nil => rfl
  | cons part parts ih => rw [TxSkb.fragments, length_cons, length_cons, ih]

theorem getElem?_fragments (skb : TxSkb) (n : ℕ) (parts : List (List UInt8)) (i : ℕ) :
    (skb.fragments n parts)[i]? =
      parts[i]?.map fun part => skb.fragment (n + i) (i + 1 < parts.length) part := by
  induction parts generalizing n i with
  | nil => rfl
  | cons part parts ih =>
    rw [TxSkb.fragments]
    rcases i with _ | i
    · rcases parts with _ | ⟨part', parts⟩
      · rfl
      · simp
    · rw [getElem?_cons_succ, getElem?_cons_succ, ih, length_cons]
      simp only [show n + 1 + i = n + (i + 1) by omega, Nat.add_lt_add_iff_right]

/-- The frame is for the software to split. -/
def SplitHere (s : Local) (skb : TxSkb) : Prop := skb.info.dontfrag = false ∧ s.supportsTxFrag = false

/-- **A frame that is split** has more than one part, and the parts are chunks of its body. -/
theorem txHFragmentLoop_spec (hhdr : 24 ≤ hdrlen skb.hdr.frameControl) (hsplit : SplitHere s skb)
    (h : txHFragmentLoop env s skb = some frags) :
    skb.hdr.Whole ∧ ∃ n, 0 < n ∧ hdrlen skb.hdr.frameControl + FCS_LEN + n = s.fragThreshold ∧
      n < skb.hdr.body.length ∧ frags = skb.fragments 0 (skb.hdr.body.toChunks n) := by
  rw [txHFragmentLoop, hsplit.1, hsplit.2] at h
  have hnot : ¬(false || false) = true := Bool.false_ne_true
  rw [if_neg hnot] at h
  split_ifs at h with _ hlong
  rw [Nat.not_le] at hlong
  rw [ieee80211Fragment_eq hhdr hlong] at h
  split at h
  next hroom =>
    rw [Option.map_some, Option.some.injEq] at h
    have hwhole : skb.hdr.Whole := ⟨hhdr, by omega⟩
    have hlen := length_body hwhole.1 hwhole.2
    exact ⟨hwhole, s.fragThreshold - hdrlen skb.hdr.frameControl - FCS_LEN, by omega, by omega,
      by omega, h.symm⟩
  next => cases h

end Fragments

end Mac80211
