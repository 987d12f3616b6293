import Mac80211.Convert.AmsduVariants

/-!
# How much of a frame is taken off

`ieee80211_data_to_8023_exthdr` once more, with what it reads and pulls. The length is looked at
before anything is known of a mesh header, by which the header to be taken off grows. Copies and the
pull fail if the frame is too short; the function does not ask.

## Main results

* `boundsSafe_iff` — when everything was inside the frame
-/

namespace Mac80211

/-! ### Frames in memory -/

/-- A frame from its first byte on. -/
def Hdr.bytes (h : Hdr) : List UInt8 :=
  le16 h.frameControl ++ le16 h.durationId ++ h.addr1.toList ++ h.addr2.toList ++ h.addr3.toList ++
    le16 h.seqCtrl ++ h.rest

theorem Hdr.length_bytes (h : Hdr) : h.bytes.length = h.len := by
  simp only [Hdr.bytes, Hdr.len, le16, List.length_append, List.length_cons, List.length_nil,
    Vector.length_toList]

/-- A received data frame. `__ieee80211_rx_handle_packet` has made its 802.11 header linear. -/
structure DataSkb where
  hdr : Hdr
  /-- `skb_headlen`: so many bytes are linear. -/
  headlen : ℕ
  /-- `__pskb_pull_tail` finds memory. -/
  expands : Bool
  /-- The header is linear. -/
  hdrlen_le : hdrlen hdr.frameControl ≤ headlen
  /-- The linear bytes are bytes of the frame. -/
  headlen_le : headlen ≤ hdr.len

/-- `pskb_pull`: the frame without its first bytes. There is no result if it fails, and then the frame is as
before. -/
def DataSkb.pskbPull (skb : DataSkb) (n : ℕ) : Option (List UInt8) :=
  if skb.hdr.len < n then none
  else if skb.headlen < n && !skb.expands then none
  else some (skb.hdr.bytes.drop n)

/-! ### The conversion -/

/-- `tmp` and `hdrlen` after the DS bits, and what has been read: offsets and numbers of bytes. -/
structure EthTmp where
  dest : Mac
  source : Mac
  hdrlen : ℕ
  reads : List (ℕ × ℕ)

/-- The fields of `struct ieee80211_hdr` that are read: `frame_control`, `ieee80211_get_DA` and
`ieee80211_get_SA`. -/
def hdrReads (fc : UInt16) : List (ℕ × ℕ) :=
  [(0, 2), (if hasTods fc then 16 else 4, 6),
    (if hasA4 fc then 24 else if hasFromds fc then 16 else 10, 6)]

/-- `mesh_flags`. -/
def meshFlags (h : Hdr) (iftype : Nl80211Iftype) (off : ℕ) : UInt8 :=
  (if iftype = .meshPoint then (skbCopyBits h.bytes off 1 [0]).getD 0 0 else 0) &&& MESH_FLAGS_AE

/-- The addresses, and the `switch` over the DS bits. -/
def dsStage (h : Hdr) (addr : Mac) (iftype : Nl80211Iftype) (off : ℕ) : Option EthTmp :=
  let dest := h.getDA
  let source := h.getSA
  let reads := hdrReads h.frameControl ++ if iftype = .meshPoint then [(off, 1)] else []
  let flags := meshFlags h iftype off
  match hasTods h.frameControl, hasFromds h.frameControl with
  | true, false =>
    if iftype ≠ .ap ∧ iftype ≠ .apVlan ∧ iftype ≠ .p2pGo then none else some ⟨dest, source, off, reads⟩
  | true, true =>
    if iftype ≠ .wds ∧ iftype ≠ .meshPoint ∧ iftype ≠ .apVlan ∧ iftype ≠ .station then none
    else if iftype = .meshPoint then
      if flags = MESH_FLAGS_AE_A4 then none
      else if flags = MESH_FLAGS_AE_A5_A6 then
        -- both addresses in one copy
        let eaddr := skbCopyBits h.bytes (off + 6) 12 (dest.toList ++ source.toList)
        some ⟨macOfBytes eaddr 0, macOfBytes eaddr 6, off + meshHdrlen flags, reads ++ [(off + 6, 12)]⟩
      else some ⟨dest, source, off + meshHdrlen flags, reads⟩
    else some ⟨dest, source, off, reads⟩
  | false, true =>
    if iftype ≠ .station ∧ iftype ≠ .p2pClient ∧ iftype ≠ .meshPoint ∨
        isMulticastEtherAddr dest ∧ source = addr then none
    else if iftype = .meshPoint then
      if flags = MESH_FLAGS_AE_A5_A6 then none
      else if flags = MESH_FLAGS_AE_A4 then
        let eaddr := skbCopyBits h.bytes (off + 6) 6 source.toList
        some ⟨dest, macOfBytes eaddr 0, off + meshHdrlen flags, reads ++ [(off + 6, 6)]⟩
      else some ⟨dest, source, off + meshHdrlen flags, reads⟩
    else some ⟨dest, source, off, reads⟩
  | false, false =>
    if iftype ≠ .adhoc ∧ iftype ≠ .station ∧ iftype ≠ .ocb then none
    else some ⟨dest, source, off, reads⟩

/-- What is left when the function returns 0. -/
structure EthOut where
  /-- The bytes of `skb`. -/
  skb : List UInt8
  /-- `*ehdr`, if the header does not go into `skb`. -/
  ehdr : List UInt8
  /-- Offsets and numbers of bytes that were read. -/
  reads : List (ℕ × ℕ)
  /-- So many bytes should go. -/
  removed : ℕ

/-- The length of the Ethernet frame, wherever its header is. -/
def EthOut.frameLen (out : EthOut) : ℕ := out.ehdr.length + out.skb.length

/-- The payload is looked at, the headers are pulled, and the Ethernet header is put in its place,
or given to the caller (`own`). `stack` is in `payload` at first. -/
def ethFinish (skb : DataSkb) (own : Bool) (stack : Vector UInt8 8) (tmp : EthTmp) : EthOut :=
  let payload := skbCopyBits skb.hdr.bytes tmp.hdrlen 8 stack.toList
  let strips := stripsSnap payload
  let removed := tmp.hdrlen + if strips then 8 else 0
  -- `htons(skb->len - hdrlen)` may be negative, and is cut to sixteen bits
  let proto := if strips then payload.drop 6 else Bytes.be16 (skb.hdr.len + 2 ^ 16 - tmp.hdrlen)
  let ehdr := tmp.dest.toList ++ tmp.source.toList ++ proto
  -- nobody looks whether `pskb_pull` worked
  let pulled := (skb.pskbPull removed).getD skb.hdr.bytes
  { skb := if own then pulled else ehdr ++ pulled
    ehdr := if own then ehdr else []
    reads := tmp.reads ++ [(tmp.hdrlen, 8)]
    removed := removed }

/-- `ieee80211_data_to_8023_exthdr`. -/
def dataToEth (skb : DataSkb) (own : Bool) (addr : Mac) (iftype : Nl80211Iftype) (dataOffset : UInt8)
    (stack : Vector UInt8 8) : Option EthOut :=
  let off := hdrlen skb.hdr.frameControl + dataOffset.toNat
  if !isDataPresent skb.hdr.frameControl || skb.hdr.len < off + 8 then none
  else (dsStage skb.hdr addr iftype off).map (ethFinish skb own stack)

/-- What a caller may expect, whatever is on the stack. -/
def BoundsSafe (skb : DataSkb) (own : Bool) (addr : Mac) (iftype : Nl80211Iftype) (dataOffset : UInt8) :
    Prop :=
  ∀ stack out, dataToEth skb own addr iftype dataOffset stack = some out →
    (∀ read ∈ out.reads, read.1 + read.2 ≤ skb.hdr.len) ∧ out.removed ≤ skb.hdr.len ∧
      out.frameLen = skb.hdr.len - out.removed + 14

/-! ### Conditions on the frame -/

/-- The type of the interface, the DS bits and the address extension go together. -/
def Taken (h : Hdr) (addr : Mac) (iftype : Nl80211Iftype) (off : ℕ) : Prop :=
  match hasTods h.frameControl, hasFromds h.frameControl with
  | true, false => iftype = .ap ∨ iftype = .apVlan ∨ iftype = .p2pGo
  | true, true => iftype = .wds ∨ iftype = .apVlan ∨ iftype = .station ∨
      iftype = .meshPoint ∧ meshFlags h iftype off ≠ MESH_FLAGS_AE_A4
  | false, true => (iftype = .station ∨ iftype = .p2pClient ∨
      iftype = .meshPoint ∧ meshFlags h iftype off ≠ MESH_FLAGS_AE_A5_A6) ∧
        ¬(isMulticastEtherAddr h.getDA = true ∧ h.getSA = addr)
  | false, false => iftype = .adhoc ∨ iftype = .station ∨ iftype = .ocb

/-- Where the headers end: the mesh header is behind the 802.11 header. -/
def headerEnd (h : Hdr) (iftype : Nl80211Iftype) (off : ℕ) : ℕ :=
  off + if iftype = .meshPoint then meshHdrlen (meshFlags h iftype off) else 0

/-- Where the encapsulation ends, if it goes too. -/
def removedEnd (h : Hdr) (iftype : Nl80211Iftype) (off : ℕ) : ℕ :=
  headerEnd h iftype off +
    if stripsSnap ((h.bytes.drop (headerEnd h iftype off)).take 8) then 8 else 0

variable {n : ℕ}

section Stage

variable {h : Hdr} {addr : Mac} {iftype : Nl80211Iftype} {off : ℕ} {tmp : EthTmp}

theorem hdrReads_le {fc : UInt16} (hdata : isData fc = true) (hn : hdrlen fc ≤ n) :
    ∀ read ∈ hdrReads fc, read.1 + read.2 ≤ n := by
  have hthree := hdrlen_of_isData hdata
  have hfour : hasA4 fc = true → 30 ≤ hdrlen fc := fun h => by
    rw [hdrlen, if_pos hdata, if_pos h]
    omega
  intro read hread
  simp only [hdrReads, List.mem_cons, List.not_mem_nil, or_false] at hread
  rcases hread with rfl | rfl | rfl
  · show 0 + 2 ≤ n
    omega
  · show (if hasTods fc then 16 else 4) + 6 ≤ n
    split <;> omega
  · show (if hasA4 fc then 24 else if hasFromds fc then 16 else 10) + 6 ≤ n
    split
    next h =>
      have := hfour h
      omega
    next =>
      split <;> omega

theorem six_le_meshHdrlen (flags : UInt8) : 6 ≤ meshHdrlen flags := by
  rw [meshHdrlen]
  split
  · omega
  · split <;> omega

theorem headerEnd_mesh (h : Hdr) (off : ℕ) :
    headerEnd h .meshPoint off = off + meshHdrlen (meshFlags h .meshPoint off) := rfl

theorem headerEnd_of_ne (hmesh : iftype ≠ .meshPoint) : headerEnd h iftype off = off := by
  rw [headerEnd, if_neg hmesh, Nat.add_zero]

theorem le_headerEnd (h : Hdr) (iftype : Nl80211Iftype) (off : ℕ) : off ≤ headerEnd h iftype off :=
  Nat.le_add_right _ _

theorem meshHdrlen_a4 {flags : UInt8} (h : flags = MESH_FLAGS_AE_A4) : meshHdrlen flags = 12 := by
  rw [h]
  rfl

theorem meshHdrlen_a5_a6 {flags : UInt8} (h : flags = MESH_FLAGS_AE_A5_A6) : meshHdrlen flags = 18 := by
  rw [h]
  rfl

theorem dsStage_eq_none (htaken : ¬Taken h addr iftype off) : dsStage h addr iftype off = none := by
  rcases htods : hasTods h.frameControl <;> rcases hfromds : hasFromds h.frameControl <;>
    simp only [Taken, dsStage, htods, hfromds] at htaken ⊢
  · exact if_pos (by simpa only [not_or] using htaken)
  · split_ifs <;> grind
  · exact if_pos (by simpa only [not_or] using htaken)
  · split_ifs <;> grind

/-- **What has been read by then is in front of the end of the headers**, and that is where the payload
starts. -/
theorem dsStage_spec (htaken : Taken h addr iftype off)
    (hreads : ∀ read ∈ hdrReads h.frameControl, read.1 + read.2 ≤ off) :
    ∃ tmp, dsStage h addr iftype off = some tmp ∧ tmp.hdrlen = headerEnd h iftype off ∧
      ∀ read ∈ tmp.reads, read.1 + read.2 ≤ headerEnd h iftype off := by
  have hbase : ∀ read ∈ hdrReads h.frameControl ++ if iftype = .meshPoint then [(off, 1)] else [],
      read.1 + read.2 ≤ headerEnd h iftype off := by
    intro read hread
    rcases List.mem_append.mp hread with hhdr | hflags
    · exact (hreads read hhdr).trans (le_headerEnd h iftype off)
    · split at hflags
      next hmesh =>
        obtain rfl := List.mem_singleton.mp hflags
        subst hmesh
        have hsix := six_le_meshHdrlen (meshFlags h .meshPoint off)
        rw [headerEnd_mesh]
        show off + 1 ≤ _
        omega
      next => exact absurd hflags List.not_mem_nil
  have headdr : ∀ n, off + 6 + n ≤ headerEnd h iftype off →
      ∀ read ∈ (hdrReads h.frameControl ++ if iftype = .meshPoint then [(off, 1)] else []) ++
        [(off + 6, n)], read.1 + read.2 ≤ headerEnd h iftype off := by
    intro n hn read hread
    rcases List.mem_append.mp hread with hold | hnew
    · exact hbase read hold
    · obtain rfl := List.mem_singleton.mp hnew
      exact hn
  rcases htods : hasTods h.frameControl <;> rcases hfromds : hasFromds h.frameControl <;>
    simp only [Taken, dsStage, htods, hfromds] at htaken ⊢
  · have hmesh : iftype ≠ .meshPoint := by
      rintro rfl
      simp at htaken
    rw [if_neg (by simpa only [not_and_or, not_not] using htaken)]
    exact ⟨_, rfl, (headerEnd_of_ne hmesh).symm, hbase⟩
  · obtain ⟨htype, hmulticast⟩ := htaken
    rw [if_neg (by grind)]
    by_cases hmesh : iftype = .meshPoint
    · subst hmesh
      have hflags : meshFlags h .meshPoint off ≠ MESH_FLAGS_AE_A5_A6 := by simpa using htype
      rw [if_pos rfl, if_neg hflags]
      by_cases ha4 : meshFlags h .meshPoint off = MESH_FLAGS_AE_A4
      · rw [if_pos ha4]
        refine ⟨_, rfl, rfl, headdr 6 ?_⟩
        rw [headerEnd_mesh, meshHdrlen_a4 ha4]
      · rw [if_neg ha4]
        exact ⟨_, rfl, rfl, hbase⟩
    · rw [if_neg hmesh]
      exact ⟨_, rfl, (headerEnd_of_ne hmesh).symm, hbase⟩
  · have hmesh : iftype ≠ .meshPoint := by
      rintro rfl
      simp at htaken
    rw [if_neg (by simpa only [not_and_or, not_not] using htaken)]
    exact ⟨_, rfl, (headerEnd_of_ne hmesh).symm, hbase⟩
  · rw [if_neg (by grind)]
    by_cases hmesh : iftype = .meshPoint
    · subst hmesh
      have hflags : meshFlags h .meshPoint off ≠ MESH_FLAGS_AE_A4 := by simpa using htaken
      rw [if_pos rfl, if_neg hflags]
      by_cases hboth : meshFlags h .meshPoint off = MESH_FLAGS_AE_A5_A6
      · rw [if_pos hboth]
        refine ⟨_, rfl, rfl, headdr 12 ?_⟩
        rw [headerEnd_mesh, meshHdrlen_a5_a6 hboth]
      · rw [if_neg hboth]
        exact ⟨_, rfl, rfl, hbase⟩
    · rw [if_neg hmesh]
      exact ⟨_, rfl, (headerEnd_of_ne hmesh).symm, hbase⟩

end Stage

/-! ### Bounds -/

theorem isData_of_isDataPresent {fc : UInt16} (h : isDataPresent fc = true) : isData fc = true := by
  have hmask : fc &&& FCTL_FTYPE = fc &&& (FCTL_FTYPE ||| 0x40) &&& FCTL_FTYPE := by
    rw [UInt16.and_assoc]
    rfl
  rw [isDataPresent, decide_eq_true_eq] at h
  rw [isData, decide_eq_true_eq, hmask, h]
  rfl

section Bounds

variable {skb : DataSkb} {own : Bool} {addr : Mac} {iftype : Nl80211Iftype} {dataOffset : UInt8}
  {stack : Vector UInt8 8} {tmp : EthTmp} {out : EthOut}

/-- Where the 802.11 header and the IV end. -/
def DataSkb.off (skb : DataSkb) (dataOffset : UInt8) : ℕ :=
  hdrlen skb.hdr.frameControl + dataOffset.toNat

theorem length_skbCopyBits {old : List UInt8} (hold : old.length = n) (bs : List UInt8)
    (offset : ℕ) : (skbCopyBits bs offset n old).length = n := by
  rw [skbCopyBits]
  split
  next => exact hold
  next h =>
    rw [List.length_take, List.length_drop]
    omega

theorem frameLen_ethFinish (skb : DataSkb) (own : Bool) (stack : Vector UInt8 8) (tmp : EthTmp) :
    (ethFinish skb own stack tmp).frameLen =
      14 + ((skb.pskbPull (ethFinish skb own stack tmp).removed).getD skb.hdr.bytes).length := by
  have hproto : ∀ strips : Bool, (if strips then
      (skbCopyBits skb.hdr.bytes tmp.hdrlen 8 stack.toList).drop 6
      else Bytes.be16 (skb.hdr.len + 2 ^ 16 - tmp.hdrlen)).length = 2 := by
    intro strips
    split
    next => rw [List.length_drop, length_skbCopyBits (Vector.length_toList ..)]
    next => rfl
  rcases own
  · simp only [EthOut.frameLen, ethFinish, Bool.false_eq_true, if_false, List.length_append,
      Vector.length_toList, hproto, List.length_nil]
    omega
  · simp only [EthOut.frameLen, ethFinish, if_true, List.length_append, Vector.length_toList, hproto]

/-- If there are eight bytes behind the headers, the stack is not looked at. -/
theorem removed_ethFinish (htmp : tmp.hdrlen = headerEnd skb.hdr iftype (skb.off dataOffset))
    (hlen : headerEnd skb.hdr iftype (skb.off dataOffset) + 8 ≤ skb.hdr.len) :
    (ethFinish skb own stack tmp).removed = removedEnd skb.hdr iftype (skb.off dataOffset) := by
  have hcopy : ¬skb.hdr.bytes.length < headerEnd skb.hdr iftype (skb.off dataOffset) + 8 := by
    rw [Hdr.length_bytes]
    omega
  rw [ethFinish, removedEnd]
  simp only [htmp, skbCopyBits, if_neg hcopy]

theorem removedEnd_le (h : Hdr) (iftype : Nl80211Iftype) (off : ℕ) :
    removedEnd h iftype off ≤ headerEnd h iftype off + 8 := by
  rw [removedEnd]
  split <;> omega

/-- The pull works if there is so much of the frame, and it is linear or can be made so. -/
theorem pskbPull_eq_some_iff (hn : n ≤ skb.hdr.len) :
    (∃ rest, skb.pskbPull n = some rest) ↔ n ≤ skb.headlen ∨ skb.expands = true := by
  rw [DataSkb.pskbPull, if_neg (Nat.not_lt_of_le hn)]
  by_cases hlinear : skb.headlen < n
  · rcases hexpands : skb.expands
    · simp [hlinear]
    · simp
  · simp [hlinear, Nat.le_of_not_lt hlinear]

theorem eq_drop_of_pskbPull {rest : List UInt8} (h : skb.pskbPull n = some rest) :
    rest = skb.hdr.bytes.drop n := by
  rw [DataSkb.pskbPull] at h
  split_ifs at h
  exact (Option.some.inj h).symm

theorem dataToEth_of_taken (hpresent : isDataPresent skb.hdr.frameControl = true)
    (hlen : skb.off dataOffset + 8 ≤ skb.hdr.len)
    (htaken : Taken skb.hdr addr iftype (skb.off dataOffset)) (own : Bool) (stack : Vector UInt8 8) :
    ∃ tmp, dataToEth skb own addr iftype dataOffset stack = some (ethFinish skb own stack tmp) ∧
      tmp.hdrlen = headerEnd skb.hdr iftype (skb.off dataOffset) ∧
      ∀ read ∈ tmp.reads, read.1 + read.2 ≤ headerEnd skb.hdr iftype (skb.off dataOffset) := by
  obtain ⟨tmp, hstage, htmp, hreads⟩ :=
    dsStage_spec htaken (hdrReads_le (isData_of_isDataPresent hpresent) (Nat.le_add_right _ _))
  have hnot : ¬(!isDataPresent skb.hdr.frameControl ||
      decide (skb.hdr.len < skb.off dataOffset + 8)) = true := by
    simp [hpresent, hlen]
  refine ⟨tmp, ?_, htmp, hreads⟩
  rw [dataToEth, ← DataSkb.off, if_neg hnot, hstage, Option.map_some]

theorem taken_of_dataToEth (h : dataToEth skb own addr iftype dataOffset stack = some out) :
    isDataPresent skb.hdr.frameControl = true ∧ skb.off dataOffset + 8 ≤ skb.hdr.len ∧
      Taken skb.hdr addr iftype (skb.off dataOffset) := by
  rw [dataToEth, ← DataSkb.off] at h
  split at h
  next => cases h
  next hnot =>
    simp only [Bool.or_eq_true, Bool.not_eq_true', decide_eq_true_eq, not_or, Bool.not_eq_false,
      Nat.not_lt] at hnot
    refine ⟨hnot.1, hnot.2, ?_⟩
    by_contra htaken
    rw [dsStage_eq_none htaken] at h
    cases h

/-- **The conversion stays within the frame exactly if** a frame that gets through has eight bytes
behind its headers, and what goes is linear or can be made so. -/
theorem boundsSafe_iff (skb : DataSkb) (own : Bool) (addr : Mac) (iftype : Nl80211Iftype)
    (dataOffset : UInt8) : BoundsSafe skb own addr iftype dataOffset ↔
      (isDataPresent skb.hdr.frameControl = true → skb.off dataOffset + 8 ≤ skb.hdr.len →
        Taken skb.hdr addr iftype (skb.off dataOffset) →
          headerEnd skb.hdr iftype (skb.off dataOffset) + 8 ≤ skb.hdr.len ∧
            (removedEnd skb.hdr iftype (skb.off dataOffset) ≤ skb.headlen ∨ skb.expands = true)) := by
  have hle := removedEnd_le skb.hdr iftype (skb.off dataOffset)
  constructor
  · intro hsafe hpresent hlen htaken
    obtain ⟨tmp, hconv, htmp, -⟩ := dataToEth_of_taken hpresent hlen htaken own (Vector.replicate 8 0)
    obtain ⟨hreads, hremoved, hframe⟩ := hsafe _ _ hconv
    have hpayload : headerEnd skb.hdr iftype (skb.off dataOffset) + 8 ≤ skb.hdr.len := by
      rw [← htmp]
      exact hreads (tmp.hdrlen, 8) (List.mem_append_right _ List.mem_cons_self)
    have hpositive : 24 ≤ removedEnd skb.hdr iftype (skb.off dataOffset) :=
      (hdrlen_of_isData (isData_of_isDataPresent hpresent)).trans ((Nat.le_add_right _ _).trans
        ((le_headerEnd _ _ _).trans (Nat.le_add_right _ _)))
    rw [frameLen_ethFinish, removed_ethFinish htmp hpayload] at hframe
    rw [removed_ethFinish htmp hpayload] at hremoved
    refine ⟨hpayload, (pskbPull_eq_some_iff hremoved).mp ?_⟩
    rcases hpull : skb.pskbPull (removedEnd skb.hdr iftype (skb.off dataOffset)) with _ | rest
    · -- the whole frame is still there
      rw [hpull, Option.getD_none, Hdr.length_bytes] at hframe
      omega
    · exact ⟨rest, rfl⟩
  · intro hcond stack out hconv
    obtain ⟨hpresent, hlen, htaken⟩ := taken_of_dataToEth hconv
    obtain ⟨hpayload, hpull⟩ := hcond hpresent hlen htaken
    obtain ⟨tmp, hconv', htmp, hreads⟩ := dataToEth_of_taken hpresent hlen htaken own stack
    cases hconv.symm.trans hconv'
    have hremoved := hle.trans hpayload
    obtain ⟨rest, hrest⟩ := (pskbPull_eq_some_iff hremoved).mpr hpull
    rw [frameLen_ethFinish, removed_ethFinish htmp hpayload, hrest, Option.getD_some,
      eq_drop_of_pskbPull hrest, List.length_drop, Hdr.length_bytes]
    refine ⟨?_, hremoved, Nat.add_comm _ _⟩
    intro read hread
    rcases List.mem_append.mp hread with hold | hnew
    · exact (hreads read hold).trans (by omega)
    · obtain rfl := List.mem_singleton.mp hnew
      rw [htmp]
      exact hpayload

/-- A frame of a mesh that says that its header has a further address, and ends in it. -/
def shortMeshFrame : DataSkb where
  hdr := {
    frameControl := 0x0208
    durationId := 0
    addr1 := localMac 1
    addr2 := localMac 2
    addr3 := localMac 3
    seqCtrl := 0
    rest := [1, 31, 7, 0, 0, 0, 2, 0] }
  headlen := 32
  expands := true
  hdrlen_le := by decide
  headlen_le := by decide

/-- **A short mesh frame is not cut.** An Ethernet header is put in front of the whole frame. -/
theorem short_mesh_frame_keeps_header :
    (dataToEth shortMeshFrame false (Vector.replicate 6 0) .meshPoint 0 (Vector.replicate 8 0)).map
        (fun out => (out.frameLen, out.removed, out.skb.drop 14)) =
      some (46, 36, shortMeshFrame.hdr.bytes) ∧
      ¬BoundsSafe shortMeshFrame false (Vector.replicate 6 0) .meshPoint 0 := by
  have hrun : (dataToEth shortMeshFrame false (Vector.replicate 6 0) .meshPoint 0
      (Vector.replicate 8 0)).map (fun out => (out.frameLen, out.removed, out.skb.drop 14)) =
      some (46, 36, shortMeshFrame.hdr.bytes) := by decide +kernel
  refine ⟨hrun, fun hsafe => ?_⟩
  obtain ⟨out, hconv, hout⟩ := Option.map_eq_some_iff.mp hrun
  simp only [Prod.mk.injEq] at hout
  obtain ⟨-, hremoved, -⟩ := hsafe _ _ hconv
  rw [hout.2.1] at hremoved
  exact absurd hremoved (by decide)

end Bounds

end Mac80211
