import Mac80211.Lib.Reach
import Mac80211.Radiotap.Iterator

/-!
# What the radiotap iterator reads and returns

The iterator reads no word of the bitmap that was not read before, and checks each argument against
the length of the header. Offsets are in order as long as the iterator is not put back to the end of
a vendor's data that was never set: field 18 of radiotap has no size and gives up the namespace.

## Main definitions

* `Clear`, `IterInv`

## Main results

* `radiotap_right`
-/

namespace Mac80211

open Memory List Option

/-! ### What is asked -/

/-- Some rounds of one call. -/
def rounds (m : Memory) : ℕ → RadiotapIterator → Option RadiotapIterator
  | 0, it => some it
  | n + 1, it =>
    match radiotapRound m it with
    | some (it, none) => rounds m n it
    | _ => none

theorem rounds_succ (m : Memory) (n : ℕ) (it : RadiotapIterator) :
    rounds m (n + 1) it = match radiotapRound m it with
      | some (it, none) => rounds m n it
      | _ => none := rfl

/-- The next argument is number 18 of radiotap. -/
def AtHole (it : RadiotapIterator) : Prop :=
  it.argIndex = 18 ∧ it.bitmapShifter % 2 = 1 ∧ it.currentNamespace = .radiotap
deriving Decidable

/-- The next call does not come to number 18 of radiotap. -/
def Clear (m : Memory) (it : RadiotapIterator) : Prop := ∀ n it', rounds m n it = some it' → ¬AtHole it'

/-- A call, with the fuel it is given: what it returns, and the iterator after it. -/
def callNext (m : Memory) (it : RadiotapIterator) (fuel : ℕ) :
    Option (RadiotapIterator × List (ℤ × RadiotapIterator)) :=
  (radiotapIteratorNext m fuel it).map fun (ret, it') => (it', [(ret, it')])

/-- The calls that return an argument. -/
def arguments (os : List (ℤ × RadiotapIterator)) : List RadiotapIterator :=
  (os.filter fun o => o.1 = 0).map Prod.snd

/-- The alignment that the namespace asks of the argument. -/
def requiredAlign (it : RadiotapIterator) : ℕ :=
  if it.thisArgIndex = IEEE80211_RADIOTAP_VENDOR_NAMESPACE then 2
  else
    match it.currentNamespace.sizes.bind (·[it.thisArgIndex]?) with
    | none => 1
    | some as => as.align

/-- No vendor is known. -/
def NoVendors (vns : Option (List RadiotapNamespace)) : Prop := ∀ l, vns = some l → l = []

/-- The alignments are powers of two. -/
def PowersOfTwo (vns : Option (List RadiotapNamespace)) : Prop :=
  ∀ l, vns = some l → ∀ ns ∈ l, ∀ as ∈ ns.alignSize, as.align ∈ [0, 1, 2, 4, 8]

/-- What is asked of an argument. -/
structure ArgRight (itLen : ℕ) (it : RadiotapIterator) : Prop where
  lower : 0 ≤ it.thisArg
  upper : it.thisArg + it.thisArgSize ≤ itLen
  aligned : (requiredAlign it : ℤ) ∣ it.thisArg

/-- One argument lies before another. -/
def Before (a b : RadiotapIterator) : Prop := a.thisArg < b.thisArg ∧ a.thisArg + a.thisArgSize ≤ b.thisArg

/-- After some calls, the next one returns and reads only the header; arguments are not too many,
right, and in order. -/
structure CallsRight (m : Memory) (vns : Option (List RadiotapNamespace)) (itLen bound : ℕ) (it : RadiotapIterator)
    (os : List (ℤ × RadiotapIterator)) : Prop where
  goesOn : Clear m it → ∃ fuel, (radiotapIteratorNext m fuel it).isSome
  finite : (arguments os).length ≤ bound
  args : ∀ a ∈ arguments os, ArgRight itLen a
  order : NoVendors vns → (arguments os).Pairwise Before

/-! ### The words of the bitmap -/

/-- Words `0` to `last` can be read, and the last one is the one that says so. -/
def Chain (m : Memory) (last : ℕ) : Prop :=
  ∀ k ≤ last, ∃ word, m.le32 (4 * (k + 1)) = some word ∧ (word.testBit 31 = true ↔ k < last)

/-- The bits that are left. -/
def bitsLeft (last : ℕ) (it : RadiotapIterator) : ℕ := 32 * (last + 2 - it.nextBitmap / 4) + (31 - it.argIndex % 32)

/-- The iterator is somewhere in the bitmap, and its offset, which may be put back to the vendor's data, is not
below `floor`. -/
structure IterInv (m : Memory) (vns : Option (List RadiotapNamespace)) (itLen last : ℕ) (floor : ℤ)
    (it : RadiotapIterator) : Prop where
  sameLength : it.maxLength = itLen
  sameVns : it.vns = vns
  word : ∃ k ≤ last, it.nextBitmap = 4 * (k + 2) ∧
    ∃ word, m.le32 (4 * (k + 1)) = some word ∧ it.bitmapShifter = word / 2 ^ (it.argIndex % 32)
  known : ∀ ns, it.currentNamespace = .vendor ns → ∃ l, vns = some l ∧ ns ∈ l
  offset : floor ≤ it.arg
  data : it.currentNamespace ≠ .radiotap → floor ≤ it.nextNsData

/-- What one round does. -/
structure RoundRight (m : Memory) (vns : Option (List RadiotapNamespace)) (itLen last : ℕ) (floor : ℤ)
    (it it' : RadiotapIterator) (ret : Option ℤ) : Prop where
  inv : IterInv m vns itLen last floor it'
  bits : bitsLeft last it' ≤ bitsLeft last it
  moved : ret = none ∨ ret = some 0 → bitsLeft last it' < bitsLeft last it
  arg : ret = some 0 → floor ≤ it'.thisArg ∧ ArgRight itLen it'
  beyond : ret = some 0 → NoVendors vns →
    0 < it'.thisArgSize ∧ IterInv m vns itLen last (it'.thisArg + it'.thisArgSize) it'

/-! ### Alignment -/

theorem le_padded (align : ℕ) (arg : ℤ) : arg ≤ padded align arg := by
  simp only [padded]
  split <;> omega

theorem dvd_padded {align : ℕ} (arg : ℤ) (h : align ∈ [1, 2, 4, 8]) : (align : ℤ) ∣ padded align arg := by
  have hpow : ∃ n ≤ 3, align = 2 ^ n := by
    simp only [mem_cons, not_mem_nil, or_false] at h
    rcases h with rfl | rfl | rfl | rfl
    · exact ⟨0, by decide, rfl⟩
    · exact ⟨1, by decide, rfl⟩
    · exact ⟨2, by decide, rfl⟩
    · exact ⟨3, by decide, rfl⟩
  obtain ⟨n, hn, rfl⟩ := hpow
  simp only [padded, Nat.and_two_pow_sub_one_eq_mod]
  have hcases : n = 0 ∨ n = 1 ∨ n = 2 ∨ n = 3 := by omega
  split
  · rcases hcases with rfl | rfl | rfl | rfl <;> omega
  · rcases hcases with rfl | rfl | rfl | rfl <;> omega

/-! ### What is known about a field -/

variable {it : RadiotapIterator}

theorem argIndex_of_unknown (h : it.fieldSize = .unknown)
    (hns : it.currentNamespace = .radiotap) : it.argIndex = 18 := by
  have htable : ∀ i < 22, ∀ as, rtapNamespaceSizes[i]? = some as → as.align = 0 → i = 18 := by decide
  rw [RadiotapIterator.fieldSize] at h
  split at h
  · cases h
  split at h
  · cases h
  split at h
  · cases h
  rw [hns] at h
  cases has : rtapNamespaceSizes[it.argIndex]? with
  | none => simp [CurrentNamespace.sizes, has] at h
  | some as =>
    have hlt : it.argIndex < 22 := (List.getElem?_eq_some_iff.mp has).1
    have halign : as.align = 0 := by
      by_contra hne
      simp [CurrentNamespace.sizes, has, hne] at h
    exact htable _ hlt as has halign

theorem argIndex_of_fieldSize (h : it.fieldSize = .unknown ∨ it.fieldSize = .noMore) :
    it.argIndex % 32 < 29 := by
  have hlt : it.argIndex % 32 < 32 := Nat.mod_lt _ (by decide)
  by_contra hge
  have hcases : it.argIndex % 32 = 29 ∨ it.argIndex % 32 = 31 ∨ it.argIndex % 32 = 30 := by omega
  rcases hcases with heq | heq | heq <;>
    simp [RadiotapIterator.fieldSize, heq, IEEE80211_RADIOTAP_RADIOTAP_NAMESPACE, IEEE80211_RADIOTAP_EXT,
      IEEE80211_RADIOTAP_VENDOR_NAMESPACE] at h

theorem sizes_of_data {align size : ℕ} (h : it.fieldSize = .data align size)
    (hlt : it.argIndex % 32 < 29) : ∃ l as, it.currentNamespace.sizes = some l ∧ l[it.argIndex]? = some as ∧
      as.align ≠ 0 ∧ align = as.align ∧ size = as.size := by
  rw [RadiotapIterator.fieldSize, IEEE80211_RADIOTAP_RADIOTAP_NAMESPACE, IEEE80211_RADIOTAP_EXT,
    IEEE80211_RADIOTAP_VENDOR_NAMESPACE, if_neg (by omega), if_neg (by omega), if_neg (by omega)] at h
  cases hl : it.currentNamespace.sizes with
  | none =>
    rw [hl] at h
    dsimp only [bind_none] at h
    split at h <;> cases h
  | some l =>
    rw [hl, bind_some] at h
    cases has : l[it.argIndex]? with
    | none =>
      rw [has] at h
      dsimp only at h
      split at h <;> cases h
    | some as =>
      rw [has] at h
      dsimp only at h
      split at h
      · cases h
      · rename_i hne
        cases h
        exact ⟨l, as, rfl, has, hne, rfl, rfl⟩

theorem special_of_data {align size : ℕ} (h : it.fieldSize = .data align size)
    (hge : 29 ≤ it.argIndex % 32) :
    (it.argIndex % 32 = 30 → align = 2 ∧ size = 6) ∧ (it.argIndex % 32 ≠ 30 → align = 1 ∧ size = 0) := by
  have hlt : it.argIndex % 32 < 32 := Nat.mod_lt _ (by decide)
  have hcases : it.argIndex % 32 = 29 ∨ it.argIndex % 32 = 31 ∨ it.argIndex % 32 = 30 := by omega
  rcases hcases with heq | heq | heq <;>
    simp [RadiotapIterator.fieldSize, heq, IEEE80211_RADIOTAP_RADIOTAP_NAMESPACE, IEEE80211_RADIOTAP_EXT,
      IEEE80211_RADIOTAP_VENDOR_NAMESPACE] at h ⊢ <;> simp [h]

/-! ### Parts of a round -/

variable {it' : RadiotapIterator} {ret : ℤ}

section Parts

variable {m : Memory} {vns : Option (List RadiotapNamespace)} {itLen last : ℕ} {floor : ℤ} {it : RadiotapIterator}

theorem IterInv.pad (h : IterInv m vns itLen last floor it) (align : ℕ) :
    IterInv m vns itLen last floor { it with arg := padded align it.arg } :=
  { h with offset := h.offset.trans (le_padded align it.arg) }

theorem IterInv.nextEntry (h : IterInv m vns itLen last floor it) (hlt : it.argIndex % 32 < 31) :
    IterInv m vns itLen last floor it.nextEntry := by
  obtain ⟨k, hk, hbitmap, word, hword, hshift⟩ := h.word
  refine { h with word := ⟨k, hk, hbitmap, word, hword, ?_⟩ }
  show it.bitmapShifter / 2 = word / 2 ^ ((it.argIndex + 1) % 32)
  have hmod : (it.argIndex + 1) % 32 = it.argIndex % 32 + 1 := by omega
  rw [hshift, hmod, Nat.pow_succ, Nat.div_div_eq_div_mul]

theorem bitsLeft_nextEntry (hlt : it.argIndex % 32 < 31) : bitsLeft last it.nextEntry < bitsLeft last it := by
  simp only [bitsLeft, RadiotapIterator.nextEntry]
  omega

/-- The next word. -/
def RadiotapIterator.nextWord (it : RadiotapIterator) (word : ℕ) : RadiotapIterator :=
  { it with
    bitmapShifter := word
    nextBitmap := it.nextBitmap + 4
    argIndex := if it.resetOnExt then 0 else it.argIndex + 1
    resetOnExt := false }

theorem IterInv.nextWord (h : IterInv m vns itLen last floor it) (hchain : Chain m last)
    (hlast : it.argIndex % 32 = 31) (hbit : it.bitmapShifter % 2 = 1) :
    ∃ word, m.le32 it.nextBitmap = some word ∧ IterInv m vns itLen last floor (it.nextWord word) ∧
      bitsLeft last (it.nextWord word) < bitsLeft last it := by
  obtain ⟨k, hk, hbitmap, word, hword, hshift⟩ := h.word
  have hklt : k < last := by
    obtain ⟨word', hword', hiff⟩ := hchain k hk
    cases hword.symm.trans hword'
    refine hiff.mp ?_
    rw [Nat.testBit_eq_decide_div_mod_eq, decide_eq_true_eq, ← hbit, hshift, hlast]
  obtain ⟨word', hword', -⟩ := hchain (k + 1) hklt
  have hzero : (if it.resetOnExt then 0 else it.argIndex + 1) % 32 = 0 := by
    split <;> omega
  refine ⟨word', by rw [hbitmap]; exact hword', { h with word := ⟨k + 1, hklt, ?_, word', hword', ?_⟩ }, ?_⟩
  · show it.nextBitmap + 4 = 4 * (k + 1 + 2)
    omega
  · show word' = word' / 2 ^ ((if it.resetOnExt then 0 else it.argIndex + 1) % 32)
    rw [hzero, Nat.pow_zero, Nat.div_one]
  · simp only [bitsLeft, RadiotapIterator.nextWord, hzero, hbitmap, hlast]
    omega

theorem not_past {off : ℤ} {len : ℕ} (h : ¬past off len = true) : 0 ≤ off ∧ off ≤ len := by
  simp only [past, Bool.or_eq_true, decide_eq_true_eq, not_or, not_lt] at h
  exact h

/-- The vendor's header lies within the header, and the vendor is one of those that are known, or none. -/
theorem vendorNamespace_spec {bs : List UInt8} (hlen : itLen ≤ bs.length) (hm : m = ofList bs) (h0 : 0 ≤ floor)
    (h : IterInv m vns itLen last floor it) : vendorNamespace m it 6 = some none ∨
    ∃ it' size, vendorNamespace m it 6 = some (some (it', size)) ∧ IterInv m vns itLen last floor it' ∧
      it'.arg = it.arg ∧ it'.argIndex = it.argIndex ∧ it'.bitmapShifter = it.bitmapShifter ∧
      it'.nextBitmap = it.nextBitmap ∧ 0 < size ∧ it'.nextNsData ≥ it'.arg ∧
      (it'.currentNamespace = .null → it'.nextNsData = it'.arg + size) := by
  rw [vendorNamespace]
  split
  · exact .inl rfl
  rename_i hpast
  right
  obtain ⟨-, hend⟩ := not_past hpast
  have harg : 0 ≤ it.arg := h0.trans h.offset
  rw [h.sameLength] at hend
  rw [if_neg (not_lt.mpr harg)]
  have hread : ∀ i < 6, it.arg.toNat + i + 1 ≤ bs.length := by
    intro i hi
    have : it.arg + 6 ≤ itLen := hend
    omega
  obtain ⟨oui0, ho0⟩ := isSome_iff_exists.mp (isSome_u8.mpr (hread 0 (by decide)))
  obtain ⟨oui1, ho1⟩ := isSome_iff_exists.mp (isSome_u8.mpr (hread 1 (by decide)))
  obtain ⟨oui2, ho2⟩ := isSome_iff_exists.mp (isSome_u8.mpr (hread 2 (by decide)))
  obtain ⟨subns, hs⟩ := isSome_iff_exists.mp (isSome_u8.mpr (hread 3 (by decide)))
  obtain ⟨vnslen, hv⟩ := isSome_iff_exists.mp (isSome_le16.mpr (hread 5 (by decide)))
  rw [← hm] at ho0 ho1 ho2 hs hv
  simp only [ho0, ho1, ho2, hs, hv, Option.bind_eq_bind, Option.bind_some, Option.pure_def]
  refine ⟨_, _, rfl, ⟨h.sameLength, h.sameVns, h.word, ?_, h.offset, ?_⟩, rfl, rfl, rfl, rfl, ?_, ?_, ?_⟩
  · intro ns hns
    simp only [findNs, h.sameVns] at hns
    cases hvns : vns with
    | none =>
      rw [hvns] at hns
      cases hns
    | some l =>
      rw [hvns] at hns
      dsimp only at hns
      split at hns
      · cases hns
      · rename_i hfind
        cases hns
        exact ⟨l, rfl, mem_of_find?_eq_some hfind⟩
  · intro _
    have := h.offset
    dsimp only
    omega
  · split <;> omega
  · dsimp only
    omega
  · intro hnull
    dsimp only at hnull ⊢
    rw [if_pos hnull]
    push_cast
    omega

/-- The argument that is taken. -/
def RadiotapIterator.take (it : RadiotapIterator) (size : ℕ) : RadiotapIterator :=
  { it with
    thisArgIndex := it.argIndex
    thisArg := it.arg
    thisArgSize := size
    arg := it.arg + size }

theorem takeArg_eq (m : Memory) (it : RadiotapIterator) (size : ℕ) : takeArg m it size =
    if past (it.arg + size) it.maxLength then some (it.take size, some (-EINVAL))
    else if it.argIndex % 32 = 30 then
      some ({ it.take size with resetOnExt := true, isRadiotapNs := false, thisArgIndex := 30 }.nextEntry,
        if it.currentNamespace = .null then some 0 else none)
    else if it.argIndex % 32 = 29 then
      some ({ it.take size with
        resetOnExt := true, currentNamespace := .radiotap, isRadiotapNs := true }.nextEntry, none)
    else if it.argIndex % 32 = 31 then
      (m.le32 it.nextBitmap).bind fun word => some ((it.take size).nextWord word, none)
    else some ((it.take size).nextEntry, some 0) := rfl

theorem IterInv.take (h : IterInv m vns itLen last floor it) (size : ℕ) :
    IterInv m vns itLen last floor (it.take size) := by
  refine { h with offset := ?_ }
  have := h.offset
  show floor ≤ it.arg + size
  omega

theorem RoundRight.failed (h : IterInv m vns itLen last floor it')
    (hbits : bitsLeft last it' = bitsLeft last it) (hret : ret ≠ 0) :
    RoundRight m vns itLen last floor it it' (some ret) := by
  have hne : some ret ≠ some 0 := fun heq => hret (some.inj heq)
  refine ⟨h, hbits.le, ?_, fun heq => absurd heq hne, fun heq => absurd heq hne⟩
  rintro (heq | heq)
  · cases heq
  · exact absurd heq hne

theorem RoundRight.again (h : IterInv m vns itLen last floor it')
    (hbits : bitsLeft last it' < bitsLeft last it) : RoundRight m vns itLen last floor it it' none := by
  refine ⟨h, hbits.le, fun _ => hbits, ?_, ?_⟩
  · intro hret
    cases hret
  · intro hret
    cases hret

variable {size : ℕ}

theorem takeArg_past (h : IterInv m vns itLen last floor it) (hpast : past (it.arg + size) it.maxLength = true) :
    ∃ it' ret, takeArg m it size = some (it', ret) ∧ RoundRight m vns itLen last floor it it' ret :=
  ⟨it.take size, some (-EINVAL), if_pos hpast, .failed (h.take size) rfl (by decide)⟩

theorem takeArg_field (h : IterInv m vns itLen last floor it) (h0 : 0 ≤ floor)
    (hlt : it.argIndex % 32 < 29) {l : List RadiotapAlignSize} {as : RadiotapAlignSize}
    (hl : it.currentNamespace.sizes = some l) (has : l[it.argIndex]? = some as) (hne : as.align ≠ 0)
    (hsize : size = as.size) (hdvd : (as.align : ℤ) ∣ it.arg) :
    ∃ it' ret, takeArg m it size = some (it', ret) ∧ RoundRight m vns itLen last floor it it' ret := by
  by_cases hpast : past (it.arg + size) it.maxLength = true
  · exact takeArg_past h hpast
  obtain ⟨-, hend⟩ := not_past hpast
  rw [h.sameLength] at hend
  have hidx : it.argIndex ≠ 30 := by omega
  have hidxLt : (it.take size).argIndex % 32 < 31 := hlt.trans (by decide)
  have hbits : bitsLeft last (it.take size).nextEntry < bitsLeft last (it.take size) := bitsLeft_nextEntry hidxLt
  refine ⟨(it.take size).nextEntry, some 0, ?_, (h.take size).nextEntry hidxLt, ?_, ?_, ?_, ?_⟩
  · rw [takeArg_eq, if_neg hpast, if_neg (by omega), if_neg (by omega), if_neg (by omega)]
  · exact hbits.le
  · intro _
    exact hbits
  · intro _
    refine ⟨h.offset, h0.trans h.offset, hend, ?_⟩
    simp only [requiredAlign, RadiotapIterator.nextEntry, RadiotapIterator.take, IEEE80211_RADIOTAP_VENDOR_NAMESPACE,
      hidx, if_false, hl, bind_some, has]
    exact hdvd
  · intro _ hvns
    -- no vendor is known, so this is a field of radiotap
    have hns : it.currentNamespace = .radiotap := by
      cases hcur : it.currentNamespace with
      | null =>
        rw [hcur] at hl
        cases hl
      | radiotap => rfl
      | vendor ns =>
        obtain ⟨l', hl', hmem⟩ := h.known ns hcur
        rw [hvns l' hl'] at hmem
        cases hmem
    have htable : ∀ i < 22, ∀ as, rtapNamespaceSizes[i]? = some as → as.align ≠ 0 → 0 < (as.size : ℕ) := by decide
    rw [hns] at hl
    cases hl
    constructor
    · show 0 < size
      rw [hsize]
      exact htable _ (List.getElem?_eq_some_iff.mp has).1 as has hne
    · refine { (h.take size).nextEntry hidxLt with
        offset := Int.le_refl _
        data := fun hcur => absurd hns hcur }

/-- The header of a vendor's data: it is returned if the vendor is not known. -/
theorem takeArg_vendor (h : IterInv m vns itLen last floor it) (h0 : 0 ≤ floor)
    (hidx : it.argIndex % 32 = 30) (hdvd : 2 ∣ it.arg) (hpos : 0 < size)
    (hnull : it.currentNamespace = .null → it.nextNsData = it.arg + size) :
    ∃ it' ret, takeArg m it size = some (it', ret) ∧ RoundRight m vns itLen last floor it it' ret := by
  by_cases hpast : past (it.arg + size) it.maxLength = true
  · exact takeArg_past h hpast
  obtain ⟨-, hend⟩ := not_past hpast
  rw [h.sameLength] at hend
  have hlt : it.argIndex % 32 < 31 := by omega
  have hn : IterInv m vns itLen last floor (it.take size).nextEntry := (h.take size).nextEntry hlt
  have hbits : bitsLeft last (it.take size).nextEntry < bitsLeft last (it.take size) := bitsLeft_nextEntry hlt
  have hnext : IterInv m vns itLen last floor ({ it.take size with
      resetOnExt := true
      isRadiotapNs := false
      thisArgIndex := 30 } : RadiotapIterator).nextEntry :=
    ⟨hn.sameLength, hn.sameVns, hn.word, hn.known, hn.offset, hn.data⟩
  refine ⟨_, if it.currentNamespace = .null then some 0 else none, ?_, hnext, ?_, ?_, ?_, ?_⟩
  · rw [takeArg_eq, if_neg hpast, if_pos hidx]
  · exact hbits.le
  · intro _
    exact hbits
  · intro _
    exact ⟨h.offset, h0.trans h.offset, hend, hdvd⟩
  · intro hret _
    have hcur : it.currentNamespace = .null := by
      by_contra hne
      rw [if_neg hne] at hret
      cases hret
    refine ⟨hpos, { hnext with
      offset := Int.le_refl _
      data := fun _ => ?_ }⟩
    show it.arg + size ≤ it.nextNsData
    rw [hnull hcur]

theorem takeArg_radiotap (h : IterInv m vns itLen last floor it) (hidx : it.argIndex % 32 = 29) :
    ∃ it' ret, takeArg m it 0 = some (it', ret) ∧ RoundRight m vns itLen last floor it it' ret := by
  by_cases hpast : past (it.arg + (0 : ℕ)) it.maxLength = true
  · exact takeArg_past h hpast
  have hlt : it.argIndex % 32 < 31 := by omega
  have hbits : bitsLeft last (it.take 0).nextEntry < bitsLeft last (it.take 0) := bitsLeft_nextEntry hlt
  refine ⟨({ it.take 0 with
      resetOnExt := true
      currentNamespace := .radiotap
      isRadiotapNs := true } : RadiotapIterator).nextEntry, none, ?_,
    .again ?_ hbits⟩
  · rw [takeArg_eq, if_neg hpast, if_neg (by omega), if_pos hidx]
  · exact { (h.take 0).nextEntry hlt with
      known := fun ns hns => CurrentNamespace.noConfusion hns
      data := fun hns => absurd rfl hns }

theorem takeArg_ext (h : IterInv m vns itLen last floor it) (hchain : Chain m last) (hidx : it.argIndex % 32 = 31)
    (hbit : it.bitmapShifter % 2 = 1) :
    ∃ it' ret, takeArg m it 0 = some (it', ret) ∧ RoundRight m vns itLen last floor it it' ret := by
  by_cases hpast : past (it.arg + (0 : ℕ)) it.maxLength = true
  · exact takeArg_past h hpast
  obtain ⟨word, hword, hnext, hbits⟩ := (h.take 0).nextWord hchain hidx hbit
  have hword : m.le32 it.nextBitmap = some word := hword
  refine ⟨(it.take 0).nextWord word, none, ?_, .again hnext hbits⟩
  rw [takeArg_eq, if_neg hpast, if_neg (by omega), if_neg (by omega), if_pos hidx, hword]
  rfl

theorem align_mem {l : List RadiotapAlignSize} {as : RadiotapAlignSize} {i : ℕ} (hvns : PowersOfTwo vns)
    (h : IterInv m vns itLen last floor it) (hl : it.currentNamespace.sizes = some l) (has : l[i]? = some as)
    (hne : as.align ≠ 0) : (as.align : ℕ) ∈ [1, 2, 4, 8] := by
  have hmem : as.align ∈ [0, 1, 2, 4, 8] := by
    cases hcur : it.currentNamespace with
    | null =>
      rw [hcur] at hl
      cases hl
    | radiotap =>
      have htable : ∀ as ∈ rtapNamespaceSizes, as.align ∈ [0, 1, 2, 4, 8] := by decide
      rw [hcur] at hl
      cases hl
      exact htable as (mem_of_getElem? has)
    | vendor ns =>
      obtain ⟨l', hl', hns⟩ := h.known ns hcur
      rw [hcur] at hl
      cases hl
      exact hvns l' hl' ns hns as (mem_of_getElem? has)
  have hfin : ∀ a : Fin 16, a ∈ [0, 1, 2, 4, 8] → a ≠ 0 → (a : ℕ) ∈ [1, 2, 4, 8] := by decide
  exact hfin as.align hmem hne

/-- **One round**, unless it comes to number 18 of radiotap. -/
theorem radiotapRound_spec {bs : List UInt8} (hlen : itLen ≤ bs.length) (hm : m = ofList bs) (hchain : Chain m last)
    (hvns : PowersOfTwo vns) (h0 : 0 ≤ floor) (h : IterInv m vns itLen last floor it) (hhole : ¬AtHole it) :
    ∃ it' ret, radiotapRound m it = some (it', ret) ∧ RoundRight m vns itLen last floor it it' ret := by
  have hstays : RoundRight m vns itLen last floor it it (some (-ENOENT)) := .failed h rfl (by decide)
  have hskips : ∀ it₁ : RadiotapIterator, IterInv m vns itLen last floor it₁ → bitsLeft last it₁ = bitsLeft last it →
      it₁.argIndex % 32 < 31 → RoundRight m vns itLen last floor it it₁.nextEntry none := by
    intro it₁ h₁ hbits hlt
    exact .again (h₁.nextEntry hlt) (hbits ▸ bitsLeft_nextEntry hlt)
  rw [radiotapRound]
  split
  · exact ⟨it, _, rfl, hstays⟩
  rename_i hnotLast
  split
  · rename_i hzero
    have hlt : it.argIndex % 32 < 31 := by
      have : it.argIndex % 32 ≠ 31 := fun heq => hnotLast ⟨heq, hzero⟩
      omega
    exact ⟨_, _, rfl, hskips it h rfl hlt⟩
  rename_i hbit
  have hbit : it.bitmapShifter % 2 = 1 := by omega
  cases hsize : it.fieldSize with
  | noMore => exact ⟨it, _, rfl, hstays⟩
  | unknown =>
    have hns : it.currentNamespace ≠ .radiotap := fun hns => hhole ⟨argIndex_of_unknown hsize hns, hbit, hns⟩
    have hlt : it.argIndex % 32 < 29 := argIndex_of_fieldSize (.inl hsize)
    refine ⟨_, _, rfl, hskips _ ?_ rfl (hlt.trans (by decide))⟩
    exact ⟨h.sameLength, h.sameVns, h.word, fun ns hns => CurrentNamespace.noConfusion hns, h.data hns,
      fun _ => h.data hns⟩
  | data align size =>
    have hpad : IterInv m vns itLen last floor { it with arg := padded align it.arg } := h.pad align
    dsimp only
    rcases Nat.lt_or_ge (it.argIndex % 32) 29 with hlt | hge
    · obtain ⟨l, as, hl, has, hne, rfl, rfl⟩ := sizes_of_data hsize hlt
      obtain ⟨it', ret, htake, hright⟩ := takeArg_field hpad h0 hlt hl has hne rfl
        (dvd_padded it.arg (align_mem hvns h hl has hne))
      rw [IEEE80211_RADIOTAP_VENDOR_NAMESPACE, if_neg (by omega)]
      exact ⟨it', ret, htake, hright.inv, hright.bits, hright.moved, hright.arg, hright.beyond⟩
    obtain ⟨hvendor, hother⟩ := special_of_data hsize hge
    by_cases hidx : it.argIndex % 32 = 30
    · obtain ⟨rfl, rfl⟩ := hvendor hidx
      rw [IEEE80211_RADIOTAP_VENDOR_NAMESPACE, if_pos hidx]
      rcases vendorNamespace_spec hlen hm h0 hpad with hnone |
        ⟨it₁, size, hsome, h₁, harg, hindex, -, hbitmap, hpos, -, hnull⟩
      · rw [hnone]
        exact ⟨_, _, rfl, .failed hpad rfl (by decide)⟩
      · obtain ⟨it', ret, htake, hright⟩ := takeArg_vendor h₁ h0 (by rw [hindex]; exact hidx)
          (by rw [harg]; exact dvd_padded it.arg (by decide)) hpos hnull
        have hbits : bitsLeft last it₁ = bitsLeft last it := by rw [bitsLeft, hbitmap, hindex, bitsLeft]
        rw [hsome]
        exact ⟨it', ret, htake, hright.inv, hbits ▸ hright.bits, hbits ▸ hright.moved, hright.arg, hright.beyond⟩
    · obtain ⟨rfl, rfl⟩ := hother hidx
      rw [IEEE80211_RADIOTAP_VENDOR_NAMESPACE, if_neg hidx]
      have hmod : it.argIndex % 32 < 32 := Nat.mod_lt _ (by decide)
      by_cases hlast : it.argIndex % 32 = 31
      · obtain ⟨it', ret, htake, hright⟩ := takeArg_ext hpad hchain hlast hbit
        exact ⟨it', ret, htake, hright.inv, hright.bits, hright.moved, hright.arg, hright.beyond⟩
      · have hidx : it.argIndex % 32 = 29 := by omega
        obtain ⟨it', ret, htake, hright⟩ := takeArg_radiotap hpad hidx
        exact ⟨it', ret, htake, hright.inv, hright.bits, hright.moved, hright.arg, hright.beyond⟩

end Parts

/-! ### Calls -/

section Calls

variable {m : Memory} {vns : Option (List RadiotapNamespace)} {itLen last : ℕ} {floor : ℤ} {it : RadiotapIterator}
  {bs : List UInt8}

theorem Clear.notAtHole (h : Clear m it) : ¬AtHole it := h 0 it rfl

theorem Clear.round (h : Clear m it) (hround : radiotapRound m it = some (it', none)) :
    Clear m it' := by
  intro n it'' hn
  apply h (n + 1)
  rw [rounds_succ, hround]
  exact hn

theorem clear_of_returned {n : ℕ} (hreturned : rounds m n it = none)
    (h : ∀ k < n, ∀ it', rounds m k it = some it' → ¬AtHole it') : Clear m it := by
  have hmono : ∀ (n : ℕ) (it : RadiotapIterator), rounds m n it = none → rounds m (n + 1) it = none := by
    intro n
    induction n with
    | zero =>
      intro it hnone
      cases hnone
    | succ n ih =>
      intro it hnone
      rw [rounds_succ] at hnone ⊢
      split
      · rename_i it₁ hround
        rw [hround] at hnone
        exact ih it₁ hnone
      · rfl
  intro k it' hk
  rcases Nat.lt_or_ge k n with hlt | hge
  · exact h k hlt it' hk
  · have hnone : rounds m k it = none := Nat.le_induction hreturned (fun k _ => hmono k it) k hge
    rw [hnone] at hk
    cases hk

theorem exists_radiotapIteratorNext (hlen : itLen ≤ bs.length) (hm : m = ofList bs) (hchain : Chain m last)
    (hvns : PowersOfTwo vns) (h0 : 0 ≤ floor) (h : IterInv m vns itLen last floor it) (hclear : Clear m it) :
    ∃ fuel, (radiotapIteratorNext m fuel it).isSome := by
  induction hn : bitsLeft last it using Nat.strong_induction_on generalizing it with
  | _ n ih =>
    obtain ⟨it', ret, hround, hright⟩ := radiotapRound_spec hlen hm hchain hvns h0 h hclear.notAtHole
    cases ret with
    | some ret =>
      refine ⟨1, ?_⟩
      rw [radiotapIteratorNext_succ, hround]
      rfl
    | none =>
      have hless : bitsLeft last it' < n := hn ▸ hright.moved (.inl rfl)
      obtain ⟨fuel, hfuel⟩ := ih _ hless hright.inv (hclear.round hround) rfl
      refine ⟨fuel + 1, ?_⟩
      rw [radiotapIteratorNext_succ, hround]
      exact hfuel

theorem radiotapIteratorNext_spec (hlen : itLen ≤ bs.length) (hm : m = ofList bs) (hchain : Chain m last)
    (hvns : PowersOfTwo vns) (h0 : 0 ≤ floor) {fuel : ℕ}
    (hnext : radiotapIteratorNext m fuel it = some (ret, it')) (h : IterInv m vns itLen last floor it)
    (hclear : Clear m it) : RoundRight m vns itLen last floor it it' (some ret) := by
  induction fuel generalizing it with
  | zero => cases hnext
  | succ fuel ih =>
    obtain ⟨it₁, ret₁, hround, hright⟩ := radiotapRound_spec hlen hm hchain hvns h0 h hclear.notAtHole
    rw [radiotapIteratorNext_succ, hround] at hnext
    cases ret₁ with
    | some ret₁ =>
      cases hnext
      exact hright
    | none =>
      have hrest := ih hnext hright.inv (hclear.round hround)
      exact ⟨hrest.inv, hrest.bits.trans hright.bits, fun hret => (hrest.moved hret).trans_le hright.bits, hrest.arg,
        hrest.beyond⟩

/-- What holds after some calls: the arguments so far end at `floor`, if no vendor is known. -/
structure CallsInv (m : Memory) (vns : Option (List RadiotapNamespace)) (itLen last : ℕ) (floor : ℤ) (bound : ℕ)
    (it : RadiotapIterator) (os : List (ℤ × RadiotapIterator)) : Prop where
  nonneg : 0 ≤ floor
  inv : IterInv m vns itLen last floor it
  bits : (arguments os).length + bitsLeft last it ≤ bound
  args : ∀ a ∈ arguments os, ArgRight itLen a
  ends : NoVendors vns → ∀ a ∈ arguments os, 0 < a.thisArgSize ∧ a.thisArg + a.thisArgSize ≤ floor
  order : NoVendors vns → (arguments os).Pairwise Before

theorem arguments_append (os : List (ℤ × RadiotapIterator)) (ret : ℤ) (it : RadiotapIterator) :
    arguments (os ++ [(ret, it)]) = if ret = 0 then arguments os ++ [it] else arguments os := by
  rw [arguments, filter_append, map_append, filter_cons]
  split
  · rename_i hret
    rw [if_pos (by simpa using hret)]
    rfl
  · rename_i hret
    rw [if_neg (by simpa using hret)]
    exact append_nil _

theorem CallsInv.call (hlen : itLen ≤ bs.length) (hm : m = ofList bs) (hchain : Chain m last)
    (hvns : PowersOfTwo vns) {bound : ℕ} {os : List (ℤ × RadiotapIterator)} {fuel : ℕ}
    (h : CallsInv m vns itLen last floor bound it os) (hclear : Clear m it)
    (hnext : radiotapIteratorNext m fuel it = some (ret, it')) :
    ∃ floor', CallsInv m vns itLen last floor' bound it' (os ++ [(ret, it')]) := by
  have hright := radiotapIteratorNext_spec hlen hm hchain hvns h.nonneg hnext h.inv hclear
  by_cases hret : ret = 0
  · subst hret
    obtain ⟨hfloor, harg⟩ := hright.arg rfl
    have hmoved := hright.moved (.inr rfl)
    have hbits := h.bits
    have hargs : ∀ a ∈ arguments os ++ [it'], ArgRight itLen a := by
      intro a ha
      rcases mem_append.mp ha with ha | ha
      · exact h.args a ha
      · rw [mem_singleton.mp ha]
        exact harg
    have hcount : (arguments os ++ [it']).length + bitsLeft last it' ≤ bound := by
      rw [length_append, length_singleton]
      omega
    have horder : NoVendors vns → (arguments os ++ [it']).Pairwise Before := by
      intro hno
      refine pairwise_append.mpr ⟨h.order hno, pairwise_singleton _ _, ?_⟩
      intro a ha b hb
      obtain rfl := mem_singleton.mp hb
      obtain ⟨hpos, hend⟩ := h.ends hno a ha
      constructor <;> omega
    by_cases hno : NoVendors vns
    · obtain ⟨hpos, hinv⟩ := hright.beyond rfl hno
      refine ⟨it'.thisArg + it'.thisArgSize, ?_⟩
      have hnonneg : 0 ≤ it'.thisArg + it'.thisArgSize := by
        have := harg.lower
        omega
      refine ⟨hnonneg, hinv, ?_, ?_, ?_, ?_⟩ <;> rw [arguments_append, if_pos rfl]
      · exact hcount
      · exact hargs
      · intro _ a ha
        rcases mem_append.mp ha with ha | ha
        · obtain ⟨hpos', hend⟩ := h.ends hno a ha
          exact ⟨hpos', by omega⟩
        · rw [mem_singleton.mp ha]
          exact ⟨hpos, Int.le_refl _⟩
      · exact horder
    · refine ⟨floor, h.nonneg, hright.inv, ?_, ?_, fun hno' => absurd hno' hno, fun hno' => absurd hno' hno⟩ <;>
        rw [arguments_append, if_pos rfl]
      · exact hcount
      · exact hargs
  · refine ⟨floor, h.nonneg, hright.inv, ?_, ?_, ?_, ?_⟩ <;> rw [arguments_append, if_neg hret]
    · exact (Nat.add_le_add_left hright.bits _).trans h.bits
    · exact h.args
    · exact h.ends
    · exact h.order

end Calls

/-! ### The start -/

section Start

variable {m : Memory} {maxLength : ℕ}

theorem extendedBitmaps_spec {k arg : ℕ} (h : extendedBitmaps m maxLength (4 * (k + 1)) = some (some arg)) :
    ∃ last, k ≤ last ∧ arg = 4 * (last + 2) ∧
      ∀ j, k ≤ j → j ≤ last → ∃ word, m.le32 (4 * (j + 1)) = some word ∧ (word.testBit 31 = true ↔ j < last) := by
  induction hn : maxLength - 4 * (k + 1) using Nat.strong_induction_on generalizing k with
  | _ n ih =>
    rw [extendedBitmaps] at h
    split at h
    swap
    · cases h
    rename_i hle
    obtain ⟨word, hword, h⟩ := bind_eq_some_iff.mp h
    by_cases hext : word.testBit 31 = true
    · rw [IEEE80211_RADIOTAP_EXT, if_pos hext] at h
      obtain ⟨last, hk, harg, hchain⟩ := ih _ (by omega) (k := k + 1) h rfl
      refine ⟨last, by omega, harg, ?_⟩
      intro j hkj hj
      rcases Nat.eq_or_lt_of_le hkj with rfl | hlt
      · exact ⟨word, hword, iff_of_true hext (by omega)⟩
      · exact hchain j hlt hj
    · rw [IEEE80211_RADIOTAP_EXT, if_neg hext] at h
      cases h
      refine ⟨k, Nat.le_refl k, rfl, ?_⟩
      intro j hkj hj
      obtain rfl : j = k := Nat.le_antisymm hj hkj
      exact ⟨word, hword, iff_of_false hext (Nat.lt_irrefl j)⟩

/-- **`ieee80211_radiotap_iterator_init` has walked the bitmap to its end.** -/
theorem chain_of_init {max : ℤ} {vns : Option (List RadiotapNamespace)} {old it : RadiotapIterator}
    (h : radiotapIteratorInit m max vns old = some (0, it)) :
    ∃ itLen last, m.le16 2 = some itLen ∧ (itLen : ℤ) ≤ max ∧ Chain m last ∧ IterInv m vns itLen last 0 it := by
  have herr : ∀ old' : RadiotapIterator, some (-EINVAL, old') ≠ some (0, it) := by
    intro old' heq
    have hret : -EINVAL = 0 := congrArg Prod.fst (some.inj heq)
    exact absurd hret (by decide)
  rw [radiotapIteratorInit] at h
  split at h
  · exact absurd h (herr old)
  obtain ⟨itVersion, hversion, h⟩ := bind_eq_some_iff.mp h
  split at h
  · exact absurd h (herr old)
  obtain ⟨itLen, hlen, h⟩ := bind_eq_some_iff.mp h
  split at h
  · exact absurd h (herr old)
  rename_i hmax
  obtain ⟨itPresent, hpresent, h⟩ := bind_eq_some_iff.mp h
  dsimp only at h
  have hshift : itPresent = itPresent / 2 ^ (0 % 32) := by simp
  split at h
  · rename_i hext
    obtain ⟨res, hres, h⟩ := bind_eq_some_iff.mp h
    cases res with
    | none => exact absurd h (herr _)
    | some arg =>
      obtain ⟨last, hk, harg, hchain⟩ := extendedBitmaps_spec (k := 1) hres
      cases h
      refine ⟨itLen, last, hlen, not_lt.mp hmax, ?_, rfl, rfl, ⟨0, Nat.zero_le _, rfl, itPresent, hpresent, hshift⟩,
        fun ns hns => CurrentNamespace.noConfusion hns, Int.natCast_nonneg _, fun hns => absurd rfl hns⟩
      intro k hkl
      rcases Nat.eq_zero_or_pos k with rfl | hpos
      · exact ⟨itPresent, hpresent, iff_of_true hext hk⟩
      · exact hchain k hpos hkl
  · rename_i hext
    cases h
    refine ⟨itLen, 0, hlen, not_lt.mp hmax, ?_, rfl, rfl, ⟨0, Nat.le_refl 0, rfl, itPresent, hpresent, hshift⟩,
      fun ns hns => CurrentNamespace.noConfusion hns, Int.natCast_nonneg _, fun hns => absurd rfl hns⟩
    intro k hk
    obtain rfl := Nat.le_zero.mp hk
    exact ⟨itPresent, hpresent, iff_of_false hext (Nat.lt_irrefl 0)⟩

end Start

/-! ### Runs -/

/-- **The iterator reads the header only, every call returns, and rightly**, if no call comes to
number 18 of radiotap. -/
theorem radiotap_right {bs : List UInt8} {maxLength : ℤ} {vns : Option (List RadiotapNamespace)}
    {old it : RadiotapIterator} (hlen : maxLength ≤ bs.length) (hvns : PowersOfTwo vns)
    (hinit : radiotapIteratorInit (ofList (bs.take maxLength.toNat)) maxLength vns old = some (0, it)) :
    ∃ itLen bound, (ofList (bs.take maxLength.toNat)).le16 2 = some itLen ∧ ∀ it' os,
      Machine.Reach (callNext (ofList (bs.take maxLength.toNat)))
        (fun it _ _ => Clear (ofList (bs.take maxLength.toNat)) it) it it' os →
      CallsRight (ofList (bs.take maxLength.toNat)) vns itLen bound it' os := by
  obtain ⟨itLen, last, hitLen, hle, hchain, hinv⟩ := chain_of_init hinit
  have hread : itLen ≤ (bs.take maxLength.toNat).length := by
    rw [length_take]
    omega
  refine ⟨itLen, bitsLeft last it, hitLen, ?_⟩
  intro it' os hreach
  obtain ⟨floor, hcalls⟩ : ∃ floor, CallsInv (ofList (bs.take maxLength.toNat)) vns itLen last floor
      (bitsLeft last it) it' os := by
    refine hreach.invariant (fun it' os => ∃ floor, CallsInv (ofList (bs.take maxLength.toNat)) vns itLen last floor
      (bitsLeft last it) it' os) ⟨0, Int.le_refl 0, hinv, ?_, ?_, ?_, fun _ => List.Pairwise.nil⟩ ?_
    · exact (Nat.zero_add _).le
    · intro a ha
      cases ha
    · intro _ a ha
      cases ha
    · rintro s os fuel s' o ⟨floor, h⟩ hclear hstep
      obtain ⟨⟨ret, it₁⟩, hnext, heq⟩ := map_eq_some_iff.mp hstep
      cases heq
      exact h.call hread rfl hchain hvns hclear hnext
  have hbits := hcalls.bits
  exact ⟨fun hclear => exists_radiotapIteratorNext hread rfl hchain hvns hcalls.nonneg hcalls.inv hclear,
    by omega, hcalls.args, hcalls.order⟩

/-- A header with the flags and the rate, and what it is initialised to. -/
def flagsAndRate : List UInt8 := [0, 0, 10, 0, 0x06, 0, 0, 0, 0x10, 0x02]

def flagsAndRateStart : RadiotapIterator :=
  { currentNamespace := .radiotap
    arg := 8
    nextBitmap := 8
    thisArg := 8
    isRadiotapNs := true
    maxLength := 10
    bitmapShifter := 6 }

/-- The flags are the first argument. -/
theorem radiotap_right_flags : ∃ itLen bound it' os,
    CallsRight (ofList (flagsAndRate.take 10)) none itLen bound it' os ∧
      (arguments os).map RadiotapIterator.thisArgIndex = [1] := by
  have hinit : radiotapIteratorInit (ofList (flagsAndRate.take (10 : ℤ).toNat)) 10 none {} =
      some (0, flagsAndRateStart) := by decide +kernel
  obtain ⟨itLen, bound, -, hright⟩ := radiotap_right (by decide) (fun l hl => by cases hl) hinit
  have hcall : (callNext (ofList (flagsAndRate.take (10 : ℤ).toNat)) flagsAndRateStart 2).map
      (fun r => (arguments r.2).map RadiotapIterator.thisArgIndex) = some [1] := by decide +kernel
  obtain ⟨⟨it', os⟩, hcall, hos⟩ := map_eq_some_iff.mp hcall
  have hclear : Clear (ofList (flagsAndRate.take (10 : ℤ).toNat)) flagsAndRateStart :=
    clear_of_returned (n := 2) (by decide +kernel) (by decide +kernel)
  exact ⟨itLen, bound, it', os, hright it' os (.step .init hclear hcall), hos⟩

/-- A header with number 18 and a vendor. -/
def holeAndVendor : List UInt8 := [0, 0, 8, 0, 0, 0, 4, 0x40]

/-- A header with the TSF and number 18, and radiotap again, with the flags, in a second word. -/
def holeAndFlags : List UInt8 :=
  [0, 0, 24, 0, 0x01, 0, 4, 0xa0, 0x02, 0, 0, 0, 0, 0, 0, 0, 1, 2, 3, 4, 5, 6, 7, 8]

/-- **Number 18 of radiotap puts the offset where nobody has put it**: before the header, or back to
the TSF. -/
theorem radiotap_hole :
    (∃ it, radiotapIteratorInit (ofList holeAndVendor) 8 none { nextNsData := -4 } = some (0, it) ∧
      ∃ n it', rounds (ofList holeAndVendor) n it = some it' ∧ radiotapRound (ofList holeAndVendor) it' = none) ∧
    ∃ it, radiotapIteratorInit (ofList holeAndFlags) 24 none { nextNsData := 16 } = some (0, it) ∧
      ∃ it' os, Machine.run (callNext (ofList holeAndFlags)) it [64, 64] = some (it', os) ∧
        ¬(arguments os).Pairwise Before := by
  constructor
  · have hinit : ((radiotapIteratorInit (ofList holeAndVendor) 8 none { nextNsData := -4 }).bind fun r =>
        if r.1 = 0 then (rounds (ofList holeAndVendor) 30 r.2).map (radiotapRound (ofList holeAndVendor)) else none) =
        some none := by decide +kernel
    obtain ⟨⟨ret, it⟩, hinit, h⟩ := bind_eq_some_iff.mp hinit
    split at h
    · rename_i hret
      obtain rfl : ret = 0 := hret
      obtain ⟨it', hrounds, hround⟩ := map_eq_some_iff.mp h
      exact ⟨it, hinit, 30, it', hrounds, hround⟩
    · cases h
  · have hinit : ((radiotapIteratorInit (ofList holeAndFlags) 24 none { nextNsData := 16 }).bind fun r =>
        if r.1 = 0 then
          (Machine.run (callNext (ofList holeAndFlags)) r.2 [64, 64]).map fun r =>
            (arguments r.2).map fun a => (a.thisArg, a.thisArgSize)
        else none) = some [(16, 8), (16, 1)] := by decide +kernel
    obtain ⟨⟨ret, it⟩, hinit, h⟩ := bind_eq_some_iff.mp hinit
    split at h
    · rename_i hret
      obtain rfl : ret = 0 := hret
      obtain ⟨⟨it', os⟩, hrun, hargs⟩ := map_eq_some_iff.mp h
      refine ⟨it, hinit, it', os, hrun, ?_⟩
      intro horder
      have hpairs : ((arguments os).map fun a => (a.thisArg, a.thisArgSize)).Pairwise fun a b => a.1 < b.1 :=
        pairwise_map.mpr (horder.imp fun h => h.1)
      dsimp only at hargs
      rw [hargs] at hpairs
      exact absurd hpairs (by decide)
    · cases h

end Mac80211
