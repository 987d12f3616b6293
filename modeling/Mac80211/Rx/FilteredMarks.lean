import Mac80211.Rx.ReorderLoops

/-!
# Which sequence numbers are marked as filtered

`reorder_buf_filtered` is one word with a bit for each slot; the bit of slot `i` is that of slot
`i % 64`, as the machine shifts. A driver marks sequence numbers relative to one of its own. In a
ring of more than 64 slots two share a bit, and in a smaller one marks beyond it are dropped.

## Main results

* `marks_exact_iff`
-/

namespace Mac80211

open Machine Loops

/-! ### Bits of a word -/

/-- Bit `i` of a word. -/
def hasBit (x : UInt64) (i : ℕ) : Bool := x.toBitVec.getLsbD i

section Bits

variable {x : UInt64} {i j : ℕ}

theorem toBitVec_ofNat_mod (hj : j < 64) : (UInt64.ofNat j).toBitVec % 64 = BitVec.ofNat 64 j := by
  apply BitVec.eq_of_toNat_eq
  simp
  omega

theorem toBitVec_bitUll (hi : i < 64) : (bitUll i).toBitVec = BitVec.twoPow 64 i := by
  rw [bitUll, UInt64.toBitVec_shiftLeft, toBitVec_ofNat_mod hi, BitVec.shiftLeft_eq', BitVec.toNat_ofNat,
    Nat.mod_eq_of_lt (by omega)]
  rfl

theorem and_bitUll_ne_zero_iff (hi : i < 64) : x &&& bitUll i ≠ 0 ↔ hasBit x i = true := by
  rw [Ne, ← UInt64.toBitVec_inj, UInt64.toBitVec_and, toBitVec_bitUll hi, BitVec.and_twoPow, hasBit]
  cases x.toBitVec.getLsbD i with
  | false => simp
  | true =>
    rw [if_pos rfl]
    refine iff_of_true (fun heq => ?_) rfl
    have hbit := congrArg (fun v : BitVec 64 => v.getLsbD i) heq
    simp [hi] at hbit

theorem hasBit_and_not_bitUll (hi : i < 64) (hj : j < 64) :
    hasBit (x &&& ~~~bitUll j) i = (hasBit x i && decide (i ≠ j)) := by
  rw [hasBit, UInt64.toBitVec_and, UInt64.toBitVec_not, toBitVec_bitUll hj, BitVec.getLsbD_and,
    BitVec.getLsbD_not, BitVec.getLsbD_twoPow]
  simp [hi, hj, hasBit, eq_comm]

theorem hasBit_or_bitUll (hj : j < 64) : hasBit (x ||| bitUll j) i = (hasBit x i || decide (i = j)) := by
  rw [hasBit, UInt64.toBitVec_or, toBitVec_bitUll hj, BitVec.getLsbD_or, BitVec.getLsbD_twoPow]
  simp [hj, hasBit, eq_comm]

theorem hasBit_shiftRight (hj : j < 64) : hasBit (x >>> UInt64.ofNat j) i = hasBit x (j + i) := by
  rw [hasBit, UInt64.toBitVec_shiftRight, toBitVec_ofNat_mod hj, BitVec.ushiftRight_eq', BitVec.toNat_ofNat,
    Nat.mod_eq_of_lt (by omega), BitVec.getLsbD_ushiftRight, hasBit]

theorem hasBit_of_le (hi : 64 ≤ i) : hasBit x i = false := BitVec.getLsbD_of_ge _ _ hi

end Bits

/-! ### Marks -/

/-- The driver has marked a sequence number: bit `i` of `filtered` is for `ssn + i`. -/
def Marked (ssn : ℕ) (filtered : UInt64) (sn : ℕ) : Prop :=
  snSub sn ssn < 64 ∧ filtered &&& bitUll (snSub sn ssn) ≠ 0
deriving Decidable

theorem marked_iff {ssn sn : ℕ} {filtered : UInt64} :
    Marked ssn filtered sn ↔ hasBit filtered (snSub sn ssn) = true := by
  constructor
  · exact fun ⟨hlt, hbit⟩ => (and_bitUll_ne_zero_iff hlt).mp hbit
  · intro hbit
    have hlt : snSub sn ssn < 64 := by
      by_contra hge
      rw [hasBit_of_le (not_lt.mp hge)] at hbit
      cases hbit
    exact ⟨hlt, (and_bitUll_ne_zero_iff hlt).mpr hbit⟩

namespace TidAmpduRx

/-- What `ieee80211_rx_reorder_ready` looks at first. -/
def isFiltered (t : TidAmpduRx) (index : ℕ) : Bool := t.reorderBufFiltered &&& bitUll index ≠ 0

/-- The sequence number at a place in the window. -/
def windowSn (t : TidAmpduRx) (m : ℕ) : ℕ := (t.headSeqNum + m) % SN_MODULO

end TidAmpduRx

/-- The slot that mark `i` is for, as `ieee80211_mark_rx_ba_filtered_frames` computes it once frames have been
released up to `ssn`. -/
def markIndex (t : TidAmpduRx) (ssn i : ℕ) : ℕ :=
  ((ssn + snSub t.headSeqNum ssn) % 65536 + i) % t.bufSize

/-- What a call should leave, between the state in which the marks are made and the state after it. -/
structure MarksExact (ssn : ℕ) (filtered : UInt64) (t₁ t' : TidAmpduRx) : Prop where
  /-- The slot of a sequence number of the window is filtered if the driver has marked that number. -/
  exact : ∀ m < t'.bufSize, t'.isFiltered (t'.windowSn m % t'.bufSize) = true ↔
    Marked ssn filtered (t'.windowSn m)
  /-- `BIT_ULL` is not given a number of 64 or more, when the marks are made, -/
  markShifts : ∀ i < t₁.bufSize, markIndex t₁ ssn i < 64
  /-- nor when slots are looked at and released. -/
  slotShifts : ∀ m < t'.bufSize, t'.slot m < 64

variable {r : TidAmpduRx × List AmpduSkb}

section Release

variable {hz jiffies : UInt64} {t t' t₀ : TidAmpduRx} {frames : List AmpduSkb} {i j k m : ℕ}

theorem isFiltered_eq_hasBit (hi : i < 64) : t.isFiltered i = hasBit t.reorderBufFiltered i := by
  rw [TidAmpduRx.isFiltered, Bool.eq_iff_iff, decide_eq_true_eq]
  exact and_bitUll_ne_zero_iff hi

theorem isFiltered_of_not_ready (h : t.rxReorderReady i = false) : t.isFiltered i = false := by
  rw [TidAmpduRx.isFiltered, filtered_of_not_ready h]
  rfl

theorem isFiltered_releaseReorderFrame (hi : i < 64) (hj : j < 64) :
    (releaseReorderFrame t j frames).1.isFiltered i = (t.isFiltered i && decide (i ≠ j)) := by
  rw [isFiltered_eq_hasBit hi, isFiltered_eq_hasBit hi]
  exact hasBit_and_not_bitUll hi hj

/-! ### Releasing frames -/

/-- The window has moved by `k` slots. They are not ready any more, and the marks of the others are as they
were. -/
structure WindowMoved (k : ℕ) (t₀ t : TidAmpduRx) : Prop where
  size : t.bufSize = t₀.bufSize
  head : t.headSeqNum % SN_MODULO = (t₀.headSeqNum + k) % SN_MODULO
  le : k ≤ t₀.bufSize
  behind : ∀ m < k, t.rxReorderReady (t₀.slot m) = false
  ahead : ∀ m < t₀.bufSize, k ≤ m → t.isFiltered (t₀.slot m) = t₀.isFiltered (t₀.slot m)

theorem WindowMoved.refl (t : TidAmpduRx) : WindowMoved 0 t t :=
  ⟨rfl, by rw [Nat.add_zero], Nat.zero_le _, fun m hm => absurd hm (Nat.not_lt_zero m), fun _ _ _ => rfl⟩

theorem WindowMoved.slot_eq (h : WindowMoved k t₀ t) (hdvd : t₀.bufSize ∣ SN_MODULO) (m : ℕ) :
    t.slot m = t₀.slot (k + m) := by
  rw [TidAmpduRx.slot, TidAmpduRx.slot, h.size, ← add_mod_of_mod hdvd, h.head, add_mod_of_mod hdvd, Nat.add_assoc]

theorem WindowMoved.headIndex_eq (h : WindowMoved k t₀ t) (hdvd : t₀.bufSize ∣ SN_MODULO) :
    t.headIndex = t₀.slot k := h.slot_eq hdvd 0

/-- A slot further on is released, and those in between are not ready. -/
theorem WindowMoved.release (h : WindowMoved k t₀ t) (frames : List AmpduSkb)
    (hsmall : t₀.bufSize ≤ 64) (hk : k ≤ j) (hj : j < t₀.bufSize)
    (hgap : ∀ m, k ≤ m → m < j → t.rxReorderReady (t₀.slot m) = false) {n : ℕ}
    (hn : n % SN_MODULO = (t₀.headSeqNum + (j + 1)) % SN_MODULO) :
    WindowMoved (j + 1) t₀ { (releaseReorderFrame t (t₀.slot j) frames).1 with headSeqNum := n } := by
  have hlt {m : ℕ} : t₀.slot m < 64 := (Nat.mod_lt _ (by omega)).trans_le hsmall
  refine ⟨h.size, hn, hj, fun m hm => ?_, fun m hm hjm => ?_⟩
  · change (releaseReorderFrame t (t₀.slot j) frames).1.rxReorderReady (t₀.slot m) = false
    by_cases hmj : m = j
    · rw [hmj]
      exact not_ready_releaseReorderFrame_self _
    · refine not_ready_releaseReorderFrame ?_
      by_cases hmk : m < k
      · exact h.behind m hmk
      · exact hgap m (by omega) (by omega)
  · change (releaseReorderFrame t (t₀.slot j) frames).1.isFiltered (t₀.slot m) = _
    have hne : t₀.slot m ≠ t₀.slot j := by
      intro heq
      have := eq_of_slot_eq hm hj heq
      omega
    rw [isFiltered_releaseReorderFrame hlt hlt, h.ahead m hm (by omega)]
    simp [hne]

theorem WindowMoved.purge (h : WindowMoved k t₀ t) : WindowMoved k t₀ (t.purge i) :=
  ⟨h.size, h.head, h.le, fun m hm => not_ready_purge (h.behind m hm), h.ahead⟩

theorem WindowMoved.withTimer (h : WindowMoved k t₀ t) (timer : Option UInt64) :
    WindowMoved k t₀ { t with reorderTimer := timer } := ⟨h.size, h.head, h.le, h.behind, h.ahead⟩

theorem WindowMoved.setReleaseTimer (h : WindowMoved k t₀ t) : WindowMoved k t₀ (setReleaseTimer hz t j) := by
  obtain ⟨timer, htimer⟩ := setReleaseTimer_eq hz t j
  rw [htimer]
  exact h.withTimer timer

theorem WindowMoved.rearmed (h : WindowMoved k t₀ t) (hrearm : Rearmed hz t t') : WindowMoved k t₀ t' := by
  cases hrearm with
  | armed => exact h.setReleaseTimer
  | off => exact h.withTimer none

/-- The loop that gives up on missing frames has moved the window by `k` and looks `skipped` slots further. -/
structure Skipping (t₀ : TidAmpduRx) (k : ℕ) (s : TimeoutState) : Prop where
  moved : WindowMoved k t₀ s.t
  pos : 0 < k + s.skipped
  le : k + s.skipped ≤ t₀.bufSize
  slot : s.j = t₀.slot (k + s.skipped)
  gap : ∀ m, k ≤ m → m < k + s.skipped → s.t.rxReorderReady (t₀.slot m) = false

theorem Skipping.timeoutBody {s s' : TimeoutState} (h : Skipping t₀ k s) (hsmall : t₀.bufSize ≤ 64)
    (hbody : TimeoutBody hz jiffies t₀.headIndex s s') : ∃ k', Skipping t₀ k' s' := by
  have hnext (m : ℕ) : (t₀.slot m + 1) % t₀.bufSize = t₀.slot (m + 1) := Nat.mod_add_mod ..
  have hlt (hj : s.j ≠ t₀.headIndex) : k + s.skipped < t₀.bufSize := by
    refine lt_of_le_of_ne h.le fun heq => hj ?_
    rw [h.slot, heq, TidAmpduRx.slot, Nat.add_mod_right]
    rfl
  obtain ⟨moved, pos, le, hslot, gap⟩ := h
  cases hbody with
  | @skip j skipped t frames hj _ hnot =>
    dsimp only at moved pos le hslot gap hlt
    refine ⟨k, moved, by dsimp only; omega, hlt hj, ?_, fun m hkm hm => ?_⟩
    · dsimp only
      rw [hslot, moved.size, hnext, Nat.add_assoc]
    · rcases Nat.lt_or_eq_of_le (Nat.lt_succ_iff.mp (show m < k + skipped + 1 from hm)) with hm | rfl
      · exact gap m hkm hm
      · rw [← hslot]
        exact hnot
  | @release j skipped t t' frames hj _ _ _ hpurge =>
    dsimp only at moved pos le hslot gap hlt
    obtain ⟨moved', gap'⟩ := hpurge.invariant (fun s => WindowMoved k t₀ s.2 ∧
      ∀ m, k ≤ m → m < k + skipped → s.2.rxReorderReady (t₀.slot m) = false) (by
        rintro s _ ⟨hmoved, hgap⟩ ⟨-, -, rfl⟩
        exact ⟨hmoved.purge, fun m hkm hm => not_ready_purge (hgap m hkm hm)⟩) ⟨moved, gap⟩
    have hhead : snAdd (snInc t'.headSeqNum) skipped % SN_MODULO =
        (t₀.headSeqNum + (k + skipped + 1)) % SN_MODULO := by
      have := moved'.head
      simp only [snAdd, snInc, SN_MODULO] at *
      omega
    rw [hslot]
    refine ⟨k + skipped + 1, moved'.release frames hsmall (Nat.le_add_right k skipped) (hlt hj) gap' hhead,
      Nat.succ_pos _, hlt hj, ?_, fun m hkm hm => ?_⟩
    · change (t₀.slot (k + skipped) + 1) % t'.bufSize = _
      rw [moved'.size, hnext]
      rfl
    · exact absurd (show m < k + skipped + 1 + 0 from hm) (by omega)

/-- **`ieee80211_sta_reorder_release` moves the window**, and touches no mark of a slot that stays in it. -/
theorem released_moved (hsmall : t.bufSize ≤ 64) (hdvd : t.bufSize ∣ SN_MODULO)
    (hr : Released hz jiffies t frames r) : ∃ k, WindowMoved k t r.1 := by
  have htimeout {s : TimeoutState} (hindex : t.headIndex < t.bufSize)
      (hcond : (!t.rxReorderReady t.headIndex && t.storedMpduNum ≠ 0) = true)
      (hloop : Ends (TimeoutExit hz jiffies t.headIndex) (TimeoutBody hz jiffies t.headIndex)
        ⟨(t.headIndex + 1) % t.bufSize, 1, t, frames⟩ s) : ∃ k, WindowMoved k t s.t := by
    rw [Bool.and_eq_true, Bool.not_eq_true'] at hcond
    have hstart : Skipping t 0 ⟨(t.headIndex + 1) % t.bufSize, 1, t, frames⟩ := by
      refine ⟨.refl t, one_pos, by dsimp only; omega, Nat.mod_add_mod .., fun m _ hm => ?_⟩
      obtain rfl : m = 0 := by
        dsimp only at hm
        omega
      exact hcond.1
    obtain ⟨k, hk⟩ := hloop.invariant (fun s => ∃ k, Skipping t k s)
      (fun _ _ ⟨_, hk⟩ hbody => hk.timeoutBody hsmall hbody) ⟨0, hstart⟩
    exact ⟨k, hk.moved⟩
  cases hr with
  | waits hindex hcond hloop =>
    obtain ⟨k, hk⟩ := htimeout hindex hcond hloop
    exact ⟨k, hk.setReleaseTimer⟩
  | gaveUp hindex hcond hloop _ hrearm =>
    obtain ⟨k, hk⟩ := htimeout hindex hcond hloop
    exact ⟨k, hk.rearmed hrearm⟩
  | ready hindex _ hloop hrearm =>
    obtain ⟨k, hk⟩ := hloop.invariant (fun r => ∃ k, WindowMoved k t r.1) (by
      rintro ⟨t', frames'⟩ _ ⟨k, hk⟩ ⟨-, hready, rfl⟩
      -- a slot that has been released is not ready
      have hlt : k < t.bufSize := by
        refine lt_of_le_of_ne hk.le fun heq => ?_
        have hzero : t.slot k = t.slot 0 := by
          rw [heq, TidAmpduRx.slot, Nat.add_mod_right]
          rfl
        rw [hk.headIndex_eq hdvd, hzero, hk.behind 0 (by omega)] at hready
        cases hready
      have hhead : snInc t'.headSeqNum % SN_MODULO = (t.headSeqNum + (k + 1)) % SN_MODULO := by
        have := hk.head
        simp only [snAdd, snInc, SN_MODULO] at *
        omega
      have hmoved := hk.release frames' hsmall le_rfl hlt (fun m hkm hm => by omega) hhead
      rw [← hk.headIndex_eq hdvd] at hmoved
      exact ⟨k + 1, hmoved⟩) ⟨0, .refl t⟩
    exact ⟨k, hk.rearmed hrearm⟩

end Release

/-! ### Making the marks -/

section Marks

variable {hz jiffies filtered : UInt64} {t t' : TidAmpduRx} {frames : List AmpduSkb} {ssn received m : ℕ}

theorem hasBit_markLoop {b : ℕ} (hsmall : b ≤ 64) (s : ℕ) (bits : UInt64) {n : ℕ} (hn : n ≤ b) (hm : m < b) :
    hasBit ((List.range n).foldl (fun bits i =>
      let index := (s + i) % b
      let bits := bits &&& ~~~bitUll index
      if filtered &&& bitUll i ≠ 0 then bits ||| bitUll index else bits) bits) ((s + m) % b) =
      if m < n then hasBit filtered m else hasBit bits ((s + m) % b) := by
  have hlt (k : ℕ) : (s + k) % b < 64 := (Nat.mod_lt _ (by omega)).trans_le hsmall
  induction n with
  | zero => rfl
  | succ n ih =>
    rw [List.range_succ, List.foldl_append, List.foldl_cons, List.foldl_nil]
    generalize (List.range n).foldl _ bits = bits' at ih ⊢
    have ih := ih (by omega)
    by_cases hmn : m = n
    · subst hmn
      rw [if_pos (Nat.lt_succ_self m)]
      by_cases hbit : filtered &&& bitUll m ≠ 0
      · rw [(and_bitUll_ne_zero_iff (by omega)).mp hbit]
        simp only [if_pos hbit]
        rw [hasBit_or_bitUll (hlt m)]
        simp
      · simp only [if_neg hbit]
        rw [and_bitUll_ne_zero_iff (by omega), Bool.not_eq_true] at hbit
        rw [hbit, hasBit_and_not_bitUll (hlt m) (hlt m)]
        simp
    · have hne : (s + m) % b ≠ (s + n) % b := fun heq => hmn (eq_of_slot_eq hm (by omega) heq)
      have hstays : hasBit (bits' &&& ~~~bitUll ((s + n) % b)) ((s + m) % b) = hasBit bits' ((s + m) % b) := by
        rw [hasBit_and_not_bitUll (hlt m) (hlt n), decide_eq_true hne, Bool.and_true]
      have hiff : m < n + 1 ↔ m < n := by omega
      simp only [hiff, ← ih]
      split
      · rw [hasBit_or_bitUll (hlt n), hstays, decide_eq_false hne, Bool.or_false]
      · exact hstays

theorem markIndex_eq_slot (hdvd : t.bufSize ∣ SN_MODULO) (ssn i : ℕ) : markIndex t ssn i = t.slot i := by
  have hhead := add_snSub_mod t.headSeqNum ssn
  have hword : t.bufSize ∣ 65536 := hdvd.trans (by decide)
  rw [markIndex, TidAmpduRx.slot, Nat.add_mod, Nat.mod_mod_of_dvd _ hword, ← Nat.add_mod,
    ← add_mod_of_mod hdvd, hhead, add_mod_of_mod hdvd]

/-- **The marks before frames are released** are those of the driver, as far as the ring goes. -/
theorem isFiltered_markFiltered (hsmall : t.bufSize ≤ 64) (hdvd : t.bufSize ∣ SN_MODULO)
    (hdiff : snSub t.headSeqNum ssn < t.bufSize) (hm : m < t.bufSize) :
    (markFiltered t ssn filtered).isFiltered (t.slot m) =
      hasBit filtered (snSub t.headSeqNum ssn + m) := by
  have hlt : t.slot m < 64 := (Nat.mod_lt _ (by omega)).trans_le hsmall
  have hloop := @hasBit_markLoop (filtered >>> UInt64.ofNat (snSub t.headSeqNum ssn)) m t.bufSize hsmall
    ((ssn + snSub t.headSeqNum ssn) % 65536) t.reorderBufFiltered t.bufSize le_rfl hm
  have hindex : ((ssn + snSub t.headSeqNum ssn) % 65536 + m) % t.bufSize = t.slot m :=
    markIndex_eq_slot hdvd ssn m
  rw [if_pos hm, hasBit_shiftRight (by omega), hindex] at hloop
  rw [isFiltered_eq_hasBit hlt, ← hloop]
  rfl

/-! ### The call -/

theorem markRelease_bufSize (t : TidAmpduRx) (ssn received : ℕ) :
    (markRelease t ssn received).1.bufSize = t.bufSize := by
  rw [markRelease]
  split
  · rw [releaseReorderFrames_eq_sweep]
    exact (sweep_fields _ _).1
  · rw [releaseReorderFrames_eq_sweep]
    exact (sweep_fields _ _).1

theorem snSub_markRelease_le (hpos : 0 < t.bufSize) (ssn received : ℕ) :
    snSub (markRelease t ssn received).1.headSeqNum ssn ≤ SN_MODULO / 2 := by
  rw [markRelease]
  split
  · simp only [snSub, SN_MODULO]
    omega
  · have hexit := (@releasedUpTo_releaseReorderFrames t hpos ssn []).exit_of
    rw [Bool.eq_false_iff, Ne, snLess_iff] at hexit
    simp only [snSub, SN_MODULO] at *
    omega

/-- The driver is too far behind, or marks are made and the window is moved. -/
theorem markRxBaFilteredFrames_cases (hpos : 0 < t.bufSize) (hsmall : t.bufSize ≤ 64)
    (hdvd : t.bufSize ∣ SN_MODULO)
    (h : markRxBaFilteredFrames hz jiffies t ssn filtered received = some (t', frames)) :
    (t.bufSize ≤ snSub (markRelease t ssn received).1.headSeqNum ssn ∧
      t' = { (markRelease t ssn received).1 with reorderBufFiltered := 0 }) ∨
    snSub (markRelease t ssn received).1.headSeqNum ssn < t.bufSize ∧
      ∃ k, WindowMoved k (markFiltered (markRelease t ssn received).1 ssn filtered) t' := by
  have hsize := markRelease_bufSize t ssn received
  rw [markRxBaFilteredFrames] at h
  generalize markRelease t ssn received = r at *
  obtain ⟨t₁, frames₁⟩ := r
  dsimp only at hsize h ⊢
  rw [← hsize] at hpos hsmall hdvd ⊢
  split at h
  · rename_i hfar
    cases h
    exact .inl ⟨hfar, rfl⟩
  · rename_i hnear
    have hreleased := (@released_iff hz jiffies (markFiltered t₁ ssn filtered) frames₁ hpos _).mpr h
    obtain ⟨k, hk⟩ := released_moved (t := markFiltered t₁ ssn filtered) hsmall hdvd hreleased
    exact .inr ⟨not_le.mp hnear, k, hk⟩

theorem snSub_add_mod_of_lt {h n : ℕ} (hlt : snSub h ssn + n < SN_MODULO) :
    snSub ((h + n) % SN_MODULO) ssn = snSub h ssn + n := by
  simp only [snSub, SN_MODULO] at *
  omega

/-- The window of a state that has moved, in the numbers of the old one. -/
theorem WindowMoved.windowSn_eq {k : ℕ} {t₁ : TidAmpduRx} (h : WindowMoved k t₁ t') (m : ℕ) :
    t'.windowSn m = (t₁.headSeqNum + (k + m)) % SN_MODULO := by
  have hhead := h.head
  simp only [TidAmpduRx.windowSn, SN_MODULO] at *
  omega

/-- **The marks after the call**: the driver has marked the number, is not too far behind, and it
was in the window when the marks were made. -/
theorem isFiltered_markRxBaFilteredFrames (hpos : 0 < t.bufSize) (hsmall : t.bufSize ≤ 64)
    (hdvd : t.bufSize ∣ SN_MODULO)
    (h : markRxBaFilteredFrames hz jiffies t ssn filtered received = some (t', frames)) (hm : m < t.bufSize) :
    t'.isFiltered (t'.slot m) = true ↔
      Marked ssn filtered (t'.windowSn m) ∧
        snSub (markRelease t ssn received).1.headSeqNum ssn < t.bufSize ∧
        snSub (t'.windowSn m) (markRelease t ssn received).1.headSeqNum < t.bufSize := by
  have hsize := markRelease_bufSize t ssn received
  have hbehind := snSub_markRelease_le hpos ssn received
  rcases markRxBaFilteredFrames_cases hpos hsmall hdvd h with ⟨hfar, rfl⟩ | ⟨hnear, k, hk⟩
  · have hnone : TidAmpduRx.isFiltered { (markRelease t ssn received).1 with reorderBufFiltered := 0 }
        (TidAmpduRx.slot { (markRelease t ssn received).1 with reorderBufFiltered := 0 } m) = false := by
      rw [TidAmpduRx.isFiltered, UInt64.zero_and]
      rfl
    rw [hnone]
    exact iff_of_false Bool.false_ne_true fun h => absurd h.2.1 (by omega)
  · generalize (markRelease t ssn received).1 = t₁ at *
    have hslot : t'.slot m = t₁.slot (k + m) := hk.slot_eq (hsize ▸ hdvd) m
    have hle : k ≤ t₁.bufSize := hk.le
    have hwindow : t'.windowSn m = (t₁.headSeqNum + (k + m)) % SN_MODULO := hk.windowSn_eq m
    rw [marked_iff, hwindow, snSub_add_mod_of_lt (by simp only [SN_MODULO] at *; omega),
      snSub_add_mod (by simp only [SN_MODULO] at *; omega), hslot]
    by_cases hin : k + m < t.bufSize
    · have hahead := hk.ahead (k + m) (by rw [← hsize] at hin; exact hin) (Nat.le_add_right k m)
      rw [← hsize] at hsmall hdvd hnear hin ⊢
      have hmark := @isFiltered_markFiltered filtered t₁ ssn (k + m) hsmall hdvd hnear hin
      change t'.isFiltered (t₁.slot (k + m)) = _ at hahead
      rw [hahead]
      change (markFiltered t₁ ssn filtered).isFiltered (t₁.slot (k + m)) = true ↔ _
      rw [hmark]
      exact ⟨fun hbit => ⟨hbit, hnear, hin⟩, fun hall => hall.1⟩
    · -- the slot has been released, and stands for a number behind the old window
      have hround : t₁.slot (k + m) = t₁.slot (k + m - t.bufSize) := by
        rw [TidAmpduRx.slot, TidAmpduRx.slot, hsize, show k + m = k + m - t.bufSize + t.bufSize by omega,
          ← Nat.add_assoc, Nat.add_mod_right, Nat.add_sub_cancel]
      have hcleared : t'.isFiltered (t₁.slot (k + m - t.bufSize)) = false :=
        isFiltered_of_not_ready (hk.behind (k + m - t.bufSize) (by omega))
      rw [hround, hcleared]
      exact iff_of_false Bool.false_ne_true fun h => hin h.2.2

theorem marksExact_of_bufSize_eq (hsize : t.bufSize = 64)
    (h : markRxBaFilteredFrames hz jiffies t ssn filtered received = some (t', frames)) :
    MarksExact ssn filtered (markRelease t ssn received).1 t' := by
  have hpos : 0 < t.bufSize := by omega
  have hdvd : t.bufSize ∣ SN_MODULO := hsize ▸ by decide
  have hsize₁ := markRelease_bufSize t ssn received
  have hbehind := snSub_markRelease_le hpos ssn received
  have hsize' : t'.bufSize = t.bufSize := by
    rcases markRxBaFilteredFrames_cases hpos hsize.le hdvd h with ⟨-, rfl⟩ | ⟨-, k, hk⟩
    · exact hsize₁
    · exact hk.size.trans hsize₁
  have hslot (m : ℕ) : t'.windowSn m % t'.bufSize = t'.slot m :=
    Nat.mod_mod_of_dvd _ (hsize' ▸ hdvd)
  refine ⟨fun m hm => ?_, fun i _ => ?_, fun m _ => ?_⟩
  · rw [hsize'] at hm
    rw [hslot, isFiltered_markRxBaFilteredFrames hpos hsize.le hdvd h hm, hsize]
    refine and_iff_left_of_imp fun hmarked => ?_
    -- a mark within 64 numbers of the driver's is in the window
    have hlt := hmarked.1
    rcases markRxBaFilteredFrames_cases hpos hsize.le hdvd h with ⟨hfar, rfl⟩ | ⟨hnear, k, hk⟩
    · generalize (markRelease t ssn received).1 = t₁ at *
      change snSub ((t₁.headSeqNum + m) % SN_MODULO) ssn < 64 at hlt
      rw [snSub_add_mod_of_lt (by simp only [SN_MODULO] at *; omega)] at hlt
      omega
    · generalize (markRelease t ssn received).1 = t₁ at *
      have hle : k ≤ t₁.bufSize := hk.le
      have hwindow : t'.windowSn m = (t₁.headSeqNum + (k + m)) % SN_MODULO := hk.windowSn_eq m
      rw [hwindow, snSub_add_mod_of_lt (by simp only [SN_MODULO] at *; omega)] at hlt
      rw [hwindow, snSub_add_mod (by simp only [SN_MODULO] at *; omega)]
      exact ⟨by omega, by omega⟩
  · rw [markIndex_eq_slot (hsize₁ ▸ hdvd), TidAmpduRx.slot, hsize₁, hsize]
    exact Nat.mod_lt _ (by decide)
  · rw [TidAmpduRx.slot, hsize', hsize]
    exact Nat.mod_lt _ (by decide)

end Marks

/-! ### Runs -/

section Runs

variable {hz jiffies : UInt64} {t t' : TidAmpduRx} {frames : List AmpduSkb}

theorem releaseReorderFrames_bufSize (target : ℕ) :
    (releaseReorderFrames t target frames).1.bufSize = t.bufSize := by
  rw [releaseReorderFrames_eq_sweep]
  exact (sweep_fields _ _).1

theorem Rearmed.bufSize (h : Rearmed hz t t') : t'.bufSize = t.bufSize := by
  cases h with
  | armed =>
    obtain ⟨timer, htimer⟩ := setReleaseTimer_eq hz t _
    rw [htimer]
  | off => rfl

theorem Released.bufSize (h : Released hz jiffies t frames r) : r.1.bufSize = t.bufSize := by
  have htimeout {index : ℕ} {s s' : TimeoutState}
      (hloop : Ends (TimeoutExit hz jiffies index) (TimeoutBody hz jiffies index) s s') :
      s'.t.bufSize = s.t.bufSize :=
    hloop.invariant (fun s' => s'.t.bufSize = s.t.bufSize) (fun _ _ hsize hb => hb.bufSize.trans hsize) rfl
  cases h with
  | @waits s _ _ hloop =>
    obtain ⟨timer, htimer⟩ := setReleaseTimer_eq hz s.t s.j
    rw [htimer]
    exact htimeout hloop
  | gaveUp _ _ hloop _ hrearm => exact hrearm.bufSize.trans (htimeout hloop)
  | ready _ _ hloop hrearm =>
    refine hrearm.bufSize.trans (hloop.invariant (fun r => r.1.bufSize = t.bufSize) ?_ rfl)
    rintro r _ hsize ⟨-, -, rfl⟩
    exact hsize

theorem staReorderRelease_bufSize (hpos : 0 < t.bufSize)
    (h : staReorderRelease hz jiffies t frames = some r) : r.1.bufSize = t.bufSize :=
  ((released_iff hpos).mpr h).bufSize

theorem manageStarted_bufSize (hpos : 0 < t.bufSize) {skb : AmpduSkb} {r : TidAmpduRx × List AmpduSkb × Fate}
    (h : manageStarted hz jiffies t skb = some r) : r.1.bufSize = t.bufSize := by
  have hroom : (makeRoom t skb.sn).1.bufSize = t.bufSize := by
    rw [makeRoom]
    split
    · exact releaseReorderFrames_bufSize _
    · rfl
  rw [manageStarted] at h
  split at h
  · cases h
    rfl
  · generalize makeRoom t skb.sn = r₁ at h hroom
    obtain ⟨t₁, frames₁⟩ := r₁
    dsimp only at h hroom
    split at h
    · cases h
      exact hroom
    · split at h
      · cases h
        dsimp only
        split
        · exact hroom
        · exact hroom
      · have hstore : (store jiffies t₁ skb).bufSize = t.bufSize := (store_fields jiffies t₁ skb).1.trans hroom
        split at h
        · cases h
          exact hstore
        · obtain ⟨r', hr', rfl⟩ := Option.map_eq_some_iff.mp h
          exact (staReorderRelease_bufSize (hstore ▸ hpos) hr').trans hstore

theorem pickSeq_bufSize (sn : ℕ) : (pickSeq t sn).bufSize = t.bufSize := by
  rw [pickSeq]
  split <;> rfl

theorem reorderStep_bufSize (hpos : 0 < t.bufSize) {op : ReorderOp} {outs : List ReorderOut}
    (h : reorderStep hz t op = some (t', outs)) : t'.bufSize = t.bufSize := by
  cases op with
  | frame jiffies skb =>
    obtain ⟨r, hr, heq⟩ := Option.map_eq_some_iff.mp h
    cases heq
    have hpick := @pickSeq_bufSize t skb.sn
    rw [manageReorderBuf] at hr
    split at hr
    · cases hr
      exact hpick
    · exact (manageStarted_bufSize (hpick ▸ hpos) hr).trans hpick
  | bar seqCtrl =>
    cases h
    exact releaseReorderFrames_bufSize _
  | timeout jiffies =>
    obtain ⟨r, hr, heq⟩ := Option.map_eq_some_iff.mp h
    cases heq
    exact staReorderRelease_bufSize hpos hr
  | mark jiffies ssn filtered received =>
    obtain ⟨r, hr, heq⟩ := Option.map_eq_some_iff.mp h
    cases heq
    have hsize := markRelease_bufSize t ssn.toNat received.toNat
    rw [markRxBaFilteredFrames] at hr
    generalize markRelease t ssn.toNat received.toNat = r₁ at hr hsize
    obtain ⟨t₁, frames₁⟩ := r₁
    dsimp only at hr hsize
    split at hr
    · cases hr
      exact hsize
    · exact (staReorderRelease_bufSize (t := markFiltered t₁ ssn.toNat filtered)
        (show 0 < t₁.bufSize from hsize ▸ hpos) hr).trans hsize

/-- The marks are exact after every call, in every state of every run with a ring of this size. -/
def AlwaysExact (bufSize : ℕ) : Prop :=
  ∀ hz ssn₀ autoSeq t outs, Reach (reorderStep hz) (fun _ _ _ => True) (newTidAmpduRx bufSize ssn₀ autoSeq) t outs →
    ∀ (jiffies : UInt64) (ssn : UInt16) (filtered : UInt64) (received : UInt16) t' frames,
      markRxBaFilteredFrames hz jiffies t ssn.toNat filtered received.toNat = some (t', frames) →
        MarksExact ssn.toNat filtered (markRelease t ssn.toNat received.toNat).1 t'

theorem markRelease_newTidAmpduRx {bufSize ssn : ℕ} (h : snLess 0 ssn = false) :
    markRelease (newTidAmpduRx bufSize 0 false) ssn 0 = (newTidAmpduRx bufSize 0 false, []) := by
  have hless : ¬snLess (newTidAmpduRx bufSize 0 false).headSeqNum ssn = true := Bool.eq_false_iff.mp h
  have hloop : releaseLoop ssn (4095 + 1) (newTidAmpduRx bufSize 0 false) [] =
      (newTidAmpduRx bufSize 0 false, []) := by
    rw [releaseLoop, if_neg hless]
  exact hloop

/-- **The marks are exact for a ring of 64 slots, and for no other.** -/
theorem marks_exact_iff {bufSize : ℕ} (hpos : 0 < bufSize) (hle : bufSize ≤ 256) :
    AlwaysExact bufSize ↔ bufSize = 64 := by
  constructor
  · intro h
    rcases Nat.lt_trichotomy bufSize 64 with hlt | heq | hgt
    · -- the driver is as far behind as the ring is long, and marks the first number of the window
      exfalso
      have hssn : (UInt16.ofNat (SN_MODULO - bufSize)).toNat = 4096 - bufSize := by
        rw [UInt16.toNat_ofNat', SN_MODULO, Nat.mod_eq_of_lt (by omega)]
      have hdiff : snSub 0 (4096 - bufSize) = bufSize := by
        simp only [snSub, SN_MODULO]
        omega
      have hbehind : snLess 0 (4096 - bufSize) = false := by
        rw [Bool.eq_false_iff, Ne, snLess_iff]
        simp only [snSub, SN_MODULO]
        omega
      have hrelease := @markRelease_newTidAmpduRx bufSize _ hbehind
      have hcall : markRxBaFilteredFrames 250 0 (newTidAmpduRx bufSize 0 false)
          (UInt16.ofNat (SN_MODULO - bufSize)).toNat (bitUll bufSize) (0 : UInt16).toNat =
          some ({ newTidAmpduRx bufSize 0 false with reorderBufFiltered := 0 }, []) := by
        rw [hssn, markRxBaFilteredFrames, show (0 : UInt16).toNat = 0 from rfl, hrelease]
        exact if_pos hdiff.ge
      have hexact := (h 250 0 false _ _ .init 0 _ _ _ _ _ hcall).exact 0 hpos
      rw [hssn] at hexact
      have hmarked : Marked (4096 - bufSize) (bitUll bufSize) 0 := by
        have hbit : hasBit (bitUll bufSize) bufSize = true := by
          rw [hasBit, toBitVec_bitUll hlt, BitVec.getLsbD_twoPow]
          simp [hlt]
        rw [marked_iff, hdiff]
        exact hbit
      have hfiltered := hexact.mpr hmarked
      rw [TidAmpduRx.isFiltered, UInt64.zero_and] at hfiltered
      cases hfiltered
    · exact heq
    · exfalso
      have hrelease := @markRelease_newTidAmpduRx bufSize 0 rfl
      have hinv : CountInv (markFiltered (newTidAmpduRx bufSize 0 false) 0 0) := by
        have hnew := countInv_newTidAmpduRx hpos hle 0 false
        exact ⟨hnew.pos, hnew.le, hnew.count, fun i hi hne => absurd rfl hne⟩
      obtain ⟨⟨t', frames⟩, hr, -⟩ := hinv.staReorderRelease 250 0 []
      have hzero : snSub 0 0 = 0 := by decide
      have hnear : ¬bufSize ≤ snSub 0 0 := by omega
      have hcall : markRxBaFilteredFrames 250 0 (newTidAmpduRx bufSize 0 false) (0 : UInt16).toNat 0
          (0 : UInt16).toNat = some (t', frames) := by
        rw [markRxBaFilteredFrames, show (0 : UInt16).toNat = 0 from rfl, hrelease]
        exact (if_neg hnear).trans hr
      have hshift := (h 250 0 false _ _ .init 0 0 0 0 _ _ hcall).markShifts 64
      rw [show (0 : UInt16).toNat = 0 from rfl, hrelease] at hshift
      have hslot : ((0 + snSub 0 0) % 65536 + 64) % bufSize < 64 := hshift hgt
      rw [hzero, Nat.mod_eq_of_lt hgt] at hslot
      exact lt_irrefl 64 hslot
  · rintro rfl hz ssn₀ autoSeq t outs hreach jiffies ssn filtered received t' frames hcall
    have hsize : t.bufSize = 64 := by
      refine hreach.invariant (fun t _ => t.bufSize = 64) rfl ?_
      intro t _ op t' o hsize _ hstep
      exact (reorderStep_bufSize (hsize ▸ hpos) hstep).trans hsize
    exact marksExact_of_bufSize_eq hsize hcall

/-- The general theorem on a call that marks frame 2. -/
theorem marks_exact_sixty_four : ∃ t' frames,
    markRxBaFilteredFrames 250 0 (newTidAmpduRx 64 0 false) 0 4 0 = some (t', frames) ∧
      t'.isFiltered 2 = true ∧ MarksExact 0 4 (newTidAmpduRx 64 0 false) t' := by
  have hcall : (markRxBaFilteredFrames 250 0 (newTidAmpduRx 64 0 false) 0 4 0).map
      (fun r => r.1.isFiltered 2) = some true := by
    decide +kernel
  obtain ⟨⟨t', frames⟩, hr, hbit⟩ := Option.map_eq_some_iff.mp hcall
  have hexact := (marks_exact_iff (by decide) (by decide)).mpr rfl 250 0 false _ _ .init 0 0 4 0 t' frames hr
  rw [show (0 : UInt16).toNat = 0 from rfl, markRelease_newTidAmpduRx rfl] at hexact
  exact ⟨t', frames, hr, hbit, hexact⟩

/-- **Slots share a mark.** In a ring of 128 slots, frame 1 is marked, and frame 65 is taken for filtered. -/
theorem slots_share_a_mark : ¬AlwaysExact 128 ∧ ∃ t' frames,
    markRxBaFilteredFrames 250 0 (newTidAmpduRx 128 0 false) 0 2 0 = some (t', frames) ∧
      t'.windowSn 65 = 65 ∧ t'.isFiltered (65 % t'.bufSize) = true ∧ ¬Marked 0 2 65 := by
  have hcall : (markRxBaFilteredFrames 250 0 (newTidAmpduRx 128 0 false) 0 2 0).map
      (fun r => (r.1.windowSn 65, r.1.isFiltered (65 % r.1.bufSize))) = some (65, true) := by
    decide +kernel
  obtain ⟨⟨t', frames⟩, hr, hs⟩ := Option.map_eq_some_iff.mp hcall
  obtain ⟨hsn, hbit⟩ := Prod.mk.inj hs
  exact ⟨fun h => absurd ((marks_exact_iff (by decide) (by decide)).mp h) (by decide), t', frames, hr, hsn,
    hbit, by decide⟩

end Runs

end Mac80211
