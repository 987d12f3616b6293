import Mac80211.Rx.Reorder
import Mathlib.Tactic.Ring

/-!
# What the reorder buffer holds

Whatever moves the window, slots are given up one at a time from its beginning, so the invariant is
shown for one slot. The code does not ensure that the size of the ring divides 4096, that an
incomplete A-MSDU in the first slot is not overtaken, and that its slot is not marked.

## Main definitions

* `ReorderInv`, `SlotInv`, `ReorderCond`

## Main results

* `reorderInv_of_reach`
-/

namespace Mac80211

open Machine Option Function Finset

/-! ### Sequence numbers and slots -/

theorem AmpduSkb.sn_lt (skb : AmpduSkb) : skb.sn < SN_MODULO := by
  have hlt : (skb.seqCtrl &&& SCTL_SEQ).toNat < 65536 := UInt16.toNat_lt _
  simp only [AmpduSkb.sn, SN_MODULO]
  omega

theorem snSub_lt (a b : ℕ) : snSub a b < SN_MODULO := Nat.mod_lt _ (by decide)

theorem add_snSub_mod (a b : ℕ) : (b + snSub a b) % SN_MODULO = a % SN_MODULO := by
  simp only [snSub, SN_MODULO]
  omega

/-- `a` is before `b` if it takes fewer than 2048 steps, and at least one, to get from `a` to `b`. -/
theorem snLess_iff {a b : ℕ} : snLess a b = true ↔ 0 < snSub b a ∧ snSub b a < SN_MODULO / 2 := by
  rw [snLess, decide_eq_true_eq]
  simp only [snSub, SN_MODULO]
  omega

variable {i : ℕ}

section Slots

variable {b h m n : ℕ}

theorem add_mod_of_mod (hb : b ∣ SN_MODULO) (x y : ℕ) : (x % SN_MODULO + y) % b = (x + y) % b := by
  rw [Nat.add_mod, Nat.mod_mod_of_dvd _ hb, ← Nat.add_mod]

theorem eq_of_slot_eq (hm : m < b) (hn : n < b) (heq : (h + m) % b = (h + n) % b) : m = n := by
  have hmod : m ≡ n [MOD b] := Nat.ModEq.add_left_cancel' h heq
  rw [Nat.ModEq, Nat.mod_eq_of_lt hm, Nat.mod_eq_of_lt hn] at hmod
  exact hmod

theorem exists_slot (h : ℕ) (hi : i < b) : ∃ m < b, (h + m) % b = i := by
  have hb : 0 < b := by omega
  refine ⟨(i + (b - h % b)) % b, Nat.mod_lt _ hb, ?_⟩
  have hh : h % b < b := Nat.mod_lt _ hb
  rw [Nat.add_mod_mod, ← Nat.mod_add_mod, show h % b + (i + (b - h % b)) = i + b by omega,
    Nat.add_mod_right, Nat.mod_eq_of_lt hi]

end Slots

/-! ### The invariant -/

namespace TidAmpduRx

variable (t : TidAmpduRx)

/-- The slot at a place in the window. -/
def slot (m : ℕ) : ℕ := (t.headSeqNum + m) % t.bufSize

/-- The slots that hold a complete MPDU. -/
def completeSlots : Finset ℕ := (Finset.range t.bufSize).filter fun i => t.complete i

theorem mem_completeSlots : i ∈ t.completeSlots ↔ i < t.bufSize ∧ t.complete i = true := by
  rw [completeSlots, mem_filter, mem_range]

theorem card_completeSlots_le : t.completeSlots.card ≤ t.bufSize := by
  have hle := card_filter_le (Finset.range t.bufSize) fun i => t.complete i = true
  rwa [card_range] at hle

end TidAmpduRx

/-- **The representation invariant.** -/
structure ReorderInv (t : TidAmpduRx) : Prop where
  count : t.storedMpduNum = t.completeSlots.card
  /-- The frames of a slot have one sequence number, -/
  common : ∀ i < t.bufSize, ∀ skb ∈ t.reorderBuf i, ∀ skb' ∈ t.reorderBuf i, skb'.sn = skb.sn
  /-- which belongs to this slot, -/
  index : ∀ i < t.bufSize, ∀ skb ∈ t.reorderBuf i, skb.sn % t.bufSize = i
  /-- and to the window. -/
  window : ∀ i < t.bufSize, ∀ skb ∈ t.reorderBuf i, snSub skb.sn t.headSeqNum < t.bufSize

/-- The part of it that is about the counter, and holds in a ring of any size. -/
structure CountInv (t : TidAmpduRx) : Prop where
  pos : 0 < t.bufSize
  le : t.bufSize ≤ 256
  count : t.storedMpduNum = t.completeSlots.card
  unmarked : ∀ i < t.bufSize, t.reorderBuf i ≠ [] → t.complete i = false →
    t.reorderBufFiltered &&& bitUll i = 0

/-- The invariant of a run: the ring goes round with the sequence numbers, every frame is in its
place, no incomplete A-MSDU is marked. A session waiting for its first frame has none. -/
structure SlotInv (t : TidAmpduRx) : Prop where
  pos : 0 < t.bufSize
  dvd : t.bufSize ∣ SN_MODULO
  le : t.bufSize ≤ 256
  count : t.storedMpduNum = t.completeSlots.card
  placed : ∀ m < t.bufSize, ∀ skb ∈ t.reorderBuf (t.slot m),
    skb.sn = (t.headSeqNum + m) % SN_MODULO
  unmarked : ∀ i < t.bufSize, t.reorderBuf i ≠ [] → t.complete i = false →
    t.reorderBufFiltered &&& bitUll i = 0
  fresh : t.autoSeq = true → ∀ i, t.reorderBuf i = []

section Inv

variable {t : TidAmpduRx}

theorem SlotInv.countInv (h : SlotInv t) : CountInv t := ⟨h.pos, h.le, h.count, h.unmarked⟩

theorem snSub_add_mod {h m : ℕ} (hm : m < SN_MODULO) : snSub ((h + m) % SN_MODULO) h = m := by
  simp only [snSub, SN_MODULO] at *
  omega

theorem SlotInv.reorderInv (h : SlotInv t) : ReorderInv t := by
  have hsn : ∀ i < t.bufSize, ∀ skb ∈ t.reorderBuf i, ∃ m < t.bufSize, t.slot m = i ∧
      skb.sn = (t.headSeqNum + m) % SN_MODULO := by
    intro i hi skb hskb
    obtain ⟨m, hm, rfl⟩ := exists_slot t.headSeqNum hi
    exact ⟨m, hm, rfl, h.placed m hm skb hskb⟩
  have hle : ∀ {m}, m < t.bufSize → m < SN_MODULO := fun hm =>
    lt_of_lt_of_le hm (h.le.trans (by decide))
  constructor
  · exact h.count
  · intro i hi skb hskb skb' hskb'
    obtain ⟨m, hm, hslot, hsn₁⟩ := hsn i hi skb hskb
    obtain ⟨m', hm', hslot', hsn₂⟩ := hsn i hi skb' hskb'
    rw [hsn₁, hsn₂, eq_of_slot_eq hm hm' (hslot.trans hslot'.symm)]
  · intro i hi skb hskb
    obtain ⟨m, hm, hslot, hsn₁⟩ := hsn i hi skb hskb
    rw [hsn₁, Nat.mod_mod_of_dvd _ h.dvd]
    exact hslot
  · intro i hi skb hskb
    obtain ⟨m, hm, -, hsn₁⟩ := hsn i hi skb hskb
    rw [hsn₁, snSub_add_mod (hle hm)]
    exact hm

end Inv

/-! ### One slot -/

theorem and_not_and_self (x b : UInt64) : x &&& ~~~b &&& b = 0 := by
  rw [UInt64.and_assoc, UInt64.and_comm (~~~b) b, UInt64.and_not_self, UInt64.and_zero]

theorem and_not_and_of_eq_zero {x b c : UInt64} (h : x &&& c = 0) : x &&& ~~~b &&& c = 0 := by
  rw [UInt64.and_assoc, UInt64.and_comm (~~~b) c, ← UInt64.and_assoc, h, UInt64.zero_and]

theorem and_not_of_and_eq_zero {x b : UInt64} (h : x &&& b = 0) : x &&& ~~~b = x := by
  rw [← UInt64.toBitVec_inj] at h ⊢
  ext i hi
  have hbit := congrArg (fun v : BitVec 64 => v[i]) h
  simp only [UInt64.toBitVec_and, UInt64.toBitVec_not, UInt64.toBitVec_zero, BitVec.getElem_and,
    BitVec.getElem_not, BitVec.getElem_zero] at hbit ⊢
  revert hbit
  cases x.toBitVec[i] <;> cases b.toBitVec[i] <;> decide

/-- Release the slot the window begins with. -/
def releaseHead (r : TidAmpduRx × List AmpduSkb) : TidAmpduRx × List AmpduSkb :=
  releaseReorderFrame r.1 r.1.headIndex r.2

/-- Release the first `n` slots, one after the other. -/
def sweep (n : ℕ) (r : TidAmpduRx × List AmpduSkb) : TidAmpduRx × List AmpduSkb := releaseHead^[n] r

section Release

variable {t : TidAmpduRx} {frames : List AmpduSkb}

@[simp] theorem releaseReorderFrame_bufSize (i : ℕ) :
    (releaseReorderFrame t i frames).1.bufSize = t.bufSize := rfl

@[simp] theorem releaseReorderFrame_headSeqNum (i : ℕ) :
    (releaseReorderFrame t i frames).1.headSeqNum = snInc t.headSeqNum := rfl

theorem releaseReorderFrame_reorderBuf_self (i : ℕ) :
    (releaseReorderFrame t i frames).1.reorderBuf i = [] := update_self ..

theorem releaseReorderFrame_reorderBuf_of_ne {i j : ℕ} (h : j ≠ i) :
    (releaseReorderFrame t i frames).1.reorderBuf j = t.reorderBuf j := update_of_ne h ..

theorem complete_of_eq {t t' : TidAmpduRx} (h : t'.reorderBuf i = t.reorderBuf i) :
    t'.complete i = t.complete i := by
  rw [TidAmpduRx.complete, TidAmpduRx.complete, h]

theorem complete_of_nil (h : t.reorderBuf i = []) : t.complete i = false := by
  rw [TidAmpduRx.complete, h]
  rfl

theorem rxReorderReady_of_eq {t t' : TidAmpduRx}
    (hf : t'.reorderBufFiltered = t.reorderBufFiltered) (hb : t'.reorderBuf i = t.reorderBuf i) :
    t'.rxReorderReady i = t.rxReorderReady i := by
  rw [TidAmpduRx.rxReorderReady, TidAmpduRx.rxReorderReady, hf, complete_of_eq hb]

theorem filtered_of_not_ready (h : t.rxReorderReady i = false) :
    t.reorderBufFiltered &&& bitUll i = 0 := by
  rw [TidAmpduRx.rxReorderReady, Bool.or_eq_false_iff, decide_eq_false_iff_not, not_not] at h
  exact h.1

theorem releaseReorderFrame_of_not_ready (h : t.rxReorderReady i = false) :
    releaseReorderFrame t i frames =
      ({ t.purge i with headSeqNum := snInc t.headSeqNum }, frames) := by
  rw [releaseReorderFrame]
  simp only [h, Bool.and_false, Bool.false_eq_true, if_false,
    and_not_of_and_eq_zero (filtered_of_not_ready h)]
  rfl

theorem completeSlots_releaseReorderFrame (i : ℕ) :
    (releaseReorderFrame t i frames).1.completeSlots = t.completeSlots.erase i := by
  ext j
  rw [mem_erase, TidAmpduRx.mem_completeSlots, TidAmpduRx.mem_completeSlots]
  by_cases hj : j = i
  · rw [hj, complete_of_nil (releaseReorderFrame_reorderBuf_self i)]
    simp
  · rw [complete_of_eq (releaseReorderFrame_reorderBuf_of_ne hj)]
    simp [hj]

/-- Where no incomplete A-MSDU is marked, what is ready and not empty is complete. -/
theorem CountInv.complete_of_ready (h : CountInv t) (hi : i < t.bufSize)
    (hne : t.reorderBuf i ≠ []) (hready : t.rxReorderReady i = true) : t.complete i = true := by
  by_contra hc
  have hzero := h.unmarked i hi hne (Bool.eq_false_iff.mpr hc)
  rw [TidAmpduRx.rxReorderReady, hzero] at hready
  exact hc (by simpa using hready)

theorem CountInv.count_releaseReorderFrame (h : CountInv t) (hi : i < t.bufSize) :
    (releaseReorderFrame t i frames).1.storedMpduNum =
      (releaseReorderFrame t i frames).1.completeSlots.card := by
  rw [completeSlots_releaseReorderFrame]
  have hle : t.completeSlots.card ≤ 256 := t.card_completeSlots_le.trans h.le
  by_cases hready : (!(t.reorderBuf i).isEmpty && t.rxReorderReady i) = true
  · have hc : t.complete i = true := by
      rw [Bool.and_eq_true, Bool.not_eq_true', List.isEmpty_eq_false_iff] at hready
      exact h.complete_of_ready hi hready.1 hready.2
    have hmem : i ∈ t.completeSlots := t.mem_completeSlots.mpr ⟨hi, hc⟩
    have hpos : 0 < t.completeSlots.card := card_pos.mpr ⟨i, hmem⟩
    rw [card_erase_of_mem hmem]
    simp only [releaseReorderFrame, if_pos hready, h.count]
    omega
  · have hc : i ∉ t.completeSlots := by
      intro hmem
      have hcomplete := (t.mem_completeSlots.mp hmem).2
      refine hready ?_
      rw [Bool.and_eq_true, TidAmpduRx.rxReorderReady, hcomplete, Bool.or_true]
      refine ⟨?_, rfl⟩
      rw [Bool.not_eq_true', List.isEmpty_eq_false_iff]
      intro hnil
      rw [complete_of_nil hnil] at hcomplete
      cases hcomplete
    rw [erase_eq_of_notMem hc]
    simp only [releaseReorderFrame, if_neg hready, h.count]

theorem CountInv.unmarked_releaseReorderFrame (h : CountInv t) (i : ℕ) :
    ∀ j < t.bufSize, (releaseReorderFrame t i frames).1.reorderBuf j ≠ [] →
      (releaseReorderFrame t i frames).1.complete j = false →
      (releaseReorderFrame t i frames).1.reorderBufFiltered &&& bitUll j = 0 := by
  intro j hj hne hc
  by_cases hji : j = i
  · rw [hji, releaseReorderFrame_reorderBuf_self] at hne
    exact absurd rfl hne
  · rw [releaseReorderFrame_reorderBuf_of_ne hji] at hne
    rw [complete_of_eq (releaseReorderFrame_reorderBuf_of_ne hji)] at hc
    exact and_not_and_of_eq_zero (h.unmarked j hj hne hc)

theorem TidAmpduRx.headIndex_eq (t : TidAmpduRx) : t.headIndex = t.slot 0 := rfl

theorem slot_releaseReorderFrame (h : SlotInv t) (i m : ℕ) :
    (releaseReorderFrame t i frames).1.slot m = t.slot (m + 1) := by
  rw [TidAmpduRx.slot, TidAmpduRx.slot, releaseReorderFrame_headSeqNum, releaseReorderFrame_bufSize,
    snInc, snAdd, add_mod_of_mod h.dvd]
  congr 1
  omega

/-- **The invariant is kept when the first slot is released.** -/
theorem SlotInv.releaseHead (h : SlotInv t) : SlotInv (releaseHead (t, frames)).1 where
  pos := h.pos
  dvd := h.dvd
  le := h.le
  count := h.countInv.count_releaseReorderFrame (Nat.mod_lt _ h.pos)
  unmarked := h.countInv.unmarked_releaseReorderFrame _
  fresh := by
    intro hauto i
    by_cases hi : i = t.headIndex
    · rw [hi]
      exact releaseReorderFrame_reorderBuf_self _
    · exact (releaseReorderFrame_reorderBuf_of_ne hi).trans (h.fresh hauto i)
  placed := by
    intro m hm skb hskb
    have hm' : m < t.bufSize := hm
    simp only [Mac80211.releaseHead] at hskb ⊢
    rw [slot_releaseReorderFrame h] at hskb
    rw [releaseReorderFrame_headSeqNum, snInc, snAdd, add_mod_of_mod dvd_rfl,
      show t.headSeqNum + 1 + m = t.headSeqNum + (m + 1) by omega]
    by_cases hlast : m + 1 = t.bufSize
    · -- the slot behind the window is the one that was released
      have hslot : t.slot (m + 1) = t.headIndex := by
        rw [TidAmpduRx.slot, hlast, Nat.add_mod_right]
        rfl
      rw [hslot, releaseReorderFrame_reorderBuf_self] at hskb
      cases hskb
    · have hne : t.slot (m + 1) ≠ t.headIndex := by
        intro heq
        have := eq_of_slot_eq (show m + 1 < t.bufSize by omega) h.pos heq
        omega
      rw [releaseReorderFrame_reorderBuf_of_ne hne] at hskb
      exact h.placed (m + 1) (by omega) skb hskb

theorem sweep_succ (n : ℕ) (r : TidAmpduRx × List AmpduSkb) :
    sweep (n + 1) r = sweep n (releaseHead r) := rfl

theorem SlotInv.sweep (n : ℕ) : ∀ {t : TidAmpduRx} {frames : List AmpduSkb}, SlotInv t →
    SlotInv (sweep n (t, frames)).1 := by
  induction n with
  | zero => exact fun h => h
  | succ n ih =>
    intro t frames h
    rw [sweep_succ]
    exact ih h.releaseHead

end Release

/-! ### Loops are sweeps -/

section Loops

variable {t : TidAmpduRx} {frames : List AmpduSkb}

theorem releaseLoop_eq_sweep {target : ℕ} : ∀ (fuel : ℕ) {n : ℕ} {t : TidAmpduRx}
    {frames : List AmpduSkb}, snSub target t.headSeqNum = n → n < SN_MODULO / 2 → n ≤ fuel →
      releaseLoop target fuel t frames = sweep n (t, frames) := by
  intro fuel
  induction fuel with
  | zero =>
    intro n t frames _ _ hfuel
    obtain rfl : n = 0 := by omega
    rfl
  | succ fuel ih =>
    intro n t frames hn hlt hfuel
    rw [releaseLoop]
    rcases n with _ | n
    · have hless : ¬ snLess t.headSeqNum target = true := by
        rw [snLess_iff]
        omega
      rw [if_neg hless]
      rfl
    · have hless : snLess t.headSeqNum target = true := snLess_iff.mpr (by omega)
      have hnext : snSub target (snInc t.headSeqNum) = n := by
        simp only [snInc, snAdd, snSub, SN_MODULO] at *
        omega
      rw [if_pos hless, sweep_succ]
      exact ih hnext (by omega) (by omega)

/-- How far `ieee80211_release_reorder_frames` goes. -/
def releaseDist (t : TidAmpduRx) (target : ℕ) : ℕ :=
  if snSub target t.headSeqNum < SN_MODULO / 2 then snSub target t.headSeqNum else 0

theorem releaseReorderFrames_eq_sweep (t : TidAmpduRx) (target : ℕ) (frames : List AmpduSkb) :
    releaseReorderFrames t target frames = sweep (releaseDist t target) (t, frames) := by
  rw [releaseReorderFrames, releaseDist]
  split
  · rename_i hlt
    exact releaseLoop_eq_sweep SN_MODULO rfl hlt (snSub_lt _ _).le
  · rename_i hge
    have hless : ¬ snLess t.headSeqNum target = true := by
      rw [snLess_iff]
      omega
    have hloop : releaseLoop target (4095 + 1) t frames = (t, frames) := by
      rw [releaseLoop, if_neg hless]
    exact hloop

theorem sweep_fields (n : ℕ) (r : TidAmpduRx × List AmpduSkb) :
    (sweep n r).1.bufSize = r.1.bufSize ∧
      (sweep n r).1.headSeqNum % SN_MODULO = (r.1.headSeqNum + n) % SN_MODULO := by
  induction n generalizing r with
  | zero => exact ⟨rfl, rfl⟩
  | succ n ih =>
    rw [sweep_succ]
    obtain ⟨hsize, hhead⟩ := ih (releaseHead r)
    refine ⟨hsize, hhead.trans ?_⟩
    have hone : (releaseHead r).1.headSeqNum = snInc r.1.headSeqNum := rfl
    simp only [hone, snInc, snAdd, SN_MODULO]
    omega

theorem sweep_add (k n : ℕ) (r : TidAmpduRx × List AmpduSkb) :
    sweep (k + n) r = sweep n (sweep k r) := by
  rw [sweep, Nat.add_comm, iterate_add_apply]
  rfl

theorem slot_sweep (h : SlotInv t) (k m : ℕ) : (sweep k (t, frames)).1.slot m = t.slot (k + m) := by
  induction k generalizing m with
  | zero => rw [Nat.zero_add]; rfl
  | succ k ih =>
    rw [sweep_add]
    refine (slot_releaseReorderFrame (h.sweep k) _ m).trans ?_
    rw [ih]
    congr 1
    omega

/-- The slots that have been swept are empty, and the others are as before. -/
theorem reorderBuf_sweep (h : SlotInv t) {k m : ℕ} (hk : k ≤ t.bufSize) (hm : m < t.bufSize) :
    (sweep k (t, frames)).1.reorderBuf (t.slot m) =
      if m < k then [] else t.reorderBuf (t.slot m) := by
  induction k with
  | zero => rfl
  | succ k ih =>
    have ih := ih (by omega)
    have hhead : (sweep k (t, frames)).1.headIndex = t.slot k := slot_sweep h k 0
    rw [sweep_add]
    show (releaseReorderFrame _ _ _).1.reorderBuf _ = _
    rw [hhead]
    by_cases hmk : m = k
    · rw [hmk, releaseReorderFrame_reorderBuf_self, if_pos (Nat.lt_succ_self k)]
    · have hne : t.slot m ≠ t.slot k := fun heq => hmk (eq_of_slot_eq hm (by omega) heq)
      rw [releaseReorderFrame_reorderBuf_of_ne hne, ih]
      exact if_congr (by omega) rfl rfl

theorem sweep_gap (h : SlotInv t) : ∀ k : ℕ, k ≤ t.bufSize →
    (∀ m < k, t.rxReorderReady (t.slot m) = false) → sweep k (t, frames) = ({ t with
      reorderBuf := fun y => if ∃ m < k, t.slot m = y then [] else t.reorderBuf y
      headSeqNum := if k = 0 then t.headSeqNum else snAdd t.headSeqNum k }, frames) := by
  intro k
  induction k with
  | zero =>
    intro _ _
    simp [sweep]
  | succ k ih =>
    intro hk hgap
    have ih := ih (by omega) fun m hm => hgap m (by omega)
    rw [sweep, iterate_succ_apply', ← sweep, ih, releaseHead]
    have hindex : (if k = 0 then t.headSeqNum else snAdd t.headSeqNum k) % t.bufSize = t.slot k := by
      split
      · rename_i hzero
        rw [hzero]
        rfl
      · have := add_mod_of_mod h.dvd (t.headSeqNum + k) 0
        rw [Nat.add_zero, Nat.add_zero] at this
        exact this
    have hfresh : ¬ ∃ m < k, t.slot m = t.slot k := by
      rintro ⟨m, hm, heq⟩
      have := eq_of_slot_eq (show m < t.bufSize by omega) (show k < t.bufSize by omega) heq
      omega
    have hnot : TidAmpduRx.rxReorderReady { t with
        reorderBuf := fun y => if ∃ m < k, t.slot m = y then [] else t.reorderBuf y
        headSeqNum := if k = 0 then t.headSeqNum else snAdd t.headSeqNum k } (t.slot k) = false := by
      rw [← hgap k (by omega)]
      exact rxReorderReady_of_eq rfl (if_neg hfresh)
    rw [TidAmpduRx.headIndex]
    simp only [hindex]
    rw [releaseReorderFrame_of_not_ready hnot]
    refine Prod.ext ?_ rfl
    simp only [TidAmpduRx.purge]
    congr 1
    · funext y
      by_cases hy : y = t.slot k
      · rw [hy, update_self, if_pos ⟨k, by omega, rfl⟩]
      · have hiff : (∃ m < k + 1, t.slot m = y) ↔ ∃ m < k, t.slot m = y := by
          constructor
          · rintro ⟨m, hm, rfl⟩
            have hmk : m ≠ k := fun hc => hy (by rw [hc])
            exact ⟨m, by omega, rfl⟩
          · rintro ⟨m, hm, hmy⟩
            exact ⟨m, by omega, hmy⟩
        rw [update_of_ne hy]
        simp only [hiff]
    · rw [if_neg (Nat.succ_ne_zero k)]
      simp only [snInc, snAdd, SN_MODULO]
      split <;> omega

theorem purgeLoop_eq (x : ℕ) : ∀ (d n : ℕ) {t : TidAmpduRx}, d < t.bufSize → d ≤ n →
    purgeLoop ((x + d) % t.bufSize) n (x % t.bufSize) t = { t with
      reorderBuf := fun y => if ∃ m < d, (x + m) % t.bufSize = y then [] else t.reorderBuf y } := by
  intro d
  induction d generalizing x with
  | zero =>
    intro n t hd hn
    cases n with
    | zero => simp [purgeLoop]
    | succ n => simp [purgeLoop]
  | succ d ih =>
    intro n t hd hn
    obtain ⟨n, rfl⟩ : ∃ n', n = n' + 1 := ⟨n - 1, by omega⟩
    have hne : x % t.bufSize ≠ (x + (d + 1)) % t.bufSize := by
      intro heq
      have := eq_of_slot_eq (h := x) (show 0 < t.bufSize by omega) hd heq
      omega
    rw [purgeLoop, if_neg hne, Nat.mod_add_mod]
    have ih := @ih (x + 1) n (t.purge (x % t.bufSize)) (Nat.lt_of_succ_lt hd) (by omega)
    rw [show x + 1 + d = x + (d + 1) by omega] at ih
    refine ih.trans ?_
    simp only [TidAmpduRx.purge]
    congr 1
    funext y
    by_cases hy : x % t.bufSize = y
    · have hz : ∃ m < d + 1, (x + m) % t.bufSize = y := ⟨0, by omega, hy⟩
      rw [if_pos hz]
      by_cases hex : ∃ m < d, (x + 1 + m) % t.bufSize = y
      · exact if_pos hex
      · refine (if_neg hex).trans ?_
        rw [← hy, update_self]
    · have hiff : (∃ m < d + 1, (x + m) % t.bufSize = y) ↔ ∃ m < d, (x + 1 + m) % t.bufSize = y := by
        constructor
        · rintro ⟨m, hm, hmy⟩
          obtain ⟨m, rfl⟩ : ∃ m', m = m' + 1 := by
            refine ⟨m - 1, ?_⟩
            have : m ≠ 0 := fun hc => hy (by rw [← hmy, hc, Nat.add_zero])
            omega
          exact ⟨m, by omega, by rw [← hmy]; congr 1; omega⟩
        · rintro ⟨m, hm, hmy⟩
          exact ⟨m + 1, by omega, by rw [← hmy]; congr 1; omega⟩
      simp only [hiff, update_of_ne (Ne.symm hy)]

/-- The frame at place `skipped` is released, and the places before it are given up. The loop has
started in slot `index`, `q` places before the window. -/
theorem release_skipped_eq_sweep (h : SlotInv t) {q skipped index : ℕ} (hq : 0 < q + skipped)
    (hlt : q + skipped < t.bufSize) (hindex : (index + q) % t.bufSize = t.slot 0)
    (hgap : ∀ m < skipped, t.rxReorderReady (t.slot m) = false)
    (hbehind : ∀ o < q, t.reorderBuf ((index + o) % t.bufSize) = [])
    (hfirst : q = 0 → t.reorderBuf (t.slot 0) = []) :
    (let t₁ := purgeLoop (t.slot skipped) t.bufSize ((index + 1) % t.bufSize) t
      let (t₂, frames) := releaseReorderFrame t₁ (t.slot skipped) frames
      ({ t₂ with headSeqNum := snAdd t₂.headSeqNum skipped }, frames)) =
      sweep (skipped + 1) (t, frames) := by
  have hslot : ∀ m, t.slot m = (index + q + m) % t.bufSize := by
    intro m
    rw [TidAmpduRx.slot, Nat.add_mod, Nat.add_mod (index + q), hindex]
    rfl
  have hpurge := @purgeLoop_eq (index + 1) (q + skipped - 1) t.bufSize t (by omega) (by omega)
  rw [show index + 1 + (q + skipped - 1) = index + q + skipped by omega, ← hslot] at hpurge
  -- both leave the same slots empty
  have hsame : (fun y => if ∃ m < q + skipped - 1, (index + 1 + m) % t.bufSize = y then []
      else t.reorderBuf y) = fun y => if ∃ m < skipped, t.slot m = y then [] else t.reorderBuf y := by
    funext y
    by_cases hy : t.reorderBuf y = []
    · rw [hy]
      simp only [ite_self]
    · have hiff : (∃ m < q + skipped - 1, (index + 1 + m) % t.bufSize = y) ↔
          ∃ m < skipped, t.slot m = y := by
        constructor
        · rintro ⟨m, hm, rfl⟩
          have hqm : q ≤ 1 + m := by
            by_contra hlt
            refine hy ?_
            rw [show index + 1 + m = index + (1 + m) by omega]
            exact hbehind (1 + m) (by omega)
          refine ⟨1 + m - q, by omega, ?_⟩
          rw [hslot]
          congr 1
          omega
        · rintro ⟨m, hm, rfl⟩
          have hqm : 0 < q + m := by
            by_contra hzero
            obtain ⟨rfl, rfl⟩ : q = 0 ∧ m = 0 := by omega
            exact hy (hfirst rfl)
          refine ⟨q + m - 1, by omega, ?_⟩
          rw [hslot]
          congr 1
          omega
      simp only [hiff]
  have hsweep := @sweep_gap t frames h skipped (by omega) hgap
  have hhead : (if skipped = 0 then t.headSeqNum else snAdd t.headSeqNum skipped) % t.bufSize =
      t.slot skipped := by
    split
    · rename_i hzero
      rw [hzero]
      rfl
    · exact add_mod_of_mod h.dvd (t.headSeqNum + skipped) 0
  rw [sweep, iterate_succ_apply', ← sweep, hsweep, releaseHead, TidAmpduRx.headIndex]
  simp only [hpurge, hsame, hhead]
  simp only [releaseReorderFrame, TidAmpduRx.rxReorderReady, TidAmpduRx.complete]
  congr 2
  simp only [snInc, snAdd, SN_MODULO]
  split <;> omega

/-- Nothing behind an incomplete A-MSDU in the first slot has timed out. -/
def HeadKept (hz jiffies : UInt64) (t : TidAmpduRx) : Prop :=
  t.storedMpduNum ≠ 0 → t.reorderBuf t.headIndex ≠ [] → ∀ m < t.bufSize, 0 < m →
    (∀ m' < m, t.rxReorderReady (t.slot m') = false) → t.rxReorderReady (t.slot m) = true →
    timedOut hz jiffies t (t.slot m) = false

instance (hz jiffies : UInt64) (t : TidAmpduRx) : Decidable (HeadKept hz jiffies t) := by
  unfold HeadKept
  infer_instance

/-- A sweep that ends with a slot that is ready, or that has not begun. -/
def EndsReady (r : TidAmpduRx × List AmpduSkb) (k : ℕ) : Prop :=
  ∀ k', k = k' + 1 → (sweep k' r).1.rxReorderReady (sweep k' r).1.headIndex = true

theorem endsReady_add {r : TidAmpduRx × List AmpduSkb} {k n : ℕ} (hn : EndsReady (sweep k r) n)
    (hk : EndsReady r k) : EndsReady r (k + n) := by
  intro k' hk'
  rcases n with _ | n
  · exact hk k' hk'
  · obtain rfl : k' = k + n := by omega
    rw [sweep_add]
    exact hn n rfl

theorem endsReady_gap (h : SlotInv t) {k : ℕ} (hk : k < t.bufSize)
    (hgap : ∀ m < k, t.rxReorderReady (t.slot m) = false)
    (hready : t.rxReorderReady (t.slot k) = true) : EndsReady (t, frames) (k + 1) := by
  intro k' hk'
  obtain rfl : k = k' := by omega
  have hhead : (sweep k (t, frames)).1.headIndex = t.slot k := slot_sweep h k 0
  have hbuf := @reorderBuf_sweep t frames h k k hk.le hk
  rw [if_neg (lt_irrefl k)] at hbuf
  rw [hhead, ← hready]
  refine rxReorderReady_of_eq ?_ hbuf
  rw [sweep_gap h k hk.le hgap]

/-- **Giving up on missing frames is a sweep.** The loop has started in slot `index`, `q` places
before the window, and looks at place `skipped`. -/
theorem timeoutLoop_eq_sweep {hz jiffies : UInt64} {index : ℕ} : ∀ (n : ℕ) {q skipped : ℕ}
    {t : TidAmpduRx} {frames : List AmpduSkb}, SlotInv t → 0 < q + skipped →
    q + skipped ≤ t.bufSize → index < t.bufSize → (index + q) % t.bufSize = t.slot 0 →
    (∀ m < skipped, t.rxReorderReady (t.slot m) = false) →
    (∀ o < q, t.reorderBuf ((index + o) % t.bufSize) = []) →
    (q = 0 → t.storedMpduNum ≠ 0 ∧ HeadKept hz jiffies t) →
    ∃ k o, q + k ≤ t.bufSize ∧ EndsReady (t, frames) k ∧
      timeoutLoop hz jiffies index n (t.slot skipped) skipped t frames =
        ((sweep k (t, frames)).1, (sweep k (t, frames)).2, o) := by
  intro n
  induction n with
  | zero =>
    intro q skipped t frames _ _ hle _ _ _ _ _
    exact ⟨0, none, by omega, nofun, rfl⟩
  | succ n ih =>
    intro q skipped t frames h hpos hle hindex hq hgap hbehind hkept
    have hslot : ∀ m, t.slot m = (index + q + m) % t.bufSize := by
      intro m
      rw [TidAmpduRx.slot, Nat.add_mod, Nat.add_mod (index + q), hq]
      rfl
    have hnext : (t.slot skipped + 1) % t.bufSize = t.slot (skipped + 1) := Nat.mod_add_mod ..
    rw [timeoutLoop]
    by_cases hj : t.slot skipped = index
    · rw [if_pos hj]
      exact ⟨0, none, by omega, nofun, rfl⟩
    have hlt : q + skipped < t.bufSize := by
      rcases Nat.lt_or_eq_of_le hle with hlt | heq
      · exact hlt
      · refine absurd ?_ hj
        rw [hslot, Nat.add_assoc, heq, Nat.add_mod_right, Nat.mod_eq_of_lt hindex]
    rw [if_neg hj]
    by_cases hready : t.rxReorderReady (t.slot skipped) = true
    · rw [hready, Bool.not_true, if_neg Bool.false_ne_true]
      by_cases hwait : (skipped ≠ 0 && !timedOut hz jiffies t (t.slot skipped)) = true
      · rw [if_pos hwait]
        exact ⟨0, some _, by omega, nofun, rfl⟩
      rw [if_neg hwait]
      -- an incomplete A-MSDU in the first slot would stay there
      have hfirst : q = 0 → t.reorderBuf (t.slot 0) = [] := by
        intro hzero
        by_contra hne
        obtain ⟨hstored, hkept⟩ := hkept hzero
        have hnot := hkept hstored hne skipped (by omega) (by omega) hgap hready
        have hskipped : skipped ≠ 0 := by omega
        simp [hnot, hskipped] at hwait
      have hrelease := @release_skipped_eq_sweep t frames h q skipped index hpos hlt hq hgap hbehind
        hfirst
      have hsize : (sweep (skipped + 1) (t, frames)).1.bufSize = t.bufSize := (sweep_fields _ _).1
      have hslot' : ∀ m, (sweep (skipped + 1) (t, frames)).1.slot m = t.slot (skipped + 1 + m) :=
        slot_sweep h (skipped + 1)
      have hempty : ∀ o < q + (skipped + 1),
          (sweep (skipped + 1) (t, frames)).1.reorderBuf ((index + o) % t.bufSize) = [] := by
        intro o ho
        obtain ⟨m, hm, hmo⟩ := exists_slot t.headSeqNum (Nat.mod_lt (index + o) h.pos)
        have hbuf := @reorderBuf_sweep t frames h (skipped + 1) m (by omega) hm
        rw [TidAmpduRx.slot, hmo] at hbuf
        rw [hbuf]
        split
        · rfl
        · rename_i hge
          refine hbehind o ?_
          by_contra hqo
          have hmo' : t.slot (o - q) = t.slot m := by
            rw [hslot, show index + q + (o - q) = index + o by omega]
            exact hmo.symm
          have := eq_of_slot_eq (show o - q < t.bufSize by omega) hm hmo'
          omega
      obtain ⟨k, o, hk, hends, heq⟩ := @ih (q + (skipped + 1)) 0 (sweep (skipped + 1) (t, frames)).1
        (sweep (skipped + 1) (t, frames)).2 (h.sweep _) (by omega) (by rw [hsize]; exact hlt)
        (by rw [hsize]; exact hindex)
        (by rw [hsize, hslot', hslot]; congr 1; omega) nofun (by rw [hsize]; exact hempty)
        (by omega)
      rw [hsize] at hk
      refine ⟨skipped + 1 + k, o, by omega, ?_, ?_⟩
      · exact endsReady_add hends (endsReady_gap h (by omega) hgap hready)
      · rw [sweep_add, ← heq]
        refine (congrArg (fun r : TidAmpduRx × List AmpduSkb => timeoutLoop hz jiffies index n
          ((t.slot skipped + 1) % r.1.bufSize) 0 r.1 r.2) hrelease).trans ?_
        simp only [hsize, hnext, hslot', Nat.add_zero]
    · rw [Bool.not_eq_true] at hready
      rw [hready, Bool.not_false, if_pos rfl, hnext]
      refine ih h (by omega) (by omega) hindex hq ?_ hbehind hkept
      intro m hm
      by_cases hms : m = skipped
      · rw [hms, hready]
      · exact hgap m (by omega)

theorem not_ready_releaseReorderFrame_self (i : ℕ) :
    (releaseReorderFrame t i frames).1.rxReorderReady i = false := by
  rw [TidAmpduRx.rxReorderReady, complete_of_nil (releaseReorderFrame_reorderBuf_self i)]
  simp [releaseReorderFrame, and_not_and_self]

theorem not_ready_releaseReorderFrame {i j : ℕ} (h : t.rxReorderReady j = false) :
    (releaseReorderFrame t i frames).1.rxReorderReady j = false := by
  by_cases hji : j = i
  · rw [hji]
    exact not_ready_releaseReorderFrame_self i
  · have hzero := filtered_of_not_ready h
    rw [TidAmpduRx.rxReorderReady, Bool.or_eq_false_iff] at h ⊢
    refine ⟨?_, (complete_of_eq (releaseReorderFrame_reorderBuf_of_ne hji)).trans h.2⟩
    rw [decide_eq_false_iff_not, not_not]
    exact and_not_and_of_eq_zero hzero

theorem not_ready_sweep (h : SlotInv t) {k m : ℕ} (hm : m < k) :
    (sweep k (t, frames)).1.rxReorderReady (t.slot m) = false := by
  induction k with
  | zero => omega
  | succ k ih =>
    have hhead : (sweep k (t, frames)).1.headIndex = t.slot k := slot_sweep h k 0
    rw [sweep_add]
    show (releaseReorderFrame _ _ _).1.rxReorderReady _ = false
    rw [hhead]
    by_cases hmk : m = k
    · rw [hmk]
      exact not_ready_releaseReorderFrame_self _
    · exact not_ready_releaseReorderFrame (ih (by omega))

/-- **Releasing frames until the next missing one is a sweep.** -/
theorem readyLoop_eq_sweep : ∀ (n : ℕ) {k : ℕ} {t : TidAmpduRx} {frames : List AmpduSkb}, k < n →
    (sweep k (t, frames)).1.rxReorderReady (sweep k (t, frames)).1.headIndex = false →
    ∃ k' ≤ k, EndsReady (t, frames) k' ∧ readyLoop n t frames = some (sweep k' (t, frames)) := by
  intro n
  induction n with
  | zero =>
    intro k t frames hk
    omega
  | succ n ih =>
    intro k t frames hk hnot
    rw [readyLoop]
    by_cases hready : t.rxReorderReady t.headIndex = true
    · rw [if_pos hready]
      rcases k with _ | k
      · rw [show sweep 0 (t, frames) = (t, frames) from rfl, hready] at hnot
        cases hnot
      · rw [sweep_succ] at hnot
        obtain ⟨k', hle, hends, heq⟩ := ih (show k < n by omega) hnot
        refine ⟨1 + k', by omega, endsReady_add hends ?_, ?_⟩
        · intro k'' hk''
          obtain rfl : k'' = 0 := by omega
          exact hready
        · rw [sweep_add]
          exact heq
    · rw [if_neg hready]
      exact ⟨0, Nat.zero_le k, nofun, rfl⟩

theorem setReleaseTimer_eq (hz : UInt64) (t : TidAmpduRx) (j : ℕ) :
    ∃ timer, setReleaseTimer hz t j = { t with reorderTimer := timer } := by
  rw [setReleaseTimer]
  split
  · exact ⟨t.reorderTimer, rfl⟩
  · exact ⟨_, rfl⟩

theorem CountInv.rearmTimer_eq (h : CountInv t) (hz : UInt64) :
    ∃ timer, rearmTimer hz t = some { t with reorderTimer := timer } := by
  rw [rearmTimer]
  split
  · rename_i hstored
    rw [h.count] at hstored
    obtain ⟨i, hi⟩ := card_pos.mp (Nat.pos_of_ne_zero hstored)
    obtain ⟨hi, hc⟩ := t.mem_completeSlots.mp hi
    obtain ⟨m, hm, hmi⟩ := exists_slot t.headIndex hi
    have hsome : (timerSlot t).isSome = true := by
      rw [timerSlot, List.find?_isSome]
      refine ⟨i, List.mem_map.mpr ⟨m, List.mem_range.mpr hm, hmi⟩, ?_⟩
      rw [TidAmpduRx.rxReorderReady, hc]
      simp
    obtain ⟨j, hj⟩ := isSome_iff_exists.mp hsome
    obtain ⟨timer, htimer⟩ := setReleaseTimer_eq hz t j
    rw [hj, map_some, htimer]
    exact ⟨timer, rfl⟩
  · exact ⟨none, rfl⟩

/-- **`ieee80211_sta_reorder_release` comes to an end and is a sweep**, the timer apart. -/
theorem staReorderRelease_eq_sweep {hz jiffies : UInt64} (h : SlotInv t)
    (hkept : HeadKept hz jiffies t) : ∃ k timer, k ≤ t.bufSize ∧ EndsReady (t, frames) k ∧
      staReorderRelease hz jiffies t frames =
        some ({ (sweep k (t, frames)).1 with reorderTimer := timer }, (sweep k (t, frames)).2) := by
  rw [staReorderRelease]
  split
  · rename_i hcond
    rw [Bool.and_eq_true, Bool.not_eq_true', decide_eq_true_eq] at hcond
    have hnext : (t.headIndex + 1) % t.bufSize = t.slot 1 := Nat.mod_add_mod ..
    have hlt : t.headIndex < t.bufSize := Nat.mod_lt _ h.pos
    obtain ⟨k, o, hk, hends, heq⟩ := @timeoutLoop_eq_sweep hz jiffies t.headIndex t.bufSize 0 1 t
      frames h (by omega) h.pos hlt (Nat.mod_mod ..) (by
        intro m hm
        obtain rfl : m = 0 := by omega
        exact hcond.1) nofun fun _ => ⟨hcond.2, hkept⟩
    rw [hnext, heq]
    rcases o with _ | j
    · obtain ⟨timer, htimer⟩ := (@SlotInv.sweep k t frames h).countInv.rearmTimer_eq hz
      exact ⟨k, timer, by omega, hends, by simp only [htimer, map_some]⟩
    · obtain ⟨timer, htimer⟩ := setReleaseTimer_eq hz (sweep k (t, frames)).1 j
      exact ⟨k, timer, by omega, hends, by simp only [htimer]⟩
  · have hround : (sweep t.bufSize (t, frames)).1.headIndex = t.slot 0 := by
      refine (slot_sweep h t.bufSize 0).trans ?_
      rw [TidAmpduRx.slot, ← Nat.add_assoc, Nat.add_right_comm, Nat.add_mod_right]
      rfl
    obtain ⟨k, hk, hends, heq⟩ := @readyLoop_eq_sweep (t.bufSize + 1) t.bufSize t frames (by omega)
      (by rw [hround]; exact not_ready_sweep h h.pos)
    obtain ⟨timer, htimer⟩ := (@SlotInv.sweep k t frames h).countInv.rearmTimer_eq hz
    refine ⟨k, timer, hk, hends, ?_⟩
    rw [heq, bind_some]
    simp only [htimer, map_some]

end Loops

/-! ### A frame arrives -/

section Frames

variable {t : TidAmpduRx}

theorem SlotInv.withTimer (h : SlotInv t) (timer : Option UInt64) :
    SlotInv { t with reorderTimer := timer } :=
  ⟨h.pos, h.dvd, h.le, h.count, h.placed, h.unmarked, h.fresh⟩

theorem snSub_le_of_not_snLess {sn h : ℕ} (hold : snLess sn h = false) :
    snSub sn h ≤ SN_MODULO / 2 := by
  rw [Bool.eq_false_iff, Ne, snLess_iff] at hold
  simp only [snSub, SN_MODULO] at *
  omega

/-- Room is made by moving the window. Only in a ring of one slot is a frame 2048 ahead taken for
one that needs no room. -/
theorem makeRoom_eq_sweep (h : SlotInv t) {sn : ℕ} (hold : snLess sn t.headSeqNum = false)
    (hfar : ¬ (t.bufSize = 1 ∧ snSub sn t.headSeqNum = SN_MODULO / 2)) :
    makeRoom t sn = sweep (snSub sn t.headSeqNum + 1 - t.bufSize) (t, []) := by
  have hD := snSub_le_of_not_snLess hold
  have hpos := h.pos
  have hle := h.le
  have hiff : snLess sn (t.headSeqNum + t.bufSize) = true ↔ snSub sn t.headSeqNum < t.bufSize := by
    rw [snLess_iff]
    simp only [snSub, SN_MODULO] at *
    omega
  rw [makeRoom]
  by_cases hin : snSub sn t.headSeqNum < t.bufSize
  · rw [hiff.mpr hin, show snSub sn t.headSeqNum + 1 - t.bufSize = 0 by omega]
    rfl
  · have hless : snLess sn (t.headSeqNum + t.bufSize) = false := by
      rw [Bool.eq_false_iff, Ne, hiff]
      exact hin
    have hdist : snSub (snInc (snSub sn t.bufSize)) t.headSeqNum =
        snSub sn t.headSeqNum + 1 - t.bufSize := by
      simp only [snInc, snAdd, snSub, SN_MODULO] at *
      omega
    rw [hless, Bool.not_false, if_pos rfl, releaseReorderFrames_eq_sweep, releaseDist, hdist, if_pos]
    simp only [SN_MODULO] at *
    omega

theorem snSub_makeRoom (h : SlotInv t) {sn : ℕ} (hold : snLess sn t.headSeqNum = false)
    (hfar : ¬ (t.bufSize = 1 ∧ snSub sn t.headSeqNum = SN_MODULO / 2)) :
    snSub sn (makeRoom t sn).1.headSeqNum = min (snSub sn t.headSeqNum) (t.bufSize - 1) := by
  rw [makeRoom_eq_sweep h hold hfar]
  have hhead : (sweep (snSub sn t.headSeqNum + 1 - t.bufSize) (t, [])).1.headSeqNum % SN_MODULO = _ :=
    (sweep_fields _ _).2
  have hlt := snSub_lt sn t.headSeqNum
  have hpos := h.pos
  have hle := h.le
  generalize (sweep _ (t, [])).1.headSeqNum = h' at hhead ⊢
  simp only [snSub, SN_MODULO] at *
  omega

theorem store_fields (jiffies : UInt64) (t : TidAmpduRx) (skb : AmpduSkb) :
    (store jiffies t skb).bufSize = t.bufSize ∧ (store jiffies t skb).headSeqNum = t.headSeqNum ∧
      (store jiffies t skb).reorderBufFiltered = t.reorderBufFiltered ∧
      (store jiffies t skb).autoSeq = t.autoSeq := by
  rw [store]
  split <;> exact ⟨rfl, rfl, rfl, rfl⟩

theorem store_reorderBuf (jiffies : UInt64) (t : TidAmpduRx) (skb : AmpduSkb) :
    (store jiffies t skb).reorderBuf = Function.update t.reorderBuf (skb.sn % t.bufSize)
      (t.reorderBuf (skb.sn % t.bufSize) ++ [skb]) := by
  rw [store]
  split <;> rfl

theorem store_storedMpduNum (jiffies : UInt64) (t : TidAmpduRx) (skb : AmpduSkb) :
    (store jiffies t skb).storedMpduNum =
      if skb.amsduMore then t.storedMpduNum else (t.storedMpduNum + 1) % 65536 := by
  rw [store]
  split <;> rfl

theorem complete_store_self (jiffies : UInt64) (t : TidAmpduRx) (skb : AmpduSkb) :
    (store jiffies t skb).complete (skb.sn % t.bufSize) = !skb.amsduMore := by
  rw [TidAmpduRx.complete, store_reorderBuf, update_self, List.getLast?_append]
  rfl

variable {skb : AmpduSkb}

theorem reorderBuf_store_of_ne (jiffies : UInt64) {t : TidAmpduRx}
    (hi : i ≠ skb.sn % t.bufSize) : (store jiffies t skb).reorderBuf i = t.reorderBuf i := by
  rw [store_reorderBuf, update_of_ne hi]

theorem not_complete_of_not_ready (h : t.rxReorderReady i = false) : t.complete i = false := by
  rw [TidAmpduRx.rxReorderReady, Bool.or_eq_false_iff] at h
  exact h.2

theorem CountInv.count_store (h : CountInv t) (jiffies : UInt64)
    (hnot : t.rxReorderReady (skb.sn % t.bufSize) = false) :
    (Mac80211.store jiffies t skb).storedMpduNum =
      (Mac80211.store jiffies t skb).completeSlots.card := by
  have hnotc := not_complete_of_not_ready hnot
  have hi : skb.sn % t.bufSize < t.bufSize := Nat.mod_lt _ h.pos
  have hmem : skb.sn % t.bufSize ∉ t.completeSlots := by
    rw [t.mem_completeSlots, hnotc]
    simp
  have hslots : (Mac80211.store jiffies t skb).completeSlots =
      if skb.amsduMore then t.completeSlots else insert (skb.sn % t.bufSize) t.completeSlots := by
    ext j
    rw [TidAmpduRx.mem_completeSlots, (store_fields jiffies t skb).1]
    by_cases hj : j = skb.sn % t.bufSize
    · rw [hj, complete_store_self]
      cases skb.amsduMore
      · simp [hi]
      · simpa using hmem
    · rw [complete_of_eq (reorderBuf_store_of_ne jiffies hj), ← t.mem_completeSlots]
      cases skb.amsduMore
      · simp [hj]
      · simp
  have hcard : t.completeSlots.card ≤ 256 := t.card_completeSlots_le.trans h.le
  rw [hslots, store_storedMpduNum, h.count]
  split
  · rfl
  · rw [card_insert_of_notMem hmem]
    omega

/-- **A frame in the window may be stored** where nothing is ready. -/
theorem SlotInv.store (h : SlotInv t) (jiffies : UInt64)
    (hauto : t.autoSeq = false) (hin : snSub skb.sn t.headSeqNum < t.bufSize)
    (hnot : t.rxReorderReady (skb.sn % t.bufSize) = false) :
    SlotInv (Mac80211.store jiffies t skb) := by
  obtain ⟨hsize, hhead, hfiltered, hauto'⟩ := store_fields jiffies t skb
  have hsn : (t.headSeqNum + snSub skb.sn t.headSeqNum) % SN_MODULO = skb.sn := by
    rw [add_snSub_mod, Nat.mod_eq_of_lt skb.sn_lt]
  have hplace : t.slot (snSub skb.sn t.headSeqNum) = skb.sn % t.bufSize := by
    rw [← hsn, Nat.mod_mod_of_dvd _ h.dvd, hsn]
    rfl
  refine ⟨hsize ▸ h.pos, hsize ▸ h.dvd, hsize ▸ h.le, h.countInv.count_store jiffies hnot, ?_, ?_, ?_⟩
  · intro m hm skb' hskb'
    rw [TidAmpduRx.slot, hsize, hhead] at hskb'
    rw [hsize] at hm
    rw [hhead]
    by_cases hms : t.slot m = skb.sn % t.bufSize
    · have hmD : m = snSub skb.sn t.headSeqNum := eq_of_slot_eq hm hin (hms.trans hplace.symm)
      rw [store_reorderBuf] at hskb'
      rw [show (t.headSeqNum + m) % t.bufSize = skb.sn % t.bufSize from hms, update_self,
        List.mem_append, List.mem_singleton] at hskb'
      rcases hskb' with hskb' | rfl
      · exact h.placed m hm skb' (by rw [hms]; exact hskb')
      · rw [hmD, hsn]
    · rw [show (t.headSeqNum + m) % t.bufSize = t.slot m from rfl, reorderBuf_store_of_ne jiffies hms]
        at hskb'
      exact h.placed m hm skb' hskb'
  · intro i hi hne hc
    rw [hsize] at hi
    rw [hfiltered]
    by_cases his : i = skb.sn % t.bufSize
    · rw [his]
      exact filtered_of_not_ready hnot
    · rw [reorderBuf_store_of_ne jiffies his] at hne
      rw [complete_of_eq (reorderBuf_store_of_ne jiffies his)] at hc
      exact h.unmarked i hi hne hc
  · rw [hauto', hauto]
    intro hfalse
    cases hfalse

theorem next_eq_releaseHead (hnot : t.rxReorderReady t.headIndex = false)
    (hnil : t.reorderBuf t.headIndex = []) (frames : List AmpduSkb) :
    { t with headSeqNum := snInc t.headSeqNum } = (releaseHead (t, frames)).1 := by
  rw [releaseHead, releaseReorderFrame_of_not_ready hnot, TidAmpduRx.purge, ← hnil,
    update_eq_self]

/-- What a received frame must not do. -/
structure FrameCond (hz jiffies : UInt64) (t : TidAmpduRx) (skb : AmpduSkb) : Prop where
  /-- Be 2048 ahead in a ring of one slot. -/
  far : snLess skb.sn t.headSeqNum = false →
    ¬ (t.bufSize = 1 ∧ snSub skb.sn t.headSeqNum = SN_MODULO / 2)
  /-- Be processed right away, as the last of its A-MSDU, while others of it are in the buffer. -/
  next : snLess skb.sn t.headSeqNum = false →
    skb.sn = (makeRoom t skb.sn).1.headSeqNum → (makeRoom t skb.sn).1.storedMpduNum = 0 →
    skb.amsduMore = false → (makeRoom t skb.sn).1.rxReorderReady (skb.sn % t.bufSize) = false →
    (makeRoom t skb.sn).1.reorderBuf (skb.sn % t.bufSize) = []
  /-- Be stored behind an incomplete A-MSDU that is given up. -/
  kept : snLess skb.sn t.headSeqNum = false →
    ¬ (skb.sn = (makeRoom t skb.sn).1.headSeqNum ∧ (makeRoom t skb.sn).1.storedMpduNum = 0) →
    skb.amsduMore = false → (makeRoom t skb.sn).1.rxReorderReady (skb.sn % t.bufSize) = false →
    HeadKept hz jiffies (store jiffies (makeRoom t skb.sn).1 skb)

instance (hz jiffies : UInt64) (t : TidAmpduRx) (skb : AmpduSkb) :
    Decidable (FrameCond hz jiffies t skb) := by
  refine @decidable_of_iff _ (_ ∧ _ ∧ _) ⟨fun h => ⟨h.1, h.2.1, h.2.2⟩,
    fun h => ⟨h.far, h.next, h.kept⟩⟩ (@instDecidableAnd _ _ ?_ (@instDecidableAnd _ _ ?_ ?_)) <;>
  infer_instance

/-- What a received frame does, once the session has started. -/
inductive Managed (jiffies : UInt64) (t : TidAmpduRx) (skb : AmpduSkb) :
    TidAmpduRx → List AmpduSkb → Fate → Prop
  | old (hold : snLess skb.sn t.headSeqNum = true) : Managed jiffies t skb t [] .freed
  | there (hold : snLess skb.sn t.headSeqNum = false)
      (hready : (makeRoom t skb.sn).1.rxReorderReady (skb.sn % t.bufSize) = true) :
      Managed jiffies t skb (makeRoom t skb.sn).1 (makeRoom t skb.sn).2 .freed
  | part (hold : snLess skb.sn t.headSeqNum = false)
      (hhead : skb.sn = (makeRoom t skb.sn).1.headSeqNum) (hmore : skb.amsduMore = true) :
      Managed jiffies t skb (makeRoom t skb.sn).1 (makeRoom t skb.sn).2 .next
  | next (hold : snLess skb.sn t.headSeqNum = false)
      (hhead : skb.sn = (makeRoom t skb.sn).1.headSeqNum)
      (hzero : (makeRoom t skb.sn).1.storedMpduNum = 0) (hmore : skb.amsduMore = false) :
      Managed jiffies t skb (releaseHead (makeRoom t skb.sn)).1 (makeRoom t skb.sn).2 .next
  | stored (hold : snLess skb.sn t.headSeqNum = false) (hmore : skb.amsduMore = true)
      (hnot : (makeRoom t skb.sn).1.rxReorderReady (skb.sn % t.bufSize) = false) :
      Managed jiffies t skb (store jiffies (makeRoom t skb.sn).1 skb) (makeRoom t skb.sn).2 .queued
  | complete (hold : snLess skb.sn t.headSeqNum = false) (hmore : skb.amsduMore = false)
      (hnot : (makeRoom t skb.sn).1.rxReorderReady (skb.sn % t.bufSize) = false)
      {k : ℕ} {timer : Option UInt64} (hk : k ≤ t.bufSize)
      {r : TidAmpduRx × List AmpduSkb}
      (hr : r = (store jiffies (makeRoom t skb.sn).1 skb, (makeRoom t skb.sn).2))
      (hends : EndsReady r k) :
      Managed jiffies t skb { (sweep k r).1 with reorderTimer := timer } (sweep k r).2 .queued

theorem SlotInv.makeRoom (h : SlotInv t) {sn : ℕ} (hold : snLess sn t.headSeqNum = false)
    (hfar : ¬ (t.bufSize = 1 ∧ snSub sn t.headSeqNum = SN_MODULO / 2)) :
    SlotInv (makeRoom t sn).1 ∧ (Mac80211.makeRoom t sn).1.bufSize = t.bufSize ∧
      snSub sn (Mac80211.makeRoom t sn).1.headSeqNum < t.bufSize := by
  have hpos := h.pos
  rw [snSub_makeRoom h hold hfar, makeRoom_eq_sweep h hold hfar]
  exact ⟨h.sweep _, (sweep_fields _ _).1, by omega⟩

theorem sweep_autoSeq (n : ℕ) (r : TidAmpduRx × List AmpduSkb) :
    (sweep n r).1.autoSeq = r.1.autoSeq := by
  induction n generalizing r with
  | zero => rfl
  | succ n ih => exact ih (releaseHead r)

theorem makeRoom_autoSeq (t : TidAmpduRx) (sn : ℕ) : (makeRoom t sn).1.autoSeq = t.autoSeq := by
  rw [makeRoom]
  split
  · rw [releaseReorderFrames_eq_sweep]
    exact sweep_autoSeq _ _
  · rfl

/-- **A received frame is dealt with**, in one of these ways. -/
theorem manageStarted_spec {hz jiffies : UInt64} (h : SlotInv t) (hauto : t.autoSeq = false)
    (hcond : FrameCond hz jiffies t skb) :
    ∃ t' frames fate, manageStarted hz jiffies t skb = some (t', frames, fate) ∧
      Managed jiffies t skb t' frames fate := by
  rw [manageStarted]
  cases hold : snLess skb.sn t.headSeqNum with
  | true => exact ⟨_, _, _, rfl, .old hold⟩
  | false =>
    obtain ⟨hinv, hsize, hin⟩ := h.makeRoom hold (hcond.far hold)
    have hnext := hcond.next hold
    have hkept := hcond.kept hold
    have hauto' : (makeRoom t skb.sn).1.autoSeq = false := (makeRoom_autoSeq t skb.sn).trans hauto
    simp only [Bool.false_eq_true, if_false, hsize]
    cases hready : (makeRoom t skb.sn).1.rxReorderReady (skb.sn % t.bufSize) with
    | true => exact ⟨_, _, _, rfl, .there hold hready⟩
    | false =>
      simp only [Bool.false_eq_true, if_false, Bool.and_eq_true, decide_eq_true_eq]
      by_cases hdirect : skb.sn = (makeRoom t skb.sn).1.headSeqNum ∧
          (makeRoom t skb.sn).1.storedMpduNum = 0
      · rw [if_pos hdirect]
        obtain ⟨hhead, hzero⟩ := hdirect
        cases hmore : skb.amsduMore with
        | true => exact ⟨_, _, _, rfl, .part hold hhead hmore⟩
        | false =>
          have hindex : skb.sn % t.bufSize = (makeRoom t skb.sn).1.headIndex := by
            rw [TidAmpduRx.headIndex, ← hhead, hsize]
          have hnil := hnext hhead hzero hmore hready
          rw [hindex] at hready hnil
          refine ⟨_, _, _, rfl, ?_⟩
          simp only [Bool.false_eq_true, if_false]
          rw [← hsize, next_eq_releaseHead hready hnil (makeRoom t skb.sn).2]
          exact .next hold hhead hzero hmore
      · rw [if_neg hdirect]
        cases hmore : skb.amsduMore with
        | true => exact ⟨_, _, _, rfl, .stored hold hmore hready⟩
        | false =>
          have hstore := hinv.store jiffies hauto' (by rw [hsize]; exact hin)
            (by rw [hsize]; exact hready)
          obtain ⟨k, timer, hk, hends, heq⟩ := @staReorderRelease_eq_sweep _ (makeRoom t skb.sn).2
            hz jiffies hstore (hkept hdirect hmore hready)
          simp only [Bool.false_eq_true, if_false]
          rw [heq]
          rw [(store_fields jiffies _ skb).1, hsize] at hk
          exact ⟨_, _, _, rfl, .complete hold hmore hready hk rfl hends⟩

/-- **A received frame keeps the invariant.** -/
theorem Managed.slotInv {jiffies : UInt64} {t' : TidAmpduRx}
    {frames : List AmpduSkb} {fate : Fate} (h : SlotInv t) (hauto : t.autoSeq = false)
    (hfar : snLess skb.sn t.headSeqNum = false →
      ¬ (t.bufSize = 1 ∧ snSub skb.sn t.headSeqNum = SN_MODULO / 2))
    (hm : Managed jiffies t skb t' frames fate) : SlotInv t' := by
  have hauto' : (makeRoom t skb.sn).1.autoSeq = false := (makeRoom_autoSeq t skb.sn).trans hauto
  have hstore : snLess skb.sn t.headSeqNum = false →
      (makeRoom t skb.sn).1.rxReorderReady (skb.sn % t.bufSize) = false →
      SlotInv (store jiffies (makeRoom t skb.sn).1 skb) := by
    intro hold hnot
    obtain ⟨hinv, hsize, hin⟩ := h.makeRoom hold (hfar hold)
    exact hinv.store jiffies hauto' (by rw [hsize]; exact hin) (by rw [hsize]; exact hnot)
  cases hm with
  | old => exact h
  | there hold => exact (h.makeRoom hold (hfar hold)).1
  | part hold => exact (h.makeRoom hold (hfar hold)).1
  | next hold => exact (h.makeRoom hold (hfar hold)).1.releaseHead
  | stored hold _ hnot => exact hstore hold hnot
  | complete hold _ hnot _ hr =>
    subst hr
    exact ((hstore hold hnot).sweep _).withTimer _

end Frames

/-! ### Filtered frames -/

section Marks

variable {t : TidAmpduRx}

theorem sweep_all (h : SlotInv t) (frames : List AmpduSkb) (hi : i < t.bufSize) :
    (sweep t.bufSize (t, frames)).1.reorderBuf i = [] := by
  obtain ⟨m, hm, rfl⟩ := exists_slot t.headSeqNum hi
  exact (reorderBuf_sweep h le_rfl hm).trans (if_pos hm)

theorem completeSlots_eq_empty (hnil : ∀ i < t.bufSize, t.reorderBuf i = []) :
    t.completeSlots = ∅ := by
  ext i
  rw [t.mem_completeSlots]
  constructor
  · rintro ⟨hi, hc⟩
    rw [complete_of_nil (hnil i hi)] at hc
    cases hc
  · intro hi
    cases hi

theorem SlotInv.withHead (h : SlotInv t) (hnil : ∀ i < t.bufSize, t.reorderBuf i = []) (ssn : ℕ) :
    SlotInv { t with headSeqNum := ssn } := by
  refine ⟨h.pos, h.dvd, h.le, h.count, ?_, h.unmarked, h.fresh⟩
  intro m _ skb hskb
  have hmem : skb ∈ t.reorderBuf ((ssn + m) % t.bufSize) := hskb
  rw [hnil _ (Nat.mod_lt _ h.pos)] at hmem
  cases hmem

theorem SlotInv.markRelease (h : SlotInv t) (ssn received : ℕ) :
    SlotInv (markRelease t ssn received).1 := by
  rw [Mac80211.markRelease]
  split
  · have hdist : releaseDist t ((t.headSeqNum + t.bufSize) % SN_MODULO) = t.bufSize := by
      have hle := h.le
      rw [releaseDist, snSub_add_mod (by simp only [SN_MODULO]; omega), if_pos]
      simp only [SN_MODULO]
      omega
    rw [releaseReorderFrames_eq_sweep, hdist]
    refine (h.sweep t.bufSize).withHead (fun i hi => sweep_all h _ ?_) ssn
    rwa [(sweep_fields _ _).1] at hi
  · rw [releaseReorderFrames_eq_sweep]
    exact h.sweep _

/-- What a step must not do. -/
def ReorderCond (hz : UInt64) (t : TidAmpduRx) : ReorderOp → Prop
  | .frame jiffies skb => FrameCond hz jiffies { pickSeq t skb.sn with started := true } skb
  | .bar _ => True
  | .timeout jiffies => HeadKept hz jiffies t
  | .mark jiffies ssn filtered received =>
    let t := (markRelease t ssn.toNat received.toNat).1
    let t' := markFiltered t ssn.toNat filtered
    snSub t.headSeqNum ssn.toNat < t.bufSize →
      -- no incomplete A-MSDU is marked
      (∀ i < t.bufSize, t.reorderBuf i ≠ [] → t.complete i = false →
        t'.reorderBufFiltered &&& bitUll i = 0) ∧
      HeadKept hz jiffies t'

instance (hz : UInt64) (t : TidAmpduRx) : ∀ op, Decidable (ReorderCond hz t op)
  | .frame .. => inferInstanceAs (Decidable (FrameCond ..))
  | .bar _ => inferInstanceAs (Decidable True)
  | .timeout _ => inferInstanceAs (Decidable (HeadKept ..))
  | .mark .. => inferInstanceAs (Decidable (_ → _ ∧ _))

theorem SlotInv.withMarks (h : SlotInv t) {bits : UInt64}
    (hbits : ∀ i < t.bufSize, t.reorderBuf i ≠ [] → t.complete i = false → bits &&& bitUll i = 0) :
    SlotInv { t with reorderBufFiltered := bits } :=
  ⟨h.pos, h.dvd, h.le, h.count, h.placed, hbits, h.fresh⟩

theorem SlotInv.markRxBaFilteredFrames (h : SlotInv t) {hz jiffies filtered : UInt64}
    {ssn received : UInt16} (hcond : ReorderCond hz t (.mark jiffies ssn filtered received)) :
    ∃ t' frames, markRxBaFilteredFrames hz jiffies t ssn.toNat filtered received.toNat =
      some (t', frames) ∧ SlotInv t' := by
  have hrelease := h.markRelease ssn.toNat received.toNat
  rw [Mac80211.markRxBaFilteredFrames]
  simp only [ReorderCond] at hcond
  generalize Mac80211.markRelease t ssn.toNat received.toNat = r at *
  obtain ⟨t, frames⟩ := r
  dsimp only at *
  split
  · refine ⟨_, _, rfl, hrelease.withMarks ?_⟩
    intro i _ _ _
    exact UInt64.zero_and
  · rename_i hlt
    obtain ⟨hbits, hkept⟩ := hcond (by omega)
    have hmarked : SlotInv (markFiltered t ssn.toNat filtered) := hrelease.withMarks hbits
    obtain ⟨k, timer, -, -, heq⟩ := @staReorderRelease_eq_sweep _ frames hz jiffies hmarked hkept
    exact ⟨_, _, heq, (hmarked.sweep k).withTimer timer⟩

end Marks

/-! ### Runs -/

section Runs

variable {t : TidAmpduRx} {hz : UInt64}

theorem SlotInv.pickSeq (h : SlotInv t) (sn : ℕ) : SlotInv (pickSeq t sn) := by
  rw [Mac80211.pickSeq]
  split
  · rename_i hauto
    have hhead := h.withHead (fun i _ => h.fresh hauto i) sn
    exact ⟨hhead.pos, hhead.dvd, hhead.le, hhead.count, hhead.placed, hhead.unmarked, nofun⟩
  · exact h

theorem pickSeq_autoSeq (t : TidAmpduRx) (sn : ℕ) : (pickSeq t sn).autoSeq = false := by
  rw [pickSeq]
  split
  · rfl
  · rename_i hauto
    exact Bool.eq_false_iff.mpr hauto

theorem SlotInv.withStarted (h : SlotInv t) (started : Bool) :
    SlotInv { t with started := started } :=
  ⟨h.pos, h.dvd, h.le, h.count, h.placed, h.unmarked, h.fresh⟩

/-- **A step that meets the condition comes to an end and keeps the invariant.** -/
theorem SlotInv.step (h : SlotInv t) {op : ReorderOp} (hcond : ReorderCond hz t op) :
    ∃ t' outs, reorderStep hz t op = some (t', outs) ∧ SlotInv t' := by
  cases op with
  | frame jiffies skb =>
    rw [reorderStep, manageReorderBuf]
    have hpick := (h.pickSeq skb.sn).withStarted true
    have hauto := pickSeq_autoSeq t skb.sn
    dsimp only
    split
    · exact ⟨_, _, rfl, h.pickSeq skb.sn⟩
    · obtain ⟨t', frames, fate, heq, hm⟩ := manageStarted_spec hpick hauto hcond
      rw [heq]
      exact ⟨_, _, rfl, hm.slotInv hpick hauto hcond.far⟩
  | bar seqCtrl =>
    rw [reorderStep, releaseReorderFrames_eq_sweep]
    exact ⟨_, _, rfl, h.sweep _⟩
  | timeout jiffies =>
    obtain ⟨k, timer, -, -, heq⟩ := @staReorderRelease_eq_sweep _ [] hz jiffies h hcond
    rw [reorderStep, heq]
    exact ⟨_, _, rfl, (h.sweep k).withTimer timer⟩
  | mark jiffies ssn filtered received =>
    obtain ⟨t', frames, heq, hinv⟩ := h.markRxBaFilteredFrames hcond
    rw [reorderStep, heq]
    exact ⟨_, _, rfl, hinv⟩

theorem slotInv_newTidAmpduRx {bufSize : ℕ} (hpos : 0 < bufSize) (hle : bufSize ≤ 256)
    (hdvd : bufSize ∣ SN_MODULO) (ssn : ℕ) (autoSeq : Bool) :
    SlotInv (newTidAmpduRx bufSize ssn autoSeq) := by
  refine ⟨hpos, hdvd, hle, ?_, nofun, fun _ _ hne => absurd rfl hne, fun _ _ => rfl⟩
  rw [completeSlots_eq_empty fun _ _ => rfl]
  rfl

/-- **The representation invariant holds in every state of every run**, if the size of the ring
divides 4096 and no step does what it must not do. -/
theorem reorderInv_of_reach {bufSize ssn : ℕ} {autoSeq : Bool} {outs : List ReorderOut}
    (hpos : 0 < bufSize) (hle : bufSize ≤ 256) (hdvd : bufSize ∣ SN_MODULO)
    (h : Reach (reorderStep hz) (fun t _ op => ReorderCond hz t op)
      (newTidAmpduRx bufSize ssn autoSeq) t outs) : ReorderInv t := by
  refine SlotInv.reorderInv (h.invariant (fun t _ => SlotInv t)
    (slotInv_newTidAmpduRx hpos hle hdvd ssn autoSeq) ?_)
  intro t _ op t' o hinv hcond hstep
  obtain ⟨t'', o', heq, hinv'⟩ := hinv.step hcond
  rw [heq, Option.some.injEq, Prod.mk.injEq] at hstep
  exact hstep.1 ▸ hinv'

/-- Frame 1, then frame 0 in two parts, and what the timer and a mark find. -/
def subframeRun : List ReorderOp :=
  [.frame 0 ⟨0x10, false, [1]⟩, .frame 0 ⟨0, true, [2]⟩, .timeout 10, .frame 20 ⟨0, false, [3]⟩,
    .frame 30 ⟨0x40, false, [4]⟩, .mark 30 2 1 1]

/-- The general theorem on this run. -/
theorem reorderInv_subframeRun : ∃ t outs,
    Reach (reorderStep 250) (fun t _ op => ReorderCond 250 t op) (newTidAmpduRx 4 0 false) t outs ∧
    outs = [.delivered ⟨0, true, [2]⟩, .delivered ⟨0, false, [3]⟩, .delivered ⟨0x10, false, [1]⟩] ∧
    t.storedMpduNum = 1 ∧ ReorderInv t := by
  have hrun : (run (reorderStep 250) (newTidAmpduRx 4 0 false) subframeRun).map
      (fun r => (r.2, r.1.storedMpduNum)) = some ([.delivered ⟨0, true, [2]⟩,
        .delivered ⟨0, false, [3]⟩, .delivered ⟨0x10, false, [1]⟩], 1) := by decide +kernel
  obtain ⟨⟨t, outs⟩, hrun, hout⟩ := map_eq_some_iff.mp hrun
  obtain ⟨houts, hstored⟩ := Prod.mk.inj hout
  have hmeets : Meets (reorderStep 250) (fun t _ op => ReorderCond 250 t op)
      (newTidAmpduRx 4 0 false) [] subframeRun := by decide +kernel
  have hreach : Reach (reorderStep 250) (fun t _ op => ReorderCond 250 t op)
      (newTidAmpduRx 4 0 false) t outs := Reach.of_run .init hmeets hrun
  exact ⟨t, outs, hreach, houts, hstored,
    reorderInv_of_reach (by decide) (by decide) (by decide) hreach⟩

/-- **An incomplete A-MSDU is left around.** Frame 2 is stored, then part of frame 0, and the timer
gives up on frames 0 and 1: the first slot keeps its part, and the window has moved past it. -/
theorem incomplete_amsdu_left_around : ∃ t outs,
    Reach (reorderStep 250) (fun _ _ _ => True) (newTidAmpduRx 4 0 false) t outs ∧
    ¬ ReorderInv t := by
  have hrun : (run (reorderStep 250) (newTidAmpduRx 4 0 false)
      [.frame 0 ⟨0x20, false, [1]⟩, .frame 0 ⟨0, true, [2]⟩, .timeout 26]).map
      (fun r => (r.1.headSeqNum, r.1.bufSize, r.1.reorderBuf 0)) =
      some (3, 4, [⟨0, true, [2]⟩]) := by decide +kernel
  obtain ⟨⟨t, outs⟩, hrun, hout⟩ := map_eq_some_iff.mp hrun
  obtain ⟨hhead, hout⟩ := Prod.mk.inj hout
  obtain ⟨hsize, hbuf⟩ := Prod.mk.inj hout
  refine ⟨t, outs, Reach.of_run_init hrun, fun hinv => ?_⟩
  dsimp only at hhead hsize hbuf
  have hwindow := hinv.window 0 (by rw [hsize]; decide) ⟨0, true, [2]⟩ (by rw [hbuf]; simp)
  rw [hhead, hsize] at hwindow
  exact absurd hwindow (by decide)

end Runs

end Mac80211
