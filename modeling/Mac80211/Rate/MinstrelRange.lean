import Mathlib.Algebra.Order.BigOperators.Group.List
import Mac80211.Lib.Reach
import Mac80211.Rate.MinstrelBest

/-!
# Statistics in range

A frame that was acknowledged is a success of the last rate that was tried; the legacy algorithm
knows that one by the entry behind it. The average length of an A-MPDU is one at least as long as
statuses report one, and the lengths of an interval fit into 20 bits.

## Main definitions

* `StatusOk`, `MinstrelHtSta.Inv`

## Main results

* `statsRight_of_reach`
-/

namespace Mac80211

open MinstrelHtSta List

variable {mp : MinstrelPriv} {random : ℕ} {mi mi' : MinstrelHtSta} {sample : Bool} {st : TxReport}

/-! ### Averages -/

theorem minstrelEwma_mem {a b old new : ℕ} (hb : b ≤ 2 ^ 20) (hold : a ≤ old ∧ old ≤ b) (hnew : a ≤ new ∧ new ≤ b) :
    (a : ℤ) ≤ minstrelEwma old new ∧ minstrelEwma old new ≤ b := by
  have hint (x : ℤ) (hx : -2 ^ 30 ≤ x) (hx' : x ≤ 2 ^ 30) : int32 x = x :=
    Int.bmod_eq_of_le (by omega) (by omega)
  rw [minstrelEwma, hint old (by omega) (by omega), hint new (by omega) (by omega)]
  rw [hint (new - old) (by omega) (by omega), hint ((128 - 96) * ((new : ℤ) - old)) (by omega) (by omega)]
  rcases le_total (old : ℤ) new with hle | hle
  · rw [Int.tdiv_eq_ediv_of_nonneg (by omega)]
    omega
  · have hneg : (128 - 96) * ((new : ℤ) - old) = -((128 - 96) * ((old : ℤ) - new)) := by omega
    rw [hneg, Int.neg_tdiv, Int.tdiv_eq_ediv_of_nonneg (by omega)]
    omega

theorem minstrelFrac_le {val div : ℕ} (h : val ≤ div) (hdiv : div < 2 ^ 16) : minstrelFrac val div ≤ 4096 := by
  rw [minstrelFrac, Nat.mod_eq_of_lt (by omega)]
  exact Nat.div_le_of_le_mul (by omega)

/-- What holds of the statistics of a rate. -/
structure RateStats.InRange (r : RateStats) : Prop where
  success : r.success ≤ r.attempts
  attempts : r.attempts < 2 ^ 16
  prob : r.probEwma ≤ 4096

theorem RateStats.InRange.calc {r : RateStats} (h : r.InRange) : (minstrelCalcRateStats r).InRange := by
  rw [minstrelCalcRateStats]
  split
  · have hcur := minstrelFrac_le h.success h.attempts
    refine ⟨le_rfl, Nat.two_pow_pos 16, ?_⟩
    dsimp only
    split
    · exact (Nat.mod_le _ _).trans hcur
    · obtain ⟨hlow, hhigh⟩ := minstrelEwma_mem (a := 0) (by decide) ⟨Nat.zero_le _, h.prob⟩ ⟨Nat.zero_le _, hcur⟩
      rw [Int.emod_eq_of_lt hlow (by omega)]
      omega
  · exact ⟨le_rfl, Nat.two_pow_pos 16, h.prob⟩

/-! ### Counting -/

/-- All that is added to a rate. -/
def totalOf (f : AddedCounts → ℕ) (ndx : ℕ) (as : List AddedCounts) : ℕ :=
  ((as.filter fun a => a.ndx = ndx).map f).sum

/-- What is added fits into the counters. -/
def Fits (r : ℕ → RateStats) (as : List AddedCounts) : Prop :=
  (∀ n, (r n).attempts + totalOf AddedCounts.attempts n as < 2 ^ 16) ∧ ∀ a ∈ as, a.success ≤ a.attempts

theorem counted_eq : ∀ {as : List AddedCounts} {r : ℕ → RateStats}, (∀ n, (r n).success ≤ (r n).attempts) →
    Fits r as → ∀ n, as.foldl addCounts r n =
      { r n with
        attempts := (r n).attempts + totalOf AddedCounts.attempts n as
        success := (r n).success + totalOf AddedCounts.success n as }
  | [], _, _, _, _ => rfl
  | a :: as, r, hr, hfit, n => by
    have ha := hfit.2 a mem_cons_self
    have htot (f : AddedCounts → ℕ) (m : ℕ) :
        totalOf f m (a :: as) = (if a.ndx = m then f a else 0) + totalOf f m as := by
      by_cases hm : a.ndx = m <;> simp [totalOf, hm]
    have hstep (m : ℕ) : addCounts r a m =
        { r m with
          attempts := (r m).attempts + (if a.ndx = m then a.attempts else 0)
          success := (r m).success + (if a.ndx = m then a.success else 0) } := by
      have hlt := hfit.1 m
      rw [htot] at hlt
      have := hr m
      by_cases hm : a.ndx = m
      · rw [if_pos hm] at hlt
        rw [addCounts, hm, Function.update_self, if_pos rfl, if_pos rfl, Nat.mod_eq_of_lt (by omega),
          Nat.mod_eq_of_lt (by omega)]
      · rw [addCounts, Function.update_of_ne (Ne.symm hm), if_neg hm, if_neg hm]
        rfl
    have hfit' : Fits (addCounts r a) as := by
      refine ⟨fun m => ?_, fun b hb => hfit.2 b (mem_cons_of_mem a hb)⟩
      have hlt := hfit.1 m
      rw [htot] at hlt
      rw [hstep]
      dsimp only
      omega
    have hr' (m : ℕ) : (addCounts r a m).success ≤ (addCounts r a m).attempts := by
      have := hr m
      rw [hstep]
      dsimp only
      split <;> omega
    rw [foldl_cons, counted_eq hr' hfit' n, hstep, htot, htot]
    dsimp only
    rw [Nat.add_assoc, Nat.add_assoc]

theorem totalOf_success_le {as : List AddedCounts} (h : ∀ a ∈ as, a.success ≤ a.attempts) (n : ℕ) :
    totalOf AddedCounts.success n as ≤ totalOf AddedCounts.attempts n as :=
  sum_le_sum fun a ha => h a (mem_of_mem_filter ha)

theorem Fits.inRange {as : List AddedCounts} {r : ℕ → RateStats} (hr : ∀ n, (r n).InRange) (h : Fits r as) (n : ℕ) :
    (as.foldl addCounts r n).InRange := by
  have hle := totalOf_success_le h.2 n
  have hsuccess := (hr n).success
  rw [counted_eq (fun n => (hr n).success) h]
  exact ⟨by dsimp only; omega, h.1 n, (hr n).prob⟩

/-- The last rate that was tried, in the legacy algorithm. -/
def MinstrelStaInfo.lastUsed (mi : MinstrelStaInfo) (rates : List TxRate) : Option ℕ :=
  (rates.takeWhile fun ar => 0 ≤ ar.idx).getLast?.bind fun ar => mi.rixToNdx ar.idx.toNat

theorem totalOf_added_legacy {mi : MinstrelStaInfo} {success : ℕ} (n : ℕ) : ∀ rates : List TxRate,
    success = 0 ∨ (rates.takeWhile fun ar => 0 ≤ ar.idx).length < rates.length →
    totalOf AddedCounts.success n (mi.added success rates) = if mi.lastUsed rates = some n then success else 0
  | [], _ => rfl
  | ar :: rest, h => by
    rw [MinstrelStaInfo.added, MinstrelStaInfo.lastUsed, takeWhile_cons]
    by_cases hidx : ar.idx < 0
    · simp [hidx, not_le.2 hidx, totalOf]
    · have hidx' : 0 ≤ ar.idx := Int.not_lt.1 hidx
      have ih := @totalOf_added_legacy mi success n rest
      rw [MinstrelStaInfo.lastUsed] at ih
      simp only [takeWhile_cons, decide_eq_true hidx', if_true, length_cons, Nat.add_lt_add_iff_right] at h
      cases rest with
      | nil =>
        have hzero : success = 0 := by simpa using h
        cases hndx : mi.rixToNdx ar.idx.toNat with
        | none => simp [hidx, hidx', hndx, totalOf, MinstrelStaInfo.added]
        | some m => by_cases hm : m = n <;> simp [hidx, hidx', hndx, hzero, hm, totalOf, MinstrelStaInfo.added]
      | cons next rest =>
        by_cases hnext : next.idx < 0
        · cases hndx : mi.rixToNdx ar.idx.toNat with
          | none => simp [hidx, hidx', hndx, hnext, totalOf, MinstrelStaInfo.added]
          | some m => by_cases hm : m = n <;> simp [hidx, hidx', hndx, hnext, hm, totalOf, MinstrelStaInfo.added]
        · have hlast : ((next :: rest).takeWhile fun ar => decide (0 ≤ ar.idx)) =
              next :: rest.takeWhile fun ar => decide (0 ≤ ar.idx) := by
            rw [takeWhile_cons, if_pos (decide_eq_true (Int.not_lt.1 hnext))]
          have ih := ih h
          rw [hlast] at ih ⊢
          rw [if_neg hidx, if_pos (decide_eq_true hidx'), getLast?_cons_cons, ← ih]
          cases mi.rixToNdx ar.idx.toNat with
          | none => rfl
          | some m => by_cases hm : m = n <;> simp [totalOf, hm, hnext]

/-- The last rate that was tried, if it is one of those that are counted. -/
def lastUsedHt (mp : MinstrelPriv) (rates : List TxRate) : Option TxRate :=
  (rates.takeWhile fun ar => 0 ≤ ar.idx).getLast?.filter (minstrelHtTxstatValid mp)

theorem totalOf_added_ht {len ack : ℕ} (n : ℕ) : ∀ rates : List TxRate,
    totalOf AddedCounts.success n (mi.added mp len ack rates) =
      if (rates.takeWhile (minstrelHtTxstatValid mp)).getLast?.map (minstrelHtGetStats mp mi) = some n then ack else 0
  | [] => rfl
  | ar :: rest => by
    rw [MinstrelHtSta.added, takeWhile_cons]
    cases hvalid : minstrelHtTxstatValid mp ar with
    | false => simp [totalOf]
    | true =>
      have ih := @totalOf_added_ht len ack n rest
      cases rest with
      | nil => by_cases hm : minstrelHtGetStats mp mi ar = n <;> simp [totalOf, MinstrelHtSta.added, hm]
      | cons next rest =>
        cases hnext : minstrelHtTxstatValid mp next with
        | false =>
          by_cases hm : minstrelHtGetStats mp mi ar = n <;> simp [totalOf, MinstrelHtSta.added, hm, hnext]
        | true =>
          rw [takeWhile_cons, if_pos hnext] at ih ⊢
          rw [if_neg (by simp), if_pos rfl, getLast?_cons_cons, ← ih]
          by_cases hm : minstrelHtGetStats mp mi ar = n <;> simp [totalOf, hm, hnext]

/-! ### Runs -/

/-- `struct minstrel_ht_sta_priv`: one of the two algorithms is in use. -/
inductive MinstrelSta
  | ht (mi : MinstrelHtSta)
  | legacy (mi : MinstrelStaInfo)

/-- A status, and whether it is time for an update. -/
structure StatusEvent where
  st : TxReport
  due : Bool
  random : ℕ

/-- A frame has been sent. -/
def statusStep (mp : MinstrelPriv) : MinstrelSta → StatusEvent → Option (MinstrelSta × List Unit)
  | .ht mi, e => some (.ht (mi.minstrelHtTxStatus mp e.random e.st e.due).1, [])
  | .legacy mi, e => some (.legacy (mi.minstrelTxStatus e.st e.due), [])

/-- There are fewer than 65536 attempts. Frames in an A-MPDU count for one at least and the
interval's sum can be shifted; an acknowledged one has not used a rate that is not counted next to
one that is, or, in the legacy algorithm, all four entries. -/
def StatusOk (mp : MinstrelPriv) : MinstrelSta → StatusEvent → Prop
  | .ht mi, e => ¬(e.st.ctlAmpdu && !e.st.statAmpdu) →
    (∀ n, (mi.rates n).attempts + totalOf AddedCounts.attempts n
      (mi.added mp (ampduLens e.st).1 (ampduLens e.st).2 e.st.rates) < 2 ^ 16) ∧
    mi.ampduPackets + 1 ≤ mi.ampduLen + (ampduLens e.st).1 ∧ mi.ampduLen + (ampduLens e.st).1 < 2 ^ 20 ∧
    ((ampduLens e.st).2 ≠ 0 → (e.st.rates.takeWhile (minstrelHtTxstatValid mp)).getLast? = lastUsedHt mp e.st.rates)
  | .legacy mi, e =>
    (∀ n, (mi.stats n).attempts + totalOf AddedCounts.attempts n (mi.added e.st.ack.toNat e.st.rates) < 2 ^ 16) ∧
    (e.st.ack → (e.st.rates.takeWhile fun ar => 0 ≤ ar.idx).length < 4)

/-- Of all rates the last one used, and no other, has the success. -/
def RaisesLast (mp : MinstrelPriv) : MinstrelSta → TxReport → Prop
  | .ht mi, st => ¬(st.ctlAmpdu && !st.statAmpdu) → ∀ n, ((mi.counted mp st).rates n).success = (mi.rates n).success +
    if (lastUsedHt mp st.rates).map (minstrelHtGetStats mp mi) = some n then (ampduLens st).2 else 0
  | .legacy mi, st => ∀ n, ((mi.counted st).stats n).success =
    (mi.stats n).success + if mi.lastUsed st.rates = some n then st.ack.toNat else 0

/-- Probabilities are fractions, and nothing is divided by zero: a rate that is not supported is not
worth a division. -/
def StatsInRange : MinstrelSta → Prop
  | .ht mi => (∀ n, mi.prob n ≤ minstrelFrac 1 1) ∧ mi.avgLen ≠ 0 ∧
    (∀ n < 10 * minstrelGroupsNb, mi.Supports n → mi.nsecs n ≠ 0) ∧
    ∀ n, ¬(n < 10 * minstrelGroupsNb ∧ mi.Supports n) → mi.prob n < minstrelFrac 10 100
  | .legacy mi => (∀ n, (mi.stats n).probEwma ≤ minstrelFrac 1 1) ∧ ∀ n, mi.usecs n ≠ 0

/-- The supported rates exist, and the time for what is no data is short. -/
structure MinstrelHtSta.Wf (mi : MinstrelHtSta) : Prop where
  overhead : mi.overhead < 2 ^ 20
  masks : ∀ n < 10 * minstrelGroupsNb, mi.Supports n → n % 10 < (minstrelMcsGroups (n / 10)).duration.length

/-- A new peer: what `minstrel_ht_update_caps` makes, with a first update, or a legacy one. -/
def MinstrelSta.Initial (mp : MinstrelPriv) : MinstrelSta → Prop
  | .ht mi => ∃ (mi₀ : MinstrelHtSta) (random : ℕ), mi₀.Wf ∧ mi₀.rates = (fun _ => {}) ∧
    mi₀.avgAmpduLen = minstrelFrac 1 1 ∧ mi₀.ampduLen = 0 ∧ mi₀.ampduPackets = 0 ∧
    mi = mi₀.minstrelHtUpdateStats mp random true
  | .legacy mi => mi.stats = fun _ => {}

/-- What holds of an HT peer. -/
structure MinstrelHtSta.Inv (mp : MinstrelPriv) (mi : MinstrelHtSta) : Prop extends mi.Wf where
  rates : ∀ n, (mi.rates n).InRange
  idle : ∀ n, ¬(n < 10 * minstrelGroupsNb ∧ mi.Supports n) → mi.prob n = 0
  avg : 2 ^ 12 ≤ mi.avgAmpduLen ∧ mi.avgAmpduLen ≤ 2 ^ 20 ∨ mp.noAmpduLen = true ∧ mi.avgAmpduLen = 0
  packets : mi.ampduPackets ≤ mi.ampduLen
  len : mi.ampduLen ≤ 255 * mi.ampduPackets ∧ mi.ampduLen < 2 ^ 20

theorem MinstrelHtSta.Inv.congr (h : mi.Inv mp) (hrates : mi'.rates = mi.rates) (hsupp : mi'.supported = mi.supported)
    (hover : mi'.overhead = mi.overhead) (havg : mi'.avgAmpduLen = mi.avgAmpduLen)
    (hlen : mi'.ampduLen = mi.ampduLen) (hpackets : mi'.ampduPackets = mi.ampduPackets) : mi'.Inv mp := by
  have hs (n : ℕ) : mi'.Supports n ↔ mi.Supports n := by rw [Supports, hsupp, Supports]
  refine ⟨⟨hover ▸ h.overhead, fun n hn hn' => h.masks n hn ((hs n).1 hn')⟩, fun n => hrates ▸ h.rates n,
    fun n hn => ?_, havg ▸ h.avg, ?_, ?_⟩
  · rw [prob, hrates]
    exact h.idle n (by rwa [hs] at hn)
  · rw [hlen, hpackets]
    exact h.packets
  · rw [hlen, hpackets]
    exact h.len

theorem MinstrelHtSta.Inv.update (h : mi.Inv mp) (random : ℕ) (sample : Bool) :
    (mi.minstrelHtUpdateStats mp random sample).Inv mp := by
  have hupto := upto_updateStats mp random mi sample
  generalize mi.minstrelHtUpdateStats mp random sample = mi' at hupto ⊢
  have hrates (n : ℕ) : mi'.rates n =
      if n < 10 * minstrelGroupsNb ∧ mi.Supports n then minstrelCalcRateStats (mi.rates n) else mi.rates n := by
    rw [hupto.rates, settled, Nat.mul_comm minstrelGroupsNb 10]
    dsimp only
    split
    · rfl
    · rw [if_neg (by omega)]
  refine ⟨⟨hupto.overhead ▸ h.overhead, fun n hn hn' => h.masks n hn ((hupto.supports n).1 hn')⟩, fun n => ?_,
    fun n hn => ?_, ?_, ?_, ?_⟩
  · rw [hrates]
    split
    · exact (h.rates n).calc
    · exact h.rates n
  · rw [hupto.supports] at hn
    rw [prob, hrates, if_neg hn]
    exact h.idle n hn
  · rw [hupto.avg, startUpdate]
    dsimp only
    split
    · exact h.avg
    · rename_i hpackets
      split
      · rename_i hno
        exact .inr ⟨hno, rfl⟩
      · rename_i hno
        obtain havg | ⟨hno', -⟩ := h.avg
        · have hx : 2 ^ 12 ≤ minstrelFrac mi.ampduLen mi.ampduPackets ∧
              minstrelFrac mi.ampduLen mi.ampduPackets ≤ 2 ^ 20 := by
            have := h.len
            rw [minstrelFrac, Nat.mod_eq_of_lt (by omega)]
            exact ⟨(Nat.le_div_iff_mul_le (by omega)).2 (by have := h.packets; omega),
              Nat.div_le_of_le_mul (by omega)⟩
          obtain ⟨hlow, hhigh⟩ := minstrelEwma_mem le_rfl havg hx
          rw [Int.emod_eq_of_lt (by omega) (by omega)]
          exact .inl ⟨by omega, by omega⟩
        · exact absurd hno' hno
  · rw [hupto.ampdu.2]
    exact Nat.zero_le _
  · have := h.len
    rw [hupto.ampdu.1, hupto.ampdu.2, startUpdate]
    dsimp only
    split <;> omega

theorem success_le_ht {len ack : ℕ} (hack : ack ≤ len) {a : AddedCounts} : ∀ {rates : List TxRate},
    a ∈ mi.added mp len ack rates → a.success ≤ a.attempts
  | [], h => by cases h
  | ar :: rest, h => by
    rw [MinstrelHtSta.added] at h
    split at h
    · cases h
    · rename_i hvalid
      rcases mem_cons.1 h with rfl | h
      · have hcount : ar.count ≠ 0 := fun hzero => by simp [minstrelHtTxstatValid, hzero] at hvalid
        dsimp only
        split
        · exact hack.trans (Nat.le_mul_of_pos_left _ (Nat.pos_of_ne_zero hcount))
        · exact Nat.zero_le _
      · exact success_le_ht hack h

theorem success_le_legacy {mi : MinstrelStaInfo} {ack : Bool} {a : AddedCounts} : ∀ {rates : List TxRate},
    (∀ ar ∈ rates, 0 ≤ ar.idx → 1 ≤ ar.count) → a ∈ mi.added ack.toNat rates → a.success ≤ a.attempts
  | [], _, h => by cases h
  | ar :: rest, hcount, h => by
    have ih (h : a ∈ mi.added ack.toNat rest) := success_le_legacy (fun ar har =>
      hcount ar (mem_cons_of_mem _ har)) h
    rw [MinstrelStaInfo.added] at h
    split at h
    · cases h
    · rename_i hidx
      split at h
      · exact ih h
      · rcases mem_cons.1 h with rfl | h
        · have hone := hcount ar mem_cons_self (Int.not_lt.1 hidx)
          have hack := Bool.toNat_le ack
          dsimp only
          split <;> omega
        · exact ih h

theorem TxReport.Plausible.ampduLens_le (h : st.Plausible) :
    (ampduLens st).2 ≤ (ampduLens st).1 ∧ (ampduLens st).1 ≤ 255 := by
  rw [ampduLens]
  split
  · exact ⟨h.ack, Nat.le_of_lt_succ st.len⟩
  · exact ⟨Bool.toNat_le _, Nat.le_of_ble_eq_true rfl⟩

variable {e : StatusEvent}

theorem MinstrelHtSta.Inv.status (h : mi.Inv mp) (hst : e.st.Plausible) (hok : StatusOk mp (.ht mi) e) :
    (mi.minstrelHtTxStatus mp e.random e.st e.due).1.Inv mp := by
  refine minstrelHtTxStatus_induct (fun mi => mi.Inv mp) h (fun hcarries => ?_)
    (fun _ hs => hs.congr rfl rfl rfl rfl rfl rfl) (fun _ sample hs => hs.update e.random sample) fun _ n s hs => ?_
  · obtain ⟨hattempts, hone, hsum, -⟩ := hok hcarries
    obtain ⟨hack, hlen⟩ := hst.ampduLens_le
    have := h.len
    have := h.packets
    have hfit : Fits mi.rates (mi.added mp (ampduLens e.st).1 (ampduLens e.st).2 e.st.rates) :=
      ⟨hattempts, fun a ha => success_le_ht hack ha⟩
    have hinv : MinstrelHtSta.Inv mp { mi with
        ampduPackets := (mi.ampduPackets + 1) % 2 ^ 32
        ampduLen := (mi.ampduLen + (ampduLens e.st).1) % 2 ^ 32
        rates := (mi.added mp (ampduLens e.st).1 (ampduLens e.st).2 e.st.rates).foldl addCounts mi.rates } := by
      refine ⟨⟨h.overhead, h.masks⟩, Fits.inRange h.rates hfit, fun n hn => ?_, h.avg, ?_, ?_⟩
      · have hprob := congrArg RateStats.probEwma (counted_eq (fun n => (h.rates n).success) hfit n)
        exact hprob.trans (h.idle n hn)
      · dsimp only
        omega
      · dsimp only
        omega
    rw [MinstrelHtSta.counted]
    dsimp only
    split
    · exact hinv.congr rfl rfl rfl rfl rfl rfl
    · exact hinv
  · rw [checkSuddenDeath]
    split
    · exact hs.congr rfl rfl rfl rfl rfl rfl
    · exact hs

theorem minstrelGetDuration_pos : ∀ g < minstrelGroupsNb, ∀ i < (minstrelMcsGroups g).duration.length,
    0 < minstrelGetDuration (10 * g + i) ∧ minstrelGetDuration (10 * g + i) < 2 ^ 31 := by
  decide +kernel

theorem MinstrelHtSta.Inv.avgLen_pos (h : mi.Inv mp) : 0 < mi.avgLen := by
  rw [avgLen, minstrelTrunc]
  rcases h.avg with havg | ⟨-, hzero⟩
  · rw [if_neg (by omega)]
    omega
  · rw [if_pos hzero]
    decide

theorem MinstrelHtSta.Inv.nsecs_pos (h : mi.Inv mp) {n : ℕ} (hlt : n < 10 * minstrelGroupsNb)
    (hs : mi.Supports n) : 0 < mi.nsecs n := by
  obtain ⟨hpos, hmax⟩ := minstrelGetDuration_pos (n / 10) (Nat.div_lt_of_lt_mul hlt) (n % 10) (h.masks n hlt hs)
  rw [Nat.div_add_mod] at hpos hmax
  have hover := h.overhead
  have hdata : (if n / 10 ≠ cckGroupIdx then 1000 * mi.overhead % 2 ^ 32 / mi.avgLen else 0) ≤ 1000 * mi.overhead := by
    split
    · exact (Nat.div_le_self _ _).trans (Nat.mod_le _ _)
    · exact Nat.zero_le _
  rw [nsecs, Nat.mod_eq_of_lt (by omega)]
  omega

/-- What holds of a peer. -/
def MinstrelSta.Inv (mp : MinstrelPriv) : MinstrelSta → Prop
  | .ht mi => mi.Inv mp
  | .legacy mi => ∀ n, (mi.stats n).InRange

variable {s : MinstrelSta}

theorem MinstrelSta.Initial.inv (h : s.Initial mp) : s.Inv mp := by
  have hnew : (⟨0, 0, 0, 0, 0⟩ : RateStats).InRange := ⟨le_rfl, Nat.two_pow_pos 16, Nat.zero_le _⟩
  cases s with
  | legacy mi =>
    intro n
    rw [show mi.stats = _ from h]
    exact hnew
  | ht mi =>
    obtain ⟨mi₀, random, hwf, hrates, havg, hlen, hpackets, rfl⟩ := h
    refine MinstrelHtSta.Inv.update ⟨hwf, fun n => ?_, fun n _ => ?_, .inl ?_, ?_, ?_⟩ random true
    · rw [hrates]
      exact hnew
    · rw [prob, hrates]
    · rw [havg]
      decide
    · rw [hpackets]
      exact Nat.zero_le _
    · rw [hlen, hpackets]
      decide

theorem MinstrelSta.Inv.step {s s' : MinstrelSta} {o : List Unit} (h : s.Inv mp) (hst : e.st.Plausible)
    (hok : StatusOk mp s e) (hstep : statusStep mp s e = some (s', o)) : s'.Inv mp := by
  cases s with
  | ht mi =>
    cases hstep
    exact MinstrelHtSta.Inv.status h hst hok
  | legacy mi =>
    cases hstep
    have hcounted (n : ℕ) : ((mi.counted e.st).stats n).InRange :=
      Fits.inRange h ⟨hok.1, fun a ha => success_le_legacy hst.count ha⟩ n
    intro n
    rw [MinstrelStaInfo.minstrelTxStatus]
    split
    · rw [MinstrelStaInfo.minstrelUpdateStats]
      dsimp only
      split
      · exact (hcounted n).calc
      · exact hcounted n
    · exact hcounted n

theorem MinstrelSta.Inv.statsInRange (h : s.Inv mp) : StatsInRange s := by
  cases s with
  | ht mi =>
    refine ⟨fun n => (MinstrelHtSta.Inv.rates h n).prob, (MinstrelHtSta.Inv.avgLen_pos h).ne',
      fun n hn hs => (MinstrelHtSta.Inv.nsecs_pos h hn hs).ne', fun n hn => ?_⟩
    rw [MinstrelHtSta.Inv.idle h n hn]
    decide
  | legacy mi =>
    refine ⟨fun n => (h n).prob, fun n => ?_⟩
    rw [MinstrelStaInfo.usecs]
    split
    · decide
    · rename_i hne
      exact hne

theorem MinstrelSta.Inv.raisesLast (h : s.Inv mp) (hst : e.st.Plausible) (hok : StatusOk mp s e) :
    RaisesLast mp s e.st := by
  cases s with
  | ht mi =>
    intro hcarries n
    obtain ⟨hattempts, -, -, hlast⟩ := hok hcarries
    have hrates : (mi.counted mp e.st).rates =
        (mi.added mp (ampduLens e.st).1 (ampduLens e.st).2 e.st.rates).foldl addCounts mi.rates := by
      rw [MinstrelHtSta.counted]
      split <;> rfl
    rw [hrates, counted_eq (fun n => (MinstrelHtSta.Inv.rates h n).success)
      ⟨hattempts, fun a ha => success_le_ht hst.ampduLens_le.1 ha⟩]
    dsimp only
    rw [totalOf_added_ht]
    by_cases hack : (ampduLens e.st).2 = 0
    · rw [hack, ite_self, ite_self]
    · rw [hlast hack]
  | legacy mi =>
    intro n
    rw [MinstrelStaInfo.counted]
    dsimp only
    rw [counted_eq (fun n => (h n).success)
      ⟨hok.1, fun a ha => success_le_legacy hst.count ha⟩]
    dsimp only
    rw [totalOf_added_legacy n]
    cases hack : e.st.ack with
    | false => exact .inl rfl
    | true =>
      rw [e.st.length]
      exact .inr (hok.2 hack)

/-- **Statistics in range**: however many statuses there were, if each is one that the counters take. -/
theorem statsRight_of_reach {s₀ s : MinstrelSta} {os : List Unit} (h0 : s₀.Initial mp)
    (h : Machine.Reach (statusStep mp) (fun s _ e => e.st.Plausible ∧ StatusOk mp s e) s₀ s os) :
    StatsInRange s ∧ ∀ e, e.st.Plausible → StatusOk mp s e → RaisesLast mp s e.st := by
  have hinv : s.Inv mp := h.invariant (fun s _ => s.Inv mp) h0.inv fun _ _ _ _ _ hinv hok hstep =>
    hinv.step hok.1 hok.2 hstep
  exact ⟨hinv.statsInRange, fun _ hst hok => hinv.raisesLast hst hok⟩

/-- A peer with the rates of one stream. -/
def oneStream : MinstrelHtSta where
  overhead := 100
  supported := fun group => if group = 0 then 255 else 0

/-- A peer with four rates. -/
def fourRates : MinstrelStaInfo where
  nRates := 4
  rix := fun ndx => ndx
  perfectTxTime := fun _ => 1000

/-- A frame that was acknowledged at once. -/
def atOnce : TxReport where
  ack := true
  rates := [{ idx := 3, count := 1 }, {}, {}, {}]

/-- A frame that was acknowledged at last. -/
def atLast : TxReport where
  ack := true
  rates := [{ idx := 3, count := 1 }, { idx := 2, count := 1 }, { idx := 1, count := 1 }, { idx := 0, count := 1 }]

/-- A frame that was acknowledged at the first MCS. -/
def firstMcs : TxReport where
  ack := true
  rates := [{ idx := 0, count := 1, mcs := true }, {}, {}, {}]

/-- An A-MPDU of no frames. -/
def noFrames : TxReport where
  ack := false
  ctlAmpdu := true
  statAmpdu := true
  rates := [{ idx := 0, count := 1, mcs := true }, {}, {}, {}]

/-- The peer, when it is new. -/
def newPeer : MinstrelHtSta := oneStream.minstrelHtUpdateStats { maxRates := 1 } 0 true

theorem newPeer_initial : (MinstrelSta.ht newPeer).Initial { maxRates := 1 } :=
  ⟨oneStream, 0, ⟨by decide, by decide +kernel⟩, rfl, rfl, rfl, rfl, rfl⟩

theorem atOnce_ok : StatusOk { maxRates := 1 } (.legacy fourRates) ⟨atOnce, true, 0⟩ := by
  refine ⟨fun n => ?_, by decide⟩
  rw [show fourRates.added atOnce.ack.toNat atOnce.rates = [⟨3, 1, 1⟩] from rfl]
  by_cases hn : 3 = n
  · simp [totalOf, hn, fourRates]
  · simp [totalOf, hn, fourRates]

theorem newPeer_attempts (n : ℕ) : (newPeer.rates n).attempts = 0 := by
  rw [newPeer, (upto_updateStats { maxRates := 1 } 0 oneStream true).rates, settled]
  dsimp only
  split_ifs <;> rfl

theorem firstMcs_ok : StatusOk { maxRates := 1 } (.ht newPeer) ⟨firstMcs, true, 0⟩ := by
  refine fun _ => ⟨fun n => ?_, by decide +kernel, by decide +kernel, fun _ => rfl⟩
  rw [show newPeer.added { maxRates := 1 } (ampduLens firstMcs).1 (ampduLens firstMcs).2 firstMcs.rates =
    [⟨0, 1, 1⟩] from rfl, newPeer_attempts]
  by_cases hn : 0 = n
  · subst hn
    decide
  · simp [totalOf, hn]

theorem statsRight_new : StatsInRange (.ht (newPeer.minstrelHtTxStatus { maxRates := 1 } 0 firstMcs true).1) ∧
    StatsInRange (.legacy (fourRates.minstrelTxStatus atOnce true)) :=
  ⟨(statsRight_of_reach newPeer_initial (.step .init ⟨⟨by decide, by decide⟩, firstMcs_ok⟩ rfl)).1,
    (statsRight_of_reach (show (MinstrelSta.legacy fourRates).Initial { maxRates := 1 } from rfl)
      (.step .init ⟨⟨by decide, by decide⟩, atOnce_ok⟩ rfl)).1⟩

/-- The fourth entry is not taken for the last, and an A-MPDU of no frames makes the average length zero. -/
theorem fourth_not_raised : (MinstrelSta.legacy fourRates).Initial { maxRates := 1 } ∧ atLast.Plausible ∧
    ¬RaisesLast { maxRates := 1 } (.legacy fourRates) atLast ∧ (MinstrelSta.ht newPeer).Initial { maxRates := 1 } ∧
    noFrames.Plausible ∧ (newPeer.minstrelHtTxStatus { maxRates := 1 } 0 noFrames true).1.avgLen = 0 :=
  ⟨rfl, ⟨by decide, by decide⟩, fun h => absurd (h 0) (by decide), newPeer_initial, ⟨by decide, by decide⟩,
    by decide +kernel⟩

end Mac80211
