import Mathlib.Tactic.Ring
import Mac80211.Mesh.Peering

/-!
# The airtime link metric

`airtime_link_metric_get` of `mesh_hwmp.c`: the time a test frame takes, times the number of times
it has to be sent, with eight fractional bits. The product of the two factors is a `u32`; only the
result of the shift is a `u64`. It fits exactly from a rate on, `airtimeMinRate`, that depends on
the losses alone.

## Main results

* `airtimeRight_iff` — when better links have smaller metrics
-/

namespace Mac80211

/-- `ARITH_SHIFT`. -/
def arithShift : ℕ := 8

/-- `TEST_FRAME_LEN`. -/
def testFrameLen : ℤ := 8192

/-- `LINK_FAIL_THRESH`. -/
def linkFailThresh : UInt64 := 95

/-- `MAX_METRIC`. -/
def MAX_METRIC : UInt32 := 0xffffffff

/-- What the metric reads of a `struct sta_info`. -/
structure MeshLink where
  plinkState : PlinkState
  /-- `ewma_mesh_fail_avg_read(&mesh->fail_avg)`. -/
  failAvg : UInt64
  /-- `ewma_mesh_tx_rate_avg_read(&mesh->tx_rate_avg)`. -/
  txRateAvg : UInt64
  /-- `sta_get_expected_throughput`. -/
  expectedThroughput : UInt32

/-- An `unsigned long` put into an `int`. -/
def intOfULong (x : UInt64) : ℤ := (x.toNat : ℤ).bmod (2 ^ 32)

/-- `tx_time`; C rounds a quotient towards zero. -/
def airtimeTxTime (rate : ℤ) : UInt32 :=
  UInt32.ofInt (2 ^ arithShift + (10 * (testFrameLen * 2 ^ arithShift)).tdiv rate)

/-- `estimated_retx`. -/
def airtimeRetx (err : ℤ) : UInt32 :=
  UInt32.ofInt ((2 ^ (2 * arithShift) : ℤ).tdiv (2 ^ arithShift - err))

/-- The end of `airtime_link_metric_get`; nothing if it divides by 0. -/
def airtimeMetric (rate err : ℤ) : Option UInt32 :=
  if rate = 0 ∨ (2 ^ arithShift : ℤ) - err = 0 then none
  else
    -- the product is a `u32`, and it is converted afterwards
    let result : UInt64 := (airtimeTxTime rate * airtimeRetx err).toUInt64 >>> 16
    some result.toUInt32

/-- `DIV_ROUND_UP(sta_get_expected_throughput(sta), 100)`, in `u32`. -/
def MeshLink.throughputRate (sta : MeshLink) : ℤ := ((sta.expectedThroughput + 100 - 1) / 100).toNat

/-- `(fail_avg << ARITH_SHIFT) / 100`. -/
def MeshLink.err (sta : MeshLink) : ℤ := intOfULong ((sta.failAvg <<< 8) / 100)

/-- `airtime_link_metric_get`; nothing if it divides by 0. -/
def airtimeLinkMetricGet (sta : MeshLink) : Option UInt32 :=
  if sta.plinkState ≠ .estab then some MAX_METRIC
  else if sta.throughputRate ≠ 0 then airtimeMetric sta.throughputRate 0
  else if sta.failAvg > linkFailThresh then some MAX_METRIC
  else if intOfULong sta.txRateAvg = 0 then some MAX_METRIC
  else airtimeMetric (intOfULong sta.txRateAvg) sta.err

/-! ### What it is computed from -/

/-- The rate of a link, in units of 100 kbit/s. -/
def MeshLink.rate (sta : MeshLink) : ℤ :=
  if sta.throughputRate ≠ 0 then sta.throughputRate else intOfULong sta.txRateAvg

/-- The failures, of 100 frames; an expected throughput has them in it already. -/
def MeshLink.fail (sta : MeshLink) : ℕ := if sta.throughputRate ≠ 0 then 0 else sta.failAvg.toNat

/-- An established link with a rate, and no more failures than are put up with. -/
structure MeshLink.Measured (sta : MeshLink) : Prop where
  estab : sta.plinkState = .estab
  rate_pos : 1 ≤ sta.rate
  fail_le : sta.fail ≤ linkFailThresh.toNat

/-- The `err` the metric is computed with. -/
def MeshLink.usedErr (sta : MeshLink) : ℤ := if sta.throughputRate ≠ 0 then 0 else sta.err

/-- The metric is computed without overflow or a division by 0, and no link that is as fast, and
loses no more, has a greater one. -/
structure AirtimeRight (sta : MeshLink) : Prop where
  defined : (airtimeLinkMetricGet sta).isSome
  exact : (airtimeTxTime sta.rate).toNat * (airtimeRetx sta.usedErr).toNat < 2 ^ 32
  mono : ∀ sta', sta'.Measured → sta.rate ≤ sta'.rate → sta'.fail ≤ sta.fail →
    ∀ m m', airtimeLinkMetricGet sta = some m → airtimeLinkMetricGet sta' = some m' → m' ≤ m

/-! ### The two factors as numbers -/

/-- `tx_time`. -/
def txTimeAt (rate : ℕ) : ℕ := 256 + 20971520 / rate

/-- `estimated_retx`. -/
def retxAt (fail : ℕ) : ℕ := 65536 / (256 - fail * 256 / 100)

/-- The rate from which on the product fits, in units of 100 kbit/s. -/
def airtimeMinRate (fail : ℕ) : ℕ := 20971520 / ((2 ^ 32 - 1) / retxAt fail - 255) + 1

theorem toNat_ofInt_natCast {n : ℕ} (h : n < 2 ^ 32) : (UInt32.ofInt n).toNat = n := by
  have hmod : (n : ℤ) % 2 ^ 32 = n := Int.emod_eq_of_lt (by omega) (by exact_mod_cast h)
  rw [UInt32.ofInt, hmod, Int.toNat_natCast, UInt32.toNat_ofNat', Nat.mod_eq_of_lt h]

theorem toNat_airtimeTxTime (rate : ℕ) : (airtimeTxTime rate).toNat = txTimeAt rate := by
  have hle : 20971520 / rate ≤ 20971520 := Nat.div_le_self _ _
  have hint : (2 ^ arithShift + (10 * (testFrameLen * 2 ^ arithShift)).tdiv rate : ℤ)
      = ((txTimeAt rate : ℕ) : ℤ) := by
    have h10 : (10 * (testFrameLen * 2 ^ arithShift) : ℤ) = ((20971520 : ℕ) : ℤ) := by decide
    rw [h10, ← Int.ofNat_tdiv, txTimeAt, arithShift]
    push_cast
    rfl
  rw [airtimeTxTime, hint]
  exact toNat_ofInt_natCast (by rw [txTimeAt]; omega)

theorem toNat_airtimeRetx {fail : ℕ} (h : fail ≤ 95) :
    (airtimeRetx ((fail * 256 / 100 : ℕ) : ℤ)).toNat = retxAt fail := by
  have hint : ((2 ^ (2 * arithShift) : ℤ).tdiv (2 ^ arithShift - ((fail * 256 / 100 : ℕ) : ℤ)))
      = ((retxAt fail : ℕ) : ℤ) := by
    have h16 : (2 ^ (2 * arithShift) : ℤ) = ((65536 : ℕ) : ℤ) := by decide
    have hsub : (2 ^ arithShift : ℤ) - ((fail * 256 / 100 : ℕ) : ℤ)
        = ((256 - fail * 256 / 100 : ℕ) : ℤ) := by
      rw [Nat.cast_sub (by omega), arithShift]
      rfl
    rw [h16, hsub, ← Int.ofNat_tdiv, retxAt]
  rw [airtimeRetx, hint]
  refine toNat_ofInt_natCast ((Nat.div_le_self _ _).trans_lt (by decide))

theorem txTimeAt_anti {r r' : ℕ} (hr : 0 < r) (h : r ≤ r') : txTimeAt r' ≤ txTimeAt r :=
  Nat.add_le_add_left (Nat.div_le_div_left h hr) 256

theorem retxAt_mono {f f' : ℕ} (hf : f ≤ 95) (h : f' ≤ f) : retxAt f' ≤ retxAt f := by
  refine Nat.div_le_div_left ?_ (by omega)
  exact Nat.sub_le_sub_left (Nat.div_le_div_right (Nat.mul_le_mul_right 256 h)) 256

/-- For every amount of failures the second factor is between 256 and 5041. -/
theorem retxAt_bounds {f : ℕ} (hf : f ≤ 95) : 256 ≤ retxAt f ∧ retxAt f ≤ 5041 :=
  ⟨(by decide +kernel : 256 ≤ retxAt 0).trans (retxAt_mono hf (Nat.zero_le f)),
    (retxAt_mono (le_refl 95) hf).trans (by decide +kernel)⟩

/-- **The bound.** The product fits exactly from the bound on. -/
theorem product_lt_iff {rate fail : ℕ} (hr : 0 < rate) (hf : fail ≤ 95) :
    txTimeAt rate * retxAt fail < 2 ^ 32 ↔ airtimeMinRate fail ≤ rate := by
  obtain ⟨hlo, hhi⟩ := retxAt_bounds hf
  have hpos : 0 < retxAt fail := by omega
  have hroom : 256 ≤ (2 ^ 32 - 1) / retxAt fail := by
    rw [Nat.le_div_iff_mul_le hpos]
    omega
  have hroom' : 0 < (2 ^ 32 - 1) / retxAt fail - 255 := by omega
  calc txTimeAt rate * retxAt fail < 2 ^ 32
      ↔ txTimeAt rate * retxAt fail ≤ 2 ^ 32 - 1 := by omega
    _ ↔ 256 + 20971520 / rate ≤ (2 ^ 32 - 1) / retxAt fail := (Nat.le_div_iff_mul_le hpos).symm
    _ ↔ 20971520 / rate < (2 ^ 32 - 1) / retxAt fail - 255 := by omega
    _ ↔ 20971520 < ((2 ^ 32 - 1) / retxAt fail - 255) * rate := Nat.div_lt_iff_lt_mul hr
    _ ↔ 20971520 < rate * ((2 ^ 32 - 1) / retxAt fail - 255) := by rw [Nat.mul_comm]
    _ ↔ 20971520 / ((2 ^ 32 - 1) / retxAt fail - 255) < rate := (Nat.div_lt_iff_lt_mul hroom').symm
    _ ↔ airtimeMinRate fail ≤ rate := Iff.rfl

/-! ### The metric of a link -/

theorem bmod_eq_of_lt {n : ℕ} (h : n < 2 ^ 31) : (n : ℤ).bmod (2 ^ 32) = n := by
  rw [Int.bmod_eq_of_le]
  · omega
  · omega

theorem intOfULong_eq {x : UInt64} (h : x.toNat < 2 ^ 31) : intOfULong x = x.toNat :=
  bmod_eq_of_lt h

theorem toNat_err {failAvg : UInt64} (h : failAvg.toNat ≤ 95) :
    ((failAvg <<< 8) / 100).toNat = failAvg.toNat * 256 / 100 := by
  have h8 : UInt64.toNat 8 % 64 = 8 := rfl
  have h100 : UInt64.toNat 100 = 100 := rfl
  have hshift : (failAvg <<< 8).toNat = failAvg.toNat * 256 := by
    rw [UInt64.toNat_shiftLeft, h8, Nat.shiftLeft_eq]
    omega
  rw [UInt64.toNat_div, hshift, h100]

theorem err_eq {sta : MeshLink} (h : sta.failAvg.toNat ≤ 95) :
    sta.err = ((sta.failAvg.toNat * 256 / 100 : ℕ) : ℤ) := by
  have hsmall : ((sta.failAvg <<< 8) / 100).toNat < 2 ^ 31 := by
    rw [toNat_err h]
    omega
  rw [MeshLink.err, intOfULong_eq hsmall, toNat_err h]

theorem isSome_airtimeLinkMetricGet (sta : MeshLink) : (airtimeLinkMetricGet sta).isSome := by
  have hmetric : ∀ {rate err : ℤ}, rate ≠ 0 → err < 256 → (airtimeMetric rate err).isSome := by
    intro rate err hrate herr
    rw [airtimeMetric, if_neg]
    · rfl
    · rw [arithShift]
      omega
  rw [airtimeLinkMetricGet]
  split
  · rfl
  · split
    · rename_i hrate
      exact hmetric hrate (by decide)
    · split
      · rfl
      · rename_i hfail
        split
        · rfl
        · rename_i hrate
          refine hmetric hrate ?_
          have hle : sta.failAvg.toNat ≤ 95 := UInt64.le_iff_toNat_le.mp (UInt64.not_lt.mp hfail)
          rw [err_eq hle]
          omega

section Measured

variable {sta sta' : MeshLink}

theorem MeshLink.usedErr_eq (h : sta.fail ≤ 95) : sta.usedErr = ((sta.fail * 256 / 100 : ℕ) : ℤ) := by
  rw [MeshLink.fail] at h ⊢
  rw [MeshLink.usedErr]
  split
  · rfl
  · rename_i hrate
    rw [if_neg hrate] at h
    exact err_eq h

theorem MeshLink.Measured.factors (h : sta.Measured) :
    (airtimeTxTime sta.rate).toNat = txTimeAt sta.rate.toNat ∧
      (airtimeRetx sta.usedErr).toNat = retxAt sta.fail := by
  have hpos := h.rate_pos
  refine ⟨?_, ?_⟩
  · rw [← toNat_airtimeTxTime, Int.toNat_of_nonneg (by omega)]
  · rw [MeshLink.usedErr_eq h.fail_le, toNat_airtimeRetx h.fail_le]

theorem MeshLink.Measured.get_eq (h : sta.Measured) :
    airtimeLinkMetricGet sta = airtimeMetric sta.rate sta.usedErr := by
  have hpos := h.rate_pos
  have hfail := h.fail_le
  rw [MeshLink.rate] at hpos
  rw [MeshLink.fail] at hfail
  rw [airtimeLinkMetricGet, MeshLink.rate, MeshLink.usedErr, if_neg (not_not.mpr h.estab)]
  by_cases hrate : sta.throughputRate ≠ 0
  · rw [if_pos hrate, if_pos hrate, if_pos hrate]
  · rw [if_neg hrate] at hpos hfail
    have hin : ¬sta.failAvg > linkFailThresh :=
      UInt64.not_lt.mpr (UInt64.le_iff_toNat_le.mpr hfail)
    have hne : ¬intOfULong sta.txRateAvg = 0 := by omega
    rw [if_neg hrate, if_neg hrate, if_neg hrate, if_neg hin, if_neg hne]

theorem MeshLink.Measured.toNat_metric (h : sta.Measured) {m : UInt32}
    (hm : airtimeLinkMetricGet sta = some m) :
    m.toNat = txTimeAt sta.rate.toNat * retxAt sta.fail % 2 ^ 32 / 2 ^ 16 := by
  rw [h.get_eq, airtimeMetric] at hm
  split at hm
  · cases hm
  · rw [Option.some.injEq] at hm
    rw [← hm, UInt64.toNat_toUInt32, UInt64.toNat_shiftRight, UInt32.toNat_toUInt64, UInt32.toNat_mul,
      h.factors.1, h.factors.2]
    have h16 : UInt64.toNat 16 % 64 = 16 := rfl
    rw [h16, Nat.shiftRight_eq_div_pow]
    exact Nat.mod_eq_of_lt (by omega)

theorem MeshLink.Measured.product_le (h : sta.Measured) (hrate : sta.rate ≤ sta'.rate)
    (hfail : sta'.fail ≤ sta.fail) :
    txTimeAt sta'.rate.toNat * retxAt sta'.fail ≤ txTimeAt sta.rate.toNat * retxAt sta.fail := by
  have hpos := h.rate_pos
  exact Nat.mul_le_mul (txTimeAt_anti (by omega) (by omega)) (retxAt_mono h.fail_le hfail)

/-- **The metric of a link is right exactly from the bound on.** -/
theorem airtimeRight_iff (h : sta.Measured) :
    AirtimeRight sta ↔ (airtimeMinRate sta.fail : ℤ) ≤ sta.rate := by
  have hpos := h.rate_pos
  have hbound : txTimeAt sta.rate.toNat * retxAt sta.fail < 2 ^ 32 ↔
      (airtimeMinRate sta.fail : ℤ) ≤ sta.rate := by
    rw [product_lt_iff (by omega) h.fail_le]
    omega
  rw [← hbound]
  constructor
  · intro hright
    have hexact := hright.exact
    rwa [h.factors.1, h.factors.2] at hexact
  · intro hfits
    refine ⟨isSome_airtimeLinkMetricGet sta, by rw [h.factors.1, h.factors.2]; exact hfits, ?_⟩
    intro sta' h' hrate hfail m m' hm hm'
    have hle := h.product_le hrate hfail
    rw [UInt32.le_iff_toNat_le, h.toNat_metric hm, h'.toNat_metric hm', Nat.mod_eq_of_lt hfits,
      Nat.mod_eq_of_lt (hle.trans_lt hfits)]
    exact Nat.div_le_div_right hle

end Measured

/-- A link of 1 Mbit/s. -/
def slowLink (failAvg : UInt64) : MeshLink where
  plinkState := .estab
  failAvg := failAvg
  txRateAvg := 10
  expectedThroughput := 0

/-- Up to a loss of 87 of 100 frames the metric of such a link is right. -/
theorem airtimeRight_slowLink : (slowLink 87).Measured ∧ AirtimeRight (slowLink 87) := by
  have h : (slowLink 87).Measured := ⟨rfl, by decide +kernel, by decide +kernel⟩
  exact ⟨h, (airtimeRight_iff h).mpr (by decide +kernel)⟩

/-- A link that loses 90 of 100 frames has less than a third of the metric of one that loses 85. -/
theorem airtime_wraps : (slowLink 90).Measured ∧ (slowLink 85).Measured ∧
    airtimeLinkMetricGet (slowLink 90) = some 15113 ∧ airtimeLinkMetricGet (slowLink 85) = some 53766 ∧
    ¬ AirtimeRight (slowLink 90) := by
  have h90 : (slowLink 90).Measured := ⟨rfl, by decide +kernel, by decide +kernel⟩
  have h85 : (slowLink 85).Measured := ⟨rfl, by decide +kernel, by decide +kernel⟩
  have hm90 : airtimeLinkMetricGet (slowLink 90) = some 15113 := by decide +kernel
  have hm85 : airtimeLinkMetricGet (slowLink 85) = some 53766 := by decide +kernel
  refine ⟨h90, h85, hm90, hm85, fun hright => ?_⟩
  exact absurd (hright.mono _ h85 (by decide +kernel) (by decide +kernel) _ _ hm90 hm85) (by decide)

end Mac80211
