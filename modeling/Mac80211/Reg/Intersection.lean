import Mac80211.Reg.Domain
import Mathlib.Tactic.Linarith

/-!
# What the intersection of two regulatory domains allows

The rules are intersected two by two; a pair that has nothing in common gives a rule that is not
valid. What `add_rule` leaves out, or overwrites, lies inside a rule that stays. Rules with
`NL80211_RRF_AUTO_BW` are left out here.

## Main results

* `intersection_right` — a channel fits exactly where it fits in both domains
-/

namespace Mac80211

open List

/-! ### What is said of rules -/

/-- The rule's range contains `[f - bw / 2, f + bw / 2]`. -/
def DomainRule.Covers (r : DomainRule) (f bw : ℚ) : Prop :=
  (r.startFreqKhz.toNat : ℚ) ≤ f - bw / 2 ∧ f + bw / 2 ≤ r.endFreqKhz.toNat

/-- The range of `r` lies within the range of `r'`. -/
def Within (r r' : DomainRule) : Prop :=
  r'.startFreqKhz ≤ r.startFreqKhz ∧ r.endFreqKhz ≤ r'.endFreqKhz

/-- `r` lies within `r'` and is at most as permissive. -/
structure Restricts (r r' : DomainRule) : Prop where
  within : Within r r'
  eirp : r.maxEirp ≤ r'.maxEirp
  gain : r.maxAntennaGain ≤ r'.maxAntennaGain
  bandwidth : r.maxBandwidthKhz ≤ r'.maxBandwidthKhz
  flags : r'.flags &&& r.flags = r'.flags
  cac : r'.dfsCacMs ≤ r.dfsCacMs

/-- No bandwidth has to be worked out. -/
def Domain.NoAutoBw (rd : Domain) : Prop := ∀ r ∈ rd.regRules, r.has NL80211_RRF_AUTO_BW = false
deriving Decidable

/-- The rules of what `regdom_intersect` returns: none for `NULL`. -/
def rulesOf : Option Domain → List DomainRule
  | none => []
  | some rd => rd.regRules

/-- What is asked of the intersection `rules` of `rd1` and `rd2`. -/
structure IntersectionRight (rd1 rd2 : Domain) (rules : List DomainRule) : Prop where
  covers_iff : ∀ f bw : ℚ, 0 < bw →
    ((∃ r ∈ rules, r.Covers f bw) ↔
      (∃ r1 ∈ rd1.regRules, r1.Covers f bw) ∧ ∃ r2 ∈ rd2.regRules, r2.Covers f bw)
  valid : ∀ r ∈ rules, isValidRegRule r = true
  restricts : ∀ r ∈ rules, (∃ r1 ∈ rd1.regRules, Restricts r r1) ∧ ∃ r2 ∈ rd2.regRules, Restricts r r2
  room : rules.length ≤ numRules rd1 rd2

/-! ### Small facts -/

theorem u32_max_eq (a b : UInt32) : max a b = if a ≤ b then b else a := rfl

/-- `max` on the source's `u32` is the larger one. -/
instance uint32LawfulOrderMax : Std.LawfulOrderMax UInt32 :=
  .of_le_max
    (fun a b => by
      rw [u32_max_eq]
      split
      · assumption
      · exact UInt32.le_refl a)
    (fun a b => by
      rw [u32_max_eq]
      split
      · exact UInt32.le_refl b
      · rename_i hab
        exact UInt32.le_of_lt (UInt32.not_le.mp hab))
    (fun a b => by
      rw [u32_max_eq]
      split
      · exact .inr rfl
      · exact .inl rfl)

variable {f bw : ℚ}

theorem Within.covers {r r' : DomainRule} (h : Within r r') (hr : r.Covers f bw) : r'.Covers f bw := by
  have hs : (r'.startFreqKhz.toNat : ℚ) ≤ r.startFreqKhz.toNat := by exact_mod_cast UInt32.le_iff_toNat_le.mp h.1
  have he : (r.endFreqKhz.toNat : ℚ) ≤ r'.endFreqKhz.toNat := by exact_mod_cast UInt32.le_iff_toNat_le.mp h.2
  exact ⟨hs.trans hr.1, hr.2.trans he⟩

instance : IsPreorder DomainRule fun a b => Within b a where
  refl _ := ⟨UInt32.le_refl _, UInt32.le_refl _⟩
  trans _ _ _ hab hbc := ⟨UInt32.le_trans hab.1 hbc.1, UInt32.le_trans hbc.2 hab.2⟩

theorem within_of_ruleContains {a b : DomainRule} (h : ruleContains a b = true) : Within b a := by
  rw [ruleContains] at h
  split at h
  · cases h
  split at h
  · cases h
  split at h
  · cases h
  · rename_i hrange
    simp only [Bool.or_eq_true, decide_eq_true_eq, not_or, UInt32.not_lt] at hrange
    exact hrange

theorem isValidRegRule_iff {r : DomainRule} : isValidRegRule r = true ↔
    r.startFreqKhz ≠ 0 ∧ r.startFreqKhz < r.endFreqKhz ∧
      r.maxBandwidthKhz ≤ r.endFreqKhz - r.startFreqKhz := by
  rw [isValidRegRule]
  split
  · grind
  split
  · grind
  · grind

theorem valid_of_isValidRd {rd : Domain} {r : DomainRule} (h : isValidRd rd = true) (hr : r ∈ rd.regRules) :
    isValidRegRule r = true := by
  rw [isValidRd] at h
  split at h
  · cases h
  split at h
  · cases h
  · exact all_eq_true.mp h r hr

/-! ### Both passes go over the same list -/

theorem intersectedRules_eq (rd1 rd2 : Domain) :
    intersectedRules rd1 rd2 = Absorb.absorbAll ruleContains (intersections rd1 rd2) [] := by
  rw [intersectedRules, Absorb.absorbAll, intersections, foldl_flatMap]
  congr 1
  funext rules rule1
  rw [foldl_filterMap]
  congr 1
  funext rules rule2
  cases regRulesIntersect rd1 rd2 rule1 rule2 <;> rfl

theorem numRules_eq (rd1 rd2 : Domain) : numRules rd1 rd2 = (intersections rd1 rd2).length := by
  have hfold : numRules rd1 rd2 = (intersections rd1 rd2).foldl (fun n _ => n + 1) 0 := by
    rw [numRules, intersections, foldl_flatMap]
    congr 1
    funext n rule1
    rw [foldl_filterMap]
    congr 1
    funext n rule2
    cases regRulesIntersect rd1 rd2 rule1 rule2 <;> rfl
  rw [hfold, foldl_add_const]
  simp

theorem rulesOf_regdomIntersect (rd1 rd2 : Domain) :
    rulesOf (regdomIntersect (some rd1) (some rd2) true) = intersectedRules rd1 rd2 := by
  rw [regdomIntersect]
  split
  · rename_i hnone
    rw [intersectedRules_eq, eq_nil_of_length_eq_zero ((numRules_eq rd1 rd2).symm.trans hnone)]
    rfl
  · rfl

/-! ### One pair of rules -/

theorem and_or_and_not {a b m : UInt32} (h : a &&& m = 0) : a &&& ((a ||| b) &&& ~~~m) = a := by
  apply UInt32.toBitVec_inj.mp
  ext i hi
  have hbit : (a.toBitVec &&& m.toBitVec)[i] = false := by
    rw [← UInt32.toBitVec_and, h]
    simp
  simp only [UInt32.toBitVec_and, UInt32.toBitVec_or, UInt32.toBitVec_not, BitVec.getElem_and, BitVec.getElem_or,
    BitVec.getElem_not] at hbit ⊢
  revert hbit
  cases a.toBitVec[i] <;> cases m.toBitVec[i] <;> simp

section Pair

variable {rd1 rd2 : Domain} {r1 r2 r : DomainRule} {x y : ℕ}

/-- What comes of a pair of rules without `NL80211_RRF_AUTO_BW`, valid or not. -/
def pairRule (r1 r2 : DomainRule) : DomainRule where
  startFreqKhz := max r1.startFreqKhz r2.startFreqKhz
  endFreqKhz := min r1.endFreqKhz r2.endFreqKhz
  maxBandwidthKhz :=
    let freqDiff := min r1.endFreqKhz r2.endFreqKhz - max r1.startFreqKhz r2.startFreqKhz
    let maxBandwidthKhz := min r1.maxBandwidthKhz r2.maxBandwidthKhz
    if freqDiff < maxBandwidthKhz then freqDiff else maxBandwidthKhz
  maxAntennaGain := min r1.maxAntennaGain r2.maxAntennaGain
  maxEirp := min r1.maxEirp r2.maxEirp
  wmmRule := wmmIntersect r1 r2
  flags := (r1.flags ||| r2.flags) &&& ~~~NL80211_RRF_AUTO_BW
  dfsCacMs := max r1.dfsCacMs r2.dfsCacMs
  hasWmm := r1.hasWmm || r2.hasWmm

theorem regRulesIntersect_eq (h1 : r1.has NL80211_RRF_AUTO_BW = false) (h2 : r2.has NL80211_RRF_AUTO_BW = false) :
    regRulesIntersect rd1 rd2 (r1, x) (r2, y) =
      if isValidRegRule (pairRule r1 r2) then some (pairRule r1 r2) else none := by
  rw [regRulesIntersect]
  simp only [h1, h2, Bool.false_eq_true, if_false, Bool.and_self]
  rfl

theorem pairRule_bandwidth_le : (pairRule r1 r2).maxBandwidthKhz ≤ min r1.maxBandwidthKhz r2.maxBandwidthKhz := by
  show (if _ < _ then _ else _) ≤ _
  split
  · rename_i hlt
    exact UInt32.le_of_lt hlt
  · exact UInt32.le_refl _

theorem pairRule_bandwidth_le_diff :
    (pairRule r1 r2).maxBandwidthKhz ≤ (pairRule r1 r2).endFreqKhz - (pairRule r1 r2).startFreqKhz := by
  show (if _ < _ then _ else _) ≤ _
  split
  · exact UInt32.le_refl _
  · rename_i hge
    exact UInt32.not_lt.mp hge

theorem pairRule_restricts_left (h1 : r1.has NL80211_RRF_AUTO_BW = false) : Restricts (pairRule r1 r2) r1 where
  within := ⟨Std.left_le_max, Std.min_le_left⟩
  eirp := Std.min_le_left
  gain := Std.min_le_left
  bandwidth := UInt32.le_trans pairRule_bandwidth_le Std.min_le_left
  flags := and_or_and_not (by simpa [DomainRule.has] using h1)
  cac := Std.left_le_max

theorem pairRule_restricts_right (h2 : r2.has NL80211_RRF_AUTO_BW = false) : Restricts (pairRule r1 r2) r2 where
  within := ⟨Std.right_le_max, Std.min_le_right⟩
  eirp := Std.min_le_right
  gain := Std.min_le_right
  bandwidth := UInt32.le_trans pairRule_bandwidth_le Std.min_le_right
  flags := by
    show r2.flags &&& ((r1.flags ||| r2.flags) &&& _) = r2.flags
    rw [UInt32.or_comm]
    exact and_or_and_not (by simpa [DomainRule.has] using h2)
  cac := Std.right_le_max

theorem pairRule_covers (h1 : r1.Covers f bw) (h2 : r2.Covers f bw) : (pairRule r1 r2).Covers f bw := by
  constructor
  · show ((max r1.startFreqKhz r2.startFreqKhz).toNat : ℚ) ≤ _
    rcases Std.MaxEqOr.max_eq_or r1.startFreqKhz r2.startFreqKhz with h | h
    · rw [h]
      exact h1.1
    · rw [h]
      exact h2.1
  · show _ ≤ ((min r1.endFreqKhz r2.endFreqKhz).toNat : ℚ)
    rcases Std.MinEqOr.min_eq_or r1.endFreqKhz r2.endFreqKhz with h | h
    · rw [h]
      exact h1.2
    · rw [h]
      exact h2.2

/-- **A pair that has a channel in common makes a valid rule.** -/
theorem pairRule_valid (hbw : 0 < bw) (hv1 : isValidRegRule r1 = true) (hv2 : isValidRegRule r2 = true)
    (h1 : r1.Covers f bw) (h2 : r2.Covers f bw) : isValidRegRule (pairRule r1 r2) = true := by
  obtain ⟨hstart, hend⟩ := pairRule_covers h1 h2
  have hlt : ((pairRule r1 r2).startFreqKhz.toNat : ℚ) < (pairRule r1 r2).endFreqKhz.toNat := by linarith
  refine isValidRegRule_iff.mpr ⟨?_, ?_, pairRule_bandwidth_le_diff⟩
  · show max r1.startFreqKhz r2.startFreqKhz ≠ 0
    rcases Std.MaxEqOr.max_eq_or r1.startFreqKhz r2.startFreqKhz with h | h
    · rw [h]
      exact (isValidRegRule_iff.mp hv1).1
    · rw [h]
      exact (isValidRegRule_iff.mp hv2).1
  · exact UInt32.lt_iff_toNat_lt.mpr (by exact_mod_cast hlt)

end Pair

/-! ### The whole list -/

section Whole

variable {rd1 rd2 : Domain} {r : DomainRule}

theorem mem_intersections (h1 : rd1.NoAutoBw) (h2 : rd2.NoAutoBw) : r ∈ intersections rd1 rd2 ↔
    ∃ r1 ∈ rd1.regRules, ∃ r2 ∈ rd2.regRules, isValidRegRule (pairRule r1 r2) = true ∧ pairRule r1 r2 = r := by
  simp only [intersections, mem_flatMap, mem_filterMap]
  constructor
  · rintro ⟨⟨r1, x⟩, hr1, ⟨r2, y⟩, hr2, h⟩
    have hr1 : r1 ∈ rd1.regRules := fst_mem_of_mem_zipIdx hr1
    have hr2 : r2 ∈ rd2.regRules := fst_mem_of_mem_zipIdx hr2
    rw [regRulesIntersect_eq (h1 r1 hr1) (h2 r2 hr2)] at h
    split at h
    · rename_i hvalid
      exact ⟨r1, hr1, r2, hr2, hvalid, Option.some.inj h⟩
    · cases h
  · rintro ⟨r1, hr1, r2, hr2, hvalid, rfl⟩
    obtain ⟨x, hx⟩ := mem_iff_getElem?.mp hr1
    obtain ⟨y, hy⟩ := mem_iff_getElem?.mp hr2
    refine ⟨(r1, x), mem_zipIdx_iff_getElem?.mpr hx, (r2, y), mem_zipIdx_iff_getElem?.mpr hy, ?_⟩
    rw [regRulesIntersect_eq (h1 r1 hr1) (h2 r2 hr2), if_pos hvalid]

theorem mem_intersections_of_mem (h : r ∈ intersectedRules rd1 rd2) : r ∈ intersections rd1 rd2 := by
  rw [intersectedRules_eq] at h
  exact (Absorb.mem_absorbAll h).resolve_right not_mem_nil

theorem covers_iff (hv1 : isValidRd rd1 = true) (hv2 : isValidRd rd2 = true) (h1 : rd1.NoAutoBw) (h2 : rd2.NoAutoBw)
    (hbw : 0 < bw) : (∃ r ∈ intersectedRules rd1 rd2, r.Covers f bw) ↔
      (∃ r1 ∈ rd1.regRules, r1.Covers f bw) ∧ ∃ r2 ∈ rd2.regRules, r2.Covers f bw := by
  constructor
  · rintro ⟨r, hr, hcovers⟩
    obtain ⟨r1, hr1, r2, hr2, -, rfl⟩ := (mem_intersections h1 h2).mp (mem_intersections_of_mem hr)
    have hin1 : Within (pairRule r1 r2) r1 := (pairRule_restricts_left (h1 r1 hr1)).within
    have hin2 : Within (pairRule r1 r2) r2 := (pairRule_restricts_right (h2 r2 hr2)).within
    exact ⟨⟨r1, hr1, hin1.covers hcovers⟩, r2, hr2, hin2.covers hcovers⟩
  · rintro ⟨⟨r1, hr1, hc1⟩, r2, hr2, hc2⟩
    have hvalid : isValidRegRule (pairRule r1 r2) = true :=
      pairRule_valid hbw (valid_of_isValidRd hv1 hr1) (valid_of_isValidRd hv2 hr2) hc1 hc2
    have hmem : pairRule r1 r2 ∈ intersections rd1 rd2 :=
      (mem_intersections h1 h2).mpr ⟨r1, hr1, r2, hr2, hvalid, rfl⟩
    -- what `add_rule` leaves out lies inside what stays
    obtain ⟨r, hr, hin⟩ : ∃ r ∈ intersectedRules rd1 rd2, Within (pairRule r1 r2) r := by
      rw [intersectedRules_eq]
      exact Absorb.exists_mem_absorbAll (R := fun a b => Within b a) within_of_ruleContains (.inl hmem)
    exact ⟨r, hr, hin.covers (pairRule_covers hc1 hc2)⟩

/-- **The intersection of two regulatory domains allows what both allow, and no more.** -/
theorem intersection_right (hv1 : isValidRd rd1 = true) (hv2 : isValidRd rd2 = true) (h1 : rd1.NoAutoBw)
    (h2 : rd2.NoAutoBw) : IntersectionRight rd1 rd2 (rulesOf (regdomIntersect (some rd1) (some rd2) true)) := by
  rw [rulesOf_regdomIntersect]
  constructor
  · intro f bw hbw
    exact covers_iff hv1 hv2 h1 h2 hbw
  · intro r hr
    obtain ⟨r1, hr1, r2, hr2, hvalid, rfl⟩ := (mem_intersections h1 h2).mp (mem_intersections_of_mem hr)
    exact hvalid
  · intro r hr
    obtain ⟨r1, hr1, r2, hr2, -, rfl⟩ := (mem_intersections h1 h2).mp (mem_intersections_of_mem hr)
    exact ⟨⟨r1, hr1, pairRule_restricts_left (h1 r1 hr1)⟩, r2, hr2, pairRule_restricts_right (h2 r2 hr2)⟩
  · rw [intersectedRules_eq, numRules_eq]
    exact Absorb.length_absorbAll_le.trans (by simp)

end Whole

/-- The second domain allows a part of the 2.4 GHz band, and a part of that part with more power:
the rule for the latter is left out. -/
theorem intersection_right_nested : IntersectionRight
      ⟨(0, 0), 0,
        [{ startFreqKhz := 2402000, endFreqKhz := 2482000, maxBandwidthKhz := 40000, maxEirp := 2000 }]⟩
      ⟨(0, 0), 0,
        [{ startFreqKhz := 2402000, endFreqKhz := 2472000, maxBandwidthKhz := 20000, maxEirp := 1500 },
          { startFreqKhz := 2412000, endFreqKhz := 2432000, maxBandwidthKhz := 20000, maxEirp := 1800 }]⟩
      [{ startFreqKhz := 2402000, endFreqKhz := 2472000, maxBandwidthKhz := 20000, maxEirp := 1500 }] :=
  intersection_right (by decide) (by decide) (by decide) (by decide)

end Mac80211
