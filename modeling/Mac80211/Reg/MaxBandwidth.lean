import Mac80211.Reg.Intersection

/-!
# The bandwidth worked out from the rules nearby

A rule with `NL80211_RRF_AUTO_BW` gets the bandwidth of the contiguous rules around it. Each of the
two walks over the list stays on its side of a gap, so it only matters whether the two ends are the
right way round.

## Main results

* `bandwidthRight_iff`
-/

namespace Mac80211

open List

/-! ### What is asked -/

/-- Some rule is for the frequency. -/
def Domain.Covered (rd : Domain) (f : ℚ) : Prop :=
  ∃ r ∈ rd.regRules, (r.startFreqKhz.toNat : ℚ) ≤ f ∧ f ≤ r.endFreqKhz.toNat

/-- The subtraction does not wrap, and all of the bandwidth fits into an interval around the rule
that has no gap. -/
structure BandwidthRight (rd : Domain) (idx : ℕ) (rule : DomainRule) : Prop where
  noWrap : walkStart rd idx rule ≤ walkEnd rd idx rule
  bounded : ∃ lo hi : ℚ, (∀ f, lo ≤ f → f ≤ hi → rd.Covered f) ∧
    lo ≤ rule.startFreqKhz.toNat ∧ (rule.endFreqKhz.toNat : ℚ) ≤ hi ∧
    ((regGetMaxBandwidth rd idx rule).toNat : ℚ) ≤ hi - lo

/-- Rule number `j` does not end below the start of the one after it. -/
def Adjoins (rd : Domain) (j : ℕ) : Prop :=
  ∃ a b, rd.regRules[j]? = some a ∧ rd.regRules[j + 1]? = some b ∧ b.startFreqKhz ≤ a.endFreqKhz

/-- The longest stretch around rule number `idx` in which each rule is linked to the next. -/
structure Stretch (rd : Domain) (idx i k : ℕ) : Prop where
  lower : i ≤ idx
  upper : idx ≤ k
  linked : ∀ j, i ≤ j → j < k → Adjoins rd j
  first : ∀ j, j + 1 = i → ¬Adjoins rd j
  last : ¬Adjoins rd k

/-- The first rule of that stretch does not start above the end of the last one. -/
def RulesInOrder (rd : Domain) (idx : ℕ) : Prop :=
  ∀ i k first last, Stretch rd idx i k → rd.regRules[i]? = some first → rd.regRules[k]? = some last →
    first.startFreqKhz ≤ last.endFreqKhz

/-! ### There is no gap -/

section Gap

variable {rd : Domain} {idx : ℕ} {rule : DomainRule} {f : ℚ}

theorem lt_walkDown {range : DomainRule} {l : List DomainRule} (hl : ∀ r ∈ l, r ∈ rd.regRules)
    (hgap : ¬rd.Covered f) (h : f < range.startFreqKhz.toNat) : f < (walkDown range l).startFreqKhz.toNat := by
  induction l generalizing range with
  | nil => exact h
  | cons tmp rest ih =>
    rw [walkDown]
    split
    · exact h
    · rename_i hend
      apply ih fun r hr => hl r (mem_cons_of_mem tmp hr)
      have hle : (range.startFreqKhz.toNat : ℚ) ≤ tmp.endFreqKhz.toNat := by
        exact_mod_cast UInt32.le_iff_toNat_le.mp (UInt32.not_lt.mp hend)
      by_contra hstart
      exact hgap ⟨tmp, hl tmp mem_cons_self, not_lt.mp hstart, (h.trans_le hle).le⟩

theorem walkUp_lt {range : DomainRule} {l : List DomainRule} (hl : ∀ r ∈ l, r ∈ rd.regRules)
    (hgap : ¬rd.Covered f) (h : (range.endFreqKhz.toNat : ℚ) < f) : ((walkUp range l).endFreqKhz.toNat : ℚ) < f := by
  induction l generalizing range with
  | nil => exact h
  | cons tmp rest ih =>
    rw [walkUp]
    split
    · exact h
    · rename_i hstart
      apply ih fun r hr => hl r (mem_cons_of_mem tmp hr)
      have hle : (tmp.startFreqKhz.toNat : ℚ) ≤ range.endFreqKhz.toNat := by
        exact_mod_cast UInt32.le_iff_toNat_le.mp (UInt32.not_lt.mp hstart)
      by_contra hend
      exact hgap ⟨tmp, hl tmp mem_cons_self, (hle.trans_lt h).le, not_lt.mp hend⟩

/-- **Between the two ends, and within the rule, there is no gap.** -/
theorem covered_of_between (hrule : rd.regRules[idx]? = some rule)
    (hlo : min ((walkStart rd idx rule).toNat : ℚ) rule.startFreqKhz.toNat ≤ f)
    (hhi : f ≤ max ((walkEnd rd idx rule).toNat : ℚ) rule.endFreqKhz.toNat) : rd.Covered f := by
  by_contra hgap
  rcases lt_or_ge f rule.startFreqKhz.toNat with hbelow | habove
  · have hstart : f < (walkStart rd idx rule).toNat :=
      lt_walkDown (fun r hr => mem_of_mem_take (mem_reverse.mp hr)) hgap hbelow
    exact absurd (lt_min hstart hbelow) (not_lt.mpr hlo)
  · have habove : (rule.endFreqKhz.toNat : ℚ) < f := by
      by_contra hle
      exact hgap ⟨rule, mem_of_getElem? hrule, habove, not_lt.mp hle⟩
    have hend : ((walkEnd rd idx rule).toNat : ℚ) < f :=
      walkUp_lt (fun r hr => mem_of_mem_drop hr) hgap habove
    exact absurd (max_lt hend habove) (not_lt.mpr hhi)

theorem regGetMaxBandwidth_le : regGetMaxBandwidth rd idx rule ≤ maxBandwidthFromRange rd idx rule := by
  have hcap : ∀ (c : Prop) [Decidable c] (bw limit : UInt32), (if c then min bw limit else bw) ≤ bw := by
    intro c _ bw limit
    split
    · exact Std.min_le_left
    · exact UInt32.le_refl bw
  rw [regGetMaxBandwidth]
  exact UInt32.le_trans (hcap _ _ _) (UInt32.le_trans (hcap _ _ _) (hcap _ _ _))

/-- So all that can go wrong is that the ends are the wrong way round. -/
theorem bandwidthRight_iff_noWrap (hrule : rd.regRules[idx]? = some rule) :
    BandwidthRight rd idx rule ↔ walkStart rd idx rule ≤ walkEnd rd idx rule := by
  constructor
  · exact BandwidthRight.noWrap
  intro hle
  refine ⟨hle, min ((walkStart rd idx rule).toNat : ℚ) rule.startFreqKhz.toNat,
    max ((walkEnd rd idx rule).toNat : ℚ) rule.endFreqKhz.toNat, fun f hlo hhi => covered_of_between hrule hlo hhi,
    min_le_right _ _, le_max_right _ _, ?_⟩
  have hrange : maxBandwidthFromRange rd idx rule = walkEnd rd idx rule - walkStart rd idx rule := if_pos hrule
  have hsub : (walkEnd rd idx rule - walkStart rd idx rule).toNat + (walkStart rd idx rule).toNat =
      (walkEnd rd idx rule).toNat := by
    rw [UInt32.toNat_sub_of_le _ _ hle]
    exact Nat.sub_add_cancel (UInt32.le_iff_toNat_le.mp hle)
  have hbw : (regGetMaxBandwidth rd idx rule).toNat + (walkStart rd idx rule).toNat ≤ (walkEnd rd idx rule).toNat := by
    have hcapped : regGetMaxBandwidth rd idx rule ≤ maxBandwidthFromRange rd idx rule := regGetMaxBandwidth_le
    rw [hrange, UInt32.le_iff_toNat_le] at hcapped
    omega
  have hbw : ((regGetMaxBandwidth rd idx rule).toNat : ℚ) + (walkStart rd idx rule).toNat ≤
      (walkEnd rd idx rule).toNat := by exact_mod_cast hbw
  have hmin := min_le_left ((walkStart rd idx rule).toNat : ℚ) rule.startFreqKhz.toNat
  have hmax := le_max_left ((walkEnd rd idx rule).toNat : ℚ) rule.endFreqKhz.toNat
  linarith

end Gap

/-! ### Where the walks end -/

section Ends

variable {rd : Domain} {idx : ℕ} {rule : DomainRule}

theorem walkDown_spec (hrule : rd.regRules[idx]? = some rule) :
    ∃ i, i ≤ idx ∧ (∀ j, i ≤ j → j < idx → Adjoins rd j) ∧ (∀ j, j + 1 = i → ¬Adjoins rd j) ∧
      rd.regRules[i]? = some (walkDown rule (rd.regRules.take idx).reverse) := by
  induction idx generalizing rule with
  | zero =>
    refine ⟨0, Nat.le_refl 0, ?_, ?_, hrule⟩
    · intro j _ hj
      omega
    · intro j hj
      omega
  | succ idx ih =>
    obtain ⟨hlt, -⟩ := List.getElem?_eq_some_iff.mp hrule
    obtain ⟨tmp, htmp⟩ : ∃ tmp, rd.regRules[idx]? = some tmp := ⟨_, List.getElem?_eq_getElem (by omega)⟩
    have htake : (rd.regRules.take (idx + 1)).reverse = tmp :: (rd.regRules.take idx).reverse := by
      rw [take_add_one, htmp, reverse_append]
      rfl
    rw [htake, walkDown]
    split
    · rename_i hend
      refine ⟨idx + 1, Nat.le_refl _, ?_, ?_, hrule⟩
      · intro j hij hj
        omega
      · rintro j hj ⟨a, b, ha, hb, hle⟩
        obtain rfl : j = idx := by omega
        cases htmp.symm.trans ha
        cases hrule.symm.trans hb
        exact UInt32.not_lt.mpr hle hend
    · rename_i hend
      obtain ⟨i, hi, hlinked, hfirst, hget⟩ := ih htmp
      refine ⟨i, by omega, ?_, hfirst, hget⟩
      intro j hij hj
      rcases Nat.lt_succ_iff_lt_or_eq.mp hj with hj | rfl
      · exact hlinked j hij hj
      · exact ⟨tmp, rule, htmp, hrule, UInt32.not_lt.mp hend⟩

theorem walkUp_spec (hrule : rd.regRules[idx]? = some rule) :
    ∃ k, idx ≤ k ∧ (∀ j, idx ≤ j → j < k → Adjoins rd j) ∧ ¬Adjoins rd k ∧
      rd.regRules[k]? = some (walkUp rule (rd.regRules.drop (idx + 1))) := by
  generalize hrest : rd.regRules.drop (idx + 1) = rest
  induction rest generalizing idx rule with
  | nil =>
    refine ⟨idx, Nat.le_refl idx, ?_, ?_, hrule⟩
    · intro j hij hj
      omega
    · rintro ⟨a, b, -, hb, -⟩
      obtain ⟨hlt, -⟩ := List.getElem?_eq_some_iff.mp hb
      have hlen := drop_eq_nil_iff.mp hrest
      omega
  | cons tmp rest ih =>
    have htmp : rd.regRules[idx + 1]? = some tmp := by
      rw [← List.head?_drop, hrest]
      rfl
    rw [walkUp]
    split
    · rename_i hstart
      refine ⟨idx, Nat.le_refl idx, ?_, ?_, hrule⟩
      · intro j hij hj
        omega
      · rintro ⟨a, b, ha, hb, hle⟩
        cases hrule.symm.trans ha
        cases htmp.symm.trans hb
        exact UInt32.not_lt.mpr hle hstart
    · rename_i hstart
      have hnext : rd.regRules.drop (idx + 1 + 1) = rest := by
        rw [← drop_drop, hrest]
        rfl
      obtain ⟨k, hk, hlinked, hlast, hget⟩ := ih htmp hnext
      refine ⟨k, by omega, ?_, hlast, hget⟩
      intro j hij hj
      rcases Nat.eq_or_lt_of_le hij with rfl | hij
      · exact ⟨rule, tmp, hrule, htmp, UInt32.not_lt.mp hstart⟩
      · exact hlinked j hij hj

theorem exists_stretch (hrule : rd.regRules[idx]? = some rule) :
    ∃ i k first last, Stretch rd idx i k ∧ rd.regRules[i]? = some first ∧ rd.regRules[k]? = some last ∧
      walkStart rd idx rule = first.startFreqKhz ∧ walkEnd rd idx rule = last.endFreqKhz := by
  obtain ⟨i, hi, hdown, hfirst, hgeti⟩ := walkDown_spec hrule
  obtain ⟨k, hk, hup, hlast, hgetk⟩ := walkUp_spec hrule
  refine ⟨i, k, _, _, ⟨hi, hk, ?_, hfirst, hlast⟩, hgeti, hgetk, rfl, rfl⟩
  intro j hij hjk
  rcases Nat.lt_or_ge j idx with hj | hj
  · exact hdown j hij hj
  · exact hup j hj hjk

theorem Stretch.unique {i k i' k' : ℕ} (h : Stretch rd idx i k) (h' : Stretch rd idx i' k') : i = i' ∧ k = k' := by
  constructor
  · rcases Nat.lt_trichotomy i i' with hlt | heq | hlt
    · have hj := h.linked (i' - 1) (by omega) (by have := h'.lower; have := h.upper; omega)
      exact absurd hj (h'.first (i' - 1) (by omega))
    · exact heq
    · have hj := h'.linked (i - 1) (by omega) (by have := h.lower; have := h'.upper; omega)
      exact absurd hj (h.first (i - 1) (by omega))
  · rcases Nat.lt_trichotomy k k' with hlt | heq | hlt
    · exact absurd (h'.linked k (h'.lower.trans h.upper) hlt) h.last
    · exact heq
    · exact absurd (h.linked k' (h.lower.trans h'.upper) hlt) h'.last

theorem rulesInOrder_of_sorted (hvalid : ∀ r ∈ rd.regRules, isValidRegRule r = true)
    (hsorted : rd.regRules.Pairwise fun a b => a.startFreqKhz ≤ b.startFreqKhz) : RulesInOrder rd idx := by
  intro i k first last hstretch hi hk
  have hlast : last.startFreqKhz ≤ last.endFreqKhz :=
    UInt32.le_of_lt (isValidRegRule_iff.mp (hvalid last (mem_of_getElem? hk))).2.1
  rcases Nat.eq_or_lt_of_le (hstretch.lower.trans hstretch.upper) with rfl | hik
  · cases hi.symm.trans hk
    exact hlast
  · obtain ⟨hilt, rfl⟩ := List.getElem?_eq_some_iff.mp hi
    obtain ⟨hklt, rfl⟩ := List.getElem?_eq_some_iff.mp hk
    exact UInt32.le_trans (pairwise_iff_getElem.mp hsorted i k hilt hklt hik) hlast

/-- **The bandwidth worked out for a rule is right if, and only if, the stretch of rules around it is in
order.** -/
theorem bandwidthRight_iff (hrule : rd.regRules[idx]? = some rule) :
    BandwidthRight rd idx rule ↔ RulesInOrder rd idx := by
  rw [bandwidthRight_iff_noWrap hrule]
  obtain ⟨i, k, first, last, hstretch, hi, hk, hstart, hend⟩ := exists_stretch hrule
  rw [hstart, hend]
  constructor
  · intro hle i' k' first' last' h' hi' hk'
    obtain ⟨rfl, rfl⟩ := hstretch.unique h'
    cases hi.symm.trans hi'
    cases hk.symm.trans hk'
    exact hle
  · intro horder
    exact horder i k first last hstretch hi hk

end Ends

/-- Two rules that follow each other, 80 MHz each: 160 MHz. -/
theorem bandwidthRight_adjacent : BandwidthRight
      ⟨(0, 0), 0,
        [{ startFreqKhz := 5170000, endFreqKhz := 5250000, maxBandwidthKhz := 80000, flags := 0x800 },
          { startFreqKhz := 5250000, endFreqKhz := 5330000, maxBandwidthKhz := 80000, flags := 0x800 }]⟩ 1
      { startFreqKhz := 5250000, endFreqKhz := 5330000, maxBandwidthKhz := 80000, flags := 0x800 } :=
  (bandwidthRight_iff rfl).mpr (rulesInOrder_of_sorted (by decide) (by decide))

/-- A domain whose rules go down. -/
def descending : Domain :=
  ⟨(0, 0), 0,
    [{ startFreqKhz := 5490000, endFreqKhz := 5730000, maxBandwidthKhz := 160000 },
      { startFreqKhz := 5170000, endFreqKhz := 5250000, maxBandwidthKhz := 80000, flags := 0x800 }]⟩

/-- Two rules that overlap; the second one is for indoors. -/
def overlapping : Domain :=
  ⟨(0, 0), 0,
    [{ startFreqKhz := 5170000, endFreqKhz := 5330000, maxBandwidthKhz := 160000, flags := 0x800 },
      { startFreqKhz := 5190000, endFreqKhz := 5310000, maxBandwidthKhz := 80000, flags := 0x808 }]⟩

/-- Two rules with a gap between them. -/
def gapped : Domain :=
  ⟨(0, 0), 0,
    [{ startFreqKhz := 5170000, endFreqKhz := 5210000, maxBandwidthKhz := 40000, flags := 0x800 },
      { startFreqKhz := 5250000, endFreqKhz := 5290000, maxBandwidthKhz := 40000, flags := 0x800 }]⟩

/-- **A domain that is accepted gives a rule of 80 MHz more than 4000 GHz**, and so does the
intersection of two that are in order. -/
theorem bandwidth_wraps :
    (isValidRd descending = true ∧ ∃ rule, descending.regRules[1]? = some rule ∧
      rule.has NL80211_RRF_AUTO_BW = true ∧ regGetMaxBandwidth descending 1 rule = 4294727296 ∧
      ¬BandwidthRight descending 1 rule) ∧
    isValidRd overlapping = true ∧ isValidRd gapped = true ∧
      ∃ rd, regdomIntersect (some overlapping) (some gapped) true = some rd ∧
        ∃ rule, rd.regRules[2]? = some rule ∧ rule.has NL80211_RRF_AUTO_BW = true ∧ ¬BandwidthRight rd 2 rule := by
  refine ⟨⟨by decide, _, rfl, by decide, by decide, ?_⟩, by decide, by decide, _, rfl, ?_⟩
  · intro hright
    exact absurd hright.noWrap (by decide)
  · refine ⟨_, rfl, by decide, ?_⟩
    intro hright
    exact absurd hright.noWrap (by decide)

end Mac80211
