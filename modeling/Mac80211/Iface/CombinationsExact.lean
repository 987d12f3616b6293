import Mac80211.Iface.Combinations

/-!
# The check of interface combinations is exact

What the loops are compared with are sums and divisors of multisets, so the order of the lists is of
no account. The limits that are used up in place fail exactly if too many interfaces are counted,
and the divisor that is collected with a shortcut is the true one.

## Main results

* `iterCombinations_right` — each combination is decided on its own, and exactly
-/

namespace Mac80211

open List

/-! ### Bitmaps -/

theorem and_eq_right_iff_testBit (a b : ℕ) : a &&& b = b ↔ ∀ i, b.testBit i = true → a.testBit i = true := by
  constructor
  · intro h i hi
    rw [← h, Nat.testBit_and, Bool.and_eq_true] at hi
    exact hi.1
  · intro h
    apply Nat.eq_of_testBit_eq
    intro i
    rw [Nat.testBit_and]
    cases hb : b.testBit i with
    | false => exact Bool.and_false _
    | true => rw [h i hb, Bool.and_true]

section Types

variable (wiphy : WiphyIfaces) (params : IfaceCombinationParams)

theorem numInterfaces_eq : numInterfaces params = ∑ iftype, params.iftypeNum iftype := by
  rw [numInterfaces, Fin.sum_univ_def, sum_eq_foldl, foldl_map]

theorem testBit_usedIftypes (i : ℕ) : (usedIftypes wiphy params).testBit i = true ↔
    ∃ iftype : Iftype, (iftype : ℕ) = i ∧ 0 < params.iftypeNum iftype ∧ ¬Software wiphy iftype := by
  have hfold : ∀ (l : List Iftype) (used : ℕ), (l.foldl (fun used iftype =>
      if 0 < params.iftypeNum iftype && !iftypeAllowed wiphy iftype false 1 then used ||| 2 ^ (iftype : ℕ) else used)
      used).testBit i = true ↔ used.testBit i = true ∨
        ∃ iftype ∈ l, (iftype : ℕ) = i ∧ 0 < params.iftypeNum iftype ∧ ¬Software wiphy iftype := by
    intro l
    induction l with
    | nil => simp
    | cons t l ih =>
      intro used
      rw [foldl_cons, ih]
      by_cases ht : 0 < params.iftypeNum t ∧ ¬Software wiphy t
      · have hcond : (decide (0 < params.iftypeNum t) && !iftypeAllowed wiphy t false 1) = true := by
          simpa [Software] using ht
        rw [if_pos hcond, Nat.testBit_or, Bool.or_eq_true, Nat.testBit_two_pow, decide_eq_true_eq]
        simp only [mem_cons, exists_eq_or_imp, ht, and_true, not_false_eq_true, or_assoc]
      · have hcond : ¬(decide (0 < params.iftypeNum t) && !iftypeAllowed wiphy t false 1) = true := by
          simpa [Software] using ht
        rw [if_neg hcond]
        simp only [mem_cons, exists_eq_or_imp, ht, and_false, false_or]
  rw [usedIftypes, hfold]
  simp

/-! ### Limits -/

/-- What these interface types take of a limit. -/
def need (iftypes : List Iftype) (limit : IfaceLimit) : ℕ :=
  (iftypes.map fun iftype => if Counts wiphy limit iftype then params.iftypeNum iftype else 0).sum

theorem need_finRange (limit : IfaceLimit) : need wiphy params (List.finRange NUM_NL80211_IFTYPES) limit =
    ∑ iftype with Counts wiphy limit iftype, params.iftypeNum iftype := by
  rw [need, Finset.sum_filter, Fin.sum_univ_def]

/-- A limit after one interface type. -/
def IfaceLimit.reduce (limit : IfaceLimit) (iftype : Iftype) (num : ℕ) : IfaceLimit :=
  if limit.types.testBit iftype then { limit with max := limit.max - num } else limit

@[simp] theorem IfaceLimit.reduce_types (limit : IfaceLimit) (iftype : Iftype) (num : ℕ) :
    (limit.reduce iftype num).types = limit.types := by
  rw [IfaceLimit.reduce]
  split <;> rfl

theorem need_reduce (iftypes : List Iftype) (limit : IfaceLimit) (iftype : Iftype) (num : ℕ) :
    need wiphy params iftypes (limit.reduce iftype num) = need wiphy params iftypes limit := by
  have hcounts : ∀ t, Counts wiphy (limit.reduce iftype num) t ↔ Counts wiphy limit t := by
    intro t
    rw [Counts, Counts, IfaceLimit.reduce_types]
  rw [need, need]
  congr 2
  funext t
  exact if_congr (hcounts t) rfl rfl

theorem limitsLoop_spec (iftype : Iftype) (num : ℕ) (limits : List IfaceLimit) (allIftypes : ℕ) :
    match limitsLoop iftype num limits allIftypes with
    | none => ∃ limit ∈ limits, limit.types.testBit iftype = true ∧ limit.max < num
    | some (limits', all) => limits' = limits.map (·.reduce iftype num) ∧
        (∀ limit ∈ limits, limit.types.testBit iftype = true → num ≤ limit.max) ∧
        ∀ i, all.testBit i = true ↔ allIftypes.testBit i = true ∨ ∃ limit ∈ limits, limit.types.testBit i = true := by
  induction limits generalizing allIftypes with
  | nil => simp [limitsLoop]
  | cons limit limits ih =>
    have ih := ih (allIftypes ||| limit.types)
    have hbits : ∀ i, ((allIftypes ||| limit.types).testBit i = true ∨ ∃ l ∈ limits, l.types.testBit i = true) ↔
        (allIftypes.testBit i = true ∨ ∃ l ∈ limit :: limits, l.types.testBit i = true) := by
      intro i
      rw [Nat.testBit_or, Bool.or_eq_true, or_assoc]
      simp only [mem_cons, exists_eq_or_imp]
    rw [limitsLoop]
    dsimp only
    cases htype : limit.types.testBit iftype with
    | false =>
      rw [if_pos (by rfl)]
      cases hrest : limitsLoop iftype num limits (allIftypes ||| limit.types) with
      | none =>
        rw [hrest] at ih
        obtain ⟨l, hl, hlt⟩ := ih
        exact ⟨l, mem_cons_of_mem _ hl, hlt⟩
      | some res =>
        obtain ⟨limits', all⟩ := res
        rw [hrest] at ih
        obtain ⟨hlimits, hle, hall⟩ := ih
        refine ⟨?_, ?_, fun i => (hall i).trans (hbits i)⟩
        · rw [map_cons, IfaceLimit.reduce, htype, if_neg (by decide), hlimits]
        · intro l hl hbit
          rcases mem_cons.mp hl with rfl | hl
          · exact absurd (htype.symm.trans hbit) (by decide)
          · exact hle l hl hbit
    | true =>
      rw [if_neg (by decide)]
      by_cases hlt : limit.max < num
      · rw [if_pos hlt]
        exact ⟨limit, mem_cons_self, htype, hlt⟩
      rw [if_neg hlt]
      cases hrest : limitsLoop iftype num limits (allIftypes ||| limit.types) with
      | none =>
        rw [hrest] at ih
        obtain ⟨l, hl, hlt⟩ := ih
        exact ⟨l, mem_cons_of_mem _ hl, hlt⟩
      | some res =>
        obtain ⟨limits', all⟩ := res
        rw [hrest] at ih
        obtain ⟨hlimits, hle, hall⟩ := ih
        refine ⟨?_, ?_, fun i => (hall i).trans (hbits i)⟩
        · rw [map_cons, IfaceLimit.reduce, htype, if_pos rfl, hlimits]
        · intro l hl hbit
          rcases mem_cons.mp hl with rfl | hl
          · exact Nat.le_of_not_lt hlt
          · exact hle l hl hbit

/-- **All interface types**: the limits fail exactly if they are too small for what they count. -/
theorem iftypesLoop_spec (iftypes : List Iftype) (limits : List IfaceLimit) (allIftypes : ℕ) :
    match iftypesLoop wiphy params iftypes limits allIftypes with
    | none => ∃ limit ∈ limits, limit.max < need wiphy params iftypes limit
    | some (_, all) => (∀ limit ∈ limits, need wiphy params iftypes limit ≤ limit.max) ∧
        ∀ i, all.testBit i = true ↔ allIftypes.testBit i = true ∨
          (∃ iftype ∈ iftypes, ¬Software wiphy iftype) ∧ ∃ limit ∈ limits, limit.types.testBit i = true := by
  induction iftypes generalizing limits allIftypes with
  | nil => simp [iftypesLoop, need]
  | cons t iftypes ih =>
    have hcons : ∀ limit, need wiphy params (t :: iftypes) limit =
        (if Counts wiphy limit t then params.iftypeNum t else 0) + need wiphy params iftypes limit := by
      intro limit
      rw [need, map_cons, sum_cons, need]
    rw [iftypesLoop]
    by_cases hsoft : Software wiphy t
    · have hneed : ∀ limit, need wiphy params (t :: iftypes) limit = need wiphy params iftypes limit := by
        intro limit
        rw [hcons, if_neg fun h => h.2 hsoft, Nat.zero_add]
      have hallowed : iftypeAllowed wiphy t false 1 = true := hsoft
      rw [if_pos hallowed]
      have ih := ih limits allIftypes
      simp only [hneed, mem_cons, exists_eq_or_imp, hsoft, not_true_eq_false, false_or]
      exact ih
    · have hcounts : ∀ limit, Counts wiphy limit t ↔ limit.types.testBit t = true := fun limit =>
        and_iff_left hsoft
      have hallowed : ¬iftypeAllowed wiphy t false 1 = true := hsoft
      rw [if_neg hallowed]
      have hone := limitsLoop_spec t (params.iftypeNum t) limits allIftypes
      cases hlimits : limitsLoop t (params.iftypeNum t) limits allIftypes with
      | none =>
        rw [hlimits] at hone
        obtain ⟨limit, hmem, hbit, hlt⟩ := hone
        refine ⟨limit, hmem, ?_⟩
        rw [hcons, if_pos ((hcounts limit).mpr hbit)]
        omega
      | some res =>
        obtain ⟨limits', all⟩ := res
        rw [hlimits] at hone
        obtain ⟨rfl, hle, hall⟩ := hone
        dsimp only
        have ih := ih (limits.map (·.reduce t (params.iftypeNum t))) all
        -- what the other types need of the reduced limit is what all need of it
        have hfits : ∀ limit ∈ limits, need wiphy params iftypes limit ≤ (limit.reduce t (params.iftypeNum t)).max ↔
            need wiphy params (t :: iftypes) limit ≤ limit.max := by
          intro limit hmem
          rw [hcons, IfaceLimit.reduce]
          by_cases hbit : limit.types.testBit t = true
          · have := hle limit hmem hbit
            rw [if_pos hbit, if_pos ((hcounts limit).mpr hbit)]
            show _ ≤ limit.max - params.iftypeNum t ↔ _
            omega
          · rw [if_neg hbit, if_neg fun h => hbit ((hcounts limit).mp h), Nat.zero_add]
        cases hrest : iftypesLoop wiphy params iftypes (limits.map (·.reduce t (params.iftypeNum t))) all with
        | none =>
          rw [hrest] at ih
          obtain ⟨limit', hmem', hlt⟩ := ih
          obtain ⟨limit, hmem, rfl⟩ := mem_map.mp hmem'
          rw [need_reduce] at hlt
          refine ⟨limit, hmem, ?_⟩
          have := hfits limit hmem
          omega
        | some res =>
          obtain ⟨limits', all'⟩ := res
          rw [hrest] at ih
          obtain ⟨hneed, hall'⟩ := ih
          constructor
          · intro limit hmem
            refine (hfits limit hmem).mp ?_
            rw [← need_reduce wiphy params iftypes limit t (params.iftypeNum t)]
            exact hneed _ (mem_map_of_mem hmem)
          · intro i
            have htypes : (∃ limit ∈ limits.map (·.reduce t (params.iftypeNum t)), limit.types.testBit i = true) ↔
                ∃ limit ∈ limits, limit.types.testBit i = true := by
              simp only [mem_map, exists_exists_and_eq_and, IfaceLimit.reduce_types]
            have hsome : ∃ iftype ∈ t :: iftypes, ¬Software wiphy iftype := ⟨t, mem_cons_self, hsoft⟩
            rw [hall' i, hall i, htypes, and_iff_right hsome, or_assoc]
            refine or_congr_right ⟨?_, .inl⟩
            rintro (h | h)
            · exact h
            · exact h.2

end Types

/-! ### Beacon intervals -/

/-- A state of `cfg80211_calculate_bi_data` stands for some intervals. -/
structure Represents (bi : ℕ × Bool) (ints : Multiset ℕ) : Prop where
  gcd : bi.1 = ints.gcd
  different : bi.2 = true ↔ ∃ a ∈ ints, ∃ b ∈ ints, a ≠ b
  nonzero : ∀ a ∈ ints, a ≠ 0

theorem gcd_eq_of_forall_eq {ints : Multiset ℕ} {a : ℕ} (ha : a ∈ ints) (hall : ∀ b ∈ ints, b = a) :
    ints.gcd = a := by
  refine Nat.dvd_antisymm (Multiset.gcd_dvd ha) (Multiset.dvd_gcd.mpr ?_)
  intro b hb
  rw [hall b hb]

section Intervals

variable {bi : ℕ × Bool} {ints : Multiset ℕ}

theorem Represents.eq_zero_iff (h : Represents bi ints) : bi.1 = 0 ↔ ints = 0 := by
  rw [h.gcd, Multiset.gcd_eq_zero_iff]
  constructor
  · intro hzero
    exact Multiset.eq_zero_of_forall_notMem fun a ha => h.nonzero a ha (hzero a ha)
  · rintro rfl a ha
    exact absurd ha (Multiset.notMem_zero a)

/-- Until there is a difference, all intervals are the greatest common divisor. -/
theorem Represents.eq_gcd (h : Represents bi ints) (hsame : bi.2 = false) {a : ℕ} (ha : a ∈ ints) : a = bi.1 := by
  have hall : ∀ b ∈ ints, b = a := by
    intro b hb
    by_contra hne
    have htrue : bi.2 = true := h.different.mpr ⟨b, hb, a, ha, hne⟩
    exact absurd (hsame.symm.trans htrue) (by decide)
  rw [h.gcd, gcd_eq_of_forall_eq ha hall]

theorem Represents.round (h : Represents bi ints) {b : ℕ} (hb : b ≠ 0) : Represents (biRound bi b) (b ::ₘ ints) := by
  have hnonzero : ∀ a ∈ b ::ₘ ints, a ≠ 0 := by
    intro a ha
    rcases Multiset.mem_cons.mp ha with rfl | ha
    · exact hb
    · exact h.nonzero a ha
  have hcons : (b ::ₘ ints).gcd = Nat.gcd b ints.gcd := Multiset.gcd_cons b ints
  rw [biRound, if_neg hb]
  by_cases hzero : bi.1 = 0
  · -- the first one
    obtain rfl := h.eq_zero_iff.mp hzero
    have hfalse : bi.2 = false := by
      cases hd : bi.2 with
      | false => rfl
      | true =>
        obtain ⟨a, ha, -⟩ := h.different.mp hd
        exact absurd ha (Multiset.notMem_zero a)
    rw [if_pos hzero]
    refine ⟨?_, iff_of_false (by rw [hfalse]; decide) ?_, hnonzero⟩
    · rw [hcons, Multiset.gcd_zero, Nat.gcd_zero_right]
    · rintro ⟨a, ha, c, hc, hne⟩
      rw [Multiset.cons_zero, Multiset.mem_singleton] at ha hc
      exact hne (ha.trans hc.symm)
  rw [if_neg hzero]
  by_cases hsame : b = bi.1
  · rw [if_pos hsame]
    refine ⟨?_, ?_, hnonzero⟩
    · rw [hcons, ← h.gcd, hsame, Nat.gcd_self]
    · constructor
      · intro hd
        obtain ⟨a, ha, c, hc, hne⟩ := h.different.mp hd
        exact ⟨a, Multiset.mem_cons_of_mem ha, c, Multiset.mem_cons_of_mem hc, hne⟩
      · rintro ⟨a, ha, c, hc, hne⟩
        by_contra hd
        have hfalse := Bool.eq_false_iff.mpr hd
        have hall : ∀ a ∈ b ::ₘ ints, a = bi.1 := by
          intro a ha
          rcases Multiset.mem_cons.mp ha with rfl | ha
          · exact hsame
          · exact h.eq_gcd hfalse ha
        exact hne ((hall a ha).trans (hall c hc).symm)
  · rw [if_neg hsame]
    refine ⟨?_, iff_of_true rfl ?_, hnonzero⟩
    · rw [hcons, ← h.gcd, Nat.gcd_comm]
    · by_contra hall
      have hne : ints ≠ 0 := fun hints => hzero (h.eq_zero_iff.mpr hints)
      obtain ⟨a, ha⟩ := Multiset.exists_mem_of_ne_zero hne
      have hfalse : bi.2 = false := by
        cases hd : bi.2 with
        | false => rfl
        | true =>
          obtain ⟨a, ha, c, hc, hne⟩ := h.different.mp hd
          exact absurd ⟨a, Multiset.mem_cons_of_mem ha, c, Multiset.mem_cons_of_mem hc, hne⟩ hall
      refine hall ⟨b, Multiset.mem_cons_self b ints, a, Multiset.mem_cons_of_mem ha, ?_⟩
      rw [h.eq_gcd hfalse ha]
      exact hsame

theorem Represents.foldl (h : Represents bi ints) (l : List ℕ) :
    Represents (l.foldl biRound bi) (ints + (l.filter (· ≠ 0) : List ℕ)) := by
  induction l generalizing bi ints with
  | nil => simpa using h
  | cons b l ih =>
    rw [foldl_cons]
    by_cases hb : b = 0
    · have hround : biRound bi b = bi := if_pos hb
      rw [hround, filter_cons_of_neg (by simpa using hb)]
      exact ih h
    · have hmove : ints + ((b :: l).filter (· ≠ 0) : List ℕ) = (b ::ₘ ints) + (l.filter (· ≠ 0) : List ℕ) := by
        rw [filter_cons_of_pos (by simpa using hb), ← Multiset.cons_coe, Multiset.add_cons, Multiset.cons_add]
      rw [hmove]
      exact ih (h.round hb)

theorem calculateBiData_eq (wdevList : List ℕ) (newBeaconInt : ℕ) :
    calculateBiData wdevList newBeaconInt = biRound (wdevList.foldl biRound (0, false)) newBeaconInt := by
  rw [calculateBiData, biRound]
  generalize wdevList.foldl biRound (0, false) = bi
  by_cases hnew : newBeaconInt = 0
  · rw [if_neg fun h => h.1 hnew, if_pos hnew]
  rw [if_neg hnew]
  by_cases hzero : bi.1 = 0
  · have hne : bi.1 ≠ newBeaconInt := fun h => hnew (h.symm.trans hzero)
    rw [if_pos ⟨hnew, hne⟩, if_pos hzero, if_neg (not_not.mpr hzero), hzero, Nat.gcd_zero_left]
  · rw [if_neg hzero, if_pos hzero]
    by_cases hsame : newBeaconInt = bi.1
    · rw [if_neg fun h => h.2 hsame.symm, if_pos hsame]
    · rw [if_pos ⟨hnew, Ne.symm hsame⟩, if_neg hsame]

/-- **The greatest common divisor is the true one**, and so is the difference. -/
theorem represents_calculateBiData (params : IfaceCombinationParams) (wdevList : List ℕ) :
    Represents (calculateBiData wdevList params.newBeaconInt) (beaconInts params wdevList : List ℕ) := by
  have hstart : Represents (0, false) 0 := by
    refine ⟨Multiset.gcd_zero.symm, iff_of_false (by decide) ?_, ?_⟩
    · rintro ⟨a, ha, -⟩
      exact Multiset.notMem_zero a ha
    · intro a ha
      exact absurd ha (Multiset.notMem_zero a)
  have hall := hstart.foldl (wdevList ++ [params.newBeaconInt])
  rw [foldl_append, foldl_cons, foldl_nil, ← calculateBiData_eq, Multiset.zero_add] at hall
  have hperm : (beaconInts params wdevList : Multiset ℕ) =
      ((wdevList ++ [params.newBeaconInt]).filter (· ≠ 0) : List ℕ) :=
    Multiset.coe_eq_coe.mpr ((perm_append_singleton params.newBeaconInt wdevList).symm.filter _)
  rw [hperm]
  exact hall

end Intervals

/-! ### One combination -/

section Combination

variable {wiphy : WiphyIfaces} {params : IfaceCombinationParams} {wdevList : List ℕ} {regdom : Option ℕ}
  {c : IfaceCombination}

theorem beacon_iff {bi : ℕ × Bool} {ints : List ℕ} (h : Represents bi ints) :
    (¬(bi.1 ≠ 0 ∧ c.beaconIntMinGcd ≠ 0 ∧ bi.1 < c.beaconIntMinGcd) ∧
      ¬(bi.1 ≠ 0 ∧ c.beaconIntMinGcd = 0 ∧ bi.2 = true)) ↔
    (c.beaconIntMinGcd ≠ 0 → ints ≠ [] → c.beaconIntMinGcd ≤ (ints : Multiset ℕ).gcd) ∧
      (c.beaconIntMinGcd = 0 → ∀ a ∈ ints, ∀ b ∈ ints, a = b) := by
  have hzero : bi.1 = 0 ↔ ints = [] := by rw [h.eq_zero_iff, Multiset.coe_eq_zero]
  refine and_congr ?_ ?_
  · rw [← h.gcd, ne_eq, ne_eq, hzero]
    constructor
    · intro hnot hmin hints
      by_contra hlt
      exact hnot ⟨hints, hmin, Nat.lt_of_not_le hlt⟩
    · rintro hle ⟨hints, hmin, hlt⟩
      exact absurd (hle hmin hints) (Nat.not_le.mpr hlt)
  · constructor
    · intro hnot hmin a ha b hb
      by_contra hne
      refine hnot ⟨fun hz => ?_, hmin, h.different.mpr ⟨a, ha, b, hb, hne⟩⟩
      rw [hzero.mp hz] at ha
      cases ha
    · rintro hsame ⟨-, hmin, hd⟩
      obtain ⟨a, ha, b, hb, hne⟩ := h.different.mp hd
      exact hne (hsame hmin a ha b hb)

/-- **One combination**, with room for all interfaces and channels. -/
theorem combinationFits_iff (htotal : numInterfaces params ≤ c.maxInterfaces)
    (hchannels : params.numDifferentChannels ≤ c.numDifferentChannels) :
    combinationFits wiphy params (calculateBiData wdevList params.newBeaconInt) (dfsRegion params regdom) c = true ↔
      Allows wiphy params wdevList regdom c := by
  have hlimits := iftypesLoop_spec wiphy params (List.finRange NUM_NL80211_IFTYPES) c.limits 0
  have hbeacon := beacon_iff (c := c) (represents_calculateBiData params wdevList)
  rw [combinationFits]
  cases hloop : iftypesLoop wiphy params (List.finRange NUM_NL80211_IFTYPES) c.limits 0 with
  | none =>
    rw [hloop] at hlimits
    obtain ⟨limit, hmem, hlt⟩ := hlimits
    rw [need_finRange] at hlt
    exact iff_of_false Bool.false_ne_true fun h => absurd (h.limits limit hmem) (Nat.not_le.mpr hlt)
  | some res =>
    obtain ⟨limits', all⟩ := res
    rw [hloop] at hlimits
    obtain ⟨hneed, hall⟩ := hlimits
    have hwidths : params.radarDetect = c.radarDetectWidths &&& params.radarDetect ↔
        ∀ i, params.radarDetect.testBit i = true → c.radarDetectWidths.testBit i = true :=
      eq_comm.trans (and_eq_right_iff_testBit _ _)
    have hregion : ¬(params.radarDetect ≠ 0 ∧ c.radarDetectRegions ≠ 0 ∧
        ¬c.radarDetectRegions.testBit (dfsRegion params regdom) = true) ↔
        (params.radarDetect ≠ 0 → c.radarDetectRegions ≠ 0 →
          c.radarDetectRegions.testBit (regdom.getD 0) = true) := by
      constructor
      · intro hnot hradar hregions
        by_contra hbit
        refine hnot ⟨hradar, hregions, ?_⟩
        rw [dfsRegion, if_pos hradar]
        exact hbit
      · rintro himp ⟨hradar, hregions, hbit⟩
        rw [dfsRegion, if_pos hradar] at hbit
        exact hbit (himp hradar hregions)
    have hused : all &&& usedIftypes wiphy params = usedIftypes wiphy params ↔
        ∀ iftype, 0 < params.iftypeNum iftype → ¬Software wiphy iftype →
          ∃ limit ∈ c.limits, limit.types.testBit iftype = true := by
      rw [and_eq_right_iff_testBit]
      constructor
      · intro h iftype hpos hsoft
        have hbit := (hall iftype).mp (h iftype ((testBit_usedIftypes wiphy params iftype).mpr
          ⟨iftype, rfl, hpos, hsoft⟩))
        rw [Nat.zero_testBit] at hbit
        exact (hbit.resolve_left (by decide)).2
      · intro h i hi
        obtain ⟨iftype, rfl, hpos, hsoft⟩ := (testBit_usedIftypes wiphy params i).mp hi
        exact (hall iftype).mpr (.inr ⟨⟨iftype, mem_finRange iftype, hsoft⟩, h iftype hpos hsoft⟩)
    dsimp only
    constructor
    · intro hfits
      split at hfits
      · cases hfits
      rename_i h1
      split at hfits
      · cases hfits
      rename_i h2
      split at hfits
      · cases hfits
      rename_i h3
      split at hfits
      · cases hfits
      rename_i h4
      split at hfits
      · cases hfits
      rename_i h5
      obtain ⟨hgcd, hsame⟩ := hbeacon.mp ⟨h4, h5⟩
      exact
        { total := numInterfaces_eq params ▸ htotal
          channels := hchannels
          limits := fun limit hmem => need_finRange wiphy params limit ▸ hneed limit hmem
          covered := hused.mp (not_not.mp h3)
          radarWidths := hwidths.mp (not_not.mp h1)
          radarRegion := hregion.mp h2
          gcdEnough := hgcd
          sameInts := hsame }
    · intro h
      obtain ⟨h4, h5⟩ := hbeacon.mpr ⟨h.gcdEnough, h.sameInts⟩
      rw [if_neg (not_not.mpr (hwidths.mpr h.radarWidths)), if_neg (hregion.mpr h.radarRegion),
        if_neg (not_not.mpr (hused.mpr h.covered)), if_neg h4, if_neg h5]

theorem combinationRound_iff (alloc : Bool) :
    combinationRound wiphy params (calculateBiData wdevList params.newBeaconInt) (dfsRegion params regdom) c alloc =
        some true ↔
      combinationRound wiphy params (calculateBiData wdevList params.newBeaconInt) (dfsRegion params regdom) c alloc ≠
        none ∧ Allows wiphy params wdevList regdom c := by
  rw [combinationRound]
  by_cases htotal : c.maxInterfaces < numInterfaces params
  · rw [if_pos htotal]
    refine iff_of_false (by decide) fun h => ?_
    have := h.2.total
    rw [← numInterfaces_eq] at this
    omega
  by_cases hchannels : c.numDifferentChannels < params.numDifferentChannels
  · rw [if_neg htotal, if_pos hchannels]
    exact iff_of_false (by decide) fun h => absurd h.2.channels (Nat.not_le.mpr hchannels)
  rw [if_neg htotal, if_neg hchannels]
  cases alloc with
  | false => exact iff_of_false (by rintro ⟨⟩) fun h => h.1 rfl
  | true =>
    rw [if_neg (by decide), Option.some.injEq,
      combinationFits_iff (Nat.le_of_not_lt htotal) (Nat.le_of_not_lt hchannels)]
    exact (and_iff_right (Option.some_ne_none _)).symm

theorem combinationRound_eq_none {bi : ℕ × Bool} {region : ℕ} {alloc : Bool}
    (h : combinationRound wiphy params bi region c alloc = none) : alloc = false := by
  rw [combinationRound] at h
  split at h
  · cases h
  split at h
  · cases h
  split at h
  · rename_i halloc
    simpa using halloc
  · cases h

end Combination

/-! ### The loop -/

section Loop

variable {wiphy : WiphyIfaces} {params : IfaceCombinationParams} {bi : ℕ × Bool} {region : ℕ} {alloc : ℕ → Bool}

theorem combinationsLoop_spec (i : ℕ) (cs : List IfaceCombination) (calls : List ℕ) :
    ∃ new, (combinationsLoop wiphy params bi region alloc i cs calls).2 = calls ++ new ∧ new.Pairwise (· < ·) ∧
      (∀ j ∈ new, ∃ k c, j = i + k ∧ cs[k]? = some c ∧
        combinationRound wiphy params bi region c (alloc j) = some true) ∧
      ((combinationsLoop wiphy params bi region alloc i cs calls).1 = 0 → ∀ k c, cs[k]? = some c →
        combinationRound wiphy params bi region c (alloc (i + k)) ≠ none ∧
          (combinationRound wiphy params bi region c (alloc (i + k)) = some true → i + k ∈ new)) ∧
      ((∀ j, alloc j = true) → (combinationsLoop wiphy params bi region alloc i cs calls).1 = 0) := by
  induction cs generalizing i calls with
  | nil =>
    refine ⟨[], by rw [combinationsLoop, append_nil], List.Pairwise.nil, ?_, ?_, fun _ => by rw [combinationsLoop]⟩
    · intro j hj
      cases hj
    · intro _ k c hk
      cases hk
  | cons c cs ih =>
    rw [combinationsLoop]
    cases hround : combinationRound wiphy params bi region c (alloc i) with
    | none =>
      refine ⟨[], (append_nil _).symm, List.Pairwise.nil, ?_, ?_, ?_⟩
      · intro j hj
        cases hj
      · intro hret
        have hret : -ENOMEM = 0 := hret
        exact absurd hret (by decide)
      · intro halloc
        exact absurd ((combinationRound_eq_none hround).symm.trans (halloc i)) (by decide)
    | some call =>
      dsimp only
      obtain ⟨new, hcalls, hincreasing, hsound, hcomplete, hmemory⟩ :=
        ih (i + 1) (if call = true then calls ++ [i] else calls)
      refine ⟨if call = true then i :: new else new, ?_, ?_, ?_, ?_, hmemory⟩
      · rw [hcalls]
        cases call with
        | true => exact append_assoc calls [i] new
        | false => rfl
      · cases call with
        | true =>
          refine pairwise_cons.mpr ⟨?_, hincreasing⟩
          intro j hj
          obtain ⟨k, -, rfl, -⟩ := hsound j hj
          omega
        | false => exact hincreasing
      · have hlater : ∀ j ∈ new, ∃ k c', j = i + k ∧ (c :: cs)[k]? = some c' ∧
            combinationRound wiphy params bi region c' (alloc j) = some true := by
          intro j hj
          obtain ⟨k, c', rfl, hk, hc'⟩ := hsound j hj
          exact ⟨k + 1, c', by omega, hk, hc'⟩
        intro j hj
        cases call with
        | true =>
          rcases mem_cons.mp hj with rfl | hj
          · exact ⟨0, c, rfl, rfl, hround⟩
          · exact hlater j hj
        | false => exact hlater j hj
      · intro hret k c' hk
        rcases k with _ | k
        · cases hk
          rw [Nat.add_zero, hround]
          refine ⟨Option.some_ne_none _, fun hcall => ?_⟩
          cases hcall
          exact mem_cons_self
        · have hnext := hcomplete hret k c' hk
          have hindex : i + (k + 1) = i + 1 + k := by omega
          rw [hindex]
          refine ⟨hnext.1, fun hcall => ?_⟩
          cases call with
          | true => exact mem_cons_of_mem i (hnext.2 hcall)
          | false => exact hnext.2 hcall

theorem combinationsLoop_congr {wiphy' : WiphyIfaces} {bi' : ℕ × Bool} {cs cs' : List IfaceCombination}
    (h : List.Forall₂ (fun c c' => ∀ a, combinationRound wiphy' params bi' region c' a =
      combinationRound wiphy params bi region c a) cs cs') (i : ℕ) (calls : List ℕ) :
    combinationsLoop wiphy' params bi' region alloc i cs' calls =
      combinationsLoop wiphy params bi region alloc i cs calls := by
  induction h generalizing i calls with
  | nil => rfl
  | cons hc _ ih =>
    rw [combinationsLoop, combinationsLoop, hc]
    split
    · rfl
    · exact ih _ _

end Loop

/-! ### Order -/

section Order

variable {wiphy : WiphyIfaces} {params : IfaceCombinationParams} {wdevList wdevList' : List ℕ} {regdom : Option ℕ}
  {c c' : IfaceCombination}

/-- The order of the devices and of the limits is of no account for one combination. -/
theorem Allows.perm (h : Allows wiphy params wdevList regdom c) (hwdevs : wdevList.Perm wdevList')
    (hc : SameLimits c c') (combinations' : List IfaceCombination) :
    Allows { wiphy with ifaceCombinations := combinations' } params wdevList' regdom c' := by
  obtain ⟨hlimits, hsame⟩ := hc
  have hints : (beaconInts params wdevList).Perm (beaconInts params wdevList') := (hwdevs.cons _).filter _
  have hgcd : beaconGcd params wdevList' = beaconGcd params wdevList := by
    rw [beaconGcd, beaconGcd, Multiset.coe_eq_coe.mpr hints]
  rw [hsame]
  refine ⟨h.total, h.channels, ?_, ?_, h.radarWidths, h.radarRegion, ?_, ?_⟩
  · intro limit hmem
    exact h.limits limit (hlimits.mem_iff.mpr hmem)
  · intro iftype hpos hsoft
    obtain ⟨limit, hmem, hbit⟩ := h.covered iftype hpos hsoft
    exact ⟨limit, hlimits.mem_iff.mp hmem, hbit⟩
  · intro hmin hne
    rw [hgcd]
    refine h.gcdEnough hmin fun hnil => hne ?_
    rw [hnil] at hints
    exact nil_perm.mp hints
  · intro hmin a ha b hb
    exact h.sameInts hmin a (hints.mem_iff.mpr ha) b (hints.mem_iff.mpr hb)

theorem SameLimits.symm (h : SameLimits c c') : SameLimits c' c := by
  obtain ⟨hlimits, hsame⟩ := h
  refine ⟨hlimits.symm, ?_⟩
  rw [hsame]

theorem combinationRound_perm (hwdevs : wdevList.Perm wdevList') (hc : SameLimits c c')
    (combinations' : List IfaceCombination) (alloc : Bool) :
    combinationRound { wiphy with ifaceCombinations := combinations' } params
        (calculateBiData wdevList' params.newBeaconInt) (dfsRegion params regdom) c' alloc =
      combinationRound wiphy params (calculateBiData wdevList params.newBeaconInt) (dfsRegion params regdom) c alloc := by
  have hmax : c'.maxInterfaces = c.maxInterfaces := by rw [hc.2]
  have hchan : c'.numDifferentChannels = c.numDifferentChannels := by rw [hc.2]
  rw [combinationRound, combinationRound, hmax, hchan]
  by_cases htotal : c.maxInterfaces < numInterfaces params
  · rw [if_pos htotal, if_pos htotal]
  by_cases hchannels : c.numDifferentChannels < params.numDifferentChannels
  · rw [if_neg htotal, if_neg htotal, if_pos hchannels, if_pos hchannels]
  rw [if_neg htotal, if_neg htotal, if_neg hchannels, if_neg hchannels]
  congr 2
  rw [Bool.eq_iff_iff, combinationFits_iff (by rw [hmax]; omega) (by rw [hchan]; omega),
    combinationFits_iff (Nat.le_of_not_lt htotal) (Nat.le_of_not_lt hchannels)]
  exact ⟨fun h => h.perm hwdevs.symm hc.symm wiphy.ifaceCombinations, fun h => h.perm hwdevs hc combinations'⟩

end Order

/-- **`cfg80211_iter_combinations` calls its function for the combinations that allow what runs, and no others.** -/
theorem iterCombinations_right (wiphy : WiphyIfaces) (params : IfaceCombinationParams) (wdevList : List ℕ)
    (regdom : Option ℕ) (alloc : ℕ → Bool) : IterRight wiphy params wdevList regdom alloc := by
  obtain ⟨new, hcalls, hincreasing, hsound, hcomplete, hmemory⟩ := @combinationsLoop_spec wiphy params
    (calculateBiData wdevList params.newBeaconInt) (dfsRegion params regdom) alloc 0 wiphy.ifaceCombinations []
  have hcalls : (iterCombinations wiphy params wdevList regdom alloc).2 = new := hcalls
  have hfound : ∀ i ∈ new, ∃ c, wiphy.ifaceCombinations[i]? = some c ∧ Allows wiphy params wdevList regdom c := by
    intro i hi
    obtain ⟨k, c, rfl, hk, hround⟩ := hsound i hi
    rw [Nat.zero_add]
    exact ⟨c, hk, ((combinationRound_iff _).mp hround).2⟩
  have hall : (iterCombinations wiphy params wdevList regdom alloc).1 = 0 → ∀ i c,
      wiphy.ifaceCombinations[i]? = some c → Allows wiphy params wdevList regdom c → i ∈ new := by
    intro hret i c hi hallows
    have hround := hcomplete hret i c hi
    rw [Nat.zero_add] at hround
    exact hround.2 ((combinationRound_iff _).mpr ⟨hround.1, hallows⟩)
  refine ⟨?_, ?_, ?_, hmemory, ?_, ?_⟩
  · rw [hcalls]
    exact hincreasing
  · rw [hcalls]
    exact hfound
  · rw [hcalls]
    exact hall
  · intro halloc
    have hret : (iterCombinations wiphy params wdevList regdom alloc).1 = 0 := hmemory halloc
    rw [checkCombinations]
    dsimp only
    rw [if_neg (not_not.mpr hret), hcalls]
    constructor
    · intro hzero
      have hne : new ≠ [] := by
        rintro rfl
        exact absurd hzero (by decide)
      obtain ⟨i, hi⟩ := exists_mem_of_ne_nil new hne
      obtain ⟨c, hc, hallows⟩ := hfound i hi
      exact ⟨c, mem_of_getElem? hc, hallows⟩
    · rintro ⟨c, hc, hallows⟩
      obtain ⟨i, hi⟩ := mem_iff_getElem?.mp hc
      exact if_neg (length_pos_of_mem (hall hret i c hi hallows)).ne'
  · intro wdevList' combinations' hwdevs hcombinations
    rw [iterCombinations, iterCombinations]
    exact combinationsLoop_congr (hcombinations.imp fun c c' hc a => combinationRound_perm hwdevs hc combinations' a) 0 []

end Mac80211
