import Mac80211.Chan.Spectrum

/-!
# Compatible channel definitions

`cfg80211_chandef_compatible` returns one of two definitions that both can be used with, or nothing.
It looks at the control channel, the primary 40 MHz and the primary 80 MHz, where it takes 0 for
none, but not at a second segment, nor at whether 20 MHz come with HT.

## Main results

* `compatibleRight_iff` — when the answer is right
-/

namespace Mac80211

/-- Both orders give nothing, or identical definitions, which cover both, and support HT if one
does. -/
structure CompatibleRight (c1 c2 : ChanDef) : Prop where
  comm : Option.Rel (fun r r' => chandefIdentical r r' = true) (chandefCompatible c1 c2)
    (chandefCompatible c2 c1)
  left : ∀ r ∈ chandefCompatible c1 c2, c1.spectrum ⊆ r.spectrum
  right : ∀ r ∈ chandefCompatible c1 c2, c2.spectrum ⊆ r.spectrum
  ht : ∀ r ∈ chandefCompatible c1 c2, c1.supportsHt ∨ c2.supportsHt → r.supportsHt

/-- The definitions are not 20 MHz without HT and with it; if both are wide, with the same
primaries, the wider one covers the other. -/
structure MergesWell (c1 c2 : ChanDef) : Prop where
  ht : c1.chan = c2.chan → ¬ (c1.width = .w20NoHt ∧ c2.width = .w20) ∧
    ¬ (c1.width = .w20 ∧ c2.width = .w20NoHt)
  wider : c1.chan = c2.chan → c1.width.IsWide → c2.width.IsWide → SamePrimaries c1 c2 →
    (c1.width.rank < c2.width.rank → Covers c2 c1) ∧ (c2.width.rank < c1.width.rank → Covers c1 c2)

section

variable {c c1 c2 r : ChanDef}

/-! ### The function -/

theorem not_identical_of_width (h : c1.width ≠ c2.width) : chandefIdentical c1 c2 = false := by
  simp [chandefIdentical, h]

theorem samePrimaries_comm : SamePrimaries c1 c2 ↔ SamePrimaries c2 c1 := by
  rw [SamePrimaries, SamePrimaries]
  constructor
  · rintro ⟨h40, h80⟩
    exact ⟨h40.symm, fun ⟨h1, h2, hne⟩ => h80 ⟨h2, h1, hne.symm⟩⟩
  · rintro ⟨h40, h80⟩
    exact ⟨h40.symm, fun ⟨h1, h2, hne⟩ => h80 ⟨h2, h1, hne.symm⟩⟩

/-- 40 MHz or more. -/
def ChanWidth.IsRow (w : ChanWidth) : Prop := w = .w40 ∨ w.IsWide

theorem ChanWidth.IsRow.ne {w : ChanWidth} (h : w.IsRow) :
    w ≠ .w5 ∧ w ≠ .w10 ∧ w ≠ .w20NoHt ∧ w ≠ .w20 := by
  rcases h with rfl | rfl | rfl | rfl
  all_goals decide

theorem ChanWidth.IsRow.isNarrow_eq_false (h : c.width.IsRow) : c.isNarrow = false := by
  simp [ChanDef.isNarrow, h.ne]

theorem compatible_of_isRow (hchan : c1.chan = c2.chan) (hne : c1.width ≠ c2.width)
    (hw1 : c1.width.IsRow) (hw2 : c2.width.IsRow) : chandefCompatible c1 c2 =
      if SamePrimaries c1 c2 then if c2.width.rank < c1.width.rank then some c1 else some c2
      else none := by
  obtain ⟨h5, h10, hno, h20⟩ := hw1.ne
  obtain ⟨h5', h10', hno', h20'⟩ := hw2.ne
  rw [chandefCompatible, not_identical_of_width hne, if_neg Bool.false_ne_true, if_neg (by simp [hchan]),
    if_neg hne, if_neg (by simp [h5, h10, h5', h10']), if_neg (by simp [hno, h20]),
    if_neg (by simp [hno', h20'])]
  dsimp only
  by_cases h40 : (chandefPrimaryFreqs c1).1 = (chandefPrimaryFreqs c2).1
  · rw [if_neg (not_not.2 h40)]
    split
    · rename_i h80
      rw [if_neg (fun h : SamePrimaries c1 c2 => h.2 h80)]
    · rename_i h80
      have hpri : SamePrimaries c1 c2 := ⟨h40, h80⟩
      rw [if_pos hpri]
  · rw [if_pos h40, if_neg (fun h : SamePrimaries c1 c2 => h40 h.1)]

theorem compatible_of_w20 (hchan : c1.chan = c2.chan) (hne : c1.width ≠ c2.width)
    (hw1 : c1.width = .w20NoHt ∨ c1.width = .w20) (hnarrow : c2.isNarrow = false) :
    chandefCompatible c1 c2 = some c2 := by
  have h5 : c1.width ≠ .w5 ∧ c1.width ≠ .w10 := by
    rcases hw1 with hw | hw
    all_goals
      rw [hw]
      decide
  simp only [ChanDef.isNarrow, Bool.or_eq_false_iff, decide_eq_false_iff_not] at hnarrow
  rw [chandefCompatible, not_identical_of_width hne, if_neg Bool.false_ne_true, if_neg (by simp [hchan]),
    if_neg hne, if_neg (by simp [h5, hnarrow]), if_pos hw1]

theorem compatible_of_w20' (hchan : c1.chan = c2.chan) (hw1 : c1.width.IsRow)
    (hw2 : c2.width = .w20NoHt ∨ c2.width = .w20) : chandefCompatible c1 c2 = some c1 := by
  obtain ⟨h5, h10, hno, h20⟩ := hw1.ne
  have h5' : c2.width ≠ .w5 ∧ c2.width ≠ .w10 := by
    rcases hw2 with hw | hw
    all_goals
      rw [hw]
      decide
  have hne : c1.width ≠ c2.width := by
    rcases hw2 with hw | hw
    · rw [hw]
      exact hno
    · rw [hw]
      exact h20
  rw [chandefCompatible, not_identical_of_width hne, if_neg Bool.false_ne_true, if_neg (by simp [hchan]),
    if_neg hne, if_neg (by simp [h5, h10, h5']), if_neg (by simp [hno, h20]), if_pos hw2]

theorem CompatibleRight.of_none (h : chandefCompatible c1 c2 = none) (h' : chandefCompatible c2 c1 = none) :
    CompatibleRight c1 c2 where
  comm := by
    rw [h, h']
    exact .none
  left := fun r hr => by
    rw [h] at hr
    cases hr
  right := fun r hr => by
    rw [h] at hr
    cases hr
  ht := fun r hr => by
    rw [h] at hr
    cases hr

theorem CompatibleRight.of_some (h : chandefCompatible c1 c2 = some r)
    (h' : chandefCompatible c2 c1 = some r) (hleft : c1.spectrum ⊆ r.spectrum)
    (hright : c2.spectrum ⊆ r.spectrum) (hht : r.supportsHt) : CompatibleRight c1 c2 where
  comm := by
    rw [h, h']
    exact .some (identical_self r)
  left := fun r' hr => by
    rw [h] at hr
    cases hr
    exact hleft
  right := fun r' hr => by
    rw [h] at hr
    cases hr
    exact hright
  ht := fun r' hr _ => by
    rw [h] at hr
    cases hr
    exact hht

theorem supportsHt_of_isRow (h : c.width.IsRow) : c.supportsHt := by
  exact ⟨h.ne.2.2.1, h.isNarrow_eq_false⟩

/-- Two definitions of at least 40 MHz, the first of which is the narrower one. -/
theorem compatibleRight_of_rank (h1 : chandefValid c1 = true) (h2 : chandefValid c2 = true)
    (hchan : c1.chan = c2.chan) (hw1 : c1.width.IsRow) (hw2 : c2.width.IsRow)
    (hrank : c1.width.rank < c2.width.rank) : CompatibleRight c1 c2 ↔
      (c1.width.IsWide → c2.width.IsWide → SamePrimaries c1 c2 → Covers c2 c1) := by
  have hne : c1.width ≠ c2.width := fun h => by
    rw [h] at hrank
    exact lt_irrefl _ hrank
  have heq := compatible_of_isRow hchan hne hw1 hw2
  have heq' := compatible_of_isRow hchan.symm hne.symm hw2 hw1
  rw [if_neg (not_lt.2 hrank.le)] at heq
  rw [if_pos hrank] at heq'
  have hwide : c2.width.IsWide := hw2.resolve_left fun h => by
    rcases hw1 with hw | hw | hw | hw
    all_goals
      rw [h, hw] at hrank
      exact absurd hrank (by decide)
  by_cases hpri : SamePrimaries c1 c2
  · rw [if_pos hpri] at heq
    rw [if_pos (samePrimaries_comm.1 hpri)] at heq'
    have hht := supportsHt_of_isRow hw2
    rcases hw1 with hw1 | hw1
    · have hsub := spectrum_subset_of_w40 h2 hw1 hwide hpri.1
      refine iff_of_true (.of_some heq heq' hsub (Set.Subset.refl _) hht) fun hw => ?_
      rw [hw1] at hw
      exact absurd hw (by decide)
    · have hiff := spectrum_subset_iff_covers h1 h2 hw1 hwide hrank hpri.1
      constructor
      · intro h _ _ _
        exact hiff.1 (h.left c2 heq)
      · intro h
        exact .of_some heq heq' (hiff.2 (h hw1 hwide hpri)) (Set.Subset.refl _) hht
  · rw [if_neg hpri] at heq
    rw [if_neg fun h => hpri (samePrimaries_comm.1 h)] at heq'
    exact iff_of_true (.of_none heq heq') fun _ _ h => absurd h hpri

theorem CompatibleRight.symm (h : CompatibleRight c1 c2) : CompatibleRight c2 c1 := by
  obtain ⟨hcomm, hleft, hright, hht⟩ := h
  cases hr : chandefCompatible c1 c2 with
  | none =>
    cases hr' : chandefCompatible c2 c1 with
    | none => exact .of_none hr' hr
    | some r' =>
      rw [hr, hr'] at hcomm
      cases hcomm
  | some r =>
    cases hr' : chandefCompatible c2 c1 with
    | none =>
      rw [hr, hr'] at hcomm
      cases hcomm
    | some r' =>
      rw [hr, hr'] at hcomm
      obtain ⟨hid⟩ := hcomm
      have hspec := spectrum_of_identical hid
      have hwidth : r'.width = r.width := by
        simp only [chandefIdentical, Bool.and_eq_true, decide_eq_true_eq] at hid
        exact hid.1.1.2.symm
      refine ⟨?_, fun q hq => ?_, fun q hq => ?_, fun q hq hor => ?_⟩
      · rw [hr, hr']
        exact .some (identical_symm hid)
      · rw [hr'] at hq
        cases hq
        rw [← hspec]
        exact hright r hr
      · rw [hr'] at hq
        cases hq
        rw [← hspec]
        exact hleft r hr
      · rw [hr'] at hq
        cases hq
        rw [ChanDef.supportsHt, ChanDef.isNarrow, hwidth]
        exact hht r hr hor.symm

theorem MergesWell.symm (h : MergesWell c1 c2) : MergesWell c2 c1 where
  ht := fun hchan => by
    obtain ⟨hno, hno'⟩ := h.ht hchan.symm
    exact ⟨fun hw => hno' hw.symm, fun hw => hno hw.symm⟩
  wider := fun hchan hw2 hw1 hpri => (h.wider hchan.symm hw1 hw2 (samePrimaries_comm.1 hpri)).symm

theorem MergesWell.of_width (h : c1.width = c2.width) : MergesWell c1 c2 where
  ht := fun _ => by
    rw [h]
    constructor
    · rintro ⟨hno, h20⟩
      rw [hno] at h20
      cases h20
    · rintro ⟨h20, hno⟩
      rw [h20] at hno
      cases hno
  wider := fun _ _ _ _ => by
    rw [h]
    exact ⟨fun hrank => absurd hrank (lt_irrefl _), fun hrank => absurd hrank (lt_irrefl _)⟩

theorem compatible_eq_none (hid : chandefIdentical c1 c2 = false)
    (h : c1.chan ≠ c2.chan ∨ c1.width = c2.width ∨ c1.isNarrow = true ∨ c2.isNarrow = true) :
    chandefCompatible c1 c2 = none := by
  simp only [ChanDef.isNarrow, Bool.or_eq_true, decide_eq_true_eq] at h
  rw [chandefCompatible, hid, if_neg Bool.false_ne_true]
  split
  · rfl
  · rename_i hchan
    split
    · rfl
    · rename_i hwidth
      rw [if_pos]
      tauto

theorem w20_or_isRow (h : c.isNarrow = false) :
    (c.width = .w20NoHt ∨ c.width = .w20) ∨ c.width.IsRow := by
  have hall : ∀ w : ChanWidth, (w = .w5 || w = .w10) = false →
      (w = .w20NoHt ∨ w = .w20) ∨ w = .w40 ∨ w.IsWide := by
    intro w hw
    cases w
    all_goals
      revert hw
      decide
  exact hall c.width h

theorem not_isWide_of_narrow (h : c.isNarrow = true ∨ c.width = .w20NoHt ∨ c.width = .w20) :
    ¬ c.width.IsWide := by
  have hall : ∀ w : ChanWidth, (w = .w5 || w = .w10) = true ∨ w = .w20NoHt ∨ w = .w20 → ¬ w.IsWide := by
    intro w
    cases w
    all_goals decide
  exact hall c.width h

theorem MergesWell.of_not_wide (h20 : ¬ (c1.width = .w20NoHt ∧ c2.width = .w20) ∧
      ¬ (c1.width = .w20 ∧ c2.width = .w20NoHt)) (hwide : ¬ c1.width.IsWide ∨ ¬ c2.width.IsWide) :
    MergesWell c1 c2 where
  ht := fun _ => h20
  wider := fun _ hw1 hw2 => absurd hwide (not_or.2 ⟨not_not.2 hw1, not_not.2 hw2⟩)

theorem mergesWell_of_rank (hchan : c1.chan = c2.chan) (hw1 : c1.width.IsRow)
    (hrank : c1.width.rank < c2.width.rank) : MergesWell c1 c2 ↔
      (c1.width.IsWide → c2.width.IsWide → SamePrimaries c1 c2 → Covers c2 c1) := by
  constructor
  · intro h hwide1 hwide2 hpri
    exact (h.wider hchan hwide1 hwide2 hpri).1 hrank
  · intro h
    exact ⟨fun _ => ⟨fun hw => hw1.ne.2.2.1 hw.1, fun hw => hw1.ne.2.2.2 hw.1⟩,
      fun _ hwide1 hwide2 hpri => ⟨fun _ => h hwide1 hwide2 hpri, fun hlt => absurd hlt hrank.asymm⟩⟩

theorem rank_ne (h : c1.width ≠ c2.width) : c1.width.rank ≠ c2.width.rank := by
  have hinj : ∀ w w' : ChanWidth, w.rank = w'.rank → w = w' := by
    intro w w'
    cases w
    all_goals
      cases w'
      all_goals decide
  exact fun heq => h (hinj _ _ heq)

theorem MergesWell.of_narrow (h : c1.isNarrow = true) : MergesWell c1 c2 := by
  have hno : ∀ w : ChanWidth, (w = .w5 || w = .w10) = true → w ≠ .w20NoHt ∧ w ≠ .w20 := by
    intro w
    cases w
    all_goals decide
  exact .of_not_wide ⟨fun hw => (hno _ h).1 hw.1, fun hw => (hno _ h).2 hw.1⟩
    (.inl (not_isWide_of_narrow (.inl h)))

theorem right_of_w20 (h1 : chandefValid c1 = true) (h2 : chandefValid c2 = true)
    (hchan : c1.chan = c2.chan) (hw1 : c1.width = .w20NoHt ∨ c1.width = .w20) (hw2 : c2.width.IsRow) :
    CompatibleRight c1 c2 ∧ MergesWell c1 c2 := by
  obtain ⟨-, -, hno, h20⟩ := hw2.ne
  have hne : c1.width ≠ c2.width := by
    rcases hw1 with hw | hw
    · rw [hw]
      exact hno.symm
    · rw [hw]
      exact h20.symm
  exact ⟨.of_some (compatible_of_w20 hchan hne hw1 hw2.isNarrow_eq_false) (compatible_of_w20' hchan.symm hw2 hw1)
      (spectrum_subset_of_w20 h1 h2 hchan hw1 hw2.isNarrow_eq_false) (Set.Subset.refl _) (supportsHt_of_isRow hw2),
    .of_not_wide ⟨fun hw => h20 hw.2, fun hw => hno hw.2⟩ (.inl (not_isWide_of_narrow (.inr hw1)))⟩

theorem wrong_of_w20 (hchan : c1.chan = c2.chan) (hne : c1.width ≠ c2.width)
    (hw1 : c1.width = .w20NoHt ∨ c1.width = .w20) (hw2 : c2.width = .w20NoHt ∨ c2.width = .w20) :
    ¬ CompatibleRight c1 c2 ∧ ¬ MergesWell c1 c2 := by
  have hnarrow : ∀ w : ChanWidth, w = .w20NoHt ∨ w = .w20 → (w = .w5 || w = .w10) = false := by
    rintro w (rfl | rfl)
    all_goals decide
  have heq := compatible_of_w20 hchan hne hw1 (hnarrow _ hw2)
  have heq' := compatible_of_w20 hchan.symm hne.symm hw2 (hnarrow _ hw1)
  constructor
  · intro h
    have hcomm := h.comm
    rw [heq, heq'] at hcomm
    obtain ⟨hcomm⟩ := hcomm
    rw [not_identical_of_width hne.symm] at hcomm
    cases hcomm
  · intro h
    obtain ⟨hno, hno'⟩ := h.ht hchan
    rcases hw1 with hw1 | hw1
    · rcases hw2 with hw2 | hw2
      · exact hne (hw1.trans hw2.symm)
      · exact hno ⟨hw1, hw2⟩
    · rcases hw2 with hw2 | hw2
      · exact hno' ⟨hw1, hw2⟩
      · exact hne (hw1.trans hw2.symm)

theorem right_of_identical (hid : chandefIdentical c1 c2 = true) :
    CompatibleRight c1 c2 ∧ MergesWell c1 c2 := by
  have heq : chandefCompatible c1 c2 = some c1 := by rw [chandefCompatible, if_pos hid]
  have heq' : chandefCompatible c2 c1 = some c2 := by rw [chandefCompatible, if_pos (identical_symm hid)]
  have hwidth : c1.width = c2.width := by
    simp only [chandefIdentical, Bool.and_eq_true, decide_eq_true_eq] at hid
    exact hid.1.1.2
  refine ⟨⟨?_, fun r hr => ?_, fun r hr => ?_, fun r hr hor => ?_⟩, .of_width hwidth⟩
  · rw [heq, heq']
    exact .some hid
  · rw [heq] at hr
    cases hr
    exact Set.Subset.refl _
  · rw [heq] at hr
    cases hr
    exact (spectrum_of_identical hid).symm.subset
  · rw [heq] at hr
    cases hr
    rcases hor with hor | hor
    · exact hor
    · rw [ChanDef.supportsHt, ChanDef.isNarrow, hwidth]
      exact hor

theorem right_iff_of_not_narrow (h1 : chandefValid c1 = true) (h2 : chandefValid c2 = true)
    (hchan : c1.chan = c2.chan) (hne : c1.width ≠ c2.width) (hn1 : c1.isNarrow = false)
    (hn2 : c2.isNarrow = false) : CompatibleRight c1 c2 ↔ MergesWell c1 c2 := by
  rcases w20_or_isRow hn1 with hw1 | hw1
  · rcases w20_or_isRow hn2 with hw2 | hw2
    · obtain ⟨hright, hmerges⟩ := wrong_of_w20 hchan hne hw1 hw2
      exact iff_of_false hright hmerges
    · obtain ⟨hright, hmerges⟩ := right_of_w20 h1 h2 hchan hw1 hw2
      exact iff_of_true hright hmerges
  · rcases w20_or_isRow hn2 with hw2 | hw2
    · obtain ⟨hright, hmerges⟩ := right_of_w20 h2 h1 hchan.symm hw2 hw1
      exact iff_of_true hright.symm hmerges.symm
    · rcases lt_or_gt_of_ne (rank_ne hne) with hrank | hrank
      · rw [compatibleRight_of_rank h1 h2 hchan hw1 hw2 hrank, mergesWell_of_rank hchan hw1 hrank]
      · have hright : CompatibleRight c1 c2 ↔ CompatibleRight c2 c1 := ⟨.symm, .symm⟩
        have hmerges : MergesWell c1 c2 ↔ MergesWell c2 c1 := ⟨.symm, .symm⟩
        rw [hright, hmerges, compatibleRight_of_rank h2 h1 hchan.symm hw2 hw1 hrank,
          mergesWell_of_rank hchan.symm hw2 hrank]

/-- **Compatibility is right unless a width is forgotten**: symmetric, covering both, with HT if one
has it, just if they merge well. -/
theorem compatibleRight_iff (c1 c2 : ChanDef) (h1 : chandefValid c1 = true)
    (h2 : chandefValid c2 = true) : CompatibleRight c1 c2 ↔ MergesWell c1 c2 := by
  cases hid : chandefIdentical c1 c2 with
  | true =>
    obtain ⟨hright, hmerges⟩ := right_of_identical hid
    exact iff_of_true hright hmerges
  | false =>
    have hid' : chandefIdentical c2 c1 = false := by
      cases hid' : chandefIdentical c2 c1 with
      | false => rfl
      | true =>
        rw [identical_symm hid'] at hid
        cases hid
    have hnone (h : c1.chan ≠ c2.chan ∨ c1.width = c2.width ∨ c1.isNarrow = true ∨ c2.isNarrow = true) :
        CompatibleRight c1 c2 :=
      .of_none (compatible_eq_none hid h)
        (compatible_eq_none hid' (h.imp Ne.symm (.imp Eq.symm Or.symm)))
    by_cases hchan : c1.chan = c2.chan
    · by_cases hwidth : c1.width = c2.width
      · exact iff_of_true (hnone (.inr (.inl hwidth))) (.of_width hwidth)
      · cases hn1 : c1.isNarrow with
        | true => exact iff_of_true (hnone (.inr (.inr (.inl hn1)))) (.of_narrow hn1)
        | false =>
          cases hn2 : c2.isNarrow with
          | true =>
            have hmerges : MergesWell c2 c1 := .of_narrow hn2
            exact iff_of_true (hnone (.inr (.inr (.inr hn2)))) hmerges.symm
          | false => exact right_iff_of_not_narrow h1 h2 hchan hwidth hn1 hn2
    · exact iff_of_true (hnone (.inl hchan)) ⟨fun h => absurd h hchan, fun h => absurd h hchan⟩

end

/-! ### Two definitions on channel 36 -/

/-- 20 MHz. -/
def chan36 : ChanDef := { chan := some 5180, width := .w20, centerFreq1 := 5180 }

/-- 80 MHz, and another 80 MHz around channel 155. -/
def chan36w80p80 : ChanDef where
  chan := some 5180
  width := .w80p80
  centerFreq1 := 5210
  centerFreq2 := 5775

theorem compatibleRight_iff_chan36 : CompatibleRight chan36 chan36w80p80 :=
  (compatibleRight_iff chan36 chan36w80p80 (by decide) (by decide)).2
    (.of_not_wide (by decide) (.inl (by decide)))

/-- 20 MHz without HT and with it: the function returns the second one in both orders. -/
theorem compatible_loses_ht :
    chandefValid { chan36 with width := .w20NoHt } = true ∧ chandefValid chan36 = true ∧
      chandefCompatible chan36 { chan36 with width := .w20NoHt } =
        some { chan36 with width := .w20NoHt } ∧
      chandefCompatible { chan36 with width := .w20NoHt } chan36 = some chan36 ∧
      ¬ CompatibleRight chan36 { chan36 with width := .w20NoHt } := by
  refine ⟨by decide, by decide, by decide, by decide, fun h => ?_⟩
  have hht := h.ht { chan36 with width := .w20NoHt } (by decide) (.inl ⟨by decide, by decide⟩)
  exact hht.1 rfl

end Mac80211
