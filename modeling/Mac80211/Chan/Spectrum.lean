import Mac80211.Chan.Context
import Mac80211.Chan.DfsCoverage
import Mac80211.Lib.Arc
import Mathlib.Tactic.Abel

/-!
# The spectrum of a channel definition

A definition takes up one row of frequencies, or two. `cfg80211_chandef_valid` computes with them as
`u32`, so a row is an arc of a wheel of `2 ^ 32` MHz, and whether it is part of another depends on
the difference of the centres only. Channels are told apart by their frequency.

## Main definitions

* `ChanDef.spectrum`, `Covers`, `SamePrimaries`
-/

namespace Mac80211

open Arc

/-- The row of a centre frequency. -/
def ChanWidth.arc (width : ChanWidth) (center : UInt32) : Set UInt32 :=
  Arc.arc (center - width.mhz / 2) width.mhz

instance (width : ChanWidth) (center f : UInt32) : Decidable (f ∈ width.arc center) :=
  inferInstanceAs (Decidable (f ∈ Arc.arc _ _))

/-- `center_freq1` and, for 80+80 MHz, `center_freq2`, with half the width on both sides. -/
def ChanDef.spectrum (c : ChanDef) : Set UInt32 := {f | ∃ center ∈ c.centers, f ∈ c.width.arc center}

/-- A definition of at least 20 MHz, unless it is without HT. -/
def ChanDef.supportsHt (c : ChanDef) : Prop := c.width ≠ .w20NoHt ∧ c.isNarrow = false

/-- The primary 40 MHz are the same, and the primary 80 MHz if both are there: 0 is none. -/
def SamePrimaries (c1 c2 : ChanDef) : Prop :=
  (chandefPrimaryFreqs c1).1 = (chandefPrimaryFreqs c2).1 ∧
    ¬ ((chandefPrimaryFreqs c1).2 ≠ 0 ∧ (chandefPrimaryFreqs c2).2 ≠ 0 ∧
      (chandefPrimaryFreqs c1).2 ≠ (chandefPrimaryFreqs c2).2)

instance (c1 c2 : ChanDef) : Decidable (SamePrimaries c1 c2) := by
  unfold SamePrimaries
  infer_instance

/-- 80 MHz, 80+80 MHz or 160 MHz. -/
def ChanWidth.IsWide (w : ChanWidth) : Prop := w = .w80 ∨ w = .w80p80 ∨ w = .w160

instance (w : ChanWidth) : Decidable w.IsWide := by
  unfold ChanWidth.IsWide
  infer_instance

/-- The centres of `c` are at most 40 MHz from that of 160 MHz; next to 80+80 MHz, an 80 MHz
definition has the same centre, or the second segment covers what the first does not. -/
def Covers (r c : ChanDef) : Prop :=
  match r.width with
  | .w160 => ∀ center ∈ c.centers, center - r.centerFreq1 + 40 ≤ 80
  | .w80p80 => c.centerFreq1 = r.centerFreq1 ∨
      r.centerFreq1 = c.centerFreq1 + 40 ∧ c.centerFreq1 - r.centerFreq2 ≤ 40 ∨
      r.centerFreq1 = c.centerFreq1 - 40 ∧ c.centerFreq1 - r.centerFreq2 + 40 ≤ 40
  | _ => True

/-! ### Rows -/

theorem identical_self (c : ChanDef) : chandefIdentical c c = true := by simp [chandefIdentical]

theorem identical_symm {c1 c2 : ChanDef} (h : chandefIdentical c1 c2 = true) :
    chandefIdentical c2 c1 = true := by
  simp only [chandefIdentical, Bool.and_eq_true, decide_eq_true_eq] at h ⊢
  obtain ⟨⟨⟨hchan, hwidth⟩, h1⟩, h2⟩ := h
  exact ⟨⟨⟨hchan.symm, hwidth.symm⟩, h1.symm⟩, h2.symm⟩

theorem spectrum_of_identical {c1 c2 : ChanDef} (h : chandefIdentical c1 c2 = true) :
    c1.spectrum = c2.spectrum := by
  simp only [chandefIdentical, Bool.and_eq_true, decide_eq_true_eq] at h
  obtain ⟨⟨⟨-, hwidth⟩, h1⟩, h2⟩ := h
  rw [ChanDef.spectrum, ChanDef.spectrum, ChanDef.centers, ChanDef.centers, hwidth, h1, h2]

variable {c : ChanDef}

theorem centers_of_ne (h : c.width ≠ .w80p80) : c.centers = [c.centerFreq1] := by
  rw [ChanDef.centers, if_neg h]

theorem spectrum_of_ne (h : c.width ≠ .w80p80) : c.spectrum = c.width.arc c.centerFreq1 := by
  ext f
  simp [ChanDef.spectrum, centers_of_ne h]

theorem spectrum_w80p80 (h : c.width = .w80p80) :
    c.spectrum = c.width.arc c.centerFreq1 ∪ c.width.arc c.centerFreq2 := by
  ext f
  simp [ChanDef.spectrum, ChanDef.centers, h]

theorem arc_subset_spectrum (c : ChanDef) : c.width.arc c.centerFreq1 ⊆ c.spectrum := fun f hf => by
  refine ⟨c.centerFreq1, ?_, hf⟩
  rw [ChanDef.centers]
  split
  · exact List.mem_cons_self ..
  · exact List.mem_cons_self ..

/-! ### Valid definitions -/

section

variable {c c1 c2 r : ChanDef}

theorem centerFreqsValid_of_valid (h : chandefValid c = true) :
    ∃ control, c.chan = some control ∧ centerFreqsValid c control = true := by
  rw [chandefValid] at h
  split at h
  · cases h
  · rename_i control hchan
    refine ⟨control, hchan, ?_⟩
    by_contra hno
    rw [if_pos (by simpa using hno)] at h
    cases h

/-- How far the centre of a row can be from the control channel. -/
def ChanWidth.reach : ChanWidth → List UInt32
  | w5 | w10 | w20 | w20NoHt => [0]
  | w40 => [10]
  | w80 | w80p80 => [30, 10]
  | w160 => [70, 50, 30, 10]

/-- The first centre frequency is that far from the control channel. -/
def ChanDef.Offset (c : ChanDef) (control : UInt32) : Prop :=
  ∃ k ∈ c.width.reach, c.centerFreq1 = control + k ∨ c.centerFreq1 = control - k

theorem offset_of_valid (h : chandefValid c = true) :
    ∃ control, c.chan = some control ∧ c.Offset control := by
  obtain ⟨control, hchan, hv⟩ := centerFreqsValid_of_valid h
  refine ⟨control, hchan, ?_⟩
  have hreach {w : ChanWidth} (hw : c.width = w) {k : UInt32} (hk : k ∈ w.reach)
      (hcf1 : c.centerFreq1 = control + k ∨ c.centerFreq1 = control - k) : c.Offset control := by
    refine ⟨k, ?_, hcf1⟩
    rw [hw]
    exact hk
  have hfour (h : c.centerFreq1 = control + 30 ∨ c.centerFreq1 = control + 10 ∨
      c.centerFreq1 = control - 10 ∨ c.centerFreq1 = control - 30) {w : ChanWidth} (hw : c.width = w)
      (hk : 30 ∈ w.reach ∧ 10 ∈ w.reach) : c.Offset control := by
    rcases h with h | h | h | h
    · exact hreach hw hk.1 (.inl h)
    · exact hreach hw hk.2 (.inl h)
    · exact hreach hw hk.2 (.inr h)
    · exact hreach hw hk.1 (.inr h)
  rw [centerFreqsValid] at hv
  cases hw : c.width
  all_goals simp only [hw, Bool.and_eq_true, Bool.or_eq_true, decide_eq_true_eq, or_assoc, and_assoc] at hv
  case w40 =>
    rcases hv.1 with h | h
    · exact hreach hw (k := 10) (by decide) (.inl h)
    · exact hreach hw (k := 10) (by decide) (.inr h)
  case w80 => exact hfour hv.1 hw (by decide)
  case w80p80 => exact hfour hv.1 hw (by decide)
  case w160 =>
    rcases hv.1 with h | h | h | h | h | h | h | h
    · exact hreach hw (k := 70) (by decide) (.inl h)
    · exact hreach hw (k := 50) (by decide) (.inl h)
    · exact hreach hw (k := 30) (by decide) (.inl h)
    · exact hreach hw (k := 10) (by decide) (.inl h)
    · exact hreach hw (k := 10) (by decide) (.inr h)
    · exact hreach hw (k := 30) (by decide) (.inr h)
    · exact hreach hw (k := 50) (by decide) (.inr h)
    · exact hreach hw (k := 70) (by decide) (.inr h)
  all_goals exact hreach hw (k := 0) (by decide) (.inl (by rw [hv.1, add_zero]))

theorem control_subset {control : UInt32} (h : c.Offset control) (hnarrow : c.isNarrow = false) :
    Arc.arc (control - 10) 20 ⊆ c.width.arc c.centerFreq1 := by
  have hplace : ∀ w : ChanWidth, (w = .w5 || w = .w10) = false → ∀ k ∈ w.reach,
      (w.mhz / 2 - 10 - k).toNat ≤ w.mhz.toNat - 20 ∧ (w.mhz / 2 - 10 + k).toNat ≤ w.mhz.toNat - 20 := by
    intro w hw
    cases w
    all_goals
      revert hw
      simp only [ChanWidth.reach, List.forall_mem_cons, List.not_mem_nil, false_implies, implies_true, and_true]
      decide
  have hwidth : ∀ w : ChanWidth, (w = .w5 || w = .w10) = false →
      (20 : UInt32).toNat ≤ w.mhz.toNat ∧ (20 : UInt32).toNat + w.mhz.toNat < 2 ^ 32 := by
    intro w hw
    cases w
    all_goals
      revert hw
      decide
  obtain ⟨k, hk, hcf1⟩ := h
  obtain ⟨hadd, hsub⟩ := hplace c.width hnarrow k hk
  obtain ⟨hle, hlt⟩ := hwidth c.width hnarrow
  refine (arc_subset_iff (by decide) hle hlt).2 ?_
  rcases hcf1 with hcf1 | hcf1
  · rw [hcf1, show control - 10 - (control + k - c.width.mhz / 2) = c.width.mhz / 2 - 10 - k by abel]
    exact hadd
  · rw [hcf1, show control - 10 - (control - k - c.width.mhz / 2) = c.width.mhz / 2 - 10 + k by abel]
    exact hsub

/-- 20 MHz are part of every definition on their channel that is not narrower. -/
theorem spectrum_subset_of_w20 (h1 : chandefValid c1 = true) (h2 : chandefValid c2 = true)
    (hchan : c1.chan = c2.chan) (hw : c1.width = .w20NoHt ∨ c1.width = .w20)
    (hnarrow : c2.isNarrow = false) : c1.spectrum ⊆ c2.spectrum := by
  obtain ⟨control, hc1, k, hk, hcf1⟩ := offset_of_valid h1
  obtain ⟨control', hc2, hoff⟩ := offset_of_valid h2
  rw [hchan, hc2] at hc1
  obtain rfl := Option.some.inj hc1
  have hsub := (control_subset hoff hnarrow).trans (arc_subset_spectrum c2)
  rw [spectrum_of_ne (by rcases hw with hw | hw <;> rw [hw] <;> decide)]
  have hk : k = 0 := by
    rcases hw with hw | hw
    all_goals
      rw [hw] at hk
      simpa [ChanWidth.reach] using hk
  have hcf1 : c1.centerFreq1 = control' := by simpa [hk] using hcf1
  have hmhz : c1.width.mhz = 20 := by
    rcases hw with hw | hw
    all_goals
      rw [hw]
      rfl
  rw [ChanWidth.arc, hcf1, hmhz]
  exact hsub

/-! ### Primaries -/

theorem ChanWidth.arc_subset_iff {w w' : ChanWidth} {z z' : UInt32} (hle : w.mhz.toNat ≤ w'.mhz.toNat) :
    w.arc z ⊆ w'.arc z' ↔
      (z - z' + (w'.mhz / 2 - w.mhz / 2)).toNat ≤ w'.mhz.toNat - w.mhz.toNat := by
  have hwidth : ∀ w : ChanWidth, 0 < w.mhz.toNat ∧ w.mhz.toNat ≤ 160 := by
    intro w
    cases w
    all_goals decide
  have hpos := hwidth w
  have hmax := hwidth w'
  rw [ChanWidth.arc, ChanWidth.arc, Arc.arc_subset_iff hpos.1 hle (by omega),
    show z - w.mhz / 2 - (z' - w'.mhz / 2) = z - z' + (w'.mhz / 2 - w.mhz / 2) by abel]

theorem primaries_w40 (hw : c.width = .w40) : chandefPrimaryFreqs c = (c.centerFreq1, 0) := by
  rw [chandefPrimaryFreqs]
  simp only [hw]

theorem primaries_w80 (h : chandefValid c = true) (hw : c.width = .w80 ∨ c.width = .w80p80) :
    (chandefPrimaryFreqs c).2 = c.centerFreq1 ∧
      ((chandefPrimaryFreqs c).1 = c.centerFreq1 - 20 ∨
        (chandefPrimaryFreqs c).1 = c.centerFreq1 + 20) := by
  obtain ⟨control, hchan, k, hk, hcf1⟩ := offset_of_valid h
  have hreach : c.width.reach = [30, 10] := by
    rcases hw with hw | hw
    all_goals
      rw [hw]
      rfl
  have hpri : chandefPrimaryFreqs c =
      (c.centerFreq1 - 20 + 40 * ((30 + control - c.centerFreq1) / 20 / 2), c.centerFreq1) := by
    rw [chandefPrimaryFreqs]
    rcases hw with hw | hw
    all_goals simp only [hw, hchan, Option.getD_some]
  have hplace : ∀ k ∈ ([30, 10] : List UInt32), (40 : UInt32) * ((30 - k) / 20 / 2) = 0 ∧
      (40 : UInt32) * ((30 + k) / 20 / 2) = 20 + 20 := by
    simp only [List.forall_mem_cons, List.not_mem_nil, false_implies, implies_true, and_true]
    decide
  rw [hreach] at hk
  obtain ⟨hadd, hsub⟩ := hplace k hk
  rw [hpri]
  refine ⟨rfl, ?_⟩
  rcases hcf1 with hcf1 | hcf1
  · left
    show c.centerFreq1 - 20 + 40 * ((30 + control - c.centerFreq1) / 20 / 2) = _
    rw [show 30 + control - c.centerFreq1 = 30 - k by rw [hcf1]; abel, hadd, add_zero]
  · right
    show c.centerFreq1 - 20 + 40 * ((30 + control - c.centerFreq1) / 20 / 2) = _
    rw [show 30 + control - c.centerFreq1 = 30 + k by rw [hcf1]; abel, hsub]
    abel

/-- The primary 80 MHz of 160 MHz are the lower or the upper half, and the primary 40 MHz a half of
these. -/
theorem primaries_w160 (h : chandefValid c = true) (hw : c.width = .w160) :
    ((chandefPrimaryFreqs c).2 = c.centerFreq1 - 40 ∨ (chandefPrimaryFreqs c).2 = c.centerFreq1 + 40) ∧
      ((chandefPrimaryFreqs c).1 = (chandefPrimaryFreqs c).2 - 20 ∨
        (chandefPrimaryFreqs c).1 = (chandefPrimaryFreqs c).2 + 20) := by
  obtain ⟨control, hchan, k, hk, hcf1⟩ := offset_of_valid h
  have hreach : c.width.reach = [70, 50, 30, 10] := by
    rw [hw]
    rfl
  have hpri : chandefPrimaryFreqs c =
      (c.centerFreq1 - 60 + 40 * ((70 + control - c.centerFreq1) / 20 / 2),
        c.centerFreq1 - 40 + 80 * ((70 + control - c.centerFreq1) / 20 / 2 / 2)) := by
    rw [chandefPrimaryFreqs]
    simp only [hw, hchan, Option.getD_some]
  have hplace : ∀ k ∈ ([70, 50, 30, 10] : List UInt32),
      ((80 : UInt32) * ((70 - k) / 20 / 2 / 2) = 0 ∧
        ((40 : UInt32) * ((70 - k) / 20 / 2) = 0 ∨ (40 : UInt32) * ((70 - k) / 20 / 2) = 40)) ∧
      (80 : UInt32) * ((70 + k) / 20 / 2 / 2) = 80 ∧
        ((40 : UInt32) * ((70 + k) / 20 / 2) = 80 ∨ (40 : UInt32) * ((70 + k) / 20 / 2) = 120) := by
    simp only [List.forall_mem_cons, List.not_mem_nil, false_implies, implies_true, and_true]
    decide
  rw [hreach] at hk
  obtain ⟨⟨hadd80, hadd40⟩, hsub80, hsub40⟩ := hplace k hk
  rw [hpri]
  dsimp only
  rcases hcf1 with hcf1 | hcf1
  · rw [show 70 + control - c.centerFreq1 = 70 - k by rw [hcf1]; abel, hadd80]
    rcases hadd40 with h40 | h40
    · rw [h40]
      exact ⟨.inl (add_zero _), .inl (by grind)⟩
    · rw [h40]
      exact ⟨.inl (add_zero _), .inr (by grind)⟩
  · rw [show 70 + control - c.centerFreq1 = 70 + k by rw [hcf1]; abel, hsub80]
    rcases hsub40 with h40 | h40
    · rw [h40]
      exact ⟨.inr (by grind), .inl (by grind)⟩
    · rw [h40]
      exact ⟨.inr (by grind), .inr (by grind)⟩

/-! ### The wider definition -/

/-- 40 MHz are part of a wide definition with the same primary 40 MHz. -/
theorem spectrum_subset_of_w40 (h2 : chandefValid c2 = true) (hw1 : c1.width = .w40)
    (hw2 : c2.width.IsWide) (hpri : (chandefPrimaryFreqs c1).1 = (chandefPrimaryFreqs c2).1) :
    c1.spectrum ⊆ c2.spectrum := by
  rw [primaries_w40 hw1] at hpri
  dsimp only at hpri
  rw [spectrum_of_ne (by rw [hw1]; decide)]
  refine Set.Subset.trans ?_ (arc_subset_spectrum c2)
  have hplace : ∀ w : ChanWidth, w.IsWide → ∀ k : UInt32,
      (k = -20 ∨ k = 20 ∨ w = .w160 ∧ (k = -60 ∨ k = 60)) →
      (k + (w.mhz / 2 - 20)).toNat ≤ w.mhz.toNat - 40 := by
    rintro w hw k (rfl | rfl | ⟨rfl, rfl | rfl⟩)
    · rcases hw with rfl | rfl | rfl <;> decide
    · rcases hw with rfl | rfl | rfl <;> decide
    · decide
    · decide
  have hle : c1.width.mhz.toNat ≤ c2.width.mhz.toNat := by
    rw [hw1]
    rcases hw2 with hw | hw | hw <;> rw [hw] <;> decide
  rw [ChanWidth.arc_subset_iff hle, hw1]
  apply hplace c2.width hw2
  rw [hpri]
  rcases hw2 with hw | hw | hw
  · obtain ⟨-, h40 | h40⟩ := primaries_w80 h2 (.inl hw)
    · exact .inl (by rw [h40]; grind)
    · exact .inr (.inl (by rw [h40]; grind))
  · obtain ⟨-, h40 | h40⟩ := primaries_w80 h2 (.inr hw)
    · exact .inl (by rw [h40]; grind)
    · exact .inr (.inl (by rw [h40]; grind))
  · obtain ⟨h80 | h80, h40 | h40⟩ := primaries_w160 h2 hw
    · exact .inr (.inr ⟨hw, .inl (by rw [h40, h80]; grind)⟩)
    · exact .inl (by rw [h40, h80]; grind)
    · exact .inr (.inl (by rw [h40, h80]; grind))
    · exact .inr (.inr ⟨hw, .inr (by rw [h40, h80]; grind)⟩)

theorem arc_w80_subset_iff {w : ChanWidth} (hw : w = .w80 ∨ w = .w80p80) {z z' : UInt32} :
    w.arc z ⊆ ChanWidth.w160.arc z' ↔ z - z' + 40 ≤ 80 := by
  have hmhz : w.mhz = 80 := by
    rcases hw with rfl | rfl
    · rfl
    · rfl
  rw [ChanWidth.arc_subset_iff (by rw [hmhz]; decide), hmhz, UInt32.le_iff_toNat_le]
  exact Iff.rfl

theorem spectrum_subset_w160_iff (hw1 : c1.width = .w80 ∨ c1.width = .w80p80)
    (hw2 : c2.width = .w160) : c1.spectrum ⊆ c2.spectrum ↔ Covers c2 c1 := by
  rw [Covers, hw2]
  dsimp only
  rw [spectrum_of_ne (c := c2) (by rw [hw2]; decide), hw2]
  constructor
  · intro h center hcenter
    rw [← arc_w80_subset_iff hw1]
    exact fun f hf => h ⟨center, hcenter, hf⟩
  · rintro h f ⟨center, hcenter, hf⟩
    exact (arc_w80_subset_iff hw1).2 (h center hcenter) hf

theorem half_subset_iff {a z : UInt32} :
    Arc.arc a 40 ⊆ ChanWidth.w80p80.arc z ↔ a - z + 40 ≤ 40 := by
  rw [ChanWidth.arc, Arc.arc_subset_iff (by decide) (by decide) (by decide), UInt32.le_iff_toNat_le,
    show a - (z - ChanWidth.w80p80.mhz / 2) = a - z + ChanWidth.w80p80.mhz / 2 by abel]
  exact Iff.rfl

theorem spectrum_subset_w80p80_iff (h1 : chandefValid c1 = true) (h2 : chandefValid c2 = true)
    (hw1 : c1.width = .w80) (hw2 : c2.width = .w80p80)
    (hpri : (chandefPrimaryFreqs c1).1 = (chandefPrimaryFreqs c2).1) :
    c1.spectrum ⊆ c2.spectrum ↔ Covers c2 c1 := by
  have hsplit (z : UInt32) : ChanWidth.w80.arc z = Arc.arc (z - 40) 40 ∪ Arc.arc z 40 := by
    rw [ChanWidth.arc, show ChanWidth.w80.mhz = 40 + 40 from rfl, arc_add (by decide)]
    congr 2
    show z - 40 + 40 = z
    rw [sub_add_cancel]
  have hcases : c2.centerFreq1 = c1.centerFreq1 ∨ c2.centerFreq1 = c1.centerFreq1 + 40 ∨
      c2.centerFreq1 = c1.centerFreq1 - 40 := by
    obtain ⟨-, h40 | h40⟩ := primaries_w80 h1 (.inl hw1)
    · obtain ⟨-, h40' | h40'⟩ := primaries_w80 h2 (.inr hw2)
      · exact .inl (by grind)
      · exact .inr (.inr (by grind))
    · obtain ⟨-, h40' | h40'⟩ := primaries_w80 h2 (.inr hw2)
      · exact .inr (.inl (by grind))
      · exact .inl (by grind)
  rw [spectrum_of_ne (c := c1) (by rw [hw1]; decide), spectrum_w80p80 hw2, hw1, hw2, Covers, hw2]
  dsimp only
  have hrow (z : UInt32) : ChanWidth.w80p80.arc z = Arc.arc (z - 40) 80 := rfl
  rcases hcases with hcf1 | hcf1 | hcf1
  · rw [hcf1]
    simp only [true_or, iff_true]
    exact Set.subset_union_left
  · -- the upper half is in the first segment
    have hupper : Arc.arc c1.centerFreq1 40 ⊆ ChanWidth.w80p80.arc c2.centerFreq1 := by
      rw [half_subset_iff, hcf1, show c1.centerFreq1 - (c1.centerFreq1 + 40) + 40 = 0 by grind]
      decide
    have hlower : ∀ f ∈ Arc.arc (c1.centerFreq1 - 40) 40, f ∉ ChanWidth.w80p80.arc c2.centerFreq1 := by
      intro f hf hrest
      rw [hrow, hcf1, show c1.centerFreq1 + 40 - 40 = c1.centerFreq1 - 40 + 40 by grind] at hrest
      exact not_mem_of_follows (by decide) hrest hf
    rw [arc_subset_union_iff ((hsplit c1.centerFreq1).trans (Set.union_comm _ _)) hupper hlower,
      half_subset_iff, show c1.centerFreq1 - 40 - c2.centerFreq2 + 40 = c1.centerFreq1 - c2.centerFreq2 by
        grind]
    constructor
    · exact fun h => .inr (.inl ⟨hcf1, h⟩)
    · rintro (h | ⟨-, h⟩ | ⟨h, -⟩)
      · grind
      · exact h
      · grind
  · -- the lower half is in the first segment
    have hlower : Arc.arc (c1.centerFreq1 - 40) 40 ⊆ ChanWidth.w80p80.arc c2.centerFreq1 := by
      rw [half_subset_iff, hcf1,
        show c1.centerFreq1 - 40 - (c1.centerFreq1 - 40) + 40 = 40 by grind]
      decide
    have hupper : ∀ f ∈ Arc.arc c1.centerFreq1 40, f ∉ ChanWidth.w80p80.arc c2.centerFreq1 := by
      intro f hf hrest
      rw [show c1.centerFreq1 = c2.centerFreq1 - 40 + 80 by grind] at hf
      exact not_mem_of_follows (by decide) hf hrest
    rw [arc_subset_union_iff (hsplit c1.centerFreq1) hlower hupper, half_subset_iff]
    constructor
    · exact fun h => .inr (.inr ⟨hcf1, h⟩)
    · rintro (h | ⟨h, -⟩ | ⟨-, h⟩)
      · grind
      · grind
      · exact h

/-- What a wider definition covers, if both are wide and the primary 40 MHz are the same. -/
theorem spectrum_subset_iff_covers (h1 : chandefValid c1 = true) (h2 : chandefValid c2 = true)
    (hw1 : c1.width.IsWide) (hw2 : c2.width.IsWide) (hrank : c1.width.rank < c2.width.rank)
    (hpri : (chandefPrimaryFreqs c1).1 = (chandefPrimaryFreqs c2).1) :
    c1.spectrum ⊆ c2.spectrum ↔ Covers c2 c1 := by
  rcases hw2 with hw2 | hw2 | hw2
  · rcases hw1 with hw1 | hw1 | hw1
    all_goals
      rw [hw1, hw2] at hrank
      exact absurd hrank (by decide)
  · rcases hw1 with hw1 | hw1 | hw1
    · exact spectrum_subset_w80p80_iff h1 h2 hw1 hw2 hpri
    all_goals
      rw [hw1, hw2] at hrank
      exact absurd hrank (by decide)
  · rcases hw1 with hw1 | hw1 | hw1
    · exact spectrum_subset_w160_iff (.inl hw1) hw2
    · exact spectrum_subset_w160_iff (.inr hw1) hw2
    · rw [hw1, hw2] at hrank
      exact absurd hrank (by decide)

end

end Mac80211
