import Mac80211.Chan.Spectrum

/-!
# Loops over a segment

The channels of a segment are looked at one by one, in steps of 20 MHz of a `u32`. Where the row
goes over the largest frequency there is no round at all, and where the last frequency is among the
largest 20 the counter wraps around. A loop that comes through has looked at the whole segment, or
at nothing.

## Main definitions

* `ChanWidth.scanned`, `ChanWidth.Wraps`, `ChanWidth.Endless`
-/

namespace Mac80211

/-! ### Counters -/

/-- The counter of a loop after `n` rounds. -/
def freqAt (start : UInt32) (n : ℕ) : UInt32 := start + 20 * UInt32.ofNat n

@[simp] theorem freqAt_zero (start : UInt32) : freqAt start 0 = start := by
  rw [freqAt]
  grind

theorem freqAt_add_twenty (start : UInt32) (n : ℕ) : freqAt (start + 20) n = freqAt start (n + 1) := by
  rw [freqAt, freqAt, UInt32.ofNat_add]
  grind

theorem freqAt_mod (start : UInt32) (n : ℕ) : freqAt start (n % 2 ^ 32) = freqAt start n := by
  rw [freqAt, freqAt, show UInt32.ofNat (n % 2 ^ 32) = UInt32.ofNat n from UInt32.ofNat_mod_size]

theorem freqAt_toNat (start : UInt32) (n : ℕ) :
    (freqAt start n).toNat = (start.toNat + 20 * n) % 2 ^ 32 := by
  rw [freqAt, UInt32.toNat_add, UInt32.toNat_mul]
  simp

/-! ### Loops that come through -/

section Loop

variable {ok : UInt32 → Prop} {body : UInt32 → Unit → Except Unit Unit} {stop : UInt32}

theorem forFreq_fuel_iff (hbody : ∀ f, body f () = .ok () ↔ ok f) {fuel : ℕ} :
    ∀ {start : UInt32}, forFreq stop body fuel start () = some (.ok ()) ↔
      ∃ n < fuel, stop < freqAt start n ∧ ∀ m < n, freqAt start m ≤ stop ∧ ok (freqAt start m) := by
  induction fuel with
  | zero =>
    intro start
    simp [forFreq]
  | succ fuel ih =>
    intro start
    rw [forFreq]
    by_cases hle : start ≤ stop
    · rw [if_pos hle]
      cases hb : body start () with
      | error r =>
        have hno : ¬ ok start := fun h => by
          rw [← hbody, hb] at h
          cases h
        constructor
        · intro h
          cases h
        · rintro ⟨n, -, hlt, hall⟩
          rcases Nat.eq_zero_or_pos n with rfl | hpos
          · rw [freqAt_zero] at hlt
            exact absurd hle (UInt32.not_le.2 hlt)
          · exact absurd (by simpa using (hall 0 hpos).2) hno
      | ok s =>
        have hok : ok start := (hbody start).1 hb
        show forFreq stop body fuel (start + 20) () = _ ↔ _
        rw [ih]
        constructor
        · rintro ⟨n, hn, hlt, hall⟩
          refine ⟨n + 1, by omega, by rwa [← freqAt_add_twenty], ?_⟩
          intro m hm
          rcases Nat.eq_zero_or_pos m with rfl | hpos
          · rw [freqAt_zero]
            exact ⟨hle, hok⟩
          · obtain ⟨m, rfl⟩ : ∃ k, m = k + 1 := ⟨m - 1, by omega⟩
            rw [← freqAt_add_twenty]
            exact hall m (by omega)
        · rintro ⟨n, hn, hlt, hall⟩
          rcases Nat.eq_zero_or_pos n with rfl | hpos
          · rw [freqAt_zero] at hlt
            exact absurd hle (UInt32.not_le.2 hlt)
          · obtain ⟨n, rfl⟩ : ∃ k, n = k + 1 := ⟨n - 1, by omega⟩
            refine ⟨n, by omega, by rwa [freqAt_add_twenty], ?_⟩
            intro m hm
            rw [freqAt_add_twenty]
            exact hall (m + 1) (by omega)
    · rw [if_neg hle]
      have hlt : stop < start := UInt32.not_le.1 hle
      refine ⟨fun _ => ⟨0, Nat.succ_pos fuel, ?_, ?_⟩, fun _ => rfl⟩
      · rwa [freqAt_zero]
      · intro m hm
        omega

/-- A loop comes through if its counter gets above the end, and every frequency before that is fine. -/
theorem forFreq_ok_iff (hbody : ∀ f, body f () = .ok () ↔ ok f) {start : UInt32} :
    forFreq stop body (2 ^ 32) start () = some (.ok ()) ↔
      (∃ n, stop < freqAt start n) ∧
        ∀ n, (∀ m ≤ n, freqAt start m ≤ stop) → ok (freqAt start n) := by
  classical
  rw [forFreq_fuel_iff hbody]
  constructor
  · rintro ⟨n, -, hlt, hall⟩
    refine ⟨⟨n, hlt⟩, fun n' hn' => (hall n' ?_).2⟩
    by_contra hge
    exact absurd (hn' n (by omega)) (UInt32.not_le.2 hlt)
  · rintro ⟨hex, hall⟩
    have hmin : Nat.find hex ≤ Nat.find hex % 2 ^ 32 :=
      Nat.find_min' hex (by rw [freqAt_mod]; exact Nat.find_spec hex)
    have hbelow : ∀ m < Nat.find hex, freqAt start m ≤ stop := fun m hm =>
      UInt32.not_lt.1 (Nat.find_min hex hm)
    refine ⟨Nat.find hex, hmin.trans_lt (Nat.mod_lt _ (by decide)), Nat.find_spec hex, ?_⟩
    intro m hm
    exact ⟨hbelow m hm, hall m fun k hk => hbelow k (by omega)⟩

end Loop

/-! ### Segments -/

/-- The frequencies of the 20 MHz channels around a centre frequency, as `u32`. -/
def ChanWidth.subFreqs (width : ChanWidth) (center : UInt32) : List UInt32 :=
  width.offsets.map fun off => center + UInt32.ofInt off

/-- The row goes over the largest frequency. -/
def ChanWidth.Wraps (width : ChanWidth) (center : UInt32) : Prop :=
  getEndFreq center width.mhz < getStartFreq center width.mhz
deriving Decidable

/-- The counter never gets above the last frequency. -/
def ChanWidth.Endless (width : ChanWidth) (center : UInt32) : Prop :=
  ∀ n, freqAt (getStartFreq center width.mhz) n ≤ getEndFreq center width.mhz

/-- The frequencies that are looked at, until the counter is above the last one. -/
def ChanWidth.scanned (width : ChanWidth) (center : UInt32) : Set UInt32 :=
  {f | ∃ n, f = freqAt (getStartFreq center width.mhz) n ∧
    ∀ m ≤ n, freqAt (getStartFreq center width.mhz) m ≤ getEndFreq center width.mhz}

section Segment

variable {width : ChanWidth} {center : UInt32}

theorem ofInt_natCast (n : ℕ) : UInt32.ofInt n = UInt32.ofNat n := by
  induction n with
  | zero => rfl
  | succ n ih =>
    rw [Nat.cast_succ, UInt32.ofInt_add, ih, UInt32.ofInt_one, UInt32.ofNat_add]
    rfl

theorem getStartFreq_eq (width : ChanWidth) (center : UInt32) :
    getStartFreq center width.mhz = center + UInt32.ofInt (10 * (1 - width.count)) := by
  cases width
  case w40 | w80 | w80p80 | w160 =>
    rw [getStartFreq, if_neg (by decide), sub_add, sub_eq_add_neg]
    exact congrArg (center + ·) (by decide)
  all_goals exact (add_zero center).symm

theorem mem_subFreqs_iff {f : UInt32} :
    f ∈ width.subFreqs center ↔ ∃ n < width.count, f = freqAt (getStartFreq center width.mhz) n := by
  have hstep (n : ℕ) : center + UInt32.ofInt (10 * (1 - width.count) + 20 * (n : ℤ)) =
      freqAt (getStartFreq center width.mhz) n := by
    rw [freqAt, getStartFreq_eq, UInt32.ofInt_add, UInt32.ofInt_mul 20, ofInt_natCast, add_assoc]
    rfl
  rw [ChanWidth.subFreqs, ChanWidth.offsets_eq]
  simp only [List.map_map, List.mem_map, List.mem_range, Function.comp_apply, hstep]
  constructor
  · rintro ⟨n, hn, rfl⟩
    exact ⟨n, hn, rfl⟩
  · rintro ⟨n, hn, rfl⟩
    exact ⟨n, hn, rfl⟩

theorem getEndFreq_eq (width : ChanWidth) (center : UInt32) :
    getEndFreq center width.mhz = freqAt (getStartFreq center width.mhz) (width.count - 1) := by
  rw [freqAt, getStartFreq_eq]
  cases width
  case w40 | w80 | w80p80 | w160 =>
    rw [getEndFreq, if_neg (by decide), add_sub_assoc, add_assoc]
    exact congrArg (center + ·) (by decide)
  all_goals exact (add_zero center).symm.trans (add_zero _).symm

/-! ### What a loop looks at -/

theorem count_pos (width : ChanWidth) : 0 < width.count ∧ width.count ≤ 8 := by
  cases width
  all_goals decide

/-- A segment that does not wrap goes up from the first frequency to the last one. -/
theorem toNat_getEndFreq (h : ¬ width.Wraps center) : (getEndFreq center width.mhz).toNat =
      (getStartFreq center width.mhz).toNat + 20 * (width.count - 1) := by
  have hle : getStartFreq center width.mhz ≤ getEndFreq center width.mhz := UInt32.not_lt.1 h
  have hcount := count_pos width
  have hlt := (getStartFreq center width.mhz).toNat_lt
  rw [UInt32.le_iff_toNat_le, getEndFreq_eq, freqAt_toNat] at hle
  rw [getEndFreq_eq, freqAt_toNat]
  omega

theorem subFreqs_subset_scanned (h : ¬ width.Wraps center) {f : UInt32}
    (hf : f ∈ width.subFreqs center) : f ∈ width.scanned center := by
  obtain ⟨n, hn, rfl⟩ := mem_subFreqs_iff.1 hf
  refine ⟨n, rfl, fun m hm => ?_⟩
  have hend := toNat_getEndFreq h
  have hlt := (getEndFreq center width.mhz).toNat_lt
  rw [UInt32.le_iff_toNat_le, freqAt_toNat, Nat.mod_eq_of_lt (by omega), hend]
  omega

end Segment

/-! ### Definitions -/

/-- What is not looked at does no harm: a loop goes on for ever or finds a bad channel, or all
channels of the segments that wrap are good. -/
def SkippedFine (c : ChanDef) (demanded good : UInt32 → Prop) : Prop :=
  (∃ center ∈ c.centers, c.width.Endless center ∨ ∃ f ∈ c.width.scanned center, ¬ demanded f) ∨
    ∀ center ∈ c.centers, c.width.Wraps center → ∀ f ∈ c.width.subFreqs center, good f

theorem forFreq_segment_iff {ok : UInt32 → Prop} {body : UInt32 → Unit → Except Unit Unit}
    (hbody : ∀ f, body f () = .ok () ↔ ok f) {width : ChanWidth} {center : UInt32} :
    forFreq (getEndFreq center width.mhz) body (2 ^ 32) (getStartFreq center width.mhz) () =
        some (.ok ()) ↔
      ¬ width.Endless center ∧ ∀ f ∈ width.scanned center, ok f := by
  rw [forFreq_ok_iff hbody, ChanWidth.Endless, not_forall]
  constructor
  · rintro ⟨⟨n, hn⟩, hall⟩
    refine ⟨⟨n, UInt32.not_le.2 hn⟩, ?_⟩
    rintro f ⟨k, rfl, hk⟩
    exact hall k hk
  · rintro ⟨⟨n, hn⟩, hall⟩
    exact ⟨⟨n, UInt32.not_le.1 hn⟩, fun k hk => hall _ ⟨k, rfl, hk⟩⟩

/-- If all loops come through, all channels are good: exactly if what is not looked at does no harm. -/
theorem forall_subFreqs_iff {c : ChanDef} {demanded good : UInt32 → Prop}
    (hgood : ∀ f, demanded f → good f) :
    ((∀ center ∈ c.centers, ¬ c.width.Endless center ∧ ∀ f ∈ c.width.scanned center, demanded f) →
        ∀ center ∈ c.centers, ∀ f ∈ c.width.subFreqs center, good f) ↔
      SkippedFine c demanded good := by
  constructor
  · intro h
    by_cases hall : ∀ center ∈ c.centers, ¬ c.width.Endless center ∧
        ∀ f ∈ c.width.scanned center, demanded f
    · exact .inr fun center hcenter _ => h hall center hcenter
    · left
      simp only [not_forall] at hall
      obtain ⟨center, hcenter, hno⟩ := hall
      refine ⟨center, hcenter, ?_⟩
      by_contra hneither
      obtain ⟨hends, hscan⟩ := not_or.1 hneither
      exact hno ⟨hends, fun f hf => by_contra fun hbad => hscan ⟨f, hf, hbad⟩⟩
  · rintro (⟨center, hcenter, hbad⟩ | hskip) hall
    · obtain ⟨hends, hscan⟩ := hall center hcenter
      rcases hbad with hendless | ⟨f, hf, hno⟩
      · exact absurd hendless hends
      · exact absurd (hscan f hf) hno
    · intro center hcenter f hf
      by_cases hw : c.width.Wraps center
      · exact hskip center hcenter hw f hf
      · exact hgood f ((hall center hcenter).2 f (subFreqs_subset_scanned hw hf))

end Mac80211
