import Mac80211.Chan.Dfs

/-!
# Marking and querying the same channels

Where radar was seen, `cfg80211_set_dfs_state` has to mark every channel that the queries look at,
and no other. For 5 and 10 MHz its loop starts behind its end and marks nothing.

## Main definitions

* `ChanDef.subChannels` — what a definition covers, without any loop

## Main results

* `dfsCovers_iff` — when marking and querying agree
-/

namespace Mac80211

open List Option

/-! ### What a definition covers -/

/-- Where the 20 MHz channels are around a centre frequency. -/
def ChanWidth.offsets : ChanWidth → List ℤ
  | w5 | w10 | w20 | w20NoHt => [0]
  | w40 => [-10, 10]
  | w80 | w80p80 => [-30, -10, 10, 30]
  | w160 => [-70, -50, -30, -10, 10, 30, 50, 70]

namespace ChanDef

/-- The centre frequencies of the rows. -/
def centers (c : ChanDef) : List UInt32 :=
  if c.width = .w80p80 then [c.centerFreq1, c.centerFreq2] else [c.centerFreq1]

/-- The frequencies of all 20 MHz channels of the definition. -/
def subChannels (c : ChanDef) : List ℤ :=
  c.centers.flatMap fun center => c.width.offsets.map fun off => center.toNat + off

/-- 5 or 10 MHz. -/
def isNarrow (c : ChanDef) : Bool := c.width = .w5 || c.width = .w10

/-- One of the channels is a radar channel. -/
def hasRadar (c : ChanDef) (w : Wiphy) : Prop :=
  ∃ freq : UInt32, (freq.toNat : ℤ) ∈ c.subChannels ∧ ∃ ch, w.getChannel freq = some ch ∧ ch.radar = true

/-- Every channel exists and is enabled. -/
def Enabled (c : ChanDef) (w : Wiphy) : Prop :=
  ∀ f ∈ c.subChannels, ∃ freq : UInt32, (freq.toNat : ℤ) = f ∧
    ∃ ch, w.getChannel freq = some ch ∧ ch.disabled = false

/-- No loop counter wraps around. -/
def InRange (c : ChanDef) : Prop := ∀ f ∈ c.subChannels, 8 ≤ f ∧ f + 20 < 2 ^ 32

end ChanDef

/-- Marking a channel definition and asking about it afterwards agree. -/
structure DfsCovers (w : Wiphy) (c : ChanDef) : Prop where
  /-- After a radar was seen, the definition can be neither checked nor used. -/
  unavailable : c.hasRadar w → ∀ jiffies, ∃ w', setDfsState jiffies w c .unavailable = some w' ∧
    chandefDfsUsable w' c = some false ∧ chandefDfsAvailable w' c = some false
  /-- After it has been found free, it can be used. -/
  available : ∀ jiffies, ∃ w', setDfsState jiffies w c .available = some w' ∧
    chandefDfsAvailable w' c = some true
  /-- All other channels stay as they are. -/
  frame : ∀ jiffies state, ∃ w', setDfsState jiffies w c state = some w' ∧
    ∀ (i : ℕ) (ch : WiphyChannel), w.channels[i]? = some ch →
      (ch.centerFreq.toNat : ℤ) ∉ c.subChannels → w'.channels[i]? = some ch

/-! ### The loop as a fold -/

/-- `n` frequencies, 20 MHz apart. -/
def freqSteps (start : UInt32) : ℕ → List UInt32
  | 0 => []
  | n + 1 => start :: freqSteps (start + 20) n

variable {σ ρ : Type*}

theorem forFreq_of_lt {stop start : UInt32} {body : UInt32 → σ → Except ρ σ} {fuel : ℕ}
    (hfuel : 0 < fuel) (hlt : ¬ start ≤ stop) (s : σ) :
    forFreq stop body fuel start s = some (.ok s) := by
  cases fuel with
  | zero => exact absurd hfuel (lt_irrefl 0)
  | succ fuel => rw [forFreq, if_neg hlt]

theorem forFreq_eq_foldlM (stop : UInt32) (body : UInt32 → σ → Except ρ σ) {n : ℕ}
    (hstop : stop.toNat + 20 < 2 ^ 32) :
    ∀ {fuel : ℕ} {start : UInt32} (s : σ), n < fuel → start.toNat + 20 * n = stop.toNat + 20 →
      forFreq stop body fuel start s = some ((freqSteps start n).foldlM (fun s f => body f s) s) := by
  induction n with
  | zero =>
    intro fuel start s hfuel hn
    have hlt : ¬ start ≤ stop := by rw [UInt32.le_iff_toNat_le]; omega
    rw [forFreq_of_lt hfuel hlt]
    rfl
  | succ n ih =>
    intro fuel start s hfuel hn
    obtain ⟨fuel, rfl⟩ : ∃ m, fuel = m + 1 := ⟨fuel - 1, by omega⟩
    have hle : start ≤ stop := by rw [UInt32.le_iff_toNat_le]; omega
    have hnext : (start + 20).toNat = start.toNat + 20 := by
      rw [UInt32.toNat_add]
      exact Nat.mod_eq_of_lt (by simp; omega)
    rw [forFreq, if_pos hle, freqSteps, foldlM_cons]
    cases hb : body start s with
    | error r => rfl
    | ok s' => exact ih s' (by omega) (by omega)

variable {freq : UInt32}

theorem mem_freqSteps {n : ℕ} : ∀ {start : UInt32}, start.toNat + 20 * n ≤ 2 ^ 32 →
      (freq ∈ freqSteps start n ↔ ∃ i < n, freq.toNat = start.toNat + 20 * i) := by
  induction n with
  | zero => intro start _; simp [freqSteps]
  | succ n ih =>
    intro start h
    rw [freqSteps, mem_cons]
    rcases Nat.eq_zero_or_pos n with rfl | hpos
    · simp [freqSteps, ← UInt32.toNat_inj]
    · have hnext : (start + 20).toNat = start.toNat + 20 := by
        rw [UInt32.toNat_add]
        exact Nat.mod_eq_of_lt (by simp; omega)
      rw [ih (by omega), hnext, ← UInt32.toNat_inj]
      constructor
      · rintro (h0 | ⟨i, hi, hf⟩)
        · exact ⟨0, by omega, by omega⟩
        · exact ⟨i + 1, by omega, by omega⟩
      · rintro ⟨i, hi, hf⟩
        rcases Nat.eq_zero_or_pos i with rfl | hi0
        · exact .inl (by omega)
        · exact .inr ⟨i - 1, by omega, by omega⟩

/-! ### The rows of a definition -/

/-- How many 20 MHz channels a row has. -/
def ChanWidth.count : ChanWidth → ℕ
  | w5 | w10 | w20 | w20NoHt => 1
  | w40 => 2
  | w80 | w80p80 => 4
  | w160 => 8

/-- The frequencies the queries go through. -/
def ChanWidth.row (width : ChanWidth) (center : UInt32) : List UInt32 :=
  freqSteps (getStartFreq center width.mhz) width.count

section Row

variable {width : ChanWidth} {center : UInt32}

/-- The offsets of a row that neither ends above the largest frequency nor starts below 8 MHz. -/
def RowInRange (width : ChanWidth) (center : UInt32) : Prop :=
  ∀ off ∈ width.offsets, 8 ≤ (center.toNat : ℤ) + off ∧ (center.toNat : ℤ) + off + 20 < 2 ^ 32

theorem RowInRange.start_stop (h : RowInRange width center) :
    (getEndFreq center width.mhz).toNat + 20 < 2 ^ 32 ∧
      (getStartFreq center width.mhz).toNat + 20 * width.count =
        (getEndFreq center width.mhz).toNat + 20 := by
  have hlt := center.toNat_lt
  cases width <;>
    simp only [RowInRange, ChanWidth.offsets, forall_mem_cons, not_mem_nil,
      false_implies, implies_true, and_true] at h <;>
    simp [getStartFreq, getEndFreq, ChanWidth.mhz, ChanWidth.count, UInt32.le_iff_toNat_le,
      UInt32.toNat_add, UInt32.toNat_sub] <;>
    omega

theorem ChanWidth.offsets_eq (width : ChanWidth) :
    width.offsets = (List.range width.count).map fun i : ℕ => (10 : ℤ) * (1 - width.count) + 20 * (i : ℤ) := by
  cases width <;> rfl

theorem RowInRange.start (h : RowInRange width center) :
    ((getStartFreq center width.mhz).toNat : ℤ) = center.toNat + 10 * (1 - width.count) := by
  have hlt := center.toNat_lt
  cases width <;>
    simp only [RowInRange, ChanWidth.offsets, forall_mem_cons, not_mem_nil,
      false_implies, implies_true, and_true] at h <;>
    simp [getStartFreq, ChanWidth.mhz, ChanWidth.count, UInt32.le_iff_toNat_le, UInt32.toNat_add,
      UInt32.toNat_sub] <;>
    omega

theorem mem_row_iff (h : RowInRange width center) :
    freq ∈ width.row center ↔ ∃ off ∈ width.offsets, (freq.toNat : ℤ) = center.toNat + off := by
  obtain ⟨hstop, hcount⟩ := h.start_stop
  have hstart := h.start
  rw [ChanWidth.row, mem_freqSteps (by omega), ChanWidth.offsets_eq]
  simp only [List.mem_map, List.mem_range]
  constructor
  · rintro ⟨i, hi, hf⟩
    exact ⟨_, ⟨i, hi, rfl⟩, by omega⟩
  · rintro ⟨_, ⟨i, hi, rfl⟩, hf⟩
    exact ⟨i, hi, by omega⟩

theorem forFreq_query (h : RowInRange width center) (body : UInt32 → σ → Except ρ σ) (s : σ) :
    forFreq (getEndFreq center width.mhz) body (2 ^ 32) (getStartFreq center width.mhz) s =
      some ((width.row center).foldlM (fun s f => body f s) s) := by
  obtain ⟨hstop, hcount⟩ := h.start_stop
  exact forFreq_eq_foldlM _ body hstop s (by cases width <;> decide) hcount

theorem mark_start_stop (hwide : ¬ (width = .w5 ∨ width = .w10)) :
    center - width.mhz / 2 + 10 = getStartFreq center width.mhz ∧
      center + width.mhz / 2 - 10 = getEndFreq center width.mhz := by
  by_cases h20 : width.mhz = 20
  · rw [h20, getStartFreq, getEndFreq, if_pos (by decide), if_pos (by decide)]
    exact ⟨sub_add_cancel center 10, add_sub_cancel_right center 10⟩
  · have hlt : ¬ width.mhz ≤ 20 := by
      cases width <;> first | exact absurd (by decide) hwide | exact absurd rfl h20 | decide
    rw [getStartFreq, getEndFreq, if_neg hlt, if_neg hlt]
    exact ⟨rfl, rfl⟩

/-- The loop that marks goes through the same frequencies, or, for a narrow definition, through none. -/
theorem forFreq_mark (h : RowInRange width center) (body : UInt32 → σ → Except ρ σ) (s : σ) :
    forFreq (center + width.mhz / 2 - 10) body (2 ^ 32) (center - width.mhz / 2 + 10) s =
      some ((if width = .w5 ∨ width = .w10 then [] else width.row center).foldlM
        (fun s f => body f s) s) := by
  have hlt := center.toNat_lt
  by_cases hnarrow : width = .w5 ∨ width = .w10
  · have hlt : ¬ center - width.mhz / 2 + 10 ≤ center + width.mhz / 2 - 10 := by
      rw [UInt32.le_iff_toNat_le]
      rcases hnarrow with rfl | rfl <;>
        simp only [RowInRange, ChanWidth.offsets, forall_mem_cons, not_mem_nil,
          false_implies, implies_true, and_true] at h <;>
        simp [ChanWidth.mhz, UInt32.toNat_add, UInt32.toNat_sub] <;>
        omega
    rw [if_pos hnarrow, forFreq_of_lt (by decide) hlt]
    rfl
  · obtain ⟨hstart, hstop⟩ := @mark_start_stop width center hnarrow
    rw [if_neg hnarrow, ← forFreq_query h, hstart, hstop]

end Row

/-! ### Writing and reading channels -/

variable {ch : WiphyChannel}

section Mark

variable {jiffies : UInt64} {state : DfsState} {freq : UInt32}

@[simp] theorem WiphyChannel.enter_centerFreq (c : WiphyChannel) :
    (c.enter jiffies state).centerFreq = c.centerFreq := by
  rw [enter]; split <;> rfl

@[simp] theorem WiphyChannel.enter_radar (c : WiphyChannel) :
    (c.enter jiffies state).radar = c.radar := by
  rw [enter]; split <;> rfl

@[simp] theorem WiphyChannel.enter_disabled (c : WiphyChannel) :
    (c.enter jiffies state).disabled = c.disabled := by
  rw [enter]; split <;> rfl

theorem WiphyChannel.enter_dfsState {c : WiphyChannel} (h : c.radar = true) :
    (c.enter jiffies state).dfsState = state := by
  rw [enter, if_pos h]

theorem WiphyChannel.enter_enter (c : WiphyChannel) :
    (c.enter jiffies state).enter jiffies state = c.enter jiffies state := by
  cases h : c.radar <;> simp [enter, h]

theorem find?_writeFirst {f : WiphyChannel → WiphyChannel} (hf : ∀ c, (f c).centerFreq = c.centerFreq)
    (freq' : UInt32) (cs : List WiphyChannel) :
    (writeFirst freq f cs).find? (fun c => c.centerFreq == freq') =
      if freq' = freq then (cs.find? fun c => c.centerFreq == freq').map f
      else cs.find? fun c => c.centerFreq == freq' := by
  induction cs with
  | nil => simp [writeFirst]
  | cons c cs ih =>
    rw [writeFirst]
    by_cases hc : c.centerFreq = freq
    · by_cases hfreq : freq' = freq
      · simp [hc, hfreq, hf]
      · have hne : ¬ freq = freq' := fun h => hfreq h.symm
        simp [hc, hf, hne, hfreq]
    · rw [if_neg (by simpa using hc)]
      by_cases hc' : c.centerFreq = freq'
      · have hne : freq' ≠ freq := fun h => hc (hc'.trans h)
        simp [hc', hne]
      · rw [find?_cons_of_neg (by simpa using hc'), find?_cons_of_neg (by simpa using hc')]
        exact ih

theorem getElem?_writeFirst {f : WiphyChannel → WiphyChannel} {i : ℕ} (hne : ch.centerFreq ≠ freq) :
    ∀ {cs : List WiphyChannel}, cs[i]? = some ch → (writeFirst freq f cs)[i]? = some ch := by
  induction i with
  | zero =>
    intro cs h
    cases cs with
    | nil => cases h
    | cons c cs =>
      cases h
      rw [writeFirst, if_neg (by simpa using hne)]
      rfl
  | succ i ih =>
    intro cs h
    cases cs with
    | nil => cases h
    | cons c cs =>
      rw [getElem?_cons_succ] at h
      rw [writeFirst]
      split
      · rwa [getElem?_cons_succ]
      · rw [getElem?_cons_succ]
        exact ih h

/-- Several rounds. -/
def Wiphy.markAll (jiffies : UInt64) (state : DfsState) (freqs : List UInt32) (w : Wiphy) : Wiphy :=
  freqs.foldl (fun w f => w.mark jiffies state f) w

theorem getChannel_markAll (freqs : List UInt32) (w : Wiphy) :
    (w.markAll jiffies state freqs).getChannel freq =
      if freq ∈ freqs then (w.getChannel freq).map (WiphyChannel.enter jiffies state)
      else w.getChannel freq := by
  induction freqs generalizing w with
  | nil => simp [Wiphy.markAll]
  | cons f freqs ih =>
    have hmark : (w.mark jiffies state f).getChannel freq =
        if freq = f then (w.getChannel freq).map (WiphyChannel.enter jiffies state)
        else w.getChannel freq :=
      find?_writeFirst WiphyChannel.enter_centerFreq freq w.channels
    rw [Wiphy.markAll, foldl_cons]
    change ((w.mark jiffies state f).markAll jiffies state freqs).getChannel freq = _
    rw [ih, hmark]
    by_cases hf : freq = f <;> by_cases hmem : freq ∈ freqs <;>
      simp [hf, hmem, Function.comp_def, WiphyChannel.enter_enter]

theorem getElem?_markAll {i : ℕ} (freqs : List UInt32) {w : Wiphy}
    (h : w.channels[i]? = some ch) (hne : ch.centerFreq ∉ freqs) :
    (w.markAll jiffies state freqs).channels[i]? = some ch := by
  induction freqs generalizing w with
  | nil => exact h
  | cons f freqs ih =>
    rw [mem_cons, not_or] at hne
    exact ih (getElem?_writeFirst hne.1 h) hne.2

@[simp] theorem markAll_append (as bs : List UInt32) (w : Wiphy) :
    (w.markAll jiffies state as).markAll jiffies state bs = w.markAll jiffies state (as ++ bs) :=
  foldl_append.symm

end Mark

/-! ### Definitions as lists of frequencies -/

namespace ChanDef

variable {c : ChanDef}

/-- The frequencies the queries look at. -/
def rows (c : ChanDef) : List UInt32 := c.centers.flatMap c.width.row

/-- The frequencies that are marked. -/
def marked (c : ChanDef) : List UInt32 := if c.isNarrow then [] else c.rows

theorem centerFreq1_mem : c.centerFreq1 ∈ c.centers := by
  rw [centers]
  split <;> simp

theorem centerFreq2_mem (hw : c.width = .w80p80) : c.centerFreq2 ∈ c.centers := by
  rw [centers, if_pos hw]
  simp

theorem InRange.row (h : c.InRange) {center : UInt32} (hc : center ∈ c.centers) :
    RowInRange c.width center := by
  intro off hoff
  exact h _ (mem_flatMap.mpr ⟨center, hc, mem_map.mpr ⟨off, hoff, rfl⟩⟩)

theorem mem_rows_iff (h : c.InRange) : freq ∈ c.rows ↔ (freq.toNat : ℤ) ∈ c.subChannels := by
  simp only [rows, subChannels, List.mem_flatMap, List.mem_map]
  constructor
  · rintro ⟨center, hc, hf⟩
    obtain ⟨off, hoff, heq⟩ := (mem_row_iff (h.row hc)).mp hf
    exact ⟨center, hc, off, hoff, heq.symm⟩
  · rintro ⟨center, hc, off, hoff, heq⟩
    exact ⟨center, hc, (mem_row_iff (h.row hc)).mpr ⟨off, hoff, heq.symm⟩⟩

theorem mem_rows_of_mem_marked (h : freq ∈ c.marked) : freq ∈ c.rows := by
  rw [marked] at h
  split at h
  · cases h
  · exact h

theorem centerFreq2_eq_zero_iff (h : chandefValid c = true) :
    c.centerFreq2 = 0 ↔ c.width ≠ .w80p80 := by
  rw [chandefValid] at h
  split at h
  · cases h
  · next control _ =>
    have hfreqs : centerFreqsValid c control = true := by
      by_contra hnot
      rw [Bool.not_eq_true] at hnot
      simp [hnot] at h
    cases hw : c.width <;> simp_all [centerFreqsValid]

end ChanDef

section Queries

variable {w : Wiphy} {c : ChanDef}

theorem setDfsState_eq (hvalid : chandefValid c = true) (h : c.InRange) (jiffies : UInt64)
    (state : DfsState) :
    setDfsState jiffies w c state = some (w.markAll jiffies state c.marked) := by
  have hrow : ∀ {center : UInt32} (w : Wiphy), center ∈ c.centers →
      setChansDfsState jiffies w center c.width.mhz state =
        some (w.markAll jiffies state (if c.isNarrow then [] else c.width.row center)) := by
    intro center w hc
    have hfold : ∀ freqs : List UInt32,
        freqs.foldlM (fun w f => (.ok (w.mark jiffies state f) : Except Empty Wiphy)) w =
          .ok (w.markAll jiffies state freqs) := fun freqs => foldlM_pure
    rw [setChansDfsState, forFreq_mark (h.row hc), hfold]
    simp only [ChanDef.isNarrow, Bool.or_eq_true, decide_eq_true_eq]
  rw [setDfsState, hvalid, hrow w ChanDef.centerFreq1_mem, bind_some, ChanDef.marked, ChanDef.rows]
  by_cases hw : c.width = .w80p80
  · have htwo := ChanDef.centerFreq2_mem hw
    have hne : c.centerFreq2 ≠ 0 := fun h0 => (ChanDef.centerFreq2_eq_zero_iff hvalid).mp h0 hw
    simp only [Bool.not_true, Bool.false_eq_true, if_false, if_neg hne, hrow _ htwo, markAll_append,
      ChanDef.centers, if_pos hw, flatMap_cons, flatMap_nil, append_nil]
    split <;> rfl
  · have hzero := (ChanDef.centerFreq2_eq_zero_iff hvalid).mpr hw
    simp only [Bool.not_true, Bool.false_eq_true, if_false, hzero, if_true, ChanDef.centers, if_neg hw,
      flatMap_cons, flatMap_nil, append_nil]

/-- The channel at a frequency passes `cfg80211_get_chans_dfs_available`. -/
def Wiphy.passes (w : Wiphy) (freq : UInt32) : Bool := (availableRound w freq ()).toBool

theorem foldlM_availableRound (w : Wiphy) (freqs : List UInt32) :
    (freqs.foldlM (fun s f => availableRound w f s) ()).toBool = freqs.all w.passes := by
  induction freqs with
  | nil => rfl
  | cons f freqs ih =>
    rw [foldlM_cons, all_cons, ← ih, Wiphy.passes]
    cases availableRound w f () <;> rfl

theorem chandefDfsAvailable_eq (hvalid : chandefValid c = true) (h : c.InRange) :
    chandefDfsAvailable w c = some (c.rows.all w.passes) := by
  have hrow : ∀ {center : UInt32}, center ∈ c.centers →
      getChansDfsAvailable w center c.width.mhz = some ((c.width.row center).all w.passes) := by
    intro center hc
    rw [getChansDfsAvailable, forFreq_query (h.row hc), map_some, foldlM_availableRound]
  rw [chandefDfsAvailable, hvalid, hrow ChanDef.centerFreq1_mem, bind_some, ChanDef.rows]
  by_cases hw : c.width = .w80p80
  · have htwo := ChanDef.centerFreq2_mem hw
    simp only [Bool.not_true, Bool.false_eq_true, if_false, if_pos hw, hrow htwo, ChanDef.centers,
      flatMap_cons, flatMap_nil, append_nil, all_append]
    cases (c.width.row c.centerFreq1).all w.passes <;> rfl
  · simp only [Bool.not_true, Bool.false_eq_true, if_false, if_neg hw, ChanDef.centers,
      flatMap_cons, flatMap_nil, append_nil]
    cases (c.width.row c.centerFreq1).all w.passes <;> rfl

theorem foldlM_usableRound {freqs : List UInt32} (hmem : freq ∈ freqs)
    (hbad : ∀ n, usableRound w freq n = .error ()) :
    ∀ count, freqs.foldlM (fun n f => usableRound w f n) count = .error () := by
  induction freqs with
  | nil => cases hmem
  | cons f freqs ih =>
    intro count
    rw [foldlM_cons]
    rcases mem_cons.mp hmem with rfl | hmem
    · rw [hbad]
      rfl
    · cases usableRound w f count with
      | error e => rfl
      | ok n => exact ih hmem n

theorem chandefDfsUsable_eq_false (hvalid : chandefValid c = true) (h : c.InRange)
    (hmem : freq ∈ c.rows) (hbad : ∀ n, usableRound w freq n = .error ()) :
    chandefDfsUsable w c = some false := by
  have hrow : ∀ {center : UInt32}, center ∈ c.centers →
      getChansDfsUsable w center c.width.mhz =
        some ((c.width.row center).foldlM (fun n f => usableRound w f n) 0) := by
    intro center hc
    rw [getChansDfsUsable, forFreq_query (h.row hc)]
  rw [chandefDfsUsable, hvalid, hrow ChanDef.centerFreq1_mem, bind_some]
  rw [ChanDef.rows, ChanDef.centers] at hmem
  by_cases hw : c.width = .w80p80
  · rw [if_pos hw, flatMap_cons, flatMap_cons, flatMap_nil, append_nil,
      mem_append] at hmem
    simp only [Bool.not_true, Bool.false_eq_true, if_false, if_pos hw, hrow (ChanDef.centerFreq2_mem hw)]
    rcases hmem with hmem | hmem
    · rw [foldlM_usableRound hmem hbad]
    · rw [foldlM_usableRound hmem hbad]
      split <;> rfl
  · rw [if_neg hw, flatMap_cons, flatMap_nil, append_nil] at hmem
    simp only [Bool.not_true, Bool.false_eq_true, if_false, foldlM_usableRound hmem hbad]

theorem usableRound_of_unavailable (hch : w.getChannel freq = some ch)
    (hradar : ch.radar = true) (hstate : ch.dfsState = .unavailable) (n : ℕ) :
    usableRound w freq n = .error () := by
  simp only [usableRound, hch, hradar, hstate]
  simp

theorem passes_of_unavailable (hch : w.getChannel freq = some ch)
    (hradar : ch.radar = true) (hstate : ch.dfsState = .unavailable) : w.passes freq = false := by
  simp only [Wiphy.passes, availableRound, hch, hradar, hstate]
  cases ch.disabled <;> rfl

theorem passes_of_available (hch : w.getChannel freq = some ch)
    (hen : ch.disabled = false) (hstate : ch.radar = true → ch.dfsState = .available) :
    w.passes freq = true := by
  simp only [Wiphy.passes, availableRound, hch, hen]
  cases hradar : ch.radar with
  | false => rfl
  | true => simp [hstate hradar, Except.toBool]

/-- If every radar channel that is looked at is marked, marking and querying agree. -/
theorem dfsCovers_of_marked (hvalid : chandefValid c = true) (h : c.InRange) (hen : c.Enabled w)
    (hmarked : ∀ freq ∈ c.rows, ∀ ch, w.getChannel freq = some ch → ch.radar = true →
      freq ∈ c.marked) : DfsCovers w c where
  unavailable := by
    rintro ⟨freq, hsub, ch, hch, hradar⟩ jiffies
    have hmem := (ChanDef.mem_rows_iff h).mpr hsub
    have hget : (w.markAll jiffies .unavailable c.marked).getChannel freq =
        some (ch.enter jiffies .unavailable) := by
      rw [getChannel_markAll, if_pos (hmarked freq hmem ch hch hradar), hch, map_some]
    have hradar' : (ch.enter jiffies .unavailable).radar = true := by simpa using hradar
    have hstate : (ch.enter jiffies .unavailable).dfsState = .unavailable :=
      WiphyChannel.enter_dfsState hradar
    refine ⟨_, setDfsState_eq hvalid h jiffies _, ?_, ?_⟩
    · exact chandefDfsUsable_eq_false hvalid h hmem (usableRound_of_unavailable hget hradar' hstate)
    · rw [chandefDfsAvailable_eq hvalid h, all_eq_false.mpr]
      exact ⟨freq, hmem, by simp [passes_of_unavailable hget hradar' hstate]⟩
  available := by
    intro jiffies
    refine ⟨_, setDfsState_eq hvalid h jiffies _, ?_⟩
    rw [chandefDfsAvailable_eq hvalid h, all_eq_true.mpr]
    intro freq hmem
    obtain ⟨freq', heq, ch, hch, hdis⟩ := hen _ ((ChanDef.mem_rows_iff h).mp hmem)
    obtain rfl : freq' = freq := UInt32.toNat_inj.mp (by exact_mod_cast heq)
    by_cases hm : freq' ∈ c.marked
    · have hget : (w.markAll jiffies .available c.marked).getChannel freq' =
          some (ch.enter jiffies .available) := by
        rw [getChannel_markAll, if_pos hm, hch, map_some]
      exact passes_of_available hget (by simpa using hdis)
        fun hradar => WiphyChannel.enter_dfsState (by simpa using hradar)
    · have hget : (w.markAll jiffies .available c.marked).getChannel freq' = some ch := by
        rw [getChannel_markAll, if_neg hm, hch]
      exact passes_of_available hget hdis fun hradar => absurd (hmarked freq' hmem ch hch hradar) hm
  frame := by
    intro jiffies state
    refine ⟨_, setDfsState_eq hvalid h jiffies state, ?_⟩
    intro i ch hi hout
    refine getElem?_markAll c.marked hi fun hmem => hout ?_
    exact (ChanDef.mem_rows_iff h).mp (ChanDef.mem_rows_of_mem_marked hmem)

/-- **Marking and querying agree unless a narrow definition is on a radar channel**, where the state
before decides. -/
theorem dfsCovers_iff (w : Wiphy) (c : ChanDef) (hvalid : chandefValid c = true) (hen : c.Enabled w)
    (hrange : c.InRange) : DfsCovers w c ↔ ¬ (c.isNarrow = true ∧ c.hasRadar w) := by
  constructor
  · rintro hcov ⟨hnarrow, hradar⟩
    have hsame : ∀ state, setDfsState 0 w c state = some w := by
      intro state
      rw [setDfsState_eq hvalid hrange, ChanDef.marked, if_pos hnarrow]
      rfl
    obtain ⟨w₁, hset₁, -, hun⟩ := hcov.unavailable hradar 0
    obtain ⟨w₂, hset₂, hav⟩ := hcov.available 0
    obtain rfl : w₁ = w := some.inj (hset₁.symm.trans (hsame _))
    obtain rfl : w₂ = w₁ := some.inj (hset₂.symm.trans (hsame _))
    rw [hun] at hav
    cases hav
  · intro hnot
    refine dfsCovers_of_marked hvalid hrange hen fun freq hmem ch hch hradar => ?_
    have hwide : ¬ c.isNarrow = true := fun hnarrow =>
      hnot ⟨hnarrow, freq, (ChanDef.mem_rows_iff hrange).mp hmem, ch, hch, hradar⟩
    rwa [ChanDef.marked, if_neg hwide]

end Queries

/-! ### Two definitions on one channel -/

/-- A device with one radar channel, at 5500 MHz. -/
def radarWiphy (state : DfsState) : Wiphy :=
  { channels := [{ centerFreq := 5500, radar := true, dfsState := state }] }

/-- A definition on that channel. -/
def at5500 (width : ChanWidth) : ChanDef := { chan := some 5500, width := width, centerFreq1 := 5500 }

variable {width : ChanWidth}

theorem mem_subChannels_at5500 (h : width.offsets = [0]) {f : ℤ} :
    f ∈ (at5500 width).subChannels ↔ f = 5500 := by
  have hne : width ≠ .w80p80 := by
    rintro rfl
    cases h
  simp [ChanDef.subChannels, ChanDef.centers, at5500, h, hne]

theorem enabled_at5500 (h : width.offsets = [0]) (state : DfsState) :
    (at5500 width).Enabled (radarWiphy state) := by
  intro f hf
  rw [mem_subChannels_at5500 h] at hf
  exact ⟨5500, by simp [hf], _, rfl, rfl⟩

theorem inRange_at5500 (h : width.offsets = [0]) : (at5500 width).InRange := by
  intro f hf
  rw [mem_subChannels_at5500 h] at hf
  omega

/-- The theorem at 20 MHz. -/
theorem dfsCovers_at_20 : DfsCovers (radarWiphy .usable) (at5500 .w20) :=
  (dfsCovers_iff (radarWiphy .usable) (at5500 .w20) (by decide) (enabled_at5500 rfl _)
    (inRange_at5500 rfl)).mpr fun h => absurd h.1 (by decide)

theorem narrow_radar_channel_stays :
    chandefValid (at5500 .w10) = true ∧ (at5500 .w10).Enabled (radarWiphy .available) ∧
      (at5500 .w10).hasRadar (radarWiphy .available) ∧
      (setDfsState 7 (radarWiphy .available) (at5500 .w10) .unavailable).bind
        (chandefDfsAvailable · (at5500 .w10)) = some true ∧
      ¬ DfsCovers (radarWiphy .available) (at5500 .w10) := by
  have hradar : (at5500 .w10).hasRadar (radarWiphy .available) :=
    ⟨5500, (mem_subChannels_at5500 rfl).mpr (by decide), _, rfl, rfl⟩
  have hstays : (setDfsState 7 (radarWiphy .available) (at5500 .w10) .unavailable).bind
      (chandefDfsAvailable · (at5500 .w10)) = some true := by decide +kernel
  refine ⟨by decide, enabled_at5500 rfl _, hradar, hstays, fun hcov => ?_⟩
  obtain ⟨w', hset, -, hun⟩ := hcov.unavailable hradar 7
  rw [hset, bind_some, hun] at hstays
  cases hstays

end Mac80211
