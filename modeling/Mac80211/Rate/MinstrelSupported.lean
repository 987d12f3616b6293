import Mac80211.Rate.MinstrelRange

/-!
# Only supported rates

An index gets into the lists of the best if the rate has a throughput, or because it stood for none
in the beginning: `placeholder`, the first rate of a group that a downgrade leads to, and the zero
in `max_prob_rate`.

## Main definitions

* `StandsIn`, `SupportInv`

## Main results

* `initSampleTable_lt` — the rates that are sampled are rates of a group
* `supported_of_reach`
-/

namespace Mac80211

open List Function

namespace MinstrelHtSta

/-! ### The table of samples -/

/-- A turn of the loop of `init_sample_table`: `i` gets the first free place from `new_idx` on. -/
def placeSample (rnd : ℕ → UInt8) (column : List ℕ) (i : ℕ) : List ℕ :=
  match ((List.range 10).map fun k => ((i + (rnd i).toNat) % 10 + k) % 10).find? fun newIdx =>
      column.getD newIdx 0 = 0xff with
  | none => column
  | some newIdx => column.set newIdx i

/-- `sample_table[col][idx]`, as `init_sample_table` makes it. -/
def initSampleTable (rnd : ℕ → ℕ → UInt8) (col idx : ℕ) : ℕ :=
  ((List.range 10).foldl (placeSample (rnd col)) (List.replicate 10 0xff)).getD idx 0

/-- A column in which `i` rates have a place. -/
structure Placed (i : ℕ) (column : List ℕ) : Prop where
  length : column.length = 10
  free : column.count 0xff + i = 10
  entry : ∀ n ∈ column, n = 0xff ∨ n < 10

theorem Placed.place {i : ℕ} {column : List ℕ} (h : Placed i column) (hi : i < 10) (rnd : ℕ → UInt8) :
    Placed (i + 1) (placeSample rnd column i) := by
  have hfree := h.free
  obtain ⟨p, hp, hat⟩ := getElem_of_mem (count_pos_iff.1 (show 0 < column.count 0xff by omega))
  have hten : p < 10 := h.length ▸ hp
  rw [placeSample]
  split
  · -- the search goes around once
    rename_i hnone
    have hp' := find?_eq_none.1 hnone p (mem_map.2
      ⟨(p + 10 - (i + (rnd i).toNat) % 10) % 10, mem_range.2 (by omega), by omega⟩)
    exact absurd (decide_eq_true ((getD_eq_getElem _ _ hp).trans hat)) hp'
  · rename_i newIdx hsome
    have hat := find?_some hsome
    rw [decide_eq_true_eq] at hat
    have hlt : newIdx < column.length := by
      by_contra hge
      rw [getD_eq_default _ _ (Nat.le_of_not_lt hge)] at hat
      cases hat
    rw [getD_eq_getElem _ _ hlt] at hat
    refine ⟨length_set.trans h.length, ?_, fun n hn => ?_⟩
    · rw [count_set hlt, hat, if_pos (beq_self_eq_true _), if_neg (by rw [beq_iff_eq]; omega)]
      omega
    · rcases mem_or_eq_of_mem_set hn with hn | rfl
      · exact h.entry n hn
      · exact .inr hi

/-- **The entries are rates of a group**, whatever is drawn. -/
theorem initSampleTable_lt (rnd : ℕ → ℕ → UInt8) (col idx : ℕ) : initSampleTable rnd col idx < 10 := by
  have hplaced (i : ℕ) (hi : i ≤ 10) :
      Placed i ((List.range i).foldl (placeSample (rnd col)) (List.replicate 10 0xff)) := by
    induction i with
    | zero => exact ⟨rfl, rfl, by simp⟩
    | succ i ih =>
      rw [range_succ, foldl_append]
      exact (ih (by omega)).place hi _
  have h := hplaced 10 le_rfl
  rw [initSampleTable]
  generalize (List.range 10).foldl (placeSample (rnd col)) (List.replicate 10 0xff) = column at h ⊢
  by_cases hidx : idx < column.length
  · have hmem := getElem_mem hidx
    rw [getD_eq_getElem _ _ hidx]
    rcases h.entry _ hmem with heq | hlt
    · have hcount := count_pos_iff.2 (heq ▸ hmem)
      have := h.free
      omega
    · exact hlt
  · rw [getD_eq_default _ _ (Nat.le_of_not_lt hidx)]
    decide

/-! ### What is transmitted -/

/-- `minstrel_set_next_sample_idx`; some group is supported. -/
def minstrelSetNextSampleIdx (mi : MinstrelHtSta) : MinstrelHtSta :=
  match ((List.range minstrelGroupsNb).map fun i => (mi.sampleGroup + 1 + i) % minstrelGroupsNb).find? fun g =>
      mi.supported g ≠ 0 with
  | none => mi
  | some g =>
    let index := mi.index g + 1
    let column := mi.column g + 1
    { mi with
      sampleGroup := g
      index := Function.update mi.index g (if 10 ≤ index then 0 else index)
      column := if 10 ≤ index then Function.update mi.column g (if 10 ≤ column then 0 else column) else mi.column }

/-- The part of `minstrel_get_sample_rate` behind the check that the rate is supported. -/
def sampleChecked (mp : MinstrelPriv) (mi : MinstrelHtSta) (sampleIdx : ℕ) : Option ℕ × MinstrelHtSta :=
  let mrs := mi.rates sampleIdx
  let dur0 := minstrelGetDuration (mi.maxTpRate.getD 0 0)
  let dur1 := minstrelGetDuration (mi.maxTpRate.getD 1 0)
  let durProb := minstrelGetDuration mi.maxProbRate
  let tpRate1 := mi.maxTpRate.getD (if dur1 < dur0 then 1 else 0) 0
  let sampleDur := minstrelGetDuration sampleIdx
  if sampleIdx = mi.maxTpRate.getD 0 0 ∨ sampleIdx = mi.maxProbRate then (none, mi)
  else if minstrelFrac 95 100 < mrs.probEwma ∨ durProb * 3 < sampleDur then (none, mi)
  else if mp.maxRates = 1 ∧ (minstrelGetDuration ((mi.maxGroupTpRate (sampleIdx / 10)).getD 0 0) < sampleDur ∨
      mrs.attempts ≠ 0) then (none, mi)
  else if min dur0 dur1 ≤ sampleDur ∧ mrs.attempts ≠ 0 then (none, mi)
  else if max dur0 dur1 ≤ sampleDur ∧ ((minstrelMcsGroups (tpRate1 / 10)).streams - 1 <
      (minstrelMcsGroups (sampleIdx / 10)).streams ∨ durProb ≤ sampleDur) then
    if mrs.sampleSkipped < 20 then (none, mi)
    else
      let slow := { mi with sampleSlow := (mi.sampleSlow + 1) % 2 ^ 8 }
      if 2 < mi.sampleSlow then (none, slow)
      else (some sampleIdx, { slow with sampleTries := mi.sampleTries - 1 })
  else (some sampleIdx, { mi with sampleTries := mi.sampleTries - 1 })

/-- `minstrel_get_sample_rate`. -/
def minstrelGetSampleRate (mp : MinstrelPriv) (mi : MinstrelHtSta) : Option ℕ × MinstrelHtSta :=
  if mp.maxRates = 1 ∧ mp.sampleSwitch ≠ 0 ∧ (100 ≤ mi.totalPacketsCur ∨ mp.sampleSwitch = 1) then (none, mi)
  else if 0 < mi.sampleWait then (none, { mi with sampleWait := mi.sampleWait - 1 })
  else if mi.sampleTries = 0 then (none, mi)
  else
    let sampleGroup := mi.sampleGroup
    let sampleIdx := initSampleTable mp.rnd (mi.column sampleGroup) (mi.index sampleGroup)
    let mi := mi.minstrelSetNextSampleIdx
    if (mi.supported sampleGroup).testBit sampleIdx then sampleChecked mp mi (sampleIdx + sampleGroup * 10)
    else (none, mi)

/-- `minstrel_ht_get_rate`: the index of the rate that is sampled. -/
def minstrelHtGetRate (mp : MinstrelPriv) (mi : MinstrelHtSta) (portCtrl shortPreamble : Bool) :
    Option ℕ × MinstrelHtSta :=
  -- don't use EAPOL frames for sampling on non-mrr hw
  let (sampleIdx, mi) := if mp.maxRates = 1 ∧ portCtrl then (none, mi) else mi.minstrelGetSampleRate mp
  let total := (mi.totalPackets + 1) % 2 ^ 32
  (sampleIdx.filter fun n => n / 10 ≠ cckGroupIdx || decide (4 ≤ n % 10) = shortPreamble,
    { mi with totalPackets := if total = 2 ^ 32 - 1 then 0 else total })

/-- The indices of the rates that `minstrel_ht_update_rates` sets, if there is memory for them. -/
def minstrelHtUpdateRates (mp : MinstrelPriv) (mi : MinstrelHtSta) : List ℕ :=
  (if mi.sampleMode = .active then mi.sampleRate else mi.maxTpRate.getD 0 0) ::
    ((if 3 ≤ mp.maxRates then [mi.maxTpRate.getD 1 0] else []) ++ if 2 ≤ mp.maxRates then [mi.maxProbRate] else [])

/-! ### What an update keeps -/

variable {mp : MinstrelPriv} {S mi : MinstrelHtSta} {random n : ℕ} {l : List ℕ}

/-- The group that `minstrel_downgrade_rate` goes to. -/
def downgradeGroup (mi : MinstrelHtSta) (idx : ℕ) : Option ℕ :=
  (List.range (idx / 10)).reverse.find? fun group => mi.supported group ≠ 0 &&
    (minstrelMcsGroups group).streams ≤ (minstrelMcsGroups (idx / 10)).streams

/-- What stands for no rate is a supported one where it may be used. -/
structure StandsIn (mp : MinstrelPriv) (mi : MinstrelHtSta) : Prop where
  tp : mi.Supports mi.placeholder
  prob : 2 ≤ mp.maxRates → mi.Supports 0
  group : 2 ≤ mp.maxRates → ∀ n g, mi.Supports n → mi.downgradeGroup n = some g → mi.Supports (10 * g)

/-- The four best are supported. -/
def Four (S : MinstrelHtSta) (l : List ℕ) : Prop := l.length = 4 ∧ ∀ n ∈ l, S.Supports n

theorem Four.getD (h : Four S l) {k : ℕ} (hk : k < 4) : S.Supports (l.getD k 0) := by
  rw [getD_eq_getElem l 0 (h.1 ▸ hk)]
  exact h.2 _ (getElem_mem _)

theorem four_replicate (h : S.Supports n) : Four S (List.replicate 4 n) :=
  ⟨rfl, fun _ hm => eq_of_mem_replicate hm ▸ h⟩

/-- What does not depend on the last update. -/
structure Supported (mp : MinstrelPriv) (S mi : MinstrelHtSta) : Prop where
  supported : mi.supported = S.supported
  idle : ∀ n, mi.prob n ≠ 0 → S.Supports n
  prob : 2 ≤ mp.maxRates → S.Supports mi.maxProbRate ∧ ∀ g, S.Supports (mi.maxGroupProbRate g)
  group : 2 ≤ mp.maxRates → ∀ n g, S.Supports n → S.downgradeGroup n = some g → Four S (mi.maxGroupTpRate g)
  sample : mi.sampleMode = .active → S.Supports mi.sampleRate

theorem Supported.sort (h : Supported mp S mi) (hl : Four S l) (n : ℕ) :
    Four S (mi.minstrelHtSortBestTpRates n l) := by
  rw [minstrelHtSortBestTpRates_eq]
  refine ⟨TopList.length_push.trans hl.1, fun m hm => ?_⟩
  rcases TopList.mem_push_of_beats hm with hm | ⟨rfl, y, -, hy⟩
  · exact hl.2 m hm
  · refine h.idle m fun hzero => ?_
    -- without a probability there is no throughput, and nothing is beaten
    have htp : mi.tp m = 0 := by rw [tp, hzero]; exact if_pos (by decide)
    have hlt := of_decide_eq_true hy
    rw [key, key, Prod.Lex.toLex_lt_toLex, htp, hzero] at hlt
    omega

theorem Supported.bestProb (h : Supported mp S mi) (n : ℕ) :
    Supported mp S (mi.minstrelHtSetBestProbRate n) := by
  rw [minstrelHtSetBestProbRate]
  split
  · exact h
  · have hbetter (m : ℕ) (hb : (if minstrelFrac 75 100 < mi.prob n then decide (mi.tp m < mi.tp n) else
        decide (mi.prob m < mi.prob n)) = true) : S.Supports n := by
      refine h.idle n fun hzero => ?_
      rw [hzero, if_neg (by decide)] at hb
      exact Nat.not_lt_zero _ (of_decide_eq_true hb)
    have hset (b b' : Bool) (hb : b = true → S.Supports n) (hb' : b' = true → S.Supports n) :
        Supported mp S { mi with
          maxProbRate := if b then n else mi.maxProbRate
          maxGroupProbRate := if b' then Function.update mi.maxGroupProbRate (n / 10) n else mi.maxGroupProbRate } := by
      refine ⟨h.supported, h.idle, fun hmax => ⟨?_, fun g => ?_⟩, h.group, h.sample⟩
      · cases b with
        | true => exact hb rfl
        | false => exact (h.prob hmax).1
      · cases b' with
        | true =>
          show S.Supports (Function.update mi.maxGroupProbRate (n / 10) n g)
          by_cases hg : g = n / 10
          · rw [hg, update_self]
            exact hb' rfl
          · rw [update_of_ne hg]
            exact (h.prob hmax).2 g
        | false => exact (h.prob hmax).2 g
    exact hset _ _ (hbetter _) (hbetter _)

/-- The state in the loop of an update, in the group `g`. -/
structure InGroup (mp : MinstrelPriv) (S : MinstrelHtSta) (g : ℕ) (s : MinstrelHtSta × TpRates) : Prop where
  sta : Supported mp S s.1
  mcs : Four S s.2.mcs
  group : 2 ≤ mp.maxRates → ∀ n, S.Supports n → S.downgradeGroup n = some g → Four S s.2.group

theorem InGroup.rate {g i : ℕ} {s : MinstrelHtSta × TpRates} (h : InGroup mp S g s) :
    InGroup mp S g (updateRate g s i) := by
  obtain ⟨mi, t⟩ := s
  rw [updateRate]
  dsimp only
  split
  · exact h
  · rename_i hs
    have hs : S.Supports (10 * g + i) := by
      rw [not_not, Supports, h.sta.supported] at hs
      exact hs
    have hsta : Supported mp S { mi with
        rates := Function.update mi.rates (10 * g + i) (minstrelCalcRateStats (mi.rates (10 * g + i))) } := by
      refine ⟨h.sta.supported, fun n hn => ?_, h.sta.prob, h.sta.group, h.sta.sample⟩
      by_cases heq : n = 10 * g + i
      · exact heq ▸ hs
      · refine h.sta.idle n ?_
        have hn : (Function.update mi.rates (10 * g + i) _ n).probEwma ≠ 0 := hn
        rwa [update_of_ne heq] at hn
    split
    · exact ⟨hsta, h.mcs, h.group⟩
    · refine ⟨hsta.bestProb _, ?_, fun hmax n hn hg => ?_⟩
      · dsimp only
        split
        · exact hsta.sort h.mcs _
        · exact h.mcs
      · have hgroup := hsta.sort (h.group hmax n hn hg) (10 * g + i)
        dsimp only
        split <;> exact hgroup

theorem updateGroup_keeps (hin : StandsIn mp S) {g : ℕ} {s : MinstrelHtSta × TpRates}
    (h : Supported mp S s.1 ∧ Four S s.2.mcs) :
    Supported mp S (updateGroup s g).1 ∧ Four S (updateGroup s g).2.mcs := by
  obtain ⟨mi, t⟩ := s
  rw [updateGroup]
  dsimp only
  split
  · exact h
  · have hloop := Loops.foldl_range (fun _ => InGroup mp S g) (f := updateRate g) (n := 10)
      (s := ({ mi with sampleCount := (mi.sampleCount + 1) % 2 ^ 8 },
        { t with group := List.replicate 4 (10 * g) }))
      ⟨⟨h.1.supported, h.1.idle, h.1.prob, h.1.group, h.1.sample⟩, h.2,
        fun hmax n hn hg => four_replicate (hin.group hmax n g hn hg)⟩ fun _ _ _ hs => hs.rate
    refine ⟨⟨hloop.sta.supported, hloop.sta.idle, hloop.sta.prob, fun hmax n g' hn hg => ?_, hloop.sta.sample⟩, hloop.mcs⟩
    dsimp only
    by_cases heq : g' = g
    · rw [heq, update_self]
      exact hloop.group hmax n hn (heq ▸ hg)
    · rw [update_of_ne heq]
      exact hloop.sta.group hmax n g' hn hg

/-- What holds between two updates. -/
structure SupportInv (mp : MinstrelPriv) (S mi : MinstrelHtSta) : Prop extends Supported mp S mi where
  tp : Four S mi.maxTpRate

theorem SupportInv.sampleSwitch (h : SupportInv mp S mi) :
    SupportInv mp S (mi.minstrelHtRateSampleSwitch mp random) := by
  have hprobe (rate : ℕ) (hr : mi.Supports rate) :
      SupportInv mp S { mi with sampleRate := rate, sampleMode := .active } := by
    rw [Supports, h.supported] at hr
    exact ⟨⟨h.supported, h.idle, h.prob, h.group, fun _ => hr⟩, h.tp⟩
  have hfind (faster : Bool) (n : ℕ) (hn : n ∈ mi.minstrelHtFindProbeRates faster) : mi.Supports n := by
    obtain ⟨g, -, hg⟩ := mem_filterMap.1 hn
    split at hg
    · have hsome := find?_some hg
      simp only [Bool.and_eq_true, decide_eq_true_eq] at hsome
      exact hsome.1.1
    · cases hg
  have hrates (c : Prop) [Decidable c] (faster : Bool) (n : ℕ) (hn : n ∈ if c then mi.minstrelHtFindProbeRates false
      else mi.minstrelHtFindProbeRates faster) : mi.Supports n := by
    split at hn
    · exact hfind _ n hn
    · exact hfind _ n hn
  rw [minstrelHtRateSampleSwitch]
  dsimp only
  split
  · exact h
  · split
    · split
      · exact h
      · rename_i hsome
        have hs := find?_some hsome
        exact hprobe _ (of_decide_eq_true hs)
    · rename_i hne
      refine hprobe _ ?_
      rw [getD_eq_getElem _ 0 (Nat.mod_lt _ (length_pos_iff.2 hne))]
      exact hrates _ _ _ (getElem_mem (Nat.mod_lt random (length_pos_iff.2 hne)))

theorem Supported.finish (h : Supported mp S mi) {t : TpRates} (ht : Four S t.mcs) (sample : Bool) :
    SupportInv mp S (mi.finishUpdate mp random t sample) := by
  have htp : Four S (mi.minstrelHtAssignBestTpRates t) := by
    rw [minstrelHtAssignBestTpRates]
    split
    · generalize t.mcs = mcs at ht
      induction t.cck generalizing mcs with
      | nil => exact ht
      | cons n cck ih => exact ih _ (h.sort ht n)
    · exact ht
  have hreduce (mi : MinstrelHtSta) (h : Supported mp S mi) (hmax : 2 ≤ mp.maxRates) :
      S.Supports mi.minstrelHtProbRateReduceStreams := by
    refine Loops.foldl_range (fun _ (acc : ℕ × ℕ) => S.Supports acc.1) (h.prob hmax).1 fun g _ acc hacc => ?_
    dsimp only
    split
    · exact hacc
    · split
      · exact (h.prob hmax).2 g
      · exact hacc
  have htop : Supported mp S { mi with maxTpRate := mi.minstrelHtAssignBestTpRates t } :=
    ⟨h.supported, h.idle, h.prob, h.group, h.sample⟩
  have hinv (c : ℕ) : SupportInv mp S { mi with
      maxTpRate := mi.minstrelHtAssignBestTpRates t
      maxProbRate := { mi with maxTpRate := mi.minstrelHtAssignBestTpRates t }.minstrelHtProbRateReduceStreams
      sampleCount := c } :=
    ⟨⟨h.supported, h.idle, fun hmax => ⟨hreduce _ htop hmax, (h.prob hmax).2⟩, h.group, h.sample⟩, htp⟩
  rw [finishUpdate]
  split
  · exact (hinv _).sampleSwitch
  · exact hinv _

theorem Supported.update (hin : StandsIn mp S) (h : Supported mp S mi) (sample : Bool) :
    SupportInv mp S (mi.minstrelHtUpdateStats mp random sample) := by
  have hstart : (mi.startUpdate mp sample).placeholder = S.placeholder := by
    rw [placeholder, placeholder, show (mi.startUpdate mp sample).supported = S.supported from h.supported]
  have hloop := Loops.foldl_range (fun _ s => Supported mp S s.1 ∧ Four S s.2.mcs) (f := updateGroup)
    (n := minstrelGroupsNb) (s := (mi.startUpdate mp sample, (mi.startUpdate mp sample).tpRates))
    ⟨⟨h.supported, h.idle, h.prob, h.group, fun hn => by cases hn⟩, four_replicate (hstart ▸ hin.tp)⟩
    fun _ _ _ hs => updateGroup_keeps hin hs
  exact hloop.1.finish hloop.2 _

/-! ### Runs -/

/-- The peer when `minstrel_ht_update_caps` has filled in its masks. -/
structure Cleared (mi : MinstrelHtSta) : Prop where
  rates : ∀ n, mi.prob n = 0
  maxProb : mi.maxProbRate = 0 ∧ ∀ g, mi.maxGroupProbRate g = 0
  maxGroup : ∀ g, mi.maxGroupTpRate g = List.replicate 4 0
  mode : mi.sampleMode = .idle

theorem Cleared.supported (h : Cleared S) (hin : StandsIn mp S) : Supported mp S S where
  supported := rfl
  idle n hn := absurd (h.rates n) hn
  prob hmax := by
    rw [h.maxProb.1]
    exact ⟨hin.prob hmax, fun g => by rw [h.maxProb.2]; exact hin.prob hmax⟩
  group hmax n g hn hg := by
    rw [h.maxGroup]
    exact four_replicate (hin.prob hmax)
  sample hactive := by
    rw [h.mode] at hactive
    cases hactive

theorem SupportInv.downgrade (h : SupportInv mp S mi) (hmax : 2 ≤ mp.maxRates) (hn : S.Supports n)
    (primary : Bool) : S.Supports (mi.minstrelDowngradeRate n primary) := by
  rw [minstrelDowngradeRate]
  split
  · exact hn
  · rename_i g hg
    have hg : S.downgradeGroup n = some g := by
      rw [downgradeGroup, ← h.supported]
      exact hg
    exact (h.group hmax n g hn hg).getD (by split <;> decide)

theorem SupportInv.status (hin : StandsIn mp S) (h : SupportInv mp S mi) (e : StatusEvent) :
    SupportInv mp S (mi.minstrelHtTxStatus mp e.random e.st e.due).1 := by
  refine minstrelHtTxStatus_induct (SupportInv mp S) h (fun _ => ?_)
    (fun _ hs => ⟨⟨hs.supported, hs.idle, hs.prob, hs.group, nofun⟩, hs.tp⟩)
    (fun _ sample hs => hs.update hin sample) fun hmax n s hs => ?_
  · have hprob (as : List AddedCounts) (r : ℕ → RateStats) (n : ℕ) :
        (as.foldl addCounts r n).probEwma = (r n).probEwma := by
      induction as generalizing r with
      | nil => rfl
      | cons a as ih =>
        rw [foldl_cons, ih, addCounts]
        by_cases hn : n = a.ndx
        · rw [hn, update_self]
        · rw [update_of_ne hn]
    have hidle (n : ℕ) (hn : ((mi.added mp (ampduLens e.st).1 (ampduLens e.st).2 e.st.rates).foldl addCounts mi.rates
        n).probEwma ≠ 0) : S.Supports n := h.idle n (by rwa [hprob] at hn)
    rw [counted]
    dsimp only
    split
    · exact ⟨⟨h.supported, hidle, h.prob, h.group, h.sample⟩, h.tp⟩
    · exact ⟨⟨h.supported, hidle, h.prob, h.group, h.sample⟩, h.tp⟩
  · rw [checkSuddenDeath]
    split
    · have hidx : S.Supports (s.1.maxTpRate.getD n 0) := by
        by_cases hn : n < 4
        · exact hs.tp.getD hn
        · rw [getD_eq_default _ _ (by rw [hs.tp.1]; exact Nat.le_of_not_lt hn)]
          exact hin.prob hmax
      refine ⟨⟨hs.supported, hs.idle, hs.prob, hs.group, hs.sample⟩, length_set.trans hs.tp.1, fun m hm => ?_⟩
      rcases mem_or_eq_of_mem_set hm with hm | rfl
      · exact hs.tp.2 m hm
      · exact hs.downgrade hmax hidx _
    · exact hs

theorem SupportInv.sampleRate (h : SupportInv mp S mi) :
    SupportInv mp S (mi.minstrelGetSampleRate mp).2 ∧ ∀ n ∈ (mi.minstrelGetSampleRate mp).1, S.Supports n := by
  have hnext : SupportInv mp S mi.minstrelSetNextSampleIdx := by
    rw [minstrelSetNextSampleIdx]
    split
    · exact h
    · exact ⟨⟨h.supported, h.idle, h.prob, h.group, h.sample⟩, h.tp⟩
  have hchecked (idx : ℕ) (hidx : S.Supports idx) :
      SupportInv mp S (mi.minstrelSetNextSampleIdx.sampleChecked mp idx).2 ∧
        ∀ n ∈ (mi.minstrelSetNextSampleIdx.sampleChecked mp idx).1, S.Supports n := by
    generalize mi.minstrelSetNextSampleIdx = mi at hnext
    have hcounts (slow tries : ℕ) : SupportInv mp S { mi with sampleSlow := slow, sampleTries := tries } :=
      ⟨⟨hnext.supported, hnext.idle, hnext.prob, hnext.group, hnext.sample⟩, hnext.tp⟩
    rw [sampleChecked]
    dsimp only
    split_ifs
    all_goals
      first
      | exact ⟨hcounts _ _, fun n hn => Option.some.inj hn ▸ hidx⟩
      | exact ⟨hnext, fun _ hn => by cases hn⟩
      | exact ⟨hcounts _ _, fun _ hn => by cases hn⟩
  have hnone : ∀ n ∈ (none : Option ℕ), S.Supports n := fun _ hn => by cases hn
  rw [minstrelGetSampleRate]
  dsimp only
  split_ifs with hswitch hwait htries hbit
  · exact ⟨h, hnone⟩
  · exact ⟨⟨⟨h.supported, h.idle, h.prob, h.group, h.sample⟩, h.tp⟩, hnone⟩
  · exact ⟨h, hnone⟩
  · refine hchecked _ ?_
    have := initSampleTable_lt mp.rnd (mi.column mi.sampleGroup) (mi.index mi.sampleGroup)
    rw [hnext.supported] at hbit
    rwa [Supports, Nat.add_mul_div_right _ _ (by decide), Nat.div_eq_of_lt this, Nat.zero_add,
      Nat.add_mul_mod_self_right, Nat.mod_eq_of_lt this]
  · exact ⟨hnext, hnone⟩

theorem SupportInv.updateRates (h : SupportInv mp S mi) (hn : n ∈ mi.minstrelHtUpdateRates mp) : S.Supports n := by
  rw [minstrelHtUpdateRates] at hn
  rcases mem_cons.1 hn with rfl | hn
  · split
    · rename_i hactive
      exact h.sample hactive
    · exact h.tp.getD (by decide)
  · rcases mem_append.1 hn with hn | hn
    · split at hn
      · exact mem_singleton.1 hn ▸ h.tp.getD (by decide)
      · cases hn
    · split at hn
      · rename_i hmax
        exact mem_singleton.1 hn ▸ (h.prob hmax).1
      · cases hn

/-- What the driver or a frame asks for. -/
inductive RateEvent
  | status (e : StatusEvent)
  | getRate (portCtrl shortPreamble : Bool)

/-- A step, and the indices of the rates it makes transmit rates of. -/
def rateStep (mp : MinstrelPriv) (mi : MinstrelHtSta) : RateEvent → Option (MinstrelHtSta × List ℕ)
  | .status e =>
    let r := mi.minstrelHtTxStatus mp e.random e.st e.due
    some (r.1, if r.2 then r.1.minstrelHtUpdateRates mp else [])
  | .getRate portCtrl shortPreamble =>
    let r := mi.minstrelHtGetRate mp portCtrl shortPreamble
    some (r.2, r.1.toList)

theorem SupportInv.step {mi' : MinstrelHtSta} {e : RateEvent} {o : List ℕ} (hin : StandsIn mp S)
    (h : SupportInv mp S mi) (hstep : rateStep mp mi e = some (mi', o)) :
    SupportInv mp S mi' ∧ ∀ n ∈ o, S.Supports n := by
  cases e with
  | status e =>
    have hstatus := h.status hin e
    cases hstep
    refine ⟨hstatus, fun n hn => ?_⟩
    split at hn
    · exact hstatus.updateRates hn
    · cases hn
  | getRate portCtrl shortPreamble =>
    cases hstep
    have hsampled : SupportInv mp S (if mp.maxRates = 1 ∧ portCtrl then (none, mi) else mi.minstrelGetSampleRate mp).2 ∧
        ∀ n ∈ (if mp.maxRates = 1 ∧ portCtrl then (none, mi) else mi.minstrelGetSampleRate mp).1, S.Supports n := by
      split
      · exact ⟨h, nofun⟩
      · exact h.sampleRate
    obtain ⟨hsta, hidx⟩ := hsampled
    rw [minstrelHtGetRate]
    refine ⟨⟨⟨hsta.supported, hsta.idle, hsta.prob, hsta.group, hsta.sample⟩, hsta.tp⟩, fun n hn => ?_⟩
    exact hidx n (Option.mem_filter_iff.1 (Option.mem_toList.1 hn)).1

/-- **Only supported rates** are transmitted, in any run, if what stands for none is supported. -/
theorem supported_of_reach (hnew : Cleared S) (hin : StandsIn mp S)
    {os : List ℕ} (h : Machine.Reach (rateStep mp) (fun _ _ _ => True)
      (S.minstrelHtUpdateStats mp random true) mi os) :
    (∀ n ∈ os, S.Supports n) ∧ ∀ n ∈ mi.minstrelHtUpdateRates mp, S.Supports n := by
  have hinv := h.invariant (fun mi os => SupportInv mp S mi ∧ ∀ n ∈ os, S.Supports n)
    ⟨(hnew.supported hin).update hin true, nofun⟩ fun mi os e mi' o hinv _ hstep => by
      obtain ⟨hsta, ho⟩ := hinv.1.step hin hstep
      refine ⟨hsta, fun n hn => ?_⟩
      rcases mem_append.1 hn with hn | hn
      · exact hinv.2 n hn
      · exact ho n hn
  exact ⟨hinv.2, fun _ => hinv.1.updateRates⟩

/-- A device with four entries for rates. -/
def fourEntries : MinstrelPriv where
  maxRates := 4

theorem standsIn_oneStream : StandsIn fourEntries oneStream where
  tp := by decide
  prob _ := by decide
  group _ n g hn hg := by
    by_cases hzero : n / 10 = 0
    · rw [downgradeGroup, hzero] at hg
      cases hg
    · have hnone : oneStream.supported (n / 10) = 0 := if_neg hzero
      rw [Supports, hnone, Nat.zero_testBit] at hn
      cases hn

theorem oneStream_cleared : Cleared oneStream := ⟨fun _ => rfl, ⟨rfl, fun _ => rfl⟩, fun _ => rfl, rfl⟩

/-- A status with an update, and then a frame. -/
theorem supported_oneStream :
    let status := (oneStream.minstrelHtUpdateStats fourEntries 0 true).minstrelHtTxStatus fourEntries 0 firstMcs true
    let frame := status.1.minstrelHtGetRate fourEntries false false
    (∀ n ∈ status.1.minstrelHtUpdateRates fourEntries ++ frame.1.toList, oneStream.Supports n) ∧
      ∀ n ∈ frame.2.minstrelHtUpdateRates fourEntries, oneStream.Supports n :=
  supported_of_reach oneStream_cleared standsIn_oneStream
    (.step (.step .init trivial (e := .status ⟨firstMcs, true, 0⟩) rfl) trivial (e := .getRate false false) rfl)

/-- A peer with VHT rates. -/
def vhtOnly : MinstrelHtSta where
  overhead := 100
  supported := fun group => if group = vhtGroup0 then 255 else 0

/-- The zero in `max_prob_rate` is an HT rate, which the peer does not support. -/
theorem zero_transmitted : Cleared vhtOnly ∧ ¬∀ n ∈ (vhtOnly.minstrelHtUpdateStats fourEntries 0
    true).minstrelHtUpdateRates fourEntries, vhtOnly.Supports n :=
  ⟨⟨fun _ => rfl, ⟨rfl, fun _ => rfl⟩, fun _ => rfl, rfl⟩, by decide +kernel⟩

end MinstrelHtSta

end Mac80211
