import Mathlib.Data.List.GetD
import Mathlib.Data.Prod.Lex
import Mac80211.Lib.Loops
import Mac80211.Rate.MinstrelHt

/-!
# The best rates

The lists of the best start with a rate that stands for none, the first VHT rate if there is any and
else the first HT rate. If both are in use, the HT rates come first, and are compared with what the
first VHT rate was worth in the interval before.

## Main definitions

* `settled` — the statistics after an update, rate by rate
* `PlaceholderHarmless` — the stale comparison does no harm

## Main results

* `maxTpRate_updateStats` — `max_tp_rate` in closed form
* `picksBest_iff` — the best rate is picked in just these cases
-/

namespace Mac80211

open MinstrelHtSta List

variable {mp : MinstrelPriv} {random : ℕ} {mi mi' : MinstrelHtSta} {sample : Bool} {s : MinstrelHtSta × TpRates}

namespace MinstrelHtSta

/-- Throughput first, and then probability. -/
def key (mi : MinstrelHtSta) (index : ℕ) : ℕ ×ₗ ℕ := toLex (mi.tp index, mi.prob index)

/-- A peer with the statistics of an update. -/
def settled (mp : MinstrelPriv) (mi : MinstrelHtSta) (sample : Bool) : MinstrelHtSta :=
  { mi.startUpdate mp sample with
    rates := fun n =>
      if n < minstrelGroupsNb * 10 ∧ mi.Supports n then minstrelCalcRateStats (mi.rates n) else mi.rates n }

/-- `max_tp_rate` is in order, and its first rate is the best. -/
structure PicksBest (mi : MinstrelHtSta) : Prop where
  sorted : TopList.Sorted mi.key mi.maxTpRate
  best : ∀ n < minstrelGroupsNb * 10, mi.Supports n → mi.tp n ≤ mi.tp (mi.maxTpRate.getD 0 0)

/-- Of the `n` rates from `a` on, those that are supported and have a throughput. -/
def rated (mi : MinstrelHtSta) (a n : ℕ) : List ℕ :=
  (List.range' a n).filter fun index => mi.Supports index ∧ mi.tp index ≠ 0

def htRates (mi : MinstrelHtSta) : List ℕ := mi.rated 0 160

def cckRates (mi : MinstrelHtSta) : List ℕ := mi.rated 160 10

def vhtRates (mi : MinstrelHtSta) : List ℕ := mi.rated 170 240

/-- What the list of the CCK rates starts with. -/
def cckSeed (mi : MinstrelHtSta) : ℕ := if mi.supported cckGroupIdx ≠ 0 then cckGroupIdx * 10 else 0

/-- Those of some rates that are above a throughput and probability. -/
def above (mi : MinstrelHtSta) (k : ℕ ×ₗ ℕ) (l : List ℕ) : List ℕ := l.filter fun index => k < mi.key index

/-- What the list of the best CCK rates is made from. -/
def cckOffers (mi : MinstrelHtSta) : List ℕ := List.replicate 4 mi.cckSeed ++ mi.cckRates

/-- **The condition** on the statistics after the update and on `old`, what the first VHT rate was
worth before. If no HT rate is above `old`, another rate must reach each of them. If some are, none
of these may be below what that VHT rate is worth now, unless the four places are filled in the end:
by them, by the VHT rates above it, and by CCK rates above it if one is better than all of these. -/
def PlaceholderHarmless (mi : MinstrelHtSta) (old : ℕ ×ₗ ℕ) : Prop :=
  let new := mi.key mi.placeholder
  let ht := mi.above old mi.htRates
  let vht := mi.above new mi.vhtRates
  mi.supported vhtGroup0 ≠ 0 →
    if ht = [] then
      ∀ n ∈ mi.htRates, ∃ n' ∈ mi.placeholder :: mi.vhtRates ++ mi.cckOffers, mi.tp n ≤ mi.tp n'
    else (∀ n ∈ ht, new ≤ mi.key n) ∨ 4 ≤ ht.length + vht.length ∨
      4 ≤ ht.length + vht.length + (mi.above new mi.cckOffers).length ∧
        ∃ c ∈ mi.cckOffers, ∀ n ∈ ht ++ vht, mi.tp n < mi.tp c

theorem minstrelHtSortBestTpRates_eq (mi : MinstrelHtSta) (index : ℕ) (l : List ℕ) :
    mi.minstrelHtSortBestTpRates index l = TopList.push (fun y => mi.key y < mi.key index) index l := by
  refine TopList.push_congr fun y _ => ?_
  rw [Bool.eq_iff_iff, decide_eq_true_iff, key, key, Prod.Lex.toLex_lt_toLex]
  simp only [Bool.not_eq_true', Bool.or_eq_false_iff, Bool.and_eq_false_iff, decide_eq_false_iff_not]
  omega

theorem minstrelHtSetBestProbRate_eq (mi : MinstrelHtSta) (index : ℕ) : ∃ p g,
    mi.minstrelHtSetBestProbRate index = { mi with maxProbRate := p, maxGroupProbRate := g } := by
  rw [minstrelHtSetBestProbRate]
  split
  · exact ⟨_, _, rfl⟩
  · exact ⟨_, _, rfl⟩

theorem minstrelHtRateSampleSwitch_eq (mp : MinstrelPriv) (random : ℕ) (mi : MinstrelHtSta) : ∃ r m,
    mi.minstrelHtRateSampleSwitch mp random = { mi with sampleRate := r, sampleMode := m } := by
  rw [minstrelHtRateSampleSwitch]
  dsimp only
  split
  · exact ⟨_, _, rfl⟩
  · split
    · split
      · exact ⟨_, _, rfl⟩
      · exact ⟨_, _, rfl⟩
    · exact ⟨_, _, rfl⟩

theorem tp_congr {n : ℕ} (hoverhead : mi.overhead = mi'.overhead) (havg : mi.avgAmpduLen = mi'.avgAmpduLen)
    (hrates : mi.rates n = mi'.rates n) : mi.tp n = mi'.tp n := by
  have hnsecs : mi.nsecs n = mi'.nsecs n := by rw [nsecs, nsecs, avgLen, avgLen, hoverhead, havg]
  rw [tp, tp, minstrelHtGetTpAvg, minstrelHtGetTpAvg, hnsecs, prob, prob, hrates]

/-! ### One rate after the other -/

/-- The rates before `b` have been updated. -/
structure Upto (mp : MinstrelPriv) (mi : MinstrelHtSta) (sample : Bool) (b : ℕ) (mi' : MinstrelHtSta) : Prop where
  supported : mi'.supported = mi.supported
  overhead : mi'.overhead = mi.overhead
  avg : mi'.avgAmpduLen = (mi.startUpdate mp sample).avgAmpduLen
  ampdu : mi'.ampduLen = (mi.startUpdate mp sample).ampduLen ∧ mi'.ampduPackets = 0
  rates : ∀ n, mi'.rates n = if n < b then (settled mp mi sample).rates n else mi.rates n

/-- What the rate `y` is worth when the rate `x` is put in. -/
def keyAt (mp : MinstrelPriv) (mi : MinstrelHtSta) (sample : Bool) (x y : ℕ) : ℕ ×ₗ ℕ :=
  if x < y then (mi.startUpdate mp sample).key y else (settled mp mi sample).key y

/-- The list of the best after some rates. -/
def bestSoFar (mp : MinstrelPriv) (mi : MinstrelHtSta) (sample : Bool) (xs l : List ℕ) : List ℕ :=
  xs.foldl (fun l x => TopList.push
    (fun y => keyAt mp mi sample x y < (settled mp mi sample).key x) x l) l

/-- The rates before `b` that are put into the list of the CCK rates, or into that of the others. -/
def ratedBefore (mi : MinstrelHtSta) (cck : Bool) (b : ℕ) : List ℕ :=
  (List.range b).filter fun index =>
    decide (index / 10 = cckGroupIdx) = cck ∧ mi.Supports index ∧ mi.tp index ≠ 0

/-- The state in the loop over all rates, before the rate `b`. -/
structure LoopInv (mp : MinstrelPriv) (mi : MinstrelHtSta) (sample : Bool) (b : ℕ)
    (s : MinstrelHtSta × TpRates) : Prop where
  upto : Upto mp mi sample b s.1
  mcs : s.2.mcs = bestSoFar mp mi sample ((settled mp mi sample).ratedBefore false b)
    (List.replicate 4 mi.placeholder)
  cck : s.2.cck = bestSoFar mp mi sample ((settled mp mi sample).ratedBefore true b)
    (List.replicate 4 mi.cckSeed)

variable {b : ℕ}

theorem Upto.supports {b : ℕ} (h : Upto mp mi sample b mi') (n : ℕ) : mi'.Supports n ↔ mi.Supports n := by
  rw [Supports, h.supported, Supports]

theorem Upto.key_eq {b n : ℕ} (h : Upto mp mi sample b mi') (hn : n < b) :
    mi'.key n = (settled mp mi sample).key n ∧ mi'.tp n = (settled mp mi sample).tp n := by
  have hrates : mi'.rates n = (settled mp mi sample).rates n := by rw [h.rates, if_pos hn]
  have htp : mi'.tp n = (settled mp mi sample).tp n := tp_congr h.overhead h.avg hrates
  exact ⟨by rw [key, key, htp, prob, prob, hrates], htp⟩

theorem Upto.next {b : ℕ} (h : Upto mp mi sample b mi') (hb : b < minstrelGroupsNb * 10) :
    Upto mp mi sample (b + 1) (if mi'.Supports b then
      { mi' with rates := Function.update mi'.rates b (minstrelCalcRateStats (mi'.rates b)) } else mi') := by
  have hold : mi'.rates b = mi.rates b := by rw [h.rates, if_neg (lt_irrefl b)]
  have hb' (hs : mi.Supports b) : (settled mp mi sample).rates b = minstrelCalcRateStats (mi.rates b) :=
    if_pos ⟨hb, hs⟩
  split
  · rename_i hs
    refine ⟨h.supported, h.overhead, h.avg, h.ampdu, fun n => ?_⟩
    by_cases hn : n = b
    · rw [hn, if_pos b.lt_succ_self, hb' ((h.supports b).1 hs), ← hold]
      exact Function.update_self ..
    · refine (Function.update_of_ne hn ..).trans ((h.rates n).trans ?_)
      by_cases hlt : n < b
      · rw [if_pos hlt, if_pos (by omega)]
      · rw [if_neg hlt, if_neg (by omega)]
  · rename_i hs
    have hb'' : (settled mp mi sample).rates b = mi.rates b := if_neg fun h' => hs ((h.supports b).2 h'.2)
    refine ⟨h.supported, h.overhead, h.avg, h.ampdu, fun n => (h.rates n).trans ?_⟩
    by_cases hn : n = b
    · rw [hn, if_neg (lt_irrefl b), if_pos b.lt_succ_self, hb'']
    · by_cases hlt : n < b
      · rw [if_pos hlt, if_pos (by omega)]
      · rw [if_neg hlt, if_neg (by omega)]

/-- The rate `b` has its own statistics by now, and those behind it have not. -/
theorem Upto.key_eq_keyAt (h : Upto mp mi sample (b + 1) mi') (y : ℕ) :
    mi'.key y = keyAt mp mi sample b y := by
  rw [keyAt]
  split
  · rename_i hy
    have hrates : mi'.rates y = mi.rates y := by rw [h.rates, if_neg (by omega)]
    have htp : mi'.tp y = (mi.startUpdate mp sample).tp y := tp_congr h.overhead h.avg hrates
    rw [key, key, htp, prob, prob, hrates]
    rfl
  · exact (h.key_eq (by omega)).1

variable {cck : Bool}

theorem ratedBefore_succ (mi : MinstrelHtSta) (hcck : decide (b / 10 = cckGroupIdx) = cck)
    (hs : mi.Supports b) (htp : mi.tp b ≠ 0) :
    mi.ratedBefore cck (b + 1) = mi.ratedBefore cck b ++ [b] := by
  have hb : decide (decide (b / 10 = cckGroupIdx) = cck ∧ mi.Supports b ∧ mi.tp b ≠ 0) = true :=
    decide_eq_true ⟨hcck, hs, htp⟩
  simp only [ratedBefore, range_succ, filter_append, filter_cons, hb, if_true, filter_nil]

theorem ratedBefore_of_not {b' : ℕ} (hb : b ≤ b') (h : ∀ n, b ≤ n → n < b' →
      ¬(decide (n / 10 = cckGroupIdx) = cck ∧ mi.Supports n ∧ mi.tp n ≠ 0)) :
    mi.ratedBefore cck b' = mi.ratedBefore cck b := by
  obtain ⟨n, rfl⟩ := Nat.exists_eq_add_of_le hb
  rw [ratedBefore, range_add, filter_append, ratedBefore, append_right_eq_self,
    filter_eq_nil_iff]
  intro index hindex
  obtain ⟨k, hk, rfl⟩ := mem_map.1 hindex
  simpa using h (b + k) (by omega) (by rw [mem_range] at hk; omega)

theorem bestSoFar_concat (xs l : List ℕ) : bestSoFar mp mi sample (xs ++ [b]) l =
    TopList.push (fun y => keyAt mp mi sample b y < (settled mp mi sample).key b) b
      (bestSoFar mp mi sample xs l) := by
  rw [bestSoFar, foldl_append]
  rfl

theorem LoopInv.rate {g i : ℕ} (hg : g < minstrelGroupsNb)
    (hi : i < 10) (h : LoopInv mp mi sample (10 * g + i) s) :
    LoopInv mp mi sample (10 * g + (i + 1)) (updateRate g s i) := by
  obtain ⟨mi', t⟩ := s
  have hb : 10 * g + i < minstrelGroupsNb * 10 := by rw [minstrelGroupsNb] at hg ⊢; omega
  have hgroup : (10 * g + i) / 10 = g := by omega
  have hnext := h.upto.next hb
  rw [updateRate]
  dsimp only at hnext ⊢
  rw [← Nat.add_assoc]
  generalize 10 * g + i = b at hb hgroup hnext h ⊢
  -- the lists stay as they are where the rate does not count
  have hskip (cck : Bool) (hnot : ¬(decide (b / 10 = cckGroupIdx) = cck ∧ mi.Supports b ∧
        (settled mp mi sample).tp b ≠ 0)) :
      (settled mp mi sample).ratedBefore cck (b + 1) = (settled mp mi sample).ratedBefore cck b := by
    refine ratedBefore_of_not b.le_succ fun n hn hlt => ?_
    obtain rfl : n = b := by omega
    exact hnot
  by_cases hs : mi'.Supports b
  · rw [if_neg (not_not.2 hs)]
    rw [if_pos hs] at hnext
    generalize { mi' with rates := Function.update mi'.rates b (minstrelCalcRateStats (mi'.rates b)) } =
      mi₁ at hnext ⊢
    have htp := (hnext.key_eq b.lt_succ_self).2
    have hmi := (h.upto.supports b).1 hs
    split
    · rename_i hzero
      refine ⟨hnext, ?_, ?_⟩
      · rw [hskip _ fun ha => ha.2.2 (htp.symm.trans hzero)]
        exact h.mcs
      · rw [hskip _ fun ha => ha.2.2 (htp.symm.trans hzero)]
        exact h.cck
    · rename_i hne
      obtain ⟨p, gr, hset⟩ := minstrelHtSetBestProbRate_eq mi₁ b
      have hupto : Upto mp mi sample (b + 1) (mi₁.minstrelHtSetBestProbRate b) := by
        rw [hset]
        exact ⟨hnext.supported, hnext.overhead, hnext.avg, hnext.ampdu, hnext.rates⟩
      have hne : (settled mp mi sample).tp b ≠ 0 := fun hz => hne (htp.trans hz)
      have hpush (xs l : List ℕ) : mi₁.minstrelHtSortBestTpRates b (bestSoFar mp mi sample xs l) =
          bestSoFar mp mi sample (xs ++ [b]) l := by
        rw [minstrelHtSortBestTpRates_eq, bestSoFar_concat, (hnext.key_eq b.lt_succ_self).1]
        refine TopList.push_congr fun y _ => ?_
        rw [hnext.key_eq_keyAt]
      split
      · rename_i hcck
        refine ⟨hupto, ?_, ?_⟩
        · dsimp only
          rw [h.mcs, hpush, ratedBefore_succ (settled mp mi sample)
            (decide_eq_false (by rw [hgroup]; exact hcck)) hmi hne]
        · rw [hskip _ fun ha => hcck (hgroup.symm.trans (of_decide_eq_true ha.1))]
          exact h.cck
      · rename_i hcck
        have hcck : g = cckGroupIdx := not_not.1 hcck
        refine ⟨hupto, ?_, ?_⟩
        · rw [hskip _ fun ha => of_decide_eq_false ha.1 (hgroup.trans hcck)]
          exact h.mcs
        · dsimp only
          rw [h.cck, hpush, ratedBefore_succ (settled mp mi sample)
            (decide_eq_true (by rw [hgroup]; exact hcck)) hmi hne]
  · rw [if_pos hs]
    rw [if_neg hs] at hnext
    have hnot : ¬mi.Supports b := fun h' => hs ((h.upto.supports b).2 h')
    refine ⟨hnext, ?_, ?_⟩
    · rw [hskip _ fun ha => hnot ha.2.1]
      exact h.mcs
    · rw [hskip _ fun ha => hnot ha.2.1]
      exact h.cck

theorem LoopInv.group {g : ℕ} (hg : g < minstrelGroupsNb)
    (h : LoopInv mp mi sample (10 * g) s) : LoopInv mp mi sample (10 * (g + 1)) (updateGroup s g) := by
  obtain ⟨mi', t⟩ := s
  rw [updateGroup]
  dsimp only
  split
  · rename_i hzero
    -- none of the ten rates is supported
    have hnone (n : ℕ) (hn : n < 10 * (g + 1)) (hs : mi.Supports n) : n < 10 * g := by
      by_contra hge
      have hng : n / 10 = g := by omega
      rw [h.upto.supported] at hzero
      rw [Supports, hng, hzero, Nat.zero_testBit] at hs
      cases hs
    have hskip (cck : Bool) : (settled mp mi sample).ratedBefore cck (10 * (g + 1)) =
        (settled mp mi sample).ratedBefore cck (10 * g) :=
      ratedBefore_of_not (by omega) fun n hn hlt ha => absurd (hnone n hlt ha.2.1) (not_lt.2 hn)
    refine ⟨⟨h.upto.supported, h.upto.overhead, h.upto.avg, h.upto.ampdu, fun n => (h.upto.rates n).trans ?_⟩,
      by rw [hskip]; exact h.mcs, by rw [hskip]; exact h.cck⟩
    split
    · rw [if_pos (by omega)]
    · rename_i hge
      split
      · rename_i hlt
        exact (if_neg fun hs => hge (hnone n hlt hs.2)).symm
      · rfl
  · have hloop := Loops.foldl_range (fun i => LoopInv mp mi sample (10 * g + i)) (f := updateRate g) (n := 10)
      (s := ({ mi' with sampleCount := (mi'.sampleCount + 1) % 2 ^ 8 },
        { t with group := List.replicate 4 (10 * g) }))
      ⟨⟨h.upto.supported, h.upto.overhead, h.upto.avg, h.upto.ampdu, h.upto.rates⟩, h.mcs, h.cck⟩
      fun i hi s hs => hs.rate hg hi
    exact ⟨⟨hloop.upto.supported, hloop.upto.overhead, hloop.upto.avg, hloop.upto.ampdu, hloop.upto.rates⟩,
      hloop.mcs, hloop.cck⟩

theorem LoopInv.start (mp : MinstrelPriv) (mi : MinstrelHtSta) (sample : Bool) :
    LoopInv mp mi sample 0 (mi.startUpdate mp sample, (mi.startUpdate mp sample).tpRates) :=
  ⟨⟨rfl, rfl, rfl, ⟨rfl, rfl⟩, fun _ => rfl⟩, rfl, rfl⟩

theorem finishUpdate_eq (mp : MinstrelPriv) (random : ℕ) (mi : MinstrelHtSta) (t : TpRates) (sample : Bool) :
    ∃ p c sr sm, mi.finishUpdate mp random t sample =
      { mi with
        maxTpRate := mi.minstrelHtAssignBestTpRates t
        maxProbRate := p
        sampleCount := c
        sampleRate := sr
        sampleMode := sm } := by
  rw [finishUpdate]
  split
  · obtain ⟨r, m, h⟩ := minstrelHtRateSampleSwitch_eq mp random _
    exact ⟨_, _, _, _, h⟩
  · exact ⟨_, _, _, _, rfl⟩

theorem LoopInv.loop (mp : MinstrelPriv) (mi : MinstrelHtSta) (sample : Bool) :
    LoopInv mp mi sample (10 * minstrelGroupsNb)
    ((List.range minstrelGroupsNb).foldl updateGroup
      (mi.startUpdate mp sample, (mi.startUpdate mp sample).tpRates)) :=
  Loops.foldl_range (fun g => LoopInv mp mi sample (10 * g)) (LoopInv.start mp mi sample)
    fun _ hg _ hs => hs.group hg

theorem upto_updateStats (mp : MinstrelPriv) (random : ℕ) (mi : MinstrelHtSta) (sample : Bool) :
    Upto mp mi sample (10 * minstrelGroupsNb) (mi.minstrelHtUpdateStats mp random sample) := by
  have hupto := (LoopInv.loop mp mi sample).upto
  rw [minstrelHtUpdateStats]
  generalize (List.range minstrelGroupsNb).foldl updateGroup
    (mi.startUpdate mp sample, (mi.startUpdate mp sample).tpRates) = r at hupto ⊢
  obtain ⟨p, c, sr, sm, heq⟩ := finishUpdate_eq mp random r.1 r.2
    (sample && mp.sampleSwitch ≠ 0 && (100 ≤ (mi.startUpdate mp sample).totalPacketsCur || mp.sampleSwitch = 1))
  rw [heq]
  exact ⟨hupto.supported, hupto.overhead, hupto.avg, hupto.ampdu, hupto.rates⟩

/-! ### The lists in closed form -/

/-- What a rate is worth while the HT rates are put in. -/
def seedKey (mi : MinstrelHtSta) (old : ℕ ×ₗ ℕ) (index : ℕ) : ℕ ×ₗ ℕ := if index = 170 then old else mi.key index

/-- The four best of the HT rates. -/
def bestHt (mi : MinstrelHtSta) (old : ℕ ×ₗ ℕ) : List ℕ :=
  TopList.pushAll (mi.seedKey old) mi.htRates (List.replicate 4 mi.placeholder)

/-- The four best of the HT and VHT rates. -/
def bestMcs (mi : MinstrelHtSta) (old : ℕ ×ₗ ℕ) : List ℕ := TopList.pushAll mi.key mi.vhtRates (mi.bestHt old)

/-- The four best of the CCK rates. -/
def bestCck (mi : MinstrelHtSta) : List ℕ :=
  TopList.pushAll mi.key mi.cckRates (List.replicate 4 mi.cckSeed)

/-- The four best of all. -/
def bestOfAll (mi : MinstrelHtSta) (old : ℕ ×ₗ ℕ) : List ℕ :=
  if mi.tp ((mi.bestMcs old).getD 0 0) < mi.tp (mi.bestCck.getD 0 0) then
    TopList.pushAll mi.key mi.bestCck (mi.bestMcs old)
  else mi.bestMcs old

theorem mem_rated {a n index : ℕ} : index ∈ mi.rated a n ↔
    (a ≤ index ∧ index < a + n) ∧ mi.Supports index ∧ mi.tp index ≠ 0 := by
  rw [rated, mem_filter, mem_range'_1, decide_eq_true_iff]

theorem pairwise_rated (mi : MinstrelHtSta) (a n : ℕ) : (mi.rated a n).Pairwise (· < ·) :=
  List.Pairwise.sublist filter_sublist pairwise_lt_range'

theorem rated_append (mi : MinstrelHtSta) (a m n : ℕ) : mi.rated a m ++ mi.rated (a + m) n = mi.rated a (m + n) := by
  rw [rated, rated, rated, ← filter_append, range'_append_1]

/-- The loop goes over the HT rates, the CCK rates and the VHT rates. -/
theorem ratedBefore_eq (mi : MinstrelHtSta) (cck : Bool) : mi.ratedBefore cck 410 =
    mi.htRates.filter (fun index => decide (index / 10 = cckGroupIdx) = cck) ++
      (mi.cckRates.filter (fun index => decide (index / 10 = cckGroupIdx) = cck) ++
        mi.vhtRates.filter fun index => decide (index / 10 = cckGroupIdx) = cck) := by
  rw [← filter_append, ← filter_append, htRates, cckRates, vhtRates, mi.rated_append 160 10 240,
    mi.rated_append 0 160 250, rated, filter_filter, ratedBefore, range_eq_range']
  simp only [Bool.decide_and]

theorem div_of_mem_rated {a n index : ℕ} (h : index ∈ mi.rated a n) :
    a / 10 ≤ index / 10 ∧ index / 10 ≤ (a + n - 1) / 10 := by
  obtain ⟨⟨hge, hlt⟩, -⟩ := mem_rated.1 h
  exact ⟨Nat.div_le_div_right hge, Nat.div_le_div_right (Nat.le_sub_one_of_lt hlt)⟩

theorem ratedBefore_false (mi : MinstrelHtSta) : mi.ratedBefore false 410 = mi.htRates ++ mi.vhtRates := by
  have hht : mi.htRates.filter (fun index => decide (index / 10 = cckGroupIdx) = false) = mi.htRates := by
    refine filter_eq_self.2 fun index h => decide_eq_true (decide_eq_false (Nat.ne_of_lt ?_))
    exact Nat.lt_of_le_of_lt (div_of_mem_rated h).2 (by decide)
  have hcck : mi.cckRates.filter (fun index => decide (index / 10 = cckGroupIdx) = false) = [] := by
    refine filter_eq_nil_iff.2 fun index h hne => ?_
    exact of_decide_eq_false (of_decide_eq_true hne)
      (Nat.le_antisymm (div_of_mem_rated h).2 (div_of_mem_rated h).1)
  have hvht : mi.vhtRates.filter (fun index => decide (index / 10 = cckGroupIdx) = false) = mi.vhtRates := by
    refine filter_eq_self.2 fun index h => decide_eq_true (decide_eq_false (Nat.ne_of_gt ?_))
    exact Nat.lt_of_lt_of_le (by decide) (div_of_mem_rated h).1
  rw [ratedBefore_eq, hht, hcck, hvht, nil_append]

theorem ratedBefore_true (mi : MinstrelHtSta) : mi.ratedBefore true 410 = mi.cckRates := by
  have hht : mi.htRates.filter (fun index => decide (index / 10 = cckGroupIdx) = true) = [] := by
    refine filter_eq_nil_iff.2 fun index h heq => absurd (div_of_mem_rated h).2 ?_
    rw [of_decide_eq_true (of_decide_eq_true heq)]
    decide
  have hcck : mi.cckRates.filter (fun index => decide (index / 10 = cckGroupIdx) = true) = mi.cckRates := by
    refine filter_eq_self.2 fun index h => decide_eq_true (decide_eq_true ?_)
    exact Nat.le_antisymm (div_of_mem_rated h).2 (div_of_mem_rated h).1
  have hvht : mi.vhtRates.filter (fun index => decide (index / 10 = cckGroupIdx) = true) = [] := by
    refine filter_eq_nil_iff.2 fun index h heq => absurd (div_of_mem_rated h).1 ?_
    rw [of_decide_eq_true (of_decide_eq_true heq)]
    decide
  rw [ratedBefore_eq, hht, hcck, hvht, nil_append, append_nil]

theorem placeholder_cases (mi : MinstrelHtSta) :
    mi.supported vhtGroup0 ≠ 0 ∧ mi.placeholder = 170 ∨ mi.supported vhtGroup0 = 0 ∧ mi.placeholder = 0 := by
  rw [placeholder]
  split
  · exact .inl ⟨‹_›, rfl⟩
  · exact .inr ⟨not_not.1 ‹_›, rfl⟩

theorem bestSoFar_mcs (mp : MinstrelPriv) (mi : MinstrelHtSta) (sample : Bool) :
    bestSoFar mp mi sample ((settled mp mi sample).ratedBefore false 410) (List.replicate 4 mi.placeholder) =
      (settled mp mi sample).bestMcs ((mi.startUpdate mp sample).key mi.placeholder) := by
  have hp : mi.placeholder = 170 ∨ mi.placeholder = 0 := mi.placeholder_cases.imp And.right And.right
  have hht : bestSoFar mp mi sample (settled mp mi sample).htRates (List.replicate 4 mi.placeholder) =
      (settled mp mi sample).bestHt ((mi.startUpdate mp sample).key mi.placeholder) := by
    have hlt {x : ℕ} (hx : x ∈ (settled mp mi sample).htRates) : x < 160 := by
      obtain ⟨⟨-, hlt⟩, -⟩ := mem_rated.1 hx
      exact hlt
    refine TopList.foldl_push_eq_pushAll ?_ ?_
    · refine (pairwise_rated _ _ _).imp_of_mem fun {y x} hy hx hyx => ?_
      have hx := hlt hx
      have hy := hlt hy
      rw [keyAt, if_neg (not_lt.2 hyx.le), seedKey, seedKey, if_neg (by omega), if_neg (by omega)]
    · intro x hx y hy
      obtain rfl : y = mi.placeholder := eq_of_mem_replicate hy
      have hx := hlt hx
      rw [keyAt, seedKey, seedKey, if_neg (show x ≠ 170 by omega)]
      rcases hp with hp | hp
      · rw [hp, if_pos (by omega), if_pos rfl]
      · rw [hp, if_neg (by omega), if_neg (by omega)]
  rw [ratedBefore_false, bestSoFar, foldl_append]
  refine (TopList.foldl_push_eq_pushAll ?_ ?_).trans (congrArg _ hht)
  · exact (pairwise_rated _ _ _).imp fun hyx => by rw [keyAt, if_neg (not_lt.2 hyx.le)]
  · intro x hx y hy
    obtain ⟨⟨hge, -⟩, -⟩ := mem_rated.1 hx
    have hle : y ≤ x := by
      have hy : y ∈ bestSoFar mp mi sample (settled mp mi sample).htRates (List.replicate 4 mi.placeholder) := hy
      rw [hht] at hy
      rcases TopList.mem_pushAll hy with hy | hy
      · obtain ⟨⟨-, hlt⟩, -⟩ := mem_rated.1 hy
        omega
      · obtain rfl : y = mi.placeholder := eq_of_mem_replicate hy
        omega
    rw [keyAt, if_neg (not_lt.2 hle)]

theorem bestSoFar_cck (mp : MinstrelPriv) (mi : MinstrelHtSta) (sample : Bool) :
    bestSoFar mp mi sample ((settled mp mi sample).ratedBefore true 410)
      (List.replicate 4 mi.cckSeed) = (settled mp mi sample).bestCck := by
  rw [ratedBefore_true]
  refine TopList.foldl_push_eq_pushAll ?_ ?_
  · exact (pairwise_rated _ _ _).imp fun hlt => by rw [keyAt, if_neg (not_lt.2 hlt.le)]
  · intro x hx y hy
    obtain ⟨⟨hge, -⟩, -⟩ := mem_rated.1 hx
    obtain rfl := eq_of_mem_replicate hy
    have hle : mi.cckSeed ≤ x := by
      rw [cckSeed, cckGroupIdx]
      split <;> omega
    rw [keyAt, if_neg (not_lt.2 hle)]

/-- After the loop, every rate is worth what it is after the update. -/
theorem Upto.keys (h : Upto mp mi sample (10 * minstrelGroupsNb) mi') :
    mi'.key = (settled mp mi sample).key ∧ mi'.tp = (settled mp mi sample).tp := by
  have hrates (n : ℕ) : mi'.rates n = (settled mp mi sample).rates n := by
    rw [h.rates]
    split
    · rfl
    · rename_i hge
      refine (if_neg fun hn => hge ?_).symm
      rw [Nat.mul_comm]
      exact hn.1
  have htp (n : ℕ) : mi'.tp n = (settled mp mi sample).tp n := tp_congr h.overhead h.avg (hrates n)
  exact ⟨funext fun n => by rw [key, key, htp, prob, prob, hrates], funext htp⟩

/-- **`max_tp_rate` after an update.** -/
theorem maxTpRate_updateStats (mp : MinstrelPriv) (random : ℕ) (mi : MinstrelHtSta) (sample : Bool) :
    (mi.minstrelHtUpdateStats mp random sample).maxTpRate =
      (settled mp mi sample).bestOfAll ((mi.startUpdate mp sample).key mi.placeholder) := by
  have hloop := LoopInv.loop mp mi sample
  rw [minstrelHtUpdateStats]
  generalize (List.range minstrelGroupsNb).foldl updateGroup
    (mi.startUpdate mp sample, (mi.startUpdate mp sample).tpRates) = r at hloop ⊢
  obtain ⟨mi', t⟩ := r
  obtain ⟨p, c, sr, sm, heq⟩ := finishUpdate_eq mp random mi' t
    (sample && mp.sampleSwitch ≠ 0 && (100 ≤ (mi.startUpdate mp sample).totalPacketsCur || mp.sampleSwitch = 1))
  have hmcs : t.mcs = _ := hloop.mcs.trans (bestSoFar_mcs mp mi sample)
  have hcck : t.cck = (settled mp mi sample).bestCck := hloop.cck.trans (bestSoFar_cck mp mi sample)
  obtain ⟨hkey, htp⟩ := hloop.upto.keys
  have hfold (l : List ℕ) : t.cck.foldl (fun l index => mi'.minstrelHtSortBestTpRates index l) l =
      TopList.pushAll (settled mp mi sample).key t.cck l :=
    foldl_ext _ _ _ fun l x _ => by rw [minstrelHtSortBestTpRates_eq, hkey]
  rw [heq]
  dsimp only
  rw [minstrelHtAssignBestTpRates, hfold, htp, hmcs, hcck, bestOfAll]

/-! ### When the best rate is picked -/

theorem tp_le_of_key_le {x y : ℕ} (h : mi.key x ≤ mi.key y) : mi.tp x ≤ mi.tp y := Prod.Lex.monotone_fst_ofLex h

theorem getD_mem {l : List ℕ} (h : l ≠ []) : l.getD 0 0 ∈ l := by
  rw [getD_eq_getElem l 0 (length_pos_iff.2 h)]
  exact getElem_mem _

theorem tp_le_getD {l : List ℕ} {n : ℕ} (h : TopList.Sorted mi.key l) (hn : ∃ n' ∈ l, mi.key n ≤ mi.key n') :
    mi.tp n ≤ mi.tp (l.getD 0 0) := by
  obtain ⟨n', hn', hle⟩ := hn
  rw [← headD_eq_getD]
  exact tp_le_of_key_le (hle.trans (h.le_headD hn' 0))

theorem mem_above {k : ℕ ×ₗ ℕ} {l : List ℕ} {n : ℕ} : n ∈ mi.above k l ↔ n ∈ l ∧ k < mi.key n := by
  rw [above, mem_filter, decide_eq_true_iff]

variable {old : ℕ ×ₗ ℕ} {n : ℕ}

theorem bestHt_ne_nil : mi.bestHt old ≠ [] := by
  rw [← length_pos_iff, bestHt, TopList.length_pushAll, length_replicate]
  decide

theorem bestMcs_ne_nil : mi.bestMcs old ≠ [] := by
  rw [← length_pos_iff, bestMcs, TopList.length_pushAll]
  exact length_pos_iff.2 bestHt_ne_nil

theorem bestCck_ne_nil : mi.bestCck ≠ [] := by
  rw [← length_pos_iff, bestCck, TopList.length_pushAll, length_replicate]
  decide

theorem sorted_replicate {key : ℕ → ℕ ×ₗ ℕ} {k : ℕ} : TopList.Sorted key (List.replicate k n) :=
  pairwise_replicate.2 (.inr le_rfl)

theorem sorted_bestCck : TopList.Sorted mi.key mi.bestCck := sorted_replicate.pushAll

theorem exists_le_bestCck (hn : n ∈ mi.cckOffers) : ∃ c ∈ mi.bestCck, mi.key n ≤ mi.key c :=
  TopList.exists_le_pushAll (by simp) (mem_append.1 hn).symm

theorem mem_cckOffers (hn : n ∈ mi.bestCck) : n ∈ mi.cckOffers := mem_append.2 (TopList.mem_pushAll hn).symm

/-- The rates above a bound among the best CCK rates. -/
theorem countP_bestCck (mi : MinstrelHtSta) (k : ℕ ×ₗ ℕ) :
    mi.bestCck.countP (fun y => k < mi.key y) = min 4 (mi.above k mi.cckOffers).length := by
  rw [above, ← countP_eq_length_filter, cckOffers, countP_append]
  exact TopList.countP_pushAll sorted_replicate k

theorem mem_of_mem_bestOfAll (hn : n ∈ mi.bestOfAll old) :
    n ∈ mi.bestHt old ++ mi.vhtRates ++ mi.cckOffers := by
  have hmcs (h : n ∈ mi.bestMcs old) : n ∈ mi.bestHt old ++ mi.vhtRates ++ mi.cckOffers :=
    mem_append_left _ (mem_append.2 (TopList.mem_pushAll h).symm)
  rw [bestOfAll] at hn
  split at hn
  · rcases TopList.mem_pushAll hn with hn | hn
    · exact mem_append_right _ (mem_cckOffers hn)
    · exact hmcs hn
  · exact hmcs hn

/-- If the list is in order, its head reaches all that were put in, but for HT rates that were left out. -/
theorem tp_le_bestOfAll (h : TopList.Sorted mi.key (mi.bestOfAll old))
    (hn : n ∈ mi.bestHt old ++ mi.vhtRates ++ mi.cckOffers) : mi.tp n ≤ mi.tp ((mi.bestOfAll old).getD 0 0) := by
  have hmcs (hn : n ∈ mi.bestHt old ++ mi.vhtRates) : ∃ n' ∈ mi.bestMcs old, mi.key n ≤ mi.key n' :=
    TopList.exists_le_pushAll bestHt_ne_nil (mem_append.1 hn).symm
  rw [bestOfAll] at h ⊢
  split at h
  · rename_i hcck
    rw [if_pos hcck]
    refine tp_le_getD h ?_
    have hall : ∃ n', (n' ∈ mi.bestCck ∨ n' ∈ mi.bestMcs old) ∧ mi.key n ≤ mi.key n' := by
      rcases mem_append.1 hn with hn | hn
      · obtain ⟨n', hn', hle⟩ := hmcs hn
        exact ⟨n', .inr hn', hle⟩
      · obtain ⟨c, hc, hle⟩ := exists_le_bestCck hn
        exact ⟨c, .inl hc, hle⟩
    obtain ⟨n', hn', hle⟩ := hall
    obtain ⟨y, hy, hle'⟩ : ∃ y ∈ TopList.pushAll mi.key mi.bestCck (mi.bestMcs old), mi.key n' ≤ mi.key y :=
      TopList.exists_le_pushAll bestMcs_ne_nil hn'
    exact ⟨y, hy, hle.trans hle'⟩
  · rename_i hcck
    rw [if_neg hcck]
    rcases mem_append.1 hn with hn | hn
    · exact tp_le_getD h (hmcs hn)
    · exact (tp_le_getD sorted_bestCck (exists_le_bestCck hn)).trans (not_lt.1 hcck)

/-- If the HT and VHT rates are in order, the CCK rates do not change that. -/
theorem sorted_bestOfAll (h : TopList.Sorted mi.key (mi.bestMcs old)) :
    TopList.Sorted mi.key (mi.bestOfAll old) := by
  rw [bestOfAll]
  split
  · exact h.pushAll
  · exact h

/-- **What can go wrong**: the list is out of order, or an HT rate that was left out is not reached. -/
theorem picksBest_iff_sorted (hkey : mi'.key = mi.key) (htp : mi'.tp = mi.tp)
    (hsupported : mi'.supported = mi.supported) (hl : mi'.maxTpRate = mi.bestOfAll old) :
    PicksBest mi' ↔ TopList.Sorted mi.key (mi.bestOfAll old) ∧
      ∀ n ∈ mi.htRates, ∃ n' ∈ mi.bestHt old ++ mi.vhtRates ++ mi.cckOffers, mi.tp n ≤ mi.tp n' := by
  constructor
  · rintro ⟨hsorted, hbest⟩
    rw [hkey, hl] at hsorted
    rw [htp, hl] at hbest
    refine ⟨hsorted, fun n hn => ⟨_, mem_of_mem_bestOfAll (getD_mem ?_), hbest n ?_ ?_⟩⟩
    · rw [bestOfAll]
      split
      · rw [← length_pos_iff, TopList.length_pushAll]
        exact length_pos_iff.2 bestMcs_ne_nil
      · exact bestMcs_ne_nil
    · obtain ⟨⟨-, hlt⟩, -⟩ := mem_rated.1 hn
      exact hlt.trans (by decide)
    · rw [Supports, hsupported]
      exact (mem_rated.1 hn).2.1
  · rintro ⟨hsorted, hht⟩
    refine ⟨by rw [hkey, hl]; exact hsorted, fun n hn hs => ?_⟩
    rw [htp, hl]
    rw [Supports, hsupported] at hs
    by_cases hzero : mi.tp n = 0
    · rw [hzero]
      exact Nat.zero_le _
    have hrated {a k : ℕ} (hge : a ≤ n) (hlt : n < a + k) : n ∈ mi.rated a k :=
      mem_rated.2 ⟨⟨hge, hlt⟩, hs, hzero⟩
    rcases lt_or_ge n 160 with hlt | hge
    · obtain ⟨n', hn', hle⟩ := hht n (hrated (Nat.zero_le n) (by omega))
      exact hle.trans (tp_le_bestOfAll hsorted hn')
    refine tp_le_bestOfAll hsorted ?_
    rcases lt_or_ge n 170 with hlt | hge'
    · exact mem_append_right _ (mem_append_right _ (hrated hge (by omega)))
    · rw [minstrelGroupsNb] at hn
      exact mem_append_left _ (mem_append_right _ (hrated hge' (by omega)))

/-! ### The placeholder -/

theorem seedKey_of_mem (hn : n ∈ mi.htRates) : mi.seedKey old n = mi.key n := by
  obtain ⟨⟨-, hlt⟩, -⟩ := mem_rated.1 hn
  exact if_neg (by omega)

theorem sorted_seedKey_bestHt : TopList.Sorted (mi.seedKey old) (mi.bestHt old) := sorted_replicate.pushAll

/-- If both keys agree on the list of the HT rates, it is in order, and all of them are reached. -/
theorem sorted_of_seedKey (h : ∀ n ∈ mi.bestHt old, mi.seedKey old n = mi.key n) :
    TopList.Sorted mi.key (mi.bestOfAll old) ∧
      ∀ n ∈ mi.htRates, ∃ n' ∈ mi.bestHt old ++ mi.vhtRates ++ mi.cckOffers, mi.tp n ≤ mi.tp n' := by
  have hsorted : TopList.Sorted mi.key (mi.bestHt old) :=
    sorted_seedKey_bestHt.imp_of_mem fun ha hb hle => by rwa [h _ ha, h _ hb] at hle
  refine ⟨sorted_bestOfAll hsorted.pushAll, fun n hn => ?_⟩
  obtain ⟨n', hn', hle⟩ : ∃ n' ∈ mi.bestHt old, mi.seedKey old n ≤ mi.seedKey old n' :=
    TopList.exists_le_pushAll (by simp) (.inl hn)
  rw [seedKey_of_mem hn, h n' hn'] at hle
  exact ⟨n', mem_append_left _ (mem_append_left _ hn'), tp_le_of_key_le hle⟩

/-- The HT rates that are above the placeholder as it was. -/
theorem countP_seedKey : mi.htRates.countP (fun n => old < mi.seedKey old n) = (mi.above old mi.htRates).length := by
  rw [above, ← countP_eq_length_filter]
  exact countP_congr fun n hn => by rw [seedKey_of_mem hn]

/-- If four HT rates are above it, the placeholder is gone before the VHT rates come. -/
theorem seedKey_of_four_le (hp : mi.placeholder = 170) (h : 4 ≤ (mi.above old mi.htRates).length) :
    ∀ n ∈ mi.bestHt old, mi.seedKey old n = mi.key n := by
  have hcount : (mi.bestHt old).countP (fun n => old < mi.seedKey old n) = (mi.bestHt old).length := by
    have hpush : (mi.bestHt old).countP (fun n => old < mi.seedKey old n) = min 4 (_ + _) :=
      TopList.countP_pushAll sorted_replicate old
    rw [hpush, countP_seedKey, bestHt, TopList.length_pushAll, length_replicate]
    omega
  intro n hn
  have hlt := of_decide_eq_true (countP_eq_length.1 hcount n hn)
  rcases TopList.mem_pushAll hn with hn | hn
  · exact seedKey_of_mem hn
  · rw [eq_of_mem_replicate hn, seedKey, if_pos hp] at hlt
    exact absurd hlt (lt_irrefl _)

/-- Otherwise they stand in front of its copies. -/
theorem exists_bestHt (hp : mi.placeholder = 170) (hlt : (mi.above old mi.htRates).length < 4) :
    ∃ a, mi.bestHt old = a ++ List.replicate (4 - (mi.above old mi.htRates).length) mi.placeholder ∧
      TopList.Sorted mi.key a ∧ ∀ n, n ∈ a ↔ n ∈ mi.above old mi.htRates := by
  have hold : mi.seedKey old mi.placeholder = old := if_pos hp
  have hcount : mi.htRates.countP (fun n => mi.seedKey old mi.placeholder < mi.seedKey old n) =
      (mi.above old mi.htRates).length := by rw [hold]; exact countP_seedKey
  obtain ⟨a, heq, hsorted, hmem⟩ := TopList.pushAll_append_replicate (k := 4) (a := []) List.Pairwise.nil
    (by rw [hcount]; exact hlt)
  rw [hcount] at heq
  have hmem (n : ℕ) : n ∈ a ↔ n ∈ mi.above old mi.htRates := by
    rw [hmem, hold, mem_above, or_iff_right not_mem_nil]
    exact and_congr_right fun hn => by rw [seedKey_of_mem hn]
  have hht (n : ℕ) (hn : n ∈ a) : mi.seedKey old n = mi.key n := seedKey_of_mem (mem_above.1 ((hmem n).1 hn)).1
  exact ⟨a, heq, hsorted.imp_of_mem fun ha hb hle => by rwa [hht _ ha, hht _ hb] at hle, hmem⟩

/-- If one is above it, they all are reached by those that are. -/
theorem exists_reached (h : mi.above old mi.htRates ≠ []) (hn : n ∈ mi.htRates) :
    ∃ n' ∈ mi.above old mi.htRates, mi.tp n ≤ mi.tp n' := by
  by_cases hlt : old < mi.key n
  · exact ⟨n, mem_above.2 ⟨hn, hlt⟩, le_rfl⟩
  · obtain ⟨n', hn'⟩ := exists_mem_of_ne_nil _ h
    exact ⟨n', hn', tp_le_of_key_le ((not_lt.1 hlt).trans (mem_above.1 hn').2.le)⟩

/-- While copies are left behind a rate that is worse, the list is out of order, and only CCK rates can help. -/
theorem sorted_iff_of_misplaced {a : List ℕ} {k : ℕ} (hmcs : mi.bestMcs old = a ++ List.replicate k mi.placeholder)
    (ha : TopList.Sorted mi.key a) (hk : k ≠ 0) (hk4 : k ≤ 4) (hn : n ∈ a) (hlt : mi.key n < mi.key mi.placeholder) :
    TopList.Sorted mi.key (mi.bestOfAll old) ↔ k ≤ (mi.above (mi.key mi.placeholder) mi.cckOffers).length ∧
      ∃ c ∈ mi.cckOffers, ∀ n ∈ a, mi.tp n < mi.tp c := by
  have hne : a ≠ [] := ne_nil_of_mem hn
  have hhead : (mi.bestMcs old).getD 0 0 = a.getD 0 0 := by
    rw [hmcs]
    exact getD_append _ _ _ _ (length_pos_iff.2 hne)
  have hcount := mi.countP_bestCck (mi.key mi.placeholder)
  rw [bestOfAll, hhead]
  split
  · rename_i hcck
    have hex : ∃ c ∈ mi.cckOffers, ∀ n ∈ a, mi.tp n < mi.tp c :=
      ⟨_, mem_cckOffers (getD_mem bestCck_ne_nil), fun n hn => (tp_le_getD ha ⟨n, hn, le_rfl⟩).trans_lt hcck⟩
    rw [and_iff_left hex, hmcs]
    by_cases hpushed : k ≤ mi.bestCck.countP fun y => mi.key mi.placeholder < mi.key y
    · exact iff_of_true (TopList.sorted_pushAll_append_replicate ha hpushed) (by omega)
    · refine iff_of_false ?_ (by omega)
      obtain ⟨a', heq, -, hmem⟩ := TopList.pushAll_append_replicate ha (not_le.1 hpushed)
      rw [heq]
      exact TopList.not_sorted_append_replicate ((hmem n).2 (.inl hn)) hlt (by omega)
  · rename_i hnot
    refine iff_of_false ?_ fun ⟨_, c, hc, hbeats⟩ => hnot ?_
    · rw [hmcs]
      exact TopList.not_sorted_append_replicate hn hlt hk
    · exact (hbeats _ (getD_mem hne)).trans_le (tp_le_getD sorted_bestCck (exists_le_bestCck hc))

/-- If fewer than four HT rates are above the placeholder as it was, all depends on what follows. -/
theorem sorted_iff_of_lt_four (hp : mi.placeholder = 170) (hlt : (mi.above old mi.htRates).length < 4) :
    TopList.Sorted mi.key (mi.bestOfAll old) ↔
      let new := mi.key mi.placeholder
      let ht := mi.above old mi.htRates
      let vht := mi.above new mi.vhtRates
      (∀ n ∈ ht, new ≤ mi.key n) ∨ 4 ≤ ht.length + vht.length ∨
        4 ≤ ht.length + vht.length + (mi.above new mi.cckOffers).length ∧
          ∃ c ∈ mi.cckOffers, ∀ n ∈ ht ++ vht, mi.tp n < mi.tp c := by
  obtain ⟨a, hbest, ha, hmem⟩ := exists_bestHt hp hlt
  have hvht : mi.vhtRates.countP (fun n => mi.key mi.placeholder < mi.key n) =
      (mi.above (mi.key mi.placeholder) mi.vhtRates).length := countP_eq_length_filter
  dsimp only
  by_cases hplaced : ∀ n ∈ mi.above old mi.htRates, mi.key mi.placeholder ≤ mi.key n
  · refine iff_of_true (sorted_bestOfAll (TopList.Sorted.pushAll ?_)) (.inl hplaced)
    rw [hbest]
    exact ha.append_replicate fun n hn => hplaced n ((hmem n).1 hn)
  by_cases hpushed : 4 ≤ (mi.above old mi.htRates).length + (mi.above (mi.key mi.placeholder) mi.vhtRates).length
  · refine iff_of_true (sorted_bestOfAll ?_) (.inr (.inl hpushed))
    rw [bestMcs, hbest]
    exact TopList.sorted_pushAll_append_replicate ha (by rw [hvht]; omega)
  obtain ⟨a', heq, ha', hmem'⟩ := TopList.pushAll_append_replicate (p := mi.placeholder)
    (k := 4 - (mi.above old mi.htRates).length) ha (by rw [hvht]; omega)
  rw [← hbest, hvht, Nat.sub_sub] at heq
  have hmem' (n : ℕ) : n ∈ a' ↔ n ∈ mi.above old mi.htRates ++ mi.above (mi.key mi.placeholder) mi.vhtRates := by
    rw [hmem', hmem, mem_append, mem_above (l := mi.vhtRates)]
  push Not at hplaced
  obtain ⟨n, hn, hbelow⟩ := hplaced
  rw [sorted_iff_of_misplaced heq ha' (by omega) (Nat.sub_le _ _) ((hmem' n).2 (mem_append_left _ hn)) hbelow,
    or_iff_right fun hall => absurd (hall n hn) (not_le.2 hbelow), or_iff_right hpushed, Nat.sub_le_iff_le_add']
  simp only [hmem']

theorem placeholderHarmless_iff (hp : mi.placeholder = 170) (hv : mi.supported vhtGroup0 ≠ 0) :
    PlaceholderHarmless mi old ↔ TopList.Sorted mi.key (mi.bestOfAll old) ∧
      ∀ n ∈ mi.htRates, ∃ n' ∈ mi.bestHt old ++ mi.vhtRates ++ mi.cckOffers, mi.tp n ≤ mi.tp n' := by
  have hharmless : PlaceholderHarmless mi old ↔ _ := forall_prop_of_true hv
  rw [hharmless]
  split
  · -- only copies of the placeholder are there when the VHT rates come
    rename_i hnone
    obtain ⟨a, hbest, -, hmem⟩ := exists_bestHt hp (by rw [hnone]; decide)
    rw [hnone] at hbest hmem
    obtain rfl : a = [] := eq_nil_iff_forall_not_mem.2 fun n hn => not_mem_nil ((hmem n).1 hn)
    have hbest : mi.bestHt old = List.replicate 4 mi.placeholder := hbest
    rw [and_iff_right (sorted_bestOfAll (TopList.Sorted.pushAll (by rw [hbest]; exact sorted_replicate))), hbest]
    simp
  · rename_i hsome
    rcases lt_or_ge (mi.above old mi.htRates).length 4 with hlt | hge
    · obtain ⟨a, hbest, -, hmem⟩ := exists_bestHt hp hlt
      rw [← sorted_iff_of_lt_four hp hlt, iff_self_and]
      intro _ n hn
      obtain ⟨n', hn', hle⟩ := exists_reached hsome hn
      refine ⟨n', mem_append_left _ (mem_append_left _ ?_), hle⟩
      rw [hbest]
      exact mem_append_left _ ((hmem n').2 hn')
    · exact iff_of_true (.inr (.inl (hge.trans (Nat.le_add_right _ _)))) (sorted_of_seedKey (seedKey_of_four_le hp hge))

/-- **When the best rate is picked**: if there are no VHT rates, or the stale comparison does no harm. -/
theorem picksBest_iff (mp : MinstrelPriv) (random : ℕ) (mi : MinstrelHtSta) (sample : Bool) :
    PicksBest (mi.minstrelHtUpdateStats mp random sample) ↔
      PlaceholderHarmless (settled mp mi sample) ((mi.startUpdate mp sample).key mi.placeholder) := by
  have hupto := upto_updateStats mp random mi sample
  rw [picksBest_iff_sorted hupto.keys.1 hupto.keys.2 hupto.supported (maxTpRate_updateStats mp random mi sample)]
  rcases (settled mp mi sample).placeholder_cases with ⟨hv, hp⟩ | ⟨hv, hp⟩
  · exact (placeholderHarmless_iff hp hv).symm
  · -- the list starts with the first HT rate, whose own statistics come first
    refine iff_of_true (sorted_of_seedKey fun n hn => ?_) fun h => absurd hv h
    rcases TopList.mem_pushAll hn with hn | hn
    · exact seedKey_of_mem hn
    · rw [eq_of_mem_replicate hn, hp]
      rfl

/-- The second HT rate has been tried 100 times, and 38 times with success. The first VHT rate used
to be a little better, and has failed since. -/
def twoKinds : MinstrelHtSta :=
  { overhead := 60
    supported := fun g => if g = 0 then 0xff else if g = vhtGroup0 then 0x1ff else 0
    rates := fun n =>
      if n = 1 then { attempts := 100, success := 38 }
      else if n = 170 then { attempts := 50, success := 0, attHist := 100, probEwma := 1597 }
      else {} }

/-- **The second HT rate is not picked**, as it is compared with what the first VHT rate was worth before. -/
theorem placeholder_picked : ¬PicksBest (twoKinds.minstrelHtUpdateStats { maxRates := 4 } 0 true) := fun h =>
  absurd (h.best 1 (by decide) (by decide +kernel)) (by decide +kernel)

end MinstrelHtSta

end Mac80211
