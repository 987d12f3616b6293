import Mathlib.Algebra.Order.Ring.Nat

/-!
# Rate statistics

`rc80211_minstrel.c` and `rc80211_minstrel.h`: what is counted for each rate, and how an interval's
counters become an average. Probabilities are fractions of `2 ^ 12`. Counters that are never read,
retry counts, and what the legacy algorithm picks are left out.

## Main definitions

* `RateStats`, `minstrelCalcRateStats`, `MinstrelStaInfo`
-/

namespace Mac80211

/-- `MINSTREL_FRAC`, of an `unsigned int`. -/
def minstrelFrac (val div : ℕ) : ℕ := val * 2 ^ 12 % 2 ^ 32 / div

/-- `MINSTREL_TRUNC`. -/
def minstrelTrunc (val : ℕ) : ℕ := val / 2 ^ 12

/-- An `int`. -/
def int32 (x : ℤ) : ℤ := x.bmod (2 ^ 32)

/-- `minstrel_ewma` with `EWMA_LEVEL`. -/
def minstrelEwma (old new : ℕ) : ℤ :=
  let diff := int32 (int32 new - int32 old)
  int32 old + (int32 ((128 - 96) * diff)).tdiv 128

/-- `struct minstrel_rate_stats`. -/
structure RateStats where
  attempts : ℕ := 0
  success : ℕ := 0
  attHist : ℕ := 0
  probEwma : ℕ := 0
  sampleSkipped : ℕ := 0

/-- `minstrel_calc_rate_stats`. -/
def minstrelCalcRateStats (mrs : RateStats) : RateStats :=
  if 0 < mrs.attempts then
    let curProb := minstrelFrac mrs.success mrs.attempts
    { attempts := 0
      success := 0
      attHist := (mrs.attHist + mrs.attempts) % 2 ^ 32
      probEwma := if mrs.attHist = 0 then curProb % 2 ^ 16
        else (minstrelEwma mrs.probEwma curProb % 2 ^ 16).toNat
      sampleSkipped := 0 }
  else { mrs with attempts := 0, success := 0, sampleSkipped := (mrs.sampleSkipped + 1) % 2 ^ 8 }

/-- `struct ieee80211_tx_rate`. -/
structure TxRate where
  idx : ℤ := -1
  count : ℕ := 0
  mcs : Bool := false
  vhtMcs : Bool := false
  shortGi : Bool := false
  width40 : Bool := false
  width80 : Bool := false
  shortPreamble : Bool := false

/-- What a driver reports of a frame. -/
structure TxReport where
  /-- `IEEE80211_TX_STAT_ACK`. -/
  ack : Bool
  /-- `IEEE80211_TX_CTL_AMPDU`. -/
  ctlAmpdu : Bool := false
  /-- `IEEE80211_TX_STAT_AMPDU`. -/
  statAmpdu : Bool := false
  ampduLen : ℕ := 0
  ampduAckLen : ℕ := 0
  /-- There are `IEEE80211_TX_MAX_RATES` of them. -/
  rates : List TxRate
  length : rates.length = 4 := by decide
  len : ampduLen < 256 := by decide
  ackLen : ampduAckLen < 256 := by decide

/-- Rates that are used are tried, and no more frames are acknowledged than there are. -/
structure TxReport.Plausible (st : TxReport) : Prop where
  count : ∀ ar ∈ st.rates, 0 ≤ ar.idx → 1 ≤ ar.count
  ack : st.ampduAckLen ≤ st.ampduLen

/-- What is added to the counters of a rate. -/
structure AddedCounts where
  ndx : ℕ
  attempts : ℕ
  success : ℕ

/-- `attempts` and `success` are `u16`. -/
def addCounts (r : ℕ → RateStats) (a : AddedCounts) : ℕ → RateStats :=
  Function.update r a.ndx { r a.ndx with
    attempts := ((r a.ndx).attempts + a.attempts) % 2 ^ 16
    success := ((r a.ndx).success + a.success) % 2 ^ 16 }

/-! ### The legacy algorithm -/

/-- `struct minstrel_sta_info`, with the `stats` of its rates taken apart. -/
structure MinstrelStaInfo where
  nRates : ℕ
  rix : ℕ → ℤ
  perfectTxTime : ℕ → ℕ
  stats : ℕ → RateStats := fun _ => {}

namespace MinstrelStaInfo

/-- What `minstrel_get_tp_avg` divides by. -/
def usecs (mi : MinstrelStaInfo) (ndx : ℕ) : ℕ :=
  if mi.perfectTxTime ndx = 0 then 1000000 else mi.perfectTxTime ndx

/-- `rix_to_ndx`: the search goes down from `rix`. -/
def rixToNdx (mi : MinstrelStaInfo) (rix : ℕ) : Option ℕ :=
  (List.range (rix + 1)).reverse.find? fun i => mi.rix i = rix

/-- `minstrel_update_stats`, as far as the statistics go. -/
def minstrelUpdateStats (mi : MinstrelStaInfo) : MinstrelStaInfo :=
  { mi with stats := fun ndx =>
      if ndx < mi.nRates then minstrelCalcRateStats (mi.stats ndx) else mi.stats ndx }

/-- The loop of `minstrel_tx_status`. -/
def added (mi : MinstrelStaInfo) (success : ℕ) : List TxRate → List AddedCounts
  | [] => []
  | ar :: rest =>
    if ar.idx < 0 then []
    else
      match mi.rixToNdx ar.idx.toNat with
      | none => added mi success rest
      | some ndx =>
        -- there is no entry behind the last one to look at
        ⟨ndx, ar.count, if rest.head?.any fun next => next.idx < 0 then success else 0⟩ :: added mi success rest

/-- The counters after the loop. -/
def counted (mi : MinstrelStaInfo) (st : TxReport) : MinstrelStaInfo :=
  { mi with stats := (mi.added st.ack.toNat st.rates).foldl addCounts mi.stats }

/-- `minstrel_tx_status`; `due` says that it is time for an update. -/
def minstrelTxStatus (mi : MinstrelStaInfo) (st : TxReport) (due : Bool) : MinstrelStaInfo :=
  if due then (mi.counted st).minstrelUpdateStats else mi.counted st

end MinstrelStaInfo

end Mac80211
