import Mac80211.Lib.TopList
import Mac80211.Rate.Minstrel

/-!
# Choosing HT and VHT rates

`rc80211_minstrel_ht.c`: rates in groups of ten, HT in groups 0 to 15, CCK in 16, VHT in 17 to 40; a
rate's index is its group times ten and its place in it. An update turns counters into averages, one
rate after the other, and puts each rate into the lists of the four best with the averages there are
by then. No fixed rate is set; random numbers are parameters.

## Main definitions

* `MinstrelHtSta`, `minstrelHtUpdateStats`, `minstrelHtTxStatus`
-/

namespace Mac80211

/-! ### Rates -/

/-- `GROUP_SHIFT`. -/
def groupShift (duration : ℕ) : ℕ := duration.log2 + 1 - 16

/-- `MCS_DURATION`, with `MCS_NSYMS` and `MCS_SYMBOL_TIME`. -/
def mcsDuration (streams : ℕ) (sgi : Bool) (bps : ℕ) : ℕ :=
  let syms := ((1200 * 16) <<< 3 + streams * bps - 1) / (streams * bps)
  (if sgi then (syms * 18000 + 4000) / 5 else (syms * 1000) <<< 2) / 16

/-- `CCK_DURATION`. -/
def cckDuration (bitrate : ℕ) (short : Bool) (len : ℕ) : ℕ :=
  1000 * (10 + (if short then 72 + 24 else 144 + 48) + 8 * (len + 4) * 10 / bitrate)

/-- `CCK_ACK_DURATION`. -/
def cckAckDuration (bitrate : ℕ) (short : Bool) : ℕ :=
  cckDuration (if 10 < bitrate then 20 else 10) false 60 + cckDuration bitrate short 1200

/-- `struct mcs_group`. -/
structure McsGroup where
  streams : ℕ
  shift : ℕ
  bw : ℕ
  duration : List ℕ

/-- A group whose durations are given in nanoseconds. -/
def McsGroup.ofDurations (streams bw : ℕ) (ns : List ℕ) : McsGroup :=
  let shift := groupShift (ns.headD 0)
  { streams := streams
    shift := shift
    bw := bw
    duration := ns.map (· >>> shift) }

/-- `MCS_GROUP`. -/
def mcsGroup (streams : ℕ) (sgi : Bool) (bw : ℕ) : McsGroup :=
  .ofDurations streams bw <| (if bw = 1 then [54, 108, 162, 216, 324, 432, 486, 540]
    else [26, 52, 78, 104, 156, 208, 234, 260]).map (mcsDuration streams sgi)

/-- `VHT_GROUP`. -/
def vhtGroup (streams : ℕ) (sgi : Bool) (bw : ℕ) : McsGroup :=
  .ofDurations streams bw <| (if bw = 2 then [117, 234, 351, 468, 702, 936, 1053, 1170, 1404, 1560]
    else if bw = 1 then [54, 108, 162, 216, 324, 432, 486, 540, 648, 720]
    else [26, 52, 78, 104, 156, 208, 234, 260, 312, 346]).map (mcsDuration streams sgi)

/-- `CCK_GROUP`. -/
def cckGroup : McsGroup :=
  .ofDurations 1 0 <| [false, true].flatMap fun short => [10, 20, 55, 110].map (cckAckDuration · short)

/-- `MINSTREL_CCK_GROUP`. -/
def cckGroupIdx : ℕ := 16

/-- `MINSTREL_VHT_GROUP_0`. -/
def vhtGroup0 : ℕ := 17

/-- `MINSTREL_GROUPS_NB`. -/
def minstrelGroupsNb : ℕ := 41

/-- `minstrel_mcs_groups`. -/
def minstrelMcsGroups (group : ℕ) : McsGroup :=
  if group < cckGroupIdx then mcsGroup (group % 4 + 1) (group / 4 % 2 = 1) (group / 8)
  else if group = cckGroupIdx then cckGroup
  else
    let g := group - vhtGroup0
    vhtGroup (g % 4 + 1) (g / 4 % 2 = 1) (g / 8)

/-- `minstrel_get_duration`. -/
def minstrelGetDuration (index : ℕ) : ℕ :=
  let group := minstrelMcsGroups (index / 10)
  group.duration.getD (index % 10) 0 <<< group.shift

/-! ### A peer -/

/-- `enum minstrel_sample_mode`. -/
inductive SampleMode
  | idle
  | active
  | pending
deriving DecidableEq

/-- `struct minstrel_priv`, and a flag of the hardware. -/
structure MinstrelPriv where
  maxRates : ℕ
  sampleSwitch : ℕ := 0
  noAmpduLen : Bool := false
  cckRates : List ℕ := [0, 1, 2, 3]
  /-- The random bytes for each column of `sample_table`. -/
  rnd : ℕ → ℕ → UInt8 := fun _ _ => 0

/-- `struct minstrel_ht_sta`, with the `groups` of its rates taken apart. -/
structure MinstrelHtSta where
  ampduLen : ℕ := 0
  ampduPackets : ℕ := 0
  avgAmpduLen : ℕ := minstrelFrac 1 1
  maxTpRate : List ℕ := [0, 0, 0, 0]
  maxProbRate : ℕ := 0
  overhead : ℕ
  totalPacketsLast : ℕ := 0
  totalPacketsCur : ℕ := 0
  totalPackets : ℕ := 0
  sampleWait : ℕ := 0
  sampleTries : ℕ := 4
  sampleCount : ℕ := 16
  sampleSlow : ℕ := 0
  sampleMode : SampleMode := .idle
  sampleRate : ℕ := 0
  sampleGroup : ℕ := 0
  supported : ℕ → ℕ
  index : ℕ → ℕ := fun _ => 0
  column : ℕ → ℕ := fun _ => 0
  maxGroupTpRate : ℕ → List ℕ := fun _ => [0, 0, 0, 0]
  maxGroupProbRate : ℕ → ℕ := fun _ => 0
  /-- `groups[index / MCS_GROUP_RATES].rates[index % MCS_GROUP_RATES]`. -/
  rates : ℕ → RateStats := fun _ => {}

/-- The four best of all rates, of the CCK rates and of a group. -/
structure TpRates where
  mcs : List ℕ
  cck : List ℕ
  group : List ℕ := []

namespace MinstrelHtSta

/-- The rate is one of those the peer supports. -/
def Supports (mi : MinstrelHtSta) (index : ℕ) : Prop := (mi.supported (index / 10)).testBit (index % 10) = true
deriving Decidable

/-- `minstrel_ht_avg_ampdu_len`. -/
def avgLen (mi : MinstrelHtSta) : ℕ := if mi.avgAmpduLen = 0 then 16 else minstrelTrunc mi.avgAmpduLen

/-- What `minstrel_ht_get_tp_avg` divides by. -/
def nsecs (mi : MinstrelHtSta) (index : ℕ) : ℕ :=
  ((if index / 10 ≠ cckGroupIdx then 1000 * mi.overhead % 2 ^ 32 / mi.avgLen else 0) +
    minstrelGetDuration index) % 2 ^ 32

/-- `minstrel_ht_get_tp_avg`. -/
def minstrelHtGetTpAvg (mi : MinstrelHtSta) (index probEwma : ℕ) : ℕ :=
  if probEwma < minstrelFrac 10 100 then 0
  else if minstrelFrac 90 100 < probEwma then
    minstrelTrunc (100000 * (minstrelFrac 90 100 * 1000 / mi.nsecs index) % 2 ^ 32)
  else minstrelTrunc (100000 * (probEwma * 1000 / mi.nsecs index) % 2 ^ 32)

/-- `prob_ewma` of a rate. -/
def prob (mi : MinstrelHtSta) (index : ℕ) : ℕ := (mi.rates index).probEwma

/-- The throughput of a rate. -/
def tp (mi : MinstrelHtSta) (index : ℕ) : ℕ := mi.minstrelHtGetTpAvg index (mi.prob index)

/-- `minstrel_ht_sort_best_tp_rates`. -/
def minstrelHtSortBestTpRates (mi : MinstrelHtSta) (index : ℕ) (tpList : List ℕ) : List ℕ :=
  TopList.push (fun tmp => !(mi.tp index < mi.tp tmp || mi.tp index = mi.tp tmp &&
    mi.prob index ≤ mi.prob tmp)) index tpList

/-- `minstrel_ht_set_best_prob_rate`. -/
def minstrelHtSetBestProbRate (mi : MinstrelHtSta) (index : ℕ) : MinstrelHtSta :=
  let group := index / 10
  -- CCK rates do not allow aggregation
  if group = cckGroupIdx ∧ mi.maxTpRate.getD 0 0 / 10 ≠ cckGroupIdx then mi
  else
    let better (tmp : ℕ) : Bool :=
      if minstrelFrac 75 100 < mi.prob index then mi.tp tmp < mi.tp index else mi.prob tmp < mi.prob index
    { mi with
      maxProbRate := if better mi.maxProbRate then index else mi.maxProbRate
      maxGroupProbRate := if better (mi.maxGroupProbRate group) then
        Function.update mi.maxGroupProbRate group index else mi.maxGroupProbRate }

/-- `minstrel_ht_assign_best_tp_rates`. -/
def minstrelHtAssignBestTpRates (mi : MinstrelHtSta) (t : TpRates) : List ℕ :=
  if mi.tp (t.mcs.getD 0 0) < mi.tp (t.cck.getD 0 0) then
    t.cck.foldl (fun l index => mi.minstrelHtSortBestTpRates index l) t.mcs
  else t.mcs

/-- `minstrel_ht_prob_rate_reduce_streams`: `max_prob_rate`, with the throughput it has. -/
def minstrelHtProbRateReduceStreams (mi : MinstrelHtSta) : ℕ :=
  let maxStreams := (minstrelMcsGroups (mi.maxTpRate.getD 0 0 / 10)).streams
  ((List.range minstrelGroupsNb).foldl (fun (acc : ℕ × ℕ) group =>
    let tmp := group * 10 + mi.maxGroupProbRate group % 10
    if mi.supported group = 0 ∨ group = cckGroupIdx then acc
    else if acc.2 < mi.tp tmp ∧ (minstrelMcsGroups group).streams < maxStreams then
      (mi.maxGroupProbRate group, mi.tp tmp)
    else acc) (mi.maxProbRate, 0)).1

/-- `minstrel_ht_probe_group`. -/
def minstrelHtProbeGroup (tpGroup : McsGroup) (tpIdx : ℕ) (group : McsGroup) : Bool :=
  !(group.bw < tpGroup.bw) &&
    (group.streams = tpGroup.streams || tpIdx < 4 && group.streams + 1 = tpGroup.streams ||
      group.streams = tpGroup.streams + 1)

/-- `minstrel_ht_find_probe_rates`. -/
def minstrelHtFindProbeRates (mi : MinstrelHtSta) (fasterRate : Bool) : List ℕ :=
  let tp := mi.maxTpRate.getD 0 0
  let maxDur := minstrelGetDuration tp
  let maxDur := if fasterRate then maxDur - maxDur / 16 else maxDur
  (List.range minstrelGroupsNb).filterMap fun g =>
    if minstrelHtProbeGroup (minstrelMcsGroups (tp / 10)) (tp % 10) (minstrelMcsGroups g) then
      ((List.range 10).map (g * 10 + ·)).find? fun index =>
        mi.Supports index && minstrelGetDuration index ≤ maxDur && index ≠ tp
    else none

/-- `minstrel_ht_rate_sample_switch`. -/
def minstrelHtRateSampleSwitch (mp : MinstrelPriv) (random : ℕ) (mi : MinstrelHtSta) : MinstrelHtSta :=
  let tp := mi.maxTpRate.getD 0 0
  let probe (rate : ℕ) := { mi with sampleRate := rate, sampleMode := .active }
  if 1 < mp.maxRates then mi
  else
    let fasterRate : Bool := minstrelFrac 75 100 < mi.prob tp
    let rates := mi.minstrelHtFindProbeRates fasterRate
    let rates := if rates = [] ∧ fasterRate then mi.minstrelHtFindProbeRates false else rates
    match rates with
    | [] =>
      -- if no suitable rate was found, try to pick the next one in the group
      match (List.range (10 - tp % 10)).find? fun i => mi.Supports (tp + i) with
      | none => mi
      | some i => probe (tp + i)
    | _ => probe (rates.getD (random % rates.length) 0)

/-! ### An update -/

/-- One rate of a group. -/
def updateRate (group : ℕ) (s : MinstrelHtSta × TpRates) (i : ℕ) : MinstrelHtSta × TpRates :=
  let (mi, t) := s
  let index := 10 * group + i
  if ¬mi.Supports index then (mi, t)
  else
    let mi := { mi with rates := Function.update mi.rates index (minstrelCalcRateStats (mi.rates index)) }
    if mi.tp index = 0 then (mi, t)
    else
      let t := if group ≠ cckGroupIdx then { t with mcs := mi.minstrelHtSortBestTpRates index t.mcs }
        else { t with cck := mi.minstrelHtSortBestTpRates index t.cck }
      (mi.minstrelHtSetBestProbRate index, { t with group := mi.minstrelHtSortBestTpRates index t.group })

/-- One group. -/
def updateGroup (s : MinstrelHtSta × TpRates) (group : ℕ) : MinstrelHtSta × TpRates :=
  let (mi, t) := s
  if mi.supported group = 0 then (mi, t)
  else
    let (mi, t) := (List.range 10).foldl (updateRate group)
      ({ mi with sampleCount := (mi.sampleCount + 1) % 2 ^ 8 },
        { t with group := List.replicate 4 (10 * group) })
    ({ mi with maxGroupTpRate := Function.update mi.maxGroupTpRate group t.group }, t)

/-- The rate that the list of the best starts with. -/
def placeholder (mi : MinstrelHtSta) : ℕ := if mi.supported vhtGroup0 ≠ 0 then vhtGroup0 * 10 else 0

/-- What the four best start with. -/
def tpRates (mi : MinstrelHtSta) : TpRates where
  mcs := List.replicate 4 mi.placeholder
  cck := List.replicate 4 (if mi.supported cckGroupIdx ≠ 0 then cckGroupIdx * 10 else 0)

/-- The part of `minstrel_ht_update_stats` before the loop. -/
def startUpdate (mp : MinstrelPriv) (mi : MinstrelHtSta) (sample : Bool) : MinstrelHtSta :=
  { mi with
    sampleMode := .idle
    totalPacketsCur := if sample then (mi.totalPackets + 2 ^ 32 - mi.totalPacketsLast) % 2 ^ 32
      else mi.totalPacketsCur
    totalPacketsLast := if sample then mi.totalPackets else mi.totalPacketsLast
    avgAmpduLen := if mi.ampduPackets = 0 then mi.avgAmpduLen
      else if mp.noAmpduLen then 0
      else (minstrelEwma mi.avgAmpduLen (minstrelFrac mi.ampduLen mi.ampduPackets) % 2 ^ 32).toNat
    ampduLen := if mi.ampduPackets = 0 then mi.ampduLen else 0
    ampduPackets := 0
    sampleSlow := 0
    sampleCount := 0 }

/-- The part of `minstrel_ht_update_stats` behind the loop. -/
def finishUpdate (mp : MinstrelPriv) (random : ℕ) (mi : MinstrelHtSta) (t : TpRates) (sample : Bool) :
    MinstrelHtSta :=
  let mi := { mi with maxTpRate := mi.minstrelHtAssignBestTpRates t }
  let mi := { mi with maxProbRate := mi.minstrelHtProbRateReduceStreams }
  -- try to sample all available rates during each interval
  let mi := { mi with sampleCount := mi.sampleCount * 8 % 2 ^ 8 }
  if sample then mi.minstrelHtRateSampleSwitch mp random else mi

/-- `minstrel_ht_update_stats`. -/
def minstrelHtUpdateStats (mp : MinstrelPriv) (random : ℕ) (mi : MinstrelHtSta) (sample : Bool) :
    MinstrelHtSta :=
  let mi := mi.startUpdate mp sample
  let r := (List.range minstrelGroupsNb).foldl updateGroup (mi, mi.tpRates)
  r.1.finishUpdate mp random r.2
    (sample && mp.sampleSwitch ≠ 0 && (100 ≤ mi.totalPacketsCur || mp.sampleSwitch = 1))

/-! ### What becomes of a frame -/

/-- `minstrel_ht_txstat_valid`. -/
def minstrelHtTxstatValid (mp : MinstrelPriv) (rate : TxRate) : Bool :=
  0 ≤ rate.idx && rate.count ≠ 0 && (rate.mcs || rate.vhtMcs || mp.cckRates.any fun r => rate.idx = r)

/-- `minstrel_ht_get_stats`: the index of a rate. -/
def minstrelHtGetStats (mp : MinstrelPriv) (mi : MinstrelHtSta) (rate : TxRate) : ℕ :=
  let idx := rate.idx.toNat
  if rate.mcs then (8 * rate.width40.toNat + 4 * rate.shortGi.toNat + idx / 8) * 10 + idx % 8
  else if rate.vhtMcs then
    (vhtGroup0 + 8 * (rate.width40.toNat + 2 * rate.width80.toNat) + 4 * rate.shortGi.toNat + idx / 16) * 10 +
      idx % 16
  else
    let i := mp.cckRates.idxOf idx
    cckGroupIdx * 10 +
      if (mi.supported cckGroupIdx).testBit (i + 4) && rate.shortPreamble then i + 4 else i

/-- The loop of `minstrel_ht_tx_status`, from a valid entry on. -/
def added (mp : MinstrelPriv) (mi : MinstrelHtSta) (ampduLen ampduAckLen : ℕ) : List TxRate → List AddedCounts
  | [] => []
  | ar :: rest =>
    if !minstrelHtTxstatValid mp ar then []
    else
      let last := !(rest.head?.any (minstrelHtTxstatValid mp))
      ⟨minstrelHtGetStats mp mi ar, ar.count * ampduLen, if last then ampduAckLen else 0⟩ ::
        added mp mi ampduLen ampduAckLen rest

/-- `minstrel_downgrade_rate`. -/
def minstrelDowngradeRate (mi : MinstrelHtSta) (idx : ℕ) (primary : Bool) : ℕ :=
  match (List.range (idx / 10)).reverse.find? fun group => mi.supported group ≠ 0 &&
    (minstrelMcsGroups group).streams ≤ (minstrelMcsGroups (idx / 10)).streams with
  | none => idx
  | some group => (mi.maxGroupTpRate group).getD (if primary then 0 else 1) 0

/-- The check for sudden death of spatial multiplexing, of one of the best rates. -/
def checkSuddenDeath (n : ℕ) (s : MinstrelHtSta × Bool) : MinstrelHtSta × Bool :=
  let (mi, update) := s
  let idx := mi.maxTpRate.getD n 0
  let rate := mi.rates idx
  if 30 < rate.attempts ∧ minstrelFrac rate.success rate.attempts < minstrelFrac 20 100 then
    ({ mi with maxTpRate := mi.maxTpRate.set n (mi.minstrelDowngradeRate idx (n = 0)) }, true)
  else (mi, update)

/-- `ampdu_len` and `ampdu_ack_len`, where `minstrel_ht_tx_status` sets them. -/
def ampduLens (st : TxReport) : ℕ × ℕ :=
  if st.statAmpdu then (st.ampduLen, st.ampduAckLen) else (1, st.ack.toNat)

/-- The part of `minstrel_ht_tx_status` up to the loop, and the loop. -/
def counted (mp : MinstrelPriv) (mi : MinstrelHtSta) (st : TxReport) : MinstrelHtSta :=
  let mi := { mi with
    ampduPackets := (mi.ampduPackets + 1) % 2 ^ 32
    ampduLen := (mi.ampduLen + (ampduLens st).1) % 2 ^ 32
    rates := (mi.added mp (ampduLens st).1 (ampduLens st).2 st.rates).foldl addCounts mi.rates }
  if mi.sampleWait = 0 ∧ mi.sampleTries = 0 ∧ 0 < mi.sampleCount then
    { mi with
      sampleWait := (16 + 2 * mi.avgLen) % 2 ^ 8
      sampleTries := 1
      sampleCount := mi.sampleCount - 1 }
  else mi

/-- The sampled rate was used, while there is one. -/
def sampleStatus (mp : MinstrelPriv) (mi : MinstrelHtSta) (st : TxReport) : Bool :=
  mi.sampleMode ≠ .idle && (st.rates.takeWhile (minstrelHtTxstatValid mp)).any fun ar =>
    minstrelHtGetStats mp mi ar = mi.sampleRate

/-- `minstrel_ht_tx_status`, and whether the rates are to be updated; `due` says that it is time for
statistics. -/
def minstrelHtTxStatus (mp : MinstrelPriv) (random : ℕ) (mi : MinstrelHtSta) (st : TxReport) (due : Bool) :
    MinstrelHtSta × Bool :=
  -- this frame was aggregated but does not carry status info
  if st.ctlAmpdu && !st.statAmpdu then (mi, false)
  else
    let used := mi.sampleStatus mp st
    let mi := mi.counted mp st
    let s :=
      match mi.sampleMode with
      | .idle => (mi, false)
      | .active => if used then ({ mi with sampleMode := .pending }, true) else (mi, false)
      | .pending => if used then (mi, false) else (mi.minstrelHtUpdateStats mp random false, true)
    let s := if 1 < mp.maxRates then checkSuddenDeath 1 (checkSuddenDeath 0 s) else s
    if due then (s.1.minstrelHtUpdateStats mp random true, true) else s

theorem minstrelHtTxStatus_induct {mp : MinstrelPriv} {random : ℕ} {mi : MinstrelHtSta} {st : TxReport} {due : Bool}
    (P : MinstrelHtSta → Prop) (h : P mi) (hcounted : ¬(st.ctlAmpdu && !st.statAmpdu) → P (mi.counted mp st))
    (hpending : ∀ mi : MinstrelHtSta, P mi → P { mi with sampleMode := .pending })
    (hupdate : ∀ mi sample, P mi → P (minstrelHtUpdateStats mp random mi sample))
    (hdeath : 1 < mp.maxRates → ∀ n s, P s.1 → P (checkSuddenDeath n s).1) :
    P (mi.minstrelHtTxStatus mp random st due).1 := by
  rw [minstrelHtTxStatus]
  split
  · exact h
  · rename_i hcarries
    have hdeaths (s : MinstrelHtSta × Bool) (hs : P s.1) :
        P (if 1 < mp.maxRates then checkSuddenDeath 1 (checkSuddenDeath 0 s) else s).1 := by
      split
      · rename_i hmax
        exact hdeath hmax 1 _ (hdeath hmax 0 s hs)
      · exact hs
    have hdue (s : MinstrelHtSta × Bool) (hs : P s.1) :
        P (if due then (s.1.minstrelHtUpdateStats mp random true, true) else s).1 := by
      split
      · exact hupdate _ true hs
      · exact hs
    refine hdue _ (hdeaths _ ?_)
    have hcounted := hcounted hcarries
    split
    · exact hcounted
    · split
      · exact hpending _ hcounted
      · exact hcounted
    · split
      · exact hcounted
      · exact hupdate _ false hcounted

end MinstrelHtSta

end Mac80211
