import Mac80211.Lib.Absorb
import Mac80211.Reg.Database
import Mathlib.Data.UInt

/-!
# Regulatory domains

`net/wireless/reg.c`: a domain is a list of rules, each for a range of frequencies, in any order and
with overlaps. Two domains are intersected rule by rule; `NL80211_RRF_AUTO_BW` has the bandwidth
worked out from the rules next to it. Rules are told apart by where they are on the list, as the
source compares pointers.

## Main definitions

* `Domain`, `regdomIntersect`
-/

namespace Mac80211

/-- `struct ieee80211_reg_rule`. -/
structure DomainRule where
  startFreqKhz : UInt32 := 0
  endFreqKhz : UInt32 := 0
  maxBandwidthKhz : UInt32 := 0
  maxAntennaGain : UInt32 := 0
  maxEirp : UInt32 := 0
  wmmRule : WmmRule := {}
  flags : UInt32 := 0
  dfsCacMs : UInt32 := 0
  hasWmm : Bool := false
deriving DecidableEq

/-- `struct ieee80211_regdomain`. -/
structure Domain where
  alpha2 : ℕ × ℕ
  dfsRegion : ℕ
  regRules : List DomainRule

def NL80211_RRF_AUTO_BW : UInt32 := 0x800
def NL80211_RRF_NO_HT40MINUS : UInt32 := 0x2000
def NL80211_RRF_NO_HT40PLUS : UInt32 := 0x4000
def NL80211_RRF_NO_80MHZ : UInt32 := 0x8000
def NL80211_RRF_NO_160MHZ : UInt32 := 0x10000

/-- `NL80211_MAX_SUPP_REG_RULES`. -/
def NL80211_MAX_SUPP_REG_RULES : ℕ := 128

/-- A flag is set. -/
def DomainRule.has (r : DomainRule) (flag : UInt32) : Bool := r.flags &&& flag ≠ 0

/-! ### Sanity checks -/

/-- `is_valid_reg_rule`. -/
def isValidRegRule (rule : DomainRule) : Bool :=
  if rule.startFreqKhz = 0 || rule.endFreqKhz = 0 then false
  else if rule.endFreqKhz < rule.startFreqKhz then false
  else
    let freqDiff := rule.endFreqKhz - rule.startFreqKhz
    if rule.endFreqKhz ≤ rule.startFreqKhz || freqDiff < rule.maxBandwidthKhz then false else true

/-- `is_valid_rd`. -/
def isValidRd (rd : Domain) : Bool :=
  if rd.regRules.length = 0 then false
  else if NL80211_MAX_SUPP_REG_RULES < rd.regRules.length then false
  else rd.regRules.all isValidRegRule

/-! ### Bandwidths -/

/-- The loop that goes down the list: the last rule it comes to. -/
def walkDown (range : DomainRule) : List DomainRule → DomainRule
  | [] => range
  | tmp :: rest => if tmp.endFreqKhz < range.startFreqKhz then range else walkDown tmp rest

/-- The loop that goes up the list. -/
def walkUp (range : DomainRule) : List DomainRule → DomainRule
  | [] => range
  | tmp :: rest => if range.endFreqKhz < tmp.startFreqKhz then range else walkUp tmp rest

/-- `start_freq`. -/
def walkStart (rd : Domain) (idx : ℕ) (rule : DomainRule) : UInt32 :=
  (walkDown rule (rd.regRules.take idx).reverse).startFreqKhz

/-- `end_freq`. -/
def walkEnd (rd : Domain) (idx : ℕ) (rule : DomainRule) : UInt32 :=
  (walkUp rule (rd.regRules.drop (idx + 1))).endFreqKhz

/-- `reg_get_max_bandwidth_from_range`. -/
def maxBandwidthFromRange (rd : Domain) (idx : ℕ) (rule : DomainRule) : UInt32 :=
  if rd.regRules[idx]? = some rule then walkEnd rd idx rule - walkStart rd idx rule else 0

/-- `reg_get_max_bandwidth`. -/
def regGetMaxBandwidth (rd : Domain) (idx : ℕ) (rule : DomainRule) : UInt32 :=
  let bw := maxBandwidthFromRange rd idx rule
  let bw := if rule.has NL80211_RRF_NO_160MHZ then min bw 80000 else bw
  let bw := if rule.has NL80211_RRF_NO_80MHZ then min bw 40000 else bw
  if rule.has NL80211_RRF_NO_HT40MINUS && rule.has NL80211_RRF_NO_HT40PLUS then min bw 20000 else bw

/-! ### Intersections -/

/-- `reg_intersect_dfs_region`. -/
def regIntersectDfsRegion (dfsRegion1 dfsRegion2 : ℕ) : ℕ := if dfsRegion1 ≠ dfsRegion2 then 0 else dfsRegion1

/-- `reg_wmm_rules_intersect`. -/
def regWmmRulesIntersect (wmmAc1 wmmAc2 : WmmAc) : WmmAc where
  cwMin := max wmmAc1.cwMin wmmAc2.cwMin
  cwMax := max wmmAc1.cwMax wmmAc2.cwMax
  cot := min wmmAc1.cot wmmAc2.cot
  aifsn := max wmmAc1.aifsn wmmAc2.aifsn

/-- The WMM rule of an intersection. Where neither rule has one the source leaves it as it is, and does not
read it. -/
def wmmIntersect (rule1 rule2 : DomainRule) : WmmRule :=
  if rule1.hasWmm && rule2.hasWmm then
    { client := List.zipWith regWmmRulesIntersect rule1.wmmRule.client rule2.wmmRule.client
      ap := List.zipWith regWmmRulesIntersect rule1.wmmRule.ap rule2.wmmRule.ap }
  else if rule1.hasWmm then rule1.wmmRule
  else if rule2.hasWmm then rule2.wmmRule
  else {}

/-- `reg_rules_intersect`, with the number of each rule; none for `-EINVAL`. -/
def regRulesIntersect (rd1 rd2 : Domain) (rule1 : DomainRule × ℕ) (rule2 : DomainRule × ℕ) :
    Option DomainRule :=
  let (rule1, x) := rule1
  let (rule2, y) := rule2
  let startFreqKhz := max rule1.startFreqKhz rule2.startFreqKhz
  let endFreqKhz := min rule1.endFreqKhz rule2.endFreqKhz
  let maxBandwidth1 :=
    if rule1.has NL80211_RRF_AUTO_BW then regGetMaxBandwidth rd1 x rule1 else rule1.maxBandwidthKhz
  let maxBandwidth2 :=
    if rule2.has NL80211_RRF_AUTO_BW then regGetMaxBandwidth rd2 y rule2 else rule2.maxBandwidthKhz
  let maxBandwidthKhz := min maxBandwidth1 maxBandwidth2
  let flags := rule1.flags ||| rule2.flags
  let flags :=
    if rule1.has NL80211_RRF_AUTO_BW && rule2.has NL80211_RRF_AUTO_BW then flags ||| NL80211_RRF_AUTO_BW
    else flags &&& ~~~NL80211_RRF_AUTO_BW
  let freqDiff := endFreqKhz - startFreqKhz
  let intersectedRule : DomainRule :=
    { startFreqKhz := startFreqKhz
      endFreqKhz := endFreqKhz
      maxBandwidthKhz := if freqDiff < maxBandwidthKhz then freqDiff else maxBandwidthKhz
      maxAntennaGain := min rule1.maxAntennaGain rule2.maxAntennaGain
      maxEirp := min rule1.maxEirp rule2.maxEirp
      wmmRule := wmmIntersect rule1 rule2
      flags := flags
      dfsCacMs := max rule1.dfsCacMs rule2.dfsCacMs
      hasWmm := rule1.hasWmm || rule2.hasWmm }
  if isValidRegRule intersectedRule then some intersectedRule else none

/-- `rule_contains`. -/
def ruleContains (r1 r2 : DomainRule) : Bool :=
  if r1.flags ≠ r2.flags then false
  else if r2.maxAntennaGain < r1.maxAntennaGain || r2.maxEirp < r1.maxEirp then false
  else if r2.startFreqKhz < r1.startFreqKhz || r1.endFreqKhz < r2.endFreqKhz then false
  else if r1.maxBandwidthKhz < r2.maxBandwidthKhz then false
  else true

/-- `add_rule`: the rules that are there after it. -/
def addRule (rule : DomainRule) (regRules : List DomainRule) : List DomainRule :=
  Absorb.absorb ruleContains rule regRules

/-- The pairs of rules, in the order of the two loops, that make sense together. -/
def intersections (rd1 rd2 : Domain) : List DomainRule :=
  rd1.regRules.zipIdx.flatMap fun rule1 => rd2.regRules.zipIdx.filterMap fun rule2 =>
    regRulesIntersect rd1 rd2 rule1 rule2

/-- `num_rules`, after the first pass. -/
def numRules (rd1 rd2 : Domain) : ℕ :=
  rd1.regRules.zipIdx.foldl (fun numRules rule1 =>
    rd2.regRules.zipIdx.foldl (fun numRules rule2 =>
      if (regRulesIntersect rd1 rd2 rule1 rule2).isSome then numRules + 1 else numRules) numRules) 0

/-- `rd->reg_rules`, after the second pass. -/
def intersectedRules (rd1 rd2 : Domain) : List DomainRule :=
  rd1.regRules.zipIdx.foldl (fun regRules rule1 =>
    rd2.regRules.zipIdx.foldl (fun regRules rule2 =>
      match regRulesIntersect rd1 rd2 rule1 rule2 with
      | some rule => addRule rule regRules
      | none => regRules) regRules) []

/-- `regdom_intersect`; `alloc` says that there is memory. -/
def regdomIntersect (rd1 rd2 : Option Domain) (alloc : Bool) : Option Domain :=
  match rd1, rd2 with
  | some rd1, some rd2 =>
    if numRules rd1 rd2 = 0 then none
    else if !alloc then none
    else
      some
        { alpha2 := (57, 56)
          dfsRegion := regIntersectDfsRegion rd1.dfsRegion rd2.dfsRegion
          regRules := intersectedRules rd1 rd2 }
  | _, _ => none

end Mac80211
