import Mac80211.State
import Mathlib.Algebra.BigOperators.Fin
import Mathlib.Algebra.GCDMonoid.Multiset
import Mathlib.Algebra.GCDMonoid.Nat

/-!
# Interface combinations

`net/wireless/util.c`: a driver lists combinations of interfaces, each with limits for sets of types
that may overlap. The numbers of interfaces are natural numbers, and their sum does not overflow; so
are bitmaps. `alloc` says for which combination there is memory for the copy. What is called is the
list of the numbers of the combinations.

## Main definitions

* `iterCombinations`
-/

namespace Mac80211

/-- `NUM_NL80211_IFTYPES`. -/
abbrev NUM_NL80211_IFTYPES : ℕ := 13

/-- `enum nl80211_iftype`. -/
abbrev Iftype := Fin NUM_NL80211_IFTYPES

def NL80211_IFTYPE_AP_VLAN : Iftype := 4

/-- `struct ieee80211_iface_limit`. -/
structure IfaceLimit where
  max : ℕ
  types : ℕ

/-- `struct ieee80211_iface_combination`. -/
structure IfaceCombination where
  limits : List IfaceLimit
  numDifferentChannels : ℕ
  maxInterfaces : ℕ
  radarDetectWidths : ℕ := 0
  radarDetectRegions : ℕ := 0
  beaconIntMinGcd : ℕ := 0

/-- `struct iface_combination_params`. -/
structure IfaceCombinationParams where
  numDifferentChannels : ℕ
  radarDetect : ℕ := 0
  iftypeNum : Iftype → ℕ
  newBeaconInt : ℕ := 0

/-- What is used of `struct wiphy`. -/
structure WiphyIfaces where
  interfaceModes : ℕ := 0
  softwareIftypes : ℕ := 0
  /-- `WIPHY_FLAG_4ADDR_AP`. -/
  flag4addrAp : Bool := false
  ifaceCombinations : List IfaceCombination

/-! ### The functions -/

/-- `cfg80211_iftype_allowed`. -/
def iftypeAllowed (wiphy : WiphyIfaces) (iftype : Iftype) (is4addr : Bool) (checkSwif : ℕ) : Bool :=
  let isVlan : Bool := iftype = NL80211_IFTYPE_AP_VLAN
  match checkSwif with
  | 0 => if isVlan && is4addr then wiphy.flag4addrAp else wiphy.interfaceModes.testBit iftype
  | 1 =>
    if !wiphy.softwareIftypes.testBit iftype && isVlan then wiphy.flag4addrAp
    else wiphy.softwareIftypes.testBit iftype
  | _ => false

/-- One round of the loop of `cfg80211_calculate_bi_data`. -/
def biRound (bi : ℕ × Bool) (beaconInterval : ℕ) : ℕ × Bool :=
  if beaconInterval = 0 then bi
  else if bi.1 = 0 then (beaconInterval, bi.2)
  else if beaconInterval = bi.1 then bi
  else (Nat.gcd bi.1 beaconInterval, true)

/-- `cfg80211_calculate_bi_data`, with the `beacon_interval` of each device on the list: `beacon_int_gcd` and
`beacon_int_different`. -/
def calculateBiData (wdevList : List ℕ) (newBeaconInt : ℕ) : ℕ × Bool :=
  let bi := wdevList.foldl biRound (0, false)
  if newBeaconInt ≠ 0 ∧ bi.1 ≠ newBeaconInt then
    (Nat.gcd bi.1 newBeaconInt, if bi.1 ≠ 0 then true else bi.2)
  else bi

/-- The loop over the limits: what is left of them, and `all_iftypes`; nothing for `goto cont`. -/
def limitsLoop (iftype num : ℕ) : List IfaceLimit → ℕ → Option (List IfaceLimit × ℕ)
  | [], allIftypes => some ([], allIftypes)
  | limit :: limits, allIftypes =>
    let allIftypes := allIftypes ||| limit.types
    if !limit.types.testBit iftype then
      (limitsLoop iftype num limits allIftypes).map fun (limits, all) => (limit :: limits, all)
    else if limit.max < num then none
    else
      (limitsLoop iftype num limits allIftypes).map fun (limits, all) =>
        ({ limit with max := limit.max - num } :: limits, all)

/-- The loop over the interface types. -/
def iftypesLoop (wiphy : WiphyIfaces) (params : IfaceCombinationParams) :
    List Iftype → List IfaceLimit → ℕ → Option (List IfaceLimit × ℕ)
  | [], limits, allIftypes => some (limits, allIftypes)
  | iftype :: iftypes, limits, allIftypes =>
    if iftypeAllowed wiphy iftype false 1 then iftypesLoop wiphy params iftypes limits allIftypes
    else
      match limitsLoop iftype (params.iftypeNum iftype) limits allIftypes with
      | none => none
      | some (limits, allIftypes) => iftypesLoop wiphy params iftypes limits allIftypes

/-- `num_interfaces`. -/
def numInterfaces (params : IfaceCombinationParams) : ℕ :=
  (List.finRange NUM_NL80211_IFTYPES).foldl (fun num iftype => num + params.iftypeNum iftype) 0

/-- `used_iftypes`. -/
def usedIftypes (wiphy : WiphyIfaces) (params : IfaceCombinationParams) : ℕ :=
  (List.finRange NUM_NL80211_IFTYPES).foldl
    (fun used iftype =>
      if 0 < params.iftypeNum iftype && !iftypeAllowed wiphy iftype false 1 then used ||| 2 ^ (iftype : ℕ) else used) 0

/-- `region`; `regdom` is the `dfs_region` of `cfg80211_regdomain`. -/
def dfsRegion (params : IfaceCombinationParams) (regdom : Option ℕ) : ℕ :=
  if params.radarDetect ≠ 0 then regdom.getD 0 else 0

/-- The rest of a round of `cfg80211_iter_combinations`, from the copy of the limits on: `iter` is called. -/
def combinationFits (wiphy : WiphyIfaces) (params : IfaceCombinationParams) (bi : ℕ × Bool) (region : ℕ)
    (c : IfaceCombination) : Bool :=
  match iftypesLoop wiphy params (List.finRange NUM_NL80211_IFTYPES) c.limits 0 with
  | none => false
  | some (_, allIftypes) =>
    if params.radarDetect ≠ c.radarDetectWidths &&& params.radarDetect then false
    else if params.radarDetect ≠ 0 ∧ c.radarDetectRegions ≠ 0 ∧ ¬c.radarDetectRegions.testBit region then false
    else if allIftypes &&& usedIftypes wiphy params ≠ usedIftypes wiphy params then false
    else if bi.1 ≠ 0 ∧ c.beaconIntMinGcd ≠ 0 ∧ bi.1 < c.beaconIntMinGcd then false
    else if bi.1 ≠ 0 ∧ c.beaconIntMinGcd = 0 ∧ bi.2 then false
    else true

/-- One round of `cfg80211_iter_combinations`: whether `iter` is called; nothing for `-ENOMEM`. -/
def combinationRound (wiphy : WiphyIfaces) (params : IfaceCombinationParams) (bi : ℕ × Bool) (region : ℕ)
    (c : IfaceCombination) (alloc : Bool) : Option Bool :=
  if c.maxInterfaces < numInterfaces params then some false
  else if c.numDifferentChannels < params.numDifferentChannels then some false
  else if !alloc then none
  else some (combinationFits wiphy params bi region c)

/-- The loop of `cfg80211_iter_combinations`, with the number of the next combination. -/
def combinationsLoop (wiphy : WiphyIfaces) (params : IfaceCombinationParams) (bi : ℕ × Bool) (region : ℕ)
    (alloc : ℕ → Bool) : ℕ → List IfaceCombination → List ℕ → ℤ × List ℕ
  | _, [], calls => (0, calls)
  | i, c :: cs, calls =>
    match combinationRound wiphy params bi region c (alloc i) with
    | none => (-ENOMEM, calls)
    | some call => combinationsLoop wiphy params bi region alloc (i + 1) cs (if call then calls ++ [i] else calls)

/-- `cfg80211_iter_combinations`: what it returns, and the combinations that `iter` is called for. -/
def iterCombinations (wiphy : WiphyIfaces) (params : IfaceCombinationParams) (wdevList : List ℕ)
    (regdom : Option ℕ) (alloc : ℕ → Bool) : ℤ × List ℕ :=
  combinationsLoop wiphy params (calculateBiData wdevList params.newBeaconInt) (dfsRegion params regdom) alloc 0
    wiphy.ifaceCombinations []

/-- `cfg80211_check_combinations`. -/
def checkCombinations (wiphy : WiphyIfaces) (params : IfaceCombinationParams) (wdevList : List ℕ)
    (regdom : Option ℕ) (alloc : ℕ → Bool) : ℤ :=
  let (err, calls) := iterCombinations wiphy params wdevList regdom alloc
  if err ≠ 0 then err else if calls.length = 0 then -EBUSY else 0

/-! ### What a combination means -/

section Meaning

variable (wiphy : WiphyIfaces) (params : IfaceCombinationParams) (wdevList : List ℕ) (regdom : Option ℕ)

/-- A type of interface that is done in software. -/
def Software (iftype : Iftype) : Prop := iftypeAllowed wiphy iftype false 1 = true
deriving Decidable

/-- A type of interface that a limit counts. -/
def Counts (limit : IfaceLimit) (iftype : Iftype) : Prop :=
  limit.types.testBit iftype = true ∧ ¬Software wiphy iftype
deriving Decidable

/-- The beacon intervals in use, and the new one. -/
def beaconInts : List ℕ := (params.newBeaconInt :: wdevList).filter (· ≠ 0)

/-- The greatest common divisor of all of them. -/
def beaconGcd : ℕ := (beaconInts params wdevList : Multiset ℕ).gcd

/-- A combination allows what runs, and what is to run. -/
structure Allows (c : IfaceCombination) : Prop where
  total : ∑ iftype, params.iftypeNum iftype ≤ c.maxInterfaces
  channels : params.numDifferentChannels ≤ c.numDifferentChannels
  limits : ∀ limit ∈ c.limits,
    ∑ iftype with Counts wiphy limit iftype, params.iftypeNum iftype ≤ limit.max
  covered : ∀ iftype, 0 < params.iftypeNum iftype → ¬Software wiphy iftype →
    ∃ limit ∈ c.limits, limit.types.testBit iftype
  radarWidths : ∀ width, params.radarDetect.testBit width → c.radarDetectWidths.testBit width
  radarRegion : params.radarDetect ≠ 0 → c.radarDetectRegions ≠ 0 → c.radarDetectRegions.testBit (regdom.getD 0)
  /-- The greatest common divisor is large enough, if intervals may be different. -/
  gcdEnough : c.beaconIntMinGcd ≠ 0 → beaconInts params wdevList ≠ [] → c.beaconIntMinGcd ≤ beaconGcd params wdevList
  /-- They are the same, if they may not. -/
  sameInts : c.beaconIntMinGcd = 0 → ∀ a ∈ beaconInts params wdevList, ∀ b ∈ beaconInts params wdevList, a = b

/-- The same combination, with its limits in another order. -/
def SameLimits (c c' : IfaceCombination) : Prop := c.limits.Perm c'.limits ∧ c' = { c with limits := c'.limits }

/-- What is asked of `cfg80211_iter_combinations`: on 0 it has called `iter` for the combinations
that allow what runs, in order, and no other; it only fails for lack of memory;
`cfg80211_check_combinations` says whether there is one; the order of devices and limits does not
matter. -/
structure IterRight (alloc : ℕ → Bool) : Prop where
  increasing : (iterCombinations wiphy params wdevList regdom alloc).2.Pairwise (· < ·)
  sound : ∀ i ∈ (iterCombinations wiphy params wdevList regdom alloc).2,
    ∃ c, wiphy.ifaceCombinations[i]? = some c ∧ Allows wiphy params wdevList regdom c
  complete : (iterCombinations wiphy params wdevList regdom alloc).1 = 0 → ∀ i c,
    wiphy.ifaceCombinations[i]? = some c → Allows wiphy params wdevList regdom c →
    i ∈ (iterCombinations wiphy params wdevList regdom alloc).2
  memory : (∀ i, alloc i = true) → (iterCombinations wiphy params wdevList regdom alloc).1 = 0
  check : (∀ i, alloc i = true) → (checkCombinations wiphy params wdevList regdom alloc = 0 ↔
    ∃ c ∈ wiphy.ifaceCombinations, Allows wiphy params wdevList regdom c)
  order : ∀ (wdevList' : List ℕ) (combinations' : List IfaceCombination), wdevList.Perm wdevList' →
    List.Forall₂ SameLimits wiphy.ifaceCombinations combinations' →
    iterCombinations { wiphy with ifaceCombinations := combinations' } params wdevList' regdom alloc =
      iterCombinations wiphy params wdevList regdom alloc

end Meaning

end Mac80211
