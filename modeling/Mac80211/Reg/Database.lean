import Mac80211.Lib.Memory
import Mathlib.Algebra.Group.Int.Defs
import Mathlib.Algebra.Group.Nat.Defs
import Mathlib.Data.Int.Init

/-!
# The regulatory database

`net/wireless/reg.c`: the file `regulatory.db`, the check it has to pass, and the queries. Offsets
are in units of four bytes. Every read goes through `Memory`. `validRegdb` gets the size of the file
and can be run on any memory; the queries get no size, and their loop over the table ends at the
first read behind the file. Databases that are not loaded, failing allocations and the signature are
left out.

## Main definitions

* `validRegdb`, `queryRegdb`, `regQueryRegdbWmm`
-/

namespace Mac80211

/-! ### The layout of the file -/

/-- `FWDB_MAGIC`. -/
def fwdbMagic : ℕ := 0x52474442

/-- `FWDB_VERSION`. -/
def fwdbVersion : ℕ := 20

/-- `sizeof(struct fwdb_header)`: the table of countries starts here. -/
def fwdbHeaderSize : ℕ := 8

/-- `sizeof(struct fwdb_country)`. -/
def fwdbCountrySize : ℕ := 4

/-- `sizeof(struct fwdb_wmm_rule)`. -/
def fwdbWmmRuleSize : ℕ := 32

/-- `IEEE80211_NUM_ACS`. -/
def numAcs : ℕ := 4

/-- `ALIGN(len, 2)`. -/
def align2 (len : ℕ) : ℕ := (len + 1) / 2 * 2

/-- `ecw2cw`. -/
def ecw2cw (ecw : ℕ) : ℕ := 2 ^ ecw - 1

section Layout

variable (m : Memory)

/-- `be16_to_cpu(country->coll_ptr) << 2`. -/
def fwdbColl (country : ℕ) : Option ℕ := return 4 * (← m.be16 (country + 2))

/-- `be16_to_cpu(rules_ptr[i])`, where `rules_ptr` follows the collection. -/
def fwdbRulePtr (coll i : ℕ) : Option ℕ := do
  let len ← m.u8 coll
  m.be16 (coll + align2 len + 2 * i)

/-- `be16_to_cpu(rules_ptr[i]) << 2`. -/
def fwdbRule (coll i : ℕ) : Option ℕ := return 4 * (← fwdbRulePtr m coll i)

/-- `be16_to_cpu(rule->wmm_ptr) << 2`. -/
def fwdbWmm (rule : ℕ) : Option ℕ := return 4 * (← m.be16 (rule + 18))

/-! ### The check -/

/-- One round of the loop of `valid_wmm`. -/
def validAc (ac : ℕ) : Option Bool := do
  let ecw ← m.u8 ac
  let aifsn ← m.u8 (ac + 1)
  let cwMin := ecw2cw (ecw / 16)
  let cwMax := ecw2cw (ecw % 16)
  return !decide (cwMax ≤ cwMin) && !decide (aifsn < 1)

/-- `valid_wmm`. -/
def validWmm (wmm : ℕ) : Option Bool :=
  (List.range (numAcs * 2)).allM fun i => validAc m (wmm + 4 * i)

/-- `valid_rule`. -/
def validRule (size rulePtr : ℕ) : Option Bool :=
  let rule := 4 * rulePtr
  if size < rule + 1 then some false
  else do
    let len ← m.u8 rule
    if len < 16 then return false
    else if 20 ≤ len then
      let wmm ← fwdbWmm m rule
      if size < wmm + fwdbWmmRuleSize then return false
      else validWmm m wmm
    else return true

/-- `valid_country`. -/
def validCountry (size country : ℕ) : Option Bool := do
  let coll ← fwdbColl m country
  if size < coll + 2 then return false
  else
    let len ← m.u8 coll
    let nRules ← m.u8 (coll + 1)
    if size < coll + align2 len + 2 * nRules then return false
    else if len < 3 then return false
    else (List.range nRules).allM fun i => do
      let rulePtr ← fwdbRulePtr m coll i
      validRule m size rulePtr

/-- The loop of `valid_regdb` from one country on. -/
def validCountries (size country : ℕ) : Option Bool :=
  if country + fwdbCountrySize ≤ size then do
    let collPtr ← m.be16 (country + 2)
    if collPtr = 0 then return true
    else
      let ok ← validCountry m size country
      if !ok then return false
      else validCountries size (country + fwdbCountrySize)
  else some true
termination_by size - country
decreasing_by simp only [fwdbCountrySize] at *; omega

/-- `valid_regdb`, with a signature that is accepted. -/
def validRegdb (size : ℕ) : Option Bool :=
  if size < fwdbHeaderSize then some false
  else do
    let magic ← m.be32 0
    if magic ≠ fwdbMagic then return false
    else
      let version ← m.be32 4
      if version ≠ fwdbVersion then return false
      else validCountries m size fwdbHeaderSize

end Layout

/-! ### What a query returns -/

/-- `struct ieee80211_wmm_ac`. -/
structure WmmAc where
  cwMin : ℕ := 0
  cwMax : ℕ := 0
  cot : ℕ := 0
  aifsn : ℕ := 0
deriving DecidableEq

/-- `struct ieee80211_wmm_rule`. -/
structure WmmRule where
  client : List WmmAc := List.replicate numAcs {}
  ap : List WmmAc := List.replicate numAcs {}
deriving DecidableEq

/-- `enum nl80211_reg_rule_flags`, as far as the database has them. -/
structure RegRuleFlags where
  noOfdm : Bool := false
  noOutdoor : Bool := false
  dfs : Bool := false
  noIr : Bool := false
  autoBw : Bool := false

/-- `struct ieee80211_reg_rule`. -/
structure RegRule where
  startFreqKhz : ℕ := 0
  endFreqKhz : ℕ := 0
  maxBandwidthKhz : ℕ := 0
  maxAntennaGain : ℕ := 0
  maxEirp : ℕ := 0
  wmmRule : WmmRule := {}
  flags : RegRuleFlags := {}
  dfsCacMs : ℕ := 0
  hasWmm : Bool := false

/-- `struct ieee80211_regdomain`. -/
structure RegDomain where
  alpha2 : ℕ × ℕ
  dfsRegion : ℕ
  regRules : List RegRule

/-- The errors of the queries. -/
inductive RegErrno
  | ENODATA
deriving DecidableEq

/-! ### The queries -/

section Queries

variable (m : Memory)

/-- The parameters of one access category, as `set_wmm_rule` copies them; `cot` is a `u16`. -/
def readAc (ac : ℕ) : Option WmmAc := do
  let ecw ← m.u8 ac
  let aifsn ← m.u8 (ac + 1)
  let cot ← m.be16 (ac + 2)
  return { cwMin := ecw2cw (ecw / 16), cwMax := ecw2cw (ecw % 16),
           cot := 1000 * cot % 2 ^ 16, aifsn := aifsn }

/-- `set_wmm_rule`. A rule that is not valid is only printed, with its range and its country. -/
def setWmmRule (country rule : ℕ) (rrule : RegRule) : Option RegRule := do
  let wmm ← fwdbWmm m rule
  let ok ← validWmm m wmm
  if !ok then
    let _start ← m.be32 (rule + 4)
    let _end ← m.be32 (rule + 8)
    let _a0 ← m.u8 country
    let _a1 ← m.u8 (country + 1)
    return rrule
  else
    let client ← (List.range numAcs).mapM fun i => readAc m (wmm + 4 * i)
    let ap ← (List.range numAcs).mapM fun i => readAc m (wmm + 4 * (numAcs + i))
    return { rrule with wmmRule := { client := client, ap := ap }, hasWmm := true }

/-- The bits of `rule->flags`. -/
def regRuleFlags (flags : ℕ) : RegRuleFlags :=
  { noOfdm := flags.testBit 0, noOutdoor := flags.testBit 1, dfs := flags.testBit 2,
    noIr := flags.testBit 3, autoBw := flags.testBit 4 }

/-- The optional fields of a rule, as `regdb_query_country` handles them. -/
def readOptional (country rule : ℕ) (rrule : RegRule) : Option RegRule := do
  let len ← m.u8 rule
  let cac ← (if 18 ≤ len then m.be16 (rule + 16) else some 0 : Option ℕ)
  let rrule' : RegRule := { rrule with dfsCacMs := 1000 * cac }
  if 20 ≤ len then setWmmRule m country rule rrule' else return rrule'

/-- One round of the loop of `regdb_query_country`. -/
def readRule (country coll i : ℕ) : Option RegRule := do
  let rule ← fwdbRule m coll i
  let start ← m.be32 (rule + 4)
  let stop ← m.be32 (rule + 8)
  let maxBw ← m.be32 (rule + 12)
  let maxEirp ← m.be16 (rule + 2)
  let flags ← m.u8 (rule + 1)
  readOptional m country rule
    { startFreqKhz := start, endFreqKhz := stop, maxBandwidthKhz := maxBw, maxEirp := maxEirp,
      flags := regRuleFlags flags }

/-- `regdb_query_country`: the regulatory domain that is handed to `reg_schedule_apply`. -/
def regdbQueryCountry (country : ℕ) : Option RegDomain := do
  let coll ← fwdbColl m country
  let nRules ← m.u8 (coll + 1)
  let a0 ← m.u8 country
  let a1 ← m.u8 (country + 1)
  let dfsRegion ← m.u8 (coll + 2)
  let regRules ← (List.range nRules).mapM fun i => readRule m country coll i
  return { alpha2 := (a0, a1), dfsRegion := dfsRegion, regRules := regRules }

/-- The loop of `__regdb_query_wmm` over the rules that are left. The frequency is an `int` that is
compared with a `u32`. -/
def regdbQueryWmmLoop (country coll : ℕ) (freq : ℤ) (rrule : RegRule) :
    List ℕ → Option (Except RegErrno RegRule)
  | [] => some (.error .ENODATA)
  | i :: is => do
    let rule ← fwdbRule m coll i
    let len ← m.u8 rule
    if len < 20 then regdbQueryWmmLoop country coll freq rrule is
    else
      let start ← m.be32 (rule + 4)
      let stop ← m.be32 (rule + 8)
      let mhz := (freq % 2 ^ 32).toNat
      if start / 1000 ≤ mhz ∧ mhz ≤ stop / 1000 then
        return .ok (← setWmmRule m country rule rrule)
      else regdbQueryWmmLoop country coll freq rrule is

/-- `__regdb_query_wmm`. -/
def regdbQueryWmm (country : ℕ) (freq : ℤ) (rrule : RegRule) :
    Option (Except RegErrno RegRule) := do
  let coll ← fwdbColl m country
  let nRules ← m.u8 (coll + 1)
  regdbQueryWmmLoop m country coll freq rrule (List.range nRules)

/-- `alpha2_equal` with the name of a country of the table. -/
def alpha2Equal (alpha2 : UInt8 × UInt8) (country : ℕ) : Option Bool := do
  let a0 ← m country
  let a1 ← m (country + 1)
  return alpha2.1 = a0 && alpha2.2 = a1

end Queries

/-- The loop of `query_regdb` and `reg_query_regdb_wmm` from one country on, with what they do with the
country that is asked for. -/
def queryCountries {α : Type} (db : List UInt8) (alpha2 : UInt8 × UInt8)
    (query : ℕ → Option (Except RegErrno α)) (country : ℕ) : Option (Except RegErrno α) :=
  match _h : (Memory.ofList db).be16 (country + 2) with
  | none => none
  | some 0 => some (.error .ENODATA)
  | some (_ + 1) =>
    match alpha2Equal (Memory.ofList db) alpha2 country with
    | none => none
    | some true => query country
    | some false => queryCountries db alpha2 query (country + fwdbCountrySize)
termination_by db.length - country
decreasing_by
  have hin : country + 2 + 2 ≤ db.length := Memory.isSome_be16.mp (by simp [_h])
  simp only [fwdbCountrySize]
  omega

/-- `query_regdb`. -/
def queryRegdb (db : List UInt8) (alpha2 : UInt8 × UInt8) : Option (Except RegErrno RegDomain) :=
  queryCountries db alpha2 (fun country => return .ok (← regdbQueryCountry (Memory.ofList db) country))
    fwdbHeaderSize

/-- `reg_query_regdb_wmm`. -/
def regQueryRegdbWmm (db : List UInt8) (alpha2 : UInt8 × UInt8) (freq : ℤ) (rrule : RegRule) :
    Option (Except RegErrno RegRule) :=
  queryCountries db alpha2 (fun country => regdbQueryWmm (Memory.ofList db) country freq rrule)
    fwdbHeaderSize

end Mac80211
