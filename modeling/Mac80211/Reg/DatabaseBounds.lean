import Mac80211.Reg.Database

/-!
# Where the queries of the regulatory database read

The check does not see that the table of countries has a terminator, nor that the fields of a rule
are inside the file. The check itself reads the WMM pointer of a rule that may not be all inside;
what it finds behind the file may be anything in `Accepted`.

## Main results

* `queriesInside_iff` — when no query leaves an accepted file
-/

namespace Mac80211

open Memory List Option

/-! ### What is asked -/

/-- `valid_regdb` accepts the file, with what happens to lie behind it. -/
def Accepted (db : List UInt8) : Prop :=
  ∃ beyond, validRegdb (extended db beyond) db.length = some true

/-- The country at index `k` of the table. -/
def countryAt (k : ℕ) : ℕ := fwdbHeaderSize + fwdbCountrySize * k

/-- The entry is in the file and is not a terminator. -/
def IsCountry (db : List UInt8) (k : ℕ) : Prop :=
  ∃ collPtr, (ofList db).be16 (countryAt k + 2) = some (collPtr + 1)

/-- The countries of the table: those before the terminator or the end of the file. -/
def Listed (db : List UInt8) (k : ℕ) : Prop := ∀ j ≤ k, IsCountry db j

/-- Every query ends and has read nothing but bytes of the file. -/
structure QueriesInside (db : List UInt8) : Prop where
  queryRegdb : ∀ alpha2, ∃ r, Mac80211.queryRegdb db alpha2 = some r
  regQueryRegdbWmm : ∀ alpha2 freq rrule, ∃ r, Mac80211.regQueryRegdbWmm db alpha2 freq rrule = some r
  regdbQueryCountry : ∀ k, Listed db k → ∃ r, Mac80211.regdbQueryCountry (ofList db) (countryAt k) = some r
  regdbQueryWmm : ∀ k, Listed db k → ∀ freq rrule,
    ∃ r, Mac80211.regdbQueryWmm (ofList db) (countryAt k) freq rrule = some r

/-! ### What is missing -/

/-- The table has a terminator that is inside the file, or every country code is in it. -/
def TableEnds (db : List UInt8) : Prop :=
  (∃ k, (ofList db).be16 (countryAt k + 2) = some 0) ∨
    ∀ alpha2, ∃ k, Listed db k ∧ alpha2Equal (ofList db) alpha2 (countryAt k) = some true

/-- The rules of a country. -/
def IsRuleOf (db : List UInt8) (k rule : ℕ) : Prop :=
  ∃ coll nRules i, fwdbColl (ofList db) (countryAt k) = some coll ∧
    (ofList db).u8 (coll + 1) = some nRules ∧ i < nRules ∧ fwdbRule (ofList db) coll i = some rule

/-- Where the last field ends that a rule of this length has. -/
def ruleFieldsEnd (len : ℕ) : ℕ := if len < 18 then 16 else if len < 20 then 18 else 20

/-- The fields that a rule announces are in the file. -/
def RulesInside (db : List UInt8) : Prop :=
  ∀ k rule len, Listed db k → IsRuleOf db k rule → (ofList db).u8 rule = some len →
    rule + ruleFieldsEnd len ≤ db.length

/-! ### The table -/

section Table

variable {db : List UInt8} {k : ℕ}

theorem countryAt_succ (k : ℕ) : countryAt k + fwdbCountrySize = countryAt (k + 1) := by
  simp only [countryAt, fwdbCountrySize]
  omega

theorem IsCountry.le (h : IsCountry db k) : countryAt k + 4 ≤ db.length := by
  obtain ⟨_, h⟩ := h
  exact isSome_be16.mp (by rw [h]; rfl)

theorem Listed.isCountry (h : Listed db k) : IsCountry db k := h k (Nat.le_refl k)

theorem Listed.extend (h : ∀ j < k, IsCountry db j) (hk : IsCountry db k) : Listed db k := by
  intro j hj
  rcases Nat.lt_or_eq_of_le hj with hlt | rfl
  · exact h j hlt
  · exact hk

theorem isSome_alpha2Equal {alpha2 : UInt8 × UInt8} (h : countryAt k + 4 ≤ db.length) :
    (alpha2Equal (ofList db) alpha2 (countryAt k)).isSome := by
  rw [alpha2Equal, isSome_bind₂, ofList, ofList, isSome_getElem?, isSome_getElem?]
  omega

variable {α : Type} {alpha2 : UInt8 × UInt8} {query : ℕ → Option (Except RegErrno α)}

theorem queryCountries_of_isCountry (h : IsCountry db k) :
    ∃ eq, alpha2Equal (ofList db) alpha2 (countryAt k) = some eq ∧
      queryCountries db alpha2 query (countryAt k) =
        if eq then query (countryAt k) else queryCountries db alpha2 query (countryAt (k + 1)) := by
  obtain ⟨eq, heq⟩ := isSome_iff_exists.mp (@isSome_alpha2Equal db k alpha2 h.le)
  obtain ⟨collPtr, hcoll⟩ := h
  refine ⟨eq, heq, ?_⟩
  rw [queryCountries, hcoll]
  dsimp only
  rw [heq, countryAt_succ]
  cases eq <;> rfl

/-- The loop ends at an entry that is a terminator or the country that is asked for, if the query of
each country it meets does. -/
theorem isSome_queryCountries {t : ℕ} (ht : countryAt t + 4 ≤ db.length)
    (hstop : (ofList db).be16 (countryAt t + 2) = some 0 ∨
      alpha2Equal (ofList db) alpha2 (countryAt t) = some true)
    (hquery : ∀ j, Listed db j → (query (countryAt j)).isSome) (hk : k ≤ t)
    (hbefore : ∀ j < k, IsCountry db j) : (queryCountries db alpha2 query (countryAt k)).isSome := by
  induction hn : t - k generalizing k with
  | zero =>
    obtain rfl : k = t := by omega
    rcases hstop with hzero | halpha
    · rw [queryCountries, hzero]
      rfl
    · obtain ⟨collPtr, hcoll⟩ := isSome_iff_exists.mp
        (isSome_be16.mpr (show countryAt k + 2 + 2 ≤ db.length from ht))
      cases collPtr with
      | zero =>
        rw [queryCountries, hcoll]
        rfl
      | succ collPtr =>
        have hc : IsCountry db k := ⟨collPtr, hcoll⟩
        obtain ⟨eq, heq, hloop⟩ := @queryCountries_of_isCountry db k α alpha2 query hc
        obtain rfl : eq = true := some.inj (heq.symm.trans halpha)
        rw [hloop, if_pos rfl]
        exact hquery k (Listed.extend hbefore hc)
  | succ n ih =>
    have hin : countryAt k + 2 + 2 ≤ db.length := by
      simp only [countryAt, fwdbCountrySize] at ht ⊢
      omega
    obtain ⟨collPtr, hcoll⟩ := isSome_iff_exists.mp (isSome_be16.mpr hin)
    cases collPtr with
    | zero =>
      rw [queryCountries, hcoll]
      rfl
    | succ collPtr =>
      have hc : IsCountry db k := ⟨collPtr, hcoll⟩
      obtain ⟨eq, -, hloop⟩ := @queryCountries_of_isCountry db k α alpha2 query hc
      rw [hloop]
      cases eq with
      | true => exact hquery k (Listed.extend hbefore hc)
      | false =>
        refine ih (by omega) (fun j hj => ?_) (by omega)
        rcases Nat.lt_succ_iff_lt_or_eq.mp hj with hj | rfl
        · exact hbefore j hj
        · exact hc

/-- A loop that ends inside the file has met a terminator or the country that was asked for. -/
theorem stop_of_isSome_queryCountries (hbefore : ∀ j < k, IsCountry db j)
    (h : (queryCountries db alpha2 query (countryAt k)).isSome) :
    (∃ t, (ofList db).be16 (countryAt t + 2) = some 0) ∨
      ∃ t, Listed db t ∧ alpha2Equal (ofList db) alpha2 (countryAt t) = some true := by
  induction hn : db.length - countryAt k using Nat.strongRecOn generalizing k with
  | _ n ih =>
    cases hcoll : (ofList db).be16 (countryAt k + 2) with
    | none =>
      rw [queryCountries, hcoll] at h
      cases h
    | some collPtr =>
      cases collPtr with
      | zero => exact .inl ⟨k, hcoll⟩
      | succ collPtr =>
        have hc : IsCountry db k := ⟨collPtr, hcoll⟩
        obtain ⟨eq, heq, hloop⟩ := @queryCountries_of_isCountry db k α alpha2 query hc
        cases eq with
        | true => exact .inr ⟨k, Listed.extend hbefore hc, heq⟩
        | false =>
          rw [hloop, if_neg Bool.false_ne_true] at h
          have hle := hc.le
          have hnext := countryAt_succ k
          simp only [fwdbCountrySize] at hnext
          refine ih _ ?_ (fun j hj => ?_) h rfl
          · omega
          · rcases Nat.lt_succ_iff_lt_or_eq.mp hj with hj | rfl
            · exact hbefore j hj
            · exact hc

/-- **The loop over the table**: the queries for all country codes stay inside the file exactly when
the table ends, if those of the countries do. -/
theorem queryCountries_inside_iff (hquery : ∀ j, Listed db j → (query (countryAt j)).isSome) :
    (∀ alpha2, (queryCountries db alpha2 query fwdbHeaderSize).isSome) ↔ TableEnds db := by
  have hnone : ∀ j < 0, IsCountry db j := fun j hj => absurd hj (Nat.not_lt_zero j)
  constructor
  · intro h
    by_cases hz : ∃ t, (ofList db).be16 (countryAt t + 2) = some 0
    · exact .inl hz
    · refine .inr fun alpha2 => ?_
      exact (@stop_of_isSome_queryCountries db 0 α alpha2 query hnone (h alpha2)).resolve_left hz
  · rintro (⟨t, ht⟩ | hall) alpha2
    · have hin : countryAt t + 4 ≤ db.length := isSome_be16.mp (by rw [ht]; rfl)
      exact isSome_queryCountries hin (.inl ht) hquery (Nat.zero_le t) hnone
    · obtain ⟨t, hlisted, heq⟩ := hall alpha2
      exact isSome_queryCountries hlisted.isCountry.le (.inr heq) hquery (Nat.zero_le t) hnone

end Table

/-! ### The check -/

section Check

variable {db : List UInt8} {beyond : ℕ → UInt8} {k : ℕ}

theorem validCountries_of_isCountry
    (h : validCountries (extended db beyond) db.length (countryAt k) = some true)
    (hk : IsCountry db k) : validCountry (extended db beyond) db.length (countryAt k) = some true ∧
      validCountries (extended db beyond) db.length (countryAt (k + 1)) = some true := by
  have hle : countryAt k + 2 + 2 ≤ db.length := hk.le
  obtain ⟨collPtr, hcoll⟩ := hk
  rw [validCountries, if_pos (show countryAt k + fwdbCountrySize ≤ db.length from hle),
    be16_extended hle, hcoll] at h
  replace h : (validCountry (extended db beyond) db.length (countryAt k)).bind
    (fun ok => if !ok then some false else
      validCountries (extended db beyond) db.length (countryAt k + fwdbCountrySize)) = some true := h
  obtain ⟨ok, hok, h⟩ := bind_eq_some_iff.mp h
  cases ok with
  | true => exact ⟨hok, by rw [← countryAt_succ]; exact h⟩
  | false => cases h

theorem validCountry_of_listed (h : validRegdb (extended db beyond) db.length = some true)
    (hk : Listed db k) : validCountry (extended db beyond) db.length (countryAt k) = some true := by
  have hfirst : validCountries (extended db beyond) db.length (countryAt 0) = some true := by
    rw [validRegdb] at h
    split at h
    · cases h
    · obtain ⟨magic, -, h⟩ := bind_eq_some_iff.mp h
      split at h
      · cases h
      · obtain ⟨version, -, h⟩ := bind_eq_some_iff.mp h
        split at h
        · cases h
        · exact h
  have hall : ∀ j ≤ k, validCountries (extended db beyond) db.length (countryAt j) = some true := by
    intro j hj
    induction j with
    | zero => exact hfirst
    | succ j ih => exact (validCountries_of_isCountry (ih (by omega)) (hk j (by omega))).2
  exact (validCountries_of_isCountry (hall k (Nat.le_refl k)) hk.isCountry).1

/-- What is known of a rule that has passed the check. -/
structure CheckedRule (db : List UInt8) (beyond : ℕ → UInt8) (rule len : ℕ) : Prop where
  read_len : (ofList db).u8 rule = some len
  mandatory : 16 ≤ len
  wmm : 20 ≤ len → ∃ wmm, fwdbWmm (extended db beyond) rule = some wmm ∧ wmm + 32 ≤ db.length

theorem CheckedRule.of_validRule {rulePtr : ℕ}
    (h : validRule (extended db beyond) db.length rulePtr = some true) :
    ∃ len, CheckedRule db beyond (4 * rulePtr) len := by
  rw [validRule] at h
  split at h
  · cases h
  · rename_i hsize
    rw [u8_extended (by omega)] at h
    obtain ⟨len, hlen, h⟩ := bind_eq_some_iff.mp h
    split at h
    · cases h
    · rename_i hmin
      refine ⟨len, hlen, by omega, fun hopt => ?_⟩
      rw [if_pos hopt] at h
      obtain ⟨wmm, hwmm, h⟩ := bind_eq_some_iff.mp h
      split at h
      · cases h
      · rename_i hin
        exact ⟨wmm, hwmm, by simp only [fwdbWmmRuleSize] at hin; omega⟩

/-- What is known of a country that has passed the check. -/
structure CheckedCountry (db : List UInt8) (beyond : ℕ → UInt8) (country coll nRules : ℕ) : Prop where
  inside : country + 4 ≤ db.length
  read_coll : fwdbColl (ofList db) country = some coll
  read_nRules : (ofList db).u8 (coll + 1) = some nRules
  dfsRegion : coll + 3 ≤ db.length
  rule : ∀ i < nRules, ∃ rule len, fwdbRule (ofList db) coll i = some rule ∧
    CheckedRule db beyond rule len

theorem CheckedCountry.of_validCountry {country : ℕ} (hin : country + 4 ≤ db.length)
    (h : validCountry (extended db beyond) db.length country = some true) :
    ∃ coll nRules, CheckedCountry db beyond country coll nRules := by
  rw [validCountry, fwdbColl, be16_extended (show country + 2 + 2 ≤ db.length from hin)] at h
  obtain ⟨coll, hcoll, h⟩ := bind_eq_some_iff.mp h
  split at h
  · cases h
  · rename_i hbase
    rw [u8_extended (by omega), u8_extended (by omega)] at h
    obtain ⟨len, hlen, h⟩ := bind_eq_some_iff.mp h
    obtain ⟨nRules, hn, h⟩ := bind_eq_some_iff.mp h
    split at h
    · cases h
    · rename_i hfit
      split at h
      · cases h
      · rename_i hmin
        have halign : align2 len ≤ len + 1 ∧ len ≤ align2 len := by
          simp only [align2]
          omega
        refine ⟨coll, nRules, hin, hcoll, hn, by omega, fun i hi => ?_⟩
        have hi' := (allM_eq_some_true _ _).mp h i (mem_range.mpr hi)
        have hptr : fwdbRulePtr (extended db beyond) coll i = fwdbRulePtr (ofList db) coll i := by
          rw [fwdbRulePtr, fwdbRulePtr, u8_extended (by omega), hlen]
          exact be16_extended (by omega)
        rw [hptr] at hi'
        obtain ⟨rulePtr, hread, hrule⟩ := bind_eq_some_iff.mp hi'
        obtain ⟨rlen, hchecked⟩ := CheckedRule.of_validRule hrule
        exact ⟨4 * rulePtr, rlen, bind_of_eq hread _, hchecked⟩

theorem CheckedCountry.of_listed (h : validRegdb (extended db beyond) db.length = some true)
    (hk : Listed db k) : ∃ coll nRules, CheckedCountry db beyond (countryAt k) coll nRules :=
  CheckedCountry.of_validCountry hk.isCountry.le (validCountry_of_listed h hk)

end Check

/-! ### The rules -/

section Rules

variable {db : List UInt8} {beyond : ℕ → UInt8} {country coll nRules rule len i : ℕ}

theorem isSome_validWmm {wmm : ℕ} (h : wmm + 32 ≤ db.length) : (validWmm (ofList db) wmm).isSome := by
  refine isSome_allM fun i hi => ?_
  have hi : i < 8 := mem_range.mp hi
  rw [validAc, isSome_bind₂, isSome_u8, isSome_u8]
  omega

theorem isSome_readAc {ac : ℕ} : (readAc (ofList db) ac).isSome ↔ ac + 4 ≤ db.length := by
  rw [readAc, isSome_bind fun ecw => isSome_bind₂ _ _ _, isSome_u8, isSome_u8, isSome_be16]
  omega

/-- The WMM parameters of a checked rule, once the pointer to them is in the file. -/
theorem CheckedRule.isSome_setWmmRule (h : CheckedRule db beyond rule len) (hopt : 20 ≤ len)
    (hin : rule + 20 ≤ db.length) (hcountry : country + 4 ≤ db.length) (rrule : RegRule) :
    (setWmmRule (ofList db) country rule rrule).isSome := by
  obtain ⟨wmm, hwmm, hwin⟩ := h.wmm hopt
  rw [fwdbWmm, be16_extended (by omega), ← fwdbWmm] at hwmm
  obtain ⟨ok, hok⟩ := isSome_iff_exists.mp (isSome_validWmm hwin)
  have hacs : ∀ n ≤ numAcs,
      ((List.range numAcs).mapM fun i => readAc (ofList db) (wmm + 4 * (n + i))).isSome := by
    intro n hn
    refine (isSome_mapM _ _).mpr fun i hi => isSome_readAc.mpr ?_
    have hi : i < numAcs := mem_range.mp hi
    simp only [numAcs] at hn hi
    omega
  rw [setWmmRule, bind_of_eq hwmm, bind_of_eq hok]
  cases ok with
  | true =>
    have hclient := hacs 0 (Nat.zero_le _)
    simp only [Nat.zero_add] at hclient
    exact (isSome_bind₂ _ _ _).mpr ⟨hclient, hacs numAcs (Nat.le_refl _)⟩
  | false =>
    refine (isSome_bind fun _ => isSome_bind fun _ => isSome_bind₂ _ _ _).mpr ?_
    rw [isSome_be32, isSome_be32, isSome_u8, isSome_u8]
    omega

theorem add_ruleFieldsEnd_le : rule + ruleFieldsEnd len ≤ db.length ↔
    rule + 16 ≤ db.length ∧ (18 ≤ len → rule + 18 ≤ db.length) ∧ (20 ≤ len → rule + 20 ≤ db.length) := by
  rw [ruleFieldsEnd]
  split
  · omega
  · split <;> omega

theorem CheckedRule.isSome_readOptional (h : CheckedRule db beyond rule len)
    (hcountry : country + 4 ≤ db.length) (rrule : RegRule) :
    (readOptional (ofList db) country rule rrule).isSome ↔
      (18 ≤ len → rule + 18 ≤ db.length) ∧ (20 ≤ len → rule + 20 ≤ db.length) := by
  rw [readOptional, bind_of_eq h.read_len]
  by_cases h20 : 20 ≤ len
  · simp only [if_pos h20, if_pos (show 18 ≤ len by omega)]
    constructor
    · intro hsome
      obtain ⟨_, hread⟩ := isSome_iff_exists.mp hsome
      obtain ⟨_, _, hset⟩ := bind_eq_some_iff.mp hread
      obtain ⟨_, hwmm, _⟩ := bind_eq_some_iff.mp hset
      obtain ⟨_, hptr, _⟩ := bind_eq_some_iff.mp hwmm
      have hin : rule + 18 + 2 ≤ db.length := isSome_be16.mp (by rw [hptr]; rfl)
      omega
    · rintro ⟨-, hin⟩
      obtain ⟨cac, hcac⟩ := isSome_iff_exists.mp
        (isSome_be16.mpr (show rule + 16 + 2 ≤ db.length by have := hin h20; omega))
      rw [bind_of_eq hcac]
      exact h.isSome_setWmmRule h20 (hin h20) hcountry _
  · by_cases h18 : 18 ≤ len
    · simp only [if_neg h20, if_pos h18]
      rw [isSome_bind (P := True) fun _ => by simp, and_true, isSome_be16]
      omega
    · simp [h18, h20]

/-- **A rule is read without leaving the file exactly when its fields are inside.** -/
theorem CheckedRule.isSome_readRule (h : CheckedRule db beyond rule len)
    (hrule : fwdbRule (ofList db) coll i = some rule) (hcountry : country + 4 ≤ db.length) :
    (readRule (ofList db) country coll i).isSome ↔ rule + ruleFieldsEnd len ≤ db.length := by
  rw [readRule, bind_of_eq hrule, isSome_bind fun _ => isSome_bind fun _ => isSome_bind fun _ =>
    isSome_bind fun _ => isSome_bind fun _ => h.isSome_readOptional hcountry _, isSome_be32, isSome_be32,
    isSome_be32, isSome_be16, isSome_u8, add_ruleFieldsEnd_le]
  omega

theorem isSome_regdbQueryWmmLoop (freq : ℤ) (rrule : RegRule) (hcountry : country + 4 ≤ db.length)
    {is : List ℕ} (his : ∀ i ∈ is, ∃ rule len, fwdbRule (ofList db) coll i = some rule ∧
      CheckedRule db beyond rule len ∧ rule + ruleFieldsEnd len ≤ db.length) :
    (regdbQueryWmmLoop (ofList db) country coll freq rrule is).isSome := by
  induction is with
  | nil => rfl
  | cons i is ih =>
    rw [forall_mem_cons] at his
    obtain ⟨⟨rule, len, hrule, hchecked, hin⟩, his⟩ := his
    rw [regdbQueryWmmLoop, bind_of_eq hrule, bind_of_eq hchecked.read_len]
    split
    · exact ih his
    · rename_i hlen
      have hlen : 20 ≤ len := by omega
      obtain ⟨hin16, -, hin20⟩ := add_ruleFieldsEnd_le.mp hin
      obtain ⟨start, hstart⟩ := isSome_iff_exists.mp
        (isSome_be32.mpr (show rule + 4 + 4 ≤ db.length by omega))
      obtain ⟨stop, hstop⟩ := isSome_iff_exists.mp
        (isSome_be32.mpr (show rule + 8 + 4 ≤ db.length by omega))
      rw [bind_of_eq hstart, bind_of_eq hstop]
      dsimp only
      split
      · rw [isSome_bind (P := True) fun _ => by simp, and_true]
        exact hchecked.isSome_setWmmRule hlen (hin20 hlen) hcountry rrule
      · exact ih his

theorem CheckedCountry.isSome_regdbQueryCountry (h : CheckedCountry db beyond country coll nRules) :
    (regdbQueryCountry (ofList db) country).isSome ↔ ∀ i < nRules, ∀ rule len,
      fwdbRule (ofList db) coll i = some rule → (ofList db).u8 rule = some len →
        rule + ruleFieldsEnd len ≤ db.length := by
  have hrules : ((List.range nRules).mapM fun i => readRule (ofList db) country coll i).isSome ↔
      ∀ i < nRules, ∀ rule len, fwdbRule (ofList db) coll i = some rule →
        (ofList db).u8 rule = some len → rule + ruleFieldsEnd len ≤ db.length := by
    rw [isSome_mapM]
    refine forall_congr' fun i => ?_
    rw [mem_range]
    refine imp_congr_right fun hi => ?_
    obtain ⟨rule, len, hrule, hchecked⟩ := h.rule i hi
    rw [hchecked.isSome_readRule hrule h.inside]
    constructor
    · intro hin rule' len' hrule' hlen'
      obtain rfl : rule = rule' := some.inj (hrule.symm.trans hrule')
      obtain rfl : len = len' := some.inj (hchecked.read_len.symm.trans hlen')
      exact hin
    · intro hall
      exact hall rule len hrule hchecked.read_len
  have hin := h.inside
  have hdfs := h.dfsRegion
  rw [regdbQueryCountry, bind_of_eq h.read_coll, bind_of_eq h.read_nRules,
    isSome_bind fun _ => isSome_bind fun _ => isSome_bind₂ _ _ _, hrules, isSome_u8, isSome_u8, isSome_u8]
  constructor
  · rintro ⟨-, -, -, hall⟩
    exact hall
  · intro hall
    exact ⟨by omega, by omega, by omega, hall⟩

end Rules

/-! ### All queries -/

section All

variable {db : List UInt8} {beyond : ℕ → UInt8} {k : ℕ}

theorem isSome_regdbQueryCountry_iff (h : validRegdb (extended db beyond) db.length = some true) :
    (∀ k, Listed db k → (regdbQueryCountry (ofList db) (countryAt k)).isSome) ↔ RulesInside db := by
  constructor
  · rintro hall k rule len hk ⟨coll, nRules, i, hcoll, hn, hi, hrule⟩ hlen
    obtain ⟨coll', nRules', hc⟩ := CheckedCountry.of_listed h hk
    obtain rfl : coll = coll' := some.inj (hcoll.symm.trans hc.read_coll)
    obtain rfl : nRules = nRules' := some.inj (hn.symm.trans hc.read_nRules)
    exact hc.isSome_regdbQueryCountry.mp (hall k hk) i hi rule len hrule hlen
  · intro hrules k hk
    obtain ⟨coll, nRules, hc⟩ := CheckedCountry.of_listed h hk
    refine hc.isSome_regdbQueryCountry.mpr fun i hi rule len hrule hlen => ?_
    exact hrules k rule len hk ⟨coll, nRules, i, hc.read_coll, hc.read_nRules, hi, hrule⟩ hlen

theorem isSome_regdbQueryWmm (h : validRegdb (extended db beyond) db.length = some true)
    (hrules : RulesInside db) (hk : Listed db k) (freq : ℤ) (rrule : RegRule) :
    (regdbQueryWmm (ofList db) (countryAt k) freq rrule).isSome := by
  obtain ⟨coll, nRules, hc⟩ := CheckedCountry.of_listed h hk
  rw [regdbQueryWmm, bind_of_eq hc.read_coll, bind_of_eq hc.read_nRules]
  refine @isSome_regdbQueryWmmLoop db beyond (countryAt k) coll freq rrule hc.inside _ fun i hi => ?_
  have hi : i < nRules := mem_range.mp hi
  obtain ⟨rule, len, hrule, hchecked⟩ := hc.rule i hi
  refine ⟨rule, len, hrule, hchecked, ?_⟩
  exact hrules k rule len hk ⟨coll, nRules, i, hc.read_coll, hc.read_nRules, hi, hrule⟩ hchecked.read_len

end All

theorem isSome_queryRegdb_iff {db : List UInt8}
    (h : ∀ k, Listed db k → (regdbQueryCountry (ofList db) (countryAt k)).isSome) :
    (∀ alpha2, (queryRegdb db alpha2).isSome) ↔ TableEnds db := by
  refine queryCountries_inside_iff fun k hk => ?_
  rw [isSome_bind (P := True) fun _ => by simp, and_true]
  exact h k hk

/-- **The queries of an accepted file stay inside it exactly when the table of countries ends inside
it and the rules do.** -/
theorem queriesInside_iff (db : List UInt8) (h : Accepted db) :
    QueriesInside db ↔ TableEnds db ∧ RulesInside db := by
  obtain ⟨beyond, h⟩ := h
  constructor
  · intro hq
    have hcountry : ∀ k, Listed db k → (regdbQueryCountry (ofList db) (countryAt k)).isSome :=
      fun k hk => isSome_iff_exists.mpr (hq.regdbQueryCountry k hk)
    refine ⟨?_, (isSome_regdbQueryCountry_iff h).mp hcountry⟩
    exact (isSome_queryRegdb_iff hcountry).mp fun alpha2 =>
      isSome_iff_exists.mpr (hq.queryRegdb alpha2)
  · rintro ⟨htable, hrules⟩
    have hcountry := (isSome_regdbQueryCountry_iff h).mpr hrules
    have hwmm := fun k hk => @isSome_regdbQueryWmm db beyond k h hrules hk
    constructor
    · intro alpha2
      exact isSome_iff_exists.mp ((isSome_queryRegdb_iff hcountry).mpr htable alpha2)
    · intro alpha2 freq rrule
      refine isSome_iff_exists.mp ?_
      exact (queryCountries_inside_iff fun k hk => hwmm k hk freq rrule).mpr htable alpha2
    · exact fun k hk => isSome_iff_exists.mp (hcountry k hk)
    · exact fun k hk freq rrule => isSome_iff_exists.mp (hwmm k hk freq rrule)

/-! ### Accepted files -/

/-- `RGDB`, version 20. -/
def fwdbHeader : List UInt8 := [0x52, 0x47, 0x44, 0x42, 0, 0, 0, 20]

/-- One country with one rule, and a terminator. -/
def smallDb : List UInt8 :=
  fwdbHeader ++ [0x55, 0x53, 0, 4, 0, 0, 0, 0] ++ [3, 1, 1, 0, 0, 6, 0, 0] ++
    [16, 0, 7, 208, 0, 36, 159, 0, 0, 37, 144, 176, 0, 0, 156, 64]

/-- The same file, cut off behind the first byte of the rule. -/
def cutDb : List UInt8 := smallDb.take 25

theorem accepted_smallDb : Accepted smallDb := ⟨fun _ => 0, by decide +kernel⟩

theorem tableEnds_smallDb : TableEnds smallDb := .inl ⟨1, by decide⟩

theorem eq_zero_of_listed_smallDb {k : ℕ} (h : Listed smallDb k) : k = 0 := by
  by_contra hk
  obtain ⟨collPtr, hc⟩ := h 1 (by omega)
  have hzero : (ofList smallDb).be16 (countryAt 1 + 2) = some 0 := by decide
  rw [hzero] at hc
  cases hc

theorem rulesInside_smallDb : RulesInside smallDb := by
  rintro k rule len hk ⟨coll, nRules, i, hcoll, hn, hi, hrule⟩ hlen
  obtain rfl := eq_zero_of_listed_smallDb hk
  obtain rfl : 16 = coll := some.inj hcoll
  obtain rfl : 1 = nRules := some.inj hn
  obtain rfl : i = 0 := by omega
  obtain rfl : 24 = rule := some.inj hrule
  obtain rfl : 16 = len := some.inj hlen
  decide

theorem queriesInside_smallDb : Accepted smallDb ∧ QueriesInside smallDb :=
  ⟨accepted_smallDb,
    (queriesInside_iff smallDb accepted_smallDb).mpr ⟨tableEnds_smallDb, rulesInside_smallDb⟩⟩

/-- **Accepted files that the queries leave.** A header alone has no terminator; a rule of which only
the length is there is read as a whole. -/
theorem queries_leave_accepted_files :
    (Accepted fwdbHeader ∧ queryRegdb fwdbHeader (0x55, 0x53) = none ∧
      regQueryRegdbWmm fwdbHeader (0x55, 0x53) 2412 {} = none ∧ ¬ QueriesInside fwdbHeader) ∧
    (Accepted cutDb ∧ queryRegdb cutDb (0x55, 0x53) = none ∧ ¬ QueriesInside cutDb) := by
  have hheader : queryRegdb fwdbHeader (0x55, 0x53) = none := by decide +kernel
  have hcut : queryRegdb cutDb (0x55, 0x53) = none := by decide +kernel
  refine ⟨⟨⟨fun _ => 0, by decide +kernel⟩, hheader, by decide +kernel, fun hq => ?_⟩,
    ⟨⟨fun _ => 0, by decide +kernel⟩, hcut, fun hq => ?_⟩⟩
  · obtain ⟨r, hr⟩ := hq.queryRegdb (0x55, 0x53)
    cases hheader.symm.trans hr
  · obtain ⟨r, hr⟩ := hq.queryRegdb (0x55, 0x53)
    cases hcut.symm.trans hr

end Mac80211
