import Mac80211.Lib.Buckets
import Mac80211.Frame

/-!
# The address tables

`mac_translation_table.c` and `mac_pair_station.c`: chained hash tables from base to random
addresses, with 100 and 10 buckets. They are the same code but for one thing: `update_entry_by_base`
inserts an entry it does not find, `s_update_entry_by_base` does not. Both searches walk the whole
table.

## Main definitions

* `TranslationTable`, `PairTable`

## Main results

* `lookup_updateEntryByBase`, `lookup_sUpdateEntryByBase`
-/

namespace Mac80211

open Buckets

/-- `struct mac_translation_entry`, and `struct mac_pair` alike. -/
structure MacEntry where
  baseMac : Mac
  randomMac : Mac
deriving DecidableEq

/-- An address table with `n` buckets. -/
abbrev MacTable (n : ℕ) := Table MacEntry n

/-- `translation_table`. -/
abbrev TranslationTable := MacTable 100

/-- `s_translation_table`. -/
abbrev PairTable := MacTable 10

variable {n : ℕ}

/-- `hash_function`: shift-and-add over the six bytes in 32-bit arithmetic. -/
def hashFunction (n : ℕ) (mac : Mac) : ℕ :=
  mac.toList.foldl (fun hash b => (hash * 2 ^ 5 + b.toNat) % 2 ^ 32) 0 % n

theorem hashFunction_lt [NeZero n] (mac : Mac) : hashFunction n mac < n :=
  Nat.mod_lt _ (Nat.pos_of_neZero n)

/-- `search_by_base_mac`. -/
def searchByBaseMac (t : MacTable n) (mac : Mac) : Option MacEntry :=
  t.find? fun e => e.baseMac = mac

/-- `search_by_random_mac`. -/
def searchByRandomMac (t : MacTable n) (mac : Mac) : Option MacEntry :=
  t.find? fun e => e.randomMac = mac

/-- `insert_entry`. The bucket is chosen by the random address; `ok` is whether `kmalloc` gave
memory. -/
def insertEntry (ok : Bool) (t : MacTable n) (base random : Mac) : MacTable n :=
  if ok then t.push (hashFunction n random) ⟨base, random⟩ else t

/-- `update_entry_by_base`: an absent entry is inserted. -/
def updateEntryByBase (ok : Bool) (t : TranslationTable) (base random : Mac) : TranslationTable :=
  match searchByBaseMac t base with
  | some _ => t.modifyFirst (fun e => e.baseMac = base) fun e => { e with randomMac := random }
  | none => insertEntry ok t base random

/-- `s_update_entry_by_base`: an absent entry stays absent. -/
def sUpdateEntryByBase (t : PairTable) (base random : Mac) : PairTable :=
  match searchByBaseMac t base with
  | some _ => t.modifyFirst (fun e => e.baseMac = base) fun e => { e with randomMac := random }
  | none => t

/-! ### The table as a map -/

/-- The random address in use for a base address, if the table has one. -/
def lookup (t : MacTable n) (base : Mac) : Option Mac :=
  (searchByBaseMac t base).map MacEntry.randomMac

variable {t : MacTable n} {base : Mac}

theorem lookup_eq_none_iff : lookup t base = none ↔ searchByBaseMac t base = none := by
  simp [lookup]

@[simp] theorem lookup_empty (base : Mac) : lookup (Table.empty MacEntry n) base = none := by
  simp [lookup, searchByBaseMac, Table.find?_eq]

variable {e : MacEntry} {mac : Mac}

theorem baseMac_of_searchByBaseMac (h : searchByBaseMac t mac = some e) : e.baseMac = mac := by
  rw [searchByBaseMac, Table.find?_eq] at h
  simpa using List.find?_some h

theorem randomMac_of_searchByRandomMac
    (h : searchByRandomMac t mac = some e) : e.randomMac = mac := by
  rw [searchByRandomMac, Table.find?_eq] at h
  simpa using List.find?_some h

theorem mem_entries_of_searchByRandomMac
    (h : searchByRandomMac t mac = some e) : e ∈ t.entries := by
  rw [searchByRandomMac, Table.find?_eq] at h
  exact List.mem_of_find?_eq_some h

theorem mem_entries_of_searchByBaseMac (h : searchByBaseMac t mac = some e) : e ∈ t.entries := by
  rw [searchByBaseMac, Table.find?_eq] at h
  exact List.mem_of_find?_eq_some h

theorem lookup_insertEntry [NeZero n] (random : Mac) (h : lookup t base = none) (b : Mac) :
    lookup (insertEntry true t base random) b = if b = base then some random else lookup t b := by
  simp only [insertEntry, if_true, lookup, searchByBaseMac]
  split
  · rename_i hb
    subst hb
    rw [Table.find?_push_self t (hashFunction_lt random) (by simp)]
    · rfl
    · exact lookup_eq_none_iff.mp h
  · rename_i hb
    rw [Table.find?_push_of_not t (hashFunction_lt random) (by simpa using fun hc => hb hc.symm)]

theorem lookup_modifyFirst (random : Mac) (h : lookup t base ≠ none) (b : Mac) :
    lookup (t.modifyFirst (fun e => e.baseMac = base) fun e => { e with randomMac := random }) b =
      if b = base then some random else lookup t b := by
  simp only [lookup, searchByBaseMac]
  split
  · rename_i hb
    subst hb
    rw [Table.find?_modifyFirst_self t (by simp)]
    obtain ⟨e, he⟩ := Option.ne_none_iff_exists'.mp (mt lookup_eq_none_iff.mpr h)
    rw [searchByBaseMac] at he
    simp [he]
  · rename_i hb
    rw [Table.find?_modifyFirst_of_disjoint t (by simp)]
    simp only [decide_eq_true_eq, decide_eq_false_iff_not]
    rintro a rfl hc
    exact hb hc.symm

/-- **`update_entry_by_base` is a map update**, as long as the allocation it may need succeeds. -/
theorem lookup_updateEntryByBase (t : TranslationTable) (base random b : Mac) :
    lookup (updateEntryByBase true t base random) b =
      if b = base then some random else lookup t b := by
  rw [updateEntryByBase]
  split
  · rename_i e he
    exact lookup_modifyFirst random (by simp [lookup, he]) b
  · rename_i he
    exact lookup_insertEntry random (lookup_eq_none_iff.mpr he) b

theorem lookup_updateEntryByBase_of_ok (ok : Bool) (t : TranslationTable) (base random b : Mac) :
    lookup (updateEntryByBase ok t base random) b =
      if b = base ∧ (ok = true ∨ lookup t base ≠ none) then some random else lookup t b := by
  cases ok with
  | true => simpa using lookup_updateEntryByBase t base random b
  | false =>
    rw [updateEntryByBase]
    cases he : searchByBaseMac t base with
    | none => simp [insertEntry, lookup, he]
    | some e =>
      have hl : lookup t base ≠ none := by simp [lookup, he]
      rw [lookup_modifyFirst random hl]
      simp [hl]

/-- **`s_update_entry_by_base` updates only what is there.** -/
theorem lookup_sUpdateEntryByBase (t : PairTable) (base random b : Mac) :
    lookup (sUpdateEntryByBase t base random) b =
      if b = base then (lookup t base).map fun _ => random else lookup t b := by
  rw [sUpdateEntryByBase]
  split
  · rename_i e he
    rw [lookup_modifyFirst random (by simp [lookup, he]) b]
    simp [lookup, he]
  · rename_i he
    split
    · rename_i hb
      subst hb
      simp [lookup, he]
    · rfl

theorem sUpdateEntryByBase_sUpdateEntryByBase (t : PairTable) (base random random' : Mac) :
    sUpdateEntryByBase (sUpdateEntryByBase t base random) base random' =
      sUpdateEntryByBase t base random' := by
  cases he : searchByBaseMac t base with
  | none => simp only [sUpdateEntryByBase, he]
  | some e =>
    have hfind := t.find?_modifyFirst_self (p := fun e => decide (e.baseMac = base))
      (f := fun e => { e with randomMac := random }) fun _ => rfl
    have he' : searchByBaseMac (sUpdateEntryByBase t base random) base =
        some { e with randomMac := random } := by
      simp only [sUpdateEntryByBase, he]
      rw [searchByBaseMac, hfind]
      exact congrArg (Option.map _) he
    rw [sUpdateEntryByBase, he']
    simp only [sUpdateEntryByBase, he]
    exact t.modifyFirst_modifyFirst (fun _ => rfl) fun _ => rfl

section Cases

variable {base random b r : Mac}

theorem lookup_insertEntry_cases [NeZero n] {ok : Bool}
    (h : lookup t base = none) (hl : lookup (insertEntry ok t base random) b = some r) :
    b = base ∧ r = random ∨ lookup t b = some r := by
  cases ok with
  | false => exact .inr hl
  | true =>
    rw [lookup_insertEntry random h] at hl
    split at hl
    · rename_i hb
      exact .inl ⟨hb, (Option.some.inj hl).symm⟩
    · exact .inr hl

theorem lookup_updateEntryByBase_cases {t : TranslationTable} {ok : Bool}
    (hl : lookup (updateEntryByBase ok t base random) b = some r) :
    b = base ∧ r = random ∨ lookup t b = some r := by
  rw [updateEntryByBase] at hl
  split at hl
  · rename_i e he
    rw [lookup_modifyFirst random (by simp [lookup, he])] at hl
    split at hl
    · rename_i hb
      exact .inl ⟨hb, (Option.some.inj hl).symm⟩
    · exact .inr hl
  · rename_i he
    exact lookup_insertEntry_cases (lookup_eq_none_iff.mpr he) hl

theorem lookup_sUpdateEntryByBase_cases {t : PairTable}
    (hl : lookup (sUpdateEntryByBase t base random) b = some r) :
    b = base ∧ r = random ∨ lookup t b = some r := by
  rw [lookup_sUpdateEntryByBase] at hl
  split at hl
  · rename_i hb
    obtain ⟨r', -, rfl⟩ := Option.map_eq_some_iff.mp hl
    exact .inl ⟨hb, rfl⟩
  · exact .inr hl

end Cases

/-! ### One entry per base address -/

/-- Every base address has at most one entry. -/
def BaseNodup (t : MacTable n) : Prop := (t.entries.map MacEntry.baseMac).Nodup

theorem baseNodup_empty : BaseNodup (Table.empty MacEntry n) := by simp [BaseNodup]

theorem BaseNodup.insertEntry [NeZero n] (h : BaseNodup t)
    (random : Mac) (ok : Bool) (hb : lookup t base = none) :
    BaseNodup (insertEntry ok t base random) := by
  rw [Mac80211.insertEntry]
  split
  · have hperm := (t.entries_push_perm (hashFunction_lt random) ⟨base, random⟩).map
      MacEntry.baseMac
    rw [BaseNodup, hperm.nodup_iff, List.map_cons, List.nodup_cons]
    refine ⟨fun hmem => ?_, h⟩
    obtain ⟨e, he, hbe⟩ := List.mem_map.mp hmem
    have hnone := lookup_eq_none_iff.mp hb
    rw [searchByBaseMac, Table.find?_eq, List.find?_eq_none] at hnone
    exact hnone e he (by simpa using hbe)
  · exact h

theorem BaseNodup.modifyFirst (h : BaseNodup t) (base random : Mac) : BaseNodup
      (t.modifyFirst (fun e => e.baseMac = base) fun e => { e with randomMac := random }) := by
  have hmap := map_modifyFirstList MacEntry.baseMac
    (f := fun e => { e with randomMac := random }) (fun _ => rfl) (fun e => e.baseMac = base)
    t.entries
  rw [BaseNodup, Table.entries_modifyFirst, hmap]
  exact h

theorem BaseNodup.updateEntryByBase {t : TranslationTable} (h : BaseNodup t) (ok : Bool)
    (base random : Mac) : BaseNodup (updateEntryByBase ok t base random) := by
  rw [Mac80211.updateEntryByBase]
  split
  · exact h.modifyFirst base random
  · rename_i he
    exact h.insertEntry random ok (lookup_eq_none_iff.mpr he)

theorem BaseNodup.sUpdateEntryByBase {t : PairTable} (h : BaseNodup t) (base random : Mac) :
    BaseNodup (sUpdateEntryByBase t base random) := by
  rw [Mac80211.sUpdateEntryByBase]
  split
  · exact h.modifyFirst base random
  · exact h

theorem BaseNodup.mem_entries_iff (h : BaseNodup t) :
    e ∈ t.entries ↔ lookup t e.baseMac = some e.randomMac := by
  have hkey := find?_key_eq_some_iff h (k := e.baseMac) (a := e)
  rw [← Table.find?_eq] at hkey
  constructor
  · intro he
    have hs : searchByBaseMac t e.baseMac = some e := hkey.mpr ⟨he, rfl⟩
    rw [lookup, hs]
    rfl
  · intro hl
    obtain ⟨e', he', hr⟩ := Option.map_eq_some_iff.mp hl
    have hb := baseMac_of_searchByBaseMac he'
    have heq : e' = e := by
      cases e; cases e'
      simp only at hb hr
      rw [hb, hr]
    rw [← heq]
    exact mem_entries_of_searchByBaseMac he'

end Mac80211
