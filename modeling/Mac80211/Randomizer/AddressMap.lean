import Mac80211.Randomizer.Rewrite

/-!
# The address tables as maps

`handle_random_mac` inserts an address it does not find, and the generators update entries by their
base address. Under these operations a table is a finite map that is described by the history alone;
buckets do not show.

## Main results

* `tables_map_latest`
-/

namespace Mac80211

open Buckets

/-- What the stack does to a table, if memory can be allocated. -/
inductive StackOp
  /-- `insert_entry`, where `search_by_base_mac` returns `NULL`. -/
  | contact (base random : Mac)
  /-- `update_entry_by_base`. -/
  | assign (base random : Mac)

section

variable {n : ℕ}

/-- `if (!search_by_base_mac(base)) insert_entry(base, random)`. -/
def contactEntry (t : MacTable n) (base random : Mac) : MacTable n :=
  match searchByBaseMac t base with
  | none => insertEntry true t base random
  | some _ => t

/-- One operation on `translation_table`. -/
def stackStep (op : StackOp) (t : TranslationTable) : TranslationTable :=
  match op with
  | .contact base random => contactEntry t base random
  | .assign base random => updateEntryByBase true t base random

/-- One operation on `s_translation_table`. -/
def sStackStep (op : StackOp) (t : PairTable) : PairTable :=
  match op with
  | .contact base random => contactEntry t base random
  | .assign base random => sUpdateEntryByBase t base random

/-! ### Histories -/

namespace StackOp

/-- The base address an operation is about. -/
def base : StackOp → Mac
  | contact b _ | assign b _ => b

/-- Afterwards there is an entry. `upsert` is whether updates insert what they do not find. -/
def inserts (upsert : Bool) : StackOp → Bool
  | contact _ _ => true
  | assign _ _ => upsert

end StackOp

/-- The address was inserted at some time in the past. -/
def Inserted (upsert : Bool) (past : List StackOp) (b : Mac) : Prop :=
  ∃ op ∈ past, op.inserts upsert = true ∧ op.base = b
deriving Decidable

/-- The random address that was assigned to `b` last; the past is listed newest first. A contact
assigns only at the first time. -/
def lastAssigned (upsert : Bool) : List StackOp → Mac → Option Mac
  | [], _ => none
  | .assign base random :: past, b => if b = base then some random else lastAssigned upsert past b
  | .contact base random :: past, b =>
    if b = base ∧ ¬ Inserted upsert past b then some random else lastAssigned upsert past b

/-- A map is what a history makes of it: defined on what was inserted, and there the last one wins. -/
structure Latest (upsert : Bool) (past : List StackOp) (m : Mac → Option Mac) : Prop where
  absent : ∀ b, m b = none ↔ ¬ Inserted upsert past b
  latest : ∀ b, Inserted upsert past b → m b = lastAssigned upsert past b

/-- A table holds what its history says, once. -/
structure MapsLatest (upsert : Bool) (past : List StackOp) (t : MacTable n) : Prop where
  nodup : BaseNodup t
  /-- A search by base address finds the random address assigned last, and nothing for an address
  that was never inserted. -/
  map : Latest upsert past (lookup t)

variable {past : List StackOp} {op : StackOp} {b : Mac}

theorem inserted_cons {upsert : Bool} : Inserted upsert (op :: past) b ↔
      op.inserts upsert = true ∧ op.base = b ∨ Inserted upsert past b := by
  simp only [Inserted, List.mem_cons, exists_eq_or_imp]

section Latest

variable {upsert : Bool} {past : List StackOp} {m m' : Mac → Option Mac} {base random : Mac}

theorem latest_nil (upsert : Bool) : Latest upsert [] fun _ => none where
  absent b := by simp [Inserted]
  latest b h := by simp [Inserted] at h

theorem Latest.contact (h : Latest upsert past m)
    (hm : ∀ b, m' b = if b = base ∧ m base = none then some random else m b) :
    Latest upsert (.contact base random :: past) m' := by
  constructor
  · intro b
    rw [hm, inserted_cons]
    by_cases hb : b = base
    · subst hb
      by_cases hnone : m b = none
      · simp [hnone, StackOp.inserts, StackOp.base]
      · simp [hnone, StackOp.inserts, StackOp.base]
    · rw [if_neg (fun hc => hb hc.1), h.absent]
      simp [StackOp.base, Ne.symm hb]
  · intro b hins
    rw [hm, lastAssigned]
    by_cases hb : b = base
    · subst hb
      by_cases hpast : Inserted upsert past b
      · have hsome : m b ≠ none := fun hc => (h.absent b).mp hc hpast
        rw [if_neg (fun hc => hsome hc.2), if_neg (fun hc => hc.2 hpast)]
        exact h.latest b hpast
      · rw [if_pos ⟨rfl, (h.absent b).mpr hpast⟩, if_pos ⟨rfl, hpast⟩]
    · rw [if_neg (fun hc => hb hc.1), if_neg (fun hc => hb hc.1)]
      rcases inserted_cons.mp hins with ⟨-, hbase⟩ | hpast
      · exact absurd hbase.symm hb
      · exact h.latest b hpast

theorem Latest.assign (h : Latest upsert past m)
    (hm : ∀ b, m' b = if b = base ∧ (upsert = true ∨ m base ≠ none) then some random else m b) :
    Latest upsert (.assign base random :: past) m' := by
  constructor
  · intro b
    rw [hm, inserted_cons]
    by_cases hb : b = base
    · subst hb
      by_cases hu : upsert = true
      · simp [hu, StackOp.inserts, StackOp.base]
      · obtain rfl := Bool.eq_false_of_not_eq_true hu
        by_cases hnone : m b = none
        · have hpast := (h.absent b).mp hnone
          simp [hnone, StackOp.inserts, hpast]
        · have hpast : Inserted false past b := not_not.mp fun hc => hnone ((h.absent b).mpr hc)
          simp [hnone, hpast]
    · rw [if_neg (fun hc => hb hc.1), h.absent]
      simp [StackOp.base, Ne.symm hb]
  · intro b hins
    rw [hm, lastAssigned]
    by_cases hb : b = base
    · subst hb
      have hwrite : upsert = true ∨ m b ≠ none := by
        rcases inserted_cons.mp hins with ⟨hu, -⟩ | hpast
        · exact .inl hu
        · exact .inr fun hc => (h.absent b).mp hc hpast
      rw [if_pos ⟨rfl, hwrite⟩, if_pos rfl]
    · rw [if_neg (fun hc => hb hc.1), if_neg hb]
      rcases inserted_cons.mp hins with ⟨-, hbase⟩ | hpast
      · exact absurd hbase.symm hb
      · exact h.latest b hpast

end Latest

/-! ### Single operations -/

theorem lookup_contactEntry [NeZero n] (t : MacTable n) (base random b : Mac) :
    lookup (contactEntry t base random) b =
      if b = base ∧ lookup t base = none then some random else lookup t b := by
  rw [contactEntry]
  split
  · rename_i hnone
    have hnone := lookup_eq_none_iff.mpr hnone
    rw [lookup_insertEntry random hnone]
    simp [hnone]
  · rename_i e he
    rw [if_neg]
    rintro ⟨-, hnone⟩
    rw [lookup_eq_none_iff, he] at hnone
    cases hnone

theorem BaseNodup.contactEntry [NeZero n] {t : MacTable n} (h : BaseNodup t) (base random : Mac) :
    BaseNodup (contactEntry t base random) := by
  rw [Mac80211.contactEntry]
  split
  · rename_i hnone
    exact h.insertEntry random true (lookup_eq_none_iff.mpr hnone)
  · exact h

/-- Two tables that agree on the random address of `b` agree on its entry. -/
theorem searchByBaseMac_eq_of_lookup {t t' : MacTable n} (h : lookup t' b = lookup t b) :
    searchByBaseMac t' b = searchByBaseMac t b := by
  rw [lookup, lookup] at h
  cases he : searchByBaseMac t b with
  | none =>
    rw [he] at h
    simpa using h
  | some e =>
    rw [he, Option.map_some] at h
    obtain ⟨e', he', hr⟩ := Option.map_eq_some_iff.mp h
    rw [he', Option.some.injEq]
    have hb := (baseMac_of_searchByBaseMac he').trans (baseMac_of_searchByBaseMac he).symm
    cases e
    cases e'
    simp only at hb hr
    rw [hb, hr]

theorem MapsLatest.stackStep {t : TranslationTable}
    (h : MapsLatest true past t) (op : StackOp) : MapsLatest true (op :: past) (stackStep op t) := by
  cases op with
  | contact base random =>
    exact ⟨h.nodup.contactEntry base random, h.map.contact fun b => lookup_contactEntry t base random b⟩
  | assign base random =>
    refine ⟨h.nodup.updateEntryByBase true base random, h.map.assign fun b => ?_⟩
    rw [Mac80211.stackStep, lookup_updateEntryByBase]
    simp

theorem MapsLatest.sStackStep {t : PairTable} (h : MapsLatest false past t) (op : StackOp) :
    MapsLatest false (op :: past) (sStackStep op t) := by
  cases op with
  | contact base random =>
    exact ⟨h.nodup.contactEntry base random, h.map.contact fun b => lookup_contactEntry t base random b⟩
  | assign base random =>
    refine ⟨h.nodup.sUpdateEntryByBase base random, h.map.assign fun b => ?_⟩
    rw [Mac80211.sStackStep, lookup_sUpdateEntryByBase]
    by_cases hb : b = base
    · subst hb
      cases hl : lookup t b <;> simp
    · rw [if_neg hb, if_neg fun hc => hb hc.1]

theorem mapsLatest_nil (upsert : Bool) : MapsLatest upsert [] (Table.empty MacEntry n) where
  nodup := baseNodup_empty
  map := by
    convert latest_nil upsert with b
    rw [lookup_empty]

theorem searchByBaseMac_stackStep_of_ne (t : TranslationTable)
    (hb : b ≠ op.base) : searchByBaseMac (stackStep op t) b = searchByBaseMac t b := by
  apply searchByBaseMac_eq_of_lookup
  cases op with
  | contact base random =>
    rw [stackStep, lookup_contactEntry, if_neg fun hc => hb hc.1]
  | assign base random =>
    exact (lookup_updateEntryByBase t base random b).trans (if_neg hb)

theorem searchByBaseMac_sStackStep_of_ne (t : PairTable)
    (hb : b ≠ op.base) : searchByBaseMac (sStackStep op t) b = searchByBaseMac t b := by
  apply searchByBaseMac_eq_of_lookup
  cases op with
  | contact base random =>
    rw [sStackStep, lookup_contactEntry, if_neg fun hc => hb hc.1]
  | assign base random =>
    exact (lookup_sUpdateEntryByBase t base random b).trans (if_neg hb)

end

/-! ### Runs -/

/-- `translation_table` after a history, newest operation first. -/
def tableAfter (past : List StackOp) : TranslationTable := past.foldr stackStep (Table.empty _ _)

/-- `s_translation_table` after a history. -/
def sTableAfter (past : List StackOp) : PairTable := past.foldr sStackStep (Table.empty _ _)

theorem mapsLatest_tableAfter (past : List StackOp) : MapsLatest true past (tableAfter past) := by
  induction past with
  | nil => exact mapsLatest_nil true
  | cons op past ih => exact ih.stackStep op

theorem mapsLatest_sTableAfter (past : List StackOp) : MapsLatest false past (sTableAfter past) := by
  induction past with
  | nil => exact mapsLatest_nil false
  | cons op past ih => exact ih.sStackStep op

/-- **The tables are finite maps**: a base address has at most one entry, a search gives the address
assigned last, or nothing, and one more operation changes no other search. -/
theorem tables_map_latest (past : List StackOp) :
    (MapsLatest true past (tableAfter past) ∧ ∀ op b, b ≠ op.base →
      searchByBaseMac (tableAfter (op :: past)) b = searchByBaseMac (tableAfter past) b) ∧
    MapsLatest false past (sTableAfter past) ∧ ∀ op b, b ≠ op.base →
      searchByBaseMac (sTableAfter (op :: past)) b = searchByBaseMac (sTableAfter past) b :=
  ⟨⟨mapsLatest_tableAfter past, fun _ _ hb => searchByBaseMac_stackStep_of_ne _ hb⟩,
    mapsLatest_sTableAfter past, fun _ _ hb => searchByBaseMac_sStackStep_of_ne _ hb⟩

/-- A station that is met and rotated, while another one is met. -/
theorem tables_map_latest_two :
    searchByBaseMac (tableAfter [.assign #v[2, 0, 0, 0, 0, 1] #v[2, 0, 0, 0, 0, 9],
        .contact #v[2, 0, 0, 0, 0, 2] #v[2, 0, 0, 0, 0, 2],
        .contact #v[2, 0, 0, 0, 0, 1] #v[2, 0, 0, 0, 0, 1]]) #v[2, 0, 0, 0, 0, 2] =
      searchByBaseMac (tableAfter [.contact #v[2, 0, 0, 0, 0, 2] #v[2, 0, 0, 0, 0, 2],
        .contact #v[2, 0, 0, 0, 0, 1] #v[2, 0, 0, 0, 0, 1]]) #v[2, 0, 0, 0, 0, 2] :=
  (tables_map_latest _).1.2 (.assign #v[2, 0, 0, 0, 0, 1] #v[2, 0, 0, 0, 0, 9])
    #v[2, 0, 0, 0, 0, 2] (by decide)

end Mac80211
