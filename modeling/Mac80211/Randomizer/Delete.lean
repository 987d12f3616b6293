import Mac80211.Lib.Reach
import Mac80211.Randomizer.Table

/-!
# Deleting from the address tables

`delete_entry` looks for an entry in the bucket of its random address, where `insert_entry` put it;
`update_entry_by_base` writes another one into the entry and leaves it in its bucket.

## Main results

* `deleteWorks_iff`, `deleteWorks_of_reach` — what is deleted is found no more, if updates keep the
  bucket
-/

namespace Mac80211

open Buckets Machine

section

variable {n : ℕ}

/-- `update_entry_by_random`, `s_update_entry_by_random`. -/
def updateEntryByRandom (t : MacTable n) (random base : Mac) : MacTable n :=
  match searchByRandomMac t random with
  | some _ => t.modifyFirst (fun e => e.randomMac = random) fun e => { e with baseMac := base }
  | none => t

/-- `delete_entry`, `s_delete_entry`: only the bucket of the random address is searched. -/
def deleteEntry (t : MacTable n) (random : Mac) : MacTable n :=
  t.eraseIn (hashFunction n random) fun e => e.randomMac = random

end

/-- The operations of `mac_translation_table.h` and `mac_pair_station.h`, in any order. -/
inductive MacTableOp
  /-- `insert_entry`; `ok` is whether `kmalloc` gave memory. -/
  | insert (ok : Bool) (base random : Mac)
  /-- `update_entry_by_base`. -/
  | updateByBase (ok : Bool) (base random : Mac)
  /-- `update_entry_by_random`. -/
  | updateByRandom (random base : Mac)
  /-- `delete_entry`. -/
  | delete (random : Mac)

/-- One operation on `translation_table`. -/
def macTableStep (t : TranslationTable) : MacTableOp → Option (TranslationTable × List Unit)
  | .insert ok base random => some (insertEntry ok t base random, [])
  | .updateByBase ok base random => some (updateEntryByBase ok t base random, [])
  | .updateByRandom random base => some (updateEntryByRandom t random base, [])
  | .delete random => some (deleteEntry t random, [])

/-- One operation on `s_translation_table`. -/
def sMacTableStep (t : PairTable) : MacTableOp → Option (PairTable × List Unit)
  | .insert ok base random => some (insertEntry ok t base random, [])
  | .updateByBase _ base random => some (sUpdateEntryByBase t base random, [])
  | .updateByRandom random base => some (updateEntryByRandom t random base, [])
  | .delete random => some (deleteEntry t random, [])

section

variable {n : ℕ}

/-- What becomes of the entries when the one with random address `random` is deleted. -/
structure DeleteWorks (t : MacTable n) (random : Mac) : Prop where
  /-- The entry is found no more. -/
  gone : searchByRandomMac (deleteEntry t random) random = none
  /-- Every other entry is there, -/
  others : ∀ e ∈ t.entries, e.randomMac ≠ random → e ∈ (deleteEntry t random).entries
  /-- is found by its random address, -/
  byRandom : ∀ r ≠ random, searchByRandomMac (deleteEntry t random) r = searchByRandomMac t r
  /-- and by its base address. -/
  byBase : ∀ b e, searchByBaseMac t b = some e → e.randomMac ≠ random →
    searchByBaseMac (deleteEntry t random) b = some e

/-- Exactly one entry has this random address. -/
def SingleRandom (t : MacTable n) (random : Mac) : Prop :=
  t.entries.countP (fun e => e.randomMac = random) = 1
deriving Decidable

/-- The entry with this random address is in the bucket of the address. -/
def InBucket (t : MacTable n) (random : Mac) : Prop :=
  ∃ e ∈ t.bucket (hashFunction n random), e.randomMac = random

/-- An update of an entry leaves the bucket of its random address as it is. -/
def KeepsBucket (t : MacTable n) (_ : List Unit) : MacTableOp → Prop
  | .updateByBase _ base random => ∀ e ∈ searchByBaseMac t base,
      hashFunction n random = hashFunction n e.randomMac
  | _ => True

instance (t : MacTable n) (os : List Unit) : (op : MacTableOp) → Decidable (KeepsBucket t os op)
  | .updateByBase _ base random => inferInstanceAs (Decidable (∀ e ∈ searchByBaseMac t base,
      hashFunction n random = hashFunction n e.randomMac))
  | .insert _ _ _ | .updateByRandom _ _ | .delete _ => .isTrue trivial

/-! ### One deletion -/

variable {t : MacTable n}

/-- **A deletion works if and only if the entry is in the bucket that is searched.** -/
theorem deleteWorks_iff [NeZero n] {random : Mac} (h : SingleRandom t random) :
    DeleteWorks t random ↔ InBucket t random := by
  have hgone := t.find?_eraseIn_eq_none_iff (hashFunction_lt random) h
  simp only [decide_eq_true_eq] at hgone
  constructor
  · intro hd
    exact hgone.mp hd.gone
  · intro hin
    have hentries : (deleteEntry t random).entries =
        t.entries.eraseP fun e => e.randomMac = random :=
      t.entries_eraseIn_of_countP (hashFunction_lt random) h (by simpa [InBucket] using hin)
    refine ⟨hgone.mpr hin, fun e he hr => ?_, fun r hr => ?_, fun b e he hr => ?_⟩
    · rw [hentries, List.mem_eraseP_of_neg (by simpa using hr)]
      exact he
    · rw [searchByRandomMac, searchByRandomMac, Table.find?_eq, Table.find?_eq, hentries,
        find?_eraseP_of_disjoint]
      intro a ha
      simp only [decide_eq_true_eq, decide_eq_false_iff_not] at ha ⊢
      rw [ha]
      exact hr.symm
    · rw [searchByBaseMac, Table.find?_eq] at he ⊢
      rw [hentries]
      exact find?_eraseP_of_find? he (by simpa using hr)

/-! ### Runs -/

/-- Every entry is in the bucket of its random address. -/
abbrev RandomHashed (t : MacTable n) : Prop := t.Hashed fun e => hashFunction n e.randomMac

theorem RandomHashed.inBucket (h : RandomHashed t) {random : Mac}
    (hs : SingleRandom t random) : InBucket t random := by
  have hpos : 0 < t.entries.countP fun e => decide (e.randomMac = random) := by
    rw [SingleRandom] at hs
    omega
  obtain ⟨e, he, hr⟩ := List.countP_pos_iff.mp hpos
  have hr : e.randomMac = random := by simpa using hr
  refine ⟨e, ?_, hr⟩
  rw [← hr]
  exact h.mem_bucket he

theorem RandomHashed.insertEntry (h : RandomHashed t) (ok : Bool)
    (base random : Mac) : RandomHashed (insertEntry ok t base random) := by
  rw [Mac80211.insertEntry]
  split
  · exact h.push (a := ⟨base, random⟩)
  · exact h

theorem RandomHashed.modifyFirst (h : RandomHashed t) {base random : Mac}
    (hk : ∀ e ∈ searchByBaseMac t base, hashFunction n random = hashFunction n e.randomMac) :
    RandomHashed
      (t.modifyFirst (fun e => e.baseMac = base) fun e => { e with randomMac := random }) :=
  Table.Hashed.modifyFirst h fun e he => hk e he

theorem RandomHashed.updateEntryByRandom (h : RandomHashed t) (random base : Mac) :
    RandomHashed (updateEntryByRandom t random base) := by
  rw [Mac80211.updateEntryByRandom]
  split
  · exact Table.Hashed.modifyFirst h fun _ _ => rfl
  · exact h

theorem RandomHashed.deleteEntry (h : RandomHashed t) (random : Mac) :
    RandomHashed (deleteEntry t random) := Table.Hashed.eraseIn h _ _

end

theorem RandomHashed.macTableStep {t t' : TranslationTable} {op : MacTableOp} {os o : List Unit}
    (h : RandomHashed t) (hk : KeepsBucket t os op) (hs : macTableStep t op = some (t', o)) :
    RandomHashed t' := by
  cases op with
  | insert ok base random =>
    cases hs
    exact h.insertEntry ok base random
  | updateByBase ok base random =>
    cases hs
    rw [updateEntryByBase]
    split
    · exact h.modifyFirst hk
    · exact h.insertEntry ok base random
  | updateByRandom random base =>
    cases hs
    exact h.updateEntryByRandom random base
  | delete random =>
    cases hs
    exact h.deleteEntry random

theorem RandomHashed.sMacTableStep {t t' : PairTable} {op : MacTableOp} {os o : List Unit}
    (h : RandomHashed t) (hk : KeepsBucket t os op) (hs : sMacTableStep t op = some (t', o)) :
    RandomHashed t' := by
  cases op with
  | insert ok base random =>
    cases hs
    exact h.insertEntry ok base random
  | updateByBase ok base random =>
    cases hs
    rw [sUpdateEntryByBase]
    split
    · exact h.modifyFirst hk
    · exact h
  | updateByRandom random base =>
    cases hs
    exact h.updateEntryByRandom random base
  | delete random =>
    cases hs
    exact h.deleteEntry random

/-- Deleting `random` works in every table, of either kind, that a run reaches whose operations meet a
condition. -/
def DeletesFound (C : ∀ {n : ℕ}, MacTable n → List Unit → MacTableOp → Prop) (random : Mac) : Prop :=
  (∀ t os, Reach macTableStep C (Table.empty _ _) t os →
    SingleRandom t random → DeleteWorks t random) ∧
  ∀ t os, Reach sMacTableStep C (Table.empty _ _) t os →
    SingleRandom t random → DeleteWorks t random

/-- **Delete removes what search finds**, if no update moves an entry's random address into another
bucket. -/
theorem deleteWorks_of_reach (random : Mac) : DeletesFound KeepsBucket random := by
  constructor
  · intro t os hr hs
    have hinv : RandomHashed t := by
      refine hr.invariant (fun t _ => RandomHashed t) (Table.hashed_empty _) ?_
      intro t os op t' o h hk hstep
      exact h.macTableStep hk hstep
    exact (deleteWorks_iff hs).mpr (hinv.inBucket hs)
  · intro t os hr hs
    have hinv : RandomHashed t := by
      refine hr.invariant (fun t _ => RandomHashed t) (Table.hashed_empty _) ?_
      intro t os op t' o h hk hstep
      exact h.sMacTableStep hk hstep
    exact (deleteWorks_iff hs).mpr (hinv.inBucket hs)

/-- A station is met for the first time, and its address changes in the next period. -/
def contactAndRotate (base random : Mac) : List MacTableOp :=
  [.insert true base base, .updateByBase true base random]

/-- The table after it. -/
def rotatedTable (base random : Mac) : TranslationTable :=
  updateEntryByBase true (insertEntry true (Table.empty _ _) base base) base random

theorem run_contactAndRotate (base random : Mac) :
    run macTableStep (Table.empty _ _) (contactAndRotate base random) =
      some (rotatedTable base random, []) := rfl

/-- The new address has the hash of the old one. -/
theorem deleteWorks_rotatedTable :
    DeleteWorks (rotatedTable #v[2, 0, 0, 0, 0, 1] #v[2, 0, 0, 0, 0, 101])
      #v[2, 0, 0, 0, 0, 101] := by
  have hmeets : Meets macTableStep KeepsBucket (Table.empty _ _) []
      (contactAndRotate #v[2, 0, 0, 0, 0, 1] #v[2, 0, 0, 0, 0, 101]) := by decide +kernel
  exact (deleteWorks_of_reach _).1 _ _ (Reach.of_run .init hmeets (run_contactAndRotate _ _))
    (by decide +kernel)

/-- **The deletion that finds nothing.** After an ordinary rotation the entry is not in the bucket of
its new address. -/
theorem updated_entry_is_not_deleted : ¬ ∀ random, DeletesFound (fun _ _ _ => True) random := by
  intro h
  have hreach := Reach.of_run_init
    (run_contactAndRotate #v[2, 0, 0, 0, 0, 1] #v[2, 0, 0, 0, 0, 2])
  have hworks := (h #v[2, 0, 0, 0, 0, 2]).1 _ _ hreach (by decide +kernel)
  have hfound : searchByRandomMac (deleteEntry (rotatedTable #v[2, 0, 0, 0, 0, 1]
      #v[2, 0, 0, 0, 0, 2]) #v[2, 0, 0, 0, 0, 2]) #v[2, 0, 0, 0, 0, 2] ≠ none := by decide +kernel
  exact hfound hworks.gone

end Mac80211
