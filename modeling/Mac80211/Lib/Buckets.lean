import Mathlib.Data.List.Nodup
import Mathlib.Data.List.Flatten
import Mathlib.Data.List.GetD

/-!
# Chained tables

A fixed number of buckets, each a singly linked chain. New entries go to the front of a bucket; a
search walks the buckets in order; an update rewrites the first entry a search would have found.
Nothing relates the bucket an entry sits in to its contents.

## Main results

* `find?_push_of_not`, `find?_push_self` — inserting
* `find?_modifyFirst_self`, `find?_modifyFirst_of_disjoint` — updating
* `find?_key_eq_some_iff` — with distinct keys, searching a key is membership
* `find?_eraseIn_eq_none_iff` — what is removed is found no more
-/

namespace Buckets

open List

variable {α κ : Type*}

/-- `n` buckets of entries. -/
structure Table (α : Type*) (n : ℕ) where
  buckets : List (List α)
  /-- There are `n` of them. -/
  length_buckets : buckets.length = n

/-- Rewrite the first element satisfying `p`. -/
def modifyFirstList (p : α → Bool) (f : α → α) : List α → List α
  | [] => []
  | a :: as => if p a then f a :: as else a :: modifyFirstList p f as

/-- Rewrite the first element satisfying `p`, walking the chains in order. -/
def modifyFirstBuckets (p : α → Bool) (f : α → α) : List (List α) → List (List α)
  | [] => []
  | b :: bs => if b.any p then modifyFirstList p f b :: bs else b :: modifyFirstBuckets p f bs

@[simp] theorem modifyFirstList_cons (p : α → Bool) (f : α → α) (a : α) (as : List α) :
    modifyFirstList p f (a :: as) = if p a then f a :: as else a :: modifyFirstList p f as := rfl

theorem modifyFirstBuckets_cons (p : α → Bool) (f : α → α) (b : List α) (bs : List (List α)) :
    modifyFirstBuckets p f (b :: bs) =
      if b.any p then modifyFirstList p f b :: bs else b :: modifyFirstBuckets p f bs := rfl

theorem length_modifyFirstBuckets (p : α → Bool) (f : α → α) (bs : List (List α)) :
    (modifyFirstBuckets p f bs).length = bs.length := by
  induction bs with
  | nil => rfl
  | cons b bs ih =>
    rw [modifyFirstBuckets_cons]
    split <;> simp [ih]

/-! ### Lists -/

variable {p : α → Bool}

theorem modifyFirstList_append_of_any (f : α → α) {as : List α} (bs : List α)
    (h : as.any p = true) : modifyFirstList p f (as ++ bs) = modifyFirstList p f as ++ bs := by
  induction as with
  | nil => simp at h
  | cons a as ih =>
    by_cases ha : p a = true
    · simp [ha]
    · have has : as.any p = true := by simpa [ha] using h
      simp [ha, ih has]

theorem modifyFirstList_append_of_not_any (f : α → α) {as : List α} (bs : List α)
    (h : as.any p = false) : modifyFirstList p f (as ++ bs) = as ++ modifyFirstList p f bs := by
  induction as with
  | nil => rfl
  | cons a as ih =>
    simp only [any_cons, Bool.or_eq_false_iff] at h
    simp [h.1, ih h.2]

theorem flatten_modifyFirstBuckets (p : α → Bool) (f : α → α) (bs : List (List α)) :
    (modifyFirstBuckets p f bs).flatten = modifyFirstList p f bs.flatten := by
  induction bs with
  | nil => rfl
  | cons b bs ih =>
    rw [modifyFirstBuckets_cons]
    split
    · rename_i h
      rw [flatten_cons, flatten_cons, modifyFirstList_append_of_any f _ h]
    · rename_i h
      rw [flatten_cons, flatten_cons, ih,
        modifyFirstList_append_of_not_any f _ (by simpa using h)]

variable {f : α → α}

/-- The entry rewritten is the one the search finds, so the search finds its new contents. -/
theorem find?_modifyFirstList_self (hf : ∀ a, p (f a) = p a)
    (l : List α) : (modifyFirstList p f l).find? p = (l.find? p).map f := by
  induction l with
  | nil => rfl
  | cons a as ih =>
    by_cases ha : p a = true
    · simp [ha, hf]
    · simp [ha, ih]

variable {p q : α → Bool}

/-- A search that matches neither the old nor the new contents does not see the update. -/
theorem find?_modifyFirstList_of_disjoint (hf : ∀ a, q (f a) = q a)
    (hpq : ∀ a, p a = true → q a = false) (l : List α) :
    (modifyFirstList p f l).find? q = l.find? q := by
  induction l with
  | nil => rfl
  | cons a as ih =>
    by_cases ha : p a = true
    · simp [ha, hf, hpq a ha]
    · by_cases hq : q a = true
      · simp [ha, hq]
      · simp [ha, hq, ih]

theorem map_modifyFirstList (key : α → κ) (hf : ∀ a, key (f a) = key a)
    (p : α → Bool) (l : List α) : (modifyFirstList p f l).map key = l.map key := by
  induction l with
  | nil => rfl
  | cons a as ih =>
    by_cases ha : p a = true
    · simp [ha, hf]
    · simp [ha, ih]

theorem any_modifyFirstList (hf : ∀ a, p (f a) = p a) (l : List α) :
    (modifyFirstList p f l).any p = l.any p := by
  induction l with
  | nil => rfl
  | cons a as ih =>
    by_cases ha : p a = true
    · simp [ha, hf]
    · simp [ha, ih]

variable {f g : α → α}

/-- The second of two updates is all there is, if it overwrites the first. -/
theorem modifyFirstList_modifyFirstList (hp : ∀ a, p (g a) = p a)
    (hfg : ∀ a, f (g a) = f a) (l : List α) :
    modifyFirstList p f (modifyFirstList p g l) = modifyFirstList p f l := by
  induction l with
  | nil => rfl
  | cons a as ih =>
    by_cases ha : p a = true
    · simp [ha, hp, hfg]
    · simp [ha, ih]

theorem modifyFirstBuckets_modifyFirstBuckets
    (hp : ∀ a, p (g a) = p a) (hfg : ∀ a, f (g a) = f a) (bs : List (List α)) :
    modifyFirstBuckets p f (modifyFirstBuckets p g bs) = modifyFirstBuckets p f bs := by
  induction bs with
  | nil => rfl
  | cons b bs ih =>
    by_cases hb : b.any p = true
    · rw [modifyFirstBuckets_cons, if_pos hb, modifyFirstBuckets_cons, any_modifyFirstList hp, if_pos hb,
        modifyFirstList_modifyFirstList hp hfg, modifyFirstBuckets_cons, if_pos hb]
    · rw [modifyFirstBuckets_cons, if_neg hb, modifyFirstBuckets_cons, if_neg hb, ih, modifyFirstBuckets_cons,
        if_neg hb]

variable {l : List α}

/-- What an update can leave in the list: an old element, or the rewrite of the one a search
finds. -/
theorem mem_or_find?_of_mem_modifyFirstList {x : α}
    (h : x ∈ modifyFirstList p f l) : x ∈ l ∨ ∃ a ∈ l, l.find? p = some a ∧ x = f a := by
  induction l with
  | nil => cases h
  | cons a as ih =>
    by_cases ha : p a = true
    · simp only [modifyFirstList_cons, ha, if_true, mem_cons] at h
      rcases h with rfl | h
      · exact Or.inr ⟨a, by simp, find?_cons_of_pos ha, rfl⟩
      · exact Or.inl (by simp [h])
    · simp only [modifyFirstList_cons, ha, Bool.false_eq_true, if_false, mem_cons] at h
      rcases h with rfl | h
      · exact Or.inl (by simp)
      · rcases ih h with h | ⟨b, hb, hfind, rfl⟩
        · exact Or.inl (by simp [h])
        · refine Or.inr ⟨b, by simp [hb], ?_, rfl⟩
          rw [find?_cons_of_neg ha]
          exact hfind

variable {a : α}

/-- With distinct keys, searching for a key is membership. -/
theorem find?_key_eq_some_iff [DecidableEq κ] {key : α → κ} (h : (l.map key).Nodup) {k : κ} :
    l.find? (fun x => key x = k) = some a ↔ a ∈ l ∧ key a = k := by
  constructor
  · intro hf
    exact ⟨mem_of_find?_eq_some hf, by simpa using find?_some hf⟩
  · rintro ⟨hmem, rfl⟩
    induction l with
    | nil => simp at hmem
    | cons b bs ih =>
      rw [map_cons, nodup_cons] at h
      rcases mem_cons.mp hmem with rfl | hmem
      · simp
      · have hne : key b ≠ key a := fun hc => h.1 (hc ▸ mem_map_of_mem hmem)
        rw [find?_cons_of_neg (by simpa using hne)]
        exact ih h.2 hmem

/-! ### Removing from a list -/

theorem find?_eraseP_self (h : l.countP p = 1) : (l.eraseP p).find? p = none := by
  induction l with
  | nil => rfl
  | cons a as ih =>
    by_cases ha : p a = true
    · rw [countP_cons_of_pos ha, Nat.add_eq_right, countP_eq_zero] at h
      rw [eraseP_cons_of_pos ha]
      exact find?_eq_none.mpr h
    · rw [countP_cons_of_neg ha] at h
      rw [eraseP_cons_of_neg ha, find?_cons_of_neg ha]
      exact ih h

/-- A search that does not match what is removed does not see it go. -/
theorem find?_eraseP_of_disjoint (hpq : ∀ a, p a = true → q a = false)
    (l : List α) : (l.eraseP p).find? q = l.find? q := by
  induction l with
  | nil => rfl
  | cons a as ih =>
    by_cases ha : p a = true
    · rw [eraseP_cons_of_pos ha, find?_cons_of_neg (by simp [hpq a ha])]
    · by_cases hq : q a = true
      · rw [eraseP_cons_of_neg ha, find?_cons_of_pos hq, find?_cons_of_pos hq]
      · rw [eraseP_cons_of_neg ha, find?_cons_of_neg hq, find?_cons_of_neg hq, ih]

/-- What a search found is still found, unless it was what is removed. -/
theorem find?_eraseP_of_find? (hq : l.find? q = some a)
    (ha : ¬ p a = true) : (l.eraseP p).find? q = some a := by
  induction l with
  | nil => cases hq
  | cons b bs ih =>
    by_cases hqb : q b = true
    · rw [find?_cons_of_pos hqb] at hq
      cases hq
      rw [eraseP_cons_of_neg ha, find?_cons_of_pos hqb]
    · rw [find?_cons_of_neg hqb] at hq
      by_cases hpb : p b = true
      · rw [eraseP_cons_of_pos hpb, hq]
      · rw [eraseP_cons_of_neg hpb, find?_cons_of_neg hqb]
        exact ih hq

namespace Table

variable {n : ℕ}

/-- The empty table. -/
def empty (α : Type*) (n : ℕ) : Table α n := ⟨List.replicate n [], length_replicate⟩

/-- All entries, in the order a search meets them. -/
def entries (t : Table α n) : List α := t.buckets.flatten

/-- The first entry satisfying `p`: walk the buckets in order and each chain from its front. -/
def find? (t : Table α n) (p : α → Bool) : Option α := t.buckets.findSome? (List.find? p)

/-- Put an entry at the front of bucket `i`. -/
def push (t : Table α n) (i : ℕ) (a : α) : Table α n :=
  ⟨t.buckets.modify i (a :: ·), by rw [length_modify, t.length_buckets]⟩

/-- Rewrite the first entry satisfying `p`. -/
def modifyFirst (t : Table α n) (p : α → Bool) (f : α → α) : Table α n :=
  ⟨modifyFirstBuckets p f t.buckets, by rw [length_modifyFirstBuckets, t.length_buckets]⟩

@[simp] theorem entries_empty : (empty α n).entries = [] := by
  simp [entries, empty]

theorem find?_eq (t : Table α n) (p : α → Bool) : t.find? p = t.entries.find? p := by
  rw [find?, entries, find?_flatten]

@[simp] theorem entries_modifyFirst (t : Table α n) (p : α → Bool) (f : α → α) :
    (t.modifyFirst p f).entries = modifyFirstList p f t.entries :=
  flatten_modifyFirstBuckets p f t.buckets

variable {i : ℕ}

/-- A pushed entry splits the old entries into those met before it and those met after. -/
theorem entries_push (t : Table α n) (hi : i < n) (a : α) :
    ∃ as bs, t.entries = as ++ bs ∧ (t.push i a).entries = as ++ a :: bs := by
  have hlt : i < t.buckets.length := by rw [t.length_buckets]; exact hi
  refine ⟨(t.buckets.take i).flatten, (t.buckets.drop i).flatten, ?_, ?_⟩
  · rw [entries, ← flatten_append, take_append_drop]
  · change (t.buckets.modify i (a :: ·)).flatten = _
    rw [modify_eq_take_cons_drop hlt, flatten_append, flatten_cons,
      drop_eq_getElem_cons hlt, flatten_cons]
    simp

theorem entries_push_perm (t : Table α n) (hi : i < n) (a : α) :
    (t.push i a).entries.Perm (a :: t.entries) := by
  obtain ⟨as, bs, h, h'⟩ := t.entries_push hi a
  rw [h, h']
  exact perm_middle

theorem find?_push_of_not (t : Table α n) (hi : i < n)
    (ha : p a = false) : (t.push i a).find? p = t.find? p := by
  obtain ⟨as, bs, h, h'⟩ := t.entries_push hi a
  rw [find?_eq, find?_eq, h, h', find?_append, find?_append,
    find?_cons_of_neg (by simp [ha])]

theorem find?_push_self (t : Table α n) (hi : i < n)
    (ha : p a = true) (hnone : t.find? p = none) : (t.push i a).find? p = some a := by
  obtain ⟨as, bs, h, h'⟩ := t.entries_push hi a
  rw [find?_eq, h, find?_append, Option.or_eq_none_iff] at hnone
  rw [find?_eq, h', find?_append, hnone.1, Option.none_or, find?_cons_of_pos ha]

theorem modifyFirst_modifyFirst (t : Table α n)
    (hp : ∀ a, p (g a) = p a) (hfg : ∀ a, f (g a) = f a) :
    (t.modifyFirst p g).modifyFirst p f = t.modifyFirst p f := by
  simp only [modifyFirst, modifyFirstBuckets_modifyFirstBuckets hp hfg]

theorem find?_modifyFirst_self (t : Table α n)
    (hf : ∀ a, p (f a) = p a) : (t.modifyFirst p f).find? p = (t.find? p).map f := by
  rw [find?_eq, find?_eq, entries_modifyFirst, find?_modifyFirstList_self hf]

theorem find?_modifyFirst_of_disjoint (t : Table α n)
    (hf : ∀ a, q (f a) = q a) (hpq : ∀ a, p a = true → q a = false) :
    (t.modifyFirst p f).find? q = t.find? q := by
  rw [find?_eq, find?_eq, entries_modifyFirst, find?_modifyFirstList_of_disjoint hf hpq]

/-! ### Removing -/

/-- One chain. -/
def bucket (t : Table α n) (i : ℕ) : List α := t.buckets.getD i []

/-- Remove the first entry of bucket `i` that satisfies `p`. -/
def eraseIn (t : Table α n) (i : ℕ) (p : α → Bool) : Table α n :=
  ⟨t.buckets.modify i (List.eraseP p), by rw [length_modify, t.length_buckets]⟩

theorem mem_entries_iff {t : Table α n} : a ∈ t.entries ↔ ∃ i < n, a ∈ t.bucket i := by
  rw [entries, mem_flatten]
  constructor
  · rintro ⟨b, hb, ha⟩
    obtain ⟨i, hi, rfl⟩ := getElem_of_mem hb
    refine ⟨i, by rw [← t.length_buckets]; exact hi, ?_⟩
    rw [bucket, getD_eq_getElem _ _ hi]
    exact ha
  · rintro ⟨i, hi, ha⟩
    rw [← t.length_buckets] at hi
    rw [bucket, getD_eq_getElem _ _ hi] at ha
    exact ⟨_, getElem_mem hi, ha⟩

/-- The entries met before a bucket, those in it, and those met after it. -/
theorem entries_eraseIn (t : Table α n) (hi : i < n) (p : α → Bool) :
    ∃ as bs, t.entries = as ++ (t.bucket i ++ bs) ∧
      (t.eraseIn i p).entries = as ++ ((t.bucket i).eraseP p ++ bs) := by
  have hlt : i < t.buckets.length := by rw [t.length_buckets]; exact hi
  refine ⟨(t.buckets.take i).flatten, (t.buckets.drop (i + 1)).flatten, ?_, ?_⟩
  · rw [entries, bucket, getD_eq_getElem _ _ hlt, ← flatten_cons,
      ← drop_eq_getElem_cons hlt, ← flatten_append, take_append_drop]
  · change (t.buckets.modify i (List.eraseP p)).flatten = _
    rw [modify_eq_take_cons_drop hlt, flatten_append, flatten_cons, bucket,
      getD_eq_getElem _ _ hlt]

theorem eraseIn_of_not (t : Table α n) (h : ∀ a ∈ t.bucket i, ¬ p a = true) :
    t.eraseIn i p = t := by
  cases t with
  | mk buckets length_buckets =>
    simp only [eraseIn, mk.injEq]
    apply ext_getElem (by rw [length_modify])
    intro j hj hj'
    rw [getElem_modify]
    split
    · rename_i hij
      subst hij
      refine eraseP_of_forall_not fun a ha => h a ?_
      rw [bucket, getD_eq_getElem _ _ hj']
      exact ha
    · rfl

/-- What is removed is the first match in the bucket. -/
theorem entries_eraseIn_perm (t : Table α n) (hi : i < n)
    (ha : (t.bucket i).find? p = some a) : t.entries.Perm (a :: (t.eraseIn i p).entries) := by
  obtain ⟨as, bs, h, h'⟩ := t.entries_eraseIn hi p
  obtain ⟨hpa, cs, ds, hbucket, hcs⟩ := find?_eq_some_iff_append.mp ha
  have hcs : ∀ b ∈ cs, ¬ p b = true := fun b hb => by simpa using hcs b hb
  have herase : (t.bucket i).eraseP p = cs ++ ds := by
    rw [hbucket, eraseP_append_right _ hcs, eraseP_cons_of_pos hpa]
  rw [h, h', herase, hbucket, ← append_assoc, ← append_assoc, ← append_assoc,
    append_assoc (as ++ cs), cons_append, ← append_assoc as cs ds,
    append_assoc (as ++ cs)]
  exact perm_middle

/-- Nothing is added. -/
theorem entries_eraseIn_sublist (t : Table α n) (hi : i < n) (p : α → Bool) :
    (t.eraseIn i p).entries.Sublist t.entries := by
  obtain ⟨as, bs, h, h'⟩ := t.entries_eraseIn hi p
  rw [h, h']
  exact (List.Sublist.refl as).append (eraseP_sublist.append (List.Sublist.refl bs))

/-- If the only match of the table is in the bucket, it is the one that is removed. -/
theorem entries_eraseIn_of_countP (t : Table α n) (hi : i < n)
    (hcount : t.entries.countP p = 1) (hmem : ∃ a ∈ t.bucket i, p a = true) :
    (t.eraseIn i p).entries = t.entries.eraseP p := by
  obtain ⟨as, bs, h, h'⟩ := t.entries_eraseIn hi p
  obtain ⟨a, ha, hpa⟩ := hmem
  have hpos : 0 < (t.bucket i).countP p := countP_pos_iff.mpr ⟨a, ha, hpa⟩
  have hbefore : as.countP p = 0 := by
    rw [h, countP_append, countP_append] at hcount
    omega
  rw [h, h', eraseP_append_right _ (countP_eq_zero.mp hbefore),
    eraseP_append_left hpa _ ha]

/-- **Removing by bucket**: what a single entry satisfies is found no more if and only if the entry
is in the bucket looked at. -/
theorem find?_eraseIn_eq_none_iff (t : Table α n) (hi : i < n) (hcount : t.entries.countP p = 1) :
    (t.eraseIn i p).find? p = none ↔ ∃ a ∈ t.bucket i, p a = true := by
  constructor
  · intro hnone
    by_contra hout
    rw [t.eraseIn_of_not fun a ha hpa => hout ⟨a, ha, hpa⟩, find?_eq, find?_eq_none] at hnone
    have hzero := countP_eq_zero.mpr hnone
    omega
  · intro hmem
    rw [find?_eq, t.entries_eraseIn_of_countP hi hcount hmem]
    exact find?_eraseP_self hcount

/-! ### Entries in the bucket of their hash -/

/-- Every entry is in the bucket that `hash` gives for it. -/
def Hashed (hash : α → ℕ) (t : Table α n) : Prop := ∀ i < n, ∀ a ∈ t.bucket i, hash a = i

variable {hash : α → ℕ} {t : Table α n}

theorem hashed_empty (hash : α → ℕ) : Hashed hash (empty α n) := by
  intro i hi a ha
  rw [bucket, empty, getD_replicate _ hi] at ha
  cases ha

theorem Hashed.mem_bucket (h : Hashed hash t) (ha : a ∈ t.entries) : a ∈ t.bucket (hash a) := by
  obtain ⟨i, hi, hmem⟩ := mem_entries_iff.mp ha
  rw [h i hi a hmem]
  exact hmem

theorem bucket_modify (t : Table α n) {i j : ℕ} (hj : j < n) (f : List α → List α)
    (hlen : (t.buckets.modify i f).length = n) :
    bucket ⟨t.buckets.modify i f, hlen⟩ j = if i = j then f (t.bucket j) else t.bucket j := by
  have hj' : j < t.buckets.length := by rw [t.length_buckets]; exact hj
  rw [bucket, bucket, getD_eq_getElem _ _ (by rw [hlen]; exact hj), getElem_modify,
    getD_eq_getElem _ _ hj']

theorem Hashed.push (h : Hashed hash t) : Hashed hash (t.push (hash a) a) := by
  intro j hj b hb
  rw [Table.push, bucket_modify t hj] at hb
  split at hb
  · rename_i hij
    rcases mem_cons.mp hb with rfl | hb
    · exact hij
    · exact h j hj b hb
  · exact h j hj b hb

theorem Hashed.eraseIn (h : Hashed hash t) (i : ℕ) (p : α → Bool) : Hashed hash (t.eraseIn i p) := by
  intro j hj b hb
  rw [Table.eraseIn, bucket_modify t hj] at hb
  split at hb
  · exact h j hj b (mem_of_mem_eraseP hb)
  · exact h j hj b hb

theorem mem_getD_modifyFirstBuckets {bs : List (List α)} {x : α}
    (hx : x ∈ (modifyFirstBuckets p f bs).getD i []) :
    x ∈ bs.getD i [] ∨ ∃ a ∈ bs.getD i [], bs.flatten.find? p = some a ∧ x = f a := by
  induction bs generalizing i with
  | nil => exact .inl hx
  | cons b bs ih =>
    rw [modifyFirstBuckets_cons] at hx
    by_cases hb : b.any p = true
    · rw [if_pos hb] at hx
      cases i with
      | zero =>
        rw [getD_cons_zero] at hx
        rw [getD_cons_zero, flatten_cons]
        rcases mem_or_find?_of_mem_modifyFirstList hx with hmem | ⟨a, ha, hfind, rfl⟩
        · exact .inl hmem
        · refine .inr ⟨a, ha, ?_, rfl⟩
          rw [find?_append, hfind, Option.some_or]
      | succ i => exact .inl hx
    · rw [if_neg hb] at hx
      have hnone : b.find? p = none := by
        rw [find?_eq_none]
        intro a ha hpa
        exact hb (any_eq_true.mpr ⟨a, ha, hpa⟩)
      cases i with
      | zero => exact .inl hx
      | succ i =>
        rw [getD_cons_succ] at hx ⊢
        rw [flatten_cons, find?_append, hnone, Option.none_or]
        exact ih hx

/-- An update that leaves the hash of the entry it finds keeps entries where they belong. -/
theorem Hashed.modifyFirst (h : Hashed hash t)
    (hf : ∀ a, t.find? p = some a → hash (f a) = hash a) : Hashed hash (t.modifyFirst p f) := by
  intro i hi x hx
  rcases mem_getD_modifyFirstBuckets hx with hmem | ⟨a, ha, hfind, rfl⟩
  · exact h i hi x hmem
  · rw [hf a (by rw [find?_eq]; exact hfind)]
    exact h i hi a ha

end Table

end Buckets
