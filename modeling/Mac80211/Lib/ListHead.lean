import Mathlib.Data.List.Nodup

/-!
# Circular doubly linked lists

`struct list_head` of the kernel: a pair of pointers in each object, as the head of a list and as
the link of a member. An object whose pointers lead to itself is an empty list, and a member of
none.

## Main definitions

* `Ring` — the pointers make one cycle through a head and its members

## Main results

* `Ring.delInit`, `Ring.addTail`, `Ring.walk_eq`
-/

namespace ListHead

open List Function

variable {ι σ : Type*} [DecidableEq ι]

/-- The pointers of all objects. -/
structure Heads (ι : Type*) where
  next : ι → ι
  prev : ι → ι

namespace Heads

variable (h : Heads ι)

/-- `INIT_LIST_HEAD`. -/
def init (a : ι) : Heads ι where
  next := Function.update h.next a a
  prev := Function.update h.prev a a

/-- `list_add_tail`, in the order in which `__list_add` writes. -/
def addTail (n t : ι) : Heads ι where
  next := Function.update (Function.update h.next n t) (h.prev t) n
  prev := Function.update (Function.update h.prev t n) n (h.prev t)

/-- `list_del_init`. -/
def delInit (a : ι) : Heads ι where
  next := Function.update (Function.update h.next (h.prev a) (h.next a)) a a
  prev := Function.update (Function.update h.prev (h.next a) (h.prev a)) a a

/-- The pointers lead from `a` through `xs` to `b`, and back. -/
def Seg : ι → List ι → ι → Prop
  | a, [], b => h.next a = b ∧ h.prev b = a
  | a, x :: xs, b => (h.next a = x ∧ h.prev x = a) ∧ Seg x xs b

/-- **A proper cycle** through `t` and then `ms`. -/
structure Ring (t : ι) (ms : List ι) : Prop where
  seg : h.Seg t ms t
  nodup : (t :: ms).Nodup

end Heads

variable {h h' : Heads ι} {a b m n t x : ι} {xs ys ms : List ι}

/-! ### Segments -/

omit [DecidableEq ι] in
theorem seg_append : ∀ {a : ι} {xs : List ι},
    h.Seg a (xs ++ m :: ys) b ↔ h.Seg a xs m ∧ h.Seg m ys b
  | _, [] => Iff.rfl
  | a, x :: xs => by
    show (_ ∧ h.Seg x (xs ++ m :: ys) b) ↔ (_ ∧ h.Seg x xs m) ∧ _
    rw [seg_append]
    exact and_assoc.symm

omit [DecidableEq ι] in
/-- A segment is about the pointers of its objects. -/
theorem Heads.Seg.congr : ∀ {a : ι} {xs : List ι}, h.Seg a xs b →
    (∀ u ∈ a :: xs, h'.next u = h.next u) → (∀ v ∈ xs ++ [b], h'.prev v = h.prev v) → h'.Seg a xs b
  | a, [], hseg, hnext, hprev => by
    refine ⟨?_, ?_⟩
    · rw [hnext a mem_cons_self]
      exact hseg.1
    · rw [hprev b mem_cons_self]
      exact hseg.2
  | a, x :: xs, hseg, hnext, hprev => by
    refine ⟨⟨?_, ?_⟩, hseg.2.congr (fun u hu => ?_) fun v hv => ?_⟩
    · rw [hnext a mem_cons_self]
      exact hseg.1.1
    · rw [hprev x mem_cons_self]
      exact hseg.1.2
    · exact hnext u (mem_cons_of_mem a hu)
    · exact hprev v (mem_cons_of_mem x hv)

omit [DecidableEq ι] in
theorem Heads.Seg.next_mem : ∀ {a : ι} {xs : List ι}, h.Seg a xs b → h.next a ∈ xs ++ [b]
  | _, [], hseg => mem_singleton.mpr hseg.1
  | _, _ :: _, hseg => mem_append_left [b] (hseg.1.1 ▸ mem_cons_self)

omit [DecidableEq ι] in
theorem Heads.Seg.prev_mem : ∀ {a : ι} {xs : List ι}, h.Seg a xs b → h.prev b ∈ a :: xs
  | _, [], hseg => mem_singleton.mpr hseg.2
  | a, _ :: _, hseg => mem_cons_of_mem a hseg.2.prev_mem

/-- **An object is taken out of a segment.** -/
theorem Heads.Seg.delInit : ∀ {a : ι} {xs : List ι}, h.Seg a (xs ++ m :: ys) b →
    (a :: (xs ++ m :: ys)).Nodup → (xs ++ m :: ys ++ [b]).Nodup → (h.delInit m).Seg a (xs ++ ys) b
  | a, [], hseg, hfst, hsnd => by
    obtain ⟨⟨hnext, hprev⟩, hseg⟩ := hseg
    have hma : a ≠ m := fun heq => (nodup_cons.mp hfst).1 (heq ▸ mem_cons_self)
    cases ys with
    | nil =>
      obtain ⟨hnextm, hprevb⟩ := hseg
      have hmb : b ≠ m := by
        rintro rfl
        simp at hsnd
      refine ⟨?_, ?_⟩
      · simp [Heads.delInit, hprev, hnextm, hma]
      · simp [Heads.delInit, hprev, hnextm, hmb]
    | cons q ys =>
      obtain ⟨⟨hnextm, hprevq⟩, hseg⟩ := hseg
      have hmq : q ≠ m := by
        rintro rfl
        simp at hsnd
      refine ⟨⟨?_, ?_⟩, hseg.congr (fun u hu => ?_) fun v hv => ?_⟩
      · simp [Heads.delInit, hprev, hnextm, hma]
      · simp [Heads.delInit, hprev, hnextm, hmq]
      · have hua : u ≠ a := by
          rintro rfl
          exact (nodup_cons.mp hfst).1 (mem_cons_of_mem m hu)
        have hum : u ≠ m := by
          rintro rfl
          exact (nodup_cons.mp (nodup_cons.mp hfst).2).1 hu
        simp [Heads.delInit, hprev, hua, hum]
      · have hsnd' := nodup_cons.mp hsnd
        have hvm : v ≠ m := by
          rintro rfl
          exact hsnd'.1 (mem_cons_of_mem q hv)
        have hvq : v ≠ q := by
          rintro rfl
          exact (nodup_cons.mp hsnd'.2).1 hv
        simp [Heads.delInit, hnextm, hvm, hvq]
  | a, x :: xs, hseg, hfst, hsnd => by
    obtain ⟨⟨hnext, hprev⟩, hseg⟩ := hseg
    obtain ⟨hafst, hfst⟩ := nodup_cons.mp hfst
    rw [cons_append, cons_append] at hsnd
    obtain ⟨hxsnd, hsnd⟩ := nodup_cons.mp hsnd
    obtain ⟨hseg₁, hseg₂⟩ := seg_append.mp hseg
    have hprevm := hseg₁.prev_mem
    have hnextm := hseg₂.next_mem
    refine ⟨⟨?_, ?_⟩, hseg.delInit hfst hsnd⟩
    · have hap : a ≠ h.prev m := by
        rintro rfl
        exact hafst (mem_append_left _ hprevm)
      have ham : a ≠ m := by
        rintro rfl
        exact hafst (by simp)
      simp [Heads.delInit, hap, ham, hnext]
    · have hxn : x ≠ h.next m := by
        rintro hx
        rw [hx] at hxsnd
        refine hxsnd ?_
        rw [append_assoc]
        exact mem_append_right _ (mem_cons_of_mem _ hnextm)
      have hxm : x ≠ m := by
        rintro rfl
        exact hxsnd (by simp)
      simp [Heads.delInit, hxn, hxm, hprev]

/-! ### Rings -/

section Rings

omit [DecidableEq ι]

theorem Heads.Ring.nodup_snd (hr : h.Ring t ms) : (ms ++ [t]).Nodup :=
  (perm_append_comm : (ms ++ [t]).Perm ([t] ++ ms)).nodup_iff.mpr hr.nodup

theorem Heads.Ring.mem_snd_iff : x ∈ ms ++ [t] ↔ x ∈ t :: ms := by
  rw [mem_append, mem_singleton, mem_cons, or_comm]

/-- **A ring may be entered anywhere.** -/
theorem Heads.Ring.rotate (hr : h.Ring t (xs ++ m :: ys)) : h.Ring m (ys ++ t :: xs) := by
  obtain ⟨hseg₁, hseg₂⟩ := seg_append.mp hr.seg
  refine ⟨seg_append.mpr ⟨hseg₂, hseg₁⟩, ?_⟩
  have hperm : (m :: (ys ++ t :: xs)).Perm (t :: (xs ++ m :: ys)) := by
    rw [← cons_append, ← cons_append]
    exact perm_append_comm
  exact hperm.nodup_iff.mpr hr.nodup

theorem Heads.Ring.next_mem (hr : h.Ring t ms) (hx : x ∈ t :: ms) : h.next x ∈ t :: ms := by
  rcases mem_cons.mp hx with rfl | hx
  · exact Heads.Ring.mem_snd_iff.mp hr.seg.next_mem
  · obtain ⟨xs, ys, rfl⟩ := append_of_mem hx
    have hmem := hr.rotate.seg.next_mem
    simp only [mem_append, mem_cons, not_mem_nil, or_false] at hmem ⊢
    tauto

theorem Heads.Ring.prev_mem (hr : h.Ring t ms) (hx : x ∈ t :: ms) : h.prev x ∈ t :: ms := by
  rcases mem_cons.mp hx with rfl | hx
  · exact hr.seg.prev_mem
  · obtain ⟨xs, ys, rfl⟩ := append_of_mem hx
    have hmem := hr.rotate.seg.prev_mem
    simp only [mem_append, mem_cons] at hmem ⊢
    tauto

theorem Heads.Ring.congr (hr : h.Ring t ms)
    (hsame : ∀ u ∈ t :: ms, h'.next u = h.next u ∧ h'.prev u = h.prev u) : h'.Ring t ms :=
  ⟨hr.seg.congr (fun u hu => (hsame u hu).1)
    fun v hv => (hsame v (Heads.Ring.mem_snd_iff.mp hv)).2, hr.nodup⟩

end Rings

instance decidableSeg (h : Heads ι) : ∀ (a : ι) (xs : List ι) (b : ι), Decidable (h.Seg a xs b)
  | _, [], _ => inferInstanceAs (Decidable (_ ∧ _))
  | a, x :: xs, b =>
    have := decidableSeg h x xs b
    inferInstanceAs (Decidable ((h.next a = x ∧ h.prev x = a) ∧ h.Seg x xs b))

instance (h : Heads ι) (t : ι) (ms : List ι) : Decidable (h.Ring t ms) :=
  decidable_of_iff (h.Seg t ms t ∧ (t :: ms).Nodup) ⟨fun hr => ⟨hr.1, hr.2⟩, fun hr => ⟨hr.seg, hr.nodup⟩⟩

/-- These objects make one proper cycle. -/
def Heads.Cyc (h : Heads ι) (xs : List ι) : Prop :=
  xs = [] ∨ ∃ m ms, xs.Perm (m :: ms) ∧ h.Ring m ms

section Cycles

omit [DecidableEq ι]

theorem Heads.Ring.cyc (hr : h.Ring t ms) : h.Cyc (t :: ms) := .inr ⟨t, ms, .refl _, hr⟩

theorem Heads.Cyc.perm (hc : h.Cyc xs) (hperm : ys.Perm xs) : h.Cyc ys := by
  rcases hc with rfl | ⟨m, ms, hms, hr⟩
  · exact .inl hperm.eq_nil
  · exact .inr ⟨m, ms, hperm.trans hms, hr⟩

/-- A cycle may be entered anywhere. -/
theorem Heads.Cyc.ring_of_mem (hc : h.Cyc xs) (hx : x ∈ xs) : ∃ ms, xs.Perm (x :: ms) ∧ h.Ring x ms := by
  rcases hc with rfl | ⟨m, ms, hms, hr⟩
  · cases hx
  rcases mem_cons.mp (hms.mem_iff.mp hx) with rfl | hx
  · exact ⟨ms, hms, hr⟩
  · obtain ⟨xs', ys', rfl⟩ := append_of_mem hx
    refine ⟨ys' ++ m :: xs', hms.trans ?_, hr.rotate⟩
    rw [← cons_append, ← cons_append]
    exact perm_append_comm

theorem Heads.Cyc.nodup (hc : h.Cyc xs) : xs.Nodup := by
  rcases hc with rfl | ⟨m, ms, hms, hr⟩
  · exact nodup_nil
  · exact hms.nodup_iff.mpr hr.nodup

end Cycles

/-! ### Changes -/

theorem ring_init : (h.init a).Ring a [] :=
  ⟨⟨update_self .., update_self ..⟩, nodup_singleton a⟩

theorem Heads.Ring.init (hr : h.Ring t ms) (ha : a ∉ t :: ms) : (h.init a).Ring t ms := by
  refine hr.congr fun u hu => ?_
  have hne : u ≠ a := fun heq => ha (heq ▸ hu)
  exact ⟨update_of_ne hne .., update_of_ne hne ..⟩

theorem Heads.Cyc.init (hc : h.Cyc xs) (ha : a ∉ xs) : (h.init a).Cyc xs := by
  rcases hc with rfl | ⟨m, ms, hms, hr⟩
  · exact .inl rfl
  · exact .inr ⟨m, ms, hms, hr.init fun hmem => ha (hms.mem_iff.mpr hmem)⟩

/-- **A member is deleted.** -/
theorem Heads.Ring.delInit (hr : h.Ring t (xs ++ m :: ys)) : (h.delInit m).Ring t (xs ++ ys) := by
  refine ⟨hr.seg.delInit hr.nodup hr.nodup_snd, ?_⟩
  refine hr.nodup.sublist (.cons_cons t ?_)
  exact List.Sublist.append_left (sublist_cons_self m ys) xs

theorem ring_delInit : (h.delInit a).Ring a [] :=
  ⟨⟨update_self .., update_self ..⟩, nodup_singleton a⟩

/-- **Other rings are what they were** when an object of a ring is deleted. -/
theorem Heads.Ring.delInit_of_disjoint (hr : h.Ring t ms) (hr' : h.Ring a xs) (hx : x ∈ a :: xs)
    (hdisj : ∀ u ∈ t :: ms, u ∉ a :: xs) : (h.delInit x).Ring t ms := by
  refine hr.congr fun u hu => ?_
  have hux : u ≠ x := fun heq => hdisj u hu (heq ▸ hx)
  have hun : u ≠ h.next x := fun heq => hdisj u hu (heq ▸ hr'.next_mem hx)
  have hup : u ≠ h.prev x := fun heq => hdisj u hu (heq ▸ hr'.prev_mem hx)
  simp [Heads.delInit, hux, hun, hup]

/-- An object of a cycle is deleted. -/
theorem Heads.Cyc.delInit (hc : h.Cyc (x :: xs)) : (h.delInit x).Cyc xs := by
  obtain ⟨ms, hms, hr⟩ := hc.ring_of_mem mem_cons_self
  have hperm : xs.Perm ms := (perm_cons x).mp hms
  cases ms with
  | nil => exact .inl hperm.eq_nil
  | cons m ms =>
    have hrot : h.Ring m (ms ++ x :: []) := (show h.Ring x ([] ++ m :: ms) from hr).rotate
    refine .inr ⟨m, ms, hperm, ?_⟩
    simpa using hrot.delInit

/-- Other cycles are what they were. -/
theorem Heads.Cyc.delInit_of_disjoint (hc : h.Cyc ys) (hc' : h.Cyc xs) (hx : x ∈ xs)
    (hdisj : ∀ u ∈ ys, u ∉ xs) : (h.delInit x).Cyc ys := by
  obtain ⟨ms, hms, hr⟩ := hc'.ring_of_mem hx
  rcases hc with rfl | ⟨m, ms', hms', hr'⟩
  · exact .inl rfl
  refine .inr ⟨m, ms', hms', hr'.delInit_of_disjoint hr mem_cons_self fun u hu hu' => ?_⟩
  exact hdisj u (hms'.mem_iff.mpr hu) (hms.mem_iff.mpr hu')

/-- **A member is added.** -/
theorem Heads.Ring.addTail (hr : h.Ring t ms) (hn : n ∉ t :: ms) :
    (h.addTail n t).Ring t (ms ++ [n]) := by
  have hnt : n ≠ t := fun heq => hn (heq ▸ mem_cons_self)
  have hprev := hr.seg.prev_mem
  have hnp : n ≠ h.prev t := fun heq => hn (heq ▸ hprev)
  have hnodup : (t :: (ms ++ [n])).Nodup := by
    rw [← cons_append]
    refine nodup_append.mpr ⟨hr.nodup, nodup_singleton n, ?_⟩
    intro x hx y hy heq
    rw [mem_singleton] at hy
    exact hn (hy ▸ heq ▸ hx)
  refine ⟨?_, hnodup⟩
  -- the last member, or the head, leads to the new one
  have hlast : ∀ {a : ι} {xs : List ι}, h.Seg a xs t → (a :: xs).Nodup → (xs ++ [t]).Nodup →
      n ∉ a :: xs → (h.addTail n t).Seg a xs n := by
    intro a xs
    induction xs generalizing a with
    | nil =>
      rintro ⟨hnext, hprevt⟩ - - hna
      have hna : a ≠ n := fun heq => hna (heq ▸ mem_cons_self)
      refine ⟨?_, ?_⟩
      · simp [Heads.addTail, hprevt]
      · simp [Heads.addTail, hprevt]
    | cons x xs ih =>
      rintro ⟨⟨hnext, hprevx⟩, hseg⟩ hfst hsnd hna
      obtain ⟨hafst, hfst⟩ := nodup_cons.mp hfst
      obtain ⟨hxsnd, hsnd⟩ := nodup_cons.mp hsnd
      have hap : a ≠ h.prev t := fun heq => hafst (heq ▸ hseg.prev_mem)
      have han : a ≠ n := fun heq => hna (heq ▸ mem_cons_self)
      have hxn : x ≠ n := fun heq => hna (heq ▸ mem_cons_of_mem a mem_cons_self)
      have hxt : x ≠ t := fun heq => hxsnd (heq ▸ mem_append_right _ mem_cons_self)
      refine ⟨⟨?_, ?_⟩, ih hseg hfst hsnd fun hmem => hna (mem_cons_of_mem a hmem)⟩
      · simp [Heads.addTail, hap, han, hnext]
      · simp [Heads.addTail, hxn, hxt, hprevx]
  refine seg_append.mpr ⟨hlast hr.seg hr.nodup hr.nodup_snd hn, ?_, ?_⟩
  · simp [Heads.addTail, hnp]
  · simp [Heads.addTail, hnt.symm]

/-- **Other rings are what they were** when an object is added to a ring. -/
theorem Heads.Ring.addTail_of_disjoint (hr : h.Ring a xs) (hr' : h.Ring t ms) (hn : n ∉ a :: xs)
    (hdisj : ∀ u ∈ a :: xs, u ∉ t :: ms) : (h.addTail n t).Ring a xs := by
  refine hr.congr fun u hu => ?_
  have hun : u ≠ n := fun heq => hn (heq ▸ hu)
  have hut : u ≠ t := fun heq => hdisj u hu (heq ▸ mem_cons_self)
  have hup : u ≠ h.prev t := fun heq => hdisj u hu (heq ▸ hr'.prev_mem mem_cons_self)
  simp [Heads.addTail, hun, hut, hup]

/-- Other cycles are what they were. -/
theorem Heads.Cyc.addTail_of_disjoint (hc : h.Cyc ys) (hr : h.Ring t ms) (hn : n ∉ ys)
    (hdisj : ∀ u ∈ ys, u ∉ t :: ms) : (h.addTail n t).Cyc ys := by
  rcases hc with rfl | ⟨m, ms', hms', hr'⟩
  · exact .inl rfl
  refine .inr ⟨m, ms', hms', hr'.addTail_of_disjoint hr (fun hmem => hn (hms'.mem_iff.mpr hmem)) ?_⟩
  exact fun u hu => hdisj u (hms'.mem_iff.mpr hu)

/-! ### Loops -/

/-- `list_for_each_entry`: the objects from `pos` on, or none if there is no end to them. -/
def walk (h : Heads ι) (head : ι) : ℕ → ι → Option (List ι)
  | 0, _ => none
  | fuel + 1, pos => if pos = head then some [] else (walk h head fuel (h.next pos)).map (pos :: ·)

theorem Heads.Seg.walk_eq : ∀ {a : ι} {xs : List ι} {fuel : ℕ}, h.Seg a xs t → (∀ x ∈ xs, x ≠ t) →
    xs.length < fuel → walk h t fuel (h.next a) = some xs
  | a, [], fuel + 1, hseg, _, _ => by
    rw [hseg.1]
    exact if_pos rfl
  | a, x :: xs, fuel + 1, hseg, hne, hlt => by
    rw [hseg.1.1, walk, if_neg (hne x mem_cons_self), hseg.2.walk_eq]
    · rfl
    · exact fun y hy => hne y (mem_cons_of_mem x hy)
    · simpa using hlt

/-- **A loop over a ring visits its members.** -/
theorem Heads.Ring.walk_eq (hr : h.Ring t ms) {fuel : ℕ} (hlt : ms.length < fuel) :
    walk h t fuel (h.next t) = some ms := by
  refine hr.seg.walk_eq (fun x hx heq => ?_) hlt
  exact (nodup_cons.mp hr.nodup).1 (heq ▸ hx)

/-- A loop that ends with the first object that is looked for. -/
def find (h : Heads ι) (head : ι) (p : ι → Bool) : ℕ → ι → Option Bool
  | 0, _ => none
  | fuel + 1, pos =>
    if pos = head then some false
    else if p pos then some true
    else find h head p fuel (h.next pos)

theorem Heads.Seg.find_eq {p : ι → Bool} : ∀ {a : ι} {xs : List ι} {fuel : ℕ}, h.Seg a xs t →
    (∀ x ∈ xs, x ≠ t) → xs.length < fuel → find h t p fuel (h.next a) = some (xs.any p)
  | a, [], fuel + 1, hseg, _, _ => by
    rw [hseg.1]
    exact if_pos rfl
  | a, x :: xs, fuel + 1, hseg, hne, hlt => by
    rw [hseg.1.1, find, if_neg (hne x mem_cons_self), any_cons]
    split
    · rename_i hx
      rw [hx, Bool.true_or]
    · rename_i hx
      rw [Bool.eq_false_iff.mpr hx, Bool.false_or]
      refine hseg.2.find_eq (fun y hy => hne y (mem_cons_of_mem x hy)) ?_
      simpa using hlt

theorem Heads.Ring.find_eq (hr : h.Ring t ms) {p : ι → Bool} {fuel : ℕ} (hlt : ms.length < fuel) :
    find h t p fuel (h.next t) = some (ms.any p) := by
  refine hr.seg.find_eq (fun x hx heq => ?_) hlt
  exact (nodup_cons.mp hr.nodup).1 (heq ▸ hx)

omit [DecidableEq ι] in
theorem Heads.Seg.next_eq : ∀ {a : ι} {xs : List ι}, h.Seg a xs b → h.next a = xs.headD b
  | _, [], hseg => hseg.1
  | _, _ :: _, hseg => hseg.1.1

/-- `list_for_each_entry_safe`: the next object is known before the body runs, and none is the result
if there is no end. -/
def forEachSafe (heads : σ → Heads ι) (body : σ → ι → σ) (head : ι) : ℕ → σ → ι → ι → Option σ
  | 0, _, _, _ => none
  | fuel + 1, s, pos, n =>
    if pos = head then some s
    else
      let s := body s pos
      forEachSafe heads body head fuel s n ((heads s).next n)

/-- **Such a loop visits the members**, if the body leaves the way from the next one on as it was. -/
theorem forEachSafe_eq_foldl {heads : σ → Heads ι} {body : σ → ι → σ} {head : ι}
    (P : σ → List ι → Prop) (hP : ∀ s x xs, P s (x :: xs) →
      x ≠ head ∧ (heads s).next x = xs.headD head ∧ P (body s x) xs) :
    ∀ {xs : List ι} {fuel : ℕ} {s : σ} {n : ι}, P s xs → xs.length < fuel →
      (xs ≠ [] → n = (heads s).next (xs.headD head)) →
      forEachSafe heads body head fuel s (xs.headD head) n = some (xs.foldl body s)
  | [], fuel + 1, s, _, _, _, _ => if_pos rfl
  | x :: xs, fuel + 1, s, n, hx, hlt, hn => by
    obtain ⟨hne, hnext, hrest⟩ := hP s x xs hx
    rw [forEachSafe]
    show (if x = head then _ else _) = _
    rw [if_neg hne, hn (cons_ne_nil x xs)]
    show forEachSafe heads body head fuel (body s x) ((heads s).next x)
      ((heads (body s x)).next ((heads s).next x)) = _
    rw [hnext]
    exact forEachSafe_eq_foldl P hP hrest (by simpa using hlt) fun _ => rfl

end ListHead
