import Mac80211.Scan.BssTable
import Mac80211.Lib.References

/-!
# The reference counts of BSS entries

Putting an entry takes one off the two entries it points to; getting it adds one to the hidden
beacon, and to what transmits for that one. As long as no entry has two links, and no link leads to
an entry that has one, the counts are exact.

## Main definitions

* `TableInv` — an instance of `References.Counted`

## Main results

* `TableInv.get`, `TableInv.put`
-/

namespace Mac80211

open Machine References List Function

namespace Rdev

variable (s : Rdev)

/-- What an entry points to, if it has one link at most. -/
def link (b : ℕ) : Option ℕ := (s.bss b).hiddenBeaconBss <|> (s.bss b).transmittedBss

/-- `refcount`. -/
def count (b : ℕ) : ℤ := (s.bss b).refcount

/-- The references to an entry itself. -/
def own (b : ℕ) : ℤ := (if b ∈ s.bssList then 1 else 0) + s.refs b

/-- A caller has a reference on the entry, or on one that it transmits for. -/
def Used (b : ℕ) : Prop :=
  0 < s.refs b ∨ ∃ c ∈ s.live, (s.bss c).transmittedBss = some b ∧ 0 < s.refs c

/-- The buffers that are freed when the last reference to an entry is dropped. -/
def lastIes (b : ℕ) : List ℕ := if s.count b = 1 then (s.bss b).ownIes else []

/-- Count `n` references to `b`. -/
def addRefs (b : ℕ) (n : ℤ) : Rdev :=
  { s with
    bss := fun x =>
      { s.bss x with
        refcount := (s.bss x).refcount + (if x = b then n else 0) +
          if s.link b = some x then n else 0 } }

end Rdev

/-- **The counts are exact** if `own` says how many references there are to each entry, and entries are
freed when there is none. -/
structure TableInv (s : Rdev) (own : ℕ → ℤ) : Prop where
  counted : Counted s.live s.link own s.count
  one : ∀ b ∈ s.live, (s.bss b).hiddenBeaconBss = none ∨ (s.bss b).transmittedBss = none
  pos : ∀ b ∈ s.live, 0 < s.count b
  live : ∀ b, 0 < own b → b ∈ s.live
  fresh : ∀ b ∈ s.live, b < s.fresh
  ring : ∀ b ∈ s.live, (s.bss b).ring < s.fresh
  own_ge : ∀ b, s.own b ≤ own b
  hold : ∀ b ∈ s.live, (s.bss b).hold ≠ 0 → s.Used b
  nodup : s.bssList.Nodup
  treeNodup : s.bssTree.toList.Nodup
  tree : ∀ b ∈ s.bssTree.toList, b ∈ s.bssList

section References

variable {s s' : Rdev} {own own' : ℕ → ℤ} {b : ℕ}

theorem own_nonneg (s : Rdev) (b : ℕ) : 0 ≤ s.own b := by
  rw [Rdev.own]
  split <;> omega

theorem TableInv.live_of_listed (h : TableInv s own) (hb : b ∈ s.bssList) : b ∈ s.live := by
  refine h.live b (lt_of_lt_of_le ?_ (h.own_ge b))
  rw [Rdev.own, if_pos hb]
  omega

theorem TableInv.live_of_refs (h : TableInv s own) (hb : 0 < s.refs b) : b ∈ s.live := by
  refine h.live b (lt_of_lt_of_le ?_ (h.own_ge b))
  rw [Rdev.own]
  split <;> omega

/-! ### Getting and putting an entry -/

theorem link_of_hidden {h : ℕ} (hb : (s.bss b).hiddenBeaconBss = some h) : s.link b = some h := by
  rw [Rdev.link, hb]
  rfl

theorem link_of_not_hidden (hb : (s.bss b).hiddenBeaconBss = none) :
    s.link b = (s.bss b).transmittedBss := by
  rw [Rdev.link, hb]
  rfl

theorem link_eq_none_iff : s.link b = none ↔
    (s.bss b).hiddenBeaconBss = none ∧ (s.bss b).transmittedBss = none := by
  rw [Rdev.link]
  cases (s.bss b).hiddenBeaconBss <;> simp

theorem addRefs_of_none (hlink : s.link b = none) (n : ℤ) : s.addRefs b n = s.addRef b n := by
  simp only [Rdev.addRef, Rdev.upd, Rdev.addRefs, hlink]
  congr 1
  funext x
  by_cases hx : x = b
  · subst hx
    simp
  · simp [hx]

theorem addRefs_of_some {p : ℕ} (hlink : s.link b = some p) (hne : p ≠ b) (n : ℤ) :
    s.addRefs b n = (s.addRef b n).addRef p n := by
  simp only [Rdev.addRef, Rdev.upd, Rdev.addRefs, hlink]
  congr 1
  funext x
  by_cases hx : x = p
  · subst hx
    simp [hne]
  · by_cases hxb : x = b
    · subst hxb
      simp [Ne.symm hne, hne]
    · simp [hx, hxb, Ne.symm hx]

theorem ne_of_link {p : ℕ} (htarget : ∀ p, s.link b = some p → p ∈ s.live ∧ s.link p = none)
    (hlink : s.link b = some p) : p ≠ b := by
  rintro rfl
  rw [(htarget p hlink).2] at hlink
  cases hlink

/-- **Getting an entry whose links are in order.** -/
theorem bssRefGet_eq (htarget : ∀ p, s.link b = some p → p ∈ s.live ∧ s.link p = none) :
    bssRefGet s b = s.addRefs b 1 := by
  cases hhidden : (s.bss b).hiddenBeaconBss with
  | some h =>
    have hlink := link_of_hidden hhidden
    have hnone := (link_eq_none_iff.mp (htarget h hlink).2).2
    have hne := ne_of_link htarget hlink
    rw [addRefs_of_some hlink hne]
    simp [bssRefGet, Rdev.addRef, Rdev.upd, hhidden, hne, hnone]
  | none =>
    have hlink := link_of_not_hidden hhidden
    cases htrans : (s.bss b).transmittedBss with
    | none =>
      rw [addRefs_of_none (hlink.trans htrans)]
      simp [bssRefGet, Rdev.addRef, Rdev.upd, hhidden, htrans]
    | some t =>
      rw [htrans] at hlink
      rw [addRefs_of_some hlink (ne_of_link htarget hlink)]
      simp [bssRefGet, Rdev.addRef, Rdev.upd, hhidden, htrans]

theorem bssDecRef_eq (hhold : s.count b = 1 → (s.bss b).hold = 0) : bssDecRef s b =
      { s.addRef b (-1) with
        live := if s.count b = 1 then s.live.erase b else s.live
        freed := s.freed ++ s.lastIes b } := by
  rw [Rdev.lastIes]
  rw [Rdev.count] at *
  simp only [bssDecRef, bssFree, Rdev.addRef, Rdev.upd, update_self]
  by_cases hcount : (s.bss b).refcount = 1
  · simp [hcount, hhold hcount, Bss.ownIes]
  · have hne : (s.bss b).refcount + -1 ≠ 0 := by omega
    simp [hcount, hne]

theorem count_addRefs (s : Rdev) (b : ℕ) (n : ℤ) (x : ℕ) : (s.addRefs b n).count x =
      s.count x + (if x = b then n else 0) + if s.link b = some x then n else 0 := rfl

/-- Putting an entry whose links are in order: first what it points to, if anything. -/
theorem bssRefPut_of_link (hone : (s.bss b).hiddenBeaconBss = none ∨ (s.bss b).transmittedBss = none)
    (htarget : ∀ p, s.link b = some p → p ∈ s.live ∧ s.link p = none) :
    bssRefPut s b = bssDecRef ((s.link b).elim s (bssDecRef s)) b := by
  cases hlink : s.link b with
  | none =>
    obtain ⟨hhidden, htrans⟩ := link_eq_none_iff.mp hlink
    simp [bssRefPut, hhidden, htrans]
  | some p =>
    have hne := ne_of_link htarget hlink
    have hfields : ((bssDecRef s p).bss b).transmittedBss = (s.bss b).transmittedBss := by
      rw [bssDecRef]
      split
      · rw [bssFree]
        split <;> simp [Rdev.addRef, Rdev.upd, Ne.symm hne]
      · simp [Rdev.addRef, Rdev.upd, Ne.symm hne]
    cases hhidden : (s.bss b).hiddenBeaconBss with
    | some h =>
      have htrans : (s.bss b).transmittedBss = none := by simpa [hhidden] using hone
      obtain rfl : h = p := by simpa [link_of_hidden hhidden] using hlink
      simp [bssRefPut, hhidden, hfields, htrans]
    | none =>
      rw [link_of_not_hidden hhidden] at hlink
      simp [bssRefPut, hhidden, hlink]

/-- **Putting an entry whose links are in order.** What is not referred to any more is freed. -/
theorem bssRefPut_eq (hone : (s.bss b).hiddenBeaconBss = none ∨ (s.bss b).transmittedBss = none)
    (htarget : ∀ p, s.link b = some p → p ∈ s.live ∧ s.link p = none) (hb : b ∈ s.live)
    (hpos : ∀ x ∈ s.live, 0 < s.count x)
    (hhold : ∀ x ∈ s.live, (s.addRefs b (-1)).count x = 0 → (s.bss x).hold = 0) : bssRefPut s b =
      { s.addRefs b (-1) with
        live := s.live.filter fun x => 0 < (s.addRefs b (-1)).count x
        freed := s.freed ++ ((s.link b).elim [] s.lastIes ++ s.lastIes b) } := by
  cases hlink : s.link b with
  | none =>
    have hput := bssRefPut_of_link hone htarget
    rw [hlink, Option.elim_none] at hput
    have hfree : s.count b = 1 → (s.bss b).hold = 0 := by
      intro hcount
      refine hhold b hb ?_
      rw [count_addRefs, hlink, hcount]
      simp
    have hlive : (if s.count b = 1 then s.live.erase b else s.live) =
        s.live.filter fun x => 0 < (s.addRefs b (-1)).count x := by
      ext x
      rw [Finset.mem_filter, count_addRefs, hlink]
      have hx := hpos x
      split <;> grind
    rw [hput, bssDecRef_eq hfree, hlive, addRefs_of_none hlink]
    rfl
  | some p =>
    have hne := ne_of_link htarget hlink
    have hput := bssRefPut_of_link hone htarget
    rw [hlink, Option.elim_some] at hput
    have hp : s.count p = 1 → (s.bss p).hold = 0 := by
      intro hcount
      refine hhold p (htarget p hlink).1 ?_
      rw [count_addRefs, hlink, hcount]
      simp [hne]
    have hother : (bssDecRef s p).bss b = s.bss b := by
      rw [bssDecRef_eq hp]
      simp [Rdev.addRef, Rdev.upd, Ne.symm hne]
    have hfree : (bssDecRef s p).count b = 1 → ((bssDecRef s p).bss b).hold = 0 := by
      rw [Rdev.count, hother]
      intro hcount
      refine hhold b hb ?_
      rw [count_addRefs, hlink, Rdev.count, hcount]
      simp [hne]
    have hlive : (if s.count b = 1 then (if s.count p = 1 then s.live.erase p else s.live).erase b
        else if s.count p = 1 then s.live.erase p else s.live) =
        s.live.filter fun x => 0 < (s.addRefs b (-1)).count x := by
      ext x
      rw [Finset.mem_filter, count_addRefs, hlink]
      have hx := hpos x
      split <;> split <;> grind
    have hcount : (bssDecRef s p).count b = s.count b := by rw [Rdev.count, Rdev.count, hother]
    have hlast : (bssDecRef s p).lastIes b = s.lastIes b := by
      rw [Rdev.lastIes, Rdev.lastIes, hcount, hother]
    rw [hput, bssDecRef_eq hfree, hlast, hcount, bssDecRef_eq hp, ← hlive, addRefs_of_some hlink hne]
    simp only [Rdev.addRef, Rdev.upd, Option.elim_some, append_assoc]
    rw [update_of_ne (Ne.symm hne), update_comm hne, update_of_ne hne]

/-- **A reference is taken.** -/
theorem TableInv.get (h : TableInv s own) (hb : b ∈ s.live) :
    TableInv (Rdev.handOut (bssRefGet s b, some b)) fun x => own x + if x = b then 1 else 0 := by
  rw [bssRefGet_eq (h.counted.target b hb)]
  have hrefs : ∀ x, s.refs x ≤ Function.update s.refs b (s.refs b + 1) x := by
    intro x
    by_cases hx : x = b
    · simp [hx]
    · simp [hx]
  have hnonneg := h.counted.nonneg b hb
  constructor
  · exact h.counted.add hb 1 (by omega) (fun _ => rfl) (count_addRefs s b 1)
  · exact h.one
  · intro x hx
    have hpos := h.pos x hx
    show 0 < (s.addRefs b 1).count x
    rw [count_addRefs]
    split <;> split <;> omega
  · intro x hx
    split at hx
    · rename_i hxb
      exact hxb ▸ hb
    · exact h.live x (by omega)
  · exact h.fresh
  · exact h.ring
  · intro x
    have hge := h.own_ge x
    rw [Rdev.own] at hge ⊢
    show (if x ∈ s.bssList then (1 : ℤ) else 0) + (Function.update s.refs b (s.refs b + 1) x : ℕ) ≤ _
    by_cases hx : x = b
    · subst hx
      rw [update_self, if_pos rfl]
      omega
    · rw [update_of_ne hx, if_neg hx]
      omega
  · intro x hx hhold
    rcases h.hold x hx hhold with hused | ⟨c, hc, htrans, hused⟩
    · exact .inl (lt_of_lt_of_le hused (hrefs x))
    · exact .inr ⟨c, hc, htrans, lt_of_lt_of_le hused (hrefs c)⟩
  · exact h.nodup
  · exact h.treeNodup
  · exact h.tree

/-- **A reference is dropped**: one that is neither for the list nor for a caller any more. -/
theorem TableInv.put (h : TableInv s own) (hspare : s.own b + 1 ≤ own b) :
    TableInv (bssRefPut s b) fun x => own x - if x = b then 1 else 0 := by
  have hnonneg := own_nonneg s b
  have hb : b ∈ s.live := h.live b (by omega)
  have hcounted : Counted s.live s.link (fun x => own x - if x = b then 1 else 0)
      (s.addRefs b (-1)).count := by
    refine h.counted.add hb (-1) (by omega) (fun x => ?_) (count_addRefs s b (-1))
    split <;> omega
  have hge : ∀ x, s.own x ≤ own x - if x = b then 1 else 0 := by
    intro x
    have hx := h.own_ge x
    split
    · rename_i hxb
      rw [hxb]
      omega
    · omega
  have hrefs : ∀ x, 0 < s.refs x → 0 < own x - if x = b then 1 else 0 := by
    intro x hx
    refine lt_of_lt_of_le ?_ (hge x)
    rw [Rdev.own]
    split <;> omega
  have hused : ∀ x ∈ s.live, s.Used x → 0 < (s.addRefs b (-1)).count x := by
    rintro x hx (hx' | ⟨c, hc, htrans, hc'⟩)
    · exact lt_of_lt_of_le (hrefs x hx') (hcounted.own_le hx)
    · have hlink : s.link c = some x := by
        rw [link_of_not_hidden ((h.one c hc).resolve_right (by simp [htrans])), htrans]
      exact lt_of_lt_of_le (hrefs c hc') (hcounted.own_le_of_link hc hlink)
  have hput := bssRefPut_eq (h.one b hb) (h.counted.target b hb) hb h.pos fun x hx hzero => by
    by_contra hhold
    have hpos := hused x hx (h.hold x hx hhold)
    omega
  rw [hput]
  have hmem : ∀ x, x ∈ s.live.filter (fun x => 0 < (s.addRefs b (-1)).count x) → x ∈ s.live :=
    fun x hx => (Finset.mem_filter.mp hx).1
  constructor
  · exact hcounted.collect
  · exact fun x hx => h.one x (hmem x hx)
  · exact fun x hx => (Finset.mem_filter.mp hx).2
  · intro x hx
    have hx' : x ∈ s.live := h.live x (by split at hx <;> omega)
    exact Finset.mem_filter.mpr ⟨hx', lt_of_lt_of_le hx (hcounted.own_le hx')⟩
  · exact fun x hx => h.fresh x (hmem x hx)
  · exact fun x hx => h.ring x (hmem x hx)
  · exact hge
  · intro x hx hhold
    rcases h.hold x (hmem x hx) hhold with hx' | ⟨c, hc, htrans, hc'⟩
    · exact .inl hx'
    · refine .inr ⟨c, Finset.mem_filter.mpr ⟨hc, ?_⟩, htrans, hc'⟩
      exact lt_of_lt_of_le (hrefs c hc') (hcounted.own_le hc)
  · exact h.nodup
  · exact h.treeNodup
  · exact h.tree

/-! ### The list -/

/-- The fields that count. -/
def Bss.SameRefs (e e' : Bss) : Prop :=
  e'.hiddenBeaconBss = e.hiddenBeaconBss ∧ e'.transmittedBss = e.transmittedBss ∧
    e'.refcount = e.refcount ∧ e'.hold = e.hold

theorem Bss.SameRefs.refl (e : Bss) : e.SameRefs e := ⟨rfl, rfl, rfl, rfl⟩

/-- Other fields may change, and the list and the tree may lose entries. -/
theorem TableInv.congr (h : TableInv s own) (hlive : s'.live = s.live) (hrefs : s'.refs = s.refs)
    (hfresh : s.fresh ≤ s'.fresh) (hbss : ∀ x ∈ s.live, (s.bss x).SameRefs (s'.bss x))
    (hring : ∀ x ∈ s.live, (s'.bss x).ring < s'.fresh)
    (hlist : s'.bssList.Sublist s.bssList) (htree : s'.bssTree.toList.Sublist s.bssTree.toList)
    (hmem : ∀ x ∈ s'.bssTree.toList, x ∈ s'.bssList) : TableInv s' own where
  counted := by
    rw [hlive]
    refine h.counted.congr (fun x hx => ?_) (fun _ _ => rfl) fun x hx => (hbss x hx).2.2.1
    rw [Rdev.link, Rdev.link, (hbss x hx).1, (hbss x hx).2.1]
  one := by
    intro x hx
    rw [hlive] at hx
    rw [(hbss x hx).1, (hbss x hx).2.1]
    exact h.one x hx
  pos := by
    intro x hx
    rw [hlive] at hx
    rw [Rdev.count, (hbss x hx).2.2.1]
    exact h.pos x hx
  live := fun x hx => hlive ▸ h.live x hx
  fresh := fun x hx => (h.fresh x (hlive ▸ hx)).trans_le hfresh
  ring := fun x hx => hring x (hlive ▸ hx)
  own_ge := by
    intro x
    have hge := h.own_ge x
    rw [Rdev.own] at hge ⊢
    rw [hrefs]
    have hle : (if x ∈ s'.bssList then (1 : ℤ) else 0) ≤ if x ∈ s.bssList then 1 else 0 := by
      split
      · rename_i hx
        rw [if_pos (hlist.subset hx)]
      · split <;> omega
    omega
  hold := by
    intro x hx hhold
    rw [hlive] at hx
    rw [(hbss x hx).2.2.2] at hhold
    rcases h.hold x hx hhold with hused | ⟨c, hc, htrans, hused⟩
    · exact .inl (by rw [hrefs]; exact hused)
    · exact .inr ⟨c, hlive ▸ hc, (hbss c hc).2.1.trans htrans, by rw [hrefs]; exact hused⟩
  nodup := h.nodup.sublist hlist
  treeNodup := h.treeNodup.sublist htree
  tree := hmem

theorem TableInv.own_congr (h : TableInv s own) (hown : ∀ x, own' x = own x) : TableInv s own' := by
  rw [show own' = own from funext hown]
  exact h

theorem bssDecRef_fields (s : Rdev) (b : ℕ) : (bssDecRef s b).bssList = s.bssList ∧
    (bssDecRef s b).refs = s.refs ∧ (bssDecRef s b).bssTree = s.bssTree ∧
    (bssDecRef s b).bssEntries = s.bssEntries := by
  rw [bssDecRef]
  split
  · rw [bssFree]
    split <;> exact ⟨rfl, rfl, rfl, rfl⟩
  · exact ⟨rfl, rfl, rfl, rfl⟩

theorem bssRefPut_fields (s : Rdev) (b : ℕ) : (bssRefPut s b).bssList = s.bssList ∧
    (bssRefPut s b).refs = s.refs := by
  have hmatch : ∀ (s : Rdev) (o : Option ℕ), (o.elim s (bssDecRef s)).bssList = s.bssList ∧
      (o.elim s (bssDecRef s)).refs = s.refs := by
    rintro s (_ | p)
    · exact ⟨rfl, rfl⟩
    · exact ⟨(bssDecRef_fields s p).1, (bssDecRef_fields s p).2.1⟩
  have hput : bssRefPut s b = bssDecRef
      ((((s.bss b).hiddenBeaconBss.elim s (bssDecRef s)).bss b).transmittedBss.elim
        ((s.bss b).hiddenBeaconBss.elim s (bssDecRef s))
        (bssDecRef ((s.bss b).hiddenBeaconBss.elim s (bssDecRef s)))) b := by
    rw [bssRefPut]
    cases (s.bss b).hiddenBeaconBss with
    | none =>
      dsimp only [Option.elim]
      cases (s.bss b).transmittedBss <;> rfl
    | some h =>
      dsimp only [Option.elim]
      cases ((bssDecRef s h).bss b).transmittedBss <;> rfl
  rw [hput, (bssDecRef_fields _ b).1, (bssDecRef_fields _ b).2.1, (hmatch _ _).1, (hmatch _ _).2,
    (hmatch _ _).1, (hmatch _ _).2]
  exact ⟨rfl, rfl⟩

/-- The counts are exact if each entry has `pending` references more than the list and the callers
account for. -/
def PendInv (s : Rdev) (pending : ℕ → ℤ) : Prop := TableInv s fun x => s.own x + pending x

/-- Nothing that counts has changed. -/
structure Rdev.Keeps (s s' : Rdev) : Prop where
  live : s'.live = s.live
  refs : s'.refs = s.refs
  fresh : s'.fresh = s.fresh
  list : s'.bssList = s.bssList
  tree : s'.bssTree = s.bssTree
  entries : s'.bssEntries = s.bssEntries
  nontrans : s'.nontrans = s.nontrans
  entry : ∀ x, (s.bss x).SameRefs (s'.bss x) ∧ (s'.bss x).ring = (s.bss x).ring

theorem Rdev.Keeps.refl (s : Rdev) : s.Keeps s :=
  ⟨rfl, rfl, rfl, rfl, rfl, rfl, rfl, fun _ => ⟨.refl _, rfl⟩⟩

theorem Rdev.Keeps.trans {s₁ s₂ s₃ : Rdev} (h : s₁.Keeps s₂) (h' : s₂.Keeps s₃) : s₁.Keeps s₃ where
  live := h'.live.trans h.live
  refs := h'.refs.trans h.refs
  fresh := h'.fresh.trans h.fresh
  list := h'.list.trans h.list
  tree := h'.tree.trans h.tree
  entries := h'.entries.trans h.entries
  nontrans := h'.nontrans.trans h.nontrans
  entry := by
    intro x
    obtain ⟨⟨h₁, h₂, h₃, h₄⟩, h₅⟩ := h.entry x
    obtain ⟨⟨k₁, k₂, k₃, k₄⟩, k₅⟩ := h'.entry x
    exact ⟨⟨k₁.trans h₁, k₂.trans h₂, k₃.trans h₃, k₄.trans h₄⟩, k₅.trans h₅⟩

theorem keeps_kfree (s : Rdev) (ies : Option BssIes) : s.Keeps (s.kfree ies) :=
  ⟨rfl, rfl, rfl, rfl, rfl, rfl, rfl, fun _ => ⟨.refl _, rfl⟩⟩

theorem keeps_upd (s : Rdev) (b : ℕ) {f : Bss → Bss}
    (hf : ∀ e, e.SameRefs (f e) ∧ (f e).ring = e.ring) : s.Keeps (s.upd b f) := by
  refine ⟨rfl, rfl, rfl, rfl, rfl, rfl, rfl, fun x => ?_⟩
  by_cases hx : x = b
  · rw [show (s.upd b f).bss x = f (s.bss x) by simp [Rdev.upd, hx]]
    exact hf (s.bss x)
  · rw [show (s.upd b f).bss x = s.bss x by simp [Rdev.upd, hx]]
    exact ⟨.refl _, rfl⟩

variable {pending : ℕ → ℤ}

theorem PendInv.keeps (h : PendInv s pending) (hkeeps : s.Keeps s') : PendInv s' pending := by
  have hown : ∀ x, s'.own x = s.own x := by
    intro x
    rw [Rdev.own, Rdev.own, hkeeps.list, hkeeps.refs]
  suffices hinv : TableInv s' fun x => s.own x + pending x from
    hinv.own_congr fun x => by rw [hown]
  refine TableInv.congr h hkeeps.live hkeeps.refs hkeeps.fresh.ge (fun x _ => (hkeeps.entry x).1)
    (fun x hx => ?_) ?_ ?_ ?_
  · rw [(hkeeps.entry x).2]
    exact (h.ring x hx).trans_le hkeeps.fresh.ge
  · exact hkeeps.list ▸ List.Sublist.refl _
  · exact hkeeps.tree ▸ List.Sublist.refl _
  · rw [hkeeps.tree, hkeeps.list]
    exact h.tree

/-- **An entry is taken off the list.** -/
theorem PendInv.unlink (h : PendInv s pending) (lib : RbLib)
    (hb : b ∈ s.bssList) : PendInv (unlinkBss lib s b).1 pending := by
  rw [unlinkBss]
  split
  · exact h
  have hring : ∀ s₁ : Rdev, s₁ = (if s.hiddenListEmpty b then s else s.hiddenListDel b) →
      s₁.live = s.live ∧ s₁.refs = s.refs ∧ s.fresh ≤ s₁.fresh ∧
      (∀ x, (s.bss x).SameRefs (s₁.bss x)) ∧ (∀ x ∈ s.live, (s₁.bss x).ring < s₁.fresh) ∧
      s₁.bssList = s.bssList ∧ s₁.bssTree = s.bssTree := by
    rintro s₁ rfl
    split
    · exact ⟨rfl, rfl, le_rfl, fun x => .refl _, h.ring, rfl, rfl⟩
    · refine ⟨rfl, rfl, Nat.le_succ _, fun x => ?_, fun x hx => ?_, rfl, rfl⟩
      · by_cases hx : x = b
        · subst hx
          simp [Rdev.hiddenListDel, Rdev.upd, Bss.SameRefs]
        · simp [Rdev.hiddenListDel, Rdev.upd, hx, Bss.SameRefs]
      · have hlt := h.ring x hx
        by_cases hx : x = b
        · subst hx
          simp [Rdev.hiddenListDel, Rdev.upd]
        · simp only [Rdev.hiddenListDel, Rdev.upd, update_of_ne hx]
          omega
  generalize (if s.hiddenListEmpty b then s else s.hiddenListDel b) = s₁ at hring
  obtain ⟨hlive, hrefs, hfresh, hbss, hring, hlist, htree⟩ := hring s₁ rfl
  dsimp only
  generalize hs₂ : ({ s₁ with
    bssList := s₁.bssList.erase b
    nontrans := s₁.nontrans.delInit b
    bssTree := lib.erase s₁.bssTree b
    bssEntries := s₁.bssEntries - 1 } : Rdev) = s₂
  have hlist₂ : s₂.bssList = s.bssList.erase b := by rw [← hs₂, ← hlist]
  have htree₂ : s₂.bssTree.toList = s.bssTree.toList.erase b := by
    rw [← hs₂, ← htree]
    exact lib.toList_erase _ b
  have hinv : TableInv s₂ fun x => s.own x + pending x := by
    refine TableInv.congr h ?_ ?_ ?_ ?_ ?_ (hlist₂ ▸ erase_sublist) (htree₂ ▸ erase_sublist)
      ?_
    · rw [← hs₂, ← hlive]
    · rw [← hs₂, ← hrefs]
    · rw [← hs₂]
      exact hfresh
    · rw [← hs₂]
      exact fun x _ => hbss x
    · rw [← hs₂]
      exact hring
    · intro x hx
      rw [htree₂] at hx
      have hne : x ≠ b := by
        rintro rfl
        exact h.treeNodup.not_mem_erase hx
      rw [hlist₂]
      exact (mem_erase_of_ne hne).mpr (h.tree x (mem_of_mem_erase hx))
  have hown : ∀ x, s₂.own x = s.own x - if x = b then 1 else 0 := by
    intro x
    rw [Rdev.own, Rdev.own, hlist₂, show s₂.refs = s.refs by rw [← hs₂, ← hrefs]]
    by_cases hx : x = b
    · subst hx
      rw [if_neg h.nodup.not_mem_erase, if_pos hb, if_pos rfl]
      omega
    · rw [if_neg hx]
      simp only [mem_erase_of_ne hx]
      omega
  have hpending : s.own b ≤ s.own b + pending b := h.own_ge b
  refine (hinv.put ?_).own_congr fun x => ?_
  · rw [hown, if_pos rfl]
    omega
  · rw [Rdev.own, (bssRefPut_fields s₂ b).1, (bssRefPut_fields s₂ b).2, ← Rdev.own, hown]
    omega

theorem unlinkBss_bssList (lib : RbLib) (s : Rdev) (b : ℕ) :
    (unlinkBss lib s b).1.bssList = s.bssList ∨
      (unlinkBss lib s b).1.bssList = s.bssList.erase b := by
  rw [unlinkBss]
  split
  · exact .inl rfl
  · refine .inr ?_
    rw [(bssRefPut_fields _ b).1]
    split <;> rfl

/-- **Old entries are taken off the list.** -/
theorem PendInv.expire (h : PendInv s pending) (lib : RbLib)
    (expireTime : UInt64) : PendInv (bssExpire lib s expireTime) pending := by
  have hfold : ∀ (bs : List ℕ) (s : Rdev), bs.Nodup → (∀ b ∈ bs, b ∈ s.bssList) →
      PendInv s pending → PendInv (bs.foldl (fun s b =>
        if (s.bss b).hold ≠ 0 then s
        else if !timeAfter expireTime (s.bss b).ts then s
        else (unlinkBss lib s b).1) s) pending := by
    intro bs
    induction bs with
    | nil => exact fun s _ _ h => h
    | cons b bs ih =>
      intro s hnodup hmem h
      obtain ⟨hb, hnodup⟩ := nodup_cons.mp hnodup
      have hrest : ∀ c ∈ bs, c ∈ s.bssList := fun c hc => hmem c (mem_cons_of_mem b hc)
      rw [foldl_cons]
      split
      · exact ih s hnodup hrest h
      split
      · exact ih s hnodup hrest h
      · refine ih _ hnodup (fun c hc => ?_) (h.unlink lib (hmem b mem_cons_self))
        have hne : c ≠ b := fun heq => hb (heq ▸ hc)
        rcases unlinkBss_bssList lib s b with hlist | hlist
        · rw [hlist]
          exact hrest c hc
        · rw [hlist]
          exact (mem_erase_of_ne hne).mpr (hrest c hc)
  exact hfold s.bssList s h.nodup (fun _ hb => hb) h

theorem mem_of_oldestBss (h : oldestBss s = some b) : b ∈ s.bssList := by
  have hall : ∀ b, oldestBss s = some b → b ∈ s.bssList := by
    refine List.foldlRecOn (motive := fun o => ∀ b, o = some b → b ∈ s.bssList) s.bssList _
      (fun b hb => by cases hb) ?_
    intro oldest hold b hb c hc
    split at hc
    · exact hold c hc
    split at hc
    · exact hold c hc
    split at hc
    · exact hold c hc
    · cases hc
      exact hb
  exact hall b h

theorem PendInv.expireOldest (h : PendInv s pending) (lib : RbLib) :
    PendInv (bssExpireOldest lib s).1 pending := by
  rw [bssExpireOldest]
  split
  · exact h
  · rename_i b hb
    exact h.unlink lib (mem_of_oldestBss hb)

theorem own_handOut (r : Rdev) (b x : ℕ) :
    (Rdev.handOut (r, some b)).own x = r.own x + if x = b then 1 else 0 := by
  rw [Rdev.own, Rdev.own]
  show _ + ((Function.update r.refs b (r.refs b + 1) x : ℕ) : ℤ) = _
  by_cases hx : x = b
  · subst hx
    rw [update_self, if_pos rfl]
    push_cast
    exact add_assoc .. |>.symm
  · rw [update_of_ne hx, if_neg hx]
    exact (add_zero _).symm

theorem bssRefGet_fields (s : Rdev) (b : ℕ) : (bssRefGet s b).bssList = s.bssList ∧
    (bssRefGet s b).refs = s.refs := by
  rw [bssRefGet]
  dsimp only
  split <;> split <;> exact ⟨rfl, rfl⟩

theorem PendInv.get (h : PendInv s pending) (hb : b ∈ s.live) :
    PendInv (Rdev.handOut (bssRefGet s b, some b)) pending := by
  refine (TableInv.get h hb).own_congr fun x => ?_
  rw [own_handOut, Rdev.own, (bssRefGet_fields s b).1, (bssRefGet_fields s b).2, ← Rdev.own]
  omega

/-! ### The tree -/

theorem mem_of_find {cmp : ℕ → Ordering} : ∀ {t : BssTree}, t.find cmp = some b → b ∈ t.toList
  | .nil, h => by cases h
  | .node l c r, h => by
    rw [BssTree.find] at h
    rw [BssTree.toList, mem_append, mem_cons]
    split at h
    · cases h
      exact .inr (.inl rfl)
    · exact .inl (mem_of_find h)
    · exact .inr (.inr (mem_of_find h))

theorem perm_of_insert {cmp : ℕ → Ordering} {n : ℕ} : ∀ {t t' : BssTree},
    t.insert cmp n = some t' → t'.toList.Perm (n :: t.toList)
  | .nil, t', h => by
    cases h
    exact .refl _
  | .node l c r, t', h => by
    rw [BssTree.insert] at h
    split at h
    · cases h
    · obtain ⟨l', hl, rfl⟩ := Option.map_eq_some_iff.mp h
      exact (perm_of_insert hl).append_right _
    · obtain ⟨r', hr, rfl⟩ := Option.map_eq_some_iff.mp h
      have hperm := ((perm_of_insert hr).cons c).append_left l.toList
      refine hperm.trans ?_
      simp only [BssTree.toList]
      refine (List.Perm.append_left l.toList (List.Perm.swap n c r.toList)).trans ?_
      exact perm_middle

theorem rbInsertBss_eq (lib : RbLib) (s : Rdev) (n : ℕ) :
    rbInsertBss lib s n = { s with bssTree := (rbInsertBss lib s n).bssTree } := by
  rw [rbInsertBss]
  split <;> rfl

theorem nodup_rbInsertBss (lib : RbLib) {n : ℕ} (hnodup : s.bssTree.toList.Nodup) (hn : n ∉ s.bssTree.toList) :
    (rbInsertBss lib s n).bssTree.toList.Nodup ∧
      ∀ x ∈ (rbInsertBss lib s n).bssTree.toList, x = n ∨ x ∈ s.bssTree.toList := by
  rw [rbInsertBss]
  split
  · rename_i t ht
    have hperm := perm_of_insert ht
    refine ⟨?_, fun x hx => ?_⟩
    · show (lib.insertColor t).toList.Nodup
      rw [lib.toList_insertColor, hperm.nodup_iff]
      exact nodup_cons.mpr ⟨hn, hnodup⟩
    · have hx : x ∈ (lib.insertColor t).toList := hx
      rw [lib.toList_insertColor, hperm.mem_iff, mem_cons] at hx
      exact hx
  · exact ⟨hnodup, fun x hx => .inr hx⟩

theorem TableInv.mem_of_rbFindBss (h : TableInv s own) {res : Bss} {mode : BssCmp}
    (hfind : rbFindBss s res mode = some b) : b ∈ s.bssList :=
  h.tree b (mem_of_find hfind)

theorem mem_of_hiddenBeaconFor {tmp : InformBss} (hhidden : hiddenBeaconFor s tmp = some b) :
    b ∈ s.bssTree.toList := by
  rw [hiddenBeaconFor] at hhidden
  cases hfind : rbFindBss s tmp.toBss .hideZlen with
  | some c =>
    rw [hfind] at hhidden
    cases hhidden
    exact mem_of_find hfind
  | none =>
    rw [hfind] at hhidden
    exact mem_of_find hhidden

theorem TableInv.hiddenBeaconFor_mem (h : TableInv s own) {tmp : InformBss}
    (hhidden : hiddenBeaconFor s tmp = some b) : b ∈ s.live :=
  h.live_of_listed (h.tree b (mem_of_hiddenBeaconFor hhidden))

end References

end Mac80211
