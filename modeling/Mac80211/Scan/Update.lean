import Mac80211.Scan.Refcount

/-!
# Updates of the table of BSSes

All links are made when an entry is new: it may join a hidden beacon, gather probe responses, and
point to the BSS that transmits for it. If the table is full and nothing can be taken off the list,
it is freed again although links to it are left behind.

## Main definitions

* `BssCond`

## Main results

* `refcounts_of_reach`
-/

namespace Mac80211

open Machine References List Function

section Updates

variable {s s' : Rdev} {own own' : ℕ → ℤ} {b : ℕ}

/-! ### New entries -/

variable {n : ℕ}

/-- **An entry gets a link.** -/
theorem TableInv.relink (h : TableInv s own) (hb : b ∈ s.live) (hn : n ∈ s.live)
    (hne : b ≠ n) (hnone : s.link b = none) (hroot : s.link n = none)
    (hno : ∀ c ∈ s.live, s.link c ≠ some b) {f : Bss → Bss}
    (hf : (f (s.bss b)).hiddenBeaconBss = some n ∧ (f (s.bss b)).transmittedBss = none ∨
      (f (s.bss b)).hiddenBeaconBss = none ∧ (f (s.bss b)).transmittedBss = some n)
    (hcount : (f (s.bss b)).refcount = (s.bss b).refcount)
    (hhold : (f (s.bss b)).hold = (s.bss b).hold) (hring : (f (s.bss b)).ring < s.fresh) :
    TableInv ((s.upd b f).addRef n (s.count b)) own := by
  have hself : ((s.upd b f).addRef n (s.count b)).bss b = f (s.bss b) := by
    simp [Rdev.addRef, Rdev.upd, hne]
  -- but for its count, no other entry changes
  have hother : ∀ x, x ≠ b → ∃ k, ((s.upd b f).addRef n (s.count b)).bss x =
      { s.bss x with refcount := (s.bss x).refcount + k } := by
    intro x hxb
    by_cases hxn : x = n
    · exact ⟨s.count b, by simp [Rdev.addRef, Rdev.upd, hxn, Ne.symm hne]⟩
    · exact ⟨0, by simp [Rdev.addRef, Rdev.upd, hxn, hxb]⟩
  have hcount' : ∀ x, ((s.upd b f).addRef n (s.count b)).count x =
      if x = n then s.count n + s.count b else s.count x := by
    intro x
    rw [Rdev.count]
    by_cases hxn : x = n
    · simp [Rdev.addRef, Rdev.upd, hxn, Ne.symm hne, Rdev.count]
    · by_cases hxb : x = b
      · rw [hxb, hself, if_neg hne, hcount]
        rfl
      · simp [Rdev.addRef, Rdev.upd, hxn, hxb, Rdev.count]
  have htrans := (link_eq_none_iff.mp hnone).2
  constructor
  · refine h.counted.relink hb hn hne hnone hroot hno (fun x => ?_) hcount'
    rw [Rdev.link]
    by_cases hxb : x = b
    · rw [hxb, hself, if_pos rfl]
      rcases hf with ⟨hh, -⟩ | ⟨hh, ht⟩
      · rw [hh]
        rfl
      · rw [hh, ht]
        rfl
    · obtain ⟨k, hx⟩ := hother x hxb
      rw [if_neg hxb, hx]
      rfl
  · intro x hx
    by_cases hxb : x = b
    · rw [hxb, hself]
      exact hf.symm.imp And.left And.right
    · obtain ⟨k, hx'⟩ := hother x hxb
      rw [hx']
      exact h.one x hx
  · intro x hx
    have hpos := h.pos b hb
    have hpos' := h.pos n hn
    rw [hcount']
    split
    · omega
    · exact h.pos x hx
  · exact h.live
  · exact h.fresh
  · intro x hx
    by_cases hxb : x = b
    · rw [hxb, hself]
      exact hring
    · obtain ⟨k, hx'⟩ := hother x hxb
      rw [hx']
      exact h.ring x hx
  · exact h.own_ge
  · intro x hx hheld
    have hheld' : (s.bss x).hold ≠ 0 := by
      by_cases hxb : x = b
      · rw [hxb, hself, hhold] at hheld
        rw [hxb]
        exact hheld
      · obtain ⟨k, hx'⟩ := hother x hxb
        rw [hx'] at hheld
        exact hheld
    rcases h.hold x hx hheld' with hused | ⟨c, hc, hctrans, hused⟩
    · exact .inl hused
    · refine .inr ⟨c, hc, ?_, hused⟩
      have hcb : c ≠ b := by
        rintro rfl
        rw [htrans] at hctrans
        cases hctrans
      obtain ⟨k, hc'⟩ := hother c hcb
      rw [hc']
      exact hctrans
  · exact h.nodup
  · exact h.treeNodup
  · exact h.tree

/-- The reference that a new entry has before it is on the list. -/
def pendingNew (n : ℕ) : ℕ → ℤ := fun x => if x = n then 1 else 0

theorem TableInv.own_eq_zero (h : TableInv s own) (hb : b ∉ s.live) : s.own b = 0 := by
  have hnonneg := own_nonneg s b
  by_contra hne
  refine hb (h.live b (lt_of_lt_of_le ?_ (h.own_ge b)))
  omega

theorem PendInv.alloc (h : PendInv s 0) (tmp : InformBss) :
    PendInv (allocBss s tmp) (pendingNew s.fresh) := by
  have hn : s.fresh ∉ s.live := fun hmem => lt_irrefl _ (h.fresh _ hmem)
  have hne : ∀ x ∈ s.live, x ≠ s.fresh := fun x hx heq => hn (heq ▸ hx)
  have hself : (allocBss s tmp).bss s.fresh = { tmp.toBss with refcount := 1, ring := s.fresh } :=
    update_self ..
  have hother : ∀ x, x ≠ s.fresh → (allocBss s tmp).bss x = s.bss x :=
    fun x hx => update_of_ne hx ..
  have hown := TableInv.own_eq_zero h hn
  have hmem : ∀ x, x ∈ (allocBss s tmp).live → x = s.fresh ∨ x ∈ s.live :=
    fun x hx => Finset.mem_insert.mp hx
  constructor
  · refine h.counted.insert (l := none) (k := 1) hn (by omega) nofun (fun x => ?_) (fun x => ?_)
      fun x => ?_
    · by_cases hx : x = s.fresh
      · rw [Rdev.link, hx, hself, if_pos rfl]
        rfl
      · rw [Rdev.link, hother x hx, if_neg hx]
        rfl
    · show s.own x + pendingNew s.fresh x = _
      by_cases hx : x = s.fresh
      · rw [hx, hown, pendingNew, if_pos rfl, if_pos rfl, zero_add]
      · rw [pendingNew, if_neg hx, if_neg hx]
        rfl
    · by_cases hx : x = s.fresh
      · rw [Rdev.count, hx, hself, if_pos rfl]
      · rw [Rdev.count, hother x hx, if_neg hx]
        simp [Rdev.count]
  · intro x hx
    rcases hmem x hx with rfl | hx
    · rw [hself]
      exact .inl rfl
    · rw [hother x (hne x hx)]
      exact h.one x hx
  · intro x hx
    rw [Rdev.count]
    rcases hmem x hx with rfl | hx
    · rw [hself]
      exact Int.one_pos
    · rw [hother x (hne x hx)]
      exact h.pos x hx
  · intro x hx
    by_cases hxn : x = s.fresh
    · rw [hxn]
      exact Finset.mem_insert_self ..
    · rw [pendingNew, if_neg hxn] at hx
      exact Finset.mem_insert_of_mem (h.live x hx)
  · intro x hx
    rcases hmem x hx with rfl | hx
    · exact Nat.lt_succ_self _
    · exact (h.fresh x hx).trans (Nat.lt_succ_self _)
  · intro x hx
    rcases hmem x hx with rfl | hx
    · rw [hself]
      exact Nat.lt_succ_self _
    · rw [hother x (hne x hx)]
      exact (h.ring x hx).trans (Nat.lt_succ_self _)
  · intro x
    rw [pendingNew]
    split <;> omega
  · intro x hx hhold
    rcases hmem x hx with rfl | hx
    · rw [hself] at hhold
      exact absurd rfl hhold
    · rw [hother x (hne x hx)] at hhold
      rcases h.hold x hx hhold with hused | ⟨c, hc, htrans, hused⟩
      · exact .inl hused
      · refine .inr ⟨c, Finset.mem_insert_of_mem hc, ?_, hused⟩
        rw [hother c (hne c hc)]
        exact htrans
  · exact h.nodup
  · exact h.treeNodup
  · exact h.tree

/-! ### What an update must find -/

/-- The update combines the new entry with this one. -/
def Combines (s : Rdev) (tmp : InformBss) (b : ℕ) : Prop :=
  tmp.isProberesp = false ∧ b ∈ s.bssList ∧
    ∃ ssid ∈ hiddenSsid tmp.ies.data, combines s tmp ssid b = true
deriving Decidable

/-- The update joins the new entry to this one. -/
def Joins (s : Rdev) (tmp : InformBss) (b : ℕ) : Prop :=
  tmp.isProberesp = true ∧ hiddenBeaconFor s tmp = some b
deriving Decidable

/-- The entry can be taken off the list to make room. -/
def Evictable (s : Rdev) (b : ℕ) : Prop :=
  b ∈ s.bssList ∧ (s.bss b).hold = 0 ∧
    (s.hiddenListEmpty b = true ∨ (s.bss b).hiddenBeaconBss ≠ none)
deriving Decidable

/-- What a new entry must find: no entry gets two links, or a link to or from one that has a link;
if the table is full and nothing can be taken off, there is nothing to link to. -/
structure LinkOk (limit : ℤ) (s : Rdev) (tmp : InformBss) : Prop where
  joins : ∀ b, Joins s tmp b → tmp.transmittedBss = none ∧ s.link b = none
  combines : ∀ b, Combines s tmp b → tmp.transmittedBss = none ∧ (s.bss b).transmittedBss = none ∧
    ∀ c ∈ s.live, s.link c ≠ some b
  transmitted : ∀ p, tmp.transmittedBss = some p → s.link p = none
  room : limit ≤ s.bssEntries → (∃ b, Joins s tmp b ∨ Combines s tmp b) →
    ∃ b, Evictable s b ∧ ¬Joins s tmp b

/-- What combining has done so far: `s₁` is the table when it began. -/
structure Combining (s₁ s : Rdev) (n : ℕ) : Prop where
  inv : PendInv s (pendingNew n)
  live : s.live = s₁.live
  refs : s.refs = s₁.refs
  list : s.bssList = s₁.bssList
  entries : s.bssEntries = s₁.bssEntries
  new : s.link n = none ∧ (s.bss n).ring = (s₁.bss n).ring
  entry : ∀ x, x ≠ n → s.bss x = s₁.bss x ∨
    (s.bss x).hiddenBeaconBss = some n ∧ (s.bss x).ring = (s₁.bss n).ring ∧
      (s.bss x).hold = (s₁.bss x).hold

variable {tmp : InformBss}

theorem bss_combineBss {n b x : ℕ} (hxb : x ≠ b) (hxn : x ≠ n) :
    (combineBss s tmp n b).bss x = s.bss x := by
  simp [combineBss, Rdev.addRef, Rdev.upd, hxb, hxn]

theorem Combining.step {s₁ : Rdev} (h : Combining s₁ s n) (hn : n ∈ s.live)
    (hb : b ∈ s.bssList) (hne : b ≠ n) (hsame : s.bss b = s₁.bss b)
    (hhidden : (s₁.bss b).hiddenBeaconBss = none) (htrans : (s₁.bss b).transmittedBss = none)
    (hno : ∀ c ∈ s₁.live, c ≠ n → s₁.link c ≠ some b) : Combining s₁ (combineBss s tmp n b) n := by
  have hlive := TableInv.live_of_listed h.inv hb
  have hring := TableInv.ring h.inv n hn
  rw [← hsame] at hhidden htrans
  constructor
  · refine TableInv.relink h.inv hlive hn hne (link_eq_none_iff.mpr ⟨hhidden, htrans⟩) h.new.1 ?_
      (.inl ⟨rfl, htrans⟩) rfl rfl hring
    intro c hc hlink
    by_cases hcn : c = n
    · rw [hcn, h.new.1] at hlink
      cases hlink
    · rcases h.entry c hcn with hc' | ⟨hc', -, -⟩
      · rw [Rdev.link, hc'] at hlink
        exact hno c (h.live ▸ hc) hcn hlink
      · rw [link_of_hidden hc'] at hlink
        exact hne (Option.some.inj hlink).symm
  · exact h.live
  · exact h.refs
  · exact h.list
  · exact h.entries
  · have hnew : (combineBss s tmp n b).bss n =
        { s.bss n with refcount := (s.bss n).refcount + (s.bss b).refcount } := by
      simp [combineBss, Rdev.addRef, Rdev.upd, Ne.symm hne]
    rw [Rdev.link, hnew]
    exact h.new
  · intro x hx
    by_cases hxb : x = b
    · subst hxb
      refine .inr ?_
      simp [combineBss, Rdev.addRef, Rdev.upd, hx, h.new.2, hsame]
    · rw [bss_combineBss hxb hx]
      exact h.entry x hx

/-- What holds of the new entry, and is kept by each combination, holds in the end. An entry has not
changed when its turn comes. -/
theorem combineBsses_induction {P : Rdev → Prop} (hbeacon : tmp.isProberesp = false)
    (hnodup : s.bssList.Nodup) (hfresh : s.fresh ∉ s.bssList) (hstart : P (allocBss s tmp))
    (hstep : ∀ s' b, P s' → Combines s tmp b → s'.bss b = s.bss b → P (combineBss s' tmp s.fresh b)) :
    P (combineBsses (allocBss s tmp) tmp s.fresh) := by
  rw [combineBsses]
  split
  · exact hstart
  rename_i ssid hssid
  have hfold : ∀ (bs : List ℕ) (s' : Rdev), bs.Nodup → (∀ b ∈ bs, b ∈ s.bssList) →
      (∀ b ∈ bs, s'.bss b = s.bss b) → P s' →
      P (bs.foldl (fun s' b => if combines s' tmp ssid b then combineBss s' tmp s.fresh b else s') s') := by
    intro bs
    induction bs with
    | nil => exact fun s' _ _ _ h' => h'
    | cons b bs ih =>
      intro s' hnodup hmem hsame h'
      obtain ⟨hb, hnodup⟩ := nodup_cons.mp hnodup
      have hmem' : ∀ c ∈ bs, c ∈ s.bssList := fun c hc => hmem c (mem_cons_of_mem b hc)
      have hsame' : ∀ c ∈ bs, s'.bss c = s.bss c := fun c hc => hsame c (mem_cons_of_mem b hc)
      have hbs := hmem b mem_cons_self
      have hbss := hsame b mem_cons_self
      rw [foldl_cons]
      split
      · rename_i hcomb
        have hcomb : combines s tmp ssid b = true := by
          rw [combines, ← hbss]
          exact hcomb
        refine ih _ hnodup hmem' (fun c hc => ?_) (hstep s' b h' ⟨hbeacon, hbs, ssid, hssid, hcomb⟩ hbss)
        have hcb : c ≠ b := fun heq => hb (heq ▸ hc)
        have hcn : c ≠ s.fresh := fun heq => hfresh (heq ▸ hmem' c hc)
        rw [bss_combineBss hcb hcn]
        exact hsame' c hc
      · exact ih s' hnodup hmem' hsame' h'
  refine hfold s.bssList _ hnodup (fun _ hb => hb) (fun b hb => ?_) hstart
  have hbn : b ≠ s.fresh := fun heq => hfresh (heq ▸ hb)
  exact update_of_ne hbn ..

variable {limit : ℤ}

/-- **Combining keeps the counts exact.** -/
theorem combining_combineBsses (h : PendInv s 0)
    (hok : LinkOk limit s tmp) (hbeacon : tmp.isProberesp = false) :
    Combining (allocBss s tmp) (combineBsses (allocBss s tmp) tmp s.fresh) s.fresh := by
  have hn : s.fresh ∉ s.live := fun hmem => lt_irrefl _ (h.fresh _ hmem)
  have hother : ∀ x, x ≠ s.fresh → (allocBss s tmp).bss x = s.bss x :=
    fun x hx => update_of_ne hx ..
  have hlisted : s.fresh ∉ s.bssList := fun hmem => hn (TableInv.live_of_listed h hmem)
  refine combineBsses_induction (P := fun s' => Combining (allocBss s tmp) s' s.fresh) hbeacon h.nodup
    hlisted ?_ fun s' b h' hcombines hbss => ?_
  · exact ⟨h.alloc tmp, rfl, rfl, rfl, rfl, ⟨by simp [Rdev.link, allocBss, InformBss.toBss], rfl⟩,
      fun _ _ => .inl rfl⟩
  obtain ⟨-, htrans, hno⟩ := hok.combines b hcombines
  obtain ⟨-, hbs, ssid, hssid, hcomb⟩ := hcombines
  have hbn : b ≠ s.fresh := fun heq => hlisted (heq ▸ hbs)
  have hhidden : (s.bss b).hiddenBeaconBss = none := by
    simp only [combines, Bool.and_eq_true, Option.isNone_iff_eq_none] at hcomb
    exact hcomb.2
  refine h'.step ?_ ?_ hbn ?_ ?_ ?_ ?_
  · rw [h'.live]
    exact Finset.mem_insert_self ..
  · rw [h'.list]
    exact hbs
  · rw [hbss, hother b hbn]
  · rw [hother b hbn]
    exact hhidden
  · rw [hother b hbn]
    exact htrans
  · intro c hc hcn hlink
    rw [Rdev.link, hother c hcn] at hlink
    exact hno c (Finset.mem_of_mem_insert_of_ne hc hcn) hlink

theorem newBss_of_unlinked (hlist : ∀ b ∈ s.bssList, b ≠ s.fresh) (hjoin : ∀ b, ¬Joins s tmp b)
    (hcomb : ∀ b, ¬Combines s tmp b) : newBss s tmp = allocBss s tmp := by
  rw [newBss]
  split
  · rename_i hpresp
    split
    · rename_i hidden hhidden
      exact absurd ⟨hpresp, hhidden⟩ (hjoin hidden)
    · rfl
  · rename_i hpresp
    rw [combineBsses]
    split
    · rfl
    rename_i ssid hssid
    refine List.foldlRecOn (motive := fun s' => s' = allocBss s tmp) s.bssList _ rfl ?_
    rintro _ rfl b hb
    have hsame : (allocBss s tmp).bss b = s.bss b := update_of_ne (hlist b hb) ..
    rw [if_neg fun hc => hcomb b ⟨Bool.eq_false_iff.mpr hpresp, hb, ssid, hssid, ?_⟩]
    rw [combines, ← hsame]
    exact hc

/-- **A new entry, linked to those of its group.** -/
theorem PendInv.newBss (h : PendInv s 0) (hok : LinkOk limit s tmp) :
    PendInv (newBss s tmp) (pendingNew s.fresh) ∧ (newBss s tmp).refs = s.refs ∧
      (newBss s tmp).bssList = s.bssList ∧ (newBss s tmp).bssEntries = s.bssEntries := by
  rw [Mac80211.newBss]
  split
  · rename_i hpresp
    split
    · rename_i hidden hhidden
      refine ⟨?_, rfl, rfl, rfl⟩
      have hn : s.fresh ∉ s.live := fun hmem => lt_irrefl _ (h.fresh _ hmem)
      have halloc := h.alloc tmp
      have hlive := TableInv.hiddenBeaconFor_mem h hhidden
      have hne : s.fresh ≠ hidden := fun heq => hn (heq ▸ hlive)
      have hlink : ∀ x, x ≠ s.fresh → (allocBss s tmp).link x = s.link x := by
        intro x hx
        simp [Rdev.link, allocBss, hx]
      have hnew : (allocBss s tmp).link s.fresh = none := by
        simp [Rdev.link, allocBss, InformBss.toBss]
      have hone : (allocBss s tmp).count s.fresh = 1 := by simp [Rdev.count, allocBss]
      rw [joinHidden, ← hone]
      refine TableInv.relink halloc (Finset.mem_insert_self ..) (Finset.mem_insert_of_mem hlive) hne
        hnew ?_ ?_ (.inl ⟨rfl, ?_⟩) rfl rfl ?_
      · rw [hlink hidden (Ne.symm hne)]
        exact (hok.joins hidden ⟨hpresp, hhidden⟩).2
      · intro c hc hcn
        by_cases hcs : c = s.fresh
        · rw [hcs, hnew] at hcn
          cases hcn
        · rw [hlink c hcs] at hcn
          exact hn (h.counted.target c (Finset.mem_of_mem_insert_of_ne hc hcs) _ hcn).1
      · simp [allocBss, InformBss.toBss]
      · have hring := h.ring hidden hlive
        simp only [allocBss, update_of_ne (Ne.symm hne)]
        omega
    · exact ⟨h.alloc tmp, rfl, rfl, rfl⟩
  · rename_i hpresp
    have hcomb := combining_combineBsses h hok (Bool.eq_false_iff.mpr hpresp)
    exact ⟨hcomb.inv, hcomb.refs, hcomb.list, hcomb.entries⟩

/-! ### Making room -/

theorem hiddenListEmpty_iff : s.hiddenListEmpty b = true ↔
    ∀ c ∈ s.live, c ≠ b → (s.bss c).ring ≠ (s.bss b).ring := by
  simp [Rdev.hiddenListEmpty]

theorem Evictable.of_rings (hb : Evictable s b) (hlist : b ∈ s'.bssList) (hbss : s'.bss b = s.bss b)
    (hrings : ∀ c ∈ s'.live, c ≠ b → (s'.bss c).ring = (s.bss b).ring →
      ∃ d ∈ s.live, d ≠ b ∧ (s.bss d).ring = (s.bss b).ring) : Evictable s' b := by
  obtain ⟨-, hhold, hfree⟩ := hb
  refine ⟨hlist, by rw [hbss]; exact hhold, ?_⟩
  rw [hbss]
  refine hfree.imp_left fun hempty => ?_
  rw [hiddenListEmpty_iff] at hempty ⊢
  intro c hc hcb hring
  rw [hbss] at hring
  obtain ⟨d, hd, hdb, hdring⟩ := hrings c hc hcb hring
  exact hempty d hd hdb hdring

theorem evictable_newBss (h : PendInv s 0) (hok : LinkOk limit s tmp)
    (hb : Evictable s b) (hnot : ¬Joins s tmp b) : Evictable (newBss s tmp) b := by
  have hlive := TableInv.live_of_listed h hb.1
  have hbn : b ≠ s.fresh := by
    have hlt := h.fresh b hlive
    omega
  have hring := h.ring b hlive
  have hother : ∀ x, x ≠ s.fresh → (allocBss s tmp).bss x = s.bss x :=
    fun x hx => update_of_ne hx ..
  have hself : ((allocBss s tmp).bss s.fresh).ring = s.fresh := by simp [allocBss]
  have hmem : ∀ c ∈ (allocBss s tmp).live, c ≠ s.fresh → c ∈ s.live :=
    fun c hc hcn => Finset.mem_of_mem_insert_of_ne hc hcn
  rw [Mac80211.newBss]
  split
  · rename_i hpresp
    split
    · rename_i hidden hhidden
      have hbh : b ≠ hidden := fun heq => hnot ⟨hpresp, heq ▸ hhidden⟩
      have hhlive := TableInv.hiddenBeaconFor_mem h hhidden
      have hhn : hidden ≠ s.fresh := by
        have hlt := h.fresh hidden hhlive
        omega
      have hrings : ∀ c, c ≠ s.fresh →
          ((joinHidden (allocBss s tmp) s.fresh hidden).bss c).ring = (s.bss c).ring := by
        intro c hcn
        rw [← hother c hcn]
        by_cases hch : c = hidden
        · simp [joinHidden, Rdev.addRef, Rdev.upd, hch, hhn]
        · simp [joinHidden, Rdev.addRef, Rdev.upd, hch, hcn]
      refine hb.of_rings hb.1 ?_ fun c hc hcb hcring => ?_
      · rw [← hother b hbn]
        simp [joinHidden, Rdev.addRef, Rdev.upd, hbn, hbh]
      · by_cases hcn : c = s.fresh
        · refine ⟨hidden, hhlive, Ne.symm hbh, ?_⟩
          rw [← hcring, hcn, ← hother hidden hhn]
          simp [joinHidden, Rdev.addRef, Rdev.upd, Ne.symm hhn]
        · exact ⟨c, hmem c hc hcn, hcb, (hrings c hcn).symm.trans hcring⟩
    · refine hb.of_rings hb.1 (hother b hbn) fun c hc hcb hcring => ?_
      by_cases hcn : c = s.fresh
      · rw [hcn, hself] at hcring
        omega
      · exact ⟨c, hmem c hc hcn, hcb, by rw [← hother c hcn]; exact hcring⟩
  · rename_i hpresp
    have hcomb := combining_combineBsses h hok (Bool.eq_false_iff.mpr hpresp)
    have hlist : b ∈ (combineBsses (allocBss s tmp) tmp s.fresh).bssList := by
      rw [hcomb.list]
      exact hb.1
    rcases hcomb.entry b hbn with hsame | ⟨hhidden, -, hhold⟩
    · refine hb.of_rings hlist (hsame.trans (hother b hbn)) fun c hc hcb hcring => ?_
      by_cases hcn : c = s.fresh
      · rw [hcn, hcomb.new.2, hself] at hcring
        omega
      · rcases hcomb.entry c hcn with hcsame | ⟨-, hcring', -⟩
        · rw [hcsame, hother c hcn] at hcring
          exact ⟨c, hmem c (hcomb.live ▸ hc) hcn, hcb, hcring⟩
        · rw [hcring', hself] at hcring
          omega
    · refine ⟨hlist, ?_, .inr (by simp [hhidden])⟩
      rw [hhold, hother b hbn]
      exact hb.2.1

theorem oldestBss_ne_none (hb : Evictable s b) : oldestBss s ≠ none := by
  have hfold : ∀ (bs : List ℕ) (o : Option ℕ), bs.foldl (fun oldest b =>
      if (s.bss b).hold ≠ 0 then oldest
      else if !s.hiddenListEmpty b && (s.bss b).hiddenBeaconBss.isNone then oldest
      else if oldest.any fun o => timeAfter (s.bss b).ts (s.bss o).ts then oldest
      else some b) o = none → o = none ∧ b ∉ bs := by
    intro bs
    induction bs with
    | nil => exact fun o ho => ⟨ho, not_mem_nil⟩
    | cons c bs ih =>
      intro o ho
      rw [foldl_cons] at ho
      obtain ⟨hstep, hrest⟩ := ih _ ho
      have hc : b ≠ c := by
        rintro rfl
        rw [if_neg (by simp [hb.2.1]), if_neg] at hstep
        · split at hstep
          · rename_i hany
            rw [hstep] at hany
            cases hany
          · cases hstep
        · rcases hb.2.2 with hempty | hhidden
          · simp [hempty]
          · simp [hhidden]
      refine ⟨?_, by simp [hc, hrest]⟩
      split at hstep
      · exact hstep
      split at hstep
      · exact hstep
      split at hstep
      · exact hstep
      · cases hstep
  intro hnone
  exact (hfold s.bssList none hnone).2 hb.1

theorem unlinkBss_oldestBss (lib : RbLib) (h : oldestBss s = some b) :
    (unlinkBss lib s b).2 = true := by
  have hall : ∀ b, oldestBss s = some b →
      (!s.hiddenListEmpty b && (s.bss b).hiddenBeaconBss.isNone) = false := by
    refine List.foldlRecOn (motive := fun o => ∀ b, o = some b →
      (!s.hiddenListEmpty b && (s.bss b).hiddenBeaconBss.isNone) = false) s.bssList _
      (fun b hb => by cases hb) ?_
    intro oldest hold b _ c hc
    split at hc
    · exact hold c hc
    split at hc
    · exact hold c hc
    rename_i hfree
    split at hc
    · exact hold c hc
    · cases hc
      exact Bool.eq_false_iff.mpr hfree
  rw [unlinkBss, hall b h]
  rfl

variable {lib : RbLib}

theorem bssExpireOldest_failed (h : (bssExpireOldest lib s).2 = false) :
    (bssExpireOldest lib s).1 = s ∧ ∀ b, ¬Evictable s b := by
  rw [bssExpireOldest] at h ⊢
  split at h
  · rename_i hnone
    exact ⟨rfl, fun b hb => oldestBss_ne_none hb hnone⟩
  · rename_i b hb
    rw [unlinkBss_oldestBss lib hb] at h
    cases h

/-! ### Updates -/

/-- Entries may have gone, but there are no new links or references. -/
structure Rdev.Shrinks (s s' : Rdev) : Prop where
  link : s'.link = s.link
  live : s'.live ⊆ s.live
  refs : s'.refs = s.refs
  list : ∀ x ∈ s'.bssList, x ∈ s.bssList

theorem Rdev.Shrinks.refl (s : Rdev) : s.Shrinks s := ⟨rfl, subset_rfl, rfl, fun _ hx => hx⟩

theorem Rdev.Shrinks.trans {s₁ s₂ s₃ : Rdev} (h : s₁.Shrinks s₂) (h' : s₂.Shrinks s₃) :
    s₁.Shrinks s₃ :=
  ⟨h'.link.trans h.link, h'.live.trans h.live, h'.refs.trans h.refs,
    fun x hx => h.list x (h'.list x hx)⟩

theorem shrinks_bssDecRef (s : Rdev) (b : ℕ) : s.Shrinks (bssDecRef s b) := by
  have hlink : (s.addRef b (-1)).link = s.link := by
    funext x
    by_cases hx : x = b
    · simp [Rdev.link, Rdev.addRef, Rdev.upd, hx]
    · simp [Rdev.link, Rdev.addRef, Rdev.upd, hx]
  rw [bssDecRef]
  split
  · rw [bssFree]
    split
    · exact ⟨hlink, subset_rfl, rfl, fun _ hx => hx⟩
    · exact ⟨hlink, Finset.erase_subset .., rfl, fun _ hx => hx⟩
  · exact ⟨hlink, subset_rfl, rfl, fun _ hx => hx⟩

theorem bssRefPut_induct {P : Rdev → Rdev → Prop} (hdec : ∀ s b, P s (bssDecRef s b))
    (htrans : ∀ {s₁ s₂ s₃}, P s₁ s₂ → P s₂ s₃ → P s₁ s₃) (s : Rdev) (b : ℕ) : P s (bssRefPut s b) := by
  dsimp only [bssRefPut]
  rcases (s.bss b).hiddenBeaconBss with _ | h <;> dsimp only
  · rcases (s.bss b).transmittedBss with _ | t
    · exact hdec s b
    · exact htrans (hdec s t) (hdec _ b)
  · rcases ((bssDecRef s h).bss b).transmittedBss with _ | t
    · exact htrans (hdec s h) (hdec _ b)
    · exact htrans (htrans (hdec s h) (hdec _ t)) (hdec _ b)

theorem shrinks_bssRefPut (s : Rdev) (b : ℕ) : s.Shrinks (bssRefPut s b) :=
  bssRefPut_induct shrinks_bssDecRef .trans s b

theorem shrinks_unlinkBss (lib : RbLib) (s : Rdev) (b : ℕ) : s.Shrinks (unlinkBss lib s b).1 := by
  have hdel : s.Shrinks (if s.hiddenListEmpty b then s else s.hiddenListDel b) := by
    split
    · exact .refl s
    · refine ⟨?_, subset_rfl, rfl, fun _ hx => hx⟩
      funext x
      by_cases hx : x = b
      · simp [Rdev.link, Rdev.hiddenListDel, Rdev.upd, hx]
      · simp [Rdev.link, Rdev.hiddenListDel, Rdev.upd, hx]
  rw [unlinkBss]
  split
  · exact .refl s
  · refine (hdel.trans ⟨?_, ?_, ?_, ?_⟩).trans (shrinks_bssRefPut _ b)
    · rfl
    · exact subset_rfl
    · rfl
    · exact fun x hx => mem_of_mem_erase hx

theorem shrinks_bssExpireOldest (lib : RbLib) (s : Rdev) : s.Shrinks (bssExpireOldest lib s).1 := by
  rw [bssExpireOldest]
  split
  · exact .refl s
  · exact shrinks_unlinkBss lib s _

theorem PendInv.addList (h : PendInv s (pendingNew n)) (lib : RbLib) (hlist : n ∉ s.bssList) :
    PendInv (rbInsertBss lib { s with
      bssList := s.bssList ++ [n]
      bssEntries := s.bssEntries + 1 } n) 0 := by
  have htree : n ∉ s.bssTree.toList := fun hmem => hlist (h.tree n hmem)
  have hinsert : ∀ s' : Rdev, s' = rbInsertBss lib { s with
      bssList := s.bssList ++ [n]
      bssEntries := s.bssEntries + 1 } n →
      (∃ t, s' = { s with
        bssList := s.bssList ++ [n]
        bssEntries := s.bssEntries + 1
        bssTree := t } ∧ t.toList.Nodup ∧ ∀ x ∈ t.toList, x ∈ s.bssList ++ [n]) := by
    rintro s' rfl
    obtain ⟨hnodup, hmem⟩ := @nodup_rbInsertBss
      { s with
        bssList := s.bssList ++ [n]
        bssEntries := s.bssEntries + 1 } lib n h.treeNodup htree
    refine ⟨_, rbInsertBss_eq lib _ n, hnodup, fun x hx => ?_⟩
    rw [mem_append, mem_singleton]
    exact (hmem x hx).symm.imp_left (h.tree x)
  obtain ⟨t, hs', hnodup, hmem⟩ := hinsert _ rfl
  rw [hs']
  have hown : ∀ x, Rdev.own { s with
      bssList := s.bssList ++ [n]
      bssEntries := s.bssEntries + 1
      bssTree := t } x = s.own x + pendingNew n x := by
    intro x
    rw [Rdev.own, Rdev.own, pendingNew]
    by_cases hx : x = n
    · subst hx
      simp [hlist]
      omega
    · simp [hx]
  have hinv : TableInv { s with
      bssList := s.bssList ++ [n]
      bssEntries := s.bssEntries + 1
      bssTree := t } fun x => s.own x + pendingNew n x :=
    { counted := h.counted
      one := h.one
      pos := h.pos
      live := h.live
      fresh := h.fresh
      ring := h.ring
      own_ge := fun x => (hown x).le
      hold := h.hold
      nodup := by
        refine nodup_append.mpr ⟨h.nodup, nodup_singleton n, ?_⟩
        intro x hx y hy heq
        rw [mem_singleton] at hy
        exact hlist (hy ▸ heq ▸ hx)
      treeNodup := hnodup
      tree := hmem }
  refine hinv.own_congr fun x => ?_
  rw [hown]
  exact add_zero _

/-- **The new entry is linked to the one that transmits for it and put on the list**, and its caller
gets a reference. -/
theorem PendInv.link (h : PendInv s (pendingNew n)) (lib : RbLib) (hlist : n ∉ s.bssList)
    (htrans : ∀ p, tmp.transmittedBss = some p → p ∈ s.live ∧ p ≠ n ∧ s.link p = none ∧
      s.link n = none ∧ (∀ c ∈ s.live, s.link c ≠ some n) ∧ s.count n = 1) :
    PendInv (Rdev.handOut (linkBss lib s tmp n, some n)) 0 := by
  have hn : n ∈ s.live := by
    refine h.live n ?_
    have hnonneg := own_nonneg s n
    rw [pendingNew, if_pos rfl]
    omega
  rw [linkBss]
  cases hp : tmp.transmittedBss with
  | none =>
    have hadd := h.addList lib hlist
    refine hadd.get ?_
    rw [rbInsertBss]
    split <;> exact hn
  | some p =>
    obtain ⟨hlive, hne, hroot, hnone, hno, hone⟩ := htrans p hp
    have hget : bssRefGet (s.upd n fun e => { e with transmittedBss := some p }) p =
        (s.upd n fun e => { e with transmittedBss := some p }).addRef p (s.count n) := by
      have hlink : (s.upd n fun e => { e with transmittedBss := some p }).link p = none := by
        rw [← hroot]
        simp [Rdev.link, Rdev.upd, hne]
      rw [bssRefGet_eq (fun q hq => by simp [hlink] at hq), addRefs_of_none hlink, hone]
    have hlinked : PendInv
        ((s.upd n fun e => { e with transmittedBss := some p }).addRef p (s.count n))
        (pendingNew n) := by
      refine TableInv.relink h hn hlive (Ne.symm hne) hnone hroot hno (.inr ⟨?_, rfl⟩) rfl rfl
        (h.ring n hn)
      exact (link_eq_none_iff.mp hnone).1
    have hadd := hlinked.addList lib hlist
    dsimp only
    rw [hget]
    refine hadd.get ?_
    rw [rbInsertBss]
    split <;> exact hn

theorem keeps_updateKnownBss (s : Rdev) (b : ℕ) (tmp : InformBss) :
    s.Keeps (updateKnownBss s b tmp).1 := by
  rw [updateKnownBss]
  split
  · refine (keeps_upd s b ?_).trans (keeps_kfree _ _)
    exact fun e => ⟨⟨rfl, rfl, rfl, rfl⟩, rfl⟩
  split
  · exact keeps_kfree _ _
  · refine (Rdev.Keeps.trans ?_ (keeps_upd _ b ?_)).trans (keeps_kfree _ _)
    · refine ⟨rfl, rfl, rfl, rfl, rfl, rfl, rfl, fun x => ?_⟩
      dsimp only
      split <;> exact ⟨⟨rfl, rfl, rfl, rfl⟩, rfl⟩
    · exact fun e => ⟨⟨rfl, rfl, rfl, rfl⟩, rfl⟩

/-- **An update keeps the counts exact.** -/
theorem PendInv.update (h : PendInv s 0) {alloc : Bool}
    (hheld : ∀ p ∈ tmp.transmittedBss, 0 < s.refs p)
    (hok : rbFindBss s tmp.toBss .regular = none → alloc = true → LinkOk limit s tmp) :
    PendInv (Rdev.handOut (bssUpdate lib limit s tmp alloc)) 0 := by
  rw [bssUpdate]
  split
  · rename_i found hfound
    have hkeeps := keeps_updateKnownBss s found tmp
    have hinv := h.keeps hkeeps
    dsimp only
    split
    · refine hinv.get ?_
      rw [hkeeps.live]
      exact TableInv.live_of_listed h (TableInv.mem_of_rbFindBss h hfound)
    · exact hinv
  rename_i hfound
  split
  · exact h.keeps (keeps_kfree s (some tmp.ies))
  rename_i halloc
  have hok := hok hfound (by simpa using halloc)
  have hn : s.fresh ∉ s.live := fun hmem => lt_irrefl _ (h.fresh _ hmem)
  obtain ⟨hnew, hrefs, hlist, hentries⟩ := h.newBss hok
  have hunlinked : (∀ b, ¬Joins s tmp b) → (∀ b, ¬Combines s tmp b) →
      Mac80211.newBss s tmp = allocBss s tmp :=
    newBss_of_unlinked fun b hb heq => hn (heq ▸ TableInv.live_of_listed h hb)
  -- the table as it is once there is room, or as it was if there is none
  have hroom : ∀ r : Rdev × Bool, r = (if limit ≤ (Mac80211.newBss s tmp).bssEntries then
      bssExpireOldest lib (Mac80211.newBss s tmp) else (Mac80211.newBss s tmp, true)) →
      PendInv r.1 (pendingNew s.fresh) ∧ (Mac80211.newBss s tmp).Shrinks r.1 ∧
      (r.2 = false → r.1 = allocBss s tmp) := by
    rintro r rfl
    split
    · rename_i hfull
      refine ⟨hnew.expireOldest lib, shrinks_bssExpireOldest lib _, fun hfail => ?_⟩
      obtain ⟨hsame, hnone⟩ := bssExpireOldest_failed hfail
      rw [hsame]
      by_cases hlinks : ∃ b, Joins s tmp b ∨ Combines s tmp b
      · obtain ⟨b, hb, hnot⟩ := hok.room (hentries ▸ hfull) hlinks
        exact absurd (evictable_newBss h hok hb hnot) (hnone b)
      · rw [not_exists] at hlinks
        exact hunlinked (fun b hb => hlinks b (.inl hb)) fun b hb => hlinks b (.inr hb)
    · exact ⟨hnew, .refl _, nofun⟩
  generalize hr : (if limit ≤ (Mac80211.newBss s tmp).bssEntries then
    bssExpireOldest lib (Mac80211.newBss s tmp) else (Mac80211.newBss s tmp, true)) = r at hroom
  obtain ⟨hinv, hshrinks, hfail⟩ := hroom r rfl
  dsimp only
  rw [hr]
  split
  · have hnot : s.fresh ∉ r.1.bssList := by
      intro hmem
      have hmem' := hshrinks.list _ hmem
      rw [hlist] at hmem'
      exact hn (TableInv.live_of_listed h hmem')
    refine hinv.link lib hnot fun p hp => ?_
    -- an entry that has a transmitting BSS is linked to nothing else
    have hsame : Mac80211.newBss s tmp = allocBss s tmp := by
      refine hunlinked (fun b hb => ?_) fun b hb => ?_
      · rw [(hok.joins b hb).1] at hp
        cases hp
      · rw [(hok.combines b hb).1] at hp
        cases hp
    have hlink : ∀ x, x ≠ s.fresh → r.1.link x = s.link x := by
      intro x hx
      rw [hshrinks.link, hsame]
      simp [Rdev.link, allocBss, hx]
    have hlinkn : r.1.link s.fresh = none := by
      rw [hshrinks.link, hsame]
      simp [Rdev.link, allocBss, InformBss.toBss]
    have hplive : p ∈ s.live := TableInv.live_of_refs h (hheld p hp)
    have hpn : p ≠ s.fresh := fun heq => hn (heq ▸ hplive)
    have hno : ∀ c ∈ r.1.live, r.1.link c ≠ some s.fresh := by
      intro c hc hcn
      by_cases hcs : c = s.fresh
      · rw [hcs, hlinkn] at hcn
        cases hcn
      · rw [hlink c hcs] at hcn
        have hmem := hshrinks.live hc
        rw [hsame] at hmem
        exact hn (h.counted.target c (Finset.mem_of_mem_insert_of_ne hmem hcs) _ hcn).1
    have hrefs' : r.1.refs = s.refs := hshrinks.refs.trans hrefs
    refine ⟨?_, hpn, ?_, hlinkn, hno, ?_⟩
    · exact TableInv.live_of_refs hinv (by rw [hrefs']; exact hheld p hp)
    · rw [hlink p hpn]
      exact hok.transmitted p hp
    · have hown : r.1.own s.fresh = 0 := by
        have hzero := TableInv.own_eq_zero h hn
        rw [Rdev.own, if_neg hnot, hrefs']
        rw [Rdev.own] at hzero
        split at hzero <;> omega
      have hnlive : s.fresh ∈ r.1.live := by
        refine hinv.live _ ?_
        rw [hown, pendingNew, if_pos rfl]
        exact Int.one_pos
      rw [hinv.counted.count_eq_own hnlive hno, hown, pendingNew, if_pos rfl, zero_add]
  · rename_i hroom'
    rw [hfail (Bool.eq_false_iff.mpr hroom')]
    have hlive : (allocBss s tmp).live.erase s.fresh = s.live := Finset.erase_insert hn
    refine TableInv.congr (s := s) h hlive rfl (Nat.le_succ _) (fun x hx => ?_) (fun x hx => ?_)
      (List.Sublist.refl _) (List.Sublist.refl _) h.tree
    · have hx' : x ≠ s.fresh := fun heq => hn (heq ▸ hx)
      simp [Rdev.handOut, allocBss, hx', Bss.SameRefs]
    · have hx' : x ≠ s.fresh := fun heq => hn (heq ▸ hx)
      have hring := h.ring x hx
      simp only [Rdev.handOut, allocBss, update_of_ne hx']
      omega

/-! ### Runs -/

/-- What a step must find. Callers hold and unhold entries they have a reference on, and unhold them
before they give it back. -/
def BssCond (limit : ℤ) (s : Rdev) (_ : List Empty) : BssOp → Prop
  | .update tmp alloc =>
    rbFindBss s tmp.toBss .regular = none → alloc = true → LinkOk limit s tmp
  | .put b => ∀ x ∈ s.live, (s.bss x).hold ≠ 0 →
      Rdev.Used { s with refs := Function.update s.refs b (s.refs b - 1) } x
  | .hold b => 0 < s.refs b
  | .unhold b => 0 < s.refs b
  | _ => True

theorem PendInv.addHold (h : PendInv s 0) (hb : 0 < s.refs b) (n : ℤ) :
    PendInv (addHold s b n) 0 := by
  have hlive := TableInv.live_of_refs h hb
  have hbss : ∀ x, ∃ k, (Mac80211.addHold s b n).bss x = { s.bss x with hold := k } ∧
      (k ≠ 0 → (s.bss x).hold ≠ 0 ∨ s.Used x) := by
    intro x
    cases htrans : (s.bss b).transmittedBss with
    | none =>
      by_cases hx : x = b
      · subst hx
        exact ⟨(s.bss x).hold + n, by simp [Mac80211.addHold, Rdev.upd, htrans],
          fun _ => .inr (.inl hb)⟩
      · exact ⟨(s.bss x).hold, by simp [Mac80211.addHold, Rdev.upd, htrans, hx], .inl⟩
    | some t =>
      have hne : t ≠ b := by
        have hlink := link_of_not_hidden ((h.one b hlive).resolve_right (by simp [htrans]))
        exact ne_of_link (h.counted.target b hlive) (hlink.trans htrans)
      by_cases hxt : x = t
      · subst hxt
        exact ⟨(s.bss x).hold + n, by simp [Mac80211.addHold, Rdev.upd, htrans, hne],
          fun _ => .inr (.inr ⟨b, hlive, htrans, hb⟩)⟩
      · by_cases hx : x = b
        · subst hx
          exact ⟨(s.bss x).hold + n, by simp [Mac80211.addHold, Rdev.upd, htrans, hxt],
            fun _ => .inr (.inl hb)⟩
        · exact ⟨(s.bss x).hold, by simp [Mac80211.addHold, Rdev.upd, htrans, hx, hxt], .inl⟩
  have hfields : (Mac80211.addHold s b n).live = s.live ∧ (Mac80211.addHold s b n).refs = s.refs ∧
      (Mac80211.addHold s b n).fresh = s.fresh ∧ (Mac80211.addHold s b n).bssList = s.bssList ∧
      (Mac80211.addHold s b n).bssTree = s.bssTree := by
    rw [Mac80211.addHold]
    split <;> exact ⟨rfl, rfl, rfl, rfl, rfl⟩
  obtain ⟨hl, hr, hf, hlist, htree⟩ := hfields
  have hown : (Mac80211.addHold s b n).own = s.own := by
    funext x
    rw [Rdev.own, Rdev.own, hlist, hr]
  have hlink : (Mac80211.addHold s b n).link = s.link := by
    funext x
    obtain ⟨k, hx, -⟩ := hbss x
    rw [Rdev.link, hx]
    rfl
  have hcount : (Mac80211.addHold s b n).count = s.count := by
    funext x
    obtain ⟨k, hx, -⟩ := hbss x
    rw [Rdev.count, hx]
    rfl
  have htrans : ∀ x, ((Mac80211.addHold s b n).bss x).transmittedBss = (s.bss x).transmittedBss := by
    intro x
    obtain ⟨k, hx, -⟩ := hbss x
    rw [hx]
  constructor
  · rw [hl, hlink, hown, hcount]
    exact h.counted
  · intro x hx
    obtain ⟨k, hx', -⟩ := hbss x
    rw [hx']
    exact h.one x (hl ▸ hx)
  · rw [hl, hcount]
    exact h.pos
  · rw [hl, hown]
    exact h.live
  · rw [hl, hf]
    exact h.fresh
  · intro x hx
    obtain ⟨k, hx', -⟩ := hbss x
    rw [hx', hf]
    exact h.ring x (hl ▸ hx)
  · rw [hown]
    exact h.own_ge
  · intro x hx hhold
    obtain ⟨k, hx', hused⟩ := hbss x
    rw [hx'] at hhold
    have hused : s.Used x := (hused hhold).elim (h.hold x (hl ▸ hx)) id
    rw [Rdev.Used, hl, hr]
    simp only [htrans]
    exact hused
  · rw [hlist]
    exact h.nodup
  · rw [htree]
    exact h.treeNodup
  · rw [hlist, htree]
    exact h.tree

theorem PendInv.putRef (h : PendInv s 0) (hb : 0 < s.refs b)
    (hhold : ∀ x ∈ s.live, (s.bss x).hold ≠ 0 →
      Rdev.Used { s with refs := Function.update s.refs b (s.refs b - 1) } x) :
    PendInv (bssRefPut { s with refs := Function.update s.refs b (s.refs b - 1) } b) 0 := by
  generalize hs' : ({ s with refs := Function.update s.refs b (s.refs b - 1) } : Rdev) = s' at hhold ⊢
  have hown : ∀ x, s'.own x = s.own x - if x = b then 1 else 0 := by
    intro x
    rw [← hs', Rdev.own, Rdev.own]
    by_cases hx : x = b
    · subst hx
      simp only [update_self, if_true]
      omega
    · simp [hx]
  have hinv : TableInv s' fun x => s.own x + 0 := by
    have hge : ∀ x, s'.own x ≤ s.own x + 0 := by
      intro x
      rw [hown]
      split <;> omega
    subst hs'
    exact
      { counted := h.counted
        one := h.one
        pos := h.pos
        live := h.live
        fresh := h.fresh
        ring := h.ring
        own_ge := hge
        hold := hhold
        nodup := h.nodup
        treeNodup := h.treeNodup
        tree := h.tree }
  refine (hinv.put ?_).own_congr fun x => ?_
  · rw [hown, if_pos rfl]
    omega
  · rw [Rdev.own, (bssRefPut_fields s' b).1, (bssRefPut_fields s' b).2, ← Rdev.own, hown]
    show s.own x - _ + 0 = s.own x + 0 - _
    omega

/-- **One step.** -/
theorem PendInv.step (h : PendInv s 0) {op : BssOp} {os : List Empty}
    (hcond : BssCond limit s os op) {o : List Empty}
    (hstep : bssStep lib limit s op = some (s', o)) : PendInv s' 0 := by
  cases op <;>
    simp only [bssStep, Option.ite_none_right_eq_some, Option.some.injEq, Prod.mk.injEq] at hstep
  case update tmp alloc =>
    obtain ⟨hheld, rfl, -⟩ := hstep
    exact h.update hheld hcond
  case get q =>
    obtain ⟨rfl, -⟩ := hstep
    rw [getBss]
    split
    · rename_i b hb
      exact h.get (TableInv.live_of_listed h (mem_of_find?_eq_some hb))
    · exact h
  case ref b =>
    obtain ⟨hb, rfl, -⟩ := hstep
    exact h.get hb
  case put b =>
    obtain ⟨hb, rfl, -⟩ := hstep
    exact h.putRef hb hcond
  case unlink b =>
    obtain ⟨hb, rfl, -⟩ := hstep
    exact h.unlink lib hb
  case expire expireTime =>
    obtain ⟨rfl, -⟩ := hstep
    exact h.expire lib expireTime
  case hold b =>
    obtain ⟨-, rfl, -⟩ := hstep
    exact h.addHold hcond 1
  case unhold b =>
    obtain ⟨-, rfl, -⟩ := hstep
    exact h.addHold hcond (-1)

theorem pendInv_empty : PendInv {} 0 where
  counted := ⟨nofun, nofun, nofun⟩
  one := nofun
  pos := nofun
  live := by
    intro b hb
    simp [Rdev.own] at hb
  fresh := nofun
  ring := nofun
  own_ge := fun b => (add_zero _).ge
  hold := nofun
  nodup := nodup_nil
  treeNodup := nodup_nil
  tree := nofun

/-- The entry is pointed to by another one. -/
def Rdev.PointsTo (s : Rdev) (c b : ℕ) : Prop :=
  (s.bss c).hiddenBeaconBss = some b ∨ (s.bss c).transmittedBss = some b
deriving Decidable

theorem TableInv.pointsTo_iff (h : TableInv s own) {c : ℕ} (hc : c ∈ s.live) :
    s.PointsTo c b ↔ s.link c = some b := by
  rw [Rdev.PointsTo]
  rcases h.one c hc with hnone | hnone
  · rw [link_of_not_hidden hnone, hnone]
    simp
  · rw [Rdev.link, hnone]
    cases (s.bss c).hiddenBeaconBss <;> simp

/-- **In every run whose steps find what they must, every count is exact, and an entry is there exactly
as long as something refers to it.** -/
theorem refcounts_of_reach {lib : RbLib} {limit : ℤ} {os : List Empty}
    (h : Reach (bssStep lib limit) (BssCond limit) {} s os) :
    (∀ b ∈ s.live, (s.bss b).refcount = (if b ∈ s.bssList then 1 else 0) + s.refs b +
      ∑ c ∈ s.live with s.PointsTo c b, (s.bss c).refcount) ∧
    ∀ b, b ∈ s.live ↔ b ∈ s.bssList ∨ 0 < s.refs b ∨ ∃ c ∈ s.live, s.PointsTo c b := by
  have hinv : PendInv s 0 := by
    refine h.invariant (fun s _ => PendInv s 0) pendInv_empty ?_
    intro s os op s' o hinv hcond hstep
    exact hinv.step hcond hstep
  have hsum : ∀ b ∈ s.live, s.count b =
      s.own b + ∑ c ∈ s.live with s.PointsTo c b, s.count c := by
    intro b hb
    rw [hinv.counted.count_eq_sum hb, Finset.filter_congr fun c hc => TableInv.pointsTo_iff hinv hc]
    exact congrArg (· + _) (add_zero _)
  refine ⟨hsum, fun b => ⟨fun hb => ?_, ?_⟩⟩
  · by_contra hnone
    rw [not_or, not_or, not_exists] at hnone
    obtain ⟨hlist, hrefs, hpoints⟩ := hnone
    have hpos := hinv.pos b hb
    rw [hsum b hb, Rdev.own, if_neg hlist, Finset.filter_false_of_mem fun c hc hcb =>
      hpoints c ⟨hc, hcb⟩, Finset.sum_empty] at hpos
    omega
  · rintro (hlist | hrefs | ⟨c, hc, hcb⟩)
    · exact TableInv.live_of_listed hinv hlist
    · exact TableInv.live_of_refs hinv hrefs
    · exact (hinv.counted.target c hc b ((TableInv.pointsTo_iff hinv hc).mp hcb)).1

end Updates

/-! ### Two runs -/

instance (s : Rdev) (b : ℕ) : Decidable (s.Used b) :=
  inferInstanceAs (Decidable (_ ∨ _))

instance (limit : ℤ) (s : Rdev) (tmp : InformBss) : Decidable (LinkOk limit s tmp) :=
  decidable_of_iff
    ((∀ b ∈ hiddenBeaconFor s tmp, Joins s tmp b → tmp.transmittedBss = none ∧ s.link b = none) ∧
      (∀ b ∈ s.bssList, Combines s tmp b → tmp.transmittedBss = none ∧
        (s.bss b).transmittedBss = none ∧ ∀ c ∈ s.live, s.link c ≠ some b) ∧
      (∀ p ∈ tmp.transmittedBss, s.link p = none) ∧
      (limit ≤ s.bssEntries →
        ((∃ b ∈ hiddenBeaconFor s tmp, Joins s tmp b) ∨ ∃ b ∈ s.bssList, Combines s tmp b) →
        ∃ b ∈ s.bssList, Evictable s b ∧ ¬Joins s tmp b))
    ⟨fun ⟨hjoins, hcombines, htrans, hroom⟩ =>
      { joins := fun b hb => hjoins b hb.2 hb
        combines := fun b hb => hcombines b hb.2.1 hb
        transmitted := htrans
        room := fun hfull hlinks => by
          obtain ⟨b, hb | hb⟩ := hlinks
          · obtain ⟨c, -, hc⟩ := hroom hfull (.inl ⟨b, hb.2, hb⟩)
            exact ⟨c, hc⟩
          · obtain ⟨c, -, hc⟩ := hroom hfull (.inr ⟨b, hb.2.1, hb⟩)
            exact ⟨c, hc⟩ },
    fun h => ⟨fun b _ => h.joins b, fun b _ => h.combines b, h.transmitted, fun hfull hlinks => by
      have hlinks : ∃ b, Joins s tmp b ∨ Combines s tmp b := by
        obtain ⟨b, -, hb⟩ | ⟨b, -, hb⟩ := hlinks
        · exact ⟨b, .inl hb⟩
        · exact ⟨b, .inr hb⟩
      obtain ⟨c, hc⟩ := h.room hfull hlinks
      exact ⟨c, hc.1.1, hc⟩⟩⟩

instance (limit : ℤ) (s : Rdev) (os : List Empty) (op : BssOp) : Decidable (BssCond limit s os op) := by
  unfold BssCond
  split <;> infer_instance

/-- Take the leftmost entry out. -/
def BssTree.popMin : BssTree → Option (ℕ × BssTree)
  | nil => none
  | node l b r =>
    match l.popMin with
    | none => some (b, r)
    | some (m, l) => some (m, node l b r)

theorem toList_popMin : ∀ t : BssTree, t.toList = (t.popMin.elim [] fun m => m.1 :: m.2.toList)
  | .nil => rfl
  | .node l b r => by
    have hl := toList_popMin l
    rw [BssTree.toList, hl, BssTree.popMin]
    cases l.popMin <;> rfl

/-- What is left of an entry's place: the next one takes it if there are two children. -/
def BssTree.join (l r : BssTree) : BssTree :=
  match r.popMin with
  | none => l
  | some (m, r') =>
    match l with
    | nil => r
    | l => node l m r'

theorem toList_join (l r : BssTree) : (l.join r).toList = l.toList ++ r.toList := by
  have hr := toList_popMin r
  rw [BssTree.join]
  cases hpop : r.popMin with
  | none => simp [hr, hpop]
  | some m =>
    cases l with
    | nil => rfl
    | node => simp [hr, hpop, BssTree.toList]

/-- Take an entry out. -/
def BssTree.remove (x : ℕ) : BssTree → BssTree
  | nil => nil
  | node l b r =>
    if x ∈ l.toList then node (l.remove x) b r
    else if b = x then l.join r
    else node l b (r.remove x)

theorem toList_remove (x : ℕ) : ∀ t : BssTree, (t.remove x).toList = t.toList.erase x
  | .nil => rfl
  | .node l b r => by
    rw [BssTree.remove, BssTree.toList]
    split
    · rename_i hx
      rw [BssTree.toList, toList_remove x l, erase_append_left _ hx]
    · rename_i hx
      rw [erase_append_right _ hx]
      split
      · rename_i hb
        rw [hb, erase_cons_head, toList_join]
      · rename_i hb
        rw [BssTree.toList, toList_remove x r, erase_cons_tail (by simpa using hb)]

/-- A tree that need not be rebalanced. -/
def plainRb : RbLib where
  insertColor := id
  erase := fun t b => t.remove b
  toList_insertColor := fun _ => rfl
  toList_erase := fun t b => toList_remove b t

/-- What is told of a BSS on channel 1. -/
def informBss (last : UInt8) (isProberesp : Bool) (ssid : List UInt8) (p : Option ℕ) : InformBss where
  bssid := localMac last
  channel := ⟨2412, false⟩
  capability := 1
  isProberesp := isProberesp
  ies := { data := 0 :: ssid.length.toUInt8 :: ssid }
  ts := 10
  transmittedBss := p

/-- A hidden network shows its SSID in a probe response, and another one, which transmits for a third,
is taken off the list. -/
def fourBsses : List BssOp :=
  [.update (informBss 9 false [] none) true, .put 0, .update (informBss 9 true [65] none) true,
    .update (informBss 12 false [66] none) true, .update (informBss 13 false [67] (some 2)) true,
    .hold 3, .put 2, .unlink 2, .get { bssid := some (localMac 9), ssid := some [65] }, .put 1]

theorem refcounts_fourBsses : ∃ s os, Reach (bssStep plainRb 1000) (BssCond 1000) {} s os ∧
    2 ∉ s.bssList ∧ s.refs 2 = 0 ∧ 2 ∈ s.live := by
  have hmeets : Meets (bssStep plainRb 1000) (BssCond 1000) {} [] fourBsses := by decide +kernel
  have hrun : (run (bssStep plainRb 1000) {} fourBsses).map
      (fun r => (r.1.bssList, r.1.refs 2, (r.1.bss 3).transmittedBss)) =
        some ([0, 1, 3], 0, some 2) := by
    decide +kernel
  obtain ⟨⟨s, os⟩, hs, hfields⟩ := Option.map_eq_some_iff.mp hrun
  simp only [Prod.mk.injEq] at hfields
  obtain ⟨hlist, hrefs, htrans⟩ := hfields
  have hreach := Reach.of_run .init hmeets hs
  have hlive := (refcounts_of_reach hreach).2
  have hthree : 3 ∈ s.live := (hlive 3).mpr (.inl (by simp [hlist]))
  refine ⟨s, os, hreach, by simp [hlist], hrefs, ?_⟩
  exact (hlive 2).mpr (.inr (.inr ⟨3, hthree, .inr htrans⟩))

/-- A BSS that another one transmits for has a hidden SSID. -/
def hiddenNontransmitted : List BssOp :=
  [.update (informBss 9 false [] none) true, .put 0, .update (informBss 12 true [65] none) true,
    .update (informBss 9 true [66] (some 1)) true, .put 2, .put 1, .unlink 1]

/-- **The transmitting BSS is freed while an entry on the list points to it.** -/
theorem transmitting_bss_freed : ∃ s os, Reach (bssStep plainRb 1000) (fun _ _ _ => True) {} s os ∧
    2 ∈ s.live ∧ 2 ∈ s.bssList ∧ (s.bss 2).transmittedBss = some 1 ∧ 1 ∉ s.live := by
  have hrun : (run (bssStep plainRb 1000) {} hiddenNontransmitted).map
      (fun r => (r.1.live, r.1.bssList, (r.1.bss 2).transmittedBss)) =
        some ({0, 2}, [0, 2], some 1) := by
    decide +kernel
  obtain ⟨⟨s, os⟩, hs, hfields⟩ := Option.map_eq_some_iff.mp hrun
  simp only [Prod.mk.injEq] at hfields
  obtain ⟨hlive, hlist, htrans⟩ := hfields
  refine ⟨s, os, Reach.of_run_init hs, ?_, ?_, htrans, ?_⟩
  · rw [hlive]
    decide
  · rw [hlist]
    decide
  · rw [hlive]
    decide

end Mac80211
