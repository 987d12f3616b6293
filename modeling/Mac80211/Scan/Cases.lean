import Mac80211.Scan.Nontransmitted

/-!
# What the functions of the table come to

Each function of the table case by case; everything that is said of entries later rests on this.

## Main results

* `unlinkBss_cases`, `bssUpdate_cases`, `bssStep_cases`
-/

namespace Mac80211

open Machine References ListHead List

variable {s s' : Rdev} {b : ℕ}

/-! ### Counts -/

/-- Other counts, and nothing else. -/
def Rdev.withCounts (s : Rdev) (c : ℕ → ℤ) : Rdev :=
  { s with bss := fun x => { s.bss x with refcount := c x } }

/-- Counts have changed, and some entries have been freed. -/
structure Rdev.Recounts (s s' : Rdev) : Prop where
  eq : ∃ c freed, s' =
    { s.withCounts c with
      live := s'.live
      freed := freed }
  live : s'.live ⊆ s.live

theorem Rdev.Recounts.refl (s : Rdev) : s.Recounts s :=
  ⟨⟨fun x => (s.bss x).refcount, s.freed, rfl⟩, subset_rfl⟩

theorem Rdev.Recounts.trans {s₁ s₂ s₃ : Rdev} (h : s₁.Recounts s₂) (h' : s₂.Recounts s₃) :
    s₁.Recounts s₃ := by
  obtain ⟨⟨c, freed, hs₂⟩, hlive⟩ := h
  obtain ⟨⟨c', freed', hs₃⟩, hlive'⟩ := h'
  refine ⟨⟨c', freed', ?_⟩, hlive'.trans hlive⟩
  rw [hs₂] at hs₃
  exact hs₃

theorem addRef_eq (s : Rdev) (b : ℕ) (n : ℤ) : ∃ c, s.addRef b n = s.withCounts c := by
  refine ⟨Function.update (fun x => (s.bss x).refcount) b ((s.bss b).refcount + n), ?_⟩
  simp only [Rdev.addRef, Rdev.upd, Rdev.withCounts]
  congr 1
  funext x
  by_cases hx : x = b
  · subst hx
    simp
  · simp [hx]

theorem recounts_addRef (s : Rdev) (b : ℕ) (n : ℤ) : s.Recounts (s.addRef b n) := by
  obtain ⟨c, hc⟩ := addRef_eq s b n
  rw [hc]
  exact ⟨⟨c, s.freed, rfl⟩, subset_rfl⟩

theorem recounts_bssDecRef (s : Rdev) (b : ℕ) : s.Recounts (bssDecRef s b) := by
  rw [bssDecRef]
  split
  · refine (recounts_addRef s b (-1)).trans ?_
    rw [bssFree]
    split
    · exact .refl _
    · exact ⟨⟨fun x => ((s.addRef b (-1)).bss x).refcount, _, rfl⟩, Finset.erase_subset ..⟩
  · exact recounts_addRef s b (-1)

/-- **Putting an entry changes counts**, and what is freed. -/
theorem recounts_bssRefPut (s : Rdev) (b : ℕ) : s.Recounts (bssRefPut s b) :=
  bssRefPut_induct recounts_bssDecRef .trans s b

/-- **Getting an entry changes counts.** -/
theorem bssRefGet_eq_withCounts (s : Rdev) (b : ℕ) : ∃ c, bssRefGet s b = s.withCounts c := by
  rw [bssRefGet]
  split
  rename_i s₁ b₁ hs₁
  have hs₁' : ∃ c, s₁ = s.withCounts c := by
    obtain ⟨c, hc⟩ := addRef_eq s b 1
    rw [hc] at hs₁
    split at hs₁
    · cases hs₁
      obtain ⟨c', hc'⟩ := addRef_eq (s.withCounts c) _ 1
      exact ⟨c', hc'⟩
    · cases hs₁
      exact ⟨c, rfl⟩
  obtain ⟨c, rfl⟩ := hs₁'
  rcases ((s.withCounts c).bss b₁).transmittedBss with _ | t
  · exact ⟨c, rfl⟩
  · exact addRef_eq (s.withCounts c) t 1

/-! ### What the functions come to -/

/-- The entry is off the list, and out of its ring. -/
def unlinked (lib : RbLib) (s : Rdev) (b : ℕ) : Rdev :=
  let s := if s.hiddenListEmpty b then s else s.hiddenListDel b
  { s with
    bssList := s.bssList.erase b
    nontrans := s.nontrans.delInit b
    bssTree := lib.erase s.bssTree b
    bssEntries := s.bssEntries - 1 }

/-- The entry of a hidden beacon that has others in its ring. -/
def Rdev.Refuses (s : Rdev) (b : ℕ) : Prop :=
  s.hiddenListEmpty b = false ∧ (s.bss b).hiddenBeaconBss = none
deriving Decidable

theorem unlinkBss_eq (lib : RbLib) (s : Rdev) (b : ℕ) :
    s.Refuses b ∧ unlinkBss lib s b = (s, false) ∨
      ¬ s.Refuses b ∧ unlinkBss lib s b = (bssRefPut (unlinked lib s b) b, true) := by
  by_cases hrefuses : s.Refuses b
  · refine .inl ⟨hrefuses, ?_⟩
    rw [unlinkBss, hrefuses.1, hrefuses.2]
    rfl
  · refine .inr ⟨hrefuses, ?_⟩
    have hcond : (!s.hiddenListEmpty b && (s.bss b).hiddenBeaconBss.isNone) = false := by
      rw [Bool.eq_false_iff]
      intro hboth
      rw [Bool.and_eq_true, Bool.not_eq_true', Option.isNone_iff_eq_none] at hboth
      exact hrefuses hboth
    rw [unlinkBss, hcond]
    rfl

/-- **What unlinking an entry comes to.** -/
theorem unlinkBss_cases (lib : RbLib) (s : Rdev) (b : ℕ) :
    s.Refuses b ∧ unlinkBss lib s b = (s, false) ∨
      ¬ s.Refuses b ∧ (unlinkBss lib s b).2 = true ∧
        (unlinked lib s b).Recounts (unlinkBss lib s b).1 := by
  refine (unlinkBss_eq lib s b).imp_right fun ⟨hnot, heq⟩ => ⟨hnot, ?_⟩
  rw [heq]
  exact ⟨rfl, recounts_bssRefPut _ b⟩

theorem unlinked_entry (lib : RbLib) (s : Rdev) (b x : ℕ) :
    ∃ r, (unlinked lib s b).bss x = { s.bss x with ring := r } ∧ (x ≠ b → r = (s.bss x).ring) := by
  rw [unlinked]
  split
  · exact ⟨(s.bss x).ring, rfl, fun _ => rfl⟩
  · by_cases hx : x = b
    · subst hx
      exact ⟨s.fresh, by simp [Rdev.hiddenListDel, Rdev.upd], fun hne => absurd rfl hne⟩
    · exact ⟨(s.bss x).ring, by simp [Rdev.hiddenListDel, Rdev.upd, hx], fun _ => rfl⟩

theorem unlinkBss_entry (lib : RbLib) (s : Rdev) (b x : ℕ) :
    ∃ c r, (unlinkBss lib s b).1.bss x = { s.bss x with refcount := c, ring := r } := by
  rcases unlinkBss_cases lib s b with ⟨-, heq⟩ | ⟨-, -, hrec⟩
  · rw [heq]
    exact ⟨(s.bss x).refcount, (s.bss x).ring, rfl⟩
  · obtain ⟨c, freed, heq⟩ := hrec.eq
    obtain ⟨r, hr, -⟩ := unlinked_entry lib s b x
    refine ⟨c x, r, ?_⟩
    rw [heq]
    show { (unlinked lib s b).bss x with refcount := c x } = _
    rw [hr]

/-- What an entry that is taken off the list leaves. -/
structure Unlinks (lib : RbLib) (s : Rdev) (b : ℕ) (s' : Rdev) : Prop where
  list : s'.bssList = s.bssList.erase b
  tree : s'.bssTree = lib.erase s.bssTree b
  entries : s'.bssEntries = s.bssEntries - 1
  nontrans : s'.nontrans = s.nontrans.delInit b
  fresh : s.fresh ≤ s'.fresh
  ring : ∀ x, (s.bss x).ring < s.fresh → (s'.bss x).ring < s'.fresh

theorem unlinks_unlinked (lib : RbLib) (s : Rdev) (b : ℕ) : Unlinks lib s b (unlinked lib s b) := by
  rw [unlinked]
  split
  · exact ⟨rfl, rfl, rfl, rfl, le_rfl, fun _ hlt => hlt⟩
  · refine ⟨rfl, rfl, rfl, rfl, Nat.le_succ _, fun x hlt => ?_⟩
    by_cases hx : x = b
    · subst hx
      simp [Rdev.hiddenListDel, Rdev.upd]
    · simp only [Rdev.hiddenListDel, Rdev.upd, Function.update_of_ne hx]
      omega

/-- **An entry that is not refused is taken off the list.** -/
theorem unlinks_of_not_refuses (lib : RbLib) (hnot : ¬ s.Refuses b) :
    Unlinks lib s b (unlinkBss lib s b).1 := by
  rcases unlinkBss_cases lib s b with ⟨hrefuses, -⟩ | ⟨-, -, hrec⟩
  · exact absurd hrefuses hnot
  · obtain ⟨c, freed, heq⟩ := hrec.eq
    have hun := unlinks_unlinked lib s b
    rw [heq]
    exact ⟨hun.list, hun.tree, hun.entries, hun.nontrans, hun.fresh, hun.ring⟩

theorem unlinkBss_live (lib : RbLib) (s : Rdev) (b : ℕ) : (unlinkBss lib s b).1.live ⊆ s.live :=
  (shrinks_unlinkBss lib s b).live

variable {lib : RbLib}

theorem mem_bssList_unlinkBss (hnodup : s.bssList.Nodup) {x : ℕ} :
    x ∈ (unlinkBss lib s b).1.bssList ↔ x ∈ s.bssList ∧ (x = b → s.Refuses b) := by
  rcases unlinkBss_cases lib s b with ⟨hrefuses, heq⟩ | ⟨hnot, -⟩
  · rw [heq]
    exact ⟨fun hx => ⟨hx, fun _ => hrefuses⟩, And.left⟩
  · rw [(unlinks_of_not_refuses lib hnot).list, hnodup.mem_erase_iff]
    exact ⟨fun hx => ⟨hx.2, fun heq => absurd heq hx.1⟩, fun hx => ⟨fun heq => hnot (hx.2 heq), hx.1⟩⟩

/-- The information is dropped: a probe response that belongs to a hidden beacon is told of in a
beacon. -/
def Dropped (s : Rdev) (known : ℕ) (tmp : InformBss) : Prop :=
  tmp.isProberesp = false ∧ (s.bss known).hiddenBeaconBss ≠ none ∧ s.hiddenListEmpty known = false
deriving Decidable

/-- The elements that a known entry has after an update. -/
def iesAfter (s : Rdev) (known : ℕ) (tmp : InformBss) : Option BssIes :=
  if tmp.isProberesp = true ∨ (s.bss known).beaconIes = (s.bss known).ies then some tmp.ies
  else (s.bss known).ies

theorem updateKnownBss_snd (s : Rdev) (known : ℕ) (tmp : InformBss) :
    (updateKnownBss s known tmp).2 = false ↔ Dropped s known tmp := by
  rw [updateKnownBss, Dropped]
  split
  · rename_i hpresp
    simp [hpresp]
  rename_i hbeacon
  rw [Bool.not_eq_true] at hbeacon
  split
  · rename_i hcond
    rw [Bool.and_eq_true, Bool.not_eq_true', Option.isSome_iff_ne_none] at hcond
    exact ⟨fun _ => ⟨hbeacon, hcond⟩, fun _ => rfl⟩
  · rename_i hcond
    rw [Bool.and_eq_true, Bool.not_eq_true', Option.isSome_iff_ne_none] at hcond
    exact ⟨(fun h => by cases h), fun h => absurd h.2 hcond⟩

theorem updateKnownBss_self (s : Rdev) (known : ℕ) (tmp : InformBss) (h : ¬ Dropped s known tmp) :
    ∃ beaconIes proberespIes, (updateKnownBss s known tmp).1.bss known =
      { refreshBss tmp (s.bss known) with
        ies := iesAfter s known tmp
        beaconIes := beaconIes
        proberespIes := proberespIes } := by
  rw [← updateKnownBss_snd] at h
  rw [updateKnownBss] at *
  split at h
  · rename_i hpresp
    rw [if_pos hpresp, show iesAfter s known tmp = some tmp.ies from if_pos (.inl hpresp)]
    refine ⟨(s.bss known).beaconIes, some tmp.ies, ?_⟩
    simp [Rdev.kfree, Rdev.upd, refreshBss]
  rename_i hbeacon
  rw [if_neg hbeacon]
  split at h
  · exact absurd rfl h
  rename_i hcond
  rw [if_neg hcond]
  refine ⟨some tmp.ies, (s.bss known).proberespIes, ?_⟩
  have hies : iesAfter s known tmp =
      if (s.bss known).beaconIes = (s.bss known).ies then some tmp.ies else (s.bss known).ies := by
    simp [iesAfter, hbeacon]
  simp only [hies, Rdev.kfree, Rdev.upd, Function.update_self]
  split <;> rfl

theorem updateKnownBss_of_ne (s : Rdev) {known x : ℕ} (tmp : InformBss) (hx : x ≠ known) :
    ∃ beaconIes, (updateKnownBss s known tmp).1.bss x = { s.bss x with beaconIes := beaconIes } := by
  rw [updateKnownBss]
  split
  · refine ⟨(s.bss x).beaconIes, ?_⟩
    simp [Rdev.kfree, Rdev.upd, hx]
  split
  · exact ⟨(s.bss x).beaconIes, rfl⟩
  · simp only [Rdev.kfree, Rdev.upd, Function.update_of_ne hx]
    split
    · exact ⟨some tmp.ies, rfl⟩
    · exact ⟨(s.bss x).beaconIes, rfl⟩

/-- There is room for one more entry, or one is taken off the list. -/
def MakesRoom (lib : RbLib) (limit : ℤ) (s s' : Rdev) : Prop :=
  s.bssEntries < limit ∧ s' = s ∨
    limit ≤ s.bssEntries ∧ ∃ b, oldestBss s = some b ∧ ¬ s.Refuses b ∧ s' = (unlinkBss lib s b).1

theorem MakesRoom.entry {limit : ℤ} (h : MakesRoom lib limit s s') (x : ℕ) :
    ∃ c r, s'.bss x = { s.bss x with refcount := c, ring := r } := by
  rcases h with ⟨-, rfl⟩ | ⟨-, b, -, -, rfl⟩
  · exact ⟨(s'.bss x).refcount, (s'.bss x).ring, rfl⟩
  · exact unlinkBss_entry lib s b x

/-- **What an update comes to.** -/
theorem bssUpdate_cases (lib : RbLib) (limit : ℤ) (s : Rdev) (tmp : InformBss) (alloc : Bool) :
    (∃ found, rbFindBss s tmp.toBss .regular = some found ∧
      ((updateKnownBss s found tmp).2 = true ∧ bssUpdate lib limit s tmp alloc =
          (bssRefGet (updateKnownBss s found tmp).1 found, some found) ∨
        (updateKnownBss s found tmp).2 = false ∧
          bssUpdate lib limit s tmp alloc = ((updateKnownBss s found tmp).1, none))) ∨
    rbFindBss s tmp.toBss .regular = none ∧
      (alloc = false ∧ bssUpdate lib limit s tmp alloc = (s.kfree (some tmp.ies), none) ∨
        alloc = true ∧
          ((∃ s₂, MakesRoom lib limit (newBss s tmp) s₂ ∧
            bssUpdate lib limit s tmp alloc = (linkBss lib s₂ tmp s.fresh, some s.fresh)) ∨
          limit ≤ (newBss s tmp).bssEntries ∧ oldestBss (newBss s tmp) = none ∧
            bssUpdate lib limit s tmp alloc =
              ({ newBss s tmp with live := (newBss s tmp).live.erase s.fresh }, none))) := by
  rw [bssUpdate]
  cases hfind : rbFindBss s tmp.toBss .regular with
  | some found =>
    refine .inl ⟨found, rfl, ?_⟩
    dsimp only
    cases hknown : (updateKnownBss s found tmp).2 with
    | true => exact .inl ⟨rfl, if_pos rfl⟩
    | false => exact .inr ⟨rfl, if_neg Bool.false_ne_true⟩
  | none =>
    refine .inr ⟨rfl, ?_⟩
    cases alloc with
    | false => exact .inl ⟨rfl, rfl⟩
    | true =>
      refine .inr ⟨rfl, ?_⟩
      have hmem : ¬ (!true) = true := Bool.false_ne_true
      dsimp only
      rw [if_neg hmem]
      by_cases hfull : limit ≤ (newBss s tmp).bssEntries
      · rw [if_pos hfull, bssExpireOldest]
        cases hold : oldestBss (newBss s tmp) with
        | none => exact .inr ⟨hfull, rfl, if_neg Bool.false_ne_true⟩
        | some b =>
          have hok := unlinkBss_oldestBss lib hold
          refine .inl ⟨_, .inr ⟨hfull, b, hold, ?_, rfl⟩, ?_⟩
          · rintro hrefuses
            rcases unlinkBss_cases lib (newBss s tmp) b with ⟨-, heq⟩ | ⟨hnot, -⟩
            · rw [heq] at hok
              cases hok
            · exact hnot hrefuses
          · exact if_pos hok
      · rw [if_neg hfull]
        exact .inl ⟨_, .inl ⟨not_le.mp hfull, rfl⟩, if_pos rfl⟩

/-- What a new entry comes to: those it is combined with point to it, and a probe response points to
the hidden beacon it joins. -/
structure IsNew (s : Rdev) (tmp : InformBss) (s' : Rdev) : Prop where
  eq : s' =
    { s with
      fresh := s.fresh + 1
      live := insert s.fresh s.live
      nontrans := s.nontrans.init s.fresh
      bss := s'.bss }
  old : ∀ x, x ≠ s.fresh → ∃ c, s'.bss x = { s.bss x with refcount := c } ∨
    Combines s tmp x ∧ s'.bss x =
      { s.bss x with
        refcount := c
        ring := s.fresh
        hiddenBeaconBss := some s.fresh
        beaconIes := some tmp.ies }
  new : ∃ c, s'.bss s.fresh = { tmp.toBss with refcount := c, ring := s.fresh } ∧
      (∀ h, ¬ Joins s tmp h) ∨
    ∃ h, Joins s tmp h ∧ h ≠ s.fresh ∧ s'.bss s.fresh =
      { tmp.toBss with
        refcount := c
        ring := (s.bss h).ring
        hiddenBeaconBss := some h
        beaconIes := (s.bss h).beaconIes }

theorem isNew_allocBss (s : Rdev) (tmp : InformBss) (hno : ∀ h, ¬ Joins s tmp h) :
    IsNew s tmp (allocBss s tmp) where
  eq := rfl
  old := fun x hx => ⟨(s.bss x).refcount, .inl (Function.update_of_ne hx ..)⟩
  new := ⟨1, .inl ⟨Function.update_self .., hno⟩⟩

theorem isNew_joinHidden {tmp : InformBss} {h : ℕ} (hjoin : Joins s tmp h) (hne : h ≠ s.fresh) :
    IsNew s tmp (joinHidden (allocBss s tmp) s.fresh h) where
  eq := rfl
  old := by
    intro x hx
    by_cases hxh : x = h
    · subst hxh
      exact ⟨_, .inl (by simp [joinHidden, Rdev.addRef, Rdev.upd, allocBss, hne]; rfl)⟩
    · refine ⟨(s.bss x).refcount, .inl ?_⟩
      simp [joinHidden, Rdev.addRef, Rdev.upd, allocBss, hx, hxh]
  new := by
    refine ⟨1, .inr ⟨h, hjoin, hne, ?_⟩⟩
    simp [joinHidden, Rdev.addRef, Rdev.upd, allocBss, hne, Ne.symm hne]

theorem isNew_combineBsses {tmp : InformBss} (hbeacon : tmp.isProberesp = false)
    (hnodup : s.bssList.Nodup) (hfresh : s.fresh ∉ s.bssList) :
    IsNew s tmp (combineBsses (allocBss s tmp) tmp s.fresh) := by
  have hno : ∀ h, ¬ Joins s tmp h :=
    fun h hjoin => Bool.false_ne_true (hbeacon.symm.trans hjoin.1)
  suffices hind : ((combineBsses (allocBss s tmp) tmp s.fresh).bss s.fresh).ring = s.fresh ∧
      IsNew s tmp (combineBsses (allocBss s tmp) tmp s.fresh) from hind.2
  refine combineBsses_induction (P := fun s' => (s'.bss s.fresh).ring = s.fresh ∧ IsNew s tmp s') hbeacon
    hnodup hfresh ⟨by simp [allocBss], isNew_allocBss s tmp hno⟩ ?_
  rintro s' b ⟨hring, h'⟩ hcombines hbss
  have hbn : b ≠ s.fresh := fun heq => hfresh (heq ▸ hcombines.2.1)
  have hself : (combineBss s' tmp s.fresh b).bss s.fresh =
      { s'.bss s.fresh with refcount := (s'.bss s.fresh).refcount + (s'.bss b).refcount } := by
    simp [combineBss, Rdev.addRef, Rdev.upd, Ne.symm hbn]
  refine ⟨?_, ?_, fun x hx => ?_, ?_⟩
  · rw [hself]
    exact hring
  · have heq := h'.eq
    rw [combineBss, Rdev.addRef, Rdev.upd, Rdev.upd, heq]
  · by_cases hxb : x = b
    · subst hxb
      refine ⟨(s.bss x).refcount, .inr ⟨hcombines, ?_⟩⟩
      simp [combineBss, Rdev.addRef, Rdev.upd, hbn, hring, hbss]
    · rw [bss_combineBss hxb hx]
      exact h'.old x hx
  · obtain ⟨c, ⟨hnew, -⟩ | ⟨h, hjoin, -⟩⟩ := h'.new
    · refine ⟨c + (s'.bss b).refcount, .inl ⟨?_, hno⟩⟩
      rw [hself, hnew]
    · exact absurd hjoin (hno h)

/-- **What a new entry comes to.** -/
theorem isNew_newBss (tmp : InformBss) (hnodup : s.bssList.Nodup) (hfresh : s.fresh ∉ s.bssList)
    (htree : ∀ b ∈ s.bssTree.toList, b ∈ s.bssList) : IsNew s tmp (newBss s tmp) := by
  rw [newBss]
  split
  · rename_i hpresp
    split
    · rename_i h hjoin
      refine isNew_joinHidden ⟨hpresp, hjoin⟩ ?_
      rintro rfl
      exact hfresh (htree _ (mem_of_hiddenBeaconFor hjoin))
    · rename_i hno
      refine isNew_allocBss s tmp fun h hjoin => ?_
      rw [hjoin.2] at hno
      cases hno
  · rename_i hpresp
    exact isNew_combineBsses (Bool.eq_false_iff.mpr hpresp) hnodup hfresh

/-- Other counts, and what transmits for one entry. -/
def Rdev.withLink (s : Rdev) (c : ℕ → ℤ) (n : ℕ) (p : Option ℕ) : Rdev :=
  { s with
    bss := fun x =>
      { s.bss x with
        refcount := c x
        transmittedBss := if x = n then p else (s.bss x).transmittedBss } }

theorem withLink_none {n : ℕ} (htrans : (s.bss n).transmittedBss = none) :
    s.withLink (fun x => (s.bss x).refcount) n none = s := by
  have hbss : ∀ x, (if x = n then none else (s.bss x).transmittedBss) =
      (s.bss x).transmittedBss := by
    intro x
    split
    · rename_i hx
      rw [hx, htrans]
    · rfl
  simp only [Rdev.withLink, hbss]

theorem withLink_some (s : Rdev) (n p : ℕ) : ∃ c,
    bssRefGet (s.upd n fun e => { e with transmittedBss := some p }) p = s.withLink c n (some p) := by
  obtain ⟨c, hc⟩ := bssRefGet_eq_withCounts (s.upd n fun e => { e with transmittedBss := some p }) p
  refine ⟨c, ?_⟩
  rw [hc, Rdev.withCounts, Rdev.upd, Rdev.withLink]
  congr 1
  funext x
  by_cases hx : x = n
  · subst hx
    simp
  · simp [hx]

theorem rbInsertBss_congr (lib : RbLib) {n : ℕ} (htree : s'.bssTree = s.bssTree)
    (hcmp : ∀ x, cmpBss (s'.bss n) (s'.bss x) .regular = cmpBss (s.bss n) (s.bss x) .regular) :
    (rbInsertBss lib s' n).bssTree = (rbInsertBss lib s n).bssTree := by
  simp only [rbInsertBss, htree, hcmp]
  split
  · rfl
  · exact htree

/-- **What linking a new entry comes to.** -/
theorem linkBss_eq (lib : RbLib) (tmp : InformBss) {n : ℕ}
    (htrans : (s.bss n).transmittedBss = none) : ∃ c : ℕ → ℤ, linkBss lib s tmp n =
    { s.withLink c n tmp.transmittedBss with
      bssList := s.bssList ++ [n]
      bssEntries := s.bssEntries + 1
      bssTree := (rbInsertBss lib s n).bssTree } := by
  -- the order does not look at counts and links
  have hinsert : ∀ c p s₁, s₁ =
      { s.withLink c n p with
        bssList := s.bssList ++ [n]
        bssEntries := s.bssEntries + 1 } →
      ∃ c', bssRefGet (rbInsertBss lib s₁ n) n =
      { s.withLink c' n p with
        bssList := s.bssList ++ [n]
        bssEntries := s.bssEntries + 1
        bssTree := (rbInsertBss lib s n).bssTree } := by
    intro c p s₁ hs₁
    obtain ⟨c', hc'⟩ := bssRefGet_eq_withCounts (rbInsertBss lib s₁ n) n
    have htree : (rbInsertBss lib s₁ n).bssTree = (rbInsertBss lib s n).bssTree := by
      rw [hs₁]
      exact rbInsertBss_congr lib rfl fun _ => rfl
    refine ⟨c', ?_⟩
    rw [hc', rbInsertBss_eq, htree, hs₁]
    rfl
  rw [linkBss]
  cases tmp.transmittedBss with
  | none =>
    obtain ⟨c, hc⟩ := hinsert (fun x => (s.bss x).refcount) none _ rfl
    refine ⟨c, ?_⟩
    rw [withLink_none htrans] at hc
    exact hc
  | some p =>
    obtain ⟨c, hc⟩ := withLink_some s n p
    obtain ⟨c', hc'⟩ := hinsert c (some p) _ rfl
    refine ⟨c', ?_⟩
    dsimp only
    rw [hc]
    exact hc'

/-! ### Callers -/

/-- What callers do: counts and holds have changed, and some entries have been freed. -/
structure Rdev.Touches (s s' : Rdev) : Prop where
  eq : ∃ (c hold : ℕ → ℤ) (freed : List ℕ) (refs : ℕ → ℕ), s' =
    { s with
      bss := fun x => { s.bss x with refcount := c x, hold := hold x }
      live := s'.live
      freed := freed
      refs := refs }
  live : s'.live ⊆ s.live

theorem Rdev.Recounts.touches (h : s.Recounts s') : s.Touches s' := by
  obtain ⟨c, freed, heq⟩ := h.eq
  exact ⟨⟨c, fun x => (s.bss x).hold, freed, s.refs, heq⟩, h.live⟩

theorem Rdev.Touches.trans {s₁ s₂ s₃ : Rdev} (h : s₁.Touches s₂) (h' : s₂.Touches s₃) :
    s₁.Touches s₃ := by
  obtain ⟨⟨c, hold, freed, refs, hs₂⟩, hlive⟩ := h
  obtain ⟨⟨c', hold', freed', refs', hs₃⟩, hlive'⟩ := h'
  refine ⟨⟨c', hold', freed', refs', ?_⟩, hlive'.trans hlive⟩
  rw [hs₂] at hs₃
  exact hs₃

theorem touches_refs (s : Rdev) (refs : ℕ → ℕ) : s.Touches { s with refs := refs } :=
  ⟨⟨fun x => (s.bss x).refcount, fun x => (s.bss x).hold, s.freed, refs, rfl⟩, subset_rfl⟩

theorem touches_handOut (r : Rdev × Option ℕ) : r.1.Touches (Rdev.handOut r) := by
  rw [Rdev.handOut]
  split
  · exact touches_refs r.1 _
  · exact touches_refs r.1 r.1.refs

theorem touches_bssRefGet (s : Rdev) (b : ℕ) : s.Touches (bssRefGet s b) := by
  obtain ⟨c, hc⟩ := bssRefGet_eq_withCounts s b
  rw [hc]
  exact ⟨⟨c, fun x => (s.bss x).hold, s.freed, s.refs, rfl⟩, subset_rfl⟩

theorem touches_addHold (s : Rdev) (b : ℕ) (n : ℤ) : s.Touches (addHold s b n) := by
  have hone : ∀ (s : Rdev) (b : ℕ), s.Touches (s.upd b fun e => { e with hold := e.hold + n }) := by
    intro s b
    refine ⟨⟨fun x => (s.bss x).refcount,
      Function.update (fun x => (s.bss x).hold) b ((s.bss b).hold + n), s.freed, s.refs, ?_⟩, subset_rfl⟩
    simp only [Rdev.upd]
    congr 1
    funext x
    by_cases hx : x = b
    · subst hx
      simp
    · simp [hx]
  rw [addHold]
  split
  · exact (hone s b).trans (hone _ _)
  · exact hone s b

/-- **What a step comes to.** -/
theorem bssStep_cases {limit : ℤ} {op : BssOp} {o : List Empty}
    (hstep : bssStep lib limit s op = some (s', o)) :
    (∃ tmp alloc, op = .update tmp alloc ∧ (∀ p ∈ tmp.transmittedBss, 0 < s.refs p) ∧
      s' = Rdev.handOut (bssUpdate lib limit s tmp alloc)) ∨
    (∃ b, op = .unlink b ∧ b ∈ s.bssList ∧ s' = (unlinkBss lib s b).1) ∨
    (∃ expireTime, op = .expire expireTime ∧ s' = bssExpire lib s expireTime) ∨
    s.Touches s' := by
  cases op <;>
    simp only [bssStep, Option.ite_none_right_eq_some, Option.some.injEq, Prod.mk.injEq] at hstep
  case update tmp alloc =>
    obtain ⟨hheld, rfl, -⟩ := hstep
    exact .inl ⟨tmp, alloc, rfl, hheld, rfl⟩
  case unlink b =>
    obtain ⟨hb, rfl, -⟩ := hstep
    exact .inr (.inl ⟨b, rfl, hb, rfl⟩)
  case expire expireTime =>
    obtain ⟨rfl, -⟩ := hstep
    exact .inr (.inr (.inl ⟨expireTime, rfl, rfl⟩))
  case get q =>
    obtain ⟨rfl, -⟩ := hstep
    refine .inr (.inr (.inr ?_))
    refine Rdev.Touches.trans ?_ (touches_handOut _)
    rw [getBss]
    split
    · exact touches_bssRefGet s _
    · exact (Rdev.Recounts.refl s).touches
  case ref b =>
    obtain ⟨-, rfl, -⟩ := hstep
    exact .inr (.inr (.inr ((touches_bssRefGet s b).trans (touches_handOut (bssRefGet s b, some b)))))
  case put b =>
    obtain ⟨-, rfl, -⟩ := hstep
    exact .inr (.inr (.inr ((touches_refs s _).trans (recounts_bssRefPut _ b).touches)))
  case hold b =>
    obtain ⟨-, rfl, -⟩ := hstep
    exact .inr (.inr (.inr (touches_addHold s b 1)))
  case unhold b =>
    obtain ⟨-, rfl, -⟩ := hstep
    exact .inr (.inr (.inr (touches_addHold s b (-1))))

/-! ### Expiry -/

/-- The entry is old, and nobody holds it. -/
def Rdev.Expires (s : Rdev) (expireTime : UInt64) (b : ℕ) : Prop :=
  (s.bss b).hold = 0 ∧ timeAfter expireTime (s.bss b).ts = true

/-- **Expiry, entry by entry**: what holds of the entries that were looked at and of those that are
still to come. -/
theorem bssExpire_induction {expireTime : UInt64} {P : List ℕ → List ℕ → Rdev → Prop}
    (hstart : P [] s.bssList s)
    (hskip : ∀ done b todo s', s.bssList = done ++ b :: todo → ¬ s'.Expires expireTime b →
      P done (b :: todo) s' → P (done ++ [b]) todo s')
    (hunlink : ∀ done b todo s', s.bssList = done ++ b :: todo → s'.Expires expireTime b →
      P done (b :: todo) s' → P (done ++ [b]) todo (unlinkBss lib s' b).1) :
    P s.bssList [] (bssExpire lib s expireTime) := by
  have hfold : ∀ (todo done : List ℕ) (s' : Rdev), s.bssList = done ++ todo → P done todo s' →
      P s.bssList [] (todo.foldl (fun s b =>
        if (s.bss b).hold ≠ 0 then s
        else if !timeAfter expireTime (s.bss b).ts then s
        else (unlinkBss lib s b).1) s') := by
    intro todo
    induction todo with
    | nil =>
      intro done s' hlist h
      rw [hlist, append_nil]
      exact h
    | cons b todo ih =>
      intro done s' hlist h
      have hlist' : s.bssList = done ++ [b] ++ todo := by rw [hlist, append_assoc]; rfl
      rw [foldl_cons]
      split
      · rename_i hhold
        exact ih _ _ hlist' (hskip done b todo s' hlist (fun hexp => hhold hexp.1) h)
      rename_i hhold
      split
      · rename_i htime
        refine ih _ _ hlist' (hskip done b todo s' hlist (fun hexp => ?_) h)
        rw [hexp.2] at htime
        exact Bool.false_ne_true htime
      · rename_i htime
        refine ih _ _ hlist' (hunlink done b todo s' hlist ⟨not_not.mp hhold, ?_⟩ h)
        simpa using htime
  exact hfold s.bssList [] s rfl hstart

/-- **Expiry keeps what unlinking keeps.** -/
theorem bssExpire_invariant (Inv : Rdev → Prop) (hs : Inv s)
    (hnodup : ∀ s', Inv s' → s'.bssList.Nodup)
    (hunlink : ∀ s' b, Inv s' → b ∈ s'.bssList → Inv (unlinkBss lib s' b).1) (expireTime : UInt64) :
    Inv (bssExpire lib s expireTime) := by
  have hall : Inv (bssExpire lib s expireTime) ∧
      ∀ x ∈ ([] : List ℕ), x ∈ (bssExpire lib s expireTime).bssList := by
    refine bssExpire_induction (P := fun _ todo s' => Inv s' ∧ ∀ x ∈ todo, x ∈ s'.bssList)
      ⟨hs, fun _ hx => hx⟩ ?_ ?_
    · rintro done b todo s' - - ⟨h', hmem⟩
      exact ⟨h', fun x hx => hmem x (mem_cons_of_mem b hx)⟩
    · rintro done b todo s' hlist - ⟨h', hmem⟩
      have hdone : (done ++ b :: todo).Nodup := hlist ▸ hnodup s hs
      refine ⟨hunlink s' b h' (hmem b mem_cons_self), fun x hx => ?_⟩
      refine (mem_bssList_unlinkBss (hnodup s' h')).mpr ⟨hmem x (mem_cons_of_mem b hx), ?_⟩
      rintro rfl
      exact absurd hx (nodup_cons.mp (nodup_append.mp hdone).2.1).1
  exact hall.1

/-! ### What a frame does not tell of -/

theorem length_lt_fuel_of_lt {ms : List ℕ} (hnodup : ms.Nodup) (hms : ∀ m ∈ ms, m < s.fresh) :
    ms.length < s.fuel := by
  have hsub : ms.toFinset ⊆ Finset.range s.fresh := by
    intro m hm
    exact Finset.mem_range.mpr (hms m (mem_toFinset.mp hm))
  have hcard := Finset.card_le_card hsub
  rw [toFinset_card_of_nodup hnodup, Finset.card_range] at hcard
  exact Nat.lt_succ_of_le hcard

theorem keeps_updateNotlisted (s : Rdev) (b : ℕ) (frame : MbssFrame) :
    s.Keeps (updateNotlisted s b frame) := by
  have hfresh : s.Keeps { s with freshIes := s.freshIes + 1 } :=
    ⟨rfl, rfl, rfl, rfl, rfl, rfl, rfl, fun _ => ⟨.refl _, rfl⟩⟩
  rw [updateNotlisted]
  split
  · exact .refl s
  split
  · exact .refl s
  dsimp only
  split
  · refine hfresh.trans ((keeps_upd _ b fun e => ?_).trans (keeps_kfree _ _))
    exact ⟨⟨rfl, rfl, rfl, rfl⟩, rfl⟩
  · refine hfresh.trans ((keeps_upd _ b fun e => ?_).trans (keeps_kfree _ _))
    exact ⟨⟨rfl, rfl, rfl, rfl⟩, rfl⟩

theorem updateNotlisted_of_ne (s : Rdev) {b x : ℕ} (frame : MbssFrame) (hx : x ≠ b) :
    (updateNotlisted s b frame).bss x = s.bss x := by
  rw [updateNotlisted]
  split
  · rfl
  split
  · rfl
  dsimp only
  split
  · simp [Rdev.kfree, Rdev.upd, hx]
  · simp [Rdev.kfree, Rdev.upd, hx]

theorem updateNotlisted_self (s : Rdev) (b : ℕ) (frame : MbssFrame) :
    (updateNotlisted s b frame).bss b = s.bss b ∨
      ∃ ssid data, (s.bss b).getIe WLAN_EID_SSID = some ssid ∧ notlistedIes frame.ie ssid = some data ∧
        ∃ beaconIes proberespIes, (updateNotlisted s b frame).bss b =
          { s.bss b with
            ies := some ⟨s.freshIes, data, frame.tsf⟩
            beaconIes := beaconIes
            proberespIes := proberespIes } := by
  rw [updateNotlisted]
  split
  · exact .inl rfl
  rename_i data hdata
  split
  · exact .inl rfl
  obtain ⟨ssid, hssid, hies⟩ := Option.bind_eq_some_iff.mp hdata
  refine .inr ⟨ssid, data, hssid, hies, ?_⟩
  dsimp only
  split
  · refine ⟨(s.bss b).beaconIes, some ⟨s.freshIes, data, frame.tsf⟩, ?_⟩
    simp [Rdev.kfree, Rdev.upd]
  · refine ⟨some ⟨s.freshIes, data, frame.tsf⟩, (s.bss b).proberespIes, ?_⟩
    simp [Rdev.kfree, Rdev.upd]

end Mac80211
