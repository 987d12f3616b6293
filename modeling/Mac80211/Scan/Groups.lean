import Mac80211.Scan.Cases

/-!
# The groups of hidden networks

The entries of one ring point to the same hidden beacon, or one of them is that beacon. So
`__cfg80211_unlink_bss` refuses a hidden beacon as long as an entry on the list points to it, and no
other.

## Main definitions

* `Rdev.Groups`

## Main results

* `Rdev.Groups.refuses`
-/

namespace Mac80211

open Machine References ListHead

variable {s s' : Rdev} {on on' : ℕ → Prop} {pending : ℕ → ℤ} {b c : ℕ}

/-- They point to the same hidden beacon, or one of them to the other. -/
def Rdev.Mates (s : Rdev) (b c : ℕ) : Prop :=
  (s.bss b).hiddenBeaconBss = some c ∨ (s.bss c).hiddenBeaconBss = some b ∨
    ∃ h, (s.bss b).hiddenBeaconBss = some h ∧ (s.bss c).hiddenBeaconBss = some h

theorem Rdev.Mates.symm (h : s.Mates b c) : s.Mates c b := by
  rcases h with h | h | ⟨p, hb, hc⟩
  · exact .inr (.inl h)
  · exact .inl h
  · exact .inr (.inr ⟨p, hc, hb⟩)

/-- **The rings are the groups.** The entries for which `on` holds are still in theirs. -/
structure Rdev.Groups (s : Rdev) (on : ℕ → Prop) : Prop where
  mates : ∀ b ∈ s.live, ∀ c ∈ s.live, b ≠ c → (s.bss b).ring = (s.bss c).ring → s.Mates b c
  member : ∀ m, on m → ∀ h, (s.bss m).hiddenBeaconBss = some h → (s.bss m).ring = (s.bss h).ring

theorem Rdev.Groups.congr (h : s.Groups on) (hlive : s'.live ⊆ s.live)
    (hbss : ∀ x, (s'.bss x).hiddenBeaconBss = (s.bss x).hiddenBeaconBss ∧
      (s'.bss x).ring = (s.bss x).ring)
    (hon : ∀ m, on' m → on m) : s'.Groups on' where
  mates := by
    intro b hb c hc hne hring
    rw [(hbss b).2, (hbss c).2] at hring
    rw [Rdev.Mates, (hbss b).1, (hbss c).1]
    exact h.mates b (hlive hb) c (hlive hc) hne hring
  member := by
    intro m hm p hp
    rw [(hbss m).1] at hp
    rw [(hbss m).2, (hbss p).2]
    exact h.member m (hon m hm) p hp

theorem Rdev.Groups.recounts (h : s.Groups on) (hs' : s.Recounts s') : s'.Groups on := by
  obtain ⟨c, freed, heq⟩ := hs'.eq
  refine h.congr hs'.live (fun x => ?_) fun _ hm => hm
  rw [heq]
  exact ⟨rfl, rfl⟩

/-! ### New entries -/

/-- A new entry is not there before, nor on the list. -/
theorem PendInv.isNew (h : PendInv s pending) (tmp : InformBss) :
    s.fresh ∉ s.live ∧ s.fresh ∉ s.bssList ∧ IsNew s tmp (Mac80211.newBss s tmp) := by
  have hfresh : s.fresh ∉ s.live := fun hmem => lt_irrefl _ (h.fresh _ hmem)
  have hlisted : s.fresh ∉ s.bssList := fun hmem => hfresh (TableInv.live_of_listed h hmem)
  exact ⟨hfresh, hlisted, isNew_newBss tmp h.nodup hlisted h.tree⟩

/-! ### Refusals -/

/-- **An entry that has a link is not refused.** -/
theorem Rdev.Groups.not_refuses (h : s.Groups on) (hinv : PendInv s pending) (hb : b ∈ s.live)
    (hlink : s.link b ≠ none) : ¬ s.Refuses b := by
  rintro ⟨hring, hhidden⟩
  obtain ⟨p, hp⟩ := Option.ne_none_iff_exists'.mp hlink
  refine Bool.eq_false_iff.mp hring (hiddenListEmpty_iff.mpr fun c hc hne heq => ?_)
  rcases h.mates c hc b hb hne heq with hcb | hbc | ⟨p, -, hbp⟩
  · exact hinv.counted.no_holder hp hc (link_of_hidden hcb)
  · rw [hhidden] at hbc
    cases hbc
  · rw [hhidden] at hbp
    cases hbp

/-- **A hidden beacon is refused** as long as an entry that points to it is in its ring. -/
theorem Rdev.Groups.refuses (h : s.Groups on) (hinv : PendInv s pending) (hc : c ∈ s.live) (hon : on c)
    (hhidden : (s.bss c).hiddenBeaconBss = some b) : s.Refuses b := by
  obtain ⟨-, hlink⟩ := hinv.counted.target c hc b (link_of_hidden hhidden)
  have hne : c ≠ b := by
    rintro rfl
    rw [link_of_hidden hhidden] at hlink
    cases hlink
  refine ⟨Bool.eq_false_iff.mpr fun hempty => ?_, (link_eq_none_iff.mp hlink).1⟩
  exact hiddenListEmpty_iff.mp hempty c hc hne (h.member c hon b hhidden)

/-! ### Unlinking -/

/-- **An entry is taken out of its ring.** -/
theorem Rdev.Groups.unlinked (h : s.Groups on) (hinv : PendInv s pending) (lib : RbLib)
    (hon : ∀ m, on m → m ∈ s.live) (hnot : ¬ s.Refuses b) :
    (Mac80211.unlinked lib s b).Groups fun m => on m ∧ m ≠ b := by
  rw [Mac80211.unlinked]
  split
  · exact h.congr subset_rfl (fun _ => ⟨rfl, rfl⟩) fun _ hm => hm.1
  rename_i hempty
  have hself : ((s.hiddenListDel b).bss b).ring = s.fresh := by simp [Rdev.hiddenListDel, Rdev.upd]
  have hother : ∀ x, x ≠ b → (s.hiddenListDel b).bss x = s.bss x :=
    fun x hx => by simp [Rdev.hiddenListDel, Rdev.upd, hx]
  have hhidden : ∀ x, ((s.hiddenListDel b).bss x).hiddenBeaconBss = (s.bss x).hiddenBeaconBss := by
    intro x
    by_cases hx : x = b
    · simp [Rdev.hiddenListDel, Rdev.upd, hx]
    · rw [hother x hx]
  obtain ⟨p, hp⟩ : ∃ p, (s.bss b).hiddenBeaconBss = some p := by
    refine Option.ne_none_iff_exists'.mp fun hnone => hnot ⟨?_, hnone⟩
    exact Bool.eq_false_iff.mpr hempty
  constructor
  · intro x hx y hy hne hring
    have hxb : x ≠ b := by
      rintro rfl
      have hlt := hinv.ring y hy
      rw [hself, hother y (Ne.symm hne)] at hring
      omega
    have hyb : y ≠ b := by
      rintro rfl
      have hlt := hinv.ring x hx
      rw [hself, hother x hne] at hring
      omega
    rw [hother x hxb, hother y hyb] at hring
    rw [Rdev.Mates, hhidden, hhidden]
    exact h.mates x hx y hy hne hring
  · rintro m ⟨hm, hmb⟩ q hq
    rw [hhidden] at hq
    have hqb : q ≠ b := by
      rintro rfl
      exact hinv.counted.no_holder (link_of_hidden hp) (hon m hm) (link_of_hidden hq)
    show ((s.hiddenListDel b).bss m).ring = ((s.hiddenListDel b).bss q).ring
    rw [hother m hmb, hother q hqb]
    exact h.member m hm q hq

/-- **An entry is unlinked.** -/
theorem Rdev.Groups.unlink (h : s.Groups on) (hinv : PendInv s pending) (lib : RbLib)
    (hon : ∀ m, on m → m ∈ s.live) (hon' : ∀ m, on' m → on m ∧ (m = b → s.Refuses b)) :
    (unlinkBss lib s b).1.Groups on' := by
  rcases unlinkBss_cases lib s b with ⟨-, heq⟩ | ⟨hnot, -, hrec⟩
  · rw [heq]
    exact h.congr subset_rfl (fun _ => ⟨rfl, rfl⟩) fun m hm => (hon' m hm).1
  · refine ((h.unlinked hinv lib hon hnot).recounts hrec).congr subset_rfl (fun _ => ⟨rfl, rfl⟩) ?_
    intro m hm
    exact ⟨(hon' m hm).1, fun heq => hnot ((hon' m hm).2 heq)⟩

/-- What is said of the entries on the list. -/
abbrev Rdev.listed (s : Rdev) : ℕ → Prop := fun b => b ∈ s.bssList

theorem Rdev.Groups.unlinkListed (h : s.Groups s.listed) (hinv : PendInv s pending) (lib : RbLib) :
    (unlinkBss lib s b).1.Groups (unlinkBss lib s b).1.listed :=
  h.unlink hinv lib (fun _ hm => TableInv.live_of_listed hinv hm)
    fun _ hm => (mem_bssList_unlinkBss hinv.nodup).mp hm

/-! ### New entries -/

variable {tmp : InformBss}

/-- What a new entry does to the others: they are as before, or combined with it. -/
theorem IsNew.old_ring (hnew : IsNew s tmp s') {x : ℕ} (hx : x ≠ s.fresh) :
    (s'.bss x).hiddenBeaconBss = (s.bss x).hiddenBeaconBss ∧ (s'.bss x).ring = (s.bss x).ring ∨
      Combines s tmp x ∧ (s'.bss x).hiddenBeaconBss = some s.fresh ∧ (s'.bss x).ring = s.fresh := by
  obtain ⟨c, heq | ⟨hcomb, heq⟩⟩ := hnew.old x hx
  · rw [heq]
    exact .inl ⟨rfl, rfl⟩
  · rw [heq]
    exact .inr ⟨hcomb, rfl, rfl⟩

/-- And what it is itself: in a ring of its own, or in that of the beacon it joins. -/
theorem IsNew.new_ring (hnew : IsNew s tmp s') :
    (s'.bss s.fresh).hiddenBeaconBss = none ∧ (s'.bss s.fresh).ring = s.fresh ∨
      ∃ h, Joins s tmp h ∧ h ≠ s.fresh ∧ (s'.bss s.fresh).hiddenBeaconBss = some h ∧
        (s'.bss s.fresh).ring = (s.bss h).ring := by
  obtain ⟨c, ⟨heq, -⟩ | ⟨h, hjoin, hne, heq⟩⟩ := hnew.new
  · rw [heq]
    exact .inl ⟨rfl, rfl⟩
  · rw [heq]
    exact .inr ⟨h, hjoin, hne, rfl, rfl⟩

theorem Joins.not_combines {h x : ℕ} (hjoin : Joins s tmp h) : ¬ Combines s tmp x :=
  fun hcomb => Bool.false_ne_true (hcomb.1.symm.trans hjoin.1)

variable {limit : ℤ}

/-- **A new entry is in the ring of its group.** -/
theorem Rdev.Groups.newBss (h : s.Groups s.listed) (hinv : PendInv s 0) (hok : LinkOk limit s tmp) :
    (Mac80211.newBss s tmp).Groups fun m => m ∈ s.bssList ∨ m = s.fresh := by
  obtain ⟨hfresh, hlisted, hnew⟩ := hinv.isNew tmp
  generalize Mac80211.newBss s tmp = s₁ at hnew
  have hlive : ∀ x ∈ s₁.live, x ≠ s.fresh → x ∈ s.live := by
    intro x hx hne
    rw [hnew.eq] at hx
    exact Finset.mem_of_mem_insert_of_ne hx hne
  -- those that join a beacon are not combined with others, and the beacon points to nobody
  have hfirst : ∀ x ∈ s₁.live, x ≠ s.fresh → (s₁.bss x).ring = (s₁.bss s.fresh).ring →
      s₁.Mates x s.fresh := by
    intro x hx hne hring
    have hlt := hinv.ring x (hlive x hx hne)
    rcases hnew.new_ring with ⟨hnone, hself⟩ | ⟨p, hjoin, hpn, hhidden, hself⟩
    · rcases hnew.old_ring hne with ⟨-, hold⟩ | ⟨-, hcomb, -⟩
      · rw [hold, hself] at hring
        omega
      · exact .inl hcomb
    · rcases hnew.old_ring hne with ⟨hxhidden, hold⟩ | ⟨hcomb, -⟩
      · by_cases hxp : x = p
        · exact .inr (.inl (hxp ▸ hhidden))
        rw [hold, hself] at hring
        have hplive : p ∈ s.live := TableInv.hiddenBeaconFor_mem hinv hjoin.2
        have hproot := (link_eq_none_iff.mp (hok.joins p hjoin).2).1
        rcases h.mates x (hlive x hx hne) p hplive hxp hring with hm | hm | ⟨q, -, hm⟩
        · exact .inr (.inr ⟨p, hxhidden.trans hm, hhidden⟩)
        · rw [hproot] at hm
          cases hm
        · rw [hproot] at hm
          cases hm
      · exact absurd hcomb hjoin.not_combines
  constructor
  · intro x hx y hy hne hring
    by_cases hxn : x = s.fresh
    · subst hxn
      exact (hfirst y hy (Ne.symm hne) hring.symm).symm
    by_cases hyn : y = s.fresh
    · subst hyn
      exact hfirst x hx hxn hring
    have hxlt := hinv.ring x (hlive x hx hxn)
    have hylt := hinv.ring y (hlive y hy hyn)
    rcases hnew.old_ring hxn with ⟨hxh, hxr⟩ | ⟨-, hxh, hxr⟩
    · rcases hnew.old_ring hyn with ⟨hyh, hyr⟩ | ⟨-, hyh, hyr⟩
      · rw [hxr, hyr] at hring
        rw [Rdev.Mates, hxh, hyh]
        exact h.mates x (hlive x hx hxn) y (hlive y hy hyn) hne hring
      · rw [hxr, hyr] at hring
        omega
    · rcases hnew.old_ring hyn with ⟨hyh, hyr⟩ | ⟨-, hyh, hyr⟩
      · rw [hxr, hyr] at hring
        omega
      · exact .inr (.inr ⟨s.fresh, hxh, hyh⟩)
  · rintro m hm p hp
    by_cases hmn : m = s.fresh
    · subst hmn
      rcases hnew.new_ring with ⟨hnone, -⟩ | ⟨q, hjoin, hqn, hhidden, hself⟩
      · rw [hnone] at hp
        cases hp
      · rw [hhidden] at hp
        cases hp
        rcases hnew.old_ring hqn with ⟨-, hold⟩ | ⟨hcomb, -⟩
        · rw [hself, hold]
        · exact absurd hcomb hjoin.not_combines
    · have hmlist : m ∈ s.bssList := hm.resolve_right hmn
      rcases hnew.old_ring hmn with ⟨hmh, hmr⟩ | ⟨hcomb, hmh, hmr⟩
      · rw [hmh] at hp
        have hmlive := TableInv.live_of_listed hinv hmlist
        have hplive := (hinv.counted.target m hmlive p (link_of_hidden hp)).1
        have hpn : p ≠ s.fresh := fun heq => hfresh (heq ▸ hplive)
        rcases hnew.old_ring hpn with ⟨-, hpr⟩ | ⟨hcomb, -⟩
        · rw [hmr, hpr]
          exact h.member m hmlist p hp
        · exact absurd (link_of_hidden hp) ((hok.combines p hcomb).2.2 m hmlive)
      · rw [hmh] at hp
        cases hp
        rcases hnew.new_ring with ⟨-, hself⟩ | ⟨q, hjoin, -⟩
        · rw [hmr, hself]
        · exact absurd hcomb hjoin.not_combines

/-- The new entry is not on the list yet, and stays when room is made for it. -/
structure Making (s s₂ : Rdev) (tmp : InformBss) : Prop where
  inv : PendInv s₂ (pendingNew s.fresh)
  groups : s₂.Groups fun m => m ∈ s₂.bssList ∨ m = s.fresh
  notMem : s.fresh ∉ s₂.bssList
  transmitted : (s₂.bss s.fresh).transmittedBss = none

variable {lib : RbLib}

/-- **Room is made for the new entry.** -/
theorem making_of_makesRoom {limit limit' : ℤ} {s₂ : Rdev}
    (h : s.Groups s.listed) (hinv : PendInv s 0) (hok : LinkOk limit s tmp)
    (hroom : MakesRoom lib limit' (newBss s tmp) s₂) : Making s s₂ tmp := by
  obtain ⟨hfresh, hlisted, hnew⟩ := hinv.isNew tmp
  have hlist : (newBss s tmp).bssList = s.bssList := by rw [hnew.eq]
  have htrans : ((newBss s tmp).bss s.fresh).transmittedBss = none := by
    obtain ⟨c, ⟨heq, -⟩ | ⟨p, -, -, heq⟩⟩ := hnew.new <;> rw [heq] <;> rfl
  have hgroups := h.newBss hinv hok
  have hinv₁ := (hinv.newBss hok).1
  rcases hroom with ⟨-, rfl⟩ | ⟨-, b, hb, -, rfl⟩
  · refine ⟨hinv₁, ?_, hlist ▸ hlisted, htrans⟩
    rw [hlist]
    exact hgroups
  · have hmem := mem_of_oldestBss hb
    refine ⟨hinv₁.unlink lib hmem, ?_, ?_, ?_⟩
    · refine hgroups.unlink hinv₁ lib (fun m hm => ?_) fun m hm => ?_
      · rw [hnew.eq]
        rcases hm with hm | rfl
        · exact Finset.mem_insert_of_mem (TableInv.live_of_listed hinv hm)
        · exact Finset.mem_insert_self ..
      · rcases hm with hm | rfl
        · obtain ⟨hm, hrefuses⟩ := (mem_bssList_unlinkBss hinv₁.nodup).mp hm
          exact ⟨.inl (hlist ▸ hm), hrefuses⟩
        · refine ⟨.inr rfl, fun heq => absurd ?_ hlisted⟩
          rw [heq, ← hlist]
          exact hmem
    · intro hm
      exact hlisted (hlist ▸ ((mem_bssList_unlinkBss hinv₁.nodup).mp hm).1)
    · obtain ⟨c, r, heq⟩ := unlinkBss_entry lib (newBss s tmp) b s.fresh
      rw [heq]
      exact htrans

theorem Rdev.Keeps.listed (hkeeps : s.Keeps s') : s'.listed = s.listed :=
  congrArg (fun (l : List ℕ) m => m ∈ l) hkeeps.list

theorem Rdev.Groups.keeps (h : s.Groups s.listed) (hkeeps : s.Keeps s') : s'.Groups s'.listed := by
  rw [hkeeps.listed]
  exact h.congr hkeeps.live.subset (fun x => ⟨(hkeeps.entry x).1.1, (hkeeps.entry x).2⟩) fun _ hm => hm

/-- **An update keeps the groups.** -/
theorem Rdev.Groups.update {alloc : Bool} (h : s.Groups s.listed) (hinv : PendInv s 0)
    (hok : rbFindBss s tmp.toBss .regular = none → alloc = true → LinkOk limit s tmp) :
    (bssUpdate lib limit s tmp alloc).1.Groups (bssUpdate lib limit s tmp alloc).1.listed := by
  rcases bssUpdate_cases lib limit s tmp alloc with
    ⟨found, -, ⟨-, heq⟩ | ⟨-, heq⟩⟩ | ⟨hnone, ⟨-, heq⟩ | ⟨halloc, ⟨s₂, hroom, heq⟩ | ⟨-, -, heq⟩⟩⟩
  · rw [heq]
    obtain ⟨c, hc⟩ := bssRefGet_eq_withCounts (updateKnownBss s found tmp).1 found
    rw [hc]
    exact (h.keeps (keeps_updateKnownBss s found tmp)).congr subset_rfl (fun _ => ⟨rfl, rfl⟩)
      fun _ hm => hm
  · rw [heq]
    exact h.keeps (keeps_updateKnownBss s found tmp)
  · rw [heq]
    exact h.keeps (keeps_kfree s (some tmp.ies))
  · rw [heq]
    have hmaking := making_of_makesRoom h hinv (hok hnone halloc) hroom
    obtain ⟨c, hc⟩ := linkBss_eq lib tmp hmaking.transmitted
    rw [hc]
    refine hmaking.groups.congr subset_rfl (fun _ => ⟨rfl, rfl⟩) fun m hm => ?_
    exact (List.mem_append.mp hm).imp_right List.mem_singleton.mp
  · rw [heq]
    have hlist := (hinv.newBss (hok hnone halloc)).2.2.1
    refine (h.newBss hinv (hok hnone halloc)).congr (Finset.erase_subset ..) (fun _ => ⟨rfl, rfl⟩) ?_
    intro m hm
    exact .inl (by rw [← hlist]; exact hm)

/-! ### Steps -/

theorem Rdev.Groups.touches (h : s.Groups on) (hs' : s.Touches s') : s'.Groups on := by
  obtain ⟨c, hold, freed, refs, heq⟩ := hs'.eq
  refine h.congr hs'.live (fun x => ?_) fun _ hm => hm
  rw [heq]
  exact ⟨rfl, rfl⟩

theorem Rdev.Touches.listed (hs' : s.Touches s') : s'.listed = s.listed := by
  obtain ⟨c, hold, freed, refs, heq⟩ := hs'.eq
  rw [heq]

/-- **Expiry keeps the groups.** -/
theorem Rdev.Groups.expire (h : s.Groups s.listed) (hinv : PendInv s 0) (lib : RbLib)
    (expireTime : UInt64) :
    (bssExpire lib s expireTime).Groups (bssExpire lib s expireTime).listed := by
  refine (bssExpire_invariant (fun s' => PendInv s' 0 ∧ s'.Groups s'.listed) ⟨hinv, h⟩
    (fun s' h' => h'.1.nodup) ?_ expireTime).2
  exact fun s' b h' hb => ⟨h'.1.unlink lib hb, h'.2.unlinkListed h'.1 lib⟩

/-- **One step.** -/
theorem Rdev.Groups.step {op : BssOp} {os o : List Empty}
    (h : s.Groups s.listed) (hinv : PendInv s 0) (hcond : BssCond limit s os op)
    (hstep : bssStep lib limit s op = some (s', o)) : s'.Groups s'.listed := by
  rcases bssStep_cases hstep with ⟨tmp, alloc, rfl, -, rfl⟩ | ⟨b, rfl, -, rfl⟩ | ⟨t, rfl, rfl⟩ | htouch
  · have htouch := touches_handOut (bssUpdate lib limit s tmp alloc)
    rw [htouch.listed]
    exact (h.update hinv hcond).touches htouch
  · exact h.unlinkListed hinv lib
  · exact h.expire hinv lib t
  · rw [htouch.listed]
    exact h.touches htouch

theorem groups_empty : Rdev.Groups {} fun _ => False where
  mates := nofun
  member := nofun

end Mac80211
