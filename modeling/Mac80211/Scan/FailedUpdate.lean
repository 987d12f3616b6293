import Mac80211.Scan.Cases

/-!
# Updates that fail

`cfg80211_bss_update` links a new entry to those of its group before it looks whether there is room
for it, and frees it if there is none.

## Main results

* `failed_update_iff` — when an update that fails leaves the table as it was
-/

namespace Mac80211

open Machine References ListHead List

variable {s s' : Rdev} {b : ℕ}

/-- An entry that is there. -/
def Rdev.Existing (s : Rdev) (b : ℕ) : Prop := b ∈ s.live ∨ b ∈ s.bssList

/-- An entry points to this one, or is in one ring with it. -/
def Rdev.RefersTo (s : Rdev) (b n : ℕ) : Prop :=
  (s.bss b).hiddenBeaconBss = some n ∨ n < s.fresh ∧ (s.bss b).ring = (s.bss n).ring

/-- **What a failed update should do**: every entry is what it was, as far as groups and counts go,
and none refers to the new one. -/
def Rdev.Unchanged (s s' : Rdev) : Prop :=
  ∀ b, s.Existing b → (s'.bss b).hiddenBeaconBss = (s.bss b).hiddenBeaconBss ∧
    (s'.bss b).ring = (s.bss b).ring ∧ (s'.bss b).beaconIes = (s.bss b).beaconIes ∧
    (s'.bss b).refcount = (s.bss b).refcount ∧ ¬s'.RefersTo b s.fresh

/-- The update makes a new entry and links it to others. -/
def GroupsNew (s : Rdev) (tmp : InformBss) (alloc : Bool) : Prop :=
  rbFindBss s tmp.toBss .regular = none ∧ alloc = true ∧ ∃ b, Joins s tmp b ∨ Combines s tmp b

/-- **Labels are given once.** -/
structure Rdev.Labelled (s : Rdev) : Prop where
  nodup : s.bssList.Nodup
  treeNodup : s.bssTree.toList.Nodup
  tree : ∀ b ∈ s.bssTree.toList, b ∈ s.bssList
  list : ∀ b ∈ s.bssList, b < s.fresh
  live : ∀ b ∈ s.live, b < s.fresh
  ring : ∀ b, (s.bss b).ring = 0 ∨ (s.bss b).ring < s.fresh
  hidden : ∀ b h, (s.bss b).hiddenBeaconBss = some h → h < s.fresh

/-! ### Labels are given once -/

section Labels

variable {lib : RbLib} {limit : ℤ} {tmp : InformBss}

theorem Rdev.Labelled.touches (h : s.Labelled) (ht : s.Touches s') : s'.Labelled := by
  obtain ⟨⟨c, hold, freed, refs, heq⟩, hlive⟩ := ht
  rw [heq]
  exact ⟨h.nodup, h.treeNodup, h.tree, h.list, fun b hb => h.live b (hlive hb), h.ring, h.hidden⟩

theorem Rdev.Labelled.keeps (h : s.Labelled) (hk : s.Keeps s') : s'.Labelled := by
  refine ⟨?_, ?_, ?_, ?_, ?_, ?_, ?_⟩
  · rw [hk.list]
    exact h.nodup
  · rw [hk.tree]
    exact h.treeNodup
  · rw [hk.tree, hk.list]
    exact h.tree
  · rw [hk.list, hk.fresh]
    exact h.list
  · rw [hk.live, hk.fresh]
    exact h.live
  · intro b
    rw [(hk.entry b).2, hk.fresh]
    exact h.ring b
  · intro b p hp
    rw [hk.fresh]
    exact h.hidden b p ((hk.entry b).1.1 ▸ hp)

theorem Rdev.Labelled.unlinked (h : s.Labelled) (lib : RbLib) (b : ℕ) : (unlinked lib s b).Labelled := by
  have hun := unlinks_unlinked lib s b
  have hring : ∀ x, ((Mac80211.unlinked lib s b).bss x).ring = (s.bss x).ring ∨
      ((Mac80211.unlinked lib s b).bss x).ring < (Mac80211.unlinked lib s b).fresh := by
    intro x
    by_cases hx : x = b
    · rw [hx, Mac80211.unlinked]
      split
      · exact .inl rfl
      · refine .inr ?_
        simp [Rdev.hiddenListDel, Rdev.upd]
    · obtain ⟨r, hr, hsame⟩ := unlinked_entry lib s b x
      rw [hr]
      exact .inl (hsame hx)
  have hlive : (Mac80211.unlinked lib s b).live = s.live := by
    rw [Mac80211.unlinked]
    split <;> rfl
  refine ⟨?_, ?_, ?_, ?_, ?_, ?_, ?_⟩
  · rw [hun.list]
    exact h.nodup.erase b
  · rw [hun.tree, lib.toList_erase]
    exact h.treeNodup.erase b
  · rw [hun.tree, lib.toList_erase, hun.list]
    intro x hx
    rw [h.treeNodup.mem_erase_iff] at hx
    rw [h.nodup.mem_erase_iff]
    exact ⟨hx.1, h.tree x hx.2⟩
  · rw [hun.list]
    intro x hx
    exact (h.list x (mem_of_mem_erase hx)).trans_le hun.fresh
  · rw [hlive]
    intro x hx
    exact (h.live x hx).trans_le hun.fresh
  · intro x
    rcases hring x with hx | hx
    · rw [hx]
      exact (h.ring x).imp_right fun hlt => hlt.trans_le hun.fresh
    · exact .inr hx
  · intro x p hp
    obtain ⟨r, hr, -⟩ := unlinked_entry lib s b x
    rw [hr] at hp
    exact (h.hidden x p hp).trans_le hun.fresh

theorem Rdev.Labelled.unlink (h : s.Labelled) (lib : RbLib) (b : ℕ) : (unlinkBss lib s b).1.Labelled := by
  rcases unlinkBss_cases lib s b with ⟨-, heq⟩ | ⟨-, -, hrec⟩
  · rw [heq]
    exact h
  · exact (h.unlinked lib b).touches hrec.touches

theorem Rdev.Labelled.makesRoom (h : s.Labelled) (hm : MakesRoom lib limit s s') : s'.Labelled := by
  rcases hm with ⟨-, rfl⟩ | ⟨-, b, -, -, rfl⟩
  · exact h
  · exact h.unlink lib b

theorem Rdev.Labelled.isNew (h : s.Labelled) (tmp : InformBss) : IsNew s tmp (newBss s tmp) :=
  isNew_newBss tmp h.nodup (fun hmem => lt_irrefl _ (h.list _ hmem)) h.tree

theorem Rdev.Labelled.new (h : s.Labelled) (tmp : InformBss) : (newBss s tmp).Labelled := by
  have hnew := h.isNew tmp
  have hfields : (newBss s tmp).bssList = s.bssList ∧ (newBss s tmp).bssTree = s.bssTree ∧
      (newBss s tmp).fresh = s.fresh + 1 ∧ (newBss s tmp).live = insert s.fresh s.live := by
    rw [hnew.eq]
    exact ⟨rfl, rfl, rfl, rfl⟩
  obtain ⟨hlist, htree, hfresh, hlive⟩ := hfields
  have hrings : ∀ x, (s.bss x).ring = 0 ∨ (s.bss x).ring < s.fresh + 1 := fun x =>
    (h.ring x).imp_right Nat.lt_succ_of_lt
  refine ⟨?_, ?_, ?_, ?_, ?_, ?_, ?_⟩
  · rw [hlist]
    exact h.nodup
  · rw [htree]
    exact h.treeNodup
  · rw [htree, hlist]
    exact h.tree
  · rw [hlist, hfresh]
    intro x hx
    exact Nat.lt_succ_of_lt (h.list x hx)
  · rw [hlive, hfresh]
    intro x hx
    rcases Finset.mem_insert.mp hx with rfl | hx
    · exact Nat.lt_succ_self _
    · exact Nat.lt_succ_of_lt (h.live x hx)
  · rw [hfresh]
    intro x
    by_cases hx : x = s.fresh
    · rw [hx]
      obtain ⟨c, ⟨heq, -⟩ | ⟨g, -, -, heq⟩⟩ := hnew.new
      · rw [heq]
        exact .inr (Nat.lt_succ_self _)
      · rw [heq]
        exact hrings g
    · obtain ⟨c, heq | ⟨-, heq⟩⟩ := hnew.old x hx
      · rw [heq]
        exact hrings x
      · rw [heq]
        exact .inr (Nat.lt_succ_self _)
  · rw [hfresh]
    intro x p hp
    by_cases hx : x = s.fresh
    · rw [hx] at hp
      obtain ⟨c, ⟨heq, -⟩ | ⟨g, hjoin, -, heq⟩⟩ := hnew.new
      · rw [heq] at hp
        cases hp
      · rw [heq] at hp
        cases hp
        exact Nat.lt_succ_of_lt (h.list p (h.tree p (mem_of_hiddenBeaconFor hjoin.2)))
    · obtain ⟨c, heq | ⟨-, heq⟩⟩ := hnew.old x hx
      · rw [heq] at hp
        exact Nat.lt_succ_of_lt (h.hidden x p hp)
      · rw [heq] at hp
        cases hp
        exact Nat.lt_succ_self _

theorem Rdev.Labelled.link (h : s.Labelled) {n : ℕ} (lib : RbLib) (tmp : InformBss)
    (htrans : (s.bss n).transmittedBss = none) (hn : n ∉ s.bssList) (hfresh : n < s.fresh) :
    (linkBss lib s tmp n).Labelled := by
  obtain ⟨c, hc⟩ := linkBss_eq lib tmp htrans
  obtain ⟨htreeNodup, htree⟩ := nodup_rbInsertBss lib h.treeNodup fun hmem => hn (h.tree n hmem)
  rw [hc]
  refine ⟨?_, htreeNodup, ?_, ?_, h.live, h.ring, h.hidden⟩
  · refine nodup_append.mpr ⟨h.nodup, nodup_singleton n, ?_⟩
    rintro x hx y hy rfl
    exact hn (mem_singleton.mp hy ▸ hx)
  · intro x hx
    rcases htree x hx with rfl | hx
    · exact mem_append_right _ (mem_singleton_self x)
    · exact mem_append_left _ (h.tree x hx)
  · intro x hx
    rcases mem_append.mp hx with hx | hx
    · exact h.list x hx
    · rw [mem_singleton.mp hx]
      exact hfresh

theorem Rdev.Labelled.update (h : s.Labelled) (lib : RbLib) (limit : ℤ) (tmp : InformBss) (alloc : Bool) :
    (bssUpdate lib limit s tmp alloc).1.Labelled := by
  rcases bssUpdate_cases lib limit s tmp alloc with
    ⟨found, -, ⟨-, heq⟩ | ⟨-, heq⟩⟩ | ⟨-, ⟨-, heq⟩ | ⟨-, ⟨s₂, hmakes, heq⟩ | ⟨-, -, heq⟩⟩⟩
  · rw [heq]
    exact (h.keeps (keeps_updateKnownBss s found tmp)).touches (touches_bssRefGet _ found)
  · rw [heq]
    exact h.keeps (keeps_updateKnownBss s found tmp)
  · rw [heq]
    exact h.keeps (keeps_kfree s _)
  · have hnew := h.isNew tmp
    have hnot : s.fresh ∉ s.bssList := fun hmem => lt_irrefl _ (h.list _ hmem)
    have hlist : (newBss s tmp).bssList = s.bssList := by rw [hnew.eq]
    have hfresh : (newBss s tmp).fresh = s.fresh + 1 := by rw [hnew.eq]
    have htrans : ((newBss s tmp).bss s.fresh).transmittedBss = none := by
      obtain ⟨c, ⟨hentry, -⟩ | ⟨g, -, -, hentry⟩⟩ := hnew.new
      · rw [hentry]
        rfl
      · rw [hentry]
        rfl
    have hroom : s₂.bssList.Sublist (newBss s tmp).bssList ∧ (newBss s tmp).fresh ≤ s₂.fresh := by
      rcases hmakes with ⟨-, rfl⟩ | ⟨-, b, -, hnot, rfl⟩
      · exact ⟨List.Sublist.refl _, le_rfl⟩
      · have hun := unlinks_of_not_refuses lib hnot
        rw [hun.list]
        exact ⟨erase_sublist, hun.fresh⟩
    rw [heq]
    refine ((h.new tmp).makesRoom hmakes).link lib tmp ?_ ?_ ?_
    · obtain ⟨c, r, hentry⟩ := hmakes.entry s.fresh
      rw [hentry]
      exact htrans
    · intro hmem
      exact hnot (hlist ▸ hroom.1.subset hmem)
    · omega
  · rw [heq]
    have hinv := h.new tmp
    exact ⟨hinv.nodup, hinv.treeNodup, hinv.tree, hinv.list, fun x hx => hinv.live x (Finset.mem_of_mem_erase hx),
      hinv.ring, hinv.hidden⟩

/-- **One step gives labels once.** -/
theorem Rdev.Labelled.step (h : s.Labelled) {op : BssOp} {o : List Empty}
    (hstep : bssStep lib limit s op = some (s', o)) : s'.Labelled := by
  rcases bssStep_cases hstep with ⟨tmp, alloc, -, -, rfl⟩ | ⟨b, -, -, rfl⟩ | ⟨expireTime, -, rfl⟩ | ht
  · exact (h.update lib limit tmp alloc).touches (touches_handOut _)
  · exact h.unlink lib b
  · exact bssExpire_invariant Rdev.Labelled h (fun _ h' => h'.nodup) (fun _ b h' _ => h'.unlink lib b) expireTime
  · exact h.touches ht

theorem labelled_empty : Rdev.Labelled {} := by
  refine ⟨nodup_nil, nodup_nil, ?_, ?_, ?_, ?_, ?_⟩
  · intro b hb
    cases hb
  · intro b hb
    cases hb
  · intro b hb
    cases hb
  · intro b
    exact .inl rfl
  · intro b p hp
    cases hp

theorem Rdev.Labelled.existing_lt (h : s.Labelled) (hb : s.Existing b) : b < s.fresh :=
  hb.elim (h.live b) (h.list b)

end Labels

/-! ### What a failed update has changed -/

section Failed

variable {lib : RbLib} {limit : ℤ} {tmp : InformBss} {ssid : List UInt8} {n : ℕ}

theorem hidden_combineBsses {bs : List ℕ} (hnodup : bs.Nodup) (hb : b ∈ bs) (hbn : b ≠ n)
    (hsame : s'.bss b = s.bss b) (hcomb : combines s tmp ssid b = true) :
    ((bs.foldl (fun s b => if combines s tmp ssid b then combineBss s tmp n b else s) s').bss b).hiddenBeaconBss =
      some n := by
  -- once it does, no other step changes it
  have hrest : ∀ (bs : List ℕ) (s' : Rdev), b ∉ bs → (s'.bss b).hiddenBeaconBss = some n →
      ((bs.foldl (fun s b => if combines s tmp ssid b then combineBss s tmp n b else s) s').bss b).hiddenBeaconBss =
        some n := by
    intro bs
    induction bs with
    | nil => exact fun _ _ h => h
    | cons x bs ih =>
      intro s' hmem h
      rw [mem_cons, not_or] at hmem
      rw [foldl_cons]
      refine ih _ hmem.2 ?_
      split
      · rwa [bss_combineBss hmem.1 hbn]
      · exact h
  induction bs generalizing s' with
  | nil => cases hb
  | cons x bs ih =>
    obtain ⟨hx, hnodup⟩ := nodup_cons.mp hnodup
    rw [foldl_cons]
    rcases mem_cons.mp hb with rfl | hb
    · have hcomb' : combines s' tmp ssid b = true := by
        rw [combines, hsame]
        exact hcomb
      rw [if_pos hcomb']
      refine hrest bs _ hx ?_
      simp [combineBss, Rdev.addRef, Rdev.upd, hbn]
    · have hbx : b ≠ x := fun heq => hx (heq ▸ hb)
      refine ih hnodup hb ?_
      split
      · rw [bss_combineBss hbx hbn]
        exact hsame
      · exact hsame

/-- **What an update that fails has done**: nothing, or it has made a new entry. -/
theorem failed_cases {alloc : Bool} (hfail : (bssUpdate lib limit s tmp alloc).2 = none) :
    (¬GroupsNew s tmp alloc ∧ (bssUpdate lib limit s tmp alloc).1.bss = s.bss ∧
      (bssUpdate lib limit s tmp alloc).1.fresh = s.fresh) ∨
    rbFindBss s tmp.toBss .regular = none ∧ alloc = true ∧ (bssUpdate lib limit s tmp alloc).1 =
      { newBss s tmp with live := (newBss s tmp).live.erase s.fresh } := by
  rcases bssUpdate_cases lib limit s tmp alloc with
    ⟨found, hfound, ⟨-, heq⟩ | ⟨hdrop, heq⟩⟩ | ⟨hnone, ⟨halloc, heq⟩ | ⟨halloc, ⟨s₂, -, heq⟩ | ⟨-, -, heq⟩⟩⟩
  · rw [heq] at hfail
    cases hfail
  · refine .inl ⟨?_, ?_⟩
    · rintro ⟨hnone, -⟩
      rw [hnone] at hfound
      cases hfound
    · have hkfree : (updateKnownBss s found tmp).1 = s.kfree (some tmp.ies) := by
        rw [updateKnownBss] at hdrop ⊢
        split at hdrop
        · cases hdrop
        · rename_i hbeacon
          split at hdrop
          · rename_i hgroup
            rw [if_neg hbeacon, if_pos hgroup]
          · cases hdrop
      rw [heq, hkfree]
      exact ⟨rfl, rfl⟩
  · refine .inl ⟨?_, ?_⟩
    · rintro ⟨-, htrue, -⟩
      rw [halloc] at htrue
      cases htrue
    · rw [heq]
      exact ⟨rfl, rfl⟩
  · rw [heq] at hfail
    cases hfail
  · exact .inr ⟨hnone, halloc, by rw [heq]⟩

theorem changed_of_groups (h : s.Labelled) {b : ℕ} (hgroup : Joins s tmp b ∨ Combines s tmp b) :
    s.Existing b ∧ (((newBss s tmp).bss b).refcount ≠ (s.bss b).refcount ∨
      ((newBss s tmp).bss b).hiddenBeaconBss = some s.fresh) := by
  rcases hgroup with ⟨hpresp, hjoin⟩ | ⟨hbeacon, hlist, ssid, hssid, hcomb⟩
  · have hlist := h.tree b (mem_of_hiddenBeaconFor hjoin)
    have hne : b ≠ s.fresh := (h.list b hlist).ne
    refine ⟨.inr hlist, .inl ?_⟩
    rw [newBss, if_pos hpresp, hjoin]
    simp [joinHidden, Rdev.addRef, Rdev.upd, allocBss, hne]
  · have hne : b ≠ s.fresh := (h.list b hlist).ne
    have hsame : (allocBss s tmp).bss b = s.bss b := Function.update_of_ne hne ..
    refine ⟨.inr hlist, .inr ?_⟩
    rw [newBss, if_neg (by simp [hbeacon]), combineBsses, hssid]
    exact hidden_combineBsses h.nodup hlist hne hsame hcomb

theorem failed_update_of_labelled (h : s.Labelled) {alloc : Bool}
    (hfail : (bssUpdate lib limit s tmp alloc).2 = none) :
    s.Unchanged (bssUpdate lib limit s tmp alloc).1 ↔ ¬GroupsNew s tmp alloc := by
  rcases failed_cases hfail with ⟨hno, hbss, hfresh⟩ | ⟨hnone, halloc, heq⟩
  · refine ⟨fun _ => hno, fun _ b hb => ?_⟩
    rw [Rdev.RefersTo, hbss, hfresh]
    refine ⟨rfl, rfl, rfl, rfl, ?_⟩
    rintro (hp | ⟨hlt, -⟩)
    · exact lt_irrefl _ (h.hidden b _ hp)
    · exact lt_irrefl _ hlt
  · rw [heq]
    constructor
    · rintro hsame ⟨-, -, b, hgroup⟩
      obtain ⟨hb, hchanged⟩ := changed_of_groups h hgroup
      obtain ⟨-, -, -, hcount, hrefers⟩ := hsame b hb
      rcases hchanged with hne | hhidden
      · exact hne hcount
      · exact hrefers (.inl hhidden)
    · intro hno b hb
      have hlt := h.existing_lt hb
      have hnew : newBss s tmp = allocBss s tmp :=
        newBss_of_unlinked (fun b hb => (h.list b hb).ne) (fun b hb => hno ⟨hnone, halloc, b, .inl hb⟩)
          fun b hb => hno ⟨hnone, halloc, b, .inr hb⟩
      have hsame : (allocBss s tmp).bss b = s.bss b := Function.update_of_ne hlt.ne ..
      have hring : ((allocBss s tmp).bss s.fresh).ring = s.fresh := by simp [allocBss]
      rw [Rdev.RefersTo, hnew]
      dsimp only
      rw [hsame, hring]
      refine ⟨rfl, rfl, rfl, rfl, ?_⟩
      rintro (hp | ⟨-, heqring⟩)
      · exact lt_irrefl _ (h.hidden b _ hp)
      · rcases h.ring b with hzero | hless
        · omega
        · omega

/-- **A failed update changes nothing if and only if it did not group**: in every table that can be
reached, whatever the limit. -/
theorem failed_update_iff (lib : RbLib) (limit : ℤ) {os : List Empty}
    (h : Reach (bssStep lib limit) (fun _ _ _ => True) {} s os) (tmp : InformBss) (alloc : Bool)
    (hfail : (bssUpdate lib limit s tmp alloc).2 = none) :
    s.Unchanged (bssUpdate lib limit s tmp alloc).1 ↔ ¬GroupsNew s tmp alloc := by
  refine failed_update_of_labelled ?_ hfail
  refine h.invariant (fun s _ => s.Labelled) labelled_empty ?_
  intro s os op s' o hinv _ hstep
  exact hinv.step hstep

end Failed

/-! ### A table that is full -/

instance (s : Rdev) (tmp : InformBss) (alloc : Bool) : Decidable (GroupsNew s tmp alloc) :=
  decidable_of_iff (rbFindBss s tmp.toBss .regular = none ∧ alloc = true ∧
    ((∃ b ∈ hiddenBeaconFor s tmp, Joins s tmp b) ∨ ∃ b ∈ s.bssList, Combines s tmp b))
    ⟨fun ⟨hnone, halloc, hgroup⟩ => ⟨hnone, halloc, hgroup.elim (fun ⟨b, _, hb⟩ => ⟨b, .inl hb⟩)
      fun ⟨b, _, hb⟩ => ⟨b, .inr hb⟩⟩,
    fun ⟨hnone, halloc, b, hgroup⟩ => ⟨hnone, halloc, hgroup.elim (fun hb => .inl ⟨b, hb.2, hb⟩)
      fun hb => .inr ⟨b, hb.2.1, hb⟩⟩⟩

/-- A network shows its SSID in a probe response, and the entry is held: there is room for one. -/
def heldBss : List BssOp := [.update (informBss 9 true [65] none) true, .hold 0]

/-- A beacon of another network finds no room, and nothing is changed. -/
theorem failed_update_other : ∃ s os, Reach (bssStep plainRb 1) (fun _ _ _ => True) {} s os ∧
    (bssUpdate plainRb 1 s (informBss 12 false [] none) true).2 = none ∧
    s.Unchanged (bssUpdate plainRb 1 s (informBss 12 false [] none) true).1 := by
  have hrun : (run (bssStep plainRb 1) {} heldBss).map
      (fun r => ((bssUpdate plainRb 1 r.1 (informBss 12 false [] none) true).2,
        decide (GroupsNew r.1 (informBss 12 false [] none) true))) = some (none, false) := by
    decide +kernel
  obtain ⟨⟨s, os⟩, hs, hfields⟩ := Option.map_eq_some_iff.mp hrun
  obtain ⟨hfail, hgroups⟩ := Prod.mk.inj hfields
  have hreach := Reach.of_run_init hs
  exact ⟨s, os, hreach, hfail, (failed_update_iff plainRb 1 hreach _ true hfail).mpr (of_decide_eq_false hgroups)⟩

/-- **A probe response points to what has been freed**: the beacon of its network, which hides the SSID, finds
no room. -/
theorem failed_update_dangles : ∃ s os, Reach (bssStep plainRb 1) (fun _ _ _ => True) {} s os ∧
    (bssUpdate plainRb 1 s (informBss 9 false [] none) true).2 = none ∧
    ¬s.Unchanged (bssUpdate plainRb 1 s (informBss 9 false [] none) true).1 := by
  have hrun : (run (bssStep plainRb 1) {} heldBss).map
      (fun r => ((bssUpdate plainRb 1 r.1 (informBss 9 false [] none) true).2, r.1.bssList,
        ((bssUpdate plainRb 1 r.1 (informBss 9 false [] none) true).1.bss 0).hiddenBeaconBss,
        r.1.fresh)) = some (none, [0], some 1, 1) := by
    decide +kernel
  obtain ⟨⟨s, os⟩, hs, hfields⟩ := Option.map_eq_some_iff.mp hrun
  simp only [Prod.mk.injEq] at hfields
  obtain ⟨hfail, hlist, hhidden, hfresh⟩ := hfields
  refine ⟨s, os, Reach.of_run_init hs, hfail, ?_⟩
  intro hsame
  have hzero : s.Existing 0 := .inr (by simp [hlist])
  obtain ⟨-, -, -, -, hrefers⟩ := hsame 0 hzero
  refine hrefers (.inl ?_)
  rw [hfresh]
  exact hhidden

end Mac80211
