import Mac80211.Scan.Assoc
import Mac80211.Scan.Groups
import Mac80211.Scan.Order

/-!
# The table is what it looks like

`bss_entries` is the length of `bss_list`, and `bss_tree` has the entries of `bss_list`, each where
the order wants it. Frames change entries in place, which keeps the order unless a mesh BSS becomes
another one or the other way round.

## Main definitions

* `TableOk`, `TreeInv`
-/

namespace Mac80211

open Machine ListHead List Option

variable {s s' : Rdev} {out : List ℕ} {b c n : ℕ}

/-- **What should hold in every state.** -/
structure TableOk (s : Rdev) : Prop where
  entries : s.bssEntries = s.bssList.length
  tree : s.bssTree.toList.Perm s.bssList
  find : ∀ b ∈ s.bssList, rbFindBss s (s.bss b) .regular = some b
  antisymm : ∀ a ∈ s.bssList, ∀ b ∈ s.bssList,
    cmpBss (s.bss b) (s.bss a) .regular = (cmpBss (s.bss a) (s.bss b) .regular).swap
  trans : ∀ a ∈ s.bssList, ∀ b ∈ s.bssList, ∀ c ∈ s.bssList,
    cmpBss (s.bss a) (s.bss b) .regular = .lt → cmpBss (s.bss b) (s.bss c) .regular = .lt →
      cmpBss (s.bss a) (s.bss c) .regular = .lt
  place : s.bssTree.toList.Pairwise fun a b => cmpBss (s.bss a) (s.bss b) .regular = .lt

/-- **The invariant.** The entries that are not `out` are where the order wants them. -/
structure TreeInv (s : Rdev) (out : List ℕ) : Prop where
  nodup : s.bssList.Nodup
  fresh : ∀ b ∈ s.bssList, b < s.fresh
  ring : ∀ b ∈ s.bssList, (s.bss b).ring < s.fresh
  entries : s.bssEntries = s.bssList.length
  tree : s.bssTree.toList.Perm s.bssList
  ordered : s.Ordered (s.bssTree.toList.filter (· ∉ out))

theorem TreeInv.ordered_all (h : TreeInv s []) : s.Ordered s.bssTree.toList := by
  have hordered := h.ordered
  simp only [not_mem_nil, not_false_eq_true, decide_true, filter_true] at hordered
  exact hordered

theorem TreeInv.treeNodup (h : TreeInv s out) : s.bssTree.toList.Nodup := h.tree.nodup_iff.mpr h.nodup

/-- **What should hold, does.** -/
theorem TreeInv.tableOk (h : TreeInv s []) : TableOk s := by
  have hordered := h.ordered_all
  have hcmp : ∀ a ∈ s.bssList, ∀ b ∈ s.bssList,
      cmpBss (s.bss a) (s.bss b) .regular = compare (s.bss a).rank (s.bss b).rank :=
    fun a ha b hb => hordered.cmp_eq (h.tree.mem_iff.mpr ha) (h.tree.mem_iff.mpr hb)
  refine ⟨h.entries, h.tree, fun b hb => hordered.find (h.tree.mem_iff.mpr hb), fun a ha b hb => ?_,
    fun a ha b hb c hc hab hbc => ?_, ?_⟩
  · rw [hcmp a ha b hb, hcmp b hb a ha]
    exact Std.OrientedCmp.eq_swap
  · rw [hcmp a ha b hb, compare_lt_iff_lt] at hab
    rw [hcmp b hb c hc, compare_lt_iff_lt] at hbc
    rw [hcmp a ha c hc, compare_lt_iff_lt]
    exact hab.trans hbc
  · refine hordered.sorted.imp_of_mem fun ha hb hlt => ?_
    rw [hordered.cmp_eq ha hb, compare_lt_iff_lt]
    exact hlt

/-! ### Unlinking -/

theorem TreeInv.touches (h : TreeInv s out) (htouch : s.Touches s') : TreeInv s' out := by
  obtain ⟨c, hold, freed, refs, heq⟩ := htouch.eq
  have hbss : ∀ x, s'.bss x = { s.bss x with refcount := c x, hold := hold x } := fun x => by rw [heq]
  have hfields : s'.bssList = s.bssList ∧ s'.bssTree = s.bssTree ∧ s'.bssEntries = s.bssEntries ∧
      s'.fresh = s.fresh := by
    rw [heq]
    exact ⟨rfl, rfl, rfl, rfl⟩
  obtain ⟨hlist, htree, hentries, hfresh⟩ := hfields
  refine ⟨hlist ▸ h.nodup, fun b hb => ?_, fun b hb => ?_, ?_, ?_, ?_⟩
  · rw [hlist] at hb
    rw [hfresh]
    exact h.fresh b hb
  · rw [hlist] at hb
    rw [hbss, hfresh]
    exact h.ring b hb
  · rw [hentries, hlist, h.entries]
  · rw [htree, hlist]
    exact h.tree
  · rw [htree]
    refine h.ordered.congr fun b _ => ?_
    rw [hbss]
    exact .of_fields rfl rfl rfl rfl

/-- **An entry is taken off the list.** -/
theorem TreeInv.unlink (h : TreeInv s out) (lib : RbLib) (hb : b ∈ s.bssList) :
    TreeInv (unlinkBss lib s b).1 out := by
  rcases unlinkBss_cases lib s b with ⟨-, heq⟩ | ⟨-, -, hrec⟩
  · rw [heq]
    exact h
  refine TreeInv.touches ?_ hrec.touches
  obtain ⟨hlist, htree, hentries, -, hfresh, hring⟩ := unlinks_unlinked lib s b
  refine ⟨?_, fun x hx => ?_, fun x hx => ?_, ?_, ?_, ?_⟩
  · rw [hlist]
    exact h.nodup.erase b
  · rw [hlist] at hx
    exact (h.fresh x (mem_of_mem_erase hx)).trans_le hfresh
  · rw [hlist] at hx
    exact hring x (h.ring x (mem_of_mem_erase hx))
  · have hlen := length_erase_of_mem hb
    have hpos := length_pos_of_mem hb
    rw [hentries, hlist, hlen, h.entries]
    omega
  · rw [htree, lib.toList_erase, hlist]
    exact h.tree.erase b
  · rw [htree, lib.toList_erase]
    refine (h.ordered.sublist (List.Sublist.filter _ erase_sublist)).congr fun x _ => ?_
    obtain ⟨r, heq, -⟩ := unlinked_entry lib s b x
    rw [heq]
    exact .of_fields rfl rfl rfl rfl

/-- **Old entries are taken off the list.** -/
theorem TreeInv.expire (h : TreeInv s out) (lib : RbLib) (expireTime : UInt64) :
    TreeInv (bssExpire lib s expireTime) out :=
  bssExpire_invariant (fun s' => TreeInv s' out) h (fun _ h' => h'.nodup)
    (fun _ _ h' hb => h'.unlink lib hb) expireTime

/-! ### Known entries -/

/-- What an update makes of an entry, as far as the order looks at it. -/
def Bss.retold (e : Bss) (capability : UInt16) (ies : Option BssIes) : Bss :=
  { e with
    capability := capability
    ies := ies }

variable {e e' : Bss}

theorem Bss.name_of_mesh {m : List UInt8 × List UInt8} (hmesh : e.mesh = some m)
    (hmesh' : e'.mesh = some m) : e'.name = e.name := by
  rw [Bss.name, Bss.name, hmesh, hmesh']

theorem Bss.mesh_congr (hcapability : e'.capability = e.capability)
    (hies : e'.ies = e.ies) : e'.mesh = e.mesh := by
  rw [Bss.mesh, Bss.mesh, Bss.getIe, Bss.getIe, hcapability, hies]
  rfl

theorem Bss.mesh_of_capability (hies : e'.ies = e.ies) (hsome : e.mesh.isSome = true)
    (hsome' : e'.mesh.isSome = true) : e'.mesh = e.mesh := by
  obtain ⟨m, hm⟩ := isSome_iff_exists.mp hsome
  obtain ⟨m', hm'⟩ := isSome_iff_exists.mp hsome'
  cases hi : e.ies with
  | none =>
    rw [Bss.mesh, Bss.getIe, hi] at hm
    split at hm <;> cases hm
  | some ies =>
    obtain ⟨-, hid, hconf⟩ := (mesh_eq_some_iff hi).mp hm
    obtain ⟨-, hid', hconf'⟩ := (mesh_eq_some_iff (hies.trans hi)).mp hm'
    rw [hm, hm']
    exact congrArg some (Prod.ext (some.inj (hid'.symm.trans hid))
      (some.inj (hconf'.symm.trans hconf)))

variable {tmp : InformBss}

/-- **A known entry stays where it is** if it is a mesh BSS before and after, or is none. -/
theorem samePlace_retold {e : Bss} {ies : Option BssIes} (hies : e.ies ≠ none)
    (hcmp : cmpBss tmp.toBss e .regular = .eq)
    (hchannel : tmp.channel.centerFreq = e.channel.centerFreq → tmp.channel = e.channel)
    (hafter : ies = some tmp.ies ∨ ies = e.ies)
    (hmesh : (e.retold tmp.capability ies).mesh.isSome = e.mesh.isSome) :
    e.SamePlace (e.retold tmp.capability ies) := by
  have hchan : tmp.toBss.channel = e.channel := by
    by_contra hne
    rw [cmpBss, if_pos hne, compare_eq_iff_eq] at hcmp
    exact hne (hchannel hcmp.symm)
  have hname : (e.retold tmp.capability ies).name = e.name := by
    rcases hafter with rfl | rfl
    · have hmeshes : (e.retold tmp.capability (some tmp.ies)).mesh = tmp.toBss.mesh :=
        Bss.mesh_congr rfl rfl
      rw [cmpBss_eq_name hchan (some_ne_none _) hies (hmeshes ▸ hmesh), compare_eq_iff_eq] at hcmp
      cases hm : tmp.toBss.mesh with
      | some m => exact (Bss.name_of_mesh hm (hmeshes.trans hm)).trans hcmp
      | none =>
        have hme : e.mesh = none := by
          rw [← isNone_iff_eq_none, ← not_isSome, ← hmesh, hmeshes, hm]
          rfl
        rw [Bss.name, Bss.name, hm, hme] at hcmp
        rw [Bss.name, Bss.name, hmeshes, hm, hme]
        have hssid := congrArg (fun r => (ofLex r).2) hcmp
        exact congrArg (fun r => toLex ((Bytes.beNat e.bssid.toList : ℤ), r)) hssid
    · cases hm : e.mesh with
      | some m =>
        have hsome : e.mesh.isSome = true := by rw [hm]; rfl
        have heq : (e.retold tmp.capability e.ies).mesh = e.mesh :=
          Bss.mesh_of_capability rfl hsome (hmesh.trans hsome)
        exact Bss.name_of_mesh hm (heq.trans hm)
      | none =>
        have hnone : (e.retold tmp.capability e.ies).mesh = none := by
          rw [← isNone_iff_eq_none, ← not_isSome, hmesh, hm]
          rfl
        rw [Bss.name, Bss.name, hnone, hm]
        rfl
  refine ⟨rfl, hmesh, ?_, fun _ => ?_⟩
  · rw [Bss.rank, Bss.rank, hname]
    rfl
  · rcases hafter with rfl | rfl
    · exact some_ne_none _
    · exact hies

theorem TreeInv.keeps_out {out' : List ℕ} (h : TreeInv s out) (hkeeps : s.Keeps s') (hout : out ⊆ out')
    (hplace : ∀ b ∈ s.bssList, b ∉ out' → (s.bss b).SamePlace (s'.bss b)) : TreeInv s' out' := by
  refine ⟨hkeeps.list ▸ h.nodup, fun b hb => ?_, fun b hb => ?_, ?_, ?_, ?_⟩
  · rw [hkeeps.list] at hb
    rw [hkeeps.fresh]
    exact h.fresh b hb
  · rw [hkeeps.list] at hb
    rw [(hkeeps.entry b).2, hkeeps.fresh]
    exact h.ring b hb
  · rw [hkeeps.entries, hkeeps.list, h.entries]
  · rw [hkeeps.tree, hkeeps.list]
    exact h.tree
  · rw [hkeeps.tree]
    have hsub : (s.bssTree.toList.filter (· ∉ out')).Sublist (s.bssTree.toList.filter (· ∉ out)) := by
      refine monotone_filter_right _ fun b hb => ?_
      rw [decide_eq_true_eq] at hb ⊢
      exact fun hmem => hb (hout hmem)
    refine (h.ordered.sublist hsub).congr fun b hb => ?_
    obtain ⟨hb, hnot⟩ := mem_filter.mp hb
    exact hplace b (h.tree.mem_iff.mp hb) (of_decide_eq_true hnot)

theorem TreeInv.keeps (h : TreeInv s []) (hkeeps : s.Keeps s')
    (hplace : ∀ b ∈ s.bssList, (s.bss b).SamePlace (s'.bss b)) : TreeInv s' [] :=
  h.keeps_out hkeeps (List.Subset.refl _) fun b hb _ => hplace b hb

/-- What an update must find: channels of one frequency are the same; on the channel of a new entry
all are mesh BSSes, as it is, or none is; a known entry stays what it is. -/
structure TellOk (s : Rdev) (tmp : InformBss) (alloc : Bool) : Prop where
  new : rbFindBss s tmp.toBss .regular = none → alloc = true →
    ∀ b ∈ s.bssList, tmp.toBss.Agrees (s.bss b)
  known : ∀ known, rbFindBss s tmp.toBss .regular = some known → ¬ Dropped s known tmp →
    (tmp.channel.centerFreq = (s.bss known).channel.centerFreq → tmp.channel = (s.bss known).channel) ∧
      ((s.bss known).retold tmp.capability (iesAfter s known tmp)).mesh.isSome =
        (s.bss known).mesh.isSome

/-- **A known entry is told of.** -/
theorem TreeInv.updateKnown {known : ℕ} (h : TreeInv s [])
    (hfind : rbFindBss s tmp.toBss .regular = some known) (hok : ¬ Dropped s known tmp →
      (tmp.channel.centerFreq = (s.bss known).channel.centerFreq → tmp.channel = (s.bss known).channel) ∧
        ((s.bss known).retold tmp.capability (iesAfter s known tmp)).mesh.isSome =
          (s.bss known).mesh.isSome) :
    TreeInv (updateKnownBss s known tmp).1 [] := by
  refine h.keeps (keeps_updateKnownBss s known tmp) fun b hb => ?_
  by_cases hbk : b = known
  · subst hbk
    by_cases hdropped : Dropped s b tmp
    · have hcond : ((s.bss b).hiddenBeaconBss.isSome && !s.hiddenListEmpty b) = true := by
        rw [Bool.and_eq_true, isSome_iff_ne_none, Bool.not_eq_true']
        exact hdropped.2
      rw [updateKnownBss, if_neg (Bool.eq_false_iff.mp hdropped.1), if_pos hcond]
      exact .of_fields rfl rfl rfl rfl
    · obtain ⟨bi, pi, heq⟩ := updateKnownBss_self s b tmp hdropped
      obtain ⟨hchannel, hmesh⟩ := hok hdropped
      have hafter : iesAfter s b tmp = some tmp.ies ∨ iesAfter s b tmp = (s.bss b).ies := by
        rw [iesAfter]
        split
        · exact .inl rfl
        · exact .inr rfl
      have hplace := samePlace_retold (h.ordered_all.shown b (h.tree.mem_iff.mpr hb))
        (cmp_of_find hfind) hchannel hafter hmesh
      rw [heq]
      exact ⟨hplace.channel, hplace.mesh, hplace.rank, hplace.shown⟩
  · obtain ⟨bi, heq⟩ := updateKnownBss_of_ne s tmp hbk
    rw [heq]
    exact .of_fields rfl rfl rfl rfl

/-! ### New entries -/

/-- **A new entry is made.** -/
theorem TreeInv.newBss (tmp : InformBss) (h : TreeInv s []) : TreeInv (Mac80211.newBss s tmp) [] := by
  have hlisted : s.fresh ∉ s.bssList := fun hmem => lt_irrefl _ (h.fresh _ hmem)
  have htree : ∀ b ∈ s.bssTree.toList, b ∈ s.bssList := fun b hb => h.tree.mem_iff.mp hb
  have hnew := isNew_newBss tmp h.nodup hlisted htree
  generalize Mac80211.newBss s tmp = s₁ at hnew
  have hfields : s₁.bssList = s.bssList ∧ s₁.bssTree = s.bssTree ∧ s₁.bssEntries = s.bssEntries ∧
      s₁.fresh = s.fresh + 1 := by
    rw [hnew.eq]
    exact ⟨rfl, rfl, rfl, rfl⟩
  obtain ⟨hlist, htree', hentries, hfresh⟩ := hfields
  refine ⟨hlist ▸ h.nodup, fun b hb => ?_, fun b hb => ?_, ?_, ?_, ?_⟩
  · rw [hlist] at hb
    rw [hfresh]
    exact (h.fresh b hb).trans (Nat.lt_succ_self _)
  · rw [hlist] at hb
    have hbn : b ≠ s.fresh := fun heq => hlisted (heq ▸ hb)
    rw [hfresh, Nat.lt_succ_iff]
    rcases hnew.old_ring hbn with ⟨-, hring⟩ | ⟨-, -, hring⟩
    · rw [hring]
      exact (h.ring b hb).le
    · exact hring.le
  · rw [hentries, hlist, h.entries]
  · rw [htree', hlist]
    exact h.tree
  · rw [htree']
    refine h.ordered.congr fun b hb => ?_
    have hbn : b ≠ s.fresh := fun heq => hlisted (htree _ (heq ▸ mem_of_mem_filter hb))
    obtain ⟨c, heq | ⟨-, heq⟩⟩ := hnew.old b hbn
    · rw [heq]
      exact .of_fields rfl rfl rfl rfl
    · rw [heq]
      exact .of_fields rfl rfl rfl rfl

/-- **An entry is put on the list and in the tree.** -/
theorem TreeInv.link (h : TreeInv s []) (lib : RbLib) (tmp : InformBss)
    (htrans : (s.bss n).transmittedBss = none) (hn : n ∉ s.bssList) (hfresh : n < s.fresh)
    (hring : (s.bss n).ring < s.fresh) (hies : (s.bss n).ies ≠ none)
    (hagrees : ∀ b ∈ s.bssList, (s.bss n).Agrees (s.bss b))
    (hne : ∀ b ∈ s.bssList, (s.bss b).rank ≠ (s.bss n).rank) : TreeInv (linkBss lib s tmp n) [] := by
  obtain ⟨hordered, hperm⟩ := h.ordered_all.insert lib hies
    (fun b hb => hagrees b (h.tree.mem_iff.mp hb)) fun b hb => hne b (h.tree.mem_iff.mp hb)
  obtain ⟨c, hc⟩ := linkBss_eq lib tmp htrans
  rw [hc]
  refine ⟨?_, fun b hb => ?_, fun b hb => ?_, ?_, ?_, ?_⟩
  · refine nodup_append.mpr ⟨h.nodup, nodup_singleton n, ?_⟩
    rintro x hx y hy rfl
    exact hn (mem_singleton.mp hy ▸ hx)
  · rcases mem_append.mp hb with hb | hb
    · exact h.fresh b hb
    · rw [mem_singleton.mp hb]
      exact hfresh
  · rcases mem_append.mp hb with hb | hb
    · exact h.ring b hb
    · rw [mem_singleton.mp hb]
      exact hring
  · show s.bssEntries + 1 = ((s.bssList ++ [n]).length : ℤ)
    rw [h.entries, length_append, length_singleton, Nat.cast_add, Nat.cast_one]
  · refine hperm.trans ?_
    show List.Perm _ (s.bssList ++ [n])
    exact (h.tree.cons n).trans (perm_append_singleton n s.bssList).symm
  · refine (hordered.sublist filter_sublist).congr fun b _ => ?_
    exact .of_fields rfl rfl rfl rfl

/-- What is new is told, and the others stay where they are. -/
structure MakesPlace (s : Rdev) (tmp : InformBss) (s₂ : Rdev) : Prop where
  inv : TreeInv s₂ []
  sub : ∀ b ∈ s₂.bssList, b ∈ s.bssList
  fresh : s.fresh < s₂.fresh
  ring : (s₂.bss s.fresh).ring < s₂.fresh
  old : ∀ b ∈ s.bssList, (s.bss b).SamePlace (s₂.bss b)
  new : tmp.toBss.SamePlace (s₂.bss s.fresh) ∧ (s₂.bss s.fresh).transmittedBss = none

theorem makesPlace_of_makesRoom {lib : RbLib} {limit : ℤ} {s₂ : Rdev} (h : TreeInv s [])
    (hroom : MakesRoom lib limit (newBss s tmp) s₂) : MakesPlace s tmp s₂ := by
  have hinv := h.newBss tmp
  have hlisted : s.fresh ∉ s.bssList := fun hmem => lt_irrefl _ (h.fresh _ hmem)
  have hnew := isNew_newBss tmp h.nodup hlisted fun b hb => h.tree.mem_iff.mp hb
  have hentry := hroom.entry
  have hlist : (newBss s tmp).bssList = s.bssList := by rw [hnew.eq]
  have hfresh : s.fresh < (newBss s tmp).fresh := by
    rw [hnew.eq]
    exact Nat.lt_succ_self _
  have hring : ((newBss s tmp).bss s.fresh).ring < (newBss s tmp).fresh := by
    rcases hnew.new_ring with ⟨-, hring⟩ | ⟨g, hjoin, -, -, hring⟩
    · rw [hring]
      exact hfresh
    · rw [hring]
      exact (h.ring g (h.tree.mem_iff.mp (mem_of_hiddenBeaconFor hjoin.2))).trans hfresh
  have hplaces : (∀ b ∈ s.bssList, (s.bss b).SamePlace (s₂.bss b)) ∧
      tmp.toBss.SamePlace (s₂.bss s.fresh) ∧ (s₂.bss s.fresh).transmittedBss = none := by
    refine ⟨fun b hb => ?_, ?_⟩
    · obtain ⟨k, r, heq⟩ := hentry b
      have hbn : b ≠ s.fresh := fun heq => hlisted (heq ▸ hb)
      rw [heq]
      obtain ⟨c, heq' | ⟨-, heq'⟩⟩ := hnew.old b hbn
      · rw [heq']
        exact .of_fields rfl rfl rfl rfl
      · rw [heq']
        exact .of_fields rfl rfl rfl rfl
    · obtain ⟨k, r, heq⟩ := hentry s.fresh
      rw [heq]
      obtain ⟨c, ⟨heq', -⟩ | ⟨p, -, -, heq'⟩⟩ := hnew.new
      · rw [heq']
        exact ⟨.of_fields rfl rfl rfl rfl, rfl⟩
      · rw [heq']
        exact ⟨.of_fields rfl rfl rfl rfl, rfl⟩
  rcases hroom with ⟨-, rfl⟩ | ⟨-, b, hb, hnot, rfl⟩
  · exact ⟨hinv, fun b hb => hlist ▸ hb, hfresh, hring, hplaces.1, hplaces.2⟩
  · obtain ⟨-, -, -, -, hle, hkept⟩ := unlinks_unlinked lib (newBss s tmp) b
    rcases unlinkBss_cases lib (newBss s tmp) b with ⟨hrefuses, -⟩ | ⟨-, -, hrec⟩
    · exact absurd hrefuses hnot
    obtain ⟨c, freed, heq⟩ := hrec.eq
    refine ⟨hinv.unlink lib (mem_of_oldestBss hb), fun x hx => ?_, ?_, ?_, hplaces.1, hplaces.2⟩
    · rw [← hlist]
      exact ((mem_bssList_unlinkBss hinv.nodup).mp hx).1
    · rw [heq]
      exact hfresh.trans_le hle
    · rw [heq]
      exact hkept s.fresh hring

/-- **An update.** -/
theorem TreeInv.update {lib : RbLib} {limit : ℤ} {alloc : Bool} (h : TreeInv s [])
    (hok : TellOk s tmp alloc) : TreeInv (bssUpdate lib limit s tmp alloc).1 [] := by
  rcases bssUpdate_cases lib limit s tmp alloc with
    ⟨found, hfound, ⟨-, heq⟩ | ⟨-, heq⟩⟩ | ⟨hnone, ⟨-, heq⟩ | ⟨halloc, hnew⟩⟩
  · rw [heq]
    exact (h.updateKnown hfound (hok.known found hfound)).touches (touches_bssRefGet _ found)
  · rw [heq]
    exact h.updateKnown hfound (hok.known found hfound)
  · rw [heq]
    exact h.keeps (keeps_kfree s _) fun b _ => .of_fields rfl rfl rfl rfl
  rcases hnew with ⟨s₂, hmakes, heq⟩ | ⟨-, -, heq⟩
  · rw [heq]
    have hplace := makesPlace_of_makesRoom h hmakes
    have hies : tmp.toBss.ies ≠ none := some_ne_none tmp.ies
    have hnot : s.fresh ∉ s.bssList := fun hmem => lt_irrefl _ (h.fresh _ hmem)
    have hagrees := hok.new hnone halloc
    have hne := h.ordered_all.rank_ne hies (fun b hb => hagrees b (h.tree.mem_iff.mp hb)) hnone
    refine hplace.inv.link lib tmp hplace.new.2 (fun hmem => hnot (hplace.sub _ hmem)) hplace.fresh
      hplace.ring (hplace.new.1.shown hies) (fun b hb => ?_) fun b hb => ?_
    · exact (hagrees b (hplace.sub b hb)).congr hplace.new.1 (hplace.old b (hplace.sub b hb))
    · rw [(hplace.old b (hplace.sub b hb)).rank, hplace.new.1.rank]
      exact hne b (h.tree.mem_iff.mpr (hplace.sub b hb))
  · rw [heq]
    have hinv := h.newBss tmp
    exact ⟨hinv.nodup, hinv.fresh, hinv.ring, hinv.entries, hinv.tree,
      hinv.ordered.congr fun _ _ => .of_fields rfl rfl rfl rfl⟩

end Mac80211
