import Mac80211.Scan.Groups

/-!
# The lists of BSSes that another one transmits for

Each entry that nobody transmits for should have, as its `nontrans_list`, a proper cycle through
exactly the entries on `bss_list` that point to it. Entries are found by the order of the tree, and
looked for on the list by BSSID and SSID, and the two do not agree. Unlinking a head leaves a cycle
of the others.

## Main definitions

* `NontransOk`, `MbssInv`
-/

namespace Mac80211

open Machine References ListHead List

variable {s s' : Rdev} {on on' gone gone' : ℕ → Prop} {b t n : ℕ}

/-- `transmitted_bss`. -/
abbrev Rdev.transmitter (s : Rdev) (b : ℕ) : Option ℕ := (s.bss b).transmittedBss

/-! ### What should hold -/

/-- **What should hold in every state.** An entry is on the list of its `transmitted_bss` and no
other; that one is on no list. -/
structure NontransOk (s : Rdev) : Prop where
  ring : ∀ t ∈ s.live, s.transmitter t = none →
    ∃ ms, s.nontrans.Ring t ms ∧ ∀ b, b ∈ ms ↔ b ∈ s.bssList ∧ s.transmitter b = some t
  head : ∀ b ∈ s.bssList, ∀ t, s.transmitter b = some t → s.transmitter t = none

/-- The lists are cycles through the entries for which `on` holds. Those of the heads that are `gone` have
no head any more. -/
def Rdev.Lists (s : Rdev) (on gone : ℕ → Prop) : Prop :=
  ∀ t ∈ s.live, s.transmitter t = none →
    ∃ ms : List ℕ, (∀ b, b ∈ ms ↔ on b ∧ s.transmitter b = some t) ∧
      (¬ gone t → s.nontrans.Cyc (t :: ms)) ∧ (gone t → s.nontrans.Cyc [t] ∧ s.nontrans.Cyc ms)

/-! ### Lists -/

theorem Rdev.Lists.congr (h : s.Lists on gone)
    (hhead : ∀ t ∈ s'.live, s'.transmitter t = none → t ∈ s.live ∧ s.transmitter t = none)
    (hmember : ∀ b t, t ∈ s'.live →
      (on' b ∧ s'.transmitter b = some t ↔ on b ∧ s.transmitter b = some t))
    (hheads : s'.nontrans = s.nontrans) : s'.Lists on' gone := by
  intro t ht hnone
  obtain ⟨hlive, htrans⟩ := hhead t ht hnone
  obtain ⟨ms, hms, hcyc⟩ := h t hlive htrans
  refine ⟨ms, fun b => (hms b).trans (hmember b t ht).symm, ?_⟩
  rw [hheads]
  exact hcyc

theorem Rdev.Lists.absorb (h : s.Lists on gone)
    (hgone : ∀ t, gone t → ∀ b, on b → s.transmitter b ≠ some t) : s.Lists on fun _ => False := by
  intro t ht hnone
  obtain ⟨ms, hms, hin, hout⟩ := h t ht hnone
  refine ⟨ms, hms, fun _ => ?_, False.elim⟩
  by_cases hg : gone t
  · have hnil : ms = [] := by
      refine eq_nil_iff_forall_not_mem.mpr fun b hb => ?_
      exact hgone t hg b ((hms b).mp hb).1 ((hms b).mp hb).2
    rw [hnil]
    exact (hout hg).1
  · exact hin hg

theorem Rdev.Lists.ring (h : s.Lists on fun _ => False) (ht : t ∈ s.live)
    (hnone : s.transmitter t = none) :
    ∃ ms, s.nontrans.Ring t ms ∧ ∀ b, b ∈ ms ↔ on b ∧ s.transmitter b = some t := by
  obtain ⟨ms, hms, hin, -⟩ := h t ht hnone
  obtain ⟨ms', hperm, hring⟩ := (hin id).ring_of_mem mem_cons_self
  refine ⟨ms', hring, fun b => ?_⟩
  rw [← hms b, ((perm_cons t).mp hperm).mem_iff]

/-- The entry is a head, or on its list. -/
def Rdev.Belongs (s : Rdev) (on : ℕ → Prop) (t x : ℕ) : Prop := x = t ∨ on x ∧ s.transmitter x = some t

theorem belongs_of_mem {ms : List ℕ} (hms : ∀ b, b ∈ ms ↔ on b ∧ s.transmitter b = some t) {x : ℕ}
    (hx : x ∈ t :: ms) : s.Belongs on t x :=
  (mem_cons.mp hx).imp_right (hms x).mp

theorem Rdev.Belongs.unique {u x : ℕ} (ht : s.Belongs on t x) (hu : s.Belongs on u x)
    (hnone : s.transmitter t = none) (hnoneu : s.transmitter u = none) : t = u := by
  rcases ht with rfl | ⟨-, ht⟩
  · rcases hu with rfl | ⟨-, hu⟩
    · rfl
    · rw [hnone] at hu
      cases hu
  · rcases hu with rfl | ⟨-, hu⟩
    · rw [hnoneu] at ht
      cases ht
    · exact Option.some.inj (ht.symm.trans hu)

/-- **An entry is taken out of its cycle.** -/
theorem Rdev.Lists.delInit (h : s.Lists on gone) (ht : t ∈ s.live) (hnone : s.transmitter t = none)
    (hb : s.Belongs on t b) (hlive : s'.live ⊆ s.live)
    (htrans : ∀ x, s'.transmitter x = s.transmitter x)
    (hheads : s'.nontrans = s.nontrans.delInit b) :
    s'.Lists (fun x => on x ∧ x ≠ b) fun x => gone x ∨ x = b := by
  obtain ⟨ms, hms, hin, hout⟩ := h t ht hnone
  have htms : t ∉ ms := by
    intro hmem
    rw [((hms t).mp hmem).2] at hnone
    cases hnone
  obtain ⟨cyc, hcyc, hbcyc, hsub⟩ : ∃ cyc, s.nontrans.Cyc cyc ∧ b ∈ cyc ∧ ∀ x ∈ cyc, x ∈ t :: ms := by
    by_cases hg : gone t
    · rcases hb with rfl | hb
      · exact ⟨[b], (hout hg).1, mem_cons_self, fun x hx => mem_cons.mpr
          (.inl (mem_singleton.mp hx))⟩
      · exact ⟨ms, (hout hg).2, (hms b).mpr hb, fun x hx => mem_cons_of_mem t hx⟩
    · exact ⟨t :: ms, hin hg, mem_cons.mpr (hb.imp_right (hms b).mpr), fun _ hx => hx⟩
  intro u hu hnoneu
  rw [htrans] at hnoneu
  rw [hheads]
  by_cases hut : u = t
  · subst hut
    have hnodup : ms.Nodup := by
      by_cases hg : gone u
      · exact (hout hg).2.nodup
      · exact (nodup_cons.mp (hin hg).nodup).2
    refine ⟨ms.erase b, fun x => ?_, fun hg => ?_, fun hg => ?_⟩
    · rw [hnodup.mem_erase_iff, hms, htrans]
      tauto
    · rw [not_or] at hg
      have hbms : b ∈ ms := (hms b).mpr (hb.resolve_left (Ne.symm hg.2))
      have hperm : (b :: u :: ms.erase b).Perm (u :: ms) :=
        (List.Perm.swap u b _).trans ((perm_cons_erase hbms).symm.cons u)
      exact ((hin hg.1).perm hperm).delInit
    · rcases hb with rfl | hb
      · rw [erase_of_not_mem htms]
        refine ⟨ring_delInit.cyc, ?_⟩
        by_cases hg' : gone b
        · refine (hout hg').2.delInit_of_disjoint (hout hg').1 mem_cons_self fun x hx hxb => ?_
          exact htms (mem_singleton.mp hxb ▸ hx)
        · exact (hin hg').delInit
      · have hbms := (hms b).mpr hb
        have hg' : gone u := hg.resolve_right fun heq => htms (heq ▸ hbms)
        refine ⟨?_, ((hout hg').2.perm (perm_cons_erase hbms).symm).delInit⟩
        refine (hout hg').1.delInit_of_disjoint (hout hg').2 hbms fun x hx hxms => ?_
        exact htms (mem_singleton.mp hx ▸ hxms)
  · obtain ⟨ms', hms', hin', hout'⟩ := h u (hlive hu) hnoneu
    -- the cycles of another head have nothing in common with it
    have hdisj : ∀ x ∈ u :: ms', x ∉ cyc := fun x hx hxcyc =>
      hut ((belongs_of_mem hms' hx).unique (belongs_of_mem hms (hsub x hxcyc)) hnoneu hnone)
    have hbu : b ∉ u :: ms' := fun hmem => hdisj b hmem hbcyc
    have hub : u ≠ b := fun heq => hbu (heq ▸ mem_cons_self)
    refine ⟨ms', fun x => ?_, fun hg => ?_, fun hg => ?_⟩
    · rw [hms', htrans]
      refine ⟨fun hx => ⟨⟨hx.1, ?_⟩, hx.2⟩, fun hx => ⟨hx.1.1, hx.2⟩⟩
      rintro rfl
      exact hbu (mem_cons_of_mem u ((hms' x).mpr hx))
    · exact (hin' fun hg' => hg (.inl hg')).delInit_of_disjoint hcyc hbcyc hdisj
    · obtain ⟨hone, hrest⟩ := hout' (hg.resolve_right hub)
      refine ⟨hone.delInit_of_disjoint hcyc hbcyc fun x hx => ?_,
        hrest.delInit_of_disjoint hcyc hbcyc fun x hx => hdisj x (mem_cons_of_mem u hx)⟩
      exact hdisj x (mem_singleton.mp hx ▸ mem_cons_self)

/-- **An entry is put on a list.** -/
theorem Rdev.Lists.addTail (h : s.Lists on fun _ => False) (ht : t ∈ s.live)
    (hnone : s.transmitter t = none) (hn : s.transmitter n = some t) (hon : ¬ on n) :
    Rdev.Lists { s with nontrans := s.nontrans.addTail n t } (fun x => on x ∨ x = n)
      fun _ => False := by
  obtain ⟨ms, hring, hms⟩ := h.ring ht hnone
  have hnms : ∀ {u : ℕ} {ms' : List ℕ}, (∀ b, b ∈ ms' ↔ on b ∧ s.transmitter b = some u) →
      s.transmitter u = none → n ∉ u :: ms' := by
    intro u ms' hms' hnoneu hmem
    rcases mem_cons.mp hmem with rfl | hmem
    · rw [hnoneu] at hn
      cases hn
    · exact hon ((hms' n).mp hmem).1
  intro u hu hnoneu
  by_cases hut : u = t
  · subst hut
    refine ⟨ms ++ [n], fun x => ?_, fun _ => (hring.addTail (hnms hms hnone)).cyc, False.elim⟩
    rw [mem_append, mem_singleton, hms]
    refine ⟨fun hx => ?_, fun hx => ?_⟩
    · rcases hx with hx | rfl
      · exact ⟨.inl hx.1, hx.2⟩
      · exact ⟨.inr rfl, hn⟩
    · exact hx.1.imp_left fun hx' => ⟨hx', hx.2⟩
  · obtain ⟨ms', hms', hin', -⟩ := h u hu hnoneu
    refine ⟨ms', fun x => ?_, fun _ => ?_, False.elim⟩
    · rw [hms']
      refine ⟨fun hx => ⟨.inl hx.1, hx.2⟩, fun hx => ⟨hx.1.resolve_right ?_, hx.2⟩⟩
      rintro rfl
      exact hut (Option.some.inj (hx.2.symm.trans hn))
    · refine (hin' id).addTail_of_disjoint hring (hnms hms' hnoneu) fun x hx hxt => ?_
      exact hut ((belongs_of_mem hms' hx).unique (belongs_of_mem hms hxt) hnoneu hnone)

/-! ### The invariant -/

/-- **The invariant.** -/
structure MbssInv (s : Rdev) : Prop where
  inv : PendInv s 0
  groups : s.Groups s.listed
  lists : s.Lists s.listed fun _ => False

variable {pending : ℕ → ℤ}

/-- What transmits for an entry is there, and nothing transmits for it. -/
theorem PendInv.transmitter (h : PendInv s pending) (hb : b ∈ s.live)
    (htrans : s.transmitter b = some t) :
    s.link b = some t ∧ t ∈ s.live ∧ s.transmitter t = none := by
  have hhidden : (s.bss b).hiddenBeaconBss = none :=
    (h.one b hb).resolve_right fun hnone => Option.some_ne_none t (htrans.symm.trans hnone)
  have hlink : s.link b = some t := (link_of_not_hidden hhidden).trans htrans
  obtain ⟨hlive, hroot⟩ := h.counted.target b hb t hlink
  exact ⟨hlink, hlive, (link_eq_none_iff.mp hroot).2⟩

theorem MbssInv.nontransOk (h : MbssInv s) : NontransOk s where
  ring := fun _ ht hnone => h.lists.ring ht hnone
  head := fun _ hb _ htrans => (h.inv.transmitter (TableInv.live_of_listed h.inv hb) htrans).2.2

/-- **An entry is unlinked.** -/
theorem Rdev.Lists.unlink (h : s.Lists on gone) (hinv : PendInv s pending)
    (lib : RbLib) (hb : b ∈ s.live) (hon : on b) (hnot : ¬ s.Refuses b) :
    (unlinkBss lib s b).1.Lists (fun x => on x ∧ x ≠ b) fun x => gone x ∨ x = b := by
  rcases unlinkBss_cases lib s b with ⟨hrefuses, -⟩ | ⟨-, -, hrec⟩
  · exact absurd hrefuses hnot
  have htrans : ∀ x, (unlinkBss lib s b).1.transmitter x = s.transmitter x := by
    intro x
    obtain ⟨c, r, heq⟩ := unlinkBss_entry lib s b x
    rw [Rdev.transmitter, heq]
  have hheads : (unlinkBss lib s b).1.nontrans = s.nontrans.delInit b := by
    obtain ⟨c, freed, heq⟩ := hrec.eq
    rw [heq]
    show (unlinked lib s b).nontrans = _
    rw [unlinked]
    split <;> rfl
  have hlive := unlinkBss_live lib s b
  cases htb : s.transmitter b with
  | none => exact h.delInit hb htb (.inl rfl) hlive htrans hheads
  | some t =>
    obtain ⟨-, ht, hnone⟩ := hinv.transmitter hb htb
    exact h.delInit ht hnone (.inr ⟨hon, htb⟩) hlive htrans hheads

theorem Rdev.Lists.unlinkListed (h : s.Lists s.listed fun _ => False)
    (hinv : PendInv s pending) (lib : RbLib) (hb : b ∈ s.bssList)
    (hnone : s.Refuses b ∨ ∀ m ∈ s.bssList, s.transmitter m ≠ some b) :
    (unlinkBss lib s b).1.Lists (unlinkBss lib s b).1.listed fun _ => False := by
  have hmem : ∀ x, x ∈ (unlinkBss lib s b).1.bssList ↔ x ∈ s.bssList ∧ (x = b → s.Refuses b) :=
    fun x => mem_bssList_unlinkBss hinv.nodup
  by_cases hrefuses : s.Refuses b
  · rcases unlinkBss_cases lib s b with ⟨-, heq⟩ | ⟨hnot, -⟩
    · rw [heq]
      exact h
    · exact absurd hrefuses hnot
  · have hlists := h.unlink hinv lib (TableInv.live_of_listed hinv hb) hb hrefuses
    refine Rdev.Lists.absorb (hlists.congr (fun t ht hnone => ⟨ht, hnone⟩) (fun x t _ => ?_) rfl) ?_
    · refine and_congr_left fun _ => (hmem x).trans (and_congr_right fun _ => ?_)
      exact ⟨fun hx heq => hrefuses (hx heq), fun hx heq => absurd heq hx⟩
    · rintro t (hfalse | rfl) x hx hxt
      · exact hfalse
      · obtain ⟨c, r, heq⟩ := unlinkBss_entry lib s t x
        rw [Rdev.transmitter, heq] at hxt
        exact hnone.resolve_left hrefuses x ((hmem x).mp hx).1 hxt

theorem MbssInv.unlink (h : MbssInv s) (lib : RbLib) (hb : b ∈ s.bssList)
    (hnone : s.Refuses b ∨ ∀ m ∈ s.bssList, s.transmitter m ≠ some b) :
    MbssInv (unlinkBss lib s b).1 :=
  ⟨h.inv.unlink lib hb, h.groups.unlinkListed h.inv lib, h.lists.unlinkListed h.inv lib hb hnone⟩

/-! ### Updates -/

theorem Rdev.Lists.touches (h : s.Lists s.listed fun _ => False) (hs' : s.Touches s') :
    s'.Lists s'.listed fun _ => False := by
  have hlive := hs'.live
  have hlisted := hs'.listed
  obtain ⟨c, hold, freed, refs, heq⟩ := hs'.eq
  have htrans : ∀ x, s'.transmitter x = s.transmitter x := fun x => by
    rw [Rdev.transmitter, heq]
  refine h.congr (fun t ht hnone => ⟨hlive ht, (htrans t).symm.trans hnone⟩) (fun b t _ => ?_) ?_
  · rw [hlisted, htrans]
  · rw [heq]

theorem Rdev.Lists.keeps (h : s.Lists s.listed fun _ => False) (hkeeps : s.Keeps s') :
    s'.Lists s'.listed fun _ => False := by
  have htrans : ∀ x, s'.transmitter x = s.transmitter x := fun x => (hkeeps.entry x).1.2.1
  refine h.congr (fun t ht hnone => ⟨hkeeps.live ▸ ht, (htrans t).symm.trans hnone⟩)
    (fun b t _ => ?_) hkeeps.nontrans
  rw [htrans, Rdev.listed, Rdev.listed, hkeeps.list]

theorem Rdev.Lists.newBss {tmp : InformBss} (h : s.Lists s.listed fun _ => False) (hinv : PendInv s 0) :
    (Mac80211.newBss s tmp).Lists s.listed fun _ => False := by
  obtain ⟨hfresh, hlisted, hnew⟩ := hinv.isNew tmp
  generalize Mac80211.newBss s tmp = s₁ at hnew
  have htrans : ∀ x, x ≠ s.fresh → s₁.transmitter x = s.transmitter x := by
    intro x hx
    obtain ⟨c, heq | ⟨-, heq⟩⟩ := hnew.old x hx <;> rw [Rdev.transmitter, heq]
  have hmember : ∀ x t, x ∈ s.bssList ∧ s₁.transmitter x = some t ↔
      x ∈ s.bssList ∧ s.transmitter x = some t := by
    refine fun x t => and_congr_right fun hx => ?_
    rw [htrans x fun heq => hlisted (heq ▸ hx)]
  intro t ht hnone
  have hheads : s₁.nontrans = s.nontrans.init s.fresh := by rw [hnew.eq]
  rw [hheads]
  by_cases htn : t = s.fresh
  · subst htn
    refine ⟨[], fun x => ⟨fun hx => absurd hx not_mem_nil, fun hx => ?_⟩, fun _ => ring_init.cyc,
      False.elim⟩
    obtain ⟨hx, hxt⟩ := (hmember x _).mp hx
    exact absurd (hinv.transmitter (TableInv.live_of_listed hinv hx) hxt).2.1 hfresh
  · have htlive : t ∈ s.live := by
      rw [hnew.eq] at ht
      exact Finset.mem_of_mem_insert_of_ne ht htn
    obtain ⟨ms, hms, hin, -⟩ := h t htlive ((htrans t htn).symm.trans hnone)
    refine ⟨ms, fun x => (hms x).trans (hmember x t).symm, fun _ => (hin id).init fun hmem => ?_,
      False.elim⟩
    rcases mem_cons.mp hmem with heq | hmem
    · exact htn heq.symm
    · exact hlisted ((hms _).mp hmem).1

/-- The entry that is taken off the list to make room has no list of its own. -/
def EvictOk (limit : ℤ) (s : Rdev) (tmp : InformBss) : Prop :=
  limit ≤ s.bssEntries → ∀ b, oldestBss (newBss s tmp) = some b →
    ∀ m ∈ s.bssList, s.transmitter m ≠ some b

variable {s₂ : Rdev}

/-- **Room is made for the new entry.** -/
theorem MbssInv.makesRoom {lib : RbLib} {limit : ℤ} {tmp : InformBss} (h : MbssInv s)
    (hok : LinkOk limit s tmp) (hevict : EvictOk limit s tmp)
    (hroom : MakesRoom lib limit (newBss s tmp) s₂) : s₂.Lists s₂.listed fun _ => False := by
  obtain ⟨hfresh, hlisted, hnew⟩ := h.inv.isNew tmp
  have hlists : (newBss s tmp).Lists (newBss s tmp).listed fun _ => False := by
    have hlist : (newBss s tmp).listed = s.listed := by rw [hnew.eq]
    rw [hlist]
    exact h.lists.newBss h.inv
  obtain ⟨hinv, -, hlist, hentries⟩ := h.inv.newBss hok
  rcases hroom with ⟨-, rfl⟩ | ⟨hfull, b, hb, -, rfl⟩
  · exact hlists
  · refine hlists.unlinkListed hinv lib (mem_of_oldestBss hb) (.inr fun m hm hmb => ?_)
    rw [hlist] at hm
    refine hevict (hentries ▸ hfull) b hb m hm ?_
    obtain ⟨c, heq | ⟨-, heq⟩⟩ := hnew.old m fun heq => hlisted (heq ▸ hm)
    · rw [Rdev.transmitter, heq] at hmb
      exact hmb
    · rw [Rdev.transmitter, heq] at hmb
      exact hmb

theorem linkBss_lists (lib : RbLib) (tmp : InformBss) (htrans : (s₂.bss n).transmittedBss = none) :
    (∀ x, (linkBss lib s₂ tmp n).transmitter x =
      if x = n then tmp.transmittedBss else s₂.transmitter x) ∧
    (linkBss lib s₂ tmp n).live = s₂.live ∧ (linkBss lib s₂ tmp n).nontrans = s₂.nontrans ∧
    (linkBss lib s₂ tmp n).bssList = s₂.bssList ++ [n] := by
  obtain ⟨c, hc⟩ := linkBss_eq lib tmp htrans
  rw [hc]
  exact ⟨fun _ => rfl, rfl, rfl, rfl⟩

theorem Rdev.Lists.linkBss (h : s₂.Lists s₂.listed fun _ => False) (lib : RbLib)
    (tmp : InformBss) (hn : n ∉ s₂.bssList) (htrans : (s₂.bss n).transmittedBss = none) :
    (Mac80211.linkBss lib s₂ tmp n).Lists s₂.listed fun _ => False := by
  obtain ⟨htr, hlive, hheads, -⟩ := linkBss_lists lib tmp htrans
  refine h.congr (fun t ht hnone => ⟨hlive ▸ ht, ?_⟩) (fun x t _ => and_congr_right fun hx => ?_) hheads
  · by_cases htn : t = n
    · rw [htn]
      exact htrans
    · rw [htr, if_neg htn] at hnone
      exact hnone
  · have hxn : x ≠ n := fun heq => hn (heq ▸ hx)
    rw [htr, if_neg hxn]

section Update

variable (lib : RbLib) {limit : ℤ} {tmp : InformBss} {alloc : Bool}

/-- An update does not change the lists. A new entry is on none, whatever transmits for it. -/
theorem MbssInv.update_lists (h : MbssInv s)
    (hok : rbFindBss s tmp.toBss .regular = none → alloc = true → LinkOk limit s tmp)
    (hevict : rbFindBss s tmp.toBss .regular = none → alloc = true → EvictOk limit s tmp) :
    (bssUpdate lib limit s tmp alloc).1.Lists (fun x => x ∈ (bssUpdate lib limit s tmp alloc).1.bssList ∧
      (rbFindBss s tmp.toBss .regular = none → x ≠ s.fresh)) fun _ => False := by
  have hfresh : ∀ x ∈ s.bssList, x ≠ s.fresh := by
    rintro x hx rfl
    exact lt_irrefl _ (h.inv.fresh _ (TableInv.live_of_listed h.inv hx))
  have hsame : ∀ {s' : Rdev}, s'.Lists s'.listed (fun _ => False) →
      (∀ x, x ∈ s'.bssList → rbFindBss s tmp.toBss .regular = none → x ≠ s.fresh) →
      s'.Lists (fun x => x ∈ s'.bssList ∧ (rbFindBss s tmp.toBss .regular = none → x ≠ s.fresh))
        fun _ => False := fun hlists hne =>
    hlists.congr (fun t ht hnone => ⟨ht, hnone⟩) (fun x t _ => and_congr_left fun _ =>
      ⟨And.left, fun hx => ⟨hx, hne x hx⟩⟩) rfl
  rcases bssUpdate_cases lib limit s tmp alloc with
    ⟨found, hfind, ⟨-, heq⟩ | ⟨-, heq⟩⟩ | ⟨hfind, ⟨-, heq⟩ | ⟨halloc, ⟨s₂, hroom, heq⟩ | ⟨-, -, heq⟩⟩⟩
  · rw [heq]
    refine hsame ((h.lists.keeps (keeps_updateKnownBss s found tmp)).touches (touches_bssRefGet _ found))
      fun x _ hnone => ?_
    rw [hfind] at hnone
    cases hnone
  · rw [heq]
    refine hsame (h.lists.keeps (keeps_updateKnownBss s found tmp)) fun x _ hnone => ?_
    rw [hfind] at hnone
    cases hnone
  · rw [heq]
    exact hsame (h.lists.keeps (keeps_kfree s (some tmp.ies))) fun x hx _ => hfresh x hx
  · rw [heq]
    have hmaking := making_of_makesRoom h.groups h.inv (hok hfind halloc) hroom
    have hlists := h.makesRoom (hok hfind halloc) (hevict hfind halloc) hroom
    refine (hlists.linkBss lib tmp hmaking.notMem hmaking.transmitted).congr
      (fun t ht hnone => ⟨ht, hnone⟩) (fun x t _ => and_congr_left fun _ => ?_) rfl
    show x ∈ (Mac80211.linkBss lib s₂ tmp s.fresh).bssList ∧ _ ↔ x ∈ s₂.bssList
    rw [(linkBss_lists lib tmp hmaking.transmitted).2.2.2, mem_append, mem_singleton]
    refine ⟨fun hx => hx.1.resolve_right (hx.2 hfind), fun hx => ⟨.inl hx, fun _ => ?_⟩⟩
    exact fun heq => hmaking.notMem (heq ▸ hx)
  · rw [heq]
    have hlist := (h.inv.newBss (hok hfind halloc)).2.2.1
    refine (h.lists.newBss h.inv).congr (fun t ht hnone => ⟨Finset.mem_of_mem_erase ht, hnone⟩)
      (fun x t _ => and_congr_left fun _ => ?_) rfl
    show x ∈ (newBss s tmp).bssList ∧ _ ↔ x ∈ s.bssList
    rw [hlist]
    exact ⟨And.left, fun hx => ⟨hx, fun _ => hfresh x hx⟩⟩

theorem MbssInv.update_groups (h : MbssInv s) (hheld : ∀ p ∈ tmp.transmittedBss, 0 < s.refs p)
    (hok : rbFindBss s tmp.toBss .regular = none → alloc = true → LinkOk limit s tmp) :
    PendInv (Rdev.handOut (bssUpdate lib limit s tmp alloc)) 0 ∧
      (Rdev.handOut (bssUpdate lib limit s tmp alloc)).Groups
        (Rdev.handOut (bssUpdate lib limit s tmp alloc)).listed := by
  have htouch := touches_handOut (bssUpdate lib limit s tmp alloc)
  refine ⟨h.inv.update hheld hok, ?_⟩
  rw [htouch.listed]
  exact (h.groups.update h.inv hok).touches htouch

theorem Rdev.Lists.handOut {r : Rdev × Option ℕ} (h : r.1.Lists on fun _ => False) :
    (Rdev.handOut r).Lists on fun _ => False := by
  have htouch := touches_handOut r
  obtain ⟨c, hold, freed, refs, heq⟩ := htouch.eq
  have htrans : ∀ x, (Rdev.handOut r).transmitter x = r.1.transmitter x := fun x => by
    rw [Rdev.transmitter, heq]
  refine h.congr (fun t ht hnone => ⟨htouch.live ht, (htrans t).symm.trans hnone⟩) (fun b t _ => ?_) ?_
  · rw [htrans]
  · rw [heq]

theorem handOut_bssList (r : Rdev × Option ℕ) : (Rdev.handOut r).bssList = r.1.bssList := by
  rw [Rdev.handOut]
  split <;> rfl

theorem handOut_nontrans (r : Rdev × Option ℕ) : (Rdev.handOut r).nontrans = r.1.nontrans := by
  rw [Rdev.handOut]
  split <;> rfl

theorem handOut_bss (r : Rdev × Option ℕ) : (Rdev.handOut r).bss = r.1.bss := by
  rw [Rdev.handOut]
  split <;> rfl

theorem handOut_transmitter (r : Rdev × Option ℕ) (x : ℕ) :
    (Rdev.handOut r).transmitter x = r.1.transmitter x := by
  rw [Rdev.handOut]
  split <;> rfl

/-- What is known of a new entry, and of the others. -/
structure Added (limit : ℤ) (s : Rdev) (tmp : InformBss) (s' : Rdev) : Prop where
  mem : s.fresh ∈ s'.bssList
  transmitter : s'.transmitter s.fresh = tmp.transmittedBss
  ring : s'.nontrans.Ring s.fresh []
  new : (s'.bss s.fresh).ies = some tmp.ies ∧ (s'.bss s.fresh).bssid = tmp.bssid
  old : ∀ x ∈ s'.bssList, x ≠ s.fresh → x ∈ s.bssList ∧
    (s'.bss x).ies = (s.bss x).ies ∧ (s'.bss x).bssid = (s.bss x).bssid ∧
      s'.transmitter x = s.transmitter x ∧
        ¬ (limit ≤ s.bssEntries ∧ oldestBss (newBss s tmp) = some x)

theorem MbssInv.added (h : MbssInv s)
    (hok : rbFindBss s tmp.toBss .regular = none → alloc = true → LinkOk limit s tmp)
    (hevict : rbFindBss s tmp.toBss .regular = none → alloc = true → EvictOk limit s tmp)
    (hfind : rbFindBss s tmp.toBss .regular = none) :
    (bssUpdate lib limit s tmp alloc).2 = some s.fresh ∧
        Added limit s tmp (bssUpdate lib limit s tmp alloc).1 ∨
      (bssUpdate lib limit s tmp alloc).2 = none ∧
        s.fresh ∉ (bssUpdate lib limit s tmp alloc).1.bssList := by
  obtain ⟨hfresh, hlisted, hnew⟩ := h.inv.isNew tmp
  have hlist : (newBss s tmp).bssList = s.bssList := by rw [hnew.eq]
  have hentries : (newBss s tmp).bssEntries = s.bssEntries := by rw [hnew.eq]
  rcases bssUpdate_cases lib limit s tmp alloc with
    ⟨found, hsome, -⟩ | ⟨-, ⟨-, heq⟩ | ⟨halloc, ⟨s₂, hroom, heq⟩ | ⟨-, -, heq⟩⟩⟩
  · rw [hfind] at hsome
    cases hsome
  · rw [heq]
    exact .inr ⟨rfl, hlisted⟩
  · rw [heq]
    refine .inl ⟨rfl, ?_⟩
    have hmaking := making_of_makesRoom h.groups h.inv (hok hfind halloc) hroom
    have hlists := h.makesRoom (hok hfind halloc) (hevict hfind halloc) hroom
    obtain ⟨htr, -, hheads, hlist'⟩ := linkBss_lists lib tmp hmaking.transmitted
    obtain ⟨c, hlink⟩ := linkBss_eq lib tmp hmaking.transmitted
    have hold : ∀ x, x ≠ s.fresh → (s₂.bss x).ies = (s.bss x).ies ∧
        (s₂.bss x).bssid = (s.bss x).bssid ∧ s₂.transmitter x = s.transmitter x := by
      intro x hx
      obtain ⟨c₂, r, heq₂⟩ := hroom.entry x
      obtain ⟨c₁, heq₁ | ⟨-, heq₁⟩⟩ := hnew.old x hx
      · rw [Rdev.transmitter, heq₂, heq₁]
        exact ⟨rfl, rfl, rfl⟩
      · rw [Rdev.transmitter, heq₂, heq₁]
        exact ⟨rfl, rfl, rfl⟩
    have hmem : ∀ x ∈ s₂.bssList, x ∈ s.bssList ∧
        ¬ (limit ≤ s.bssEntries ∧ oldestBss (newBss s tmp) = some x) := by
      intro x hx
      rcases hroom with ⟨hlt, rfl⟩ | ⟨-, b, hb, hnot, rfl⟩
      · refine ⟨hlist ▸ hx, fun hfull => ?_⟩
        have hle := hfull.1
        omega
      · have hinv₁ := (h.inv.newBss (hok hfind halloc)).1
        obtain ⟨hx, hrefuses⟩ := (mem_bssList_unlinkBss hinv₁.nodup).mp hx
        refine ⟨hlist ▸ hx, fun hfull => hnot (hrefuses ?_)⟩
        exact Option.some.inj (hfull.2.symm.trans hb)
    refine ⟨?_, ?_, ?_, ?_, ?_⟩
    · rw [hlist']
      exact mem_append_right _ mem_cons_self
    · rw [htr, if_pos rfl]
    · have hlive : s.fresh ∈ s₂.live := by
        refine hmaking.inv.live s.fresh ?_
        have hnonneg := own_nonneg s₂ s.fresh
        rw [pendingNew, if_pos rfl]
        omega
      obtain ⟨ms, hring, hms⟩ := hlists.ring hlive hmaking.transmitted
      have hnil : ms = [] := by
        refine eq_nil_iff_forall_not_mem.mpr fun x hx => ?_
        obtain ⟨hx, hxn⟩ := (hms x).mp hx
        have hxs := (hmem x hx).1
        rw [(hold x fun heq => hlisted (heq ▸ hxs)).2.2] at hxn
        exact hfresh (h.inv.transmitter (TableInv.live_of_listed h.inv hxs) hxn).2.1
      rw [hheads, ← hnil]
      exact hring
    · rw [hlink]
      show (s₂.bss s.fresh).ies = _ ∧ (s₂.bss s.fresh).bssid = _
      obtain ⟨c₂, r, heq₂⟩ := hroom.entry s.fresh
      obtain ⟨c₁, ⟨heq₁, -⟩ | ⟨p, -, -, heq₁⟩⟩ := hnew.new
      · rw [heq₂, heq₁]
        exact ⟨rfl, rfl⟩
      · rw [heq₂, heq₁]
        exact ⟨rfl, rfl⟩
    · intro x hx hxn
      rw [hlist', mem_append, mem_singleton] at hx
      obtain ⟨hxs, hnot⟩ := hmem x (hx.resolve_right hxn)
      obtain ⟨hies, hbssid, htrans⟩ := hold x hxn
      refine ⟨hxs, ?_, ?_, ?_, hnot⟩
      · rw [hlink]
        exact hies
      · rw [hlink]
        exact hbssid
      · rw [htr, if_neg hxn]
        exact htrans
  · rw [heq]
    refine .inr ⟨rfl, ?_⟩
    rw [← hlist] at hlisted
    exact hlisted

/-- **What is told of a BSS that nobody transmits for.** -/
theorem MbssInv.update (h : MbssInv s) (hnone : tmp.transmittedBss = none)
    (hok : rbFindBss s tmp.toBss .regular = none → alloc = true → LinkOk limit s tmp)
    (hevict : rbFindBss s tmp.toBss .regular = none → alloc = true → EvictOk limit s tmp) :
    MbssInv (Rdev.handOut (bssUpdate lib limit s tmp alloc)) := by
  obtain ⟨hinv, hgroups⟩ := h.update_groups lib (by simp [hnone]) hok
  refine ⟨hinv, hgroups, (h.update_lists lib hok hevict).handOut.congr (fun t ht hnone => ⟨ht, hnone⟩)
    (fun x t _ => and_congr_left fun hx => ?_) rfl⟩
  show x ∈ (Rdev.handOut (bssUpdate lib limit s tmp alloc)).bssList ↔ _
  rw [handOut_bssList]
  refine ⟨fun hmem => ⟨hmem, ?_⟩, And.left⟩
  rintro hfind rfl
  rcases h.added lib hok hevict hfind with ⟨-, hadded⟩ | ⟨-, hnot⟩
  · rw [handOut_transmitter, hadded.transmitter, hnone] at hx
    cases hx
  · exact hnot hmem

end Update

end Mac80211
