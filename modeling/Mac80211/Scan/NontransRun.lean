import Mac80211.Scan.NontransLists

/-!
# The lists of BSSes that another one transmits for, in every state

Room that is made for a new entry, expiry, and `cfg80211_unlink_bss` take entries off the list with
others; only the last one looks at the list of the entry.

## Main definitions

* `MbssCond`

## Main results

* `nontransOk_of_reach`
-/

namespace Mac80211

open Machine References ListHead List Option

variable {s s' : Rdev} {gone : ℕ → Prop} {b t n : ℕ}

/-! ### Profiles -/

/-- The SSID that a known entry has after an update. -/
def ssidAfter (s : Rdev) (known : ℕ) (tmp : InformBss) : Option (List UInt8) :=
  (iesAfter s known tmp).bind fun ies => findIe WLAN_EID_SSID ies.data

/-- What a profile in a frame of `t` must find. A known entry, or another one with its BSSID and
SSID, is on the list of `t`; without an SSID, it has no list. A new entry has a BSSID and an SSID
that no other one on the list has, unless that one makes room. -/
structure ProfileOk (limit : ℤ) (s : Rdev) (t : ℕ) (tmp : InformBss) (alloc : Bool) : Prop where
  unnamed : ∀ known, rbFindBss s tmp.toBss .regular = some known → ¬ Dropped s known tmp →
    ssidAfter s known tmp = none → s.Refuses known ∨ ∀ m ∈ s.bssList, s.transmitter m ≠ some known
  known : ∀ known ssid, rbFindBss s tmp.toBss .regular = some known → ¬ Dropped s known tmp →
    ssidAfter s known tmp = some ssid → s.transmitter known = some t ∨
      ∃ m ∈ s.bssList, m ≠ known ∧ s.transmitter m = some t ∧
        isBss (s.bss m) (some (s.bss known).bssid) (some ssid) = true
  evict : rbFindBss s tmp.toBss .regular = none → alloc = true → EvictOk limit s tmp
  new : rbFindBss s tmp.toBss .regular = none → alloc = true →
    ∀ ssid, findIe WLAN_EID_SSID tmp.ies.data = some ssid →
      ∀ m ∈ s.bssList, s.transmitter m = some t →
        isBss (s.bss m) (some tmp.bssid) (some ssid) = true →
          limit ≤ s.bssEntries ∧ oldestBss (newBss s tmp) = some m

theorem PendInv.length_lt_fuel {pending : ℕ → ℤ} (h : PendInv s pending) {ms : List ℕ}
    (hnodup : ms.Nodup) (hms : ∀ m ∈ ms, m ∈ s.bssList) : ms.length < s.fuel :=
  length_lt_fuel_of_lt hnodup fun m hm => h.fresh m (TableInv.live_of_listed h (hms m hm))

theorem addNontransList_eq {ms : List ℕ} {ssid : List UInt8} (hring : s.nontrans.Ring t ms)
    (hlt : ms.length < s.fuel) (hssid : (s.bss b).getIe WLAN_EID_SSID = some ssid) :
    addNontransList s t b = some
      (if ms.any (fun m => isBss (s.bss m) (some (s.bss b).bssid) (some ssid)) then s
        else { s with nontrans := s.nontrans.addTail b t }, true) := by
  rw [addNontransList, hssid]
  dsimp only
  rw [hring.find_eq hlt]
  rfl

theorem isBss_self {e : Bss} {ssid : List UInt8} (hssid : e.getIe WLAN_EID_SSID = some ssid) :
    isBss e (some e.bssid) (some ssid) = true := by
  simp [isBss, hssid]

theorem isBss_congr {e e' : Bss} (hbssid : e'.bssid = e.bssid) (hies : e'.ies = e.ies)
    (bssid : Option Mac) (ssid : Option (List UInt8)) : isBss e' bssid ssid = isBss e bssid ssid := by
  rw [isBss, isBss, Bss.getIe, Bss.getIe, hbssid, hies]

theorem PendInv.heads {pending : ℕ → ℤ} (h : PendInv s pending) (heads : Heads ℕ) :
    PendInv { s with nontrans := heads } pending :=
  ⟨h.counted, h.one, h.pos, h.live, h.fresh, h.ring, h.own_ge, h.hold, h.nodup, h.treeNodup, h.tree⟩

theorem Rdev.Lists.delInit_alone (h : s.Lists on fun _ => False) (hring : s.nontrans.Ring n [])
    (hn : s.transmitter n = some t) (hon : ¬ on n) (hlive : s'.live ⊆ s.live)
    (htrans : ∀ x, s'.transmitter x = s.transmitter x)
    (hheads : s'.nontrans = s.nontrans.delInit n) : s'.Lists on fun _ => False := by
  intro u hu hnone
  rw [htrans] at hnone
  obtain ⟨ms, hms, hin, -⟩ := h u (hlive hu) hnone
  refine ⟨ms, fun x => by rw [hms, htrans], fun _ => ?_, False.elim⟩
  rw [hheads]
  refine (hin id).delInit_of_disjoint hring.cyc mem_cons_self fun x hx hxn => ?_
  rw [mem_singleton.mp hxn] at hx
  rcases mem_cons.mp hx with rfl | hx
  · rw [hnone] at hn
    cases hn
  · exact hon ((hms n).mp hx).1

section Profile

variable (lib : RbLib) {limit : ℤ} {tmp : InformBss} {alloc : Bool}

theorem MbssInv.profile_known {known : ℕ} (h : MbssInv s)
    (hfind : rbFindBss s tmp.toBss .regular = some known) (hnot : ¬ Dropped s known tmp)
    (hok : ProfileOk limit s t tmp alloc) (s₁ : Rdev)
    (hs₁ : s₁ = Rdev.handOut (bssRefGet (updateKnownBss s known tmp).1 known, some known))
    (hinv : PendInv s₁ 0) (hgroups : s₁.Groups s₁.listed) :
    ∃ s₂ added, addNontransList s₁ t known = some (s₂, added) ∧
      MbssInv (if added then s₂ else (unlinkBss lib s₂ known).1) := by
  have hkeeps := keeps_updateKnownBss s known tmp
  have hlists : s₁.Lists s₁.listed fun _ => False := by
    rw [hs₁]
    exact ((h.lists.keeps hkeeps).touches (touches_bssRefGet _ known)).touches
      (touches_handOut (bssRefGet (updateKnownBss s known tmp).1 known, some known))
  have hmbss : MbssInv s₁ := ⟨hinv, hgroups, hlists⟩
  obtain ⟨c, hc⟩ := bssRefGet_eq_withCounts (updateKnownBss s known tmp).1 known
  have hbss : ∀ x, ∃ k, s₁.bss x = { (updateKnownBss s known tmp).1.bss x with refcount := k } := by
    intro x
    rw [hs₁, hc]
    exact ⟨c x, rfl⟩
  have hfields : s₁.live = s.live ∧ s₁.bssList = s.bssList := by
    rw [hs₁, hc]
    exact ⟨hkeeps.live, hkeeps.list⟩
  have htrans : ∀ x, s₁.transmitter x = s.transmitter x := by
    intro x
    obtain ⟨k, hk⟩ := hbss x
    rw [Rdev.transmitter, hk]
    exact (hkeeps.entry x).1.2.1
  have hrefuses : s.Refuses known → s₁.Refuses known := by
    rintro ⟨hring, hhidden⟩
    have hring' : ∀ x, (s₁.bss x).ring = (s.bss x).ring := by
      intro x
      obtain ⟨k, hk⟩ := hbss x
      rw [hk]
      exact (hkeeps.entry x).2
    refine ⟨?_, ?_⟩
    · rw [Rdev.hiddenListEmpty] at hring ⊢
      simp only [hfields.1, hring']
      exact hring
    · obtain ⟨k, hk⟩ := hbss known
      rw [hk]
      exact (hkeeps.entry known).1.1.trans hhidden
  have hself : (s₁.bss known).ies = iesAfter s known tmp ∧
      (s₁.bss known).bssid = (s.bss known).bssid := by
    obtain ⟨k, hk⟩ := hbss known
    obtain ⟨bi, pi, heq⟩ := updateKnownBss_self s known tmp hnot
    rw [hk, heq]
    exact ⟨rfl, rfl⟩
  have hlisted : known ∈ s₁.bssList := by
    rw [hfields.2]
    exact TableInv.mem_of_rbFindBss h.inv hfind
  have hssid : (s₁.bss known).getIe WLAN_EID_SSID = ssidAfter s known tmp := by
    rw [Bss.getIe, hself.1, ssidAfter]
  cases hafter : ssidAfter s known tmp with
  | none =>
    rw [hafter] at hssid
    refine ⟨s₁, false, ?_, ?_⟩
    · rw [addNontransList, hssid]
    · refine hmbss.unlink lib hlisted ((hok.unnamed known hfind hnot hafter).imp hrefuses ?_)
      intro hno m hm
      rw [htrans]
      exact hno m (hfields.2 ▸ hm)
  | some ssid =>
    rw [hafter] at hssid
    obtain ⟨m, hm, hmt, hmbss'⟩ : ∃ m ∈ s₁.bssList, s₁.transmitter m = some t ∧
        isBss (s₁.bss m) (some (s₁.bss known).bssid) (some ssid) = true := by
      rcases hok.known known ssid hfind hnot hafter with hkt | ⟨m, hm, hmk, hmt, hmb⟩
      · exact ⟨known, hlisted, (htrans known).trans hkt, isBss_self hssid⟩
      · refine ⟨m, hfields.2 ▸ hm, (htrans m).trans hmt, ?_⟩
        obtain ⟨k, hk⟩ := hbss m
        obtain ⟨bi, heq⟩ := updateKnownBss_of_ne s tmp hmk
        rw [hself.2, ← hmb]
        refine isBss_congr ?_ ?_ _ _
        · rw [hk, heq]
        · rw [hk, heq]
    obtain ⟨-, htlive, htnone⟩ := hinv.transmitter (TableInv.live_of_listed hinv hm) hmt
    obtain ⟨ms, hring, hms⟩ := hlists.ring htlive htnone
    have hlt := hinv.length_lt_fuel (nodup_cons.mp hring.nodup).2 fun x hx => ((hms x).mp hx).1
    have hany : ms.any (fun m => isBss (s₁.bss m) (some (s₁.bss known).bssid) (some ssid)) = true :=
      any_eq_true.mpr ⟨m, (hms m).mpr ⟨hm, hmt⟩, hmbss'⟩
    refine ⟨s₁, true, ?_, hmbss⟩
    rw [addNontransList_eq hring hlt hssid, if_pos hany]

theorem MbssInv.profile_new (hinv : PendInv s' 0) (hgroups : s'.Groups s'.listed)
    (hlists : s'.Lists (fun x => x ∈ s'.bssList ∧ x ≠ n) fun _ => False)
    (hn : n ∈ s'.bssList) (htrans : s'.transmitter n = some t) (hring : s'.nontrans.Ring n [])
    (hnot : ∀ ssid, (s'.bss n).getIe WLAN_EID_SSID = some ssid → ∀ m ∈ s'.bssList, m ≠ n →
      s'.transmitter m = some t → isBss (s'.bss m) (some (s'.bss n).bssid) (some ssid) = false) :
    ∃ s₂ added, addNontransList s' t n = some (s₂, added) ∧
      MbssInv (if added then s₂ else (unlinkBss lib s₂ n).1) := by
  have hlive := TableInv.live_of_listed hinv hn
  obtain ⟨hlink, htlive, htnone⟩ := hinv.transmitter hlive htrans
  have hon : ¬ (n ∈ s'.bssList ∧ n ≠ n) := fun hboth => hboth.2 rfl
  cases hssid : (s'.bss n).getIe WLAN_EID_SSID with
  | none =>
    refine ⟨s', false, ?_, hinv.unlink lib hn, hgroups.unlinkListed hinv lib, ?_⟩
    · rw [addNontransList, hssid]
    have hnotr : ¬ s'.Refuses n := hgroups.not_refuses hinv hlive (by simp [hlink])
    rcases unlinkBss_cases lib s' n with ⟨hrefuses, -⟩ | ⟨-, -, hrec⟩
    · exact absurd hrefuses hnotr
    have htrans' : ∀ x, (unlinkBss lib s' n).1.transmitter x = s'.transmitter x := by
      intro x
      obtain ⟨c, r, heq⟩ := unlinkBss_entry lib s' n x
      rw [Rdev.transmitter, heq]
    have hheads : (unlinkBss lib s' n).1.nontrans = s'.nontrans.delInit n := by
      obtain ⟨c, freed, heq⟩ := hrec.eq
      rw [heq]
      show (unlinked lib s' n).nontrans = _
      rw [unlinked]
      split <;> rfl
    refine (hlists.delInit_alone hring htrans hon (unlinkBss_live lib s' n) htrans' hheads).congr
      (fun u hu hnone => ⟨hu, hnone⟩) (fun x u _ => and_congr_left fun _ => ?_) rfl
    refine (mem_bssList_unlinkBss hinv.nodup).trans (and_congr_right fun _ => ?_)
    exact ⟨fun hx heq => hnotr (hx heq), fun hx heq => absurd heq hx⟩
  | some ssid =>
    obtain ⟨ms, hringt, hms⟩ := hlists.ring htlive htnone
    have hlt := hinv.length_lt_fuel (nodup_cons.mp hringt.nodup).2 fun x hx => ((hms x).mp hx).1.1
    have hany : ¬ ms.any (fun m => isBss (s'.bss m) (some (s'.bss n).bssid) (some ssid)) = true := by
      intro hany
      obtain ⟨m, hm, hmbss⟩ := any_eq_true.mp hany
      obtain ⟨⟨hm, hmn⟩, hmt⟩ := (hms m).mp hm
      rw [hnot ssid hssid m hm hmn hmt] at hmbss
      cases hmbss
    refine ⟨{ s' with nontrans := s'.nontrans.addTail n t }, true, ?_, hinv.heads _,
      hgroups.congr subset_rfl (fun _ => ⟨rfl, rfl⟩) fun _ hm => hm, ?_⟩
    · rw [addNontransList_eq hringt hlt hssid, if_neg hany]
    refine (hlists.addTail htlive htnone htrans hon).congr (fun u hu hnone => ⟨hu, hnone⟩)
      (fun x u _ => and_congr_left fun _ => ?_) rfl
    by_cases hxn : x = n
    · subst hxn
      exact ⟨fun _ => .inr rfl, fun _ => hn⟩
    · exact ⟨fun hx => .inl ⟨hx, hxn⟩, fun hx => (hx.resolve_right hxn).1⟩

/-- **A profile in a frame.** -/
theorem MbssInv.profile (h : MbssInv s) (ht : 0 < s.refs t)
    (hlink : rbFindBss s (tmp.transmittedBy s t).toBss .regular = none → alloc = true →
      LinkOk limit s (tmp.transmittedBy s t))
    (hok : ProfileOk limit s t (tmp.transmittedBy s t) alloc)
    (hstep : informNontrans lib limit s t tmp alloc = some s') : MbssInv s' := by
  have hheld : ∀ p ∈ (tmp.transmittedBy s t).transmittedBss, 0 < s.refs p := by
    rintro p hp
    cases hp
    exact ht
  rw [informNontrans] at hstep
  generalize htmp : tmp.transmittedBy s t = u at *
  have hutrans : u.transmittedBss = some t := by
    rw [← htmp]
    rfl
  obtain ⟨hinv, hgroups⟩ := h.update_groups lib hheld hlink
  have hlists := (h.update_lists lib hlink hok.evict).handOut
  have hlist := handOut_bssList (bssUpdate lib limit s u alloc)
  cases hfind : rbFindBss s u.toBss .regular with
  | none =>
    have hlists' : (Rdev.handOut (bssUpdate lib limit s u alloc)).Lists
        (fun x => x ∈ (Rdev.handOut (bssUpdate lib limit s u alloc)).bssList ∧ x ≠ s.fresh)
        fun _ => False := by
      refine hlists.congr (fun u hu hnone => ⟨hu, hnone⟩) (fun x u _ => and_congr_left fun _ => ?_) rfl
      rw [hlist]
      exact and_congr_right fun _ => ⟨fun hx _ => hx, fun hx => hx hfind⟩
    rcases h.added lib hlink hok.evict hfind with ⟨hres, hadded⟩ | ⟨hres, hnot⟩
    · have halloc : alloc = true := by
        by_contra hno
        rw [bssUpdate, hfind, Bool.eq_false_iff.mpr hno] at hres
        cases hres
      have hnew := MbssInv.profile_new lib (t := t) hinv hgroups hlists' (hlist ▸ hadded.mem)
        (by rw [handOut_transmitter, hadded.transmitter, hutrans])
        (by rw [handOut_nontrans]; exact hadded.ring) ?_
      · obtain ⟨s₂, added, hadd, hmbss⟩ := hnew
        rw [hres] at hstep
        dsimp only at hstep
        rw [hadd] at hstep
        cases hstep
        exact hmbss
      · -- the others on the list are what they were
        intro ssid hssid m hm hmn hmt
        rw [hlist] at hm
        obtain ⟨hms, hies, hbssid, htr, hnot⟩ := hadded.old m hm hmn
        rw [handOut_bss, Bss.getIe, hadded.new.1] at hssid
        rw [handOut_transmitter, htr] at hmt
        rw [handOut_bss, hadded.new.2, isBss_congr hbssid hies, Bool.eq_false_iff]
        exact fun hmb => hnot (hok.new hfind halloc ssid hssid m hms hmt hmb)
    · rw [hres] at hstep
      cases hstep
      refine ⟨hinv, hgroups, hlists'.congr (fun u hu hnone => ⟨hu, hnone⟩)
        (fun x u _ => and_congr_left fun _ => ⟨fun hx => ⟨hx, ?_⟩, And.left⟩) rfl⟩
      rintro rfl
      exact hnot (hlist ▸ hx)
  | some known =>
    have hlists' : (Rdev.handOut (bssUpdate lib limit s u alloc)).Lists
        (Rdev.handOut (bssUpdate lib limit s u alloc)).listed fun _ => False := by
      refine hlists.congr (fun u hu hnone => ⟨hu, hnone⟩) (fun x u _ => and_congr_left fun _ => ?_) rfl
      show x ∈ (Rdev.handOut _).bssList ↔ _
      rw [hlist, hfind]
      exact ⟨fun hx => ⟨hx, fun h => by cases h⟩, And.left⟩
    rcases bssUpdate_cases lib limit s u alloc with ⟨found, hfound, hcases⟩ | ⟨hnone, -⟩
    · obtain rfl : known = found := some.inj (hfind.symm.trans hfound)
      rcases hcases with ⟨hkept, heq⟩ | ⟨-, heq⟩
      · have hnot : ¬ Dropped s known u := by
          rw [← updateKnownBss_snd, hkept]
          exact fun h => by cases h
        rw [heq] at hinv hgroups hstep
        obtain ⟨s₂, added, hadd, hmbss⟩ :=
          h.profile_known lib hfind hnot hok _ rfl hinv hgroups
        dsimp only at hstep
        rw [hadd] at hstep
        cases hstep
        exact hmbss
      · have hmbss : MbssInv (Rdev.handOut (bssUpdate lib limit s u alloc)) := ⟨hinv, hgroups, hlists'⟩
        rw [heq] at hmbss hstep
        cases hstep
        exact hmbss
    · rw [hfind] at hnone
      cases hnone

end Profile

/-! ### Unlinking -/

/-- Some entries have been unlinked. -/
structure Unlinking (s₀ s : Rdev) (gone : ℕ → Prop) : Prop where
  inv : PendInv s 0
  groups : s.Groups s.listed
  lists : s.Lists s.listed gone
  sub : ∀ x ∈ s.bssList, x ∈ s₀.bssList
  entry : ∀ x, ∃ c r, s.bss x = { s₀.bss x with refcount := c, ring := r }

theorem MbssInv.unlinking (h : MbssInv s) : Unlinking s s fun _ => False :=
  ⟨h.inv, h.groups, h.lists, fun _ hx => hx, fun x => ⟨(s.bss x).refcount, (s.bss x).ring, rfl⟩⟩

variable {s₀ : Rdev}

theorem Unlinking.transmitter (h : Unlinking s₀ s gone) (x : ℕ) :
    s.transmitter x = s₀.transmitter x := by
  obtain ⟨c, r, heq⟩ := h.entry x
  rw [Rdev.transmitter, heq]

/-- **One more is unlinked**, or refused. -/
theorem Unlinking.step (h : Unlinking s₀ s gone) (lib : RbLib) (hb : b ∈ s.bssList) :
    Unlinking s₀ (unlinkBss lib s b).1 fun x => gone x ∨ x = b ∧ ¬ s.Refuses b := by
  have hmem : ∀ x, x ∈ (unlinkBss lib s b).1.bssList ↔ x ∈ s.bssList ∧ (x = b → s.Refuses b) :=
    fun x => mem_bssList_unlinkBss h.inv.nodup
  refine ⟨h.inv.unlink lib hb, h.groups.unlinkListed h.inv lib, ?_,
    fun x hx => h.sub x ((hmem x).mp hx).1, fun x => ?_⟩
  · by_cases hrefuses : s.Refuses b
    · rcases unlinkBss_cases lib s b with ⟨-, heq⟩ | ⟨hnot, -⟩
      · rw [heq]
        intro t ht hnone
        obtain ⟨ms, hms, hin, hout⟩ := h.lists t ht hnone
        exact ⟨ms, hms, fun hg => hin fun hg' => hg (.inl hg'),
          fun hg => hout (hg.resolve_right fun hg' => hg'.2 hrefuses)⟩
      · exact absurd hrefuses hnot
    · have hlists := h.lists.unlink h.inv lib (TableInv.live_of_listed h.inv hb) hb hrefuses
      intro t ht hnone
      obtain ⟨ms, hms, hin, hout⟩ := hlists t ht hnone
      refine ⟨ms, fun x => (hms x).trans (and_congr_left fun _ => ?_), fun hg => hin fun hg' => hg ?_,
        fun hg => hout (hg.imp_right And.left)⟩
      · refine ((hmem x).trans (and_congr_right fun _ => ?_)).symm
        exact ⟨fun hx heq => hrefuses (hx heq), fun hx heq => absurd heq hx⟩
      · exact hg'.imp_right fun heq => ⟨heq, hrefuses⟩
  · obtain ⟨c, r, heq⟩ := unlinkBss_entry lib s b x
    obtain ⟨c₀, r₀, heq₀⟩ := h.entry x
    refine ⟨c, r, ?_⟩
    rw [heq, heq₀]

theorem Unlinking.mbssInv (h : Unlinking s₀ s gone)
    (hgone : ∀ t, gone t → ∀ m ∈ s.bssList, s₀.transmitter m ≠ some t) : MbssInv s := by
  refine ⟨h.inv, h.groups, h.lists.absorb fun t hg m hm => ?_⟩
  rw [h.transmitter]
  exact hgone t hg m hm

theorem Unlinking.not_refuses (h : Unlinking s₀ s gone) (hb : b ∈ s.bssList)
    (htrans : s₀.transmitter b = some t) : ¬ s.Refuses b := by
  have hlive := TableInv.live_of_listed h.inv hb
  refine h.groups.not_refuses h.inv hlive ?_
  rw [(h.inv.transmitter hlive ((h.transmitter b).trans htrans)).1]
  exact some_ne_none t

/-- **Expiry.** An entry taken off the list goes with all on its own. It stays if it is the beacon
of a hidden network of which something is left. -/
def ExpireOk (s : Rdev) (expireTime : UInt64) : Prop :=
  ∀ t ∈ s.bssList, s.Expires expireTime t →
    (∀ m ∈ s.bssList, s.transmitter m = some t → s.Expires expireTime m) ∨
      ∃ c ∈ s.bssList, (s.bss c).hiddenBeaconBss = some t ∧
        (¬ s.Expires expireTime c ∨ s.bssList.idxOf t < s.bssList.idxOf c)

theorem Unlinking.expires_iff (h : Unlinking s₀ s gone) {expireTime : UInt64} :
    s.Expires expireTime b ↔ s₀.Expires expireTime b := by
  obtain ⟨c, r, heq⟩ := h.entry b
  rw [Rdev.Expires, Rdev.Expires, heq]

/-- **Expiry.** -/
theorem MbssInv.expire (h : MbssInv s) (lib : RbLib) {expireTime : UInt64}
    (hok : ExpireOk s expireTime) : MbssInv (bssExpire lib s expireTime) := by
  -- those that are gone have been looked at, and what is on their lists will go
  have hall : ∃ gone, Unlinking s (bssExpire lib s expireTime) gone ∧
      (∀ x ∈ ([] : List ℕ), x ∈ (bssExpire lib s expireTime).bssList) ∧
      (∀ x ∈ s.bssList, ¬ s.Expires expireTime x → x ∈ (bssExpire lib s expireTime).bssList) ∧
      (∀ x ∈ s.bssList, s.Expires expireTime x → s.transmitter x ≠ none →
        x ∉ (bssExpire lib s expireTime).bssList) ∧
      ∀ t, gone t → ∀ m ∈ s.bssList, s.transmitter m = some t → s.Expires expireTime m := by
    refine bssExpire_induction (P := fun done todo s' => ∃ gone, Unlinking s s' gone ∧
      (∀ x ∈ todo, x ∈ s'.bssList) ∧
      (∀ x ∈ s.bssList, ¬ s.Expires expireTime x → x ∈ s'.bssList) ∧
      (∀ x ∈ done, s.Expires expireTime x → s.transmitter x ≠ none → x ∉ s'.bssList) ∧
      ∀ t, gone t → ∀ m ∈ s.bssList, s.transmitter m = some t → s.Expires expireTime m)
      ⟨_, h.unlinking, fun _ hx => hx, fun _ hx _ => hx, nofun, nofun⟩ ?_ ?_
    · rintro done b todo s' hlist hexp ⟨gone, hun, htodo, hstay, hdone, hgone⟩
      refine ⟨gone, hun, fun x hx => htodo x (mem_cons_of_mem b hx), hstay, ?_, hgone⟩
      intro x hx hxexp
      rcases mem_append.mp hx with hx | hx
      · exact hdone x hx hxexp
      · rw [mem_singleton.mp hx] at hxexp
        exact absurd (hun.expires_iff.mpr hxexp) hexp
    · rintro done b todo s' hlist hexp ⟨gone, hun, htodo, hstay, hdone, hgone⟩
      have hb := htodo b mem_cons_self
      have hexp : s.Expires expireTime b := hun.expires_iff.mp hexp
      have hnodup : (done ++ b :: todo).Nodup := hlist ▸ h.inv.nodup
      have hbtodo : b ∉ todo := (nodup_cons.mp (nodup_append.mp hnodup).2.1).1
      have hmem : ∀ x, x ∈ (unlinkBss lib s' b).1.bssList ↔ x ∈ s'.bssList ∧ (x = b → s'.Refuses b) :=
        fun x => mem_bssList_unlinkBss hun.inv.nodup
      refine ⟨_, hun.step lib hb, fun x hx => ?_, fun x hx hxexp => ?_, fun x hx hxexp htrans => ?_, ?_⟩
      · refine (hmem x).mpr ⟨htodo x (mem_cons_of_mem b hx), ?_⟩
        rintro rfl
        exact absurd hx hbtodo
      · refine (hmem x).mpr ⟨hstay x hx hxexp, ?_⟩
        rintro rfl
        exact absurd hexp hxexp
      · rw [hmem]
        rintro ⟨hx', hrefuses⟩
        rcases mem_append.mp hx with hx | hx
        · exact hdone x hx hxexp htrans hx'
        · obtain ⟨t, ht⟩ := ne_none_iff_exists'.mp htrans
          exact hun.not_refuses hx' ht (mem_singleton.mp hx ▸ hrefuses (mem_singleton.mp hx))
      · rintro t (hg | ⟨rfl, hnot⟩)
        · exact hgone t hg
        refine (hok t (hun.sub t hb) hexp).resolve_right ?_
        rintro ⟨c, hc, hhidden, hcexp⟩
        -- something of its network is still there
        have hc' : c ∈ s'.bssList := by
          refine hcexp.elim (hstay c hc) fun hlater => htodo c ?_
          rw [hlist] at hc hlater
          refine (mem_append.mp hc).resolve_left fun hcdone => ?_
          have htdone : t ∉ done := fun hmem =>
            (nodup_append.mp hnodup).2.2 t hmem t mem_cons_self rfl
          rw [idxOf_append_of_notMem htdone, idxOf_append_of_mem hcdone] at hlater
          have hlt := idxOf_lt_length_of_mem hcdone
          omega
        obtain ⟨k, r, heq⟩ := hun.entry c
        refine hnot (hun.groups.refuses hun.inv (TableInv.live_of_listed hun.inv hc') hc' ?_)
        rw [heq]
        exact hhidden
  obtain ⟨gone, hun, -, -, hdone, hgone⟩ := hall
  refine hun.mbssInv fun t hg m hm htrans => ?_
  have hms := hun.sub m hm
  exact hdone m hms (hgone t hg m hms htrans) (htrans ▸ some_ne_none t) hm

/-- The cycle an entry is in: all of it is on the list, and it has the list of each head it has. -/
theorem MbssInv.cycle (h : MbssInv s) (hb : b ∈ s.bssList)
    (hhead : ∀ t, s.transmitter b = some t → t ∈ s.bssList) :
    ∃ ms, s.nontrans.Ring b ms ∧ (∀ x ∈ ms, x ∈ s.bssList) ∧
      ∀ t ∈ b :: ms, ∀ m ∈ s.bssList, s.transmitter m = some t → m ∈ b :: ms := by
  have hlive := TableInv.live_of_listed h.inv hb
  obtain ⟨u, hu, hnone, hbelongs⟩ : ∃ u ∈ s.bssList, s.transmitter u = none ∧
      s.Belongs s.listed u b := by
    cases htrans : s.transmitter b with
    | none => exact ⟨b, hb, htrans, .inl rfl⟩
    | some u => exact ⟨u, hhead u htrans, (h.inv.transmitter hlive htrans).2.2, .inr ⟨hb, htrans⟩⟩
  obtain ⟨ms, hms, hcyc, -⟩ := h.lists u (TableInv.live_of_listed h.inv hu) hnone
  obtain ⟨ms', hperm, hring⟩ :=
    (hcyc id).ring_of_mem (mem_cons.mpr (hbelongs.imp_right (hms b).mpr))
  refine ⟨ms', hring, fun x hx => ?_, fun t ht m hm htrans => ?_⟩
  · rcases belongs_of_mem hms (hperm.mem_iff.mpr (mem_cons_of_mem b hx)) with rfl | hx
    · exact hu
    · exact hx.1
  · refine hperm.mem_iff.mp (mem_cons_of_mem u ((hms m).mpr ⟨hm, ?_⟩))
    rcases belongs_of_mem hms (hperm.mem_iff.mpr ht) with rfl | ⟨-, ht⟩
    · exact htrans
    · rw [(h.inv.transmitter (TableInv.live_of_listed h.inv hm) htrans).2.2] at ht
      cases ht

/-- `cfg80211_unlink_bss` so far: `todo` is what is left of the list, and some that are refused may still
be on it. -/
structure UnlinkingList (s₀ : Rdev) (b : ℕ) (ms : List ℕ) (s : Rdev) (todo : List ℕ) : Prop where
  ring : ∃ kept, s.nontrans.Ring b (kept ++ todo)
  listed : ∀ x ∈ b :: todo, x ∈ s.bssList
  unlinking : ∃ gone, Unlinking s₀ s gone ∧ ∀ t, gone t → t ∈ b :: ms
  sub : ∀ x ∈ todo, x ∈ ms
  done : ∀ x ∈ ms, x ∉ todo → s₀.transmitter x ≠ none → x ∉ s.bssList

theorem UnlinkingList.step {ms todo : List ℕ} {x : ℕ} (lib : RbLib)
    (h : UnlinkingList s₀ b ms s (x :: todo)) :
    x ≠ b ∧ s.nontrans.next x = todo.headD b ∧ UnlinkingList s₀ b ms (unlinkBss lib s x).1 todo := by
  obtain ⟨kept, hring⟩ := h.ring
  obtain ⟨gone, hun, hgone⟩ := h.unlinking
  have hxmem : x ∈ kept ++ x :: todo := mem_append_right _ mem_cons_self
  have hxb : x ≠ b := fun heq => (nodup_cons.mp hring.nodup).1 (heq ▸ hxmem)
  have hx := h.listed x (mem_cons_of_mem b mem_cons_self)
  have hxtodo : x ∉ todo :=
    (nodup_cons.mp (nodup_append.mp (nodup_cons.mp hring.nodup).2).2.1).1
  have hmem : ∀ y, y ∈ (unlinkBss lib s x).1.bssList ↔ y ∈ s.bssList ∧ (y = x → s.Refuses x) :=
    fun y => mem_bssList_unlinkBss hun.inv.nodup
  refine ⟨hxb, (seg_append.mp hring.seg).2.next_eq, ?_, fun y hy => ?_, ?_, fun y hy => ?_,
    fun y hy hytodo htrans => ?_⟩
  · rcases unlinkBss_cases lib s x with ⟨-, heq⟩ | ⟨-, -, hrec⟩
    · refine ⟨kept ++ [x], ?_⟩
      rw [heq, append_assoc]
      exact hring
    · refine ⟨kept, ?_⟩
      obtain ⟨c, freed, heq⟩ := hrec.eq
      rw [heq]
      show (unlinked lib s x).nontrans.Ring b _
      have hheads : (unlinked lib s x).nontrans = s.nontrans.delInit x := by
        rw [unlinked]
        split <;> rfl
      rw [hheads]
      exact hring.delInit
  · refine (hmem y).mpr ⟨h.listed y ?_, ?_⟩
    · rcases mem_cons.mp hy with rfl | hy
      · exact mem_cons_self
      · exact mem_cons_of_mem b (mem_cons_of_mem x hy)
    · rintro rfl
      rcases mem_cons.mp hy with rfl | hy
      · exact absurd rfl hxb
      · exact absurd hy hxtodo
  · refine ⟨_, hun.step lib hx, ?_⟩
    rintro t (hg | ⟨rfl, -⟩)
    · exact hgone t hg
    · exact mem_cons_of_mem b (h.sub t mem_cons_self)
  · exact h.sub y (mem_cons_of_mem x hy)
  · rw [hmem]
    rintro ⟨hy', hrefuses⟩
    by_cases hyx : y = x
    · subst hyx
      obtain ⟨t, ht⟩ := ne_none_iff_exists'.mp htrans
      exact hun.not_refuses hy' ht (hrefuses rfl)
    · refine h.done y hy (fun hmem => ?_) htrans hy'
      exact (mem_cons.mp hmem).elim hyx hytodo

/-- **An entry goes with all that are on its list.** -/
theorem MbssInv.unlinkWithNontrans (h : MbssInv s) (lib : RbLib)
    (hhead : b ∈ s.bssList → ∀ t, s.transmitter b = some t → t ∈ s.bssList)
    (hstep : Mac80211.unlinkWithNontrans lib s b = some s') : MbssInv s' := by
  rw [Mac80211.unlinkWithNontrans] at hstep
  split at hstep
  · cases hstep
    exact h
  rename_i hb
  rw [not_not] at hb
  obtain ⟨ms, hring, hms, hall⟩ := h.cycle hb (hhead hb)
  have hnext := hring.seg.next_eq
  have hstart : UnlinkingList s b ms s ms := by
    refine ⟨⟨[], hring⟩, fun x hx => ?_, ⟨_, h.unlinking, fun _ hx => by cases hx⟩, fun _ hx => hx,
      fun x hx hnot => absurd hx hnot⟩
    rcases mem_cons.mp hx with rfl | hx
    · exact hb
    · exact hms x hx
  have hlt := h.inv.length_lt_fuel (nodup_cons.mp hring.nodup).2 hms
  have hloop := forEachSafe_eq_foldl (UnlinkingList s b ms)
    (fun _ _ _ => UnlinkingList.step lib) hstart hlt (n := s.nontrans.next (s.nontrans.next b))
    fun _ => by rw [hnext]
  rw [← hnext] at hloop
  dsimp only at hstep
  rw [hloop] at hstep
  cases hstep
  have hdone : UnlinkingList s b ms (ms.foldl (fun s m => (unlinkBss lib s m).1) s) [] := by
    have hfold : ∀ (todo : List ℕ) (s₁ : Rdev), UnlinkingList s b ms s₁ todo →
        UnlinkingList s b ms (todo.foldl (fun s m => (unlinkBss lib s m).1) s₁) [] := by
      intro todo
      induction todo with
      | nil => exact fun _ h₁ => h₁
      | cons x todo ih => exact fun s₁ h₁ => ih _ (h₁.step lib).2.2
    exact hfold ms s hstart
  generalize ms.foldl (fun s m => (unlinkBss lib s m).1) s = s₁ at hdone
  obtain ⟨gone, hun, hgone⟩ := hdone.unlinking
  have hb₁ := hdone.listed b mem_cons_self
  refine (hun.step lib hb₁).mbssInv fun t hg m hm htrans => ?_
  have ht : t ∈ b :: ms := by
    rcases hg with hg | ⟨rfl, -⟩
    · exact hgone t hg
    · exact mem_cons_self
  obtain ⟨hm₁, hrefuses⟩ := (mem_bssList_unlinkBss hun.inv.nodup).mp hm
  rcases mem_cons.mp (hall t ht m (hun.sub m hm₁) htrans) with rfl | hmms
  · exact hun.not_refuses hm₁ htrans (hrefuses rfl)
  · exact hdone.done m hmms not_mem_nil (htrans ▸ some_ne_none t) hm₁

/-! ### What a frame does not tell of -/

theorem MbssInv.keeps (h : MbssInv s) (hkeeps : s.Keeps s') : MbssInv s' :=
  ⟨h.inv.keeps hkeeps, h.groups.keeps hkeeps, h.lists.keeps hkeeps⟩

theorem keeps_updateNotlistedAll {frame : MbssFrame} (h : updateNotlistedAll s t frame = some s') :
    s.Keeps s' := by
  rw [updateNotlistedAll, map_eq_some_iff] at h
  obtain ⟨ms, -, rfl⟩ := h
  have hfold : ∀ (ms : List ℕ) (s₁ : Rdev), s₁.Keeps (ms.foldl (fun s' m =>
      if (s.bss t).ies.any fun ies => s'.iesBefore m ies.tsf then updateNotlisted s' m frame
      else s') s₁) := by
    intro ms
    induction ms with
    | nil => exact fun s₁ => .refl s₁
    | cons m ms ih =>
      intro s₁
      rw [foldl_cons]
      refine Rdev.Keeps.trans ?_ (ih _)
      split
      · exact keeps_updateNotlisted s₁ m frame
      · exact .refl s₁
  exact hfold ms s

/-! ### Runs -/

/-- **What a step must find.** A profile belongs to the sender of the frame alone; an entry that
leaves the list goes with all on its own, or has none; and so does the one that transmits for an
entry that is unlinked. -/
def MbssCond (limit : ℤ) (s : Rdev) (os : List Empty) : MbssOp → Prop
  | .table op => BssCond limit s os op ∧
    match op with
    | .update tmp alloc => rbFindBss s tmp.toBss .regular = none → alloc = true → EvictOk limit s tmp
    | .expire expireTime => ExpireOk s expireTime
    | _ => True
  | .profile t tmp alloc => BssCond limit s os (.update (tmp.transmittedBy s t) alloc) ∧
    ProfileOk limit s t (tmp.transmittedBy s t) alloc
  | .notlisted _ _ => True
  | .unlink b => b ∈ s.bssList → ∀ t ∈ s.transmitter b, t ∈ s.bssList

/-- **One step.** -/
theorem MbssInv.step {lib : RbLib} {limit : ℤ} {op : MbssOp} {os o : List Empty} (h : MbssInv s)
    (hcond : MbssCond limit s os op) (hstep : mbssStep lib limit s op = some (s', o)) : MbssInv s' := by
  cases op <;>
    simp only [mbssStep, ite_none_right_eq_some, map_eq_some_iff, Prod.mk.injEq] at hstep
  case table op =>
    obtain ⟨hplain, hstep⟩ := hstep
    have hinv := h.inv.step hcond.1 hstep
    have hgroups := h.groups.step h.inv hcond.1 hstep
    rcases bssStep_cases hstep with ⟨tmp, alloc, rfl, hheld, rfl⟩ | ⟨b, rfl, -, -⟩ | ⟨e, rfl, rfl⟩ | htouch
    · exact h.update lib (isNone_iff_eq_none.mp hplain) hcond.1 hcond.2
    · cases hplain
    · exact h.expire lib hcond.2
    · exact ⟨hinv, hgroups, h.lists.touches htouch⟩
  case profile t tmp alloc =>
    obtain ⟨ht, s₁, hs₁, rfl, -⟩ := hstep
    exact h.profile lib ht hcond.1 hcond.2 hs₁
  case notlisted t frame =>
    obtain ⟨-, s₁, hs₁, rfl, -⟩ := hstep
    exact h.keeps (keeps_updateNotlistedAll hs₁)
  case unlink b =>
    obtain ⟨-, s₁, hs₁, rfl, -⟩ := hstep
    exact h.unlinkWithNontrans lib hcond hs₁

theorem mbssInv_empty : MbssInv {} :=
  ⟨pendInv_empty, groups_empty.congr subset_rfl (fun _ => ⟨rfl, rfl⟩) nofun, nofun⟩

/-- **The lists are well formed in every state.** -/
theorem nontransOk_of_reach {lib : RbLib} {limit : ℤ} {os : List Empty}
    (h : Reach (mbssStep lib limit) (MbssCond limit) {} s os) : NontransOk s := by
  refine MbssInv.nontransOk (h.invariant (fun s _ => MbssInv s) mbssInv_empty ?_)
  intro s os op s' o hinv hcond hstep
  exact hinv.step hcond hstep

instance (s : Rdev) (expireTime : UInt64) (b : ℕ) : Decidable (s.Expires expireTime b) :=
  inferInstanceAs (Decidable (_ ∧ _))

instance (s : Rdev) (expireTime : UInt64) : Decidable (ExpireOk s expireTime) :=
  inferInstanceAs (Decidable (∀ t ∈ s.bssList, _ → (∀ m ∈ s.bssList, _) ∨ ∃ c ∈ s.bssList, _))

instance (limit : ℤ) (s : Rdev) (tmp : InformBss) : Decidable (EvictOk limit s tmp) :=
  inferInstanceAs (Decidable (_ → ∀ b ∈ oldestBss (newBss s tmp), ∀ m ∈ s.bssList, _))

instance (limit : ℤ) (s : Rdev) (t : ℕ) (tmp : InformBss) (alloc : Bool) :
    Decidable (ProfileOk limit s t tmp alloc) :=
  decidable_of_iff
    ((∀ known ∈ rbFindBss s tmp.toBss .regular, ¬ Dropped s known tmp → ssidAfter s known tmp = none →
        s.Refuses known ∨ ∀ m ∈ s.bssList, s.transmitter m ≠ some known) ∧
      (∀ known ∈ rbFindBss s tmp.toBss .regular, ∀ ssid ∈ ssidAfter s known tmp,
        ¬ Dropped s known tmp → s.transmitter known = some t ∨
          ∃ m ∈ s.bssList, m ≠ known ∧ s.transmitter m = some t ∧
            isBss (s.bss m) (some (s.bss known).bssid) (some ssid) = true) ∧
      (rbFindBss s tmp.toBss .regular = none → alloc = true → EvictOk limit s tmp) ∧
      (rbFindBss s tmp.toBss .regular = none → alloc = true →
        ∀ ssid ∈ findIe WLAN_EID_SSID tmp.ies.data, ∀ m ∈ s.bssList, s.transmitter m = some t →
          isBss (s.bss m) (some tmp.bssid) (some ssid) = true →
            limit ≤ s.bssEntries ∧ oldestBss (newBss s tmp) = some m))
    ⟨fun ⟨hunnamed, hknown, hevict, hnew⟩ =>
      ⟨hunnamed, fun known ssid hfind hnot hssid => hknown known hfind ssid hssid hnot, hevict, hnew⟩,
    fun h => ⟨h.unnamed, fun known hfind ssid hssid hnot => h.known known ssid hfind hnot hssid,
      h.evict, h.new⟩⟩

instance (limit : ℤ) (s : Rdev) (os : List Empty) (op : MbssOp) : Decidable (MbssCond limit s os op) :=
  match op with
  | .table (.update ..) => inferInstanceAs (Decidable (_ ∧ (_ → _)))
  | .table (.expire _) | .profile .. => inferInstanceAs (Decidable (_ ∧ _))
  | .table (.get _) | .table (.ref _) | .table (.put _) | .table (.unlink _) | .table (.hold _)
  | .table (.unhold _) => inferInstanceAs (Decidable (_ ∧ True))
  | .notlisted .. => inferInstanceAs (Decidable True)
  | .unlink _ => inferInstanceAs (Decidable (_ → _))

/-- What is told in a profile with this index, in a frame that has one of two BSSIDs. -/
def informProfile (last index : UInt8) (ssid : List UInt8) : InformBss :=
  { informBss last false ssid none with bssid := genNewBssid (localMac last) 1 index }

/-- A frame with a profile, which is the first time new and then known; another one without it; and
expiry. -/
def frameAndProfile : List MbssOp :=
  [.table (.update (informBss 9 false [65] none) true), .profile 0 (informProfile 9 1 [66]) true,
    .profile 0 (informProfile 9 1 [66]) true,
    .notlisted 0 { isProberesp := false, ie := [0, 1, 65, 71, 1, 1], tsf := 5 },
    .table (.expire 5)]

theorem nontransOk_frameAndProfile : ∃ s os, Reach (mbssStep plainRb 1000) (MbssCond 1000) {} s os ∧
    s.bssList = [0, 1] ∧ s.transmitter 1 = some 0 ∧ NontransOk s := by
  have hmeets : Meets (mbssStep plainRb 1000) (MbssCond 1000) {} [] frameAndProfile := by
    decide +kernel
  have hrun : (run (mbssStep plainRb 1000) {} frameAndProfile).map
      (fun r => (r.1.bssList, (r.1.bss 1).transmittedBss)) = some ([0, 1], some 0) := by
    decide +kernel
  obtain ⟨⟨s, os⟩, hs, hfields⟩ := map_eq_some_iff.mp hrun
  simp only [Prod.mk.injEq] at hfields
  have hreach := Reach.of_run .init hmeets hs
  exact ⟨s, os, hreach, hfields.1, hfields.2, nontransOk_of_reach hreach⟩

/-- The second profile has the BSSID and the SSID of the frame. -/
def ownProfile : List MbssOp :=
  [.table (.update (informBss 9 false [65] none) true), .profile 0 (informProfile 9 1 [66]) true,
    .profile 0 (informProfile 9 2 [65]) true]

/-- **An entry is put on its own list**, and what was on it is not there any more. -/
theorem own_profile_breaks_list : ∃ s os,
    Reach (mbssStep plainRb 1000) (fun _ _ _ => True) {} s os ∧ ¬ NontransOk s := by
  have hrun : (run (mbssStep plainRb 1000) {} ownProfile).map
      (fun r => (r.1.live, r.1.bssList, (r.1.bss 0).transmittedBss, (r.1.bss 1).transmittedBss,
        r.1.nontrans.next 0, r.1.nontrans.next 1)) = some ({0, 1}, [0, 1], none, some 0, 0, 0) := by
    decide +kernel
  obtain ⟨⟨s, os⟩, hs, hfields⟩ := map_eq_some_iff.mp hrun
  simp only [Prod.mk.injEq] at hfields
  obtain ⟨hlive, hlist, hzero, hone, hnext, -⟩ := hfields
  refine ⟨s, os, Reach.of_run_init hs, fun hok => ?_⟩
  obtain ⟨ms, hring, hms⟩ := hok.ring 0 (by rw [hlive]; decide) hzero
  have hmem : 1 ∈ ms := (hms 1).mpr ⟨by rw [hlist]; decide, hone⟩
  -- the list leads back at once
  have hhead := hring.seg.next_eq
  rw [hnext] at hhead
  cases ms with
  | nil => cases hmem
  | cons m ms => exact (nodup_cons.mp hring.nodup).1 (hhead ▸ mem_cons_self)

end Mac80211
