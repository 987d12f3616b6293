import Mac80211.Lib.Owners
import Mac80211.Scan.Groups

/-!
# The buffers of elements

An entry has up to two buffers of elements, and `ies` is one of them. They belong to the entry,
unless it shows those of the hidden beacon that it points to. `cfg80211_update_known_bss` tells
those on the ring when it replaces them, and `cfg80211_update_notlisted_nontrans` tells nobody.

## Main definitions

* `IesInv`, `IesCond`

## Main results

* `iesOk_of_reach`
-/

namespace Mac80211

open Machine References Owners Option Multiset

variable {s s' : Rdev} {held : Multiset ℕ} {pending : ℕ → ℤ} {b : ℕ}

/-! ### The machine -/

/-- What can happen. -/
inductive IesOp
  | table (op : BssOp)
  /-- `cfg80211_update_notlisted_nontrans`. -/
  | notlisted (b : ℕ) (frame : MbssFrame)

/-- One step. What is told of a BSS comes in a new buffer. -/
def iesStep (lib : RbLib) (limit : ℤ) (s : Rdev) : IesOp → Option (Rdev × List Empty)
  | .table (.update tmp alloc) =>
    if tmp.ies.id = s.freshIes then
      bssStep lib limit { s with freshIes := s.freshIes + 1 } (.update tmp alloc)
    else none
  | .table op => bssStep lib limit s op
  | .notlisted b frame => if b ∈ s.live then some (updateNotlisted s b frame, []) else none

/-- **What should hold in every state.** -/
structure IesOk (s : Rdev) : Prop where
  valid : ∀ b ∈ s.live, ∀ ies, (s.bss b).ies = some ies ∨ (s.bss b).beaconIes = some ies ∨
    (s.bss b).proberespIes = some ies → ies.id ∉ s.freed
  once : s.freed.Nodup
  group : ∀ b ∈ s.live, ∀ h, (s.bss b).hiddenBeaconBss = some h → (s.bss b).beaconIes = (s.bss h).beaconIes
  all : s.live = ∅ → ∀ id < s.freshIes, id ∈ s.freed

/-! ### The invariant -/

/-- Each buffer belongs to one entry, or has been freed once, or is in the hands of a caller. -/
abbrev Rdev.Owned (s : Rdev) (held : Multiset ℕ) : Prop :=
  Owners.Owned s.live (fun b => ((s.bss b).ownIes : Multiset ℕ)) s.freed held (Multiset.range s.freshIes)

/-- **The invariant.** An entry that points to a hidden beacon shows its own probe response. -/
structure IesInv (s : Rdev) (held : Multiset ℕ) : Prop where
  owned : s.Owned held
  shown : ∀ b ∈ s.live, (s.bss b).ies = (s.bss b).beaconIes ∨ (s.bss b).ies = (s.bss b).proberespIes
  member : ∀ b ∈ s.live, ∀ h, (s.bss b).hiddenBeaconBss = some h →
    (s.bss b).beaconIes = (s.bss h).beaconIes ∧ (s.bss b).ies = (s.bss b).proberespIes

/-- The fields that buffers are about. -/
def Bss.SameIes (e e' : Bss) : Prop :=
  e'.ies = e.ies ∧ e'.beaconIes = e.beaconIes ∧ e'.proberespIes = e.proberespIes ∧
    e'.hiddenBeaconBss = e.hiddenBeaconBss

theorem Bss.SameIes.refl (e : Bss) : e.SameIes e := ⟨rfl, rfl, rfl, rfl⟩

theorem Bss.SameIes.ownIes {e e' : Bss} (h : e.SameIes e') : e'.ownIes = e.ownIes := by
  obtain ⟨-, hbeacon, hproberesp, hhidden⟩ := h
  rw [Bss.ownIes, Bss.ownIes, hbeacon, hproberesp, hhidden]

theorem sameIes_upd (s : Rdev) {x : ℕ} (hx : x ≠ b) (f : Bss → Bss) (ies : Option BssIes) :
    (s.bss x).SameIes (((s.upd b f).kfree ies).bss x) := by
  simp [Rdev.kfree, Rdev.upd, hx, Bss.SameIes]

theorem IesInv.shrink {held' : Multiset ℕ} (h : IesInv s held') (hlive : s'.live ⊆ s.live)
    (hsame : ∀ x, (s.bss x).SameIes (s'.bss x)) (howned : s'.Owned held) : IesInv s' held where
  owned := howned
  shown := by
    intro b hb
    obtain ⟨hies, hbeacon, hproberesp, -⟩ := hsame b
    rw [hies, hbeacon, hproberesp]
    exact h.shown b (hlive hb)
  member := by
    intro b hb p hp
    obtain ⟨hies, hbeacon, hproberesp, hhidden⟩ := hsame b
    rw [hhidden] at hp
    rw [hies, hbeacon, hproberesp, (hsame p).2.1]
    exact h.member b (hlive hb) p hp

theorem IesInv.congr (h : IesInv s held) (hlive : s'.live = s.live)
    (hsame : ∀ x, (s.bss x).SameIes (s'.bss x)) (hfreed : s'.freed = s.freed)
    (hfresh : s'.freshIes = s.freshIes) : IesInv s' held := by
  refine h.shrink hlive.subset hsame ?_
  rw [Rdev.Owned, hlive, hfreed, hfresh]
  exact Owned.congr h.owned fun b _ => congrArg _ (hsame b).ownIes

/-- **What should hold, does.** -/
theorem IesInv.iesOk (h : IesInv s 0) (hinv : PendInv s pending) : IesOk s := by
  have hnodup := nodup_range s.freshIes
  have hproberesp : ∀ b ∈ s.live, ∀ ies, (s.bss b).proberespIes = some ies → ies.id ∉ s.freed := by
    intro b hb ies hies
    refine Owned.not_mem_freed h.owned hnodup hb ?_
    simp [Bss.ownIes, hies]
  have hbeacon : ∀ b ∈ s.live, ∀ ies, (s.bss b).beaconIes = some ies → ies.id ∉ s.freed := by
    -- the owner is the entry, or the hidden beacon
    have howner : ∀ b ∈ s.live, (s.bss b).hiddenBeaconBss = none → ∀ ies,
        (s.bss b).beaconIes = some ies → ies.id ∉ s.freed := by
      intro b hb hhidden ies hies
      refine Owned.not_mem_freed h.owned hnodup hb ?_
      simp [Bss.ownIes, hies, hhidden]
    intro b hb ies hies
    cases hhidden : (s.bss b).hiddenBeaconBss with
    | none => exact howner b hb hhidden ies hies
    | some p =>
      obtain ⟨hp, hlink⟩ := hinv.counted.target b hb p (link_of_hidden hhidden)
      rw [(h.member b hb p hhidden).1] at hies
      exact howner p hp (link_eq_none_iff.mp hlink).1 ies hies
  constructor
  · rintro b hb ies (hies | hies | hies)
    · rcases h.shown b hb with heq | heq
      · exact hbeacon b hb ies (heq ▸ hies)
      · exact hproberesp b hb ies (heq ▸ hies)
    · exact hbeacon b hb ies hies
    · exact hproberesp b hb ies hies
  · exact Owned.nodup_freed h.owned hnodup
  · exact fun b hb p hp => (h.member b hb p hp).1
  · intro hlive id hid
    have howned := h.owned
    rw [Rdev.Owned, hlive] at howned
    have hmem : id ∈ (s.freed : Multiset ℕ) := by
      rw [Owned.freed_eq howned]
      exact mem_range.mpr hid
    exact hmem

/-! ### References -/

theorem owned_addRef (h : s.Owned held) (b : ℕ) (n : ℤ) : (s.addRef b n).Owned held := by
  obtain ⟨c, hc⟩ := addRef_eq s b n
  rw [hc]
  exact h

theorem owned_bssDecRef (h : s.Owned held) (hb : b ∈ s.live) : (bssDecRef s b).Owned held := by
  rw [bssDecRef]
  have haddRef := owned_addRef h b (-1)
  split
  · rw [bssFree]
    split
    · exact haddRef
    · rw [Rdev.Owned, ← coe_add]
      exact Owned.free haddRef hb
  · exact haddRef

theorem mem_live_bssDecRef {p : ℕ} (hb : b ∈ s.live) (hne : b ≠ p) : b ∈ (bssDecRef s p).live := by
  rw [bssDecRef]
  split
  · rw [bssFree]
    split
    · exact hb
    · exact Finset.mem_erase.mpr ⟨hne, hb⟩
  · exact hb

theorem owned_bssRefPut (h : s.Owned held) (hb : b ∈ s.live)
    (hone : (s.bss b).hiddenBeaconBss = none ∨ (s.bss b).transmittedBss = none)
    (htarget : ∀ p, s.link b = some p → p ∈ s.live ∧ s.link p = none) : (bssRefPut s b).Owned held := by
  rw [bssRefPut_of_link hone htarget]
  cases hlink : s.link b with
  | none => exact owned_bssDecRef h hb
  | some p =>
    have hne : b ≠ p := Ne.symm (ne_of_link htarget hlink)
    exact owned_bssDecRef (owned_bssDecRef h (htarget p hlink).1) (mem_live_bssDecRef hb hne)

theorem Rdev.Recounts.sameIes (h : s.Recounts s') (x : ℕ) : (s.bss x).SameIes (s'.bss x) := by
  obtain ⟨c, freed, heq⟩ := h.eq
  rw [heq]
  exact .refl _

/-- **An entry is put.** -/
theorem IesInv.put (h : IesInv s held) (hb : b ∈ s.live)
    (hone : (s.bss b).hiddenBeaconBss = none ∨ (s.bss b).transmittedBss = none)
    (htarget : ∀ p, s.link b = some p → p ∈ s.live ∧ s.link p = none) : IesInv (bssRefPut s b) held := by
  have hrec := recounts_bssRefPut s b
  exact h.shrink hrec.live hrec.sameIes (owned_bssRefPut h.owned hb hone htarget)

theorem IesInv.withCounts (h : IesInv s held) (c : ℕ → ℤ) : IesInv (s.withCounts c) held :=
  h.congr rfl (fun _ => .refl _) rfl rfl

theorem IesInv.get (h : IesInv s held) (b : ℕ) : IesInv (bssRefGet s b) held := by
  obtain ⟨c, hc⟩ := bssRefGet_eq_withCounts s b
  rw [hc]
  exact h.withCounts c

theorem IesInv.handOut {r : Rdev × Option ℕ} (h : IesInv r.1 held) : IesInv (Rdev.handOut r) held := by
  rw [Rdev.handOut]
  split
  · exact h.congr rfl (fun _ => .refl _) rfl rfl
  · exact h

theorem IesInv.hold (h : IesInv s held) (b : ℕ) (n : ℤ) : IesInv (addHold s b n) held := by
  have hone : ∀ (s : Rdev) (b : ℕ), IesInv s held →
      IesInv (s.upd b fun e => { e with hold := e.hold + n }) held := by
    intro s b h
    refine h.congr rfl (fun x => ?_) rfl rfl
    by_cases hx : x = b
    · subst hx
      simp [Rdev.upd, Bss.SameIes]
    · simp [Rdev.upd, hx, Bss.SameIes]
  rw [addHold]
  split
  · exact hone _ _ (hone s b h)
  · exact hone s b h

/-- **An entry is taken off the list.** -/
theorem IesInv.unlink (h : IesInv s held) (hinv : PendInv s pending) (lib : RbLib)
    (hb : b ∈ s.bssList) : IesInv (unlinkBss lib s b).1 held := by
  rcases unlinkBss_eq lib s b with ⟨-, heq⟩ | ⟨-, heq⟩
  · rw [heq]
    exact h
  have hlive := TableInv.live_of_listed hinv hb
  have hsame : ∀ x, (s.bss x).SameIes ((unlinked lib s b).bss x) ∧
      (unlinked lib s b).link x = s.link x ∧
      ((unlinked lib s b).bss x).transmittedBss = (s.bss x).transmittedBss := by
    intro x
    obtain ⟨r, heq, -⟩ := unlinked_entry lib s b x
    rw [Rdev.link, heq]
    exact ⟨.refl _, rfl, rfl⟩
  have hfields : (unlinked lib s b).live = s.live ∧ (unlinked lib s b).freed = s.freed ∧
      (unlinked lib s b).freshIes = s.freshIes := by
    rw [unlinked]
    split <;> exact ⟨rfl, rfl, rfl⟩
  have hun : IesInv (unlinked lib s b) held :=
    h.congr hfields.1 (fun x => (hsame x).1) hfields.2.1 hfields.2.2
  rw [heq]
  refine hun.put (hfields.1 ▸ hlive) ?_ ?_
  · rw [(hsame b).1.2.2.2, (hsame b).2.2]
    exact hinv.one b hlive
  · intro p hp
    rw [(hsame b).2.1] at hp
    rw [hfields.1, (hsame p).2.1]
    exact hinv.counted.target b hlive p hp

/-- **Old entries are taken off the list.** -/
theorem IesInv.expire (h : IesInv s held) (hinv : PendInv s pending) (lib : RbLib)
    (expireTime : UInt64) : IesInv (bssExpire lib s expireTime) held := by
  refine (bssExpire_invariant (fun s' => PendInv s' pending ∧ IesInv s' held) ⟨hinv, h⟩
    (fun s' h' => h'.1.nodup) ?_ expireTime).2
  exact fun s' b h' hb => ⟨h'.1.unlink lib hb, h'.2.unlink h'.1 lib hb⟩

/-! ### Known entries -/

/-- The buffer, if there is one. -/
abbrev idOf (ies : Option BssIes) : List ℕ := (ies.map BssIes.id).toList

/-- **An entry gets elements of a probe response.** Nobody else has to be told. -/
theorem IesInv.setProberesp (ies : BssIes) (h : IesInv s {ies.id}) (hb : b ∈ s.live)
    (hlive : s'.live = s.live) (hfresh : s'.freshIes = s.freshIes)
    (hfreed : s'.freed = s.freed ++ idOf (s.bss b).proberespIes)
    (hother : ∀ x, x ≠ b → (s.bss x).SameIes (s'.bss x))
    (hself : Bss.SameIes { s.bss b with ies := some ies, proberespIes := some ies } (s'.bss b)) :
    IesInv s' 0 := by
  have hbeacon : ∀ x, (s'.bss x).beaconIes = (s.bss x).beaconIes ∧
      (s'.bss x).hiddenBeaconBss = (s.bss x).hiddenBeaconBss := by
    intro x
    by_cases hx : x = b
    · subst hx
      exact ⟨hself.2.1, hself.2.2.2⟩
    · exact ⟨(hother x hx).2.1, (hother x hx).2.2.2⟩
  constructor
  · rw [Rdev.Owned, hlive, hfresh, hfreed, ← coe_add]
    refine Owned.change h.owned hb (fun x hx => congrArg _ (hother x hx).ownIes) ?_
    rw [hself.ownIes, Bss.ownIes, Bss.ownIes, ← coe_add, ← coe_add]
    show _ + ({ies.id} : Multiset ℕ) + _ + 0 = _
    abel
  · intro x hx
    by_cases hxb : x = b
    · subst hxb
      exact .inr (hself.1.trans hself.2.2.1.symm)
    · rw [(hother x hxb).1, (hother x hxb).2.1, (hother x hxb).2.2.1]
      exact h.shown x (hlive ▸ hx)
  · intro x hx p hp
    rw [(hbeacon x).1, (hbeacon p).1]
    obtain ⟨hsame, hies⟩ := h.member x (hlive ▸ hx) p ((hbeacon x).2.symm.trans hp)
    refine ⟨hsame, ?_⟩
    by_cases hxb : x = b
    · subst hxb
      exact hself.1.trans hself.2.2.1.symm
    · rw [(hother x hxb).1, (hother x hxb).2.2.1]
      exact hies

/-- **An entry gets elements of a beacon**, and all who point to it. -/
theorem IesInv.setBeacon (ies : BssIes) (shown : Option BssIes) (h : IesInv s {ies.id})
    (hinv : PendInv s pending) (hb : b ∈ s.live) (hhidden : (s.bss b).hiddenBeaconBss = none)
    (hlive : s'.live = s.live) (hfresh : s'.freshIes = s.freshIes)
    (hfreed : s'.freed = s.freed ++ idOf (s.bss b).beaconIes)
    (hother : ∀ x ∈ s.live, x ≠ b → (s.bss x).hiddenBeaconBss ≠ some b → (s.bss x).SameIes (s'.bss x))
    (hmember : ∀ x ∈ s.live, (s.bss x).hiddenBeaconBss = some b →
      Bss.SameIes { s.bss x with beaconIes := some ies } (s'.bss x))
    (hshown : shown = some ies ∨ shown = (s.bss b).proberespIes)
    (hself : Bss.SameIes { s.bss b with ies := shown, beaconIes := some ies } (s'.bss b)) :
    IesInv s' 0 := by
  -- who points to a hidden beacon does not own its elements
  have hown : ∀ x ∈ s.live, x ≠ b → (s'.bss x).ownIes = (s.bss x).ownIes := by
    intro x hx hxb
    by_cases hp : (s.bss x).hiddenBeaconBss = some b
    · rw [(hmember x hx hp).ownIes, Bss.ownIes, Bss.ownIes, hp]
      rfl
    · exact (hother x hx hxb hp).ownIes
  have hsame : ∀ x ∈ s.live, x ≠ b → (s'.bss x).ies = (s.bss x).ies ∧
      (s'.bss x).proberespIes = (s.bss x).proberespIes ∧
      (s'.bss x).hiddenBeaconBss = (s.bss x).hiddenBeaconBss := by
    intro x hx hxb
    by_cases hp : (s.bss x).hiddenBeaconBss = some b
    · exact ⟨(hmember x hx hp).1, (hmember x hx hp).2.2.1, (hmember x hx hp).2.2.2⟩
    · exact ⟨(hother x hx hxb hp).1, (hother x hx hxb hp).2.2.1, (hother x hx hxb hp).2.2.2⟩
  constructor
  · rw [Rdev.Owned, hlive, hfresh, hfreed, ← coe_add]
    have howned : Owners.Owned s.live (fun x => if x = b then ((s'.bss b).ownIes : Multiset ℕ)
        else (s.bss x).ownIes) (s.freed + idOf (s.bss b).beaconIes) 0 (Multiset.range s.freshIes) := by
      refine Owned.change h.owned hb (fun x hx => if_neg hx) ?_
      rw [if_pos rfl, hself.ownIes, Bss.ownIes, Bss.ownIes, hhidden, ← coe_add,
        ← coe_add]
      show ({ies.id} : Multiset ℕ) + _ + _ + 0 = (idOf (s.bss b).beaconIes : Multiset ℕ) + _ + _
      abel
    refine howned.congr fun x hx => ?_
    by_cases hxb : x = b
    · rw [if_pos hxb, hxb]
    · rw [if_neg hxb, hown x hx hxb]
  · intro x hx
    rw [hlive] at hx
    by_cases hxb : x = b
    · subst hxb
      rw [hself.1, hself.2.1, hself.2.2.1]
      exact hshown
    by_cases hp : (s.bss x).hiddenBeaconBss = some b
    · rw [(hsame x hx hxb).1, (hsame x hx hxb).2.1]
      exact .inr (h.member x hx b hp).2
    · rw [(hother x hx hxb hp).1, (hother x hx hxb hp).2.1, (hother x hx hxb hp).2.2.1]
      exact h.shown x hx
  · intro x hx p hp
    rw [hlive] at hx
    have hxb : x ≠ b := by
      rintro rfl
      rw [hself.2.2.2] at hp
      exact some_ne_none p (hp.symm.trans hhidden)
    rw [(hsame x hx hxb).2.2] at hp
    rw [(hsame x hx hxb).1, (hsame x hx hxb).2.1]
    refine ⟨?_, (h.member x hx p hp).2⟩
    by_cases hpb : p = b
    · subst hpb
      rw [(hmember x hx hp).2.1, hself.2.1]
    · obtain ⟨hplive, hlink⟩ := hinv.counted.target x hx p (link_of_hidden hp)
      have hpnone := (link_eq_none_iff.mp hlink).1
      have hxp : (s.bss x).hiddenBeaconBss ≠ some b := fun heq =>
        hpb (some.inj (hp.symm.trans heq))
      have hpp : (s.bss p).hiddenBeaconBss ≠ some b := fun heq =>
        some_ne_none b (heq.symm.trans hpnone)
      rw [(hother x hx hxb hxp).2.1, (hother p hplive hpb hpp).2.1]
      exact (h.member x hx p hp).1

variable {tmp : InformBss}

/-- An entry on the list that is told of in a beacon, which is not dropped, points to no other. -/
theorem Rdev.Groups.hidden_eq_none (h : s.Groups s.listed) (hinv : PendInv s pending)
    (hb : b ∈ s.bssList) (hbeacon : tmp.isProberesp = false) (hnot : ¬ Dropped s b tmp) :
    (s.bss b).hiddenBeaconBss = none := by
  by_contra hsome
  obtain ⟨p, hp⟩ := ne_none_iff_exists'.mp hsome
  have htarget := hinv.counted.target b (TableInv.live_of_listed hinv hb)
  have hlink := link_of_hidden hp
  refine hnot ⟨hbeacon, hsome, Bool.eq_false_iff.mpr fun hempty => ?_⟩
  exact hiddenListEmpty_iff.mp hempty p (htarget p hlink).1 (ne_of_link htarget hlink)
    (h.member b hb p hp).symm

/-- **A known entry is told of.** -/
theorem IesInv.updateKnown (h : IesInv s {tmp.ies.id}) (hinv : PendInv s pending)
    (hgroups : s.Groups s.listed) (hb : b ∈ s.bssList)
    (hok : tmp.isProberesp = false → ∀ m ∈ s.live, (s.bss m).hiddenBeaconBss = some b → m ∈ s.bssList) :
    IesInv (updateKnownBss s b tmp).1 0 := by
  have hlive := TableInv.live_of_listed hinv hb
  by_cases hdropped : Dropped s b tmp
  · have hcond : ((s.bss b).hiddenBeaconBss.isSome && !s.hiddenListEmpty b) = true := by
      rw [Bool.and_eq_true, isSome_iff_ne_none, Bool.not_eq_true']
      exact hdropped.2
    rw [updateKnownBss, if_neg (Bool.eq_false_iff.mp hdropped.1), if_pos hcond]
    refine h.shrink subset_rfl (fun _ => .refl _) ?_
    rw [Rdev.Owned, Rdev.kfree, ← coe_add]
    exact Owned.drop h.owned
  cases hpresp : tmp.isProberesp with
  | true =>
    rw [updateKnownBss, if_pos hpresp]
    refine h.setProberesp tmp.ies hlive rfl rfl rfl (fun x hx => sameIes_upd s hx _ _) ?_
    simp [Rdev.kfree, Rdev.upd, refreshBss, Bss.SameIes]
  | false =>
    have hhidden := hgroups.hidden_eq_none hinv hb hpresp hdropped
    have hcond : ¬ ((s.bss b).hiddenBeaconBss.isSome && !s.hiddenListEmpty b) = true := by
      rw [hhidden]
      exact Bool.false_ne_true
    -- the ring is what points to the entry
    have hring : ∀ x ∈ s.live, x ≠ b → ((s.bss x).ring = (s.bss b).ring ↔
        (s.bss x).hiddenBeaconBss = some b) := by
      intro x hx hxb
      refine ⟨fun heq => ?_, fun hp => hgroups.member x (hok hpresp x hx hp) b hp⟩
      rcases hgroups.mates x hx b hlive hxb heq with hmate | hmate | ⟨p, -, hmate⟩
      · exact hmate
      · rw [hhidden] at hmate
        cases hmate
      · rw [hhidden] at hmate
        cases hmate
    rw [updateKnownBss, if_neg (Bool.eq_false_iff.mp hpresp), if_neg hcond]
    refine h.setBeacon tmp.ies (if (s.bss b).beaconIes = (s.bss b).ies then some tmp.ies
      else (s.bss b).ies) hinv hlive hhidden rfl rfl rfl (fun x hx hxb hp => ?_) (fun x hx hp => ?_) ?_ ?_
    · have hnot : (s.bss x).ring ≠ (s.bss b).ring := fun heq => hp ((hring x hx hxb).mp heq)
      simp [Rdev.kfree, Rdev.upd, hxb, hnot, Bss.SameIes]
    · have hxb : x ≠ b := by
        rintro rfl
        rw [hhidden] at hp
        cases hp
      have hmate := (hring x hx hxb).mpr hp
      simp [Rdev.kfree, Rdev.upd, hxb, hx, hmate, Bss.SameIes]
    · split
      · exact .inl rfl
      · rename_i hne
        exact .inr ((h.shown b hlive).resolve_left (Ne.symm hne))
    · simp [Rdev.kfree, Rdev.upd, hlive, refreshBss, Bss.SameIes]

theorem IesInv.alloc (h : IesInv s 0) : IesInv { s with freshIes := s.freshIes + 1 } {s.freshIes} := by
  refine ⟨?_, h.shown, h.member⟩
  rw [Rdev.Owned, range_succ]
  exact Owned.add h.owned s.freshIes

theorem keeps_freshIes (s : Rdev) (n : ℕ) : s.Keeps { s with freshIes := n } :=
  ⟨rfl, rfl, rfl, rfl, rfl, rfl, rfl, fun _ => ⟨.refl _, rfl⟩⟩

/-- **An entry gets elements that its BSS has not told.** -/
theorem IesInv.notlisted {frame : MbssFrame} (h : IesInv s 0) (hinv : PendInv s pending)
    (hb : b ∈ s.live)
    (hok : ((s.bss b).getIe WLAN_EID_SSID).bind (notlistedIes frame.ie) ≠ none → frame.alloc = true →
      frame.isProberesp = false →
      (s.bss b).hiddenBeaconBss = none ∧ ∀ m ∈ s.live, (s.bss m).hiddenBeaconBss ≠ some b) :
    IesInv (updateNotlisted s b frame) 0 := by
  rw [updateNotlisted]
  split
  · exact h
  rename_i data hdata
  split
  · exact h
  rename_i halloc
  have hnew := h.alloc
  dsimp only
  split
  · refine IesInv.setProberesp ⟨s.freshIes, data, frame.tsf⟩ hnew hb rfl rfl rfl
      (fun x hx => sameIes_upd _ hx _ _) ?_
    simp [Rdev.kfree, Rdev.upd, Bss.SameIes]
  · rename_i hbeacon
    obtain ⟨hhidden, hno⟩ := hok (hdata ▸ some_ne_none data) (by simpa using halloc)
      (Bool.eq_false_iff.mpr hbeacon)
    refine IesInv.setBeacon ⟨s.freshIes, data, frame.tsf⟩ _ hnew (hinv.keeps (keeps_freshIes s _))
      hb hhidden rfl rfl rfl (fun x _ hx _ => sameIes_upd _ hx _ _)
      (fun x hx hp => absurd hp (hno x hx)) (.inl rfl) ?_
    simp [Rdev.kfree, Rdev.upd, Bss.SameIes]

/-! ### New entries -/

theorem Combines.ies {x : ℕ} (hcomb : Combines s tmp x) :
    (s.bss x).hiddenBeaconBss = none ∧ (s.bss x).beaconIes = none ∧ (s.bss x).ies ≠ none := by
  obtain ⟨-, -, ssid, -, hcomb⟩ := hcomb
  simp only [combines, Bool.and_eq_true, isNone_iff_eq_none] at hcomb
  obtain ⟨⟨⟨-, hbeacon⟩, hssid⟩, hhidden⟩ := hcomb
  refine ⟨hhidden, hbeacon, fun hnone => ?_⟩
  rw [Bss.getIe, hnone] at hssid
  cases hssid

theorem IsNew.new_ies (hnew : IsNew s tmp s') :
    (s'.bss s.fresh).ies = some tmp.ies ∧ (s'.bss s.fresh).ownIes = [tmp.ies.id] ∧
      (tmp.isProberesp = true → (s'.bss s.fresh).proberespIes = some tmp.ies) ∧
      (tmp.isProberesp = false → (s'.bss s.fresh).beaconIes = some tmp.ies ∧
        (s'.bss s.fresh).hiddenBeaconBss = none) := by
  obtain ⟨c, ⟨heq, -⟩ | ⟨p, hjoin, -, heq⟩⟩ := hnew.new
  · rw [heq]
    cases hpresp : tmp.isProberesp <;> simp [InformBss.toBss, Bss.ownIes, hpresp]
  · rw [heq]
    simp [InformBss.toBss, Bss.ownIes, hjoin.1]

variable {limit : ℤ}

/-- **A new entry owns what is told of it.** -/
theorem IesInv.newBss (h : IesInv s {tmp.ies.id}) (hinv : PendInv s 0)
    (hok : LinkOk limit s tmp) : IesInv (Mac80211.newBss s tmp) 0 := by
  obtain ⟨hfresh, hlisted, hnew⟩ := hinv.isNew tmp
  generalize Mac80211.newBss s tmp = s₁ at hnew
  obtain ⟨hies, hown, hproberesp, hbeacon⟩ := hnew.new_ies
  have hne : ∀ x ∈ s.live, x ≠ s.fresh := fun x hx heq => hfresh (heq ▸ hx)
  have hlive : s₁.live = insert s.fresh s.live := by rw [hnew.eq]
  -- those that are combined show their probe responses
  have hold : ∀ x ∈ s.live, (s.bss x).SameIes (s₁.bss x) ∨
      Combines s tmp x ∧ (s₁.bss x).hiddenBeaconBss = some s.fresh ∧
        (s₁.bss x).beaconIes = some tmp.ies ∧ (s₁.bss x).proberespIes = (s.bss x).proberespIes ∧
        (s₁.bss x).ies = (s.bss x).proberespIes := by
    intro x hx
    obtain ⟨c, heq | ⟨hcomb, heq⟩⟩ := hnew.old x (hne x hx)
    · rw [heq]
      exact .inl (.refl _)
    · obtain ⟨-, hnone, hsome⟩ := hcomb.ies
      refine .inr ⟨hcomb, ?_⟩
      rw [heq]
      exact ⟨rfl, rfl, rfl, (h.shown x hx).resolve_left fun hshown => hsome (hshown.trans hnone)⟩
  constructor
  · have howned : Owners.Owned s.live (fun b => ((s₁.bss b).ownIes : Multiset ℕ)) s.freed {tmp.ies.id}
        (Multiset.range s.freshIes) := by
      refine Owned.congr h.owned fun x hx => congrArg _ ?_
      rcases hold x hx with hsame | ⟨hcomb, hhidden, -, hresp, -⟩
      · exact hsame.ownIes
      · rw [Bss.ownIes, Bss.ownIes, hhidden, hresp, hcomb.ies.1, hcomb.ies.2.1]
        rfl
    have hfields : s₁.freed = s.freed ∧ s₁.freshIes = s.freshIes := by
      rw [hnew.eq]
      exact ⟨rfl, rfl⟩
    rw [Rdev.Owned, hlive, hfields.1, hfields.2]
    refine Owned.insert ?_ hfresh
    rw [hown]
    exact howned
  · intro x hx
    rw [hlive] at hx
    rcases Finset.mem_insert.mp hx with rfl | hx
    · rw [hies]
      cases hpresp : tmp.isProberesp with
      | true => exact .inr (hproberesp hpresp).symm
      | false => exact .inl (hbeacon hpresp).1.symm
    · rcases hold x hx with hsame | ⟨-, -, -, hresp, hshown⟩
      · rw [hsame.1, hsame.2.1, hsame.2.2.1]
        exact h.shown x hx
      · exact .inr (hshown.trans hresp.symm)
  · intro x hx p hp
    rw [hlive] at hx
    rcases Finset.mem_insert.mp hx with rfl | hx
    · obtain ⟨c, ⟨heq, -⟩ | ⟨q, hjoin, hqn, heq⟩⟩ := hnew.new
      · rw [heq] at hp
        cases hp
      · obtain rfl : q = p := by
          rw [heq] at hp
          exact some.inj hp
        refine ⟨?_, hies.trans (hproberesp hjoin.1).symm⟩
        obtain ⟨c', heq' | ⟨hcomb, -⟩⟩ := hnew.old q hqn
        · rw [heq, heq']
        · exact absurd hcomb hjoin.not_combines
    · rcases hold x hx with hsame | ⟨hcomb, hhidden, hsame, hresp, hshown⟩
      · rw [hsame.2.2.2] at hp
        obtain ⟨hbeacon', hshown⟩ := h.member x hx p hp
        have hplive := (hinv.counted.target x hx p (link_of_hidden hp)).1
        rw [hsame.1, hsame.2.1, hsame.2.2.1]
        refine ⟨?_, hshown⟩
        rcases hold p hplive with hpsame | ⟨hcomb, -⟩
        · rw [hpsame.2.1]
          exact hbeacon'
        · exact absurd (link_of_hidden hp) ((hok.combines p hcomb).2.2 x hx)
      · obtain rfl : s.fresh = p := some.inj (hhidden.symm.trans hp)
        exact ⟨hsame.trans (hbeacon hcomb.1).1.symm, hshown.trans hresp.symm⟩

/-- The table is not full, or something can be taken off the list for the new entry. -/
def RoomOk (limit : ℤ) (s : Rdev) (tmp : InformBss) : Prop :=
  limit ≤ s.bssEntries → ∃ b, Evictable s b ∧ ¬ Joins s tmp b

theorem IesInv.link (h : IesInv s held) (lib : RbLib) (tmp : InformBss) {n : ℕ}
    (htrans : (s.bss n).transmittedBss = none) : IesInv (linkBss lib s tmp n) held := by
  obtain ⟨c, hc⟩ := linkBss_eq lib tmp htrans
  rw [hc]
  exact h.congr rfl (fun _ => .refl _) rfl rfl

variable {lib : RbLib}

/-- **An update.** -/
theorem IesInv.update {alloc : Bool}
    (h : IesInv s {tmp.ies.id}) (hinv : PendInv s 0) (hgroups : s.Groups s.listed)
    (hok : rbFindBss s tmp.toBss .regular = none → alloc = true → LinkOk limit s tmp)
    (hroom : rbFindBss s tmp.toBss .regular = none → alloc = true → RoomOk limit s tmp)
    (hknown : ∀ known, rbFindBss s tmp.toBss .regular = some known → tmp.isProberesp = false →
      ∀ m ∈ s.live, (s.bss m).hiddenBeaconBss = some known → m ∈ s.bssList) :
    IesInv (bssUpdate lib limit s tmp alloc).1 0 := by
  rcases bssUpdate_cases lib limit s tmp alloc with
    ⟨found, hfound, ⟨-, heq⟩ | ⟨-, heq⟩⟩ | ⟨hnone, ⟨-, heq⟩ | ⟨halloc, hnew⟩⟩
  · rw [heq]
    have hlisted := TableInv.mem_of_rbFindBss hinv hfound
    exact (h.updateKnown hinv hgroups hlisted (hknown found hfound)).get found
  · rw [heq]
    have hlisted := TableInv.mem_of_rbFindBss hinv hfound
    exact h.updateKnown hinv hgroups hlisted (hknown found hfound)
  · rw [heq]
    refine h.shrink subset_rfl (fun _ => .refl _) ?_
    rw [Rdev.Owned, Rdev.kfree, ← coe_add]
    exact Owned.drop h.owned
  have hok := hok hnone halloc
  obtain ⟨hpend, -, hlist, hentries⟩ := hinv.newBss hok
  rcases hnew with ⟨s₂, hmakes, heq⟩ | ⟨hfull, hold, heq⟩
  · rw [heq]
    have hmaking := making_of_makesRoom hgroups hinv hok hmakes
    refine IesInv.link ?_ lib tmp hmaking.transmitted
    rcases hmakes with ⟨-, rfl⟩ | ⟨-, b, hb, -, rfl⟩
    · exact h.newBss hinv hok
    · exact (h.newBss hinv hok).unlink hpend lib (mem_of_oldestBss hb)
  · obtain ⟨b, hb, hnot⟩ := hroom hnone halloc (hentries ▸ hfull)
    exact absurd hold (oldestBss_ne_none (evictable_newBss hinv hok hb hnot))

/-! ### Runs -/

/-- **What a step must find.** If the elements of a hidden beacon are replaced, all who point to it
are on the list; those made of a frame are not for hidden networks; there is room for new entries.
-/
def IesCond (limit : ℤ) (s : Rdev) (os : List Empty) : IesOp → Prop
  | .table op => BssCond limit s os op ∧
    match op with
    | .update tmp alloc =>
      (rbFindBss s tmp.toBss .regular = none → alloc = true → RoomOk limit s tmp) ∧
        ∀ known, rbFindBss s tmp.toBss .regular = some known → tmp.isProberesp = false →
          ∀ m ∈ s.live, (s.bss m).hiddenBeaconBss = some known → m ∈ s.bssList
    | _ => True
  | .notlisted b frame =>
    ((s.bss b).getIe WLAN_EID_SSID).bind (notlistedIes frame.ie) ≠ none → frame.alloc = true →
      frame.isProberesp = false →
      (s.bss b).hiddenBeaconBss = none ∧ ∀ m ∈ s.live, (s.bss m).hiddenBeaconBss ≠ some b

/-- The buffers, and what the table rests on. -/
structure BufferInv (s : Rdev) : Prop where
  inv : PendInv s 0
  groups : s.Groups s.listed
  ies : IesInv s 0

variable {os o : List Empty}

theorem BufferInv.update {alloc : Bool}
    (h : BufferInv s) (hcond : IesCond limit s os (.table (.update tmp alloc)))
    (hstep : iesStep lib limit s (.table (.update tmp alloc)) = some (s', o)) : BufferInv s' := by
  have hkeeps := keeps_freshIes s (s.freshIes + 1)
  have hinv := h.inv.keeps hkeeps
  have hgroups := h.groups.keeps hkeeps
  -- nothing but the account depends on the number of buffers
  have hlink : BssCond limit { s with freshIes := s.freshIes + 1 } os (.update tmp alloc) := by
    intro hfind halloc
    obtain ⟨hjoins, hcombines, htrans, hroom⟩ := hcond.1 hfind halloc
    exact ⟨hjoins, hcombines, htrans, hroom⟩
  rw [iesStep, ite_none_right_eq_some] at hstep
  obtain ⟨hid, hstep⟩ := hstep
  refine ⟨hinv.step hlink hstep, hgroups.step hinv hlink hstep, ?_⟩
  rw [bssStep, ite_none_right_eq_some] at hstep
  obtain ⟨-, hstep⟩ := hstep
  cases hstep
  have halloc : IesInv { s with freshIes := s.freshIes + 1 } {tmp.ies.id} := hid ▸ h.ies.alloc
  exact (halloc.update hinv hgroups hlink hcond.2.1 hcond.2.2).handOut

theorem BufferInv.table (lib : RbLib) {op : BssOp} (h : BufferInv s)
    (hnot : ∀ tmp alloc, op ≠ .update tmp alloc) (hcond : BssCond limit s os op)
    (hstep : bssStep lib limit s op = some (s', o)) : BufferInv s' := by
  refine ⟨h.inv.step hcond hstep, h.groups.step h.inv hcond hstep, ?_⟩
  cases op <;>
    simp only [bssStep, ite_none_right_eq_some, Option.some.injEq, Prod.mk.injEq] at hstep
  case update tmp alloc => exact absurd rfl (hnot tmp alloc)
  case get q =>
    obtain ⟨rfl, -⟩ := hstep
    refine IesInv.handOut ?_
    rw [getBss]
    split
    · exact h.ies.get _
    · exact h.ies
  case ref b =>
    obtain ⟨-, rfl, -⟩ := hstep
    exact IesInv.handOut (r := (bssRefGet s b, some b)) (h.ies.get b)
  case put b =>
    obtain ⟨hb, rfl, -⟩ := hstep
    have hlive := TableInv.live_of_refs h.inv hb
    have hrefs : IesInv { s with refs := Function.update s.refs b (s.refs b - 1) } 0 :=
      h.ies.congr rfl (fun _ => .refl _) rfl rfl
    exact hrefs.put hlive (h.inv.one b hlive) (h.inv.counted.target b hlive)
  case unlink b =>
    obtain ⟨hb, rfl, -⟩ := hstep
    exact h.ies.unlink h.inv lib hb
  case expire expireTime =>
    obtain ⟨rfl, -⟩ := hstep
    exact h.ies.expire h.inv lib expireTime
  case hold b =>
    obtain ⟨-, rfl, -⟩ := hstep
    exact h.ies.hold b 1
  case unhold b =>
    obtain ⟨-, rfl, -⟩ := hstep
    exact h.ies.hold b (-1)

/-- **One step.** -/
theorem BufferInv.step {op : IesOp} (h : BufferInv s)
    (hcond : IesCond limit s os op) (hstep : iesStep lib limit s op = some (s', o)) : BufferInv s' := by
  rcases op with op | ⟨b, frame⟩
  · cases op with
    | update tmp alloc => exact h.update hcond hstep
    | _ => exact h.table lib (fun _ _ heq => by cases heq) hcond.1 hstep
  · rw [iesStep, ite_none_right_eq_some] at hstep
    obtain ⟨hb, hstep⟩ := hstep
    cases hstep
    have hkeeps := keeps_updateNotlisted s b frame
    exact ⟨h.inv.keeps hkeeps, h.groups.keeps hkeeps, h.ies.notlisted h.inv hb hcond⟩

theorem bufferInv_empty : BufferInv {} :=
  ⟨pendInv_empty, groups_empty.congr subset_rfl (fun _ => ⟨rfl, rfl⟩) nofun, rfl, nofun, nofun⟩

/-- **Buffers are valid as long as an entry has them, and freed once.** -/
theorem iesOk_of_reach {lib : RbLib} {limit : ℤ} {os : List Empty}
    (h : Reach (iesStep lib limit) (IesCond limit) {} s os) : IesOk s := by
  have hinv : BufferInv s := by
    refine h.invariant (fun s _ => BufferInv s) bufferInv_empty ?_
    intro s os op s' o hinv hcond hstep
    exact hinv.step hcond hstep
  exact hinv.ies.iesOk hinv.inv

instance (limit : ℤ) (s : Rdev) (tmp : InformBss) : Decidable (RoomOk limit s tmp) :=
  decidable_of_iff (limit ≤ s.bssEntries → ∃ b ∈ s.bssList, Evictable s b ∧ ¬ Joins s tmp b)
    (forall_congr' fun _ => ⟨fun ⟨b, _, hb⟩ => ⟨b, hb⟩, fun ⟨b, hb⟩ => ⟨b, hb.1.1, hb⟩⟩)

instance (limit : ℤ) (s : Rdev) (os : List Empty) (op : IesOp) : Decidable (IesCond limit s os op) :=
  match op with
  | .table (.update ..) => inferInstanceAs (Decidable (_ ∧ _ ∧ ∀ known ∈ rbFindBss s _ .regular, _))
  | .table (.get _) | .table (.ref _) | .table (.put _) | .table (.unlink _) | .table (.expire _)
  | .table (.hold _) | .table (.unhold _) => inferInstanceAs (Decidable (_ ∧ True))
  | .notlisted .. => inferInstanceAs (Decidable (_ → _))

/-- This buffer holds what is told. -/
def InformBss.inBuffer (tmp : InformBss) (id : ℕ) : InformBss := { tmp with ies := { tmp.ies with id := id } }

/-- A hidden network shows its SSID; its beacon is told of again; a frame tells nothing of another BSS;
and all entries go. -/
def buffersRun : List IesOp :=
  [.table (.update ((informBss 9 false [] none).inBuffer 0) true), .table (.put 0),
    .table (.update ((informBss 9 true [65] none).inBuffer 1) true), .table (.put 1),
    .table (.update ((informBss 9 false [] none).inBuffer 2) true), .table (.put 0),
    .table (.update ((informBss 12 false [66] none).inBuffer 3) true),
    .notlisted 2 { isProberesp := false, ie := [0, 1, 65, 71, 1, 1] }, .table (.put 2),
    .table (.unlink 1), .table (.unlink 0), .table (.unlink 2)]

theorem iesOk_buffersRun : ∃ s os, Reach (iesStep plainRb 1000) (IesCond 1000) {} s os ∧
    s.live = ∅ ∧ s.freed = [0, 3, 1, 2, 4] ∧ IesOk s := by
  have hmeets : Meets (iesStep plainRb 1000) (IesCond 1000) {} [] buffersRun := by decide +kernel
  have hrun : (run (iesStep plainRb 1000) {} buffersRun).map (fun r => (r.1.live, r.1.freed)) =
      some (∅, [0, 3, 1, 2, 4]) := by
    decide +kernel
  obtain ⟨⟨s, os⟩, hs, hfields⟩ := map_eq_some_iff.mp hrun
  simp only [Prod.mk.injEq] at hfields
  have hreach := Reach.of_run .init hmeets hs
  exact ⟨s, os, hreach, hfields.1, hfields.2, iesOk_of_reach hreach⟩

/-- A caller has an entry of a hidden network that was unlinked, and its beacon is told of again. -/
def unlinkedMember : List IesOp :=
  [.table (.update ((informBss 9 false [] none).inBuffer 0) true),
    .table (.update ((informBss 9 true [65] none).inBuffer 1) true), .table (.unlink 1),
    .table (.update ((informBss 9 false [] none).inBuffer 2) true)]

/-- **The entry still shows the elements that have been freed.** -/
theorem unlinked_member_keeps_freed_elements : ∃ s os,
    Reach (iesStep plainRb 1000) (fun _ _ _ => True) {} s os ∧ ¬ IesOk s := by
  have hrun : (run (iesStep plainRb 1000) {} unlinkedMember).map
      (fun r => (r.1.live, r.1.freed, ((r.1.bss 1).beaconIes.map BssIes.id))) =
        some ({0, 1}, [0], some 0) := by
    decide +kernel
  obtain ⟨⟨s, os⟩, hs, hfields⟩ := map_eq_some_iff.mp hrun
  simp only [Prod.mk.injEq] at hfields
  obtain ⟨hlive, hfreed, hbeacon⟩ := hfields
  refine ⟨s, os, Reach.of_run_init hs, fun hok => ?_⟩
  obtain ⟨ies, hies, hid⟩ := map_eq_some_iff.mp hbeacon
  refine hok.valid 1 (by rw [hlive]; decide) ies (.inr (.inl hies)) ?_
  rw [hfreed, hid]
  decide

end Mac80211
