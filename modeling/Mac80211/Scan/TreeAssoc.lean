import Mac80211.Scan.TreeInvariant

/-!
# The BSS of a connection finds its new place

`cfg80211_update_assoc_bss_entry` changes what the order looks at while the entry is in the tree. It
comes to its place if the order tells it apart from all that are in the tree at that time, and so do
those on its list.

## Main results

* `TreeInv.assoc`
-/

namespace Mac80211

open Machine ListHead List Function

variable {s s' : Rdev} {e e' : Bss} {out : List ℕ} {b c n : ℕ}

/-! ### What the order is made of -/

/-- The fields that the order looks at. -/
structure Bss.SameKey (e e' : Bss) : Prop where
  bssid : e'.bssid = e.bssid
  channel : e'.channel = e.channel
  capability : e'.capability = e.capability
  ies : e'.ies = e.ies

theorem Bss.SameKey.refl (e : Bss) : e.SameKey e := ⟨rfl, rfl, rfl, rfl⟩

theorem Bss.SameKey.trans {f : Bss} (h : e.SameKey e') (h' : e'.SameKey f) : e.SameKey f :=
  ⟨h'.bssid.trans h.bssid, h'.channel.trans h.channel, h'.capability.trans h.capability, h'.ies.trans h.ies⟩

theorem Bss.SameKey.place (h : e.SameKey e') : e.SamePlace e' :=
  .of_fields h.bssid h.channel h.capability h.ies

/-- On another channel. -/
def Bss.onChannel (e : Bss) (channel : Channel) : Bss := { e with channel := channel }

theorem Bss.SameKey.onChannel (h : e.SameKey e') (channel : Channel) :
    (e.onChannel channel).SameKey (e'.onChannel channel) :=
  ⟨h.bssid, rfl, h.capability, h.ies⟩

/-- **The order tells these apart**, and it is an order for them. -/
def Bss.Apart (e e' : Bss) : Prop := e.Agrees e' ∧ e'.rank ≠ e.rank

theorem Bss.Apart.congr {f f' : Bss} (h : e.Apart e') (hf : e.SameKey f) (hf' : e'.SameKey f') :
    f.Apart f' := by
  refine ⟨h.1.congr hf.place hf'.place, ?_⟩
  rw [hf.place.rank, hf'.place.rank]
  exact h.2

/-! ### Entries that are out of place -/

theorem reinsertBss_eq (lib : RbLib) (s : Rdev) (b : ℕ) :
    reinsertBss lib s b = { s with bssTree := (reinsertBss lib s b).bssTree } := by
  rw [reinsertBss]
  exact rbInsertBss_eq lib _ b

/-- **An entry that is out of place is put in its place.** -/
theorem TreeInv.reinsert (h : TreeInv s [c]) (lib : RbLib) (hc : c ∈ s.bssList) (hies : (s.bss c).ies ≠ none)
    (hapart : ∀ b ∈ s.bssList, b ≠ c → (s.bss c).Apart (s.bss b)) : TreeInv (reinsertBss lib s c) [] := by
  have htree := h.treeNodup
  have herase : (lib.erase s.bssTree c).toList = s.bssTree.toList.filter (· ∉ [c]) := by
    rw [lib.toList_erase, htree.erase_eq_filter]
    refine filter_congr fun b _ => ?_
    rw [Bool.eq_iff_iff]
    simp
  have hmem : ∀ b ∈ (lib.erase s.bssTree c).toList, b ∈ s.bssList ∧ b ≠ c := by
    intro b hb
    rw [herase] at hb
    obtain ⟨hb, hnot⟩ := mem_filter.mp hb
    exact ⟨h.tree.mem_iff.mp hb, fun heq => of_decide_eq_true hnot (heq ▸ mem_cons_self)⟩
  have hordered : Rdev.Ordered { s with bssTree := lib.erase s.bssTree c }
      (lib.erase s.bssTree c).toList := by
    rw [herase]
    exact h.ordered.congr fun b _ => .of_fields rfl rfl rfl rfl
  obtain ⟨hinsert, hperm⟩ := hordered.insert lib hies (n := c)
    (fun b hb => (hapart b (hmem b hb).1 (hmem b hb).2).1) fun b hb => (hapart b (hmem b hb).1 (hmem b hb).2).2
  have hperm' : (reinsertBss lib s c).bssTree.toList.Perm s.bssList := by
    refine hperm.trans (List.Perm.trans ?_ h.tree)
    show (c :: (lib.erase s.bssTree c).toList).Perm s.bssTree.toList
    rw [lib.toList_erase]
    exact (perm_cons_erase (h.tree.mem_iff.mpr hc)).symm
  rw [reinsertBss_eq]
  refine ⟨h.nodup, h.fresh, h.ring, h.entries, hperm', ?_⟩
  exact (hinsert.sublist filter_sublist).congr fun b _ => .of_fields rfl rfl rfl rfl

/-! ### What the step must find -/

/-- The list of an entry. -/
def Rdev.listOf (s : Rdev) (t : ℕ) : List ℕ := (walk s.nontrans t s.fuel (s.nontrans.next t)).getD []

/-- What an entry is when it has taken over what another one has. -/
def takenOver (s : Rdev) (c n : ℕ) : Bss :=
  match (s.bss n).told with
  | some tmp => if Dropped s c tmp then s.bss c else (s.bss c).retold tmp.capability (iesAfter s c tmp)
  | none => (s.bss c).retold (s.bss n).capability (s.bss c).ies

/-- What an entry will be. -/
def movedBss (s : Rdev) (channel : Channel) (c : ℕ) (new : Option ℕ) (b : ℕ) : Bss :=
  if b = c then new.elim (s.bss c) (takenOver s c) else (s.bss b).onChannel channel

/-- The entry goes with the one for the new channel. -/
def GoesWith (s : Rdev) (new : Option ℕ) (b : ℕ) : Prop :=
  ∃ n ∈ new, b ∈ n :: s.listOf n ∧ ¬ s.Refuses b

/-- **What the step must find**: the list of the BSS is proper, and that of the entry for the new
channel is another one; each entry comes to a place of its own. -/
structure ChangeOk (s : Rdev) (channel : Channel) (c : ℕ) (new : Option ℕ) : Prop where
  ring : s.nontrans.Ring c (s.listOf c)
  listed : ∀ m ∈ c :: s.listOf c, m ∈ s.bssList
  newRing : ∀ n ∈ new, s.nontrans.Ring n (s.listOf n)
  newListed : ∀ n ∈ new, ∀ x ∈ n :: s.listOf n, x ∈ s.bssList ∧ x ∉ c :: s.listOf c
  order : (c :: s.listOf c).Pairwise fun m m' =>
    (movedBss s channel c new m).Apart (s.bss m') ∧
      (movedBss s channel c new m').Apart (movedBss s channel c new m)
  place : ∀ m ∈ c :: s.listOf c, ∀ b ∈ s.bssList, b ∉ c :: s.listOf c → ¬ GoesWith s new b →
    (movedBss s channel c new m).Apart (s.bss b)

/-- The BSS that transmits. -/
def Rdev.assocBss (s : Rdev) (cur : ℕ) : ℕ := (s.bss cur).transmittedBss.getD cur

/-- **What the step must find**, if the channel is another one. -/
def AssocOk (s : Rdev) (cur : ℕ) (channel : Channel) (bssType : BssType) : Prop :=
  (s.bss cur).channel ≠ channel →
    ChangeOk (setChannel s channel (s.assocBss cur)) channel (s.assocBss cur)
      (assocNew (setChannel s channel (s.assocBss cur)) (s.assocBss cur) bssType)

/-! ### The entry for the new channel goes -/

theorem unlinked_ring (lib : RbLib) (s : Rdev) (b x : ℕ) :
    ((unlinked lib s b).bss x).ring = (s.bss x).ring ∨
      x = b ∧ ((unlinked lib s b).bss x).ring = s.fresh := by
  rw [unlinked]
  split
  · exact .inl rfl
  · by_cases hx : x = b
    · subst hx
      exact .inr ⟨rfl, by simp [Rdev.hiddenListDel, Rdev.upd]⟩
    · exact .inl (by simp [Rdev.hiddenListDel, Rdev.upd, hx])

theorem refuses_of_unlinkBss {lib : RbLib} {x : ℕ} (hxb : x ≠ b) (hx : (s.bss x).ring < s.fresh)
    (h : (unlinkBss lib s b).1.Refuses x) : s.Refuses x := by
  rcases unlinkBss_cases lib s b with ⟨-, heq⟩ | ⟨-, -, hrec⟩
  · rw [heq] at h
    exact h
  obtain ⟨c, freed, heq⟩ := hrec.eq
  have hring : ∀ y, ((unlinkBss lib s b).1.bss y).ring = ((unlinked lib s b).bss y).ring := by
    intro y
    rw [heq]
    rfl
  have hxring : ((unlinkBss lib s b).1.bss x).ring = (s.bss x).ring :=
    (hring x).trans ((unlinked_ring lib s b x).resolve_right fun hboth => hxb hboth.1)
  obtain ⟨hrefuses, hhidden⟩ := h
  obtain ⟨k, r, hentry⟩ := unlinkBss_entry lib s b x
  rw [hentry] at hhidden
  refine ⟨Bool.eq_false_iff.mpr fun hempty => Bool.eq_false_iff.mp hrefuses ?_, hhidden⟩
  rw [hiddenListEmpty_iff] at hempty ⊢
  intro y hy hyx
  rw [hxring, hring]
  rcases unlinked_ring lib s b y with heq | ⟨-, heq⟩
  · rw [heq]
    exact hempty y (unlinkBss_live lib s b hy) hyx
  · rw [heq]
    exact hx.ne'

/-- The loop so far: `todo` is what is left of the list. -/
structure Clearing (s₀ : Rdev) (c n : ℕ) (ms ns : List ℕ) (s : Rdev) (todo : List ℕ) : Prop where
  inv : TreeInv s [c]
  ring : ∃ kept, s.nontrans.Ring n (kept ++ todo) ∧ ∀ x ∈ kept ++ todo, x ∈ ns
  other : s.nontrans.Ring c ms
  listed : ∀ x, x ∈ n :: todo ∨ x ∈ c :: ms → x ∈ s.bssList
  sub : ∀ x ∈ s.bssList, x ∈ s₀.bssList
  refused : ∀ x ∈ s.bssList, s.Refuses x → s₀.Refuses x
  left : ∀ x ∈ ns, x ∉ todo → x ∈ s.bssList → s₀.Refuses x
  entry : ∀ x, (s₀.bss x).SameKey (s.bss x)

/-- **One round.** -/
theorem Clearing.step {s₀ : Rdev} {ms ns todo : List ℕ} {x : ℕ} (lib : RbLib)
    (hdisj : ∀ y ∈ n :: ns, y ∉ c :: ms) (h : Clearing s₀ c n ms ns s (x :: todo)) :
    x ≠ n ∧ s.nontrans.next x = todo.headD n ∧ Clearing s₀ c n ms ns (unlinkBss lib s x).1 todo := by
  obtain ⟨kept, hring, hns⟩ := h.ring
  have hxmem : x ∈ kept ++ x :: todo := mem_append_right _ mem_cons_self
  have hxn : x ≠ n := fun heq => (nodup_cons.mp hring.nodup).1 (heq ▸ hxmem)
  have hx := h.listed x (.inl (mem_cons_of_mem n mem_cons_self))
  have hxtodo : x ∉ todo :=
    (nodup_cons.mp (nodup_append.mp (nodup_cons.mp hring.nodup).2).2.1).1
  have hmem : ∀ y, y ∈ (unlinkBss lib s x).1.bssList ↔ y ∈ s.bssList ∧ (y = x → s.Refuses x) :=
    fun y => mem_bssList_unlinkBss h.inv.nodup
  have hdisj' : ∀ y ∈ c :: ms, y ∉ n :: (kept ++ x :: todo) := fun y hy hy' =>
    hdisj y ((mem_cons.mp hy').elim (fun heq => heq ▸ mem_cons_self)
      fun hy' => mem_cons_of_mem n (hns y hy')) hy
  refine ⟨hxn, (seg_append.mp hring.seg).2.next_eq, h.inv.unlink lib hx, ?_, ?_, fun y hy => ?_,
    fun y hy => h.sub y ((hmem y).mp hy).1, fun y hy hyrefuses => ?_, fun y hy hytodo hylist => ?_, fun y => ?_⟩
  · rcases unlinkBss_cases lib s x with ⟨-, heq⟩ | ⟨hnot, -⟩
    · refine ⟨kept ++ [x], ?_⟩
      rw [heq, append_assoc]
      exact ⟨hring, hns⟩
    · refine ⟨kept, ?_, fun y hy => hns y ?_⟩
      · rw [(unlinks_of_not_refuses lib hnot).nontrans]
        exact hring.delInit
      · rw [mem_append] at hy ⊢
        exact hy.imp_right (mem_cons_of_mem x)
  · rcases unlinkBss_cases lib s x with ⟨-, heq⟩ | ⟨hnot, -⟩
    · rw [heq]
      exact h.other
    · rw [(unlinks_of_not_refuses lib hnot).nontrans]
      exact h.other.delInit_of_disjoint hring (mem_cons_of_mem n hxmem) hdisj'
  · refine (hmem y).mpr ⟨h.listed y ?_, ?_⟩
    · refine hy.imp_left fun hy => ?_
      rcases mem_cons.mp hy with rfl | hy
      · exact mem_cons_self
      · exact mem_cons_of_mem n (mem_cons_of_mem x hy)
    · rintro rfl
      rcases hy with hy | hy
      · rcases mem_cons.mp hy with rfl | hy
        · exact absurd rfl hxn
        · exact absurd hy hxtodo
      · exact absurd (mem_cons_of_mem n hxmem) (hdisj' y hy)
  · have hy' := (hmem y).mp hy
    by_cases hyx : y = x
    · subst hyx
      exact h.refused y hx (hy'.2 rfl)
    · exact h.refused y hy'.1 (refuses_of_unlinkBss hyx (h.inv.ring y hy'.1) hyrefuses)
  · obtain ⟨hylist, hrefuses⟩ := (hmem y).mp hylist
    by_cases hyx : y = x
    · subst hyx
      exact h.refused y hx (hrefuses rfl)
    · refine h.left y hy (fun hmem => ?_) hylist
      exact (mem_cons.mp hmem).elim hyx hytodo
  · obtain ⟨k, r, heq⟩ := unlinkBss_entry lib s x y
    rw [heq]
    exact ⟨(h.entry y).bssid, (h.entry y).channel, (h.entry y).capability, (h.entry y).ies⟩

/-! ### What the entry has is taken over -/

theorem updateFromEntry_cases (s : Rdev) (c n : ℕ) :
    (∃ tmp, (s.bss n).told = some tmp ∧ updateFromEntry s c n = updateKnownBss s c tmp) ∨
      (s.bss n).told = none ∧ updateFromEntry s c n =
        (s.upd c fun e => { e with capability := (s.bss n).capability, ts := (s.bss n).ts }, true) := by
  rw [updateFromEntry]
  cases htold : (s.bss n).told with
  | some tmp => exact .inl ⟨tmp, rfl, rfl⟩
  | none => exact .inr ⟨rfl, rfl⟩

theorem keeps_updateFromEntry (s : Rdev) (c n : ℕ) : s.Keeps (updateFromEntry s c n).1 := by
  rcases updateFromEntry_cases s c n with ⟨tmp, -, heq⟩ | ⟨-, heq⟩
  · rw [heq]
    exact keeps_updateKnownBss s c tmp
  · rw [heq]
    refine keeps_upd (f := fun e => { e with capability := (s.bss n).capability, ts := (s.bss n).ts }) s c ?_
    exact fun e => ⟨⟨rfl, rfl, rfl, rfl⟩, rfl⟩

theorem updateFromEntry_self (s : Rdev) (c n : ℕ) :
    (takenOver s c n).SameKey ((updateFromEntry s c n).1.bss c) := by
  rw [takenOver]
  rcases updateFromEntry_cases s c n with ⟨tmp, htold, heq⟩ | ⟨htold, heq⟩
  · rw [heq, htold]
    dsimp only
    split
    · rename_i hdropped
      have hcond : ((s.bss c).hiddenBeaconBss.isSome && !s.hiddenListEmpty c) = true := by
        rw [Bool.and_eq_true, Option.isSome_iff_ne_none, Bool.not_eq_true']
        exact hdropped.2
      rw [updateKnownBss, if_neg (Bool.eq_false_iff.mp hdropped.1), if_pos hcond]
      exact .refl _
    · rename_i hnot
      obtain ⟨bi, pi, hself⟩ := updateKnownBss_self s c tmp hnot
      rw [hself]
      exact ⟨rfl, rfl, rfl, rfl⟩
  · rw [heq, htold]
    simp only [Rdev.upd, update_self]
    exact ⟨rfl, rfl, rfl, rfl⟩

theorem updateFromEntry_of_ne (s : Rdev) (n : ℕ) (hb : b ≠ c) :
    (s.bss b).SameKey ((updateFromEntry s c n).1.bss b) := by
  rcases updateFromEntry_cases s c n with ⟨tmp, -, heq⟩ | ⟨-, heq⟩
  · obtain ⟨bi, hother⟩ := updateKnownBss_of_ne s tmp hb
    rw [heq, hother]
    exact ⟨rfl, rfl, rfl, rfl⟩
  · rw [heq]
    simp only [Rdev.upd, update_of_ne hb]
    exact .refl _

/-- The entry for the new channel has no elements any more, unless they have been dropped. -/
def tookOver (s : Rdev) (c n : ℕ) : Rdev :=
  if (updateFromEntry s c n).2 then
    (updateFromEntry s c n).1.upd n fun e => { e with proberespIes := none, beaconIes := none }
  else (updateFromEntry s c n).1

theorem unlinkNew_eq (lib : RbLib) (s : Rdev) (c n : ℕ) : unlinkNew lib s c n =
    (forEachSafe Rdev.nontrans (fun s m => (unlinkBss lib s m).1) n (tookOver s c n).fuel (tookOver s c n)
      ((tookOver s c n).nontrans.next n)
      ((tookOver s c n).nontrans.next ((tookOver s c n).nontrans.next n))).map
        fun s => (unlinkBss lib s n).1 := rfl

theorem keeps_tookOver (s : Rdev) (c n : ℕ) : s.Keeps (tookOver s c n) := by
  rw [tookOver]
  split
  · refine (keeps_updateFromEntry s c n).trans (keeps_upd _ n ?_)
    exact fun e => ⟨⟨rfl, rfl, rfl, rfl⟩, rfl⟩
  · exact keeps_updateFromEntry s c n

theorem updateFromEntry_sameKey (s : Rdev) (c n b : ℕ) :
    ((updateFromEntry s c n).1.bss b).SameKey ((tookOver s c n).bss b) := by
  rw [tookOver]
  split
  · by_cases hbn : b = n
    · subst hbn
      simp only [Rdev.upd, update_self]
      exact ⟨rfl, rfl, rfl, rfl⟩
    · simp only [Rdev.upd, update_of_ne hbn]
      exact .refl _
  · exact .refl _

theorem Rdev.Keeps.refuses_iff (h : s.Keeps s') : s'.Refuses b ↔ s.Refuses b := by
  have hring : ∀ x, (s'.bss x).ring = (s.bss x).ring := fun x => (h.entry x).2
  rw [Rdev.Refuses, Rdev.Refuses, Rdev.hiddenListEmpty, Rdev.hiddenListEmpty, h.live, (h.entry b).1.1]
  simp only [hring]

/-- The entry for the new channel has gone, and the rest is as it was, but for what is taken over. -/
structure Cleared (s : Rdev) (channel : Channel) (c : ℕ) (new : Option ℕ) (s' : Rdev) : Prop where
  inv : TreeInv s' [c]
  ring : s'.nontrans.Ring c (s.listOf c)
  listed : ∀ m ∈ c :: s.listOf c, m ∈ s'.bssList
  sub : ∀ b ∈ s'.bssList, b ∈ s.bssList ∧ ¬ GoesWith s new b
  self : (movedBss s channel c new c).SameKey (s'.bss c)
  others : ∀ b, b ≠ c → (s.bss b).SameKey (s'.bss b)

theorem TreeInv.listOf_length_lt (h : TreeInv s out) {t : ℕ} (hring : s.nontrans.Ring t (s.listOf t))
    (hlisted : ∀ m ∈ s.listOf t, m ∈ s.bssList) : (s.listOf t).length < s.fuel :=
  length_lt_fuel_of_lt (nodup_cons.mp hring.nodup).2 fun m hm => h.fresh m (hlisted m hm)

variable {channel : Channel}

theorem ChangeOk.cleared_none (hok : ChangeOk s channel c none) (h : TreeInv s [c]) :
    Cleared s channel c none s := by
  refine ⟨h, hok.ring, hok.listed, fun b hb => ⟨hb, ?_⟩, ?_, fun b _ => .refl _⟩
  · rintro ⟨n, hn, -⟩
    cases hn
  · rw [movedBss, if_pos rfl]
    exact .refl _

theorem clearing_start (hok : ChangeOk s channel c (some n)) (h : TreeInv s [c]) :
    Clearing (tookOver s c n) c n (s.listOf c) (s.listOf n) (tookOver s c n) (s.listOf n) := by
  have hkeeps := keeps_tookOver s c n
  refine ⟨?_, ⟨[], ?_, fun x hx => hx⟩, ?_, fun x hx => ?_, fun x hx => hx, fun _ _ hx => hx,
    fun x hx hnot => absurd hx hnot, fun x => .refl _⟩
  · refine h.keeps_out hkeeps (List.Subset.refl _) fun b _ hb => ?_
    have hbc : b ≠ c := fun heq => hb (heq ▸ mem_cons_self)
    exact ((updateFromEntry_of_ne s n hbc).trans (updateFromEntry_sameKey s c n b)).place
  · rw [hkeeps.nontrans]
    exact hok.newRing n rfl
  · rw [hkeeps.nontrans]
    exact hok.ring
  · rw [hkeeps.list]
    exact hx.elim (fun hx => (hok.newListed n rfl x hx).1) fun hx => hok.listed x hx

/-- **The entry for the new channel goes.** -/
theorem ChangeOk.cleared (lib : RbLib) (hok : ChangeOk s channel c (some n)) (h : TreeInv s [c])
    (hstep : unlinkNew lib s c n = some s') : Cleared s channel c (some n) s' := by
  have hkeeps := keeps_tookOver s c n
  have hdisj : ∀ y ∈ n :: s.listOf n, y ∉ c :: s.listOf c := fun y hy => (hok.newListed n rfl y hy).2
  have hstart := clearing_start hok h
  have hring := hok.newRing n rfl
  have hlt := h.listOf_length_lt hring fun m hm => (hok.newListed n rfl m (mem_cons_of_mem n hm)).1
  have hfuel : (tookOver s c n).fuel = s.fuel := by rw [Rdev.fuel, Rdev.fuel, hkeeps.fresh]
  rw [unlinkNew_eq, hfuel, hkeeps.nontrans, hring.seg.next_eq,
    forEachSafe_eq_foldl (Clearing (tookOver s c n) c n (s.listOf c) (s.listOf n))
      (fun _ _ _ => Clearing.step lib hdisj) hstart hlt fun _ => by rw [hkeeps.nontrans]] at hstep
  replace hstep := Option.some.inj hstep
  dsimp only at hstep
  have hdone : Clearing (tookOver s c n) c n (s.listOf c) (s.listOf n)
      ((s.listOf n).foldl (fun s m => (unlinkBss lib s m).1) (tookOver s c n)) [] := by
    have hfold : ∀ (todo : List ℕ) (s₁ : Rdev),
        Clearing (tookOver s c n) c n (s.listOf c) (s.listOf n) s₁ todo →
        Clearing (tookOver s c n) c n (s.listOf c) (s.listOf n)
          (todo.foldl (fun s m => (unlinkBss lib s m).1) s₁) [] := by
      intro todo
      induction todo with
      | nil => exact fun _ h₁ => h₁
      | cons x todo ih => exact fun s₁ h₁ => ih _ (h₁.step lib hdisj).2.2
    exact hfold _ _ hstart
  generalize (s.listOf n).foldl (fun s m => (unlinkBss lib s m).1) (tookOver s c n) = s₁ at hdone hstep
  subst hstep
  have hn := hdone.listed n (.inl mem_cons_self)
  obtain ⟨kept, hringn, hkept⟩ := hdone.ring
  have hmem : ∀ y, y ∈ (unlinkBss lib s₁ n).1.bssList ↔ y ∈ s₁.bssList ∧ (y = n → s₁.Refuses n) :=
    fun y => mem_bssList_unlinkBss hdone.inv.nodup
  have hkey : ∀ b, ((tookOver s c n).bss b).SameKey ((unlinkBss lib s₁ n).1.bss b) := by
    intro b
    obtain ⟨k, r, heq⟩ := unlinkBss_entry lib s₁ n b
    rw [heq]
    exact ⟨(hdone.entry b).bssid, (hdone.entry b).channel, (hdone.entry b).capability, (hdone.entry b).ies⟩
  refine ⟨hdone.inv.unlink lib hn, ?_, fun m hm => ?_, fun b hb => ?_, ?_, fun b hb => ?_⟩
  · rcases unlinkBss_cases lib s₁ n with ⟨-, heq⟩ | ⟨hnot, -⟩
    · rw [heq]
      exact hdone.other
    · rw [(unlinks_of_not_refuses lib hnot).nontrans]
      refine hdone.other.delInit_of_disjoint hringn mem_cons_self fun y hy hy' => hdisj y ?_ hy
      exact (mem_cons.mp hy').elim (fun heq => heq ▸ mem_cons_self)
        fun hy' => mem_cons_of_mem n (hkept y hy')
  · refine (hmem m).mpr ⟨hdone.listed m (.inr hm), ?_⟩
    rintro rfl
    exact absurd hm (hdisj m mem_cons_self)
  · obtain ⟨hb₁, hrefuses⟩ := (hmem b).mp hb
    refine ⟨hkeeps.list ▸ hdone.sub b hb₁, ?_⟩
    rintro ⟨n', hn', hbn, hnot⟩
    obtain rfl : n = n' := Option.some.inj hn'
    refine hnot (hkeeps.refuses_iff.mp ?_)
    rcases mem_cons.mp hbn with rfl | hbn
    · exact hdone.refused b hb₁ (hrefuses rfl)
    · exact hdone.left b hbn not_mem_nil hb₁
  · rw [movedBss, if_pos rfl]
    exact ((updateFromEntry_self s c n).trans (updateFromEntry_sameKey s c n c)).trans (hkey c)
  · exact ((updateFromEntry_of_ne s n hb).trans (updateFromEntry_sameKey s c n b)).trans (hkey b)

/-! ### The entries move -/

variable {new : Option ℕ}

theorem movedBss_self_shown (h : (s.bss c).ies ≠ none) :
    (movedBss s channel c new c).ies ≠ none := by
  rw [movedBss, if_pos rfl]
  cases new with
  | none => exact h
  | some n =>
    show (takenOver s c n).ies ≠ none
    rw [takenOver]
    split
    · split
      · exact h
      · rw [Bss.retold, iesAfter]
        dsimp only
        split
        · exact Option.some_ne_none _
        · exact h
    · exact h

theorem movedBss_of_ne (hb : b ≠ c) :
    movedBss s channel c new b = (s.bss b).onChannel channel := if_neg hb

/-- The entries in `done` have moved, the others have not. -/
structure Moving (s : Rdev) (channel : Channel) (c : ℕ) (new : Option ℕ) (done : List ℕ) (s' : Rdev) :
    Prop where
  inv : TreeInv s' []
  ring : s'.nontrans.Ring c (s.listOf c)
  listed : ∀ m ∈ c :: s.listOf c, m ∈ s'.bssList
  sub : ∀ b ∈ s'.bssList, b ∈ s.bssList ∧ ¬ GoesWith s new b
  moved : ∀ b ∈ done, (movedBss s channel c new b).SameKey (s'.bss b)
  still : ∀ b, b ∉ done → (s.bss b).SameKey (s'.bss b)

variable {done todo : List ℕ}

/-- The next entry to move is told apart from those that have moved, and from those that have not. -/
theorem ChangeOk.apart {m : ℕ}
    (hok : ChangeOk s channel c new) (hlist : c :: s.listOf c = done ++ m :: todo) (hb : b ∈ s.bssList)
    (hstays : ¬ GoesWith s new b) (hbm : b ≠ m) :
    (b ∈ done → (movedBss s channel c new m).Apart (movedBss s channel c new b)) ∧
      (b ∉ done → (movedBss s channel c new m).Apart (s.bss b)) := by
  have horder := hok.order
  have hplace := hok.place m (by rw [hlist]; simp) b hb
  rw [hlist] at horder hplace
  obtain ⟨-, htodo, hdone⟩ := pairwise_append.mp horder
  refine ⟨fun hb => (hdone b hb m mem_cons_self).2, fun hnot => ?_⟩
  by_cases hbtodo : b ∈ todo
  · exact ((pairwise_cons.mp htodo).1 b hbtodo).1
  · refine hplace (fun hmem => ?_) hstays
    rcases mem_append.mp hmem with hmem | hmem
    · exact hnot hmem
    · exact (mem_cons.mp hmem).elim hbm hbtodo

/-- **An entry is put in its new place.** -/
theorem ChangeOk.reinsert {m : ℕ} (lib : RbLib)
    (hok : ChangeOk s channel c new) (hlist : c :: s.listOf c = done ++ m :: todo) (h : TreeInv s' [m])
    (hring : s'.nontrans.Ring c (s.listOf c)) (hlisted : ∀ m ∈ c :: s.listOf c, m ∈ s'.bssList)
    (hsub : ∀ b ∈ s'.bssList, b ∈ s.bssList ∧ ¬ GoesWith s new b)
    (hshown : (movedBss s channel c new m).ies ≠ none)
    (hself : (movedBss s channel c new m).SameKey (s'.bss m))
    (hmoved : ∀ b ∈ done, (movedBss s channel c new b).SameKey (s'.bss b))
    (hstill : ∀ b, b ≠ m → b ∉ done → (s.bss b).SameKey (s'.bss b)) :
    Moving s channel c new (done ++ [m]) (reinsertBss lib s' m) := by
  have hm : m ∈ c :: s.listOf c := by
    rw [hlist]
    simp
  have hies : (s'.bss m).ies ≠ none := by
    rw [hself.ies]
    exact hshown
  have hinv : TreeInv (reinsertBss lib s' m) [] := by
    refine h.reinsert lib (hlisted m hm) hies fun b hb hbm => ?_
    obtain ⟨hbs, hstays⟩ := hsub b hb
    obtain ⟨hdone, hnot⟩ := hok.apart hlist hbs hstays hbm
    by_cases hbd : b ∈ done
    · exact (hdone hbd).congr hself (hmoved b hbd)
    · exact (hnot hbd).congr hself (hstill b hbm hbd)
  have heq := reinsertBss_eq lib s' m
  refine ⟨hinv, ?_, ?_, ?_, fun b hb => ?_, fun b hb => ?_⟩ <;> rw [heq]
  · exact hring
  · exact hlisted
  · exact hsub
  · rcases mem_append.mp hb with hb | hb
    · exact hmoved b hb
    · rw [mem_singleton.mp hb]
      exact hself
  · rw [mem_append, mem_singleton, not_or] at hb
    exact hstill b hb.2 hb.1

theorem keeps_setChannel (s : Rdev) (channel : Channel) (b : ℕ) : s.Keeps (setChannel s channel b) := by
  refine keeps_upd (f := fun e => { e with channel := channel }) s b ?_
  exact fun e => ⟨⟨rfl, rfl, rfl, rfl⟩, rfl⟩

theorem setChannel_self (s : Rdev) (channel : Channel) (b : ℕ) :
    (setChannel s channel b).bss b = (s.bss b).onChannel channel := update_self ..

theorem setChannel_of_ne (s : Rdev) (channel : Channel) {x : ℕ} (hx : x ≠ b) :
    (setChannel s channel b).bss x = s.bss x := update_of_ne hx ..

theorem TreeInv.setChannel (h : TreeInv s []) (channel : Channel) (b : ℕ) :
    TreeInv (Mac80211.setChannel s channel b) [b] := by
  refine h.keeps_out (keeps_setChannel s channel b) (nil_subset _) fun x _ hx => ?_
  rw [mem_singleton] at hx
  rw [setChannel_of_ne s channel hx]
  exact .of_fields rfl rfl rfl rfl

/-- **One round.** -/
theorem Moving.step {m : ℕ} (lib : RbLib)
    (hok : ChangeOk s channel c new) (hlist : c :: s.listOf c = done ++ m :: todo) (hmc : m ≠ c)
    (h : Moving s channel c new done s') :
    Moving s channel c new (done ++ [m]) (reinsertBss lib (setChannel s' channel m) m) := by
  have hkeeps := keeps_setChannel s' channel m
  have hm : m ∈ c :: s.listOf c := by
    rw [hlist]
    simp
  have hmdone : m ∉ done := by
    have hnodup := hok.ring.nodup
    rw [hlist] at hnodup
    exact fun hmem => (nodup_append.mp hnodup).2.2 m hmem m mem_cons_self rfl
  have hself : (movedBss s channel c new m).SameKey ((setChannel s' channel m).bss m) := by
    rw [movedBss_of_ne hmc, setChannel_self]
    exact (h.still m hmdone).onChannel channel
  refine hok.reinsert lib hlist (h.inv.setChannel channel m) ?_ ?_ ?_ ?_ hself (fun b hb => ?_) fun b hbm hb => ?_
  · rw [hkeeps.nontrans]
    exact h.ring
  · rw [hkeeps.list]
    exact h.listed
  · rw [hkeeps.list]
    exact h.sub
  · rw [movedBss_of_ne hmc]
    show (s.bss m).ies ≠ none
    rw [← (h.still m hmdone).ies]
    exact h.inv.ordered_all.shown m (h.inv.tree.mem_iff.mpr (h.listed m hm))
  · have hbm : b ≠ m := fun heq => hmdone (heq ▸ hb)
    rw [setChannel_of_ne s' channel hbm]
    exact h.moved b hb
  · rw [setChannel_of_ne s' channel hbm]
    exact h.still b hb

/-- **The loop.** -/
theorem Moving.foldl (lib : RbLib) (hok : ChangeOk s channel c new) :
    ∀ {todo done : List ℕ} {s' : Rdev}, c :: s.listOf c = done ++ todo → c ∈ done →
      Moving s channel c new done s' →
      Moving s channel c new (done ++ todo)
        (todo.foldl (fun s m => reinsertBss lib (setChannel s channel m) m) s')
  | [], done, s', _, _, h => by
    rw [append_nil]
    exact h
  | m :: todo, done, s', hlist, hc, h => by
    have hnodup := hok.ring.nodup
    rw [hlist] at hnodup
    have hmc : m ≠ c := fun heq => (nodup_append.mp hnodup).2.2 c hc m mem_cons_self heq.symm
    have hlist' : c :: s.listOf c = (done ++ [m]) ++ todo := hlist.trans (append_cons done m todo)
    rw [append_cons]
    exact Moving.foldl lib hok hlist' (mem_append_left _ hc) (h.step lib hok hlist hmc)

/-- **The BSS and those on its list come to their new places.** -/
theorem Cleared.move {s₁ : Rdev} (lib : RbLib)
    (hok : ChangeOk s channel c new) (hshown : (s.bss c).ies ≠ none) (h : Cleared s channel c new s₁)
    (hstep : moveBss lib s₁ channel c = some s') : TreeInv s' [] := by
  have hfirst : c :: s.listOf c = [] ++ c :: s.listOf c := rfl
  have hrest : c :: s.listOf c = [c] ++ s.listOf c := rfl
  have hstart : Moving s channel c new [c] (reinsertBss lib s₁ c) :=
    hok.reinsert lib hfirst h.inv h.ring h.listed h.sub (movedBss_self_shown hshown) h.self nofun
      fun b hbc _ => h.others b hbc
  have hring := hstart.ring
  have hlt : (s.listOf c).length < (reinsertBss lib s₁ c).fuel :=
    length_lt_fuel_of_lt (nodup_cons.mp hring.nodup).2 fun m hm =>
      hstart.inv.fresh m (hstart.listed m (mem_cons_of_mem c hm))
  rw [moveBss, hring.walk_eq hlt] at hstep
  cases hstep
  exact (Moving.foldl lib hok hrest mem_cons_self hstart).inv

/-- **The BSS of a connection changes its channel.** -/
theorem TreeInv.assoc {lib : RbLib} {cur : ℕ} {bssType : BssType} (h : TreeInv s [])
    (hok : AssocOk s cur channel bssType)
    (hstep : updateAssocBssEntry lib s cur channel bssType = some s') : TreeInv s' [] := by
  rw [updateAssocBssEntry] at hstep
  split at hstep
  · cases hstep
    exact h
  rename_i hchannel
  replace hok := hok hchannel
  have hinv := h.setChannel channel (s.assocBss cur)
  have hc : s.assocBss cur ∈ s.bssList := by
    have hlisted := hok.listed _ mem_cons_self
    rw [(keeps_setChannel s channel _).list] at hlisted
    exact hlisted
  have hshown : ((Mac80211.setChannel s channel (s.assocBss cur)).bss (s.assocBss cur)).ies ≠ none := by
    rw [setChannel_self]
    exact h.ordered_all.shown _ (h.tree.mem_iff.mpr hc)
  dsimp only at hstep
  obtain ⟨s₁, hs₁, hmove⟩ := Option.bind_eq_some_iff.mp hstep
  refine Cleared.move lib hok hshown ?_ hmove
  show Cleared _ _ _ (assocNew (Mac80211.setChannel s channel (s.assocBss cur)) (s.assocBss cur) bssType) s₁
  rw [← show s.assocBss cur = (s.bss cur).transmittedBss.getD cur from rfl] at hs₁
  cases hnew : assocNew (Mac80211.setChannel s channel (s.assocBss cur)) (s.assocBss cur) bssType with
  | none =>
    rw [hnew] at hs₁ hok
    cases hs₁
    exact hok.cleared_none hinv
  | some n =>
    rw [hnew] at hs₁ hok
    exact hok.cleared lib hinv hs₁

end Mac80211
