import Mac80211.Scan.Cases
import Mathlib.Data.Prod.Lex

/-!
# The order of the tree

`cmp_bss` compares two mesh BSSes of a channel by mesh ID and configuration, and all others, also a
mesh BSS with one that is none, by BSSID and SSID. It is an order on the BSSes of a channel only if
all of them are mesh BSSes or none is: then it compares ranks.

## Main definitions

* `Bss.rank`, `Rdev.Ordered`

## Main results

* `Rdev.Ordered.find`, `Rdev.Ordered.insert`
-/

namespace Mac80211

open Bytes List Option

variable {s s' : Rdev} {e e' : Bss} {b n : ℕ}

/-- The mesh ID and the mesh configuration of a mesh BSS. -/
def Bss.mesh (e : Bss) : Option (List UInt8 × List UInt8) :=
  if isStaBss e.capability then
    (e.getIe WLAN_EID_MESH_ID).bind fun id => (e.getIe WLAN_EID_MESH_CONFIG).map (Prod.mk id)
  else none

/-- What is compared of an SSID: none comes first, and long ones before short ones. -/
def ssidRank : Option (List UInt8) → ℤ ×ₗ ℤ ×ₗ ℤ
  | none => toLex (0, toLex (0, 0))
  | some ssid => toLex (1, toLex (-(ssid.length : ℤ), (beNat ssid : ℤ)))

/-- What is compared of a mesh ID and a mesh configuration. -/
def meshRank (m : List UInt8 × List UInt8) : ℤ ×ₗ ℤ ×ₗ ℤ ×ₗ ℤ :=
  toLex (-(m.1.length : ℤ), toLex ((beNat m.1 : ℤ), toLex (-(m.2.length : ℤ), (beNat m.2 : ℤ))))

/-- What is compared on one channel. -/
def Bss.name (e : Bss) : ℤ ×ₗ ℤ ×ₗ ℤ ×ₗ ℤ :=
  match e.mesh with
  | some m => meshRank m
  | none => toLex ((beNat e.bssid.toList : ℤ), ssidRank (e.getIe WLAN_EID_SSID))

/-- Where the entry should be in the tree. -/
def Bss.rank (e : Bss) : ℤ ×ₗ ℤ ×ₗ ℤ ×ₗ ℤ ×ₗ ℤ := toLex (-(e.channel.centerFreq : ℤ), e.name)

/-- The two are compared by the same things. -/
def Bss.Agrees (e e' : Bss) : Prop :=
  e.channel.centerFreq = e'.channel.centerFreq →
    e.channel = e'.channel ∧ e.mesh.isSome = e'.mesh.isSome

theorem Bss.Agrees.symm (h : e.Agrees e') : e'.Agrees e :=
  fun heq => ⟨(h heq.symm).1.symm, (h heq.symm).2.symm⟩

theorem Bss.Agrees.refl (e : Bss) : e.Agrees e := fun _ => ⟨rfl, rfl⟩

/-! ### Comparing ranks -/

theorem compare_toLex {α β : Type*} [LinearOrder α] [LinearOrder β] (a a' : α) (b b' : β) :
    compare (toLex (a, b)) (toLex (a', b')) = (compare a a').then (compare b b') := rfl

theorem compare_cast (a b : ℕ) : compare (a : ℤ) (b : ℤ) = compare a b := by
  rcases Nat.lt_trichotomy a b with h | rfl | h
  · rw [compare_lt_iff_lt.mpr h, compare_lt_iff_lt.mpr (Int.ofNat_lt.mpr h)]
  · rw [compare_eq_iff_eq.mpr rfl, compare_eq_iff_eq.mpr rfl]
  · rw [compare_gt_iff_gt.mpr h, compare_gt_iff_gt.mpr (Int.ofNat_lt.mpr h)]

theorem compare_neg_cast (a b : ℕ) : compare (-(a : ℤ)) (-(b : ℤ)) = compare b a := by
  rw [← compare_cast]
  rcases lt_trichotomy (b : ℤ) a with h | h | h
  · rw [compare_lt_iff_lt.mpr h, compare_lt_iff_lt.mpr (neg_lt_neg h)]
  · rw [h, compare_eq_iff_eq.mpr rfl, compare_eq_iff_eq.mpr rfl]
  · rw [compare_gt_iff_gt.mpr h, compare_gt_iff_gt.mpr (neg_lt_neg h)]

theorem cmpLen_eq (l l' : List UInt8) : cmpLen l l' =
    (compare (-(l.length : ℤ)) (-(l'.length : ℤ))).then (compare (beNat l : ℤ) (beNat l' : ℤ)) := by
  rw [cmpLen, compare_neg_cast, compare_cast]
  split
  · rename_i hne
    have hcmp : compare l'.length l.length ≠ .eq := fun heq => hne (compare_eq_iff_eq.mp heq).symm
    cases hlen : compare l'.length l.length with
    | eq => exact absurd hlen hcmp
    | lt => rfl
    | gt => rfl
  · rename_i heq
    rw [not_not] at heq
    rw [memcmp_eq_compare heq, heq, compare_eq_iff_eq.mpr rfl]
    rfl

theorem mesh_eq_some_iff {ies : BssIes} (hies : e.ies = some ies) {id conf : List UInt8} :
    e.mesh = some (id, conf) ↔ isStaBss e.capability = true ∧
      findIe WLAN_EID_MESH_ID ies.data = some id ∧ findIe WLAN_EID_MESH_CONFIG ies.data = some conf := by
  rw [Bss.mesh, Bss.getIe, Bss.getIe, hies]
  split
  · rename_i hsta
    simp [hsta, bind_eq_some_iff]
  · rename_i hsta
    simp [hsta]

theorem then_assoc (a b c : Ordering) : (a.then b).then c = a.then (b.then c) := by
  cases a <;> rfl

theorem cmpBssid_eq {ies ies' : BssIes} (hies : e.ies = some ies) (hies' : e'.ies = some ies')
    (hmesh : e.mesh = none) (hmesh' : e'.mesh = none) :
    cmpBssid e e' ies.data ies'.data .regular = compare e.name e'.name := by
  have hbssid : memcmp e.bssid.toList e'.bssid.toList =
      compare (beNat e.bssid.toList : ℤ) (beNat e'.bssid.toList : ℤ) := by
    rw [compare_cast, memcmp_eq_compare (by simp)]
  rw [cmpBssid, Bss.name, Bss.name, hmesh, hmesh']
  dsimp only
  rw [compare_toLex, ← hbssid, Bss.getIe, Bss.getIe, hies, hies']
  cases memcmp e.bssid.toList e'.bssid.toList with
  | lt => rfl
  | gt => rfl
  | eq =>
    dsimp only [bind_some]
    cases findIe WLAN_EID_SSID ies.data with
    | none => cases findIe WLAN_EID_SSID ies'.data <;> rfl
    | some ssid =>
      cases findIe WLAN_EID_SSID ies'.data with
      | none => rfl
      | some ssid' =>
        dsimp only
        rw [cmpLen_eq]
        rfl

/-- On one channel, mesh BSSes are compared with mesh BSSes and others with others. -/
theorem cmpBss_eq_name (hchannel : e.channel = e'.channel) (hies : e.ies ≠ none) (hies' : e'.ies ≠ none)
    (hmesh : e.mesh.isSome = e'.mesh.isSome) : cmpBss e e' .regular = compare e.name e'.name := by
  obtain ⟨ies, hies⟩ := ne_none_iff_exists'.mp hies
  obtain ⟨ies', hies'⟩ := ne_none_iff_exists'.mp hies'
  rw [cmpBss, if_neg (not_not.mpr hchannel), hies, hies']
  dsimp only
  cases hm : e.mesh with
  | some m =>
    obtain ⟨m', hm'⟩ : ∃ m', e'.mesh = some m' := by
      rw [← isSome_iff_exists, ← hmesh, hm]
      rfl
    obtain ⟨id, conf⟩ := m
    obtain ⟨id', conf'⟩ := m'
    obtain ⟨hsta, hid, hconf⟩ := (mesh_eq_some_iff hies).mp hm
    obtain ⟨hsta', hid', hconf'⟩ := (mesh_eq_some_iff hies').mp hm'
    rw [if_pos hsta, if_pos hsta', hid, hid']
    dsimp only
    rw [hconf, hconf']
    dsimp only
    rw [cmpLen_eq, cmpLen_eq, then_assoc, Bss.name, Bss.name, hm, hm']
    rfl
  | none =>
    have hm' : e'.mesh = none := by
      rw [← isNone_iff_eq_none, ← not_isSome, ← hmesh, hm]
      rfl
    rw [← cmpBssid_eq hies hies' hm hm']
    -- one of the two is no mesh BSS, so that it does not come to the configurations
    split
    · rename_i id id' hid hid'
      split
      · rename_i conf conf' hconf hconf'
        have hsta : isStaBss e.capability = true := by
          by_contra hnot
          rw [if_neg hnot] at hid
          cases hid
        rw [if_pos hsta] at hid
        have hsome := (mesh_eq_some_iff hies).mpr ⟨hsta, hid, hconf⟩
        rw [hm] at hsome
        cases hsome
      · rfl
    · rfl

/-- **The order compares ranks.** -/
theorem cmpBss_eq_compare (h : e.Agrees e') (hies : e.ies ≠ none) (hies' : e'.ies ≠ none) :
    cmpBss e e' .regular = compare e.rank e'.rank := by
  rw [Bss.rank, Bss.rank, compare_toLex, compare_neg_cast]
  by_cases hfreq : e.channel.centerFreq = e'.channel.centerFreq
  · obtain ⟨hchannel, hmesh⟩ := h hfreq
    rw [cmpBss_eq_name hchannel hies hies' hmesh, hfreq, compare_eq_iff_eq.mpr rfl]
    rfl
  · have hchannel : e.channel ≠ e'.channel := fun heq => hfreq (congrArg _ heq)
    have hcmp : compare e'.channel.centerFreq e.channel.centerFreq ≠ .eq :=
      fun heq => hfreq (compare_eq_iff_eq.mp heq).symm
    rw [cmpBss, if_pos hchannel]
    cases hfreqs : compare e'.channel.centerFreq e.channel.centerFreq with
    | eq => exact absurd hfreqs hcmp
    | lt => rfl
    | gt => rfl

/-! ### Trees -/

variable {cmp : ℕ → Ordering}

theorem cmp_of_find : ∀ {t : BssTree}, t.find cmp = some b → cmp b = .eq
  | .nil, h => by cases h
  | .node l c r, h => by
    rw [BssTree.find] at h
    split at h
    · rename_i heq
      cases h
      exact heq
    · exact cmp_of_find h
    · exact cmp_of_find h

/-- **The descent finds an entry** between those that are smaller and those that are larger. -/
theorem find_eq_some : ∀ {t : BssTree} {xs ys : List ℕ},
    t.toList = xs ++ b :: ys → (∀ x ∈ xs, cmp x = .gt) → cmp b = .eq → (∀ y ∈ ys, cmp y = .lt) →
      t.find cmp = some b
  | .nil, xs, ys, h, _, _, _ => by simp [BssTree.toList] at h
  | .node l c r, xs, ys, h, hxs, hb, hys => by
    rw [BssTree.toList] at h
    rw [BssTree.find]
    rcases append_eq_append_iff.mp h with ⟨zs, rfl, hzs⟩ | ⟨zs, hl, hzs⟩
    · rcases zs with _ | ⟨z, zs⟩
      · obtain ⟨rfl, -⟩ := List.cons.inj hzs
        rw [hb]
      · obtain ⟨rfl, hr⟩ := List.cons.inj hzs
        have hc : cmp c = .gt := hxs c (mem_append_right _ mem_cons_self)
        rw [hc]
        exact find_eq_some hr
          (fun x hx => hxs x (mem_append_right _ (mem_cons_of_mem c hx))) hb hys
    · rcases zs with _ | ⟨z, zs⟩
      · obtain ⟨rfl, -⟩ := List.cons.inj hzs
        rw [hb]
      · obtain ⟨rfl, rfl⟩ := List.cons.inj hzs
        have hc : cmp c = .lt := hys c (mem_append_right _ mem_cons_self)
        rw [hc]
        exact find_eq_some hl hxs hb fun y hy => hys y (mem_append_left _ hy)

/-- **The descent finds the place of an entry.** -/
theorem exists_insert : ∀ {t : BssTree} {xs ys : List ℕ},
    t.toList = xs ++ ys → (∀ x ∈ xs, cmp x = .gt) → (∀ y ∈ ys, cmp y = .lt) →
      ∃ t', t.insert cmp n = some t' ∧ t'.toList = xs ++ n :: ys
  | .nil, xs, ys, h, _, _ => by
    obtain ⟨rfl, rfl⟩ := append_eq_nil_iff.mp h.symm
    exact ⟨_, rfl, rfl⟩
  | .node l c r, xs, ys, h, hxs, hys => by
    rw [BssTree.toList] at h
    rw [BssTree.insert]
    rcases append_eq_append_iff.mp h with ⟨zs, rfl, hzs⟩ | ⟨zs, hl, rfl⟩
    · rcases zs with _ | ⟨z, zs⟩
      · obtain rfl : c :: r.toList = ys := hzs
        have hc : cmp c = .lt := hys c mem_cons_self
        obtain ⟨l', hl, hlist⟩ := exists_insert (show l.toList = l.toList ++ [] by simp)
          (fun x hx => hxs x (mem_append_left _ hx)) (fun _ hy => by cases hy)
        refine ⟨.node l' c r, ?_, ?_⟩
        · rw [hc, hl]
          rfl
        · simp [BssTree.toList, hlist]
      · obtain ⟨rfl, hr⟩ := List.cons.inj hzs
        have hc : cmp c = .gt := hxs c (mem_append_right _ mem_cons_self)
        obtain ⟨r', hr', hlist⟩ := exists_insert hr
          (fun x hx => hxs x (mem_append_right _ (mem_cons_of_mem c hx))) hys
        refine ⟨.node l c r', ?_, ?_⟩
        · rw [hc, hr']
          rfl
        · simp [BssTree.toList, hlist]
    · have hc : cmp c = .lt := hys c (mem_append_right _ mem_cons_self)
      obtain ⟨l', hl', hlist⟩ := exists_insert hl hxs
        fun y hy => hys y (mem_append_left _ hy)
      refine ⟨.node l' c r, ?_, ?_⟩
      · rw [hc, hl']
        rfl
      · simp [BssTree.toList, hlist]

/-- **These entries are in order.** -/
structure Rdev.Ordered (s : Rdev) (l : List ℕ) : Prop where
  shown : ∀ b ∈ l, (s.bss b).ies ≠ none
  agrees : ∀ a ∈ l, ∀ b ∈ l, (s.bss a).Agrees (s.bss b)
  sorted : l.Pairwise fun a b => (s.bss a).rank < (s.bss b).rank

theorem Rdev.Ordered.sublist {l l' : List ℕ} (h : s.Ordered l) (hsub : l'.Sublist l) : s.Ordered l' where
  shown := fun b hb => h.shown b (hsub.subset hb)
  agrees := fun a ha b hb => h.agrees a (hsub.subset ha) b (hsub.subset hb)
  sorted := h.sorted.sublist hsub

/-- What the order looks at. -/
structure Bss.SamePlace (e e' : Bss) : Prop where
  channel : e'.channel = e.channel
  mesh : e'.mesh.isSome = e.mesh.isSome
  rank : e'.rank = e.rank
  shown : e.ies ≠ none → e'.ies ≠ none

theorem Bss.SamePlace.of_fields (hbssid : e'.bssid = e.bssid) (hchannel : e'.channel = e.channel)
    (hcapability : e'.capability = e.capability) (hies : e'.ies = e.ies) : e.SamePlace e' := by
  have hmesh : e'.mesh = e.mesh := by rw [Bss.mesh, Bss.mesh, Bss.getIe, Bss.getIe, hcapability, hies]; rfl
  refine ⟨hchannel, congrArg _ hmesh, ?_, fun h => hies ▸ h⟩
  rw [Bss.rank, Bss.rank, Bss.name, Bss.name, hchannel, hmesh, Bss.getIe, Bss.getIe, hbssid, hies]

theorem Bss.Agrees.congr {f f' : Bss} (h : e.Agrees e') (hf : e.SamePlace f) (hf' : e'.SamePlace f') :
    f.Agrees f' := by
  rw [Bss.Agrees, hf.channel, hf'.channel, hf.mesh, hf'.mesh]
  exact h

variable {l : List ℕ}

theorem Rdev.Ordered.congr (h : s.Ordered l)
    (hsame : ∀ b ∈ l, (s.bss b).SamePlace (s'.bss b)) : s'.Ordered l where
  shown := fun b hb => (hsame b hb).shown (h.shown b hb)
  agrees := by
    intro a ha b hb
    exact (h.agrees a ha b hb).congr (hsame a ha) (hsame b hb)
  sorted := by
    refine h.sorted.imp_of_mem fun ha hb hlt => ?_
    rw [(hsame _ ha).rank, (hsame _ hb).rank]
    exact hlt

theorem Rdev.Ordered.cmp_eq (h : s.Ordered l) {a : ℕ} (ha : a ∈ l) (hb : b ∈ l) :
    cmpBss (s.bss a) (s.bss b) .regular = compare (s.bss a).rank (s.bss b).rank :=
  cmpBss_eq_compare (h.agrees a ha b hb) (h.shown a ha) (h.shown b hb)

theorem Rdev.Ordered.find_of_rank (h : s.Ordered s.bssTree.toList) (hies : e.ies ≠ none)
    (hagrees : ∀ b ∈ s.bssTree.toList, e.Agrees (s.bss b)) (hb : b ∈ s.bssTree.toList)
    (heq : (s.bss b).rank = e.rank) : rbFindBss s e .regular = some b := by
  obtain ⟨xs, ys, hlist⟩ := append_of_mem hb
  have hsorted := hlist ▸ h.sorted
  rw [pairwise_append, pairwise_cons] at hsorted
  obtain ⟨-, ⟨hys, -⟩, hxs⟩ := hsorted
  have hcmp : ∀ x ∈ s.bssTree.toList, cmpBss e (s.bss x) .regular = compare e.rank (s.bss x).rank :=
    fun x hx => cmpBss_eq_compare (hagrees x hx) hies (h.shown x hx)
  have hmem : ∀ x, x ∈ xs ∨ x ∈ ys → x ∈ s.bssTree.toList := by
    intro x hx
    rw [hlist, mem_append, mem_cons]
    tauto
  refine find_eq_some hlist (fun x hx => ?_) ?_ fun y hy => ?_
  · rw [hcmp x (hmem x (.inl hx)), compare_gt_iff_gt, ← heq]
    exact hxs x hx b mem_cons_self
  · rw [hcmp b hb, compare_eq_iff_eq, heq]
  · rw [hcmp y (hmem y (.inr hy)), compare_lt_iff_lt, ← heq]
    exact hys y hy

/-- **What is in the tree is found.** -/
theorem Rdev.Ordered.find (h : s.Ordered s.bssTree.toList) (hb : b ∈ s.bssTree.toList) :
    rbFindBss s (s.bss b) .regular = some b :=
  h.find_of_rank (h.shown b hb) (fun c hc => h.agrees b hb c hc) hb rfl

/-- **If nothing is found, nothing is equal.** -/
theorem Rdev.Ordered.rank_ne (h : s.Ordered s.bssTree.toList) (hies : e.ies ≠ none)
    (hagrees : ∀ b ∈ s.bssTree.toList, e.Agrees (s.bss b)) (hfind : rbFindBss s e .regular = none) :
    ∀ b ∈ s.bssTree.toList, (s.bss b).rank ≠ e.rank := by
  intro b hb heq
  rw [h.find_of_rank hies hagrees hb heq] at hfind
  cases hfind

theorem exists_split {rank : ℕ → ℤ ×ₗ ℤ ×ₗ ℤ ×ₗ ℤ ×ₗ ℤ} (r : ℤ ×ₗ ℤ ×ₗ ℤ ×ₗ ℤ ×ₗ ℤ)
    (h : l.Pairwise fun a b => rank a < rank b) :
    ∃ xs ys, l = xs ++ ys ∧ (∀ x ∈ xs, rank x < r) ∧ ∀ y ∈ ys, r ≤ rank y := by
  induction l with
  | nil => exact ⟨[], [], rfl, nofun, nofun⟩
  | cons a l ih =>
    obtain ⟨ha, hl⟩ := pairwise_cons.mp h
    by_cases har : rank a < r
    · obtain ⟨xs, ys, rfl, hxs, hys⟩ := ih hl
      refine ⟨a :: xs, ys, rfl, fun x hx => ?_, hys⟩
      rcases mem_cons.mp hx with rfl | hx
      · exact har
      · exact hxs x hx
    · rw [not_lt] at har
      refine ⟨[], a :: l, rfl, nofun, fun y hy => ?_⟩
      rcases mem_cons.mp hy with rfl | hy
      · exact har
      · exact har.trans (ha y hy).le

/-- **An entry is put in its place.** -/
theorem Rdev.Ordered.insert (lib : RbLib) (h : s.Ordered s.bssTree.toList) (hies : (s.bss n).ies ≠ none)
    (hagrees : ∀ b ∈ s.bssTree.toList, (s.bss n).Agrees (s.bss b))
    (hne : ∀ b ∈ s.bssTree.toList, (s.bss b).rank ≠ (s.bss n).rank) :
    s.Ordered (rbInsertBss lib s n).bssTree.toList ∧
      (rbInsertBss lib s n).bssTree.toList.Perm (n :: s.bssTree.toList) := by
  obtain ⟨xs, ys, hlist, hxs, hys⟩ := exists_split (s.bss n).rank h.sorted
  have hcmp : ∀ x ∈ s.bssTree.toList, cmpBss (s.bss n) (s.bss x) .regular =
      compare (s.bss n).rank (s.bss x).rank :=
    fun x hx => cmpBss_eq_compare (hagrees x hx) hies (h.shown x hx)
  have hmem : ∀ x, x ∈ xs ∨ x ∈ ys → x ∈ s.bssTree.toList := by
    intro x hx
    rw [hlist]
    exact mem_append.mpr hx
  have hys' : ∀ y ∈ ys, (s.bss n).rank < (s.bss y).rank := fun y hy =>
    lt_of_le_of_ne (hys y hy) (Ne.symm (hne y (hmem y (.inr hy))))
  have hgt : ∀ x ∈ xs, cmpBss (s.bss n) (s.bss x) .regular = .gt := by
    intro x hx
    rw [hcmp x (hmem x (.inl hx)), compare_gt_iff_gt]
    exact hxs x hx
  have hlt : ∀ y ∈ ys, cmpBss (s.bss n) (s.bss y) .regular = .lt := by
    intro y hy
    rw [hcmp y (hmem y (.inr hy)), compare_lt_iff_lt]
    exact hys' y hy
  obtain ⟨t', ht', hlist'⟩ := exists_insert (n := n) hlist hgt hlt
  have htree : (rbInsertBss lib s n).bssTree.toList = xs ++ n :: ys := by
    rw [rbInsertBss, ht', ← hlist']
    exact lib.toList_insertColor t'
  have hperm : (xs ++ n :: ys).Perm (n :: s.bssTree.toList) := by
    rw [hlist]
    exact perm_middle
  rw [htree]
  refine ⟨⟨fun b hb => ?_, fun a ha b hb => ?_, ?_⟩, hperm⟩
  · rcases mem_cons.mp (hperm.mem_iff.mp hb) with rfl | hb
    · exact hies
    · exact h.shown b hb
  · rcases mem_cons.mp (hperm.mem_iff.mp ha) with rfl | ha'
    · rcases mem_cons.mp (hperm.mem_iff.mp hb) with rfl | hb'
      · exact .refl _
      · exact hagrees b hb'
    · rcases mem_cons.mp (hperm.mem_iff.mp hb) with rfl | hb'
      · exact (hagrees a ha').symm
      · exact h.agrees a ha' b hb'
  · have hsorted := hlist ▸ h.sorted
    rw [pairwise_append] at hsorted
    rw [pairwise_append, pairwise_cons]
    refine ⟨hsorted.1, ⟨hys', hsorted.2.1⟩, fun x hx y hy => ?_⟩
    rcases mem_cons.mp hy with rfl | hy
    · exact hxs x hx
    · exact hsorted.2.2 x hx y hy

end Mac80211
