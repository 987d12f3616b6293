import Mac80211.Keys.Tailroom
import Mathlib.Algebra.BigOperators.Group.List.Basic
import Mathlib.Algebra.Group.Pi.Lemmas

/-!
# The books of the tailroom counters

What is left of a VLAN's counter without that of its access point is its own count. `Books net s d`
says that the own count of each interface `i` is what it should be, and `d i` more; every operation
is made of a few writes, each of which moves `d` in a way of its own.

## Main definitions

* `Books`, `Accounted`
-/

namespace Mac80211

open List Function

/-- A key wants tailroom unless the hardware has it and asks for none. -/
def TailKey.needsTailroom (key : TailKey) : Bool := !(key.uploadedToHardware && !key.flags.any)

/-- 1 or 0. -/
def TailKey.weight (key : TailKey) : ℤ := if key.needsTailroom then 1 else 0

theorem TailKey.weight_of_not_uploaded {key : TailKey} (h : key.uploadedToHardware = false) :
    key.weight = 1 := by
  simp [weight, needsTailroom, h]

theorem TailKey.weight_setUploaded_false (key : TailKey) : (key.setUploaded false).weight = 1 :=
  weight_of_not_uploaded rfl

theorem TailKey.weight_eq (key : TailKey) :
    key.weight = if key.uploadedToHardware && !key.flags.any then 0 else 1 := by
  rw [weight, needsTailroom]
  cases key.uploadedToHardware && !key.flags.any with
  | false => rfl
  | true => rfl

namespace TailState

variable {net : TailNet} {s s' : TailState} {d : SdataId → ℤ}

/-- The listed keys of an interface that want tailroom. -/
def number (s : TailState) (i : SdataId) : ℕ :=
  (s.keyList i).countP fun k => (s.keys k).needsTailroom

/-- The counters are right: keys that want tailroom and what is pending; for a VLAN its own keys,
and what its access point counts. -/
structure Accounted (net : TailNet) (s : TailState) : Prop where
  iface : ∀ i, net.type i ≠ .apVlan → s.neededCnt i = s.pendingDec i + s.number i
  vlan : ∀ v a, net.master v = some a → s.neededCnt v = s.number v + s.neededCnt a

/-- What an interface counts of its own. -/
def own (net : TailNet) (s : TailState) (i : SdataId) : ℤ :=
  match net.master i with
  | some a => s.neededCnt i - s.neededCnt a
  | none => s.neededCnt i

/-- A key is on the list of its interface. -/
def Listed (s : TailState) (k : KeyId) : Prop := k ∈ s.keyList (s.keys k).home.sdata

theorem number_eq_sum (s : TailState) (i : SdataId) :
    (s.number i : ℤ) = ((s.keyList i).map fun k => (s.keys k).weight).sum := by
  rw [number]
  induction s.keyList i with
  | nil => rfl
  | cons k l ih =>
    rw [countP_cons, map_cons, sum_cons, ← ih, TailKey.weight]
    split
    · push_cast
      ring
    · push_cast
      ring

/-! ### Counting -/

theorem foldl_addNeeded (delta : ℤ) (l : List SdataId) (hl : l.Nodup) : ∀ s : TailState,
    l.foldl (fun s v => s.addNeeded v delta) s =
      { s with neededCnt := fun j => s.neededCnt j + if j ∈ l then delta else 0 } := by
  induction l with
  | nil => simp
  | cons v l ih =>
    intro s
    obtain ⟨hv, hl⟩ := nodup_cons.1 hl
    rw [foldl_cons, ih hl, addNeeded]
    congr 1
    funext j
    by_cases hj : j = v
    · subst hj
      simp [hv]
    · simp [hj]

/-- Both counting up and counting down. -/
def count (net : TailNet) (s : TailState) (i : SdataId) (delta : ℤ) : TailState :=
  (s.updateVlanTailroomNeedCount net i delta).addNeeded i delta

theorem increment_eq_count (s : TailState) (i : SdataId) :
    s.incrementTailroomNeedCount net i = s.count net i 1 := rfl

theorem decrease_eq_count (s : TailState) (i : SdataId) (delta : ℤ) :
    s.decreaseTailroomNeedCount net i delta = s.count net i (-delta) := rfl

theorem count_eq (net : TailNet) (s : TailState) (i : SdataId) (delta : ℤ) :
    s.count net i delta = { s with
      neededCnt := fun j => s.neededCnt j +
        ((if net.type i = .ap ∧ j ∈ net.vlans i then delta else 0) + if j = i then delta else 0) } := by
  have hvlan : s.updateVlanTailroomNeedCount net i delta = { s with
      neededCnt := fun j => s.neededCnt j +
        if net.type i = .ap ∧ j ∈ net.vlans i then delta else 0 } := by
    rw [updateVlanTailroomNeedCount]
    by_cases h : net.type i = .ap
    · rw [if_neg (not_not.2 h), foldl_addNeeded delta _ (net.nodup i)]
      simp [h]
    · simp [h]
  rw [count, hvlan, addNeeded]
  congr 1
  funext j
  rw [update_apply]
  split
  · rename_i hj
    rw [hj, add_assoc]
  · rw [add_zero]

theorem own_count (net : TailNet) (s : TailState) (i : SdataId) (delta : ℤ) (j : SdataId) :
    own net (s.count net i delta) j = own net s j + if j = i then delta else 0 := by
  rw [count_eq, own, own]
  cases hm : net.master j with
  | none =>
    have hj : j ∉ net.vlans i := fun hj => by
      rw [net.mem_vlans, hm] at hj
      cases hj
    simp [hj]
  | some a =>
    obtain ⟨htj, hta⟩ := net.type_master j a hm
    have ha : a ∉ net.vlans i := fun ha => by
      obtain ⟨hvlan, -⟩ := net.type_master a i ((net.mem_vlans a i).1 ha)
      rw [hta] at hvlan
      cases hvlan
    have hj : j ∈ net.vlans i ↔ a = i := by
      rw [net.mem_vlans, hm, Option.some.injEq]
    by_cases hai : a = i
    · subst hai
      have hne : j ≠ a := by
        rintro rfl
        rw [htj] at hta
        cases hta
      simp [ha, hj, hta, hne]
    · simp [ha, hj, hai]
      ring

/-! ### What stays -/

/-- The lists and slots, and where the keys belong. -/
structure Kept (s s' : TailState) : Prop where
  list : s'.keyList = s.keyList
  slots : s'.slots = s.slots
  nextKey : s'.nextKey = s.nextKey
  home : ∀ k, (s'.keys k).home = (s.keys k).home
  keyidx : ∀ k, (s'.keys k).keyidx = (s.keys k).keyidx

theorem Kept.refl (s : TailState) : Kept s s := ⟨rfl, rfl, rfl, fun _ => rfl, fun _ => rfl⟩

theorem Kept.trans {s'' : TailState} (h : Kept s s') (h' : Kept s' s'') : Kept s s'' where
  list := h'.list.trans h.list
  slots := h'.slots.trans h.slots
  nextKey := h'.nextKey.trans h.nextKey
  home := fun k => (h'.home k).trans (h.home k)
  keyidx := fun k => (h'.keyidx k).trans (h.keyidx k)

variable {k : KeyId}

theorem Kept.listed (h : Kept s s') (hk : s.Listed k) : s'.Listed k := by
  rw [Listed, h.list, h.home]
  exact hk

theorem kept_count (net : TailNet) (s : TailState) (i : SdataId) (delta : ℤ) :
    Kept s (s.count net i delta) := by
  rw [count_eq]
  exact ⟨rfl, rfl, rfl, fun _ => rfl, fun _ => rfl⟩

theorem keys_count (net : TailNet) (s : TailState) (i : SdataId) (delta : ℤ) :
    (s.count net i delta).keys = s.keys := by rw [count_eq]

theorem pendingDec_count (net : TailNet) (s : TailState) (i : SdataId) (delta : ℤ) :
    (s.count net i delta).pendingDec = s.pendingDec := by rw [count_eq]

@[simp] theorem keys_updKey_self (s : TailState) (k : KeyId) (f : TailKey → TailKey) :
    (s.updKey k f).keys k = f (s.keys k) := update_self ..

theorem keys_updKey_of_ne (s : TailState) {k k' : KeyId} (f : TailKey → TailKey) (h : k' ≠ k) :
    (s.updKey k f).keys k' = s.keys k' := update_of_ne h ..

variable {f : TailKey → TailKey}

theorem kept_updKey (hhome : (f (s.keys k)).home = (s.keys k).home)
    (hidx : (f (s.keys k)).keyidx = (s.keys k).keyidx) : Kept s (s.updKey k f) := by
  refine ⟨rfl, rfl, rfl, fun k' => ?_, fun k' => ?_⟩
  · by_cases h : k' = k
    · rw [h, keys_updKey_self, hhome]
    · rw [keys_updKey_of_ne s f h]
  · by_cases h : k' = k
    · rw [h, keys_updKey_self, hidx]
    · rw [keys_updKey_of_ne s f h]

theorem kept_setUploaded (s : TailState) (k : KeyId) (b : Bool) : Kept s (s.setUploaded k b) :=
  kept_updKey rfl rfl

theorem kept_setFlags (s : TailState) (k : KeyId) (flags : TailFlags) : Kept s (s.setFlags k flags) :=
  kept_updKey rfl rfl

theorem kept_taint (s : TailState) (k : KeyId) : Kept s (s.taint k) := kept_updKey rfl rfl

theorem Kept.ite {c : Prop} [Decidable c] (h : Kept s s') : Kept s (if c then s' else s) := by
  split
  · exact h
  · exact .refl s

/-! ### The books -/

/-- The lists and slots fit; the own count of each interface is `d` more than its keys and what is
pending. -/
structure Books (net : TailNet) (s : TailState) (d : SdataId → ℤ) : Prop where
  nodup : ∀ i, (s.keyList i).Nodup
  home : ∀ i, ∀ k ∈ s.keyList i, (s.keys k).home.sdata = i
  bound : ∀ i, ∀ k ∈ s.keyList i, k < s.nextKey
  finds : ∀ i, ∀ k ∈ s.keyList i, net.Finds (s.keys k).home
  hardware : ∀ i, ∀ k ∈ s.keyList i, (s.keys k).uploadedToHardware = true → net.setKey = true
  slots : ∀ p k, s.slots p = some k → p = (s.keys k).home.slot (s.keys k).keyidx ∧ s.Listed k
  pending : ∀ i, net.type i ≠ .station → s.pendingDec i = 0
  off : ∀ i, own net s i = s.pendingDec i + s.number i + d i

theorem Books.congr {d' : SdataId → ℤ} (h : Books net s d) (hd : d = d') : Books net s d' := hd ▸ h

theorem Books.accounted (h : Books net s 0) : Accounted net s where
  iface := fun i hi => by
    have hoff := h.off i
    have hm : net.master i = none := by
      cases hm : net.master i with
      | none => rfl
      | some a => exact absurd (net.type_master i a hm).1 hi
    rw [own, hm] at hoff
    simpa using hoff
  vlan := fun v a hm => by
    have hoff := h.off v
    have hp : s.pendingDec v = 0 := h.pending v (by rw [(net.type_master v a hm).1]; decide)
    rw [own, hm, hp] at hoff
    simp only [Pi.zero_apply] at hoff
    omega

theorem Books.of_kept {d' : SdataId → ℤ} (h : Books net s d) (hk : Kept s s')
    (hhw : ∀ k, s'.Listed k → (s'.keys k).uploadedToHardware = true → net.setKey = true)
    (hpending : ∀ i, net.type i ≠ .station → s'.pendingDec i = 0)
    (hoff : ∀ i, own net s' i = s'.pendingDec i + s'.number i + d' i) : Books net s' d' where
  nodup := by
    rw [hk.list]
    exact h.nodup
  home := fun i k hi => by
    rw [hk.home]
    rw [hk.list] at hi
    exact h.home i k hi
  bound := by
    rw [hk.list, hk.nextKey]
    exact h.bound
  finds := fun i k hi => by
    rw [hk.home]
    rw [hk.list] at hi
    exact h.finds i k hi
  hardware := fun i k hi hup => by
    refine hhw k ?_ hup
    rw [hk.list] at hi
    rw [Listed, hk.list, hk.home, h.home i k hi]
    exact hi
  slots := fun p k hp => by
    rw [hk.slots] at hp
    obtain ⟨hslot, hlisted⟩ := h.slots p k hp
    rw [hk.home, hk.keyidx]
    exact ⟨hslot, hk.listed hlisted⟩
  pending := hpending
  off := hoff

theorem Books.count (h : Books net s d) (i : SdataId) (delta : ℤ) :
    Books net (s.count net i delta) (d + Pi.single i delta) := by
  refine h.of_kept (kept_count net s i delta) ?_ ?_ ?_
  · intro k hk hup
    rw [keys_count] at hup
    rw [Listed, (kept_count net s i delta).list, keys_count] at hk
    exact h.hardware _ k hk hup
  · rw [pendingDec_count]
    exact h.pending
  · intro j
    have hnumber : (s.count net i delta).number j = s.number j := by
      rw [number, number, keys_count, (kept_count net s i delta).list]
    rw [own_count, h.off j, pendingDec_count, hnumber, Pi.add_apply, Pi.single_apply]
    ring

theorem Books.setPending (h : Books net s d) (i : SdataId) {n : ℤ}
    (hn : net.type i = .station ∨ n = 0) :
    Books net (s.setPending i n) (d + Pi.single i (s.pendingDec i - n)) := by
  have hpending (j : SdataId) : (s.setPending i n).pendingDec j =
      s.pendingDec j - if j = i then s.pendingDec i - n else 0 := by
    rw [TailState.setPending]
    dsimp only
    rw [update_apply]
    split
    · rename_i hj
      rw [hj]
      ring
    · ring
  refine h.of_kept ⟨rfl, rfl, rfl, fun _ => rfl, fun _ => rfl⟩ (fun k hk hup => h.hardware _ k hk hup)
    (fun j hj => ?_) (fun j => ?_)
  · rw [hpending, h.pending j hj]
    split
    · rename_i hji
      subst hji
      rw [hn.resolve_left hj, h.pending j hj]
      rfl
    · rfl
  · have hown : own net (s.setPending i n) j = own net s j := rfl
    have hnumber : (s.setPending i n).number j = s.number j := rfl
    rw [hown, h.off j, hpending, hnumber, Pi.add_apply, Pi.single_apply]
    ring

/-! ### Writing a key -/

theorem sum_map_update {l : List KeyId} (hl : l.Nodup) (f : KeyId → TailKey) (k : KeyId) (v : TailKey) :
    (l.map fun x => (Function.update f k v x).weight).sum =
      (l.map fun x => (f x).weight).sum + if k ∈ l then v.weight - (f k).weight else 0 := by
  induction l with
  | nil => simp
  | cons x l ih =>
    obtain ⟨hx, hl⟩ := nodup_cons.1 hl
    simp only [map_cons, sum_cons, ih hl]
    by_cases hk : x = k
    · subst hk
      simp only [update_self, hx, mem_cons, true_or, if_true, if_false, add_zero]
      ring
    · simp [update_of_ne hk, Ne.symm hk, add_assoc]

theorem Books.updKey (h : Books net s d) (hk : s.Listed k)
    (hhome : (f (s.keys k)).home = (s.keys k).home)
    (hidx : (f (s.keys k)).keyidx = (s.keys k).keyidx)
    (hup : (f (s.keys k)).uploadedToHardware = true → net.setKey = true) : Books net (s.updKey k f)
      (d + Pi.single (s.keys k).home.sdata ((s.keys k).weight - (f (s.keys k)).weight)) := by
  have hkept := kept_updKey (s := s) hhome hidx
  refine h.of_kept hkept ?_ h.pending ?_
  · intro k' hk' hup'
    by_cases hne : k' = k
    · subst hne
      rw [keys_updKey_self] at hup'
      exact hup hup'
    · rw [Listed, hkept.list, hkept.home] at hk'
      rw [keys_updKey_of_ne s f hne] at hup'
      exact h.hardware _ k' hk' hup'
  · intro j
    have hown : own net (s.updKey k f) j = own net s j := rfl
    have hmem : k ∈ s.keyList j ↔ j = (s.keys k).home.sdata := by
      constructor
      · exact fun hj => (h.home j k hj).symm
      · rintro rfl
        exact hk
    have hnumber : ((s.updKey k f).number j : ℤ) = s.number j +
        if j = (s.keys k).home.sdata then (f (s.keys k)).weight - (s.keys k).weight else 0 := by
      rw [number_eq_sum, number_eq_sum]
      have hsum := sum_map_update (h.nodup j) s.keys k (f (s.keys k))
      simp only [hmem] at hsum
      exact hsum
    have hpending : (s.updKey k f).pendingDec j = s.pendingDec j := rfl
    rw [hown, h.off j, hpending, hnumber, Pi.add_apply, Pi.single_apply]
    split
    · ring
    · ring

/-- A write to a listed key that does not change whether it wants tailroom. -/
theorem Books.updKey_same (h : Books net s d) (hk : s.Listed k)
    (hhome : (f (s.keys k)).home = (s.keys k).home)
    (hidx : (f (s.keys k)).keyidx = (s.keys k).keyidx)
    (hup : (f (s.keys k)).uploadedToHardware = true → net.setKey = true)
    (hweight : (f (s.keys k)).weight = (s.keys k).weight) : Books net (s.updKey k f) d := by
  refine (h.updKey hk hhome hidx hup).congr ?_
  rw [hweight, sub_self, Pi.single_zero, add_zero]

theorem Books.setUploaded (h : Books net s d) (hk : s.Listed k) {b : Bool}
    (hb : b = true → net.setKey = true) : Books net (s.setUploaded k b)
      (d + Pi.single (s.keys k).home.sdata
        ((s.keys k).weight - ((s.keys k).setUploaded b).weight)) :=
  h.updKey hk rfl rfl hb

theorem Books.setFlags (h : Books net s d) (hk : s.Listed k) (flags : TailFlags) :
    Books net (s.setFlags k flags)
      (d + Pi.single (s.keys k).home.sdata ((s.keys k).weight - ((s.keys k).setFlags flags).weight)) :=
  h.updKey hk rfl rfl (h.hardware _ k hk)

theorem Books.taint (h : Books net s d) (hk : s.Listed k) : Books net (s.taint k) d :=
  h.updKey_same hk rfl rfl (h.hardware _ k hk) rfl

/-! ### Writing slots and lists -/

theorem Books.setSlot (h : Books net s d) {p : KeySlot} {new : Option KeyId}
    (hnew : ∀ k ∈ new, p = (s.keys k).home.slot (s.keys k).keyidx ∧ s.Listed k) :
    Books net (s.setSlot p new) d where
  nodup := h.nodup
  home := h.home
  bound := h.bound
  finds := h.finds
  hardware := h.hardware
  slots := fun p' k hk => by
    rw [TailState.setSlot] at hk
    dsimp only at hk
    rw [update_apply] at hk
    split at hk
    · rename_i hp
      rw [hp]
      exact hnew k hk
    · exact h.slots p' k hk
  pending := h.pending
  off := h.off

theorem Books.listAdd (h : Books net s d) (hfresh : ∀ i, k ∉ s.keyList i)
    (hbound : k < s.nextKey) (hfinds : net.Finds (s.keys k).home)
    (hup : (s.keys k).uploadedToHardware = true → net.setKey = true) :
    Books net (s.listAdd (s.keys k).home.sdata k)
      (d + Pi.single (s.keys k).home.sdata (-(s.keys k).weight)) := by
  have hlist (i : SdataId) : (s.listAdd (s.keys k).home.sdata k).keyList i =
      if i = (s.keys k).home.sdata then s.keyList i ++ [k] else s.keyList i := by
    rw [TailState.listAdd]
    dsimp only
    rw [update_apply]
    split
    · rename_i hi
      rw [hi]
    · rfl
  have hmem {i : SdataId} {k' : KeyId}
      (hk' : k' ∈ (s.listAdd (s.keys k).home.sdata k).keyList i) :
      k' ∈ s.keyList i ∨ k' = k ∧ i = (s.keys k).home.sdata := by
    rw [hlist] at hk'
    split at hk'
    · rename_i hi
      rw [mem_append, mem_singleton] at hk'
      exact hk'.imp_right fun he => ⟨he, hi⟩
    · exact .inl hk'
  have hsub {i : SdataId} {k' : KeyId} (hk' : k' ∈ s.keyList i) :
      k' ∈ (s.listAdd (s.keys k).home.sdata k).keyList i := by
    rw [hlist]
    split
    · exact mem_append_left _ hk'
    · exact hk'
  constructor
  · intro i
    rw [hlist]
    split
    · refine List.Nodup.append (h.nodup i) (nodup_singleton k) ?_
      rw [disjoint_singleton]
      exact hfresh i
    · exact h.nodup i
  · intro i k' hk'
    rcases hmem hk' with hk' | ⟨rfl, rfl⟩
    · exact h.home i k' hk'
    · rfl
  · intro i k' hk'
    rcases hmem hk' with hk' | ⟨rfl, -⟩
    · exact h.bound i k' hk'
    · exact hbound
  · intro i k' hk'
    rcases hmem hk' with hk' | ⟨rfl, -⟩
    · exact h.finds i k' hk'
    · exact hfinds
  · intro i k' hk' hup'
    rcases hmem hk' with hk' | ⟨rfl, -⟩
    · exact h.hardware i k' hk' hup'
    · exact hup hup'
  · intro p k' hp
    obtain ⟨hslot, hlisted⟩ := h.slots p k' hp
    exact ⟨hslot, hsub hlisted⟩
  · exact h.pending
  · intro j
    have hown : own net (s.listAdd (s.keys k).home.sdata k) j = own net s j := rfl
    have hpending : (s.listAdd (s.keys k).home.sdata k).pendingDec j = s.pendingDec j := rfl
    have hnumber : ((s.listAdd (s.keys k).home.sdata k).number j : ℤ) = s.number j +
        if j = (s.keys k).home.sdata then (s.keys k).weight else 0 := by
      rw [number_eq_sum, number_eq_sum, hlist]
      split
      · rw [map_append, sum_append, map_singleton, sum_singleton]
        rfl
      · rw [add_zero]
        rfl
    rw [hown, h.off j, hpending, hnumber, Pi.add_apply, Pi.single_apply]
    split
    · ring
    · ring

theorem Books.listDel (h : Books net s d) (hk : s.Listed k) (hslots : ∀ p, s.slots p ≠ some k) :
    Books net (s.listDel k) (d + Pi.single (s.keys k).home.sdata (s.keys k).weight) := by
  have hlist (i : SdataId) : (s.listDel k).keyList i =
      if i = (s.keys k).home.sdata then (s.keyList i).erase k else s.keyList i := by
    rw [TailState.listDel]
    dsimp only
    rw [update_apply]
    split
    · rename_i hi
      rw [hi]
    · rfl
  have hmem {i : SdataId} {k' : KeyId} (hk' : k' ∈ (s.listDel k).keyList i) : k' ∈ s.keyList i := by
    rw [hlist] at hk'
    split at hk'
    · exact mem_of_mem_erase hk'
    · exact hk'
  constructor
  · intro i
    rw [hlist]
    split
    · exact (h.nodup i).erase k
    · exact h.nodup i
  · exact fun i k' hk' => h.home i k' (hmem hk')
  · exact fun i k' hk' => h.bound i k' (hmem hk')
  · exact fun i k' hk' => h.finds i k' (hmem hk')
  · exact fun i k' hk' => h.hardware i k' (hmem hk')
  · intro p k' hp
    obtain ⟨hslot, hlisted⟩ := h.slots p k' hp
    refine ⟨hslot, ?_⟩
    have hne : k' ≠ k := by
      rintro rfl
      exact hslots p hp
    show k' ∈ (s.listDel k).keyList (s.keys k').home.sdata
    rw [hlist]
    split
    · exact (mem_erase_of_ne hne).2 hlisted
    · exact hlisted
  · exact h.pending
  · intro j
    have hown : own net (s.listDel k) j = own net s j := rfl
    have hpending : (s.listDel k).pendingDec j = s.pendingDec j := rfl
    have hnumber : (s.number j : ℤ) = (s.listDel k).number j +
        if j = (s.keys k).home.sdata then (s.keys k).weight else 0 := by
      rw [number_eq_sum, number_eq_sum, hlist]
      split
      · rename_i hj
        rw [hj, ← sum_map_erase (fun k => (s.keys k).weight) hk, add_comm]
        rfl
      · rw [add_zero]
        rfl
    rw [hown, h.off j, hpending, hnumber, Pi.add_apply, Pi.single_apply]
    ring

theorem Books.allocKey (h : Books net s d) (home : KeyHome) (idx : ℕ) (key : TailKey) :
    Books net (s.allocKey home idx key) d := by
  have hkeys {k : KeyId} (hk : k < s.nextKey) : (s.allocKey home idx key).keys k = s.keys k :=
    update_of_ne hk.ne ..
  constructor
  · exact h.nodup
  · intro i k hk
    rw [hkeys (h.bound i k hk)]
    exact h.home i k hk
  · exact fun i k hk => Nat.lt_succ_of_lt (h.bound i k hk)
  · intro i k hk
    rw [hkeys (h.bound i k hk)]
    exact h.finds i k hk
  · intro i k hk
    rw [hkeys (h.bound i k hk)]
    exact h.hardware i k hk
  · intro p k hp
    obtain ⟨hslot, hlisted⟩ := h.slots p k hp
    rw [Listed, hkeys (h.bound _ k hlisted)]
    exact ⟨hslot, hlisted⟩
  · exact h.pending
  · intro j
    have hnumber : ((s.allocKey home idx key).number j : ℤ) = s.number j := by
      rw [number_eq_sum, number_eq_sum]
      congr 1
      refine map_congr_left fun k hk => ?_
      rw [hkeys (h.bound j k hk)]
    rw [hnumber]
    exact h.off j

end TailState

end Mac80211
