import Mac80211.Keys.FastTxView

/-!
# Slots and lists of keys

Every key in a slot was linked to it under its index, and is in the list of its interface. Writing a
slot keeps that, and looks again at the stations whose key changes.

## Main definitions

* `Frame`
-/

namespace Mac80211

open Function

namespace FastState

variable {s s' : FastState}

/-! ### Where the pointers are -/

variable {j : StaId}

theorem held_updSta_eq {f : StaInfo → StaInfo} {h : KeySlot → Option KeyId}
    (hptk : ∀ n, (f (s.loc.sta j)).ptk n = h (.ptk j n)) (hgtk : ∀ n, (f (s.loc.sta j)).gtk n = h (.gtk j n))
    (hother : ∀ p, (∀ n, p ≠ .ptk j n) → (∀ n, p ≠ .gtk j n) → h p = s.held p) : (s.updSta j f).held = h := by
  funext p
  cases p with
  | ptk j' n =>
    by_cases hj : j' = j
    · subst hj
      rw [held, updSta, Local.updSta_sta_self, hptk]
    · rw [held, updSta, Local.updSta_sta_of_ne _ hj, hother _ (by simp [hj]) (by simp), held]
  | gtk j' n =>
    by_cases hj : j' = j
    · subst hj
      rw [held, updSta, Local.updSta_sta_self, hgtk]
    · rw [held, updSta, Local.updSta_sta_of_ne _ hj, hother _ (by simp) (by simp [hj]), held]
  | keys i n => exact (hother (.keys i n) (by simp) (by simp)).symm
  | unicast i => exact (hother (.unicast i) (by simp) (by simp)).symm

variable {i : SdataId}

theorem held_updSdata_eq {f : SubIfData → SubIfData} {h : KeySlot → Option KeyId}
    (hkeys : ∀ n, (f (s.loc.sdata i)).keys n = h (.keys i n))
    (huni : (f (s.loc.sdata i)).defaultUnicastKey = h (.unicast i))
    (hother : ∀ p, (∀ n, p ≠ .keys i n) → p ≠ .unicast i → h p = s.held p) : (s.updSdata i f).held = h := by
  funext p
  cases p with
  | ptk j n => exact (hother (.ptk j n) (by simp) (by simp)).symm
  | gtk j n => exact (hother (.gtk j n) (by simp) (by simp)).symm
  | keys i' n =>
    by_cases hi : i' = i
    · subst hi
      rw [held, updSdata, Local.updSdata_sdata_self, hkeys]
    · rw [held, updSdata, Local.updSdata_sdata_of_ne _ hi, hother _ (by simp [hi]) (by simp), held]
  | unicast i' =>
    by_cases hi : i' = i
    · subst hi
      rw [held, updSdata, Local.updSdata_sdata_self, huni]
    · rw [held, updSdata, Local.updSdata_sdata_of_ne _ hi, hother _ (by simp) (by simp [hi]), held]

theorem held_updSta {f : StaInfo → StaInfo} (hptk : (f (s.loc.sta j)).ptk = (s.loc.sta j).ptk)
    (hgtk : (f (s.loc.sta j)).gtk = (s.loc.sta j).gtk) : (s.updSta j f).held = s.held :=
  held_updSta_eq (congrFun hptk) (congrFun hgtk) fun _ _ _ => rfl

theorem held_updSdata {f : SubIfData → SubIfData}
    (hkeys : (f (s.loc.sdata i)).keys = (s.loc.sdata i).keys)
    (huni : (f (s.loc.sdata i)).defaultUnicastKey = (s.loc.sdata i).defaultUnicastKey) :
    (s.updSdata i f).held = s.held :=
  held_updSdata_eq (congrFun hkeys) huni fun _ _ _ => rfl

theorem held_checkFastXmit (env : FastEnv) (s : FastState) (j : StaId) :
    (s.checkFastXmit env j).held = s.held := held_updSta rfl rfl

theorem held_clearFastXmit (s : FastState) (j : StaId) : (s.clearFastXmit j).held = s.held :=
  held_updSta rfl rfl

theorem held_setPtk (s : FastState) (j : StaId) (idx : ℕ) (new : Option KeyId) :
    (s.updSta j fun t => { t with ptk := Function.update t.ptk idx new }).held =
      Function.update s.held (.ptk j idx) new := by
  refine held_updSta_eq (fun n => ?_) (fun n => ?_) fun p hptk _ => update_of_ne (hptk idx) ..
  · simp [update_apply, held]
  · rw [update_of_ne (by simp), held]

theorem held_setGtk (s : FastState) (j : StaId) (idx : ℕ) (new : Option KeyId) :
    (s.updSta j fun t => { t with gtk := Function.update t.gtk idx new }).held =
      Function.update s.held (.gtk j idx) new := by
  refine held_updSta_eq (fun n => ?_) (fun n => ?_) fun p _ hgtk => update_of_ne (hgtk idx) ..
  · rw [update_of_ne (by simp), held]
  · simp [update_apply, held]

theorem held_setKeys (s : FastState) (i : SdataId) (idx : ℕ) (new : Option KeyId) :
    (s.updSdata i fun d => { d with keys := Function.update d.keys idx new }).held =
      Function.update s.held (.keys i idx) new := by
  refine held_updSdata_eq (fun n => ?_) ?_ fun p hkeys _ => update_of_ne (hkeys idx) ..
  · simp [update_apply, held]
  · rw [update_of_ne (by simp), held]

theorem held_setUnicast (s : FastState) (i : SdataId) (new : Option KeyId) :
    (s.updSdata i fun d => { d with defaultUnicastKey := new }).held =
      Function.update s.held (.unicast i) new := by
  refine held_updSdata_eq (fun n => ?_) ?_ fun p _ huni => update_of_ne huni ..
  · rw [update_of_ne (by simp), held]
  · rw [update_self]

theorem held_foldl (env : FastEnv) (i : SdataId) (l : List StaId) : ∀ s : FastState,
    (l.foldl (fun s j => if s.sharesBss i j then s.checkFastXmit env j else s) s).held = s.held := by
  induction l with
  | nil => exact fun _ => rfl
  | cons j l ih =>
    intro s
    rw [List.foldl_cons, ih]
    split
    · exact held_checkFastXmit env s j
    · rfl

theorem held_setDefaultKey (env : FastEnv) (s : FastState) (i : SdataId) (idx : Option ℕ)
    (uni multi : Bool) : (s.setDefaultKey env i idx uni multi).held =
      if uni then Function.update s.held (.unicast i)
        (idx.bind fun n => if n < 4 then s.held (.keys i n) else none)
      else s.held := by
  have hmulti (s : FastState) (k : Option KeyId) :
      (if multi then s.updSdata i fun d => { d with defaultMulticastKey := k } else s).held =
        s.held := by
    split
    · exact held_updSdata rfl rfl
    · rfl
  rw [setDefaultKey, hmulti]
  split
  · rw [checkFastXmitIface, held_foldl, held_setUnicast]
    rfl
  · rfl

theorem held_setDefaultMgmtKey (s : FastState) (i : SdataId) (idx : Option ℕ) :
    (s.setDefaultMgmtKey i idx).held = s.held := held_updSdata rfl rfl

theorem held_dropDefaults (env : FastEnv) (s : FastState) (i : SdataId) (old : KeyId) :
    (s.dropDefaults env i old).held =
      if s.held (.unicast i) = some old then Function.update s.held (.unicast i) none
      else s.held := by
  have hmgmt (s : FastState) (c : Prop) [Decidable c] :
      (if c then s.setDefaultMgmtKey i none else s).held = s.held := by
    split
    · exact held_setDefaultMgmtKey s i none
    · rfl
  have hmulti (s : FastState) (c : Prop) [Decidable c] :
      (if c then s.setDefaultKey env i none false true else s).held = s.held := by
    split
    · exact held_setDefaultKey env s i none false true
    · rfl
  rw [dropDefaults, hmgmt, hmulti]
  by_cases h : (s.loc.sdata i).defaultUnicastKey = some old
  · have h' : s.held (.unicast i) = some old := h
    rw [if_pos h, if_pos h', held_setDefaultKey]
    rfl
  · have h' : ¬ s.held (.unicast i) = some old := h
    rw [if_neg h, if_neg h']

theorem held_moveDefaults (env : FastEnv) (s : FastState) (i : SdataId) (d : SubIfData) (old : KeyId)
    (idx : ℕ) : (s.moveDefaults env i d old idx).held =
      if d.defaultUnicastKey = some old then Function.update s.held (.unicast i)
        (if idx < 4 then s.held (.keys i idx) else none)
      else s.held := by
  have hmgmt (s : FastState) (c : Prop) [Decidable c] :
      (if c then s.setDefaultMgmtKey i (some idx) else s).held = s.held := by
    split
    · exact held_setDefaultMgmtKey s i (some idx)
    · rfl
  have hmulti (s : FastState) (c : Prop) [Decidable c] :
      (if c then s.setDefaultKey env i (some idx) false true else s).held = s.held := by
    split
    · exact held_setDefaultKey env s i (some idx) false true
    · rfl
  rw [moveDefaults, hmgmt, hmulti]
  split
  · rw [held_setDefaultKey]
    rfl
  · rfl

variable {k : KeyId} {home : KeyHome} {p : KeySlot} {idx : ℕ}

/-- What is anywhere after a slot was written: the new key, or what was there before, and the
default is not the old key. -/
theorem held_store (env : FastEnv) {old new : Option KeyId}
    (hnew : ∀ k ∈ new, (s.loc.keys k).keyidx = idx)
    (h : (s.store env home idx old new).held p = some k) :
    (p = home.slot idx ∨ home.owner = .iface ∧ p = .unicast home.sdata) ∧ new = some k ∨
      p ≠ home.slot idx ∧ s.held p = some k ∧
        (home.owner = .iface → p = .unicast home.sdata → old ≠ some k) := by
  have hupdate (hs : Function.update s.held (home.slot idx) new p = some k) :
      p = home.slot idx ∧ new = some k ∨ p ≠ home.slot idx ∧ s.held p = some k := by
    rw [update_apply] at hs
    split at hs
    · rename_i hp
      exact .inl ⟨hp, hs⟩
    · rename_i hp
      exact .inr ⟨hp, hs⟩
  obtain ⟨i, owner⟩ := home
  cases owner with
  | pairwise j =>
    have hheld : (s.store env ⟨i, .pairwise j⟩ idx old new).held =
        Function.update s.held (.ptk j idx) new := by
      rw [store]
      dsimp only
      split
      · split
        · exact held_setPtk s j idx _
        · rw [setTxKey, held_checkFastXmit, held_updSta rfl rfl, held_setPtk]
      · exact held_setPtk s j idx none
    rw [hheld] at h
    rcases hupdate h with ⟨hp, hk⟩ | ⟨hp, hk⟩
    · exact .inl ⟨.inl hp, hk⟩
    · exact .inr ⟨hp, hk, fun ho => by cases ho⟩
  | group j =>
    have hheld : (s.store env ⟨i, .group j⟩ idx old new).held =
        Function.update s.held (.gtk j idx) new := held_setGtk s j idx new
    rw [hheld] at h
    rcases hupdate h with ⟨hp, hk⟩ | ⟨hp, hk⟩
    · exact .inl ⟨.inl hp, hk⟩
    · exact .inr ⟨hp, hk, fun ho => by cases ho⟩
  | iface =>
    cases old with
    | none =>
      have hheld : (s.store env ⟨i, .iface⟩ idx none new).held =
          Function.update s.held (.keys i idx) new := held_setKeys s i idx new
      rw [hheld] at h
      rcases hupdate h with ⟨hp, hk⟩ | ⟨hp, hk⟩
      · exact .inl ⟨.inl hp, hk⟩
      · exact .inr ⟨hp, hk, fun _ _ ho => by cases ho⟩
    | some old =>
      cases new with
      | none =>
        have hheld : (s.store env ⟨i, .iface⟩ idx (some old) none).held =
            Function.update (s.dropDefaults env i old).held (.keys i idx) none :=
          held_setKeys _ i idx none
        rw [hheld, held_dropDefaults, update_apply] at h
        split at h
        · cases h
        · rename_i hp
          refine .inr ⟨hp, ?_⟩
          split at h
          · rw [update_apply] at h
            split at h
            · cases h
            · rename_i hpu
              exact ⟨h, fun _ hpu' => absurd hpu' hpu⟩
          · rename_i hne
            refine ⟨h, fun _ hpu ho => hne ?_⟩
            rw [ho, ← hpu]
            exact h
      | some new =>
        have hheld : (s.store env ⟨i, .iface⟩ idx (some old) (some new)).held =
            ((s.updSdata i fun d => { d with keys := Function.update d.keys idx (some new) }).moveDefaults
              env i (s.loc.sdata i) old (s.loc.keys new).keyidx).held := rfl
        rw [hheld, held_moveDefaults, held_setKeys, hnew new rfl, update_self] at h
        split at h
        · rw [update_apply] at h
          split at h
          · rename_i hpu
            split at h
            · exact .inl ⟨.inr ⟨rfl, hpu⟩, h⟩
            · cases h
          · rename_i hpu
            rcases hupdate h with ⟨hp, hk⟩ | ⟨hp, hk⟩
            · exact .inl ⟨.inl hp, hk⟩
            · exact .inr ⟨hp, hk, fun _ hpu' => absurd hpu' hpu⟩
        · rename_i hne
          rcases hupdate h with ⟨hp, hk⟩ | ⟨hp, hk⟩
          · exact .inl ⟨.inl hp, hk⟩
          · refine .inr ⟨hp, hk, fun _ hpu ho => hne ?_⟩
            rw [ho, ← hk, hpu]
            rfl

/-! ### What is linked -/

/-- The keys are linked as before. -/
structure Frame (s s' : FastState) : Prop where
  nextKey : s'.loc.nextKey = s.loc.nextKey
  keyidx : ∀ k, (s'.loc.keys k).keyidx = (s.loc.keys k).keyidx
  home : s'.home = s.home
  keyList : s'.keyList = s.keyList
  staList : s'.loc.staList = s.loc.staList

theorem Frame.refl (s : FastState) : Frame s s := ⟨rfl, fun _ => rfl, rfl, rfl, rfl⟩

theorem Frame.trans {s'' : FastState} (h : Frame s s') (h' : Frame s' s'') : Frame s s'' where
  nextKey := h'.nextKey.trans h.nextKey
  keyidx := fun k => (h'.keyidx k).trans (h.keyidx k)
  home := h'.home.trans h.home
  keyList := h'.keyList.trans h.keyList
  staList := h'.staList.trans h.staList

theorem Frame.ite {c : Prop} [Decidable c] (h : Frame s s') : Frame s (if c then s' else s) := by
  split
  · exact h
  · exact .refl s

theorem frame_updKey {f : Key → Key}
    (h : (f (s.loc.keys k)).keyidx = (s.loc.keys k).keyidx) : Frame s (s.updKey k f) := by
  refine ⟨rfl, fun k' => ?_, rfl, rfl, rfl⟩
  by_cases hk : k' = k
  · subst hk
    rw [updKey, Local.updKey_keys_self, h]
  · rw [updKey, Local.updKey_keys_of_ne _ hk]

theorem frame_foldl (env : FastEnv) (i : SdataId) (l : List StaId) : ∀ s : FastState,
    Frame s (l.foldl (fun s j => if s.sharesBss i j then s.checkFastXmit env j else s) s) := by
  induction l with
  | nil => exact Frame.refl
  | cons j l ih =>
    intro s
    rw [List.foldl_cons]
    have hstep : Frame s (if s.sharesBss i j then s.checkFastXmit env j else s) :=
      .ite ⟨rfl, fun _ => rfl, rfl, rfl, rfl⟩
    exact hstep.trans (ih _)

theorem frame_setDefaultKey (env : FastEnv) (s : FastState) (i : SdataId) (idx : Option ℕ)
    (uni multi : Bool) : Frame s (s.setDefaultKey env i idx uni multi) := by
  rw [setDefaultKey]
  refine Frame.trans (.ite ?_) (.ite ⟨rfl, fun _ => rfl, rfl, rfl, rfl⟩)
  have hwrite {f : SubIfData → SubIfData} : Frame s (s.updSdata i f) := ⟨rfl, fun _ => rfl, rfl, rfl, rfl⟩
  exact hwrite.trans (frame_foldl env i _ _)

theorem frame_dropDefaults (env : FastEnv) (s : FastState) (i : SdataId) (old : KeyId) :
    Frame s (s.dropDefaults env i old) := by
  rw [dropDefaults]
  exact (Frame.ite (frame_setDefaultKey ..)).trans ((Frame.ite (frame_setDefaultKey ..)).trans
    (.ite ⟨rfl, fun _ => rfl, rfl, rfl, rfl⟩))

theorem frame_moveDefaults (env : FastEnv) (s : FastState) (i : SdataId) (d : SubIfData) (old : KeyId)
    (idx : ℕ) : Frame s (s.moveDefaults env i d old idx) := by
  rw [moveDefaults]
  exact (Frame.ite (frame_setDefaultKey ..)).trans ((Frame.ite (frame_setDefaultKey ..)).trans
    (.ite ⟨rfl, fun _ => rfl, rfl, rfl, rfl⟩))

theorem frame_store (env : FastEnv) (s : FastState) (home : KeyHome) (idx : ℕ)
    (old new : Option KeyId) : Frame s (s.store env home idx old new) := by
  have hupd {s : FastState} {i : SdataId} {f : SubIfData → SubIfData} : Frame s (s.updSdata i f) :=
    ⟨rfl, fun _ => rfl, rfl, rfl, rfl⟩
  rw [store]
  cases home.owner with
  | pairwise j =>
    dsimp only
    split
    · split
      · exact ⟨rfl, fun _ => rfl, rfl, rfl, rfl⟩
      · exact ⟨rfl, fun _ => rfl, rfl, rfl, rfl⟩
    · exact ⟨rfl, fun _ => rfl, rfl, rfl, rfl⟩
  | group j => exact ⟨rfl, fun _ => rfl, rfl, rfl, rfl⟩
  | iface =>
    cases old with
    | none => exact hupd
    | some old =>
      cases new with
      | none => exact (frame_dropDefaults env s home.sdata old).trans hupd
      | some new => exact hupd.trans (frame_moveDefaults ..)

theorem Linked.frame (h : Linked s p k) (hf : Frame s s') : Linked s' p k where
  bound := by rw [hf.nextKey]; exact h.bound
  fits := by rw [hf.home, hf.keyidx]; exact h.fits
  listed := by rw [hf.home, hf.keyList]; exact h.listed

theorem KeysInv.frame (h : KeysInv s) (hf : Frame s s')
    (hheld : ∀ p k, s'.held p = some k → s.held p = some k ∨ Linked s p k) : KeysInv s' where
  held := fun p k hk => by
    rcases hheld p k hk with hk | hl
    · exact (h.held p k hk).frame hf
    · exact hl.frame hf
  list := by
    rw [hf.keyList, hf.nextKey]
    exact h.list

theorem KeysInv.listDel (h : KeysInv s) (hk : ∀ p, s.held p ≠ some k) : KeysInv (s.listDel k) where
  held := fun p k' hk' => by
    have hl := h.held p k' hk'
    have hne : k' ≠ k := by
      rintro rfl
      exact hk p hk'
    refine ⟨hl.bound, hl.fits, ?_⟩
    rw [FastState.listDel]
    dsimp only
    rw [update_apply]
    split
    · rename_i hi
      rw [← hi]
      exact (List.mem_erase_of_ne hne).2 hl.listed
    · exact hl.listed
  list := fun i k' hk' => by
    apply h.list i k'
    rw [FastState.listDel] at hk'
    dsimp only at hk'
    rw [update_apply] at hk'
    split at hk'
    · rename_i hi
      rw [hi]
      exact List.mem_of_mem_erase hk'
    · exact hk'

theorem mem_listAdd {i i' : SdataId} {k k' : KeyId} :
    k' ∈ (s.listAdd i k).keyList i' ↔ k' ∈ s.keyList i' ∨ i' = i ∧ k' = k := by
  rw [listAdd]
  dsimp only
  rw [update_apply]
  split
  · rename_i hi
    rw [List.mem_append, List.mem_singleton, hi]
    simp
  · rename_i hi
    simp [hi]

theorem KeysInv.alloc (h : KeysInv s) (home : KeyHome) (key : Key) :
    KeysInv ((s.allocKey home key).listAdd home.sdata s.loc.nextKey) where
  held := fun p k hk => by
    have hl := h.held p k hk
    have hne : k ≠ s.loc.nextKey := hl.bound.ne
    have hhome : (s.allocKey home key).home k = s.home k := update_of_ne hne ..
    have hkey : (s.allocKey home key).loc.keys k = s.loc.keys k := update_of_ne hne ..
    refine ⟨Nat.lt_succ_of_lt hl.bound, ?_, mem_listAdd.2 (.inl ?_)⟩
    · rw [listAdd]
      dsimp only
      rw [hhome, hkey]
      exact hl.fits
    · rw [listAdd]
      dsimp only
      rw [hhome]
      exact hl.listed
  list := fun i k hk => by
    rcases mem_listAdd.1 hk with hk | ⟨-, rfl⟩
    · exact Nat.lt_succ_of_lt (h.list i k hk)
    · exact Nat.lt_succ_self _

theorem linked_alloc (s : FastState) (home : KeyHome) (key : Key) :
    Linked ((s.allocKey home key).listAdd home.sdata s.loc.nextKey) (home.slot key.keyidx)
      s.loc.nextKey := by
  have hhome : (s.allocKey home key).home s.loc.nextKey = home := update_self ..
  have hkey : (s.allocKey home key).loc.keys s.loc.nextKey = key := update_self ..
  refine ⟨Nat.lt_succ_self _, ?_, mem_listAdd.2 (.inr ⟨?_, rfl⟩)⟩
  · rw [listAdd]
    dsimp only
    rw [hhome, hkey]
    exact home.slot_fits key.keyidx
  · rw [listAdd]
    dsimp only
    rw [hhome]

/-! ### Writing a slot -/

theorem slot_of_fits {home home' : KeyHome} {idx idx' : ℕ}
    (hs : (home.slot idx).Fits home' idx') (hp : p.Fits home' idx') :
    p = home.slot idx ∨ home.owner = .iface ∧ p = .unicast home.sdata := by
  have heq : home.slot idx = home'.slot idx' := by
    rcases hs.cases with h | ⟨-, h⟩
    · exact h
    · obtain ⟨i, owner⟩ := home
      cases owner with
      | pairwise j => cases h
      | group j => cases h
      | iface => cases h
  rcases hp.cases with hp' | ⟨ho, hp'⟩
  · exact .inl (hp'.trans heq.symm)
  · obtain ⟨i, owner⟩ := home
    obtain ⟨i', owner'⟩ := home'
    cases ho
    cases owner with
    | pairwise j => cases heq
    | group j => cases heq
    | iface =>
      cases heq
      exact .inr ⟨rfl, hp'⟩

theorem KeysInv.uses_slot (h : KeysInv s) (hok : FastOk s j)
    (hslot : s.held (home.slot idx) = some k) (hu : Uses s j k) :
    home.owner = .pairwise j ∧ idx = (s.loc.sta j).ptkIdx ∨
      home.owner = .iface ∧ home.sdata = (s.loc.sta j).sdata ∧
        s.held (.unicast home.sdata) = some k := by
  have hfits := (h.held _ _ hslot).fits
  obtain ⟨i, owner⟩ := home
  rcases hok.uses_held hu with hk | hk
  · rcases slot_of_fits hfits (h.held _ _ hk).fits with hp | ⟨-, hp⟩
    · cases owner with
      | pairwise j' =>
        cases hp
        exact .inl ⟨rfl, rfl⟩
      | group j' => cases hp
      | iface => cases hp
    · cases hp
  · rcases slot_of_fits hfits (h.held _ _ hk).fits with hp | ⟨ho, hp⟩
    · cases owner with
      | pairwise j' => cases hp
      | group j' => cases hp
      | iface => cases hp
    · cases ho
      cases hp
      exact .inr ⟨rfl, rfl, hk⟩

theorem fastOk_defaults {i : SdataId} {c c' c'' : Prop} [Decidable c] [Decidable c']
    [Decidable c''] (env : FastEnv) (idx : Option ℕ) (hj : j ∈ s.loc.staList)
    (h : FastOk s j ∨ c ∧ (s.loc.sta j).sdata = i) :
    let s := if c then s.setDefaultKey env i idx true false else s
    let s := if c' then s.setDefaultKey env i idx false true else s
    FastOk (if c'' then s.setDefaultMgmtKey i idx else s) j := by
  have huni : FastOk (if c then s.setDefaultKey env i idx true false else s) j := by
    split
    · exact fastOk_setDefaultKey env i idx true false hj (h.imp_right fun h => ⟨rfl, h.2⟩)
    · rename_i hc
      exact h.resolve_right fun h => hc h.1
  have hj' : j ∈ (if c then s.setDefaultKey env i idx true false else s).loc.staList := by
    rw [(Frame.ite (frame_setDefaultKey env s i idx true false)).staList]
    exact hj
  intro s₁ s₂
  have hmulti : FastOk s₂ j := by
    change FastOk (if c' then s₁.setDefaultKey env i idx false true else s₁) j
    split
    · exact fastOk_setDefaultKey env i idx false true hj' (.inl huni)
    · exact huni
  split
  · exact hmulti.setDefaultMgmtKey i idx
  · exact hmulti

/-- Writing a slot: a station whose pairwise key in use changes is looked at again, unless the new
one is not to be used yet, and so are users of the interface's default key. -/
theorem fastOk_store (env : FastEnv) {old new : Option KeyId} (hj : j ∈ s.loc.staList)
    (hok : FastOk s j ∨ home.owner = .iface ∧ home.sdata = (s.loc.sta j).sdata ∧
      ∃ k, old = some k ∧ s.held (.unicast home.sdata) = some k)
    (hptk : home.owner = .pairwise j → (∃ k, new = some k ∧ (s.loc.keys k).noAutoTx = false) ∨
      idx ≠ (s.loc.sta j).ptkIdx ∨ (s.loc.sta j).fastTx = none ∨ s.held (.ptk j idx) = new) :
    FastOk (s.store env home idx old new) j := by
  obtain ⟨i, owner⟩ := home
  cases owner with
  | pairwise j' =>
    replace hok : FastOk s j := hok.resolve_right fun h => by cases h.1
    have hquiet (hauto : j = j' → idx ≠ (s.loc.sta j).ptkIdx ∨ (s.loc.sta j).fastTx = none ∨
        s.held (.ptk j idx) = new) :
        FastOk (s.updSta j' fun t => { t with ptk := Function.update t.ptk idx new }) j := by
      by_cases hjj : j = j'
      · subst hjj
        rcases hauto rfl with hne | hnone | heq
        · refine hok.of_sameView (sameView_updSta fun _ => ⟨rfl, ?_, rfl, rfl⟩)
          exact update_of_ne (Ne.symm hne) ..
        · refine .of_none ?_
          rw [updSta, Local.updSta_sta_self]
          exact hnone
        · refine hok.of_sameView (sameView_updSta fun _ => ⟨rfl, ?_, rfl, rfl⟩)
          rw [← heq]
          exact congrFun (update_eq_self idx (s.loc.sta j).ptk) _
      · exact hok.of_sameView (sameView_updSta fun h => absurd h hjj)
    rw [store]
    dsimp only
    cases new with
    | none =>
      exact hquiet fun hjj => (hptk (hjj ▸ rfl)).resolve_left fun h => by cases h.choose_spec.1
    | some k =>
      dsimp only
      split
      · rename_i hauto
        refine hquiet fun hjj => (hptk (hjj ▸ rfl)).resolve_left ?_
        rintro ⟨k', hk', h⟩
        cases hk'
        have hauto : (s.loc.keys k).noAutoTx = true := hauto
        rw [h] at hauto
        cases hauto
      · by_cases hjj : j = j'
        · subst hjj
          exact checkFastXmit_fastOk ..
        · exact (hok.of_sameView (sameView_updSta fun h => absurd h hjj)).of_sameView
            (sameView_updSta fun h => absurd h hjj) |>.checkFastXmit env j'
  | group j' =>
    have hok : FastOk s j := hok.resolve_right fun h => by cases h.1
    exact hok.of_sameView (sameView_updSta fun _ => ⟨rfl, rfl, rfl, rfl⟩)
  | iface =>
    cases old with
    | none =>
      have hok : FastOk s j := hok.resolve_right fun h => by cases h.2.2.choose_spec.1
      exact hok.of_sameView (sameView_updSdata fun _ => rfl)
    | some old =>
      have hcase : FastOk s j ∨
          (s.loc.sdata i).defaultUnicastKey = some old ∧ (s.loc.sta j).sdata = i := by
        refine hok.imp_right ?_
        rintro ⟨_, hi, k, hk, hu⟩
        cases hk
        exact ⟨hu, hi.symm⟩
      cases new with
      | none =>
        have hdrop : FastOk (s.dropDefaults env i old) j := fastOk_defaults env none hj hcase
        exact hdrop.of_sameView (sameView_updSdata fun _ => rfl)
      | some new =>
        refine fastOk_defaults env (some (s.loc.keys new).keyidx) hj (hcase.imp_left fun hok => ?_)
        exact hok.of_sameView (sameView_updSdata fun _ => rfl)

end FastState

end Mac80211
