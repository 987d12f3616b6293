import Mac80211.Keys.FastTxSlots

/-!
# Linking and freeing keys

`ieee80211_key_link` and `ieee80211_key_free` keep the cached headers right, except where the
pairwise key in use goes away, or the hardware gives up a default key for one that is refused.

## Main definitions

* `FastInv`, `LinkKeeps`
-/

namespace Mac80211

open Function

namespace FastState

variable {s s' : FastState}

/-! ### The hardware's part -/

/-- Only keys of a kind were written. -/
structure KeyWrites (s s' : FastState) (P : KeyId → Prop) : Prop where
  sta : s'.loc.sta = s.loc.sta
  sdata : s'.loc.sdata = s.loc.sdata
  ps : s'.ps = s.ps
  frame : Frame s s'
  noAutoTx : ∀ k, (s'.loc.keys k).noAutoTx = (s.loc.keys k).noAutoTx
  keys : ∀ k, ¬ P k → s'.loc.keys k = s.loc.keys k

theorem KeyWrites.refl (s : FastState) (P : KeyId → Prop) : KeyWrites s s P :=
  ⟨rfl, rfl, rfl, .refl s, fun _ => rfl, fun _ _ => rfl⟩

variable {P : KeyId → Prop}

theorem KeyWrites.trans {s'' : FastState} (h : KeyWrites s s' P)
    (h' : KeyWrites s' s'' P) : KeyWrites s s'' P where
  sta := h'.sta.trans h.sta
  sdata := h'.sdata.trans h.sdata
  ps := h'.ps.trans h.ps
  frame := h.frame.trans h'.frame
  noAutoTx := fun k => (h'.noAutoTx k).trans (h.noAutoTx k)
  keys := fun k hk => (h'.keys k hk).trans (h.keys k hk)

theorem KeyWrites.held (h : KeyWrites s s' P) : s'.held = s.held := by
  funext p
  cases p with
  | ptk j idx => exact congrArg (fun sta => (sta j).ptk idx) h.sta
  | gtk j idx => exact congrArg (fun sta => (sta j).gtk idx) h.sta
  | keys i idx => exact congrArg (fun sdata => (sdata i).keys idx) h.sdata
  | unicast i => exact congrArg (fun sdata => (sdata i).defaultUnicastKey) h.sdata

variable {j : StaId}

theorem KeyWrites.sameView (h : KeyWrites s s' P)
    (hu : ∀ k, P k → ¬ Uses s j k) : SameView s s' j where
  chosen := by
    rw [FastState.chosen, FastState.chosen, Local.ptkOf, Local.ptkOf, Local.sdataOf, Local.sdataOf,
      h.sta, h.sdata]
  fastTx := by rw [h.sta]
  staState := by rw [h.sta]
  ps := by rw [h.ps]
  flags := fun k hk => by
    rw [h.keys k fun hP => hu k hP hk]
    exact ⟨rfl, rfl, rfl⟩

theorem KeyWrites.keysInv (h : KeyWrites s s' P) (hs : KeysInv s) : KeysInv s' :=
  hs.frame h.frame fun _ _ hk => .inl (h.held ▸ hk)

variable {k : KeyId}

theorem KeyWrites.updKey {f : Key → Key} (hk : P k)
    (hidx : (f (s.loc.keys k)).keyidx = (s.loc.keys k).keyidx)
    (hauto : (f (s.loc.keys k)).noAutoTx = (s.loc.keys k).noAutoTx) :
    KeyWrites s (s.updKey k f) P where
  sta := rfl
  sdata := rfl
  ps := rfl
  frame := frame_updKey hidx
  noAutoTx := fun k' => by
    by_cases h : k' = k
    · subst h
      rw [FastState.updKey, Local.updKey_keys_self, hauto]
    · rw [FastState.updKey, Local.updKey_keys_of_ne _ h]
  keys := fun k' hk' => by
    have h : k' ≠ k := by
      rintro rfl
      exact hk' hk
    rw [FastState.updKey, Local.updKey_keys_of_ne _ h]

theorem keyWrites_enableHwAccel (env : FastEnv) (s : FastState)
    (hk : P k) : KeyWrites s (s.enableHwAccel env k).1 P := by
  rw [enableHwAccel]
  split
  · exact .updKey hk rfl rfl
  · dsimp only
    split
    · exact .updKey hk rfl rfl
    · exact .refl s P

theorem keyWrites_replaceInHw (env : FastEnv) (s : FastState) (old new : Option KeyId) :
    KeyWrites s (s.replaceInHw env old new).1 fun k => old = some k ∨ new = some k := by
  cases old with
  | some k =>
    cases new with
    | some k' =>
      rw [replaceInHw]
      split
      · exact KeyWrites.trans (.updKey (.inl rfl) rfl rfl) (keyWrites_enableHwAccel env _ (.inr rfl))
      · exact .refl s _
    | none =>
      rw [replaceInHw]
      split
      · exact .updKey (.inl rfl) rfl rfl
      · exact .refl s _
  | none =>
    cases new with
    | some k' =>
      rw [replaceInHw]
      split
      · exact .refl s _
      · exact keyWrites_enableHwAccel env s (.inr rfl)
    | none => exact .refl s _

/-- What the driver is asked about a key depends on the station and the interface only. -/
theorem inSoftware_congr (env : FastEnv) (home : KeyHome) (cipher : Cipher)
    (hsta : ∀ j, (s'.loc.sta j).uploaded = (s.loc.sta j).uploaded)
    (hsdata : s'.loc.sdata = s.loc.sdata) :
    s'.inSoftware env home cipher = s.inSoftware env home cipher := by
  simp only [inSoftware, askDriver, hsta, hsdata]

/-- The new key can not be used: the hardware was asked, and has refused. -/
theorem replaceInHw_refused {env : FastEnv} {old : Option KeyId}
    (htaint : (s.loc.keys k).tainted = false) (hold : old ≠ some k)
    (h : (s.replaceInHw env old (some k)).2 = false) :
    s.inSoftware env (s.home k) (s.loc.keys k).cipher = false ∧
      (∀ k' ∈ old, (s.loc.keys k').uploadedToHardware = true) ∧ (old = none → env.wowlan = false) := by
  have henable {s : FastState} (ht : (s.loc.keys k).tainted = false) :
      (s.enableHwAccel env k).2 = s.inSoftware env (s.home k) (s.loc.keys k).cipher := by
    rw [enableHwAccel]
    simp [ht]
  cases old with
  | some k' =>
    have hne : k ≠ k' := by
      rintro rfl
      exact hold rfl
    have hkey : (s.disableHwAccel k').loc.keys k = s.loc.keys k := update_of_ne hne ..
    rw [replaceInHw] at h
    split at h
    · rename_i hup
      rw [henable (by rw [hkey]; exact htaint), hkey] at h
      refine ⟨?_, fun k'' hk'' => ?_, fun hn => by cases hn⟩
      · rw [← h]
        exact (inSoftware_congr (s := s) env _ _ (fun _ => rfl) rfl).symm
      · cases hk''
        exact hup
    · cases h
  | none =>
    rw [replaceInHw] at h
    split at h
    · cases h
    · rename_i hw
      rw [henable htaint] at h
      exact ⟨h, fun _ hk' => (by cases hk'), fun _ => by simpa using hw⟩

/-! ### Keys are linked and freed -/

/-- What holds between operations. -/
structure FastInv (s : FastState) : Prop where
  keys : KeysInv s
  fast : ∀ j ∈ s.loc.staList, FastOk s j

theorem FastInv.keyWrites (h : FastInv s) (hw : KeyWrites s s' P)
    (hu : ∀ j ∈ s.loc.staList, ∀ k, P k → ¬ Uses s j k) : FastInv s' where
  keys := hw.keysInv h.keys
  fast := fun j hj => by
    rw [hw.frame.staList] at hj
    exact (h.fast j hj).of_sameView (hw.sameView (hu j hj))

/-- A key that is in no slot but its own, and perhaps the default, is replaced by nothing. -/
theorem fastInv_replaceByNone (env : FastEnv) (home : KeyHome) (idx : ℕ) (k : KeyId) (hkeys : KeysInv s)
    (hslot : ∀ p, s.held p = some k →
      p = home.slot idx ∨ home.owner = .iface ∧ p = .unicast home.sdata)
    (hfast : ∀ j ∈ s.loc.staList, FastOk s j)
    (huses : ∀ j ∈ s.loc.staList, Uses s j k → (s.loc.sta j).fastTx = none ∨
      home.owner = .iface ∧ home.sdata = (s.loc.sta j).sdata ∧ s.held (.unicast home.sdata) = some k)
    (hptk : ∀ j ∈ s.loc.staList, home.owner = .pairwise j → idx ≠ (s.loc.sta j).ptkIdx ∨
      (s.loc.sta j).fastTx = none ∨ s.held (.ptk j idx) = none) :
    FastInv (s.keyReplace env home idx (some k) none).1 := by
  obtain ⟨s₁, hs₁⟩ : ∃ s₁, s₁ = (s.replaceInHw env (some k) none).1 := ⟨_, rfl⟩
  have hwrites : KeyWrites s s₁ fun k' => some k = some k' ∨ none = some k' :=
    hs₁ ▸ keyWrites_replaceInHw env s (some k) none
  have heq : (s.keyReplace env home idx (some k) none).1 =
      (s₁.store env home idx (some k) none).listDel k := by
    have hok : (s.replaceInHw env (some k) none).2 = true := by
      rw [replaceInHw]
      split
      · rfl
      · rfl
    rw [hs₁]
    obtain ⟨i, owner⟩ := home
    cases owner with
    | pairwise j => simp [keyReplace, hok]
    | group j => simp [keyReplace, hok]
    | iface => simp [keyReplace, hok]
  have hframe := frame_store env s₁ home idx (some k) none
  have hstored : ∀ p k', (s₁.store env home idx (some k) none).held p = some k' →
      s.held p = some k' ∧ k' ≠ k := by
    intro p k' hk'
    rcases held_store env (fun _ h => by cases h) hk' with ⟨-, h⟩ | ⟨hp, hheld, hdef⟩
    · cases h
    · rw [hwrites.held] at hheld
      refine ⟨hheld, ?_⟩
      rintro rfl
      rcases hslot p hheld with rfl | ⟨ho, rfl⟩
      · exact hp rfl
      · exact hdef ho rfl rfl
  rw [heq]
  constructor
  · apply KeysInv.listDel
    · exact (hwrites.keysInv hkeys).frame hframe fun p k' hk' => .inl (hwrites.held ▸ (hstored p k' hk').1)
    · exact fun p hp => (hstored p k hp).2 rfl
  · intro j hj
    have hj : j ∈ (s₁.store env home idx (some k) none).loc.staList := hj
    rw [hframe.staList] at hj
    have hj' : j ∈ s.loc.staList := hwrites.frame.staList ▸ hj
    refine FastOk.of_sameView (fastOk_store env hj ?_ ?_) (sameView_listDel k j)
    · rw [hwrites.sta, hwrites.held]
      by_cases hu : Uses s j k
      · rcases huses j hj' hu with hnone | ⟨ho, hi, hd⟩
        · exact .inl (.of_none (hwrites.sta ▸ hnone))
        · exact .inr ⟨ho, hi, k, rfl, hd⟩
      · refine .inl ((hfast j hj').of_sameView (hwrites.sameView fun k' hk' => ?_))
        rcases hk' with hk' | hk'
        · cases hk'
          exact hu
        · cases hk'
    · intro ho
      rw [hwrites.sta, hwrites.held]
      exact .inr (hptk j hj' ho)

/-- The pairwise key in use is not in this slot, or nothing is cached. -/
def KeepsPtk (s : FastState) (home : KeyHome) (idx : ℕ) : Prop :=
  match home.owner with
  | .pairwise j => idx ≠ (s.loc.sta j).ptkIdx ∨ (s.loc.sta j).fastTx = none
  | _ => True

instance (s : FastState) (home : KeyHome) (idx : ℕ) : Decidable (KeepsPtk s home idx) := by
  unfold KeepsPtk
  split
  all_goals infer_instance

theorem KeepsPtk.pairwise {home : KeyHome} {idx : ℕ} (h : KeepsPtk s home idx)
    (ho : home.owner = .pairwise j) : idx ≠ (s.loc.sta j).ptkIdx ∨ (s.loc.sta j).fastTx = none := by
  rw [KeepsPtk, ho] at h
  exact h

theorem fastInv_keyFree (env : FastEnv) (home : KeyHome) (idx : ℕ) (h : FastInv s)
    (hkeeps : s.slot home idx = none ∨ KeepsPtk s home idx) : FastInv (s.keyFree env home idx) := by
  rw [keyFree]
  split
  · exact h
  · rename_i k hk
    have hkeeps : KeepsPtk s home idx := hkeeps.resolve_left fun hn => by
      rw [hk] at hn
      cases hn
    rw [slot_eq_held] at hk
    have hlinked := h.keys.held _ _ hk
    have hslot : (s.home k).slot (s.loc.keys k).keyidx = home.slot idx := by
      rcases slot_of_fits hlinked.fits ((s.home k).slot_fits (s.loc.keys k).keyidx) with hs | ⟨-, hs⟩
      · exact hs
      · rw [KeyHome.slot] at hs
        split at hs
        all_goals cases hs
    have hk' : s.held ((s.home k).slot (s.loc.keys k).keyidx) = some k := hslot ▸ hk
    have hptk (j : StaId) (ho : (s.home k).owner = .pairwise j) :
        (s.loc.keys k).keyidx ≠ (s.loc.sta j).ptkIdx ∨ (s.loc.sta j).fastTx = none := by
      rw [KeyHome.slot_eq_ptk.2 ⟨ho, rfl⟩] at hslot
      obtain ⟨ho', rfl⟩ := KeyHome.slot_eq_ptk.1 hslot.symm
      exact hkeeps.pairwise ho'
    refine fastInv_replaceByNone env _ _ k h.keys ?_ h.fast ?_ ?_
    · intro p hp
      exact slot_of_fits ((s.home k).slot_fits _) (h.keys.held p k hp).fits
    · intro j hj hu
      rcases h.keys.uses_slot (h.fast j hj) hk' hu with ⟨ho, hi⟩ | hd
      · exact .inl ((hptk j ho).resolve_left fun hne => hne hi)
      · exact .inr hd
    · intro j hj ho
      exact (hptk j ho).imp_right .inl

theorem FastInv.alloc (h : FastInv s) (home : KeyHome) (key : Key) :
    FastInv ((s.allocKey home key).listAdd home.sdata s.loc.nextKey) where
  keys := h.keys.alloc home key
  fast := fun j hj => by
    have hnew : ¬ Uses s j s.loc.nextKey := fun hu => by
      rcases (h.fast j hj).uses_held hu with hk | hk
      · exact absurd (h.keys.held _ _ hk).bound (lt_irrefl _)
      · exact absurd (h.keys.held _ _ hk).bound (lt_irrefl _)
    exact ((h.fast j hj).of_sameView (sameView_allocKey hnew)).of_sameView (sameView_listAdd ..)

/-- `ieee80211_pairwise_rekey`, for a pairwise key. -/
def rekeyed (s : FastState) (home : KeyHome) (old : Option KeyId) (k : KeyId) : FastState :=
  match home.owner with
  | .pairwise j => s.pairwiseRekey j old k
  | _ => s

/-- Sending stops until the new key is there, if the old one is in the hardware and the new one is to be
used. -/
theorem rekeyed_cases (s : FastState) (home : KeyHome) (old : Option KeyId) (k : KeyId) :
    (s.rekeyed home old k = s ∧ ∀ j k', home.owner = .pairwise j → old = some k' →
      (s.loc.keys k).noAutoTx = true ∨ (s.loc.keys k').uploadedToHardware = false) ∨
    ∃ j k', home.owner = .pairwise j ∧ old = some k' ∧ s.rekeyed home old k =
      (s.updKey k' fun key => { key with tainted := true }).clearFastXmit j := by
  obtain ⟨i, owner⟩ := home
  cases owner with
  | pairwise j =>
    rw [rekeyed]
    dsimp only
    unfold pairwiseRekey
    split
    · rename_i hauto
      exact .inl ⟨rfl, fun _ _ _ _ => .inl hauto⟩
    · split
      · exact .inl ⟨rfl, fun _ _ _ h => by cases h⟩
      · rename_i k'
        split
        · exact .inr ⟨j, k', rfl, rfl, rfl⟩
        · rename_i hup
          refine .inl ⟨rfl, fun _ k'' _ h => .inr ?_⟩
          cases h
          simpa using hup
  | group j => exact .inl ⟨rfl, fun _ _ h => by cases h⟩
  | iface => exact .inl ⟨rfl, fun _ _ h => by cases h⟩

/-- What stopping does not touch. -/
structure Rekeyed (s s' : FastState) (old : Option KeyId) : Prop where
  frame : Frame s s'
  held : s'.held = s.held
  uploaded : ∀ j, (s'.loc.sta j).uploaded = (s.loc.sta j).uploaded
  ptkIdx : ∀ j, (s'.loc.sta j).ptkIdx = (s.loc.sta j).ptkIdx
  staSdata : ∀ j, (s'.loc.sta j).sdata = (s.loc.sta j).sdata
  fastTx : ∀ j, (s'.loc.sta j).fastTx = (s.loc.sta j).fastTx ∨ (s'.loc.sta j).fastTx = none
  sdata : s'.loc.sdata = s.loc.sdata
  keys : ∀ k, old ≠ some k → s'.loc.keys k = s.loc.keys k
  inHw : ∀ k, (s'.loc.keys k).uploadedToHardware = (s.loc.keys k).uploadedToHardware

theorem rekeyed_spec (s : FastState) (home : KeyHome) (old : Option KeyId) (k : KeyId) :
    Rekeyed s (s.rekeyed home old k) old := by
  rcases rekeyed_cases s home old k with ⟨heq, -⟩ | ⟨j, k', -, rfl, heq⟩
  · rw [heq]
    exact ⟨.refl s, rfl, fun _ => rfl, fun _ => rfl, fun _ => rfl, fun _ => .inl rfl, rfl,
      fun _ _ => rfl, fun _ => rfl⟩
  · rw [heq]
    have hsta (j' : StaId) : ∃ f, ((s.updKey k' fun key => { key with tainted := true }).clearFastXmit
        j).loc.sta j' = { s.loc.sta j' with fastTx := f } ∧ (f = (s.loc.sta j').fastTx ∨ f = none) := by
      by_cases hj : j' = j
      · subst hj
        exact ⟨none, update_self .., .inr rfl⟩
      · exact ⟨(s.loc.sta j').fastTx, update_of_ne hj .., .inl rfl⟩
    refine ⟨?_, ?_, fun j' => ?_, fun j' => ?_, fun j' => ?_, fun j' => ?_, rfl, fun k'' hk'' => ?_,
      fun k'' => ?_⟩
    · have hkey : Frame s (s.updKey k' fun key => { key with tainted := true }) := frame_updKey rfl
      exact hkey.trans ⟨rfl, fun _ => rfl, rfl, rfl, rfl⟩
    · exact held_clearFastXmit _ j
    · obtain ⟨f, hf, -⟩ := hsta j'
      rw [hf]
    · obtain ⟨f, hf, -⟩ := hsta j'
      rw [hf]
    · obtain ⟨f, hf, -⟩ := hsta j'
      rw [hf]
    · obtain ⟨f, hf, hcase⟩ := hsta j'
      rw [hf]
      exact hcase
    · have hne : k'' ≠ k' := fun he => hk'' (by rw [he])
      exact update_of_ne hne ..
    · by_cases hk : k'' = k'
      · subst hk
        have hself := congrArg Key.uploadedToHardware
          (Local.updKey_keys_self s.loc k'' fun key => { key with tainted := true })
        exact hself
      · exact congrArg Key.uploadedToHardware (update_of_ne hk ..)

theorem FastInv.rekeyed (h : FastInv s) {home : KeyHome} {idx : ℕ} {old : Option KeyId} (k : KeyId)
    (hslot : s.held (home.slot idx) = old) : FastInv (s.rekeyed home old k) where
  keys := by
    have hspec := rekeyed_spec s home old k
    exact h.keys.frame hspec.frame fun p k' hk' => .inl (hspec.held ▸ hk')
  fast := fun j hj => by
    rw [(rekeyed_spec s home old k).frame.staList] at hj
    rcases rekeyed_cases s home old k with ⟨heq, -⟩ | ⟨j', k', ho, rfl, heq⟩
    · rw [heq]
      exact h.fast j hj
    · rw [heq]
      by_cases hjj : j = j'
      · exact hjj ▸ .of_none (fastTx_clearFastXmit _ j)
      · have hu : ¬ Uses s j k' := fun hu => by
          rcases h.keys.uses_slot (h.fast j hj) hslot hu with ⟨ho', -⟩ | ⟨ho', -⟩
          · rw [ho] at ho'
            cases ho'
            exact hjj rfl
          · rw [ho] at ho'
            cases ho'
        exact ((h.fast j hj).of_sameView (sameView_updKey hu)).clearFastXmit j'

/-- `if (old) list_del_rcu(&old->list)`. -/
def listDelOld (s : FastState) (old : Option KeyId) : FastState :=
  match old with
  | some k => s.listDel k
  | none => s

theorem keyReplace_some (env : FastEnv) (s : FastState) (home : KeyHome) (idx : ℕ) (old : Option KeyId)
    (k : KeyId) : s.keyReplace env home idx old (some k) =
      let r := ((s.listAdd home.sdata k).rekeyed home old k).replaceInHw env old (some k)
      if r.2 then ((r.1.store env home idx old (some k)).listDelOld old, true) else (r.1, false) := by
  obtain ⟨i, owner⟩ := home
  have hkeep (r : FastState × Bool) : (if !r.2 then (r.1, false) else
      match old with
      | some k' => ((r.1.store env ⟨i, owner⟩ idx old (some k)).listDel k', true)
      | none => (r.1.store env ⟨i, owner⟩ idx old (some k), true)) =
      if r.2 then ((r.1.store env ⟨i, owner⟩ idx old (some k)).listDelOld old, true)
      else (r.1, false) := by
    obtain ⟨s', ok⟩ := r
    cases ok with
    | false => rfl
    | true => cases old <;> rfl
  cases owner with
  | pairwise j => exact hkeep _
  | group j => exact hkeep _
  | iface => exact hkeep _

/-- The new key is refused or not wanted yet; or a pairwise key that is to be used, or not for the
slot in use; or one for an interface that takes over from a key in use. -/
def LinkKeeps (env : FastEnv) (s : FastState) (home : KeyHome) (idx : ℕ) (key : Key) : Prop :=
  s.otherCipher home idx key.cipher = true ∨ s.keyIdentical home (s.slot home idx) key = true ∨
    match home.owner with
    | .pairwise _ => key.noAutoTx = false ∨ KeepsPtk s home idx ∨
      s.slot home idx = none ∧ env.wowlan = false ∧ s.inSoftware env home key.cipher = false
    | .group _ => True
    | .iface => s.inSoftware env home key.cipher = true ∨
      ∀ j ∈ s.loc.staList, ∀ k ∈ s.slot home idx, ¬ Uses s j k

instance (env : FastEnv) (s : FastState) (home : KeyHome) (idx : ℕ) (key : Key) :
    Decidable (LinkKeeps env s home idx key) := by
  unfold LinkKeeps
  cases home.owner
  all_goals infer_instance

/-- A key is put in place of another. It is in memory and listed, and nobody sends with it. -/
structure Replacing (env : FastEnv) (s : FastState) (home : KeyHome) (idx : ℕ) (old : Option KeyId)
    (k : KeyId) : Prop where
  inv : FastInv s
  linked : Linked s (home.slot idx) k
  home_eq : s.home k = home
  keyidx : (s.loc.keys k).keyidx = idx
  fresh : ∀ p, s.held p ≠ some k
  old_eq : s.held (home.slot idx) = old
  untainted : (s.loc.keys k).tainted = false
  pairwise : ∀ j, home.owner = .pairwise j → (s.loc.keys k).noAutoTx = false ∨
    (idx ≠ (s.loc.sta j).ptkIdx ∨ (s.loc.sta j).fastTx = none) ∨
      old = none ∧ env.wowlan = false ∧ s.inSoftware env home (s.loc.keys k).cipher = false
  iface : home.owner = .iface → s.inSoftware env home (s.loc.keys k).cipher = true ∨
    ∀ j ∈ s.loc.staList, ∀ k ∈ old, ¬ Uses s j k

section

variable {env : FastEnv} {home : KeyHome} {idx : ℕ} {old : Option KeyId} {k : KeyId}

/-- Once sending has stopped, the old key is used as the default of an interface only. -/
theorem Replacing.uses_old (h : Replacing env s home idx old k) (hj : j ∈ s.loc.staList)
    {k' : KeyId} (hk' : old = some k') (hu : Uses (s.rekeyed home old k) j k') :
    home.owner = .iface ∧ home.sdata = (s.loc.sta j).sdata ∧ s.held (.unicast home.sdata) = some k' ∧
      s.inSoftware env home (s.loc.keys k).cipher = true := by
  have hspec := rekeyed_spec s home old k
  have hinv := h.inv.rekeyed k h.old_eq
  have hok := hinv.fast j (by rw [hspec.frame.staList]; exact hj)
  have hsome : ((s.rekeyed home old k).loc.sta j).fastTx = (s.loc.sta j).fastTx := by
    refine (hspec.fastTx j).resolve_right fun hnone => ?_
    obtain ⟨f, hf, -⟩ := hu
    rw [hnone] at hf
    cases hf
  have huses : Uses s j k' := by
    obtain ⟨f, hf, hfk⟩ := hu
    exact ⟨f, hsome ▸ hf, hfk⟩
  rcases h.inv.keys.uses_slot (h.inv.fast j hj) (h.old_eq.trans hk') huses with ⟨ho, hi⟩ | ⟨ho, hi, hd⟩
  · -- its pairwise key: nothing is cached any more
    exfalso
    obtain ⟨f, hf, hfk⟩ := huses
    have hup := ((h.inv.fast j hj).hardware f hf k' hfk).1
    rcases h.pairwise j ho with hauto | (hne | hnone) | ⟨hnone, -⟩
    · rcases rekeyed_cases s home old k with ⟨-, hcases⟩ | ⟨j', k'', ho', -, heq⟩
      · rcases hcases j k' ho hk' with hno | hdown
        · rw [hauto] at hno
          cases hno
        · rw [hup] at hdown
          cases hdown
      · rw [ho] at ho'
        cases ho'
        rw [heq, fastTx_clearFastXmit] at hsome
        rw [← hsome] at hf
        cases hf
    · exact hne hi
    · rw [hnone] at hf
      cases hf
    · rw [hnone] at hk'
      cases hk'
  · refine ⟨ho, hi, hd, (h.iface ho).resolve_right fun hno => ?_⟩
    exact hno j hj k' hk' huses

theorem Replacing.rekeyed (h : Replacing env s home idx old k) :
    (s.rekeyed home old k).loc.keys k = s.loc.keys k ∧
      (s.rekeyed home old k).inSoftware env home (s.loc.keys k).cipher =
        s.inSoftware env home (s.loc.keys k).cipher ∧ old ≠ some k := by
  have hspec := rekeyed_spec s home old k
  have hne : old ≠ some k := h.old_eq ▸ h.fresh _
  exact ⟨hspec.keys k hne, inSoftware_congr env home _ hspec.uploaded hspec.sdata, hne⟩

theorem Replacing.not_uses (h : Replacing env s home idx old k) (hj : j ∈ s.loc.staList) :
    ¬ Uses (s.rekeyed home old k) j k := fun hu => by
  have hspec := rekeyed_spec s home old k
  have hok := (h.inv.rekeyed k h.old_eq).fast j (by rw [hspec.frame.staList]; exact hj)
  rcases hok.uses_held hu with hk | hk
  · exact h.fresh _ (hspec.held ▸ hk)
  · exact h.fresh _ (hspec.held ▸ hk)

theorem replaceInHw_none (henv : env.wowlan = false) (htaint : (s.loc.keys k).tainted = false) :
    (s.replaceInHw env none (some k)).2 = s.inSoftware env (s.home k) (s.loc.keys k).cipher := by
  rw [replaceInHw, if_neg (by simp [henv]), enableHwAccel]
  simp [htaint]

theorem Replacing.taken (h : Replacing env s home idx old k)
    (hr : ((s.rekeyed home old k).replaceInHw env old (some k)).2 = true) :
    FastInv ((((s.rekeyed home old k).replaceInHw env old (some k)).1.store env home idx old
      (some k)).listDelOld old) := by
  have hspec := rekeyed_spec s home old k
  have hinv := h.inv.rekeyed k h.old_eq
  obtain ⟨hkey, hsoft, hne⟩ := h.rekeyed
  obtain ⟨s₁, hs₁⟩ : ∃ s₁, s₁ = s.rekeyed home old k := ⟨_, rfl⟩
  obtain ⟨s₂, hs₂⟩ : ∃ s₂, s₂ = (s₁.replaceInHw env old (some k)).1 := ⟨_, rfl⟩
  have hw : KeyWrites s₁ s₂ fun k' => old = some k' ∨ some k = some k' :=
    hs₂ ▸ keyWrites_replaceInHw env s₁ old (some k)
  rw [← hs₁] at hspec hinv hkey hsoft hr
  rw [← hs₁, ← hs₂]
  have hidx : (s₂.loc.keys k).keyidx = idx := by rw [hw.frame.keyidx, hkey, h.keyidx]
  have hframe := hspec.frame.trans hw.frame
  have hheld : s₂.held = s.held := hw.held.trans hspec.held
  have hstore := frame_store env s₂ home idx old (some k)
  have hnew : ∀ k' ∈ some k, (s₂.loc.keys k').keyidx = idx := fun k' hk' => by
    cases hk'
    exact hidx
  have hlinked : Linked s₂ (home.slot idx) k := h.linked.frame hframe
  have hkeys : KeysInv (s₂.store env home idx old (some k)) := by
    refine (hw.keysInv hinv.keys).frame hstore fun p k' hk' => ?_
    rcases held_store env hnew hk' with ⟨hp, hk⟩ | ⟨-, hk, -⟩
    · cases hk
      refine .inr ⟨hlinked.bound, ?_, hlinked.listed⟩
      rw [hidx, hframe.home, h.home_eq]
      rcases hp with rfl | ⟨ho, rfl⟩
      · exact home.slot_fits idx
      · obtain ⟨i, owner⟩ := home
        cases ho
        rfl
    · exact .inl hk
  have hgone (k' : KeyId) (hk' : old = some k') (p : KeySlot) :
      (s₂.store env home idx old (some k)).held p ≠ some k' := fun hp => by
    rcases held_store env hnew hp with ⟨-, hk⟩ | ⟨hp, hk, hd⟩
    · exact hne (hk'.trans hk.symm)
    · rw [hheld] at hk
      rcases slot_of_fits (h.inv.keys.held _ _ (h.old_eq.trans hk')).fits (h.inv.keys.held p k' hk).fits
        with hs | ⟨ho, hs⟩
      · exact hp hs
      · exact hd ho hs hk'
  have hfast : ∀ j ∈ s.loc.staList, FastOk (s₂.store env home idx old (some k)) j := by
    intro j hj
    have hj₁ : j ∈ s₁.loc.staList := hspec.frame.staList ▸ hj
    have hj₂ : j ∈ s₂.loc.staList := hframe.staList ▸ hj
    refine fastOk_store env hj₂ ?_ ?_
    · by_cases hu : ∃ k', old = some k' ∧ Uses s₁ j k'
      · obtain ⟨k', hk', hu⟩ := hu
        obtain ⟨ho, hi, hd, -⟩ := h.uses_old hj hk' (hs₁ ▸ hu)
        exact .inr ⟨ho, by rw [hw.sta, hspec.staSdata]; exact hi, k', hk', by rw [hheld]; exact hd⟩
      · refine .inl ((hinv.fast j hj₁).of_sameView (hw.sameView fun k' hk' hu' => ?_))
        rcases hk' with hk' | hk'
        · exact hu ⟨k', hk', hu'⟩
        · cases hk'
          exact h.not_uses hj (hs₁ ▸ hu')
    · intro ho
      have hauto : (s₂.loc.keys k).noAutoTx = (s.loc.keys k).noAutoTx := by rw [hw.noAutoTx, hkey]
      rcases h.pairwise j ho with hno | (hidx' | hnone) | ⟨rfl, hwow, hrefuse⟩
      · exact .inl ⟨k, rfl, hauto.trans hno⟩
      · exact .inr (.inl (by rw [hw.sta, hspec.ptkIdx]; exact hidx'))
      · refine .inr (.inr (.inl ?_))
        rw [hw.sta]
        exact (hspec.fastTx j).elim (fun heq => heq.trans hnone) id
      · exfalso
        rw [replaceInHw_none hwow (by rw [hkey]; exact h.untainted), hspec.frame.home, h.home_eq, hkey,
          hsoft, hrefuse] at hr
        cases hr
  cases old with
  | some k' =>
    refine ⟨hkeys.listDel (hgone k' rfl), fun j hj => ?_⟩
    have hj : j ∈ (s₂.store env home idx (some k') (some k)).loc.staList := hj
    rw [hstore.staList, hframe.staList] at hj
    exact (hfast j hj).of_sameView (sameView_listDel k' j)
  | none =>
    refine ⟨hkeys, fun j hj => ?_⟩
    have hj : j ∈ (s₂.store env home idx none (some k)).loc.staList := hj
    rw [hstore.staList, hframe.staList] at hj
    exact hfast j hj

theorem Replacing.refused (h : Replacing env s home idx old k)
    (hr : ((s.rekeyed home old k).replaceInHw env old (some k)).2 = false) :
    FastInv ((((s.rekeyed home old k).replaceInHw env old (some k)).1.keyReplace env home idx (some k)
      none).1) := by
  have hspec := rekeyed_spec s home old k
  have hinv := h.inv.rekeyed k h.old_eq
  obtain ⟨hkey, hsoft, hne⟩ := h.rekeyed
  obtain ⟨s₁, hs₁⟩ : ∃ s₁, s₁ = s.rekeyed home old k := ⟨_, rfl⟩
  obtain ⟨s₂, hs₂⟩ : ∃ s₂, s₂ = (s₁.replaceInHw env old (some k)).1 := ⟨_, rfl⟩
  have hw : KeyWrites s₁ s₂ fun k' => old = some k' ∨ some k = some k' :=
    hs₂ ▸ keyWrites_replaceInHw env s₁ old (some k)
  have hold {j : StaId} (hj : j ∈ s.loc.staList) {k' : KeyId} (hk' : old = some k') :
      Uses s₁ j k' → s.inSoftware env home (s.loc.keys k).cipher = true :=
    fun hu => (h.uses_old hj hk' (hs₁ ▸ hu)).2.2.2
  have hnew {j : StaId} (hj : j ∈ s.loc.staList) : ¬ Uses s₁ j k := hs₁ ▸ h.not_uses hj
  have hcases := rekeyed_cases s home old k
  rw [← hs₁] at hspec hinv hkey hsoft hr hcases
  rw [← hs₁, ← hs₂]
  obtain ⟨hno, hup, hwow⟩ := replaceInHw_refused (by rw [hkey]; exact h.untainted) hne hr
  rw [hspec.frame.home, h.home_eq, hkey, hsoft] at hno
  have hheld : s₂.held = s.held := hw.held.trans hspec.held
  have hfast : FastInv s₂ := hinv.keyWrites hw fun j hj k' hk' hu => by
    rw [hspec.frame.staList] at hj
    rcases hk' with hk' | hk'
    · rw [hold hj hk' hu] at hno
      cases hno
    · cases hk'
      exact hnew hj hu
  refine fastInv_replaceByNone env home idx k hfast.keys ?_ hfast.fast ?_ ?_
  · intro p hp
    exact absurd (hheld ▸ hp) (h.fresh p)
  · intro j hj hu
    rw [hw.frame.staList, hspec.frame.staList] at hj
    obtain ⟨f, hf, hfk⟩ := hu
    exact absurd ⟨f, hw.sta ▸ hf, hfk⟩ (hnew hj)
  · intro j hj ho
    rw [hw.frame.staList, hspec.frame.staList] at hj
    have hslot : s₂.held (.ptk j idx) = old := by
      rw [hheld, ← h.old_eq, KeyHome.slot_eq_ptk.2 ⟨ho, rfl⟩]
    have hnone (hn : (s.loc.sta j).fastTx = none) : (s₂.loc.sta j).fastTx = none := by
      rw [hw.sta]
      exact (hspec.fastTx j).elim (fun heq => heq.trans hn) id
    rcases h.pairwise j ho with hauto | (hidx | hn) | ⟨rfl, -⟩
    · cases old with
      | none => exact .inr (.inr hslot)
      | some k' =>
        -- the old key was in the hardware, so sending was stopped
        refine .inr (.inl ?_)
        rcases hcases with ⟨-, hcases⟩ | ⟨j', k'', ho', -, heq⟩
        · rcases hcases j k' ho rfl with hno' | hdown
          · rw [hauto] at hno'
            cases hno'
          · rw [← hspec.inHw, hup k' rfl] at hdown
            cases hdown
        · rw [ho] at ho'
          cases ho'
          rw [hw.sta, heq]
          exact fastTx_clearFastXmit _ j
    · exact .inl (by rw [hw.sta, hspec.ptkIdx]; exact hidx)
    · exact .inr (.inl (hnone hn))
    · exact .inr (.inr hslot)

end

theorem fastInv_keyLink (env : FastEnv) (home : KeyHome) (idx : ℕ) (key : Key) (seq : Option Pn)
    (h : FastInv s) (hkeeps : LinkKeeps env s home idx key) :
    FastInv (s.keyLink env home idx key seq) := by
  rw [keyLink]
  dsimp only
  split
  · exact h
  · rename_i hcipher
    split
    · exact h
    · rename_i hidentical
      have hkeeps := (hkeeps.resolve_left hcipher).resolve_left hidentical
      obtain ⟨s₁, hs₁⟩ : ∃ s₁, s₁ = (s.allocKey home (newKey key idx seq)).listAdd home.sdata
        s.loc.nextKey := ⟨_, rfl⟩
      have hkey : s₁.loc.keys s.loc.nextKey = newKey key idx seq := by
        rw [hs₁]
        exact update_self ..
      have hsoft (cipher : Cipher) : s₁.inSoftware env home cipher = s.inSoftware env home cipher :=
        inSoftware_congr env home cipher (fun _ => by rw [hs₁]; rfl) (by rw [hs₁]; rfl)
      have hreplacing : Replacing env s₁ home idx (s.slot home idx) s.loc.nextKey := by
        refine ⟨?_, ?_, ?_, ?_, ?_, ?_, ?_, ?_, ?_⟩
        · exact hs₁ ▸ h.alloc home (newKey key idx seq)
        · exact hs₁ ▸ linked_alloc s home (newKey key idx seq)
        · rw [hs₁]
          exact update_self ..
        · rw [hkey]
          rfl
        · intro p hp
          rw [hs₁] at hp
          exact absurd (h.keys.held p _ hp).bound (lt_irrefl _)
        · rw [slot_eq_held, hs₁]
          rfl
        · rw [hkey]
          rfl
        · intro j ho
          rw [ho] at hkeeps
          rw [hkey, hsoft, hs₁]
          exact hkeeps.imp_right (Or.imp_left fun hk => hk.pairwise ho)
        · intro ho
          rw [ho] at hkeeps
          rw [hkey, hsoft, hs₁]
          exact hkeeps
      have heq := keyReplace_some env (s.allocKey home (newKey key idx seq)) home idx
        (s.slot home idx) s.loc.nextKey
      rw [← hs₁] at heq
      dsimp only at heq
      split
      · rename_i s₂ hs₂
        rw [heq] at hs₂
        split at hs₂
        · rename_i hr
          cases hs₂
          exact hreplacing.taken hr
        · cases hs₂
      · rename_i s₂ hs₂
        rw [heq] at hs₂
        split at hs₂
        · cases hs₂
        · rename_i hr
          cases hs₂
          exact hreplacing.refused (by simpa using hr)

end FastState

end Mac80211
