import Mac80211.Keys.FastTx
import Mac80211.Tx.FastFrame

/-!
# What a cached header depends on

A `fast_tx` is right as long as nothing it was made from changes: the pairwise key in use and the
default key of the interface, the flags of the key, the state of the station and whether it is
asleep.

## Main definitions

* `FastOk`, `KeysInv`, `SameView`
-/

namespace Mac80211

open Function

/-- A pointer to a key, other than for group addressed and management frames. -/
inductive KeySlot
  /-- `sta->ptk[idx]`. -/
  | ptk (j : StaId) (idx : ℕ)
  /-- `sta->gtk[idx]`. -/
  | gtk (j : StaId) (idx : ℕ)
  /-- `sdata->keys[idx]`. -/
  | keys (i : SdataId) (idx : ℕ)
  /-- `sdata->default_unicast_key`. -/
  | unicast (i : SdataId)
deriving DecidableEq

/-- The slot a key is linked to. -/
def KeyHome.slot (home : KeyHome) (idx : ℕ) : KeySlot :=
  match home.owner with
  | .pairwise j => .ptk j idx
  | .group j => .gtk j idx
  | .iface => .keys home.sdata idx

/-- A key with this home and index may be there. -/
def KeySlot.Fits (home : KeyHome) (idx : ℕ) : KeySlot → Prop
  | ptk j n => home.owner = .pairwise j ∧ idx = n
  | gtk j n => home.owner = .group j ∧ idx = n
  | keys i n => home = ⟨i, .iface⟩ ∧ idx = n
  | unicast i => home = ⟨i, .iface⟩

theorem KeyHome.slot_fits (home : KeyHome) (idx : ℕ) : (home.slot idx).Fits home idx := by
  obtain ⟨i, owner⟩ := home
  cases owner with
  | pairwise j => exact ⟨rfl, rfl⟩
  | group j => exact ⟨rfl, rfl⟩
  | iface => exact ⟨rfl, rfl⟩

variable {j : StaId} {home : KeyHome}

theorem KeyHome.slot_eq_ptk {idx n : ℕ} :
    home.slot idx = .ptk j n ↔ home.owner = .pairwise j ∧ idx = n := by
  obtain ⟨i, owner⟩ := home
  cases owner with
  | pairwise j' => simp [slot]
  | group j' => simp [slot]
  | iface => simp [slot]

theorem KeySlot.Fits.cases {idx : ℕ} {p : KeySlot} (h : p.Fits home idx) :
    p = home.slot idx ∨ home.owner = .iface ∧ p = .unicast home.sdata := by
  obtain ⟨i, owner⟩ := home
  cases p with
  | ptk j n =>
    obtain ⟨rfl, rfl⟩ := h
    exact .inl rfl
  | gtk j n =>
    obtain ⟨rfl, rfl⟩ := h
    exact .inl rfl
  | keys i' n =>
    obtain ⟨h, rfl⟩ := h
    cases h
    exact .inl rfl
  | unicast i' =>
    cases h
    exact .inr ⟨rfl, rfl⟩

namespace FastState

variable {s s' : FastState}

/-- The pointer kept there. -/
def held (s : FastState) : KeySlot → Option KeyId
  | .ptk j idx => (s.loc.sta j).ptk idx
  | .gtk j idx => (s.loc.sta j).gtk idx
  | .keys i idx => (s.loc.sdata i).keys idx
  | .unicast i => (s.loc.sdata i).defaultUnicastKey

theorem slot_eq_held (s : FastState) (home : KeyHome) (idx : ℕ) :
    s.slot home idx = s.held (home.slot idx) := by
  obtain ⟨i, owner⟩ := home
  cases owner with
  | pairwise j => rfl
  | group j => rfl
  | iface => rfl

/-- The key the slow path chooses for a unicast data frame to a station. -/
def chosen (s : FastState) (j : StaId) : Option KeyId :=
  s.loc.ptkOf j <|> (s.loc.sdataOf j).defaultUnicastKey

/-- What holds of a station's `fast_tx`. -/
structure FastOk (s : FastState) (j : StaId) : Prop where
  key : ∀ f ∈ (s.loc.sta j).fastTx, f.key = s.chosen j
  hardware : ∀ f ∈ (s.loc.sta j).fastTx, ∀ k ∈ f.key, (s.loc.keys k).uploadedToHardware = true ∧
    (s.loc.keys k).tainted = false ∧ (s.loc.keys k).cipher.isBip = false
  authorized : ∀ f ∈ (s.loc.sta j).fastTx, (s.loc.sta j).staState = .authorized
  awake : ∀ f ∈ (s.loc.sta j).fastTx, (s.ps j).asleep = false

/-- A key that is linked, and may be kept there. -/
structure Linked (s : FastState) (p : KeySlot) (k : KeyId) : Prop where
  bound : k < s.loc.nextKey
  fits : p.Fits (s.home k) (s.loc.keys k).keyidx
  listed : k ∈ s.keyList (s.home k).sdata

/-- The slots and the lists fit. -/
structure KeysInv (s : FastState) : Prop where
  held : ∀ p k, s.held p = some k → Linked s p k
  list : ∀ i, ∀ k ∈ s.keyList i, k < s.loc.nextKey

/-- A station sends with a key. -/
def Uses (s : FastState) (j : StaId) (k : KeyId) : Prop := ∃ f ∈ (s.loc.sta j).fastTx, f.key = some k
deriving Decidable

/-! ### What the cached header is made of -/

theorem fastTxKey_key {l : Local} {key : Option KeyId} {pnOffs : Bool} {ivLen : ℕ}
    (h : fastTxKey l j = some (key, pnOffs, ivLen)) :
    key = (l.ptkOf j <|> (l.sdataOf j).defaultUnicastKey) ∧
      ∀ k ∈ key, (l.keys k).uploadedToHardware = true ∧ (l.keys k).tainted = false ∧
        (l.keys k).cipher.isBip = false := by
  rw [fastTxKey] at h
  split at h
  · rename_i hnone
    cases h
    exact ⟨hnone.symm, fun k hk => by cases hk⟩
  · rename_i k hsome
    dsimp only at h
    split at h
    · cases h
    · rename_i hflags
      have hkey : key = some k ∧ (l.keys k).cipher.isBip = false := by
        cases hcipher : (l.keys k).cipher
        all_goals
          rw [hcipher] at h
          dsimp only at h
          repeat' split at h
          all_goals cases h
          all_goals exact ⟨rfl, rfl⟩
      obtain ⟨rfl, hbip⟩ := hkey
      rw [hsome]
      refine ⟨rfl, fun k' hk' => ?_⟩
      cases hk'
      obtain ⟨hup, htaint⟩ : (l.keys k).uploadedToHardware = true ∧ (l.keys k).tainted = false := by
        simpa using hflags
      exact ⟨hup, htaint, hbip⟩

theorem FastOk.of_none (h : (s.loc.sta j).fastTx = none) : FastOk s j := by
  constructor
  all_goals
    intro f hf
    rw [h] at hf
    cases hf

theorem checkFastXmit_fastOk (env : FastEnv) (s : FastState) (j : StaId) :
    FastOk (s.checkFastXmit env j) j := by
  have hsta : (s.checkFastXmit env j).loc.sta j = { s.loc.sta j with
      fastTx := Mac80211.checkFastXmit s.loc (env.fast j && !(s.ps j).asleep) j } :=
    update_self ..
  have hchosen : (s.checkFastXmit env j).chosen j = s.chosen j := by
    rw [chosen, Local.ptkOf, Local.sdataOf, hsta]
    rfl
  have hf (f : FastTx) (hf : f ∈ ((s.checkFastXmit env j).loc.sta j).fastTx) :
      Mac80211.checkFastXmit s.loc (env.fast j && !(s.ps j).asleep) j = some f := by
    rw [hsta] at hf
    exact hf
  refine ⟨fun f hm => ?_, fun f hm k hk => ?_, fun f hm => ?_, fun f hm => ?_⟩
  · obtain ⟨-, _, -, -, hkey, -⟩ := checkFastXmit_cases (hf f hm)
    rw [hchosen]
    exact (fastTxKey_key hkey).1
  · obtain ⟨-, _, -, -, hkey, -⟩ := checkFastXmit_cases (hf f hm)
    exact (fastTxKey_key hkey).2 k hk
  · obtain ⟨-, _, hauth, -⟩ := checkFastXmit_cases (hf f hm)
    rw [hsta]
    exact hauth
  · by_contra ha
    have ha : ¬ (s.ps j).asleep = false := ha
    have hoff : (env.fast j && !(s.ps j).asleep) = false := by simp [ha]
    have hnone := hf f hm
    rw [hoff, Mac80211.checkFastXmit] at hnone
    simp at hnone

theorem FastOk.uses_held {k : KeyId} (h : FastOk s j) (hu : Uses s j k) :
    s.held (.ptk j (s.loc.sta j).ptkIdx) = some k ∨
      s.held (.unicast (s.loc.sta j).sdata) = some k := by
  obtain ⟨f, hf, hk⟩ := hu
  have hchosen : s.chosen j = some k := by rw [← h.key f hf, hk]
  rw [chosen, Local.ptkOf] at hchosen
  cases hptk : (s.loc.sta j).ptk (s.loc.sta j).ptkIdx with
  | some k' =>
    rw [hptk] at hchosen
    exact .inl (hptk.trans hchosen)
  | none =>
    rw [hptk] at hchosen
    exact .inr hchosen

/-! ### What a station sees -/

/-- Nothing that a station's `fast_tx` depends on has changed. -/
structure SameView (s s' : FastState) (j : StaId) : Prop where
  chosen : s'.chosen j = s.chosen j
  fastTx : (s'.loc.sta j).fastTx = (s.loc.sta j).fastTx
  staState : (s'.loc.sta j).staState = (s.loc.sta j).staState
  ps : s'.ps j = s.ps j
  flags : ∀ k, Uses s j k →
    (s'.loc.keys k).uploadedToHardware = (s.loc.keys k).uploadedToHardware ∧
      (s'.loc.keys k).tainted = (s.loc.keys k).tainted ∧ (s'.loc.keys k).cipher = (s.loc.keys k).cipher

theorem FastOk.of_sameView (h : FastOk s j) (hv : SameView s s' j) : FastOk s' j where
  key := fun f hf => by
    rw [hv.fastTx] at hf
    rw [hv.chosen]
    exact h.key f hf
  hardware := fun f hf k hk => by
    rw [hv.fastTx] at hf
    obtain ⟨hu, ht, hc⟩ := hv.flags k ⟨f, hf, hk⟩
    rw [hu, ht, hc]
    exact h.hardware f hf k hk
  authorized := fun f hf => by
    rw [hv.fastTx] at hf
    rw [hv.staState]
    exact h.authorized f hf
  awake := fun f hf => by
    rw [hv.fastTx] at hf
    rw [hv.ps]
    exact h.awake f hf

variable {j j' : StaId}

theorem sameView_updSta {f : StaInfo → StaInfo}
    (h : j = j' → (f (s.loc.sta j)).fastTx = (s.loc.sta j).fastTx ∧
      (f (s.loc.sta j)).ptk (f (s.loc.sta j)).ptkIdx = (s.loc.sta j).ptk (s.loc.sta j).ptkIdx ∧
      (f (s.loc.sta j)).sdata = (s.loc.sta j).sdata ∧
      (f (s.loc.sta j)).staState = (s.loc.sta j).staState) : SameView s (s.updSta j' f) j := by
  by_cases hj : j = j'
  · subst hj
    obtain ⟨hfast, hptk, hsdata, hstate⟩ := h rfl
    have hsta : (s.updSta j f).loc.sta j = f (s.loc.sta j) := update_self ..
    refine ⟨?_, ?_, ?_, rfl, fun _ _ => ⟨rfl, rfl, rfl⟩⟩
    · rw [chosen, chosen, Local.ptkOf, Local.ptkOf, Local.sdataOf, Local.sdataOf, hsta, hptk, hsdata]
      rfl
    · rw [hsta, hfast]
    · rw [hsta, hstate]
  · have hsta : (s.updSta j' f).loc.sta j = s.loc.sta j := update_of_ne hj ..
    refine ⟨?_, ?_, ?_, rfl, fun _ _ => ⟨rfl, rfl, rfl⟩⟩
    · rw [chosen, chosen, Local.ptkOf, Local.ptkOf, Local.sdataOf, Local.sdataOf, hsta]
      rfl
    · rw [hsta]
    · rw [hsta]

theorem sameView_updSdata {i : SdataId} {f : SubIfData → SubIfData} (h : (s.loc.sta j).sdata = i →
      (f (s.loc.sdata i)).defaultUnicastKey = (s.loc.sdata i).defaultUnicastKey) :
    SameView s (s.updSdata i f) j := by
  refine ⟨?_, rfl, rfl, rfl, fun _ _ => ⟨rfl, rfl, rfl⟩⟩
  have hsdata : ((s.updSdata i f).loc.sdataOf j).defaultUnicastKey =
      (s.loc.sdataOf j).defaultUnicastKey := by
    by_cases hi : (s.loc.sta j).sdata = i
    · have hself : (s.updSdata i f).loc.sdataOf j = f (s.loc.sdata i) := by
        rw [Local.sdataOf]
        exact hi ▸ update_self ..
      rw [hself, h hi, Local.sdataOf, hi]
    · have hne : (s.updSdata i f).loc.sdataOf j = s.loc.sdataOf j := update_of_ne hi ..
      rw [hne]
  rw [chosen, chosen, hsdata]
  rfl

theorem sameView_updKey {k : KeyId} {f : Key → Key} (h : ¬ Uses s j k) :
    SameView s (s.updKey k f) j := by
  refine ⟨rfl, rfl, rfl, rfl, fun k' hk' => ?_⟩
  have hne : k' ≠ k := by
    rintro rfl
    exact h hk'
  have hkey : (s.updKey k f).loc.keys k' = s.loc.keys k' := update_of_ne hne ..
  rw [hkey]
  exact ⟨rfl, rfl, rfl⟩

theorem sameView_updPs {f : StaPs → StaPs} (h : j ≠ j') : SameView s (s.updPs j' f) j :=
  ⟨rfl, rfl, rfl, update_of_ne h .., fun _ _ => ⟨rfl, rfl, rfl⟩⟩

theorem sameView_listAdd (i : SdataId) (k : KeyId) (j : StaId) : SameView s (s.listAdd i k) j :=
  ⟨rfl, rfl, rfl, rfl, fun _ _ => ⟨rfl, rfl, rfl⟩⟩

theorem sameView_listDel (k : KeyId) (j : StaId) : SameView s (s.listDel k) j :=
  ⟨rfl, rfl, rfl, rfl, fun _ _ => ⟨rfl, rfl, rfl⟩⟩

theorem sameView_allocKey {key : Key} (h : ¬ Uses s j s.loc.nextKey) :
    SameView s (s.allocKey home key) j := by
  refine ⟨rfl, rfl, rfl, rfl, fun k' hk' => ?_⟩
  have hne : k' ≠ s.loc.nextKey := by
    rintro rfl
    exact h hk'
  have hkey : (s.allocKey home key).loc.keys k' = s.loc.keys k' := update_of_ne hne ..
  rw [hkey]
  exact ⟨rfl, rfl, rfl⟩

theorem sameView_checkFastXmit (env : FastEnv) (h : j ≠ j') :
    SameView s (s.checkFastXmit env j') j :=
  sameView_updSta fun hj => absurd hj h

theorem FastOk.checkFastXmit (h : FastOk s j) (env : FastEnv) (j' : StaId) :
    FastOk (s.checkFastXmit env j') j := by
  by_cases hj : j = j'
  · exact hj ▸ checkFastXmit_fastOk env s j
  · exact h.of_sameView (sameView_checkFastXmit env hj)

theorem fastTx_clearFastXmit (s : FastState) (j : StaId) :
    ((s.clearFastXmit j).loc.sta j).fastTx = none := by
  rw [clearFastXmit, updSta, Local.updSta_sta_self]

theorem FastOk.clearFastXmit (h : FastOk s j) (j' : StaId) : FastOk (s.clearFastXmit j') j := by
  by_cases hj : j = j'
  · exact hj ▸ .of_none (fastTx_clearFastXmit s j)
  · exact h.of_sameView (sameView_updSta fun he => absurd he hj)

/-! ### All stations of an interface -/

theorem checkFastXmitIface_step (env : FastEnv) (i : SdataId) (s : FastState) (j' : StaId) :
    (∀ j, FastOk s j → FastOk (if s.sharesBss i j' then s.checkFastXmit env j' else s) j) ∧
      ((s.loc.sta j').sdata = i →
        FastOk (if s.sharesBss i j' then s.checkFastXmit env j' else s) j') := by
  constructor
  · intro j h
    split
    · exact h.checkFastXmit env j'
    · exact h
  · intro hi
    rw [if_pos (by simp [sharesBss, hi])]
    exact checkFastXmit_fastOk env s j'

theorem sdata_checkFastXmit (env : FastEnv) (s : FastState) (j' j : StaId) :
    ((s.checkFastXmit env j').loc.sta j).sdata = (s.loc.sta j).sdata := by
  by_cases hj : j = j'
  · subst hj
    rw [checkFastXmit, updSta, Local.updSta_sta_self]
  · rw [checkFastXmit, updSta, Local.updSta_sta_of_ne _ hj]

theorem fastOk_foldl (env : FastEnv) (i : SdataId) (j : StaId) (l : List StaId) :
    ∀ s : FastState, FastOk s j ∨ j ∈ l ∧ (s.loc.sta j).sdata = i →
      FastOk (l.foldl (fun s j => if s.sharesBss i j then s.checkFastXmit env j else s) s) j := by
  induction l with
  | nil =>
    intro s h
    exact h.resolve_right fun h => List.not_mem_nil h.1
  | cons j' l ih =>
    intro s h
    obtain ⟨hkeep, hcheck⟩ := checkFastXmitIface_step env i s j'
    rw [List.foldl_cons]
    apply ih
    rcases h with hok | ⟨hmem, hi⟩
    · exact .inl (hkeep j hok)
    · rcases List.mem_cons.1 hmem with rfl | hmem
      · exact .inl (hcheck hi)
      · refine .inr ⟨hmem, ?_⟩
        split
        · rw [sdata_checkFastXmit, hi]
        · exact hi

theorem fastOk_checkFastXmitIface (env : FastEnv) (i : SdataId)
    (h : FastOk s j ∨ j ∈ s.loc.staList ∧ (s.loc.sta j).sdata = i) :
    FastOk (s.checkFastXmitIface env i) j :=
  fastOk_foldl env i j s.loc.staList s h

theorem fastOk_setDefaultKey (env : FastEnv) (i : SdataId) (idx : Option ℕ)
    (uni multi : Bool) (hj : j ∈ s.loc.staList)
    (h : FastOk s j ∨ uni = true ∧ (s.loc.sta j).sdata = i) :
    FastOk (s.setDefaultKey env i idx uni multi) j := by
  have hmulti {s : FastState} (k : Option KeyId) (h : FastOk s j) :
      FastOk (if multi then s.updSdata i fun d => { d with defaultMulticastKey := k } else s) j := by
    split
    · exact h.of_sameView (sameView_updSdata fun _ => rfl)
    · exact h
  rw [setDefaultKey]
  apply hmulti
  split
  · apply fastOk_checkFastXmitIface
    by_cases hi : (s.loc.sta j).sdata = i
    · exact .inr ⟨hj, hi⟩
    · have hok : FastOk s j := h.resolve_right fun h => hi h.2
      exact .inl (hok.of_sameView (sameView_updSdata fun he => absurd he hi))
  · rename_i hno
    exact h.resolve_right fun h => hno h.1

theorem FastOk.setDefaultMgmtKey (h : FastOk s j) (i : SdataId) (idx : Option ℕ) :
    FastOk (s.setDefaultMgmtKey i idx) j :=
  h.of_sameView (sameView_updSdata fun _ => rfl)

end FastState

end Mac80211
