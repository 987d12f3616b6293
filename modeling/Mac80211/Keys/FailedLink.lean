import Mac80211.Keys.FastTxCoherence

/-!
# Keys that the hardware refuses

`ieee80211_key_replace` lists the new key, takes the old one out of the hardware and offers the new
one. When that is refused, `ieee80211_key_link` frees the new key, which replaces it by nothing: the
old key is gone from its slot, while `key_list` still has it.

## Main results

* `oldKeyWorks_iff` — when the old key works on
-/

namespace Mac80211

open Function

namespace FastState

variable {s s' : FastState}

/-- `ieee80211_key_link` returns what enabling the new key in the hardware does: an error. -/
def linkRefused (env : FastEnv) (s : FastState) (home : KeyHome) (idx : ℕ) (key : Key)
    (seq : Option Pn) : Bool :=
  !s.otherCipher home idx key.cipher && !s.keyIdentical home (s.slot home idx) key &&
    !((s.allocKey home (newKey key idx seq)).keyReplace env home idx (s.slot home idx)
      (some s.loc.nextKey)).2

/-- A slot leads to the key. -/
def InSlot (s : FastState) (k : KeyId) : Prop := ∃ home idx, s.slot home idx = some k

/-- The default key pointers of an interface. -/
def defaults (s : FastState) (i : SdataId) : List (Option KeyId) :=
  [(s.loc.sdata i).defaultUnicastKey, (s.loc.sdata i).defaultMulticastKey,
    (s.loc.sdata i).defaultMgmtKey]

/-- What a failed link leaves as it was: slot, defaults and lists; and all that is listed is in a
slot. -/
structure OldKeyWorks (s s' : FastState) (home : KeyHome) (idx : ℕ) : Prop where
  slot : s'.slot home idx = s.slot home idx
  defaults : s'.defaults = s.defaults
  list : s'.keyList = s.keyList
  reachable : ∀ i, ∀ k ∈ s'.keyList i, s'.InSlot k

/-- What interfaces list, and hold in slots and as defaults, is below a bound. -/
structure KeysBelow (n : KeyId) (s : FastState) : Prop where
  list : ∀ i, ∀ k ∈ s.keyList i, k < n
  slots : ∀ i idx, ∀ k ∈ (s.loc.sdata i).keys idx, k < n
  defaults : ∀ i k, some k ∈ s.defaults i → k < n

/-- What interfaces list, and hold in slots and as defaults, is in memory. -/
def KeysInMemory (s : FastState) : Prop := s.KeysBelow s.loc.nextKey

/-! ### Replacing by nothing -/

theorem keyReplace_none (env : FastEnv) (s : FastState) (home : KeyHome) (idx : ℕ) (k : KeyId) :
    (s.keyReplace env home idx (some k) none).1 =
      ((s.replaceInHw env (some k) none).1.store env home idx (some k) none).listDel k := by
  have hok : (s.replaceInHw env (some k) none).2 = true := by
    rw [replaceInHw]
    split
    · rfl
    · rfl
  obtain ⟨i, owner⟩ := home
  cases owner with
  | pairwise j => simp [keyReplace, hok]
  | group j => simp [keyReplace, hok]
  | iface => simp [keyReplace, hok]

theorem slot_store_none (env : FastEnv) (s : FastState) (home : KeyHome) (idx : ℕ) (k : KeyId) :
    (s.store env home idx (some k) none).slot home idx = none := by
  obtain ⟨i, owner⟩ := home
  cases owner with
  | pairwise j => simp [store, slot, updSta, Local.updSta]
  | group j => simp [store, slot, updSta, Local.updSta]
  | iface => simp [store, slot, updSdata, Local.updSdata]

theorem updSta_self {j : StaId} {f : StaInfo → StaInfo} (h : f (s.loc.sta j) = s.loc.sta j) :
    s.updSta j f = s := by
  rw [updSta, Local.updSta, h, update_eq_self]

variable {i : SdataId}

theorem updSdata_self {f : SubIfData → SubIfData} (h : f (s.loc.sdata i) = s.loc.sdata i) :
    s.updSdata i f = s := by
  rw [updSdata, Local.updSdata, h, update_eq_self]

variable {k : KeyId}

theorem dropDefaults_of_not_mem (env : FastEnv)
    (h : some k ∉ s.defaults i) : s.dropDefaults env i k = s := by
  simp only [defaults, List.mem_cons, List.not_mem_nil, or_false, not_or] at h
  obtain ⟨huni, hmulti, hmgmt⟩ := h
  rw [dropDefaults, if_neg (Ne.symm huni), if_neg (Ne.symm hmulti), if_neg (Ne.symm hmgmt)]

variable {home : KeyHome} {idx : ℕ}

theorem store_none_of_empty (env : FastEnv)
    (hslot : s.slot home idx = none) (hdef : some k ∉ s.defaults home.sdata) :
    s.store env home idx (some k) none = s := by
  obtain ⟨i, owner⟩ := home
  have hupdate {f : ℕ → Option KeyId} (h : f idx = none) : Function.update f idx none = f := by
    rw [← h, update_eq_self]
  cases owner with
  | pairwise j =>
    have hptk : (s.loc.sta j).ptk idx = none := hslot
    exact updSta_self (by rw [hupdate hptk])
  | group j =>
    have hgtk : (s.loc.sta j).gtk idx = none := hslot
    exact updSta_self (by rw [hupdate hgtk])
  | iface =>
    have hkeys : (s.loc.sdata i).keys idx = none := hslot
    rw [store]
    dsimp only
    rw [dropDefaults_of_not_mem env hdef]
    exact updSdata_self (by rw [hupdate hkeys])

/-! ### Offering the new key -/

variable {env : FastEnv}

theorem enableHwAccel_refused (htaint : (s.loc.keys k).tainted = false)
    (h : (s.enableHwAccel env k).2 = false) : (s.enableHwAccel env k).1 = s := by
  have hsoft : s.inSoftware env (s.home k) (s.loc.keys k).cipher = false := by
    rw [enableHwAccel] at h
    simpa [htaint] using h
  have hask : s.askDriver env (s.home k) ≠ .ok := by
    intro hok
    rw [inSoftware, hok] at hsoft
    cases hsoft
  rw [enableHwAccel]
  simp [htaint, hask]

/-- Without an old key nothing but the list is written before the hardware refuses. -/
theorem keyReplace_refused_empty (htaint : (s.loc.keys k).tainted = false)
    (h : (s.keyReplace env home idx none (some k)).2 = false) :
    (s.keyReplace env home idx none (some k)).1 = s.listAdd home.sdata k := by
  have hrekeyed : (s.listAdd home.sdata k).rekeyed home none k = s.listAdd home.sdata k := by
    rcases rekeyed_cases (s.listAdd home.sdata k) home none k with ⟨heq, -⟩ | ⟨j, k', -, hold, -⟩
    · exact heq
    · cases hold
  rw [keyReplace_some, hrekeyed] at h ⊢
  dsimp only at h ⊢
  split at h
  · cases h
  · rename_i hr
    rw [if_neg hr]
    dsimp only
    rw [replaceInHw] at hr ⊢
    split
    · rfl
    · rename_i hw
      rw [if_neg hw] at hr
      exact enableHwAccel_refused htaint (by simpa using hr)

/-! ### The link that fails -/

variable {seq : Option Pn} {key : Key}

theorem keyLink_refused (hr : s.linkRefused env home idx key seq = true) :
    s.keyLink env home idx key seq =
      ((((s.allocKey home (newKey key idx seq)).keyReplace env home idx (s.slot home idx)
        (some s.loc.nextKey)).1.keyReplace env home idx (some s.loc.nextKey) none)).1 := by
  rw [linkRefused, Bool.and_eq_true, Bool.and_eq_true, Bool.not_eq_true', Bool.not_eq_true',
    Bool.not_eq_true'] at hr
  obtain ⟨⟨hcipher, hidentical⟩, hreplace⟩ := hr
  rw [keyLink]
  dsimp only
  rw [if_neg (by simp [hcipher]), if_neg (by simp [hidentical])]
  split
  · rename_i hok
    rw [hok] at hreplace
    cases hreplace
  · rename_i s' hs'
    rw [hs']

theorem slot_keyLink_refused (hr : s.linkRefused env home idx key seq = true) :
    (s.keyLink env home idx key seq).slot home idx = none := by
  rw [keyLink_refused hr, keyReplace_none]
  exact slot_store_none env _ home idx _

theorem keyLink_refused_empty
    (hmem : s.KeysInMemory) (hr : s.linkRefused env home idx key seq = true)
    (hslot : s.slot home idx = none) :
    s.keyLink env home idx key seq = s.allocKey home (newKey key idx seq) := by
  have hkey : (s.allocKey home (newKey key idx seq)).loc.keys s.loc.nextKey = newKey key idx seq :=
    update_self ..
  have hrefused : ((s.allocKey home (newKey key idx seq)).keyReplace env home idx none
      (some s.loc.nextKey)).2 = false := by
    rw [linkRefused, hslot, Bool.and_eq_true, Bool.not_eq_true'] at hr
    exact hr.2
  rw [keyLink_refused hr, hslot, keyReplace_refused_empty (by rw [hkey]; rfl) hrefused,
    keyReplace_none]
  obtain ⟨s₁, hs₁⟩ : ∃ s₁, s₁ = s.allocKey home (newKey key idx seq) := ⟨_, rfl⟩
  rw [← hs₁] at hkey ⊢
  have hhw : ((s₁.listAdd home.sdata s.loc.nextKey).replaceInHw env (some s.loc.nextKey) none).1 =
      s₁.listAdd home.sdata s.loc.nextKey := by
    rw [replaceInHw, if_neg]
    have hup : (s₁.loc.keys s.loc.nextKey).uploadedToHardware = false := by rw [hkey]; rfl
    show ¬ (s₁.loc.keys s.loc.nextKey).uploadedToHardware = true
    simp [hup]
  have hstore : (s₁.listAdd home.sdata s.loc.nextKey).store env home idx (some s.loc.nextKey) none =
      s₁.listAdd home.sdata s.loc.nextKey := by
    apply store_none_of_empty
    · rw [hs₁]
      exact hslot
    · intro hdef
      rw [hs₁] at hdef
      exact absurd (hmem.defaults home.sdata _ hdef) (lt_irrefl _)
  rw [hhw, hstore]
  have hfresh : s.loc.nextKey ∉ s.keyList home.sdata := fun hk => absurd (hmem.list _ _ hk) (lt_irrefl _)
  have hhome : (s₁.listAdd home.sdata s.loc.nextKey).home s.loc.nextKey = home := by
    rw [hs₁]
    exact update_self ..
  have hlist : s₁.keyList = s.keyList := by rw [hs₁]; rfl
  rw [listDel, hhome, listAdd]
  dsimp only
  rw [update_self, hlist, List.erase_append_right _ hfresh, List.erase_cons_head,
    List.append_nil, update_idem, ← hlist, update_eq_self]

/-- **The old key goes on working exactly if there was none**: after a key that the hardware
refuses, just if the slot was empty, and all that was listed was in a slot. -/
theorem oldKeyWorks_iff (env : FastEnv) (home : KeyHome) (idx : ℕ) (key : Key) (seq : Option Pn)
    (hmem : s.KeysInMemory) (hr : s.linkRefused env home idx key seq = true) :
    OldKeyWorks s (s.keyLink env home idx key seq) home idx ↔
      s.slot home idx = none ∧ ∀ i, ∀ k ∈ s.keyList i, s.InSlot k := by
  constructor
  · intro h
    have hslot : s.slot home idx = none := h.slot.symm.trans (slot_keyLink_refused hr)
    have heq := keyLink_refused_empty hmem hr hslot
    refine ⟨hslot, fun i k hk => ?_⟩
    rw [← h.list] at hk
    have hin := h.reachable i k hk
    rw [heq] at hin
    exact hin
  · rintro ⟨hslot, hin⟩
    rw [keyLink_refused_empty hmem hr hslot]
    exact ⟨rfl, rfl, rfl, hin⟩

/-! ### A pairwise key that is replaced -/

/-- The driver fails, and there is no software encryption then. -/
def refusing : FastEnv := { drvSetKey := .error, swCryptoControl := true }

/-- The first pairwise key of a station is refused, and nothing is lost. -/
theorem oldKeyWorks_iff_first :
    OldKeyWorks apStation (apStation.keyLink refusing ⟨0, .pairwise 0⟩ 0 ccmpKey none) ⟨0, .pairwise 0⟩
      0 := by
  have hmem : apStation.KeysInMemory := by
    refine ⟨fun i k hk => ?_, fun i idx k hk => ?_, fun i k hk => ?_⟩
    · cases hk
    · cases hk
    · simp [defaults, apStation] at hk
  refine (oldKeyWorks_iff refusing ⟨0, .pairwise 0⟩ 0 ccmpKey none hmem (by decide)).2 ⟨rfl, ?_⟩
  intro i k hk
  cases hk

/-- A pairwise key is in the hardware, and the one to replace it is refused: the slot is empty then, and
the old key still listed. -/
theorem refused_key_drops_old : ∃ s : FastState, ∃ os,
    Machine.Reach fastStep (fun _ _ _ => True) apStation s os ∧
      s.slot ⟨0, .pairwise 0⟩ 0 = some 0 ∧
      s.linkRefused refusing ⟨0, .pairwise 0⟩ 0 { ccmpKey with key := List.replicate 16 8 } none = true ∧
      (s.keyLink refusing ⟨0, .pairwise 0⟩ 0 { ccmpKey with key := List.replicate 16 8 } none).keyList 0 =
        [0] ∧
      ¬ OldKeyWorks s
        (s.keyLink refusing ⟨0, .pairwise 0⟩ 0 { ccmpKey with key := List.replicate 16 8 } none)
        ⟨0, .pairwise 0⟩ 0 := by
  have hrun : (Machine.run fastStep apStation [.link {} ⟨0, .pairwise 0⟩ 0 ccmpKey none]).map (fun p =>
      (p.1.slot ⟨0, .pairwise 0⟩ 0,
        p.1.linkRefused refusing ⟨0, .pairwise 0⟩ 0 { ccmpKey with key := List.replicate 16 8 } none,
        (p.1.keyLink refusing ⟨0, .pairwise 0⟩ 0 { ccmpKey with key := List.replicate 16 8 } none).keyList
          0)) = some (some 0, true, [0]) := by
    decide +kernel
  obtain ⟨⟨s, os⟩, hrun, hs⟩ := Option.map_eq_some_iff.1 hrun
  simp only [Prod.mk.injEq] at hs
  obtain ⟨hslot, hrefused, hlist⟩ := hs
  refine ⟨s, os, .of_run_init hrun, hslot, hrefused, hlist, fun h => ?_⟩
  have hsame := h.slot
  rw [slot_keyLink_refused hrefused, hslot] at hsame
  cases hsame

/-! ### What is in memory -/

section

variable {n : KeyId} (env : FastEnv)

theorem KeysBelow.of_eq (h : s.KeysBelow n) (hsdata : s'.loc.sdata = s.loc.sdata)
    (hlist : s'.keyList = s.keyList) : s'.KeysBelow n where
  list := by
    rw [hlist]
    exact h.list
  slots := by
    rw [hsdata]
    exact h.slots
  defaults := by
    have hdef : s'.defaults = s.defaults := by
      funext i
      rw [FastState.defaults, FastState.defaults, hsdata]
    rw [hdef]
    exact h.defaults

theorem KeysBelow.ite {c : Prop} [Decidable c] (h : s.KeysBelow n) (h' : s'.KeysBelow n) :
    (if c then s' else s).KeysBelow n := by
  split
  · exact h'
  · exact h

theorem KeysBelow.updSdata (h : s.KeysBelow n) (i : SdataId) {f : SubIfData → SubIfData}
    (hslots : ∀ idx, ∀ k ∈ (f (s.loc.sdata i)).keys idx, k < n)
    (hdef : ∀ k, (f (s.loc.sdata i)).defaultUnicastKey = some k ∨
      (f (s.loc.sdata i)).defaultMulticastKey = some k ∨
      (f (s.loc.sdata i)).defaultMgmtKey = some k → k < n) : (s.updSdata i f).KeysBelow n where
  list := h.list
  slots := fun i' idx k hk => by
    by_cases hi : i' = i
    · rw [hi, FastState.updSdata, Local.updSdata_sdata_self] at hk
      exact hslots idx k hk
    · rw [FastState.updSdata, Local.updSdata_sdata_of_ne _ hi] at hk
      exact h.slots i' idx k hk
  defaults := fun i' k hk => by
    by_cases hi : i' = i
    · rw [hi, FastState.defaults, FastState.updSdata, Local.updSdata_sdata_self] at hk
      apply hdef
      simpa [eq_comm] using hk
    · rw [FastState.defaults, FastState.updSdata, Local.updSdata_sdata_of_ne _ hi] at hk
      exact h.defaults i' k hk

theorem KeysBelow.default (h : s.KeysBelow n)
    (hk : (s.loc.sdata i).defaultUnicastKey = some k ∨ (s.loc.sdata i).defaultMulticastKey = some k ∨
      (s.loc.sdata i).defaultMgmtKey = some k) : k < n := by
  apply h.defaults i k
  simpa [FastState.defaults, eq_comm] using hk

theorem KeysBelow.bind (h : s.KeysBelow n) {idx : Option ℕ} {c : ℕ → Prop} [DecidablePred c]
    (hk : (idx.bind fun m => if c m then (s.loc.sdata i).keys m else none) = some k) : k < n := by
  obtain ⟨m, -, hm⟩ := Option.bind_eq_some_iff.1 hk
  split at hm
  · exact h.slots i m k hm
  · cases hm

theorem KeysBelow.checkFastXmitIface (h : s.KeysBelow n) (i : SdataId) :
    (s.checkFastXmitIface env i).KeysBelow n := by
  rw [FastState.checkFastXmitIface]
  generalize s.loc.staList = l
  induction l generalizing s with
  | nil => exact h
  | cons j l ih =>
    rw [List.foldl_cons]
    apply ih
    split
    · exact h.of_eq rfl rfl
    · exact h

theorem KeysBelow.setDefaultKey (h : s.KeysBelow n) (i : SdataId) (idx : Option ℕ) (uni multi : Bool) :
    (s.setDefaultKey env i idx uni multi).KeysBelow n := by
  rw [FastState.setDefaultKey]
  have huni : (if uni then (s.updSdata i fun d => { d with
      defaultUnicastKey := idx.bind fun m => if m < 4 then (s.loc.sdata i).keys m else none
      }).checkFastXmitIface env i else s).KeysBelow n := by
    split
    · refine KeysBelow.checkFastXmitIface env (h.updSdata i (h.slots i) ?_) i
      rintro k (hk | hk)
      · exact h.bind hk
      · exact h.default (.inr hk)
    · exact h
  split
  · refine huni.updSdata i (huni.slots i) ?_
    rintro k (hk | hk | hk)
    · exact huni.default (.inl hk)
    · exact h.bind hk
    · exact huni.default (.inr (.inr hk))
  · exact huni

theorem KeysBelow.setDefaultMgmtKey (h : s.KeysBelow n) (i : SdataId) (idx : Option ℕ) :
    (s.setDefaultMgmtKey i idx).KeysBelow n := by
  rw [FastState.setDefaultMgmtKey]
  refine h.updSdata i (h.slots i) ?_
  rintro k (hk | hk | hk)
  · exact h.default (.inl hk)
  · exact h.default (.inr (.inl hk))
  · exact h.bind hk

theorem KeysBelow.dropDefaults (h : s.KeysBelow n) (i : SdataId) (old : KeyId) :
    (s.dropDefaults env i old).KeysBelow n := by
  rw [FastState.dropDefaults]
  have huni := h.ite (c := (s.loc.sdata i).defaultUnicastKey = some old)
    (h.setDefaultKey env i none true false)
  have hmulti := huni.ite (c := (s.loc.sdata i).defaultMulticastKey = some old)
    (huni.setDefaultKey env i none false true)
  exact hmulti.ite (hmulti.setDefaultMgmtKey i none)

theorem KeysBelow.moveDefaults (h : s.KeysBelow n) (i : SdataId) (d : SubIfData) (old : KeyId)
    (idx : ℕ) : (s.moveDefaults env i d old idx).KeysBelow n := by
  rw [FastState.moveDefaults]
  have huni := h.ite (c := d.defaultUnicastKey = some old) (h.setDefaultKey env i (some idx) true false)
  have hmulti := huni.ite (c := d.defaultMulticastKey = some old)
    (huni.setDefaultKey env i (some idx) false true)
  exact hmulti.ite (hmulti.setDefaultMgmtKey i (some idx))

/-- Slots of stations are not looked at; the slot of an interface gets the new key. -/
theorem KeysBelow.store (h : s.KeysBelow n) (home : KeyHome) (idx : ℕ) (old new : Option KeyId)
    (hnew : ∀ k ∈ new, k < n) : (s.store env home idx old new).KeysBelow n := by
  have hwrite {s : FastState} (h : s.KeysBelow n) :
      (s.updSdata home.sdata fun d => { d with keys := Function.update d.keys idx new }).KeysBelow n := by
    refine h.updSdata home.sdata ?_ fun k hk => h.default hk
    intro idx' k hk
    dsimp only at hk
    rw [update_apply] at hk
    split at hk
    · exact hnew k hk
    · exact h.slots home.sdata idx' k hk
  obtain ⟨i, owner⟩ := home
  cases owner with
  | pairwise j =>
    rw [FastState.store]
    dsimp only
    split
    · split
      · exact h.of_eq rfl rfl
      · exact h.of_eq rfl rfl
    · exact h.of_eq rfl rfl
  | group j => exact h.of_eq rfl rfl
  | iface =>
    cases old with
    | none => exact hwrite h
    | some old =>
      cases new with
      | none => exact hwrite (h.dropDefaults env i old)
      | some new => exact (hwrite h).moveDefaults env i _ old _

theorem KeysBelow.listAdd (h : s.KeysBelow n) (i : SdataId) (hk : k < n) :
    (s.listAdd i k).KeysBelow n where
  list := fun i' k' hk' => by
    rcases mem_listAdd.1 hk' with hk' | ⟨-, rfl⟩
    · exact h.list i' k' hk'
    · exact hk
  slots := h.slots
  defaults := h.defaults

theorem KeysBelow.listDel (h : s.KeysBelow n) (k : KeyId) : (s.listDel k).KeysBelow n where
  list := fun i k' hk' => by
    apply h.list i k'
    rw [FastState.listDel] at hk'
    dsimp only at hk'
    rw [update_apply] at hk'
    split at hk'
    · rename_i hi
      rw [hi]
      exact List.mem_of_mem_erase hk'
    · exact hk'
  slots := h.slots
  defaults := h.defaults

theorem KeysBelow.keyReplace_none (h : s.KeysBelow n) (home : KeyHome) (idx : ℕ) (k : KeyId) :
    (s.keyReplace env home idx (some k) none).1.KeysBelow n := by
  rw [FastState.keyReplace_none]
  have hw := keyWrites_replaceInHw env s (some k) none
  refine KeysBelow.listDel (KeysBelow.store env (h.of_eq hw.sdata hw.frame.keyList) home idx _ none ?_) k
  rintro k' ⟨⟩

theorem KeysBelow.keyReplace_some (h : s.KeysBelow n) (home : KeyHome) (idx : ℕ) (old : Option KeyId)
    (hk : k < n) : (s.keyReplace env home idx old (some k)).1.KeysBelow n := by
  have hadd := h.listAdd home.sdata hk
  have hrekeyed := rekeyed_spec (s.listAdd home.sdata k) home old k
  have hw := keyWrites_replaceInHw env ((s.listAdd home.sdata k).rekeyed home old k) old (some k)
  have hoffered := (hadd.of_eq hrekeyed.sdata hrekeyed.frame.keyList).of_eq hw.sdata hw.frame.keyList
  rw [FastState.keyReplace_some]
  dsimp only
  split
  · have hstored := hoffered.store env home idx old (some k) fun k' hk' => by
      cases hk'
      exact hk
    cases old with
    | none => exact hstored
    | some old => exact hstored.listDel old
  · exact hoffered

theorem nextKey_keyReplace_none (s : FastState) (home : KeyHome) (idx : ℕ) (k : KeyId) :
    (s.keyReplace env home idx (some k) none).1.loc.nextKey = s.loc.nextKey := by
  rw [FastState.keyReplace_none]
  exact (frame_store env _ home idx (some k) none).nextKey.trans
    (keyWrites_replaceInHw env s (some k) none).frame.nextKey

theorem nextKey_keyReplace_some (s : FastState) (home : KeyHome) (idx : ℕ) (old : Option KeyId)
    (k : KeyId) : (s.keyReplace env home idx old (some k)).1.loc.nextKey = s.loc.nextKey := by
  have hoffered := (rekeyed_spec (s.listAdd home.sdata k) home old k).frame.trans
    (keyWrites_replaceInHw env ((s.listAdd home.sdata k).rekeyed home old k) old (some k)).frame
  rw [FastState.keyReplace_some]
  dsimp only
  split
  · have hstored := (frame_store env (((s.listAdd home.sdata k).rekeyed home old k).replaceInHw env old
      (some k)).1 home idx old (some k)).nextKey.trans hoffered.nextKey
    cases old with
    | none => exact hstored
    | some old => exact hstored
  · exact hoffered.nextKey

theorem KeysInMemory.keyLink (h : s.KeysInMemory) (home : KeyHome) (idx : ℕ) (key : Key)
    (seq : Option Pn) : (s.keyLink env home idx key seq).KeysInMemory := by
  have halloc : (s.allocKey home (newKey key idx seq)).KeysBelow (s.loc.nextKey + 1) :=
    ⟨fun i k hk => Nat.lt_succ_of_lt (h.list i k hk), fun i idx k hk => Nat.lt_succ_of_lt (h.slots i idx k hk),
      fun i k hk => Nat.lt_succ_of_lt (h.defaults i k hk)⟩
  have hreplaced := halloc.keyReplace_some env home idx (s.slot home idx) (Nat.lt_succ_self s.loc.nextKey)
  have hnext := nextKey_keyReplace_some env (s.allocKey home (newKey key idx seq)) home idx
    (s.slot home idx) s.loc.nextKey
  rw [FastState.keyLink]
  dsimp only
  split
  · exact h
  · split
    · exact h
    · split
      · rename_i s' hs'
        rw [hs'] at hreplaced hnext
        rw [KeysInMemory, show s'.loc.nextKey = s.loc.nextKey + 1 from hnext]
        exact hreplaced
      · rename_i s' hs'
        rw [hs'] at hreplaced hnext
        rw [KeysInMemory, nextKey_keyReplace_none, show s'.loc.nextKey = s.loc.nextKey + 1 from hnext]
        exact hreplaced.keyReplace_none env home idx s.loc.nextKey

theorem KeysInMemory.keyFree (h : s.KeysInMemory) (home : KeyHome) (idx : ℕ) :
    (s.keyFree env home idx).KeysInMemory := by
  rw [FastState.keyFree]
  split
  · exact h
  · rename_i k _
    rw [KeysInMemory, nextKey_keyReplace_none]
    exact KeysBelow.keyReplace_none env h (s.home k) _ k

/-- Interfaces, their lists and memory are as before. -/
structure SameKeys (s s' : FastState) : Prop where
  sdata : s'.loc.sdata = s.loc.sdata
  list : s'.keyList = s.keyList
  nextKey : s'.loc.nextKey = s.loc.nextKey

theorem KeysInMemory.of_sameKeys (h : s.KeysInMemory) (hsame : SameKeys s s') : s'.KeysInMemory := by
  rw [KeysInMemory, hsame.nextKey]
  exact KeysBelow.of_eq h hsame.sdata hsame.list

theorem sameKeys_moveState (s : FastState) (ok : Bool) (j : StaId) (state : StaState) :
    SameKeys s (s.moveState env ok j state) := by
  rw [FastState.moveState]
  dsimp only
  split
  · exact ⟨rfl, rfl, rfl⟩
  · split
    · split
      · exact ⟨rfl, rfl, rfl⟩
      · exact ⟨rfl, rfl, rfl⟩
    · exact ⟨rfl, rfl, rfl⟩
    · exact ⟨rfl, rfl, rfl⟩

theorem sameKeys_staPsDeliverWakeup (s : FastState) (j : StaId) :
    SameKeys s (s.staPsDeliverWakeup env j) := by
  rw [FastState.staPsDeliverWakeup]
  split
  · exact ⟨rfl, rfl, rfl⟩
  · exact ⟨rfl, rfl, rfl⟩

theorem sameKeys_staPsTransition (s : FastState) (j : StaId) (start : Bool) :
    SameKeys s (s.staPsTransition env j start) := by
  rw [FastState.staPsTransition]
  split
  · exact ⟨rfl, rfl, rfl⟩
  · split
    · rw [FastState.staPsStart]
      split
      · exact ⟨rfl, rfl, rfl⟩
      · exact ⟨rfl, rfl, rfl⟩
    · rw [FastState.staPsEnd]
      split
      · exact ⟨rfl, rfl, rfl⟩
      · obtain ⟨hsdata, hlist, hnext⟩ := sameKeys_staPsDeliverWakeup env
          (s.updPs j fun p => { p with psDeliver := true, psSta := false }) j
        exact ⟨hsdata, hlist, hnext⟩

theorem sameKeys_staBlockAwake (s : FastState) (j : StaId) (block polled : Bool) :
    SameKeys s (s.staBlockAwake env j block polled) := by
  rw [FastState.staBlockAwake]
  split_ifs
  all_goals exact ⟨rfl, rfl, rfl⟩

theorem sameKeys_staDeliverPsFrames (s : FastState) (j : StaId) :
    SameKeys s (s.staDeliverPsFrames env j) := by
  rw [FastState.staDeliverPsFrames]
  split
  · exact sameKeys_staPsDeliverWakeup env s j
  · exact ⟨rfl, rfl, rfl⟩

theorem sameKeys_txPrepare (s : FastState) (j : StaId) : SameKeys s (s.txPrepare env j) := by
  rw [FastState.txPrepare]
  split
  · exact ⟨rfl, rfl, rfl⟩
  · exact ⟨rfl, rfl, rfl⟩

end

theorem KeysInMemory.handle (h : s.KeysInMemory) (e : FastEvent) : (s.handle e).KeysInMemory := by
  cases e with
  | link env home idx key seq => exact h.keyLink env home idx key seq
  | free env home idx => exact h.keyFree env home idx
  | setTxKey env j idx => exact h.of_sameKeys ⟨rfl, rfl, rfl⟩
  | setDefaultKey env i idx uni multi =>
    show KeysBelow _ (s.setDefaultKey env i idx uni multi)
    rw [show (s.handle (.setDefaultKey env i idx uni multi)).loc.nextKey = s.loc.nextKey from
      (frame_setDefaultKey env s i idx uni multi).nextKey]
    exact KeysBelow.setDefaultKey env h i idx uni multi
  | moveState env ok j state => exact h.of_sameKeys (sameKeys_moveState env s ok j state)
  | psTransition env j start => exact h.of_sameKeys (sameKeys_staPsTransition env s j start)
  | blockAwake env j block polled => exact h.of_sameKeys (sameKeys_staBlockAwake env s j block polled)
  | deliver env j => exact h.of_sameKeys (sameKeys_staDeliverPsFrames env s j)
  | filtered j => exact h.of_sameKeys ⟨rfl, rfl, rfl⟩
  | prepare env j => exact h.of_sameKeys (sameKeys_txPrepare env s j)

/-- In every run of a device that starts without keys, what interfaces point to is in memory. -/
theorem keysInMemory_of_reach {P : FastState → List Unit → FastEvent → Prop} {s₀ : FastState}
    {os : List Unit} (h₀ : s₀.Blank) (hdef : ∀ i k, some k ∉ s₀.defaults i)
    (hr : Machine.Reach fastStep P s₀ s os) : s.KeysInMemory := by
  have hinit : s₀.KeysInMemory := by
    refine ⟨fun i k hk => ?_, fun i idx k hk => ?_, fun i k hk => absurd hk (hdef i k)⟩
    · rw [h₀.keyList i] at hk
      cases hk
    · have hnone : (s₀.loc.sdata i).keys idx = none := h₀.held (.keys i idx)
      rw [hnone] at hk
      cases hk
  refine hr.invariant (fun s _ => s.KeysInMemory) hinit ?_
  intro s os e s' o h _ hs
  rw [fastStep] at hs
  split at hs
  · cases hs
    exact h.handle e
  · cases hs

end FastState

end Mac80211
