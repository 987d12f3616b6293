import Mac80211.Keys.TailroomLedger

/-!
# Keys and the books

Every operation on keys keeps the books. Enabling a key again may not: its mark as one that the
hardware has is not looked at, stays if the driver refuses it, and is taken off a tainted key as if
that one had not been counted.

## Main definitions

* `Stale`
-/

namespace Mac80211

open List Function

namespace TailState

variable {net : TailNet} {env : TailEnv} {s s' : TailState} {d : SdataId → ℤ} {k : KeyId}

/-! ### The hardware -/

/-- The driver is asked, and takes the key. -/
def taken (net : TailNet) (env : TailEnv) (s : TailState) (k : KeyId) : Bool :=
  !(s.keys k).tainted && (unsupported net env (s.keys k)).isNone && (env.drvSetKey k).1 = .ok

/-- The flags about tailroom, once the driver was asked, if it is. -/
def flagsAfter (net : TailNet) (env : TailEnv) (s : TailState) (k : KeyId) : TailFlags :=
  if (s.keys k).tainted || (unsupported net env (s.keys k)).isSome then (s.keys k).flags
  else (env.drvSetKey k).2

/-- The key is marked as one the hardware has and asks for no tailroom, but the driver does not take it
again. -/
def Stale (net : TailNet) (env : TailEnv) (s : TailState) (k : KeyId) : Prop :=
  (s.keys k).uploadedToHardware = true ∧ taken net env s k = false ∧
    (flagsAfter net env s k).any = false
deriving Decidable

theorem kept_enableHwAccel (net : TailNet) (env : TailEnv) (s : TailState) (k : KeyId) :
    Kept s (s.enableHwAccel net env k).1 := by
  rw [enableHwAccel]
  dsimp only
  split
  · exact Kept.trans (.ite (kept_count net s _ 1)) (kept_setUploaded _ k false)
  · split
    · exact .refl s
    · have hflags := kept_setFlags s k (env.drvSetKey k).2
      split
      · have hup := hflags.trans (kept_setUploaded _ k true)
        split
        · exact hup.trans (kept_count net _ _ (-1))
        · exact hup
      · exact hflags

theorem keys_enableHwAccel_of_ne (net : TailNet) (env : TailEnv) (s : TailState) {k k' : KeyId}
    (hne : k' ≠ k) : (s.enableHwAccel net env k).1.keys k' = s.keys k' := by
  rw [enableHwAccel]
  dsimp only
  split
  · dsimp only
    rw [setUploaded, keys_updKey_of_ne _ _ hne]
    split
    · rw [increment_eq_count, keys_count]
    · rfl
  · split
    · rfl
    · split
      · have hkeys : ((s.setFlags k (env.drvSetKey k).2).setUploaded k true).keys k' = s.keys k' := by
          rw [setUploaded, keys_updKey_of_ne _ _ hne, setFlags, keys_updKey_of_ne _ _ hne]
        split
        · rw [decrease_eq_count, keys_count]
          exact hkeys
        · exact hkeys
      · dsimp only
        rw [setFlags, keys_updKey_of_ne _ _ hne]

theorem setKey_of_supported {key : TailKey} (h : unsupported net env key = none) :
    net.setKey = true := by
  rw [unsupported] at h
  split at h
  · cases h
  · rename_i hset
    simpa using hset

theorem single_congr {i : SdataId} {a b c : ℤ} (hab : a + b = c) :
    d + Pi.single i a + Pi.single i b = d + Pi.single i c := by
  rw [add_assoc, ← Pi.single_add, hab]

/-- The key was counted, whether it wants tailroom or not; not any more if the hardware has it and
asks for none. -/
theorem Books.enableHwAccel (h : Books net s d) (env : TailEnv) (hk : s.Listed k) :
    Books net (s.enableHwAccel net env k).1 (d + Pi.single (s.keys k).home.sdata
      ((s.keys k).weight - 1 + if Stale net env s k then 1 else 0)) := by
  rw [TailState.enableHwAccel]
  dsimp only
  split
  · rename_i htaint
    have hstale : Stale net env s k ↔
        ((s.keys k).uploadedToHardware && !(s.keys k).flags.any) = true := by
      simp [Stale, taken, flagsAfter, htaint]
    split
    · rename_i hup
      have hcount := h.count (s.keys k).home.sdata 1
      have hkept := kept_count net s (s.keys k).home.sdata 1
      have hwrite := hcount.setUploaded (k := k) (b := false) (hkept.listed hk) (fun hf => by cases hf)
      rw [keys_count, TailKey.weight_setUploaded_false] at hwrite
      refine hwrite.congr (single_congr ?_)
      rw [if_pos (hstale.2 hup)]
      ring
    · rename_i hup
      refine (h.setUploaded hk (b := false) (fun hf => by cases hf)).congr ?_
      rw [if_neg (fun hs => hup (hstale.1 hs)), TailKey.weight_setUploaded_false, add_zero]
  · rename_i htaint
    split
    · rename_i ret hun
      have hstale : Stale net env s k ↔
          ((s.keys k).uploadedToHardware && !(s.keys k).flags.any) = true := by
        simp [Stale, taken, flagsAfter, hun]
      have hzero : (s.keys k).weight - 1 + (if Stale net env s k then 1 else 0) = 0 := by
        rw [TailKey.weight_eq]
        simp only [hstale]
        split
        · rfl
        · rfl
      refine h.congr ?_
      rw [hzero, Pi.single_zero, add_zero]
    · rename_i hun
      have hflags := h.setFlags hk (env.drvSetKey k).2
      split
      · rename_i hok
        have hstale : ¬ Stale net env s k := by
          simp [Stale, taken, htaint, hun, hok]
        rw [if_neg hstale, add_zero]
        have hset : net.setKey = true := setKey_of_supported hun
        have hkept := kept_setFlags s k (env.drvSetKey k).2
        have hkey : (s.setFlags k (env.drvSetKey k).2).keys k = (s.keys k).setFlags (env.drvSetKey k).2 :=
          keys_updKey_self ..
        have hweight : (((s.keys k).setFlags (env.drvSetKey k).2).setUploaded true).weight =
            if !(env.drvSetKey k).2.any then 0 else 1 := TailKey.weight_eq _
        have hup := hflags.setUploaded (hkept.listed hk) (b := true) fun _ => hset
        rw [hkey, hweight] at hup
        have hboth := hup.congr (single_congr (sub_add_sub_cancel ..))
        split
        · rename_i hany
          refine (hboth.count (s.keys k).home.sdata (-1)).congr (single_congr ?_)
          rw [if_pos hany, sub_zero, sub_eq_add_neg]
        · rename_i hany
          refine hboth.congr ?_
          rw [if_neg hany]
      · rename_i hok
        have hafter : flagsAfter net env s k = (env.drvSetKey k).2 := by
          simp [flagsAfter, htaint, hun]
        have hstale : Stale net env s k ↔
            ((s.keys k).uploadedToHardware && !(env.drvSetKey k).2.any) = true := by
          simp [Stale, taken, hok, hafter]
        have hweight : ((s.keys k).setFlags (env.drvSetKey k).2).weight =
            if (s.keys k).uploadedToHardware && !(env.drvSetKey k).2.any then 0 else 1 :=
          TailKey.weight_eq _
        refine hflags.congr ?_
        simp only [hstale]
        rw [hweight]
        split
        · rw [sub_zero, sub_add_cancel]
        · rw [add_zero]

theorem Books.enableHwAccel_new (h : Books net s d) (env : TailEnv) (hk : s.Listed k)
    (hup : (s.keys k).uploadedToHardware = false) : Books net (s.enableHwAccel net env k).1 d := by
  have hstale : ¬ Stale net env s k := fun hs => by
    rw [hs.1] at hup
    cases hup
  refine (h.enableHwAccel env hk).congr ?_
  rw [if_neg hstale, TailKey.weight_of_not_uploaded hup, sub_self, add_zero, Pi.single_zero, add_zero]

theorem kept_disableHwAccel (net : TailNet) (s : TailState) (k : KeyId) :
    Kept s (s.disableHwAccel net k) := by
  rw [disableHwAccel]
  dsimp only
  split
  · exact .refl s
  · split
    · exact .refl s
    · exact Kept.trans (.ite (kept_count net s _ 1)) (kept_setUploaded _ k false)

theorem keys_disableHwAccel_of_ne (net : TailNet) (s : TailState) {k k' : KeyId} (hne : k' ≠ k) :
    (s.disableHwAccel net k).keys k' = s.keys k' := by
  rw [disableHwAccel]
  dsimp only
  split
  · rfl
  · split
    · rfl
    · rw [setUploaded, keys_updKey_of_ne _ _ hne]
      split
      · rw [increment_eq_count, keys_count]
      · rfl

theorem Books.disableHwAccel (h : Books net s d) (hk : s.Listed k) :
    Books net (s.disableHwAccel net k) d := by
  rw [TailState.disableHwAccel]
  dsimp only
  split
  · exact h
  · split
    · exact h
    · rename_i hup
      have hup : (s.keys k).uploadedToHardware = true := by simpa using hup
      have hweight : (s.keys k).weight = if !(s.keys k).flags.any then 0 else 1 := by
        rw [TailKey.weight_eq, hup, Bool.true_and]
      split
      · rename_i hany
        have hkept := kept_count net s (s.keys k).home.sdata 1
        have hwrite := (h.count (s.keys k).home.sdata 1).setUploaded (k := k) (b := false)
          (hkept.listed hk) (fun hf => by cases hf)
        rw [keys_count, TailKey.weight_setUploaded_false, hweight, if_pos hany] at hwrite
        refine hwrite.congr ?_
        rw [add_assoc, ← Pi.single_add, show (1 : ℤ) + (0 - 1) = 0 by rfl, Pi.single_zero, add_zero]
      · rename_i hany
        refine (h.setUploaded hk (b := false) (fun hf => by cases hf)).congr ?_
        rw [TailKey.weight_setUploaded_false, hweight, if_neg hany, sub_self, Pi.single_zero, add_zero]

theorem not_uploaded_disableHwAccel (h : Books net s d) (hk : s.Listed k) :
    ((s.disableHwAccel net k).keys k).uploadedToHardware = false := by
  rw [TailState.disableHwAccel]
  dsimp only
  split
  · rename_i hset
    cases hup : (s.keys k).uploadedToHardware with
    | false => rfl
    | true =>
      rw [h.hardware _ k hk hup] at hset
      cases hset
  · split
    · rename_i hup
      simpa using hup
    · rw [TailState.setUploaded, keys_updKey_self]
      rfl

/-! ### Replacing a key by nothing -/

/-- A key has left its list and its slot. -/
structure Freed (s s' : TailState) (k : KeyId) : Prop where
  home : ∀ k', (s'.keys k').home = (s.keys k').home
  list : ∀ i, s'.keyList i = (s.keyList i).erase k
  slots : ∀ p, s'.slots p = some k → False

theorem Books.replaceInHw_none (h : Books net s d) (env : TailEnv) (hk : s.Listed k) :
    Books net (s.replaceInHw net env (some k) none).1 d ∧
      Kept s (s.replaceInHw net env (some k) none).1 ∧
      (((s.replaceInHw net env (some k) none).1).keys k).uploadedToHardware = false := by
  rw [replaceInHw]
  split
  · exact ⟨h.disableHwAccel hk, kept_disableHwAccel net s k, not_uploaded_disableHwAccel h hk⟩
  · rename_i hup
    exact ⟨h, .refl s, by simpa using hup⟩

theorem keyReplace_none (net : TailNet) (env : TailEnv) (s : TailState) (home : KeyHome) (k : KeyId) :
    (s.keyReplace net env home (some k) none).1 =
      (((s.replaceInHw net env (some k) none).1.setSlot (home.slot (s.keys k).keyidx) none).listDel k) := by
  have hok : (s.replaceInHw net env (some k) none).2 = true := by
    rw [replaceInHw]
    split
    · rfl
    · rfl
  obtain ⟨i, owner⟩ := home
  cases owner with
  | pairwise j => simp [keyReplace, replacedIdx, hok]
  | group j => simp [keyReplace, replacedIdx, hok]
  | iface => simp [keyReplace, replacedIdx, hok]

/-- A key that is replaced by nothing leaves the books 1 off, which destroying it makes up for. -/
theorem Books.keyReplace_none (h : Books net s d) (env : TailEnv) (hk : s.Listed k) :
    Books net (s.keyReplace net env (s.keys k).home (some k) none).1
        (d + Pi.single (s.keys k).home.sdata 1) ∧
      Freed s (s.keyReplace net env (s.keys k).home (some k) none).1 k := by
  obtain ⟨hhw, hkept, hup⟩ := h.replaceInHw_none env hk
  rw [TailState.keyReplace_none]
  generalize hs₁ : (s.replaceInHw net env (some k) none).1 = s₁ at hhw hkept hup ⊢
  have hslot : Books net (s₁.setSlot ((s.keys k).home.slot (s.keys k).keyidx) none) d :=
    hhw.setSlot fun k' hk' => by cases hk'
  have hempty : ∀ p, (s₁.setSlot ((s.keys k).home.slot (s.keys k).keyidx) none).slots p ≠ some k := by
    intro p hp
    obtain ⟨rfl, -⟩ := hslot.slots p k hp
    rw [show (s₁.setSlot ((s.keys k).home.slot (s.keys k).keyidx) none).keys = s₁.keys from rfl,
      hkept.home, hkept.keyidx] at hp
    rw [TailState.setSlot] at hp
    dsimp only at hp
    rw [update_self] at hp
    cases hp
  have hlisted : (s₁.setSlot ((s.keys k).home.slot (s.keys k).keyidx) none).Listed k := hkept.listed hk
  have hdel := hslot.listDel hlisted hempty
  have hweight : (s₁.keys k).weight = 1 := TailKey.weight_of_not_uploaded hup
  have hhome : (s₁.keys k).home = (s.keys k).home := hkept.home k
  refine ⟨hdel.congr ?_, ⟨fun k' => hkept.home k', fun i => ?_, fun p hp => hempty p hp⟩⟩
  · show d + Pi.single (s₁.keys k).home.sdata (s₁.keys k).weight = _
    rw [hweight, hhome]
  · show (Function.update s₁.keyList (s₁.keys k).home.sdata
      ((s₁.keyList (s₁.keys k).home.sdata).erase k)) i = _
    rw [update_apply, hkept.list]
    split
    · rename_i hi
      rw [hi]
    · rename_i hi
      rw [erase_of_not_mem]
      intro hmem
      exact hi (by rw [hhome, h.home i k hmem])

theorem kept_keyDestroy (net : TailNet) (s : TailState) (k : KeyId) (delay : Bool) :
    Kept s (s.keyDestroy net k delay) := by
  rw [keyDestroy]
  split
  · exact ⟨rfl, rfl, rfl, fun _ => rfl, fun _ => rfl⟩
  · exact kept_count net s _ (-1)

theorem Books.keyDestroy (h : Books net s d) (k : KeyId) (delay : Bool)
    (hdelay : delay = true → net.type (s.keys k).home.sdata = .station) :
    Books net (s.keyDestroy net k delay) (d + Pi.single (s.keys k).home.sdata (-1)) := by
  rw [TailState.keyDestroy]
  split
  · rename_i hd
    refine (h.setPending (s.keys k).home.sdata (.inl (hdelay hd))).congr ?_
    rw [sub_add_cancel_left]
  · exact h.count (s.keys k).home.sdata (-1)

theorem Books.keyFree (h : Books net s d) (hk : s.Listed k) {delay : Bool}
    (hdelay : delay = true → net.type (s.keys k).home.sdata = .station) :
    Books net (s.keyFree net env k delay) d := by
  obtain ⟨hreplaced, hfreed⟩ := h.keyReplace_none env hk
  rw [TailState.keyFree]
  refine (hreplaced.keyDestroy k delay fun hd => ?_).congr ?_
  · rw [hfreed.home]
    exact hdelay hd
  · rw [hfreed.home, add_assoc, ← Pi.single_add, show (1 : ℤ) + -1 = 0 by rfl, Pi.single_zero, add_zero]

/-! ### Linking a key -/

/-- `ieee80211_pairwise_rekey`, for a pairwise key. -/
def rekeyed (s : TailState) (home : KeyHome) (old : Option KeyId) (k : KeyId) : TailState :=
  match home.owner with
  | .pairwise _ => s.pairwiseRekey old k
  | _ => s

theorem rekeyed_cases (s : TailState) (home : KeyHome) (old : Option KeyId) (k : KeyId) :
    s.rekeyed home old k = s ∨ ∃ k', old = some k' ∧ s.rekeyed home old k = s.taint k' := by
  obtain ⟨i, owner⟩ := home
  cases owner with
  | pairwise j =>
    show s.pairwiseRekey old k = s ∨ ∃ k', old = some k' ∧ s.pairwiseRekey old k = s.taint k'
    unfold pairwiseRekey
    split
    · exact .inl rfl
    · cases old with
      | none => exact .inl rfl
      | some k' =>
        dsimp only
        split
        · exact .inl rfl
        · exact .inr ⟨k', rfl, rfl⟩
  | group j => exact .inl rfl
  | iface => exact .inl rfl

/-- `if (old) list_del_rcu(&old->list)`. -/
def listDelOld (s : TailState) (old : Option KeyId) : TailState :=
  match old with
  | some k => s.listDel k
  | none => s

theorem keyReplace_some (net : TailNet) (env : TailEnv) (s : TailState) (home : KeyHome)
    (old : Option KeyId) (k : KeyId) : s.keyReplace net env home old (some k) =
      let r := ((s.listAdd home.sdata k).rekeyed home old k).replaceInHw net env old (some k)
      if r.2 then
        ((r.1.setSlot (home.slot (s.replacedIdx old (some k))) (some k)).listDelOld old, true)
      else (r.1, false) := by
  obtain ⟨i, owner⟩ := home
  have hkeep (r : TailState × Bool) (idx : ℕ) : (if !r.2 then (r.1, false) else
      match old with
      | some k' => ((r.1.setSlot (KeyHome.slot ⟨i, owner⟩ idx) (some k)).listDel k', true)
      | none => (r.1.setSlot (KeyHome.slot ⟨i, owner⟩ idx) (some k), true)) =
      if r.2 then ((r.1.setSlot (KeyHome.slot ⟨i, owner⟩ idx) (some k)).listDelOld old, true)
      else (r.1, false) := by
    obtain ⟨s', ok⟩ := r
    cases ok with
    | false => rfl
    | true => cases old <;> rfl
  cases owner with
  | pairwise j => exact hkeep _ _
  | group j => exact hkeep _ _
  | iface => exact hkeep _ _

theorem Books.replaceInHw_some (h : Books net s d) (env : TailEnv) {old : Option KeyId} (hold : ∀ k' ∈ old, s.Listed k')
    (hk : s.Listed k) (hup : (s.keys k).uploadedToHardware = false) (hne : old ≠ some k) :
    Books net (s.replaceInHw net env old (some k)).1 d ∧
      Kept s (s.replaceInHw net env old (some k)).1 ∧
      ∀ k' ∈ old, (((s.replaceInHw net env old (some k)).1).keys k').uploadedToHardware = false := by
  cases old with
  | none =>
    rw [replaceInHw]
    split
    · exact ⟨h, .refl s, fun k' hk' => by cases hk'⟩
    · exact ⟨h.enableHwAccel_new env hk hup, kept_enableHwAccel net env s k, fun k' hk' => by cases hk'⟩
  | some k' =>
    have hne : k ≠ k' := by
      rintro rfl
      exact hne rfl
    rw [replaceInHw]
    split
    · have hkept := kept_disableHwAccel net s k'
      have hkey : (s.disableHwAccel net k').keys k = s.keys k := keys_disableHwAccel_of_ne net s hne
      refine ⟨(h.disableHwAccel (hold k' rfl)).enableHwAccel_new env (hkept.listed hk) (by rw [hkey]; exact hup),
        hkept.trans (kept_enableHwAccel net env _ k), ?_⟩
      rintro k'' ⟨⟩
      rw [keys_enableHwAccel_of_ne net env _ hne.symm]
      exact not_uploaded_disableHwAccel h (hold k' rfl)
    · rename_i hdown
      refine ⟨h, .refl s, ?_⟩
      rintro k'' ⟨⟩
      simpa using hdown

/-- What is put in place of another key, or of none. -/
structure Replacing (net : TailNet) (s : TailState) (home : KeyHome) (old : Option KeyId) (k : KeyId) :
    Prop where
  home_eq : (s.keys k).home = home
  fresh : ∀ i, k ∉ s.keyList i
  bound : k < s.nextKey
  finds : net.Finds home
  not_uploaded : (s.keys k).uploadedToHardware = false
  old_eq : s.slots (home.slot (s.keys k).keyidx) = old

theorem slot_injective {home home' : KeyHome} {idx idx' : ℕ} (h : home.slot idx = home'.slot idx') :
    home.owner = home'.owner ∧ idx = idx' ∧ (home.owner = .iface → home.sdata = home'.sdata) := by
  obtain ⟨i, owner⟩ := home
  obtain ⟨i', owner'⟩ := home'
  cases owner with
  | pairwise j =>
    cases owner' with
    | pairwise j' =>
      cases h
      exact ⟨rfl, rfl, fun ho => by cases ho⟩
    | group j' => cases h
    | iface => cases h
  | group j =>
    cases owner' with
    | pairwise j' => cases h
    | group j' =>
      cases h
      exact ⟨rfl, rfl, fun ho => by cases ho⟩
    | iface => cases h
  | iface =>
    cases owner' with
    | pairwise j' => cases h
    | group j' => cases h
    | iface =>
      cases h
      exact ⟨rfl, rfl, fun _ => rfl⟩

theorem station_iff_of_slot {home home' : KeyHome} {idx idx' : ℕ}
    (h : home.slot idx = home'.slot idx') (hf : net.Finds home) (hf' : net.Finds home') :
    net.type home.sdata = .station ↔ net.type home'.sdata = .station := by
  obtain ⟨howner, -, hiface⟩ := slot_injective h
  cases ho : home.owner.sta with
  | some j =>
    rw [hf j ho, hf' j (by rw [← howner]; exact ho)]
  | none =>
    have hi : home.owner = .iface := by
      cases hh : home.owner with
      | pairwise j =>
        rw [hh] at ho
        cases ho
      | group j =>
        rw [hh] at ho
        cases ho
      | iface => rfl
    rw [hiface hi]

section

variable {home : KeyHome} {old : Option KeyId}

theorem Replacing.old_listed (hr : Replacing net s home old k) (h : Books net s d) {k' : KeyId}
    (hk' : old = some k') : s.Listed k' ∧ k' ≠ k ∧
      home.slot (s.keys k).keyidx = (s.keys k').home.slot (s.keys k').keyidx := by
  obtain ⟨hslot, hlisted⟩ := h.slots _ k' (hr.old_eq.trans hk')
  refine ⟨hlisted, ?_, hslot⟩
  rintro rfl
  exact hr.fresh _ hlisted

theorem Replacing.listed (hr : Replacing net s home old k) (h : Books net s d) :
    Books net ((s.listAdd home.sdata k).rekeyed home old k) (d + Pi.single home.sdata (-1)) ∧
      Kept (s.listAdd home.sdata k) ((s.listAdd home.sdata k).rekeyed home old k) ∧
      (((s.listAdd home.sdata k).rekeyed home old k).keys k).uploadedToHardware = false := by
  have hadd := h.listAdd hr.fresh hr.bound (hr.home_eq ▸ hr.finds) fun hup => by
    rw [hr.not_uploaded] at hup
    cases hup
  rw [hr.home_eq, TailKey.weight_of_not_uploaded hr.not_uploaded] at hadd
  have hlisted {k' : KeyId} (hk' : s.Listed k') : (s.listAdd home.sdata k).Listed k' := by
    show k' ∈ Function.update s.keyList home.sdata (s.keyList home.sdata ++ [k]) (s.keys k').home.sdata
    rw [update_apply]
    split
    · rename_i hi
      rw [← hi]
      exact mem_append_left _ hk'
    · exact hk'
  rcases rekeyed_cases (s.listAdd home.sdata k) home old k with heq | ⟨k', hold, heq⟩
  · rw [heq]
    exact ⟨hadd, .refl _, hr.not_uploaded⟩
  · obtain ⟨hk', hne, -⟩ := hr.old_listed h hold
    rw [heq]
    refine ⟨hadd.taint (hlisted hk'), kept_taint _ k', ?_⟩
    rw [TailState.taint, keys_updKey_of_ne _ _ hne.symm]
    exact hr.not_uploaded

/-- The new key is counted, and taken or refused; if it is taken, the old one is still counted. -/
theorem Books.keyReplace_some (h : Books net s d) (env : TailEnv) (hr : Replacing net s home old k) :
    Books net (s.keyReplace net env home old (some k)).1 (d + Pi.single home.sdata (-1) +
        if (s.keyReplace net env home old (some k)).2 then
          (match old with
          | some k' => Pi.single (s.keys k').home.sdata 1
          | none => 0)
        else 0) ∧
      (∀ k', ((s.keyReplace net env home old (some k)).1.keys k').home = (s.keys k').home) ∧
      (s.keyReplace net env home old (some k)).1.Listed k := by
  obtain ⟨hlist, hlisted, hup⟩ := hr.listed h
  generalize hs₁ : (s.listAdd home.sdata k).rekeyed home old k = s₁ at hlist hlisted hup
  have hhome₁ (k' : KeyId) : (s₁.keys k').home = (s.keys k').home := hlisted.home k'
  have hk₁ : s₁.Listed k := by
    rw [Listed, hlisted.list, hhome₁, hr.home_eq]
    show k ∈ Function.update s.keyList home.sdata (s.keyList home.sdata ++ [k]) home.sdata
    rw [update_self]
    exact mem_append_right _ (mem_singleton_self k)
  have hold₁ : ∀ k' ∈ old, s₁.Listed k' := fun k' hk' => by
    have hslot := hlist.slots (home.slot (s.keys k).keyidx) k' (by
      rw [hlisted.slots]
      exact hr.old_eq.trans hk')
    exact hslot.2
  have hne : old ≠ some k := fun he => (hr.old_listed h he).2.1 rfl
  obtain ⟨hhw, hkept, hdown⟩ := hlist.replaceInHw_some env hold₁ hk₁ hup hne
  rw [TailState.keyReplace_some, hs₁]
  dsimp only
  generalize hres : s₁.replaceInHw net env old (some k) = r at hhw hkept hdown
  obtain ⟨s₂, ok⟩ := r
  dsimp only at hhw hkept hdown
  have hhome₂ (k' : KeyId) : (s₂.keys k').home = (s.keys k').home := (hkept.home k').trans (hhome₁ k')
  cases ok with
  | false =>
    rw [if_neg (by simp), if_neg (by simp), add_zero]
    exact ⟨hhw, hhome₂, hkept.listed hk₁⟩
  | true =>
    rw [if_pos rfl]
    dsimp only
    rw [if_pos rfl]
    have hidx₂ (k' : KeyId) : (s₂.keys k').keyidx = (s.keys k').keyidx :=
      (hkept.keyidx k').trans (hlisted.keyidx k')
    have hidx : s.replacedIdx old (some k) = (s.keys k).keyidx := by
      cases hold : old with
      | none => rfl
      | some k' =>
        obtain ⟨-, -, hslot⟩ := hr.old_listed h hold
        exact (slot_injective hslot).2.1.symm
    have hset : Books net (s₂.setSlot (home.slot (s.replacedIdx old (some k))) (some k))
        (d + Pi.single home.sdata (-1)) := by
      refine hhw.setSlot ?_
      rintro k' ⟨⟩
      refine ⟨?_, hkept.listed hk₁⟩
      rw [hidx, hhome₂, hidx₂, hr.home_eq]
    cases hold : old with
    | none =>
      dsimp only
      rw [add_zero]
      rw [hold] at hset
      exact ⟨hset, hhome₂, hkept.listed hk₁⟩
    | some k' =>
      subst hold
      obtain ⟨-, hne', hslot⟩ := hr.old_listed h rfl
      have hempty : ∀ p,
          (s₂.setSlot (home.slot (s.replacedIdx (some k') (some k))) (some k)).slots p ≠ some k' := by
        intro p hp
        obtain ⟨rfl, -⟩ := hset.slots p k' hp
        change Function.update s₂.slots (home.slot (s.replacedIdx (some k') (some k))) (some k)
          ((s₂.keys k').home.slot (s₂.keys k').keyidx) = some k' at hp
        rw [hhome₂, hidx₂, ← hslot, hidx, update_self] at hp
        exact hne' (Option.some.inj hp).symm
      have hk' : s₂.Listed k' := hkept.listed (hold₁ k' rfl)
      have hdel := hset.listDel (k := k') hk' hempty
      have hweight : (s₂.keys k').weight = 1 := TailKey.weight_of_not_uploaded (hdown k' rfl)
      change Books net _ (d + Pi.single home.sdata (-1) +
        Pi.single (s₂.keys k').home.sdata (s₂.keys k').weight) at hdel
      rw [hweight, hhome₂] at hdel
      refine ⟨hdel, hhome₂, ?_⟩
      have hk : k ∈ s₂.keyList (s₂.keys k).home.sdata := hkept.listed hk₁
      show k ∈ Function.update s₂.keyList (s₂.keys k').home.sdata
        ((s₂.keyList (s₂.keys k').home.sdata).erase k') (s₂.keys k).home.sdata
      rw [update_apply]
      split
      · rename_i hi
        rw [← hi]
        exact (mem_erase_of_ne hne'.symm).2 hk
      · exact hk

end

theorem single_cancel (d : SdataId → ℤ) (i : SdataId) : d + Pi.single i 1 + Pi.single i (-1) = d := by
  rw [add_assoc, ← Pi.single_add, show (1 : ℤ) + -1 = 0 by rfl, Pi.single_zero, add_zero]

theorem Books.keyLink (h : Books net s d) {home : KeyHome} (hf : net.Finds home) (idx : ℕ)
    (key : TailKey) : Books net (s.keyLink net env home idx key) d := by
  rw [TailState.keyLink]
  dsimp only
  split
  · exact h
  · split
    · exact h
    · have hcount := (h.allocKey home idx key).count home.sdata 1
      have hkeys := keys_count net (s.allocKey home idx key) home.sdata 1
      have hkept := kept_count net (s.allocKey home idx key) home.sdata 1
      rw [increment_eq_count]
      generalize hs₁ : (s.allocKey home idx key).count net home.sdata 1 = s₁ at hcount hkeys hkept
      have hkey : s₁.keys s.nextKey =
          { key with home := home, keyidx := idx, uploadedToHardware := false, tainted := false } := by
        rw [hkeys]
        exact update_self ..
      have hr : Replacing net s₁ home (s.slots (home.slot idx)) s.nextKey := by
        refine ⟨by rw [hkey], fun i hi => ?_, ?_, hf, by rw [hkey], ?_⟩
        · rw [hkept.list] at hi
          exact absurd (h.bound i _ hi) (lt_irrefl _)
        · rw [hkept.nextKey]
          exact Nat.lt_succ_self _
        · rw [hkept.slots, hkey]
          rfl
      obtain ⟨hbooks, hhome, hlisted⟩ := hcount.keyReplace_some env hr
      split
      · rename_i s₂ hs₂
        rw [hs₂] at hbooks hhome
        rw [if_pos rfl, single_cancel] at hbooks
        split
        · rename_i k' hold
          obtain ⟨hk', -, hslot⟩ := hr.old_listed hcount hold
          rw [hold] at hbooks
          dsimp only at hbooks hhome
          refine (hbooks.keyDestroy k' _ fun hd => ?_).congr ?_
          · rw [hhome]
            exact (station_iff_of_slot hslot hf (hcount.finds _ k' hk')).1 (by simpa using hd)
          · rw [hhome, single_cancel]
        · rename_i hold
          rw [hold] at hbooks
          exact hbooks.congr (add_zero d)
      · rename_i s₂ hs₂
        rw [hs₂] at hbooks hhome hlisted
        rw [if_neg (by simp), single_cancel, add_zero] at hbooks
        refine hbooks.keyFree hlisted fun hd => ?_
        rw [hhome, hkey]
        simpa using hd

theorem Books.delKey (h : Books net s d) {home : KeyHome} (hf : net.Finds home) (idx : ℕ) :
    Books net (s.delKey net env home idx) d := by
  rw [TailState.delKey]
  split
  · exact h
  · rename_i k hk
    obtain ⟨hslot, hlisted⟩ := h.slots _ k hk
    refine h.keyFree hlisted fun hd => ?_
    exact (station_iff_of_slot hslot hf (h.finds _ k hlisted)).1 (by simpa using hd)

theorem Books.removeKey (h : Books net s d) (hk : s.Listed k) :
    Books net (s.removeKey net env k) d := by
  rw [TailState.removeKey]
  dsimp only
  split
  · rename_i hup
    have hweight : (s.keys k).weight = if !(s.keys k).flags.any then 0 else 1 := by
      rw [TailKey.weight_eq, hup, Bool.true_and]
    have hwrite := h.setUploaded hk (b := false) (fun hf => by cases hf)
    have hlisted := (kept_setUploaded s k false).listed hk
    rw [TailKey.weight_setUploaded_false, hweight] at hwrite
    split
    · rename_i hany
      rw [if_pos hany] at hwrite
      have hcount := (hwrite.count (s.keys k).home.sdata 1).congr (by
        rw [add_assoc, ← Pi.single_add, show (0 : ℤ) - 1 + 1 = 0 by rfl, Pi.single_zero, add_zero])
      exact hcount.keyFree ((kept_count net _ _ 1).listed hlisted) fun hd => by cases hd
    · rename_i hany
      rw [if_neg hany, sub_self, Pi.single_zero, add_zero] at hwrite
      exact hwrite.keyFree hlisted fun hd => by cases hd
  · exact h.keyFree hk fun hd => by cases hd

/-! ### Many keys -/

theorem Books.takePending (h : Books net s d) (i : SdataId) :
    Books net ((s.decreaseTailroomNeedCount net i (s.pendingDec i)).setPending i 0) d := by
  rw [decrease_eq_count]
  refine ((h.count i (-s.pendingDec i)).setPending i (.inr rfl)).congr ?_
  rw [pendingDec_count, sub_zero, add_assoc, ← Pi.single_add, neg_add_cancel, Pi.single_zero, add_zero]

theorem Books.delayedTailroomDec (h : Books net s d) (i : SdataId) :
    Books net (s.delayedTailroomDec net i) d := h.takePending i

theorem Books.freeStaKeys (h : Books net s d) (j : StaId) : Books net (s.freeStaKeys net env j) d := by
  rw [TailState.freeStaKeys]
  generalize staSlots j = l
  induction l generalizing s with
  | nil => exact h
  | cons p l ih =>
    rw [foldl_cons]
    apply ih
    split
    · exact h
    · rename_i k hk
      obtain ⟨-, hlisted⟩ := h.slots p k hk
      exact h.keyFree hlisted fun hd => by simpa using hd

theorem Books.resumeDisconnect (h : Books net s d) (i : SdataId) : Books net (s.resumeDisconnect i) d := by
  have hall : ∀ k ∈ s.keyList i, s.Listed k := fun k hk => by
    rw [Listed, h.home i k hk]
    exact hk
  rw [TailState.resumeDisconnect]
  generalize s.keyList i = l at hall
  induction l generalizing s with
  | nil => exact h
  | cons k l ih =>
    rw [foldl_cons]
    refine ih (h.taint (hall k (mem_cons_self ..))) fun k' hk' => ?_
    exact (kept_taint s k).listed (hall k' (mem_cons_of_mem _ hk'))

/-! ### The keys of an interface -/

/-- What the books are off by while keys are off the lists, and not destroyed yet. -/
def debt (iface : KeyId → SdataId) (ks : List KeyId) : SdataId → ℤ :=
  (ks.map fun k => Pi.single (iface k) 1).sum

theorem debt_cons (iface : KeyId → SdataId) (k : KeyId) (ks : List KeyId) :
    debt iface (k :: ks) = Pi.single (iface k) 1 + debt iface ks := by
  rw [debt, debt, map_cons, sum_cons]

theorem debt_append (iface : KeyId → SdataId) (ks ks' : List KeyId) :
    debt iface (ks ++ ks') = debt iface ks + debt iface ks' := by
  rw [debt, debt, debt, map_append, sum_append]

variable {iface : KeyId → SdataId}

theorem Books.foldl_keyReplace (h : Books net s d) {l : List KeyId} (hl : l.Nodup)
    (hlisted : ∀ k ∈ l, s.Listed k) (hiface : ∀ k, (s.keys k).home.sdata = iface k) :
    Books net (l.foldl (fun s k => (s.keyReplace net env (s.keys k).home (some k) none).1) s)
        (d + debt iface l) ∧
      ∀ k, ((l.foldl (fun s k => (s.keyReplace net env (s.keys k).home (some k) none).1) s).keys
        k).home.sdata = iface k := by
  induction l generalizing s d with
  | nil =>
    refine ⟨h.congr ?_, hiface⟩
    rw [debt, map_nil, sum_nil, add_zero]
  | cons k l ih =>
    obtain ⟨hk, hl⟩ := nodup_cons.1 hl
    obtain ⟨hreplaced, hfreed⟩ := h.keyReplace_none env (hlisted k (mem_cons_self ..))
    rw [foldl_cons]
    have hrest := ih hreplaced hl (fun k' hk' => ?_) (fun k' => ?_)
    · refine ⟨hrest.1.congr ?_, hrest.2⟩
      rw [hiface, debt_cons, add_assoc]
    · have hne : k' ≠ k := by
        rintro rfl
        exact hk hk'
      rw [Listed, hfreed.home, hfreed.list]
      exact (mem_erase_of_ne hne).2 (hlisted k' (mem_cons_of_mem _ hk'))
    · rw [hfreed.home]
      exact hiface k'

theorem Books.freeKeysIface (h : Books net s d) (env : TailEnv) (i : SdataId)
    (hiface : ∀ k, (s.keys k).home.sdata = iface k) :
    Books net (s.freeKeysIface net env i).1 (d + debt iface (s.freeKeysIface net env i).2) ∧
      ∀ k, ((s.freeKeysIface net env i).1.keys k).home.sdata = iface k := by
  have hpending := h.takePending i
  have hkeys : ((s.decreaseTailroomNeedCount net i (s.pendingDec i)).setPending i 0).keys = s.keys := by
    rw [TailState.setPending, decrease_eq_count, keys_count]
  rw [TailState.freeKeysIface]
  refine hpending.foldl_keyReplace (hpending.nodup i) (fun k hk => ?_) fun k => ?_
  · rw [Listed, hpending.home i k hk]
    exact hk
  · rw [hkeys]
    exact hiface k

theorem Books.foldl_keyDestroy {ks : List KeyId}
    (h : Books net s (d + debt iface ks)) (hiface : ∀ k, (s.keys k).home.sdata = iface k) :
    Books net (ks.foldl (fun s k => s.keyDestroy net k false) s) d := by
  induction ks generalizing s with
  | nil =>
    refine h.congr ?_
    rw [debt, map_nil, sum_nil, add_zero]
  | cons k ks ih =>
    rw [foldl_cons]
    refine ih ((h.keyDestroy k false fun hd => by cases hd).congr ?_) fun k' => ?_
    · rw [hiface, debt_cons, add_comm (Pi.single (iface k) 1), ← add_assoc, single_cancel]
    · rw [(kept_keyDestroy net s k false).home]
      exact hiface k'

theorem Books.freeKeys (h : Books net s d) (i : SdataId) : Books net (s.freeKeys net env i) d := by
  let iface : KeyId → SdataId := fun k => (s.keys k).home.sdata
  have hiface : ∀ k, (s.keys k).home.sdata = iface k := fun _ => rfl
  have hfirst := h.freeKeysIface env i hiface
  rw [TailState.freeKeys]
  dsimp only
  generalize s.freeKeysIface net env i = r at hfirst
  have hall : ∀ (l : List SdataId) (r : TailState × List KeyId), Books net r.1 (d + debt iface r.2) →
      (∀ k, (r.1.keys k).home.sdata = iface k) →
      Books net (l.foldl (fun r vlan => ((r.1.freeKeysIface net env vlan).1,
        r.2 ++ (r.1.freeKeysIface net env vlan).2)) r).1 (d + debt iface (l.foldl (fun r vlan =>
          ((r.1.freeKeysIface net env vlan).1, r.2 ++ (r.1.freeKeysIface net env vlan).2)) r).2) ∧
        ∀ k, ((l.foldl (fun r vlan => ((r.1.freeKeysIface net env vlan).1,
          r.2 ++ (r.1.freeKeysIface net env vlan).2)) r).1.keys k).home.sdata = iface k := by
    intro l
    induction l with
    | nil => exact fun r hr hiface => ⟨hr, hiface⟩
    | cons v l ih =>
      intro r hr hiface
      obtain ⟨hv, hiface'⟩ := hr.freeKeysIface env v hiface
      rw [foldl_cons]
      refine ih _ (hv.congr ?_) hiface'
      rw [debt_append, add_assoc]
  split
  · obtain ⟨hbooks, hiface⟩ := hall (net.vlans i) r hfirst.1 hfirst.2
    exact hbooks.foldl_keyDestroy hiface
  · exact hfirst.1.foldl_keyDestroy hfirst.2

end TailState

end Mac80211
