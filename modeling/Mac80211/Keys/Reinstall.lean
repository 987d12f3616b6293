import Mac80211.Keys.Link
import Mac80211.Tx.PacketNumbers

/-!
# Re-installation of pairwise keys

`ieee80211_key_link` compares a key with the one it would replace, and with no other: bytes that
were in the slot some time ago, or are in the other slot of Extended Key ID, come back with counters
at zero.

## Main definitions

* `NoReinstall`, `LinkInv`

## Main results

* `material_counters_of_reach` — bytes and packet number are not used twice
-/

namespace Mac80211

open Machine Counter Option Function

/-! ### What happens to keys -/

/-- Bytes stay, and receive counters do not go down. -/
structure KeysKept (s s' : Local) : Prop where
  nextKey : s.nextKey ≤ s'.nextKey
  key : ∀ k < s.nextKey, (s'.keys k).key = (s.keys k).key
  rxPn : ∀ k < s.nextKey, ∀ q, pnVal ((s.keys k).rxPn q) ≤ pnVal ((s'.keys k).rxPn q)

/-- Both together: a change of the configuration that keeps keys. -/
structure Rekeyed (s s' : Local) : Prop where
  configured : Configured s s'
  grow : KeysKept s s'

variable {j : StaId}

section Relations

variable {s s₁ s₂ s' : Local}

theorem KeysKept.of_keys (hnext : s.nextKey ≤ s'.nextKey)
    (hkeys : ∀ k < s.nextKey, (s'.keys k).key = (s.keys k).key ∧ (s'.keys k).rxPn = (s.keys k).rxPn) :
    KeysKept s s' where
  nextKey := hnext
  key k hk := (hkeys k hk).1
  rxPn k hk q := by rw [(hkeys k hk).2]

theorem KeysKept.refl (s : Local) : KeysKept s s := .of_keys le_rfl fun _ _ => ⟨rfl, rfl⟩

theorem KeysKept.trans (h₁ : KeysKept s s₁) (h₂ : KeysKept s₁ s₂) : KeysKept s s₂ where
  nextKey := h₁.nextKey.trans h₂.nextKey
  key k hk := (h₂.key k (hk.trans_le h₁.nextKey)).trans (h₁.key k hk)
  rxPn k hk q := (h₁.rxPn k hk q).trans (h₂.rxPn k (hk.trans_le h₁.nextKey) q)

theorem Configured.refl (s : Local) : Configured s s where
  now := rfl
  log := rfl
  tables := ⟨rfl, rfl⟩
  nextKey := le_rfl
  txPn _ _ := rfl
  fresh _ hk hk' := absurd hk' (not_lt.mpr hk)
  pointers h := h

theorem Configured.trans (h₁ : Configured s s₁) (h₂ : Configured s₁ s₂) : Configured s s₂ where
  now := h₂.now.trans h₁.now
  log := h₂.log.trans h₁.log
  tables := ⟨h₂.tables.1.trans h₁.tables.1, h₂.tables.2.trans h₁.tables.2⟩
  nextKey := h₁.nextKey.trans h₂.nextKey
  txPn k hk := (h₂.txPn k (hk.trans_le h₁.nextKey)).trans (h₁.txPn k hk)
  fresh k hk hk' := by
    rcases lt_or_ge k s₁.nextKey with hlt | hge
    · rw [h₂.txPn k hlt]
      exact h₁.fresh k hk hlt
    · exact h₂.fresh k hge hk'
  pointers h := h₂.pointers (h₁.pointers h)

theorem Rekeyed.refl (s : Local) : Rekeyed s s := ⟨.refl s, .refl s⟩

theorem Rekeyed.trans (h₁ : Rekeyed s s₁) (h₂ : Rekeyed s₁ s₂) : Rekeyed s s₂ :=
  ⟨h₁.configured.trans h₂.configured, h₁.grow.trans h₂.grow⟩

/-! ### Single writes -/

/-- A write to a key that touches neither its bytes nor its counters. -/
theorem rekeyed_updKey {k : KeyId} {f : Key → Key} (hkey : (f (s.keys k)).key = (s.keys k).key)
    (htx : (f (s.keys k)).txPn = (s.keys k).txPn)
    (hrx : ∀ q, pnVal ((s.keys k).rxPn q) ≤ pnVal ((f (s.keys k)).rxPn q)) :
    Rekeyed s (s.updKey k f) := by
  have hcases : ∀ k', (s.updKey k f).keys k' = s.keys k' ∨
      k' = k ∧ (s.updKey k f).keys k' = f (s.keys k) := by
    intro k'
    by_cases hk : k' = k
    · exact .inr ⟨hk, by rw [hk, Local.updKey_keys_self]⟩
    · exact .inl (Local.updKey_keys_of_ne s hk f)
  refine ⟨⟨rfl, rfl, ⟨rfl, rfl⟩, le_rfl, fun k' _ => ?_, fun k' hk hk' => absurd hk' (not_lt.mpr hk),
    fun h => h⟩, le_rfl, fun k' _ => ?_, fun k' _ q => ?_⟩
  · rcases hcases k' with h | ⟨rfl, h⟩
    · rw [h]
    · rw [h, htx]
  · rcases hcases k' with h | ⟨rfl, h⟩
    · rw [h]
    · rw [h, hkey]
  · rcases hcases k' with h | ⟨rfl, h⟩
    · rw [h]
    · rw [h]
      exact hrx q

theorem rekeyed_updSta {f : StaInfo → StaInfo}
    (hptk : ∀ k idx, (f (s.sta j)).ptk idx = some k → s.PointsTo k ∨ k < s.nextKey)
    (hfast : ∀ k g, (f (s.sta j)).fastTx = some g → g.key = some k → s.PointsTo k) :
    Rekeyed s (s.updSta j f) :=
  ⟨configured_updSta hptk hfast, .of_keys le_rfl fun _ _ => ⟨rfl, rfl⟩⟩

variable {idx : ℕ}

theorem rekeyed_setPtk {p : Option KeyId} (hp : ∀ k ∈ p, k < s.nextKey) :
    Rekeyed s (s.setPtk j idx p) := by
  refine rekeyed_updSta ?_ fun k g hg hk => .inr (.inr ⟨j, g, hg, hk⟩)
  intro k idx' hk
  dsimp only at hk
  by_cases hidx : idx' = idx
  · rw [hidx, update_self] at hk
    exact .inr (hp k hk)
  · rw [update_of_ne hidx] at hk
    exact .inl (.inl ⟨j, idx', hk⟩)

theorem rekeyed_allocKey {key : Key} (htx : key.txPn = 0) : Rekeyed s (s.allocKey key) := by
  have hold : ∀ k < s.nextKey, (s.allocKey key).keys k = s.keys k :=
    fun k hk => update_of_ne hk.ne _ _
  refine ⟨⟨rfl, rfl, ⟨rfl, rfl⟩, Nat.le_succ _, fun k hk => by rw [hold k hk], fun k hk hk' => ?_,
    fun hv k hk => Nat.lt_succ_of_lt (hv k hk)⟩,
    .of_keys (Nat.le_succ _) fun k hk => by rw [hold k hk]; exact ⟨rfl, rfl⟩⟩
  obtain rfl : k = s.nextKey := le_antisymm (Nat.lt_succ_iff.mp hk') hk
  exact (congrArg Key.txPn (update_self s.nextKey key s.keys)).trans htx

variable {env : LinkEnv}

theorem rekeyed_setTxKey : Rekeyed s (setTxKey env s j idx) := by
  rw [setTxKey]
  refine .trans (rekeyed_updSta (fun k i hk => .inl (.inl ⟨j, i, hk⟩)) fun k g hg hk =>
    .inr (.inr ⟨j, g, hg, hk⟩)) (rekeyed_updSta (fun k i hk => .inl (.inl ⟨j, i, hk⟩)) ?_)
  intro k g hg hk
  exact pointsTo_of_checkFastXmit hg hk

theorem rekeyed_setTx : Rekeyed s (setTx env s j idx) := by
  rw [setTx]
  split
  · exact .refl s
  · split
    · exact .refl s
    · split
      · exact rekeyed_setTxKey
      · exact .refl s

theorem rekeyed_setUploaded (k : KeyId) (b : Bool) : Rekeyed s (s.setUploaded k b) :=
  rekeyed_updKey (f := fun key => { key with uploadedToHardware := b }) rfl rfl fun _ => le_rfl

theorem rekeyed_taint (k : KeyId) : Rekeyed s (s.updKey k fun key => { key with tainted := true }) :=
  rekeyed_updKey (f := fun key => { key with tainted := true }) rfl rfl fun _ => le_rfl

theorem rekeyed_pairwiseRekey {old : Option KeyId} {noAutoTx : Bool} :
    Rekeyed s (pairwiseRekey s j old noAutoTx) := by
  cases old with
  | none => exact .refl s
  | some k =>
    rw [pairwiseRekey]
    split
    · refine (rekeyed_taint k).trans (rekeyed_updSta (fun k i hk => .inl (.inl ⟨j, i, hk⟩)) fun k g hg _ => ?_)
      cases hg
    · exact .refl s

theorem rekeyed_enableKey {new : KeyId} : Rekeyed s (enableKey env s j new).1 := by
  rw [enableKey]
  split
  · exact .refl s
  · exact rekeyed_setUploaded new _

theorem rekeyed_replaceInHardware {old : Option KeyId} {new : KeyId} :
    Rekeyed s (replaceInHardware env s j old new).1 := by
  cases old with
  | none =>
    rw [replaceInHardware]
    split
    · exact .refl s
    · exact rekeyed_enableKey
  | some k =>
    rw [replaceInHardware]
    split
    · exact (rekeyed_setUploaded k false).trans rekeyed_enableKey
    · exact .refl s

end Relations

/-! ### The slots -/

section Slots

variable {s : Local} {env : LinkEnv} {j : StaId} {idx : ℕ} {old : Option KeyId} {new : KeyId}

theorem ptk_setTxKey : ((setTxKey env s j idx).sta j).ptk = (s.sta j).ptk := by
  rw [setTxKey, Local.updSta_sta_self, Local.updSta_sta_self]

theorem ptk_setTx : ((setTx env s j idx).sta j).ptk = (s.sta j).ptk := by
  rw [setTx]
  split
  · rfl
  · split
    · rfl
    · split
      · exact ptk_setTxKey
      · rfl

theorem ptk_setPtk (p : Option KeyId) :
    ((s.setPtk j idx p).sta j).ptk = Function.update (s.sta j).ptk idx p := by
  rw [Local.setPtk, Local.updSta_sta_self]

theorem ptk_pairwiseRekey (noAutoTx : Bool) :
    ((pairwiseRekey s j old noAutoTx).sta j).ptk = (s.sta j).ptk := by
  cases old with
  | none => rfl
  | some k =>
    rw [pairwiseRekey]
    split
    · rw [Local.updSta_sta_self]
      rfl
    · rfl

theorem sta_enableKey : (enableKey env s j new).1.sta = s.sta := by
  rw [enableKey]
  split <;> rfl

theorem sta_replaceInHardware : (replaceInHardware env s j old new).1.sta = s.sta := by
  cases old with
  | none =>
    rw [replaceInHardware]
    split
    · rfl
    · exact sta_enableKey
  | some k =>
    rw [replaceInHardware]
    split
    · exact sta_enableKey
    · rfl

theorem nextKey_replaceInHardware : (replaceInHardware env s j old new).1.nextKey = s.nextKey := by
  have henable : ∀ s : Local, (enableKey env s j new).1.nextKey = s.nextKey := by
    intro s
    rw [enableKey]
    split <;> rfl
  cases old with
  | none =>
    rw [replaceInHardware]
    split
    · rfl
    · exact henable s
  | some k =>
    rw [replaceInHardware]
    split
    · exact henable _
    · rfl

theorem nextKey_pairwiseRekey (noAutoTx : Bool) :
    (pairwiseRekey s j old noAutoTx).nextKey = s.nextKey := by
  cases old with
  | none => rfl
  | some k =>
    rw [pairwiseRekey]
    split <;> rfl

/-- What `ieee80211_key_replace` does: the new key is in its slot, or the slots are as before. -/
theorem keyReplace_spec (hnew : new < s.nextKey) : Rekeyed s (keyReplace env s j idx old new).1 ∧
      (keyReplace env s j idx old new).1.nextKey = s.nextKey ∧
      ((keyReplace env s j idx old new).1.sta j).ptk =
        if (keyReplace env s j idx old new).2 then Function.update (s.sta j).ptk idx (some new)
        else (s.sta j).ptk := by
  rw [keyReplace]
  generalize (s.keys new).noAutoTx = noAutoTx
  have h₁ : Rekeyed s (pairwiseRekey s j old noAutoTx) := rekeyed_pairwiseRekey
  have hptk₁ : ((pairwiseRekey s j old noAutoTx).sta j).ptk = (s.sta j).ptk := ptk_pairwiseRekey noAutoTx
  have hnext₁ : (pairwiseRekey s j old noAutoTx).nextKey = s.nextKey := nextKey_pairwiseRekey noAutoTx
  generalize pairwiseRekey s j old noAutoTx = s₁ at *
  have h₂ : Rekeyed s₁ (replaceInHardware env s₁ j old new).1 := rekeyed_replaceInHardware
  have hsta₂ : (replaceInHardware env s₁ j old new).1.sta = s₁.sta := sta_replaceInHardware
  have hnext₂ : (replaceInHardware env s₁ j old new).1.nextKey = s₁.nextKey := nextKey_replaceInHardware
  generalize replaceInHardware env s₁ j old new = r at *
  obtain ⟨s₂, ok⟩ := r
  dsimp only at h₂ hsta₂ hnext₂ ⊢
  have hptk₂ : (s₂.sta j).ptk = (s.sta j).ptk := by rw [hsta₂, hptk₁]
  have h₃ : Rekeyed s₂ (s₂.setPtk j idx (some new)) := by
    refine rekeyed_setPtk fun k hk => ?_
    rw [← some.inj hk, hnext₂, hnext₁]
    exact hnew
  cases ok with
  | false => exact ⟨h₁.trans h₂, hnext₂.trans hnext₁, hptk₂⟩
  | true =>
    cases noAutoTx with
    | true =>
      refine ⟨(h₁.trans h₂).trans h₃, hnext₂.trans hnext₁, ?_⟩
      rw [← hptk₂]
      exact ptk_setPtk _
    | false =>
      refine ⟨((h₁.trans h₂).trans h₃).trans rekeyed_setTxKey, hnext₂.trans hnext₁, ?_⟩
      rw [← hptk₂]
      exact ptk_setTxKey.trans (ptk_setPtk _)

/-- **What `ieee80211_key_link` does**: nothing; or it installs a new key; or it empties the slot. -/
inductive Linked (s : Local) (j : StaId) (idx : ℕ) (key : Key) : Local × Option KeyId → Prop
  | nothing : Linked s j idx key (s, none)
  | installed {s' : Local} (hrek : Rekeyed s s') (hnext : s'.nextKey = s.nextKey + 1)
      (hnot : keyIdentical s ((s.sta j).ptk idx) key = false)
      (hkey : (s'.keys s.nextKey).key = key.key)
      (hptk : (s'.sta j).ptk = Function.update (s.sta j).ptk idx (some s.nextKey)) :
      Linked s j idx key (s', some s.nextKey)
  | emptied {s' : Local} (hrek : Rekeyed s s')
      (hptk : (s'.sta j).ptk = Function.update (s.sta j).ptk idx none) :
      Linked s j idx key (s', none)

theorem linked_keyLink (env : LinkEnv) (s : Local) (j : StaId) (idx : ℕ) (key : Key)
    (seq : Option Pn) : Linked s j idx key (keyLink env s j idx key seq) := by
  rw [keyLink]
  split
  · exact .nothing
  split
  · exact .nothing
  rename_i hnot
  have halloc : Rekeyed s (s.allocKey (newKey key idx seq)) := rekeyed_allocKey rfl
  have hrep := @keyReplace_spec (s.allocKey (newKey key idx seq)) env j idx ((s.sta j).ptk idx) s.nextKey
    (Nat.lt_succ_self _)
  dsimp only
  generalize keyReplace env (s.allocKey (newKey key idx seq)) j idx ((s.sta j).ptk idx) s.nextKey = r at hrep ⊢
  obtain ⟨s', ok⟩ := r
  obtain ⟨hrek, hnext, hptk⟩ := hrep
  dsimp only at hrek hnext hptk ⊢
  cases ok with
  | true =>
    refine .installed (halloc.trans hrek) hnext (by simpa using hnot) ?_ hptk
    have hself : (s.allocKey (newKey key idx seq)).keys s.nextKey = newKey key idx seq :=
      update_self ..
    rw [hrek.grow.key s.nextKey (Nat.lt_succ_self _), hself]
    rfl
  | false =>
    refine .emptied ((halloc.trans hrek).trans (rekeyed_setPtk fun k hk => ?_)) ?_
    · cases hk
    · rw [ptk_setPtk]
      exact congrArg (Function.update · idx none) hptk

end Slots

/-! ### Receiving -/

/-- Only counters of the receive side differ. -/
def ReceivedWith (key key' : Key) : Prop :=
  ∃ rxPn replays icverrors,
    key' = { key with rxPn := rxPn, replays := replays, icverrors := icverrors }

section Receive

variable {key : Key} {rx : RxData} {env : RxAlloc}

theorem ReceivedWith.refl (key : Key) : ReceivedWith key key := ⟨_, _, _, rfl⟩

theorem receivedWith_setRxPn (key : Key) (queue : ℕ) (pn : Pn) :
    ReceivedWith key (key.setRxPn queue pn) := ⟨_, _, _, rfl⟩

theorem receivedWith_aeadVerify (op : AeadOpen) (micLen queue : ℕ) (skb : RxSkb) :
    ReceivedWith key (aeadVerify op micLen env key queue skb).2 := by
  have hfinish : ∀ plain key', (aeadFinish env micLen skb plain key').2 = key' := by
    intro plain key'
    rw [aeadFinish]
    split <;> rfl
  simp only [aeadVerify]
  split
  · rw [hfinish]
    exact .refl key
  split
  · exact ⟨_, _, _, rfl⟩
  split
  · rw [hfinish]
    exact receivedWith_setRxPn ..
  split
  · exact .refl key
  · rw [hfinish]
    exact receivedWith_setRxPn ..

theorem receivedWith_aeadDecrypt (op : AeadOpen) (micLen : ℕ) :
    ReceivedWith key (aeadDecrypt op micLen env key rx).2 := by
  simp only [aeadDecrypt]
  split
  · exact .refl key
  split
  · exact .refl key
  split
  · exact .refl key
  generalize (if (rx.skb.status.decrypted && rx.skb.status.micStripped) = true then 0
    else micLen) = micLen'
  split
  · exact .refl key
  · exact receivedWith_aeadVerify ..

theorem receivedWith_bipDecrypt (mmieLen : ℕ) (needsMem : Bool)
    (mac : Key → Hdr → Pn → Option (List UInt8)) :
    ReceivedWith key (bipDecrypt mmieLen needsMem mac env key rx).2 := by
  simp only [bipDecrypt]
  split
  · exact .refl key
  split
  · exact .refl key
  split
  · exact .refl key
  split
  · exact ⟨_, _, _, rfl⟩
  split
  · exact receivedWith_setRxPn ..
  split
  · exact .refl key
  split
  · exact ⟨_, _, _, rfl⟩
  · exact receivedWith_setRxPn ..

theorem receivedWith_cryptoDecrypt (C : Crypto) (env : RxAlloc) (key : Key) (rx : RxData) :
    ReceivedWith key (cryptoDecrypt C env key rx).2 := by
  rw [cryptoDecrypt]
  split
  iterate 4 exact receivedWith_aeadDecrypt ..
  iterate 4 exact receivedWith_bipDecrypt ..
  all_goals exact .refl key

/-- A packet number that passes the check is not below the one stored. -/
theorem le_of_isReplay_eq_false {pn stored : Pn} {allowSame : Bool}
    (h : isReplay pn stored allowSame = false) : pnVal stored ≤ pnVal pn := by
  rw [isReplay, memcmp_pn] at h
  rcases hcmp : compare (pnVal pn) (pnVal stored) with _ | _ | _
  · rw [hcmp] at h
    cases h
  · exact (compare_eq_iff_eq.mp hcmp).ge
  · exact (compare_gt_iff_gt.mp hcmp).le

theorem rxPn_cryptoDecrypt (C : Crypto) (env : RxAlloc) (key : Key) (rx : RxData) (q : ℕ) :
    pnVal (key.rxPn q) ≤ pnVal ((cryptoDecrypt C env key rx).2.rxPn q) := by
  have hspec := cryptoDecrypt_spec C env key rx
  generalize cryptoDecrypt C env key rx = out at hspec ⊢
  cases hspec with
  | skipped hc hcipher hpn => rw [hpn]
  | rejected hc he hcipher hpn => rw [hpn]
  | stored hc hnew hr =>
    rw [Key.setRxPn_rxPn]
    split
    · rename_i hq
      rw [hq]
      exact le_of_isReplay_eq_false hnew
    · exact le_rfl

theorem rekeyed_rxHDecrypt (C : Crypto) (env : RxAlloc) (s : Local) (i : SdataId) (rx : RxData) :
    Rekeyed s (rxHDecrypt C env s i rx).2 ∧ (rxHDecrypt C env s i rx).2.sta = s.sta := by
  rw [rxHDecrypt]
  split
  · exact ⟨.refl s, rfl⟩
  · exact ⟨.refl s, rfl⟩
  · exact ⟨.refl s, rfl⟩
  · rename_i k _
    split
    · exact ⟨.refl s, rfl⟩
    · obtain ⟨rxPn, replays, icverrors, hout⟩ := receivedWith_cryptoDecrypt C env (s.keys k) rx
      have hrek : Rekeyed s (s.updKey k fun _ => (cryptoDecrypt C env (s.keys k) rx).2) :=
        rekeyed_updKey (by rw [hout]) (by rw [hout]) (rxPn_cryptoDecrypt C env (s.keys k) rx)
      dsimp only
      split <;> exact ⟨hrek, rfl⟩

end Receive

/-! ### Other events -/

section Events

variable {sha1 : List UInt8 → Vector UInt8 20} {C : Crypto} {s s' : Local}

theorem keysKept_keyOp {op : KeyOp} (h : op.apply s = some s') : KeysKept s s' := by
  rw [KeyOp.apply] at h
  split at h
  · cases h
    cases op with
    | alloc key =>
      refine .of_keys (Nat.le_succ _) fun k hk => ?_
      have hold : ((KeyOp.alloc key).write s).keys k = s.keys k := update_of_ne hk.ne _ _
      rw [hold]
      exact ⟨rfl, rfl⟩
    | taint k => exact (rekeyed_taint k).grow
    | _ => exact .of_keys le_rfl fun _ _ => ⟨rfl, rfl⟩
  · cases h

theorem keysKept_of_sameConfig (h : SameConfig s s') : KeysKept s s' := by
  refine .of_keys h.nextKey.ge fun k _ => ⟨?_, ?_⟩
  · exact (congrArg Key.key (h.keys k) :)
  · exact (congrArg Key.rxPn (h.keys k) :)

theorem ptk_keyOp {op : KeyOp} (hsp : (Event.key op).spares j = true)
    (h : op.apply s = some s') : (s'.sta j).ptk = (s.sta j).ptk := by
  rw [KeyOp.apply] at h
  split at h
  · cases h
    cases op with
    | setPtk j' idx p | setPtkIdx j' idx =>
      have hne : j' ≠ j := by simpa [Event.spares] using hsp
      rw [KeyOp.write, Local.updSta_sta_of_ne s hne.symm]
    | setGtk j' idx p =>
      by_cases hj : j = j'
      · rw [hj, KeyOp.write, Local.updSta_sta_self]
      · rw [KeyOp.write, Local.updSta_sta_of_ne s hj]
    | _ => rfl
  · cases h

theorem grow_and_ptk_handle {e : Event} (hsp : e.spares j = true)
    (h : s.handle sha1 C e = some s') :
    KeysKept s s' ∧ ∀ idx k, (s'.sta j).ptk idx = some k → (s.sta j).ptk idx = some k := by
  have hsame : ∀ {s' : Local}, (s'.sta j).ptk = (s.sta j).ptk →
      ∀ idx k, (s'.sta j).ptk idx = some k → (s.sta j).ptk idx = some k := by
    intro s' heq idx k hk
    rwa [← heq]
  have hupd : ∀ (j' : StaId) (f : StaInfo → StaInfo), (∀ t, (f t).ptk = t.ptk) →
      ((s.updSta j' f).sta j).ptk = (s.sta j).ptk := by
    intro j' f hf
    by_cases hj : j = j'
    · rw [hj, Local.updSta_sta_self, hf]
    · rw [Local.updSta_sta_of_ne s hj]
  cases he : e.changesConfig with
  | false =>
    obtain ⟨s₁, hw, hh⟩ := does_handle he h
    have hc : SameConfig s s' := hw.sameConfig.trans (Hands.sameConfig hh)
    exact ⟨keysKept_of_sameConfig hc, hsame (congrArg StaInfo.ptk (hc.sta j) :)⟩
  | true =>
    cases e with
    | key op => exact ⟨keysKept_keyOp h, hsame (ptk_keyOp hsp h)⟩
    | checkFastXmit ok j' | moveState j' state =>
      cases h
      exact ⟨.of_keys le_rfl fun _ _ => ⟨rfl, rfl⟩, hsame (hupd j' _ fun _ => rfl)⟩
    | setBssid i bssid | numStaPs i n | stopReasons q reasons | removeSta j' =>
      cases h
      exact ⟨.of_keys le_rfl fun _ _ => ⟨rfl, rfl⟩, hsame rfl⟩
    | addInterface i d =>
      rw [Local.handle] at h
      split at h
      · cases h
      · cases h
        exact ⟨.of_keys le_rfl fun _ _ => ⟨rfl, rfl⟩, hsame rfl⟩
    | addSta j' t =>
      rw [Local.handle] at h
      split at h
      · cases h
      · cases h
        refine ⟨.of_keys le_rfl fun _ _ => ⟨rfl, rfl⟩, fun idx k hk => ?_⟩
        dsimp only at hk
        by_cases hj : j = j'
        · rw [hj, update_self] at hk
          cases hk
        · rwa [update_of_ne hj] at hk
    | _ => cases he

end Events

/-! ### Runs -/

/-- Bytes that were installed for the station before go into the slot that has them, and nowhere
else. -/
def NoReinstall (j : StaId) (s : KeyState) (_ : List Logged) : KeyEvent → Prop
  | .link _ idx key _ => (∃ k ∈ s.linked, (s.loc.keys k).key = key.key) →
      keyIdentical s.loc ((s.loc.sta j).ptk idx) key = true
  | _ => True

instance (j : StaId) (s : KeyState) (os : List Logged) : ∀ e, Decidable (NoReinstall j s os e)
  | .link _ idx key _ => inferInstanceAs (Decidable ((∃ k ∈ s.linked, (s.loc.keys k).key = key.key) →
      keyIdentical s.loc ((s.loc.sta j).ptk idx) key = true))
  | .setTx .. | .rx .. | .dev _ => .isTrue trivial

/-- Keys and their bytes are the same thing. -/
structure LinkInv (j : StaId) (s : KeyState) (os : List Logged) : Prop where
  pn : PnInv s.loc os
  linked_lt : ∀ k ∈ s.linked, k < s.loc.nextKey
  slots : ∀ idx k, (s.loc.sta j).ptk idx = some k → k ∈ s.linked
  distinct : ∀ k ∈ s.linked, ∀ k' ∈ s.linked, (s.loc.keys k).key = (s.loc.keys k').key → k = k'

section Run

variable {sha1 : List UInt8 → Vector UInt8 20} {C : Crypto} {j : StaId} {s s' : KeyState}
  {os o : List Logged} {e : KeyEvent}

theorem LinkInv.of_grow (h : LinkInv j s os) (hpn : PnInv s'.loc (os ++ o)) (hlinked : s'.linked = s.linked)
    (hgrow : KeysKept s.loc s'.loc)
    (hptk : ∀ idx k, (s'.loc.sta j).ptk idx = some k → (s.loc.sta j).ptk idx = some k) :
    LinkInv j s' (os ++ o) where
  pn := hpn
  linked_lt k hk := (h.linked_lt k (hlinked ▸ hk)).trans_le hgrow.nextKey
  slots idx k hk := hlinked ▸ h.slots idx k (hptk idx k hk)
  distinct k hk k' hk' heq := by
    rw [hlinked] at hk hk'
    rw [hgrow.key k (h.linked_lt k hk), hgrow.key k' (h.linked_lt k' hk')] at heq
    exact h.distinct k hk k' hk' heq

theorem pnInv_deviceStep {e : Event} {loc loc' : Local} (h : PnInv loc os)
    (hs : deviceStep sha1 C loc e = some (loc', o)) : PnInv loc' (os ++ o) := by
  have hreach : Reach (deviceStep sha1 C) (fun _ _ _ => True) loc loc' ([] ++ o) :=
    .step .init trivial hs
  refine reach_invariant (fun s os' => PnInv s (os ++ os')) (by simpa using h)
    (fun _ _ h => ⟨h.pointers, h.unused, h.txPn, h.taken⟩) ?_ ?_ (fun _ _ _ hc h => h.configured hc) hreach
  · intro s s' os' hw h
    rw [← List.append_assoc] at h ⊢
    exact h.write hw
  · intro path s s' os' hh h
    rw [← List.append_assoc] at h ⊢
    exact h.hand hh

theorem LinkInv.step (h : LinkInv j s os) (hC : NoReinstall j s os e)
    (hs : keyStep sha1 C j s e = some (s', o)) : LinkInv j s' (os ++ o) ∧ KeysKept s.loc s'.loc := by
  cases e with
  | link env idx key seq =>
    simp only [keyStep] at hs
    split at hs
    · have hl := linked_keyLink env s.loc j idx key seq
      generalize keyLink env s.loc j idx key seq = r at hs hl
      cases hl with
      | nothing => 
        cases hs
        exact ⟨h.of_grow (by simpa using h.pn) rfl (.refl _) fun _ _ hk => hk, .refl _⟩
      | installed hrek hnext hnot hkey hptk =>
        cases hs
        -- the new bytes are those of no key that was installed before
        have hnew : ∀ k ∈ s.linked, (s.loc.keys k).key ≠ key.key := by
          intro k hk heq
          rw [hC ⟨k, hk, heq⟩] at hnot
          cases hnot
        have hold := fun k hk => hrek.grow.key k (h.linked_lt k hk)
        refine ⟨⟨by simpa using h.pn.configured hrek.configured, ?_, ?_, ?_⟩, hrek.grow⟩
        · intro k hk
          rcases List.mem_cons.mp hk with rfl | hk
          · exact hnext ▸ Nat.lt_succ_self _
          · exact (h.linked_lt k hk).trans_le hrek.grow.nextKey
        · intro idx' k hk
          rw [hptk] at hk
          by_cases hidx : idx' = idx
          · rw [hidx, update_self] at hk
            exact List.mem_cons.mpr (.inl (some.inj hk).symm)
          · rw [update_of_ne hidx] at hk
            exact List.mem_cons_of_mem _ (h.slots idx' k hk)
        · intro k hk k' hk' heq
          rcases List.mem_cons.mp hk with rfl | hk <;> rcases List.mem_cons.mp hk' with rfl | hk'
          · rfl
          · rw [hkey, hold k' hk'] at heq
            exact absurd heq.symm (hnew k' hk')
          · rw [hkey, hold k hk] at heq
            exact absurd heq (hnew k hk)
          · rw [hold k hk, hold k' hk'] at heq
            exact h.distinct k hk k' hk' heq
      | emptied hrek hptk =>
        cases hs
        refine ⟨h.of_grow (by simpa using h.pn.configured hrek.configured) rfl hrek.grow ?_, hrek.grow⟩
        intro idx' k hk
        rw [hptk] at hk
        by_cases hidx : idx' = idx
        · rw [hidx, update_self] at hk
          cases hk
        · rwa [update_of_ne hidx] at hk
    · cases hs
  | setTx env idx =>
    simp only [keyStep] at hs
    split at hs
    · cases hs
      have hrek : Rekeyed s.loc (setTx env s.loc j idx) := rekeyed_setTx
      refine ⟨h.of_grow (by simpa using h.pn.configured hrek.configured) rfl hrek.grow ?_, hrek.grow⟩
      intro idx' k hk
      rwa [← @ptk_setTx s.loc env j idx]
    · cases hs
  | rx env i rx =>
    cases hs
    obtain ⟨hrek, hsta⟩ := rekeyed_rxHDecrypt C env s.loc i rx
    refine ⟨h.of_grow (by simpa using h.pn.configured hrek.configured) rfl hrek.grow ?_, hrek.grow⟩
    intro idx' k hk
    rwa [← hsta]
  | dev e =>
    simp only [keyStep] at hs
    split at hs
    · rename_i hsp
      obtain ⟨⟨loc, o'⟩, hdev, heq⟩ := map_eq_some_iff.mp hs
      cases heq
      have hpn := pnInv_deviceStep h.pn hdev
      obtain ⟨loc', hloc, heq'⟩ := map_eq_some_iff.mp hdev
      obtain ⟨rfl, rfl⟩ := Prod.mk.inj heq'
      obtain ⟨hgrow, hptk⟩ := grow_and_ptk_handle hsp hloc
      have hgrow' : KeysKept s.loc loc' := ⟨hgrow.nextKey, hgrow.key, hgrow.rxPn⟩
      exact ⟨h.of_grow hpn rfl hgrow' hptk, hgrow'⟩
    · cases hs

/-- The device before anything has happened. -/
def bootKeys (hw : Local) : KeyState where
  loc := bootLocal hw

theorem linkInv_boot (hw : Local) : LinkInv j (bootKeys hw) [] where
  pn := @pnInv_of_reach toyHash toyCrypto hw _ _ (fun _ _ _ => True) .init
  linked_lt k hk := by cases hk
  slots idx k hk := by cases hk
  distinct k hk := by cases hk

theorem linkInv_of_reach {hw : Local} (h : Reach (keyStep sha1 C j) (NoReinstall j) (bootKeys hw) s os) :
    LinkInv j s os := by
  refine h.invariant (LinkInv j) (linkInv_boot hw) ?_
  intro s₁ o₁ e s₂ o₂ hinv hC hs
  exact (hinv.step hC hs).1

theorem keysKept_of_reach (hinv : LinkInv j s os)
    (h : Reach (keyStep sha1 C j) (NoReinstall j) s s' o) : KeysKept s.loc s'.loc := by
  have hboth : LinkInv j s' (os ++ o) ∧ KeysKept s.loc s'.loc := by
    refine h.invariant (fun s' o => LinkInv j s' (os ++ o) ∧ KeysKept s.loc s'.loc)
      ⟨by simpa using hinv, .refl _⟩ ?_
    intro s₁ o₁ e s₂ o₂ ⟨hinv₁, hgrow₁⟩ hC hs
    obtain ⟨hinv₂, hgrow₂⟩ := hinv₁.step hC hs
    rw [← List.append_assoc]
    exact ⟨hinv₂, hgrow₁.trans hgrow₂⟩
  exact hboth.2

theorem linked_subset_keyStep (hs : keyStep sha1 C j s e = some (s', o)) : s.linked ⊆ s'.linked := by
  cases e with
  | link env idx key seq =>
    simp only [keyStep] at hs
    split at hs
    · cases hs
      exact List.subset_append_right _ _
    · cases hs
  | setTx env idx =>
    simp only [keyStep] at hs
    split at hs
    · cases hs
      exact List.Subset.refl _
    · cases hs
  | rx env i rx =>
    cases hs
    exact List.Subset.refl _
  | dev e =>
    simp only [keyStep] at hs
    split at hs
    · obtain ⟨⟨loc, o'⟩, hdev, heq⟩ := map_eq_some_iff.mp hs
      cases heq
      exact List.Subset.refl _
    · cases hs

theorem linked_subset_of_reach (h : Reach (keyStep sha1 C j) (NoReinstall j) s s' o) :
    s.linked ⊆ s'.linked := by
  refine h.invariant (fun s' _ => s.linked ⊆ s'.linked) (List.Subset.refl _) ?_
  intro s₁ o₁ e s₂ o₂ hsub _ hs
  exact List.Subset.trans hsub (linked_subset_keyStep hs)

theorem materialPns_eq (hinv : LinkInv j s os) {k : KeyId} (hk : k ∈ s.linked) :
    materialPns s (s.loc.keys k).key os = pns k os := by
  rw [materialPns, pns]
  refine List.filterMap_congr fun l _ => ?_
  cases l with
  | draw k' pn t =>
    have hiff : (k' ∈ s.linked ∧ (s.loc.keys k').key = (s.loc.keys k).key) ↔ k' = k :=
      ⟨fun h => hinv.distinct k' h.1 k hk h.2, by rintro rfl; exact ⟨hk, rfl⟩⟩
    simp only [hiff]
  | reset k' t => rfl
  | handed path vif sta skb => rfl

theorem pairwise_materialPns (hinv : LinkInv j s os) (hback : ∀ k ∈ s.linked, NoResetBack k 0 0 os)
    (material : List UInt8) : (materialPns s material os).Pairwise (· < ·) := by
  by_cases hex : ∃ k ∈ s.linked, (s.loc.keys k).key = material
  · obtain ⟨k, hk, rfl⟩ := hex
    have hforward : Forward (2 ^ 48) 0 (pnOps k os) := by
      have hf := forward_of_noResetBack (hback k hk)
      rwa [Nat.zero_mul] at hf
    rw [materialPns_eq hinv hk, hinv.pn.taken k hforward]
    exact pairwise_draws hforward
  · have hnil : materialPns s material os = [] := by
      rw [materialPns, List.filterMap_eq_nil_iff]
      rintro (⟨k, pn, t⟩ | _ | _) _
      · exact if_neg fun h => hex ⟨k, h⟩
      · rfl
      · rfl
    rw [hnil]
    exact .nil

/-- **Installing keys again reuses no packet number**, if known bytes only go into the slot that has
them, and no rotation sets a counter back: numbers under the same bytes increase, and receive
counters never go down. -/
theorem material_counters_of_reach {hw : Local}
    (h₀ : Reach (keyStep sha1 C j) (NoReinstall j) (bootKeys hw) s os)
    (h : Reach (keyStep sha1 C j) (NoReinstall j) s s' o)
    (hback : ∀ k ∈ s'.linked, NoResetBack k 0 0 (os ++ o)) :
    (∀ material, (materialPns s' material (os ++ o)).Pairwise (· < ·)) ∧
      ∀ k ∈ s.linked, ∀ k' ∈ s'.linked, (s'.loc.keys k').key = (s.loc.keys k).key →
        ∀ q, pnVal ((s.loc.keys k).rxPn q) ≤ pnVal ((s'.loc.keys k').rxPn q) := by
  have hinv := linkInv_of_reach h₀
  have hinv' := linkInv_of_reach (h₀.trans (fun _ _ _ _ hC => hC) h)
  have hgrow := keysKept_of_reach hinv h
  refine ⟨pairwise_materialPns hinv' hback, fun k hk k' hk' heq q => ?_⟩
  have hlt := hinv.linked_lt k hk
  have hmem := linked_subset_of_reach h hk
  obtain rfl : k' = k := hinv'.distinct k' hk' k hmem (heq.trans (hgrow.key k hlt).symm)
  exact hgrow.rxPn k' hlt q

end Run

/-! ### Two runs -/

/-- A key with these bytes goes into slot 0, and is used in software. -/
def linkBytes (b : UInt8) : KeyEvent :=
  .link { drvSetKey := .one } 0 { cipher := .ccmp, key := List.replicate 16 b } none

/-- A frame is sent to the station. -/
def sendFrame : KeyEvent :=
  .dev (.xmit {} 0 (some 0) (dataTo (toyMac 3) (toyMac 1) (toyMac 1)) false)

/-- An AP with one station that has a key. -/
def apWithKey : List KeyEvent :=
  ((setupAp 0 (toyMac 1)).map .dev) ++ [.dev (.addSta 0 { addr := toyMac 3, sdata := 0 }), linkBytes 7,
    .dev (.moveState 0 .authorized)]

/-- The key is installed again, and then another one. -/
def rekeyEvents : List KeyEvent := [sendFrame, linkBytes 7, sendFrame, linkBytes 9, sendFrame]

/-- Three frames under two keys. -/
theorem material_counters_of_rekey :
    ∃ s os s' o, Reach (keyStep toyHash toyCrypto 0) (NoReinstall 0) (bootKeys {}) s os ∧
      Reach (keyStep toyHash toyCrypto 0) (NoReinstall 0) s s' o ∧
      materialPns s' (List.replicate 16 7) (os ++ o) = [1, 2] ∧
      (∀ material, (materialPns s' material (os ++ o)).Pairwise (· < ·)) ∧
      ∀ k ∈ s.linked, ∀ k' ∈ s'.linked, (s'.loc.keys k').key = (s.loc.keys k).key →
        ∀ q, pnVal ((s.loc.keys k).rxPn q) ≤ pnVal ((s'.loc.keys k').rxPn q) := by
  have hrun : ((run (keyStep toyHash toyCrypto 0) (bootKeys {}) apWithKey).bind fun r =>
      (run (keyStep toyHash toyCrypto 0) r.1 rekeyEvents).map fun r' =>
        (decide (Meets (keyStep toyHash toyCrypto 0) (NoReinstall 0) r.1 [] rekeyEvents),
          decide (∀ k ∈ r'.1.linked, NoResetBack k 0 0 (r.2 ++ r'.2)),
          materialPns r'.1 (List.replicate 16 7) (r.2 ++ r'.2))) = some (true, true, [1, 2]) := by
    decide +kernel
  obtain ⟨⟨s, os⟩, hr, hbind⟩ := bind_eq_some_iff.mp hrun
  obtain ⟨⟨s', o⟩, hr', heq⟩ := map_eq_some_iff.mp hbind
  obtain ⟨hmeets', heq⟩ := Prod.mk.inj heq
  obtain ⟨hback, hpns⟩ := Prod.mk.inj heq
  have hmeets : Meets (keyStep toyHash toyCrypto 0) (NoReinstall 0) (bootKeys {}) [] apWithKey := by
    decide +kernel
  have h₀ : Reach (keyStep toyHash toyCrypto 0) (NoReinstall 0) (bootKeys {}) s ([] ++ os) :=
    .of_run .init hmeets hr
  have h : Reach (keyStep toyHash toyCrypto 0) (NoReinstall 0) s s' ([] ++ o) :=
    .of_run .init (of_decide_eq_true hmeets') hr'
  exact ⟨s, os, s', o, h₀, h, hpns, material_counters_of_reach h₀ h (of_decide_eq_true hback)⟩

/-- The first key comes back after another one was in its slot, and starts from zero. -/
theorem reinstalled_key_repeats_pn :
    ∃ s os, Reach (keyStep toyHash toyCrypto 0) (fun _ _ _ => True) (bootKeys {}) s os ∧
      (∀ k ∈ s.linked, NoResetBack k 0 0 os) ∧
      ¬ (materialPns s (List.replicate 16 7) os).Pairwise (· < ·) := by
  have hrun : (run (keyStep toyHash toyCrypto 0) (bootKeys {})
      (apWithKey ++ [sendFrame, linkBytes 9, linkBytes 7, sendFrame])).map
      (fun r => (decide (∀ k ∈ r.1.linked, NoResetBack k 0 0 r.2),
        materialPns r.1 (List.replicate 16 7) r.2)) = some (true, [1, 1]) := by
    decide +kernel
  obtain ⟨⟨s, os⟩, hr, hos⟩ := map_eq_some_iff.mp hrun
  obtain ⟨hback, hpns⟩ := Prod.mk.inj hos
  refine ⟨s, os, Reach.of_run_init hr, of_decide_eq_true hback, ?_⟩
  rw [show materialPns s (List.replicate 16 7) os = [1, 1] from hpns]
  decide

end Mac80211
