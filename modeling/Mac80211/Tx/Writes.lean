import Mac80211.Tx.Paths

/-!
# What the paths write

Every function of the transmit and receive paths is a sequence of a few kinds of writes, and only
after them frames are handed to the driver or parked. An invariant of the device is then shown for
one write at a time. A packet number is only taken from, or reset in, a key that some pointer of the
state points to.

## Main definitions

* `Write`, `Hand`, `Does`
-/

namespace Mac80211

open Relation Option

/-- An interface without its counters and its buffer. -/
def SubIfData.config (d : SubIfData) : SubIfData :=
  { d with startTimePeriod := 0, sequenceNumber := 0, bcBuf := [] }

/-- A station without its counters. -/
def StaInfo.config (t : StaInfo) : StaInfo := { t with startTimePeriod := 0, tidSeq := fun _ => 0 }

/-- Some pointer that the transmit path follows points to the key. -/
def Local.PointsTo (s : Local) (k : KeyId) : Prop :=
  (∃ j idx, (s.sta j).ptk idx = some k) ∨
  (∃ i, (s.sdata i).defaultUnicastKey = some k ∨ (s.sdata i).defaultMulticastKey = some k ∨
    (s.sdata i).defaultMgmtKey = some k) ∨
  ∃ j f, (s.sta j).fastTx = some f ∧ f.key = some k

/-- One write of the transmit and receive paths. -/
inductive Write (sha1 : List UInt8 → Vector UInt8 20) : Local → Local → Prop
  | advance (s : Local) (n : ℕ) : Write sha1 s (s.advance n)
  | draw (s : Local) (k : KeyId) (hk : s.PointsTo k) : Write sha1 s (s.incTxPn k).1
  | reset (s : Local) (k : KeyId) (hk : s.PointsTo k) :
      Write sha1 s (s.setTxPn k (generatePn s.now))
  | sdata (s : Local) (i : SdataId) (f : SubIfData → SubIfData)
      (hf : ∀ d, (f d).config = d.config) : Write sha1 s (s.updSdata i f)
  | sta (s : Local) (j : StaId) (f : StaInfo → StaInfo)
      (hf : ∀ t, (f t).config = t.config) : Write sha1 s (s.updSta j f)
  | contact (s : Local) (ok : Bool) (j : StaId)
      (hj : lookup s.translationTable (s.sta j).addr = none) :
      Write sha1 s { s with
        translationTable := insertEntry ok s.translationTable (s.sta j).addr (s.sta j).addr }
  | rotate (s : Local) (ok : Bool) (j : StaId) (data : List UInt8) :
      Write sha1 s { s with
        translationTable :=
          updateEntryByBase ok s.translationTable (s.sta j).addr (macOfHash (sha1 data)) }
  | sContact (s : Local) (ok : Bool) (j : StaId)
      (hj : lookup s.sTranslationTable (s.sdataOf j).addr = none) :
      Write sha1 s { s with
        sTranslationTable :=
          insertEntry ok s.sTranslationTable (s.sdataOf j).addr (s.sdataOf j).addr }
  | sRotate (s : Local) (j : StaId) (data : List UInt8) :
      Write sha1 s { s with
        sTranslationTable :=
          sUpdateEntryByBase s.sTranslationTable (s.sdataOf j).addr (macOfHash (sha1 data)) }
  | pending (s : Local) (p : ℕ → List TxSkb) : Write sha1 s { s with pending := p }
  | txq (s : Local) (q : Txq → List TxSkb) : Write sha1 s { s with txq := q }
  | txqFrags (s : Local) (q : Txq → List TxSkb) : Write sha1 s { s with txqFrags := q }

/-- A frame leaves for the driver, or the rest is parked. -/
inductive Hand : Egress → Local → Local → Prop
  | drvTx (s : Local) (vif : SdataId) (sta : Option StaId) (skb : TxSkb) :
      Hand .txFrags s (drvTx s vif sta skb)
  | handOver (s : Local) (path : Egress) (vif : SdataId) (sta : Option StaId) (skb : TxSkb)
      (hpath : path ≠ .txFrags) : Hand path s (s.logged (.handed path vif sta skb))
  | park (s : Local) (p : ℕ → List TxSkb) : Hand .txFrags s { s with pending := p }

/-- Any number of writes. -/
abbrev Writes (sha1 : List UInt8 → Vector UInt8 20) : Local → Local → Prop :=
  ReflTransGen (Write sha1)

/-- Any number of frames. -/
abbrev Hands (path : Egress) : Local → Local → Prop := ReflTransGen (Hand path)

/-- First writes, then frames, all on the same path. -/
abbrev Does (sha1 : List UInt8 → Vector UInt8 20) (path : Egress) : Local → Local → Prop :=
  Comp (Writes sha1) (Hands path)

variable {sha1 : List UInt8 → Vector UInt8 20} {path : Egress}

theorem Writes.does {s s' : Local} (h : Writes sha1 s s') : Does sha1 path s s' := ⟨s', h, .refl⟩

theorem Hands.does {s s' : Local} (h : Hands path s s') : Does sha1 path s s' := ⟨s, .refl, h⟩

theorem Does.of_writes {s s₁ s' : Local} (h : Writes sha1 s s₁) (h' : Does sha1 path s₁ s') :
    Does sha1 path s s' := by
  obtain ⟨s₂, hw, hh⟩ := h'
  exact ⟨s₂, h.trans hw, hh⟩

/-! ### Pointers stay -/

variable {i : SdataId} {s : Local}

theorem updSdata_config {f : SubIfData → SubIfData}
    (hf : ∀ d, (f d).config = d.config) (i' : SdataId) :
    ((s.updSdata i f).sdata i').config = (s.sdata i').config := by
  by_cases h : i' = i
  · rw [h, Local.updSdata_sdata_self, hf]
  · rw [Local.updSdata_sdata_of_ne s h]

variable {j : StaId}

theorem updSta_config {f : StaInfo → StaInfo} (hf : ∀ t, (f t).config = t.config) (j' : StaId) :
    ((s.updSta j f).sta j').config = (s.sta j').config := by
  by_cases h : j' = j
  · rw [h, Local.updSta_sta_self, hf]
  · rw [Local.updSta_sta_of_ne s h]

/-- What no write changes. -/
structure SameConfig (s s' : Local) : Prop where
  sdata : ∀ i, (s'.sdata i).config = (s.sdata i).config
  sta : ∀ j, (s'.sta j).config = (s.sta j).config
  nextKey : s'.nextKey = s.nextKey
  interfaces : s'.interfaces = s.interfaces
  staList : s'.staList = s.staList
  /-- Keys keep everything but the transmit counter. -/
  keys : ∀ k, { s'.keys k with txPn := 0 } = { s.keys k with txPn := 0 }

theorem SameConfig.refl (s : Local) : SameConfig s s :=
  ⟨fun _ => rfl, fun _ => rfl, rfl, rfl, rfl, fun _ => rfl⟩

theorem SameConfig.symm {s s' : Local} (h : SameConfig s s') : SameConfig s' s :=
  ⟨fun i => (h.sdata i).symm, fun j => (h.sta j).symm, h.nextKey.symm, h.interfaces.symm,
    h.staList.symm, fun k => (h.keys k).symm⟩

theorem SameConfig.trans {s s' s'' : Local} (h : SameConfig s s') (h' : SameConfig s' s'') :
    SameConfig s s'' :=
  ⟨fun i => (h'.sdata i).trans (h.sdata i), fun j => (h'.sta j).trans (h.sta j),
    h'.nextKey.trans h.nextKey, h'.interfaces.trans h.interfaces, h'.staList.trans h.staList,
    fun k => (h'.keys k).trans (h.keys k)⟩

theorem sameConfig_updKey (k : KeyId) {f : Key → Key}
    (hf : ∀ key, { f key with txPn := 0 } = { key with txPn := 0 }) :
    SameConfig s (s.updKey k f) := by
  refine ⟨fun _ => rfl, fun _ => rfl, rfl, rfl, rfl, fun k' => ?_⟩
  by_cases h : k' = k
  · rw [h, Local.updKey_keys_self, hf]
  · rw [Local.updKey_keys_of_ne s h]

theorem Write.sameConfig {s s' : Local} (h : Write sha1 s s') : SameConfig s s' := by
  cases h with
  | draw k hk =>
    have hu : SameConfig s (s.updKey k Key.incTxPn) := sameConfig_updKey k fun _ => rfl
    exact ⟨hu.sdata, hu.sta, hu.nextKey, hu.interfaces, hu.staList, hu.keys⟩
  | reset k hk =>
    have hu : SameConfig s (s.updKey k fun key => { key with txPn := generatePn s.now }) :=
      sameConfig_updKey k fun _ => rfl
    exact ⟨hu.sdata, hu.sta, hu.nextKey, hu.interfaces, hu.staList, hu.keys⟩
  | sdata i f hf => exact ⟨updSdata_config hf, fun _ => rfl, rfl, rfl, rfl, fun _ => rfl⟩
  | sta j f hf => exact ⟨fun _ => rfl, updSta_config hf, rfl, rfl, rfl, fun _ => rfl⟩
  | _ => exact ⟨fun _ => rfl, fun _ => rfl, rfl, rfl, rfl, fun _ => rfl⟩

theorem Writes.sameConfig {s s' : Local} (h : Writes sha1 s s') : SameConfig s s' := by
  induction h with
  | refl => exact .refl _
  | tail _ hw ih => exact ih.trans hw.sameConfig

theorem Hand.sameConfig {s s' : Local} (h : Hand path s s') : SameConfig s s' := by
  cases h <;> exact ⟨fun _ => rfl, fun _ => rfl, rfl, rfl, rfl, fun _ => rfl⟩

theorem Hands.sameConfig {s s' : Local} (h : Hands path s s') : SameConfig s s' := by
  induction h with
  | refl => exact .refl _
  | tail _ hh ih => exact ih.trans hh.sameConfig

variable {k : KeyId}

theorem SameConfig.pointsTo {s s' : Local} (h : SameConfig s s')
    (hk : s.PointsTo k) : s'.PointsTo k := by
  rcases hk with ⟨j, idx, hk⟩ | ⟨i, hk⟩ | ⟨j, f, hf, hk⟩
  · exact .inl ⟨j, idx, (congrFun (congrArg StaInfo.ptk (h.sta j)) idx :).trans hk⟩
  · refine .inr (.inl ⟨i, ?_⟩)
    have hu : (s'.sdata i).defaultUnicastKey = (s.sdata i).defaultUnicastKey :=
      (congrArg SubIfData.defaultUnicastKey (h.sdata i) :)
    have hm : (s'.sdata i).defaultMulticastKey = (s.sdata i).defaultMulticastKey :=
      (congrArg SubIfData.defaultMulticastKey (h.sdata i) :)
    have hg : (s'.sdata i).defaultMgmtKey = (s.sdata i).defaultMgmtKey :=
      (congrArg SubIfData.defaultMgmtKey (h.sdata i) :)
    rw [hu, hm, hg]
    exact hk
  · exact .inr (.inr ⟨j, f, (congrArg StaInfo.fastTx (h.sta j) :).trans hf, hk⟩)

theorem Writes.pointsTo {s s' : Local} (h : Writes sha1 s s') (hk : s.PointsTo k) :
    s'.PointsTo k := h.sameConfig.pointsTo hk

theorem pointsTo_of_ptkOf (h : s.ptkOf j = some k) : s.PointsTo k := .inl ⟨j, _, h⟩

/-! ### Writes that leave the pending queues alone -/

/-- A write that leaves the pending queues alone. -/
def PathWrite (sha1 : List UInt8 → Vector UInt8 20) (s s' : Local) : Prop :=
  Write sha1 s s' ∧ s'.pending = s.pending

/-- Any number of them. -/
abbrev PathWrites (sha1 : List UInt8 → Vector UInt8 20) : Local → Local → Prop :=
  ReflTransGen (PathWrite sha1)

theorem Write.paths {s s' : Local} (h : Write sha1 s s') (hpending : s'.pending = s.pending) :
    PathWrites sha1 s s' := .single ⟨h, hpending⟩

theorem PathWrites.writes {s s' : Local} (h : PathWrites sha1 s s') : Writes sha1 s s' :=
  ReflTransGen.mono (fun _ _ hw => hw.1) _ _ h

theorem PathWrites.pointsTo {s s' : Local} (h : PathWrites sha1 s s') (hk : s.PointsTo k) :
    s'.PointsTo k := h.writes.pointsTo hk

/-- A write outside a rotation. `P` is what is known of the keys. -/
inductive PlainWrite (P : KeyId → Prop) : Local → Local → Prop
  | draw (s : Local) (k : KeyId) (hk : P k) : PlainWrite P s (s.incTxPn k).1
  | sdata (s : Local) (i : SdataId) (f : SubIfData → SubIfData)
      (hf : ∀ d, { f d with sequenceNumber := 0, bcBuf := [] } = { d with sequenceNumber := 0, bcBuf := [] }) :
      PlainWrite P s (s.updSdata i f)
  | sta (s : Local) (j : StaId) (f : StaInfo → StaInfo)
      (hf : ∀ t, { f t with tidSeq := fun _ => 0 } = { t with tidSeq := fun _ => 0 }) :
      PlainWrite P s (s.updSta j f)
  | txq (s : Local) (q : Txq → List TxSkb) : PlainWrite P s { s with txq := q }

/-- Any number of them. -/
abbrev PlainWrites (P : KeyId → Prop) : Local → Local → Prop := ReflTransGen (PlainWrite P)

variable {P : KeyId → Prop}

theorem PlainWrite.pathWrite {s s' : Local} (h : PlainWrite P s s')
    (hP : ∀ k, P k → s.PointsTo k) : PathWrite sha1 s s' := by
  cases h with
  | draw k hk => exact ⟨.draw s k (hP k hk), rfl⟩
  | sdata i f hf => exact ⟨.sdata s i f fun d => (congrArg SubIfData.config (hf d) :), rfl⟩
  | sta j f hf => exact ⟨.sta s j f fun d => (congrArg StaInfo.config (hf d) :), rfl⟩
  | txq q => exact ⟨.txq s q, rfl⟩

theorem PlainWrites.paths {s s' : Local} (h : PlainWrites P s s')
    (hP : ∀ k, P k → s.PointsTo k) : PathWrites sha1 s s' := by
  induction h with
  | refl => exact .refl
  | tail _ hw ih => exact ih.tail (hw.pathWrite fun k hk => ih.pointsTo (hP k hk))

/-! ### Rotations -/

variable {sta : Option StaId}

section Rotation

variable {env : GenEnv}

theorem writes_setTxPn? {p : Option KeyId} (hp : ∀ k ∈ p, s.PointsTo k) :
    PathWrites sha1 s (s.setTxPn? p (generatePn s.now)) := by
  cases p with
  | none => exact .refl
  | some k => exact (Write.reset s k (hp k rfl)).paths rfl

variable {tp : ℕ}

theorem writes_generateMacAddApStep {st st' : Local × List UInt8}
    (h : generateMacAddApStep sha1 env tp st j = some st') : PathWrites sha1 st.1 st'.1 := by
  rw [generateMacAddApStep] at h
  split at h
  · cases h
  · rename_i k hk
    cases h
    set s₁ := st.1.updSdata (st.1.sta j).sdata fun d => { d with sequenceNumber := 0 } with hs₁
    set s₂ := s₁.advance (env.delay j) with hs₂
    set s₃ := s₂.setTxPn k (generatePn s₂.now) with hs₃
    set g := (s₂.sdata (st.1.sta j).sdata).defaultMulticastKey with hg
    have h₁ : PathWrites sha1 st.1 s₁ := Write.paths (.sdata _ _ _ fun _ => rfl) rfl
    have h₂ : PathWrites sha1 st.1 s₂ := h₁.tail ⟨.advance _ _, rfl⟩
    have h₃ : PathWrites sha1 st.1 s₃ := h₂.tail ⟨.reset _ _ (h₂.pointsTo (pointsTo_of_ptkOf hk)), rfl⟩
    have h₄ : PathWrites sha1 s₃ (s₃.setTxPn? g (generatePn s₃.now)) :=
      writes_setTxPn? fun k' hk' => .inr (.inl ⟨_, .inr (.inl hk')⟩)
    have haddr : ((s₃.setTxPn? g (generatePn s₃.now)).sta j).addr = (st.1.sta j).addr :=
      (congrArg StaInfo.addr ((PathWrites.writes (h₃.trans h₄)).sameConfig.sta j) :)
    have h₅ := @Write.rotate sha1 (s₃.setTxPn? g (generatePn s₃.now)) (env.insert j) j
      ((apHashInput st.2 (st.1.keys k).key (st.1.sta j).addr tp).take HASH_INPUT_LEN)
    rw [haddr] at h₅
    exact (h₃.trans h₄).tail ⟨h₅, rfl⟩

theorem writes_generateMacAddApLoop (js : List StaId) :
    ∀ {st st' : Local × List UInt8}, js.foldlM (generateMacAddApStep sha1 env tp) st = some st' →
      PathWrites sha1 st.1 st'.1 := by
  induction js with
  | nil =>
    intro st st' h
    cases h
    exact .refl
  | cons j js ih =>
    intro st st' h
    rw [List.foldlM_cons] at h
    obtain ⟨st₁, h₁, h₂⟩ := bind_eq_some_iff.mp h
    exact (writes_generateMacAddApStep h₁).trans (ih h₂)

theorem writes_generateMacAddApAll {s s' : Local}
    (h : generateMacAddApAll sha1 env tp s = some s') : PathWrites sha1 s s' := by
  rw [generateMacAddApAll] at h
  split at h
  · obtain ⟨st, hst, rfl⟩ := map_eq_some_iff.mp h
    exact writes_generateMacAddApLoop s.staList hst
  · cases h
    exact .refl

theorem writes_generateMacAddSta {s s' : Local}
    (h : generateMacAddSta sha1 env tp j s = some s') : PathWrites sha1 s s' := by
  rw [generateMacAddSta] at h
  split at h
  · simp only at h
    split at h
    · cases h
    · rename_i k hk
      cases h
      set s₁ := s.updSdata (s.sta j).sdata fun d => { d with sequenceNumber := 0 } with hs₁
      set s₂ := s₁.advance (env.delay j) with hs₂
      have h₁ : PathWrites sha1 s s₁ := Write.paths (.sdata _ _ _ fun _ => rfl) rfl
      have h₂ : PathWrites sha1 s s₂ := h₁.tail ⟨.advance _ _, rfl⟩
      have h₃ : PathWrites sha1 s (s₂.setTxPn k (generatePn s₂.now)) :=
        h₂.tail ⟨.reset _ _ (h₂.pointsTo (pointsTo_of_ptkOf hk)), rfl⟩
      have haddr : ((s₂.setTxPn k (generatePn s₂.now)).sdataOf j).addr =
          (s.sdata (s.sta j).sdata).addr :=
        (congrArg SubIfData.addr (h₃.writes.sameConfig.sdata (s.sta j).sdata) :)
      have h₄ := @Write.sRotate sha1 (s₂.setTxPn k (generatePn s₂.now)) j
        ((staHashInput env.junk (s.keys k).key (s.sdata (s.sta j).sdata).addr tp).take HASH_INPUT_LEN)
      rw [haddr] at h₄
      exact h₃.tail ⟨h₄, rfl⟩
  · cases h
    exact .refl

theorem writes_handleRandomMac {ok : Bool} {s s' : Local}
    (h : handleRandomMac sha1 env ok sta s = some s') : PathWrites sha1 s s' := by
  cases sta with
  | none =>
    cases h
    exact .refl
  | some j =>
    rw [handleRandomMac] at h
    split at h
    · split at h
      · rw [handleRandomMacAp] at h
        split at h
        · rename_i hnone
          cases h
          have hc := @Write.contact sha1 s ok j (lookup_eq_none_iff.mpr hnone)
          exact (hc.paths rfl).tail ⟨.sdata _ _ _ fun _ => rfl, rfl⟩
        · split at h
          · obtain ⟨s₁, hs₁, rfl⟩ := map_eq_some_iff.mp h
            exact (writes_generateMacAddApAll hs₁).tail ⟨.sdata _ _ _ fun _ => rfl, rfl⟩
          · cases h
            exact .refl
      · rw [handleRandomMacSta] at h
        split at h
        · rename_i hnone
          cases h
          have hc := @Write.sContact sha1 s ok j (lookup_eq_none_iff.mpr hnone)
          exact (hc.paths rfl).tail ⟨.sta _ _ _ fun _ => rfl, rfl⟩
        · split at h
          · obtain ⟨s₁, hs₁, rfl⟩ := map_eq_some_iff.mp h
            exact (writes_generateMacAddSta hs₁).tail ⟨.sta _ _ _ fun _ => rfl, rfl⟩
          · cases h
            exact .refl
      · cases h
        exact .refl
    · cases h
      exact .refl

theorem writes_rxRotate {s s' : Local} (h : rxRotate sha1 env s = some s') : PathWrites sha1 s s' := by
  rw [rxRotate] at h
  split at h
  · cases h
    exact .refl
  · split at h
    · obtain ⟨s₁, hs₁, rfl⟩ := map_eq_some_iff.mp h
      exact (writes_generateMacAddApAll hs₁).tail ⟨.sdata _ _ _ fun _ => rfl, rfl⟩
    · cases h
      exact .refl

theorem writes_macAddrChangeHdrRx {s s' : Local} {h h' : Hdr}
    (hrx : macAddrChangeHdrRx sha1 env s h = some (s', h')) : PathWrites sha1 s s' := by
  rw [macAddrChangeHdrRx] at hrx
  split at hrx
  · cases hrx
    exact .refl
  · obtain ⟨s₁, hs₁, heq⟩ := map_eq_some_iff.mp hrx
    cases heq
    exact writes_rxRotate hs₁
  · cases hrx
    exact .refl

end Rotation

/-! ### Handlers -/

section Encrypt

variable {C : Crypto} {env : EncryptEnv} {k : KeyId}

/-- Packet numbers are taken from a key, and nothing else happens. -/
abbrev Draws (k : KeyId) : Local → Local → Prop := ReflTransGen fun s s' => s' = (s.incTxPn k).1

theorem draws_incTxPn (s : Local) (k : KeyId) : Draws k s (s.incTxPn k).1 := .single rfl

theorem Draws.plain {s s' : Local} (h : Draws k s s') (hk : P k) : PlainWrites P s s' :=
  ReflTransGen.mono (fun s _ hd => hd ▸ .draw s k hk) _ _ h

theorem draws_encryptAll {f : Local → TxSkb → Local × Option TxSkb}
    (hf : ∀ s skb, Draws k s (f s skb).1) :
    ∀ (skbs : List TxSkb) (s : Local), Draws k s (encryptAll f s skbs).1 := by
  intro skbs
  induction skbs with
  | nil => exact fun s => .refl
  | cons skb skbs ih =>
    intro s
    have h₁ := hf s skb
    rw [encryptAll]
    split
    · rename_i s₁ heq
      rw [heq] at h₁
      exact h₁
    · rename_i s₁ skb₁ heq
      rw [heq] at h₁
      have h₂ := ih s₁
      split
      all_goals
        rename_i heq₂
        rw [heq₂] at h₂
        exact h₁.trans h₂

theorem draws_aeadEncryptSkb {op : Key → Hdr → Pn → List UInt8 → List UInt8} (s : Local)
    (skb : TxSkb) : Draws k s (aeadEncryptSkb op env k s skb).1 := by
  rw [aeadEncryptSkb]
  split_ifs
  · exact .refl
  · exact .refl
  · exact .refl
  all_goals exact draws_incTxPn s k

theorem draws_tkipEncryptSkb (s : Local) (skb : TxSkb) :
    Draws k s (tkipEncryptSkb env k s skb).1 := by
  rw [tkipEncryptSkb]
  split_ifs
  · exact .refl
  · exact .refl
  · exact .refl
  · exact draws_incTxPn s k

theorem draws_bipEncrypt {mmieLen : ℕ} {hwMmie : Key → Bool}
    {mac : Key → Hdr → Pn → Option (List UInt8)} (s : Local) (skbs : List TxSkb) :
    Draws k s (bipEncrypt mmieLen hwMmie mac env k s skbs).1 := by
  rcases skbs with _ | ⟨skb, _ | ⟨_, _⟩⟩
  · exact .refl
  · rw [bipEncrypt]
    split_ifs
    · exact .refl
    · exact .refl
    all_goals exact draws_incTxPn s k
  · exact .refl

theorem draws_cryptoEncrypt (s : Local) (skbs : List TxSkb) :
    Draws k s (cryptoEncrypt C env k s skbs).1 := by
  have hlegacy : ∀ l, Draws k s (encryptAll (legacyEncryptSkb env) s l).1 :=
    fun l => draws_encryptAll (fun _ _ => .refl) l s
  rw [cryptoEncrypt]
  split
  · exact hlegacy _
  · exact hlegacy _
  · exact draws_encryptAll draws_tkipEncryptSkb _ s
  · exact draws_encryptAll draws_aeadEncryptSkb _ s
  · exact draws_encryptAll draws_aeadEncryptSkb _ s
  · exact draws_bipEncrypt s skbs
  · exact draws_bipEncrypt s skbs
  · exact draws_bipEncrypt s skbs
  · exact draws_bipEncrypt s skbs
  · exact draws_encryptAll draws_aeadEncryptSkb _ s
  · exact draws_encryptAll draws_aeadEncryptSkb _ s
  · rw [cryptoHwEncrypt]
    split
    · exact .refl
    · exact hlegacy _

end Encrypt

variable {skb : TxSkb}

section Handlers

variable {C : Crypto} {env : TxEnv} {P : KeyId → Prop}

theorem plain_txHPsBuf (s : Local) (tx : TxData) (skb : TxSkb) :
    PlainWrites P s (txHPsBuf env s tx skb).1 := by
  rw [txHPsBuf]
  split_ifs
  · exact .refl
  · simp only [txHMulticastPsBuf]
    split
    · exact .refl
    · split_ifs
      · exact .refl
      · exact .refl
      · exact .refl
      all_goals
        dsimp only
        refine .single (.sdata _ _ _ ?_)
        intro d
        rfl
  · exact .refl
  · exact .refl

variable {tx : TxData}

theorem pointsTo_of_selectKey {h : Hdr} (hk : selectKey s tx h = some k) : s.PointsTo k := by
  simp only [selectKey, orElse_eq_orElse, orElse_eq_or, or_eq_some_iff,
    ite_none_right_eq_some] at hk
  rcases hk with hk | ⟨-, ⟨-, hk⟩ | ⟨-, ⟨-, hk⟩ | ⟨-, hk⟩⟩⟩
  · obtain ⟨j, -, hk⟩ := bind_eq_some_iff.mp hk
    exact pointsTo_of_ptkOf hk
  · exact .inr (.inl ⟨_, .inr (.inl hk)⟩)
  · exact .inr (.inl ⟨_, .inr (.inr hk)⟩)
  · split at hk
    · exact .inr (.inl ⟨_, .inr (.inl hk)⟩)
    · exact .inr (.inl ⟨_, .inl hk⟩)

theorem pointsTo_of_txHSelectKey {tx tx' : TxData} {skb skb' : TxSkb}
    (h : txHSelectKey s tx skb = some (tx', skb')) : ∀ k ∈ tx'.key, s.PointsTo k := by
  intro k hk
  simp only [txHSelectKey] at h
  split at h
  · cases h
    cases hk
  · split at h
    · rename_i k' hk'
      split_ifs at h
      · cases h
        cases hk
      all_goals
        cases h
        cases hk
        exact pointsTo_of_selectKey hk'
    · split_ifs at h
      cases h
      cases hk

theorem plain_invokeTxHandlersEarly {s s' : Local}
    {r : Option (TxData × TxSkb)} (h : invokeTxHandlersEarly env s tx skb = (s', r)) :
    PlainWrites P s s' ∧ ∀ tx' skb', r = some (tx', skb') → ∀ k ∈ tx'.key, s'.PointsTo k := by
  have hps : PlainWrites P s (txHPsBuf env s tx skb).1 := plain_txHPsBuf s tx skb
  rw [invokeTxHandlersEarly] at h
  split at h
  · cases h
    exact ⟨.refl, fun _ _ hr => by cases hr⟩
  · split at h
    · rename_i s₁ skb₁ heq
      rw [heq] at hps
      split at h
      · cases h
        exact ⟨hps, fun _ _ hr => by cases hr⟩
      · rename_i tx₂ skb₂ hsel
        split at h
        · cases h
          refine ⟨hps, fun tx' skb' hr => ?_⟩
          cases hr
          exact pointsTo_of_txHSelectKey hsel
        · cases h
          exact ⟨hps, fun _ _ hr => by cases hr⟩
    · rename_i heq
      rw [heq] at hps
      cases h
      exact ⟨hps, fun _ _ hr => by cases hr⟩

theorem writes_invokeTxHandlersEarly {s s' : Local} {tx : TxData} {skb : TxSkb}
    {r : Option (TxData × TxSkb)} (h : invokeTxHandlersEarly env s tx skb = (s', r)) :
    Writes sha1 s s' ∧ ∀ tx' skb', r = some (tx', skb') → ∀ k ∈ tx'.key, s'.PointsTo k := by
  obtain ⟨hplain, hkeys⟩ := plain_invokeTxHandlersEarly (P := s.PointsTo) h
  exact ⟨(hplain.paths fun _ hk => hk).writes, hkeys⟩

theorem plain_txNextSeq (s : Local) (j : StaId) (tid : ℕ) : PlainWrites P s (txNextSeq s j tid).1 := by
  dsimp only [txNextSeq]
  exact .single (.sta _ _ _ fun _ => rfl)

theorem plain_sdataNextSeq (s : Local) (i : SdataId) : PlainWrites P s (sdataNextSeq s i).1 := by
  dsimp only [sdataNextSeq]
  exact .single (.sdata _ _ _ fun _ => rfl)

theorem plain_txHSequence (s : Local) (tx : TxData) (skb : TxSkb) :
    PlainWrites P s (txHSequence s tx skb).1 := by
  rw [txHSequence]
  split_ifs
  · exact .refl
  · exact .refl
  · exact plain_sdataNextSeq s _
  · split
    · exact .refl
    · exact plain_txNextSeq s _ _

theorem plain_txHEncrypt (s : Local) (skbs : List TxSkb) (hk : ∀ k ∈ tx.key, P k) :
    PlainWrites P s (txHEncrypt C env s tx skbs).1 := by
  rw [txHEncrypt]
  split
  · exact .refl
  · rename_i k hkey
    exact (draws_cryptoEncrypt s skbs).plain (hk k hkey)

/-- After `handle_random_mac`, the late handlers write nothing but a sequence number and packet numbers. -/
theorem invokeTxHandlersLate_plain {s s' : Local} {r : Option (List TxSkb)}
    (hk : ∀ k ∈ tx.key, P k) (h : invokeTxHandlersLate sha1 C env s tx skb = some (s', r)) :
    s' = s ∨ skb.info.retransmission = false ∧
      ∃ s₁, handleRandomMac sha1 env.gen env.insert tx.sta s = some s₁ ∧ PlainWrites P s₁ s' := by
  rw [invokeTxHandlersLate] at h
  split at h
  · cases h
    exact .inl rfl
  · rename_i hre
    obtain ⟨s₁, hs₁, heq⟩ := map_eq_some_iff.mp h
    refine .inr ⟨Bool.eq_false_iff.mpr hre, s₁, hs₁, ?_⟩
    split at heq
    · cases heq
      exact .refl
    · simp only at heq
      split at heq
      · cases heq
        exact plain_txHSequence s₁ tx skb
      · cases heq
        exact (plain_txHSequence s₁ tx skb).trans (plain_txHEncrypt _ _ hk)

theorem writes_invokeTxHandlersLate {s s' : Local}
    {r : Option (List TxSkb)} (hk : ∀ k ∈ tx.key, s.PointsTo k)
    (h : invokeTxHandlersLate sha1 C env s tx skb = some (s', r)) : Writes sha1 s s' := by
  rcases invokeTxHandlersLate_plain hk h with rfl | ⟨-, s₁, hs₁, hplain⟩
  · exact .refl
  · have h₁ := writes_handleRandomMac hs₁
    exact PathWrites.writes (h₁.trans (hplain.paths fun _ => h₁.pointsTo))

end Handlers

/-! ### Paths -/

section Paths

variable {C : Crypto} {env : TxEnv} {P : KeyId → Prop}

theorem hands_txFrags {vif : Option SdataId} {txpending : Bool} :
    ∀ (skbs : List TxSkb) {s s' : Local}, txFrags vif sta txpending skbs s = some s' →
      Hands .txFrags s s' := by
  intro skbs
  induction skbs with
  | nil =>
    intro s s' h
    cases h
    exact .refl
  | cons skb skbs ih =>
    intro s s' h
    rw [txFrags.eq_def] at h
    simp only at h
    split_ifs at h
    · cases h
      exact .single (.park _ _)
    · cases h
      exact .refl
    · split at h
      · cases h
      · exact .head (.drvTx s _ sta skb) (ih h)

theorem hands_ieee80211Tx' {txpending : Bool} {skbs : List TxSkb}
    {s s' : Local} (h : ieee80211Tx' sta txpending skbs s = some s') : Hands .txFrags s s' := by
  rw [ieee80211Tx'.eq_def] at h
  split at h
  · cases h
    exact .refl
  · simp only at h
    split at h
    · cases h
      exact .refl
    · exact hands_txFrags _ h

theorem plain_queueSkb {s s' : Local}
    (h : queueSkb s i sta skb = some s') : PlainWrites P s s' := by
  rw [queueSkb] at h
  split at h
  · cases h
  · obtain ⟨q, -, rfl⟩ := map_eq_some_iff.mp h
    exact .single (.txq _ _)

theorem writes_queueSkb {s s' : Local} (h : queueSkb s i sta skb = some s') : Writes sha1 s s' :=
  (PlainWrites.paths (plain_queueSkb h) fun _ hk => hk).writes

theorem does_ieee80211Tx {txpending noSeqno : Bool} {s s' : Local}
    (h : ieee80211Tx sha1 C env i sta skb txpending noSeqno s = some s') : Does sha1 .txFrags s s' := by
  rw [ieee80211Tx] at h
  split at h
  · cases h
    exact Writes.does .refl
  · simp only at h
    split at h
    · rename_i hearly
      cases h
      exact (writes_invokeTxHandlersEarly hearly).1.does
    · rename_i s₁ tx₁ skb₁ hearly
      obtain ⟨h₁, hkeys⟩ := writes_invokeTxHandlersEarly hearly
      have hkey := hkeys tx₁ skb₁ rfl
      split at h
      · rename_i hq
        cases h
        exact Writes.does (h₁.trans (writes_queueSkb hq))
      · split at h
        · cases h
        · rename_i hlate
          cases h
          exact Writes.does (h₁.trans (writes_invokeTxHandlersLate hkey hlate))
        · rename_i hlate
          exact ⟨_, h₁.trans (writes_invokeTxHandlersLate hkey hlate), hands_ieee80211Tx' h⟩

theorem does_ieee80211Xmit {noSeqno : Bool}
    {s s' : Local} (h : ieee80211Xmit sha1 C env i sta skb noSeqno s = some s') : Does sha1 .txFrags s s' :=
  does_ieee80211Tx h

theorem does_txPending {q : ℕ} {s s' : Local} (h : txPending sha1 C env q s = some s') :
    Does sha1 .txFrags s s' := by
  rw [txPending] at h
  split at h
  · cases h
    exact Writes.does .refl
  · split at h
    · cases h
      exact Writes.does .refl
    · rename_i skb skbs _
      refine Does.of_writes (.single (.pending s (Function.update s.pending q skbs))) ?_
      rw [txPendingSkb] at h
      split_ifs at h
      · exact does_ieee80211Tx h
      · cases h
        exact Writes.does .refl
      · exact (hands_ieee80211Tx' h).does

theorem plain_fastNextSeq (s : Local) (skb : TxSkb) :
    PlainWrites P s (fastNextSeq s i j skb).1 := by
  rw [fastNextSeq]
  split
  · exact plain_txNextSeq s j _
  · exact plain_sdataNextSeq s i

theorem plain_xmitFastFinish {pnOffs : Bool} {key : Option KeyId}
    {hwQueue : ℕ} (s : Local) (skb : TxSkb) (hk : ∀ k ∈ key, P k) :
    PlainWrites P s (xmitFastFinish s i j pnOffs key hwQueue skb).1 := by
  simp only [xmitFastFinish]
  split
  · rename_i k
    split
    · exact (plain_fastNextSeq s _).tail (.draw _ k (hk k rfl))
    · exact plain_fastNextSeq s _
  · exact plain_fastNextSeq s _

theorem writes_xmitFastFinish {i : SdataId} {j : StaId} {pnOffs : Bool} {key : Option KeyId}
    {hwQueue : ℕ} (s : Local) (skb : TxSkb) (hk : ∀ k ∈ key, s.PointsTo k) :
    Writes sha1 s (xmitFastFinish s i j pnOffs key hwQueue skb).1 :=
  ((plain_xmitFastFinish s skb hk).paths fun _ hk => hk).writes

theorem does_xmitFast {f : FastTx} {eth : EthFrame} {s s' : Local}
    (hf : (s.sta j).fastTx = some f) (h : xmitFast env i j f eth s = some s') : Does sha1 .txFrags s s' := by
  rw [xmitFast] at h
  simp only at h
  split at h
  · cases h
    exact Writes.does .refl
  · split at h
    · rename_i hq
      cases h
      exact (writes_queueSkb hq).does
    · refine ⟨_, writes_xmitFastFinish s _ fun k hk => ?_, hands_txFrags _ h⟩
      exact .inr (.inr ⟨j, f, hf, hk⟩)

theorem does_subifStartXmit {eth : EthFrame} {s s' : Local}
    (h : subifStartXmit sha1 C env i eth s = some s') : Does sha1 .txFrags s s' := by
  have hslow : ∀ sta, subifStartXmit.slow sha1 C env i eth s sta = some s' →
      Does sha1 .txFrags s s' := by
    intro sta hs
    rw [subifStartXmit.slow] at hs
    split at hs
    · cases hs
      exact Writes.does .refl
    · exact does_ieee80211Xmit hs
  rw [subifStartXmit] at h
  split at h
  · cases h
    exact Writes.does .refl
  · split at h
    · rename_i j f hfast
      obtain ⟨j', -, hf⟩ := bind_eq_some_iff.mp hfast
      obtain ⟨f', hf', heq⟩ := map_eq_some_iff.mp hf
      cases heq
      split at h
      · exact does_xmitFast hf' h
      · exact hslow _ h
    · exact hslow _ h

theorem hands_handOver {path : Egress} {vif : SdataId}
    {s s' : Local} (hpath : path ≠ .txFrags) (h : handOver path s vif sta skb = some s') :
    Hands path s s' := by
  rw [handOver] at h
  split at h
  · cases h
    exact .refl
  · cases h
    exact .single (.handOver _ _ _ _ _ hpath)

theorem does_txDequeue {q : Txq} {n : ℕ} {s s' : Local}
    (h : txDequeue sha1 C env q n s = some s') : Does sha1 .txDequeue s s' := by
  rw [txDequeue] at h
  split at h
  · cases h
    exact ⟨_, .single (.txqFrags _ _), .single (.handOver _ _ _ _ _ (by decide))⟩
  · split at h
    · cases h
      exact Writes.does .refl
    · rename_i skb hskb
      set s₁ := s.eraseTxq q n with hs₁
      have h₁ : Writes sha1 s s₁ := .single (.txq _ _)
      simp only at h
      split at h
      · obtain rfl := some.inj h
        exact h₁.does
      · split at h
        · obtain rfl := some.inj h
          exact h₁.does
        · rename_i tx₂ skb₂ hsel
          have hkey := pointsTo_of_txHSelectKey hsel
          refine Does.of_writes h₁ ?_
          split at h
          · exact ⟨_, writes_xmitFastFinish s₁ _ hkey, hands_handOver (by decide) h⟩
          · cases h
          · split at h
            · rename_i s₃ skb₃ skbs₃ hlate
              have h₃ := writes_invokeTxHandlersLate hkey hlate
              exact ⟨_, h₃.tail (.txqFrags _ _), hands_handOver (by decide) h⟩
            · obtain ⟨⟨s₃, r₃⟩, hlate, rfl⟩ := map_eq_some_iff.mp h
              exact (writes_invokeTxHandlersLate hkey hlate).does

theorem plain_takeBc {i dev : SdataId} {s s' : Local}
    (h : takeBc s i = some (s', dev, skb)) : PlainWrites P s s' := by
  rw [takeBc] at h
  split at h
  · cases h
  · cases h
    exact .single (.sdata _ _ _ fun _ => rfl)

theorem writes_takeBc {i dev : SdataId} {s s' : Local}
    (h : takeBc s i = some (s', dev, skb)) : Writes sha1 s s' :=
  (PlainWrites.paths (plain_takeBc h) fun _ hk => hk).writes

theorem does_getBufferedBc {s s' : Local}
    (h : getBufferedBc sha1 C env i s = some s') : Does sha1 .getBufferedBc s s' := by
  rw [getBufferedBc] at h
  split at h
  · cases h
    exact Writes.does .refl
  · split at h
    · cases h
      exact Writes.does .refl
    · rename_i htake
      refine Does.of_writes (writes_takeBc htake) ?_
      split at h
      · cases h
        exact Writes.does .refl
      · split at h
        · rename_i hearly
          cases h
          exact (writes_invokeTxHandlersEarly hearly).1.does
        · rename_i s₁ tx₁ skb₁ hearly
          obtain ⟨h₁, hkeys⟩ := writes_invokeTxHandlersEarly hearly
          have hkey := hkeys tx₁ skb₁ rfl
          refine Does.of_writes h₁ ?_
          split at h
          · rename_i hlate
            cases h
            exact ⟨_, writes_invokeTxHandlersLate hkey hlate,
              .single (.handOver _ _ _ _ _ (by decide))⟩
          · obtain ⟨⟨s₃, r₃⟩, hlate, rfl⟩ := map_eq_some_iff.mp h
            exact (writes_invokeTxHandlersLate hkey hlate).does

end Paths

/-! ### What is handed out -/

section Handed

variable {s s' : Local} {vif : SdataId} {sta : Option StaId} {skb : TxSkb}

theorem Writes.mem_handed (h : Writes sha1 s s') (hmem : .handed path vif sta skb ∈ s'.log) :
    .handed path vif sta skb ∈ s.log := by
  induction h with
  | refl => exact hmem
  | tail _ hw ih =>
    refine ih ?_
    cases hw with
    | draw k hk | reset k hk =>
      rcases List.mem_cons.mp hmem with hc | hmem
      · cases hc
      · exact hmem
    | _ => exact hmem

/-- What is handed out, and what `ieee80211_tx_frags` hands out has gone through
`mac_addr_change_hdr_tx`. -/
theorem Hands.mem_handed {p : Egress} (h : Hands p s s')
    (hmem : .handed path vif sta skb ∈ s'.log) : .handed path vif sta skb ∈ s.log ∨
      path = p ∧ (p = .txFrags → ∃ hdr, skb.hdr = macAddrChangeHdrTx s' vif hdr) := by
  induction h with
  | refl => exact .inl hmem
  | tail _ hh ih =>
    cases hh with
    | drvTx _ _ _ skb' =>
      rcases List.mem_cons.mp hmem with heq | hmem
      · obtain ⟨rfl, rfl, -, rfl⟩ := Logged.handed.inj heq
        exact .inr ⟨rfl, fun _ => ⟨skb'.hdr, rfl⟩⟩
      · exact ih hmem
    | handOver _ _ _ _ _ hpath =>
      rcases List.mem_cons.mp hmem with heq | hmem
      · exact .inr ⟨(Logged.handed.inj heq).1, fun hp => absurd hp hpath⟩
      · exact ih hmem
    | park p => exact ih hmem

theorem not_mem_handed_of_writes (hw : Writes sha1 s s') (hlog : s.log = [])
    (hmem : .handed path vif sta skb ∈ s'.log) : False := by
  have hold := Writes.mem_handed hw hmem
  rw [hlog] at hold
  cases hold

end Handed

end Mac80211
