import Mac80211.Tx.FastPath

/-!
# Counters across a rotation

A rotation on a station's side is meant to start the counters anew that the air can see of a frame.
Two runs are compared that have sent different frames and come to a rotation with the same
configuration; `forgetPast` is what they have in common. The per-TID sequence numbers of `sta_info`
are among what the rotation leaves.

## Main definitions

* `Twins`, `leftovers`

## Main results

* `sentCounters_eq_of_twins`
-/

namespace Mac80211

open Machine Buckets Option Function

/-! ### Two runs at a rotation -/

/-- A state without what earlier frames have left in it: counters, periods, random addresses, frames
that wait. -/
def forgetPast (s : Local) : Local :=
  { s with
    keys := fun k => { s.keys k with txPn := 0 }
    sdata := fun i => (s.sdata i).config
    sta := fun j => (s.sta j).config
    translationTable := Table.empty _ _
    sTranslationTable := Table.empty _ _
    pending := fun _ => []
    txq := fun _ => []
    txqFrags := fun _ => []
    log := [] }

/-- Two runs have come to a rotation at the same time, with the same configuration, addresses and
key, whatever they have sent before. -/
structure Twins (j : StaId) (k : KeyId) (s t : Local) : Prop where
  past : forgetPast s = forgetPast t
  station : (s.sdataOf j).type = .station
  ptk : s.ptkOf j = some k
  due : rotationDue s j = true
  due' : rotationDue t j = true

section Frames

variable {sha1 : List UInt8 → Vector UInt8 20} {C : Crypto} {s₀ s t s' : Local}

/-- Frames and the passing of time leave a trace only in what `forgetPast` erases. -/
theorem Write.forgetPast_eq (h : Write sha1 s s') :
    { forgetPast s' with now := 0 } = { forgetPast s with now := 0 } := by
  have hc := h.sameConfig
  have hjoin : { forgetPast s' with now := 0 } = { forgetPast s with
      now := 0
      keys := fun k => { s'.keys k with txPn := 0 }
      sdata := fun i => (s'.sdata i).config
      sta := fun j => (s'.sta j).config } := by
    cases h <;> rfl
  rw [hjoin, funext hc.keys, funext hc.sdata, funext hc.sta]
  rfl

theorem Does.forgetPast_eq {path : Egress} (h : Does sha1 path s s') :
    { forgetPast s' with now := 0 } = { forgetPast s with now := 0 } := by
  obtain ⟨s₁, hw, hh⟩ := h
  have hhands : forgetPast s' = forgetPast s₁ := by
    clear hw
    induction hh with
    | refl => rfl
    | tail _ hh ih =>
      rw [← ih]
      cases hh <;> rfl
  rw [hhands]
  clear hh hhands
  induction hw with
  | refl => rfl
  | tail _ hw ih => exact hw.forgetPast_eq.trans ih

theorem forgetPast_of_run {es : List Event} (hes : ∀ e ∈ es, e.changesConfig = false) :
    ∀ {s : Local} {o : List Logged}, run (deviceStep sha1 C) s es = some (s', o) →
      { forgetPast s' with now := 0 } = { forgetPast s with now := 0 } := by
  induction es with
  | nil =>
    intro s o h
    cases h
    rfl
  | cons e es ih =>
    intro s o h
    rw [run] at h
    split at h
    · cases h
    · rename_i s₁ o₁ hstep
      split at h
      · cases h
      · rename_i s₂ o₂ hrun
        cases h
        obtain ⟨s₃, hs₃, heq⟩ := map_eq_some_iff.mp hstep
        cases heq
        have hdoes := does_handle (hes e List.mem_cons_self) hs₃
        exact (ih (fun e' he' => hes e' (List.mem_cons_of_mem e he')) hrun).trans hdoes.forgetPast_eq

/-- Two runs that differ in the frames they send and receive are twins, once the clock is the same. -/
theorem forgetPast_eq_of_runs {es es' : List Event} {o o' : List Logged}
    (hes : ∀ e ∈ es, e.changesConfig = false) (hes' : ∀ e ∈ es', e.changesConfig = false)
    (hs : run (deviceStep sha1 C) s₀ es = some (s, o))
    (ht : run (deviceStep sha1 C) s₀ es' = some (t, o')) (hnow : s.now = t.now) :
    forgetPast s = forgetPast t := by
  have hsame := (forgetPast_of_run hes hs).trans (forgetPast_of_run hes' ht).symm
  have hclock : ∀ u, forgetPast u = { { forgetPast u with now := 0 } with now := u.now } :=
    fun _ => rfl
  rw [hclock s, hclock t, hsame, hnow]

end Frames

/-- What earlier frames may have left in a state. -/
structure Leftovers where
  /-- `tx_pn` of the keys. -/
  txPn : KeyId → ℕ
  /-- `sequence_number` of the interfaces. -/
  sequenceNumber : SdataId → UInt16
  /-- `tid_seq` of the stations. -/
  tidSeq : StaId → ℕ → UInt16
  /-- `start_time_period` of the stations. -/
  startTimePeriod : StaId → ℕ
  /-- `start_time_period` of the interfaces. -/
  apTimePeriod : SdataId → ℕ
  translationTable : TranslationTable
  sTranslationTable : PairTable
  /-- Frames that still wait. -/
  bcBuf : SdataId → List TxSkb
  pending : ℕ → List TxSkb
  txq : Txq → List TxSkb
  txqFrags : Txq → List TxSkb

/-- What is left after a rotation for `j`, with key `k`: packet numbers of other keys, sequence
numbers of other interfaces and of all TIDs, other periods, the tables up to this interface's random
address, and frames that wait. -/
def leftovers (j : StaId) (k : KeyId) (s : Local) : Leftovers where
  txPn k' := if k' = k then 0 else (s.keys k').txPn
  sequenceNumber i := if i = (s.sta j).sdata then 0 else (s.sdata i).sequenceNumber
  tidSeq j' := (s.sta j').tidSeq
  startTimePeriod j' := if j' = j then 0 else (s.sta j').startTimePeriod
  apTimePeriod i := (s.sdata i).startTimePeriod
  translationTable := s.translationTable
  sTranslationTable :=
    sUpdateEntryByBase s.sTranslationTable (s.sdataOf j).addr (Vector.replicate 6 0)
  bcBuf i := (s.sdata i).bcBuf
  pending := s.pending
  txq := s.txq
  txqFrags := s.txqFrags

/-- Put leftovers into a state. -/
def Leftovers.restore (l : Leftovers) (s : Local) : Local :=
  { s with
    keys := fun k => { s.keys k with txPn := l.txPn k }
    sdata := fun i => { s.sdata i with
      sequenceNumber := l.sequenceNumber i
      startTimePeriod := l.apTimePeriod i
      bcBuf := l.bcBuf i }
    sta := fun j => { s.sta j with
      startTimePeriod := l.startTimePeriod j
      tidSeq := l.tidSeq j }
    translationTable := l.translationTable
    sTranslationTable := l.sTranslationTable
    pending := l.pending
    txq := l.txq
    txqFrags := l.txqFrags }

/-- A state without what a rotation for `j`, with key `k`, overwrites. -/
def forgetRotated (j : StaId) (k : KeyId) (s : Local) : Local := (leftovers j k s).restore s

variable {j : StaId} {k : KeyId}

/-- What twins have in common, and their leftovers, make up all that the rotation leaves. -/
theorem forgetRotated_eq {s t : Local} (h : forgetPast s = forgetPast t)
    (hl : leftovers j k s = leftovers j k t) :
    forgetRotated j k { s with log := [] } = forgetRotated j k { t with log := [] } := by
  have hrestore : ∀ u : Local, forgetRotated j k { u with log := [] } =
      (leftovers j k u).restore (forgetPast u) := fun _ => rfl
  rw [hrestore, hrestore, h, hl]

/-! ### The rotation -/

theorem update_eq_update {α β : Type*} [DecidableEq α] {f g : α → β} {a : α} {b b' : β} (hb : b = b')
    (h : ∀ x, x ≠ a → f x = g x) : Function.update f a b = Function.update g a b' := by
  funext x
  by_cases hx : x = a
  · rw [hx, update_self, update_self, hb]
  · rw [update_of_ne hx, update_of_ne hx, h x hx]

variable {ok : Bool}

section Rotation

variable (sha1 : List UInt8 → Vector UInt8 20) (env : GenEnv) {j : StaId} {k : KeyId} {s t : Local}

/-- The state after a rotation for `j`, with key `k`. -/
def rotated (j : StaId) (k : KeyId) (s : Local) : Local :=
  { s with
    now := s.now + env.delay j
    keys := Function.update s.keys k
      { s.keys k with txPn := generatePn (s.now + env.delay j) }
    sdata := Function.update s.sdata (s.sta j).sdata { s.sdataOf j with sequenceNumber := 0 }
    sta := Function.update s.sta j { s.sta j with startTimePeriod := s.currentTp }
    sTranslationTable := sUpdateEntryByBase s.sTranslationTable (s.sdataOf j).addr
      (macOfHash (sha1 ((staHashInput env.junk (s.keys k).key (s.sdataOf j).addr
        s.currentTp).take HASH_INPUT_LEN)))
    log := .reset k (s.now + env.delay j) :: s.log }

theorem handleRandomMac_eq_rotated (hdue : rotationDue s j = true)
    (htype : (s.sdataOf j).type = .station) (hptk : s.ptkOf j = some k) (halloc : env.alloc = true) :
    handleRandomMac sha1 env ok (some j) s = some (rotated sha1 env j k s) := by
  simp only [rotationDue, htype, Bool.and_eq_true, decide_eq_true_eq] at hdue
  obtain ⟨hauth, hsome, htp⟩ := hdue
  obtain ⟨e, he⟩ := isSome_iff_exists.mp hsome
  have he' : searchByBaseMac s.sTranslationTable (s.sdata (s.sta j).sdata).addr = some e := he
  simp only [handleRandomMac, hauth, if_true, htype, handleRandomMacSta, he', if_pos htp,
    generateMacAddSta, halloc, hptk, map_some]
  rfl

/-- **The rotation absorbs what it overwrites.** -/
theorem rotated_forgetRotated :
    rotated sha1 env j k (forgetRotated j k s) = rotated sha1 env j k s := by
  rw [rotated, rotated]
  congr 1
  · refine update_eq_update rfl fun k' hk => ?_
    simp only [forgetRotated, Leftovers.restore, leftovers, if_neg hk]
  · refine update_eq_update rfl fun i hi => ?_
    have hi' : i ≠ (s.sta j).sdata := hi
    simp only [forgetRotated, Leftovers.restore, leftovers, if_neg hi']
  · refine update_eq_update rfl fun j' hj => ?_
    simp only [forgetRotated, Leftovers.restore, leftovers, if_neg hj]
  · exact sUpdateEntryByBase_sUpdateEntryByBase _ _ _ _

end Rotation

/-! ### Steps that rotate, and steps that do not -/

/-- The periods of the stations stay, and no counter is reset. -/
structure Quiet (s s' : Local) : Prop where
  period : ∀ j, (s'.sta j).startTimePeriod = (s.sta j).startTimePeriod
  reset : ∀ k time, .reset k time ∈ s'.log → .reset k time ∈ s.log

/-- The period of `j` moves on, and the counter of `k` is reset. -/
structure RotatesIn (j : StaId) (k : KeyId) (s s' : Local) : Prop where
  period : (s'.sta j).startTimePeriod ≠ (s.sta j).startTimePeriod
  reset : ∃ time, .reset k time ∈ s'.log

theorem Quiet.refl (s : Local) : Quiet s s := ⟨fun _ => rfl, fun _ _ h => h⟩

theorem Quiet.trans {s s₁ s' : Local} (h : Quiet s s₁) (h' : Quiet s₁ s') : Quiet s s' :=
  ⟨fun j => (h'.period j).trans (h.period j), fun k time hr => h.reset k time (h'.reset k time hr)⟩

theorem RotatesIn.before {s s₁ s' : Local} (h : RotatesIn j k s s')
    (hq : Quiet s₁ s') : RotatesIn j k s s₁ := by
  obtain ⟨time, htime⟩ := h.reset
  exact ⟨hq.period j ▸ h.period, time, hq.reset k time htime⟩

theorem RotatesIn.not_quiet {s s' : Local} (h : RotatesIn j k s s') :
    ¬ Quiet s s' := fun hq => h.period (hq.period j)

theorem RotatesIn.log_ne_nil {s s' : Local} (h : RotatesIn j k s s') : s'.log ≠ [] := by
  obtain ⟨time, htime⟩ := h.reset
  exact List.ne_nil_of_mem htime

variable {skb : TxSkb}

section Quiet

variable {C : Crypto} {env : TxEnv} {s s' : Local}

theorem PlainWrites.quiet (h : PlainWrites (fun _ => True) s s') : Quiet s s' := by
  induction h with
  | refl => exact .refl s
  | tail _ hw ih =>
    refine ih.trans ?_
    cases hw with
    | draw k hk =>
      refine ⟨fun _ => rfl, fun k' time hr => ?_⟩
      rcases List.mem_cons.mp hr with hc | hr
      · cases hc
      · exact hr
    | sta j f hf =>
      refine ⟨fun j' => ?_, fun _ _ hr => hr⟩
      by_cases hj : j' = j
      · rw [hj, Local.updSta_sta_self]
        exact (congrArg StaInfo.startTimePeriod (hf _) :)
      · rw [Local.updSta_sta_of_ne _ hj]
    | _ => exact ⟨fun _ => rfl, fun _ _ hr => hr⟩

theorem Hands.quiet {path : Egress} (h : Hands path s s') : Quiet s s' := by
  induction h with
  | refl => exact .refl s
  | tail _ hh ih =>
    refine ih.trans ?_
    cases hh with
    | park p => exact ⟨fun _ => rfl, fun _ _ hr => hr⟩
    | _ =>
      refine ⟨fun _ => rfl, fun k time hr => ?_⟩
      rcases List.mem_cons.mp hr with hc | hr
      · cases hc
      · exact hr

theorem invokeTxHandlersLate_quiet {sha1 : List UInt8 → Vector UInt8 20} {tx : TxData}
    {r : Option (List TxSkb)} (h : invokeTxHandlersLate sha1 C env s tx skb = some (s', r)) :
    Quiet s s' ∨ skb.info.retransmission = false ∧
      ∃ s₁, handleRandomMac sha1 env.gen env.insert tx.sta s = some s₁ ∧ Quiet s₁ s' := by
  rcases invokeTxHandlersLate_plain (fun _ _ => trivial) h with rfl | ⟨hre, s₁, hs₁, hplain⟩
  · exact .inl (.refl _)
  · exact .inr ⟨hre, s₁, hs₁, hplain.quiet⟩

end Quiet

/-! ### Which rotation it was -/

variable {sta : Option StaId}

section Inversion

variable {sha1 : List UInt8 → Vector UInt8 20} {env : GenEnv} {s s' : Local}

theorem setTxPn?_sta (s : Local) (p : Option KeyId) (pn : ℕ) : (s.setTxPn? p pn).sta = s.sta := by
  cases p <;> rfl

theorem generateMacAddApStep_sta {tp : ℕ} {st st' : Local × List UInt8}
    (h : generateMacAddApStep sha1 env tp st j = some st') : st'.1.sta = st.1.sta := by
  rw [generateMacAddApStep] at h
  split at h
  · cases h
  · cases h
    exact setTxPn?_sta _ _ _

theorem generateMacAddApAll_sta {tp : ℕ} (h : generateMacAddApAll sha1 env tp s = some s') :
    s'.sta = s.sta := by
  have hloop : ∀ (js : List StaId) {st st' : Local × List UInt8},
      js.foldlM (generateMacAddApStep sha1 env tp) st = some st' → st'.1.sta = st.1.sta := by
    intro js
    induction js with
    | nil =>
      intro st st' h
      cases h
      rfl
    | cons j js ih =>
      intro st st' h
      rw [List.foldlM_cons] at h
      obtain ⟨st₁, h₁, h₂⟩ := bind_eq_some_iff.mp h
      exact (ih h₂).trans (generateMacAddApStep_sta h₁)
  rw [generateMacAddApAll] at h
  split at h
  · obtain ⟨st, hst, rfl⟩ := map_eq_some_iff.mp h
    exact hloop s.staList hst
  · cases h
    rfl

/-- The rotation for `j` is the one in which `handle_random_mac` is called for `j`, and in which
memory is found. -/
theorem eq_of_rotatesIn (hlog : s.log = [])
    (h : handleRandomMac sha1 env ok sta s = some s') (hrot : RotatesIn j k s s') :
    sta = some j ∧ env.alloc = true := by
  have hsta : s'.sta ≠ s.sta := fun heq => hrot.period (by rw [heq])
  have hlog' : s'.log ≠ s.log := fun heq => hrot.log_ne_nil (heq.trans hlog)
  cases sta with
  | none =>
    cases h
    exact absurd rfl hsta
  | some j' =>
    rw [handleRandomMac] at h
    split at h
    · split at h
      · rw [handleRandomMacAp] at h
        split at h
        · cases h
          exact absurd rfl hsta
        · split at h
          · obtain ⟨s₁, hs₁, rfl⟩ := map_eq_some_iff.mp h
            exact absurd (generateMacAddApAll_sta hs₁) hsta
          · cases h
            exact absurd rfl hsta
      · rw [handleRandomMacSta] at h
        split at h
        · cases h
          exact absurd rfl hlog'
        · split at h
          · obtain ⟨s₁, hs₁, rfl⟩ := map_eq_some_iff.mp h
            rw [generateMacAddSta] at hs₁
            split at hs₁
            · rename_i halloc
              refine ⟨?_, halloc⟩
              by_contra hne
              have hj : j ≠ j' := fun hc => hne (by rw [hc])
              refine hrot.period ?_
              simp only at hs₁
              split at hs₁
              · cases hs₁
              · cases hs₁
                rw [Local.updSta_sta_of_ne _ hj]
                rfl
            · cases hs₁
              exact absurd rfl hlog'
          · cases h
            exact absurd rfl hsta
      · cases h
        exact absurd rfl hsta
    · cases h
      exact absurd rfl hsta

end Inversion

/-! ### Both runs, up to the rotation -/

/-- Two states right before a rotation, that differ in what it overwrites only. -/
structure AtRotation (j : StaId) (k : KeyId) (s t : Local) : Prop where
  same : forgetRotated j k s = forgetRotated j k t
  station : (s.sdataOf j).type = .station
  ptk : s.ptkOf j = some k
  due : rotationDue s j = true
  due' : rotationDue t j = true
  log : s.log = []

section Paths

variable {sha1 : List UInt8 → Vector UInt8 20} {C : Crypto} {env : TxEnv} {j : StaId} {k : KeyId}
  {s t s' : Local}

/-- What does not look at what the rotation overwrites, sees no difference. -/
theorem AtRotation.read {α : Type*} (h : AtRotation j k s t) (f : Local → α)
    (hf : ∀ u, f (forgetRotated j k u) = f u) : f s = f t := by
  rw [← hf s, h.same, hf t]

/-- **After the rotation both runs are in the same state.** -/
theorem AtRotation.handleRandomMac_eq (h : AtRotation j k s t) {gen : GenEnv}
    (halloc : gen.alloc = true) :
    handleRandomMac sha1 gen ok (some j) s = handleRandomMac sha1 gen ok (some j) t := by
  have htype : (t.sdataOf j).type = .station :=
    (h.read (fun u => (u.sdataOf j).type) fun _ => rfl) ▸ h.station
  have hptk : t.ptkOf j = some k := (h.read (fun u => u.ptkOf j) fun _ => rfl) ▸ h.ptk
  rw [handleRandomMac_eq_rotated sha1 gen h.due h.station h.ptk halloc,
    handleRandomMac_eq_rotated sha1 gen h.due' htype hptk halloc]
  rw [← rotated_forgetRotated, h.same, rotated_forgetRotated]

theorem AtRotation.invokeTxHandlersLate_eq (h : AtRotation j k s t) {tx : TxData}
    {r : Option (List TxSkb)} (hs : invokeTxHandlersLate sha1 C env s tx skb = some (s', r))
    (hrot : RotatesIn j k s s') : invokeTxHandlersLate sha1 C env t tx skb = some (s', r) := by
  rcases invokeTxHandlersLate_quiet hs with hq | ⟨hre, s₁, hs₁, hq⟩
  · exact absurd hq hrot.not_quiet
  · obtain ⟨hsta, halloc⟩ := eq_of_rotatesIn h.log hs₁ (hrot.before hq)
    have heq : handleRandomMac sha1 env.gen env.insert (some j) s =
        handleRandomMac sha1 env.gen env.insert (some j) t := h.handleRandomMac_eq halloc
    rw [invokeTxHandlersLate, hre, hsta] at hs ⊢
    rw [← heq]
    exact hs

theorem txHPsBuf_snd_forgetRotated (u : Local) (tx : TxData) (skb : TxSkb) :
    (txHPsBuf env (forgetRotated j k u) tx skb).2 = (txHPsBuf env u tx skb).2 := by
  rw [txHPsBuf, txHPsBuf]
  split_ifs
  · rfl
  · have hps : psSdata (forgetRotated j k u) tx.sdata = psSdata u tx.sdata := rfl
    simp only [txHMulticastPsBuf, hps]
    split
    · rfl
    · simp only [apply_ite Prod.snd]
      rfl
  · rfl
  · rfl

theorem AtRotation.invokeTxHandlersEarly_eq (h : AtRotation j k s t) {tx tx' : TxData}
    {skb skb' : TxSkb} (hs : invokeTxHandlersEarly env s tx skb = (s', some (tx', skb'))) :
    s' = s ∧ invokeTxHandlersEarly env t tx skb = (t, some (tx', skb')) := by
  refine ⟨(invokeTxHandlersEarly_frame hs).1, ?_⟩
  rw [invokeTxHandlersEarly] at hs ⊢
  split at hs
  · cases hs
  · rename_i hassoc
    rw [if_neg hassoc]
    split at hs
    · rename_i s₁ skb₁ hps
      have hpst : (txHPsBuf env t tx skb).2 = (skb₁, .txContinue) := by
        rw [← h.read (fun u => (txHPsBuf env u tx skb).2) fun u =>
          txHPsBuf_snd_forgetRotated u tx skb, hps]
      obtain ⟨t₁, ht₁⟩ : ∃ t₁, txHPsBuf env t tx skb = (t₁, skb₁, .txContinue) :=
        ⟨_, Prod.ext rfl hpst⟩
      obtain rfl := (txHPsBuf_frame hps).1
      obtain rfl := (txHPsBuf_frame ht₁).1
      have hkey : ∀ skb₂, txHSelectKey s₁ tx skb₂ = txHSelectKey t₁ tx skb₂ :=
        fun skb₂ => h.read (fun u => txHSelectKey u tx skb₂) fun _ => rfl
      rw [hkey] at hs
      rw [ht₁]
      dsimp only
      split at hs
      · cases hs
      · split at hs
        · rename_i hsel hrate
          rw [if_pos hrate, (Prod.mk.inj hs).2]
        · cases hs
    · cases hs

variable {i : SdataId}

theorem AtRotation.queueSkb_eq_none (h : AtRotation j k s t)
    (hs : queueSkb s i sta skb = none) : queueSkb t i sta skb = none := by
  have hread : (queueSkb s i sta skb).isNone = (queueSkb t i sta skb).isNone := by
    refine h.read (fun u => (queueSkb u i sta skb).isNone) fun u => ?_
    simp only [queueSkb, apply_ite Option.isNone, isNone_map]
    rfl
  rw [hs] at hread
  exact isNone_iff_eq_none.mp hread.symm

theorem AtRotation.ieee80211Tx_eq (h : AtRotation j k s t) {txpending noSeqno : Bool}
    (hs : ieee80211Tx sha1 C env i sta skb txpending noSeqno s = some s')
    (hrot : RotatesIn j k s s') :
    ieee80211Tx sha1 C env i sta skb txpending noSeqno t = some s' := by
  have hprep : txPrepare s i sta env skb = txPrepare t i sta env skb :=
    h.read (fun u => txPrepare u i sta env skb) fun _ => rfl
  rw [ieee80211Tx, hprep] at hs
  rw [ieee80211Tx]
  split at hs
  · cases hs
    exact absurd (.refl s) hrot.not_quiet
  · simp only at hs ⊢
    split at hs
    · rename_i s₁ hearly
      cases hs
      exact absurd (plain_invokeTxHandlersEarly hearly).1.quiet hrot.not_quiet
    · rename_i s₁ tx₁ skb₁ hearly
      obtain ⟨rfl, hearlyt⟩ := h.invokeTxHandlersEarly_eq hearly
      rw [hearlyt]
      dsimp only
      split at hs
      · rename_i hq
        cases hs
        exact absurd (plain_queueSkb hq).quiet hrot.not_quiet
      · rename_i hq
        rw [h.queueSkb_eq_none hq]
        dsimp only
        split at hs
        · cases hs
        · rename_i hlate
          cases hs
          rw [h.invokeTxHandlersLate_eq hlate hrot]
        · rename_i hlate
          have hrot₁ := hrot.before (hands_ieee80211Tx' hs).quiet
          rw [h.invokeTxHandlersLate_eq hlate hrot₁]
          exact hs

theorem quiet_xmitFast {j' : StaId} {f : FastTx} {eth : EthFrame}
    (h : xmitFast env i j' f eth s = some s') : Quiet s s' := by
  rw [xmitFast] at h
  simp only at h
  split at h
  · cases h
    exact .refl s
  · split at h
    · rename_i hq
      cases h
      exact (plain_queueSkb hq).quiet
    · exact (plain_xmitFastFinish s _ fun _ _ => trivial).quiet.trans (hands_txFrags _ h).quiet

theorem AtRotation.subifStartXmit_eq (h : AtRotation j k s t) {eth : EthFrame}
    (hs : subifStartXmit sha1 C env i eth s = some s') (hrot : RotatesIn j k s s') :
    subifStartXmit sha1 C env i eth t = some s' := by
  have hra : lookupRaSta env s i eth = lookupRaSta env t i eth :=
    h.read (fun u => lookupRaSta env u i eth) fun _ => rfl
  have hfast : ∀ sta : Option StaId, (sta.bind fun j => (s.sta j).fastTx.map fun f => (j, f)) =
      sta.bind fun j => (t.sta j).fastTx.map fun f => (j, f) :=
    fun sta => h.read (fun u => sta.bind fun j => (u.sta j).fastTx.map fun f => (j, f)) fun _ => rfl
  have hslow : ∀ sta, subifStartXmit.slow sha1 C env i eth s sta = some s' →
      subifStartXmit.slow sha1 C env i eth t sta = some s' := by
    intro sta hs
    have hbuild : buildHdr env s i sta eth = buildHdr env t i sta eth :=
      h.read (fun u => buildHdr env u i sta eth) fun _ => rfl
    rw [subifStartXmit.slow, hbuild] at hs
    rw [subifStartXmit.slow]
    split at hs
    · cases hs
      exact absurd (.refl s) hrot.not_quiet
    · exact h.ieee80211Tx_eq hs hrot
  rw [subifStartXmit, hra] at hs
  rw [subifStartXmit]
  split at hs
  · cases hs
    exact absurd (.refl s) hrot.not_quiet
  · rw [hfast] at hs
    split at hs
    · split at hs
      · exact absurd (quiet_xmitFast hs) hrot.not_quiet
      · rename_i haccept
        rw [if_neg haccept]
        exact hslow _ hs
    · exact hslow _ hs

theorem AtRotation.map (h : AtRotation j k s t) (g : Local → Local)
    (hg : ∀ u, forgetRotated j k (g u) = g (forgetRotated j k u))
    (hdue : ∀ u, rotationDue (g u) j = rotationDue u j)
    (htype : ∀ u, ((g u).sdataOf j).type = (u.sdataOf j).type)
    (hptk : ∀ u, (g u).ptkOf j = u.ptkOf j) (hlog : ∀ u, (g u).log = u.log) :
    AtRotation j k (g s) (g t) where
  same := by rw [hg, hg, h.same]
  station := (htype s).trans h.station
  ptk := (hptk s).trans h.ptk
  due := (hdue s).trans h.due
  due' := (hdue t).trans h.due'
  log := (hlog s).trans h.log

theorem AtRotation.txPending_eq (h : AtRotation j k s t) {q : ℕ}
    (hs : txPending sha1 C env q s = some s') (hrot : RotatesIn j k s s') :
    txPending sha1 C env q t = some s' := by
  have hstop : s.queueStopReasons q = t.queueStopReasons q :=
    h.read (fun u => u.queueStopReasons q) fun _ => rfl
  have hpending : s.pending = t.pending := h.read Local.pending fun _ => rfl
  rw [txPending] at hs ⊢
  rw [← hstop]
  split at hs
  · cases hs
    exact absurd (.refl s) hrot.not_quiet
  · rename_i hq
    rw [if_neg hq]
    split at hs
    · cases hs
      exact absurd (.refl s) hrot.not_quiet
    · rename_i skb skbs hskbs
      have h₁ := h.map (fun u => { u with pending := Function.update s.pending q skbs })
        (fun _ => rfl) (fun _ => rfl) (fun _ => rfl) (fun _ => rfl) fun _ => rfl
      have hrot₁ : RotatesIn j k { s with pending := Function.update s.pending q skbs } s' :=
        ⟨hrot.period, hrot.reset⟩
      rw [← hpending, hskbs]
      dsimp only
      rw [txPendingSkb] at hs ⊢
      split_ifs at hs ⊢
      · exact h₁.ieee80211Tx_eq hs hrot₁
      · cases hs
        exact absurd (.refl _) hrot₁.not_quiet
      · exact absurd (hands_ieee80211Tx' hs).quiet hrot₁.not_quiet

theorem AtRotation.txDequeue_eq (h : AtRotation j k s t) {q : Txq} {n : ℕ}
    (hs : txDequeue sha1 C env q n s = some s') (hrot : RotatesIn j k s s') :
    txDequeue sha1 C env q n t = some s' := by
  have hfrags : s.txqFrags = t.txqFrags := h.read Local.txqFrags fun _ => rfl
  have htxq : s.txq = t.txq := h.read Local.txq fun _ => rfl
  have h₁ := h.map (fun u => u.eraseTxq q n) (fun _ => rfl) (fun _ => rfl) (fun _ => rfl)
    (fun _ => rfl) fun _ => rfl
  have hrot₁ : RotatesIn j k (s.eraseTxq q n) s' := ⟨hrot.period, hrot.reset⟩
  rw [txDequeue] at hs ⊢
  rw [← hfrags, ← htxq]
  split at hs
  · cases hs
    refine absurd ⟨fun _ => rfl, fun k' time hr => ?_⟩ hrot.not_quiet
    rcases List.mem_cons.mp hr with hc | hr
    · cases hc
    · exact hr
  · split at hs
    · cases hs
      exact absurd (.refl s) hrot.not_quiet
    · rename_i skb hskb
      have hdrop : (q.sta.any fun j' => dropsUnauth (s.eraseTxq q n) j' skb) =
          q.sta.any fun j' => dropsUnauth (t.eraseTxq q n) j' skb :=
        h₁.read (fun u => q.sta.any fun j' => dropsUnauth u j' skb) fun _ => rfl
      have hsel : ∀ tx, txHSelectKey (s.eraseTxq q n) tx skb =
          txHSelectKey (t.eraseTxq q n) tx skb :=
        fun tx => h₁.read (fun u => txHSelectKey u tx skb) fun _ => rfl
      dsimp only at hs ⊢
      rw [← hdrop, ← hsel]
      split at hs
      · cases hs
        exact absurd (.refl _) hrot₁.not_quiet
      · rename_i hpass
        rw [if_neg hpass]
        split at hs
        · cases hs
          exact absurd (.refl _) hrot₁.not_quiet
        · rename_i tx₂ skb₂ hsel₂
          split at hs
          · have hq := (plain_xmitFastFinish (s.eraseTxq q n) _ fun _ _ => trivial).quiet.trans
              (hands_handOver (by decide) hs).quiet
            exact absurd hq hrot₁.not_quiet
          · cases hs
          · rename_i hslow
            split at hs
            · rename_i s₃ skb₃ skbs₃ hlate
              have hq : Quiet s₃ s' := by
                have hhand := (hands_handOver (by decide) hs).quiet
                exact ⟨hhand.period, hhand.reset⟩
              rw [h₁.invokeTxHandlersLate_eq hlate (hrot₁.before hq)]
              exact hs
            · rename_i hother
              obtain ⟨⟨s₃, r₃⟩, hlate, rfl⟩ := map_eq_some_iff.mp hs
              rw [h₁.invokeTxHandlersLate_eq hlate hrot₁]
              rcases r₃ with _ | _ | ⟨skb₃, skbs₃⟩
              · rfl
              · rfl
              · exact (hother _ _ _ hlate).elim

theorem updSdata_bcBuf (u : Local) (i : SdataId) (buf : List TxSkb) :
    (u.updSdata i fun d => { d with bcBuf := buf }) = { u with
      sdata := fun i' => { u.sdata i' with
        bcBuf := if i' = i then buf else (u.sdata i').bcBuf } } := by
  rw [Local.updSdata]
  congr 1
  funext i'
  by_cases hi : i' = i
  · rw [hi, update_self, if_pos rfl]
  · rw [update_of_ne hi, if_neg hi]

theorem AtRotation.takeBc_eq (h : AtRotation j k s t) {i dev : SdataId} {s₁ : Local}
    (hs : takeBc s i = some (s₁, dev, skb)) :
    ∃ t₁, takeBc t i = some (t₁, dev, skb) ∧ AtRotation j k s₁ t₁ ∧ s₁.sta = s.sta := by
  have hbuf : (s.sdata i).bcBuf = (t.sdata i).bcBuf :=
    h.read (fun u => (u.sdata i).bcBuf) fun _ => rfl
  have htype : (s.sdata i).type = (t.sdata i).type :=
    h.read (fun u => (u.sdata i).type) fun _ => rfl
  rw [takeBc, hbuf, htype] at hs
  rw [takeBc]
  split at hs
  · cases hs
  · rename_i skb₀ skbs _
    obtain ⟨rfl, heq⟩ := Prod.mk.inj (some.inj hs)
    cases heq
    refine ⟨_, rfl, ?_, rfl⟩
    rw [updSdata_bcBuf, updSdata_bcBuf]
    exact h.map (fun u => { u with
      sdata := fun i' => { u.sdata i' with
        bcBuf := if i' = i then skbs else (u.sdata i').bcBuf } })
      (fun _ => rfl) (fun _ => rfl) (fun _ => rfl) (fun _ => rfl) fun _ => rfl

theorem AtRotation.getBufferedBc_eq (h : AtRotation j k s t)
    (hs : getBufferedBc sha1 C env i s = some s') (hrot : RotatesIn j k s s') :
    getBufferedBc sha1 C env i t = some s' := by
  have htype : (s.sdata i).type = (t.sdata i).type :=
    h.read (fun u => (u.sdata i).type) fun _ => rfl
  rw [getBufferedBc] at hs ⊢
  rw [← htype]
  split at hs
  · cases hs
    exact absurd (.refl s) hrot.not_quiet
  · rename_i hap
    rw [if_neg hap]
    split at hs
    · cases hs
      exact absurd (.refl s) hrot.not_quiet
    · rename_i s₁ dev skb htake
      obtain ⟨t₁, htaket, h₁, hsta⟩ := h.takeBc_eq htake
      have hrot₁ : RotatesIn j k s₁ s' := ⟨by rw [hsta]; exact hrot.period, hrot.reset⟩
      have hprep : txPrepare s₁ dev none env skb = txPrepare t₁ dev none env skb :=
        h₁.read (fun u => txPrepare u dev none env skb) fun _ => rfl
      rw [htaket]
      dsimp only
      rw [← hprep]
      split at hs
      · cases hs
        exact absurd (.refl _) hrot₁.not_quiet
      · split at hs
        · rename_i hearly
          cases hs
          exact absurd (plain_invokeTxHandlersEarly hearly).1.quiet hrot₁.not_quiet
        · rename_i s₂ tx₂ skb₂ hearly
          obtain ⟨rfl, hearlyt⟩ := h₁.invokeTxHandlersEarly_eq hearly
          rw [hearlyt]
          dsimp only
          split at hs
          · rename_i s₃ skb₃ skbs₃ hlate
            cases hs
            have hhand : Hands .getBufferedBc s₃ _ := .single (.handOver s₃ .getBufferedBc i tx₂.sta skb₃ (by decide))
            rw [h₁.invokeTxHandlersLate_eq hlate (hrot₁.before hhand.quiet)]
          · rename_i hother
            obtain ⟨⟨s₃, r₃⟩, hlate, rfl⟩ := map_eq_some_iff.mp hs
            rw [h₁.invokeTxHandlersLate_eq hlate hrot₁]
            rcases r₃ with _ | _ | ⟨skb₃, skbs₃⟩
            · rfl
            · rfl
            · exact (hother _ _ _ hlate).elim

theorem macAddrChangeHdrRx_sta {gen : GenEnv} {hdr hdr' : Hdr}
    (h : macAddrChangeHdrRx sha1 gen s hdr = some (s', hdr')) : s'.sta = s.sta := by
  rw [macAddrChangeHdrRx] at h
  split at h
  · cases h
    rfl
  · obtain ⟨s₁, hs₁, heq⟩ := map_eq_some_iff.mp h
    cases heq
    rw [rxRotate] at hs₁
    split at hs₁
    · cases hs₁
      rfl
    · split at hs₁
      · obtain ⟨s₂, hs₂, rfl⟩ := map_eq_some_iff.mp hs₁
        exact (generateMacAddApAll_sta hs₂ :)
      · cases hs₁
        rfl
  · cases h
    rfl

/-- **A step that rotates in one run does the same in the other.** -/
theorem AtRotation.handle_eq (h : AtRotation j k s t) {e : Event}
    (hs : s.handle sha1 C e = some s') (hrot : RotatesIn j k s s') :
    t.handle sha1 C e = some s' := by
  have hlog : s'.log ≠ s.log := fun heq => hrot.log_ne_nil (heq.trans h.log)
  have hifs : s.interfaces = t.interfaces := h.read Local.interfaces fun _ => rfl
  have hstas : s.staList = t.staList := h.read Local.staList fun _ => rfl
  cases he : e.changesConfig with
  | true => exact absurd (configured_handle he hs).log hlog
  | false =>
    cases e with
    | xmit env i sta skb noSeqno =>
      rw [Local.handle] at hs ⊢
      rw [← hifs, ← hstas]
      split at hs
      · rename_i hex
        rw [if_pos hex]
        exact h.ieee80211Tx_eq hs hrot
      · cases hs
    | startXmit env i eth =>
      rw [Local.handle] at hs ⊢
      rw [← hifs]
      split at hs
      · rename_i hex
        rw [if_pos hex]
        exact h.subifStartXmit_eq hs hrot
      · cases hs
    | txPending env q => exact h.txPending_eq hs hrot
    | txDequeue env q n => exact h.txDequeue_eq hs hrot
    | getBufferedBc env i => exact h.getBufferedBc_eq hs hrot
    | rx env hdr =>
      obtain ⟨⟨s₁, hdr₁⟩, hrx, rfl⟩ := map_eq_some_iff.mp hs
      exact absurd (congrArg StaInfo.startTimePeriod (congrFun (macAddrChangeHdrRx_sta hrx) j))
        hrot.period
    | tick n | addPending skb | purge q n | purgeBc i | startAp i =>
      cases hs
      exact absurd rfl hlog
    | _ => cases he

end Paths

/-! ### Frames after the rotation -/

/-- The counters that can be read off a frame: the sequence number, and the packet number in the
cipher header of a protected one. -/
def Hdr.counters (h : Hdr) : UInt16 × Option Pn :=
  (h.seqCtrl, if hasProtected h.frameControl then some (hdr2pn h.body) else none)

/-- The counters of the frames in a history. -/
def sentCounters (os : List Logged) : List (UInt16 × Option Pn) :=
  os.filterMap fun
    | .handed _ _ _ skb => some skb.hdr.counters
    | _ => none

section Runs

variable {sha1 : List UInt8 → Vector UInt8 20} {C : Crypto} {j : StaId} {k : KeyId}
  {s t s₁ : Local} {e₀ : Event} {o : List Logged}

theorem Twins.atRotation (h : Twins j k s t) (hl : leftovers j k s = leftovers j k t) :
    AtRotation j k { s with log := [] } { t with log := [] } where
  same := forgetRotated_eq h.past hl
  station := h.station
  ptk := h.ptk
  due := h.due
  due' := h.due'
  log := rfl

/-- **Counters do not link the frames before a rotation to those after it**, if what it does not
overwrite is the same in both runs: all frames from its step on have the same counters. -/
theorem sentCounters_eq_of_twins (h : Twins j k s t) (hl : leftovers j k s = leftovers j k t)
    (hstep : deviceStep sha1 C s e₀ = some (s₁, o)) (hrot : RotatesIn j k s s₁) (es : List Event) :
    (run (deviceStep sha1 C) s (e₀ :: es)).map (fun r => sentCounters r.2) =
      (run (deviceStep sha1 C) t (e₀ :: es)).map fun r => sentCounters r.2 := by
  have hstept : deviceStep sha1 C t e₀ = some (s₁, o) := by
    obtain ⟨s₂, hs₂, heq⟩ := map_eq_some_iff.mp hstep
    cases heq
    rw [deviceStep, (h.atRotation hl).handle_eq hs₂ ⟨hrot.period, hrot.reset⟩]
    rfl
  rw [run, run, hstep, hstept]

end Runs

/-! ### One frame more, or less -/

/-- A station's own interface, and the AP it is associated with. -/
def stationEvents : List Event :=
  .addInterface 0 { type := .station, addr := toyMac 2, bssid := toyMac 1 } ::
    setupSta 0 0 (toyMac 1) 0

/-- A frame of the station, with this subtype and body. -/
def dataToAp (subtype : UInt16) (body : List UInt8) : Event :=
  .xmit {} 0 (some 0)
    { hdr := ⟨FTYPE_DATA ||| subtype ||| FCTL_TODS, 0, toyMac 1, toyMac 2, toyMac 9, 0, body⟩ } false

/-- A QoS frame. -/
def qosToAp : Event := dataToAp STYPE_QOS_DATA [0, 0, 1, 2, 3]

/-- The state is one of station 0 with its key, and a rotation takes place in the step. -/
def rotationSeen (s : Local) (e : Event) : Option (Bool × List (UInt16 × Option Pn)) :=
  (deviceStep toyHash toyCrypto s e).map fun r =>
    (rotationDue s 0 && (s.sdataOf 0).type = .station && s.ptkOf 0 = some 0 &&
      (r.1.sta 0).startTimePeriod ≠ (s.sta 0).startTimePeriod && r.1.log.any fun
        | .reset 0 _ => true
        | _ => false, sentCounters r.2)

theorem rotationSeen_eq_some {s : Local} {e : Event} {seen : Bool × List (UInt16 × Option Pn)}
    (h : rotationSeen s e = some seen) (hseen : seen.1 = true) :
    ∃ s₁ o, deviceStep toyHash toyCrypto s e = some (s₁, o) ∧ rotationDue s 0 = true ∧
      (s.sdataOf 0).type = .station ∧ s.ptkOf 0 = some 0 ∧ RotatesIn 0 0 s s₁ ∧
      sentCounters o = seen.2 := by
  obtain ⟨⟨s₁, o⟩, hstep, rfl⟩ := map_eq_some_iff.mp h
  simp only [Bool.and_eq_true, decide_eq_true_eq] at hseen
  obtain ⟨⟨⟨⟨hdue, htype⟩, hptk⟩, hperiod⟩, hany⟩ := hseen
  obtain ⟨l, hmem, hl⟩ := List.any_eq_true.mp hany
  refine ⟨s₁, o, hstep, hdue, htype, hptk, ⟨hperiod, ?_⟩, rfl⟩
  split at hl
  · exact ⟨_, hmem⟩
  · cases hl

/-- The per-TID sequence number goes on as without a rotation: one frame more before it shows in the
first one after it. -/
theorem tid_seq_survives_rotation : ∃ s t os os' s₁ t₁ o o',
      Reach (deviceStep toyHash toyCrypto) (fun _ _ _ => True) (bootLocal {}) s os ∧
      Reach (deviceStep toyHash toyCrypto) (fun _ _ _ => True) (bootLocal {}) t os' ∧
      Twins 0 0 s t ∧
      deviceStep toyHash toyCrypto s qosToAp = some (s₁, o) ∧ RotatesIn 0 0 s s₁ ∧
      deviceStep toyHash toyCrypto t qosToAp = some (t₁, o') ∧ RotatesIn 0 0 t t₁ ∧
      sentCounters o ≠ sentCounters o' := by
  have hrun : (run (deviceStep toyHash toyCrypto) (bootLocal {}) (stationEvents ++ [qosToAp])).bind
      (fun r => (run (deviceStep toyHash toyCrypto) r.1 [.tick 15]).bind fun a =>
        (run (deviceStep toyHash toyCrypto) r.1 [qosToAp, .tick 15]).bind fun b =>
          (rotationSeen a.1 qosToAp).bind fun x => (rotationSeen b.1 qosToAp).map fun y =>
            (x.1 && y.1, decide (a.1.now = b.1.now), decide (x.2 = y.2))) =
      some (true, true, false) := by
    decide +kernel
  obtain ⟨⟨s₀, os₀⟩, hr, hrun⟩ := bind_eq_some_iff.mp hrun
  obtain ⟨⟨s, os⟩, hs, hrun⟩ := bind_eq_some_iff.mp hrun
  obtain ⟨⟨t, os'⟩, ht, hrun⟩ := bind_eq_some_iff.mp hrun
  obtain ⟨x, hx, hrun⟩ := bind_eq_some_iff.mp hrun
  obtain ⟨y, hy, heq⟩ := map_eq_some_iff.mp hrun
  obtain ⟨hseen, heq⟩ := Prod.mk.inj heq
  obtain ⟨hnow, hne⟩ := Prod.mk.inj heq
  obtain ⟨hseen, hseen'⟩ := Bool.and_eq_true_iff.mp hseen
  obtain ⟨s₁, o, hstep, hdue, htype, hptk, hrot, hcs⟩ := rotationSeen_eq_some hx hseen
  obtain ⟨t₁, o', hstep', hdue', -, -, hrot', hcs'⟩ := rotationSeen_eq_some hy hseen'
  have hpast : forgetPast s = forgetPast t :=
    forgetPast_eq_of_runs (by decide) (by decide) hs ht (of_decide_eq_true hnow)
  have hreach := Reach.of_run_init hr
  refine ⟨s, t, _, _, s₁, t₁, o, o',
    hreach.of_run (meets_of_forall _ _ _ fun _ _ _ _ => trivial) hs,
    hreach.of_run (meets_of_forall _ _ _ fun _ _ _ _ => trivial) ht,
    ⟨hpast, htype, hptk, hdue, hdue'⟩, hstep, hrot, hstep', hrot', ?_⟩
  rw [hcs, hcs']
  exact of_decide_eq_false hne

/-- As if seven frames without a TID had been sent on interface 0 with key 0. -/
def sevenMore (s : Local) : Local :=
  { s with
    keys := fun k => { s.keys k with txPn := if k = 0 then 7 else (s.keys k).txPn }
    sdata := fun i => { s.sdata i with
      sequenceNumber := if i = 0 then 0x70 else (s.sdata i).sequenceNumber } }

theorem leftovers_sevenMore {s : Local} (h : (s.sta 0).sdata = 0) :
    leftovers 0 0 s = leftovers 0 0 (sevenMore s) := by
  rw [leftovers, leftovers]
  congr 1
  · funext k'
    simp only [sevenMore]
    split <;> rfl
  · funext i
    simp only [sevenMore, h]
    split <;> rfl

/-- Frames without a TID that were sent before the rotation do not show. -/
theorem sentCounters_eq_seven_more :
    ∃ s t os s₁ o, Reach (deviceStep toyHash toyCrypto) (fun _ _ _ => True) (bootLocal {}) s os ∧
      Twins 0 0 s t ∧ leftovers 0 0 s = leftovers 0 0 t ∧
      (s.sdata 0).sequenceNumber ≠ (t.sdata 0).sequenceNumber ∧
      deviceStep toyHash toyCrypto s qosToAp = some (s₁, o) ∧ RotatesIn 0 0 s s₁ ∧
      (run (deviceStep toyHash toyCrypto) s [qosToAp, qosToAp]).map (fun r => sentCounters r.2) =
        (run (deviceStep toyHash toyCrypto) t [qosToAp, qosToAp]).map fun r => sentCounters r.2 := by
  have hrun : (run (deviceStep toyHash toyCrypto) (bootLocal {})
      (stationEvents ++ [qosToAp, .tick 15])).bind
      (fun r => (rotationSeen r.1 qosToAp).map fun x =>
        (x.1, decide ((r.1.sta 0).sdata = 0), (r.1.sdata 0).sequenceNumber)) =
      some (true, true, 0) := by
    decide +kernel
  obtain ⟨⟨s, os⟩, hr, hrun⟩ := bind_eq_some_iff.mp hrun
  obtain ⟨x, hx, heq⟩ := map_eq_some_iff.mp hrun
  obtain ⟨hseen, heq⟩ := Prod.mk.inj heq
  obtain ⟨hsdata, hseq⟩ := Prod.mk.inj heq
  obtain ⟨s₁, o, hstep, hdue, htype, hptk, hrot, hcs⟩ := rotationSeen_eq_some hx hseen
  have htwins : Twins 0 0 s (sevenMore s) := ⟨rfl, htype, hptk, hdue, hdue⟩
  have hleft := leftovers_sevenMore (of_decide_eq_true hsdata)
  refine ⟨s, sevenMore s, os, s₁, o, Reach.of_run_init hr, htwins, hleft, ?_, hstep, hrot,
    sentCounters_eq_of_twins htwins hleft hstep hrot [qosToAp]⟩
  have hmore : ((sevenMore s).sdata 0).sequenceNumber = 0x70 := rfl
  rw [hmore, show (s.sdata 0).sequenceNumber = 0 from hseq]
  decide

end Mac80211
