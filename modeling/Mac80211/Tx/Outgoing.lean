import Mac80211.Tx.FastPath

/-!
# Up to the loop

Between two fragments `ieee80211_tx_frags` gives back the lock. The paths are cut here where its
loop begins: what comes before runs as in `Paths`, and the loop is a sequence of iterations, each of
which can wait.

## Main results

* `prepare_train`
-/

namespace Mac80211

open Option

/-! ### The loop -/

/-- The arguments of `ieee80211_tx_frags`. -/
structure Outgoing where
  vif : Option SdataId
  sta : Option StaId
  skbs : List TxSkb

/-- What happens in one iteration. -/
inductive Iteration
  /-- What is left goes to the pending queue. -/
  | park (q : ℕ)
  | drop
  /-- `drv_tx`. -/
  | send (v : SdataId)
  /-- A null pointer. -/
  | fault

/-- The head of the loop of `ieee80211_tx_frags`. -/
def iteration (s : Local) (vif : Option SdataId) (txpending : Bool) (skb : TxSkb) : Iteration :=
  let q := skb.info.hwQueue
  if queueBlocked s txpending q && !skb.info.offchanTxOk then .park q
  else if skb.info.offchanTxOk && stoppedOnChannel s q then .drop
  else
    match vif with
    | none => .fault
    | some v => .send v

/-- `__ieee80211_tx`, up to the loop. -/
def outgoing (sta : Option StaId) (skbs : List TxSkb) (s : Local) : Option Outgoing :=
  match skbs with
  | [] => none
  | skb :: _ =>
    (driverVif s skb.info.vif).map fun vif => ⟨vif, sta.filter fun j => (s.sta j).uploaded, skbs⟩

/-! ### Before the loop -/

/-- `ieee80211_tx`, up to the late handlers: the state, and what they get. -/
def lateInput (env : TxEnv) (i : SdataId) (sta : Option StaId) (skb : TxSkb) (noSeqno : Bool) (s : Local) :
    Local × Option (TxData × TxSkb) :=
  match txPrepare s i sta env skb with
  | none => (s, none)
  | some (tx, skb) =>
    let tx := { tx with noSeqno := noSeqno }
    let skb := { skb with info := { skb.info with hwQueue := env.hwQueue } }
    match invokeTxHandlersEarly env s tx skb with
    | (s, none) => (s, none)
    | (s, some (tx, skb)) =>
      match queueSkb s i tx.sta skb with
      | some s => (s, none)
      | none => (s, some (tx, skb))

section

variable (sha1 : List UInt8 → Vector UInt8 20) (C : Crypto)

/-- `ieee80211_tx`. -/
def ieee80211TxOut (env : TxEnv) (i : SdataId) (sta : Option StaId) (skb : TxSkb) (noSeqno : Bool)
    (s : Local) : Option (Local × Option Outgoing) :=
  match lateInput env i sta skb noSeqno s with
  | (s, none) => some (s, none)
  | (s, some (tx, skb)) =>
    (invokeTxHandlersLate sha1 C env s tx skb).map fun (s, skbs) => (s, skbs.bind fun skbs => outgoing tx.sta skbs s)

/-- `ieee80211_xmit`. -/
def ieee80211XmitOut (env : TxEnv) (i : SdataId) (sta : Option StaId) (skb : TxSkb) (noSeqno : Bool)
    (s : Local) : Option (Local × Option Outgoing) :=
  ieee80211TxOut sha1 C env i sta (setQosHdr { skb with info := { skb.info with vif := i } }) noSeqno s

/-- A round of `ieee80211_tx_pending`. -/
def txPendingOut (env : TxEnv) (q : ℕ) (s : Local) : Option (Local × Option Outgoing) :=
  if s.queueStopReasons q ≠ 0 then some (s, none)
  else
    match s.pending q with
    | [] => some (s, none)
    | skb :: skbs =>
      let s := { s with pending := Function.update s.pending q skbs }
      if skb.info.needTxprocessing then
        if env.chanctx then ieee80211TxOut sha1 C env skb.info.vif none skb false s else some (s, none)
      else some (s, outgoing (staInfoGet s skb.info.vif skb.hdr.addr1) [skb] s)

/-- `ieee80211_xmit_fast`. -/
def xmitFastOut (env : TxEnv) (i : SdataId) (j : StaId) (f : FastTx) (eth : EthFrame) (s : Local) :
    Local × Option Outgoing :=
  let skb : TxSkb := {
    hdr := f.build eth
    info := { vif := i, dontfrag := true, ampdu := env.ampdu, fastXmit := true }
    priority := eth.priority }
  if !env.rateCtrl then (s, none)
  else
    match queueSkb s i (some j) skb with
    | some s => (s, none)
    | none =>
      let (s, skb) := xmitFastFinish s i j f.pnOffs f.key env.hwQueue skb
      let vif := if (s.sdata i).type = .apVlan then (s.sdata i).bss else some i
      (s, some ⟨vif, some j, [skb]⟩)

/-- `__ieee80211_subif_start_xmit`. -/
def subifStartXmitOut (env : TxEnv) (i : SdataId) (eth : EthFrame) (s : Local) :
    Option (Local × Option Outgoing) :=
  match lookupRaSta env s i eth with
  | none => some (s, none)
  | some sta =>
    match sta.bind fun j => (s.sta j).fastTx.map fun f => (j, f) with
    | some (j, f) =>
      if xmitFastAccepts env f eth then some (xmitFastOut env i j f eth s)
      else slow sta
    | none => slow sta
where
  slow (sta : Option StaId) : Option (Local × Option Outgoing) :=
    match buildHdr env s i sta eth with
    | none => some (s, none)
    | some skb => ieee80211XmitOut sha1 C env i sta skb false s

/-- An event, up to the loop. -/
def Local.prepare (s : Local) : Event → Option (Local × Option Outgoing)
  | .xmit env i sta skb noSeqno =>
    if i ∈ s.interfaces ∧ sta.all (fun j => j ∈ s.staList) then
      ieee80211XmitOut sha1 C env i sta skb noSeqno s
    else none
  | .startXmit env i eth =>
    if i ∈ s.interfaces then subifStartXmitOut sha1 C env i eth s else none
  | .txPending env q => txPendingOut sha1 C env q s
  | e => (s.handle sha1 C e).map fun s => (s, none)

end

/-- The frames of the event come from a pending queue. -/
def Event.txpending : Event → Bool
  | .txPending .. => true
  | _ => false

/-! ### Rotations -/

/-- The late handlers, called with this, find that a rotation is due. -/
def lateRotates (s : Local) (r : Option (TxData × TxSkb)) : Bool :=
  r.any fun (tx, skb) => !skb.info.retransmission && tx.sta.any (rotationDue s)

/-- `ieee80211_tx_dequeue`, up to the late handlers. -/
def dequeueInput (env : TxEnv) (q : Txq) (n : ℕ) (s : Local) : Option (TxData × TxSkb) :=
  match s.txqFrags q with
  | _ :: _ => none
  | [] =>
    match (s.txq q)[n]? with
    | none => none
    | some skb =>
      let s := s.eraseTxq q n
      if q.sta.any fun j => dropsUnauth s j skb then none
      else
        match txHSelectKey s { sdata := skb.info.vif, sta := q.sta } skb with
        | none => none
        | some (tx, skb) =>
          if skb.info.fastXmit then none
          else some (tx, { skb with info := { skb.info with ampdu := env.ampdu } })

/-- `ieee80211_get_buffered_bc`, up to the late handlers. -/
def bufferedInput (env : TxEnv) (i : SdataId) (s : Local) : Option (TxData × TxSkb) :=
  if (s.sdata i).type ≠ .ap && (s.sdata i).type ≠ .meshPoint then none
  else
    match takeBc s i with
    | none => none
    | some (s, dev, skb) =>
      match txPrepare s dev none env skb with
      | none => none
      | some (tx, skb) => (invokeTxHandlersEarly env s { tx with psBuffered := true } skb).2

/-- A frame from the network stack takes the fast path. -/
def goesFast (env : TxEnv) (s : Local) (sta : Option StaId) (eth : EthFrame) : Bool :=
  match sta.bind fun j => (s.sta j).fastTx.map fun f => (j, f) with
  | some (_, f) => xmitFastAccepts env f eth
  | none => false

/-- What the late handlers get in an event, if they are called. -/
def Local.lateFrame (s : Local) : Event → Option (TxData × TxSkb)
  | .xmit env i sta skb noSeqno =>
    (lateInput env i sta (setQosHdr { skb with info := { skb.info with vif := i } }) noSeqno s).2
  | .startXmit env i eth =>
    match lookupRaSta env s i eth with
    | none => none
    | some sta =>
      if goesFast env s sta eth then none
      else
        match buildHdr env s i sta eth with
        | none => none
        | some skb =>
          (lateInput env i sta (setQosHdr { skb with info := { skb.info with vif := i } }) false s).2
  | .txPending env q =>
    if s.queueStopReasons q ≠ 0 then none
    else
      match s.pending q with
      | [] => none
      | skb :: skbs =>
        if skb.info.needTxprocessing && env.chanctx then
          (lateInput env skb.info.vif none skb false
            { s with pending := Function.update s.pending q skbs }).2
        else none
  | .txDequeue env q n => dequeueInput env q n s
  | .getBufferedBc env i => bufferedInput env i s
  | _ => none

/-- The event generates new addresses: in `handle_random_mac`, or in `mac_addr_change_hdr_rx`. -/
def Local.rotates (s : Local) : Event → Bool
  | .rx _ _ => whichInstance s = .ap &&
      (getApSdata s).any fun i => s.currentTp ≠ (s.sdata i).startTimePeriod
  | e => lateRotates s (s.lateFrame e)

/-- Frames go out on the interfaces they went out on before, and without a rotation with the same
addresses. -/
structure Steady (rotates : Bool) (s s' : Local) : Prop where
  vif : ∀ i, driverVif s' i = driverVif s i
  out : rotates = false → ∀ v, outMac s' v = outMac s v

variable {eth : EthFrame} {e : Event} {j : StaId}

section Steady

variable {sha1 : List UInt8 → Vector UInt8 20} {C : Crypto} {env : TxEnv} {s s₁ s' : Local} {r : Bool}

theorem SameTables.steady (h : SameTables s s') : Steady r s s' := ⟨h.vif, fun _ => h.outMac_eq⟩

theorem Steady.refl (s : Local) : Steady r s s := (SameTables.refl s).steady

theorem Steady.trans (h : Steady r s s₁) (h' : Steady r s₁ s') : Steady r s s' :=
  ⟨fun i => (h'.vif i).trans (h.vif i), fun hr v => (h'.out hr v).trans (h.out hr v)⟩

theorem steady_handleRandomMac {gen : GenEnv} {ok : Bool} {sta : Option StaId}
    (h : handleRandomMac sha1 gen ok sta s = some s') : Steady (sta.any (rotationDue s)) s s' := by
  refine ⟨(writes_handleRandomMac h).writes.driverVif_eq, ?_⟩
  intro hdue v
  cases sta with
  | none =>
    cases h
    rfl
  | some j => exact outMac_of_not_rotationDue hdue h v

theorem steady_invokeTxHandlersLate {tx : TxData} {skb : TxSkb} {skbs : Option (List TxSkb)}
    (h : invokeTxHandlersLate sha1 C env s tx skb = some (s', skbs)) :
    Steady (lateRotates s (some (tx, skb))) s s' := by
  rw [invokeTxHandlersLate] at h
  split at h
  · cases h
    exact .refl s
  · rename_i hre
    have hrotates : lateRotates s (some (tx, skb)) = tx.sta.any (rotationDue s) := by
      simp [lateRotates, hre]
    rw [hrotates]
    obtain ⟨s₁, hs₁, heq⟩ := map_eq_some_iff.mp h
    refine (steady_handleRandomMac hs₁).trans ?_
    split at heq
    · obtain ⟨rfl, -⟩ := Prod.mk.inj heq
      exact .refl s₁
    · have hseq := sameTables_txHSequence s₁ tx skb
      simp only at heq
      split at heq
      · cases heq
        exact hseq.steady
      · rename_i frags hfrag
        have hall : ∀ skb' ∈ frags, skb.SameAddrs skb' := fun skb' hmem =>
          (sameAddrs_txHSequence skb s₁ tx).trans (sameAddrs_txHFragment _ hfrag skb' hmem)
        obtain ⟨ht, -⟩ := @txHEncrypt_keeps C env tx _ (txHSequence s₁ tx skb).1 frags hall
        cases heq
        exact (hseq.trans ht).steady

variable {i : SdataId} {sta : Option StaId} {skb : TxSkb} {noSeqno : Bool}

/-- A frame that gets to the late handlers has changed nothing, and is the same frame. -/
theorem lateInput_some {tx : TxData} {skb' : TxSkb}
    (h : lateInput env i sta skb noSeqno s = (s', some (tx, skb'))) :
    s' = s ∧ skb.SameAddrs skb' := by
  rw [lateInput] at h
  split at h
  · cases h
  · rename_i tx₁ skb₁ hprep
    obtain ⟨-, -, hskb₁⟩ := txPrepare_frame hprep
    simp only at h
    split at h
    · cases h
    · rename_i s₂ tx₂ skb₂ hearly
      obtain ⟨rfl, -, hskb₂⟩ := invokeTxHandlersEarly_frame hearly
      split at h
      · cases h
      · obtain ⟨rfl, heq⟩ := Prod.mk.inj h
        cases heq
        refine ⟨rfl, ?_, hskb₂.vif.trans hskb₁.vif⟩
        rw [hskb₂.hdr.trans hskb₁.hdr]
        exact .refl _

theorem plain_lateInput {P : KeyId → Prop} : PlainWrites P s (lateInput env i sta skb noSeqno s).1 := by
  rw [lateInput]
  split
  · exact .refl
  · simp only
    split
    · rename_i hearly
      exact (plain_invokeTxHandlersEarly hearly).1
    · rename_i hearly
      have hplain : PlainWrites P s _ := (plain_invokeTxHandlersEarly hearly).1
      split
      · rename_i hqueue
        exact hplain.trans (plain_queueSkb hqueue)
      · exact hplain

variable {out : Option Outgoing}

theorem steady_ieee80211TxOut (h : ieee80211TxOut sha1 C env i sta skb noSeqno s = some (s', out)) :
    Steady (lateRotates s (lateInput env i sta skb noSeqno s).2) s s' := by
  have ht : SameTables s (lateInput env i sta skb noSeqno s).1 := plain_lateInput.sameTables
  rw [ieee80211TxOut] at h
  split at h
  · rename_i s₁ hin
    cases h
    rw [hin] at ht
    exact ht.steady
  · rename_i s₁ tx₁ skb₁ hin
    obtain ⟨rfl, -⟩ := lateInput_some hin
    obtain ⟨⟨s₂, skbs⟩, hlate, heq⟩ := map_eq_some_iff.mp h
    cases heq
    rw [hin]
    exact steady_invokeTxHandlersLate hlate

theorem steady_xmitFastOut {f : FastTx} : Steady r s (xmitFastOut env i j f eth s).1 := by
  rw [xmitFastOut]
  simp only
  split
  · exact .refl s
  · split
    · rename_i hqueue
      exact (plain_queueSkb hqueue).sameTables.steady
    · exact (sameTables_xmitFastFinish s _).steady

theorem steady_subifStartXmitOut (h : subifStartXmitOut sha1 C env i eth s = some (s', out)) :
    Steady (s.rotates (.startXmit env i eth)) s s' := by
  change Steady (lateRotates s (s.lateFrame (.startXmit env i eth))) s s'
  rw [Local.lateFrame]
  rw [subifStartXmitOut] at h
  split at h
  · cases h
    exact .refl s
  rename_i sta hsta
  simp only
  have hslow : subifStartXmitOut.slow sha1 C env i eth s sta = some (s', out) →
      Steady (lateRotates s (match buildHdr env s i sta eth with
        | none => none
        | some skb =>
          (lateInput env i sta (setQosHdr { skb with info := { skb.info with vif := i } }) false s).2)) s s' := by
    intro hs
    rw [subifStartXmitOut.slow] at hs
    split at hs
    · cases hs
      exact .refl s
    · exact steady_ieee80211TxOut hs
  split at h
  · rename_i j f hfast
    have hgoes : goesFast env s sta eth = xmitFastAccepts env f eth := by
      rw [goesFast, hfast]
    split at h
    · have heq := some.inj h
      have hs' : (xmitFastOut env i j f eth s).1 = s' := by rw [heq]
      rw [← hs']
      exact steady_xmitFastOut
    · rename_i haccepts
      rw [if_neg (by rwa [hgoes])]
      exact hslow h
  · rename_i hfast
    have hgoes : goesFast env s sta eth = false := by
      rw [goesFast, hfast]
    rw [if_neg (by simp [hgoes])]
    exact hslow h

theorem sameTables_pending (s : Local) (pending : ℕ → List TxSkb) : SameTables s { s with pending := pending } :=
  ⟨rfl, rfl, fun _ => rfl, fun _ => rfl⟩

theorem steady_txPendingOut {q : ℕ} (h : txPendingOut sha1 C env q s = some (s', out)) :
    Steady (s.rotates (.txPending env q)) s s' := by
  change Steady (lateRotates s (s.lateFrame (.txPending env q))) s s'
  rw [Local.lateFrame]
  rw [txPendingOut] at h
  split at h
  · cases h
    exact .refl s
  rename_i hrunning
  rw [if_neg hrunning]
  split at h
  · cases h
    exact .refl s
  · rename_i skb skbs hqueue
    simp only at h ⊢
    have hpop := sameTables_pending s (Function.update s.pending q skbs)
    split_ifs at h with hneed hchan
    · rw [if_pos (by simp [hneed, hchan])]
      exact hpop.steady.trans (steady_ieee80211TxOut h)
    · cases h
      exact hpop.steady
    · cases h
      exact hpop.steady

theorem sameTables_handOver {path : Egress} {v : SdataId} (h : handOver path s v sta skb = some s') :
    SameTables s s' := by
  rcases handOver_cases h with rfl | rfl
  · exact .refl _
  · exact ⟨rfl, rfl, fun _ => rfl, fun _ => rfl⟩

theorem steady_txDequeue {q : Txq} {n : ℕ} (h : txDequeue sha1 C env q n s = some s') :
    Steady (s.rotates (.txDequeue env q n)) s s' := by
  change Steady (lateRotates s (dequeueInput env q n s)) s s'
  rw [dequeueInput]
  rw [txDequeue] at h
  -- both sides take the same branch at each match
  cases hfrags : s.txqFrags q with
  | cons skb₀ skbs₀ =>
    rw [hfrags] at h
    cases h
    exact SameTables.steady ⟨rfl, rfl, fun _ => rfl, fun _ => rfl⟩
  | nil =>
  rw [hfrags] at h
  simp only at h ⊢
  cases hskb : (s.txq q)[n]? with
  | none =>
    rw [hskb] at h
    cases h
    exact .refl s
  | some skb₁ =>
  rw [hskb] at h
  simp only at h ⊢
  have herase : SameTables s (s.eraseTxq q n) := ⟨rfl, rfl, fun _ => rfl, fun _ => rfl⟩
  refine herase.steady.trans ?_
  by_cases hunauth : (q.sta.any fun j => dropsUnauth (s.eraseTxq q n) j skb₁) = true
  · rw [if_pos hunauth] at h
    cases h
    exact .refl _
  rw [if_neg hunauth] at h
  rw [if_neg hunauth]
  cases hsel : txHSelectKey (s.eraseTxq q n) { sdata := skb₁.info.vif, sta := q.sta } skb₁ with
  | none =>
    rw [hsel] at h
    cases h
    exact .refl _
  | some selected =>
  obtain ⟨tx₂, skb₂⟩ := selected
  rw [hsel] at h
  simp only at h ⊢
  split at h
  · rename_i hfast
    exact ((sameTables_xmitFastFinish _ _).trans (sameTables_handOver h)).steady
  · cases h
  · rename_i hslow
    rw [if_neg (by simp [hslow])]
    split at h
    · rename_i s₃ skb₃ skbs₃ hlate
      refine (steady_invokeTxHandlersLate hlate).trans ?_
      have hpark : SameTables s₃ { s₃ with
          txqFrags := Function.update s₃.txqFrags q (s₃.txqFrags q ++ skbs₃) } :=
        ⟨rfl, rfl, fun _ => rfl, fun _ => rfl⟩
      exact (hpark.trans (sameTables_handOver h)).steady
    · obtain ⟨⟨s₃, r₃⟩, hlate, rfl⟩ := map_eq_some_iff.mp h
      exact steady_invokeTxHandlersLate hlate

theorem rotationDue_takeBc {dev : SdataId} (h : takeBc s i = some (s', dev, skb)) :
    rotationDue s' = rotationDue s := by
  rw [takeBc] at h
  split at h
  · cases h
  · cases h
    funext j
    refine (sameDue_updSdata ?_).rotationDue_eq j
    intro d
    exact ⟨rfl, rfl, rfl⟩

theorem steady_getBufferedBc (h : getBufferedBc sha1 C env i s = some s') :
    Steady (s.rotates (.getBufferedBc env i)) s s' := by
  change Steady (lateRotates s (bufferedInput env i s)) s s'
  rw [bufferedInput]
  rw [getBufferedBc] at h
  split at h
  · cases h
    exact .refl s
  rename_i htype
  rw [if_neg htype]
  cases htake : takeBc s i with
  | none =>
    rw [htake] at h
    cases h
    exact .refl s
  | some taken =>
  obtain ⟨s₁, dev, skb₁⟩ := taken
  rw [htake] at h
  have ht := (plain_takeBc htake).sameTables
  have hdue := rotationDue_takeBc htake
  simp only at h ⊢
  cases hprep : txPrepare s₁ dev none env skb₁ with
  | none =>
    rw [hprep] at h
    cases h
    exact ht.steady
  | some prepared =>
  obtain ⟨tx₁, skb₂⟩ := prepared
  rw [hprep] at h
  simp only at h ⊢
  split at h
  · rename_i hearly
    cases h
    exact (ht.trans (plain_invokeTxHandlersEarly hearly).1.sameTables).steady
  rename_i s₂ tx₂ skb₃ hearly
  obtain ⟨rfl, -, -⟩ := invokeTxHandlersEarly_frame hearly
  rw [hearly, lateRotates, ← hdue]
  refine ht.steady.trans ?_
  split at h
  · rename_i s₃ skb₄ skbs₄ hlate
    cases h
    exact (steady_invokeTxHandlersLate hlate).trans (SameTables.steady ⟨rfl, rfl, fun _ => rfl, fun _ => rfl⟩)
  · obtain ⟨⟨s₃, r₃⟩, hlate, rfl⟩ := map_eq_some_iff.mp h
    exact steady_invokeTxHandlersLate hlate

theorem steady_rx {gen : GenEnv} {hdr hdr' : Hdr} (h : macAddrChangeHdrRx sha1 gen s hdr = some (s', hdr')) :
    Steady (s.rotates (.rx gen hdr)) s s' := by
  refine ⟨(writes_macAddrChangeHdrRx h).writes.driverVif_eq, ?_⟩
  intro hrotates v
  rw [Local.rotates] at hrotates
  rw [macAddrChangeHdrRx] at h
  split at h
  · cases h
    rfl
  · rename_i hinst
    obtain ⟨s₁, hrot, heq⟩ := map_eq_some_iff.mp h
    cases heq
    simp only [hinst, decide_true, Bool.true_and] at hrotates
    rw [rxRotate] at hrot
    split at hrot
    · cases hrot
      rfl
    · rename_i i hi
      rw [hi, any_some, decide_eq_false_iff_not] at hrotates
      rw [if_neg hrotates] at hrot
      cases hrot
      rfl
  · cases h
    rfl

theorem sameTables_keyOp {op : KeyOp} (h : op.apply s = some s') : SameTables s s' := by
  rw [KeyOp.apply] at h
  split at h
  · cases h
    cases op with
    | alloc | taint | setPtk | setPtkIdx | setGtk => exact ⟨rfl, rfl, fun _ => rfl, fun _ => rfl⟩
    | setKey | setDefaultUnicast | setDefaultMulticast | setDefaultMgmt =>
      rw [KeyOp.write]
      refine sameTables_updSdata ?_
      intro d
      exact ⟨rfl, rfl, rfl⟩
  · cases h

/-- The event may come to the loop. -/
def Event.sends : Event → Bool
  | .xmit .. | .startXmit .. | .txPending .. => true
  | _ => false

theorem prepare_of_not_sends (he : e.sends = false)
    (h : s.prepare sha1 C e = some (s', out)) : s.handle sha1 C e = some s' ∧ out = none := by
  have hprepare : s.prepare sha1 C e = (s.handle sha1 C e).map fun s => (s, none) := by
    cases e with
    | xmit | startXmit | txPending => cases he
    | _ => rfl
  rw [hprepare] at h
  obtain ⟨s₁, hs₁, heq⟩ := map_eq_some_iff.mp h
  cases heq
  exact ⟨hs₁, rfl⟩

theorem steady_handle (he : e.sends = false) (hadd : ∀ v d, e ≠ .addInterface v d)
    (h : s.handle sha1 C e = some s') : Steady (s.rotates e) s s' := by
  cases e with
  | xmit | startXmit | txPending => cases he
  | addInterface v d => exact absurd rfl (hadd v d)
  | txDequeue env q n => exact steady_txDequeue h
  | getBufferedBc env i => exact steady_getBufferedBc h
  | rx gen hdr =>
    obtain ⟨⟨s₁, hdr'⟩, hrx, rfl⟩ := map_eq_some_iff.mp h
    exact steady_rx hrx
  | key op => exact (sameTables_keyOp h).steady
  | purgeBc i | startAp i | setBssid i | numStaPs i =>
    cases h
    refine (sameTables_updSdata ?_).steady
    intro d
    exact ⟨rfl, rfl, rfl⟩
  | addSta j t =>
    rw [Local.handle] at h
    split at h
    · cases h
    · cases h
      exact SameTables.steady ⟨rfl, rfl, fun _ => rfl, fun _ => rfl⟩
  | _ =>
    cases h
    exact SameTables.steady ⟨rfl, rfl, fun _ => rfl, fun _ => rfl⟩

theorem steady_prepare (hadd : ∀ v d, e ≠ .addInterface v d)
    (h : s.prepare sha1 C e = some (s', out)) : Steady (s.rotates e) s s' := by
  cases he : e.sends with
  | false =>
    obtain ⟨hs', -⟩ := prepare_of_not_sends he h
    exact steady_handle he hadd hs'
  | true =>
    cases e with
    | xmit env i sta skb noSeqno =>
      rw [Local.prepare] at h
      split at h
      · exact steady_ieee80211TxOut h
      · cases h
    | startXmit env i eth =>
      rw [Local.prepare] at h
      split at h
      · exact steady_subifStartXmitOut h
      · cases h
    | txPending env q => exact steady_txPendingOut h
    | _ => cases he

theorem prepare_addInterface {v : SdataId} {d : SubIfData}
    (h : s.prepare sha1 C (.addInterface v d) = some (s', out)) :
    (∀ v', v' ≠ v → driverVif s' v' = driverVif s v' ∧ outMac s' v' = outMac s v') ∧ out = none := by
  obtain ⟨hs', hout⟩ := prepare_of_not_sends rfl h
  refine ⟨?_, hout⟩
  intro v' hv'
  rw [Local.handle] at hs'
  split at hs'
  · cases hs'
  · cases hs'
    have hsdata : Function.update s.sdata v (newInterface d) v' = s.sdata v' := Function.update_of_ne hv' _ _
    refine ⟨?_, ?_⟩
    · simp only [driverVif, hsdata]
    · funext a
      simp only [outMac, hsdata]

end Steady

/-! ### Trains -/

/-- The frames of a loop have the addresses of this frame, and go out on its interface. -/
structure Train (s : Local) (skb : TxSkb) (out : Outgoing) : Prop where
  skbs : ∀ skb' ∈ out.skbs, skb.SameAddrs skb'
  vif : driverVif s skb.info.vif = some out.vif

section Train

variable {sha1 : List UInt8 → Vector UInt8 20} {C : Crypto} {env : TxEnv} {s s' : Local} {i : SdataId}
  {sta : Option StaId} {skb : TxSkb} {noSeqno : Bool} {out : Outgoing}

theorem train_outgoing {skbs : List TxSkb} (hall : ∀ skb' ∈ skbs, skb.SameAddrs skb')
    (h : outgoing sta skbs s = some out) : Train s skb out := by
  rcases skbs with _ | ⟨skb₁, skbs⟩
  · cases h
  · obtain ⟨vif, hvif, rfl⟩ := map_eq_some_iff.mp h
    refine ⟨hall, ?_⟩
    rwa [← (hall skb₁ List.mem_cons_self).vif]

theorem train_ieee80211TxOut
    (h : ieee80211TxOut sha1 C env i sta skb noSeqno s = some (s', some out)) : Train s' skb out := by
  rw [ieee80211TxOut] at h
  split at h
  · cases h
  · rename_i s₁ tx₁ skb₁ hin
    obtain ⟨rfl, hskb₁⟩ := lateInput_some hin
    obtain ⟨⟨s₂, skbs⟩, hlate, heq⟩ := map_eq_some_iff.mp h
    obtain ⟨rfl, hout⟩ := Prod.mk.inj heq
    obtain ⟨skbs, rfl, hout⟩ := bind_eq_some_iff.mp hout
    obtain ⟨-, -, -, hall⟩ := invokeTxHandlersLate_cases hlate
    exact train_outgoing (fun skb' hskb' => hskb₁.trans (hall skb' hskb')) hout

theorem type_ne_monitor_of_lookupRaSta {x : Option StaId}
    (h : lookupRaSta env s i eth = some x) : (s.sdata i).type ≠ .monitor := by
  intro hmonitor
  rw [lookupRaSta] at h
  simp only [hmonitor] at h
  cases h

/-- The frame that `ieee80211_xmit_fast` builds. -/
abbrev fastFrame (env : TxEnv) (i : SdataId) (f : FastTx) (eth : EthFrame) : TxSkb where
  hdr := f.build eth
  info := { vif := i, dontfrag := true, ampdu := env.ampdu, fastXmit := true }
  priority := eth.priority

theorem vif_xmitFastFinish {pnOffs : Bool} {key : Option KeyId} {hwQueue : ℕ} (s : Local)
    (skb : TxSkb) : (xmitFastFinish s i j pnOffs key hwQueue skb).2.info.vif = skb.info.vif := by
  simp only [xmitFastFinish]
  split
  · split <;> rfl
  · rfl

theorem train_xmitFastOut {f : FastTx} (htype : (s.sdata i).type ≠ .monitor)
    (h : (xmitFastOut env i j f eth s).2 = some out) :
    ∃ skb, Train (xmitFastOut env i j f eth s).1 skb out := by
  rw [xmitFastOut] at h ⊢
  simp only at h ⊢
  split at h
  · cases h
  · rename_i hrate
    rw [if_neg hrate]
    split at h
    · cases h
    · cases h
      have ht := @sameTables_xmitFastFinish i j f.pnOffs f.key env.hwQueue s (fastFrame env i f eth)
      refine ⟨fastFrame env i f eth, ?_, ?_⟩
      · intro skb' hskb'
        obtain rfl := List.mem_singleton.mp hskb'
        exact ⟨sameAddrs_xmitFastFinish s _, vif_xmitFastFinish s _⟩
      · exact driverVif_of_not_monitor (by rwa [ht.type])

theorem train_subifStartXmitOut
    (h : subifStartXmitOut sha1 C env i eth s = some (s', some out)) : ∃ skb, Train s' skb out := by
  have hslow : ∀ sta, subifStartXmitOut.slow sha1 C env i eth s sta = some (s', some out) →
      ∃ skb, Train s' skb out := by
    intro sta hs
    rw [subifStartXmitOut.slow] at hs
    split at hs
    · cases hs
    · exact ⟨_, train_ieee80211TxOut hs⟩
  rw [subifStartXmitOut] at h
  split at h
  · cases h
  · rename_i sta hsta
    have htype := type_ne_monitor_of_lookupRaSta hsta
    split at h
    · rename_i j f hfast
      split at h
      · have heq := some.inj h
        have hs' : (xmitFastOut env i j f eth s).1 = s' := by rw [heq]
        have hout : (xmitFastOut env i j f eth s).2 = some out := by rw [heq]
        rw [← hs']
        exact train_xmitFastOut htype hout
      · exact hslow sta h
    · exact hslow sta h

theorem train_txPendingOut {q : ℕ} (h : txPendingOut sha1 C env q s = some (s', some out)) :
    s.queueStopReasons q = 0 ∧ ∃ skb skbs, s.pending q = skb :: skbs ∧ Train s' skb out := by
  rw [txPendingOut] at h
  split at h
  · cases h
  rename_i hrunning
  refine ⟨not_not.mp hrunning, ?_⟩
  split at h
  · cases h
  · rename_i skb skbs hqueue
    refine ⟨skb, skbs, hqueue, ?_⟩
    split_ifs at h
    · exact train_ieee80211TxOut h
    · cases h
    · obtain ⟨rfl, hout⟩ := Prod.mk.inj (some.inj h)
      refine train_outgoing (fun skb' hskb' => ?_) hout
      obtain rfl := List.mem_singleton.mp hskb'
      exact .refl _

/-- **The frames of one loop are fragments of one frame**; and if they come from a pending queue, it is
the first one there. -/
theorem prepare_train (h : s.prepare sha1 C e = some (s', some out)) :
    ∃ skb, Train s' skb out ∧ ∀ env q, e = .txPending env q →
      s.queueStopReasons q = 0 ∧ ∃ skbs, s.pending q = skb :: skbs := by
  cases e with
  | xmit env i sta skb noSeqno =>
    rw [Local.prepare] at h
    split at h
    · exact ⟨_, train_ieee80211TxOut h, fun _ _ he => by cases he⟩
    · cases h
  | startXmit env i eth =>
    rw [Local.prepare] at h
    split at h
    · obtain ⟨skb, htrain⟩ := train_subifStartXmitOut h
      exact ⟨skb, htrain, fun _ _ he => by cases he⟩
    · cases h
  | txPending env q =>
    obtain ⟨hrunning, skb, skbs, hqueue, htrain⟩ := train_txPendingOut h
    refine ⟨skb, htrain, ?_⟩
    rintro _ _ ⟨⟩
    exact ⟨hrunning, skbs, hqueue⟩
  | _ =>
    obtain ⟨-, hout⟩ := prepare_of_not_sends rfl h
    cases hout

end Train

end Mac80211
