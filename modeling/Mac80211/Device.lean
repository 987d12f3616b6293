import Mac80211.Lib.Reach
import Mac80211.Tx.Writes

/-!
# The device

All that can happen to one `struct ieee80211_local`, as a machine: frames are sent by any path and
received, time passes, and the configuration changes. An event that names what does not exist, or
makes the code follow a null pointer, has no successor state. The outputs of a step are what it adds
to the history.

## Main definitions

* `Event`, `deviceStep`

## Main results

* `handle_cases`, `reach_invariant`
-/

namespace Mac80211

open Machine Relation Function

/-- What can happen to the device. -/
inductive Event
  /-- Time passes. -/
  | tick (n : ℕ)
  /-- `ieee80211_xmit`. -/
  | xmit (env : TxEnv) (i : SdataId) (sta : Option StaId) (skb : TxSkb) (noSeqno : Bool)
  /-- `__ieee80211_subif_start_xmit`. -/
  | startXmit (env : TxEnv) (i : SdataId) (eth : EthFrame)
  /-- A round of `ieee80211_tx_pending`. -/
  | txPending (env : TxEnv) (q : ℕ)
  /-- `ieee80211_add_pending_skb`. -/
  | addPending (skb : TxSkb)
  /-- A round of `ieee80211_tx_dequeue`. -/
  | txDequeue (env : TxEnv) (q : Txq) (n : ℕ)
  /-- A round of `ieee80211_get_buffered_bc`. -/
  | getBufferedBc (env : TxEnv) (i : SdataId)
  /-- `mac_addr_change_hdr_rx`, on a received header. -/
  | rx (env : GenEnv) (h : Hdr)
  /-- Frames are thrown away: a queue is full, or too slow. -/
  | purge (q : Txq) (n : ℕ)
  /-- `purge_old_ps_buffers`, on the buffer of an interface. -/
  | purgeBc (i : SdataId)
  /-- A write of `key.c`. -/
  | key (op : KeyOp)
  /-- `ieee80211_check_fast_xmit`. -/
  | checkFastXmit (ok : Bool) (j : StaId)
  /-- `ieee80211_if_add`: type, addresses and place of the new interface. -/
  | addInterface (i : SdataId) (d : SubIfData)
  /-- `ieee80211_start_ap`. -/
  | startAp (i : SdataId)
  /-- A station associates with this BSS. -/
  | setBssid (i : SdataId) (bssid : Mac)
  /-- `sta_info_alloc` and `sta_info_insert`: address, interface and flags of the new station. -/
  | addSta (j : StaId) (t : StaInfo)
  /-- `sta_info_destroy`. -/
  | removeSta (j : StaId)
  /-- `sta_info_move_state`. -/
  | moveState (j : StaId) (state : StaState)
  /-- `queue_stop_reasons` of a queue changes. -/
  | stopReasons (q : ℕ) (reasons : ℕ)
  /-- Stations fall asleep, or wake up. -/
  | numStaPs (i : SdataId) (n : ℕ)

/-- The way the frames of an event take. -/
def Event.egress : Event → Egress
  | txDequeue .. => .txDequeue
  | getBufferedBc .. => .getBufferedBc
  | _ => .txFrags

/-- The event changes the configuration. -/
def Event.changesConfig : Event → Bool
  | key .. | checkFastXmit .. | addInterface .. | setBssid .. => true
  | addSta .. | removeSta .. | moveState .. | stopReasons .. | numStaPs .. => true
  | _ => false

/-- A new interface. -/
def newInterface (d : SubIfData) : SubIfData where
  type := d.type
  addr := d.addr
  bssid := d.bssid
  use4addr := d.use4addr
  bss := d.bss
  vlanSta := d.vlanSta
  monitorActive := d.monitorActive

/-- A new station entry: `sta_info_alloc` starts its period. -/
def newSta (t : StaInfo) (tp : ℕ) : StaInfo where
  addr := t.addr
  sdata := t.sdata
  uploaded := t.uploaded
  wme := t.wme
  mfp := t.mfp
  tdlsPeer := t.tdlsPeer
  usesEncryption := t.usesEncryption
  cipherScheme := t.cipherScheme
  startTimePeriod := tp

namespace Local

variable (sha1 : List UInt8 → Vector UInt8 20) (C : Crypto)

/-- What an event does. -/
def handle (s : Local) : Event → Option Local
  | .tick n => some (s.advance n)
  | .xmit env i sta skb noSeqno =>
    if i ∈ s.interfaces ∧ sta.all (fun j => j ∈ s.staList) then
      ieee80211Xmit sha1 C env i sta skb noSeqno s
    else none
  | .startXmit env i eth =>
    if i ∈ s.interfaces then subifStartXmit sha1 C env i eth s else none
  | .txPending env q => txPending sha1 C env q s
  | .addPending skb => some { s with
      pending := Function.update s.pending skb.info.hwQueue (s.pending skb.info.hwQueue ++ [skb]) }
  | .txDequeue env q n => txDequeue sha1 C env q n s
  | .getBufferedBc env i => getBufferedBc sha1 C env i s
  | .rx env h => (macAddrChangeHdrRx sha1 env s h).map Prod.fst
  | .purge q n => some (s.eraseTxq q n)
  | .purgeBc i => some (s.updSdata i fun d => { d with bcBuf := d.bcBuf.tail })
  | .key op => op.apply s
  | .checkFastXmit ok j => some (s.updSta j fun t => { t with fastTx := checkFastXmit s ok j })
  | .addInterface i d =>
    if i ∈ s.interfaces then none
    else some { s with
      interfaces := s.interfaces ++ [i]
      sdata := Function.update s.sdata i (newInterface d) }
  | .startAp i => some (s.updSdata i fun d => { d with startTimePeriod := s.currentTp })
  | .setBssid i bssid => some (s.updSdata i fun d => { d with bssid := bssid })
  | .addSta j t =>
    if j ∈ s.staList ∨ t.sdata ∉ s.interfaces ∨ (staInfoGetBss s t.sdata t.addr).isSome then none
    else some { s with
      staList := s.staList ++ [j]
      sta := Function.update s.sta j (newSta t s.currentTp) }
  | .removeSta j => some { s with
      staList := s.staList.erase j
      txq := fun q => if q.sta = some j then [] else s.txq q
      txqFrags := fun q => if q.sta = some j then [] else s.txqFrags q }
  | .moveState j state => some (s.updSta j fun t => { t with staState := state })
  | .stopReasons q reasons => some { s with
      queueStopReasons := Function.update s.queueStopReasons q reasons }
  | .numStaPs i n => some (s.updSdata i fun d => { d with numStaPs := n })

end Local

/-- One event. The history of earlier steps is in the outputs. -/
def deviceStep (sha1 : List UInt8 → Vector UInt8 20) (C : Crypto) (s : Local) (e : Event) :
    Option (Local × List Logged) :=
  ({ s with log := [] }.handle sha1 C e).map fun s' => (s', s'.log.reverse)

/-- A device with the clock and the hardware of `hw`, and nothing on it. -/
def bootLocal (hw : Local) : Local where
  now := hw.now
  wakeTxQueue := hw.wakeTxQueue
  hostBroadcastPsBuffering := hw.hostBroadcastPsBuffering
  supportsTxFrag := hw.supportsTxFrag
  queueControl := hw.queueControl
  staMmpduTxq := hw.staMmpduTxq
  fragThreshold := hw.fragThreshold

/-! ### Events, one write at a time -/

/-- Every pointer points to an allocated key. -/
def Local.PointersValid (s : Local) : Prop := ∀ k, s.PointsTo k → k < s.nextKey

/-- What a change of the configuration leaves alone. -/
structure Configured (s s' : Local) : Prop where
  now : s'.now = s.now
  log : s'.log = s.log
  tables : s'.translationTable = s.translationTable ∧ s'.sTranslationTable = s.sTranslationTable
  nextKey : s.nextKey ≤ s'.nextKey
  txPn : ∀ k < s.nextKey, (s'.keys k).txPn = (s.keys k).txPn
  fresh : ∀ k, s.nextKey ≤ k → k < s'.nextKey → (s'.keys k).txPn = 0
  pointers : s.PointersValid → s'.PointersValid

variable {f : SubIfData → SubIfData} {j : StaId} {i : SdataId}

section Configured

variable {s : Local}

/-- A change of interfaces and stations that brings in no key that is not there. -/
theorem configured_of_pointsTo {s' : Local} (hnow : s'.now = s.now) (hlog : s'.log = s.log)
    (htables : s'.translationTable = s.translationTable ∧
      s'.sTranslationTable = s.sTranslationTable)
    (hnext : s'.nextKey = s.nextKey) (hkeys : s'.keys = s.keys)
    (hpoints : ∀ k, s'.PointsTo k → s.PointsTo k ∨ k < s.nextKey) : Configured s s' where
  now := hnow
  log := hlog
  tables := htables
  nextKey := hnext.ge
  txPn k _ := by rw [hkeys]
  fresh k hk hk' := absurd (hnext ▸ hk') (not_lt.mpr hk)
  pointers hv k hk := by
    rw [hnext]
    rcases hpoints k hk with hk | hk
    · exact hv k hk
    · exact hk

variable {k : KeyId}

theorem pointsTo_of_updSdata (hk : (s.updSdata i f).PointsTo k) :
    s.PointsTo k ∨ (f (s.sdata i)).defaultUnicastKey = some k ∨
      (f (s.sdata i)).defaultMulticastKey = some k ∨ (f (s.sdata i)).defaultMgmtKey = some k := by
  rcases hk with hk | ⟨i', hk⟩ | hk
  · exact .inl (.inl hk)
  · by_cases hi : i' = i
    · rw [hi, Local.updSdata_sdata_self] at hk
      exact .inr hk
    · rw [Local.updSdata_sdata_of_ne s hi] at hk
      exact .inl (.inr (.inl ⟨i', hk⟩))
  · exact .inl (.inr (.inr hk))

theorem pointsTo_of_updSta {f : StaInfo → StaInfo} (hk : (s.updSta j f).PointsTo k) :
    s.PointsTo k ∨ (∃ idx, (f (s.sta j)).ptk idx = some k) ∨
      ∃ g, (f (s.sta j)).fastTx = some g ∧ g.key = some k := by
  rcases hk with ⟨j', idx, hk⟩ | hk | ⟨j', g, hg, hk⟩
  · by_cases hj : j' = j
    · rw [hj, Local.updSta_sta_self] at hk
      exact .inr (.inl ⟨idx, hk⟩)
    · rw [Local.updSta_sta_of_ne s hj] at hk
      exact .inl (.inl ⟨j', idx, hk⟩)
  · exact .inl (.inr (.inl hk))
  · by_cases hj : j' = j
    · rw [hj, Local.updSta_sta_self] at hg
      exact .inr (.inr ⟨g, hg, hk⟩)
    · rw [Local.updSta_sta_of_ne s hj] at hg
      exact .inl (.inr (.inr ⟨j', g, hg, hk⟩))

theorem configured_updSdata (hf : ∀ k, (f (s.sdata i)).defaultUnicastKey = some k ∨
      (f (s.sdata i)).defaultMulticastKey = some k ∨ (f (s.sdata i)).defaultMgmtKey = some k →
      s.PointsTo k ∨ k < s.nextKey) :
    Configured s (s.updSdata i f) := by
  refine configured_of_pointsTo rfl rfl ⟨rfl, rfl⟩ rfl rfl fun k hk => ?_
  rcases pointsTo_of_updSdata hk with hk | hk
  · exact .inl hk
  · exact hf k hk

theorem configured_updSta {f : StaInfo → StaInfo}
    (hptk : ∀ k idx, (f (s.sta j)).ptk idx = some k → s.PointsTo k ∨ k < s.nextKey)
    (hfast : ∀ k g, (f (s.sta j)).fastTx = some g → g.key = some k → s.PointsTo k) :
    Configured s (s.updSta j f) := by
  refine configured_of_pointsTo rfl rfl ⟨rfl, rfl⟩ rfl rfl fun k hk => ?_
  rcases pointsTo_of_updSta hk with hk | ⟨idx, hk⟩ | ⟨g, hg, hk⟩
  · exact .inl hk
  · exact hptk k idx hk
  · exact .inl (hfast k g hg hk)

theorem pointsTo_of_fastTxKey {pnOffs : Bool} {ivLen : ℕ}
    (h : fastTxKey s j = some (some k, pnOffs, ivLen)) : s.PointsTo k := by
  rw [fastTxKey] at h
  split at h
  · cases h
  · rename_i k' hk'
    have hpoints : s.PointsTo k' := by
      simp only [Option.orElse_eq_orElse, Option.orElse_eq_or, Option.or_eq_some_iff] at hk'
      rcases hk' with hk' | ⟨-, hk'⟩
      · exact pointsTo_of_ptkOf hk'
      · exact .inr (.inl ⟨_, .inl hk'⟩)
    suffices hk : k' = k by rwa [← hk]
    simp only at h
    split at h
    · cases h
    · split at h <;> grind

theorem pointsTo_of_checkFastXmit {ok : Bool} {f : FastTx}
    (hf : checkFastXmit s ok j = some f) (hk : f.key = some k) : s.PointsTo k := by
  simp only [checkFastXmit] at hf
  split at hf
  · cases hf
  · split at hf
    · rename_i key pnOffs ivLen haddrs hkey
      cases hf
      obtain rfl : key = some k := hk
      exact pointsTo_of_fastTxKey hkey
    · cases hf

theorem configured_keyOp {s' : Local} {op : KeyOp} (h : op.apply s = some s') :
    Configured s s' := by
  rw [KeyOp.apply] at h
  split at h
  · rename_i hptr
    cases h
    cases op with
    | alloc key =>
      refine ⟨rfl, rfl, ⟨rfl, rfl⟩, Nat.le_succ _, fun k hk => ?_, fun k hk hk' => ?_, ?_⟩
      · exact congrArg Key.txPn (update_of_ne hk.ne _ _)
      · obtain rfl : k = s.nextKey := le_antisymm (Nat.lt_succ_iff.mp hk') hk
        simp only [KeyOp.write, update_self]
      · intro hv k hk
        exact Nat.lt_succ_of_lt (hv k hk)
    | taint k =>
      refine ⟨rfl, rfl, ⟨rfl, rfl⟩, le_rfl, fun k' _ => ?_, fun k' hk hk' => ?_, fun hv => hv⟩
      · by_cases hk : k' = k
        · rw [hk, KeyOp.write, Local.updKey_keys_self]
        · rw [KeyOp.write, Local.updKey_keys_of_ne s hk]
      · exact absurd hk' (not_lt.mpr hk)
    | setPtk j idx p =>
      rw [KeyOp.write]
      refine configured_updSta ?_ ?_
      · intro k idx' hk
        dsimp only at hk
        by_cases hidx : idx' = idx
        · rw [hidx, update_self] at hk
          exact .inr (hptr k hk)
        · rw [update_of_ne hidx] at hk
          exact .inl (.inl ⟨j, idx', hk⟩)
      · intro k g hg hk
        exact .inr (.inr ⟨j, g, hg, hk⟩)
    | setPtkIdx j idx | setGtk j idx p =>
      rw [KeyOp.write]
      refine configured_updSta ?_ ?_
      · intro k idx' hk
        exact .inl (.inl ⟨j, idx', hk⟩)
      · intro k g hg hk
        exact .inr (.inr ⟨j, g, hg, hk⟩)
    | setKey i idx p =>
      rw [KeyOp.write]
      refine configured_updSdata ?_
      intro k hk
      exact .inl (.inr (.inl ⟨i, hk⟩))
    | setDefaultUnicast i p =>
      rw [KeyOp.write]
      refine configured_updSdata ?_
      rintro k (hk | hk)
      · exact .inr (hptr k hk)
      · exact .inl (.inr (.inl ⟨i, .inr hk⟩))
    | setDefaultMulticast i p =>
      rw [KeyOp.write]
      refine configured_updSdata ?_
      rintro k (hk | hk | hk)
      · exact .inl (.inr (.inl ⟨i, .inl hk⟩))
      · exact .inr (hptr k hk)
      · exact .inl (.inr (.inl ⟨i, .inr (.inr hk)⟩))
    | setDefaultMgmt i p =>
      rw [KeyOp.write]
      refine configured_updSdata ?_
      rintro k (hk | hk | hk)
      · exact .inl (.inr (.inl ⟨i, .inl hk⟩))
      · exact .inl (.inr (.inl ⟨i, .inr (.inl hk)⟩))
      · exact .inr (hptr k hk)
  · cases h

end Configured

section Cases

variable {sha1 : List UInt8 → Vector UInt8 20} {C : Crypto} {s s' : Local} {e : Event}

theorem does_handle (he : e.changesConfig = false) (h : s.handle sha1 C e = some s') :
    Does sha1 e.egress s s' := by
  cases e with
  | tick n =>
    cases h
    exact Writes.does (.single (.advance _ _))
  | xmit env i sta skb noSeqno =>
    rw [Local.handle] at h
    split at h
    · exact does_ieee80211Xmit h
    · cases h
  | startXmit env i eth =>
    rw [Local.handle] at h
    split at h
    · exact does_subifStartXmit h
    · cases h
  | txPending env q => exact does_txPending h
  | addPending skb =>
    cases h
    exact Writes.does (.single (.pending _ _))
  | txDequeue env q n => exact does_txDequeue h
  | getBufferedBc env i => exact does_getBufferedBc h
  | rx env hdr =>
    obtain ⟨⟨s₁, h₁⟩, hrx, rfl⟩ := Option.map_eq_some_iff.mp h
    exact (writes_macAddrChangeHdrRx hrx).writes.does
  | purge q n =>
    cases h
    exact Writes.does (.single (.txq _ _))
  | purgeBc i =>
    cases h
    exact Writes.does (.single (.sdata _ _ _ fun _ => rfl))
  | startAp i =>
    cases h
    exact Writes.does (.single (.sdata _ _ _ fun _ => rfl))
  | _ => cases he

theorem configured_handle (he : e.changesConfig = true)
    (h : s.handle sha1 C e = some s') : Configured s s' := by
  cases e with
  | key op => exact configured_keyOp h
  | checkFastXmit ok j =>
    cases h
    refine configured_updSta (fun k idx hk => .inl (.inl ⟨j, idx, hk⟩)) fun k g hg hk => ?_
    exact pointsTo_of_checkFastXmit hg hk
  | addInterface i d =>
    rw [Local.handle] at h
    split at h
    · cases h
    · cases h
      refine configured_of_pointsTo rfl rfl ⟨rfl, rfl⟩ rfl rfl fun k hk => ?_
      rcases pointsTo_of_updSdata (f := fun _ => newInterface d) hk with hk | hk | hk | hk
      · exact .inl hk
      all_goals cases hk
  | setBssid i bssid =>
    cases h
    exact configured_updSdata fun k hk => .inl (.inr (.inl ⟨i, hk⟩))
  | addSta j t =>
    rw [Local.handle] at h
    split at h
    · cases h
    · cases h
      refine configured_of_pointsTo rfl rfl ⟨rfl, rfl⟩ rfl rfl fun k hk => ?_
      rcases pointsTo_of_updSta (f := fun _ => newSta t s.currentTp) hk with
        hk | ⟨idx, hk⟩ | ⟨g, hg, hk⟩
      · exact .inl hk
      · cases hk
      · cases hg
  | removeSta j =>
    cases h
    exact configured_of_pointsTo rfl rfl ⟨rfl, rfl⟩ rfl rfl fun _ hk => .inl hk
  | moveState j state =>
    cases h
    exact configured_updSta (fun k idx hk => .inl (.inl ⟨j, idx, hk⟩))
      fun k g hg hk => .inr (.inr ⟨j, g, hg, hk⟩)
  | stopReasons q reasons =>
    cases h
    exact configured_of_pointsTo rfl rfl ⟨rfl, rfl⟩ rfl rfl fun _ hk => .inl hk
  | numStaPs i n =>
    cases h
    exact configured_updSdata fun k hk => .inl (.inr (.inl ⟨i, hk⟩))
  | _ => cases he

/-- **What an event does**: some writes and then some frames, or a change of the configuration. -/
theorem handle_cases (h : s.handle sha1 C e = some s') :
    Does sha1 e.egress s s' ∨ Configured s s' := by
  cases he : e.changesConfig with
  | false => exact .inl (does_handle he h)
  | true => exact .inr (configured_handle he h)

/-! ### Addresses -/

/-- Addresses of stations and interfaces stay, or are those of an added one. -/
structure AddrsFrom (e : Event) (s s' : Local) : Prop where
  sta : ∀ j, (s'.sta j).addr = (s.sta j).addr ∨ ∃ t, e = .addSta j t ∧ (s'.sta j).addr = t.addr
  sdata : ∀ i, (s'.sdata i).addr = (s.sdata i).addr ∨
    ∃ d, e = .addInterface i d ∧ (s'.sdata i).addr = d.addr

theorem AddrsFrom.of_updSta {f : StaInfo → StaInfo}
    (hf : (f (s.sta j)).addr = (s.sta j).addr) : AddrsFrom e s (s.updSta j f) := by
  refine ⟨fun j' => .inl ?_, fun _ => .inl rfl⟩
  by_cases hj : j' = j
  · rw [hj, Local.updSta_sta_self, hf]
  · rw [Local.updSta_sta_of_ne s hj]

theorem AddrsFrom.of_updSdata
    (hf : (f (s.sdata i)).addr = (s.sdata i).addr) : AddrsFrom e s (s.updSdata i f) := by
  refine ⟨fun _ => .inl rfl, fun i' => .inl ?_⟩
  by_cases hi : i' = i
  · rw [hi, Local.updSdata_sdata_self, hf]
  · rw [Local.updSdata_sdata_of_ne s hi]

theorem addrsFrom_keyOp {op : KeyOp} (h : op.apply s = some s') : AddrsFrom e s s' := by
  rw [KeyOp.apply] at h
  split at h
  · cases h
    cases op with
    | alloc key | taint k => exact ⟨fun _ => .inl rfl, fun _ => .inl rfl⟩
    | setPtk j idx p | setPtkIdx j idx | setGtk j idx p =>
      rw [KeyOp.write]
      exact .of_updSta rfl
    | setKey i idx p | setDefaultUnicast i p | setDefaultMulticast i p | setDefaultMgmt i p =>
      rw [KeyOp.write]
      exact .of_updSdata rfl
  · cases h

theorem addrsFrom_handle (h : s.handle sha1 C e = some s') : AddrsFrom e s s' := by
  cases he : e.changesConfig with
  | false =>
    obtain ⟨s₁, hw, hh⟩ := does_handle he h
    have hc : SameConfig s s' := hw.sameConfig.trans (Hands.sameConfig hh)
    exact ⟨fun j => .inl (congrArg StaInfo.addr (hc.sta j) :),
      fun i => .inl (congrArg SubIfData.addr (hc.sdata i) :)⟩
  | true =>
    cases e with
    | key op => exact addrsFrom_keyOp h
    | checkFastXmit ok j | moveState j state =>
      cases h
      exact .of_updSta rfl
    | setBssid i bssid | numStaPs i n =>
      cases h
      exact .of_updSdata rfl
    | addInterface i d =>
      rw [Local.handle] at h
      split at h
      · cases h
      · cases h
        refine ⟨fun _ => .inl rfl, fun i' => ?_⟩
        by_cases hi : i' = i
        · subst hi
          exact .inr ⟨d, rfl, (congrArg SubIfData.addr (update_self i' _ s.sdata) :)⟩
        · exact .inl (congrArg SubIfData.addr (update_of_ne hi ..))
    | addSta j t =>
      rw [Local.handle] at h
      split at h
      · cases h
      · cases h
        refine ⟨fun j' => ?_, fun _ => .inl rfl⟩
        by_cases hj : j' = j
        · subst hj
          exact .inr ⟨t, rfl, (congrArg StaInfo.addr (update_self j' _ s.sta) :)⟩
        · exact .inl (congrArg StaInfo.addr (update_of_ne hj ..))
    | removeSta j | stopReasons q reasons =>
      cases h
      exact ⟨fun _ => .inl rfl, fun _ => .inl rfl⟩
    | _ => cases he

/-! ### The invariant rule -/

/-- **The invariant rule of the device**: one write, one frame, and changes of the configuration. -/
theorem reach_invariant {s₀ : Local} {os : List Logged} {P : Local → List Logged → Event → Prop}
    (Inv : Local → List Logged → Prop) (hinit : Inv s₀ [])
    (hlog : ∀ s os, Inv s os → Inv { s with log := [] } os)
    (hwrite : ∀ s s' os, Write sha1 s s' → Inv s (os ++ s.log.reverse) → Inv s' (os ++ s'.log.reverse))
    (hhand : ∀ path s s' os, Hand path s s' → Inv s (os ++ s.log.reverse) → Inv s' (os ++ s'.log.reverse))
    (hconf : ∀ s s' os, Configured s s' → Inv s os → Inv s' os)
    (h : Reach (deviceStep sha1 C) P s₀ s os) : Inv s os := by
  refine h.invariant Inv hinit ?_
  intro s os e s' o hinv _ hstep
  obtain ⟨s₁, hs₁, heq⟩ := Option.map_eq_some_iff.mp hstep
  obtain ⟨rfl, rfl⟩ := Prod.mk.inj heq
  have h₀ := hlog s os hinv
  rcases handle_cases hs₁ with ⟨s₂, hw, hh⟩ | hc
  · have h₁ : Inv { s with log := [] } (os ++ ({ s with log := [] } : Local).log.reverse) := by
      simpa using h₀
    have h₂ : Inv s₂ (os ++ s₂.log.reverse) := by
      clear hs₁ hstep heq hh
      induction hw with
      | refl => exact h₁
      | tail _ hw ih => exact hwrite _ _ os hw ih
    clear hs₁ hstep heq hw
    induction hh with
    | refl => exact h₂
    | tail _ hh ih => exact hhand _ _ _ os hh ih
  · have hnil : s₁.log = [] := hc.log
    rw [hnil, List.reverse_nil, List.append_nil]
    exact hconf _ _ os hc h₀

end Cases

/-! ### Parts of runs -/

/-- A hash that shows what went in: the address, with the period in place of its second byte. -/
def toyHash (data : List UInt8) : Vector UInt8 20 :=
  #v[data.getD 16 0, data.getD 22 0, data.getD 18 0, data.getD 19 0, data.getD 20 0, data.getD 21 0,
    0, 0, 0, 0, 0, 0, 0, 0, 0, 0, 0, 0, 0, 0]

/-- Primitives that encrypt nothing and accept nothing. -/
def toyCrypto : Crypto where
  aesCcmEncrypt _ _ _ data _ := data
  aesGcmEncrypt _ _ _ data _ := data
  aesCcmDecrypt _ _ _ _ _ := none
  aesGcmDecrypt _ _ _ _ _ := none
  aesCmac _ _ _ := []
  aesCmac256 _ _ _ := []
  aesGmac _ _ _ _ := none

/-- Address number `n`. -/
def toyMac (n : UInt8) : Mac := #v[0, 0, 0, 0, 0, n]

/-- An AP interface is created, and started. -/
def setupAp (i : SdataId) (addr : Mac) : List Event :=
  [.addInterface i { type := .ap, addr := addr, bss := some i }, .startAp i]

/-- A station joins an interface, gets a CCMP key with this id, and is authorized. -/
def setupSta (j : StaId) (i : SdataId) (addr : Mac) (k : KeyId) : List Event :=
  [.addSta j { addr := addr, sdata := i },
    .key (.alloc { cipher := .ccmp, key := List.replicate 16 (UInt8.ofNat k) }),
    .key (.setPtk j 0 (some k)), .key (.setPtkIdx j 0), .moveState j .authorized]

/-- A data frame from an AP. -/
def dataTo (addr1 addr2 addr3 : Mac) : TxSkb where
  hdr := ⟨FTYPE_DATA ||| FCTL_FROMDS, 0, addr1, addr2, addr3, 0, [1, 2, 3]⟩

end Mac80211
