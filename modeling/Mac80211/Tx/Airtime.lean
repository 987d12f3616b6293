import Mac80211.Lib.Sums
import Mac80211.PowerSave.Buffers

/-!
# Rounds of the airtime scheduler

`ieee80211_next_txq` and what goes with it in `tx.c`: a queue whose station has used up its share of
airtime gets a new share and goes to the end of the list; one that is handed out is stamped with the
number of the round. A driver may also ask for each queue whether it may transmit, which rotates the
list as well.

## Main definitions

* `SchedState`, `schedStep`

## Main results

* `airtime_rounds` — the search ends, and a queue is handed out once in a round at most
-/

namespace Mac80211

open Machine List Function

/-! ### The state -/

/-- `struct txq_info`. -/
structure TxqInfo where
  sta : Option ℕ := none
  ac : Ac
  scheduleRound : UInt16 := 0

/-- The scheduler. -/
structure SchedState where
  txq : ℕ → TxqInfo
  /-- `active_txqs`. -/
  active : Ac → List ℕ := fun _ => []
  /-- `airtime[ac].deficit`. -/
  deficit : ℕ → Ac → ℤ
  airtimeWeight : ℕ → UInt16
  scheduleRound : Ac → UInt16 := fun _ => 0

/-- What the driver and the device have. -/
structure SchedHw where
  /-- `NL80211_EXT_FEATURE_AIRTIME_FAIRNESS`. -/
  airtimeFairness : Bool := true
  /-- `AIRTIME_USE_TX`. -/
  useTx : Bool := true
  /-- `AIRTIME_USE_RX`. -/
  useRx : Bool := true

namespace SchedState

variable (s : SchedState)

/-- A queue that is on no list has an empty `schedule_order`. -/
def scheduled (q : ℕ) : Bool := (s.active (s.txq q).ac).contains q

/-- `list_del_init`. -/
def delInit (q : ℕ) : SchedState := { s with active := fun ac => (s.active ac).erase q }

/-- `list_add`. -/
def addHead (q : ℕ) : SchedState :=
  { s with active := Function.update s.active (s.txq q).ac (q :: s.active (s.txq q).ac) }

/-- `list_add_tail`. -/
def addTail (q : ℕ) : SchedState :=
  { s with active := Function.update s.active (s.txq q).ac (s.active (s.txq q).ac ++ [q]) }

/-- `list_move_tail`. -/
def moveTail (q : ℕ) : SchedState := (s.delInit q).addTail q

/-- Add to the deficit of a station. -/
def addDeficit (j : ℕ) (ac : Ac) (n : ℤ) : SchedState :=
  { s with deficit := Function.update s.deficit j (Function.update (s.deficit j) ac (s.deficit j ac + n)) }

/-- The station of a queue, if it has used up its share. -/
def overdrawn (q : ℕ) : Option ℕ :=
  (s.txq q).sta.filter fun j => s.deficit j (s.txq q).ac < 0

/-- A new share for the station, and the queue to the end. -/
def replenish (q : ℕ) (j : ℕ) : SchedState :=
  (s.addDeficit j (s.txq q).ac (s.airtimeWeight j).toNat).moveTail q

/-- The queue is handed out in this round. -/
def stamp (q : ℕ) (ac : Ac) : SchedState :=
  { s with txq := Function.update s.txq q { s.txq q with scheduleRound := s.scheduleRound ac } }

end SchedState

/-! ### The operations -/

/-- `ieee80211_next_txq`, with a bound on the jumps to `begin`. -/
def nextTxqLoop (ac : Ac) : ℕ → SchedState → Option (Option ℕ × SchedState)
  | 0, _ => none
  | n + 1, s =>
    match s.active ac with
    | [] => some (none, s)
    | q :: _ =>
      match s.overdrawn q with
      | some j => nextTxqLoop ac n (s.replenish q j)
      | none =>
        if (s.txq q).scheduleRound = s.scheduleRound ac then some (none, s)
        else some (some q, (s.delInit q).stamp q ac)

/-- The number of shares that a station has used in advance. -/
def sharesDue (deficit : ℤ) (weight : ℕ) : ℕ := ((-deficit).toNat + weight - 1) / weight

/-- The stations of the queues on a list. -/
def SchedState.stations (s : SchedState) (ac : Ac) : Finset ℕ :=
  ((s.active ac).filterMap fun q => (s.txq q).sta).toFinset

/-- All the shares that may have to be given before a queue is found. -/
def SchedState.due (s : SchedState) (ac : Ac) (js : Finset ℕ) : ℕ :=
  ∑ j ∈ js, sharesDue (s.deficit j ac) (s.airtimeWeight j).toNat

/-- `ieee80211_next_txq`. -/
def nextTxq (s : SchedState) (ac : Ac) : Option (Option ℕ × SchedState) :=
  nextTxqLoop ac (s.due ac (s.stations ac) + 1) s

/-- `__ieee80211_schedule_txq`; `frames` says that the queue has any. -/
def scheduleTxq (hw : SchedHw) (s : SchedState) (q : ℕ) (force frames : Bool) : SchedState :=
  if !s.scheduled q && (force || frames) then
    if (s.txq q).sta.isSome && hw.airtimeFairness then s.addHead q else s.addTail q
  else s

/-- The loop of `ieee80211_txq_may_transmit` over the queues in front of `q`. -/
def mayTransmitLoop (q : ℕ) : List ℕ → SchedState → SchedState
  | [], s => s
  | iter :: rest, s =>
    if iter = q then s
    else
      match s.overdrawn iter with
      | some j => mayTransmitLoop q rest (s.replenish iter j)
      | none => mayTransmitLoop q rest (s.moveTail iter)

/-- `ieee80211_txq_may_transmit`. -/
def txqMayTransmit (s : SchedState) (q : ℕ) : Bool × SchedState :=
  match (s.txq q).sta with
  | none => (true, s.delInit q)
  | some _ =>
    if !s.scheduled q then (true, s)
    else
      let s := mayTransmitLoop q (s.active (s.txq q).ac) s
      match s.overdrawn q with
      | some j => (false, s.replenish q j)
      | none => (true, s.delInit q)

/-- `ieee80211_txq_schedule_start`. -/
def txqScheduleStart (s : SchedState) (ac : Ac) : SchedState :=
  { s with scheduleRound := Function.update s.scheduleRound ac (s.scheduleRound ac + 1) }

/-- `ieee80211_sta_register_airtime`. -/
def staRegisterAirtime (hw : SchedHw) (s : SchedState) (j : ℕ) (ac : Ac) (txAirtime rxAirtime : UInt32) :
    SchedState :=
  let airtime : UInt32 := (if hw.useTx then txAirtime else 0) + if hw.useRx then rxAirtime else 0
  s.addDeficit j ac (-airtime.toNat)

/-- `sta_apply_parameters`, as far as the weight goes. -/
def setAirtimeWeight (s : SchedState) (j : ℕ) (weight : UInt16) : SchedState :=
  if weight = 0 then s else { s with airtimeWeight := Function.update s.airtimeWeight j weight }

/-! ### The machine -/

/-- What can happen to the scheduler. -/
inductive SchedEvent
  | scheduleStart (ac : Ac)
  | next (ac : Ac)
  /-- `ieee80211_schedule_txq`, `ieee80211_return_txq`. -/
  | schedule (q : ℕ) (force frames : Bool)
  | mayTransmit (q : ℕ)
  | registerAirtime (j : ℕ) (ac : Ac) (txAirtime rxAirtime : UInt32)
  | setWeight (j : ℕ) (weight : UInt16)
  /-- `ieee80211_txq_purge`, `sta_ps_start`. -/
  | purge (q : ℕ)

/-- What the driver sees. -/
inductive SchedOut
  | start (ac : Ac)
  | next (ac : Ac) (q : ℕ)
  | mayTransmit (q : ℕ) (ret : Bool)
deriving DecidableEq

/-- One event. A search that does not end is a fault. -/
def schedStep (hw : SchedHw) (s : SchedState) : SchedEvent → Option (SchedState × List SchedOut)
  | .scheduleStart ac => some (txqScheduleStart s ac, [.start ac])
  | .next ac => (nextTxq s ac).map fun r => (r.2, r.1.toList.map (.next ac))
  | .schedule q force frames => some (scheduleTxq hw s q force frames, [])
  | .mayTransmit q =>
    let (ret, s) := txqMayTransmit s q
    some (s, [.mayTransmit q ret])
  | .registerAirtime j ac tx rx => some (staRegisterAirtime hw s j ac tx rx, [])
  | .setWeight j weight => some (setAirtimeWeight s j weight, [])
  | .purge q => some (s.delInit q, [])

/-! ### What is to hold -/

/-- Each queue is on the list of its own access category, once, or on none; and every station has a
share. -/
structure Lists (s : SchedState) : Prop where
  nodup : ∀ ac, (s.active ac).Nodup
  ac_eq : ∀ ac, ∀ q ∈ s.active ac, (s.txq q).ac = ac
  weight : ∀ j, 0 < (s.airtimeWeight j).toNat

/-! ### Lists -/

section Lists

variable {s : SchedState} {q j : ℕ} {ac : Ac}

theorem mem_active_delInit (h : Lists s) {q' : ℕ} :
    q' ∈ (s.delInit q).active ac ↔ q' ≠ q ∧ q' ∈ s.active ac :=
  (h.nodup ac).mem_erase_iff

theorem Lists.delInit (h : Lists s) (q : ℕ) : Lists (s.delInit q) :=
  ⟨fun ac => (h.nodup ac).erase q, fun ac _ hq => h.ac_eq ac _ (mem_of_mem_erase hq), h.weight⟩

theorem not_mem_active_delInit (h : Lists s) (q : ℕ) (ac : Ac) : q ∉ (s.delInit q).active ac :=
  fun hq => ((mem_active_delInit h).mp hq).1 rfl

theorem Lists.update (h : Lists s) (hq : q ∉ s.active (s.txq q).ac) {l : List ℕ}
    (hl : l.Perm (q :: s.active (s.txq q).ac)) :
    Lists { s with active := Function.update s.active (s.txq q).ac l } := by
  have hmem : ∀ ac, (Function.update s.active (s.txq q).ac l ac).Nodup ∧
      ∀ q' ∈ Function.update s.active (s.txq q).ac l ac, (s.txq q').ac = ac := by
    intro ac
    by_cases hac : ac = (s.txq q).ac
    · rw [hac, update_self]
      refine ⟨hl.nodup_iff.mpr (nodup_cons.mpr ⟨hq, h.nodup _⟩), fun q' hq' => ?_⟩
      rcases mem_cons.mp (hl.mem_iff.mp hq') with rfl | hq'
      · rfl
      · exact h.ac_eq _ q' hq'
    · rw [update_of_ne hac]
      exact ⟨h.nodup ac, h.ac_eq ac⟩
  exact ⟨fun ac => (hmem ac).1, fun ac => (hmem ac).2, h.weight⟩

theorem Lists.addHead (h : Lists s) (hq : q ∉ s.active (s.txq q).ac) : Lists (s.addHead q) :=
  h.update hq (.refl _)

theorem Lists.addTail (h : Lists s) (hq : q ∉ s.active (s.txq q).ac) : Lists (s.addTail q) :=
  h.update hq (perm_append_singleton _ _)

theorem Lists.moveTail (h : Lists s) (q : ℕ) : Lists (s.moveTail q) :=
  (h.delInit q).addTail (not_mem_active_delInit h q _)

theorem mem_active_moveTail (h : Lists s) (hq : q ∈ s.active ac) {q' : ℕ} :
    q' ∈ (s.moveTail q).active ac ↔ q' ∈ s.active ac := by
  have hac : (s.txq q).ac = ac := h.ac_eq ac q hq
  have hactive : (s.moveTail q).active ac = (s.delInit q).active ac ++ [q] := by
    change Function.update (s.delInit q).active (s.txq q).ac
      ((s.delInit q).active (s.txq q).ac ++ [q]) ac = _
    rw [hac, update_self]
  rw [hactive, mem_append, mem_active_delInit h, mem_singleton]
  constructor
  · rintro (⟨-, hq'⟩ | rfl)
    · exact hq'
    · exact hq
  · intro hq'
    by_cases heq : q' = q
    · exact .inr heq
    · exact .inl ⟨heq, hq'⟩

theorem Lists.addDeficit (h : Lists s) (j : ℕ) (ac : Ac) (n : ℤ) : Lists (s.addDeficit j ac n) :=
  ⟨h.nodup, h.ac_eq, h.weight⟩

theorem Lists.replenish (h : Lists s) (q j : ℕ) : Lists (s.replenish q j) :=
  (h.addDeficit j _ _).moveTail q

theorem Lists.stamp (h : Lists s) (q : ℕ) (ac : Ac) : Lists (s.stamp q ac) := by
  refine ⟨h.nodup, fun ac' q' hq' => ?_, h.weight⟩
  change (Function.update s.txq q { s.txq q with scheduleRound := s.scheduleRound ac } q').ac = ac'
  by_cases hq : q' = q
  · rw [hq, update_self, ← hq]
    exact h.ac_eq ac' q' hq'
  · rw [update_of_ne hq]
    exact h.ac_eq ac' q' hq'

end Lists

/-! ### The search ends -/

section Termination

variable {s : SchedState} {q j : ℕ} {ac : Ac} {js : Finset ℕ}

theorem sharesDue_add {deficit : ℤ} {weight : ℕ} (hneg : deficit < 0) (hw : 0 < weight) :
    sharesDue deficit weight = sharesDue (deficit + weight) weight + 1 := by
  obtain ⟨x, hx⟩ : ∃ x : ℕ, deficit = -(x + 1 : ℕ) := ⟨(-deficit - 1).toNat, by omega⟩
  subst hx
  have hbefore : (-(-((x + 1 : ℕ) : ℤ))).toNat + weight - 1 = x + weight := by omega
  rw [sharesDue, hbefore, Nat.add_div_right x hw, sharesDue]
  congr 1
  rcases Nat.lt_or_ge x weight with hlt | hge
  · have hafter : (-(-((x + 1 : ℕ) : ℤ) + weight)).toNat + weight - 1 = weight - 1 := by omega
    rw [hafter, Nat.div_eq_of_lt hlt, Nat.div_eq_of_lt (by omega)]
  · have hafter : (-(-((x + 1 : ℕ) : ℤ) + weight)).toNat + weight - 1 = x := by omega
    rw [hafter]

theorem overdrawn_eq_some (h : s.overdrawn q = some j) :
    (s.txq q).sta = some j ∧ s.deficit j (s.txq q).ac < 0 := by
  obtain ⟨hsta, hneg⟩ := Option.filter_eq_some_iff.mp h
  exact ⟨hsta, of_decide_eq_true hneg⟩

theorem due_replenish (h : Lists s) (hq : q ∈ s.active ac) (hj : s.overdrawn q = some j) (hjs : j ∈ js) :
    s.due ac js = (s.replenish q j).due ac js + 1 := by
  obtain ⟨hsta, hneg⟩ := overdrawn_eq_some hj
  have hac := h.ac_eq ac q hq
  rw [hac] at hneg
  have hother : ∀ k, k ≠ j → (s.replenish q j).deficit k ac = s.deficit k ac := by
    intro k hk
    change Function.update s.deficit j _ k ac = _
    rw [update_of_ne hk]
  have hself : (s.replenish q j).deficit j ac = s.deficit j ac + (s.airtimeWeight j).toNat := by
    change Function.update s.deficit j (Function.update (s.deficit j) (s.txq q).ac
      (s.deficit j (s.txq q).ac + (s.airtimeWeight j).toNat)) j ac = _
    rw [update_self, hac, update_self]
  have hsum := @Finset.sum_change ℕ ℕ _ _ js
    (fun k => sharesDue (s.deficit k ac) (s.airtimeWeight k).toNat)
    (fun k => sharesDue ((s.replenish q j).deficit k ac) (s.airtimeWeight k).toNat) j hjs
    (fun k hk => by rw [hother k hk])
  rw [hself, sharesDue_add hneg (h.weight j)] at hsum
  change ∑ k ∈ js, sharesDue (s.deficit k ac) (s.airtimeWeight k).toNat =
    ∑ k ∈ js, sharesDue ((s.replenish q j).deficit k ac) (s.airtimeWeight k).toNat + 1
  omega

/-- **The search ends** when it may jump back once for each share that is due. -/
theorem Lists.nextTxqLoop_isSome (h : Lists s) (hjs : s.stations ac ⊆ js) {n : ℕ} (hn : s.due ac js < n) :
    ∃ r, nextTxqLoop ac n s = some r := by
  induction n generalizing s with
  | zero => exact absurd hn (Nat.not_lt_zero _)
  | succ n ih =>
    rw [nextTxqLoop]
    split
    · exact ⟨_, rfl⟩
    rename_i q rest hactive
    have hq : q ∈ s.active ac := hactive ▸ mem_cons_self
    split
    · rename_i j hj
      have hmem : ∀ k, k ∈ s.stations ac ↔ ∃ q ∈ s.active ac, (s.txq q).sta = some k := by
        intro k
        rw [SchedState.stations, mem_toFinset, mem_filterMap]
      have hjmem : j ∈ js := hjs ((hmem j).mpr ⟨q, hq, (overdrawn_eq_some hj).1⟩)
      have hdue := due_replenish h hq hj hjmem
      refine ih (h.replenish q j) ?_ (by omega)
      intro k hk
      refine hjs ((hmem k).mpr ?_)
      rw [SchedState.stations, mem_toFinset, mem_filterMap] at hk
      obtain ⟨q', hq', hsta⟩ := hk
      exact ⟨q', (mem_active_moveTail (h.addDeficit j _ _) hq).mp hq', hsta⟩
    · split
      · exact ⟨_, rfl⟩
      · exact ⟨_, rfl⟩

theorem Lists.nextTxq_isSome (h : Lists s) (ac : Ac) : ∃ r, nextTxq s ac = some r :=
  h.nextTxqLoop_isSome (Finset.Subset.refl _) (Nat.lt_succ_self _)

theorem nextTxqLoop_mono {n m : ℕ} (hnm : n ≤ m) {r : Option ℕ × SchedState}
    (h : nextTxqLoop ac n s = some r) : nextTxqLoop ac m s = some r := by
  induction n generalizing s m with
  | zero => cases h
  | succ n ih =>
    obtain ⟨m, rfl⟩ : ∃ k, m = k + 1 := ⟨m - 1, by omega⟩
    rw [nextTxqLoop] at h ⊢
    split
    · rename_i hactive
      rw [hactive] at h
      exact h
    · rename_i q rest hactive
      rw [hactive] at h
      simp only at h
      split
      · rename_i j hj
        rw [hj] at h
        exact ih (by omega) h
      · rename_i hj
        rw [hj] at h
        exact h

end Termination

/-! ### What the operations do -/

section Effects

variable {hw : SchedHw} {s s' : SchedState} {q j : ℕ} {ac : Ac}

/-- The rounds, and the stamps of the queues, are as they were. -/
structure SameRounds (s s' : SchedState) : Prop where
  txq : s'.txq = s.txq
  scheduleRound : s'.scheduleRound = s.scheduleRound

theorem SameRounds.refl (s : SchedState) : SameRounds s s := ⟨rfl, rfl⟩

theorem SameRounds.trans {s'' : SchedState} (h : SameRounds s s') (h' : SameRounds s' s'') :
    SameRounds s s'' :=
  ⟨h'.txq.trans h.txq, h'.scheduleRound.trans h.scheduleRound⟩

theorem sameRounds_replenish (s : SchedState) (q j : ℕ) : SameRounds s (s.replenish q j) := ⟨rfl, rfl⟩

theorem sameRounds_moveTail (s : SchedState) (q : ℕ) : SameRounds s (s.moveTail q) := ⟨rfl, rfl⟩

theorem sameRounds_delInit (s : SchedState) (q : ℕ) : SameRounds s (s.delInit q) := ⟨rfl, rfl⟩

/-- The search hands out a queue that was not handed out in this round, and stamps it. -/
theorem nextTxqLoop_effect (h : Lists s) {n : ℕ} {r : Option ℕ} (hr : nextTxqLoop ac n s = some (r, s')) :
    Lists s' ∧ ((r = none ∧ SameRounds s s') ∨
      ∃ q, r = some q ∧ (s.txq q).ac = ac ∧ (s.txq q).scheduleRound ≠ s.scheduleRound ac ∧
        s'.scheduleRound = s.scheduleRound ∧
        s'.txq = Function.update s.txq q { s.txq q with scheduleRound := s.scheduleRound ac }) := by
  induction n generalizing s with
  | zero => cases hr
  | succ n ih =>
    rw [nextTxqLoop] at hr
    split at hr
    · obtain ⟨rfl, rfl⟩ := Prod.mk.inj (Option.some.inj hr)
      exact ⟨h, .inl ⟨rfl, .refl s⟩⟩
    rename_i q rest hactive
    split at hr
    · rename_i j hj
      obtain ⟨hlists, ⟨rfl, hsame⟩ | hnext⟩ := ih (h.replenish q j) hr
      · exact ⟨hlists, .inl ⟨rfl, (sameRounds_replenish s q j).trans hsame⟩⟩
      · exact ⟨hlists, .inr hnext⟩
    split at hr
    · obtain ⟨rfl, rfl⟩ := Prod.mk.inj (Option.some.inj hr)
      exact ⟨h, .inl ⟨rfl, .refl s⟩⟩
    · rename_i hround
      cases hr
      have hac := h.ac_eq ac q (hactive ▸ mem_cons_self)
      exact ⟨(h.delInit q).stamp q ac, .inr ⟨q, rfl, hac, hround, rfl, rfl⟩⟩

theorem Lists.scheduleTxq (h : Lists s) (hw : SchedHw) (q : ℕ) (force frames : Bool) :
    Lists (scheduleTxq hw s q force frames) := by
  rw [Mac80211.scheduleTxq]
  split
  · rename_i hcond
    have hq : q ∉ s.active (s.txq q).ac := by
      intro hmem
      rw [SchedState.scheduled, contains_iff_mem.mpr hmem] at hcond
      simp at hcond
    split
    · exact h.addHead hq
    · exact h.addTail hq
  · exact h

theorem sameRounds_scheduleTxq (hw : SchedHw) (s : SchedState) (q : ℕ) (force frames : Bool) :
    SameRounds s (scheduleTxq hw s q force frames) := by
  rw [scheduleTxq]
  split
  · split
    · exact ⟨rfl, rfl⟩
    · exact ⟨rfl, rfl⟩
  · exact .refl s

theorem Lists.mayTransmitLoop (h : Lists s) (q : ℕ) (l : List ℕ) :
    Lists (mayTransmitLoop q l s) ∧ SameRounds s (mayTransmitLoop q l s) := by
  induction l generalizing s with
  | nil => exact ⟨h, .refl s⟩
  | cons iter rest ih =>
    rw [Mac80211.mayTransmitLoop]
    split
    · exact ⟨h, .refl s⟩
    split
    · rename_i j hj
      obtain ⟨hlists, hsame⟩ := ih (h.replenish iter j)
      exact ⟨hlists, (sameRounds_replenish s iter j).trans hsame⟩
    · obtain ⟨hlists, hsame⟩ := ih (h.moveTail iter)
      exact ⟨hlists, (sameRounds_moveTail s iter).trans hsame⟩

theorem Lists.txqMayTransmit (h : Lists s) (q : ℕ) :
    Lists (txqMayTransmit s q).2 ∧ SameRounds s (txqMayTransmit s q).2 := by
  rw [Mac80211.txqMayTransmit]
  split
  · exact ⟨h.delInit q, rfl, rfl⟩
  split
  · exact ⟨h, .refl s⟩
  obtain ⟨hloop, hsame⟩ := h.mayTransmitLoop q (s.active (s.txq q).ac)
  simp only
  split
  · rename_i j hj
    exact ⟨hloop.replenish q j, hsame.trans (sameRounds_replenish _ q j)⟩
  · exact ⟨hloop.delInit q, hsame.trans (sameRounds_delInit _ q)⟩

theorem Lists.setAirtimeWeight (h : Lists s) (j : ℕ) (weight : UInt16) :
    Lists (setAirtimeWeight s j weight) ∧ SameRounds s (setAirtimeWeight s j weight) := by
  rw [Mac80211.setAirtimeWeight]
  split
  · exact ⟨h, .refl s⟩
  · rename_i hne
    refine ⟨⟨h.nodup, h.ac_eq, fun k => ?_⟩, rfl, rfl⟩
    change 0 < (Function.update s.airtimeWeight j weight k).toNat
    by_cases hk : k = j
    · rw [hk, update_self]
      exact Nat.pos_of_ne_zero fun hzero => hne (UInt16.toNat_inj.mp hzero)
    · rw [update_of_ne hk]
      exact h.weight k

end Effects

/-! ### Every run -/

section Run

variable {hw : SchedHw} {s s' s₀ : SchedState} {os : List SchedOut}

/-- No queue is handed out twice without a new round in between, and what was handed out since the last
one has its stamp. -/
structure SchedInv (s : SchedState) (os : List SchedOut) : Prop where
  lists : Lists s
  once : ∀ ac q m, m <:+: os → .start ac ∉ m → m.count (.next ac q) ≤ 1
  stamped : ∀ ac q m, m <:+ os → .start ac ∉ m → .next ac q ∈ m →
    (s.txq q).ac = ac ∧ (s.txq q).scheduleRound = s.scheduleRound ac

theorem SchedInv.silent (h : SchedInv s os) (hlists : Lists s') (hsame : SameRounds s s') :
    SchedInv s' (os ++ []) := by
  rw [append_nil]
  refine ⟨hlists, h.once, ?_⟩
  rw [hsame.txq, hsame.scheduleRound]
  exact h.stamped

/-- One more output: a queue that is handed out was not in this round, and the stamps are right
afterwards. -/
theorem SchedInv.concat (h : SchedInv s os) (hlists : Lists s') {o : SchedOut}
    (hfresh : ∀ ac q, o = .next ac q → (s.txq q).scheduleRound ≠ s.scheduleRound ac)
    (hnew : ∀ ac q, o = .next ac q → (s'.txq q).ac = ac ∧ (s'.txq q).scheduleRound = s'.scheduleRound ac)
    (hkeep : ∀ ac q, o ≠ .start ac → (s.txq q).ac = ac → (s.txq q).scheduleRound = s.scheduleRound ac →
      (s'.txq q).ac = ac ∧ (s'.txq q).scheduleRound = s'.scheduleRound ac) :
    SchedInv s' (os ++ [o]) := by
  have hparts : ∀ {ac t}, SchedOut.start ac ∉ t ++ [o] → .start ac ∉ t ∧ o ≠ .start ac := by
    intro ac t hstart
    rw [mem_append, mem_singleton, not_or] at hstart
    exact ⟨hstart.1, Ne.symm hstart.2⟩
  refine ⟨hlists, fun ac q m hm hstart => ?_, fun ac q m hm hstart hnext => ?_⟩
  · rcases infix_concat_iff.mp hm with hsuffix | hinfix
    · rcases suffix_concat_iff.mp hsuffix with rfl | ⟨t, rfl, ht⟩
      · exact Nat.zero_le 1
      have hstartt := (hparts hstart).1
      rw [count_append, count_singleton]
      by_cases ho : o = .next ac q
      · have hzero : t.count (.next ac q) = 0 := by
          refine count_eq_zero.mpr fun hmem => ?_
          exact hfresh ac q ho (h.stamped ac q t ht hstartt hmem).2
        rw [hzero, zero_add]
        split
        · exact le_rfl
        · exact Nat.zero_le 1
      · rw [if_neg (by simpa using ho), add_zero]
        exact h.once ac q t ht.isInfix hstartt
    · exact h.once ac q m hinfix hstart
  · rcases suffix_concat_iff.mp hm with rfl | ⟨t, rfl, ht⟩
    · exact absurd hnext not_mem_nil
    obtain ⟨hstartt, hostart⟩ := hparts hstart
    rcases mem_append.mp hnext with hmem | hmem
    · obtain ⟨hac, hround⟩ := h.stamped ac q t ht hstartt hmem
      exact hkeep ac q hostart hac hround
    · exact hnew ac q (mem_singleton.mp hmem).symm

theorem SchedInv.scheduleStart (h : SchedInv s os) (ac : Ac) :
    SchedInv (txqScheduleStart s ac) (os ++ [.start ac]) := by
  have hlists : Lists (txqScheduleStart s ac) := ⟨h.lists.nodup, h.lists.ac_eq, h.lists.weight⟩
  refine h.concat hlists ?_ ?_ ?_
  · rintro ac' q ⟨⟩
  · rintro ac' q ⟨⟩
  · intro ac' q hstart hac hround
    have hne : ac' ≠ ac := fun heq => hstart (heq ▸ rfl)
    refine ⟨hac, ?_⟩
    change _ = Function.update s.scheduleRound ac (s.scheduleRound ac + 1) ac'
    rw [update_of_ne hne]
    exact hround

theorem SchedInv.next (h : SchedInv s os) {ac : Ac} {r : Option ℕ} (hr : nextTxq s ac = some (r, s')) :
    SchedInv s' (os ++ r.toList.map (.next ac)) := by
  obtain ⟨hlists, ⟨rfl, hsame⟩ | ⟨q, rfl, hac, hfresh, hrounds, htxq⟩⟩ := nextTxqLoop_effect h.lists hr
  · exact h.silent hlists hsame
  · refine h.concat hlists ?_ ?_ ?_
    · rintro ac' q' ⟨⟩
      exact hfresh
    · rintro ac' q' ⟨⟩
      rw [htxq, hrounds, update_self]
      exact ⟨hac, rfl⟩
    · intro ac' q' _ hac' hround
      rw [htxq, hrounds]
      by_cases hq : q' = q
      · subst hq
        rw [update_self]
        exact ⟨hac', congrArg s.scheduleRound (hac.symm.trans hac')⟩
      · rw [update_of_ne hq]
        exact ⟨hac', hround⟩

theorem SchedInv.mayTransmit (h : SchedInv s os) (q : ℕ) :
    SchedInv (txqMayTransmit s q).2 (os ++ [.mayTransmit q (txqMayTransmit s q).1]) := by
  obtain ⟨hlists, hsame⟩ := h.lists.txqMayTransmit q
  refine h.concat hlists ?_ ?_ ?_
  · rintro ac' q' ⟨⟩
  · rintro ac' q' ⟨⟩
  · intro ac' q' _ hac hround
    rw [hsame.txq, hsame.scheduleRound]
    exact ⟨hac, hround⟩

theorem SchedInv.step {e : SchedEvent} {o : List SchedOut} (h : SchedInv s os)
    (hs : schedStep hw s e = some (s', o)) : SchedInv s' (os ++ o) := by
  cases e with
  | scheduleStart ac =>
    cases hs
    exact h.scheduleStart ac
  | next ac =>
    obtain ⟨⟨r, s₁⟩, hr, heq⟩ := Option.map_eq_some_iff.mp hs
    cases heq
    exact h.next hr
  | schedule q force frames =>
    cases hs
    exact h.silent (h.lists.scheduleTxq hw q force frames) (sameRounds_scheduleTxq hw s q force frames)
  | mayTransmit q =>
    cases hs
    exact h.mayTransmit q
  | registerAirtime j ac tx rx =>
    cases hs
    exact h.silent (h.lists.addDeficit j ac _) ⟨rfl, rfl⟩
  | setWeight j weight =>
    cases hs
    obtain ⟨hlists, hsame⟩ := h.lists.setAirtimeWeight j weight
    exact h.silent hlists hsame
  | purge q =>
    cases hs
    exact h.silent (h.lists.delInit q) (sameRounds_delInit s q)

/-- From any queues, deficits and positive weights, the search for the next queue ends, and the
bound on its jumps plays no part; between two starts of a round of an access category, no queue is
handed out twice; a queue on a list is there once, and on no other. -/
theorem airtime_rounds (hs₀ : Lists s₀) (h : Reach (schedStep hw) (fun _ _ _ => True) s₀ s os) :
    (∀ ac, ∃ r, nextTxq s ac = some r ∧
      ∃ n₀, ∀ n, n₀ ≤ n → nextTxqLoop ac n s = some r) ∧
    (∀ ac q m, m <:+: os → .start ac ∉ m → m.count (.next ac q) ≤ 1) ∧
    (∀ ac, (s.active ac).Nodup) ∧ ∀ q ac ac', q ∈ s.active ac → q ∈ s.active ac' → ac = ac' := by
  have hinit : SchedInv s₀ [] := by
    refine ⟨hs₀, fun ac q m hm _ => ?_, fun ac q m hm _ hnext => ?_⟩
    · rw [infix_nil.mp hm]
      exact Nat.zero_le 1
    · rw [suffix_nil.mp hm] at hnext
      exact absurd hnext not_mem_nil
  have hinv : SchedInv s os := h.invariant SchedInv hinit fun _ _ _ _ _ hinv _ => hinv.step
  refine ⟨fun ac => ?_, hinv.once, hinv.lists.nodup, fun q ac ac' hq hq' => ?_⟩
  · obtain ⟨r, hr⟩ := hinv.lists.nextTxq_isSome ac
    exact ⟨r, hr, _, fun n hn => nextTxqLoop_mono hn hr⟩
  · exact (hinv.lists.ac_eq ac q hq).symm.trans (hinv.lists.ac_eq ac' q hq')

/-- Two queues of two stations, one of which is deep in debt. -/
def toySched : SchedState where
  txq q := { sta := some q, ac := 2 }
  deficit j _ := if j = 0 then -1000 else 5
  airtimeWeight _ := 256

/-- In each round, each queue is handed out once. -/
theorem airtime_rounds_run : ∃ os : List SchedOut, os = [.start 2, .next 2 1, .next 2 0, .start 2, .next 2 1] ∧
    ∀ m, m <:+: os → .start 2 ∉ m → m.count (.next 2 1) ≤ 1 := by
  have hlists : Lists toySched :=
    ⟨fun _ => nodup_nil, fun _ _ hq => absurd hq not_mem_nil, fun _ => Nat.succ_pos 255⟩
  have hrun : (run (schedStep {}) toySched [.scheduleStart 2, .schedule 1 true false, .schedule 0 false true,
      .next 2, .next 2, .schedule 1 true true, .next 2, .scheduleStart 2, .next 2]).map Prod.snd =
      some [.start 2, .next 2 1, .next 2 0, .start 2, .next 2 1] := by
    decide +kernel
  obtain ⟨⟨s, os⟩, hr, hs⟩ := Option.map_eq_some_iff.mp hrun
  obtain rfl : os = _ := hs
  exact ⟨_, rfl, (airtime_rounds hlists (Reach.of_run_init hr)).2.1 2 1⟩

end Run

end Mac80211
