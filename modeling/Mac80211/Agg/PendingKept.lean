import Mac80211.Agg.PrepAgg

/-!
# No frame is lost in block-ack setup or teardown

A frame that is put on the list of a session stays there until it is moved to the queue of the
device, or is the oldest of more than `STA_MAX_TX_BUFFER`. No session is disposed of with frames on
it, since its list is emptied under the same hold of `sta->lock` that clears the pointer; frames may
wait only on one that was not started yet.

## Main definitions

* `Wf`, `FramesKept`

## Main results

* `frames_kept` — every frame is on a list, in the queue of the device, or was purged
-/

namespace Mac80211

open Machine List

/-! ### Frames that come and go -/

/-- The frames that are put on a list, in order. -/
def parkedOf (os : List AggOut) : List TxSkb :=
  os.flatMap fun
    | .parked _ skb => [skb]
    | _ => []

/-- The frames that leave it, in order: to the queue, or because they are too many. -/
def goneOf (cfg : AggCfg) (os : List AggOut) : List TxSkb :=
  os.flatMap fun
    | .spliced queue _ skbs => if queue = cfg.queue then skbs else []
    | .purged _ skb _ => [skb]
    | _ => []

/-- Only the oldest of too many is purged, and only a session without frames is released. -/
def AggOut.Ok : AggOut → Prop
  | .purged _ _ left => STA_MAX_TX_BUFFER ≤ left
  | .released _ left => left = []
  | _ => True

/-- What the holder of the mutex knows of the pointer. -/
def MlmeMtx.knows : MlmeMtx → Option (Option ℕ)
  | .free => none
  | .releasing _ => some none
  | .live sid | .starting sid | .operational sid | .stopping sid _ | .stopped sid _ => some (some sid)

namespace AggTx

/-- What the bits say about the lists. -/
structure Wf (s : AggTx) : Prop where
  held : ∀ p, s.mtx.knows = some p → s.tidTx = p
  wantStart : ∀ sid, s.tidTx = some sid → (s.obj sid).wantStart = true → s.mtx = .live sid
  start : ∀ sid, s.tidStartTx = some sid → s.tidTx ≠ some sid ∧ sid < s.nextSid
  old : ∀ sid, s.tidTx = some sid → sid < s.nextSid
  rest : ∀ sid, s.tidTx ≠ some sid → (s.obj sid).pending = []
  empty : ∀ sid, (s.obj sid).operational = true → (s.obj sid).pending = []

/-- What a step does to the frames. -/
structure StepKeeps (cfg : AggCfg) (s s' : AggTx) (o : List AggOut) : Prop where
  wf : s'.Wf
  flow : s.pending ++ parkedOf o = goneOf cfg o ++ s'.pending
  ok : ∀ x ∈ o, x.Ok

section Keeps

variable {cfg : AggCfg} {s s' s₁ : AggTx} {o o₁ : List AggOut} {sid : ℕ}

theorem obj_setObj (s : AggTx) (sid k : ℕ) (t : AggObj) :
    (s.setObj sid t).obj k = if k = sid then t else s.obj k :=
  Function.update_apply _ _ _ _

theorem parkedOf_append (os os' : List AggOut) : parkedOf (os ++ os') = parkedOf os ++ parkedOf os' :=
  flatMap_append

theorem goneOf_append (os os' : List AggOut) :
    goneOf cfg (os ++ os') = goneOf cfg os ++ goneOf cfg os' :=
  flatMap_append

theorem pending_eq (h : s.tidTx = some sid) : s.pending = (s.obj sid).pending := by
  rw [pending, h]

theorem pending_eq_nil (h : s.tidTx = none) : s.pending = [] := by
  rw [pending, h]

theorem StepKeeps.trans (h₁ : StepKeeps cfg s s₁ o₁) (h : StepKeeps cfg s₁ s' o) :
    StepKeeps cfg s s' (o₁ ++ o) where
  wf := h.wf
  flow := by
    rw [parkedOf_append, goneOf_append, ← append_assoc, h₁.flow, append_assoc, h.flow,
      append_assoc]
  ok := by
    intro x hx
    rcases mem_append.mp hx with hx | hx
    · exact h₁.ok x hx
    · exact h.ok x hx

theorem Wf.change (hs : s.Wf) (htid : s'.tidTx = s.tidTx)
    (hstart : ∀ sid, s'.tidStartTx = some sid → s.tidStartTx = some sid) (hnext : s'.nextSid = s.nextSid)
    (hpend : ∀ sid, (s'.obj sid).pending = (s.obj sid).pending)
    (hheld : ∀ p, s'.mtx.knows = some p → s.tidTx = p)
    (hwant : ∀ sid, s.tidTx = some sid → (s'.obj sid).wantStart = true → s'.mtx = .live sid)
    (hop : ∀ sid, (s'.obj sid).operational = true → (s.obj sid).pending = []) :
    StepKeeps cfg s s' [] where
  wf := {
    held := fun p h => htid.trans (hheld p h)
    wantStart := fun sid h => hwant sid (htid.symm.trans h)
    start := fun sid h => by
      rw [htid, hnext]
      exact hs.start sid (hstart sid h)
    old := fun sid h => by
      rw [hnext]
      exact hs.old sid (htid.symm.trans h)
    rest := fun sid h => by
      rw [hpend]
      exact hs.rest sid fun h' => h (htid.trans h')
    empty := fun sid h => by
      rw [hpend]
      exact hop sid h }
  flow := by
    show s.pending ++ [] = s'.pending
    rw [append_nil, pending, pending, htid]
    cases s.tidTx with
    | none => rfl
    | some sid => exact (hpend sid).symm
  ok := fun _ hx => absurd hx not_mem_nil

theorem StepKeeps.emit (h : StepKeeps cfg s s' []) (hpark : parkedOf o = []) (hgone : goneOf cfg o = [])
    (hok : ∀ x ∈ o, x.Ok) : StepKeeps cfg s s' o where
  wf := h.wf
  flow := by
    rw [hpark, hgone]
    exact h.flow
  ok := hok

theorem Wf.started (hs : s.Wf) (h : s.tidTx = some sid) (hm : s.mtx ≠ .live sid) :
    (s.obj sid).wantStart = false := by
  rw [← Bool.not_eq_true]
  exact fun hw => hm (hs.wantStart sid h hw)

variable {t : AggObj}

/-- Some bits of a session change, and the holder of the mutex may go on there. -/
theorem Wf.setBits (hs : s.Wf) (mtx : MlmeMtx) (hpend : t.pending = (s.obj sid).pending)
    (hop : t.operational = true → (s.obj sid).operational = true)
    (hheld : ∀ p, mtx.knows = some p → s.tidTx = p)
    (hwant : ∀ k, s.tidTx = some k → (if k = sid then t else s.obj k).wantStart = true → mtx = .live k) :
    StepKeeps cfg s { s.setObj sid t with mtx := mtx } [] := by
  refine hs.change rfl (fun _ h => h) rfl ?_ hheld ?_ ?_
  · intro k
    show ((s.setObj sid t).obj k).pending = _
    rw [obj_setObj]
    split
    · rename_i hk
      rw [hk, hpend]
    · rfl
  · intro k hk hw
    refine hwant k hk ?_
    rw [← obj_setObj]
    exact hw
  · intro k hk
    have hk' : ((s.setObj sid t).obj k).operational = true := hk
    rw [obj_setObj] at hk'
    split at hk'
    · rename_i hsid
      rw [hsid]
      exact hs.empty sid (hop hk')
    · exact hs.empty k hk'

theorem Wf.setFlags (hs : s.Wf) (hpend : t.pending = (s.obj sid).pending)
    (hop : t.operational = (s.obj sid).operational) (hw : t.wantStart = (s.obj sid).wantStart) :
    StepKeeps cfg s (s.setObj sid t) [] := by
  refine hs.setBits s.mtx hpend (fun h => hop.symm.trans h) hs.held ?_
  intro k hk hwant
  refine hs.wantStart k hk ?_
  split at hwant
  · rename_i hsid
    rw [hsid, ← hw]
    exact hwant
  · exact hwant

/-! ### Lists that change -/

theorem Wf.setPending (hs : s.Wf) (h : s.tidTx = some sid) {skbs : List TxSkb}
    (hop : (s.obj sid).operational = true → skbs = []) :
    (s.setObj sid { s.obj sid with pending := skbs }).Wf where
  held := hs.held
  wantStart := by
    intro k hk hw
    refine hs.wantStart k hk ?_
    rw [obj_setObj] at hw
    split at hw
    · rename_i hsid
      rw [hsid]
      exact hw
    · exact hw
  start := hs.start
  old := hs.old
  rest := by
    intro k hk
    have hne : k ≠ sid := fun heq => hk (heq ▸ h)
    rw [obj_setObj, if_neg hne]
    exact hs.rest k hk
  empty := by
    intro k hk
    rw [obj_setObj] at hk ⊢
    split at hk
    · rename_i hsid
      rw [if_pos hsid]
      exact hop hk
    · rename_i hsid
      rw [if_neg hsid]
      exact hs.empty k hk

theorem pending_setObj (h : s.tidTx = some sid) (t : AggObj) : (s.setObj sid t).pending = t.pending := by
  have h' : (s.setObj sid t).tidTx = some sid := h
  rw [pending_eq h', obj_setObj, if_pos rfl]

theorem aggSplicePackets_fst (cfg : AggCfg) (s : AggTx) (sid : ℕ) :
    (aggSplicePackets cfg s sid).1 = s.setObj sid { s.obj sid with pending := [] } := by
  rw [aggSplicePackets]
  split
  · rename_i hnil
    have hsame : { s.obj sid with pending := [] } = s.obj sid :=
      congrArg (fun skbs => { s.obj sid with pending := skbs }) hnil.symm
    rw [hsame, setObj, Function.update_eq_self]
  · rfl

theorem pending_splice (h : s.tidTx = some sid) : (aggSplicePackets cfg s sid).1.pending = [] := by
  rw [aggSplicePackets_fst, pending_setObj h]

theorem Wf.splice (hs : s.Wf) (h : s.tidTx = some sid) :
    StepKeeps cfg s (aggSplicePackets cfg s sid).1 (aggSplicePackets cfg s sid).2 where
  wf := by
    rw [aggSplicePackets_fst]
    exact hs.setPending h fun _ => rfl
  flow := by
    rw [pending_splice h, pending_eq h, append_nil, aggSplicePackets]
    split
    · rename_i hnone
      rw [hnone]
      rfl
    · show (s.obj sid).pending ++ [] = (if cfg.queue = cfg.queue then (s.obj sid).pending else []) ++ []
      rw [if_pos rfl]
  ok := by
    intro x hx
    rw [aggSplicePackets] at hx
    split at hx
    · exact absurd hx not_mem_nil
    · rw [mem_singleton.mp hx]
      trivial

theorem Wf.clear (hs : s.Wf) (h : s.pending = []) {mtx : MlmeMtx} (hm : ∀ p, mtx.knows = some p → p = none) :
    StepKeeps cfg s { s with
      tidTx := none
      mtx := mtx } [] where
  wf := {
    held := fun p hp => (hm p hp).symm
    wantStart := fun sid hsid => absurd hsid (by simp)
    start := fun sid hsid => ⟨by simp, (hs.start sid hsid).2⟩
    old := fun sid hsid => absurd hsid (by simp)
    rest := fun sid _ => by
      by_cases hsid : s.tidTx = some sid
      · exact (pending_eq hsid).symm.trans h
      · exact hs.rest sid hsid
    empty := hs.empty }
  flow := by
    show s.pending ++ [] = []
    rw [append_nil, h]
  ok := fun _ hx => absurd hx not_mem_nil

theorem Wf.removeTidTx (hs : s.Wf) (h : s.tidTx = some sid) (hm : s.mtx = .free) :
    StepKeeps cfg s (removeTidTx cfg s sid).1 (removeTidTx cfg s sid).2 := by
  have hmtx : ∀ p, (aggSplicePackets cfg s sid).1.mtx.knows = some p → p = none := by
    intro p hp
    rw [aggSplicePackets_fst] at hp
    have hp' : s.mtx.knows = some p := hp
    rw [hm] at hp'
    exact nomatch hp'
  have hsplice : StepKeeps cfg s _ _ := hs.splice h
  refine hsplice.trans ((hsplice.wf.clear (pending_splice h) hmtx).emit rfl rfl
    (forall_mem_singleton.mpr ?_))
  show ((aggSplicePackets cfg s sid).1.obj sid).pending = []
  rw [aggSplicePackets_fst, obj_setObj, if_pos rfl]

theorem Wf.same (hs : s.Wf) : StepKeeps cfg s s [] :=
  hs.change rfl (fun _ h => h) rfl (fun _ => rfl) hs.held hs.wantStart hs.empty

theorem Wf.passed (hs : s.Wf) (skb : TxSkb) : StepKeeps cfg s s [.passed skb] :=
  hs.same.emit rfl rfl (forall_mem_singleton.mpr trivial)

/-- A frame is put on the list, and if there are too many the oldest one leaves it. -/
theorem Wf.park (hs : s.Wf) (h : s.tidTx = some sid) (hop : (s.obj sid).operational ≠ true) (skb : TxSkb) :
    StepKeeps cfg s (s.setObj sid { s.obj sid with pending := (s.obj sid).pending ++ [skb] })
      [.parked sid skb] where
  wf := hs.setPending h fun hop' => absurd hop' hop
  flow := by
    rw [pending_setObj h, pending_eq h]
    rfl
  ok := forall_mem_singleton.mpr trivial

theorem Wf.parkPurge (hs : s.Wf) (h : s.tidTx = some sid) (hop : (s.obj sid).operational ≠ true)
    {skb oldest : TxSkb} {rest : List TxSkb} (hskbs : (s.obj sid).pending ++ [skb] = oldest :: rest)
    (hlen : STA_MAX_TX_BUFFER ≤ rest.length) :
    StepKeeps cfg s (s.setObj sid { s.obj sid with pending := rest })
      [.parked sid skb, .purged sid oldest rest.length] where
  wf := hs.setPending h fun hop' => absurd hop' hop
  flow := by
    rw [pending_setObj h, pending_eq h]
    exact hskbs
  ok := by
    intro x hx
    rcases mem_cons.mp hx with rfl | hx
    · trivial
    · rw [mem_singleton.mp hx]
      exact hlen

theorem Wf.prepAggLocked (hs : s.Wf) (skb : TxSkb) :
    StepKeeps cfg s (prepAggLocked cfg s skb).1 (prepAggLocked cfg s skb).2 := by
  rw [AggTx.prepAggLocked]
  split
  · exact hs.passed skb
  rename_i sid hsid
  split
  · exact hs.passed _
  rename_i hop
  dsimp only
  have hsp : StepKeeps cfg s (if skb.info.noPsBuffer then { s with staSp := false } else s) [] ∧
      (if skb.info.noPsBuffer then { s with staSp := false } else s).tidTx = some sid ∧
      (if skb.info.noPsBuffer then { s with staSp := false } else s).obj = s.obj := by
    split
    · exact ⟨hs.change rfl (fun _ h => h) rfl (fun _ => rfl) hs.held hs.wantStart hs.empty, hsid, rfl⟩
    · exact ⟨hs.same, hsid, rfl⟩
  generalize (if skb.info.noPsBuffer then { s with staSp := false } else s) = s₁ at hsp ⊢
  obtain ⟨hkeep, hsid₁, hobj⟩ := hsp
  rw [← hobj] at hop
  split
  · rename_i hlen
    obtain ⟨oldest, rest, hskbs⟩ := exists_cons_of_ne_nil
      (append_ne_nil_of_right_ne_nil (s₁.obj sid).pending (cons_ne_nil (AggTx.park cfg skb) []))
    rw [hskbs] at hlen ⊢
    exact hkeep.trans (hkeep.wf.parkPurge hsid₁ hop hskbs (Nat.le_of_lt_succ hlen))
  · exact hkeep.trans (hkeep.wf.park hsid₁ hop _)

/-! ### The steps -/

theorem Wf.setCpu (hs : s.Wf) (cpu : ℕ) (pc : TxPc) : StepKeeps cfg s (s.setCpu cpu pc) [] :=
  hs.change rfl (fun _ h => h) rfl (fun _ => rfl) hs.held hs.wantStart hs.empty

theorem Wf.prepare (hs : s.Wf) {cpu : ℕ} {skb : TxSkb} (h : s.prepare cpu skb = some (s', o)) :
    StepKeeps cfg s s' o := by
  rw [AggTx.prepare] at h
  split at h
  · cases h
    exact hs.passed _
  · cases h
    exact hs.setCpu _ _
  · exact nomatch h

theorem Wf.txGo (hs : s.Wf) {cpu : ℕ} (h : s.txGo cfg cpu = some (s', o)) : StepKeeps cfg s s' o := by
  have hcpu : ∀ pc, StepKeeps cfg s (s.setCpu cpu pc) [] := hs.setCpu cpu
  have hpassed : ∀ pc skb, StepKeeps cfg s (s.setCpu cpu pc) [.passed skb] := fun pc skb =>
    (hcpu pc).trans ((hcpu pc).wf.passed skb)
  rw [AggTx.txGo] at h
  split at h
  · exact nomatch h
  · split at h
    · cases h
      exact hpassed _ _
    · cases h
      exact hcpu _
  · split at h
    · cases h
      exact hpassed _ _
    split at h
    · cases h
      exact hpassed _ _
    · cases h
      exact hcpu _
  · rename_i skb _
    have hlocked : StepKeeps cfg (s.setCpu cpu .idle) _ _ := (hcpu .idle).wf.prepAggLocked skb
    rw [Option.some.inj h] at hlocked
    exact (hcpu .idle).trans hlocked

theorem Wf.startTxBaSession (hs : s.Wf) (allowed alloc : Bool) :
    StepKeeps cfg s (s.startTxBaSession allowed alloc) [] := by
  rw [AggTx.startTxBaSession]
  split
  · exact hs.same
  split
  · exact hs.same
  rename_i hnone
  split
  · exact hs.same
  simp only [Bool.or_eq_true, Option.isSome_iff_ne_none, not_or, not_not] at hnone
  obtain ⟨htid, -⟩ := hnone
  have hne : ∀ {k}, s.tidTx ≠ some k := fun h => absurd (htid.symm.trans h) (by simp)
  constructor
  · constructor
    · exact hs.held
    · exact fun k hk => absurd hk hne
    · intro k hk
      cases hk
      exact ⟨hne, Nat.lt_succ_self _⟩
    · exact fun k hk => absurd hk hne
    · intro k _
      show ((s.setObj s.nextSid _).obj k).pending = []
      rw [obj_setObj]
      split
      · rfl
      · exact hs.rest k hne
    · intro k _
      show ((s.setObj s.nextSid _).obj k).pending = []
      rw [obj_setObj]
      split
      · rfl
      · exact hs.rest k hne
  · show s.pending ++ [] = AggTx.pending _
    rw [append_nil, pending_eq_nil htid]
    exact (pending_eq_nil (s := { s.setObj s.nextSid _ with
      dialogTokenAllocator := _
      tidStartTx := _
      nextSid := _ }) htid).symm
  · exact fun _ hx => absurd hx not_mem_nil

theorem Wf.requestStop (hs : s.Wf) : StepKeeps cfg s s.requestStop [] := by
  rw [AggTx.requestStop]
  split
  · exact hs.same
  split
  · exact hs.same
  · exact hs.setFlags rfl rfl rfl

theorem Wf.started_of_free (hs : s.Wf) (hm : s.mtx = .free) (h : s.tidTx = some sid) :
    (s.obj sid).wantStart = false :=
  hs.started h (by rw [hm]; simp)

/-- A session is stopped or given up: frames would be on it now, but nobody sees it. -/
theorem Wf.stopTxBaSession (hs : s.Wf) (hm : s.mtx = .free) (reason : AggStopReason) :
    StepKeeps cfg s (s.stopTxBaSession reason).1 (s.stopTxBaSession reason).2 := by
  have hfree : StepKeeps cfg s { s with tidStartTx := none }
      (s.tidStartTx.toList.map fun sid => .released sid (s.obj sid).pending) := by
    refine StepKeeps.emit (hs.change rfl (fun _ h => absurd h (by simp)) rfl (fun _ => rfl) hs.held
      hs.wantStart hs.empty) ?_ ?_ ?_
    · cases s.tidStartTx with
      | none => rfl
      | some sid => rfl
    · cases s.tidStartTx with
      | none => rfl
      | some sid => rfl
    · intro x hx
      obtain ⟨sid, hsid, rfl⟩ := mem_map.mp hx
      exact hs.rest sid (hs.start sid (Option.mem_toList.mp hsid)).1
  have hwf := hfree.wf
  rw [AggTx.stopTxBaSession]
  dsimp only
  split
  · exact hfree
  rename_i sid hsid
  have hstarted := hs.started_of_free hm hsid
  split
  · exact hfree
  rw [if_neg (by rw [hstarted]; decide)]
  rw [← append_nil (List.map _ _)]
  refine hfree.trans (hwf.setBits (.stopping sid reason) rfl (fun h => h) ?_ ?_)
  · intro k hk
    cases hk
    exact hsid
  · intro k hk hw
    cases hsid.symm.trans hk
    rw [if_pos rfl] at hw
    exact absurd (hstarted.symm.trans hw) (by decide)

theorem Wf.stopTxBaCb (hs : s.Wf) (hm : s.mtx = .free) (h : s.tidTx = some sid) :
    StepKeeps cfg s (stopTxBaCb cfg s sid).1 (stopTxBaCb cfg s sid).2 := by
  rw [AggTx.stopTxBaCb]
  split
  · exact hs.same
  · exact hs.removeTidTx h hm

theorem Wf.setBitsAt (hs : s.Wf) (hm : s.mtx = .free) (h : s.tidTx = some sid) (mtx : MlmeMtx)
    (hpend : t.pending = (s.obj sid).pending) (hop : t.operational = true → (s.obj sid).operational = true)
    (hw : t.wantStart = (s.obj sid).wantStart) (hheld : ∀ p, mtx.knows = some p → p = some sid) :
    StepKeeps cfg s { s.setObj sid t with mtx := mtx } [] := by
  refine hs.setBits mtx hpend hop ?_ ?_
  · intro p hp
    rw [hheld p hp]
    exact h
  · intro k hk hwant
    cases h.symm.trans hk
    rw [if_pos rfl, hw, hs.started_of_free hm h] at hwant
    exact absurd hwant (by decide)

theorem Wf.startTxBaCb (hs : s.Wf) (hm : s.mtx = .free) (h : s.tidTx = some sid) :
    StepKeeps cfg s (s.startTxBaCb sid) [] := by
  rw [AggTx.startTxBaCb]
  dsimp only
  split
  · exact hs.same
  split
  · refine hs.setBitsAt hm h (.operational sid) rfl (fun h => h) rfl ?_
    intro k hk
    cases hk
    rfl
  · exact hs.setFlags rfl rfl rfl

theorem Wf.goLive (hs : s.Wf) {new : ℕ} (hnew : s.tidStartTx = some new) (h : s.tidTx = none) :
    StepKeeps cfg s { s with
      tidStartTx := none
      tidTx := some new
      mtx := .live new } [] where
  wf := {
    held := fun p hp => Option.some.inj hp
    wantStart := fun k hk _ => by
      cases hk
      rfl
    start := fun k hk => absurd hk (by simp)
    old := fun k hk => by
      cases hk
      exact (hs.start new hnew).2
    rest := fun k _ => hs.rest k (by rw [h]; simp)
    empty := hs.empty }
  flow := by
    show s.pending ++ [] = (s.obj new).pending
    rw [pending_eq_nil h, hs.rest new (hs.start new hnew).1]
    rfl
  ok := fun _ hx => absurd hx not_mem_nil

/-- **Whoever takes the mutex.** -/
theorem Wf.turn (hs : s.Wf) (hm : s.mtx = .free) (t : Turn) :
    StepKeeps cfg s (s.turn cfg t).1 (s.turn cfg t).2 := by
  cases t with
  | goLive blocked =>
    rw [AggTx.turn]
    have hstart : ∀ new, (if blocked = true then none else s.tidStartTx) = some new →
        s.tidStartTx = some new := by
      intro new hnew
      split at hnew
      · exact nomatch hnew
      · exact hnew
    split
    · exact hs.same
    · rename_i new hnew htid
      exact hs.goLive (hstart new hnew) htid
    · rename_i new old hnew htid
      refine StepKeeps.emit (hs.change rfl (fun _ h => absurd h (by simp)) rfl (fun _ => rfl) ?_ ?_
        hs.empty) rfl rfl ?_
      · intro k hk
        cases hk
        exact htid
      · intro k hk _
        cases htid.symm.trans hk
        rfl
      · exact forall_mem_singleton.mpr (hs.rest new (hs.start new (hstart new hnew)).1)
  | startCb blocked =>
    rw [AggTx.turn]
    split
    · exact hs.same
    rename_i sid hsid
    split
    · have hset : StepKeeps cfg s (s.setObj sid { s.obj sid with startCb := false }) [] :=
        hs.setFlags rfl rfl rfl
      exact hset.trans (hset.wf.startTxBaCb hm hsid)
    · exact hs.same
  | wantStop =>
    rw [AggTx.turn]
    split
    · exact hs.same
    rename_i sid hsid
    split
    · have hset : StepKeeps cfg s (s.setObj sid { s.obj sid with wantStop := false }) [] :=
        hs.setFlags rfl rfl rfl
      exact hset.trans (hset.wf.stopTxBaSession hm _)
    · exact hs.same
  | stopCb =>
    rw [AggTx.turn]
    split
    · exact hs.same
    rename_i sid hsid
    split
    · have hset : StepKeeps cfg s (s.setObj sid { s.obj sid with stopCb := false }) [] :=
        hs.setFlags rfl rfl rfl
      exact hset.trans (hset.wf.stopTxBaCb hm hsid)
    · exact hs.same
  | addbaResp resp =>
    rw [AggTx.turn]
    split
    · exact hs.same
    rename_i sid hsid
    dsimp only
    split
    · exact hs.same
    split
    · exact hs.same
    split
    · split
      · exact hs.same
      split
      · refine hs.setBitsAt hm hsid (.operational sid) rfl (fun h => h) rfl ?_
        intro k hk
        cases hk
        rfl
      · exact hs.setFlags rfl rfl rfl
    · exact hs.stopTxBaSession hm _
  | stop reason => exact hs.stopTxBaSession hm reason

/-- The session becomes operational when nothing is left on its list. -/
theorem Wf.operational (hs : s.Wf) (h : s.tidTx = some sid) (hm : s.mtx ≠ .live sid)
    (hnil : s.pending = []) :
    StepKeeps cfg s { s.setObj sid { s.obj sid with operational := true } with mtx := .free } [] := by
  refine hs.change rfl (fun _ h => h) rfl ?_ (fun k hk => nomatch hk) ?_ ?_
  · intro k
    show ((s.setObj sid { s.obj sid with operational := true }).obj k).pending = (s.obj k).pending
    rw [obj_setObj]
    split
    · rename_i hsid
      rw [hsid]
    · rfl
  · intro k hk hw
    cases h.symm.trans hk
    have hw' : ((s.setObj sid { s.obj sid with operational := true }).obj sid).wantStart = true := hw
    rw [obj_setObj, if_pos rfl] at hw'
    exact absurd ((hs.started h hm).symm.trans hw') (by decide)
  · intro k hk
    have hk' : ((s.setObj sid { s.obj sid with operational := true }).obj k).operational = true := hk
    rw [obj_setObj] at hk'
    split at hk'
    · rename_i hsid
      rw [hsid, ← pending_eq h, hnil]
    · exact hs.empty k hk'

/-- **The holder of the mutex goes on.** -/
theorem Wf.goOn (hs : s.Wf) {denied : Bool} (h : s.goOn cfg denied = some (s', o)) :
    StepKeeps cfg s s' o := by
  -- the session it is at is the one that the pointer leads to
  have hheld := hs.held
  have hfree : ∀ p, MlmeMtx.free.knows = some p → s.tidTx = p := fun p hp => nomatch hp
  have hwant : ∀ sid, s.tidTx = some sid → s.mtx ≠ .live sid → ∀ (t : AggObj) (k : ℕ), s.tidTx = some k →
      (if k = sid then t else s.obj k).wantStart = true →
        t.wantStart = (s.obj sid).wantStart → False := by
    intro sid hsid hm t k hk hw ht
    cases hsid.symm.trans hk
    rw [if_pos rfl, ht, hs.started hsid hm] at hw
    exact nomatch hw
  rw [AggTx.goOn] at h
  split at h
  · exact nomatch h
  · rename_i sid hm
    rw [hm] at hheld
    have hsid := hheld (some sid) rfl
    cases h
    refine hs.setBits (.starting sid) rfl (fun h => h) hheld ?_
    intro k hk hw
    cases hsid.symm.trans hk
    rw [if_pos rfl] at hw
    exact nomatch hw
  · rename_i sid hm
    rw [hm] at hheld
    have hsid := hheld (some sid) rfl
    split at h
    · have hkeep : StepKeeps cfg s _ _ := hs.splice hsid
      have hnil : (aggSplicePackets cfg s sid).1.pending = [] := pending_splice hsid
      generalize aggSplicePackets cfg s sid = r at h hkeep hnil
      obtain ⟨s₁, o₁⟩ := r
      cases h
      rw [← append_nil o]
      exact hkeep.trans (hkeep.wf.clear hnil fun p hp => (Option.some.inj hp).symm)
    · cases h
      refine hs.change rfl (fun _ h => h) rfl (fun _ => rfl) hfree ?_ hs.empty
      intro k hk hw
      exact absurd (hm.symm.trans (hs.wantStart k hk hw)) (by simp)
  · rename_i sid hm
    rw [hm] at hheld
    have hsid := hheld (some sid) rfl
    have hkeep : StepKeeps cfg s _ _ := hs.splice hsid
    have hnil : (aggSplicePackets cfg s sid).1.pending = [] := pending_splice hsid
    have hfst := aggSplicePackets_fst cfg s sid
    generalize aggSplicePackets cfg s sid = r at h hkeep hnil hfst
    obtain ⟨s₁, o₁⟩ := r
    cases h
    rw [← append_nil o]
    refine hkeep.trans (hkeep.wf.operational ?_ ?_ hnil)
    · rw [show s₁ = _ from hfst]
      exact hsid
    · rw [show s₁ = _ from hfst]
      intro heq
      exact absurd (hm.symm.trans heq) (by simp)
  · rename_i sid reason hm
    rw [hm] at hheld
    have hsid := hheld (some sid) rfl
    cases h
    refine hs.setBits (.stopped sid reason) rfl (fun h => nomatch h) hheld ?_
    exact fun k hk hw => (hwant sid hsid (by rw [hm]; simp) _ k hk hw rfl).elim
  · rename_i sid reason hm
    rw [hm] at hheld
    have hsid := hheld (some sid) rfl
    cases h
    refine hs.setBits .free rfl (fun h => h) hfree ?_
    exact fun k hk hw => (hwant sid hsid (by rw [hm]; simp) _ k hk hw rfl).elim
  · rename_i sid hm
    cases h
    refine StepKeeps.emit (hs.change rfl (fun _ h => h) rfl (fun _ => rfl) hfree ?_ hs.empty) rfl rfl ?_
    · intro k hk hw
      exact absurd (hm.symm.trans (hs.wantStart k hk hw)) (by simp)
    · refine forall_mem_singleton.mpr (hs.rest sid ?_)
      rw [hheld none (by rw [hm]; rfl)]
      simp

/-- **One step.** -/
theorem Wf.keeps (hs : s.Wf) {e : AggEvent} (h : aggStep cfg s e = some (s', o)) : StepKeeps cfg s s' o := by
  cases e with
  | prepare cpu skb => exact hs.prepare h
  | txGo cpu => exact hs.txGo h
  | start allowed alloc =>
    cases h
    exact hs.startTxBaSession allowed alloc
  | requestStop =>
    cases h
    exact hs.requestStop
  | startCbIrqsafe sid =>
    cases h
    exact hs.setFlags rfl rfl rfl
  | stopCbIrqsafe sid =>
    cases h
    exact hs.setFlags rfl rfl rfl
  | turn t =>
    rw [aggStep] at h
    split at h
    · rename_i hm
      have hturn : StepKeeps cfg s _ _ := hs.turn hm t
      rw [Option.some.inj h] at hturn
      exact hturn
    · exact nomatch h
  | goOn denied => exact hs.goOn h

theorem wf_init : ({} : AggTx).Wf where
  held := fun _ hp => nomatch hp
  wantStart := fun _ h => nomatch h
  start := fun _ h => nomatch h
  old := fun _ h => nomatch h
  rest := fun _ _ => rfl
  empty := fun _ _ => rfl

end Keeps

end AggTx

/-! ### Runs -/

/-- **No frame is lost.** What was put on lists left them in order or is there; what left went to
the queue of the frames, or was the oldest of too many. Only the session that the pointer leads to
has frames. -/
structure FramesKept (cfg : AggCfg) (s : AggTx) (os : List AggOut) : Prop where
  kept : parkedOf os = goneOf cfg os ++ s.pending
  purged : ∀ sid skb left, .purged sid skb left ∈ os → STA_MAX_TX_BUFFER ≤ left
  released : ∀ sid left, .released sid left ∈ os → left = []
  elsewhere : ∀ sid, s.tidTx ≠ some sid → (s.obj sid).pending = []

section Runs

variable {cfg : AggCfg} {s : AggTx} {os : List AggOut}

/-- **No frame is lost** in block-ack setup or teardown, in any interleaving. -/
theorem frames_kept (hr : Reach (aggStep cfg) (fun _ _ _ => True) {} s os) : FramesKept cfg s os := by
  have hinv : s.Wf ∧ parkedOf os = goneOf cfg os ++ s.pending ∧ ∀ x ∈ os, x.Ok := by
    refine hr.invariant (fun s os => s.Wf ∧ parkedOf os = goneOf cfg os ++ s.pending ∧ ∀ x ∈ os, x.Ok) ?_ ?_
    · exact ⟨AggTx.wf_init, rfl, fun _ hx => absurd hx not_mem_nil⟩
    · intro s os e s' o ⟨hwf, hkept, hok⟩ _ hs
      have hstep := hwf.keeps hs
      refine ⟨hstep.wf, ?_, ?_⟩
      · rw [AggTx.parkedOf_append, AggTx.goneOf_append, hkept, append_assoc, hstep.flow,
          append_assoc]
      · intro x hx
        rcases mem_append.mp hx with hx | hx
        · exact hok x hx
        · exact hstep.ok x hx
  obtain ⟨hwf, hkept, hok⟩ := hinv
  exact {
    kept := hkept
    purged := fun _ _ _ h => hok _ h
    released := fun _ _ h => hok _ h
    elsewhere := hwf.rest }

end Runs

/-- A QoS data frame. -/
def aggSkb : TxSkb where
  hdr := {
    frameControl := 0x0088
    durationId := 0
    addr1 := localMac 1
    addr2 := localMac 2
    addr3 := localMac 2
    seqCtrl := 0
    rest := [0, 0] }

/-- A frame finds the next session when it has the lock, before that is started, and waits there
until the driver denies the start. -/
theorem frames_kept_old_pointer : ∃ s os,
    Reach (aggStep { vif := 0, queue := 2 }) (fun _ _ _ => True) {} s os ∧
    FramesKept { vif := 0, queue := 2 } s os ∧ s.tidTx = none ∧
    parkedOf os = [AggTx.park { vif := 0, queue := 2 } aggSkb] ∧
    goneOf { vif := 0, queue := 2 } os = [AggTx.park { vif := 0, queue := 2 } aggSkb] := by
  have hrun : (run (aggStep { vif := 0, queue := 2 }) {} [.start true true, .turn (.goLive false),
      .goOn false, .goOn false, .prepare 0 aggSkb, .txGo 0, .txGo 0,
      -- the first session is stopped and removed, the second one goes live
      .turn (.stop .localRequest), .goOn false, .goOn false, .stopCbIrqsafe 0, .turn .stopCb,
      .start true true, .turn (.goLive false), .txGo 0,
      .goOn false, .goOn true, .goOn false]).map (fun r => (r.1.tidTx, r.2)) =
      some (none, [.released 0 [], .parked 1 (AggTx.park { vif := 0, queue := 2 } aggSkb),
        .spliced 2 1 [AggTx.park { vif := 0, queue := 2 } aggSkb], .released 1 []]) := by
    decide +kernel
  obtain ⟨⟨s, os⟩, hr, hs⟩ := Option.map_eq_some_iff.mp hrun
  obtain ⟨htid, rfl⟩ := Prod.mk.inj hs
  have hreach := Reach.of_run_init hr
  exact ⟨s, _, hreach, frames_kept hreach, htid, rfl, rfl⟩

end Mac80211
