import Mac80211.Mesh.Peering

/-!
# Mesh peering: the two stations agree

While a station keeps its link ID, all its Confirms name the same link ID of the other; one it sent
under an earlier link ID names one that the other drew before. All that is assumed of link IDs is
that a station does not draw one twice.

## Main definitions

* `FreshIds`, `PairInv`

## Main results

* `peering_agreement` — established links agree, whatever was lost, delayed or repeated
-/

namespace Mac80211

open List Option

/-- The link IDs a step draws were not drawn before by the same station. -/
def FreshIds (maxRetries : ℕ) (s : MeshPair) (os : List (MeshNode × UInt16)) (e : MeshNode × MeshEvent) :
    Prop :=
  ∀ s' o, meshStep maxRetries s e = some (s', o) → ∀ d ∈ o, d ∉ os

instance (maxRetries : ℕ) (s : MeshPair) (os : List (MeshNode × UInt16)) (e : MeshNode × MeshEvent) :
    Decidable (FreshIds maxRetries s os e) :=
  match h : meshStep maxRetries s e with
  | none => isTrue fun _ _ hs => by simp [h] at hs
  | some (_, o) => decidable_of_iff (∀ d ∈ o, d ∉ os) (by simp [FreshIds, h])

/-- The station sent a Confirm with these link IDs. -/
def Confirmed (air : List (MeshNode × PlinkFrame)) (p : MeshNode) (llid plid : UInt16) : Prop :=
  (p, meshPlinkFrameTx .peeringConfirm llid plid 0) ∈ air

/-- The station sent an Open with this link ID. -/
def Opened (air : List (MeshNode × PlinkFrame)) (p : MeshNode) (llid : UInt16) : Prop :=
  (p, meshPlinkFrameTx .peeringOpen llid 0 0) ∈ air

/-! ### What the state machine can do -/

/-- Where the state machine goes without starting over or drawing a link ID. -/
inductive PlinkAdvances : PlinkState → PlinkEvent → PlinkState → Prop
  | holding {state : PlinkState} {event : PlinkEvent} (h : state ≠ .listen) :
      PlinkAdvances state event .holding
  | opened : PlinkAdvances .opnSnt .opnAcpt .opnRcvd
  | confirmed : PlinkAdvances .opnSnt .cnfAcpt .cnfRcvd
  | openedConfirmed : PlinkAdvances .opnRcvd .cnfAcpt .estab
  | confirmedOpened : PlinkAdvances .cnfRcvd .opnAcpt .estab

namespace PlinkAdvances

variable {state state' : PlinkState} {event : PlinkEvent}

theorem ne_listen (h : PlinkAdvances state event state') : state ≠ .listen := by
  cases h with
  | holding hs => exact hs
  | _ => decide

theorem ne_listen' (h : PlinkAdvances state event state') : state' ≠ .listen := by
  cases h <;> decide

theorem of_confirmed (h : PlinkAdvances state event state') (hs : state' = .cnfRcvd ∨ state' = .estab) :
    event = .cnfAcpt ∨ state = .cnfRcvd := by
  cases h with
  | holding | opened => simp at hs
  | confirmed | openedConfirmed => exact .inl rfl
  | confirmedOpened => exact .inr rfl

end PlinkAdvances

/-- What one event does: the link IDs stay, or the machine starts over, or a link ID is drawn. -/
inductive FsmMove (sta : MeshSta) (event : PlinkEvent) :
    MeshSta → List PlinkFrame → List UInt16 → Prop
  | stay {sta' : MeshSta} {frames : List PlinkFrame} (hllid : sta'.llid = sta.llid)
      (hplid : sta'.plid = sta.plid)
      (hstate : sta'.plinkState = sta.plinkState ∨ PlinkAdvances sta.plinkState event sta'.plinkState)
      (hframes : ∀ f ∈ frames, f.action = .peeringClose ∨ sta.plinkState ≠ .listen ∧
        event = .opnAcpt ∧ f = meshPlinkFrameTx .peeringConfirm sta.llid sta.plid 0) :
      FsmMove sta event sta' frames []
  | restart : FsmMove sta event (meshPlinkFsmRestart sta) [] []
  | draw {llid : UInt16} (hstate : sta.plinkState = .listen) (hevent : event = .opnAcpt)
      (hllid : llid ≠ sta.llid) :
      FsmMove sta event { sta with plinkState := .opnRcvd, llid := llid }
        [meshPlinkFrameTx .peeringOpen llid 0 0, meshPlinkFrameTx .peeringConfirm llid sta.plid 0]
        [llid]

variable {env : PlinkEnv} {sta : MeshSta}

theorem meshGetNewLlid_ne {llid : UInt16}
    (h : meshGetNewLlid env sta = some llid) : llid ≠ sta.llid := by
  have := find?_some h
  simp only [mem_cons, not_or, decide_eq_true_eq] at this
  exact this.1

namespace FsmMove

variable {sta sta' : MeshSta} {event : PlinkEvent}

theorem quiet (hllid : sta'.llid = sta.llid) (hplid : sta'.plid = sta.plid)
    (hstate : sta'.plinkState = sta.plinkState ∨ PlinkAdvances sta.plinkState event sta'.plinkState) :
    FsmMove sta event sta' (meshPlinkFrames sta' none) [] :=
  .stay hllid hplid hstate fun _ hf => by cases hf

theorem close (hllid : sta'.llid = sta.llid) (hplid : sta'.plid = sta.plid)
    (hstate : sta'.plinkState = sta.plinkState ∨ PlinkAdvances sta.plinkState event sta'.plinkState) :
    FsmMove sta event sta' (meshPlinkFrames sta' (some .peeringClose)) [] :=
  .stay hllid hplid hstate fun f hf => .inl (by
    obtain rfl := mem_singleton.1 hf
    rfl)

theorem confirm (hllid : sta'.llid = sta.llid) (hplid : sta'.plid = sta.plid)
    (hstate : sta'.plinkState = sta.plinkState ∨ PlinkAdvances sta.plinkState event sta'.plinkState)
    (hs : sta.plinkState ≠ .listen) (hevent : event = .opnAcpt) :
    FsmMove sta event sta' (meshPlinkFrames sta' (some .peeringConfirm)) [] :=
  .stay hllid hplid hstate fun f hf => .inr (by
    obtain rfl := mem_singleton.1 hf
    rw [hllid, hplid]
    exact ⟨hs, hevent, rfl⟩)

end FsmMove

variable {drawn : List UInt16}

theorem meshPlinkFsm'_move {sta sta' : MeshSta} {event : PlinkEvent} {action : Option PeeringAction}
    (h : meshPlinkFsm' env sta event = some (sta', action, drawn)) :
    FsmMove sta event sta' (meshPlinkFrames sta' action) drawn := by
  unfold meshPlinkFsm' at h
  split at h
  case h_2 hs =>
    obtain ⟨llid, hl, heq⟩ := map_eq_some_iff.1 h
    cases heq
    exact .draw hs rfl (meshGetNewLlid_ne hl)
  all_goals obtain ⟨rfl, rfl, rfl⟩ := by simpa using h
  case h_1 | h_19 => exact .restart
  case h_3 hs | h_4 hs | h_5 hs | h_8 hs | h_9 hs | h_10 hs | h_13 hs | h_14 hs | h_15 hs | h_17 hs =>
    exact .close rfl rfl (.inr (.holding (by simp [hs])))
  case h_6 hs => exact .confirm rfl rfl (.inr (hs ▸ .opened)) (by simp [hs]) rfl
  case h_7 hs => exact .quiet rfl rfl (.inr (hs ▸ .confirmed))
  case h_11 hs | h_18 hs => exact .confirm rfl rfl (.inl rfl) (by simp [hs]) rfl
  case h_12 hs => exact .quiet rfl rfl (.inr (hs ▸ .openedConfirmed))
  case h_16 hs => exact .confirm rfl rfl (.inr (hs ▸ .confirmedOpened)) (by simp [hs]) rfl
  case h_20 | h_21 | h_22 | h_23 => exact .close rfl rfl (.inl rfl)
  case h_24 => exact .quiet rfl rfl (.inl rfl)

theorem meshPlinkFsm_move {sta sta' : MeshSta} {event : PlinkEvent} {frames : List PlinkFrame}
    (h : meshPlinkFsm env sta event = some (sta', frames, drawn)) :
    FsmMove sta event sta' frames drawn := by
  obtain ⟨⟨sta₁, action, drawn₁⟩, hf, heq⟩ := map_eq_some_iff.1 h
  cases heq
  exact meshPlinkFsm'_move hf

/-! ### The invariant -/

/-- A frame in the air: an Open or a Confirm names link IDs that were drawn. -/
def Honest (os : List (MeshNode × UInt16)) (p : MeshNode) (f : PlinkFrame) : Prop :=
  f.action = .peeringClose ∨ f.llid ≠ 0 ∧ (p, f.llid) ∈ os ∧
    (f = meshPlinkFrameTx .peeringOpen f.llid 0 0 ∨
      ∃ x, f = meshPlinkFrameTx .peeringConfirm f.llid x 0 ∧ x ≠ 0 ∧ (p.peer, x) ∈ os)

variable {f : PlinkFrame} {os : List (MeshNode × UInt16)} {p : MeshNode}

theorem Honest.of_open
    (h : Honest os p f) (ha : f.action = .peeringOpen) : f.llid ≠ 0 ∧ (p, f.llid) ∈ os := by
  rcases h with hc | ⟨hl, hd, -⟩
  · rw [ha] at hc
    cases hc
  · exact ⟨hl, hd⟩

theorem Honest.of_confirm
    (h : Honest os p f) (ha : f.action = .peeringConfirm) : f.llid ≠ 0 ∧ (p, f.llid) ∈ os ∧
      ∃ x, f = meshPlinkFrameTx .peeringConfirm f.llid x 0 ∧ x ≠ 0 ∧ (p.peer, x) ∈ os := by
  rcases h with hc | ⟨hl, hd, ho | hx⟩
  · rw [ha] at hc
    cases hc
  · rw [ho] at ha
    cases ha
  · exact ⟨hl, hd, hx⟩

theorem Honest.mono {os os' : List (MeshNode × UInt16)}
    (h : Honest os p f) : Honest (os ++ os') p f := by
  refine h.imp_right fun ⟨hl, hd, hf⟩ => ⟨hl, mem_append_left _ hd, hf.imp_right ?_⟩
  exact fun ⟨x, hf, hx, hdx⟩ => ⟨x, hf, hx, mem_append_left _ hdx⟩

/-- The link IDs of a record, next to what the station drew and confirmed. -/
structure StaIds (p : MeshNode) (air : List (MeshNode × PlinkFrame)) (os : List (MeshNode × UInt16))
    (llid plid : UInt16) : Prop where
  drawn : llid ≠ 0 → (p, llid) ∈ os
  learnt : plid ≠ 0 → (p.peer, plid) ∈ os
  /-- Under this link ID it confirmed no other link ID than the one it has. -/
  stable : ∀ x, Confirmed air p llid x → x = plid
  /-- What it confirmed under another one was drawn before its own. -/
  order : llid ≠ 0 → ∀ l x, Confirmed air p l x → l ≠ llid →
    os.idxOf (p.peer, x) < os.idxOf (p, llid)

/-- Where the peering stands. -/
structure StaPhase (p : MeshNode) (air : List (MeshNode × PlinkFrame)) (sta : MeshSta) : Prop where
  listen : sta.plinkState = .listen → sta.llid = 0
  active : sta.plinkState ≠ .listen → sta.llid ≠ 0
  /-- A Confirm with the link IDs came in. -/
  confirmed : sta.plinkState = .cnfRcvd ∨ sta.plinkState = .estab →
    Confirmed air p.peer sta.plid sta.llid

/-- Everything in the air is honest. -/
def AirHonest (air : List (MeshNode × PlinkFrame)) (os : List (MeshNode × UInt16)) : Prop :=
  ∀ d ∈ air, Honest os d.1 d.2

theorem AirHonest.confirmed {air : List (MeshNode × PlinkFrame)}
    (h : AirHonest air os) {l x : UInt16} (hc : Confirmed air p l x) :
    l ≠ 0 ∧ (p, l) ∈ os ∧ x ≠ 0 ∧ (p.peer, x) ∈ os := by
  obtain ⟨hl, hd, y, hy, hx, hdx⟩ := (h _ hc).of_confirm rfl
  obtain rfl : x = y := by simpa [meshPlinkFrameTx] using hy
  exact ⟨hl, hd, hx, hdx⟩

namespace StaIds

variable {p : MeshNode} {air : List (MeshNode × PlinkFrame)} {os : List (MeshNode × UInt16)}
  {llid plid : UInt16} {frames : List PlinkFrame}

theorem zero (ha : AirHonest air os) : StaIds p air os 0 0 where
  drawn := fun h => absurd rfl h
  learnt := fun h => absurd rfl h
  stable := fun _ hc => absurd rfl (ha.confirmed hc).1
  order := fun h => absurd rfl h

theorem learn (h : StaIds p air os llid plid) (ha : AirHonest air os) {x : UInt16}
    (hx : (p.peer, x) ∈ os) (hp : plid = 0 ∨ plid = x) : StaIds p air os llid x := by
  rcases hp with rfl | rfl
  · refine ⟨h.drawn, fun _ => hx, fun y hc => ?_, h.order⟩
    exact absurd (h.stable y hc) (ha.confirmed hc).2.2.1
  · exact h

theorem draw (h : StaIds p air os llid plid) (ha : AirHonest air os) {v : UInt16}
    (hv : (p, v) ∉ os) : StaIds p air (os ++ [(p, v)]) v plid where
  drawn := fun _ => mem_append_right _ (mem_singleton_self _)
  learnt := fun hp => mem_append_left _ (h.learnt hp)
  stable := fun _ hc => absurd (ha.confirmed hc).2.1 hv
  order := fun _ l x hc _ => by
    have hx : (p.peer, x) ∈ os := (ha.confirmed hc).2.2.2
    rw [idxOf_append_of_mem hx, idxOf_append_of_notMem hv]
    exact Nat.lt_add_right _ (idxOf_lt_length_of_mem hx)

theorem send (h : StaIds p air os llid plid)
    (hf : ∀ f ∈ frames, ∀ l x, f = meshPlinkFrameTx .peeringConfirm l x 0 → l = llid ∧ x = plid) :
    StaIds p (air ++ frames.map (Prod.mk p)) os llid plid := by
  have hc {l x : UInt16} (hc : Confirmed (air ++ frames.map (Prod.mk p)) p l x) :
      Confirmed air p l x ∨ l = llid ∧ x = plid := by
    refine (mem_append.1 hc).imp_right fun hmem => ?_
    obtain ⟨f, hfm, heq⟩ := mem_map.1 hmem
    exact hf f hfm l x (Prod.mk.inj heq).2
  refine ⟨h.drawn, h.learnt, fun x hx => ?_, fun hl l x hx hne => ?_⟩
  · rcases hc hx with hx | ⟨-, rfl⟩
    · exact h.stable x hx
    · rfl
  · rcases hc hx with hx | ⟨rfl, -⟩
    · exact h.order hl l x hx hne
    · exact absurd rfl hne

theorem other (h : StaIds p air os llid plid) (ha : AirHonest air os) (drawn : List UInt16) :
    StaIds p (air ++ frames.map (Prod.mk p.peer)) (os ++ drawn.map (Prod.mk p.peer)) llid plid := by
  have hc {l x : UInt16} (hc : Confirmed (air ++ frames.map (Prod.mk p.peer)) p l x) :
      Confirmed air p l x := by
    refine (mem_append.1 hc).resolve_right fun hmem => ?_
    obtain ⟨f, -, heq⟩ := mem_map.1 hmem
    exact p.peer_ne (Prod.mk.inj heq).1
  refine ⟨fun hl => mem_append_left _ (h.drawn hl),
    fun hp => mem_append_left _ (h.learnt hp), fun x hx => h.stable x (hc hx),
    fun hl l x hx hne => ?_⟩
  rw [idxOf_append_of_mem (ha.confirmed (hc hx)).2.2.2, idxOf_append_of_mem (h.drawn hl)]
  exact h.order hl l x (hc hx) hne

end StaIds

/-- What a station may do with its record, send and draw. -/
structure MoveOk (p : MeshNode) (air : List (MeshNode × PlinkFrame)) (os : List (MeshNode × UInt16))
    (o : Option MeshSta) (frames : List PlinkFrame) (drawn : List UInt16) : Prop where
  honest : ∀ f ∈ frames, Honest (os ++ drawn.map (Prod.mk p)) p f
  opened : ∀ v ∈ drawn, meshPlinkFrameTx .peeringOpen v 0 0 ∈ frames
  ids : ∀ sta ∈ o, StaIds p (air ++ frames.map (Prod.mk p)) (os ++ drawn.map (Prod.mk p))
    sta.llid sta.plid
  phase : ∀ sta ∈ o, StaPhase p (air ++ frames.map (Prod.mk p)) sta

theorem MoveOk.of_some {air : List (MeshNode × PlinkFrame)} {frames : List PlinkFrame}
    (honest : ∀ f ∈ frames, Honest (os ++ drawn.map (Prod.mk p)) p f)
    (opened : ∀ v ∈ drawn, meshPlinkFrameTx .peeringOpen v 0 0 ∈ frames)
    (ids : StaIds p (air ++ frames.map (Prod.mk p)) (os ++ drawn.map (Prod.mk p)) sta.llid sta.plid)
    (phase : StaPhase p (air ++ frames.map (Prod.mk p)) sta) :
    MoveOk p air os (some sta) frames drawn := by
  refine ⟨honest, opened, fun t ht => ?_, fun t ht => ?_⟩
  · cases ht
    exact ids
  · cases ht
    exact phase

theorem StaPhase.mono {air air' : List (MeshNode × PlinkFrame)}
    (h : StaPhase p air sta) : StaPhase p (air ++ air') sta :=
  ⟨h.listen, h.active, fun hs => mem_append_left _ (h.confirmed hs)⟩

variable {maxRetries : ℕ}

section Moves

variable {p : MeshNode} {air : List (MeshNode × PlinkFrame)} {os : List (MeshNode × UInt16)}
  {sta sta' : MeshSta} {event : PlinkEvent} {frames : List PlinkFrame} {drawn : List UInt16}

/-- The link IDs stay, and a Close, an Open or a Confirm with them is sent. -/
theorem moveOk_stay (hi : StaIds p air os sta.llid sta.plid) (hllid : sta'.llid = sta.llid)
    (hplid : sta'.plid = sta.plid)
    (hframes : ∀ f ∈ frames, f.action = .peeringClose ∨ sta.llid ≠ 0 ∧
      (f = meshPlinkFrameTx .peeringOpen sta.llid 0 0 ∨
        f = meshPlinkFrameTx .peeringConfirm sta.llid sta.plid 0 ∧ sta.plid ≠ 0))
    (hp : StaPhase p (air ++ frames.map (Prod.mk p)) sta') : MoveOk p air os (some sta') frames [] := by
  refine .of_some (fun f hf => ?_) (fun _ hv => by cases hv) ?_ hp
  · refine (hframes f hf).imp_right fun ⟨hl, hf⟩ => ?_
    rw [map_nil, append_nil]
    rcases hf with rfl | ⟨rfl, hx⟩
    · exact ⟨hl, hi.drawn hl, .inl rfl⟩
    · exact ⟨hl, hi.drawn hl, .inr ⟨sta.plid, rfl, hx, hi.learnt hx⟩⟩
  · rw [hllid, hplid, map_nil, append_nil]
    refine hi.send fun f hf l x heq => ?_
    rcases hframes f hf with hc | ⟨-, ho | ⟨hx, -⟩⟩
    · rw [heq] at hc
      cases hc
    · rw [heq] at ho
      simp [meshPlinkFrameTx] at ho
    · rw [heq] at hx
      simpa [meshPlinkFrameTx] using hx

/-- A link ID is drawn, and an Open with it is sent, and perhaps a Confirm. -/
theorem moveOk_draw (ha : AirHonest air os) (hi : StaIds p air os sta.llid sta.plid) {v : UInt16}
    (hv : v ≠ 0) (hfresh : (p, v) ∉ os) (hllid : sta'.llid = v) (hplid : sta'.plid = sta.plid)
    (hopen : meshPlinkFrameTx .peeringOpen v 0 0 ∈ frames)
    (hframes : ∀ f ∈ frames, f = meshPlinkFrameTx .peeringOpen v 0 0 ∨
      f = meshPlinkFrameTx .peeringConfirm v sta.plid 0 ∧ sta.plid ≠ 0)
    (hp : StaPhase p (air ++ frames.map (Prod.mk p)) sta') : MoveOk p air os (some sta') frames [v] := by
  have hd : (p, v) ∈ os ++ [v].map (Prod.mk p) := by simp
  refine .of_some (fun f hf => .inr ?_) ?_ ?_ hp
  · rcases hframes f hf with rfl | ⟨rfl, hx⟩
    · exact ⟨hv, hd, .inl rfl⟩
    · exact ⟨hv, hd, .inr ⟨sta.plid, rfl, hx, mem_append_left _ (hi.learnt hx)⟩⟩
  · intro w hw
    rw [mem_singleton.1 hw]
    exact hopen
  · rw [hllid, hplid]
    refine (hi.draw ha hfresh).send fun f hf l x heq => ?_
    rcases hframes f hf with ho | ⟨hx, -⟩
    · rw [heq] at ho
      simp [meshPlinkFrameTx] at ho
    · rw [heq] at hx
      simpa [meshPlinkFrameTx] using hx

/-- Whatever the state machine does keeps what holds of the record, if the event is what it says. -/
theorem FsmMove.moveOk (hm : FsmMove sta event sta' frames drawn) (ha : AirHonest air os)
    (hi : StaIds p air os sta.llid sta.plid) (hp : StaPhase p air sta)
    (hopn : event = .opnAcpt → sta.plid ≠ 0)
    (hcnf : event = .cnfAcpt → Confirmed air p.peer sta.plid sta.llid)
    (hfresh : ∀ v ∈ drawn, (p, v) ∉ os) : MoveOk p air os (some sta') frames drawn := by
  cases hm with
  | stay hllid hplid hstate hframes =>
    refine moveOk_stay hi hllid hplid (fun f hf => ?_) (StaPhase.mono ?_)
    · refine (hframes f hf).imp_right fun ⟨hs, he, hf⟩ => ⟨hp.active hs, .inr ⟨hf, hopn he⟩⟩
    · rcases hstate with hs | hs
      · refine ⟨fun h => ?_, fun h => ?_, fun h => ?_⟩
        · exact hllid.trans (hp.listen (hs ▸ h))
        · exact hllid ▸ hp.active (hs ▸ h)
        · rw [hllid, hplid]
          exact hp.confirmed (hs ▸ h)
      · refine ⟨fun h => absurd h hs.ne_listen', fun _ => hllid ▸ hp.active hs.ne_listen, fun h => ?_⟩
        rw [hllid, hplid]
        rcases hs.of_confirmed h with he | hs
        · exact hcnf he
        · exact hp.confirmed (.inl hs)
  | restart =>
    have hz : StaIds p air os 0 0 := .zero ha
    refine .of_some (fun _ hf => by cases hf) (fun _ hv => by cases hv) ?_
      ⟨fun _ => rfl, fun h => absurd rfl h, ?_⟩
    · simpa [meshPlinkFsmRestart] using hz
    · rintro (h | h) <;> cases h
  | draw hstate hevent hllid =>
    have hv : _ ≠ (0 : UInt16) := hp.listen hstate ▸ hllid
    refine moveOk_draw ha hi hv (hfresh _ (mem_singleton_self _)) rfl rfl mem_cons_self
      (fun f hf => ?_) ⟨fun h => (by cases h), fun _ => hv, ?_⟩
    · rcases mem_cons.1 hf with rfl | hf
      · exact .inl rfl
      · exact .inr ⟨mem_singleton.1 hf, hopn hevent⟩
    · rintro (h | h) <;> cases h

theorem moveOk_none : MoveOk p air os none [] [] :=
  ⟨fun _ hf => (by cases hf), fun _ hv => (by cases hv), fun _ h => (by cases h),
    fun _ h => by cases h⟩

theorem moveOk_close (llid plid : UInt16) (reason : ℕ) :
    MoveOk p air os none [meshPlinkFrameTx .peeringClose llid plid reason] [] := by
  refine ⟨fun f hf => .inl ?_, fun _ hv => (by cases hv), fun _ h => (by cases h),
    fun _ h => by cases h⟩
  rw [mem_singleton.1 hf]
  rfl

theorem moveOk_same (hi : StaIds p air os sta.llid sta.plid) (hp : StaPhase p air sta) :
    MoveOk p air os (some sta) [] [] :=
  moveOk_stay hi rfl rfl (fun _ hf => by cases hf) hp.mono

variable {llid plid : UInt16}

theorem opnAcpt_of_some (h : meshPlinkGetEvent env (some sta) f llid plid = .opnAcpt) :
    f.action = .peeringOpen ∧ (sta.plid = 0 ∨ sta.plid = plid) := by
  rw [meshPlinkGetEvent] at h
  split at h
  · cases h
  · split at h
    · cases h
    · split at h
      · rename_i hact
        split at h
        · cases h
        · rename_i hc
          simp only [ne_eq, Bool.or_eq_true, not_or, decide_not, Bool.not_eq_true', decide_eq_false_iff_not,
            not_not, Bool.and_eq_true, not_and_or] at hc
          exact ⟨hact, hc.2⟩
      · split at h <;> cases h
      · repeat' split at h
        all_goals cases h

theorem opnAcpt_of_none
    (h : meshPlinkGetEvent env none f llid plid = .opnAcpt) : f.action = .peeringOpen := by
  rw [meshPlinkGetEvent] at h
  split at h
  · cases h
  · split at h
    · cases h
    · rename_i hact
      exact not_not.1 hact

theorem cnfAcpt_of_some (h : meshPlinkGetEvent env (some sta) f llid plid = .cnfAcpt) :
    f.action = .peeringConfirm ∧ sta.llid = llid ∧ (sta.plid = 0 ∨ sta.plid = plid) := by
  rw [meshPlinkGetEvent] at h
  split at h
  · cases h
  · split at h
    · cases h
    · split at h
      · split at h <;> cases h
      · rename_i hact
        split at h
        · cases h
        · rename_i hc
          simp only [ne_eq, Bool.or_eq_true, not_or, decide_not, Bool.not_eq_true', decide_eq_false_iff_not,
            not_not, Bool.and_eq_true, not_and_or] at hc
          exact ⟨hact, hc.1.2, hc.2⟩
      · repeat' split at h
        all_goals cases h

theorem moveOk_run {o' : Option MeshSta}
    (h : ((meshPlinkFsm env sta event).map fun (sta, frames, drawn) => (some sta, frames, drawn)) =
      some (o', frames, drawn))
    (ha : AirHonest air os) (hi : StaIds p air os sta.llid sta.plid) (hp : StaPhase p air sta)
    (hopn : event = .opnAcpt → sta.plid ≠ 0)
    (hcnf : event = .cnfAcpt → Confirmed air p.peer sta.plid sta.llid)
    (hfresh : ∀ v ∈ drawn, (p, v) ∉ os) : MoveOk p air os o' frames drawn := by
  obtain ⟨⟨sta', frames', drawn'⟩, hf, heq⟩ := map_eq_some_iff.1 h
  cases heq
  exact (meshPlinkFsm_move hf).moveOk ha hi hp hopn hcnf hfresh

variable {o o' : Option MeshSta}

theorem meshProcessPlinkFrame_ok
    (h : meshProcessPlinkFrame env o f = some (o', frames, drawn)) (ha : AirHonest air os)
    (hi : ∀ sta ∈ o, StaIds p air os sta.llid sta.plid) (hp : ∀ sta ∈ o, StaPhase p air sta)
    (hf : (p.peer, f) ∈ air) (hfresh : ∀ v ∈ drawn, (p, v) ∉ os) :
    MoveOk p air os o' frames drawn := by
  have hnone (h : some (none, [], []) = some (o', frames, drawn)) : MoveOk p air os o' frames drawn := by
    cases h
    exact moveOk_none
  rw [meshProcessPlinkFrame] at h
  dsimp only at h
  split at h
  · cases h
    cases o with
    | none => exact moveOk_none
    | some sta => exact moveOk_same (hi sta rfl) (hp sta rfl)
  · split at h
    · rename_i sta he
      obtain ⟨hact, hplid⟩ := opnAcpt_of_some he
      obtain ⟨hne, hd⟩ := (ha _ hf).of_open hact
      have hphase : StaPhase p air { sta with plid := f.llid } := by
        refine ⟨(hp sta rfl).listen, (hp sta rfl).active, fun hs => ?_⟩
        have hc := (hp sta rfl).confirmed hs
        rw [← hplid.resolve_left (ha.confirmed hc).1]
        exact hc
      exact moveOk_run h ha ((hi sta rfl).learn ha hd hplid) hphase (fun _ => hne)
        (fun he => by cases he) hfresh
    · rename_i he
      obtain ⟨hne, hd⟩ := (ha _ hf).of_open (opnAcpt_of_none he)
      split at h
      · have hz : StaIds p air os 0 0 := .zero ha
        refine moveOk_run h ha (hz.learn ha hd (.inl rfl)) ⟨fun _ => rfl, fun h => absurd rfl h, ?_⟩
          (fun _ => hne) (fun he => by cases he) hfresh
        rintro (h | h) <;> cases h
      · exact hnone h
    · cases h
      exact moveOk_close _ _ _
    · exact hnone h
    · cases h
      exact moveOk_same (hi _ rfl) (hp _ rfl)
    · rename_i sta he
      obtain ⟨hact, hllid, hplid⟩ := cnfAcpt_of_some he
      obtain ⟨-, hd, x, hfx, -, -⟩ := (ha _ hf).of_confirm hact
      have hfx : f = meshPlinkFrameTx .peeringConfirm f.llid x 0 := hfx
      obtain rfl : sta.llid = x := by
        rw [hllid, hfx]
        rfl
      have hc : Confirmed air p.peer f.llid sta.llid := by
        rw [Confirmed, ← hfx]
        exact hf
      have hids (t : MeshSta) (ht : t.plinkState = sta.plinkState) (hl : t.llid = sta.llid)
          (hx : t.plid = f.llid) : StaIds p air os t.llid t.plid ∧ StaPhase p air t := by
        rw [hl, hx]
        refine ⟨(hi sta rfl).learn ha hd hplid, fun h => ?_, fun h => ?_, fun _ => ?_⟩
        · exact hl.trans ((hp sta rfl).listen (ht ▸ h))
        · exact hl ▸ (hp sta rfl).active (ht ▸ h)
        · rw [hl, hx]
          exact hc
      split at h
      · obtain ⟨hids, hphase⟩ := hids { sta with plid := f.llid } rfl rfl rfl
        exact moveOk_run h ha hids hphase (fun he => by cases he) (fun _ => hc) hfresh
      · rename_i hne
        have hx := hplid.resolve_left hne
        obtain ⟨hids, hphase⟩ := hids sta rfl rfl hx
        exact moveOk_run h ha hids hphase (fun he => by cases he) (fun _ => hx ▸ hc) hfresh
    · rename_i sta hopn _ hcnf
      exact moveOk_run h ha (hi sta rfl) (hp sta rfl) (fun he => (hopn he).elim)
        (fun he => (hcnf he).elim) hfresh

theorem StaPhase.holding (hp : StaPhase p air sta) (hs : sta.plinkState ≠ .listen) :
    StaPhase p air { sta with plinkState := .holding } := by
  refine ⟨fun h => (by cases h), fun _ => hp.active hs, ?_⟩
  rintro (h | h) <;> cases h

theorem meshPlinkTimer_ok (h : meshPlinkTimer maxRetries sta = (sta', frames))
    (ha : AirHonest air os) (hi : StaIds p air os sta.llid sta.plid) (hp : StaPhase p air sta) :
    MoveOk p air os (some sta') frames [] := by
  have hretry (hs : sta.plinkState ≠ .listen)
      (h : (if sta.plinkRetries < maxRetries then
          ({ sta with plinkRetries := sta.plinkRetries + 1 },
            [meshPlinkFrameTx .peeringOpen sta.llid sta.plid 0])
        else ({ sta with plinkState := .holding },
            [meshPlinkFrameTx .peeringClose sta.llid sta.plid reasonMeshMaxRetries])) =
        (sta', frames)) : MoveOk p air os (some sta') frames [] := by
    split at h
    · cases h
      refine moveOk_stay hi rfl rfl (fun f hf => .inr ⟨hp.active hs, .inl ?_⟩)
        (StaPhase.mono ⟨hp.listen, hp.active, hp.confirmed⟩)
      exact mem_singleton.1 hf
    · cases h
      exact moveOk_stay hi rfl rfl (fun f hf => .inl (by rw [mem_singleton.1 hf]; rfl))
        (hp.holding hs).mono
  unfold meshPlinkTimer at h
  split at h
  · rename_i hs
    exact hretry (by simp [hs]) h
  · rename_i hs
    exact hretry (by simp [hs]) h
  · rename_i hs
    cases h
    exact moveOk_stay hi rfl rfl (fun f hf => .inl (by rw [mem_singleton.1 hf]; rfl))
      (hp.holding (by simp [hs])).mono
  · cases h
    have hrestart : FsmMove sta .clsAcpt (meshPlinkFsmRestart sta) [] [] := .restart
    exact hrestart.moveOk ha hi hp (fun h => by cases h)
      (fun h => by cases h) fun _ hv => by cases hv
  · cases h
    exact moveOk_same hi hp

theorem meshPlinkOpen_ok (h : meshPlinkOpen env sta = some (sta', frames, drawn))
    (hi : StaIds p air os sta.llid sta.plid) (hp : StaPhase p air sta) (ha : AirHonest air os)
    (hs : sta.plinkState = .listen) (hfresh : ∀ v ∈ drawn, (p, v) ∉ os) :
    MoveOk p air os (some sta') frames drawn := by
  rw [meshPlinkOpen] at h
  split at h
  · cases h
    exact moveOk_same hi hp
  · obtain ⟨v, hv, heq⟩ := map_eq_some_iff.1 h
    dsimp only at heq
    rw [if_neg (fun hn => hn.1 hs)] at heq
    cases heq
    have hne : v ≠ 0 := hp.listen hs ▸ meshGetNewLlid_ne hv
    refine moveOk_draw ha hi hne (hfresh v (mem_singleton_self v)) rfl rfl
      (mem_singleton_self _) (fun f hf => .inl (mem_singleton.1 hf))
      ⟨fun h => (by cases h), fun _ => hne, ?_⟩
    rintro (h | h) <;> cases h

theorem meshNeighbourUpdate_ok
    (h : meshNeighbourUpdate env o = some (o', frames, drawn)) (ha : AirHonest air os)
    (hi : ∀ sta ∈ o, StaIds p air os sta.llid sta.plid) (hp : ∀ sta ∈ o, StaPhase p air sta)
    (hfresh : ∀ v ∈ drawn, (p, v) ∉ os) : MoveOk p air os o' frames drawn := by
  have hnew : StaIds p air os (o.getD {}).llid (o.getD {}).plid ∧ StaPhase p air (o.getD {}) := by
    cases o with
    | none =>
      refine ⟨.zero ha, fun _ => rfl, fun h => absurd rfl h, ?_⟩
      rintro (h | h) <;> cases h
    | some sta => exact ⟨hi sta rfl, hp sta rfl⟩
  rw [meshNeighbourUpdate] at h
  split at h
  · cases h
    exact moveOk_none
  · dsimp only at h
    split at h
    · rename_i hs
      obtain ⟨⟨sta', frames', drawn'⟩, hopen, heq⟩ := map_eq_some_iff.1 h
      cases heq
      simp only [Bool.and_eq_true, decide_eq_true_eq] at hs
      exact meshPlinkOpen_ok hopen hnew.1 hnew.2 ha hs.1.1 hfresh
    · cases h
      exact moveOk_same hnew.1 hnew.2

theorem meshHandle_ok {e : MeshEvent}
    (h : meshHandle maxRetries o e = some (o', frames, drawn)) (ha : AirHonest air os)
    (hi : ∀ sta ∈ o, StaIds p air os sta.llid sta.plid) (hp : ∀ sta ∈ o, StaPhase p air sta)
    (hf : e.sentBy air p.peer) (hfresh : ∀ v ∈ drawn, (p, v) ∉ os) :
    MoveOk p air os o' frames drawn := by
  cases e with
  | neighbour env => exact meshNeighbourUpdate_ok h ha hi hp hfresh
  | receive env f => exact meshProcessPlinkFrame_ok h ha hi hp hf hfresh
  | timer =>
    cases o with
    | none => cases h
    | some sta =>
      simp only [meshHandle] at h
      cases h
      exact meshPlinkTimer_ok rfl ha (hi sta rfl) (hp sta rfl)
  | destroy =>
    cases o with
    | none => cases h
    | some sta =>
      simp only [meshHandle] at h
      cases h
      exact moveOk_close _ _ _

end Moves

/-! ### Two stations -/

/-- The invariant of the two stations. -/
structure PairInv (s : MeshPair) (os : List (MeshNode × UInt16)) : Prop where
  honest : AirHonest s.air os
  /-- A link ID that was drawn was sent in an Open. -/
  opened : ∀ d ∈ os, Opened s.air d.1 d.2
  ids : ∀ p, ∀ sta ∈ s.sta p, StaIds p s.air os sta.llid sta.plid
  phase : ∀ p, ∀ sta ∈ s.sta p, StaPhase p s.air sta

theorem PairInv.init : PairInv {} [] where
  honest := fun _ h => by cases h
  opened := fun _ h => by cases h
  ids := fun _ _ h => by cases h
  phase := fun _ _ h => by cases h

theorem PairInv.step {s s' : MeshPair} {os o : List (MeshNode × UInt16)}
    {e : MeshNode × MeshEvent} (h : PairInv s os) (hC : FreshIds maxRetries s os e)
    (hs : meshStep maxRetries s e = some (s', o)) : PairInv s' (os ++ o) := by
  have hfresh := hC s' o hs
  obtain ⟨p, e⟩ := e
  rw [meshStep] at hs
  split at hs
  · rename_i hsent
    obtain ⟨⟨sta, frames, drawn⟩, hh, heq⟩ := map_eq_some_iff.1 hs
    cases heq
    have hok : MoveOk p s.air os sta frames drawn :=
      meshHandle_ok hh h.honest (h.ids p) (h.phase p) hsent fun v hv =>
        hfresh (p, v) (mem_map_of_mem hv)
    -- the other station's record is not touched
    have hother {q : MeshNode} (hq : q ≠ p) : q = p.peer ∧ p = q.peer := by
      obtain rfl := (MeshNode.eq_or_eq_peer p q).resolve_left hq
      exact ⟨rfl, p.peer_peer.symm⟩
    refine ⟨fun d hd => ?_, fun d hd => ?_, fun q t ht => ?_, fun q t ht => ?_⟩
    · rcases mem_append.1 hd with hd | hd
      · exact (h.honest d hd).mono
      · obtain ⟨f, hf, rfl⟩ := mem_map.1 hd
        exact hok.honest f hf
    · rcases mem_append.1 hd with hd | hd
      · exact mem_append_left _ (h.opened d hd)
      · obtain ⟨v, hv, rfl⟩ := mem_map.1 hd
        exact mem_append_right _ (mem_map_of_mem (hok.opened v hv))
    · have ht : t ∈ Function.update s.sta p sta q := ht
      by_cases hq : q = p
      · subst hq
        rw [Function.update_self] at ht
        exact hok.ids t ht
      · rw [Function.update_of_ne hq] at ht
        have hids : StaIds q (s.air ++ frames.map (Prod.mk q.peer)) (os ++ drawn.map (Prod.mk q.peer))
          t.llid t.plid := (h.ids q t ht).other h.honest drawn
        rwa [← (hother hq).2] at hids
    · have ht : t ∈ Function.update s.sta p sta q := ht
      by_cases hq : q = p
      · subst hq
        rw [Function.update_self] at ht
        exact hok.phase t ht
      · rw [Function.update_of_ne hq] at ht
        exact (h.phase q t ht).mono
  · cases hs

/-- **The two stations agree.** An established link was confirmed by the other station, which opened
one with this ID; if both have one, each has the other's ID. -/
theorem peering_agreement {maxRetries : ℕ} {s : MeshPair} {os : List (MeshNode × UInt16)}
    (hr : Machine.Reach (meshStep maxRetries) (FreshIds maxRetries) {} s os) :
    (∀ p, ∀ sta ∈ s.sta p, sta.plinkState = .estab →
      Confirmed s.air p.peer sta.plid sta.llid ∧ Opened s.air p.peer sta.plid) ∧
    ∀ a ∈ s.sta .a, ∀ b ∈ s.sta .b, a.plinkState = .estab → b.plinkState = .estab →
      a.llid = b.plid ∧ a.plid = b.llid := by
  have h : PairInv s os := by
    refine hr.invariant PairInv .init ?_
    intro s os e s' o h hC hs
    exact h.step hC hs
  refine ⟨fun p sta hsta he => ?_, fun a ha b hb hea heb => ?_⟩
  · have hc := (h.phase p sta hsta).confirmed (.inr he)
    exact ⟨hc, h.opened _ (h.honest.confirmed hc).2.1⟩
  · have hca : Confirmed s.air .b a.plid a.llid := (h.phase .a a ha).confirmed (.inr hea)
    have hcb : Confirmed s.air .a b.plid b.llid := (h.phase .b b hb).confirmed (.inr heb)
    obtain ⟨hpa, -, hla, -⟩ := h.honest.confirmed hca
    obtain ⟨hpb, -, hlb, -⟩ := h.honest.confirmed hcb
    by_cases hab : b.plid = a.llid
    · rw [hab] at hcb
      exact ⟨hab.symm, ((h.ids .a a ha).stable _ hcb).symm⟩
    by_cases hba : a.plid = b.llid
    · rw [hba] at hca
      exact ⟨(h.ids .b b hb).stable _ hca, hba⟩
    -- each confirmed the other's link under an earlier link ID: both would have been drawn first
    have h₁ := (h.ids .a a ha).order hla _ _ hcb hab
    have h₂ := (h.ids .b b hb).order hlb _ _ hca hba
    exact absurd (h₁.trans h₂) (lt_irrefl _)

/-- One station opens, and both confirm. -/
def peeringExample : List (MeshNode × MeshEvent) :=
  [(.a, .neighbour { random := [0, 7] }),
    (.b, .receive { random := [9] } (meshPlinkFrameTx .peeringOpen 7 0 0)),
    (.a, .receive {} (meshPlinkFrameTx .peeringOpen 9 0 0)),
    (.a, .receive {} (meshPlinkFrameTx .peeringConfirm 9 7 0)),
    (.b, .receive {} (meshPlinkFrameTx .peeringConfirm 7 9 0))]

theorem peering_agreement_example : ∃ s os a b,
    Machine.run (meshStep 3) {} peeringExample = some (s, os) ∧
      s.sta .a = some a ∧ s.sta .b = some b ∧ a.plinkState = .estab ∧ b.plinkState = .estab ∧
      a.llid = b.plid ∧ a.plid = b.llid ∧ Confirmed s.air .b a.plid a.llid := by
  have hmeets : Machine.Meets (meshStep 3) (FreshIds 3) {} [] peeringExample := by decide +kernel
  have hrun : (Machine.run (meshStep 3) {} peeringExample).map (fun d => (d.1.sta .a, d.1.sta .b)) =
      some (some { plinkState := .estab, llid := 7, plid := 9 },
        some { plinkState := .estab, llid := 9, plid := 7 }) := by decide +kernel
  obtain ⟨⟨s, os⟩, hrun, hs⟩ := map_eq_some_iff.1 hrun
  obtain ⟨ha, hb⟩ := Prod.mk.inj hs
  obtain ⟨hc, hab⟩ := peering_agreement (.of_run .init hmeets hrun)
  obtain ⟨hl, hp⟩ := hab _ ha _ hb rfl rfl
  exact ⟨s, os, _, _, hrun, ha, hb, rfl, rfl, hl, hp, (hc .a _ ha rfl).1⟩

end Mac80211
