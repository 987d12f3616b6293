import Mac80211.Mesh.PeeringAgreement
import Mac80211.Mesh.PlinkIface

/-!
# Which peers are accepted

`mesh_plink_get_event` makes the event of a known peer a rejection if the frame is not of the same
mesh, and then, without an `else`, decides by the number of links and the link IDs alone.
`mesh_plink_free_count` may be negative.

## Main results

* `acceptsRightly_iff` — when a frame is accepted rightly
* `onlyPeersAdvance`
-/

namespace Mac80211

section Event

variable (s : PlinkIf) (env : PlinkEnv) (mgmt : PlinkMgmt) (frame : PlinkFrame)

/-- The event of a frame at an interface. -/
def PlinkIf.event : PlinkEvent :=
  meshPlinkGetEvent (s.callEnv env mgmt.sa mgmt.elems) ((s.staInfoGet mgmt.sa).map MeshPeer.mesh) frame
    (frame.plid.getD 0) frame.llid

/-- Fewer links than there may be. -/
def PlinkIf.BelowLimit : Prop := s.estabPlinks < s.cfg.maxPeerLinks.toNat
deriving Decidable

/-- An Open or a Confirm is accepted only from the same mesh, and below the limit. -/
def AcceptsRightly : Prop :=
  s.event env mgmt frame = .opnAcpt ∨ s.event env mgmt frame = .cnfAcpt →
    meshMatchesLocal s.cfg.profile mgmt.elems = true ∧ s.BelowLimit

/-- The record is authenticated and not blocked, and the link IDs of the Open or Confirm are its own, as far
as it has any. -/
structure Answerable (peer : MeshPeer) (frame : PlinkFrame) : Prop where
  auth : peer.auth = true
  notBlocked : peer.mesh.plinkState ≠ .blocked
  notClose : frame.action ≠ .peeringClose
  llid : frame.action = .peeringConfirm → peer.mesh.llid = frame.plid.getD 0
  plid : peer.mesh.plid = 0 ∨ peer.mesh.plid = frame.llid

instance (peer : MeshPeer) (frame : PlinkFrame) : Decidable (Answerable peer frame) :=
  decidable_of_iff (peer.auth = true ∧ peer.mesh.plinkState ≠ .blocked ∧ frame.action ≠ .peeringClose ∧
      (frame.action = .peeringConfirm → peer.mesh.llid = frame.plid.getD 0) ∧
      (peer.mesh.plid = 0 ∨ peer.mesh.plid = frame.llid))
    ⟨fun ⟨h1, h2, h3, h4, h5⟩ => ⟨h1, h2, h3, h4, h5⟩, fun ⟨h1, h2, h3, h4, h5⟩ => ⟨h1, h2, h3, h4, h5⟩⟩

/-- The frame is not from the same mesh, but there is a record it fits to, and the number of links is not
exactly the limit. -/
def TakesStranger : Prop :=
  ∃ peer ∈ s.staInfoGet mgmt.sa, Answerable peer frame ∧
    meshMatchesLocal s.cfg.profile mgmt.elems = false ∧ s.estabPlinks ≠ s.cfg.maxPeerLinks.toNat
deriving Decidable

/-- There are more links than there may be, and a record the frame fits to, or an Open from a new
station of the same mesh. -/
def TakesTooMany : Prop :=
  s.cfg.maxPeerLinks.toNat < s.estabPlinks ∧
    match s.staInfoGet mgmt.sa with
    | some peer => Answerable peer frame
    | none => frame.action = .peeringOpen ∧ meshMatchesLocal s.cfg.profile mgmt.elems = true

instance : Decidable (TakesTooMany s mgmt frame) :=
  match h : s.staInfoGet mgmt.sa with
  | some peer => decidable_of_iff
      (s.cfg.maxPeerLinks.toNat < s.estabPlinks ∧ Answerable peer frame) (by rw [TakesTooMany, h])
  | none => decidable_of_iff (s.cfg.maxPeerLinks.toNat < s.estabPlinks ∧ frame.action = .peeringOpen ∧
      meshMatchesLocal s.cfg.profile mgmt.elems = true) (by rw [TakesTooMany, h])

end Event

/-! ### One frame -/

section OneFrame

variable {s : PlinkIf} {env : PlinkEnv} {mgmt : PlinkMgmt} {frame : PlinkFrame}

theorem free_iff (s : PlinkIf) (env : PlinkEnv) (mgmt : PlinkMgmt) : (s.callEnv env mgmt.sa mgmt.elems).free = true ↔
    s.estabPlinks ≠ s.cfg.maxPeerLinks.toNat := by
  show (s.meshPlinkFreeCount != 0) = true ↔ _
  rw [bne_iff_ne, PlinkIf.meshPlinkFreeCount, sub_ne_zero]
  exact ne_comm

theorem accepts_ite {c : Prop} [Decidable c] {ignored accepted : PlinkEvent}
    (hi : ¬(ignored = .opnAcpt ∨ ignored = .cnfAcpt)) (ha : accepted = .opnAcpt ∨ accepted = .cnfAcpt) :
    (if c then ignored else accepted) = .opnAcpt ∨ (if c then ignored else accepted) = .cnfAcpt ↔ ¬c := by
  by_cases hc : c
  · rw [if_pos hc]
    exact ⟨fun h => absurd h hi, fun h => absurd hc h⟩
  · rw [if_neg hc]
    exact ⟨fun _ => hc, fun _ => ha⟩

/-- What a record accepts, whatever the frame says of the mesh it is from. -/
theorem accepts_record (env : PlinkEnv) (sta : MeshSta) (frame : PlinkFrame) (llid plid : UInt16) :
    meshPlinkGetEvent env (some sta) frame llid plid = .opnAcpt ∨
      meshPlinkGetEvent env (some sta) frame llid plid = .cnfAcpt ↔
    env.auth = true ∧ sta.plinkState ≠ .blocked ∧ frame.action ≠ .peeringClose ∧
      (frame.action = .peeringConfirm → sta.llid = llid) ∧ (sta.plid = 0 ∨ sta.plid = plid) ∧
      env.free = true := by
  rw [meshPlinkGetEvent]
  by_cases hauth : env.auth = true
  · by_cases hblocked : sta.plinkState = .blocked
    · rw [if_neg (by simp [hauth]), if_pos hblocked]
      exact ⟨fun h => absurd h (by decide), fun h => absurd hblocked h.2.1⟩
    · rw [if_neg (by simp [hauth]), if_neg hblocked]
      have hids : (sta.plid ≠ 0 && sta.plid ≠ plid) = true ↔ ¬(sta.plid = 0 ∨ sta.plid = plid) := by
        simp
      cases frame.action with
      | peeringOpen =>
        dsimp only
        rw [accepts_ite (by decide) (.inl rfl), Bool.or_eq_true, hids]
        generalize (sta.plid = 0 ∨ sta.plid = plid) = fits
        simp [hauth, hblocked, and_comm]
      | peeringConfirm =>
        dsimp only
        rw [accepts_ite (by decide) (.inr rfl), Bool.or_eq_true, hids]
        generalize (sta.plid = 0 ∨ sta.plid = plid) = fits
        simp [hauth, hblocked]
        tauto
      | peeringClose =>
        refine ⟨fun h => ?_, fun h => absurd rfl h.2.2.1⟩
        dsimp only at h
        split_ifs at h <;> simp at h
  · rw [if_pos (by simp [hauth])]
    exact ⟨fun h => absurd h (by decide), fun h => absurd h.1 hauth⟩

/-- A station with a record is accepted if the record fits and the number of links is not the limit. -/
theorem event_known {peer : MeshPeer} (hpeer : s.staInfoGet mgmt.sa = some peer) :
    s.event env mgmt frame = .opnAcpt ∨ s.event env mgmt frame = .cnfAcpt ↔
      Answerable peer frame ∧ s.estabPlinks ≠ s.cfg.maxPeerLinks.toNat := by
  have hauth : (s.callEnv env mgmt.sa mgmt.elems).auth = peer.auth := by
    rw [PlinkIf.callEnv, hpeer]
    rfl
  rw [← free_iff s env mgmt, PlinkIf.event, hpeer, Option.map_some, accepts_record, hauth]
  constructor
  · rintro ⟨h1, h2, h3, h4, h5, hfree⟩
    exact ⟨⟨h1, h2, h3, h4, h5⟩, hfree⟩
  · rintro ⟨⟨h1, h2, h3, h4, h5⟩, hfree⟩
    exact ⟨h1, h2, h3, h4, h5, hfree⟩

/-- A station without one is accepted if it sends an Open, is of the same mesh, and the number of links is
not the limit. -/
theorem event_new (hpeer : s.staInfoGet mgmt.sa = none) :
    s.event env mgmt frame = .opnAcpt ∨ s.event env mgmt frame = .cnfAcpt ↔
      frame.action = .peeringOpen ∧ meshMatchesLocal s.cfg.profile mgmt.elems = true ∧
        s.estabPlinks ≠ s.cfg.maxPeerLinks.toNat := by
  rw [← free_iff s env mgmt, PlinkIf.event, hpeer, Option.map_none, meshPlinkGetEvent]
  show _ ↔ _ ∧ (s.callEnv env mgmt.sa mgmt.elems).matchesLocal = true ∧ _
  cases frame.action with
  | peeringOpen =>
    cases hmatch : (s.callEnv env mgmt.sa mgmt.elems).matchesLocal
    all_goals cases hfree : (s.callEnv env mgmt.sa mgmt.elems).free
    all_goals simp
  | peeringConfirm =>
    cases hmatch : (s.callEnv env mgmt.sa mgmt.elems).matchesLocal
    all_goals simp
  | peeringClose => simp

/-- **One frame.** It is accepted rightly, unless it is from a stranger whose record it fits to, or there
are too many links. -/
theorem acceptsRightly_iff : AcceptsRightly s env mgmt frame ↔
    ¬TakesStranger s mgmt frame ∧ ¬TakesTooMany s mgmt frame := by
  rw [AcceptsRightly, TakesStranger, TakesTooMany, PlinkIf.BelowLimit]
  cases hpeer : s.staInfoGet mgmt.sa with
  | none =>
    rw [event_new hpeer]
    constructor
    · intro h
      refine ⟨fun ⟨_, hmem, _⟩ => absurd hmem (by simp), fun ⟨hmany, haction, hmatch⟩ => ?_⟩
      exact absurd (h ⟨haction, hmatch, hmany.ne'⟩).2 (not_lt.mpr hmany.le)
    · rintro ⟨-, hmany⟩ ⟨haction, hmatch, hne⟩
      exact ⟨hmatch, lt_of_le_of_ne (not_lt.mp fun hlt => hmany ⟨hlt, haction, hmatch⟩) hne⟩
  | some peer =>
    rw [event_known hpeer]
    constructor
    · intro h
      refine ⟨?_, fun ⟨hmany, hfit⟩ => ?_⟩
      · rintro ⟨_, hmem, hfit, hmatch, hne⟩
        cases hmem
        exact absurd ((h ⟨hfit, hne⟩).1.symm.trans hmatch) (by decide)
      · exact absurd (h ⟨hfit, hmany.ne'⟩).2 (not_lt.mpr hmany.le)
    · rintro ⟨hstranger, hmany⟩ ⟨hfit, hne⟩
      have hle : s.estabPlinks ≤ s.cfg.maxPeerLinks.toNat := not_lt.mp fun hlt => hmany ⟨hlt, hfit⟩
      refine ⟨?_, lt_of_le_of_ne hle hne⟩
      cases hmatch : meshMatchesLocal s.cfg.profile mgmt.elems with
      | true => rfl
      | false => exact absurd ⟨peer, rfl, hfit, hmatch, hne⟩ hstranger

theorem accepted_of_fsm {sta sta' : MeshSta} {event : PlinkEvent} {frames : List PlinkFrame}
    {drawn : List UInt16} (h : meshPlinkFsm env sta event = some (sta', frames, drawn))
    (hadvanced : sta'.plinkState.advanced = true) (hne : sta'.plinkState ≠ sta.plinkState) :
    event = .opnAcpt ∨ event = .cnfAcpt := by
  cases meshPlinkFsm_move h with
  | stay _ _ hstate _ =>
    rcases hstate with hsame | hmove
    · exact absurd hsame hne
    · generalize sta.plinkState = state at hmove
      generalize sta'.plinkState = state' at hmove hadvanced
      cases hmove with
      | holding _ => exact absurd hadvanced (by decide)
      | opened | confirmedOpened => exact .inl rfl
      | confirmed | openedConfirmed => exact .inr rfl
  | restart => exact absurd hadvanced (by simp [meshPlinkFsmRestart, PlinkState.advanced])
  | draw _ hevent _ => exact .inl hevent

theorem accepted_of_meshFrameEvent {sta : MeshSta}
    (h : meshFrameEvent env sta frame = .opnAcpt ∨ meshFrameEvent env sta frame = .cnfAcpt) :
    meshPlinkGetEvent env (some sta) frame (frame.plid.getD 0) frame.llid = .opnAcpt ∨
      meshPlinkGetEvent env (some sta) frame (frame.plid.getD 0) frame.llid = .cnfAcpt := by
  rw [meshFrameEvent] at h
  split at h
  · exact absurd h (by decide)
  · exact h

theorem advanced_of_frame {s' : PlinkIf} {o : List PlinkAdvance}
    (h : meshRxPlinkFrame s env mgmt = some (s', o)) : ∀ a ∈ o,
      a.matchesLocal = meshMatchesLocal s.cfg.profile mgmt.elems ∧ a.estabPlinks = s.estabPlinks ∧
      a.maxPeerLinks = s.cfg.maxPeerLinks ∧ ∃ frame, plinkFrame? s.cfg.secNone mgmt = some frame ∧
        (s.event env mgmt frame = .opnAcpt ∨ s.event env mgmt frame = .cnfAcpt) := by
  intro a ha
  have hnil : ∀ s'', some (s'', ([] : List PlinkAdvance)) = some (s', o) → False := by
    intro s'' heq
    cases heq
    exact absurd ha List.not_mem_nil
  rw [meshRxPlinkFrame] at h
  split_ifs at h
  · exact (hnil _ h).elim
  · exact (hnil _ h).elim
  · cases hframe : plinkFrame? s.cfg.secNone mgmt with
    | none =>
      rw [hframe] at h
      exact (hnil _ h).elim
    | some frame =>
      rw [hframe] at h
      obtain ⟨⟨new, frames, drawn⟩, hprocess, heq⟩ := Option.map_eq_some_iff.1 h
      cases new with
      | none => exact (hnil _ (congrArg some heq)).elim
      | some sta =>
        cases heq
        dsimp only at ha
        split at ha
        · rename_i hmoved
          obtain rfl := List.mem_singleton.1 ha
          obtain ⟨hadvanced, hne⟩ := Bool.and_eq_true_iff.1 hmoved
          have hne' := bne_iff_ne.1 hne
          refine ⟨rfl, rfl, rfl, frame, rfl, ?_⟩
          rw [PlinkIf.event]
          have hmove := meshProcessPlinkFrame_move hprocess
          generalize (s.staInfoGet mgmt.sa).map MeshPeer.mesh = old at hmove hne' ⊢
          generalize hnew : some sta = new at hmove
          cases hmove with
          | same =>
            rw [← hnew] at hne'
            exact absurd rfl hne'
          | known hold hfsm =>
            cases hnew
            rw [hold] at hne' ⊢
            refine accepted_of_meshFrameEvent (accepted_of_fsm hfsm hadvanced fun hsame => hne' ?_)
            rw [hsame]
            rfl
          | new hold hevent _ =>
            rw [hold]
            exact .inl hevent
        · exact absurd ha List.not_mem_nil

end OneFrame

/-! ### Runs -/

/-- No frame is from a stranger whose record it fits to, or comes when there are too many links. -/
def SoundlyAsked (s : PlinkIf) (_ : List PlinkAdvance) : PlinkIfEvent → Prop
  | .frame _ mgmt => ∀ frame ∈ plinkFrame? s.cfg.secNone mgmt,
      ¬TakesStranger s mgmt frame ∧ ¬TakesTooMany s mgmt frame
  | _ => True

instance (s : PlinkIf) (os : List PlinkAdvance) : DecidablePred (SoundlyAsked s os)
  | .frame _ mgmt => inferInstanceAs (Decidable (∀ frame ∈ plinkFrame? s.cfg.secNone mgmt,
      ¬TakesStranger s mgmt frame ∧ ¬TakesTooMany s mgmt frame))
  | .join .. | .leave | .updateConfig .. | .addStation .. | .changeStation .. | .delStation ..
  | .beacon .. | .timer .. => instDecidableTrue

theorem silent_of_step {s s' : PlinkIf} {e : PlinkIfEvent} {o : List PlinkAdvance}
    (h : plinkIfStep s e = some (s', o)) (hframe : ∀ env mgmt, e ≠ .frame env mgmt) : o = [] := by
  have hmap : ∀ r : Option PlinkIf, (r.map fun s => (s, ([] : List PlinkAdvance))) = some (s', o) →
      o = [] := by
    intro r hr
    obtain ⟨_, -, heq⟩ := Option.map_eq_some_iff.1 hr
    exact (Prod.mk.inj heq).2.symm
  have hsome : ∀ t, some (t, ([] : List PlinkAdvance)) = some (s', o) → o = [] := by
    intro t heq
    exact (Prod.mk.inj (Option.some.inj heq)).2.symm
  cases e with
  | join | leave | updateConfig => exact hsome _ h
  | addStation | changeStation | beacon => exact hmap _ h
  | delStation addr =>
    cases addr with
    | none => exact hsome _ h
    | some addr => exact hsome _ h
  | frame env mgmt => exact absurd rfl (hframe env mgmt)
  | timer addr =>
    rw [plinkIfStep] at h
    cases hpeer : s.staInfoGet addr with
    | none =>
      rw [hpeer] at h
      exact nomatch h
    | some peer =>
      rw [hpeer] at h
      exact hsome _ h

/-- **Only acceptable peers advance**: a frame is accepted rightly exactly where neither case
arises; in runs without them every link that gets further does so by a frame from the same mesh,
below the limit. -/
theorem onlyPeersAdvance (cfg : PlinkCfg) (t : PlinkIf) (env : PlinkEnv) (mgmt : PlinkMgmt)
    (frame : PlinkFrame) :
    (AcceptsRightly t env mgmt frame ↔ ¬TakesStranger t mgmt frame ∧ ¬TakesTooMany t mgmt frame) ∧
    ∀ {s : PlinkIf} {os : List PlinkAdvance}, Machine.Reach plinkIfStep SoundlyAsked { cfg := cfg } s os →
      ∀ a ∈ os, a.matchesLocal = true ∧ a.estabPlinks < a.maxPeerLinks.toNat := by
  refine ⟨acceptsRightly_iff, fun {s os} hr => ?_⟩
  refine hr.invariant (fun _ os => ∀ a ∈ os, a.matchesLocal = true ∧ a.estabPlinks < a.maxPeerLinks.toNat)
    (fun a ha => absurd ha List.not_mem_nil) ?_
  intro s os e s' o h hc hs a ha
  rcases List.mem_append.1 ha with ha | ha
  · exact h a ha
  · cases e with
    | frame env mgmt =>
      obtain ⟨hmatch, hestab, hmax, frame, hframe, haccepted⟩ := advanced_of_frame hs a ha
      rw [hmatch, hestab, hmax]
      exact acceptsRightly_iff.mpr (hc frame hframe) haccepted
    | _ =>
      rw [silent_of_step hs fun _ _ heq => nomatch heq] at ha
      exact absurd ha List.not_mem_nil

/-- A mesh on channel 1, for this many links. -/
private def admissionCfg (maxPeerLinks : UInt16) : PlinkCfg where
  maxPeerLinks := maxPeerLinks
  maxRetries := 3
  profile := {
    meshId := [109]
    ppId := 1
    pmId := 1
    ccId := 0
    spId := 1
    authId := 0
    basicRates := 0
    chandef := chandefCreate 2412 .noHt
    band := .ghz2
    sband := some [] }

/-- The elements of a frame of the mesh with this ID. -/
private def admissionElems (meshId : UInt8) (peering : List UInt8) : MeshElems where
  meshId := some [meshId]
  meshConfig := some {
    psel := 1
    pmetric := 1
    congest := 0
    synch := 1
    auth := 0 }
  peering := some peering

/-- A frame of station 4, or another one. -/
private def admissionFrame (sa meshId : UInt8) (action : PeeringAction) (peering : List UInt8) :
    PlinkIfEvent :=
  .frame { random := [7, 9] } {
    da := Vector.replicate 6 2
    sa := Vector.replicate 6 sa
    action := action
    elems := admissionElems meshId peering }

/-- A station opens a link, and confirms it. -/
private def admissionRun (sa meshId : UInt8) (llid : UInt8) : List PlinkIfEvent :=
  [admissionFrame sa meshId .peeringOpen [0, 0, 5, 0],
    admissionFrame sa meshId .peeringConfirm [0, 0, 5, 0, llid, 0]]

/-- A station is accepted, and its link established. -/
theorem onlyPeersAdvance_one : AcceptsRightly { cfg := admissionCfg 1 } {} {
        da := Vector.replicate 6 2
        sa := Vector.replicate 6 4
        action := .peeringOpen
        elems := admissionElems 109 [0, 0, 5, 0] } {
        action := .peeringOpen
        llid := 5
        plid := none } ∧
    ∃ s os, Machine.Reach plinkIfStep SoundlyAsked { cfg := admissionCfg 1 } s os ∧
      os.map PlinkAdvance.state = [.opnRcvd, .estab] ∧
      ∀ a ∈ os, a.matchesLocal = true ∧ a.estabPlinks < a.maxPeerLinks.toNat := by
  have hrun : (Machine.run plinkIfStep { cfg := admissionCfg 1 } (admissionRun 4 109 7)).map
      (fun r => r.2.map PlinkAdvance.state) = some [.opnRcvd, .estab] := by decide +kernel
  obtain ⟨⟨s, os⟩, hr, hs⟩ := Option.map_eq_some_iff.mp hrun
  have hreach : Machine.Reach plinkIfStep SoundlyAsked { cfg := admissionCfg 1 } s os :=
    Machine.Reach.of_run .init (by decide +kernel) hr
  obtain ⟨haccepts, hruns⟩ := onlyPeersAdvance (admissionCfg 1) { cfg := admissionCfg 1 } {} {
      da := Vector.replicate 6 2
      sa := Vector.replicate 6 4
      action := .peeringOpen
      elems := admissionElems 109 [0, 0, 5, 0] } {
      action := .peeringOpen
      llid := 5
      plid := none }
  exact ⟨haccepts.mpr (by decide +kernel), s, os, hreach, hs, hruns hreach⟩

/-- With a link opened from a beacon, frames of another mesh are accepted; with the limit lowered
below the number of links, one more is established. -/
theorem strangersAdvance :
    (∃ s os, Machine.Reach plinkIfStep (fun _ _ _ => True) { cfg := admissionCfg 1 } s os ∧
      os.map (fun a => (a.state, a.matchesLocal)) = [(.opnRcvd, false), (.estab, false)]) ∧
    (∃ s os, Machine.Reach plinkIfStep (fun _ _ _ => True) { cfg := admissionCfg 1 } s os ∧
      os.map (fun a => (a.state, a.estabPlinks, a.maxPeerLinks)) =
        [(.opnRcvd, 0, 1), (.estab, 0, 1), (.opnRcvd, 1, 0), (.estab, 1, 0)]) ∧
    ¬∀ s env mgmt frame, AcceptsRightly s env mgmt frame := by
  have hstranger : (Machine.run plinkIfStep { cfg := admissionCfg 1 }
      (.beacon { random := [7] } (Vector.replicate 6 4) (admissionElems 109 []) ::
        admissionRun 4 120 7)).map (fun r => r.2.map fun a => (a.state, a.matchesLocal)) =
      some [(.opnRcvd, false), (.estab, false)] := by decide +kernel
  have hmany : (Machine.run plinkIfStep { cfg := admissionCfg 1 }
      (admissionRun 4 109 7 ++ .updateConfig (admissionCfg 0) :: admissionRun 6 109 9)).map
        (fun r => r.2.map fun a => (a.state, a.estabPlinks, a.maxPeerLinks)) =
      some [(.opnRcvd, 0, 1), (.estab, 0, 1), (.opnRcvd, 1, 0), (.estab, 1, 0)] := by decide +kernel
  obtain ⟨⟨s₁, os₁⟩, hr₁, hs₁⟩ := Option.map_eq_some_iff.mp hstranger
  obtain ⟨⟨s₂, os₂⟩, hr₂, hs₂⟩ := Option.map_eq_some_iff.mp hmany
  refine ⟨⟨s₁, os₁, .of_run_init hr₁, hs₁⟩, ⟨s₂, os₂, .of_run_init hr₂, hs₂⟩, fun hright => ?_⟩
  have htooMany := hright {
      cfg := admissionCfg 0
      estabPlinks := 1 } {} {
        da := Vector.replicate 6 2
        sa := Vector.replicate 6 4
        action := .peeringOpen
        elems := admissionElems 109 [0, 0, 5, 0] } {
        action := .peeringOpen
        llid := 5
        plid := none } (.inl (by decide +kernel))
  exact absurd htooMany.2 (by decide)

end Mac80211
