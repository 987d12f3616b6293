import Mac80211.Lib.Keyed
import Mac80211.Mesh.PeeringAgreement
import Mac80211.Mesh.PlinkIface

/-!
# Counting links, and keeping their IDs

`estab_plinks`, which every function that writes a `plink_state` counts by hand, is the number of
established links. The link ID of a record changes during a peering in one place: `mesh_plink_open`
draws one before it looks at the state.

## Main results

* `plinks_accounting`
* `llidKept_iff` — when a step keeps the link IDs
-/

namespace Mac80211

open Option List

/-! ### What a record counts for -/

/-- An established link counts for one. -/
def MeshSta.linked (sta : MeshSta) : ℤ := if sta.plinkState = .estab then 1 else 0

/-- No record counts for nothing. -/
def linkedOf (sta : Option MeshSta) : ℤ := (sta.map MeshSta.linked).getD 0

variable {params : StationParams}

section Records

variable {env : PlinkEnv} {sta sta' : MeshSta} {event : PlinkEvent}

theorem linked_deactivate (sta : MeshSta) :
    (meshPlinkDeactivateLocked sta).2 = (meshPlinkDeactivateLocked sta).1.linked - sta.linked := by
  by_cases h : sta.plinkState = .estab
  · simp [meshPlinkDeactivateLocked, MeshSta.linked, h]
  · simp [meshPlinkDeactivateLocked, MeshSta.linked, h]

variable {drawn : List UInt16}

theorem linked_fsm' {action : Option PeeringAction}
    (h : meshPlinkFsm' env sta event = some (sta', action, drawn)) :
    meshPlinkFsmEstab sta event = sta'.linked - sta.linked := by
  unfold meshPlinkFsm' at h
  split at h
  case h_2 hs =>
    obtain ⟨llid, -, heq⟩ := map_eq_some_iff.1 h
    cases heq
    simp [meshPlinkFsmEstab, MeshSta.linked, hs]
  all_goals obtain ⟨rfl, rfl, rfl⟩ := by simpa using h
  case h_24 =>
    rw [sub_self, meshPlinkFsmEstab]
    all_goals assumption
  all_goals
    rename_i hs
    simp [meshPlinkFsmEstab, MeshSta.linked, hs, meshPlinkClose, meshPlinkFsmRestart,
      meshPlinkDeactivateLocked]

variable {old new : Option MeshSta}

theorem linked_frame {frame : PlinkFrame} (h : FrameMove env old frame new) :
    (old.map fun sta => meshPlinkFsmEstab sta (meshFrameEvent env sta frame)).getD 0 =
      linkedOf new - linkedOf old := by
  cases h with
  | same hevent =>
    rw [sub_self]
    cases old with
    | none => rfl
    | some sta =>
      rw [map_some, getD_some, hevent sta rfl, meshPlinkFsmEstab]
      all_goals
        intros
        contradiction
  | known hold hfsm =>
    obtain ⟨⟨_, action, drawn⟩, hfsm, heq⟩ := map_eq_some_iff.1 hfsm
    cases heq
    rw [hold]
    have hfsm' := linked_fsm' hfsm
    exact hfsm'
  | new hold _ hfsm =>
    obtain ⟨⟨_, action, drawn⟩, hfsm, heq⟩ := map_eq_some_iff.1 hfsm
    cases heq
    rw [hold]
    exact (linked_fsm' hfsm).trans (by rfl)

theorem FrameMove.none {frame : PlinkFrame} (h : FrameMove env old frame new)
    (hnew : new = .none) : old = .none := by
  cases h with
  | same _ => exact hnew
  | known _ _ => exact nomatch hnew
  | new hold _ _ => exact hold

variable {frames : List PlinkFrame}

/-- What opening a link does: nothing, or a link ID is drawn, and the link opened if there is none. -/
theorem meshPlinkOpen_cases (h : meshPlinkOpen env sta = some (sta', frames, drawn)) :
    env.auth = false ∧ sta' = sta ∨ ∃ llid, env.auth = true ∧ llid ≠ sta.llid ∧
      sta' = if sta.plinkState ≠ .listen ∧ sta.plinkState ≠ .blocked then { sta with llid := llid } else
        { sta with
          llid := llid
          plinkState := .opnSnt } := by
  rw [meshPlinkOpen] at h
  by_cases hauth : env.auth = true
  · rw [if_neg (by simp [hauth])] at h
    obtain ⟨llid, hllid, heq⟩ := map_eq_some_iff.1 h
    refine .inr ⟨llid, hauth, meshGetNewLlid_ne hllid, ?_⟩
    dsimp only at heq
    split at heq
    · rename_i hs
      rw [if_pos hs]
      exact (Prod.mk.inj heq).1.symm
    · rename_i hs
      rw [if_neg hs]
      exact (Prod.mk.inj heq).1.symm
  · rw [if_pos (by simp [hauth])] at h
    cases h
    exact .inl ⟨by simpa using hauth, rfl⟩

theorem linked_open
    (h : meshPlinkOpen env sta = some (sta', frames, drawn)) : sta'.linked = sta.linked := by
  rcases meshPlinkOpen_cases h with ⟨-, rfl⟩ | ⟨llid, -, -, rfl⟩
  · rfl
  · split
    · rfl
    · rename_i hs
      have hne : sta.plinkState ≠ .estab := fun hestab => hs (by simp [hestab])
      simp [MeshSta.linked, hne]

theorem meshNeighbourUpdate_cases (h : meshNeighbourUpdate env old = some (new, frames, drawn)) :
    new = old ∨ new = some (old.getD {}) ∨
    ∃ sta' frames drawn, (old.getD {}).plinkState = .listen ∧ new = some sta' ∧
      meshPlinkOpen env (old.getD {}) = some (sta', frames, drawn) := by
  rw [meshNeighbourUpdate] at h
  split at h
  · rename_i hnone
    cases h
    have hold := (Bool.and_eq_true_iff.1 hnone).1
    exact .inl (isNone_iff_eq_none.1 hold).symm
  · dsimp only at h
    split at h
    · rename_i hopen
      obtain ⟨⟨sta', frames', drawn'⟩, ho, heq⟩ := map_eq_some_iff.1 h
      cases heq
      rw [Bool.and_eq_true_iff, Bool.and_eq_true_iff, decide_eq_true_eq] at hopen
      exact .inr (.inr ⟨sta', frames', drawn', hopen.1.1, rfl, ho⟩)
    · cases h
      exact .inr (.inl rfl)

theorem linkedOf_getD (old : Option MeshSta) : linkedOf (some (old.getD {})) = linkedOf old := by
  cases old with
  | none => rfl
  | some sta => rfl

theorem linkedOf_neighbourUpdate (h : meshNeighbourUpdate env old = some (new, frames, drawn)) :
    linkedOf new = linkedOf old := by
  rcases meshNeighbourUpdate_cases h with rfl | rfl | ⟨sta', frames', drawn', -, rfl, ho⟩
  · rfl
  · exact linkedOf_getD old
  · rw [← linkedOf_getD old]
    exact linked_open ho

theorem linked_timer (maxRetries : ℕ) (sta : MeshSta) :
    (meshPlinkTimer maxRetries sta).1.linked = sta.linked := by
  rw [meshPlinkTimer]
  split
  all_goals
    rename_i hs
    try split
  all_goals simp [MeshSta.linked, meshPlinkFsmRestart, *]

theorem linked_applyPlinkState (sta : MeshSta) (state : Option PlinkState) :
    (staApplyPlinkState sta state).2 = (staApplyPlinkState sta state).1.linked - sta.linked := by
  by_cases h : sta.plinkState = .estab
  · cases state with
    | none => exact (sub_self _).symm
    | some state => cases state <;> simp [staApplyPlinkState, MeshSta.linked, h]
  · cases state with
    | none => exact (sub_self _).symm
    | some state => cases state <;> simp [staApplyPlinkState, MeshSta.linked, h]

theorem linked_applyMeshParams {n : ℤ}
    (h : staApplyMeshParams env sta params = some (sta', n)) : n = sta'.linked - sta.linked := by
  have hstate := linked_applyPlinkState sta params.plinkState
  rw [staApplyMeshParams] at h
  generalize staApplyPlinkState sta params.plinkState = r at h hstate
  cases haction : params.plinkAction with
  | noAction =>
    rw [haction] at h
    cases h
    exact hstate
  | actionOpen =>
    rw [haction] at h
    obtain ⟨⟨_, frames, drawn⟩, ho, heq⟩ := map_eq_some_iff.1 h
    cases heq
    rw [linked_open ho]
    exact hstate
  | actionBlock =>
    rw [haction] at h
    cases h
    have hblock := linked_deactivate r.1
    rw [hstate]
    show _ + (meshPlinkDeactivateLocked r.1).2 = (meshPlinkDeactivateLocked r.1).1.linked - _
    rw [hblock]
    abel

theorem linked_applyParameters {peer peer' : MeshPeer} {n : ℤ}
    (h : staApplyParameters env peer params = some (peer', n)) :
    n = peer'.mesh.linked - peer.mesh.linked ∧ peer'.addr = peer.addr := by
  obtain ⟨⟨mesh, m⟩, hm, heq⟩ := map_eq_some_iff.1 h
  cases heq
  exact ⟨linked_applyMeshParams hm, rfl⟩

end Records

/-! ### The count -/

/-- The stations whose `plink_state` is `ESTAB`. -/
def PlinkIf.established (s : PlinkIf) : ℕ := s.peers.countP fun p => p.mesh.plinkState = .estab

/-- An address has one record, and every established link is counted. -/
structure PlinkIfInv (s : PlinkIf) : Prop where
  nodup : (s.peers.map MeshPeer.addr).Nodup
  counted : s.estabPlinks = s.established

theorem linked_eq (sta : MeshSta) :
    sta.linked = ((if decide (sta.plinkState = .estab) = true then 1 else 0 : ℕ) : ℤ) := by
  by_cases h : sta.plinkState = .estab
  · simp [MeshSta.linked, h]
  · simp [MeshSta.linked, h]

variable {o : List PlinkAdvance} {env : PlinkEnv} {new : Option MeshSta}

namespace PlinkIfInv

variable {s : PlinkIf} {addr : Mac} {peer peer' : MeshPeer} {n : ℤ}

theorem init (cfg : PlinkCfg) : PlinkIfInv { cfg := cfg } := ⟨nodup_nil, rfl⟩

theorem mem_of_get (hpeer : s.staInfoGet addr = some peer) : peer ∈ s.peers ∧ peer.addr = addr :=
  ⟨mem_of_find?_eq_some hpeer, by simpa using List.find?_some hpeer⟩

theorem get_none_iff : s.staInfoGet addr = none ↔ addr ∉ s.peers.map MeshPeer.addr := by
  rw [PlinkIf.staInfoGet, List.find?_eq_none]
  simp

theorem put (h : PlinkIfInv s) (hpeer : s.staInfoGet addr = some peer) (haddr : peer'.addr = peer.addr)
    (hn : n = peer'.mesh.linked - peer.mesh.linked) : PlinkIfInv ((s.putPeer peer').addEstab n) := by
  obtain ⟨hmem, -⟩ := mem_of_get hpeer
  refine ⟨?_, ?_⟩
  · show (List.map MeshPeer.addr (Keyed.replace MeshPeer.addr peer' s.peers)).Nodup
    rw [Keyed.map_key_replace]
    exact h.nodup
  · have hcount := Keyed.countP_replace (fun p : MeshPeer => decide (p.mesh.plinkState = .estab)) h.nodup
      hmem haddr
    have hcounted := h.counted
    rw [linked_eq, linked_eq] at hn
    show s.estabPlinks + n =
      (((Keyed.replace MeshPeer.addr peer' s.peers).countP fun p => p.mesh.plinkState = .estab : ℕ) : ℤ)
    rw [PlinkIf.established] at hcounted
    omega

theorem append (h : PlinkIfInv s) (hpeer : s.staInfoGet peer.addr = none) (hn : n = peer.mesh.linked) :
    PlinkIfInv ({ s with peers := s.peers ++ [peer] }.addEstab n) := by
  have hcounted := h.counted
  rw [PlinkIf.established] at hcounted
  rw [linked_eq] at hn
  refine ⟨?_, ?_⟩
  · show (List.map MeshPeer.addr (s.peers ++ [peer])).Nodup
    rw [map_append, nodup_append]
    refine ⟨h.nodup, nodup_singleton _, fun a ha b hb hab => ?_⟩
    rw [mem_singleton.1 hb] at hab
    exact get_none_iff.1 hpeer (hab ▸ ha)
  · show s.estabPlinks + n = (((s.peers ++ [peer]).countP fun p => p.mesh.plinkState = .estab : ℕ) : ℤ)
    rw [countP_append, countP_singleton]
    omega

theorem store (h : PlinkIfInv s)
    (hn : n = linkedOf new - linkedOf ((s.staInfoGet addr).map MeshPeer.mesh))
    (hnone : new = none → (s.staInfoGet addr).map MeshPeer.mesh = none) :
    PlinkIfInv ((s.store addr new).addEstab n) := by
  cases new with
  | none =>
    rw [hnone rfl] at hn
    have hzero : n = 0 := hn
    rw [hzero, PlinkIf.store_none]
    exact ⟨h.nodup, (add_zero _).trans h.counted⟩
  | some mesh =>
    cases hpeer : s.staInfoGet addr with
    | none =>
      rw [hpeer] at hn
      rw [s.store_new hpeer]
      exact h.append hpeer (hn.trans (sub_zero _))
    | some peer =>
      rw [hpeer] at hn
      rw [s.store_known hpeer]
      exact h.put hpeer rfl hn

theorem cleanup (h : PlinkIfInv s) (addr : Mac) : PlinkIfInv (meshStaCleanup s addr) := by
  rw [meshStaCleanup]
  cases hpeer : s.staInfoGet addr with
  | none => exact h
  | some peer =>
    obtain ⟨hmem, rfl⟩ := mem_of_get hpeer
    have hcount := Keyed.countP_remove (fun p : MeshPeer => decide (p.mesh.plinkState = .estab)) h.nodup hmem
    have hcounted := h.counted
    have hlinked := linked_deactivate peer.mesh
    have hblocked : (meshPlinkDeactivateLocked peer.mesh).1.linked = 0 := rfl
    rw [hblocked, linked_eq] at hlinked
    rw [PlinkIf.established] at hcounted
    refine ⟨h.nodup.sublist (filter_sublist.map _), ?_⟩
    show s.estabPlinks + (meshPlinkDeactivateLocked peer.mesh).2 =
      (((Keyed.remove MeshPeer.addr peer.addr s.peers).countP fun p => p.mesh.plinkState = .estab : ℕ) : ℤ)
    omega

theorem flush (h : PlinkIfInv s) : PlinkIfInv (staInfoFlush s) := by
  rw [staInfoFlush]
  generalize s.peers.map MeshPeer.addr = addrs
  induction addrs generalizing s with
  | nil => exact h
  | cons addr addrs ih => exact ih (h.cleanup addr)

variable {s' : PlinkIf}

theorem addStation (h : PlinkIfInv s)
    (hs : Mac80211.addStation s env addr params = some s') : PlinkIfInv s' := by
  obtain ⟨⟨peer, n⟩, hp, rfl⟩ := map_eq_some_iff.1 hs
  obtain ⟨hn, haddr⟩ := linked_applyParameters hp
  dsimp only
  split
  · exact h
  · rename_i hnew
    have hnone : s.staInfoGet addr = none := by
      by_contra hne
      exact hnew (by simp [isSome_iff_ne_none.2 hne])
    refine h.append (haddr ▸ hnone) (hn.trans ?_)
    exact sub_zero _

theorem changeStation (h : PlinkIfInv s)
    (hs : Mac80211.changeStation s env addr params = some s') : PlinkIfInv s' := by
  rw [Mac80211.changeStation] at hs
  cases hpeer : s.staInfoGet addr with
  | none =>
    rw [hpeer] at hs
    cases hs
    exact h
  | some peer =>
    rw [hpeer] at hs
    dsimp only at hs
    split at hs
    · cases hs
      exact h
    · obtain ⟨⟨peer', n⟩, hp, rfl⟩ := map_eq_some_iff.1 hs
      obtain ⟨hn, haddr⟩ := linked_applyParameters hp
      exact h.put hpeer haddr hn

theorem beacon {elems : MeshElems} (h : PlinkIfInv s)
    (hs : meshRxBeacon s env addr elems = some s') : PlinkIfInv s' := by
  rw [meshRxBeacon] at hs
  split_ifs at hs
  · cases hs
    exact h
  · cases hs
    exact h
  · cases hs
    exact h
  · obtain ⟨⟨new, frames, drawn⟩, hu, rfl⟩ := map_eq_some_iff.1 hs
    have hlinked := linkedOf_neighbourUpdate hu
    have hstore : PlinkIfInv ((s.store addr new).addEstab 0) := by
      refine h.store (by rw [hlinked, sub_self]) fun hnone => ?_
      rcases meshNeighbourUpdate_cases hu with hsame | hnew | ⟨_, _, _, -, hnew, -⟩
      · exact hsame.symm.trans hnone
      · exact nomatch hnew.symm.trans hnone
      · exact nomatch hnew.symm.trans hnone
    exact ⟨hstore.nodup, (add_zero _).symm.trans hstore.counted⟩

theorem frame {mgmt : PlinkMgmt}
    (h : PlinkIfInv s) (hs : meshRxPlinkFrame s env mgmt = some (s', o)) : PlinkIfInv s' := by
  rw [meshRxPlinkFrame] at hs
  split_ifs at hs
  · cases hs
    exact h
  · cases hs
    exact h
  · cases hframe : plinkFrame? s.cfg.secNone mgmt with
    | none =>
      rw [hframe] at hs
      cases hs
      exact h
    | some frame =>
      rw [hframe] at hs
      obtain ⟨⟨new, frames, drawn⟩, hp, heq⟩ := map_eq_some_iff.1 hs
      cases heq
      have hmove := meshProcessPlinkFrame_move hp
      exact h.store (linked_frame hmove) hmove.none

theorem step {e : PlinkIfEvent} (h : PlinkIfInv s)
    (hs : plinkIfStep s e = some (s', o)) : PlinkIfInv s' := by
  cases e with
  | join => cases hs; exact ⟨h.nodup, h.counted⟩
  | leave => cases hs; exact ⟨h.flush.nodup, h.flush.counted⟩
  | updateConfig => cases hs; exact ⟨h.nodup, h.counted⟩
  | addStation =>
    obtain ⟨_, ha, heq⟩ := map_eq_some_iff.1 hs
    cases heq
    exact h.addStation ha
  | changeStation =>
    obtain ⟨_, ha, heq⟩ := map_eq_some_iff.1 hs
    cases heq
    exact h.changeStation ha
  | delStation addr =>
    cases addr with
    | none => cases hs; exact h.flush
    | some addr => cases hs; exact h.cleanup addr
  | beacon =>
    obtain ⟨_, hb, heq⟩ := map_eq_some_iff.1 hs
    cases heq
    exact h.beacon hb
  | frame => exact h.frame hs
  | timer addr =>
    rw [plinkIfStep] at hs
    cases hpeer : s.staInfoGet addr with
    | none =>
      rw [hpeer] at hs
      exact nomatch hs
    | some peer =>
      rw [hpeer] at hs
      cases hs
      have hput : PlinkIfInv ((s.putPeer
          { peer with mesh := (meshPlinkTimer s.cfg.maxRetries peer.mesh).1 }).addEstab 0) :=
        h.put hpeer rfl (by rw [linked_timer, sub_self])
      exact ⟨hput.nodup, (add_zero _).symm.trans hput.counted⟩

end PlinkIfInv

/-! ### Link IDs -/

/-- A peering is under way. -/
def PlinkState.Running (state : PlinkState) : Prop := state ≠ .listen ∧ state ≠ .blocked
deriving Decidable

/-- The link ID of a record stays, unless a peering starts, or the state machine starts over. -/
def RecordKept (sta sta' : MeshSta) : Prop :=
  sta'.llid = sta.llid ∨ ¬sta.plinkState.Running ∧ sta'.plinkState.Running ∨ sta' = meshPlinkFsmRestart sta

/-- So it is with every record that is still there. -/
def LlidKept (s s' : PlinkIf) : Prop :=
  ∀ p ∈ s.peers, ∀ p' ∈ s'.peers, p'.addr = p.addr → RecordKept p.mesh p'.mesh

/-- User space has a link opened that is already being opened, established, or closed. -/
def OpensRunning (s : PlinkIf) : PlinkIfEvent → Prop
  | .changeStation _ addr params => ∃ peer ∈ s.staInfoGet addr, s.userMpm = false ∧
      params.plinkState = none ∧ params.plinkAction = .actionOpen ∧ peer.auth = true ∧
      params.auth ≠ some false ∧ peer.mesh.plinkState.Running
  | _ => False

section Records

variable {env : PlinkEnv} {sta sta' : MeshSta} {event : PlinkEvent} {frames : List PlinkFrame}
  {drawn : List UInt16}

theorem RecordKept.of_fsm (h : meshPlinkFsm env sta event = some (sta', frames, drawn)) :
    RecordKept sta sta' := by
  cases meshPlinkFsm_move h with
  | stay hllid _ _ _ => exact .inl hllid
  | restart => exact .inr (.inr rfl)
  | draw hstate _ _ => exact .inr (.inl ⟨fun hrun => hrun.1 hstate, ⟨nofun, nofun⟩⟩)

theorem RecordKept.of_frame {frame : PlinkFrame} (h : FrameMove env (some sta) frame (some sta')) :
    RecordKept sta sta' := by
  generalize hold : some sta = old at h
  generalize hnew : some sta' = new at h
  cases h with
  | same _ =>
    cases hold.trans hnew.symm
    exact .inl rfl
  | known hknown hfsm =>
    cases hold.trans hknown
    cases hnew
    have hkept := RecordKept.of_fsm hfsm
    exact hkept
  | new hnone _ _ => exact nomatch hold.trans hnone

/-- Opening a link that is not there draws its link ID; opening one that is there changes it. -/
theorem recordKept_open_iff (h : meshPlinkOpen env sta = some (sta', frames, drawn)) :
    RecordKept sta sta' ↔ ¬(env.auth = true ∧ sta.plinkState.Running) := by
  rcases meshPlinkOpen_cases h with ⟨hauth, rfl⟩ | ⟨llid, hauth, hne, rfl⟩
  · exact ⟨fun _ hrun => absurd hrun.1 (by simp [hauth]), fun _ => .inl rfl⟩
  · split
    · rename_i hrun
      refine ⟨fun hkept => ?_, fun hnot => absurd ⟨hauth, hrun⟩ hnot⟩
      rcases hkept with hllid | ⟨hnot, -⟩ | hrestart
      · exact absurd hllid hne
      · exact absurd hrun hnot
      · exact absurd (congrArg MeshSta.plinkState hrestart) hrun.1
    · rename_i hnot
      exact ⟨fun _ hrun => hnot hrun.2, fun _ => .inr (.inl ⟨hnot, nofun, nofun⟩)⟩

theorem RecordKept.of_neighbourUpdate
    (h : meshNeighbourUpdate env (some sta) = some (new, frames, drawn)) :
    ∃ sta', new = some sta' ∧ RecordKept sta sta' := by
  rcases meshNeighbourUpdate_cases h with rfl | rfl | ⟨sta', frames', drawn', hlisten, rfl, ho⟩
  · exact ⟨sta, rfl, .inl rfl⟩
  · exact ⟨sta, rfl, .inl rfl⟩
  · exact ⟨sta', rfl, (recordKept_open_iff ho).2 fun hrun => hrun.2.1 hlisten⟩

theorem RecordKept.of_timer (maxRetries : ℕ) (sta : MeshSta) :
    RecordKept sta (meshPlinkTimer maxRetries sta).1 := by
  rw [meshPlinkTimer]
  split
  case h_4 => exact .inr (.inr rfl)
  case h_1 | h_2 =>
    split
    · exact .inl rfl
    · exact .inl rfl
  all_goals exact .inl rfl

theorem llid_applyPlinkState (sta : MeshSta) (state : Option PlinkState) :
    (staApplyPlinkState sta state).1.llid = sta.llid := by
  cases state with
  | none => rfl
  | some state => cases state <;> rfl

/-- What user space does keeps the link ID, except where a link that is there is to be opened. -/
theorem recordKept_applyMeshParams_iff {n : ℤ}
    (hcheck : params.plinkState = none ∨ params.plinkAction ≠ .actionOpen)
    (h : staApplyMeshParams env sta params = some (sta', n)) : RecordKept sta sta' ↔
      ¬(params.plinkAction = .actionOpen ∧ env.auth = true ∧ sta.plinkState.Running) := by
  have hllid := llid_applyPlinkState sta params.plinkState
  rw [staApplyMeshParams] at h
  cases haction : params.plinkAction with
  | noAction =>
    rw [haction] at h
    cases h
    exact ⟨fun _ hopen => absurd hopen.1 (by decide), fun _ => .inl hllid⟩
  | actionOpen =>
    rw [haction, hcheck.resolve_right (not_not.2 haction)] at h
    obtain ⟨⟨_, frames, drawn⟩, ho, heq⟩ := map_eq_some_iff.1 h
    cases heq
    rw [recordKept_open_iff ho, and_iff_right rfl]
  | actionBlock =>
    rw [haction] at h
    cases h
    exact ⟨fun _ hopen => absurd hopen.1 (by decide), fun _ => .inl hllid⟩

end Records

section Steps

variable {s s' : PlinkIf} {addr : Mac} {peer : MeshPeer}

theorem PlinkIfInv.eq_of_addr (h : PlinkIfInv s) {p p' : MeshPeer} (hp : p ∈ s.peers)
    (hp' : p' ∈ s.peers) (haddr : p'.addr = p.addr) : p' = p :=
  inj_on_of_nodup_map h.nodup hp' hp haddr

theorem llidKept_of_mem (h : PlinkIfInv s)
    (hmem : ∀ p' ∈ s'.peers, p' ∈ s.peers ∨ p'.addr ∉ s.peers.map MeshPeer.addr) : LlidKept s s' := by
  intro p hp p' hp' haddr
  rcases hmem p' hp' with hp' | hnew
  · rw [h.eq_of_addr hp hp' haddr]
    exact .inl rfl
  · exact absurd (haddr ▸ mem_map_of_mem hp) hnew

theorem llidKept_put_iff (h : PlinkIfInv s) (peer' : MeshPeer) (hpeer : s.staInfoGet addr = some peer)
    (haddr : peer'.addr = peer.addr) (hpeers : s'.peers = (s.putPeer peer').peers) :
    LlidKept s s' ↔ RecordKept peer.mesh peer'.mesh := by
  obtain ⟨hmem, -⟩ := PlinkIfInv.mem_of_get hpeer
  have hwritten : peer' ∈ s'.peers := by
    rw [hpeers]
    exact mem_map.2 ⟨peer, hmem, if_pos haddr.symm⟩
  constructor
  · intro hkept
    exact hkept peer hmem peer' hwritten haddr
  · intro hkept p hp p' hp' hsame
    rw [hpeers] at hp'
    rcases Keyed.mem_replace (show p' ∈ Keyed.replace MeshPeer.addr peer' s.peers from hp')
      with rfl | ⟨hp', -⟩
    · have heq : p = peer := h.eq_of_addr hmem hp (hsame.symm.trans haddr)
      rw [heq]
      exact hkept
    · rw [h.eq_of_addr hp hp' hsame]
      exact .inl rfl

theorem llidKept_store (h : PlinkIfInv s)
    (hkept : ∀ sta sta', (s.staInfoGet addr).map MeshPeer.mesh = some sta → new = some sta' →
      RecordKept sta sta') (hpeers : s'.peers = (s.store addr new).peers) : LlidKept s s' := by
  cases new with
  | none => exact llidKept_of_mem h fun p' hp' => .inl (by rwa [hpeers] at hp')
  | some mesh =>
    cases hpeer : s.staInfoGet addr with
    | none =>
      rw [s.store_new hpeer] at hpeers
      refine llidKept_of_mem h fun p' hp' => ?_
      rw [hpeers] at hp'
      rcases mem_append.1 hp' with hp' | hp'
      · exact .inl hp'
      · rw [mem_singleton.1 hp']
        exact .inr (PlinkIfInv.get_none_iff.1 hpeer)
    | some peer =>
      rw [s.store_known hpeer] at hpeers
      have hold : (s.staInfoGet addr).map MeshPeer.mesh = some peer.mesh := by rw [hpeer, map_some]
      exact (llidKept_put_iff h { peer with mesh := mesh } hpeer rfl hpeers).2 (hkept _ _ hold rfl)

theorem mem_of_cleanup {p : MeshPeer} (hp : p ∈ (meshStaCleanup s addr).peers) : p ∈ s.peers := by
  rw [meshStaCleanup] at hp
  cases hpeer : s.staInfoGet addr with
  | none => rwa [hpeer] at hp
  | some peer =>
    rw [hpeer] at hp
    exact mem_of_mem_filter hp

theorem mem_of_flush {p : MeshPeer} (hp : p ∈ (staInfoFlush s).peers) : p ∈ s.peers := by
  rw [staInfoFlush] at hp
  generalize s.peers.map MeshPeer.addr = addrs at hp
  induction addrs generalizing s with
  | nil => exact hp
  | cons addr addrs ih => exact mem_of_cleanup (ih hp)

theorem llidKept_addStation (h : PlinkIfInv s)
    (hs : addStation s env addr params = some s') : LlidKept s s' := by
  obtain ⟨⟨peer, n⟩, hp, rfl⟩ := map_eq_some_iff.1 hs
  have haddr := (linked_applyParameters hp).2
  refine llidKept_of_mem h fun p' hp' => ?_
  dsimp only at hp'
  split at hp'
  · exact .inl hp'
  · rename_i hnew
    have hnone : s.staInfoGet addr = none := by
      by_contra hne
      exact hnew (by simp [isSome_iff_ne_none.2 hne])
    rcases mem_append.1 hp' with hp' | hp'
    · exact .inl hp'
    · rw [mem_singleton.1 hp', haddr]
      exact .inr (PlinkIfInv.get_none_iff.1 hnone)

theorem llidKept_beacon {elems : MeshElems} (h : PlinkIfInv s)
    (hs : meshRxBeacon s env addr elems = some s') : LlidKept s s' := by
  have hrefl : LlidKept s s := llidKept_of_mem h fun _ hp' => .inl hp'
  rw [meshRxBeacon] at hs
  split_ifs at hs
  · cases hs
    exact hrefl
  · cases hs
    exact hrefl
  · cases hs
    exact hrefl
  · obtain ⟨⟨new, frames, drawn⟩, hu, rfl⟩ := map_eq_some_iff.1 hs
    refine llidKept_store h (fun sta sta' hold hnew => ?_) rfl
    rw [hold] at hu
    obtain ⟨_, hnew', hkept⟩ := RecordKept.of_neighbourUpdate hu
    cases hnew'.symm.trans hnew
    exact hkept

theorem llidKept_frame {mgmt : PlinkMgmt} (h : PlinkIfInv s)
    (hs : meshRxPlinkFrame s env mgmt = some (s', o)) : LlidKept s s' := by
  have hrefl : LlidKept s s := llidKept_of_mem h fun _ hp' => .inl hp'
  rw [meshRxPlinkFrame] at hs
  split_ifs at hs
  · cases hs
    exact hrefl
  · cases hs
    exact hrefl
  · cases hframe : plinkFrame? s.cfg.secNone mgmt with
    | none =>
      rw [hframe] at hs
      cases hs
      exact hrefl
    | some frame =>
      rw [hframe] at hs
      obtain ⟨⟨new, frames, drawn⟩, hp, heq⟩ := map_eq_some_iff.1 hs
      cases heq
      have hmove := meshProcessPlinkFrame_move hp
      refine llidKept_store h (fun sta sta' hold hnew => ?_) rfl
      rw [hold, hnew] at hmove
      exact RecordKept.of_frame hmove

/-- A change of a station keeps the link IDs, except where it opens a link that is there. -/
theorem llidKept_changeStation_iff (h : PlinkIfInv s)
    (hs : changeStation s env addr params = some s') :
    LlidKept s s' ↔ ¬OpensRunning s (.changeStation env addr params) := by
  rw [changeStation] at hs
  cases hpeer : s.staInfoGet addr with
  | none =>
    rw [hpeer] at hs
    cases hs
    refine ⟨fun _ ⟨_, hget, _⟩ => absurd (hpeer.symm.trans hget) (by simp), fun _ => ?_⟩
    exact llidKept_of_mem h fun _ hp' => .inl hp'
  | some peer =>
    rw [hpeer] at hs
    dsimp only at hs
    cases hcheck : checkStationChange s.userMpm params with
    | false =>
      rw [if_pos (by simp [hcheck])] at hs
      cases hs
      refine ⟨fun _ ⟨_, _, huser, hstate, _⟩ => ?_, fun _ => llidKept_of_mem h fun _ hp' => .inl hp'⟩
      rw [checkStationChange, huser, if_neg Bool.false_ne_true, hstate] at hcheck
      exact absurd hcheck (by decide)
    | true =>
      rw [if_neg (by simp [hcheck])] at hs
      obtain ⟨⟨peer', n⟩, hp, rfl⟩ := map_eq_some_iff.1 hs
      obtain ⟨⟨mesh, m⟩, hmesh, heq⟩ := map_eq_some_iff.1 hp
      cases heq
      have hexcl : params.plinkState = none ∨ params.plinkAction ≠ .actionOpen := by
        rw [checkStationChange] at hcheck
        split at hcheck
        · exact .inr (by simpa using hcheck)
        · exact .inl (by simpa using hcheck)
      refine (llidKept_put_iff h { peer with
        auth := _
        mesh := mesh } hpeer rfl rfl).trans ((recordKept_applyMeshParams_iff hexcl hmesh).trans ?_)
      refine not_congr ⟨fun ⟨haction, hauth, hrun⟩ => ?_, fun hopen => ?_⟩
      · obtain ⟨hpauth, hparams⟩ := Bool.and_eq_true_iff.1 hauth
        have hstate := hexcl.resolve_right (not_not.2 haction)
        refine ⟨peer, hpeer, ?_, hstate, haction, hpauth, bne_iff_ne.1 hparams, hrun⟩
        rw [checkStationChange, haction] at hcheck
        cases huser : s.userMpm with
        | false => rfl
        | true => exact absurd hcheck (by simp [huser])
      · obtain ⟨_, hget, -, -, haction, hauth, hparams, hrun⟩ := hopen
        cases hpeer.symm.trans hget
        exact ⟨haction, Bool.and_eq_true_iff.2 ⟨hauth, bne_iff_ne.2 hparams⟩, hrun⟩

/-- **The link IDs over one step.** They are kept, except where user space opens a link that is there. -/
theorem llidKept_iff {e : PlinkIfEvent} (h : PlinkIfInv s)
    (hs : plinkIfStep s e = some (s', o)) : LlidKept s s' ↔ ¬OpensRunning s e := by
  cases e with
  | changeStation env addr params =>
    obtain ⟨_, hc, heq⟩ := map_eq_some_iff.1 hs
    cases heq
    exact llidKept_changeStation_iff h hc
  | join =>
    cases hs
    exact iff_of_true (llidKept_of_mem h fun _ hp' => .inl hp') id
  | leave =>
    cases hs
    exact iff_of_true (llidKept_of_mem h fun _ hp' => .inl (mem_of_flush hp')) id
  | updateConfig =>
    cases hs
    exact iff_of_true (llidKept_of_mem h fun _ hp' => .inl hp') id
  | addStation =>
    obtain ⟨_, ha, heq⟩ := map_eq_some_iff.1 hs
    cases heq
    exact iff_of_true (llidKept_addStation h ha) id
  | delStation addr =>
    cases addr with
    | none =>
      cases hs
      exact iff_of_true (llidKept_of_mem h fun _ hp' => .inl (mem_of_flush hp')) id
    | some addr =>
      cases hs
      exact iff_of_true (llidKept_of_mem h fun _ hp' => .inl (mem_of_cleanup hp')) id
  | beacon env sa elems =>
    obtain ⟨_, hb, heq⟩ := map_eq_some_iff.1 hs
    cases heq
    exact iff_of_true (llidKept_beacon h hb) id
  | frame env mgmt => exact iff_of_true (llidKept_frame h hs) id
  | timer addr =>
    rw [plinkIfStep] at hs
    cases hpeer : s.staInfoGet addr with
    | none =>
      rw [hpeer] at hs
      exact nomatch hs
    | some peer =>
      rw [hpeer] at hs
      cases hs
      exact iff_of_true ((llidKept_put_iff h { peer with
        mesh := (meshPlinkTimer s.cfg.maxRetries peer.mesh).1 } hpeer rfl rfl).2
          (RecordKept.of_timer _ _)) id

end Steps

/-- **Peer-link accounting**, in every reachable state; and from there every step keeps the link
IDs, except where user space opens a link that is there. -/
theorem plinks_accounting {cfg : PlinkCfg} {s : PlinkIf} {os : List PlinkAdvance}
    (hr : Machine.Reach plinkIfStep (fun _ _ _ => True) { cfg := cfg } s os) :
    s.estabPlinks = s.established ∧
    ∀ e s' o, plinkIfStep s e = some (s', o) → (LlidKept s s' ↔ ¬OpensRunning s e) := by
  have hinv : PlinkIfInv s := by
    refine hr.invariant (fun s _ => PlinkIfInv s) (PlinkIfInv.init cfg) ?_
    intro s os e s' o h _ hs
    exact h.step hs
  exact ⟨hinv.counted, fun e s' o hs => llidKept_iff hinv hs⟩

/-- A mesh on channel 36. -/
private def accountCfg : PlinkCfg where
  maxPeerLinks := 4
  maxRetries := 3
  profile := {
    meshId := [110]
    ppId := 1
    pmId := 1
    ccId := 0
    spId := 1
    authId := 0
    basicRates := 0
    chandef := chandefCreate 5180 .noHt
    band := .ghz5
    sband := some [] }

private def accountElems : MeshElems where
  meshId := some [110]
  meshConfig := some {
    psel := 1
    pmetric := 1
    congest := 0
    synch := 1
    auth := 0 }

/-- A beacon opens a link with ID 7. -/
private def accountBeacon : PlinkIfEvent := .beacon { random := [7] } (Vector.replicate 6 4) accountElems

/-- User space opens it. -/
private def accountOpen : PlinkIfEvent :=
  .changeStation { random := [9] } (Vector.replicate 6 4) { plinkAction := .actionOpen }

/-- A link is opened, and user space declares the one of another station established. -/
theorem plinks_accounting_two : ∃ s os,
    Machine.Reach plinkIfStep (fun _ _ _ => True) { cfg := accountCfg } s os ∧
    s.peers.map (fun p => (p.mesh.plinkState, p.mesh.llid)) = [(.opnSnt, 7), (.estab, 0)] ∧
    s.estabPlinks = s.established := by
  have hrun : (Machine.run plinkIfStep { cfg := accountCfg } [accountBeacon, .join true accountCfg,
      .addStation {} (Vector.replicate 6 6) {},
      .changeStation {} (Vector.replicate 6 6) { plinkState := some .estab }]).map
        (fun r => r.1.peers.map fun p => (p.mesh.plinkState, p.mesh.llid)) =
      some [(.opnSnt, 7), (.estab, 0)] := by decide +kernel
  obtain ⟨⟨s, os⟩, hr, hs⟩ := map_eq_some_iff.mp hrun
  exact ⟨s, os, .of_run_init hr, hs, (plinks_accounting (.of_run_init hr)).1⟩

/-- A station whose link is being opened. -/
private def accountPeer (llid : UInt16) : MeshPeer where
  addr := Vector.replicate 6 4
  mesh := {
    plinkState := .opnSnt
    llid := llid }

/-- The link ID of a link that is being opened changes. -/
theorem llid_changes : ∃ s os s' o,
    Machine.Reach plinkIfStep (fun _ _ _ => True) { cfg := accountCfg } s os ∧
    plinkIfStep s accountOpen = some (s', o) ∧ s.peers = [accountPeer 7] ∧ s'.peers = [accountPeer 9] ∧
    ¬LlidKept s s' := by
  have hrun : (Machine.run plinkIfStep { cfg := accountCfg } [accountBeacon]).map (fun r => r.1.peers) =
      some [accountPeer 7] := by decide +kernel
  have hopen : ((Machine.run plinkIfStep { cfg := accountCfg } [accountBeacon]).bind fun r =>
      (plinkIfStep r.1 accountOpen).map fun r' => r'.1.peers) = some [accountPeer 9] := by decide +kernel
  obtain ⟨⟨s, os⟩, hr, hs⟩ := map_eq_some_iff.mp hrun
  rw [hr] at hopen
  obtain ⟨⟨s', o⟩, hstep, hs'⟩ := map_eq_some_iff.mp hopen
  refine ⟨s, os, s', o, .of_run_init hr, hstep, hs, hs', fun hkept => ?_⟩
  have h := hkept (accountPeer 7) (hs ▸ mem_singleton_self _) (accountPeer 9)
    (hs' ▸ mem_singleton_self _) rfl
  rcases h with hllid | ⟨hnot, -⟩ | hrestart
  · exact absurd hllid (by decide)
  · exact absurd ⟨nofun, nofun⟩ hnot
  · exact absurd hrestart (by decide)

end Mac80211
