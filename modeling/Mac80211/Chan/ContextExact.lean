import Mac80211.Chan.ContextHistory

/-!
# Where contexts go wrong

The conditions of `chanctx_consistent` are not stronger than they have to be.

## Main results

* `releaseCtx_consistent_iff`, `vifUseReservedSwitch_consistent_iff`
-/

namespace Mac80211

open ChanLocal List

variable {H : ChanHw} {E : ChanEnv H} {S s s' : ChanLocal} {c d n o : CtxId} {v : VifId}

/-! ### Leaving a context -/

theorem ChanctxInv.unreserve_link (h : ChanctxInv H none s) (hr : s.Replaces n c) (hn : n ∈ s.chanctxList)
    (hkeep : (s.ctx n).reservedVifs ≠ [v]) : (vifUnreserveChanctx s v).2.Replaces n c ∧
      n ∈ (vifUnreserveChanctx s v).2.chanctxList := by
  cases hv : (s.vif v).reservedChanctx with
  | none =>
    rw [vifUnreserveChanctx, hv]
    exact ⟨hr, hn⟩
  | some m =>
    have hclear : (s.clearReservation v).Replaces n c := ⟨hr.newState, hr.newCtx, hr.oldState, hr.oldCtx⟩
    -- the context that is given up is another one
    have hne (hu : (s.clearReservation v).Unused m) : n ≠ m := by
      rintro rfl
      refine hkeep ?_
      have hnil : (s.ctx n).reservedVifs.erase v = [] := hu.2
      have hmem := (h.lists.reserved n v).2 hv
      rcases erase_eq_nil_iff.1 hnil with h0 | h0
      · rw [h0] at hmem
        cases hmem
      · exact h0
    obtain ⟨-, hs⟩ | ⟨hu, -, hs⟩ | ⟨hu, o, -, hmo, hs⟩ := h.unreserve_cases hv <;> rw [hs]
    · exact ⟨hclear, hn⟩
    · exact ⟨hclear.delCtx m, (mem_erase_of_ne (hne hu)).2 hn⟩
    · have hno : n ≠ o := fun hno => by
        have := hclear.newState.symm.trans (hno ▸ hmo.oldState)
        cases this
      have hco : c ≠ o := fun hco => by
        subst hco
        exact hne hu (Option.some.inj (hclear.oldCtx.symm.trans hmo.oldCtx))
      exact ⟨(hclear.unlink hno hco).delCtx m, (mem_erase_of_ne (hne hu)).2 hn⟩

/-- What is left when the last interface leaves a context that will be replaced. -/
theorem releaseCtx_dangles (h : ChanctxInv H none s) (hv : H.iftype v ≠ .apVlan)
    (hnan : H.iftype v ≠ .nan) (hconf : (s.vif v).chanctxConf = some c) (hfree : FreesReplaced s v c) :
    ∃ n ∈ (releaseCtx E s v c).chanctxList, ((releaseCtx E s v c).ctx n).replaceCtx = some c ∧
      c ∉ (releaseCtx E s v c).chanctxList := by
  obtain ⟨hwill, hassigned, hothers⟩ := hfree
  obtain ⟨n, hn, hr⟩ := h.links.replaced c (h.lists.mem_of_assignment hv hconf) hwill
  obtain ⟨s₁, hs₁, h₁, hr₁, hn₁, hassigned₁, hconf₁⟩ : ∃ s₁, s₁ =
      (if (s.vif v).reservedChanctx.isSome then (vifUnreserveChanctx s v).2 else s) ∧
      ChanctxInv H none s₁ ∧ s₁.Replaces n c ∧ n ∈ s₁.chanctxList ∧ (s₁.ctx c).assignedVifs = [v] ∧
      (s₁.vif v).chanctxConf = some c := by
    refine ⟨_, rfl, ?_⟩
    split
    · obtain ⟨hr₁, hn₁⟩ := h.unreserve_link hr hn (hothers n hr.oldCtx)
      exact ⟨h.unreserve v, hr₁, hn₁, (vifUnreserveChanctx_assigned s v c).trans hassigned,
        (vifUnreserveChanctx_conf s v v).trans hconf⟩
    · exact ⟨h, hr, hn, hassigned, hconf⟩
  have hc₁ := h₁.lists.mem_of_assignment hv hconf₁
  have hleft : (((s₁.delAssigned v).setConf v none).ctx c).assignedVifs = [] := by
    rw [setConf_ctx, delAssigned_ctx, hassigned₁]
    exact erase_cons_head v []
  have hunused : ((s₁.delAssigned v).setConf v none).refcount c = 0 :=
    refcount_eq_zero.2 ⟨hleft, h₁.unreserved c hc₁ hr₁.oldState⟩
  have hrelease : releaseCtx E s v c = ((s₁.delAssigned v).setConf v none).delCtx c := by
    rw [releaseCtx, ← hs₁, assignVifChanctx, if_neg hnan, hconf₁]
    simp only [Option.isSome_some, if_true]
    rw [if_neg (not_not.2 hleft), freeUnused, if_pos hunused]
  rw [hrelease]
  exact ⟨n, (mem_erase_of_ne hr₁.ne).2 hn₁, hr₁.newCtx, h₁.lists.nodup.not_mem_erase⟩

/-- **When a release goes wrong**: just if it frees a context whose replacement stays. -/
theorem releaseCtx_consistent_iff (h : ChanctxInv H none s) (hv : H.iftype v ≠ .apVlan)
    (hnan : H.iftype v ≠ .nan) (hconf : (s.vif v).chanctxConf = some c) :
    ChanctxConsistent H (releaseCtx E s v c) ↔ ¬FreesReplaced s v c := by
  constructor
  · intro hs hfree
    obtain ⟨n, hn, hlink, hc⟩ := releaseCtx_dangles (E := E) h hv hnan hconf hfree
    exact hc (hs.live n hn c hlink)
  · exact fun hfree => (h.releaseCtx hv hconf hfree).consistent

/-! ### The end of a switch -/

theorem freeReplaced_lists (s : ChanLocal) (c d : CtxId) :
    ((freeReplaced s c).ctx d).assignedVifs = (s.ctx d).assignedVifs ∧
      ((freeReplaced s c).ctx d).reservedVifs = (s.ctx d).reservedVifs := by
  rw [freeReplaced]
  split
  · exact ⟨rfl, rfl⟩
  · split
    · exact ⟨rfl, rfl⟩
    · exact ⟨unlink_assignedVifs d, unlink_reservedVifs d⟩

theorem foldl_freeReplaced_lists (d : CtxId) : ∀ (l : List CtxId) (s : ChanLocal),
    ((l.foldl freeReplaced s).ctx d).assignedVifs = (s.ctx d).assignedVifs ∧
      ((l.foldl freeReplaced s).ctx d).reservedVifs = (s.ctx d).reservedVifs := by
  intro l
  induction l with
  | nil => exact fun s => ⟨rfl, rfl⟩
  | cons c l ih =>
    intro s
    obtain ⟨hassigned, hreserved⟩ := ih (freeReplaced s c)
    obtain ⟨ha, hr⟩ := freeReplaced_lists s c d
    exact ⟨hassigned.trans ha, hreserved.trans hr⟩

theorem mem_foldl_freeReplaced : ∀ (l : List CtxId) (s : ChanLocal), s.chanctxList.Nodup → l.Nodup →
    (∀ o ∈ l, (s.ctx o).replaceState = .willBeReplaced → ∃ n, s.Replaces n o) →
    (d ∈ (l.foldl freeReplaced s).chanctxList ↔
      d ∈ s.chanctxList ∧ ¬(d ∈ l ∧ (s.ctx d).replaceState = .willBeReplaced)) := by
  intro l
  induction l with
  | nil => exact fun s _ _ _ => ⟨fun hd => ⟨hd, fun hn => not_mem_nil hn.1⟩, fun hd => hd.1⟩
  | cons c l ih =>
    intro s hlist hnodup hlinks
    obtain ⟨hcl, hnodup⟩ := nodup_cons.1 hnodup
    have hlinks' : ∀ o ∈ l, (s.ctx o).replaceState = .willBeReplaced → ∃ n, s.Replaces n o :=
      fun o ho => hlinks o (mem_cons_of_mem c ho)
    rw [foldl_cons]
    by_cases hc : (s.ctx c).replaceState = .willBeReplaced
    · obtain ⟨n, hr⟩ := hlinks c mem_cons_self hc
      have hfree : freeReplaced s c = (s.unlink n).delCtx c := by
        rw [freeReplaced, if_neg (not_not.2 hc), hr.oldCtx]
      have hstate {o : CtxId} : (((s.unlink n).delCtx c).ctx o).replaceState = .willBeReplaced ↔
          (s.ctx o).replaceState = .willBeReplaced := by
        rw [delCtx_ctx, unlink_ctx]
        split
        · subst o
          rw [hr.newState]
          exact ⟨(fun hs => by cases hs), (fun hs => by cases hs)⟩
        · exact Iff.rfl
      rw [hfree, ih ((s.unlink n).delCtx c) (hlist.erase c) hnodup fun o ho hs => ?_, hstate,
        delCtx_chanctxList, unlink_chanctxList, hlist.mem_erase_iff, mem_cons]
      · constructor
        · rintro ⟨⟨hdc, hd⟩, hnot⟩
          exact ⟨hd, fun hdl => hnot ⟨hdl.1.resolve_left hdc, hdl.2⟩⟩
        · rintro ⟨hd, hnot⟩
          refine ⟨⟨fun hdc => hnot ⟨.inl hdc, hdc ▸ hc⟩, hd⟩, fun hdl => hnot ⟨.inr hdl.1, hdl.2⟩⟩
      · -- two old contexts have two replacements
        obtain ⟨m, hm⟩ := hlinks' o ho (hstate.1 hs)
        have hmn : m ≠ n := by
          rintro rfl
          exact hcl (Option.some.inj (hr.newCtx.symm.trans hm.newCtx) ▸ ho)
        have hon : o ≠ n := by
          rintro rfl
          have := hm.oldState.symm.trans hr.newState
          cases this
        exact ⟨m, (hm.unlink hmn hon).delCtx c⟩
    · have hfree : freeReplaced s c = s := by rw [freeReplaced, if_pos hc]
      rw [hfree, ih s hlist hnodup hlinks', mem_cons]
      refine and_congr_right fun _ => not_congr (and_congr_left fun hd => ?_)
      exact ⟨.inr, fun hdl => hdl.resolve_left fun hdc => hc (hdc ▸ hd)⟩

theorem SwitchInv.clean (h : SwitchInv H S S.chanctxList s) (hS : ChanctxInv H none S)
    (hs : ChanctxConsistent H (s.chanctxList.foldl freeReplaced s)) : SwitchClean S := by
  have hmem {d : CtxId} : d ∈ (s.chanctxList.foldl freeReplaced s).chanctxList ↔
      d ∈ s.chanctxList ∧ (s.ctx d).replaceState ≠ .willBeReplaced := by
    rw [mem_foldl_freeReplaced _ s h.wf.lists.nodup h.wf.lists.nodup fun o ho hwill => ?_]
    · exact and_congr_right fun hd => not_congr (and_iff_right hd)
    · obtain ⟨n, -, hr⟩ := h.wf.links.replaced o ho hwill
      exact ⟨n, hr⟩
  intro o ho hwill
  have hos := h.kept o ho (.inr (by rw [hwill]; decide))
  constructor
  · intro hlost
    have hstate : (s.ctx o).replaceState ≠ .willBeReplaced := fun hw =>
      ((h.willBeReplaced_iff hos).1 hw).2 hlost
    have hused := hs.used o (hmem.2 ⟨hos, hstate⟩)
    obtain ⟨ha, hr⟩ := foldl_freeReplaced_lists o s.chanctxList s
    have hreserved : (s.ctx o).reservedVifs = [] := eq_nil_iff_forall_not_mem.2 fun w hw => by
      have hw := (h.wf.lists.reserved o w).1 hw
      rcases h.reservedChanctx w with hw' | ⟨hw', -⟩
      · exact hS.reserved_ne_willBeReplaced (hw'.symm.trans hw) hwill
      · rw [hw'] at hw
        cases hw
    have hassigned : (s.ctx o).assignedVifs ≠ [] := fun hnil =>
      hused (refcount_eq_zero.2 ⟨ha.trans hnil, hr.trans hreserved⟩)
    obtain ⟨v, hv⟩ := exists_mem_of_ne_nil _ hassigned
    exact ⟨v, h.stayed hS hwill hv⟩
  · rintro ⟨v, hv, hstays⟩
    by_contra hlost
    obtain ⟨hvlan, hconf⟩ := (hS.lists.assigned o v).1 hv
    have hconf' : ((s.chanctxList.foldl freeReplaced s).vif v).chanctxConf = some o := by
      rw [foldl_freeReplaced_vif]
      exact (h.chanctxConf v hvlan fun hl => hstays hl.1).trans hconf
    exact (hmem.1 (hs.assigned v o hvlan hconf').1).2 ((h.willBeReplaced_iff hos).2 ⟨hwill, hlost⟩)

/-- **When a switch goes wrong**: just if it is not clean. -/
theorem vifUseReservedSwitch_consistent_iff {n : SwitchCounts} (h : ChanctxInv H none s)
    (hverify : verifySwitch H s = .ok n) (hdriver : switchDriver E s n = 0) :
    ChanctxConsistent H (vifUseReservedSwitch E s).2 ↔ SwitchClean s := by
  have hswitch : (vifUseReservedSwitch E s).2 =
      ((takeOverAll E s.chanctxList s).2.chanctxList.foldl freeReplaced
        (takeOverAll E s.chanctxList s).2) := by
    obtain ⟨htrue, -⟩ := SwitchInv.takeOverAll (E := E) h s.chanctxList [] s h.switchInv rfl
    rw [vifUseReservedSwitch, hverify]
    dsimp only
    rw [if_neg (not_not.2 hdriver)]
    generalize takeOverAll E s.chanctxList s = r at htrue ⊢
    obtain ⟨b, s₁⟩ := r
    obtain rfl : b = true := htrue
    rfl
  obtain ⟨-, hinv⟩ := SwitchInv.takeOverAll (E := E) h s.chanctxList [] s h.switchInv rfl
  rw [hswitch]
  exact ⟨hinv.clean h, fun hclean => (hinv.free h hclean).consistent⟩

/-! ### In every run -/

section

variable {s₀ : ChanLocal} {os : List ℤ}

/-- **When the release of a channel leaves a link behind**: just if the context is to be replaced,
the interface is its last one, and somebody else waits for the replacement. -/
theorem vifReleaseChannel_consistent_iff (h₀ : s₀.Initial)
    (hr : Machine.Reach (chanStep H) (fun s _ e => e.1.Promised H s ∧ KeepsContexts s e) s₀ s os)
    (hv : H.iftype v ≠ .apVlan) (hnan : H.iftype v ≠ .nan) (hnot : readiesSwitch s v = false) :
    ChanctxConsistent H (vifReleaseChannel E s v) ↔ ∀ c ∈ (s.vif v).chanctxConf, ¬FreesReplaced s v c := by
  have h := chanctxInv_of_reach h₀ hr
  rw [vifReleaseChannel]
  cases hconf : (s.vif v).chanctxConf with
  | none => exact iff_of_true h.consistent fun c hc => absurd hc (Option.not_mem_none c)
  | some c =>
    dsimp only
    rw [hnot, if_neg Bool.false_ne_true, releaseCtx_consistent_iff h hv hnan hconf]
    exact ⟨fun hfree c' hc' => Option.some.inj hc' ▸ hfree, fun hfree => hfree c rfl⟩

/-- Of two stations that want to move to the same channel, the first gives up, and leaves its own. -/
theorem vifReleaseChannel_consistent_iff_leaves : ∃ s : ChanLocal, FreesReplaced s 0 0 ∧
    ¬ChanctxConsistent .stations (vifReleaseChannel (.obliging .stations 2) s 0) := by
  have hrun : (Machine.run (chanStep .stations) .start
      (leavesReplacement.take 4 ++ [(.unreserveChanctx 0, .obliging _ 2)])).map (fun p =>
      decide ((p.1.vif 0).chanctxConf = some 0 ∧ readiesSwitch p.1 0 = false ∧ FreesReplaced p.1 0 0)) =
      some true := by
    decide +kernel
  have hmeets : Machine.Meets (chanStep .stations)
      (fun s _ e => e.1.Promised .stations s ∧ KeepsContexts s e) .start []
      (leavesReplacement.take 4 ++ [(.unreserveChanctx 0, .obliging _ 2)]) := by
    decide +kernel
  obtain ⟨⟨s, os⟩, hrun, hs⟩ := Option.map_eq_some_iff.1 hrun
  obtain ⟨hconf, hnot, hfree⟩ := of_decide_eq_true hs
  exact ⟨s, hfree, fun hc => (vifReleaseChannel_consistent_iff ChanLocal.start_initial
    (Machine.Reach.of_run .init hmeets hrun) (by decide) (by decide) hnot).1 hc 0 hconf hfree⟩

/-- **When the use of a reservation goes wrong**: if the last reservation gets ready and the driver
goes along, just if the switch is not clean. -/
theorem vifUseReservedContext_consistent_iff (h₀ : s₀.Initial)
    (hr : Machine.Reach (chanStep H) (fun s _ e => e.1.Promised H s ∧ KeepsContexts s e) s₀ s os)
    (hv : H.iftype v ≠ .apVlan) (hres : (s.vif v).reservedChanctx = some n)
    (hmove : ∀ o ∈ (s.vif v).chanctxConf, ¬MoveFrees E s v n o)
    (hstate : (s.ctx n).replaceState ≠ .willBeReplaced) (hready : (s.vif v).reservedReady = false)
    (huse : useExisting E s v n = (0, s')) (hmay : mayFinalize s' (s.vif v).chanctxConf n = true)
    (hswitch : ∃ m ∈ (verifySwitch H s').toOption, switchDriver E s' m = 0) :
    ChanctxConsistent H (vifUseReservedContext E s v).2 ↔ SwitchClean s' := by
  have h := (chanctxInv_of_reach h₀ hr).useExisting (E := E) hv hres hmove
  rw [huse] at h
  obtain ⟨m, hm, hdriver⟩ := hswitch
  have hverify : verifySwitch H s' = .ok m := by
    generalize verifySwitch H s' = r at hm
    cases r with
    | error e => cases hm
    | ok m' => exact congrArg _ (Option.some.inj hm)
  rw [← vifUseReservedSwitch_consistent_iff h hverify hdriver, vifUseReservedContext, hres]
  dsimp only
  rw [if_neg hstate, hready, if_neg Bool.false_ne_true, huse]
  dsimp only
  rw [if_neg (not_not.2 rfl), if_pos hmay]
  split
  · exact Iff.rfl
  · exact Iff.rfl

/-- One of two stations moves to a third channel. -/
theorem vifUseReservedContext_consistent_iff_moves : ∃ s : ChanLocal,
    (s.vif 0).reservedChanctx = some 2 ∧
      ChanctxConsistent .stations (vifUseReservedContext (.obliging .stations 2) s 0).2 := by
  have hrun : (Machine.run (chanStep .stations) .start (movesTogether.take 5)).map (fun p =>
      let s' := useExisting (.obliging .stations 2) p.1 0 2
      decide ((p.1.vif 0).reservedChanctx = some 2 ∧
        (∀ o ∈ (p.1.vif 0).chanctxConf, ¬MoveFrees (.obliging .stations 2) p.1 0 2 o) ∧
        (p.1.ctx 2).replaceState ≠ .willBeReplaced ∧ (p.1.vif 0).reservedReady = false ∧ s'.1 = 0 ∧
        mayFinalize s'.2 (p.1.vif 0).chanctxConf 2 = true ∧ (∃ m ∈ (verifySwitch .stations s'.2).toOption,
          switchDriver (.obliging .stations 2) s'.2 m = 0) ∧ SwitchClean s'.2)) = some true := by
    decide +kernel
  have hmeets : Machine.Meets (chanStep .stations)
      (fun s _ e => e.1.Promised .stations s ∧ KeepsContexts s e) .start [] (movesTogether.take 5) := by
    decide +kernel
  obtain ⟨⟨s, os⟩, hrun, hs⟩ := Option.map_eq_some_iff.1 hrun
  obtain ⟨hres, hmove, hstate, hready, herr, hmay, hswitch, hclean⟩ := of_decide_eq_true hs
  exact ⟨s, hres, (vifUseReservedContext_consistent_iff ChanLocal.start_initial
    (Machine.Reach.of_run .init hmeets hrun) (by decide) hres hmove hstate hready (Prod.ext herr rfl) hmay
    hswitch).2 hclean⟩

end

end Mac80211
