import Mac80211.Chan.ContextLists

/-!
# What holds between two calls

Lists and links are in order, each context is used, and one that waits to replace another is
assigned to none. In the middle of a call one context may be unused.

## Main definitions

* `ChanctxInv`
-/

namespace Mac80211

open ChanLocal List

variable {H : ChanHw} {E : ChanEnv H} {s s' : ChanLocal} {x : Option CtxId} {c d n o : CtxId}
  {v w : VifId}

/-- Lists and links are in order. -/
structure ChanWf (H : ChanHw) (s : ChanLocal) : Prop where
  lists : ChanLists H (fun v => (s.vif v).chanctxConf) s
  links : ChanLinks s
  /-- A context that will be replaced is not reserved. -/
  unreserved : ∀ o ∈ s.chanctxList, (s.ctx o).replaceState = .willBeReplaced → (s.ctx o).reservedVifs = []

/-- What holds between calls, with at most one context that none uses. -/
structure ChanctxInv (H : ChanHw) (x : Option CtxId) (s : ChanLocal) : Prop extends ChanWf H s where
  /-- A context that replaces another one is not assigned. -/
  unassigned : ∀ n ∈ s.chanctxList, (s.ctx n).replaceState = .replacesOther → (s.ctx n).assignedVifs = []
  /-- Each context is used. -/
  used : ∀ c ∈ s.chanctxList, s.Unused c → x = some c

namespace ChanWf

theorem congr (h : ChanWf H s) (hs : SameLinks H s s') : ChanWf H s' where
  lists := (h.lists.congr hs).congr_fun hs.chanctxConf
  links := h.links.of_sameLinks hs
  unreserved o ho hstate := by
    rw [hs.reservedVifs]
    exact h.unreserved o (hs.chanctxList ▸ ho) ((hs.replaceState o).symm.trans hstate)

theorem reserved_ne_willBeReplaced (h : ChanWf H s) (hv : (s.vif v).reservedChanctx = some c) :
    (s.ctx c).replaceState ≠ .willBeReplaced := by
  intro hstate
  have hmem := (h.lists.reserved c v).2 hv
  rw [h.unreserved c (h.lists.mem_of_reserved hv) hstate] at hmem
  exact not_mem_nil hmem

theorem clearReservation (h : ChanWf H s) (v : VifId) : ChanWf H (s.clearReservation v) where
  lists := (h.lists.clearReservation v).congr_fun fun w _ => by
    rw [clearReservation_vif]
    split
    · subst w; rfl
    · rfl
  links := h.links.congr rfl (fun _ => rfl) fun _ => rfl
  unreserved o ho hstate := by
    rw [clearReservation_ctx]
    simp [h.unreserved o ho hstate]

theorem delCtx (h : ChanWf H s) (hc : s.Unused c) (hstate : (s.ctx c).replaceState = .replaceNone) :
    ChanWf H (s.delCtx c) where
  lists := h.lists.delCtx hc
  links := h.links.delCtx hstate
  unreserved o ho := h.unreserved o (mem_of_mem_erase ho)

theorem unlinkDel (h : ChanWf H s) (hc : s.Unused c) (hr : s.Replaces c d ∨ s.Replaces d c) :
    ChanWf H ((s.unlink d).delCtx c) where
  lists := (h.lists.unlink d).delCtx (by
    rw [Unused, unlink_assignedVifs, unlink_reservedVifs]
    exact hc)
  links := h.links.unlinkDel h.lists.nodup hr
  unreserved o ho hstate := by
    rw [delCtx_ctx, unlink_ctx] at hstate
    rw [delCtx_ctx, unlink_reservedVifs]
    split at hstate
    · cases hstate
    · exact h.unreserved o (mem_of_mem_erase ho) hstate

theorem unreserve_cases (h : ChanWf H s) (hv : (s.vif v).reservedChanctx = some c) :
    (¬(s.clearReservation v).Unused c ∧ (vifUnreserveChanctx s v).2 = s.clearReservation v) ∨
    ((s.clearReservation v).Unused c ∧ (s.ctx c).replaceState = .replaceNone ∧
      (vifUnreserveChanctx s v).2 = (s.clearReservation v).delCtx c) ∨
    ((s.clearReservation v).Unused c ∧ ∃ o ∈ s.chanctxList, (s.clearReservation v).Replaces c o ∧
      (vifUnreserveChanctx s v).2 = ((s.clearReservation v).unlink o).delCtx c) := by
  rw [vifUnreserveChanctx, hv]
  dsimp only
  by_cases hu : (s.clearReservation v).Unused c
  · rw [if_pos (refcount_eq_zero.2 hu)]
    by_cases hr : (s.ctx c).replaceState = .replacesOther
    · obtain ⟨o, ho, hco⟩ := h.links.replacing c (h.lists.mem_of_reserved hv) hr
      have hco' : (s.clearReservation v).Replaces c o :=
        ⟨hco.newState, hco.newCtx, hco.oldState, hco.oldCtx⟩
      rw [if_pos hco'.newState, hco'.newCtx]
      exact .inr (.inr ⟨hu, o, ho, hco', rfl⟩)
    · have hnone : (s.ctx c).replaceState = .replaceNone := by
        cases hstate : (s.ctx c).replaceState with
        | replaceNone => rfl
        | willBeReplaced => exact absurd hstate (h.reserved_ne_willBeReplaced hv)
        | replacesOther => exact absurd hstate hr
      have hr' : ((s.clearReservation v).ctx c).replaceState ≠ .replacesOther := hr
      rw [if_neg hr']
      exact .inr (.inl ⟨hu, hnone, rfl⟩)
  · rw [if_neg (mt refcount_eq_zero.1 hu)]
    exact .inl ⟨hu, rfl⟩

theorem unreserve (h : ChanWf H s) (v : VifId) : ChanWf H (vifUnreserveChanctx s v).2 := by
  cases hv : (s.vif v).reservedChanctx with
  | none => rw [vifUnreserveChanctx, hv]; exact h
  | some c =>
    have hclear := h.clearReservation v
    obtain ⟨-, hs⟩ | ⟨hu, hnone, hs⟩ | ⟨hu, o, -, hr, hs⟩ := h.unreserve_cases hv
    · rw [hs]; exact hclear
    · rw [hs]; exact hclear.delCtx hu hnone
    · rw [hs]; exact hclear.unlinkDel hu (.inl hr)

/-- A context that is used only by a reservation is not used without it. -/
theorem unused_clearReservation (h : ChanWf H s) (hd : (s.clearReservation v).Unused d)
    (hne : (s.vif v).reservedChanctx ≠ some d) : s.Unused d := by
  obtain ⟨ha, hr⟩ := hd
  refine ⟨ha, ?_⟩
  rw [clearReservation_ctx] at hr
  rwa [erase_of_not_mem (mt (h.lists.reserved d v).1 hne)] at hr

end ChanWf

namespace ChanctxInv

theorem congr (h : ChanctxInv H x s) (hs : SameLinks H s s') : ChanctxInv H x s' where
  toChanWf := h.toChanWf.congr hs
  unassigned n hn hstate := by
    rw [hs.assignedVifs]
    exact h.unassigned n (hs.chanctxList ▸ hn) ((hs.replaceState n).symm.trans hstate)
  used c hc hu := h.used c (hs.chanctxList ▸ hc) ((hs.unused c).1 hu)

theorem assigned_ne_replacesOther (h : ChanctxInv H x s) (hv : H.iftype v ≠ .apVlan)
    (hconf : (s.vif v).chanctxConf = some c) : (s.ctx c).replaceState ≠ .replacesOther := by
  intro hstate
  have hmem := (h.lists.assigned c v).2 ⟨hv, hconf⟩
  rw [h.unassigned c (h.lists.mem_of_assigned hmem) hstate] at hmem
  exact not_mem_nil hmem

/-! ### Reservations -/

theorem clearReservation (h : ChanctxInv H none s) (hv : (s.vif v).reservedChanctx = some c) :
    ChanctxInv H (some c) (s.clearReservation v) where
  toChanWf := h.toChanWf.clearReservation v
  unassigned := h.unassigned
  used d hd hu := by
    by_contra hne
    have hne : (s.vif v).reservedChanctx ≠ some d := fun hd => hne (hv.symm.trans hd)
    cases h.used d hd (h.unused_clearReservation hu hne)

theorem unreserve (h : ChanctxInv H none s) (v : VifId) :
    ChanctxInv H none (vifUnreserveChanctx s v).2 := by
  cases hv : (s.vif v).reservedChanctx with
  | none => rw [vifUnreserveChanctx, hv]; exact h
  | some c =>
    have hclear := h.clearReservation hv
    have hnodup := hclear.lists.nodup
    refine { toChanWf := h.toChanWf.unreserve v, unassigned := ?_, used := ?_ }
    · obtain ⟨-, hs⟩ | ⟨-, -, hs⟩ | ⟨-, o, -, -, hs⟩ := h.unreserve_cases hv <;> rw [hs]
      · exact hclear.unassigned
      · exact fun n hn => hclear.unassigned n (mem_of_mem_erase hn)
      · intro n hn hstate
        rw [delCtx_ctx, unlink_ctx] at hstate
        rw [delCtx_ctx, unlink_assignedVifs]
        split at hstate
        · cases hstate
        · exact hclear.unassigned n (mem_of_mem_erase hn) hstate
    · obtain ⟨hu, hs⟩ | ⟨-, -, hs⟩ | ⟨-, o, -, -, hs⟩ := h.unreserve_cases hv <;> rw [hs]
      · intro d hd hd'
        cases hclear.used d hd hd'
        exact absurd hd' hu
      · intro d hd hd'
        obtain ⟨hne, hd⟩ := hnodup.mem_erase_iff.1 hd
        cases hclear.used d hd hd'
        exact absurd rfl hne
      · intro d hd hd'
        obtain ⟨hne, hd⟩ := hnodup.mem_erase_iff.1 hd
        rw [Unused, delCtx_ctx, unlink_assignedVifs, unlink_reservedVifs] at hd'
        cases hclear.used d hd hd'
        exact absurd rfl hne

theorem reserve (h : ChanctxInv H x s) (hx : x = none ∨ x = some c) (hv : H.iftype v ≠ .apVlan)
    (hr : (s.vif v).reservedChanctx = none) (hc : c ∈ s.chanctxList)
    (hstate : (s.ctx c).replaceState ≠ .willBeReplaced) (chandef : ChanDef) :
    ChanctxInv H none (reserve s v c chandef) := by
  have hstate' (d : CtxId) : ((Mac80211.reserve s v c chandef).ctx d).replaceState =
      (s.ctx d).replaceState := by
    rw [reserve_ctx]
    split
    · subst d; rfl
    · rfl
  have hctx' (d : CtxId) : ((Mac80211.reserve s v c chandef).ctx d).replaceCtx =
      (s.ctx d).replaceCtx := by
    rw [reserve_ctx]
    split
    · subst d; rfl
    · rfl
  refine ⟨⟨?_, h.links.congr rfl hstate' hctx', fun o ho hs => ?_⟩, fun n hn hs => ?_, fun d hd hu => ?_⟩
  · refine (h.lists.addReserved hv hr hc chandef).congr_fun fun w _ => ?_
    rw [reserve_vif]
    split
    · subst w; rfl
    · rfl
  · rw [hstate'] at hs
    have hoc : o ≠ c := fun hoc => hstate (hoc ▸ hs)
    rw [reserve_ctx, if_neg hoc]
    exact h.unreserved o ho hs
  · rw [hstate'] at hs
    have := h.unassigned n hn hs
    rw [reserve_ctx]
    split
    · subst n; exact this
    · exact this
  · rw [Unused, reserve_ctx] at hu
    by_cases hdc : d = c
    · rw [if_pos hdc] at hu
      exact absurd hu.2 (cons_ne_nil _ _)
    · rw [if_neg hdc] at hu
      have := h.used d hd hu
      rcases hx with rfl | rfl
      · exact this
      · exact absurd (Option.some.inj this).symm hdc

/-! ### Assignments -/

theorem unassign (h : ChanctxInv H none s) (hconf : (s.vif v).chanctxConf = some c) :
    ChanctxInv H (some c) ((s.delAssigned v).setConf v none) where
  lists := (h.lists.delAssigned v).point
  links := h.links.congr rfl (fun _ => rfl) fun _ => rfl
  unreserved := h.unreserved
  unassigned n hn hstate := by
    have := h.unassigned n hn hstate
    rw [setConf_ctx, delAssigned_ctx]
    simp [this]
  used d hd hu := by
    by_contra hne
    have hv : v ∉ (s.ctx d).assignedVifs := fun hv =>
      hne (hconf.symm.trans ((h.lists.assigned d v).1 hv).2)
    obtain ⟨ha, hr⟩ := hu
    rw [setConf_ctx, delAssigned_ctx] at ha
    rw [erase_of_not_mem hv] at ha
    cases h.used d hd ⟨ha, hr⟩

theorem move (h : ChanctxInv H x s) (hx : x = none ∨ x = some c) (hv : H.iftype v ≠ .apVlan)
    (hc : c ∈ s.chanctxList) (hstate : (s.ctx c).replaceState ≠ .replacesOther) :
    ChanctxInv H (s.vif v).chanctxConf
      (((s.delAssigned v).addAssigned v c).setConf v (some c)) := by
  have hctx (d : CtxId) : (((s.delAssigned v).addAssigned v c).setConf v (some c)).ctx d =
      if d = c then { s.ctx c with assignedVifs := v :: (s.ctx c).assignedVifs.erase v }
      else { s.ctx d with assignedVifs := (s.ctx d).assignedVifs.erase v } :=
    addAssigned_ctx d
  have hstate' (d : CtxId) :
      ((((s.delAssigned v).addAssigned v c).setConf v (some c)).ctx d).replaceState =
        (s.ctx d).replaceState := by
    rw [hctx]
    split
    · subst d; rfl
    · rfl
  refine ⟨⟨?_, h.links.congr rfl hstate' fun d => ?_, fun o ho hs => ?_⟩, fun n hn hs => ?_,
    fun d hd hu => ?_⟩
  · have hlists := (h.lists.delAssigned v).addAssigned hv (Function.update_self ..) hc
    rw [Function.update_idem] at hlists
    exact hlists.point
  · rw [hctx]
    split
    · subst d; rfl
    · rfl
  · rw [hstate'] at hs
    have := h.unreserved o ho hs
    rw [hctx]
    split
    · subst o; exact this
    · exact this
  · rw [hstate'] at hs
    have hnc : n ≠ c := fun hnc => hstate (hnc ▸ hs)
    rw [hctx, if_neg hnc]
    simp [h.unassigned n hn hs]
  · rw [Unused, hctx] at hu
    by_cases hdc : d = c
    · rw [if_pos hdc] at hu
      exact absurd hu.1 (cons_ne_nil _ _)
    · rw [if_neg hdc] at hu
      by_contra hne
      have hvd : v ∉ (s.ctx d).assignedVifs := fun hvd => hne ((h.lists.assigned d v).1 hvd).2
      have hu : s.Unused d := ⟨by simpa [erase_of_not_mem hvd] using hu.1, hu.2⟩
      have := h.used d hd hu
      rcases hx with rfl | rfl
      · cases this
      · exact hdc (Option.some.inj this).symm

theorem freeUnused (h : ChanctxInv H x s) (hx : x = none ∨ x = some c)
    (hstate : s.Unused c → (s.ctx c).replaceState = .replaceNone) :
    ChanctxInv H none (s.freeUnused c) := by
  have hused {d : CtxId} (hd : d ∈ s.chanctxList) (hu : s.Unused d) : d = c := by
    have := h.used d hd hu
    rcases hx with rfl | rfl
    · cases this
    · exact (Option.some.inj this).symm
  rw [ChanLocal.freeUnused]
  split
  · rename_i hu
    have hu := refcount_eq_zero.1 hu
    refine ⟨h.delCtx hu (hstate hu), fun n hn => h.unassigned n (mem_of_mem_erase hn),
      fun d hd hud => ?_⟩
    obtain ⟨hne, hd⟩ := h.lists.nodup.mem_erase_iff.1 hd
    exact absurd (hused hd hud) hne
  · rename_i hu
    refine { h with used := fun d hd hud => ?_ }
    rw [hused hd hud] at hud
    exact absurd (refcount_eq_zero.2 hud) hu

/-! ### New contexts -/

theorem allocChanctx (h : ChanctxInv H none s) (chandef : ChanDef) (mode : ChanctxMode) :
    ChanctxInv H (some s.nextCtx) (s.allocChanctx chandef mode) := by
  have hnext := h.lists.nextCtx_notMem
  have hnew : (s.allocChanctx chandef mode).ctx s.nextCtx = { mode, confDef := chandef } := by
    rw [allocChanctx_ctx, if_pos rfl]
  have hctx {d : CtxId} (hd : d ∈ s.chanctxList) : (s.allocChanctx chandef mode).ctx d = s.ctx d := by
    have hdn : d ≠ s.nextCtx := fun hdn => hnext (hdn ▸ hd)
    rw [allocChanctx_ctx, if_neg hdn]
  refine ⟨⟨h.lists.allocChanctx chandef mode, h.links.allocChanctx hnext chandef mode,
    fun o ho hs => ?_⟩, fun n hn hs => ?_, fun d hd hu => ?_⟩
  · rcases mem_cons.1 ho with rfl | ho
    · rw [hnew]
    · rw [hctx ho] at hs ⊢
      exact h.unreserved o ho hs
  · rcases mem_cons.1 hn with rfl | hn
    · rw [hnew]
    · rw [hctx hn] at hs ⊢
      exact h.unassigned n hn hs
  · rcases mem_cons.1 hd with rfl | hd
    · rfl
    · rw [Unused, hctx hd] at hu
      cases h.used d hd hu

theorem allocReplacement (h : ChanctxInv H none s) (hc : c ∈ s.chanctxList)
    (hstate : (s.ctx c).replaceState = .replaceNone) (hr : (s.ctx c).reservedVifs = [])
    (chandef : ChanDef) (mode : ChanctxMode) :
    ChanctxInv H (some s.nextCtx) (allocReplacement s c chandef mode) := by
  have hnext := h.lists.nextCtx_notMem
  have hcn : c ≠ s.nextCtx := fun hcn => hnext (hcn ▸ hc)
  have hctx := allocReplacement_ctx hcn chandef mode
  refine ⟨⟨h.lists.allocReplacement c chandef mode,
    h.links.allocReplacement hnext hc hstate chandef mode, fun o ho hs => ?_⟩, fun n hn hs => ?_,
    fun d hd hu => ?_⟩
  · rw [hctx] at hs ⊢
    split
    · exact hr
    · rename_i hoc
      rw [if_neg hoc] at hs
      split
      · rfl
      · rename_i hon
        rw [if_neg hon] at hs
        exact h.unreserved o ((mem_cons.1 ho).resolve_left hon) hs
  · rw [hctx] at hs ⊢
    split
    · rename_i hnc
      rw [if_pos hnc] at hs
      cases hs
    · rename_i hnc
      rw [if_neg hnc] at hs
      split
      · rfl
      · rename_i hnn
        rw [if_neg hnn] at hs
        exact h.unassigned n ((mem_cons.1 hn).resolve_left hnn) hs
  · by_cases hdn : d = s.nextCtx
    · rw [hdn]
    · have hd := (mem_cons.1 hd).resolve_left hdn
      have hu : s.Unused d := by
        rw [Unused, hctx] at hu
        split at hu
        · subst d; exact hu
        · exact hu
      cases h.used d hd hu

end ChanctxInv

end Mac80211
