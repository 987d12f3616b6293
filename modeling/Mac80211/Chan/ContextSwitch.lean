import Mac80211.Chan.ContextCalls

/-!
# Contexts take over

One turn of the loop in `ieee80211_vif_use_reserved_switch`: interfaces that have reserved the
context in place are moved to it, and deferred reservations are used, which never works.

## Main definitions

* `Swapped`, `TakenOver`
-/

namespace Mac80211

open ChanLocal List

variable {H : ChanHw} {E : ChanEnv H} {s s' : ChanLocal} {f : VifId → Option CtxId} {c d n o : CtxId}
  {v w : VifId} {l : List VifId}

theorem ChanLocal.hasInPlaceReservation_congr (hconf : (s'.vif v).chanctxConf = (s.vif v).chanctxConf)
    (hr : (s'.vif v).reservedChanctx = (s.vif v).reservedChanctx)
    (hstate : ∀ d, (s'.ctx d).replaceState = (s.ctx d).replaceState) :
    s'.HasInPlaceReservation v ↔ s.HasInPlaceReservation v := by
  simp only [HasInPlaceReservation, hconf, hr, hstate]

/-! ### Pointers -/

/-- The interfaces of which `P` holds point to the context. -/
structure Points (H : ChanHw) (c : CtxId) (P : VifId → Prop) (s s' : ChanLocal) : Prop where
  chanctxList : s'.chanctxList = s.chanctxList
  nextCtx : s'.nextCtx = s.nextCtx
  ctx : s'.ctx = s.ctx
  reservedChanctx : ∀ w, (s'.vif w).reservedChanctx = (s.vif w).reservedChanctx
  reservedReady : ∀ w, (s'.vif w).reservedReady = (s.vif w).reservedReady
  pointed : ∀ w, H.iftype w ≠ .apVlan → P w → (s'.vif w).chanctxConf = some c
  others : ∀ w, H.iftype w ≠ .apVlan → ¬P w → (s'.vif w).chanctxConf = (s.vif w).chanctxConf

theorem points_pointToNew (E : ChanEnv H) (c : CtxId) (s : ChanLocal) (v : VifId) :
    Points H c (fun w => w = v ∧ s.HasInPlaceReservation v) s (pointToNew E c s v) := by
  rw [pointToNew]
  split
  · rename_i hv
    exact ⟨rfl, rfl, rfl, fun _ => rfl, fun _ => rfl, fun w _ hw => absurd hw.2 hv, fun _ _ _ => rfl⟩
  · rename_i hv
    have hv := not_not.1 hv
    -- the VLAN interfaces and the definitions do not count
    obtain ⟨s₁, hs₁, hctx, hsame⟩ : ∃ s₁, s₁ = (if H.iftype v = .ap then
        vifCopyChanctxToVlans E (s.setConf v (some c)) v else s.setConf v (some c)) ∧
        s₁.ctx = s.ctx ∧ SameLinks H (s.setConf v (some c)) s₁ := by
      refine ⟨_, rfl, ?_⟩
      split
      · exact ⟨rfl, .vifCopyChanctxToVlans _ v⟩
      · exact ⟨rfl, .refl _⟩
    dsimp only
    rw [← hs₁]
    have hsame := hsame.trans (.vifUpdateChandef (E := E) s₁ v (s₁.vif v).reservedChandef)
    refine ⟨hsame.chanctxList, hsame.nextCtx, hctx, fun w => (hsame.reservedChanctx w).trans ?_,
      fun w => (hsame.reservedReady w).trans ?_, fun w hw hP => (hsame.chanctxConf w hw).trans ?_,
      fun w hw hP => (hsame.chanctxConf w hw).trans ?_⟩
    all_goals rw [setConf_vif]
    · split
      · subst w; rfl
      · rfl
    · split
      · subst w; rfl
      · rfl
    · rw [if_pos hP.1]
    · rw [if_neg fun hwv => hP ⟨hwv, hv⟩]

/-- The first loop: each interface with an in-place reservation points to the context. -/
theorem points_foldl (E : ChanEnv H) (c : CtxId) : ∀ (l : List VifId) (s : ChanLocal), l.Nodup →
    (∀ v ∈ l, H.iftype v ≠ .apVlan) →
    Points H c (fun w => w ∈ l ∧ s.HasInPlaceReservation w) s (l.foldl (pointToNew E c) s) := by
  intro l
  induction l with
  | nil =>
    intro s _ _
    exact ⟨rfl, rfl, rfl, fun _ => rfl, fun _ => rfl, fun w _ hw => absurd hw.1 not_mem_nil,
      fun _ _ _ => rfl⟩
  | cons v l ih =>
    intro s hnodup hl
    obtain ⟨hvl, hnodup⟩ := nodup_cons.1 hnodup
    have h₁ := points_pointToNew E c s v
    have h₂ := ih (pointToNew E c s v) hnodup fun w hw => hl w (mem_cons_of_mem v hw)
    have hplace {w : VifId} (hw : w ∈ l) : (pointToNew E c s v).HasInPlaceReservation w ↔ s.HasInPlaceReservation w :=
      hasInPlaceReservation_congr
        (h₁.others w (hl w (mem_cons_of_mem v hw)) fun hwv => hvl (hwv.1 ▸ hw))
        (h₁.reservedChanctx w) fun d => by rw [h₁.ctx]
    rw [foldl_cons]
    refine ⟨h₂.chanctxList.trans h₁.chanctxList, h₂.nextCtx.trans h₁.nextCtx, h₂.ctx.trans h₁.ctx,
      fun w => (h₂.reservedChanctx w).trans (h₁.reservedChanctx w),
      fun w => (h₂.reservedReady w).trans (h₁.reservedReady w), fun w hw hP => ?_, fun w hw hP => ?_⟩
    · obtain ⟨hmem, hP⟩ := hP
      rcases mem_cons.1 hmem with rfl | hmem
      · rw [h₂.others w hw fun hwl => hvl hwl.1]
        exact h₁.pointed w hw ⟨rfl, hP⟩
      · exact h₂.pointed w hw ⟨hmem, (hplace hmem).2 hP⟩
    · rw [h₂.others w hw fun hwl => hP ⟨mem_cons_of_mem v hwl.1, (hplace hwl.1).1 hwl.2⟩]
      exact h₁.others w hw fun hwv => hP ⟨by rw [hwv.1]; exact mem_cons_self, hwv.1 ▸ hwv.2⟩

/-! ### Lists -/

/-- The interfaces of `l` that point to the context are on its list. -/
structure Moved (H : ChanHw) (c : CtxId) (l : List VifId) (f : VifId → Option CtxId) (s s' : ChanLocal) :
    Prop where
  lists : ChanLists H (fun w => if w ∈ l ∧ (s.vif w).chanctxConf = some c then some c else f w) s'
  chanctxList : s'.chanctxList = s.chanctxList
  replaceState : ∀ d, (s'.ctx d).replaceState = (s.ctx d).replaceState
  replaceCtx : ∀ d, (s'.ctx d).replaceCtx = (s.ctx d).replaceCtx
  chanctxConf : ∀ w, (s'.vif w).chanctxConf = (s.vif w).chanctxConf
  reservedReady : ∀ w, (s'.vif w).reservedReady = (s.vif w).reservedReady
  reservedChanctx : ∀ w, (s'.vif w).reservedChanctx =
    if w ∈ l ∧ (s.vif w).chanctxConf = some c then none else (s.vif w).reservedChanctx

theorem moved_moveToNew (h : ChanLists H f s) (hc : c ∈ s.chanctxList)
    (hv : (s.vif v).reservedChanctx = some c) : Moved H c [v] f s (moveToNew c s v) := by
  rw [moveToNew]
  split
  · rename_i hconf
    have hw (w : VifId) : ¬(w ∈ [v] ∧ (s.vif w).chanctxConf = some c) := fun hw => by
      rw [mem_singleton.1 hw.1] at hw
      exact hconf hw.2
    refine ⟨h.congr_fun fun w _ => if_neg (hw w), rfl, fun _ => rfl, fun _ => rfl, fun _ => rfl,
      fun _ => rfl, fun w => (if_neg (hw w)).symm⟩
  · rename_i hconf
    have hconf := not_not.1 hconf
    have heq : ((((s.delReserved v).delAssigned v).addAssigned v c).modVif v fun x =>
        { x with reservedChanctx := none }) = ((s.clearReservation v).delAssigned v).addAssigned v c := rfl
    have hctx (d : CtxId) : (((s.clearReservation v).delAssigned v).addAssigned v c).ctx d =
        if d = c then _ else _ := addAssigned_ctx d
    have hvif (w : VifId) : (((s.clearReservation v).delAssigned v).addAssigned v c).vif w =
        if w = v then { s.vif v with reservedChanctx := none } else s.vif w := clearReservation_vif w
    rw [heq]
    refine ⟨?_, rfl, fun d => ?_, fun d => ?_, fun w => ?_, fun w => ?_, fun w => ?_⟩
    · refine (((h.clearReservation v).delAssigned v).addAssigned (h.reserver v c hv)
        (Function.update_self ..) hc).congr_fun fun w _ => ?_
      rw [Function.update_idem, Function.update_apply]
      by_cases hwv : w = v
      · subst w
        simp [hconf]
      · simp [hwv]
    · rw [hctx]
      split
      · subst d; rfl
      · rfl
    · rw [hctx]
      split
      · subst d; rfl
      · rfl
    · rw [hvif]
      split
      · subst w; rfl
      · rfl
    · rw [hvif]
      split
      · subst w; rfl
      · rfl
    · rw [hvif]
      by_cases hwv : w = v
      · subst w
        simp [hconf]
      · simp [hwv]

theorem moved_foldl : ∀ (l : List VifId) (f : VifId → Option CtxId) (s : ChanLocal), ChanLists H f s →
    c ∈ s.chanctxList → l.Nodup → (∀ v ∈ l, (s.vif v).reservedChanctx = some c) →
    Moved H c l f s (l.foldl (moveToNew c) s) := by
  intro l
  induction l with
  | nil =>
    intro f s h _ _ _
    have hw (w : VifId) : ¬(w ∈ [] ∧ (s.vif w).chanctxConf = some c) := fun hw =>
      not_mem_nil hw.1
    exact ⟨h.congr_fun fun w _ => if_neg (hw w), rfl, fun _ => rfl, fun _ => rfl, fun _ => rfl,
      fun _ => rfl, fun w => (if_neg (hw w)).symm⟩
  | cons v l ih =>
    intro f s h hc hnodup hl
    obtain ⟨hvl, hnodup⟩ := nodup_cons.1 hnodup
    have h₁ := moved_moveToNew h hc (hl v mem_cons_self)
    have h₂ := ih _ _ h₁.lists (h₁.chanctxList ▸ hc) hnodup fun w hw => by
      have hwv : w ≠ v := fun hwv => hvl (hwv ▸ hw)
      rw [h₁.reservedChanctx, if_neg fun h => hwv (mem_singleton.1 h.1)]
      exact hl w (mem_cons_of_mem v hw)
    have hmem (w : VifId) : w ∈ v :: l ∧ (s.vif w).chanctxConf = some c ↔
        (w ∈ l ∧ (s.vif w).chanctxConf = some c) ∨ (w ∈ [v] ∧ (s.vif w).chanctxConf = some c) := by
      rw [mem_cons, mem_singleton, ← or_and_right, or_comm]
    rw [foldl_cons]
    refine ⟨h₂.lists.congr_fun fun w _ => ?_, h₂.chanctxList.trans h₁.chanctxList,
      fun d => (h₂.replaceState d).trans (h₁.replaceState d),
      fun d => (h₂.replaceCtx d).trans (h₁.replaceCtx d),
      fun w => (h₂.chanctxConf w).trans (h₁.chanctxConf w),
      fun w => (h₂.reservedReady w).trans (h₁.reservedReady w), fun w => ?_⟩
    · simp only [hmem w, h₁.chanctxConf w]
      by_cases hw : w ∈ l ∧ (s.vif w).chanctxConf = some c <;> simp [hw]
    · rw [h₂.reservedChanctx, h₁.reservedChanctx, h₁.chanctxConf]
      simp only [hmem w]
      by_cases hw : w ∈ l ∧ (s.vif w).chanctxConf = some c <;> simp [hw]

theorem ChanLists.points {P : VifId → Prop} (h : ChanLists H f s) (hp : Points H c P s s') :
    ChanLists H f s' where
  nodup := hp.chanctxList ▸ h.nodup
  lt_nextCtx := hp.chanctxList ▸ hp.nextCtx ▸ h.lt_nextCtx
  assigned c v := by rw [hp.ctx]; exact h.assigned c v
  assigned_nodup c := by rw [hp.ctx]; exact h.assigned_nodup c
  reserved c v := by rw [hp.ctx, hp.reservedChanctx]; exact h.reserved c v
  reserved_nodup c := by rw [hp.ctx]; exact h.reserved_nodup c
  reserver v c := by rw [hp.reservedChanctx]; exact h.reserver v c
  gone c hc := by rw [Unused, hp.ctx]; exact h.gone c (hp.chanctxList ▸ hc)

/-- The first two loops: the in-place reservations are done. -/
structure Swapped (H : ChanHw) (c : CtxId) (s s' : ChanLocal) : Prop where
  wf : ChanWf H s'
  chanctxList : s'.chanctxList = s.chanctxList
  replaceState : ∀ d, (s'.ctx d).replaceState = (s.ctx d).replaceState
  replaceCtx : ∀ d, (s'.ctx d).replaceCtx = (s.ctx d).replaceCtx
  reservedReady : ∀ w, (s'.vif w).reservedReady = (s.vif w).reservedReady
  reservedChanctx : ∀ w, (s'.vif w).reservedChanctx =
    if (s.vif w).reservedChanctx = some c ∧ s.HasInPlaceReservation w then none
    else (s.vif w).reservedChanctx
  arrived : ∀ w, (s.vif w).reservedChanctx = some c → s.HasInPlaceReservation w →
    (s'.vif w).chanctxConf = some c
  chanctxConf : ∀ w, H.iftype w ≠ .apVlan →
    ¬((s.vif w).reservedChanctx = some c ∧ s.HasInPlaceReservation w) →
    (s'.vif w).chanctxConf = (s.vif w).chanctxConf

theorem ChanWf.swapIn (h : ChanWf H s) (hc : c ∈ s.chanctxList)
    (hassigned : (s.ctx c).assignedVifs = []) : Swapped H c s (swapIn E c s) := by
  have hl (w : VifId) : w ∈ (s.ctx c).reservedVifs ↔ (s.vif w).reservedChanctx = some c :=
    h.lists.reserved c w
  rw [Mac80211.swapIn]
  have h₁ := points_foldl E c (s.ctx c).reservedVifs s (h.lists.reserved_nodup c) fun v hv =>
    h.lists.reserver v c ((hl v).1 hv)
  generalize List.foldl (pointToNew E c) s (s.ctx c).reservedVifs = s₁ at h₁ ⊢
  have h₂ : SameLinks H s₁ (recalcChanctxChantype E s₁ c) := .recalcChanctxChantype s₁ c
  generalize recalcChanctxChantype E s₁ c = s₂ at h₂ ⊢
  have hl₂ : (s₂.ctx c).reservedVifs = (s.ctx c).reservedVifs := by rw [h₂.reservedVifs, h₁.ctx]
  have hr₂ (w : VifId) : (s₂.vif w).reservedChanctx = (s.vif w).reservedChanctx :=
    (h₂.reservedChanctx w).trans (h₁.reservedChanctx w)
  have hconf₂ (w : VifId) (hw : H.iftype w ≠ .apVlan) :
      (s₂.vif w).chanctxConf = some c ↔ (s.vif w).reservedChanctx = some c ∧ s.HasInPlaceReservation w := by
    rw [h₂.chanctxConf w hw]
    constructor
    · intro hconf
      by_contra hnot
      rw [h₁.others w hw fun hP => hnot ⟨(hl w).1 hP.1, hP.2⟩] at hconf
      have hmem := (h.lists.assigned c w).2 ⟨hw, hconf⟩
      rw [hassigned] at hmem
      exact not_mem_nil hmem
    · exact fun hP => h₁.pointed w hw ⟨(hl w).2 hP.1, hP.2⟩
  have h₃ := moved_foldl (s₂.ctx c).reservedVifs _ s₂ ((h.lists.points h₁).congr h₂)
    (by rw [h₂.chanctxList, h₁.chanctxList]; exact hc) (by rw [hl₂]; exact h.lists.reserved_nodup c)
    fun v hv => by rw [hl₂, hl] at hv; rw [hr₂]; exact hv
  generalize List.foldl (moveToNew c) s₂ (s₂.ctx c).reservedVifs = s₃ at h₃ ⊢
  have hmoved (w : VifId) : w ∈ (s₂.ctx c).reservedVifs ∧ (s₂.vif w).chanctxConf = some c ↔
      (s.vif w).reservedChanctx = some c ∧ s.HasInPlaceReservation w := by
    rw [hl₂, hl]
    exact ⟨fun hw => (hconf₂ w (h.lists.reserver w c hw.1)).1 hw.2,
      fun hw => ⟨hw.1, (hconf₂ w (h.lists.reserver w c hw.1)).2 hw⟩⟩
  have hr₃ (w : VifId) : (s₃.vif w).reservedChanctx =
      if (s.vif w).reservedChanctx = some c ∧ s.HasInPlaceReservation w then none
      else (s.vif w).reservedChanctx := by
    rw [h₃.reservedChanctx, hr₂]
    simp only [hmoved w]
  have hconf₃ (w : VifId) (hw : H.iftype w ≠ .apVlan)
      (hnot : ¬((s.vif w).reservedChanctx = some c ∧ s.HasInPlaceReservation w)) :
      (s₃.vif w).chanctxConf = (s.vif w).chanctxConf := by
    rw [h₃.chanctxConf, h₂.chanctxConf w hw]
    exact h₁.others w hw fun hP => hnot ⟨(hl w).1 hP.1, hP.2⟩
  have harrived₃ (w : VifId) (hr : (s.vif w).reservedChanctx = some c) (hp : s.HasInPlaceReservation w) :
      (s₃.vif w).chanctxConf = some c :=
    (h₃.chanctxConf w).trans ((hconf₂ w (h.lists.reserver w c hr)).2 ⟨hr, hp⟩)
  have hlist₃ : s₃.chanctxList = s.chanctxList :=
    h₃.chanctxList.trans (h₂.chanctxList.trans h₁.chanctxList)
  have hstate₃ (d : CtxId) : (s₃.ctx d).replaceState = (s.ctx d).replaceState := by
    rw [h₃.replaceState, h₂.replaceState, h₁.ctx]
  have hctx₃ (d : CtxId) : (s₃.ctx d).replaceCtx = (s.ctx d).replaceCtx := by
    rw [h₃.replaceCtx, h₂.replaceCtx, h₁.ctx]
  refine ⟨⟨h₃.lists.congr_fun fun w hw => ?_, h.links.congr hlist₃ hstate₃ hctx₃, fun o ho hs => ?_⟩,
    hlist₃, hstate₃, hctx₃,
    fun w => (h₃.reservedReady w).trans ((h₂.reservedReady w).trans (h₁.reservedReady w)), hr₃, harrived₃,
    hconf₃⟩
  · simp only [hmoved w]
    split
    · rename_i hP
      exact harrived₃ w hP.1 hP.2
    · rename_i hnot
      exact hconf₃ w hw hnot
  · refine eq_nil_iff_forall_not_mem.2 fun w hw => ?_
    have hw := (h₃.lists.reserved o w).1 hw
    rw [hr₃] at hw
    split at hw
    · cases hw
    · exact h.reserved_ne_willBeReplaced hw ((hstate₃ o).symm.trans hs)

/-! ### Deferred reservations -/

theorem vifUseReservedReassign_replacesOther (hready : (s.vif v).reservedReady = true)
    (hr : (s.vif v).reservedChanctx = some c) (hstate : (s.ctx c).replaceState = .replacesOther) :
    vifUseReservedReassign E s v = (-EINVAL, s) := by
  rw [vifUseReservedReassign, hready, hr]
  cases (s.vif v).chanctxConf with
  | none => rfl
  | some o => simp [hstate]

theorem vifUseReservedAssign_replacesOther (hready : (s.vif v).reservedReady = true)
    (hr : (s.vif v).reservedChanctx = some c) (hstate : (s.ctx c).replaceState = .replacesOther) :
    vifUseReservedAssign E s v = (-EINVAL, s) := by
  rw [vifUseReservedAssign, hready, hr]
  cases (s.vif v).chanctxConf with
  | none => simp [hstate]
  | some o => rfl

theorem useDeferred_eq (hr : (s.vif v).reservedChanctx = some c) (hplace : ¬s.HasInPlaceReservation v)
    (hstate : (s.ctx c).replaceState = .replacesOther) : useDeferred E c s v =
      if (s.vif v).reservedReady then (vifUnreserveChanctx s v).2 else s := by
  rw [useDeferred, if_neg hplace, hr, if_neg (not_not.2 rfl)]
  cases hready : (s.vif v).reservedReady with
  | false => rfl
  | true =>
    have herr : -EINVAL ≠ 0 := by decide
    rw [vifUseReservedReassign_replacesOther hready hr hstate,
      vifUseReservedAssign_replacesOther hready hr hstate, ite_self]
    simp [herr]

/-- The context has an interface, or keeps a reservation when the ready ones of `l` are given up. -/
def CtxStays (s : ChanLocal) (c : CtxId) (l : List VifId) : Prop :=
  (s.ctx c).assignedVifs ≠ [] ∨
    ∃ w, (s.vif w).reservedChanctx = some c ∧ (w ∉ l ∨ (s.vif w).reservedReady = false)

theorem clearReservation_ready (s : ChanLocal) (v w : VifId) :
    ((s.clearReservation v).vif w).reservedReady = (s.vif w).reservedReady := by
  rw [clearReservation_vif]
  split
  · subst w; rfl
  · rfl

/-- Whether a context stays does not depend on a reservation that is ready to be given up. -/
theorem ctxStays_clearReservation (hready : (s.vif v).reservedReady = true) :
    CtxStays (s.clearReservation v) c l ↔ CtxStays s c (v :: l) := by
  refine or_congr Iff.rfl (exists_congr fun w => ?_)
  rw [clearReservation_ready, clearReservation_vif, mem_cons]
  by_cases hwv : w = v
  · subst w
    simp [hready]
  · simp [hwv]

/-- The ready reservations of `l` are given up, and the context with the last one. -/
structure Settled (H : ChanHw) (c : CtxId) (l : List VifId) (s s' : ChanLocal) : Prop where
  wf : ChanWf H s'
  assignedVifs : ∀ d, (s'.ctx d).assignedVifs = (s.ctx d).assignedVifs
  chanctxConf : ∀ w, (s'.vif w).chanctxConf = (s.vif w).chanctxConf
  reservedReady : ∀ w, (s'.vif w).reservedReady = (s.vif w).reservedReady
  reservedChanctx : ∀ w, (s'.vif w).reservedChanctx =
    if w ∈ l ∧ (s.vif w).reservedReady = true then none else (s.vif w).reservedChanctx
  stays : CtxStays s c l → s'.chanctxList = s.chanctxList ∧
    (∀ d, (s'.ctx d).replaceState = (s.ctx d).replaceState) ∧
    ∀ d, (s'.ctx d).replaceCtx = (s.ctx d).replaceCtx
  givenUp : ¬CtxStays s c l → s'.chanctxList = s.chanctxList.erase c ∧ ∃ o, s.Replaces c o ∧
    (∀ d, (s'.ctx d).replaceState = if d = o then .replaceNone else (s.ctx d).replaceState) ∧
    ∀ d, d ≠ o → (s'.ctx d).replaceCtx = (s.ctx d).replaceCtx

theorem settled_foldl : ∀ (l : List VifId) (s : ChanLocal), ChanWf H s →
    (s.ctx c).replaceState = .replacesOther → ¬s.Unused c → l.Nodup →
    (∀ v ∈ l, (s.vif v).reservedChanctx = some c ∧ ¬s.HasInPlaceReservation v) →
    Settled H c l s (l.foldl (useDeferred E c) s) := by
  intro l
  induction l with
  | nil =>
    intro s h _ hused _ _
    refine ⟨h, fun _ => rfl, fun _ => rfl, fun _ => rfl,
      fun w => (if_neg fun hw => not_mem_nil hw.1).symm, fun _ => ⟨rfl, fun _ => rfl, fun _ => rfl⟩,
      fun hstays => ?_⟩
    obtain ⟨hassigned, hreserved⟩ := not_or.1 hstays
    refine absurd ⟨not_not.1 hassigned, eq_nil_iff_forall_not_mem.2 fun w hw => ?_⟩ hused
    exact hreserved ⟨w, (h.lists.reserved c w).1 hw, .inl not_mem_nil⟩
  | cons v l ih =>
    intro s h hstate hused hnodup hl
    obtain ⟨hvl, hnodup⟩ := nodup_cons.1 hnodup
    obtain ⟨hv, hplace⟩ := hl v mem_cons_self
    rw [foldl_cons, useDeferred_eq hv hplace hstate]
    cases hready : (s.vif v).reservedReady with
    | false =>
      have hs := ih s h hstate hused hnodup fun w hw => hl w (mem_cons_of_mem v hw)
      have hstays : CtxStays s c l := .inr ⟨v, hv, .inl hvl⟩
      rw [if_neg Bool.false_ne_true]
      refine ⟨hs.wf, hs.assignedVifs, hs.chanctxConf, hs.reservedReady, fun w => ?_,
        fun _ => hs.stays hstays, fun hnot => absurd (.inr ⟨v, hv, .inr hready⟩) hnot⟩
      rw [hs.reservedChanctx]
      by_cases hwv : w = v
      · subst w
        simp [hready]
      · simp [hwv]
    | true =>
      rw [if_pos rfl]
      obtain ⟨hu, hs⟩ | ⟨-, hnone, -⟩ | ⟨hu, o, -, hr, hs⟩ := h.unreserve_cases hv
      · rw [hs]
        have hother {w : VifId} (hw : w ∈ l) : ((s.clearReservation v).vif w) = s.vif w := by
          have hwv : w ≠ v := fun hwv => hvl (hwv ▸ hw)
          rw [clearReservation_vif, if_neg hwv]
        have hs₁ := ih (s.clearReservation v) (h.clearReservation v) hstate hu hnodup fun w hw => by
          obtain ⟨hwr, hwp⟩ := hl w (mem_cons_of_mem v hw)
          have hcongr : (s.clearReservation v).HasInPlaceReservation w ↔ s.HasInPlaceReservation w :=
            hasInPlaceReservation_congr (by rw [hother hw]) (by rw [hother hw]) fun _ => rfl
          exact ⟨by rw [hother hw]; exact hwr, mt hcongr.1 hwp⟩
        refine ⟨hs₁.wf, hs₁.assignedVifs, fun w => (hs₁.chanctxConf w).trans ?_,
          fun w => (hs₁.reservedReady w).trans (clearReservation_ready s v w), fun w => ?_,
          fun hstays => hs₁.stays ((ctxStays_clearReservation hready).2 hstays), fun hnot => ?_⟩
        · rw [clearReservation_vif]
          split
          · subst w; rfl
          · rfl
        · rw [hs₁.reservedChanctx, clearReservation_ready, clearReservation_vif]
          by_cases hwv : w = v
          · subst w
            simp [hready]
          · simp [hwv]
        · obtain ⟨hlist, o, hr, hctx⟩ := hs₁.givenUp fun hstays =>
            hnot ((ctxStays_clearReservation hready).1 hstays)
          exact ⟨hlist, o, ⟨hr.newState, hr.newCtx, hr.oldState, hr.oldCtx⟩, hctx⟩
      · rw [hstate] at hnone
        cases hnone
      · -- it was the last one
        obtain rfl : l = [] := eq_nil_iff_forall_not_mem.2 fun w hw => by
          have hwv : w ≠ v := fun hwv => hvl (hwv ▸ hw)
          have hmem := (h.lists.reserved c w).2 (hl w (mem_cons_of_mem v hw)).1
          have hmem := ((h.lists.reserved_nodup c).mem_erase_iff.2 ⟨hwv, hmem⟩)
          have hnil : (s.ctx c).reservedVifs.erase v = [] := hu.2
          rw [hnil] at hmem
          exact not_mem_nil hmem
        have hnot : ¬CtxStays s c [v] := by
          rintro (hassigned | ⟨w, hw, hw'⟩)
          · exact hassigned hu.1
          · have hwv : w ≠ v := by
              rintro rfl
              rcases hw' with hw' | hw'
              · exact hw' (mem_singleton_self w)
              · rw [hready] at hw'
                cases hw'
            have hmem := (h.lists.reserved_nodup c).mem_erase_iff.2 ⟨hwv, (h.lists.reserved c w).2 hw⟩
            have hnil : (s.ctx c).reservedVifs.erase v = [] := hu.2
            rw [hnil] at hmem
            exact not_mem_nil hmem
        have hwf := h.unreserve v
        rw [foldl_nil]
        refine ⟨hwf, fun d => vifUnreserveChanctx_assigned s v d, fun w => vifUnreserveChanctx_conf s v w,
          fun w => vifUnreserveChanctx_ready s v w, fun w => ?_, fun hstays => absurd hstays hnot,
          fun _ => ?_⟩
        · rw [hs, delCtx_vif, unlink_vif, clearReservation_vif]
          by_cases hwv : w = v
          · subst w
            simp [hready]
          · simp [hwv]
        · rw [hs]
          refine ⟨rfl, o, ⟨hr.newState, hr.newCtx, hr.oldState, hr.oldCtx⟩, fun d => ?_, fun d hd => ?_⟩
          · rw [delCtx_ctx, unlink_ctx]
            split
            · rfl
            · rfl
          · rw [delCtx_ctx, unlink_ctx, if_neg hd]
            rfl

/-! ### A turn -/

/-- A context at its turn: in-place reservations are done, other ready ones given up; it stays if it
has an interface or is reserved. -/
structure TakenOver (H : ChanHw) (c : CtxId) (s s' : ChanLocal) : Prop where
  wf : ChanWf H s'
  arrived : ∀ w, (s.vif w).reservedChanctx = some c → s.HasInPlaceReservation w →
    (s'.vif w).chanctxConf = some c
  chanctxConf : ∀ w, H.iftype w ≠ .apVlan →
    ¬((s.vif w).reservedChanctx = some c ∧ s.HasInPlaceReservation w) →
    (s'.vif w).chanctxConf = (s.vif w).chanctxConf
  reservedReady : ∀ w, (s'.vif w).reservedReady = (s.vif w).reservedReady
  reservedChanctx : ∀ w, (s'.vif w).reservedChanctx = (s.vif w).reservedChanctx ∨
    (s.vif w).reservedChanctx = some c ∧ (s'.vif w).reservedChanctx = none
  waiting : ∀ w, (s.vif w).reservedChanctx = some c → ¬s.HasInPlaceReservation w →
    (s.vif w).reservedReady = false → (s'.vif w).reservedChanctx = some c
  stays : (∃ w, (s.vif w).reservedChanctx = some c ∧
      (s.HasInPlaceReservation w ∨ (s.vif w).reservedReady = false)) →
    s'.chanctxList = s.chanctxList ∧ (∀ d, (s'.ctx d).replaceState = (s.ctx d).replaceState) ∧
      ∀ d, (s'.ctx d).replaceCtx = (s.ctx d).replaceCtx
  givenUp : (∀ w, (s.vif w).reservedChanctx = some c →
      ¬s.HasInPlaceReservation w ∧ (s.vif w).reservedReady = true) →
    s'.chanctxList = s.chanctxList.erase c ∧ ∃ o, s.Replaces c o ∧
      (∀ d, (s'.ctx d).replaceState = if d = o then .replaceNone else (s.ctx d).replaceState) ∧
      ∀ d, d ≠ o → (s'.ctx d).replaceCtx = (s.ctx d).replaceCtx

namespace Swapped

theorem reserved_of_reserved (h : Swapped H c s s') (hw : (s'.vif w).reservedChanctx = some d) :
    (s.vif w).reservedChanctx = some d ∧
      ¬((s.vif w).reservedChanctx = some c ∧ s.HasInPlaceReservation w) := by
  rw [h.reservedChanctx] at hw
  split at hw
  · cases hw
  · rename_i hnot
    exact ⟨hw, hnot⟩

theorem not_hasInPlaceReservation (h : Swapped H c s s') (hs : ChanWf H s)
    (hw : (s'.vif w).reservedChanctx = some c) : ¬s'.HasInPlaceReservation w := by
  obtain ⟨hr, hnot⟩ := h.reserved_of_reserved hw
  have hcongr : s'.HasInPlaceReservation w ↔ s.HasInPlaceReservation w :=
    hasInPlaceReservation_congr (h.chanctxConf w (hs.lists.reserver w c hr) hnot) (hw.trans hr.symm)
      h.replaceState
  exact fun hp => hnot ⟨hr, hcongr.1 hp⟩

/-- The interfaces of the context are those that had reserved it in place. -/
theorem mem_assignedVifs (h : Swapped H c s s') (hs : ChanWf H s)
    (hassigned : (s.ctx c).assignedVifs = []) : w ∈ (s'.ctx c).assignedVifs ↔
      (s.vif w).reservedChanctx = some c ∧ s.HasInPlaceReservation w := by
  rw [h.wf.lists.assigned]
  constructor
  · rintro ⟨hw, hconf⟩
    by_contra hnot
    rw [h.chanctxConf w hw hnot] at hconf
    have hmem := (hs.lists.assigned c w).2 ⟨hw, hconf⟩
    rw [hassigned] at hmem
    exact not_mem_nil hmem
  · exact fun hP => ⟨hs.lists.reserver w c hP.1, h.arrived w hP.1 hP.2⟩

theorem mem_reservedVifs (h : Swapped H c s s') : w ∈ (s'.ctx c).reservedVifs ↔
    (s.vif w).reservedChanctx = some c ∧ ¬s.HasInPlaceReservation w := by
  rw [h.wf.lists.reserved, h.reservedChanctx]
  by_cases hp : s.HasInPlaceReservation w <;> simp [hp]

theorem stays_iff (h : Swapped H c s s') (hs : ChanWf H s) (hassigned : (s.ctx c).assignedVifs = []) :
    CtxStays s' c (s'.ctx c).reservedVifs ↔ ∃ w, (s.vif w).reservedChanctx = some c ∧
      (s.HasInPlaceReservation w ∨ (s.vif w).reservedReady = false) := by
  constructor
  · rintro (hne | ⟨w, hw, hw' | hw'⟩)
    · obtain ⟨w, hw⟩ := exists_mem_of_ne_nil _ hne
      obtain ⟨hr, hp⟩ := (h.mem_assignedVifs hs hassigned).1 hw
      exact ⟨w, hr, .inl hp⟩
    · exact absurd ((h.wf.lists.reserved c w).2 hw) hw'
    · exact ⟨w, (h.reserved_of_reserved hw).1, .inr ((h.reservedReady w).symm.trans hw')⟩
  · rintro ⟨w, hr, hw⟩
    by_cases hp : s.HasInPlaceReservation w
    · exact .inl (ne_nil_of_mem ((h.mem_assignedVifs hs hassigned).2 ⟨hr, hp⟩))
    · have hmem := h.mem_reservedVifs.2 ⟨hr, hp⟩
      exact .inr ⟨w, (h.wf.lists.reserved c w).1 hmem,
        .inr ((h.reservedReady w).trans (hw.resolve_left hp))⟩

end Swapped

theorem ChanWf.takeOver (h : ChanWf H s) (hc : c ∈ s.chanctxList)
    (hstate : (s.ctx c).replaceState = .replacesOther) (hassigned : (s.ctx c).assignedVifs = [])
    (hused : ¬s.Unused c) : TakenOver H c s (takeOver E c s) := by
  rw [Mac80211.takeOver]
  have h₃ := h.swapIn (E := E) hc hassigned
  generalize Mac80211.swapIn E c s = s₃ at h₃ ⊢
  have hused₃ : ¬s₃.Unused c := by
    rintro ⟨ha, hr⟩
    refine hused ⟨hassigned, eq_nil_iff_forall_not_mem.2 fun w hw => ?_⟩
    have hw := (h.lists.reserved c w).1 hw
    by_cases hp : s.HasInPlaceReservation w
    · have hmem := (h₃.mem_assignedVifs h hassigned).2 ⟨hw, hp⟩
      rw [ha] at hmem
      exact not_mem_nil hmem
    · have hmem := h₃.mem_reservedVifs.2 ⟨hw, hp⟩
      rw [hr] at hmem
      exact not_mem_nil hmem
  have h₄ := settled_foldl (E := E) (s₃.ctx c).reservedVifs s₃ h₃.wf ((h₃.replaceState c).trans hstate)
    hused₃ (h₃.wf.lists.reserved_nodup c) fun v hv =>
      have hv := (h₃.wf.lists.reserved c v).1 hv
      ⟨hv, h₃.not_hasInPlaceReservation h hv⟩
  generalize List.foldl (useDeferred E c) s₃ (s₃.ctx c).reservedVifs = s₄ at h₄ ⊢
  have hstays := h₃.stays_iff h hassigned
  refine
    { wf := h₄.wf
      arrived := fun w hr hp => (h₄.chanctxConf w).trans (h₃.arrived w hr hp)
      chanctxConf := fun w hw hnot => (h₄.chanctxConf w).trans (h₃.chanctxConf w hw hnot)
      reservedReady := fun w => (h₄.reservedReady w).trans (h₃.reservedReady w)
      reservedChanctx := fun w => ?_
      waiting := fun w hr hp hready => ?_
      stays := fun hw => ?_
      givenUp := fun hw => ?_ }
  · rw [h₄.reservedChanctx]
    split
    · rename_i hw
      exact .inr ⟨(h₃.mem_reservedVifs.1 hw.1).1, rfl⟩
    · rw [h₃.reservedChanctx]
      split
      · rename_i hP
        exact .inr ⟨hP.1, rfl⟩
      · exact .inl rfl
  · have hnot : ¬(w ∈ (s₃.ctx c).reservedVifs ∧ (s₃.vif w).reservedReady = true) := fun hw => by
      rw [h₃.reservedReady, hready] at hw
      cases hw.2
    rw [h₄.reservedChanctx, if_neg hnot, h₃.reservedChanctx, if_neg fun hP => hp hP.2]
    exact hr
  · obtain ⟨hlist, hstate₄, hctx₄⟩ := h₄.stays (hstays.2 hw)
    exact ⟨hlist.trans h₃.chanctxList, fun d => (hstate₄ d).trans (h₃.replaceState d),
      fun d => (hctx₄ d).trans (h₃.replaceCtx d)⟩
  · obtain ⟨hlist, o, hr, hstate₄, hctx₄⟩ := h₄.givenUp fun hs => by
      obtain ⟨w, hr, hw'⟩ := hstays.1 hs
      obtain ⟨hp, hready⟩ := hw w hr
      rcases hw' with hp' | hready'
      · exact hp hp'
      · rw [hready] at hready'
        cases hready'
    refine ⟨by rw [hlist, h₃.chanctxList], o, ⟨(h₃.replaceState c).symm.trans hr.newState,
      (h₃.replaceCtx c).symm.trans hr.newCtx, (h₃.replaceState o).symm.trans hr.oldState,
      (h₃.replaceCtx o).symm.trans hr.oldCtx⟩, fun d => ?_, fun d hd => ?_⟩
    · rw [hstate₄, h₃.replaceState]
    · rw [hctx₄ d hd, h₃.replaceCtx]

end Mac80211
