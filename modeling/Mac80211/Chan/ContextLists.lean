import Mac80211.Chan.Context

/-!
# The lists of the channel contexts

What the lists and links say, and what the list operations do to it. While contexts are swapped the
pointers of the interfaces run ahead of the lists, so `ChanLists` has the assignment as a parameter.

## Main definitions

* `ChanLists`, `ChanLinks`
-/

namespace Mac80211

open List Function

variable {H : ChanHw} {E : ChanEnv H} {f g : VifId → Option CtxId} {s s' s'' : ChanLocal} {c d : CtxId}
  {v w : VifId}

/-! ### What each write does -/

variable {n o : CtxId}

namespace ChanLocal

theorem modCtx_ctx (x : Chanctx → Chanctx) (d : CtxId) :
    (s.modCtx c x).ctx d = if d = c then x (s.ctx c) else s.ctx d :=
  update_apply s.ctx c (x (s.ctx c)) d

@[simp] theorem modVif_ctx (x : ChanVif → ChanVif) : (s.modVif v x).ctx = s.ctx := rfl

theorem modVif_vif (x : ChanVif → ChanVif) (w : VifId) :
    (s.modVif v x).vif w = if w = v then x (s.vif v) else s.vif w :=
  update_apply s.vif v (x (s.vif v)) w

theorem clearReservation_vif (w : VifId) : (s.clearReservation v).vif w =
      if w = v then { s.vif v with reservedChanctx := none } else s.vif w :=
  modVif_vif _ w

@[simp] theorem clearReservation_chanctxList :
    (s.clearReservation v).chanctxList = s.chanctxList := rfl

@[simp] theorem clearReservation_ctx : (s.clearReservation v).ctx c =
      { s.ctx c with reservedVifs := (s.ctx c).reservedVifs.erase v } := rfl

@[simp] theorem delAssigned_ctx :
    (s.delAssigned v).ctx c = { s.ctx c with assignedVifs := (s.ctx c).assignedVifs.erase v } := rfl

theorem addAssigned_ctx (d : CtxId) : (s.addAssigned v c).ctx d =
      if d = c then { s.ctx c with assignedVifs := v :: (s.ctx c).assignedVifs } else s.ctx d :=
  modCtx_ctx _ d

theorem reserve_ctx (chandef : ChanDef) (d : CtxId) : (reserve s v c chandef).ctx d =
      if d = c then { s.ctx c with reservedVifs := v :: (s.ctx c).reservedVifs } else s.ctx d := by
  show (s.addReserved v c).ctx d = _
  exact modCtx_ctx _ d

theorem reserve_vif (chandef : ChanDef) (w : VifId) : (reserve s v c chandef).vif w =
      if w = v then { s.vif v with
        reservedChanctx := some c
        reservedChandef := chandef
        reservedReady := false } else s.vif w :=
  modVif_vif _ w

@[simp] theorem setConf_ctx (conf : Option CtxId) : (s.setConf v conf).ctx = s.ctx := rfl

theorem setConf_vif (conf : Option CtxId) (w : VifId) :
    (s.setConf v conf).vif w = if w = v then { s.vif v with chanctxConf := conf } else s.vif w :=
  modVif_vif _ w

@[simp] theorem delCtx_ctx : (s.delCtx c).ctx = s.ctx := rfl

@[simp] theorem delCtx_vif : (s.delCtx c).vif = s.vif := rfl

@[simp] theorem delCtx_chanctxList : (s.delCtx c).chanctxList = s.chanctxList.erase c := rfl

theorem unlink_ctx (d : CtxId) : (s.unlink c).ctx d =
      if d = c then { s.ctx c with
        replaceCtx := none
        replaceState := .replaceNone } else s.ctx d :=
  modCtx_ctx _ d

@[simp] theorem unlink_assignedVifs (d : CtxId) :
    ((s.unlink c).ctx d).assignedVifs = (s.ctx d).assignedVifs := by
  rw [unlink_ctx]
  split
  · subst d; rfl
  · rfl

@[simp] theorem unlink_reservedVifs (d : CtxId) :
    ((s.unlink c).ctx d).reservedVifs = (s.ctx d).reservedVifs := by
  rw [unlink_ctx]
  split
  · subst d; rfl
  · rfl

@[simp] theorem unlink_vif : (s.unlink c).vif = s.vif := rfl

@[simp] theorem unlink_chanctxList : (s.unlink c).chanctxList = s.chanctxList := rfl

theorem allocChanctx_ctx (chandef : ChanDef) (mode : ChanctxMode) (d : CtxId) :
    (s.allocChanctx chandef mode).ctx d =
      if d = s.nextCtx then { mode, confDef := chandef } else s.ctx d :=
  update_apply s.ctx s.nextCtx _ d

theorem allocReplacement_ctx (hc : c ≠ s.nextCtx) (chandef : ChanDef) (mode : ChanctxMode) (d : CtxId) :
    (allocReplacement s c chandef mode).ctx d =
      if d = c then { s.ctx c with
        replaceCtx := some s.nextCtx
        replaceState := .willBeReplaced }
      else if d = s.nextCtx then
        { mode, confDef := chandef, replaceCtx := some c, replaceState := .replacesOther }
      else s.ctx d := by
  rw [allocReplacement, modCtx_ctx, modCtx_ctx, modCtx_ctx, allocChanctx_ctx, allocChanctx_ctx,
    allocChanctx_ctx, if_pos rfl, if_neg hc, if_neg hc]
  split
  · rfl
  · split
    · rfl
    · rfl

/-- No interface is on a list of the context. -/
def Unused (s : ChanLocal) (c : CtxId) : Prop :=
  (s.ctx c).assignedVifs = [] ∧ (s.ctx c).reservedVifs = []

theorem refcount_eq_zero : s.refcount c = 0 ↔ s.Unused c := by
  rw [refcount, Nat.add_eq_zero_iff, length_eq_zero_iff, length_eq_zero_iff]
  rfl

/-- `n` replaces `o`, and both know. -/
structure Replaces (s : ChanLocal) (n o : CtxId) : Prop where
  newState : (s.ctx n).replaceState = .replacesOther
  newCtx : (s.ctx n).replaceCtx = some o
  oldState : (s.ctx o).replaceState = .willBeReplaced
  oldCtx : (s.ctx o).replaceCtx = some n

theorem Replaces.ne (h : s.Replaces n o) : n ≠ o := by
  rintro rfl
  have := h.newState.symm.trans h.oldState
  cases this

theorem Replaces.delCtx (h : s.Replaces n o) (c : CtxId) : (s.delCtx c).Replaces n o :=
  ⟨h.newState, h.newCtx, h.oldState, h.oldCtx⟩

theorem Replaces.unlink (h : s.Replaces n o) (hn : n ≠ c) (ho : o ≠ c) :
    (s.unlink c).Replaces n o := by
  constructor <;> rw [unlink_ctx]
  · rw [if_neg hn, h.newState]
  · rw [if_neg hn, h.newCtx]
  · rw [if_neg ho, h.oldState]
  · rw [if_neg ho, h.oldCtx]

end ChanLocal

open ChanLocal

/-! ### The same lists, links and pointers -/

/-- The definitions may differ, and what VLAN interfaces point to. -/
structure SameLinks (H : ChanHw) (s s' : ChanLocal) : Prop where
  chanctxList : s'.chanctxList = s.chanctxList
  nextCtx : s'.nextCtx = s.nextCtx
  assignedVifs : ∀ c, (s'.ctx c).assignedVifs = (s.ctx c).assignedVifs
  reservedVifs : ∀ c, (s'.ctx c).reservedVifs = (s.ctx c).reservedVifs
  replaceState : ∀ c, (s'.ctx c).replaceState = (s.ctx c).replaceState
  replaceCtx : ∀ c, (s'.ctx c).replaceCtx = (s.ctx c).replaceCtx
  reservedChanctx : ∀ v, (s'.vif v).reservedChanctx = (s.vif v).reservedChanctx
  reservedReady : ∀ v, (s'.vif v).reservedReady = (s.vif v).reservedReady
  chanctxConf : ∀ v, H.iftype v ≠ .apVlan → (s'.vif v).chanctxConf = (s.vif v).chanctxConf

namespace SameLinks

theorem refl (s : ChanLocal) : SameLinks H s s :=
  ⟨rfl, rfl, fun _ => rfl, fun _ => rfl, fun _ => rfl, fun _ => rfl, fun _ => rfl, fun _ => rfl,
    fun _ _ => rfl⟩

theorem trans (h : SameLinks H s s') (h' : SameLinks H s' s'') : SameLinks H s s'' where
  chanctxList := h'.chanctxList.trans h.chanctxList
  nextCtx := h'.nextCtx.trans h.nextCtx
  assignedVifs c := (h'.assignedVifs c).trans (h.assignedVifs c)
  reservedVifs c := (h'.reservedVifs c).trans (h.reservedVifs c)
  replaceState c := (h'.replaceState c).trans (h.replaceState c)
  replaceCtx c := (h'.replaceCtx c).trans (h.replaceCtx c)
  reservedChanctx v := (h'.reservedChanctx v).trans (h.reservedChanctx v)
  reservedReady v := (h'.reservedReady v).trans (h.reservedReady v)
  chanctxConf v hv := (h'.chanctxConf v hv).trans (h.chanctxConf v hv)

theorem changeChanctx (s : ChanLocal) (c : CtxId) (chandef : ChanDef) :
    SameLinks H s (s.changeChanctx c chandef) := by
  rw [ChanLocal.changeChanctx]
  split
  · exact refl s
  · have hctx (d : CtxId) := modCtx_ctx (s := s) (c := c) (fun x => { x with confDef := chandef }) d
    constructor <;> intros <;> first | rfl | (rw [hctx]; split <;> simp [*])

theorem recalcChanctxChantype (s : ChanLocal) (c : CtxId) :
    SameLinks H s (recalcChanctxChantype E s c) := by
  rw [Mac80211.recalcChanctxChantype]
  split
  · exact refl s
  · split
    · exact refl s
    · exact changeChanctx s c _

theorem vifUpdateChandef (s : ChanLocal) (v : VifId) (chandef : ChanDef) :
    SameLinks H s (vifUpdateChandef E s v chandef) := by
  have hvif (w : VifId) : (Mac80211.vifUpdateChandef E s v chandef).vif w = s.vif w ∨
      (Mac80211.vifUpdateChandef E s v chandef).vif w = { s.vif w with chandef } := by
    rw [Mac80211.vifUpdateChandef]
    dsimp only
    split
    · exact .inr rfl
    · exact .inl rfl
  constructor <;> intros <;> first | rfl | (rename_i w; rcases hvif w with h | h <;> rw [h]) | skip
  rename_i w _
  rcases hvif w with h | h <;> rw [h]

theorem vifCopyChanctxToVlans (s : ChanLocal) (v : VifId) :
    SameLinks H s (vifCopyChanctxToVlans E s v) := by
  have hvif (w : VifId) : (Mac80211.vifCopyChanctxToVlans E s v).vif w = s.vif w ∨
      H.iftype w = .apVlan ∧ (Mac80211.vifCopyChanctxToVlans E s v).vif w =
        { s.vif w with chanctxConf := (s.vif v).chanctxConf } := by
    rw [Mac80211.vifCopyChanctxToVlans]
    dsimp only
    split
    · rename_i hw
      exact .inr ⟨E.vlans_type v w hw, rfl⟩
    · exact .inl rfl
  constructor <;> intros <;>
    first | rfl | (rename_i w; rcases hvif w with h | ⟨-, h⟩ <;> rw [h]) | skip
  rename_i w hw
  rcases hvif w with h | ⟨hw', -⟩
  · rw [h]
  · exact absurd hw' hw

theorem unused (h : SameLinks H s s') (c : CtxId) : s'.Unused c ↔ s.Unused c := by
  rw [Unused, Unused, h.assignedVifs, h.reservedVifs]

end SameLinks

/-! ### Lists -/

/-- The lists of the contexts: by them, `f v` is the context of interface `v`. -/
structure ChanLists (H : ChanHw) (f : VifId → Option CtxId) (s : ChanLocal) : Prop where
  nodup : s.chanctxList.Nodup
  lt_nextCtx : ∀ c ∈ s.chanctxList, c < s.nextCtx
  /-- VLAN interfaces are on no list. -/
  assigned : ∀ c v, v ∈ (s.ctx c).assignedVifs ↔ H.iftype v ≠ .apVlan ∧ f v = some c
  assigned_nodup : ∀ c, (s.ctx c).assignedVifs.Nodup
  reserved : ∀ c v, v ∈ (s.ctx c).reservedVifs ↔ (s.vif v).reservedChanctx = some c
  reserved_nodup : ∀ c, (s.ctx c).reservedVifs.Nodup
  /-- VLAN interfaces reserve nothing. -/
  reserver : ∀ v c, (s.vif v).reservedChanctx = some c → H.iftype v ≠ .apVlan
  gone : ∀ c, c ∉ s.chanctxList → s.Unused c

namespace ChanLists

theorem congr (h : ChanLists H f s) (hs : SameLinks H s s') : ChanLists H f s' where
  nodup := hs.chanctxList ▸ h.nodup
  lt_nextCtx := hs.chanctxList ▸ hs.nextCtx ▸ h.lt_nextCtx
  assigned c v := by rw [hs.assignedVifs]; exact h.assigned c v
  assigned_nodup c := by rw [hs.assignedVifs]; exact h.assigned_nodup c
  reserved c v := by rw [hs.reservedVifs, hs.reservedChanctx]; exact h.reserved c v
  reserved_nodup c := by rw [hs.reservedVifs]; exact h.reserved_nodup c
  reserver v c := by rw [hs.reservedChanctx]; exact h.reserver v c
  gone c hc := (hs.unused c).2 (h.gone c (hs.chanctxList ▸ hc))

theorem congr_fun (h : ChanLists H f s) (hg : ∀ v, H.iftype v ≠ .apVlan → g v = f v) :
    ChanLists H g s :=
  { h with assigned := fun c v => (h.assigned c v).trans (and_congr_right fun hv => by rw [hg v hv]) }

theorem mem_of_assigned (h : ChanLists H f s) (hv : v ∈ (s.ctx c).assignedVifs) :
    c ∈ s.chanctxList := by
  by_contra hc
  rw [(h.gone c hc).1] at hv
  exact not_mem_nil hv

theorem mem_of_reserved (h : ChanLists H f s) (hv : (s.vif v).reservedChanctx = some c) :
    c ∈ s.chanctxList := by
  by_contra hc
  have hv := (h.reserved c v).2 hv
  rw [(h.gone c hc).2] at hv
  exact not_mem_nil hv

theorem mem_of_assignment (h : ChanLists H f s) (hv : H.iftype v ≠ .apVlan) (hf : f v = some c) :
    c ∈ s.chanctxList :=
  h.mem_of_assigned ((h.assigned c v).2 ⟨hv, hf⟩)

theorem nextCtx_notMem (h : ChanLists H f s) : s.nextCtx ∉ s.chanctxList := fun hc =>
  (h.lt_nextCtx _ hc).ne rfl

theorem clearReservation (h : ChanLists H f s) (v : VifId) : ChanLists H f (s.clearReservation v) where
  nodup := h.nodup
  lt_nextCtx := h.lt_nextCtx
  assigned := h.assigned
  assigned_nodup := h.assigned_nodup
  reserved c w := by
    rw [clearReservation_ctx, clearReservation_vif, (h.reserved_nodup c).mem_erase_iff, h.reserved]
    split
    · simp [*]
    · simp [*]
  reserved_nodup c := (h.reserved_nodup c).erase v
  reserver w c := by
    rw [clearReservation_vif]
    split
    · exact fun hw => by cases hw
    · exact h.reserver w c
  gone c hc := by
    obtain ⟨h1, h2⟩ := h.gone c hc
    exact ⟨h1, by rw [clearReservation_ctx]; simp [h2]⟩

theorem delAssigned (h : ChanLists H f s) (v : VifId) :
    ChanLists H (Function.update f v none) (s.delAssigned v) where
  nodup := h.nodup
  lt_nextCtx := h.lt_nextCtx
  assigned c w := by
    rw [delAssigned_ctx, (h.assigned_nodup c).mem_erase_iff, h.assigned, update_apply]
    split
    · simp [*]
    · simp [*]
  assigned_nodup c := (h.assigned_nodup c).erase v
  reserved := h.reserved
  reserved_nodup := h.reserved_nodup
  reserver := h.reserver
  gone c hc := by
    obtain ⟨h1, h2⟩ := h.gone c hc
    exact ⟨by rw [delAssigned_ctx]; simp [h1], h2⟩

/-- `list_add(&sdata->assigned_chanctx_list, &ctx->assigned_vifs)`, for an interface on no list. -/
theorem addAssigned (h : ChanLists H f s) (hv : H.iftype v ≠ .apVlan) (hf : f v = none)
    (hc : c ∈ s.chanctxList) : ChanLists H (Function.update f v (some c)) (s.addAssigned v c) where
  nodup := h.nodup
  lt_nextCtx := h.lt_nextCtx
  assigned d w := by
    rw [addAssigned_ctx, update_apply]
    by_cases hd : d = c
    · subst d
      rw [if_pos rfl, mem_cons, h.assigned]
      by_cases hw : w = v <;> simp [hw, hv]
    · rw [if_neg hd, h.assigned]
      by_cases hw : w = v
      · subst w
        simp [hf, Ne.symm hd]
      · simp [hw]
  assigned_nodup d := by
    rw [addAssigned_ctx]
    split
    · refine nodup_cons.2 ⟨fun hmem => ?_, h.assigned_nodup c⟩
      have := ((h.assigned c v).1 hmem).2
      rw [hf] at this
      cases this
    · exact h.assigned_nodup d
  reserved d w := by
    rw [addAssigned_ctx]
    split
    · subst d; exact h.reserved c w
    · exact h.reserved d w
  reserved_nodup d := by
    rw [addAssigned_ctx]
    split
    · exact h.reserved_nodup c
    · exact h.reserved_nodup d
  reserver := h.reserver
  gone d hd := by
    have hdc : d ≠ c := fun hdc => hd (hdc ▸ hc)
    rw [Unused, addAssigned_ctx, if_neg hdc]
    exact h.gone d hd

/-- `list_add(&sdata->reserved_chanctx_list, &ctx->reserved_vifs)`, for an interface on no list. -/
theorem addReserved (h : ChanLists H f s) (hv : H.iftype v ≠ .apVlan)
    (hr : (s.vif v).reservedChanctx = none) (hc : c ∈ s.chanctxList) (chandef : ChanDef) :
    ChanLists H f (reserve s v c chandef) where
  nodup := h.nodup
  lt_nextCtx := h.lt_nextCtx
  assigned d w := by
    rw [reserve_ctx]
    split
    · subst d; exact h.assigned c w
    · exact h.assigned d w
  assigned_nodup d := by
    rw [reserve_ctx]
    split
    · exact h.assigned_nodup c
    · exact h.assigned_nodup d
  reserved d w := by
    rw [reserve_ctx, reserve_vif]
    by_cases hd : d = c
    · subst d
      rw [if_pos rfl, mem_cons, h.reserved]
      by_cases hw : w = v <;> simp [hw]
    · rw [if_neg hd, h.reserved]
      by_cases hw : w = v
      · subst w
        simp [hr, Ne.symm hd]
      · simp [hw]
  reserved_nodup d := by
    rw [reserve_ctx]
    split
    · refine nodup_cons.2 ⟨fun hmem => ?_, h.reserved_nodup c⟩
      have := (h.reserved c v).1 hmem
      rw [hr] at this
      cases this
    · exact h.reserved_nodup d
  reserver w d := by
    rw [reserve_vif]
    split
    · subst w; exact fun _ => hv
    · exact h.reserver w d
  gone d hd := by
    have hdc : d ≠ c := fun hdc => hd (hdc ▸ hc)
    rw [Unused, reserve_ctx, if_neg hdc]
    exact h.gone d hd

theorem setConf (h : ChanLists H f s) (v : VifId) (conf : Option CtxId) :
    ChanLists H f (s.setConf v conf) :=
  { h with
    reserved := fun c w => (h.reserved c w).trans (by
      rw [setConf_vif]
      split
      · subst w; rfl
      · rfl)
    reserver := fun w c hw => h.reserver w c (by
      rw [setConf_vif] at hw
      split at hw
      · subst w; exact hw
      · exact hw) }

/-- `rcu_assign_pointer(sdata->vif.chanctx_conf, conf)`, where the lists have been changed already. -/
theorem point {conf : Option CtxId}
    (h : ChanLists H (Function.update (fun w => (s.vif w).chanctxConf) v conf) s) :
    ChanLists H (fun w => ((s.setConf v conf).vif w).chanctxConf) (s.setConf v conf) := by
  refine (h.setConf v conf).congr_fun fun w _ => ?_
  rw [setConf_vif, update_apply]
  split
  · rfl
  · rfl

theorem delCtx (h : ChanLists H f s) (hc : s.Unused c) : ChanLists H f (s.delCtx c) :=
  { h with
    nodup := h.nodup.erase c
    lt_nextCtx := fun d hd => h.lt_nextCtx d (mem_of_mem_erase hd)
    gone := fun d hd => by
      by_cases hdc : d = c
      · subst d; exact hc
      · exact h.gone d fun hmem => hd ((mem_erase_of_ne hdc).2 hmem) }

theorem modLinks (h : ChanLists H f s) (c : CtxId) {x : Chanctx → Chanctx}
    (ha : ∀ y, (x y).assignedVifs = y.assignedVifs) (hr : ∀ y, (x y).reservedVifs = y.reservedVifs) :
    ChanLists H f (s.modCtx c x) := by
  have ha' (d : CtxId) : ((s.modCtx c x).ctx d).assignedVifs = (s.ctx d).assignedVifs := by
    rw [modCtx_ctx]
    split
    · subst d; exact ha _
    · rfl
  have hr' (d : CtxId) : ((s.modCtx c x).ctx d).reservedVifs = (s.ctx d).reservedVifs := by
    rw [modCtx_ctx]
    split
    · subst d; exact hr _
    · rfl
  exact
    { nodup := h.nodup
      lt_nextCtx := h.lt_nextCtx
      assigned := fun d v => by rw [ha']; exact h.assigned d v
      assigned_nodup := fun d => by rw [ha']; exact h.assigned_nodup d
      reserved := fun d v => by rw [hr']; exact h.reserved d v
      reserved_nodup := fun d => by rw [hr']; exact h.reserved_nodup d
      reserver := h.reserver
      gone := fun d hd => by rw [Unused, ha', hr']; exact h.gone d hd }

theorem unlink (h : ChanLists H f s) (c : CtxId) : ChanLists H f (s.unlink c) :=
  h.modLinks c (fun _ => rfl) fun _ => rfl

theorem allocChanctx (h : ChanLists H f s) (chandef : ChanDef) (mode : ChanctxMode) :
    ChanLists H f (s.allocChanctx chandef mode) where
  nodup := nodup_cons.2 ⟨h.nextCtx_notMem, h.nodup⟩
  lt_nextCtx c hc := by
    rcases mem_cons.1 hc with rfl | hc
    · exact Nat.lt_succ_self _
    · exact Nat.lt_succ_of_lt (h.lt_nextCtx c hc)
  assigned c v := by
    rw [allocChanctx_ctx]
    split
    · subst c
      rw [← h.assigned, (h.gone _ h.nextCtx_notMem).1]
    · exact h.assigned c v
  assigned_nodup c := by
    rw [allocChanctx_ctx]
    split
    · exact nodup_nil
    · exact h.assigned_nodup c
  reserved c v := by
    rw [allocChanctx_ctx]
    split
    · subst c
      have := h.reserved s.nextCtx v
      rw [(h.gone _ h.nextCtx_notMem).2] at this
      exact this
    · exact h.reserved c v
  reserved_nodup c := by
    rw [allocChanctx_ctx]
    split
    · exact nodup_nil
    · exact h.reserved_nodup c
  reserver := h.reserver
  gone c hc := by
    have hc : c ≠ s.nextCtx ∧ c ∉ s.chanctxList := not_or.1 fun hmem => hc (mem_cons.2 hmem)
    rw [Unused, allocChanctx_ctx, if_neg hc.1]
    exact h.gone c hc.2

theorem allocReplacement (h : ChanLists H f s) (c : CtxId) (chandef : ChanDef) (mode : ChanctxMode) :
    ChanLists H f (allocReplacement s c chandef mode) := by
  rw [Mac80211.allocReplacement]
  refine modLinks (modLinks (h.allocChanctx chandef mode) _ ?_ ?_) _ ?_ ?_ <;> exact fun _ => rfl

end ChanLists

/-! ### Links -/

/-- The links of the contexts: they are symmetric, and go to contexts that are there. -/
structure ChanLinks (s : ChanLocal) : Prop where
  replacing : ∀ n ∈ s.chanctxList, (s.ctx n).replaceState = .replacesOther →
    ∃ o ∈ s.chanctxList, s.Replaces n o
  replaced : ∀ o ∈ s.chanctxList, (s.ctx o).replaceState = .willBeReplaced →
    ∃ n ∈ s.chanctxList, s.Replaces n o
  plain : ∀ c ∈ s.chanctxList, (s.ctx c).replaceState = .replaceNone → (s.ctx c).replaceCtx = none

namespace ChanLinks

variable {n o a b : CtxId}

theorem congr (h : ChanLinks s) (hlist : s'.chanctxList = s.chanctxList)
    (hstate : ∀ c, (s'.ctx c).replaceState = (s.ctx c).replaceState)
    (hctx : ∀ c, (s'.ctx c).replaceCtx = (s.ctx c).replaceCtx) : ChanLinks s' := by
  have hr {n o : CtxId} (h : s.Replaces n o) : s'.Replaces n o :=
    ⟨(hstate n).trans h.newState, (hctx n).trans h.newCtx, (hstate o).trans h.oldState,
      (hctx o).trans h.oldCtx⟩
  refine ⟨fun n hn hs => ?_, fun o ho hs => ?_, fun c hc hs => ?_⟩
  · rw [hlist] at hn ⊢
    obtain ⟨o, ho, hno⟩ := h.replacing n hn ((hstate n).symm.trans hs)
    exact ⟨o, ho, hr hno⟩
  · rw [hlist] at ho ⊢
    obtain ⟨n, hn, hno⟩ := h.replaced o ho ((hstate o).symm.trans hs)
    exact ⟨n, hn, hr hno⟩
  · rw [hlist] at hc
    exact (hctx c).trans (h.plain c hc ((hstate c).symm.trans hs))

theorem of_sameLinks (h : ChanLinks s) (hs : SameLinks H s s') : ChanLinks s' :=
  h.congr hs.chanctxList hs.replaceState hs.replaceCtx

theorem delCtx (h : ChanLinks s) (hc : (s.ctx c).replaceState = .replaceNone) :
    ChanLinks (s.delCtx c) := by
  have hne {d : CtxId} (hd : (s.ctx d).replaceState ≠ .replaceNone) : d ≠ c := fun hdc => hd (hdc ▸ hc)
  refine ⟨fun n hn hs => ?_, fun o ho hs => ?_, fun d hd => h.plain d (mem_of_mem_erase hd)⟩
  · obtain ⟨o, ho, hno⟩ := h.replacing n (mem_of_mem_erase hn) hs
    exact ⟨o, (mem_erase_of_ne (hne (by rw [hno.oldState]; decide))).2 ho, hno.delCtx c⟩
  · obtain ⟨n, hn, hno⟩ := h.replaced o (mem_of_mem_erase ho) hs
    exact ⟨n, (mem_erase_of_ne (hne (by rw [hno.newState]; decide))).2 hn, hno.delCtx c⟩

theorem unlinkDel (h : ChanLinks s) (hnodup : s.chanctxList.Nodup)
    (hr : s.Replaces a b ∨ s.Replaces b a) : ChanLinks ((s.unlink b).delCtx a) := by
  -- a link between two others is there still
  have hother {n o : CtxId} (hno : s.Replaces n o) (hn : n ≠ a) (hnb : n ≠ b) :
      o ≠ a ∧ ((s.unlink b).delCtx a).Replaces n o := by
    have hoa : o ≠ a := by
      rintro rfl
      rcases hr with hr | hr
      · have := hno.oldState.symm.trans hr.newState
        cases this
      · exact hnb (Option.some.inj (hno.oldCtx.symm.trans hr.oldCtx))
    have hob : o ≠ b := by
      rintro rfl
      rcases hr with hr | hr
      · exact hn (Option.some.inj (hno.oldCtx.symm.trans hr.oldCtx))
      · have := hno.oldState.symm.trans hr.newState
        cases this
    exact ⟨hoa, (hno.unlink hnb hob).delCtx a⟩
  have hother' {n o : CtxId} (hno : s.Replaces n o) (ho : o ≠ a) (hob : o ≠ b) : n ≠ a ∧ n ≠ b := by
    refine ⟨?_, ?_⟩ <;> rintro rfl
    · rcases hr with hr | hr
      · exact hob (Option.some.inj (hno.newCtx.symm.trans hr.newCtx))
      · have := hno.newState.symm.trans hr.oldState
        cases this
    · rcases hr with hr | hr
      · have := hno.newState.symm.trans hr.oldState
        cases this
      · exact ho (Option.some.inj (hno.newCtx.symm.trans hr.newCtx))
  have hmem {d : CtxId} (hd : d ∈ ((s.unlink b).delCtx a).chanctxList) : d ≠ a ∧ d ∈ s.chanctxList :=
    hnodup.mem_erase_iff.1 hd
  refine ⟨fun n hn hs => ?_, fun o ho hs => ?_, fun c hc hs => ?_⟩
  · rw [delCtx_ctx, unlink_ctx] at hs
    split at hs
    · cases hs
    · rename_i hnb
      obtain ⟨o, ho, hno⟩ := h.replacing n (hmem hn).2 hs
      obtain ⟨hoa, hno'⟩ := hother hno (hmem hn).1 hnb
      exact ⟨o, (mem_erase_of_ne hoa).2 ho, hno'⟩
  · rw [delCtx_ctx, unlink_ctx] at hs
    split at hs
    · cases hs
    · rename_i hob
      obtain ⟨n, hn, hno⟩ := h.replaced o (hmem ho).2 hs
      obtain ⟨hna, hnb⟩ := hother' hno (hmem ho).1 hob
      exact ⟨n, (mem_erase_of_ne hna).2 hn, (hother hno hna hnb).2⟩
  · rw [delCtx_ctx, unlink_ctx] at hs ⊢
    split
    · rfl
    · rename_i hcb
      rw [if_neg hcb] at hs
      exact h.plain c (hmem hc).2 hs

theorem allocChanctx (h : ChanLinks s) (hnext : s.nextCtx ∉ s.chanctxList) (chandef : ChanDef)
    (mode : ChanctxMode) : ChanLinks (s.allocChanctx chandef mode) := by
  have hctx {d : CtxId} (hd : d ∈ s.chanctxList) : (s.allocChanctx chandef mode).ctx d = s.ctx d := by
    have hdn : d ≠ s.nextCtx := fun hdn => hnext (hdn ▸ hd)
    rw [allocChanctx_ctx, if_neg hdn]
  have hr {n o : CtxId} (hn : n ∈ s.chanctxList) (ho : o ∈ s.chanctxList) (hno : s.Replaces n o) :
      (s.allocChanctx chandef mode).Replaces n o := by
    constructor
    · rw [hctx hn, hno.newState]
    · rw [hctx hn, hno.newCtx]
    · rw [hctx ho, hno.oldState]
    · rw [hctx ho, hno.oldCtx]
  have hnew : (s.allocChanctx chandef mode).ctx s.nextCtx = { mode, confDef := chandef } := by
    rw [allocChanctx_ctx, if_pos rfl]
  refine ⟨fun n hn hs => ?_, fun o ho hs => ?_, fun c hc hs => ?_⟩
  · rcases mem_cons.1 hn with rfl | hn
    · rw [hnew] at hs
      cases hs
    · rw [hctx hn] at hs
      obtain ⟨o, ho, hno⟩ := h.replacing n hn hs
      exact ⟨o, mem_cons_of_mem _ ho, hr hn ho hno⟩
  · rcases mem_cons.1 ho with rfl | ho
    · rw [hnew] at hs
      cases hs
    · rw [hctx ho] at hs
      obtain ⟨n, hn, hno⟩ := h.replaced o ho hs
      exact ⟨n, mem_cons_of_mem _ hn, hr hn ho hno⟩
  · rcases mem_cons.1 hc with rfl | hc
    · rw [hnew]
    · rw [hctx hc] at hs ⊢
      exact h.plain c hc hs

theorem allocReplacement (h : ChanLinks s) (hnext : s.nextCtx ∉ s.chanctxList) (hc : c ∈ s.chanctxList)
    (hstate : (s.ctx c).replaceState = .replaceNone) (chandef : ChanDef) (mode : ChanctxMode) :
    ChanLinks (allocReplacement s c chandef mode) := by
  have hcn : c ≠ s.nextCtx := fun hcn => hnext (hcn ▸ hc)
  have hctx := allocReplacement_ctx hcn chandef mode
  have hnew : (Mac80211.allocReplacement s c chandef mode).Replaces s.nextCtx c := by
    constructor <;> rw [hctx]
    · rw [if_neg hcn.symm, if_pos rfl]
    · rw [if_neg hcn.symm, if_pos rfl]
    · rw [if_pos rfl]
    · rw [if_pos rfl]
  have hmemc : c ∈ (Mac80211.allocReplacement s c chandef mode).chanctxList := mem_cons_of_mem _ hc
  have hmemn : s.nextCtx ∈ (Mac80211.allocReplacement s c chandef mode).chanctxList := mem_cons_self
  have hold {d : CtxId} (hdc : d ≠ c) (hdn : d ≠ s.nextCtx) :
      (Mac80211.allocReplacement s c chandef mode).ctx d = s.ctx d := by
    rw [hctx, if_neg hdc, if_neg hdn]
  have hne {d : CtxId} (hd : d ∈ s.chanctxList) (hs : (s.ctx d).replaceState ≠ .replaceNone) :
      d ≠ c ∧ d ≠ s.nextCtx :=
    ⟨fun hdc => hs (hdc ▸ hstate), fun hdn => hnext (hdn ▸ hd)⟩
  have hr {n o : CtxId} (hn : n ∈ s.chanctxList) (ho : o ∈ s.chanctxList) (hno : s.Replaces n o) :
      (Mac80211.allocReplacement s c chandef mode).Replaces n o := by
    obtain ⟨hnc, hnn⟩ := hne hn (by rw [hno.newState]; decide)
    obtain ⟨hoc, hon⟩ := hne ho (by rw [hno.oldState]; decide)
    constructor
    · rw [hold hnc hnn, hno.newState]
    · rw [hold hnc hnn, hno.newCtx]
    · rw [hold hoc hon, hno.oldState]
    · rw [hold hoc hon, hno.oldCtx]
  refine ⟨fun n hn hs => ?_, fun o ho hs => ?_, fun d hd hs => ?_⟩
  · by_cases hnn : n = s.nextCtx
    · subst n
      exact ⟨c, hmemc, hnew⟩
    · have hn := (mem_cons.1 hn).resolve_left hnn
      by_cases hnc : n = c
      · subst n
        rw [hnew.oldState] at hs
        cases hs
      · rw [hold hnc hnn] at hs
        obtain ⟨o, ho, hno⟩ := h.replacing n hn hs
        exact ⟨o, mem_cons_of_mem _ ho, hr hn ho hno⟩
  · by_cases hoc : o = c
    · subst o
      exact ⟨s.nextCtx, hmemn, hnew⟩
    · by_cases hon : o = s.nextCtx
      · subst o
        rw [hnew.newState] at hs
        cases hs
      · have ho := (mem_cons.1 ho).resolve_left hon
        rw [hold hoc hon] at hs
        obtain ⟨n, hn, hno⟩ := h.replaced o ho hs
        exact ⟨n, mem_cons_of_mem _ hn, hr hn ho hno⟩
  · by_cases hdn : d = s.nextCtx
    · subst d
      rw [hnew.newState] at hs
      cases hs
    · by_cases hdc : d = c
      · subst d
        rw [hnew.oldState] at hs
        cases hs
      · rw [hold hdc hdn] at hs ⊢
        exact h.plain d ((mem_cons.1 hd).resolve_left hdn) hs

end ChanLinks

end Mac80211
