import Mac80211.Chan.ContextInvariant

/-!
# Calls that move one interface

The calls that do not switch contexts: reserving, giving up a reservation, leaving a context, moving
to one that is there.

## Main definitions

* `FreesReplaced` — a context is freed, and the one that was to replace it still points to it
-/

namespace Mac80211

open ChanLocal List Option

variable {H : ChanHw} {E : ChanEnv H} {s s' : ChanLocal} {x : Option CtxId} {c d n o : CtxId}
  {v w : VifId}

/-- A context that will be replaced loses its last interface, and not its replacement. -/
def FreesReplaced (s : ChanLocal) (v : VifId) (c : CtxId) : Prop :=
  (s.ctx c).replaceState = .willBeReplaced ∧ (s.ctx c).assignedVifs = [v] ∧
    ∀ n ∈ (s.ctx c).replaceCtx, (s.ctx n).reservedVifs ≠ [v]
deriving Decidable

/-! ### Giving up a reservation -/

theorem vifUnreserveChanctx_vif (s : ChanLocal) (v : VifId) :
    (vifUnreserveChanctx s v).2.vif = s.vif ∨
      (vifUnreserveChanctx s v).2.vif = (s.clearReservation v).vif := by
  rw [vifUnreserveChanctx]
  dsimp only
  repeat' split
  all_goals first | exact .inl rfl | exact .inr rfl

theorem vifUnreserveChanctx_conf (s : ChanLocal) (v w : VifId) :
    ((vifUnreserveChanctx s v).2.vif w).chanctxConf = (s.vif w).chanctxConf := by
  rcases vifUnreserveChanctx_vif s v with h | h <;> rw [h]
  rw [clearReservation_vif]
  split
  · subst w; rfl
  · rfl

theorem vifUnreserveChanctx_ready (s : ChanLocal) (v w : VifId) :
    ((vifUnreserveChanctx s v).2.vif w).reservedReady = (s.vif w).reservedReady := by
  rcases vifUnreserveChanctx_vif s v with h | h <;> rw [h]
  rw [clearReservation_vif]
  split
  · subst w; rfl
  · rfl

theorem vifUnreserveChanctx_assigned (s : ChanLocal) (v : VifId) (d : CtxId) :
    ((vifUnreserveChanctx s v).2.ctx d).assignedVifs = (s.ctx d).assignedVifs := by
  rw [vifUnreserveChanctx]
  dsimp only
  repeat' split
  all_goals first | rfl | (rw [delCtx_ctx, unlink_assignedVifs]; rfl)

theorem ChanctxInv.not_willBeReplaced_of_unreserve (h : ChanctxInv H none s)
    (hc : c ∈ s.chanctxList)
    (hstate : ((vifUnreserveChanctx s v).2.ctx c).replaceState = .willBeReplaced) :
    (s.ctx c).replaceState = .willBeReplaced ∧
      ∀ n ∈ (s.ctx c).replaceCtx, (s.ctx n).reservedVifs ≠ [v] := by
  cases hv : (s.vif v).reservedChanctx with
  | none =>
    rw [vifUnreserveChanctx, hv] at hstate
    refine ⟨hstate, fun n _ hn => ?_⟩
    have := (h.lists.reserved n v).1 (by rw [hn]; exact mem_singleton_self v)
    rw [hv] at this
    cases this
  | some m =>
    have hm {n : CtxId} (hn : (s.ctx n).reservedVifs = [v]) : n = m := by
      have := (h.lists.reserved n v).1 (by rw [hn]; exact mem_singleton_self v)
      exact (some.inj (hv.symm.trans this)).symm
    have hplain (hstate : (s.ctx c).replaceState = .willBeReplaced)
        (hkeep : ¬((s.clearReservation v).Unused m ∧ s.Replaces m c)) :
        ∀ n ∈ (s.ctx c).replaceCtx, (s.ctx n).reservedVifs ≠ [v] := by
      intro n hn hrv
      obtain ⟨m', hm', hr⟩ := h.links.replaced c hc hstate
      have hnm' : n = m' := some.inj ((mem_def.1 hn).symm.trans hr.oldCtx)
      have hnm := hm hrv
      subst hnm' hnm
      refine hkeep ⟨⟨h.unassigned n hm' hr.newState, ?_⟩, hr⟩
      rw [clearReservation_ctx]
      simp [hrv]
    obtain ⟨hu, hs⟩ | ⟨-, hnone, hs⟩ | ⟨-, o, -, hr, hs⟩ := h.unreserve_cases hv <;> rw [hs] at hstate
    · exact ⟨hstate, hplain hstate fun hk => hu hk.1⟩
    · refine ⟨hstate, hplain hstate fun hk => ?_⟩
      have := hnone.symm.trans hk.2.newState
      cases this
    · rw [delCtx_ctx, unlink_ctx] at hstate
      split at hstate
      · cases hstate
      · rename_i hco
        refine ⟨hstate, hplain hstate fun hk => hco ?_⟩
        exact some.inj (hk.2.newCtx.symm.trans hr.newCtx)

/-! ### Assigning -/

theorem ChanLists.delAssigned_eq {f : VifId → Option CtxId} (h : ChanLists H f s) (hf : f v = none) :
    s.delAssigned v = s := by
  have hctx : (fun c => { s.ctx c with assignedVifs := (s.ctx c).assignedVifs.erase v }) = s.ctx := by
    funext c
    have hv : v ∉ (s.ctx c).assignedVifs := fun hv => by
      have := ((h.assigned c v).1 hv).2
      rw [hf] at this
      cases this
    rw [erase_of_not_mem hv]
  rw [ChanLocal.delAssigned, hctx]

/-- An interface without a context tries to join one; the context is freed if it fails, and none uses it. -/
theorem ChanctxInv.assignOrFree (h : ChanctxInv H x s) (hx : x = none ∨ x = some c)
    (hv : H.iftype v ≠ .apVlan) (hconf : H.iftype v = .nan ∨ (s.vif v).chanctxConf = none)
    (hc : c ∈ s.chanctxList) (hstate : (s.ctx c).replaceState = .replaceNone) :
    ChanctxInv H none (if (assignVifChanctx E s v (some c)).1 ≠ 0 then
      (assignVifChanctx E s v (some c)).2.freeUnused c else (assignVifChanctx E s v (some c)).2) := by
  rw [assignVifChanctx]
  by_cases hnan : H.iftype v = .nan
  · have herr : -ENOTSUPP ≠ 0 := by decide
    rw [if_pos hnan, if_pos herr]
    exact h.freeUnused hx fun _ => hstate
  · have hconf := hconf.resolve_left hnan
    rw [if_neg hnan, hconf]
    dsimp only
    by_cases hret : E.assignVifChanctx v c = 0
    · have hmove := h.move hx hv hc (by rw [hstate]; decide)
      rw [h.lists.delAssigned_eq hconf, hconf] at hmove
      simpa [hret] using hmove
    · have hsame : SameLinks H s (s.setConf v none) := by
        refine { SameLinks.refl (H := H) s with
          reservedChanctx := fun w => ?_
          reservedReady := fun w => ?_
          chanctxConf := fun w _ => ?_ } <;> rw [setConf_vif] <;> split
        all_goals first | rfl | (subst w; first | rfl | exact hconf.symm)
      have hfree := (h.congr hsame).freeUnused hx fun _ => hstate
      simpa [hret] using hfree

theorem ChanctxInv.releaseCtx (h : ChanctxInv H none s) (hv : H.iftype v ≠ .apVlan)
    (hconf : (s.vif v).chanctxConf = some c) (hfree : ¬FreesReplaced s v c) :
    ChanctxInv H none (releaseCtx E s v c) := by
  have hc := h.lists.mem_of_assignment hv hconf
  obtain ⟨s₁, hs₁, h₁, hconf₁, hassigned₁, hstate₁⟩ : ∃ s₁, s₁ =
      (if (s.vif v).reservedChanctx.isSome then (vifUnreserveChanctx s v).2 else s) ∧
      ChanctxInv H none s₁ ∧ (s₁.vif v).chanctxConf = some c ∧
      (s₁.ctx c).assignedVifs = (s.ctx c).assignedVifs ∧
      ((s₁.ctx c).replaceState = .willBeReplaced → (s.ctx c).replaceState = .willBeReplaced ∧
        ∀ n ∈ (s.ctx c).replaceCtx, (s.ctx n).reservedVifs ≠ [v]) := by
    refine ⟨_, rfl, ?_⟩
    split
    · exact ⟨h.unreserve v, (vifUnreserveChanctx_conf s v v).trans hconf,
        vifUnreserveChanctx_assigned s v c, h.not_willBeReplaced_of_unreserve hc⟩
    · rename_i hr
      refine ⟨h, hconf, rfl, fun hs => ⟨hs, fun n _ hn => hr ?_⟩⟩
      rw [(h.lists.reserved n v).1 (by rw [hn]; exact mem_singleton_self v)]
      rfl
  have hvc : v ∈ (s₁.ctx c).assignedVifs := (h₁.lists.assigned c v).2 ⟨hv, hconf₁⟩
  have hne := h₁.assigned_ne_replacesOther hv hconf₁
  rw [Mac80211.releaseCtx, ← hs₁, assignVifChanctx]
  dsimp only
  by_cases hnan : H.iftype v = .nan
  · rw [if_pos hnan]
    refine h₁.freeUnused (.inl rfl) fun hu => ?_
    rw [hu.1] at hvc
    cases hvc
  · rw [if_neg hnan, hconf₁]
    have hleft := h₁.unassign hconf₁
    have hlast (hu : ((s₁.delAssigned v).setConf v none).Unused c) :
        (s₁.ctx c).replaceState = .replaceNone := by
      have hassigned : (s₁.ctx c).assignedVifs = [v] := by
        have := hu.1
        rw [setConf_ctx, delAssigned_ctx] at this
        rcases erase_eq_nil_iff.1 this with h0 | h0
        · rw [h0] at hvc
          cases hvc
        · exact h0
      cases hstate : (s₁.ctx c).replaceState with
      | replaceNone => rfl
      | willBeReplaced =>
        obtain ⟨hwill, hkeep⟩ := hstate₁ hstate
        exact absurd ⟨hwill, hassigned₁.symm.trans hassigned, hkeep⟩ hfree
      | replacesOther => exact absurd hstate hne
    simp only [isSome_some, if_true]
    split
    · have hsame : SameLinks H _ _ :=
        .recalcChanctxChantype (E := E) ((s₁.delAssigned v).setConf v none) c
      refine (hleft.congr hsame).freeUnused (.inr rfl) fun hu => ?_
      rw [hsame.replaceState]
      exact hlast ((hsame.unused c).1 hu)
    · exact hleft.freeUnused (.inr rfl) hlast

/-! ### Moving to an existing context -/

theorem ChanctxInv.useReserved (h : ChanctxInv H none s) (hr : (s.vif v).reservedChanctx = some n)
    (hstate : (s.ctx n).replaceState ≠ .replacesOther) (chandef : ChanDef) :
    ChanctxInv H (some n) ((s.changeChanctx n chandef).clearReservation v) ∧
      (((s.changeChanctx n chandef).clearReservation v).ctx n).replaceState = .replaceNone ∧
      n ∈ ((s.changeChanctx n chandef).clearReservation v).chanctxList ∧
      (H.iftype v ≠ .apVlan → (((s.changeChanctx n chandef).clearReservation v).vif v).chanctxConf =
        (s.vif v).chanctxConf) := by
  have hsame := SameLinks.changeChanctx (H := H) s n chandef
  refine ⟨(h.congr hsame).clearReservation ((hsame.reservedChanctx v).trans hr),
    (hsame.replaceState n).trans ?_, ?_, fun hv => ?_⟩
  · cases hs : (s.ctx n).replaceState with
    | replaceNone => rfl
    | willBeReplaced => exact absurd hs (h.reserved_ne_willBeReplaced hr)
    | replacesOther => exact absurd hs hstate
  · rw [clearReservation_chanctxList, hsame.chanctxList]
    exact h.lists.mem_of_reserved hr
  · rw [clearReservation_vif, if_pos rfl]
    exact hsame.chanctxConf v hv

theorem ChanctxInv.assign (h : ChanctxInv H none s) (hv : H.iftype v ≠ .apVlan) :
    ChanctxInv H none (vifUseReservedAssign E s v).2 := by
  rw [vifUseReservedAssign]
  split
  · exact h
  · split
    · exact h
    · exact h
    · rename_i n hconf hr
      split
      · exact h
      · rename_i hstate
        split
        · exact h
        · rename_i chandef _
          obtain ⟨h', hnone, hn, hconf'⟩ := h.useReserved hr hstate chandef
          have := h'.assignOrFree (E := E) (.inr rfl) hv (.inr ((hconf' hv).trans hconf)) hn hnone
          dsimp only
          split
          · rename_i herr
            rwa [if_pos herr] at this
          · rename_i herr
            rwa [if_neg herr] at this

theorem ChanctxInv.joinAndFree (h : ChanctxInv H (some n) s) (hv : H.iftype v ≠ .apVlan)
    (hconf : (s.vif v).chanctxConf = some o) (hn : n ∈ s.chanctxList)
    (hstate : (s.ctx n).replaceState = .replaceNone)
    (hlast : (s.ctx o).assignedVifs = [v] → (s.ctx o).replaceState ≠ .willBeReplaced) :
    ChanctxInv H none ((if H.iftype v = .ap then
        vifCopyChanctxToVlans E (((s.delAssigned v).addAssigned v n).setConf v (some n)) v
      else ((s.delAssigned v).addAssigned v n).setConf v (some n)).freeUnused o) := by
  have hne := h.assigned_ne_replacesOther hv hconf
  have hvo : v ∈ (s.ctx o).assignedVifs := (h.lists.assigned o v).2 ⟨hv, hconf⟩
  have hmove := h.move (.inr rfl) hv hn (by rw [hstate]; decide)
  rw [hconf] at hmove
  have hfree (hu : (((s.delAssigned v).addAssigned v n).setConf v (some n)).Unused o) :
      ((((s.delAssigned v).addAssigned v n).setConf v (some n)).ctx o).replaceState = .replaceNone := by
    obtain ⟨ha, -⟩ := hu
    rw [setConf_ctx, addAssigned_ctx] at ha
    by_cases hon : o = n
    · rw [if_pos hon] at ha
      cases ha
    · rw [if_neg hon, delAssigned_ctx] at ha
      rw [setConf_ctx, addAssigned_ctx, if_neg hon, delAssigned_ctx]
      have hassigned : (s.ctx o).assignedVifs = [v] := by
        rcases erase_eq_nil_iff.1 ha with h0 | h0
        · rw [h0] at hvo
          cases hvo
        · exact h0
      cases hs : (s.ctx o).replaceState with
      | replaceNone => rfl
      | willBeReplaced => exact absurd hs (hlast hassigned)
      | replacesOther => exact absurd hs hne
  split
  · have hsame : SameLinks H _ _ :=
      .vifCopyChanctxToVlans (E := E) (((s.delAssigned v).addAssigned v n).setConf v (some n)) v
    refine (hmove.congr hsame).freeUnused (.inr rfl) fun hu => ?_
    rw [hsame.replaceState]
    exact hfree ((hsame.unused o).1 hu)
  · exact hmove.freeUnused (.inr rfl) hfree

theorem ChanctxInv.reassign (h : ChanctxInv H none s) (hv : H.iftype v ≠ .apVlan)
    (hfree : ∀ n o, (s.vif v).reservedChanctx = some n → (s.vif v).chanctxConf = some o →
      (s.nonReservedChandef n (some (s.vif v).reservedChandef)).isSome →
      drvSwitchVifChanctx E [⟨v, o, n⟩] .reassignVif = 0 → ¬FreesReplaced s v o) :
    ChanctxInv H none (vifUseReservedReassign E s v).2 := by
  rw [vifUseReservedReassign]
  split
  · exact h
  · split
    · exact h
    · exact h
    · rename_i n o hr hconf
      split
      · exact h
      · rename_i hstate
        split
        · exact h
        · rename_i chandef hchandef
          obtain ⟨h', hnone, hn, hconf'⟩ := h.useReserved hr hstate chandef
          have hsame := SameLinks.changeChanctx (H := H) s n chandef
          dsimp only
          split
          · exact h'.freeUnused (.inr rfl) fun _ => hnone
          · rename_i herr
            refine (h'.joinAndFree hv ((hconf' hv).trans hconf) hn hnone fun hassigned hwill => ?_).congr
              (.vifUpdateChandef _ v _)
            have hwill : (s.ctx o).replaceState = .willBeReplaced := (hsame.replaceState o).symm.trans hwill
            refine hfree n o hr hconf (isSome_iff_exists.2 ⟨chandef, hchandef⟩)
              (not_not.1 herr) ⟨hwill, (hsame.assignedVifs o).symm.trans hassigned, fun m hm hrm => ?_⟩
            -- the only reservation of `v` is for a context that replaces none
            have hvm := (h.lists.reserved m v).1 (by rw [hrm]; exact mem_singleton_self v)
            obtain ⟨m', -, hrep⟩ := h.links.replaced o (h.lists.mem_of_assignment hv hconf) hwill
            have hmm' : m = m' := some.inj ((mem_def.1 hm).symm.trans hrep.oldCtx)
            have hmn : m = n := some.inj (hvm.symm.trans hr)
            subst hmm' hmn
            exact hstate hrep.newState

/-! ### Reserving -/

theorem newChanctx_eq {chandef : ChanDef} {mode : ChanctxMode}
    (h : newChanctx E s chandef mode = .ok s') : s' = s.allocChanctx chandef mode := by
  rw [newChanctx] at h
  split at h
  · cases h
  · by_cases hadd : (if H.useChanctx = true then E.addChanctx s.nextCtx else 0) = 0
    · rw [if_neg (not_not.2 hadd)] at h
      exact (Except.ok.inj h).symm
    · rw [if_pos hadd] at h
      cases h

theorem replaceableCtx_spec (h : replaceableCtx s x = some c) :
    (x = some c ∨ c ∈ s.chanctxList ∧ (s.ctx c).replaceState = .replaceNone) ∧
      (s.ctx c).replaceState ≠ .willBeReplaced ∧ (s.ctx c).reservedVifs = [] := by
  rw [replaceableCtx] at h
  obtain ⟨hc, hfree⟩ := filter_eq_some_iff.1 h
  have hfree := not_or.1 (of_decide_eq_true hfree)
  refine ⟨?_, hfree.1, not_not.1 hfree.2⟩
  split at hc
  · rcases or_eq_some_iff.1 hc with hc | ⟨-, hc⟩
    · have hfound := find?_some hc
      rw [Bool.and_eq_true, decide_eq_true_iff] at hfound
      exact .inr ⟨mem_of_find?_eq_some hc, hfound.1⟩
    · exact .inl hc
  · exact .inl hc

theorem ChanctxInv.vifReserveChanctx (h : ChanctxInv H none s) (hv : H.iftype v ≠ .apVlan)
    (hr : (s.vif v).reservedChanctx = none) (chandef : ChanDef) (mode : ChanctxMode) :
    ChanctxInv H none (vifReserveChanctx E s v chandef mode).2 := by
  rw [Mac80211.vifReserveChanctx]
  split
  · exact h
  · split
    · rename_i c hfound
      rw [findReservationChanctx] at hfound
      split at hfound
      · cases hfound
      · have hspec := find?_some hfound
        rw [Bool.and_eq_true, Bool.and_eq_true, decide_eq_true_iff] at hspec
        exact h.reserve (.inl rfl) hv hr (mem_of_find?_eq_some hfound) hspec.1.1 chandef
    · split
      · split
        · exact h
        · rename_i s' hnew
          obtain rfl := newChanctx_eq hnew
          refine (h.allocChanctx chandef mode).reserve (.inr rfl) hv hr mem_cons_self ?_ chandef
          rw [allocChanctx_ctx, if_pos rfl]
          exact fun hwill => by cases hwill
      · split
        · exact h
        · rename_i c hc
          split
          · exact h
          · obtain ⟨hwhere, hwill, hnone⟩ := replaceableCtx_spec hc
            have hmem : c ∈ s.chanctxList ∧ (s.ctx c).replaceState = .replaceNone := by
              rcases hwhere with hconf | hmem
              · refine ⟨h.lists.mem_of_assignment hv hconf, ?_⟩
                cases hs : (s.ctx c).replaceState with
                | replaceNone => rfl
                | willBeReplaced => exact absurd hs hwill
                | replacesOther => exact absurd hs (h.assigned_ne_replacesOther hv hconf)
              · exact hmem
            have hcn : c ≠ s.nextCtx := fun hcn => h.lists.nextCtx_notMem (hcn ▸ hmem.1)
            refine (h.allocReplacement hmem.1 hmem.2 hnone chandef mode).reserve (.inr rfl) hv hr
              mem_cons_self ?_ chandef
            rw [allocReplacement_ctx hcn, if_neg hcn.symm, if_pos rfl]
            exact fun hwill => by cases hwill

/-! ### Using a channel -/

theorem ChanctxInv.findOrNew (h : ChanctxInv H none s) {chandef : ChanDef} {mode : ChanctxMode}
    (hs : findOrNewChanctx E s chandef mode = .ok (c, s')) :
    (∃ x, (x = none ∨ x = some c) ∧ ChanctxInv H x s') ∧ c ∈ s'.chanctxList ∧
      (s'.ctx c).replaceState = .replaceNone ∧ s'.vif = s.vif := by
  rw [findOrNewChanctx] at hs
  split at hs
  · rename_i d compat hfound
    obtain ⟨rfl, rfl⟩ := Prod.mk.inj (Except.ok.inj hs)
    have hsame := SameLinks.changeChanctx (H := H) s d compat
    have hd : d ∈ s.chanctxList ∧ (s.ctx d).replaceState = .replaceNone := by
      rw [findChanctx] at hfound
      split at hfound
      · cases hfound
      · obtain ⟨e, he, hfound⟩ := exists_of_findSome?_eq_some hfound
        split at hfound
        · cases hfound
        · rename_i hstate
          split at hfound
          · cases hfound
          · obtain ⟨_, -, hfound⟩ := bind_eq_some_iff.1 hfound
            obtain ⟨_, -, hfound⟩ := map_eq_some_iff.1 hfound
            obtain ⟨rfl, -⟩ := Prod.mk.inj hfound
            exact ⟨he, not_not.1 hstate⟩
    refine ⟨⟨none, .inl rfl, h.congr hsame⟩, hsame.chanctxList ▸ hd.1,
      (hsame.replaceState d).trans hd.2, ?_⟩
    rw [changeChanctx]
    split
    · rfl
    · rfl
  · cases hnew : newChanctx E s chandef mode with
    | error err =>
      rw [hnew] at hs
      cases hs
    | ok s₁ =>
      rw [hnew] at hs
      obtain ⟨rfl, rfl⟩ := Prod.mk.inj (Except.ok.inj hs)
      obtain rfl := newChanctx_eq hnew
      refine ⟨⟨_, .inr rfl, h.allocChanctx chandef mode⟩, mem_cons_self, ?_, rfl⟩
      rw [allocChanctx_ctx, if_pos rfl]

end Mac80211
