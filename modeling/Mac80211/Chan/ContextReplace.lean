import Mac80211.Chan.ContextSwitch

/-!
# Old contexts go

All turns of `ieee80211_vif_use_reserved_switch`, one after the other, and the old contexts that are
freed after them: an old context is freed if its replacement was not given up, whether or not all
its interfaces have left.

## Main definitions

* `SwitchClean` — told from the state in which the switch begins

## Main results

* `ChanctxInv.vifUseReservedSwitch`
-/

namespace Mac80211

open ChanLocal List

variable {H : ChanHw} {E : ChanEnv H} {S s s' : ChanLocal} {pre todo lost : List CtxId} {c d n o : CtxId}
  {v w : VifId}

/-! ### What will happen -/

/-- The interface leaves its context, unless that is one that has lost its replacement. -/
def LeavesAt (s : ChanLocal) (lost : List CtxId) (v : VifId) : Prop :=
  s.HasInPlaceReservation v ∧ ∀ o ∈ (s.vif v).chanctxConf, o ∉ lost
deriving Decidable

/-- All reservations of the context are deferred and ready: none is left after its turn. -/
def GivesUp (s : ChanLocal) (lost : List CtxId) (n : CtxId) : Prop :=
  ∀ w ∈ (s.ctx n).reservedVifs, ¬LeavesAt s lost w ∧ (s.vif w).reservedReady = true
deriving Decidable

/-- The turn of a context. -/
def lostAtTurn (s : ChanLocal) (lost : List CtxId) (n : CtxId) : List CtxId :=
  if (s.ctx n).replaceState = .replacesOther ∧ GivesUp s lost n then (s.ctx n).replaceCtx.toList ++ lost
  else lost

/-- The old contexts that have lost their replacement after these turns. -/
def lostBy (s : ChanLocal) (turns : List CtxId) : List CtxId := turns.foldl (lostAtTurn s) []

/-- The interface leaves its context, at the turn of the one that it has reserved. -/
def Leaves (s : ChanLocal) (v : VifId) : Prop :=
  ∃ n ∈ (s.vif v).reservedChanctx, LeavesAt s (lostBy s (s.chanctxList.takeWhile (· ≠ n))) v
deriving Decidable

/-- An old context loses its replacement just if some interface does not leave it. -/
def SwitchClean (s : ChanLocal) : Prop :=
  ∀ o ∈ s.chanctxList, (s.ctx o).replaceState = .willBeReplaced →
    (o ∈ lostBy s s.chanctxList ↔ ∃ v ∈ (s.ctx o).assignedVifs, ¬Leaves s v)
deriving Decidable

theorem lostBy_concat (s : ChanLocal) (pre : List CtxId) (c : CtxId) :
    lostBy s (pre ++ [c]) = lostAtTurn s (lostBy s pre) c := foldl_concat ..

theorem takeWhile_ne_of_append (hnodup : (pre ++ c :: todo).Nodup) :
    (pre ++ c :: todo).takeWhile (fun d => decide (d ≠ c)) = pre := by
  rw [takeWhile_append_of_pos, takeWhile_cons_of_neg, append_nil]
  · simp
  · intro d hd
    have hdc : d ≠ c := fun hdc =>
      (nodup_append.1 hnodup).2.2 d hd c mem_cons_self hdc
    simp [hdc]

theorem ChanctxInv.not_mem_pre (hS : ChanctxInv H none S) (hlist : S.chanctxList = pre ++ c :: todo) :
    c ∉ pre := fun hpre =>
  (nodup_append.1 (hlist ▸ hS.lists.nodup)).2.2 c hpre c mem_cons_self rfl

/-! ### The turns -/

/-- After some turns. -/
structure SwitchInv (H : ChanHw) (S : ChanLocal) (pre : List CtxId) (s : ChanLocal) : Prop where
  wf : ChanWf H s
  sub : ∀ c ∈ s.chanctxList, c ∈ S.chanctxList
  /-- Only contexts that replace others are given up. -/
  kept : ∀ c ∈ S.chanctxList, c ∉ pre ∨ (S.ctx c).replaceState ≠ .replacesOther → c ∈ s.chanctxList
  replaceState : ∀ c ∈ s.chanctxList, (s.ctx c).replaceState =
    if (S.ctx c).replaceState = .willBeReplaced ∧ c ∈ lostBy S pre then .replaceNone
    else (S.ctx c).replaceState
  replaceCtx : ∀ c ∈ s.chanctxList, (s.ctx c).replaceState ≠ .replaceNone →
    (s.ctx c).replaceCtx = (S.ctx c).replaceCtx
  reservedReady : ∀ v, (s.vif v).reservedReady = (S.vif v).reservedReady
  reservedChanctx : ∀ v, (s.vif v).reservedChanctx = (S.vif v).reservedChanctx ∨
    (s.vif v).reservedChanctx = none ∧ ∃ n ∈ pre, (S.vif v).reservedChanctx = some n
  moved : ∀ v n, n ∈ pre → (S.vif v).reservedChanctx = some n → Leaves S v →
    (s.vif v).chanctxConf = some n
  chanctxConf : ∀ v, H.iftype v ≠ .apVlan →
    ¬(Leaves S v ∧ ∃ n ∈ pre, (S.vif v).reservedChanctx = some n) →
    (s.vif v).chanctxConf = (S.vif v).chanctxConf
  /-- Contexts that were not to be replaced are used. -/
  used : ∀ c ∈ s.chanctxList, (S.ctx c).replaceState ≠ .willBeReplaced → ¬s.Unused c

theorem ChanctxInv.switchInv (h : ChanctxInv H none S) : SwitchInv H S [] S where
  wf := h.toChanWf
  sub c hc := hc
  kept c hc _ := hc
  replaceState c _ := (if_neg fun hc => not_mem_nil hc.2).symm
  replaceCtx _ _ _ := rfl
  reservedReady _ := rfl
  reservedChanctx _ := .inl rfl
  moved v n hn := absurd hn not_mem_nil
  chanctxConf _ _ _ := rfl
  used c hc _ hu := by cases h.used c hc hu

namespace SwitchInv

theorem willBeReplaced_iff (h : SwitchInv H S pre s) (ho : o ∈ s.chanctxList) :
    (s.ctx o).replaceState = .willBeReplaced ↔
      (S.ctx o).replaceState = .willBeReplaced ∧ o ∉ lostBy S pre := by
  rw [h.replaceState o ho]
  split
  · rename_i hlost
    exact ⟨(fun hs => by cases hs), fun hs => absurd hlost.2 hs.2⟩
  · rename_i hnot
    exact ⟨fun hs => ⟨hs, fun hlost => hnot ⟨hs, hlost⟩⟩, fun hs => hs.1⟩

theorem replacesOther_iff (h : SwitchInv H S pre s) (hc : c ∈ s.chanctxList) :
    (s.ctx c).replaceState = .replacesOther ↔ (S.ctx c).replaceState = .replacesOther := by
  rw [h.replaceState c hc]
  split
  · rename_i hlost
    rw [hlost.1]
    exact ⟨(fun hs => by cases hs), (fun hs => by cases hs)⟩
  · exact Iff.rfl

theorem reserved_iff (h : SwitchInv H S pre s) (hc : c ∉ pre) :
    (s.vif v).reservedChanctx = some c ↔ (S.vif v).reservedChanctx = some c := by
  rcases h.reservedChanctx v with hv | ⟨hv, n, hn, hS⟩
  · rw [hv]
  · rw [hv, hS]
    refine ⟨(fun hs => by cases hs), fun hs => ?_⟩
    cases hs
    exact absurd hn hc

theorem assigned_eq_nil (h : SwitchInv H S pre s) (hS : ChanctxInv H none S) (hc : c ∈ S.chanctxList)
    (hpre : c ∉ pre) (hstate : (S.ctx c).replaceState = .replacesOther) :
    (s.ctx c).assignedVifs = [] := by
  refine eq_nil_iff_forall_not_mem.2 fun v hv => ?_
  obtain ⟨hvlan, hconf⟩ := (h.wf.lists.assigned c v).1 hv
  by_cases hmoved : Leaves S v ∧ ∃ n ∈ pre, (S.vif v).reservedChanctx = some n
  · obtain ⟨hleaves, n, hn, hr⟩ := hmoved
    rw [h.moved v n hn hr hleaves] at hconf
    cases hconf
    exact hpre hn
  · rw [h.chanctxConf v hvlan hmoved] at hconf
    have hmem := (hS.lists.assigned c v).2 ⟨hvlan, hconf⟩
    rw [hS.unassigned c hc hstate] at hmem
    exact not_mem_nil hmem

theorem hasInPlaceReservation_iff (h : SwitchInv H S pre s) (hS : ChanctxInv H none S)
    (hlist : S.chanctxList = pre ++ c :: todo) (hr : (S.vif v).reservedChanctx = some c) :
    s.HasInPlaceReservation v ↔ LeavesAt S (lostBy S pre) v := by
  have hpre := hS.not_mem_pre hlist
  have hc : c ∈ S.chanctxList := by rw [hlist]; simp
  have hcs := h.kept c hc (.inl hpre)
  have hvlan := hS.lists.reserver v c hr
  have hrs := (h.reserved_iff (v := v) hpre).2 hr
  have hconf : (s.vif v).chanctxConf = (S.vif v).chanctxConf :=
    h.chanctxConf v hvlan fun hmoved => by
      obtain ⟨-, n, hn, hr'⟩ := hmoved
      cases hr.symm.trans hr'
      exact hpre hn
  have hmem {o : CtxId} (ho : o ∈ (S.vif v).chanctxConf) : o ∈ s.chanctxList :=
    h.wf.lists.mem_of_assignment hvlan (hconf.trans ho)
  rw [HasInPlaceReservation, LeavesAt, HasInPlaceReservation, hconf, hrs, hr]
  constructor
  · rintro ⟨o, ho, n, hn, hwill, hother⟩
    cases hn
    obtain ⟨hwill, hlost⟩ := (h.willBeReplaced_iff (hmem ho)).1 hwill
    refine ⟨⟨o, ho, c, rfl, hwill, (h.replacesOther_iff hcs).1 hother⟩, fun o' ho' => ?_⟩
    cases ho.symm.trans ho'
    exact hlost
  · rintro ⟨⟨o, ho, n, hn, hwill, hother⟩, hlost⟩
    cases hn
    exact ⟨o, ho, c, rfl, (h.willBeReplaced_iff (hmem ho)).2 ⟨hwill, hlost o ho⟩,
      (h.replacesOther_iff hcs).2 hother⟩

theorem givesUp_iff (h : SwitchInv H S pre s) (hS : ChanctxInv H none S)
    (hlist : S.chanctxList = pre ++ c :: todo) (hpre : c ∉ pre) :
    GivesUp S (lostBy S pre) c ↔ ∀ w, (s.vif w).reservedChanctx = some c →
      ¬s.HasInPlaceReservation w ∧ (s.vif w).reservedReady = true := by
  constructor
  · intro hg w hw
    have hr := (h.reserved_iff hpre).1 hw
    obtain ⟨hleaves, hready⟩ := hg w ((hS.lists.reserved c w).2 hr)
    exact ⟨mt (h.hasInPlaceReservation_iff hS hlist hr).1 hleaves, (h.reservedReady w).trans hready⟩
  · intro hg w hw
    have hr := (hS.lists.reserved c w).1 hw
    obtain ⟨hplace, hready⟩ := hg w ((h.reserved_iff hpre).2 hr)
    exact ⟨mt (h.hasInPlaceReservation_iff hS hlist hr).2 hplace, (h.reservedReady w).symm.trans hready⟩

theorem skip (h : SwitchInv H S pre s) (hc : (S.ctx c).replaceState ≠ .replacesOther) :
    SwitchInv H S (pre ++ [c]) s := by
  have hlost : lostBy S (pre ++ [c]) = lostBy S pre := by
    rw [lostBy_concat, lostAtTurn, if_neg fun hs => hc hs.1]
  refine
    { h with
      kept := fun d hd hpre => h.kept d hd (hpre.imp_left fun hpre hmem => hpre (mem_append_left _ hmem))
      replaceState := fun d hd => by rw [hlost]; exact h.replaceState d hd
      reservedChanctx := fun v => (h.reservedChanctx v).imp_right fun ⟨hv, n, hn, hr⟩ =>
        ⟨hv, n, mem_append_left _ hn, hr⟩
      moved := fun v n hn hr hleaves => ?_
      chanctxConf := fun v hv hnot => h.chanctxConf v hv fun ⟨hleaves, n, hn, hr⟩ =>
        hnot ⟨hleaves, n, mem_append_left _ hn, hr⟩ }
  rcases mem_append.1 hn with hn | hn
  · exact h.moved v n hn hr hleaves
  · obtain rfl := mem_singleton.1 hn
    obtain ⟨-, -, ⟨-, -, m, hm, -, hstate⟩, -⟩ := hleaves
    cases hr.symm.trans hm
    exact absurd hstate hc

theorem leaves_iff (hS : ChanctxInv H none S) (hlist : S.chanctxList = pre ++ c :: todo)
    (hr : (S.vif v).reservedChanctx = some c) : Leaves S v ↔ LeavesAt S (lostBy S pre) v := by
  have hwhile : S.chanctxList.takeWhile (fun d => decide (d ≠ c)) = pre := by
    rw [hlist]
    exact takeWhile_ne_of_append (hlist ▸ hS.lists.nodup)
  constructor
  · rintro ⟨n, hn, hleaves⟩
    cases hr.symm.trans hn
    rwa [hwhile] at hleaves
  · intro hleaves
    exact ⟨c, hr, by rwa [hwhile]⟩

theorem links_of_takenOver (h : SwitchInv H S pre s) (hS : ChanctxInv H none S)
    (hlist : S.chanctxList = pre ++ c :: todo) (hpre : c ∉ pre) (hc : c ∈ s.chanctxList)
    (hstate : (s.ctx c).replaceState = .replacesOther) (ht : TakenOver H c s s') :
    (∀ d ∈ s'.chanctxList, d ∈ s.chanctxList) ∧ (∀ d ∈ s.chanctxList, d ≠ c → d ∈ s'.chanctxList) ∧
    (∀ d ∈ s'.chanctxList, (s'.ctx d).replaceState =
      if (S.ctx d).replaceState = .willBeReplaced ∧ d ∈ lostBy S (pre ++ [c]) then .replaceNone
      else (S.ctx d).replaceState) ∧
    (∀ d ∈ s'.chanctxList, (s'.ctx d).replaceState ≠ .replaceNone →
      (s'.ctx d).replaceCtx = (S.ctx d).replaceCtx) ∧
    (c ∈ s'.chanctxList → ∃ w, (s.vif w).reservedChanctx = some c ∧
      (s.HasInPlaceReservation w ∨ (s.vif w).reservedReady = false)) := by
  have hgives := h.givesUp_iff hS hlist hpre
  have hstateS := (h.replacesOther_iff hc).1 hstate
  by_cases hg : GivesUp S (lostBy S pre) c
  · obtain ⟨hlist', o, hr, hstate', hctx'⟩ := ht.givenUp (hgives.1 hg)
    have hoc : (S.ctx c).replaceCtx = some o :=
      (h.replaceCtx c hc (by rw [hstate]; decide)).symm.trans hr.newCtx
    have hlost : lostBy S (pre ++ [c]) = o :: lostBy S pre := by
      rw [lostBy_concat, lostAtTurn, if_pos ⟨hstateS, hg⟩, hoc]
      rfl
    have hmem {d : CtxId} (hd : d ∈ s'.chanctxList) : d ≠ c ∧ d ∈ s.chanctxList := by
      rw [hlist'] at hd
      exact h.wf.lists.nodup.mem_erase_iff.1 hd
    refine ⟨fun d hd => (hmem hd).2, fun d hd hdc => ?_, fun d hd => ?_, fun d hd hs => ?_,
      fun hcs => absurd rfl (hmem hcs).1⟩
    · rw [hlist']
      exact (mem_erase_of_ne hdc).2 hd
    · rw [hstate', hlost]
      by_cases hdo : d = o
      · subst hdo
        have hwill := ((h.willBeReplaced_iff (hmem hd).2).1 hr.oldState).1
        simp [hwill]
      · simpa [hdo] using h.replaceState d (hmem hd).2
    · rw [hstate'] at hs
      by_cases hdo : d = o
      · exact absurd (if_pos hdo) hs
      · rw [if_neg hdo] at hs
        rw [hctx' d hdo]
        exact h.replaceCtx d (hmem hd).2 hs
  · have hstay : ∃ w, (s.vif w).reservedChanctx = some c ∧
        (s.HasInPlaceReservation w ∨ (s.vif w).reservedReady = false) := by
      by_contra hnone
      refine hg (hgives.2 fun w hw => ⟨fun hp => hnone ⟨w, hw, .inl hp⟩, ?_⟩)
      by_contra hready
      exact hnone ⟨w, hw, .inr (Bool.eq_false_of_not_eq_true hready)⟩
    obtain ⟨hlist', hstate', hctx'⟩ := ht.stays hstay
    have hlost : lostBy S (pre ++ [c]) = lostBy S pre := by
      rw [lostBy_concat, lostAtTurn, if_neg fun hs => hg hs.2]
    rw [hlist', hlost]
    refine ⟨fun d hd => hd, fun d hd _ => hd, fun d hd => ?_, fun d hd hs => ?_, fun _ => hstay⟩
    · rw [hstate']
      exact h.replaceState d hd
    · rw [hstate'] at hs
      rw [hctx']
      exact h.replaceCtx d hd hs

theorem turn (h : SwitchInv H S pre s) (hS : ChanctxInv H none S)
    (hlist : S.chanctxList = pre ++ c :: todo) (hstate : (s.ctx c).replaceState = .replacesOther) :
    SwitchInv H S (pre ++ [c]) (takeOver E c s) := by
  have hpre := hS.not_mem_pre hlist
  have hc : c ∈ S.chanctxList := by rw [hlist]; simp
  have hcs := h.kept c hc (.inl hpre)
  have hstateS := (h.replacesOther_iff hcs).1 hstate
  have hused := h.used c hcs (by rw [hstateS]; decide)
  have ht := h.wf.takeOver (E := E) hcs hstate (h.assigned_eq_nil hS hc hpre hstateS) hused
  generalize takeOver E c s = s' at ht ⊢
  have hmoves (v : VifId) : (s.vif v).reservedChanctx = some c ∧ s.HasInPlaceReservation v ↔
      (S.vif v).reservedChanctx = some c ∧ Leaves S v := by
    rw [h.reserved_iff hpre]
    refine and_congr_right fun hr => ?_
    rw [h.hasInPlaceReservation_iff hS hlist hr, leaves_iff hS hlist hr]
  obtain ⟨hsub, hkeep, hstate', hctx', hstays⟩ := h.links_of_takenOver hS hlist hpre hcs hstate ht
  refine
    { wf := ht.wf
      sub := fun d hd => h.sub d (hsub d hd)
      kept := fun d hd hor => ?_
      replaceState := hstate'
      replaceCtx := hctx'
      reservedReady := fun v => (ht.reservedReady v).trans (h.reservedReady v)
      reservedChanctx := fun v => ?_
      moved := fun v n hn hr hleaves => ?_
      chanctxConf := fun v hv hnot => ?_
      used := fun d hd hstate hu => ?_ }
  · have hdc : d ≠ c := by
      rintro rfl
      rcases hor with hmem | hne
      · exact hmem (by simp)
      · exact hne hstateS
    refine hkeep d (h.kept d hd (hor.imp_left fun hmem hd => hmem (mem_append_left _ hd))) hdc
  · rcases ht.reservedChanctx v with hv | ⟨hr, hv⟩
    · rw [hv]
      exact (h.reservedChanctx v).imp_right fun ⟨hv, n, hn, hr⟩ => ⟨hv, n, mem_append_left _ hn, hr⟩
    · exact .inr ⟨hv, c, by simp, (h.reserved_iff hpre).1 hr⟩
  · rcases mem_append.1 hn with hn' | hn'
    · -- it has left earlier
      have hnot : ¬((s.vif v).reservedChanctx = some c ∧ s.HasInPlaceReservation v) := fun hP => by
        cases hr.symm.trans ((h.reserved_iff hpre).1 hP.1)
        exact hpre hn'
      rw [ht.chanctxConf v (hS.lists.reserver v n hr) hnot]
      exact h.moved v n hn' hr hleaves
    · obtain rfl := mem_singleton.1 hn'
      obtain ⟨hr', hp⟩ := (hmoves v).2 ⟨hr, hleaves⟩
      exact ht.arrived v hr' hp
  · have hnot' : ¬((s.vif v).reservedChanctx = some c ∧ s.HasInPlaceReservation v) := fun hP => by
      obtain ⟨hr, hleaves⟩ := (hmoves v).1 hP
      exact hnot ⟨hleaves, c, by simp, hr⟩
    rw [ht.chanctxConf v hv hnot']
    exact h.chanctxConf v hv fun ⟨hleaves, n, hn, hr⟩ =>
      hnot ⟨hleaves, n, mem_append_left _ hn, hr⟩
  · by_cases hdc : d = c
    · -- somebody has joined it, or still waits for it
      subst hdc
      obtain ⟨w, hr, hw⟩ := hstays hd
      by_cases hp : s.HasInPlaceReservation w
      · have hmem := (ht.wf.lists.assigned d w).2 ⟨h.wf.lists.reserver w d hr, ht.arrived w hr hp⟩
        rw [hu.1] at hmem
        exact not_mem_nil hmem
      · have hmem := (ht.wf.lists.reserved d w).2 (ht.waiting w hr hp (hw.resolve_left hp))
        rw [hu.2] at hmem
        exact not_mem_nil hmem
    · -- nobody has left it
      refine h.used d (hsub d hd) hstate ⟨?_, ?_⟩ <;>
        refine eq_nil_iff_forall_not_mem.2 fun v hv => ?_
      · obtain ⟨hvlan, hconf⟩ := (h.wf.lists.assigned d v).1 hv
        have hnot : ¬((s.vif v).reservedChanctx = some c ∧ s.HasInPlaceReservation v) := by
          rintro ⟨-, o, ho, -, -, hwill, -⟩
          cases hconf.symm.trans ho
          exact hstate ((h.willBeReplaced_iff (hsub d hd)).1 hwill).1
        have hmem := (ht.wf.lists.assigned d v).2 ⟨hvlan, (ht.chanctxConf v hvlan hnot).trans hconf⟩
        rw [hu.1] at hmem
        exact not_mem_nil hmem
      · have hr := (h.wf.lists.reserved d v).1 hv
        have hr' : (s'.vif v).reservedChanctx = some d := by
          rcases ht.reservedChanctx v with hv | ⟨hrc, -⟩
          · exact hv.trans hr
          · exact absurd (Option.some.inj (hr.symm.trans hrc)) hdc
        have hmem := (ht.wf.lists.reserved d v).2 hr'
        rw [hu.2] at hmem
        exact not_mem_nil hmem

theorem takeOverAll (hS : ChanctxInv H none S) : ∀ (todo pre : List CtxId) (s : ChanLocal),
    SwitchInv H S pre s → S.chanctxList = pre ++ todo →
    (takeOverAll E todo s).1 = true ∧ SwitchInv H S S.chanctxList (takeOverAll E todo s).2 := by
  intro todo
  induction todo with
  | nil =>
    intro pre s h hlist
    rw [append_nil] at hlist
    exact ⟨rfl, hlist ▸ h⟩
  | cons c todo ih =>
    intro pre s h hlist
    have hlist' : S.chanctxList = (pre ++ [c]) ++ todo := by
      rw [hlist, append_assoc, singleton_append]
    have hpre := hS.not_mem_pre hlist
    have hc : c ∈ S.chanctxList := by rw [hlist]; simp
    have hcs := h.kept c hc (.inl hpre)
    rw [Mac80211.takeOverAll]
    split
    · rename_i hstate
      exact ih (pre ++ [c]) s (h.skip (mt (h.replacesOther_iff hcs).2 hstate)) hlist'
    · rename_i hstate
      have hstate := not_not.1 hstate
      obtain ⟨o, -, hr⟩ := h.wf.links.replacing c hcs hstate
      rw [hr.newCtx]
      exact ih (pre ++ [c]) _ (h.turn hS hlist hstate) hlist'

end SwitchInv

/-! ### The end of the switch -/

theorem ChanWf.freeReplaced (h : ChanWf H s) (hc : c ∈ s.chanctxList)
    (hwill : ∀ o ∈ s.chanctxList, (s.ctx o).replaceState = .willBeReplaced → (s.ctx o).assignedVifs = [])
    (hused : ∀ d ∈ s.chanctxList, (s.ctx d).replaceState ≠ .willBeReplaced → ¬s.Unused d) :
    ChanWf H (freeReplaced s c) ∧ (∀ d ∈ s.chanctxList, d ≠ c → d ∈ (freeReplaced s c).chanctxList) ∧
      (∀ o ∈ (freeReplaced s c).chanctxList, ((freeReplaced s c).ctx o).replaceState = .willBeReplaced →
        o ≠ c ∧ o ∈ s.chanctxList ∧ (s.ctx o).replaceState = .willBeReplaced ∧
          ((freeReplaced s c).ctx o).assignedVifs = []) ∧
      ∀ d ∈ (freeReplaced s c).chanctxList, ((freeReplaced s c).ctx d).replaceState ≠ .willBeReplaced →
        ¬(freeReplaced s c).Unused d := by
  rw [Mac80211.freeReplaced]
  split
  · rename_i hstate
    exact ⟨h, fun d hd _ => hd, fun o ho hs => ⟨fun hoc => hstate (hoc ▸ hs), ho, hs, hwill o ho hs⟩,
      hused⟩
  · rename_i hstate
    have hstate := not_not.1 hstate
    obtain ⟨n, hn, hr⟩ := h.links.replaced c hc hstate
    have hmem {d : CtxId} (hd : d ∈ ((s.unlink n).delCtx c).chanctxList) : d ≠ c ∧ d ∈ s.chanctxList :=
      h.lists.nodup.mem_erase_iff.1 hd
    have hunused : s.Unused c := ⟨hwill c hc hstate, h.unreserved c hc hstate⟩
    rw [hr.oldCtx]
    refine ⟨h.unlinkDel hunused (.inr hr), fun d hd hdc => (mem_erase_of_ne hdc).2 hd,
      fun o ho hs => ?_, fun d hd hs => ?_⟩
    · obtain ⟨hoc, ho⟩ := hmem ho
      rw [delCtx_ctx, unlink_ctx] at hs
      rw [delCtx_ctx, unlink_assignedVifs]
      split at hs
      · cases hs
      · exact ⟨hoc, ho, hs, hwill o ho hs⟩
    · obtain ⟨hdc, hds⟩ := hmem hd
      rw [Unused, delCtx_ctx, unlink_assignedVifs, unlink_reservedVifs]
      by_cases hdn : d = n
      · subst hdn
        exact hused d hds (by rw [hr.newState]; decide)
      · rw [delCtx_ctx, unlink_ctx, if_neg hdn] at hs
        exact hused d hds hs

theorem ChanWf.foldl_freeReplaced : ∀ (l : List CtxId) (s : ChanLocal), ChanWf H s → l.Nodup →
    (∀ c ∈ l, c ∈ s.chanctxList) → (∀ o ∈ s.chanctxList, (s.ctx o).replaceState = .willBeReplaced →
      o ∈ l ∧ (s.ctx o).assignedVifs = []) →
    (∀ d ∈ s.chanctxList, (s.ctx d).replaceState ≠ .willBeReplaced → ¬s.Unused d) →
    ChanctxInv H none (l.foldl Mac80211.freeReplaced s) := by
  intro l
  induction l with
  | nil =>
    intro s h _ _ hwill hused
    have hnot {o : CtxId} (ho : o ∈ s.chanctxList) : (s.ctx o).replaceState ≠ .willBeReplaced :=
      fun hs => not_mem_nil (hwill o ho hs).1
    refine ⟨h, fun n hn hs => ?_, fun d hd hu => absurd hu (hused d hd (hnot hd))⟩
    obtain ⟨o, ho, hr⟩ := h.links.replacing n hn hs
    exact absurd hr.oldState (hnot ho)
  | cons c l ih =>
    intro s h hnodup hl hwill hused
    obtain ⟨hcl, hnodup⟩ := nodup_cons.1 hnodup
    obtain ⟨h', hkeep, hwill', hused'⟩ := h.freeReplaced (hl c mem_cons_self)
      (fun o ho hs => (hwill o ho hs).2) hused
    refine ih _ h' hnodup (fun d hd => ?_) (fun o ho hs => ?_) hused'
    · exact hkeep d (hl d (mem_cons_of_mem c hd)) fun hdc => hcl (hdc ▸ hd)
    · obtain ⟨hoc, hos, hs', hassigned⟩ := hwill' o ho hs
      exact ⟨(mem_cons.1 (hwill o hos hs').1).resolve_left hoc, hassigned⟩

theorem freeReplaced_vif (s : ChanLocal) (c : CtxId) : (freeReplaced s c).vif = s.vif := by
  rw [freeReplaced]
  split
  · rfl
  · split
    · rfl
    · rfl

theorem foldl_freeReplaced_vif : ∀ (l : List CtxId) (s : ChanLocal),
    (l.foldl freeReplaced s).vif = s.vif := by
  intro l
  induction l with
  | nil => exact fun s => rfl
  | cons c l ih => exact fun s => (ih _).trans (freeReplaced_vif s c)

/-! ### A switch that fails -/

theorem ChanctxInv.switchFailed (h : ChanctxInv H none s) : ChanctxInv H none (switchFailed s) ∧
    ∀ w, ((switchFailed s).vif w).chanctxConf = (s.vif w).chanctxConf := by
  have hvifs : ∀ (l : List VifId) (s : ChanLocal), ChanctxInv H none s →
      ChanctxInv H none (l.foldl (fun s v => (vifUnreserveChanctx s v).2) s) ∧
      ∀ w, ((l.foldl (fun s v => (vifUnreserveChanctx s v).2) s).vif w).chanctxConf =
        (s.vif w).chanctxConf := by
    intro l
    induction l with
    | nil => exact fun s h => ⟨h, fun w => rfl⟩
    | cons v l ih =>
      intro s h
      obtain ⟨h', hconf⟩ := ih _ (h.unreserve v)
      exact ⟨h', fun w => (hconf w).trans (vifUnreserveChanctx_conf s v w)⟩
  have hctxs : ∀ (l : List CtxId) (s : ChanLocal), ChanctxInv H none s →
      ChanctxInv H none (l.foldl unreserveAll s) ∧
      ∀ w, ((l.foldl unreserveAll s).vif w).chanctxConf = (s.vif w).chanctxConf := by
    intro l
    induction l with
    | nil => exact fun s h => ⟨h, fun w => rfl⟩
    | cons c l ih =>
      intro s h
      have hturn : ChanctxInv H none (unreserveAll s c) ∧
          ∀ w, ((unreserveAll s c).vif w).chanctxConf = (s.vif w).chanctxConf := by
        rw [unreserveAll]
        split
        · exact ⟨h, fun w => rfl⟩
        · exact hvifs _ s h
      obtain ⟨h', hconf⟩ := ih _ hturn.1
      exact ⟨h', fun w => (hconf w).trans (hturn.2 w)⟩
  exact hctxs s.chanctxList s h

/-- Where all are ready and the driver switches, the switch is clean. -/
def SwitchKeeps (E : ChanEnv H) (s : ChanLocal) : Prop :=
  ∀ n ∈ (verifySwitch H s).toOption, switchDriver E s n = 0 → SwitchClean s
deriving Decidable

/-- Who is on an old context after the turns has been there before them, and does not leave it. -/
theorem SwitchInv.stayed (h : SwitchInv H S S.chanctxList s) (hS : ChanctxInv H none S)
    (hwill : (S.ctx o).replaceState = .willBeReplaced) (hv : v ∈ (s.ctx o).assignedVifs) :
    v ∈ (S.ctx o).assignedVifs ∧ ¬Leaves S v := by
  obtain ⟨hvlan, hconf⟩ := (h.wf.lists.assigned o v).1 hv
  have hnot : ¬(Leaves S v ∧ ∃ n ∈ S.chanctxList, (S.vif v).reservedChanctx = some n) := by
    rintro ⟨hleaves, n, hn, hr⟩
    cases hconf.symm.trans (h.moved v n hn hr hleaves)
    exact hS.reserved_ne_willBeReplaced hr hwill
  rw [h.chanctxConf v hvlan hnot] at hconf
  refine ⟨(hS.lists.assigned o v).2 ⟨hvlan, hconf⟩, fun hleaves => hnot ⟨hleaves, ?_⟩⟩
  obtain ⟨n, hn, -⟩ := hleaves
  exact ⟨n, hS.lists.mem_of_reserved hn, hn⟩

theorem SwitchInv.free (h : SwitchInv H S S.chanctxList s) (hS : ChanctxInv H none S)
    (hclean : SwitchClean S) : ChanctxInv H none (s.chanctxList.foldl freeReplaced s) := by
  refine h.wf.foldl_freeReplaced _ s h.wf.lists.nodup (fun c hc => hc) (fun o ho hs => ?_)
    fun d hd hs => ?_
  · obtain ⟨hwill, hlost⟩ := (h.willBeReplaced_iff ho).1 hs
    refine ⟨ho, eq_nil_iff_forall_not_mem.2 fun v hv => ?_⟩
    exact hlost ((hclean o (h.sub o ho) hwill).2 ⟨v, h.stayed hS hwill hv⟩)
  · by_cases hwill : (S.ctx d).replaceState = .willBeReplaced
    · have hlost : d ∈ lostBy S S.chanctxList := by
        by_contra hlost
        exact hs ((h.willBeReplaced_iff hd).2 ⟨hwill, hlost⟩)
      obtain ⟨v, hv, hstays⟩ := (hclean d (h.sub d hd) hwill).1 hlost
      obtain ⟨hvlan, hconf⟩ := (hS.lists.assigned d v).1 hv
      rintro ⟨hassigned, -⟩
      have hmem := (h.wf.lists.assigned d v).2
        ⟨hvlan, (h.chanctxConf v hvlan fun hl => hstays hl.1).trans hconf⟩
      rw [hassigned] at hmem
      exact not_mem_nil hmem
    · exact h.used d hd hwill

/-- **A switch keeps the contexts in order**, unless it frees one that is in use or leaves one
behind that is not. -/
theorem ChanctxInv.vifUseReservedSwitch (h : ChanctxInv H none s) (hkeeps : SwitchKeeps E s) :
    ChanctxInv H none (vifUseReservedSwitch E s).2 ∧
      ∀ v, H.iftype v ≠ .apVlan → (s.vif v).chanctxConf = none →
        (((Mac80211.vifUseReservedSwitch E s).2).vif v).chanctxConf = none := by
  have hfailed : ChanctxInv H none (Mac80211.switchFailed s) ∧
      ∀ v, H.iftype v ≠ .apVlan → (s.vif v).chanctxConf = none →
        ((Mac80211.switchFailed s).vif v).chanctxConf = none :=
    ⟨h.switchFailed.1, fun v _ hconf => (h.switchFailed.2 v).trans hconf⟩
  rw [Mac80211.vifUseReservedSwitch]
  split
  · exact ⟨h, fun v _ hconf => hconf⟩
  · exact hfailed
  · rename_i n hverify
    by_cases hdriver : switchDriver E s n = 0
    · obtain ⟨htrue, hinv⟩ := SwitchInv.takeOverAll (E := E) h s.chanctxList [] s h.switchInv rfl
      dsimp only
      rw [if_neg (not_not.2 hdriver)]
      generalize takeOverAll E s.chanctxList s = r at htrue hinv ⊢
      obtain ⟨b, s₁⟩ := r
      obtain rfl : b = true := htrue
      have hn : n ∈ (verifySwitch H s).toOption := by
        rw [hverify]
        rfl
      refine ⟨hinv.free h (hkeeps n hn hdriver), fun v hv hconf => ?_⟩
      dsimp only
      rw [foldl_freeReplaced_vif]
      refine (hinv.chanctxConf v hv fun hl => ?_).trans hconf
      obtain ⟨-, -, ⟨o, ho, -⟩, -⟩ := hl.1
      rw [hconf] at ho
      cases ho
    · dsimp only
      rw [if_pos hdriver]
      exact hfailed

end Mac80211
