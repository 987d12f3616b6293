import Mac80211.Chan.ContextExact

/-!
# Who is moved by a switch

An interface that is ready moves in place if its own context is the one that is replaced. Otherwise
its reservation is deferred to the switch, where it is refused, since the context still replaces
another one; the interface is stopped.

## Main results

* `switchCompletes_iff` — when every ready interface is moved
-/

namespace Mac80211

open ChanLocal List

variable {H : ChanHw} {E : ChanEnv H} {S s s' : ChanLocal} {pre todo : List CtxId} {c d n o : CtxId}
  {v w : VifId}

/-! ### What the switch tells others -/

section Told

variable (E)

/-- A deferred reservation cannot be used, and `cfg80211_stop_iface` is called. -/
def deferredFails (c : CtxId) (s : ChanLocal) (v : VifId) : Bool :=
  !s.HasInPlaceReservation v && (s.vif v).reservedChanctx = some c && (s.vif v).reservedReady &&
    (if (s.vif v).chanctxConf.isSome then vifUseReservedReassign E s v
      else vifUseReservedAssign E s v).1 ≠ 0

/-- The interfaces that are stopped at the turn of a context. -/
def deferredStops (c : CtxId) : List VifId → ChanLocal → List VifId
  | [], _ => []
  | v :: vs, s =>
    (if deferredFails E c s v then [v] else []) ++ deferredStops c vs (useDeferred E c s v)

/-- The interfaces that are stopped by a switch. -/
def switchStops : List CtxId → ChanLocal → List VifId
  | [], _ => []
  | c :: cs, s =>
    if (s.ctx c).replaceState ≠ .replacesOther then switchStops cs s
    else
      match (s.ctx c).replaceCtx with
      | none => []
      | some _ =>
        deferredStops E c ((swapIn E c s).ctx c).reservedVifs (swapIn E c s) ++
          switchStops cs (takeOver E c s)

/-- `vif_chsw`, as `ieee80211_chsw_switch_vifs` fills it. -/
def switchEntries (s : ChanLocal) : List VifChanctxSwitch :=
  (s.chanctxList.filter fun c => (s.ctx c).replaceState = .replacesOther).flatMap fun c =>
    ((s.ctx c).reservedVifs.filter fun v => s.HasInPlaceReservation v).filterMap fun v =>
      (s.vif v).chanctxConf.map fun oldCtx => ⟨v, oldCtx, c⟩

end Told

/-- All that waited for the switch have moved, and nothing is left of it. -/
structure SwitchCompletes (E : ChanEnv H) (s : ChanLocal) : Prop where
  moved : ∀ c ∈ s.chanctxList, (s.ctx c).replaceState = .replacesOther → ∀ v ∈ (s.ctx c).reservedVifs,
    (s.vif v).reservedReady = true →
      ((vifUseReservedSwitch E s).2.vif v).chanctxConf = some c ∧
        v ∈ ((vifUseReservedSwitch E s).2.ctx c).assignedVifs ∧
        ((vifUseReservedSwitch E s).2.vif v).reservedChanctx = none ∧ v ∉ switchStops E s.chanctxList s
  counted : ∀ n, verifySwitch H s = .ok n → (switchEntries s).length = n.nVifsSwitch
  unlinked : ∀ c ∈ (vifUseReservedSwitch E s).2.chanctxList,
    ((vifUseReservedSwitch E s).2.ctx c).replaceState = .replaceNone

/-- Whoever is ready moves in place. -/
def AllInPlace (s : ChanLocal) : Prop :=
  ∀ c ∈ s.chanctxList, (s.ctx c).replaceState = .replacesOther → ∀ v ∈ (s.ctx c).reservedVifs,
    (s.vif v).reservedReady = true → s.HasInPlaceReservation v
deriving Decidable

/-! ### The count -/

/-- The interface is counted in `n_vifs_switch`. -/
def countsSwitch (s : ChanLocal) (v : VifId) : Bool :=
  (s.vif v).chanctxConf.any fun o => (s.ctx o).replaceState = .willBeReplaced

theorem count_countVifs : ∀ (l : List VifId) {n n' : SwitchCounts}, countVifs s l n = .ok n' →
    n'.nVifsSwitch = n.nVifsSwitch + (l.filter (countsSwitch s)).length := by
  intro l
  induction l with
  | nil =>
    rintro n n' ⟨⟩
    rfl
  | cons v l ih =>
    intro n n' h
    rw [countVifs] at h
    split at h
    · cases h
    · have ih := ih h
      rw [filter_cons, countsSwitch]
      cases hconf : (s.vif v).chanctxConf with
      | none => simpa [hconf] using ih
      | some o =>
        rw [hconf] at ih
        by_cases ho : (s.ctx o).replaceState = .willBeReplaced
        · simp only [ho, if_true] at ih
          simp only [Option.any_some, ho, decide_true, if_true, length_cons]
          omega
        · simpa [ho] using ih

/-- An interface that has reserved a replacing context is told of just if it is counted. -/
theorem length_entries (h : ChanWf H s) (hc : (s.ctx c).replaceState = .replacesOther) :
    (((s.ctx c).reservedVifs.filter fun v => s.HasInPlaceReservation v).filterMap fun v =>
      (s.vif v).chanctxConf.map fun oldCtx => (⟨v, oldCtx, c⟩ : VifChanctxSwitch)).length =
        ((s.ctx c).reservedVifs.filter (countsSwitch s)).length := by
  have hplace : ∀ v ∈ (s.ctx c).reservedVifs, s.HasInPlaceReservation v ↔ countsSwitch s v = true := by
    intro v hv
    rw [HasInPlaceReservation, (h.lists.reserved c v).1 hv, countsSwitch, Option.any_eq_true]
    simp [hc]
  have hfilter : (s.ctx c).reservedVifs.filter (fun v => decide (s.HasInPlaceReservation v)) =
      (s.ctx c).reservedVifs.filter (countsSwitch s) :=
    filter_congr fun v hv => by simp only [hplace v hv, Bool.decide_eq_true]
  rw [hfilter]
  generalize (s.ctx c).reservedVifs = l
  induction l with
  | nil => rfl
  | cons v l ih =>
    by_cases hv : countsSwitch s v = true
    · obtain ⟨o, ho, -⟩ := (Option.any_eq_true _ _).1 hv
      simp [hv, ho, ih]
    · simp [hv, ih]

theorem count_countCtxs (h : ChanWf H s) : ∀ (l : List CtxId) {n n' : SwitchCounts},
    countCtxs H s l n = .ok n' → n'.nVifsSwitch = n.nVifsSwitch +
      ((l.filter fun c => (s.ctx c).replaceState = .replacesOther).flatMap fun c =>
        ((s.ctx c).reservedVifs.filter fun v => s.HasInPlaceReservation v).filterMap fun v =>
          (s.vif v).chanctxConf.map fun oldCtx => (⟨v, oldCtx, c⟩ : VifChanctxSwitch)).length := by
  intro l
  induction l with
  | nil =>
    rintro n n' ⟨⟩
    rfl
  | cons c l ih =>
    intro n n' hn
    rw [countCtxs] at hn
    rw [filter_cons]
    by_cases hstate : (s.ctx c).replaceState = .replacesOther
    · rw [if_neg (not_not.2 hstate)] at hn
      split at hn
      · cases hn
      · dsimp only at hn
        split at hn
        · cases hn
        · split at hn
          · cases hn
          · rename_i n₁ hvifs
            rw [if_pos (decide_eq_true hstate), flatMap_cons, length_append, ih hn,
              count_countVifs _ hvifs, length_entries h hstate]
            exact Nat.add_assoc ..
    · rw [if_pos hstate] at hn
      rw [if_neg (by simpa using hstate)]
      exact ih hn

/-! ### The last loop -/

theorem foldl_freeReplaced_state (d : CtxId) : ∀ (l : List CtxId) (s : ChanLocal),
    ((l.foldl freeReplaced s).ctx d).replaceState = (s.ctx d).replaceState ∨
      ((l.foldl freeReplaced s).ctx d).replaceState = .replaceNone := by
  intro l
  induction l with
  | nil => exact fun s => .inl rfl
  | cons c l ih =>
    intro s
    have hturn : ((freeReplaced s c).ctx d).replaceState = (s.ctx d).replaceState ∨
        ((freeReplaced s c).ctx d).replaceState = .replaceNone := by
      rw [freeReplaced]
      split
      · exact .inl rfl
      · split
        · exact .inl rfl
        · rw [delCtx_ctx, unlink_ctx]
          split
          · exact .inr rfl
          · exact .inl rfl
    rcases ih (freeReplaced s c) with h | h
    · rw [foldl_cons, h]
      exact hturn
    · exact .inr h

theorem replaceState_foldl_freeReplaced : ∀ (l : List CtxId) (s : ChanLocal),
    (∀ c ∈ l, (s.ctx c).replaceState = .willBeReplaced →
      ∀ n ∈ (s.ctx c).replaceCtx, (s.ctx n).replaceState ≠ .willBeReplaced) →
    o ∈ l → s.Replaces d o → ((l.foldl freeReplaced s).ctx d).replaceState = .replaceNone := by
  intro l
  induction l with
  | nil => exact fun s _ ho => absurd ho not_mem_nil
  | cons c l ih =>
    intro s hlinks ho hr
    have hlinks' : ∀ c ∈ l, _ := fun c hc => hlinks c (mem_cons_of_mem _ hc)
    rw [foldl_cons]
    by_cases hc : (s.ctx c).replaceState = .willBeReplaced
    · cases hn : (s.ctx c).replaceCtx with
      | none =>
        have hfree : freeReplaced s c = s := by rw [freeReplaced, if_neg (not_not.2 hc), hn]
        rw [hfree]
        refine ih s hlinks' ((mem_cons.1 ho).resolve_left ?_) hr
        rintro rfl
        have := hn.symm.trans hr.oldCtx
        cases this
      | some n =>
        have hfree : freeReplaced s c = (s.unlink n).delCtx c := by
          rw [freeReplaced, if_neg (not_not.2 hc), hn]
        have hctx (e : CtxId) : (freeReplaced s c).ctx e = if e = n then
            { s.ctx n with replaceCtx := none, replaceState := .replaceNone } else s.ctx e := by
          rw [hfree, delCtx_ctx, unlink_ctx]
        by_cases hdn : d = n
        · rcases foldl_freeReplaced_state d l (freeReplaced s c) with h | h
          · rw [h, hctx, if_pos hdn]
          · exact h
        · have hon : o ≠ n := fun hon => hlinks c mem_cons_self hc n hn (hon ▸ hr.oldState)
          refine ih _ (fun e he => ?_) ((mem_cons.1 ho).resolve_left ?_) ?_
          · rw [hctx]
            split
            · rintro ⟨⟩
            · intro hs m hm
              rw [hctx]
              split
              · rintro ⟨⟩
              · exact hlinks' e he hs m hm
          · rintro rfl
            exact hdn (Option.some.inj (hr.oldCtx.symm.trans hn))
          · rw [hfree]
            exact (hr.unlink hdn hon).delCtx c
    · have hfree : freeReplaced s c = s := by rw [freeReplaced, if_pos hc]
      rw [hfree]
      refine ih s hlinks' ((mem_cons.1 ho).resolve_left ?_) hr
      rintro rfl
      exact hc hr.oldState

theorem SwitchInv.unlinked (h : SwitchInv H S S.chanctxList s) :
    ∀ c ∈ (s.chanctxList.foldl freeReplaced s).chanctxList,
      ((s.chanctxList.foldl freeReplaced s).ctx c).replaceState = .replaceNone := by
  intro c hc
  have hold : ∀ o ∈ s.chanctxList, (s.ctx o).replaceState = .willBeReplaced → ∃ n, s.Replaces n o :=
    fun o ho hs => (h.wf.links.replaced o ho hs).imp fun n hn => hn.2
  obtain ⟨hcs, hnot⟩ := (mem_foldl_freeReplaced _ s h.wf.lists.nodup h.wf.lists.nodup hold).1 hc
  rcases foldl_freeReplaced_state c s.chanctxList s with hstate | hstate
  · cases hs : (s.ctx c).replaceState with
    | replaceNone => rw [hstate, hs]
    | willBeReplaced => exact absurd ⟨hcs, hs⟩ hnot
    | replacesOther =>
      obtain ⟨o, ho, hr⟩ := h.wf.links.replacing c hcs hs
      refine replaceState_foldl_freeReplaced _ s (fun e he hwill n hn => ?_) ho hr
      obtain ⟨m, hm⟩ := hold e he hwill
      cases hm.oldCtx.symm.trans hn
      rw [hm.newState]
      decide
  · exact hstate

/-! ### All in place -/

theorem AllInPlace.lostBy_eq (hall : AllInPlace S) (hS : ChanctxInv H none S) :
    ∀ l : List CtxId, (∀ c ∈ l, c ∈ S.chanctxList) → lostBy S l = [] := by
  intro l
  induction l using List.reverseRecOn with
  | nil => exact fun _ => rfl
  | append_singleton l c ih =>
    intro hl
    rw [lostBy_concat, ih fun d hd => hl d (mem_append_left _ hd), lostAtTurn, if_neg]
    rintro ⟨hstate, hg⟩
    have hc : c ∈ S.chanctxList := hl c (by simp)
    have hne : (S.ctx c).reservedVifs ≠ [] := fun hnil => by
      cases hS.used c hc ⟨hS.unassigned c hc hstate, hnil⟩
    obtain ⟨w, hw⟩ := exists_mem_of_ne_nil _ hne
    obtain ⟨hleaves, hready⟩ := hg w hw
    exact hleaves ⟨hall c hc hstate w hw hready, fun _ _ => not_mem_nil⟩

theorem foldl_useDeferred_of_not_ready (c : CtxId) (s : ChanLocal) : ∀ l : List VifId,
    (∀ v ∈ l, (s.vif v).reservedReady = false) →
      l.foldl (useDeferred E c) s = s ∧ deferredStops E c l s = [] := by
  intro l
  induction l with
  | nil => exact fun _ => ⟨rfl, rfl⟩
  | cons v l ih =>
    intro hl
    have hv := hl v mem_cons_self
    have huse : useDeferred E c s v = s := by
      rw [useDeferred]
      split
      · rfl
      · split
        · rfl
        · rw [if_pos (by rw [hv]; rfl)]
    obtain ⟨hfold, hstops⟩ := ih fun w hw => hl w (mem_cons_of_mem v hw)
    rw [foldl_cons, deferredStops, huse]
    refine ⟨hfold, ?_⟩
    rw [hstops, deferredFails, hv]
    simp

theorem SwitchInv.turn_inPlace (h : SwitchInv H S pre s) (hS : ChanctxInv H none S) (hall : AllInPlace S)
    (hlist : S.chanctxList = pre ++ c :: todo) (hstate : (s.ctx c).replaceState = .replacesOther) :
    deferredStops E c ((swapIn E c s).ctx c).reservedVifs (swapIn E c s) = [] ∧
      (∀ v, (S.vif v).reservedChanctx = some c → (S.vif v).reservedReady = true →
        ((takeOver E c s).vif v).reservedChanctx = none) ∧
      ∀ v, (s.vif v).reservedChanctx = none → ((takeOver E c s).vif v).reservedChanctx = none := by
  have hpre := hS.not_mem_pre hlist
  have hc : c ∈ S.chanctxList := by rw [hlist]; simp
  have hcs := h.kept c hc (.inl hpre)
  have hstateS := (h.replacesOther_iff hcs).1 hstate
  have hlost : lostBy S pre = [] := hall.lostBy_eq hS pre fun d hd => by
    rw [hlist]
    exact mem_append_left _ hd
  have hplace : ∀ v, (S.vif v).reservedChanctx = some c → (S.vif v).reservedReady = true →
      s.HasInPlaceReservation v := by
    intro v hr hready
    rw [h.hasInPlaceReservation_iff hS hlist hr, hlost]
    exact ⟨hall c hc hstateS v ((hS.lists.reserved c v).2 hr) hready, fun _ _ => not_mem_nil⟩
  have hswap := h.wf.swapIn (E := E) hcs (h.assigned_eq_nil hS hc hpre hstateS)
  have hwait : ∀ v ∈ ((swapIn E c s).ctx c).reservedVifs,
      ((swapIn E c s).vif v).reservedReady = false := by
    intro v hv
    obtain ⟨hr, hnot⟩ := hswap.mem_reservedVifs.1 hv
    rw [hswap.reservedReady, h.reservedReady]
    by_contra hready
    exact hnot (hplace v ((h.reserved_iff hpre).1 hr) (by simpa using hready))
  obtain ⟨hfold, hstops⟩ := foldl_useDeferred_of_not_ready (E := E) c _ _ hwait
  have htake : takeOver E c s = swapIn E c s := hfold
  rw [htake]
  refine ⟨hstops, fun v hr hready => ?_, fun v hnone => ?_⟩
  · rw [hswap.reservedChanctx, if_pos ⟨(h.reserved_iff hpre).2 hr, hplace v hr hready⟩]
  · rw [hswap.reservedChanctx]
    split
    · rfl
    · exact hnone

theorem SwitchInv.turns_inPlace (hS : ChanctxInv H none S) (hall : AllInPlace S) :
    ∀ (todo pre : List CtxId) (s : ChanLocal), SwitchInv H S pre s → S.chanctxList = pre ++ todo →
      (∀ v, ∀ n ∈ pre, (S.ctx n).replaceState = .replacesOther → (S.vif v).reservedChanctx = some n →
        (S.vif v).reservedReady = true → (s.vif v).reservedChanctx = none) →
      switchStops E todo s = [] ∧ ∀ v, ∀ n ∈ S.chanctxList, (S.ctx n).replaceState = .replacesOther →
        (S.vif v).reservedChanctx = some n → (S.vif v).reservedReady = true →
          ((Mac80211.takeOverAll E todo s).2.vif v).reservedChanctx = none := by
  intro todo
  induction todo with
  | nil =>
    intro pre s _ hlist hdone
    rw [append_nil] at hlist
    exact ⟨rfl, hlist ▸ hdone⟩
  | cons c todo ih =>
    intro pre s h hlist hdone
    have hlist' : S.chanctxList = (pre ++ [c]) ++ todo := by
      rw [hlist, append_assoc, singleton_append]
    have hpre := hS.not_mem_pre hlist
    have hcs := h.kept c (by rw [hlist]; simp) (.inl hpre)
    rw [switchStops, Mac80211.takeOverAll]
    by_cases hstate : (s.ctx c).replaceState = .replacesOther
    · obtain ⟨o, -, hr⟩ := h.wf.links.replacing c hcs hstate
      obtain ⟨hstops, hturn, hnone⟩ := h.turn_inPlace (E := E) hS hall hlist hstate
      rw [if_neg (not_not.2 hstate), if_neg (not_not.2 hstate), hr.newCtx]
      dsimp only
      rw [hstops, nil_append]
      refine ih (pre ++ [c]) _ (h.turn hS hlist hstate) hlist' fun v n hn hs hres hready => ?_
      rcases mem_append.1 hn with hn | hn
      · exact hnone v (hdone v n hn hs hres hready)
      · obtain rfl := mem_singleton.1 hn
        exact hturn v hres hready
    · rw [if_pos hstate, if_pos hstate]
      have hstateS := mt (h.replacesOther_iff hcs).2 hstate
      refine ih (pre ++ [c]) s (h.skip hstateS) hlist' fun v n hn hs hres hready => ?_
      rcases mem_append.1 hn with hn | hn
      · exact hdone v n hn hs hres hready
      · obtain rfl := mem_singleton.1 hn
        exact absurd hs hstateS

theorem verifySwitch_err {err : ℤ} (h : verifySwitch H s = .error (.err err)) : err ≠ 0 := by
  have hvifs : ∀ (l : List VifId) (n : SwitchCounts), countVifs s l n ≠ .error (.err err) := by
    intro l
    induction l with
    | nil => rintro n ⟨⟩
    | cons v l ih =>
      intro n
      rw [countVifs]
      split
      · rintro ⟨⟩
      · exact ih _
  have hctxs : ∀ (l : List CtxId) (n : SwitchCounts), countCtxs H s l n = .error (.err err) → err ≠ 0 := by
    intro l
    induction l with
    | nil => rintro n ⟨⟩
    | cons c l ih =>
      intro n hn
      rw [countCtxs] at hn
      split at hn
      · exact ih n hn
      · split at hn
        · obtain rfl := SwitchStop.err.inj (Except.error.inj hn)
          decide
        · dsimp only at hn
          split at hn
          · split at hn
            · obtain rfl := SwitchStop.err.inj (Except.error.inj hn)
              decide
            · cases hn
          · split at hn
            · rename_i e he
              obtain rfl := Except.error.inj hn
              exact absurd he (hvifs _ _)
            · exact ih _ hn
  rw [verifySwitch] at h
  split at h
  · rename_i e he
    obtain rfl := Except.error.inj h
    exact hctxs _ _ he
  · split at h
    · obtain rfl := SwitchStop.err.inj (Except.error.inj h)
      decide
    · cases h

theorem vifUseReservedSwitch_of_zero (h : ChanctxInv H none s) (hret : (vifUseReservedSwitch E s).1 = 0) :
    SwitchInv H s s.chanctxList (takeOverAll E s.chanctxList s).2 ∧
      (vifUseReservedSwitch E s).2 = (takeOverAll E s.chanctxList s).2.chanctxList.foldl freeReplaced
        (takeOverAll E s.chanctxList s).2 := by
  obtain ⟨htrue, hinv⟩ := SwitchInv.takeOverAll (E := E) h s.chanctxList [] s h.switchInv rfl
  refine ⟨hinv, ?_⟩
  rw [vifUseReservedSwitch] at hret ⊢
  cases hverify : verifySwitch H s with
  | error e =>
    rw [hverify] at hret
    cases e with
    | again => cases hret
    | err err => exact absurd hret (verifySwitch_err hverify)
  | ok n =>
    rw [hverify] at hret
    dsimp only at hret ⊢
    by_cases herr : switchDriver E s n = 0
    · rw [if_neg (not_not.2 herr)]
      generalize takeOverAll E s.chanctxList s = r at htrue ⊢
      obtain ⟨b, s₁⟩ := r
      obtain rfl : b = true := htrue
      rfl
    · rw [if_pos herr] at hret
      exact absurd hret herr

/-- **A switch completes exactly when** all who are ready move in place. -/
theorem switchCompletes_iff (E : ChanEnv H) (s : ChanLocal) (h : ChanctxInv H none s)
    (hret : (vifUseReservedSwitch E s).1 = 0) : SwitchCompletes E s ↔ AllInPlace s := by
  obtain ⟨hinv, hs'⟩ := vifUseReservedSwitch_of_zero h hret
  constructor
  · intro hdone c hc hstate v hv hready
    by_contra hnot
    have hr := (h.lists.reserved c v).1 hv
    have hvlan := h.lists.reserver v c hr
    have hconf := (hdone.moved c hc hstate v hv hready).1
    have hstays : ¬(Leaves s v ∧ ∃ n ∈ s.chanctxList, (s.vif v).reservedChanctx = some n) := by
      rintro ⟨⟨_, _, hleaves⟩, _⟩
      exact hnot hleaves.1
    rw [hs', foldl_freeReplaced_vif, hinv.chanctxConf v hvlan hstays] at hconf
    have hmem := (h.lists.assigned c v).2 ⟨hvlan, hconf⟩
    rw [h.unassigned c hc hstate] at hmem
    exact not_mem_nil hmem
  · intro hall
    obtain ⟨hstops, hnone⟩ := SwitchInv.turns_inPlace (E := E) h hall s.chanctxList [] s h.switchInv rfl
      fun _ _ hn => absurd hn not_mem_nil
    refine ⟨fun c hc hstate v hv hready => ?_, fun n hn => ?_, ?_⟩
    · have hr := (h.lists.reserved c v).1 hv
      have hvlan := h.lists.reserver v c hr
      have hleaves : Leaves s v := by
        refine ⟨c, hr, hall c hc hstate v hv hready, fun _ _ => ?_⟩
        rw [hall.lostBy_eq h _ fun d hd => (takeWhile_sublist _).subset hd]
        exact not_mem_nil
      have hconf := hinv.moved v c hc hr hleaves
      rw [hs', foldl_freeReplaced_vif, (foldl_freeReplaced_lists c _ _).1, hstops]
      exact ⟨hconf, (hinv.wf.lists.assigned c v).2 ⟨hvlan, hconf⟩, hnone v c hc hstate hr hready,
        not_mem_nil⟩
    · rw [verifySwitch] at hn
      split at hn
      · cases hn
      · rename_i n₁ hcount
        split at hn
        · cases hn
        · obtain rfl := Except.ok.inj hn
          rw [count_countCtxs h.toChanWf _ hcount]
          exact (Nat.zero_add _).symm
    · rw [hs']
      exact hinv.unlinked

/-- An interface that is not ready is marked, as `ieee80211_vif_use_reserved_context` does first. -/
def marked (s : ChanLocal) (v : VifId) : ChanLocal :=
  s.modVif v fun x => { x with reservedReady := true }

/-- A station on the only channel there may be announces a move. -/
def announces : List (ChanCall × ChanEnv ChanHw.stations) :=
  [.useChannel 0 (.ofFreq 5180) .shared, .reserveChanctx 0 (.ofFreq 5220) .shared].map fun call =>
    (call, .obliging _ 1)

theorem switchCompletes_one : ∃ s : ChanLocal, s.chanctxList = [1, 0] ∧
    SwitchCompletes (.obliging .stations 1) (marked s 0) := by
  have hrun : (Machine.run (chanStep .stations) .start announces).map (fun p => (p.1.chanctxList,
      (vifUseReservedSwitch (.obliging .stations 1) (marked p.1 0)).1,
      decide (AllInPlace (marked p.1 0)))) = some ([1, 0], 0, true) := by
    decide +kernel
  have hmeets : Machine.Meets (chanStep .stations)
      (fun s _ e => e.1.Promised .stations s ∧ KeepsContexts s e) .start [] announces := by
    decide +kernel
  obtain ⟨⟨s, os⟩, hrun, hs⟩ := Option.map_eq_some_iff.1 hrun
  obtain ⟨hlist, hs⟩ := Prod.mk.inj hs
  obtain ⟨hret, hall⟩ := Prod.mk.inj hs
  have hinv := chanctxInv_of_reach ChanLocal.start_initial (Machine.Reach.of_run .init hmeets hrun)
  exact ⟨s, hlist, (switchCompletes_iff _ _ (hinv.markReady 0) hret).2 (of_decide_eq_true hall)⟩

/-- A second station, without a channel, waits for the same move and is ready first. -/
def waitsForMove : List (ChanCall × ChanEnv ChanHw.stations) :=
  [.useChannel 0 (.ofFreq 5180) .shared, .reserveChanctx 0 (.ofFreq 5220) .shared,
    .reserveChanctx 1 (.ofFreq 5220) .shared, .useReservedContext 1].map fun call => (call, .obliging _ 1)

/-- **A deferred reservation is not used**: the switch returns 0, and the second station is stopped. -/
theorem deferred_is_stopped : ∃ (H : ChanHw) (E : ChanEnv H) (s₀ s : ChanLocal) (os : List ℤ),
    s₀.Initial ∧ Machine.Reach (chanStep H) (fun s _ e => e.1.Promised H s ∧ KeepsContexts s e) s₀ s os ∧
      (vifUseReservedSwitch E (marked s 0)).1 = 0 ∧ ¬SwitchCompletes E (marked s 0) := by
  have hrun : (Machine.run (chanStep .stations) .start waitsForMove).map (fun p => decide
      (1 ∈ p.1.chanctxList ∧ (p.1.ctx 1).replaceState = .replacesOther ∧ 1 ∈ (p.1.ctx 1).reservedVifs ∧
        (p.1.vif 1).reservedReady ∧ (vifUseReservedSwitch (.obliging .stations 1) (marked p.1 0)).1 = 0 ∧
        switchStops (.obliging .stations 1) p.1.chanctxList (marked p.1 0) = [1])) = some true := by
    decide +kernel
  have hmeets : Machine.Meets (chanStep .stations)
      (fun s _ e => e.1.Promised .stations s ∧ KeepsContexts s e) .start [] waitsForMove := by
    decide +kernel
  obtain ⟨⟨s, os⟩, hrun, hs⟩ := Option.map_eq_some_iff.1 hrun
  obtain ⟨hc, hstate, hv, hready, hret, hstops⟩ := of_decide_eq_true hs
  refine ⟨.stations, .obliging _ 1, .start, s, os, ChanLocal.start_initial,
    Machine.Reach.of_run .init hmeets hrun, hret, fun hdone => ?_⟩
  obtain ⟨-, -, -, hnot⟩ := hdone.moved 1 hc hstate 1 hv hready
  have hstops : switchStops (.obliging .stations 1) (marked s 0).chanctxList (marked s 0) = [1] := hstops
  rw [hstops] at hnot
  exact hnot (mem_singleton_self 1)

end Mac80211
