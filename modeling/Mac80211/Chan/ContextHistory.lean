import Mac80211.Lib.Reach
import Mac80211.Chan.ContextReplace

/-!
# Any sequence of calls

The contexts are right after any sequence of calls, if the last interface never leaves a context
that is going to be replaced, unless the replacement is given up with it, and no switch frees a
context that an interface stays on.

The callers promise that they reserve for an interface without a reservation (`csa_active`), and
call nothing for VLAN interfaces, which get their context from their access point.

## Main definitions

* `ChanctxConsistent`, `KeepsContexts`

## Main results

* `chanctx_consistent` — after any calls that keep the contexts
-/

namespace Mac80211

open ChanLocal

variable {H : ChanHw} {E : ChanEnv H} {s s' : ChanLocal} {c n o : CtxId} {v : VifId}

/-! ### Lists and links -/

/-- The lists, the pointers and the links agree. -/
structure ChanctxConsistent (H : ChanHw) (s : ChanLocal) : Prop where
  /-- An interface is on the list of its context, once, and on no other. -/
  assigned : ∀ v c, H.iftype v ≠ .apVlan → (s.vif v).chanctxConf = some c → c ∈ s.chanctxList ∧
    (s.ctx c).assignedVifs.count v = 1 ∧ ∀ d, v ∈ (s.ctx d).assignedVifs → d = c
  /-- So is one that has reserved a context. -/
  reserved : ∀ v c, (s.vif v).reservedChanctx = some c → c ∈ s.chanctxList ∧
    (s.ctx c).reservedVifs.count v = 1 ∧ ∀ d, v ∈ (s.ctx d).reservedVifs → d = c
  /-- A context that none uses is gone. -/
  used : ∀ c ∈ s.chanctxList, s.refcount c ≠ 0
  /-- A context that replaces another one, and that one, point to each other. -/
  replacing : ∀ n ∈ s.chanctxList, (s.ctx n).replaceState = .replacesOther → ∃ o, s.Replaces n o
  replaced : ∀ o ∈ s.chanctxList, (s.ctx o).replaceState = .willBeReplaced → ∃ n, s.Replaces n o
  /-- No link goes to a context that was freed. -/
  live : ∀ c ∈ s.chanctxList, ∀ d ∈ (s.ctx c).replaceCtx, d ∈ s.chanctxList

theorem ChanctxInv.consistent (h : ChanctxInv H none s) : ChanctxConsistent H s where
  assigned v c hv hconf := by
    have hmem := (h.lists.assigned c v).2 ⟨hv, hconf⟩
    refine ⟨h.lists.mem_of_assigned hmem,
      List.count_eq_one_of_mem (h.lists.assigned_nodup c) hmem, fun d hd => ?_⟩
    exact Option.some.inj (((h.lists.assigned d v).1 hd).2.symm.trans hconf)
  reserved v c hr := by
    have hmem := (h.lists.reserved c v).2 hr
    refine ⟨h.lists.mem_of_reserved hr, List.count_eq_one_of_mem (h.lists.reserved_nodup c) hmem,
      fun d hd => ?_⟩
    exact Option.some.inj (((h.lists.reserved d v).1 hd).symm.trans hr)
  used c hc hu := by cases h.used c hc (refcount_eq_zero.1 hu)
  replacing n hn hs := by
    obtain ⟨o, -, hr⟩ := h.links.replacing n hn hs
    exact ⟨o, hr⟩
  replaced o ho hs := by
    obtain ⟨n, -, hr⟩ := h.links.replaced o ho hs
    exact ⟨n, hr⟩
  live c hc d hd := by
    cases hs : (s.ctx c).replaceState with
    | replaceNone =>
      have := (h.links.plain c hc hs).symm.trans hd
      cases this
    | willBeReplaced =>
      obtain ⟨n, hn, hr⟩ := h.links.replaced c hc hs
      cases hr.oldCtx.symm.trans hd
      exact hn
    | replacesOther =>
      obtain ⟨o, ho, hr⟩ := h.links.replacing c hc hs
      cases hr.newCtx.symm.trans hd
      exact ho

/-- Before the first call. -/
structure ChanLocal.Initial (s : ChanLocal) : Prop where
  chanctxList : s.chanctxList = []
  unused : ∀ c, s.Unused c
  chanctxConf : ∀ v, (s.vif v).chanctxConf = none
  reservedChanctx : ∀ v, (s.vif v).reservedChanctx = none

theorem ChanLocal.Initial.chanctxInv (h : s.Initial) : ChanctxInv H none s := by
  have hlist {c : CtxId} : c ∉ s.chanctxList := by
    rw [h.chanctxList]
    exact List.not_mem_nil
  refine ⟨⟨⟨?_, fun c hc => absurd hc hlist, fun c v => ?_, fun c => ?_, fun c v => ?_, fun c => ?_,
    fun v c hr => ?_, fun c _ => h.unused c⟩, ⟨fun c hc => absurd hc hlist, fun c hc => absurd hc hlist,
      fun c hc => absurd hc hlist⟩, fun c hc => absurd hc hlist⟩, fun c hc => absurd hc hlist,
    fun c hc => absurd hc hlist⟩
  · rw [h.chanctxList]
    exact List.nodup_nil
  · rw [(h.unused c).1, h.chanctxConf]
    simp
  · rw [(h.unused c).1]
    exact List.nodup_nil
  · rw [(h.unused c).2, h.reservedChanctx]
    simp
  · rw [(h.unused c).2]
    exact List.nodup_nil
  · rw [h.reservedChanctx] at hr
    cases hr

/-! ### One call -/

/-- What the callers promise. -/
def ChanCall.Promised (H : ChanHw) (s : ChanLocal) (call : ChanCall) : Prop :=
  H.iftype call.vif ≠ .apVlan ∧ (call.isReserve = true → (s.vif call.vif).reservedChanctx = none)
deriving Decidable

/-- A release that keeps the contexts in order. -/
def ReleaseKeeps (E : ChanEnv H) (s : ChanLocal) (v : VifId) : Prop :=
  ∀ c ∈ (s.vif v).chanctxConf, ¬FreesReplaced s v c ∧
    (readiesSwitch s v = true → SwitchKeeps E (releaseCtx E s v c))
deriving Decidable

/-- The interface moves to a context that is there, and its old one is freed and leaves a replacement
behind. -/
def MoveFrees (E : ChanEnv H) (s : ChanLocal) (v : VifId) (n o : CtxId) : Prop :=
  (s.ctx n).replaceState = .replaceNone ∧
    (s.nonReservedChandef n (some (s.vif v).reservedChandef)).isSome ∧
    drvSwitchVifChanctx E [⟨v, o, n⟩] .reassignVif = 0 ∧ FreesReplaced s v o
deriving Decidable

/-- A reservation is used, and the contexts are in order after it. -/
def UseKeeps (E : ChanEnv H) (s : ChanLocal) (v : VifId) : Prop :=
  ∀ n ∈ (s.vif v).reservedChanctx, (s.vif v).reservedReady = false →
    (∀ o ∈ (s.vif v).chanctxConf, ¬MoveFrees E s v n o) ∧
    ((useExisting E s v n).1 = 0 → mayFinalize (useExisting E s v n).2 (s.vif v).chanctxConf n = true →
      SwitchKeeps E (useExisting E s v n).2)
deriving Decidable

/-- A call that keeps the contexts in order. -/
def KeepsContexts (s : ChanLocal) : ChanCall × ChanEnv H → Prop
  | (.useChannel v _ _, E) => 0 ≤ E.dfsRequired → 0 ≤ E.checkCombinations → ReleaseKeeps E s v
  | (.releaseChannel v, E) => ReleaseKeeps E s v
  | (.reserveChanctx _ _ _, _) => True
  | (.unreserveChanctx _, _) => True
  | (.useReservedContext v, E) => UseKeeps E s v

instance : ∀ e : ChanCall × ChanEnv H, Decidable (KeepsContexts s e)
  | (.useChannel v _ _, E) => inferInstanceAs (Decidable (_ → _ → ReleaseKeeps E s v))
  | (.releaseChannel v, E) => inferInstanceAs (Decidable (ReleaseKeeps E s v))
  | (.reserveChanctx _ _ _, _) => .isTrue trivial
  | (.unreserveChanctx _, _) => .isTrue trivial
  | (.useReservedContext v, E) => inferInstanceAs (Decidable (UseKeeps E s v))

theorem releaseCtx_conf (hv : H.iftype v ≠ .apVlan) (hnan : H.iftype v ≠ .nan) :
    ((releaseCtx E s v c).vif v).chanctxConf = none := by
  have hfree (s : ChanLocal) : (s.freeUnused c).vif = s.vif := by
    rw [freeUnused]
    split
    · rfl
    · rfl
  have hset (s : ChanLocal) : ((s.setConf v none).vif v).chanctxConf = none := by
    rw [setConf_vif, if_pos rfl]
  rw [releaseCtx, hfree]
  generalize (if (s.vif v).reservedChanctx.isSome = true then (vifUnreserveChanctx s v).2 else s) = s₁
  rw [assignVifChanctx, if_neg hnan]
  cases (s₁.vif v).chanctxConf with
  | none => exact hset _
  | some d =>
    simp only [Option.isSome_some, if_true]
    split
    · have hsame := SameLinks.recalcChanctxChantype (E := E) ((s₁.delAssigned v).setConf v none) d
      exact (hsame.chanctxConf v hv).trans (hset _)
    · exact hset _

theorem ChanctxInv.vifReleaseChannel (h : ChanctxInv H none s) (hv : H.iftype v ≠ .apVlan)
    (hkeeps : ReleaseKeeps E s v) : ChanctxInv H none (vifReleaseChannel E s v) ∧
      (H.iftype v = .nan ∨ ((Mac80211.vifReleaseChannel E s v).vif v).chanctxConf = none) := by
  rw [Mac80211.vifReleaseChannel]
  split
  · rename_i hconf
    exact ⟨h, .inr hconf⟩
  · rename_i c hconf
    obtain ⟨hfree, hswitch⟩ := hkeeps c hconf
    have hrel := h.releaseCtx (E := E) hv hconf hfree
    have hnone : H.iftype v = .nan ∨ ((Mac80211.releaseCtx E s v c).vif v).chanctxConf = none :=
      or_iff_not_imp_left.2 (releaseCtx_conf hv)
    dsimp only
    split
    · rename_i hready
      obtain ⟨h', hconf'⟩ := hrel.vifUseReservedSwitch (hswitch hready)
      exact ⟨h', hnone.imp_right (hconf' v hv)⟩
    · exact ⟨hrel, hnone⟩

theorem ChanctxInv.vifUseChannel (h : ChanctxInv H none s) (hv : H.iftype v ≠ .apVlan)
    (hkeeps : 0 ≤ E.dfsRequired → 0 ≤ E.checkCombinations → ReleaseKeeps E s v) (chandef : ChanDef)
    (mode : ChanctxMode) : ChanctxInv H none (vifUseChannel E s v chandef mode).2 := by
  rw [Mac80211.vifUseChannel]
  split
  · exact h
  · rename_i hdfs
    split
    · exact h
    · rename_i hcomb
      obtain ⟨h₁, hconf₁⟩ := h.vifReleaseChannel hv (hkeeps (not_lt.1 hdfs) (not_lt.1 hcomb))
      generalize Mac80211.vifReleaseChannel E s v = s₁ at h₁ hconf₁ ⊢
      dsimp only
      split
      · exact h₁
      · rename_i c s₂ hfound
        obtain ⟨⟨x, hx, h₂⟩, hc, hstate, hvif⟩ := h₁.findOrNew hfound
        have hsame : SameLinks H s₂ (vifUpdateChandef E s₂ v chandef) := .vifUpdateChandef s₂ v chandef
        have hconf₂ : H.iftype v = .nan ∨
            ((vifUpdateChandef E s₂ v chandef).vif v).chanctxConf = none :=
          hconf₁.imp_right fun hconf => (hsame.chanctxConf v hv).trans (by rw [hvif]; exact hconf)
        have := (h₂.congr hsame).assignOrFree (E := E) hx hv hconf₂ (hsame.chanctxList ▸ hc)
          ((hsame.replaceState c).trans hstate)
        split
        · rename_i herr
          rwa [if_pos herr] at this
        · rename_i herr
          rwa [if_neg herr] at this

theorem ChanctxInv.markReady (h : ChanctxInv H none s) (v : VifId) :
    ChanctxInv H none (s.modVif v fun x => { x with reservedReady := true }) := by
  have hvif (w : VifId) : ((s.modVif v fun x => { x with reservedReady := true }).vif w).chanctxConf =
      (s.vif w).chanctxConf ∧
      ((s.modVif v fun x => { x with reservedReady := true }).vif w).reservedChanctx =
        (s.vif w).reservedChanctx := by
    rw [modVif_vif]
    split
    · subst w
      exact ⟨rfl, rfl⟩
    · exact ⟨rfl, rfl⟩
  refine { h with
    lists := { h.lists with
      assigned := fun c w => ?_
      reserved := fun c w => ?_
      reserver := fun w c hr => h.lists.reserver w c ((hvif w).2.symm.trans hr) }
    links := h.links.congr rfl (fun _ => rfl) fun _ => rfl }
  · rw [(hvif w).1]
    exact h.lists.assigned c w
  · rw [(hvif w).2]
    exact h.lists.reserved c w

theorem ChanctxInv.useExisting (h : ChanctxInv H none s) (hv : H.iftype v ≠ .apVlan)
    (hr : (s.vif v).reservedChanctx = some n)
    (hkeeps : ∀ o ∈ (s.vif v).chanctxConf, ¬MoveFrees E s v n o) :
    ChanctxInv H none (useExisting E s v n).2 := by
  have hready := h.markReady v
  have hvif : (s.modVif v fun x => { x with reservedReady := true }).vif v =
      { s.vif v with reservedReady := true } := by
    rw [modVif_vif, if_pos rfl]
  rw [Mac80211.useExisting]
  split
  · rename_i hstate
    split
    · refine hready.reassign hv fun m o hm ho hchandef hdriver hfree => ?_
      rw [hvif] at hm ho hchandef
      cases hr.symm.trans hm
      refine hkeeps o ho ⟨hstate, ?_, hdriver, hfree⟩
      have hvifs (w : VifId) : ((s.modVif v fun x => { x with reservedReady := true }).vif w).chandef =
          (s.vif w).chandef ∧ ((s.modVif v fun x => { x with reservedReady := true }).vif w).reservedChanctx =
            (s.vif w).reservedChanctx := by
        rw [modVif_vif]
        split
        · subst w
          exact ⟨rfl, rfl⟩
        · exact ⟨rfl, rfl⟩
      simpa only [nonReservedChandef, modVif_ctx, (hvifs _).1, (hvifs _).2] using hchandef
    · exact hready.assign hv
  · exact hready

theorem ChanctxInv.vifUseReservedContext (h : ChanctxInv H none s) (hv : H.iftype v ≠ .apVlan)
    (hkeeps : UseKeeps E s v) : ChanctxInv H none (vifUseReservedContext E s v).2 := by
  rw [Mac80211.vifUseReservedContext]
  split
  · exact h
  · rename_i n hr
    split
    · exact h
    · split
      · exact h
      · rename_i hready
        obtain ⟨hmove, hswitch⟩ := hkeeps n hr (Bool.eq_false_of_not_eq_true hready)
        have h₁ := h.useExisting (E := E) hv hr hmove
        generalize Mac80211.useExisting E s v n = r at h₁ hswitch ⊢
        obtain ⟨err, s₁⟩ := r
        dsimp only at h₁ hswitch ⊢
        split
        · exact h₁
        · rename_i herr
          split
          · rename_i hmay
            have h₂ := (h₁.vifUseReservedSwitch (hswitch (not_not.1 herr) hmay)).1
            split
            · exact h₂
            · exact h₂
          · exact h₁

/-- **What one call keeps.** -/
theorem ChanctxInv.step (h : ChanctxInv H none s) {e : ChanCall × ChanEnv H} {os : List ℤ}
    (hpromised : e.1.Promised H s) (hkeeps : KeepsContexts s e) (hs : chanStep H s e = some (s', os)) :
    ChanctxInv H none s' := by
  obtain ⟨call, E⟩ := e
  obtain ⟨hv, hreserve⟩ := hpromised
  cases call with
  | useChannel v chandef mode =>
    cases hs
    exact h.vifUseChannel hv hkeeps chandef mode
  | releaseChannel v =>
    cases hs
    exact (h.vifReleaseChannel hv hkeeps).1
  | reserveChanctx v chandef mode =>
    cases hs
    exact h.vifReserveChanctx hv (hreserve rfl) chandef mode
  | unreserveChanctx v =>
    cases hs
    exact h.unreserve v
  | useReservedContext v =>
    cases hs
    exact h.vifUseReservedContext hv hkeeps

theorem chanctxInv_of_reach {s₀ : ChanLocal} {os : List ℤ} (h₀ : s₀.Initial)
    (hr : Machine.Reach (chanStep H) (fun s _ e => e.1.Promised H s ∧ KeepsContexts s e) s₀ s os) :
    ChanctxInv H none s := by
  refine hr.invariant (fun s _ => ChanctxInv H none s) h₀.chanctxInv ?_
  intro s os e s' o h hC hs
  exact h.step hC.1 hC.2 hs

/-- **The contexts are in order** after any calls and answers, if no call frees a context that is
linked or in use, or leaves one behind that is not used. -/
theorem chanctx_consistent {H : ChanHw} {s₀ s : ChanLocal} {os : List ℤ} (h₀ : s₀.Initial)
    (hr : Machine.Reach (chanStep H) (fun s _ e => e.1.Promised H s ∧ KeepsContexts s e) s₀ s os) :
    ChanctxConsistent H s :=
  (chanctxInv_of_reach h₀ hr).consistent

/-! ### Runs -/

/-- A driver that does what it is asked for. -/
def ChanEnv.obliging (H : ChanHw) (maxNumChannels : ℤ) : ChanEnv H where
  interfaces := []
  running _ := true
  vlans _ := []
  vlans_type _ _ hw := absurd hw List.not_mem_nil
  tdlsChandefs := []
  dfsRequired := 0
  checkCombinations := 0
  maxNumChannels := maxNumChannels
  kzalloc := true
  kcalloc := true
  addChanctx _ := 0
  assignVifChanctx _ _ := 0
  switchVifChanctx _ _ := 0

/-- A driver that knows contexts, and stations. -/
def ChanHw.stations : ChanHw where
  useChanctx := true
  switchVifChanctx := true
  iftype _ := .station

/-- A channel of 20 MHz. -/
def ChanDef.ofFreq (freq : UInt32) : ChanDef where
  chan := some freq
  width := .w20
  centerFreq1 := freq

/-- No interface has a channel. -/
def ChanLocal.start : ChanLocal where
  chanctxList := []
  ctx _ := { confDef := .ofFreq 0 }
  nextCtx := 0
  vif _ := { chandef := .ofFreq 0, reservedChandef := .ofFreq 0 }

theorem ChanLocal.start_initial : ChanLocal.start.Initial :=
  ⟨rfl, fun _ => ⟨rfl, rfl⟩, fun _ => rfl, fun _ => rfl⟩

/-- Two stations on two channels announce that they move to the same third one, and do. -/
def movesTogether : List (ChanCall × ChanEnv ChanHw.stations) :=
  [.useChannel 0 (.ofFreq 5180) .shared, .useChannel 1 (.ofFreq 5200) .shared,
    .reserveChanctx 0 (.ofFreq 5220) .shared, .reserveChanctx 1 (.ofFreq 5220) .shared,
    .unreserveChanctx 1, .useReservedContext 0, .reserveChanctx 1 (.ofFreq 5220) .shared,
    .useReservedContext 1, .releaseChannel 0].map fun call => (call, .obliging _ 2)

theorem chanctx_consistent_moves : ∃ s : ChanLocal, ChanctxConsistent .stations s ∧
    s.chanctxList = [2] ∧ (s.ctx 2).assignedVifs = [1] := by
  have hrun : (Machine.run (chanStep .stations) .start movesTogether).map
      (fun p => (p.1.chanctxList, (p.1.ctx 2).assignedVifs)) = some ([2], [1]) := by
    decide +kernel
  have hmeets : Machine.Meets (chanStep .stations)
      (fun s _ e => e.1.Promised .stations s ∧ KeepsContexts s e) .start [] movesTogether := by
    decide +kernel
  obtain ⟨⟨s, os⟩, hrun, hs⟩ := Option.map_eq_some_iff.1 hrun
  obtain ⟨hlist, hassigned⟩ := Prod.mk.inj hs
  exact ⟨s, chanctx_consistent ChanLocal.start_initial (Machine.Reach.of_run .init hmeets hrun),
    hlist, hassigned⟩

/-- Two stations on two channels announce that they move to the same third one; the first one leaves. -/
def leavesReplacement : List (ChanCall × ChanEnv ChanHw.stations) :=
  [.useChannel 0 (.ofFreq 5180) .shared, .useChannel 1 (.ofFreq 5200) .shared,
    .reserveChanctx 0 (.ofFreq 5220) .shared, .reserveChanctx 1 (.ofFreq 5220) .shared,
    .releaseChannel 0].map fun call => (call, .obliging _ 2)

/-- **A replacement points to a freed context**, that of the first station; the replacement is there
for the second. -/
theorem replacement_dangles : ∃ (H : ChanHw) (s₀ s : ChanLocal) (os : List ℤ), s₀.Initial ∧
    Machine.Reach (chanStep H) (fun s _ e => e.1.Promised H s) s₀ s os ∧ ¬ChanctxConsistent H s := by
  have hrun : (Machine.run (chanStep .stations) .start leavesReplacement).map
      (fun p => (p.1.chanctxList, (p.1.ctx 2).replaceCtx)) = some ([2, 1], some 0) := by
    decide +kernel
  have hmeets : Machine.Meets (chanStep .stations) (fun s _ e => e.1.Promised .stations s) .start []
      leavesReplacement := by
    decide +kernel
  obtain ⟨⟨s, os⟩, hrun, hs⟩ := Option.map_eq_some_iff.1 hrun
  obtain ⟨hlist, hlink⟩ := Prod.mk.inj hs
  refine ⟨.stations, .start, s, os, ChanLocal.start_initial, Machine.Reach.of_run .init hmeets hrun,
    fun h => ?_⟩
  have hmem : 2 ∈ s.chanctxList := by
    rw [hlist]
    decide
  have := h.live 2 hmem 0 hlink
  rw [hlist] at this
  exact absurd this (by decide)

end Mac80211
