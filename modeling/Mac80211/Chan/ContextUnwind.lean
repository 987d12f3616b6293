import Mac80211.Chan.ContextHistory

/-!
# Undoing an exchange of contexts

`ieee80211_chsw_switch_ctxs` and the contexts that the driver knows, those with `driver_present`. If
the driver does not add a context, the pairs before it are exchanged back; at the pair where it
stopped, the new context is added a second time, and not the old one.

## Main results

* `fst_switchCtxs` — the error is that of `chswSwitchCtxs`
* `exchangeRight_iff` — when an exchange is all or nothing
-/

namespace Mac80211

open List

variable {add again : CtxId → ℤ} {s : ChanLocal} {l : List CtxId} {c d o : CtxId}

/-- `drv_add_chanctx`, and what the driver answers. -/
def drvAddChanctx (err : ℤ) (c : CtxId) (present : Finset CtxId) : Finset CtxId :=
  if err = 0 then insert c present else present

/-- `drv_remove_chanctx`. -/
def drvRemoveChanctx (c : CtxId) (present : Finset CtxId) : Finset CtxId := present.erase c

/-- The context that a context is exchanged for, if it replaces one without interfaces. -/
def ChanLocal.exchanged (s : ChanLocal) (c : CtxId) : Option CtxId :=
  if (s.ctx c).replaceState ≠ .replacesOther then none
  else (s.ctx c).replaceCtx.filter fun o => (s.ctx o).assignedVifs.isEmpty

/-- The walk back over the contexts before the one that failed. -/
def unwindCtxs (again : CtxId → ℤ) (s : ChanLocal) : List CtxId → Finset CtxId → Finset CtxId
  | [], present => present
  | c :: done, present =>
    match s.exchanged c with
    | none => unwindCtxs again s done present
    | some o => unwindCtxs again s done (drvAddChanctx (again o) o (drvRemoveChanctx c present))

/-- `ieee80211_chsw_switch_ctxs`: `add` is what the driver answers at first, and `again` what it answers
when the exchange is undone. -/
def switchCtxs (add again : CtxId → ℤ) (s : ChanLocal) :
    List CtxId → List CtxId → Finset CtxId → ℤ × Finset CtxId
  | [], _, present => (0, present)
  | c :: todo, done, present =>
    match s.exchanged c with
    | none => switchCtxs add again s todo (c :: done) present
    | some o =>
      let err := add c
      let present := drvAddChanctx err c (drvRemoveChanctx o present)
      if err ≠ 0 then (err, unwindCtxs again s done (drvAddChanctx (again c) c present))
      else switchCtxs add again s todo (c :: done) present

/-- All or nothing. -/
def ExchangeRight (add again : CtxId → ℤ) (s : ChanLocal) (present : Finset CtxId) : Prop :=
  let r := switchCtxs add again s s.chanctxList [] present
  (r.1 ≠ 0 → r.2 = present) ∧
    (r.1 = 0 → ∀ d, d ∈ r.2 ↔ (d ∈ s.chanctxList ∧ (s.exchanged d).isSome) ∨
      d ∈ present ∧ ∀ c ∈ s.chanctxList, s.exchanged c ≠ some d)

/-- The links are symmetric where contexts are exchanged. -/
def ChanLocal.Paired (s : ChanLocal) : Prop :=
  ∀ n ∈ s.chanctxList, (s.ctx n).replaceState = .replacesOther → ∃ o, s.Replaces n o

theorem ChanLocal.Paired.replaces (h : s.Paired) (hc : c ∈ s.chanctxList) (ho : s.exchanged c = some o) :
    s.Replaces c o := by
  rw [exchanged] at ho
  split at ho
  · cases ho
  · rename_i hstate
    obtain ⟨o', hr⟩ := h c hc (not_not.1 hstate)
    have ho := (Option.filter_eq_some_iff.1 ho).1
    cases hr.newCtx.symm.trans ho
    exact hr

theorem ChanLocal.Paired.exchanged_old (h : s.Paired) (hc : c ∈ s.chanctxList)
    (ho : s.exchanged c = some o) : s.exchanged o = none := by
  rw [exchanged, if_pos]
  rw [(h.replaces hc ho).oldState]
  decide

/-- The error is that of `chswSwitchCtxs`. -/
theorem fst_switchCtxs {H : ChanHw} (E : ChanEnv H) (h : s.Paired) (present : Finset CtxId) :
    (switchCtxs E.addChanctx again s s.chanctxList [] present).1 = chswSwitchCtxs E s := by
  have hloop : ∀ (l done : List CtxId) (present : Finset CtxId), (∀ c ∈ l, c ∈ s.chanctxList) →
      (switchCtxs E.addChanctx again s l done present).1 =
        (((l.filter fun c => (s.ctx c).replaceState = .replacesOther &&
          (s.ctx c).replaceCtx.all fun o => (s.ctx o).assignedVifs.isEmpty).map fun c =>
            E.addChanctx c).find? fun err => err ≠ 0).getD 0 := by
    intro l
    induction l with
    | nil => exact fun _ _ _ => rfl
    | cons c l ih =>
      intro done present hl
      have ih done present := ih done present fun d hd => hl d (mem_cons_of_mem c hd)
      rw [switchCtxs, filter_cons]
      by_cases hstate : (s.ctx c).replaceState = .replacesOther
      · obtain ⟨o, hr⟩ := h c (hl c mem_cons_self) hstate
        by_cases hnil : (s.ctx o).assignedVifs.isEmpty = true
        · have ho : s.exchanged c = some o := by simp [ChanLocal.exchanged, hstate, hr.newCtx, hnil]
          by_cases herr : E.addChanctx c = 0 <;> simp [ho, hstate, hr.newCtx, hnil, herr, ih]
        · have ho : s.exchanged c = none := by
            rw [ChanLocal.exchanged, if_neg (not_not.2 hstate), hr.newCtx, Option.filter_some, if_neg hnil]
          simp [ho, hr.newCtx, hnil, ih]
      · have ho : s.exchanged c = none := if_pos hstate
        simp [ho, hstate, ih]
  exact hloop _ _ _ fun c hc => hc

theorem mem_unwindCtxs (hagain : ∀ c, again c = 0) : ∀ (done : List CtxId) (present : Finset CtxId),
    (∀ c ∈ done, ∀ o ∈ s.exchanged c, s.exchanged o = none) →
    (d ∈ unwindCtxs again s done present ↔ (∃ c ∈ done, s.exchanged c = some d) ∨
      d ∈ present ∧ ¬(d ∈ done ∧ (s.exchanged d).isSome)) := by
  intro done
  induction done with
  | nil => simp [unwindCtxs]
  | cons c done ih =>
    intro present hold
    have ih present := ih present fun e he => hold e (mem_cons_of_mem c he)
    rw [unwindCtxs, exists_mem_cons_iff, mem_cons]
    cases hc : s.exchanged c with
    | none =>
      have hne : d = c → (s.exchanged d).isSome = false := by rintro rfl; rw [hc]; rfl
      rw [ih]
      grind
    | some o =>
      have ho := hold c mem_cons_self o hc
      rw [ih, drvAddChanctx, if_pos (hagain o), drvRemoveChanctx, Finset.mem_insert, Finset.mem_erase]
      grind

/-- **What the driver knows after an exchange**: all pairs are exchanged, or of one the new context
is known in place of the old one. -/
theorem switchCtxs_spec (add : CtxId → ℤ) (h : s.Paired) (hagain : ∀ c, again c = 0) {present₀ : Finset CtxId}
    (hdriver : ∀ c ∈ s.chanctxList, ∀ o ∈ s.exchanged c, c ∉ present₀ ∧ o ∈ present₀) :
    ∀ (todo done : List CtxId) (present : Finset CtxId), (done.reverse ++ todo).Nodup →
      (∀ c ∈ done.reverse ++ todo, c ∈ s.chanctxList) →
      (∀ d, d ∈ present ↔ (d ∈ done ∧ (s.exchanged d).isSome) ∨
        d ∈ present₀ ∧ ∀ c ∈ done, s.exchanged c ≠ some d) →
      let r := switchCtxs add again s todo done present
      (r.1 = 0 ∧ (∀ c ∈ todo, (s.exchanged c).isSome → add c = 0) ∧
        ∀ d, d ∈ r.2 ↔ (d ∈ done.reverse ++ todo ∧ (s.exchanged d).isSome) ∨
          d ∈ present₀ ∧ ∀ c ∈ done.reverse ++ todo, s.exchanged c ≠ some d) ∨
      (r.1 ≠ 0 ∧ ∃ c ∈ todo, ∃ o ∈ s.exchanged c, add c ≠ 0 ∧
        ∀ d, d ∈ r.2 ↔ d = c ∨ d ∈ present₀ ∧ d ≠ o) := by
  intro todo
  induction todo with
  | nil =>
    intro done present _ _ hpresent
    refine .inl ⟨rfl, (fun c hc => absurd hc not_mem_nil), ?_⟩
    simpa [switchCtxs] using hpresent
  | cons c todo ih =>
    intro done present hnodup hl hpresent
    have hcl : c ∈ s.chanctxList := hl c (by simp)
    have hdone : ∀ e ∈ done, e ∈ s.chanctxList := fun e he => hl e (by simp [he])
    have hsplit : (c :: done).reverse ++ todo = done.reverse ++ c :: todo := by simp
    have hcdone : c ∉ done := fun hc =>
      (nodup_append.1 hnodup).2.2 c (mem_reverse.2 hc) c mem_cons_self rfl
    have ih present := ih (c :: done) present (hsplit ▸ hnodup) (hsplit ▸ hl)
    rw [hsplit] at ih
    rw [switchCtxs]
    cases hc : s.exchanged c with
    | none =>
      obtain ⟨hok, hadd, hmem⟩ | ⟨herr, e, he, hrest⟩ := ih present (by grind)
      · exact .inl ⟨hok, by grind, hmem⟩
      · exact .inr ⟨herr, e, mem_cons_of_mem c he, hrest⟩
    | some o =>
      obtain ⟨hcp, hop⟩ := hdriver c hcl o hc
      have hold : ∀ e ∈ done, s.exchanged e ≠ some o := fun e he heo => by
        have hce := (h.replaces hcl hc).oldCtx.symm.trans (h.replaces (hdone e he) heo).oldCtx
        exact hcdone (Option.some.inj hce ▸ he)
      have ho := h.exchanged_old hcl hc
      by_cases hadd : add c = 0
      · dsimp only
        rw [if_neg (not_not.2 hadd), drvAddChanctx, if_pos hadd, drvRemoveChanctx]
        obtain ⟨hok, hadd, hmem⟩ | ⟨herr, e, he, hrest⟩ := ih (insert c (present.erase o)) (by
          intro d
          rw [Finset.mem_insert, Finset.mem_erase, hpresent]
          grind)
        · exact .inl ⟨hok, by grind, hmem⟩
        · exact .inr ⟨herr, e, mem_cons_of_mem c he, hrest⟩
      · -- the walk back takes the pairs before as they were
        dsimp only
        rw [if_pos hadd]
        refine .inr ⟨hadd, c, mem_cons_self, o, hc, hadd, fun d => ?_⟩
        rw [mem_unwindCtxs hagain done _ fun e he o' ho' => h.exchanged_old (hdone e he) ho',
          drvAddChanctx, if_pos (hagain c), drvAddChanctx, if_neg hadd, drvRemoveChanctx, Finset.mem_insert,
          Finset.mem_erase, hpresent]
        have hback : ∀ e ∈ done, s.exchanged e = some d → d ∈ present₀ ∧ d ≠ o := fun e he hd =>
          ⟨(hdriver e (hdone e he) d hd).2, fun hdo => hold e he (hdo ▸ hd)⟩
        have hnew : d ∈ done → (s.exchanged d).isSome → d ∉ present₀ := fun hd hsome => by
          obtain ⟨o', ho'⟩ := Option.isSome_iff_exists.1 hsome
          exact (hdriver d (hdone d hd) o' ho').1
        grind

/-- **An exchange is all or nothing exactly when** the driver adds every new context. -/
theorem exchangeRight_iff (add again : CtxId → ℤ) (s : ChanLocal) (present : Finset CtxId)
    (h : s.Paired) (hnodup : s.chanctxList.Nodup) (hagain : ∀ c, again c = 0)
    (hdriver : ∀ c ∈ s.chanctxList, ∀ o ∈ s.exchanged c, c ∉ present ∧ o ∈ present) :
    ExchangeRight add again s present ↔ ∀ c ∈ s.chanctxList, (s.exchanged c).isSome → add c = 0 := by
  have hspec := switchCtxs_spec add h hagain hdriver s.chanctxList [] present (by simpa using hnodup)
    (by simp) (by simp)
  rw [ExchangeRight]
  generalize switchCtxs add again s s.chanctxList [] present = r at hspec ⊢
  obtain ⟨hok, hadd, hmem⟩ | ⟨herr, c, hc, o, ho, hadd, hmem⟩ := hspec
  · exact iff_of_true ⟨fun herr => absurd hok herr, fun _ d => by simpa using hmem d⟩ hadd
  · refine iff_of_false (fun hright => ?_) fun hall => hadd (hall c hc (by rw [ho]; rfl))
    have hop := (hdriver c hc o ho).2
    rw [← hright.1 herr, hmem] at hop
    rcases hop with rfl | hop
    · exact (h.replaces hc ho).ne rfl
    · exact hop.2 rfl

/-- A context that replaces one without interfaces. -/
def emptyReplaced : ChanLocal :=
  { ChanLocal.start with
    chanctxList := [1, 0]
    nextCtx := 2
    ctx := fun c =>
      if c = 1 then { replaceState := .replacesOther, replaceCtx := some 0, reservedVifs := [0], confDef := .ofFreq 0 }
      else { replaceState := .willBeReplaced, replaceCtx := some 1, confDef := .ofFreq 0 } }

theorem emptyReplaced_paired : emptyReplaced.Paired := by
  intro n hn hstate
  obtain rfl : n = 1 := by
    rcases mem_cons.1 hn with rfl | hn
    · rfl
    · obtain rfl := mem_singleton.1 hn
      cases hstate
  exact ⟨0, rfl, rfl, rfl, rfl⟩

theorem exchangeRight_empty : ExchangeRight (fun _ => 0) (fun _ => 0) emptyReplaced {0} :=
  (exchangeRight_iff _ _ emptyReplaced {0} emptyReplaced_paired (by decide) (fun _ => rfl) (by decide)).2
    fun _ _ _ => rfl

/-- **A failed exchange changes what the driver knows**: the new context in place of the old one. -/
theorem exchange_not_undone : ¬ExchangeRight (fun _ => -ENOMEM) (fun _ => 0) emptyReplaced {0} := fun h => by
  have := h.1 (by decide)
  revert this
  decide

end Mac80211
