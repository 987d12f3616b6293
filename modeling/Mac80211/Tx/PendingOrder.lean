import Mac80211.Tx.Pending

/-!
# No frame is overtaken

What the driver has, what a loop has left and what waits are in order, one after the other, however
often the queue is stopped and woken in between.

## Main results

* `PendOrder.step`
-/

namespace Mac80211

open List

/-! ### Lists of frames -/

variable {skbs : List TxSkb}

section Lists

variable {os os' : List PendOut} {ps : List TurnSkb} {q : ℕ}

@[simp] theorem passedOf_append : passedOf (os ++ os') = passedOf os ++ passedOf os' := filterMap_append

@[simp] theorem handedOf_append : handedOf (os ++ os') = handedOf os ++ handedOf os' := filterMap_append

@[simp] theorem freedOf_append : freedOf (os ++ os') = freedOf os ++ freedOf os' := filterMap_append

@[simp] theorem passedOf_passed : passedOf (ps.map .passed) = ps := by
  simp [passedOf, filterMap_map]

@[simp] theorem handedOf_passed : handedOf (ps.map .passed) = [] := by
  simp [handedOf, filterMap_map]

@[simp] theorem freedOf_passed : freedOf (ps.map .passed) = [] := by
  simp [freedOf, filterMap_map]

@[simp] theorem passedOf_freed (reason : FreeReason) : passedOf (ps.map (.freed · reason)) = [] := by
  simp [passedOf, filterMap_map]

@[simp] theorem handedOf_freed (reason : FreeReason) : handedOf (ps.map (.freed · reason)) = [] := by
  simp [handedOf, filterMap_map]

@[simp] theorem freedOf_freed (reason : FreeReason) : freedOf (ps.map (.freed · reason)) = ps := by
  simp [freedOf, filterMap_map]

theorem handedOn_append : handedOn q (os ++ os') = handedOn q os ++ handedOn q os' := by
  rw [handedOn, handedOf_append, filter_append]
  rfl

theorem mem_handedOf_of_mem {p : TurnSkb} (h : p ∈ handedOn q os) : p ∈ handedOf os := mem_of_mem_filter h

theorem mem_numbered {turn list : ℕ} {p : TurnSkb} (h : p ∈ numbered turn list skbs) :
    p.turn = turn ∧ p.list = list ∧ p.skb ∈ skbs := by
  obtain ⟨x, hx, rfl⟩ := mem_map.mp h
  exact ⟨rfl, rfl, fst_mem_of_mem_zipIdx hx⟩

theorem numbered_pairwise (turn list : ℕ) (skbs : List TxSkb) :
    (numbered turn list skbs).Pairwise fun p p' => p.turn = p'.turn ∧ p.frag < p'.frag := by
  rw [numbered, pairwise_map]
  have hfrag : (skbs.zipIdx.map Prod.snd).Pairwise (· < ·) := by
    rw [zipIdx_map_snd]
    exact pairwise_lt_range'
  exact (pairwise_map.mp hfrag).imp fun h => ⟨rfl, h⟩

end Lists

/-! ### The invariant -/

/-- One frame is in front of another one. What is made from a frame that is still to be processed keeps its
turn. -/
def TurnSkb.Sep (p p' : TurnSkb) : Prop := p.Before p' ∧ (p.raw = true ∨ p'.raw = true → p.turn < p'.turn)

theorem TurnSkb.Sep.of_lt {p p' : TurnSkb} (h : p.turn < p'.turn) : p.Sep p' := ⟨.inl h, fun _ => h⟩

/-- Two loops have no queue in common. -/
def PendLoop.Apart (l l' : PendLoop) : Prop := ∀ p ∈ l.skbs, ∀ p' ∈ l'.skbs, p.queue ≠ p'.queue

/-- **The order.** What the driver has for a queue, what a loop has left for it and what waits for it are in
order. -/
structure PendOrder (s : PendState) (os : List PendOut) : Prop where
  plain : ∀ q, ∀ p ∈ s.pending q, PlainFor q p.skb
  ready : ∀ l ∈ s.loops, ∃ q, ∀ p ∈ l.skbs, ReadyFor q p.skb
  apart : s.loops.Pairwise PendLoop.Apart
  queue : ∀ q, (handedOn q os ++ s.pending q).Pairwise TurnSkb.Sep
  line : ∀ l ∈ s.loops, ∀ q, (∀ p ∈ l.skbs, p.queue = q) →
    (handedOn q os ++ l.line (s.pending q)).Pairwise TurnSkb.Sep
  turns : ∀ p, p ∈ handedOf os ∨ (∃ q, p ∈ s.pending q) ∨ p ∈ s.underWay → p.turn < s.next

section Lines

variable {s s' : PendState} {os o : List PendOut} {l : PendLoop} {p p' : TurnSkb} {ps : List TurnSkb} {q : ℕ}

theorem PendLoop.line_nil (h : l.skbs = []) (ps : List TurnSkb) : l.line ps = ps := by
  rw [PendLoop.line, h]
  split
  · rfl
  · exact append_nil ps

theorem handedOn_of_handedOf_nil (h : handedOf o = []) (q : ℕ) : handedOn q (os ++ o) = handedOn q os := by
  rw [handedOn, handedOf_append, h, append_nil]
  rfl

theorem mem_underWay (hl : l ∈ s.loops) (hp : p ∈ l.skbs) : p ∈ s.underWay :=
  mem_flatMap.mpr ⟨l, hl, hp⟩

/-- What is in order stays so if a loop that has frames left is for a queue nothing happens to. -/
theorem PendOrder.line_of_others (h : PendOrder s os)
    (hqueue : ∀ q, (handedOn q (os ++ o) ++ s'.pending q).Pairwise TurnSkb.Sep) (hl : l ∈ s.loops)
    (hothers : ∀ p ∈ l.skbs, handedOn p.queue (os ++ o) = handedOn p.queue os ∧
      s'.pending p.queue = s.pending p.queue)
    (hq : ∀ p ∈ l.skbs, p.queue = q) :
    (handedOn q (os ++ o) ++ l.line (s'.pending q)).Pairwise TurnSkb.Sep := by
  cases hskbs : l.skbs with
  | nil =>
    rw [PendLoop.line_nil hskbs]
    exact hqueue q
  | cons p ps =>
    have hp : p ∈ l.skbs := by simp [hskbs]
    obtain ⟨hhanded, hpending⟩ := hothers p hp
    rw [← hq p hp, hhanded, hpending]
    refine h.line l hl p.queue ?_
    intro p' hp'
    exact (hq p' hp').trans (hq p hp).symm

theorem sep_numbered {turn list : ℕ} (h : ∀ skb ∈ skbs, ReadyFor q skb) :
    (numbered turn list skbs).Pairwise TurnSkb.Sep := by
  have hraw : ∀ p ∈ numbered turn list skbs, p.raw = false := by
    intro p hp
    exact (h p.skb (mem_numbered hp).2.2).2
  refine List.Pairwise.imp_of_mem ?_ (numbered_pairwise turn list skbs)
  rintro p p' hp hp' ⟨hturn, hfrag⟩
  refine ⟨.inr ⟨hturn, hfrag⟩, ?_⟩
  rintro (hp₁ | hp₁)
  · rw [hraw p hp] at hp₁
    cases hp₁
  · rw [hraw p' hp'] at hp₁
    cases hp₁

end Lines

/-! ### One step -/

section Step

variable {s s' : PendState} {os o : List PendOut} {l : PendLoop} {p : TurnSkb} {q : ℕ}

theorem PendOrder.device (h : PendOrder s os) (dev : Local) : PendOrder { s with dev := dev } os :=
  ⟨h.plain, h.ready, h.apart, h.queue, h.line, h.turns⟩

/-- A new loop. -/
def PendState.begin (s : PendState) (l : PendLoop) (next : ℕ) : PendState :=
  { s with
    loops := s.loops ++ [l]
    next := next }

@[simp] theorem PendState.underWay_begin (s : PendState) (l : PendLoop) (next : ℕ) :
    (s.begin l next).underWay = s.underWay ++ l.skbs := by
  simp [PendState.begin, PendState.underWay]

theorem PendOrder.begin (h : PendOrder s os) {next : ℕ} (hnext : s.next ≤ next) (hout : handedOf o = [])
    (hready : ∀ p ∈ l.skbs, ReadyFor q p.skb) (hfree : l.skbs ≠ [] → ∀ p ∈ s.underWay, p.queue ≠ q)
    (hturns : ∀ p ∈ l.skbs, p.turn < next)
    (hline : l.skbs ≠ [] → (handedOn q os ++ l.line (s.pending q)).Pairwise TurnSkb.Sep) :
    PendOrder (s.begin l next) (os ++ o) := by
  have hqueue : ∀ q, (handedOn q (os ++ o) ++ s.pending q).Pairwise TurnSkb.Sep := by
    intro q
    rw [handedOn_of_handedOf_nil hout]
    exact h.queue q
  refine ⟨h.plain, ?_, ?_, hqueue, ?_, ?_⟩
  · intro l' hl'
    rcases mem_append.mp hl' with hl' | hl'
    · exact h.ready l' hl'
    · obtain rfl := mem_singleton.mp hl'
      exact ⟨q, hready⟩
  · refine pairwise_append.mpr ⟨h.apart, pairwise_singleton _ _, ?_⟩
    intro l₁ hl₁ l₂ hl₂ p₁ hp₁ p₂ hp₂
    obtain rfl := mem_singleton.mp hl₂
    have hp₂q : p₂.queue = q := (hready p₂ hp₂).1.1
    rw [hp₂q]
    exact hfree (ne_nil_of_mem hp₂) p₁ (mem_underWay hl₁ hp₁)
  · intro l' hl' q' hq'
    rcases mem_append.mp hl' with hl' | hl'
    · exact h.line_of_others hqueue hl' (fun p _ => ⟨handedOn_of_handedOf_nil hout _, rfl⟩) hq'
    · obtain rfl := mem_singleton.mp hl'
      cases hskbs : l'.skbs with
      | nil =>
        rw [PendLoop.line_nil hskbs]
        exact hqueue q'
      | cons p ps =>
        have hp : p ∈ l'.skbs := by simp [hskbs]
        have hqq : q' = q := (hq' p hp).symm.trans (hready p hp).1.1
        rw [hqq, handedOn_of_handedOf_nil hout]
        exact hline (ne_nil_of_mem hp)
  · intro p hp
    rw [handedOf_append, hout, append_nil, PendState.underWay_begin, mem_append] at hp
    rcases hp with hp | hp | hp | hp
    · exact (h.turns p (.inl hp)).trans_le hnext
    · exact (h.turns p (.inr (.inl hp))).trans_le hnext
    · exact (h.turns p (.inr (.inr hp))).trans_le hnext
    · exact hturns p hp

theorem PendOrder.sep_new (h : PendOrder s os) {p' : TurnSkb} (hp' : s.next ≤ p'.turn)
    (hp : p ∈ handedOn q os ++ s.pending q) : p.Sep p' := by
  refine .of_lt (lt_of_lt_of_le (h.turns p ?_) hp')
  rcases mem_append.mp hp with hp | hp
  · exact .inl (mem_handedOf_of_mem hp)
  · exact .inr (.inl ⟨q, hp⟩)

theorem PendOrder.txFrags (h : PendOrder s os) {vif : Option SdataId}
    (hready : ∀ skb ∈ skbs, ReadyFor q skb) (hfree : skbs ≠ [] → ∀ p ∈ s.underWay, p.queue ≠ q) :
    PendOrder (s.begin ⟨vif, false, numbered s.next s.next skbs⟩ (s.next + 1))
      (os ++ (numbered s.next s.next skbs).map .passed) := by
  refine h.begin (Nat.le_succ _) handedOf_passed (q := q) ?_ ?_ ?_ ?_
  · intro p hp
    exact hready p.skb (mem_numbered hp).2.2
  · intro hne
    refine hfree ?_
    rintro rfl
    exact hne rfl
  · intro p hp
    rw [(mem_numbered hp).1]
    exact Nat.lt_succ_self _
  · intro _
    show (handedOn q os ++ (s.pending q ++ _)).Pairwise TurnSkb.Sep
    rw [← append_assoc]
    refine pairwise_append.mpr ⟨h.queue q, sep_numbered hready, ?_⟩
    intro p hp p' hp'
    exact h.sep_new (mem_numbered hp').1.ge hp

@[simp] theorem PendState.pending_setPending_self (s : PendState) (q : ℕ) (ps : List TurnSkb) :
    (s.setPending q ps).pending q = ps := by
  simp [PendState.setPending]

theorem PendState.pending_setPending_of_ne (s : PendState) {q q' : ℕ} (hq : q' ≠ q) (ps : List TurnSkb) :
    (s.setPending q ps).pending q' = s.pending q' := by
  simp [PendState.setPending, hq]

variable {ps : List TurnSkb}

theorem PendState.sublist_setPending (hsub : ps.Sublist (s.pending q)) (q' : ℕ) :
    ((s.setPending q ps).pending q').Sublist (s.pending q') := by
  by_cases hq : q' = q
  · rw [hq, PendState.pending_setPending_self]
    exact hsub
  · rw [PendState.pending_setPending_of_ne s hq]

theorem PendLoop.line_sublist {ps ps' : List TurnSkb} (h : ps.Sublist ps') (l : PendLoop) :
    (l.line ps).Sublist (l.line ps') := by
  rw [PendLoop.line, PendLoop.line]
  split
  · exact h.append_left l.skbs
  · exact h.append_right l.skbs

theorem PendOrder.leave (h : PendOrder s os) (hsub : ps.Sublist (s.pending q))
    (hout : handedOf o = []) : PendOrder (s.setPending q ps) (os ++ o) := by
  have hleft := PendState.sublist_setPending hsub
  refine ⟨?_, h.ready, h.apart, ?_, ?_, ?_⟩
  · intro q' p hp
    exact h.plain q' p ((hleft q').subset hp)
  · intro q'
    rw [handedOn_of_handedOf_nil hout]
    exact (h.queue q').sublist ((hleft q').append_left _)
  · intro l hl q' hq'
    rw [handedOn_of_handedOf_nil hout]
    exact (h.line l hl q' hq').sublist ((l.line_sublist (hleft q')).append_left _)
  · intro p hp
    rw [handedOf_append, hout, append_nil] at hp
    refine h.turns p ?_
    rcases hp with hp | ⟨q', hp⟩ | hp
    · exact .inl hp
    · exact .inr (.inl ⟨q', (hleft q').subset hp⟩)
    · exact .inr (.inr hp)

theorem PendOrder.addPendingSkb (h : PendOrder s os) (hplain : PlainFor q p.skb) (hturn : p.turn = s.next)
    (hfree : ∀ p ∈ s.underWay, p.queue ≠ q) (hout : handedOf o = []) :
    PendOrder ({ s with next := s.next + 1 }.setPending q (s.pending q ++ [p])) (os ++ o) := by
  have hqueue : ∀ q', (handedOn q' (os ++ o) ++
      ({ s with next := s.next + 1 }.setPending q (s.pending q ++ [p])).pending q').Pairwise TurnSkb.Sep := by
    intro q'
    rw [handedOn_of_handedOf_nil hout]
    by_cases hq : q' = q
    · rw [hq, PendState.pending_setPending_self, ← append_assoc]
      refine pairwise_append.mpr ⟨h.queue q, pairwise_singleton _ _, ?_⟩
      intro p₁ hp₁ p₂ hp₂
      obtain rfl := mem_singleton.mp hp₂
      exact h.sep_new hturn.ge hp₁
    · rw [PendState.pending_setPending_of_ne _ hq]
      exact h.queue q'
  refine ⟨?_, h.ready, h.apart, hqueue, ?_, ?_⟩
  · intro q' p' hp'
    by_cases hq : q' = q
    · rw [hq, PendState.pending_setPending_self] at hp'
      rcases mem_append.mp hp' with hp' | hp'
      · rw [hq]
        exact h.plain q p' hp'
      · obtain rfl := mem_singleton.mp hp'
        rwa [hq]
    · rw [PendState.pending_setPending_of_ne _ hq] at hp'
      exact h.plain q' p' hp'
  · intro l hl q' hq'
    refine h.line_of_others hqueue hl ?_ hq'
    intro p' hp'
    exact ⟨handedOn_of_handedOf_nil hout _,
      PendState.pending_setPending_of_ne _ (hfree p' (mem_underWay hl hp')) _⟩
  · intro p' hp'
    rw [handedOf_append, hout, append_nil] at hp'
    refine Nat.lt_succ_iff.mpr ?_
    rcases hp' with hp' | ⟨q', hp'⟩ | hp'
    · exact (h.turns p' (.inl hp')).le
    · by_cases hq : q' = q
      · rw [hq, PendState.pending_setPending_self] at hp'
        rcases mem_append.mp hp' with hp' | hp'
        · exact (h.turns p' (.inr (.inl ⟨q, hp'⟩))).le
        · obtain rfl := mem_singleton.mp hp'
          exact hturn.le
      · rw [PendState.pending_setPending_of_ne _ hq] at hp'
        exact (h.turns p' (.inr (.inl ⟨q', hp'⟩))).le
    · exact (h.turns p' (.inr (.inr hp'))).le

/-! ### The tasklet -/

theorem requeued_eq {monitorQueue : ℕ} (h : monitorQueue = p.queue) (dev : Local) :
    requeued dev monitorQueue p = p := by
  rw [requeued]
  dsimp only
  split
  · rw [h]
    rfl
  · rfl

theorem PendOrder.pendingSkb (h : PendOrder s os) {env : TaskletEnv}
    (hps : s.pending q = p :: ps) (hout : ∀ out ∈ env.out, ∀ skb ∈ out.2, ReadyFor q skb)
    (hmonitor : env.monitorQueue = q) (hfree : ∀ p ∈ s.underWay, p.queue ≠ q) :
    PendOrder (pendingSkb (s.setPending q ps) env p).1 (os ++ (pendingSkb (s.setPending q ps) env p).2) := by
  have hsub : ps.Sublist (s.pending q) := by
    rw [hps]
    exact sublist_cons_self p ps
  have hplain : PlainFor q p.skb := h.plain q p (by simp [hps])
  have hturn : p.turn < s.next := h.turns p (.inr (.inl ⟨q, by simp [hps]⟩))
  obtain ⟨hhanded, hpending, hcross⟩ := pairwise_append.mp (hps ▸ h.queue q)
  obtain ⟨hfirst, hrest⟩ := pairwise_cons.mp hpending
  have hleave : PendOrder (s.setPending q ps) os := by
    simpa using h.leave hsub (o := []) rfl
  have hfree' : ∀ p ∈ (s.setPending q ps).underWay, p.queue ≠ q := hfree
  rw [Mac80211.pendingSkb]
  cases hraw : p.raw with
  | true =>
    simp only [if_pos]
    cases henv : env.out with
    | none => simpa using hleave
    | some out =>
      have hready : ∀ skb ∈ out.2, ReadyFor q skb := hout out henv
      refine hleave.begin (q := q) (Nat.le_succ _) handedOf_passed ?_ (fun _ => hfree') ?_ ?_
      · intro p' hp'
        exact hready p'.skb (mem_numbered hp').2.2
      · intro p' hp'
        rw [(mem_numbered hp').1]
        exact Nat.lt_succ_of_lt hturn
      · intro _
        show (handedOn q os ++ (_ ++ _)).Pairwise TurnSkb.Sep
        rw [PendState.pending_setPending_self]
        -- what is made from a frame is in its place
        refine pairwise_append.mpr ⟨hhanded, pairwise_append.mpr ⟨sep_numbered hready, hrest, ?_⟩, ?_⟩
        · intro p₁ hp₁ p₂ hp₂
          refine .of_lt ?_
          rw [(mem_numbered hp₁).1]
          exact (hfirst p₂ hp₂).2 (.inl hraw)
        · intro p₁ hp₁ p₂ hp₂
          rcases mem_append.mp hp₂ with hp₂ | hp₂
          · refine .of_lt ?_
            rw [(mem_numbered hp₂).1]
            exact (hcross p₁ hp₁ p mem_cons_self).2 (.inr hraw)
          · exact hcross p₁ hp₁ p₂ (mem_cons_of_mem _ hp₂)
  | false =>
    simp only [Bool.false_eq_true, if_false]
    cases hvif : driverVif (s.setPending q ps).dev p.skb.info.vif with
    | none => exact h.leave hsub rfl
    | some vif =>
      rw [requeued_eq (hmonitor.trans hplain.1.symm)]
      refine hleave.begin (q := q) le_rfl rfl ?_ (fun _ => hfree') ?_ ?_
      · intro p' hp'
        obtain rfl := mem_singleton.mp hp'
        exact ⟨hplain, hraw⟩
      · intro p' hp'
        obtain rfl := mem_singleton.mp hp'
        exact hturn
      · intro _
        show (handedOn q os ++ ([p] ++ _)).Pairwise TurnSkb.Sep
        rw [PendState.pending_setPending_self, singleton_append, ← hps]
        exact h.queue q

/-! ### The loop -/

theorem PendLoop.sublist_line (l : PendLoop) (ps : List TurnSkb) : ps.Sublist (l.line ps) := by
  rw [PendLoop.line]
  split
  · exact sublist_append_right l.skbs ps
  · exact sublist_append_left ps l.skbs

theorem PendOrder.goOn (h : PendOrder s os) {l' : PendLoop} {pre post : List PendLoop}
    (hloops : s.loops = pre ++ l :: post) (hloops' : s'.loops = pre ++ l' :: post) (hnext : s'.next = s.next)
    (hready : ∀ p ∈ l.skbs, ReadyFor q p.skb) (hl : l.skbs ≠ []) (hl' : l'.skbs.Sublist l.skbs)
    (hpending : ∀ q', q' ≠ q → s'.pending q' = s.pending q')
    (hhanded : ∀ q', q' ≠ q → handedOn q' (os ++ o) = handedOn q' os)
    (hmem : ∀ p, p ∈ handedOf o ∨ p ∈ s'.pending q → p ∈ s.pending q ∨ p ∈ l.skbs)
    (hline : (handedOn q (os ++ o) ++ l'.line (s'.pending q)).Pairwise TurnSkb.Sep) :
    PendOrder s' (os ++ o) := by
  have hapart : (pre ++ l :: post).Pairwise PendLoop.Apart := hloops ▸ h.apart
  obtain ⟨hpre, hpost, hcross⟩ := pairwise_append.mp hapart
  obtain ⟨hfirst, hrest⟩ := pairwise_cons.mp hpost
  obtain ⟨p₀, hp₀⟩ := exists_mem_of_ne_nil l.skbs hl
  have hq₀ : p₀.queue = q := (hready p₀ hp₀).1.1
  have hlmem : l ∈ s.loops := by simp [hloops]
  have hothers : ∀ l₁ ∈ pre ++ post, l₁ ∈ s.loops ∧ ∀ p ∈ l₁.skbs, p.queue ≠ q := by
    intro l₁ hl₁
    rcases mem_append.mp hl₁ with hl₁ | hl₁
    · refine ⟨by simp [hloops, hl₁], fun p hp => ?_⟩
      rw [← hq₀]
      exact hcross l₁ hl₁ l mem_cons_self p hp p₀ hp₀
    · refine ⟨by simp [hloops, hl₁], fun p hp => ?_⟩
      rw [← hq₀]
      exact (hfirst l₁ hl₁ p₀ hp₀ p hp).symm
  have hqueue : ∀ q', (handedOn q' (os ++ o) ++ s'.pending q').Pairwise TurnSkb.Sep := by
    intro q'
    by_cases hq : q' = q
    · rw [hq]
      exact hline.sublist ((l'.sublist_line _).append_left _)
    · rw [hpending q' hq, hhanded q' hq]
      exact h.queue q'
  refine ⟨?_, ?_, ?_, hqueue, ?_, ?_⟩
  · intro q' p hp
    by_cases hq : q' = q
    · rw [hq] at hp ⊢
      rcases hmem p (.inr hp) with hp | hp
      · exact h.plain q p hp
      · exact (hready p hp).1
    · rw [hpending q' hq] at hp
      exact h.plain q' p hp
  · intro l₁ hl₁
    rw [hloops', mem_append, mem_cons] at hl₁
    rcases hl₁ with hl₁ | rfl | hl₁
    · exact h.ready l₁ (hothers l₁ (mem_append_left _ hl₁)).1
    · exact ⟨q, fun p hp => hready p (hl'.subset hp)⟩
    · exact h.ready l₁ (hothers l₁ (mem_append_right _ hl₁)).1
  · rw [hloops']
    refine pairwise_append.mpr ⟨hpre, pairwise_cons.mpr ⟨?_, hrest⟩, ?_⟩
    · intro l₁ hl₁ p hp p₁ hp₁
      exact hfirst l₁ hl₁ p (hl'.subset hp) p₁ hp₁
    · intro l₁ hl₁ l₂ hl₂ p₁ hp₁ p₂ hp₂
      rcases mem_cons.mp hl₂ with rfl | hl₂
      · exact hcross l₁ hl₁ l mem_cons_self p₁ hp₁ p₂ (hl'.subset hp₂)
      · exact hcross l₁ hl₁ l₂ (mem_cons_of_mem _ hl₂) p₁ hp₁ p₂ hp₂
  · intro l₁ hl₁ q' hq'
    have hother : l₁ ∈ pre ++ post →
        (handedOn q' (os ++ o) ++ l₁.line (s'.pending q')).Pairwise TurnSkb.Sep := by
      intro hl₁
      obtain ⟨hl₁, hne⟩ := hothers l₁ hl₁
      exact h.line_of_others hqueue hl₁ (fun p hp => ⟨hhanded _ (hne p hp), hpending _ (hne p hp)⟩) hq'
    rw [hloops', mem_append, mem_cons] at hl₁
    rcases hl₁ with hl₁ | rfl | hl₁
    · exact hother (mem_append_left _ hl₁)
    · cases hskbs : l₁.skbs with
      | nil =>
        rw [PendLoop.line_nil hskbs]
        exact hqueue q'
      | cons p ps =>
        have hp : p ∈ l₁.skbs := by simp [hskbs]
        have hqq : q' = q := (hq' p hp).symm.trans (hready p (hl'.subset hp)).1.1
        rwa [hqq]
    · exact hother (mem_append_right _ hl₁)
  · intro p hp
    rw [hnext]
    have hl₁ : p ∈ l.skbs → p.turn < s.next := fun hp => h.turns p (.inr (.inr (mem_underWay hlmem hp)))
    have hq₁ : p ∈ s.pending q ∨ p ∈ l.skbs → p.turn < s.next := by
      rintro (hp | hp)
      · exact h.turns p (.inr (.inl ⟨q, hp⟩))
      · exact hl₁ hp
    rw [handedOf_append, mem_append] at hp
    rcases hp with (hp | hp) | ⟨q', hp⟩ | hp
    · exact h.turns p (.inl hp)
    · exact hq₁ (hmem p (.inl hp))
    · by_cases hq : q' = q
      · exact hq₁ (hmem p (.inr (hq ▸ hp)))
      · rw [hpending q' hq] at hp
        exact h.turns p (.inr (.inl ⟨q', hp⟩))
    · obtain ⟨l₁, hl₁mem, hp⟩ := mem_flatMap.mp hp
      rw [hloops', mem_append, mem_cons] at hl₁mem
      rcases hl₁mem with hl₂ | rfl | hl₂
      · exact h.turns p (.inr (.inr (mem_underWay (hothers l₁ (mem_append_left _ hl₂)).1 hp)))
      · exact hl₁ (hl'.subset hp)
      · exact h.turns p (.inr (.inr (mem_underWay (hothers l₁ (mem_append_right _ hl₂)).1 hp)))

/-- One iteration: the list is parked, or dropped for being off-channel, or its first frame is sent, and then
no frame waits in front of it. -/
theorem pendIterate_cases {k : ℕ} (hskbs : l.skbs = p :: ps) (h : pendIterate s k l = some (s', o)) :
    (s' = { s with loops := s.loops.set k { l with skbs := [] } }.setPending p.queue
      (l.line (s.pending p.queue)) ∧ o = []) ∨
    (s' = { s with loops := s.loops.set k { l with skbs := [] } } ∧ p.skb.info.offchanTxOk = true ∧
      o = l.skbs.map (.freed · .offchannel)) ∨
    (p.skb.info.offchanTxOk = false → l.txpending = true ∨ s.pending p.queue = []) ∧
      s' = { s with loops := s.loops.set k { l with skbs := ps } } ∧ ∃ v, o = [.handed p v] := by
  rw [pendIterate, hskbs] at h
  simp only [iteration] at h
  by_cases hpark : (queueBlocked s.device l.txpending p.skb.info.hwQueue && !p.skb.info.offchanTxOk) = true
  · simp only [hpark, if_true, Option.some.injEq, Prod.mk.injEq] at h
    exact .inl ⟨h.1.symm, h.2.symm⟩
  simp only [hpark, Bool.false_eq_true, if_false] at h
  by_cases hdrop : (p.skb.info.offchanTxOk && stoppedOnChannel s.device p.skb.info.hwQueue) = true
  · simp only [hdrop, if_true, Option.some.injEq, Prod.mk.injEq] at h
    refine .inr (.inl ⟨h.1.symm, ((Bool.and_eq_true ..).mp hdrop).1, ?_⟩)
    rw [hskbs]
    exact h.2.symm
  simp only [hdrop, Bool.false_eq_true, if_false] at h
  cases hvif : l.vif with
  | none => simp [hvif] at h
  | some v =>
    simp only [hvif, Option.some.injEq, Prod.mk.injEq] at h
    refine .inr (.inr ⟨fun hoffchan => ?_, h.1.symm, v, h.2.symm⟩)
    rw [hoffchan, Bool.not_false, Bool.and_true, Bool.not_eq_true] at hpark
    simp only [queueBlocked, PendState.device, Bool.or_eq_false_iff, Bool.and_eq_false_iff, Bool.not_eq_false',
      List.isEmpty_iff, List.map_eq_nil_iff] at hpark
    exact hpark.2

theorem PendOrder.next (h : PendOrder s os) {k : ℕ} (hl : s.loops[k]? = some l)
    (hs : pendIterate s k l = some (s', o)) : PendOrder s' (os ++ o) := by
  cases hskbs : l.skbs with
  | nil =>
    rw [pendIterate, hskbs] at hs
    cases hs
    simpa using h
  | cons p ps =>
    obtain ⟨hk, hget⟩ := List.getElem?_eq_some_iff.mp hl
    have hlmem : l ∈ s.loops := hget ▸ getElem_mem hk
    obtain ⟨q, hready⟩ := h.ready l hlmem
    have hne : l.skbs ≠ [] := by simp [hskbs]
    have hpready : ReadyFor q p.skb := hready p (by simp [hskbs])
    obtain ⟨⟨hpq, hoffchan⟩, -⟩ := hpready
    have hpq : p.queue = q := hpq
    have hline := h.line l hlmem q fun p hp => (hready p hp).1.1
    have hcases := pendIterate_cases hskbs hs
    rw [hpq] at hcases
    rcases hcases with ⟨rfl, rfl⟩ | ⟨-, hoffchan', -⟩ | ⟨hempty, rfl, v, rfl⟩
    · obtain ⟨pre, post, hloops, -, hset⟩ := @exists_of_set _ k { l with skbs := [] } s.loops hk
      rw [hget] at hloops
      refine h.goOn (q := q) hloops hset rfl hready hne (nil_sublist _) ?_ ?_ ?_ ?_
      · intro q' hq
        exact PendState.pending_setPending_of_ne _ hq _
      · intro q' _
        exact handedOn_of_handedOf_nil rfl q'
      · intro p' hp'
        rcases hp' with hp' | hp'
        · cases hp'
        · rw [PendState.pending_setPending_self, PendLoop.line] at hp'
          split at hp'
          · exact (mem_append.mp hp').symm
          · exact mem_append.mp hp'
      · rw [PendLoop.line_nil rfl, PendState.pending_setPending_self, handedOn_of_handedOf_nil rfl]
        exact hline
    · rw [hoffchan] at hoffchan'
      cases hoffchan'
    · obtain ⟨pre, post, hloops, -, hset⟩ := @exists_of_set _ k { l with skbs := ps } s.loops hk
      rw [hget] at hloops
      refine h.goOn (q := q) hloops hset rfl hready hne ?_ (fun _ _ => rfl) ?_ ?_ ?_
      · rw [hskbs]
        exact sublist_cons_self p ps
      · intro q' hq
        rw [handedOn_append]
        simp [handedOn, handedOf, hpq, Ne.symm hq]
      · intro p' hp'
        rcases hp' with hp' | hp'
        · obtain rfl := mem_singleton.mp hp'
          exact .inr (by simp [hskbs])
        · exact .inl hp'
      · -- if frames that do not come from the queue go out, none waits there
        have hl' : l.line (s.pending q) = p :: ({ l with skbs := ps } : PendLoop).line (s.pending q) := by
          rcases hempty hoffchan with htx | hempty
          · simp [PendLoop.line, htx, hskbs]
          · simp [PendLoop.line, hempty, hskbs]
        rw [hl'] at hline
        have hhanded : handedOn q (os ++ [.handed p v]) = handedOn q os ++ [p] := by
          rw [handedOn_append]
          simp [handedOn, handedOf, hpq]
        rw [hhanded, append_assoc]
        exact hline

/-- **One step keeps the order.** -/
theorem PendOrder.step (h : PendOrder s os) {e : PendEvent} (horderly : Orderly s os e)
    (hs : pendStep s e = some (s', o)) : PendOrder s' (os ++ o) := by
  cases e with
  | device dev =>
    cases hs
    simpa using h.device dev
  | txFrags vif skbs =>
    cases hs
    obtain ⟨q, hready, hfree⟩ := horderly.exists_queue
    exact h.txFrags hready hfree
  | addPendingSkb skb =>
    cases hs
    refine h.addPendingSkb ⟨rfl, horderly.1⟩ rfl horderly.2 ?_
    split <;> rfl
  | txPending q env =>
    rw [pendStep] at hs
    cases hps : s.pending q with
    | nil =>
      rw [hps] at hs
      cases hs
      simpa using h
    | cons p ps =>
      rw [hps] at hs
      obtain ⟨rfl, rfl⟩ := Prod.mk.inj (Option.some.inj hs)
      exact h.pendingSkb hps horderly.1 horderly.2.1 horderly.2.2
  | next k =>
    obtain ⟨l, hl, hs⟩ := Option.bind_eq_some_iff.mp hs
    exact h.next hl hs
  | doStop vif q =>
    cases hs
    exact h.leave filter_sublist (handedOf_freed .gone)
  | clearTxPending q =>
    cases hs
    exact h.leave (nil_sublist _) (handedOf_freed .gone)

end Step

end Mac80211
