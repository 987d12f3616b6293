import Mac80211.Queues.StopReasons
import Mathlib.Algebra.Order.Ring.Int

/-!
# The bookkeeping of stopped queues

Bits and counts of reasons always agree. When a queue is woken, `_ieee80211_wake_txqs` wakes all
categories of an interface whose `cab_queue` runs, without asking whether the queue of the category
is stopped. Interfaces without a net device, and hardware with fewer than four queues, have
categories that never get a flag.

## Main definitions

* `QueueInv`

## Main results

* `queue_flags_of_reach`
-/

namespace Mac80211

open Machine List

/-! ### The condition -/

/-- Every category that maps to the queue is stopped with it. -/
def QueueHw.marked (hw : QueueHw) (q : ℕ) : Bool :=
  hw.vifs.all fun d => (List.finRange 4).all fun ac => d.hwQueue ac ≠ q || d.dev && ac < hw.nAcs

/-- No interface has a `cab_queue` that runs while the queue of one of its categories is stopped. -/
def sweepOk (hw : QueueHw) (s : QueueState) : Bool :=
  hw.vifs.all fun d => hw.queues ≤ d.cabQueue || s.stopped d.cabQueue ||
    (List.finRange 4).all fun ac => hw.nAcs ≤ ac || !s.stopped (d.hwQueue ac)

/-- The condition: a stopped queue marks all its categories, the count does not run over, and flags
are cleared only where `sweepOk` holds. -/
def QueueOp.Fine (hw : QueueHw) (s : QueueState) : QueueOp → Prop
  | stop q r refcounted => q < hw.queues →
      (refcounted = true → s.counts q r < 2 ^ 31 - 1) ∧ (hw.wakeTxQueue = true → hw.marked q = true)
  | wake q r refcounted => q < hw.queues → s.reasons q r = true → hw.wakeTxQueue = true → r ≠ .driver →
      (dropReason s q r refcounted).stopped q = false → sweepOk hw (dropReason s q r refcounted) = true
  | sweep => hw.wakeTxQueue = true → sweepOk hw s = true
  | push _ | send .. => True

instance (hw : QueueHw) (s : QueueState) : ∀ op, Decidable (QueueOp.Fine hw s op)
  | .stop .. => inferInstanceAs (Decidable (_ → _ ∧ _))
  | .wake .. => inferInstanceAs (Decidable (_ → _ → _ → _ → _ → _))
  | .sweep => inferInstanceAs (Decidable (_ → _))
  | .push _ | .send .. => .isTrue trivial

/-- The condition, for operations one after the other. -/
def FineAlong (hw : QueueHw) : QueueState → List QueueOp → Prop
  | _, [] => True
  | s, op :: ops => op.Fine hw s ∧ FineAlong hw (op.apply hw s) ops

instance (hw : QueueHw) : ∀ (s : QueueState) (ops : List QueueOp), Decidable (FineAlong hw s ops)
  | _, [] => .isTrue trivial
  | s, op :: ops =>
    have := instDecidableFineAlong hw (op.apply hw s) ops
    inferInstanceAs (Decidable (_ ∧ _))

/-- The condition, for an event. -/
def QueueOk (hw : QueueHw) (s : QueueState) (_ : List HandedOut) (e : QueueEvent) : Prop :=
  FineAlong hw s (e.ops hw)
deriving Decidable

/-! ### The invariant -/

/-- Bits, counts and flags agree. -/
structure QueueInv (hw : QueueHw) (s : QueueState) : Prop where
  bits : ∀ q r, s.reasons q r = true ↔ 0 < s.counts q r
  nonneg : ∀ q r, 0 ≤ s.counts q r
  /-- A category whose queue is stopped has its flag. -/
  flags : hw.wakeTxQueue = true → ∀ v d, hw.vifs[v]? = some d → ∀ ac,
    s.stopped (d.hwQueue ac) = true → s.txqsStopped v ac = true

section Stopped

variable {s s' : QueueState} {q : ℕ} {r : QueueStopReason}

theorem stopped_iff : s.stopped q = true ↔ ∃ r, s.reasons q r = true := by
  rw [QueueState.stopped, any_eq_true]
  constructor
  · rintro ⟨r, -, h⟩
    exact ⟨r, h⟩
  · rintro ⟨r, h⟩
    exact ⟨r, by cases r <;> simp, h⟩

theorem stopped_of_reasons (h : ∀ r, s'.reasons q r = true → s.reasons q r = true)
    (hs : s'.stopped q = true) : s.stopped q = true := by
  obtain ⟨r, hr⟩ := stopped_iff.mp hs
  exact stopped_iff.mpr ⟨r, h r hr⟩

@[simp] theorem setCount_reasons (n : ℤ) : (s.setCount q r n).reasons = s.reasons := rfl

@[simp] theorem setReason_counts (b : Bool) : (s.setReason q r b).counts = s.counts := rfl

theorem setCount_counts (n : ℤ) (q' : ℕ) (r' : QueueStopReason) :
    (s.setCount q r n).counts q' r' = if q' = q ∧ r' = r then n else s.counts q' r' := by
  rw [QueueState.setCount]
  by_cases hq : q' = q
  · subst hq
    by_cases hr : r' = r
    · subst hr
      simp
    · simp [hr]
  · simp [hq]

theorem setReason_reasons (b : Bool) (q' : ℕ) (r' : QueueStopReason) :
    (s.setReason q r b).reasons q' r' = if q' = q ∧ r' = r then b else s.reasons q' r' := by
  rw [QueueState.setReason]
  by_cases hq : q' = q
  · subst hq
    by_cases hr : r' = r
    · subst hr
      simp
    · simp [hr]
  · simp [hq]

end Stopped

section Step

variable {hw : QueueHw} {s s' : QueueState} {q : ℕ} {r : QueueStopReason} {refcounted : Bool}

theorem QueueHw.stops_of_marked (h : hw.marked q = true) {v : ℕ} {d : QueueVif}
    (hv : hw.vifs[v]? = some d) {ac : Fin 4} (hq : d.hwQueue ac = q) : hw.stops q v ac = true := by
  rw [QueueHw.marked, all_eq_true] at h
  have hac := all_eq_true.mp (h d (mem_of_getElem? hv)) ac (mem_finRange ac)
  simp only [hq, ne_eq, not_true_eq_false, decide_false, Bool.false_or] at hac
  rw [QueueHw.stops, hv, Option.any_some, hac, hq]
  simp

theorem QueueInv.bits_setCount (h : QueueInv hw s) {n : ℤ} (hn : 0 < n) (hr : s.reasons q r = true)
    (q' : ℕ) (r' : QueueStopReason) :
    (s.setCount q r n).reasons q' r' = true ↔ 0 < (s.setCount q r n).counts q' r' := by
  rw [setCount_counts, setCount_reasons]
  split
  · rename_i heq
    rw [heq.1, heq.2]
    exact ⟨fun _ => hn, fun _ => hr⟩
  · exact h.bits q' r'

theorem QueueInv.stop (h : QueueInv hw s) (hfine : QueueOp.Fine hw s (.stop q r refcounted)) :
    QueueInv hw (stopQueue hw s q r refcounted) := by
  rw [stopQueue]
  split
  · exact h
  rename_i hq
  obtain ⟨hcount, hmarked⟩ := hfine (not_le.mp hq)
  have hnonneg := h.nonneg q r
  -- the new count is positive
  have hpos : 0 < (if refcounted = true then incInt (s.counts q r) else 1) := by
    split
    · rename_i hrc
      have hlt := hcount hrc
      rw [incInt, if_neg hlt.ne]
      omega
    · exact one_pos
  generalize (if refcounted = true then incInt (s.counts q r) else 1) = n at hpos ⊢
  have hnonneg' : ∀ q' r', 0 ≤ (s.setCount q r n).counts q' r' := by
    intro q' r'
    rw [setCount_counts]
    split
    · exact hpos.le
    · exact h.nonneg q' r'
  dsimp only
  split
  · rename_i hr
    exact ⟨h.bits_setCount hpos hr, hnonneg', h.flags⟩
  · refine ⟨fun q' r' => ?_, hnonneg', fun hwake v d hv ac hst => ?_⟩
    · change ((s.setCount q r n).setReason q r true).reasons q' r' = true ↔
        0 < (s.setCount q r n).counts q' r'
      rw [setReason_reasons, setCount_counts]
      split
      · simpa using hpos
      · exact h.bits q' r'
    · dsimp only
      by_cases hd : d.hwQueue ac = q
      · rw [hwake, QueueHw.stops_of_marked (hmarked hwake) hv hd]
        simp
      · have hold : s.stopped (d.hwQueue ac) = true := by
          refine stopped_of_reasons (fun r' hr' => ?_) hst
          change ((s.setCount q r n).setReason q r true).reasons (d.hwQueue ac) r' = true at hr'
          rwa [setReason_reasons, if_neg fun heq => hd heq.1] at hr'
        change (s.txqsStopped v ac || _) = true
        rw [h.flags hwake v d hv ac hold, Bool.true_or]

theorem reasons_dropReason (q' : ℕ) (r' : QueueStopReason)
    (hr : (dropReason s q r refcounted).reasons q' r' = true) : s.reasons q' r' = true := by
  simp only [dropReason] at hr
  split at hr
  · rw [setReason_reasons] at hr
    split at hr
    · cases hr
    · exact hr
  · exact hr

theorem QueueInv.dropReason (h : QueueInv hw s) (hr : s.reasons q r = true) :
    QueueInv hw (dropReason s q r refcounted) := by
  have hpos := (h.bits q r).mp hr
  have hcount : 0 ≤ wakeCount (s.counts q r) refcounted := by
    rw [wakeCount]
    split
    · exact le_max_right _ _
    · exact le_rfl
  have hflags : hw.wakeTxQueue = true → ∀ v d, hw.vifs[v]? = some d → ∀ ac,
      (Mac80211.dropReason s q r refcounted).stopped (d.hwQueue ac) = true →
        (Mac80211.dropReason s q r refcounted).txqsStopped v ac = true := by
    intro hwake v d hv ac hst
    have hold := h.flags hwake v d hv ac (stopped_of_reasons (reasons_dropReason _) hst)
    rw [Mac80211.dropReason]
    split <;> exact hold
  refine ⟨?_, ?_, hflags⟩
  · intro q' r'
    simp only [Mac80211.dropReason]
    split
    · rename_i hzero
      rw [setReason_reasons, setReason_counts, setCount_counts]
      split
      · simp [hzero]
      · exact h.bits q' r'
    · rename_i hzero
      exact h.bits_setCount (by omega) hr q' r'
  · intro q' r'
    simp only [Mac80211.dropReason]
    split
    all_goals
      simp only [setReason_counts, setCount_counts]
      split
      · exact hcount
      · exact h.nonneg q' r'

/-- Nothing but flags of net devices and of intermediate queues changes. -/
theorem QueueInv.of_same (h : QueueInv hw s) (hr : s'.reasons = s.reasons) (hc : s'.counts = s.counts)
    (hf : s'.txqsStopped = s.txqsStopped) : QueueInv hw s' := by
  refine ⟨?_, ?_, ?_⟩
  · rw [hr, hc]
    exact h.bits
  · rw [hc]
    exact h.nonneg
  · intro hwake v d hv ac hst
    rw [hf]
    exact h.flags hwake v d hv ac (stopped_of_reasons (by rw [hr]; exact fun _ h => h) hst)

theorem QueueInv.propagate (h : QueueInv hw s) : QueueInv hw (propagateQueueWake hw s q) := by
  rw [propagateQueueWake]
  split
  · exact h
  · exact h.of_same rfl rfl rfl

theorem wokenTxqs_eq_false (hok : sweepOk hw s = true) {v : ℕ} {d : QueueVif}
    (hv : hw.vifs[v]? = some d) {ac : Fin 4} (hst : s.stopped (d.hwQueue ac) = true) :
    wokenTxqs hw s v ac = false := by
  rw [wokenTxqs, any_eq_false]
  intro i hi hwoken
  rw [mem_range] at hi
  simp only [QueueHw.wakes, hv, Option.any_some, Bool.and_eq_true, Bool.not_eq_true', Bool.or_eq_true,
    decide_eq_true_eq] at hwoken
  obtain ⟨hrun, hac, hd | hcab⟩ := hwoken
  · rw [hd, hrun] at hst
    cases hst
  · rw [sweepOk, all_eq_true] at hok
    have hd := hok d (mem_of_getElem? hv)
    rw [hcab, hrun, Bool.or_false, decide_eq_false (not_le.mpr hi), Bool.false_or,
      all_eq_true] at hd
    have hall := hd ac (mem_finRange ac)
    rw [hst, decide_eq_false (not_le.mpr hac)] at hall
    cases hall

theorem QueueInv.wakeTxqs (h : QueueInv hw s) (hok : hw.wakeTxQueue = true → sweepOk hw s = true) :
    QueueInv hw (wakeTxqs hw s) := by
  refine ⟨h.bits, h.nonneg, fun hwake v d hv ac hst => ?_⟩
  have hst : s.stopped (d.hwQueue ac) = true := hst
  change (s.txqsStopped v ac && !wokenTxqs hw s v ac) = true
  rw [h.flags hwake v d hv ac hst, wokenTxqs_eq_false (hok hwake) hv hst]
  rfl

theorem QueueInv.wake (h : QueueInv hw s) (hfine : QueueOp.Fine hw s (.wake q r refcounted)) :
    QueueInv hw (wakeQueue hw s q r refcounted) := by
  rw [wakeQueue]
  split
  · exact h
  rename_i hguard
  simp only [Bool.or_eq_true, decide_eq_true_eq, Bool.not_eq_true', not_or, not_le,
    Bool.not_eq_false] at hguard
  obtain ⟨hq, hr⟩ := hguard
  have hdrop : QueueInv hw (Mac80211.dropReason s q r refcounted) := h.dropReason hr
  have hfine' := hfine hq hr
  dsimp only
  split
  · exact hdrop
  rename_i hrun
  rw [Bool.not_eq_true] at hrun
  have hprop : ∀ {s₁ : QueueState}, QueueInv hw s₁ →
      QueueInv hw (if s₁.pending q = 0 then propagateQueueWake hw s₁ q else s₁) := by
    intro s₁ h₁
    split
    · exact h₁.propagate
    · exact h₁
  split
  · rename_i hsweep
    simp only [Bool.and_eq_true, decide_eq_true_eq] at hsweep
    have hsame : ∀ {s₁ : QueueState}, sweepOk hw (if s₁.pending q = 0 then propagateQueueWake hw s₁ q
        else s₁) = sweepOk hw s₁ := by
      intro s₁
      split
      · rw [propagateQueueWake]
        split <;> rfl
      · rfl
    exact (hprop hdrop).wakeTxqs fun hwake => hsame.trans (hfine' hwake hsweep.2 hrun)
  · exact hprop hdrop

theorem QueueInv.apply (h : QueueInv hw s) {op : QueueOp} (hfine : op.Fine hw s) :
    QueueInv hw (op.apply hw s) := by
  cases op with
  | stop q r refcounted => exact h.stop hfine
  | wake q r refcounted => exact h.wake hfine
  | push q => exact h.of_same rfl rfl rfl
  | sweep => exact h.wakeTxqs hfine
  | send left q =>
    rw [QueueOp.apply, txPendingQueue]
    split
    · exact h
    · dsimp only
      have hsent : QueueInv hw { s with pending := Function.update s.pending q (left q) } :=
        h.of_same rfl rfl rfl
      split
      · exact hsent.propagate
      · exact hsent

theorem QueueInv.foldl {ops : List QueueOp} (h : QueueInv hw s) (hfine : FineAlong hw s ops) :
    QueueInv hw (ops.foldl (QueueOp.apply hw) s) := by
  induction ops generalizing s with
  | nil => exact h
  | cons op ops ih => exact ih (h.apply hfine.1) hfine.2

theorem QueueInv.txDequeue (h : QueueInv hw s) (hwake : hw.wakeTxQueue = true) (t : ℕ) :
    ∀ o ∈ (txDequeueStep hw s t).2, o.stopped = false := by
  rw [txDequeueStep]
  split
  · simp
  rename_i q hq
  split
  · simp
  split
  · simp
  rename_i hflag
  split
  · simp
  · simp only [mem_singleton, forall_eq]
    cases hv : hw.vifs[q.vif]? with
    | none => rfl
    | some d =>
      rw [Option.any_some, ← Bool.not_eq_true]
      intro hst
      exact hflag (h.flags hwake q.vif d hv q.ac hst)

theorem QueueInv.step {e : QueueEvent} {os o : List HandedOut} (h : QueueInv hw s)
    (hok : QueueOk hw s os e) (hs : queueStep hw s e = some (s', o)) :
    QueueInv hw s' ∧ (hw.wakeTxQueue = true → ∀ x ∈ o, x.stopped = false) := by
  have hops : ∀ {e : QueueEvent}, QueueOk hw s os e →
      some ((e.ops hw).foldl (QueueOp.apply hw) s, ([] : List HandedOut)) = some (s', o) →
      QueueInv hw s' ∧ (hw.wakeTxQueue = true → ∀ x ∈ o, x.stopped = false) := by
    intro e hok hs
    cases hs
    exact ⟨h.foldl hok, fun _ x hx => by cases hx⟩
  cases e with
  | txDequeue t =>
    have heq := Option.some.inj hs
    have hs' : s' = (txDequeueStep hw s t).1 := (congrArg Prod.fst heq).symm
    have ho : o = (txDequeueStep hw s t).2 := (congrArg Prod.snd heq).symm
    refine ⟨?_, fun hwake => ho ▸ h.txDequeue hwake t⟩
    rw [hs', txDequeueStep]
    split
    · exact h
    split
    · exact h
    split
    · exact h.of_same rfl rfl rfl
    split
    · exact h
    · exact h.of_same rfl rfl rfl
  | enqueue t n =>
    cases hs
    exact ⟨h.of_same rfl rfl rfl, fun _ x hx => by cases hx⟩
  | _ => exact hops hok hs

theorem queueInv_init (hw : QueueHw) : QueueInv hw {} := by
  refine ⟨fun q r => by simp, fun _ _ => le_rfl, fun _ v d _ ac hst => ?_⟩
  obtain ⟨r, hr⟩ := stopped_iff.mp hst
  cases hr

end Step

/-! ### An AP interface -/

/-- The four queues of an AP interface, its queue for what comes after a beacon, and one more. -/
def apQueues : QueueHw where
  queues := 10
  wakeTxQueue := true
  vifs := [{ hwQueue := fun ac => ac, cabQueue := 8 }]
  txqs := [{ vif := 0, ac := 2 }]

/-- Queues are stopped and woken, and frames are pulled in between. -/
def stopAndWake : List QueueEvent :=
  [.enqueue 0 2, .stop 2 .ps true, .stop 2 .ps true, .txDequeue 0, .wake 2 .ps true, .txDequeue 0,
    .wake 2 .ps true, .txDequeue 0, .addPendingSkbs [2, 2], .txPending fun _ => 0, .stop 8 .driver false,
    .wake 8 .driver false, .wakeTxqs, .txDequeue 0]

end Mac80211
