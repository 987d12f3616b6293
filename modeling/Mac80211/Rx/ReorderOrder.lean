import Mac80211.Rx.ReorderInvariant
import Mathlib.Algebra.BigOperators.Pi
import Mathlib.Tactic.Abel

/-!
# In-order delivery

A session that sees neither marks nor parts of A-MSDUs keeps at most one frame in a slot. Frames
older than its starting sequence number are handed on before it has started, and a block-ack request
moves the window without delivering anything.

## Main results

* `in_order_delivery` — each frame comes out once or stays, in the order of sequence numbers
-/

namespace Mac80211

open Machine List

/-! ### Histories -/

/-- One more output, for `since`. -/
def sinceStep (r : Option ℕ × ℕ) : ReorderOut → Option ℕ × ℕ
  | .delivered skb => (some skb.sn, 0)
  | .moved n => (r.1, r.2 + n)
  | .early _ | .freed _ => r

/-- The sequence number that was delivered last, and how far block-ack requests have moved the window
since. -/
def since (outs : List ReorderOut) : Option ℕ × ℕ := outs.foldl sinceStep (none, 0)

/-- From one delivery to the next the sequence number advances by less than 2048, what block-ack
requests have moved the window apart. -/
def InOrder (outs : List ReorderOut) : Prop :=
  ∀ before skb after, outs = before ++ .delivered skb :: after →
    ∀ p moved, since before = (some p, moved) →
      ∃ a, 0 < a ∧ a < SN_MODULO / 2 + moved ∧ skb.sn = (p + a) % SN_MODULO

/-- The frames that came in. -/
def received (ops : List ReorderOp) : Multiset AmpduSkb :=
  ops.filterMap fun
    | .frame _ skb => some skb
    | _ => none

/-- The frames of some kind of output. -/
def collect (kind : ReorderOut → Option AmpduSkb) (outs : List ReorderOut) : Multiset AmpduSkb :=
  outs.filterMap kind

/-- The frames that were delivered. -/
def delivered : List ReorderOut → Multiset AmpduSkb :=
  collect fun | .delivered skb => some skb | _ => none

/-- The frames that were handed on before the session had started. -/
def early : List ReorderOut → Multiset AmpduSkb :=
  collect fun | .early skb => some skb | _ => none

/-- The frames that were dropped. -/
def freed : List ReorderOut → Multiset AmpduSkb :=
  collect fun | .freed skb => some skb | _ => none

/-- The frames that are accounted for. -/
def books (outs : List ReorderOut) : Multiset AmpduSkb := delivered outs + early outs + freed outs

/-- The frames in the buffer. -/
def TidAmpduRx.stored (t : TidAmpduRx) : Multiset AmpduSkb :=
  ∑ i ∈ Finset.range t.bufSize, (t.reorderBuf i : Multiset AmpduSkb)

section Histories

variable {outs outs' : List ReorderOut}

theorem since_append_single (outs : List ReorderOut) (o : ReorderOut) :
    since (outs ++ [o]) = sinceStep (since outs) o := by
  rw [since, foldl_append]
  rfl

theorem inOrder_append_single {o : ReorderOut} (h : InOrder outs)
    (ho : ∀ skb, o = .delivered skb → ∀ p moved, since outs = (some p, moved) →
      ∃ a, 0 < a ∧ a < SN_MODULO / 2 + moved ∧ skb.sn = (p + a) % SN_MODULO) :
    InOrder (outs ++ [o]) := by
  intro before skb after heq
  rcases eq_nil_or_concat after with rfl | ⟨after, o', rfl⟩
  · obtain ⟨rfl, ho'⟩ := append_inj' heq rfl
    exact ho skb (singleton_inj.mp ho')
  · rw [concat_eq_append, ← cons_append, ← append_assoc] at heq
    obtain ⟨rfl, -⟩ := append_inj' heq rfl
    exact h before skb after rfl

theorem collect_append (kind : ReorderOut → Option AmpduSkb) (outs outs' : List ReorderOut) :
    collect kind (outs ++ outs') = collect kind outs + collect kind outs' := by
  rw [collect, filterMap_append, ← Multiset.coe_add]
  rfl

theorem books_append (outs outs' : List ReorderOut) :
    books (outs ++ outs') = books outs + books outs' := by
  simp only [books, delivered, early, freed, collect_append]
  abel

theorem books_map_delivered (frames : List AmpduSkb) : books (frames.map .delivered) = frames := by
  have hd : delivered (frames.map .delivered) = frames := by
    rw [delivered, collect, filterMap_map]
    exact congrArg _ filterMap_some
  have he : early (frames.map .delivered) = 0 := by
    rw [early, collect, filterMap_map]
    simp
  have hf : freed (frames.map .delivered) = 0 := by
    rw [freed, collect, filterMap_map]
    simp
  rw [books, hd, he, hf, add_zero, add_zero]

theorem books_fate (skb : AmpduSkb) {fate : Fate} (hfate : fate ≠ .queued) :
    books (fate.outs skb) = {skb} := by
  cases fate with
  | early => simp [books, Fate.outs, delivered, early, freed, collect]
  | next => simp [books, Fate.outs, delivered, early, freed, collect]
  | freed => simp [books, Fate.outs, delivered, early, freed, collect]
  | queued => exact absurd rfl hfate

end Histories

/-! ### One frame a slot -/

/-- Nothing is marked, and a slot holds at most one frame, which is complete. -/
structure Plain (t : TidAmpduRx) : Prop where
  unfiltered : t.reorderBufFiltered = 0
  single : ∀ i, (t.reorderBuf i).length ≤ 1
  whole : ∀ i, ∀ skb ∈ t.reorderBuf i, skb.amsduMore = false

variable {skb : AmpduSkb} {i : ℕ}

section Plain

variable {t : TidAmpduRx} {frames : List AmpduSkb}

theorem Plain.ready_iff (h : Plain t) (i : ℕ) :
    t.rxReorderReady i = true ↔ t.reorderBuf i ≠ [] := by
  rw [TidAmpduRx.rxReorderReady, h.unfiltered, UInt64.zero_and, TidAmpduRx.complete]
  cases hlast : (t.reorderBuf i).getLast? with
  | none => simpa using hlast
  | some skb =>
    have hmem : skb ∈ t.reorderBuf i := mem_of_getLast? hlast
    simp only [h.whole i skb hmem]
    simpa using ne_nil_of_mem hmem

theorem Plain.nil_of_not_ready (h : Plain t) (hnot : t.rxReorderReady i = false) :
    t.reorderBuf i = [] := by
  by_contra hne
  rw [(h.ready_iff i).mpr hne] at hnot
  cases hnot

theorem Plain.nil_of_storedMpduNum (h : SlotInv t) (hp : Plain t) (hzero : t.storedMpduNum = 0)
    (hi : i < t.bufSize) : t.reorderBuf i = [] := by
  by_contra hne
  have hc := h.countInv.complete_of_ready hi hne ((hp.ready_iff i).mpr hne)
  rw [h.count, Finset.card_eq_zero] at hzero
  have hmem := t.mem_completeSlots.mpr ⟨hi, hc⟩
  rw [hzero] at hmem
  cases hmem

theorem Plain.releaseHead_snd (h : Plain t) :
    (releaseHead (t, frames)).2 = frames ++ t.reorderBuf t.headIndex := by
  simp only [releaseHead, releaseReorderFrame]
  by_cases hne : t.reorderBuf t.headIndex = []
  · rw [hne]
    simp
  · rw [(h.ready_iff _).mpr hne]
    simp [hne]

theorem Plain.releaseHead (h : Plain t) : Plain (releaseHead (t, frames)).1 := by
  have hbuf : ∀ i, (Mac80211.releaseHead (t, frames)).1.reorderBuf i = [] ∨
      (Mac80211.releaseHead (t, frames)).1.reorderBuf i = t.reorderBuf i := by
    intro i
    by_cases hi : i = t.headIndex
    · exact .inl (hi ▸ releaseReorderFrame_reorderBuf_self _)
    · exact .inr (releaseReorderFrame_reorderBuf_of_ne hi)
  refine ⟨?_, ?_, ?_⟩
  · show t.reorderBufFiltered &&& _ = 0
    rw [h.unfiltered, UInt64.zero_and]
  · intro i
    rcases hbuf i with hi | hi
    · rw [hi]
      exact Nat.zero_le 1
    · rw [hi]
      exact h.single i
  · intro i skb hskb
    rcases hbuf i with hi | hi
    · rw [hi] at hskb
      cases hskb
    · rw [hi] at hskb
      exact h.whole i skb hskb

theorem Plain.sweep (n : ℕ) : ∀ {t : TidAmpduRx} {frames : List AmpduSkb}, Plain t →
    Plain (sweep n (t, frames)).1 := by
  induction n with
  | zero => exact fun h => h
  | succ n ih =>
    intro t frames h
    rw [sweep_succ]
    exact ih h.releaseHead

theorem Plain.store (h : Plain t) (jiffies : UInt64)
    (hmore : skb.amsduMore = false) (hnot : t.rxReorderReady (skb.sn % t.bufSize) = false) :
    Plain (store jiffies t skb) := by
  have hbuf : ∀ i, (Mac80211.store jiffies t skb).reorderBuf i = [skb] ∨
      (Mac80211.store jiffies t skb).reorderBuf i = t.reorderBuf i := by
    intro i
    by_cases hi : i = skb.sn % t.bufSize
    · refine .inl ?_
      rw [hi, store_reorderBuf, Function.update_self, h.nil_of_not_ready hnot]
      rfl
    · exact .inr (reorderBuf_store_of_ne jiffies hi)
  refine ⟨?_, ?_, ?_⟩
  · rw [(store_fields jiffies t skb).2.2.1, h.unfiltered]
  · intro i
    rcases hbuf i with hi | hi
    · rw [hi]
      exact le_rfl
    · rw [hi]
      exact h.single i
  · intro i skb' hskb'
    rcases hbuf i with hi | hi
    · rw [hi, mem_singleton] at hskb'
      rw [hskb', hmore]
    · rw [hi] at hskb'
      exact h.whole i skb' hskb'

theorem Plain.headKept (h : Plain t) (hz jiffies : UInt64) : HeadKept hz jiffies t := by
  intro _ hne m _ hpos hgap
  have hnil := h.nil_of_not_ready (hgap 0 hpos)
  exact absurd hnil hne

end Plain

/-! ### The order of a sweep -/

/-- The window is `a` ahead of the last delivery `p`. If nothing is stored, it has not gone further
than `B` by itself. -/
def Gap (t : TidAmpduRx) (p moved B : ℕ) : Prop :=
  ∃ a, 0 < a ∧ t.headSeqNum % SN_MODULO = (p + a) % SN_MODULO ∧
    ((∃ m < t.bufSize, t.reorderBuf (t.slot m) ≠ [] ∧ a + m < SN_MODULO / 2 + moved) ∨
      (∀ m < t.bufSize, t.reorderBuf (t.slot m) = []) ∧ a ≤ B + moved)

/-- What the history says about the state. -/
structure Ordered (outs : List ReorderOut) (t : TidAmpduRx) (B : ℕ) : Prop where
  inOrder : InOrder outs
  gap : ∀ p moved, since outs = (some p, moved) → Gap t p moved B

section Order

variable {t : TidAmpduRx} {frames : List AmpduSkb} {outs : List ReorderOut} {B : ℕ}

theorem reorderBuf_releaseHead (h : SlotInv t) {m : ℕ} (hm : m < t.bufSize) :
    (releaseHead (t, frames)).1.reorderBuf ((releaseHead (t, frames)).1.slot m) =
      if m + 1 < t.bufSize then t.reorderBuf (t.slot (m + 1)) else [] := by
  have hslot : (releaseHead (t, frames)).1.slot m = t.slot (m + 1) := slot_releaseReorderFrame h _ m
  rw [hslot]
  split
  · rename_i hlt
    refine releaseReorderFrame_reorderBuf_of_ne fun heq => ?_
    have := eq_of_slot_eq hlt h.pos heq
    omega
  · have hlast : t.slot (m + 1) = t.headIndex := by
      rw [TidAmpduRx.slot, show m + 1 = t.bufSize by omega, Nat.add_mod_right]
      rfl
    rw [hlast]
    exact releaseReorderFrame_reorderBuf_self _

theorem Gap.shift {p moved : ℕ} (h : SlotInv t) (hnil : t.reorderBuf t.headIndex = [])
    (hgap : Gap t p moved B) : Gap (releaseHead (t, frames)).1 p moved (B + 1) := by
  obtain ⟨a, hpos, hhead, hnext⟩ := hgap
  have hbuf := @reorderBuf_releaseHead t frames h
  refine ⟨a + 1, by omega, ?_, ?_⟩
  · show snInc t.headSeqNum % SN_MODULO = _
    simp only [snInc, snAdd, SN_MODULO] at *
    omega
  · rcases hnext with ⟨m, hm, hne, hlt⟩ | ⟨hall, hle⟩
    · have hzero : m ≠ 0 := fun hzero => hne (hzero ▸ hnil)
      refine .inl ⟨m - 1, show m - 1 < t.bufSize by omega, ?_, by omega⟩
      rw [hbuf (by omega), show m - 1 + 1 = m by omega, if_pos hm]
      exact hne
    · refine .inr ⟨fun m hm => ?_, by omega⟩
      rw [hbuf hm]
      split
      · rename_i hlt
        exact hall _ hlt
      · rfl

theorem gap_of_delivered (h : SlotInv t) {p : ℕ}
    (hhead : t.headSeqNum % SN_MODULO = (p + 1) % SN_MODULO) : Gap t p 0 1 := by
  refine ⟨1, Nat.one_pos, hhead, ?_⟩
  by_cases hall : ∀ m < t.bufSize, t.reorderBuf (t.slot m) = []
  · exact .inr ⟨hall, le_rfl⟩
  · push Not at hall
    obtain ⟨m, hm, hne⟩ := hall
    have hle := h.le
    exact .inl ⟨m, hm, hne, by simp only [SN_MODULO]; omega⟩

/-- **The frame the window begins with is delivered in order.** -/
theorem Ordered.deliver {t' : TidAmpduRx} (hord : Ordered outs t B)
    (hsn : skb.sn = t.headSeqNum % SN_MODULO)
    (hnear : (∀ m < t.bufSize, t.reorderBuf (t.slot m) = []) → B < SN_MODULO / 2)
    (h' : SlotInv t') (hhead' : t'.headSeqNum = snInc t.headSeqNum) :
    Ordered (outs ++ [.delivered skb]) t' 1 := by
  constructor
  · refine inOrder_append_single hord.inOrder ?_
    rintro skb' ⟨⟩ p moved hsince
    obtain ⟨a, hpos, hhead, hnext⟩ := hord.gap p moved hsince
    refine ⟨a, hpos, ?_, hsn.trans hhead⟩
    rcases hnext with ⟨m, _, _, hlt⟩ | ⟨hall, hle⟩
    · omega
    · have := hnear hall
      omega
  · intro p moved hsince
    rw [since_append_single] at hsince
    obtain ⟨hp, rfl⟩ := Prod.mk.inj hsince
    cases hp
    refine gap_of_delivered h' ?_
    rw [hhead', hsn]
    simp only [snInc, snAdd, SN_MODULO]
    omega

/-- **One slot is released in order.** -/
theorem Ordered.releaseHead (h : SlotInv t) (hp : Plain t)
    (hord : Ordered (outs ++ frames.map .delivered) t B) :
    Ordered (outs ++ (releaseHead (t, frames)).2.map .delivered) (releaseHead (t, frames)).1
      (if t.reorderBuf t.headIndex = [] then B + 1 else 1) := by
  rw [hp.releaseHead_snd]
  by_cases hnil : t.reorderBuf t.headIndex = []
  · rw [if_pos hnil, hnil, append_nil]
    exact ⟨hord.inOrder, fun p moved hsince => (hord.gap p moved hsince).shift h hnil⟩
  · obtain ⟨skb, hskb⟩ : ∃ skb, t.reorderBuf t.headIndex = [skb] := by
      have hlen := hp.single t.headIndex
      have hpos := length_pos_of_ne_nil hnil
      exact length_eq_one_iff.mp (by omega)
    have hsn : skb.sn = t.headSeqNum % SN_MODULO := by
      refine h.placed 0 h.pos skb ?_
      rw [← t.headIndex_eq, hskb]
      exact mem_singleton_self skb
    rw [if_neg hnil, hskb, map_append, ← append_assoc]
    exact hord.deliver hsn (fun hall => absurd (hall 0 h.pos) hnil) h.releaseHead rfl

theorem Ordered.mono {B' : ℕ} (hord : Ordered outs t B) (hB : B ≤ B') : Ordered outs t B' := by
  refine ⟨hord.inOrder, fun p moved hsince => ?_⟩
  obtain ⟨a, hpos, hhead, hnext⟩ := hord.gap p moved hsince
  refine ⟨a, hpos, hhead, hnext.imp_right fun hall => ⟨hall.1, ?_⟩⟩
  have := hall.2
  omega

/-- **A sweep delivers in order.** -/
theorem Ordered.sweep (n : ℕ) : ∀ {t : TidAmpduRx} {frames : List AmpduSkb} {B : ℕ}, SlotInv t →
    Plain t → 0 < B → Ordered (outs ++ frames.map .delivered) t B →
    Ordered (outs ++ (sweep n (t, frames)).2.map .delivered) (sweep n (t, frames)).1 (B + n) := by
  induction n with
  | zero => exact fun _ _ _ hord => hord
  | succ n ih =>
    intro t frames B h hp hB hord
    rw [sweep_succ, show B + (n + 1) = B + 1 + n by omega]
    refine ih h.releaseHead hp.releaseHead (Nat.succ_pos B) ((hord.releaseHead h hp).mono ?_)
    split <;> omega

theorem ordered_sweep_of_endsReady {k : ℕ} (h : SlotInv t) (hp : Plain t)
    (hord : Ordered (outs ++ frames.map .delivered) t 1) (hends : EndsReady (t, frames) k) :
    Ordered (outs ++ (sweep k (t, frames)).2.map .delivered) (sweep k (t, frames)).1 1 := by
  rcases k with _ | k
  · exact hord
  · have hready := hends k rfl
    have hk := Ordered.sweep k h hp Nat.one_pos hord
    have hne := ((hp.sweep k).ready_iff _).mp hready
    have hlast := hk.releaseHead (h.sweep k) (hp.sweep k)
    rw [if_neg hne] at hlast
    rw [sweep_add]
    exact hlast

theorem Ordered.store (h : SlotInv t) (jiffies : UInt64)
    (hord : Ordered outs t B) (hin : snSub skb.sn t.headSeqNum < t.bufSize)
    (hnear : B + snSub skb.sn t.headSeqNum < SN_MODULO / 2) :
    Ordered outs (store jiffies t skb) 1 := by
  obtain ⟨hsize, hhead', -, -⟩ := store_fields jiffies t skb
  have hslot : ∀ m, (Mac80211.store jiffies t skb).slot m = t.slot m := by
    intro m
    rw [TidAmpduRx.slot, hsize, hhead']
    rfl
  have hplace : t.slot (snSub skb.sn t.headSeqNum) = skb.sn % t.bufSize := by
    rw [TidAmpduRx.slot, ← Nat.mod_mod_of_dvd _ h.dvd, add_snSub_mod, Nat.mod_mod_of_dvd _ h.dvd]
  have hself : (Mac80211.store jiffies t skb).reorderBuf (skb.sn % t.bufSize) ≠ [] := by
    rw [store_reorderBuf, Function.update_self]
    simp
  refine ⟨hord.inOrder, fun p moved hsince => ?_⟩
  obtain ⟨a, hpos, hhead, hnext⟩ := hord.gap p moved hsince
  refine ⟨a, hpos, hhead' ▸ hhead, .inl ?_⟩
  rw [hsize]
  rcases hnext with ⟨m, hm, hne, hlt⟩ | ⟨_, hle⟩
  · refine ⟨m, hm, ?_, hlt⟩
    rw [hslot]
    by_cases hms : t.slot m = skb.sn % t.bufSize
    · rw [hms]
      exact hself
    · rw [reorderBuf_store_of_ne jiffies hms]
      exact hne
  · refine ⟨snSub skb.sn t.headSeqNum, hin, ?_, by omega⟩
    rw [hslot, hplace]
    exact hself

end Order

/-! ### No frame is lost -/

section Account

variable {t : TidAmpduRx} {frames : List AmpduSkb}

theorem stored_eq_add (t : TidAmpduRx) (hi : i < t.bufSize) : t.stored = t.reorderBuf i +
      ∑ j ∈ (Finset.range t.bufSize).erase i, (t.reorderBuf j : Multiset AmpduSkb) :=
  (Finset.add_sum_erase _ (fun j => (t.reorderBuf j : Multiset AmpduSkb))
    (Finset.mem_range.mpr hi)).symm

theorem stored_update {t' : TidAmpduRx} {i : ℕ} (hi : i < t.bufSize)
    (hsize : t'.bufSize = t.bufSize) (hne : ∀ j, j ≠ i → t'.reorderBuf j = t.reorderBuf j) :
    t'.stored + t.reorderBuf i = t.stored + t'.reorderBuf i := by
  rw [stored_eq_add t hi, stored_eq_add t' (hsize ▸ hi), hsize]
  have hrest : ∑ j ∈ (Finset.range t.bufSize).erase i, (t'.reorderBuf j : Multiset AmpduSkb) =
      ∑ j ∈ (Finset.range t.bufSize).erase i, (t.reorderBuf j : Multiset AmpduSkb) := by
    refine Finset.sum_congr rfl fun j hj => ?_
    rw [hne j (Finset.ne_of_mem_erase hj)]
  rw [hrest]
  abel

theorem stored_releaseHead (h : SlotInv t) (hp : Plain t) :
    (releaseHead (t, frames)).1.stored + ((releaseHead (t, frames)).2 : Multiset AmpduSkb) =
      t.stored + frames := by
  have hstored := @stored_update t (releaseHead (t, frames)).1 t.headIndex (Nat.mod_lt _ h.pos) rfl
    fun j hj => releaseReorderFrame_reorderBuf_of_ne hj
  have hself : (releaseHead (t, frames)).1.reorderBuf t.headIndex = [] :=
    releaseReorderFrame_reorderBuf_self _
  rw [hself, Multiset.coe_nil, add_zero] at hstored
  rw [hp.releaseHead_snd, ← Multiset.coe_add, ← hstored]
  abel

/-- **What leaves the buffer in a sweep comes out.** -/
theorem stored_sweep (n : ℕ) : ∀ {t : TidAmpduRx} {frames : List AmpduSkb}, SlotInv t → Plain t →
    (sweep n (t, frames)).1.stored + ((sweep n (t, frames)).2 : Multiset AmpduSkb) =
      t.stored + frames := by
  induction n with
  | zero => exact fun _ _ => rfl
  | succ n ih =>
    intro t frames h hp
    rw [sweep_succ]
    exact (ih h.releaseHead hp.releaseHead).trans (stored_releaseHead h hp)

theorem stored_store (h : SlotInv t) (jiffies : UInt64) (skb : AmpduSkb) :
    (store jiffies t skb).stored = t.stored + {skb} := by
  have hi : skb.sn % t.bufSize < t.bufSize := Nat.mod_lt _ h.pos
  have hstored := @stored_update t (store jiffies t skb) _ hi (store_fields jiffies t skb).1
    fun j hj => reorderBuf_store_of_ne jiffies hj
  rw [store_reorderBuf, Function.update_self, ← Multiset.coe_add, Multiset.coe_singleton,
    add_comm (t.reorderBuf _ : Multiset AmpduSkb), ← add_assoc] at hstored
  exact add_right_cancel hstored

end Account

/-! ### A frame arrives -/

variable {jiffies : UInt64}

section Frames

variable {t t' : TidAmpduRx} {frames : List AmpduSkb} {outs : List ReorderOut} {B : ℕ}

theorem Ordered.append_single {o : ReorderOut} (hord : Ordered outs t B)
    (ho : ∀ skb, o ≠ .delivered skb) (hsince : sinceStep (since outs) o = since outs) :
    Ordered (outs ++ [o]) t B := by
  refine ⟨inOrder_append_single hord.inOrder fun skb hskb => absurd hskb (ho skb), ?_⟩
  rw [since_append_single, hsince]
  exact hord.gap

theorem Ordered.of_stored (B' : ℕ) {m : ℕ} (hord : Ordered outs t B) (hm : m < t.bufSize)
    (hne : t.reorderBuf (t.slot m) ≠ []) : Ordered outs t B' := by
  refine ⟨hord.inOrder, fun p moved hsince => ?_⟩
  obtain ⟨a, hpos, hhead, hnext⟩ := hord.gap p moved hsince
  refine ⟨a, hpos, hhead, hnext.imp_right fun hall => ?_⟩
  exact absurd (hall.1 m hm) hne

/-- The frame is old, or not too far ahead. -/
def Near (t : TidAmpduRx) (skb : AmpduSkb) : Prop :=
  snLess skb.sn t.headSeqNum = true ∨ snSub skb.sn t.headSeqNum + 1 < SN_MODULO / 2

theorem Near.lt (hnear : Near t skb) (hold : snLess skb.sn t.headSeqNum = false) :
    snSub skb.sn t.headSeqNum + 1 < SN_MODULO / 2 := by
  rcases hnear with htrue | hlt
  · rw [hold] at htrue
    cases htrue
  · exact hlt

theorem Near.far (hnear : Near t skb) (hold : snLess skb.sn t.headSeqNum = false) :
    ¬ (t.bufSize = 1 ∧ snSub skb.sn t.headSeqNum = SN_MODULO / 2) := by
  have hlt := hnear.lt hold
  omega

theorem Plain.makeRoom {sn : ℕ} (h : SlotInv t) (hp : Plain t)
    (hold : snLess sn t.headSeqNum = false)
    (hfar : ¬ (t.bufSize = 1 ∧ snSub sn t.headSeqNum = SN_MODULO / 2)) :
    Plain (makeRoom t sn).1 := by
  rw [makeRoom_eq_sweep h hold hfar]
  exact hp.sweep _

theorem frameCond_of_plain {hz jiffies : UInt64} {skb : AmpduSkb} (h : SlotInv t) (hp : Plain t)
    (hnear : Near t skb) : FrameCond hz jiffies t skb := by
  have hroom : snLess skb.sn t.headSeqNum = false → Plain (makeRoom t skb.sn).1 ∧
      (makeRoom t skb.sn).1.bufSize = t.bufSize := fun hold =>
    ⟨hp.makeRoom h hold (hnear.far hold), (h.makeRoom hold (hnear.far hold)).2.1⟩
  refine ⟨hnear.far, ?_, ?_⟩
  · intro hold _ _ _ hnot
    exact (hroom hold).1.nil_of_not_ready hnot
  · intro hold _ hmore hnot
    obtain ⟨hp', hsize⟩ := hroom hold
    exact (hp'.store jiffies hmore (by rw [hsize]; exact hnot)).headKept hz jiffies

theorem ordered_makeRoom {sn : ℕ} (h : SlotInv t) (hp : Plain t) (hord : Ordered outs t 1)
    (hold : snLess sn t.headSeqNum = false)
    (hfar : ¬ (t.bufSize = 1 ∧ snSub sn t.headSeqNum = SN_MODULO / 2)) :
    Ordered (outs ++ (makeRoom t sn).2.map .delivered) (makeRoom t sn).1
      (1 + (snSub sn t.headSeqNum + 1 - t.bufSize)) := by
  rw [makeRoom_eq_sweep h hold hfar]
  refine Ordered.sweep _ h hp Nat.one_pos ?_
  rw [map_nil, append_nil]
  exact hord

theorem stored_makeRoom {sn : ℕ} (h : SlotInv t) (hp : Plain t)
    (hold : snLess sn t.headSeqNum = false)
    (hfar : ¬ (t.bufSize = 1 ∧ snSub sn t.headSeqNum = SN_MODULO / 2)) :
    (makeRoom t sn).1.stored + ((makeRoom t sn).2 : Multiset AmpduSkb) = t.stored := by
  rw [makeRoom_eq_sweep h hold hfar, stored_sweep _ h hp, Multiset.coe_nil, add_zero]

theorem exists_place (hi : i < t.bufSize) (hne : t.reorderBuf i ≠ []) :
    ∃ m < t.bufSize, t.reorderBuf (t.slot m) ≠ [] := by
  obtain ⟨m, hm, rfl⟩ := exists_slot t.headSeqNum hi
  exact ⟨m, hm, hne⟩

variable {fate : Fate}

/-- **A received frame keeps the order.** -/
theorem Managed.ordered (h : SlotInv t)
    (hp : Plain t) (hauto : t.autoSeq = false) (hmore : skb.amsduMore = false)
    (hnear : Near t skb) (hord : Ordered outs t 1) (hm : Managed jiffies t skb t' frames fate) :
    Plain t' ∧ Ordered (outs ++ (frames.map .delivered ++ fate.outs skb)) t' 1 := by
  have hinv := hm.slotInv h hauto hnear.far
  rw [← append_assoc]
  cases hm with
  | old hold =>
    refine ⟨hp, ?_⟩
    rw [map_nil, append_nil]
    exact hord.append_single (fun _ => nofun) rfl
  | there hold hready =>
    obtain ⟨hroom, hsize, -⟩ := h.makeRoom hold (hnear.far hold)
    have hp' := hp.makeRoom h hold (hnear.far hold)
    have hi : skb.sn % t.bufSize < (makeRoom t skb.sn).1.bufSize := by
      rw [hsize]
      exact Nat.mod_lt _ h.pos
    obtain ⟨m, hm, hne⟩ := exists_place hi ((hp'.ready_iff _).mp hready)
    have hord' := (ordered_makeRoom h hp hord hold (hnear.far hold)).of_stored 1 hm hne
    exact ⟨hp', hord'.append_single (fun _ => nofun) rfl⟩
  | part _ _ hmore' =>
    rw [hmore] at hmore'
    cases hmore'
  | next hold hhead =>
    have hp' := hp.makeRoom h hold (hnear.far hold)
    have hlt := hnear.lt hold
    refine ⟨hp'.releaseHead, ?_⟩
    refine (ordered_makeRoom h hp hord hold (hnear.far hold)).deliver ?_ (fun _ => ?_) hinv rfl
    · rw [← hhead, Nat.mod_eq_of_lt skb.sn_lt]
    · have hpos := h.pos
      omega
  | stored _ hmore' =>
    rw [hmore] at hmore'
    cases hmore'
  | @complete hold _ hnot k _ _ _ hr hends =>
    obtain ⟨hroom, hsize, hin⟩ := h.makeRoom hold (hnear.far hold)
    have hp' := hp.makeRoom h hold (hnear.far hold)
    have hlt := hnear.lt hold
    have hD := snSub_makeRoom h hold (hnear.far hold)
    rw [← hsize] at hnot hin
    have hauto' : (makeRoom t skb.sn).1.autoSeq = false := (makeRoom_autoSeq t skb.sn).trans hauto
    have hps := hp'.store jiffies hmore hnot
    have hs := hroom.store jiffies hauto' hin hnot
    have hord' := (ordered_makeRoom h hp hord hold (hnear.far hold)).store hroom jiffies
      hin (by have hpos := h.pos; omega)
    subst hr
    have hsweep := ordered_sweep_of_endsReady hs hps hord' hends
    have hplain := @Plain.sweep k _ (makeRoom t skb.sn).2 hps
    refine ⟨⟨hplain.unfiltered, hplain.single, hplain.whole⟩, ?_⟩
    rw [show Fate.outs skb .queued = [] from rfl, append_nil]
    exact ⟨hsweep.inOrder, hsweep.gap⟩

/-- **A received frame comes out or is stored.** -/
theorem Managed.account (h : SlotInv t)
    (hp : Plain t) (hauto : t.autoSeq = false) (hmore : skb.amsduMore = false)
    (hnear : Near t skb) (hm : Managed jiffies t skb t' frames fate) :
    t.stored + {skb} = frames + books (fate.outs skb) + t'.stored := by
  cases hm with
  | old hold =>
    rw [books_fate skb (by decide), Multiset.coe_nil]
    abel
  | there hold hready =>
    rw [books_fate skb (by decide), ← stored_makeRoom h hp hold (hnear.far hold)]
    abel
  | part _ _ hmore' =>
    rw [hmore] at hmore'
    cases hmore'
  | next hold _ hzero =>
    obtain ⟨hroom, -, -⟩ := h.makeRoom hold (hnear.far hold)
    have hp' := hp.makeRoom h hold (hnear.far hold)
    have hnil := hp'.nil_of_storedMpduNum hroom hzero
      (Nat.mod_lt (makeRoom t skb.sn).1.headSeqNum hroom.pos)
    have hstored := @stored_releaseHead _ (makeRoom t skb.sn).2 hroom hp'
    rw [hp'.releaseHead_snd, TidAmpduRx.headIndex, hnil, append_nil] at hstored
    rw [books_fate skb (by decide), ← stored_makeRoom h hp hold (hnear.far hold),
      ← add_right_cancel hstored]
    abel
  | stored _ hmore' =>
    rw [hmore] at hmore'
    cases hmore'
  | @complete hold _ hnot k _ _ _ hr hends =>
    obtain ⟨hroom, hsize, hin⟩ := h.makeRoom hold (hnear.far hold)
    have hp' := hp.makeRoom h hold (hnear.far hold)
    rw [← hsize] at hnot hin
    have hauto' : (makeRoom t skb.sn).1.autoSeq = false := (makeRoom_autoSeq t skb.sn).trans hauto
    have hsweep := @stored_sweep k _ (makeRoom t skb.sn).2 (hroom.store jiffies hauto' hin hnot)
      (hp'.store jiffies hmore hnot)
    subst hr
    rw [stored_store hroom, add_right_comm, stored_makeRoom h hp hold (hnear.far hold)] at hsweep
    rw [← hsweep, add_comm (TidAmpduRx.stored _), show books (Fate.outs skb .queued) = 0 from rfl,
      add_zero]
    rfl

theorem Managed.autoSeq (hm : Managed jiffies t skb t' frames fate) : t'.autoSeq = t.autoSeq := by
  have hroom := makeRoom_autoSeq t skb.sn
  have hstore := (store_fields jiffies (makeRoom t skb.sn).1 skb).2.2.2.trans hroom
  cases hm with
  | old => rfl
  | there => exact hroom
  | part => exact hroom
  | next => exact hroom
  | stored => exact hstore
  | @complete _ _ _ k _ _ _ hr =>
    subst hr
    exact (sweep_autoSeq k _).trans hstore

end Frames

/-! ### Runs -/

/-- The steps the promise is about: no marks, no parts of A-MSDUs, and no frame from too far ahead. -/
def OrderCond (t : TidAmpduRx) : ReorderOp → Prop
  | .frame _ skb => skb.amsduMore = false ∧ Near (pickSeq t skb.sn) skb
  | .bar _ | .timeout _ => True
  | .mark .. => False

instance (t : TidAmpduRx) : ∀ op, Decidable (OrderCond t op)
  | .frame .. => inferInstanceAs (Decidable (_ ∧ (_ ∨ _)))
  | .bar _ | .timeout _ => inferInstanceAs (Decidable True)
  | .mark .. => inferInstanceAs (Decidable False)

/-- What a run keeps. -/
structure OrderInv (ops : List ReorderOp) (t : TidAmpduRx) (outs : List ReorderOut) : Prop where
  slots : SlotInv t
  plain : Plain t
  ordered : Ordered outs t 1
  fresh : t.autoSeq = true → (since outs).1 = none
  account : received ops = books outs + t.stored

section Runs

variable {t : TidAmpduRx} {hz : UInt64} {ops : List ReorderOp} {outs : List ReorderOut}

theorem received_append_single (ops : List ReorderOp) (op : ReorderOp) :
    received (ops ++ [op]) = received ops + received [op] := by
  rw [received, filterMap_append, ← Multiset.coe_add]
  rfl

theorem account_append {op : ReorderOp} {t' : TidAmpduRx} {o : List ReorderOut}
    (h : received ops = books outs + t.stored)
    (hstep : t.stored + received [op] = books o + t'.stored) :
    received (ops ++ [op]) = books (outs ++ o) + t'.stored := by
  rw [received_append_single, h, add_assoc, hstep, books_append, add_assoc]

theorem OrderInv.pickSeq (h : OrderInv ops t outs) (sn : ℕ) : OrderInv ops (pickSeq t sn) outs := by
  have hslots := h.slots.pickSeq sn
  rw [Mac80211.pickSeq] at hslots ⊢
  split at hslots
  · rename_i hauto
    rw [if_pos hauto]
    refine ⟨hslots, ⟨h.plain.unfiltered, h.plain.single, h.plain.whole⟩,
      ⟨h.ordered.inOrder, fun p moved hsince => ?_⟩, (fun h => by cases h), h.account⟩
    have hnone := h.fresh hauto
    rw [hsince] at hnone
    cases hnone
  · rename_i hauto
    rw [if_neg hauto]
    exact h

theorem OrderInv.withStarted (h : OrderInv ops t outs) (started : Bool) :
    OrderInv ops { t with started := started } outs :=
  ⟨h.slots.withStarted started, ⟨h.plain.unfiltered, h.plain.single, h.plain.whole⟩,
    ⟨h.ordered.inOrder, h.ordered.gap⟩, h.fresh, h.account⟩

theorem OrderInv.frame (h : OrderInv ops t outs) (hcond : OrderCond t (.frame jiffies skb)) :
    ∃ t' o, reorderStep hz t (.frame jiffies skb) = some (t', o) ∧
      OrderInv (ops ++ [.frame jiffies skb]) t' (outs ++ o) := by
  obtain ⟨hmore, hnear⟩ := hcond
  have hpick := h.pickSeq skb.sn
  have hauto := pickSeq_autoSeq t skb.sn
  rw [reorderStep, manageReorderBuf]
  dsimp only
  split
  · refine ⟨_, _, rfl, hpick.slots, hpick.plain, ?_, ?_, account_append hpick.account ?_⟩
    · exact hpick.ordered.append_single (fun _ h => by cases h) rfl
    · rw [hauto]
      exact fun h => by cases h
    · have hbooks := @books_fate skb .early (by decide)
      rw [map_nil, nil_append, hbooks, add_comm]
      rfl
  · have hstart := hpick.withStarted true
    obtain ⟨t', frames, fate, heq, hm⟩ := manageStarted_spec hstart.slots hauto
      (@frameCond_of_plain _ hz jiffies skb hstart.slots hstart.plain hnear)
    obtain ⟨hplain, hord⟩ := hm.ordered hstart.slots hstart.plain hauto hmore hnear hstart.ordered
    have haccount := hm.account hstart.slots hstart.plain hauto hmore hnear
    rw [heq]
    refine ⟨_, _, rfl, hm.slotInv hstart.slots hauto hnear.far, hplain, hord, ?_,
      account_append hstart.account ?_⟩
    · rw [hm.autoSeq, hauto]
      exact fun h => by cases h
    · rw [books_append, books_map_delivered]
      exact haccount

theorem sweep_snd_of_fresh (h : SlotInv t) (hp : Plain t) (hauto : t.autoSeq = true) (k : ℕ) :
    (sweep k (t, [])).2 = [] := by
  have hzero : t.stored = 0 := by
    refine Finset.sum_eq_zero fun i _ => ?_
    rw [h.fresh hauto i]
    rfl
  have hstored := @stored_sweep k t [] h hp
  rw [hzero, Multiset.coe_nil, add_zero] at hstored
  have hcard := congrArg Multiset.card hstored
  rw [Multiset.card_add, Multiset.card_zero, Multiset.coe_card] at hcard
  exact length_eq_zero_iff.mp (by omega)

theorem OrderInv.sweep (h : OrderInv ops t outs) {op : ReorderOp} (hop : received [op] = 0) {k : ℕ}
    {o : List ReorderOut} (ho : books o = 0) (hsince : (since (outs ++ o)).1 = (since outs).1)
    (hord : Ordered (outs ++ ((sweep k (t, [])).2.map .delivered ++ o)) (sweep k (t, [])).1 1) :
    OrderInv (ops ++ [op]) (Mac80211.sweep k (t, [])).1
      (outs ++ ((Mac80211.sweep k (t, [])).2.map .delivered ++ o)) := by
  refine ⟨h.slots.sweep k, h.plain.sweep k, hord, ?_, account_append h.account ?_⟩
  · rw [sweep_autoSeq]
    intro hauto
    rw [sweep_snd_of_fresh h.slots h.plain hauto, map_nil, nil_append, hsince]
    exact h.fresh hauto
  · have hstored := @stored_sweep k t [] h.slots h.plain
    rw [Multiset.coe_nil] at hstored
    rw [hop, ← hstored, books_append, books_map_delivered, ho, add_zero, add_comm]

theorem OrderInv.bar (h : OrderInv ops t outs) (seqCtrl : UInt16) :
    ∃ t' o, reorderStep hz t (.bar seqCtrl) = some (t', o) ∧
      OrderInv (ops ++ [.bar seqCtrl]) t' (outs ++ o) := by
  generalize hk : releaseDist t (seqCtrl.toNat / 2 ^ 4) = k
  have hlt : k < SN_MODULO / 2 := by
    rw [← hk, releaseDist]
    split
    · assumption
    · decide
  -- the request says how far it has moved the window
  have hmoved : snSub (Mac80211.sweep k (t, [])).1.headSeqNum t.headSeqNum = k := by
    have hhead : (Mac80211.sweep k (t, [])).1.headSeqNum % SN_MODULO = _ := (sweep_fields k _).2
    dsimp only at hhead
    simp only [snSub, SN_MODULO] at *
    omega
  have hstep : reorderStep hz t (.bar seqCtrl) = some ((Mac80211.sweep k (t, [])).1,
      (Mac80211.sweep k (t, [])).2.map .delivered ++ [.moved k]) := by
    rw [reorderStep, releaseReorderFrames_eq_sweep, hk]
    simp only [hmoved]
  refine ⟨_, _, hstep, h.sweep rfl rfl (by rw [since_append_single]; rfl) ?_⟩
  have hord := @Ordered.sweep outs k t [] 1 h.slots h.plain Nat.one_pos (by
    rw [map_nil, append_nil]
    exact h.ordered)
  rw [← append_assoc]
  refine ⟨inOrder_append_single hord.inOrder fun _ hskb => ?_, fun p moved hsince => ?_⟩
  · cases hskb
  · rw [since_append_single] at hsince
    rcases hs : since (outs ++ (Mac80211.sweep k (t, [])).2.map .delivered) with ⟨q, c⟩
    rw [hs] at hsince
    cases hsince
    obtain ⟨a, hpos, hhead, hnext⟩ := hord.gap p c hs
    refine ⟨a, hpos, hhead, ?_⟩
    rcases hnext with ⟨m, hm, hne, hlt'⟩ | ⟨hall, hle⟩
    · exact .inl ⟨m, hm, hne, by omega⟩
    · exact .inr ⟨hall, by omega⟩

theorem OrderInv.timeout (h : OrderInv ops t outs) (jiffies : UInt64) :
    ∃ t' o, reorderStep hz t (.timeout jiffies) = some (t', o) ∧
      OrderInv (ops ++ [.timeout jiffies]) t' (outs ++ o) := by
  obtain ⟨k, timer, -, hends, heq⟩ := @staReorderRelease_eq_sweep t [] hz jiffies h.slots
    (h.plain.headKept hz jiffies)
  have hord := @ordered_sweep_of_endsReady t [] outs k h.slots h.plain (by
    rw [map_nil, append_nil]
    exact h.ordered) hends
  rw [reorderStep, heq]
  have hsweep : OrderInv (ops ++ [.timeout jiffies]) (Mac80211.sweep k (t, [])).1
      (outs ++ ((Mac80211.sweep k (t, [])).2.map .delivered ++ [])) := by
    refine h.sweep rfl rfl ?_ ?_
    · rw [append_nil]
    · rw [append_nil]
      exact hord
  rw [append_nil] at hsweep
  exact ⟨_, _, rfl, hsweep.slots.withTimer timer,
    ⟨hsweep.plain.unfiltered, hsweep.plain.single, hsweep.plain.whole⟩,
    ⟨hord.inOrder, hord.gap⟩, hsweep.fresh, hsweep.account⟩

/-- **Every step keeps the order and the books.** -/
theorem OrderInv.step (h : OrderInv ops t outs) {op : ReorderOp} (hcond : OrderCond t op) :
    ∃ t' o, reorderStep hz t op = some (t', o) ∧ OrderInv (ops ++ [op]) t' (outs ++ o) := by
  cases op with
  | frame jiffies skb => exact h.frame hcond
  | bar seqCtrl => exact h.bar seqCtrl
  | timeout jiffies => exact h.timeout jiffies
  | mark => exact hcond.elim

theorem orderInv_newTidAmpduRx {bufSize : ℕ} (hpos : 0 < bufSize) (hle : bufSize ≤ 256)
    (hdvd : bufSize ∣ SN_MODULO) (ssn : ℕ) (autoSeq : Bool) :
    OrderInv [] (newTidAmpduRx bufSize ssn autoSeq) [] := by
  refine ⟨slotInv_newTidAmpduRx hpos hle hdvd ssn autoSeq, ⟨rfl, fun _ => Nat.zero_le 1, nofun⟩,
    ⟨fun before skb after heq => ?_, nofun⟩, fun _ => rfl, ?_⟩
  · exact absurd heq (by simp)
  · have hzero : (newTidAmpduRx bufSize ssn autoSeq).stored = 0 := Finset.sum_eq_zero fun _ _ => rfl
    rw [hzero]
    rfl

/-- **In-order delivery.** Each frame is delivered once, handed on before the start, dropped, or in
the buffer; from one delivery to the next the sequence number advances by less than 2048, what
block-ack requests have moved the window apart. -/
theorem in_order_delivery {bufSize ssn : ℕ} {autoSeq : Bool} (hpos : 0 < bufSize)
    (hle : bufSize ≤ 256) (hdvd : bufSize ∣ SN_MODULO) (ops : List ReorderOp)
    (hmeets : Meets (reorderStep hz) (fun t _ op => OrderCond t op)
      (newTidAmpduRx bufSize ssn autoSeq) [] ops) :
    ∃ t outs, run (reorderStep hz) (newTidAmpduRx bufSize ssn autoSeq) ops = some (t, outs) ∧
      received ops = delivered outs + early outs + freed outs + t.stored ∧ InOrder outs := by
  obtain ⟨t, outs, hrun, hinv⟩ := exists_run_of_meets OrderInv
    (fun _ _ _ _ hinv hcond => hinv.step hcond) ops [] _ []
    (orderInv_newTidAmpduRx hpos hle hdvd ssn autoSeq) hmeets
  exact ⟨t, outs, hrun, hinv.account, hinv.ordered.inOrder⟩

/-- Frames 1 and 0, frame 1 again, a request that skips frame 2, and frame 3 after it. -/
def plainRun : List ReorderOp :=
  [.frame 0 ⟨0x10, false, [1]⟩, .frame 0 ⟨0, false, [0]⟩, .frame 0 ⟨0x10, false, [1]⟩, .bar 0x30,
    .frame 9 ⟨0x30, false, [3]⟩, .frame 9 ⟨0x50, false, [5]⟩, .timeout 20]

/-- The general theorem on this run. -/
theorem in_order_plainRun : ∃ t outs,
    run (reorderStep 250) (newTidAmpduRx 4 0 false) plainRun = some (t, outs) ∧
    outs = [.delivered ⟨0, false, [0]⟩, .delivered ⟨0x10, false, [1]⟩, .freed ⟨0x10, false, [1]⟩,
      .moved 1, .delivered ⟨0x30, false, [3]⟩] ∧
    received plainRun = delivered outs + early outs + freed outs + t.stored ∧ InOrder outs := by
  have hmeets : Meets (reorderStep 250) (fun t _ op => OrderCond t op) (newTidAmpduRx 4 0 false) []
      plainRun := by decide +kernel
  have hout : (run (reorderStep 250) (newTidAmpduRx 4 0 false) plainRun).map Prod.snd =
      some [.delivered ⟨0, false, [0]⟩, .delivered ⟨0x10, false, [1]⟩, .freed ⟨0x10, false, [1]⟩,
        .moved 1, .delivered ⟨0x30, false, [3]⟩] := by decide +kernel
  obtain ⟨t, outs, hrun, haccount, hord⟩ := in_order_delivery (by decide) (by decide) (by decide)
    plainRun hmeets
  rw [hrun, Option.map_some] at hout
  exact ⟨t, outs, hrun, Option.some.inj hout, haccount, hord⟩

/-- The sequence numbers of the frames that go to the handlers. -/
def handed (outs : List ReorderOut) : List ℕ :=
  outs.filterMap fun
    | .delivered skb | .early skb => some skb.sn
    | _ => none

/-- Each of them is ahead of the one before, by less than 2048. -/
def Advances (sns : List ℕ) : Prop :=
  sns.IsChain fun p q => 0 < snSub q p ∧ snSub q p < SN_MODULO / 2

theorem sweep_of_empty (hnil : ∀ i, t.reorderBuf i = []) (hfiltered : t.reorderBufFiltered = 0)
    (n : ℕ) : sweep n (t, []) =
      ({ t with headSeqNum := if n = 0 then t.headSeqNum else snAdd t.headSeqNum n }, []) := by
  induction n with
  | zero => rfl
  | succ n ih =>
    rw [sweep_add, ih]
    generalize hh : (if n = 0 then t.headSeqNum else snAdd t.headSeqNum n) = head
    have hplain : Plain { t with headSeqNum := head } :=
      ⟨hfiltered, fun i => by rw [hnil i]; exact Nat.zero_le 1, fun i => by rw [hnil i]; exact nofun⟩
    have hnot : ({ t with headSeqNum := head } : TidAmpduRx).rxReorderReady
        (TidAmpduRx.headIndex { t with headSeqNum := head }) = false := by
      rw [← Bool.not_eq_true, hplain.ready_iff, not_not]
      exact hnil _
    refine Prod.ext ?_ ?_
    · refine (next_eq_releaseHead hnot (hnil _) []).symm.trans ?_
      rw [← hh, if_neg (Nat.succ_ne_zero n)]
      congr 1
      simp only [snInc, snAdd, SN_MODULO]
      split <;> omega
    · refine hplain.releaseHead_snd.trans ?_
      rw [nil_append]
      exact hnil _

/-- The window of an empty session that has started. -/
def idleSession (head : ℕ) : TidAmpduRx :=
  { newTidAmpduRx 4 0 false with started := true, headSeqNum := head }

theorem bar_idleSession (hz : UInt64) {head : ℕ} {seqCtrl : UInt16} {k : ℕ}
    (hk : releaseDist (idleSession head) (seqCtrl.toNat / 2 ^ 4) = k + 1) :
    reorderStep hz (idleSession head) (.bar seqCtrl) = some (idleSession (snAdd head (k + 1)),
      [.moved (snSub (snAdd head (k + 1)) head)]) := by
  rw [reorderStep, releaseReorderFrames_eq_sweep, hk, sweep_of_empty (fun _ => rfl) rfl]
  rfl

/-- **Not everything is in order.** A session that is to start with frame 10 hands on frames 5 and 3
as they come; two block-ack requests lead from frame 0 to frame 4000. -/
theorem early_frames_and_bars_jump :
    (∃ t outs, Reach (reorderStep 250) (fun t _ op => OrderCond t op) (newTidAmpduRx 4 10 false)
      t outs ∧ ¬ Advances (handed outs)) ∧
    ∃ t outs, Reach (reorderStep 250) (fun t _ op => OrderCond t op) (newTidAmpduRx 4 0 false)
      t outs ∧ ¬ Advances (handed outs) := by
  constructor
  · have hearly : (run (reorderStep 250) (newTidAmpduRx 4 10 false)
        [.frame 0 ⟨0x50, false, []⟩, .frame 0 ⟨0x30, false, []⟩]).map (fun r => handed r.2) =
        some [5, 3] := by decide +kernel
    obtain ⟨⟨t, outs⟩, hrun, hout⟩ := Option.map_eq_some_iff.mp hearly
    refine ⟨t, outs, Reach.of_run .init (by decide +kernel) hrun, ?_⟩
    rw [hout]
    simp [Advances, snSub, SN_MODULO]
  · have hfirst : Reach (reorderStep 250) (fun t _ op => OrderCond t op) (newTidAmpduRx 4 0 false)
        (idleSession 1) [.delivered ⟨0, false, []⟩] :=
      Reach.step (e := .frame 0 ⟨0, false, []⟩) .init (by decide +kernel) rfl
    have hcond : ∀ t seqCtrl, OrderCond t (.bar seqCtrl) := fun _ _ => trivial
    have hbars : Reach (reorderStep 250) (fun t _ op => OrderCond t op) (newTidAmpduRx 4 0 false)
        (idleSession 4000) [.delivered ⟨0, false, []⟩, .moved 1999, .moved 2000] :=
      (hfirst.step (hcond _ 32000) (bar_idleSession 250 (k := 1998) (by decide +kernel))).step
        (hcond _ 64000) (bar_idleSession 250 (k := 1999) (by decide +kernel))
    have hlast := hbars.step (e := .frame 0 ⟨64000, false, []⟩) (by decide +kernel) rfl
    refine ⟨_, _, hlast, ?_⟩
    simp [Advances, handed, Fate.outs, AmpduSkb.sn, SCTL_SEQ, snSub, SN_MODULO]

end Runs

end Mac80211
