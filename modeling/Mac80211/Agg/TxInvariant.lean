import Mac80211.Agg.TxSession
import Mathlib.Data.List.Pairwise

/-!
# Sessions that are operational

A session should be operational only when the driver and the peer are ready for it and nobody stops
it. The callback of the driver does not look whether it is being stopped: handled after a stop, it
makes the session operational once more. That is the only way.

## Main definitions

* `TxBaInv`, `LateStartCb`

## Main results

* `txBaOk_of_reach` — sessions are operational only when they should be, if no such callback is
  found
-/

namespace Mac80211

open Machine List

/-! ### What should hold -/

/-- The driver is told to stop the session. -/
def TxBaOut.IsStopOf (x : TxBaOut) (sid : ℕ) : Prop :=
  x = .ampduAction sid .txStopCont ∨ x = .ampduAction sid .txStopFlush ∨
    x = .ampduAction sid .txStopFlushCont

/-- The driver is told that the session is operational. -/
def TxBaOut.IsOperationalOf (x : TxBaOut) (sid : ℕ) : Prop :=
  ∃ bufSize amsdu, x = .ampduAction sid (.txOperational bufSize amsdu)

/-- No session is operational after the driver was told to stop it. -/
def OperationalBeforeStop (os : List TxBaOut) : Prop :=
  os.Pairwise fun x y => ∀ sid, x.IsStopOf sid → ¬ y.IsOperationalOf sid

/-- **What should hold** in every state, and of everything the driver is told on the way to it. -/
structure TxBaOk (s : TxBa) (os : List TxBaOut) : Prop where
  operational : ∀ t ∈ s.tidTx, t.operational = true →
    t.drvReady = true ∧ t.responseReceived = true ∧ t.stopping = false ∧ 1 ≤ t.bufSize
  ordered : OperationalBeforeStop os
  one : s.tidStartTx = none ∨ s.tidTx = none

/-- A callback says that a session has started while it is being stopped, and the peer has accepted
it. -/
def LateStartCb (s : TxBa) : Prop :=
  ∃ t ∈ s.tidTx, t.startCb = true ∧ t.stopping = true ∧ t.responseReceived = true ∧ t.drvReady = false
deriving Decidable

/-- The worker does not find one. -/
def TxBaCond (s : TxBa) (_ : List TxBaOut) : TxBaEvent → Prop
  | .work blocked _ => blocked = true ∨ ¬ LateStartCb s
  | _ => True

/-! ### The invariant -/

/-- What is known of a session. -/
structure TidTxOk (t : TidAmpduTx) : Prop where
  operational : t.operational = true →
    t.drvReady = true ∧ t.responseReceived = true ∧ t.stopping = false
  bufSize : t.responseReceived = true → t.bufSize ≠ 0

/-- The driver was told to stop the session. -/
def StoppedIn (os : List TxBaOut) (sid : ℕ) : Prop := ∃ x ∈ os, x.IsStopOf sid

/-- **The invariant.** A session that the driver was told to stop is being stopped, as long as it is
there. -/
structure TxBaInv (s : TxBa) (os : List TxBaOut) : Prop where
  one : s.tidStartTx = none ∨ s.tidTx = none
  start : ∀ t ∈ s.tidStartTx, TidTxOk t ∧ t.sid < s.nextSid ∧ ¬ StoppedIn os t.sid
  tx : ∀ t ∈ s.tidTx, TidTxOk t ∧ t.sid < s.nextSid ∧ (StoppedIn os t.sid → t.stopping = true)
  stopped : ∀ sid, StoppedIn os sid → sid < s.nextSid
  ordered : OperationalBeforeStop os

/-- One session goes on, and the driver is told something about it. -/
structure Advance (t t' : TidAmpduTx) (o : List TxBaOut) : Prop where
  sid : t'.sid = t.sid
  ok : TidTxOk t → TidTxOk t'
  stopping : t.stopping = true → t'.stopping = true
  stops : ∀ x ∈ o, ∀ sid, x.IsStopOf sid → sid = t.sid ∧ t'.stopping = true
  operates : ∀ x ∈ o, ∀ sid, x.IsOperationalOf sid → sid = t.sid ∧ t.stopping = false
  ordered : OperationalBeforeStop o

theorem StoppedIn.append_iff {os o : List TxBaOut} {sid : ℕ} :
    StoppedIn (os ++ o) sid ↔ StoppedIn os sid ∨ StoppedIn o sid := by
  simp only [StoppedIn, mem_append, or_and_right, exists_or]

section Inv

variable {s s' : TxBa} {os o : List TxBaOut} {t t' : TidAmpduTx}

/-- **What the driver is told stays in order.** -/
theorem TxBaInv.ordered_append (h : TxBaInv s os) (ht : t ∈ s.tidTx) (hadv : Advance t t' o) :
    OperationalBeforeStop (os ++ o) := by
  refine pairwise_append.mpr ⟨h.ordered, hadv.ordered, ?_⟩
  intro x hx y hy sid hstop hop
  obtain ⟨rfl, hgoing⟩ := hadv.operates y hy sid hop
  have hstopping := (h.tx t ht).2.2 ⟨x, hx, hstop⟩
  rw [hgoing] at hstopping
  cases hstopping

theorem TxBaInv.stopped_append (h : TxBaInv s os) (ht : t ∈ s.tidTx) (hadv : Advance t t' o) {sid : ℕ}
    (hsid : StoppedIn (os ++ o) sid) : sid < s.nextSid := by
  rcases StoppedIn.append_iff.mp hsid with hsid | ⟨x, hx, hstop⟩
  · exact h.stopped sid hsid
  · rw [(hadv.stops x hx sid hstop).1]
    exact (h.tx t ht).2.1

theorem TxBaInv.tidStartTx_eq_none (h : TxBaInv s os) (ht : t ∈ s.tidTx) : s.tidStartTx = none := by
  refine h.one.resolve_right fun hnone => ?_
  rw [hnone] at ht
  cases ht

/-- **A session goes on.** -/
theorem TxBaInv.advance (h : TxBaInv s os) (ht : t ∈ s.tidTx) (hadv : Advance t t' o)
    (hstart : s'.tidStartTx = none) (htx : s'.tidTx = some t') (hnext : s'.nextSid = s.nextSid) :
    TxBaInv s' (os ++ o) where
  one := .inl hstart
  start := fun t₁ ht₁ => by
    rw [hstart] at ht₁
    cases ht₁
  tx := fun t₁ ht₁ => by
    obtain rfl : t' = t₁ := Option.some.inj (htx.symm.trans ht₁)
    obtain ⟨hok, hlt, hstopped⟩ := h.tx t ht
    refine ⟨hadv.ok hok, by rw [hadv.sid, hnext]; exact hlt, fun hsid => ?_⟩
    rw [hadv.sid] at hsid
    rcases StoppedIn.append_iff.mp hsid with hsid | ⟨x, hx, hstop⟩
    · exact hadv.stopping (hstopped hsid)
    · exact (hadv.stops x hx _ hstop).2
  stopped := fun sid hsid => by
    rw [hnext]
    exact h.stopped_append ht hadv hsid
  ordered := h.ordered_append ht hadv

/-- **A session is removed**, and what the driver is told meanwhile is nothing about sessions. -/
theorem TxBaInv.remove (h : TxBaInv s os) (ho : ∀ x ∈ o, ∀ sid, ¬ x.IsStopOf sid ∧ ¬ x.IsOperationalOf sid)
    (hstart : s'.tidStartTx = none) (htx : s'.tidTx = none) (hnext : s'.nextSid = s.nextSid) :
    TxBaInv s' (os ++ o) where
  one := .inl hstart
  start := fun t₁ ht₁ => by
    rw [hstart] at ht₁
    cases ht₁
  tx := fun t₁ ht₁ => by
    rw [htx] at ht₁
    cases ht₁
  stopped := fun sid hsid => by
    rw [hnext]
    rcases StoppedIn.append_iff.mp hsid with hsid | ⟨x, hx, hstop⟩
    · exact h.stopped sid hsid
    · exact absurd hstop (ho x hx sid).1
  ordered := by
    refine pairwise_append.mpr ⟨h.ordered, ?_, ?_⟩
    · exact List.Pairwise.imp_of_mem (fun hx hy _ sid hstop => absurd hstop (ho _ hx sid).1)
        (pairwise_of_forall (R := fun _ _ => True) fun _ _ => trivial)
    · exact fun x _ y hy sid _ => (ho y hy sid).2

theorem Advance.of_bits (hsid : t'.sid = t.sid) (hok : TidTxOk t → TidTxOk t')
    (hstopping : t'.stopping = t.stopping) : Advance t t' [] where
  sid := hsid
  ok := hok
  stopping := fun h => hstopping.trans h
  stops := fun x hx => by cases hx
  operates := fun x hx => by cases hx
  ordered := .nil

theorem Advance.of_action {a : AmpduAction} (hsid : t'.sid = t.sid) (hok : TidTxOk t → TidTxOk t')
    (hstopping : t.stopping = true → t'.stopping = true)
    (hstop : (∃ bufSize amsdu, a = .txOperational bufSize amsdu) ∨ t'.stopping = true)
    (hop : ∀ bufSize amsdu, a = .txOperational bufSize amsdu → t.stopping = false) :
    Advance t t' [.ampduAction t.sid a] where
  sid := hsid
  ok := hok
  stopping := hstopping
  stops := fun x hx sid hx' => by
    obtain rfl := mem_singleton.mp hx
    rcases hx' with hx' | hx' | hx' <;> cases hx' <;> refine ⟨rfl, hstop.resolve_left ?_⟩ <;> simp
  operates := fun x hx sid hx' => by
    obtain rfl := mem_singleton.mp hx
    obtain ⟨bufSize, amsdu, hx'⟩ := hx'
    cases hx'
    exact ⟨rfl, hop bufSize amsdu rfl⟩
  ordered := pairwise_singleton _ _

end Inv

/-! ### The steps -/

section Steps

variable {caps : TxBaCaps} {s : TxBa} {os : List TxBaOut} {t : TidAmpduTx}

theorem advance_aggTxOperational (hdrv : t.drvReady = true) (hresp : t.responseReceived = true)
    (hgoing : t.stopping = false) : Advance t (aggTxOperational t).1 (aggTxOperational t).2 :=
  .of_action rfl (fun hok => ⟨fun _ => ⟨hdrv, hresp, hgoing⟩, hok.bufSize⟩) id (.inl ⟨_, _, rfl⟩)
    fun _ _ _ => hgoing

/-- **The callback of the driver**, unless it comes too late. -/
theorem advance_startTxBaCb
    (hlate : t.stopping = true → t.responseReceived = true → t.drvReady = true) :
    Advance t (startTxBaCb t).1 (startTxBaCb t).2 := by
  rw [startTxBaCb]
  split
  · exact .of_bits rfl id rfl
  rename_i hdrv
  split
  · rename_i hresp
    have hgoing : t.stopping = false := Bool.not_eq_true _ ▸ fun hstop => hdrv (hlate hstop hresp)
    have hready : Advance { t with drvReady := true } _ _ :=
      advance_aggTxOperational rfl hresp hgoing
    exact { hready with
      ok := fun hok => hready.ok ⟨fun hop => ⟨rfl, hresp, hgoing⟩, hok.bufSize⟩ }
  · rename_i hresp
    refine .of_bits rfl (fun hok => ⟨fun hop => ?_, hok.bufSize⟩) rfl
    exact absurd (hok.operational hop).2.1 hresp

/-- **Stops.** -/
theorem TxBaInv.stop (h : TxBaInv s os) (reason : AggStopReason) :
    TxBaInv (stopTxBaSession s reason).1 (os ++ (stopTxBaSession s reason).2) := by
  rw [stopTxBaSession]
  dsimp only
  cases htx : s.tidTx with
  | none => exact h.remove (fun x hx => by cases hx) rfl rfl rfl
  | some t =>
    dsimp only
    split
    · rename_i hstopping
      refine h.advance htx ?_ rfl rfl rfl
      dsimp only
      split
      · exact .of_action rfl id id (.inr hstopping) fun _ _ ha => by cases ha
      · exact .of_bits rfl id rfl
    split
    · exact h.remove (fun x hx => by cases hx) rfl rfl rfl
    · refine h.advance htx ?_ rfl rfl rfl
      refine .of_action rfl (fun hok => ⟨fun hop => Bool.noConfusion hop, hok.bufSize⟩) (fun _ => rfl)
        (.inr rfl) ?_
      intro _ _ ha
      cases reason <;> cases ha

/-- **The callback of the driver after a stop.** -/
theorem TxBaInv.workStopCb (h : TxBaInv s os) :
    TxBaInv (workStopCb s).1 (os ++ (workStopCb s).2) := by
  rw [Mac80211.workStopCb]
  cases htx : s.tidTx with
  | none => simpa using h
  | some t =>
    have hstart := h.tidStartTx_eq_none htx
    dsimp only
    split
    · rw [stopTxBaCb]
      split
      · refine h.advance htx ?_ hstart rfl rfl
        exact .of_bits rfl (fun hok => ⟨hok.operational, hok.bufSize⟩) rfl
      · refine h.remove (fun x hx sid => ?_) hstart rfl rfl
        split at hx
        · obtain rfl := mem_singleton.mp hx
          simp [TxBaOut.IsStopOf, TxBaOut.IsOperationalOf]
        · cases hx
    · simpa using h

theorem TxBaInv.workWantStop (h : TxBaInv s os) (ht : s.tidTx = some t) :
    TxBaInv (workWantStop s t).1 (os ++ (workWantStop s t).2) := by
  have hstart := h.tidStartTx_eq_none ht
  rw [Mac80211.workWantStop]
  split
  · have hclear : TxBaInv { s with tidTx := some { t with wantStop := false } } (os ++ []) := by
      refine h.advance ht ?_ hstart rfl rfl
      exact .of_bits rfl (fun hok => ⟨hok.operational, hok.bufSize⟩) rfl
    rw [append_nil] at hclear
    exact hclear.stop _
  · refine h.advance ht ?_ hstart rfl rfl
    exact .of_bits rfl id rfl

/-- The worker's part for a callback that says that the session has started. -/
theorem advance_workStartCb {blocked : Bool} (hlate : blocked = true ∨
    ¬ (t.startCb = true ∧ t.stopping = true ∧ t.responseReceived = true ∧ t.drvReady = false)) :
    Advance t (workStartCb t blocked).1 (workStartCb t blocked).2 := by
  rw [workStartCb]
  split
  · rename_i hcb
    rw [Bool.and_eq_true, Bool.not_eq_true'] at hcb
    have hstart : Advance { t with startCb := false } _ _ := advance_startTxBaCb fun hstop hresp => by
      by_contra hdrv
      rcases hlate with hblocked | hlate
      · rw [hcb.1] at hblocked
        cases hblocked
      · exact hlate ⟨hcb.2, hstop, hresp, Bool.not_eq_true _ ▸ hdrv⟩
    exact { hstart with ok := fun hok => hstart.ok ⟨hok.operational, hok.bufSize⟩ }
  · exact .of_bits rfl id rfl

theorem TxBaInv.handleStart (h : TxBaInv s os) (ht : s.tidStartTx = some t) (denied : Bool) :
    TxBaInv (handleStart caps { s with tidStartTx := none } t denied).1
      (os ++ (handleStart caps { s with tidStartTx := none } t denied).2) := by
  obtain ⟨hok, hlt, hnot⟩ := h.start t ht
  have hout : ∀ x ∈ (Mac80211.handleStart caps { s with tidStartTx := none } t denied).2,
      ∀ sid, ¬ x.IsStopOf sid ∧ ¬ x.IsOperationalOf sid := by
    intro x hx sid
    rw [Mac80211.handleStart] at hx
    split at hx
    · obtain rfl := mem_singleton.mp hx
      simp [TxBaOut.IsStopOf, TxBaOut.IsOperationalOf]
    · simp only [mem_cons, not_mem_nil, or_false] at hx
      rcases hx with rfl | rfl
      · simp [TxBaOut.IsStopOf, TxBaOut.IsOperationalOf]
      · simp [TxBaOut.IsStopOf, TxBaOut.IsOperationalOf]
  -- nothing is said about stops, so the rest is as if the session had been removed
  have hrest : TxBaInv { s with tidStartTx := none, tidTx := none } _ := h.remove hout rfl rfl rfl
  generalize (Mac80211.handleStart caps { s with tidStartTx := none } t denied).2 = o at hout hrest
  rw [Mac80211.handleStart]
  split
  · exact hrest
  · refine { hrest with one := .inl rfl, tx := fun t₁ ht₁ => ?_ }
    cases ht₁
    refine ⟨⟨hok.operational, hok.bufSize⟩, hlt, fun hstopped => absurd ?_ hnot⟩
    rcases StoppedIn.append_iff.mp hstopped with hstopped | ⟨x, hx, hstop⟩
    · exact hstopped
    · exact absurd hstop (hout x hx _).1

/-- **The worker.** -/
theorem TxBaInv.work (h : TxBaInv s os) (blocked denied : Bool)
    (hlate : blocked = true ∨ ¬ LateStartCb s) : TxBaInv (txBaSessionWork caps s blocked denied).1
      (os ++ (txBaSessionWork caps s blocked denied).2) := by
  rw [txBaSessionWork]
  split
  · rename_i t hstart htx
    split at hstart
    · cases hstart
    · exact h.handleStart hstart denied
  · rename_i t hstart htx
    split at hstart
    · cases hstart
    · have hnone := h.tidStartTx_eq_none htx
      rw [hnone] at hstart
      cases hstart
  · simpa using h
  · rename_i t _ htx
    have hstart := h.tidStartTx_eq_none htx
    have hadv : Advance t _ _ := advance_workStartCb (hlate.imp_right fun hnot hcb => hnot ⟨t, htx, hcb⟩)
    have h₁ : TxBaInv { s with tidTx := some (workStartCb t blocked).1 } _ :=
      h.advance htx hadv hstart rfl rfl
    have h₂ := h₁.workWantStop rfl
    have h₃ := h₂.workStopCb
    simp only [append_assoc] at h₃ ⊢
    exact h₃

/-- **The response of the peer.** -/
theorem TxBaInv.addbaResp (h : TxBaInv s os) (resp : TxAddbaResp) :
    TxBaInv (processAddbaResp caps s resp).1 (os ++ (processAddbaResp caps s resp).2) := by
  rw [processAddbaResp]
  cases htx : s.tidTx with
  | none => simpa using h
  | some t =>
    have hstart := h.tidStartTx_eq_none htx
    have htimer : TxBaInv { s with tidTx := some { t with addbaRespTimer := false } } (os ++ []) := by
      refine h.advance htx ?_ hstart rfl rfl
      exact .of_bits rfl (fun hok => ⟨hok.operational, hok.bufSize⟩) rfl
    dsimp only
    split
    · simpa using h
    split
    · exact htimer
    rename_i hgoing
    rw [Bool.or_eq_true, not_or, Bool.not_eq_true, Bool.not_eq_true] at hgoing
    split
    · rename_i hsuccess
      split
      · exact htimer
      rename_i hresp
      -- the session is not operational yet, since it has had no response
      have hidle : TidTxOk t → t.operational = false := fun hok =>
        Bool.not_eq_true _ ▸ fun hop => hresp (hok.operational hop).2.1
      refine h.advance htx ?_ hstart rfl rfl
      dsimp only
      split
      · rename_i hdrv
        refine .of_action rfl (fun _ => ⟨fun _ => ⟨hdrv, rfl, hgoing.2⟩, fun _ => hsuccess.2⟩) id
          (.inl ⟨_, _, rfl⟩) fun _ _ _ => hgoing.2
      · refine .of_bits rfl (fun hok => ⟨fun hop => ?_, fun _ => hsuccess.2⟩) rfl
        exact absurd hop (by simp [hidle hok])
    · rw [append_nil] at htimer
      exact htimer.stop _

theorem TxBaInv.request (h : TxBaInv s os) (timeout : UInt16) (allowed recent alloc : Bool) :
    TxBaInv (startTxBaSession s timeout allowed recent alloc) os := by
  rw [startTxBaSession]
  split
  · exact h
  split
  · exact h
  split
  · exact h
  split
  · exact h
  rename_i hidle
  rw [Bool.or_eq_true, not_or, Bool.not_eq_true, Bool.not_eq_true, Option.isSome_eq_false_iff,
    Option.isNone_iff_eq_none, Option.isSome_eq_false_iff, Option.isNone_iff_eq_none] at hidle
  split
  · exact h
  · refine ⟨.inr hidle.1, fun t ht => ?_, fun t ht => ?_, fun sid hsid => ?_, h.ordered⟩
    · cases ht
      refine ⟨⟨fun hop => Bool.noConfusion hop, fun hresp => Bool.noConfusion hresp⟩, Nat.lt_succ_self _, ?_⟩
      exact fun hstopped => absurd (h.stopped _ hstopped) (Nat.lt_irrefl _)
    · rw [show _ = s.tidTx from rfl, hidle.1] at ht
      cases ht
    · exact Nat.lt_succ_of_lt (h.stopped sid hsid)

theorem TxBaInv.bits (h : TxBaInv s os) {f : TidAmpduTx → TidAmpduTx} (hf : ∀ t, Advance t (f t) []) :
    TxBaInv { s with tidTx := s.tidTx.map f } os := by
  cases htx : s.tidTx with
  | none =>
    refine ⟨.inr rfl, h.start, fun t ht => ?_, h.stopped, h.ordered⟩
    cases ht
  | some t =>
    have hbits : TxBaInv { s with tidTx := some (f t) } (os ++ []) :=
      h.advance htx (hf t) (h.tidStartTx_eq_none htx) rfl rfl
    rwa [append_nil] at hbits

theorem TxBaInv.requestStop (h : TxBaInv s os) : TxBaInv (requestStop s) os := by
  refine h.bits fun t => ?_
  split
  · exact .of_bits rfl id rfl
  · exact .of_bits rfl (fun hok => ⟨hok.operational, hok.bufSize⟩) rfl

theorem TxBaInv.timer (h : TxBaInv s os) (ht : s.tidTx = some t) {t' : TidAmpduTx} (hadv : Advance t t' []) :
    TxBaInv { s with tidTx := some t' } os := by
  have htimer : TxBaInv { s with tidTx := some t' } (os ++ []) :=
    h.advance ht hadv (h.tidStartTx_eq_none ht) rfl rfl
  rwa [append_nil] at htimer

theorem TxBaInv.addbaRespTimer (h : TxBaInv s os) : TxBaInv (addbaRespTimerExpired s) os := by
  rw [addbaRespTimerExpired]
  split
  · exact h
  rename_i t htx
  split
  · exact h
  have htimer : TxBaInv { s with tidTx := some { t with addbaRespTimer := false } } os :=
    h.timer htx (.of_bits rfl (fun hok => ⟨hok.operational, hok.bufSize⟩) rfl)
  dsimp only
  split
  · exact htimer
  · exact htimer.requestStop

theorem TxBaInv.sessionTimer (h : TxBaInv s os) (active : Bool) :
    TxBaInv (sessionTimerExpired s active) os := by
  rw [sessionTimerExpired]
  split
  · exact h
  rename_i t htx
  split
  · exact h
  have htimer : TxBaInv { s with tidTx := some { t with sessionTimer := false } } os :=
    h.timer htx (.of_bits rfl (fun hok => ⟨hok.operational, hok.bufSize⟩) rfl)
  split
  · exact htimer
  split
  · exact h
  · exact htimer.requestStop

/-- **One step.** -/
theorem TxBaInv.step {e : TxBaEvent} {s' : TxBa} {o : List TxBaOut} (h : TxBaInv s os)
    (hC : TxBaCond s os e) (hstep : txBaStep caps s e = some (s', o)) : TxBaInv s' (os ++ o) := by
  cases e with
  | start timeout allowed recent alloc =>
    cases hstep
    rw [append_nil]
    exact h.request timeout allowed recent alloc
  | work blocked denied =>
    obtain ⟨rfl, rfl⟩ := Prod.mk.inj (Option.some.inj hstep)
    exact h.work blocked denied hC
  | startCb =>
    cases hstep
    rw [append_nil]
    exact h.bits fun t => .of_bits rfl (fun hok => ⟨hok.operational, hok.bufSize⟩) rfl
  | stopCb =>
    cases hstep
    rw [append_nil]
    exact h.bits fun t => .of_bits rfl (fun hok => ⟨hok.operational, hok.bufSize⟩) rfl
  | addbaResp resp =>
    obtain ⟨rfl, rfl⟩ := Prod.mk.inj (Option.some.inj hstep)
    exact h.addbaResp resp
  | addbaRespTimer =>
    cases hstep
    rw [append_nil]
    exact h.addbaRespTimer
  | sessionTimer active =>
    cases hstep
    rw [append_nil]
    exact h.sessionTimer active
  | requestStop =>
    cases hstep
    rw [append_nil]
    exact h.requestStop
  | stop reason =>
    obtain ⟨rfl, rfl⟩ := Prod.mk.inj (Option.some.inj hstep)
    exact h.stop reason
  | tearDownCb =>
    obtain ⟨rfl, rfl⟩ := Prod.mk.inj (Option.some.inj hstep)
    exact h.workStopCb

end Steps

theorem txBaInv_init : TxBaInv {} [] where
  one := .inl rfl
  start := fun t ht => by cases ht
  tx := fun t ht => by cases ht
  stopped := fun sid hsid => by
    obtain ⟨x, hx, _⟩ := hsid
    cases hx
  ordered := .nil

/-- **If no callback comes too late**, sessions are operational only when they should be, the driver
is told so in order, and there is one session at most. -/
theorem txBaOk_of_reach {caps : TxBaCaps} {s : TxBa} {os : List TxBaOut}
    (h : Reach (txBaStep caps) TxBaCond {} s os) : TxBaOk s os := by
  have hinv : TxBaInv s os := by
    refine Reach.invariant TxBaInv txBaInv_init ?_ h
    intro s os e s' o hinv hC hstep
    exact hinv.step hC hstep
  refine ⟨fun t ht hop => ?_, hinv.ordered, hinv.one⟩
  obtain ⟨hok, -, -⟩ := hinv.tx t ht
  obtain ⟨hdrv, hresp, hgoing⟩ := hok.operational hop
  have hsize : t.bufSize.toNat ≠ 0 := fun hz => hok.bufSize hresp (UInt16.toNat_inj.mp hz)
  refine ⟨hdrv, hresp, hgoing, UInt16.le_iff_toNat_le.mpr ?_⟩
  exact Nat.one_le_iff_ne_zero.mpr hsize

/-! ### Runs -/

/-- A session that the peer accepts, and that the driver starts. -/
def txBaSession : List TxBaEvent :=
  [.start 0 true false true, .work false false, .startCb, .addbaResp { dialogToken := 1, bufSize := 64 },
    .work false false]

instance decidableTxBaCond (s : TxBa) (os : List TxBaOut) : ∀ e, Decidable (TxBaCond s os e)
  | .work _ _ => inferInstanceAs (Decidable (_ ∨ _))
  | .start .. | .startCb | .stopCb | .addbaResp _ | .addbaRespTimer | .sessionTimer _ | .requestStop
  | .stop _ | .tearDownCb => isTrue trivial

/-- The driver and the peer are ready, in this order, and the session is operational. -/
theorem txBaOk_txBaSession : ∃ s os,
    run (txBaStep {}) {} txBaSession = some (s, os) ∧ (∃ t ∈ s.tidTx, t.operational = true) ∧
      TxBaOk s os := by
  have hmeets : Meets (txBaStep {}) TxBaCond {} [] txBaSession := by decide +kernel
  refine ⟨_, _, rfl, ⟨_, rfl, rfl⟩, ?_⟩
  exact txBaOk_of_reach (Reach.of_run .init hmeets rfl)

/-- The peer accepts a session and ends it with a DELBA, and only then the driver says that it has
started. -/
def lateCallback : List TxBaEvent :=
  [.start 0 true false true, .work false false, .addbaResp { dialogToken := 1, bufSize := 64 },
    .stop .peerRequest, .startCb, .work false false]

/-- **The late callback makes a session operational that is being stopped**, and the driver is told so
after it was told to stop it. -/
theorem late_start_callback_operates : ∃ s os, Reach (txBaStep {}) (fun _ _ _ => True) {} s os ∧
      (∃ t ∈ s.tidTx, t.operational = true ∧ t.stopping = true) ∧
      ¬ OperationalBeforeStop os ∧ ¬ TxBaOk s os := by
  have hrun : ∃ s os, run (txBaStep {}) {} lateCallback = some (s, os) ∧
      (∃ t ∈ s.tidTx, t.operational = true ∧ t.stopping = true) ∧
      ∃ o₁ o₂, os = o₁ ++ [.ampduAction 0 .txStopCont] ++ o₂ ∧
        TxBaOut.ampduAction 0 (.txOperational 64 false) ∈ o₂ :=
    ⟨_, _, rfl, ⟨_, rfl, rfl, rfl⟩, [_, _], _, rfl, mem_cons_self⟩
  obtain ⟨s, os, hrun, hboth, o₁, o₂, rfl, hop⟩ := hrun
  have hord : ¬ OperationalBeforeStop (o₁ ++ [.ampduAction 0 .txStopCont] ++ o₂) := by
    intro hord
    have hlt := (pairwise_append.mp hord).2.2 _ (mem_append_right o₁ mem_cons_self) _ hop
    exact hlt 0 (.inl rfl) ⟨64, false, rfl⟩
  exact ⟨s, _, Reach.of_run_init hrun, hboth, hord, fun hok => hord hok.ordered⟩

end Mac80211
