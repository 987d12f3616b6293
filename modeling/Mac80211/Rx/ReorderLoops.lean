import Mac80211.Lib.Loops
import Mac80211.Rx.ReorderInvariant

/-!
# The loops of the reorder buffer come to an end

The loops as executions, with the slot numbers as the code computes them; each slot that is touched
has to be one of the ring. The one that looks for the slot to set the timer for ends at a slot that
is ready, or at `(index - 1) % buf_size`, which is -1 if the window begins with slot 0.

## Main results

* `released_iff` — the functions of the model are these executions
* `reorder_loops_end`
-/

namespace Mac80211

open Machine Loops Option Finset

/-! ### The loops -/

/-- `while (ieee80211_sn_less(head_seq_num, target))`: one slot is released. -/
def ReleaseBody (target : ℕ) (r r' : TidAmpduRx × List AmpduSkb) : Prop :=
  snLess r.1.headSeqNum target = true ∧ r.1.headIndex < r.1.bufSize ∧ r' = releaseHead r

/-- An execution of `ieee80211_release_reorder_frames`. -/
def ReleasedUpTo (target : ℕ) : TidAmpduRx × List AmpduSkb → TidAmpduRx × List AmpduSkb → Prop :=
  Ends (fun r => snLess r.1.headSeqNum target = false) (ReleaseBody target)

/-- `for (i = (index + 1) % buf_size; i != j; i = (i + 1) % buf_size)`: one slot is emptied. -/
def PurgeBody (j : ℕ) (s s' : ℕ × TidAmpduRx) : Prop :=
  s.1 ≠ j ∧ s.1 < s.2.bufSize ∧ s' = ((s.1 + 1) % s.2.bufSize, s.2.purge s.1)

/-- The variables of the loop that gives up on missing frames. -/
structure TimeoutState where
  j : ℕ
  skipped : ℕ
  t : TidAmpduRx
  frames : List AmpduSkb

/-- Slot `j` has timed out, and the slots before it have been emptied. -/
def giveUp (j skipped : ℕ) (t : TidAmpduRx) (frames : List AmpduSkb) : TimeoutState :=
  let (t', frames) := releaseReorderFrame t j frames
  ⟨(j + 1) % t.bufSize, 0, { t' with headSeqNum := snAdd t'.headSeqNum skipped }, frames⟩

/-- `for (j = (index + 1) % buf_size; j != index; j = (j + 1) % buf_size)`: one slot is looked at. -/
inductive TimeoutBody (hz jiffies : UInt64) (index : ℕ) : TimeoutState → TimeoutState → Prop
  /-- Nothing is ready there. -/
  | skip {j skipped : ℕ} {t : TidAmpduRx} {frames : List AmpduSkb} (hj : j ≠ index) (hlt : j < t.bufSize)
      (hnot : t.rxReorderReady j = false) :
      TimeoutBody hz jiffies index ⟨j, skipped, t, frames⟩ ⟨(j + 1) % t.bufSize, skipped + 1, t, frames⟩
  /-- The slot has timed out, or follows one that has. -/
  | release {j skipped : ℕ} {t t' : TidAmpduRx} {frames : List AmpduSkb} (hj : j ≠ index)
      (hlt : j < t.bufSize) (hready : t.rxReorderReady j = true)
      (hout : (skipped ≠ 0 && !timedOut hz jiffies t j) = false)
      (hpurge : Ends (fun s => s.1 = j) (PurgeBody j) ((index + 1) % t.bufSize, t) (j, t')) :
      TimeoutBody hz jiffies index ⟨j, skipped, t, frames⟩ (giveUp j skipped t' frames)

/-- It comes to slot `index`, or to one that has not timed out (`goto set_release_timer`). -/
def TimeoutExit (hz jiffies : UInt64) (index : ℕ) (s : TimeoutState) : Prop :=
  s.j = index ∨ s.j < s.t.bufSize ∧ s.t.rxReorderReady s.j = true ∧
    (s.skipped ≠ 0 && !timedOut hz jiffies s.t s.j) = true

/-- `while (ieee80211_rx_reorder_ready(tid_agg_rx, index))`: one slot is released. -/
def ReadyBody (r r' : TidAmpduRx × List AmpduSkb) : Prop :=
  r.1.headIndex < r.1.bufSize ∧ r.1.rxReorderReady r.1.headIndex = true ∧ r' = releaseHead r

def ReadyExit (r : TidAmpduRx × List AmpduSkb) : Prop :=
  r.1.headIndex < r.1.bufSize ∧ r.1.rxReorderReady r.1.headIndex = false

/-- `(index - 1) % tid_agg_rx->buf_size`, in `int`. -/
def scanEnd (t : TidAmpduRx) : ℤ := ((t.headIndex : ℤ) - 1).tmod t.bufSize

/-- `for (; j != (index - 1) % buf_size; j = (j + 1) % buf_size)`: one slot is looked at. -/
def ScanBody (t : TidAmpduRx) (j j' : ℤ) : Prop :=
  j ≠ scanEnd t ∧ (0 ≤ j ∧ j < t.bufSize) ∧ t.rxReorderReady j.toNat = false ∧
    j' = (j + 1).tmod t.bufSize

def ScanExit (t : TidAmpduRx) (j : ℤ) : Prop :=
  j = scanEnd t ∨ (0 ≤ j ∧ j < t.bufSize) ∧ t.rxReorderReady j.toNat = true

/-- The end of `ieee80211_sta_reorder_release`. The slot that is found has a `reorder_time`. -/
inductive Rearmed (hz : UInt64) (t : TidAmpduRx) : TidAmpduRx → Prop
  | armed {j : ℤ} (hstored : t.storedMpduNum ≠ 0) (hscan : Ends (ScanExit t) (ScanBody t) t.headIndex j)
      (hj : 0 ≤ j ∧ j < t.bufSize) : Rearmed hz t (setReleaseTimer hz t j.toNat)
  | off (hstored : t.storedMpduNum = 0) : Rearmed hz t { t with reorderTimer := none }

/-- An execution of `ieee80211_sta_reorder_release`. -/
inductive Released (hz jiffies : UInt64) (t : TidAmpduRx) (frames : List AmpduSkb) :
    TidAmpduRx × List AmpduSkb → Prop
  /-- The slot that comes next has not timed out. -/
  | waits {s : TimeoutState} (hindex : t.headIndex < t.bufSize)
      (hcond : (!t.rxReorderReady t.headIndex && t.storedMpduNum ≠ 0) = true)
      (hloop : Ends (TimeoutExit hz jiffies t.headIndex) (TimeoutBody hz jiffies t.headIndex)
        ⟨(t.headIndex + 1) % t.bufSize, 1, t, frames⟩ s)
      (hj : s.j ≠ t.headIndex) : Released hz jiffies t frames (setReleaseTimer hz s.t s.j, s.frames)
  /-- Everything has been given up. -/
  | gaveUp {s : TimeoutState} {t' : TidAmpduRx} (hindex : t.headIndex < t.bufSize)
      (hcond : (!t.rxReorderReady t.headIndex && t.storedMpduNum ≠ 0) = true)
      (hloop : Ends (TimeoutExit hz jiffies t.headIndex) (TimeoutBody hz jiffies t.headIndex)
        ⟨(t.headIndex + 1) % t.bufSize, 1, t, frames⟩ s)
      (hj : s.j = t.headIndex) (hrearm : Rearmed hz s.t t') : Released hz jiffies t frames (t', s.frames)
  /-- Frames are released until the next missing one. -/
  | ready {r : TidAmpduRx × List AmpduSkb} {t' : TidAmpduRx} (hindex : t.headIndex < t.bufSize)
      (hcond : (!t.rxReorderReady t.headIndex && t.storedMpduNum ≠ 0) = false)
      (hloop : Ends ReadyExit ReadyBody (t, frames) r) (hrearm : Rearmed hz r.1 t') :
      Released hz jiffies t frames (t', r.2)

section Loops

variable {hz jiffies : UInt64} {t t' : TidAmpduRx} {frames : List AmpduSkb} {index : ℕ}

/-! ### Releasing up to a sequence number -/

theorem releaseLoop_ends {target : ℕ} (hpos : 0 < t.bufSize) {fuel : ℕ}
    (hfuel : snSub target t.headSeqNum ≤ fuel ∨ snLess t.headSeqNum target = false) :
    ReleasedUpTo target (t, frames) (releaseLoop target fuel t frames) := by
  induction fuel generalizing t frames with
  | zero =>
    refine .stop ?_
    rcases hfuel with hdist | hless
    · rw [Bool.eq_false_iff, Ne, snLess_iff]
      dsimp only
      omega
    · exact hless
  | succ fuel ih =>
    rw [releaseLoop]
    by_cases hless : snLess t.headSeqNum target = true
    · rw [if_pos hless]
      refine .next ⟨hless, Nat.mod_lt _ hpos, rfl⟩ ?_
      refine @ih (releaseHead (t, frames)).1 (releaseHead (t, frames)).2 hpos (.inl ?_)
      have hdist := hfuel.resolve_right (by rw [hless]; exact Bool.true_eq_false.mp)
      have hnext : (releaseHead (t, frames)).1.headSeqNum = snInc t.headSeqNum := rfl
      obtain ⟨hne, -⟩ := snLess_iff.mp hless
      rw [hnext]
      simp only [snInc, snAdd, snSub, SN_MODULO] at *
      omega
    · rw [if_neg hless]
      exact .stop (Bool.eq_false_iff.mpr hless)

theorem releasedUpTo_releaseReorderFrames (hpos : 0 < t.bufSize) (target : ℕ) (frames : List AmpduSkb) :
    ReleasedUpTo target (t, frames) (releaseReorderFrames t target frames) :=
  releaseLoop_ends hpos (.inl (snSub_lt _ _).le)

/-! ### Giving up on missing frames -/

theorem purgeLoop_ends (x : ℕ) {d n : ℕ} (hd : d < t.bufSize) (hn : d ≤ n) :
    Ends (fun s => s.1 = (x + d) % t.bufSize) (PurgeBody ((x + d) % t.bufSize)) (x % t.bufSize, t)
      ((x + d) % t.bufSize, purgeLoop ((x + d) % t.bufSize) n (x % t.bufSize) t) := by
  induction d generalizing x n t with
  | zero =>
    have hloop : purgeLoop ((x + 0) % t.bufSize) n (x % t.bufSize) t = t := by
      cases n with
      | zero => rfl
      | succ n => rw [purgeLoop, if_pos (by rw [Nat.add_zero])]
    rw [hloop]
    exact .stop rfl
  | succ d ih =>
    obtain ⟨n, rfl⟩ : ∃ n', n = n' + 1 := ⟨n - 1, by omega⟩
    have hne : x % t.bufSize ≠ (x + (d + 1)) % t.bufSize := by
      intro heq
      have := eq_of_slot_eq (h := x) (show 0 < t.bufSize by omega) hd heq
      omega
    have hrest := ih (t := t.purge (x % t.bufSize)) (x + 1) (n := n) (Nat.lt_of_succ_lt hd) (by omega)
    rw [show x + 1 + d = x + (d + 1) by omega] at hrest
    rw [purgeLoop, if_neg hne, Nat.mod_add_mod]
    refine .next ⟨hne, Nat.mod_lt _ (by omega), ?_⟩ hrest
    dsimp only
    rw [Nat.mod_add_mod]
    rfl

@[simp] theorem purgeLoop_bufSize (j : ℕ) {n i : ℕ} : (purgeLoop j n i t).bufSize = t.bufSize := by
  induction n generalizing i t with
  | zero => rfl
  | succ n ih =>
    rw [purgeLoop]
    split
    · rfl
    · exact ih

theorem timeoutLoop_ends (hz jiffies : UInt64) (frames : List AmpduSkb) (skipped : ℕ) {b n o : ℕ}
    (hb : t.bufSize = b) (hindex : index < b) (ho : 0 < o) (hle : o ≤ b) (hn : b ≤ o + n) :
    ∃ s, Ends (TimeoutExit hz jiffies index) (TimeoutBody hz jiffies index)
        ⟨(index + o) % b, skipped, t, frames⟩ s ∧
      timeoutLoop hz jiffies index n ((index + o) % b) skipped t frames =
        (s.t, s.frames, if s.j = index then none else some s.j) := by
  have hround : (index + b) % b = index := by rw [Nat.add_mod_right, Nat.mod_eq_of_lt hindex]
  induction n generalizing t frames skipped o with
  | zero =>
    obtain rfl : o = b := by omega
    rw [hround]
    exact ⟨_, .stop (.inl rfl), by rw [timeoutLoop, if_pos rfl]⟩
  | succ n ih =>
    subst hb
    have hlt : (index + o) % t.bufSize < t.bufSize := Nat.mod_lt _ (by omega)
    have hnext : ((index + o) % t.bufSize + 1) % t.bufSize = (index + (o + 1)) % t.bufSize :=
      Nat.mod_add_mod ..
    rw [timeoutLoop]
    by_cases hj : (index + o) % t.bufSize = index
    · rw [if_pos hj]
      exact ⟨_, .stop (.inl hj), by rw [if_pos hj]⟩
    have hob : o < t.bufSize := by
      refine lt_of_le_of_ne hle fun heq => hj ?_
      rw [heq, hround]
    rw [if_neg hj]
    by_cases hready : t.rxReorderReady ((index + o) % t.bufSize) = true
    · rw [hready, Bool.not_true, if_neg Bool.false_ne_true]
      by_cases hwait : (skipped ≠ 0 && !timedOut hz jiffies t ((index + o) % t.bufSize)) = true
      · rw [if_pos hwait]
        exact ⟨_, .stop (.inr ⟨hlt, hready, hwait⟩), by rw [if_neg hj]⟩
      · have hpurge := purgeLoop_ends (t := t) (index + 1) (d := o - 1) (n := t.bufSize) (by omega)
          (by omega)
        rw [show index + 1 + (o - 1) = index + o by omega] at hpurge
        rw [if_neg hwait]
        generalize hp : purgeLoop ((index + o) % t.bufSize) t.bufSize ((index + 1) % t.bufSize) t = t₁
          at hpurge
        have hsize : t₁.bufSize = t.bufSize := by rw [← hp, purgeLoop_bufSize]
        obtain ⟨s, hends, heq⟩ := ih (t := (giveUp ((index + o) % t.bufSize) skipped t₁ frames).t)
          (giveUp ((index + o) % t.bufSize) skipped t₁ frames).frames 0 hsize (Nat.succ_pos o) hob (by omega)
        have hj' : (giveUp ((index + o) % t.bufSize) skipped t₁ frames).j =
            (index + (o + 1)) % t.bufSize := by
          rw [← hnext, ← hsize]
          rfl
        refine ⟨s, .next (.release hj hlt hready (Bool.eq_false_iff.mpr hwait) hpurge) ?_, ?_⟩
        · rw [← hj'] at hends
          exact hends
        · rw [← heq, ← hj']
          rfl
    · rw [Bool.not_eq_true] at hready
      rw [hready, Bool.not_false, if_pos rfl, hnext]
      obtain ⟨s, hends, heq⟩ := ih frames (skipped + 1) rfl (Nat.succ_pos o) hob (by omega)
      refine ⟨s, .next (.skip hj hlt hready) ?_, heq⟩
      rw [hnext]
      exact hends

/-! ### Releasing until the next missing frame -/

/-- The slots that are ready. -/
def readySlots (t : TidAmpduRx) : Finset ℕ := (Finset.range t.bufSize).filter fun i => t.rxReorderReady i

theorem mem_readySlots {i : ℕ} : i ∈ readySlots t ↔ i < t.bufSize ∧ t.rxReorderReady i = true := by
  rw [readySlots, mem_filter, mem_range]

/-- There are fewer of them after each round, whatever becomes of the sequence numbers. -/
theorem card_readySlots_releaseHead (frames : List AmpduSkb) (hpos : 0 < t.bufSize)
    (hready : t.rxReorderReady t.headIndex = true) :
    (readySlots (releaseHead (t, frames)).1).card < (readySlots t).card := by
  refine card_lt_card ((ssubset_iff_of_subset fun i hi => ?_).mpr ?_)
  · obtain ⟨hlt, hr⟩ := mem_readySlots.mp hi
    refine mem_readySlots.mpr ⟨hlt, ?_⟩
    by_contra hnot
    have hnot' := @not_ready_releaseReorderFrame t frames t.headIndex i (Bool.eq_false_iff.mpr hnot)
    rw [releaseHead, hnot'] at hr
    cases hr
  · refine ⟨t.headIndex, mem_readySlots.mpr ⟨Nat.mod_lt _ hpos, hready⟩, fun hmem => ?_⟩
    have hr := (mem_readySlots.mp hmem).2
    rw [releaseHead, not_ready_releaseReorderFrame_self] at hr
    cases hr

theorem readyLoop_ends (frames : List AmpduSkb) {n : ℕ} (hpos : 0 < t.bufSize) (hn : (readySlots t).card < n) :
    ∃ r, readyLoop n t frames = some r ∧ Ends ReadyExit ReadyBody (t, frames) r := by
  induction n generalizing t frames with
  | zero => omega
  | succ n ih =>
    rw [readyLoop]
    by_cases hready : t.rxReorderReady t.headIndex = true
    · have hless := card_readySlots_releaseHead frames hpos hready
      obtain ⟨r, hr, hends⟩ := ih (t := (releaseHead (t, frames)).1) (releaseHead (t, frames)).2 hpos
        (by omega)
      rw [if_pos hready]
      exact ⟨r, hr, .next ⟨Nat.mod_lt _ hpos, hready, rfl⟩ hends⟩
    · rw [if_neg hready]
      exact ⟨_, rfl, .stop ⟨Nat.mod_lt _ hpos, Bool.eq_false_iff.mpr hready⟩⟩

/-! ### Looking for the slot of the timer -/

variable {j : ℕ}

/-- What the model takes for `(index - 1) % buf_size` is that number, as far as it is a slot. -/
theorem lastIndex_eq_some_iff (hpos : 0 < t.bufSize) :
    lastIndex t.headIndex t.bufSize = some j ↔ (j : ℤ) = scanEnd t := by
  have hlt : t.headIndex < t.bufSize := Nat.mod_lt _ hpos
  rw [lastIndex, scanEnd]
  by_cases hzero : t.headIndex = 0
  · rw [if_pos hzero, hzero]
    by_cases hone : t.bufSize = 1
    · rw [if_pos hone, hone, Option.some.injEq, eq_comm]
      exact Int.natCast_eq_zero.symm
    · rw [if_neg hone, Nat.cast_zero, zero_sub, Int.neg_tmod, Int.tmod_eq_emod_of_nonneg (by decide),
        Int.emod_eq_of_lt (by decide) (by omega)]
      refine iff_of_false nofun fun heq => ?_
      omega
  · rw [if_neg hzero, Int.tmod_eq_emod_of_nonneg (by omega), Int.emod_eq_of_lt (by omega) (by omega),
      Option.some.injEq]
    omega

/-- Where the scan stops. -/
def scanStops (t : TidAmpduRx) (j : ℕ) : Bool :=
  lastIndex t.headIndex t.bufSize = some j || t.rxReorderReady j

theorem scanStops_iff (hpos : 0 < t.bufSize) (hj : j < t.bufSize) :
    scanStops t j = true ↔ ScanExit t j := by
  rw [scanStops, Bool.or_eq_true, decide_eq_true_eq, lastIndex_eq_some_iff hpos, ScanExit, Int.toNat_natCast]
  refine or_congr_right ⟨fun h => ⟨⟨Int.natCast_nonneg j, by exact_mod_cast hj⟩, h⟩, fun h => h.2⟩

theorem timerSlot_eq : timerSlot t =
    ((List.range t.bufSize).find? fun m => scanStops t ((t.headIndex + m) % t.bufSize)).map
      fun m => (t.headIndex + m) % t.bufSize := by
  rw [timerSlot, List.find?_map]
  rfl

theorem cast_slot_succ (x m b : ℕ) :
    (((x + (m + 1)) % b : ℕ) : ℤ) = (((x + m) % b : ℕ) + 1 : ℤ).tmod b := by
  rw [← Nat.add_assoc, ← Nat.mod_add_mod, Int.tmod_eq_emod_of_nonneg (by omega)]
  push_cast
  rfl

theorem scanBody_of_not_stops (hpos : 0 < t.bufSize) {m : ℕ}
    (hnot : scanStops t ((t.headIndex + m) % t.bufSize) = false) :
    ScanBody t ((t.headIndex + m) % t.bufSize : ℕ) ((t.headIndex + (m + 1)) % t.bufSize : ℕ) := by
  have hlt : (t.headIndex + m) % t.bufSize < t.bufSize := Nat.mod_lt _ hpos
  have hexit := mt (scanStops_iff hpos hlt).mpr (by rw [hnot]; exact Bool.false_ne_true)
  rw [ScanExit, not_or, not_and, Bool.not_eq_true] at hexit
  have hrange : (0 : ℤ) ≤ ((t.headIndex + m) % t.bufSize : ℕ) ∧
      (((t.headIndex + m) % t.bufSize : ℕ) : ℤ) < t.bufSize := ⟨Int.natCast_nonneg _, by exact_mod_cast hlt⟩
  exact ⟨hexit.1, hrange, hexit.2 hrange, cast_slot_succ ..⟩

theorem timerSlot_ends (hpos : 0 < t.bufSize) (h : timerSlot t = some j) :
    j < t.bufSize ∧ Ends (ScanExit t) (ScanBody t) t.headIndex j := by
  rw [timerSlot_eq] at h
  obtain ⟨m, hm, rfl⟩ := map_eq_some_iff.mp h
  rw [List.find?_range_eq_some] at hm
  obtain ⟨hstops, -, hbefore⟩ := hm
  have hlt : (t.headIndex + m) % t.bufSize < t.bufSize := Nat.mod_lt _ hpos
  refine ⟨hlt, ?_⟩
  have hstart : (t.headIndex + 0) % t.bufSize = t.headIndex := Nat.mod_mod ..
  have hends := @Ends.of_seq ℤ (ScanExit t) (ScanBody t)
    (fun k => (((t.headIndex + k) % t.bufSize : ℕ) : ℤ)) m
    (fun k hk => scanBody_of_not_stops hpos (by simpa using hbefore k hk)) ((scanStops_iff hpos hlt).mp hstops)
  rw [hstart] at hends
  exact hends

theorem not_ends_of_timerSlot (hpos : 0 < t.bufSize) (h : timerSlot t = none) (j : ℤ) :
    ¬Ends (ScanExit t) (ScanBody t) t.headIndex j := by
  rw [timerSlot_eq, map_eq_none_iff, List.find?_eq_none] at h
  refine not_ends (fun j => ∃ m, j = ((t.headIndex + m) % t.bufSize : ℕ)) ?_ ?_ ⟨0, ?_⟩
  · rintro _ ⟨m, rfl⟩ hexit
    have hlt : (t.headIndex + m) % t.bufSize < t.bufSize := Nat.mod_lt _ hpos
    obtain ⟨m', hm', heq⟩ := exists_slot t.headIndex hlt
    refine h m' (List.mem_range.mpr hm') ?_
    rw [heq]
    exact (scanStops_iff hpos hlt).mpr hexit
  · rintro _ _ ⟨m, rfl⟩ ⟨-, -, -, rfl⟩
    exact ⟨m + 1, (cast_slot_succ ..).symm⟩
  · exact congrArg _ (Nat.mod_mod ..).symm

theorem scan_unique {j j' : ℤ} (h : Ends (ScanExit t) (ScanBody t) t.headIndex j)
    (h' : Ends (ScanExit t) (ScanBody t) t.headIndex j') : j = j' := by
  refine h.unique ?_ ?_ h'
  · rintro j j' (rfl | ⟨-, hready⟩) ⟨hne, -, hnot, -⟩
    · exact hne rfl
    · rw [hready] at hnot
      cases hnot
  · rintro j _ _ ⟨-, -, -, rfl⟩ ⟨-, -, -, rfl⟩
    rfl

/-- The timer is set as in the model, and is not set at all where the model has no result. -/
theorem rearmed_iff (hpos : 0 < t.bufSize) : Rearmed hz t t' ↔ rearmTimer hz t = some t' := by
  rw [rearmTimer]
  constructor
  · rintro (⟨hstored, hscan, -⟩ | hstored)
    · rw [if_pos hstored]
      cases hslot : timerSlot t with
      | none => exact absurd hscan (not_ends_of_timerSlot hpos hslot _)
      | some j =>
        obtain rfl := scan_unique hscan (timerSlot_ends hpos hslot).2
        rw [map_some, Int.toNat_natCast]
    · rw [if_neg (not_not.mpr hstored)]
  · intro h
    split at h
    · rename_i hstored
      obtain ⟨j, hj, rfl⟩ := map_eq_some_iff.mp h
      obtain ⟨hlt, hends⟩ := timerSlot_ends hpos hj
      have harmed : Rearmed hz t (setReleaseTimer hz t (j : ℤ).toNat) :=
        .armed hstored hends ⟨Int.natCast_nonneg j, by exact_mod_cast hlt⟩
      rwa [Int.toNat_natCast] at harmed
    · rename_i hstored
      cases h
      exact .off (not_not.mp hstored)

/-! ### The whole function -/

theorem purge_unique {s s' s'' : ℕ × TidAmpduRx} (h : Ends (fun s => s.1 = j) (PurgeBody j) s s')
    (h' : Ends (fun s => s.1 = j) (PurgeBody j) s s'') : s' = s'' := by
  refine h.unique ?_ ?_ h'
  · rintro s _ rfl ⟨hne, -, -⟩
    exact hne rfl
  · rintro s _ _ ⟨-, -, rfl⟩ ⟨-, -, rfl⟩
    rfl

theorem timeout_unique {s s' s'' : TimeoutState}
    (h : Ends (TimeoutExit hz jiffies index) (TimeoutBody hz jiffies index) s s')
    (h' : Ends (TimeoutExit hz jiffies index) (TimeoutBody hz jiffies index) s s'') : s' = s'' := by
  refine h.unique ?_ ?_ h'
  · rintro s _ hexit hbody
    cases hbody with
    | skip hj hlt hnot =>
      rcases hexit with hexit | ⟨-, hready, -⟩
      · exact hj hexit
      · rw [hnot] at hready
        cases hready
    | release hj hlt hready hout =>
      rcases hexit with hexit | ⟨-, -, hwait⟩
      · exact hj hexit
      · rw [hout] at hwait
        cases hwait
  · rintro s _ _ hbody hbody'
    cases hbody with
    | skip hj hlt hnot =>
      cases hbody' with
      | skip => rfl
      | release _ _ hready =>
        rw [hnot] at hready
        cases hready
    | release hj hlt hready hout hpurge =>
      cases hbody' with
      | skip _ _ hnot =>
        rw [hnot] at hready
        cases hready
      | release _ _ _ _ hpurge' =>
        obtain ⟨-, rfl⟩ := Prod.mk.inj (purge_unique hpurge hpurge')
        rfl

theorem ready_unique {r r' r'' : TidAmpduRx × List AmpduSkb} (h : Ends ReadyExit ReadyBody r r')
    (h' : Ends ReadyExit ReadyBody r r'') : r' = r'' := by
  refine h.unique ?_ ?_ h'
  · rintro r _ ⟨-, hnot⟩ ⟨-, hready, -⟩
    rw [hready] at hnot
    cases hnot
  · rintro r _ _ ⟨-, -, rfl⟩ ⟨-, -, rfl⟩
    rfl

theorem TimeoutBody.bufSize {s s' : TimeoutState} (h : TimeoutBody hz jiffies index s s') :
    s'.t.bufSize = s.t.bufSize := by
  cases h with
  | skip => rfl
  | @release _ _ t _ _ _ _ _ _ hpurge =>
    refine hpurge.invariant (fun s => s.2.bufSize = t.bufSize) ?_ rfl
    rintro s _ hsize ⟨-, -, rfl⟩
    exact hsize

/-- **The executions of `ieee80211_sta_reorder_release` are what the model computes**, and there is none
where it computes nothing. -/
theorem released_iff (hpos : 0 < t.bufSize) {r : TidAmpduRx × List AmpduSkb} :
    Released hz jiffies t frames r ↔ staReorderRelease hz jiffies t frames = some r := by
  have hindex : t.headIndex < t.bufSize := Nat.mod_lt _ hpos
  rw [staReorderRelease]
  cases hcond : !t.rxReorderReady t.headIndex && t.storedMpduNum ≠ 0 with
  | true =>
    obtain ⟨s, hloop, heq⟩ := timeoutLoop_ends hz jiffies frames 1 (n := t.bufSize) (o := 1)
      rfl hindex one_pos hpos (by omega)
    have hsize : s.t.bufSize = t.bufSize :=
      hloop.invariant (fun s => s.t.bufSize = t.bufSize) (fun _ _ h hb => hb.bufSize.trans h) rfl
    rw [if_pos rfl, heq]
    by_cases hj : s.j = t.headIndex
    · rw [if_pos hj]
      constructor
      · rintro (⟨-, -, hloop', hj'⟩ | ⟨-, -, hloop', -, hrearm⟩ | ⟨-, hcond', -, -⟩)
        · obtain rfl := timeout_unique hloop hloop'
          exact absurd hj hj'
        · obtain rfl := timeout_unique hloop hloop'
          simp only [(rearmed_iff (hsize ▸ hpos)).mp hrearm, map_some]
        · rw [hcond] at hcond'
          cases hcond'
      · intro h
        obtain ⟨t', ht', rfl⟩ := map_eq_some_iff.mp h
        exact .gaveUp hindex hcond hloop hj ((rearmed_iff (hsize ▸ hpos)).mpr ht')
    · rw [if_neg hj]
      constructor
      · rintro (⟨-, -, hloop', -⟩ | ⟨-, -, hloop', hj', -⟩ | ⟨-, hcond', -, -⟩)
        · obtain rfl := timeout_unique hloop hloop'
          rfl
        · obtain rfl := timeout_unique hloop hloop'
          exact absurd hj' hj
        · rw [hcond] at hcond'
          cases hcond'
      · intro h
        cases h
        exact .waits hindex hcond hloop hj
  | false =>
    have hcard : (readySlots t).card < t.bufSize + 1 := by
      have hle := card_filter_le (Finset.range t.bufSize) fun i => t.rxReorderReady i = true
      rw [card_range] at hle
      exact Nat.lt_succ_of_le hle
    obtain ⟨r', hr', hloop⟩ := readyLoop_ends frames hpos hcard
    have hsize : r'.1.bufSize = t.bufSize := by
      refine hloop.invariant (fun r => r.1.bufSize = t.bufSize) ?_ rfl
      rintro _ _ h ⟨-, -, rfl⟩
      exact h
    rw [if_neg Bool.false_ne_true, hr', bind_some]
    constructor
    · rintro (⟨-, hcond', -, -⟩ | ⟨-, hcond', -, -, -⟩ | ⟨-, -, hloop', hrearm⟩)
      · rw [hcond] at hcond'
        cases hcond'
      · rw [hcond] at hcond'
        cases hcond'
      · obtain rfl := ready_unique hloop hloop'
        simp only [(rearmed_iff (hsize ▸ hpos)).mp hrearm, map_some]
    · intro h
      obtain ⟨t', ht', rfl⟩ := map_eq_some_iff.mp h
      exact .ready hindex hcond hloop ((rearmed_iff (hsize ▸ hpos)).mpr ht')

end Loops

/-! ### The counter -/

section Count

variable {hz jiffies : UInt64} {t t' : TidAmpduRx} {frames : List AmpduSkb} {i j : ℕ}

theorem CountInv.releaseReorderFrame (h : CountInv t) (hi : i < t.bufSize) :
    CountInv (releaseReorderFrame t i frames).1 :=
  ⟨h.pos, h.le, h.count_releaseReorderFrame hi, h.unmarked_releaseReorderFrame i⟩

theorem CountInv.releaseHead (h : CountInv t) : CountInv (releaseHead (t, frames)).1 :=
  h.releaseReorderFrame (Nat.mod_lt _ h.pos)

theorem CountInv.withHead (h : CountInv t) (n : ℕ) : CountInv { t with headSeqNum := n } :=
  ⟨h.pos, h.le, h.count, h.unmarked⟩

theorem CountInv.withTimer (h : CountInv t) (timer : Option UInt64) :
    CountInv { t with reorderTimer := timer } := ⟨h.pos, h.le, h.count, h.unmarked⟩

theorem CountInv.setReleaseTimer (h : CountInv t) : CountInv (setReleaseTimer hz t j) := by
  obtain ⟨timer, htimer⟩ := setReleaseTimer_eq hz t j
  rw [htimer]
  exact h.withTimer timer

theorem TidAmpduRx.reorderBuf_purge_self : (t.purge i).reorderBuf i = [] := Function.update_self ..

theorem TidAmpduRx.reorderBuf_purge_of_ne (hji : j ≠ i) : (t.purge i).reorderBuf j = t.reorderBuf j :=
  Function.update_of_ne hji ..

theorem not_ready_purge (h : t.rxReorderReady j = false) : (t.purge i).rxReorderReady j = false := by
  by_cases hji : j = i
  · have hfiltered : (t.purge i).reorderBufFiltered = t.reorderBufFiltered := rfl
    rw [TidAmpduRx.rxReorderReady, hfiltered, filtered_of_not_ready h, hji,
      complete_of_nil TidAmpduRx.reorderBuf_purge_self]
    rfl
  · rw [← h]
    exact rxReorderReady_of_eq rfl (TidAmpduRx.reorderBuf_purge_of_ne hji)

theorem CountInv.purge (h : CountInv t) (hc : t.complete i = false) : CountInv (t.purge i) := by
  have hsame (k : ℕ) : (t.purge i).complete k = t.complete k := by
    by_cases hki : k = i
    · rw [hki, hc, complete_of_nil TidAmpduRx.reorderBuf_purge_self]
    · exact complete_of_eq (TidAmpduRx.reorderBuf_purge_of_ne hki)
  refine ⟨h.pos, h.le, ?_, fun k hk hne hck => ?_⟩
  · refine h.count.trans (congrArg Finset.card ?_)
    ext k
    rw [TidAmpduRx.mem_completeSlots, TidAmpduRx.mem_completeSlots, hsame]
    rfl
  · rw [hsame] at hck
    by_cases hki : k = i
    · rw [hki, TidAmpduRx.reorderBuf_purge_self] at hne
      exact absurd rfl hne
    · rw [TidAmpduRx.reorderBuf_purge_of_ne hki] at hne
      exact h.unmarked k hk hne hck

/-- The counter is right, and nothing is ready in the slots behind `index` up to the `o`-th one. -/
structure Behind (b index o : ℕ) (t : TidAmpduRx) : Prop where
  inv : CountInv t
  size : t.bufSize = b
  pos : 0 < o
  le : o ≤ b
  notReady : ∀ m, 0 < m → m < o → t.rxReorderReady ((index + m) % b) = false

section Behind

variable {b index o : ℕ}

theorem Behind.purgeLoop (h : Behind b index o t) {s : ℕ × TidAmpduRx}
    (hpurge : Ends (fun s => s.1 = (index + o) % b) (PurgeBody ((index + o) % b)) ((index + 1) % b, t) s) :
    Behind b index o s.2 := by
  refine (hpurge.invariant
    (fun s => Behind b index o s.2 ∧ ∃ k, 0 < k ∧ k ≤ o ∧ s.1 = (index + k) % b) ?_
    ⟨h, 1, one_pos, h.pos, rfl⟩).1
  rintro ⟨_, t⟩ _ ⟨h, k, hk, hko, rfl⟩ ⟨hne, -, rfl⟩
  have hlt : k < o := by
    refine lt_of_le_of_ne hko ?_
    rintro rfl
    exact hne rfl
  have hnot := h.notReady k hk hlt
  refine ⟨⟨h.inv.purge (not_complete_of_not_ready hnot), h.size, h.pos, h.le, fun m hm hmo =>
    not_ready_purge (h.notReady m hm hmo)⟩, k + 1, Nat.succ_pos k, hlt, ?_⟩
  dsimp only
  rw [h.size, Nat.mod_add_mod]
  rfl

theorem Behind.timeoutBody (h : Behind b index o t) (hindex : index < b) {skipped : ℕ} {s : TimeoutState}
    (hbody : TimeoutBody hz jiffies index ⟨(index + o) % b, skipped, t, frames⟩ s) :
    Behind b index (o + 1) s.t ∧ s.j = (index + (o + 1)) % b := by
  have hnext : ((index + o) % b + 1) % b = (index + (o + 1)) % b := Nat.mod_add_mod ..
  have hlt (hj : (index + o) % b ≠ index) : o + 1 ≤ b := by
    refine lt_of_le_of_ne h.le ?_
    rintro rfl
    exact hj (by rw [Nat.add_mod_right, Nat.mod_eq_of_lt hindex])
  have hsize := h.size
  cases hbody with
  | skip hj _ hnot =>
    refine ⟨⟨h.inv, hsize, Nat.succ_pos o, hlt hj, fun m hm hmo => ?_⟩, by rw [hsize, hnext]⟩
    rcases Nat.lt_succ_iff_lt_or_eq.mp hmo with hmo | rfl
    · exact h.notReady m hm hmo
    · exact hnot
  | @release _ _ _ t' _ hj hjlt _ _ hpurge =>
    rw [hsize] at hpurge hjlt
    have hbehind : Behind b index o t' := h.purgeLoop hpurge
    have hinv : CountInv (Mac80211.releaseReorderFrame t' ((index + o) % b) frames).1 :=
      hbehind.inv.releaseReorderFrame (by rw [hbehind.size]; exact hjlt)
    refine ⟨⟨hinv.withHead _, hbehind.size, Nat.succ_pos o, hlt hj, fun m hm hmo => ?_⟩, ?_⟩
    · change (Mac80211.releaseReorderFrame t' ((index + o) % b) frames).1.rxReorderReady _ = false
      rcases Nat.lt_succ_iff_lt_or_eq.mp hmo with hmo | rfl
      · exact not_ready_releaseReorderFrame (hbehind.notReady m hm hmo)
      · exact not_ready_releaseReorderFrame_self _
    · rw [← hnext, ← hbehind.size]
      rfl

end Behind

theorem CountInv.timeout (h : CountInv t) {s : TimeoutState}
    (hloop : Ends (TimeoutExit hz jiffies t.headIndex) (TimeoutBody hz jiffies t.headIndex)
      ⟨(t.headIndex + 1) % t.bufSize, 1, t, frames⟩ s) : CountInv s.t := by
  have hindex : t.headIndex < t.bufSize := Nat.mod_lt _ h.pos
  have hstart : Behind t.bufSize t.headIndex 1 t := ⟨h, rfl, one_pos, h.pos, fun m hm hmo => by omega⟩
  obtain ⟨o, hbehind, -⟩ := hloop.invariant
    (fun s => ∃ o, Behind t.bufSize t.headIndex o s.t ∧ s.j = (t.headIndex + o) % t.bufSize) (by
      rintro ⟨_, skipped, t', frames⟩ s' ⟨o, hbehind, rfl⟩ hbody
      exact ⟨o + 1, hbehind.timeoutBody hindex hbody⟩) ⟨1, hstart, rfl⟩
  exact hbehind.inv

variable {r : TidAmpduRx × List AmpduSkb}

theorem CountInv.ready (h : CountInv t)
    (hloop : Ends ReadyExit ReadyBody (t, frames) r) : CountInv r.1 := by
  refine hloop.invariant (fun r => CountInv r.1) ?_ h
  rintro r _ hinv ⟨-, -, rfl⟩
  exact hinv.releaseHead

theorem CountInv.rearmed (h : CountInv t) (hrearm : Rearmed hz t t') : CountInv t' := by
  cases hrearm with
  | armed => exact h.setReleaseTimer
  | off => exact h.withTimer none

/-- **The whole function keeps the counter right.** -/
theorem CountInv.released (h : CountInv t)
    (hr : Released hz jiffies t frames r) : CountInv r.1 := by
  cases hr with
  | waits _ _ hloop => exact (h.timeout hloop).setReleaseTimer
  | gaveUp _ _ hloop _ hrearm => exact (h.timeout hloop).rearmed hrearm
  | ready _ _ hloop hrearm => exact (h.ready hloop).rearmed hrearm

theorem CountInv.exists_rearmed (h : CountInv t) (hz : UInt64) : ∃ t', Rearmed hz t t' := by
  obtain ⟨timer, htimer⟩ := h.rearmTimer_eq hz
  exact ⟨_, (rearmed_iff h.pos).mpr htimer⟩

/-- **And then it comes to an end.** -/
theorem CountInv.exists_released (h : CountInv t) (hz jiffies : UInt64) (frames : List AmpduSkb) :
    ∃ r, Released hz jiffies t frames r := by
  have hindex : t.headIndex < t.bufSize := Nat.mod_lt _ h.pos
  cases hcond : !t.rxReorderReady t.headIndex && t.storedMpduNum ≠ 0 with
  | true =>
    obtain ⟨s, hloop, -⟩ := timeoutLoop_ends hz jiffies frames 1 (n := t.bufSize) (o := 1)
      rfl hindex one_pos h.pos (by omega)
    by_cases hj : s.j = t.headIndex
    · obtain ⟨t', ht'⟩ := (h.timeout hloop).exists_rearmed hz
      exact ⟨_, .gaveUp hindex hcond hloop hj ht'⟩
    · exact ⟨_, .waits hindex hcond hloop hj⟩
  | false =>
    obtain ⟨r, -, hloop⟩ := readyLoop_ends frames h.pos (Nat.lt_succ_self _)
    obtain ⟨t', ht'⟩ := (h.ready hloop).exists_rearmed hz
    exact ⟨_, .ready hindex hcond hloop ht'⟩

theorem CountInv.releasedUpTo (h : CountInv t) {target : ℕ}
    (hr : ReleasedUpTo target (t, frames) r) : CountInv r.1 := by
  refine hr.invariant (fun r => CountInv r.1) ?_ h
  rintro r _ hinv ⟨-, -, rfl⟩
  exact hinv.releaseHead

theorem CountInv.releaseReorderFrames (h : CountInv t) (target : ℕ) (frames : List AmpduSkb) :
    CountInv (releaseReorderFrames t target frames).1 :=
  h.releasedUpTo (releasedUpTo_releaseReorderFrames h.pos target frames)

/-! ### Runs -/

/-- The filtered marks leave incomplete A-MSDUs alone. -/
def MarkCond (t : TidAmpduRx) : ReorderOp → Prop
  | .mark _ ssn filtered received =>
    let t := (markRelease t ssn.toNat received.toNat).1
    snSub t.headSeqNum ssn.toNat < t.bufSize →
      ∀ i < t.bufSize, t.reorderBuf i ≠ [] → t.complete i = false →
        (markFiltered t ssn.toNat filtered).reorderBufFiltered &&& bitUll i = 0
  | _ => True

instance (t : TidAmpduRx) : ∀ op, Decidable (MarkCond t op)
  | .frame .. => inferInstanceAs (Decidable True)
  | .bar _ => inferInstanceAs (Decidable True)
  | .timeout _ => inferInstanceAs (Decidable True)
  | .mark .. => inferInstanceAs (Decidable (_ → _))

theorem CountInv.pickSeq (h : CountInv t) (sn : ℕ) : CountInv (pickSeq t sn) := by
  rw [Mac80211.pickSeq]
  split
  · exact ⟨h.pos, h.le, h.count, h.unmarked⟩
  · exact h

theorem CountInv.makeRoom (h : CountInv t) (sn : ℕ) : CountInv (makeRoom t sn).1 := by
  rw [Mac80211.makeRoom]
  split
  · exact h.releaseReorderFrames _ _
  · exact h

theorem CountInv.store (h : CountInv t) (jiffies : UInt64) {skb : AmpduSkb}
    (hnot : t.rxReorderReady (skb.sn % t.bufSize) = false) : CountInv (store jiffies t skb) := by
  obtain ⟨hsize, -, hfiltered, -⟩ := store_fields jiffies t skb
  refine ⟨hsize ▸ h.pos, hsize ▸ h.le, h.count_store jiffies hnot, fun i hi hne hc => ?_⟩
  rw [hsize] at hi
  rw [hfiltered]
  by_cases his : i = skb.sn % t.bufSize
  · rw [his]
    exact filtered_of_not_ready hnot
  · rw [reorderBuf_store_of_ne jiffies his] at hne
    rw [complete_of_eq (reorderBuf_store_of_ne jiffies his)] at hc
    exact h.unmarked i hi hne hc

theorem CountInv.staReorderRelease (h : CountInv t) (hz jiffies : UInt64) (frames : List AmpduSkb) :
    ∃ r, staReorderRelease hz jiffies t frames = some r ∧ CountInv r.1 := by
  obtain ⟨r, hr⟩ := h.exists_released hz jiffies frames
  exact ⟨r, (released_iff h.pos).mp hr, h.released hr⟩

theorem CountInv.manageStarted (h : CountInv t) (hz jiffies : UInt64) (skb : AmpduSkb) :
    ∃ t' frames fate, manageStarted hz jiffies t skb = some (t', frames, fate) ∧ CountInv t' := by
  rw [Mac80211.manageStarted]
  cases hold : snLess skb.sn t.headSeqNum with
  | true => exact ⟨_, _, _, rfl, h⟩
  | false =>
    have hroom := h.makeRoom skb.sn
    generalize Mac80211.makeRoom t skb.sn = r at hroom ⊢
    obtain ⟨t, frames⟩ := r
    simp only [Bool.false_eq_true, if_false]
    cases hready : t.rxReorderReady (skb.sn % t.bufSize) with
    | true => exact ⟨_, _, _, rfl, hroom⟩
    | false =>
      simp only [Bool.false_eq_true, if_false]
      split
      · refine ⟨_, _, _, rfl, ?_⟩
        split
        · exact hroom
        · exact hroom.withHead _
      · have hstore := hroom.store jiffies hready
        split
        · exact ⟨_, _, _, rfl, hstore⟩
        · obtain ⟨r, hr, hinv⟩ := hstore.staReorderRelease hz jiffies frames
          rw [hr]
          exact ⟨_, _, _, rfl, hinv⟩

theorem CountInv.markRxBaFilteredFrames (h : CountInv t) (hz jiffies filtered : UInt64)
    {ssn received : UInt16} (hcond : MarkCond t (.mark jiffies ssn filtered received)) :
    ∃ r, markRxBaFilteredFrames hz jiffies t ssn.toNat filtered received.toNat = some r ∧ CountInv r.1 := by
  have hrelease : CountInv (markRelease t ssn.toNat received.toNat).1 := by
    rw [markRelease]
    split
    · exact (h.releaseReorderFrames _ _).withHead _
    · exact h.releaseReorderFrames _ _
  rw [Mac80211.markRxBaFilteredFrames]
  simp only [MarkCond] at hcond
  generalize markRelease t ssn.toNat received.toNat = r at hrelease hcond ⊢
  obtain ⟨t, frames⟩ := r
  dsimp only at hrelease hcond ⊢
  split
  · exact ⟨_, rfl, hrelease.pos, hrelease.le, hrelease.count, fun _ _ _ _ => UInt64.zero_and⟩
  · rename_i hlt
    have hmarked : CountInv (markFiltered t ssn.toNat filtered) :=
      ⟨hrelease.pos, hrelease.le, hrelease.count, hcond (by omega)⟩
    exact hmarked.staReorderRelease hz jiffies frames

/-- **A step that marks no incomplete A-MSDU comes to an end and keeps the counter right.** -/
theorem CountInv.step (h : CountInv t) (hz : UInt64) {op : ReorderOp} (hcond : MarkCond t op) :
    ∃ t' outs, reorderStep hz t op = some (t', outs) ∧ CountInv t' := by
  cases op with
  | frame jiffies skb =>
    have hpick := h.pickSeq skb.sn
    rw [reorderStep, manageReorderBuf]
    dsimp only
    split
    · exact ⟨_, _, rfl, hpick⟩
    · obtain ⟨t', frames, fate, heq, hinv⟩ := CountInv.manageStarted
        (t := { Mac80211.pickSeq t skb.sn with started := true })
        ⟨hpick.pos, hpick.le, hpick.count, hpick.unmarked⟩ hz jiffies skb
      rw [heq]
      exact ⟨_, _, rfl, hinv⟩
  | bar seqCtrl => exact ⟨_, _, rfl, h.releaseReorderFrames _ _⟩
  | timeout jiffies =>
    obtain ⟨r, hr, hinv⟩ := h.staReorderRelease hz jiffies []
    rw [reorderStep, hr]
    exact ⟨_, _, rfl, hinv⟩
  | mark jiffies ssn filtered received =>
    obtain ⟨r, hr, hinv⟩ := h.markRxBaFilteredFrames hz jiffies filtered hcond
    rw [reorderStep, hr]
    exact ⟨_, _, rfl, hinv⟩

theorem countInv_newTidAmpduRx {bufSize : ℕ} (hpos : 0 < bufSize) (hle : bufSize ≤ 256) (ssn : ℕ)
    (autoSeq : Bool) : CountInv (newTidAmpduRx bufSize ssn autoSeq) := by
  refine ⟨hpos, hle, ?_, fun _ _ hne => absurd rfl hne⟩
  rw [completeSlots_eq_empty fun _ _ => rfl]
  rfl

/-- **The loops of the reorder buffer end** in every run in which no incomplete A-MSDU is marked as
filtered, and touch only slots of the ring; and so does every such step. -/
theorem reorder_loops_end {bufSize ssn : ℕ} {autoSeq : Bool} {outs : List ReorderOut}
    (hpos : 0 < bufSize) (hle : bufSize ≤ 256)
    (h : Reach (reorderStep hz) (fun t _ op => MarkCond t op) (newTidAmpduRx bufSize ssn autoSeq) t outs) :
    (∀ target frames, ∃ r, ReleasedUpTo target (t, frames) r) ∧
    (∀ jiffies frames, ∃ r, Released hz jiffies t frames r) ∧
    ∀ op, MarkCond t op → (reorderStep hz t op).isSome = true := by
  have hinv : CountInv t := by
    refine h.invariant (fun t _ => CountInv t) (countInv_newTidAmpduRx hpos hle ssn autoSeq) ?_
    intro t _ op t' o hinv hcond hstep
    obtain ⟨t'', o', heq, hinv'⟩ := hinv.step hz hcond
    rw [heq, Option.some.injEq, Prod.mk.injEq] at hstep
    exact hstep.1 ▸ hinv'
  refine ⟨fun target frames => ⟨_, releasedUpTo_releaseReorderFrames hinv.pos target frames⟩,
    hinv.exists_released hz, fun op hcond => ?_⟩
  obtain ⟨t', o, heq, -⟩ := hinv.step hz hcond
  rw [heq]
  rfl

end Count

/-- The window begins with slot 0, and frame 1 is there. -/
theorem reorder_loops_end_slot_zero : ∃ t outs,
    Reach (reorderStep 250) (fun t _ op => MarkCond t op) (newTidAmpduRx 4 0 false) t outs ∧
    (t.headSeqNum, t.bufSize, t.storedMpduNum) = (0, 4, 1) ∧ scanEnd t = -1 ∧
    ∃ r, Released 250 30 t [] r := by
  have hrun : (run (reorderStep 250) (newTidAmpduRx 4 0 false) [.frame 0 ⟨0x10, false, [1]⟩]).map
      (fun r => (r.1.headSeqNum, r.1.bufSize, r.1.storedMpduNum)) = some (0, 4, 1) := by
    decide +kernel
  have hmeets : Meets (reorderStep 250) (fun t _ op => MarkCond t op) (newTidAmpduRx 4 0 false) []
      [.frame 0 ⟨0x10, false, [1]⟩] := by
    decide +kernel
  obtain ⟨⟨t, outs⟩, hr, hs⟩ := map_eq_some_iff.mp hrun
  have hreach := Reach.of_run .init hmeets hr
  refine ⟨t, outs, hreach, hs, ?_, (reorder_loops_end (by decide) (by decide) hreach).2.1 30 []⟩
  simp only [Prod.mk.injEq] at hs
  obtain ⟨hhead, hsize, -⟩ := hs
  rw [scanEnd, TidAmpduRx.headIndex, hhead, hsize]
  decide

/-- **The search for the slot of the timer goes on for ever.** Part of frame 6 is marked as
filtered, 5 and 7 come, and 6 and 7 are counted once: the counter is 65535, the ring empty, and the
window begins with slot 0. -/
theorem reorder_release_hangs : ∃ t outs,
    Reach (reorderStep 250) (fun _ _ _ => True) (newTidAmpduRx 8 5 false) t outs ∧
    reorderStep 250 t (.frame 0 ⟨0x70, false, [3]⟩) = none ∧
    ∀ r, ¬Released 250 0 (store 0 t ⟨0x70, false, [3]⟩) [] r := by
  have hrun : (run (reorderStep 250) (newTidAmpduRx 8 5 false)
      [.frame 0 ⟨0x60, true, [1]⟩, .mark 0 5 2 0, .frame 0 ⟨0x50, false, [2]⟩]).map
      (fun r => ((reorderStep 250 r.1 (.frame 0 ⟨0x70, false, [3]⟩)).isNone,
        (staReorderRelease 250 0 (store 0 r.1 ⟨0x70, false, [3]⟩) []).isNone,
        (store 0 r.1 ⟨0x70, false, [3]⟩).bufSize)) = some (true, true, 8) := by
    decide +kernel
  obtain ⟨⟨t, outs⟩, hr, hs⟩ := map_eq_some_iff.mp hrun
  simp only [Prod.mk.injEq] at hs
  obtain ⟨hstep, hrelease, hsize⟩ := hs
  refine ⟨t, outs, Reach.of_run_init hr, isNone_iff_eq_none.mp hstep, fun r hreleased => ?_⟩
  rw [released_iff (by rw [hsize]; decide), isNone_iff_eq_none.mp hrelease] at hreleased
  cases hreleased

end Mac80211
