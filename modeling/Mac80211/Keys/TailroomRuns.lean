import Mac80211.Keys.TailroomKeys

/-!
# The tailroom counters over whole runs

`ieee80211_reenable_keys` sets the counters to 0 and counts the keys again, one that the driver does
not take any more included, and one of the two counts that the counter of a VLAN is made of.

## Main definitions

* `TailEvent.Recounts`

## Main results

* `tailroom_right` — the counters are right where nothing is forgotten
-/

namespace Mac80211

open List

namespace TailState

variable {net : TailNet} {env : TailEnv} {s : TailState} {d : SdataId → ℤ} {i : SdataId}

/-! ### Counting from the start -/

theorem foldl_zeroCounts (l : List SdataId) : ∀ s : TailState,
    l.foldl (fun s v => s.zeroCounts v) s = { s with
      neededCnt := fun j => if j ∈ l then 0 else s.neededCnt j
      pendingDec := fun j => if j ∈ l then 0 else s.pendingDec j } := by
  induction l with
  | nil => simp
  | cons v l ih =>
    intro s
    have hupdate (f : SdataId → ℤ) (j : SdataId) :
        (if j ∈ l then 0 else Function.update f v 0 j) = if j ∈ v :: l then 0 else f j := by
      by_cases hj : j = v
      · simp [hj]
      · simp [hj]
    rw [foldl_cons, ih, zeroCounts]
    dsimp only
    simp only [hupdate]

/-- The counters of an interface, and of those that count with it, are 0. -/
def zeroed (net : TailNet) (s : TailState) (i : SdataId) : TailState :=
  { s with
    neededCnt := fun j => if j = i ∨ j ∈ net.vlans i then 0 else s.neededCnt j
    pendingDec := fun j => if j = i ∨ j ∈ net.vlans i then 0 else s.pendingDec j }

theorem zeroed_eq (net : TailNet) (s : TailState) (i : SdataId) : (if net.type i = .ap then
      (net.vlans i).foldl (fun s vlan => s.zeroCounts vlan) (s.zeroCounts i) else s.zeroCounts i) =
      s.zeroed net i := by
  have hupdate (f : SdataId → ℤ) (j : SdataId) : (if j ∈ net.vlans i then 0 else Function.update f i 0 j) =
      if j = i ∨ j ∈ net.vlans i then 0 else f j := by
    by_cases hj : j = i
    · simp [hj]
    · simp [hj]
  have hfold : (net.vlans i).foldl (fun s vlan => s.zeroCounts vlan) (s.zeroCounts i) =
      s.zeroed net i := by
    rw [foldl_zeroCounts, zeroCounts, zeroed]
    dsimp only
    simp only [hupdate]
  split
  · exact hfold
  · rename_i htype
    have hnil : net.vlans i = [] := eq_nil_iff_forall_not_mem.2 fun v hv =>
      htype (net.type_master v i ((net.mem_vlans v i).1 hv)).2
    rw [hnil] at hfold
    exact hfold

/-- No count is forgotten: no key of a VLAN of the access point wants tailroom; the access point of an
interface of a VLAN counts none. -/
structure Alone (net : TailNet) (s : TailState) (i : SdataId) : Prop where
  vlans : ∀ v ∈ net.vlans i, s.number v = 0
  master : ∀ a ∈ net.master i, s.neededCnt a = 0

instance (net : TailNet) (s : TailState) (i : SdataId) : Decidable (Alone net s i) :=
  decidable_of_iff ((∀ v ∈ net.vlans i, s.number v = 0) ∧ ∀ a ∈ net.master i, s.neededCnt a = 0)
    ⟨fun h => ⟨h.1, h.2⟩, fun h => ⟨h.vlans, h.master⟩⟩

theorem Books.zeroed (h : Books net s 0) (halone : Alone net s i) :
    Books net (s.zeroed net i) (Pi.single i (-s.number i)) := by
  refine h.of_kept ⟨rfl, rfl, rfl, fun _ => rfl, fun _ => rfl⟩
    (fun k hk hup => h.hardware _ k hk hup) (fun j hj => ?_) (fun j => ?_)
  · rw [TailState.zeroed]
    dsimp only
    split
    · rfl
    · exact h.pending j hj
  · have hnumber : (s.zeroed net i).number j = s.number j := rfl
    have hoff := h.off j
    have hself : i ∉ net.vlans i := fun hi => by
      obtain ⟨hvlan, hap⟩ := net.type_master i i ((net.mem_vlans i i).1 hi)
      rw [hvlan] at hap
      cases hap
    rw [hnumber, Pi.single_apply, own]
    rw [own] at hoff
    simp only [TailState.zeroed]
    cases hm : net.master j with
    | none =>
      have hj : j ∉ net.vlans i := fun hj => by
        rw [net.mem_vlans, hm] at hj
        cases hj
      rw [hm] at hoff
      by_cases hji : j = i
      · subst hji
        simp
      · simpa [hji, hj] using hoff
    | some a =>
      obtain ⟨htj, hta⟩ := net.type_master j a hm
      have hj : j ∈ net.vlans i ↔ a = i := by
        rw [net.mem_vlans, hm, Option.some.injEq]
      have ha : a ∉ net.vlans i := fun ha => by
        rw [(net.type_master a i ((net.mem_vlans a i).1 ha)).1] at hta
        cases hta
      have hja : j ≠ a := by
        rintro rfl
        rw [htj] at hta
        cases hta
      rw [hm] at hoff
      by_cases hji : j = i
      · subst hji
        have hcnt : s.neededCnt a = 0 := halone.master a hm
        simp [ha, hja.symm, hcnt]
      · by_cases hai : a = i
        · subst hai
          have hnum : s.number j = 0 := halone.vlans j (hj.2 rfl)
          simp [hj, hja, hnum]
        · simpa [hji, hj, hai, ha] using hoff

/-! ### Counting the keys again -/

/-- The listed keys of an interface that are stale. -/
def staleCount (net : TailNet) (env : TailEnv) (s : TailState) (i : SdataId) : ℕ :=
  (s.keyList i).countP fun k => Stale net env s k

theorem Books.foldl_enable (env : TailEnv) {c : ℤ} {l : List KeyId} (hl : l.Nodup) (hlisted : ∀ k ∈ l, s.Listed k)
    (hiface : ∀ k ∈ l, (s.keys k).home.sdata = i)
    (h : Books net s (Pi.single i (c - (l.map fun k => (s.keys k).weight).sum))) :
    Books net (l.foldl (fun s k => ((s.incrementTailroomNeedCount net i).enableHwAccel net env k).1) s)
      (Pi.single i (c + (l.countP fun k => Stale net env s k : ℕ))) := by
  induction l generalizing s c with
  | nil =>
    refine h.congr ?_
    simp
  | cons k l ih =>
    obtain ⟨hk, hl⟩ := nodup_cons.1 hl
    rw [foldl_cons, increment_eq_count]
    have hkept := kept_count net s i 1
    have hcount := h.count i 1
    have hkeys := keys_count net s i 1
    have hhome : ((s.count net i 1).keys k).home.sdata = i := by
      rw [hkeys]
      exact hiface k (mem_cons_self ..)
    have henable := hcount.enableHwAccel env (hkept.listed (hlisted k (mem_cons_self ..)))
    have hkept' := hkept.trans (kept_enableHwAccel net env (s.count net i 1) k)
    have hrest {k' : KeyId} (hk' : k' ∈ l) :
        ((s.count net i 1).enableHwAccel net env k).1.keys k' = s.keys k' := by
      have hne : k' ≠ k := by
        rintro rfl
        exact hk hk'
      rw [keys_enableHwAccel_of_ne net env _ hne, hkeys]
    have hstale (k' : KeyId) (s' : TailState) (heq : s'.keys k' = s.keys k') :
        Stale net env s' k' ↔ Stale net env s k' := by
      rw [Stale, Stale, taken, taken, flagsAfter, flagsAfter, heq]
    have hweights : (l.map fun k' => (((s.count net i 1).enableHwAccel net env k).1.keys k').weight) =
        l.map fun k' => (s.keys k').weight := map_congr_left fun k' hk' => by rw [hrest hk']
    have hcounts : l.countP (fun k' => Stale net env ((s.count net i 1).enableHwAccel net env k).1 k') =
        l.countP fun k' => Stale net env s k' := by
      refine countP_congr fun k' hk' => ?_
      simp only [decide_eq_true_eq]
      exact hstale k' _ (hrest hk')
    have hnext := ih (s := ((s.count net i 1).enableHwAccel net env k).1)
      (c := c + if Stale net env s k then 1 else 0) hl
      (fun k' hk' => hkept'.listed (hlisted k' (mem_cons_of_mem _ hk')))
      (fun k' hk' => by rw [hkept'.home]; exact hiface k' (mem_cons_of_mem _ hk'))
      (henable.congr ?_)
    · refine hnext.congr ?_
      rw [hcounts, countP_cons]
      congr 1
      by_cases hs : Stale net env s k
      · simp [hs]
        ring
      · simp [hs]
    · rw [hweights, hhome, ← Pi.single_add, ← Pi.single_add, map_cons, sum_cons, hkeys]
      congr 1
      simp only [hstale k _ (congrFun hkeys k)]
      ring

theorem Books.reenableKeys (h : Books net s 0) (env : TailEnv) (halone : Alone net s i) (hrun : net.running i = true) :
    Books net (s.reenableKeys net env i) (Pi.single i (staleCount net env s i : ℤ)) := by
  have hzero := h.zeroed halone
  rw [TailState.reenableKeys]
  rw [zeroed_eq, if_pos hrun]
  have hall := Books.foldl_enable (i := i) env (c := 0) (h.nodup i) (fun k hk => ?_) (fun k hk => ?_)
    (hzero.congr ?_)
  · refine hall.congr ?_
    rw [zero_add]
    rfl
  · show k ∈ s.keyList (s.keys k).home.sdata
    rw [h.home i k hk]
    exact hk
  · exact h.home i k hk
  · rw [number_eq_sum, zero_sub]
    rfl

/-! ### Whole runs -/

/-- No keys, and nothing counted. -/
structure Blank (s : TailState) : Prop where
  keyList : ∀ i, s.keyList i = []
  slots : ∀ p, s.slots p = none
  neededCnt : ∀ i, s.neededCnt i = 0
  pendingDec : ∀ i, s.pendingDec i = 0

theorem Blank.books (h : s.Blank) (net : TailNet) : Books net s 0 := by
  have hno {i : SdataId} {k : KeyId} (hk : k ∈ s.keyList i) : False := by
    rw [h.keyList i] at hk
    cases hk
  refine ⟨fun i => ?_, fun i k hk => (hno hk).elim, fun i k hk => (hno hk).elim,
    fun i k hk => (hno hk).elim, fun i k hk => (hno hk).elim, fun p k hk => ?_,
    fun i _ => h.pendingDec i, fun i => ?_⟩
  · rw [h.keyList i]
    exact nodup_nil
  · rw [h.slots p] at hk
    cases hk
  · rw [own, h.pendingDec, number, h.keyList]
    cases net.master i with
    | none => simp [h.neededCnt]
    | some a => simp [h.neededCnt]

end TailState

open TailState

/-- Reenabling keys forgets no count, and finds no key stale. -/
def TailEvent.Recounts (net : TailNet) (s : TailState) : TailEvent → Prop
  | .reenable env i => Alone net s i ∧ ∀ k ∈ s.keyList i, ¬ Stale net env s k
  | _ => True

instance (net : TailNet) (s : TailState) (e : TailEvent) : Decidable (e.Recounts net s) := by
  cases e
  all_goals
    unfold TailEvent.Recounts
    infer_instance

theorem TailState.Books.step {net : TailNet} {s s' : TailState} {e : TailEvent} {o : List Unit}
    (h : Books net s 0) (hc : e.Recounts net s) (hs : tailStep net s e = some (s', o)) :
    Books net s' 0 := by
  cases e with
  | link env home idx key =>
    rw [tailStep] at hs
    split at hs
    · rename_i hf
      cases hs
      exact h.keyLink hf idx key
    · cases hs
  | del env home idx =>
    rw [tailStep] at hs
    split at hs
    · rename_i hf
      cases hs
      exact h.delKey hf idx
    · cases hs
  | remove env k =>
    rw [tailStep] at hs
    split at hs
    · rename_i hk
      cases hs
      exact h.removeKey hk
    · cases hs
  | freeSta env j =>
    cases hs
    exact h.freeStaKeys j
  | freeKeys env i =>
    cases hs
    exact h.freeKeys i
  | reenable env i =>
    rw [tailStep] at hs
    split at hs
    · rename_i hrun
      cases hs
      obtain ⟨halone, hstale⟩ := hc
      have hzero : staleCount net env s i = 0 := countP_eq_zero.2 fun k hk => by
        rw [decide_eq_true_eq]
        exact hstale k hk
      refine (h.reenableKeys env halone hrun).congr ?_
      rw [hzero]
      exact Pi.single_zero i
    · cases hs
  | resumeDisconnect i =>
    rw [tailStep] at hs
    split at hs
    · cases hs
      exact h.resumeDisconnect i
    · cases hs
  | delayedDec i =>
    cases hs
    exact h.delayedTailroomDec i

/-- **The tailroom counters are right**, in every run in which reenabling keys forgets no count and
finds no key stale. -/
theorem tailroom_right (net : TailNet) {s₀ s : TailState} {os : List Unit} (h₀ : Books net s₀ 0)
    (hr : Machine.Reach (tailStep net) (fun s _ e => e.Recounts net s) s₀ s os) : Accounted net s := by
  have hbooks : Books net s 0 := by
    refine hr.invariant (fun s _ => Books net s 0) h₀ ?_
    intro s os e s' o h hc hs
    exact h.step hc hs
  exact hbooks.accounted

/-! ### A suspend -/

/-- Interfaces in station mode, all running. -/
def stationNet : TailNet where
  type := fun _ => .station
  running := fun _ => true
  vlans := fun _ => []
  master := fun _ => none
  mem_vlans := by simp
  nodup := by simp
  type_master := by simp
  running_vlan := by simp
  isAp := fun _ => true
  setKey := true
  swCryptoControl := false
  perStaGtk := true

/-- A pairwise key is linked and in the hardware, also after a suspend; it is deleted, and taken off
the counter later. -/
def suspended : List TailEvent :=
  [.link {} ⟨0, .pairwise 0⟩ 0 { key := List.replicate 16 7 }, .reenable {} 0,
    .del {} ⟨0, .pairwise 0⟩ 0]

/-- Then the counter is 1, as one decrement is pending. -/
theorem tailroom_right_suspended : ∃ s : TailState,
    Accounted stationNet s ∧ s.neededCnt 0 = 1 ∧ s.pendingDec 0 = 1 := by
  have hmeets : Machine.Meets (tailStep stationNet) (fun s _ e => e.Recounts stationNet s) {} []
      suspended := by
    decide +kernel
  have hrun : (Machine.run (tailStep stationNet) {} suspended).map (fun p =>
      (p.1.neededCnt 0, p.1.pendingDec 0)) = some (1, 1) := by
    decide +kernel
  obtain ⟨⟨s, os⟩, hrun, hs⟩ := Option.map_eq_some_iff.1 hrun
  obtain ⟨hneeded, hpending⟩ := Prod.mk.inj hs
  have hblank : TailState.Blank {} := ⟨fun _ => rfl, fun _ => rfl, fun _ => rfl, fun _ => rfl⟩
  exact ⟨s, tailroom_right stationNet (hblank.books stationNet) (.of_run .init hmeets hrun), hneeded,
    hpending⟩

/-- The driver refuses all keys. -/
def refusesAll : TailEnv := { drvSetKey := fun _ => (.error, {}) }

/-- The hardware has a key before a suspend, not after it: the key is counted, and still marked as
in the hardware. -/
theorem tailroom_stale : ∃ s : TailState, ∃ os,
    Machine.Reach (tailStep stationNet) (fun _ _ _ => True) {} s os ∧ s.keyList 0 = [0] ∧
      s.neededCnt 0 = 1 ∧ s.pendingDec 0 = 0 ∧ s.number 0 = 0 ∧ ¬ Accounted stationNet s := by
  have hrun : (Machine.run (tailStep stationNet) {}
      [.link {} ⟨0, .pairwise 0⟩ 0 { key := List.replicate 16 7 }, .reenable refusesAll 0]).map
        (fun p => (p.1.keyList 0, p.1.neededCnt 0, p.1.pendingDec 0, p.1.number 0)) =
      some ([0], 1, 0, 0) := by
    decide +kernel
  obtain ⟨⟨s, os⟩, hrun, hs⟩ := Option.map_eq_some_iff.1 hrun
  simp only [Prod.mk.injEq] at hs
  obtain ⟨hlist, hneeded, hpending, hnumber⟩ := hs
  refine ⟨s, os, .of_run_init hrun, hlist, hneeded, hpending, hnumber, fun h => ?_⟩
  have hiface := h.iface 0 (by decide)
  rw [hneeded, hpending, hnumber] at hiface
  cases hiface

end Mac80211
