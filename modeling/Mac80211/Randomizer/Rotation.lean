import Mac80211.Randomizer.Derivation

/-!
# One rotation

`generate_mac_add_ap_all` walks all stations of the device. The reset of the packet number counter
does not look at the flag for stations without a pairwise key, and writes through the null pointer.
Otherwise the table is updated for one station after the other.

## Main results

* `rotation_defined_iff` — when the loop gets to its end
-/

namespace Mac80211

open Bytes Buckets Option

/-! ### Everything but the table -/

/-- From `s` to `s'`, counters of the keys in `P` were reset and sequence numbers restarted. -/
structure Restarts (P : KeyId → Prop) (s s' : Local) : Prop where
  sta : s'.sta = s.sta
  staList : s'.staList = s.staList
  key : ∀ k, (s'.keys k).key = (s.keys k).key
  sdata : ∀ i, ∃ n, s'.sdata i = { s.sdata i with sequenceNumber := n }
  log : ∃ new, s'.log = new ++ s.log ∧ ∀ k, (∃ t, Logged.reset k t ∈ new) ↔ P k
  reset : ∀ k, P k → ∃ t, (s'.keys k).txPn = generatePn t
  kept : ∀ k, ¬ P k → (s'.keys k).txPn = (s.keys k).txPn

namespace Restarts

variable {P Q : KeyId → Prop} {s s₁ s' : Local}

theorem refl (s : Local) : Restarts (fun _ => False) s s where
  sta := rfl
  staList := rfl
  key _ := rfl
  sdata i := ⟨(s.sdata i).sequenceNumber, rfl⟩
  log := ⟨[], rfl, by simp⟩
  reset _ h := h.elim
  kept _ _ := rfl

theorem trans (h : Restarts P s s₁) (h' : Restarts Q s₁ s') : Restarts (fun k => P k ∨ Q k) s s' where
  sta := h'.sta.trans h.sta
  staList := h'.staList.trans h.staList
  key k := (h'.key k).trans (h.key k)
  sdata i := by
    obtain ⟨n, hn⟩ := h.sdata i
    obtain ⟨n', hn'⟩ := h'.sdata i
    exact ⟨n', by rw [hn', hn]⟩
  log := by
    obtain ⟨new, hlog, hnew⟩ := h.log
    obtain ⟨new', hlog', hnew'⟩ := h'.log
    refine ⟨new' ++ new, by rw [hlog', hlog, List.append_assoc], fun k => ?_⟩
    simp only [List.mem_append, exists_or, hnew, hnew']
    exact or_comm
  reset k hk := by
    by_cases hq : Q k
    · exact h'.reset k hq
    · obtain ⟨t, ht⟩ := h.reset k (hk.resolve_right hq)
      exact ⟨t, by rw [h'.kept k hq, ht]⟩
  kept k hk := by
    rw [not_or] at hk
    rw [h'.kept k hk.2, h.kept k hk.1]

theorem congr (h : Restarts P s s') (hPQ : ∀ k, P k ↔ Q k) : Restarts Q s s' := by
  obtain rfl : P = Q := funext fun k => propext (hPQ k)
  exact h

theorem ptkOf (h : Restarts P s s') (j : StaId) : s'.ptkOf j = s.ptkOf j := by
  rw [Local.ptkOf, Local.ptkOf, h.sta]

theorem defaultMulticastKey (h : Restarts P s s') (j : StaId) :
    (s'.sdataOf j).defaultMulticastKey = (s.sdataOf j).defaultMulticastKey := by
  obtain ⟨n, hn⟩ := h.sdata (s.sta j).sdata
  rw [Local.sdataOf, Local.sdataOf, h.sta, hn]

end Restarts

variable {sha1 : List UInt8 → Vector UInt8 20} {env : GenEnv} {tp : ℕ} {s s' : Local} {j : StaId}

/-- Restarting the sequence numbers of an interface, some time before the clock is read. -/
def restartSeq (s : Local) (i : SdataId) (delay : ℕ) : Local :=
  (s.updSdata i fun d => { d with sequenceNumber := 0 }).advance delay

theorem restarts_restartSeq (s : Local) (i : SdataId) (delay : ℕ) :
    Restarts (fun _ => False) s (restartSeq s i delay) where
  sta := rfl
  staList := rfl
  key _ := rfl
  sdata i' := by
    by_cases hi : i' = i
    · subst hi
      exact ⟨0, Local.updSdata_sdata_self s i' fun d => { d with sequenceNumber := 0 }⟩
    · exact ⟨(s.sdata i').sequenceNumber,
        Local.updSdata_sdata_of_ne s hi fun d => { d with sequenceNumber := 0 }⟩
  log := ⟨[], rfl, by simp⟩
  reset _ h := h.elim
  kept _ _ := rfl

theorem restarts_setTxPn (s : Local) (k : KeyId) (t : ℕ) :
    Restarts (fun k' => k' = k) s (s.setTxPn k (generatePn t)) := by
  refine ⟨rfl, rfl, fun k' => ?_, fun i => ⟨(s.sdata i).sequenceNumber, rfl⟩,
    ⟨[.reset k s.now], rfl, by simp⟩, fun k' hk => ⟨t, ?_⟩, fun k' hk => ?_⟩
  · rw [setTxPn_keys]
    split <;> rfl
  · rw [setTxPn_keys, if_pos hk.symm]
  · rw [setTxPn_keys, if_neg (Ne.symm hk)]

theorem restarts_setTxPn? (s : Local) (p : Option KeyId) (t : ℕ) :
    Restarts (fun k => p = some k) s (s.setTxPn? p (generatePn t)) := by
  cases p with
  | none => exact (Restarts.refl s).congr fun k => by simp
  | some k => exact (restarts_setTxPn s k t).congr fun k' => by simp [eq_comm]

/-- What a rotation resets for a station. -/
def KeyOf (s : Local) (j : StaId) (k : KeyId) : Prop :=
  s.ptkOf j = some k ∨ (s.sdataOf j).defaultMulticastKey = some k

variable {P : KeyId → Prop}

theorem Restarts.keyOf_iff (h : Restarts P s s') (j : StaId) (k : KeyId) :
    KeyOf s' j k ↔ KeyOf s j k := by
  rw [KeyOf, KeyOf, h.ptkOf, h.defaultMulticastKey]

theorem restarts_generateMacAddApStep {st st' : Local × List UInt8}
    (h : generateMacAddApStep sha1 env tp st j = some st') : Restarts (KeyOf st.1 j) st.1 st'.1 := by
  cases hk : st.1.ptkOf j with
  | none =>
    rw [generateMacAddApStep, hk] at h
    cases h
  | some k =>
    rw [generateMacAddApStep, hk] at h
    cases h
    have hseq := restarts_restartSeq st.1 (st.1.sta j).sdata (env.delay j)
    have hkey := hseq.trans (restarts_setTxPn _ k (st.1.now + env.delay j))
    have hall := hkey.trans (restarts_setTxPn? _
      ((restartSeq st.1 (st.1.sta j).sdata (env.delay j)).sdata (st.1.sta j).sdata).defaultMulticastKey
      (st.1.now + env.delay j))
    have hmulti := hseq.defaultMulticastKey j
    refine Restarts.congr ⟨hall.sta, hall.staList, hall.key, hall.sdata, hall.log, hall.reset,
      hall.kept⟩ fun k' => ?_
    rw [KeyOf, hk, Option.some.injEq, ← hmulti, false_or]
    exact or_congr_left eq_comm

/-- A round gets through if and only if the station has a pairwise key. -/
theorem isSome_generateMacAddApStep {st : Local × List UInt8} :
    (generateMacAddApStep sha1 env tp st j).isSome = true ↔ st.1.ptkOf j ≠ none := by
  rw [generateMacAddApStep]
  cases hk : st.1.ptkOf j <;> simp

section Loop

variable {st st' : Local × List UInt8} {js : List StaId}

theorem restarts_foldlM (h : js.foldlM (generateMacAddApStep sha1 env tp) st = some st') :
    Restarts (fun k => ∃ j ∈ js, KeyOf st.1 j k) st.1 st'.1 := by
  induction js generalizing st with
  | nil =>
    cases h
    exact (Restarts.refl _).congr fun k => by simp
  | cons j js ih =>
    rw [List.foldlM_cons] at h
    obtain ⟨st₁, hstep, hrest⟩ := bind_eq_some_iff.mp h
    have hround := restarts_generateMacAddApStep hstep
    refine (hround.trans (ih hrest)).congr fun k => ?_
    simp only [hround.keyOf_iff, List.mem_cons, exists_eq_or_imp]

theorem exists_foldlM_iff (sha1 : List UInt8 → Vector UInt8 20) (env : GenEnv) (tp : ℕ)
    (st : Local × List UInt8) (js : List StaId) :
    (∃ st', js.foldlM (generateMacAddApStep sha1 env tp) st = some st') ↔
      ∀ j ∈ js, st.1.ptkOf j ≠ none := by
  induction js generalizing st with
  | nil => simp
  | cons j js ih =>
    have hiff : (generateMacAddApStep sha1 env tp st j).isSome = true ↔ st.1.ptkOf j ≠ none :=
      isSome_generateMacAddApStep
    rw [List.forall_mem_cons, ← hiff, List.foldlM_cons]
    cases hstep : generateMacAddApStep sha1 env tp st j with
    | none => simp
    | some st₁ =>
      have hround := restarts_generateMacAddApStep hstep
      have hrest := ih st₁
      simp only [hround.ptkOf] at hrest
      simp only [isSome_some, true_and]
      exact hrest

end Loop

/-! ### The addresses -/

/-- What the buffer holds after a station. -/
def stationData (s : Local) (tp : ℕ) (data : List UInt8) (j : StaId) : List UInt8 :=
  match s.ptkOf j with
  | some k => apHashInput data (s.keys k).key (s.sta j).addr tp
  | none => data

/-- The address a station is to get: its own, without a pairwise key. -/
def newMac (sha1 : List UInt8 → Vector UInt8 20) (s : Local) (tp : ℕ) (data : List UInt8)
    (j : StaId) : Mac :=
  match s.ptkOf j with
  | some k => apMac sha1 data (s.keys k).key (s.sta j).addr tp
  | none => (s.sta j).addr

/-- The addresses of all stations. The buffer goes from one to the next. -/
def newMacs (sha1 : List UInt8 → Vector UInt8 20) (s : Local) (tp : ℕ) :
    List UInt8 → List StaId → List (StaId × Mac)
  | _, [] => []
  | data, j :: js => (j, newMac sha1 s tp data j) :: newMacs sha1 s tp (stationData s tp data j) js

theorem map_fst_newMacs (data : List UInt8) (js : List StaId) :
    (newMacs sha1 s tp data js).map Prod.fst = js := by
  induction js generalizing data with
  | nil => rfl
  | cons j js ih => rw [newMacs, List.map_cons, ih]

theorem Restarts.stationData_eq (h : Restarts P s s') (data : List UInt8)
    (j : StaId) : stationData s' tp data j = stationData s tp data j := by
  rw [stationData, stationData, h.ptkOf, h.sta]
  split
  · rw [h.key]
  · rfl

theorem Restarts.newMac_eq (h : Restarts P s s') (data : List UInt8) (j : StaId) :
    newMac sha1 s' tp data j = newMac sha1 s tp data j := by
  rw [newMac, newMac, h.ptkOf, h.sta]
  split
  · rw [h.key]
  · rfl

theorem Restarts.newMacs_eq (h : Restarts P s s') (data : List UInt8)
    (js : List StaId) : newMacs sha1 s' tp data js = newMacs sha1 s tp data js := by
  induction js generalizing data with
  | nil => rfl
  | cons j js ih => rw [newMacs, newMacs, h.newMac_eq, h.stationData_eq, ih]

/-- The update of the table for a station. -/
def updateStation (env : GenEnv) (s : Local) (t : TranslationTable) (e : StaId × Mac) :
    TranslationTable := updateEntryByBase (env.insert e.1) t (s.sta e.1).addr e.2

theorem translationTable_foldlM {st st' : Local × List UInt8} {js : List StaId}
    (h : js.foldlM (generateMacAddApStep sha1 env tp) st = some st') : st'.1.translationTable =
      (newMacs sha1 st.1 tp st.2 js).foldl (updateStation env st.1) st.1.translationTable := by
  induction js generalizing st with
  | nil =>
    cases h
    rfl
  | cons j js ih =>
    rw [List.foldlM_cons] at h
    obtain ⟨st₁, hstep, hrest⟩ := bind_eq_some_iff.mp h
    have hround := restarts_generateMacAddApStep hstep
    have hkeyed := isSome_generateMacAddApStep.mp (isSome_of_eq_some hstep)
    obtain ⟨k, hk⟩ := ne_none_iff_exists'.mp hkeyed
    obtain ⟨hdata, htable⟩ := table_generateMacAddApStep hk hstep
    have hupd : updateStation env st₁.1 = updateStation env st.1 := by
      funext t e
      rw [updateStation, updateStation, hround.sta]
    rw [ih hrest, hround.newMacs_eq, newMacs, List.foldl_cons, hupd, htable, hdata]
    simp only [stationData, newMac, hk, updateStation, apHashInput_eq]

/-! ### The whole function -/

/-- Every station of the device has a key in the slot its transmit index points to. -/
def EveryStationKeyed (s : Local) : Prop := ∀ j ∈ s.staList, s.ptkOf j ≠ none
deriving Decidable

/-- The loop gets through if and only if every station has a pairwise key. -/
theorem exists_generateMacAddApAll_iff (halloc : env.alloc = true) :
    (∃ s', generateMacAddApAll sha1 env tp s = some s') ↔ EveryStationKeyed s := by
  rw [generateMacAddApAll, if_pos halloc, EveryStationKeyed,
    ← exists_foldlM_iff sha1 env tp (s, env.junk)]
  simp only [map_eq_some_iff]
  constructor
  · rintro ⟨s', st', hst, -⟩
    exact ⟨st', hst⟩
  · rintro ⟨st', hst⟩
    exact ⟨st'.1, st', hst, rfl⟩

theorem restarts_generateMacAddApAll (halloc : env.alloc = true)
    (h : generateMacAddApAll sha1 env tp s = some s') :
    Restarts (fun k => ∃ j ∈ s.staList, KeyOf s j k) s s' := by
  rw [generateMacAddApAll, if_pos halloc] at h
  obtain ⟨st', hst, rfl⟩ := map_eq_some_iff.mp h
  exact restarts_foldlM hst

theorem translationTable_generateMacAddApAll (halloc : env.alloc = true)
    (h : generateMacAddApAll sha1 env tp s = some s') : s'.translationTable =
      (newMacs sha1 s tp env.junk s.staList).foldl (updateStation env s) s.translationTable := by
  rw [generateMacAddApAll, if_pos halloc] at h
  obtain ⟨st', hst, rfl⟩ := map_eq_some_iff.mp h
  exact translationTable_foldlM hst

/-- A rotation gets to its end, resets the counters of the keys that exist and of no others, and
maps a station without a pairwise key to its own address. -/
def RotationDefined (sha1 : List UInt8 → Vector UInt8 20) (env : GenEnv) (tp : ℕ) (s : Local) : Prop :=
  ∃ s', generateMacAddApAll sha1 env tp s = some s' ∧
    Restarts (fun k => ∃ j ∈ s.staList, KeyOf s j k) s s' ∧
    ∀ j ∈ s.staList, s.ptkOf j = none →
      lookup s'.translationTable (s.sta j).addr = some (s.sta j).addr

/-- There is nothing to reset and nothing to map. -/
def NothingToRotate (s : Local) : Prop :=
  ∀ j ∈ s.staList, s.ptkOf j = none ∧ (s.sdataOf j).defaultMulticastKey = none ∧
    lookup s.translationTable (s.sta j).addr = some (s.sta j).addr

/-- **When a rotation is defined**: with memory, exactly if every station has a pairwise key;
without memory, only if there is nothing to do. -/
theorem rotation_defined_iff (sha1 : List UInt8 → Vector UInt8 20) (env : GenEnv) (tp : ℕ)
    (s : Local) : RotationDefined sha1 env tp s ↔
      env.alloc = true ∧ EveryStationKeyed s ∨ env.alloc = false ∧ NothingToRotate s := by
  cases halloc : env.alloc with
  | true =>
    simp only [true_and, Bool.true_eq_false, false_and, or_false]
    have hiff : (∃ s', generateMacAddApAll sha1 env tp s = some s') ↔ EveryStationKeyed s :=
      exists_generateMacAddApAll_iff halloc
    rw [← hiff]
    constructor
    · rintro ⟨s', hs', -⟩
      exact ⟨s', hs'⟩
    · intro hex
      have hkeyed := (exists_generateMacAddApAll_iff halloc).mp hex
      obtain ⟨s', hs'⟩ := hex
      exact ⟨s', hs', restarts_generateMacAddApAll halloc hs',
        fun j hj hnone => absurd hnone (hkeyed j hj)⟩
  | false =>
    have hsame : generateMacAddApAll sha1 env tp s = some s := by
      rw [generateMacAddApAll, if_neg (by rw [halloc]; decide)]
    simp only [Bool.false_eq_true, false_and, true_and, false_or]
    constructor
    · rintro ⟨s', hs', hrot, hmap⟩
      rw [hsame] at hs'
      cases hs'
      obtain ⟨new, hlog, hnew⟩ := hrot.log
      obtain rfl : new = [] := by simpa using hlog
      have hno : ∀ j ∈ s.staList, ∀ k, ¬ KeyOf s j k := by
        intro j hj k hk
        obtain ⟨t, ht⟩ := (hnew k).mpr ⟨j, hj, hk⟩
        cases ht
      intro j hj
      have hptk : s.ptkOf j = none :=
        eq_none_iff_forall_ne_some.mpr fun k hk => hno j hj k (.inl hk)
      exact ⟨hptk, eq_none_iff_forall_ne_some.mpr fun k hk => hno j hj k (.inr hk),
        hmap j hj hptk⟩
    · intro hnothing
      refine ⟨s, hsame, (Restarts.refl s).congr fun k => ?_, fun j hj _ => (hnothing j hj).2.2⟩
      simp only [false_iff, not_exists, not_and]
      rintro j hj (hk | hk)
      · rw [(hnothing j hj).1] at hk
        cases hk
      · rw [(hnothing j hj).2.1] at hk
        cases hk

/-- An AP with one station that has done its handshake, and one that has not. -/
def apWithUnkeyedStation : Local where
  keys _ := { cipher := .ccmp, key := List.replicate 16 7 }
  nextKey := 1
  sdata _ := { type := .ap, addr := localMac 1 }
  interfaces := [0]
  sta
    | 0 => {
      addr := localMac 2
      sdata := 0
      staState := .authorized
      ptk := fun idx => if idx = 0 then some 0 else none
      ptkIdx := 0 }
    | _ => { addr := localMac 3, sdata := 0, staState := .assoc }
  staList := [0, 1]

/-- **A station without a pairwise key.** The rotation resets a counter through a null pointer. -/
theorem unkeyed_station_faults : ¬ ∀ (sha1 : List UInt8 → Vector UInt8 20) (env : GenEnv) (tp : ℕ)
    (s : Local), env.alloc = true → RotationDefined sha1 env tp s := by
  intro h
  have hdef := h (fun _ => Vector.replicate 20 0) {} 1 apWithUnkeyedStation rfl
  have hcond := (rotation_defined_iff _ _ _ _).mp hdef
  rcases hcond with ⟨-, hkeyed⟩ | ⟨halloc, -⟩
  · exact hkeyed 1 (by decide) rfl
  · cases halloc

end Mac80211
