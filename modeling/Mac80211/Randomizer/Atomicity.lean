import Mac80211.Randomizer.Rewrite
import Mac80211.Randomizer.Rotation

/-!
# Rotations that fail

The generators and `insert_entry` give up silently when they get no memory, and their callers write
the new period into `start_time_period` in any case. So a rotation is atomic only if all addresses
get into the table.

## Main results

* `rotation_atomic_iff`
-/

namespace Mac80211

open Bytes Buckets Option

/-! ### A loop of updates -/

section Updates

variable {env : GenEnv} {s : Local} {es : List (StaId × Mac)} {t : TranslationTable} {b r : Mac}

theorem lookup_updateStation (e : StaId × Mac) (t : TranslationTable) (b : Mac) :
    lookup (updateStation env s t e) b =
      if b = (s.sta e.1).addr ∧ (env.insert e.1 = true ∨ lookup t (s.sta e.1).addr ≠ none) then
        some e.2
      else lookup t b := lookup_updateEntryByBase_of_ok _ _ _ _ _

/-- An address that has its value keeps it, if nothing else is written. -/
theorem lookup_foldl_updateStation_of_eq (hl : lookup t b = some r)
    (huniq : ∀ e ∈ es, (s.sta e.1).addr = b → e.2 = r) :
    lookup (es.foldl (updateStation env s) t) b = some r := by
  induction es generalizing t with
  | nil => exact hl
  | cons e es ih =>
    refine ih ?_ fun e' he' => huniq e' (List.mem_cons_of_mem _ he')
    rw [lookup_updateStation]
    split
    · rename_i hb
      rw [huniq e List.mem_cons_self hb.1.symm]
    · exact hl

/-- An address that is written ends with its value, if there is room for it and nothing else is
written. -/
theorem lookup_foldl_updateStation_of_mem (hmem : ∃ e ∈ es, (s.sta e.1).addr = b)
    (huniq : ∀ e ∈ es, (s.sta e.1).addr = b → e.2 = r)
    (hroom : lookup t b ≠ none ∨ ∃ e ∈ es, (s.sta e.1).addr = b ∧ env.insert e.1 = true) :
    lookup (es.foldl (updateStation env s) t) b = some r := by
  induction es generalizing t with
  | nil => simp at hmem
  | cons e es ih =>
    have huniq' : ∀ e' ∈ es, (s.sta e'.1).addr = b → e'.2 = r :=
      fun e' he' => huniq e' (List.mem_cons_of_mem _ he')
    rw [List.foldl_cons]
    by_cases hb : b = (s.sta e.1).addr ∧ (env.insert e.1 = true ∨ lookup t (s.sta e.1).addr ≠ none)
    · refine lookup_foldl_updateStation_of_eq ?_ huniq'
      rw [lookup_updateStation, if_pos hb, huniq e List.mem_cons_self hb.1.symm]
    · have hsame : lookup (updateStation env s t e) b = lookup t b := by
        rw [lookup_updateStation, if_neg hb]
      by_cases he : (s.sta e.1).addr = b
      · -- the update found nothing, and got no memory
        have hfail : env.insert e.1 ≠ true := fun hc => hb ⟨he.symm, .inl hc⟩
        have hnone : lookup t b = none := by
          by_contra hc
          exact hb ⟨he.symm, .inr (by rw [he]; exact hc)⟩
        obtain ⟨e', he', hb', hok⟩ := hroom.resolve_left fun hc => hc hnone
        have hrest : e' ∈ es := by
          rcases List.mem_cons.mp he' with rfl | h
          · exact absurd hok hfail
          · exact h
        exact ih ⟨e', hrest, hb'⟩ huniq' (.inr ⟨e', hrest, hb', hok⟩)
      · have hrest : ∀ {P : StaId × Mac → Prop}, (∃ e' ∈ e :: es, (s.sta e'.1).addr = b ∧ P e') →
            ∃ e' ∈ es, (s.sta e'.1).addr = b ∧ P e' := by
          rintro P ⟨e', he', hb', hP⟩
          rcases List.mem_cons.mp he' with rfl | h
          · exact absurd hb' he
          · exact ⟨e', h, hb', hP⟩
        obtain ⟨e', he', hb', -⟩ := hrest (P := fun _ => True) (by simpa using hmem)
        refine ih ⟨e', he', hb'⟩ huniq' ?_
        rw [hsame]
        exact hroom.imp_right hrest

theorem lookup_foldl_updateStation_eq_none (hl : lookup t b = none)
    (hroom : ∀ e ∈ es, (s.sta e.1).addr = b → env.insert e.1 ≠ true) :
    lookup (es.foldl (updateStation env s) t) b = none := by
  induction es generalizing t with
  | nil => exact hl
  | cons e es ih =>
    refine ih ?_ fun e' he' => hroom e' (List.mem_cons_of_mem _ he')
    rw [lookup_updateStation, if_neg, hl]
    rintro ⟨hb, hins | hsome⟩
    · exact hroom e List.mem_cons_self hb.symm hins
    · rw [← hb] at hsome
      exact hsome hl

/-- **All updates of a loop are in the table afterwards** exactly if there is room for each address,
and none is written twice with different values. -/
theorem lookup_foldl_updateStation_iff :
    (∀ e ∈ es, lookup (es.foldl (updateStation env s) t) (s.sta e.1).addr = some e.2) ↔
      (∀ e ∈ es, lookup t (s.sta e.1).addr ≠ none ∨
        ∃ e' ∈ es, (s.sta e'.1).addr = (s.sta e.1).addr ∧ env.insert e'.1 = true) ∧
      ∀ e ∈ es, ∀ e' ∈ es, (s.sta e'.1).addr = (s.sta e.1).addr → e'.2 = e.2 := by
  constructor
  · intro h
    constructor
    · intro e he
      by_contra hno
      rw [not_or, not_not] at hno
      have hnone : lookup (es.foldl (updateStation env s) t) (s.sta e.1).addr = none :=
        lookup_foldl_updateStation_eq_none hno.1 fun e' he' hb hok => hno.2 ⟨e', he', hb, hok⟩
      rw [h e he] at hnone
      cases hnone
    · intro e he e' he' hb
      have hl := h e' he'
      rw [hb, h e he] at hl
      exact (some.inj hl).symm
  · rintro ⟨hroom, huniq⟩ e he
    exact lookup_foldl_updateStation_of_mem ⟨e, he, rfl⟩ (huniq e he) (hroom e he)

end Updates

/-! ### Who rotates -/

/-- A rotation: of all stations, counted by the period of an AP interface, or of the interface of a
station, counted by the period of its peer. -/
inductive Rotation
  | ap (i : SdataId)
  | sta (j : StaId)
deriving DecidableEq

/-- The two callers. -/
inductive RotationCaller
  /-- `handle_random_mac`, on a frame to a station. -/
  | tx (j : StaId)
  /-- `mac_addr_change_hdr_rx`. -/
  | rx (h : Hdr)

section

variable (sha1 : List UInt8 → Vector UInt8 20) (env : GenEnv) (ok : Bool)

/-- The call. -/
def RotationCaller.run : RotationCaller → Local → Option Local
  | .tx j, s => handleRandomMac sha1 env ok (some j) s
  | .rx h, s => (macAddrChangeHdrRx sha1 env s h).map Prod.fst

/-- The rotation the caller finds due. -/
def RotationCaller.due (s : Local) : RotationCaller → Option Rotation
  | .tx j =>
    if (s.sta j).staState = .authorized then
      match (s.sdataOf j).type with
      | .ap =>
        if searchByBaseMac s.translationTable (s.sta j).addr ≠ none ∧
            s.currentTp ≠ (s.sdataOf j).startTimePeriod then
          some (.ap (s.sta j).sdata)
        else none
      | .station =>
        if searchByBaseMac s.sTranslationTable (s.sdataOf j).addr ≠ none ∧
            s.currentTp ≠ (s.sta j).startTimePeriod then
          some (.sta j)
        else none
      | _ => none
    else none
  | .rx _ =>
    if whichInstance s = .ap then
      match getApSdata s with
      | some i => if s.currentTp ≠ (s.sdata i).startTimePeriod then some (.ap i) else none
      | none => none
    else none

/-- The new address of a station's own interface. -/
def newStaMac (s : Local) (j : StaId) : Mac :=
  match s.ptkOf j with
  | some k => staMac sha1 env.junk (s.keys k).key (s.sdataOf j).addr s.currentTp
  | none => macOfHash (sha1 (env.junk.take HASH_INPUT_LEN))

namespace Rotation

/-- The stations that have to be rotated, each with its new random address. -/
def wanted (s : Local) : Rotation → List (StaId × Mac)
  | ap _ => newMacs sha1 s s.currentTp env.junk s.staList
  | sta j => [(j, newStaMac sha1 env s j)]

/-- The random address that the table of `s'` has for a station of `s`. -/
def randomMac (s s' : Local) (j : StaId) : Rotation → Option Mac
  | ap _ => lookup s'.translationTable (s.sta j).addr
  | sta _ => lookup s'.sTranslationTable (s.sdataOf j).addr

/-- Every station that had to be rotated holds its new random address in `s'`. -/
def Done (s s' : Local) (rot : Rotation) : Prop :=
  ∀ e ∈ rot.wanted sha1 env s, rot.randomMac s s' e.1 = some e.2

end Rotation

/-- Tables, packet numbers, sequence numbers and periods are as before. -/
structure NotRotated (s s' : Local) : Prop where
  translationTable : s'.translationTable = s.translationTable
  sTranslationTable : s'.sTranslationTable = s.sTranslationTable
  txPn : ∀ k, (s'.keys k).txPn = (s.keys k).txPn
  sequenceNumber : ∀ i, (s'.sdata i).sequenceNumber = (s.sdata i).sequenceNumber
  sdataPeriod : ∀ i, (s'.sdata i).startTimePeriod = (s.sdata i).startTimePeriod
  staPeriod : ∀ j, (s'.sta j).startTimePeriod = (s.sta j).startTimePeriod

/-- A call that finds a rotation due makes it for all stations, or leaves everything, the period
included, for the next frame. -/
def RotationAtomic (c : RotationCaller) (s : Local) : Prop :=
  ∀ rot ∈ c.due s, ∃ s', c.run sha1 env ok s = some s' ∧ (rot.Done sha1 env s s' ∨ NotRotated s s')

/-- There is room for the address of every station: its entry is there, or an insertion for this
address gets memory. -/
def HasRoom (s : Local) : Prop :=
  ∀ j ∈ s.staList, lookup s.translationTable (s.sta j).addr ≠ none ∨
    ∃ j' ∈ s.staList, (s.sta j').addr = (s.sta j).addr ∧ env.insert j' = true

/-- Stations that share an address derive the same random one. -/
def OneMacEach (s : Local) (es : List (StaId × Mac)) : Prop :=
  ∀ e ∈ es, ∀ e' ∈ es, (s.sta e'.1).addr = (s.sta e.1).addr → e'.2 = e.2

/-- All allocations that are needed succeed, and no station lacks its pairwise key; or the new
addresses are in the table already. -/
def CanRotate (s : Local) (rot : Rotation) : Prop :=
  if env.alloc then
    match rot with
    | .ap _ => EveryStationKeyed s ∧ HasRoom env s ∧ OneMacEach s (rot.wanted sha1 env s)
    | .sta j => s.ptkOf j ≠ none
  else rot.Done sha1 env s s

end

/-! ### What a rotation comes to -/

section

variable {sha1 : List UInt8 → Vector UInt8 20} {env : GenEnv} {ok : Bool} {s s' : Local}

/-- What the caller runs: the generator, and the new period. -/
def Rotation.run (sha1 : List UInt8 → Vector UInt8 20) (env : GenEnv) (s : Local) :
    Rotation → Option Local
  | .ap i => (generateMacAddApAll sha1 env s.currentTp s).map fun s' =>
      s'.updSdata i fun d => { d with startTimePeriod := s.currentTp }
  | .sta j => (generateMacAddSta sha1 env s.currentTp j s).map fun s' =>
      s'.updSta j fun t => { t with startTimePeriod := s.currentTp }

/-- The period that a rotation counts by is over. -/
def Rotation.PeriodOver (s : Local) : Rotation → Prop
  | .ap i => s.currentTp ≠ (s.sdata i).startTimePeriod
  | .sta j => s.currentTp ≠ (s.sta j).startTimePeriod ∧
      lookup s.sTranslationTable (s.sdataOf j).addr ≠ none

variable {rot : Rotation}

theorem RotationCaller.run_of_due {c : RotationCaller} (h : c.due s = some rot) :
    c.run sha1 env ok s = rot.run sha1 env s ∧ rot.PeriodOver s := by
  cases c with
  | tx j =>
    rw [due] at h
    by_cases hauth : (s.sta j).staState = .authorized
    · rw [if_pos hauth] at h
      rw [RotationCaller.run, handleRandomMac, if_pos hauth]
      cases htype : (s.sdataOf j).type <;> rw [htype] at h <;> try cases h
      case ap =>
        dsimp only at h ⊢
        split at h
        · rename_i hdue
          cases h
          obtain ⟨e, he⟩ := ne_none_iff_exists'.mp hdue.1
          rw [handleRandomMacAp, he]
          exact ⟨if_pos hdue.2, hdue.2⟩
        · cases h
      case station =>
        dsimp only at h ⊢
        split at h
        · rename_i hdue
          cases h
          obtain ⟨e, he⟩ := ne_none_iff_exists'.mp hdue.1
          have he' : searchByBaseMac s.sTranslationTable (s.sdata (s.sta j).sdata).addr = some e := he
          rw [handleRandomMacSta, he']
          exact ⟨if_pos hdue.2, hdue.2, fun hc => hdue.1 (lookup_eq_none_iff.mp hc)⟩
        · cases h
    · rw [if_neg hauth] at h
      cases h
  | rx hdr =>
    rw [due] at h
    by_cases hap : whichInstance s = .ap
    · rw [if_pos hap] at h
      rw [RotationCaller.run, macAddrChangeHdrRx, hap]
      dsimp only
      rw [map_map, rxRotate]
      cases hi : getApSdata s with
      | none =>
        rw [hi] at h
        cases h
      | some i =>
        rw [hi] at h
        dsimp only at h ⊢
        split at h
        · rename_i hdue
          cases h
          rw [if_pos hdue, Rotation.run]
          refine ⟨?_, hdue⟩
          cases generateMacAddApAll sha1 env s.currentTp s <;> rfl
        · cases h
    · rw [if_neg hap] at h
      cases h

theorem not_notRotated_of_run (hover : rot.PeriodOver s)
    (h : rot.run sha1 env s = some s') : ¬ NotRotated s s' := by
  intro hno
  cases rot with
  | ap i =>
    obtain ⟨s₁, -, rfl⟩ := map_eq_some_iff.mp h
    have hsame := hno.sdataPeriod i
    rw [Local.updSdata_sdata_self] at hsame
    exact hover hsame
  | sta j =>
    obtain ⟨s₁, -, rfl⟩ := map_eq_some_iff.mp h
    have hsame := hno.staPeriod j
    rw [Local.updSta_sta_self] at hsame
    exact hover.1 hsame

theorem exists_run_ap_iff {i : SdataId} (halloc : env.alloc = true) :
    (∃ s', (Rotation.ap i).run sha1 env s = some s' ∧ (Rotation.ap i).Done sha1 env s s') ↔
      EveryStationKeyed s ∧ HasRoom env s ∧
        OneMacEach s ((Rotation.ap i).wanted sha1 env s) := by
  have hfst : (newMacs sha1 s s.currentTp env.junk s.staList).map Prod.fst = s.staList :=
    map_fst_newMacs _ _
  have hroom : HasRoom env s ↔ ∀ e ∈ (Rotation.ap i).wanted sha1 env s,
      lookup s.translationTable (s.sta e.1).addr ≠ none ∨
        ∃ e' ∈ (Rotation.ap i).wanted sha1 env s,
          (s.sta e'.1).addr = (s.sta e.1).addr ∧ env.insert e'.1 = true := by
    rw [HasRoom, ← hfst]
    simp only [List.mem_map, exists_exists_and_eq_and, forall_exists_index, and_imp,
      forall_apply_eq_imp_iff₂, Rotation.wanted]
  rw [hroom, OneMacEach, ← lookup_foldl_updateStation_iff]
  constructor
  · rintro ⟨s', hrun, hdone⟩
    obtain ⟨s₁, hgen, rfl⟩ := map_eq_some_iff.mp hrun
    refine ⟨(exists_generateMacAddApAll_iff halloc).mp ⟨s₁, hgen⟩, fun e he => ?_⟩
    have hl := hdone e he
    rw [Rotation.randomMac] at hl
    change lookup s₁.translationTable _ = _ at hl
    rw [translationTable_generateMacAddApAll halloc hgen] at hl
    exact hl
  · rintro ⟨hkeyed, hall⟩
    obtain ⟨s₁, hgen⟩ : ∃ s₁, generateMacAddApAll sha1 env s.currentTp s = some s₁ :=
      (exists_generateMacAddApAll_iff halloc).mpr hkeyed
    refine ⟨_, map_eq_some_iff.mpr ⟨s₁, hgen, rfl⟩, fun e he => ?_⟩
    change lookup s₁.translationTable _ = _
    rw [translationTable_generateMacAddApAll halloc hgen]
    exact hall e he

theorem exists_run_sta_iff {j : StaId} (halloc : env.alloc = true)
    (hentry : lookup s.sTranslationTable (s.sdataOf j).addr ≠ none) :
    (∃ s', (Rotation.sta j).run sha1 env s = some s' ∧ (Rotation.sta j).Done sha1 env s s') ↔
      s.ptkOf j ≠ none := by
  cases hk : s.ptkOf j with
  | none =>
    have hfault : generateMacAddSta sha1 env s.currentTp j s = none := by
      rw [generateMacAddSta, if_pos halloc]
      simp only [hk]
    simp [Rotation.run, hfault]
  | some k =>
    refine iff_of_true ?_ (by simp)
    obtain ⟨s₁, hgen⟩ : ∃ s₁, generateMacAddSta sha1 env s.currentTp j s = some s₁ := by
      rw [generateMacAddSta, if_pos halloc]
      simp only [hk, Option.some.injEq, exists_eq']
    refine ⟨_, map_eq_some_iff.mpr ⟨s₁, hgen, rfl⟩, fun e he => ?_⟩
    obtain rfl : e = (j, newStaMac sha1 env s j) := by simpa [Rotation.wanted] using he
    change lookup s₁.sTranslationTable _ = _
    rw [table_generateMacAddSta halloc hk hgen, lookup_sUpdateEntryByBase, if_pos rfl, newStaMac, hk]
    obtain ⟨r, hr⟩ := ne_none_iff_exists'.mp hentry
    rw [hr]
    rfl

theorem exists_run_of_not_alloc (halloc : env.alloc = false) :
    (∃ s', rot.run sha1 env s = some s' ∧ rot.Done sha1 env s s') ↔ rot.Done sha1 env s s := by
  cases rot with
  | ap i =>
    rw [Rotation.run, generateMacAddApAll, if_neg (by rw [halloc]; decide)]
    simp only [map_some, Option.some.injEq, exists_eq_left']
    exact Iff.rfl
  | sta j =>
    rw [Rotation.run, generateMacAddSta, if_neg (by rw [halloc]; decide)]
    simp only [map_some, Option.some.injEq, exists_eq_left']
    exact Iff.rfl

end

/-- **When a rotation is atomic.** -/
theorem rotation_atomic_iff (sha1 : List UInt8 → Vector UInt8 20) (env : GenEnv) (ok : Bool)
    (c : RotationCaller) (s : Local) :
    RotationAtomic sha1 env ok c s ↔ ∀ rot ∈ c.due s, CanRotate sha1 env s rot := by
  have hone : ∀ rot ∈ c.due s, ((∃ s', c.run sha1 env ok s = some s' ∧
      (rot.Done sha1 env s s' ∨ NotRotated s s')) ↔ CanRotate sha1 env s rot) := by
    intro rot hdue
    obtain ⟨hrun, hover⟩ : c.run sha1 env ok s = rot.run sha1 env s ∧ rot.PeriodOver s :=
      RotationCaller.run_of_due hdue
    have hdone : (∃ s', c.run sha1 env ok s = some s' ∧ (rot.Done sha1 env s s' ∨ NotRotated s s')) ↔
        ∃ s', rot.run sha1 env s = some s' ∧ rot.Done sha1 env s s' := by
      rw [hrun]
      refine exists_congr fun s' => and_congr_right fun hs' => ?_
      exact or_iff_left (not_notRotated_of_run hover hs')
    rw [hdone, CanRotate.eq_def]
    cases halloc : env.alloc with
    | false =>
      rw [if_neg (by decide)]
      exact exists_run_of_not_alloc halloc
    | true =>
      rw [if_pos rfl]
      cases rot with
      | ap i => exact exists_run_ap_iff halloc
      | sta j => exact exists_run_sta_iff halloc hover.2
  constructor
  · intro h rot hdue
    exact (hone rot hdue).mp (h rot hdue)
  · intro h rot hdue
    exact (hone rot hdue).mpr (h rot hdue)

/-- An AP with one station that has a key and an entry, at the beginning of period 1. -/
def apInNewPeriod : Local where
  now := RND_TP
  keys _ := { cipher := .ccmp, key := List.replicate 16 7 }
  nextKey := 1
  sdata _ := { type := .ap, addr := localMac 1 }
  interfaces := [0]
  sta _ := {
    addr := localMac 2
    sdata := 0
    staState := .authorized
    ptk := fun idx => if idx = 0 then some 0 else none
    ptkIdx := 0 }
  staList := [0]
  translationTable :=
    insertEntry true (Table.empty _ _) (localMac 2) (localMac 2)

/-- **A rotation that failed and counts as done.** There is no memory for the buffer; the station keeps
its address, and the period is over. -/
theorem failed_rotation_is_committed : ¬ ∀ (sha1 : List UInt8 → Vector UInt8 20) (env : GenEnv)
    (ok : Bool) (c : RotationCaller) (s : Local), EveryStationKeyed s →
      RotationAtomic sha1 env ok c s := by
  intro h
  have hatomic := h (fun _ => Vector.replicate 20 0) { alloc := false } true (.tx 0) apInNewPeriod
    (by decide)
  have hcan := (rotation_atomic_iff _ _ _ _ _).mp hatomic (.ap 0) (by decide +kernel)
  have hdone := hcan (0, #v[2, 0, 0, 0, 0, 0]) (by decide +kernel)
  have hold : lookup apInNewPeriod.translationTable #v[2, 0, 0, 0, 0, 2] =
      some (localMac 2) := by decide +kernel
  rw [Rotation.randomMac] at hdone
  exact absurd (hold.symm.trans hdone) (by decide)

end Mac80211
