import Mac80211.Randomizer.Atomicity
import Mac80211.Tx.Addresses

/-!
# What a rotation gives an address

Which address an interface sends in place of another one, after `handle_random_mac` has run, can be
told from the state before.

## Main definitions

* `rotationDue` — the period is another one than that of the last rotation
* `dueMac` — the address that the rotation derives for another one

## Main results

* `outMac_handleRandomMac`
-/

namespace Mac80211

open Option

/-- `handle_random_mac` finds that the period at hand is not the one it has rotated for. -/
def rotationDue (s : Local) (j : StaId) : Bool :=
  (s.sta j).staState = .authorized &&
    match (s.sdataOf j).type with
    | .ap => (searchByBaseMac s.translationTable (s.sta j).addr).isSome &&
        s.currentTp ≠ (s.sdataOf j).startTimePeriod
    | .station => (searchByBaseMac s.sTranslationTable (s.sdataOf j).addr).isSome &&
        s.currentTp ≠ (s.sta j).startTimePeriod
    | _ => false

/-- What a list of new addresses has for `a`. It does not count if there is no entry and none can be
allocated; otherwise the last one does. -/
def renewedMac (insert : StaId → Bool) (addr : StaId → Mac) (a : Mac) :
    Bool → List (StaId × Mac) → Option Mac
  | _, [] => none
  | known, e :: es =>
    if a = addr e.1 && (insert e.1 || known) then (renewedMac insert addr a true es).or (some e.2)
    else renewedMac insert addr a known es

section

variable (sha1 : List UInt8 → Vector UInt8 20)

/-- The new address that `a` has on interface `v` after the rotation that is due for a station, if it
gets one. -/
def dueMac (env : GenEnv) (s : Local) (j : StaId) (v : SdataId) (a : Mac) : Option Mac :=
  if rotationDue s j && env.alloc then
    match (s.sdata v).type, (s.sdataOf j).type with
    | .ap, .ap => renewedMac env.insert (fun j => (s.sta j).addr) a (lookup s.translationTable a).isSome
        (newMacs sha1 s s.currentTp env.junk s.staList)
    | .station, .station =>
      if a = (s.sdataOf j).addr then
        (s.ptkOf j).map fun k => staMac sha1 env.junk (s.keys k).key a s.currentTp
      else none
    | _, _ => none
  else none

end

/-! ### No rotation -/

/-- An address that is inserted for itself is not replaced, before or after. -/
theorem txMac_insertEntry_self {n : ℕ} [NeZero n] {t : MacTable n} {base : Mac} (ok : Bool)
    (h : lookup t base = none) : txMac (insertEntry ok t base base) = txMac t := by
  funext a
  cases ok with
  | false => rfl
  | true =>
    rw [txMac_eq_lookup, txMac_eq_lookup, lookup_insertEntry base h]
    split
    · rename_i ha
      rw [ha, h]
      rfl
    · rfl

section Rotation

variable {sha1 : List UInt8 → Vector UInt8 20} {env : GenEnv} {ok : Bool} {s s' s₁ : Local} {j : StaId}
  {tp : ℕ} {a : Mac}

theorem outMac_of_not_rotationDue (hdue : rotationDue s j = false)
    (h : handleRandomMac sha1 env ok (some j) s = some s₁) (v : SdataId) :
    outMac s₁ v = outMac s v := by
  rw [handleRandomMac] at h
  split at h
  · rename_i hauth
    simp only [rotationDue, hauth, decide_true, Bool.true_and] at hdue
    split at h
    · rename_i htype
      rw [handleRandomMacAp] at h
      simp only [htype] at hdue
      split at h
      · rename_i hnone
        cases h
        have ht := @sameTables_updSdata
          { s with
            translationTable := insertEntry ok s.translationTable (s.sta j).addr (s.sta j).addr }
          (s.sta j).sdata (fun d => { d with startTimePeriod := s.currentTp })
          (fun _ => ⟨rfl, rfl, rfl⟩)
        rw [ht.outMac_eq]
        funext a
        simp only [outMac, txMac_insertEntry_self ok (lookup_eq_none_iff.mpr hnone)]
      · rename_i e he
        split at h
        · rename_i htp
          simp [he, htp, Local.sdataOf] at hdue
        · cases h
          rfl
    · rename_i htype
      rw [handleRandomMacSta] at h
      simp only [htype] at hdue
      split at h
      · rename_i hnone
        cases h
        have ht := sameTables_updSta
          { s with
            sTranslationTable := insertEntry ok s.sTranslationTable
              (s.sdata (s.sta j).sdata).addr (s.sdata (s.sta j).sdata).addr }
          j (fun t => { t with startTimePeriod := s.currentTp })
        rw [ht.outMac_eq]
        funext a
        simp only [outMac, txMac_insertEntry_self ok (lookup_eq_none_iff.mpr hnone)]
      · rename_i e he
        split at h
        · rename_i htp
          simp [he, htp, Local.sdataOf] at hdue
        · cases h
          rfl
    · cases h
      rfl
  · cases h
    rfl

/-! ### A rotation -/

theorem lookup_foldl_updateStation (es : List (StaId × Mac)) (t : TranslationTable) (a : Mac) :
    lookup (es.foldl (updateStation env s) t) a =
      (renewedMac env.insert (fun j => (s.sta j).addr) a (lookup t a).isSome es).or (lookup t a) := by
  induction es generalizing t with
  | nil => rfl
  | cons e es ih =>
    rw [List.foldl_cons, ih, lookup_updateStation, renewedMac]
    by_cases ha : a = (s.sta e.1).addr
    · subst ha
      cases hok : env.insert e.1 with
      | true => simp
      | false =>
        cases hl : lookup t (s.sta e.1).addr with
        | none => simp
        | some r => simp
    · simp [ha]

theorem sTranslationTable_foldlM {st st' : Local × List UInt8} {js : List StaId}
    (h : js.foldlM (generateMacAddApStep sha1 env tp) st = some st') :
    st'.1.sTranslationTable = st.1.sTranslationTable := by
  induction js generalizing st with
  | nil =>
    cases h
    rfl
  | cons j js ih =>
    rw [List.foldlM_cons] at h
    obtain ⟨st₁, hstep, hrest⟩ := bind_eq_some_iff.mp h
    rw [ih hrest]
    cases hk : st.1.ptkOf j with
    | none =>
      rw [generateMacAddApStep, hk] at hstep
      cases hstep
    | some k =>
      rw [generateMacAddApStep, hk] at hstep
      cases hstep
      dsimp only
      cases (((st.1.updSdata (st.1.sta j).sdata fun d => { d with sequenceNumber := 0 }).advance
        (env.delay j)).sdata (st.1.sta j).sdata).defaultMulticastKey <;> rfl

theorem sTranslationTable_generateMacAddApAll (h : generateMacAddApAll sha1 env tp s = some s') :
    s'.sTranslationTable = s.sTranslationTable := by
  rw [generateMacAddApAll] at h
  split at h
  · obtain ⟨st', hst, rfl⟩ := map_eq_some_iff.mp h
    exact sTranslationTable_foldlM hst
  · cases h
    rfl

theorem translationTable_generateMacAddSta (h : generateMacAddSta sha1 env tp j s = some s') :
    s'.translationTable = s.translationTable := by
  rw [generateMacAddSta] at h
  split at h
  · cases hk : s.ptkOf j with
    | none =>
      simp only [hk] at h
      cases h
    | some k =>
      simp only [hk] at h
      cases h
      rfl
  · cases h
    rfl

theorem outMac_handleRandomMacAp (hconf : SameConfig s s₁) (hj : (s.sdataOf j).type = .ap)
    (hdue : rotationDue s j = true) (h : handleRandomMacAp sha1 env ok j s = some s₁) (v : SdataId)
    (a : Mac) : outMac s₁ v a = (dueMac sha1 env s j v a).getD (outMac s v a) := by
  have htype : (s₁.sdata v).type = (s.sdata v).type := (congrArg SubIfData.type (hconf.sdata v) :)
  rw [dueMac, hdue, Bool.true_and, hj]
  simp only [rotationDue, hj, Bool.and_eq_true, decide_eq_true_eq] at hdue
  obtain ⟨-, hknown, htp⟩ := hdue
  obtain ⟨e, he⟩ := isSome_iff_exists.mp hknown
  rw [handleRandomMacAp, he] at h
  simp only at h
  rw [if_pos (by simpa [Local.sdataOf] using htp)] at h
  obtain ⟨s', hgen, rfl⟩ := map_eq_some_iff.mp h
  have hother : s'.sTranslationTable = s.sTranslationTable := sTranslationTable_generateMacAddApAll hgen
  cases halloc : env.alloc with
  | false =>
    rw [generateMacAddApAll, if_neg (by simp [halloc])] at hgen
    cases hgen
    have ht := @sameTables_updSdata s (s.sta j).sdata (fun d => { d with startTimePeriod := s.currentTp })
      fun _ => ⟨rfl, rfl, rfl⟩
    rw [ht.outMac_eq]
    rfl
  | true =>
    rw [outMac, outMac, htype]
    cases (s.sdata v).type with
    | ap =>
      change txMac s'.translationTable a = Option.getD (renewedMac ..) (txMac s.translationTable a)
      rw [txMac_eq_lookup, txMac_eq_lookup, translationTable_generateMacAddApAll halloc hgen,
        lookup_foldl_updateStation, getD_or]
    | station => exact congrArg (txMac · a) hother
    | _ => rfl

theorem outMac_handleRandomMacSta (hconf : SameConfig s s₁) (hj : (s.sdataOf j).type = .station)
    (hdue : rotationDue s j = true) (h : handleRandomMacSta sha1 env ok j s = some s₁) (v : SdataId)
    (a : Mac) : outMac s₁ v a = (dueMac sha1 env s j v a).getD (outMac s v a) := by
  have htype : (s₁.sdata v).type = (s.sdata v).type := (congrArg SubIfData.type (hconf.sdata v) :)
  rw [dueMac, hdue, Bool.true_and, hj]
  simp only [rotationDue, hj, Bool.and_eq_true, decide_eq_true_eq] at hdue
  obtain ⟨-, hknown, htp⟩ := hdue
  obtain ⟨e, he⟩ := isSome_iff_exists.mp hknown
  rw [handleRandomMacSta, show (s.sdata (s.sta j).sdata).addr = (s.sdataOf j).addr from rfl, he] at h
  simp only at h
  rw [if_pos htp] at h
  obtain ⟨s', hgen, rfl⟩ := map_eq_some_iff.mp h
  have hother : s'.translationTable = s.translationTable := translationTable_generateMacAddSta hgen
  cases halloc : env.alloc with
  | false =>
    rw [generateMacAddSta, if_neg (by simp [halloc])] at hgen
    cases hgen
    rw [(sameTables_updSta s j _).outMac_eq]
    rfl
  | true =>
    rw [outMac, outMac, htype]
    cases (s.sdata v).type with
    | station =>
      change txMac s'.sTranslationTable a = Option.getD (if a = (s.sdataOf j).addr then _ else none)
        (txMac s.sTranslationTable a)
      cases hk : s.ptkOf j with
      | none =>
        rw [generateMacAddSta, if_pos halloc] at hgen
        simp only [hk] at hgen
        cases hgen
      | some k =>
        rw [txMac_eq_lookup, txMac_eq_lookup, table_generateMacAddSta halloc hk hgen,
          lookup_sUpdateEntryByBase]
        by_cases ha : a = (s.sdataOf j).addr
        · rw [if_pos ha, if_pos ha, ha, lookup, he]
          rfl
        · rw [if_neg ha, if_neg ha]
          rfl
    | ap => exact congrArg (txMac · a) hother
    | _ => rfl

/-- **What is sent after `handle_random_mac`**, told from the state before. -/
theorem outMac_handleRandomMac (h : handleRandomMac sha1 env ok (some j) s = some s₁) (v : SdataId)
    (a : Mac) : outMac s₁ v a = (dueMac sha1 env s j v a).getD (outMac s v a) := by
  cases hdue : rotationDue s j with
  | false =>
    rw [outMac_of_not_rotationDue hdue h, dueMac, hdue]
    rfl
  | true =>
    have hconf : SameConfig s s₁ := (writes_handleRandomMac h).writes.sameConfig
    have hauth := of_decide_eq_true ((Bool.and_eq_true ..).mp hdue).1
    rw [handleRandomMac, if_pos hauth] at h
    cases hj : (s.sdataOf j).type with
    | ap =>
      simp only [hj] at h
      exact outMac_handleRandomMacAp hconf hj hdue h v a
    | station =>
      simp only [hj] at h
      exact outMac_handleRandomMacSta hconf hj hdue h v a
    | _ => simp [rotationDue, hj] at hdue

theorem Write.driverVif_eq (h : Write sha1 s s') (i : SdataId) : driverVif s' i = driverVif s i := by
  cases h with
  | sdata i' f hf =>
    refine (sameTables_updSdata fun d => ?_).vif i
    exact ⟨(congrArg SubIfData.type (hf d) :), (congrArg SubIfData.bss (hf d) :),
      (congrArg SubIfData.monitorActive (hf d) :)⟩
  | _ => rfl

theorem Writes.driverVif_eq (h : Writes sha1 s s') (i : SdataId) : driverVif s' i = driverVif s i := by
  induction h with
  | refl => rfl
  | tail _ hw ih => exact (hw.driverVif_eq i).trans ih

/-! ### What it does not depend on -/

/-- Two states in which rotations are due for the same stations, and derive the same. -/
structure SameDue (s s' : Local) : Prop where
  translation : s'.translationTable = s.translationTable
  sTranslation : s'.sTranslationTable = s.sTranslationTable
  now : s'.now = s.now
  keys : s'.keys = s.keys
  sta : s'.sta = s.sta
  staList : s'.staList = s.staList
  sdata : ∀ i, (s'.sdata i).type = (s.sdata i).type ∧ (s'.sdata i).addr = (s.sdata i).addr ∧
    (s'.sdata i).startTimePeriod = (s.sdata i).startTimePeriod

theorem sameDue_updSdata {i : SdataId} {f : SubIfData → SubIfData} (hf : ∀ d, (f d).type = d.type ∧
    (f d).addr = d.addr ∧ (f d).startTimePeriod = d.startTimePeriod) : SameDue s (s.updSdata i f) := by
  refine ⟨rfl, rfl, rfl, rfl, rfl, rfl, fun i' => ?_⟩
  by_cases hi : i' = i
  · rw [hi, Local.updSdata_sdata_self]
    exact hf _
  · rw [Local.updSdata_sdata_of_ne s hi]
    exact ⟨rfl, rfl, rfl⟩

theorem SameDue.rotationDue_eq (h : SameDue s s') (j : StaId) : rotationDue s' j = rotationDue s j := by
  simp only [rotationDue, Local.sdataOf, Local.currentTp, h.translation, h.sTranslation, h.now, h.sta, h.sdata]
  rfl

theorem SameDue.newMacs_eq (h : SameDue s s') (data : List UInt8) (js : List StaId) :
    newMacs sha1 s' tp data js = newMacs sha1 s tp data js := by
  induction js generalizing data with
  | nil => rfl
  | cons j js ih => simp only [newMacs, newMac, stationData, Local.ptkOf, h.sta, h.keys, ih]

theorem SameDue.dueMac_eq (h : SameDue s s') (v : SdataId) : dueMac sha1 env s' j v = dueMac sha1 env s j v := by
  funext a
  simp only [dueMac, h.rotationDue_eq, Local.sdataOf, Local.ptkOf, Local.currentTp, h.translation, h.now,
    h.sta, h.keys, h.staList, h.sdata, h.newMacs_eq]
  rfl

end Rotation

theorem driverVif_of_rotates {sha1 : List UInt8 → Vector UInt8 20} {env : TxEnv} {sta : Option StaId}
    {runs : Bool} {s s₁ : Local} (h : Rotates sha1 env sta runs s s₁) (i : SdataId) :
    driverVif s₁ i = driverVif s i := by
  rw [Rotates] at h
  split at h
  · exact (writes_handleRandomMac h).writes.driverVif_eq i
  · rw [h]

/-- An address stays what it is, if it is in the table before and no rotation that is due gives it
another one. -/
theorem outMac_of_rotates {sha1 : List UInt8 → Vector UInt8 20} {env : TxEnv} {sta : Option StaId}
    {runs : Bool} {s s₁ : Local} {v : SdataId} {a : Mac} (h : Rotates sha1 env sta runs s s₁)
    (hout : outMac s v a = a) (hdue : runs = true → ∀ j ∈ sta, dueMac sha1 env.gen s j v a = none) :
    outMac s₁ v a = a := by
  rw [Rotates] at h
  split at h
  · rename_i hruns
    cases sta with
    | none =>
      cases h
      exact hout
    | some j =>
      rw [outMac_handleRandomMac h, hdue hruns j rfl]
      exact hout
  · rw [h]
    exact hout

end Mac80211
