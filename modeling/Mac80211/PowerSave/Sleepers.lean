import Mac80211.PowerSave.Accounting

/-!
# Counting stations that are asleep

`num_sta_ps` goes up in `sta_ps_start`, and down in `ieee80211_sta_ps_deliver_wakeup` and when a
station is cleaned up, without a look at the other flags that make a station count as asleep.
Between the two stands a work item.

## Main definitions

* `NumInv`, `SleepOk`

## Main results

* `num_sta_ps_of_reach`
-/

namespace Mac80211

open Machine Finset

/-- The stations that count for interface `p` and are asleep. -/
def PsLocal.sleepers (s : PsLocal) (p : SdataId) : ℕ :=
  (s.alive.filter fun i => s.psOf (s.sta i).sdata = some p ∧ (s.sta i).asleep = true).card

/-- **The number of stations that are asleep is exact.** -/
def NumInv (s : PsLocal) : Prop := ∀ p, (s.iface p).numStaPs = s.sleepers p

/-! ### One station -/

/-- One if the station is asleep. -/
def PsSta.weight (sta : PsSta) : ℤ := if sta.asleep then 1 else 0

/-- What is said about the number of stations that are asleep is true. -/
def StaDelta.Sleeps (r : StaDelta) (sta : PsSta) : Prop := r.sta.weight = sta.weight + r.num

/-- What an operation must find of the station, on an interface that counts. -/
def StaSleepOk (d : PsIface) (sta : PsSta) : StaOp → Prop
  | .doze _ => d.type = .ap ∨ d.type = .apVlan → sta.psSta = false →
      sta.psDriver = false ∧ sta.psDeliver = false
  | .blockAwake block => block = true → sta.asleep = true
  | .deliver => sta.drvDeliverWk = true → sta.psSta = false →
      sta.psDeliver = true ∧ sta.psDriver = false
  | .mpsStatus _ doBuffer => d.type = .meshPoint → sta.psSta ≠ doBuffer →
      doBuffer = true ∧ sta.psDriver = false ∧ sta.psDeliver = false
  | _ => True

section Station

variable {sta sta' : PsSta}

/-- The three flags are the same. -/
def PsSta.SameFlags (sta sta' : PsSta) : Prop :=
  sta'.psSta = sta.psSta ∧ sta'.psDriver = sta.psDriver ∧ sta'.psDeliver = sta.psDeliver

theorem PsSta.SameFlags.asleep (h : sta.SameFlags sta') : sta'.asleep = sta.asleep := by
  rw [PsSta.asleep, PsSta.asleep, h.1, h.2.1, h.2.2]

theorem PsSta.SameFlags.trans {sta'' : PsSta} (h : sta.SameFlags sta') (h' : sta'.SameFlags sta'') :
    sta.SameFlags sta'' :=
  ⟨h'.1.trans h.1, h'.2.1.trans h.2.1, h'.2.2.trans h.2.2⟩

theorem sameFlags_takeFrames (ac : Ac) (n : ℕ) (sta : PsSta) (total : ℤ) (got : ℕ) :
    sta.SameFlags (takeFrames ac n sta total got).1 := by
  induction n generalizing sta total got with
  | zero => exact ⟨rfl, rfl, rfl⟩
  | succ n ih =>
    rw [takeFrames]
    split
    · exact ih _ total (got + 1)
    · split
      · exact ih _ (total - 1) (got + 1)
      · exact ⟨rfl, rfl, rfl⟩

theorem sameFlags_staPsGetFrames (ignored : UInt8) (acs : List Ac) (n : ℕ) (sta : PsSta) (total : ℤ)
    (got : ℕ) (tids : UInt64) :
    sta.SameFlags (staPsGetFrames ignored acs n sta total got tids).1 := by
  induction acs generalizing n sta total got tids with
  | nil => exact ⟨rfl, rfl, rfl⟩
  | cons ac acs ih =>
    rw [staPsGetFrames]
    split
    · exact ih n sta total got tids
    · dsimp only
      generalize (if got = 0 then _ else tids) = tids'
      have htake : ∀ r : PsSta × ℤ × ℕ × ℕ,
          r = (if tids' = 0 then takeFrames ac n sta total got else (sta, total, got, n)) →
          sta.SameFlags r.1 := by
        rintro r rfl
        split
        · exact sameFlags_takeFrames ac n sta total got
        · exact ⟨rfl, rfl, rfl⟩
      generalize (if tids' = 0 then takeFrames ac n sta total got else (sta, total, got, n)) = r
        at htake ⊢
      split
      · exact htake r rfl
      · exact (htake r rfl).trans (ih _ _ _ _ tids')

theorem sleeps_of_sameFlags {r : StaDelta} (h : sta.SameFlags r.sta) (hnum : r.num = 0) :
    r.Sleeps sta := by
  rw [StaDelta.Sleeps, PsSta.weight, PsSta.weight, h.asleep, hnum, add_zero]

theorem sleeps_refl (sta : PsSta) : StaDelta.Sleeps { sta := sta } sta :=
  sleeps_of_sameFlags ⟨rfl, rfl, rfl⟩ rfl

theorem sleeps_staPsDeliverResponse (sta : PsSta) (n : ℕ) (ignored : UInt8) :
    (staPsDeliverResponse sta n ignored).Sleeps sta :=
  sleeps_of_sameFlags
    (sameFlags_staPsGetFrames ignored [0, 1, 2, 3] n { sta with sp := true } 0 0 0) rfl

theorem sleeps_staPsDeliverUapsd (sta : PsSta) : (staPsDeliverUapsd sta).Sleeps sta := by
  rw [staPsDeliverUapsd]
  split
  · exact sleeps_refl sta
  · exact sleeps_staPsDeliverResponse _ _ _

/-- The one place where the number goes down: the station is asleep before and not after. -/
theorem sleeps_staPsDeliverWakeup (hasleep : sta.asleep = true) (hsta : sta'.psSta = false)
    (hdriver : sta'.psDriver = false) : (staPsDeliverWakeup true sta').Sleeps sta := by
  simp [StaDelta.Sleeps, staPsDeliverWakeup, PsSta.weight, PsSta.asleep, hsta, hdriver] at hasleep ⊢
  simp [hasleep]

theorem sleeps_staBlockAwake {block : Bool} (h : block = true → sta.asleep = true) :
    (staBlockAwake sta block).Sleeps sta := by
  rw [staBlockAwake]
  split
  · rename_i hblock
    rw [StaDelta.Sleeps, PsSta.weight, PsSta.weight, if_pos (h hblock),
      if_pos (by simp [PsSta.asleep]), add_zero]
  split
  · exact sleeps_refl sta
  rename_i hdriver
  rw [Bool.not_eq_true', Bool.not_eq_false] at hdriver
  split
  · simp [StaDelta.Sleeps, PsSta.weight, PsSta.asleep, hdriver]
  rename_i hsta
  rw [Bool.not_eq_true', Bool.not_eq_false] at hsta
  split <;> simp [StaDelta.Sleeps, PsSta.weight, PsSta.asleep, hsta]

theorem sleeps_staDeliverPsFrames
    (h : sta.drvDeliverWk = true → sta.psSta = false → sta.psDeliver = true ∧ sta.psDriver = false) :
    (staDeliverPsFrames true sta).Sleeps sta := by
  rw [staDeliverPsFrames]
  split
  · rename_i hwk
    dsimp only
    split
    · rename_i hsta
      rw [Bool.not_eq_true'] at hsta
      obtain ⟨hdeliver, hdriver⟩ := h hwk hsta
      exact sleeps_staPsDeliverWakeup (by simp [PsSta.asleep, hdeliver]) hsta hdriver
    split
    · exact sleeps_staPsDeliverResponse { sta with drvDeliverWk := false, pspoll := false } _ _
    split
    · exact sleeps_staPsDeliverUapsd { sta with drvDeliverWk := false, uapsd := false }
    · exact sleeps_refl sta
  · exact sleeps_refl sta

theorem sleeps_expireBuffered (hasPs : Bool) (expired : PsSkb → Bool) (sta : PsSta) :
    (expireBuffered hasPs expired sta).Sleeps sta := by
  rw [expireBuffered]
  split
  · refine sleeps_of_sameFlags ?_ rfl
    exact List.foldlRecOn (motive := fun r : PsSta × ℤ => sta.SameFlags r.1) [0, 1, 2, 3] _
      ⟨rfl, rfl, rfl⟩ fun r hr ac _ => hr
  · exact sleeps_refl sta

theorem sleeps_mpsFrameDeliver (sta : PsSta) (n : Option ℕ) : (mpsFrameDeliver sta n).Sleeps sta := by
  rw [mpsFrameDeliver]
  generalize n.getD _ = m
  refine sleeps_of_sameFlags ?_ rfl
  refine List.foldlRecOn (motive := fun r : PsSta × ℤ × ℕ × ℕ => sta.SameFlags r.1) [0, 1, 2, 3]
    (fun r ac => takeFrames ac r.2.2.2 r.1 r.2.1 r.2.2.1) (b := (sta, 0, 0, m)) ⟨rfl, rfl, rfl⟩ ?_
  exact fun r hr ac _ => hr.trans (sameFlags_takeFrames ac r.2.2.2 r.1 r.2.1 r.2.2.1)

theorem sleeps_doze (hsta : sta.psSta = false) (hdriver : sta.psDriver = false)
    (hdeliver : sta.psDeliver = false) (h : sta'.psSta = true) (total : ℤ) :
    StaDelta.Sleeps { sta := sta', total := total, num := 1 } sta := by
  simp [StaDelta.Sleeps, PsSta.weight, PsSta.asleep, hsta, hdriver, hdeliver, h]

theorem sleeps_mpsStaStatusUpdate {estab doBuffer : Bool} (h : sta.psSta ≠ doBuffer →
    doBuffer = true ∧ sta.psDriver = false ∧ sta.psDeliver = false) :
    (mpsStaStatusUpdate sta estab doBuffer).Sleeps sta := by
  have hsame : sta.SameFlags
      (if !estab || !doBuffer then { sta with mpspOwner := false } else sta) := by
    split <;> exact ⟨rfl, rfl, rfl⟩
  simp only [mpsStaStatusUpdate]
  generalize (if (!estab || !doBuffer) = true then { sta with mpspOwner := false } else sta) = sta'
    at hsame ⊢
  split
  · exact sleeps_of_sameFlags hsame rfl
  rename_i hne
  rw [hsame.1] at hne
  obtain ⟨rfl, hdriver, hdeliver⟩ := h hne
  exact sleeps_doze (Bool.eq_false_iff.mpr hne) hdriver hdeliver rfl 0

/-- **What an operation says about the number of sleepers is true.** -/
theorem sleeps_staOp (hw : PsHw) {d : PsIface} {op : StaOp} (h : StaSleepOk d sta op) :
    (staOp hw d true sta op).Sleeps sta := by
  cases op with
  | doze txqs =>
    rw [staOp, staPsStart]
    split
    · exact sleeps_refl sta
    rename_i hsta
    split
    · rename_i htype
      rw [Bool.or_eq_true, decide_eq_true_eq, decide_eq_true_eq] at htype
      obtain ⟨hdriver, hdeliver⟩ := h htype (Bool.eq_false_iff.mpr hsta)
      exact sleeps_doze (Bool.eq_false_iff.mpr hsta) hdriver hdeliver rfl 0
    · exact sleeps_refl sta
  | wake =>
    rw [staOp, staPsEnd]
    split
    · rename_i hsta
      split
      · rename_i hdriver
        simp [StaDelta.Sleeps, PsSta.weight, PsSta.asleep, hdriver]
      · rename_i hdriver
        exact sleeps_staPsDeliverWakeup (by simp [PsSta.asleep, hsta]) rfl
          (Bool.eq_false_iff.mpr hdriver)
    · exact sleeps_refl sta
  | pspoll =>
    rw [staOp, staPspoll]
    split
    · exact sleeps_refl sta
    split
    · exact sleeps_staPsDeliverResponse sta _ _
    · exact sleeps_refl sta
  | uapsdTrigger ac =>
    rw [staOp, staUapsdTrigger]
    split
    · exact sleeps_refl sta
    split
    · exact sleeps_refl sta
    split
    · exact sleeps_staPsDeliverUapsd sta
    · exact sleeps_refl sta
  | blockAwake block => exact sleeps_staBlockAwake h
  | deliver => exact sleeps_staDeliverPsFrames h
  | expire jiffies => exact sleeps_expireBuffered true _ sta
  | filtered ac skb =>
    rw [staOp, handleFilteredFrame]
    split <;> exact sleeps_refl sta
  | setBuffered => exact sleeps_refl sta
  | eosp => exact sleeps_refl sta
  | mpsStatus estab doBuffer =>
    rw [staOp]
    split
    · rename_i htype
      exact sleeps_mpsStaStatusUpdate (h htype)
    · exact sleeps_refl sta
  | mpsDeliver owner n =>
    rw [staOp]
    split
    · exact sleeps_mpsFrameDeliver { sta with mpspOwner := owner } n
    · exact sleeps_refl sta

end Station

/-! ### The device -/

section Device

variable {s s' : PsLocal}

/-- What station `i` counts for interface `p`. -/
def PsLocal.weightFor (s : PsLocal) (p : SdataId) (i : ℕ) : ℤ :=
  if s.psOf (s.sta i).sdata = some p then (s.sta i).weight else 0

theorem sleepers_eq_sum (s : PsLocal) (p : SdataId) :
    (s.sleepers p : ℤ) = ∑ i ∈ s.alive, s.weightFor p i := by
  rw [PsLocal.sleepers, card_filter, Nat.cast_sum]
  refine sum_congr rfl fun i _ => ?_
  rw [PsLocal.weightFor, PsSta.weight]
  by_cases hp : s.psOf (s.sta i).sdata = some p
  · by_cases hasleep : (s.sta i).asleep = true
    · simp [hp, hasleep]
    · simp [hp, hasleep]
  · simp [hp]

/-- Neither the flags nor the numbers change. -/
structure PsLocal.SameSleep (s s' : PsLocal) : Prop where
  same : s.Same s'
  asleep : ∀ i, (s'.sta i).asleep = (s.sta i).asleep
  num : ∀ j, (s'.iface j).numStaPs = (s.iface j).numStaPs

theorem PsLocal.SameSleep.refl (s : PsLocal) : s.SameSleep s :=
  ⟨.refl s, fun _ => rfl, fun _ => rfl⟩

theorem PsLocal.SameSleep.trans {s₁ s₂ s₃ : PsLocal} (h : s₁.SameSleep s₂) (h' : s₂.SameSleep s₃) :
    s₁.SameSleep s₃ :=
  ⟨h.same.trans h'.same, fun i => (h'.asleep i).trans (h.asleep i),
    fun j => (h'.num j).trans (h.num j)⟩

theorem NumInv.same (h : NumInv s) (hsame : s.SameSleep s') : NumInv s' := by
  intro p
  rw [hsame.num, h p, PsLocal.sleepers, PsLocal.sleepers, hsame.same.alive]
  simp only [hsame.asleep, hsame.same.sdata, hsame.same.psOf]

theorem PsLocal.SameSleep.setIface (s : PsLocal) {p : SdataId} {d : PsIface} (total : ℤ)
    (htype : d.type = (s.iface p).type) (hbss : d.bss = (s.iface p).bss)
    (hnum : d.numStaPs = (s.iface p).numStaPs) : s.SameSleep { s with
      iface := Function.update s.iface p d
      totalPsBuffered := total } where
  same := .setIface s total htype hbss
  asleep := fun _ => rfl
  num := fun j => by
    by_cases hj : j = p
    · simp [hj, hnum]
    · simp [hj]

variable {i : ℕ}

/-- **A change to one station that tells the truth about its sleep.** -/
theorem NumInv.commit (h : NumInv s) (hi : i ∈ s.alive) {r : StaDelta}
    (hsdata : r.sta.sdata = (s.sta i).sdata)
    (hr : s.staHasPs i = true → r.Sleeps (s.sta i)) : NumInv (s.commit i r) := by
  intro p
  have hsame : s.Same (s.commit i r) := .commit hsdata
  have hself : (s.commit i r).sta i = r.sta := Function.update_self ..
  have hsum := sum_change hi (f := s.weightFor p) (g := (s.commit i r).weightFor p)
    fun j hj => by
      rw [PsLocal.weightFor, PsLocal.weightFor, hsame.psOf, hsame.sdata]
      simp [PsLocal.commit, hj]
  have hnum : ((s.commit i r).iface p).numStaPs =
      (s.iface p).numStaPs + if s.psOf (s.sta i).sdata = some p then r.num else 0 := by
    simp [PsLocal.commit, addNum_iface]
  have hweight : (s.commit i r).weightFor p i =
      s.weightFor p i + if s.psOf (s.sta i).sdata = some p then r.num else 0 := by
    rw [PsLocal.weightFor, PsLocal.weightFor, hsame.psOf, hself, hsdata]
    split
    · rename_i hp
      exact hr (by rw [PsLocal.staHasPs, hp, Option.isSome_some])
    · rfl
  have hold := h p
  rw [sleepers_eq_sum] at hold ⊢
  rw [hnum, hold, show (s.commit i r).alive = s.alive from rfl]
  rw [hweight] at hsum
  omega

theorem purgeAcs_asleep (sta : PsSta) (total : ℤ) : ∀ acs : List Ac,
    (purgeAcs acs sta total).1.asleep = sta.asleep
  | [] => rfl
  | ac :: acs => by
    rw [purgeAcs]
    split
    · exact purgeAcs_asleep sta total acs
    · rfl

theorem sameSleep_purgeIface (r : PsLocal × ℤ) (j : SdataId) :
    r.1.SameSleep (purgeIface r j).1 := by
  rw [purgeIface]
  dsimp only
  split
  · exact .setIface r.1 r.1.totalPsBuffered rfl rfl rfl
  · exact .refl r.1

theorem sameSleep_purgeSta (r : PsLocal × ℤ) (i : ℕ) : r.1.SameSleep (purgeSta r i).1 where
  same := same_purgeSta r i
  asleep := fun j => by
    by_cases hj : j = i
    · rw [hj]
      simp [purgeSta, purgeAcs_asleep]
    · simp [purgeSta, hj]
  num := fun _ => rfl

theorem sameSleep_purgeIfFull (s : PsLocal) : s.SameSleep (purgeIfFull s) := by
  rw [purgeIfFull]
  split
  · have hifaces : s.SameSleep (s.interfaces.foldl purgeIface (s, 0)).1 :=
      List.foldlRecOn (motive := fun r : PsLocal × ℤ => s.SameSleep r.1) s.interfaces _ (.refl s)
        fun r hr j _ => hr.trans (sameSleep_purgeIface r j)
    have hstas : s.SameSleep
        (s.staList.foldl purgeSta (s.interfaces.foldl purgeIface (s, 0))).1 :=
      List.foldlRecOn (motive := fun r : PsLocal × ℤ => s.SameSleep r.1) s.staList _ hifaces
        fun r hr i _ => hr.trans (sameSleep_purgeSta r i)
    exact ⟨⟨hstas.same.interfaces, hstas.same.staList, hstas.same.alive, hstas.same.type,
      hstas.same.bss, hstas.same.sdata⟩, hstas.asleep, hstas.num⟩
  · exact .refl s

/-! ### Runs -/

/-- What a step must find. -/
def SleepOk (s : PsLocal) (_ : List Empty) : PsOp → Prop
  | .sta i op =>
    s.staHasPs i = true → StaSleepOk (s.iface (s.sta i).sdata) (s.sta i) op
  | .expireSta i => (s.iface (s.sta i).sdata).type = .meshPoint → (s.sta i).psSta = false
  | _ => True

theorem NumInv.txUnicastPsBuf (h : NumInv s) (hi : i ∈ s.alive) (ac : Ac) (skb : PsSkb)
    (noPsBuffer unbufferable : Bool) :
    NumInv (txUnicastPsBuf s i ac skb noPsBuffer unbufferable) := by
  have hpurge := sameSleep_purgeIfFull s
  rw [Mac80211.txUnicastPsBuf]
  split
  · split
    · exact h
    dsimp only
    split
    · exact h.same hpurge
    · refine (h.same hpurge).commit (hpurge.same.alive ▸ hi) (counts_psBuffer _ ac skb).2 fun _ => ?_
      rw [psBuffer]
      split <;> exact sleeps_of_sameFlags ⟨rfl, rfl, rfl⟩ rfl
  · exact h

theorem sameSleep_txMulticastPsBuf (hw : PsHw) (s : PsLocal) (j : SdataId) (skb : PsSkb)
    (pass : Bool) : s.SameSleep (txMulticastPsBuf hw s j skb pass) := by
  rw [txMulticastPsBuf]
  split
  · exact .refl s
  split
  · exact .refl s
  split
  · exact .refl s
  split
  · exact .refl s
  refine (sameSleep_purgeIfFull s).trans ?_
  dsimp only
  split
  · exact .setIface _ (purgeIfFull s).totalPsBuffered rfl rfl rfl
  · exact .setIface _ _ rfl rfl rfl

theorem sameSleep_getBufferedBc (s : PsLocal) (j : SdataId) (up : Bool) (prepare : PsSkb → Bool) :
    s.SameSleep (s.getBufferedBc j up prepare) := by
  rw [PsLocal.getBufferedBc]
  split
  · exact .setIface s _ rfl rfl rfl
  · exact .refl s

theorem sameSleep_purgeBc (s : PsLocal) (j : SdataId) : s.SameSleep (purgeBc s j) := by
  rw [purgeBc]
  split
  · exact .setIface s _ rfl rfl rfl
  · exact .refl s

theorem sameSleep_vlanDown (s : PsLocal) (j : SdataId) : s.SameSleep (vlanDown s j) := by
  rw [vlanDown]
  split
  · exact .setIface s _ rfl rfl rfl
  · exact .refl s

theorem NumInv.unlinkSta (h : NumInv s) (i : ℕ) : NumInv (unlinkSta s i) := h

theorem NumInv.expireSta (h : NumInv s)
    (hok : (s.iface (s.sta i).sdata).type = .meshPoint → (s.sta i).psSta = false) :
    NumInv (expireSta s i) := by
  have hnot : ((s.iface (s.sta i).sdata).type = .meshPoint && (s.sta i).psSta) = false := by
    by_cases htype : (s.iface (s.sta i).sdata).type = .meshPoint
    · simp [hok htype]
    · simp [htype]
  rw [Mac80211.expireSta, hnot]
  exact h.unlinkSta i

theorem NumInv.erase (h : NumInv s) (hi : ∀ p, s.weightFor p i = 0) :
    NumInv { s with alive := s.alive.erase i } := by
  intro p
  have hold := h p
  rw [sleepers_eq_sum] at hold ⊢
  exact hold.trans (sum_erase s.alive (hi p)).symm

theorem NumInv.cleanupSta (h : NumInv s) (hi : i ∈ s.alive) : NumInv (cleanupSta s i) := by
  have hclean : (cleanupSingleSta (s.staHasPs i) (s.sta i)).sta.sdata = (s.sta i).sdata ∧
      (s.staHasPs i = true → (cleanupSingleSta (s.staHasPs i) (s.sta i)).Sleeps (s.sta i) ∧
        (cleanupSingleSta (s.staHasPs i) (s.sta i)).sta.weight = 0) := by
    rw [cleanupSingleSta]
    split
    · rename_i hearly
      rw [Bool.and_eq_true, Bool.not_eq_true'] at hearly
      exact ⟨rfl, fun hps => absurd hps (by simp [hearly.2])⟩
    · refine ⟨rfl, fun _ => ⟨?_, by simp [PsSta.weight, PsSta.asleep]⟩⟩
      by_cases hasleep : (s.sta i).asleep = true
      · simp only [StaDelta.Sleeps, PsSta.weight, hasleep]
        simp [PsSta.asleep]
      · simp only [StaDelta.Sleeps, PsSta.weight, hasleep]
        simp [PsSta.asleep]
  have hsame : s.Same (s.commit i (cleanupSingleSta (s.staHasPs i) (s.sta i))) := .commit hclean.1
  refine (h.commit hi hclean.1 fun hps => (hclean.2 hps).1).erase fun p => ?_
  rw [PsLocal.weightFor, hsame.psOf, hsame.sdata]
  split
  · rename_i hp
    simpa [PsLocal.commit] using (hclean.2 (by rw [PsLocal.staHasPs, hp, Option.isSome_some])).2
  · rfl

theorem NumInv.addSta (h : NumInv s) (hi : i ∉ s.alive) {sta : PsSta}
    (hawake : sta.asleep = false) : NumInv { s with
      alive := insert i s.alive
      staList := i :: s.staList
      sta := Function.update s.sta i sta } := by
  intro p
  have hold := h p
  rw [PsLocal.sleepers] at hold ⊢
  rw [hold, filter_insert]
  simp only [Function.update_self, hawake, Bool.false_eq_true, and_false, if_false]
  congr 2
  refine filter_congr fun i' hi' => ?_
  have hne : i' ≠ i := fun heq => hi (heq ▸ hi')
  simp only [Function.update_of_ne hne]
  rfl

/-- **One step.** -/
theorem NumInv.step (h : NumInv s) {hw : PsHw} {op : PsOp} {os : List Empty} (hok : SleepOk s os op)
    {o : List Empty} (hstep : psStep hw s op = some (s', o)) : NumInv s' := by
  cases op <;>
    simp only [psStep, Option.ite_none_right_eq_some, Option.some.injEq, Prod.mk.injEq] at hstep
  case sta i op =>
    obtain ⟨hi, rfl, -⟩ := hstep
    refine h.commit hi (counts_staOp hw _ _ _ op).2 fun hps => ?_
    rw [hps]
    exact sleeps_staOp hw (hok hps)
  case txUnicast i ac skb noPsBuffer unbufferable =>
    obtain ⟨hi, rfl, -⟩ := hstep
    exact h.txUnicastPsBuf hi ac skb noPsBuffer unbufferable
  case txMulticast j skb pass =>
    obtain ⟨-, rfl, -⟩ := hstep
    exact h.same (sameSleep_txMulticastPsBuf hw s j skb pass)
  case bufferedBc j up prepare =>
    obtain ⟨-, rfl, -⟩ := hstep
    exact h.same (sameSleep_getBufferedBc s j up prepare)
  case beacon j dtimCount dtimBcMc =>
    obtain ⟨rfl, -⟩ := hstep
    exact h.same (.setIface s s.totalPsBuffered rfl rfl rfl)
  case stop j =>
    obtain ⟨-, rfl, -⟩ := hstep
    exact h.same (sameSleep_purgeBc s j)
  case vlanDown j =>
    obtain ⟨-, rfl, -⟩ := hstep
    exact h.same (sameSleep_vlanDown s j)
  case addSta i j uapsdQueues maxSp listenInterval =>
    obtain ⟨⟨hi, -⟩, rfl, -⟩ := hstep
    exact h.addSta hi rfl
  case unlink i =>
    obtain ⟨-, rfl, -⟩ := hstep
    exact h.unlinkSta i
  case expireSta i =>
    obtain ⟨-, rfl, -⟩ := hstep
    exact h.expireSta hok
  case cleanup i =>
    obtain ⟨⟨hi, -⟩, rfl, -⟩ := hstep
    exact h.cleanupSta hi

/-- **`num_sta_ps` is the number of stations that are asleep**, in every run whose steps find what
they must. -/
theorem num_sta_ps_of_reach {hw : PsHw} {s₀ s : PsLocal} {os : List Empty} (hinit : s₀.Initial)
    (h : Reach (psStep hw) SleepOk s₀ s os) (p : SdataId) : (s.iface p).numStaPs = s.sleepers p ∧
      ((∀ i ∈ s.alive, s.psOf (s.sta i).sdata = some p → (s.sta i).asleep = false) →
        (s.iface p).numStaPs = 0) := by
  have hstart : NumInv s₀ := by
    intro p
    rw [hinit.numStaPs, PsLocal.sleepers, hinit.alive, filter_empty, card_empty,
      Nat.cast_zero]
  have hinv : NumInv s := by
    refine h.invariant (fun s _ => NumInv s) hstart ?_
    intro s os op s' o hinv hok hstep
    exact hinv.step hok hstep
  refine ⟨hinv p, fun hawake => ?_⟩
  rw [hinv p, PsLocal.sleepers, card_eq_zero.mpr, Nat.cast_zero]
  refine filter_eq_empty_iff.mpr fun i hi hcounted => ?_
  have hnot := hawake i hi hcounted.1
  rw [hcounted.2] at hnot
  cases hnot

end Device

/-! ### Two runs -/

instance (d : PsIface) (sta : PsSta) (op : StaOp) : Decidable (StaSleepOk d sta op) := by
  unfold StaSleepOk
  split <;> infer_instance

instance (s : PsLocal) (os : List Empty) (op : PsOp) : Decidable (SleepOk s os op) := by
  unfold SleepOk
  split <;> infer_instance

/-- A station wakes up while the driver blocks it, and leaves later. Another one falls asleep. -/
def blockedRun : List PsOp :=
  [.addSta 1 0 0 0 1, .addSta 2 0 0 0 1, .sta 1 (.doze none), .sta 1 (.blockAwake true), .sta 1 .wake,
    .sta 2 (.doze none), .sta 1 (.blockAwake false), .sta 1 .deliver, .unlink 1, .cleanup 1]

theorem num_sta_ps_blockedRun : ∃ s os, Reach (psStep {}) SleepOk oneAp s os ∧
    (s.iface 0).numStaPs = 1 ∧ s.sleepers 0 = 1 := by
  have hrun : (run (psStep {}) oneAp blockedRun).map (fun r => (r.1.iface 0).numStaPs) = some 1 := by
    decide +kernel
  obtain ⟨⟨s, os⟩, hs, hnum⟩ := Option.map_eq_some_iff.mp hrun
  have hmeets : Meets (psStep {}) SleepOk oneAp [] blockedRun := by decide +kernel
  have hreach := Reach.of_run .init hmeets hs
  have hexact := (num_sta_ps_of_reach oneAp_initial hreach 0).1
  rw [show (s.iface 0).numStaPs = 1 from hnum] at hexact
  exact ⟨s, os, hreach, hnum, by exact_mod_cast hexact.symm⟩

/-- A station that the driver blocks wakes up, and falls asleep again. Then everything is undone. -/
def dozeAgainRun : List PsOp :=
  [.addSta 1 0 0 0 1, .sta 1 (.doze none), .sta 1 (.blockAwake true), .sta 1 .wake,
    .sta 1 (.doze none), .sta 1 .wake, .sta 1 (.blockAwake false), .sta 1 .deliver]

/-- **Falling asleep again counts twice.** In the end nobody is asleep, and the number is 1. -/
theorem doze_again_counts_twice : oneAp.Initial ∧
    ∃ s os, Reach (psStep {}) (fun _ _ _ => True) oneAp s os ∧ (s.iface 0).numStaPs = 1 ∧
      s.sleepers 0 = 0 := by
  refine ⟨oneAp_initial, ?_⟩
  have hrun : (run (psStep {}) oneAp dozeAgainRun).map
      (fun r => ((r.1.iface 0).numStaPs, r.1.sleepers 0)) = some (1, 0) := by
    decide +kernel
  obtain ⟨⟨s, os⟩, hs, hcounts⟩ := Option.map_eq_some_iff.mp hrun
  obtain ⟨hnum, hsleepers⟩ := Prod.mk.inj hcounts
  exact ⟨s, os, Reach.of_run_init hs, hnum, hsleepers⟩

end Mac80211
