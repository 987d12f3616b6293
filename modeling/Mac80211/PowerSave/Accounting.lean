import Mac80211.PowerSave.Buffers
import Mac80211.Lib.Sums
import Mathlib.Tactic.FinCases

/-!
# Counting buffered frames

`total_ps_buffered` is kept by every function that touches a queue, and computed anew by
`purge_old_ps_buffers`, which stops at the first access category of a station that has frames, and
does not see stations off the list. A station that is removed while the driver blocks it may take
its frames along.

## Main definitions

* `PsInv`, `PsCond`

## Main results

* `total_of_reach`
-/

namespace Mac80211

open Machine List Function Finset

/-! ### One station -/

/-- From one station and count to the next, the count follows the queues, and the station stays on its
interface. -/
def Kept (sta : PsSta) (total : ℤ) (sta' : PsSta) (total' : ℤ) : Prop :=
  (sta'.buffered : ℤ) - total' = sta.buffered - total ∧ sta'.sdata = sta.sdata

/-- What is said about the counter is true. -/
def StaDelta.Counts (r : StaDelta) (sta : PsSta) : Prop := Kept sta 0 r.sta r.total

section Station

variable {sta : PsSta}

theorem Kept.refl (sta : PsSta) (total : ℤ) : Kept sta total sta total := ⟨rfl, rfl⟩

theorem Kept.trans {sta₁ sta₂ sta₃ : PsSta} {t₁ t₂ t₃ : ℤ} (h : Kept sta₁ t₁ sta₂ t₂)
    (h' : Kept sta₂ t₂ sta₃ t₃) : Kept sta₁ t₁ sta₃ t₃ :=
  ⟨h'.1.trans h.1, h'.2.trans h.2⟩

theorem buffered_setBuf (sta : PsSta) (ac : Ac) (q : List PsSkb) :
    (sta.setBuf ac q).buffered + (sta.psTxBuf ac).length = sta.buffered + q.length := by
  have hsum := sum_change (mem_univ ac) (f := fun ac => (sta.psTxBuf ac).length)
    (g := fun ac' => ((sta.setBuf ac q).psTxBuf ac').length) fun ac' hne => by
      simp [PsSta.setBuf, hne]
  simpa [PsSta.buffered, PsSta.setBuf] using hsum

theorem kept_setBuf {total total' : ℤ} {ac : Ac} {q : List PsSkb}
    (h : total' = total + q.length - (sta.psTxBuf ac).length) :
    Kept sta total (sta.setBuf ac q) total' := by
  refine ⟨?_, rfl⟩
  have hbuf := buffered_setBuf sta ac q
  omega

theorem counts_refl (sta : PsSta) : StaDelta.Counts { sta := sta } sta := Kept.refl sta 0

theorem counts_psBuffer (sta : PsSta) (ac : Ac) (skb : PsSkb) : (psBuffer sta ac skb).Counts sta := by
  rw [psBuffer]
  split
  · rename_i hfull
    refine kept_setBuf ?_
    rw [length_append, length_tail, length_singleton]
    simp only [STA_MAX_TX_BUFFER] at hfull
    dsimp only
    omega
  · refine kept_setBuf ?_
    rw [length_append, length_singleton]
    dsimp only
    omega

theorem counts_staPsDeliverWakeup (hasPs : Bool) (sta : PsSta) :
    (staPsDeliverWakeup hasPs sta).Counts sta := by
  rw [staPsDeliverWakeup]
  split
  · exact ⟨by simp [PsSta.buffered], rfl⟩
  · exact counts_refl sta

theorem kept_takeFrames (ac : Ac) : ∀ (n : ℕ) (sta : PsSta) (total : ℤ) (got : ℕ),
    Kept sta total (takeFrames ac n sta total got).1 (takeFrames ac n sta total got).2.1 := by
  intro n
  induction n with
  | zero => exact fun sta total _ => .refl sta total
  | succ n ih =>
    intro sta total got
    rw [takeFrames]
    split
    · exact ih _ total (got + 1)
    · split
      · rename_i skb q hq
        refine (kept_setBuf ?_).trans (ih (sta.setBuf ac q) (total - 1) (got + 1))
        rw [hq, length_cons]
        omega
      · exact .refl sta total

theorem kept_staPsGetFrames (ignored : UInt8) : ∀ (acs : List Ac) (n : ℕ) (sta : PsSta) (total : ℤ)
    (got : ℕ) (tids : UInt64), Kept sta total
      (staPsGetFrames ignored acs n sta total got tids).1
      (staPsGetFrames ignored acs n sta total got tids).2 := by
  intro acs
  induction acs with
  | nil => exact fun _ sta total _ _ => .refl sta total
  | cons ac acs ih =>
    intro n sta total got tids
    rw [staPsGetFrames]
    split
    · exact ih n sta total got tids
    · dsimp only
      generalize (if got = 0 then _ else tids) = tids'
      have htake : ∀ r : PsSta × ℤ × ℕ × ℕ,
          r = (if tids' = 0 then takeFrames ac n sta total got else (sta, total, got, n)) →
          Kept sta total r.1 r.2.1 := by
        rintro r rfl
        split
        · exact kept_takeFrames ac n sta total got
        · exact .refl sta total
      generalize (if tids' = 0 then takeFrames ac n sta total got else (sta, total, got, n)) = r
        at htake ⊢
      split
      · exact htake r rfl
      · exact (htake r rfl).trans (ih _ _ _ _ tids')

theorem counts_staPsDeliverResponse (sta : PsSta) (n : ℕ) (ignored : UInt8) :
    (staPsDeliverResponse sta n ignored).Counts sta :=
  kept_staPsGetFrames ignored [0, 1, 2, 3] n { sta with sp := true } 0 0 0

theorem counts_staPsDeliverUapsd (sta : PsSta) : (staPsDeliverUapsd sta).Counts sta := by
  rw [staPsDeliverUapsd]
  split
  · exact counts_refl sta
  · exact counts_staPsDeliverResponse _ _ _

theorem counts_staDeliverPsFrames (hasPs : Bool) (sta : PsSta) :
    (staDeliverPsFrames hasPs sta).Counts sta := by
  rw [staDeliverPsFrames]
  split
  · dsimp only
    split
    · exact counts_staPsDeliverWakeup hasPs { sta with drvDeliverWk := false }
    split
    · exact counts_staPsDeliverResponse { sta with drvDeliverWk := false, pspoll := false } _ _
    split
    · exact counts_staPsDeliverUapsd { sta with drvDeliverWk := false, uapsd := false }
    · exact counts_refl sta
  · exact counts_refl sta

theorem counts_expireBuffered (hasPs : Bool) (expired : PsSkb → Bool) (sta : PsSta) :
    (expireBuffered hasPs expired sta).Counts sta := by
  rw [expireBuffered]
  split
  · refine List.foldlRecOn (motive := fun r : PsSta × ℤ => Kept sta 0 r.1 r.2) [0, 1, 2, 3] _
      (.refl sta 0) fun r hr ac _ => hr.trans ?_
    refine @kept_setBuf (r.1.setFiltered ac _) r.2 _ ac _ ?_
    simp only [expireBufferedAc]
    omega
  · exact counts_refl sta

theorem counts_mpsFrameDeliver (sta : PsSta) (n : Option ℕ) : (mpsFrameDeliver sta n).Counts sta := by
  rw [mpsFrameDeliver]
  generalize n.getD _ = m
  refine List.foldlRecOn (motive := fun r : PsSta × ℤ × ℕ × ℕ => Kept sta 0 r.1 r.2.1) [0, 1, 2, 3]
    (fun r ac => takeFrames ac r.2.2.2 r.1 r.2.1 r.2.2.1) (b := (sta, 0, 0, m)) (.refl sta 0) ?_
  exact fun r hr ac _ => hr.trans (kept_takeFrames ac r.2.2.2 r.1 r.2.1 r.2.2.1)

theorem counts_mpsStaStatusUpdate (sta : PsSta) (estab doBuffer : Bool) :
    (mpsStaStatusUpdate sta estab doBuffer).Counts sta := by
  have hsame : Kept sta 0 (if !estab || !doBuffer then { sta with mpspOwner := false } else sta) 0 := by
    split <;> exact .refl sta 0
  simp only [mpsStaStatusUpdate]
  generalize (if (!estab || !doBuffer) = true then { sta with mpspOwner := false } else sta) = sta'
    at hsame ⊢
  split
  · exact hsame
  split
  · exact hsame
  · exact hsame.trans (counts_staPsDeliverWakeup true sta')

/-- **Every operation on a station counts.** -/
theorem counts_staOp (hw : PsHw) (d : PsIface) (hasPs : Bool) (sta : PsSta) (op : StaOp) :
    (staOp hw d hasPs sta op).Counts sta := by
  cases op with
  | doze txqs =>
    rw [staOp, staPsStart]
    split
    · exact counts_refl sta
    split <;> exact counts_refl sta
  | wake =>
    rw [staOp, staPsEnd]
    split
    · split
      · exact counts_refl sta
      · exact counts_staPsDeliverWakeup hasPs { sta with psDeliver := true, psSta := false }
    · exact counts_refl sta
  | pspoll =>
    rw [staOp, staPspoll]
    split
    · exact counts_refl sta
    split
    · exact counts_staPsDeliverResponse sta _ _
    · exact counts_refl sta
  | uapsdTrigger ac =>
    rw [staOp, staUapsdTrigger]
    split
    · exact counts_refl sta
    split
    · exact counts_refl sta
    split
    · exact counts_staPsDeliverUapsd sta
    · exact counts_refl sta
  | blockAwake block =>
    rw [staOp, staBlockAwake]
    split
    · exact counts_refl sta
    split
    · exact counts_refl sta
    split
    · exact counts_refl sta
    split <;> exact counts_refl sta
  | deliver => exact counts_staDeliverPsFrames hasPs sta
  | expire jiffies => exact counts_expireBuffered hasPs _ sta
  | filtered ac skb =>
    rw [staOp, handleFilteredFrame]
    split <;> exact counts_refl sta
  | setBuffered => exact counts_refl sta
  | eosp => exact counts_refl sta
  | mpsStatus estab doBuffer =>
    rw [staOp]
    split
    · exact counts_mpsStaStatusUpdate sta estab doBuffer
    · exact counts_refl sta
  | mpsDeliver owner n =>
    rw [staOp]
    split
    · exact counts_mpsFrameDeliver { sta with mpspOwner := owner } n
    · exact counts_refl sta

end Station

/-! ### The device -/

namespace PsLocal

variable (s : PsLocal)

/-- The group frames of an interface. -/
def bcFrames (j : SdataId) : ℤ := if (s.iface j).hasPs then (s.iface j).bcBuf.length else 0

/-- The frames in all queues. -/
def frames : ℤ := ∑ i ∈ s.alive, ((s.sta i).buffered : ℤ) + ∑ j ∈ s.interfaces.toFinset, s.bcFrames j

/-- The interfaces that are pointed to are there, and the lists have no duplicates. -/
structure Wf : Prop where
  interfaces : s.interfaces.Nodup
  staList : s.staList.Nodup
  listed : ∀ i ∈ s.staList, i ∈ s.alive
  ps : ∀ j p, s.psOf j = some p → p ∈ s.interfaces ∧ (s.iface p).hasPs = true
  own : ∀ j, (s.iface j).hasPs = true → s.psOf j = some j
  sdata : ∀ i ∈ s.alive, (s.sta i).sdata ∈ s.interfaces

/-- A device with its interfaces up, before the first station. -/
structure Initial : Prop where
  interfaces : s.interfaces.Nodup
  ps : ∀ j p, s.psOf j = some p → p ∈ s.interfaces ∧ (s.iface p).hasPs = true
  own : ∀ j, (s.iface j).hasPs = true → s.psOf j = some j
  staList : s.staList = []
  alive : s.alive = ∅
  bcBuf : ∀ j, (s.iface j).bcBuf = []
  numStaPs : ∀ j, (s.iface j).numStaPs = 0
  total : s.totalPsBuffered = 0

/-- The same interfaces and stations, whatever may be in their queues. -/
structure Same (s' : PsLocal) : Prop where
  interfaces : s'.interfaces = s.interfaces
  staList : s'.staList = s.staList
  alive : s'.alive = s.alive
  type : ∀ j, (s'.iface j).type = (s.iface j).type
  bss : ∀ j, (s'.iface j).bss = (s.iface j).bss
  sdata : ∀ i, (s'.sta i).sdata = (s.sta i).sdata

end PsLocal

/-- **The counter is exact.** -/
structure PsInv (s : PsLocal) : Prop where
  wf : s.Wf
  total : s.totalPsBuffered = s.frames

section Device

variable {s s' : PsLocal}

theorem PsLocal.Same.refl (s : PsLocal) : s.Same s :=
  ⟨rfl, rfl, rfl, fun _ => rfl, fun _ => rfl, fun _ => rfl⟩

theorem PsLocal.Same.trans {s₁ s₂ s₃ : PsLocal} (h : s₁.Same s₂) (h' : s₂.Same s₃) : s₁.Same s₃ where
  interfaces := h'.interfaces.trans h.interfaces
  staList := h'.staList.trans h.staList
  alive := h'.alive.trans h.alive
  type := fun j => (h'.type j).trans (h.type j)
  bss := fun j => (h'.bss j).trans (h.bss j)
  sdata := fun i => (h'.sdata i).trans (h.sdata i)

theorem PsLocal.Same.psOf (h : s.Same s') (j : SdataId) : s'.psOf j = s.psOf j := by
  rw [PsLocal.psOf, PsLocal.psOf, h.type, h.bss]

theorem PsLocal.Same.hasPs (h : s.Same s') (j : SdataId) : (s'.iface j).hasPs = (s.iface j).hasPs := by
  rw [PsIface.hasPs, PsIface.hasPs, h.type]

theorem PsLocal.Wf.same (hwf : s.Wf) (h : s.Same s') : s'.Wf where
  interfaces := h.interfaces ▸ hwf.interfaces
  staList := h.staList ▸ hwf.staList
  listed := by
    rw [h.staList, h.alive]
    exact hwf.listed
  ps := by
    intro j p hp
    rw [h.psOf] at hp
    rw [h.interfaces, h.hasPs]
    exact hwf.ps j p hp
  own := by
    intro j hj
    rw [h.hasPs] at hj
    rw [h.psOf]
    exact hwf.own j hj
  sdata := by
    intro i hi
    rw [h.alive] at hi
    rw [h.interfaces, h.sdata]
    exact hwf.sdata i hi

theorem PsLocal.Same.setIface (s : PsLocal) {p : SdataId} {d : PsIface} (total : ℤ)
    (htype : d.type = (s.iface p).type) (hbss : d.bss = (s.iface p).bss) : s.Same { s with
      iface := Function.update s.iface p d
      totalPsBuffered := total } where
  interfaces := rfl
  staList := rfl
  alive := rfl
  type := fun j => by
    by_cases hj : j = p
    · simp [hj, htype]
    · simp [hj]
  bss := fun j => by
    by_cases hj : j = p
    · simp [hj, hbss]
    · simp [hj]
  sdata := fun _ => rfl

theorem addNum_iface (s : PsLocal) (j : SdataId) (n : ℤ) (j' : SdataId) : s.addNum j n j' =
      { s.iface j' with
        numStaPs := (s.iface j').numStaPs + if s.psOf j = some j' then n else 0 } := by
  unfold PsLocal.addNum
  cases s.psOf j with
  | none => simp
  | some p =>
    by_cases hj : j' = p
    · simp [hj]
    · simp [hj, Ne.symm hj]

variable {i : ℕ}

theorem PsLocal.Same.commit {r : StaDelta} (h : r.sta.sdata = (s.sta i).sdata) :
    s.Same (s.commit i r) where
  interfaces := rfl
  staList := rfl
  alive := rfl
  type := fun j => by simp [PsLocal.commit, addNum_iface]
  bss := fun j => by simp [PsLocal.commit, addNum_iface]
  sdata := fun j => by
    by_cases hj : j = i
    · simp [PsLocal.commit, hj, h]
    · simp [PsLocal.commit, hj]

/-- **A change to one station that counts keeps the counter exact.** -/
theorem PsInv.commit (h : PsInv s) (hi : i ∈ s.alive) {r : StaDelta}
    (hr : r.Counts (s.sta i)) : PsInv (s.commit i r) := by
  have hne : ∀ j, j ≠ i → (s.commit i r).sta j = s.sta j := fun j hj => update_of_ne hj ..
  have hself : (s.commit i r).sta i = r.sta := update_self ..
  refine ⟨h.wf.same (.commit hr.2), ?_⟩
  have hsum := sum_change hi (f := fun j => ((s.sta j).buffered : ℤ))
    (g := fun j => (((s.commit i r).sta j).buffered : ℤ)) fun j hj => by rw [hne j hj]
  have hbc : ∀ j, (s.commit i r).bcFrames j = s.bcFrames j := by
    intro j
    simp [PsLocal.bcFrames, PsLocal.commit, addNum_iface, PsIface.hasPs]
  have htotal := h.total
  have hcount := hr.1
  rw [PsLocal.frames] at htotal ⊢
  simp only [hbc]
  simp only [hself] at hsum
  show s.totalPsBuffered + r.total =
    ∑ j ∈ s.alive, (((s.commit i r).sta j).buffered : ℤ) + ∑ j ∈ s.interfaces.toFinset, s.bcFrames j
  omega

theorem PsInv.setIface (h : PsInv s) {p : SdataId} (hp : p ∈ s.interfaces)
    (hps : (s.iface p).hasPs = true) {d : PsIface} {total : ℤ} (htype : d.type = (s.iface p).type)
    (hbss : d.bss = (s.iface p).bss)
    (htotal : total = s.totalPsBuffered + d.bcBuf.length - (s.iface p).bcBuf.length) :
    PsInv { s with
      iface := Function.update s.iface p d
      totalPsBuffered := total } := by
  have hsame := PsLocal.Same.setIface s total htype hbss
  refine ⟨h.wf.same hsame, ?_⟩
  have hsum := sum_change (mem_toFinset.mpr hp) (f := s.bcFrames)
    (g := PsLocal.bcFrames { s with
      iface := Function.update s.iface p d
      totalPsBuffered := total }) fun j hj => by
        simp [PsLocal.bcFrames, update_of_ne hj]
  have hold : s.bcFrames p = (s.iface p).bcBuf.length := if_pos hps
  have hnew : PsLocal.bcFrames { s with
      iface := Function.update s.iface p d
      totalPsBuffered := total } p = d.bcBuf.length := by
    rw [PsLocal.bcFrames, if_pos ((hsame.hasPs p).trans hps)]
    simp
  have hinv := h.total
  rw [PsLocal.frames] at hinv ⊢
  rw [hold, hnew] at hsum
  dsimp only
  omega

/-! ### Making room -/

/-- The frames of a station are all in one queue. -/
def PsSta.OneQueue (sta : PsSta) : Prop :=
  ∀ ac ac', sta.psTxBuf ac ≠ [] → sta.psTxBuf ac' ≠ [] → ac = ac'
deriving Decidable

/-- What a purge has to find: nobody has frames in two queues, and nobody off the list has any. -/
structure PurgeOk (s : PsLocal) : Prop where
  oneQueue : ∀ i ∈ s.staList, (s.sta i).OneQueue
  unlisted : ∀ i ∈ s.alive, i ∉ s.staList → (s.sta i).buffered = 0

theorem purgeAcs_spec (sta : PsSta) (total : ℤ) (hone : sta.OneQueue) : ∀ acs : List Ac,
    (∀ ac, ac ∉ acs → sta.psTxBuf ac = []) →
    (purgeAcs acs sta total).2 = total + (purgeAcs acs sta total).1.buffered
  | [], hempty => by
    have hzero : sta.buffered = 0 :=
      sum_eq_zero fun ac _ => by rw [hempty ac not_mem_nil, length_nil]
    rw [purgeAcs, hzero]
    simp
  | ac :: acs, hempty => by
    rw [purgeAcs]
    split
    · rename_i hac
      refine purgeAcs_spec sta total hone acs fun ac' hac' => ?_
      by_cases hsame : ac' = ac
      · rw [hsame, hac]
      · exact hempty ac' (by simp [hsame, hac'])
    · rename_i skb q hac
      have hothers : ∀ ac', ac' ≠ ac → sta.psTxBuf ac' = [] := by
        intro ac' hne
        by_contra hac'
        exact hne (hone ac' ac hac' (by simp [hac]))
      have hall : sta.buffered = (sta.psTxBuf ac).length :=
        sum_eq_single ac (fun ac' _ hne => by rw [hothers ac' hne, length_nil])
          fun h => absurd (mem_univ ac) h
      have hbuf := buffered_setBuf sta ac q
      dsimp only
      omega

theorem purgeAcs_sdata (sta : PsSta) (total : ℤ) : ∀ acs : List Ac,
    (purgeAcs acs sta total).1.sdata = sta.sdata
  | [] => rfl
  | ac :: acs => by
    rw [purgeAcs]
    split
    · exact purgeAcs_sdata sta total acs
    · rfl

theorem same_purgeIface (r : PsLocal × ℤ) (j : SdataId) : r.1.Same (purgeIface r j).1 := by
  rw [purgeIface]
  dsimp only
  split
  · exact .setIface r.1 r.1.totalPsBuffered rfl rfl
  · exact .refl r.1

theorem same_purgeSta (r : PsLocal × ℤ) (i : ℕ) : r.1.Same (purgeSta r i).1 where
  interfaces := rfl
  staList := rfl
  alive := rfl
  type := fun _ => rfl
  bss := fun _ => rfl
  sdata := fun j => by
    by_cases hj : j = i
    · rw [hj]
      simp [purgeSta, purgeAcs_sdata]
    · simp [purgeSta, hj]

theorem foldl_purgeIface_sta (js : List SdataId) (r : PsLocal × ℤ) :
    (js.foldl purgeIface r).1.sta = r.1.sta := by
  induction js generalizing r with
  | nil => rfl
  | cons j js ih =>
    rw [foldl_cons, ih, purgeIface]
    dsimp only
    split <;> rfl

theorem foldl_purgeSta_iface (is : List ℕ) (r : PsLocal × ℤ) :
    (is.foldl purgeSta r).1.iface = r.1.iface := by
  induction is generalizing r with
  | nil => rfl
  | cons i is ih =>
    rw [foldl_cons, ih]
    rfl

theorem foldl_purgeIface_total (js : List SdataId) (hjs : js.Nodup) (r : PsLocal × ℤ) :
    (js.foldl purgeIface r).2 = r.2 + ∑ j ∈ js.toFinset, (js.foldl purgeIface r).1.bcFrames j := by
  refine (foldl_sum (P := fun _ _ => True) ?_ (fun _ _ _ _ _ => trivial) ?_ js r hjs
    fun _ _ => trivial).1
  · intro r i j hne
    rw [purgeIface]
    dsimp only
    split
    · simp [PsLocal.bcFrames, hne]
    · rfl
  · intro r i _
    rw [purgeIface]
    dsimp only
    split
    · rename_i hps
      have hps' : PsIface.hasPs { r.1.iface i with bcBuf := (r.1.iface i).bcBuf.tail } = true := hps
      simp [PsLocal.bcFrames, hps']
    · rename_i hps
      simp [PsLocal.bcFrames, hps]

theorem foldl_purgeSta_total (is : List ℕ) (his : is.Nodup) (r : PsLocal × ℤ)
    (hone : ∀ i ∈ is, (r.1.sta i).OneQueue) : (is.foldl purgeSta r).2 =
        r.2 + ∑ i ∈ is.toFinset, (((is.foldl purgeSta r).1.sta i).buffered : ℤ) ∧
      ∀ i, i ∉ is → (((is.foldl purgeSta r).1.sta i).buffered : ℤ) = (r.1.sta i).buffered := by
  refine foldl_sum (g := fun s i => ((s.sta i).buffered : ℤ))
    (P := fun s i => (s.sta i).OneQueue) ?_ ?_ ?_ is r his hone
  · intro r i j hne
    simp [purgeSta, hne]
  · intro r i j hne h
    simpa [purgeSta, hne] using h
  · intro r i h
    have hspec := purgeAcs_spec (r.1.sta i) r.2 h [3, 2, 1, 0] fun ac hac => by
      fin_cases ac <;> simp at hac
    simpa [purgeSta] using hspec

/-- **A purge that misses nothing keeps the counter exact.** -/
theorem PsInv.purge (h : PsInv s) (hok : PurgeOk s) :
    PsInv (purgeOldPsBuffers s) ∧ s.Same (purgeOldPsBuffers s) := by
  have hsame₁ : s.Same (s.interfaces.foldl purgeIface (s, 0)).1 :=
    List.foldlRecOn (motive := fun r : PsLocal × ℤ => s.Same r.1) s.interfaces _ (.refl s)
      fun r hr j _ => hr.trans (same_purgeIface r j)
  have hsame : s.Same (s.staList.foldl purgeSta (s.interfaces.foldl purgeIface (s, 0))).1 :=
    List.foldlRecOn (motive := fun r : PsLocal × ℤ => s.Same r.1) s.staList _ hsame₁
      fun r hr i _ => hr.trans (same_purgeSta r i)
  have hsta := foldl_purgeIface_sta s.interfaces (s, 0)
  have hiface := foldl_purgeSta_iface s.staList (s.interfaces.foldl purgeIface (s, 0))
  have htotal₁ := foldl_purgeIface_total s.interfaces h.wf.interfaces (s, 0)
  obtain ⟨htotal₂, hunseen⟩ := foldl_purgeSta_total s.staList h.wf.staList
    (s.interfaces.foldl purgeIface (s, 0)) fun i hi => by
      rw [hsta]
      exact hok.oneQueue i hi
  rw [purgeOldPsBuffers]
  generalize s.interfaces.foldl purgeIface (s, 0) = r₁ at *
  generalize s.staList.foldl purgeSta r₁ = r₂ at *
  have hsame' : s.Same { r₂.1 with totalPsBuffered := r₂.2 } :=
    ⟨hsame.interfaces, hsame.staList, hsame.alive, hsame.type, hsame.bss, hsame.sdata⟩
  refine ⟨⟨h.wf.same hsame', ?_⟩, hsame'⟩
  have hbc : ∀ j, r₂.1.bcFrames j = r₁.1.bcFrames j := by
    intro j
    rw [PsLocal.bcFrames, PsLocal.bcFrames, hiface]
  -- those off the list have no frames to be missed
  have hlisted : ∑ i ∈ s.staList.toFinset, ((r₂.1.sta i).buffered : ℤ) =
      ∑ i ∈ s.alive, ((r₂.1.sta i).buffered : ℤ) := by
    refine sum_subset (fun i hi => h.wf.listed i (mem_toFinset.mp hi)) ?_
    intro i hi hnot
    have hnot : i ∉ s.staList := fun hmem => hnot (mem_toFinset.mpr hmem)
    rw [hunseen i hnot, hsta, hok.unlisted i hi hnot, Nat.cast_zero]
  show r₂.2 = ∑ i ∈ r₂.1.alive, ((r₂.1.sta i).buffered : ℤ) +
    ∑ j ∈ r₂.1.interfaces.toFinset, r₂.1.bcFrames j
  simp only [hbc, hsame.alive, hsame.interfaces]
  dsimp only at htotal₁
  omega

theorem PsInv.purgeIfFull (h : PsInv s) (hok : TOTAL_MAX_TX_BUFFER ≤ s.totalPsBuffered → PurgeOk s) :
    PsInv (purgeIfFull s) ∧ s.Same (Mac80211.purgeIfFull s) := by
  rw [Mac80211.purgeIfFull]
  split
  · rename_i hfull
    exact h.purge (hok hfull)
  · exact ⟨h, .refl s⟩

/-! ### Runs -/

/-- The step makes room first. -/
def Purges (hw : PsHw) (s : PsLocal) : PsOp → Prop
  | .txUnicast i _ _ noPsBuffer unbufferable =>
    (s.sta i).asleep = true ∧ noPsBuffer = false ∧ unbufferable = false ∧
      TOTAL_MAX_TX_BUFFER ≤ s.totalPsBuffered
  | .txMulticast j _ pass =>
    ∃ p ∈ s.psOf j, pass = false ∧ ((s.iface p).numStaPs ≠ 0 ∨ (s.iface p).bcBuf ≠ []) ∧
      hw.hostBroadcastPsBuffering = true ∧ TOTAL_MAX_TX_BUFFER ≤ s.totalPsBuffered
  | _ => False

/-- A sleeping station that is cleaned up where there is no `ps_data` has no frames. -/
def CleanupOk (s : PsLocal) : PsOp → Prop
  | .cleanup i => (s.sta i).asleep = true → s.staHasPs i = false → (s.sta i).buffered = 0
  | _ => True

/-- What a step must find. -/
def PsCond (hw : PsHw) (s : PsLocal) (_ : List Empty) (op : PsOp) : Prop :=
  (Purges hw s op → PurgeOk s) ∧ CleanupOk s op

instance (s : PsLocal) : Decidable (PurgeOk s) :=
  decidable_of_iff ((∀ i ∈ s.staList, (s.sta i).OneQueue) ∧
      ∀ i ∈ s.alive, i ∉ s.staList → (s.sta i).buffered = 0)
    ⟨fun h => ⟨h.1, h.2⟩, fun h => ⟨h.oneQueue, h.unlisted⟩⟩

instance (hw : PsHw) (s : PsLocal) (op : PsOp) : Decidable (Purges hw s op) := by
  unfold Purges
  split <;> infer_instance

instance (s : PsLocal) (op : PsOp) : Decidable (CleanupOk s op) := by
  unfold CleanupOk
  split <;> infer_instance

instance (hw : PsHw) (s : PsLocal) (os : List Empty) (op : PsOp) : Decidable (PsCond hw s os op) :=
  inferInstanceAs (Decidable ((Purges hw s op → PurgeOk s) ∧ CleanupOk s op))

variable {hw : PsHw} {skb : PsSkb}

theorem PsInv.txUnicastPsBuf (h : PsInv s) (hi : i ∈ s.alive) {ac : Ac}
    {noPsBuffer unbufferable : Bool}
    (hcond : Purges hw s (.txUnicast i ac skb noPsBuffer unbufferable) → PurgeOk s) :
    PsInv (txUnicastPsBuf s i ac skb noPsBuffer unbufferable) := by
  rw [Mac80211.txUnicastPsBuf]
  split
  · rename_i hasleep
    rw [Bool.and_eq_true, Bool.not_eq_true'] at hasleep
    split
    · exact h
    · rename_i hunbuf
      obtain ⟨hpurge, hsame⟩ := h.purgeIfFull fun hfull =>
        hcond ⟨hasleep.1, hasleep.2, Bool.eq_false_iff.mpr hunbuf, hfull⟩
      dsimp only
      split
      · exact hpurge
      · exact hpurge.commit (hsame.alive ▸ hi) (counts_psBuffer _ ac skb)
  · exact h

variable {j : SdataId}

theorem PsInv.txMulticastPsBuf (h : PsInv s) {pass : Bool}
    (hcond : Purges hw s (.txMulticast j skb pass) → PurgeOk s) :
    PsInv (txMulticastPsBuf hw s j skb pass) := by
  rw [Mac80211.txMulticastPsBuf]
  split
  · exact h
  rename_i p hp
  split
  · exact h
  rename_i hpass
  split
  · exact h
  rename_i hsome
  split
  · exact h
  rename_i hhost
  have hsome : (s.iface p).numStaPs ≠ 0 ∨ (s.iface p).bcBuf ≠ [] := by
    simpa [imp_iff_not_or] using hsome
  obtain ⟨hpurge, hsame⟩ := h.purgeIfFull fun hfull =>
    hcond ⟨p, hp, Bool.eq_false_iff.mpr hpass, hsome, by simpa using hhost, hfull⟩
  obtain ⟨hmem, hps⟩ := hpurge.wf.ps j p ((hsame.psOf j).trans hp)
  dsimp only
  split
  · rename_i hfull
    refine hpurge.setIface hmem hps rfl rfl ?_
    rw [length_append, length_tail, length_singleton]
    simp only [AP_MAX_BC_BUFFER] at hfull
    omega
  · refine hpurge.setIface hmem hps rfl rfl ?_
    rw [length_append, length_singleton]
    omega

theorem getBufferedBcLoop_total (prepare : PsSkb → Bool) (q : List PsSkb) (total : ℤ) :
    (getBufferedBcLoop prepare q total).2 =
      total + (getBufferedBcLoop prepare q total).1.length - q.length := by
  induction q generalizing total with
  | nil => simp [getBufferedBcLoop]
  | cons skb q ih =>
    rw [getBufferedBcLoop]
    split
    · rw [length_cons]
      dsimp only
      omega
    · rw [ih, length_cons]
      omega

theorem PsInv.getBufferedBc (h : PsInv s) (hj : j ∈ s.interfaces) (up : Bool)
    (prepare : PsSkb → Bool) : PsInv (s.getBufferedBc j up prepare) := by
  rw [PsLocal.getBufferedBc]
  split
  · rename_i hup
    simp only [Bool.and_eq_true] at hup
    exact h.setIface hj hup.1.1.2 rfl rfl (getBufferedBcLoop_total prepare _ _)
  · exact h

theorem PsInv.purgeBc (h : PsInv s) (hj : j ∈ s.interfaces) : PsInv (purgeBc s j) := by
  rw [Mac80211.purgeBc]
  split
  · rename_i hps
    exact h.setIface hj hps rfl rfl (by simp)
  · exact h

theorem PsInv.vlanDown (h : PsInv s) (j : SdataId) : PsInv (vlanDown s j) := by
  rw [Mac80211.vlanDown]
  split
  · rename_i p htype hbss
    obtain ⟨hmem, hps⟩ := h.wf.ps j p (by rw [PsLocal.psOf, htype, ← hbss])
    refine h.setIface hmem hps rfl rfl ?_
    dsimp only
    omega
  · exact h

theorem PsInv.unlinkSta (h : PsInv s) (i : ℕ) : PsInv (unlinkSta s i) where
  wf :=
    { h.wf with
      staList := h.wf.staList.erase i
      listed := fun i' hi' => h.wf.listed i' (mem_of_mem_erase hi') }
  total := h.total

theorem PsInv.beacon (h : PsInv s) (j : SdataId) (dtimCount : ℕ) (dtimBcMc : Bool) : PsInv { s with
      iface := Function.update s.iface j
        { s.iface j with dtimCount := dtimCount, dtimBcMc := dtimBcMc } } := by
  refine ⟨h.wf.same (.setIface s s.totalPsBuffered rfl rfl), ?_⟩
  rw [show s.totalPsBuffered = s.frames from h.total, PsLocal.frames, PsLocal.frames]
  congr 1
  refine sum_congr rfl fun j' _ => ?_
  by_cases hj : j' = j
  · simp [PsLocal.bcFrames, hj, PsIface.hasPs]
  · simp [PsLocal.bcFrames, hj]

theorem PsInv.addNum (h : PsInv s) (j : SdataId) (n : ℤ) :
    PsInv { s with iface := s.addNum j n } := by
  have hsame : s.Same { s with iface := s.addNum j n } :=
    ⟨rfl, rfl, rfl, fun j' => by simp [addNum_iface], fun j' => by simp [addNum_iface], fun _ => rfl⟩
  refine ⟨h.wf.same hsame, ?_⟩
  rw [show s.totalPsBuffered = s.frames from h.total, PsLocal.frames, PsLocal.frames]
  simp [PsLocal.bcFrames, addNum_iface, PsIface.hasPs]

theorem PsInv.expireSta (h : PsInv s) (i : ℕ) : PsInv (expireSta s i) := by
  rw [Mac80211.expireSta]
  split
  · exact (h.addNum _ _).unlinkSta i
  · exact h.unlinkSta i

theorem PsInv.erase (h : PsInv s) (hlist : i ∉ s.staList) (hbuf : (s.sta i).buffered = 0) :
    PsInv { s with alive := s.alive.erase i } where
  wf :=
    { h.wf with
      listed := fun i' hi' =>
        mem_erase.mpr ⟨fun heq => hlist (heq ▸ hi'), h.wf.listed i' hi'⟩
      sdata := fun i' hi' => h.wf.sdata i' (mem_of_mem_erase hi') }
  total := by
    have hsum : ∑ i' ∈ s.alive.erase i, ((s.sta i').buffered : ℤ) =
        ∑ i' ∈ s.alive, ((s.sta i').buffered : ℤ) :=
      sum_erase s.alive (by rw [hbuf, Nat.cast_zero])
    have htotal := h.total
    rw [PsLocal.frames] at htotal ⊢
    rw [hsum]
    exact htotal

theorem PsInv.cleanupSta (h : PsInv s) (hi : i ∈ s.alive) (hlist : i ∉ s.staList)
    (hcond : (s.sta i).asleep = true → s.staHasPs i = false → (s.sta i).buffered = 0) :
    PsInv (cleanupSta s i) := by
  have hclean : (cleanupSingleSta (s.staHasPs i) (s.sta i)).Counts (s.sta i) ∧
      (cleanupSingleSta (s.staHasPs i) (s.sta i)).sta.buffered = 0 := by
    rw [cleanupSingleSta]
    split
    · rename_i hearly
      rw [Bool.and_eq_true, Bool.not_eq_true'] at hearly
      exact ⟨counts_refl _, hcond hearly.1 hearly.2⟩
    · exact ⟨⟨by simp [PsSta.buffered], rfl⟩, by simp [PsSta.buffered]⟩
  refine (h.commit hi hclean.1).erase hlist ?_
  simpa [PsLocal.commit] using hclean.2

theorem PsInv.addSta (h : PsInv s) (hi : i ∉ s.alive) {sta : PsSta}
    (hsdata : sta.sdata ∈ s.interfaces) (hbuf : sta.buffered = 0) : PsInv { s with
      alive := insert i s.alive
      staList := i :: s.staList
      sta := Function.update s.sta i sta } where
  wf :=
    { interfaces := h.wf.interfaces
      staList := nodup_cons.mpr ⟨fun hmem => hi (h.wf.listed i hmem), h.wf.staList⟩
      listed := by
        intro i' hi'
        rcases mem_cons.mp hi' with rfl | hi'
        · exact mem_insert_self ..
        · exact mem_insert_of_mem (h.wf.listed i' hi')
      ps := h.wf.ps
      own := h.wf.own
      sdata := by
        intro i' hi'
        by_cases heq : i' = i
        · rw [heq]
          simpa using hsdata
        · simpa [heq] using h.wf.sdata i' (mem_of_mem_insert_of_ne hi' heq) }
  total := by
    have hsum : ∑ i' ∈ insert i s.alive, ((Function.update s.sta i sta i').buffered : ℤ) =
        ∑ i' ∈ s.alive, ((s.sta i').buffered : ℤ) := by
      rw [sum_insert hi, update_self, hbuf, Nat.cast_zero, zero_add]
      refine sum_congr rfl fun i' hi' => ?_
      have hne : i' ≠ i := fun heq => hi (heq ▸ hi')
      rw [update_of_ne hne]
    have htotal := h.total
    rw [PsLocal.frames] at htotal ⊢
    rw [hsum]
    exact htotal

/-- **One step.** -/
theorem PsInv.step (h : PsInv s) {op : PsOp} {os : List Empty}
    (hcond : PsCond hw s os op) {s' : PsLocal} {o : List Empty} (hstep : psStep hw s op = some (s', o)) : PsInv s' := by
  cases op <;>
    simp only [psStep, Option.ite_none_right_eq_some, Option.some.injEq, Prod.mk.injEq] at hstep
  case sta i op =>
    obtain ⟨hi, rfl, -⟩ := hstep
    exact h.commit hi (counts_staOp hw _ _ _ op)
  case txUnicast i ac skb noPsBuffer unbufferable =>
    obtain ⟨hi, rfl, -⟩ := hstep
    exact h.txUnicastPsBuf hi hcond.1
  case txMulticast j skb pass =>
    obtain ⟨-, rfl, -⟩ := hstep
    exact h.txMulticastPsBuf hcond.1
  case bufferedBc j up prepare =>
    obtain ⟨hj, rfl, -⟩ := hstep
    exact h.getBufferedBc hj up prepare
  case beacon j dtimCount dtimBcMc =>
    obtain ⟨rfl, -⟩ := hstep
    exact h.beacon j dtimCount dtimBcMc
  case stop j =>
    obtain ⟨hj, rfl, -⟩ := hstep
    exact h.purgeBc hj
  case vlanDown j =>
    obtain ⟨-, rfl, -⟩ := hstep
    exact h.vlanDown j
  case addSta i j uapsdQueues maxSp listenInterval =>
    obtain ⟨⟨hi, hj⟩, rfl, -⟩ := hstep
    exact h.addSta hi hj (by simp [newPsSta, PsSta.buffered])
  case unlink i =>
    obtain ⟨-, rfl, -⟩ := hstep
    exact h.unlinkSta i
  case expireSta i =>
    obtain ⟨-, rfl, -⟩ := hstep
    exact h.expireSta i
  case cleanup i =>
    obtain ⟨⟨hi, hlist⟩, rfl, -⟩ := hstep
    exact h.cleanupSta hi hlist hcond.2

theorem PsLocal.Initial.inv (h : s.Initial) : PsInv s where
  wf :=
    { interfaces := h.interfaces
      staList := by simp [h.staList]
      listed := by simp [h.staList]
      ps := h.ps
      own := h.own
      sdata := by simp [h.alive] }
  total := by simp [h.total, PsLocal.frames, PsLocal.bcFrames, h.alive, h.bcBuf]

/-- **In every run whose steps find what they must, `total_ps_buffered` is the number of frames in all
queues.** -/
theorem total_of_reach {hw : PsHw} {s₀ s : PsLocal} {os : List Empty} (hinit : s₀.Initial)
    (h : Reach (psStep hw) (PsCond hw) s₀ s os) : s.totalPsBuffered = s.frames := by
  refine (h.invariant (fun s _ => PsInv s) hinit.inv ?_).total
  intro s os op s' o hinv hcond hstep
  exact hinv.step hcond hstep

/-! ### Two runs -/

/-- A device with one AP. -/
def oneAp : PsLocal where
  interfaces := [0]
  iface := fun j =>
    { type := if j = 0 then .ap else .station
      bss := some 0 }

theorem oneAp_initial : oneAp.Initial where
  interfaces := nodup_singleton 0
  ps := by
    intro j p hp
    by_cases hj : j = 0
    · simp_all [oneAp, PsLocal.psOf, PsIface.hasPs]
    · simp [oneAp, PsLocal.psOf, hj] at hp
  own := by
    intro j hps
    by_cases hj : j = 0
    · simp [oneAp, PsLocal.psOf, hj]
    · simp [oneAp, PsIface.hasPs, hj] at hps
  staList := rfl
  alive := rfl
  bcBuf := fun _ => rfl
  numStaPs := fun _ => rfl
  total := rfl

/-- A station falls asleep, and a frame is buffered for it and one for everyone. Another one leaves. -/
def sleepRun : List PsOp :=
  [.addSta 1 0 0 0 1, .addSta 2 0 0 0 1, .sta 1 (.doze none), .txUnicast 1 2 {} false false,
    .txMulticast 0 {} false, .unlink 2, .cleanup 2]

theorem total_sleepRun : ∃ s os, Reach (psStep {}) (PsCond {}) oneAp s os ∧
    s.totalPsBuffered = 2 ∧ s.frames = 2 := by
  have hrun : (run (psStep {}) oneAp sleepRun).map (fun r => r.1.totalPsBuffered) = some 2 := by
    decide +kernel
  obtain ⟨⟨s, os⟩, hs, htotal⟩ := Option.map_eq_some_iff.mp hrun
  have hmeets : Meets (psStep {}) (PsCond {}) oneAp [] sleepRun := by
    decide +kernel
  have hreach := Reach.of_run .init hmeets hs
  exact ⟨s, os, hreach, htotal, (total_of_reach oneAp_initial hreach).symm.trans htotal⟩

/-! ### A purge that misses frames -/

theorem addNum_zero (s : PsLocal) (j : SdataId) : s.addNum j 0 = s.iface := by
  funext j'
  simp [addNum_iface]

/-- The state with `n` more frames for a station. -/
def PsLocal.fill (s : PsLocal) (i : ℕ) (ac : Ac) (skb : PsSkb) (n : ℕ) : PsLocal :=
  { s with
    sta := Function.update s.sta i
      ((s.sta i).setBuf ac ((s.sta i).psTxBuf ac ++ List.replicate n skb))
    totalPsBuffered := s.totalPsBuffered + n }

theorem fill_fill (s : PsLocal) (i : ℕ) (ac : Ac) (skb : PsSkb) (m n : ℕ) :
    (s.fill i ac skb m).fill i ac skb n = s.fill i ac skb (m + n) := by
  simp only [PsLocal.fill, PsSta.setBuf, update_self, update_idem,
    append_assoc, replicate_append_replicate]
  push_cast
  rw [add_assoc]

theorem run_fill {ac : Ac} (n : ℕ) : ∀ {s : PsLocal}, i ∈ s.alive →
    (s.sta i).asleep = true → ((s.sta i).psTxBuf ac).length + n ≤ STA_MAX_TX_BUFFER →
    s.totalPsBuffered + n ≤ TOTAL_MAX_TX_BUFFER →
    run (psStep hw) s (List.replicate n (.txUnicast i ac skb false false)) =
      some (s.fill i ac skb n, []) := by
  induction n with
  | zero =>
    intro s _ _ _ _
    simp [run, PsLocal.fill, PsSta.setBuf]
  | succ n ih =>
    intro s hi hasleep hlen htotal
    have hstep : psStep hw s (.txUnicast i ac skb false false) = some (s.fill i ac skb 1, []) := by
      have hroom : ¬TOTAL_MAX_TX_BUFFER ≤ s.totalPsBuffered := by omega
      have hqueue : ¬STA_MAX_TX_BUFFER ≤ ((s.sta i).psTxBuf ac).length := by omega
      simp [psStep, hi, txUnicastPsBuf, hasleep, purgeIfFull, hroom, psBuffer, hqueue,
        PsLocal.commit, addNum_zero, PsLocal.fill]
    have hself : (s.fill i ac skb 1).sta i =
        (s.sta i).setBuf ac ((s.sta i).psTxBuf ac ++ List.replicate 1 skb) := update_self ..
    have hrest : run (psStep hw) (s.fill i ac skb 1)
        (List.replicate n (.txUnicast i ac skb false false)) =
          some ((s.fill i ac skb 1).fill i ac skb n, []) := by
      refine ih hi (by rw [hself]; exact hasleep) ?_ ?_
      · rw [hself]
        simp only [PsSta.setBuf, update_self, length_append, length_replicate]
        omega
      · show s.totalPsBuffered + (1 : ℕ) + n ≤ _
        omega
    rw [replicate_succ, run, hstep]
    dsimp only
    rw [hrest, fill_fill, Nat.add_comm]
    rfl

/-- Some queues of a station filled up. -/
def PsLocal.fillAcs (s : PsLocal) (i : ℕ) (acs : List Ac) : PsLocal :=
  acs.foldl (fun s ac => s.fill i ac {} STA_MAX_TX_BUFFER) s

theorem reach_fillAcs {s₀ : PsLocal} : ∀ (acs : List Ac) {s : PsLocal},
    acs.Nodup → i ∈ s.alive → (s.sta i).asleep = true → (∀ ac ∈ acs, (s.sta i).psTxBuf ac = []) →
    s.totalPsBuffered + acs.length * STA_MAX_TX_BUFFER ≤ TOTAL_MAX_TX_BUFFER →
    Reach (psStep hw) (fun _ _ _ => True) s₀ s [] →
    Reach (psStep hw) (fun _ _ _ => True) s₀ (s.fillAcs i acs) [] := by
  intro acs
  induction acs with
  | nil => exact fun _ _ _ _ _ h => h
  | cons ac acs ih =>
    intro s hnodup hi hasleep hempty htotal h
    obtain ⟨hac, hnodup⟩ := nodup_cons.mp hnodup
    have hself : (s.fill i ac {} STA_MAX_TX_BUFFER).sta i = (s.sta i).setBuf ac
        ((s.sta i).psTxBuf ac ++ List.replicate STA_MAX_TX_BUFFER ({} : PsSkb)) :=
      update_self ..
    simp only [length_cons, STA_MAX_TX_BUFFER, TOTAL_MAX_TX_BUFFER] at htotal
    have hrun : run (psStep hw) s
        (List.replicate STA_MAX_TX_BUFFER (.txUnicast i ac {} false false)) =
          some (s.fill i ac {} STA_MAX_TX_BUFFER, []) := by
      refine run_fill STA_MAX_TX_BUFFER hi hasleep ?_ ?_
      · rw [hempty ac mem_cons_self, length_nil, Nat.zero_add]
      · simp only [STA_MAX_TX_BUFFER, TOTAL_MAX_TX_BUFFER]
        omega
    refine ih hnodup hi (by rw [hself]; exact hasleep) ?_ ?_
      (Reach.of_run h (meets_of_forall _ _ _ fun _ _ _ _ => trivial) hrun)
    · intro ac' hac'
      have hne : ac' ≠ ac := fun heq => hac (heq ▸ hac')
      rw [hself, PsSta.setBuf]
      simpa [hne] using hempty ac' (mem_cons_of_mem ac hac')
    · simp only [PsLocal.fill, STA_MAX_TX_BUFFER, TOTAL_MAX_TX_BUFFER]
      omega

/-- Two stations fall asleep. -/
def twoDoze : List PsOp :=
  [.addSta 1 0 0 0 1, .addSta 2 0 0 0 1, .sta 1 (.doze none), .sta 2 (.doze none)]

/-- The state then. -/
def twoAsleep : PsLocal := ((run (psStep {}) oneAp twoDoze).map Prod.fst).getD oneAp

/-- All their queues are full. -/
def twoFull : PsLocal := (twoAsleep.fillAcs 1 [0, 1, 2, 3]).fillAcs 2 [0, 1, 2, 3]

/-- **The next frame makes the counter forget three queues of each.** -/
theorem purge_miscounts : oneAp.Initial ∧
    ∃ s, Reach (psStep {}) (fun _ _ _ => True) oneAp s [] ∧ s.totalPsBuffered = 127 ∧
      s.frames = 511 := by
  refine ⟨oneAp_initial, ?_⟩
  have hreach : Reach (psStep {}) (fun _ _ _ => True) oneAp twoAsleep [] := by
    have hrun : run (psStep {}) oneAp twoDoze = some (twoAsleep, []) := rfl
    exact Reach.of_run_init hrun
  have hone : Reach (psStep {}) (fun _ _ _ => True) oneAp (twoAsleep.fillAcs 1 [0, 1, 2, 3]) [] :=
    reach_fillAcs _ (by decide) (by decide +kernel) (by decide +kernel) (by decide +kernel)
      (by decide +kernel) hreach
  have htwo : Reach (psStep {}) (fun _ _ _ => True) oneAp twoFull [] :=
    reach_fillAcs _ (by decide) (by decide +kernel) (by decide +kernel) (by decide +kernel)
      (by decide +kernel) hone
  have hstep : (psStep {} twoFull (.txUnicast 1 3 {} false false)).map
      (fun r => (r.1.totalPsBuffered, r.1.frames)) = some (127, 511) := by
    decide +kernel
  obtain ⟨⟨s, os⟩, hs, hcounts⟩ := Option.map_eq_some_iff.mp hstep
  obtain ⟨htotal, hframes⟩ := Prod.mk.inj hcounts
  have hos : os = [] := eq_nil_iff_forall_not_mem.mpr fun e => e.elim
  subst hos
  exact ⟨s, htwo.step trivial hs, htotal, hframes⟩

end Device

end Mac80211
