import Mac80211.PowerSave.Delivered

/-!
# Whether there is more

The traffic indication map counts frames in the two queues, the driver and the intermediate queues;
`ieee80211_sta_ps_more_data` looks at the queues only.

## Main results

* `moreData_truthful_iff` — when the last frame of an answer tells the truth
-/

namespace Mac80211

open List

/-! ### The map -/

/-- The loop of `__sta_info_recalc_tim`. -/
def timLoop (ignoreForTim : UInt8) (sta : PsQueues) : List Ac → Bool → Bool
  | [], indicate => indicate
  | ac :: acs, indicate =>
    if !usable ignoreForTim ac then timLoop ignoreForTim sta acs indicate
    else
      let indicate := indicate || !(sta.txFiltered ac).isEmpty || !(sta.psTxBuf ac).isEmpty
      if indicate then indicate
      else timLoop ignoreForTim sta acs (indicate || sta.driverBufferedTids &&& tidsForAc ac ≠ 0 ||
        sta.txqBufferedTids &&& tidsForAc ac ≠ 0)

/-- There is traffic in an access category that is not left out. -/
def indicateTim (ignoreForTim : UInt8) (sta : PsQueues) : Bool := timLoop ignoreForTim sta [0, 1, 2, 3] false

section Tim

variable {ignored : UInt8} {sta : PsQueues}

theorem hard_ne_zero_iff {ac : Ac} : sta.hard ac ≠ 0 ↔
    sta.driverBufferedTids &&& tidsForAc ac ≠ 0 ∨ sta.txqBufferedTids &&& tidsForAc ac ≠ 0 := by
  have hdistrib : (sta.driverBufferedTids ||| sta.txqBufferedTids) &&& tidsForAc ac =
      sta.driverBufferedTids &&& tidsForAc ac ||| sta.txqBufferedTids &&& tidsForAc ac := by
    rw [← UInt64.toBitVec_inj]
    exact BitVec.and_or_distrib_right
  rw [PsQueues.hard, hdistrib, ne_eq, UInt64.or_eq_zero_iff, not_and_or]

theorem soft_ne_nil_iff {ac : Ac} : sta.soft ac ≠ [] ↔
    (!(sta.txFiltered ac).isEmpty || !(sta.psTxBuf ac).isEmpty) = true := by
  rw [PsQueues.soft, Ne, append_eq_nil_iff]
  cases sta.txFiltered ac <;> cases sta.psTxBuf ac <;> simp

theorem timLoop_iff (acs : List Ac) (indicate : Bool) : timLoop ignored sta acs indicate = true ↔
      indicate = true ∨ ∃ ac ∈ acs, usable ignored ac ∧ HeldAnywhere sta ac := by
  induction acs generalizing indicate with
  | nil => simp [timLoop]
  | cons ac acs ih =>
    rw [timLoop, exists_mem_cons_iff]
    cases hu : usable ignored ac with
    | false =>
      simp only [Bool.not_false, if_true, Bool.false_eq_true, false_and, false_or]
      exact ih indicate
    | true =>
      simp only [Bool.not_true, Bool.false_eq_true, if_false, true_and]
      rw [HeldAnywhere, soft_ne_nil_iff]
      split
      · rename_i h
        rw [Bool.or_assoc, Bool.or_eq_true] at h
        refine iff_of_true (by rw [Bool.or_assoc, Bool.or_eq_true]; exact h) ?_
        exact h.imp_right fun hsoft => .inl (.inl hsoft)
      · rw [ih, hard_ne_zero_iff]
        simp only [Bool.or_eq_true, decide_eq_true_eq, or_assoc]

/-- **What the map says.** -/
theorem indicateTim_iff :
    indicateTim ignored sta = true ↔ ∃ ac, usable ignored ac ∧ HeldAnywhere sta ac := by
  have hmem : ∀ ac : Ac, ac ∈ ([0, 1, 2, 3] : List Ac) := by decide
  rw [indicateTim, timLoop_iff]
  simp [hmem]

end Tim

/-! ### The last frame -/

/-- The number of frames in the queues of the access categories that are looked at. -/
def softCount (ignoredAcs : UInt8) (sta : PsQueues) : ℕ :=
  (([0, 1, 2, 3] : List Ac).map fun ac => if usable ignoredAcs ac then (sta.soft ac).length else 0).sum

section Last

variable {env : NullEnv} {sta : PsQueues} {nFrames : ℕ} {ignoredAcs : UInt8} {reason : ReleaseReason}
variable {skb last : BufferedFrame}

theorem softCount_pos_iff : 0 < softCount ignoredAcs sta ↔ ∃ ac, usable ignoredAcs ac ∧ sta.soft ac ≠ [] := by
  have hmem : ∀ ac : Ac, ac ∈ ([0, 1, 2, 3] : List Ac) := by decide
  rw [softCount, Nat.pos_iff_ne_zero, ne_eq, List.sum_eq_zero_iff_forall_eq_nat]
  simp only [List.mem_map, forall_exists_index, and_imp, forall_apply_eq_imp_iff₂, not_forall]
  constructor
  · rintro ⟨ac, -, hne⟩
    by_cases hu : usable ignoredAcs ac = true
    · rw [if_pos hu] at hne
      exact ⟨ac, hu, fun hnil => hne (by rw [hnil]; rfl)⟩
    · rw [if_neg hu] at hne
      exact absurd rfl hne
  · rintro ⟨ac, hu, hne⟩
    refine ⟨ac, hmem ac, ?_⟩
    rw [if_pos hu]
    exact fun hzero => hne (List.length_eq_zero_iff.mp hzero)

theorem staPsMoreData_zero : staPsMoreData sta ignoredAcs reason 0 = true ↔
    ∃ ac, usable ignoredAcs ac ∧ sta.soft ac ≠ [] := by
  have hmem : ∀ ac : Ac, ac ∈ ([0, 1, 2, 3] : List Ac) := by decide
  have hnone : ¬ 1 < hweight16 0 := by decide
  rw [staPsMoreData, if_neg (by simp [hnone]), any_eq_true]
  simp only [hmem, true_and, Bool.and_eq_true, soft_ne_nil_iff]

theorem Gathered.softCount_eq {taken : Ac → ℕ} {g r : Gather}
    (h : Gathered ignoredAcs [0, 1, 2, 3] taken g r) (hg : g.frames = []) :
    softCount ignoredAcs g.sta = r.frames.length + softCount ignoredAcs r.sta := by
  have hac : ∀ ac, (if usable ignoredAcs ac then (g.sta.soft ac).length else 0) =
      ((g.sta.soft ac).take (taken ac)).length +
        if usable ignoredAcs ac then (r.sta.soft ac).length else 0 := by
    intro ac
    have hle := h.took.le ac
    rw [h.took.soft, length_drop, length_take]
    by_cases hu : usable ignoredAcs ac = true
    · rw [if_pos hu, if_pos hu]
      omega
    · have hzero : taken ac = 0 := by
        by_contra hne
        exact hu (h.mem ac (Nat.pos_of_ne_zero hne)).2
      rw [if_neg hu, if_neg hu, hzero]
      omega
  rw [h.frames, hg, nil_append, length_flatMap, softCount, softCount]
  simp only [hac, map_cons, map_nil, sum_cons, sum_nil]
  omega

/-- There is more in the queues if there was more than was asked for. -/
theorem gathered_more_iff (htids : (gathered sta nFrames ignoredAcs).driverReleaseTids = 0) :
    (∃ ac, usable ignoredAcs ac ∧ (gathered sta nFrames ignoredAcs).sta.soft ac ≠ []) ↔
      nFrames < softCount ignoredAcs sta := by
  obtain ⟨taken, hg⟩ := gathered_spec sta nFrames ignoredAcs
  have hmem : ∀ ac : Ac, ac ∈ ([0, 1, 2, 3] : List Ac) := by decide
  have hsum : softCount ignoredAcs sta = _ := hg.softCount_eq rfl
  have hcount : (gathered sta nFrames ignoredAcs).frames.length + (gathered sta nFrames ignoredAcs).nFrames =
      0 + nFrames := hg.count
  rw [← softCount_pos_iff]
  constructor
  · intro hpos
    obtain ⟨ac, hu, hne⟩ := softCount_pos_iff.mp hpos
    have hfull := hg.full htids ac (hmem ac) hu hne
    omega
  · intro hlt
    omega

theorem moreData_respond (more : Bool) : (skb.respond more).moreData = more := by
  cases more
  · have hclear : skb.frameControl &&& ~~~FCTL_MOREDATA &&& FCTL_MOREDATA = 0 := by
      rw [UInt16.and_assoc]
      exact UInt16.and_zero
    simp [BufferedFrame.respond, BufferedFrame.moreData, hclear]
  · have hset : (skb.frameControl ||| FCTL_MOREDATA) &&& FCTL_MOREDATA ≠ 0 := by
      have hdistrib : (skb.frameControl ||| FCTL_MOREDATA) &&& FCTL_MOREDATA =
          skb.frameControl &&& FCTL_MOREDATA ||| FCTL_MOREDATA &&& FCTL_MOREDATA := by
        rw [← UInt16.toBitVec_inj]
        exact BitVec.and_or_distrib_right
      rw [hdistrib]
      exact fun hzero => absurd (UInt16.or_eq_zero_iff.mp hzero).2 (by decide)
    simpa [BufferedFrame.respond, BufferedFrame.moreData] using hset

theorem moreData_endSp (h : skb.hasQos = true) : (skb.endSp reason).moreData = skb.moreData := by
  rw [BufferedFrame.endSp, if_pos h]
  split
  · rfl
  · rfl

/-- A frame from the queues is sent only if the driver is not asked for any. -/
theorem exists_of_pending (hne : (deliverResponse env sta nFrames ignoredAcs reason).pending ≠ []) :
    (gathered sta nFrames ignoredAcs).driverReleaseTids = 0 ∧
      ∃ pre last, (gathered sta nFrames ignoredAcs).frames = pre ++ [last] := by
  obtain ⟨taken, hg⟩ := gathered_spec sta nFrames ignoredAcs
  have hsent := (deliverResponse_frames env sta nFrames ignoredAcs reason).2.1
  rcases eq_nil_or_concat' (gathered sta nFrames ignoredAcs).frames with hnil | ⟨pre, last, hconcat⟩
  · rw [hnil, map_nil, map_eq_nil_iff] at hsent
    exact absurd hsent hne
  · exact ⟨hg.excl.resolve_left (by simp [hconcat]), pre, last, hconcat⟩

/-- **What the last frame says.** -/
theorem moreData_iff (hlast : (deliverResponse env sta nFrames ignoredAcs reason).pending.getLast? = some last)
    (hqos : last.hasQos = true) : last.moreData = true ↔ nFrames < softCount ignoredAcs sta := by
  have hne : (deliverResponse env sta nFrames ignoredAcs reason).pending ≠ [] := by
    intro hnil
    rw [hnil] at hlast
    cases hlast
  obtain ⟨htids, pre, skb, hconcat⟩ := exists_of_pending hne
  rw [deliverResponse_software (by simp [hconcat]) htids, softwareAnswer] at hlast
  dsimp only at hlast
  rw [hconcat, (markLoop_concat pre {}).1, getLast?_concat] at hlast
  cases hlast
  rw [hasQos_endSp] at hqos
  rw [moreData_endSp hqos, moreData_respond, moreAfter, htids, staPsMoreData_zero, gathered_more_iff htids]

end Last

/-- **The last frame tells the truth exactly when** there are more frames in the queues than asked
for, or driver and intermediate queues have none of the categories looked at. -/
theorem moreData_truthful_iff (env : NullEnv) (sta : PsQueues) (nFrames : ℕ) (ignoredAcs : UInt8)
    (reason : ReleaseReason) {last : BufferedFrame}
    (hlast : (deliverResponse env sta nFrames ignoredAcs reason).pending.getLast? = some last)
    (hqos : isDataQos last.frameControl = true) : (last.moreData = true ↔
      indicateTim ignoredAcs (deliverResponse env sta nFrames ignoredAcs reason).sta = true) ↔
    nFrames < softCount ignoredAcs sta ∨ ∀ ac, usable ignoredAcs ac → sta.hard ac = 0 := by
  have hqos : last.hasQos = true := by rw [BufferedFrame.hasQos, hqos, Bool.true_or]
  obtain ⟨taken, hg⟩ := gathered_spec sta nFrames ignoredAcs
  have hne : (deliverResponse env sta nFrames ignoredAcs reason).pending ≠ [] := by
    intro hnil
    rw [hnil] at hlast
    cases hlast
  have hmore := gathered_more_iff (exists_of_pending hne).1
  have hhard : ∀ ac, (gathered sta nFrames ignoredAcs).sta.hard ac = sta.hard ac := hg.took.hard
  have htim : indicateTim ignoredAcs (gathered sta nFrames ignoredAcs).sta = true ↔
      nFrames < softCount ignoredAcs sta ∨ ¬ ∀ ac, usable ignoredAcs ac → sta.hard ac = 0 := by
    rw [indicateTim_iff, ← hmore]
    simp only [HeldAnywhere, hhard, and_or_left, exists_or, not_forall, exists_prop, ne_eq]
  rw [moreData_iff hlast hqos, (deliverResponse_frames env sta nFrames ignoredAcs reason).1, htim,
    iff_self_or, or_iff_not_imp_right]

/-- Three frames of one access category, two of which are asked for. -/
def threeQueued : PsQueues where
  txFiltered := ![[], [qosDataFrame], [], []]
  psTxBuf := ![[], [qosDataFrame, qosDataFrame], [], []]

theorem moreData_truthful_three :
    ∃ last, (deliverResponse {} threeQueued 2 0 .uapsd).pending.getLast? = some last ∧
      isDataQos last.frameControl = true ∧
      ((last.moreData = true ↔ indicateTim 0 (deliverResponse {} threeQueued 2 0 .uapsd).sta = true) ↔
        2 < softCount 0 threeQueued ∨ ∀ ac, usable 0 ac → threeQueued.hard ac = 0) := by
  obtain ⟨last, hlast⟩ := Option.isSome_iff_exists.mp
    (by decide +kernel : (deliverResponse {} threeQueued 2 0 .uapsd).pending.getLast?.isSome = true)
  have hall : (deliverResponse {} threeQueued 2 0 .uapsd).pending.getLast?.all
      (fun skb => isDataQos skb.frameControl) = true := by decide +kernel
  rw [hlast] at hall
  exact ⟨last, hlast, hall, moreData_truthful_iff {} threeQueued 2 0 .uapsd hlast hall⟩

/-- **Frames in the driver are denied.** One frame of the highest access category says that there
are no more; the driver has some of the second. -/
theorem frames_in_driver_are_denied :
    ∃ last, (deliverResponse {} mixedQueues 2 0x08 .uapsd).pending = [last] ∧
      isDataQos last.frameControl = true ∧ last.moreData = false ∧
      indicateTim 0x08 (deliverResponse {} mixedQueues 2 0x08 .uapsd).sta = true ∧
      ¬ (last.moreData = true ↔
        indicateTim 0x08 (deliverResponse {} mixedQueues 2 0x08 .uapsd).sta = true) := by
  have htim : indicateTim 0x08 (deliverResponse {} mixedQueues 2 0x08 .uapsd).sta = true := by decide +kernel
  refine ⟨(qosDataFrame.respond false).endSp .uapsd, by decide +kernel, by decide +kernel, by decide +kernel, htim,
    fun h => ?_⟩
  exact absurd (h.mpr htim) (by decide +kernel)

end Mac80211
