import Mac80211.PowerSave.Deliver

/-!
# What becomes of the frames for a station that is asleep

No frame is lost or sent twice, and the order within an access category is kept. One whose frames
are in the driver does not hold up a lower one once a frame is taken from a queue. All is said in
terms of how many frames are taken from each.

## Main definitions

* `SentInOrder`, `HeldUp`

## Main results

* `deliverResponse_sound`
-/

namespace Mac80211

open List

/-! ### What is taken -/

variable {sta : PsQueues}

section Take

variable {ignoredAcs : UInt8} {ac : Ac} {acs : List Ac} {g g' : Gather} {n : ℕ}

/-- Of each access category the first `taken ac` frames are taken, filtered ones first, and the others
are left. -/
structure Took (taken : Ac → ℕ) (sta sta' : PsQueues) : Prop where
  le : ∀ ac, taken ac ≤ (sta.soft ac).length
  filtered : ∀ ac, sta'.txFiltered ac = (sta.txFiltered ac).drop (taken ac)
  buffered : ∀ ac, sta'.psTxBuf ac = (sta.psTxBuf ac).drop (taken ac - (sta.txFiltered ac).length)
  driver : sta'.driverBufferedTids = sta.driverBufferedTids
  txq : sta'.txqBufferedTids = sta.txqBufferedTids
  wme : sta'.wme = sta.wme

theorem Took.refl (sta : PsQueues) : Took (fun _ => 0) sta sta :=
  ⟨fun _ => Nat.zero_le _, fun _ => rfl, fun _ => by simp, rfl, rfl, rfl⟩

theorem Took.soft {taken : Ac → ℕ} {sta sta' : PsQueues} (h : Took taken sta sta') (ac : Ac) :
    sta'.soft ac = (sta.soft ac).drop (taken ac) := by
  rw [PsQueues.soft, h.filtered, h.buffered, PsQueues.soft, drop_append]

theorem Took.hard {taken : Ac → ℕ} {sta sta' : PsQueues} (h : Took taken sta sta') (ac : Ac) :
    sta'.hard ac = sta.hard ac := by
  rw [PsQueues.hard, h.driver, h.txq]
  rfl

theorem Took.trans {t₁ t₂ : Ac → ℕ} {a b c : PsQueues} (h₁ : Took t₁ a b) (h₂ : Took t₂ b c) :
    Took (fun ac => t₁ ac + t₂ ac) a c where
  le ac := by
    have h₁' := h₁.le ac
    have h₂' := h₂.le ac
    rw [h₁.soft, length_drop] at h₂'
    omega
  filtered ac := by rw [h₂.filtered, h₁.filtered, drop_drop]
  buffered ac := by
    rw [h₂.buffered, h₁.buffered, drop_drop, h₁.filtered, length_drop]
    congr 1
    omega
  driver := h₂.driver.trans h₁.driver
  txq := h₂.txq.trans h₁.txq
  wme := h₂.wme.trans h₁.wme

/-- A frame that is at the front of its access category. -/
def only (ac : Ac) (n : ℕ) : Ac → ℕ := fun b => if b = ac then n else 0

theorem took_filtered {skb : BufferedFrame} {q : List BufferedFrame}
    (h : sta.txFiltered ac = skb :: q) :
    Took (only ac 1) sta { sta with txFiltered := Function.update sta.txFiltered ac q } := by
  refine ⟨fun b => ?_, fun b => ?_, fun b => ?_, rfl, rfl, rfl⟩
  all_goals
    rw [only]
    by_cases hb : b = ac
    · subst hb
      simp [PsQueues.soft, h]
    · simp [hb]

theorem took_buffered {skb : BufferedFrame} {q : List BufferedFrame}
    (hf : sta.txFiltered ac = []) (h : sta.psTxBuf ac = skb :: q) :
    Took (only ac 1) sta { sta with psTxBuf := Function.update sta.psTxBuf ac q } := by
  refine ⟨fun b => ?_, fun b => ?_, fun b => ?_, rfl, rfl, rfl⟩
  all_goals
    rw [only]
    by_cases hb : b = ac
    · subst hb
      simp [PsQueues.soft, h, hf]
    · simp [hb]

/-- What there is of an access category is taken, up to the number of frames. -/
structure Dequeued (ac : Ac) (n : ℕ) (g r : Gather) : Prop where
  took : Took (only ac (min n (g.sta.soft ac).length)) g.sta r.sta
  frames : r.frames = g.frames ++ (g.sta.soft ac).take (min n (g.sta.soft ac).length)
  nFrames : r.nFrames = n - (g.sta.soft ac).length
  tids : r.driverReleaseTids = g.driverReleaseTids

theorem Dequeued.cons {skb : BufferedFrame} {r : Gather} (h : Dequeued ac n g' r)
    (ht : Took (only ac 1) g.sta g'.sta) (hs : g.sta.soft ac = skb :: g'.sta.soft ac)
    (hframes : g'.frames = g.frames ++ [skb]) (htids : g'.driverReleaseTids = g.driverReleaseTids) :
    Dequeued ac (n + 1) g r where
  took := by
    have hsum : (fun b => only ac 1 b + only ac (min n (g'.sta.soft ac).length) b) =
        only ac (min (n + 1) (g.sta.soft ac).length) := by
      funext b
      rw [hs, length_cons]
      simp only [only]
      split <;> omega
    rw [← hsum]
    exact ht.trans h.took
  frames := by
    rw [h.frames, hframes, hs, length_cons, Nat.add_min_add_right, take_succ_cons,
      append_assoc, singleton_append]
  nFrames := by
    rw [h.nFrames, hs, length_cons]
    omega
  tids := h.tids.trans htids

/-- **The inner loop.** -/
theorem dequeueLoop_spec (ac : Ac) (n : ℕ) (g : Gather) : Dequeued ac n g (dequeueLoop ac n g) := by
  induction n generalizing g with
  | zero =>
    have hnone : only ac 0 = fun _ => 0 := funext fun b => ite_self 0
    refine ⟨?_, by simp [dequeueLoop], by simp [dequeueLoop], rfl⟩
    rw [Nat.zero_min, hnone]
    exact .refl _
  | succ n ih =>
    rw [dequeueLoop]
    cases hf : g.sta.txFiltered ac with
    | cons skb q =>
      refine (ih _).cons (took_filtered hf) ?_ rfl rfl
      simp [PsQueues.soft, hf]
    | nil =>
      cases hb : g.sta.psTxBuf ac with
      | cons skb q =>
        refine (ih _).cons (took_buffered hf hb) ?_ rfl rfl
        simp [PsQueues.soft, hf, hb]
      | nil =>
        have hsoft : g.sta.soft ac = [] := by rw [PsQueues.soft, hf, hb]; rfl
        have hnone : only ac 0 = fun _ => 0 := funext fun b => ite_self 0
        refine ⟨?_, by simp [hsoft], by simp [hsoft], rfl⟩
        rw [hsoft, length_nil, Nat.min_zero, hnone]
        exact .refl _

theorem gatherTids_ne_zero (h : g.driverReleaseTids ≠ 0) : gatherTids g ac ≠ 0 := by
  rw [gatherTids]
  split
  · intro hzero
    exact h (UInt64.or_eq_zero_iff.mp (UInt64.or_eq_zero_iff.mp hzero).1).1
  · exact h

/-- What holds of the frames that were taken from some access categories. -/
structure Gathered (ignoredAcs : UInt8) (acs : List Ac) (taken : Ac → ℕ) (g r : Gather) : Prop where
  took : Took taken g.sta r.sta
  mem : ∀ ac, 0 < taken ac → ac ∈ acs ∧ usable ignoredAcs ac
  frames : r.frames = g.frames ++ acs.flatMap fun ac => (g.sta.soft ac).take (taken ac)
  count : r.frames.length + r.nFrames = g.frames.length + g.nFrames
  /-- A higher access category is empty. -/
  first : acs.Pairwise fun hi lo => usable ignoredAcs hi → 0 < taken lo → r.sta.soft hi = []
  /-- The driver has none of a higher access category, unless there were frames already when its turn
  came. -/
  driver : acs.Pairwise fun hi lo => usable ignoredAcs hi → 0 < taken lo →
    g.sta.hard hi = 0 ∨ g.frames ≠ [] ∨ ∃ ac, ac < hi ∧ 0 < taken ac
  /-- Frames are left only if there are enough already. -/
  full : r.driverReleaseTids = 0 → ∀ ac ∈ acs, usable ignoredAcs ac → r.sta.soft ac ≠ [] → r.nFrames = 0
  /-- Frames from software and from the driver exclude each other. -/
  excl : r.frames = [] ∨ r.driverReleaseTids = 0
  tids : g.driverReleaseTids ≠ 0 → r.driverReleaseTids ≠ 0

/-- **One access category.** -/
theorem gatherAc_spec (hu : usable ignoredAcs ac) (hexcl : g.frames = [] ∨ g.driverReleaseTids = 0) :
    ∃ k, Gathered ignoredAcs [ac] (only ac k) g (gatherAc g ac) := by
  have hmem : ∀ k b, 0 < only ac k b → b ∈ [ac] ∧ usable ignoredAcs b := by
    intro k b hb
    rw [only] at hb
    split at hb
    · rename_i heq
      subst heq
      exact ⟨mem_singleton_self b, hu⟩
    · exact absurd hb (lt_irrefl 0)
  have hsame : ∀ k, only ac k ac = k := fun k => if_pos rfl
  rw [gatherAc]
  by_cases htids : gatherTids g ac = 0
  · have hloop := dequeueLoop_spec ac g.nFrames { g with driverReleaseTids := gatherTids g ac }
    generalize hr : dequeueLoop ac g.nFrames { g with driverReleaseTids := gatherTids g ac } = r at hloop
    refine ⟨min g.nFrames (g.sta.soft ac).length, ?_⟩
    simp only [htids, if_pos]
    refine ⟨hloop.took, hmem _, ?_, ?_, pairwise_singleton _ _, pairwise_singleton _ _, ?_,
      .inr (hloop.tids.trans htids), ?_⟩
    · rw [hloop.frames, flatMap_singleton, hsame]
    · rw [hloop.frames, hloop.nFrames, length_append, length_take]
      dsimp only
      omega
    · intro _ b hb _ hleft
      obtain rfl := mem_singleton.mp hb
      have hlen := length_pos_iff.mpr hleft
      rw [hloop.took.soft, length_drop, hsame] at hlen
      rw [hloop.nFrames]
      dsimp only at hlen ⊢
      omega
    · intro h
      exact absurd htids (gatherTids_ne_zero h)
  · have hempty : g.frames = [] := by
      refine hexcl.elim id fun hzero => ?_
      by_contra hne
      refine htids ?_
      rw [gatherTids, if_neg (by simpa using hne), hzero]
    have hnone : only ac 0 = fun _ => 0 := funext fun b => ite_self 0
    refine ⟨0, ?_⟩
    simp only [htids, if_false]
    refine ⟨hnone ▸ .refl _, hmem _, ?_, rfl, pairwise_singleton _ _, pairwise_singleton _ _,
      fun h => absurd h htids, .inl hempty, fun _ => htids⟩
    simp [hnone]

section

variable {taken t₁ t₂ : Ac → ℕ} {r : Gather}

theorem Gathered.eq_zero (h : Gathered ignoredAcs acs taken g r) (hac : ac ∉ acs) : taken ac = 0 := by
  by_contra hne
  exact hac (h.mem ac (Nat.pos_of_ne_zero hne)).1

theorem Gathered.skip (h : Gathered ignoredAcs acs taken g r) (hac : ac ∉ acs)
    (hu : usable ignoredAcs ac = false) : Gathered ignoredAcs (ac :: acs) taken g r where
  took := h.took
  mem b hb := ⟨mem_cons_of_mem ac (h.mem b hb).1, (h.mem b hb).2⟩
  frames := by rw [h.frames, flatMap_cons, h.eq_zero hac, take_zero, nil_append]
  count := h.count
  first := .cons (fun lo _ husable => absurd husable (by simp [hu])) h.first
  driver := .cons (fun lo _ husable => absurd husable (by simp [hu])) h.driver
  full htids b hb husable := by
    rcases mem_cons.mp hb with rfl | hb
    · rw [hu] at husable
      cases husable
    · exact h.full htids b hb husable
  excl := h.excl
  tids := h.tids

theorem Gathered.stop (h : Gathered ignoredAcs [ac] taken g r) (hac : ac ∉ acs)
    (hu : usable ignoredAcs ac = true) (hleft : r.sta.soft ac ≠ []) :
    Gathered ignoredAcs (ac :: acs) taken g r := by
  have hzero : ∀ b ∈ acs, taken b = 0 := fun b hb =>
    h.eq_zero fun hmem => hac (mem_singleton.mp hmem ▸ hb)
  have hnil : (acs.flatMap fun b => (g.sta.soft b).take (taken b)) = [] := by
    rw [flatMap_eq_nil_iff]
    intro b hb
    rw [hzero b hb, take_zero]
  refine ⟨h.took, fun b hb => ⟨?_, (h.mem b hb).2⟩, ?_, h.count, ?_, ?_, ?_, h.excl, h.tids⟩
  · exact mem_cons.mpr (.inl (mem_singleton.mp (h.mem b hb).1))
  · rw [h.frames, flatMap_singleton, flatMap_cons, hnil, append_nil]
  · refine pairwise_cons.mpr ⟨fun lo hlo _ hpos => ?_, pairwise_of_forall_mem_list ?_⟩
    · exact absurd hpos (by simp [hzero lo hlo])
    · intro hi _ lo hlo _ hpos
      exact absurd hpos (by simp [hzero lo hlo])
  · refine pairwise_cons.mpr ⟨fun lo hlo _ hpos => ?_, pairwise_of_forall_mem_list ?_⟩
    · exact absurd hpos (by simp [hzero lo hlo])
    · intro hi _ lo hlo _ hpos
      exact absurd hpos (by simp [hzero lo hlo])
  · intro htids _ _ _ _
    exact h.full htids ac (mem_singleton_self ac) hu hleft

/-- Frames that are taken leave nothing to the driver. -/
theorem Gathered.tids_eq_zero (h : Gathered ignoredAcs acs taken g r) {lo : Ac} (hpos : 0 < taken lo) :
    r.driverReleaseTids = 0 := by
  refine h.excl.resolve_left fun hnil => ?_
  rw [h.frames, append_eq_nil_iff, flatMap_eq_nil_iff] at hnil
  have hlen := congrArg List.length (hnil.2 lo (h.mem lo hpos).1)
  rw [length_take, min_eq_left (h.took.le lo), length_nil] at hlen
  omega

theorem Gathered.cons {g₁ : Gather} (h₁ : Gathered ignoredAcs [ac] t₁ g g₁) (hbelow : ∀ b ∈ acs, ac < b)
    (hdriver : g.frames = [] → g₁.driverReleaseTids = 0 → g.sta.hard ac = 0)
    (hempty : g₁.sta.soft ac = []) (h₂ : Gathered ignoredAcs acs t₂ g₁ r) :
    Gathered ignoredAcs (ac :: acs) (fun b => t₁ b + t₂ b) g r := by
  have hac : ac ∉ acs := fun hmem => lt_irrefl ac (hbelow ac hmem)
  have hzero : ∀ b ∈ acs, t₁ b = 0 := fun b hb =>
    h₁.eq_zero fun hmem => hac (mem_singleton.mp hmem ▸ hb)
  have hleft : r.sta.soft ac = [] := by rw [h₂.took.soft, hempty, drop_nil]
  refine ⟨h₁.took.trans h₂.took, fun b hb => ?_, ?_, h₂.count.trans h₁.count, ?_, ?_, ?_, h₂.excl,
    fun h => h₂.tids (h₁.tids h)⟩
  · rcases Nat.eq_zero_or_pos (t₁ b) with hb₁ | hb₁
    · have hmem := h₂.mem b (by omega)
      exact ⟨mem_cons_of_mem ac hmem.1, hmem.2⟩
    · have hmem := h₁.mem b hb₁
      exact ⟨mem_cons.mpr (.inl (mem_singleton.mp hmem.1)), hmem.2⟩
  · have hrest : (acs.flatMap fun b => (g₁.sta.soft b).take (t₂ b)) =
        acs.flatMap fun b => (g.sta.soft b).take (t₁ b + t₂ b) := by
      refine flatMap_congr fun b hb => ?_
      rw [h₁.took.soft, hzero b hb, drop_zero, Nat.zero_add]
    rw [h₂.frames, h₁.frames, hrest, flatMap_singleton, flatMap_cons, h₂.eq_zero hac, Nat.add_zero,
      append_assoc]
  · refine pairwise_cons.mpr ⟨fun _ _ _ _ => hleft, h₂.first.imp_of_mem ?_⟩
    intro hi lo _ hlo hfirst husable hpos
    rw [hzero lo hlo, Nat.zero_add] at hpos
    exact hfirst husable hpos
  · refine pairwise_cons.mpr ⟨fun lo hlo _ hpos => ?_, h₂.driver.imp_of_mem ?_⟩
    · rw [hzero lo hlo, Nat.zero_add] at hpos
      by_cases hframes : g.frames = []
      · refine .inl (hdriver hframes ?_)
        by_contra hne
        exact h₂.tids hne (h₂.tids_eq_zero hpos)
      · exact .inr (.inl hframes)
    · intro hi lo hhi hlo hdrv husable hpos
      rw [hzero lo hlo, Nat.zero_add] at hpos
      rw [← h₁.took.hard]
      rcases hdrv husable hpos with hhard | hframes | ⟨b, hb, hpos'⟩
      · exact .inl hhard
      · rw [h₁.frames, flatMap_singleton, Ne, append_eq_nil_iff, not_and_or] at hframes
        refine .inr (hframes.imp_right fun htake => ⟨ac, hbelow hi hhi, ?_⟩)
        rcases Nat.eq_zero_or_pos (t₁ ac) with hnone | hsome
        · rw [hnone, take_zero] at htake
          exact absurd rfl htake
        · omega
      · exact .inr (.inr ⟨b, hb, by omega⟩)
  · intro htids b hb husable hne
    rcases mem_cons.mp hb with rfl | hb
    · exact absurd hleft hne
    · exact h₂.full htids b hb husable hne

end

theorem gatherAc_tids (g : Gather) (ac : Ac) : (gatherAc g ac).driverReleaseTids = gatherTids g ac := by
  rw [gatherAc]
  dsimp only
  split
  · exact (dequeueLoop_spec ac _ _).tids
  · rfl

theorem gatherTids_eq (hframes : g.frames = []) (ac : Ac) :
    gatherTids g ac = g.driverReleaseTids ||| g.sta.hard ac := by
  have hdistrib : (g.sta.driverBufferedTids ||| g.sta.txqBufferedTids) &&& tidsForAc ac =
      g.sta.driverBufferedTids &&& tidsForAc ac ||| g.sta.txqBufferedTids &&& tidsForAc ac := by
    rw [← UInt64.toBitVec_inj]
    exact BitVec.and_or_distrib_right
  rw [gatherTids, if_pos (by simp [hframes]), PsQueues.hard, hdistrib, UInt64.or_assoc]

/-- **What is taken from the queues.** -/
theorem getFrames_gathered (hsorted : acs.Pairwise (· < ·)) (hexcl : g.frames = [] ∨ g.driverReleaseTids = 0) :
    ∃ taken, Gathered ignoredAcs acs taken g (getFrames ignoredAcs acs g) := by
  induction acs generalizing g with
  | nil =>
    refine ⟨fun _ => 0, .refl _, fun ac h => absurd h (lt_irrefl 0), by simp [getFrames], rfl, .nil, .nil,
      fun _ ac h => absurd h (not_mem_nil), hexcl, id⟩
  | cons ac acs ih =>
    obtain ⟨hbelow, htail⟩ := pairwise_cons.mp hsorted
    have hac : ac ∉ acs := fun hmem => lt_irrefl ac (hbelow ac hmem)
    rw [getFrames]
    cases hu : usable ignoredAcs ac with
    | false =>
      obtain ⟨taken, h⟩ := ih htail hexcl
      exact ⟨taken, h.skip hac hu⟩
    | true =>
      obtain ⟨k, h₁⟩ := gatherAc_spec hu hexcl
      simp only [Bool.not_true, Bool.false_eq_true, if_false]
      split
      · rename_i hleft
        refine ⟨_, h₁.stop hac hu fun hnil => ?_⟩
        rw [PsQueues.soft, append_eq_nil_iff] at hnil
        simp [hnil.1, hnil.2] at hleft
      · rename_i hleft
        obtain ⟨t₂, h₂⟩ := ih htail h₁.excl
        refine ⟨_, h₁.cons hbelow (fun hframes htids => ?_) ?_ h₂⟩
        · rw [gatherAc_tids, gatherTids_eq hframes] at htids
          exact (UInt64.or_eq_zero_iff.mp htids).2
        · rw [PsQueues.soft, append_eq_nil_iff]
          simpa using hleft

theorem tidsForAc_and {lo : Ac} (hne : lo ≠ ac) (tids : UInt64) :
    tids &&& tidsForAc ac &&& tidsForAc lo = 0 := by
  have hdisjoint : ∀ a b : Ac, b ≠ a → tidsForAc a &&& tidsForAc b = 0 := by decide
  rw [UInt64.and_assoc, hdisjoint ac lo hne, UInt64.and_zero]

theorem gatherTids_and {lo : Ac} (hne : lo ≠ ac) :
    gatherTids g ac &&& tidsForAc lo = g.driverReleaseTids &&& tidsForAc lo := by
  have hdistrib : ∀ a b m : UInt64, (a ||| b) &&& m = a &&& m ||| b &&& m := by
    intro a b m
    rw [← UInt64.toBitVec_inj]
    exact BitVec.and_or_distrib_right
  rw [gatherTids]
  split
  · rw [hdistrib, hdistrib, tidsForAc_and hne, tidsForAc_and hne, UInt64.or_zero, UInt64.or_zero]
  · rfl

theorem and_or_of_subset {m a : UInt64} (h : m &&& a = m) (b : UInt64) : m &&& (a ||| b) = m := by
  have hdistrib : m &&& (a ||| b) = m &&& a ||| m &&& b := by
    rw [← UInt64.toBitVec_inj]
    exact BitVec.and_or_distrib_left
  rw [hdistrib, h, ← UInt64.toBitVec_inj]
  ext i hi
  simp only [UInt64.toBitVec_or, UInt64.toBitVec_and, BitVec.getElem_or, BitVec.getElem_and]
  cases m.toBitVec[i] <;> rfl

/-- What the driver is asked for, it is asked for in the end. -/
theorem getFrames_mono {m : UInt64} (h : m &&& g.driverReleaseTids = m) :
    m &&& (getFrames ignoredAcs acs g).driverReleaseTids = m := by
  induction acs generalizing g with
  | nil => exact h
  | cons ac acs ih =>
    have hac : m &&& (gatherAc g ac).driverReleaseTids = m := by
      rw [gatherAc_tids]
      by_cases hframes : g.frames = []
      · rw [gatherTids_eq hframes]
        exact and_or_of_subset h _
      · rw [gatherTids, if_neg (by simpa using hframes)]
        exact h
    rw [getFrames]
    split
    · exact ih h
    dsimp only
    split
    · exact hac
    · exact ih hac

/-- The driver is asked for nothing but TIDs of access categories. -/
theorem getFrames_range (h : g.driverReleaseTids &&& 0xff = g.driverReleaseTids) :
    (getFrames ignoredAcs acs g).driverReleaseTids &&& 0xff = (getFrames ignoredAcs acs g).driverReleaseTids := by
  induction acs generalizing g with
  | nil => exact h
  | cons ac acs ih =>
    have hrange : ∀ ac : Ac, tidsForAc ac &&& 0xff = tidsForAc ac := by decide
    have hac : (gatherAc g ac).driverReleaseTids &&& 0xff = (gatherAc g ac).driverReleaseTids := by
      rw [gatherAc_tids]
      by_cases hframes : g.frames = []
      · have hdistrib : ∀ a b : UInt64, (a ||| b) &&& 0xff = a &&& 0xff ||| b &&& 0xff := by
          intro a b
          rw [← UInt64.toBitVec_inj]
          exact BitVec.and_or_distrib_right
        rw [gatherTids_eq hframes, hdistrib, h, PsQueues.hard, UInt64.and_assoc, hrange]
      · rw [gatherTids, if_neg (by simpa using hframes)]
        exact h
    rw [getFrames]
    split
    · exact ih h
    dsimp only
    split
    · exact hac
    · exact ih hac

/-- TIDs of an access category are asked for only if nothing is left in the queues of a higher one, and
along with all that the driver has of it. -/
theorem getFrames_tids (hsorted : acs.Pairwise (· < ·)) (hexcl : g.frames = [] ∨ g.driverReleaseTids = 0)
    {lo : Ac} (h : (getFrames ignoredAcs acs g).driverReleaseTids &&& tidsForAc lo ≠ 0) :
    g.driverReleaseTids &&& tidsForAc lo ≠ 0 ∨ ∀ hi ∈ acs, hi < lo → usable ignoredAcs hi →
      (getFrames ignoredAcs acs g).sta.soft hi = [] ∧
      g.sta.hard hi &&& (getFrames ignoredAcs acs g).driverReleaseTids = g.sta.hard hi := by
  have hframes : g.frames = [] := by
    obtain ⟨t, ht⟩ := @getFrames_gathered ignoredAcs acs g hsorted hexcl
    have hnil := ht.excl.resolve_right fun hzero => h (by rw [hzero, UInt64.zero_and])
    rw [ht.frames, append_eq_nil_iff] at hnil
    exact hnil.1
  induction acs generalizing g with
  | nil => exact .inl h
  | cons ac acs ih =>
    obtain ⟨hbelow, htail⟩ := pairwise_cons.mp hsorted
    have hfirst : ∀ hi ∈ ac :: acs, ¬ hi < ac := by
      intro hi hmem hlt
      rcases mem_cons.mp hmem with rfl | hmem
      · exact absurd hlt (lt_irrefl _)
      · exact absurd (hlt.trans (hbelow hi hmem)) (lt_irrefl _)
    rw [getFrames] at h ⊢
    cases hu : usable ignoredAcs ac with
    | false =>
      simp only [hu, Bool.not_false, if_true] at h ⊢
      refine (ih htail hexcl h hframes).imp_right fun hrest hi hmem hlt husable => ?_
      rcases mem_cons.mp hmem with rfl | hmem
      · rw [hu] at husable
        cases husable
      · exact hrest hi hmem hlt husable
    | true =>
      obtain ⟨k, h₁⟩ := gatherAc_spec hu hexcl
      have hasked : (gatherAc g ac).driverReleaseTids &&& tidsForAc lo ≠ 0 →
          g.driverReleaseTids &&& tidsForAc lo ≠ 0 ∨ lo = ac := by
        intro hne
        by_cases hlo : lo = ac
        · exact .inr hlo
        · rw [gatherAc_tids, gatherTids_and hlo] at hne
          exact .inl hne
      simp only [hu, Bool.not_true, Bool.false_eq_true, if_false] at h ⊢
      by_cases hleft : (!((gatherAc g ac).sta.txFiltered ac).isEmpty ||
          !((gatherAc g ac).sta.psTxBuf ac).isEmpty) = true
      · rw [if_pos hleft] at h ⊢
        refine (hasked h).imp_right ?_
        rintro rfl hi hmem hlt
        exact absurd hlt (hfirst hi hmem)
      · rw [if_neg hleft] at h ⊢
        obtain ⟨t, ht⟩ := @getFrames_gathered ignoredAcs acs _ htail h₁.excl
        have hnil : (gatherAc g ac).frames = [] := by
          have hnil := ht.excl.resolve_right fun hzero => h (by rw [hzero, UInt64.zero_and])
          rw [ht.frames, append_eq_nil_iff] at hnil
          exact hnil.1
        rcases ih htail h₁.excl h hnil with hne | hrest
        · refine (hasked hne).imp_right ?_
          rintro rfl hi hmem hlt
          exact absurd hlt (hfirst hi hmem)
        · refine .inr fun hi hmem hlt husable => ?_
          rcases mem_cons.mp hmem with rfl | hmem
          · have hempty : (gatherAc g hi).sta.soft hi = [] := by
              rw [PsQueues.soft, append_eq_nil_iff]
              simpa using hleft
            refine ⟨by rw [ht.took.soft, hempty, drop_nil], getFrames_mono ?_⟩
            rw [gatherAc_tids, gatherTids_eq hframes, UInt64.or_comm]
            exact and_or_of_subset (UInt64.and_self ..) _
          · rw [← h₁.took.hard]
            exact hrest hi hmem hlt husable

end Take

/-! ### What is sent -/

section Marks

variable {skb last : BufferedFrame} {reason : ReleaseReason} {moreData : Bool}

theorem hasQos_congr {fc : UInt16} (h : ∀ mask, FCTL_MOREDATA &&& mask = 0 → ~~~FCTL_MOREDATA &&& mask = mask →
    fc &&& mask = skb.frameControl &&& mask) :
    ({ skb with frameControl := fc } : BufferedFrame).hasQos = skb.hasQos := by
  simp only [BufferedFrame.hasQos, isDataQos, isQosNullfunc, isSubtype,
    h (FCTL_FTYPE ||| STYPE_QOS_DATA) (by decide) (by decide), h (FCTL_FTYPE ||| FCTL_STYPE) (by decide) (by decide)]

theorem hasQos_respond : (skb.respond moreData).hasQos = skb.hasQos := by
  refine @hasQos_congr skb _ fun mask hor hclear => ?_
  cases moreData
  · exact clear_and_of_subset hclear
  · exact or_and_of_disjoint hor

theorem base_respond : (skb.respond moreData).base = skb.base := by
  cases moreData
  · simp [BufferedFrame.respond, BufferedFrame.base, UInt16.and_assoc]
  · simp [BufferedFrame.respond, BufferedFrame.base, or_and_of_disjoint]

theorem hasQos_endSp : (skb.endSp reason).hasQos = skb.hasQos := by
  rw [BufferedFrame.endSp]
  split
  · rfl
  split
  · rfl
  · exact @hasQos_congr skb _ fun mask hor _ => or_and_of_disjoint hor

theorem eosp_respond : (skb.respond moreData).eosp = skb.eosp := by
  rw [BufferedFrame.eosp, BufferedFrame.eosp, hasQos_respond]
  rfl

theorem or_eosp_and (b m : UInt8) :
    (b ||| QOS_CTL_EOSP) &&& m = b &&& m ||| QOS_CTL_EOSP &&& m := by
  rw [← UInt8.toBitVec_inj]
  exact BitVec.and_or_distrib_right

theorem base_endSp : (skb.endSp reason).base = skb.base := by
  rw [BufferedFrame.endSp]
  split
  · rfl
  split
  · have hclear : QOS_CTL_EOSP &&& ~~~QOS_CTL_EOSP = 0 := by decide
    simp [BufferedFrame.base, or_eosp_and, hclear]
  · simp [BufferedFrame.base, or_and_of_disjoint]

theorem or_eosp_and_ne_zero (b : UInt8) : (b ||| QOS_CTL_EOSP) &&& QOS_CTL_EOSP ≠ 0 := by
  rw [or_eosp_and]
  exact fun hzero => absurd (UInt8.or_eq_zero_iff.mp hzero).2 (by decide)

theorem eosp_endSp (h : skb.hasQos = true) : (skb.endSp .uapsd).eosp = true := by
  rw [BufferedFrame.endSp, if_neg (by simp), if_pos h, BufferedFrame.eosp]
  have hqos : ({ skb with
      qosCtl := skb.qosCtl ||| QOS_CTL_EOSP
      statusEosp := true
      reqTxStatus := true } : BufferedFrame).hasQos = true := h
  rw [hqos, Bool.true_and, decide_eq_true_eq]
  exact or_eosp_and_ne_zero skb.qosCtl

theorem eosp_endSp_of_not_qos (h : skb.hasQos = false) : (skb.endSp .uapsd).eosp = false := by
  rw [BufferedFrame.eosp, hasQos_endSp, h, Bool.false_and]

theorem eosp_nullFrame (tid : ℤ) (hwme : sta.wme = true) :
    (nullFrame sta tid .uapsd false).eosp = true := by
  rw [BufferedFrame.eosp, Bool.and_eq_true, decide_eq_true_eq]
  constructor
  · rw [BufferedFrame.hasQos, nullFrame, hwme]
    dsimp only
    decide
  · rw [nullFrame, hwme]
    exact or_eosp_and_ne_zero (UInt8.ofInt tid)

/-- **The loop over the frames**: all but the last say that there are more. -/
theorem markLoop_concat (pre : List BufferedFrame) (m : MarkedFrames) :
    (markLoop reason moreData (pre ++ [last]) m).pending =
      m.pending ++ pre.map (fun skb => skb.respond true) ++ [(last.respond moreData).endSp reason] ∧
    (markLoop reason moreData (pre ++ [last]) m).needNull =
      (m.needNull || (reason = .uapsd && !last.hasQos)) := by
  induction pre generalizing m with
  | nil =>
    rw [nil_append, markLoop]
    simp only [isEmpty_nil, Bool.not_true, Bool.or_false, Bool.false_eq_true, if_false, hasQos_respond,
      map_nil, append_nil]
    split
    · rename_i h
      simp [h]
    · rename_i h
      simp [h]
  | cons skb pre ih =>
    rw [cons_append, markLoop]
    have hmore : (pre ++ [last]).isEmpty = false := by simp
    simp only [hmore, Bool.not_false, Bool.or_true, if_true]
    rw [(ih _).1, (ih _).2]
    simp

end Marks

/-! ### The answer -/

/-- Of each access category the first frames are sent, in order, and the others are left. While one
looked at is `held` up, no lower one is served. -/
structure SentInOrder (held : PsQueues → Ac → Prop) (ignoredAcs : UInt8) (sta : PsQueues)
    (taken : Ac → ℕ) (r : Delivery) : Prop where
  took : Took taken sta r.sta
  sent : r.pending.map BufferedFrame.base =
    (([0, 1, 2, 3] : List Ac).flatMap fun ac => (sta.soft ac).take (taken ac)).map BufferedFrame.base
  first : ∀ hi lo, hi < lo → usable ignoredAcs hi → 0 < taken lo → ¬ held r.sta hi

/-- There are frames in the queues, or frames in the driver that are not passed over: nothing was taken
from an access category above. -/
def HeldUp (taken : Ac → ℕ) (sta : PsQueues) (ac : Ac) : Prop :=
  sta.soft ac ≠ [] ∨ sta.hard ac ≠ 0 ∧ ∀ b < ac, taken b = 0

/-- There are frames somewhere. -/
def HeldAnywhere (sta : PsQueues) (ac : Ac) : Prop := sta.soft ac ≠ [] ∨ sta.hard ac ≠ 0

/-- The frames that are sent end with one that ends the service period, and no other does. -/
def EndsSp (r : Delivery) : Prop :=
  ∃ pre last, r.pending ++ r.null.toList = pre ++ [last] ∧ last.eosp = true ∧ ∀ skb ∈ pre, skb.eosp = false

/-- A QoS null frame can be sent. -/
def NullEnv.canSend (env : NullEnv) (sta : PsQueues) : Bool := env.built && env.chanctx && sta.wme

/-- **What an answer should be.** -/
structure DeliversRight (sta : PsQueues) (nFrames : ℕ) (ignoredAcs : UInt8) (reason : ReleaseReason)
    (r : Delivery) : Prop where
  order : ∃ taken, SentInOrder HeldAnywhere ignoredAcs sta taken r
  excl : r.pending ≠ [] → r.released = none
  bounded : r.pending.length ≤ nFrames
  ends : reason = .uapsd → r.released = none → EndsSp r

section Answer

variable {env : NullEnv} {sta : PsQueues} {nFrames : ℕ} {ignoredAcs : UInt8} {reason : ReleaseReason}

/-- What `ieee80211_sta_ps_get_frames` gives. -/
def gathered (sta : PsQueues) (nFrames : ℕ) (ignoredAcs : UInt8) : Gather :=
  getFrames ignoredAcs [0, 1, 2, 3] { sta := { sta with sp := true }, nFrames := nFrames }

theorem gathered_spec (sta : PsQueues) (nFrames : ℕ) (ignoredAcs : UInt8) :
    ∃ taken, Gathered ignoredAcs [0, 1, 2, 3] taken { sta := { sta with sp := true }, nFrames := nFrames }
      (gathered sta nFrames ignoredAcs) :=
  getFrames_gathered (by decide) (.inl rfl)

/-! #### The TIDs that are released -/

variable {tids : UInt64}

theorem testBit_findHighestPrioTid (h : tids ≠ 0) :
    tids.toNat.testBit (findHighestPrioTid tids) = true := by
  have hne : tids.toNat ≠ 0 := fun hzero => h (UInt64.toNat_inj.mp hzero)
  rw [findHighestPrioTid]
  split
  · exact Nat.testBit_log2 hne
  split
  · rename_i hbit
    by_contra hfalse
    refine hbit (UInt64.toNat_inj.mp ?_)
    rw [UInt64.toNat_and, show (1 : UInt64).toNat = 2 ^ 0 from rfl, Nat.and_two_pow]
    simp [Bool.eq_false_iff.mpr hfalse]
  · exact Nat.testBit_log2 hne

theorem findHighestPrioTid_lt (h : tids ≠ 0) : findHighestPrioTid tids < 64 := by
  by_contra hge
  have hbit := testBit_findHighestPrioTid h
  rw [Nat.testBit_lt_two_pow (lt_of_lt_of_le tids.toNat_lt (Nat.pow_le_pow_right (by decide) (Nat.not_lt.mp hge)))]
    at hbit
  cases hbit

theorem toNat_bit {k : ℕ} (hk : k < 64) : ((1 : UInt64) <<< k.toUInt64).toNat = 2 ^ k := by
  revert k
  decide

theorem pickTids_and {tids mask : UInt64} (h : pickTids tids reason &&& mask ≠ 0) : tids &&& mask ≠ 0 := by
  rw [pickTids] at h
  split at h
  · rename_i hcond
    rw [Bool.and_eq_true, decide_eq_true_eq] at hcond
    have hbit := testBit_findHighestPrioTid hcond.1
    have hlt := findHighestPrioTid_lt hcond.1
    generalize findHighestPrioTid tids = k at h hbit hlt
    intro hzero
    refine h (UInt64.toNat_inj.mp ?_)
    have hmask : (tids.toNat &&& mask.toNat).testBit k = false := by
      rw [← UInt64.toNat_and, hzero]
      exact Nat.zero_testBit k
    rw [Nat.testBit_and, hbit, Bool.true_and] at hmask
    rw [UInt64.toNat_and, toNat_bit hlt, Nat.and_comm, Nat.and_two_pow, hmask]
    simp
  · exact h

theorem pickTids_eq_zero_iff {tids : UInt64} : pickTids tids reason = 0 ↔ tids = 0 := by
  rw [pickTids]
  split
  · rename_i hcond
    rw [Bool.and_eq_true, decide_eq_true_eq] at hcond
    refine iff_of_false (fun hzero => ?_) hcond.1
    have htoNat := toNat_bit (findHighestPrioTid_lt hcond.1)
    rw [hzero] at htoNat
    exact absurd htoNat (Nat.two_pow_pos _).ne
  · exact Iff.rfl

/-! #### The three kinds of answer -/

/-- Whether there is more, for a number of TIDs. -/
def moreAfter (sta : PsQueues) (nFrames : ℕ) (ignoredAcs : UInt8) (reason : ReleaseReason) : Bool :=
  staPsMoreData (gathered sta nFrames ignoredAcs).sta ignoredAcs reason
    (gathered sta nFrames ignoredAcs).driverReleaseTids

theorem deliverResponse_eq : deliverResponse env sta nFrames ignoredAcs reason =
      if (gathered sta nFrames ignoredAcs).frames.isEmpty &&
        pickTids (gathered sta nFrames ignoredAcs).driverReleaseTids reason = 0 then
        nullAnswer env (gathered sta nFrames ignoredAcs) ignoredAcs reason
      else if pickTids (gathered sta nFrames ignoredAcs).driverReleaseTids reason = 0 then
        softwareAnswer env (gathered sta nFrames ignoredAcs) reason (moreAfter sta nFrames ignoredAcs reason)
      else driverAnswer env (gathered sta nFrames ignoredAcs) nFrames
        (pickTids (gathered sta nFrames ignoredAcs).driverReleaseTids reason)
        (moreAfter sta nFrames ignoredAcs reason) :=
  rfl

theorem deliverResponse_null (hframes : (gathered sta nFrames ignoredAcs).frames = [])
    (htids : (gathered sta nFrames ignoredAcs).driverReleaseTids = 0) :
    deliverResponse env sta nFrames ignoredAcs reason =
      nullAnswer env (gathered sta nFrames ignoredAcs) ignoredAcs reason := by
  rw [deliverResponse_eq, pickTids_eq_zero_iff.mpr htids, if_pos (by simp [hframes])]

theorem deliverResponse_software (hframes : (gathered sta nFrames ignoredAcs).frames ≠ [])
    (htids : (gathered sta nFrames ignoredAcs).driverReleaseTids = 0) :
    deliverResponse env sta nFrames ignoredAcs reason =
      softwareAnswer env (gathered sta nFrames ignoredAcs) reason (moreAfter sta nFrames ignoredAcs reason) := by
  rw [deliverResponse_eq, pickTids_eq_zero_iff.mpr htids, if_neg (by simp [hframes]), if_pos rfl]

theorem deliverResponse_driver (htids : (gathered sta nFrames ignoredAcs).driverReleaseTids ≠ 0) :
    deliverResponse env sta nFrames ignoredAcs reason =
      driverAnswer env (gathered sta nFrames ignoredAcs) nFrames
        (pickTids (gathered sta nFrames ignoredAcs).driverReleaseTids reason)
        (moreAfter sta nFrames ignoredAcs reason) := by
  have hpick := mt (@pickTids_eq_zero_iff reason _).mp htids
  rw [deliverResponse_eq, if_neg (by simp [hpick]), if_neg hpick]

/-- The frames that are sent are those that were taken, and one that is sent leaves nothing to the driver. -/
theorem deliverResponse_frames (env : NullEnv) (sta : PsQueues) (nFrames : ℕ) (ignoredAcs : UInt8)
    (reason : ReleaseReason) :
    (deliverResponse env sta nFrames ignoredAcs reason).sta = (gathered sta nFrames ignoredAcs).sta ∧
    (deliverResponse env sta nFrames ignoredAcs reason).pending.map BufferedFrame.base =
      (gathered sta nFrames ignoredAcs).frames.map BufferedFrame.base ∧
    ((gathered sta nFrames ignoredAcs).frames ≠ [] →
      (deliverResponse env sta nFrames ignoredAcs reason).released = none) := by
  obtain ⟨taken, hg⟩ := gathered_spec sta nFrames ignoredAcs
  by_cases htids : (gathered sta nFrames ignoredAcs).driverReleaseTids = 0
  · rcases eq_nil_or_concat' (gathered sta nFrames ignoredAcs).frames with hnil | ⟨pre, last, hconcat⟩
    · rw [deliverResponse_null hnil htids, hnil]
      exact ⟨rfl, rfl, fun h => absurd rfl h⟩
    · rw [deliverResponse_software (by simp [hconcat]) htids, hconcat, softwareAnswer]
      refine ⟨rfl, ?_, fun _ => rfl⟩
      dsimp only
      rw [hconcat, (markLoop_concat pre {}).1]
      simp [base_respond, base_endSp]
  · rw [deliverResponse_driver htids, hg.excl.resolve_right htids]
    exact ⟨rfl, rfl, fun h => absurd rfl h⟩

/-- **Nothing is lost, and the order is kept.** -/
theorem deliverResponse_order (env : NullEnv) (sta : PsQueues) (nFrames : ℕ) (ignoredAcs : UInt8)
    (reason : ReleaseReason) : ∃ taken, SentInOrder (HeldUp taken) ignoredAcs sta taken
      (deliverResponse env sta nFrames ignoredAcs reason) := by
  obtain ⟨taken, hg⟩ := gathered_spec sta nFrames ignoredAcs
  obtain ⟨hsta, hsent, -⟩ := deliverResponse_frames env sta nFrames ignoredAcs reason
  refine ⟨taken, ?_, ?_, fun hi lo hlt husable hpos => ?_⟩
  · rw [hsta]
    exact ⟨hg.took.le, hg.took.filtered, hg.took.buffered, hg.took.driver, hg.took.txq, hg.took.wme⟩
  · rw [hsent, hg.frames, nil_append]
    rfl
  · have hall : ∀ hi lo : Ac, hi < lo → ([0, 1, 2, 3] : List Ac).Pairwise (fun a b => (a, b) ≠ (hi, lo)) → False := by
      decide
    rw [hsta]
    intro hheld
    refine hall hi lo hlt ((hg.first.and hg.driver).imp fun {a b} hab heq => ?_)
    cases heq
    rcases hheld with hsoft | ⟨hhard, hnone⟩
    · exact hsoft (hab.1 husable hpos)
    · rw [hg.took.hard] at hhard
      rcases hab.2 husable hpos with hzero | hframes | ⟨b, hb, hpos'⟩
      · exact hhard hzero
      · exact hframes rfl
      · exact hpos'.ne' (hnone b hb)

/-- The last frame ends the service period, or a null frame behind it. -/
theorem softwareAnswer_endsSp {g : Gather} {pre : List BufferedFrame} {last : BufferedFrame} {more : Bool}
    (hconcat : g.frames = pre ++ [last]) (hfresh : ∀ skb ∈ pre, skb.eosp = false)
    (hnull : last.hasQos = false → ∀ tid, ∃ null,
      sendNullResponse env g.sta tid .uapsd false = some null ∧ null.eosp = true) :
    EndsSp (softwareAnswer env g .uapsd more) := by
  obtain ⟨hpending, hneed⟩ := @markLoop_concat last .uapsd more pre {}
  have hpre : ∀ skb ∈ pre.map fun skb => skb.respond true, skb.eosp = false := by
    intro skb hskb
    obtain ⟨skb', hskb', rfl⟩ := mem_map.mp hskb
    rw [eosp_respond]
    exact hfresh skb' hskb'
  rw [EndsSp, softwareAnswer]
  dsimp only
  rw [hconcat, hpending, hneed]
  cases hqos : last.hasQos with
  | true =>
    refine ⟨pre.map fun skb => skb.respond true, (last.respond more).endSp .uapsd, by simp, ?_, hpre⟩
    exact eosp_endSp (hasQos_respond.trans hqos)
  | false =>
    obtain ⟨null, hsome, heosp⟩ := hnull hqos
      (findHighestPrioTid (markLoop .uapsd more (pre ++ [last]) {}).tids.toUInt64)
    refine ⟨(pre.map fun skb => skb.respond true) ++ [(last.respond more).endSp .uapsd], null, by simp [hsome],
      heosp, fun skb hskb => ?_⟩
    rcases mem_append.mp hskb with hskb | hskb
    · exact hpre skb hskb
    · rw [mem_singleton.mp hskb]
      exact eosp_endSp_of_not_qos (hasQos_respond.trans hqos)

/-- **A service period that is answered from the queues has an end.** -/
theorem deliverResponse_endsSp (hreleased : (deliverResponse env sta nFrames ignoredAcs .uapsd).released = none)
    (hclean : ∀ ac, ∀ skb ∈ sta.soft ac, skb.eosp = false) (hnull : env.canSend sta = true ∨
      ∃ last ∈ (deliverResponse env sta nFrames ignoredAcs .uapsd).pending.getLast?, last.hasQos = true) :
    EndsSp (deliverResponse env sta nFrames ignoredAcs .uapsd) := by
  obtain ⟨taken, hg⟩ := gathered_spec sta nFrames ignoredAcs
  have hfresh : ∀ skb ∈ (gathered sta nFrames ignoredAcs).frames, skb.eosp = false := by
    intro skb hskb
    rw [hg.frames, nil_append, mem_flatMap] at hskb
    obtain ⟨ac, -, hskb⟩ := hskb
    exact hclean ac skb (mem_of_mem_take hskb)
  have hsend : env.canSend sta = true → ∀ tid, ∃ null,
      sendNullResponse env (gathered sta nFrames ignoredAcs).sta tid .uapsd false = some null ∧
        null.eosp = true := by
    intro hcan tid
    rw [NullEnv.canSend, Bool.and_eq_true] at hcan
    exact ⟨_, if_pos hcan.1, eosp_nullFrame tid (hg.took.wme.trans hcan.2)⟩
  by_cases htids : (gathered sta nFrames ignoredAcs).driverReleaseTids = 0
  swap
  · rw [deliverResponse_driver htids] at hreleased
    cases hreleased
  rcases eq_nil_or_concat' (gathered sta nFrames ignoredAcs).frames with hnil | ⟨pre, last, hconcat⟩
  · rw [deliverResponse_null hnil htids, nullAnswer] at hnull ⊢
    have hcan : env.canSend sta = true := hnull.resolve_right (by simp)
    obtain ⟨null, hsome, heosp⟩ := hsend hcan (7 - 2 * firstAc ignoredAcs)
    refine ⟨[], null, ?_, heosp, fun skb h => absurd h not_mem_nil⟩
    dsimp only
    rw [hsome]
    rfl
  · rw [deliverResponse_software (by simp [hconcat]) htids] at hnull ⊢
    refine softwareAnswer_endsSp hconcat (fun skb hskb => hfresh skb ?_) fun hqos => hsend (hnull.resolve_right ?_)
    · rw [hconcat]
      exact mem_append_left _ hskb
    · rintro ⟨skb, hskb, hq⟩
      rw [softwareAnswer] at hskb
      dsimp only at hskb
      rw [hconcat, (markLoop_concat pre {}).1, getLast?_concat] at hskb
      rw [← Option.some.inj hskb, hasQos_endSp, hasQos_respond, hqos] at hq
      cases hq

/-- The one TID that is picked is of the highest access category there is. -/
theorem pickTids_highest : ∀ n < 256, ∀ hi lo : Ac, hi < lo →
    (1 <<< (findHighestPrioTid (UInt64.ofNat n)).toUInt64 : UInt64) &&& tidsForAc lo ≠ 0 →
      UInt64.ofNat n &&& tidsForAc hi = 0 := by
  decide +kernel

/-- **The driver is not asked for frames of an access category while there are frames in the queues
of a higher one**, or frames in the driver that it is not asked for. -/
theorem deliverResponse_released {k : ℕ} {more : Bool}
    (h : (deliverResponse env sta nFrames ignoredAcs reason).released = some (tids, k, more)) {hi lo : Ac}
    (hlt : hi < lo) (husable : usable ignoredAcs hi) (hlo : tids &&& tidsForAc lo ≠ 0) :
    (deliverResponse env sta nFrames ignoredAcs reason).sta.soft hi = [] ∧
    sta.hard hi &&& tids = sta.hard hi ∧ (reason = .pspoll → sta.hard hi = 0) := by
  have htids : (gathered sta nFrames ignoredAcs).driverReleaseTids ≠ 0 := by
    intro hzero
    by_cases hframes : (gathered sta nFrames ignoredAcs).frames = []
    · rw [deliverResponse_null hframes hzero] at h
      cases h
    · rw [deliverResponse_software hframes hzero] at h
      cases h
  rw [deliverResponse_driver htids] at h ⊢
  cases h
  have hfirst := getFrames_tids (by decide) (.inl rfl) (pickTids_and hlo)
  have hmem : ∀ ac : Ac, ac ∈ ([0, 1, 2, 3] : List Ac) := by decide
  obtain ⟨hsoft, hasked⟩ := hfirst.resolve_left (by simp) hi (hmem hi) hlt husable
  have hrange : (gathered sta nFrames ignoredAcs).driverReleaseTids &&& 0xff =
      (gathered sta nFrames ignoredAcs).driverReleaseTids := getFrames_range UInt64.zero_and
  change sta.hard hi &&& (gathered sta nFrames ignoredAcs).driverReleaseTids = sta.hard hi at hasked
  generalize (gathered sta nFrames ignoredAcs).driverReleaseTids = asked at hasked hrange htids hlo
  cases reason with
  | uapsd =>
    rw [pickTids, if_neg (by simp)]
    exact ⟨hsoft, hasked, fun h => by cases h⟩
  | pspoll =>
    -- the TID that is picked is the only one
    have hnone : sta.hard hi = 0 := by
      rw [pickTids, if_pos (by simpa using htids)] at hlo
      have hbound : asked.toNat < 256 := by
        rw [← hrange, UInt64.toNat_and]
        exact Nat.and_lt_two_pow (n := 8) _ (by decide)
      have hpick := pickTids_highest asked.toNat hbound hi lo hlt
      rw [UInt64.ofNat_toNat] at hpick
      have hself : sta.hard hi = sta.hard hi &&& tidsForAc hi := by
        rw [PsQueues.hard, UInt64.and_assoc, UInt64.and_self]
      rw [hself, ← hasked, UInt64.and_assoc, hpick hlo, UInt64.and_zero]
    refine ⟨hsoft, ?_, fun _ => hnone⟩
    rw [hnone, UInt64.zero_and]

end Answer

/-- **An answer loses nothing.** Of each access category the first frames are sent, filtered ones
first, the others are left. No lower one is served while there are frames in the queues, or in the
driver, except that frames from the queues go on once there are some, and that a service period asks
the driver for several at once. One that is answered from the queues ends with exactly one frame
that says so, if none in the queues did and a null frame can be sent where one is needed. -/
theorem deliverResponse_sound (env : NullEnv) (sta : PsQueues) (nFrames : ℕ) (ignoredAcs : UInt8)
    (reason : ReleaseReason) : (∃ taken, SentInOrder (HeldUp taken) ignoredAcs sta taken
      (deliverResponse env sta nFrames ignoredAcs reason)) ∧
    (∀ tids k more, (deliverResponse env sta nFrames ignoredAcs reason).released = some (tids, k, more) →
      ∀ hi lo, hi < lo → usable ignoredAcs hi → tids &&& tidsForAc lo ≠ 0 →
        (deliverResponse env sta nFrames ignoredAcs reason).sta.soft hi = [] ∧
        sta.hard hi &&& tids = sta.hard hi ∧ (reason = .pspoll → sta.hard hi = 0)) ∧
    ((deliverResponse env sta nFrames ignoredAcs reason).pending ≠ [] →
      (deliverResponse env sta nFrames ignoredAcs reason).released = none) ∧
    (deliverResponse env sta nFrames ignoredAcs reason).pending.length ≤ nFrames ∧
    (reason = .uapsd → (deliverResponse env sta nFrames ignoredAcs reason).released = none →
      (∀ ac, ∀ skb ∈ sta.soft ac, skb.eosp = false) →
      (env.canSend sta = true ∨
        ∃ last ∈ (deliverResponse env sta nFrames ignoredAcs reason).pending.getLast?, last.hasQos = true) →
      EndsSp (deliverResponse env sta nFrames ignoredAcs reason)) := by
  obtain ⟨taken, hg⟩ := gathered_spec sta nFrames ignoredAcs
  obtain ⟨-, hsent, hnone⟩ := deliverResponse_frames env sta nFrames ignoredAcs reason
  have hlen := congrArg List.length hsent
  rw [length_map, length_map] at hlen
  refine ⟨deliverResponse_order env sta nFrames ignoredAcs reason, ?_, fun hne => hnone fun hnil => ?_, ?_, ?_⟩
  · intro tids k more hreleased hi lo hlt husable hlo
    exact deliverResponse_released hreleased hlt husable hlo
  · rw [hnil, length_nil] at hlen
    exact hne (length_eq_zero_iff.mp hlen)
  · have hcount : (gathered sta nFrames ignoredAcs).frames.length + _ = 0 + nFrames := hg.count
    omega
  · rintro rfl hreleased hclean hnull
    exact deliverResponse_endsSp hreleased hclean hnull

/-! ### What goes wrong -/

/-- A QoS data frame, and a management frame that is buffered. -/
def qosDataFrame : BufferedFrame := { frameControl := FTYPE_DATA ||| STYPE_QOS_DATA }

def actionFrame : BufferedFrame := { frameControl := FTYPE_MGMT ||| STYPE_ACTION, priority := 7 }

/-- One frame of the highest access category and one of the third; the driver has frames of the second. -/
def mixedQueues : PsQueues where
  txFiltered := fun _ => []
  psTxBuf := ![[qosDataFrame], [], [qosDataFrame], []]
  driverBufferedTids := 0x20

/-- One management frame. -/
def actionQueued : PsQueues where
  txFiltered := fun _ => []
  psTxBuf := ![[actionFrame], [], [], []]

/-- **An access category waits for a lower one**, since the driver has its frames; **a service
period does not end**, without memory for the null frame. -/
theorem lower_priority_first :
    ¬ DeliversRight mixedQueues 2 0 .uapsd (deliverResponse {} mixedQueues 2 0 .uapsd) ∧
    (deliverResponse {} mixedQueues 2 0 .uapsd).pending.length = 2 ∧ mixedQueues.hard 1 ≠ 0 ∧
    ¬ DeliversRight actionQueued 2 0 .uapsd (deliverResponse { alloc := false } actionQueued 2 0 .uapsd) ∧
    ¬ EndsSp (deliverResponse { alloc := false } actionQueued 2 0 .uapsd) := by
  have hboth : (deliverResponse {} mixedQueues 2 0 .uapsd).sta.soft 2 = [] := by decide +kernel
  have hhard : (deliverResponse {} mixedQueues 2 0 .uapsd).sta.hard 1 ≠ 0 := by decide +kernel
  have hends : ¬ EndsSp (deliverResponse { alloc := false } actionQueued 2 0 .uapsd) := by
    rintro ⟨pre, last, hsent, heosp, -⟩
    have hall : ((deliverResponse { alloc := false } actionQueued 2 0 .uapsd).pending ++
        (deliverResponse { alloc := false } actionQueued 2 0 .uapsd).null.toList).all
          (fun skb => !skb.eosp) = true := by decide +kernel
    rw [hsent] at hall
    simp [heosp] at hall
  refine ⟨fun h => ?_, by decide +kernel, by decide +kernel, fun h => hends (h.ends rfl (by decide +kernel)), hends⟩
  obtain ⟨taken, horder⟩ := h.order
  have htaken : 0 < taken 2 := by
    by_contra hzero
    have hsoft := horder.took.soft 2
    rw [Nat.eq_zero_of_not_pos hzero, hboth, drop_zero] at hsoft
    revert hsoft
    decide +kernel
  exact horder.first 1 2 (by decide) (by decide) htaken (.inr hhard)

end Mac80211
