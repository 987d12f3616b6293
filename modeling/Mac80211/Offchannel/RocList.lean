import Mac80211.Offchannel.RocHistory

/-!
# The remain-on-channel list stays in order

The started requests are at the front of `roc_list`, and run together only for one interface and one
channel. The exception is a request that joins several which the driver was asked for, before it is
on the channel: it goes in behind the first of them without being started, and the others are not
reached.

## Main definitions

* `RocInv`, `NoSplit`

## Main results

* `rocOk_of_reach`
-/

namespace Mac80211

open List

theorem RocWork.Together.symm {a b : RocWork} (h : a.Together b) : b.Together a :=
  ⟨h.1.symm, h.2.symm⟩

theorem RocWork.Together.trans {a b c : RocWork} (h : a.Together b) (h' : b.Together c) :
    a.Together c :=
  ⟨h.1.trans h'.1, h.2.trans h'.2⟩

/-- Started requests are in front of the others, and are for one interface and one channel. -/
def RocOrder (l : List RocWork) : Prop :=
  l.Pairwise fun a b => b.started = true → a.started = true ∧ a.Together b

/-- The list is in order, and only started requests have begun. -/
structure RocQueue (l : List RocWork) : Prop where
  order : RocOrder l
  begun : ∀ roc ∈ l, roc.notified = true → roc.started = true

namespace RocQueue

variable {l l' a b : List RocWork} {roc : RocWork}

theorem nil : RocQueue [] := ⟨.nil, fun _ h => by cases h⟩

theorem cons_iff : RocQueue (roc :: l) ↔
    (∀ t ∈ l, t.started = true → roc.started = true ∧ roc.Together t) ∧
      (roc.notified = true → roc.started = true) ∧ RocQueue l := by
  constructor
  · rintro ⟨ho, hb⟩
    rw [RocOrder, pairwise_cons] at ho
    exact ⟨ho.1, hb roc mem_cons_self, ho.2, fun t ht => hb t (mem_cons_of_mem roc ht)⟩
  · rintro ⟨hroc, hn, hl⟩
    refine ⟨pairwise_cons.2 ⟨hroc, hl.order⟩, fun t ht => ?_⟩
    rcases mem_cons.1 ht with rfl | ht
    · exact hn
    · exact hl.begun t ht

theorem sublist (h : RocQueue l) (hs : l'.Sublist l) : RocQueue l' :=
  ⟨h.order.sublist hs, fun t ht => h.begun t (hs.subset ht)⟩

theorem not_started (h : RocQueue (roc :: l)) (hroc : roc.started = false) :
    ∀ t ∈ roc :: l, t.started = false := by
  intro t ht
  rcases mem_cons.1 ht with rfl | ht
  · exact hroc
  · by_contra hs
    have := ((cons_iff.1 h).1 t ht (by simpa using hs)).1
    rw [hroc] at this
    cases this

theorem of_not_started (h : ∀ t ∈ l, t.started = false ∧ t.notified = false) : RocQueue l := by
  refine ⟨pairwise_of_forall_mem_list fun a _ b hb hs => ?_, fun t ht hn => ?_⟩
  · rw [(h b hb).1] at hs
    cases hs
  · rw [(h t ht).2] at hn
    cases hn

/-- A request that is not started goes in, in front of others that are not. -/
theorem insert (h : RocQueue (a ++ b)) (hroc : roc.started = false ∧ roc.notified = false)
    (hb : ∀ t ∈ b, t.started = false) : RocQueue (a ++ roc :: b) := by
  induction a with
  | nil =>
    refine cons_iff.2 ⟨fun t ht hs => ?_, fun hn => ?_, h⟩
    · rw [hb t ht] at hs
      cases hs
    · rw [hroc.2] at hn
      cases hn
  | cons u a ih =>
    rw [cons_append, cons_iff] at h ⊢
    refine ⟨fun t ht hs => ?_, h.2.1, ih h.2.2⟩
    have ht : t = roc ∨ t ∈ a ++ b := by
      simp only [mem_append, mem_cons] at ht ⊢
      tauto
    rcases ht with rfl | ht
    · rw [hroc.1] at hs
      cases hs
    · exact h.1 t ht hs

end RocQueue

/-- A request that changes, but not in what the order of the list depends on. -/
structure RocWork.Alike (roc roc' : RocWork) : Prop where
  started : roc'.started = roc.started
  together : roc'.Together roc
  begun : (roc.notified = true → roc.started = true) → roc'.notified = true → roc'.started = true

theorem RocWork.Alike.refl (roc : RocWork) : roc.Alike roc := ⟨rfl, ⟨rfl, rfl⟩, fun h => h⟩

theorem RocWork.Alike.exists_mem {l l' : List RocWork} (h : List.Forall₂ RocWork.Alike l l') :
    ∀ roc' ∈ l', ∃ roc ∈ l, roc.Alike roc' := by
  induction h with
  | nil => exact fun _ h => by cases h
  | @cons roc roc' l l' ha _ ih =>
    intro t ht
    rcases mem_cons.1 ht with rfl | ht
    · exact ⟨roc, mem_cons_self, ha⟩
    · obtain ⟨u, hu, hut⟩ := ih t ht
      exact ⟨u, mem_cons_of_mem roc hu, hut⟩

/-- The order of a list does not change when each of its requests stays alike. -/
theorem RocQueue.alike {l l' : List RocWork} (h : List.Forall₂ RocWork.Alike l l') :
    RocQueue l → RocQueue l' := by
  induction h with
  | nil => exact fun h => h
  | @cons roc roc' l l' ha hl ih =>
    intro hq
    obtain ⟨hroc, hn, hq⟩ := cons_iff.1 hq
    refine cons_iff.2 ⟨fun t' ht' hs => ?_, ha.begun hn, ih hq⟩
    obtain ⟨t, ht, hat⟩ := RocWork.Alike.exists_mem hl t' ht'
    rw [hat.started] at hs
    obtain ⟨hstarted, htog⟩ := hroc t ht hs
    exact ⟨ha.started.trans hstarted, (ha.together.trans htog).trans hat.together.symm⟩

theorem RocQueue.map {l : List RocWork} {f : RocWork → RocWork}
    (hf : ∀ roc, RocWork.Alike roc (f roc)) (h : RocQueue l) : RocQueue (l.map f) :=
  h.alike (List.forall₂_map_right_iff.2 (List.forall₂_same.2 fun roc _ => hf roc))

/-! ### The walks -/

theorem handleRocStarted_together (startTime : UInt64) (roc : RocWork) :
    (handleRocStarted startTime roc).1.Together roc := by
  rw [handleRocStarted]
  split
  · exact ⟨rfl, rfl⟩
  · dsimp only
    split
    · split <;> exact ⟨rfl, rfl⟩
    · exact ⟨rfl, rfl⟩

variable {roc : RocWork}

theorem handleRocStarted_started (startTime : UInt64) (h : roc.notified = false) :
    (handleRocStarted startTime roc).1.started = true := by
  rw [handleRocStarted, if_neg (by rw [h]; exact Bool.false_ne_true)]
  dsimp only
  split
  · split <;> rfl
  · rfl

theorem handleRocStarted_of_started (startTime : UInt64) (h : roc.started = true) :
    (handleRocStarted startTime roc).1.started = true := by
  by_cases hn : roc.notified = true
  · rw [handleRocStarted, if_pos hn]
    exact h
  · exact handleRocStarted_started startTime (by simpa using hn)

/-- `ieee80211_end_finished_rocs` takes started requests off the list. -/
theorem endFinishedRocs_walk (cfg : RocConfig) (now : UInt64) : ∀ l : List RocWork,
    RocWalk l (endFinishedRocs cfg now l).1 (endFinishedRocs cfg now l).2.1 ∧
      (endFinishedRocs cfg now l).1.Sublist l
  | [] => ⟨.nil, .refl _⟩
  | roc :: l => by
    obtain ⟨hw, hs⟩ := endFinishedRocs_walk cfg now l
    rw [endFinishedRocs]
    split
    · exact ⟨.refl _, .refl _⟩
    · dsimp only
      split
      · exact ⟨hw.drop (q := []) (fun _ h => by cases h), hs.cons roc⟩
      · exact ⟨hw.keep (.refl roc), hs.cons_cons roc⟩

/-- `ieee80211_hw_roc_start` changes none of what the order depends on. -/
theorem hwRocStartLoop_walk (startTime : UInt64) : ∀ l : List RocWork,
    RocWalk l (hwRocStartLoop startTime l).1 (hwRocStartLoop startTime l).2 ∧
      List.Forall₂ RocWork.Alike l (hwRocStartLoop startTime l).1
  | [] => ⟨.nil, .nil⟩
  | roc :: l => by
    obtain ⟨hw, ha⟩ := hwRocStartLoop_walk startTime l
    rw [hwRocStartLoop]
    split
    · exact ⟨.refl _, List.forall₂_same.2 fun t _ => .refl t⟩
    · rename_i hs
      have hs : roc.started = true := by simpa using hs
      have hbegun : roc.Becomes { roc with hwBegun := true } [] := .of_eq rfl rfl fun h => h
      have hstarted := handleRocStarted_of_started startTime
        (show ({ roc with hwBegun := true } : RocWork).started = true from hs)
      refine ⟨hw.keep (hbegun.trans (becomes_handleRocStarted startTime _)), .cons ?_ ha⟩
      exact ⟨hstarted.trans hs.symm, handleRocStarted_together startTime _, fun _ _ => hstarted⟩

variable {f : RocWork → RocWork × List RocOut}

theorem updateGroup_walk (first : RocWork)
    (hf : ∀ roc, RocWork.Becomes roc (f roc).1 (f roc).2) : ∀ l : List RocWork,
    RocWalk l (updateGroup first f l).1 (updateGroup first f l).2
  | [] => .nil
  | roc :: l => by
    rw [updateGroup]
    split
    · exact .refl _
    · exact (updateGroup_walk first hf l).keep (hf roc)

theorem updateGroup_queue (first : RocWork) (htog : ∀ roc, RocWork.Together (f roc).1 roc)
    (hstart : ∀ roc, RocWork.notified roc = false → (f roc).1.started = true) : ∀ l : List RocWork,
    (∀ t ∈ l, t.started = false ∧ t.notified = false) → RocQueue (updateGroup first f l).1 ∧
      ∀ t ∈ (updateGroup first f l).1, t.started = true → t.Together first
  | [], _ => ⟨.nil, fun _ h => by cases h⟩
  | roc :: l, h => by
    have hl : ∀ t ∈ l, t.started = false ∧ t.notified = false := fun t ht =>
      h t (mem_cons_of_mem roc ht)
    obtain ⟨hq, hg⟩ := updateGroup_queue first htog hstart l hl
    rw [updateGroup]
    split
    · refine ⟨.of_not_started h, fun t ht hs => ?_⟩
      rw [(h t ht).1] at hs
      cases hs
    · rename_i hroc
      have hfirst : (f roc).1.Together first := (htog roc).trans (not_not.1 hroc)
      have hs : (f roc).1.started = true := hstart roc (h roc mem_cons_self).2
      refine ⟨RocQueue.cons_iff.2 ⟨fun t ht hst => ⟨hs, hfirst.trans (hg t ht hst).symm⟩,
        fun _ => hs, hq⟩, fun t ht hst => ?_⟩
      rcases mem_cons.1 ht with rfl | ht
      · exact hfirst
      · exact hg t ht hst

theorem updateGroup_map_id (first : RocWork)
    (hf : ∀ roc, (f roc).1.id = roc.id) : ∀ l : List RocWork,
    (updateGroup first f l).1.map RocWork.id = l.map RocWork.id
  | [] => rfl
  | roc :: l => by
    rw [updateGroup]
    split
    · rfl
    · dsimp only
      rw [map_cons, map_cons, hf, updateGroup_map_id first hf l]

theorem startNextRoc'_map_id (cfg : RocConfig) (env : RocEnv) (s : RocLocal) :
    (s.startNextRoc' cfg env).1.rocList.map RocWork.id = s.rocList.map RocWork.id ∧
      (s.startNextRoc' cfg env).1.nextId = s.nextId := by
  rw [RocLocal.startNextRoc']
  split
  · exact ⟨rfl, rfl⟩
  · rename_i roc _ _
    split
    · exact ⟨rfl, rfl⟩
    · split
      · dsimp only
        split
        · exact ⟨updateGroup_map_id _ (fun _ => rfl) _, rfl⟩
        · exact ⟨updateGroup_map_id _ (fun _ => rfl) _, rfl⟩
      · have hid (t : RocWork) := (becomes_handleRocStarted env.now
          { t with onChannel := env.operating roc.chan }).id
        exact ⟨updateGroup_map_id _ hid _, rfl⟩

theorem startNextRoc_map_id (cfg : RocConfig) (env : RocEnv) (s : RocLocal) :
    (s.startNextRoc cfg env).1.rocList.map RocWork.id = s.rocList.map RocWork.id ∧
      (s.startNextRoc cfg env).1.nextId = s.nextId := by
  rw [RocLocal.startNextRoc]
  split
  · exact ⟨rfl, rfl⟩
  · split
    · exact ⟨rfl, rfl⟩
    · split
      · exact startNextRoc'_map_id cfg env s
      · exact ⟨rfl, rfl⟩

/-- `ieee80211_cancel_roc` takes the started requests at the front off the list. -/
theorem dropStarted_walk : ∀ l : List RocWork, RocWalk l (l.dropWhile RocWork.started)
    ((l.takeWhile RocWork.started).flatMap rocNotifyDestroy)
  | [] => .nil
  | roc :: l => by
    by_cases hs : roc.started = true
    · rw [dropWhile_cons_of_pos hs, takeWhile_cons_of_pos hs, flatMap_cons]
      exact (dropStarted_walk l).drop (q := []) fun _ h => by cases h
    · rw [dropWhile_cons_of_neg hs, takeWhile_cons_of_neg hs]
      exact .refl _

theorem RocQueue.not_started_of_mem_dropWhile : ∀ {l : List RocWork}, RocQueue l →
    ∀ t ∈ l.dropWhile RocWork.started, t.started = false
  | [], _, _, ht => by cases ht
  | roc :: l, h, t, ht => by
    by_cases hs : roc.started = true
    · rw [dropWhile_cons_of_pos hs] at ht
      exact not_started_of_mem_dropWhile (cons_iff.1 h).2.2 t ht
    · rw [dropWhile_cons_of_neg hs] at ht
      exact h.not_started (by simpa using hs) t ht

theorem abort_if (p : RocWork → Prop) [DecidablePred p] (roc : RocWork) :
    roc.Becomes (if p roc then { roc with abort := true } else roc) [] ∧
      roc.Alike (if p roc then { roc with abort := true } else roc) := by
  split
  · exact ⟨.of_eq rfl rfl fun _ => rfl, ⟨rfl, ⟨rfl, rfl⟩, fun h => h⟩⟩
  · exact ⟨.refl roc, .refl roc⟩

theorem map_walk (f : RocWork → RocWork) (hf : ∀ roc, RocWork.Becomes roc (f roc) []) :
    ∀ l : List RocWork, RocWalk l (l.map f) []
  | [] => .nil
  | roc :: l => (map_walk f hf l).keep (hf roc)

/-- `ieee80211_roc_purge` takes requests off the list, and asks the driver to leave the channel. -/
theorem purge_walk (gone : RocWork → Bool) (ask : RocWork → List RocOut)
    (hask : ∀ roc, ∀ x ∈ ask roc, x.Silent) (f : RocWork → RocWork)
    (hf : ∀ roc, RocWork.Becomes roc (f roc) []) : ∀ l : List RocWork,
    RocWalk l ((l.filter fun roc => !gone roc).map f)
      ((l.filter gone).flatMap fun roc => ask roc ++ rocNotifyDestroy roc)
  | [] => .nil
  | roc :: l => by
    have ih := purge_walk gone ask hask f hf l
    by_cases hg : gone roc = true
    · rw [filter_cons_of_neg (by simpa using hg), filter_cons_of_pos hg, flatMap_cons]
      exact ih.drop (hask roc)
    · rw [filter_cons_of_pos (by simpa using hg), filter_cons_of_neg hg, map_cons]
      exact ih.keep (hf roc)

/-! ### The invariant -/

/-- The list is in order, and the history fits it. -/
structure RocInv (cfg : RocConfig) (l : List RocWork) (n : ℕ) (os : List RocOut) : Prop where
  queue : RocQueue l
  history : RocHistory cfg l n os

namespace RocInv

variable {cfg : RocConfig} {s : RocLocal} {l l' : List RocWork} {n : ℕ} {os o : List RocOut}

theorem walk (h : RocInv cfg l n os) (hw : RocWalk l l' o) (hq : RocQueue l') :
    RocInv cfg l' n (os ++ o) :=
  ⟨hq, RocHistory.walk (a := []) hw h.history⟩

theorem silent (h : RocInv cfg l n os) (ho : ∀ x ∈ o, x.Silent) : RocInv cfg l n (os ++ o) :=
  ⟨h.queue, h.history.silent ho⟩

theorem endFinishedRocs (h : RocInv cfg l n os) (now : UInt64) :
    RocInv cfg (endFinishedRocs cfg now l).1 n (os ++ (Mac80211.endFinishedRocs cfg now l).2.1) :=
  h.walk (endFinishedRocs_walk cfg now l).1 (h.queue.sublist (endFinishedRocs_walk cfg now l).2)

theorem runHwRocStart (h : RocInv cfg s.rocList s.nextId os) :
    RocInv cfg s.runHwRocStart.1.rocList s.runHwRocStart.1.nextId (os ++ s.runHwRocStart.2) :=
  h.walk (hwRocStartLoop_walk s.hwRocStartTime s.rocList).1
    (h.queue.alike (hwRocStartLoop_walk s.hwRocStartTime s.rocList).2)

theorem startGroup (h : RocInv cfg l n os) (hl : ∀ t ∈ l, t.started = false) (first : RocWork)
    (hf : ∀ roc, RocWork.Becomes roc (f roc).1 (f roc).2)
    (htog : ∀ roc, RocWork.Together (f roc).1 roc)
    (hstart : ∀ roc, RocWork.notified roc = false → (f roc).1.started = true) :
    RocInv cfg (updateGroup first f l).1 n (os ++ (updateGroup first f l).2) := by
  refine h.walk (updateGroup_walk first hf l) (updateGroup_queue first htog hstart l ?_).1
  intro t ht
  refine ⟨hl t ht, ?_⟩
  by_contra hn
  have := h.queue.begun t ht (by simpa using hn)
  rw [hl t ht] at this
  cases this

theorem startNextRoc' (h : RocInv cfg s.rocList s.nextId os) (env : RocEnv) :
    RocInv cfg (s.startNextRoc' cfg env).1.rocList (s.startNextRoc' cfg env).1.nextId
      (os ++ (s.startNextRoc' cfg env).2) := by
  rw [RocLocal.startNextRoc']
  split
  · exact h.silent (by simp)
  · rename_i roc l hl
    split
    · exact h.silent (by simp)
    · rename_i hs
      rw [hl] at h
      have hns := h.queue.not_started (by simpa using hs)
      rw [hl]
      split
      · dsimp only
        have h' := h.silent (o := [RocOut.remain roc.sdata roc.chan
          ((rocGroup roc (roc :: l)).foldl (fun d t => max t.duration d) 0)
          ((rocGroup roc (roc :: l)).foldl (fun y t => max t.type y) 0)])
          (by simpa using silent_remain _ _ _ _)
        split
        · rw [append_cons]
          exact h'.startGroup hns roc (fun t => .of_eq rfl rfl fun _ => rfl) (fun _ => ⟨rfl, rfl⟩)
            fun _ _ => rfl
        · rw [append_cons]
          exact h'.startGroup hns roc (fun t => .of_eq rfl rfl fun h => h) (fun _ => ⟨rfl, rfl⟩)
            fun _ _ => rfl
      · dsimp only
        refine h.startGroup hns roc (fun t => ?_) (fun t => ?_) fun t ht => ?_
        · have hb : t.Becomes { t with onChannel := env.operating roc.chan } [] :=
            .of_eq rfl rfl fun h => h
          exact hb.trans (becomes_handleRocStarted env.now _)
        · exact (handleRocStarted_together env.now _).trans ⟨rfl, rfl⟩
        · exact handleRocStarted_started env.now ht

theorem startNextRoc (h : RocInv cfg s.rocList s.nextId os) (env : RocEnv) :
    RocInv cfg (s.startNextRoc cfg env).1.rocList (s.startNextRoc cfg env).1.nextId
      (os ++ (s.startNextRoc cfg env).2) := by
  rw [RocLocal.startNextRoc]
  split
  · exact h.silent (by simp)
  · split
    · exact h.silent (by simp)
    · split
      · exact h.startNextRoc' env
      · exact h.silent (by simp)

theorem recalcSwWork (h : RocInv cfg s.rocList s.nextId os) (env : RocEnv) :
    RocInv cfg (s.recalcSwWork cfg env).1.rocList (s.recalcSwWork cfg env).1.nextId
      (os ++ (s.recalcSwWork cfg env).2.1) := by
  rw [RocLocal.recalcSwWork]
  dsimp only
  split <;> exact h.endFinishedRocs env.now

theorem runRocWork (h : RocInv cfg s.rocList s.nextId os) (env : RocEnv) :
    RocInv cfg (s.runRocWork cfg env).1.rocList (s.runRocWork cfg env).1.nextId
      (os ++ (s.runRocWork cfg env).2) := by
  rw [RocLocal.runRocWork]
  split
  · exact h.silent (by simp)
  · split
    · exact h.silent (by simp)
    · split
      · exact h.startNextRoc' env
      · have hr := h.recalcSwWork env
        split
        · rename_i hw
          rw [hw] at hr
          exact hr
        · rename_i hw
          rw [hw] at hr
          dsimp only
          rw [← append_assoc]
          exact hr.startNextRoc env

theorem runHwRocDone (h : RocInv cfg s.rocList s.nextId os) (env : RocEnv) :
    RocInv cfg (s.runHwRocDone cfg env).1.rocList (s.runHwRocDone cfg env).1.nextId
      (os ++ (s.runHwRocDone cfg env).2) := by
  rw [RocLocal.runHwRocDone]
  dsimp only
  rw [← append_assoc]
  have he : RocInv cfg
      { s with rocList := (Mac80211.endFinishedRocs cfg env.now s.rocList).1, hwRocDone := false }.rocList
      s.nextId (os ++ (Mac80211.endFinishedRocs cfg env.now s.rocList).2.1) := h.endFinishedRocs env.now
  exact he.startNextRoc env

end RocInv

/-! ### A new request -/

/-- What becomes of a new request that is placed behind `tmp`. -/
def JoinsGroup (cfg : RocConfig) (now : UInt64) (roc : RocWork) (combine : Bool) (a : List RocWork)
    (tmp roc' : RocWork) : Prop :=
  tmp.started = false ∧ roc' = roc ∨
    tmp.started = true ∧ combine = true ∧ (∀ t ∈ a, ¬ t.Together roc) ∧ (roc'.started = true ∨
      (cfg.hwRoc = true ∧ tmp.hwBegun = false ∧ cfg.fits now roc tmp = true) ∧ roc' = roc)

theorem handleRocStarted_joins (now : UInt64) {roc roc' : RocWork} (hn : roc.notified = false)
    (hb : roc.Becomes roc' []) (ht : roc'.Together roc) (hn' : roc'.notified = roc.notified) :
    roc.Becomes (handleRocStarted now roc').1 (handleRocStarted now roc').2 ∧
      (handleRocStarted now roc').1.Together roc ∧ (handleRocStarted now roc').1.started = true :=
  ⟨hb.trans (becomes_handleRocStarted now roc'), (handleRocStarted_together now roc').trans ht,
    handleRocStarted_started now (hn'.trans hn)⟩

variable {cfg : RocConfig} {now : UInt64}

theorem coalesceHwStartedRoc_cases {roc cur roc' : RocWork}
    {out : List RocOut} (hn : roc.notified = false)
    (h : coalesceHwStartedRoc cfg now roc cur = some (roc', out)) :
    roc.Becomes roc' out ∧ roc'.Together roc ∧
      (roc'.started = true ∨ (cur.hwBegun = false ∧ cfg.fits now roc cur = true) ∧ roc' = roc) := by
  rw [coalesceHwStartedRoc] at h
  split at h
  · cases h
  · rename_i hfits
    split at h
    · have hbegun : roc.Becomes { roc with hwBegun := true } [] := .of_eq rfl rfl fun h => h
      obtain ⟨hb, ht, hs⟩ := handleRocStarted_joins now hn hbegun ⟨rfl, rfl⟩ rfl
      rw [Option.some.injEq] at h
      rw [h] at hb ht hs
      exact ⟨hb, ht, .inl hs⟩
    · rename_i hbegun
      cases h
      exact ⟨.refl roc, ⟨rfl, rfl⟩, .inr ⟨⟨by simpa using hbegun, by simpa using hfits⟩, rfl⟩⟩

/-- Where `ieee80211_start_roc_work` puts a request, and what becomes of it. -/
theorem placeRoc_cases (hn : roc.notified = false) :
    ∀ {l l' : List RocWork} {out : List RocOut} {sw combine : Bool},
    placeRoc cfg now roc combine l = some (l', out, sw) → ∃ a tmp b roc', l = a ++ tmp :: b ∧
      l' = a ++ tmp :: roc' :: b ∧ tmp.Together roc ∧ roc.Becomes roc' out ∧ roc'.Together roc ∧
      JoinsGroup cfg now roc combine a tmp roc'
  | [], _, _, _, _, h => by cases h
  | tmp :: rest, l', out, sw, combine, h => by
    have hskip (c : Bool) (hc : c = true → combine = true ∧ ¬ tmp.Together roc)
        (h : ((placeRoc cfg now roc c rest).map fun r => (tmp :: r.1, r.2.1, r.2.2)) =
          some (l', out, sw)) : ∃ a u b roc', tmp :: rest = a ++ u :: b ∧
          l' = a ++ u :: roc' :: b ∧ u.Together roc ∧ roc.Becomes roc' out ∧ roc'.Together roc ∧
          JoinsGroup cfg now roc combine a u roc' := by
      obtain ⟨⟨l₁, out₁, sw₁⟩, hp, heq⟩ := Option.map_eq_some_iff.1 h
      cases heq
      obtain ⟨a, u, b, roc', rfl, rfl, hu, hb, ht, hj⟩ := placeRoc_cases hn hp
      refine ⟨tmp :: a, u, b, roc', rfl, rfl, hu, hb, ht, hj.imp_right ?_⟩
      rintro ⟨hs, rfl, ha, hj⟩
      obtain ⟨hcombine, htmp⟩ := hc rfl
      exact ⟨hs, hcombine, forall_mem_cons.2 ⟨htmp, ha⟩, hj⟩
    have hhere {roc' : RocWork} (htmp : tmp.Together roc) (hl : tmp :: roc' :: rest = l')
        (hb : roc.Becomes roc' out) (ht : roc'.Together roc)
        (hj : JoinsGroup cfg now roc combine [] tmp roc') :
        ∃ a u b roc', tmp :: rest = a ++ u :: b ∧ l' = a ++ u :: roc' :: b ∧ u.Together roc ∧
          roc.Becomes roc' out ∧ roc'.Together roc ∧ JoinsGroup cfg now roc combine a u roc' :=
      ⟨[], tmp, rest, roc', rfl, hl.symm, htmp, hb, ht, hj⟩
    have hnone : ∀ t ∈ ([] : List RocWork), ¬ t.Together roc := fun _ ht => by cases ht
    rw [placeRoc] at h
    dsimp only at h
    by_cases htmp : tmp.Together roc
    · rw [if_neg (not_not.2 htmp)] at h
      by_cases hs : tmp.started = true
      · rw [if_neg (by simpa using hs)] at h
        cases combine with
        | false => exact hskip false (fun hc => by cases hc) h
        | true =>
          rw [if_neg (by simp)] at h
          split at h
          · split at h
            · exact hskip false (fun hc => by cases hc) h
            · have hchan : roc.Becomes { roc with onChannel := tmp.onChannel } [] :=
                .of_eq rfl rfl fun h => h
              obtain ⟨hb, ht, hst⟩ := handleRocStarted_joins now hn hchan ⟨rfl, rfl⟩ rfl
              simp only [Option.some.injEq, Prod.mk.injEq] at h
              obtain ⟨hl, ho, -⟩ := h
              exact hhere htmp hl (ho ▸ hb) ht (.inr ⟨hs, rfl, hnone, .inl hst⟩)
          · rename_i hhw
            split at h
            · rename_i roc' out' hco
              obtain ⟨hl, rfl, -⟩ : tmp :: roc' :: rest = l' ∧ out' = out ∧ false = sw := by
                simpa using h
              obtain ⟨hb, ht, hj⟩ := coalesceHwStartedRoc_cases hn hco
              refine hhere htmp hl hb ht (.inr ⟨hs, rfl, hnone, hj.imp_right ?_⟩)
              rintro ⟨⟨hbegun, hfits⟩, heq⟩
              exact ⟨⟨by simpa using hhw, hbegun, hfits⟩, heq⟩
            · exact hskip false (fun hc => by cases hc) h
      · rw [if_pos (by simpa using hs)] at h
        obtain ⟨hl, rfl, -⟩ : tmp :: roc :: rest = l' ∧ [] = out ∧ false = sw := by simpa using h
        exact hhere htmp hl (.refl roc) ⟨rfl, rfl⟩ (.inl ⟨by simpa using hs, rfl⟩)
    · rw [if_pos htmp] at h
      exact hskip combine (fun hc => ⟨hc, htmp⟩) h

/-- The driver was asked for two requests and is not on the channel yet, and the new one fits into
what is left of the first. -/
def SplitsStarted (cfg : RocConfig) (env : RocEnv) (s : RocLocal) (req : RocRequest) : Prop :=
  match s.rocList with
  | cur :: next :: _ =>
    env.alloc = true ∧ cfg.hwRoc = true ∧ cur.started = true ∧ next.started = true ∧
      cur.hwBegun = false ∧ cur.Together (s.newRoc req) ∧ cfg.fits env.now (s.newRoc req) cur = true
  | _ => False

instance (cfg : RocConfig) (env : RocEnv) (s : RocLocal) (req : RocRequest) :
    Decidable (SplitsStarted cfg env s req) :=
  match h : s.rocList with
  | [] => isFalse (by simp [SplitsStarted, h])
  | [_] => isFalse (by simp [SplitsStarted, h])
  | cur :: next :: _ =>
    decidable_of_iff (env.alloc = true ∧ cfg.hwRoc = true ∧ cur.started = true ∧
      next.started = true ∧ cur.hwBegun = false ∧ cur.Together (s.newRoc req) ∧
      cfg.fits env.now (s.newRoc req) cur = true) (by simp [SplitsStarted, h])

namespace RocInv

variable {cfg : RocConfig} {s : RocLocal} {l l' : List RocWork} {n : ℕ} {os o : List RocOut}

theorem append (h : RocInv cfg l n os) (hid : roc.id = n)
    (hroc : roc.started = false ∧ roc.notified = false) :
    RocInv cfg (l ++ [roc]) (n + 1) (os ++ [.accepted roc.id]) := by
  have hl : l ++ [] = l := append_nil l
  exact ⟨RocQueue.insert (hl.symm ▸ h.queue) hroc (fun _ ht => by cases ht),
    RocHistory.insert (hl.symm ▸ h.history) hid⟩

theorem place {sw : Bool} (h : RocInv cfg l n os) (hid : roc.id = n)
    (hroc : roc.started = false ∧ roc.notified = false)
    (hsplit : ∀ cur next rest, l = cur :: next :: rest → cfg.hwRoc = true → cur.started = true →
      cur.hwBegun = false → cur.Together roc → cfg.fits now roc cur = true → next.started = false)
    (hp : placeRoc cfg now roc true l = some (l', o, sw)) :
    RocInv cfg l' (n + 1) (os ++ .accepted roc.id :: o) := by
  obtain ⟨a, tmp, b, roc', rfl, rfl, htmp, hb, ht, hj⟩ := placeRoc_cases hroc.2 hp
  have htail : RocQueue (tmp :: b) := h.queue.sublist (sublist_append_right a _)
  have hsplice (t : RocWork) : a ++ tmp :: t :: b = (a ++ [tmp]) ++ t :: b := by simp
  have hl : a ++ tmp :: b = (a ++ [tmp]) ++ b := by simp
  refine ⟨?_, ?_⟩
  · rcases hj with ⟨hs, rfl⟩ | ⟨hs, -, ha, hj⟩
    · rw [hsplice]
      refine RocQueue.insert (hl ▸ h.queue) hroc fun t ht => ?_
      exact htail.not_started hs t (mem_cons_of_mem tmp ht)
    · -- nothing stands in front of a started request that it is not together with
      obtain rfl : a = [] := by
        cases a with
        | nil => rfl
        | cons u a =>
          have hu := (RocQueue.cons_iff.1 h.queue).1 tmp (by simp) hs
          exact absurd (hu.2.trans htmp) (ha u mem_cons_self)
      rw [nil_append]
      rcases hj with hs' | ⟨⟨hhw, hbegun, hfits⟩, rfl⟩
      · obtain ⟨htmp', hn, hq⟩ := RocQueue.cons_iff.1 htail
        refine RocQueue.cons_iff.2 ⟨fun t ht' hst => ?_, hn,
          RocQueue.cons_iff.2 ⟨fun t ht' hst => ?_, fun _ => hs', hq⟩⟩
        · rcases mem_cons.1 ht' with rfl | ht'
          · exact ⟨hs, htmp.trans ht.symm⟩
          · exact htmp' t ht' hst
        · exact ⟨hs', (ht.trans htmp.symm).trans (htmp' t ht' hst).2⟩
      · refine RocQueue.insert (a := [tmp]) htail hroc fun t ht => ?_
        cases b with
        | nil => cases ht
        | cons next rest =>
          have hnext := hsplit tmp next rest rfl hhw hs hbegun htmp hfits
          exact (RocQueue.cons_iff.1 htail).2.2.not_started hnext t ht
  · rw [hsplice, append_cons os]
    exact (RocHistory.insert (hl ▸ h.history) hid).becomes hb

theorem startRocWork (h : RocInv cfg s.rocList s.nextId os) (env : RocEnv) (req : RocRequest)
    (hsplit : ¬ SplitsStarted cfg env s req) :
    RocInv cfg (s.startRocWork cfg env req).1.rocList (s.startRocWork cfg env req).1.nextId
      (os ++ (s.startRocWork cfg env req).2) := by
  have hnew : (s.newRoc req).started = false ∧ (s.newRoc req).notified = false := ⟨rfl, rfl⟩
  rw [RocLocal.startRocWork]
  split
  · exact h.silent (by simp)
  · rename_i halloc
    have halloc : env.alloc = true := by
      simp only [Bool.or_eq_true, not_or] at halloc
      simpa using halloc.2
    have hplace {rocs : List RocWork} {out : List RocOut} {sw : Bool}
        (hp : placeRoc cfg env.now (s.newRoc req) true s.rocList = some (rocs, out, sw)) :
        RocInv cfg rocs (s.nextId + 1) (os ++ .accepted (s.newRoc req).id :: out) := by
      refine h.place rfl hnew (fun cur next rest hl hhw hs hbegun htog hfits => ?_) hp
      by_contra hnext
      rw [SplitsStarted, hl] at hsplit
      exact hsplit ⟨halloc, hhw, hs, by simpa using hnext, hbegun, htog, hfits⟩
    dsimp only
    split
    · rename_i hempty
      have hnil : s.rocList = [] := by
        rw [Bool.and_eq_true] at hempty
        exact isEmpty_iff.1 hempty.1
      have hask := h.silent (o := [RocOut.remain (s.newRoc req).sdata (s.newRoc req).chan
        (s.newRoc req).duration (s.newRoc req).type]) (by simpa using silent_remain _ _ _ _)
      split
      · rw [hnil] at h
        exact h.append rfl hnew
      · split
        · exact ⟨hask.queue, hask.history.skip⟩
        · rw [hnil] at hask
          refine ⟨RocQueue.cons_iff.2 ⟨fun _ ht => (by cases ht), fun _ => rfl, .nil⟩, ?_⟩
          rw [append_cons os]
          have hid : ({ s.newRoc req with started := true } : RocWork).id = s.nextId := rfl
          exact RocHistory.insert (a := []) (b := []) hask.history hid
    · split
      · exact h.append rfl hnew
      · rename_i hp
        exact hplace hp
      · rename_i rocs out hp
        have hr : RocInv cfg ({ s.took req with rocList := rocs } : RocLocal).rocList
            ({ s.took req with rocList := rocs } : RocLocal).nextId
            (os ++ .accepted (s.newRoc req).id :: out) := hplace hp
        dsimp only
        rw [← append_assoc]
        exact hr.recalcSwWork env

theorem destroy {found : RocWork} (h : RocInv cfg s.rocList s.nextId os) (hf : found ∈ s.rocList) :
    RocInv cfg (s.destroy found.id).rocList s.nextId (os ++ rocNotifyDestroy found) := by
  obtain ⟨a, b, hl⟩ := append_of_mem hf
  have hn := h.history.nodup
  rw [hl, map_append, map_cons, nodup_middle, nodup_cons, ← map_append] at hn
  have hne {t : RocWork} (ht : t ∈ a ++ b) : t.id ≠ found.id := fun hid =>
    hn.1 (hid ▸ mem_map_of_mem ht)
  have hdestroy : (s.destroy found.id).rocList = a ++ b := by
    rw [RocLocal.destroy, hl]
    dsimp only
    rw [filter_append, filter_cons_of_neg (by simp), ← filter_append]
    exact filter_eq_self.2 fun t ht => by simpa using hne ht
  rw [hdestroy]
  rw [hl] at h
  exact ⟨h.queue.sublist ((sublist_cons_self found b).append_left a), h.history.drop⟩

theorem dropStarted (h : RocInv cfg l n os) : RocInv cfg (l.dropWhile RocWork.started) n
      (os ++ (l.takeWhile RocWork.started).flatMap rocNotifyDestroy) :=
  h.walk (dropStarted_walk l) (h.queue.sublist (dropWhile_sublist _))

theorem notMem_dropStarted {found : RocWork} (h : RocInv cfg l n os) (hf : found ∈ l)
    (hs : found.started = true) : found.id ∉ (l.dropWhile RocWork.started).map RocWork.id := by
  have hf' : found ∈ l.takeWhile RocWork.started := by
    rw [← takeWhile_append_dropWhile (p := RocWork.started) (l := l), mem_append] at hf
    refine hf.resolve_right fun hd => ?_
    rw [h.queue.not_started_of_mem_dropWhile found hd] at hs
    cases hs
  have hn := h.history.nodup
  rw [← takeWhile_append_dropWhile (p := RocWork.started) (l := l), map_append,
    nodup_append] at hn
  exact fun hd => hn.2.2 found.id (mem_map_of_mem hf') found.id hd rfl

theorem cancelRoc' (h : RocInv cfg s.rocList s.nextId os) (env : RocEnv) (cookie : UInt64)
    (mgmtTx : Bool) : RocInv cfg (s.cancelRoc' cfg env cookie mgmtTx).1.rocList
      (s.cancelRoc' cfg env cookie mgmtTx).1.nextId
      (os ++ (s.cancelRoc' cfg env cookie mgmtTx).2) := by
  rw [RocLocal.cancelRoc']
  split
  · exact h.silent (by simp)
  · rename_i found hfound
    have hf : found ∈ s.rocList := mem_of_find?_eq_some hfound
    have hbound : found.id < s.nextId := h.history.bound found hf
    split
    · have hd := h.destroy hf
      rw [← append_assoc]
      refine ⟨hd.queue, hd.history.cancel hbound fun t ht hid => ?_⟩
      simp [RocLocal.destroy, hid] at ht
    · rename_i hs
      have hs : found.started = true := by simpa using hs
      split
      · split
        · exact h.silent (by simpa using silent_cancel)
        · dsimp only
          have hc := h.silent (o := [RocOut.cancel]) (by simpa using silent_cancel)
          have hd : RocInv cfg
              ({ s with rocList := s.rocList.dropWhile RocWork.started } : RocLocal).rocList s.nextId _ :=
            hc.dropStarted
          obtain ⟨hids, hnext⟩ := startNextRoc_map_id cfg env
            { s with rocList := s.rocList.dropWhile RocWork.started }
          have hn := hd.startNextRoc env
          have hbound : found.id < (RocLocal.startNextRoc cfg env
              { s with rocList := s.rocList.dropWhile RocWork.started }).1.nextId := by
            rw [hnext]
            exact hbound
          have hc := hn.history.cancel hbound fun t ht hid => by
            have ht := mem_map_of_mem (f := RocWork.id) ht
            rw [hids, hid] at ht
            exact absurd ht (h.notMem_dropStarted hf hs)
          refine ⟨hn.queue, ?_⟩
          simpa only [append_assoc, cons_append, nil_append] using hc
      · rename_i hsw
        dsimp only
        have hmark := abort_if fun roc => roc.id = found.id
        have hm := h.walk (map_walk _ (fun roc => (hmark roc).1) s.rocList)
          (h.queue.map fun roc => (hmark roc).2)
        rw [append_nil] at hm
        refine ⟨hm.queue, hm.history.cancel hbound fun t ht hid => ⟨by simpa using hsw, ?_⟩⟩
        obtain ⟨roc, -, rfl⟩ := mem_map.1 ht
        rw [← hid, (hmark roc).1.id, if_pos rfl]

theorem cancelRoc (h : RocInv cfg s.rocList s.nextId os) (env : RocEnv) (cookie : UInt64)
    (mgmtTx : Bool) : RocInv cfg (s.cancelRoc cfg env cookie mgmtTx).1.rocList
      (s.cancelRoc cfg env cookie mgmtTx).1.nextId
      (os ++ (s.cancelRoc cfg env cookie mgmtTx).2) := by
  rw [RocLocal.cancelRoc]
  split
  · exact h.silent (by simp)
  · dsimp only
    rw [← append_assoc]
    split
    · exact h.runHwRocStart.cancelRoc' env cookie mgmtTx
    · have hs := h.silent (o := []) (by simp)
      exact hs.cancelRoc' env cookie mgmtTx

theorem rocPurge (h : RocInv cfg s.rocList s.nextId os) (env : RocEnv) (sdata : Option ℕ) :
    RocInv cfg (s.rocPurge cfg env sdata).1.rocList (s.rocPurge cfg env sdata).1.nextId
      (os ++ (s.rocPurge cfg env sdata).2) := by
  rw [RocLocal.rocPurge]
  dsimp only
  have hmark := abort_if fun roc => (RocLocal.purges sdata roc && roc.started && !cfg.hwRoc) = true
  have hask (roc : RocWork) : ∀ x ∈ if roc.started then [RocOut.cancel] else [], x.Silent := by
    split
    · simpa using silent_cancel
    · exact fun _ h => by cases h
  have hw := purge_walk (fun roc => RocLocal.purges sdata roc && (!roc.started || cfg.hwRoc)) _ hask _
    (fun roc => (hmark roc).1) s.rocList
  have hp := h.walk hw ((h.queue.sublist filter_sublist).map fun roc => (hmark roc).2)
  split
  · rw [← append_assoc]
    exact RocInv.runRocWork (s := { s with rocList := _ }) hp env
  · exact hp

end RocInv

/-! ### Runs -/

theorem RocInv.of_some {s' : RocLocal} {os o : List RocOut}
    {p : RocLocal × List RocOut} (h : RocInv cfg p.1.rocList p.1.nextId (os ++ p.2))
    (hs : some p = some (s', o)) : RocInv cfg s'.rocList s'.nextId (os ++ o) := by
  cases hs
  exact h

/-- The condition on a step: a new request does not split the started ones. -/
def NoSplit (cfg : RocConfig) (s : RocLocal) (_ : List RocOut) : RocEvent → Prop
  | .start env req => ¬ SplitsStarted cfg env s req
  | _ => True

instance (cfg : RocConfig) (s : RocLocal) (os : List RocOut) :
    DecidablePred (NoSplit cfg s os) := fun e => by
  cases e
  case start env req => exact inferInstanceAs (Decidable (¬ SplitsStarted cfg env s req))
  all_goals exact instDecidableTrue

/-- Every event keeps the invariant, unless a new request splits the started ones. -/
theorem RocInv.step {s s' : RocLocal} {os o : List RocOut} {e : RocEvent}
    (h : RocInv cfg s.rocList s.nextId os) (he : NoSplit cfg s os e)
    (hs : rocStep cfg s e = some (s', o)) : RocInv cfg s'.rocList s'.nextId (os ++ o) := by
  have hquiet : RocInv cfg s.rocList s.nextId (os ++ []) := h.silent (by simp)
  cases e with
  | start env req => exact of_some (h.startRocWork env req he) hs
  | ready now =>
    exact of_some (p := ({ s with hwRocStartTime := now, hwRocStart := true }, [])) hquiet hs
  | expired => exact of_some (p := ({ s with hwRocDone := true }, [])) hquiet hs
  | hwRocStart =>
    rw [rocStep] at hs
    split at hs
    · exact of_some h.runHwRocStart hs
    · cases hs
  | hwRocDone env =>
    rw [rocStep] at hs
    split at hs
    · exact of_some (h.runHwRocDone env) hs
    · cases hs
  | rocWork env =>
    rw [rocStep] at hs
    split at hs
    · exact of_some (RocInv.runRocWork (s := { s with rocWork := false }) h env) hs
    · cases hs
  | next env => exact of_some (h.startNextRoc env) hs
  | cancel env cookie mgmtTx => exact of_some (h.cancelRoc env cookie mgmtTx) hs
  | purge env sdata => exact of_some (h.rocPurge env sdata) hs

/-- What is to hold of the list and of what was emitted. -/
structure RocOk (cfg : RocConfig) (s : RocLocal) (os : List RocOut) : Prop where
  /-- The started requests are at the front. -/
  front : s.rocList.filter RocWork.started <+: s.rocList
  /-- They are for one interface and one channel. -/
  together : ∀ a ∈ s.rocList, ∀ b ∈ s.rocList, a.started = true → b.started = true → a.Together b
  /-- A request whose cancellation succeeded is off the list, or aborted if the driver has no part in it. -/
  cancelled : ∀ id, .cancelled id ∈ os → ∀ roc ∈ s.rocList, roc.id = id →
    cfg.hwRoc = false ∧ roc.abort = true
  /-- A request begins at most once, and before it is over, which it is once. -/
  told : ∀ id, (noticesOf id os).Sublist [.begun, .expired]
  /-- An accepted request that is off the list is over. -/
  gone : ∀ id, .accepted id ∈ os → (∀ roc ∈ s.rocList, roc.id ≠ id) → .expired ∈ noticesOf id os

theorem RocQueue.filter_isPrefix : ∀ {l : List RocWork}, RocQueue l → l.filter RocWork.started <+: l
  | [], _ => prefix_rfl
  | roc :: l, h => by
    by_cases hs : roc.started = true
    · rw [filter_cons_of_pos hs, cons_prefix_cons]
      exact ⟨rfl, filter_isPrefix (cons_iff.1 h).2.2⟩
    · have hnil : (roc :: l).filter RocWork.started = [] :=
        filter_eq_nil_iff.2 fun t ht => by simp [h.not_started (by simpa using hs) t ht]
      rw [hnil]
      exact nil_prefix

theorem RocQueue.together : ∀ {l : List RocWork}, RocQueue l → ∀ a ∈ l, ∀ b ∈ l,
    a.started = true → b.started = true → a.Together b
  | roc :: l, h, a, ha, b, hb, has, hbs => by
    have htail := (cons_iff.1 h).1
    rcases mem_cons.1 ha with rfl | ha' <;> rcases mem_cons.1 hb with rfl | hb'
    · exact ⟨rfl, rfl⟩
    · exact (htail b hb' hbs).2
    · exact (htail a ha' has).2.symm
    · exact (cons_iff.1 h).2.2.together a ha' b hb' has hbs

theorem RocInv.rocOk {s : RocLocal} {os : List RocOut}
    (h : RocInv cfg s.rocList s.nextId os) : RocOk cfg s os where
  front := h.queue.filter_isPrefix
  together := h.queue.together
  cancelled := h.history.cancelled
  told := h.history.told
  gone := fun id hid hl => h.history.gone id hid fun hmem => by
    obtain ⟨roc, hroc, heq⟩ := mem_map.1 hmem
    exact hl roc hroc heq

/-- **The remain-on-channel list stays in order, and each request is told of rightly**, if no new
request goes in between two that are started. -/
theorem rocOk_of_reach {cfg : RocConfig} {s : RocLocal} {os : List RocOut}
    (hr : Machine.Reach (rocStep cfg) (NoSplit cfg) {} s os) : RocOk cfg s os := by
  have hinv : RocInv cfg s.rocList s.nextId os := by
    refine hr.invariant (fun s os => RocInv cfg s.rocList s.nextId os) ⟨.nil, .nil cfg⟩ ?_
    intro s os e s' o h he hs
    exact h.step he hs
  exact hinv.rocOk

/-- A device that stays on channels by itself, with a tick of one millisecond. -/
def hwRocConfig : RocConfig where
  hwRoc := true
  msecsToJiffies := fun d => UInt64.ofNat d
  jiffiesToMsecs := fun j => j.toNat % 2 ^ 32

/-- A request runs on one channel, and two wait for another one, until the driver leaves the first and is
asked for the second. -/
def rocTwoChannels : List RocEvent :=
  [.start { now := 1000000 } { sdata := 0, chan := 1, duration := 100 },
    .start { now := 1000001 } { sdata := 0, chan := 2, duration := 100 },
    .start { now := 1000002 } { sdata := 0, chan := 2, duration := 100 },
    .ready 1000010, .hwRocStart, .expired, .hwRocDone { now := 1000110 }]

theorem rocTwoChannels_in_order : ∃ s os,
    Machine.run (rocStep hwRocConfig) {} rocTwoChannels = some (s, os) ∧
      s.rocList.map RocWork.id = [1, 2] ∧ RocOk hwRocConfig s os := by
  have hids : (Machine.run (rocStep hwRocConfig) {} rocTwoChannels).map
      (fun p => p.1.rocList.map RocWork.id) = some [1, 2] := by decide +kernel
  have hmeets : Machine.Meets (rocStep hwRocConfig) (NoSplit hwRocConfig) {} [] rocTwoChannels := by
    decide +kernel
  obtain ⟨⟨s, os⟩, hrun, hs⟩ := Option.map_eq_some_iff.1 hids
  exact ⟨s, os, hrun, hs, rocOk_of_reach (.of_run .init hmeets hrun)⟩

/-- A third request comes before the driver is on the channel, and goes in between the two started
ones. The last one, cancelled, stays on the list. -/
theorem joined_group_is_split : ∃ s os, Machine.Reach (rocStep hwRocConfig) (fun _ _ _ => True) {} s os ∧
    ¬ s.rocList.filter RocWork.started <+: s.rocList ∧
      ∃ s' o, rocStep hwRocConfig s (.cancel { now := 1000120 } 3 false) = some (s', o) ∧
        .cancelled 2 ∈ o ∧ 2 ∈ s'.rocList.map RocWork.id := by
  have hrun : (Machine.run (rocStep hwRocConfig) {} (rocTwoChannels ++
      [.start { now := 1000115 } { sdata := 0, chan := 2, duration := 100 }])).map
      (fun p => decide (¬ p.1.rocList.filter RocWork.started <+: p.1.rocList ∧
        ∃ q ∈ rocStep hwRocConfig p.1 (.cancel { now := 1000120 } 3 false),
          .cancelled 2 ∈ q.2 ∧ 2 ∈ q.1.rocList.map RocWork.id)) = some true := by decide +kernel
  obtain ⟨⟨s, os⟩, hrun, hs⟩ := Option.map_eq_some_iff.1 hrun
  obtain ⟨hsplit, ⟨s', o⟩, hstep, hc, hl⟩ := of_decide_eq_true hs
  exact ⟨s, os, .of_run_init hrun, hsplit, s', o, hstep, hc, hl⟩

end Mac80211
