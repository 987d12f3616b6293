import Mac80211.Offchannel.RocWork

/-!
# What user space learns about a request

What was emitted about each request, next to where the request is. Every function walks the list
from the front, and tells at most that a request begins, or takes it off the list and tells that it
is over.

## Main definitions

* `RocHistory`
-/

namespace Mac80211

open List

/-- What user space learns about a request. -/
inductive RocNotice
  /-- The device is on the channel, or the frame is sent. -/
  | begun
  /-- It is over. -/
  | expired
deriving DecidableEq

/-- What an output says about a request. -/
def RocOut.notice (id : ℕ) : RocOut → Option RocNotice
  | .ready i => if i = id then some .begun else none
  | .tx i => if i = id then some .begun else none
  | .expired i => if i = id then some .expired else none
  | _ => none

/-- What was said about a request, in order. -/
def noticesOf (id : ℕ) (os : List RocOut) : List RocNotice := os.filterMap (RocOut.notice id)

@[simp] theorem noticesOf_nil (id : ℕ) : noticesOf id [] = [] := rfl

@[simp] theorem noticesOf_append (id : ℕ) (os os' : List RocOut) :
    noticesOf id (os ++ os') = noticesOf id os ++ noticesOf id os' :=
  filterMap_append

/-- What was said about a request on the list. -/
def RocWork.notices (roc : RocWork) : List RocNotice := if roc.notified then [.begun] else []

theorem RocWork.notices_sublist (roc : RocWork) : roc.notices.Sublist [.begun] := by
  rw [notices]
  split
  · exact List.Sublist.refl _
  · exact nil_sublist _

/-- What is emitted is about one request, and neither accepts nor cancels it. -/
def OnlyAbout (id : ℕ) (o : List RocOut) : Prop :=
  ∀ x ∈ o, (∀ j ≠ id, x.notice j = none) ∧ (∀ j, x ≠ .accepted j) ∧ ∀ j, x ≠ .cancelled j

/-- What is emitted is about no request. -/
def RocOut.Silent (x : RocOut) : Prop :=
  (∀ j, x.notice j = none) ∧ (∀ j, x ≠ .accepted j) ∧ ∀ j, x ≠ .cancelled j

theorem silent_remain (sdata chan duration type : ℕ) :
    (RocOut.remain sdata chan duration type).Silent :=
  ⟨fun _ => rfl, fun _ => by simp, fun _ => by simp⟩

theorem silent_cancel : RocOut.cancel.Silent := ⟨fun _ => rfl, fun _ => by simp, fun _ => by simp⟩

namespace OnlyAbout

variable {id : ℕ} {o o' : List RocOut}

theorem nil : OnlyAbout id [] := fun _ hx => by cases hx

theorem append (h : OnlyAbout id o) (h' : OnlyAbout id o') : OnlyAbout id (o ++ o') := fun x hx =>
  (mem_append.1 hx).elim (h x) (h' x)

theorem noticesOf_eq_nil (h : OnlyAbout id o) {j : ℕ} (hj : j ≠ id) : noticesOf j o = [] :=
  filterMap_eq_nil_iff.2 fun x hx => (h x hx).1 j hj

theorem accepted_notMem (h : OnlyAbout id o) (j : ℕ) : .accepted j ∉ o := fun hx =>
  (h _ hx).2.1 j rfl

theorem cancelled_notMem (h : OnlyAbout id o) (j : ℕ) : .cancelled j ∉ o := fun hx =>
  (h _ hx).2.2 j rfl

end OnlyAbout

theorem noticesOf_eq_nil_of_silent {o : List RocOut} (h : ∀ x ∈ o, x.Silent) (id : ℕ) :
    noticesOf id o = [] :=
  filterMap_eq_nil_iff.2 fun x hx => (h x hx).1 id

theorem onlyAbout_rocNotifyDestroy (roc : RocWork) : OnlyAbout roc.id (rocNotifyDestroy roc) := by
  intro x hx
  rw [rocNotifyDestroy] at hx
  have hx : x = .txStatus roc.id ∨ x = .expired roc.id := by
    rcases mem_append.1 hx with hx | hx
    · split at hx
      · exact .inl (mem_singleton.1 hx)
      · cases hx
    · exact .inr (mem_singleton.1 hx)
  rcases hx with rfl | rfl
  · exact ⟨fun j _ => rfl, fun j => by simp, fun j => by simp⟩
  · exact ⟨fun j hj => if_neg fun h => hj h.symm, fun j => by simp, fun j => by simp⟩

theorem noticesOf_rocNotifyDestroy (roc : RocWork) :
    noticesOf roc.id (rocNotifyDestroy roc) = [.expired] := by
  rw [rocNotifyDestroy, noticesOf_append]
  split <;> simp [noticesOf, RocOut.notice]

/-! ### One request -/

/-- What a walk does to a request that stays on the list, and what it tells. -/
structure RocWork.Becomes (roc roc' : RocWork) (o : List RocOut) : Prop where
  id : roc'.id = roc.id
  abort : roc.abort = true → roc'.abort = true
  about : OnlyAbout roc.id o
  /-- It is told at most once that it begins, and is notified then. -/
  notices : (roc.notices ++ noticesOf roc.id o).Sublist roc'.notices

namespace RocWork.Becomes

variable {roc roc' roc'' : RocWork} {o o' : List RocOut}

theorem refl (roc : RocWork) : roc.Becomes roc [] :=
  ⟨rfl, fun h => h, .nil, by rw [noticesOf_nil, append_nil]⟩

theorem of_eq (hid : roc'.id = roc.id) (hnotified : roc'.notified = roc.notified)
    (habort : roc.abort = true → roc'.abort = true) : roc.Becomes roc' [] :=
  ⟨hid, habort, .nil, by
    rw [RocWork.notices, RocWork.notices, hnotified, noticesOf_nil, append_nil]⟩

theorem trans (h : roc.Becomes roc' o) (h' : roc'.Becomes roc'' o') :
    roc.Becomes roc'' (o ++ o') := by
  refine ⟨h'.id.trans h.id, h'.abort ∘ h.abort, h.about.append (h.id ▸ h'.about), ?_⟩
  rw [noticesOf_append, ← append_assoc]
  exact (h.notices.append_right _).trans (h.id ▸ h'.notices)

end RocWork.Becomes

theorem becomes_handleRocStarted (startTime : UInt64) (roc : RocWork) :
    roc.Becomes (handleRocStarted startTime roc).1 (handleRocStarted startTime roc).2 := by
  have hready : OnlyAbout roc.id [.ready roc.id] := by
    intro x hx
    obtain rfl := mem_singleton.1 hx
    exact ⟨fun j hj => if_neg fun h => hj h.symm, fun j => by simp, fun j => by simp⟩
  have htx : OnlyAbout roc.id [.tx roc.id] := by
    intro x hx
    obtain rfl := mem_singleton.1 hx
    exact ⟨fun j hj => if_neg fun h => hj h.symm, fun j => by simp, fun j => by simp⟩
  rw [handleRocStarted]
  split
  · exact .refl roc
  · rename_i hnotified
    have hnil : roc.notices = [] := if_neg hnotified
    have hnotices (o : List RocOut) (h : noticesOf roc.id o = [.begun] ∨ noticesOf roc.id o = []) :
        (roc.notices ++ noticesOf roc.id o).Sublist [.begun] := by
      rw [hnil, nil_append]
      rcases h with h | h <;> simp [h]
    dsimp only
    split
    · split
      · exact ⟨rfl, fun h => h, htx, hnotices _ (.inl (by simp [noticesOf, RocOut.notice]))⟩
      · exact ⟨rfl, fun h => h, .nil, hnotices _ (.inr rfl)⟩
    · exact ⟨rfl, fun h => h, hready, hnotices _ (.inl (by simp [noticesOf, RocOut.notice]))⟩

/-! ### The whole list -/

/-- The history fits the list: `n` is the identity the next request gets. -/
structure RocHistory (cfg : RocConfig) (l : List RocWork) (n : ℕ) (os : List RocOut) : Prop where
  nodup : (l.map RocWork.id).Nodup
  bound : ∀ roc ∈ l, roc.id < n
  /-- Nothing was said about a request that is still to come. -/
  fresh : ∀ id, n ≤ id → noticesOf id os = [] ∧ .accepted id ∉ os ∧ .cancelled id ∉ os
  /-- Of a request on the list it was said at most that it began. -/
  listed : ∀ roc ∈ l, (noticesOf roc.id os).Sublist roc.notices
  /-- A request begins at most once and before it is over. -/
  told : ∀ id, (noticesOf id os).Sublist [.begun, .expired]
  /-- An accepted request that is gone is over. -/
  gone : ∀ id, .accepted id ∈ os → id ∉ l.map RocWork.id → .expired ∈ noticesOf id os
  /-- A cancelled request that is still there is aborted. -/
  cancelled : ∀ id, .cancelled id ∈ os → ∀ roc ∈ l, roc.id = id → cfg.hwRoc = false ∧ roc.abort = true

namespace RocHistory

variable {cfg : RocConfig} {a b l l' : List RocWork} {roc roc' : RocWork} {n : ℕ}
  {os o : List RocOut}

theorem nil (cfg : RocConfig) : RocHistory cfg [] 0 [] where
  nodup := nodup_nil
  bound := fun _ h => by cases h
  fresh := fun _ _ => ⟨rfl, by simp, by simp⟩
  listed := fun _ h => by cases h
  told := fun _ => nil_sublist _
  gone := fun _ h => by cases h
  cancelled := fun _ h => by cases h

theorem silent (h : RocHistory cfg l n os) (ho : ∀ x ∈ o, x.Silent) :
    RocHistory cfg l n (os ++ o) := by
  have hnotices (id : ℕ) : noticesOf id (os ++ o) = noticesOf id os := by
    rw [noticesOf_append, noticesOf_eq_nil_of_silent ho, append_nil]
  have haccepted (id : ℕ) : .accepted id ∈ os ++ o ↔ .accepted id ∈ os := by
    rw [mem_append, or_iff_left fun hx => (ho _ hx).2.1 id rfl]
  have hcancelled (id : ℕ) : .cancelled id ∈ os ++ o ↔ .cancelled id ∈ os := by
    rw [mem_append, or_iff_left fun hx => (ho _ hx).2.2 id rfl]
  constructor
  · exact h.nodup
  · exact h.bound
  · simpa only [hnotices, haccepted, hcancelled] using h.fresh
  · simpa only [hnotices] using h.listed
  · simpa only [hnotices] using h.told
  · simpa only [hnotices, haccepted] using h.gone
  · simpa only [hcancelled] using h.cancelled

theorem becomes (h : RocHistory cfg (a ++ roc :: b) n os) (hb : roc.Becomes roc' o) :
    RocHistory cfg (a ++ roc' :: b) n (os ++ o) := by
  have hroc : roc ∈ a ++ roc :: b := mem_append_right _ mem_cons_self
  have hid : (a ++ roc' :: b).map RocWork.id = (a ++ roc :: b).map RocWork.id := by
    rw [map_append, map_append, map_cons, map_cons, hb.id]
  have hother (id : ℕ) (hne : id ≠ roc.id) : noticesOf id (os ++ o) = noticesOf id os := by
    rw [noticesOf_append, hb.about.noticesOf_eq_nil hne, append_nil]
  have hsame : (noticesOf roc.id (os ++ o)).Sublist roc'.notices := by
    rw [noticesOf_append]
    exact ((h.listed roc hroc).append_right _).trans hb.notices
  have haccepted (id : ℕ) : .accepted id ∈ os ++ o ↔ .accepted id ∈ os := by
    rw [mem_append, or_iff_left (hb.about.accepted_notMem id)]
  have hcancelled (id : ℕ) : .cancelled id ∈ os ++ o ↔ .cancelled id ∈ os := by
    rw [mem_append, or_iff_left (hb.about.cancelled_notMem id)]
  -- every request on the list after was on it before, unless it is the one that changed
  have hmem {t : RocWork} (ht : t ∈ a ++ roc' :: b) : t = roc' ∨ t ∈ a ++ roc :: b ∧ t.id ≠ roc.id := by
    have hn := h.nodup
    rw [map_append, map_cons, nodup_middle, nodup_cons, ← map_append] at hn
    have hne (ht : t ∈ a ++ b) : t.id ≠ roc.id := fun hid => hn.1 (hid ▸ mem_map_of_mem ht)
    simp only [mem_append, mem_cons] at ht hne ⊢
    tauto
  constructor
  · rw [hid]
    exact h.nodup
  · intro t ht
    rcases hmem ht with rfl | ⟨ht, -⟩
    · rw [hb.id]
      exact h.bound roc hroc
    · exact h.bound t ht
  · intro id hn
    have hne : id ≠ roc.id := by
      have := h.bound roc hroc
      omega
    rw [hother id hne, haccepted, hcancelled]
    exact h.fresh id hn
  · intro t ht
    rcases hmem ht with rfl | ⟨ht, hne⟩
    · rw [hb.id]
      exact hsame
    · rw [hother t.id hne]
      exact h.listed t ht
  · intro id
    by_cases hne : id = roc.id
    · rw [hne]
      exact hsame.trans (roc'.notices_sublist.trans (by simp))
    · rw [hother id hne]
      exact h.told id
  · intro id hacc hgone
    rw [hid] at hgone
    have hne : id ≠ roc.id := by
      rintro rfl
      exact hgone (mem_map_of_mem hroc)
    rw [hother id hne]
    exact h.gone id ((haccepted id).1 hacc) hgone
  · intro id hc t ht htid
    rw [hcancelled] at hc
    rcases hmem ht with rfl | ⟨ht, -⟩
    · obtain ⟨hsw, habort⟩ := h.cancelled id hc roc hroc (hb.id ▸ htid)
      exact ⟨hsw, hb.abort habort⟩
    · exact h.cancelled id hc t ht htid

theorem drop (h : RocHistory cfg (a ++ roc :: b) n os) :
    RocHistory cfg (a ++ b) n (os ++ rocNotifyDestroy roc) := by
  have habout := onlyAbout_rocNotifyDestroy roc
  have hroc : roc ∈ a ++ roc :: b := mem_append_right _ mem_cons_self
  have hsub : (a ++ b).Sublist (a ++ roc :: b) := (sublist_cons_self roc b).append_left a
  have hother (id : ℕ) (hne : id ≠ roc.id) :
      noticesOf id (os ++ rocNotifyDestroy roc) = noticesOf id os := by
    rw [noticesOf_append, habout.noticesOf_eq_nil hne, append_nil]
  have hsame : noticesOf roc.id (os ++ rocNotifyDestroy roc) = noticesOf roc.id os ++ [.expired] := by
    rw [noticesOf_append, noticesOf_rocNotifyDestroy]
  have hn := h.nodup
  rw [map_append, map_cons, nodup_middle, nodup_cons, ← map_append] at hn
  have hne {t : RocWork} (ht : t ∈ a ++ b) : t.id ≠ roc.id := fun hid =>
    hn.1 (hid ▸ mem_map_of_mem ht)
  constructor
  · exact hn.2
  · exact fun t ht => h.bound t (hsub.subset ht)
  · intro id hid
    have hne : id ≠ roc.id := by
      have := h.bound roc hroc
      omega
    obtain ⟨hnil, hacc, hcan⟩ := h.fresh id hid
    rw [hother id hne, mem_append, mem_append]
    exact ⟨hnil, fun hx => hx.elim hacc (habout.accepted_notMem id),
      fun hx => hx.elim hcan (habout.cancelled_notMem id)⟩
  · intro t ht
    rw [hother t.id (hne ht)]
    exact h.listed t (hsub.subset ht)
  · intro id
    by_cases hid : id = roc.id
    · rw [hid, hsame]
      exact ((h.listed roc hroc).trans roc.notices_sublist).append_right [.expired]
    · rw [hother id hid]
      exact h.told id
  · intro id hacc hgone
    by_cases hid : id = roc.id
    · rw [hid, hsame]
      exact mem_append_right _ (mem_singleton_self _)
    · rw [hother id hid]
      refine h.gone id ((mem_append.1 hacc).resolve_right (habout.accepted_notMem id)) ?_
      rw [map_append, map_cons, mem_append, mem_cons]
      rw [map_append, mem_append] at hgone
      tauto
  · intro id hc t ht htid
    exact h.cancelled id ((mem_append.1 hc).resolve_right (habout.cancelled_notMem id)) t
      (hsub.subset ht) htid

theorem skip (h : RocHistory cfg l n os) : RocHistory cfg l (n + 1) os where
  nodup := h.nodup
  bound := fun t ht => (h.bound t ht).trans (Nat.lt_succ_self n)
  fresh := fun id hid => h.fresh id (Nat.le_of_succ_le hid)
  listed := h.listed
  told := h.told
  gone := h.gone
  cancelled := h.cancelled

theorem insert (h : RocHistory cfg (a ++ b) n os) (hid : roc.id = n) :
    RocHistory cfg (a ++ roc :: b) (n + 1) (os ++ [.accepted roc.id]) := by
  obtain ⟨hnil, hacc, hcan⟩ := h.fresh n le_rfl
  have hmem {t : RocWork} : t ∈ a ++ roc :: b ↔ t = roc ∨ t ∈ a ++ b := by
    simp only [mem_append, mem_cons]
    tauto
  have hmap : n ∉ (a ++ b).map RocWork.id := by
    rw [mem_map]
    rintro ⟨t, ht, htid⟩
    exact absurd (h.bound t ht) (by omega)
  have hnotices (id : ℕ) : noticesOf id (os ++ [.accepted roc.id]) = noticesOf id os := by
    rw [noticesOf_append]
    exact append_nil _
  have hcancelled (id : ℕ) : .cancelled id ∈ os ++ [.accepted roc.id] ↔ .cancelled id ∈ os := by
    simp
  constructor
  · rw [map_append, map_cons, nodup_middle, nodup_cons, ← map_append, hid]
    exact ⟨hmap, h.nodup⟩
  · intro t ht
    rcases hmem.1 ht with rfl | ht
    · omega
    · exact (h.bound t ht).trans (Nat.lt_succ_self n)
  · intro id hn
    obtain ⟨hnil, hacc, hcan⟩ := h.fresh id (by omega)
    rw [hnotices, hcancelled]
    refine ⟨hnil, fun hx => ?_, hcan⟩
    have : id = roc.id := by simpa [hacc] using hx
    omega
  · intro t ht
    rw [hnotices]
    rcases hmem.1 ht with rfl | ht
    · rw [hid, hnil]
      exact nil_sublist _
    · exact h.listed t ht
  · intro id
    rw [hnotices]
    exact h.told id
  · intro id hx hgone
    rw [hnotices]
    rw [map_append, map_cons, mem_append, mem_cons] at hgone
    refine h.gone id ?_ ?_
    · have hne : id ≠ roc.id := by tauto
      simpa [hne] using hx
    · rw [map_append, mem_append]
      tauto
  · intro id hc t ht htid
    rw [hcancelled] at hc
    rcases hmem.1 ht with rfl | ht
    · rw [← htid, hid] at hc
      exact absurd hc hcan
    · exact h.cancelled id hc t ht htid

/-- A request given out earlier is cancelled: it is not on the list, or it is aborted. -/
theorem cancel {id : ℕ} (h : RocHistory cfg l n os) (hid : id < n)
    (hl : ∀ roc ∈ l, roc.id = id → cfg.hwRoc = false ∧ roc.abort = true) :
    RocHistory cfg l n (os ++ [.cancelled id]) := by
  have hnotices (j : ℕ) : noticesOf j (os ++ [.cancelled id]) = noticesOf j os := by
    rw [noticesOf_append]
    exact append_nil _
  have haccepted (j : ℕ) : .accepted j ∈ os ++ [.cancelled id] ↔ .accepted j ∈ os := by simp
  constructor
  · exact h.nodup
  · exact h.bound
  · intro j hj
    rw [hnotices, haccepted]
    refine ⟨(h.fresh j hj).1, (h.fresh j hj).2.1, fun hx => ?_⟩
    have : j = id := by simpa [(h.fresh j hj).2.2] using hx
    omega
  · simpa only [hnotices] using h.listed
  · simpa only [hnotices] using h.told
  · simpa only [hnotices, haccepted] using h.gone
  · intro j hx t ht htid
    rcases mem_append.1 hx with hx | hx
    · exact h.cancelled j hx t ht htid
    · obtain rfl : j = id := by simpa using hx
      exact hl t ht htid

end RocHistory

/-! ### Walks -/

/-- One walk over the list from the front: every request stays, changed, or leaves. -/
inductive RocWalk : List RocWork → List RocWork → List RocOut → Prop
  | nil : RocWalk [] [] []
  | keep {roc roc' : RocWork} {l l' : List RocWork} {o out : List RocOut} :
      roc.Becomes roc' o → RocWalk l l' out → RocWalk (roc :: l) (roc' :: l') (o ++ out)
  | drop {roc : RocWork} {l l' : List RocWork} {q out : List RocOut} (hq : ∀ x ∈ q, x.Silent) :
      RocWalk l l' out → RocWalk (roc :: l) l' (q ++ rocNotifyDestroy roc ++ out)

theorem RocWalk.refl : ∀ l : List RocWork, RocWalk l l []
  | [] => .nil
  | roc :: l => .keep (.refl roc) (.refl l)

/-- **The history fits the list after a walk, if it did before.** -/
theorem RocHistory.walk {cfg : RocConfig} {l l' : List RocWork} {out : List RocOut}
    (hw : RocWalk l l' out) {n : ℕ} : ∀ {a : List RocWork} {os : List RocOut},
    RocHistory cfg (a ++ l) n os → RocHistory cfg (a ++ l') n (os ++ out) := by
  induction hw with
  | nil =>
    intro a os h
    rwa [append_nil os]
  | @keep roc roc' l l' o out hb _ ih =>
    intro a os h
    have h' := h.becomes hb
    rw [← append_assoc, append_cons] at *
    exact ih h'
  | @drop roc l l' q out hq _ ih =>
    intro a os h
    have h' := (h.silent hq).drop
    rw [← append_assoc, ← append_assoc]
    exact ih h'

end Mac80211
