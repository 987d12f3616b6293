import Mac80211.Lib.Reach
import Mac80211.State

/-!
# The recent multicast cache

`mesh_rmc_check` of `mesh.c`: 256 short lists, newest entry first. One walk drops what is too old,
drops the fourth entry it counts, and looks for the frame. An entry with at most two younger ones
before it is seen before the count reaches four, unless it is too old.

## Main results

* `meshRmc_recognises` — a later copy is recognised
-/

namespace Mac80211

open List

/-- The tick rate: `linux/jiffies.h` does not build for an `HZ` from 12288 on. -/
structure TickRate where
  /-- `HZ`. -/
  hz : ℕ
  hz_lt : hz < 12288

/-- `RMC_QUEUE_MAX_LEN`. -/
def rmcQueueMaxLen : ℕ := 4

/-- `RMC_TIMEOUT`, `3 * HZ`. -/
def TickRate.rmcTimeout (T : TickRate) : ℕ := 3 * T.hz

/-- `jiffies`, a clock reading in an `unsigned long`. -/
def jiffiesAt (now : ℕ) : UInt64 := UInt64.ofNat now

/-- `struct rmc_entry`. -/
structure RmcEntry where
  seqnum : UInt32
  expTime : UInt64
  sa : Mac

/-- What an entry is recognised by. -/
def RmcEntry.key (p : RmcEntry) : Mac × UInt32 := (p.sa, p.seqnum)

/-- `struct mesh_rmc`; `idx` is a `u8` in the source, so that no index is out of range. -/
structure MeshRmc where
  bucket : UInt8 → List RmcEntry
  idxMask : UInt32

/-- `mesh_rmc_init`, with what `kmalloc` does. -/
def meshRmcInit (kmalloc : Bool) : ℤ × Option MeshRmc :=
  if !kmalloc then (-ENOMEM, none)
  else (0, some {
    bucket := fun _ => []
    idxMask := 256 - 1 })

/-- `le32_to_cpu(mesh_hdr->seqnum) & rmc->idx_mask`, put into a `u8`. -/
def MeshRmc.idx (rmc : MeshRmc) (seqnum : UInt32) : UInt8 := (seqnum &&& rmc.idxMask).toUInt8

/-- The walk over one list: `entries` have been counted before. What is left of the list, and whether
the walk ended at the frame looked for. -/
def rmcWalk (jiffies : UInt64) (sa : Mac) (seqnum : UInt32) : ℕ → List RmcEntry → List RmcEntry × Bool
  | _, [] => ([], false)
  | entries, p :: rest =>
    if timeAfter jiffies p.expTime || entries + 1 == rmcQueueMaxLen then
      rmcWalk jiffies sa seqnum entries rest
    else if seqnum == p.seqnum && sa == p.sa then
      (p :: rest, true)
    else
      let walked := rmcWalk jiffies sa seqnum (entries + 1) rest
      (p :: walked.1, walked.2)

theorem rmcWalk_cons (jiffies : UInt64) (sa : Mac) (seqnum : UInt32) (entries : ℕ) (p : RmcEntry)
    (rest : List RmcEntry) : rmcWalk jiffies sa seqnum entries (p :: rest) =
      if timeAfter jiffies p.expTime || entries + 1 == rmcQueueMaxLen then rmcWalk jiffies sa seqnum entries rest
      else if seqnum == p.seqnum && sa == p.sa then (p :: rest, true)
      else (p :: (rmcWalk jiffies sa seqnum (entries + 1) rest).1, (rmcWalk jiffies sa seqnum (entries + 1) rest).2) :=
  rfl

/-- A group addressed mesh frame arrives; `alloc` is what `kmem_cache_alloc` does. -/
structure RmcArrival where
  now : ℕ
  sa : Mac
  seqnum : UInt32
  alloc : Bool := true
deriving DecidableEq

/-- What an arrival is recognised by. -/
def RmcArrival.key (a : RmcArrival) : Mac × UInt32 := (a.sa, a.seqnum)

/-- `mesh_rmc_check`: the cache afterwards, and 0 if the frame was not in it. -/
def meshRmcCheck (T : TickRate) : Option MeshRmc → RmcArrival → ℤ × Option MeshRmc
  | none, _ => (-1, none)
  | some rmc, a =>
    let idx := rmc.idx a.seqnum
    let walked := rmcWalk (jiffiesAt a.now) a.sa a.seqnum 0 (rmc.bucket idx)
    if walked.2 then (-1, some { rmc with bucket := Function.update rmc.bucket idx walked.1 })
    else if !a.alloc then (0, some { rmc with bucket := Function.update rmc.bucket idx walked.1 })
    else
      let p : RmcEntry := {
        seqnum := a.seqnum
        expTime := jiffiesAt a.now + UInt64.ofNat T.rmcTimeout
        sa := a.sa }
      (0, some { rmc with bucket := Function.update rmc.bucket idx (p :: walked.1) })

/-! ### One walk -/

section Walk

variable {jiffies : UInt64} {sa : Mac} {seqnum : UInt32} {entries : ℕ} {l : List RmcEntry}

theorem rmcWalk_sublist (jiffies : UInt64) (sa : Mac) (seqnum : UInt32) (entries : ℕ)
    (l : List RmcEntry) : (rmcWalk jiffies sa seqnum entries l).1.Sublist l := by
  induction l generalizing entries with
  | nil => exact List.Sublist.refl []
  | cons p rest ih =>
    rw [rmcWalk_cons]
    split
    · exact (ih entries).cons p
    · split
      · exact List.Sublist.refl _
      · exact (ih (entries + 1)).cons_cons p

theorem exists_mem_of_rmcWalk (h : (rmcWalk jiffies sa seqnum entries l).2 = true) :
    ∃ p ∈ l, p.key = (sa, seqnum) := by
  induction l generalizing entries with
  | nil => exact absurd h Bool.false_ne_true
  | cons p rest ih =>
    rw [rmcWalk_cons] at h
    split at h
    · obtain ⟨q, hq, hkey⟩ := ih h
      exact ⟨q, mem_cons_of_mem p hq, hkey⟩
    · split at h
      · rename_i heq
        simp only [Bool.and_eq_true, beq_iff_eq] at heq
        exact ⟨p, mem_cons_self, by rw [RmcEntry.key, heq.1, heq.2]⟩
      · obtain ⟨q, hq, hkey⟩ := ih h
        exact ⟨q, mem_cons_of_mem p hq, hkey⟩

/-- A walk that goes through leaves at most three entries, counted before or kept. -/
theorem length_rmcWalk_le (hentries : entries < rmcQueueMaxLen)
    (h : (rmcWalk jiffies sa seqnum entries l).2 = false) :
    entries + (rmcWalk jiffies sa seqnum entries l).1.length < rmcQueueMaxLen := by
  induction l generalizing entries with
  | nil => exact hentries
  | cons p rest ih =>
    rw [rmcWalk_cons] at h ⊢
    split at h
    · rename_i hout
      rw [if_pos hout]
      exact ih hentries h
    · rename_i hout
      rw [if_neg hout]
      split at h
      · exact absurd h (by simp)
      · rename_i hne
        rw [if_neg hne]
        have hlt : entries + 1 < rmcQueueMaxLen := by
          simp only [Bool.or_eq_true, beq_iff_eq, not_or] at hout
          omega
        have hrest := ih hlt h
        simp only [length_cons]
        omega

theorem key_ne_of_mem_rmcWalk (h : (rmcWalk jiffies sa seqnum entries l).2 = false) :
    ∀ p ∈ (rmcWalk jiffies sa seqnum entries l).1, p.key ≠ (sa, seqnum) := by
  induction l generalizing entries with
  | nil => exact fun p hp => absurd hp not_mem_nil
  | cons p rest ih =>
    rw [rmcWalk_cons] at h ⊢
    split at h
    · rename_i hout
      rw [if_pos hout]
      exact ih h
    · rename_i hout
      rw [if_neg hout]
      split at h
      · exact absurd h (by simp)
      · rename_i hne
        rw [if_neg hne]
        intro q hq
        rcases mem_cons.mp hq with rfl | hq
        · intro hkey
          simp only [Bool.and_eq_true, beq_iff_eq, not_and] at hne
          simp only [RmcEntry.key, Prod.mk.injEq] at hkey
          exact hne hkey.2.symm hkey.1.symm
        · exact ih h q hq

/-- **Entries in front that are neither too old nor too many stay.** If one is looked for, the walk
ends there; if not, it goes on behind them. -/
theorem rmcWalk_prefix {newer : List RmcEntry} (older : List RmcEntry)
    (hlive : ∀ p ∈ newer, timeAfter jiffies p.expTime = false)
    (hlen : entries + newer.length < rmcQueueMaxLen) :
    rmcWalk jiffies sa seqnum entries (newer ++ older) =
      if ∃ p ∈ newer, p.key = (sa, seqnum) then (newer ++ older, true)
      else (newer ++ (rmcWalk jiffies sa seqnum (entries + newer.length) older).1,
        (rmcWalk jiffies sa seqnum (entries + newer.length) older).2) := by
  induction newer generalizing entries with
  | nil => simp
  | cons p newer ih =>
    simp only [length_cons] at hlen
    have hstay : (timeAfter jiffies p.expTime || entries + 1 == rmcQueueMaxLen) = false := by
      rw [hlive p mem_cons_self, Bool.false_or]
      exact beq_false_of_ne (by omega)
    have hrest := @ih (entries + 1)
      (fun q hq => hlive q (mem_cons_of_mem p hq)) (by omega)
    rw [cons_append, rmcWalk_cons, hstay, if_neg Bool.false_ne_true, hrest]
    by_cases hp : p.key = (sa, seqnum)
    · have heq : (seqnum == p.seqnum && sa == p.sa) = true := by
        simp only [RmcEntry.key, Prod.mk.injEq] at hp
        simp [hp.1, hp.2]
      rw [if_pos heq, if_pos ⟨p, mem_cons_self, hp⟩]
    · have hne : ¬(seqnum == p.seqnum && sa == p.sa) = true := by
        intro heq
        simp only [Bool.and_eq_true, beq_iff_eq] at heq
        exact hp (by rw [RmcEntry.key, heq.1, heq.2])
      rw [if_neg hne]
      have hiff : (∃ q ∈ p :: newer, q.key = (sa, seqnum)) ↔ ∃ q ∈ newer, q.key = (sa, seqnum) := by
        simp only [exists_mem_cons_iff, hp, false_or]
      simp only [hiff, length_cons, Nat.add_right_comm entries 1, ← Nat.add_assoc]
      split <;> rfl

end Walk

/-! ### Runs -/

/-- An arrival; what the cache said to it goes into the history. -/
def rmcStep (T : TickRate) (s : Option MeshRmc) (a : RmcArrival) :
    Option (Option MeshRmc × List (RmcArrival × ℤ)) :=
  some ((meshRmcCheck T s a).2, [(a, (meshRmcCheck T s a).1)])

/-- What is assumed of an arrival: there is memory, and the clock does not run backwards. -/
structure RmcCond (s : Option MeshRmc) (os : List (RmcArrival × ℤ)) (a : RmcArrival) : Prop where
  alloc : a.alloc = true
  clock : ∀ x ∈ os, x.1.now ≤ a.now

/-- The frames other than `a`, of the same bucket, that were let through. -/
def rmcOthers (idx : UInt32 → UInt8) (a : RmcArrival) (since : List (RmcArrival × ℤ)) :
    Finset (Mac × UInt32) :=
  ((since.filter fun x => x.2 = 0 ∧ idx x.1.seqnum = idx a.seqnum ∧ x.1.key ≠ a.key).map
    fun x => x.1.key).toFinset

theorem mem_rmcOthers {idx : UInt32 → UInt8} {a : RmcArrival} {since : List (RmcArrival × ℤ)}
    {k : Mac × UInt32} : k ∈ rmcOthers idx a since ↔
      ∃ x ∈ since, (x.2 = 0 ∧ idx x.1.seqnum = idx a.seqnum ∧ x.1.key ≠ a.key) ∧ x.1.key = k := by
  simp only [rmcOthers, mem_toFinset, mem_map, mem_filter, decide_eq_true_eq,
    and_assoc]

theorem card_rmcOthers_append (idx : UInt32 → UInt8) (a : RmcArrival)
    (since more : List (RmcArrival × ℤ)) :
    (rmcOthers idx a since).card ≤ (rmcOthers idx a (since ++ more)).card := by
  refine Finset.card_le_card fun k hk => ?_
  obtain ⟨x, hx, hk⟩ := mem_rmcOthers.mp hk
  exact mem_rmcOthers.mpr ⟨x, mem_append_left more hx, hk⟩

theorem card_rmcOthers_le (idx : UInt32 → UInt8) (a : RmcArrival) (since : List (RmcArrival × ℤ)) :
    (rmcOthers idx a since).card ≤ since.length := by
  refine (toFinset_card_le _).trans ?_
  rw [length_map]
  exact length_filter_le _ since

theorem meets_rmcCond (T : TickRate) (es : List RmcArrival) : ∀ (s : Option MeshRmc)
    (os : List (RmcArrival × ℤ)), (∀ e ∈ es, e.alloc = true) →
    es.Pairwise (fun e e' => e.now ≤ e'.now) → (∀ x ∈ os, ∀ e ∈ es, x.1.now ≤ e.now) →
    Machine.Meets (rmcStep T) RmcCond s os es := by
  induction es with
  | nil => exact fun _ _ _ _ _ => trivial
  | cons e es ih =>
    intro s os halloc hsorted hclock
    refine ⟨⟨halloc e mem_cons_self, fun x hx => hclock x hx e mem_cons_self⟩, ?_⟩
    intro s' o hs
    rw [rmcStep, Option.some.injEq, Prod.mk.injEq] at hs
    rw [pairwise_cons] at hsorted
    refine ih s' (os ++ o) (fun e' he' => halloc e' (mem_cons_of_mem e he')) hsorted.2 ?_
    rw [← hs.2]
    intro x hx e' he'
    rcases mem_append.mp hx with hx | hx
    · exact hclock x hx e' (mem_cons_of_mem e he')
    · rw [mem_singleton] at hx
      rw [hx]
      exact hsorted.1 e' he'

/-- The entry an arrival leaves. -/
structure RmcEntry.Of (T : TickRate) (p : RmcEntry) (a : RmcArrival) : Prop where
  key : p.key = a.key
  exp : p.expTime = jiffiesAt a.now + UInt64.ofNat T.rmcTimeout

theorem RmcEntry.Of.live {T : TickRate} {p : RmcEntry} {a : RmcArrival} (h : p.Of T a) {now : ℕ}
    (hle : a.now ≤ now) (hin : now ≤ a.now + T.rmcTimeout) :
    timeAfter (jiffiesAt now) p.expTime = false := by
  obtain ⟨d, hd⟩ := Nat.exists_eq_add_of_le hin
  have hsub : p.expTime - jiffiesAt now = UInt64.ofNat d := by
    rw [h.exp, jiffiesAt, jiffiesAt, ← UInt64.ofNat_add, hd, UInt64.ofNat_add,
      UInt64.add_comm, UInt64.add_sub_cancel]
  have hsmall : d < 2 ^ 63 := by
    have := T.hz_lt
    rw [TickRate.rmcTimeout] at hd
    omega
  rw [timeAfter, hsub, UInt64.toNat_ofNat']
  simp only [decide_eq_false_iff_not, not_le]
  rw [Nat.mod_eq_of_lt (by omega)]
  exact hsmall

/-- What holds of the cache after a history. -/
structure RmcInv (T : TickRate) (rmc : MeshRmc) (os : List (RmcArrival × ℤ)) : Prop where
  clock : os.Pairwise fun x y => x.1.now ≤ y.1.now
  short : ∀ idx, (rmc.bucket idx).length ≤ rmcQueueMaxLen
  nodup : ∀ idx, ((rmc.bucket idx).map RmcEntry.key).Nodup
  seen : ∀ idx, ∀ p ∈ rmc.bucket idx, ∃ x ∈ os, x.2 = 0 ∧ x.1.key = p.key
  /-- A frame let through is behind entries of frames let through since, for as long as it counts. -/
  held : ∀ pre a since, os = pre ++ (a, 0) :: since →
    (∀ x ∈ since, x.1.now ≤ a.now + T.rmcTimeout) →
    (rmcOthers rmc.idx a since).card < rmcQueueMaxLen - 1 →
    ∃ newer p older, rmc.bucket (rmc.idx a.seqnum) = newer ++ p :: older ∧ p.Of T a ∧
      ∀ q ∈ newer, ∃ x ∈ since, x.2 = 0 ∧ rmc.idx x.1.seqnum = rmc.idx a.seqnum ∧ q.Of T x.1

section Inv

variable {T : TickRate} {rmc : MeshRmc} {os pre since : List (RmcArrival × ℤ)} {a : RmcArrival}

/-- An arrival while a frame counts sees the entries in front, and that of the frame, stay. -/
theorem RmcInv.walk_held (h : RmcInv T rmc os) (hos : os = pre ++ (a, 0) :: since)
    {now : ℕ} (hclock : ∀ x ∈ os, x.1.now ≤ now) (hin : now ≤ a.now + T.rmcTimeout)
    (hfew : (rmcOthers rmc.idx a since).card < rmcQueueMaxLen - 1) :
    ∃ newer p older, rmc.bucket (rmc.idx a.seqnum) = (newer ++ [p]) ++ older ∧ p.Of T a ∧
      (∀ q ∈ newer, ∃ x ∈ since, x.2 = 0 ∧ rmc.idx x.1.seqnum = rmc.idx a.seqnum ∧ q.Of T x.1) ∧
      ∀ sa seqnum, rmcWalk (jiffiesAt now) sa seqnum 0 ((newer ++ [p]) ++ older) =
        if ∃ q ∈ newer ++ [p], q.key = (sa, seqnum) then ((newer ++ [p]) ++ older, true)
        else ((newer ++ [p]) ++ (rmcWalk (jiffiesAt now) sa seqnum (0 + (newer ++ [p]).length) older).1,
          (rmcWalk (jiffiesAt now) sa seqnum (0 + (newer ++ [p]).length) older).2) := by
  have hmem : ∀ x ∈ since, x ∈ os := fun x hx => by
    rw [hos]
    exact mem_append_right pre (mem_cons_of_mem _ hx)
  obtain ⟨newer, p, older, hbucket, hp, hnewer⟩ := h.held pre a since hos
    (fun x hx => (hclock x (hmem x hx)).trans hin) hfew
  have hsorted : ∀ x ∈ since, a.now ≤ x.1.now := by
    have hpair := h.clock
    rw [hos] at hpair
    exact fun x hx => (pairwise_cons.mp (pairwise_append.mp hpair).2.1).1 x hx
  have hfirst : a.now ≤ now := hclock (a, 0) (by rw [hos]; simp)
  have hnodup := h.nodup (rmc.idx a.seqnum)
  rw [hbucket, map_append, map_cons, nodup_append] at hnodup
  have hsub : (newer.map RmcEntry.key).toFinset ⊆ rmcOthers rmc.idx a since := by
    intro k hk
    rw [mem_toFinset, mem_map] at hk
    obtain ⟨q, hq, rfl⟩ := hk
    obtain ⟨x, hx, hacc, hidx, hof⟩ := hnewer q hq
    refine mem_rmcOthers.mpr ⟨x, hx, ⟨hacc, hidx, ?_⟩, hof.key.symm⟩
    rw [← hof.key, ← hp.key]
    exact hnodup.2.2 q.key (mem_map_of_mem hq) p.key mem_cons_self
  have hcount : newer.length ≤ (rmcOthers rmc.idx a since).card := by
    have := Finset.card_le_card hsub
    rwa [toFinset_card_of_nodup hnodup.1, length_map] at this
  refine ⟨newer, p, older, by rw [hbucket, append_assoc, singleton_append], hp, hnewer,
    fun sa seqnum => rmcWalk_prefix older ?_ ?_⟩
  · intro q hq
    rcases mem_append.mp hq with hq | hq
    · obtain ⟨x, hx, _, _, hof⟩ := hnewer q hq
      exact hof.live (hclock x (hmem x hx)) (hin.trans (Nat.add_le_add_right (hsorted x hx) _))
    · rw [mem_singleton] at hq
      rw [hq]
      exact hp.live hfirst hin
  · rw [rmcQueueMaxLen] at hfew ⊢
    simp only [length_append, length_singleton]
    omega

theorem RmcInv.init (T : TickRate) : RmcInv T { bucket := fun _ => [], idxMask := 256 - 1 } [] where
  clock := List.Pairwise.nil
  short _ := Nat.zero_le _
  nodup _ := nodup_nil
  seen _ _ hp := absurd hp not_mem_nil
  held pre a since hos := absurd hos (by simp)

/-- The entry a new frame gets. -/
def RmcArrival.entry (T : TickRate) (e : RmcArrival) : RmcEntry where
  seqnum := e.seqnum
  expTime := jiffiesAt e.now + UInt64.ofNat T.rmcTimeout
  sa := e.sa

theorem RmcArrival.entry_of (T : TickRate) (e : RmcArrival) : (e.entry T).Of T e := ⟨rfl, rfl⟩

/-- The walk for an arrival. -/
def MeshRmc.walk (rmc : MeshRmc) (e : RmcArrival) : List RmcEntry × Bool :=
  rmcWalk (jiffiesAt e.now) e.sa e.seqnum 0 (rmc.bucket (rmc.idx e.seqnum))

/-- The cache with one list replaced. -/
def MeshRmc.setBucket (rmc : MeshRmc) (e : RmcArrival) (l : List RmcEntry) : MeshRmc :=
  { rmc with bucket := Function.update rmc.bucket (rmc.idx e.seqnum) l }

@[simp] theorem MeshRmc.idx_setBucket (rmc : MeshRmc) (e : RmcArrival) (l : List RmcEntry) :
    (rmc.setBucket e l).idx = rmc.idx := rfl

@[simp] theorem MeshRmc.bucket_setBucket (rmc : MeshRmc) (e : RmcArrival) (l : List RmcEntry) :
    (rmc.setBucket e l).bucket (rmc.idx e.seqnum) = l := by
  simp [MeshRmc.setBucket]

variable {e : RmcArrival}

theorem MeshRmc.bucket_setBucket_of_ne {idx : UInt8} (h : idx ≠ rmc.idx e.seqnum)
    (l : List RmcEntry) : (rmc.setBucket e l).bucket idx = rmc.bucket idx := by
  simp [MeshRmc.setBucket, h]

theorem meshRmcCheck_of_found (h : (rmc.walk e).2 = true) :
    meshRmcCheck T (some rmc) e = (-1, some (rmc.setBucket e (rmc.walk e).1)) := by
  rw [meshRmcCheck]
  exact if_pos h

theorem meshRmcCheck_of_new (hnew : (rmc.walk e).2 = false) (halloc : e.alloc = true) :
    meshRmcCheck T (some rmc) e = (0, some (rmc.setBucket e (e.entry T :: (rmc.walk e).1))) := by
  rw [meshRmcCheck]
  dsimp only
  rw [if_neg (by rw [MeshRmc.walk] at hnew; simp [hnew]), if_neg (by simp [halloc])]
  rfl

/-- The parts of the invariant that look at one list at a time, after a list has been replaced. -/
theorem RmcInv.setBucket (h : RmcInv T rmc os) {r : ℤ} {l : List RmcEntry}
    (hc : ∀ x ∈ os, x.1.now ≤ e.now)
    (hshort : l.length ≤ rmcQueueMaxLen) (hnodup : (l.map RmcEntry.key).Nodup)
    (hseen : ∀ p ∈ l, p ∈ rmc.bucket (rmc.idx e.seqnum) ∨ r = 0 ∧ e.key = p.key)
    (hheld : ∀ pre a since, os ++ [(e, r)] = pre ++ (a, 0) :: since →
      (∀ x ∈ since, x.1.now ≤ a.now + T.rmcTimeout) →
      (rmcOthers rmc.idx a since).card < rmcQueueMaxLen - 1 →
      rmc.idx a.seqnum = rmc.idx e.seqnum →
      ∃ newer p older, l = newer ++ p :: older ∧ p.Of T a ∧
        ∀ q ∈ newer, ∃ x ∈ since, x.2 = 0 ∧ rmc.idx x.1.seqnum = rmc.idx a.seqnum ∧ q.Of T x.1) :
    RmcInv T (rmc.setBucket e l) (os ++ [(e, r)]) where
  clock := by
    refine pairwise_append.mpr ⟨h.clock, pairwise_singleton _ _, fun x hx y hy => ?_⟩
    rw [mem_singleton] at hy
    rw [hy]
    exact hc x hx
  short idx := by
    by_cases hidx : idx = rmc.idx e.seqnum
    · rw [hidx, MeshRmc.bucket_setBucket]
      exact hshort
    · rw [MeshRmc.bucket_setBucket_of_ne hidx]
      exact h.short idx
  nodup idx := by
    by_cases hidx : idx = rmc.idx e.seqnum
    · rw [hidx, MeshRmc.bucket_setBucket]
      exact hnodup
    · rw [MeshRmc.bucket_setBucket_of_ne hidx]
      exact h.nodup idx
  seen idx p hp := by
    have hold : ∀ {idx}, p ∈ rmc.bucket idx → ∃ x ∈ os ++ [(e, r)], x.2 = 0 ∧ x.1.key = p.key :=
      fun hp => by
        obtain ⟨x, hx, hx'⟩ := h.seen _ p hp
        exact ⟨x, mem_append_left _ hx, hx'⟩
    by_cases hidx : idx = rmc.idx e.seqnum
    · rw [hidx, MeshRmc.bucket_setBucket] at hp
      rcases hseen p hp with hp | ⟨hr, hkey⟩
      · exact hold hp
      · exact ⟨(e, r), mem_append_right _ mem_cons_self, hr, hkey⟩
    · rw [MeshRmc.bucket_setBucket_of_ne hidx] at hp
      exact hold hp
  held pre a since hos hin hfew := by
    rw [MeshRmc.idx_setBucket] at hfew ⊢
    by_cases hidx : rmc.idx a.seqnum = rmc.idx e.seqnum
    · rw [hidx, MeshRmc.bucket_setBucket, ← hidx]
      exact hheld pre a since hos hin hfew hidx
    · rw [MeshRmc.bucket_setBucket_of_ne hidx]
      rcases eq_nil_or_concat since with rfl | ⟨since', x, rfl⟩
      · obtain ⟨-, hlast⟩ := append_inj' hos rfl
        simp only [List.cons.injEq, Prod.mk.injEq, and_true] at hlast
        exact absurd (by rw [hlast.1]) hidx
      · rw [concat_eq_append, ← cons_append, ← append_assoc] at hos
        obtain ⟨hos, -⟩ := append_inj' hos rfl
        rw [concat_eq_append] at hin hfew ⊢
        obtain ⟨newer, p, older, hbucket, hp, hnewer⟩ := h.held pre a since' hos
          (fun y hy => hin y (mem_append_left _ hy))
          ((card_rmcOthers_append rmc.idx a since' [x]).trans_lt hfew)
        refine ⟨newer, p, older, hbucket, hp, fun q hq => ?_⟩
        obtain ⟨y, hy, hy'⟩ := hnewer q hq
        exact ⟨y, mem_append_left _ hy, hy'⟩

theorem RmcInv.walk_keeps (h : RmcInv T rmc os) (hos : os = pre ++ (a, 0) :: since)
    (hc : ∀ x ∈ os, x.1.now ≤ e.now) (hin : e.now ≤ a.now + T.rmcTimeout)
    (hfew : (rmcOthers rmc.idx a since).card < rmcQueueMaxLen - 1)
    (hidx : rmc.idx a.seqnum = rmc.idx e.seqnum) :
    ∃ newer p older, (rmc.walk e).1 = newer ++ p :: older ∧ p.Of T a ∧
      ∀ q ∈ newer, ∃ x ∈ since, x.2 = 0 ∧ rmc.idx x.1.seqnum = rmc.idx a.seqnum ∧ q.Of T x.1 := by
  obtain ⟨newer, p, older, hbucket, hp, hnewer, hwalk⟩ := h.walk_held hos hc hin hfew
  rw [MeshRmc.walk, ← hidx, hbucket, hwalk]
  split
  · exact ⟨newer, p, older, by rw [append_assoc, singleton_append], hp, hnewer⟩
  · exact ⟨newer, p, _, by rw [append_assoc, singleton_append], hp, hnewer⟩

theorem RmcInv.found (h : RmcInv T rmc os) (hc : ∀ x ∈ os, x.1.now ≤ e.now) :
    RmcInv T (rmc.setBucket e (rmc.walk e).1) (os ++ [(e, -1)]) := by
  have hsub := rmcWalk_sublist (jiffiesAt e.now) e.sa e.seqnum 0 (rmc.bucket (rmc.idx e.seqnum))
  refine h.setBucket hc (hsub.length_le.trans (h.short _)) ((hsub.map _).nodup (h.nodup _))
    (fun p hp => .inl (hsub.subset hp)) ?_
  intro pre a since hos hin hfew hidx
  rcases eq_nil_or_concat since with rfl | ⟨since', x, rfl⟩
  · obtain ⟨-, hlast⟩ := append_inj' hos rfl
    simp at hlast
  · rw [concat_eq_append, ← cons_append, ← append_assoc] at hos
    obtain ⟨hos, hx⟩ := append_inj' hos rfl
    rw [concat_eq_append] at hin hfew ⊢
    have hnow : e.now ≤ a.now + T.rmcTimeout := by
      refine hin (e, -1) (mem_append_right _ ?_)
      rw [← hx]
      exact mem_cons_self
    obtain ⟨newer, p, older, hl, hp, hnewer⟩ := h.walk_keeps hos hc hnow
      ((card_rmcOthers_append rmc.idx a since' [x]).trans_lt hfew) hidx
    refine ⟨newer, p, older, hl, hp, fun q hq => ?_⟩
    obtain ⟨y, hy, hy'⟩ := hnewer q hq
    exact ⟨y, mem_append_left _ hy, hy'⟩

theorem RmcInv.passed (h : RmcInv T rmc os) (hc : ∀ x ∈ os, x.1.now ≤ e.now)
    (hnew : (rmc.walk e).2 = false) :
    RmcInv T (rmc.setBucket e (e.entry T :: (rmc.walk e).1)) (os ++ [(e, 0)]) := by
  have hsub := rmcWalk_sublist (jiffiesAt e.now) e.sa e.seqnum 0 (rmc.bucket (rmc.idx e.seqnum))
  have hlen : (rmc.walk e).1.length + 1 ≤ rmcQueueMaxLen := by
    have := length_rmcWalk_le (show 0 < rmcQueueMaxLen by decide) hnew
    rw [Nat.zero_add] at this
    exact this
  refine h.setBucket hc hlen ?_ ?_ ?_
  · refine nodup_cons.mpr ⟨fun hmem => ?_, (hsub.map _).nodup (h.nodup _)⟩
    obtain ⟨p, hp, hkey⟩ := mem_map.mp hmem
    exact key_ne_of_mem_rmcWalk hnew p hp hkey
  · intro p hp
    rcases mem_cons.mp hp with rfl | hp
    · exact .inr ⟨rfl, rfl⟩
    · exact .inl (hsub.subset hp)
  · intro pre a since hos hin hfew hidx
    rcases eq_nil_or_concat since with rfl | ⟨since', x, rfl⟩
    · obtain ⟨-, hlast⟩ := append_inj' hos rfl
      simp only [List.cons.injEq, Prod.mk.injEq, and_true] at hlast
      rw [← hlast]
      exact ⟨[], e.entry T, (rmc.walk e).1, rfl, e.entry_of T,
        fun q hq => absurd hq not_mem_nil⟩
    · rw [concat_eq_append, ← cons_append, ← append_assoc] at hos
      obtain ⟨hos, hx⟩ := append_inj' hos rfl
      rw [List.cons.injEq] at hx
      rw [concat_eq_append, ← hx.1] at hin hfew ⊢
      obtain ⟨newer, p, older, hl, hp, hnewer⟩ := h.walk_keeps hos hc
        (hin (e, 0) (mem_append_right _ mem_cons_self))
        ((card_rmcOthers_append rmc.idx a since' [(e, 0)]).trans_lt hfew) hidx
      refine ⟨e.entry T :: newer, p, older, by rw [hl, cons_append], hp, fun q hq => ?_⟩
      rcases mem_cons.mp hq with rfl | hq
      · exact ⟨(e, 0), mem_append_right _ mem_cons_self, rfl, hidx.symm, e.entry_of T⟩
      · obtain ⟨y, hy, hy'⟩ := hnewer q hq
        exact ⟨y, mem_append_left _ hy, hy'⟩

theorem RmcInv.meshRmcCheck (h : RmcInv T rmc os) (hc : RmcCond (some rmc) os e) :
    ∃ rmc', (meshRmcCheck T (some rmc) e).2 = some rmc' ∧
      RmcInv T rmc' (os ++ [(e, (Mac80211.meshRmcCheck T (some rmc) e).1)]) := by
  cases hw : (rmc.walk e).2 with
  | true =>
    rw [meshRmcCheck_of_found hw]
    exact ⟨_, rfl, h.found hc.clock⟩
  | false =>
    rw [meshRmcCheck_of_new hw hc.alloc]
    exact ⟨_, rfl, h.passed hc.clock hw⟩

end Inv

theorem exists_rmcInv {T : TickRate} {s : Option MeshRmc} {os : List (RmcArrival × ℤ)}
    (hr : Machine.Reach (rmcStep T) RmcCond (meshRmcInit true).2 s os) :
    ∃ rmc, s = some rmc ∧ RmcInv T rmc os := by
  refine hr.invariant (fun s os => ∃ rmc, s = some rmc ∧ RmcInv T rmc os) ⟨_, rfl, RmcInv.init T⟩ ?_
  rintro s os e s' o ⟨rmc, rfl, h⟩ hc hs
  rw [rmcStep, Option.some.injEq, Prod.mk.injEq] at hs
  obtain ⟨rmc', hrmc, h'⟩ := h.meshRmcCheck hc
  rw [← hs.1, ← hs.2]
  exact ⟨rmc', hrmc, h'⟩

/-- **The recent multicast cache**, after every run: lists are short and name no frame twice; a
frame let through is turned away for `RMC_TIMEOUT`, while fewer than three others of its list have
been let through since; a frame that never came before is let through. -/
theorem meshRmc_recognises {T : TickRate} {s : Option MeshRmc} {os : List (RmcArrival × ℤ)}
    (hr : Machine.Reach (rmcStep T) RmcCond (meshRmcInit true).2 s os) : ∃ rmc, s = some rmc ∧
      (∀ idx, (rmc.bucket idx).length ≤ rmcQueueMaxLen ∧
        ((rmc.bucket idx).map RmcEntry.key).Nodup) ∧
      (∀ pre a since e, os = pre ++ (a, 0) :: since → e.key = a.key → RmcCond s os e →
        e.now ≤ a.now + T.rmcTimeout →
        (rmcOthers rmc.idx a since).card < rmcQueueMaxLen - 1 → (meshRmcCheck T s e).1 = -1) ∧
      ∀ e, (∀ x ∈ os, x.1.key ≠ e.key) → (meshRmcCheck T s e).1 = 0 := by
  obtain ⟨rmc, rfl, h⟩ := exists_rmcInv hr
  refine ⟨rmc, rfl, fun idx => ⟨h.short idx, h.nodup idx⟩, ?_, ?_⟩
  · intro pre a since e hos hkey hc hin hfew
    obtain ⟨newer, p, older, hbucket, hp, -, hwalk⟩ := h.walk_held hos hc.clock hin hfew
    have hfound : (rmc.walk e).2 = true := by
      have hidx : e.seqnum = a.seqnum := congrArg Prod.snd hkey
      rw [MeshRmc.walk, hidx, hbucket, ← hidx, hwalk,
        if_pos ⟨p, mem_append_right _ mem_cons_self, hp.key.trans hkey.symm⟩]
    rw [meshRmcCheck_of_found hfound]
  · intro e hnever
    have hnew : (rmc.walk e).2 = false := by
      rw [Bool.eq_false_iff]
      intro hfound
      obtain ⟨p, hp, hkey⟩ := exists_mem_of_rmcWalk hfound
      obtain ⟨x, hx, -, hxkey⟩ := h.seen _ p hp
      exact hnever x hx (hxkey.trans hkey)
    rw [meshRmcCheck]
    dsimp only
    rw [if_neg (by rw [MeshRmc.walk] at hnew; simp [hnew])]
    split <;> rfl

/-- One station's frames, numbered; 256 apart they share a list. -/
private def rmcFrame (now : ℕ) (n : UInt32) : RmcArrival where
  now := now
  sa := Vector.replicate 6 2
  seqnum := 7 + 256 * n

private def rmcTick : TickRate where
  hz := 250
  hz_lt := by decide

/-- A frame, two others of its list, and the frame again, when its time is about to end. -/
theorem meshRmc_recognises_third : ∃ s os,
    Machine.Reach (rmcStep rmcTick) RmcCond (meshRmcInit true).2 s os ∧
      os = [(rmcFrame 10 0, 0), (rmcFrame 20 1, 0), (rmcFrame 700 2, 0)] ∧
      (meshRmcCheck rmcTick s (rmcFrame 760 0)).1 = -1 := by
  have hrun : (Machine.run (rmcStep rmcTick) (meshRmcInit true).2
      [rmcFrame 10 0, rmcFrame 20 1, rmcFrame 700 2]).map Prod.snd =
      some [(rmcFrame 10 0, 0), (rmcFrame 20 1, 0), (rmcFrame 700 2, 0)] := by
    decide +kernel
  obtain ⟨⟨s, os⟩, hr, hos⟩ := Option.map_eq_some_iff.mp hrun
  dsimp only at hos
  subst hos
  have hreach := Machine.Reach.of_run .init (meets_rmcCond rmcTick _ _ [] (by decide +kernel)
    (by decide +kernel) (fun x hx => absurd hx not_mem_nil)) hr
  obtain ⟨rmc, -, -, hrejects, -⟩ := meshRmc_recognises hreach
  refine ⟨s, _, hreach, rfl, ?_⟩
  refine hrejects [] (rmcFrame 10 0) [(rmcFrame 20 1, 0), (rmcFrame 700 2, 0)] (rmcFrame 760 0) rfl
    rfl ⟨rfl, by decide +kernel⟩ (by decide) ?_
  exact (card_rmcOthers_le rmc.idx _ _).trans_lt (by decide)

/-- After three others it is forgotten. -/
example : (Machine.run (rmcStep rmcTick) (meshRmcInit true).2
    [rmcFrame 10 0, rmcFrame 20 1, rmcFrame 30 2, rmcFrame 40 3, rmcFrame 50 0]).map
      (fun r => r.2.map Prod.snd) = some [0, 0, 0, 0, 0] := by
  decide +kernel

end Mac80211
