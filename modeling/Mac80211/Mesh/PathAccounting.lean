import Mathlib.Data.List.Find
import Mac80211.Lib.Reach
import Mac80211.Mesh.PathTable

/-!
# Counting mesh paths

`mesh_path_add` counts a path before it has one, and does not take it back where it fails; what
frees a path counts down for a proxy entry as well, which was never counted. The gates have no such
trouble: list and mark go together.

## Main definitions

* `MeshIf.drift` — counter less table

## Main results

* `mpaths_accounting`
-/

namespace Mac80211

open List

/-- What happens to the path tables. -/
inductive PathEvent
  /-- `mesh_path_add`. -/
  | add (jiffies : UInt64) (kzalloc : Bool) (insertErr : Option ℤ) (dst : Mac)
  /-- `mpp_path_add`. -/
  | mppAdd (jiffies : UInt64) (kzalloc : Bool) (insertErr : Option ℤ) (dst mpp : Mac)
  /-- `mesh_path_del`. -/
  | del (addr : Mac)
  /-- `mesh_path_flush_by_nexthop`. -/
  | flushByNexthop (sta : ℕ)
  /-- `mesh_path_flush_by_iface`. -/
  | flushByIface
  /-- `mesh_path_expire`. -/
  | expire (jiffies : UInt64)
  /-- `mesh_path_add_gate`, for the path found for an address. -/
  | addGate (jiffies : UInt64) (dst : Mac)
  /-- Path selection and the like write to a path, whatever they write. -/
  | rewrite (p : ℕ) (f : MeshPath → MeshPath)

/-- One operation. -/
def pathStep (hz : UInt64) (s : MeshIf) : PathEvent → Option (MeshIf × List Unit)
  | .add jiffies kzalloc insertErr dst => some ((meshPathAdd jiffies kzalloc insertErr s dst).2, [])
  | .mppAdd jiffies kzalloc insertErr dst mpp =>
    some ((mppPathAdd jiffies kzalloc insertErr s dst mpp).2, [])
  | .del addr => some ((meshPathDel s addr).2, [])
  | .flushByNexthop sta => some (meshPathFlushByNexthop s sta, [])
  | .flushByIface => some (meshPathFlushByIface s, [])
  | .expire jiffies => some (meshPathExpire jiffies hz s, [])
  | .addGate jiffies dst =>
    match meshPathLookup jiffies s dst with
    | (none, s) => some (s, [])
    | (some p, s) => some ((meshPathAddGate s p).2, [])
  -- the address and the mark are written nowhere else
  | .rewrite p f => some (s.updPath p fun m => { f m with
      dst := m.dst
      isGate := m.isGate }, [])

/-! ### The invariant -/

/-- The list of a table. -/
def MeshIf.walk (s : MeshIf) (t : MeshTbl) : List ℕ := (s.tbl t).walkHead

/-- What holds of the tables. -/
structure MeshTablesInv (s : MeshIf) : Prop where
  nodup : ∀ t, (s.walk t).Nodup
  rhead : ∀ t, (s.tbl t).rhead = s.walk t
  lt : ∀ t, ∀ p ∈ s.walk t, p < s.nextPath
  disjoint : ∀ p ∈ s.walk .meshPaths, p ∉ s.walk .mppPaths
  gates_nodup : (s.tbl .meshPaths).knownGates.Nodup
  gates_iff : ∀ p, p ∈ (s.tbl .meshPaths).knownGates ↔
    p ∈ s.walk .meshPaths ∧ (s.path p).isGate = true
  mpp_no_gate : ∀ p ∈ s.walk .mppPaths, (s.path p).isGate = false
  numGates_eq : s.numGates = (s.tbl .meshPaths).knownGates.length
  mpaths_le : s.mpaths ≤ meshMaxMpaths

/-- How far the counter is from what it counts. -/
def MeshIf.drift (s : MeshIf) : ℤ := s.mpaths - (s.walk .meshPaths).length

theorem MeshTablesInv.init (addr : Mac) : MeshTablesInv (meshPathtblInit addr) where
  nodup _ := nodup_nil
  rhead _ := rfl
  lt _ _ hp := absurd hp not_mem_nil
  disjoint _ hp := absurd hp not_mem_nil
  gates_nodup := nodup_nil
  gates_iff _ := ⟨fun hp => absurd hp not_mem_nil, fun hp => absurd hp.1 not_mem_nil⟩
  mpp_no_gate _ hp := absurd hp not_mem_nil
  numGates_eq := rfl
  mpaths_le := show (0 : ℤ) ≤ meshMaxMpaths by decide

variable {s : MeshIf}

theorem MeshTablesInv.length_gates (h : MeshTablesInv s) : (s.tbl .meshPaths).knownGates.length =
      ((s.walk .meshPaths).filter fun p => (s.path p).isGate).length := by
  refine List.Perm.length_eq ?_
  refine (perm_ext_iff_of_nodup h.gates_nodup ((h.nodup _).filter _)).mpr fun p => ?_
  rw [h.gates_iff, mem_filter]

theorem MeshTablesInv.mem_of_lookup (h : MeshTablesInv s) {t : MeshTbl} {dst : Mac}
    {p : ℕ} (hp : rhashtableLookup s t dst = some p) : p ∈ s.walk t := by
  rw [← h.rhead]
  exact mem_of_find?_eq_some hp

/-! ### Deleting -/

/-- What deleting one entry does. -/
structure DelSpec (s s' : MeshIf) (t : MeshTbl) (p : ℕ) : Prop where
  walk : s'.walk t = (s.walk t).erase p
  rhead : (s'.tbl t).rhead = (s.tbl t).rhead.erase p
  knownGates : (s'.tbl t).knownGates =
    if (s.path p).isGate then (s.tbl t).knownGates.erase p else (s.tbl t).knownGates
  other : ∀ t', t' ≠ t → s'.tbl t' = s.tbl t'
  path : ∀ q, q ≠ p → s'.path q = s.path q
  isGate : (s'.path p).isGate = false
  nextPath : s'.nextPath = s.nextPath
  mpaths : s'.mpaths = s.mpaths - 1
  numGates : s'.numGates = if (s.path p).isGate then s.numGates - 1 else s.numGates

theorem delSpec (s : MeshIf) (t : MeshTbl) (p : ℕ) : DelSpec s (meshPathDelEntry s t p) t p := by
  constructor
  case other =>
    intro t' ht
    cases hgate : (s.path p).isGate <;>
      simp [meshPathDelEntry, meshPathFreeRcu, meshGateDel, meshPathFlushPending, hgate,
        MeshIf.tbl_updTbl_of_ne _ ht]
  case path =>
    intro q hq
    cases hgate : (s.path p).isGate <;>
      simp [meshPathDelEntry, meshPathFreeRcu, meshGateDel, meshPathFlushPending, hgate,
        MeshIf.path_updPath_of_ne _ hq]
  all_goals
    cases hgate : (s.path p).isGate <;>
      simp [meshPathDelEntry, meshPathFreeRcu, meshGateDel, meshPathFlushPending, MeshIf.walk, hgate]

variable {t' : MeshTbl}

section Del

variable {s s' : MeshIf} {t : MeshTbl} {p : ℕ}

theorem DelSpec.walk_other (h : DelSpec s s' t p) (ht : t' ≠ t) : s'.walk t' = s.walk t' := by
  rw [MeshIf.walk, h.other t' ht, MeshIf.walk]

theorem DelSpec.walk_sublist (h : DelSpec s s' t p) (t' : MeshTbl) :
    (s'.walk t').Sublist (s.walk t') := by
  by_cases ht : t' = t
  · rw [ht, h.walk]
    exact erase_sublist
  · rw [h.walk_other ht]

theorem DelSpec.ne_of_mem (h : DelSpec s s' t p) (hinv : MeshTablesInv s) (hp : p ∈ s.walk t)
    {q : ℕ} (hq : q ∈ s'.walk t') : q ≠ p := by
  rintro rfl
  by_cases ht : t' = t
  · rw [ht, h.walk] at hq
    exact (hinv.nodup t).not_mem_erase hq
  · rw [h.walk_other ht] at hq
    cases t with
    | meshPaths =>
      cases t' with
      | meshPaths => exact ht rfl
      | mppPaths => exact hinv.disjoint q hp hq
    | mppPaths =>
      cases t' with
      | meshPaths => exact hinv.disjoint q hq hp
      | mppPaths => exact ht rfl

/-- Of what is in a table, the mark tells whether it is on the list of gates. -/
theorem MeshTablesInv.mem_gates_iff (h : MeshTablesInv s) (hp : p ∈ s.walk t) :
    p ∈ (s.tbl .meshPaths).knownGates ↔ (s.path p).isGate = true := by
  rw [h.gates_iff]
  cases t with
  | meshPaths => exact and_iff_right hp
  | mppPaths => exact ⟨And.right, fun hgate => absurd hgate (by rw [h.mpp_no_gate p hp]; decide)⟩

theorem DelSpec.gates (h : DelSpec s s' t p) (hinv : MeshTablesInv s) (hp : p ∈ s.walk t) :
    (s'.tbl .meshPaths).knownGates = (s.tbl .meshPaths).knownGates.erase p := by
  by_cases ht : MeshTbl.meshPaths = t
  · rw [ht, h.knownGates, ← ht]
    split
    · rfl
    · rename_i hgate
      exact (erase_of_not_mem fun hmem => hgate ((hinv.mem_gates_iff hp).mp hmem)).symm
  · rw [h.other _ ht, erase_of_not_mem]
    intro hmem
    cases t with
    | meshPaths => exact ht rfl
    | mppPaths => exact hinv.disjoint p ((hinv.gates_iff p).mp hmem).1 hp

theorem MeshTablesInv.del (h : MeshTablesInv s) (hp : p ∈ s.walk t) (hdel : DelSpec s s' t p) :
    MeshTablesInv s' where
  nodup t' := (hdel.walk_sublist t').nodup (h.nodup t')
  rhead t' := by
    by_cases ht : t' = t
    · rw [ht, hdel.rhead, h.rhead, hdel.walk]
    · rw [hdel.other t' ht, h.rhead, hdel.walk_other ht]
  lt t' q hq := by
    rw [hdel.nextPath]
    exact h.lt t' q ((hdel.walk_sublist t').subset hq)
  disjoint q hq hq' := h.disjoint q ((hdel.walk_sublist _).subset hq) ((hdel.walk_sublist _).subset hq')
  gates_nodup := by
    by_cases ht : MeshTbl.meshPaths = t
    · rw [ht, hdel.knownGates, ← ht]
      split
      · exact h.gates_nodup.erase p
      · exact h.gates_nodup
    · rw [hdel.other _ ht]
      exact h.gates_nodup
  gates_iff q := by
    rw [hdel.gates h hp]
    by_cases hq : q = p
    · rw [hq]
      refine iff_of_false h.gates_nodup.not_mem_erase fun hmem => ?_
      exact hdel.ne_of_mem h hp hmem.1 rfl
    · rw [mem_erase_of_ne hq, h.gates_iff, hdel.path q hq]
      refine and_congr_left fun _ => ?_
      by_cases ht : MeshTbl.meshPaths = t
      · rw [ht, hdel.walk, mem_erase_of_ne hq]
      · rw [hdel.walk_other ht]
  mpp_no_gate q hq := by
    rw [hdel.path q (hdel.ne_of_mem h hp hq)]
    exact h.mpp_no_gate q ((hdel.walk_sublist _).subset hq)
  numGates_eq := by
    rw [hdel.gates h hp, hdel.numGates, h.numGates_eq, length_erase]
    by_cases hgate : (s.path p).isGate = true
    · have hmem := (h.mem_gates_iff hp).mpr hgate
      have hpos := length_pos_of_mem hmem
      rw [if_pos hgate, if_pos hmem]
      omega
    · rw [if_neg hgate, if_neg fun hmem => hgate ((h.mem_gates_iff hp).mp hmem)]
  mpaths_le := by
    have := h.mpaths_le
    rw [hdel.mpaths]
    omega

end Del

/-! ### Walking and deleting -/

/-- What a walk has done. -/
structure WalkSpec (s s' : MeshIf) (t : MeshTbl) (l : List ℕ) : Prop where
  inv : MeshTablesInv s'
  walk : (s'.walk t).length + l.length = (s.walk t).length
  walk_other : ∀ t', t' ≠ t → s'.walk t' = s.walk t'
  path : ∀ q, q ∉ s.walk t → s'.path q = s.path q
  mpaths : s'.mpaths = s.mpaths - l.length

/-- One after the other, the paths that meet the condition are deleted. -/
theorem MeshTablesInv.foldl_del {t : MeshTbl} {cond : MeshPath → Bool} (l : List ℕ) :
    ∀ {s : MeshIf}, MeshTablesInv s → l.Nodup → (∀ p ∈ l, p ∈ s.walk t) →
      WalkSpec s (l.foldl (fun s p => if cond (s.path p) then meshPathDelEntry s t p else s) s) t
        (l.filter fun p => cond (s.path p)) := by
  induction l with
  | nil =>
    intro s h _ _
    exact ⟨h, rfl, fun _ _ => rfl, fun _ _ => rfl, (sub_zero _).symm⟩
  | cons p l ih =>
    intro s h hnodup hl
    rw [nodup_cons] at hnodup
    have hp : p ∈ s.walk t := hl p mem_cons_self
    rw [foldl_cons]
    by_cases hcond : cond (s.path p) = true
    · have hdel := delSpec s t p
      have hne : ∀ q ∈ l, q ≠ p := fun q hq hqp => hnodup.1 (hqp ▸ hq)
      have hspec := ih (h.del hp hdel) hnodup.2 fun q hq => by
        rw [hdel.walk, mem_erase_of_ne (hne q hq)]
        exact hl q (mem_cons_of_mem p hq)
      have hfilter : (l.filter fun q => cond ((meshPathDelEntry s t p).path q)) =
          l.filter fun q => cond (s.path q) :=
        filter_congr fun q hq => by rw [hdel.path q (hne q hq)]
      rw [hfilter] at hspec
      rw [if_pos hcond, filter_cons, if_pos hcond]
      refine ⟨hspec.inv, ?_, ?_, ?_, ?_⟩
      · have hlen := hspec.walk
        rw [hdel.walk, length_erase_of_mem hp] at hlen
        have := length_pos_of_mem hp
        rw [length_cons]
        omega
      · intro t' ht
        rw [hspec.walk_other t' ht, hdel.walk_other ht]
      · intro q hq
        have hqp : q ≠ p := fun hqp => hq (hqp ▸ hp)
        rw [hspec.path q fun hmem => hq ((hdel.walk_sublist t).subset hmem), hdel.path q hqp]
      · rw [hspec.mpaths, hdel.mpaths, length_cons]
        omega
    · rw [if_neg hcond, filter_cons, if_neg hcond]
      exact ih h hnodup.2 fun q hq => hl q (mem_cons_of_mem p hq)

/-- **Walking over a table and deleting.** -/
theorem MeshTablesInv.walkDel (h : MeshTablesInv s) (t : MeshTbl) (cond : MeshPath → Bool) :
    WalkSpec s (walkDel s t cond) t ((s.walk t).filter fun p => cond (s.path p)) :=
  h.foldl_del (s.walk t) (h.nodup t) fun _ hp => hp

/-! ### Adding -/

section Add

variable {s s' : MeshIf} {t : MeshTbl} {p : ℕ}

theorem MeshTablesInv.congr (h : MeshTablesInv s) (htbl : s'.tbl = s.tbl) (hpath : s'.path = s.path)
    (hnext : s'.nextPath = s.nextPath) (hgates : s'.numGates = s.numGates)
    (hmpaths : s'.mpaths ≤ meshMaxMpaths) : MeshTablesInv s' := by
  have hwalk : s'.walk = s.walk := by
    funext t
    rw [MeshIf.walk, MeshIf.walk, htbl]
  constructor
  · exact hwalk ▸ h.nodup
  · rw [htbl, hwalk]
    exact h.rhead
  · rw [hwalk, hnext]
    exact h.lt
  · rw [hwalk]
    exact h.disjoint
  · rw [htbl]
    exact h.gates_nodup
  · rw [htbl, hwalk, hpath]
    exact h.gates_iff
  · rw [hwalk, hpath]
    exact h.mpp_no_gate
  · rw [hgates, htbl]
    exact h.numGates_eq
  · exact hmpaths

/-- Writing to a path keeps the invariant, as long as the mark stays. -/
theorem MeshTablesInv.updPath (h : MeshTablesInv s) {f : MeshPath → MeshPath}
    (hf : (f (s.path p)).isGate = (s.path p).isGate) : MeshTablesInv (s.updPath p f) := by
  have hgate : ∀ q, ((s.updPath p f).path q).isGate = (s.path q).isGate := by
    intro q
    by_cases hq : q = p
    · rw [hq, MeshIf.path_updPath, hf]
    · rw [MeshIf.path_updPath_of_ne _ hq]
  exact
    { nodup := h.nodup
      rhead := h.rhead
      lt := h.lt
      disjoint := h.disjoint
      gates_nodup := h.gates_nodup
      gates_iff := fun q => by
        rw [hgate]
        exact h.gates_iff q
      mpp_no_gate := fun q hq => by
        rw [hgate]
        exact h.mpp_no_gate q hq
      numGates_eq := h.numGates_eq
      mpaths_le := h.mpaths_le }

theorem MeshTablesInv.nextPath_not_mem (h : MeshTablesInv s) (t : MeshTbl) : s.nextPath ∉ s.walk t :=
  fun hmem => Nat.lt_irrefl _ (h.lt t _ hmem)

theorem MeshTablesInv.new (h : MeshTablesInv s) (jiffies : UInt64) (dst : Mac) :
    MeshTablesInv (meshPathNew jiffies s dst).2 := by
  have hpath : ∀ t, ∀ q ∈ s.walk t, (meshPathNew jiffies s dst).2.path q = s.path q := by
    intro t q hq
    have hne : q ≠ s.nextPath := fun hqn => h.nextPath_not_mem t (hqn ▸ hq)
    exact Function.update_of_ne hne _ _
  exact
    { nodup := h.nodup
      rhead := h.rhead
      lt := fun t q hq => Nat.lt_succ_of_lt (h.lt t q hq)
      disjoint := h.disjoint
      gates_nodup := h.gates_nodup
      gates_iff := fun q => by
        refine (h.gates_iff q).trans (and_congr_right fun hq => ?_)
        rw [hpath _ q hq]
      mpp_no_gate := fun q hq => by
        rw [hpath _ q hq]
        exact h.mpp_no_gate q hq
      numGates_eq := h.numGates_eq
      mpaths_le := h.mpaths_le }

@[simp] theorem walk_linkPath (s : MeshIf) (t : MeshTbl) (p : ℕ) :
    (linkPath s t p).walk t = p :: s.walk t := by
  simp [linkPath, MeshIf.walk]

theorem tbl_linkPath_of_ne (ht : t' ≠ t) : (linkPath s t p).tbl t' = s.tbl t' :=
  MeshIf.tbl_updTbl_of_ne s ht _

theorem walk_linkPath_of_ne (ht : t' ≠ t) : (linkPath s t p).walk t' = s.walk t' := by
  rw [MeshIf.walk, tbl_linkPath_of_ne ht, MeshIf.walk]

theorem knownGates_linkPath (s : MeshIf) (t t' : MeshTbl) (p : ℕ) :
    ((linkPath s t p).tbl t').knownGates = (s.tbl t').knownGates := by
  by_cases ht : t' = t
  · rw [ht, linkPath, MeshIf.tbl_updTbl]
  · rw [tbl_linkPath_of_ne ht]

theorem MeshTablesInv.link (h : MeshTablesInv s) (hnew : ∀ t', p ∉ s.walk t') (hlt : p < s.nextPath)
    (hgate : (s.path p).isGate = false) (t : MeshTbl) : MeshTablesInv (linkPath s t p) := by
  have hmem : ∀ t' q, q ∈ (linkPath s t p).walk t' → (t' = t ∧ q = p) ∨ q ∈ s.walk t' := by
    intro t' q hq
    by_cases ht : t' = t
    · rw [ht, walk_linkPath, mem_cons] at hq
      rcases hq with hq | hq
      · exact .inl ⟨ht, hq⟩
      · exact .inr (ht ▸ hq)
    · rw [walk_linkPath_of_ne ht] at hq
      exact .inr hq
  constructor
  case nodup =>
    intro t'
    by_cases ht : t' = t
    · rw [ht, walk_linkPath, nodup_cons]
      exact ⟨hnew t, h.nodup t⟩
    · rw [walk_linkPath_of_ne ht]
      exact h.nodup t'
  case rhead =>
    intro t'
    by_cases ht : t' = t
    · rw [ht, walk_linkPath, ← h.rhead]
      simp [linkPath]
    · rw [walk_linkPath_of_ne ht, tbl_linkPath_of_ne ht]
      exact h.rhead t'
  case lt =>
    intro t' q hq
    rcases hmem t' q hq with ⟨-, rfl⟩ | hq
    · exact hlt
    · exact h.lt t' q hq
  case disjoint =>
    intro q hq hq'
    rcases hmem _ q hq with ⟨ht, hqp⟩ | hmesh
    · rcases hmem _ q hq' with ⟨ht', -⟩ | hmpp
      · exact absurd (ht.trans ht'.symm) (by decide)
      · exact hnew _ (hqp ▸ hmpp)
    · rcases hmem _ q hq' with ⟨-, hqp⟩ | hmpp
      · exact hnew _ (hqp ▸ hmesh)
      · exact h.disjoint q hmesh hmpp
  case gates_nodup =>
    rw [knownGates_linkPath]
    exact h.gates_nodup
  case gates_iff =>
    intro q
    rw [knownGates_linkPath, h.gates_iff]
    refine ⟨fun hq => ⟨?_, hq.2⟩, fun hq => ?_⟩
    · by_cases ht : MeshTbl.meshPaths = t
      · rw [← ht, walk_linkPath]
        exact mem_cons_of_mem p hq.1
      · rw [walk_linkPath_of_ne ht]
        exact hq.1
    · rcases hmem _ q hq.1 with ⟨-, rfl⟩ | hmem
      · exact absurd hq.2 (by rw [linkPath, MeshIf.path_updTbl, hgate]; decide)
      · exact ⟨hmem, hq.2⟩
  case mpp_no_gate =>
    intro q hq
    rcases hmem _ q hq with ⟨-, rfl⟩ | hq
    · exact hgate
    · exact h.mpp_no_gate q hq
  case numGates_eq =>
    rw [knownGates_linkPath]
    exact h.numGates_eq
  case mpaths_le => exact h.mpaths_le

end Add

/-! ### Steps -/

/-- The step counts what it adds, and frees nothing that was not counted: a path that passes the limit is
added, and no proxy entry goes away. -/
def Balanced (hz : UInt64) (s : MeshIf) : PathEvent → Prop
  | .add _ kzalloc insertErr dst =>
    dst = s.addr ∨ isMulticastEtherAddr dst = true ∨ s.mpaths = meshMaxMpaths ∨
      (kzalloc = true ∧ insertErr = none ∧ rhashtableLookup s .meshPaths dst = none)
  | .del addr => ∀ p ∈ s.walk .mppPaths, (s.path p).mpp ≠ addr
  | .flushByIface => s.walk .mppPaths = []
  | .expire jiffies => ∀ p ∈ s.walk .mppPaths, pathExpires jiffies hz (s.path p) = false
  | _ => True

instance decidableBalanced (hz : UInt64) (s : MeshIf) : ∀ e, Decidable (Balanced hz s e)
  | .add _ kzalloc insertErr dst =>
    inferInstanceAs (Decidable (dst = s.addr ∨ isMulticastEtherAddr dst = true ∨
      s.mpaths = meshMaxMpaths ∨
        (kzalloc = true ∧ insertErr = none ∧ rhashtableLookup s .meshPaths dst = none)))
  | .mppAdd _ _ _ _ _ => .isTrue trivial
  | .del addr => inferInstanceAs (Decidable (∀ p ∈ s.walk .mppPaths, (s.path p).mpp ≠ addr))
  | .flushByNexthop _ => .isTrue trivial
  | .flushByIface => inferInstanceAs (Decidable (s.walk .mppPaths = []))
  | .expire jiffies =>
    inferInstanceAs (Decidable (∀ p ∈ s.walk .mppPaths, pathExpires jiffies hz (s.path p) = false))
  | .addGate _ _ => .isTrue trivial
  | .rewrite _ _ => .isTrue trivial

/-- What a step does to the invariant and to the drift. -/
structure StepSpec (s s' : MeshIf) (balanced : Prop) : Prop where
  inv : MeshTablesInv s'
  drift : s'.drift = s.drift ↔ balanced

section Step

variable {s : MeshIf} {jiffies hz : UInt64}

theorem MeshIf.drift_congr {s s' : MeshIf} (hm : s'.mpaths = s.mpaths)
    (hw : s'.walk .meshPaths = s.walk .meshPaths) : s'.drift = s.drift := by
  rw [MeshIf.drift, hm, hw, MeshIf.drift]

theorem lookup_meshPathNew (h : MeshTablesInv s) (jiffies : UInt64) (t : MeshTbl) (dst dst' : Mac) :
    rhashtableLookup (meshPathNew jiffies s dst').2 t dst = rhashtableLookup s t dst := by
  have hcongr : ∀ p ∈ s.walk t, ((meshPathNew jiffies s dst').2.path p).dst = (s.path p).dst := by
    intro p hp
    have hne : p ≠ s.nextPath := fun hpn => h.nextPath_not_mem t (hpn ▸ hp)
    exact congrArg MeshPath.dst (Function.update_of_ne hne _ _)
  rw [← h.rhead] at hcongr
  have htbl : (meshPathNew jiffies s dst').2.tbl = s.tbl := rfl
  rw [rhashtableLookup, rhashtableLookup, htbl]
  exact List.find?_congr fun p hp => by rw [hcongr p hp]

theorem MeshTablesInv.meshPathAdd (h : MeshTablesInv s) (kzalloc : Bool) (insertErr : Option ℤ)
    (dst : Mac) : StepSpec s (meshPathAdd jiffies kzalloc insertErr s dst).2
      (Balanced hz s (.add jiffies kzalloc insertErr dst)) := by
  rw [Mac80211.meshPathAdd, Balanced]
  by_cases haddr : dst = s.addr
  · rw [if_pos haddr]
    exact ⟨h, iff_of_true rfl (.inl haddr)⟩
  rw [if_neg haddr]
  by_cases hmulti : isMulticastEtherAddr dst = true
  · rw [if_pos hmulti]
    exact ⟨h, iff_of_true rfl (.inr (.inl hmulti))⟩
  rw [if_neg hmulti]
  by_cases hfull : s.mpaths = meshMaxMpaths
  · rw [if_pos hfull]
    exact ⟨h, iff_of_true rfl (.inr (.inr (.inl hfull)))⟩
  rw [if_neg hfull]
  rw [or_iff_right haddr, or_iff_right hmulti, or_iff_right hfull]
  have hle : s.mpaths + 1 ≤ meshMaxMpaths := by
    have := h.mpaths_le
    omega
  have hcounted : MeshTablesInv { s with mpaths := s.mpaths + 1 } := h.congr rfl rfl rfl rfl hle
  have hdrift : ∀ {s' : MeshIf}, s'.mpaths = s.mpaths + 1 →
      s'.walk .meshPaths = s.walk .meshPaths → s'.drift ≠ s.drift := by
    intro s' hm hw
    rw [MeshIf.drift, MeshIf.drift, hm, hw]
    omega
  cases kzalloc with
  | false => exact ⟨hcounted, iff_of_false (hdrift rfl rfl) fun hb => absurd hb.1 (by decide)⟩
  | true =>
    have hnew : MeshTablesInv (meshPathNew jiffies { s with mpaths := s.mpaths + 1 } dst).2 :=
      hcounted.new jiffies dst
    have hlookup := lookup_meshPathNew hcounted jiffies .meshPaths dst dst
    rw [if_neg (by decide)]
    dsimp only
    rw [hlookup]
    cases hfound : rhashtableLookup { s with mpaths := s.mpaths + 1 } .meshPaths dst with
    | some p =>
      dsimp only
      refine ⟨hnew.congr rfl rfl rfl rfl hnew.mpaths_le, iff_of_false (hdrift rfl rfl) fun hb => ?_⟩
      exact Option.some_ne_none p (hfound.symm.trans hb.2.2)
    | none =>
      cases insertErr with
      | some err => exact ⟨hnew, iff_of_false (hdrift rfl rfl) fun hb => absurd hb.2.1 (by simp)⟩
      | none =>
        have hlinked := hnew.link (fun t => hcounted.nextPath_not_mem t) (Nat.lt_succ_self _)
          (by simp [meshPathNew]) .meshPaths
        refine ⟨hlinked.congr rfl rfl rfl rfl hlinked.mpaths_le, iff_of_true ?_ ⟨rfl, rfl, hfound⟩⟩
        change s.mpaths + 1 - (((linkPath _ .meshPaths _).walk .meshPaths).length : ℤ) = _
        rw [walk_linkPath, length_cons, MeshIf.drift]
        change s.mpaths + 1 - (((s.walk .meshPaths).length + 1 : ℕ) : ℤ) = _
        omega

theorem MeshTablesInv.mppPathAdd (h : MeshTablesInv s) (kzalloc : Bool) (insertErr : Option ℤ)
    (dst mpp : Mac) : StepSpec s (mppPathAdd jiffies kzalloc insertErr s dst mpp).2 True := by
  rw [Mac80211.mppPathAdd]
  by_cases haddr : dst = s.addr
  · rw [if_pos haddr]
    exact ⟨h, iff_of_true rfl trivial⟩
  rw [if_neg haddr]
  by_cases hmulti : isMulticastEtherAddr dst = true
  · rw [if_pos hmulti]
    exact ⟨h, iff_of_true rfl trivial⟩
  rw [if_neg hmulti]
  cases kzalloc with
  | false => exact ⟨h, iff_of_true rfl trivial⟩
  | true =>
    have hnew : MeshTablesInv ((meshPathNew jiffies s dst).2.updPath (meshPathNew jiffies s dst).1
        fun m => { m with mpp := mpp }) := (h.new jiffies dst).updPath rfl
    rw [if_neg (by decide)]
    dsimp only
    split
    · exact ⟨hnew.congr rfl rfl rfl rfl hnew.mpaths_le, iff_of_true rfl trivial⟩
    · split
      · exact ⟨hnew.congr rfl rfl rfl rfl hnew.mpaths_le, iff_of_true rfl trivial⟩
      · have hlinked := hnew.link (fun t => h.nextPath_not_mem t) (Nat.lt_succ_self _)
          (by simp [meshPathNew]) .mppPaths
        refine ⟨hlinked.congr rfl rfl rfl rfl hlinked.mpaths_le, iff_of_true ?_ trivial⟩
        refine MeshIf.drift_congr rfl ?_
        exact walk_linkPath_of_ne (by decide)

variable {s' : MeshIf}

theorem WalkSpec.drift_mesh {l : List ℕ} (h : WalkSpec s s' .meshPaths l) : s'.drift = s.drift := by
  have hlen := h.walk
  rw [MeshIf.drift, MeshIf.drift, h.mpaths]
  omega

theorem WalkSpec.drift_mpp {l : List ℕ} (h : WalkSpec s s' .mppPaths l) :
    s'.drift = s.drift - l.length := by
  rw [MeshIf.drift, MeshIf.drift, h.mpaths, h.walk_other .meshPaths (by decide)]
  omega

theorem WalkSpec.drift_mpp_iff (cond : MeshPath → Bool)
    (h : WalkSpec s s' .mppPaths ((s.walk .mppPaths).filter fun p => cond (s.path p))) :
    s'.drift = s.drift ↔ ∀ p ∈ s.walk .mppPaths, cond (s.path p) = false := by
  rw [h.drift_mpp]
  constructor
  · intro hsub
    have hzero : ((s.walk .mppPaths).filter fun p => cond (s.path p)).length = 0 := by omega
    rw [length_eq_zero_iff, filter_eq_nil_iff] at hzero
    exact fun p hp => Bool.eq_false_iff.mpr (hzero p hp)
  · intro hnone
    have hnil : ((s.walk .mppPaths).filter fun p => cond (s.path p)) = [] :=
      filter_eq_nil_iff.mpr fun p hp => by rw [hnone p hp]; decide
    rw [hnil]
    exact sub_zero _

theorem MeshTablesInv.walkDel_both (h : MeshTablesInv s) (cond : MeshPath → Bool) :
    StepSpec s (Mac80211.walkDel (Mac80211.walkDel s .meshPaths cond) .mppPaths cond)
      (∀ p ∈ s.walk .mppPaths, cond (s.path p) = false) := by
  have hmesh := h.walkDel .meshPaths cond
  have hmpp := hmesh.inv.walkDel .mppPaths cond
  refine ⟨hmpp.inv, ?_⟩
  rw [← hmesh.drift_mesh, hmpp.drift_mpp_iff cond, hmesh.walk_other .mppPaths (by decide)]
  refine forall₂_congr fun p hp => ?_
  rw [hmesh.path p fun hmem => h.disjoint p hmem hp]

theorem MeshTablesInv.meshPathDel (h : MeshTablesInv s) (addr : Mac) :
    StepSpec s (meshPathDel s addr).2 (∀ p ∈ s.walk .mppPaths, (s.path p).mpp ≠ addr) := by
  have hmpp := h.walkDel .mppPaths fun mpath => mpath.mpp == addr
  have hiff : (mppFlushByProxy s addr).drift = s.drift ↔
      ∀ p ∈ s.walk .mppPaths, (s.path p).mpp ≠ addr := by
    refine (hmpp.drift_mpp_iff fun mpath => mpath.mpp == addr).trans (forall₂_congr fun p _ => ?_)
    exact beq_eq_false_iff_ne
  rw [Mac80211.meshPathDel]
  dsimp only
  rw [tablePathDel]
  cases hfound : rhashtableLookup (mppFlushByProxy s addr) .meshPaths addr with
  | none => exact ⟨hmpp.inv.congr rfl rfl rfl rfl hmpp.inv.mpaths_le, hiff⟩
  | some p =>
    have hp : p ∈ (mppFlushByProxy s addr).walk .meshPaths := hmpp.inv.mem_of_lookup hfound
    have hdel := delSpec (mppFlushByProxy s addr) .meshPaths p
    have hinv := hmpp.inv.del hp hdel
    refine ⟨hinv.congr rfl rfl rfl rfl hinv.mpaths_le, ?_⟩
    have hdrift : (meshPathDelEntry (mppFlushByProxy s addr) .meshPaths p).drift =
        (mppFlushByProxy s addr).drift := by
      have hpos := length_pos_of_mem hp
      rw [MeshIf.drift, MeshIf.drift, hdel.mpaths, hdel.walk, length_erase_of_mem hp]
      omega
    rw [← hiff, ← hdrift]
    rfl

theorem mpathLookup_spec (h : MeshTablesInv s) (jiffies : UInt64) (t : MeshTbl) (dst : Mac) :
    MeshTablesInv (mpathLookup jiffies s t dst).2 ∧ (mpathLookup jiffies s t dst).2.tbl = s.tbl ∧
      (mpathLookup jiffies s t dst).2.mpaths = s.mpaths ∧
      ∀ p, (mpathLookup jiffies s t dst).1 = some p → p ∈ s.walk t := by
  rw [mpathLookup]
  cases hfound : rhashtableLookup s t dst with
  | none => exact ⟨h, rfl, rfl, fun p hp => absurd hp (by simp)⟩
  | some p =>
    have hp : ∀ q, some p = some q → q ∈ s.walk t := fun q hq =>
      Option.some.inj hq ▸ h.mem_of_lookup hfound
    dsimp only
    split
    · refine ⟨?_, rfl, rfl, hp⟩
      dsimp only
      refine h.updPath ?_
      rfl
    · exact ⟨h, rfl, rfl, hp⟩

/-- What marking a path as a gate does. -/
structure GateSpec (s s' : MeshIf) (p : ℕ) : Prop where
  knownGates : (s'.tbl .meshPaths).knownGates = p :: (s.tbl .meshPaths).knownGates
  walk : ∀ t, s'.walk t = s.walk t
  rhead : ∀ t, (s'.tbl t).rhead = (s.tbl t).rhead
  path : ∀ q, q ≠ p → s'.path q = s.path q
  isGate : (s'.path p).isGate = true
  nextPath : s'.nextPath = s.nextPath
  mpaths : s'.mpaths = s.mpaths
  numGates : s'.numGates = s.numGates + 1

theorem gateSpec {p : ℕ} (hgate : (s.path p).isGate = false) :
    GateSpec s (meshPathAddGate s p).2 p := by
  rw [meshPathAddGate, hgate]
  constructor
  case walk =>
    intro t
    cases t <;> rfl
  case rhead =>
    intro t
    cases t <;> rfl
  case path => exact fun q hq => Function.update_of_ne hq _ _
  all_goals simp

theorem MeshTablesInv.addGate (h : MeshTablesInv s) {p : ℕ} (hp : p ∈ s.walk .meshPaths) :
    MeshTablesInv (meshPathAddGate s p).2 ∧ (meshPathAddGate s p).2.drift = s.drift := by
  cases hgate : (s.path p).isGate with
  | true =>
    rw [meshPathAddGate, if_pos hgate]
    exact ⟨h, rfl⟩
  | false =>
    have hspec := gateSpec hgate
    have hnot : p ∉ (s.tbl .meshPaths).knownGates := by
      rw [h.mem_gates_iff hp, hgate]
      decide
    refine ⟨?_, MeshIf.drift_congr hspec.mpaths (hspec.walk .meshPaths)⟩
    constructor
    case nodup =>
      intro t
      rw [hspec.walk]
      exact h.nodup t
    case rhead =>
      intro t
      rw [hspec.walk, hspec.rhead]
      exact h.rhead t
    case lt =>
      intro t
      rw [hspec.walk, hspec.nextPath]
      exact h.lt t
    case disjoint =>
      rw [hspec.walk, hspec.walk]
      exact h.disjoint
    case gates_nodup =>
      rw [hspec.knownGates]
      exact nodup_cons.mpr ⟨hnot, h.gates_nodup⟩
    case gates_iff =>
      intro q
      rw [hspec.walk, hspec.knownGates, mem_cons]
      by_cases hq : q = p
      · rw [hq]
        exact iff_of_true (.inl rfl) ⟨hp, hspec.isGate⟩
      · rw [or_iff_right hq, h.gates_iff, hspec.path q hq]
    case mpp_no_gate =>
      intro q hq
      rw [hspec.walk] at hq
      rw [hspec.path q fun hqp => h.disjoint p hp (hqp ▸ hq)]
      exact h.mpp_no_gate q hq
    case numGates_eq =>
      rw [hspec.numGates, hspec.knownGates, h.numGates_eq, length_cons, Nat.cast_add,
        Nat.cast_one]
    case mpaths_le =>
      rw [hspec.mpaths]
      exact h.mpaths_le

/-- **Every step keeps the invariant**, and the drift exactly if it is balanced. -/
theorem MeshTablesInv.pathStep (h : MeshTablesInv s) {e : PathEvent} {o : List Unit}
    (hs : pathStep hz s e = some (s', o)) : StepSpec s s' (Balanced hz s e) := by
  cases e with
  | add jiffies kzalloc insertErr dst =>
    cases hs
    exact h.meshPathAdd kzalloc insertErr dst
  | mppAdd jiffies kzalloc insertErr dst mpp =>
    cases hs
    exact h.mppPathAdd kzalloc insertErr dst mpp
  | del addr =>
    cases hs
    exact h.meshPathDel addr
  | flushByNexthop sta =>
    cases hs
    have hspec := h.walkDel .meshPaths fun mpath => mpath.nextHop == some sta
    exact ⟨hspec.inv, iff_of_true hspec.drift_mesh trivial⟩
  | flushByIface =>
    cases hs
    have hspec := h.walkDel_both fun _ => true
    refine ⟨hspec.inv, hspec.drift.trans ?_⟩
    rw [Balanced, eq_nil_iff_forall_not_mem]
    exact forall₂_congr fun p _ => by simp
  | expire jiffies =>
    cases hs
    exact h.walkDel_both (pathExpires jiffies hz)
  | addGate jiffies dst =>
    obtain ⟨hinv, htbl, hmpaths, hmem⟩ :=
      mpathLookup_spec h jiffies .meshPaths dst
    have hwalk : (mpathLookup jiffies s .meshPaths dst).2.walk .meshPaths = s.walk .meshPaths := by
      rw [MeshIf.walk, htbl, MeshIf.walk]
    have hdrift : (mpathLookup jiffies s .meshPaths dst).2.drift = s.drift :=
      MeshIf.drift_congr hmpaths hwalk
    rw [Mac80211.pathStep, meshPathLookup] at hs
    cases hfound : mpathLookup jiffies s .meshPaths dst with
    | mk r s₁ =>
      rw [hfound] at hs hinv hwalk hdrift hmem
      cases r with
      | none =>
        cases hs
        exact ⟨hinv, iff_of_true hdrift trivial⟩
      | some p =>
        cases hs
        have hp : p ∈ s₁.walk .meshPaths := hwalk ▸ hmem p rfl
        obtain ⟨hinv', hdrift'⟩ := hinv.addGate hp
        exact ⟨hinv', iff_of_true (hdrift'.trans hdrift) trivial⟩
  | rewrite p f =>
    cases hs
    exact ⟨h.updPath rfl, iff_of_true rfl trivial⟩

end Step

/-! ### Runs -/

/-- The number of gates is right. -/
structure GatesAccounted (s : MeshIf) : Prop where
  numGates : s.numGates = (s.tbl .meshPaths).knownGates.length
  marked : (s.tbl .meshPaths).knownGates.length =
    ((s.walk .meshPaths).filter fun p => (s.path p).isGate).length

/-- The number of paths is right, too, and the limit is reached when there are that many. -/
structure PathsAccounted (s : MeshIf) : Prop extends GatesAccounted s where
  rhead : (s.tbl .meshPaths).rhead = s.walk .meshPaths
  mpaths : s.mpaths = (s.walk .meshPaths).length
  limit : ((s.walk .meshPaths).length : ℤ) ≤ meshMaxMpaths
  full : ∀ jiffies kzalloc dst, (meshPathAdd jiffies kzalloc none s dst).1 = .error (-ENOSPC) →
    ((s.walk .meshPaths).length : ℤ) = meshMaxMpaths

theorem MeshTablesInv.gatesAccounted (h : MeshTablesInv s) : GatesAccounted s :=
  ⟨h.numGates_eq, h.length_gates⟩

/-- Only the limit makes `mesh_path_add` report that there is no space. -/
theorem mpaths_of_enospc {jiffies : UInt64} {kzalloc : Bool} {dst : Mac}
    (h : (meshPathAdd jiffies kzalloc none s dst).1 = .error (-ENOSPC)) :
    s.mpaths = meshMaxMpaths := by
  by_contra hfull
  rw [meshPathAdd] at h
  by_cases haddr : dst = s.addr
  · rw [if_pos haddr] at h
    exact absurd (Except.error.inj h) (by decide)
  by_cases hmulti : isMulticastEtherAddr dst = true
  · rw [if_neg haddr, if_pos hmulti] at h
    exact absurd (Except.error.inj h) (by decide)
  rw [if_neg haddr, if_neg hmulti, if_neg hfull] at h
  cases kzalloc with
  | false => exact absurd (Except.error.inj h) (by decide)
  | true =>
    rw [if_neg (by decide)] at h
    dsimp only at h
    split at h
    · cases h
    · cases h

theorem MeshTablesInv.pathsAccounted (h : MeshTablesInv s) (hdrift : s.drift = 0) :
    PathsAccounted s := by
  have hmpaths : s.mpaths = (s.walk .meshPaths).length := by
    rw [MeshIf.drift] at hdrift
    omega
  refine ⟨h.gatesAccounted, h.rhead _, hmpaths, hmpaths ▸ h.mpaths_le, ?_⟩
  intro jiffies kzalloc dst hfull
  rw [← hmpaths]
  exact mpaths_of_enospc hfull

/-- **Counting mesh paths.** In runs of balanced steps the counter is the number of paths. In every
run the gates are counted right, and a step changes the difference between counter and table exactly
if it is not balanced. -/
theorem mpaths_accounting (hz : UInt64) (addr : Mac) :
    (∀ s os, Machine.Reach (pathStep hz) (fun s _ e => Balanced hz s e) (meshPathtblInit addr) s os →
      PathsAccounted s) ∧
    ∀ s os, Machine.Reach (pathStep hz) (fun _ _ _ => True) (meshPathtblInit addr) s os →
      GatesAccounted s ∧ ∀ e s' o, pathStep hz s e = some (s', o) →
        (s'.drift = s.drift ↔ Balanced hz s e) := by
  constructor
  · intro s os hr
    have hinv : MeshTablesInv s ∧ s.drift = 0 := by
      refine hr.invariant (fun s _ => MeshTablesInv s ∧ s.drift = 0) ⟨.init addr, rfl⟩ ?_
      intro s os e s' o h hc hs
      have hspec := h.1.pathStep hs
      exact ⟨hspec.inv, (hspec.drift.mpr hc).trans h.2⟩
    exact hinv.1.pathsAccounted hinv.2
  · intro s os hr
    have hinv : MeshTablesInv s := by
      refine hr.invariant (fun s _ => MeshTablesInv s) (.init addr) ?_
      intro s os e s' o h _ hs
      exact (h.pathStep hs).inv
    exact ⟨hinv.gatesAccounted, fun e s' o hs => (hinv.pathStep hs).drift⟩

/-- Stations by number. -/
private def meshAddr (n : UInt8) : Mac := Vector.replicate 6 (2 * n)

/-- Two paths, one of them to a gate; the other one expires. -/
theorem mpaths_accounting_balanced : ∃ s os,
    Machine.Reach (pathStep 250) (fun s _ e => Balanced 250 s e) (meshPathtblInit (meshAddr 1)) s os ∧
      s.walk .meshPaths = [1] ∧ PathsAccounted s := by
  have hrun : (Machine.run (pathStep 250) (meshPathtblInit (meshAddr 1))
      [.add 0 true none (meshAddr 2), .add 1000 true none (meshAddr 3), .addGate 1000 (meshAddr 3),
        .expire 150500]).map (fun r => r.1.walk .meshPaths) = some [1] := by
    decide +kernel
  obtain ⟨⟨s, os⟩, hr, hs⟩ := Option.map_eq_some_iff.mp hrun
  have hreach := Machine.Reach.of_run .init (by decide +kernel :
    Machine.Meets (pathStep 250) (fun s _ e => Balanced 250 s e) (meshPathtblInit (meshAddr 1)) []
      [.add 0 true none (meshAddr 2), .add 1000 true none (meshAddr 3), .addGate 1000 (meshAddr 3),
        .expire 150500]) hr
  exact ⟨s, _, hreach, hs, (mpaths_accounting 250 (meshAddr 1)).1 s _ hreach⟩

/-- A path added twice is counted twice; and a proxy entry that goes away takes the counter below 0. -/
theorem mpaths_drifts :
    (∃ s os, Machine.Reach (pathStep 250) (fun _ _ _ => True) (meshPathtblInit (meshAddr 1)) s os ∧
      s.mpaths = 2 ∧ s.walk .meshPaths = [0]) ∧
    ∃ s os, Machine.Reach (pathStep 250) (fun _ _ _ => True) (meshPathtblInit (meshAddr 1)) s os ∧
      s.mpaths = -1 ∧ s.walk .meshPaths = [] := by
  constructor
  · have hrun : (Machine.run (pathStep 250) (meshPathtblInit (meshAddr 1))
        [.add 0 true none (meshAddr 2), .add 0 true none (meshAddr 2)]).map
          (fun r => (r.1.mpaths, r.1.walk .meshPaths)) = some (2, [0]) := by
      decide +kernel
    obtain ⟨⟨s, os⟩, hr, hs⟩ := Option.map_eq_some_iff.mp hrun
    rw [Prod.mk.injEq] at hs
    exact ⟨s, os, Machine.Reach.of_run_init hr, hs.1, hs.2⟩
  · have hrun : (Machine.run (pathStep 250) (meshPathtblInit (meshAddr 1))
        [.mppAdd 0 true none (meshAddr 2) (meshAddr 3), .del (meshAddr 3)]).map
          (fun r => (r.1.mpaths, r.1.walk .meshPaths)) = some (-1, []) := by
      decide +kernel
    obtain ⟨⟨s, os⟩, hr, hs⟩ := Option.map_eq_some_iff.mp hrun
    rw [Prod.mk.injEq] at hs
    exact ⟨s, os, Machine.Reach.of_run_init hr, hs.1, hs.2⟩

end Mac80211
