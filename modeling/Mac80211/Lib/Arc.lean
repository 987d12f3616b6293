import Mathlib.Data.UInt

/-!
# Arcs of a wheel of `2 ^ 32` places

`arc a n` is `n` places from `a` on, where the place after the last one is the first. A place
belongs to it if it is less than `n` after `a`, so nothing has to be said about the end of the
wheel.

## Main definitions

* `arc`
-/

namespace Arc

variable {a b f n m : UInt32}

/-- `n` places from `a` on. -/
def arc (a n : UInt32) : Set UInt32 := {f | f - a < n}

theorem mem_arc : f ∈ arc a n ↔ (f - a).toNat < n.toNat := UInt32.lt_iff_toNat_lt

instance (a n f : UInt32) : Decidable (f ∈ arc a n) := inferInstanceAs (Decidable (f - a < n))

theorem toNat_sub_add (f a b : UInt32) :
    (f - b).toNat = ((f - a).toNat + (a - b).toNat) % 2 ^ 32 := by
  rw [← UInt32.toNat_add]
  congr 1
  rw [sub_add_sub_cancel]

/-- An arc is part of another. -/
theorem arc_subset_iff (hn : 0 < n.toNat) (hnm : n.toNat ≤ m.toNat) (hm : n.toNat + m.toNat < 2 ^ 32) :
    arc a n ⊆ arc b m ↔ (a - b).toNat ≤ m.toNat - n.toNat := by
  have hlt := (a - b).toNat_lt
  constructor
  · intro h
    have hfirst : (a - b).toNat < m.toNat := by
      refine mem_arc.1 (h (mem_arc.2 ?_))
      rw [sub_self]
      exact hn
    have hplace : (UInt32.ofNat (n.toNat - 1)).toNat = n.toNat - 1 := by
      apply UInt32.toNat_ofNat_of_lt'
      show n.toNat - 1 < 2 ^ 32
      omega
    have hstep : (a + UInt32.ofNat (n.toNat - 1) - a).toNat = n.toNat - 1 := by
      rw [add_sub_cancel_left, hplace]
    have hlast := mem_arc.1 (h (mem_arc.2 (by rw [hstep]; omega)))
    rw [toNat_sub_add _ a b, hstep] at hlast
    omega
  · intro h f hf
    have hf := mem_arc.1 hf
    rw [mem_arc, toNat_sub_add f a b]
    omega

/-- An arc, and the one that follows it. -/
theorem arc_add (h : n.toNat + m.toNat < 2 ^ 32) : arc a (n + m) = arc a n ∪ arc (a + n) m := by
  ext f
  have hsum : (n + m).toNat = n.toNat + m.toNat := by
    rw [UInt32.toNat_add]
    omega
  have hsub : (f - (a + n)).toNat = (2 ^ 32 - n.toNat + (f - a).toNat) % 2 ^ 32 := by
    rw [← sub_sub, UInt32.toNat_sub]
  have hlt := (f - a).toNat_lt
  rw [Set.mem_union, mem_arc, mem_arc, mem_arc, hsum, hsub]
  omega

theorem not_mem_of_follows (h : n.toNat + m.toNat < 2 ^ 32) (hf : f ∈ arc (a + n) m) : f ∉ arc a n := by
  have hsub : (f - (a + n)).toNat = (2 ^ 32 - n.toNat + (f - a).toNat) % 2 ^ 32 := by
    rw [← sub_sub, UInt32.toNat_sub]
  have hlt := (f - a).toNat_lt
  rw [mem_arc, hsub] at hf
  rw [mem_arc]
  omega

/-- Two sets cover an arc of which the first has one part and no place of the other. -/
theorem arc_subset_union_iff {s t : Set UInt32} {p q : Set UInt32} (hsplit : s = p ∪ q) (hp : p ⊆ t)
    (hq : ∀ f ∈ q, f ∉ t) (r : Set UInt32) : s ⊆ t ∪ r ↔ q ⊆ r := by
  rw [hsplit]
  constructor
  · intro h f hf
    exact (h (.inr hf)).resolve_left (hq f hf)
  · intro h
    exact Set.union_subset (hp.trans Set.subset_union_left) (h.trans Set.subset_union_right)

end Arc
