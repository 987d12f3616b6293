import Mathlib.Algebra.BigOperators.Group.Finset.Basic
import Mathlib.Tactic.Abel

/-!
# Sums over a changing state

How a sum over a finite set changes when one summand does, and what a pass over a list adds up that
changes the summands as it goes along.

## Main results

* `sum_change`, `foldl_sum`
-/

namespace Finset

variable {ι M : Type*} [DecidableEq ι] [AddCommMonoid M] {s : Finset ι} {f g : ι → M} {i : ι}

/-- Sums of functions that agree off `i`. -/
theorem sum_change (hi : i ∈ s) (h : ∀ j, j ≠ i → g j = f j) :
    ∑ j ∈ s, g j + f i = ∑ j ∈ s, f j + g i := by
  rw [← add_sum_erase s f hi, ← add_sum_erase s g hi]
  have hrest : ∑ j ∈ s.erase i, g j = ∑ j ∈ s.erase i, f j :=
    sum_congr rfl fun j hj => h j (ne_of_mem_erase hj)
  rw [hrest]
  abel

end Finset

namespace List

variable {σ ι M : Type*} [DecidableEq ι] [AddCommMonoid M] {f : σ × M → ι → σ × M} {g : σ → ι → M}
  {P : σ → ι → Prop}

/-- Each step of the pass only touches what belongs to its own index, and adds up what it leaves
there. In the end the sum is that of all indices. -/
theorem foldl_sum (hne : ∀ r i j, j ≠ i → g (f r i).1 j = g r.1 j)
    (hP : ∀ r i j, j ≠ i → P r.1 j → P (f r i).1 j)
    (hadd : ∀ r i, P r.1 i → (f r i).2 = r.2 + g (f r i).1 i) :
    ∀ (is : List ι) (r : σ × M), is.Nodup → (∀ i ∈ is, P r.1 i) →
      (is.foldl f r).2 = r.2 + ∑ i ∈ is.toFinset, g (is.foldl f r).1 i ∧
        ∀ j, j ∉ is → g (is.foldl f r).1 j = g r.1 j := by
  intro is
  induction is with
  | nil =>
    intro r _ _
    simp
  | cons i is ih =>
    intro r hnodup hall
    obtain ⟨hi, hnodup⟩ := nodup_cons.mp hnodup
    have hrest : ∀ j ∈ is, P (f r i).1 j := fun j hj =>
      hP r i j (fun hji => hi (hji ▸ hj)) (hall j (mem_cons_of_mem i hj))
    obtain ⟨hsum, hother⟩ := ih (f r i) hnodup hrest
    rw [foldl_cons]
    constructor
    · rw [toFinset_cons, Finset.sum_insert (by simpa using hi), hother i hi, hsum,
        hadd r i (hall i mem_cons_self), add_assoc]
    · intro j hj
      rw [mem_cons, not_or] at hj
      rw [hother j hj.2, hne r i j hj.1]

end List
