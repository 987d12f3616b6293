import Mathlib.Data.List.Basic

/-!
# Lists whose members absorb each other

A list is built up member by member. What one of those that are there contains is left out, and what
is new takes the place of the first one that it contains. The relation that is tested need not be an
order; all that follows is about an order it implies.

## Main definitions

* `absorb`, `absorbAll`

## Main results

* `exists_mem_absorbAll`
-/

namespace Absorb

open List

variable {α : Type*} (contains : α → α → Bool) {R : α → α → Prop} {x y : α} {xs l : List α}

/-- One more member. -/
def absorb (x : α) : List α → List α
  | [] => [x]
  | y :: l => if contains y x then y :: l else if contains x y then x :: l else y :: absorb x l

/-- Some more members, one after the other. -/
def absorbAll (xs l : List α) : List α := xs.foldl (fun l x => absorb contains x l) l

theorem absorb_cons (x y : α) (l : List α) : absorb contains x (y :: l) =
    if contains y x then y :: l else if contains x y then x :: l else y :: absorb contains x l := rfl

variable {contains}

/-! ### One member -/

theorem mem_absorb (h : y ∈ absorb contains x l) : y = x ∨ y ∈ l := by
  induction l with
  | nil => exact .inl (mem_singleton.mp h)
  | cons z l ih =>
    rw [absorb_cons] at h
    split at h
    · exact .inr h
    split at h
    · exact (mem_cons.mp h).imp_right (mem_cons_of_mem z)
    · rcases mem_cons.mp h with rfl | h
      · exact .inr mem_cons_self
      · exact (ih h).imp_right (mem_cons_of_mem z)

/-- **The new member is contained in something.** -/
theorem exists_mem_absorb_self [Std.Refl R] (hR : ∀ {a b}, contains a b = true → R a b) :
    ∃ z ∈ absorb contains x l, R z x := by
  induction l with
  | nil => exact ⟨x, mem_singleton.mpr rfl, refl x⟩
  | cons z l ih =>
    rw [absorb_cons]
    split
    · rename_i hzx
      exact ⟨z, mem_cons_self, hR hzx⟩
    split
    · exact ⟨x, mem_cons_self, refl x⟩
    · obtain ⟨w, hw, hwx⟩ := ih
      exact ⟨w, mem_cons_of_mem z hw, hwx⟩

/-- **And so are those that were there.** -/
theorem exists_mem_absorb [Std.Refl R] (hR : ∀ {a b}, contains a b = true → R a b) (hy : y ∈ l) :
    ∃ z ∈ absorb contains x l, R z y := by
  induction l with
  | nil => cases hy
  | cons z l ih =>
    rw [absorb_cons]
    split
    · exact ⟨y, hy, refl y⟩
    split
    · rename_i hxz
      rcases mem_cons.mp hy with rfl | hy
      · exact ⟨x, mem_cons_self, hR hxz⟩
      · exact ⟨y, mem_cons_of_mem x hy, refl y⟩
    · rcases mem_cons.mp hy with rfl | hy
      · exact ⟨y, mem_cons_self, refl y⟩
      · obtain ⟨w, hw, hwy⟩ := ih hy
        exact ⟨w, mem_cons_of_mem z hw, hwy⟩

theorem length_absorb_le : (absorb contains x l).length ≤ l.length + 1 := by
  induction l with
  | nil => exact Nat.le_refl _
  | cons z l ih =>
    rw [absorb_cons]
    split
    · exact Nat.le_succ _
    split
    · exact Nat.le_succ _
    · exact Nat.succ_le_succ ih

/-! ### Some members -/

theorem mem_absorbAll (h : y ∈ absorbAll contains xs l) : y ∈ xs ∨ y ∈ l := by
  induction xs generalizing l with
  | nil => exact .inr h
  | cons x xs ih =>
    rcases ih h with hy | hy
    · exact .inl (mem_cons_of_mem x hy)
    · rcases mem_absorb hy with rfl | hy
      · exact .inl mem_cons_self
      · exact .inr hy

/-- **Everything is contained in something.** -/
theorem exists_mem_absorbAll [IsPreorder α R] (hR : ∀ {a b}, contains a b = true → R a b)
    (hy : y ∈ xs ∨ y ∈ l) : ∃ z ∈ absorbAll contains xs l, R z y := by
  induction xs generalizing l y with
  | nil => exact ⟨y, hy.resolve_left not_mem_nil, refl y⟩
  | cons x xs ih =>
    rw [mem_cons, or_assoc, or_left_comm] at hy
    rcases hy with hy | hy
    · exact ih (.inl hy)
    obtain ⟨w, hw, hwy⟩ : ∃ w ∈ absorb contains x l, R w y := by
      rcases hy with rfl | hy
      · exact exists_mem_absorb_self hR
      · exact exists_mem_absorb hR hy
    obtain ⟨z, hz, hzw⟩ := ih (.inr hw)
    exact ⟨z, hz, Trans.trans hzw hwy⟩

theorem length_absorbAll_le : (absorbAll contains xs l).length ≤ l.length + xs.length := by
  induction xs generalizing l with
  | nil => exact Nat.le_refl _
  | cons x xs ih =>
    have hrest : (absorbAll contains xs (absorb contains x l)).length ≤ (absorb contains x l).length + xs.length := ih
    have hone : (absorb contains x l).length ≤ l.length + 1 := length_absorb_le
    show (absorbAll contains xs (absorb contains x l)).length ≤ l.length + (xs.length + 1)
    omega

end Absorb
