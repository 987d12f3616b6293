import Mathlib.Algebra.Group.Basic
import Mathlib.Data.List.Basic

/-!
# Mixing in place

Code that adds to a word of a small array, over and over, something that it computes from the others
loses nothing: what was added can be computed again.

## Main results

* `addTo_injective`
-/

namespace Mixing

variable {α β : Type*} {n : ℕ}

/-- `p[i] += f(p)`. -/
def addTo [Add α] (i : Fin n) (f : Vector α n → α) (p : Vector α n) : Vector α n :=
  p.set i (p[i] + f p)

/-- The function makes the same of the array whatever is in this place. -/
def Ignores (i : Fin n) (f : Vector α n → α) : Prop := ∀ (p : Vector α n) (v : α), f (p.set i v) = f p

/-- Functions of one other word. -/
theorem ignores_get {i k : Fin n} (h : i ≠ k) (g : α → α) : Ignores i fun p => g p[k] := by
  intro p v
  show g (p.set i v)[(k : ℕ)] = g p[(k : ℕ)]
  rw [Vector.getElem_set_ne _ _ fun heq => h (Fin.ext heq)]

/-- Two arrays that agree outside one place are the same to a function that ignores it. -/
theorem Ignores.eq_of_forall_ne {i : Fin n} {f : Vector α n → α} (hf : Ignores i f) {p q : Vector α n}
    (h : ∀ k : Fin n, k ≠ i → p[k] = q[k]) : f p = f q := by
  have hset : p.set i p[i] = q.set i p[i] := by
    refine Vector.ext fun k hk => ?_
    rw [Vector.getElem_set, Vector.getElem_set]
    split
    · rfl
    · rename_i hne
      exact h ⟨k, hk⟩ fun heq => hne (congrArg Fin.val heq).symm
  calc f p = f (p.set i p[i]) := (hf p _).symm
    _ = f (q.set i p[i]) := congrArg f hset
    _ = f q := hf q _

/-- **A step can be taken back.** -/
theorem addTo_injective [Add α] [IsRightCancelAdd α] {i : Fin n} {f : Vector α n → α}
    (hf : Ignores i f) : Function.Injective (addTo i f) := by
  intro p q h
  have hother : ∀ k : Fin n, k ≠ i → p[k] = q[k] := by
    intro k hk
    have hne : (i : ℕ) ≠ k := fun heq => hk (Fin.ext heq).symm
    have hget := congrArg (fun r : Vector α n => r[k]) h
    simpa [addTo, Vector.getElem_set, hne] using hget
  have hadded : p[i] + f p = q[i] + f q := by
    have hget := congrArg (fun r : Vector α n => r[i]) h
    simpa [addTo, Vector.getElem_set] using hget
  refine Vector.ext fun k hk => ?_
  by_cases hki : (⟨k, hk⟩ : Fin n) = i
  · subst hki
    rw [hf.eq_of_forall_ne hother] at hadded
    exact add_right_cancel hadded
  · exact hother ⟨k, hk⟩ hki

/-- A step that adds what it makes of one other word. -/
theorem addTo_get_injective [Add α] [IsRightCancelAdd α] {i k : Fin n} (h : i ≠ k) (g : α → α) :
    Function.Injective (addTo i fun p => g p[k]) :=
  addTo_injective (ignores_get h g)

/-- Rounds of steps that can be taken back. -/
theorem foldl_injective {f : β → α → β} (hf : ∀ a, Function.Injective fun b => f b a) (as : List α) :
    Function.Injective fun b => as.foldl f b := by
  induction as with
  | nil => exact Function.injective_id
  | cons a as ih => exact ih.comp (hf a)

end Mixing
