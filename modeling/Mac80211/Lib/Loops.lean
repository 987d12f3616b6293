import Mathlib.Tactic.Common

/-!
# Loops that may not end

A loop is given by what it does in one round and by when it is left. One that goes on for ever has
no finite execution, and neither has one that gets stuck in a round that is not allowed.

## Main definitions

* `Ends`
-/

namespace Loops

variable {σ : Type*} {exit : σ → Prop} {body : σ → σ → Prop} {s s' s'' : σ}

/-- The loop is left after finitely many rounds. -/
inductive Ends (exit : σ → Prop) (body : σ → σ → Prop) : σ → σ → Prop
  | stop {s : σ} : exit s → Ends exit body s s
  | next {s s' s'' : σ} : body s s' → Ends exit body s' s'' → Ends exit body s s''

theorem Ends.exit_of (h : Ends exit body s s') : exit s' := by
  induction h with
  | stop hd => exact hd
  | next _ _ ih => exact ih

theorem Ends.unique (hexit : ∀ s s', exit s → ¬body s s')
    (hbody : ∀ s s' s'', body s s' → body s s'' → s' = s'') (h : Ends exit body s s')
    (h' : Ends exit body s s'') : s' = s'' := by
  induction h with
  | stop hd =>
    cases h' with
    | stop => rfl
    | next hb => exact absurd hb (hexit _ _ hd)
  | next hb _ ih =>
    cases h' with
    | stop hd => exact absurd hb (hexit _ _ hd)
    | next hb' h' =>
      obtain rfl := hbody _ _ _ hb hb'
      exact ih h'

/-- What every round keeps holds at the end. -/
theorem Ends.invariant (I : σ → Prop) (hbody : ∀ s s', I s → body s s' → I s') (hs : I s)
    (h : Ends exit body s s') : I s' := by
  induction h with
  | stop => exact hs
  | next hb _ ih => exact ih (hbody _ _ hs hb)

/-- The states of the loop, and the first one it is left in. -/
theorem Ends.of_seq (x : ℕ → σ) {n : ℕ} (hbody : ∀ k < n, body (x k) (x (k + 1))) (hexit : exit (x n)) :
    Ends exit body (x 0) (x n) := by
  induction n generalizing x with
  | zero => exact .stop hexit
  | succ n ih =>
    refine .next (hbody 0 n.succ_pos) ?_
    exact ih (fun k => x (k + 1)) (fun k hk => hbody (k + 1) (Nat.succ_lt_succ hk)) hexit

/-- A loop that stays among states in which it is not left goes on for ever. -/
theorem not_ends (I : σ → Prop) (hexit : ∀ s, I s → ¬exit s) (hbody : ∀ s s', I s → body s s' → I s')
    (hs : I s) : ¬Ends exit body s s' := by
  intro h
  induction h with
  | stop hd => exact hexit _ hs hd
  | next hb _ ih => exact ih (hbody _ _ hs hb)

/-- What the rounds of a loop with a counter keep, one after the other. -/
theorem foldl_range (P : ℕ → σ → Prop) {f : σ → ℕ → σ} (h0 : P 0 s) {n : ℕ}
    (hstep : ∀ k < n, ∀ s, P k s → P (k + 1) (f s k)) : P n ((List.range n).foldl f s) := by
  induction n with
  | zero => exact h0
  | succ n ih =>
    rw [List.range_succ, List.foldl_append]
    exact hstep n n.lt_succ_self _ (ih fun k hk => hstep k (Nat.lt_succ_of_lt hk))

end Loops
