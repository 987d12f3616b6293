import Mathlib.Data.List.Basic

/-!
# A counter that is drawn from and overwritten

A draw adds one to a counter and takes the result; a reset stores a value of its own. `Forward` asks
at each reset that the counter has not passed the new value, and at each draw that it stays below a
bound.

## Main results

* `pairwise_draws` — then the values drawn are increasing
-/

namespace Counter

/-- An operation on the counter. -/
inductive Op
  | draw
  | reset (value : ℕ)

/-- The counter after some operations. -/
def final : ℕ → List Op → ℕ
  | c, [] => c
  | c, .draw :: ops => final (c + 1) ops
  | _, .reset v :: ops => final v ops

/-- The values drawn. -/
def draws : ℕ → List Op → List ℕ
  | _, [] => []
  | c, .draw :: ops => (c + 1) :: draws (c + 1) ops
  | _, .reset v :: ops => draws v ops

/-- No reset goes back, and no draw reaches the bound. -/
def Forward (bound : ℕ) : ℕ → List Op → Prop
  | _, [] => True
  | c, .draw :: ops => c + 1 < bound ∧ Forward bound (c + 1) ops
  | c, .reset v :: ops => c ≤ v ∧ Forward bound v ops

variable {bound : ℕ}

theorem lt_of_mem_draws {n c : ℕ} {ops : List Op} (h : Forward bound c ops)
    (hn : n ∈ draws c ops) : c < n := by
  induction ops generalizing c with
  | nil => cases hn
  | cons op ops ih =>
    cases op with
    | draw =>
      rcases List.mem_cons.mp hn with rfl | hn
      · exact Nat.lt_succ_self c
      · exact Nat.lt_of_succ_lt (ih h.2 hn)
    | reset v => exact Nat.lt_of_le_of_lt h.1 (ih h.2 hn)

/-- **The values drawn are strictly increasing.** -/
theorem pairwise_draws {c : ℕ} {ops : List Op} (h : Forward bound c ops) :
    (draws c ops).Pairwise (· < ·) := by
  induction ops generalizing c with
  | nil => exact List.Pairwise.nil
  | cons op ops ih =>
    cases op with
    | draw => exact List.Pairwise.cons (fun _ hn => lt_of_mem_draws h.2 hn) (ih h.2)
    | reset v => exact ih h.2

/-! ### One more operation -/

/-- What an operation makes of the counter. -/
def apply (c : ℕ) : Op → ℕ
  | .draw => c + 1
  | .reset v => v

/-- What an operation draws. -/
def drawn (c : ℕ) : Op → List ℕ
  | .draw => [c + 1]
  | .reset _ => []

/-- An operation may come next. -/
def Fits (bound c : ℕ) : Op → Prop
  | .draw => c + 1 < bound
  | .reset v => c ≤ v

theorem final_concat (op : Op) : ∀ (c : ℕ) (ops : List Op),
    final c (ops ++ [op]) = apply (final c ops) op
  | c, [] => by cases op <;> rfl
  | c, .draw :: ops => final_concat op (c + 1) ops
  | _, .reset v :: ops => final_concat op v ops

theorem draws_concat (op : Op) : ∀ (c : ℕ) (ops : List Op),
    draws c (ops ++ [op]) = draws c ops ++ drawn (final c ops) op
  | c, [] => by cases op <;> rfl
  | c, .draw :: ops => congrArg (List.cons (c + 1)) (draws_concat op (c + 1) ops)
  | _, .reset v :: ops => draws_concat op v ops

theorem forward_concat {op : Op} : ∀ {c : ℕ} {ops : List Op},
    Forward bound c (ops ++ [op]) ↔ Forward bound c ops ∧ Fits bound (final c ops) op
  | c, [] => by cases op <;> simp [Forward, Fits, final]
  | c, .draw :: ops => by
    rw [List.cons_append, Forward, Forward, forward_concat, final, and_assoc]
  | c, .reset v :: ops => by
    rw [List.cons_append, Forward, Forward, forward_concat, final, and_assoc]

end Counter
