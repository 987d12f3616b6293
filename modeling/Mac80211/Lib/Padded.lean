import Mathlib.Data.Nat.ModEq
import Mathlib.Tactic.Ring

/-!
# Padded records

Records one behind the other, each but the last filled up to a multiple of `n`. A reader skips the
padding behind a record; a writer pads the whole string so far and appends.

## Main definitions

* `join`

## Main results

* `join_concat` — the two give the same
-/

namespace Padded

/-- What is missing to a multiple of `n`. -/
def pad (n len : ℕ) : ℕ := (n - len % n) % n

theorem add_pad_mod {n : ℕ} (hn : 0 < n) (len : ℕ) : (len + pad n len) % n = 0 := by
  have hlt := Nat.mod_lt len hn
  rw [pad, Nat.add_mod, Nat.mod_mod]
  rcases Nat.eq_zero_or_pos (len % n) with hzero | hpos
  · rw [hzero]
    simp
  · rw [Nat.mod_eq_of_lt (show n - len % n < n by omega),
      show len % n + (n - len % n) = n by omega, Nat.mod_self]

/-- A part that is a multiple of `n` does not count. -/
theorem pad_add {n len : ℕ} (h : len % n = 0) (len' : ℕ) : pad n (len + len') = pad n len' := by
  rw [pad, pad, Nat.add_mod, h, Nat.zero_add, Nat.mod_mod]

section Join

variable {α : Type*} (n : ℕ) (z : α)

/-- A record with its padding. -/
def fill (x : List α) : List α := x ++ List.replicate (pad n x.length) z

theorem length_fill (x : List α) : (fill n z x).length = x.length + pad n x.length := by
  rw [fill, List.length_append, List.length_replicate]

/-- Records, each but the last with its padding. -/
def join : List (List α) → List α
  | [] => []
  | [x] => x
  | x :: y :: xs => fill n z x ++ join (y :: xs)

@[simp] theorem join_singleton (x : List α) : join n z [x] = x := rfl

theorem join_cons_cons (x y : List α) (xs : List (List α)) :
    join n z (x :: y :: xs) = fill n z x ++ join n z (y :: xs) := rfl

theorem length_le_join (x : List α) (xs : List (List α)) : x.length ≤ (join n z (x :: xs)).length := by
  cases xs with
  | nil => rfl
  | cons y xs =>
    rw [join_cons_cons, List.length_append, length_fill]
    omega

variable {n}

/-- **The same string, from the end**: pad what is there, and append. -/
theorem join_concat (hn : 0 < n) (x : List α) (xs : List (List α)) (y : List α) :
    join n z (x :: xs ++ [y]) = fill n z (join n z (x :: xs)) ++ y := by
  induction xs generalizing x with
  | nil => rfl
  | cons x' xs ih =>
    have hfill : pad n (fill n z x ++ join n z (x' :: xs)).length =
        pad n (join n z (x' :: xs)).length := by
      rw [List.length_append]
      exact pad_add (by rw [length_fill]; exact add_pad_mod hn x.length) _
    calc join n z (x :: x' :: xs ++ [y])
        = fill n z x ++ join n z (x' :: xs ++ [y]) := rfl
      _ = fill n z x ++ (fill n z (join n z (x' :: xs)) ++ y) := by rw [ih x']
      _ = fill n z (join n z (x :: x' :: xs)) ++ y := by
        rw [join_cons_cons]
        conv_rhs => rw [fill, hfill]
        conv_lhs => rw [fill.eq_1 n z (join n z (x' :: xs))]
        simp only [List.append_assoc]

end Join

end Padded
