import Mathlib.Data.List.Basic

/-!
# Lists in pieces

A range of a list that is stored as several pieces is found by walking over whole pieces to where it
starts, and cut out of the pieces from there on.

## Main results

* `cut_seek`
-/

namespace Pieces

open List

variable {α : Type*}

/-- The pieces behind an offset. -/
def seek : List (List α) → ℕ → List (List α)
  | [], _ => []
  | piece :: pieces, offset =>
    if piece.length ≤ offset then seek pieces (offset - piece.length) else piece.drop offset :: pieces

/-- The first `len` elements; there is no result if there are no more pieces. -/
def cut : List (List α) → ℕ → Option (List (List α))
  | _, 0 => some []
  | [], _ + 1 => none
  | piece :: pieces, len + 1 =>
    (cut pieces (len + 1 - piece.length)).map fun rest => piece.take (len + 1) :: rest

theorem flatten_seek (pieces : List (List α)) (offset : ℕ) :
    (seek pieces offset).flatten = pieces.flatten.drop offset := by
  induction pieces generalizing offset with
  | nil => rw [seek, flatten_nil, drop_nil]
  | cons piece pieces ih =>
    rw [seek, flatten_cons, drop_append]
    split
    next h => rw [ih, drop_eq_nil_of_le h, nil_append]
    next h =>
      rw [flatten_cons, Nat.sub_eq_zero_of_le (Nat.le_of_not_le h), drop_zero]

theorem flatten_cut {pieces : List (List α)} {len : ℕ} (h : len ≤ pieces.flatten.length) :
    ∃ rest, cut pieces len = some rest ∧ rest.flatten = pieces.flatten.take len := by
  induction pieces generalizing len with
  | nil =>
    obtain rfl : len = 0 := by simpa using h
    exact ⟨[], by rw [cut], rfl⟩
  | cons piece pieces ih =>
    rcases len with _ | len
    · exact ⟨[], by rw [cut], rfl⟩
    rw [flatten_cons, length_append] at h
    obtain ⟨rest, hcut, hrest⟩ := @ih (len + 1 - piece.length) (by omega)
    refine ⟨piece.take (len + 1) :: rest, by rw [cut, hcut, Option.map_some], ?_⟩
    rw [flatten_cons, flatten_cons, take_append, hrest]

/-- **A range is found where it is in the whole list.** -/
theorem cut_seek (pieces : List (List α)) (offset len : ℕ) (h : offset + len ≤ pieces.flatten.length) :
    ∃ rest, cut (seek pieces offset) len = some rest ∧
      rest.flatten = (pieces.flatten.drop offset).take len := by
  have hlen : len ≤ (seek pieces offset).flatten.length := by
    rw [flatten_seek, length_drop]
    omega
  rw [← flatten_seek]
  exact flatten_cut hlen

end Pieces
