import Mathlib.Tactic.Common

/-!
# Blocks that are shared until they are written

A block of data may have several owners, who read it together; an owner that wants to write keeps
the block if nobody else is there, and gets a copy otherwise.

## Main definitions

* `Heap`
-/

namespace Sharing

open Function

variable {α : Type*}

/-- Blocks, the number of owners of each, and the first block that was never used. -/
structure Heap (α : Type*) where
  data : ℕ → α
  refs : ℕ → ℕ
  next : ℕ

namespace Heap

/-- One more owner. -/
def share (h : Heap α) (b : ℕ) : Heap α := { h with refs := Function.update h.refs b (h.refs b + 1) }

/-- One owner less. -/
def release (h : Heap α) (b : ℕ) : Heap α := { h with refs := Function.update h.refs b (h.refs b - 1) }

/-- A block that has the data of `b` and no other owner. -/
def unshare (h : Heap α) (b : ℕ) : ℕ × Heap α :=
  if h.refs b = 1 then (b, h)
  else (h.next,
    { data := Function.update h.data h.next (h.data b)
      refs := Function.update (h.release b).refs h.next 1
      next := h.next + 1 })

/-- Write a block. -/
def write (h : Heap α) (b : ℕ) (a : α) : Heap α := { h with data := Function.update h.data b a }

variable {h : Heap α} {b c : ℕ}

@[simp] theorem data_share (h : Heap α) (b : ℕ) : (h.share b).data = h.data := rfl

@[simp] theorem refs_share_self (h : Heap α) (b : ℕ) : (h.share b).refs b = h.refs b + 1 :=
  update_self ..

@[simp] theorem data_release (h : Heap α) (b : ℕ) : (h.release b).data = h.data := rfl

theorem release_share (h : Heap α) (b : ℕ) : (h.share b).release b = h := by
  rw [release, refs_share_self, Nat.add_sub_cancel]
  change { h with refs := Function.update (Function.update h.refs b (h.refs b + 1)) b (h.refs b) } = h
  rw [update_idem, update_eq_self]

@[simp] theorem write_data_self (h : Heap α) (b : ℕ) (a : α) : (h.write b a).data b = a :=
  update_self ..

theorem write_data_of_ne (h : Heap α) (hne : c ≠ b) (a : α) : (h.write b a).data c = h.data c :=
  update_of_ne hne ..

/-- A copy has the data of what was copied, and the blocks in use keep theirs. -/
theorem data_unshare (hc : c < h.next) : (h.unshare b).2.data c = h.data c := by
  rw [unshare]
  split
  · rfl
  · exact update_of_ne (Nat.ne_of_lt hc) ..

theorem data_unshare_self (h : Heap α) (b : ℕ) : (h.unshare b).2.data (h.unshare b).1 = h.data b := by
  rw [unshare]
  split
  · rfl
  · exact update_self ..

/-- What is written next is no block in use but `b`. -/
theorem unshare_ne (hc : c < h.next) (hne : c ≠ b) : c ≠ (h.unshare b).1 := by
  rw [unshare]
  split
  · exact hne
  · exact Nat.ne_of_lt hc

/-- A block of one owner with the data of `b`. -/
def copy (h : Heap α) (b : ℕ) : Heap α where
  data := Function.update h.data h.next (h.data b)
  refs := Function.update h.refs h.next 1
  next := h.next + 1

theorem data_copy (hc : c < h.next) : (h.copy b).data c = h.data c :=
  update_of_ne (Nat.ne_of_lt hc) ..

theorem refs_copy (hc : c < h.next) : (h.copy b).refs c = h.refs c :=
  update_of_ne (Nat.ne_of_lt hc) ..

/-- Who shares a block to write it gets a copy, and the block has the owners it had. -/
theorem unshare_share (hpos : 0 < h.refs b) : (h.share b).unshare b = (h.next, h.copy b) := by
  rw [unshare, if_neg (by rw [refs_share_self]; omega), release_share]
  rfl

end Heap

end Sharing
