import Mathlib.Data.List.Basic

/-!
# Lists in chunks of one length

`List.toChunks n` cuts a list into lists of `n` elements; the last one may be shorter.

## Main results

* `toChunks_eq`, `flatten_toChunks`
-/

namespace Chunks

open List

variable {α : Type*} {n : ℕ}

theorem toChunks_nil (n : ℕ) : ([] : List α).toChunks n = [] := by
  rcases n with _ | n <;> rfl

/-- The loop of `List.toChunks`, with `acc` as the chunk that is being filled, and what that chunk
becomes. -/
theorem go_eq (hn : 0 < n) (xs : List α) (acc : Array α) (accs : Array (List α))
    (hpos : 0 < acc.size) (hsize : acc.size ≤ n) : List.toChunks.go n xs acc accs = accs.toList ++
      (acc.toList ++ xs.take (n - acc.size)) :: (xs.drop (n - acc.size)).toChunks n := by
  induction xs generalizing acc accs with
  | nil =>
    rw [List.toChunks.go, take_nil, drop_nil, toChunks_nil, append_nil]
    simp
  | cons x xs ih =>
    rw [List.toChunks.go]
    by_cases hfull : acc.size = n
    · have hchunks : (x :: xs).toChunks n = List.toChunks.go n xs #[x] #[] := by
        rcases n with _ | n
        · omega
        · rfl
      have hone : (#[x] : Array α).size = 1 := rfl
      have hpush : (Array.mkEmpty n).push x = #[x] := rfl
      rw [if_pos (by simpa using hfull), hpush, ih _ _ (by omega) (by omega), hfull, Nat.sub_self,
        take_zero, drop_zero, append_nil, hchunks, ih _ _ (by omega) (by omega)]
      simp
    · have hsub : n - acc.size = n - (acc.push x).size + 1 := by
        rw [Array.size_push]
        omega
      rw [if_neg (by simpa using hfull), ih _ _ (by simp) (by rw [Array.size_push]; omega), hsub,
        take_succ_cons, drop_succ_cons]
      simp

/-- The first chunk, and the chunks of the rest. -/
theorem toChunks_eq (hn : 0 < n) {xs : List α} (hxs : xs ≠ []) :
    xs.toChunks n = xs.take n :: (xs.drop n).toChunks n := by
  obtain ⟨x, xs, rfl⟩ := exists_cons_of_ne_nil hxs
  obtain ⟨m, rfl⟩ := Nat.exists_eq_succ_of_ne_zero (Nat.ne_of_gt hn)
  have hchunks : (x :: xs).toChunks (m + 1) = List.toChunks.go (m + 1) xs #[x] #[] := rfl
  have hone : (#[x] : Array α).size = 1 := rfl
  rw [hchunks, go_eq hn xs _ _ (by omega) (by omega), hone, Nat.succ_sub_one,
    take_succ_cons, drop_succ_cons]
  rfl

/-- Every chunk is a chunk of the front, or one of what is behind it. -/
theorem induction_on (hn : 0 < n) {P : List α → Prop} (hnil : P [])
    (hcons : ∀ xs, xs ≠ [] → P (xs.drop n) → P xs) (xs : List α) : P xs := by
  induction hlen : xs.length using Nat.strongRecOn generalizing xs with
  | _ m ih =>
    by_cases hxs : xs = []
    · rw [hxs]
      exact hnil
    · have hpos := length_pos_iff.mpr hxs
      exact hcons xs hxs (ih (xs.drop n).length (by rw [length_drop]; omega) _ rfl)

/-- Nothing is lost. -/
theorem flatten_toChunks (hn : 0 < n) (xs : List α) : (xs.toChunks n).flatten = xs := by
  induction xs using induction_on hn with
  | hnil => rw [toChunks_nil, flatten_nil]
  | hcons xs hxs ih => rw [toChunks_eq hn hxs, flatten_cons, ih, take_append_drop]

theorem length_le_of_mem (hn : 0 < n) {xs chunk : List α} (h : chunk ∈ xs.toChunks n) :
    chunk.length ≤ n := by
  induction xs using induction_on hn with
  | hnil =>
    rw [toChunks_nil] at h
    exact absurd h not_mem_nil
  | hcons xs hxs ih =>
    rw [toChunks_eq hn hxs] at h
    rcases mem_cons.mp h with rfl | htail
    · exact length_take_le _ _
    · exact ih htail

end Chunks
