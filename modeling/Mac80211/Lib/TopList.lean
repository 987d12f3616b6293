import Mathlib.Data.List.Basic
import Mathlib.Order.Lattice

/-!
# A list of the best

A list of fixed length holds the best elements there were, the best one first. A new element goes in
front of those at the end that it beats, and the last one is pushed out.

## Main definitions

* `push`, `pushAll`

## Main results

* `Sorted.pushAll`, `exists_le_pushAll` — a list in order stays so, and reaches all there were
* `foldl_push_eq_pushAll` — keys may change on the way
* `pushAll_append_replicate`, `sorted_pushAll_append_replicate` — copies of one element at the end,
  perhaps behind worse ones
-/

namespace TopList

open List

variable {α κ : Type*} [LinearOrder κ] {key : α → κ} {beats : α → Bool} {x z : α} {l : List α}

/-- Put `x` in front of the elements at the end that it beats. -/
def insert (beats : α → Bool) (x : α) : List α → List α
  | [] => [x]
  | y :: l => if (y :: l).all beats then x :: y :: l else y :: insert beats x l

/-- Put `x` into a list whose length stays. -/
def push (beats : α → Bool) (x : α) (l : List α) : List α := (insert beats x l).dropLast

theorem insert_cons (beats : α → Bool) (x y : α) (l : List α) : insert beats x (y :: l) =
    if (y :: l).all beats then x :: y :: l else y :: insert beats x l := rfl

@[simp] theorem length_insert : (insert beats x l).length = l.length + 1 := by
  induction l with
  | nil => rfl
  | cons y l ih =>
    rw [insert_cons]
    split
    · rfl
    · rw [length_cons, ih, length_cons]

@[simp] theorem length_push : (push beats x l).length = l.length := by
  rw [push, length_dropLast, length_insert, Nat.add_sub_cancel]

theorem insert_perm : (insert beats x l).Perm (x :: l) := by
  induction l with
  | nil => rfl
  | cons y l ih =>
    rw [insert_cons]
    split
    · rfl
    · exact (ih.cons y).trans (List.Perm.swap x y l)

theorem mem_insert : z ∈ insert beats x l ↔ z = x ∨ z ∈ l := insert_perm.mem_iff.trans mem_cons

theorem mem_push (h : z ∈ push beats x l) : z = x ∨ z ∈ l := mem_insert.1 (dropLast_subset _ h)

theorem insert_of_none (h : ∀ y ∈ l, beats y = false) : insert beats x l = l ++ [x] := by
  induction l with
  | nil => rfl
  | cons y l ih =>
    rw [insert_cons, all_cons, h y mem_cons_self, ih fun z hz => h z (mem_cons_of_mem y hz)]
    rfl

/-- It stops at the last element if that is not beaten, -/
theorem push_concat_of_not_beats {y : α} (h : beats y = false) : push beats x (l ++ [y]) = l ++ [y] := by
  have hinsert : insert beats x (l ++ [y]) = l ++ [y] ++ [x] := by
    induction l with
    | nil => rw [nil_append, insert_cons, all_cons, h]; rfl
    | cons z l ih =>
      rw [cons_append, insert_cons, all_cons, all_append, all_cons, h, ih]
      simp
  rw [push, hinsert, dropLast_concat]

/-- and leaves those behind that are. -/
theorem insert_append {l' : List α} (h : ∀ y ∈ l', beats y = true) :
    insert beats x (l ++ l') = insert beats x l ++ l' := by
  induction l with
  | nil =>
    cases l' with
    | nil => rfl
    | cons y l' => exact if_pos (all_eq_true.2 h)
  | cons y l ih =>
    have hall : (l ++ l').all beats = l.all beats := by
      rw [all_append, all_eq_true.2 h, Bool.and_true]
    rw [cons_append, insert_cons, insert_cons, all_cons, all_cons, hall, ih]
    split <;> rfl

/-- What is put in has pushed something out. -/
theorem mem_push_of_beats (h : z ∈ push beats x l) : z ∈ l ∨ z = x ∧ ∃ y ∈ l, beats y = true := by
  by_cases hbeats : ∃ y ∈ l, beats y = true
  · exact (mem_push h).symm.imp_right fun hx => ⟨hx, hbeats⟩
  · rw [push, insert_of_none fun y hy => Bool.eq_false_iff.2 fun hb => hbeats ⟨y, hy, hb⟩,
      dropLast_concat] at h
    exact .inl h

theorem insert_congr {beats' : α → Bool} (h : ∀ y ∈ l, beats y = beats' y) :
    insert beats x l = insert beats' x l := by
  induction l with
  | nil => rfl
  | cons y l ih =>
    have hall : (y :: l).all beats = (y :: l).all beats' := by
      rw [Bool.eq_iff_iff, all_eq_true, all_eq_true]
      exact forall₂_congr fun z hz => by rw [h z hz]
    rw [insert_cons, insert_cons, hall, ih fun z hz => h z (mem_cons_of_mem y hz)]

theorem push_congr {beats' : α → Bool} (h : ∀ y ∈ l, beats y = beats' y) :
    push beats x l = push beats' x l := by
  rw [push, insert_congr h, push]

/-- The best one comes first. -/
def Sorted (key : α → κ) (l : List α) : Prop := l.Pairwise fun a b => key b ≤ key a

theorem Sorted.insert (h : Sorted key l) : Sorted key (insert (fun y => key y < key x) x l) := by
  induction l with
  | nil => exact pairwise_singleton _ x
  | cons y l ih =>
    obtain ⟨hy, hl⟩ := pairwise_cons.1 h
    rw [insert_cons]
    split
    · rename_i hall
      refine pairwise_cons.2 ⟨fun z hz => ?_, h⟩
      exact (of_decide_eq_true (all_eq_true.1 hall z hz)).le
    · rename_i hall
      refine pairwise_cons.2 ⟨fun z hz => ?_, ih hl⟩
      rcases mem_insert.1 hz with rfl | hz
      · -- one of them is not beaten, and the first is the best of them
        by_contra hlt
        refine hall (all_eq_true.2 fun w hw => decide_eq_true ?_)
        rcases mem_cons.1 hw with rfl | hw
        · exact not_le.1 hlt
        · exact (hy w hw).trans_lt (not_le.1 hlt)
      · exact hy z hz

theorem Sorted.push (h : Sorted key l) : Sorted key (push (fun y => key y < key x) x l) :=
  List.Pairwise.sublist (dropLast_sublist _) h.insert

/-- The head is the best. -/
theorem Sorted.le_headD (h : Sorted key l) (hz : z ∈ l) (d : α) : key z ≤ key (l.headD d) := by
  cases l with
  | nil => cases hz
  | cons y l =>
    rcases mem_cons.1 hz with rfl | hz
    · exact le_rfl
    · exact (pairwise_cons.1 h).1 z hz

/-- What is put in, and what was there, is reached afterwards, whether the list is in order or not. -/
theorem exists_le_push (hl : l ≠ []) (hz : z = x ∨ z ∈ l) :
    ∃ y ∈ push (fun y => key y < key x) x l, key z ≤ key y := by
  obtain rfl | ⟨l, w, rfl⟩ := l.eq_nil_or_concat
  · exact absurd rfl hl
  rw [concat_eq_append] at hz ⊢
  rw [mem_append, mem_singleton] at hz
  by_cases hw : key w < key x
  · have hpush : push (fun y => key y < key x) x (l ++ [w]) = insert (fun y => key y < key x) x l := by
      rw [push, insert_append (by simpa using hw), dropLast_concat]
    rw [hpush]
    rcases hz with rfl | hz | rfl
    · exact ⟨z, mem_insert.2 (.inl rfl), le_rfl⟩
    · exact ⟨z, mem_insert.2 (.inr hz), le_rfl⟩
    · exact ⟨x, mem_insert.2 (.inl rfl), hw.le⟩
  · have hpush : push (fun y => key y < key x) x (l ++ [w]) = l ++ [w] :=
      push_concat_of_not_beats (decide_eq_false hw)
    rw [hpush]
    rcases hz with rfl | hz
    · exact ⟨w, by simp, not_lt.1 hw⟩
    · exact ⟨z, by simpa using hz, le_rfl⟩

theorem Sorted.append_replicate {p : α} {k : ℕ} (h : Sorted key l) (hp : ∀ z ∈ l, key p ≤ key z) :
    Sorted key (l ++ List.replicate k p) := by
  refine pairwise_append.2 ⟨h, pairwise_replicate.2 (.inr le_rfl), fun z hz y hy => ?_⟩
  rw [eq_of_mem_replicate hy]
  exact hp z hz

/-- An element above a bound adds one to those that are, until all are. -/
theorem countP_push (h : Sorted key l) (b : κ) :
    (push (fun y => key y < key x) x l).countP (fun y => b < key y) =
      min l.length (l.countP (fun y => b < key y) + if b < key x then 1 else 0) := by
  have hlength : (insert (fun y => key y < key x) x l).length = l.length + 1 := length_insert
  have hcount : (insert (fun y => key y < key x) x l).countP (fun y => b < key y) =
      l.countP (fun y => b < key y) + if b < key x then 1 else 0 := by
    rw [insert_perm.countP_eq, countP_cons]
    simp only [decide_eq_true_eq]
  have hsorted := h.insert (x := x)
  rw [push]
  generalize insert (fun y => decide (key y < key x)) x l = l' at hlength hcount hsorted ⊢
  obtain rfl | ⟨l', z, rfl⟩ := l'.eq_nil_or_concat
  · cases hlength
  rw [concat_eq_append] at hlength hcount hsorted ⊢
  rw [length_append, length_singleton, Nat.add_right_cancel_iff] at hlength
  rw [dropLast_concat, ← hcount, countP_append, countP_singleton, ← hlength]
  by_cases hz : b < key z
  · -- the last one is above the bound, so all are
    have hall : l'.countP (fun y => b < key y) = l'.length := by
      refine countP_eq_length.2 fun y hy => decide_eq_true ?_
      exact hz.trans_le ((pairwise_append.1 hsorted).2.2 y hy z (mem_singleton.2 rfl))
    simp [hall]
  · have hle := countP_le_length (p := fun y => decide (b < key y)) (l := l')
    simp [hz, hle]

/-! ### One after the other -/

/-- Put all of `xs` into a list. -/
def pushAll (key : α → κ) (xs l : List α) : List α :=
  xs.foldl (fun l x => push (fun y => key y < key x) x l) l

variable {p : α} {xs a : List α} {k : ℕ}

@[simp] theorem length_pushAll : (pushAll key xs l).length = l.length := by
  induction xs generalizing l with
  | nil => rfl
  | cons x xs ih => exact ih.trans length_push

theorem mem_pushAll (h : z ∈ pushAll key xs l) : z ∈ xs ∨ z ∈ l := by
  induction xs generalizing l with
  | nil => exact .inr h
  | cons x xs ih =>
    rcases ih h with h | h
    · exact .inl (mem_cons_of_mem x h)
    · rcases mem_push h with rfl | h
      · exact .inl mem_cons_self
      · exact .inr h

theorem Sorted.pushAll (h : Sorted key l) : Sorted key (pushAll key xs l) := by
  induction xs generalizing l with
  | nil => exact h
  | cons x xs ih => exact ih h.push

/-- All there were are reached. -/
theorem exists_le_pushAll (hl : l ≠ []) (hz : z ∈ xs ∨ z ∈ l) : ∃ y ∈ pushAll key xs l, key z ≤ key y := by
  induction xs generalizing z l with
  | nil => exact ⟨z, hz.resolve_left not_mem_nil, le_rfl⟩
  | cons x xs ih =>
    have hne : push (fun y => key y < key x) x l ≠ [] := by
      rw [← length_pos_iff, length_push]
      exact length_pos_iff.2 hl
    rw [mem_cons, or_right_comm] at hz
    rcases hz with hz | hz
    · obtain ⟨w, hw, hle⟩ := @exists_le_push _ _ _ key x z l hl hz
      obtain ⟨y, hy, hle'⟩ := ih hne (.inr hw)
      exact ⟨y, hy, hle.trans hle'⟩
    · exact ih hne (.inl hz)

/-- How many elements are above a bound. -/
theorem countP_pushAll (h : Sorted key l) (b : κ) : (pushAll key xs l).countP (fun y => b < key y) =
    min l.length (l.countP (fun y => b < key y) + xs.countP (fun y => b < key y)) := by
  induction xs generalizing l with
  | nil =>
    have hle := countP_le_length (p := fun y => decide (b < key y)) (l := l)
    rw [countP_nil, Nat.add_zero, min_eq_right hle]
    rfl
  | cons x xs ih =>
    have hpush := countP_push (x := x) h b
    refine (ih h.push).trans ?_
    rw [hpush, length_push, countP_cons]
    simp only [decide_eq_true_eq]
    omega

theorem countP_cons_of_lt {b : κ} (h : b < key x) :
    (x :: xs).countP (fun y => b < key y) = xs.countP (fun y => b < key y) + 1 :=
  countP_cons_of_pos (decide_eq_true h)

theorem countP_cons_of_not_lt {b : κ} (h : ¬b < key x) :
    (x :: xs).countP (fun y => b < key y) = xs.countP (fun y => b < key y) :=
  countP_cons_of_neg (by simpa using h)

/-- An element that beats the copies at the end pushes out one of them. -/
theorem push_append_replicate (h : key p < key x) :
    push (fun y => key y < key x) x (a ++ List.replicate (k + 1) p) =
      insert (fun y => key y < key x) x a ++ List.replicate k p := by
  have hall : ∀ y ∈ List.replicate (k + 1) p, decide (key y < key x) = true := fun y hy => by
    rw [eq_of_mem_replicate hy]
    exact decide_eq_true h
  rw [push, insert_append hall, replicate_succ', ← append_assoc, dropLast_concat]

/-- Any other one leaves the list as it is. -/
theorem push_append_replicate_of_not_lt (h : ¬key p < key x) :
    push (fun y => key y < key x) x (a ++ List.replicate (k + 1) p) = a ++ List.replicate (k + 1) p := by
  rw [replicate_succ', ← append_assoc]
  exact push_concat_of_not_beats (decide_eq_false h)

/-- **Copies behind other elements.** While some are left, only what is above them gets in. -/
theorem pushAll_append_replicate (ha : Sorted key a)
    (hk : xs.countP (fun y => key p < key y) < k) :
    ∃ a', pushAll key xs (a ++ List.replicate k p) =
        a' ++ List.replicate (k - xs.countP fun y => key p < key y) p ∧ Sorted key a' ∧
      ∀ z, z ∈ a' ↔ z ∈ a ∨ z ∈ xs ∧ key p < key z := by
  induction xs generalizing a k with
  | nil => exact ⟨a, rfl, ha, fun z => by simp⟩
  | cons x xs ih =>
    obtain ⟨k, rfl⟩ := Nat.exists_eq_succ_of_ne_zero (Nat.ne_zero_of_lt hk)
    by_cases hx : key p < key x
    · rw [countP_cons_of_lt hx] at hk ⊢
      obtain ⟨a', heq, ha', hmem⟩ := ih (k := k) (ha.insert (x := x)) (Nat.lt_of_succ_lt_succ hk)
      refine ⟨a', ?_, ha', fun z => ?_⟩
      · rw [Nat.succ_sub_succ, ← heq, ← push_append_replicate hx]
        rfl
      · rw [hmem, mem_insert, mem_cons]
        constructor
        · rintro ((rfl | hz) | ⟨hz, hlt⟩)
          · exact .inr ⟨.inl rfl, hx⟩
          · exact .inl hz
          · exact .inr ⟨.inr hz, hlt⟩
        · rintro (hz | ⟨rfl | hz, hlt⟩)
          · exact .inl (.inr hz)
          · exact .inl (.inl rfl)
          · exact .inr ⟨hz, hlt⟩
    · rw [countP_cons_of_not_lt hx] at hk ⊢
      obtain ⟨a', heq, ha', hmem⟩ := ih (k := k + 1) ha hk
      refine ⟨a', ?_, ha', fun z => ?_⟩
      · rw [← heq]
        show pushAll key xs (push (fun y => key y < key x) x (a ++ List.replicate (k + 1) p)) = _
        rw [push_append_replicate_of_not_lt hx]
      · rw [hmem, mem_cons]
        refine or_congr_right ⟨fun h => ⟨.inr h.1, h.2⟩, ?_⟩
        rintro ⟨rfl | hz, hlt⟩
        · exact absurd hlt hx
        · exact ⟨hz, hlt⟩

theorem not_sorted_append_replicate (hz : z ∈ a) (hlt : key z < key p) (hk : k ≠ 0) :
    ¬Sorted key (a ++ List.replicate k p) := fun h =>
  absurd ((pairwise_append.1 h).2.2 z hz p (mem_replicate.2 ⟨hk, rfl⟩)) (not_le.2 hlt)

/-- When all copies have been pushed out, the list is in order. -/
theorem sorted_pushAll_append_replicate (ha : Sorted key a)
    (hk : k ≤ xs.countP (fun y => key p < key y)) :
    Sorted key (pushAll key xs (a ++ List.replicate k p)) := by
  induction xs generalizing a k with
  | nil =>
    obtain rfl : k = 0 := by simpa using hk
    rw [replicate_zero, append_nil]
    exact ha
  | cons x xs ih =>
    cases k with
    | zero =>
      rw [replicate_zero, append_nil]
      exact ha.pushAll
    | succ k =>
      rw [pushAll, foldl_cons]
      by_cases hx : key p < key x
      · rw [countP_cons_of_lt hx] at hk
        rw [push_append_replicate hx]
        exact ih ha.insert (Nat.le_of_succ_le_succ hk)
      · rw [countP_cons_of_not_lt hx] at hk
        rw [push_append_replicate_of_not_lt hx]
        exact ih ha hk

/-- Keys may change while the elements are put in, if each counts for the same whenever it is compared. -/
theorem foldl_push_eq_pushAll {beats : α → α → Bool}
    (hxs : xs.Pairwise fun y x => beats x y = decide (key y < key x))
    (hl : ∀ x ∈ xs, ∀ y ∈ l, beats x y = decide (key y < key x)) :
    xs.foldl (fun l x => push (beats x) x l) l = pushAll key xs l := by
  induction xs generalizing l with
  | nil => rfl
  | cons x xs ih =>
    obtain ⟨hx, hxs⟩ := pairwise_cons.1 hxs
    have hpush : push (beats x) x l = push (fun y => key y < key x) x l :=
      push_congr (hl x mem_cons_self)
    rw [foldl_cons, hpush]
    refine ih hxs fun x' hx' y hy => ?_
    rcases mem_push hy with rfl | hy
    · exact hx x' hx'
    · exact hl x' (mem_cons_of_mem x hx') y hy

end TopList
