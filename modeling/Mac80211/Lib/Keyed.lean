import Mathlib.Data.List.Nodup

/-!
# Records with keys

A list of records no two of which have the same key. One is replaced by another of the same key, or
taken out; the number of records with a property changes by what the two contribute.

## Main definitions

* `replace`, `remove`
-/

namespace Keyed

open List

variable {α κ : Type*} [DecidableEq κ] {key : α → κ} {l : List α} {a b : α} {k : κ}

/-- The records, with this one in the place of that with its key. -/
def replace (key : α → κ) (b : α) (l : List α) : List α := l.map fun x => if key x = key b then b else x

/-- The records without that of a key. -/
def remove (key : α → κ) (k : κ) (l : List α) : List α := l.filter fun x => key x ≠ k

@[simp] theorem map_key_replace (key : α → κ) (b : α) (l : List α) :
    (replace key b l).map key = l.map key := by
  rw [replace, map_map]
  refine map_congr_left fun x _ => ?_
  rw [Function.comp_apply]
  split
  · rename_i h
    exact h.symm
  · rfl

/-- What is in the list afterwards is the new record, or was there under another key. -/
theorem mem_replace {x : α} (hx : x ∈ replace key b l) : x = b ∨ x ∈ l ∧ key x ≠ key b := by
  obtain ⟨y, hy, rfl⟩ := mem_map.1 hx
  split
  · exact .inl rfl
  · rename_i hne
    exact .inr ⟨hy, hne⟩

/-- Without the key, nothing is replaced. -/
theorem replace_of_notMem (h : key b ∉ l.map key) : replace key b l = l := by
  have hid : ∀ x ∈ l, (if key x = key b then b else x) = id x := fun x hx =>
    if_neg fun heq => h (mem_map.2 ⟨x, hx, heq⟩)
  rw [replace, map_congr_left hid, map_id]

/-- A replacement changes the number of records with a property by the two records. -/
theorem countP_replace (p : α → Bool) (hnodup : (l.map key).Nodup) (ha : a ∈ l) (hkey : key b = key a) :
    (replace key b l).countP p + (if p a then 1 else 0) = l.countP p + if p b then 1 else 0 := by
  induction l with
  | nil => exact absurd ha not_mem_nil
  | cons x l ih =>
    obtain ⟨hx, hl⟩ := nodup_cons.1 hnodup
    rw [replace, map_cons, ← replace, countP_cons, countP_cons]
    rcases mem_cons.1 ha with rfl | ha
    · rw [if_pos hkey.symm, replace_of_notMem (hkey ▸ hx)]
      omega
    · have hne : key x ≠ key b := fun heq => hx ((heq.trans hkey) ▸ mem_map_of_mem ha)
      have := ih hl ha
      rw [if_neg hne]
      omega

/-- Taking a record out lowers the number by what it contributes. -/
theorem countP_remove (p : α → Bool) (hnodup : (l.map key).Nodup) (ha : a ∈ l) :
    (remove key (key a) l).countP p + (if p a then 1 else 0) = l.countP p := by
  induction l with
  | nil => exact absurd ha not_mem_nil
  | cons x l ih =>
    obtain ⟨hx, hl⟩ := nodup_cons.1 hnodup
    rw [countP_cons]
    rcases mem_cons.1 ha with rfl | ha
    · have hrest : remove key (key a) l = l := filter_eq_self.2 fun y hy =>
        decide_eq_true fun heq => hx (heq ▸ mem_map_of_mem hy)
      rw [remove, filter_cons_of_neg (by simp), ← remove, hrest]
    · have hne : key x ≠ key a := fun heq => hx (heq ▸ mem_map_of_mem ha)
      have := ih hl ha
      rw [remove, filter_cons_of_pos (by simpa using hne), ← remove, countP_cons]
      omega

end Keyed
