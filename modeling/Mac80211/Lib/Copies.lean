import Mac80211.Lib.Bytes

/-!
# A buffer filled by copies

A buffer is allocated, a few copies are made into it, and then it is read as a whole. A copy may run
over the end, and a byte may be read that no copy has written.

## Main definitions

* `Inside`, `Covers`

## Main results

* `take_applyCopies_eq` — if neither happens, what is read depends on the copies alone
-/

namespace Bytes

open List

/-- `memcpy(buf + off, src, len)`: the offset, and the bytes. -/
abbrev Copy := ℕ × List UInt8

/-- Make some copies, one after the other. -/
def applyCopies (buf : List UInt8) (cs : List Copy) : List UInt8 :=
  cs.foldl (fun b c => memcpyAt b c.1 c.2) buf

/-- Every copy stays inside a buffer of `n` bytes. -/
def Inside (n : ℕ) (cs : List Copy) : Prop := ∀ c ∈ cs, c.1 + c.2.length ≤ n
deriving Decidable

/-- Every one of the first `n` bytes is written by some copy. -/
def Covers (n : ℕ) (cs : List Copy) : Prop := ∀ i < n, ∃ c ∈ cs, c.1 ≤ i ∧ i < c.1 + c.2.length

instance (n : ℕ) (cs : List Copy) : Decidable (Covers n cs) :=
  inferInstanceAs (Decidable (∀ i < n, ∃ c ∈ cs, _))

theorem Covers.append_left {n : ℕ} {ds : List Copy} (h : Covers n ds) (cs : List Copy) :
    Covers n (cs ++ ds) := by
  intro i hi
  obtain ⟨c, hc, hin⟩ := h i hi
  exact ⟨c, mem_append_right _ hc, hin⟩

variable {n off : ℕ} {buf src : List UInt8}

/-- A copy writes its own range and nothing else. -/
theorem getElem?_memcpyAt (h : off ≤ buf.length) (i : ℕ) : (memcpyAt buf off src)[i]? =
      if off ≤ i ∧ i < off + src.length then src[i - off]? else buf[i]? := by
  have htake : (buf.take off).length = off := by
    rw [length_take]
    omega
  rw [memcpyAt, append_assoc]
  rcases Nat.lt_or_ge i off with hlt | hge
  · rw [if_neg (by omega), List.getElem?_append_left (by omega), List.getElem?_take_of_lt hlt]
  · rw [List.getElem?_append_right (by omega), htake]
    rcases Nat.lt_or_ge i (off + src.length) with hlt | hge'
    · rw [if_pos ⟨hge, hlt⟩, List.getElem?_append_left (by omega)]
    · rw [if_neg (by omega), List.getElem?_append_right (by omega), List.getElem?_drop]
      congr 1
      omega

theorem le_length_memcpyAt (h : n ≤ buf.length) : n ≤ (memcpyAt buf off src).length := by
  simp only [memcpyAt, length_append, length_take, length_drop]
  omega

theorem le_length_applyCopies (h : n ≤ buf.length) (cs : List Copy) :
    n ≤ (applyCopies buf cs).length := by
  induction cs generalizing buf with
  | nil => exact h
  | cons c cs ih => exact ih (le_length_memcpyAt h)

/-- Two buffers that agree wherever the copies to come do not write agree afterwards. -/
theorem getElem?_applyCopies_eq {a b : List UInt8} {cs : List Copy} {i : ℕ}
    (ha : n ≤ a.length) (hb : n ≤ b.length) (hoff : ∀ c ∈ cs, c.1 ≤ n)
    (h : a[i]? = b[i]? ∨ ∃ c ∈ cs, c.1 ≤ i ∧ i < c.1 + c.2.length) :
    (applyCopies a cs)[i]? = (applyCopies b cs)[i]? := by
  induction cs generalizing a b with
  | nil =>
    rcases h with h | ⟨c, hc, -⟩
    · exact h
    · cases hc
  | cons c cs ih =>
    have hc : c.1 ≤ n := hoff c mem_cons_self
    refine ih (le_length_memcpyAt ha) (le_length_memcpyAt hb)
      (fun d hd => hoff d (mem_cons_of_mem _ hd)) ?_
    rw [getElem?_memcpyAt (hc.trans ha), getElem?_memcpyAt (hc.trans hb)]
    by_cases hin : c.1 ≤ i ∧ i < c.1 + c.2.length
    · rw [if_pos hin, if_pos hin]
      exact .inl rfl
    · rw [if_neg hin, if_neg hin]
      rcases h with h | ⟨d, hd, hd'⟩
      · exact .inl h
      · rcases mem_cons.mp hd with rfl | hd
        · exact absurd hd' hin
        · exact .inr ⟨d, hd, hd'⟩

/-- **What is covered is what was copied.** -/
theorem take_applyCopies_eq {a b : List UInt8} {cs : List Copy} (ha : n ≤ a.length)
    (hb : n ≤ b.length) (hin : Inside n cs) (hc : Covers n cs) :
    (applyCopies a cs).take n = (applyCopies b cs).take n := by
  apply ext_getElem?
  intro i
  rcases Nat.lt_or_ge i n with hi | hi
  · rw [List.getElem?_take_of_lt hi, List.getElem?_take_of_lt hi]
    exact getElem?_applyCopies_eq ha hb
      (fun c hc => (Nat.le_add_right _ _).trans (hin c hc)) (.inr (hc i hi))
  · rw [List.getElem?_take_eq_none hi, List.getElem?_take_eq_none hi]

end Bytes
