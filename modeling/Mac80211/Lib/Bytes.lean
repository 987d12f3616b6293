import Mathlib.Tactic.Ring
import Mathlib.Data.Nat.ModEq

/-!
# Byte strings as numbers

What C code does with a byte array that stands for a number: compare two with `memcmp`, add one with
a carry loop, and copy one into a larger buffer.

## Main definitions

* `beNat`, `memcmp`, `incr`, `memcpyAt`

## Main results

* `memcmp_eq_compare`, `beNat_incr` — comparison and successor of the big-endian value
-/

namespace Bytes

open List

/-- The value of a byte string, most significant byte first. -/
def beNat : List UInt8 → ℕ
  | [] => 0
  | b :: bs => b.toNat * 256 ^ bs.length + beNat bs

@[simp] theorem beNat_nil : beNat [] = 0 := rfl

theorem beNat_cons (b : UInt8) (bs : List UInt8) :
    beNat (b :: bs) = b.toNat * 256 ^ bs.length + beNat bs := rfl

theorem beNat_lt (bs : List UInt8) : beNat bs < 256 ^ bs.length := by
  induction bs with
  | nil => simp
  | cons b bs ih =>
    have hb : b.toNat + 1 ≤ 256 := b.toNat_lt
    calc beNat (b :: bs) < b.toNat * 256 ^ bs.length + 256 ^ bs.length := by
          rw [beNat_cons]; omega
      _ = (b.toNat + 1) * 256 ^ bs.length := by ring
      _ ≤ 256 * 256 ^ bs.length := Nat.mul_le_mul_right _ hb
      _ = 256 ^ (b :: bs).length := by rw [length_cons, pow_succ, Nat.mul_comm]

/-- A smaller leading byte makes a smaller number, whatever follows. -/
theorem beNat_cons_lt_of_lt {a b : UInt8} {as bs : List UInt8} (h : as.length = bs.length)
    (hab : a.toNat < b.toNat) : beNat (a :: as) < beNat (b :: bs) := by
  have has := beNat_lt as
  calc beNat (a :: as) < a.toNat * 256 ^ as.length + 256 ^ as.length := by
        rw [beNat_cons]; omega
    _ = (a.toNat + 1) * 256 ^ bs.length := by rw [h]; ring
    _ ≤ b.toNat * 256 ^ bs.length := Nat.mul_le_mul_right _ hab
    _ ≤ beNat (b :: bs) := by rw [beNat_cons]; omega

/-! ### `memcmp` -/

/-- Lexicographic comparison of two byte strings of one length. -/
def memcmp : List UInt8 → List UInt8 → Ordering
  | a :: as, b :: bs => if a < b then .lt else if b < a then .gt else memcmp as bs
  | _, _ => .eq

/-- **`memcmp` compares big-endian values.** -/
theorem memcmp_eq_compare : ∀ {as bs : List UInt8}, as.length = bs.length →
    memcmp as bs = compare (beNat as) (beNat bs)
  | [], [], _ => rfl
  | a :: as, b :: bs, h => by
    have hlen : as.length = bs.length := by simpa using h
    simp only [memcmp]
    rcases Nat.lt_trichotomy a.toNat b.toNat with hab | hab | hab
    · rw [if_pos (UInt8.lt_iff_toNat_lt.mpr hab)]
      exact (Nat.compare_eq_lt.mpr (beNat_cons_lt_of_lt hlen hab)).symm
    · have heq : a = b := UInt8.toNat_inj.mp hab
      subst heq
      rw [if_neg (UInt8.lt_irrefl a), if_neg (UInt8.lt_irrefl a), memcmp_eq_compare hlen,
        beNat_cons, beNat_cons, hlen]
      rcases Nat.lt_trichotomy (beNat as) (beNat bs) with hl | hl | hl
      · rw [Nat.compare_eq_lt.mpr hl, Nat.compare_eq_lt.mpr (by omega)]
      · rw [Nat.compare_eq_eq.mpr hl, Nat.compare_eq_eq.mpr (by omega)]
      · rw [Nat.compare_eq_gt.mpr hl, Nat.compare_eq_gt.mpr (by omega)]
    · have hlt : ¬ a < b := fun hc => by have := UInt8.lt_iff_toNat_lt.mp hc; omega
      rw [if_neg hlt, if_pos (UInt8.lt_iff_toNat_lt.mpr hab)]
      exact (Nat.compare_eq_gt.mpr (beNat_cons_lt_of_lt hlen.symm hab)).symm

/-- Two byte strings of one length with the same value are the same string. -/
theorem beNat_injective : ∀ {as bs : List UInt8}, as.length = bs.length → beNat as = beNat bs →
    as = bs
  | [], [], _, _ => rfl
  | a :: as, b :: bs, h, hv => by
    have hlen : as.length = bs.length := by simpa using h
    have hab : a.toNat = b.toNat := by
      by_contra hne
      rcases Nat.lt_or_gt_of_ne hne with hlt | hlt
      · exact absurd hv (beNat_cons_lt_of_lt hlen hlt).ne
      · exact absurd hv.symm (beNat_cons_lt_of_lt hlen.symm hlt).ne
    rw [beNat_cons, beNat_cons, hab, hlen] at hv
    rw [UInt8.toNat_inj.mp hab, beNat_injective hlen (by omega)]

theorem memcmp_eq_eq_iff {as bs : List UInt8} (h : as.length = bs.length) :
    memcmp as bs = .eq ↔ as = bs := by
  rw [memcmp_eq_compare h, Nat.compare_eq_eq]
  exact ⟨beNat_injective h, congrArg _⟩

/-! ### The carry loop -/

/-- One pass of the carry loop over the tail, and whether it carries out. -/
def incrCarry : List UInt8 → List UInt8 × Bool
  | [] => ([], true)
  | b :: bs =>
    match incrCarry bs with
    | (bs', true) => ((b + 1) :: bs', b + 1 = 0)
    | (bs', false) => (b :: bs', false)

/-- Add one to a big-endian byte string, dropping the carry out of the first byte. -/
def incr (bs : List UInt8) : List UInt8 := (incrCarry bs).1

theorem length_incrCarry (bs : List UInt8) : (incrCarry bs).1.length = bs.length := by
  induction bs with
  | nil => rfl
  | cons b bs ih =>
    rw [incrCarry]
    split <;> rename_i bs' h <;> rw [h] at ih <;> simpa using ih

@[simp] theorem length_incr (bs : List UInt8) : (incr bs).length = bs.length :=
  length_incrCarry bs

/-- The invariant of the loop: value out plus the carry's weight is value in plus one. -/
theorem beNat_incrCarry (bs : List UInt8) :
    beNat (incrCarry bs).1 + (if (incrCarry bs).2 then 256 ^ bs.length else 0) = beNat bs + 1 := by
  induction bs with
  | nil => simp [incrCarry]
  | cons b bs ih =>
    have hlen := length_incrCarry bs
    rw [incrCarry]
    split
    · rename_i bs' h
      rw [h] at ih hlen
      simp only [if_true] at ih
      rw [length_cons, pow_succ, beNat_cons, beNat_cons, hlen]
      by_cases hb : b + 1 = 0
      · have hb' : b.toNat = 255 := by
          have := congrArg UInt8.toNat hb
          rw [UInt8.toNat_add] at this
          have hlt := b.toNat_lt
          simp only [UInt8.toNat_ofNat] at this
          omega
        simp only [hb, decide_true, if_true, hb', UInt8.toNat_zero]
        omega
      · have hb' : (b + 1).toNat = b.toNat + 1 := by
          have hlt := b.toNat_lt
          have hne : b.toNat ≠ 255 := fun hc => hb (UInt8.toNat_inj.mp (by
            rw [UInt8.toNat_add, hc]; rfl))
          rw [UInt8.toNat_add]
          simp only [UInt8.toNat_ofNat]
          omega
        simp only [hb, decide_false, if_false, hb', Bool.false_eq_true, Nat.add_mul]
        omega
    · rename_i bs' h
      rw [h] at ih hlen
      simp only [Bool.false_eq_true, if_false, Nat.add_zero] at ih ⊢
      rw [beNat_cons, beNat_cons, hlen]
      omega

/-- **The carry loop is successor**, except that the all-ones string wraps to zero. -/
theorem beNat_incr (bs : List UInt8) : beNat (incr bs) = (beNat bs + 1) % 256 ^ bs.length := by
  have hinv := beNat_incrCarry bs
  have hlt := beNat_lt bs
  have hlt' : beNat (incr bs) < 256 ^ bs.length := by simpa using beNat_lt (incr bs)
  rw [incr] at *
  split at hinv
  · have : beNat bs + 1 = 256 ^ bs.length := by omega
    rw [this, Nat.mod_self]
    omega
  · rw [← hinv, Nat.add_zero, Nat.mod_eq_of_lt hlt']

/-! ### Copies -/

/-- `memcpy(buf + off, src, len)`. The result is longer than `buf` exactly when the copy runs over
its end. -/
def memcpyAt (buf : List UInt8) (off : ℕ) (src : List UInt8) : List UInt8 :=
  buf.take off ++ src ++ buf.drop (off + src.length)

theorem length_memcpyAt {buf : List UInt8} {off : ℕ} {src : List UInt8}
    (h : off + src.length ≤ buf.length) : (memcpyAt buf off src).length = buf.length := by
  simp only [memcpyAt, length_append, length_take, length_drop]
  omega

/-- What lies behind the copy stays. -/
theorem drop_memcpyAt {buf : List UInt8} {off n : ℕ} {src : List UInt8}
    (h : off + src.length ≤ buf.length) (hn : off + src.length ≤ n) :
    (memcpyAt buf off src).drop n = buf.drop n := by
  have hhead : (buf.take off ++ src).length = off + src.length := by
    rw [length_append, length_take]
    omega
  rw [memcpyAt, drop_append, hhead, drop_of_length_le (by omega), nil_append,
    drop_drop, show off + src.length + (n - (off + src.length)) = n by omega]

/-- One byte is written behind `head`. -/
theorem memcpyAt_append (head : List UInt8) (b b' : UInt8) (tail : List UInt8) :
    memcpyAt (head ++ b' :: tail) head.length [b] = head ++ b :: tail := by
  simp [memcpyAt, drop_append]

/-- A copy behind what comes first. -/
theorem memcpyAt_append_right (pre buf : List UInt8) (off : ℕ) (src : List UInt8) :
    memcpyAt (pre ++ buf) (pre.length + off) src = pre ++ memcpyAt buf off src := by
  rw [memcpyAt, memcpyAt, take_length_add_append, Nat.add_assoc,
    drop_length_add_append]
  simp

/-! ### Two bytes -/

/-- `cpu_to_be16`: the higher byte first, and what does not fit is lost. -/
def be16 (n : ℕ) : List UInt8 := [UInt8.ofNat (n / 256), UInt8.ofNat n]

/-- The number at an offset. -/
def be16At (bs : List UInt8) (off : ℕ) : ℕ :=
  (bs.getD off 0).toNat * 256 + (bs.getD (off + 1) 0).toNat

@[simp] theorem length_be16 (n : ℕ) : (be16 n).length = 2 := rfl

theorem be16At_append (head tail : List UInt8) (off : ℕ) :
    be16At (head ++ tail) (head.length + off) = be16At tail off := by
  simp [be16At, Nat.add_assoc, getElem?_append_right]

/-- Written and read back. -/
theorem be16At_be16 (n : ℕ) (tail : List UInt8) : be16At (be16 n ++ tail) 0 = n % 2 ^ 16 := by
  simp only [be16At, be16, cons_append, getD_cons_zero, getD_cons_succ, Nat.zero_add]
  rw [UInt8.toNat_ofNat', UInt8.toNat_ofNat']
  omega

theorem be16_mod (n : ℕ) : be16 (n % 2 ^ 16) = be16 n := by
  have hhi : UInt8.ofNat (n % 2 ^ 16 / 256) = UInt8.ofNat (n / 256) := by
    apply UInt8.toNat_inj.mp
    rw [UInt8.toNat_ofNat', UInt8.toNat_ofNat']
    omega
  have hlo : UInt8.ofNat (n % 2 ^ 16) = UInt8.ofNat n := by
    apply UInt8.toNat_inj.mp
    rw [UInt8.toNat_ofNat', UInt8.toNat_ofNat']
    omega
  rw [be16, hhi, hlo, be16]

/-- Read and written back. -/
theorem be16_be16At (hi lo : UInt8) (tail : List UInt8) :
    be16 (be16At (hi :: lo :: tail) 0) = [hi, lo] := by
  have hlo := lo.toNat_lt
  simp only [be16, be16At, getD_cons_zero, getD_cons_succ, Nat.zero_add]
  rw [show (hi.toNat * 256 + lo.toNat) / 256 = hi.toNat by omega, UInt8.ofNat_toNat]
  congr 2
  apply UInt8.toNat_inj.mp
  rw [UInt8.toNat_ofNat']
  omega

end Bytes
