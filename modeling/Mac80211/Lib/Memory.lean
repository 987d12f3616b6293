import Mathlib.Data.Option.Basic
import Mathlib.Tactic.Common

/-!
# Memory with an end

What a program reads through a pointer into a byte string, when nothing stops it at the end. A
function that reads memory is in the `Option` monad, and its result is `none` as soon as one of its
reads fails.

## Main definitions

* `Memory`, `ofList`, `extended`
-/

/-- A byte at each offset, or nothing where the program must not read. -/
abbrev Memory := ℕ → Option UInt8

namespace Memory

/-! ### Reads -/

def u8 (m : Memory) (off : ℕ) : Option ℕ := (m off).map UInt8.toNat

/-- Two bytes in network order. -/
def be16 (m : Memory) (off : ℕ) : Option ℕ := do
  let hi ← m.u8 off
  let lo ← m.u8 (off + 1)
  return hi * 256 + lo

/-- Four bytes in network order. -/
def be32 (m : Memory) (off : ℕ) : Option ℕ := do
  let hi ← m.be16 off
  let lo ← m.be16 (off + 2)
  return hi * 65536 + lo

/-- Two bytes, the low one first. -/
def le16 (m : Memory) (off : ℕ) : Option ℕ := do
  let lo ← m.u8 off
  let hi ← m.u8 (off + 1)
  return lo + hi * 256

/-- Four bytes, the lowest one first. -/
def le32 (m : Memory) (off : ℕ) : Option ℕ := do
  let lo ← m.le16 off
  let hi ← m.le16 (off + 2)
  return lo + hi * 65536

/-! ### A string and its surroundings -/

/-- A string, and nothing else may be read. -/
def ofList (bs : List UInt8) : Memory := fun off => bs[off]?

/-- A string, and what lies behind it. -/
def extended (bs : List UInt8) (beyond : ℕ → UInt8) : Memory :=
  fun off => some (bs.getD off (beyond off))

variable {bs : List UInt8} {beyond : ℕ → UInt8} {off n : ℕ}

@[simp] theorem isSome_u8 : ((ofList bs).u8 off).isSome ↔ off + 1 ≤ bs.length := by
  rw [u8, Option.isSome_map, ofList, isSome_getElem?]
  exact Iff.rfl

theorem bind_of_eq {α β : Type} {x : Option α} {a : α} (h : x = some a) (f : α → Option β) :
    (x >>= f) = f a := by
  rw [h]
  rfl

/-- A read, and then a part whose success does not depend on what was read. -/
theorem isSome_bind {α β : Type} {x : Option α} {f : α → Option β} {P : Prop}
    (h : ∀ a, (f a).isSome ↔ P) : (x >>= f).isSome ↔ x.isSome ∧ P := by
  cases x with
  | none => simp
  | some a => simpa using h a

/-- Two reads and a result made of both: both have to succeed. -/
theorem isSome_bind₂ {α β γ : Type} (x : Option α) (y : Option β) (f : α → β → γ) :
    (do let a ← x; let b ← y; return f a b).isSome ↔ x.isSome ∧ y.isSome := by
  refine isSome_bind fun a => ?_
  rw [isSome_bind (P := True) fun b => by simp, and_true]

@[simp] theorem isSome_be16 : ((ofList bs).be16 off).isSome ↔ off + 2 ≤ bs.length := by
  rw [be16, isSome_bind₂, isSome_u8, isSome_u8]
  omega

@[simp] theorem isSome_be32 : ((ofList bs).be32 off).isSome ↔ off + 4 ≤ bs.length := by
  rw [be32, isSome_bind₂, isSome_be16, isSome_be16]
  omega

@[simp] theorem isSome_le16 : ((ofList bs).le16 off).isSome ↔ off + 2 ≤ bs.length := by
  rw [le16, isSome_bind₂, isSome_u8, isSome_u8]
  omega

/-! ### The same reads with and without the surroundings -/

theorem u8_extended (h : off + 1 ≤ bs.length) :
    (extended bs beyond).u8 off = (ofList bs).u8 off := by
  rw [u8, u8, extended, ofList, List.getD_eq_getElem?_getD, List.getElem?_eq_getElem h,
    Option.getD_some]

theorem be16_extended (h : off + 2 ≤ bs.length) :
    (extended bs beyond).be16 off = (ofList bs).be16 off := by
  rw [be16, be16, u8_extended (by omega), u8_extended (by omega)]

end Memory

/-! ### Loops of reads -/

/-- A loop with a result for each element ends when every round does. -/
theorem List.isSome_mapM {α β : Type} (f : α → Option β) (l : List α) :
    (l.mapM f).isSome ↔ ∀ a ∈ l, (f a).isSome := by
  induction l with
  | nil => simp
  | cons a l ih =>
    rw [List.mapM_cons, Memory.isSome_bind₂, List.forall_mem_cons, ih]

/-- A loop that stops at the first failed check has passed all of them. -/
theorem List.allM_eq_some_true {α : Type*} (p : α → Option Bool) (l : List α) :
    l.allM p = some true ↔ ∀ a ∈ l, p a = some true := by
  induction l with
  | nil => simp
  | cons a l ih =>
    rw [List.allM_cons, List.forall_mem_cons, ← ih]
    rcases p a with _ | _ | _
    all_goals simp

/-- A loop of checks ends, with either answer, when every check does. -/
theorem List.isSome_allM {α : Type*} {p : α → Option Bool} {l : List α}
    (h : ∀ a ∈ l, (p a).isSome) : (l.allM p).isSome := by
  induction l with
  | nil => simp
  | cons a l ih =>
    rw [List.forall_mem_cons] at h
    obtain ⟨ok, hok⟩ := Option.isSome_iff_exists.mp h.1
    rw [List.allM_cons, hok]
    cases ok with
    | true => exact ih h.2
    | false => rfl
