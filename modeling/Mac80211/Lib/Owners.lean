import Mac80211.Lib.Sums

/-!
# Owners

Each of some objects owns resources, and what an object owns is freed with it. The resources freed,
owned and not owned yet are together all that there have ever been, each of them once.

## Main definitions

* `Owned`

## Main results

* `Owned.nodup_freed` — none is freed twice
-/

namespace Owners

open Multiset

variable {ι β : Type*} {live : Finset ι} {own own' : ι → Multiset β}
  {freed gone held held' all : Multiset β} {b : ι} {x : β}

/-- **The account.** `held` is what nobody owns yet. -/
def Owned (live : Finset ι) (own : ι → Multiset β) (freed held all : Multiset β) : Prop :=
  freed + ∑ b ∈ live, own b + held = all

theorem Owned.congr (h : Owned live own freed held all) (hown : ∀ b ∈ live, own' b = own b) :
    Owned live own' freed held all := by
  rw [Owned, Finset.sum_congr rfl hown]
  exact h

/-- There is a new resource. -/
theorem Owned.add (h : Owned live own freed held all) (x : β) :
    Owned live own freed (x ::ₘ held) (x ::ₘ all) := by
  rw [Owned, add_cons]
  exact congrArg (x ::ₘ ·) h

/-- What nobody owns is freed. -/
theorem Owned.drop (h : Owned live own freed (gone + held) all) :
    Owned live own (freed + gone) held all := by
  rw [Owned] at h ⊢
  rw [← h]
  abel

section DecidableEq

variable [DecidableEq ι]

/-- **An owner is freed** with what it owns. -/
theorem Owned.free (h : Owned live own freed held all) (hb : b ∈ live) :
    Owned (live.erase b) own (freed + own b) held all := by
  rw [Owned, ← Finset.add_sum_erase live own hb] at h
  rw [Owned, ← h]
  abel

/-- **A new owner** gets what nobody owns yet. -/
theorem Owned.insert (h : Owned live own freed (own b + held) all) (hb : b ∉ live) :
    Owned (insert b live) own freed held all := by
  rw [Owned, Finset.sum_insert hb]
  rw [Owned] at h
  rw [← h]
  abel

/-- **An owner's resources change**: it gets some, and some are freed. -/
theorem Owned.change (h : Owned live own freed held all) (hb : b ∈ live)
    (hother : ∀ c, c ≠ b → own' c = own c) (hself : own' b + gone + held' = own b + held) :
    Owned live own' (freed + gone) held' all := by
  have hsum := Finset.sum_change hb hother
  rw [Owned] at h ⊢
  refine add_right_cancel (b := own b) ?_
  calc freed + gone + ∑ c ∈ live, own' c + held' + own b
      = freed + gone + held' + (∑ c ∈ live, own' c + own b) := by abel
    _ = freed + ∑ c ∈ live, own c + (own' b + gone + held') := by rw [hsum]; abel
    _ = all + own b := by rw [hself, ← h]; abel

end DecidableEq

/-! ### What it says -/

/-- **Nothing is freed twice.** -/
theorem Owned.nodup_freed (h : Owned live own freed held all) (hall : all.Nodup) : freed.Nodup := by
  refine nodup_of_le ?_ hall
  rw [← h, add_assoc]
  exact Multiset.le_add_right ..

/-- **What is owned has not been freed.** -/
theorem Owned.not_mem_freed (h : Owned live own freed held all) (hall : all.Nodup) (hb : b ∈ live)
    (hx : x ∈ own b) : x ∉ freed := by
  have hnodup : (freed + ∑ b ∈ live, own b).Nodup := by
    refine nodup_of_le ?_ hall
    rw [← h]
    exact Multiset.le_add_right ..
  refine fun hfreed => Multiset.disjoint_left.mp (Multiset.nodup_add.mp hnodup).2.2 hfreed ?_
  exact mem_sum.mpr ⟨b, hb, hx⟩

/-- **Nothing is lost**: when no owner is left, everything has been freed. -/
theorem Owned.freed_eq (h : Owned ∅ own freed 0 all) : freed = all := by
  rw [Owned, Finset.sum_empty, add_zero, add_zero] at h
  exact h

end Owners
