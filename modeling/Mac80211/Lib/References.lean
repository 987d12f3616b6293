import Mac80211.Lib.Sums
import Mathlib.Algebra.Order.BigOperators.Group.Finset
import Mathlib.Algebra.BigOperators.Group.Finset.Piecewise
import Mathlib.Algebra.Order.Ring.Int

/-!
# Reference counts with links

Objects are counted by whoever refers to them. An object may point to one other, and each reference
to it is then counted for that one as well; links do not come in chains. `count b` is linear in the
references `own` held on the objects.

## Main definitions

* `Counted`

## Main results

* `Counted.add`, `Counted.relink`
-/

namespace References

open Finset

variable {ι : Type*} [DecidableEq ι]

/-- The counts are exact, and links lead to live objects that have no link. -/
structure Counted (live : Finset ι) (link : ι → Option ι) (own count : ι → ℤ) : Prop where
  exact : ∀ b ∈ live, count b = own b + ∑ c ∈ live with link c = some b, own c
  target : ∀ c ∈ live, ∀ p, link c = some p → p ∈ live ∧ link p = none
  nonneg : ∀ b ∈ live, 0 ≤ own b

variable {live : Finset ι} {link link' : ι → Option ι} {own own' count count' : ι → ℤ} {b n p : ι}

/-- An object that has a link is not pointed to. -/
theorem Counted.no_holder (h : Counted live link own count) (hb : link b = some p) {c : ι}
    (hc : c ∈ live) : link c ≠ some b := by
  intro hlink
  rw [(h.target c hc b hlink).2] at hb
  cases hb

theorem sum_holders_eq_zero (h : ∀ c ∈ live, link c ≠ some b) :
    ∑ c ∈ live with link c = some b, own c = 0 := by
  rw [filter_false_of_mem h, sum_empty]

/-- An object that nobody points to is counted for its own references. -/
theorem Counted.count_eq_own (h : Counted live link own count) (hb : b ∈ live)
    (hno : ∀ c ∈ live, link c ≠ some b) : count b = own b := by
  rw [h.exact b hb, sum_holders_eq_zero hno, add_zero]

/-- **The count in terms of other counts.** -/
theorem Counted.count_eq_sum (h : Counted live link own count) (hb : b ∈ live) :
    count b = own b + ∑ c ∈ live with link c = some b, count c := by
  rw [h.exact b hb]
  congr 1
  refine sum_congr rfl fun c hc => ?_
  obtain ⟨hlive, hlink⟩ := mem_filter.mp hc
  exact (h.count_eq_own hlive fun d hd => h.no_holder hlink hd).symm

theorem Counted.own_le (h : Counted live link own count) (hb : b ∈ live) : own b ≤ count b := by
  rw [h.exact b hb]
  have hsum : 0 ≤ ∑ c ∈ live with link c = some b, own c :=
    sum_nonneg fun c hc => h.nonneg c (mem_filter.mp hc).1
  omega

/-- A reference to an object is one to what it points to. -/
theorem Counted.own_le_of_link (h : Counted live link own count) (hb : b ∈ live)
    (hlink : link b = some p) : own b ≤ count p := by
  have hp := (h.target b hb p hlink).1
  rw [h.exact p hp]
  have hmem : b ∈ live.filter fun c => link c = some p := mem_filter.mpr ⟨hb, hlink⟩
  have hle : own b ≤ ∑ c ∈ live with link c = some p, own c :=
    single_le_sum (f := own) (fun c hc => h.nonneg c (mem_filter.mp hc).1) hmem
  have hown := h.nonneg p hp
  omega

/-- **References are taken or dropped.** -/
theorem Counted.add (h : Counted live link own count) (hb : b ∈ live) (k : ℤ) (hk : 0 ≤ own b + k)
    (hown : ∀ x, own' x = own x + if x = b then k else 0)
    (hcount : ∀ x, count' x = count x + (if x = b then k else 0) + if link b = some x then k else 0) :
    Counted live link own' count' where
  exact := by
    intro x hx
    have hsum : ∑ c ∈ live with link c = some x, own' c =
        ∑ c ∈ live with link c = some x, own c + if link b = some x then k else 0 := by
      simp only [hown, sum_add_distrib, sum_ite_eq', mem_filter, hb, true_and]
    rw [hcount, h.exact x hx, hown, hsum]
    omega
  target := h.target
  nonneg := by
    intro x hx
    rw [hown]
    split
    · rename_i hxb
      rw [hxb]
      exact hk
    · simpa using h.nonneg x hx

/-- **What nobody refers to is freed.** Nothing that stays points to it. -/
theorem Counted.collect (h : Counted live link own count) :
    Counted (live.filter fun b => 0 < count b) link own count where
  exact := by
    intro x hx
    rw [h.exact x (mem_filter.mp hx).1, filter_comm]
    congr 1
    refine (sum_filter_of_ne fun c hc hown => ?_).symm
    have hlive := (mem_filter.mp hc).1
    have hnonneg := h.nonneg c hlive
    have hle := h.own_le hlive
    omega
  target := by
    intro c hc p hlink
    obtain ⟨hlive, hpos⟩ := mem_filter.mp hc
    obtain ⟨hp, hnone⟩ := h.target c hlive p hlink
    refine ⟨mem_filter.mpr ⟨hp, ?_⟩, hnone⟩
    rw [h.count_eq_own hlive fun d hd => h.no_holder hlink hd] at hpos
    exact hpos.trans_le (h.own_le_of_link hlive hlink)
  nonneg := fun x hx => h.nonneg x (mem_filter.mp hx).1

/-- Only live objects matter. -/
theorem Counted.congr (h : Counted live link own count) (hlink : ∀ x ∈ live, link' x = link x)
    (hown : ∀ x ∈ live, own' x = own x) (hcount : ∀ x ∈ live, count' x = count x) :
    Counted live link' own' count' where
  exact := by
    intro x hx
    rw [hcount x hx, hown x hx, h.exact x hx]
    congr 1
    rw [sum_filter, sum_filter]
    refine sum_congr rfl fun c hc => ?_
    rw [hlink c hc, hown c hc]
  target := by
    intro c hc p hcp
    rw [hlink c hc] at hcp
    obtain ⟨hp, hnone⟩ := h.target c hc p hcp
    exact ⟨hp, by rw [hlink p hp]; exact hnone⟩
  nonneg := fun x hx => by rw [hown x hx]; exact h.nonneg x hx

/-- **A new object**, with `k` references. What it points to is counted as often. -/
theorem Counted.insert (h : Counted live link own count) (hn : n ∉ live) {l : Option ι} {k : ℤ}
    (hk : 0 ≤ k) (hl : ∀ p, l = some p → p ∈ live ∧ link p = none)
    (hlink : ∀ x, link' x = if x = n then l else link x)
    (hown : ∀ x, own' x = if x = n then k else own x)
    (hcount : ∀ x, count' x = if x = n then k else count x + if l = some x then k else 0) :
    Counted (insert n live) link' own' count' := by
  have hne : ∀ x ∈ live, x ≠ n := fun x hx heq => hn (heq ▸ hx)
  have hnot : ∀ c ∈ live, link c ≠ some n := fun c hc hcn => hn (h.target c hc n hcn).1
  have hself : l ≠ some n := fun hln => hn (hl n hln).1
  have hsum : ∀ x, ∑ c ∈ Insert.insert n live with link' c = some x, own' c =
      ∑ c ∈ live with link c = some x, own c + if l = some x then k else 0 := by
    intro x
    have hold : ∑ c ∈ live with link' c = some x, own' c = ∑ c ∈ live with link c = some x, own c := by
      rw [sum_filter, sum_filter]
      refine sum_congr rfl fun c hc => ?_
      rw [hlink, hown, if_neg (hne c hc), if_neg (hne c hc)]
    rw [filter_insert, hlink, if_pos rfl]
    split
    · rw [sum_insert (by simp [hn]), hold, hown, if_pos rfl, add_comm]
    · rw [hold, add_zero]
  constructor
  · intro x hx
    rw [hsum, hcount, hown]
    rcases mem_insert.mp hx with rfl | hx
    · rw [if_pos rfl, if_pos rfl, sum_holders_eq_zero hnot, if_neg hself]
      omega
    · rw [if_neg (hne x hx), if_neg (hne x hx), h.exact x hx]
      omega
  · intro c hc p hcp
    have hlive : p ∈ live ∧ link p = none := by
      rcases mem_insert.mp hc with rfl | hc
      · rw [hlink, if_pos rfl] at hcp
        exact hl p hcp
      · rw [hlink, if_neg (hne c hc)] at hcp
        exact h.target c hc p hcp
    refine ⟨mem_insert_of_mem hlive.1, ?_⟩
    rw [hlink, if_neg (hne p hlive.1)]
    exact hlive.2
  · intro x hx
    rw [hown]
    split
    · exact hk
    · rename_i hxn
      exact h.nonneg x (mem_of_mem_insert_of_ne hx hxn)

/-- **An object gets a link**, and what it is counted is added there. -/
theorem Counted.relink (h : Counted live link own count) (hb : b ∈ live) (hn : n ∈ live) (hne : b ≠ n)
    (hnone : link b = none) (hroot : link n = none) (hno : ∀ c ∈ live, link c ≠ some b)
    (hlink : ∀ x, link' x = if x = b then some n else link x)
    (hcount : ∀ x, count' x = if x = n then count n + count b else count x) :
    Counted live link' own count' where
  exact := by
    intro x hx
    have hown := h.count_eq_own hb hno
    have hsum : ∑ c ∈ live with link' c = some x, own c =
        ∑ c ∈ live with link c = some x, own c + if x = n then own b else 0 := by
      rw [sum_filter, sum_filter]
      have hchange := sum_change hb (f := fun c => if link c = some x then own c else 0)
        (g := fun c => if link' c = some x then own c else 0) fun c hc => by rw [hlink, if_neg hc]
      simp only [hlink, if_true, hnone, Option.some.injEq, reduceCtorEq, if_false] at hchange ⊢
      simp only [eq_comm (a := n)] at hchange
      omega
    rw [hsum, hcount]
    split
    · rename_i hxn
      rw [hxn, h.exact n hn]
      omega
    · rw [h.exact x hx]
      omega
  target := by
    intro c hc p hcp
    rw [hlink] at hcp ⊢
    split at hcp
    · rw [Option.some.injEq] at hcp
      subst hcp
      exact ⟨hn, by rw [if_neg (Ne.symm hne)]; exact hroot⟩
    · obtain ⟨hp, hpnone⟩ := h.target c hc p hcp
      have hpb : p ≠ b := fun heq => hno c hc (heq ▸ hcp)
      exact ⟨hp, by rw [if_neg hpb]; exact hpnone⟩
  nonneg := h.nonneg

end References
