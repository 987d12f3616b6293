import Mac80211.Lib.Counter
import Mac80211.Device

/-!
# Packet numbers and rotations

Every path takes numbers from `tx_pn` by an atomic increment, but a rotation overwrites it with
`generate_pn`, the number of the period in the upper 24 bits. Every AP interface keeps a period of
its own, but a rotation is for the stations of all.

## Main definitions

* `NoResetBack`, `PnInv`

## Main results

* `pairwise_pns` — no packet number is used twice with a key
-/

namespace Mac80211

open Machine Counter

/-- The packet numbers taken from a key, oldest first. -/
def pns (k : KeyId) (os : List Logged) : List ℕ :=
  os.filterMap fun
    | .draw k' pn _ => if k' = k then some pn else none
    | _ => none

/-- What happened to the counter of a key. -/
def pnOps (k : KeyId) (os : List Logged) : List Op :=
  os.filterMap fun
    | .draw k' _ _ => if k' = k then some .draw else none
    | .reset k' t => if k' = k then some (.reset (generatePn t)) else none
    | .handed .. => none

/-- The period, as far as `generate_pn` looks at it. -/
def pnPeriod (t : ℕ) : ℕ := t / RND_TP % 2 ^ 24

/-- A key was last reset in period `q`, and `n` numbers have been taken since. Every reset finds
that few enough have been taken, and the 48 bits do not run over. -/
def NoResetBack (k : KeyId) : ℕ → ℕ → List Logged → Prop
  | _, _, [] => True
  | q, n, .draw k' _ _ :: os =>
    if k' = k then q * 2 ^ 24 + n + 1 < 2 ^ 48 ∧ NoResetBack k q (n + 1) os else NoResetBack k q n os
  | q, n, .reset k' t :: os =>
    if k' = k then q * 2 ^ 24 + n ≤ pnPeriod t * 2 ^ 24 ∧ NoResetBack k (pnPeriod t) 0 os
    else NoResetBack k q n os
  | q, n, .handed .. :: os => NoResetBack k q n os

instance (k : KeyId) : ∀ (q n : ℕ) (os : List Logged), Decidable (NoResetBack k q n os)
  | _, _, [] => .isTrue trivial
  | q, n, .draw _ _ _ :: os =>
    have := instDecidableNoResetBack k q (n + 1) os
    have := instDecidableNoResetBack k q n os
    inferInstanceAs (Decidable (ite _ _ _))
  | q, n, .reset _ t :: os =>
    have := instDecidableNoResetBack k (pnPeriod t) 0 os
    have := instDecidableNoResetBack k q n os
    inferInstanceAs (Decidable (ite _ _ _))
  | q, n, .handed .. :: os => instDecidableNoResetBack k q n os

theorem generatePn_eq (t : ℕ) : generatePn t = pnPeriod t * 2 ^ 24 := rfl

section Lists

variable {k k' : KeyId} {os : List Logged}

theorem pnOps_cons (l : Logged) : pnOps k (l :: os) = pnOps k [l] ++ pnOps k os := by
  rw [pnOps, pnOps, pnOps, ← List.filterMap_append, List.singleton_append]

theorem pnOps_concat (l : Logged) : pnOps k (os ++ [l]) = pnOps k os ++ pnOps k [l] := by
  rw [pnOps, pnOps, pnOps, List.filterMap_append]

theorem pns_concat (l : Logged) : pns k (os ++ [l]) = pns k os ++ pns k [l] := by
  rw [pns, pns, pns, List.filterMap_append]

theorem pnOps_draw (pn t : ℕ) : pnOps k [.draw k' pn t] = if k' = k then [.draw] else [] := by
  simp only [pnOps, List.filterMap_cons, List.filterMap_nil]
  split <;> simp_all

theorem pnOps_reset (t : ℕ) :
    pnOps k [.reset k' t] = if k' = k then [.reset (generatePn t)] else [] := by
  simp only [pnOps, List.filterMap_cons, List.filterMap_nil]
  split <;> simp_all

theorem pns_draw (pn t : ℕ) : pns k [.draw k' pn t] = if k' = k then [pn] else [] := by
  simp only [pns, List.filterMap_cons, List.filterMap_nil]
  split <;> simp_all

end Lists

variable {k : KeyId}

theorem forward_of_noResetBack {q n : ℕ} {os : List Logged}
    (h : NoResetBack k q n os) : Forward (2 ^ 48) (q * 2 ^ 24 + n) (pnOps k os) := by
  induction os generalizing q n with
  | nil => trivial
  | cons l os ih =>
    rw [pnOps_cons]
    cases l with
    | draw k' pn t =>
      rw [pnOps_draw]
      rw [NoResetBack] at h
      split
      · rename_i hk
        rw [if_pos hk] at h
        have hnext := ih h.2
        rw [← Nat.add_assoc] at hnext
        exact ⟨h.1, hnext⟩
      · rename_i hk
        rw [if_neg hk] at h
        exact ih h
    | reset k' t =>
      rw [pnOps_reset]
      rw [NoResetBack] at h
      split
      · rename_i hk
        rw [if_pos hk] at h
        have hnext := ih h.2
        rw [Nat.add_zero, ← generatePn_eq] at hnext
        exact ⟨h.1, hnext⟩
      · rename_i hk
        rw [if_neg hk] at h
        exact ih h
    | handed path vif sta skb => exact ih h

/-! ### The invariant -/

/-- Counters are what the history makes of them. -/
structure PnInv (s : Local) (os : List Logged) : Prop where
  pointers : s.PointersValid
  unused : ∀ k, s.nextKey ≤ k → pnOps k os = []
  /-- The counter of a key that was never reset back. -/
  txPn : ∀ k, k < s.nextKey → Forward (2 ^ 48) 0 (pnOps k os) →
    (s.keys k).txPn = final 0 (pnOps k os)
  taken : ∀ k, Forward (2 ^ 48) 0 (pnOps k os) → pns k os = draws 0 (pnOps k os)

section Invariant

variable {s s' : Local} {os : List Logged}

theorem PnInv.of_same (h : PnInv s os) (hk : s'.keys = s.keys) (hn : s'.nextKey = s.nextKey)
    (hp : ∀ k, s'.PointsTo k → s.PointsTo k) : PnInv s' os where
  pointers k hk' := hn ▸ h.pointers k (hp k hk')
  unused k hk' := h.unused k (hn ▸ hk')
  txPn k hk' hf := by rw [hk]; exact h.txPn k (hn ▸ hk') hf
  taken := h.taken

theorem PnInv.handed (h : PnInv s os) (path : Egress) (vif : SdataId) (sta : Option StaId)
    (skb : TxSkb) : PnInv s (os ++ [.handed path vif sta skb]) := by
  have hops : ∀ k, pnOps k (os ++ [.handed path vif sta skb]) = pnOps k os := by
    intro k
    rw [pnOps_concat]
    exact List.append_nil _
  refine ⟨h.pointers, ?_, ?_, ?_⟩
  · intro k hk
    rw [hops]
    exact h.unused k hk
  · intro k hk hf
    rw [hops] at hf ⊢
    exact h.txPn k hk hf
  · intro k hf
    rw [hops] at hf ⊢
    rw [← h.taken k hf, pns_concat]
    exact List.append_nil _

theorem pnVal_incTxPn {c : ℕ} (h : c + 1 < 2 ^ 48) : pnVal (pnOfNat ((c + 1) % 2 ^ 64)) = c + 1 := by
  have h64 : (c + 1) % 2 ^ 64 = c + 1 := Nat.mod_eq_of_lt (by omega)
  rw [pnVal_pnOfNat, h64, Nat.mod_eq_of_lt h]

theorem PnInv.draw (h : PnInv s os) (hk : s.PointsTo k) :
    PnInv (s.incTxPn k).1 (os ++ [.draw k (pnVal (s.incTxPn k).2) s.now]) := by
  have hlt := h.pointers k hk
  refine ⟨h.pointers, ?_, ?_, ?_⟩
  · intro k' hk'
    rw [pnOps_concat, pnOps_draw, if_neg (by rintro rfl; exact absurd hlt (not_lt.mpr hk')),
      List.append_nil]
    exact h.unused k' hk'
  · intro k' hk' hf
    rw [pnOps_concat, pnOps_draw] at hf ⊢
    split at hf
    · rename_i heq
      subst heq
      obtain ⟨hf, hfit⟩ := forward_concat.mp hf
      have hc := h.txPn k hlt hf
      have hfit : final 0 (pnOps k os) + 1 < 2 ^ 48 := hfit
      rw [if_pos rfl, final_concat]
      change (((s.updKey k Key.incTxPn).keys k).txPn) = final 0 (pnOps k os) + 1
      rw [Local.updKey_keys_self, Key.incTxPn, hc]
      exact Nat.mod_eq_of_lt (by omega)
    · rename_i hne
      rw [List.append_nil] at hf
      rw [if_neg hne, List.append_nil, ← h.txPn k' hk' hf]
      exact congrArg Key.txPn (Local.updKey_keys_of_ne s (Ne.symm hne) _)
  · intro k' hf
    rw [pnOps_concat, pnOps_draw] at hf ⊢
    rw [pns_concat, pns_draw]
    split at hf
    · rename_i heq
      subst heq
      obtain ⟨hf, hfit⟩ := forward_concat.mp hf
      have hc := h.txPn k hlt hf
      rw [if_pos rfl, if_pos rfl, draws_concat, ← h.taken k hf]
      congr 1
      change [pnVal (pnOfNat ((s.updKey k Key.incTxPn).keys k).txPn)] = [final 0 (pnOps k os) + 1]
      rw [Local.updKey_keys_self, Key.incTxPn, hc, pnVal_incTxPn hfit]
    · rename_i hne
      rw [List.append_nil] at hf
      rw [if_neg hne, if_neg hne, List.append_nil, List.append_nil]
      exact h.taken k' hf

theorem PnInv.reset (h : PnInv s os) (hk : s.PointsTo k) :
    PnInv (s.setTxPn k (generatePn s.now)) (os ++ [.reset k s.now]) := by
  have hlt := h.pointers k hk
  refine ⟨h.pointers, ?_, ?_, ?_⟩
  · intro k' hk'
    rw [pnOps_concat, pnOps_reset, if_neg (by rintro rfl; exact absurd hlt (not_lt.mpr hk')),
      List.append_nil]
    exact h.unused k' hk'
  · intro k' hk' hf
    rw [pnOps_concat, pnOps_reset] at hf ⊢
    split at hf
    · rename_i heq
      subst heq
      rw [if_pos rfl, final_concat, setTxPn_keys, if_pos rfl]
      rfl
    · rename_i hne
      rw [List.append_nil] at hf
      rw [if_neg hne, List.append_nil, setTxPn_keys, if_neg hne]
      exact h.txPn k' hk' hf
  · intro k' hf
    have hpns : pns k' (os ++ [.reset k s.now]) = pns k' os := by
      rw [pns_concat]
      exact List.append_nil _
    rw [pnOps_concat, pnOps_reset] at hf ⊢
    rw [hpns]
    split at hf
    · rename_i heq
      obtain ⟨hf, -⟩ := forward_concat.mp hf
      rw [if_pos heq, draws_concat, ← h.taken k' hf]
      exact (List.append_nil _).symm
    · rename_i hne
      rw [List.append_nil] at hf
      rw [if_neg hne, List.append_nil]
      exact h.taken k' hf

theorem append_reverse_cons (l : Logged) (ls : List Logged) :
    os ++ (l :: ls).reverse = os ++ ls.reverse ++ [l] := by
  rw [List.reverse_cons, List.append_assoc]

theorem PnInv.write {sha1 : List UInt8 → Vector UInt8 20} (hw : Write sha1 s s') (h : PnInv s (os ++ s.log.reverse)) :
    PnInv s' (os ++ s'.log.reverse) := by
  have hpoints : ∀ k, s'.PointsTo k → s.PointsTo k := fun k hk => hw.sameConfig.symm.pointsTo hk
  cases hw with
  | draw k hk =>
    change PnInv _ (os ++ (_ :: s.log).reverse)
    rw [append_reverse_cons]
    exact h.draw hk
  | reset k hk =>
    change PnInv _ (os ++ (_ :: s.log).reverse)
    rw [append_reverse_cons]
    exact h.reset hk
  | _ => exact h.of_same rfl rfl hpoints

theorem PnInv.hand {path : Egress} (hh : Hand path s s') (h : PnInv s (os ++ s.log.reverse)) :
    PnInv s' (os ++ s'.log.reverse) := by
  have hpoints : ∀ k, s'.PointsTo k → s.PointsTo k := fun k hk => hh.sameConfig.symm.pointsTo hk
  cases hh with
  | drvTx vif sta skb | handOver path vif sta skb hpath =>
    change PnInv _ (os ++ (_ :: s.log).reverse)
    rw [append_reverse_cons]
    exact (h.handed ..).of_same rfl rfl hpoints
  | park p => exact h.of_same rfl rfl hpoints

theorem PnInv.configured (hc : Configured s s') (h : PnInv s os) : PnInv s' os where
  pointers := hc.pointers h.pointers
  unused k hk := h.unused k (hc.nextKey.trans hk)
  txPn k hk hf := by
    by_cases hlt : k < s.nextKey
    · rw [hc.txPn k hlt]
      exact h.txPn k hlt hf
    · have hnone := h.unused k (not_lt.mp hlt)
      rw [hc.fresh k (not_lt.mp hlt) hk, hnone]
      rfl
  taken := h.taken

end Invariant

section Run

variable {sha1 : List UInt8 → Vector UInt8 20} {C : Crypto} {hw s : Local} {os : List Logged}
  {P : Local → List Logged → Event → Prop}

theorem pnInv_of_reach (h : Reach (deviceStep sha1 C) P (bootLocal hw) s os) : PnInv s os := by
  refine reach_invariant PnInv ?_ (fun _ _ h => ⟨h.pointers, h.unused, h.txPn, h.taken⟩)
    (fun _ _ _ hw h => h.write hw) (fun _ _ _ _ hh h => h.hand hh)
    (fun _ _ _ hc h => h.configured hc) h
  refine ⟨?_, fun _ _ => rfl, fun k hk => absurd hk (Nat.not_lt_zero k), fun _ _ => rfl⟩
  rintro k (⟨j, idx, hk⟩ | ⟨i, hk | hk | hk⟩ | ⟨j, f, hf, hk⟩)
  · cases hk
  · cases hk
  · cases hk
  · cases hk
  · cases hf

/-- **No packet number is used twice with a key**, in every run in which no rotation sets the key's
counter back. -/
theorem pairwise_pns (h : Reach (deviceStep sha1 C) P (bootLocal hw) s os) {k : KeyId}
    (hback : NoResetBack k 0 0 os) : (pns k os).Pairwise (· < ·) := by
  have hforward : Forward (2 ^ 48) 0 (pnOps k os) := by
    have hf := forward_of_noResetBack hback
    rwa [Nat.zero_mul] at hf
  rw [(pnInv_of_reach h).taken k hforward]
  exact pairwise_draws hforward

end Run

/-! ### Two AP interfaces, and one -/

/-- Both interfaces send in a new period, and then the first one again. -/
def twoApEvents : List Event :=
  let send₀ : Event := .xmit {} 0 (some 0) (dataTo (toyMac 3) (toyMac 1) (toyMac 1)) false
  let send₁ : Event := .xmit {} 1 (some 1) (dataTo (toyMac 4) (toyMac 2) (toyMac 2)) false
  setupAp 0 (toyMac 1) ++ setupAp 1 (toyMac 2) ++ setupSta 0 0 (toyMac 3) 0 ++
    setupSta 1 1 (toyMac 4) 1 ++ [send₀, send₁, .tick 15, send₀, send₁, send₀]

/-- The rotation of a second AP interface sets back counters that the first has used in the same
period: its station gets the same packet number twice. -/
theorem second_interface_repeats_pn :
    ∃ s os, Reach (deviceStep toyHash toyCrypto) (fun _ _ _ => True) (bootLocal {}) s os ∧
      os.length < 2 ^ 24 ∧ ¬ (pns 0 os).Pairwise (· < ·) := by
  have hrun : (run (deviceStep toyHash toyCrypto) (bootLocal {}) twoApEvents).map
      (fun r => (r.2.length, pns 0 r.2)) = some (14, [1, 2 ^ 24 + 1, 2 ^ 24 + 1]) := by
    decide +kernel
  obtain ⟨⟨s, os⟩, hr, hos⟩ := Option.map_eq_some_iff.mp hrun
  obtain ⟨hlen, hpns⟩ := Prod.mk.inj hos
  have hfew : os.length < 2 ^ 24 := by
    rw [show os.length = 14 from hlen]
    decide
  refine ⟨s, os, Reach.of_run_init hr, hfew, ?_⟩
  rw [show pns 0 os = [1, 2 ^ 24 + 1, 2 ^ 24 + 1] from hpns]
  decide

/-- One interface sends in two periods. -/
def oneApEvents : List Event :=
  let send : Event := .xmit {} 0 (some 0) (dataTo (toyMac 3) (toyMac 1) (toyMac 1)) false
  setupAp 0 (toyMac 1) ++ setupSta 0 0 (toyMac 3) 0 ++ [send, .tick 15, send, send]

/-- With one AP interface, the numbers of two periods are in order. -/
theorem pairwise_pns_one_ap :
    ∃ s os, Reach (deviceStep toyHash toyCrypto) (fun _ _ _ => True) (bootLocal {}) s os ∧
      NoResetBack 0 0 0 os ∧ pns 0 os = [1, 2 ^ 24 + 1, 2 ^ 24 + 2] ∧
      (pns 0 os).Pairwise (· < ·) := by
  have hrun : (run (deviceStep toyHash toyCrypto) (bootLocal {}) oneApEvents).map
      (fun r => (decide (NoResetBack 0 0 0 r.2), pns 0 r.2)) =
      some (true, [1, 2 ^ 24 + 1, 2 ^ 24 + 2]) := by
    decide +kernel
  obtain ⟨⟨s, os⟩, hr, hos⟩ := Option.map_eq_some_iff.mp hrun
  obtain ⟨hback, hpns⟩ := Prod.mk.inj hos
  have hreach := Reach.of_run_init hr
  exact ⟨s, os, hreach, of_decide_eq_true hback, hpns,
    pairwise_pns hreach (of_decide_eq_true hback)⟩

end Mac80211
