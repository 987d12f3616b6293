import Mac80211.Lib.Reach
import Mac80211.Wpa.Decrypt

/-!
# Replay protection

One key, receiving frames in any order, good and forged ones, decrypted by the hardware or here, on
any queue. A frame with `RX_FLAG_PN_VALIDATED` is outside of this: its number is neither compared
nor stored, because the hardware has done so.

## Main results

* `replay_protection` — accepted packet numbers increase on each queue
-/

namespace Mac80211

open Machine List

/-- A frame and what became of it. -/
structure Verdict where
  rx : RxData
  result : Except Drop RxSkb

variable {v : Verdict}

namespace Verdict

/-- The cipher handled the frame on queue `q` and let it through, with its packet number checked
here or by the hardware. -/
def delivered (c : Cipher) (q : ℕ) (v : Verdict) : Bool :=
  v.rx.handledBy c && v.rx.pnQueue c = q && v.result.isOk

/-- The frame's packet number was checked against queue `q`, and the frame was let through. -/
def accepted (c : Cipher) (q : ℕ) (v : Verdict) : Bool :=
  v.rx.pnCheckedBy c && v.rx.pnQueue c = q && v.result.isOk

/-- The frame passed the packet number check of queue `q` and the MIC check. It was let through
unless `pskb_trim` failed after these. -/
def verified (c : Cipher) (q : ℕ) (v : Verdict) : Bool :=
  v.rx.pnCheckedBy c && v.rx.pnQueue c = q &&
    match v.result with
    | .ok _ => true
    | .error e => e = .trim

theorem verified_of_accepted {c : Cipher} {q : ℕ} (h : v.accepted c q = true) :
    v.verified c q = true := by
  rw [accepted, Bool.and_eq_true] at h
  rw [verified, h.1, Bool.true_and]
  cases hr : v.result with
  | ok => rfl
  | error e => rw [hr] at h; exact absurd h.2 Bool.false_ne_true

end Verdict

/-- One frame is received under the key. -/
def decryptStep (C : Crypto) (key : Key) (e : RxAlloc × RxData) : Option (Key × List Verdict) :=
  let out := cryptoDecrypt C e.1 key e.2
  some (out.2, [⟨e.2, out.1⟩])

/-- `b` came after `a`: its number is larger, or equal where `RX_FLAG_ALLOW_SAME_PN` permits. -/
def Newer (c : Cipher) (a b : Verdict) : Prop :=
  pnVal (a.rx.wirePn c) ≤ pnVal (b.rx.wirePn c) ∧
    (b.rx.samePnAllowed c = false → pnVal (a.rx.wirePn c) < pnVal (b.rx.wirePn c))

theorem isReplay_eq_false_iff {pn stored : Pn} {same : Bool} : isReplay pn stored same = false ↔
      pnVal stored ≤ pnVal pn ∧ (same = false → pnVal stored < pnVal pn) := by
  rw [isReplay, memcmp_pn]
  rcases Nat.lt_trichotomy (pnVal pn) (pnVal stored) with h | h | h
  · rw [Nat.compare_eq_lt.mpr h]
    simp only [Bool.true_eq_false, false_iff]
    omega
  · rw [Nat.compare_eq_eq.mpr h, h]
    cases same <;> simp
  · rw [Nat.compare_eq_gt.mpr h]
    simp only [true_iff]
    omega

section Run

variable {C : Crypto} {k₀ k : Key} {os : List Verdict}

/-- On every queue the verified frames are in order, none is above the stored number, and the last
one is the stored number. -/
structure ReplayInv (k₀ k : Key) (os : List Verdict) : Prop where
  cipher : k.cipher = k₀.cipher
  newer : ∀ q, (os.filter (Verdict.verified k₀.cipher q)).Pairwise (Newer k₀.cipher)
  /-- The stored number bounds them. -/
  bound : ∀ q, ∀ v ∈ os.filter (Verdict.verified k₀.cipher q),
    pnVal (v.rx.wirePn k₀.cipher) ≤ pnVal (k.rxPn q)
  /-- It is the number of the last one. -/
  last : ∀ q, k.rxPn q = ((os.filter (Verdict.verified k₀.cipher q)).getLast?.map
    fun v => v.rx.wirePn k₀.cipher).getD (k₀.rxPn q)

/-- A frame that is not verified changes nothing about the invariant. -/
theorem ReplayInv.append_of_not_verified {k' : Key} (h : ReplayInv k₀ k os)
    (hcipher : k'.cipher = k.cipher) (hpn : k'.rxPn = k.rxPn)
    (hv : ∀ q, v.verified k₀.cipher q = false) : ReplayInv k₀ k' (os ++ [v]) := by
  have hfilter : ∀ q, (os ++ [v]).filter (Verdict.verified k₀.cipher q) =
      os.filter (Verdict.verified k₀.cipher q) := by
    intro q
    simp [hv q]
  refine ⟨hcipher.trans h.cipher, fun q => ?_, fun q => ?_, fun q => ?_⟩
  · rw [hfilter]; exact h.newer q
  · rw [hfilter, hpn]; exact h.bound q
  · rw [hfilter, hpn]; exact h.last q

theorem ReplayInv.append_of_verified (h : ReplayInv k₀ k os)
    (hv : v.verified k₀.cipher (v.rx.pnQueue k₀.cipher) = true)
    (hnew : isReplay (v.rx.wirePn k₀.cipher) (k.rxPn (v.rx.pnQueue k₀.cipher))
      (v.rx.samePnAllowed k₀.cipher) = false) :
    ReplayInv k₀ (k.setRxPn (v.rx.pnQueue k₀.cipher) (v.rx.wirePn k₀.cipher)) (os ++ [v]) := by
  obtain ⟨hle, hlt⟩ := isReplay_eq_false_iff.mp hnew
  have hself : (os ++ [v]).filter (Verdict.verified k₀.cipher (v.rx.pnQueue k₀.cipher)) =
      os.filter (Verdict.verified k₀.cipher (v.rx.pnQueue k₀.cipher)) ++ [v] := by
    simp [hv]
  have hother : ∀ q, q ≠ v.rx.pnQueue k₀.cipher →
      (os ++ [v]).filter (Verdict.verified k₀.cipher q) =
        os.filter (Verdict.verified k₀.cipher q) := by
    intro q hq
    have hvq : v.verified k₀.cipher q = false := by
      simp [Verdict.verified, Ne.symm hq]
    simp [hvq]
  refine ⟨h.cipher, fun q => ?_, fun q => ?_, fun q => ?_⟩
  all_goals by_cases hq : q = v.rx.pnQueue k₀.cipher
  · subst hq
    rw [hself, pairwise_append]
    refine ⟨h.newer _, pairwise_singleton _ _, fun a ha b hb => ?_⟩
    obtain rfl := mem_singleton.mp hb
    have hbound := h.bound _ a ha
    exact ⟨hbound.trans hle, fun hs => hbound.trans_lt (hlt hs)⟩
  · rw [hother q hq]; exact h.newer q
  · subst hq
    rw [hself, Key.setRxPn_rxPn, if_pos rfl]
    intro a ha
    rcases mem_append.mp ha with ha | ha
    · exact (h.bound _ a ha).trans hle
    · rw [mem_singleton.mp ha]
  · rw [hother q hq, Key.setRxPn_rxPn, if_neg hq]; exact h.bound q
  · subst hq
    rw [hself, Key.setRxPn_rxPn, if_pos rfl, getLast?_append]
    simp
  · rw [hother q hq, Key.setRxPn_rxPn, if_neg hq]; exact h.last q

theorem ReplayInv.step {e : RxAlloc × RxData} {k' : Key} {o : List Verdict}
    (h : ReplayInv k₀ k os) (hs : decryptStep C k e = some (k', o)) :
    ReplayInv k₀ k' (os ++ o) := by
  obtain ⟨env, rx⟩ := e
  simp only [decryptStep, Option.some.injEq, Prod.mk.injEq] at hs
  obtain ⟨hk, rfl⟩ := hs
  have hspec := cryptoDecrypt_spec C env k rx
  generalize cryptoDecrypt C env k rx = out at hk hspec
  subst hk
  have hc := h.cipher
  cases hspec with
  | skipped hchecked hcipher hpn =>
    refine h.append_of_not_verified hcipher hpn fun q => ?_
    rw [Verdict.verified, ← hc, hchecked, Bool.false_and, Bool.false_and]
  | rejected hchecked he hcipher hpn =>
    refine h.append_of_not_verified hcipher hpn fun q => ?_
    simp [Verdict.verified, he]
  | stored hchecked hnew hr =>
    rw [hc] at hchecked hnew ⊢
    refine h.append_of_verified (v := ⟨rx, _⟩) ?_ hnew
    rcases hr with rfl | ⟨skb, rfl⟩ <;> simp [Verdict.verified, hchecked]

theorem ReplayInv.of_reach (h : Reach (decryptStep C) (fun _ _ _ => True) k₀ k os) :
    ReplayInv k₀ k os :=
  h.invariant (ReplayInv k₀) ⟨rfl, fun _ => .nil, by simp, by simp⟩
    fun _ _ _ _ _ hinv _ hs => hinv.step hs

/-- **Replay protection.** On every queue, the checked frames that were let through have increasing
numbers; the stored number is that of the last that passed the checks; a frame dropped by a check,
or validated by the hardware, leaves all counters as they are. -/
theorem replay_protection (h : Reach (decryptStep C) (fun _ _ _ => True) k₀ k os) (q : ℕ) :
    (os.filter (Verdict.accepted k₀.cipher q)).Pairwise (Newer k₀.cipher) ∧
    k.rxPn q = ((os.filter (Verdict.verified k₀.cipher q)).getLast?.map
      fun v => v.rx.wirePn k₀.cipher).getD (k₀.rxPn q) ∧
    ∀ env rx r k', cryptoDecrypt C env k rx = (r, k') →
      (∃ e, r = .error e ∧ e ≠ .trim) ∨ rx.pnCheckedBy k₀.cipher = false →
      ∀ q', k'.rxPn q' = k.rxPn q' := by
  have hinv := ReplayInv.of_reach h
  refine ⟨?_, hinv.last q, fun env rx r k' hd hrej q' => ?_⟩
  · refine (hinv.newer q).sublist ?_
    have himp : (fun v : Verdict => v.accepted k₀.cipher q) =
        fun v => v.accepted k₀.cipher q && v.verified k₀.cipher q := by
      funext v
      cases ha : v.accepted k₀.cipher q with
      | false => rfl
      | true => rw [Verdict.verified_of_accepted ha]; rfl
    change (os.filter fun v => v.accepted k₀.cipher q).Sublist _
    rw [himp, ← filter_filter]
    exact filter_sublist
  · have hspec := cryptoDecrypt_spec C env k rx
    rw [hd] at hspec
    cases hspec with
    | skipped _ _ hpn => rw [hpn]
    | rejected _ _ _ hpn => rw [hpn]
    | stored hchecked _ hr =>
      rw [hinv.cipher] at hchecked
      rcases hrej with ⟨e, rfl, he⟩ | hrej
      · rcases hr with hr | ⟨skb, hr⟩
        · exact absurd (Except.error.inj hr) he
        · cases hr
      · rw [hchecked] at hrej
        cases hrej

end Run

/-! ### Two histories of a CCMP key -/

/-- Primitives that refuse every frame. -/
def Crypto.rejectAll : Crypto :=
  ⟨fun _ _ _ data _ => data, fun _ _ _ data _ => data, fun _ _ _ _ _ => none,
    fun _ _ _ _ _ => none, fun _ _ _ => [], fun _ _ _ => [], fun _ _ _ _ => none⟩

/-- A CCMP key that has received nothing. -/
def freshCcmpKey : Key := { cipher := .ccmp, key := List.replicate 16 0 }

/-- A protected data frame that the hardware has decrypted, with packet number `n`. -/
def decryptedFrame (n : ℕ) (pnValidated : Bool) : RxData where
  skb :=
    { hdr := ⟨FTYPE_DATA ||| FCTL_PROTECTED, 0, localMac 1, localMac 2,
        localMac 3, 0, pn2hdr (pnOfNat n) 0 ++ [0xaa]⟩
      status := { decrypted := true, micStripped := true, pnValidated := pnValidated } }
  sta := some 0

/-- The key's state and the verdicts after these frames. -/
def decryptRun (frames : List RxData) : Option (Key × List Verdict) :=
  run (decryptStep .rejectAll) freshCcmpKey (frames.map fun rx => ({}, rx))

theorem reach_of_decryptRun {frames : List RxData} {k : Key} {os : List Verdict}
    (h : decryptRun frames = some (k, os)) :
    Reach (decryptStep .rejectAll) (fun _ _ _ => True) freshCcmpKey k os :=
  Reach.of_run_init h

/-- The general theorem on the packet numbers 1 and 2. -/
theorem replay_protection_one_two : ∃ k os,
    decryptRun [decryptedFrame 1 false, decryptedFrame 2 false] = some (k, os) ∧
    (os.filter (Verdict.accepted .ccmp 0)).length = 2 ∧
    (os.filter (Verdict.accepted .ccmp 0)).Pairwise (Newer .ccmp) := by
  have hrun : ∃ k os, decryptRun [decryptedFrame 1 false, decryptedFrame 2 false] = some (k, os) ∧
      (os.filter (Verdict.accepted .ccmp 0)).length = 2 := ⟨_, _, rfl, rfl⟩
  obtain ⟨k, os, hrun, hlen⟩ := hrun
  exact ⟨k, os, hrun, hlen, (replay_protection (reach_of_decryptRun hrun) 0).1⟩

/-- **`RX_FLAG_PN_VALIDATED` takes the check away.** A frame that carries the flag is delivered
twice with one packet number. -/
theorem pn_validated_repeats : ∃ k os,
    Reach (decryptStep .rejectAll) (fun _ _ _ => True) freshCcmpKey k os ∧
    ¬ (os.filter (Verdict.delivered .ccmp 0)).Pairwise (Newer .ccmp) := by
  have hrun : ∃ k os, decryptRun [decryptedFrame 1 true, decryptedFrame 1 true] = some (k, os) ∧
      os.filter (Verdict.delivered .ccmp 0) = os ∧ os.map Verdict.rx =
        [decryptedFrame 1 true, decryptedFrame 1 true] := ⟨_, _, rfl, rfl, rfl⟩
  obtain ⟨k, os, hrun, hfilter, hrx⟩ := hrun
  refine ⟨k, os, reach_of_decryptRun hrun, ?_⟩
  rw [hfilter]
  intro hp
  have hp' : (os.map Verdict.rx).Pairwise fun a b => b.samePnAllowed .ccmp = false →
      pnVal (a.wirePn .ccmp) < pnVal (b.wirePn .ccmp) :=
    pairwise_map.mpr (hp.imp fun hab => hab.2)
  rw [hrx, pairwise_cons] at hp'
  exact absurd (hp'.1 _ (mem_singleton.mpr rfl) rfl) (lt_irrefl _)

end Mac80211
