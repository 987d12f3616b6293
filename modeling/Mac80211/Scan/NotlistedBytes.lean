import Mac80211.Lib.Copies
import Mac80211.Scan.Nontransmitted

/-!
# The elements of a BSS that a frame does not tell of

`cfg80211_update_notlisted_nontrans` fills a buffer with three copies. The size of the buffer leaves
out the headers of two elements and what stands in front of the SSID; the lengths of the copies have
eight bits.

## Main results

* `notlistedIes_eq` — what an update puts into the table is what the copies leave
* `notlisted_never_right` — never just the right elements, and when the copies stay inside
-/

namespace Mac80211

open Bytes List

variable {ie ssid : List UInt8} {p q : ℕ}

/-! ### What is written -/

/-- The length byte of the element at an offset. -/
def lenAt (ie : List UInt8) (pos : ℕ) : ℕ := (ie.getD (pos + 1) 0).toNat

/-- `cpy_len`. -/
def cpyLen (n : ℕ) : ℕ := (n + 2) % 256

/-- `new_ie_len`. -/
def notlistedLen (ie ssid : List UInt8) (p q : ℕ) : ℕ := ie.length - lenAt ie p - lenAt ie q + ssid.length

/-- The copies into `new_ie`, with the SSID at `p` and the Multiple BSSID element at `q`. -/
def notlistedCopies (ie ssid : List UInt8) (p q : ℕ) : List Copy :=
  let between := p + cpyLen (lenAt ie p)
  -- copy the nontransmitted SSID
  [(0, (WLAN_EID_SSID :: ssid.length.toUInt8 :: ssid).take (cpyLen ssid.length)),
    -- copy the IEs between SSID and MBSSID
    (cpyLen ssid.length, (ie.drop between).take (q - between)),
    -- copy the IEs after MBSSID
    (cpyLen ssid.length + (q - between), ie.drop (q + cpyLen (lenAt ie q)))]

/-- What the entry gets: as much as there was room for. -/
def notlistedData (ie ssid : List UInt8) (p q : ℕ) : List UInt8 :=
  (applyCopies (List.replicate (notlistedLen ie ssid p q) 0) (notlistedCopies ie ssid p q)).take
    (notlistedLen ie ssid p q)

/-- The stored SSID element, and the elements of the frame that it should be followed by. -/
def notlistedElements (ie ssid : List UInt8) (p q : ℕ) : List UInt8 :=
  (WLAN_EID_SSID :: ssid.length.toUInt8 :: ssid) ++
    (ie.drop (p + 2 + lenAt ie p)).take (q - (p + 2 + lenAt ie p)) ++ ie.drop (q + 2 + lenAt ie q)

/-- **What the function should do.** -/
structure NotlistedRight (ie ssid : List UInt8) (p q : ℕ) : Prop where
  inside : Inside (notlistedLen ie ssid p q) (notlistedCopies ie ssid p q)
  data : notlistedData ie ssid p q = notlistedElements ie ssid p q

instance (ie ssid : List UInt8) (p q : ℕ) : Decidable (NotlistedRight ie ssid p q) :=
  decidable_of_iff (_ ∧ _) ⟨fun h => ⟨h.1, h.2⟩, fun h => ⟨h.inside, h.data⟩⟩

/-- 1 for a length that does not fit in `cpy_len`. -/
def wraps (n : ℕ) : ℕ := if 254 ≤ n then 1 else 0

/-! ### Where the elements are -/

theorem getD_next (id len : UInt8) (rest : List UInt8) (q : ℕ) :
    (id :: len :: rest).getD (2 + len.toNat + q + 1) 0 = (rest.drop len.toNat).getD (q + 1) 0 := by
  rw [show 2 + len.toNat + q + 1 = (len.toNat + (q + 1)) + 1 + 1 by omega, getD_cons_succ,
    getD_cons_succ]
  simp [getD_eq_getElem?_getD]

theorem findIePosAux_inside {eid : UInt8} : ∀ {n pos p : ℕ} {l : List UInt8},
    findIePosAux eid n pos l = some p → ∃ q, p = pos + q ∧ q + 2 + (l.getD (q + 1) 0).toNat ≤ l.length
  | 0, pos, p, l, h => by cases h
  | n + 1, pos, p, [], h => by cases h
  | n + 1, pos, p, [_], h => by cases h
  | n + 1, pos, p, id :: len :: rest, h => by
    rw [findIePosAux] at h
    split at h
    · cases h
    rename_i hlen
    rw [not_lt] at hlen
    split at h
    · cases h
      refine ⟨0, rfl, ?_⟩
      simp only [getD_cons_succ, getD_cons_zero, length_cons]
      omega
    · obtain ⟨q, rfl, hq⟩ := findIePosAux_inside h
      refine ⟨2 + len.toNat + q, by omega, ?_⟩
      rw [getD_next]
      rw [length_drop] at hq
      simp only [length_cons]
      omega

theorem findIePosAux_disjoint {eid eid' : UInt8} (hne : eid ≠ eid') : ∀ {n pos q q' : ℕ} {l : List UInt8},
    findIePosAux eid n pos l = some (pos + q) → findIePosAux eid' n pos l = some (pos + q') → q ≤ q' →
      q + 2 + (l.getD (q + 1) 0).toNat ≤ q'
  | 0, pos, q, q', l, h, _, _ => by cases h
  | n + 1, pos, q, q', [], h, _, _ => by cases h
  | n + 1, pos, q, q', [_], h, _, _ => by cases h
  | n + 1, pos, q, q', id :: len :: rest, h, h', hle => by
    rw [findIePosAux] at h h'
    split at h
    · cases h
    rename_i hlen
    rw [if_neg hlen] at h'
    split at h
    · rename_i hid
      have hq : q = 0 := by
        have heq := Option.some.inj h
        omega
      rw [if_neg fun hid' => hne (hid.symm.trans hid')] at h'
      obtain ⟨r, hr, -⟩ := findIePosAux_inside h'
      subst hq
      simp only [getD_cons_succ, getD_cons_zero]
      omega
    · obtain ⟨r, hr, -⟩ := findIePosAux_inside h
      split at h'
      · have heq := Option.some.inj h'
        omega
      · obtain ⟨r', hr', -⟩ := findIePosAux_inside h'
        obtain rfl : q = 2 + len.toNat + r := by omega
        obtain rfl : q' = 2 + len.toNat + r' := by omega
        rw [hr] at h
        rw [hr'] at h'
        have hrest := findIePosAux_disjoint hne h h' (by omega)
        rw [getD_next]
        omega

theorem elements_found (hp : findIePos WLAN_EID_SSID ie = some p)
    (hq : findIePos WLAN_EID_MULTIPLE_BSSID ie = some q) (hle : p ≤ q) :
    p + 2 + lenAt ie p ≤ q ∧ q + 2 + lenAt ie q ≤ ie.length := by
  have hids : WLAN_EID_SSID ≠ WLAN_EID_MULTIPLE_BSSID := by decide
  have hp' : findIePosAux WLAN_EID_SSID ie.length 0 ie = some (0 + p) := by rw [zero_add]; exact hp
  have hq' : findIePosAux WLAN_EID_MULTIPLE_BSSID ie.length 0 ie = some (0 + q) := by rw [zero_add]; exact hq
  obtain ⟨r, hr, hin⟩ := findIePosAux_inside hq'
  obtain rfl : r = q := by omega
  exact ⟨findIePosAux_disjoint hids hp' hq' hle, hin⟩

theorem lenAt_lt (ie : List UInt8) (pos : ℕ) : lenAt ie pos < 256 := UInt8.toNat_lt _

theorem cpyLen_add_wraps {n : ℕ} (hn : n < 256) : cpyLen n + 256 * wraps n = n + 2 := by
  rw [cpyLen, wraps]
  split <;> omega

/-! ### What is written, and what should be -/

/-- **When the copies stay inside the buffer.** -/
theorem inside_notlistedCopies_iff (hp : p + 2 + lenAt ie p ≤ q) (hq : q + 2 + lenAt ie q ≤ ie.length)
    (hssid : ssid.length < 256) : Inside (notlistedLen ie ssid p q) (notlistedCopies ie ssid p q) ↔
      256 * (wraps (lenAt ie p) + wraps (lenAt ie q)) ≤ 256 * wraps ssid.length + p + 2 := by
  have hs := cpyLen_add_wraps hssid
  have hlp := cpyLen_add_wraps (lenAt_lt ie p)
  have hlq := cpyLen_add_wraps (lenAt_lt ie q)
  have hinside : Inside (notlistedLen ie ssid p q) (notlistedCopies ie ssid p q) ↔
      cpyLen ssid.length + (q - (p + cpyLen (lenAt ie p))) + (ie.length - (q + cpyLen (lenAt ie q))) ≤
        notlistedLen ie ssid p q := by
    rw [Inside, notlistedCopies]
    simp only [forall_mem_cons, length_take, length_drop, not_mem_nil,
      false_imp_iff, implies_true, and_true]
    omega
  rw [hinside, notlistedLen]
  omega

theorem length_notlistedData (ie ssid : List UInt8) (p q : ℕ) :
    (notlistedData ie ssid p q).length = notlistedLen ie ssid p q := by
  rw [notlistedData, length_take]
  exact Nat.min_eq_left (le_length_applyCopies length_replicate.ge _)

/-- The buffer has room for two headers and for what stands in front of the SSID. -/
theorem length_notlistedElements (hp : p + 2 + lenAt ie p ≤ q) (hq : q + 2 + lenAt ie q ≤ ie.length) :
    (notlistedElements ie ssid p q).length + (p + 2) = notlistedLen ie ssid p q := by
  simp only [notlistedElements, notlistedLen, length_append, length_cons, length_take,
    length_drop]
  omega

theorem applyCopies_consecutive (buf a b c : List UInt8) :
    applyCopies buf [(0, a), (a.length, b), (a.length + b.length, c)] =
      a ++ b ++ c ++ buf.drop (a.length + b.length + c.length) := by
  have hfirst : memcpyAt buf 0 a = a ++ buf.drop a.length := by simp [memcpyAt]
  have hsecond : memcpyAt (a ++ buf.drop a.length) a.length b =
      a ++ b ++ buf.drop (a.length + b.length) := by
    simp [memcpyAt, drop_append, drop_drop]
  have hthird : memcpyAt (a ++ b ++ buf.drop (a.length + b.length)) (a.length + b.length) c =
      a ++ b ++ c ++ buf.drop (a.length + b.length + c.length) := by
    have hlen : (a ++ b).length = a.length + b.length := length_append
    rw [memcpyAt, ← hlen, take_left', ← drop_drop, drop_left']
    · rw [drop_drop]
    · rfl
    · rfl
  rw [applyCopies, foldl_cons, foldl_cons, foldl_cons, foldl_nil, hfirst, hsecond, hthird]

theorem take_append_drop_replicate (l : List UInt8) (n : ℕ) :
    (l ++ (List.replicate n 0).drop l.length).take n = (l ++ List.replicate n 0).take n := by
  rw [take_append, take_append, drop_replicate, take_replicate, take_replicate]
  congr 2
  omega

/-- **What an update puts into the table** is what the copies leave. -/
theorem notlistedIes_eq (hp : findIePos WLAN_EID_SSID ie = some p)
    (hq : findIePos WLAN_EID_MULTIPLE_BSSID ie = some q) (hle : p ≤ q) :
    notlistedIes ie ssid = some (notlistedData ie ssid p q) := by
  obtain ⟨hpq, hqe⟩ := elements_found hp hq hle
  have hfirst : ((WLAN_EID_SSID :: ssid.length.toUInt8 :: ssid).take (cpyLen ssid.length)).length =
      cpyLen ssid.length := by
    rw [length_take, length_cons, length_cons, cpyLen]
    exact Nat.min_eq_left (Nat.mod_le _ _)
  have hsecond : ((ie.drop (p + cpyLen (lenAt ie p))).take (q - (p + cpyLen (lenAt ie p)))).length =
      q - (p + cpyLen (lenAt ie p)) := by
    rw [length_take, length_drop]
    omega
  have hcopies := applyCopies_consecutive (List.replicate (notlistedLen ie ssid p q) 0)
    ((WLAN_EID_SSID :: ssid.length.toUInt8 :: ssid).take (cpyLen ssid.length))
    ((ie.drop (p + cpyLen (lenAt ie p))).take (q - (p + cpyLen (lenAt ie p))))
    (ie.drop (q + cpyLen (lenAt ie q)))
  have hlen : ((WLAN_EID_SSID :: ssid.length.toUInt8 :: ssid).take (cpyLen ssid.length) ++
      (ie.drop (p + cpyLen (lenAt ie p))).take (q - (p + cpyLen (lenAt ie p))) ++
      ie.drop (q + cpyLen (lenAt ie q))).length =
        cpyLen ssid.length + (q - (p + cpyLen (lenAt ie p))) + (ie.drop (q + cpyLen (lenAt ie q))).length := by
    rw [length_append, length_append, hfirst, hsecond]
  rw [hfirst, hsecond, ← hlen] at hcopies
  rw [notlistedData, notlistedCopies, hcopies, take_append_drop_replicate, notlistedIes, hp, hq]
  dsimp only
  rw [if_neg (not_lt.2 hle)]
  rfl

/-- **The entry never gets just these elements**: there is room left. The copies stay inside if and
only if lengths that wrap around do not add up to more. -/
theorem notlisted_never_right (hp : findIePos WLAN_EID_SSID ie = some p)
    (hq : findIePos WLAN_EID_MULTIPLE_BSSID ie = some q) (hle : p ≤ q) (hssid : ssid.length < 256) :
    ¬ NotlistedRight ie ssid p q ∧
      (Inside (notlistedLen ie ssid p q) (notlistedCopies ie ssid p q) ↔
        256 * (wraps (lenAt ie p) + wraps (lenAt ie q)) ≤ 256 * wraps ssid.length + p + 2) := by
  obtain ⟨hpq, hqe⟩ := elements_found hp hq hle
  refine ⟨fun hright => ?_, inside_notlistedCopies_iff hpq hqe hssid⟩
  have hlen : (notlistedElements ie ssid p q).length + (p + 2) = notlistedLen ie ssid p q :=
    length_notlistedElements hpq hqe
  rw [← hright.data, length_notlistedData] at hlen
  omega

/-- An ordinary frame. -/
theorem notlisted_never_right_ordinary : ¬ NotlistedRight [0, 1, 65, 71, 1, 1] [66] 0 3 ∧
    (Inside (notlistedLen [0, 1, 65, 71, 1, 1] [66] 0 3) (notlistedCopies [0, 1, 65, 71, 1, 1] [66] 0 3) ↔
      256 * (wraps (lenAt [0, 1, 65, 71, 1, 1] 0) + wraps (lenAt [0, 1, 65, 71, 1, 1] 3)) ≤
        256 * wraps [66].length + 0 + 2) :=
  notlisted_never_right (by decide) (by decide) (by decide) (by decide)

/-- A frame whose SSID element is as long as can be. -/
def longSsidFrame : List UInt8 := [0, 255] ++ List.replicate 255 65 ++ [71, 1, 1]

/-- **Bytes that are left over, and copies that run over the end.** -/
theorem notlisted_wrong : (findIePos WLAN_EID_SSID [0, 1, 65, 71, 1, 1] = some 0 ∧
      findIePos WLAN_EID_MULTIPLE_BSSID [0, 1, 65, 71, 1, 1] = some 3 ∧
      notlistedData [0, 1, 65, 71, 1, 1] [66] 0 3 = [0, 1, 66, 0, 0] ∧
      notlistedElements [0, 1, 65, 71, 1, 1] [66] 0 3 = [0, 1, 66] ∧
      ¬ NotlistedRight [0, 1, 65, 71, 1, 1] [66] 0 3) ∧
    findIePos WLAN_EID_SSID longSsidFrame = some 0 ∧
      findIePos WLAN_EID_MULTIPLE_BSSID longSsidFrame = some 257 ∧
      ¬ Inside (notlistedLen longSsidFrame [66] 0 257) (notlistedCopies longSsidFrame [66] 0 257) := by
  decide +kernel

end Mac80211
