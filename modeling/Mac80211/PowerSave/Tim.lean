import Mac80211.Lib.Memory
import Mac80211.PowerSave.Buffers
import Mathlib.Data.Nat.Bitwise

/-!
# The traffic indication map

`__ieee80211_beacon_add_tim` of `tx.c` and `ieee80211_check_tim` of `linux/ieee80211.h`: only the
part of the bitmap between the first and the last octet with a bit in it is sent, from an even octet
on. The longs of the bitmap are little endian here: the first 2008 bits are the first 251 octets.

## Main results

* `checkTim_beaconAddTim` — a station finds its own bit
-/

namespace Mac80211

/-- `IEEE80211_MAX_AID`. -/
def IEEE80211_MAX_AID : ℕ := 2007

/-- `IEEE80211_MAX_TIM_LEN`. -/
def IEEE80211_MAX_TIM_LEN : ℕ := 251

/-- `WLAN_EID_TIM`. -/
def WLAN_EID_TIM : UInt8 := 5

/-- The bitmap, in whole longs. -/
abbrev Tim := Vector UInt8 256

/-- `struct ps_data`. -/
structure PsData where
  tim : Tim := .replicate 256 0
  bcBuf : List PsSkb := []
  numStaPs : ℤ := 0
  dtimCount : ℤ := 0
  dtimBcMc : Bool := false

/-! ### The map that is kept -/

/-- An octet of the map. -/
def Tim.octet (tim : Tim) (i : ℕ) : UInt8 := tim[i]?.getD 0

/-- `__bss_tim_set`. -/
def bssTimSet (tim : Tim) (id : UInt16) : Tim :=
  tim.setIfInBounds (id.toNat / 8) (tim.octet (id.toNat / 8) ||| 1 <<< (id.toNat % 8).toUInt8)

/-! ### The map that is sent -/

/-- The first octet with a bit in it, made even. -/
def timN1 (tim : Tim) : ℕ :=
  match (List.range IEEE80211_MAX_TIM_LEN).find? fun i => tim.octet i != 0 with
  | some i => i &&& 0xfe
  | none => 0

/-- The last octet with a bit in it, from octet `n1` on. -/
def timN2 (tim : Tim) (n1 : ℕ) : ℕ :=
  match (List.range' n1 (IEEE80211_MAX_TIM_LEN - n1)).reverse.find? fun i => tim.octet i != 0 with
  | some i => i
  | none => n1

/-- `skb_put`, of zeros. -/
def skbPut (skb : List UInt8) (len : ℕ) : List UInt8 := skb ++ List.replicate len 0

/-- `__ieee80211_beacon_add_tim`. -/
def beaconAddTim (dtimPeriod : UInt8) (ps : PsData) (skb : List UInt8) (isTemplate : Bool) :
    PsData × List UInt8 :=
  let haveBits := decide (0 < ps.numStaPs) &&
    (List.range IEEE80211_MAX_TIM_LEN).any fun i => ps.tim.octet i != 0
  let dtimCount :=
    if isTemplate then ps.dtimCount
    else if ps.dtimCount = 0 then dtimPeriod.toNat - 1
    else ps.dtimCount - 1
  let tim := skb.length
  let skb := skbPut skb 6
  let skb := Bytes.memcpyAt skb tim [WLAN_EID_TIM, 4, (BitVec.ofInt 8 dtimCount).toNat.toUInt8, dtimPeriod]
  let aid0 := if dtimCount = 0 && !ps.bcBuf.isEmpty then 1 else 0
  let ps := { ps with dtimCount := dtimCount, dtimBcMc := aid0 = 1 }
  if haveBits then
    let n1 := timN1 ps.tim
    let n2 := timN2 ps.tim n1
    let skb := Bytes.memcpyAt skb (tim + 4) [(n1 ||| aid0).toUInt8]
    let skb := skbPut skb (n2 - n1)
    let skb := Bytes.memcpyAt skb (tim + 5) (ps.tim.toList.extract n1 (n2 + 1))
    (ps, Bytes.memcpyAt skb (tim + 1) [(n2 - n1 + 4).toUInt8])
  else
    (ps, Bytes.memcpyAt skb (tim + 4) [aid0.toUInt8, 0])

/-! ### What a station reads -/

/-- `ieee80211_check_tim`; `tim` points to the data of the element. -/
def checkTim (tim : Option Memory) (timLen : UInt8) (aid : UInt16) : Option Bool :=
  match tim with
  | none => some false
  | some tim =>
    if timLen < 4 then some false
    else do
      let aid := aid &&& 0x3fff
      let index := (aid / 8).toUInt8
      let mask : UInt8 := 1 <<< (aid &&& 7).toUInt8
      let indexn1 := (← tim 2) &&& 0xfe
      let indexn2 := timLen + indexn1 - 4
      if index < indexn1 || indexn2 < index then return false
      else return (← tim (3 + (index - indexn1).toNat)) &&& mask != 0

/-! ### Bits -/

variable {i : ℕ}

section Bits

variable {tim : Tim} {n : ℕ}

/-- Bit `n` of the map. -/
def Tim.bit (tim : Tim) (n : ℕ) : Bool := (tim.octet (n / 8)).toNat.testBit (n % 8)

theorem toNat_one_shiftLeft {k : ℕ} (hk : k < 8) : ((1 : UInt8) <<< k.toUInt8).toNat = 2 ^ k := by
  revert k
  decide

theorem and_shiftLeft_ne_zero (b : UInt8) {k : ℕ} (hk : k < 8) :
    (b &&& 1 <<< k.toUInt8 != 0) = b.toNat.testBit k := by
  rw [Bool.eq_iff_iff, bne_iff_ne, ne_eq, ← UInt8.toNat_inj, UInt8.toNat_and, toNat_one_shiftLeft hk,
    Nat.and_two_pow]
  cases b.toNat.testBit k
  · simp
  · simp

theorem testBit_or_shiftLeft (b : UInt8) {k : ℕ} (hk : k < 8) (j : ℕ) :
    (b ||| 1 <<< k.toUInt8).toNat.testBit j = (b.toNat.testBit j || decide (k = j)) := by
  rw [UInt8.toNat_or, toNat_one_shiftLeft hk, Nat.testBit_or, Nat.testBit_two_pow]

theorem Tim.octet_setIfInBounds (hi : i < 256) (b : UInt8) (j : ℕ) :
    Tim.octet (tim.setIfInBounds i b) j = if i = j then b else tim.octet j := by
  rw [Tim.octet, Tim.octet, Vector.getElem?_setIfInBounds, if_pos hi]
  split
  · rfl
  · rfl

theorem div_eq_and_mod_eq_iff {a b : ℕ} : a / 8 = b / 8 ∧ a % 8 = b % 8 ↔ a = b := by
  omega

theorem Tim.bit_bssTimSet {id : UInt16} (hid : id.toNat < 2048) :
    (bssTimSet tim id).bit n = (tim.bit n || decide (id.toNat = n)) := by
  rw [Tim.bit, bssTimSet, Tim.octet_setIfInBounds (by omega), Tim.bit]
  have hiff := @div_eq_and_mod_eq_iff id.toNat n
  split
  · rename_i hdiv
    rw [testBit_or_shiftLeft _ (Nat.mod_lt _ (by decide)), hdiv]
    congr 2
    exact propext ⟨fun h => hiff.mp ⟨hdiv, h⟩, fun h => (hiff.mpr h).2⟩
  · rename_i hdiv
    rw [decide_eq_false fun h => hdiv (hiff.mpr h).1, Bool.or_false]

end Bits

/-! ### The set that is recorded -/

/-- The map has the bits of a set of association IDs, and no others. -/
def Records (tim : Tim) (aids : Set ℕ) : Prop := ∀ n, tim.bit n ↔ n ∈ aids

section Records

variable {tim : Tim} {aids : Set ℕ}

theorem records_empty : Records (.replicate 256 0) ∅ := by
  intro n
  have hoctet : Tim.octet (.replicate 256 0) (n / 8) = 0 := by
    rw [Tim.octet, Vector.getElem?_replicate]
    split
    · rfl
    · rfl
  rw [Tim.bit, hoctet]
  simp

theorem Records.bssTimSet (h : Records tim aids) {id : UInt16} (hid : id.toNat < 2048) :
    Records (bssTimSet tim id) (insert id.toNat aids) := by
  intro n
  rw [Tim.bit_bssTimSet hid, Bool.or_eq_true, decide_eq_true_iff, h n, Set.mem_insert_iff, or_comm, eq_comm]

theorem Tim.octet_ne_zero_iff : tim.octet i ≠ 0 ↔ ∃ k < 8, (tim.octet i).toNat.testBit k := by
  constructor
  · intro hne
    by_contra hnone
    refine hne (UInt8.toNat_inj.mp (Nat.eq_of_testBit_eq fun k => ?_))
    rcases Nat.lt_or_ge k 8 with hk | hk
    · simpa using fun h => hnone ⟨k, hk, h⟩
    · rw [Nat.testBit_lt_two_pow (lt_of_lt_of_le (tim.octet i).toNat_lt (Nat.pow_le_pow_right (by decide) hk))]
      simp
  · rintro ⟨k, -, hbit⟩ hzero
    simp [hzero] at hbit

theorem Records.octet_ne_zero_iff (h : Records tim aids) :
    tim.octet i ≠ 0 ↔ ∃ a ∈ aids, a / 8 = i := by
  rw [Tim.octet_ne_zero_iff]
  constructor
  · rintro ⟨k, hk, hbit⟩
    refine ⟨8 * i + k, (h _).mp ?_, by omega⟩
    rw [Tim.bit, show (8 * i + k) / 8 = i by omega, show (8 * i + k) % 8 = k by omega]
    exact hbit
  · rintro ⟨a, ha, rfl⟩
    exact ⟨a % 8, Nat.mod_lt _ (by decide), (h a).mpr ha⟩

end Records

/-! ### The part that is sent -/

section Part

variable {tim : Tim} {n1 n2 : ℕ}

theorem and_fe (hi : i < IEEE80211_MAX_TIM_LEN) : i &&& 0xfe = i - i % 2 := by
  have hall : ∀ i < 251, i &&& 0xfe = i - i % 2 := by decide +kernel
  exact hall i hi

/-- The first octet that is sent is even, and there is nothing in front of it. -/
theorem timN1_spec (tim : Tim) : Even (timN1 tim) ∧ timN1 tim < IEEE80211_MAX_TIM_LEN ∧
    ∀ j < timN1 tim, tim.octet j = 0 := by
  rw [timN1]
  split
  · rename_i i hfind
    obtain ⟨-, hi, hfirst⟩ := List.find?_range_eq_some.mp hfind
    have hlt : i < IEEE80211_MAX_TIM_LEN := List.mem_range.mp hi
    rw [and_fe hlt]
    refine ⟨?_, by omega, ?_⟩
    · rw [Nat.even_iff]
      omega
    · intro j hj
      simpa using hfirst j (by omega)
  · exact ⟨Even.zero, by decide, fun j hj => absurd hj (Nat.not_lt_zero j)⟩

theorem find?_reverse_range' {p : ℕ → Bool} {m i : ℕ}
    (h : (List.range' n1 m).reverse.find? p = some i) :
    n1 ≤ i ∧ i < n1 + m ∧ ∀ j, i < j → j < n1 + m → p j = false := by
  induction m with
  | zero => simp at h
  | succ m ih =>
    rw [List.range'_concat, List.reverse_append, List.reverse_singleton, List.singleton_append,
      List.find?_cons, one_mul] at h
    split at h
    · cases h
      exact ⟨by omega, by omega, fun j hij hj => by omega⟩
    · rename_i hlast
      obtain ⟨hle, hlt, hrest⟩ := ih h
      refine ⟨hle, by omega, fun j hij hj => ?_⟩
      rcases Nat.lt_or_ge j (n1 + m) with hjm | hjm
      · exact hrest j hij hjm
      · obtain rfl : j = n1 + m := by omega
        exact hlast

theorem timN2_spec (tim : Tim) (hn1 : n1 < IEEE80211_MAX_TIM_LEN) :
    n1 ≤ timN2 tim n1 ∧ timN2 tim n1 < IEEE80211_MAX_TIM_LEN ∧
      ∀ j, timN2 tim n1 < j → j < IEEE80211_MAX_TIM_LEN → tim.octet j = 0 := by
  rw [timN2]
  split
  · rename_i i hfind
    obtain ⟨hle, hlt, hrest⟩ := find?_reverse_range' hfind
    refine ⟨hle, by omega, fun j hij hj => ?_⟩
    simpa using hrest j hij (by omega)
  · rename_i hfind
    refine ⟨le_rfl, hn1, fun j hij hj => ?_⟩
    have hnone := List.find?_eq_none.mp hfind j
      (List.mem_reverse.mpr (List.mem_range'_1.mpr ⟨by omega, by omega⟩))
    simpa using hnone

/-- A part of the map, from octet `n1` on, outside which there is nothing. -/
structure PartOf (tim : Tim) (n1 : ℕ) (map : List UInt8) : Prop where
  even : Even n1
  ne_nil : map ≠ []
  le : n1 + map.length ≤ IEEE80211_MAX_TIM_LEN
  octet_of_lt : ∀ i < n1, tim.octet i = 0
  octet_eq : ∀ i, n1 ≤ i → tim.octet i = map.getD (i - n1) 0

theorem Records.octet_of_le {aids : Set ℕ} (h : Records tim aids) (haids : ∀ a ∈ aids, a ≤ IEEE80211_MAX_AID)
    (hi : IEEE80211_MAX_TIM_LEN ≤ i) : tim.octet i = 0 := by
  by_contra hne
  obtain ⟨a, ha, rfl⟩ := h.octet_ne_zero_iff.mp hne
  have hle : a ≤ 2007 := haids a ha
  have hge : 251 ≤ a / 8 := hi
  omega

theorem length_extract (tim : Tim) : (tim.toList.extract (timN1 tim) (timN2 tim (timN1 tim) + 1)).length =
    timN2 tim (timN1 tim) - timN1 tim + 1 := by
  obtain ⟨-, hlt, -⟩ := timN1_spec tim
  obtain ⟨hle, hlt', -⟩ := timN2_spec tim hlt
  have hmax : IEEE80211_MAX_TIM_LEN = 251 := rfl
  rw [List.extract_eq_take_drop, List.length_take, List.length_drop, Vector.length_toList]
  omega

theorem partOf_extract (hend : ∀ i, IEEE80211_MAX_TIM_LEN ≤ i → tim.octet i = 0) :
    PartOf tim (timN1 tim) (tim.toList.extract (timN1 tim) (timN2 tim (timN1 tim) + 1)) := by
  obtain ⟨heven, hlt, hfirst⟩ := timN1_spec tim
  obtain ⟨hle, hlt', hlast⟩ := timN2_spec tim hlt
  have hmax : IEEE80211_MAX_TIM_LEN = 251 := rfl
  have hlen := length_extract tim
  refine ⟨heven, ?_, by omega, hfirst, fun i hi => ?_⟩
  · intro hnil
    rw [hnil, List.length_nil] at hlen
    omega
  · rw [List.extract_eq_take_drop, List.getD_eq_getElem?_getD, List.getElem?_take, List.getElem?_drop,
      show timN1 tim + (i - timN1 tim) = i by omega]
    split
    · rw [Tim.octet, Vector.getElem?_toList]
    · rename_i hge
      rcases Nat.lt_or_ge i IEEE80211_MAX_TIM_LEN with hi' | hi'
      · exact hlast i (by omega) hi'
      · exact hend i hi'

theorem partOf_zero (hzero : ∀ i, tim.octet i = 0) : PartOf tim 0 [0] := by
  refine ⟨Even.zero, List.cons_ne_nil _ _, by decide, fun i hi => absurd hi (Nat.not_lt_zero i), ?_⟩
  intro i _
  rw [hzero i]
  cases i with
  | zero => rfl
  | succ i => rfl

end Part

/-! ### The element -/

section Element

variable {ps : PsData} {dtimPeriod : UInt8} {n1 : ℕ} {map : List UInt8}

/-- The data of the element. -/
def timData (dtimCount dtimPeriod ctrl : UInt8) (map : List UInt8) : List UInt8 :=
  dtimCount :: dtimPeriod :: ctrl :: map

theorem skbPut_append (skb buf : List UInt8) (len : ℕ) :
    skbPut (skb ++ buf) len = skb ++ skbPut buf len := by
  rw [skbPut, skbPut, List.append_assoc]

theorem written_map {bytes : List UInt8} {len : ℕ} (hlen : bytes.length = len + 1) (a b c d x y : UInt8) :
    Bytes.memcpyAt (Bytes.memcpyAt (skbPut (Bytes.memcpyAt (Bytes.memcpyAt (skbPut [] 6) 0 [a, b, c, d]) 4 [x])
      len) 5 bytes) 1 [y] = a :: y :: c :: d :: x :: bytes := by
  simp [Bytes.memcpyAt, skbPut, hlen, List.replicate]
  omega

theorem beaconAddTim_eq (hend : ∀ i, IEEE80211_MAX_TIM_LEN ≤ i → ps.tim.octet i = 0)
    (hps : 0 < ps.numStaPs) (skb : List UInt8) (isTemplate : Bool) :
    ∃ dtimCount aid0 n1 map, aid0 < 2 ∧ PartOf ps.tim n1 map ∧
      (beaconAddTim dtimPeriod ps skb isTemplate).2 =
        skb ++ (WLAN_EID_TIM :: (map.length + 3).toUInt8 ::
          timData dtimCount dtimPeriod (n1 ||| aid0).toUInt8 map) := by
  have hput : skbPut skb 6 = skb ++ skbPut [] 6 := by
    rw [← skbPut_append, List.append_nil]
  have hwrite : ∀ buf src, Bytes.memcpyAt (skb ++ buf) skb.length src = skb ++ Bytes.memcpyAt buf 0 src :=
    fun buf src => Bytes.memcpyAt_append_right skb buf 0 src
  rw [beaconAddTim, hput]
  simp only [hwrite, Bytes.memcpyAt_append_right, skbPut_append]
  generalize hcount : (if isTemplate = true then ps.dtimCount
    else if ps.dtimCount = 0 then (dtimPeriod.toNat : ℤ) - 1 else ps.dtimCount - 1) = dtimCount
  generalize haid0 : (if (decide (dtimCount = 0) && !ps.bcBuf.isEmpty) = true then 1 else 0) = aid0
  have haid0lt : aid0 < 2 := by
    rw [← haid0]
    split
    · decide
    · decide
  by_cases hbits : ∃ i < IEEE80211_MAX_TIM_LEN, ps.tim.octet i ≠ 0
  · obtain ⟨i, hi, hne⟩ := hbits
    have hany : ((List.range IEEE80211_MAX_TIM_LEN).any fun i => ps.tim.octet i != 0) = true :=
      List.any_eq_true.mpr ⟨i, List.mem_range.mpr hi, by simpa using hne⟩
    refine ⟨(BitVec.ofInt 8 dtimCount).toNat.toUInt8, aid0, _, _, haid0lt, partOf_extract hend, ?_⟩
    rw [if_pos (by rw [hany, decide_eq_true hps]; rfl), written_map (length_extract ps.tim), length_extract]
    rfl
  · have hzero : ∀ i, ps.tim.octet i = 0 := by
      intro i
      rcases Nat.lt_or_ge i IEEE80211_MAX_TIM_LEN with hi | hi
      · by_contra hne
        exact hbits ⟨i, hi, hne⟩
      · exact hend i hi
    have hany : ((List.range IEEE80211_MAX_TIM_LEN).any fun i => ps.tim.octet i != 0) = false := by
      simp [hzero]
    refine ⟨(BitVec.ofInt 8 dtimCount).toNat.toUInt8, aid0, 0, [0], haid0lt, partOf_zero hzero, ?_⟩
    rw [if_neg (by rw [hany, Bool.and_false]; exact Bool.false_ne_true), Nat.zero_or]
    rfl

theorem and_fe_ctrl {aid0 : ℕ} (heven : Even n1) (hn1 : n1 < IEEE80211_MAX_TIM_LEN) (haid0 : aid0 < 2) :
    ((n1 ||| aid0).toUInt8 &&& 0xfe).toNat = n1 := by
  have hall : ∀ n < 251, ∀ a < 2, n % 2 = 0 → ((n ||| a).toUInt8 &&& 0xfe).toNat = n := by
    decide +kernel
  exact hall n1 hn1 aid0 haid0 (Nat.even_iff.mp heven)

/-- The station finds bit `n` of the map, if `n` is what is left of the number it asks for. -/
theorem checkTim_timData {tim : Tim} (hpart : PartOf tim n1 map) {aid0 : ℕ} (haid0 : aid0 < 2)
    (dtimCount dtimPeriod : UInt8) (aid : UInt16) :
    checkTim (some (Memory.ofList (timData dtimCount dtimPeriod (n1 ||| aid0).toUInt8 map)))
      (map.length + 3).toUInt8 aid = some (tim.bit (aid.toNat % 2048)) := by
  have hpos : 0 < map.length := List.length_pos_iff.mpr hpart.ne_nil
  have hle : n1 + map.length ≤ 251 := hpart.le
  have hlen : ((map.length + 3).toUInt8).toNat = map.length + 3 := Nat.mod_eq_of_lt (by omega)
  have hctrl := and_fe_ctrl hpart.even (show n1 < 251 by omega) haid0
  have hindex : (((aid &&& 0x3fff) / 8).toUInt8).toNat = aid.toNat % 2048 / 8 := by
    rw [UInt16.toNat_toUInt8, UInt16.toNat_div, UInt16.toNat_and]
    change (aid.toNat &&& 2 ^ 14 - 1) / 8 % 256 = aid.toNat % 2048 / 8
    rw [Nat.and_two_pow_sub_one_eq_mod]
    omega
  have hmask : (((aid &&& 0x3fff) &&& 7).toUInt8) = (aid.toNat % 2048 % 8).toUInt8 := by
    apply UInt8.toNat_inj.mp
    rw [UInt16.toNat_toUInt8, UInt16.toNat_and, UInt16.toNat_and]
    change ((aid.toNat &&& 2 ^ 14 - 1) &&& 2 ^ 3 - 1) % 256 = aid.toNat % 2048 % 8 % 256
    rw [Nat.and_two_pow_sub_one_eq_mod, Nat.and_two_pow_sub_one_eq_mod]
    omega
  have hn2 : ((map.length + 3).toUInt8 + ((n1 ||| aid0).toUInt8 &&& 0xfe) - 4).toNat = n1 + map.length - 1 := by
    rw [UInt8.toNat_sub_of_le, UInt8.toNat_add, hlen, hctrl]
    · change (map.length + 3 + n1) % 256 - 4 = n1 + map.length - 1
      omega
    · rw [UInt8.le_iff_toNat_le, UInt8.toNat_add, hlen, hctrl]
      change 4 ≤ (map.length + 3 + n1) % 256
      omega
  have hctrlAt : Memory.ofList (timData dtimCount dtimPeriod (n1 ||| aid0).toUInt8 map) 2 =
      some (n1 ||| aid0).toUInt8 := rfl
  rw [checkTim]
  simp only
  rw [if_neg (by rw [UInt8.lt_iff_toNat_lt, hlen]; change ¬map.length + 3 < 4; omega), hctrlAt, hmask]
  simp only [Option.bind_eq_bind, Option.bind_some, Bool.or_eq_true, decide_eq_true_eq,
    UInt8.lt_iff_toNat_lt, hctrl, hindex, hn2]
  have hbit : tim.bit (aid.toNat % 2048) =
      (tim.octet (aid.toNat % 2048 / 8)).toNat.testBit (aid.toNat % 2048 % 8) := rfl
  split
  · rename_i hout
    have hzero : tim.octet (aid.toNat % 2048 / 8) = 0 := by
      rcases hout with hlt | hgt
      · exact hpart.octet_of_lt _ hlt
      · rw [hpart.octet_eq _ (by omega), List.getD_eq_getElem?_getD, List.getElem?_eq_none (by omega)]
        rfl
    rw [hbit, hzero]
    simp
  · rename_i hin
    have hsub : (((aid &&& 0x3fff) / 8).toUInt8 - ((n1 ||| aid0).toUInt8 &&& 0xfe)).toNat =
        aid.toNat % 2048 / 8 - n1 := by
      rw [UInt8.toNat_sub_of_le _ _ (by rw [UInt8.le_iff_toNat_le, hctrl, hindex]; omega), hctrl, hindex]
    have hlt : aid.toNat % 2048 / 8 - n1 < map.length := by omega
    have hread : Memory.ofList (timData dtimCount dtimPeriod (n1 ||| aid0).toUInt8 map)
        (3 + (aid.toNat % 2048 / 8 - n1)) = some map[aid.toNat % 2048 / 8 - n1] := by
      rw [Memory.ofList, timData, Nat.add_comm, List.getElem?_cons_succ, List.getElem?_cons_succ,
        List.getElem?_cons_succ, List.getElem?_eq_getElem hlt]
    have hoctet : tim.octet (aid.toNat % 2048 / 8) = map[aid.toNat % 2048 / 8 - n1] := by
      rw [hpart.octet_eq _ (by omega), List.getD_eq_getElem?_getD, List.getElem?_eq_getElem hlt,
        Option.getD_some]
    rw [hsub, hread, hbit, hoctet, ← and_shiftLeft_ne_zero _ (Nat.mod_lt _ (by decide))]
    rfl

end Element

/-! ### The station and the access point -/

/-- What is appended is one element of the length it says, with a part of the map from an even octet
on. A station finds its bit if and only if its association ID was recorded, reading nothing outside.
-/
theorem checkTim_beaconAddTim {ps : PsData} {aids : Set ℕ} (hrec : Records ps.tim aids)
    (haids : ∀ a ∈ aids, 1 ≤ a ∧ a ≤ IEEE80211_MAX_AID) (hps : 0 < ps.numStaPs) (dtimPeriod : UInt8)
    (skb : List UInt8) (isTemplate : Bool) :
    ∃ (timLen dtimCount ctrl : UInt8) (n1 : ℕ) (map : List UInt8),
      (beaconAddTim dtimPeriod ps skb isTemplate).2 =
        skb ++ (WLAN_EID_TIM :: timLen :: timData dtimCount dtimPeriod ctrl map) ∧
      timLen.toNat = (timData dtimCount dtimPeriod ctrl map).length ∧
      Even n1 ∧ (ctrl &&& 0xfe).toNat = n1 ∧ (∀ i < map.length, map[i]? = some (ps.tim.octet (n1 + i))) ∧
      ∀ aid : UInt16, aid.toNat ≤ IEEE80211_MAX_AID →
        ∃ found, checkTim (some (Memory.ofList (timData dtimCount dtimPeriod ctrl map))) timLen aid =
          some found ∧ (found = true ↔ aid.toNat ∈ aids) := by
  have hend : ∀ i, IEEE80211_MAX_TIM_LEN ≤ i → ps.tim.octet i = 0 := by
    intro i hi
    exact hrec.octet_of_le (fun a ha => (haids a ha).2) hi
  obtain ⟨dtimCount, aid0, n1, map, haid0, hpart, heq⟩ := beaconAddTim_eq hend hps skb isTemplate
  have hpos : 0 < map.length := List.length_pos_iff.mpr hpart.ne_nil
  have hle : n1 + map.length ≤ 251 := hpart.le
  refine ⟨_, dtimCount, _, n1, map, heq, ?_, hpart.even,
    and_fe_ctrl hpart.even (show n1 < 251 by omega) haid0, ?_, ?_⟩
  · exact Nat.mod_eq_of_lt (by omega)
  · intro i hi
    rw [hpart.octet_eq _ (Nat.le_add_right n1 i), Nat.add_sub_cancel_left, List.getD_eq_getElem?_getD,
      List.getElem?_eq_getElem hi, Option.getD_some]
  · intro aid haid
    have hmod : aid.toNat % 2048 = aid.toNat :=
      Nat.mod_eq_of_lt (Nat.lt_of_le_of_lt haid (by decide))
    refine ⟨_, checkTim_timData hpart haid0 dtimCount dtimPeriod aid, ?_⟩
    rw [hmod]
    exact hrec aid.toNat

/-- Stations 1 and 2007: the whole map is sent. -/
theorem checkTim_beaconAddTim_ends :
    ∃ ps : PsData, Records ps.tim (insert 2007 (insert 1 ∅)) ∧ 0 < ps.numStaPs ∧
      ∃ (timLen dtimCount ctrl : UInt8) (map : List UInt8),
        (beaconAddTim 3 ps [] false).2 = WLAN_EID_TIM :: timLen :: timData dtimCount 3 ctrl map ∧
        ∀ aid : UInt16, aid.toNat ≤ IEEE80211_MAX_AID →
          ∃ found, checkTim (some (Memory.ofList (timData dtimCount 3 ctrl map))) timLen aid =
            some found ∧ (found = true ↔ aid.toNat ∈ insert 2007 (insert 1 (∅ : Set ℕ))) := by
  have hrec : Records (bssTimSet (bssTimSet (.replicate 256 0) 1) 2007) (insert 2007 (insert 1 ∅)) :=
    (records_empty.bssTimSet (by decide)).bssTimSet (by decide)
  obtain ⟨timLen, dtimCount, ctrl, -, map, heq, -, -, -, -, hcheck⟩ :=
    @checkTim_beaconAddTim { tim := bssTimSet (bssTimSet (.replicate 256 0) 1) 2007, numStaPs := 1 } _ hrec
      (by
        rintro a (rfl | rfl | ha)
        · decide
        · decide
        · exact ha.elim) (by decide) 3 [] false
  rw [List.nil_append] at heq
  exact ⟨{ tim := bssTimSet (bssTimSet (.replicate 256 0) 1) 2007, numStaPs := 1 }, hrec, Int.one_pos,
    timLen, dtimCount, ctrl, map, heq, hcheck⟩

end Mac80211
