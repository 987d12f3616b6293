import Mac80211.Elems.Bounds

/-!
# Profiles that go on in the next element

`cfg80211_merge_profile`: a profile may go on in the first subelement of the next Multiple-BSSID
element. The loop asks for the continuation of the element it was called with each time, so it
copies the first one as often as there is room. Its caller keeps the length in eight bits.

## Main results

* `mergeProfile_exact` — when the parts are put together
-/

namespace Mac80211

open List Option

/-! ### The parts -/

/-- The subelement with which a profile goes on in an element: its first one, if it is a profile and not
the start of a new one. -/
def continuationIn (next : Elem) : Option Elem :=
  (elements (next.pos + 1) (next.data.drop 1)).head?.filter fun sub =>
    sub.id = 0 ∧ 2 ≤ sub.data.length ∧ sub.data.head? ≠ some WLAN_EID_NON_TX_BSSID_CAP

/-- The Multiple-BSSID elements behind one of them. -/
def mbssidsBehind (frame : List UInt8) (mbssid : Elem) : List Elem :=
  (elements mbssid.stop (frame.drop mbssid.stop)).filter fun e => e.id = WLAN_EID_MULTIPLE_BSSID

/-- The data of the continuations. Behind one that is not the last of its element, another profile
goes on. -/
def continuations : List Elem → List (List UInt8)
  | [] => []
  | next :: rest =>
    match continuationIn next with
    | none => []
    | some sub => sub.data :: if sub.stop < next.stop - 1 then [] else continuations rest

/-- The profile: its start, and each continuation once. -/
def wholeProfile (frame : List UInt8) (mbssid sub : Elem) : List UInt8 :=
  sub.data ++ (continuations (mbssidsBehind frame mbssid)).flatten

/-- `profile_len` of `cfg80211_parse_mbssid_data`. -/
def profileLen (bytes : List UInt8) : UInt8 := UInt8.ofNat bytes.length

/-- **What should come out**: the whole profile, with its length in the caller. -/
def MergesRight (frame : List UInt8) (mbssid sub : Elem) (maxCopyLen : ℕ) : Prop :=
  ∃ bytes, mergeProfile frame mbssid sub maxCopyLen = some bytes ∧
    bytes = wholeProfile frame mbssid sub ∧ (profileLen bytes).toNat = bytes.length

/-! ### The continuation the loop asks for -/

section

variable {frame : List UInt8} {mbssid sub next : Elem} {maxCopyLen : ℕ}

theorem data_of_continuationIn {d : Elem} (h : continuationIn next = some d) : 2 ≤ d.data.length := by
  obtain ⟨-, hd⟩ := filter_eq_some_iff.mp h
  exact (of_decide_eq_true hd).2.1

variable {d : List UInt8}

theorem length_of_mem_head? {es : List Elem} (h : (continuations es).head? = some d) :
    2 ≤ d.length := by
  cases es with
  | nil => cases h
  | cons next rest =>
    rw [continuations] at h
    cases hnext : continuationIn next with
    | none =>
      rw [hnext] at h
      cases h
    | some sub =>
      rw [hnext] at h
      cases h
      exact data_of_continuationIn hnext

theorem head?_continuations (es : List Elem) :
    (continuations es).head? = es.head?.bind fun next => (continuationIn next).map Elem.data := by
  cases es with
  | nil => rfl
  | cons next rest =>
    rw [continuations, head?_cons, bind_some]
    cases continuationIn next <;> rfl

theorem continuationIn_of_data {b0 b1 b2 b3 : UInt8} {rest : List UInt8}
    (hd : next.data = b0 :: b1 :: b2 :: b3 :: rest) : continuationIn next =
      if rest.length + 1 < b2.toNat ∨ b1 ≠ 0 ∨ b2.toNat < 2 ∨ b3 = WLAN_EID_NON_TX_BSSID_CAP then none
      else some ⟨next.pos + 1, b1, (b3 :: rest).take b2.toNat⟩ := by
  rw [continuationIn, hd, drop_one, tail_cons, elements, length_cons]
  by_cases hlen : rest.length + 1 < b2.toNat
  · rw [if_pos hlen, if_pos (.inl hlen)]
    rfl
  rw [if_neg hlen, head?_cons, filter_some]
  by_cases htwo : b2.toNat < 2
  · rw [if_neg, if_pos (.inr (.inr (.inl htwo)))]
    rw [decide_eq_true_eq, length_take, length_cons]
    omega
  have hhead : ((b3 :: rest).take b2.toNat).head? = some b3 := by
    rw [head?_take, if_neg (by omega), head?_cons]
  by_cases hvalid : b1 = 0 ∧ b3 ≠ WLAN_EID_NON_TX_BSSID_CAP
  · rw [if_pos, if_neg (by tauto)]
    rw [decide_eq_true_eq, hhead, length_take, length_cons]
    exact ⟨hvalid.1, by omega, fun h => hvalid.2 (some.inj h)⟩
  · rw [if_neg, if_pos (by tauto)]
    rw [decide_eq_true_eq, hhead]
    exact fun h => hvalid ⟨h.1, fun heq => h.2.2 (congrArg some heq)⟩

theorem continuationIn_of_short (h : next.data.length < 4) : continuationIn next = none := by
  by_contra hne
  obtain ⟨d, hd⟩ := ne_none_iff_exists'.mp hne
  have hlen := data_of_continuationIn hd
  have hmem : d ∈ elements (next.pos + 1) (next.data.drop 1) :=
    mem_of_mem_head? (filter_eq_some_iff.mp hd).1
  have hin := elem_end_le hmem
  simp only [Elem.stop, Elem.pos, length_drop] at hin
  omega

/-- **The function asks for the first continuation**, if the profile is at the end of its element. -/
theorem getProfileContinuation_eq (frame : List UInt8) (mbssid sub : Elem) :
    getProfileContinuation frame mbssid sub =
      some (if sub.stop < mbssid.stop - 1 then none
        else (continuations (mbssidsBehind frame mbssid)).head?) := by
  rw [head?_continuations, mbssidsBehind, head?_filter, getProfileContinuation, findElem]
  cases (elements mbssid.stop (frame.drop mbssid.stop)).find? fun e => e.id = WLAN_EID_MULTIPLE_BSSID with
  | none => simp
  | some next =>
    dsimp only
    by_cases hend : sub.stop < mbssid.stop - 1
    · rw [if_pos hend, if_pos hend]
    rw [if_neg hend, if_neg hend, bind_some]
    by_cases hshort : next.data.length < 4
    · rw [if_pos hshort, continuationIn_of_short hshort]
      rfl
    rw [if_neg hshort]
    obtain ⟨b0, b1, b2, b3, rest, hd⟩ := eq_cons_of_four_le (Nat.not_lt.mp hshort)
    rw [continuationIn_of_data hd, hd]
    simp only [getElem?_cons_succ, getElem?_cons_zero, bind_eq_bind, bind_some,
      length_cons, Bool.or_eq_true, decide_eq_true_eq]
    by_cases hlen : rest.length + 1 < b2.toNat
    · rw [if_pos (by omega), if_pos (.inl hlen)]
      rfl
    rw [if_neg (by omega)]
    by_cases hid : b1 ≠ 0 ∨ b2.toNat < 2
    · rw [if_pos (by simpa using hid), if_pos (.inr (by tauto))]
      rfl
    rw [if_neg (by simpa using hid)]
    by_cases hcap : b3 = WLAN_EID_NON_TX_BSSID_CAP
    · rw [if_pos hcap, if_pos (.inr (.inr (.inr hcap)))]
      rfl
    · rw [if_neg hcap, if_neg (by tauto)]
      rfl

/-! ### The loop -/

/-- A continuation as often as there is room for it. -/
def copies (d : List UInt8) (room : ℕ) : List UInt8 := (List.replicate (room / d.length) d).flatten

theorem copies_of_lt {room : ℕ} (h : room < d.length) : copies d room = [] := by
  rw [copies, Nat.div_eq_of_lt h]
  rfl

theorem copies_of_le {d : List UInt8} {room : ℕ} (hpos : 0 < d.length) (h : d.length ≤ room) :
    copies d room = d ++ copies d (room - d.length) := by
  rw [copies, Nat.div_eq_sub_div hpos h, replicate_succ, flatten_cons]
  rfl

theorem length_copies_le (d : List UInt8) (room : ℕ) : (copies d room).length ≤ room := by
  rw [copies, length_flatten, map_replicate, sum_replicate_nat]
  exact Nat.div_mul_le_self room d.length

/-- What one more round adds, and that there are rounds enough: each one uses up some of the room. -/
theorem mergeLoop_of_some (hd : getProfileContinuation frame mbssid sub = some (some d))
    (hpos : 0 < d.length) {n : ℕ} {merged : List UInt8} (hn : maxCopyLen - merged.length ≤ n)
    (hroom : merged.length ≤ maxCopyLen) : mergeLoop frame mbssid sub maxCopyLen n merged =
      some (merged ++ copies d (maxCopyLen - merged.length)) := by
  induction n generalizing merged with
  | zero => rw [mergeLoop, copies_of_lt (by omega), append_nil]
  | succ n ih =>
    rw [mergeLoop, Memory.bind_of_eq hd]
    dsimp only
    by_cases hfit : maxCopyLen < merged.length + d.length
    · rw [if_pos hfit, copies_of_lt (by omega), append_nil]
      rfl
    · have hlen : (merged ++ d).length = merged.length + d.length := length_append
      rw [if_neg hfit, ih (by omega) (by omega), @copies_of_le d (maxCopyLen - merged.length) hpos (by omega),
        append_assoc, hlen, Nat.sub_sub]

theorem mergeLoop_of_none (hd : getProfileContinuation frame mbssid sub = some none) (n : ℕ)
    (merged : List UInt8) : mergeLoop frame mbssid sub maxCopyLen n merged = some merged := by
  cases n with
  | zero => rfl
  | succ n => rw [mergeLoop, Memory.bind_of_eq hd]; rfl

/-- What is put behind the start of the profile. -/
def repeated (frame : List UInt8) (mbssid sub : Elem) (maxCopyLen : ℕ) : List UInt8 :=
  if sub.stop < mbssid.stop - 1 then []
  else ((continuations (mbssidsBehind frame mbssid)).head?.map fun d =>
    copies d (maxCopyLen - sub.data.length)).getD []

/-- **The loop ends**, and this is what it leaves, whatever bound on the rounds. -/
theorem mergeLoop_eq (hroom : sub.data.length ≤ maxCopyLen) {n : ℕ} (hn : maxCopyLen ≤ n) :
    mergeLoop frame mbssid sub maxCopyLen n sub.data =
      some (sub.data ++ repeated frame mbssid sub maxCopyLen) := by
  have hask := getProfileContinuation_eq frame mbssid sub
  rw [repeated]
  by_cases hend : sub.stop < mbssid.stop - 1
  · rw [if_pos hend] at hask ⊢
    rw [mergeLoop_of_none hask, append_nil]
  rw [if_neg hend] at hask ⊢
  cases hhead : (continuations (mbssidsBehind frame mbssid)).head? with
  | none =>
    rw [hhead] at hask
    rw [mergeLoop_of_none hask, map_none, getD_none, append_nil]
  | some d =>
    rw [hhead] at hask
    have htwo := length_of_mem_head? hhead
    rw [mergeLoop_of_some hask (by omega) (by omega) hroom, map_some, getD_some]

theorem length_repeated_le : (repeated frame mbssid sub maxCopyLen).length ≤ maxCopyLen - sub.data.length := by
  rw [repeated]
  split
  · exact Nat.zero_le _
  cases (continuations (mbssidsBehind frame mbssid)).head? with
  | none => exact Nat.zero_le _
  | some d => exact length_copies_le d _

/-- **What the function returns**, and that it writes no more than it may. -/
theorem mergeProfile_eq (frame : List UInt8) (mbssid sub : Elem) (maxCopyLen : ℕ) :
    ∃ bytes, mergeProfile frame mbssid sub maxCopyLen = some bytes ∧ bytes.length ≤ maxCopyLen ∧
      bytes = if maxCopyLen < sub.data.length then []
        else sub.data ++ repeated frame mbssid sub maxCopyLen := by
  rw [mergeProfile]
  by_cases hroom : maxCopyLen < sub.data.length
  · rw [if_pos hroom, if_pos hroom]
    exact ⟨[], rfl, Nat.zero_le _, rfl⟩
  · rw [if_neg hroom, if_neg hroom, mergeLoop_eq (Nat.not_lt.mp hroom) le_rfl]
    refine ⟨_, rfl, ?_, rfl⟩
    have hlen := @length_repeated_le frame mbssid sub maxCopyLen
    rw [length_append]
    omega

/-! ### When that is the profile -/

/-- Nothing goes on, or the profile ends its element and its continuations are the first one, as
often as there is room for it. -/
def RepeatsRight (frame : List UInt8) (mbssid sub : Elem) (maxCopyLen : ℕ) : Prop :=
  ∀ d, (continuations (mbssidsBehind frame mbssid)).head? = some d → mbssid.stop - 1 ≤ sub.stop ∧
    (continuations (mbssidsBehind frame mbssid)).flatten =
      (List.replicate ((maxCopyLen - sub.data.length) / d.length) d).flatten

theorem flatten_eq_repeated_iff :
    (continuations (mbssidsBehind frame mbssid)).flatten = repeated frame mbssid sub maxCopyLen ↔
      RepeatsRight frame mbssid sub maxCopyLen := by
  rw [RepeatsRight, repeated]
  cases hconts : continuations (mbssidsBehind frame mbssid) with
  | nil => simp
  | cons d rest =>
    have htwo : 2 ≤ d.length := length_of_mem_head? (hconts ▸ head?_cons)
    rw [head?_cons, map_some, getD_some]
    by_cases hend : sub.stop < mbssid.stop - 1
    · rw [if_pos hend]
      refine iff_of_false (fun hnil => ?_) fun h => ?_
      · have hd := (append_eq_nil_iff.mp hnil).1
        rw [hd] at htwo
        simp at htwo
      · exact absurd (h d rfl).1 (Nat.not_le.mpr hend)
    · rw [if_neg hend]
      refine ⟨fun h d' hd' => ?_, fun h => (h d rfl).2⟩
      cases hd'
      exact ⟨Nat.not_lt.mp hend, h⟩

theorem toNat_profileLen_eq_iff {bytes : List UInt8} :
    (profileLen bytes).toNat = bytes.length ↔ bytes.length < 256 := by
  rw [profileLen, UInt8.toNat_ofNat']
  exact ⟨fun h => h ▸ Nat.mod_lt _ (by decide), Nat.mod_eq_of_lt⟩

end

/-- **The profile is what it should be exactly when** it fits into the buffer, has less than 256
bytes, and its continuations are the first one, as often as there is room. The loop ends, and writes
at most `max_copy_len` bytes. -/
theorem mergeProfile_exact (frame : List UInt8) (mbssid sub : Elem) (maxCopyLen : ℕ) :
    (∀ n, maxCopyLen ≤ n → sub.data.length ≤ maxCopyLen →
      mergeProfile frame mbssid sub maxCopyLen = mergeLoop frame mbssid sub maxCopyLen n sub.data) ∧
    (∃ bytes, mergeProfile frame mbssid sub maxCopyLen = some bytes ∧ bytes.length ≤ maxCopyLen) ∧
    (MergesRight frame mbssid sub maxCopyLen ↔
      (wholeProfile frame mbssid sub).length ≤ maxCopyLen ∧
      (wholeProfile frame mbssid sub).length < 256 ∧ RepeatsRight frame mbssid sub maxCopyLen) := by
  obtain ⟨bytes, hmerge, hlen, hbytes⟩ := mergeProfile_eq frame mbssid sub maxCopyLen
  refine ⟨fun n hn hroom => ?_, ⟨bytes, hmerge, hlen⟩, ?_⟩
  · rw [mergeProfile, if_neg (Nat.not_lt.mpr hroom), mergeLoop_eq hroom hn, mergeLoop_eq hroom le_rfl]
  have hsub : sub.data.length ≤ (wholeProfile frame mbssid sub).length := by
    rw [wholeProfile, length_append]
    exact Nat.le_add_right _ _
  have hsame : sub.data.length ≤ maxCopyLen →
      (bytes = wholeProfile frame mbssid sub ↔ RepeatsRight frame mbssid sub maxCopyLen) := by
    intro hroom
    rw [hbytes, if_neg (Nat.not_lt.mpr hroom), wholeProfile, append_cancel_left_eq, eq_comm,
      flatten_eq_repeated_iff]
  constructor
  · rintro ⟨bytes', hmerge', hwhole, hcaller⟩
    cases hmerge.symm.trans hmerge'
    rw [toNat_profileLen_eq_iff] at hcaller
    rw [← hwhole] at hsub ⊢
    exact ⟨hlen, hcaller, (hsame (hsub.trans hlen)).mp hwhole⟩
  · rintro ⟨hfit, hcaller, hright⟩
    have hwhole := (hsame (hsub.trans hfit)).mpr hright
    refine ⟨bytes, hmerge, hwhole, toNat_profileLen_eq_iff.mpr ?_⟩
    rwa [hwhole]

/-! ### Two bytes six times -/

/-- A frame with a profile of four bytes that goes on with two. -/
def continuedFrame : List UInt8 := [71, 7, 1, 0, 4, 83, 2, 0, 0, 71, 5, 1, 0, 2, 48, 0]

/-- The element and the subelement with the start of the profile. -/
def continuedMbssid : Elem := ⟨0, 71, [1, 0, 4, 83, 2, 0, 0]⟩

def continuedSub : Elem := ⟨3, 0, [83, 2, 0, 0]⟩

/-- **A continuation that is copied over and over.** The profile has six bytes; sixteen come out, as
many as the frame has. -/
theorem mergeProfile_repeats :
    elementsCompleted continuedFrame = true ∧ continuedMbssid ∈ elements 0 continuedFrame ∧
    (elements (continuedMbssid.pos + 1) (continuedMbssid.data.drop 1)).getLast? = some continuedSub ∧
    wholeProfile continuedFrame continuedMbssid continuedSub = [83, 2, 0, 0, 48, 0] ∧
    mergeProfile continuedFrame continuedMbssid continuedSub continuedFrame.length =
      some ([83, 2, 0, 0] ++ [48, 0, 48, 0, 48, 0, 48, 0, 48, 0, 48, 0]) ∧
    ¬ MergesRight continuedFrame continuedMbssid continuedSub continuedFrame.length := by
  have hwhole : wholeProfile continuedFrame continuedMbssid continuedSub = [83, 2, 0, 0, 48, 0] := by
    decide +kernel
  have hmerge : mergeProfile continuedFrame continuedMbssid continuedSub continuedFrame.length =
      some ([83, 2, 0, 0] ++ [48, 0, 48, 0, 48, 0, 48, 0, 48, 0, 48, 0]) := by
    decide +kernel
  refine ⟨by decide +kernel, by decide +kernel, by decide +kernel, hwhole, hmerge, ?_⟩
  rintro ⟨bytes, hbytes, hright, -⟩
  rw [hmerge] at hbytes
  cases hbytes
  rw [hwhole] at hright
  revert hright
  decide

end Mac80211
