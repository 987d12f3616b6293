import Mac80211.Elems.Merge

/-!
# The profile that is wanted

`ieee802_11_find_bssid_profile` puts profiles together in the same buffer until one generates the
BSSID that is asked for, but leaves only the inner loop: a profile in the next element takes its
place.

## Main results

* `profileRight_iff` — when the profile is the right one
-/

namespace Mac80211

open List Option

/-! ### Search with one buffer -/

section Search

variable {α β : Type*}

/-- A search in a list of candidates, some of which are found: up to the first of these. -/
def untilFound : List (α × Option β) → List (α × Option β)
  | [] => []
  | c :: cs => if c.2.isSome then [c] else c :: untilFound cs

theorem mem_of_mem_untilFound {c : α × Option β} {cs : List (α × Option β)} (h : c ∈ untilFound cs) :
    c ∈ cs := by
  induction cs with
  | nil => exact h
  | cons a cs ih =>
    rw [untilFound] at h
    split at h
    · rw [mem_singleton.1 h]
      exact mem_cons_self
    · rcases mem_cons.1 h with rfl | h
      · exact mem_cons_self
      · exact mem_cons_of_mem _ (ih h)

end Search

/-- What a candidate leaves: its bytes, and the place of its index if it is the one that is wanted. -/
def Profile.put (p : Profile) (c : List UInt8 × Option (ℕ × ℕ)) : Profile where
  bytes := c.1
  index := c.2.or p.index

theorem bytes_foldl_put (cs : List (List UInt8 × Option (ℕ × ℕ))) (p : Profile) :
    (cs.foldl Profile.put p).bytes = (cs.getLast?.map Prod.fst).getD p.bytes := by
  induction cs using List.reverseRecOn with
  | nil => rfl
  | append_singleton cs c _ =>
    rw [foldl_append, getLast?_concat]
    rfl

theorem index_foldl_put (cs : List (List UInt8 × Option (ℕ × ℕ))) (p : Profile) :
    (cs.foldl Profile.put p).index = (cs.filterMap Prod.snd).getLast?.or p.index := by
  induction cs using List.reverseRecOn with
  | nil => rfl
  | append_singleton cs c ih =>
    rw [foldl_append, filterMap_append]
    obtain ⟨bytes, index⟩ := c
    cases index with
    | none => simpa [Profile.put] using ih
    | some index => simp [Profile.put]

/-! ### What is put together -/

section Candidates

variable (frame : List UInt8) (transmitter bss : Mac)

/-- The profiles of one Multiple-BSSID element. -/
def mergedOf (mbssid : Elem) : List (List UInt8 × Option (ℕ × ℕ)) :=
  if mbssid.id ≠ WLAN_EID_MULTIPLE_BSSID ∨ mbssid.data.length < 2 then []
  else untilFound ((elements (mbssid.pos + 1) (mbssid.data.drop 1)).filterMap
    (candidate frame transmitter bss mbssid))

/-- All profiles that are put together, in order. -/
def mergedProfiles : List (List UInt8 × Option (ℕ × ℕ)) :=
  (elements 0 frame).flatMap (mergedOf frame transmitter bss)

/-- A profile of the frame for the BSS, and where its index is. -/
def WantedProfile (bytes : List UInt8) (index : ℕ × ℕ) : Prop :=
  ∃ mbssid ∈ elements 0 frame, mbssid.id = WLAN_EID_MULTIPLE_BSSID ∧ 2 ≤ mbssid.data.length ∧
    ∃ sub ∈ elements (mbssid.pos + 1) (mbssid.data.drop 1),
      IsProfileOf frame transmitter bss mbssid sub ∧
      mergeProfile frame mbssid sub frame.length = some bytes ∧
      ∃ e, findElem WLAN_EID_MULTI_BSSID_IDX (elements 0 bytes) = some e ∧ index = (e.pos, e.data.length)

/-- A length that is returned is that of a profile for the BSS, which is in the buffer, with the
pointer to its index. -/
def ProfileRight : Prop :=
  ∀ p, findBssidProfile frame (some transmitter) (some bss) = some p → p.bytes ≠ [] →
    ∃ index, p.index = some index ∧ WantedProfile frame transmitter bss p.bytes index

/-- A profile was found, and the one put together last was not, nor one with the same bytes and the
same index. -/
def Overwritten : Prop :=
  ∃ bytes index, (mergedProfiles frame transmitter bss).getLast? = some (bytes, none) ∧
    ((mergedProfiles frame transmitter bss).filterMap Prod.snd).getLast? = some index ∧
    ∀ mbssid ∈ elements 0 frame, mbssid.id = WLAN_EID_MULTIPLE_BSSID → 2 ≤ mbssid.data.length →
      ∀ sub ∈ elements (mbssid.pos + 1) (mbssid.data.drop 1),
        candidate frame transmitter bss mbssid sub ≠ some (bytes, some index)

end Candidates

section Wanted

variable {frame : List UInt8} {transmitter bss : Mac} {mbssid sub : Elem}

theorem findProfileSubs_eq (hm : 2 ≤ mbssid.data.length) (subs : List Elem) (p : Profile) :
    findProfileSubs frame transmitter bss mbssid subs p =
      some ((untilFound (subs.filterMap (candidate frame transmitter bss mbssid))).foldl Profile.put p) := by
  induction subs generalizing p with
  | nil => rfl
  | cons sub subs ih =>
    rw [findProfileSubs_step hm, filterMap_cons]
    cases candidate frame transmitter bss mbssid sub with
    | none => exact ih p
    | some c =>
      obtain ⟨bytes, index⟩ := c
      cases index with
      | none => exact ih _
      | some index => rfl

theorem findProfileElems_eq (es : List Elem) (p : Profile) :
    findProfileElems frame transmitter bss es p =
      some ((es.flatMap (mergedOf frame transmitter bss)).foldl Profile.put p) := by
  induction es generalizing p with
  | nil => rfl
  | cons e es ih =>
    rw [findProfileElems, flatMap_cons, foldl_append, mergedOf]
    split
    · exact ih p
    · rename_i he
      rw [not_or, not_not, Nat.not_lt] at he
      exact (Memory.bind_of_eq (findProfileSubs_eq he.2 _ p) _).trans (ih _)

/-- **What is left** is what was put together last. -/
theorem findBssidProfile_eq : findBssidProfile frame (some transmitter) (some bss) =
      some (if ((mergedProfiles frame transmitter bss).filterMap Prod.snd).getLast?.isSome then
        (mergedProfiles frame transmitter bss).foldl Profile.put {} else {}) := by
  have hindex := index_foldl_put (mergedProfiles frame transmitter bss) {}
  rw [or_none] at hindex
  rw [findBssidProfile, findProfileElems_eq, map_some, ← hindex]
  rfl

variable {c : List UInt8 × Option (ℕ × ℕ)}

theorem mem_mergedProfiles (h : c ∈ mergedProfiles frame transmitter bss) :
    ∃ mbssid ∈ elements 0 frame, mbssid.id = WLAN_EID_MULTIPLE_BSSID ∧ 2 ≤ mbssid.data.length ∧
      ∃ sub ∈ elements (mbssid.pos + 1) (mbssid.data.drop 1),
        candidate frame transmitter bss mbssid sub = some c := by
  obtain ⟨mbssid, hmem, hc⟩ := mem_flatMap.mp h
  rw [mergedOf] at hc
  split at hc
  · exact absurd hc not_mem_nil
  · rename_i hm
    rw [not_or, not_not, Nat.not_lt] at hm
    obtain ⟨sub, hsub, hcand⟩ := mem_filterMap.mp (mem_of_mem_untilFound hc)
    exact ⟨mbssid, hmem, hm.1, hm.2, sub, hsub, hcand⟩

variable {index : ℕ × ℕ}

theorem wantedProfile_iff {bytes : List UInt8} : WantedProfile frame transmitter bss bytes index ↔
      ∃ mbssid ∈ elements 0 frame, mbssid.id = WLAN_EID_MULTIPLE_BSSID ∧ 2 ≤ mbssid.data.length ∧
        ∃ sub ∈ elements (mbssid.pos + 1) (mbssid.data.drop 1),
          candidate frame transmitter bss mbssid sub = some (bytes, some index) := by
  rw [WantedProfile]
  refine exists_congr fun mbssid => and_congr_right fun _ => and_congr_right fun _ =>
    and_congr_right fun hm => exists_congr fun sub => and_congr_right fun _ => ?_
  exact (candidate_found_iff hm).symm

theorem bytes_ne_nil (h : c ∈ mergedProfiles frame transmitter bss) : c.1 ≠ [] := by
  obtain ⟨mbssid, hmem, -, hm, sub, hsub, hcand⟩ := mem_mergedProfiles h
  rw [candidate] at hcand
  split at hcand
  · cases hcand
  · rename_i hstart
    obtain ⟨bytes, hbytes, rfl⟩ := map_eq_some_iff.mp hcand
    obtain ⟨_, hbytes', -, hlen⟩ := mergeProfile_eq frame mbssid sub frame.length
    cases hbytes.symm.trans hbytes'
    -- the subelement is inside the element, and this one in the frame
    have hin := (elem_end_le hmem).2
    have hsubIn := (elem_end_le hsub).2
    rw [Elem.stop, length_drop] at hsubIn
    rw [Elem.stop] at hin
    have hpos : sub.data.length ≤ sub.pos + sub.data.length := Nat.le_add_left _ _
    rw [if_neg (by omega)] at hlen
    rw [hlen]
    intro hnil
    have hnone := (append_eq_nil_iff.mp hnil).1
    exact hstart (.inr (.inl (by simp [hnone])))

/-! ### When it is right -/

theorem profileRight_of_none
    (hindex : ((mergedProfiles frame transmitter bss).filterMap Prod.snd).getLast? = none) :
    ProfileRight frame transmitter bss := by
  intro p hp hne
  rw [findBssidProfile_eq, hindex, isSome_none, if_neg Bool.false_ne_true] at hp
  cases hp
  exact absurd rfl hne

/-- If one was found, the one put together last is to be wanted, with the index of the one found. -/
theorem profileRight_iff_wanted (hlast : (mergedProfiles frame transmitter bss).getLast? = some c)
    (hindex : ((mergedProfiles frame transmitter bss).filterMap Prod.snd).getLast? = some index) :
    ProfileRight frame transmitter bss ↔ WantedProfile frame transmitter bss c.1 index := by
  have hleft := @findBssidProfile_eq frame transmitter bss
  rw [hindex, isSome_some, if_pos rfl] at hleft
  have hput := index_foldl_put (mergedProfiles frame transmitter bss) {}
  rw [hindex] at hput
  have hbytes := bytes_foldl_put (mergedProfiles frame transmitter bss) {}
  rw [hlast] at hbytes
  constructor
  · intro h
    have hne := bytes_ne_nil (mem_of_getLast? hlast)
    obtain ⟨_, hsome, hwanted⟩ := h _ hleft (by rw [hbytes]; exact hne)
    cases hput.symm.trans hsome
    rw [hbytes] at hwanted
    exact hwanted
  · intro h p hp _
    cases hleft.symm.trans hp
    exact ⟨index, hput, by rw [hbytes]; exact h⟩

theorem profileRight_of_last {bytes : List UInt8}
    (hlast : (mergedProfiles frame transmitter bss).getLast? = some (bytes, some index)) :
    ProfileRight frame transmitter bss := by
  have hindex : ((mergedProfiles frame transmitter bss).filterMap Prod.snd).getLast? = some index := by
    obtain ⟨front, hfront⟩ := getLast?_eq_some_iff.mp hlast
    rw [hfront, filterMap_append]
    exact getLast?_concat
  rw [profileRight_iff_wanted hlast hindex, wantedProfile_iff]
  exact mem_mergedProfiles (mem_of_getLast? hlast)

/-- **The profile is the one that is wanted** exactly if none of a later Multiple-BSSID element is put
together after it. -/
theorem profileRight_iff (frame : List UInt8) (transmitter bss : Mac) :
    ProfileRight frame transmitter bss ↔ ¬Overwritten frame transmitter bss := by
  cases hindex : ((mergedProfiles frame transmitter bss).filterMap Prod.snd).getLast? with
  | none =>
    refine iff_of_true (profileRight_of_none hindex) ?_
    rintro ⟨bytes, index, -, hsome, -⟩
    rw [hindex] at hsome
    exact nomatch hsome
  | some index =>
    obtain ⟨c, hfound, -⟩ := mem_filterMap.mp (mem_of_getLast? hindex)
    obtain ⟨⟨bytes, last⟩, hlast⟩ : ∃ l, (mergedProfiles frame transmitter bss).getLast? = some l :=
      ⟨_, getLast?_eq_some_getLast (ne_nil_of_mem hfound)⟩
    cases last with
    | some last =>
      refine iff_of_true (profileRight_of_last hlast) ?_
      rintro ⟨_, _, hnone, -⟩
      rw [hlast] at hnone
      exact nomatch hnone
    | none =>
      rw [profileRight_iff_wanted hlast hindex, wantedProfile_iff]
      constructor
      · rintro ⟨mbssid, hmem, hid, hm, sub, hsub, hcand⟩ ⟨_, _, hlast', hindex', hno⟩
        obtain ⟨rfl, -⟩ := Prod.mk.inj (Option.some.inj (hlast.symm.trans hlast'))
        cases hindex.symm.trans hindex'
        exact hno mbssid hmem hid hm sub hsub hcand
      · intro hnot
        by_contra hno
        exact hnot ⟨bytes, index, hlast, hindex, fun mbssid hmem hid hm sub hsub hcand =>
          hno ⟨mbssid, hmem, hid, hm, sub, hsub, hcand⟩⟩

end Wanted

/-- Two Multiple-BSSID elements with a profile each, with the BSSID indices 1 and 2. -/
def twoProfiles : List UInt8 :=
  [71, 10, 1, 0, 7, 83, 2, 0, 0, 85, 1, 1, 71, 10, 4, 0, 7, 83, 2, 0, 0, 85, 1, 2]

/-- **The profile of another BSS** takes the place of the one that was found. -/
theorem last_profile_wins : ¬ProfileRight twoProfiles (mbssidAddr 0) (mbssidAddr 1) ∧
    (findBssidProfile twoProfiles (some (mbssidAddr 0)) (some (mbssidAddr 1))).map
        (fun p => (p.bytes, p.index)) = some ([83, 2, 0, 0, 85, 1, 2], some (6, 1)) := by
  have hlast : (mergedProfiles twoProfiles (mbssidAddr 0) (mbssidAddr 1)).getLast? =
      some ([83, 2, 0, 0, 85, 1, 2], none) := by decide +kernel
  have hindex : ((mergedProfiles twoProfiles (mbssidAddr 0) (mbssidAddr 1)).filterMap
      Prod.snd).getLast? = some (6, 1) := by decide +kernel
  refine ⟨?_, by decide +kernel⟩
  rw [profileRight_iff_wanted hlast hindex, wantedProfile_iff]
  decide +kernel

end Mac80211
