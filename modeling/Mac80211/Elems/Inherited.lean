import Mac80211.Elems.NewIeElements

/-!
# What a BSS that is not transmitted inherits

Each element of a profile is copied once, for the element of the frame that it replaces or at the
end. `cfg80211_gen_new_ie` leaves out what stands in front of the SSID and does not look whether
there is room.

## Main definitions

* `Generable`

## Main results

* `genNewIe_exact` — when it makes the right elements
-/

namespace Mac80211

open List

/-- The elements of the frame that were not replaced. -/
def keptElements (ie sub : List InfoElement) : List InfoElement :=
  (lookups (behindSsid ie) sub).flatMap (keptOf (inheritsFrom sub))

/-- An element is a Nontransmitted-BSSID-Capability. -/
def InfoElement.isCap (e : InfoElement) : Bool := e.id = WLAN_EID_NON_TX_BSSID_CAP

/-- The elements of this kind that replace one of the frame. -/
def takenCaps (ie sub : List InfoElement) : List InfoElement :=
  (sub.filter InfoElement.isCap).take ((behindSsid ie).countP InfoElement.isCap)

/-- **The condition.** Both have something to read; what is inherited is behind the SSID of the
frame, and not in the profile; and there is room. -/
structure Generable (ie sub : List InfoElement) : Prop where
  profile : sub ≠ []
  frame : behindSsid ie ≠ []
  inherited : ∀ e ∈ ie, Inherits sub e → (∀ new ∈ sub, ¬new.Overrides e) → e ∈ behindSsid ie
  own : ∀ e ∈ sub, e.isOwn → e ∉ keptElements ie sub
  room : (encode ((sub.find? (·.id = WLAN_EID_SSID)).toList ++ keptElements ie sub ++
    sub.filter InfoElement.isOwn ++ takenCaps ie sub)).length ≤ IEEE80211_MAX_DATA_LEN

section

variable {e old new : InfoElement} {olds sub pre post : List InfoElement}

/-! ### Each element of the profile is copied once -/

/-- An element of the profile that has not been copied. -/
def InfoElement.isLive (e : InfoElement) : Bool := e.id ≠ WLAN_EID_SSID

@[simp] theorem isLive_marked (e : InfoElement) : e.marked.isLive = false := rfl

@[simp] theorem isOwn_marked (e : InfoElement) : e.marked.isOwn = false := rfl

@[simp] theorem isCap_marked (e : InfoElement) : e.marked.isCap = false := rfl

/-- What is compared with an element of the frame, and what is left after it. -/
theorem leftAfter_cases (old : InfoElement) (sub : List InfoElement) :
    (takenOf (old, sub.find? (sameKind old)) = [] ∧ leftAfter old sub = sub) ∨
    ∃ pre new post, sub = pre ++ new :: post ∧ (∀ e ∈ pre, sameKind old e = false) ∧ new.id = old.id ∧
      takenOf (old, sub.find? (sameKind old)) = [new] ∧ leftAfter old sub = pre ++ new.marked :: post := by
  rw [leftAfter]
  cases hfind : sub.find? (sameKind old) with
  | none => exact .inl ⟨rfl, rfl⟩
  | some new =>
    obtain ⟨hnew, pre, post, hsub, hpre⟩ := find?_eq_some_iff_append.mp hfind
    have hpre' : ∀ e ∈ pre, sameKind old e = false := by
      intro e he
      simpa using hpre e he
    rw [takenOf]
    by_cases hreplaces : Replaces new old
    · refine .inr ⟨pre, new, post, hsub, hpre', ?_, if_pos hreplaces, ?_⟩
      · rw [sameKind, Bool.and_eq_true] at hnew
        exact of_decide_eq_true hnew.1
      · dsimp only
        rw [if_pos hreplaces, hsub, markFirst_append hpre' hnew]
    · exact .inl ⟨if_neg hreplaces, if_neg hreplaces⟩

theorem perm_leftAfter (hold : old.id ≠ WLAN_EID_SSID) (sub : List InfoElement) :
    (takenOf (old, sub.find? (sameKind old)) ++ (leftAfter old sub).filter InfoElement.isLive).Perm
      (sub.filter InfoElement.isLive) := by
  rcases leftAfter_cases old sub with ⟨htaken, hleft⟩ | ⟨pre, new, post, hsub, -, hnew, htaken, hleft⟩
  · rw [htaken, hleft]
    exact List.Perm.refl _
  · have hlive : new.isLive = true := by
      rw [InfoElement.isLive, hnew]
      simpa using hold
    rw [htaken, hleft, hsub]
    simp only [filter_append, filter_cons, isLive_marked, hlive, if_true, Bool.false_eq_true, if_false,
      singleton_append]
    exact perm_middle.symm

theorem perm_leftOf (hssid : ∀ e ∈ olds, e.id ≠ WLAN_EID_SSID) (sub : List InfoElement) :
    ((lookups olds sub).flatMap takenOf ++ (leftOf olds sub).filter InfoElement.isLive).Perm
      (sub.filter InfoElement.isLive) := by
  induction olds generalizing sub with
  | nil => exact List.Perm.refl _
  | cons old olds ih =>
    have hrest := ih (fun e he => hssid e (mem_cons_of_mem _ he)) (leftAfter old sub)
    rw [lookups, flatMap_cons, leftOf, foldl_cons, ← leftOf, append_assoc]
    exact (hrest.append_left _).trans (perm_leftAfter (hssid old mem_cons_self) sub)

theorem sameKind_of_isCap (hold : old.isCap = true) : sameKind old = InfoElement.isCap := by
  have hid : old.id = WLAN_EID_NON_TX_BSSID_CAP := of_decide_eq_true hold
  have hext : WLAN_EID_NON_TX_BSSID_CAP ≠ WLAN_EID_EXTENSION := by decide
  funext e
  simp [sameKind, InfoElement.isCap, hid, hext]

theorem replaces_of_isCap (hold : old.isCap = true) (new : InfoElement) : Replaces new old := by
  have hid : old.id = WLAN_EID_NON_TX_BSSID_CAP := of_decide_eq_true hold
  intro hvendor
  rw [hid] at hvendor
  exact absurd hvendor (by decide)

theorem caps_leftAfter (old : InfoElement) (sub : List InfoElement) :
    (leftAfter old sub).filter InfoElement.isCap =
      (sub.filter InfoElement.isCap).drop (if old.isCap then 1 else 0) := by
  cases hold : old.isCap with
  | true =>
    rw [leftAfter, sameKind_of_isCap hold, if_pos rfl]
    cases hfind : sub.find? InfoElement.isCap with
    | none =>
      have hnil : sub.filter InfoElement.isCap = [] := filter_eq_nil_iff.mpr (find?_eq_none.mp hfind)
      rw [hnil]
      rfl
    | some new =>
      obtain ⟨hnew, pre, post, hsub, hpre⟩ := find?_eq_some_iff_append.mp hfind
      have hpre' : ∀ e ∈ pre, e.isCap = false := by
        intro e he
        simpa using hpre e he
      have hnil : pre.filter InfoElement.isCap = [] := by
        refine filter_eq_nil_iff.mpr ?_
        intro e he
        simp [hpre' e he]
      dsimp only
      rw [if_pos (replaces_of_isCap hold new), hsub, markFirst_append hpre' hnew]
      simp [filter_append, hnil, hnew]
  | false =>
    rw [if_neg Bool.false_ne_true, drop_zero]
    rcases leftAfter_cases old sub with ⟨-, hleft⟩ | ⟨pre, new, post, hsub, -, hnew, -, hleft⟩
    · rw [hleft]
    · have hcap : new.isCap = false := by
        rw [InfoElement.isCap, hnew]
        exact hold
      rw [hleft, hsub]
      simp [filter_append, hcap]

theorem caps_leftOf (olds sub : List InfoElement) : (leftOf olds sub).filter InfoElement.isCap =
      (sub.filter InfoElement.isCap).drop (olds.countP InfoElement.isCap) := by
  induction olds generalizing sub with
  | nil => rfl
  | cons old olds ih =>
    rw [leftOf, foldl_cons, ← leftOf, ih, caps_leftAfter, drop_drop, countP_cons, Nat.add_comm]

/-! ### What comes out -/

theorem filter_isLive_perm (es : List InfoElement) :
    (es.filter InfoElement.isOwn ++ es.filter InfoElement.isCap).Perm (es.filter InfoElement.isLive) := by
  have hown : (es.filter InfoElement.isLive).filter InfoElement.isOwn = es.filter InfoElement.isOwn := by
    rw [filter_filter]
    congr 1
    funext e
    simp only [InfoElement.isOwn, InfoElement.isLive]
    cases decide (e.id ≠ WLAN_EID_SSID) <;> simp
  have hcap : (es.filter InfoElement.isLive).filter (fun e => !e.isOwn) = es.filter InfoElement.isCap := by
    rw [filter_filter]
    congr 1
    funext e
    simp only [InfoElement.isOwn, InfoElement.isLive, InfoElement.isCap]
    by_cases hssid : e.id = WLAN_EID_SSID
    · simp [hssid]
      decide
    · simp [hssid]
  have hperm := filter_append_perm InfoElement.isOwn (es.filter InfoElement.isLive)
  rwa [hown, hcap] at hperm

variable {ie : List InfoElement}

/-- **What comes out**: the SSID, what is kept of the frame, and what is in the profile. -/
theorem newElements_perm (hssid : ∀ e ∈ behindSsid ie, e.id ≠ WLAN_EID_SSID) (sub : List InfoElement) :
    (newElements ie sub).Perm ((sub.find? (·.id = WLAN_EID_SSID)).toList ++ keptElements ie sub ++
      sub.filter InfoElement.isOwn ++ takenCaps ie sub) := by
  have hcopied : ((lookups (behindSsid ie) sub).flatMap (copiedOf (inheritsFrom sub))).Perm
      (keptElements ie sub ++ (lookups (behindSsid ie) sub).flatMap takenOf) :=
    (flatMap_append_perm _ _ _).symm
  -- what has been copied is not there any more in the end
  have hprofile : ((lookups (behindSsid ie) sub).flatMap takenOf ++
      (leftOf (behindSsid ie) sub).filter InfoElement.isOwn).Perm
      (sub.filter InfoElement.isOwn ++ takenCaps ie sub) := by
    refine (perm_append_right_iff ((leftOf (behindSsid ie) sub).filter InfoElement.isCap)).mp ?_
    have hleft := (filter_isLive_perm (leftOf (behindSsid ie) sub)).append_left
      ((lookups (behindSsid ie) sub).flatMap takenOf)
    rw [← append_assoc] at hleft
    refine hleft.trans ((perm_leftOf hssid sub).trans ((filter_isLive_perm sub).symm.trans ?_))
    rw [caps_leftOf, takenCaps, append_assoc, take_append_drop]
  rw [newElements]
  have hmiddle := (hcopied.append_right ((leftOf (behindSsid ie) sub).filter InfoElement.isOwn)).append_left
    (sub.find? (·.id = WLAN_EID_SSID)).toList
  have hlast := (hprofile.append_left (keptElements ie sub)).append_left
    (sub.find? (·.id = WLAN_EID_SSID)).toList
  simp only [append_assoc] at hmiddle hlast ⊢
  exact hmiddle.trans hlast

theorem length_encode_of_perm {es es' : List InfoElement} (h : es.Perm es') :
    (encode es).length = (encode es').length :=
  (h.flatMap_right InfoElement.bytes).length_eq

theorem inheritsFrom_iff {sub : List InfoElement} {e : InfoElement} : inheritsFrom sub e = true ↔ Inherits sub e := by
  rw [inheritsFrom, Inherits]
  cases isInherited (e.found 0) (nonInheritance sub) with
  | none => simp
  | some b => simp

theorem mem_behindSsid_of_mem_lookups {olds : List InfoElement} {x : InfoElement × Option InfoElement}
    (hx : x ∈ lookups olds sub) : x.1 ∈ olds := by
  induction olds generalizing sub with
  | nil => cases hx
  | cons old olds ih =>
    rw [lookups, mem_cons] at hx
    rcases hx with rfl | hx
    · exact mem_cons_self
    · exact mem_cons_of_mem _ (ih hx)

theorem mem_keptOf {inherits : InfoElement → Bool} {x : InfoElement × Option InfoElement} (h : e ∈ keptOf inherits x) :
    e = x.1 := by
  rcases x with ⟨old, _ | new⟩
  · rw [keptOf] at h
    split at h
    · exact mem_singleton.mp h
    · cases h
  · rw [keptOf] at h
    split at h
    · cases h
    · exact mem_singleton.mp h

theorem mem_behindSsid_of_mem_kept (h : e ∈ keptElements ie sub) : e ∈ behindSsid ie := by
  obtain ⟨x, hx, he⟩ := mem_flatMap.mp h
  rw [mem_keptOf he]
  exact mem_behindSsid_of_mem_lookups hx

theorem mem_of_mem_leftAfter (he : e.isLive = true) (h : e ∈ leftAfter old sub) : e ∈ sub := by
  rcases leftAfter_cases old sub with ⟨-, hleft⟩ | ⟨pre, new, post, hsub, -, -, -, hleft⟩
  · rwa [hleft] at h
  · rw [hleft, mem_append, mem_cons] at h
    rw [hsub, mem_append, mem_cons]
    rcases h with h | rfl | h
    · exact .inl h
    · cases he
    · exact .inr (.inr h)

theorem mem_kept_of_mem {sub₀ : List InfoElement} {inherits : InfoElement → Bool} (he : e ∈ olds)
    (hssid : e.id ≠ WLAN_EID_SSID) (hinherits : inherits e = true) (hnew : ∀ new ∈ sub₀, ¬new.Overrides e)
    (hsub : ∀ new ∈ sub, new.isLive = true → new ∈ sub₀) : e ∈ (lookups olds sub).flatMap (keptOf inherits) := by
  induction olds generalizing sub with
  | nil => cases he
  | cons old olds ih =>
    rw [lookups, flatMap_cons, mem_append]
    rcases mem_cons.mp he with rfl | he
    · left
      cases hfind : sub.find? (sameKind e) with
      | none =>
        rw [keptOf, if_pos hinherits]
        exact mem_singleton_self e
      | some new =>
        have hkind := find?_some hfind
        rw [sameKind, Bool.and_eq_true, Bool.or_eq_true, decide_eq_true_eq, decide_eq_true_eq, decide_eq_true_eq]
          at hkind
        have hlive : new.isLive = true := by
          rw [InfoElement.isLive, hkind.1]
          simpa using hssid
        have hreplaces : ¬Replaces new e := by
          intro hreplaces
          refine hnew new (hsub new (mem_of_find?_eq_some hfind) hlive) ⟨hkind.1, ?_, hreplaces⟩
          intro hext
          exact hkind.2.resolve_left fun hne => hne hext
        rw [keptOf, if_neg hreplaces]
        exact mem_singleton_self e
    · exact .inr (ih he fun new hmem hlive => hsub new (mem_of_mem_leftAfter hlive hmem) hlive)

theorem not_mem_of_not_overrides (hnew : ∀ new ∈ sub, ¬new.Overrides e) : e ∉ sub :=
  fun he => hnew e he ⟨rfl, fun _ => rfl, fun _ => rfl⟩

theorem mem_newElements_iff (hssid : ∀ e ∈ behindSsid ie, e.id ≠ WLAN_EID_SSID)
    (hnew : ∀ new ∈ sub, ¬new.Overrides e) (hinherits : Inherits sub e) :
    e ∈ newElements ie sub ↔ e ∈ behindSsid ie := by
  have hsub := not_mem_of_not_overrides hnew
  rw [(newElements_perm hssid sub).mem_iff]
  constructor
  · intro he
    simp only [mem_append, Option.mem_toList, mem_filter] at he
    rcases he with ((hfind | hkept) | hown) | hcap
    · exact absurd (mem_of_find?_eq_some hfind) hsub
    · exact mem_behindSsid_of_mem_kept hkept
    · exact absurd hown.1 hsub
    · exact absurd (mem_of_mem_filter (mem_of_mem_take hcap)) hsub
  · intro he
    have hkept : e ∈ keptElements ie sub :=
      mem_kept_of_mem he (hssid e he) (inheritsFrom_iff.mpr hinherits) hnew fun _ hmem _ => hmem
    simp [hkept]

theorem count_newElements (hssid : ∀ e ∈ behindSsid ie, e.id ≠ WLAN_EID_SSID) (he : e.isOwn = true) :
    (newElements ie sub).count e = (keptElements ie sub).count e + sub.count e := by
  have hfirst : (sub.find? (·.id = WLAN_EID_SSID)).toList.count e = 0 := by
    refine count_eq_zero.mpr ?_
    intro hmem
    have hid := find?_some (Option.mem_toList.mp hmem)
    rw [InfoElement.isOwn, Bool.and_eq_true] at he
    exact of_decide_eq_true he.1 (of_decide_eq_true hid)
  have hcaps : (takenCaps ie sub).count e = 0 := by
    refine count_eq_zero.mpr ?_
    intro hmem
    have hcap := (mem_filter.mp (mem_of_mem_take hmem)).2
    rw [InfoElement.isOwn, Bool.and_eq_true] at he
    exact of_decide_eq_true he.2 (of_decide_eq_true hcap)
  rw [(newElements_perm hssid sub).count_eq, count_append, count_append, count_append, hfirst, hcaps,
    count_filter he]
  omega

theorem head?_newElements {ssid : InfoElement} (h : sub.find? (·.id = WLAN_EID_SSID) = some ssid) :
    (newElements ie sub).head? = some ssid := by
  rw [newElements, h]
  rfl

/-- **When the right elements come out**: where the function finds its way, if and only if the
condition holds. -/
theorem genNewIe_exact (ie sub : List InfoElement) :
    (Readable ie sub ∧ Generable ie sub → GeneratesRight ie sub) ∧
    (Readable ie sub → GeneratesRight ie sub → Generable ie sub) := by
  constructor
  · rintro ⟨hread, hgen⟩
    have hroom := length_encode_of_perm (newElements_perm hread.ssid sub)
    refine ⟨newElements ie sub, genNewIe_encode hread hgen.frame hgen.profile, ?_, ?_, ?_, ?_⟩
    · rw [hroom]
      exact hgen.room
    · intro ssid hssid
      exact head?_newElements hssid
    · intro e he hinherits hnew
      exact (mem_newElements_iff hread.ssid hnew hinherits).mpr (hgen.inherited e he hinherits hnew)
    · intro e he hown
      rw [count_newElements hread.ssid hown, count_eq_zero.mpr (hgen.own e he hown), Nat.zero_add]
  · rintro hread ⟨es, hrun, hroom, -, hinherited, hown⟩
    have hframe : behindSsid ie ≠ [] := by
      intro hnil
      rw [genNewIe_of_behindSsid_nil hnil] at hrun
      cases hrun
    have hprofile : sub ≠ [] := by
      rintro rfl
      rw [genNewIe_of_nil hread] at hrun
      cases hrun
    rw [genNewIe_encode hread hframe hprofile] at hrun
    obtain rfl := encode_injective (Option.some.inj hrun)
    refine ⟨hprofile, hframe, ?_, ?_, ?_⟩
    · intro e he hinherits hnew
      exact (mem_newElements_iff hread.ssid hnew hinherits).mp (hinherited e he hinherits hnew)
    · intro e he hisOwn hmem
      have hcount := hown e he hisOwn
      have hpos := count_pos_iff.mpr hmem
      rw [count_newElements hread.ssid hisOwn] at hcount
      omega
    · rw [← length_encode_of_perm (newElements_perm hread.ssid sub)]
      exact hroom

end

/-! ### Two frames with a second SSID -/

/-- The profile of a BSS: its capabilities, its SSID and its index. -/
def shortProfile : List InfoElement :=
  [⟨83, [2, 0], by decide⟩, ⟨0, [98], by decide⟩, ⟨85, [1], by decide⟩]

/-- A frame with this profile, and an SSID of length 0 at its end. -/
def trailingSsid : List InfoElement :=
  [⟨0, [97], by decide⟩, ⟨71, [1, 0, 10, 83, 2, 2, 0, 0, 1, 98, 85, 1, 1], by decide⟩, ⟨0, [], by decide⟩]

/-- The same SSID in front of the channel. -/
def ssidBeforeChannel : List InfoElement :=
  [⟨0, [97], by decide⟩, ⟨71, [1, 0, 10, 83, 2, 2, 0, 0, 1, 98, 85, 1, 1], by decide⟩, ⟨0, [], by decide⟩,
    ⟨3, [6], by decide⟩]

/-- **The function reads a byte behind the end**, where a second SSID is the last element; one in
front of another element is lost. -/
theorem genNewIe_wrong : genNewIe (encode trailingSsid) (encode shortProfile) = none ∧
    ¬GeneratesRight trailingSsid shortProfile ∧ ¬GeneratesRight ssidBeforeChannel shortProfile := by
  have hnone : genNewIe (encode trailingSsid) (encode shortProfile) = none := by decide +kernel
  refine ⟨hnone, ?_, ?_⟩
  · rintro ⟨es, hrun, -⟩
    rw [hnone] at hrun
    cases hrun
  · rintro ⟨es, hrun, -, -, hinherited, -⟩
    have hlost : genNewIe (encode ssidBeforeChannel) (encode shortProfile) =
        some (encode [⟨0, [98], by decide⟩, ⟨85, [1], by decide⟩]) := by decide +kernel
    rw [hlost] at hrun
    obtain rfl := encode_injective (Option.some.inj hrun)
    have hmem := hinherited ⟨3, [6], by decide⟩ (by decide) rfl ?_
    · exact absurd hmem (by decide)
    · intro new hnew hoverrides
      have hid : ∀ e ∈ shortProfile, e.id ≠ 3 := by decide
      exact hid new hnew hoverrides.1

end Mac80211
