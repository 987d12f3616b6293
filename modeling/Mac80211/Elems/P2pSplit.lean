import Mac80211.Elems.NewIeElements
import Mac80211.Elems.P2p

/-!
# P2P attributes across elements

What `cfg80211_get_p2p_attr` finds does not depend on where the elements are split, as long as no
header of an attribute is. `answerFrom` is what should come out when the rest of an attribute is
still to come.

## Main results

* `p2p_right` — the first attribute of this kind is found
-/

namespace Mac80211

open List

/-! ### Answers -/

/-- What should come out. -/
inductive Answer where
  | found (value : List UInt8)
  | missing
  | malformed

/-- For the attributes in a list of bytes. -/
def answer (attr : ℕ) (bs : List UInt8) : Answer :=
  match firstAttr attr bs with
  | some value => .found value
  | none =>
    match (parseAttrs bs).2 with
    | .complete => .missing
    | .cutHeader => .malformed
    | .cutValue id => if id = attr then .malformed else .missing

/-- In the middle of an attribute. -/
def answerFrom (attr r : ℕ) (desired : Bool) (c bs : List UInt8) : Answer :=
  if r = 0 then answer attr bs
  else if bs.length < r then if desired then .malformed else .missing
  else if desired then .found (c ++ bs.take r)
  else answer attr (bs.drop r)

/-- What is returned, and what is in the buffer, are the answer. -/
def IsAnswer (buf : Bool) (bufsize : ℕ) (res : ℤ × P2pState) : Answer → Prop
  | .found value => res.1 = value.length ∧ (buf = true → res.2.out = some (value.take bufsize))
  | .missing => res.1 = -ENOENT
  | .malformed => res.1 = -EILSEQ

/-- They are, and there is not too much in the buffer. -/
def Matches (buf : Bool) (bufsize : ℕ) (res : ℤ × P2pState) (ans : Answer) : Prop :=
  IsAnswer buf bufsize res ans ∧ ∀ out, res.2.out = some out → out.length ≤ bufsize

/-- The value so far is `c`. -/
structure Copied (buf : Bool) (bufsize : ℕ) (st : P2pState) (c : List UInt8) : Prop where
  len : st.desiredLen = c.length
  none : buf = false → st.out = none
  out : buf = true → st.out = some (c.take bufsize) ∧ st.bufsize = bufsize - c.length

section Answers

variable {attr r : ℕ} {desired : Bool} {c bs : List UInt8} {id lo hi : UInt8}

theorem answer_nil : answer attr [] = .missing := by simp [answer, firstAttr, parseAttrs]

theorem answer_header (attr : ℕ) (id lo hi : UInt8) (bs : List UInt8) :
    answer attr (id :: lo :: hi :: bs) =
      if bs.length < lo.toNat + hi.toNat * 256 then if id.toNat = attr then .malformed else .missing
      else if id.toNat = attr then .found (bs.take (lo.toNat + hi.toNat * 256))
      else answer attr (bs.drop (lo.toNat + hi.toNat * 256)) := by
  by_cases hlt : bs.length < lo.toNat + hi.toNat * 256
  · have hparse : parseAttrs (id :: lo :: hi :: bs) = ([], .cutValue id.toNat) := by rw [parseAttrs, if_pos hlt]
    rw [if_pos hlt, answer, firstAttr, hparse]
    rfl
  · have hparse : parseAttrs (id :: lo :: hi :: bs) =
        ((id.toNat, bs.take (lo.toNat + hi.toNat * 256)) :: (parseAttrs (bs.drop (lo.toNat + hi.toNat * 256))).1,
          (parseAttrs (bs.drop (lo.toNat + hi.toNat * 256))).2) := by rw [parseAttrs, if_neg hlt]
    rw [if_neg hlt, answer, firstAttr, hparse]
    by_cases hid : id.toNat = attr
    · simp [hid]
    · simp [hid, answer, firstAttr]

theorem answer_short (hne : bs ≠ []) (hshort : bs.length < 3) : answer attr bs = .malformed := by
  match bs, hne, hshort with
  | [_], _, _ => simp [answer, firstAttr, parseAttrs]
  | [_, _], _, _ => simp [answer, firstAttr, parseAttrs]

theorem answer_header_eq (attr : ℕ) (id lo hi : UInt8) (bs : List UInt8) (hpos : 0 < lo.toNat + hi.toNat * 256) :
    answer attr (id :: lo :: hi :: bs) =
      answerFrom attr (lo.toNat + hi.toNat * 256) (id.toNat = attr) [] bs := by
  have hne : lo.toNat + hi.toNat * 256 ≠ 0 := by omega
  rw [answer_header, answerFrom, if_neg hne]
  by_cases hid : id.toNat = attr
  · simp only [hid, if_true, decide_true, nil_append]
  · simp only [hid, if_false, decide_false, Bool.false_eq_true]

theorem answerFrom_append {p bs : List UInt8} (hlt : p.length < r) :
    answerFrom attr r desired c (p ++ bs) = answerFrom attr (r - p.length) desired (c ++ p) bs := by
  have hr : r ≠ 0 := by omega
  have hrest : r - p.length ≠ 0 := by omega
  have hiff : p.length + bs.length < r ↔ bs.length < r - p.length := by omega
  rw [answerFrom, answerFrom, if_neg hr, if_neg hrest, length_append, take_append, drop_append,
    take_of_length_le hlt.le, drop_eq_nil_of_le hlt.le, nil_append, append_assoc]
  simp only [hiff]

end Answers

/-! ### Headers that are whole -/

variable {id lo hi : UInt8}

section Whole

variable {r : ℕ} {p q : List UInt8} {ps : List (List UInt8)}

theorem WholeHeadersFrom.next (h : WholeHeadersFrom r (p :: ps)) (hle : p.length ≤ r) :
    WholeHeadersFrom (r - p.length) ps := by
  intro o ho n hlt htotal
  have hdrop : (p :: ps).flatten.drop r = ps.flatten.drop (r - p.length) := by
    rw [flatten_cons, drop_append, drop_eq_nil_of_le hle, nil_append]
  have hwhole := h o (by rw [hdrop]; exact ho) (n + 1)
  rw [take_succ_cons, flatten_cons, flatten_cons, length_append, length_append] at hwhole
  have := hwhole (by omega) (by omega)
  omega

theorem WholeHeadersFrom.drop (h : WholeHeadersFrom r (p :: ps)) (hle : r ≤ p.length) :
    WholeHeadersFrom 0 (p.drop r :: ps) := by
  intro o ho n hlt htotal
  have hdrop : (p.drop r :: ps).flatten = (p :: ps).flatten.drop r := by
    rw [flatten_cons, flatten_cons, drop_append_of_le_length hle]
  rw [drop_zero, hdrop] at ho
  rcases n with _ | n
  · simp at hlt
  rw [take_succ_cons, flatten_cons, length_append, length_drop] at hlt htotal ⊢
  have hwhole := h o ho (n + 1)
  rw [take_succ_cons, flatten_cons, flatten_cons, length_append, length_append] at hwhole
  rw [flatten_cons, length_append, length_drop] at htotal
  have := hwhole (by omega) (by omega)
  omega

theorem WholeHeadersFrom.header (h : WholeHeadersFrom 0 ((id :: lo :: hi :: q) :: ps)) :
    WholeHeadersFrom (3 + (lo.toNat + hi.toNat * 256)) ((id :: lo :: hi :: q) :: ps) := by
  intro o ho n hlt htotal
  have hflat : ((id :: lo :: hi :: q) :: ps).flatten = id :: lo :: hi :: (q ++ ps.flatten) := rfl
  have hmem : o + (3 + (lo.toNat + hi.toNat * 256)) ∈ headers (((id :: lo :: hi :: q) :: ps).flatten.drop 0) := by
    rw [drop_zero, hflat, headers]
    refine mem_cons_of_mem 0 (mem_map_of_mem ?_)
    rw [hflat, ← drop_drop] at ho
    exact ho
  have := h _ hmem n (by omega) htotal
  omega

instance (r : ℕ) (pieces : List (List UInt8)) : Decidable (WholeHeadersFrom r pieces) :=
  decidable_of_iff (∀ o ∈ headers (pieces.flatten.drop r), ∀ n < pieces.length,
      r + o < (pieces.take n).flatten.length → (pieces.take n).flatten.length < pieces.flatten.length →
      r + o + 3 ≤ (pieces.take n).flatten.length) <| by
    constructor
    · intro h o ho n hlt htotal
      by_cases hn : n < pieces.length
      · exact h o ho n hn hlt htotal
      · rw [take_of_length_le (Nat.le_of_not_lt hn)] at htotal
        exact absurd htotal (Nat.lt_irrefl _)
    · intro h o ho n _
      exact h o ho n

instance (es : List InfoElement) : Decidable (WholeHeaders es) :=
  inferInstanceAs (Decidable (WholeHeadersFrom 0 (p2pPayloads es)))

theorem WholeHeadersFrom.short (h : WholeHeadersFrom 0 (q :: ps)) (hne : q ≠ []) (hshort : q.length < 3) :
    ps.flatten = [] := by
  have hmem : 0 ∈ headers ((q :: ps).flatten.drop 0) := by
    rw [drop_zero, flatten_cons]
    obtain ⟨b, q, rfl⟩ := exists_cons_of_ne_nil hne
    rw [cons_append]
    unfold headers
    split <;> simp_all
  have hwhole := h 0 hmem 1
  have hpos := length_pos_iff.mpr hne
  simp only [take_succ_cons, take_zero, flatten_cons, flatten_nil, append_nil,
    length_append] at hwhole
  apply eq_nil_of_length_eq_zero
  omega

end Whole

/-! ### The loops -/

section Loops

variable {attr bufsize : ℕ} {buf : Bool} {st : P2pState} {c : List UInt8}

theorem Copied.copy (h : Copied buf bufsize st c) {iedata : List UInt8} {n : ℕ} (hn : n ≤ iedata.length)
    (hfits : c.length + n < 2 ^ 16) : Copied buf bufsize (st.copy iedata n) (c ++ iedata.take n) := by
  have hlen : (st.copy iedata n).desiredLen = (c ++ iedata.take n).length := by
    have hmod : (st.copy iedata n).desiredLen = (st.desiredLen + n) % 2 ^ 16 := by
      rw [P2pState.copy]
      dsimp only
      split <;> rfl
    rw [hmod, h.len, Nat.mod_eq_of_lt hfits, length_append, length_take_of_le hn]
  refine ⟨hlen, ?_, ?_⟩
  · intro hbuf
    rw [P2pState.copy, h.none hbuf]
  · intro hbuf
    obtain ⟨hout, hsize⟩ := h.out hbuf
    rw [P2pState.copy, hout, hsize]
    dsimp only
    rw [take_append, take_take, length_append, length_take_of_le hn]
    exact ⟨rfl, by omega⟩

theorem copy_desiredAttr (iedata : List UInt8) (n : ℕ) : (st.copy iedata n).desiredAttr = st.desiredAttr := by
  rw [P2pState.copy]
  dsimp only
  split <;> rfl

theorem Copied.bounded (h : Copied buf bufsize st c) {out : List UInt8} (hout : st.out = some out) :
    out.length ≤ bufsize := by
  cases hbuf : buf with
  | false =>
    rw [h.none hbuf] at hout
    cases hout
  | true =>
    rw [(h.out hbuf).1] at hout
    cases hout
    exact length_take_le bufsize c

theorem Copied.matches (h : Copied buf bufsize st c) :
    Matches buf bufsize ((st.desiredLen : ℤ), st) (.found c) :=
  ⟨⟨by rw [h.len], fun hbuf => (h.out hbuf).1⟩, fun _ => h.bounded⟩

/-- Where the function is between two elements: in the middle of an attribute, if `attrRemaining` is not 0. -/
structure Between (attr : ℕ) (buf : Bool) (bufsize : ℕ) (st : P2pState) (ps : List (List UInt8)) (ans : Answer) :
    Prop where
  whole : WholeHeadersFrom st.attrRemaining ps
  value : ∃ c, Copied buf bufsize st c ∧ c.length + st.attrRemaining < 2 ^ 16 ∧
    (st.attrRemaining = 0 ∨ st.desiredAttr = false → c = []) ∧
    ans = answerFrom attr st.attrRemaining st.desiredAttr c ps.flatten

/-- What is right of a part of the function. -/
def StepRight (attr : ℕ) (buf : Bool) (bufsize : ℕ) (ps : List (List UInt8)) (ans : Answer) : P2pStep → Prop
  | .ret ret st => Matches buf bufsize (ret, st) ans
  | .cont st => Between attr buf bufsize st ps ans

variable {q : List UInt8}

theorem p2pAttributes_short (hne : q ≠ []) (hshort : q.length < 3) :
    p2pAttributes attr q st = .ret (-EILSEQ) st := by
  match q, hne, hshort with
  | [_], _, _ => simp [p2pAttributes]
  | [_, _], _, _ => simp [p2pAttributes]

theorem p2pAttributes_desired {id lo hi : UInt8} {q : List UInt8} (hid : id.toNat = attr) :
    p2pAttributes attr (id :: lo :: hi :: q) st =
      let attrLen := lo.toNat + hi.toNat * 256
      let st := { st with desiredAttr := true }.copy q (min attrLen q.length)
      if min attrLen q.length = attrLen then .ret st.desiredLen st
      else p2pAttributes attr (q.drop (min attrLen q.length))
        { st with attrRemaining := attrLen - min attrLen q.length } := by
  rw [p2pAttributes]
  simp only [hid, decide_true, if_true, Bool.true_and, decide_eq_true_eq]

theorem p2pAttributes_other {id lo hi : UInt8} {q : List UInt8} (hid : id.toNat ≠ attr) :
    p2pAttributes attr (id :: lo :: hi :: q) st =
      let attrLen := lo.toNat + hi.toNat * 256
      p2pAttributes attr (q.drop (min attrLen q.length))
        { st with
          desiredAttr := false
          attrRemaining := attrLen - min attrLen q.length } := by
  rw [p2pAttributes]
  simp only [hid, decide_false, Bool.false_and, Bool.false_eq_true, if_false]

/-- **The attributes of one element.** -/
theorem p2pAttributes_spec {ps : List (List UInt8)} (q : List UInt8) (hst : Copied buf bufsize st [])
    (hzero : st.attrRemaining = 0) (hwhole : WholeHeadersFrom 0 (q :: ps)) :
    StepRight attr buf bufsize ps (answer attr (q ++ ps.flatten)) (p2pAttributes attr q st) := by
  induction hn : q.length using Nat.strong_induction_on generalizing q st with
  | _ n ih =>
    have hempty : ∀ st' : P2pState, p2pAttributes attr [] st' = .cont st' := fun st' => by rw [p2pAttributes]
    rcases Nat.eq_zero_or_pos q.length with hnil | hpos
    · obtain rfl := eq_nil_of_length_eq_zero hnil
      rw [hempty]
      refine ⟨?_, [], hst, by rw [hzero]; decide, fun _ => rfl, ?_⟩
      · rw [hzero]
        exact hwhole.next (Nat.le_refl 0)
      · rw [hzero, answerFrom, if_pos rfl, nil_append]
    rcases Nat.lt_or_ge q.length 3 with hshort | hlong
    · have hne := length_pos_iff.mp hpos
      rw [p2pAttributes_short hne hshort, hwhole.short hne hshort, append_nil, answer_short hne hshort]
      exact ⟨rfl, fun _ => hst.bounded⟩
    obtain ⟨id, lo, hi, q, rfl⟩ : ∃ id lo hi q', q = id :: lo :: hi :: q' := by
      rcases q with _ | ⟨id, _ | ⟨lo, _ | ⟨hi, q⟩⟩⟩
      · simp at hlong
      · simp at hlong
      · simp at hlong
      · exact ⟨id, lo, hi, q, rfl⟩
    have hdesired : Copied buf bufsize { st with desiredAttr := true } [] := ⟨hst.len, hst.none, hst.out⟩
    have hnext := hwhole.header
    have hfits : lo.toNat + hi.toNat * 256 < 2 ^ 16 := by
      have hlo := lo.toNat_lt
      have hhi := hi.toNat_lt
      omega
    rw [length_cons, length_cons, length_cons] at hn
    rcases Nat.lt_or_ge q.length (lo.toNat + hi.toNat * 256) with hlt | hle
    · -- the value goes on in the next element
      have hmin : min (lo.toNat + hi.toNat * 256) q.length = q.length := Nat.min_eq_right hlt.le
      have hleft : 3 + (lo.toNat + hi.toNat * 256) - (id :: lo :: hi :: q).length =
          lo.toNat + hi.toNat * 256 - q.length := by
        rw [length_cons, length_cons, length_cons]
        omega
      have hrest : WholeHeadersFrom (lo.toNat + hi.toNat * 256 - q.length) ps := by
        rw [← hleft]
        refine hnext.next ?_
        rw [length_cons, length_cons, length_cons]
        omega
      have hans := answer_header_eq attr id lo hi (q ++ ps.flatten) (by omega)
      rw [answerFrom_append hlt, nil_append] at hans
      rw [cons_append, cons_append, cons_append, hans]
      by_cases hid : id.toNat = attr
      · rw [p2pAttributes_desired hid]
        dsimp only
        rw [hmin, if_neg hlt.ne, drop_length, hempty]
        have hcopied : Copied buf bufsize ({ st with desiredAttr := true }.copy q q.length) ([] ++ q.take q.length) :=
          hdesired.copy (Nat.le_refl _) (by rw [length_nil]; omega)
        rw [take_length, nil_append] at hcopied
        refine ⟨hrest, q, ⟨hcopied.len, hcopied.none, hcopied.out⟩, ?_, ?_, ?_⟩
        · show q.length + (lo.toNat + hi.toNat * 256 - q.length) < 2 ^ 16
          omega
        · rintro (h | h)
          · have hzero : lo.toNat + hi.toNat * 256 - q.length = 0 := h
            omega
          · rw [copy_desiredAttr] at h
            cases h
        · dsimp only
          rw [copy_desiredAttr, decide_eq_true hid]
      · rw [p2pAttributes_other hid]
        dsimp only
        rw [hmin, drop_length, hempty]
        refine ⟨hrest, [], ⟨hst.len, hst.none, hst.out⟩, ?_, fun _ => rfl, ?_⟩
        · show 0 + (lo.toNat + hi.toNat * 256 - q.length) < 2 ^ 16
          omega
        · dsimp only
          rw [decide_eq_false hid]
          rfl
    · -- the value ends in this element
      have hmin : min (lo.toNat + hi.toNat * 256) q.length = lo.toNat + hi.toNat * 256 := Nat.min_eq_left hle
      have hnot : ¬(q ++ ps.flatten).length < lo.toNat + hi.toNat * 256 := by
        rw [length_append]
        omega
      rw [cons_append, cons_append, cons_append, answer_header, if_neg hnot]
      by_cases hid : id.toNat = attr
      · rw [p2pAttributes_desired hid, if_pos hid]
        dsimp only
        rw [hmin, if_pos rfl, take_append_of_le_length hle]
        exact (hdesired.copy hle (by rw [length_nil]; omega)).matches
      · rw [p2pAttributes_other hid, if_neg hid]
        dsimp only
        rw [hmin, Nat.sub_self, drop_append_of_le_length hle]
        refine ih (q.drop (lo.toNat + hi.toNat * 256)).length ?_ _ ⟨hst.len, hst.none, hst.out⟩ rfl ?_ rfl
        · rw [length_drop]
          omega
        · have hdrop := hnext.drop (by
            rw [length_cons, length_cons, length_cons]
            omega)
          rw [← drop_drop] at hdrop
          exact hdrop

theorem p2pElement_other {e : InfoElement} (he : e.isP2p = false) : p2pElement attr e.id e.data st = .cont st := by
  rw [p2pElement]
  split
  · rfl
  rename_i hid
  split
  · rfl
  split
  · rfl
  · rename_i hoi
    rw [not_not] at hid hoi
    simp [InfoElement.isP2p, hid, hoi] at he

/-- **One P2P element.** -/
theorem p2pElement_spec {e : InfoElement} {ps : List (List UInt8)} {ans : Answer} (he : e.isP2p = true)
    (h : Between attr buf bufsize st (e.data.drop 4 :: ps) ans) :
    StepRight attr buf bufsize ps ans (p2pElement attr e.id e.data st) := by
  obtain ⟨hid, hoi⟩ : e.id = WLAN_EID_VENDOR_SPECIFIC ∧ e.data.take 4 = [0x50, 0x6f, 0x9a, 0x09] := by
    simpa [InfoElement.isP2p] using he
  have hlen : ¬e.data.length < 4 := by
    have := congrArg List.length hoi
    rw [length_take] at this
    simp only [length_cons, length_nil] at this
    omega
  obtain ⟨c, hc, hfits, hnil, rfl⟩ := h.value
  have hwhole := h.whole
  rw [p2pElement, if_neg (not_not.mpr hid), if_neg hlen, if_neg (not_not.mpr hoi), flatten_cons]
  generalize e.data.drop 4 = p at hwhole ⊢
  dsimp only
  rcases Nat.lt_or_ge p.length st.attrRemaining with hlt | hle
  · -- all of the element belongs to the attribute
    have hmin : min st.attrRemaining p.length = p.length := Nat.min_eq_right hlt.le
    have hleft : st.attrRemaining - p.length ≠ 0 := by omega
    rw [hmin, decide_eq_false hleft, Bool.and_false, if_neg (by decide), if_pos hleft, answerFrom_append hlt]
    have hrest : WholeHeadersFrom (st.attrRemaining - p.length) ps := hwhole.next hlt.le
    cases hd : st.desiredAttr with
    | false =>
      rw [Bool.and_false, if_neg (by decide)]
      refine ⟨hrest, c, ⟨hc.len, hc.none, hc.out⟩, ?_, fun _ => hnil (.inr hd), ?_⟩
      · show c.length + (st.attrRemaining - p.length) < 2 ^ 16
        omega
      · dsimp only
        rw [hd]
        rfl
    | true =>
      rw [Bool.and_true]
      by_cases hp : p.length = 0
      · obtain rfl := eq_nil_of_length_eq_zero hp
        rw [if_neg (by simp)]
        refine ⟨hrest, c, ⟨hc.len, hc.none, hc.out⟩, hfits, ?_, ?_⟩
        · rintro (hzero | hfalse)
          · exact absurd hzero hleft
          · exact absurd (hfalse.symm.trans hd) (by decide)
        · dsimp only
          rw [append_nil, hd]
      · rw [if_pos (by simpa using hp)]
        have hcopied := hc.copy (Nat.le_refl p.length) (by omega)
        rw [take_length] at hcopied
        refine ⟨hrest, c ++ p, ⟨hcopied.len, hcopied.none, hcopied.out⟩, ?_, ?_, ?_⟩
        · show (c ++ p).length + (st.attrRemaining - p.length) < 2 ^ 16
          rw [length_append]
          omega
        · rintro (hzero | hfalse)
          · exact absurd hzero hleft
          · rw [copy_desiredAttr] at hfalse
            exact absurd (hfalse.symm.trans hd) (by decide)
        · dsimp only
          rw [copy_desiredAttr, hd]
  · -- the attribute ends in this element
    have hmin : min st.attrRemaining p.length = st.attrRemaining := Nat.min_eq_left hle
    have hrest : WholeHeadersFrom 0 (p.drop st.attrRemaining :: ps) := hwhole.drop hle
    have hnot : ¬(p ++ ps.flatten).length < st.attrRemaining := by
      rw [length_append]
      omega
    rw [hmin, Nat.sub_self, decide_eq_true rfl, Bool.and_true, if_neg (not_not.mpr rfl)]
    by_cases hd : st.attrRemaining ≠ 0 ∧ st.desiredAttr = true
    · obtain ⟨hne, hd⟩ := hd
      rw [answerFrom, if_neg hne, if_neg hnot, if_pos hd, hd, decide_eq_true hne, Bool.and_true, if_pos rfl, if_pos rfl,
        take_append_of_le_length hle]
      exact (hc.copy hle hfits).matches
    · have hfalse : (decide (st.attrRemaining ≠ 0) && st.desiredAttr) = false := by
        rw [Bool.and_eq_false_iff]
        by_cases hzero : st.attrRemaining = 0
        · exact .inl (decide_eq_false (not_not.mpr hzero))
        · exact .inr (Bool.eq_false_iff.mpr fun hd' => hd ⟨hzero, hd'⟩)
      have hnone : c = [] := by
        apply hnil
        by_cases hzero : st.attrRemaining = 0
        · exact .inl hzero
        · exact .inr (Bool.eq_false_iff.mpr fun hd' => hd ⟨hzero, hd'⟩)
      subst hnone
      have hans : answerFrom attr st.attrRemaining st.desiredAttr [] (p ++ ps.flatten) =
          answer attr (p.drop st.attrRemaining ++ ps.flatten) := by
        rw [answerFrom]
        by_cases hzero : st.attrRemaining = 0
        · rw [if_pos hzero, hzero, drop_zero]
        · rw [if_neg hzero, if_neg hnot, if_neg fun hd' => hd ⟨hzero, hd'⟩, drop_append_of_le_length hle]
      rw [hans, hfalse, if_neg (by decide), if_neg (by decide)]
      exact p2pAttributes_spec (p.drop st.attrRemaining) ⟨hc.len, hc.none, hc.out⟩ rfl hrest

/-- **All elements.** -/
theorem p2pElements_spec (es : List InfoElement) {ans : Answer} (h : Between attr buf bufsize st (p2pPayloads es) ans) :
    Matches buf bufsize (p2pElements attr (encode es) st) ans := by
  induction es generalizing st with
  | nil =>
    obtain ⟨c, hc, -, -, rfl⟩ := h.value
    rw [encode_nil, p2pElements]
    show Matches buf bufsize _ (answerFrom attr st.attrRemaining st.desiredAttr c [])
    rw [answerFrom]
    by_cases hzero : st.attrRemaining = 0
    · rw [if_pos hzero, answer_nil, if_neg (by simp [hzero])]
      exact ⟨rfl, fun _ => hc.bounded⟩
    · have hpos : ([] : List UInt8).length < st.attrRemaining := Nat.pos_of_ne_zero hzero
      rw [if_neg hzero, if_pos hpos]
      cases hd : st.desiredAttr with
      | false =>
        rw [if_neg (by simp), if_neg (by simp)]
        exact ⟨rfl, fun _ => hc.bounded⟩
      | true =>
        rw [if_pos (by simp [hzero]), if_pos rfl]
        exact ⟨rfl, fun _ => hc.bounded⟩
  | cons e es ih =>
    have hnot : ¬(e.data ++ encode es).length < e.data.length := by
      rw [length_append]
      omega
    rw [encode_cons, p2pElements, e.toNat_length, if_neg hnot, take_left, drop_left]
    cases he : e.isP2p with
    | false =>
      rw [p2pElement_other he]
      have hsame : p2pPayloads (e :: es) = p2pPayloads es := by
        rw [p2pPayloads, filter_cons_of_neg (by simp [he])]
        rfl
      rw [hsame] at h
      exact ih h
    | true =>
      have hcons : p2pPayloads (e :: es) = e.data.drop 4 :: p2pPayloads es := by
        rw [p2pPayloads, filter_cons_of_pos he]
        rfl
      rw [hcons] at h
      have hstep := p2pElement_spec he h
      cases hres : p2pElement attr e.id e.data st with
      | ret ret st' =>
        rw [hres] at hstep
        exact hstep
      | cont st' =>
        rw [hres] at hstep
        exact ih hstep

end Loops

/-- **What is found does not depend on where the elements are split**, if no header of an attribute
is. -/
theorem p2p_right {es : List InfoElement} (attr : ℕ) (buf : Bool) (bufsize : ℕ) (h : WholeHeaders es) :
    P2pRight attr buf bufsize (p2pPayloads es).flatten (cfg80211GetP2pAttr (encode es) attr buf bufsize) := by
  have hstart : Between attr buf bufsize { out := if buf then some [] else none
                                           bufsize := bufsize } (p2pPayloads es)
      (answer attr (p2pPayloads es).flatten) := by
    have hzero : 0 + 0 < 2 ^ 16 := by decide
    refine ⟨h, [], ⟨rfl, ?_, ?_⟩, hzero, fun _ => rfl, rfl⟩
    · rintro rfl
      rfl
    · rintro rfl
      exact ⟨by rw [take_nil]; rfl, rfl⟩
  obtain ⟨hans, hbounded⟩ := p2pElements_spec es hstart
  rw [cfg80211GetP2pAttr]
  generalize p2pElements attr (encode es) _ = res at hans hbounded
  generalize (p2pPayloads es).flatten = bs at hans
  rw [answer] at hans
  cases hfirst : firstAttr attr bs with
  | some value =>
    rw [hfirst] at hans
    obtain ⟨hret, hout⟩ := hans
    refine ⟨?_, ?_, ?_, hbounded⟩
    · intro value' hvalue'
      cases hfirst.symm.trans hvalue'
      exact ⟨hret, hout⟩
    · refine iff_of_false ?_ fun hnone => by cases hfirst.symm.trans hnone.1
      rw [hret, ENOENT]
      omega
    · intro hnone
      cases hfirst.symm.trans hnone
  | none =>
    rw [hfirst] at hans
    have hnone : ∀ value, (none : Option (List UInt8)) = some value →
        res.1 = value.length ∧ (buf = true → res.2.out = some (value.take bufsize)) := by
      rintro value ⟨⟩
    cases hlast : (parseAttrs bs).2 with
    | complete =>
      rw [hlast] at hans
      refine ⟨?_, ?_, ?_, hbounded⟩ <;> rw [hfirst]
      · exact hnone
      · exact iff_of_true hans ⟨rfl, .inl hlast⟩
      · intro _ hend
        rcases hend with hend | hend <;> cases hlast.symm.trans hend
    | cutHeader =>
      rw [hlast] at hans
      have hret : res.1 = -EILSEQ := hans
      refine ⟨?_, ?_, ?_, hbounded⟩ <;> rw [hfirst]
      · exact hnone
      · refine iff_of_false ?_ ?_
        · rw [hret]
          decide
        · rintro ⟨-, hend | ⟨id, hend, -⟩⟩ <;> cases hlast.symm.trans hend
      · exact fun _ _ => hret
    | cutValue id =>
      rw [hlast] at hans
      by_cases hid : id = attr
      · have hret : res.1 = -EILSEQ := by
          dsimp only at hans
          rw [if_pos hid] at hans
          exact hans
        refine ⟨?_, ?_, ?_, hbounded⟩ <;> rw [hfirst]
        · exact hnone
        · refine iff_of_false ?_ ?_
          · rw [hret]
            decide
          · rintro ⟨-, hend | ⟨id', hend, hne⟩⟩
            · cases hlast.symm.trans hend
            · cases hlast.symm.trans hend
              exact hne hid
        · exact fun _ _ => hret
      · have hret : res.1 = -ENOENT := by
          dsimp only at hans
          rw [if_neg hid] at hans
          exact hans
        refine ⟨?_, ?_, ?_, hbounded⟩ <;> rw [hfirst]
        · exact hnone
        · exact iff_of_true hret ⟨rfl, .inr ⟨id, hlast, hid⟩⟩
        · intro _ hend
          rcases hend with hend | hend
          · cases hlast.symm.trans hend
          · cases hlast.symm.trans hend
            exact absurd rfl hid

/-- The payload of a P2P element. -/
def p2pElementOf (payload : List UInt8) (h : payload.length < 252) : InfoElement where
  id := WLAN_EID_VENDOR_SPECIFIC
  data := [0x50, 0x6f, 0x9a, 0x09] ++ payload
  fits := by
    simp only [cons_append, nil_append, length_cons]
    omega

/-- Attribute 2 with two bytes, the second one in the next element. -/
def splitElements : List InfoElement := [p2pElementOf [2, 2, 0, 0x25] (by decide), p2pElementOf [0x01] (by decide)]

/-- There is room for three bytes. -/
theorem p2p_right_split :
    cfg80211GetP2pAttr (encode splitElements) 2 true 3 = (2, some [0x25, 0x01]) ∧
      P2pRight 2 true 3 (p2pPayloads splitElements).flatten (cfg80211GetP2pAttr (encode splitElements) 2 true 3) :=
  ⟨by decide +kernel, p2p_right 2 true 3 (by decide +kernel)⟩

/-- Attribute 5, with one byte of ten. -/
def cutElements : List InfoElement := [p2pElementOf [5, 10, 0, 1] (by decide)]

/-- **Part of an attribute counts as none, if another one is looked for**: attribute 2 is not there,
and the attributes do not parse. -/
theorem p2p_cut_value : WholeHeaders cutElements ∧
    (cfg80211GetP2pAttr (encode cutElements) 2 true 8).1 = -ENOENT ∧
    (parseAttrs (p2pPayloads cutElements).flatten).2 ≠ .complete := by
  refine ⟨by decide +kernel, by decide +kernel, by decide +kernel⟩

end Mac80211
