import Mac80211.Lib.Pieces
import Mac80211.Convert.Amsdu

/-!
# Three ways to take out a subframe

`ieee80211_amsdu_to_8023s` makes a frame of a subframe in three ways: it cuts the buffer down,
copies the bytes, or copies the first ones and takes over the rest as page fragments. Here the
buffer is in pieces, what lies in memory behind a frame is given, and the conversion keeps a record
of what it read and took.

## Main results

* `variantsAgree_iff` — when nobody sees which way was taken
-/

namespace Mac80211

open Relation Option

/-! ### Buffers -/

/-- An A-MSDU in a buffer. -/
structure AmsduBuf where
  /-- The linear part. -/
  head : List UInt8
  /-- `skb_shinfo(skb)->frags`. -/
  frags : List (List UInt8) := []
  /-- What hangs on `skb_shinfo(skb)->frag_list`. -/
  fragList : List UInt8 := []
  /-- `skb->head_frag`: the linear part is in a page. -/
  headFrag : Bool := false

namespace AmsduBuf

/-- The bytes, wherever they are. -/
def body (b : AmsduBuf) : List UInt8 := b.head ++ b.frags.flatten ++ b.fragList

/-- `skb_is_nonlinear`. -/
def nonlinear (b : AmsduBuf) : Bool := !(b.frags.flatten ++ b.fragList).isEmpty

/-- `reuse_frag`: `skb->head_frag && !skb_has_frag_list(skb)`. -/
def reuseFrag (b : AmsduBuf) : Bool := b.headFrag && b.fragList.isEmpty

/-- The buffer becomes the last frame. -/
def reuseSkb (b : AmsduBuf) : Bool := !b.nonlinear && !b.reuseFrag

end AmsduBuf

/-- The arguments, and the answers of the allocator. -/
structure AmsduCall where
  extraHeadroom : ℕ := 0
  /-- `dev_alloc_skb` found memory, by the head room and the bytes left behind the subframe header. -/
  alloc : ℕ → ℕ → Bool := fun _ _ => true
  checkDa : Option Mac := none
  checkSa : Option Mac := none

/-- `ALIGN(extra_headroom, 4)`. -/
def AmsduCall.hlen (call : AmsduCall) : ℕ := (call.extraHeadroom + 3) / 4 * 4

/-- The same call, if it is known whether the buffer becomes the last frame. -/
def AmsduCall.env (call : AmsduCall) (reuse : Bool) : AmsduEnv where
  reuseSkb := reuse
  alloc := fun n => call.alloc call.hlen (n - 14)
  checkDa := call.checkDa
  checkSa := call.checkSa

/-- What lies in memory. -/
structure AmsduMem where
  /-- `eth`, before anything is put there. -/
  stack : List UInt8
  /-- The bytes behind the linear part of a frame, by the offset of its subframe. -/
  beyond : ℕ → Vector UInt8 8

/-- What the conversion has done. -/
structure AmsduOut where
  list : List EthFrame := []
  /-- Nothing outside of a frame or of its buffer was read. -/
  inside : Bool := true
  /-- Where the payload of each frame on the list starts in the buffer, and its declared length. -/
  spans : List (ℕ × ℕ) := []

/-- `__skb_queue_purge`. -/
def AmsduOut.purge (out : AmsduOut) : AmsduOut := { out with list := [], spans := [] }

/-- `skb_copy_bits`: out of range, it leaves the destination alone. -/
def skbCopyBits (bs : List UInt8) (offset n : ℕ) (old : List UInt8) : List UInt8 :=
  if bs.length < offset + n then old else (bs.drop offset).take n

/-! ### The conversion -/

/-- `__ieee80211_amsdu_copy_frag`: the fragments of the frame. There is no result if it walks over the last
fragment of the buffer. -/
def amsduCopyFrag (b : AmsduBuf) (offset len : ℕ) : Option (List (List UInt8)) :=
  Pieces.cut (Pieces.seek (b.head :: b.frags) offset) len

/-- `__ieee80211_amsdu_copy`: the linear part of the frame and its fragments. -/
def amsduCopy (call : AmsduCall) (b : AmsduBuf) (offset len : ℕ) :
    Option (List UInt8 × Option (List (List UInt8))) :=
  if b.body.length - offset < len then none
  else
    let curLen := if b.reuseFrag then min len 32 else len
    if !call.alloc call.hlen (b.body.length - offset) then none
    else
      some ((b.body.drop offset).take curLen,
        if len - curLen = 0 then some [] else amsduCopyFrag b (offset + curLen) (len - curLen))

/-- The frame gets its header and goes on the list. `beyond` is what lies behind its linear part. -/
def AmsduOut.deliver (out : AmsduOut) (dest source : Mac) (offset len : ℕ) (linear paged : List UInt8)
    (beyond : Vector UInt8 8) : AmsduOut :=
  let payload := (linear ++ beyond.toList).take 8
  let data := linear ++ paged
  let frame : EthFrame := {
    dest := dest
    source := source
    payload :=
      if stripsSnap payload then
        Bytes.be16 (Bytes.be16At payload 6) ++
          (if data.length < 8 then data else data.drop 8)
      else Bytes.be16 len ++ data }
  { list := out.list ++ [frame]
    inside := out.inside && 8 ≤ linear.length
    spans := out.spans ++ [(offset, len)] }

/-- One subframe: the conversion is over, or goes on with what is in `eth` and the next offset. -/
def amsduRound (call : AmsduCall) (b : AmsduBuf) (mem : AmsduMem) (eth : List UInt8) (offset : ℕ)
    (out : AmsduOut) : AmsduOut ⊕ List UInt8 × ℕ × AmsduOut :=
  let eth := skbCopyBits b.body offset 14 eth
  let dest := macOfBytes eth 0
  let source := macOfBytes eth 6
  let len := Bytes.be16At eth 12
  let subframeLen := 14 + len
  let padding := (4 - subframeLen % 4) % 4
  let remaining := b.body.length - offset
  if remaining < subframeLen then .inl out.purge
  else
    let offset := offset + 14
    let last : Bool := remaining ≤ subframeLen + padding
    if !(call.env b.reuseSkb).accepts dest source then
      if last then .inl out else .inr (eth, offset + len + padding, out)
    else if b.reuseSkb && last then
      .inl (out.deliver dest source offset len (b.body.drop offset) [] (mem.beyond offset))
    else
      match amsduCopy call b offset len with
      | none => .inl out.purge
      | some (linear, paged) =>
        let out := out.deliver dest source offset len linear (paged.getD []).flatten (mem.beyond offset)
        let out := { out with inside := out.inside && paged.isSome }
        if last then .inl out else .inr (eth, offset + len + padding, out)

/-- The loop. -/
def amsduVariantLoop (call : AmsduCall) (b : AmsduBuf) (mem : AmsduMem) :
    ℕ → List UInt8 → ℕ → AmsduOut → Option AmsduOut
  | 0, _, _, _ => none
  | fuel + 1, eth, offset, out =>
    match amsduRound call b mem eth offset out with
    | .inl out => some out
    | .inr (eth, offset, out) => amsduVariantLoop call b mem fuel eth offset out

/-- `ieee80211_amsdu_to_8023s`. -/
def amsduVariant (call : AmsduCall) (b : AmsduBuf) (mem : AmsduMem) : Option AmsduOut :=
  amsduVariantLoop call b mem (b.body.length + 1) mem.stack 0 {}

/-! ### Subframes of a body -/

/-- The length field of the subframe at an offset. -/
def amsduLen (body : List UInt8) (o : ℕ) : ℕ := Bytes.be16At body (o + 12)

/-- The end of the subframe. -/
def amsduEnd (body : List UInt8) (o : ℕ) : ℕ := o + (14 + amsduLen body o)

/-- The end of its padding. -/
def amsduNext (body : List UInt8) (o : ℕ) : ℕ :=
  amsduEnd body o + (4 - (14 + amsduLen body o) % 4) % 4

/-- A subframe follows the one at `o`, which ends inside of the body. -/
def AmsduFollows (body : List UInt8) (o o' : ℕ) : Prop :=
  amsduEnd body o ≤ body.length ∧ amsduNext body o < body.length ∧ o' = amsduNext body o

/-- One of the subframes is longer than what is left of the body. -/
def AmsduMalformed (body : List UInt8) : Prop :=
  ∃ o, ReflTransGen (AmsduFollows body) 0 o ∧ body.length < amsduEnd body o

namespace AmsduCall

variable (call : AmsduCall) (body : List UInt8) (o : ℕ)

/-- The subframe is for us, and from whom it should be. -/
def wants : Bool := (call.env false).accepts (macOfBytes body o) (macOfBytes body (o + 6))

/-- There is memory for a copy of the subframe. -/
def hasMemory : Bool := call.alloc call.hlen (body.length - (o + 14))

end AmsduCall

/-- The conversion goes on from one subframe to the other. -/
def AmsduGoesOn (call : AmsduCall) (body : List UInt8) (o o' : ℕ) : Prop :=
  AmsduFollows body o o' ∧ (call.wants body o → call.hasMemory body o)

/-- A subframe that is wanted and copied has room for an encapsulation header. -/
def HasSnapRoom (call : AmsduCall) (body : List UInt8) (o : ℕ) : Prop :=
  amsduEnd body o ≤ body.length → call.wants body o → call.hasMemory body o → 8 ≤ amsduLen body o

/-- If the last subframe is wanted, then there is memory for a copy of it, and no byte behind it. -/
def EndsBody (call : AmsduCall) (body : List UInt8) (o : ℕ) : Prop :=
  amsduEnd body o ≤ body.length → call.wants body o → body.length ≤ amsduNext body o →
    call.hasMemory body o ∧ amsduEnd body o = body.length

/-- The subframes the conversion gets to are such that it makes no difference how they are taken out. -/
def CleanFrom (call : AmsduCall) (body : List UInt8) (o : ℕ) : Prop :=
  ∀ o', ReflTransGen (AmsduGoesOn call body) o o' → HasSnapRoom call body o' ∧ EndsBody call body o'

/-- What a caller may expect, whatever the buffer of the body looks like. -/
structure VariantsAgree (call : AmsduCall) (body : List UInt8) : Prop where
  /-- The list is always the same. -/
  same : ∀ b b' mem mem', b.body = body → b'.body = body →
    (amsduVariant call b mem).map AmsduOut.list = (amsduVariant call b' mem').map AmsduOut.list
  /-- The conversion ends, and has read nothing outside. -/
  inside : ∀ b mem, b.body = body → ∃ out, amsduVariant call b mem = some out ∧ out.inside
  /-- What is delivered was in the body. -/
  fits : ∀ b mem out, b.body = body → amsduVariant call b mem = some out →
    ∀ span ∈ out.spans, span.1 + span.2 ≤ body.length
  /-- Nothing of a malformed A-MSDU is delivered. -/
  whole : ∀ b mem out, b.body = body → amsduVariant call b mem = some out →
    AmsduMalformed body → out.list = []

/-! ### Reading the body -/

section Reading

variable {body : List UInt8} {o : ℕ}

theorem macOfBytes_drop (body : List UInt8) (o i : ℕ) :
    macOfBytes (body.drop o) i = macOfBytes body (o + i) := by
  refine Vector.ext fun j hj => ?_
  simp only [macOfBytes, Vector.getElem_ofFn, List.getD_eq_getElem?_getD, List.getElem?_drop]
  rw [Nat.add_assoc]

theorem macOfBytes_take {i n : ℕ} (h : i + 6 ≤ n) : macOfBytes (body.take n) i = macOfBytes body i := by
  refine Vector.ext fun j hj => ?_
  simp only [macOfBytes, Vector.getElem_ofFn, List.getD_eq_getElem?_getD]
  rw [List.getElem?_take_of_lt (by omega)]

theorem be16At_drop (body : List UInt8) (o i : ℕ) :
    Bytes.be16At (body.drop o) i = Bytes.be16At body (o + i) := by
  simp only [Bytes.be16At, List.getD_eq_getElem?_getD, List.getElem?_drop]
  rw [Nat.add_assoc]

theorem be16At_take {i n : ℕ} (h : i + 2 ≤ n) : Bytes.be16At (body.take n) i = Bytes.be16At body i := by
  simp only [Bytes.be16At, List.getD_eq_getElem?_getD]
  rw [List.getElem?_take_of_lt (by omega), List.getElem?_take_of_lt (by omega)]

theorem stripsSnap_take {n : ℕ} (h : 8 ≤ n) : stripsSnap (body.take n) = stripsSnap body := by
  rw [stripsSnap, stripsSnap, be16At_take (by omega), List.take_take, Nat.min_eq_left (by omega)]

/-- The header of the subframe. -/
def amsduHeader (body : List UInt8) (o : ℕ) : List UInt8 := (body.drop o).take 14

theorem skbCopyBits_header (h : amsduEnd body o ≤ body.length) (old : List UInt8) :
    skbCopyBits body o 14 old = amsduHeader body o := by
  rw [amsduEnd] at h
  rw [skbCopyBits, if_neg (by omega), amsduHeader]

theorem amsduHeader_dest (body : List UInt8) (o : ℕ) :
    macOfBytes (amsduHeader body o) 0 = macOfBytes body o := by
  rw [amsduHeader, macOfBytes_take (by omega), macOfBytes_drop, Nat.add_zero]

theorem amsduHeader_source (body : List UInt8) (o : ℕ) :
    macOfBytes (amsduHeader body o) 6 = macOfBytes body (o + 6) := by
  rw [amsduHeader, macOfBytes_take (by omega), macOfBytes_drop]

theorem amsduHeader_len (body : List UInt8) (o : ℕ) :
    Bytes.be16At (amsduHeader body o) 12 = amsduLen body o := by
  rw [amsduHeader, be16At_take (by omega), be16At_drop, amsduLen]

/-- A header that is not there is as bad as a subframe that is too long. -/
theorem remaining_lt (h : body.length < amsduEnd body o) (old : List UInt8) :
    body.length - o < 14 + Bytes.be16At (skbCopyBits body o 14 old) 12 := by
  rw [skbCopyBits]
  rw [amsduEnd] at h
  split
  next hshort => omega
  next hlong =>
    have hlen := amsduHeader_len body o
    rw [amsduHeader] at hlen
    rw [hlen]
    omega

end Reading

/-! ### Copies -/

section Copies

variable {call : AmsduCall} {b : AmsduBuf}

theorem AmsduBuf.body_of_reuseFrag (h : b.reuseFrag = true) :
    (b.head :: b.frags).flatten = b.body := by
  rw [AmsduBuf.reuseFrag, Bool.and_eq_true, List.isEmpty_iff] at h
  rw [AmsduBuf.body, h.2, List.append_nil, List.flatten_cons]

/-- **A copy has the bytes of the body**, in one piece or not, and eight of them at hand if there are
eight. -/
theorem amsduCopy_eq (offset len : ℕ) (h : offset + len ≤ b.body.length)
    (hmem : call.alloc call.hlen (b.body.length - offset) = true) :
    ∃ linear paged, amsduCopy call b offset len = some (linear, some paged) ∧
      linear ++ paged.flatten = (b.body.drop offset).take len ∧
      (8 ≤ linear.length ↔ 8 ≤ len) := by
  have hlen : ¬b.body.length - offset < len := by omega
  rw [amsduCopy, if_neg hlen]
  simp only [hmem, Bool.not_true, Bool.false_eq_true, if_false]
  set curLen := if b.reuseFrag then min len 32 else len with hcur
  have hle : curLen ≤ len := by
    rw [hcur]
    split <;> omega
  have hlinear : ((b.body.drop offset).take curLen).length = curLen := by
    rw [List.length_take, List.length_drop]
    omega
  have height : 8 ≤ ((b.body.drop offset).take curLen).length ↔ 8 ≤ len := by
    rw [hlinear, hcur]
    split <;> omega
  split
  next hdone =>
    obtain hfull : curLen = len := by omega
    exact ⟨_, [], rfl, by rw [hfull, List.flatten_nil, List.append_nil], height⟩
  next hmore =>
    -- only with `reuse_frag` is anything left
    have hreuse : b.reuseFrag = true := by
      by_contra hno
      rw [hcur, if_neg hno] at hmore
      omega
    have hbody := b.body_of_reuseFrag hreuse
    obtain ⟨paged, hcut, hpaged⟩ :=
      Pieces.cut_seek (b.head :: b.frags) (offset + curLen) (len - curLen) (by rw [hbody]; omega)
    refine ⟨_, paged, by rw [amsduCopyFrag, hcut], ?_, height⟩
    rw [hpaged, hbody, ← List.drop_drop, ← List.take_add, Nat.add_sub_cancel' hle]

theorem amsduCopy_noMemory (offset len : ℕ)
    (hmem : call.alloc call.hlen (b.body.length - offset) = false) :
    amsduCopy call b offset len = none := by
  rw [amsduCopy]
  split
  next => rfl
  next => simp only [hmem, Bool.not_false, if_true]

end Copies

/-! ### One subframe -/

/-- The conversion is over after the last subframe. -/
def amsduGoOn (body : List UInt8) (o : ℕ) (out : AmsduOut) : AmsduOut ⊕ List UInt8 × ℕ × AmsduOut :=
  if body.length ≤ amsduNext body o then .inl out else .inr (amsduHeader body o, amsduNext body o, out)

/-- What one subframe does. -/
inductive AmsduRound (call : AmsduCall) (b : AmsduBuf) (mem : AmsduMem) (o : ℕ) (out : AmsduOut) :
    AmsduOut ⊕ List UInt8 × ℕ × AmsduOut → Prop
  | malformed : b.body.length < amsduEnd b.body o → AmsduRound call b mem o out (.inl out.purge)
  | skipped : amsduEnd b.body o ≤ b.body.length → call.wants b.body o = false →
      AmsduRound call b mem o out (amsduGoOn b.body o out)
  | reused : amsduEnd b.body o ≤ b.body.length → call.wants b.body o = true → b.reuseSkb = true →
      b.body.length ≤ amsduNext b.body o →
      AmsduRound call b mem o out (.inl (out.deliver (macOfBytes b.body o) (macOfBytes b.body (o + 6))
        (o + 14) (amsduLen b.body o) (b.body.drop (o + 14)) [] (mem.beyond (o + 14))))
  | noMemory : amsduEnd b.body o ≤ b.body.length → call.wants b.body o = true →
      ¬(b.reuseSkb = true ∧ b.body.length ≤ amsduNext b.body o) → call.hasMemory b.body o = false →
      AmsduRound call b mem o out (.inl out.purge)
  | copied (linear paged : List UInt8) : amsduEnd b.body o ≤ b.body.length →
      call.wants b.body o = true → ¬(b.reuseSkb = true ∧ b.body.length ≤ amsduNext b.body o) →
      call.hasMemory b.body o = true →
      linear ++ paged = (b.body.drop (o + 14)).take (amsduLen b.body o) →
      (8 ≤ linear.length ↔ 8 ≤ amsduLen b.body o) →
      AmsduRound call b mem o out (amsduGoOn b.body o (out.deliver (macOfBytes b.body o)
        (macOfBytes b.body (o + 6)) (o + 14) (amsduLen b.body o) linear paged (mem.beyond (o + 14))))

variable {fuel : ℕ} {eth : List UInt8} {out' : AmsduOut}

section Round

variable {call : AmsduCall} {b : AmsduBuf} {mem : AmsduMem} {body : List UInt8} {o : ℕ} {out : AmsduOut}

theorem amsduRound_spec (call : AmsduCall) (b : AmsduBuf) (mem : AmsduMem) (eth : List UInt8) (o : ℕ)
    (out : AmsduOut) : AmsduRound call b mem o out (amsduRound call b mem eth o out) := by
  by_cases hfits : amsduEnd b.body o ≤ b.body.length
  swap
  · have hlt := remaining_lt (Nat.lt_of_not_le hfits) eth
    rw [amsduRound]
    simp only [hlt, if_true]
    exact .malformed (Nat.lt_of_not_le hfits)
  have hlong : ¬b.body.length - o < 14 + amsduLen b.body o := by
    rw [amsduEnd] at hfits
    omega
  have hlast : (b.body.length - o ≤ 14 + amsduLen b.body o + (4 - (14 + amsduLen b.body o) % 4) % 4) =
      (b.body.length ≤ amsduNext b.body o) := by
    rw [amsduEnd] at hfits
    rw [amsduNext, amsduEnd, eq_iff_iff]
    omega
  have hnext : o + 14 + amsduLen b.body o + (4 - (14 + amsduLen b.body o) % 4) % 4 =
      amsduNext b.body o := by
    rw [amsduNext, amsduEnd]
    omega
  rw [amsduRound]
  simp only [skbCopyBits_header hfits, amsduHeader_dest, amsduHeader_source, amsduHeader_len, hlong,
    if_false, hlast, hnext, decide_eq_true_eq]
  split
  next hunwanted =>
    exact .skipped hfits (by rwa [Bool.not_eq_true'] at hunwanted)
  next hwanted =>
    have hwants : call.wants b.body o = true := by rwa [Bool.not_eq_true', Bool.not_eq_false] at hwanted
    split
    next hreuse =>
      rw [Bool.and_eq_true, decide_eq_true_eq] at hreuse
      exact .reused hfits hwants hreuse.1 hreuse.2
    next hreuse =>
      rw [Bool.and_eq_true, decide_eq_true_eq] at hreuse
      rcases hmem : call.hasMemory b.body o
      · rw [amsduCopy_noMemory _ _ hmem]
        exact .noMemory hfits hwants hreuse hmem
      · obtain ⟨linear, paged, hcopy, hdata, height⟩ :=
          amsduCopy_eq (o + 14) (amsduLen b.body o) (by rw [amsduEnd] at hfits; omega) hmem
        rw [hcopy]
        simp only [getD_some, isSome_some, Bool.and_true]
        exact .copied linear paged.flatten hfits hwants hreuse hmem hdata height

theorem le_amsduNext (body : List UInt8) (o : ℕ) : o + 14 ≤ amsduNext body o := by
  rw [amsduNext, amsduEnd]
  omega

theorem amsduVariantLoop_ends (hfuel : b.body.length - o < fuel) (eth : List UInt8)
    (out : AmsduOut) : ∃ out', amsduVariantLoop call b mem fuel eth o out = some out' := by
  induction fuel generalizing o eth out with
  | zero => omega
  | succ fuel ih =>
    have hstep : ∀ out', ∃ out'', (match amsduGoOn b.body o out' with
        | .inl out => some out
        | .inr (eth, o, out) => amsduVariantLoop call b mem fuel eth o out) = some out'' := by
      intro out'
      have hle := le_amsduNext b.body o
      by_cases hlast : b.body.length ≤ amsduNext b.body o
      · rw [amsduGoOn, if_pos hlast]
        exact ⟨_, rfl⟩
      · rw [amsduGoOn, if_neg hlast]
        exact ih (by omega) _ _
    have hspec := amsduRound_spec call b mem eth o out
    rw [amsduVariantLoop]
    generalize amsduRound call b mem eth o out = r at hspec ⊢
    rcases hspec with _ | _ | _ | _ | _
    · exact ⟨_, rfl⟩
    · exact hstep _
    · exact ⟨_, rfl⟩
    · exact ⟨_, rfl⟩
    · exact hstep _

/-- The rule of the loop: `I` holds before every round, and `Q` after the last one. -/
theorem amsduVariantLoop_rule (I : ℕ → AmsduOut → Prop) (Q : AmsduOut → Prop)
    (hround : ∀ o out r, I o out → AmsduRound call b mem o out r →
      r.elim Q fun next => I next.2.1 next.2.2)
    (hI : I o out)
    (hloop : amsduVariantLoop call b mem fuel eth o out = some out') : Q out' := by
  induction fuel generalizing o eth out with
  | zero => cases hloop
  | succ fuel ih =>
    have hnext := hround o out _ hI (amsduRound_spec call b mem eth o out)
    rw [amsduVariantLoop] at hloop
    generalize amsduRound call b mem eth o out = r at hnext hloop
    rcases r with done | ⟨eth', o', out''⟩
    · cases hloop
      exact hnext
    · exact ih hnext hloop

/-- **What is delivered was in the body.** -/
theorem amsduVariant_fits (hx : amsduVariant call b mem = some out) :
    ∀ span ∈ out.spans, span.1 + span.2 ≤ b.body.length := by
  refine amsduVariantLoop_rule (fun _ out => ∀ span ∈ out.spans, span.1 + span.2 ≤ b.body.length)
    (fun out => ∀ span ∈ out.spans, span.1 + span.2 ≤ b.body.length) ?_ (by simp) hx
  intro o out r hI hr
  have hdeliver : ∀ linear paged beyond, amsduEnd b.body o ≤ b.body.length →
      ∀ span ∈ (out.deliver (macOfBytes b.body o) (macOfBytes b.body (o + 6)) (o + 14)
        (amsduLen b.body o) linear paged beyond).spans, span.1 + span.2 ≤ b.body.length := by
    intro linear paged beyond hfits span hspan
    rcases List.mem_append.mp hspan with hold | hnew
    · exact hI span hold
    · obtain rfl := List.mem_singleton.mp hnew
      rw [amsduEnd] at hfits
      show o + 14 + amsduLen b.body o ≤ _
      omega
  rcases hr with _ | _ | ⟨hfits, _⟩ | _ | ⟨linear, paged, hfits, _⟩
  · simp [AmsduOut.purge]
  · rw [amsduGoOn]
    split
    · exact hI
    · exact hI
  · exact hdeliver _ _ _ hfits
  · simp [AmsduOut.purge]
  · rw [amsduGoOn]
    split
    · exact hdeliver _ _ _ hfits
    · exact hdeliver _ _ _ hfits

/-- **Nothing of a malformed A-MSDU is delivered.** The walk may end early, but only at the last
subframe. -/
theorem amsduVariant_malformed (hx : amsduVariant call b mem = some out)
    (hbad : AmsduMalformed b.body) : out.list = [] := by
  refine amsduVariantLoop_rule
    (fun o _ => ∃ o', ReflTransGen (AmsduFollows b.body) o o' ∧ b.body.length < amsduEnd b.body o')
    (fun out => out.list = []) ?_ hbad hx
  intro o out r hI hr
  -- a subframe that fits is not the malformed one
  have hgo : amsduEnd b.body o ≤ b.body.length → amsduNext b.body o < b.body.length ∧
      ∃ o', ReflTransGen (AmsduFollows b.body) (amsduNext b.body o) o' ∧
        b.body.length < amsduEnd b.body o' := by
    intro hfits
    obtain ⟨o', hreach, hlong⟩ := hI
    rcases hreach.cases_head with rfl | ⟨o₁, ⟨-, hnext, rfl⟩, hrest⟩
    · omega
    · exact ⟨hnext, o', hrest, hlong⟩
  rcases hr with _ | ⟨hfits, _⟩ | ⟨hfits, _, _, hlast⟩ | _ | ⟨_, _, hfits, _⟩
  · rfl
  · rw [amsduGoOn, if_neg (Nat.not_le_of_lt (hgo hfits).1)]
    exact (hgo hfits).2
  · exact absurd hlast (Nat.not_le_of_lt (hgo hfits).1)
  · rfl
  · rw [amsduGoOn, if_neg (Nat.not_le_of_lt (hgo hfits).1)]
    exact (hgo hfits).2

end Round

/-! ### Where the conversion gets to -/

section Reach

variable {call : AmsduCall} {body : List UInt8} {o : ℕ} {P : ℕ → Prop}

theorem forall_reach_stop (h : ¬AmsduGoesOn call body o (amsduNext body o)) :
    (∀ o', ReflTransGen (AmsduGoesOn call body) o o' → P o') ↔ P o := by
  constructor
  · intro hall
    exact hall o .refl
  · intro hP o' hreach
    rcases hreach.cases_head with rfl | ⟨o₁, hgo, -⟩
    · exact hP
    · obtain rfl := hgo.1.2.2
      exact absurd hgo h

theorem forall_reach_go (h : AmsduGoesOn call body o (amsduNext body o)) :
    (∀ o', ReflTransGen (AmsduGoesOn call body) o o' → P o') ↔
      P o ∧ ∀ o', ReflTransGen (AmsduGoesOn call body) (amsduNext body o) o' → P o' := by
  constructor
  · intro hall
    exact ⟨hall o .refl, fun o' hreach => hall o' (hreach.head h)⟩
  · rintro ⟨hP, hall⟩ o' hreach
    rcases hreach.cases_head with rfl | ⟨o₁, hgo, hrest⟩
    · exact hP
    · obtain rfl := hgo.1.2.2
      exact hall o' hrest

theorem not_goesOn_of_lt (h : body.length < amsduEnd body o) :
    ¬AmsduGoesOn call body o (amsduNext body o) :=
  fun hgo => absurd hgo.1.1 (Nat.not_le_of_lt h)

theorem not_goesOn_of_last (h : body.length ≤ amsduNext body o) :
    ¬AmsduGoesOn call body o (amsduNext body o) :=
  fun hgo => absurd hgo.1.2.1 (Nat.not_lt_of_le h)

end Reach

/-! ### What is read -/

/-- The new frame has eight bytes that can be looked at. -/
def HasPeek (call : AmsduCall) (b : AmsduBuf) (o : ℕ) : Prop :=
  amsduEnd b.body o ≤ b.body.length → call.wants b.body o →
    if b.reuseSkb = true ∧ b.body.length ≤ amsduNext b.body o then 8 ≤ b.body.length - (o + 14)
    else call.hasMemory b.body o → 8 ≤ amsduLen b.body o

section Inside

variable {call : AmsduCall} {b : AmsduBuf} {mem : AmsduMem} {o : ℕ} {out : AmsduOut}

theorem inside_deliver (out : AmsduOut) (dest source : Mac) (o len : ℕ) (linear paged : List UInt8)
    (beyond : Vector UInt8 8) : (out.deliver dest source o len linear paged beyond).inside = true ↔
      out.inside = true ∧ 8 ≤ linear.length := by
  rw [AmsduOut.deliver, Bool.and_eq_true, decide_eq_true_eq]

/-- Nothing outside was read exactly if every frame that was made had eight bytes at hand. -/
theorem inside_amsduVariantLoop (hloop : amsduVariantLoop call b mem fuel eth o out = some out') :
    out'.inside = true ↔ out.inside = true ∧
      ∀ o', ReflTransGen (AmsduGoesOn call b.body) o o' → HasPeek call b o' := by
  induction fuel generalizing o eth out with
  | zero => cases hloop
  | succ fuel ih =>
    have hspec := amsduRound_spec call b mem eth o out
    rw [amsduVariantLoop] at hloop
    generalize amsduRound call b mem eth o out = r at hspec hloop
    rcases hspec with hlong | ⟨hfits, hunwanted⟩ | ⟨hfits, hwants, hreuse, hlast⟩ |
      ⟨hfits, hwants, hcopy, hmem⟩ | ⟨linear, paged, hfits, hwants, hcopy, hmem, hdata, height⟩
    · cases hloop
      rw [forall_reach_stop (not_goesOn_of_lt hlong)]
      exact (and_iff_left fun hfits => absurd hfits (Nat.not_le_of_lt hlong)).symm
    · have hpeek : HasPeek call b o := fun _ hwants =>
        absurd hwants (Bool.eq_false_iff.mp hunwanted)
      by_cases hlast : b.body.length ≤ amsduNext b.body o
      · rw [amsduGoOn, if_pos hlast] at hloop
        cases hloop
        rw [forall_reach_stop (not_goesOn_of_last hlast)]
        exact (and_iff_left hpeek).symm
      · rw [amsduGoOn, if_neg hlast] at hloop
        have hgo : AmsduGoesOn call b.body o (amsduNext b.body o) :=
          ⟨⟨hfits, Nat.lt_of_not_le hlast, rfl⟩, fun hwants =>
            absurd hwants (Bool.eq_false_iff.mp hunwanted)⟩
        rw [ih hloop, forall_reach_go hgo, and_iff_right hpeek]
    · cases hloop
      rw [inside_deliver, forall_reach_stop (not_goesOn_of_last hlast), List.length_drop]
      refine and_congr_right fun _ => ?_
      rw [HasPeek, if_pos ⟨hreuse, hlast⟩]
      exact ⟨fun h _ _ => h, fun h => h hfits hwants⟩
    · cases hloop
      have hgo : ¬AmsduGoesOn call b.body o (amsduNext b.body o) := by
        intro hgo
        exact absurd (hgo.2 hwants) (Bool.eq_false_iff.mp hmem)
      rw [forall_reach_stop hgo, HasPeek, if_neg hcopy]
      exact (and_iff_left fun _ _ h => absurd h (Bool.eq_false_iff.mp hmem)).symm
    · have hpeek : HasPeek call b o ↔ 8 ≤ linear.length := by
        rw [HasPeek, if_neg hcopy, height]
        exact ⟨fun h => h hfits hwants hmem, fun h _ _ _ => h⟩
      by_cases hlast : b.body.length ≤ amsduNext b.body o
      · rw [amsduGoOn, if_pos hlast] at hloop
        cases hloop
        rw [forall_reach_stop (not_goesOn_of_last hlast), inside_deliver, hpeek]
      · rw [amsduGoOn, if_neg hlast] at hloop
        have hgo : AmsduGoesOn call b.body o (amsduNext b.body o) :=
          ⟨⟨hfits, Nat.lt_of_not_le hlast, rfl⟩, fun _ => hmem⟩
        rw [ih hloop, forall_reach_go hgo, inside_deliver, hpeek, and_assoc]

end Inside

/-! ### What is delivered -/

section List

variable {call : AmsduCall} {b : AmsduBuf} {mem : AmsduMem} {body : List UInt8} {o : ℕ} {out : AmsduOut}
  {data : List UInt8}

theorem be16_be16At_drop (h : 8 ≤ data.length) :
    Bytes.be16 (Bytes.be16At data 6) ++ data.drop 8 = data.drop 6 := by
  have hsix : data.drop 6 = data[6] :: data[7] :: data.drop 8 := by
    rw [List.drop_eq_getElem_cons (by omega), List.drop_eq_getElem_cons (by omega)]
  have hat := be16At_drop data 6 0
  rw [Nat.add_zero, hsix] at hat
  rw [← hat, Bytes.be16_be16At, hsix]
  rfl

theorem list_deliver {linear : List UInt8} (h : 8 ≤ linear.length) (out : AmsduOut) (dest source : Mac)
    (o len : ℕ) (paged : List UInt8) (beyond : Vector UInt8 8) :
    (out.deliver dest source o len linear paged beyond).list =
      out.list ++ [subframeToEth dest source len (linear ++ paged)] := by
  have hpeek : (linear ++ beyond.toList).take 8 = (linear ++ paged).take 8 := by
    rw [List.take_append_of_le_length h, List.take_append_of_le_length h]
  have hlength : 8 ≤ (linear ++ paged).length := by
    rw [List.length_append]
    omega
  rw [AmsduOut.deliver, subframeToEth]
  simp only [hpeek, stripsSnap_take (Nat.le_refl 8), be16At_take (show 6 + 2 ≤ 8 by omega), hlength,
    Nat.not_lt_of_le hlength, if_true, if_false, be16_be16At_drop hlength]

theorem amsduLoop_drop (call : AmsduCall) (reuse : Bool) (fuel : ℕ) (body : List UInt8) (o : ℕ)
    (list : List EthFrame) : amsduLoop (call.env reuse) (fuel + 1) (body.drop o) list =
      if body.length < amsduEnd body o then []
      else if call.wants body o = false then
        if body.length ≤ amsduNext body o then list
        else amsduLoop (call.env reuse) fuel (body.drop (amsduNext body o)) list
      else if reuse = true ∧ body.length ≤ amsduNext body o then
        list ++ [subframeToEth (macOfBytes body o) (macOfBytes body (o + 6)) (amsduLen body o)
          (body.drop (o + 14))]
      else if call.hasMemory body o = false then []
      else if body.length ≤ amsduNext body o then
        list ++ [subframeToEth (macOfBytes body o) (macOfBytes body (o + 6)) (amsduLen body o)
          ((body.drop (o + 14)).take (amsduLen body o))]
      else
        amsduLoop (call.env reuse) fuel (body.drop (amsduNext body o))
          (list ++ [subframeToEth (macOfBytes body o) (macOfBytes body (o + 6)) (amsduLen body o)
            ((body.drop (o + 14)).take (amsduLen body o))]) := by
  have hlong : (body.length - o < 14 + amsduLen body o) = (body.length < amsduEnd body o) := by
    rw [amsduEnd, eq_iff_iff]
    omega
  have hlast : (body.length - o ≤ 14 + amsduLen body o + (4 - (14 + amsduLen body o) % 4) % 4) =
      (body.length ≤ amsduNext body o) := by
    rw [amsduNext, amsduEnd, eq_iff_iff]
    omega
  have hnext : o + (14 + amsduLen body o + (4 - (14 + amsduLen body o) % 4) % 4) =
      amsduNext body o := by
    rw [amsduNext, amsduEnd]
    omega
  have hmem : (call.env reuse).alloc (body.length - o) = call.hasMemory body o := by
    rw [AmsduCall.hasMemory, ← Nat.sub_sub]
    rfl
  have hlen : Bytes.be16At body (o + 12) = amsduLen body o := rfl
  have hwants : (call.env reuse).accepts (macOfBytes body o) (macOfBytes body (o + 6)) =
      call.wants body o := rfl
  have hreuse : (call.env reuse).reuseSkb = reuse := rfl
  rw [amsduLoop]
  simp only [macOfBytes_drop, be16At_drop, Nat.add_zero, List.length_drop, List.drop_drop, hlen, hlong,
    hlast, hnext, hmem, hwants, hreuse, Bool.not_eq_true', Bool.and_eq_true, decide_eq_true_eq]

/-- **A variant that reads nothing outside is `amsduTo8023s`.** -/
theorem list_amsduVariantLoop (hloop : amsduVariantLoop call b mem fuel eth o out = some out')
    (hpeek : ∀ o', ReflTransGen (AmsduGoesOn call b.body) o o' → HasPeek call b o') :
    out'.list = amsduLoop (call.env b.reuseSkb) fuel (b.body.drop o) out.list := by
  induction fuel generalizing o eth out with
  | zero => cases hloop
  | succ fuel ih =>
    have hhere := hpeek o .refl
    have hspec := amsduRound_spec call b mem eth o out
    rw [amsduVariantLoop] at hloop
    generalize amsduRound call b mem eth o out = r at hspec hloop
    rw [amsduLoop_drop]
    rcases hspec with hlong | ⟨hfits, hunwanted⟩ | ⟨hfits, hwants, hreuse, hlast⟩ |
      ⟨hfits, hwants, hcopy, hmem⟩ | ⟨linear, paged, hfits, hwants, hcopy, hmem, hdata, height⟩
    · cases hloop
      rw [if_pos hlong]
      rfl
    · rw [if_neg (Nat.not_lt_of_le hfits), if_pos hunwanted]
      by_cases hlast : b.body.length ≤ amsduNext b.body o
      · rw [amsduGoOn, if_pos hlast] at hloop
        cases hloop
        rw [if_pos hlast]
      · rw [amsduGoOn, if_neg hlast] at hloop
        have hgo : AmsduGoesOn call b.body o (amsduNext b.body o) :=
          ⟨⟨hfits, Nat.lt_of_not_le hlast, rfl⟩, fun hwants =>
            absurd hwants (Bool.eq_false_iff.mp hunwanted)⟩
        rw [if_neg hlast, ih hloop ((forall_reach_go hgo).mp hpeek).2]
    · cases hloop
      rw [HasPeek, if_pos ⟨hreuse, hlast⟩] at hhere
      have height : 8 ≤ (b.body.drop (o + 14)).length := by
        rw [List.length_drop]
        exact hhere hfits hwants
      rw [if_neg (Nat.not_lt_of_le hfits), if_neg (by simp [hwants]),
        if_pos ⟨hreuse, hlast⟩, list_deliver height, List.append_nil]
    · cases hloop
      rw [if_neg (Nat.not_lt_of_le hfits), if_neg (by simp [hwants]),
        if_neg hcopy, if_pos hmem]
      rfl
    · rw [HasPeek, if_neg hcopy] at hhere
      have hlist := list_deliver (height.mpr (hhere hfits hwants hmem)) out (macOfBytes b.body o)
        (macOfBytes b.body (o + 6)) (o + 14) (amsduLen b.body o) paged (mem.beyond (o + 14))
      rw [hdata] at hlist
      rw [if_neg (Nat.not_lt_of_le hfits), if_neg (by simp [hwants]),
        if_neg hcopy, if_neg (by simp [hmem])]
      by_cases hlast : b.body.length ≤ amsduNext b.body o
      · rw [amsduGoOn, if_pos hlast] at hloop
        cases hloop
        rw [if_pos hlast, hlist]
      · rw [amsduGoOn, if_neg hlast] at hloop
        have hgo : AmsduGoesOn call b.body o (amsduNext b.body o) :=
          ⟨⟨hfits, Nat.lt_of_not_le hlast, rfl⟩, fun _ => hmem⟩
        rw [if_neg hlast, ih hloop ((forall_reach_go hgo).mp hpeek).2, hlist]

theorem length_payload_subframeToEth (dest source : Mac) (len : ℕ)
    (h : 8 ≤ data.length) : (subframeToEth dest source len data).payload.length =
      if stripsSnap data then data.length - 6 else data.length + 2 := by
  rcases hstrips : stripsSnap data
  · simp [subframeToEth, hstrips, Nat.add_comm]
  · simp [subframeToEth, hstrips, h]

theorem subframeToEth_take_iff (dest source : Mac) {len : ℕ} (height : 8 ≤ len)
    (hlen : len ≤ data.length) :
    subframeToEth dest source len data = subframeToEth dest source len (data.take len) ↔
      len = data.length := by
  constructor
  · intro heq
    have htake : (data.take len).length = len := List.length_take_of_le hlen
    have hlength := congrArg (fun eth => eth.payload.length) heq
    simp only [length_payload_subframeToEth dest source len (height.trans hlen),
      length_payload_subframeToEth dest source len (height.trans htake.ge), stripsSnap_take height,
      htake] at hlength
    split at hlength
    · omega
    · omega
  · intro hall
    rw [List.take_of_length_le hall.ge]

theorem amsduLoop_reuse_iff (hfuel : body.length - o < fuel)
    (hroom : ∀ o', ReflTransGen (AmsduGoesOn call body) o o' → HasSnapRoom call body o')
    (list : List EthFrame) : amsduLoop (call.env true) fuel (body.drop o) list =
        amsduLoop (call.env false) fuel (body.drop o) list ↔
      ∀ o', ReflTransGen (AmsduGoesOn call body) o o' → EndsBody call body o' := by
  induction fuel generalizing o list with
  | zero => omega
  | succ fuel ih =>
    have hhere := hroom o .refl
    have hle := le_amsduNext body o
    rw [amsduLoop_drop, amsduLoop_drop]
    by_cases hlong : body.length < amsduEnd body o
    · rw [if_pos hlong, if_pos hlong, forall_reach_stop (not_goesOn_of_lt hlong)]
      exact iff_of_true rfl fun hfits => absurd hlong (Nat.not_lt_of_le hfits)
    have hfits := Nat.le_of_not_lt hlong
    rw [if_neg hlong, if_neg hlong]
    rcases hwants : call.wants body o
    · -- not for us
      have hends : EndsBody call body o := fun _ h => absurd h (Bool.eq_false_iff.mp hwants)
      rw [if_pos rfl, if_pos rfl]
      by_cases hlast : body.length ≤ amsduNext body o
      · rw [if_pos hlast, if_pos hlast, forall_reach_stop (not_goesOn_of_last hlast)]
        exact iff_of_true rfl hends
      · have hgo : AmsduGoesOn call body o (amsduNext body o) :=
          ⟨⟨hfits, Nat.lt_of_not_le hlast, rfl⟩, fun h => absurd h (Bool.eq_false_iff.mp hwants)⟩
        have hmore := Nat.lt_of_not_le hlast
        rw [if_neg hlast, if_neg hlast, ih (by omega) ((forall_reach_go hgo).mp hroom).2,
          forall_reach_go hgo, and_iff_right hends]
    simp only [Bool.true_eq_false, Bool.false_eq_true, if_false, false_and, true_and]
    rcases hmem : call.hasMemory body o
    · -- the copy is not made
      have hgo : ¬AmsduGoesOn call body o (amsduNext body o) :=
        fun hgo => absurd (hgo.2 hwants) (Bool.eq_false_iff.mp hmem)
      rw [forall_reach_stop hgo, if_pos rfl]
      by_cases hlast : body.length ≤ amsduNext body o
      · rw [if_pos hlast]
        refine iff_of_false (by simp) fun hends => ?_
        exact absurd (hends hfits hwants hlast).1 (Bool.eq_false_iff.mp hmem)
      · rw [if_neg hlast, if_pos rfl]
        exact iff_of_true rfl fun _ _ h => absurd h hlast
    simp only [Bool.true_eq_false, if_false]
    by_cases hlast : body.length ≤ amsduNext body o
    · rw [forall_reach_stop (not_goesOn_of_last hlast), if_pos hlast, if_pos hlast,
        List.append_cancel_left_eq, List.singleton_inj]
      rw [amsduEnd] at hfits
      rw [subframeToEth_take_iff _ _ (hhere hfits hwants hmem) (by rw [List.length_drop]; omega),
        List.length_drop]
      constructor
      · intro hall _ _ _
        refine ⟨hmem, ?_⟩
        rw [amsduEnd]
        omega
      · intro hends
        have hend := (hends hfits hwants hlast).2
        rw [amsduEnd] at hend
        omega
    · have hgo : AmsduGoesOn call body o (amsduNext body o) :=
        ⟨⟨hfits, Nat.lt_of_not_le hlast, rfl⟩, fun _ => hmem⟩
      have hends : EndsBody call body o := fun _ _ h => absurd h hlast
      rw [if_neg hlast, if_neg hlast, if_neg hlast,
        ih (by omega) ((forall_reach_go hgo).mp hroom).2, forall_reach_go hgo, and_iff_right hends]

end List

/-! ### All variants -/

section Variants

variable {call : AmsduCall} {body : List UInt8}

/-- The body in one piece: the buffer becomes the last frame. -/
def linearBuf (body : List UInt8) : AmsduBuf := { head := body }

/-- The body in one piece, in a page: everything is copied. -/
def pageBuf (body : List UInt8) : AmsduBuf := { head := body, headFrag := true }

@[simp] theorem body_linearBuf (body : List UInt8) : (linearBuf body).body = body := by
  simp [linearBuf, AmsduBuf.body]

@[simp] theorem body_pageBuf (body : List UInt8) : (pageBuf body).body = body := by
  simp [pageBuf, AmsduBuf.body]

theorem reuseSkb_linearBuf (body : List UInt8) : (linearBuf body).reuseSkb = true := rfl

theorem reuseSkb_pageBuf (body : List UInt8) : (pageBuf body).reuseSkb = false := rfl

variable {b : AmsduBuf}

/-- Without a reused buffer, eight bytes are at hand if the subframe has them. -/
theorem hasPeek_of_copies (h : b.reuseSkb = false) (o : ℕ) :
    HasPeek call b o ↔ HasSnapRoom call b.body o := by
  rw [HasPeek, HasSnapRoom, if_neg (by simp [h])]

theorem CleanFrom.hasPeek (h : CleanFrom call b.body 0) :
    ∀ o, ReflTransGen (AmsduGoesOn call b.body) 0 o → HasPeek call b o := by
  intro o hreach hfits hwants
  obtain ⟨hroom, hends⟩ := h o hreach
  split
  next hreuse =>
    obtain ⟨hmem, hend⟩ := hends hfits hwants hreuse.2
    have height := hroom hfits hwants hmem
    rw [amsduEnd] at hend
    omega
  next => exact hroom hfits hwants

/-- If the subframes are clean, every variant is `amsduTo8023s`, and that one does not depend on the
buffer. -/
theorem CleanFrom.list_amsduVariant {mem : AmsduMem} {out : AmsduOut}
    (h : CleanFrom call b.body 0) (hx : amsduVariant call b mem = some out) :
    out.list = amsduTo8023s (call.env false) b.body := by
  have hlist := list_amsduVariantLoop hx h.hasPeek
  have hroom : ∀ o, ReflTransGen (AmsduGoesOn call b.body) 0 o → HasSnapRoom call b.body o :=
    fun o hreach => (h o hreach).1
  have hsame := (amsduLoop_reuse_iff (Nat.lt_succ_self (b.body.length - 0)) hroom []).mpr
    fun o hreach => (h o hreach).2
  rw [Nat.sub_zero] at hsame
  rw [hlist, amsduTo8023s]
  rcases b.reuseSkb
  · rfl
  · exact hsame

/-- **The variants agree exactly on clean bodies**: no subframe taken is too short to be looked at,
and nothing is behind the last one. -/
theorem variantsAgree_iff (call : AmsduCall) (body : List UInt8) :
    VariantsAgree call body ↔ CleanFrom call body 0 := by
  have hends : ∀ b mem, ∃ out, amsduVariant call b mem = some out := fun b mem =>
    amsduVariantLoop_ends (Nat.lt_succ_of_le (Nat.sub_le _ _)) mem.stack {}
  constructor
  · intro hagree
    let mem : AmsduMem := ⟨[], fun _ => Vector.replicate 8 0⟩
    obtain ⟨x, hx, hxin⟩ := hagree.inside (linearBuf body) mem (body_linearBuf body)
    obtain ⟨y, hy, hyin⟩ := hagree.inside (pageBuf body) mem (body_pageBuf body)
    have hxpeek := ((inside_amsduVariantLoop hx).mp hxin).2
    have hypeek := ((inside_amsduVariantLoop hy).mp hyin).2
    have hxlist := list_amsduVariantLoop hx hxpeek
    have hylist := list_amsduVariantLoop hy hypeek
    have hroom : ∀ o, ReflTransGen (AmsduGoesOn call body) 0 o → HasSnapRoom call body o := by
      intro o hreach
      have hpeek := hypeek o (by rwa [body_pageBuf])
      rwa [hasPeek_of_copies (reuseSkb_pageBuf body), body_pageBuf] at hpeek
    have hsame := hagree.same _ _ mem mem (body_linearBuf body) (body_pageBuf body)
    rw [hx, hy, map_some, map_some, Option.some.injEq, hxlist, hylist, body_linearBuf,
      body_pageBuf, reuseSkb_linearBuf, reuseSkb_pageBuf,
      amsduLoop_reuse_iff (by omega) hroom] at hsame
    exact fun o hreach => ⟨hroom o hreach, hsame o hreach⟩
  · intro hclean
    refine ⟨?_, ?_, ?_, ?_⟩
    · intro b b' mem mem' hb hb'
      obtain ⟨x, hx⟩ := hends b mem
      obtain ⟨y, hy⟩ := hends b' mem'
      have hxlist := CleanFrom.list_amsduVariant (by rwa [hb]) hx
      have hylist := CleanFrom.list_amsduVariant (by rwa [hb']) hy
      rw [hx, hy, map_some, map_some, hxlist, hylist, hb, hb']
    · rintro b mem rfl
      obtain ⟨x, hx⟩ := hends b mem
      exact ⟨x, hx, (inside_amsduVariantLoop hx).mpr ⟨rfl, hclean.hasPeek⟩⟩
    · rintro b mem out rfl hx
      exact amsduVariant_fits hx
    · rintro b mem out rfl hx hbad
      exact amsduVariant_malformed hx hbad

/-- One subframe of nine bytes, and the one byte that pads it to a multiple of four. -/
def paddedAmsdu : List UInt8 :=
  [2, 0, 0, 0, 0, 1] ++ [2, 0, 0, 0, 0, 2] ++ [0, 9] ++ [0xaa, 0xaa, 3, 0, 0, 0, 8, 0, 1] ++ [0]

/-- **The padding is in the frame, or not**: with the buffer in one piece it has a byte more than
with a copy. -/
theorem reuse_keeps_padding :
    (amsduVariant {} (linearBuf paddedAmsdu) ⟨[], fun _ => Vector.replicate 8 0⟩).map
        (fun out => out.list.map EthFrame.payload) = some [[8, 0, 1, 0]] ∧
      (amsduVariant {} (pageBuf paddedAmsdu) ⟨[], fun _ => Vector.replicate 8 0⟩).map
        (fun out => out.list.map EthFrame.payload) = some [[8, 0, 1]] ∧
      ¬VariantsAgree {} paddedAmsdu := by
  have hreused : (amsduVariant {} (linearBuf paddedAmsdu) ⟨[], fun _ => Vector.replicate 8 0⟩).map
      (fun out => out.list.map EthFrame.payload) = some [[8, 0, 1, 0]] := by decide +kernel
  have hcopied : (amsduVariant {} (pageBuf paddedAmsdu) ⟨[], fun _ => Vector.replicate 8 0⟩).map
      (fun out => out.list.map EthFrame.payload) = some [[8, 0, 1]] := by decide +kernel
  refine ⟨hreused, hcopied, fun hagree => ?_⟩
  have hsame := hagree.same (linearBuf paddedAmsdu) (pageBuf paddedAmsdu)
    ⟨[], fun _ => Vector.replicate 8 0⟩ ⟨[], fun _ => Vector.replicate 8 0⟩
    (body_linearBuf _) (body_pageBuf _)
  have hpayload := congrArg (Option.map (List.map EthFrame.payload)) hsame
  rw [Option.map_map, Option.map_map] at hpayload
  exact absurd (hreused.symm.trans (hpayload.trans hcopied)) (by decide)

end Variants

end Mac80211
