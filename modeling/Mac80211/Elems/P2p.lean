import Mac80211.Elems.NewIe
import Mac80211.State

/-!
# P2P attributes

`cfg80211_get_p2p_attr` in `net/wireless/util.c`: attributes are kept in vendor elements, and may go
on in the next one. What has been written to the buffer is kept as a list; there is none where the
caller passes `NULL`.

## Main definitions

* `cfg80211GetP2pAttr`
-/

namespace Mac80211

/-! ### The function -/

/-- The variables of `cfg80211_get_p2p_attr`. -/
structure P2pState where
  out : Option (List UInt8)
  bufsize : ℕ
  attrRemaining : ℕ := 0
  desiredAttr : Bool := false
  desiredLen : ℕ := 0

/-- Some bytes of the desired attribute. -/
def P2pState.copy (st : P2pState) (iedata : List UInt8) (copy : ℕ) : P2pState :=
  let st := { st with desiredLen := (st.desiredLen + copy) % 2 ^ 16 }
  match st.out with
  | none => st
  | some out =>
    { st with
      out := some (out ++ iedata.take (min st.bufsize copy))
      bufsize := st.bufsize - min st.bufsize copy }

/-- A part of the function: it returns, or goes on. -/
inductive P2pStep where
  | ret (ret : ℤ) (st : P2pState)
  | cont (st : P2pState)

/-- The loop over the attributes of one element. -/
def p2pAttributes (attr : ℕ) : List UInt8 → P2pState → P2pStep
  | [], st => .cont st
  | id :: lo :: hi :: iedata, st =>
    let desiredAttr : Bool := id.toNat = attr
    let attrLen := lo.toNat + hi.toNat * 256
    let copy := min attrLen iedata.length
    let st := { st with desiredAttr := desiredAttr }
    let st := if desiredAttr then st.copy iedata copy else st
    if desiredAttr && copy = attrLen then .ret st.desiredLen st
    else p2pAttributes attr (iedata.drop copy) { st with attrRemaining := attrLen - copy }
  | _, st => .ret (-EILSEQ) st
termination_by iedata => iedata.length
decreasing_by
  simp only [List.length_drop, List.length_cons]
  omega

/-- What is done with one element. -/
def p2pElement (attr : ℕ) (id : UInt8) (data : List UInt8) (st : P2pState) : P2pStep :=
  if id ≠ WLAN_EID_VENDOR_SPECIFIC then .cont st
  else if data.length < 4 then .cont st
  else if data.take 4 ≠ [0x50, 0x6f, 0x9a, 0x09] then .cont st
  else
    let iedata := data.drop 4
    let copy := min st.attrRemaining iedata.length
    let desired := copy ≠ 0 && st.desiredAttr
    let remaining := st.attrRemaining - copy
    let st := if desired then st.copy iedata copy else st
    if desired && remaining = 0 then .ret st.desiredLen st
    else
      let st := { st with attrRemaining := remaining }
      if remaining ≠ 0 then .cont st else p2pAttributes attr (iedata.drop copy) st

/-- The loop over the elements. -/
def p2pElements (attr : ℕ) : List UInt8 → P2pState → ℤ × P2pState
  | [], st => if st.attrRemaining ≠ 0 && st.desiredAttr then (-EILSEQ, st) else (-ENOENT, st)
  | [_], st => (-EILSEQ, st)
  | id :: iedatalen :: ies, st =>
    if ies.length < iedatalen.toNat then (-EILSEQ, st)
    else
      match p2pElement attr id (ies.take iedatalen.toNat) st with
      | .ret ret st => (ret, st)
      | .cont st => p2pElements attr (ies.drop iedatalen.toNat) st
termination_by ies => ies.length
decreasing_by
  simp only [List.length_drop, List.length_cons]
  omega

/-- `cfg80211_get_p2p_attr`, with a buffer or with `NULL`: what it returns, and what is in the buffer then. -/
def cfg80211GetP2pAttr (ies : List UInt8) (attr : ℕ) (buf : Bool) (bufsize : ℕ) : ℤ × Option (List UInt8) :=
  let (ret, st) := p2pElements attr ies
    { out := if buf then some [] else none
      bufsize := bufsize }
  (ret, st.out)

/-! ### Attributes in one list of bytes -/

/-- A P2P element. -/
def InfoElement.isP2p (e : InfoElement) : Bool :=
  e.id = WLAN_EID_VENDOR_SPECIFIC && e.data.take 4 = [0x50, 0x6f, 0x9a, 0x09]

/-- What the P2P elements of a list hold. -/
def p2pPayloads (es : List InfoElement) : List (List UInt8) := (es.filter InfoElement.isP2p).map (·.data.drop 4)

/-- How a list of attributes ends. -/
inductive AttrsEnd where
  | complete
  /-- in the middle of a header -/
  | cutHeader
  /-- in the middle of the value of this attribute -/
  | cutValue (id : ℕ)
deriving DecidableEq

/-- The attributes in a list of bytes, and how it ends. -/
def parseAttrs : List UInt8 → List (ℕ × List UInt8) × AttrsEnd
  | [] => ([], .complete)
  | id :: lo :: hi :: bs =>
    let len := lo.toNat + hi.toNat * 256
    if bs.length < len then ([], .cutValue id.toNat)
    else
      let (attrs, last) := parseAttrs (bs.drop len)
      ((id.toNat, bs.take len) :: attrs, last)
  | _ => ([], .cutHeader)
termination_by bs => bs.length
decreasing_by
  simp only [List.length_drop, List.length_cons]
  omega

/-- The first attribute with an ID. -/
def firstAttr (attr : ℕ) (bs : List UInt8) : Option (List UInt8) :=
  ((parseAttrs bs).1.find? fun a => a.1 = attr).map Prod.snd

/-- Where the headers of the attributes start. -/
def headers : List UInt8 → List ℕ
  | [] => []
  | _ :: lo :: hi :: bs =>
    let len := lo.toNat + hi.toNat * 256
    0 :: (headers (bs.drop len)).map (· + (3 + len))
  | _ => [0]
termination_by bs => bs.length
decreasing_by
  simp only [List.length_drop, List.length_cons]
  omega

/-- From byte `r` of the pieces on, no header goes from one piece into the next. -/
def WholeHeadersFrom (r : ℕ) (pieces : List (List UInt8)) : Prop :=
  ∀ o ∈ headers (pieces.flatten.drop r), ∀ n,
    r + o < (pieces.take n).flatten.length → (pieces.take n).flatten.length < pieces.flatten.length →
    r + o + 3 ≤ (pieces.take n).flatten.length

/-- No header of an attribute lies in two P2P elements. -/
def WholeHeaders (es : List InfoElement) : Prop := WholeHeadersFrom 0 (p2pPayloads es)

/-! ### What comes out -/

/-- What `cfg80211_get_p2p_attr` should return for the attributes in `bs`, and leave in the buffer. -/
structure P2pRight (attr : ℕ) (buf : Bool) (bufsize : ℕ) (bs : List UInt8) (res : ℤ × Option (List UInt8)) :
    Prop where
  found : ∀ value, firstAttr attr bs = some value →
    res.1 = value.length ∧ (buf = true → res.2 = some (value.take bufsize))
  notFound : res.1 = -ENOENT ↔ firstAttr attr bs = none ∧
    ((parseAttrs bs).2 = .complete ∨ ∃ id, (parseAttrs bs).2 = .cutValue id ∧ id ≠ attr)
  malformed : firstAttr attr bs = none → (parseAttrs bs).2 = .cutHeader ∨ (parseAttrs bs).2 = .cutValue attr →
    res.1 = -EILSEQ
  bounded : ∀ out, res.2 = some out → out.length ≤ bufsize

end Mac80211
