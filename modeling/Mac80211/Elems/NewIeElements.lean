import Mac80211.Elems.NewIe
import Mathlib.Data.List.TakeWhile

/-!
# From bytes to elements

On well-formed lists `cfg80211_gen_new_ie` looks up one element of the frame after the other in what
is left of the profile, as long as it finds its way in the bytes.

## Main definitions

* `Readable`

## Main results

* `genNewIe_encode` — from bytes to elements
-/

namespace Mac80211

open List Option

/-! ### Lists of elements in a buffer -/

/-- The elements of a list, from an offset on. -/
def foundFrom (off : ℕ) : List InfoElement → List Elem
  | [] => []
  | e :: es => e.found off :: foundFrom (off + 2 + e.data.length) es

variable {p : InfoElement → Bool}

section Encode

variable {e old new : InfoElement} {es pre post : List InfoElement} {off : ℕ}

@[simp] theorem encode_nil : encode [] = [] := rfl

@[simp] theorem encode_cons (e : InfoElement) (es : List InfoElement) :
    encode (e :: es) = e.id :: UInt8.ofNat e.data.length :: (e.data ++ encode es) := by
  simp [encode, InfoElement.bytes]

@[simp] theorem encode_append (es es' : List InfoElement) : encode (es ++ es') = encode es ++ encode es' :=
  flatMap_append

theorem InfoElement.toNat_length (e : InfoElement) : (UInt8.ofNat e.data.length).toNat = e.data.length :=
  UInt8.toNat_ofNat_of_lt' e.fits

@[simp] theorem InfoElement.length_bytes (e : InfoElement) : e.bytes.length = e.data.length + 2 := rfl

theorem elements_encode (off : ℕ) (es : List InfoElement) : elements off (encode es) = foundFrom off es := by
  induction es generalizing off with
  | nil => rw [encode_nil, elements, foundFrom]; simp
  | cons e es ih =>
    have hlen : ¬ (e.data ++ encode es).length < e.data.length := by
      rw [length_append]
      omega
    rw [encode_cons, elements, e.toNat_length, if_neg hlen, take_left, drop_left, ih, foundFrom,
      InfoElement.found]

theorem foundFrom_injective {es es' : List InfoElement} (h : foundFrom off es = foundFrom off es') : es = es' := by
  induction es generalizing es' off with
  | nil =>
    cases es' with
    | nil => rfl
    | cons e' es' => cases h
  | cons e es ih =>
    cases es' with
    | nil => cases h
    | cons e' es' =>
      obtain ⟨hfirst, hrest⟩ := List.cons.inj h
      obtain ⟨-, hid, hdata⟩ := Elem.mk.inj hfirst
      have he : e = e' := by
        cases e
        cases e'
        cases hid
        cases hdata
        rfl
      rw [← he] at hrest
      rw [ih hrest, he]

theorem encode_injective {es es' : List InfoElement} (h : encode es = encode es') : es = es' := by
  have helements := congrArg (elements 0) h
  rw [elements_encode, elements_encode] at helements
  exact foundFrom_injective helements

theorem find?_foundFrom {q : Elem → Bool} (hpq : ∀ e off, q (e.found off) = p e)
    (off : ℕ) (es : List InfoElement) : (es.find? p = none ∧ (foundFrom off es).find? q = none) ∨
    ∃ pre new post, es = pre ++ new :: post ∧ es.find? p = some new ∧ p new = true ∧
      (∀ e ∈ pre, p e = false) ∧ (foundFrom off es).find? q = some (new.found (off + (encode pre).length)) := by
  induction es generalizing off with
  | nil => exact .inl ⟨rfl, rfl⟩
  | cons e es ih =>
    rw [foundFrom, find?_cons, find?_cons, hpq]
    cases he : p e with
    | true => exact .inr ⟨[], e, es, rfl, rfl, he, by simp, by simp⟩
    | false =>
      rcases ih (off + 2 + e.data.length) with hnone | ⟨pre, new, post, hes, hfind, hp, hpre, hq⟩
      · exact .inl hnone
      · refine .inr ⟨e :: pre, new, post, by rw [hes]; rfl, hfind, hp, ?_, ?_⟩
        · intro e' he'
          rcases mem_cons.mp he' with rfl | he'
          · exact he
          · exact hpre e' he'
        · have hoff : off + 2 + e.data.length + (encode pre).length = off + (encode (e :: pre)).length := by
            rw [encode_cons, length_cons, length_cons, length_append]
            omega
          rw [hq, hoff]

theorem drop_encode (pre : List InfoElement) (e : InfoElement) (post : List InfoElement) :
    (encode (pre ++ e :: post)).drop (encode pre).length = encode (e :: post) := by
  rw [encode_append, drop_left]

theorem drop_pos_encode (pre : List InfoElement) (e : InfoElement) (post : List InfoElement) :
    (encode (pre ++ e :: post)).drop (e.found (encode pre).length).pos = e.data ++ encode post := by
  rw [Elem.pos, ← drop_drop, InfoElement.found, drop_encode, encode_cons]
  rfl

theorem take_bytes_encode (e : InfoElement) (post : List InfoElement) :
    (encode (e :: post)).take (e.data.length + 2) = e.bytes := by
  rw [encode_cons, take_succ_cons, take_succ_cons, take_left]
  rfl

/-- An element of the profile that has been copied. -/
def InfoElement.marked (e : InfoElement) : InfoElement := { e with id := WLAN_EID_SSID }

theorem set_encode (pre : List InfoElement) (e : InfoElement) (post : List InfoElement) :
    (encode (pre ++ e :: post)).set (encode pre).length WLAN_EID_SSID = encode (pre ++ e.marked :: post) := by
  rw [encode_append, encode_append, encode_cons, set_append_right _ _ le_rfl, Nat.sub_self]
  rfl

theorem vendorPrefix_append {bytes : List UInt8} (h : 5 ≤ bytes.length) (rest : List UInt8) :
    vendorPrefix (bytes ++ rest) = some (bytes.take 5) := by
  have hlen : ¬ (bytes ++ rest).length < 5 := by
    rw [length_append]
    omega
  rw [vendorPrefix, if_neg hlen, take_append_of_le_length h]

end Encode

/-! ### What an element of the frame is compared with -/

/-- What is looked for in the profile. -/
def sameKind (old new : InfoElement) : Bool :=
  new.id = old.id && (old.id ≠ WLAN_EID_EXTENSION || new.data.head? = old.data.head?)

/-- Elements of one kind are the same one; from vendors, if they are from the same. -/
def Replaces (new old : InfoElement) : Prop :=
  old.id = WLAN_EID_VENDOR_SPECIFIC → new.data.take 5 = old.data.take 5
deriving Decidable

/-- The first element of a kind is marked. -/
def markFirst (p : InfoElement → Bool) : List InfoElement → List InfoElement
  | [] => []
  | e :: es => if p e then e.marked :: es else e :: markFirst p es

/-- What is left of the profile after one element of the frame. -/
def leftAfter (old : InfoElement) (sub : List InfoElement) : List InfoElement :=
  match sub.find? (sameKind old) with
  | none => sub
  | some new => if Replaces new old then markFirst (sameKind old) sub else sub

/-- Each element of the frame, with what it is compared with. -/
def lookups : List InfoElement → List InfoElement → List (InfoElement × Option InfoElement)
  | [], _ => []
  | old :: olds, sub => (old, sub.find? (sameKind old)) :: lookups olds (leftAfter old sub)

/-- What is left of the profile in the end. -/
def leftOf (olds sub : List InfoElement) : List InfoElement := olds.foldl (fun sub old => leftAfter old sub) sub

/-- What is copied of an element of the frame. -/
def keptOf (inherits : InfoElement → Bool) : InfoElement × Option InfoElement → List InfoElement
  | (old, none) => if inherits old then [old] else []
  | (old, some new) => if Replaces new old then [] else [old]

/-- What is copied of the profile. -/
def takenOf : InfoElement × Option InfoElement → List InfoElement
  | (_, none) => []
  | (old, some new) => if Replaces new old then [new] else []

/-- What is copied for an element of the frame. -/
def copiedOf (inherits : InfoElement → Bool) (x : InfoElement × Option InfoElement) : List InfoElement :=
  keptOf inherits x ++ takenOf x

/-- The element is inherited. -/
def inheritsFrom (sub : List InfoElement) (e : InfoElement) : Bool :=
  (isInherited (e.found 0) (nonInheritance sub)).getD false

/-- What is behind the SSID of the frame. -/
def behindSsid (ie : List InfoElement) : List InfoElement :=
  match ie.dropWhile fun e => e.id ≠ WLAN_EID_SSID with
  | [] => ie
  | _ :: es => es

/-- The elements that come out. -/
def newElements (ie sub : List InfoElement) : List InfoElement :=
  (sub.find? (·.id = WLAN_EID_SSID)).toList ++
    (lookups (behindSsid ie) sub).flatMap (copiedOf (inheritsFrom sub)) ++
    (leftOf (behindSsid ie) sub).filter InfoElement.isOwn

/-- **The function finds its way**: no other SSID behind the first, every extension element has an
extension, and vendor elements compared have five bytes. -/
structure Readable (ie sub : List InfoElement) : Prop where
  ssid : ∀ e ∈ behindSsid ie, e.id ≠ WLAN_EID_SSID
  extension : ∀ e ∈ behindSsid ie, e.id = WLAN_EID_EXTENSION → e.data ≠ []
  vendor : ∀ x ∈ lookups (behindSsid ie) sub, x.1.id = WLAN_EID_VENDOR_SPECIFIC → ∀ new ∈ x.2,
    5 ≤ x.1.data.length ∧ 5 ≤ new.data.length

section

variable {e old new : InfoElement} {sub pre post : List InfoElement} {inherits : InfoElement → Bool}

theorem markFirst_append (hpre : ∀ e ∈ pre, p e = false) (hnew : p new = true) :
    markFirst p (pre ++ new :: post) = pre ++ new.marked :: post := by
  induction pre with
  | nil => rw [nil_append, markFirst, if_pos hnew, nil_append]
  | cons e pre ih =>
    have he : p e = false := hpre e mem_cons_self
    rw [cons_append, markFirst, if_neg (by simp [he]), ih fun e' he' => hpre e' (mem_cons_of_mem _ he'),
      cons_append]

/-- Whether an element is inherited depends on its ID and its extension. -/
theorem isInherited_congr {e e' : Elem} {n n' : Option Elem} (hid : e.id = e'.id)
    (hext : e.id = WLAN_EID_EXTENSION → e.data[0]? = e'.data[0]?) (hn : n.map Elem.data = n'.map Elem.data) :
    isInherited e n = isInherited e' n' := by
  cases n with
  | none =>
    cases n' with
    | none => rw [isInherited, isInherited, hid]
    | some n' => cases hn
  | some n =>
    cases n' with
    | none => cases hn
    | some n' =>
      have hdata : n.data = n'.data := some.inj hn
      rw [isInherited, isInherited, isElementInherited, isElementInherited, hdata, ← hid]
      by_cases hx : e.id = WLAN_EID_EXTENSION
      · rw [hext hx]
      · simp only [hx, if_false]

theorem isSome_isElementInherited {e n : Elem} (h : e.id = WLAN_EID_EXTENSION → e.data ≠ []) :
    (isElementInherited e n).isSome = true := by
  rw [isElementInherited]
  split
  · rfl
  split
  · rfl
  rename_i hlen
  obtain ⟨idLen, hidLen⟩ : ∃ b, n.data[1]? = some b := ⟨_, getElem?_eq_getElem (by omega)⟩
  rw [hidLen]
  dsimp only [bind_eq_bind, bind_some]
  split
  · rfl
  rename_i hlen'
  obtain ⟨extIdLen, hextIdLen⟩ : ∃ b, n.data[2 + idLen.toNat]? = some b :=
    ⟨_, getElem?_eq_getElem (by omega)⟩
  rw [hextIdLen]
  dsimp only [bind_some]
  split
  · rfl
  split
  · rename_i hext
    obtain ⟨ext, data, hdata⟩ := exists_cons_of_ne_nil (h hext)
    rw [hdata]
    split <;> rfl
  · split <;> rfl

/-- Whether an element is inherited is known, if it has an extension where it should. -/
theorem isSome_isInherited {e : Elem} (h : e.id = WLAN_EID_EXTENSION → e.data ≠ []) (n : Option Elem) :
    (isInherited e n).isSome = true := by
  cases n with
  | none => rfl
  | some n => exact isSome_isElementInherited h

end

/-! ### One element -/

section

variable {e old new : InfoElement} {sub sub₀ pre post : List InfoElement} {n : Option Elem}

/-- What is looked for in the bytes of the profile. -/
def lookFor (old : InfoElement) (e : Elem) : Bool :=
  e.id = old.id && (old.id ≠ WLAN_EID_EXTENSION || e.data.head? = old.data.head?)

theorem lookFor_found (old e : InfoElement) (off : ℕ) : lookFor old (e.found off) = sameKind old e := rfl

theorem lookup_encode (hext : old.id = WLAN_EID_EXTENSION → old.data ≠ []) (rest : List UInt8)
    (sub : List InfoElement) :
    lookupElement old.id (old.data ++ rest) (encode sub) = some ((foundFrom 0 sub).find? (lookFor old)) := by
  rw [lookupElement, elements_encode]
  split
  · rename_i hid
    obtain ⟨ext, data, hdata⟩ := exists_cons_of_ne_nil (hext hid)
    have hlook : lookFor old = fun e => e.id = 255 && e.data.head? = some ext := by
      funext e
      rw [lookFor, hid, hdata]
      simp only [WLAN_EID_EXTENSION, ne_eq, not_true_eq_false, decide_false, Bool.false_or, head?_cons]
      rfl
    rw [hdata, hlook]
    rfl
  · rename_i hid
    have hlook : lookFor old = fun e : Elem => decide (e.id = old.id) := by
      funext e
      simp [lookFor, hid]
    rw [hlook]
    rfl

theorem isInherited_encode (hext : old.id = WLAN_EID_EXTENSION → old.data ≠ []) (rest : List UInt8)
    (hn : n.map Elem.data = (nonInheritance sub₀).map Elem.data) :
    isInherited ⟨0, old.id, old.data ++ rest⟩ n = some (inheritsFrom sub₀ old) := by
  have hsome := @isSome_isInherited (old.found 0) hext (nonInheritance sub₀)
  have hcongr : isInherited ⟨0, old.id, old.data ++ rest⟩ n = isInherited (old.found 0) (nonInheritance sub₀) := by
    refine isInherited_congr rfl ?_ hn
    intro hid
    obtain ⟨ext, data, hdata⟩ := exists_cons_of_ne_nil (hext hid)
    simp [InfoElement.found, hdata]
  obtain ⟨b, hb⟩ := isSome_iff_exists.mp hsome
  rw [hcongr, inheritsFrom, hb]
  rfl

/-- **One element of the frame.** -/
theorem mergeElement_encode (hext : old.id = WLAN_EID_EXTENSION → old.data ≠ [])
    (hvendor : old.id = WLAN_EID_VENDOR_SPECIFIC → ∀ new ∈ sub.find? (sameKind old),
      5 ≤ old.data.length ∧ 5 ≤ new.data.length)
    (hn : n.map Elem.data = (nonInheritance sub₀).map Elem.data) (rest : List UInt8) :
    mergeElement n old.id (UInt8.ofNat old.data.length) (old.data ++ rest) (encode sub) =
      some (encode (copiedOf (inheritsFrom sub₀) (old, sub.find? (sameKind old))), encode (leftAfter old sub)) := by
  have hold : old.id :: UInt8.ofNat old.data.length ::
      (old.data ++ rest).take (UInt8.ofNat old.data.length).toNat = encode [old] := by
    rw [old.toNat_length, take_left, encode_cons, encode_nil, append_nil]
  rw [mergeElement, lookup_encode hext rest sub, hold, copiedOf, leftAfter]
  rcases find?_foundFrom (lookFor_found old) 0 sub with ⟨hnone, hfound⟩ |
    ⟨pre, new, post, hsub, hfind, hnew, hpre, hfound⟩
  · rw [hfound, hnone]
    dsimp only
    rw [isInherited_encode hext rest hn, keptOf, takenOf, append_nil, map_some]
    cases inheritsFrom sub₀ old <;> rfl
  · have hcopied : ((encode sub).drop (new.found (encode pre).length).off).take
        ((new.found (encode pre).length).data.length + 2) = encode [new] := by
      show ((encode sub).drop (encode pre).length).take (new.data.length + 2) = encode [new]
      rw [hsub, drop_encode, take_bytes_encode, encode_cons, encode_nil, append_nil]
      rfl
    have hmarked : (encode sub).set (new.found (encode pre).length).off WLAN_EID_SSID =
        encode (markFirst (sameKind old) sub) := by
      show (encode sub).set (encode pre).length WLAN_EID_SSID = _
      rw [hsub, set_encode, markFirst_append hpre hnew]
    have hpos : (encode sub).drop (new.found (encode pre).length).pos = new.data ++ encode post := by
      rw [hsub, drop_pos_encode]
    rw [hfound, hfind, Nat.zero_add]
    dsimp only
    rw [hpos, hcopied, hmarked, keptOf, takenOf]
    by_cases hid : old.id = WLAN_EID_VENDOR_SPECIFIC
    · obtain ⟨hold₅, hnew₅⟩ := hvendor hid new hfind
      rw [if_pos hid, vendorPrefix_append hold₅, vendorPrefix_append hnew₅]
      dsimp only
      by_cases hsame : new.data.take 5 = old.data.take 5
      · have hreplaces : Replaces new old := fun _ => hsame
        rw [if_pos hsame.symm, if_pos hreplaces, if_pos hreplaces, if_pos hreplaces]
        rfl
      · have hreplaces : ¬Replaces new old := fun h => hsame (h hid)
        rw [if_neg (Ne.symm hsame), if_neg hreplaces, if_neg hreplaces, if_neg hreplaces]
        rfl
    · have hreplaces : Replaces new old := fun h => absurd h hid
      rw [if_neg hid, if_pos hreplaces, if_pos hreplaces, if_pos hreplaces]
      rfl

/-! ### The loops -/

theorem length_encode_pos {es : List InfoElement} (h : es ≠ []) : 0 < (encode es).length := by
  obtain ⟨e, es, rfl⟩ := exists_cons_of_ne_nil h
  simp

/-- **The loop over the frame**, element by element. -/
theorem mergeLoopOld_encode {olds : List InfoElement} (holds : olds ≠ [])
    (hssid : ∀ e ∈ olds, e.id ≠ WLAN_EID_SSID) (hext : ∀ e ∈ olds, e.id = WLAN_EID_EXTENSION → e.data ≠ [])
    (hvendor : ∀ x ∈ lookups olds sub, x.1.id = WLAN_EID_VENDOR_SPECIFIC → ∀ new ∈ x.2,
      5 ≤ x.1.data.length ∧ 5 ≤ new.data.length)
    (hn : n.map Elem.data = (nonInheritance sub₀).map Elem.data) :
    mergeLoopOld n (encode olds) (encode sub) =
      some (encode ((lookups olds sub).flatMap (copiedOf (inheritsFrom sub₀))), encode (leftOf olds sub)) := by
  induction olds generalizing sub with
  | nil => exact absurd rfl holds
  | cons old olds ih =>
    have hold : old ∈ old :: olds := mem_cons_self
    have hlen : ¬ (old.data ++ encode olds).length < old.data.length := by
      rw [length_append]
      omega
    have hone := @mergeElement_encode old sub sub₀ n (hext old hold) (hvendor _ mem_cons_self) hn (encode olds)
    rw [encode_cons, mergeLoopOld, old.toNat_length, if_neg hlen, if_neg (hssid old hold), hone]
    dsimp only
    rw [lookups, flatMap_cons, leftOf, foldl_cons, ← leftOf]
    by_cases hlast : olds = []
    · have hend : (old.data ++ encode olds).length = old.data.length := by simp [hlast]
      rw [if_pos hend, hlast]
      simp [lookups, leftOf]
    · have hpos := length_encode_pos hlast
      have hend : (old.data ++ encode olds).length ≠ old.data.length := by
        rw [length_append]
        omega
      have hrest := @ih (leftAfter old sub) hlast (fun e he => hssid e (mem_cons_of_mem _ he))
        (fun e he => hext e (mem_cons_of_mem _ he)) (fun x hx => hvendor x (mem_cons_of_mem _ hx))
      rw [if_neg hend, drop_left, hrest, map_some, encode_append]

/-- **The loop over the profile.** -/
theorem copyLeft_encode {es : List InfoElement} (hes : es ≠ []) :
    copyLeft (encode es) = some (encode (es.filter InfoElement.isOwn)) := by
  induction es with
  | nil => exact absurd rfl hes
  | cons e es ih =>
    have hlen : ¬ (e.data ++ encode es).length < e.data.length := by
      rw [length_append]
      omega
    have hcopied : (if e.id = WLAN_EID_NON_TX_BSSID_CAP || e.id = WLAN_EID_SSID then []
        else e.id :: UInt8.ofNat e.data.length :: (e.data ++ encode es).take e.data.length) =
        encode (if e.isOwn then [e] else []) := by
      rw [take_left, InfoElement.isOwn]
      by_cases hcap : e.id = WLAN_EID_NON_TX_BSSID_CAP
      · simp [hcap]
      · by_cases hssid : e.id = WLAN_EID_SSID
        · simp [hssid]
        · simp [hcap, hssid]
    have hfilter : (e :: es).filter InfoElement.isOwn =
        (if e.isOwn then [e] else []) ++ es.filter InfoElement.isOwn := by
      rw [filter_cons]
      split <;> rfl
    rw [encode_cons, copyLeft, e.toNat_length, if_neg hlen, hcopied, hfilter]
    by_cases hlast : es = []
    · have hend : (e.data ++ encode es).length = e.data.length := by simp [hlast]
      rw [if_pos hend, hlast, filter_nil, append_nil]
    · have hpos := length_encode_pos hlast
      have hend : (e.data ++ encode es).length ≠ e.data.length := by
        rw [length_append]
        omega
      rw [if_neg hend, drop_left, ih hlast, map_some, encode_append]

/-! ### All of them -/

theorem findElem_encode (eid : UInt8) (es : List InfoElement) :
    (es.find? (·.id = eid) = none ∧ findElem eid (elements 0 (encode es)) = none) ∨
    ∃ pre new post, es = pre ++ new :: post ∧ es.find? (·.id = eid) = some new ∧ new.id = eid ∧
      (∀ e ∈ pre, e.id ≠ eid) ∧ findElem eid (elements 0 (encode es)) = some (new.found (encode pre).length) := by
  rw [elements_encode, findElem]
  rcases @find?_foundFrom (fun e => e.id = eid) (fun e => e.id = eid) (fun _ _ => rfl) 0 es with hnone |
    ⟨pre, new, post, hes, hfind, hnew, hpre, hfound⟩
  · exact .inl hnone
  · refine .inr ⟨pre, new, post, hes, hfind, of_decide_eq_true hnew, ?_, ?_⟩
    · intro e he
      exact of_decide_eq_false (hpre e he)
    · rw [hfound, Nat.zero_add]

theorem ssid_encode (sub : List InfoElement) :
    (findElem WLAN_EID_SSID (elements 0 (encode sub))).elim [] Elem.bytes =
      encode (sub.find? (·.id = WLAN_EID_SSID)).toList := by
  rcases findElem_encode WLAN_EID_SSID sub with ⟨hnone, hfound⟩ | ⟨pre, new, post, -, hfind, -, -, hfound⟩
  · rw [hnone, hfound]
    rfl
  · rw [hfind, hfound]
    simp [InfoElement.found, Elem.bytes]

theorem dropWhile_append_of {pre post : List InfoElement} {new : InfoElement}
    (hpre : ∀ e ∈ pre, p e = true) (hnew : p new = false) : (pre ++ new :: post).dropWhile p = new :: post := by
  rw [dropWhile_append_of_pos hpre, dropWhile_cons_of_neg (by simp [hnew])]

theorem behindSsid_encode (ie : List InfoElement) :
    (findElem WLAN_EID_SSID (elements 0 (encode ie))).elim (encode ie) (fun e => (encode ie).drop e.stop) =
      encode (behindSsid ie) := by
  rcases findElem_encode WLAN_EID_SSID ie with ⟨hnone, hfound⟩ | ⟨pre, new, post, hie, -, hnew, hpre, hfound⟩
  · have hall : ie.dropWhile (fun e => e.id ≠ WLAN_EID_SSID) = [] := by
      refine dropWhile_eq_nil_iff.mpr ?_
      intro e he
      simpa using find?_eq_none.mp hnone e he
    rw [hfound, behindSsid, hall]
    rfl
  · have hdrop : ie.dropWhile (fun e => e.id ≠ WLAN_EID_SSID) = new :: post := by
      rw [hie]
      exact dropWhile_append_of (fun e he => by simpa using hpre e he) (by simp [hnew])
    have hstop : (new.found (encode pre).length).stop = (encode pre).length + new.bytes.length := by
      simp only [Elem.stop, Elem.pos, InfoElement.found, InfoElement.length_bytes]
      omega
    have hbytes : encode ie = encode pre ++ new.bytes ++ encode post := by
      rw [hie, encode_append, append_assoc, encode_cons]
      rfl
    rw [hfound, behindSsid, hdrop, elim_some, hstop, hbytes, ← length_append, drop_left]

theorem nonInheritance_encode (sub : List InfoElement) :
    (findExtElem WLAN_EID_EXT_NON_INHERITANCE (elements 0 (encode sub))).map Elem.data =
      (nonInheritance sub).map Elem.data := by
  rw [elements_encode, findExtElem, nonInheritance]
  rcases @find?_foundFrom
      (fun e => e.id = WLAN_EID_EXTENSION && e.data.head? = some WLAN_EID_EXT_NON_INHERITANCE)
      (fun e => e.id = 255 && e.data.head? = some WLAN_EID_EXT_NON_INHERITANCE) (fun _ _ => rfl) 0 sub with
    ⟨hnone, hfound⟩ | ⟨pre, new, post, -, hfind, -, -, hfound⟩
  · rw [hnone, hfound]
    rfl
  · rw [hfind, hfound]
    rfl

theorem genNewIe_eq (ie sub : List InfoElement) : genNewIe (encode ie) (encode sub) =
      (mergeLoopOld (findExtElem WLAN_EID_EXT_NON_INHERITANCE (elements 0 (encode sub))) (encode (behindSsid ie))
        (encode sub)).bind fun (merged, subCopy) =>
          (copyLeft subCopy).map fun left =>
            encode (sub.find? (·.id = WLAN_EID_SSID)).toList ++ merged ++ left := by
  rw [genNewIe, ssid_encode, behindSsid_encode]
  cases mergeLoopOld _ (encode (behindSsid ie)) (encode sub) with
  | none => rfl
  | some r =>
    show (copyLeft r.2).bind _ = (copyLeft r.2).map _
    cases copyLeft r.2 <;> rfl

theorem leftAfter_nil_iff {old : InfoElement} : leftAfter old sub = [] ↔ sub = [] := by
  rw [leftAfter]
  cases hfind : sub.find? (sameKind old) with
  | none => rfl
  | some new =>
    cases sub with
    | nil => cases hfind
    | cons e es =>
      dsimp only
      split
      · rw [markFirst]
        split <;> simp
      · rfl

theorem leftOf_nil_iff {olds : List InfoElement} : leftOf olds sub = [] ↔ sub = [] := by
  induction olds generalizing sub with
  | nil => rfl
  | cons old olds ih =>
    rw [leftOf, foldl_cons, ← leftOf, ih, leftAfter_nil_iff]

variable {ie : List InfoElement}

/-- **What comes out**, if the function finds its way and there is something to read. -/
theorem genNewIe_encode (h : Readable ie sub) (hie : behindSsid ie ≠ []) (hsub : sub ≠ []) :
    genNewIe (encode ie) (encode sub) = some (encode (newElements ie sub)) := by
  have hleft : leftOf (behindSsid ie) sub ≠ [] := fun hnil => hsub (leftOf_nil_iff.mp hnil)
  rw [genNewIe_eq, mergeLoopOld_encode hie h.ssid h.extension h.vendor (nonInheritance_encode sub), bind_some]
  dsimp only
  rw [copyLeft_encode hleft, map_some, newElements, encode_append, encode_append]

theorem genNewIe_of_behindSsid_nil (hie : behindSsid ie = []) : genNewIe (encode ie) (encode sub) = none := by
  rw [genNewIe_eq, hie, encode_nil, mergeLoopOld]
  · rfl
  · simp

theorem genNewIe_of_nil (h : Readable ie []) : genNewIe (encode ie) (encode []) = none := by
  by_cases hie : behindSsid ie = []
  · exact genNewIe_of_behindSsid_nil hie
  · rw [genNewIe_eq, mergeLoopOld_encode hie h.ssid h.extension h.vendor (nonInheritance_encode []), bind_some]
    dsimp only
    rw [leftOf_nil_iff.mpr rfl, encode_nil, copyLeft]
    · rfl
    · simp

end

end Mac80211
