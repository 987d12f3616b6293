import Mac80211.Elems.Parse
import Mac80211.Lib.Memory

/-!
# Where the parsed elements point

Each pointer in `elems` should be into the frame, with as many bytes behind it in its element as its
type has. In the way are the freed buffer of a profile, the first byte of an extension element, the
size of a spatial reuse element, and a UORA element of nothing but its ID; of UORA elements only the
last one matters.

## Main results

* `parsesInside_iff` — when the parser does what it should
-/

namespace Mac80211

open List
open Option hiding or_assoc

/-! ### What the pointers should be -/

/-- A pointer has the bytes of its type, or of the stored length. HE operation and spatial reuse
have optional parts. -/
def ElemField.needed (f : ElemField) (len : ℕ) (rest : List UInt8) : ℕ :=
  match f with
  | .lnkId => 20
  | .chSwTiming => 4
  | .dsParams => 1
  | .tim => max 4 len
  | .erpInfo => 1
  | .htCapElem => 26
  | .htOperation => 22
  | .vhtCapElem => 12
  | .vhtOperation => 5
  | .meshConfig => 7
  | .heOperation => (heOperSize rest).elim 6 (· - 1)
  | .heSpr => (heSprSize rest).elim 1 (· - 1)
  | .muEdcaParamSet => 13
  | .uoraElement => 1
  | .awakeWindow => 2
  | .rann => 21
  | .chSwitchIe => 3
  | .extChanswIe => 4
  | .wideBwChanswIe => 3
  | .maxChannelSwitchTime => 3
  | .pwrConstrElem => 1
  | .ciscoDtpcElem => 6
  | .timeoutInt => 5
  | .opmodeNotif => 1
  | .secChanOffs => 1
  | .meshChanswParamsIe => 6
  | .maxIdlePeriodIe => 3
  | .mbssidConfigIe => 2
  | .addbaExtIe => 1
  | .extCapab | .ssid | .suppRates | .challenge | .rsn | .extSuppRates | .wmmInfo | .wmmParam | .heCap
  | .meshId | .peering | .preq | .prep | .perr | .countryElem | .bssidIndex => len

/-- The elements that can be meant: those of the frame, and those in a channel switch wrapper. -/
def ownElements (frame : List UInt8) : List Elem :=
  elements 0 frame ++
    ((elements 0 frame).filter fun e => e.id = 196).flatMap fun e => elements e.pos e.data

/-- A pointer is to the data of an element, with the exception of one that is to the header. -/
def Elem.PointedBy (e : Elem) (f : ElemField) (off : ℕ) : Prop :=
  if f = .lnkId then off = e.off else e.pos ≤ off

/-- The pointer is into the frame, and the bytes that are needed are in its own element. -/
structure PtrInside (frame : List UInt8) (f : ElemField) (len : ℕ) (p : ElemPtr) : Prop where
  buf : p.buf = .frame
  elem : ∃ e ∈ ownElements frame, e.PointedBy f p.off ∧
    p.off + f.needed len (e.data.drop (p.off - e.pos)) ≤ e.stop ∧ e.stop ≤ frame.length

/-- All of them are. -/
def ElemsInside (frame : List UInt8) (el : Elems) : Prop :=
  ∀ f p, el.ptr f = some p → PtrInside frame f (el.len f) p

/-- **What the parser should do**: return without a look behind the end of an element, with all pointers
in the frame. -/
def ParsesInside (crc32Be : UInt32 → List UInt8 → UInt32) (frame : List UInt8) (action : Bool)
    (filter : UInt64) (crc : UInt32) (transmitter bss : Option Mac) (alloc : Bool) : Prop :=
  ∃ el crc', parseElemsCrc crc32Be frame action filter crc transmitter bss alloc = some (el, crc') ∧
    ElemsInside frame el

/-! ### What is in the way -/

/-- The subelement is the start of a profile for the BSS. -/
def IsProfileOf (frame : List UInt8) (transmitter bss : Mac) (mbssid sub : Elem) : Prop :=
  sub.id = 0 ∧ 4 ≤ sub.data.length ∧ sub.data[0]? = some WLAN_EID_NON_TX_BSSID_CAP ∧
    sub.data[1]? = some 2 ∧
    ∃ bytes index i maxBssid, mergeProfile frame mbssid sub frame.length = some bytes ∧
      findElem WLAN_EID_MULTI_BSSID_IDX (elements 0 bytes) = some index ∧ index.data[0]? = some i ∧
      i ≠ 0 ∧ mbssid.data[0]? = some maxBssid ∧ genNewBssid transmitter maxBssid i = bss

/-- The frame has a profile for the BSS that is asked for. -/
def HasProfile (frame : List UInt8) (transmitter bss : Option Mac) : Prop :=
  ∃ t ∈ transmitter, ∃ b ∈ bss, ∃ mbssid ∈ elements 0 frame, mbssid.id = WLAN_EID_MULTIPLE_BSSID ∧
    2 ≤ mbssid.data.length ∧
    ∃ sub ∈ elements (mbssid.pos + 1) (mbssid.data.drop 1), IsProfileOf frame t b mbssid sub

/-- An extension element has an extension ID, and one for spatial reuse has a byte behind it. -/
def ExtensionOk (e : Elem) : Prop :=
  e.id = WLAN_EID_EXTENSION → ∃ ext rest, e.data = ext :: rest ∧ (ext = 39 → rest ≠ [])

/-- A UORA element. -/
def Elem.isUora (e : Elem) : Bool := e.id = WLAN_EID_EXTENSION && e.data.head? = some 37

/-- The last UORA element. -/
def lastUora (es : List Elem) : Option Elem := (es.filter Elem.isUora).getLast?

/-- The last UORA element has a byte behind its extension ID. -/
def UoraOk (frame : List UInt8) : Prop := ∀ e ∈ lastUora (elements 0 frame), 2 ≤ e.data.length

/-! ### One element -/

variable {off len : ℕ} {len : ℕ}

section One

variable {action : Bool} {e : Elem} {p : Parsed}

/-- The check of the length is one for the field that gets the pointer. -/
def ElemKind.Fits : ElemKind → Prop
  | .any f => (∀ rest, ∀ len, f.needed len rest = len) ∧ f ≠ .uoraElement ∧ f ≠ .bssidIndex ∧ f ≠ .lnkId
  | .atLeast f n _ | .ifAtLeast f n =>
    (∀ rest, ∀ len, n ≤ len → f.needed len rest ≤ len) ∧ f ≠ .uoraElement ∧ f ≠ .bssidIndex ∧ f ≠ .lnkId
  | .exactly f n => (∀ rest, f.needed n rest ≤ n) ∧ f ≠ .uoraElement ∧ f ≠ .bssidIndex ∧ f ≠ .lnkId
  | _ => True

/-- **The table is right.** -/
theorem elemKind_fits (id : UInt8) : (elemKind id).Fits := by
  rw [elemKind]
  split
  all_goals simp [ElemKind.Fits, ElemField.needed]

theorem id_of_elemKind_eq_extension {id : UInt8} (h : elemKind id = .extension) :
    id = WLAN_EID_EXTENSION := by
  rw [elemKind] at h
  split at h
  all_goals cases h
  rename_i hid
  exact UInt8.toNat_inj.mp hid

theorem id_of_elemKind_eq_wrapper {id : UInt8} (h : elemKind id = .wrapper) : id = 196 := by
  rw [elemKind] at h
  split at h
  all_goals cases h
  rename_i hid
  exact UInt8.toNat_inj.mp hid

theorem elemKind_extension : elemKind WLAN_EID_EXTENSION = .extension := rfl

theorem extension_not_mem_onceOnly : WLAN_EID_EXTENSION ∉ onceOnly := by decide

/-! ### Extension elements -/

theorem isSome_heOperSize {bs : List UInt8} (h : 4 ≤ bs.length) : (heOperSize bs).isSome := by
  match bs, h with
  | _ :: _ :: _ :: _ :: _, _ => rfl

theorem parseExtension_cons {ext : UInt8} {rest : List UInt8} (h : e.data = ext :: rest) :
    parseExtension e =
      if ext = 38 ∧ 14 ≤ rest.length + 1 then
        some { store := some (.muEdcaParamSet, e.pos + 1, rest.length + 1), crc := true }
      else if ext = 35 then some { store := some (.heCap, e.pos + 1, rest.length) }
      else if ext = 36 ∧ 6 ≤ rest.length + 1 then
        (heOperSize rest).map fun size =>
          if size ≤ rest.length + 1 then
            { store := some (.heOperation, e.pos + 1, rest.length + 1) } else {}
      else if ext = 37 then some { store := some (.uoraElement, e.pos + 1, rest.length + 1) }
      else if ext = 52 ∧ rest.length + 1 = 4 then
        some { store := some (.maxChannelSwitchTime, e.pos + 1, rest.length + 1) }
      else if ext = 55 ∧ rest.length + 1 = 3 then
        some { store := some (.mbssidConfigIe, e.pos + 1, rest.length + 1) }
      else if ext = 39 then
        (heSprSize rest).map fun size =>
          if size ≤ rest.length + 1 then { store := some (.heSpr, e.pos + 1, rest.length + 1) } else {}
      else some {} := by
  rw [parseExtension, h]
  simp [map_eq_bind]

/-- An extension element is parsed without a look behind its end exactly when it is in order. -/
theorem isSome_parseExtension (h : e.id = WLAN_EID_EXTENSION) :
    (parseExtension e).isSome ↔ ExtensionOk e := by
  cases hd : e.data with
  | nil =>
    have hnone : parseExtension e = none := by
      rw [parseExtension, hd]
      rfl
    rw [hnone]
    constructor
    · intro hsome
      cases hsome
    · intro hok
      obtain ⟨_, _, hcons, _⟩ := hok h
      cases hd.symm.trans hcons
  | cons ext rest =>
    have hok : ExtensionOk e ↔ (ext = 39 → rest ≠ []) := by
      constructor
      · intro hok
        obtain ⟨_, _, hcons, hspr⟩ := hok h
        obtain ⟨rfl, rfl⟩ := List.cons.inj (hd.symm.trans hcons)
        exact hspr
      · exact fun hspr _ => ⟨ext, rest, hd, hspr⟩
    rw [hok, parseExtension_cons hd]
    split
    · rename_i hc
      simp [hc.1]
    split
    · rename_i _ hc
      simp [hc]
    split
    · rename_i _ _ hc
      have hsome := isSome_heOperSize (show 4 ≤ rest.length by omega)
      simp [hc.1, hsome]
    split
    · rename_i _ _ _ hc
      simp [hc]
    split
    · rename_i hc
      simp [hc.1]
    split
    · rename_i hc
      simp [hc.1]
    split
    · rename_i hc
      rw [hc]
      cases rest with
      | nil => simp [heSprSize]
      | cons b bs => simp [heSprSize]
    · rename_i hc
      simp [hc]

variable {f : ElemField}

/-- Where the pointer is that an extension element leaves, and what is behind it. -/
theorem parseExtension_store (h : parseExtension e = some p) (hs : p.store = some (f, off, len)) :
    off = e.pos + 1 ∧ 1 ≤ e.data.length ∧ f ≠ .bssidIndex ∧ f ≠ .lnkId ∧
      if e.data.head? = some 37 then f = .uoraElement
      else f ≠ .uoraElement ∧ f.needed len (e.data.drop 1) ≤ e.data.length - 1 := by
  cases hd : e.data with
  | nil =>
    rw [parseExtension, hd] at h
    cases h
  | cons ext rest =>
    rw [parseExtension_cons hd] at h
    simp only [head?_cons, Option.some.injEq, length_cons, drop_succ_cons, drop_zero,
      Nat.add_sub_cancel]
    split at h
    · rename_i hc
      cases h
      cases hs
      simp [hc.1, ElemField.needed]
      omega
    split at h
    · rename_i _ hc
      cases h
      cases hs
      simp [hc, ElemField.needed]
    split at h
    · rename_i _ _ hc
      obtain ⟨size, hsize, rfl⟩ := map_eq_some_iff.mp h
      split at hs
      · cases hs
        simp [hc.1, ElemField.needed, hsize]
        omega
      · cases hs
    split at h
    · rename_i _ _ _ hc
      cases h
      cases hs
      simp [hc]
    split at h
    · rename_i hc
      cases h
      cases hs
      simp [hc.1, ElemField.needed]
      omega
    split at h
    · rename_i hc
      cases h
      cases hs
      simp [hc.1, ElemField.needed]
      omega
    split at h
    · rename_i hc
      obtain ⟨size, hsize, rfl⟩ := map_eq_some_iff.mp h
      split at hs
      · cases hs
        simp [hc, ElemField.needed, hsize]
        omega
      · cases hs
    · cases h
      cases hs

/-! ### All elements -/

theorem eq_cons_of_four_le {bs : List UInt8} (h : 4 ≤ bs.length) :
    ∃ b0 b1 b2 b3 rest, bs = b0 :: b1 :: b2 :: b3 :: rest := by
  match bs, h with
  | b0 :: b1 :: b2 :: b3 :: rest, _ => exact ⟨b0, b1, b2, b3, rest, rfl⟩

theorem isSome_parseVendor : (parseVendor e).isSome := by
  rw [parseVendor]
  split
  · rfl
  · rename_i hlen
    obtain ⟨b0, b1, b2, b3, rest, hd⟩ := eq_cons_of_four_le (show 4 ≤ e.data.length by omega)
    cases rest with
    | nil => simp [hd]; split <;> rfl
    | cons b4 rest =>
      simp [hd]
      repeat' split
      all_goals rfl

theorem isSome_parseCisco : (parseCisco e).isSome := by
  rw [parseCisco]
  split
  · rfl
  · rename_i hlen
    obtain ⟨b0, b1, b2, b3, rest, hd⟩ := eq_cons_of_four_le (show 4 ≤ e.data.length by omega)
    simp [hd]
    repeat' split
    all_goals rfl

/-- **An element is parsed without a look behind its end** unless it is a bad extension element. -/
theorem isSome_parseElem : (parseElem action e).isSome ↔ ExtensionOk e := by
  by_cases hext : e.id = WLAN_EID_EXTENSION
  · rw [← isSome_parseExtension hext, parseElem, hext, elemKind_extension]
  · have hok : ExtensionOk e := fun h => absurd h hext
    refine iff_of_true ?_ hok
    rw [parseElem]
    cases hkind : elemKind e.id with
    | vendor => exact isSome_parseVendor
    | cisco => exact isSome_parseCisco
    | extension => exact absurd (id_of_elemKind_eq_extension hkind) hext
    | _ => rfl

theorem parseVendor_store (h : parseVendor e = some p) (hs : p.store = some (f, off, len)) :
    off = e.pos ∧ len = e.data.length ∧ (f = .wmmInfo ∨ f = .wmmParam) := by
  rw [parseVendor] at h
  split at h
  · cases h
    cases hs
  · obtain ⟨_, _, h⟩ := bind_eq_some_iff.mp h
    obtain ⟨_, _, h⟩ := bind_eq_some_iff.mp h
    obtain ⟨_, _, h⟩ := bind_eq_some_iff.mp h
    obtain ⟨_, _, h⟩ := bind_eq_some_iff.mp h
    split at h
    · cases h
      cases hs
    split at h
    · cases h
      cases hs
    · obtain ⟨_, _, h⟩ := bind_eq_some_iff.mp h
      split at h
      · cases h
        cases hs
        exact ⟨rfl, rfl, .inl rfl⟩
      split at h
      · cases h
        cases hs
        exact ⟨rfl, rfl, .inr rfl⟩
      · cases h
        cases hs

theorem parseCisco_store (h : parseCisco e = some p) (hs : p.store = some (f, off, len)) :
    off = e.pos ∧ e.data.length = 6 ∧ f = .ciscoDtpcElem := by
  rw [parseCisco] at h
  split at h
  · cases h
    cases hs
  · obtain ⟨_, _, h⟩ := bind_eq_some_iff.mp h
    obtain ⟨_, _, h⟩ := bind_eq_some_iff.mp h
    obtain ⟨_, _, h⟩ := bind_eq_some_iff.mp h
    obtain ⟨_, _, h⟩ := bind_eq_some_iff.mp h
    split at h
    · cases h
      cases hs
    split at h
    · cases h
      cases hs
    · rename_i hlen
      cases h
      cases hs
      exact ⟨rfl, by omega, rfl⟩

/-- What is known of a pointer an element leaves: it is into the element, or into one in it. -/
structure StoreOk (e own : Elem) (f : ElemField) (off len : ℕ) : Prop where
  isOwn : own = e ∨ e.id = 196 ∧ own ∈ elements e.pos e.data
  pointedBy : own.PointedBy f off
  needed : f ≠ .uoraElement → off + f.needed len (own.data.drop (off - own.pos)) ≤ own.stop
  bssidIndex : f ≠ .bssidIndex
  uora : f = .uoraElement ↔ e.isUora = true
  uora_off : f = .uoraElement → off = e.pos + 1

theorem isUora_eq_false (h : elemKind e.id ≠ .extension) : e.isUora = false := by
  rw [Elem.isUora, Bool.and_eq_false_iff]
  refine .inl (decide_eq_false fun hid => h ?_)
  rw [hid, elemKind_extension]

theorem StoreOk.of_pos (hkind : elemKind e.id ≠ .extension)
    (hneeded : f.needed len e.data ≤ e.data.length)
    (hf : f ≠ .uoraElement ∧ f ≠ .bssidIndex ∧ f ≠ .lnkId) : StoreOk e e f e.pos len where
  isOwn := .inl rfl
  pointedBy := (if_neg hf.2.2).mpr (Nat.le_refl _)
  needed := fun _ => by
    rw [Nat.sub_self, drop_zero, Elem.stop]
    omega
  bssidIndex := hf.2.1
  uora := by simp [hf.1, isUora_eq_false hkind]
  uora_off := fun h => absurd h hf.1

/-- **Where the pointers of an element are.** -/
theorem parseElem_store (h : parseElem action e = some p)
    (hs : p.store = some (f, off, len)) : ∃ own, StoreOk e own f off len := by
  have hfits := elemKind_fits e.id
  rw [parseElem] at h
  cases hkind : elemKind e.id with
  | any f' =>
    rw [hkind] at h hfits
    cases h
    cases hs
    exact ⟨e, .of_pos (by simp [hkind]) (hfits.1 _ _).le hfits.2⟩
  | atLeast f' n crc =>
    rw [hkind] at h hfits
    cases h
    split at hs
    · rename_i hlen
      cases hs
      exact ⟨e, .of_pos (by simp [hkind]) (hfits.1 _ _ hlen) hfits.2⟩
    · cases hs
  | ifAtLeast f' n =>
    rw [hkind] at h hfits
    cases h
    split at hs
    · rename_i hlen
      cases hs
      exact ⟨e, .of_pos (by simp [hkind]) (hfits.1 _ _ hlen) hfits.2⟩
    · cases hs
  | exactly f' n =>
    rw [hkind] at h hfits
    cases h
    split at hs
    · rename_i hlen
      cases hs
      exact ⟨e, .of_pos (by simp [hkind]) (hlen ▸ hfits.1 _) hfits.2⟩
    · cases hs
  | linkId =>
    rw [hkind] at h
    cases h
    split at hs
    · rename_i hlen
      cases hs
      refine ⟨e, .inl rfl, rfl, fun _ => ?_, by decide, ?_,
        fun hf => absurd hf (by decide)⟩
      · simp only [ElemField.needed, Elem.stop, Elem.pos]
        omega
      · rw [isUora_eq_false (by simp [hkind])]
        decide
    · cases hs
  | wideBw =>
    rw [hkind] at h
    cases h
    split at hs
    · rename_i hlen
      cases hs
      exact ⟨e, .of_pos (by simp [hkind])
        (by simp only [ElemField.needed]; omega) (by decide)⟩
    · cases hs
  | wrapper =>
    rw [hkind] at h
    cases h
    rw [parseWrapper] at hs
    split at hs
    · cases hs
    split at hs
    · cases hs
    · rename_i ie hie
      split at hs
      · rename_i hlen
        cases hs
        refine ⟨ie, .inr ⟨id_of_elemKind_eq_wrapper hkind, mem_of_find?_eq_some hie⟩, Nat.le_refl _,
          fun _ => ?_, by decide, ?_, fun hf => absurd hf (by decide)⟩
        · simp only [ElemField.needed, Elem.stop]
          omega
        · rw [isUora_eq_false (by simp [hkind])]
          decide
      · cases hs
  | vendor =>
    rw [hkind] at h
    obtain ⟨rfl, rfl, hf⟩ := parseVendor_store h hs
    refine ⟨e, .of_pos (by simp [hkind]) ?_ ?_⟩
    · rcases hf with rfl | rfl <;> exact Nat.le_refl _
    · rcases hf with rfl | rfl <;> decide
  | cisco =>
    rw [hkind] at h
    obtain ⟨rfl, hlen, rfl⟩ := parseCisco_store h hs
    exact ⟨e, .of_pos (by simp [hkind])
      (by simp only [ElemField.needed]; omega) (by decide)⟩
  | extension =>
    rw [hkind] at h
    obtain ⟨rfl, hlen, hidx, hlnk, huora⟩ := parseExtension_store h hs
    have hid := id_of_elemKind_eq_extension hkind
    refine ⟨e, .inl rfl, (if_neg hlnk).mpr (Nat.le_succ _), fun hf => ?_, hidx, ?_, fun _ => rfl⟩
    · split at huora
      · exact absurd huora hf
      · rw [Nat.add_sub_cancel_left, Elem.stop]
        omega
    · rw [Elem.isUora, Bool.and_eq_true, decide_eq_true_eq, decide_eq_true_eq]
      split at huora
      · rename_i hhead
        exact iff_of_true huora ⟨hid, hhead⟩
      · rename_i hhead
        exact iff_of_false huora.1 fun hand => hhead hand.2
  | unknown =>
    rw [hkind] at h
    cases h
    cases hs

theorem parseElem_uora (hu : e.isUora = true) (h : parseElem action e = some p) :
    ∃ len, p.store = some (.uoraElement, e.pos + 1, len) := by
  rw [Elem.isUora, Bool.and_eq_true, decide_eq_true_eq, decide_eq_true_eq] at hu
  obtain ⟨hid, hhead⟩ := hu
  obtain ⟨rest, hd⟩ := head?_eq_some_iff.mp hhead
  rw [parseElem, hid, elemKind_extension] at h
  dsimp only at h
  rw [parseExtension_cons hd] at h
  cases h
  exact ⟨_, rfl⟩

end One

/-! ### The loop -/

variable {e : Elem}

section Loop

variable {crc32Be : UInt32 → List UInt8 → UInt32} {action : Bool} {filter : UInt64}
variable {checkInherit : Option Elem} {buf : ElemBuf} {es : List Elem} {seen : List UInt8} {crc crc' : UInt32}
variable {el el' : Elems} {f : ElemField}

theorem Elems.note_ptr (el : Elems) (b : Bool) : (el.note b).ptr = el.ptr := rfl

theorem ExtensionOk.of_onceOnly (h : e.id ∈ onceOnly) : ExtensionOk e := by
  intro hid
  rw [hid] at h
  exact absurd h extension_not_mem_onceOnly

/-- **The loop over a frame looks behind the end of no element**, unless one of them is a bad extension
element. -/
theorem isSome_parseLoop :
    (parseLoop crc32Be action filter none buf es seen el crc).isSome ↔ ∀ e ∈ es, ExtensionOk e := by
  induction es generalizing seen el crc with
  | nil => simp [parseLoop]
  | cons e es ih =>
    rw [forall_mem_cons, parseLoop, Memory.bind_of_eq (show skipsElem none e = some false from rfl),
      if_neg Bool.false_ne_true]
    split
    · rename_i honce
      rw [ih]
      exact (and_iff_right (ExtensionOk.of_onceOnly honce.1)).symm
    · rw [Memory.isSome_bind fun _ => ih, isSome_parseElem]

theorem parseLoop_rule {P : Elems → Prop} (hnote : ∀ el b, P el → P (el.note b))
    (hput : ∀ e ∈ es, ∀ p, parseElem action e = some p → ∀ el, P el → P (el.put buf p.store)) (hel : P el)
    (h : parseLoop crc32Be action filter checkInherit buf es seen el crc = some (el', crc')) : P el' := by
  induction es generalizing seen el crc with
  | nil =>
    cases h
    exact hel
  | cons e es ih =>
    rw [forall_mem_cons] at hput
    rw [parseLoop] at h
    obtain ⟨skip, _, h⟩ := bind_eq_some_iff.mp h
    split at h
    · exact ih hput.2 hel h
    split at h
    · exact ih hput.2 (hnote el true hel) h
    · obtain ⟨p, hp, h⟩ := bind_eq_some_iff.mp h
      exact ih hput.2 (hnote _ _ (hput.1 p hp el hel)) h

theorem mem_of_lastUora (h : lastUora es = some e) : e ∈ es ∧ e.isUora = true :=
  mem_filter.mp (mem_of_getLast? h)

theorem lastUora_cons (e : Elem) (es : List Elem) :
    lastUora (e :: es) = (lastUora es <|> if e.isUora then some e else none) := by
  rw [lastUora, lastUora, filter_cons]
  split
  · rw [getLast?_cons]
    cases (es.filter Elem.isUora).getLast? <;> rfl
  · cases (es.filter Elem.isUora).getLast? <;> rfl

theorem parseLoop_uora
    (h : parseLoop crc32Be action filter none buf es seen el crc = some (el', crc')) :
    el'.ptr .uoraElement =
      ((lastUora es).map (fun e => ⟨buf, e.pos + 1⟩) <|> el.ptr .uoraElement) := by
  induction es generalizing seen el crc with
  | nil =>
    cases h
    rfl
  | cons e es ih =>
    rw [parseLoop, Memory.bind_of_eq (show skipsElem none e = some false from rfl),
      if_neg Bool.false_ne_true] at h
    rw [lastUora_cons]
    split at h
    · rename_i honce
      have hu : e.isUora = false := by
        rw [Elem.isUora, Bool.and_eq_false_iff]
        refine .inl (decide_eq_false fun hid => ?_)
        exact extension_not_mem_onceOnly (hid ▸ honce.1)
      rw [ih h, hu, Elems.note_ptr]
      cases lastUora es <;> rfl
    · obtain ⟨p, hp, h⟩ := bind_eq_some_iff.mp h
      rw [ih h, Elems.note_ptr]
      by_cases hu : e.isUora = true
      · obtain ⟨len, hs⟩ := parseElem_uora hu hp
        rw [hs, if_pos hu]
        cases lastUora es with
        | none => simp [Elems.put]
        | some e' => rfl
      · rw [if_neg hu]
        have hkeep : (el.put buf p.store).ptr .uoraElement = el.ptr .uoraElement := by
          cases hs : p.store with
          | none => rfl
          | some st =>
            obtain ⟨f, off, len⟩ := st
            obtain ⟨own, hst⟩ := parseElem_store hp hs
            exact Function.update_of_ne (fun hf => hu (hst.uora.mp hf.symm)) _ _
        rw [hkeep]
        cases lastUora es <;> rfl

theorem parseLoop_bssidIndex
    (h : parseLoop crc32Be action filter checkInherit buf es seen el crc = some (el', crc')) :
    el'.ptr .bssidIndex = el.ptr .bssidIndex := by
  refine @parseLoop_rule crc32Be action filter checkInherit buf es seen crc crc' el el'
    (fun el₁ => el₁.ptr .bssidIndex = el.ptr .bssidIndex) (fun _ _ hp => hp) ?_ rfl h
  intro e _ p hp el₁ hel
  cases hs : p.store with
  | none => exact hel
  | some st =>
    obtain ⟨f, off, len⟩ := st
    obtain ⟨own, hst⟩ := parseElem_store hp hs
    exact (Function.update_of_ne hst.bssidIndex.symm _ _).trans hel

theorem StoreOk.mem_ownElements {frame : List UInt8} {e own : Elem}
    (h : StoreOk e own f off len) (he : e ∈ elements 0 frame) :
    own ∈ ownElements frame ∧ own.stop ≤ frame.length := by
  have hin := elem_end_le he
  rw [Nat.zero_add] at hin
  rw [ownElements, mem_append]
  rcases h.isOwn with rfl | ⟨hid, hmem⟩
  · exact ⟨.inl he, hin.2⟩
  · refine ⟨.inr (mem_flatMap.mpr ⟨e, mem_filter.mpr ⟨he, by simp [hid]⟩, hmem⟩), ?_⟩
    have hown := elem_end_le hmem
    exact hown.2.trans hin.2

/-- **All pointers that the loop over a frame leaves are inside**, with the exception of that to a UORA
element. -/
theorem parseLoop_inside {frame : List UInt8}
    (h : parseLoop crc32Be action filter none .frame (elements 0 frame) [] {} crc = some (el', crc'))
    (hf : f ≠ .uoraElement) {p : ElemPtr} (hp : el'.ptr f = some p) :
    PtrInside frame f (el'.len f) p := by
  revert f
  refine @parseLoop_rule crc32Be action filter none .frame (elements 0 frame) [] crc crc' {} el'
    (fun el => ∀ {f}, f ≠ .uoraElement → el.ptr f = some p → PtrInside frame f (el.len f) p)
    (fun _ _ hel => hel) ?_ (fun _ hp => by cases hp) h
  intro e he parsed hparse el hel f hf hptr
  cases hs : parsed.store with
  | none =>
    rw [hs] at hptr
    exact hel hf hptr
  | some st =>
    obtain ⟨f', off, len⟩ := st
    obtain ⟨own, hst⟩ := parseElem_store hparse hs
    rw [hs] at hptr
    by_cases heq : f = f'
    · subst heq
      have hp : p = ⟨.frame, off⟩ := by simpa [Elems.put] using hptr.symm
      have hlen : (el.put .frame (some (f, off, len))).len f = len := by simp [Elems.put]
      obtain ⟨hmem, hle⟩ := hst.mem_ownElements he
      rw [hlen, hp]
      exact ⟨rfl, own, hmem, hst.pointedBy, hst.needed hf, hle⟩
    · have hptr' : (el.put .frame (some (f', off, len))).ptr f = el.ptr f :=
        Function.update_of_ne heq _ _
      have hlen : (el.put .frame (some (f', off, len))).len f = el.len f :=
        Function.update_of_ne heq _ _
      rw [hptr'] at hptr
      rw [hlen]
      exact hel hf hptr

end Loop

/-! ### The profile -/

variable {bytes : List UInt8}

section Profile

variable {frame : List UInt8} {transmitter bss : Mac} {mbssid sub : Elem} {p : Profile}

theorem isSome_getProfileContinuation : (getProfileContinuation frame mbssid sub).isSome := by
  rw [getProfileContinuation]
  split
  · rfl
  · rename_i next _
    split
    · rfl
    split
    · rfl
    · rename_i hlen
      obtain ⟨b0, b1, b2, b3, rest, hd⟩ := eq_cons_of_four_le (show 4 ≤ next.data.length by omega)
      simp only [hd, getElem?_cons_succ, getElem?_cons_zero]
      simp only [bind_eq_bind, bind_some]
      repeat' split
      all_goals rfl

theorem isSome_mergeLoop {maxCopyLen n : ℕ} {merged : List UInt8} :
    (mergeLoop frame mbssid sub maxCopyLen n merged).isSome := by
  induction n generalizing merged with
  | zero => rfl
  | succ n ih =>
    obtain ⟨next, hnext⟩ := Option.isSome_iff_exists.mp (@isSome_getProfileContinuation frame mbssid sub)
    rw [mergeLoop, Memory.bind_of_eq hnext]
    cases next with
    | none => rfl
    | some next =>
      dsimp only
      split
      · rfl
      · exact ih

theorem isSome_mergeProfile {maxCopyLen : ℕ} : (mergeProfile frame mbssid sub maxCopyLen).isSome := by
  rw [mergeProfile]
  split
  · rfl
  · exact isSome_mergeLoop

/-- A subelement that is the start of a profile: the profile put together, and where its index is if it
is the wanted one. -/
def candidate (frame : List UInt8) (transmitter bss : Mac) (mbssid sub : Elem) :
    Option (List UInt8 × Option (ℕ × ℕ)) :=
  if sub.id ≠ 0 ∨ sub.data.length < 4 ∨ sub.data[0]? ≠ some WLAN_EID_NON_TX_BSSID_CAP ∨
      sub.data[1]? ≠ some 2 then none
  else (mergeProfile frame mbssid sub frame.length).map fun bytes =>
    (bytes, (findElem WLAN_EID_MULTI_BSSID_IDX (elements 0 bytes)).bind fun index =>
      match index.data[0]?, mbssid.data[0]? with
      | some i, some maxBssid =>
        if i ≠ 0 ∧ genNewBssid transmitter maxBssid i = bss then some (index.pos, index.data.length)
        else none
      | _, _ => none)

theorem candidate_of_start (hid : sub.id = 0) (hlen : 4 ≤ sub.data.length)
    (hcap : sub.data[0]? = some WLAN_EID_NON_TX_BSSID_CAP) (hcapLen : sub.data[1]? = some 2)
    (hbytes : mergeProfile frame mbssid sub frame.length = some bytes)
    {maxBssid : UInt8} (hmax : mbssid.data[0]? = some maxBssid) :
    candidate frame transmitter bss mbssid sub =
      some (bytes, (findElem WLAN_EID_MULTI_BSSID_IDX (elements 0 bytes)).bind fun index =>
        index.data[0]?.bind fun i => if i ≠ 0 ∧ genNewBssid transmitter maxBssid i = bss then
          some (index.pos, index.data.length) else none) := by
  have hstart : ¬(sub.id ≠ 0 ∨ sub.data.length < 4 ∨ sub.data[0]? ≠ some WLAN_EID_NON_TX_BSSID_CAP ∨
      sub.data[1]? ≠ some 2) := by
    rintro (h | h | h | h)
    · exact h hid
    · omega
    · exact h hcap
    · exact h hcapLen
  rw [candidate, if_neg hstart, hbytes, map_some]
  refine congrArg some (congrArg (Prod.mk bytes) (congrArg (Option.bind _) (funext fun index => ?_)))
  rw [hmax]
  cases index.data[0]? with
  | none => rfl
  | some i => rfl

theorem candidate_found_iff (hm : 2 ≤ mbssid.data.length) {index : ℕ × ℕ} :
    candidate frame transmitter bss mbssid sub = some (bytes, some index) ↔
      IsProfileOf frame transmitter bss mbssid sub ∧
      mergeProfile frame mbssid sub frame.length = some bytes ∧
      ∃ e, findElem WLAN_EID_MULTI_BSSID_IDX (elements 0 bytes) = some e ∧
        index = (e.pos, e.data.length) := by
  obtain ⟨maxBssid, hmax⟩ : ∃ maxBssid, mbssid.data[0]? = some maxBssid :=
    Option.isSome_iff_exists.mp (by rw [isSome_getElem?]; omega)
  obtain ⟨bytes', hbytes⟩ := Option.isSome_iff_exists.mp
    (@isSome_mergeProfile frame mbssid sub frame.length)
  constructor
  · intro h
    by_cases hstart : sub.id ≠ 0 ∨ sub.data.length < 4 ∨ sub.data[0]? ≠ some WLAN_EID_NON_TX_BSSID_CAP ∨
        sub.data[1]? ≠ some 2
    · rw [candidate, if_pos hstart] at h
      exact nomatch h
    · simp only [not_or, not_not, Nat.not_lt] at hstart
      obtain ⟨hid, hlen, hcap, hcapLen⟩ := hstart
      rw [candidate_of_start hid hlen hcap hcapLen hbytes hmax] at h
      obtain ⟨rfl, hfound⟩ := Prod.mk.inj (Option.some.inj h)
      obtain ⟨e, he, hfound⟩ := bind_eq_some_iff.mp hfound
      obtain ⟨i, hi, hfound⟩ := bind_eq_some_iff.mp hfound
      split at hfound
      · rename_i hgen
        cases hfound
        exact ⟨⟨hid, hlen, hcap, hcapLen, bytes', e, i, maxBssid, hbytes, he, hi, hgen.1, hmax, hgen.2⟩,
          hbytes, e, he, rfl⟩
      · exact nomatch hfound
  · rintro ⟨⟨hid, hlen, hcap, hcapLen, _, e', i, _, hbytes₁, he', hi, hne, hmax₁, hgen⟩, hbytes₂, e, he, rfl⟩
    cases hbytes₁.symm.trans hbytes₂
    cases he'.symm.trans he
    rw [candidate_of_start hid hlen hcap hcapLen hbytes₂ hmax₁, he, bind_some, hi, bind_some,
      if_pos ⟨hne, hgen⟩]

theorem isProfileOf_iff (hm : 2 ≤ mbssid.data.length) :
    IsProfileOf frame transmitter bss mbssid sub ↔
      ∃ bytes index, candidate frame transmitter bss mbssid sub = some (bytes, some index) := by
  constructor
  · intro h
    obtain ⟨-, -, -, -, bytes, e, -, -, hbytes, he, -⟩ := id h
    exact ⟨bytes, _, (candidate_found_iff hm).mpr ⟨h, hbytes, e, he, rfl⟩⟩
  · rintro ⟨bytes, index, h⟩
    exact ((candidate_found_iff hm).mp h).1

theorem findProfileSubs_step (hm : 2 ≤ mbssid.data.length) (subs : List Elem) (p : Profile) :
    findProfileSubs frame transmitter bss mbssid (sub :: subs) p =
      match candidate frame transmitter bss mbssid sub with
      | none => findProfileSubs frame transmitter bss mbssid subs p
      | some (bytes, none) => findProfileSubs frame transmitter bss mbssid subs { p with bytes := bytes }
      | some (bytes, some index) => some {
          bytes := bytes
          index := some index } := by
  obtain ⟨maxBssid, hmax⟩ : ∃ maxBssid, mbssid.data[0]? = some maxBssid :=
    Option.isSome_iff_exists.mp (by rw [isSome_getElem?]; omega)
  obtain ⟨bytes, hbytes⟩ := Option.isSome_iff_exists.mp
    (@isSome_mergeProfile frame mbssid sub frame.length)
  rw [findProfileSubs]
  by_cases hvalid : sub.id ≠ 0 ∨ sub.data.length < 4
  · have hnot : candidate frame transmitter bss mbssid sub = none := if_pos (by tauto)
    rw [if_pos hvalid, hnot]
  rw [if_neg hvalid]
  rw [not_or, not_not, Nat.not_lt] at hvalid
  obtain ⟨hid, hlen⟩ := hvalid
  obtain ⟨cap, capLen, b2, b3, rest, hd⟩ := eq_cons_of_four_le hlen
  have hcap : sub.data[0]? = some cap := by rw [hd]; rfl
  have hcapLen : sub.data[1]? = some capLen := by rw [hd]; rfl
  rw [Memory.bind_of_eq hcap, Memory.bind_of_eq hcapLen]
  by_cases hfirst : cap ≠ WLAN_EID_NON_TX_BSSID_CAP ∨ capLen ≠ 2
  · have hnot : candidate frame transmitter bss mbssid sub = none :=
      if_pos (by simpa [hcap, hcapLen] using .inr (.inr hfirst))
    rw [if_pos hfirst, hnot]
  rw [if_neg hfirst]
  rw [not_or, not_not, not_not] at hfirst
  obtain ⟨rfl, rfl⟩ := hfirst
  rw [Memory.bind_of_eq hbytes, candidate_of_start hid hlen hcap hcapLen hbytes hmax]
  cases findElem WLAN_EID_MULTI_BSSID_IDX (elements 0 bytes) with
  | none => rfl
  | some index =>
    dsimp only
    rw [bind_some]
    cases index.data with
    | nil => rfl
    | cons i is =>
      dsimp only
      rw [getElem?_cons_zero, bind_some]
      by_cases hzero : i = 0
      · rw [if_pos hzero, if_neg (by simp [hzero])]
      · rw [if_neg hzero, Memory.bind_of_eq hmax]
        by_cases hgen : genNewBssid transmitter maxBssid i = bss
        · rw [if_pos hgen, if_pos ⟨hzero, hgen⟩]
          rfl
        · rw [if_neg hgen, if_neg (fun h => hgen h.2)]

/-- The inner loop finds a profile exactly when there is one, and keeps what was found before. -/
theorem findProfileSubs_spec (hm : 2 ≤ mbssid.data.length) (subs : List Elem) (p : Profile) :
    ∃ p', findProfileSubs frame transmitter bss mbssid subs p = some p' ∧
      (p'.index.isSome ↔ p.index.isSome ∨ ∃ sub ∈ subs, IsProfileOf frame transmitter bss mbssid sub) := by
  induction subs generalizing p with
  | nil => exact ⟨p, rfl, by simp⟩
  | cons sub subs ih =>
    rw [findProfileSubs_step hm, exists_mem_cons_iff, isProfileOf_iff hm]
    cases candidate frame transmitter bss mbssid sub with
    | none => simpa using ih p
    | some c =>
      obtain ⟨bytes, index⟩ := c
      cases index with
      | none => simpa using ih { p with bytes := bytes }
      | some index => exact ⟨_, rfl, by simp⟩

/-- The elements that have a profile for the BSS. -/
def HasProfileOf (frame : List UInt8) (transmitter bss : Mac) (mbssid : Elem) : Prop :=
  mbssid.id = WLAN_EID_MULTIPLE_BSSID ∧ 2 ≤ mbssid.data.length ∧
    ∃ sub ∈ elements (mbssid.pos + 1) (mbssid.data.drop 1), IsProfileOf frame transmitter bss mbssid sub

theorem findProfileElems_spec (es : List Elem) (p : Profile) :
    ∃ p', findProfileElems frame transmitter bss es p = some p' ∧
      (p'.index.isSome ↔ p.index.isSome ∨ ∃ e ∈ es, HasProfileOf frame transmitter bss e) := by
  induction es generalizing p with
  | nil => exact ⟨p, rfl, by simp⟩
  | cons e es ih =>
    rw [findProfileElems]
    by_cases he : e.id ≠ WLAN_EID_MULTIPLE_BSSID ∨ e.data.length < 2
    · rw [if_pos he]
      have hnot : ¬ HasProfileOf frame transmitter bss e := by
        rintro ⟨hid, hlen, _⟩
        rcases he with hne | hlt
        · exact hne hid
        · omega
      obtain ⟨p', hp', hiff⟩ := ih p
      refine ⟨p', hp', hiff.trans ?_⟩
      simp [hnot]
    · rw [if_neg he]
      rw [not_or, not_not, Nat.not_lt] at he
      obtain ⟨p₁, hp₁, hiff₁⟩ := @findProfileSubs_spec frame transmitter bss e he.2
        (elements (e.pos + 1) (e.data.drop 1)) p
      obtain ⟨p', hp', hiff⟩ := ih p₁
      refine ⟨p', (Memory.bind_of_eq hp₁ _).trans hp', hiff.trans ?_⟩
      have hof : HasProfileOf frame transmitter bss e ↔
          ∃ sub ∈ elements (e.pos + 1) (e.data.drop 1), IsProfileOf frame transmitter bss e sub :=
        ⟨fun h => h.2.2, fun h => ⟨he.1, he.2, h⟩⟩
      rw [hiff₁, ← hof, exists_mem_cons_iff, or_assoc]

/-- **The search for a profile finds one exactly when there is one.** -/
theorem findBssidProfile_spec (transmitter bss : Option Mac) :
    ∃ p, findBssidProfile frame transmitter bss = some p ∧
      ((p.index.isSome ∧ HasProfile frame transmitter bss) ∨
        (p = {} ∧ ¬ HasProfile frame transmitter bss)) := by
  have hhas : ∀ t b, HasProfile frame (some t) (some b) ↔
      ∃ e ∈ elements 0 frame, HasProfileOf frame t b e := by
    intro t b
    simp [HasProfile, HasProfileOf]
  rcases transmitter with _ | t
  · exact ⟨{}, rfl, .inr ⟨rfl, by simp [HasProfile]⟩⟩
  rcases bss with _ | b
  · exact ⟨{}, rfl, .inr ⟨rfl, by simp [HasProfile]⟩⟩
  obtain ⟨p, hp, hiff⟩ := @findProfileElems_spec frame t b (elements 0 frame) {}
  rw [hhas]
  by_cases hsome : p.index.isSome
  · refine ⟨p, ?_, .inl ⟨hsome, (hiff.mp hsome).resolve_left (by simp)⟩⟩
    rw [findBssidProfile, hp, map_some, if_pos hsome]
  · refine ⟨{}, ?_, .inr ⟨rfl, fun h => hsome (hiff.mpr (.inr h))⟩⟩
    rw [findBssidProfile, hp, map_some, if_neg hsome]

end Profile

/-! ### The whole parser -/

section Whole

variable {crc32Be : UInt32 → List UInt8 → UInt32} {frame : List UInt8} {action : Bool} {filter : UInt64}
variable {crc crc' : UInt32} {transmitter bss : Option Mac} {alloc : Bool} {p : Profile} {el el' : Elems}

theorem parsePass_bssidIndex {checkInherit : Option Elem} {buf : ElemBuf}
    (h : parsePass crc32Be action filter checkInherit buf bytes el crc = some (el', crc')) :
    el'.ptr .bssidIndex = el.ptr .bssidIndex := by
  obtain ⟨⟨el₁, crc₁⟩, hloop, hret⟩ := bind_eq_some_iff.mp h
  cases hret
  exact (parseLoop_bssidIndex hloop :)

theorem setDtim_ptr (h : setDtim frame p el = some el') : el'.ptr = el.ptr ∧ el'.len = el.len := by
  rw [setDtim] at h
  split at h
  · cases h
    exact ⟨rfl, rfl⟩
  split at h
  · cases h
    exact ⟨rfl, rfl⟩
  · obtain ⟨_, _, h⟩ := bind_eq_some_iff.mp h
    obtain ⟨_, _, h⟩ := bind_eq_some_iff.mp h
    cases h
    exact ⟨rfl, rfl⟩

theorem overrideDtim_ptr (h : overrideDtim frame p el = some el') : el'.ptr = el.ptr := by
  rw [overrideDtim] at h
  split at h
  · cases h
    rfl
  · obtain ⟨_, _, h⟩ := bind_eq_some_iff.mp h
    obtain ⟨_, _, h⟩ := bind_eq_some_iff.mp h
    cases h
    rfl

/-- **The pointer to the index of a profile is one into the buffer that is freed.** -/
theorem bssidIndex_dangles {index : ℕ × ℕ} (hp : findBssidProfile frame transmitter bss = some p)
    (hindex : p.index = some index)
    (h : parseElemsCrc crc32Be frame action filter crc transmitter bss true = some (el, crc')) :
    el.ptr .bssidIndex = some ⟨.profile, index.1⟩ := by
  rw [parseElemsCrc, if_pos rfl, Memory.bind_of_eq hp, hindex] at h
  obtain ⟨⟨el₁, crc₁⟩, hpass, h⟩ := bind_eq_some_iff.mp h
  obtain ⟨el₂, hprofile, h⟩ := bind_eq_some_iff.mp h
  obtain ⟨el₃, hdtim, h⟩ := bind_eq_some_iff.mp h
  obtain ⟨el₄, hover, h⟩ := bind_eq_some_iff.mp h
  cases h
  have h₂ : el₂.ptr .bssidIndex = el₁.ptr .bssidIndex := by
    split at hprofile
    · cases hprofile
      rfl
    · obtain ⟨⟨el₅, crc₅⟩, hpass₂, rfl⟩ := map_eq_some_iff.mp hprofile
      exact parsePass_bssidIndex hpass₂
  rw [overrideDtim_ptr hover, (setDtim_ptr hdtim).1, h₂, parsePass_bssidIndex hpass]
  simp [Elems.put]

/-- Without a profile there is one pass over the frame, and the DTIM count and period are read. -/
theorem parseElemsCrc_of_no_profile
    (h : (if alloc then findBssidProfile frame transmitter bss else some {} : Option Profile) = some {}) :
    parseElemsCrc crc32Be frame action filter crc transmitter bss alloc =
      (parsePass crc32Be action filter none .frame frame {} crc).bind fun r =>
        (setDtim frame {} r.1).bind fun el =>
          (overrideDtim frame {} el).bind fun el => some (el, r.2) := by
  have hnone : findExtElem 56 (elements 0 []) = none := by
    rw [elements]
    · rfl
    · intro _ _ _ hcons
      cases hcons
  rw [parseElemsCrc, Memory.bind_of_eq h]
  dsimp only
  rw [hnone]
  show Option.bind (parsePass crc32Be action filter none .frame frame {} crc) _ = _
  cases parsePass crc32Be action filter none .frame frame {} crc <;> rfl

theorem isSome_setDtim (h : ∀ tim, el.ptr .tim = some tim → PtrInside frame .tim (el.len .tim) tim) :
    (setDtim frame p el).isSome := by
  rw [setDtim]
  split
  · rfl
  split
  · rfl
  · rename_i tim htim _
    obtain ⟨hbuf, e, -, -, hneeded, hstop⟩ := h tim htim
    simp only [ElemField.needed] at hneeded
    rw [hbuf]
    rw [Memory.isSome_bind₂, ElemBuf.read, ElemBuf.read, isSome_getElem?, isSome_getElem?]
    omega

theorem ptrInside_uora (he : e ∈ elements 0 frame) (hlen : 2 ≤ e.data.length) :
    PtrInside frame .uoraElement len ⟨.frame, e.pos + 1⟩ := by
  have hin := (elem_end_le he).2
  refine ⟨rfl, e, mem_append_left _ he, Nat.le_succ _, ?_, by omega⟩
  simp only [ElemField.needed, Elem.stop]
  omega

/-- The byte a pointer to a UORA element needs is in that element, since elements do not overlap. -/
theorem uora_of_ptrInside (he : e ∈ elements 0 frame) (hu : e.isUora = true)
    (h : PtrInside frame .uoraElement len ⟨.frame, e.pos + 1⟩) : 2 ≤ e.data.length := by
  rw [Elem.isUora, Bool.and_eq_true, decide_eq_true_eq, decide_eq_true_eq] at hu
  obtain ⟨hid, hhead⟩ := hu
  have hlen : 1 ≤ e.data.length := by
    obtain ⟨rest, hd⟩ := head?_eq_some_iff.mp hhead
    simp [hd]
  obtain ⟨-, own, hown, hpos, hneeded, -⟩ := h
  have hpos : own.pos ≤ e.pos + 1 := hpos
  simp only [ElemField.needed] at hneeded
  rw [ownElements, mem_append, mem_flatMap] at hown
  rcases hown with hown | ⟨w, hw, hown⟩
  · rcases eq_or_disjoint hown he with rfl | hbefore | hbehind
    · simp only [Elem.stop] at hneeded
      omega
    · simp only [Elem.stop, Elem.pos] at *
      omega
    · simp only [Elem.stop, Elem.pos] at *
      omega
  · obtain ⟨hw, hwid⟩ := mem_filter.mp hw
    have hwin := elem_end_le hown
    rcases eq_or_disjoint hw he with rfl | hbefore | hbehind
    · rw [hid] at hwid
      cases hwid
    · simp only [Elem.stop, Elem.pos] at *
      omega
    · simp only [Elem.stop, Elem.pos] at *
      omega

/-- **Without a profile**, all pointers are inside unless there is a bad extension element, or the
last UORA element is too short. -/
theorem parsesInside_of_no_profile
    (h : (if alloc then findBssidProfile frame transmitter bss else some {} : Option Profile) = some {}) :
    ParsesInside crc32Be frame action filter crc transmitter bss alloc ↔
      (∀ e ∈ elements 0 frame, ExtensionOk e) ∧ UoraOk frame := by
  have hrun : ∀ {el₁ crc₁}, parseLoop crc32Be action filter none .frame (elements 0 frame) [] {} crc =
      some (el₁, crc₁) → ∃ el, parseElemsCrc crc32Be frame action filter crc transmitter bss alloc =
        some (el, crc₁) ∧ el.ptr = el₁.ptr ∧ el.len = el₁.len := by
    intro el₁ crc₁ hloop
    have hpass : parsePass crc32Be action filter none .frame frame {} crc =
        some (el₁.note (!elementsCompleted frame), crc₁) := Memory.bind_of_eq hloop _
    obtain ⟨el₂, hdtim⟩ := Option.isSome_iff_exists.mp
      (@isSome_setDtim frame {} (el₁.note (!elementsCompleted frame)) fun tim htim =>
        parseLoop_inside hloop (by decide) htim)
    have hptr := setDtim_ptr hdtim
    have hindex : el₂.ptr .bssidIndex = none := by
      rw [hptr.1]
      exact parseLoop_bssidIndex hloop
    have hover : overrideDtim frame {} el₂ = some el₂ := by
      rw [overrideDtim, hindex]
    refine ⟨el₂, ?_, hptr⟩
    rw [parseElemsCrc_of_no_profile h, hpass, bind_some, hdtim, bind_some, hover,
      bind_some]
  constructor
  · rintro ⟨el, crc', hparse, hin⟩
    have hsome : (parseLoop crc32Be action filter none .frame (elements 0 frame) [] {} crc).isSome := by
      rw [parseElemsCrc_of_no_profile h] at hparse
      obtain ⟨_, hpass, _⟩ := bind_eq_some_iff.mp hparse
      obtain ⟨_, hloop, _⟩ := bind_eq_some_iff.mp hpass
      exact Option.isSome_iff_exists.mpr ⟨_, hloop⟩
    refine ⟨isSome_parseLoop.mp hsome, fun e he => ?_⟩
    obtain ⟨⟨el₁, crc₁⟩, hloop⟩ := Option.isSome_iff_exists.mp hsome
    obtain ⟨el', hparse', hptr, -⟩ := hrun hloop
    obtain ⟨rfl, rfl⟩ := Prod.mk.inj (Option.some.inj (hparse.symm.trans hparse'))
    have huora : el.ptr .uoraElement = some ⟨.frame, e.pos + 1⟩ := by
      rw [hptr, parseLoop_uora hloop, mem_def.mp he]
      rfl
    obtain ⟨hmem, hu⟩ := mem_of_lastUora he
    exact uora_of_ptrInside hmem hu (hin _ _ huora)
  · rintro ⟨hext, huora⟩
    obtain ⟨⟨el₁, crc₁⟩, hloop⟩ := Option.isSome_iff_exists.mp (isSome_parseLoop.mpr hext)
    obtain ⟨el, hparse, hptr, hlen⟩ := hrun hloop
    refine ⟨el, crc₁, hparse, fun f p hp => ?_⟩
    rw [hptr] at hp
    rw [hlen]
    by_cases hf : f = .uoraElement
    · subst hf
      rw [parseLoop_uora hloop] at hp
      cases hlast : lastUora (elements 0 frame) with
      | none =>
        rw [hlast] at hp
        cases hp
      | some e =>
        rw [hlast] at hp
        cases hp
        exact ptrInside_uora (mem_of_lastUora hlast).1 (huora e hlast)
    · exact parseLoop_inside hloop hf hp

end Whole

/-- **The parser stays inside exactly when** the frame has no profile for the BSS asked for, every
extension element the bytes it is asked for, and the last UORA element its byte. -/
theorem parsesInside_iff (crc32Be : UInt32 → List UInt8 → UInt32) (frame : List UInt8) (action : Bool)
    (filter : UInt64) (crc : UInt32) (transmitter bss : Option Mac) (alloc : Bool) :
    ParsesInside crc32Be frame action filter crc transmitter bss alloc ↔
      (alloc = false ∨ ¬ HasProfile frame transmitter bss) ∧
        (∀ e ∈ elements 0 frame, ExtensionOk e) ∧ UoraOk frame := by
  obtain ⟨p, hp, hspec⟩ := @findBssidProfile_spec frame transmitter bss
  cases alloc with
  | false =>
    rw [parsesInside_of_no_profile rfl]
    simp
  | true =>
    rcases hspec with ⟨hindex, hhas⟩ | ⟨rfl, hhas⟩
    · obtain ⟨index, hindex⟩ := Option.isSome_iff_exists.mp hindex
      refine iff_of_false ?_ fun hcond => ?_
      · rintro ⟨el, crc', hparse, hin⟩
        have hbuf := (hin _ _ (bssidIndex_dangles hp hindex hparse)).buf
        cases hbuf
      · exact hcond.1.elim (by simp) fun hno => hno hhas
    · rw [parsesInside_of_no_profile (by rw [if_pos rfl, hp])]
      simp [hhas]

/-! ### The four cases -/

/-- A frame with nothing but a profile, with BSSID index 1 of two. -/
def profileFrame : List UInt8 := [71, 10, 1, 0, 7, 83, 2, 0, 0, 85, 1, 1]

/-- The address of a transmitter, and that of the BSS with index 1. -/
def mbssidAddr (last : UInt8) : Mac := localMac last

/-- **Frames that are not parsed right**: with a profile, with an extension element that is too
short, and with an empty UORA element. -/
theorem profile_pointers_dangle :
    ¬ ParsesInside (fun c _ => c) profileFrame false 0 0 (some (mbssidAddr 0)) (some (mbssidAddr 1)) true ∧
    (parseElemsCrc (fun c _ => c) profileFrame false 0 0 (some (mbssidAddr 0)) (some (mbssidAddr 1)) true).map
      (fun r => r.1.ptr .bssidIndex) = some (some ⟨.profile, 6⟩) ∧
    parseElemsCrc (fun c _ => c) [255, 0] false 0 0 none none true = none ∧
    parseElemsCrc (fun c _ => c) [255, 1, 39] false 0 0 none none true = none ∧
    (parseElemsCrc (fun c _ => c) [255, 1, 37] false 0 0 none none true).map
      (fun r => r.1.ptr .uoraElement) = some (some ⟨.frame, 3⟩) := by
  have hdangle : (parseElemsCrc (fun c _ => c) profileFrame false 0 0 (some (mbssidAddr 0))
      (some (mbssidAddr 1)) true).map (fun r => r.1.ptr .bssidIndex) = some (some ⟨.profile, 6⟩) := by
    decide +kernel
  refine ⟨?_, hdangle, ?_, ?_, by decide +kernel⟩
  · rintro ⟨el, crc', hparse, hin⟩
    rw [hparse] at hdangle
    have hbuf := (hin _ _ (Option.some.inj hdangle)).buf
    cases hbuf
  · rw [← Option.isNone_iff_eq_none]
    decide +kernel
  · rw [← Option.isNone_iff_eq_none]
    decide +kernel

end Mac80211
