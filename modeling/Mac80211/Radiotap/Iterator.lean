import Mac80211.Lib.Memory
import Mac80211.State

/-!
# The radiotap iterator

`net/wireless/radiotap.c`: a header that says in a bitmap which fields follow. Two of its bits
change the namespace for the next word. Pointers are offsets from the start of the header, and may
lie before it: `_next_ns_data` is not set by `ieee80211_radiotap_iterator_init`. Every read goes
through `Memory`.

## Main definitions

* `RadiotapIterator`, `radiotapRound`
-/

namespace Mac80211

/-! ### Namespaces -/

/-- `struct radiotap_align_size`: four bits for each. -/
structure RadiotapAlignSize where
  align : Fin 16
  size : Fin 16
deriving DecidableEq

/-- `struct ieee80211_radiotap_namespace`. -/
structure RadiotapNamespace where
  alignSize : List RadiotapAlignSize
  oui : ℕ
  subns : ℕ
deriving DecidableEq

/-- `rtap_namespace_sizes`. Number 18 is not there. -/
def rtapNamespaceSizes : List RadiotapAlignSize :=
  [⟨8, 8⟩, ⟨1, 1⟩, ⟨1, 1⟩, ⟨2, 4⟩, ⟨2, 2⟩, ⟨1, 1⟩, ⟨1, 1⟩, ⟨2, 2⟩, ⟨2, 2⟩, ⟨2, 2⟩, ⟨1, 1⟩, ⟨1, 1⟩, ⟨1, 1⟩, ⟨1, 1⟩,
    ⟨2, 2⟩, ⟨2, 2⟩, ⟨1, 1⟩, ⟨1, 1⟩, ⟨0, 0⟩, ⟨1, 3⟩, ⟨4, 8⟩, ⟨2, 12⟩]

def IEEE80211_RADIOTAP_RADIOTAP_NAMESPACE : ℕ := 29
def IEEE80211_RADIOTAP_VENDOR_NAMESPACE : ℕ := 30
def IEEE80211_RADIOTAP_EXT : ℕ := 31

/-- `current_namespace`: none, `&radiotap_ns`, or one of a vendor. -/
inductive CurrentNamespace where
  | null
  | radiotap
  | vendor (ns : RadiotapNamespace)
deriving DecidableEq

/-- The fields of the current namespace. -/
def CurrentNamespace.sizes : CurrentNamespace → Option (List RadiotapAlignSize)
  | .null => none
  | .radiotap => some rtapNamespaceSizes
  | .vendor ns => some ns.alignSize

/-! ### The iterator -/

/-- `struct ieee80211_radiotap_iterator`, without the pointer to the header. -/
structure RadiotapIterator where
  vns : Option (List RadiotapNamespace) := none
  currentNamespace : CurrentNamespace := .null
  arg : ℤ := 0
  nextNsData : ℤ := 0
  nextBitmap : ℕ := 0
  thisArg : ℤ := 0
  thisArgIndex : ℕ := 0
  thisArgSize : ℕ := 0
  isRadiotapNs : Bool := false
  maxLength : ℕ := 0
  argIndex : ℕ := 0
  bitmapShifter : ℕ := 0
  resetOnExt : Bool := false
deriving DecidableEq

/-- An offset that is too large. A difference below zero is a large `unsigned long`. -/
def past (off : ℤ) (maxLength : ℕ) : Bool := off < 0 || (maxLength : ℤ) < off

/-- `sizeof(struct ieee80211_radiotap_header)`. -/
def radiotapHeaderSize : ℕ := 8

/-- The loop over the extended bitmaps, from the check before one of them on; nothing for `-EINVAL`. -/
def extendedBitmaps (m : Memory) (maxLength arg : ℕ) : Option (Option ℕ) :=
  if arg + 4 ≤ maxLength then do
    let word ← m.le32 arg
    if word.testBit IEEE80211_RADIOTAP_EXT then extendedBitmaps m maxLength (arg + 4) else return some (arg + 4)
  else some none
termination_by maxLength - arg
decreasing_by omega

/-- `ieee80211_radiotap_iterator_init`. -/
def radiotapIteratorInit (m : Memory) (maxLength : ℤ) (vns : Option (List RadiotapNamespace))
    (iterator : RadiotapIterator) : Option (ℤ × RadiotapIterator) :=
  -- check the radiotap header can actually be present; `max_length` is made an `unsigned long` here
  if maxLength % 2 ^ 64 < radiotapHeaderSize then some (-EINVAL, iterator)
  else do
    let itVersion ← m.u8 0
    if itVersion ≠ 0 then return (-EINVAL, iterator)
    let itLen ← m.le16 2
    if maxLength < itLen then return (-EINVAL, iterator)
    let itPresent ← m.le32 4
    let iterator :=
      { iterator with
        maxLength := itLen
        argIndex := 0
        bitmapShifter := itPresent
        arg := radiotapHeaderSize
        resetOnExt := false
        nextBitmap := 8
        vns := vns
        currentNamespace := .radiotap
        isRadiotapNs := true }
    if itPresent.testBit IEEE80211_RADIOTAP_EXT then
      match ← extendedBitmaps m itLen radiotapHeaderSize with
      | none => return (-EINVAL, iterator)
      | some arg =>
        return (0, { iterator with
                     arg := arg
                     thisArg := arg })
    else return (0, { iterator with thisArg := radiotapHeaderSize })

/-- `find_ns`. -/
def findNs (iterator : RadiotapIterator) (oui subns : ℕ) : CurrentNamespace :=
  match iterator.vns with
  | none => .null
  | some vns =>
    match vns.find? fun ns => ns.oui = oui && ns.subns = subns with
    | none => .null
    | some ns => .vendor ns

/-- What is known about the next argument. -/
inductive FieldSize where
  /-- the end of what radiotap defines -/
  | noMore
  /-- `align` is 0 -/
  | unknown
  | data (align size : ℕ)

/-- Get alignment/size of data. -/
def RadiotapIterator.fieldSize (iterator : RadiotapIterator) : FieldSize :=
  if iterator.argIndex % 32 = IEEE80211_RADIOTAP_RADIOTAP_NAMESPACE then .data 1 0
  else if iterator.argIndex % 32 = IEEE80211_RADIOTAP_EXT then .data 1 0
  else if iterator.argIndex % 32 = IEEE80211_RADIOTAP_VENDOR_NAMESPACE then .data 2 6
  else
    match iterator.currentNamespace.sizes.bind (·[iterator.argIndex]?) with
    | none => if iterator.currentNamespace = .radiotap then .noMore else .unknown
    | some as => if as.align = 0 then .unknown else .data as.align as.size

/-- Account for alignment padding. -/
def padded (align : ℕ) (arg : ℤ) : ℤ :=
  let pad := (arg % 16).toNat &&& (align - 1)
  if pad ≠ 0 then arg + (align - pad : ℕ) else arg

/-- `next_entry`. -/
def RadiotapIterator.nextEntry (iterator : RadiotapIterator) : RadiotapIterator :=
  { iterator with
    bitmapShifter := iterator.bitmapShifter / 2
    argIndex := iterator.argIndex + 1 }

/-- The header of a vendor's data, and how much there is of it to take now; nothing for `-EINVAL`. -/
def vendorNamespace (m : Memory) (iterator : RadiotapIterator) (size : ℕ) :
    Option (Option (RadiotapIterator × ℕ)) :=
  if past (iterator.arg + size) iterator.maxLength then some none
  else if iterator.arg < 0 then none
  else do
    let arg := iterator.arg.toNat
    let oui0 ← m.u8 arg
    let oui1 ← m.u8 (arg + 1)
    let oui2 ← m.u8 (arg + 2)
    let subns ← m.u8 (arg + 3)
    let vnslen ← m.le16 (arg + 4)
    let currentNamespace := findNs iterator (oui0 * 65536 + oui1 * 256 + oui2) subns
    let iterator :=
      { iterator with
        currentNamespace := currentNamespace
        nextNsData := iterator.arg + size + vnslen }
    return some (iterator, if currentNamespace = .null then size + vnslen else size)

/-- What is done with an argument of this size: the end of the round. -/
def takeArg (m : Memory) (iterator : RadiotapIterator) (size : ℕ) : Option (RadiotapIterator × Option ℤ) :=
  let iterator :=
    { iterator with
      thisArgIndex := iterator.argIndex
      thisArg := iterator.arg
      thisArgSize := size
      arg := iterator.arg + size }
  -- check for insanity where we are given a bitmap that claims to have more arg content than the header's length
  if past iterator.arg iterator.maxLength then some (iterator, some (-EINVAL))
  else if iterator.argIndex % 32 = IEEE80211_RADIOTAP_VENDOR_NAMESPACE then
    let iterator :=
      { iterator with
        resetOnExt := true
        isRadiotapNs := false
        thisArgIndex := IEEE80211_RADIOTAP_VENDOR_NAMESPACE }
    some (iterator.nextEntry, if iterator.currentNamespace = .null then some 0 else none)
  else if iterator.argIndex % 32 = IEEE80211_RADIOTAP_RADIOTAP_NAMESPACE then
    let iterator :=
      { iterator with
        resetOnExt := true
        currentNamespace := .radiotap
        isRadiotapNs := true }
    some (iterator.nextEntry, none)
  else if iterator.argIndex % 32 = IEEE80211_RADIOTAP_EXT then do
    let word ← m.le32 iterator.nextBitmap
    let iterator :=
      { iterator with
        bitmapShifter := word
        nextBitmap := iterator.nextBitmap + 4
        argIndex := if iterator.resetOnExt then 0 else iterator.argIndex + 1
        resetOnExt := false }
    return (iterator, none)
  else some (iterator.nextEntry, some 0)

/-- One round of the loop of `ieee80211_radiotap_iterator_next`, and what is returned in it, if it is the last. -/
def radiotapRound (m : Memory) (iterator : RadiotapIterator) : Option (RadiotapIterator × Option ℤ) :=
  if iterator.argIndex % 32 = IEEE80211_RADIOTAP_EXT ∧ iterator.bitmapShifter % 2 = 0 then
    some (iterator, some (-ENOENT))
  else if iterator.bitmapShifter % 2 = 0 then some (iterator.nextEntry, none)
  else
    match iterator.fieldSize with
    | .noMore => some (iterator, some (-ENOENT))
    | .unknown =>
      let iterator :=
        { iterator with
          arg := iterator.nextNsData
          currentNamespace := .null }
      some (iterator.nextEntry, none)
    | .data align size =>
      let iterator := { iterator with arg := padded align iterator.arg }
      if iterator.argIndex % 32 = IEEE80211_RADIOTAP_VENDOR_NAMESPACE then do
        match ← vendorNamespace m iterator size with
        | none => return (iterator, some (-EINVAL))
        | some (iterator, size) => takeArg m iterator size
      else takeArg m iterator size

/-- `ieee80211_radiotap_iterator_next`, with `fuel` for the rounds of its loop. -/
def radiotapIteratorNext (m : Memory) : ℕ → RadiotapIterator → Option (ℤ × RadiotapIterator)
  | 0, _ => none
  | fuel + 1, iterator =>
    match radiotapRound m iterator with
    | none => none
    | some (iterator, some ret) => some (ret, iterator)
    | some (iterator, none) => radiotapIteratorNext m fuel iterator

theorem radiotapIteratorNext_succ (m : Memory) (fuel : ℕ) (iterator : RadiotapIterator) :
    radiotapIteratorNext m (fuel + 1) iterator = match radiotapRound m iterator with
      | none => none
      | some (iterator, some ret) => some (ret, iterator)
      | some (iterator, none) => radiotapIteratorNext m fuel iterator := rfl

end Mac80211
