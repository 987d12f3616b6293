import Mac80211.Randomizer.Entries

/-!
# Which bytes the rewriters touch

`mac_addr_change_hdr_tx` and `mac_addr_change_hdr_rx` take every frame for a `struct ieee80211_hdr`
of thirty bytes. A frame is its memory here, a byte at each offset from `skb->data`, and the memory
goes on behind the frame.

## Main results

* `rewriting_touches_addresses_iff` — when only addresses are rewritten
-/

namespace Mac80211

open Buckets Machine

/-- A frame in memory. -/
structure RawFrame where
  /-- The byte at each offset from `skb->data`, behind the end of the frame too. -/
  mem : ℕ → UInt8
  len : ℕ

/-- `hdr->frame_control`. -/
def RawFrame.frameControl (r : RawFrame) : UInt16 := (r.mem 0).toUInt16 ||| (r.mem 1).toUInt16 <<< 8

/-- The receive path wants a whole header. -/
def RawFrame.Admitted (r : RawFrame) : Prop := hdrlen r.frameControl ≤ r.len

instance : DecidablePred RawFrame.Admitted := fun r =>
  inferInstanceAs (Decidable (hdrlen r.frameControl ≤ r.len))

/-- The four address fields of `struct ieee80211_hdr`. -/
inductive AddrField
  | addr1
  | addr2
  | addr3
  | addr4
deriving DecidableEq

variable {i : ℕ}

namespace AddrField

/-- Where it is. -/
def offset : AddrField → ℕ
  | addr1 => 4
  | addr2 => 10
  | addr3 => 16
  | addr4 => 24

/-- A byte of the field. -/
def Has (f : AddrField) (k : ℕ) : Prop := f.offset ≤ k ∧ k < f.offset + 6
deriving Decidable

/-- The fourth address has two bits of the frame control to itself. Each of the others is there if the header
is long enough. -/
def present (fc : UInt16) : AddrField → Bool
  | addr4 => fourAddr fc
  | f => f.offset + 6 ≤ hdrlen fc

/-- In the order of the code. -/
def all : List AddrField := [addr1, addr2, addr3, addr4]

theorem mem_all (f : AddrField) : f ∈ all := by cases f <;> decide

theorem nodup_all : all.Nodup := by decide

theorem Has.unique {f g : AddrField} {k : ℕ} (hf : f.Has k) (hg : g.Has k) : f = g := by
  obtain ⟨hf₁, hf₂⟩ := hf
  obtain ⟨hg₁, hg₂⟩ := hg
  cases f <;> cases g <;> simp only [offset] at hf₁ hf₂ hg₁ hg₂ <;> first | rfl | omega

theorem has_add (f : AddrField) (hi : i < 6) : f.Has (f.offset + i) := by
  constructor <;> omega

theorem offset_add_le_hdrlen {fc : UInt16} {f : AddrField} (h : f.present fc = true) :
    f.offset + 6 ≤ hdrlen fc := by
  cases f with
  | addr4 => exact hdrlen_of_fourAddr h
  | addr1 | addr2 | addr3 => exact of_decide_eq_true h

theorem forall_present_iff {fc : UInt16} : (∀ f ∈ all, f.present fc = true) ↔ fourAddr fc = true := by
  constructor
  · exact fun h => h addr4 (mem_all _)
  · intro h f _
    have hlen := hdrlen_of_fourAddr h
    cases f with
    | addr4 => exact h
    | addr1 | addr2 | addr3 =>
      refine decide_eq_true ?_
      simp only [offset]
      omega

end AddrField

/-! ### Rewriting in memory -/

/-- The six bytes at an offset. -/
def macAt (mem : ℕ → UInt8) (off : ℕ) : Mac := Vector.ofFn fun i => mem (off + i)

/-- `memcpy(mem + off, a, ETH_ALEN)`. -/
def storeMac (mem : ℕ → UInt8) (off : ℕ) (a : Mac) : ℕ → UInt8 := fun k =>
  if h : off ≤ k ∧ k < off + 6 then a[k - off] else mem k

/-- A search of a table, and what an address is replaced by. -/
structure Search where
  /-- There is an entry to compare an address with. -/
  compares : Bool
  /-- What is found. -/
  find : Mac → Option Mac
  /-- Nothing is found in an empty table. -/
  find_eq_none : compares = false → ∀ a, find a = none

/-- No table is searched. -/
def Search.nowhere : Search := ⟨false, fun _ => none, fun _ _ => rfl⟩

/-- `search_by_base_mac`, for `random_mac`. -/
def baseSearch {n : ℕ} (t : MacTable n) : Search where
  compares := !t.entries.isEmpty
  find a := (searchByBaseMac t a).map MacEntry.randomMac
  find_eq_none h a := by
    have hempty : t.entries = [] := by simpa using h
    rw [searchByBaseMac, Table.find?_eq, hempty]
    rfl

/-- `search_by_random_mac`, for `base_mac`. -/
def randomSearch {n : ℕ} (t : MacTable n) : Search where
  compares := !t.entries.isEmpty
  find a := (searchByRandomMac t a).map MacEntry.baseMac
  find_eq_none h a := by
    have hempty : t.entries = [] := by simpa using h
    rw [searchByRandomMac, Table.find?_eq, hempty]
    rfl

/-- What has become of the memory, and which fields have been read. -/
structure Touched where
  mem : ℕ → UInt8
  reads : List AddrField := []

/-- One lookup, and the `memcpy` if it finds something. -/
def Touched.rewrite (S : Search) (o : Touched) (f : AddrField) : Touched where
  mem :=
    match S.find (macAt o.mem f.offset) with
    | some a => storeMac o.mem f.offset a
    | none => o.mem
  reads := if S.compares then o.reads ++ [f] else o.reads

/-- Four of them. -/
def rewriteFields (S : Search) (mem : ℕ → UInt8) : Touched :=
  AddrField.all.foldl (Touched.rewrite S) { mem := mem }

/-- Which table `mac_addr_change_hdr_tx` searches. -/
def txSearch (s : Local) (vif : SdataId) : Search :=
  match (s.sdata vif).type with
  | .station => baseSearch s.sTranslationTable
  | .ap => baseSearch s.translationTable
  | _ => Search.nowhere

/-- `mac_addr_change_hdr_tx`. -/
def RawFrame.macAddrChangeHdrTx (s : Local) (vif : SdataId) (r : RawFrame) : Touched :=
  rewriteFields (txSearch s vif) r.mem

/-- `mac_addr_change_hdr_rx`. -/
def RawFrame.macAddrChangeHdrRx (sha1 : List UInt8 → Vector UInt8 20) (gen : GenEnv) (s : Local)
    (r : RawFrame) : Option (Local × Touched) :=
  match whichInstance s with
  | .sta => some (s, rewriteFields (randomSearch s.sTranslationTable) r.mem)
  | .ap => (rxRotate sha1 gen s).map fun s' => (s', rewriteFields (randomSearch s'.translationTable) r.mem)
  | .unknown => some (s, { mem := r.mem })

/-- Which table that is. -/
def rxSearch (inst : InstanceType) (s : Local) : Search :=
  match inst with
  | .sta => randomSearch s.sTranslationTable
  | .ap => randomSearch s.translationTable
  | .unknown => Search.nowhere

/-! ### What one lookup leaves -/

section Fields

variable {S : Search} {mem : ℕ → UInt8} {f g : AddrField} {fs : List AddrField} {k : ℕ}

theorem storeMac_of_not {off : ℕ} {a : Mac} (h : ¬(off ≤ k ∧ k < off + 6)) : storeMac mem off a k = mem k := by
  rw [storeMac, dif_neg h]

theorem storeMac_add {off i : ℕ} {a : Mac} (hi : i < 6) : storeMac mem off a (off + i) = a[i] := by
  rw [storeMac, dif_pos ⟨by omega, by omega⟩]
  simp only [Nat.add_sub_cancel_left]

theorem getElem_macAt {off i : ℕ} (hi : i < 6) : (macAt mem off)[i] = mem (off + i) := by
  simp [macAt]

/-- What stands in a field afterwards. -/
def Search.result (S : Search) (a : Mac) : Mac := (S.find a).getD a

theorem rewrite_apply_of_not (o : Touched) (h : ¬f.Has k) : (o.rewrite S f).mem k = o.mem k := by
  cases hfind : S.find (macAt o.mem f.offset) with
  | some a =>
    simp only [Touched.rewrite, hfind]
    exact storeMac_of_not h
  | none => simp only [Touched.rewrite, hfind]

theorem rewrite_apply_add (o : Touched) (hi : i < 6) :
    (o.rewrite S f).mem (f.offset + i) = (S.result (macAt o.mem f.offset))[i] := by
  cases hfind : S.find (macAt o.mem f.offset) with
  | some a =>
    simp only [Touched.rewrite, Search.result, hfind, Option.getD_some]
    exact storeMac_add hi
  | none =>
    simp only [Touched.rewrite, Search.result, hfind, Option.getD_none]
    exact (getElem_macAt hi).symm

theorem macAt_rewrite_of_ne (o : Touched) (h : f ≠ g) :
    macAt (o.rewrite S f).mem g.offset = macAt o.mem g.offset := by
  refine Vector.ext fun i hi => ?_
  rw [getElem_macAt hi, getElem_macAt hi]
  exact rewrite_apply_of_not o fun hf => h (hf.unique (g.has_add hi))

theorem foldl_rewrite_apply_of_forall_not (o : Touched) (h : ∀ f ∈ fs, ¬f.Has k) :
    (fs.foldl (Touched.rewrite S) o).mem k = o.mem k := by
  induction fs generalizing o with
  | nil => rfl
  | cons f fs ih =>
    rw [List.forall_mem_cons] at h
    rw [List.foldl_cons, ih _ h.2]
    exact rewrite_apply_of_not o h.1

/-- A field that has its turn ends up with what is found for what it was at first. -/
theorem foldl_rewrite_apply_add (o : Touched) (hnodup : fs.Nodup) (hf : f ∈ fs) (hi : i < 6) :
    (fs.foldl (Touched.rewrite S) o).mem (f.offset + i) = (S.result (macAt o.mem f.offset))[i] := by
  induction fs generalizing o with
  | nil => cases hf
  | cons g fs ih =>
    rw [List.nodup_cons] at hnodup
    rw [List.foldl_cons]
    rcases List.mem_cons.mp hf with rfl | hf
    · rw [foldl_rewrite_apply_of_forall_not]
      · exact rewrite_apply_add o hi
      · intro g hg hhas
        exact hnodup.1 ((f.has_add hi).unique hhas ▸ hg)
    · have hne : g ≠ f := fun heq => hnodup.1 (heq ▸ hf)
      rw [ih _ hnodup.2 hf, macAt_rewrite_of_ne o hne]

theorem reads_foldl_rewrite (o : Touched) :
    (fs.foldl (Touched.rewrite S) o).reads = if S.compares then o.reads ++ fs else o.reads := by
  induction fs generalizing o with
  | nil => simp
  | cons f fs ih =>
    rw [List.foldl_cons, ih]
    simp only [Touched.rewrite]
    split
    · rw [List.append_assoc, List.singleton_append]
    · rfl

theorem rewriteFields_apply_add (S : Search) (mem : ℕ → UInt8) (f : AddrField) (hi : i < 6) :
    (rewriteFields S mem).mem (f.offset + i) = (S.result (macAt mem f.offset))[i] :=
  foldl_rewrite_apply_add { mem := mem } AddrField.nodup_all f.mem_all hi

theorem rewriteFields_apply_of_forall_not (h : ∀ f : AddrField, ¬f.Has k) :
    (rewriteFields S mem).mem k = mem k :=
  foldl_rewrite_apply_of_forall_not { mem := mem } fun f _ => h f

theorem reads_rewriteFields : (rewriteFields S mem).reads = if S.compares then AddrField.all else [] :=
  reads_foldl_rewrite { mem := mem }

end Fields

/-! ### Only addresses -/

/-- Nothing but the addresses of the frame is modified: in particular nothing behind the header, and no QoS
control field. -/
structure ModifiesAddresses (r : RawFrame) (o : Touched) : Prop where
  modifies : ∀ k, o.mem k ≠ r.mem k → ∃ f : AddrField, f.present r.frameControl = true ∧ f.Has k
  behind : ∀ k, hdrlen r.frameControl ≤ k → o.mem k = r.mem k
  qosCtl : isDataQos r.frameControl = true → fourAddr r.frameControl = false →
    o.mem 24 = r.mem 24 ∧ o.mem 25 = r.mem 25

/-- And nothing else is read either. -/
structure TouchesAddresses (r : RawFrame) (o : Touched) : Prop extends ModifiesAddresses r o where
  reads : ∀ f ∈ o.reads, f.present r.frameControl = true

section Frame

variable {S : Search} {r : RawFrame} {o : Touched}

theorem ModifiesAddresses.of_modifies
    (h : ∀ k, o.mem k ≠ r.mem k → ∃ f : AddrField, f.present r.frameControl = true ∧ f.Has k) :
    ModifiesAddresses r o where
  modifies := h
  behind k hk := by
    by_contra hne
    obtain ⟨f, hf, -, hlt⟩ := h k hne
    have := AddrField.offset_add_le_hdrlen hf
    omega
  qosCtl _ hfour := by
    have hstays {k : ℕ} (hk₁ : 22 ≤ k) (hk₂ : k < 30) : o.mem k = r.mem k := by
      by_contra hne
      obtain ⟨f, hf, hge, hlt⟩ := h k hne
      cases f with
      | addr4 => exact absurd hf (by rw [AddrField.present, hfour]; exact Bool.false_ne_true)
      | addr1 | addr2 | addr3 =>
        simp only [AddrField.offset] at hlt
        omega
    exact ⟨hstays (by omega) (by omega), hstays (by omega) (by omega)⟩

/-- What stands at the place of an address that the frame does not have must not be found in the table, or
be found as it is. -/
theorem modifiesAddresses_rewriteFields_iff : ModifiesAddresses r (rewriteFields S r.mem) ↔
    ∀ f : AddrField, f.present r.frameControl = false →
      S.result (macAt r.mem f.offset) = macAt r.mem f.offset := by
  constructor
  · intro h f hf
    refine Vector.ext fun i hi => ?_
    rw [getElem_macAt hi, ← rewriteFields_apply_add S r.mem f hi]
    by_contra hne
    obtain ⟨g, hg, hhas⟩ := h.modifies _ hne
    rw [hhas.unique (f.has_add hi), hf] at hg
    cases hg
  · intro h
    refine .of_modifies fun k hne => ?_
    by_contra hall
    refine hne ?_
    by_cases hsome : ∃ f : AddrField, f.Has k
    · obtain ⟨f, hf⟩ := hsome
      have habsent : f.present r.frameControl = false :=
        Bool.eq_false_iff.mpr fun hp => hall ⟨f, hp, hf⟩
      obtain ⟨i, rfl⟩ := Nat.exists_eq_add_of_le hf.1
      have hi : i < 6 := by
        have := hf.2
        omega
      rw [rewriteFields_apply_add S r.mem f hi, h f habsent, getElem_macAt hi]
    · exact rewriteFields_apply_of_forall_not fun f hf => hsome ⟨f, hf⟩

/-- Every field is read as soon as there is something to compare it with. -/
theorem touchesAddresses_rewriteFields_iff : TouchesAddresses r (rewriteFields S r.mem) ↔
    S.compares = false ∨ fourAddr r.frameControl = true := by
  constructor
  · intro h
    cases hS : S.compares with
    | false => exact .inl rfl
    | true =>
      refine .inr (AddrField.forall_present_iff.mp fun f hf => h.reads f ?_)
      rw [reads_rewriteFields, hS]
      exact hf
  · intro h
    have hmodifies : ModifiesAddresses r (rewriteFields S r.mem) := by
      refine modifiesAddresses_rewriteFields_iff.mpr fun f hf => ?_
      rcases h with hS | hfour
      · rw [Search.result, S.find_eq_none hS]
        rfl
      · exact absurd (AddrField.forall_present_iff.mpr hfour f f.mem_all) (by rw [hf]; exact Bool.false_ne_true)
    refine ⟨hmodifies, fun f hf => ?_⟩
    rcases h with hS | hfour
    · rw [reads_rewriteFields, hS] at hf
      cases hf
    · exact AddrField.forall_present_iff.mpr hfour f f.mem_all

end Frame

/-! ### The two functions -/

theorem rewriteFields_rxSearch {sha1 : List UInt8 → Vector UInt8 20} {gen : GenEnv} {s s' : Local}
    {r : RawFrame} {o : Touched} (h : r.macAddrChangeHdrRx sha1 gen s = some (s', o)) :
    o = rewriteFields (rxSearch (whichInstance s) s') r.mem := by
  rw [RawFrame.macAddrChangeHdrRx] at h
  split at h
  · rename_i hinst
    cases h
    rw [hinst]
    rfl
  · rename_i hinst
    obtain ⟨t, -, ht⟩ := Option.map_eq_some_iff.mp h
    cases ht
    rw [hinst]
    rfl
  · rename_i hinst
    cases h
    rw [hinst]
    rfl

/-- **When the rewriters touch only addresses.** They read all four fields: a frame must have four
addresses, or what stands there must not be in the table, or stand for itself. -/
theorem rewriting_touches_addresses_iff (sha1 : List UInt8 → Vector UInt8 20) (gen : GenEnv) (s : Local)
    (vif : SdataId) (r : RawFrame) : ((TouchesAddresses r (r.macAddrChangeHdrTx s vif) ↔
        (txSearch s vif).compares = false ∨ fourAddr r.frameControl = true) ∧
      (ModifiesAddresses r (r.macAddrChangeHdrTx s vif) ↔
        ∀ f : AddrField, f.present r.frameControl = false →
          (txSearch s vif).result (macAt r.mem f.offset) = macAt r.mem f.offset)) ∧
    ∀ s' o, r.macAddrChangeHdrRx sha1 gen s = some (s', o) →
      (TouchesAddresses r o ↔
        (rxSearch (whichInstance s) s').compares = false ∨ fourAddr r.frameControl = true) ∧
      (ModifiesAddresses r o ↔
        ∀ f : AddrField, f.present r.frameControl = false →
          (rxSearch (whichInstance s) s').result (macAt r.mem f.offset) = macAt r.mem f.offset) := by
  refine ⟨⟨touchesAddresses_rewriteFields_iff, modifiesAddresses_rewriteFields_iff⟩, fun s' o h => ?_⟩
  rw [rewriteFields_rxSearch h]
  exact ⟨touchesAddresses_rewriteFields_iff, modifiesAddresses_rewriteFields_iff⟩

/-- The bytes of a frame, and zeros behind it. -/
def RawFrame.ofList (bs : List UInt8) : RawFrame := ⟨fun k => bs.getD k 0, bs.length⟩

/-- A data frame of three addresses, with the address of a station as its body. -/
def addressInBody : RawFrame :=
  .ofList ([0x08, 0x02, 0, 0] ++ (toyMac 5).toList ++ (toyMac 1).toList ++ (toyMac 1).toList ++ [0, 0] ++
    (toyMac 3).toList)

/-- **The body of a frame is rewritten.** It begins with an address that is in the table. -/
theorem rewriting_corrupts_body : ∃ s os,
    Reach (receiveStep toyHash toyCrypto) (fun _ _ _ => True) (bootLocal {}) s os ∧ addressInBody.Admitted ∧
    hdrlen addressInBody.frameControl = 24 ∧ addressInBody.mem 25 = 0 ∧
    (addressInBody.macAddrChangeHdrTx s 0).mem 25 = 1 ∧
    ¬TouchesAddresses addressInBody (addressInBody.macAddrChangeHdrTx s 0) := by
  have hrun : (run (receiveStep toyHash toyCrypto) (bootLocal {}) rotatedStation).map
      (fun r => (addressInBody.macAddrChangeHdrTx r.1 0).mem 25) = some 1 := by
    decide +kernel
  obtain ⟨⟨s, os⟩, hr, hbyte⟩ := Option.map_eq_some_iff.mp hrun
  refine ⟨s, os, Reach.of_run_init hr, by decide +kernel, by decide +kernel, by decide +kernel, hbyte,
    fun h => ?_⟩
  have hsame := h.behind 25 (by decide +kernel)
  rw [hbyte] at hsame
  exact absurd hsame (by decide +kernel)

/-! ### Headers of whole frames -/

end Mac80211
