import Mac80211.Randomizer.AddGen

/-!
# Rewriting addresses

`mac_randomizer.c`: `handle_random_mac`, which decides whether a rotation is due, and the two
functions that replace the addresses of a header. There are several fields `start_time_period`: an
AP interface has one, set on transmit for the interface of the receiving station and on receive for
the first AP interface; a station entry has one, used on a station's side, on transmit only.

## Main definitions

* `handleRandomMac`, `macAddrChangeHdrTx`, `macAddrChangeHdrRx`
-/

namespace Mac80211

section

variable (sha1 : List UInt8 → Vector UInt8 20)

/-- The AP branch of `handle_random_mac`, for a frame to station `j`. `ok` is whether
`insert_entry` could allocate. -/
def handleRandomMacAp (env : GenEnv) (ok : Bool) (j : StaId) (s : Local) : Option Local :=
  let tp := s.currentTp
  let sta := s.sta j
  match searchByBaseMac s.translationTable sta.addr with
  | none =>
    -- first contact: the station keeps its address, and the period counts as done
    some ({ s with translationTable := insertEntry ok s.translationTable sta.addr sta.addr }.updSdata
      sta.sdata fun d => { d with startTimePeriod := tp })
  | some _ =>
    if tp ≠ (s.sdata sta.sdata).startTimePeriod then
      (generateMacAddApAll sha1 env tp s).map fun s' =>
        s'.updSdata sta.sdata fun d => { d with startTimePeriod := tp }
    else some s

/-- The station branch of `handle_random_mac`, for a frame to the peer `j`. -/
def handleRandomMacSta (env : GenEnv) (ok : Bool) (j : StaId) (s : Local) : Option Local :=
  let tp := s.currentTp
  let sta := s.sta j
  let addr := (s.sdata sta.sdata).addr
  match searchByBaseMac s.sTranslationTable addr with
  | none =>
    some ({ s with sTranslationTable := insertEntry ok s.sTranslationTable addr addr }.updSta j
      fun t => { t with startTimePeriod := tp })
  | some _ =>
    if tp ≠ sta.startTimePeriod then
      (generateMacAddSta sha1 env tp j s).map fun s' =>
        s'.updSta j fun t => { t with startTimePeriod := tp }
    else some s

/-- `handle_random_mac`. -/
def handleRandomMac (env : GenEnv) (ok : Bool) (sta : Option StaId) (s : Local) : Option Local :=
  match sta with
  | none => some s
  | some j =>
    if (s.sta j).staState = .authorized then
      match (s.sdataOf j).type with
      | .ap => handleRandomMacAp sha1 env ok j s
      | .station => handleRandomMacSta sha1 env ok j s
      | _ => some s
    else some s

end

/-! ### Headers -/

variable {n : ℕ}

/-- What one address becomes on the way out. -/
def txMac (t : MacTable n) (a : Mac) : Mac :=
  match searchByBaseMac t a with
  | some e => e.randomMac
  | none => a

/-- What one address becomes on the way in. -/
def rxMac (t : MacTable n) (a : Mac) : Mac :=
  match searchByRandomMac t a with
  | some e => e.baseMac
  | none => a

/-- Replace the four address fields one after the other. The fourth is replaced wherever there is
memory for it, in three-address frames too. -/
def Hdr.mapAddrs (f : Mac → Mac) (h : Hdr) : Hdr :=
  let h := { h with addr1 := f h.addr1, addr2 := f h.addr2, addr3 := f h.addr3 }
  match h.addr4? with
  | some a => h.setAddr4 (f a)
  | none => h

/-- `mac_addr_change_hdr_tx`, on the first frame of the list. -/
def macAddrChangeHdrTx (s : Local) (vif : SdataId) (h : Hdr) : Hdr :=
  match (s.sdata vif).type with
  | .station => h.mapAddrs (txMac s.sTranslationTable)
  | .ap => h.mapAddrs (txMac s.translationTable)
  | _ => h

/-- `enum rathan_instance_type`. -/
inductive InstanceType
  | sta
  | ap
  | unknown
deriving DecidableEq

/-- `which_instance`: a device with both kinds of interface counts as neither. -/
def whichInstance (s : Local) : InstanceType :=
  let sta := s.interfaces.any fun i => (s.sdata i).type = .station
  let ap := s.interfaces.any fun i => (s.sdata i).type = .ap
  if ap && sta then .unknown else if ap then .ap else if sta then .sta else .unknown

/-- `get_ap_sdata`: the first AP interface. -/
def getApSdata (s : Local) : Option SdataId :=
  s.interfaces.find? fun i => (s.sdata i).type = .ap

/-- The rotation `mac_addr_change_hdr_rx` makes on an AP before it looks addresses up. -/
def rxRotate (sha1 : List UInt8 → Vector UInt8 20) (env : GenEnv) (s : Local) : Option Local :=
  match getApSdata s with
  | none => some s
  | some i =>
    if s.currentTp ≠ (s.sdata i).startTimePeriod then
      (generateMacAddApAll sha1 env s.currentTp s).map fun s' =>
        s'.updSdata i fun d => { d with startTimePeriod := s.currentTp }
    else some s

/-- `mac_addr_change_hdr_rx`. -/
def macAddrChangeHdrRx (sha1 : List UInt8 → Vector UInt8 20) (env : GenEnv) (s : Local) (h : Hdr) :
    Option (Local × Hdr) :=
  match whichInstance s with
  | .sta => some (s, h.mapAddrs (rxMac s.sTranslationTable))
  | .ap => (rxRotate sha1 env s).map fun s' => (s', h.mapAddrs (rxMac s'.translationTable))
  | .unknown => some (s, h)

/-! ### What rewriting leaves alone -/

variable (f : Mac → Mac) (h : Hdr)

/-- What becomes of a header, but for the bytes behind three addresses; their number stays. -/
theorem Hdr.mapAddrs_eq : ∃ rest, rest.length = h.rest.length ∧ h.mapAddrs f =
    { h with addr1 := f h.addr1, addr2 := f h.addr2, addr3 := f h.addr3, rest := rest } := by
  rw [Hdr.mapAddrs]
  split
  · refine ⟨_, ?_, Hdr.setAddr4_eq ..⟩
    exact Hdr.length_rest_setAddr4 ..
  · exact ⟨_, rfl, rfl⟩

@[simp] theorem Hdr.mapAddrs_frameControl : (h.mapAddrs f).frameControl = h.frameControl := by
  obtain ⟨rest, -, heq⟩ := h.mapAddrs_eq f
  rw [heq]

@[simp] theorem Hdr.mapAddrs_durationId : (h.mapAddrs f).durationId = h.durationId := by
  obtain ⟨rest, -, heq⟩ := h.mapAddrs_eq f
  rw [heq]

@[simp] theorem Hdr.mapAddrs_seqCtrl : (h.mapAddrs f).seqCtrl = h.seqCtrl := by
  obtain ⟨rest, -, heq⟩ := h.mapAddrs_eq f
  rw [heq]

@[simp] theorem Hdr.mapAddrs_addr1 : (h.mapAddrs f).addr1 = f h.addr1 := by
  obtain ⟨rest, -, heq⟩ := h.mapAddrs_eq f
  rw [heq]

@[simp] theorem Hdr.mapAddrs_addr2 : (h.mapAddrs f).addr2 = f h.addr2 := by
  obtain ⟨rest, -, heq⟩ := h.mapAddrs_eq f
  rw [heq]

@[simp] theorem Hdr.mapAddrs_addr3 : (h.mapAddrs f).addr3 = f h.addr3 := by
  obtain ⟨rest, -, heq⟩ := h.mapAddrs_eq f
  rw [heq]

@[simp] theorem Hdr.length_rest_mapAddrs : (h.mapAddrs f).rest.length = h.rest.length := by
  obtain ⟨rest, hlen, heq⟩ := h.mapAddrs_eq f
  rw [heq, hlen]

/-- Where there is a fourth address, its six bytes are replaced and no others. -/
theorem Hdr.rest_mapAddrs {a : Mac} {tail : List UInt8} (hr : h.rest = a.toList ++ tail) :
    (h.mapAddrs f).rest = (f a).toList ++ tail := by
  have ha : { h with addr1 := f h.addr1, addr2 := f h.addr2, addr3 := f h.addr3 }.addr4? = some a :=
    Hdr.addr4?_eq_some_iff.mpr ⟨tail, hr⟩
  simp only [Hdr.mapAddrs, ha]
  exact Hdr.rest_setAddr4
    (h := { h with addr1 := f h.addr1, addr2 := f h.addr2, addr3 := f h.addr3 }) hr (f a)

theorem Hdr.rest_mapAddrs_of_lt (hr : h.rest.length < 6) : (h.mapAddrs f).rest = h.rest := by
  have ha : { h with addr1 := f h.addr1, addr2 := f h.addr2, addr3 := f h.addr3 }.addr4? = none :=
    Hdr.addr4?_eq_none_iff.mpr hr
  simp only [Hdr.mapAddrs, ha]

theorem Hdr.mapAddrs_mapAddrs (g : Mac → Mac) :
    (h.mapAddrs f).mapAddrs g = h.mapAddrs fun a => g (f a) := by
  have hrest : ((h.mapAddrs f).mapAddrs g).rest = (h.mapAddrs fun a => g (f a)).rest := by
    cases ha : h.addr4? with
    | none =>
      have hr := Hdr.addr4?_eq_none_iff.mp ha
      rw [Hdr.rest_mapAddrs_of_lt g _ (by simpa using hr), Hdr.rest_mapAddrs_of_lt f h hr,
        Hdr.rest_mapAddrs_of_lt _ h hr]
    | some a =>
      obtain ⟨tail, hr⟩ := Hdr.addr4?_eq_some_iff.mp ha
      rw [Hdr.rest_mapAddrs g _ (Hdr.rest_mapAddrs f h hr), Hdr.rest_mapAddrs _ h hr]
  refine Hdr.ext ?_ ?_ ?_ ?_ ?_ ?_ hrest <;> simp

theorem txMac_eq_lookup (t : MacTable n) (a : Mac) : txMac t a = (lookup t a).getD a := by
  rw [txMac, lookup]
  cases searchByBaseMac t a <;> rfl

end Mac80211
