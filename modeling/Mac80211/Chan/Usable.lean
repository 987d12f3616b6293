import Mac80211.Chan.Segments

/-!
# Usable channel definitions

`cfg80211_chandef_usable` asks of each sub-channel that it exists and has none of the prohibited
flags. A segment around 0 or at the upper end has no round in the loop, and is accepted although
none of its channels exists.

The channel of a definition need not be one of the device's. Shifting by more than the width of a
word is undefined in the source; here the bit is then clear.

## Main results

* `checksSubChannels_iff` — when every sub-channel is checked
-/

namespace Mac80211

/-! ### Devices -/

/-- `enum nl80211_band`. -/
inductive Nl80211Band
  | ghz2
  | ghz5
  | ghz60
  | ghz6
deriving DecidableEq

def IEEE80211_CHAN_DISABLED : UInt32 := 0x1
def IEEE80211_CHAN_RADAR : UInt32 := 0x8
def IEEE80211_CHAN_NO_HT40PLUS : UInt32 := 0x10
def IEEE80211_CHAN_NO_HT40MINUS : UInt32 := 0x20
def IEEE80211_CHAN_NO_OFDM : UInt32 := 0x40
def IEEE80211_CHAN_NO_80MHZ : UInt32 := 0x80
def IEEE80211_CHAN_NO_160MHZ : UInt32 := 0x100
def IEEE80211_CHAN_NO_20MHZ : UInt32 := 0x800
def IEEE80211_CHAN_NO_10MHZ : UInt32 := 0x1000

def IEEE80211_HT_CAP_SUP_WIDTH_20_40 : UInt16 := 0x0002
def IEEE80211_HT_CAP_40MHZ_INTOLERANT : UInt16 := 0x4000

def IEEE80211_VHT_CAP_SUPP_CHAN_WIDTH_160MHZ : UInt32 := 0x4
def IEEE80211_VHT_CAP_SUPP_CHAN_WIDTH_160_80PLUS80MHZ : UInt32 := 0x8
def IEEE80211_VHT_CAP_SUPP_CHAN_WIDTH_MASK : UInt32 := 0xC

/-- `struct ieee80211_channel`. -/
structure BandChannel where
  band : Nl80211Band
  /-- `center_freq`, in MHz. -/
  centerFreq : UInt32
  hwValue : UInt16 := 0
  flags : UInt32 := 0
  dfsState : DfsState := .usable
  dfsStateEntered : UInt64 := 0

/-- `struct ieee80211_sta_ht_cap`. -/
structure HtCap where
  cap : UInt16 := 0
  htSupported : Bool := false

/-- `struct ieee80211_sta_vht_cap`. -/
structure VhtCap where
  vhtSupported : Bool := false
  cap : UInt32 := 0

/-- `struct ieee80211_edmg`. -/
structure Edmg where
  channels : UInt8 := 0
  bwConfig : ℕ := 0

/-- `struct ieee80211_supported_band`. -/
structure SupportedBand where
  channels : List BandChannel := []
  htCap : HtCap := {}
  vhtCap : VhtCap := {}
  edmgCap : Edmg := {}

/-- `struct wiphy`. -/
structure BandWiphy where
  bands : Nl80211Band → Option SupportedBand
  /-- `NL80211_EXT_FEATURE_DFS_OFFLOAD`. -/
  dfsOffload : Bool := false

/-- `struct cfg80211_chan_def`. -/
structure BandChanDef where
  chan : Option BandChannel
  width : ChanWidth
  centerFreq1 : UInt32
  centerFreq2 : UInt32 := 0
  edmg : Edmg := {}

/-- Without the flags of the channel. -/
def BandChanDef.toChanDef (c : BandChanDef) : ChanDef where
  chan := c.chan.map BandChannel.centerFreq
  width := c.width
  centerFreq1 := c.centerFreq1
  centerFreq2 := c.centerFreq2
  edmgChannels := c.edmg.channels
  edmgBwConfig := c.edmg.bwConfig

/-- With the two flags that DFS goes by. -/
def BandChannel.toWiphyChannel (c : BandChannel) : WiphyChannel where
  centerFreq := c.centerFreq
  disabled := c.flags &&& IEEE80211_CHAN_DISABLED ≠ 0
  radar := c.flags &&& IEEE80211_CHAN_RADAR ≠ 0
  dfsState := c.dfsState
  dfsStateEntered := c.dfsStateEntered

namespace BandWiphy

/-- The channels of all bands, in the order of `enum nl80211_band`. -/
def channels (w : BandWiphy) : List BandChannel :=
  [.ghz2, .ghz5, .ghz60, .ghz6].flatMap fun band => ((w.bands band).map SupportedBand.channels).getD []

/-- `ieee80211_get_channel`. -/
def getChannel (w : BandWiphy) (freq : UInt32) : Option BandChannel :=
  w.channels.find? fun c => c.centerFreq == freq

/-- What the DFS functions see. -/
def toWiphy (w : BandWiphy) : Wiphy where
  channels := w.channels.map BandChannel.toWiphyChannel
  dfsOffload := w.dfsOffload

end BandWiphy

/-! ### Usable definitions -/

/-- One round of `cfg80211_secondary_chans_ok`. -/
def secondaryRound (w : BandWiphy) (prohibitedFlags freq : UInt32) (_ : Unit) : Except Unit Unit :=
  match w.getChannel freq with
  | none => .error ()
  | some c => if c.flags &&& prohibitedFlags ≠ 0 then .error () else .ok ()

/-- `cfg80211_secondary_chans_ok`; `none` if it does not come back. -/
def secondaryChansOk (w : BandWiphy) (center bandwidth prohibitedFlags : UInt32) : Option Bool :=
  (forFreq (getEndFreq center bandwidth) (secondaryRound w prohibitedFlags) (2 ^ 32)
    (getStartFreq center bandwidth) ()).map fun r => r.toBool

/-- The loop of `cfg80211_edmg_usable` over the channels 1 to 6 of 60 GHz: how many are enabled. -/
def edmgLoop (w : BandWiphy) (edmgChannels : UInt8) (edmgCap : Edmg) : Option ℕ :=
  (List.range 6).foldlM (fun counter i =>
    if !edmgChannels.toNat.testBit i then some counter
    else if !edmgCap.channels.toNat.testBit i then none
    else
      match w.getChannel (56160 + (UInt32.ofNat i + 1) * 2160) with
      | none => none
      | some c => if c.flags &&& IEEE80211_CHAN_DISABLED ≠ 0 then none else some (counter + 1)) 0

/-- `cfg80211_edmg_usable`. -/
def edmgUsable (w : BandWiphy) (edmgChannels : UInt8) (edmgBwConfig : ℕ) (primaryChannel : ℕ)
    (edmgCap : Edmg) : Bool :=
  if edmgChannels = 0 && edmgBwConfig = 0 then true
  else if edmgChannels = 0 || edmgBwConfig = 0 then false
  else if primaryChannel = 0 || !edmgChannels.toNat.testBit (primaryChannel - 1) then false
  else
    match edmgLoop w edmgChannels edmgCap with
    | none => false
    | some counter =>
      if 4 < counter then false
      else if edmgCap.bwConfig % 4 < edmgBwConfig % 4 then false
      else if edmgCap.bwConfig < edmgBwConfig then false
      else true

/-- The `switch` of `cfg80211_chandef_usable`, and what follows it: the flags that are prohibited then. -/
def widthFlags (sband : SupportedBand) (chan : BandChannel) (c : BandChanDef) (prohibitedFlags : UInt32) :
    Option UInt32 :=
  let ht := sband.htCap
  let vht := sband.vhtCap
  let cap := vht.cap &&& IEEE80211_VHT_CAP_SUPP_CHAN_WIDTH_MASK
  let ofdm := prohibitedFlags ||| IEEE80211_CHAN_NO_OFDM
  match c.width with
  | .w5 => some ofdm
  | .w10 => some (ofdm ||| IEEE80211_CHAN_NO_10MHZ)
  | .w20 => if !ht.htSupported then none else some (prohibitedFlags ||| IEEE80211_CHAN_NO_20MHZ)
  | .w20NoHt => some (prohibitedFlags ||| IEEE80211_CHAN_NO_20MHZ)
  | .w40 =>
    if !ht.htSupported then none
    else if ht.cap &&& IEEE80211_HT_CAP_SUP_WIDTH_20_40 = 0 ||
      ht.cap &&& IEEE80211_HT_CAP_40MHZ_INTOLERANT ≠ 0 then none
    else if c.centerFreq1 < chan.centerFreq && chan.flags &&& IEEE80211_CHAN_NO_HT40MINUS ≠ 0 then none
    else if chan.centerFreq < c.centerFreq1 && chan.flags &&& IEEE80211_CHAN_NO_HT40PLUS ≠ 0 then none
    else some ofdm
  | .w80p80 =>
    if cap ≠ IEEE80211_VHT_CAP_SUPP_CHAN_WIDTH_160_80PLUS80MHZ then none
    else if !vht.vhtSupported then none
    else some (ofdm ||| IEEE80211_CHAN_NO_80MHZ)
  | .w80 => if !vht.vhtSupported then none else some (ofdm ||| IEEE80211_CHAN_NO_80MHZ)
  | .w160 =>
    if !vht.vhtSupported then none
    else if cap ≠ IEEE80211_VHT_CAP_SUPP_CHAN_WIDTH_160MHZ &&
      cap ≠ IEEE80211_VHT_CAP_SUPP_CHAN_WIDTH_160_80PLUS80MHZ then none
    else some (ofdm ||| IEEE80211_CHAN_NO_160MHZ)

/-- What the device can do in a band allows the definition: the flags that are prohibited then. -/
def chandefFlags (w : BandWiphy) (sband : SupportedBand) (chan : BandChannel) (c : BandChanDef)
    (prohibitedFlags : UInt32) : Option UInt32 :=
  if sband.edmgCap.channels ≠ 0 &&
    !edmgUsable w c.edmg.channels c.edmg.bwConfig chan.hwValue.toNat sband.edmgCap then none
  else widthFlags sband chan c prohibitedFlags

/-- `cfg80211_chandef_usable`; `none` for a band that is not there, or a loop without an end. -/
def chandefUsable (w : BandWiphy) (c : BandChanDef) (prohibitedFlags : UInt32) : Option Bool :=
  match c.chan with
  | none => some false
  | some chan =>
    if !chandefValid c.toChanDef then some false
    else
      match w.bands chan.band with
      | none => none
      | some sband =>
        match chandefFlags w sband chan c prohibitedFlags with
        | none => some false
        | some flags =>
          (secondaryChansOk w c.centerFreq1 c.width.mhz flags).bind fun r =>
            if !r then some false
            else if c.centerFreq2 = 0 then some true
            else secondaryChansOk w c.centerFreq2 c.width.mhz flags

/-! ### What it should mean -/

namespace BandWiphy

variable {w : BandWiphy} {flags flags' freq : UInt32}

/-- The channel exists and has none of the flags. -/
def Clear (w : BandWiphy) (flags freq : UInt32) : Prop :=
  ∃ ch, w.getChannel freq = some ch ∧ ch.flags &&& flags = 0

/-- The radar check of a channel is over, or is left to the device. -/
def RadarDone (w : BandWiphy) (ch : BandChannel) : Prop :=
  ch.flags &&& IEEE80211_CHAN_RADAR ≠ 0 →
    ch.dfsState = .available ∨ ch.dfsState = .usable ∧ w.dfsOffload = true

/-- The channel exists, is enabled, and does not wait for its radar check. -/
def Available (w : BandWiphy) (freq : UInt32) : Prop :=
  ∃ ch, w.getChannel freq = some ch ∧ ch.flags &&& IEEE80211_CHAN_DISABLED = 0 ∧ w.RadarDone ch

/-- What the device can do allows the definition, if its channels have none of these flags. -/
def Allows (w : BandWiphy) (c : BandChanDef) (prohibitedFlags flags : UInt32) : Prop :=
  ∃ chan sband, c.chan = some chan ∧ w.bands chan.band = some sband ∧
    chandefFlags w sband chan c prohibitedFlags = some flags

theorem Clear.mono (h : w.Clear flags' freq) (hle : flags' &&& flags = flags) : w.Clear flags freq := by
  obtain ⟨ch, hch, hclear⟩ := h
  refine ⟨ch, hch, ?_⟩
  rw [← hle, ← UInt32.and_assoc, hclear, UInt32.zero_and]

end BandWiphy

/-- What is answered with true covers every sub-channel. -/
structure ChecksSubChannels (w : BandWiphy) (c : BandChanDef) (prohibitedFlags : UInt32) : Prop where
  /-- The control channel is one of them. -/
  control : ∀ chan, c.chan = some chan → chan.centerFreq ∈ c.width.subFreqs c.centerFreq1
  /-- All channels of a usable definition exist and have none of the flags. -/
  usable : chandefUsable w c prohibitedFlags = some true →
    ∀ center ∈ c.toChanDef.centers, ∀ f ∈ c.width.subFreqs center, w.Clear prohibitedFlags f
  /-- Of an available definition, the radar channels have been checked. -/
  available : chandefDfsAvailable w.toWiphy c.toChanDef = some true →
    ∀ center ∈ c.toChanDef.centers, ∀ f ∈ c.width.subFreqs center, ∀ ch,
      w.getChannel f = some ch → w.RadarDone ch

/-! ### What the functions look at -/

section

variable {w : BandWiphy} {c : BandChanDef} {prohibitedFlags flags : UInt32}

theorem map_toBool_iff {r : Option (Except Unit Unit)} :
    (r.map fun r => r.toBool) = some true ↔ r = some (.ok ()) := by
  rcases r with _ | ⟨_ | _⟩
  · simp
  · simp [Except.toBool]
  · simp [Except.toBool]

theorem secondaryRound_iff (f : UInt32) : secondaryRound w flags f () = .ok () ↔ w.Clear flags f := by
  rw [secondaryRound, BandWiphy.Clear]
  cases hch : w.getChannel f with
  | none => simp
  | some ch => simp

theorem secondaryChansOk_iff {width : ChanWidth} {center : UInt32} :
    secondaryChansOk w center width.mhz flags = some true ↔
      ¬ width.Endless center ∧ ∀ f ∈ width.scanned center, w.Clear flags f := by
  rw [secondaryChansOk, map_toBool_iff, forFreq_segment_iff secondaryRound_iff]

theorem getChannel_toWiphy (f : UInt32) :
    w.toWiphy.getChannel f = (w.getChannel f).map BandChannel.toWiphyChannel := by
  rw [Wiphy.getChannel, BandWiphy.getChannel, BandWiphy.toWiphy, List.find?_map]
  rfl

theorem availableRound_iff (f : UInt32) : availableRound w.toWiphy f () = .ok () ↔ w.Available f := by
  have hoff : w.toWiphy.dfsOffload = w.dfsOffload := rfl
  rw [availableRound, getChannel_toWiphy, BandWiphy.Available, hoff]
  cases hch : w.getChannel f with
  | none => simp
  | some ch =>
    simp only [Option.map_some, BandChannel.toWiphyChannel, BandWiphy.RadarDone, Option.some.injEq,
      exists_eq_left', decide_eq_true_eq]
    by_cases hdis : ch.flags &&& IEEE80211_CHAN_DISABLED = 0
    · by_cases hradar : ch.flags &&& IEEE80211_CHAN_RADAR = 0
      · simp [hdis, hradar]
      · by_cases hav : ch.dfsState = .available
        · simp [hdis, hav]
        · simp [hdis, hradar, hav]
    · simp [hdis]

theorem getChansDfsAvailable_iff {width : ChanWidth} {center : UInt32} :
    getChansDfsAvailable w.toWiphy center width.mhz = some true ↔
      ¬ width.Endless center ∧ ∀ f ∈ width.scanned center, w.Available f := by
  rw [getChansDfsAvailable, map_toBool_iff, forFreq_segment_iff availableRound_iff]

theorem chandefFlags_le {sband : SupportedBand} {chan : BandChannel}
    (h : chandefFlags w sband chan c prohibitedFlags = some flags) :
    flags &&& prohibitedFlags = prohibitedFlags := by
  have hor (a b : UInt32) : (a ||| b) &&& a = a := by
    rw [UInt32.and_comm, ← UInt32.toBitVec_inj]
    ext i hi
    simp +contextual
  rw [chandefFlags] at h
  split at h
  · cases h
  · rw [widthFlags] at h
    cases hw : c.width
    all_goals
      simp only [hw, Option.ite_none_left_eq_some, Option.some.injEq, UInt32.or_assoc] at h
    case w5 | w10 | w20NoHt =>
      rw [← h]
      exact hor _ _
    case w20 | w80 =>
      rw [← h.2]
      exact hor _ _
    case w80p80 | w160 =>
      rw [← h.2.2]
      exact hor _ _
    case w40 =>
      rw [← h.2.2.2.2]
      exact hor _ _

theorem forall_centers {P : UInt32 → Prop} {c : ChanDef} :
    (∀ center ∈ c.centers, P center) ↔ P c.centerFreq1 ∧ (c.width = .w80p80 → P c.centerFreq2) := by
  rw [ChanDef.centers]
  split
  · rename_i hw
    simp [hw]
  · rename_i hw
    simp [hw]

theorem chandefUsable_iff (h : chandefValid c.toChanDef = true) :
    chandefUsable w c prohibitedFlags = some true ↔ ∃ flags, w.Allows c prohibitedFlags flags ∧
      ∀ center ∈ c.toChanDef.centers,
        ¬ c.width.Endless center ∧ ∀ f ∈ c.width.scanned center, w.Clear flags f := by
  have hcf2 : c.centerFreq2 = 0 ↔ c.width ≠ .w80p80 := ChanDef.centerFreq2_eq_zero_iff h
  have hloops (flags : UInt32) : ((secondaryChansOk w c.centerFreq1 c.width.mhz flags).bind fun r =>
      if !r then some false
      else if c.centerFreq2 = 0 then some true
      else secondaryChansOk w c.centerFreq2 c.width.mhz flags) = some true ↔
      ∀ center ∈ c.toChanDef.centers, secondaryChansOk w center c.width.mhz flags = some true := by
    rw [forall_centers]
    show _ ↔ secondaryChansOk w c.centerFreq1 c.width.mhz flags = some true ∧
      (c.width = .w80p80 → secondaryChansOk w c.centerFreq2 c.width.mhz flags = some true)
    rcases secondaryChansOk w c.centerFreq1 c.width.mhz flags with _ | _ | _
    · simp
    · simp
    · by_cases hw : c.width = .w80p80
      · have hne : c.centerFreq2 ≠ 0 := fun h0 => hcf2.1 h0 hw
        simp [hw, hne]
      · simp [hw, hcf2.2 hw]
  simp only [← secondaryChansOk_iff]
  rw [chandefUsable]
  cases hchan : c.chan with
  | none =>
    rw [chandefValid] at h
    simp [BandChanDef.toChanDef, hchan] at h
  | some chan =>
    dsimp only
    rw [if_neg (by rw [h]; decide)]
    cases hband : w.bands chan.band with
    | none => simp [BandWiphy.Allows, hchan, hband]
    | some sband =>
      have hallows (flags : UInt32) : w.Allows c prohibitedFlags flags ↔
          chandefFlags w sband chan c prohibitedFlags = some flags := by
        simp [BandWiphy.Allows, hchan, hband]
      dsimp only
      simp only [hallows]
      cases hflags : chandefFlags w sband chan c prohibitedFlags with
      | none => simp
      | some flags =>
        dsimp only
        rw [hloops]
        simp

theorem chandefDfsAvailable_iff (h : chandefValid c.toChanDef = true) :
    chandefDfsAvailable w.toWiphy c.toChanDef = some true ↔
      ∀ center ∈ c.toChanDef.centers,
        ¬ c.width.Endless center ∧ ∀ f ∈ c.width.scanned center, w.Available f := by
  simp only [← getChansDfsAvailable_iff]
  rw [chandefDfsAvailable, if_neg (by rw [h]; decide), forall_centers]
  show _ ↔ getChansDfsAvailable w.toWiphy c.toChanDef.centerFreq1 c.toChanDef.width.mhz = some true ∧ _
  rcases getChansDfsAvailable w.toWiphy c.toChanDef.centerFreq1 c.toChanDef.width.mhz with _ | _ | _
  · simp
  · simp
  · by_cases hw : c.toChanDef.width = .w80p80
    · have hmhz : c.width.mhz = c.toChanDef.width.mhz := rfl
      simp [hw, hmhz]
    · simp [hw]

/-- The control channel of a valid definition is in the first segment. -/
theorem control_mem_subFreqs (h : chandefValid c.toChanDef = true) {chan : BandChannel}
    (hchan : c.chan = some chan) : chan.centerFreq ∈ c.width.subFreqs c.centerFreq1 := by
  have hplace : ∀ width : ChanWidth, ∀ k ∈ width.reach, (∃ off ∈ width.offsets, UInt32.ofInt off = k) ∧
      ∃ off ∈ width.offsets, UInt32.ofInt off = -k := by
    intro width
    cases width
    all_goals
      simp only [ChanWidth.reach, List.forall_mem_cons, List.not_mem_nil, false_implies, implies_true, and_true]
      decide
  obtain ⟨control, hcontrol, k, hk, hcf1⟩ := offset_of_valid h
  obtain rfl : chan.centerFreq = control := by simpa [BandChanDef.toChanDef, hchan] using hcontrol
  obtain ⟨⟨up, hup, hupk⟩, down, hdown, hdownk⟩ := hplace c.width k hk
  have hcf1 : c.centerFreq1 = chan.centerFreq + k ∨ c.centerFreq1 = chan.centerFreq - k := hcf1
  rw [ChanWidth.subFreqs, List.mem_map]
  rcases hcf1 with hcf1 | hcf1
  · exact ⟨down, hdown, by rw [hcf1, hdownk, add_neg_cancel_right]⟩
  · exact ⟨up, hup, by rw [hcf1, hupk, sub_add_cancel]⟩

/-- Usable and available definitions have been looked at, exactly if what has not been looked at does no
harm. -/
theorem checksSubChannels_iff (h : chandefValid c.toChanDef = true) :
    ChecksSubChannels w c prohibitedFlags ↔
      (∀ flags, w.Allows c prohibitedFlags flags →
        SkippedFine c.toChanDef (w.Clear flags) (w.Clear prohibitedFlags)) ∧
      SkippedFine c.toChanDef w.Available fun f => ∀ ch, w.getChannel f = some ch → w.RadarDone ch := by
  have hready (f : UInt32) (hf : w.Available f) (ch : BandChannel) (hch : w.getChannel f = some ch) :
      w.RadarDone ch := by
    obtain ⟨ch', hch', -, hdone⟩ := hf
    rw [hch] at hch'
    cases hch'
    exact hdone
  have hclear (flags : UInt32) (hallows : w.Allows c prohibitedFlags flags) (f : UInt32)
      (hf : w.Clear flags f) : w.Clear prohibitedFlags f := by
    obtain ⟨chan, sband, -, -, hflags⟩ := hallows
    exact hf.mono (chandefFlags_le hflags)
  rw [← forall_subFreqs_iff hready]
  constructor
  · intro hchecks
    refine ⟨fun flags hallows => (forall_subFreqs_iff (hclear flags hallows)).1 fun hall => ?_, fun hall => ?_⟩
    · exact hchecks.usable ((chandefUsable_iff h).2 ⟨flags, hallows, hall⟩)
    · exact hchecks.available ((chandefDfsAvailable_iff h).2 hall)
  · rintro ⟨husable, havailable⟩
    refine ⟨fun chan => control_mem_subFreqs h, fun hus => ?_, fun hav => ?_⟩
    · obtain ⟨flags, hallows, hall⟩ := (chandefUsable_iff h).1 hus
      exact (forall_subFreqs_iff (hclear flags hallows)).2 (husable flags hallows) hall
    · exact havailable ((chandefDfsAvailable_iff h).1 hav)

end

/-- Four channels of 5 GHz, and all widths. -/
def fourChannels : BandWiphy where
  bands
    | .ghz5 => some
      { channels := [{ band := .ghz5, centerFreq := 5180 }, { band := .ghz5, centerFreq := 5200 },
          { band := .ghz5, centerFreq := 5220 }, { band := .ghz5, centerFreq := 5240 }]
        htCap := { htSupported := true }
        vhtCap :=
          { vhtSupported := true
            cap := IEEE80211_VHT_CAP_SUPP_CHAN_WIDTH_160_80PLUS80MHZ } }
    | _ => none

/-- The four channels, and a second segment. -/
def withSegment2 (width : ChanWidth) (centerFreq2 : UInt32) : BandChanDef where
  chan := some { band := .ghz5, centerFreq := 5180 }
  width := width
  centerFreq1 := 5210
  centerFreq2 := centerFreq2

/-- Without a second segment. -/
theorem checksSubChannels_iff_fourChannels :
    chandefUsable fourChannels (withSegment2 .w80 0) IEEE80211_CHAN_DISABLED = some true ∧
      ChecksSubChannels fourChannels (withSegment2 .w80 0) IEEE80211_CHAN_DISABLED := by
  have hwraps : ∀ center ∈ (withSegment2 .w80 0).toChanDef.centers, ¬ ChanWidth.w80.Wraps center :=
    forall_centers.2 ⟨by decide, fun hw => absurd hw (by decide)⟩
  refine ⟨by decide +kernel, (checksSubChannels_iff (by decide)).2 ⟨fun flags _ => ?_, ?_⟩⟩
  · exact .inr fun center hcenter hw => absurd hw (hwraps center hcenter)
  · exact .inr fun center hcenter hw => absurd hw (hwraps center hcenter)

/-- With the second segment at 1 MHz, none of whose channels exists. -/
theorem usable_without_channels : chandefValid (withSegment2 .w80p80 1).toChanDef = true ∧
      chandefUsable fourChannels (withSegment2 .w80p80 1) IEEE80211_CHAN_DISABLED = some true ∧
      (∀ f ∈ ChanWidth.w80p80.subFreqs 1, fourChannels.getChannel f = none) ∧
      ¬ ChecksSubChannels fourChannels (withSegment2 .w80p80 1) IEEE80211_CHAN_DISABLED := by
  have husable : chandefUsable fourChannels (withSegment2 .w80p80 1) IEEE80211_CHAN_DISABLED = some true := by
    decide +kernel
  have hnone : ∀ f ∈ ChanWidth.w80p80.subFreqs 1, fourChannels.getChannel f = none := by
    intro f hf
    obtain ⟨off, hoff, rfl⟩ := List.mem_map.1 hf
    revert off
    decide
  refine ⟨by decide, husable, hnone, fun hchecks => ?_⟩
  obtain ⟨ch, hch, -⟩ := hchecks.usable husable 1 (by decide) 11 (by decide)
  rw [hnone 11 (by decide)] at hch
  cases hch

end Mac80211
