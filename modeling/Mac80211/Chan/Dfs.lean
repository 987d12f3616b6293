import Mathlib.Data.UInt

/-!
# Radar detection states

`net/wireless/chan.c`: channel definitions, the DFS state of the channels, and the functions that
write and read it. The queries have a case of their own for definitions of at most 20 MHz, and the
marking function has not. Frequencies are `u32`; the loops wrap around with them, so `forFreq` has
fuel for `2 ^ 32` rounds.

## Main definitions

* `Wiphy`, `ChanDef`, `chandefValid`, `forFreq`
-/

namespace Mac80211

/-! ### Channels -/

/-- `enum nl80211_dfs_state`. -/
inductive DfsState
  | usable
  | unavailable
  | available
deriving DecidableEq

/-- `struct ieee80211_channel`, as far as DFS goes. -/
structure WiphyChannel where
  /-- `center_freq`, in MHz. -/
  centerFreq : UInt32
  /-- `IEEE80211_CHAN_DISABLED`. -/
  disabled : Bool := false
  /-- `IEEE80211_CHAN_RADAR`. -/
  radar : Bool := false
  dfsState : DfsState := .usable
  /-- `dfs_state_entered`, in jiffies. -/
  dfsStateEntered : UInt64 := 0

/-- `struct wiphy`. -/
structure Wiphy where
  /-- The channels of all bands, one band after the other. -/
  channels : List WiphyChannel
  /-- `NL80211_EXT_FEATURE_DFS_OFFLOAD`. -/
  dfsOffload : Bool := false

/-- `ieee80211_get_channel`. -/
def Wiphy.getChannel (w : Wiphy) (freq : UInt32) : Option WiphyChannel :=
  w.channels.find? fun c => c.centerFreq == freq

/-- Write to the channel that `ieee80211_get_channel` finds. -/
def writeFirst (freq : UInt32) (f : WiphyChannel → WiphyChannel) : List WiphyChannel → List WiphyChannel
  | [] => []
  | c :: cs => if c.centerFreq == freq then f c :: cs else c :: writeFirst freq f cs

/-! ### Channel definitions -/

/-- `enum nl80211_chan_width`. -/
inductive ChanWidth
  | w20NoHt
  | w20
  | w40
  | w80
  | w80p80
  | w160
  | w5
  | w10
deriving DecidableEq

/-- `cfg80211_chandef_get_width`. -/
def ChanWidth.mhz : ChanWidth → UInt32
  | w5 => 5
  | w10 => 10
  | w20 | w20NoHt => 20
  | w40 => 40
  | w80p80 | w80 => 80
  | w160 => 160

/-- `struct cfg80211_chan_def`. -/
structure ChanDef where
  /-- `chan->center_freq`, if `chan` is set. -/
  chan : Option UInt32
  width : ChanWidth
  centerFreq1 : UInt32
  centerFreq2 : UInt32 := 0
  /-- `edmg.channels`. -/
  edmgChannels : UInt8 := 0
  /-- `edmg.bw_config`. -/
  edmgBwConfig : ℕ := 0
deriving DecidableEq

/-- `cfg80211_valid_60g_freq`. -/
def valid60gFreq (freq : UInt32) : Bool := 58320 ≤ freq && freq ≤ 70200

/-- The loop of `cfg80211_edmg_chandef_valid`: `contiguous`, `max_contiguous`, `num_of_enabled`. -/
def edmgCounts (channels : UInt8) : ℕ × ℕ × ℕ :=
  (List.range 6).foldl (fun (contiguous, maxContiguous, enabled) i =>
    let on := channels.toNat.testBit i
    let contiguous := if on then contiguous + 1 else 0
    (contiguous, max contiguous maxContiguous, if on then enabled + 1 else enabled)) (0, 0, 0)

/-- `cfg80211_edmg_chandef_valid`. -/
def edmgChandefValid (c : ChanDef) (control : UInt32) : Bool :=
  let (_, maxContiguous, enabled) := edmgCounts c.edmgChannels
  let bw := c.edmgBwConfig
  if c.edmgChannels = 0 || bw = 0 then false
  else if !valid60gFreq control then false
  else if bw < 4 || 15 < bw then false
  else if maxContiguous < bw % 4 + 1 then false
  else if bw < 8 then true
  else if bw < 12 then 2 ≤ enabled
  else 4 ≤ enabled && 2 ≤ maxContiguous

/-- The part of `cfg80211_chandef_valid` that depends on the width. -/
def centerFreqsValid (c : ChanDef) (control : UInt32) : Bool :=
  let cf1 := c.centerFreq1
  let cf2 := c.centerFreq2
  match c.width with
  | .w5 | .w10 | .w20 | .w20NoHt => cf1 = control && cf2 = 0
  | .w40 => (cf1 = control + 10 || cf1 = control - 10) && cf2 = 0
  | .w80p80 =>
    (cf1 = control + 30 || cf1 = control + 10 || cf1 = control - 10 || cf1 = control - 30) &&
      cf2 ≠ 0 && cf1 - cf2 ≠ 80 && cf2 - cf1 ≠ 80
  | .w80 =>
    (cf1 = control + 30 || cf1 = control + 10 || cf1 = control - 10 || cf1 = control - 30) && cf2 = 0
  | .w160 =>
    (cf1 = control + 70 || cf1 = control + 50 || cf1 = control + 30 || cf1 = control + 10 ||
      cf1 = control - 10 || cf1 = control - 30 || cf1 = control - 50 || cf1 = control - 70) && cf2 = 0

/-- `cfg80211_chandef_valid`. -/
def chandefValid (c : ChanDef) : Bool :=
  match c.chan with
  | none => false
  | some control =>
    if !centerFreqsValid c control then false
    else if c.centerFreq1 = 2484 && c.width ≠ .w20NoHt then false
    else if (c.edmgChannels ≠ 0 || c.edmgBwConfig ≠ 0) && !edmgChandefValid c control then false
    else true

/-! ### Loops over frequencies -/

section Loop

variable {σ ρ : Type*}

/-- `for (freq = start; freq <= stop; freq += 20)`: the state at the end, or what is returned from
inside. -/
def forFreq (stop : UInt32) (body : UInt32 → σ → Except ρ σ) : ℕ → UInt32 → σ → Option (Except ρ σ)
  | 0, _, _ => none
  | fuel + 1, freq, s =>
    if freq ≤ stop then
      match body freq s with
      | .error r => some (.error r)
      | .ok s' => forFreq stop body fuel (freq + 20) s'
    else some (.ok s)

end Loop

/-- A radar channel enters a state. -/
def WiphyChannel.enter (jiffies : UInt64) (state : DfsState) (c : WiphyChannel) : WiphyChannel :=
  if c.radar then { c with dfsState := state, dfsStateEntered := jiffies } else c

/-- One round of `cfg80211_set_chans_dfs_state`. -/
def Wiphy.mark (jiffies : UInt64) (state : DfsState) (freq : UInt32) (w : Wiphy) : Wiphy :=
  { w with channels := writeFirst freq (WiphyChannel.enter jiffies state) w.channels }

/-- `cfg80211_set_chans_dfs_state`. -/
def setChansDfsState (jiffies : UInt64) (w : Wiphy) (center bandwidth : UInt32) (state : DfsState) :
    Option Wiphy :=
  match forFreq (center + bandwidth / 2 - 10)
      (fun freq w => (.ok (w.mark jiffies state freq) : Except Empty Wiphy)) (2 ^ 32)
      (center - bandwidth / 2 + 10) w with
  | some (.ok w') => some w'
  | _ => none

/-- `cfg80211_set_dfs_state`; `none` if it does not come back. -/
def setDfsState (jiffies : UInt64) (w : Wiphy) (c : ChanDef) (state : DfsState) : Option Wiphy :=
  if !chandefValid c then some w
  else
    (setChansDfsState jiffies w c.centerFreq1 c.width.mhz state).bind fun w =>
      if c.centerFreq2 = 0 then some w
      else setChansDfsState jiffies w c.centerFreq2 c.width.mhz state

/-- `cfg80211_get_start_freq`. -/
def getStartFreq (center bandwidth : UInt32) : UInt32 :=
  if bandwidth ≤ 20 then center else center - bandwidth / 2 + 10

/-- `cfg80211_get_end_freq`. -/
def getEndFreq (center bandwidth : UInt32) : UInt32 :=
  if bandwidth ≤ 20 then center else center + bandwidth / 2 - 10

/-- One round of `cfg80211_get_chans_dfs_usable`. -/
def usableRound (w : Wiphy) (freq : UInt32) (count : ℕ) : Except Unit ℕ :=
  match w.getChannel freq with
  | none => .error ()
  | some c =>
    if c.disabled then .error ()
    else if c.radar then
      if c.dfsState = .unavailable then .error ()
      else if c.dfsState = .usable then .ok (count + 1)
      else .ok count
    else .ok count

/-- `cfg80211_get_chans_dfs_usable`, with an error for `-EINVAL`. -/
def getChansDfsUsable (w : Wiphy) (center bandwidth : UInt32) : Option (Except Unit ℕ) :=
  forFreq (getEndFreq center bandwidth) (usableRound w) (2 ^ 32) (getStartFreq center bandwidth) 0

/-- `cfg80211_chandef_dfs_usable`. -/
def chandefDfsUsable (w : Wiphy) (c : ChanDef) : Option Bool :=
  if !chandefValid c then some false
  else
    (getChansDfsUsable w c.centerFreq1 c.width.mhz).bind fun r1 =>
      match r1 with
      | .error _ => some false
      | .ok r1 =>
        if c.width = .w80p80 then
          (getChansDfsUsable w c.centerFreq2 c.width.mhz).map fun r2 =>
            match r2 with
            | .error _ => false
            | .ok r2 => 0 < r1 + r2
        else some (0 < r1)

/-- One round of `cfg80211_get_chans_dfs_available`. -/
def availableRound (w : Wiphy) (freq : UInt32) (_ : Unit) : Except Unit Unit :=
  match w.getChannel freq with
  | none => .error ()
  | some c =>
    if c.disabled then .error ()
    else if c.radar && c.dfsState ≠ .available && !(c.dfsState = .usable && w.dfsOffload) then .error ()
    else .ok ()

/-- `cfg80211_get_chans_dfs_available`. -/
def getChansDfsAvailable (w : Wiphy) (center bandwidth : UInt32) : Option Bool :=
  (forFreq (getEndFreq center bandwidth) (availableRound w) (2 ^ 32)
    (getStartFreq center bandwidth) ()).map fun r => r.toBool

/-- `cfg80211_chandef_dfs_available`. -/
def chandefDfsAvailable (w : Wiphy) (c : ChanDef) : Option Bool :=
  if !chandefValid c then some false
  else
    (getChansDfsAvailable w c.centerFreq1 c.width.mhz).bind fun r =>
      if !r then some false
      else if c.width = .w80p80 then getChansDfsAvailable w c.centerFreq2 c.width.mhz
      else some true

end Mac80211
