import Mac80211.Chan.Usable

/-!
# Whose mesh a frame is from

`mesh_matches_local` of `mesh.c`: mesh ID and protocol identifiers are those of the interface, the
basic rates are the same, and the channel definitions go together. The rates are read off as indices
into the rates of the band, the definition from the HT operation element, which the VHT one may
widen.

## Main definitions

* `meshMatchesLocal`
-/

namespace Mac80211

/-! ### Elements -/

/-- `struct ieee80211_meshconf_ie`. -/
structure MeshConfElem where
  psel : UInt8
  pmetric : UInt8
  congest : UInt8
  synch : UInt8
  auth : UInt8
  form : UInt8 := 0
  cap : UInt8 := 0

/-- `struct ieee80211_ht_operation`. -/
structure HtOperation where
  htParam : UInt8
  operationMode : UInt16 := 0

/-- `struct ieee80211_vht_operation`. -/
structure VhtOperation where
  chanWidth : UInt8
  centerFreqSeg0Idx : UInt8
  centerFreqSeg1Idx : UInt8

/-- `struct ieee802_11_elems`, as far as peering goes. -/
structure MeshElems where
  meshId : Option (List UInt8) := none
  meshConfig : Option MeshConfElem := none
  suppRates : List UInt8 := []
  extSuppRates : List UInt8 := []
  htOperation : Option HtOperation := none
  vhtOperation : Option VhtOperation := none
  rsnLen : ℕ := 0
  peering : Option (List UInt8) := none

/-- `struct ieee80211_rate`. -/
structure BandRate where
  bitrate : ℕ
  flags : UInt32 := 0

/-- What an interface is configured to be, as far as other stations have to be the same. -/
structure MeshProfile where
  meshId : List UInt8
  /-- `mesh_pp_id`. -/
  ppId : UInt8
  /-- `mesh_pm_id`. -/
  pmId : UInt8
  /-- `mesh_cc_id`. -/
  ccId : UInt8
  /-- `mesh_sp_id`. -/
  spId : UInt8
  /-- `mesh_auth_id`. -/
  authId : UInt8
  basicRates : UInt32
  chandef : ChanDef
  /-- The channel definition of the channel context. -/
  chanctxDef : Option ChanDef := some chandef
  band : Nl80211Band
  /-- The rates of the band, if there is a band. -/
  sband : Option (List BandRate)
  /-- `vht_cap.cap` of the band. -/
  vhtCap : UInt32 := 0
  /-- `SUPPORTS_VHT_EXT_NSS_BW`. -/
  supportsVhtExtNssBw : Bool := false

/-! ### Rates -/

def IEEE80211_RATE_SUPPORTS_5MHZ : UInt32 := 0x20
def IEEE80211_RATE_SUPPORTS_10MHZ : UInt32 := 0x40

def BSS_MEMBERSHIP_SELECTOR_HT_PHY : UInt8 := 127

/-- `ieee80211_chandef_rate_flags`. -/
def chandefRateFlags (c : ChanDef) : UInt32 :=
  match c.width with
  | .w5 => IEEE80211_RATE_SUPPORTS_5MHZ
  | .w10 => IEEE80211_RATE_SUPPORTS_10MHZ
  | _ => 0

/-- `ieee80211_chandef_get_shift`. -/
def chandefGetShift (c : ChanDef) : ℕ :=
  match c.width with
  | .w5 => 2
  | .w10 => 1
  | _ => 0

/-- The rates of the band, by index, that a rate of an element stands for. -/
def rateBits (rateFlags : UInt32) (shift : ℕ) (bitrates : List BandRate) (rate : UInt8) : UInt32 :=
  let ownRate := 5 * (rate &&& 0x7f).toNat
  bitrates.zipIdx.foldl (fun bits (r, j) =>
    if rateFlags &&& r.flags ≠ rateFlags then bits
    -- `DIV_ROUND_UP`
    else if (r.bitrate + 2 ^ shift - 1) / 2 ^ shift = ownRate then bits ||| UInt32.ofNat (2 ^ j)
    else bits) 0

/-- `ieee80211_sta_get_rates`: the supported rates and the basic ones. -/
def staGetRates (p : MeshProfile) (bitrates : List BandRate) (elems : MeshElems) : UInt32 × UInt32 :=
  let rateFlags := chandefRateFlags p.chandef
  let shift := (p.chanctxDef.map chandefGetShift).getD 0
  (elems.suppRates ++ elems.extSuppRates).foldl (fun (suppRates, basicRates) rate =>
    let isBasic := rate &&& 0x80 ≠ 0
    if isBasic ∧ rate &&& 0x7f = BSS_MEMBERSHIP_SELECTOR_HT_PHY then (suppRates, basicRates)
    else
      let bits := rateBits rateFlags shift bitrates rate
      (suppRates ||| bits, if isBasic then basicRates ||| bits else basicRates)) (0, 0)

/-! ### The channel definition of a station -/

/-- `enum nl80211_channel_type`. -/
inductive ChannelType
  | noHt
  | ht20
  | ht40Minus
  | ht40Plus
deriving DecidableEq

/-- `cfg80211_chandef_create`. -/
def chandefCreate (chan : UInt32) : ChannelType → ChanDef
  | .noHt => {
      chan := some chan
      width := .w20NoHt
      centerFreq1 := chan }
  | .ht20 => {
      chan := some chan
      width := .w20
      centerFreq1 := chan }
  | .ht40Plus => {
      chan := some chan
      width := .w40
      centerFreq1 := chan + 10 }
  | .ht40Minus => {
      chan := some chan
      width := .w40
      centerFreq1 := chan - 10 }

/-- `ieee80211_channel_to_frequency`. -/
def channelToFrequency (chan : ℕ) (band : Nl80211Band) : UInt32 :=
  if chan = 0 then 0
  else
    match band with
    | .ghz2 => if chan = 14 then 2484 else if chan < 14 then UInt32.ofNat (2407 + chan * 5) else 0
    | .ghz5 => if 182 ≤ chan ∧ chan ≤ 196 then UInt32.ofNat (4000 + chan * 5)
      else UInt32.ofNat (5000 + chan * 5)
    | .ghz6 => if chan ≤ 253 then UInt32.ofNat (5940 + chan * 5) else 0
    | .ghz60 => if chan < 7 then UInt32.ofNat (56160 + chan * 2160) else 0

/-- `ieee80211_chandef_ht_oper`. -/
def chandefHtOper (htOper : Option HtOperation) (chan : UInt32) (chandef : ChanDef) : ChanDef :=
  match htOper with
  | none => chandef
  | some htOper =>
    match htOper.htParam &&& 0x03 with
    | 0 => chandefCreate chan .ht20
    | 1 => chandefCreate chan .ht40Plus
    | 3 => chandefCreate chan .ht40Minus
    | _ => chandef

def IEEE80211_VHT_CAP_EXT_NSS_BW_MASK : UInt32 := 0xc0000000

/-- `ieee80211_chandef_vht_oper`. -/
def chandefVhtOper (p : MeshProfile) (oper : Option VhtOperation) (htop : Option HtOperation)
    (chandef : ChanDef) : ChanDef :=
  match oper, htop with
  | some oper, some htop =>
    let support160 := p.vhtCap &&&
      (IEEE80211_VHT_CAP_SUPP_CHAN_WIDTH_MASK ||| IEEE80211_VHT_CAP_EXT_NSS_BW_MASK) ≠ 0
    let extNssBw := p.vhtCap &&& IEEE80211_VHT_CAP_EXT_NSS_BW_MASK
    let support8080 := p.vhtCap &&& IEEE80211_VHT_CAP_SUPP_CHAN_WIDTH_160_80PLUS80MHZ ≠ 0 ∨
      p.vhtCap &&& IEEE80211_VHT_CAP_SUPP_CHAN_WIDTH_160MHZ ≠ 0 ∧ extNssBw ≠ 0 ∨ extNssBw >>> 30 > 1
    let ccfs2 := ((htop.operationMode &&& 0x1fe0) >>> 5).toNat
    let ccf0 := oper.centerFreqSeg0Idx.toNat
    let ccf1 := if oper.centerFreqSeg1Idx = 0 ∧ p.supportsVhtExtNssBw then ccfs2
      else oper.centerFreqSeg1Idx.toNat
    let cf0 := channelToFrequency ccf0 p.band
    let cf1 := channelToFrequency ccf1 p.band
    let new : Option ChanDef :=
      match oper.chanWidth with
      -- `IEEE80211_VHT_CHANWIDTH_USE_HT`
      | 0 => some chandef
      -- `IEEE80211_VHT_CHANWIDTH_80MHZ`
      | 1 =>
        let diff := if ccf0 ≤ ccf1 then ccf1 - ccf0 else ccf0 - ccf1
        if ccf1 ≠ 0 ∧ diff = 8 ∧ support160 then some { chandef with
          width := .w160
          centerFreq1 := cf1 }
        else if ccf1 ≠ 0 ∧ diff > 8 ∧ support8080 then some { chandef with
          width := .w80p80
          centerFreq1 := cf0
          centerFreq2 := cf1 }
        else some { chandef with
          width := .w80
          centerFreq1 := cf0 }
      -- deprecated encoding
      | 2 => some { chandef with
          width := .w160
          centerFreq1 := cf0 }
      | 3 => some { chandef with
          width := .w80p80
          centerFreq1 := cf0
          centerFreq2 := cf1 }
      | _ => none
    match new with
    | none => chandef
    | some new => if chandefValid new then new else chandef
  | _, _ => chandef

/-- `sta_chan_def` of `mesh_matches_local`. -/
def staChanDef (p : MeshProfile) (chan : UInt32) (elems : MeshElems) : ChanDef :=
  chandefVhtOper p elems.vhtOperation elems.htOperation
    (chandefHtOper elems.htOperation chan (chandefCreate chan .noHt))

/-- `mesh_matches_local`. -/
def meshMatchesLocal (p : MeshProfile) (elems : MeshElems) : Bool :=
  match elems.meshConfig, p.sband, p.chandef.chan with
  | some conf, some bitrates, some chan =>
    elems.meshId.getD [] == p.meshId && conf.psel == p.ppId && conf.pmetric == p.pmId &&
      conf.congest == p.ccId && conf.synch == p.spId && conf.auth == p.authId &&
      (staGetRates p bitrates elems).2 == p.basicRates &&
      (chandefCompatible p.chandef (staChanDef p chan elems)).isSome
  | _, _, _ => false

end Mac80211
