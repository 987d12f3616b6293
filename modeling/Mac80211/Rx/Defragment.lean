import Mac80211.State

/-!
# Decryption and defragmentation of received frames

`rx.c`: `ieee80211_rx_h_decrypt`, which finds a frame's key and runs its cipher, and
`ieee80211_rx_h_defragment`, with a ring of four entries per interface. The PN check of the second
reads the counter that the first has just advanced: `rx_pn` of whatever key the frame was matched
with.

## Main definitions

* `rxHDecrypt`, `rxHDefragment`
-/

namespace Mac80211

/-- `IEEE80211_FRAGMENT_MAX`. -/
def FRAGMENT_MAX : ℕ := 4

/-- `NUM_DEFAULT_KEYS`. -/
def NUM_DEFAULT_KEYS : ℕ := 4

/-- `NUM_DEFAULT_MGMT_KEYS`. -/
def NUM_DEFAULT_MGMT_KEYS : ℕ := 2

/-- `ieee80211_parse_qos`: `seqno_idx` and `security_idx`, from the frame control and the first
byte of the QoS control field. -/
def parseQos (fc : UInt16) (qc : UInt8) : ℕ × ℕ :=
  if isDataQos fc then ((qc &&& 0x0f).toNat, (qc &&& 0x0f).toNat)
  else (NUM_TIDS, if isMgmt fc then NUM_TIDS else 0)

/-- `ieee80211_get_keyid`. -/
def getKeyid (skb : RxSkb) (cs : Option CipherScheme) : Option ℕ :=
  let hl := hdrlen skb.hdr.frameControl
  let minlen := hl + (cs.map CipherScheme.hdrLen).getD 4
  let off := hl + (cs.map CipherScheme.keyIdxOff).getD 3
  let shift := (cs.map CipherScheme.keyIdxShift).getD 6
  let mask := (cs.map CipherScheme.keyIdxMask).getD 0xff
  if skb.hdr.len < minlen then none
  else
    let keyid := (skb.hdr.byte (off - 24) &&& mask).toNat / 2 ^ shift
    if NUM_DEFAULT_KEYS ≤ keyid then none else some keyid

/-- `ieee80211_get_mmie_keyidx`, with `none` for `-1`. -/
def getMmieKeyidx (skb : RxSkb) : Option ℕ :=
  let h := skb.hdr
  let keyId := fun n => ((h.mmie n).getD 2 0).toNat + 256 * ((h.mmie n).getD 3 0).toNat
  let isMmie := fun n => (h.mmie n).getD 0 0 = EID_MMIE ∧ ((h.mmie n).getD 1 0).toNat = n - 2
  if h.len < 24 + MMIE_LEN || !isMulticastEtherAddr h.addr1 then none
  else if !h.isRobustMgmtFrame then none
  else if isMmie MMIE_LEN then some (keyId MMIE_LEN)
  else if 24 + MMIE_16_LEN ≤ h.len ∧ isMmie MMIE_16_LEN then some (keyId MMIE_16_LEN)
  else none

/-! ### `ieee80211_rx_h_decrypt` -/

/-- What the key selection of `ieee80211_rx_h_decrypt` ends in. -/
inductive Selected
  /-- The frame is dropped. -/
  | drop
  /-- `RX_CONTINUE` with this `rx->key`, without decryption. -/
  | skip (key : Option KeyId)
  /-- On to the cipher of this key. -/
  | decrypt (key : Option KeyId)

/-- The first key in slots 0 to 3. -/
def firstDefaultKey (keys : ℕ → Option KeyId) : Option KeyId :=
  (List.range NUM_DEFAULT_KEYS).findSome? keys

/-- The key that could have been used for an unprotected frame. -/
def unprotectedKey (s : Local) (i : SdataId) (rx : RxData) : Option KeyId :=
  let h := rx.skb.hdr
  match (s.sdata i).defaultMgmtKey with
  | some k =>
    if isMgmt h.frameControl && isMulticastEtherAddr h.addr1 then some k
    else (rx.sta.bind fun j => firstDefaultKey (s.sta j).gtk) <|> firstDefaultKey (s.sdata i).keys
  | none => (rx.sta.bind fun j => firstDefaultKey (s.sta j).gtk) <|> firstDefaultKey (s.sdata i).keys

/-- The key for a protected frame of a station without PTK, or to a group. -/
def indexedKey (s : Local) (i : SdataId) (rx : RxData) (keyidx : ℕ) : Option KeyId :=
  let mc := isMulticastEtherAddr rx.skb.hdr.addr1
  (if mc then rx.sta.bind fun j => (s.sta j).gtk keyidx else none) <|>
    ((s.sdata i).keys keyidx).filter fun k =>
      (s.keys k).cipher = .wep40 || (s.keys k).cipher = .wep104 || mc

/-- `keyid` of a protected frame. The station's cipher scheme says where it is. -/
def rxKeyid (s : Local) (rx : RxData) : Option ℕ :=
  getKeyid rx.skb (rx.sta.bind fun j => (s.sta j).cipherScheme)

/-- `ptk_idx`: the pairwise key in the slot that a protected frame names. -/
def rxPtkIdx (s : Local) (rx : RxData) : Option KeyId :=
  if hasProtected rx.skb.hdr.frameControl then
    rx.sta.bind fun j => (rxKeyid s rx).bind (s.sta j).ptk
  else none

/-- Broadcast/multicast robust management frame / BIP. -/
def bipKey (s : Local) (i : SdataId) (rx : RxData) (idx : ℕ) : Selected :=
  if rx.skb.status.decrypted && rx.skb.status.ivStripped then .skip none
  else if idx < NUM_DEFAULT_KEYS || NUM_DEFAULT_KEYS + NUM_DEFAULT_MGMT_KEYS ≤ idx then .drop
  else if rx.skb.hdr.isGroupPrivacyAction && rx.sta.any fun j => (s.sta j).mfp then .drop
  else .decrypt ((rx.sta.bind fun j => (s.sta j).gtk idx) <|> (s.sdata i).keys idx)

/-- The key selection of `ieee80211_rx_h_decrypt`. -/
def rxSelectKey (s : Local) (i : SdataId) (rx : RxData) : Selected :=
  let prot := hasProtected rx.skb.hdr.frameControl
  let stripped := rx.skb.status.decrypted && rx.skb.status.ivStripped
  if rx.sta.isSome && prot && (rxKeyid s rx).isNone then .drop
  else
    match if isMulticastEtherAddr rx.skb.hdr.addr1 then none else rx.sta.bind s.ptkOf with
    | some staPtk =>
      let key := (rxPtkIdx s rx).getD staPtk
      if stripped || !prot then .skip (some key) else .decrypt (some key)
    | none =>
      match if prot then none else getMmieKeyidx rx.skb with
      | some idx => bipKey s i rx idx
      | none =>
        if !prot then .skip (unprotectedKey s i rx)
        else if stripped then .skip none
        else
          match rxKeyid s rx with
          | none => .drop
          | some keyidx => .decrypt (indexedKey s i rx keyidx)

/-- `ieee80211_rx_h_decrypt`. -/
def rxHDecrypt (C : Crypto) (env : RxAlloc) (s : Local) (i : SdataId) (rx : RxData) :
    Except Drop RxData × Local :=
  match rxSelectKey s i rx with
  | .drop => (.error .key, s)
  | .skip key => (.ok { rx with key := key }, s)
  | .decrypt none => (.error .key, s)
  | .decrypt (some k) =>
    if (s.keys k).tainted then (.error .key, s)
    else
      let out := cryptoDecrypt C env (s.keys k) rx
      let s' := s.updKey k fun _ => out.2
      match out.1 with
      | .error d => (.error d, s')
      | .ok skb =>
        (.ok { rx with
          skb := { skb with status := { skb.status with decrypted := true } }
          key := some k }, s')

/-! ### `ieee80211_rx_h_defragment` -/

/-- `frag`: the fragment number. -/
def Hdr.frag (h : Hdr) : ℕ := (h.seqCtrl &&& SCTL_FRAG).toNat

/-- `seq`: the sequence number. -/
def Hdr.seq (h : Hdr) : ℕ := (h.seqCtrl &&& SCTL_SEQ).toNat / 2 ^ 4

/-- The fragment matches the entry in everything but age. -/
def FragmentEntry.isMatch (e : FragmentEntry) (frag seq queue : ℕ) (hdr : Hdr) : Bool :=
  match e.skbList with
  | [] => false
  | f :: _ =>
    e.seq = seq && e.rxQueue = queue && e.lastFrag + 1 = frag &&
      (hdr.frameControl ^^^ f.skb.hdr.frameControl) &&& FCTL_FTYPE = 0 &&
      hdr.addr1 = f.skb.hdr.addr1 && hdr.addr2 = f.skb.hdr.addr2

/-- `__skb_queue_purge(&entry->skb_list)`. -/
def FragmentEntry.purge (e : FragmentEntry) : FragmentEntry := { e with skbList := [] }

/-- `idx--; if (idx < 0) idx = IEEE80211_FRAGMENT_MAX - 1`. -/
def prevIdx (idx : ℕ) : ℕ := if idx = 0 then FRAGMENT_MAX - 1 else idx - 1

/-- `ieee80211_reassemble_find`: look back for the entry this fragment continues, and purge matching
ones older than two seconds. -/
def reassembleFind (hz jiffies : UInt64) (frag seq queue : ℕ) (hdr : Hdr) :
    ℕ → ℕ → List FragmentEntry → Option ℕ × List FragmentEntry
  | 0, _, entries => (none, entries)
  | n + 1, idx, entries =>
    let idx := prevIdx idx
    let entry := entries.getD idx {}
    if entry.isMatch frag seq queue hdr then
      if timeAfter jiffies (entry.firstFragTime + 2 * hz) then
        reassembleFind hz jiffies frag seq queue hdr n idx
          (entries.set idx entry.purge)
      else (some idx, entries)
    else reassembleFind hz jiffies frag seq queue hdr n idx entries

/-- Write the cache of an interface. -/
def SubIfData.setFragments (d : SubIfData) (entries : List FragmentEntry) : SubIfData :=
  { d with fragments := entries }

/-- `ieee80211_reassemble_add`: the next entry of the ring is taken, whatever it held. -/
def reassembleAdd (entry : FragmentEntry) (d : SubIfData) : SubIfData :=
  { d with
    fragments := d.fragments.set d.fragmentNext entry
    fragmentNext := if FRAGMENT_MAX ≤ d.fragmentNext + 1 then 0 else d.fragmentNext + 1 }

/-- What becomes of a frame in `ieee80211_rx_h_defragment`. -/
inductive Defragmented
  /-- `RX_CONTINUE` with the frame as it came. -/
  | whole (skb : RxSkb)
  /-- `RX_CONTINUE` with the frame put together from these fragments. -/
  | msdu (skb : RxSkb) (fragments : List Fragment)
  /-- `RX_QUEUED`. -/
  | queued
  /-- Dropped. -/
  | dropped

/-- `rx->key->conf.cipher` is one of the four CCMP and GCMP suites. -/
def hasPnKey (s : Local) (rx : RxData) : Bool := rx.key.any fun k => (s.keys k).cipher.isCcmpOrGcmp

/-- `rx->key->u.ccmp.rx_pn[rx->security_idx]`. -/
def keyRxPn (s : Local) (rx : RxData) : Option Pn :=
  rx.key.map fun k => (s.keys k).rxPn rx.securityIdx

/-- The sequential check: the entry has none, or the stored packet number is `last_pn` plus one. -/
def FragmentEntry.pnFits (e : FragmentEntry) (s : Local) (rx : RxData) : Bool :=
  !e.checkSequentialPn || hasPnKey s rx &&
    (keyRxPn s rx).any fun rpn => Bytes.memcmp (incrPn e.lastPn).toList rpn.toList = .eq

/-- The entry with the fragment at its end. -/
def FragmentEntry.push (e : FragmentEntry) (f : Fragment) (frag : ℕ) : FragmentEntry :=
  { e with
    skbList := e.skbList ++ [f]
    lastFrag := frag
    lastPn := if e.checkSequentialPn then incrPn e.lastPn else e.lastPn }

/-- Put the bodies of the later fragments behind the first one. -/
def assemble : List Fragment → Option RxSkb
  | [] => none
  | f :: fs => some { f.skb with hdr := { f.skb.hdr with
      rest := f.skb.hdr.rest ++ (fs.map fun g => g.skb.hdr.body).flatten } }

/-- The entry a first fragment starts. The old contents of `last_pn` stay where no check is
made. -/
def firstEntry (jiffies : UInt64) (s : Local) (i : SdataId) (rx : RxData) (f : Fragment) :
    FragmentEntry :=
  let check := hasPnKey s rx && hasProtected rx.skb.hdr.frameControl
  let d := s.sdata i
  { skbList := [f], firstFragTime := jiffies, seq := rx.skb.hdr.seq, rxQueue := rx.seqnoIdx,
    lastFrag := rx.skb.hdr.frag, checkSequentialPn := check,
    lastPn := if check then (keyRxPn s rx).getD (Vector.replicate 6 0)
      else (d.fragments.getD d.fragmentNext {}).lastPn }

/-- The search `ieee80211_rx_h_defragment` makes for a later fragment. -/
def findEntry (hz jiffies : UInt64) (s : Local) (i : SdataId) (rx : RxData) :
    Option ℕ × List FragmentEntry :=
  reassembleFind hz jiffies rx.skb.hdr.frag rx.skb.hdr.seq rx.seqnoIdx rx.skb.hdr FRAGMENT_MAX
    (s.sdata i).fragmentNext (s.sdata i).fragments

/-- `ieee80211_rx_h_defragment`, on the fragment `f`, which `rx` stands for. -/
def rxHDefragment (hz jiffies : UInt64) (env : RxAlloc) (s : Local) (i : SdataId) (rx : RxData)
    (f : Fragment) : Defragmented × Local :=
  let hdr := rx.skb.hdr
  let fc := hdr.frameControl
  if isCtl fc || isMulticastEtherAddr hdr.addr1 then (.whole rx.skb, s)
  else if !hasMorefrags fc && hdr.frag = 0 then (.whole rx.skb, s)
  else if !(rx.skb.linear || env.linearize) then (.dropped, s)
  else if hdr.frag = 0 then
    (.queued, s.updSdata i (reassembleAdd (firstEntry jiffies s i rx f)))
  else
    match findEntry hz jiffies s i rx with
    | (none, entries) => (.dropped, s.updSdata i fun d => d.setFragments entries)
    | (some idx, entries) =>
      if !(entries.getD idx {}).pnFits s rx then
        (.dropped, s.updSdata i fun d => d.setFragments entries)
      else
        let entry := (entries.getD idx {}).push f hdr.frag
        if hasMorefrags fc then
          (.queued, s.updSdata i fun d => d.setFragments (entries.set idx entry))
        else
          let s' := s.updSdata i fun d => d.setFragments (entries.set idx entry.purge)
          match assemble entry.skbList with
          | none => (.dropped, s')
          | some skb => if env.expandHead then (.msdu skb entry.skbList, s') else (.dropped, s')

/-! ### The two handlers together -/

/-- How the frame came in, for the record. -/
def fragmentOf (s : Local) (i : SdataId) (rx : RxData) (skb : RxSkb) (key : Option KeyId) :
    Fragment where
  skb := skb
  isProtected := hasProtected rx.skb.hdr.frameControl
  key := key
  cipher := key.map fun k => (s.keys k).cipher
  verified :=
    match rxSelectKey s i rx with
    | .decrypt (some k) => rx.pnCheckedBy (s.keys k).cipher
    | _ => false
  pn := hdr2pn rx.skb.hdr.body

/-- Both handlers on one received frame. -/
def rxFragment (C : Crypto) (hz jiffies : UInt64) (env : RxAlloc) (s : Local) (i : SdataId)
    (rx : RxData) : Defragmented × Local :=
  match rxHDecrypt C env s i rx with
  | (.error _, s') => (.dropped, s')
  | (.ok rx', s') => rxHDefragment hz jiffies env s' i rx' (fragmentOf s i rx rx'.skb rx'.key)

end Mac80211
