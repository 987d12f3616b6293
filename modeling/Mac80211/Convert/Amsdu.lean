import Mac80211.Lib.Padded
import Mac80211.Convert.RoundTrip

/-!
# Taking an A-MSDU apart

`ieee80211_amsdu_to_8023s`: the body of an A-MSDU is a row of subframes, two addresses, a length,
that many bytes, and padding to a multiple of four. The last one may be the buffer itself, with
nothing cut off behind it. Subframes that are not from or to whom they should be are skipped.

## Main definitions

* `amsduTo8023s`

## Main results

* `amsduTo8023s_join` — what was put together comes apart
-/

namespace Mac80211

open List

/-- Around the conversion of an A-MSDU. -/
structure AmsduEnv where
  /-- The buffer is linear, and is reused for the last subframe: `!skb_is_nonlinear(skb) && !reuse_frag`. -/
  reuseSkb : Bool := true
  /-- `dev_alloc_skb` found memory, by the bytes that are left. -/
  alloc : ℕ → Bool := fun _ => true
  checkDa : Option Mac := none
  checkSa : Option Mac := none

/-- The subframe is for us, and from whom it should be. Any group address is accepted. -/
def AmsduEnv.accepts (env : AmsduEnv) (dest source : Mac) : Bool :=
  !(env.checkDa.any fun da => !isMulticastEtherAddr dest && da ≠ dest) &&
    !(env.checkSa.any fun sa => sa ≠ source)

/-- A subframe as an Ethernet frame. `len`, the length field of the subframe, stays where no
EtherType replaces it. -/
def subframeToEth (dest source : Mac) (len : ℕ) (payload : List UInt8) : EthFrame where
  dest := dest
  source := source
  payload :=
    if stripsSnap payload then
      -- `skb_pull` does nothing on fewer than eight bytes
      if 8 ≤ payload.length then payload.drop 6
      else Bytes.be16 (Bytes.be16At payload 6) ++ payload
    else Bytes.be16 len ++ payload

/-- The loop of `ieee80211_amsdu_to_8023s` with the rest of the buffer, `skb`, and what has been
converted, `list`, which a subframe that is too long purges. -/
def amsduLoop (env : AmsduEnv) : ℕ → List UInt8 → List EthFrame → List EthFrame
  | 0, _, list => list
  | fuel + 1, skb, list =>
    let dest := macOfBytes skb 0
    let source := macOfBytes skb 6
    let len := Bytes.be16At skb 12
    let subframeLen := 14 + len
    let padding := (4 - subframeLen % 4) % 4
    if skb.length < subframeLen then []
    else
      let last : Bool := skb.length ≤ subframeLen + padding
      let next := skb.drop (subframeLen + padding)
      if !env.accepts dest source then
        if last then list else amsduLoop env fuel next list
      else if env.reuseSkb && last then
        list ++ [subframeToEth dest source len (skb.drop 14)]
      else if !env.alloc skb.length then []
      else
        let list := list ++ [subframeToEth dest source len ((skb.drop 14).take len)]
        if last then list else amsduLoop env fuel next list

/-- `ieee80211_amsdu_to_8023s`. Every round takes at least 14 bytes. -/
def amsduTo8023s (env : AmsduEnv) (skb : List UInt8) : List EthFrame :=
  amsduLoop env (skb.length + 1) skb []

/-! ### Subframes -/

namespace EthFrame

/-- The length of a subframe, without its header. -/
def subframeLen (eth : EthFrame) : ℕ := 6 + eth.payload.length

/-- The subframe of a frame: it is always an RFC 1042 header that is put in front of the EtherType. -/
def subframe (eth : EthFrame) : List UInt8 :=
  eth.dest.toList ++ (eth.source.toList ++ (Bytes.be16 eth.subframeLen ++
    (rfc1042Header ++ eth.payload)))

/-- The frame behind the Ethernet header, without its priority. -/
def plain (eth : EthFrame) : EthFrame := { eth with priority := 0 }

/-- There is an Ethernet header, the length of the subframe can be written in two bytes, and the
EtherType is one that goes with RFC 1042. -/
structure Aggregatable (eth : EthFrame) : Prop where
  header : 2 ≤ eth.payload.length
  fits : eth.subframeLen < 2 ^ 16
  aarp : eth.etherType ≠ ETH_P_AARP
  ipx : eth.etherType ≠ ETH_P_IPX

end EthFrame

section Subframe

variable {eth : EthFrame} {tail : List UInt8}

theorem EthFrame.length_subframe (eth : EthFrame) : eth.subframe.length = 14 + eth.subframeLen := by
  simp only [EthFrame.subframe, EthFrame.subframeLen, length_append, Vector.length_toList,
    Bytes.length_be16, rfc1042Header, length_cons, length_nil]
  omega

theorem EthFrame.length_llc (eth : EthFrame) :
    (rfc1042Header ++ eth.payload).length = eth.subframeLen := by
  rw [length_append]
  rfl

theorem macOfBytes_append (a : Mac) (head tail : List UInt8) :
    macOfBytes (head ++ (a.toList ++ tail)) head.length = a := by
  refine Vector.ext fun i hi => ?_
  have hi' : i < a.toList.length := by simpa using hi
  simp only [macOfBytes, Vector.getElem_ofFn, getD_eq_getElem?_getD]
  rw [List.getElem?_append_right (by omega), Nat.add_sub_cancel_left, List.getElem?_append_left hi']
  simp [hi]

theorem subframe_dest (eth : EthFrame) (tail : List UInt8) :
    macOfBytes (eth.subframe ++ tail) 0 = eth.dest := by
  simpa [EthFrame.subframe, append_assoc] using macOfBytes_append eth.dest [] _

theorem subframe_source (eth : EthFrame) (tail : List UInt8) :
    macOfBytes (eth.subframe ++ tail) 6 = eth.source := by
  have h := macOfBytes_append eth.source eth.dest.toList
    (Bytes.be16 eth.subframeLen ++ (rfc1042Header ++ (eth.payload ++ tail)))
  simpa [EthFrame.subframe, append_assoc] using h

theorem subframe_len (eth : EthFrame) (tail : List UInt8) :
    Bytes.be16At (eth.subframe ++ tail) 12 = eth.subframeLen % 2 ^ 16 := by
  have h := Bytes.be16At_append (eth.dest.toList ++ eth.source.toList)
    (Bytes.be16 eth.subframeLen ++ (rfc1042Header ++ (eth.payload ++ tail))) 0
  rw [Bytes.be16At_be16] at h
  simpa [EthFrame.subframe, append_assoc] using h

theorem drop_subframe (eth : EthFrame) (tail : List UInt8) :
    (eth.subframe ++ tail).drop 14 = rfc1042Header ++ eth.payload ++ tail := by
  have hlen : (eth.dest.toList ++ (eth.source.toList ++ Bytes.be16 eth.subframeLen)).length = 14 := by
    simp
  have hsub : eth.subframe ++ tail = (eth.dest.toList ++ (eth.source.toList ++
      Bytes.be16 eth.subframeLen)) ++ (rfc1042Header ++ eth.payload ++ tail) := by
    simp only [EthFrame.subframe, append_assoc]
  rw [hsub, drop_left' hlen]

/-- **A subframe comes back as the frame it was made of.** -/
theorem subframeToEth_eq (h : eth.Aggregatable) (len : ℕ) :
    subframeToEth eth.dest eth.source len (rfc1042Header ++ eth.payload) = eth.plain := by
  have hstrip : stripsSnap (rfc1042Header ++ eth.payload) = true :=
    stripsSnap_header rfl (.inl ⟨rfl, h.aarp, h.ipx⟩)
  have hlen : 8 ≤ (rfc1042Header ++ eth.payload).length := by
    rw [length_append]
    exact Nat.add_le_add_left h.header 6
  rw [subframeToEth, if_pos hstrip, if_pos hlen, drop_left' (show rfc1042Header.length = 6 from rfl)]
  rfl

end Subframe

/-! ### The loop -/

section Loop

variable {env : AmsduEnv} {eth : EthFrame}

/-- What the list gets from one subframe. -/
def AmsduEnv.convert (env : AmsduEnv) (eth : EthFrame) : List EthFrame :=
  if env.accepts eth.dest eth.source then [eth.plain] else []

/-- The last subframe. Nothing follows it, so it makes no difference whether it is cut off. -/
theorem amsduLoop_last (halloc : ∀ n, env.alloc n = true) (h : eth.Aggregatable) (fuel : ℕ)
    (list : List EthFrame) :
    amsduLoop env (fuel + 1) eth.subframe list = list ++ env.convert eth := by
  have hdest := subframe_dest eth []
  have hsource := subframe_source eth []
  have hlen := subframe_len eth []
  have hdrop := drop_subframe eth []
  rw [Nat.mod_eq_of_lt h.fits] at hlen
  rw [append_nil] at hdest hsource hlen hdrop
  rw [append_nil] at hdrop
  have htake : (rfc1042Header ++ eth.payload).take eth.subframeLen = rfc1042Header ++ eth.payload :=
    take_of_length_le eth.length_llc.le
  rw [amsduLoop]
  simp only [hdest, hsource, hlen, hdrop, htake, eth.length_subframe, subframeToEth_eq h, halloc,
    AmsduEnv.convert, Nat.lt_irrefl, if_false, Nat.le_add_right, decide_true, Bool.and_true,
    Bool.not_true, Bool.false_eq_true, if_true]
  cases env.accepts eth.dest eth.source <;> cases env.reuseSkb <;> simp

theorem amsduLoop_cons (halloc : ∀ n, env.alloc n = true) (h : eth.Aggregatable) (fuel : ℕ)
    {next : List UInt8} (hnext : next ≠ []) (list : List EthFrame) :
    amsduLoop env (fuel + 1) (Padded.fill 4 0 eth.subframe ++ next) list =
      amsduLoop env fuel next (list ++ env.convert eth) := by
  set padding := Padded.pad 4 eth.subframe.length with hpadding
  have hpad : (4 - (14 + eth.subframeLen) % 4) % 4 = padding := by
    rw [hpadding, eth.length_subframe, Padded.pad]
  have hskb : Padded.fill 4 0 eth.subframe ++ next =
      eth.subframe ++ (List.replicate padding 0 ++ next) := by
    rw [Padded.fill, append_assoc]
  have hlen := subframe_len eth (List.replicate padding 0 ++ next)
  rw [Nat.mod_eq_of_lt h.fits] at hlen
  have hnextlen : 0 < next.length := length_pos_iff.mpr hnext
  have hlength : (eth.subframe ++ (List.replicate padding 0 ++ next)).length =
      14 + eth.subframeLen + (padding + next.length) := by
    rw [length_append, length_append, length_replicate, eth.length_subframe]
  have hrest : (eth.subframe ++ (List.replicate padding 0 ++ next)).drop
      (14 + eth.subframeLen + padding) = next := by
    rw [← append_assoc]
    refine drop_left' ?_
    rw [length_append, length_replicate, eth.length_subframe]
  have htake : (rfc1042Header ++ eth.payload ++ (List.replicate padding 0 ++ next)).take
      eth.subframeLen = rfc1042Header ++ eth.payload := take_left' eth.length_llc
  have hlong : ¬14 + eth.subframeLen + (padding + next.length) < 14 + eth.subframeLen := by omega
  have hnotlast : ¬14 + eth.subframeLen + (padding + next.length) ≤ 14 + eth.subframeLen + padding := by
    omega
  rw [hskb, amsduLoop]
  simp only [subframe_dest, subframe_source, hlen, drop_subframe, htake, hlength, hpad, hrest,
    subframeToEth_eq h, halloc, AmsduEnv.convert, hlong, hnotlast, if_false, decide_false,
    Bool.and_false, Bool.not_true, Bool.false_eq_true]
  cases env.accepts eth.dest eth.source <;> simp

/-- **Subframes come back as the frames they were made of**, in order, but for those that are not
accepted. -/
theorem amsduLoop_join (halloc : ∀ n, env.alloc n = true) (eth : EthFrame) (eths : List EthFrame)
    (hall : ∀ e ∈ eth :: eths, e.Aggregatable) {fuel : ℕ} (hfuel : eths.length < fuel)
    (list : List EthFrame) :
    amsduLoop env fuel (Padded.join 4 0 ((eth :: eths).map EthFrame.subframe)) list =
      list ++ (eth :: eths).flatMap env.convert := by
  induction eths generalizing eth fuel list with
  | nil =>
    obtain ⟨fuel, rfl⟩ := Nat.exists_eq_succ_of_ne_zero (Nat.ne_zero_of_lt hfuel)
    rw [map_singleton, Padded.join_singleton,
      amsduLoop_last halloc (hall eth mem_cons_self) fuel list, flatMap_singleton]
  | cons eth' eths ih =>
    obtain ⟨fuel, rfl⟩ := Nat.exists_eq_succ_of_ne_zero (Nat.ne_zero_of_lt hfuel)
    have hnext : Padded.join 4 0 ((eth' :: eths).map EthFrame.subframe) ≠ [] := by
      have hle := Padded.length_le_join 4 0 eth'.subframe (eths.map EthFrame.subframe)
      rw [eth'.length_subframe] at hle
      intro hnil
      rw [map_cons] at hnil
      rw [hnil, length_nil] at hle
      omega
    rw [map_cons, map_cons, Padded.join_cons_cons, ← map_cons,
      amsduLoop_cons halloc (hall eth mem_cons_self) fuel hnext list,
      ih eth' (fun e he => hall e (mem_cons_of_mem _ he)) (by simpa using hfuel),
      append_assoc]
    rfl

/-- **Taking an A-MSDU apart.** -/
theorem amsduTo8023s_join (halloc : ∀ n, env.alloc n = true) {eths : List EthFrame} (hne : eths ≠ [])
    (hall : ∀ e ∈ eths, e.Aggregatable) :
    amsduTo8023s env (Padded.join 4 0 (eths.map EthFrame.subframe)) = eths.flatMap env.convert := by
  obtain ⟨eth, eths, rfl⟩ := exists_cons_of_ne_nil hne
  rw [amsduTo8023s, amsduLoop_join halloc eth eths hall, nil_append]
  -- there are no more subframes than bytes
  refine Nat.lt_succ_of_le ?_
  have hlen : ∀ (e : EthFrame) (es : List EthFrame),
      es.length ≤ (Padded.join 4 0 ((e :: es).map EthFrame.subframe)).length := by
    intro e es
    induction es generalizing e with
    | nil => exact Nat.zero_le _
    | cons e' es ih =>
      rw [map_cons, map_cons, Padded.join_cons_cons, length_append, Padded.length_fill,
        e.length_subframe, ← map_cons, length_cons]
      have := ih e'
      omega
  exact hlen eth eths

end Loop

end Mac80211
