import Mac80211.Lib.Reach
import Mac80211.Wpa.TkipMixing

/-!
# The phase-1 key that is kept on receive

`ieee80211_tkip_decrypt_data` computes a new phase-1 key if the upper part of the packet number is
not that of the last frame that was accepted. The key it has may be that of a frame that was
rejected since. A frame that the hardware has decrypted marks the context as used without computing
anything.

## Main results

* `ownKey_iff` — when a frame gets the key of its sender
-/

namespace Mac80211

open Machine List Function

/-! ### One frame -/

/-- `struct tkip_ctx_rx`. -/
structure TkipCtxRx where
  ctx : TkipCtx := {}
  iv32 : UInt32 := 0
  iv16 : UInt16 := 0

/-- `arc4_setkey` and `arc4_crypt`, and `crc32_le`. -/
structure Rc4 where
  crypt : List UInt8 → List UInt8 → List UInt8
  crc32Le : UInt32 → List UInt8 → UInt32

/-- `ieee80211_wep_decrypt_data`, of the data with its ICV: nothing if that does not match. -/
def wepDecryptData (w : Rc4) (rc4key data : List UInt8) : Option (List UInt8) :=
  let plain := w.crypt rc4key data
  let crc := le32 (~~~w.crc32Le 0xffffffff (plain.take (data.length - 4)))
  if crc = (plain.drop (data.length - 4)).take 4 then some plain else none

def TKIP_DECRYPT_OK : ℤ := 0
def TKIP_DECRYPT_NO_EXT_IV : ℤ := -1
def TKIP_DECRYPT_INVALID_KEYIDX : ℤ := -2
def TKIP_DECRYPT_REPLAY : ℤ := -3

/-- `struct ieee80211_key`, the part that does not change. -/
structure TkipKey where
  tk : TemporalKey
  keyidx : ℕ

/-- What a call leaves. -/
structure TkipDecrypted where
  res : ℤ
  rx : TkipCtxRx
  /-- The key that RC4 was called with. -/
  rc4key : Option (List UInt8) := none
  /-- `drv_update_tkip_key`. -/
  told : Option (UInt32 × P1k) := none
  /-- The payload behind the IV, if it was decrypted. -/
  plain : Option (List UInt8) := none

/-- The packet number is not new. -/
def TkipCtxRx.isReplay (rx : TkipCtxRx) (iv32 : UInt32) (iv16 : UInt16) : Prop :=
  iv32 < rx.iv32 ∨ iv32 = rx.iv32 ∧ (iv16 < rx.iv16 ∨ iv16 = rx.iv16 ∧
    (rx.iv32 ≠ 0 ∨ rx.iv16 ≠ 0 ∨ rx.ctx.state ≠ .notInit))
deriving Decidable

/-- Phase 1 is done for a frame with this upper part. -/
def TkipCtxRx.mixes (rx : TkipCtxRx) (iv32 : UInt32) : Prop := rx.ctx.state = .notInit ∨ rx.iv32 ≠ iv32
deriving Decidable

/-- `ieee80211_tkip_decrypt_data`. `hwUpdates` says that the key is uploaded and the driver has
`update_tkip_key`. -/
def tkipDecryptData (w : Rc4) (key : TkipKey) (rx : TkipCtxRx) (payload : List UInt8) (ta : Mac)
    (onlyIv hwUpdates : Bool) : TkipDecrypted :=
  if payload.length < 12 then {
    res := -1
    rx := rx }
  else
    let (iv16, iv32) := ivOfHeader payload
    let keyid := payload.getD 3 0
    if keyid &&& 0x20 = 0 then {
      res := TKIP_DECRYPT_NO_EXT_IV
      rx := rx }
    else if (keyid >>> 6).toNat ≠ key.keyidx then {
      res := TKIP_DECRYPT_INVALID_KEYIDX
      rx := rx }
    else if rx.isReplay iv32 iv16 then {
      res := TKIP_DECRYPT_REPLAY
      rx := rx }
    else if onlyIv then {
      res := TKIP_DECRYPT_OK
      rx := { rx with ctx := { rx.ctx with state := .phase1HwUploaded } } }
    else
      -- IV16 wrapped around - perform TKIP phase 1
      let ctx := if rx.mixes iv32 then tkipMixingPhase1 key.tk ta iv32 else rx.ctx
      let told := if hwUpdates && ctx.state ≠ .phase1HwUploaded then some (iv32, ctx.p1k) else none
      let rc4key := tkipMixingPhase2 key.tk ctx.p1k iv16
      let plain := wepDecryptData w rc4key (payload.drop 8)
      { res := if plain.isSome then TKIP_DECRYPT_OK else -1
        rx := { rx with ctx := if told.isSome then { ctx with state := .phase1HwUploaded } else ctx }
        rc4key := some rc4key
        told := told
        plain := plain }

/-! ### The handlers -/

/-- What `ieee80211_rx_h_michael_mic_verify` looks at, when the frame is complete. -/
structure MicView where
  dataPresent : Bool := true
  /-- `RX_FLAG_MMIC_STRIPPED`. -/
  mmicStripped : Bool := false
  /-- `RX_FLAG_IV_STRIPPED`. -/
  ivStripped : Bool := false
  /-- `RX_FLAG_MMIC_ERROR`. -/
  mmicError : Bool := false
  /-- The interface is an AP. -/
  ap : Bool := false
  /-- There is room for a MIC, and `skb_linearize` works. -/
  readable : Bool := true
  /-- The MIC is the one that is computed. -/
  micOk : Bool

/-- `ieee80211_rx_h_michael_mic_verify`, for a frame that was decrypted: whether it stores the packet
number. -/
def michaelMicVerify (key : TkipKey) (m : MicView) : Bool :=
  if !m.dataPresent then false
  else if m.mmicStripped || m.ivStripped then !m.mmicError && !m.ivStripped
  else if m.ap && key.keyidx ≠ 0 then false
  else if m.mmicError then false
  else if !m.readable then false
  else m.micOk

/-- A frame for `ieee80211_crypto_tkip_decrypt`, with what the handlers behind it will find. -/
structure TkipFrame where
  isData : Bool := true
  /-- `rx->sta->sta.addr`. -/
  sta : Option Mac
  /-- `rx->security_idx`. -/
  queue : Fin 16
  /-- The bytes from `hdrlen` on. -/
  payload : List UInt8
  /-- `skb_linearize` works. -/
  linear : Bool := true
  /-- `RX_FLAG_DECRYPTED`. -/
  decrypted : Bool := false
  hwUpdates : Bool := false
  /-- Nothing, if the frame is held or dropped before the MIC is checked. -/
  mic : Option MicView

/-- What happens to a key on receive. -/
inductive TkipRxEvent
  | frame (f : TkipFrame)
  /-- `ieee80211_set_key_rx_seq`. -/
  | setKeyRxSeq (tid : Fin 16) (iv32 : UInt32) (iv16 : UInt16)

/-- A frame that reached RC4. -/
structure TkipUse where
  queue : Fin 16
  before : TkipCtxRx
  ta : Mac
  iv32 : UInt32
  iv16 : UInt16
  rc4key : List UInt8
  accepted : Bool

/-- The `rx` contexts of a key. -/
abbrev TkipRx := Fin 16 → TkipCtxRx

/-- `ieee80211_key_alloc`, with the sequence number that it is given. -/
def tkipRxInit (iv32 : UInt32) (iv16 : UInt16) : TkipRx := fun _ => {
  iv32 := iv32
  iv16 := iv16 }

/-- A frame goes through the handlers. -/
def tkipReceive (w : Rc4) (key : TkipKey) (s : TkipRx) (f : TkipFrame) : TkipRx × List TkipUse :=
  match f.sta with
  | none => (s, [])
  | some ta =>
    if !f.isData || f.payload.length < 12 || !f.linear then (s, [])
    else
      let d := tkipDecryptData w key (s f.queue) f.payload ta f.decrypted f.hwUpdates
      let (iv16, iv32) := ivOfHeader f.payload
      let accepted := d.res = TKIP_DECRYPT_OK && (f.mic.map (michaelMicVerify key)).getD false
      let rx := if accepted then { d.rx with
        iv32 := iv32
        iv16 := iv16 } else d.rx
      (Function.update s f.queue rx, d.rc4key.toList.map fun rc4key => {
        queue := f.queue
        before := s f.queue
        ta := ta
        iv32 := iv32
        iv16 := iv16
        rc4key := rc4key
        accepted := accepted })

def tkipRxStep (w : Rc4) (key : TkipKey) (s : TkipRx) : TkipRxEvent → Option (TkipRx × List TkipUse)
  | .frame f => some (tkipReceive w key s f)
  | .setKeyRxSeq tid iv32 iv16 => some (Function.update s tid { s tid with
      iv32 := iv32
      iv16 := iv16 }, [])

/-! ### What is kept -/

/-- The frame of the queue that phase 1 was done for last: its transmitter and the upper part. -/
def lastMixed (os : List TkipUse) (q : Fin 16) : Option (Mac × UInt32) :=
  (os.filter fun u => u.queue = q ∧ u.before.mixes u.iv32).getLast?.map fun u => (u.ta, u.iv32)

/-- The phase-1 key of that frame; a new key has zeros there. -/
def keptKey (key : TkipKey) : Option (Mac × UInt32) → P1k
  | none => P1k.zero
  | some (ta, iv32) => phase1Key key.tk ta iv32

/-- The phase-1 key that a frame is decrypted with. -/
def usedKey (key : TkipKey) (rx : TkipCtxRx) (ta : Mac) (iv32 : UInt32) : P1k :=
  if rx.mixes iv32 then phase1Key key.tk ta iv32 else rx.ctx.p1k

/-- **RC4 gets the key of the frame**: that of its transmitter and its packet number, which is the
one the sender used. -/
def OwnKey (key : TkipKey) (u : TkipUse) : Prop :=
  u.rc4key = tkipMixingPhase2 key.tk (phase1Key key.tk u.ta u.iv32) u.iv16 ∧
  ∀ (ops : List TkipTxOp) (pn : UInt64) (data : List UInt8), TKIP_PN_TO_IV32 pn = u.iv32 →
    TKIP_PN_TO_IV16 pn = u.iv16 →
      (getTkipP2k key.tk u.ta (tkipAddIv key.keyidx pn ++ data) (txRun key.tk u.ta ops)).2 = u.rc4key

/-- Phase 1 is done for the frame, or was done last for one with the same transmitter and upper
part; else the zeros of a new key would have to be right. -/
def FreshP1k (key : TkipKey) (before : List TkipUse) (u : TkipUse) : Prop :=
  u.before.mixes u.iv32 ∨ lastMixed before u.queue = some (u.ta, u.iv32) ∨
    lastMixed before u.queue = none ∧ phase1Key key.tk u.ta u.iv32 = P1k.zero
deriving Decidable

section Kept

variable {w : Rc4} {key : TkipKey} {s s' : TkipRx} {os o : List TkipUse}

theorem lastMixed_concat (os : List TkipUse) (u : TkipUse) (q : Fin 16) : lastMixed (os ++ [u]) q =
      if u.queue = q ∧ u.before.mixes u.iv32 then some (u.ta, u.iv32) else lastMixed os q := by
  rw [lastMixed, filter_append]
  split
  · rename_i h
    rw [filter_cons_of_pos (by simpa using h), filter_nil, getLast?_concat]
    rfl
  · rename_i h
    rw [filter_cons_of_neg (by simpa using h), filter_nil, append_nil]
    rfl

/-- **A call**: without RC4, the phase-1 key stays as it is. With it, the key that is used is kept. -/
theorem tkipDecryptData_cases (w : Rc4) (key : TkipKey) (rx : TkipCtxRx) (payload : List UInt8) (ta : Mac)
    (onlyIv hwUpdates : Bool) :
    ((tkipDecryptData w key rx payload ta onlyIv hwUpdates).rc4key = none ∧
      (tkipDecryptData w key rx payload ta onlyIv hwUpdates).rx.ctx.p1k = rx.ctx.p1k ∧
      (onlyIv = false → (tkipDecryptData w key rx payload ta onlyIv hwUpdates).rx = rx ∧
        (tkipDecryptData w key rx payload ta onlyIv hwUpdates).res ≠ TKIP_DECRYPT_OK)) ∨
    ((tkipDecryptData w key rx payload ta onlyIv hwUpdates).rc4key =
        some (tkipMixingPhase2 key.tk (usedKey key rx ta (ivOfHeader payload).2) (ivOfHeader payload).1) ∧
      (tkipDecryptData w key rx payload ta onlyIv hwUpdates).rx.ctx.p1k =
        usedKey key rx ta (ivOfHeader payload).2 ∧
      (tkipDecryptData w key rx payload ta onlyIv hwUpdates).rx.ctx.state ≠ .notInit ∧
      (tkipDecryptData w key rx payload ta onlyIv hwUpdates).rx.iv32 = rx.iv32) := by
  rw [tkipDecryptData]
  split
  · exact .inl ⟨rfl, rfl, fun _ => ⟨rfl, show (-1 : ℤ) ≠ 0 by decide⟩⟩
  dsimp only
  split
  · exact .inl ⟨rfl, rfl, fun _ => ⟨rfl, show (-1 : ℤ) ≠ 0 by decide⟩⟩
  split
  · exact .inl ⟨rfl, rfl, fun _ => ⟨rfl, show (-2 : ℤ) ≠ 0 by decide⟩⟩
  split
  · exact .inl ⟨rfl, rfl, fun _ => ⟨rfl, show (-3 : ℤ) ≠ 0 by decide⟩⟩
  split
  · rename_i honly
    exact .inl ⟨rfl, rfl, fun hno => absurd (hno.symm.trans honly) (by decide)⟩
  · right
    have hp1k : (if rx.mixes (ivOfHeader payload).2 then tkipMixingPhase1 key.tk ta (ivOfHeader payload).2
        else rx.ctx).p1k = usedKey key rx ta (ivOfHeader payload).2 := by
      rw [usedKey, apply_ite TkipCtx.p1k]
      rfl
    have hstate : (if rx.mixes (ivOfHeader payload).2 then tkipMixingPhase1 key.tk ta (ivOfHeader payload).2
        else rx.ctx).state ≠ .notInit := by
      split
      · exact fun h => nomatch h
      · rename_i hno
        exact fun h => hno (.inl h)
    generalize (if rx.mixes (ivOfHeader payload).2 then tkipMixingPhase1 key.tk ta (ivOfHeader payload).2
      else rx.ctx) = ctx at hp1k hstate ⊢
    rw [← hp1k]
    refine ⟨rfl, ?_, ?_, rfl⟩
    · dsimp only
      split
      · rfl
      · rfl
    · dsimp only
      split
      · exact fun h => nomatch h
      · exact hstate

/-- **A frame**: without RC4, the phase-1 keys stay as they are. With it, the one that is used is kept. -/
theorem tkipReceive_cases (w : Rc4) (key : TkipKey) (s : TkipRx) (f : TkipFrame) :
    ((tkipReceive w key s f).2 = [] ∧ (∀ q, ((tkipReceive w key s f).1 q).ctx.p1k = (s q).ctx.p1k) ∧
      (f.decrypted = false → (tkipReceive w key s f).1 = s)) ∨
    ∃ u rx, tkipReceive w key s f = (Function.update s u.queue rx, [u]) ∧ u.before = s u.queue ∧
      u.rc4key = tkipMixingPhase2 key.tk (usedKey key (s u.queue) u.ta u.iv32) u.iv16 ∧
      rx.ctx.p1k = usedKey key (s u.queue) u.ta u.iv32 ∧ rx.ctx.state ≠ .notInit ∧
      rx.iv32 = if u.accepted then u.iv32 else (s u.queue).iv32 := by
  rw [tkipReceive]
  split
  · exact .inl ⟨rfl, fun _ => rfl, fun _ => rfl⟩
  rename_i ta _
  split
  · exact .inl ⟨rfl, fun _ => rfl, fun _ => rfl⟩
  have hcases := tkipDecryptData_cases w key (s f.queue) f.payload ta f.decrypted f.hwUpdates
  generalize tkipDecryptData w key (s f.queue) f.payload ta f.decrypted f.hwUpdates = d at hcases ⊢
  dsimp only
  generalize hacc : (decide (d.res = TKIP_DECRYPT_OK) && (f.mic.map (michaelMicVerify key)).getD false) =
    accepted
  obtain ⟨hkey, hp1k, hsame⟩ | ⟨hkey, hp1k, hstate, hiv⟩ := hcases
  · refine .inl ⟨by rw [hkey]; rfl, ?_, ?_⟩
    · intro q
      by_cases hq : q = f.queue
      · subst hq
        rw [update_self, apply_ite TkipCtxRx.ctx, ite_self, hp1k]
      · rw [update_of_ne hq]
    · intro honly
      obtain ⟨hrx, hres⟩ := hsame honly
      have hno : accepted = false := by
        rw [← hacc, decide_eq_false hres, Bool.false_and]
      rw [hno, if_neg Bool.false_ne_true, hrx, update_eq_self]
  · refine .inr ⟨{
      queue := f.queue
      before := s f.queue
      ta := ta
      iv32 := (ivOfHeader f.payload).2
      iv16 := (ivOfHeader f.payload).1
      rc4key := tkipMixingPhase2 key.tk (usedKey key (s f.queue) ta (ivOfHeader f.payload).2)
        (ivOfHeader f.payload).1
      accepted := accepted }, if accepted then { d.rx with
        iv32 := (ivOfHeader f.payload).2
        iv16 := (ivOfHeader f.payload).1 } else d.rx, ?_, rfl, rfl, ?_, ?_, ?_⟩
    · rw [hkey]
      rfl
    · rw [apply_ite TkipCtxRx.ctx, ite_self, hp1k]
    · rw [apply_ite TkipCtxRx.ctx, ite_self]
      exact hstate
    · rw [apply_ite TkipCtxRx.iv32, hiv]

/-- What holds of the contexts, and of the keys that were used before. -/
structure TkipRxInv (key : TkipKey) (s : TkipRx) (os : List TkipUse) : Prop where
  kept : ∀ q, (s q).ctx.p1k = keptKey key (lastMixed os q)
  used : ∀ pre u, pre ++ [u] <+: os → u.rc4key = tkipMixingPhase2 key.tk
    (if u.before.mixes u.iv32 then phase1Key key.tk u.ta u.iv32
      else keptKey key (lastMixed pre u.queue)) u.iv16

theorem TkipRxInv.init (key : TkipKey) (iv32 : UInt32) (iv16 : UInt16) :
    TkipRxInv key (tkipRxInit iv32 iv16) [] where
  kept := fun _ => rfl
  used := fun pre _ h => absurd (prefix_nil.mp h) (by simp)

theorem TkipRxInv.keep (hi : TkipRxInv key s os) (h : ∀ q, (s' q).ctx.p1k = (s q).ctx.p1k) :
    TkipRxInv key s' (os ++ []) := by
  rw [append_nil]
  exact {
    kept := fun q => (h q).trans (hi.kept q)
    used := hi.used }

theorem TkipRxInv.use (hi : TkipRxInv key s os) {u : TkipUse} {rx : TkipCtxRx}
    (hbefore : u.before = s u.queue)
    (hrc4 : u.rc4key = tkipMixingPhase2 key.tk (usedKey key (s u.queue) u.ta u.iv32) u.iv16)
    (hp1k : rx.ctx.p1k = usedKey key (s u.queue) u.ta u.iv32) :
    TkipRxInv key (Function.update s u.queue rx) (os ++ [u]) := by
  have hused : usedKey key (s u.queue) u.ta u.iv32 =
      if u.before.mixes u.iv32 then phase1Key key.tk u.ta u.iv32
        else keptKey key (lastMixed os u.queue) := by
    rw [usedKey, ← hbefore, ← hi.kept, ← hbefore]
  constructor
  · intro q
    rw [lastMixed_concat]
    by_cases hq : q = u.queue
    · subst hq
      rw [update_self, hp1k, hused]
      split
      · rename_i hmix
        rw [if_pos ⟨rfl, hmix⟩]
        rfl
      · rename_i hmix
        rw [if_neg fun h => hmix h.2]
    · rw [update_of_ne hq, if_neg fun h => hq h.1.symm]
      exact hi.kept q
  · intro pre v hv
    obtain heq | hpre := prefix_concat_iff.mp hv
    · obtain ⟨rfl, hsingle⟩ := append_inj' heq rfl
      obtain rfl := singleton_inj.mp hsingle
      rw [hrc4, hused]
    · exact hi.used pre v hpre

theorem TkipRxInv.step (hi : TkipRxInv key s os) {e : TkipRxEvent}
    (hs : tkipRxStep w key s e = some (s', o)) : TkipRxInv key s' (os ++ o) := by
  cases e with
  | frame f =>
    have hcases := tkipReceive_cases w key s f
    rw [Option.some.inj hs] at hcases
    obtain ⟨rfl, hsame, -⟩ | ⟨u, rx, heq, hbefore, hrc4, hp1k, -, -⟩ := hcases
    · exact hi.keep hsame
    · cases heq
      exact hi.use hbefore hrc4 hp1k
  | setKeyRxSeq tid iv32 iv16 =>
    cases hs
    refine hi.keep fun q => ?_
    by_cases hq : q = tid
    · subst hq
      rw [update_self]
    · rw [update_of_ne hq]

/-- **The key that RC4 gets**, in every run. -/
theorem tkipRxInv_of_reach {C : TkipRx → List TkipUse → TkipRxEvent → Prop} {iv32 : UInt32} {iv16 : UInt16}
    (hr : Reach (tkipRxStep w key) C (tkipRxInit iv32 iv16) s os) : TkipRxInv key s os := by
  refine hr.invariant (fun s os => TkipRxInv key s os) (TkipRxInv.init key iv32 iv16) ?_
  intro s os e s' o hi _ hs
  exact hi.step hs

theorem ownKey_iff_rc4key {u : TkipUse} :
    OwnKey key u ↔ u.rc4key = tkipMixingPhase2 key.tk (phase1Key key.tk u.ta u.iv32) u.iv16 := by
  refine ⟨fun h => h.1, fun h => ⟨h, ?_⟩⟩
  intro ops pn data h32 h16
  rw [getTkipP2k_txRun, h32, h16, h]

/-- The zeros are not the right key of a frame but by chance; another one never is. -/
theorem keptKey_eq_iff {last : Option (Mac × UInt32)} {ta : Mac} {iv32 : UInt32} :
    keptKey key last = phase1Key key.tk ta iv32 ↔
      last = some (ta, iv32) ∨ last = none ∧ phase1Key key.tk ta iv32 = P1k.zero := by
  cases last with
  | none =>
    rw [keptKey, eq_comm]
    simp
  | some last =>
    constructor
    · intro h
      obtain ⟨hta, hiv⟩ := phase1Key_injective h
      exact .inl (congrArg some (Prod.ext hta hiv))
    · rintro (h | h)
      · cases h
        rfl
      · exact nomatch h.1

/-- **RC4 gets the key of the frame** exactly if phase 1 is done for it, or was done last for one
with the same transmitter and upper part. -/
theorem ownKey_iff {iv32 : UInt32} {iv16 : UInt16}
    (hr : Reach (tkipRxStep w key) (fun _ _ _ => True) (tkipRxInit iv32 iv16) s os) {pre : List TkipUse}
    {u : TkipUse} (hu : pre ++ [u] <+: os) : OwnKey key u ↔ FreshP1k key pre u := by
  rw [ownKey_iff_rc4key, (tkipRxInv_of_reach hr).used pre u hu, FreshP1k]
  by_cases hmix : u.before.mixes u.iv32
  · rw [if_pos hmix]
    exact iff_of_true rfl (.inl hmix)
  · rw [if_neg hmix]
    constructor
    · intro h
      exact .inr (keptKey_eq_iff.mp (tkipMixingPhase2_injective h))
    · intro h
      rw [keptKey_eq_iff.mpr (h.resolve_left hmix)]

end Kept

/-- A frame of an AP with this packet number. -/
def tkipFrame (iv16 : UInt16) (iv32 : UInt32) (good : Bool) : TkipFrame where
  sta := some (localMac 1)
  queue := 0
  payload := writeTkipIv iv16 ++ [0x20] ++ le32 iv32 ++ [0xaa, 0xaa, 3, 0, 0, 0, 8, 0, 0, 0, 0, 0]
  mic := some { micOk := good }

/-- A cipher that changes nothing, with a CRC that fits. -/
def plainRc4 : Rc4 where
  crypt := fun _ data => data
  crc32Le := fun _ _ => 0xffffffff

def tkipTestKey : TkipKey where
  tk := #v[0, 1, 2, 3, 4, 5, 6, 7, 8, 9, 10, 11, 12, 13, 14, 15]
  keyidx := 0

/-- Two good frames. -/
theorem ownKey_iff_two : ∃ s u₁ u₂,
    Reach (tkipRxStep plainRc4 tkipTestKey) (fun _ _ _ => True) (tkipRxInit 0 0) s [u₁, u₂] ∧
    u₁.accepted ∧ u₂.accepted ∧ (OwnKey tkipTestKey u₂ ↔ FreshP1k tkipTestKey [u₁] u₂) := by
  have hrun : (run (tkipRxStep plainRc4 tkipTestKey) (tkipRxInit 0 0)
      [.frame (tkipFrame 1 0 true), .frame (tkipFrame 2 0 true)]).map (fun r => r.2.map TkipUse.accepted) =
      some [true, true] := by
    decide +kernel
  obtain ⟨⟨s, os⟩, hr, hos⟩ := Option.map_eq_some_iff.mp hrun
  obtain ⟨u₁, rest, rfl, h₁, hrest⟩ := map_eq_cons_iff.mp hos
  obtain ⟨u₂, rest, rfl, h₂, hrest⟩ := map_eq_cons_iff.mp hrest
  obtain rfl := map_eq_nil_iff.mp hrest
  have hreach := Reach.of_run_init hr
  exact ⟨s, u₁, u₂, hreach, h₁, h₂, ownKey_iff hreach prefix_rfl⟩

/-- **A forged frame spoils the next ones.** It is rejected, but phase 1 was done for it; the next
frame is good, with the upper part of the last accepted one. -/
theorem forged_frame_spoils_key : ∃ s u₁ u₂,
    Reach (tkipRxStep plainRc4 tkipTestKey) (fun _ _ _ => True) (tkipRxInit 0 0) s [u₁, u₂] ∧
    u₁.accepted = false ∧ (u₂.iv16, u₂.iv32) = (1, 0) ∧ ¬OwnKey tkipTestKey u₂ := by
  have hrun : (run (tkipRxStep plainRc4 tkipTestKey) (tkipRxInit 0 0)
      [.frame (tkipFrame 0 5 false), .frame (tkipFrame 1 0 true)]).map (fun r => r.2.map fun u =>
        (u.accepted, u.iv16, u.iv32, decide (u.rc4key = tkipMixingPhase2 tkipTestKey.tk
          (phase1Key tkipTestKey.tk u.ta u.iv32) u.iv16))) =
      some [(false, 0, 5, true), (true, 1, 0, false)] := by
    decide +kernel
  obtain ⟨⟨s, os⟩, hr, hos⟩ := Option.map_eq_some_iff.mp hrun
  obtain ⟨u₁, rest, rfl, h₁, hrest⟩ := map_eq_cons_iff.mp hos
  obtain ⟨u₂, rest, rfl, h₂, hrest⟩ := map_eq_cons_iff.mp hrest
  obtain rfl := map_eq_nil_iff.mp hrest
  simp only [Prod.mk.injEq] at h₁ h₂
  refine ⟨s, u₁, u₂, Reach.of_run_init hr, h₁.1, Prod.ext h₂.2.1 h₂.2.2.1, ?_⟩
  rw [ownKey_iff_rc4key]
  exact of_decide_eq_false h₂.2.2.2

end Mac80211
