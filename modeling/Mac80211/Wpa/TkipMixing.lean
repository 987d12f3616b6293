import Mac80211.Lib.Mixing
import Mac80211.Wpa.SpecialBlocks

/-!
# The TKIP key mixing

`tkip.c`: the first phase mixes in the address of the transmitter and the upper 32 bits of the
packet number, the second the lower 16 bits.

## Main results

* `phase1Key_injective`, `tkipMixingPhase2_injective` — neither phase loses anything
-/

namespace Mac80211

/-! ### Tables and words -/

/-- The first half of the S-box; the second half is the same with the bytes swapped. -/
def tkipSbox : List UInt16 := [
    0xC6A5, 0xF884, 0xEE99, 0xF68D, 0xFF0D, 0xD6BD, 0xDEB1, 0x9154, 0x6050, 0x0203, 0xCEA9, 0x567D,
    0xE719, 0xB562, 0x4DE6, 0xEC9A, 0x8F45, 0x1F9D, 0x8940, 0xFA87, 0xEF15, 0xB2EB, 0x8EC9, 0xFB0B,
    0x41EC, 0xB367, 0x5FFD, 0x45EA, 0x23BF, 0x53F7, 0xE496, 0x9B5B, 0x75C2, 0xE11C, 0x3DAE, 0x4C6A,
    0x6C5A, 0x7E41, 0xF502, 0x834F, 0x685C, 0x51F4, 0xD134, 0xF908, 0xE293, 0xAB73, 0x6253, 0x2A3F,
    0x080C, 0x9552, 0x4665, 0x9D5E, 0x3028, 0x37A1, 0x0A0F, 0x2FB5, 0x0E09, 0x2436, 0x1B9B, 0xDF3D,
    0xCD26, 0x4E69, 0x7FCD, 0xEA9F, 0x121B, 0x1D9E, 0x5874, 0x342E, 0x362D, 0xDCB2, 0xB4EE, 0x5BFB,
    0xA4F6, 0x764D, 0xB761, 0x7DCE, 0x527B, 0xDD3E, 0x5E71, 0x1397, 0xA6F5, 0xB968, 0x0000, 0xC12C,
    0x4060, 0xE31F, 0x79C8, 0xB6ED, 0xD4BE, 0x8D46, 0x67D9, 0x724B, 0x94DE, 0x98D4, 0xB0E8, 0x854A,
    0xBB6B, 0xC52A, 0x4FE5, 0xED16, 0x86C5, 0x9AD7, 0x6655, 0x1194, 0x8ACF, 0xE910, 0x0406, 0xFE81,
    0xA0F0, 0x7844, 0x25BA, 0x4BE3, 0xA2F3, 0x5DFE, 0x80C0, 0x058A, 0x3FAD, 0x21BC, 0x7048, 0xF104,
    0x63DF, 0x77C1, 0xAF75, 0x4263, 0x2030, 0xE51A, 0xFD0E, 0xBF6D, 0x814C, 0x1814, 0x2635, 0xC32F,
    0xBEE1, 0x35A2, 0x88CC, 0x2E39, 0x9357, 0x55F2, 0xFC82, 0x7A47, 0xC8AC, 0xBAE7, 0x322B, 0xE695,
    0xC0A0, 0x1998, 0x9ED1, 0xA37F, 0x4466, 0x547E, 0x3BAB, 0x0B83, 0x8CCA, 0xC729, 0x6BD3, 0x283C,
    0xA779, 0xBCE2, 0x161D, 0xAD76, 0xDB3B, 0x6456, 0x744E, 0x141E, 0x92DB, 0x0C0A, 0x486C, 0xB8E4,
    0x9F5D, 0xBD6E, 0x43EF, 0xC4A6, 0x39A8, 0x31A4, 0xD337, 0xF28B, 0xD532, 0x8B43, 0x6E59, 0xDAB7,
    0x018C, 0xB164, 0x9CD2, 0x49E0, 0xD8B4, 0xACFA, 0xF307, 0xCF25, 0xCAAF, 0xF48E, 0x47E9, 0x1018,
    0x6FD5, 0xF088, 0x4A6F, 0x5C72, 0x3824, 0x57F1, 0x73C7, 0x9751, 0xCB23, 0xA17C, 0xE89C, 0x3E21,
    0x96DD, 0x61DC, 0x0D86, 0x0F85, 0xE090, 0x7C42, 0x71C4, 0xCCAA, 0x90D8, 0x0605, 0xF701, 0x1C12,
    0xC2A3, 0x6A5F, 0xAEF9, 0x69D0, 0x1791, 0x9958, 0x3A27, 0x27B9, 0xD938, 0xEB13, 0x2BB3, 0x2233,
    0xD2BB, 0xA970, 0x0789, 0x33A7, 0x2DB6, 0x3C22, 0x1592, 0xC920, 0x8749, 0xAAFF, 0x5078, 0xA57A,
    0x038F, 0x59F8, 0x0980, 0x1A17, 0x65DA, 0xD731, 0x84C6, 0xD0B8, 0x82C3, 0x29B0, 0x5A77, 0x1E11,
    0x7BCB, 0xA8FC, 0x6DD6, 0x2C3A]

/-- `swab16`. -/
def swab16 (x : UInt16) : UInt16 := x <<< 8 ||| x >>> 8

def tkipS (val : UInt16) : UInt16 :=
  tkipSbox.getD (val &&& 0xff).toNat 0 ^^^ swab16 (tkipSbox.getD (val >>> 8).toNat 0)

/-- `ror16(x, 1)`. -/
def ror16 (x : UInt16) : UInt16 := x >>> 1 ||| x <<< 15

/-- Two bytes, the lower one first. -/
def leWord (lo hi : UInt8) : UInt16 := UInt16.ofNat (lo.toNat + 256 * hi.toNat)

theorem le16_leWord (lo hi : UInt8) : le16 (leWord lo hi) = [lo, hi] := by
  have hlo := lo.toNat_lt
  have hhi := hi.toNat_lt
  have hword : (leWord lo hi).toNat = lo.toNat + 256 * hi.toNat := by
    rw [leWord, UInt16.toNat_ofNat']
    omega
  have hl : (leWord lo hi).toUInt8 = lo := by
    rw [← UInt8.toNat_inj, UInt16.toNat_toUInt8, hword]
    omega
  have hh : ((leWord lo hi) >>> 8).toUInt8 = hi := by
    rw [← UInt8.toNat_inj, UInt16.toNat_toUInt8, UInt16.toNat_shiftRight, hword]
    show (lo.toNat + 256 * hi.toNat) >>> 8 % 2 ^ 8 = hi.toNat
    rw [Nat.shiftRight_eq_div_pow]
    omega
  rw [le16, hl, hh]

theorem leWord_le16 (x : UInt16) : leWord x.toUInt8 (x >>> 8).toUInt8 = x := by
  have hx := x.toNat_lt
  rw [← UInt16.toNat_inj, leWord, UInt16.toNat_ofNat', UInt16.toNat_toUInt8, UInt16.toNat_toUInt8,
    UInt16.toNat_shiftRight]
  show (x.toNat % 2 ^ 8 + 256 * (x.toNat >>> 8 % 2 ^ 8)) % 2 ^ 16 = x.toNat
  rw [Nat.shiftRight_eq_div_pow]
  omega

/-- The 128-bit temporal key: `key->conf.key` at `NL80211_TKIP_DATA_OFFSET_ENCR_KEY`. -/
abbrev TemporalKey := Vector UInt8 16

/-- `get_unaligned_le16(tk + off)`; all offsets in this file are inside the key. -/
def TemporalKey.word (tk : TemporalKey) (off : ℕ) : UInt16 :=
  leWord (tk.toList.getD off 0) (tk.toList.getD (off + 1) 0)

/-! ### The two phases -/

/-- `p1k`: 80 bits. -/
abbrev P1k := Vector UInt16 5

def P1k.zero : P1k := #v[0, 0, 0, 0, 0]

/-- `enum ieee80211_internal_tkip_state`. -/
inductive TkipState
  | notInit
  | phase1Done
  | phase1HwUploaded
deriving DecidableEq

/-- `struct tkip_ctx`. -/
structure TkipCtx where
  p1k : P1k := P1k.zero
  p1kIv32 : UInt32 := 0
  state : TkipState := .notInit

/-- What phase 1 starts with. -/
def phase1Init (ta : Mac) (iv32 : UInt32) : P1k :=
  #v[iv32.toUInt16, (iv32 >>> 16).toUInt16, leWord ta[0]! ta[1]!, leWord ta[2]! ta[3]!,
    leWord ta[4]! ta[5]!]

/-- One of its rounds. -/
def phase1Round (tk : TemporalKey) (p1k : P1k) (i : ℕ) : P1k :=
  let j := 2 * (i % 2)
  let p1k := Mixing.addTo 0 (fun p => tkipS (p[4] ^^^ tk.word (0 + j))) p1k
  let p1k := Mixing.addTo 1 (fun p => tkipS (p[0] ^^^ tk.word (4 + j))) p1k
  let p1k := Mixing.addTo 2 (fun p => tkipS (p[1] ^^^ tk.word (8 + j))) p1k
  let p1k := Mixing.addTo 3 (fun p => tkipS (p[2] ^^^ tk.word (12 + j))) p1k
  Mixing.addTo 4 (fun p => tkipS (p[3] ^^^ tk.word (0 + j)) + UInt16.ofNat i) p1k

/-- `PHASE1_LOOP_COUNT`. -/
def PHASE1_LOOP_COUNT : ℕ := 8

/-- The phase-1 key. -/
def phase1Key (tk : TemporalKey) (ta : Mac) (iv32 : UInt32) : P1k :=
  (List.range PHASE1_LOOP_COUNT).foldl (phase1Round tk) (phase1Init ta iv32)

/-- `tkip_mixing_phase1`: all of the context is new. -/
def tkipMixingPhase1 (tk : TemporalKey) (ta : Mac) (iv32 : UInt32) : TkipCtx where
  p1k := phase1Key tk ta iv32
  p1kIv32 := iv32
  state := .phase1Done

/-- The six words of phase 2. -/
def phase2Words (tk : TemporalKey) (ppk : Vector UInt16 6) : Vector UInt16 6 :=
  let ppk := Mixing.addTo 0 (fun p => tkipS (p.get 5 ^^^ tk.word 0)) ppk
  let ppk := Mixing.addTo 1 (fun p => tkipS (p.get 0 ^^^ tk.word 2)) ppk
  let ppk := Mixing.addTo 2 (fun p => tkipS (p.get 1 ^^^ tk.word 4)) ppk
  let ppk := Mixing.addTo 3 (fun p => tkipS (p.get 2 ^^^ tk.word 6)) ppk
  let ppk := Mixing.addTo 4 (fun p => tkipS (p.get 3 ^^^ tk.word 8)) ppk
  let ppk := Mixing.addTo 5 (fun p => tkipS (p.get 4 ^^^ tk.word 10)) ppk
  let ppk := Mixing.addTo 0 (fun p => ror16 (p.get 5 ^^^ tk.word 12)) ppk
  let ppk := Mixing.addTo 1 (fun p => ror16 (p.get 0 ^^^ tk.word 14)) ppk
  let ppk := Mixing.addTo 2 (fun p => ror16 (p.get 1)) ppk
  let ppk := Mixing.addTo 3 (fun p => ror16 (p.get 2)) ppk
  let ppk := Mixing.addTo 4 (fun p => ror16 (p.get 3)) ppk
  Mixing.addTo 5 (fun p => ror16 (p.get 4)) ppk

/-- `write_tkip_iv`. -/
def writeTkipIv (iv16 : UInt16) : List UInt8 :=
  [(iv16 >>> 8).toUInt8, ((iv16 >>> 8).toUInt8 ||| 0x20) &&& 0x7f, iv16.toUInt8]

/-- `tkip_mixing_phase2`: the 16 bytes of the RC4 key. -/
def tkipMixingPhase2 (tk : TemporalKey) (p1k : P1k) (iv16 : UInt16) : List UInt8 :=
  let ppk := phase2Words tk #v[p1k[0], p1k[1], p1k[2], p1k[3], p1k[4], p1k[4] + iv16]
  writeTkipIv iv16 ++ [((ppk.get 5 ^^^ tk.word 0) >>> 1).toUInt8] ++ ppk.toList.flatMap le16

/-! ### Nothing is lost -/

section Injective

variable {tk : TemporalKey}

theorem mixStep_injective {n : ℕ} (i k : Fin n) (h : i ≠ k) (g : UInt16 → UInt16) :
    Function.Injective (Mixing.addTo i fun p => g (p.get k)) :=
  Mixing.addTo_get_injective h g

theorem phase1Round_injective (i : ℕ) : Function.Injective fun p1k => phase1Round tk p1k i := by
  have h0 := mixStep_injective (n := 5) 0 4 (by decide) fun x => tkipS (x ^^^ tk.word (0 + 2 * (i % 2)))
  have h1 := mixStep_injective (n := 5) 1 0 (by decide) fun x => tkipS (x ^^^ tk.word (4 + 2 * (i % 2)))
  have h2 := mixStep_injective (n := 5) 2 1 (by decide) fun x => tkipS (x ^^^ tk.word (8 + 2 * (i % 2)))
  have h3 := mixStep_injective (n := 5) 3 2 (by decide) fun x => tkipS (x ^^^ tk.word (12 + 2 * (i % 2)))
  have h4 := mixStep_injective (n := 5) 4 3 (by decide)
    fun x => tkipS (x ^^^ tk.word (0 + 2 * (i % 2))) + UInt16.ofNat i
  exact h4.comp (h3.comp (h2.comp (h1.comp h0)))

theorem phase2Words_injective : Function.Injective (phase2Words tk) := by
  have h0 := mixStep_injective (n := 6) 0 5 (by decide) fun x => tkipS (x ^^^ tk.word 0)
  have h1 := mixStep_injective (n := 6) 1 0 (by decide) fun x => tkipS (x ^^^ tk.word 2)
  have h2 := mixStep_injective (n := 6) 2 1 (by decide) fun x => tkipS (x ^^^ tk.word 4)
  have h3 := mixStep_injective (n := 6) 3 2 (by decide) fun x => tkipS (x ^^^ tk.word 6)
  have h4 := mixStep_injective (n := 6) 4 3 (by decide) fun x => tkipS (x ^^^ tk.word 8)
  have h5 := mixStep_injective (n := 6) 5 4 (by decide) fun x => tkipS (x ^^^ tk.word 10)
  have r0 := mixStep_injective (n := 6) 0 5 (by decide) fun x => ror16 (x ^^^ tk.word 12)
  have r1 := mixStep_injective (n := 6) 1 0 (by decide) fun x => ror16 (x ^^^ tk.word 14)
  have r2 := mixStep_injective (n := 6) 2 1 (by decide) ror16
  have r3 := mixStep_injective (n := 6) 3 2 (by decide) ror16
  have r4 := mixStep_injective (n := 6) 4 3 (by decide) ror16
  have r5 := mixStep_injective (n := 6) 5 4 (by decide) ror16
  exact r5.comp (r4.comp (r3.comp (r2.comp (r1.comp (r0.comp
    (h5.comp (h4.comp (h3.comp (h2.comp (h1.comp h0))))))))))

theorem leWord_injective {lo hi lo' hi' : UInt8} (h : leWord lo hi = leWord lo' hi') :
    lo = lo' ∧ hi = hi' := by
  have hbytes := congrArg le16 h
  rw [le16_leWord, le16_leWord] at hbytes
  simpa using hbytes

theorem le16_injective : Function.Injective le16 := by
  intro x y h
  obtain ⟨hlo, hhi, -⟩ := List.cons.inj h |>.imp_right List.cons.inj
  rw [← leWord_le16 x, ← leWord_le16 y, hlo, hhi]

theorem flatMap_le16_injective {xs ys : List UInt16} (h : xs.flatMap le16 = ys.flatMap le16) : xs = ys := by
  induction xs generalizing ys with
  | nil =>
    cases ys with
    | nil => rfl
    | cons y ys => exact nomatch h
  | cons x xs ih =>
    cases ys with
    | nil => exact nomatch h
    | cons y ys =>
      rw [List.flatMap_cons, List.flatMap_cons] at h
      obtain ⟨hx, hxs⟩ := List.append_inj h rfl
      rw [le16_injective hx, ih hxs]

theorem phase1Init_injective {ta ta' : Mac} {iv32 iv32' : UInt32}
    (h : phase1Init ta iv32 = phase1Init ta' iv32') : ta = ta' ∧ iv32 = iv32' := by
  have hget : ∀ k (hk : k < 5), (phase1Init ta iv32)[k] = (phase1Init ta' iv32')[k] :=
    fun k hk => congrArg (fun p : P1k => p[k]) h
  have hlo : iv32.toUInt16 = iv32'.toUInt16 := hget 0 (by decide)
  have hhi : (iv32 >>> 16).toUInt16 = (iv32' >>> 16).toUInt16 := hget 1 (by decide)
  obtain ⟨h0, h1⟩ := leWord_injective (hget 2 (by decide))
  obtain ⟨h2, h3⟩ := leWord_injective (hget 3 (by decide))
  obtain ⟨h4, h5⟩ := leWord_injective (hget 4 (by decide))
  constructor
  · refine Vector.ext fun k hk => ?_
    interval_cases k
    · exact h0
    · exact h1
    · exact h2
    · exact h3
    · exact h4
    · exact h5
  · have hx := iv32.toNat_lt
    have hy := iv32'.toNat_lt
    rw [← UInt16.toNat_inj, UInt32.toNat_toUInt16, UInt32.toNat_toUInt16] at hlo hhi
    rw [UInt32.toNat_shiftRight, UInt32.toNat_shiftRight] at hhi
    have hhi' : iv32.toNat >>> 16 % 2 ^ 16 = iv32'.toNat >>> 16 % 2 ^ 16 := hhi
    rw [Nat.shiftRight_eq_div_pow, Nat.shiftRight_eq_div_pow] at hhi'
    rw [← UInt32.toNat_inj]
    omega

/-- **Phase 1 loses nothing** of the address and the upper part of the packet number. -/
theorem phase1Key_injective {ta ta' : Mac} {iv32 iv32' : UInt32}
    (h : phase1Key tk ta iv32 = phase1Key tk ta' iv32') : ta = ta' ∧ iv32 = iv32' :=
  phase1Init_injective (Mixing.foldl_injective (fun i => phase1Round_injective i) _ h)

/-- **Phase 2 loses nothing** of the phase-1 key. -/
theorem tkipMixingPhase2_injective {p1k p1k' : P1k} {iv16 : UInt16}
    (h : tkipMixingPhase2 tk p1k iv16 = tkipMixingPhase2 tk p1k' iv16) : p1k = p1k' := by
  rw [tkipMixingPhase2, tkipMixingPhase2] at h
  have hwords := phase2Words_injective (Vector.toList_inj.mp
    (flatMap_le16_injective (List.append_inj h (by simp)).2))
  have hget : ∀ k (hk : k < 6), #v[p1k[0], p1k[1], p1k[2], p1k[3], p1k[4], p1k[4] + iv16][k] =
      #v[p1k'[0], p1k'[1], p1k'[2], p1k'[3], p1k'[4], p1k'[4] + iv16][k] :=
    fun k hk => congrArg (fun p : Vector UInt16 6 => p[k]) hwords
  refine Vector.ext fun k hk => ?_
  interval_cases k
  · exact hget 0 (by decide)
  · exact hget 1 (by decide)
  · exact hget 2 (by decide)
  · exact hget 3 (by decide)
  · exact hget 4 (by decide)

end Injective

/-! ### The header -/

/-- `TKIP_PN_TO_IV16`. -/
def TKIP_PN_TO_IV16 (pn : UInt64) : UInt16 := (pn &&& 0xffff).toUInt16

/-- `TKIP_PN_TO_IV32`. -/
def TKIP_PN_TO_IV32 (pn : UInt64) : UInt32 := ((pn >>> 16) &&& 0xffffffff).toUInt32

/-- `put_unaligned_le32`. -/
def le32 (x : UInt32) : List UInt8 :=
  [x.toUInt8, (x >>> 8).toUInt8, (x >>> 16).toUInt8, (x >>> 24).toUInt8]

/-- `get_unaligned_le32`. -/
def leDword (b0 b1 b2 b3 : UInt8) : UInt32 :=
  UInt32.ofNat (b0.toNat + 256 * b1.toNat + 65536 * b2.toNat + 16777216 * b3.toNat)

/-- `ieee80211_tkip_add_iv`: the eight bytes before the data. -/
def tkipAddIv (keyidx : ℕ) (pn : UInt64) : List UInt8 :=
  writeTkipIv (TKIP_PN_TO_IV16 pn) ++ [UInt8.ofNat (keyidx * 2 ^ 6) ||| 0x20] ++ le32 (TKIP_PN_TO_IV32 pn)

/-- What both sides read from there: `iv16` and `iv32`. -/
def ivOfHeader (data : List UInt8) : UInt16 × UInt32 :=
  (leWord (data.getD 2 0) (data.getD 0 0),
    leDword (data.getD 4 0) (data.getD 5 0) (data.getD 6 0) (data.getD 7 0))

theorem leDword_le32 (x : UInt32) :
    leDword x.toUInt8 (x >>> 8).toUInt8 (x >>> 16).toUInt8 (x >>> 24).toUInt8 = x := by
  have hx := x.toNat_lt
  have hshift : ∀ k : UInt32, k.toNat < 32 → ((x >>> k).toUInt8).toNat = x.toNat / 2 ^ k.toNat % 256 := by
    intro k hk
    rw [UInt32.toNat_toUInt8, UInt32.toNat_shiftRight, Nat.mod_eq_of_lt hk, Nat.shiftRight_eq_div_pow]
  have h8 := hshift 8 (by decide)
  have h16 := hshift 16 (by decide)
  have h24 := hshift 24 (by decide)
  rw [← UInt32.toNat_inj, leDword, UInt32.toNat_ofNat', h8, h16, h24, UInt32.toNat_toUInt8]
  show (x.toNat % 2 ^ 8 + 256 * (x.toNat / 2 ^ 8 % 256) + 65536 * (x.toNat / 2 ^ 16 % 256) +
    16777216 * (x.toNat / 2 ^ 24 % 256)) % 2 ^ 32 = x.toNat
  omega

/-- **What is written is what is read.** -/
theorem ivOfHeader_tkipAddIv (keyidx : ℕ) (pn : UInt64) (data : List UInt8) :
    ivOfHeader (tkipAddIv keyidx pn ++ data) = (TKIP_PN_TO_IV16 pn, TKIP_PN_TO_IV32 pn) :=
  Prod.ext (leWord_le16 _) (leDword_le32 _)

/-! ### The sender -/

/-- `ieee80211_compute_tkip_p1k`. -/
def computeTkipP1k (tk : TemporalKey) (addr : Mac) (iv32 : UInt32) (ctx : TkipCtx) : TkipCtx :=
  if ctx.p1kIv32 ≠ iv32 ∨ ctx.state = .notInit then tkipMixingPhase1 tk addr iv32 else ctx

/-- `ieee80211_get_tkip_p1k_iv`. -/
def getTkipP1kIv (tk : TemporalKey) (addr : Mac) (iv32 : UInt32) (ctx : TkipCtx) : TkipCtx × P1k :=
  let ctx := computeTkipP1k tk addr iv32 ctx
  (ctx, ctx.p1k)

/-- `ieee80211_get_tkip_p2k`, for a frame with this header. -/
def getTkipP2k (tk : TemporalKey) (addr : Mac) (data : List UInt8) (ctx : TkipCtx) :
    TkipCtx × List UInt8 :=
  let (iv16, iv32) := ivOfHeader data
  let ctx := computeTkipP1k tk addr iv32 ctx
  (ctx, tkipMixingPhase2 tk ctx.p1k iv16)

/-- What a sender asks for. -/
inductive TkipTxOp
  | p1kIv (iv32 : UInt32)
  | p2k (data : List UInt8)

/-- The context after these, all under `txlock`. -/
def txRun (tk : TemporalKey) (addr : Mac) (ops : List TkipTxOp) : TkipCtx :=
  ops.foldl (fun ctx op => match op with
    | .p1kIv iv32 => (getTkipP1kIv tk addr iv32 ctx).1
    | .p2k data => (getTkipP2k tk addr data ctx).1) {}

section Sender

variable {tk : TemporalKey} {addr : Mac} {ctx : TkipCtx}

/-- The context has the phase-1 key that it says it has. -/
def TxCached (tk : TemporalKey) (addr : Mac) (ctx : TkipCtx) : Prop :=
  ctx.state ≠ .notInit → ctx.p1k = phase1Key tk addr ctx.p1kIv32

theorem computeTkipP1k_spec (h : TxCached tk addr ctx) (iv32 : UInt32) :
    TxCached tk addr (computeTkipP1k tk addr iv32 ctx) ∧
      (computeTkipP1k tk addr iv32 ctx).p1k = phase1Key tk addr iv32 := by
  rw [computeTkipP1k]
  split
  · exact ⟨fun _ => rfl, rfl⟩
  · rename_i hsame
    rw [not_or, not_not] at hsame
    exact ⟨h, hsame.1 ▸ h hsame.2⟩

theorem txCached_txRun (ops : List TkipTxOp) : TxCached tk addr (txRun tk addr ops) := by
  induction ops using List.reverseRecOn with
  | nil => exact fun h => absurd rfl h
  | append_singleton ops op ih =>
    rw [txRun, List.foldl_append]
    cases op with
    | p1kIv iv32 => exact (computeTkipP1k_spec ih iv32).1
    | p2k data => exact (computeTkipP1k_spec ih _).1

/-- **A sender uses the key of the frame**, whatever it was asked for before. -/
theorem getTkipP2k_txRun (ops : List TkipTxOp) (keyidx : ℕ) (pn : UInt64) (data : List UInt8) :
    (getTkipP2k tk addr (tkipAddIv keyidx pn ++ data) (txRun tk addr ops)).2 =
      tkipMixingPhase2 tk (phase1Key tk addr (TKIP_PN_TO_IV32 pn)) (TKIP_PN_TO_IV16 pn) := by
  rw [getTkipP2k, ivOfHeader_tkipAddIv]
  dsimp only
  rw [(computeTkipP1k_spec (txCached_txRun ops) _).2]

end Sender

/-- The first frame of a key. -/
example : tkipMixingPhase2 #v[0, 1, 2, 3, 4, 5, 6, 7, 8, 9, 10, 11, 12, 13, 14, 15]
    (phase1Key #v[0, 1, 2, 3, 4, 5, 6, 7, 8, 9, 10, 11, 12, 13, 14, 15]
      #v[0x10, 0x22, 0x33, 0x44, 0x55, 0x66] 0) 0 =
    [0x00, 0x20, 0x00, 0x33, 0xea, 0x8d, 0x2f, 0x60, 0xca, 0x6d, 0x13, 0x74, 0x23, 0x4a, 0x66, 0x0b] := by
  decide +kernel

end Mac80211
