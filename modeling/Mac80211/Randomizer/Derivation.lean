import Mac80211.Lib.Copies
import Mac80211.Randomizer.AddGen

/-!
# Deriving one address on both sides

An AP derives the address of a station, and the station its own, from the pairwise key, the
station's address and the period. Both hash a buffer of 30 bytes; the station places the period
behind the key, the AP at a fixed place.

## Main results

* `derivation_agrees_iff` — when they derive the same address
-/

namespace Mac80211

open Bytes

/-- `WLAN_MAX_KEY_LEN`. -/
def WLAN_MAX_KEY_LEN : ℕ := 32

/-- The copies `generate_mac_add_ap_all` makes for a station. -/
def apCopies (key : List UInt8) (addr : Mac) (tp : ℕ) : List Copy :=
  [(0, key), (16, addr.toList), (6 + 16, leBytes64 tp)]

/-- The copies `generate_mac_add_sta` makes. -/
def staCopies (key : List UInt8) (addr : Mac) (tp : ℕ) : List Copy :=
  [(0, key), (16, addr.toList), (6 + key.length, leBytes64 tp)]

theorem apHashInput_eq (data key : List UInt8) (addr : Mac) (tp : ℕ) :
    apHashInput data key addr tp = applyCopies data (apCopies key addr tp) := rfl

theorem staHashInput_eq (data key : List UInt8) (addr : Mac) (tp : ℕ) :
    staHashInput data key addr tp = applyCopies data (staCopies key addr tp) := rfl

section

variable (sha1 : List UInt8 → Vector UInt8 20)

/-- The address the AP derives, in a buffer that holds `data`. -/
def apMac (data key : List UInt8) (addr : Mac) (tp : ℕ) : Mac :=
  macOfHash (sha1 ((apHashInput data key addr tp).take HASH_INPUT_LEN))

/-- The address the station derives, in a buffer that holds `data`. -/
def staMac (data key : List UInt8) (addr : Mac) (tp : ℕ) : Mac :=
  macOfHash (sha1 ((staHashInput data key addr tp).take HASH_INPUT_LEN))

/-- What the AP leaves in its buffer for the stations before this one. -/
def earlierCopies (tp : ℕ) (earlier : List (List UInt8 × Mac)) : List Copy :=
  earlier.flatMap fun e => apCopies e.1 e.2 tp

/-- Both sides properly derive one address. `junk` and `junk'`: what the buffers held, `earlier`:
the keys and addresses the AP handled before in the same buffer. -/
structure DerivationAgrees (junk junk' : Vector UInt8 HASH_INPUT_LEN)
    (earlier : List (List UInt8 × Mac)) (key : List UInt8) (addr : Mac) (tp : ℕ) : Prop where
  /-- Every copy stays inside the buffer, -/
  apInside : Inside HASH_INPUT_LEN (apCopies key addr tp)
  staInside : Inside HASH_INPUT_LEN (staCopies key addr tp)
  /-- every byte hashed has been written, -/
  apWritten : Covers HASH_INPUT_LEN (earlierCopies tp earlier ++ apCopies key addr tp)
  staWritten : Covers HASH_INPUT_LEN (staCopies key addr tp)
  /-- and the addresses are equal. -/
  agree : apMac sha1 (applyCopies junk.toList (earlierCopies tp earlier)) key addr tp =
    staMac sha1 junk'.toList key addr tp

end

variable {sha1 : List UInt8 → Vector UInt8 20} {key : List UInt8}

/-- With 16 bytes of key the station places the period where the AP does. -/
theorem staCopies_eq_apCopies (hk : key.length = 16) (addr : Mac) (tp : ℕ) :
    staCopies key addr tp = apCopies key addr tp := by
  rw [staCopies, apCopies, hk]

theorem inside_apCopies (hk : key.length = 16) (addr : Mac) (tp : ℕ) :
    Inside HASH_INPUT_LEN (apCopies key addr tp) := by
  simp [Inside, apCopies, HASH_INPUT_LEN, hk]

theorem covers_apCopies (hk : key.length = 16) (addr : Mac) (tp : ℕ) :
    Covers HASH_INPUT_LEN (apCopies key addr tp) := by
  intro i hi
  rw [HASH_INPUT_LEN] at hi
  simp only [apCopies, List.mem_cons, List.not_mem_nil, or_false, exists_eq_or_imp, exists_eq_left,
    Vector.length_toList, length_leBytes64, hk]
  omega

variable {tp : ℕ}

/-- The station's copies fit into the buffer only if the key is not too long. -/
theorem length_le_of_inside {addr : Mac} (h : Inside HASH_INPUT_LEN (staCopies key addr tp)) :
    key.length ≤ 16 := by
  have htp := h (6 + key.length, leBytes64 tp) (by simp [staCopies])
  rw [length_leBytes64, HASH_INPUT_LEN] at htp
  omega

theorem le_length_of_covers {addr : Mac} (h : Covers HASH_INPUT_LEN (staCopies key addr tp)) :
    16 ≤ key.length := by
  obtain ⟨c, hc, hin⟩ := h 29 (by decide)
  simp only [staCopies, List.mem_cons, List.not_mem_nil, or_false] at hc
  rcases hc with rfl | rfl | rfl
  · simp only at hin
    omega
  · simp only [Vector.length_toList] at hin
    omega
  · simp only [length_leBytes64] at hin
    omega

/-- **Both sides derive the same address, properly, exactly with keys of 16 bytes.** -/
theorem derivation_agrees_iff (sha1 : List UInt8 → Vector UInt8 20)
    (junk junk' : Vector UInt8 HASH_INPUT_LEN) (earlier : List (List UInt8 × Mac)) (key : List UInt8)
    (addr : Mac) (tp : ℕ) :
    DerivationAgrees sha1 junk junk' earlier key addr tp ↔ key.length = 16 := by
  constructor
  · intro h
    exact le_antisymm (length_le_of_inside h.staInside) (le_length_of_covers h.staWritten)
  · intro hk
    have hin := inside_apCopies hk addr tp
    have hcov := covers_apCopies hk addr tp
    have hsta := staCopies_eq_apCopies hk addr tp
    refine ⟨hin, by rw [hsta]; exact hin, hcov.append_left _, by rw [hsta]; exact hcov, ?_⟩
    have hjunk : HASH_INPUT_LEN ≤ (applyCopies junk.toList (earlierCopies tp earlier)).length :=
      le_length_applyCopies (by rw [Vector.length_toList]) _
    have hjunk' : HASH_INPUT_LEN ≤ junk'.toList.length := by rw [Vector.length_toList]
    rw [apMac, staMac, apHashInput_eq, staHashInput_eq, hsta,
      take_applyCopies_eq hjunk hjunk' hin hcov]

/-- **A key the code admits that does not fit.** The copies of a CCMP-256 key run over the buffer. -/
theorem long_key_overruns : ¬ ∀ (sha1 : List UInt8 → Vector UInt8 20)
    (junk junk' : Vector UInt8 HASH_INPUT_LEN) (earlier : List (List UInt8 × Mac)) (key : List UInt8)
    (addr : Mac) (tp : ℕ), key.length ≤ WLAN_MAX_KEY_LEN →
      DerivationAgrees sha1 junk junk' earlier key addr tp := by
  intro h
  have hagree := h (fun _ => Vector.replicate 20 0) (Vector.replicate _ 0) (Vector.replicate _ 0) []
    (List.replicate 32 7) #v[2, 0, 0, 0, 0, 1] 0 (by decide)
  have hlen := length_le_of_inside hagree.staInside
  simp at hlen

/-! ### The two functions -/

/-- What `generate_mac_add_ap_all` writes to the table for a station is the address derived, and what it
leaves in the buffer are its copies. -/
theorem table_generateMacAddApStep {env : GenEnv} {st st' : Local × List UInt8} {j : StaId}
    {k : KeyId} (hk : st.1.ptkOf j = some k)
    (h : generateMacAddApStep sha1 env tp st j = some st') :
    st'.2 = applyCopies st.2 (apCopies (st.1.keys k).key (st.1.sta j).addr tp) ∧
      st'.1.translationTable = updateEntryByBase (env.insert j) st.1.translationTable (st.1.sta j).addr
        (apMac sha1 st.2 (st.1.keys k).key (st.1.sta j).addr tp) := by
  rw [generateMacAddApStep, hk] at h
  cases h
  refine ⟨rfl, ?_⟩
  dsimp only
  cases (((st.1.updSdata (st.1.sta j).sdata fun d => { d with sequenceNumber := 0 }).advance
    (env.delay j)).sdata (st.1.sta j).sdata).defaultMulticastKey <;> rfl

/-- What `generate_mac_add_sta` writes to the table is the address derived. -/
theorem table_generateMacAddSta {env : GenEnv} {j : StaId} {s s' : Local} {k : KeyId}
    (halloc : env.alloc = true) (hk : s.ptkOf j = some k)
    (h : generateMacAddSta sha1 env tp j s = some s') :
    s'.sTranslationTable = sUpdateEntryByBase s.sTranslationTable (s.sdataOf j).addr
      (staMac sha1 env.junk (s.keys k).key (s.sdataOf j).addr tp) := by
  rw [generateMacAddSta, if_pos halloc] at h
  simp only [hk] at h
  cases h
  rfl

end Mac80211
