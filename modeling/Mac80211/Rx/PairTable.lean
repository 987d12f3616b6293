import Mac80211.Randomizer.Entries

/-!
# Deauthentication and the pair table

The entry is deleted before the frame is decrypted, and looked for under the address that the frame
has by then, the base address: once it has been given another random address it is not found.

## Main results

* `deauthWorks_iff` — when the entry leaves the table exactly with the connection
-/

namespace Mac80211

open Buckets Machine

section Table

variable {n : ℕ} {t : MacTable n} {random base : Mac}

/-- The entry that `s_delete_entry` frees: the first one in the bucket of the address that has it as its
random address. -/
def deletedEntry (t : MacTable n) (random : Mac) : Option MacEntry :=
  (t.bucket (hashFunction n random)).find? fun e => e.randomMac = random

theorem deleteEntry_of_none (h : deletedEntry t random = none) : deleteEntry t random = t :=
  t.eraseIn_of_not fun a ha => List.find?_eq_none.mp h a ha

theorem entries_deleteEntry_perm [NeZero n] {e : MacEntry} (h : deletedEntry t random = some e) :
    t.entries.Perm (e :: (deleteEntry t random).entries) :=
  t.entries_eraseIn_perm (hashFunction_lt random) h

theorem deleteEntry_eq_self_iff [NeZero n] : deleteEntry t random = t ↔ deletedEntry t random = none := by
  constructor
  · intro heq
    cases h : deletedEntry t random with
    | none => rfl
    | some e =>
      have hlen := (entries_deleteEntry_perm h).length_eq
      rw [heq, List.length_cons] at hlen
      exact absurd hlen (Nat.succ_ne_self _).symm
  · exact deleteEntry_of_none

theorem searchByBaseMac_eq_none_iff : searchByBaseMac t base = none ↔ ∀ e ∈ t.entries, e.baseMac ≠ base := by
  rw [searchByBaseMac, Table.find?_eq, List.find?_eq_none]
  simp

/-- An address has no entry afterwards just if it had none, or its entry is the one that was found. -/
theorem searchByBaseMac_deleteEntry_eq_none_iff [NeZero n] (h : BaseNodup t) :
    searchByBaseMac (deleteEntry t random) base = none ↔
      searchByBaseMac t base = none ∨ ∃ e ∈ deletedEntry t random, e.baseMac = base := by
  cases hd : deletedEntry t random with
  | none =>
    rw [deleteEntry_of_none hd]
    simp
  | some e =>
    have hperm := entries_deleteEntry_perm hd
    have hnodup := (hperm.map MacEntry.baseMac).nodup_iff.mp h
    rw [List.map_cons, List.nodup_cons] at hnodup
    rw [searchByBaseMac_eq_none_iff, searchByBaseMac_eq_none_iff]
    constructor
    · intro hgone
      by_cases hb : e.baseMac = base
      · exact .inr ⟨e, rfl, hb⟩
      · refine .inl fun e' he' => ?_
        rcases List.mem_cons.mp (hperm.mem_iff.mp he') with rfl | he'
        · exact hb
        · exact hgone e' he'
    · rintro (hnone | ⟨e', he', hb⟩) x hx
      · exact hnone x (hperm.mem_iff.mpr (List.mem_cons_of_mem e hx))
      · cases he'
        rintro rfl
        exact hnodup.1 (List.mem_map.mpr ⟨x, hx, hb.symm⟩)

end Table

section Frame

variable {sha1 : List UInt8 → Vector UInt8 20} {C : Crypto} {env : RxEnv} {s : Local} {os : List Logged}
  {i : SdataId} {rx : RxData}

/-- What should become of the table. -/
structure DeauthWorks (s : Local) (i : SdataId) (out : RxVerdict × Local) : Prop where
  /-- A frame that is thrown away leaves it as it is. -/
  rejected : out.1 = .rejected → out.2.sTranslationTable = s.sTranslationTable
  /-- After one that is not, the interface has no entry. -/
  accepted : out.1 = .accepted → searchByBaseMac out.2.sTranslationTable (s.sdata i).addr = none

/-- The frame is a duplicate, or what the later handlers think of it fits to what `s_delete_entry`
finds. -/
def Believable (C : Crypto) (env : RxEnv) (s : Local) (i : SdataId) (rx : RxData) : Prop :=
  rxHCheckDup env rx = true ∨
    ((rxHandlers C env s i rx).1 = .rejected →
      deletedEntry s.sTranslationTable rx.skb.hdr.addr1 = none) ∧
    ((rxHandlers C env s i rx).1 = .accepted →
      searchByBaseMac s.sTranslationTable (s.sdata i).addr = none ∨
        ∃ e ∈ deletedEntry s.sTranslationTable rx.skb.hdr.addr1, e.baseMac = (s.sdata i).addr)

theorem invokeRxHandlers_deauth (hsta : (s.sdata i).type = .station)
    (hdeauth : isDeauth rx.skb.hdr.frameControl = true) (hdup : rxHCheckDup env rx = false) :
    (invokeRxHandlers C env s i rx).1 = (rxHandlers C env s i rx).1 ∧
      (invokeRxHandlers C env s i rx).2.sTranslationTable =
        deleteEntry s.sTranslationTable rx.skb.hdr.addr1 := by
  have hcheck : rxHCheck s i rx.skb.hdr =
      s.withPairTable (deleteEntry s.sTranslationTable rx.skb.hdr.addr1) := by
    rw [rxHCheck, if_pos hdeauth, hsta]
    rfl
  rw [invokeRxHandlers, if_neg (by simp [hdup]), hcheck, rxHandlers_withPairTable]
  exact ⟨rfl, rfl⟩

/-- **When a deauthentication frame does to the table what it should**, in every state that the
device can reach. -/
theorem deauthWorks_iff {P : Local → List Logged → DeviceEvent → Prop} {hw : Local}
    (hr : Reach (receiveStep sha1 C) P (bootLocal hw) s os) (hsta : (s.sdata i).type = .station)
    (hdeauth : isDeauth rx.skb.hdr.frameControl = true) :
    DeauthWorks s i (invokeRxHandlers C env s i rx) ↔ Believable C env s i rx := by
  have hinv : TablesInv (fun _ => True) s := tablesInv_of_reach trivial (fun _ _ _ _ _ _ => trivial) hr
  cases hdup : rxHCheckDup env rx with
  | true =>
    have hout : invokeRxHandlers C env s i rx = (.rejected, s) := by rw [invokeRxHandlers, if_pos hdup]
    rw [hout]
    exact ⟨fun _ => .inl hdup, fun _ => ⟨fun _ => rfl, fun h => by cases h⟩⟩
  | false =>
    obtain ⟨hverdict, htable⟩ := invokeRxHandlers_deauth (C := C) hsta hdeauth hdup
    have hbelievable : Believable C env s i rx ↔
        ((rxHandlers C env s i rx).1 = .rejected → deletedEntry s.sTranslationTable rx.skb.hdr.addr1 = none) ∧
        ((rxHandlers C env s i rx).1 = .accepted →
          searchByBaseMac s.sTranslationTable (s.sdata i).addr = none ∨
            ∃ e ∈ deletedEntry s.sTranslationTable rx.skb.hdr.addr1, e.baseMac = (s.sdata i).addr) := by
      rw [Believable, hdup]
      simp
    rw [hbelievable, ← searchByBaseMac_deleteEntry_eq_none_iff hinv.sTranslation.nodup,
      ← deleteEntry_eq_self_iff, ← hverdict, ← htable]
    exact ⟨fun h => ⟨h.rejected, h.accepted⟩, fun h => ⟨h.1, h.2⟩⟩

end Frame

/-! ### Runs -/

/-- A frame from the station. -/
def sendToAp : Event :=
  .xmit {} 0 (some 0) ⟨⟨FTYPE_DATA ||| FCTL_TODS, 0, toyMac 1, toyMac 2, toyMac 1, 0, [1, 2, 3]⟩, {}, 0⟩
    false

/-- A station joins an access point, and sends a frame. -/
def joined (mfp : Bool) : List Event :=
  [.addInterface 0 { type := .station, addr := toyMac 2, bssid := toyMac 1 },
    .addSta 0 { addr := toyMac 1, sdata := 0, mfp := mfp },
    .key (.alloc { cipher := .ccmp, key := List.replicate 16 0 }), .key (.setPtk 0 0 (some 0)),
    .key (.setPtkIdx 0 0), .moveState 0 .authorized, sendToAp]

/-- Anybody can send this. -/
def forgedDeauth : RxData where
  skb := { hdr := ⟨STYPE_DEAUTH, 0, toyMac 2, toyMac 1, toyMac 1, 0, [3, 0]⟩ }
  sta := some 0

/-- What the frame meets. -/
def forgedMeets (s : Local) : IfType × RxVerdict × Mac × Option Mac :=
  ((s.sdata 0).type, (rxHandlers toyCrypto {} s 0 forgedDeauth).1, (s.sdata 0).addr,
    (deletedEntry s.sTranslationTable (toyMac 2)).map MacEntry.baseMac)

theorem deauthWorks_joined : ∃ s, DeauthWorks s 0 (invokeRxHandlers toyCrypto {} s 0 forgedDeauth) ∧
    forgedMeets s = (.station, .accepted, toyMac 2, some (toyMac 2)) := by
  have hrun : (run (receiveStep toyHash toyCrypto) (bootLocal {}) ((joined false).map .event)).map
      (fun r => forgedMeets r.1) = some (.station, .accepted, toyMac 2, some (toyMac 2)) := by
    decide +kernel
  obtain ⟨⟨s, os⟩, hr, hmeets⟩ := Option.map_eq_some_iff.mp hrun
  have hs := hmeets
  simp only [forgedMeets, Prod.mk.injEq] at hs
  obtain ⟨htype, hverdict, haddr, hdeleted⟩ := hs
  refine ⟨s, (deauthWorks_iff (Reach.of_run_init hr) htype rfl).mpr (.inr ⟨fun h => ?_, fun _ => .inr ?_⟩),
    hmeets⟩
  · rw [hverdict] at h
    cases h
  · obtain ⟨e, he, hbase⟩ := Option.map_eq_some_iff.mp hdeleted
    exact ⟨e, he, hbase.trans haddr.symm⟩

/-- What there is before and after the frame. -/
def pairSeen (s : Local) : IfType × RxVerdict × Option Mac × Option Mac :=
  ((s.sdata 0).type, (invokeRxHandlers toyCrypto {} s 0 forgedDeauth).1,
    lookup s.sTranslationTable (s.sdata 0).addr,
    lookup (invokeRxHandlers toyCrypto {} s 0 forgedDeauth).2.sTranslationTable (s.sdata 0).addr)

/-- **The entry goes when it should stay, and stays when it should go**: a forged frame deletes it;
a believed one in a later period does not. -/
theorem deauth_deletes_wrongly :
    (∃ s os, Reach (receiveStep toyHash toyCrypto) (fun _ _ _ => True) (bootLocal {}) s os ∧
      (s.sdata 0).type = .station ∧
      (invokeRxHandlers toyCrypto {} s 0 forgedDeauth).1 = .rejected ∧
      (invokeRxHandlers toyCrypto {} s 0 forgedDeauth).2.sTranslationTable ≠ s.sTranslationTable) ∧
    ∃ s os, Reach (receiveStep toyHash toyCrypto) (fun _ _ _ => True) (bootLocal {}) s os ∧
      (s.sdata 0).type = .station ∧
      (invokeRxHandlers toyCrypto {} s 0 forgedDeauth).1 = .accepted ∧
      searchByBaseMac (invokeRxHandlers toyCrypto {} s 0 forgedDeauth).2.sTranslationTable
        (s.sdata 0).addr ≠ none := by
  constructor
  · have hrun : (run (receiveStep toyHash toyCrypto) (bootLocal {}) ((joined true).map .event)).map
        (fun r => pairSeen r.1) = some (.station, .rejected, some (toyMac 2), none) := by
      decide +kernel
    obtain ⟨⟨s, os⟩, hr, hs⟩ := Option.map_eq_some_iff.mp hrun
    simp only [pairSeen, Prod.mk.injEq] at hs
    obtain ⟨htype, hverdict, hbefore, hafter⟩ := hs
    refine ⟨s, os, Reach.of_run_init hr, htype, hverdict, fun heq => ?_⟩
    rw [heq, hbefore] at hafter
    cases hafter
  · have hrun : (run (receiveStep toyHash toyCrypto) (bootLocal {})
        ((joined false ++ [.tick 15, sendToAp]).map .event)).map (fun r => pairSeen r.1) =
        some (.station, .accepted, some #v[2, 1, 0, 0, 0, 2], some #v[2, 1, 0, 0, 0, 2]) := by
      decide +kernel
    obtain ⟨⟨s, os⟩, hr, hs⟩ := Option.map_eq_some_iff.mp hrun
    simp only [pairSeen, Prod.mk.injEq] at hs
    obtain ⟨htype, hverdict, -, hafter⟩ := hs
    refine ⟨s, os, Reach.of_run_init hr, htype, hverdict, fun hnone => ?_⟩
    rw [lookup_eq_none_iff.mpr hnone] at hafter
    cases hafter

end Mac80211
