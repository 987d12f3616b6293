import Mac80211.Randomizer.Atomicity
import Mac80211.Randomizer.Entries

/-!
# An access point and its stations

An access point and its stations derive an address from the same key, address and period, but not at
the same time. Here they are parties of one network, each with its own clock; a frame may arrive
late, twice, or not at all.

## Main results

* `uplink_restored_iff`, `downlink_restored_iff`, `uplink_attributed`, `downlink_accepted`
-/

namespace Mac80211

open Bytes Buckets Machine Option

/-! ### The network -/

/-- What a party does with its address tables. -/
inductive PartyEvent
  /-- Time passes. -/
  | tick (n : ℕ)
  /-- A frame is sent: `handle_random_mac`, then `mac_addr_change_hdr_tx`. -/
  | send (env : GenEnv) (ok : Bool) (sta : Option StaId) (vif : SdataId) (h : Hdr)
  /-- `mac_addr_change_hdr_rx`. -/
  | receive (env : GenEnv) (h : Hdr)

/-- The buffer of the generators has 30 bytes, and frames go out on interfaces that exist. -/
def PartyEvent.Ok (s : Local) : PartyEvent → Prop
  | .send env _ sta vif _ => HASH_INPUT_LEN ≤ env.junk.length ∧ vif ∈ s.interfaces ∧
      ∀ j ∈ sta, (s.sta j).sdata ∈ s.interfaces
  | .receive env _ => HASH_INPUT_LEN ≤ env.junk.length
  | .tick _ => True

instance (s : Local) : (e : PartyEvent) → Decidable (e.Ok s)
  | .tick _ => isTrue trivial
  | .send .. => inferInstanceAs (Decidable (_ ∧ _ ∧ _))
  | .receive .. => inferInstanceAs (Decidable (_ ≤ _))

/-- The access point is `none`. -/
abbrev Net (ι : Type) := Option ι → Local

section

variable (sha1 : List UInt8 → Vector UInt8 20) (ptk : Mac → List UInt8)

/-- What a party does, and what it sends: the header before and after the addresses are replaced. -/
def partyStep (s : Local) : PartyEvent → Option (Local × List (Hdr × Hdr))
  | .tick n => some (s.advance n, [])
  | .send env ok sta vif h =>
    (handleRandomMac sha1 env ok sta s).map fun s' => (s', [(h, macAddrChangeHdrTx s' vif h)])
  | .receive env h => (macAddrChangeHdrRx sha1 env s h).map fun r => (r.1, [])

/-- One party does something. -/
def netStep {ι : Type} [DecidableEq ι] (N : Net ι) (e : Option ι × PartyEvent) :
    Option (Net ι × List (Hdr × Hdr)) :=
  (partyStep sha1 (N e.1) e.2).map fun r => (Function.update N e.1 r.1, r.2)

/-- The address that is derived for a base address in a period, from the pairwise key. -/
def derivedMac (base : Mac) (tp : ℕ) : Mac :=
  apMac sha1 (List.replicate HASH_INPUT_LEN 0) (ptk base) base tp

/-- What is not a base address itself has been derived in one period, for base addresses in `S`. -/
def OfPeriod {n : ℕ} (S : Mac → Prop) (r : ℕ) (t : MacTable n) : Prop :=
  ∀ b mac, lookup t b = some mac → mac = b ∨ S b ∧ mac = derivedMac sha1 ptk b r

/-- The address a frame has in place of a base address. -/
def Stands (b mac : Mac) : Prop := mac = b ∨ ∃ q, mac = derivedMac sha1 ptk b q

/-- An access point for stations with addresses in `S`, which share their pairwise keys with it. -/
structure ApSetup (S : Mac → Prop) (s : Local) : Prop where
  inst : whichInstance s = .ap
  listed : ∀ b, S b ↔ ∃ j ∈ s.staList, (s.sta j).addr = b
  keys : ∀ j ∈ s.staList, ∀ k, s.ptkOf j = some k → (s.keys k).key = ptk (s.sta j).addr

/-- A station with one address. -/
structure StaSetup (own : Mac) (s : Local) : Prop where
  inst : whichInstance s = .sta
  addr : ∀ i ∈ s.interfaces, (s.sdata i).addr = own
  keys : ∀ j k, s.ptkOf j = some k → (s.keys k).key = ptk own

/-- How a network starts: the tables are empty, and all addresses are burned in. -/
structure Net.Starts {ι : Type} (S : Mac → Prop) (own : ι → Mac) (N : Net ι) : Prop where
  ap : ApSetup ptk S (N none)
  sta : ∀ i, StaSetup ptk (own i) (N (some i))
  universal : ∀ p, (∀ j, Universal ((N p).sta j).addr) ∧ ∀ i, Universal ((N p).sdata i).addr
  empty : ∀ p, (N p).translationTable = Table.empty _ _ ∧ (N p).sTranslationTable = Table.empty _ _

/-- The invariant of the access point. -/
structure ApSide (S : Mac → Prop) (s : Local) : Prop where
  setup : ApSetup ptk S s
  tables : TablesInv Universal s
  period : ∃ r, OfPeriod sha1 ptk S r s.translationTable

/-- The invariant of a station. -/
structure StaSide (own : Mac) (s : Local) : Prop where
  setup : StaSetup ptk own s
  tables : TablesInv Universal s
  period : ∃ r, OfPeriod sha1 ptk (· = own) r s.sTranslationTable

/-- Receiver and transmitter of a frame on the air stand for what they were. -/
def OnAir (f : Hdr × Hdr) : Prop :=
  Stands sha1 ptk f.1.addr1 f.2.addr1 ∧ Stands sha1 ptk f.1.addr2 f.2.addr2

/-- The invariant of the network. -/
structure NetInv {ι : Type} (S : Mac → Prop) (own : ι → Mac) (N : Net ι) (os : List (Hdr × Hdr)) :
    Prop where
  ap : ApSide sha1 ptk S (N none)
  sta : ∀ i, StaSide sha1 ptk (own i) (N (some i))
  air : ∀ f ∈ os, OnAir sha1 ptk f

end

variable {sha1 : List UInt8 → Vector UInt8 20} {ptk : Mac → List UInt8} {S : Mac → Prop} {own b mac : Mac}
  {n r tp : ℕ} {t : MacTable n} {env : GenEnv} {s s' : Local}

/-! ### What is derived -/

theorem apMac_eq_derivedMac {data key : List UInt8} (hkey : key = ptk b) (hlen : key.length = 16)
    (hdata : HASH_INPUT_LEN ≤ data.length) : apMac sha1 data key b tp = derivedMac sha1 ptk b tp := by
  rw [derivedMac, ← hkey, apMac, apMac, apHashInput_eq, apHashInput_eq,
    take_applyCopies_eq hdata (List.length_replicate).ge (inside_apCopies hlen b tp)
      (covers_apCopies hlen b tp)]

theorem staMac_eq_derivedMac {data key : List UInt8} (hkey : key = ptk b) (hlen : key.length = 16)
    (hdata : HASH_INPUT_LEN ≤ data.length) : staMac sha1 data key b tp = derivedMac sha1 ptk b tp := by
  rw [← apMac_eq_derivedMac hkey hlen hdata, staMac, apMac, staHashInput_eq, apHashInput_eq,
    staCopies_eq_apCopies hlen]

instance (a : Mac) : Decidable (LocalUnicast a) := inferInstanceAs (Decidable (_ ∧ _))

theorem localUnicast_derivedMac : LocalUnicast (derivedMac sha1 ptk b tp) := localUnicast_macOfHash _

/-- The stations of a loop get the addresses of the period, whatever the buffer holds. -/
theorem derived_of_mem_newMacs (hptk : ∀ b, (ptk b).length = 16)
    (hkeys : ∀ j ∈ s.staList, ∀ k, s.ptkOf j = some k → (s.keys k).key = ptk (s.sta j).addr)
    (hkeyed : EveryStationKeyed s) : ∀ (js : List StaId) (data : List UInt8), js ⊆ s.staList →
    HASH_INPUT_LEN ≤ data.length → ∀ e ∈ newMacs sha1 s tp data js,
      e.2 = derivedMac sha1 ptk (s.sta e.1).addr tp := by
  intro js
  induction js with
  | nil => exact fun _ _ _ e he => absurd he List.not_mem_nil
  | cons j js ih =>
    intro data hsub hdata e he
    obtain ⟨hj, hsub⟩ := List.cons_subset.1 hsub
    obtain ⟨k, hk⟩ := ne_none_iff_exists'.1 (hkeyed j hj)
    have hkey := hkeys j hj k hk
    rcases List.mem_cons.1 he with rfl | he
    · simp only [newMac, hk]
      exact apMac_eq_derivedMac hkey (hkey ▸ hptk _) hdata
    · refine ih _ hsub ?_ e he
      simp only [stationData, hk]
      rw [apHashInput_eq]
      exact le_length_applyCopies hdata _

/-- After a rotation all that is derived is of the new period. -/
theorem ofPeriod_generateMacAddApAll (hptk : ∀ b, (ptk b).length = 16) (h : ApSetup ptk S s)
    (hr : ∃ r, OfPeriod sha1 ptk S r s.translationTable) (hjunk : HASH_INPUT_LEN ≤ env.junk.length)
    (hgen : generateMacAddApAll sha1 env tp s = some s') :
    ∃ r, OfPeriod sha1 ptk S r s'.translationTable := by
  by_cases halloc : env.alloc = true
  · have hkeyed := (exists_generateMacAddApAll_iff halloc).1 ⟨s', hgen⟩
    have hfst : (newMacs sha1 s tp env.junk s.staList).map Prod.fst = s.staList := map_fst_newMacs ..
    have huniq (b : Mac) : ∀ e ∈ newMacs sha1 s tp env.junk s.staList, (s.sta e.1).addr = b →
        e.2 = derivedMac sha1 ptk b tp := fun e he hb =>
      hb ▸ derived_of_mem_newMacs hptk h.keys hkeyed s.staList env.junk (List.Subset.refl _) hjunk e he
    refine ⟨tp, fun b mac hl => ?_⟩
    rw [translationTable_generateMacAddApAll halloc hgen] at hl
    by_cases hS : S b
    · obtain ⟨j, hj, hb⟩ := (h.listed b).1 hS
      rw [← hfst] at hj
      obtain ⟨e, he, rfl⟩ := List.mem_map.1 hj
      by_cases hroom : lookup s.translationTable b ≠ none ∨
          ∃ e ∈ newMacs sha1 s tp env.junk s.staList, (s.sta e.1).addr = b ∧ env.insert e.1 = true
      · rw [lookup_foldl_updateStation_of_mem ⟨e, he, hb⟩ (huniq b) hroom] at hl
        exact .inr ⟨hS, (some.inj hl).symm⟩
      · -- there was no entry, and there is none now
        rw [not_or, not_not] at hroom
        rw [lookup_foldl_updateStation_eq_none hroom.1 fun e he hb hok => hroom.2 ⟨e, he, hb, hok⟩] at hl
        cases hl
    · have hother : ∀ e ∈ newMacs sha1 s tp env.junk s.staList, (s.sta e.1).addr ≠ b := by
        intro e he hb
        refine hS ((h.listed b).2 ⟨e.1, ?_, hb⟩)
        rw [← hfst]
        exact List.mem_map_of_mem he
      obtain ⟨r, hr⟩ := hr
      cases hold : lookup s.translationTable b with
      | none =>
        rw [lookup_foldl_updateStation_eq_none hold fun e he hb => absurd hb (hother e he)] at hl
        cases hl
      | some mac' =>
        rw [lookup_foldl_updateStation_of_eq hold fun e he hb => absurd hb (hother e he)] at hl
        exact .inl (((hr b mac' hold).resolve_right fun hc => hS hc.1) ▸ (some.inj hl).symm)
  · rw [generateMacAddApAll, if_neg halloc] at hgen
    cases hgen
    exact hr

/-! ### Looking up the other way -/

theorem OfPeriod.stands (h : OfPeriod sha1 ptk S r t) (b : Mac) : Stands sha1 ptk b (txMac t b) := by
  rw [txMac_eq_lookup]
  cases hl : lookup t b with
  | none => exact .inl rfl
  | some mac => exact (h b mac hl).imp_right fun hm => ⟨r, hm.2⟩

theorem lookup_of_searchByRandomMac {e : MacEntry} (ht : MacTableInv Universal t)
    (he : searchByRandomMac t mac = some e) : lookup t e.baseMac = some mac := by
  rw [ht.nodup.mem_entries_iff.1 (mem_entries_of_searchByRandomMac he), randomMac_of_searchByRandomMac he]

/-- An address is led back to its base address just if it is this, or is in the table for it. -/
theorem OfPeriod.rxMac_eq_iff (h : OfPeriod sha1 ptk S r t) (ht : MacTableInv Universal t)
    (hdist : ∀ b b', S b → S b' → derivedMac sha1 ptk b r = derivedMac sha1 ptk b' r → b = b')
    (hb : Universal b) (hmac : Stands sha1 ptk b mac) :
    rxMac t mac = b ↔ mac = b ∨ lookup t b = some mac := by
  rcases hmac with rfl | ⟨q, hmac⟩
  · exact iff_of_true (ht.rxMac_of_universal hb) (.inl rfl)
  · have hlocal : LocalUnicast mac := hmac ▸ localUnicast_derivedMac
    have hne : mac ≠ b := (hb.ne_localUnicast hlocal).symm
    rw [or_iff_right hne, rxMac]
    cases he : searchByRandomMac t mac with
    | none =>
      refine iff_of_false hne fun hl => ?_
      have hmem : ⟨b, mac⟩ ∈ t.entries := ht.nodup.mem_entries_iff.2 hl
      rw [searchByRandomMac, Table.find?_eq, List.find?_eq_none] at he
      exact he _ hmem (decide_eq_true rfl)
    | some e =>
      have hl := lookup_of_searchByRandomMac ht he
      have hbase := ht.base e (mem_entries_of_searchByRandomMac he)
      constructor
      · rintro rfl
        exact hl
      · intro hlb
        obtain ⟨hS, hd⟩ := (h _ _ hl).resolve_left (hbase.ne_localUnicast hlocal).symm
        obtain ⟨hS', hd'⟩ := (h _ _ hlb).resolve_left hne
        exact hdist _ _ hS hS' (hd.symm.trans hd')

/-- An address is led to the base address of another one only if it has been derived for both. -/
theorem OfPeriod.rxMac_eq_or (h : OfPeriod sha1 ptk S r t) (ht : MacTableInv Universal t)
    (hb : ¬LocalUnicast b) (hmac : Stands sha1 ptk b mac) : rxMac t mac = b ∨ rxMac t mac = mac ∨
      S (rxMac t mac) ∧ mac = derivedMac sha1 ptk (rxMac t mac) r ∧ ∃ q, mac = derivedMac sha1 ptk b q := by
  rw [rxMac]
  cases he : searchByRandomMac t mac with
  | none => exact .inr (.inl rfl)
  | some e =>
    rcases h _ _ (lookup_of_searchByRandomMac ht he) with hbase | ⟨hS, hd⟩
    · exact .inr (.inl hbase.symm)
    · rcases hmac with rfl | hmac
      · exact absurd (hd ▸ localUnicast_derivedMac) hb
      · exact .inr (.inr ⟨hS, hd, hmac⟩)

/-! ### The parties -/

theorem SameConfig.whichInstance (h : SameConfig s s') : whichInstance s' = whichInstance s := by
  have htype (i : SdataId) : (s'.sdata i).type = (s.sdata i).type :=
    (congrArg SubIfData.type (h.sdata i) :)
  simp only [Mac80211.whichInstance, h.interfaces, htype]

theorem SameConfig.ptkOf (h : SameConfig s s') (j : StaId) : s'.ptkOf j = s.ptkOf j :=
  (congrArg (fun t => t.ptk t.ptkIdx) (h.sta j) :)

theorem SameConfig.key (h : SameConfig s s') (k : KeyId) : (s'.keys k).key = (s.keys k).key :=
  (congrArg Key.key (h.keys k) :)

theorem ApSetup.of_sameConfig (h : ApSetup ptk S s) (hc : SameConfig s s') : ApSetup ptk S s' := by
  have haddr (j : StaId) : (s'.sta j).addr = (s.sta j).addr := (congrArg StaInfo.addr (hc.sta j) :)
  refine ⟨hc.whichInstance.trans h.inst, fun b => ?_, fun j hj k hk => ?_⟩
  · simp only [hc.staList, haddr]
    exact h.listed b
  · rw [hc.key, haddr]
    exact h.keys j (hc.staList ▸ hj) k (hc.ptkOf j ▸ hk)

theorem StaSetup.of_sameConfig (h : StaSetup ptk own s) (hc : SameConfig s s') : StaSetup ptk own s' := by
  refine ⟨hc.whichInstance.trans h.inst, fun i hi => ?_, fun j k hk => ?_⟩
  · exact ((congrArg SubIfData.addr (hc.sdata i) :)).trans (h.addr i (hc.interfaces ▸ hi))
  · rw [hc.key]
    exact h.keys j k (hc.ptkOf j ▸ hk)

theorem type_of_whichInstance {i : SdataId} (hi : i ∈ s.interfaces) :
    (whichInstance s = .ap → (s.sdata i).type ≠ .station) ∧
      (whichInstance s = .sta → (s.sdata i).type ≠ .ap) := by
  have hany (ty : IfType) (h : (s.sdata i).type = ty) :
      (s.interfaces.any fun i => (s.sdata i).type = ty) = true :=
    List.any_eq_true.2 ⟨i, hi, decide_eq_true h⟩
  simp only [whichInstance]
  constructor
  · intro h htype
    rw [hany _ htype] at h
    split_ifs at h
    simp_all
  · intro h htype
    rw [hany _ htype] at h
    split_ifs at h
    simp_all

/-- What a party can do. -/
theorem partyStep_cases {e : PartyEvent} {o : List (Hdr × Hdr)} (h : partyStep sha1 s e = some (s', o)) :
    (∃ n, s' = s.advance n ∧ o = []) ∨
    (∃ env ok sta vif hdr, e = .send env ok sta vif hdr ∧ handleRandomMac sha1 env ok sta s = some s' ∧
      o = [(hdr, macAddrChangeHdrTx s' vif hdr)]) ∨
    ∃ env hdr h', e = .receive env hdr ∧ macAddrChangeHdrRx sha1 env s hdr = some (s', h') ∧ o = [] := by
  cases e with
  | tick n =>
    cases h
    exact .inl ⟨n, rfl, rfl⟩
  | send env ok sta vif hdr =>
    obtain ⟨s₁, hs, heq⟩ := map_eq_some_iff.1 h
    cases heq
    exact .inr (.inl ⟨env, ok, sta, vif, hdr, rfl, hs, rfl⟩)
  | receive env hdr =>
    obtain ⟨⟨s₁, h'⟩, hs, heq⟩ := map_eq_some_iff.1 h
    cases heq
    exact .inr (.inr ⟨env, hdr, h', rfl, hs, rfl⟩)

theorem setup_partyStep {e : PartyEvent} {o : List (Hdr × Hdr)} (h : partyStep sha1 s e = some (s', o))
    (ht : TablesInv Universal s) : SameConfig s s' ∧ TablesInv Universal s' := by
  have hw : Writes sha1 s s' := by
    obtain ⟨n, rfl, -⟩ | ⟨env, ok, sta, vif, hdr, -, hs, -⟩ | ⟨env, hdr, h', -, hs, -⟩ := partyStep_cases h
    · exact .single (.advance s n)
    · exact (writes_handleRandomMac hs).writes
    · exact (writes_macAddrChangeHdrRx hs).writes
  have hdoes : Does sha1 .txFrags s s' := hw.does
  exact ⟨hw.sameConfig, ht.does hdoes⟩

theorem OfPeriod.insertEntry [NeZero n] {ok : Bool} (h : OfPeriod sha1 ptk S r t) (hb : lookup t b = none) :
    OfPeriod sha1 ptk S r (insertEntry ok t b b) := by
  intro b' mac hl
  rcases lookup_insertEntry_cases hb hl with ⟨hb', hm⟩ | hl
  · exact .inl (hm.trans hb'.symm)
  · exact h b' mac hl

/-- `handle_random_mac` changes no table, inserts an entry, or rotates, on the side of the interface. -/
theorem handleRandomMac_cases {ok : Bool} {sta : Option StaId}
    (h : handleRandomMac sha1 env ok sta s = some s') :
    s'.translationTable = s.translationTable ∧ s'.sTranslationTable = s.sTranslationTable ∨
    ∃ j ∈ sta, (s.sdataOf j).type = .ap ∧ (lookup s.translationTable (s.sta j).addr = none ∧
        s'.translationTable = insertEntry ok s.translationTable (s.sta j).addr (s.sta j).addr ∨
      ∃ s₁ tp, generateMacAddApAll sha1 env tp s = some s₁ ∧ s'.translationTable = s₁.translationTable) ∨
    (s.sdataOf j).type = .station ∧ (lookup s.sTranslationTable (s.sdataOf j).addr = none ∧
        s'.sTranslationTable = insertEntry ok s.sTranslationTable (s.sdataOf j).addr (s.sdataOf j).addr ∨
      ∃ s₁ tp, generateMacAddSta sha1 env tp j s = some s₁ ∧ s'.sTranslationTable = s₁.sTranslationTable) := by
  cases sta with
  | none =>
    cases h
    exact .inl ⟨rfl, rfl⟩
  | some j =>
    rw [handleRandomMac] at h
    split at h
    · split at h
      · rename_i htype
        rw [handleRandomMacAp] at h
        split at h
        · rename_i hnone
          cases h
          exact .inr ⟨j, rfl, .inl ⟨htype, .inl ⟨lookup_eq_none_iff.2 hnone, rfl⟩⟩⟩
        · split at h
          · obtain ⟨s₁, hgen, rfl⟩ := map_eq_some_iff.1 h
            exact .inr ⟨j, rfl, .inl ⟨htype, .inr ⟨s₁, _, hgen, rfl⟩⟩⟩
          · cases h
            exact .inl ⟨rfl, rfl⟩
      · rename_i htype
        rw [handleRandomMacSta] at h
        split at h
        · rename_i hnone
          cases h
          exact .inr ⟨j, rfl, .inr ⟨htype, .inl ⟨lookup_eq_none_iff.2 hnone, rfl⟩⟩⟩
        · split at h
          · obtain ⟨s₁, hgen, rfl⟩ := map_eq_some_iff.1 h
            exact .inr ⟨j, rfl, .inr ⟨htype, .inr ⟨s₁, _, hgen, rfl⟩⟩⟩
          · cases h
            exact .inl ⟨rfl, rfl⟩
      · cases h
        exact .inl ⟨rfl, rfl⟩
    · cases h
      exact .inl ⟨rfl, rfl⟩

theorem ApSide.step (hptk : ∀ b, (ptk b).length = 16) {e : PartyEvent} {o : List (Hdr × Hdr)}
    (h : ApSide sha1 ptk S s) (hok : e.Ok s) (hs : partyStep sha1 s e = some (s', o)) :
    ApSide sha1 ptk S s' := by
  obtain ⟨hc, ht⟩ := setup_partyStep hs h.tables
  refine ⟨h.setup.of_sameConfig hc, ht, ?_⟩
  obtain ⟨n, rfl, -⟩ | ⟨env, ok, sta, vif, hdr, rfl, hs, -⟩ | ⟨env, hdr, h', rfl, hs, -⟩ := partyStep_cases hs
  · exact h.period
  · obtain ⟨hjunk, -, hsta⟩ := hok
    rcases handleRandomMac_cases hs with
      ⟨ht, -⟩ | ⟨j, hj, ⟨-, ⟨hnone, ht⟩ | ⟨s₂, tp, hgen, ht⟩⟩ | ⟨htype, -⟩⟩
    · rw [ht]
      exact h.period
    · rw [ht]
      exact h.period.imp fun r hr => hr.insertEntry hnone
    · rw [ht]
      exact ofPeriod_generateMacAddApAll hptk h.setup h.period hjunk hgen
    · exact absurd htype ((type_of_whichInstance (hsta j hj)).1 h.setup.inst)
  · rw [macAddrChangeHdrRx, h.setup.inst] at hs
    obtain ⟨s₂, hrot, heq⟩ := map_eq_some_iff.1 hs
    cases heq
    rw [rxRotate] at hrot
    split at hrot
    · cases hrot
      exact h.period
    · split at hrot
      · obtain ⟨s₃, hgen, rfl⟩ := map_eq_some_iff.1 hrot
        have hp := ofPeriod_generateMacAddApAll hptk h.setup h.period hok hgen
        exact hp
      · cases hrot
        exact h.period

/-- A station rotates one address only. -/
theorem ofPeriod_generateMacAddSta (hptk : ∀ b, (ptk b).length = 16) (h : StaSetup ptk own s) {j : StaId}
    (hj : (s.sta j).sdata ∈ s.interfaces) (hr : ∃ r, OfPeriod sha1 ptk (· = own) r s.sTranslationTable)
    (hjunk : HASH_INPUT_LEN ≤ env.junk.length) (hgen : generateMacAddSta sha1 env tp j s = some s') :
    ∃ r, OfPeriod sha1 ptk (· = own) r s'.sTranslationTable := by
  by_cases halloc : env.alloc = true
  · cases hk : s.ptkOf j with
    | none =>
      rw [generateMacAddSta, if_pos halloc] at hgen
      simp only [hk] at hgen
      cases hgen
    | some k =>
      have haddr : (s.sdataOf j).addr = own := h.addr _ hj
      have hkey := h.keys j k hk
      obtain ⟨r, hr⟩ := hr
      refine ⟨tp, fun b mac hl => ?_⟩
      rw [table_generateMacAddSta halloc hk hgen, haddr,
        staMac_eq_derivedMac hkey (hkey ▸ hptk own) hjunk, lookup_sUpdateEntryByBase] at hl
      split at hl
      · rename_i hb
        obtain ⟨-, -, rfl⟩ := map_eq_some_iff.1 hl
        exact .inr ⟨hb, hb ▸ rfl⟩
      · rename_i hb
        exact .inl ((hr b mac hl).resolve_right fun hc => hb hc.1)
  · rw [generateMacAddSta, if_neg halloc] at hgen
    cases hgen
    exact hr

theorem StaSide.step (hptk : ∀ b, (ptk b).length = 16) {e : PartyEvent} {o : List (Hdr × Hdr)}
    (h : StaSide sha1 ptk own s) (hok : e.Ok s) (hs : partyStep sha1 s e = some (s', o)) :
    StaSide sha1 ptk own s' := by
  obtain ⟨hc, ht⟩ := setup_partyStep hs h.tables
  refine ⟨h.setup.of_sameConfig hc, ht, ?_⟩
  obtain ⟨n, rfl, -⟩ | ⟨env, ok, sta, vif, hdr, rfl, hs, -⟩ | ⟨env, hdr, h', rfl, hs, -⟩ := partyStep_cases hs
  · exact h.period
  · obtain ⟨hjunk, -, hsta⟩ := hok
    rcases handleRandomMac_cases hs with
      ⟨-, ht⟩ | ⟨j, hj, ⟨htype, -⟩ | ⟨-, ⟨hnone, ht⟩ | ⟨s₂, tp, hgen, ht⟩⟩⟩
    · rw [ht]
      exact h.period
    · exact absurd htype ((type_of_whichInstance (hsta j hj)).2 h.setup.inst)
    · rw [ht]
      exact h.period.imp fun r hr => hr.insertEntry hnone
    · rw [ht]
      exact ofPeriod_generateMacAddSta hptk h.setup (hsta j hj) h.period hjunk hgen
  · rw [macAddrChangeHdrRx, h.setup.inst] at hs
    cases hs
    exact h.period

/-- Whatever a party sends, each address stands for the one it was. -/
theorem stands_outMac {vif : SdataId} (hvif : vif ∈ s.interfaces) (a : Mac)
    (h : ApSide sha1 ptk S s ∨ StaSide sha1 ptk own s) : Stands sha1 ptk a (outMac s vif a) := by
  rw [outMac]
  split
  · rename_i htype
    rcases h with h | h
    · exact absurd htype ((type_of_whichInstance hvif).1 h.setup.inst)
    · exact h.period.elim fun r hr => hr.stands a
  · rename_i htype
    rcases h with h | h
    · exact h.period.elim fun r hr => hr.stands a
    · exact absurd htype ((type_of_whichInstance hvif).2 h.setup.inst)
  · exact .inl rfl

theorem stands_of_mem_partyStep {e : PartyEvent} {o : List (Hdr × Hdr)} {f : Hdr × Hdr} (hok : e.Ok s)
    (hs : partyStep sha1 s e = some (s', o)) (h : ApSide sha1 ptk S s' ∨ StaSide sha1 ptk own s')
    (hf : f ∈ o) : OnAir sha1 ptk f := by
  obtain ⟨n, -, rfl⟩ | ⟨env, ok, sta, vif, hdr, rfl, hsend, rfl⟩ | ⟨env, hdr, h', -, -, rfl⟩ := partyStep_cases hs
  · cases hf
  · obtain rfl := List.mem_singleton.1 hf
    have hvif : vif ∈ s'.interfaces := (writes_handleRandomMac hsend).writes.sameConfig.interfaces ▸ hok.2.1
    rw [OnAir, macAddrChangeHdrTx_eq, Hdr.mapAddrs_addr1, Hdr.mapAddrs_addr2]
    exact ⟨stands_outMac hvif _ h, stands_outMac hvif _ h⟩
  · cases hf

/-! ### Every run -/

section

variable {ι : Type} [DecidableEq ι] {own : ι → Mac} {N N₀ : Net ι} {os : List (Hdr × Hdr)}

theorem netInv_of_reach (hptk : ∀ b, (ptk b).length = 16) (hstart : N₀.Starts ptk S own)
    (hr : Reach (netStep sha1) (fun N _ e => e.2.Ok (N e.1)) N₀ N os) :
    NetInv sha1 ptk S own N os := by
  refine hr.invariant (NetInv sha1 ptk S own) ?_ ?_
  · have htables (p : Option ι) : TablesInv Universal (N₀ p) := by
      obtain ⟨ht, hs⟩ := hstart.empty p
      obtain ⟨hsta, hsdata⟩ := hstart.universal p
      exact ⟨hsta, hsdata, ht ▸ macTableInv_empty, hs ▸ macTableInv_empty⟩
    refine ⟨⟨hstart.ap, htables none, 0, fun b mac hl => ?_⟩,
      fun i => ⟨hstart.sta i, htables (some i), 0, fun b mac hl => ?_⟩, fun f hf => absurd hf List.not_mem_nil⟩
    · rw [(hstart.empty none).1, lookup_empty] at hl
      cases hl
    · rw [(hstart.empty (some i)).2, lookup_empty] at hl
      cases hl
  · rintro N os ⟨p, e⟩ N' o h hok hs
    obtain ⟨⟨s', o'⟩, hs', heq⟩ := map_eq_some_iff.1 hs
    cases heq
    have hair (h' : ∀ f ∈ o', OnAir sha1 ptk f) : ∀ f ∈ os ++ o', OnAir sha1 ptk f :=
      fun f hf => (List.mem_append.1 hf).elim (h.air f) (h' f)
    cases p with
    | none =>
      have hap := h.ap.step hptk hok hs'
      refine ⟨?_, fun i => ?_, hair fun f hf => ?_⟩
      · simpa using hap
      · simpa using h.sta i
      · have hside : ApSide sha1 ptk S s' ∨ StaSide sha1 ptk (Vector.replicate 6 0) s' := .inl hap
        exact stands_of_mem_partyStep hok hs' hside hf
    | some i =>
      have hsta := (h.sta i).step hptk hok hs'
      refine ⟨?_, fun i' => ?_, hair fun f hf => ?_⟩
      · simpa using h.ap
      · by_cases hi : i' = i
        · subst hi
          simpa using hsta
        · simpa [hi] using h.sta i'
      · have hside : ApSide sha1 ptk (fun _ => True) s' ∨ StaSide sha1 ptk (own i) s' := .inr hsta
        exact stands_of_mem_partyStep hok hs' hside hf

/-! ### Two parties -/

/-- A device with one interface, one peer and one key. -/
def toyParty (type : IfType) (addr peer : Mac) : Local where
  interfaces := [0]
  sdata _ := { type := type, addr := addr }
  staList := [0]
  sta _ := { addr := peer, sdata := 0, staState := .authorized, ptk := fun _ => some 0, ptkIdx := 0 }
  keys _ := { cipher := .ccmp, key := List.replicate 16 7 }

/-- An access point with one station, and the station. -/
def toyNet : Net Unit
  | none => toyParty .ap (toyMac 1) (toyMac 3)
  | some _ => toyParty .station (toyMac 3) (toyMac 1)

theorem starts_toyNet : toyNet.Starts (fun _ => List.replicate 16 7) (· = toyMac 3) fun _ => toyMac 3 where
  ap := ⟨by decide, fun b => by simp [toyNet, toyParty, eq_comm], fun _ _ _ _ => rfl⟩
  sta _ := ⟨rfl, fun _ _ => rfl, fun _ _ _ => rfl⟩
  universal p := by
    have hmac : Universal (toyMac 1) ∧ Universal (toyMac 3) := by decide
    cases p
    · exact ⟨fun _ => hmac.2, fun _ => hmac.1⟩
    · exact ⟨fun _ => hmac.1, fun _ => hmac.2⟩
  empty p := by
    cases p
    · exact ⟨rfl, rfl⟩
    · exact ⟨rfl, rfl⟩

/-- The frame of a party. -/
def toyFrame : Option Unit → Hdr
  | none => (dataTo (toyMac 3) (toyMac 1) (toyMac 1)).hdr
  | some _ => (dataTo (toyMac 1) (toyMac 3) (toyMac 1)).hdr

/-- Both send in period 0 and in period 1. -/
def toyEvents : List (Option Unit × PartyEvent) :=
  [none, some ()].flatMap fun p => [(p, .send {} true (some 0) 0 (toyFrame p)), (p, .tick 15),
    (p, .send {} true (some 0) 0 (toyFrame p))]

/-- The address of the station in period 1. -/
def toyRandomMac : Mac := #v[2, 1, 0, 0, 0, 3]

/-- The frame on the air in period 1. -/
def toyOnAir : Option Unit → Hdr
  | none => { toyFrame none with addr1 := toyRandomMac }
  | some u => { toyFrame (some u) with addr2 := toyRandomMac }

/-- What the run ends with. -/
def toyEnd : Net Unit × List (Hdr × Hdr) := (run (netStep toyHash) toyNet toyEvents).getD (toyNet, [])

theorem reach_toyEnd : Reach (netStep toyHash) (fun N _ e => e.2.Ok (N e.1)) toyNet toyEnd.1 toyEnd.2 := by
  have hmeets : Meets (netStep toyHash) (fun N _ e => e.2.Ok (N e.1)) toyNet [] toyEvents := by
    decide +kernel
  have hrun : (run (netStep toyHash) toyNet toyEvents).isSome = true := by
    decide +kernel
  obtain ⟨r, hr⟩ := isSome_iff_exists.1 hrun
  rw [toyEnd, hr]
  exact Reach.of_run .init hmeets hr

/-- The frames on the air, what is received, and the table of the station. -/
theorem toyEnd_spec :
    ((toyFrame none, toyOnAir none) ∈ toyEnd.2 ∧ (toyFrame (some ()), toyOnAir (some ())) ∈ toyEnd.2) ∧
    (macAddrChangeHdrRx toyHash {} (toyEnd.1 none) (toyOnAir (some ()))).map
      (fun r => lookup r.1.translationTable (toyMac 3)) = some (some toyRandomMac) ∧
    (macAddrChangeHdrRx toyHash {} (toyEnd.1 (some ())) (toyOnAir none)).map (fun r => r.2.addr1) =
      some (toyMac 3) ∧
    lookup (toyEnd.1 (some ())).sTranslationTable (toyMac 3) = some toyRandomMac := by
  decide +kernel

theorem mem_toyEnd (p : Option Unit) : (toyFrame p, toyOnAir p) ∈ toyEnd.2 := by
  cases p
  · exact toyEnd_spec.1.1
  · exact toyEnd_spec.1.2

theorem ap_toyEnd : ∃ a h', macAddrChangeHdrRx toyHash {} (toyEnd.1 none) (toyOnAir (some ())) = some (a, h') ∧
    lookup a.translationTable (toyMac 3) = some toyRandomMac := by
  obtain ⟨⟨a, h'⟩, hrx, hl⟩ := map_eq_some_iff.1 toyEnd_spec.2.1
  exact ⟨a, h', hrx, hl⟩

theorem sta_toyEnd : ∃ s' h', macAddrChangeHdrRx toyHash {} (toyEnd.1 (some ())) (toyOnAir none) = some (s', h') ∧
    h'.addr1 = toyMac 3 := by
  obtain ⟨⟨s', h'⟩, hrx, hmac⟩ := map_eq_some_iff.1 toyEnd_spec.2.2.1
  exact ⟨s', h', hrx, hmac⟩

variable (hptk : ∀ b, (ptk b).length = 16) (hstart : N₀.Starts ptk S own)
  (hr : Reach (netStep sha1) (fun N _ e => e.2.Ok (N e.1)) N₀ N os) {f : Hdr × Hdr} (hf : f ∈ os)

/-! ### What an access point receives -/

section

variable {env : GenEnv} (hjunk : HASH_INPUT_LEN ≤ env.junk.length) {a : Local} {h' : Hdr}
  (hrx : macAddrChangeHdrRx sha1 env (N none) f.2 = some (a, h'))

include hptk hstart hr hf hjunk hrx in
theorem addr2_received : h'.addr2 = rxMac a.translationTable f.2.addr2 ∧
    MacTableInv Universal a.translationTable ∧ Stands sha1 ptk f.1.addr2 f.2.addr2 ∧
      ∃ r, OfPeriod sha1 ptk S r a.translationTable := by
  have hN := netInv_of_reach hptk hstart hr
  have hstep : partyStep sha1 (N none) (.receive env f.2) = some (a, []) := by
    rw [partyStep, hrx]
    rfl
  obtain ⟨-, htables, hperiod⟩ := hN.ap.step hptk (e := .receive env f.2) hjunk hstep
  refine ⟨?_, htables.translation, (hN.air f hf).2, hperiod⟩
  rw [macAddrChangeHdrRx, hN.ap.setup.inst] at hrx
  obtain ⟨s', -, heq⟩ := map_eq_some_iff.1 hrx
  cases heq
  exact Hdr.mapAddrs_addr2 ..

include hptk hstart hr hf hjunk hrx in
/-- **When an access point knows who has sent a frame.** All it has derived is of one period. Unless
two stations share an address then, the transmitter gets its base address back just if the frame was
sent under it, or under the address that the table has for it. -/
theorem uplink_restored_iff (hb : Universal f.1.addr2) :
    Stands sha1 ptk f.1.addr2 f.2.addr2 ∧ ∃ r, OfPeriod sha1 ptk S r a.translationTable ∧
      ((∀ b b', S b → S b' → derivedMac sha1 ptk b r = derivedMac sha1 ptk b' r → b = b') →
        (h'.addr2 = f.1.addr2 ↔
          f.2.addr2 = f.1.addr2 ∨ lookup a.translationTable f.1.addr2 = some f.2.addr2)) := by
  obtain ⟨heq, ht, hstands, r, hperiod⟩ := addr2_received hptk hstart hr hf hjunk hrx
  rw [heq]
  exact ⟨hstands, r, hperiod, fun hdist => hperiod.rxMac_eq_iff ht hdist hb hstands⟩

/-- A frame of the station, after both have rotated. -/
theorem uplink_restored_iff_rotated : ∃ (a : Local) (h' : Hdr), macAddrChangeHdrRx toyHash {}
    (toyEnd.1 none) (toyOnAir (some ())) = some (a, h') ∧ h'.addr2 = toyMac 3 := by
  obtain ⟨a, h', hrx, hl⟩ := ap_toyEnd
  obtain ⟨-, r, -, hiff⟩ := uplink_restored_iff (fun _ => rfl) starts_toyNet reach_toyEnd (mem_toyEnd (some ()))
    (by decide) hrx (by decide)
  exact ⟨a, h', hrx, (hiff fun b b' hb hb' _ => hb.trans hb'.symm).2 (.inr hl)⟩

include hptk hstart hr hf hjunk hrx in
/-- **Whom an access point takes a frame for**: the transmitter, or what is there; another station
only if the address on the air is derived for this one too. -/
theorem uplink_attributed (hb : ¬LocalUnicast f.1.addr2) :
    ∃ r, OfPeriod sha1 ptk S r a.translationTable ∧ (h'.addr2 = f.1.addr2 ∨ h'.addr2 = f.2.addr2 ∨
      S h'.addr2 ∧ f.2.addr2 = derivedMac sha1 ptk h'.addr2 r ∧
        ∃ q, f.2.addr2 = derivedMac sha1 ptk f.1.addr2 q) := by
  obtain ⟨heq, ht, hstands, r, hperiod⟩ := addr2_received hptk hstart hr hf hjunk hrx
  rw [heq]
  exact ⟨r, hperiod, hperiod.rxMac_eq_or ht hb hstands⟩

/-- There is no other station. -/
theorem uplink_attributed_rotated : ∃ (a : Local) (h' : Hdr), macAddrChangeHdrRx toyHash {}
    (toyEnd.1 none) (toyOnAir (some ())) = some (a, h') ∧ (h'.addr2 = toyMac 3 ∨ h'.addr2 = toyRandomMac) := by
  obtain ⟨a, h', hrx, -⟩ := ap_toyEnd
  obtain ⟨r, -, hmac | hmac | ⟨hS, -⟩⟩ := uplink_attributed (fun _ => rfl) starts_toyNet reach_toyEnd
    (mem_toyEnd (some ())) (by decide) hrx (by decide)
  · exact ⟨a, h', hrx, .inl hmac⟩
  · exact ⟨a, h', hrx, .inr hmac⟩
  · exact ⟨a, h', hrx, .inl hS⟩

end

/-! ### What a station receives -/

section

variable {i : ι} {env : GenEnv} {s' : Local} {h' : Hdr}
  (hrx : macAddrChangeHdrRx sha1 env (N (some i)) f.2 = some (s', h'))

include hptk hstart hr hf hrx in
theorem addr1_received :
    h'.addr1 = rxMac (N (some i)).sTranslationTable f.2.addr1 ∧ Stands sha1 ptk f.1.addr1 f.2.addr1 := by
  have hN := netInv_of_reach hptk hstart hr
  refine ⟨?_, (hN.air f hf).1⟩
  rw [macAddrChangeHdrRx, (hN.sta i).setup.inst] at hrx
  cases hrx
  exact Hdr.mapAddrs_addr1 ..

include hptk hstart hr hf hrx in
/-- **When a station knows that a frame is for it**: just if it was sent to its base address, or to
the one that its own table has for it. -/
theorem downlink_restored_iff (hb : f.1.addr1 = own i) (huniv : Universal (own i)) :
    Stands sha1 ptk (own i) f.2.addr1 ∧ (h'.addr1 = own i ↔
      f.2.addr1 = own i ∨ lookup (N (some i)).sTranslationTable (own i) = some f.2.addr1) := by
  obtain ⟨-, htables, r, hperiod⟩ := (netInv_of_reach hptk hstart hr).sta i
  obtain ⟨heq, hstands⟩ := addr1_received hptk hstart hr hf hrx
  rw [hb] at hstands
  rw [heq]
  exact ⟨hstands, hperiod.rxMac_eq_iff htables.sTranslation (fun b b' hb hb' _ => hb.trans hb'.symm) huniv
    hstands⟩

/-- A frame to the station, after both have rotated. -/
theorem downlink_restored_iff_rotated : ∃ (s' : Local) (h' : Hdr), macAddrChangeHdrRx toyHash {}
    (toyEnd.1 (some ())) (toyOnAir none) = some (s', h') ∧ h'.addr1 = toyMac 3 := by
  obtain ⟨s', h', hrx, -⟩ := sta_toyEnd
  have hl : lookup (toyEnd.1 (some ())).sTranslationTable (toyMac 3) = some toyRandomMac := toyEnd_spec.2.2.2
  exact ⟨s', h', hrx, (downlink_restored_iff (fun _ => rfl) starts_toyNet reach_toyEnd (mem_toyEnd none) hrx rfl
    (by decide)).2.2 (.inr hl)⟩

include hptk hstart hr hf hrx in
/-- **What a station takes for itself**: what was sent to it, or under an address that is derived for it too,
in the period of its table. -/
theorem downlink_accepted (hb : ¬LocalUnicast f.1.addr1) (huniv : Universal (own i)) (hown : h'.addr1 = own i) :
    f.1.addr1 = own i ∨ ∃ r, OfPeriod sha1 ptk (· = own i) r (N (some i)).sTranslationTable ∧
      f.2.addr1 = derivedMac sha1 ptk (own i) r ∧ ∃ q, f.2.addr1 = derivedMac sha1 ptk f.1.addr1 q := by
  obtain ⟨-, htables, r, hperiod⟩ := (netInv_of_reach hptk hstart hr).sta i
  obtain ⟨heq, hstands⟩ := addr1_received hptk hstart hr hf hrx
  have hor := hperiod.rxMac_eq_or htables.sTranslation hb hstands
  rw [← heq, hown] at hor
  rcases hor with hmac | hmac | ⟨-, hd, hq⟩
  · exact .inl hmac.symm
  · rw [← hmac] at hstands
    -- what is derived is not burned in
    rcases hstands with hstands | ⟨q, hq⟩
    · exact .inl hstands.symm
    · exact absurd hq (huniv.ne_localUnicast localUnicast_derivedMac)
  · exact .inr ⟨r, hperiod, hd, hq⟩

theorem downlink_accepted_rotated : ∃ (s' : Local) (h' : Hdr), macAddrChangeHdrRx toyHash {}
    (toyEnd.1 (some ())) (toyOnAir none) = some (s', h') ∧ ((toyFrame none).addr1 = toyMac 3 ∨
      ∃ r, (toyOnAir none).addr1 = derivedMac toyHash (fun _ => List.replicate 16 7) (toyMac 3) r) := by
  obtain ⟨s', h', hrx, hmac⟩ := sta_toyEnd
  exact ⟨s', h', hrx, (downlink_accepted (fun _ => rfl) starts_toyNet reach_toyEnd (mem_toyEnd none) hrx
    (by decide) (by decide) hmac).imp_right fun ⟨r, _, hd, _⟩ => ⟨r, hd⟩⟩

end

end

end Mac80211
