import Mac80211.Randomizer.Entries

/-!
# Rewriting there and back

`mac_addr_change_hdr_tx` looks up base addresses, `mac_addr_change_hdr_rx` random ones. On one table
the second undoes the first if no two entries have the same random address, and an address without
entry is not the random one of somebody else.

## Main results

* `macAddrChangeHdrRx_macAddrChangeHdrTx`
-/

namespace Mac80211

open Buckets

variable {n : ℕ} {t : MacTable n} {a : Mac}

/-- Distinct entries have distinct random addresses. -/
def DistinctRandom (t : MacTable n) : Prop := (t.entries.map MacEntry.randomMac).Nodup

/-- No entry of somebody else has this random address. -/
def NotTaken (t : MacTable n) (a : Mac) : Prop := ∀ e ∈ t.entries, e.randomMac = a → e.baseMac = a

theorem DistinctRandom.searchByRandomMac (h : DistinctRandom t) {e : MacEntry} (he : e ∈ t.entries) :
    searchByRandomMac t e.randomMac = some e := by
  rw [Mac80211.searchByRandomMac, Table.find?_eq]
  exact (find?_key_eq_some_iff h).mpr ⟨he, rfl⟩

theorem rxMac_txMac (h : DistinctRandom t) (ha : NotTaken t a) : rxMac t (txMac t a) = a := by
  rw [txMac]
  split
  · rename_i e he
    rw [rxMac, h.searchByRandomMac (mem_entries_of_searchByBaseMac he)]
    exact baseMac_of_searchByBaseMac he
  · rw [rxMac]
    split
    · rename_i e he
      exact ha e (mem_entries_of_searchByRandomMac he) (randomMac_of_searchByRandomMac he)
    · rfl

/-- The table can be used in both directions on this header. -/
structure Undoable (t : MacTable n) (h : Hdr) : Prop where
  distinct : DistinctRandom t
  addr1 : NotTaken t h.addr1
  addr2 : NotTaken t h.addr2
  addr3 : NotTaken t h.addr3
  addr4 : ∀ a ∈ h.addr4?, NotTaken t a

theorem Undoable.mapAddrs_mapAddrs {h : Hdr} (hu : Undoable t h) :
    (h.mapAddrs (txMac t)).mapAddrs (rxMac t) = h := by
  have hback {a : Mac} (ha : NotTaken t a) : rxMac t (txMac t a) = a := rxMac_txMac hu.distinct ha
  rw [Hdr.mapAddrs_mapAddrs]
  refine Hdr.ext ?_ ?_ ?_ ?_ ?_ ?_ ?_
  · exact Hdr.mapAddrs_frameControl _ h
  · exact Hdr.mapAddrs_durationId _ h
  · exact (Hdr.mapAddrs_addr1 _ h).trans (hback hu.addr1)
  · exact (Hdr.mapAddrs_addr2 _ h).trans (hback hu.addr2)
  · exact (Hdr.mapAddrs_addr3 _ h).trans (hback hu.addr3)
  · exact Hdr.mapAddrs_seqCtrl _ h
  · cases ha : h.addr4? with
    | none => exact Hdr.rest_mapAddrs_of_lt _ h (Hdr.addr4?_eq_none_iff.mp ha)
    | some a =>
      obtain ⟨tail, hr⟩ := Hdr.addr4?_eq_some_iff.mp ha
      rw [Hdr.rest_mapAddrs _ h hr, hback (hu.addr4 a ha), hr]

/-! ### The device -/

/-- What `which_instance` says of a device with interfaces of one type. -/
def instanceOf : IfType → InstanceType
  | .station => .sta
  | .ap => .ap
  | _ => .unknown

/-- **Receiving undoes sending**, if the device is the same kind of instance, no rotation is due,
random addresses are distinct, and no address of the header is that of somebody else. -/
theorem macAddrChangeHdrRx_macAddrChangeHdrTx (sha1 : List UInt8 → Vector UInt8 20) (gen : GenEnv)
    {s : Local} {vif : SdataId} {h : Hdr} (hinst : whichInstance s = instanceOf (s.sdata vif).type)
    (hperiod : ∀ i ∈ getApSdata s, (s.sdata i).startTimePeriod = s.currentTp)
    (hsta : (s.sdata vif).type = .station → Undoable s.sTranslationTable h)
    (hap : (s.sdata vif).type = .ap → Undoable s.translationTable h) :
    macAddrChangeHdrRx sha1 gen s (macAddrChangeHdrTx s vif h) = some (s, h) := by
  have hrotate : rxRotate sha1 gen s = some s := by
    rw [rxRotate]
    split
    · rfl
    · rename_i i hi
      rw [if_neg (not_not.mpr (hperiod i hi).symm)]
  rw [macAddrChangeHdrRx, hinst, macAddrChangeHdrTx]
  cases htype : (s.sdata vif).type with
  | station =>
    simp only [instanceOf]
    rw [(hsta htype).mapAddrs_mapAddrs]
  | ap =>
    simp only [instanceOf]
    rw [hrotate, Option.map_some, (hap htype).mapAddrs_mapAddrs]
  | apVlan | monitor | meshPoint | adhoc | other => rfl

/-- A frame to a station whose address has been replaced. -/
theorem macAddrChangeHdrRx_macAddrChangeHdrTx_rotated : ∃ s,
    macAddrChangeHdrTx s 0 (dataTo (toyMac 3) (toyMac 1) (toyMac 1)).hdr ≠
      (dataTo (toyMac 3) (toyMac 1) (toyMac 1)).hdr ∧
    macAddrChangeHdrRx toyHash {} s
        (macAddrChangeHdrTx s 0 (dataTo (toyMac 3) (toyMac 1) (toyMac 1)).hdr) =
      some (s, (dataTo (toyMac 3) (toyMac 1) (toyMac 1)).hdr) := by
  have hrun : (Machine.run (receiveStep toyHash toyCrypto) (bootLocal {}) rotatedStation).map
      (fun r => (whichInstance r.1, (r.1.sdata 0).type, getApSdata r.1,
        decide ((r.1.sdata 0).startTimePeriod = r.1.currentTp), r.1.translationTable.entries)) =
      some (.ap, .ap, some 0, true, [⟨toyMac 3, #v[2, 1, 0, 0, 0, 3]⟩]) := by
    decide +kernel
  obtain ⟨⟨s, os⟩, -, hs⟩ := Option.map_eq_some_iff.mp hrun
  simp only [Prod.mk.injEq] at hs
  obtain ⟨hinst, htype, hgetAp, hperiod, hentries⟩ := hs
  have htx : macAddrChangeHdrTx s 0 (dataTo (toyMac 3) (toyMac 1) (toyMac 1)).hdr ≠
      (dataTo (toyMac 3) (toyMac 1) (toyMac 1)).hdr := by
    rw [macAddrChangeHdrTx, htype]
    intro heq
    have haddr := congrArg Hdr.addr1 heq
    simp only [Hdr.mapAddrs_addr1, txMac, searchByBaseMac, Table.find?_eq, hentries] at haddr
    exact absurd haddr (by decide +kernel)
  refine ⟨s, htx, macAddrChangeHdrRx_macAddrChangeHdrTx toyHash {} (by rw [hinst, htype]; rfl) ?_ ?_ ?_⟩
  · intro i hi
    rw [hgetAp] at hi
    cases hi
    exact of_decide_eq_true hperiod
  · rw [htype]
    exact fun h => by cases h
  · intro _
    refine ⟨?_, ?_, ?_, ?_, ?_⟩
    · rw [DistinctRandom, hentries]
      decide
    · simp only [NotTaken, hentries]
      decide +kernel
    · simp only [NotTaken, hentries]
      decide +kernel
    · simp only [NotTaken, hentries]
      decide +kernel
    · -- a frame between two stations of one network has no fourth address
      intro a ha
      exact absurd ha (Option.not_mem_none a)

end Mac80211
