import Mac80211.Device
import Mac80211.Tx.DueMac

/-!
# Base addresses on the air

What comes out of `ieee80211_tx_frags` is never an address that would have to be replaced again,
provided the generator does not hit on a base address. What `ieee80211_tx_dequeue` and
`ieee80211_get_buffered_bc` return has the addresses of the frame in the queue.

## Main definitions

* `Clean`, `TakesClean`

## Main results

* `clean_of_handed` — no base address leaves the device
-/

namespace Mac80211

open Machine Relation Option

/-- No address of the frame is one that the interface's table maps to another. -/
def Clean (s : Local) (vif : SdataId) (h : Hdr) : Prop := ∀ a ∈ h.addrs, outMac s vif a = a

instance (s : Local) (vif : SdataId) (h : Hdr) : Decidable (Clean s vif h) :=
  List.decidableBAll _ h.addrs

/-- The generator does not produce this address. -/
def NotGenerated (sha1 : List UInt8 → Vector UInt8 20) (a : Mac) : Prop :=
  ∀ data, macOfHash (sha1 data) ≠ a

theorem notGenerated_of_not_local {sha1 : List UInt8 → Vector UInt8 20} {a : Mac}
    (h : isLocalEtherAddr a = false) : NotGenerated sha1 a := by
  rintro data rfl
  rw [isLocalEtherAddr_macOfHash] at h
  cases h

/-! ### Tables -/

/-- Entries lead from a base address to itself or to a generated address. -/
def GoodTable {n : ℕ} (sha1 : List UInt8 → Vector UInt8 20) (t : MacTable n) : Prop :=
  ∀ b r, lookup t b = some r → NotGenerated sha1 b ∧ (r = b ∨ ∃ data, r = macOfHash (sha1 data))

section Table

variable {sha1 : List UInt8 → Vector UInt8 20} {n : ℕ} {t : MacTable n}

theorem GoodTable.txMac_txMac (h : GoodTable sha1 t) (a : Mac) :
    txMac t (txMac t a) = txMac t a := by
  rw [txMac_eq_lookup t a]
  cases ha : lookup t a with
  | none => rw [getD_none, txMac_eq_lookup, ha, getD_none]
  | some r =>
    rw [getD_some]
    obtain rfl | ⟨data, rfl⟩ := (h a r ha).2
    · rw [txMac_eq_lookup, ha, getD_some]
    · cases hr : lookup t (macOfHash (sha1 data)) with
      | none => rw [txMac_eq_lookup, hr, getD_none]
      | some r' => exact absurd rfl ((h _ r' hr).1 data)

theorem goodTable_empty : GoodTable sha1 (Buckets.Table.empty MacEntry n) := by
  intro b r h
  rw [lookup_empty] at h
  cases h

variable {base : Mac}

theorem GoodTable.insertEntry [NeZero n] (h : GoodTable sha1 t) (ok : Bool)
    (hbase : NotGenerated sha1 base) (hnone : lookup t base = none) :
    GoodTable sha1 (insertEntry ok t base base) := by
  intro b r hl
  rcases lookup_insertEntry_cases hnone hl with ⟨rfl, rfl⟩ | hl
  · exact ⟨hbase, .inl rfl⟩
  · exact h b r hl

theorem GoodTable.updateEntryByBase {t : TranslationTable} (h : GoodTable sha1 t) (ok : Bool)
    (hbase : NotGenerated sha1 base) (data : List UInt8) :
    GoodTable sha1 (updateEntryByBase ok t base (macOfHash (sha1 data))) := by
  intro b r hl
  rcases lookup_updateEntryByBase_cases hl with ⟨rfl, rfl⟩ | hl
  · exact ⟨hbase, .inr ⟨data, rfl⟩⟩
  · exact h b r hl

theorem GoodTable.sUpdateEntryByBase {t : PairTable} (h : GoodTable sha1 t)
    (hbase : NotGenerated sha1 base) (data : List UInt8) :
    GoodTable sha1 (sUpdateEntryByBase t base (macOfHash (sha1 data))) := by
  intro b r hl
  rcases lookup_sUpdateEntryByBase_cases hl with ⟨rfl, rfl⟩ | hl
  · exact ⟨hbase, .inr ⟨data, rfl⟩⟩
  · exact h b r hl

end Table

/-! ### The invariant -/

/-- No base address is a generated one, and the tables keep the two apart. -/
structure AddrInv (sha1 : List UInt8 → Vector UInt8 20) (s : Local) : Prop where
  sta : ∀ j, NotGenerated sha1 (s.sta j).addr
  sdata : ∀ i, NotGenerated sha1 (s.sdata i).addr
  translation : GoodTable sha1 s.translationTable
  sTranslation : GoodTable sha1 s.sTranslationTable

section Invariant

variable {sha1 : List UInt8 → Vector UInt8 20} {C : Crypto} {path : Egress} {s s' : Local}

theorem AddrInv.of_same (h : AddrInv sha1 s) (hc : SameConfig s s')
    (ht : s'.translationTable = s.translationTable)
    (hs : s'.sTranslationTable = s.sTranslationTable) : AddrInv sha1 s' where
  sta j := by
    rw [show (s'.sta j).addr = (s.sta j).addr from (congrArg StaInfo.addr (hc.sta j) :)]
    exact h.sta j
  sdata i := by
    rw [show (s'.sdata i).addr = (s.sdata i).addr from (congrArg SubIfData.addr (hc.sdata i) :)]
    exact h.sdata i
  translation := ht ▸ h.translation
  sTranslation := hs ▸ h.sTranslation

theorem AddrInv.write (hw : Write sha1 s s') (h : AddrInv sha1 s) : AddrInv sha1 s' := by
  cases hw with
  | contact ok j hj =>
    exact ⟨h.sta, h.sdata, h.translation.insertEntry ok (h.sta j) hj, h.sTranslation⟩
  | rotate ok j data =>
    exact ⟨h.sta, h.sdata, h.translation.updateEntryByBase ok (h.sta j) data, h.sTranslation⟩
  | sContact ok j hj =>
    exact ⟨h.sta, h.sdata, h.translation, h.sTranslation.insertEntry ok (h.sdata _) hj⟩
  | sRotate j data =>
    exact ⟨h.sta, h.sdata, h.translation, h.sTranslation.sUpdateEntryByBase (h.sdata _) data⟩
  | sdata i f hf => exact h.of_same (@Write.sdata sha1 s i f hf).sameConfig rfl rfl
  | sta j f hf => exact h.of_same (@Write.sta sha1 s j f hf).sameConfig rfl rfl
  | _ => exact ⟨h.sta, h.sdata, h.translation, h.sTranslation⟩

theorem AddrInv.does (hd : Does sha1 path s s') (h : AddrInv sha1 s) : AddrInv sha1 s' := by
  obtain ⟨s₁, hw, hh⟩ := hd
  have h₁ : AddrInv sha1 s₁ := by
    clear hh
    induction hw with
    | refl => exact h
    | tail _ hw ih => exact ih.write hw
  clear hw
  induction hh with
  | refl => exact h₁
  | tail _ hh ih =>
    cases hh
    all_goals exact ⟨ih.sta, ih.sdata, ih.translation, ih.sTranslation⟩

theorem AddrInv.outMac_outMac (h : AddrInv sha1 s) (vif : SdataId) (a : Mac) :
    outMac s vif (outMac s vif a) = outMac s vif a := by
  simp only [outMac]
  split
  · exact h.sTranslation.txMac_txMac a
  · exact h.translation.txMac_txMac a
  · simp only

end Invariant

/-! ### Frames that were replaced -/

section TxFrags

variable {sha1 : List UInt8 → Vector UInt8 20} {s s' : Local} {path : Egress} {vif : SdataId}
  {sta : Option StaId} {skb : TxSkb}

theorem clean_of_does (hd : Does sha1 .txFrags s s') (hinv : AddrInv sha1 s')
    (hlog : s.log = []) (hmem : .handed path vif sta skb ∈ s'.log) : Clean s' vif skb.hdr := by
  obtain ⟨s₁, hw, hh⟩ := hd
  rcases hh.mem_handed hmem with hmem | ⟨-, hhdr⟩
  · have hold := Writes.mem_handed hw hmem
    rw [hlog] at hold
    cases hold
  · obtain ⟨hdr, heq⟩ := hhdr rfl
    rw [heq]
    intro a ha
    rw [macAddrChangeHdrTx_eq, Hdr.addrs_mapAddrs] at ha
    obtain ⟨b, -, rfl⟩ := List.mem_map.mp ha
    exact hinv.outMac_outMac vif b

end TxFrags

/-! ### Frames that were not -/

/-- No address of a header has another one in the table, or gets one from a rotation that is due for the
station, if `handle_random_mac` runs. -/
def StaysClean (sha1 : List UInt8 → Vector UInt8 20) (env : TxEnv) (s : Local) (vif : SdataId)
    (sta : Option StaId) (runs : Bool) (h : Hdr) : Prop :=
  Clean s vif h ∧ (runs = true → ∀ a ∈ h.addrs, ∀ j ∈ sta, dueMac sha1 env.gen s j vif a = none)

/-- The frame in the queue that an event takes out was built before an address of it was replaced, and
none is replaced on the way. -/
def TakesClean (sha1 : List UInt8 → Vector UInt8 20) (s : Local) : Event → Prop
  | .txDequeue env q n =>
    match s.txqFrags q with
    | skb :: _ => Clean s skb.info.vif skb.hdr
    | [] => ∀ skb, (s.txq q)[n]? = some skb → skb.hdr.HasAddr4 ∧
        StaysClean sha1 env s (egressVif s skb.info.vif) q.sta
          (!skb.info.fastXmit && !skb.info.retransmission) skb.hdr
  | .getBufferedBc env i => ∀ skb, (s.sdata i).bcBuf.head? = some skb → skb.hdr.HasAddr4 ∧
      ∀ sta, txPrepareSta s (if (s.sdata i).type = .ap then skb.info.vif else i) env skb = some sta →
        StaysClean sha1 env s i sta (!skb.info.retransmission) skb.hdr
  | _ => True

section Takes

variable {sha1 : List UInt8 → Vector UInt8 20} {C : Crypto} {env : TxEnv} {s s' : Local}
  {path : Egress} {vif : SdataId} {sta : Option StaId} {skb : TxSkb}

theorem Clean.of_same {s₁ : Local} {h h' : Hdr} (hc : Clean s₁ vif h) (ht : SameTables s₁ s')
    (ha : h.SameAddrs h') (hlong : h.HasAddr4) : Clean s' vif h' := by
  intro a hmem
  rw [ha.addrs_eq hlong] at hmem
  rw [ht.outMac_eq]
  exact hc a hmem

/-- **What stays clean, is clean after `handle_random_mac`.** -/
theorem StaysClean.of_rotates {s₁ : Local} {runs : Bool} {h : Hdr}
    (hclean : StaysClean sha1 env s vif sta runs h) (hrot : Rotates sha1 env sta runs s s₁) :
    Clean s₁ vif h := fun a ha =>
  outMac_of_rotates hrot (hclean.1 a ha) fun hruns => hclean.2 hruns a ha

theorem StaysClean.of_sameDue {runs : Bool} {h : Hdr} (hclean : StaysClean sha1 env s vif sta runs h)
    (hd : SameDue s s') : StaysClean sha1 env s' vif sta runs h := by
  refine ⟨fun a ha => ?_, fun hruns a ha j hj => ?_⟩
  · rw [outMac, hd.translation, hd.sTranslation, (hd.sdata vif).1]
    exact hclean.1 a ha
  · rw [hd.dueMac_eq]
    exact hclean.2 hruns a ha j hj

theorem clean_of_handOver {s₁ s₂ : Local} {i : SdataId} {sta₂ : Option StaId} {h₀ : Hdr}
    {skb₂ : TxSkb} {path₂ : Egress} (h : handOver path₂ s₂ i sta₂ skb₂ = some s')
    (hc : Clean s₁ (egressVif s₁ i) h₀) (ht : SameTables s₁ s₂) (ha : h₀.SameAddrs skb₂.hdr)
    (hlong : h₀.HasAddr4) (hnone : ∀ p, .handed p vif sta skb ∉ s₂.log)
    (hmem : .handed path vif sta skb ∈ s'.log) : Clean s' vif skb.hdr := by
  rcases handOver_cases h with rfl | rfl
  · exact absurd hmem (hnone path)
  · rcases List.mem_cons.mp hmem with heq | hmem
    · obtain ⟨-, rfl, -, rfl⟩ := Logged.handed.inj heq
      have hvif : egressVif s₂ i = egressVif s₁ i := by rw [egressVif, egressVif, ht.vif]
      rw [hvif]
      exact hc.of_same (ht.trans ⟨rfl, rfl, fun _ => rfl, fun _ => rfl⟩) ha hlong
    · exact absurd hmem (hnone path)

theorem clean_of_txDequeue {q : Txq} {n : ℕ} (h : txDequeue sha1 C env q n s = some s')
    (htakes : TakesClean sha1 s (.txDequeue env q n)) (hlog : s.log = [])
    (hmem : .handed path vif sta skb ∈ s'.log) : Clean s' vif skb.hdr := by
  rw [TakesClean] at htakes
  rw [txDequeue] at h
  split at h
  · rename_i skb₀ skbs hfrags
    cases h
    rw [hfrags] at htakes
    rcases List.mem_cons.mp hmem with heq | hmem
    · obtain ⟨-, rfl, -, rfl⟩ := Logged.handed.inj heq
      exact htakes
    · rw [hlog] at hmem
      cases hmem
  · rename_i hfrags
    rw [hfrags] at htakes
    split at h
    · cases h
      rw [hlog] at hmem
      cases hmem
    · rename_i skb₀ hskb₀
      obtain ⟨hlong, hclean⟩ := htakes skb₀ hskb₀
      set s₁ := s.eraseTxq q n with hs₁
      have hlog₁ : s₁.log = [] := hlog
      simp only at h
      split at h
      · obtain rfl := some.inj h
        rw [hlog₁] at hmem
        cases hmem
      · split at h
        · obtain rfl := some.inj h
          rw [hlog₁] at hmem
          cases hmem
        · rename_i tx₂ skb₂ hsel
          obtain ⟨htx, hframe⟩ := txHSelectKey_frame hsel
          have hkey : ∀ k ∈ tx₂.key, s₁.PointsTo k := pointsTo_of_txHSelectKey hsel
          have hvif : tx₂.sdata = skb₀.info.vif := htx.sdata
          have hsta : tx₂.sta = q.sta := htx.sta
          split at h
          · rename_i j hfast hq
            have hc : Clean s₁ (egressVif s₁ skb₀.info.vif) skb₀.hdr := hclean.1
            rw [← hvif] at hc
            refine clean_of_handOver h hc (sameTables_xmitFastFinish s₁ _) ?_ hlong ?_ hmem
            · rw [← hframe.hdr]
              exact sameAddrs_xmitFastFinish s₁
                { skb₂ with info := { skb₂.info with ampdu := env.ampdu } }
            · exact fun _ hold => not_mem_handed_of_writes
                (@writes_xmitFastFinish sha1 _ _ _ _ _ s₁ _ hkey) hlog₁ hold
          · cases h
          · rename_i hfast
            split at h
            · rename_i s₃ skb₃ skbs₃ hlate
              obtain ⟨s₂, hrot, ht, ha⟩ := invokeTxHandlersLate_cases hlate
              have hc : Clean s₂ (egressVif s₂ skb₀.info.vif) skb₀.hdr := by
                have hrot' : Rotates sha1 env q.sta (!skb₀.info.fastXmit && !skb₀.info.retransmission)
                    s₁ s₂ := by
                  rw [show skb₀.info.fastXmit = false from hframe.fastXmit ▸ hfast,
                    ← hframe.retransmission, ← hsta]
                  exact hrot
                rw [egressVif, driverVif_of_rotates hrot]
                have herase : SameDue s s₁ := ⟨rfl, rfl, rfl, rfl, rfl, rfl, fun _ => ⟨rfl, rfl, rfl⟩⟩
                exact (hclean.of_sameDue herase).of_rotates hrot'
              rw [← hvif] at hc
              refine clean_of_handOver h hc
                (ht.trans ⟨rfl, rfl, fun _ => rfl, fun _ => rfl⟩) ?_ hlong ?_ hmem
              · rw [← hframe.hdr]
                exact (ha skb₃ List.mem_cons_self).hdr
              · exact fun _ hold => not_mem_handed_of_writes
                  (writes_invokeTxHandlersLate hkey hlate) hlog₁ hold
            · obtain ⟨⟨s₃, r₃⟩, hlate, rfl⟩ := map_eq_some_iff.mp h
              exact (not_mem_handed_of_writes
                (writes_invokeTxHandlersLate hkey hlate) hlog₁ hmem).elim

theorem txPrepareSta_updBcBuf {i dev : SdataId} {skbs : List TxSkb} {skb₀ : TxSkb}
    (haddr : skb₀.hdr.addr1 = skb.hdr.addr1) (hinfo : skb₀.info = skb.info) :
    txPrepareSta (s.updSdata i fun d => { d with bcBuf := skbs }) dev env skb₀ =
      txPrepareSta s dev env skb := by
  have hsdata (i' : SdataId) : ∃ q, (s.updSdata i fun d => { d with bcBuf := skbs }).sdata i' =
      { s.sdata i' with bcBuf := q } := by
    by_cases hi : i' = i
    · exact ⟨skbs, hi ▸ Local.updSdata_sdata_self s i' _⟩
    · exact ⟨(s.sdata i').bcBuf, Local.updSdata_sdata_of_ne s hi _⟩
  have hbss (i' : SdataId) : ((s.updSdata i fun d => { d with bcBuf := skbs }).sdata i').bss =
      (s.sdata i').bss := by
    obtain ⟨q, hq⟩ := hsdata i'
    rw [hq]
  obtain ⟨q, hq⟩ := hsdata dev
  simp only [txPrepareSta, staInfoGetBss, staInfoGet, Local.sdataOf, hbss, hq, haddr, hinfo]
  rfl

theorem takeBc_cases {i dev : SdataId} {s₁ : Local} {skb₀ : TxSkb} (h : takeBc s i = some (s₁, dev, skb₀)) :
    ∃ skb, (s.sdata i).bcBuf.head? = some skb ∧ skb.hdr.SameAddrs skb₀.hdr ∧ skb₀.info = skb.info ∧
      dev = (if (s.sdata i).type = .ap then skb.info.vif else i) ∧ SameDue s s₁ ∧
      ∀ env, txPrepareSta s₁ dev env skb₀ = txPrepareSta s dev env skb := by
  rw [takeBc] at h
  split at h
  · cases h
  · rename_i skb skbs hbuf
    have hdue : SameDue s (s.updSdata i fun d => { d with bcBuf := skbs }) :=
      sameDue_updSdata fun _ => ⟨rfl, rfl, rfl⟩
    cases h
    refine ⟨skb, by rw [hbuf]; rfl, ?_, ?_, ?_, hdue, fun env => txPrepareSta_updBcBuf ?_ ?_⟩
    · split
      · exact .refl _
      · refine Hdr.sameAddrs_frameControl ?_
        rw [fourAddr, isData, hasA4, or_and_of_disjoint (by decide), or_and_of_disjoint (by decide)]
        rfl
    · split <;> rfl
    · cases skbs <;> rfl
    · split <;> rfl
    · split <;> rfl

theorem txPrepareSta_of_txPrepare {i : SdataId} {tx : TxData} {skb' : TxSkb}
    (h : txPrepare s i none env skb = some (tx, skb')) : txPrepareSta s i env skb = some tx.sta := by
  simp only [txPrepare] at h
  split at h
  · cases h
  · rename_i found hfound
    split at h
    · cases h
    · cases h
      simpa using hfound

theorem clean_of_getBufferedBc {i : SdataId} (h : getBufferedBc sha1 C env i s = some s')
    (htakes : TakesClean sha1 s (.getBufferedBc env i)) (hlog : s.log = [])
    (hmem : .handed path vif sta skb ∈ s'.log) : Clean s' vif skb.hdr := by
  rw [getBufferedBc] at h
  split at h
  · cases h
    rw [hlog] at hmem
    cases hmem
  · split at h
    · cases h
      rw [hlog] at hmem
      cases hmem
    · rename_i s₁ dev skb₀ htake
      obtain ⟨skb₁, hhead, hmore, hinfo, hdev, hdue, hfound⟩ := takeBc_cases htake
      obtain ⟨hlong, hclean⟩ := htakes skb₁ hhead
      have hw₁ : Writes sha1 s s₁ := writes_takeBc htake
      split at h
      · cases h
        exact (not_mem_handed_of_writes hw₁ hlog hmem).elim
      · rename_i tx₁ skb₂ hprep
        obtain ⟨-, -, hskb₁⟩ := txPrepare_frame hprep
        have hsta := (hfound env).symm.trans (txPrepareSta_of_txPrepare hprep)
        rw [hdev] at hsta
        have hc := (hclean tx₁.sta hsta).of_sameDue hdue
        split at h
        · rename_i hearly
          cases h
          exact (not_mem_handed_of_writes
            (hw₁.trans (writes_invokeTxHandlersEarly hearly).1) hlog hmem).elim
        · rename_i s₂ tx₂ skb₃ hearly
          have hkey := (@writes_invokeTxHandlersEarly sha1 _ _ _ _ _ _ hearly).2 tx₂ skb₃ rfl
          obtain ⟨rfl, htx, hskb₂⟩ := invokeTxHandlersEarly_frame hearly
          split at h
          · rename_i s₃ skb₄ skbs₄ hlate
            obtain ⟨s₄, hrot, ht, ha⟩ := invokeTxHandlersLate_cases hlate
            have hw₃ := hw₁.trans (writes_invokeTxHandlersLate hkey hlate)
            cases h
            rcases List.mem_cons.mp hmem with heq | hmem
            · obtain ⟨-, rfl, -, rfl⟩ := Logged.handed.inj heq
              rw [hskb₂.retransmission, hskb₁.retransmission, hinfo,
                show tx₂.sta = tx₁.sta from htx.sta] at hrot
              refine (hc.of_rotates hrot).of_same
                (ht.trans ⟨rfl, rfl, fun _ => rfl, fun _ => rfl⟩) (hmore.trans ?_) hlong
              rw [← hskb₁.hdr, ← hskb₂.hdr]
              exact (ha _ List.mem_cons_self).hdr
            · exact (not_mem_handed_of_writes hw₃ hlog hmem).elim
          · obtain ⟨⟨s₃, r₃⟩, hlate, rfl⟩ := map_eq_some_iff.mp h
            exact (not_mem_handed_of_writes
              (hw₁.trans (writes_invokeTxHandlersLate hkey hlate)) hlog hmem).elim

end Takes

/-! ### All ways out -/

/-- New stations and interfaces have an address that is never generated. -/
def AddsNotGenerated (sha1 : List UInt8 → Vector UInt8 20) : Event → Prop
  | .addSta _ t => NotGenerated sha1 t.addr
  | .addInterface _ d => NotGenerated sha1 d.addr
  | _ => True

section Run

variable {sha1 : List UInt8 → Vector UInt8 20} {C : Crypto} {hw s s' : Local} {os o : List Logged}
  {e : Event}

theorem AddrInv.handle (h : AddrInv sha1 s) (hadd : AddsNotGenerated sha1 e)
    (hs : s.handle sha1 C e = some s') : AddrInv sha1 s' := by
  rcases handle_cases hs with hd | hc
  · exact h.does hd
  · have hfrom := addrsFrom_handle hs
    refine ⟨fun j => ?_, fun i => ?_, hc.tables.1 ▸ h.translation, hc.tables.2 ▸ h.sTranslation⟩
    · rcases hfrom.sta j with heq | ⟨t, rfl, heq⟩
      · exact heq ▸ h.sta j
      · exact heq ▸ hadd
    · rcases hfrom.sdata i with heq | ⟨d, rfl, heq⟩
      · exact heq ▸ h.sdata i
      · exact heq ▸ hadd

theorem addrInv_bootLocal : AddrInv sha1 (bootLocal hw) := by
  have hzero : NotGenerated sha1 (Vector.replicate 6 0) := notGenerated_of_not_local (by decide)
  exact ⟨fun _ => hzero, fun _ => hzero, goodTable_empty, goodTable_empty⟩

/-- What a step may do. -/
def LeakFree (sha1 : List UInt8 → Vector UInt8 20) (s : Local) (_ : List Logged) (e : Event) :
    Prop := AddsNotGenerated sha1 e ∧ TakesClean sha1 { s with log := [] } e

theorem addrInv_of_reach (h : Reach (deviceStep sha1 C) (LeakFree sha1) (bootLocal hw) s os) :
    AddrInv sha1 s := by
  refine h.invariant (fun s _ => AddrInv sha1 s) addrInv_bootLocal ?_
  intro s os e s' o hinv hcond hstep
  obtain ⟨s₁, hs₁, heq⟩ := map_eq_some_iff.mp hstep
  cases heq
  have hinv₀ : AddrInv sha1 { s with log := [] } :=
    ⟨hinv.sta, hinv.sdata, hinv.translation, hinv.sTranslation⟩
  exact hinv₀.handle hcond.1 hs₁

/-- **No base address leaves the device** whose station has another one, if none is a generated one,
and no frame with such an address is taken out of a queue. -/
theorem clean_of_handed (h : Reach (deviceStep sha1 C) (LeakFree sha1) (bootLocal hw) s os)
    (hcond : LeakFree sha1 s os e) (hstep : deviceStep sha1 C s e = some (s', o)) {path : Egress}
    {vif : SdataId} {sta : Option StaId} {skb : TxSkb}
    (hmem : .handed path vif sta skb ∈ o) : Clean s' vif skb.hdr := by
  have hinv := addrInv_of_reach (h.step hcond hstep)
  obtain ⟨s₁, hs₁, heq⟩ := map_eq_some_iff.mp hstep
  obtain ⟨rfl, rfl⟩ := Prod.mk.inj heq
  rw [List.mem_reverse] at hmem
  rcases handle_cases hs₁ with hd | hc
  · cases e with
    | txDequeue env q n => exact clean_of_txDequeue hs₁ hcond.2 rfl hmem
    | getBufferedBc env i => exact clean_of_getBufferedBc hs₁ hcond.2 rfl hmem
    | _ => exact clean_of_does hd hinv rfl hmem
  · have hnil : s₁.log = [] := hc.log
    rw [hnil] at hmem
    cases hmem

end Run

/-! ### A frame from a queue, and one from `ieee80211_tx_frags` -/

/-- A station is known, and there is a new period. -/
def newPeriodEvents (es : List Event) : List Event :=
  setupAp 0 (toyMac 1) ++ setupSta 0 0 (toyMac 3) 0 ++ es ++ [.tick 15]

/-- The frame in these runs. -/
def sendToSta : Event := .xmit {} 0 (some 0) (dataTo (toyMac 3) (toyMac 1) (toyMac 1)) false

/-- The history entry is a frame that shows a base address. -/
def showsBase (s : Local) : Logged → Bool
  | .handed _ vif _ skb => !decide (Clean s vif skb.hdr)
  | _ => false

/-- A frame dequeued in a new period goes out under the station's base address, after
`handle_random_mac` has given it another one. -/
theorem dequeued_frame_leaks : ∃ s os e s' o path vif sta skb,
      Reach (deviceStep toyHash toyCrypto) (fun _ _ _ => True) (bootLocal { wakeTxQueue := true })
        s os ∧
      deviceStep toyHash toyCrypto s e = some (s', o) ∧ .handed path vif sta skb ∈ o ∧
      ¬ Clean s' vif skb.hdr := by
  have hrun : (run (deviceStep toyHash toyCrypto) (bootLocal { wakeTxQueue := true })
      (newPeriodEvents [sendToSta, .txDequeue {} ⟨0, some 0, 0⟩ 0] ++ [sendToSta])).bind
      (fun r => (deviceStep toyHash toyCrypto r.1 (.txDequeue {} ⟨0, some 0, 0⟩ 0)).map
        fun r' => r'.2.any (showsBase r'.1)) = some true := by
    decide +kernel
  obtain ⟨⟨s, os⟩, hr, hlast⟩ := bind_eq_some_iff.mp hrun
  obtain ⟨⟨s', o⟩, hstep, hany⟩ := map_eq_some_iff.mp hlast
  obtain ⟨l, hmem, hl⟩ := List.any_eq_true.mp hany
  cases l with
  | handed path vif sta skb =>
    refine ⟨s, os, _, s', o, path, vif, sta, skb, Reach.of_run_init hr, hstep, hmem, ?_⟩
    simpa [showsBase] using hl
  | draw k pn time => cases hl
  | reset k time => cases hl

/-- Events that meet the condition in every state. -/
def Event.plainAddrs : Event → Bool
  | addSta _ t => !isLocalEtherAddr t.addr
  | addInterface _ d => !isLocalEtherAddr d.addr
  | txDequeue .. | getBufferedBc .. => false
  | _ => true

theorem leakFree_of_plainAddrs {sha1 : List UInt8 → Vector UInt8 20} {e : Event}
    (h : e.plainAddrs = true) (s : Local) (os : List Logged) : LeakFree sha1 s os e := by
  cases e with
  | addSta j t => exact ⟨notGenerated_of_not_local ((Bool.not_eq_true' _).mp h), trivial⟩
  | addInterface i d => exact ⟨notGenerated_of_not_local ((Bool.not_eq_true' _).mp h), trivial⟩
  | txDequeue env q n => cases h
  | getBufferedBc env i => cases h
  | _ => exact ⟨trivial, trivial⟩

/-- Without intermediate queues, the same frame goes out under the new address. -/
theorem clean_of_handed_new_period : ∃ s os s' o path vif sta skb,
      Reach (deviceStep toyHash toyCrypto) (LeakFree toyHash) (bootLocal {}) s os ∧
      LeakFree toyHash s os sendToSta ∧
      deviceStep toyHash toyCrypto s sendToSta = some (s', o) ∧ .handed path vif sta skb ∈ o ∧
      skb.hdr.addr1 ≠ toyMac 3 ∧ Clean s' vif skb.hdr := by
  have hrun : (run (deviceStep toyHash toyCrypto) (bootLocal {})
      (newPeriodEvents [sendToSta])).bind
      (fun r => (deviceStep toyHash toyCrypto r.1 sendToSta).map fun r' => r'.2.any fun
        | .handed _ _ _ skb => skb.hdr.addr1 ≠ toyMac 3
        | _ => false) = some true := by
    decide +kernel
  obtain ⟨⟨s, os⟩, hr, hlast⟩ := bind_eq_some_iff.mp hrun
  obtain ⟨⟨s', o⟩, hstep, hany⟩ := map_eq_some_iff.mp hlast
  obtain ⟨l, hmem, hl⟩ := List.any_eq_true.mp hany
  have hplain : ∀ e ∈ newPeriodEvents [sendToSta], e.plainAddrs = true := by decide
  have hreach : Reach (deviceStep toyHash toyCrypto) (LeakFree toyHash) (bootLocal {}) s os :=
    Reach.of_run .init (meets_of_forall _ _ _ fun e he => leakFree_of_plainAddrs (hplain e he)) hr
  have hcond : LeakFree toyHash s os sendToSta := leakFree_of_plainAddrs rfl s os
  cases l with
  | handed path vif sta skb =>
    exact ⟨s, os, s', o, path, vif, sta, skb, hreach, hcond, hstep, hmem, of_decide_eq_true hl,
      clean_of_handed hreach hcond hstep hmem⟩
  | draw k pn time => cases hl
  | reset k time => cases hl

end Mac80211
