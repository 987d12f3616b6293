import Mac80211.Tx.Writes

/-!
# Addresses on the way out

The transmit handlers change neither the addresses of a frame nor the address tables, apart from
`handle_random_mac`. A frame that leaves through `ieee80211_tx_frags` gets every address replaced by
what the interface's table has for it.

## Main definitions

* `outMac`, `SameAddrs`, `Rotates`

## Main results

* `invokeTxHandlersLate_cases`
-/

namespace Mac80211

namespace Hdr

/-- The address fields of a frame. -/
def addrs (h : Hdr) : List Mac :=
  [h.addr1, h.addr2, h.addr3] ++ if fourAddr h.frameControl then h.addr4?.toList else []

/-- `h'` has the addresses of `h`. -/
structure SameAddrs (h h' : Hdr) : Prop where
  addr1 : h'.addr1 = h.addr1
  addr2 : h'.addr2 = h.addr2
  addr3 : h'.addr3 = h.addr3
  /-- It has a fourth one if `h` has. -/
  fourAddr : fourAddr h'.frameControl = fourAddr h.frameControl
  addr4 : Mac80211.fourAddr h.frameControl = true → ∀ a, h.addr4? = some a → h'.addr4? = some a

theorem SameAddrs.refl (h : Hdr) : SameAddrs h h := ⟨rfl, rfl, rfl, rfl, fun _ _ ha => ha⟩

theorem SameAddrs.trans {h h' h'' : Hdr} (h₁ : SameAddrs h h') (h₂ : SameAddrs h' h'') :
    SameAddrs h h'' where
  addr1 := h₂.addr1.trans h₁.addr1
  addr2 := h₂.addr2.trans h₁.addr2
  addr3 := h₂.addr3.trans h₁.addr3
  fourAddr := h₂.fourAddr.trans h₁.fourAddr
  addr4 hfour a ha := h₂.addr4 (h₁.fourAddr.trans hfour) a (h₁.addr4 hfour a ha)

/-- A four-address frame is long enough for its addresses. -/
def HasAddr4 (h : Hdr) : Prop := Mac80211.fourAddr h.frameControl = true → h.addr4?.isSome = true
deriving Decidable

theorem SameAddrs.addrs_eq {h h' : Hdr} (hs : SameAddrs h h') (hlong : h.HasAddr4) :
    h'.addrs = h.addrs := by
  rw [addrs, addrs, hs.addr1, hs.addr2, hs.addr3, hs.fourAddr]
  split
  · rename_i hfour
    obtain ⟨a, ha⟩ := Option.isSome_iff_exists.mp (hlong hfour)
    rw [hs.addr4 hfour a ha, ha]
  · rfl

/-- New memory behind the header. The first six bytes count only in a four-address frame. -/
theorem sameAddrs_rest {h : Hdr} {n : ℕ} (hn : Mac80211.fourAddr h.frameControl = true → 6 ≤ n)
    (tail : List UInt8) : SameAddrs h { h with rest := h.rest.take n ++ tail } := by
  refine ⟨rfl, rfl, rfl, rfl, fun hfour a ha => ?_⟩
  obtain ⟨rest, hr⟩ := addr4?_eq_some_iff.mp ha
  have htake : h.rest.take n = a.toList ++ rest.take (n - 6) := by
    rw [hr, List.take_append, List.take_of_length_le (by simpa using hn hfour)]
    simp
  refine addr4?_eq_some_iff.mpr ⟨rest.take (n - 6) ++ tail, ?_⟩
  change h.rest.take n ++ tail = _
  rw [htake, List.append_assoc]

theorem sameAddrs_memcpyAt {h : Hdr} {off : ℕ}
    (hoff : Mac80211.fourAddr h.frameControl = true → 6 ≤ off) (data : List UInt8) :
    SameAddrs h { h with rest := Bytes.memcpyAt h.rest off data } := by
  rw [Bytes.memcpyAt, List.append_assoc]
  exact sameAddrs_rest hoff _

theorem sameAddrs_frameControl {h : Hdr} {fc : UInt16}
    (hfc : Mac80211.fourAddr fc = Mac80211.fourAddr h.frameControl) :
    SameAddrs h { h with frameControl := fc } := ⟨rfl, rfl, rfl, hfc, fun _ _ ha => ha⟩

theorem sameAddrs_seqCtrl (h : Hdr) (seq : UInt16) : SameAddrs h { h with seqCtrl := seq } :=
  ⟨rfl, rfl, rfl, rfl, fun _ _ ha => ha⟩

theorem sameAddrs_durationId (h : Hdr) (d : UInt16) : SameAddrs h { h with durationId := d } :=
  ⟨rfl, rfl, rfl, rfl, fun _ _ ha => ha⟩

theorem addr4?_mapAddrs (f : Mac → Mac) (h : Hdr) : (h.mapAddrs f).addr4? = h.addr4?.map f := by
  cases ha : h.addr4? with
  | none =>
    have hr := addr4?_eq_none_iff.mp ha
    exact addr4?_eq_none_iff.mpr (by simpa using hr)
  | some a =>
    obtain ⟨tail, hr⟩ := addr4?_eq_some_iff.mp ha
    exact addr4?_eq_some_iff.mpr ⟨tail, rest_mapAddrs f h hr⟩

theorem mapAddrs_id (h : Hdr) : h.mapAddrs (fun a => a) = h := by
  have hrest : (h.mapAddrs fun a => a).rest = h.rest := by
    cases ha : h.addr4? with
    | none => exact rest_mapAddrs_of_lt _ h (addr4?_eq_none_iff.mp ha)
    | some a =>
      obtain ⟨tail, hr⟩ := addr4?_eq_some_iff.mp ha
      rw [rest_mapAddrs _ h hr, hr]
  refine Hdr.ext ?_ ?_ ?_ ?_ ?_ ?_ hrest <;> simp

theorem addrs_mapAddrs (f : Mac → Mac) (h : Hdr) : (h.mapAddrs f).addrs = h.addrs.map f := by
  simp only [addrs, mapAddrs_addr1, mapAddrs_addr2, mapAddrs_addr3, mapAddrs_frameControl,
    addr4?_mapAddrs, List.map_append, List.map_cons, List.map_nil]
  split
  · cases h.addr4? <;> rfl
  · rfl

end Hdr

/-- What an interface sends in place of an address. -/
def outMac (s : Local) (vif : SdataId) (a : Mac) : Mac :=
  match (s.sdata vif).type with
  | .station => txMac s.sTranslationTable a
  | .ap => txMac s.translationTable a
  | _ => a

/-- **`mac_addr_change_hdr_tx` replaces every address of a frame.** -/
theorem macAddrChangeHdrTx_eq (s : Local) (vif : SdataId) (h : Hdr) :
    macAddrChangeHdrTx s vif h = h.mapAddrs (outMac s vif) := by
  rw [macAddrChangeHdrTx]
  split
  · rename_i htype
    have hout : outMac s vif = txMac s.sTranslationTable := by
      funext a
      rw [outMac, htype]
    rw [hout]
  · rename_i htype
    have hout : outMac s vif = txMac s.translationTable := by
      funext a
      rw [outMac, htype]
    rw [hout]
  · rename_i hsta hap
    have hout : outMac s vif = fun a => a := by
      funext a
      simp only [outMac]
    rw [hout, Hdr.mapAddrs_id]

/-! ### Handlers -/

/-- The same addresses, on the same interface. -/
structure TxSkb.SameAddrs (skb skb' : TxSkb) : Prop where
  hdr : skb.hdr.SameAddrs skb'.hdr
  vif : skb'.info.vif = skb.info.vif

theorem TxSkb.SameAddrs.refl (skb : TxSkb) : skb.SameAddrs skb := ⟨.refl _, rfl⟩

theorem TxSkb.SameAddrs.trans {skb skb' skb'' : TxSkb} (h₁ : skb.SameAddrs skb')
    (h₂ : skb'.SameAddrs skb'') : skb.SameAddrs skb'' :=
  ⟨h₁.hdr.trans h₂.hdr, h₂.vif.trans h₁.vif⟩

section Skb

variable (skb : TxSkb)

theorem sameAddrs_withBody (body : List UInt8) : skb.SameAddrs (skb.withBody body) := by
  refine ⟨Hdr.sameAddrs_rest (fun hfour => ?_) body, rfl⟩
  have := hdrlen_of_fourAddr hfour
  omega

theorem sameAddrs_setProtected : skb.SameAddrs skb.setProtected :=
  ⟨Hdr.sameAddrs_frameControl (fourAddr_or (by decide)), rfl⟩

theorem sameAddrs_fragment (n : ℕ) (more : Bool) (part : List UInt8) :
    skb.SameAddrs (skb.fragment n more part) := by
  have hfc : fourAddr (if more then skb.hdr.frameControl ||| FCTL_MOREFRAGS
      else skb.hdr.frameControl &&& ~~~FCTL_MOREFRAGS) = fourAddr skb.hdr.frameControl := by
    split
    · exact fourAddr_or (by decide)
    · exact fourAddr_clear (by decide)
  have hflags : (skb.withBody part).hdr.SameAddrs { (skb.withBody part).hdr with
      frameControl := if more then skb.hdr.frameControl ||| FCTL_MOREFRAGS
        else skb.hdr.frameControl &&& ~~~FCTL_MOREFRAGS } := Hdr.sameAddrs_frameControl hfc
  exact ⟨(sameAddrs_withBody skb part).hdr.trans (hflags.trans (Hdr.sameAddrs_seqCtrl _ _)), rfl⟩

theorem sameAddrs_fragments (parts : List (List UInt8)) :
    ∀ n, ∀ skb' ∈ skb.fragments n parts, skb.SameAddrs skb' := by
  induction parts with
  | nil =>
    intro n skb' h
    cases h
  | cons part parts ih =>
    intro n skb' h
    rcases List.mem_cons.mp h with rfl | h
    · exact sameAddrs_fragment skb n _ part
    · exact ih (n + 1) skb' h

theorem sameAddrs_txHFragment {env : TxEnv} {s : Local} {skbs : List TxSkb}
    (h : txHFragment env s skb = some skbs) : ∀ skb' ∈ skbs, skb.SameAddrs skb' := by
  intro skb' hmem
  rw [txHFragment] at h
  split_ifs at h
  · cases h
    obtain rfl := List.mem_singleton.mp hmem
    exact .refl _
  · cases h
    exact sameAddrs_fragments skb _ 0 skb' hmem

theorem sameAddrs_setSeq (seq : UInt16) : skb.SameAddrs (skb.setSeq seq) :=
  ⟨Hdr.sameAddrs_seqCtrl _ _, rfl⟩

theorem sameAddrs_txHSequence (s : Local) (tx : TxData) :
    skb.SameAddrs (txHSequence s tx skb).2 := by
  rw [txHSequence]
  split_ifs
  · exact .refl _
  · exact .refl _
  · exact sameAddrs_setSeq skb _
  · split
    · exact .refl _
    · exact sameAddrs_setSeq skb _

end Skb

/-- Two states that send a frame with the same addresses, on the same interface. -/
structure SameTables (s s' : Local) : Prop where
  translation : s'.translationTable = s.translationTable
  sTranslation : s'.sTranslationTable = s.sTranslationTable
  type : ∀ i, (s'.sdata i).type = (s.sdata i).type
  vif : ∀ i, driverVif s' i = driverVif s i

theorem SameTables.refl (s : Local) : SameTables s s := ⟨rfl, rfl, fun _ => rfl, fun _ => rfl⟩

theorem SameTables.trans {s s' s'' : Local} (h₁ : SameTables s s') (h₂ : SameTables s' s'') :
    SameTables s s'' :=
  ⟨h₂.translation.trans h₁.translation, h₂.sTranslation.trans h₁.sTranslation,
    fun i => (h₂.type i).trans (h₁.type i), fun i => (h₂.vif i).trans (h₁.vif i)⟩

variable {s s' : Local}

theorem SameTables.outMac_eq (h : SameTables s s') (vif : SdataId) :
    outMac s' vif = outMac s vif := by
  funext a
  rw [outMac, outMac, h.type, h.translation, h.sTranslation]

theorem sameTables_updSdata {s : Local} {i : SdataId} {f : SubIfData → SubIfData}
    (hf : ∀ d, (f d).type = d.type ∧ (f d).bss = d.bss ∧ (f d).monitorActive = d.monitorActive) :
    SameTables s (s.updSdata i f) := by
  have hsdata : ∀ i', ((s.updSdata i f).sdata i').type = (s.sdata i').type ∧
      ((s.updSdata i f).sdata i').bss = (s.sdata i').bss ∧
      ((s.updSdata i f).sdata i').monitorActive = (s.sdata i').monitorActive := by
    intro i'
    by_cases hi : i' = i
    · rw [hi, Local.updSdata_sdata_self]
      exact hf _
    · rw [Local.updSdata_sdata_of_ne s hi]
      exact ⟨rfl, rfl, rfl⟩
  refine ⟨rfl, rfl, fun i' => (hsdata i').1, fun i' => ?_⟩
  simp only [driverVif, hsdata]
  rfl

theorem PlainWrites.sameTables (h : PlainWrites (fun _ => True) s s') : SameTables s s' := by
  induction h with
  | refl => exact .refl s
  | tail _ hw ih =>
    refine ih.trans ?_
    cases hw with
    | sdata i f hf =>
      exact sameTables_updSdata fun d => ⟨(congrArg SubIfData.type (hf d) :),
        (congrArg SubIfData.bss (hf d) :), (congrArg SubIfData.monitorActive (hf d) :)⟩
    | _ => exact ⟨rfl, rfl, fun _ => rfl, fun _ => rfl⟩

section Encrypt

variable {C : Crypto} {env : EncryptEnv} {k : KeyId}

/-- A cipher keeps tables and addresses of a frame. -/
def KeepsAddrs (f : Local → TxSkb → Local × Option TxSkb) : Prop :=
  ∀ s skb, SameTables s (f s skb).1 ∧ ∀ skb' ∈ (f s skb).2, skb.SameAddrs skb'

variable {skb₀ : TxSkb}

theorem encryptAll_keeps {f : Local → TxSkb → Local × Option TxSkb} (hf : KeepsAddrs f) :
    ∀ (skbs : List TxSkb) (s : Local), (∀ skb ∈ skbs, skb₀.SameAddrs skb) →
      SameTables s (encryptAll f s skbs).1 ∧
      ∀ skbs' ∈ (encryptAll f s skbs).2, ∀ skb' ∈ skbs', skb₀.SameAddrs skb' := by
  intro skbs
  induction skbs with
  | nil =>
    intro s _
    refine ⟨.refl s, fun skbs' hskbs' skb' hmem => ?_⟩
    cases hskbs'
    cases hmem
  | cons skb skbs ih =>
    intro s hall
    obtain ⟨ht, ha⟩ := hf s skb
    rw [encryptAll]
    split
    · rename_i s₁ heq
      rw [heq] at ht
      exact ⟨ht, fun _ hc => by cases hc⟩
    · rename_i s₁ skb₁ heq
      rw [heq] at ht ha
      obtain ⟨ht₂, ha₂⟩ := ih s₁ fun skb' hmem => hall skb' (List.mem_cons_of_mem _ hmem)
      have hskb₁ : skb₀.SameAddrs skb₁ := (hall skb List.mem_cons_self).trans (ha skb₁ rfl)
      split
      · rename_i s₂ heq₂
        rw [heq₂] at ht₂
        exact ⟨ht.trans ht₂, fun _ hc => by cases hc⟩
      · rename_i s₂ skbs₂ heq₂
        rw [heq₂] at ht₂ ha₂
        refine ⟨ht.trans ht₂, fun skbs' hskbs' skb' hmem => ?_⟩
        cases hskbs'
        rcases List.mem_cons.mp hmem with rfl | hmem
        · exact hskb₁
        · exact ha₂ skbs₂ rfl skb' hmem

theorem sameTables_incTxPn (s : Local) (k : KeyId) : SameTables s (s.incTxPn k).1 :=
  ⟨rfl, rfl, fun _ => rfl, fun _ => rfl⟩

theorem keepsAddrs_aeadEncryptSkb {op : Key → Hdr → Pn → List UInt8 → List UInt8} :
    KeepsAddrs (aeadEncryptSkb op env k) := by
  intro s skb
  rw [aeadEncryptSkb]
  split_ifs
  · exact ⟨.refl s, fun skb' h => Option.some.inj h ▸ .refl _⟩
  · exact ⟨.refl s, fun _ h => by cases h⟩
  · exact ⟨.refl s, fun skb' h => Option.some.inj h ▸ sameAddrs_withBody skb _⟩
  · exact ⟨sameTables_incTxPn s k, fun skb' h => Option.some.inj h ▸ sameAddrs_withBody skb _⟩
  · exact ⟨sameTables_incTxPn s k, fun _ h => by cases h⟩
  · exact ⟨sameTables_incTxPn s k, fun skb' h => Option.some.inj h ▸ sameAddrs_withBody skb _⟩

theorem sameAddrs_of_map_withBody {skb skb' : TxSkb} {body : Option (List UInt8)}
    (h : skb' ∈ body.map skb.withBody) : skb.SameAddrs skb' := by
  obtain ⟨b, -, rfl⟩ := Option.map_eq_some_iff.mp h
  exact sameAddrs_withBody skb b

theorem keepsAddrs_tkipEncryptSkb : KeepsAddrs (tkipEncryptSkb env k) := by
  intro s skb
  rw [tkipEncryptSkb]
  split_ifs
  · exact ⟨.refl s, fun skb' h => Option.some.inj h ▸ .refl _⟩
  · exact ⟨.refl s, fun _ h => by cases h⟩
  · exact ⟨.refl s, fun skb' h => Option.some.inj h ▸ sameAddrs_withBody skb _⟩
  · exact ⟨sameTables_incTxPn s k, fun _ h => sameAddrs_of_map_withBody h⟩

theorem keepsAddrs_legacyEncryptSkb : KeepsAddrs (legacyEncryptSkb env) :=
  fun s _ => ⟨.refl s, fun _ h => sameAddrs_of_map_withBody h⟩

theorem sameAddrs_append (skb : TxSkb) (data : List UInt8) :
    skb.SameAddrs { skb with hdr := { skb.hdr with rest := skb.hdr.rest ++ data } } := by
  refine ⟨?_, rfl⟩
  have h := @Hdr.sameAddrs_rest skb.hdr (skb.hdr.rest.length + 6) (fun _ => by omega) data
  rwa [List.take_of_length_le (by omega)] at h

theorem bipEncrypt_keeps {mmieLen : ℕ} {hwMmie : Key → Bool}
    {mac : Key → Hdr → Pn → Option (List UInt8)} (s : Local) (skbs : List TxSkb)
    (hall : ∀ skb ∈ skbs, skb₀.SameAddrs skb) :
    SameTables s (bipEncrypt mmieLen hwMmie mac env k s skbs).1 ∧
      ∀ skbs' ∈ (bipEncrypt mmieLen hwMmie mac env k s skbs).2, ∀ skb' ∈ skbs',
        skb₀.SameAddrs skb' := by
  rcases skbs with _ | ⟨skb, _ | ⟨_, _⟩⟩
  · exact ⟨.refl s, fun _ hc => by cases hc⟩
  · have hskb := hall skb List.mem_cons_self
    rw [bipEncrypt]
    split_ifs
    · refine ⟨.refl s, fun skbs' hs skb' hmem => ?_⟩
      cases hs
      exact hall skb' hmem
    · exact ⟨.refl s, fun _ hc => by cases hc⟩
    · refine ⟨sameTables_incTxPn s k, fun skbs' hs skb' hmem => ?_⟩
      cases hs
      obtain rfl := List.mem_singleton.mp hmem
      dsimp only
      rw [List.append_assoc]
      exact hskb.trans (sameAddrs_append skb _)
    · refine ⟨sameTables_incTxPn s k, fun skbs' hs skb' hmem => ?_⟩
      obtain ⟨mic, -, rfl⟩ := Option.map_eq_some_iff.mp hs
      obtain rfl := List.mem_singleton.mp hmem
      dsimp only
      rw [List.append_assoc]
      exact hskb.trans (sameAddrs_append skb _)
  · exact ⟨.refl s, fun _ hc => by cases hc⟩

theorem cryptoEncrypt_keeps (s : Local) (skbs : List TxSkb)
    (hall : ∀ skb ∈ skbs, skb₀.SameAddrs skb) : SameTables s (cryptoEncrypt C env k s skbs).1 ∧
      ∀ skbs' ∈ (cryptoEncrypt C env k s skbs).2, ∀ skb' ∈ skbs', skb₀.SameAddrs skb' := by
  have hprot : ∀ skb ∈ skbs.map TxSkb.setProtected, skb₀.SameAddrs skb := by
    intro skb hmem
    obtain ⟨skb₁, hmem₁, rfl⟩ := List.mem_map.mp hmem
    exact (hall skb₁ hmem₁).trans (sameAddrs_setProtected skb₁)
  have hlegacy := encryptAll_keeps (@keepsAddrs_legacyEncryptSkb env) _ s hprot
  rw [cryptoEncrypt]
  split
  · exact hlegacy
  · exact hlegacy
  · exact encryptAll_keeps keepsAddrs_tkipEncryptSkb _ s hprot
  · exact encryptAll_keeps keepsAddrs_aeadEncryptSkb _ s hprot
  · exact encryptAll_keeps keepsAddrs_aeadEncryptSkb _ s hprot
  · exact bipEncrypt_keeps s skbs hall
  · exact bipEncrypt_keeps s skbs hall
  · exact bipEncrypt_keeps s skbs hall
  · exact bipEncrypt_keeps s skbs hall
  · exact encryptAll_keeps keepsAddrs_aeadEncryptSkb _ s hprot
  · exact encryptAll_keeps keepsAddrs_aeadEncryptSkb _ s hprot
  · rw [cryptoHwEncrypt]
    split
    · exact ⟨.refl s, fun _ hc => by cases hc⟩
    · exact hlegacy

end Encrypt

/-! ### Early handlers -/

/-- The same frame, with other flags. -/
structure TxSkb.SameFrame (skb skb' : TxSkb) : Prop where
  hdr : skb'.hdr = skb.hdr
  priority : skb'.priority = skb.priority
  vif : skb'.info.vif = skb.info.vif
  fastXmit : skb'.info.fastXmit = skb.info.fastXmit
  retransmission : skb'.info.retransmission = skb.info.retransmission

/-- The same transmission, with another key. -/
structure TxData.SameTx (tx tx' : TxData) : Prop where
  sdata : tx'.sdata = tx.sdata
  sta : tx'.sta = tx.sta
  noSeqno : tx'.noSeqno = tx.noSeqno

section Early

variable {env : TxEnv} {s s' : Local} {tx tx' : TxData} {skb skb' : TxSkb}

theorem txPrepare_frame {i : SdataId} {sta : Option StaId}
    (h : txPrepare s i sta env skb = some (tx, skb')) :
    tx.sdata = i ∧ (sta.isSome = true → tx.sta = sta) ∧ skb.SameFrame skb' := by
  simp only [txPrepare] at h
  split at h
  · cases h
  · rename_i found hfound
    split at h
    · cases h
    · cases h
      refine ⟨rfl, fun hsome => ?_, ⟨rfl, rfl, rfl, rfl, rfl⟩⟩
      rw [if_pos hsome] at hfound
      exact (Option.some.inj hfound).symm

theorem txHSelectKey_frame (h : txHSelectKey s tx skb = some (tx', skb')) :
    tx.SameTx tx' ∧ skb.SameFrame skb' := by
  simp only [txHSelectKey] at h
  split at h
  · cases h
    exact ⟨⟨rfl, rfl, rfl⟩, ⟨rfl, rfl, rfl, rfl, rfl⟩⟩
  · split at h
    · split_ifs at h
      all_goals
        cases h
        exact ⟨⟨rfl, rfl, rfl⟩, ⟨rfl, rfl, rfl, rfl, rfl⟩⟩
    · split_ifs at h
      cases h
      exact ⟨⟨rfl, rfl, rfl⟩, ⟨rfl, rfl, rfl, rfl, rfl⟩⟩

theorem txHPsBuf_frame (h : txHPsBuf env s tx skb = (s', skb', .txContinue)) :
    s' = s ∧ skb.SameFrame skb' := by
  rw [txHPsBuf] at h
  split_ifs at h
  · obtain ⟨rfl, rfl, -⟩ := h
    exact ⟨rfl, ⟨rfl, rfl, rfl, rfl, rfl⟩⟩
  · simp only [txHMulticastPsBuf] at h
    split at h
    · obtain ⟨rfl, rfl, -⟩ := h
      exact ⟨rfl, ⟨rfl, rfl, rfl, rfl, rfl⟩⟩
    · split_ifs at h
      all_goals obtain ⟨rfl, rfl, -⟩ := h
      all_goals exact ⟨rfl, ⟨rfl, rfl, rfl, rfl, rfl⟩⟩
  · cases h
  · obtain ⟨rfl, rfl, -⟩ := h
    exact ⟨rfl, ⟨rfl, rfl, rfl, rfl, rfl⟩⟩

/-- A frame that passes the early handlers has changed nothing, and is the same frame. -/
theorem invokeTxHandlersEarly_frame
    (h : invokeTxHandlersEarly env s tx skb = (s', some (tx', skb'))) :
    s' = s ∧ tx.SameTx tx' ∧ skb.SameFrame skb' := by
  rw [invokeTxHandlersEarly] at h
  split at h
  · cases h
  · split at h
    · rename_i s₁ skb₁ hps
      obtain ⟨rfl, hskb₁⟩ := txHPsBuf_frame hps
      have hport : skb₁.SameFrame (txHCheckControlPortProtocol env skb₁) := by
        rw [txHCheckControlPortProtocol]
        split <;> exact ⟨rfl, rfl, rfl, rfl, rfl⟩
      split at h
      · cases h
      · rename_i tx₂ skb₂ hsel
        obtain ⟨htx, hskb₂⟩ := txHSelectKey_frame hsel
        split at h
        · obtain ⟨rfl, heq⟩ := Prod.mk.inj h
          cases heq
          refine ⟨rfl, htx, ?_⟩
          exact ⟨hskb₂.hdr.trans (hport.hdr.trans hskb₁.hdr),
            hskb₂.priority.trans (hport.priority.trans hskb₁.priority),
            hskb₂.vif.trans (hport.vif.trans hskb₁.vif),
            hskb₂.fastXmit.trans (hport.fastXmit.trans hskb₁.fastXmit),
            hskb₂.retransmission.trans (hport.retransmission.trans hskb₁.retransmission)⟩
        · cases h
    · cases h

end Early

/-! ### Late handlers -/

section Late

variable {sha1 : List UInt8 → Vector UInt8 20} {C : Crypto} {env : TxEnv} {s s' : Local}
  {tx : TxData} {skb : TxSkb}

theorem sameTables_updSta (s : Local) (j : StaId) (f : StaInfo → StaInfo) :
    SameTables s (s.updSta j f) := ⟨rfl, rfl, fun _ => rfl, fun _ => rfl⟩

theorem sameTables_txHSequence (s : Local) (tx : TxData) (skb : TxSkb) :
    SameTables s (txHSequence s tx skb).1 :=
  (plain_txHSequence s tx skb).sameTables

theorem txHEncrypt_keeps {skb₀ : TxSkb} (s : Local) (skbs : List TxSkb)
    (hall : ∀ skb ∈ skbs, skb₀.SameAddrs skb) : SameTables s (txHEncrypt C env s tx skbs).1 ∧
      ∀ skbs' ∈ (txHEncrypt C env s tx skbs).2, ∀ skb' ∈ skbs', skb₀.SameAddrs skb' := by
  rw [txHEncrypt]
  split
  · exact ⟨.refl s, fun skbs' hs skb' hmem => hall skb' (Option.some.inj hs ▸ hmem)⟩
  · exact cryptoEncrypt_keeps s skbs hall

/-- `handle_random_mac` runs, or it does not. -/
def Rotates (sha1 : List UInt8 → Vector UInt8 20) (env : TxEnv) (sta : Option StaId) (runs : Bool)
    (s s₁ : Local) : Prop :=
  if runs then handleRandomMac sha1 env.gen env.insert sta s = some s₁ else s₁ = s

/-- **The late handlers**: addresses stay, and what happens to the tables is `handle_random_mac`.
A frame that was sent before is left alone. -/
theorem invokeTxHandlersLate_cases {skbs : List TxSkb}
    (h : invokeTxHandlersLate sha1 C env s tx skb = some (s', some skbs)) :
    ∃ s₁, Rotates sha1 env tx.sta (!skb.info.retransmission) s s₁ ∧ SameTables s₁ s' ∧
      ∀ skb' ∈ skbs, skb.SameAddrs skb' := by
  rw [invokeTxHandlersLate] at h
  split at h
  · obtain ⟨rfl, hskbs⟩ := Prod.mk.inj (Option.some.inj h)
    cases hskbs
    rename_i hre
    refine ⟨s, by rw [Rotates, hre]; rfl, .refl s, fun skb' hmem => ?_⟩
    obtain rfl := List.mem_singleton.mp hmem
    exact .refl _
  · rename_i hre
    obtain ⟨s₁, hs₁, heq⟩ := Option.map_eq_some_iff.mp h
    refine ⟨s₁, by rw [Rotates, Bool.eq_false_iff.mpr hre]; exact hs₁, ?_⟩
    split at heq
    · cases heq
    · have hseq := sameTables_txHSequence s₁ tx skb
      simp only at heq
      split at heq
      · cases heq
      · rename_i frags hfrag
        have hall : ∀ skb' ∈ frags, skb.SameAddrs skb' := fun skb' hmem =>
          (sameAddrs_txHSequence skb s₁ tx).trans (sameAddrs_txHFragment _ hfrag skb' hmem)
        obtain ⟨ht, ha⟩ := @txHEncrypt_keeps C env tx _ (txHSequence s₁ tx skb).1 frags hall
        obtain ⟨rfl, hskbs⟩ := Prod.mk.inj heq
        refine ⟨hseq.trans ht, fun skb' hmem => ?_⟩
        obtain ⟨sent, hsent, rfl⟩ := Option.map_eq_some_iff.mp hskbs
        obtain ⟨skb₁, hmem₁, rfl⟩ := List.mem_map.mp hmem
        exact (ha sent hsent skb₁ hmem₁).trans ⟨Hdr.sameAddrs_durationId _ _, rfl⟩

end Late

/-! ### Interfaces -/

/-- The interface a frame is handed over for. -/
def egressVif (s : Local) (i : SdataId) : SdataId := ((driverVif s i).getD none).getD i

theorem handOver_cases {path : Egress} {i : SdataId} {sta : Option StaId}
    {skb : TxSkb} (h : handOver path s i sta skb = some s') :
    s' = s ∨ s' = s.logged (.handed path (egressVif s i) sta
      { skb with info := { skb.info with vif := egressVif s i } }) := by
  rw [handOver] at h
  split at h
  · exact .inl (Option.some.inj h).symm
  · rename_i v hv
    right
    rw [egressVif, hv]
    exact (Option.some.inj h).symm

/-! ### The fast path -/

section Fast

theorem sameAddrs_putIv (skb : TxSkb) (iv : List UInt8) : skb.hdr.SameAddrs (skb.putIv iv).hdr := by
  have hoff : fourAddr skb.hdr.frameControl = true → 6 ≤ hdrlen skb.hdr.frameControl - 24 := by
    intro hfour
    have := hdrlen_of_fourAddr hfour
    omega
  refine (Hdr.sameAddrs_memcpyAt hoff (iv.take 2)).trans
    (Hdr.sameAddrs_memcpyAt (fun hfour => ?_) (iv.drop 3))
  have := hoff hfour
  omega

variable {i : SdataId} {j : StaId} {pnOffs : Bool} {key : Option KeyId} {hwQueue : ℕ}

theorem sameTables_xmitFastFinish (s : Local) (skb : TxSkb) :
    SameTables s (xmitFastFinish s i j pnOffs key hwQueue skb).1 :=
  (plain_xmitFastFinish s skb fun _ _ => trivial).sameTables

theorem sameAddrs_xmitFastFinish (s : Local) (skb : TxSkb) :
    skb.hdr.SameAddrs (xmitFastFinish s i j pnOffs key hwQueue skb).2.hdr := by
  simp only [xmitFastFinish]
  split
  · split
    · dsimp only
      exact (Hdr.sameAddrs_seqCtrl skb.hdr _).trans (sameAddrs_putIv (TxSkb.setSeq _ _) _)
    · exact Hdr.sameAddrs_seqCtrl _ _
  · exact Hdr.sameAddrs_seqCtrl _ _

end Fast

end Mac80211
