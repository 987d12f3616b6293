import Mac80211.Rx.Management
import Mac80211.Tx.Addresses

/-!
# What the tables can hold

In every run of the device an address has at most one entry in each table, and its random address is
itself, from first contact, or a generated one: locally administered, and no group address.

## Main results

* `generated_apart_from_burned_in` — universal addresses are never generated ones
-/

namespace Mac80211

open Buckets Machine Relation Option

/-- A universally administered unicast address. -/
def Universal (a : Mac) : Prop := isLocalEtherAddr a = false ∧ isMulticastEtherAddr a = false
deriving Decidable

/-- A locally administered unicast address. -/
def LocalUnicast (a : Mac) : Prop := isLocalEtherAddr a = true ∧ isMulticastEtherAddr a = false

theorem Universal.ne_localUnicast {a b : Mac} (ha : Universal a) (hb : LocalUnicast b) : a ≠ b := by
  rintro rfl
  have := ha.1.symm.trans hb.1
  cases this

theorem localUnicast_macOfHash (hash : Vector UInt8 20) : LocalUnicast (macOfHash hash) := by
  refine ⟨isLocalEtherAddr_macOfHash hash, ?_⟩
  have hbit : ∀ n < 256, ((UInt8.ofNat n &&& 0xFC) ||| 0x02) &&& 0x01 = 0 := by decide +kernel
  have hbyte := hbit hash[0].toNat hash[0].toNat_lt
  rw [UInt8.ofNat_toNat] at hbyte
  have hne : ¬ (macOfHash hash)[0] &&& 0x01 ≠ 0 := not_not.mpr hbyte
  exact decide_eq_false hne

/-! ### One table -/

section Table

variable {n : ℕ} {A : Mac → Prop} {t : MacTable n} {base random : Mac}

/-- What a table can hold, if base addresses meet `A`. -/
structure MacTableInv (A : Mac → Prop) (t : MacTable n) : Prop where
  nodup : BaseNodup t
  base : ∀ e ∈ t.entries, A e.baseMac
  random : ∀ e ∈ t.entries, e.randomMac = e.baseMac ∨ LocalUnicast e.randomMac

theorem macTableInv_empty : MacTableInv A (Table.empty MacEntry n) where
  nodup := baseNodup_empty
  base e he := by simp at he
  random e he := by simp at he

theorem MacTableInv.insertEntry [NeZero n] (h : MacTableInv A t) (ok : Bool) (hbase : A base)
    (hrandom : random = base ∨ LocalUnicast random) (hnone : lookup t base = none) :
    MacTableInv A (insertEntry ok t base random) := by
  have hmem {e : MacEntry} (he : e ∈ (Mac80211.insertEntry ok t base random).entries) :
      e = ⟨base, random⟩ ∨ e ∈ t.entries := by
    rw [Mac80211.insertEntry] at he
    split at he
    · exact List.mem_cons.mp ((t.entries_push_perm (hashFunction_lt random) _).mem_iff.mp he)
    · exact .inr he
  refine ⟨h.nodup.insertEntry random ok hnone, fun e he => ?_, fun e he => ?_⟩
  · rcases hmem he with rfl | he
    · exact hbase
    · exact h.base e he
  · rcases hmem he with rfl | he
    · exact hrandom
    · exact h.random e he

theorem MacTableInv.modifyFirst (h : MacTableInv A t) (hrandom : LocalUnicast random) :
    MacTableInv A (t.modifyFirst (fun e => e.baseMac = base) fun e => { e with randomMac := random }) := by
  refine ⟨h.nodup.modifyFirst base random, fun e he => ?_, fun e he => ?_⟩
  · rw [Table.entries_modifyFirst] at he
    rcases mem_or_find?_of_mem_modifyFirstList he with he | ⟨e', he', -, rfl⟩
    · exact h.base e he
    · exact h.base e' he'
  · rw [Table.entries_modifyFirst] at he
    rcases mem_or_find?_of_mem_modifyFirstList he with he | ⟨e', -, -, rfl⟩
    · exact h.random e he
    · exact .inr hrandom

theorem MacTableInv.updateEntryByBase {t : TranslationTable} (h : MacTableInv A t) (ok : Bool)
    (hbase : A base) (hrandom : LocalUnicast random) :
    MacTableInv A (updateEntryByBase ok t base random) := by
  rw [Mac80211.updateEntryByBase]
  split
  · exact h.modifyFirst hrandom
  · rename_i hnone
    exact h.insertEntry ok hbase (.inr hrandom) (lookup_eq_none_iff.mpr hnone)

theorem MacTableInv.sUpdateEntryByBase {t : PairTable} (h : MacTableInv A t) (hrandom : LocalUnicast random) :
    MacTableInv A (sUpdateEntryByBase t base random) := by
  rw [Mac80211.sUpdateEntryByBase]
  split
  · exact h.modifyFirst hrandom
  · exact h

theorem MacTableInv.deleteEntry [NeZero n] (h : MacTableInv A t) (random : Mac) :
    MacTableInv A (deleteEntry t random) := by
  have hsub := t.entries_eraseIn_sublist (hashFunction_lt random) fun e => decide (e.randomMac = random)
  exact ⟨h.nodup.sublist (hsub.map _), fun e he => h.base e (hsub.subset he),
    fun e he => h.random e (hsub.subset he)⟩

/-! ### Looking up twice -/

theorem MacTableInv.txMac_txMac (h : MacTableInv Universal t) (a : Mac) :
    txMac t (txMac t a) = txMac t a := by
  rw [txMac_eq_lookup t a]
  cases ha : lookup t a with
  | none => rw [getD_none, txMac_eq_lookup, ha, getD_none]
  | some r =>
    rw [getD_some, txMac_eq_lookup]
    rcases h.random ⟨a, r⟩ (h.nodup.mem_entries_iff.mpr ha) with hr | hr
    · have hr : r = a := hr
      rw [hr, ha, getD_some, hr]
    · cases hl : lookup t r with
      | none => rw [getD_none]
      | some r' =>
        have hbase : Universal r := h.base ⟨r, r'⟩ (h.nodup.mem_entries_iff.mpr hl)
        exact absurd rfl (hbase.ne_localUnicast hr)

theorem MacTableInv.rxMac_of_universal (h : MacTableInv A t) {a : Mac} (ha : Universal a) :
    rxMac t a = a := by
  rw [rxMac]
  split
  · rename_i e he
    have hr := randomMac_of_searchByRandomMac he
    rcases h.random e (mem_entries_of_searchByRandomMac he) with hbase | hlocal
    · exact hbase.symm.trans hr
    · exact absurd hr.symm (ha.ne_localUnicast hlocal)
  · rfl

end Table

/-! ### Every run -/

section Run

variable {sha1 : List UInt8 → Vector UInt8 20} {C : Crypto} {path : Egress} {A : Mac → Prop}
  {s s' : Local}

/-- The invariant of the device: all addresses meet `A`. -/
structure TablesInv (A : Mac → Prop) (s : Local) : Prop where
  sta : ∀ j, A (s.sta j).addr
  sdata : ∀ i, A (s.sdata i).addr
  translation : MacTableInv A s.translationTable
  sTranslation : MacTableInv A s.sTranslationTable

/-- The address of a station or interface that is added. -/
def DeviceEvent.added : DeviceEvent → Option Mac
  | .event (.addSta _ t) => some t.addr
  | .event (.addInterface _ d) => some d.addr
  | _ => none

/-- It meets `A`. -/
def DeviceEvent.Adds (A : Mac → Prop) (e : DeviceEvent) : Prop := ∀ a ∈ e.added, A a

instance [DecidablePred A] : DecidablePred (DeviceEvent.Adds A) :=
  fun e => decidable_of_iff (e.added.all fun a => decide (A a)) (by simp [DeviceEvent.Adds, all_eq_true])

theorem TablesInv.of_tables (h : TablesInv A s) (hsta : ∀ j, A (s'.sta j).addr)
    (hsdata : ∀ i, A (s'.sdata i).addr) (ht : s'.translationTable = s.translationTable)
    (hs : s'.sTranslationTable = s.sTranslationTable) : TablesInv A s' :=
  ⟨hsta, hsdata, ht ▸ h.translation, hs ▸ h.sTranslation⟩

theorem TablesInv.write (hw : Write sha1 s s') (h : TablesInv A s) : TablesInv A s' := by
  have hsta (j : StaId) : (s'.sta j).addr = (s.sta j).addr :=
    (congrArg StaInfo.addr (hw.sameConfig.sta j) :)
  have hsdata (i : SdataId) : (s'.sdata i).addr = (s.sdata i).addr :=
    (congrArg SubIfData.addr (hw.sameConfig.sdata i) :)
  have hA : (∀ j, A (s'.sta j).addr) ∧ ∀ i, A (s'.sdata i).addr :=
    ⟨fun j => (hsta j).symm ▸ h.sta j, fun i => (hsdata i).symm ▸ h.sdata i⟩
  cases hw with
  | contact ok j hj =>
    exact ⟨hA.1, hA.2, h.translation.insertEntry ok (h.sta j) (.inl rfl) hj, h.sTranslation⟩
  | rotate ok j data =>
    exact ⟨hA.1, hA.2, h.translation.updateEntryByBase ok (h.sta j) (localUnicast_macOfHash _),
      h.sTranslation⟩
  | sContact ok j hj =>
    exact ⟨hA.1, hA.2, h.translation, h.sTranslation.insertEntry ok (h.sdata _) (.inl rfl) hj⟩
  | sRotate j data =>
    exact ⟨hA.1, hA.2, h.translation, h.sTranslation.sUpdateEntryByBase (localUnicast_macOfHash _)⟩
  | _ => exact ⟨hA.1, hA.2, h.translation, h.sTranslation⟩

theorem TablesInv.does (hd : Does sha1 path s s') (h : TablesInv A s) : TablesInv A s' := by
  obtain ⟨s₁, hw, hh⟩ := hd
  have h₁ : TablesInv A s₁ := by
    clear hh
    induction hw with
    | refl => exact h
    | tail _ hw ih => exact ih.write hw
  clear hw
  induction hh with
  | refl => exact h₁
  | tail _ hh ih =>
    cases hh with
    | drvTx | handOver | park => exact ⟨ih.sta, ih.sdata, ih.translation, ih.sTranslation⟩

theorem TablesInv.handle {e : Event} (h : TablesInv A s) (he : DeviceEvent.Adds A (.event e))
    (hs : s.handle sha1 C e = some s') : TablesInv A s' := by
  rcases handle_cases hs with hd | hc
  · exact h.does hd
  · have hfrom := addrsFrom_handle hs
    refine h.of_tables (fun j => ?_) (fun i => ?_) hc.tables.1 hc.tables.2
    · rcases hfrom.sta j with hj | ⟨t, rfl, hj⟩
      · rw [hj]
        exact h.sta j
      · rw [hj]
        exact he t.addr rfl
    · rcases hfrom.sdata i with hi | ⟨d, rfl, hi⟩
      · rw [hi]
        exact h.sdata i
      · rw [hi]
        exact he d.addr rfl

theorem TablesInv.rxHCheck (h : TablesInv A s) (i : SdataId) (hdr : Hdr) :
    TablesInv A (rxHCheck s i hdr) := by
  rw [Mac80211.rxHCheck]
  split
  · split
    · exact ⟨h.sta, h.sdata, h.translation, h.sTranslation.deleteEntry hdr.addr1⟩
    · exact h
  · exact h

theorem tablesInv_of_reach {P : Local → List Logged → DeviceEvent → Prop} {hw : Local}
    {os : List Logged} (hzero : A (Vector.replicate 6 0)) (hP : ∀ s os e, P s os e → e.Adds A)
    (hr : Reach (receiveStep sha1 C) P (bootLocal hw) s os) : TablesInv A s := by
  refine hr.invariant (fun s _ => TablesInv A s) ?_ ?_
  · exact ⟨fun _ => hzero, fun _ => hzero, macTableInv_empty, macTableInv_empty⟩
  · intro s os e s' o h hC hs
    cases e with
    | event e =>
      obtain ⟨s₁, hs₁, heq⟩ := map_eq_some_iff.mp hs
      cases heq
      have h₀ : TablesInv A { s with log := [] } := ⟨h.sta, h.sdata, h.translation, h.sTranslation⟩
      exact h₀.handle (hP s os _ hC) hs₁
    | check i hdr =>
      cases hs
      exact h.rxHCheck i hdr

/-- No universally administered address of the header changes. -/
structure KeepsUniversal (h h' : Hdr) : Prop where
  addr1 : Universal h.addr1 → h'.addr1 = h.addr1
  addr2 : Universal h.addr2 → h'.addr2 = h.addr2
  addr3 : Universal h.addr3 → h'.addr3 = h.addr3
  addr4 : ∀ a, h.addr4? = some a → Universal a → h'.addr4? = some a

theorem KeepsUniversal.mapAddrs {f : Mac → Mac} (hf : ∀ a, Universal a → f a = a) (h : Hdr) :
    KeepsUniversal h (h.mapAddrs f) where
  addr1 ha := (h.mapAddrs_addr1 f).trans (hf _ ha)
  addr2 ha := (h.mapAddrs_addr2 f).trans (hf _ ha)
  addr3 ha := (h.mapAddrs_addr3 f).trans (hf _ ha)
  addr4 a ha hu := by rw [Hdr.addr4?_mapAddrs, ha, map_some, hf a hu]

theorem TablesInv.keepsUniversal {gen : GenEnv} {h h' : Hdr} (hinv : TablesInv A s)
    (hrx : macAddrChangeHdrRx sha1 gen s h = some (s', h')) : KeepsUniversal h h' := by
  have hdoes : Does sha1 .txFrags s s' := (writes_macAddrChangeHdrRx hrx).writes.does
  have hinv' : TablesInv A s' := hinv.does hdoes
  rw [macAddrChangeHdrRx] at hrx
  split at hrx
  · cases hrx
    exact .mapAddrs (fun a ha => hinv.sTranslation.rxMac_of_universal ha) h
  · obtain ⟨s₁, -, heq⟩ := map_eq_some_iff.mp hrx
    cases heq
    exact .mapAddrs (fun a ha => hinv'.translation.rxMac_of_universal ha) h
  · cases hrx
    exact ⟨fun _ => rfl, fun _ => rfl, fun _ => rfl, fun _ ha _ => ha⟩

theorem TablesInv.macAddrChangeHdrTx_idem (hinv : TablesInv Universal s) (vif : SdataId) (h : Hdr) :
    macAddrChangeHdrTx s vif (macAddrChangeHdrTx s vif h) = macAddrChangeHdrTx s vif h := by
  rw [macAddrChangeHdrTx_eq, macAddrChangeHdrTx_eq, Hdr.mapAddrs_mapAddrs]
  refine congrArg h.mapAddrs (funext fun a => ?_)
  simp only [outMac]
  split
  · exact hinv.sTranslation.txMac_txMac a
  · exact hinv.translation.txMac_txMac a
  · simp only

/-- **Generated addresses and burned-in ones do not meet**, if every address added is universally
administered and unicast: rewriting twice is rewriting once, and receiving changes no universally
administered address. -/
theorem generated_apart_from_burned_in {hw : Local} {os : List Logged}
    (hr : Reach (receiveStep sha1 C) (fun _ _ e => e.Adds Universal) (bootLocal hw) s os) :
    (∀ e ∈ s.translationTable.entries, e.randomMac = e.baseMac ∨ LocalUnicast e.randomMac) ∧
    (∀ e ∈ s.sTranslationTable.entries, e.randomMac = e.baseMac ∨ LocalUnicast e.randomMac) ∧
    (∀ vif h, macAddrChangeHdrTx s vif (macAddrChangeHdrTx s vif h) = macAddrChangeHdrTx s vif h) ∧
    ∀ gen h s' h', macAddrChangeHdrRx sha1 gen s h = some (s', h') → KeepsUniversal h h' := by
  have hinv : TablesInv Universal s := tablesInv_of_reach (by decide) (fun _ _ _ he => he) hr
  exact ⟨hinv.translation.random, hinv.sTranslation.random, hinv.macAddrChangeHdrTx_idem,
    fun _ _ _ _ hrx => hinv.keepsUniversal hrx⟩

end Run

/-- An access point meets a station and gives it an address in the next period. -/
def rotatedStation : List DeviceEvent :=
  (setupAp 0 (toyMac 1) ++ setupSta 0 0 (toyMac 3) 0 ++
    [Event.xmit {} 0 (some 0) (dataTo (toyMac 3) (toyMac 1) (toyMac 1)) false, Event.tick 15,
      Event.xmit {} 0 (some 0) (dataTo (toyMac 3) (toyMac 1) (toyMac 1)) false]).map .event

/-- The address it has then, and a frame to it that is rewritten twice. -/
theorem generated_apart_from_burned_in_rotated : ∃ s, lookup s.translationTable (toyMac 3) =
      some #v[2, 1, 0, 0, 0, 3] ∧
    ∀ h, macAddrChangeHdrTx s 0 (macAddrChangeHdrTx s 0 h) = macAddrChangeHdrTx s 0 h := by
  have hrun : (run (receiveStep toyHash toyCrypto) (bootLocal {}) rotatedStation).map
      (fun r => lookup r.1.translationTable (toyMac 3)) = some (some #v[2, 1, 0, 0, 0, 3]) := by
    decide +kernel
  have hmeets : Meets (receiveStep toyHash toyCrypto) (fun _ _ e => e.Adds Universal) (bootLocal {}) []
      rotatedStation := by
    decide +kernel
  obtain ⟨⟨s, os⟩, hr, hl⟩ := map_eq_some_iff.mp hrun
  exact ⟨s, hl, (generated_apart_from_burned_in (Reach.of_run .init hmeets hr)).2.2.1 0⟩

end Mac80211
