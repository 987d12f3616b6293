import Mac80211.Device
import Mac80211.Tx.DueMac

/-!
# The fast path and the slow path

Both paths end in `ieee80211_tx_frags`, which replaces the addresses by what the table has for them;
on the slow path that is the table after the rotation, if one is due, and on the fast path the one
before it.

## Main definitions

* `FastAgrees`, `DerivesSame`

## Main results

* `fast_eq_slow_iff` — when the two send the same addresses
-/

namespace Mac80211

open Machine Option

/-- `addr1` to `addr3` of the frames handed to the driver. -/
def sentAddrs (s : Local) : List (Mac × Mac × Mac) :=
  s.log.filterMap fun
    | .handed _ _ _ skb => some (skb.hdr.addr1, skb.hdr.addr2, skb.hdr.addr3)
    | _ => none

instance : DecidableEq (List (Mac × Mac × Mac)) := inferInstance

/-- The three addresses of a header, replaced. -/
def outAddrs (s : Local) (vif : SdataId) (h : Hdr) : Mac × Mac × Mac :=
  (outMac s vif h.addr1, outMac s vif h.addr2, outMac s vif h.addr3)

variable {a : Mac × Mac × Mac} {s : Local}

theorem mem_sentAddrs : a ∈ sentAddrs s ↔ ∃ path vif sta skb, .handed path vif sta skb ∈ s.log ∧
      a = (skb.hdr.addr1, skb.hdr.addr2, skb.hdr.addr3) := by
  rw [sentAddrs, List.mem_filterMap]
  constructor
  · rintro ⟨l, hmem, hl⟩
    cases l with
    | handed path vif sta skb => exact ⟨path, vif, sta, skb, hmem, (some.inj hl).symm⟩
    | draw k pn time => cases hl
    | reset k time => cases hl
  · rintro ⟨path, vif, sta, skb, hmem, rfl⟩
    exact ⟨_, hmem, rfl⟩

/-! ### The end of both paths -/

section TxFrags

variable {vif : Option SdataId} {sta sta' : Option StaId} {txpending : Bool} {path : Egress}
  {v : SdataId} {skb' : TxSkb}

theorem mem_handed_of_txFrags : ∀ (skbs : List TxSkb) {s s' : Local},
    txFrags vif sta txpending skbs s = some s' → .handed path v sta' skb' ∈ s'.log →
    .handed path v sta' skb' ∈ s.log ∨
      vif = some v ∧ ∃ skb ∈ skbs, skb'.hdr = macAddrChangeHdrTx s v skb.hdr := by
  intro skbs
  induction skbs with
  | nil =>
    intro s s' h hmem
    cases h
    exact .inl hmem
  | cons skb skbs ih =>
    intro s s' h hmem
    rw [txFrags.eq_def] at h
    simp only at h
    split_ifs at h
    · cases h
      exact .inl hmem
    · cases h
      exact .inl hmem
    · split at h
      · cases h
      · rename_i v'
        rcases ih h hmem with hmem | ⟨hv, skb₁, hskb₁, heq⟩
        · rcases List.mem_cons.mp hmem with heq | hmem
          · obtain ⟨-, rfl, -, rfl⟩ := Logged.handed.inj heq
            exact .inr ⟨rfl, skb, List.mem_cons_self, rfl⟩
          · exact .inl hmem
        · exact .inr ⟨hv, skb₁, List.mem_cons_of_mem _ hskb₁, heq⟩

theorem mem_sentAddrs_of_txFrags {skbs : List TxSkb} {s s' : Local}
    (h : txFrags vif sta txpending skbs s = some s') (ha : a ∈ sentAddrs s') :
    a ∈ sentAddrs s ∨ ∃ v, vif = some v ∧ ∃ skb ∈ skbs, a = outAddrs s v skb.hdr := by
  obtain ⟨path, v, sta', skb', hmem, rfl⟩ := mem_sentAddrs.mp ha
  rcases mem_handed_of_txFrags skbs h hmem with hold | ⟨hv, skb, hskb, heq⟩
  · exact .inl (mem_sentAddrs.mpr ⟨path, v, sta', skb', hold, rfl⟩)
  · refine .inr ⟨v, hv, skb, hskb, ?_⟩
    rw [heq, macAddrChangeHdrTx_eq, Hdr.mapAddrs_addr1, Hdr.mapAddrs_addr2, Hdr.mapAddrs_addr3]
    rfl

end TxFrags

theorem SameTables.outAddrs_eq {s s' : Local} (h : SameTables s s') (vif : SdataId) (hdr : Hdr) :
    outAddrs s' vif hdr = outAddrs s vif hdr := by
  rw [outAddrs, outAddrs, h.outMac_eq]

theorem Hdr.SameAddrs.outAddrs_eq {h h' : Hdr} (ha : h.SameAddrs h') (s : Local) (vif : SdataId) :
    outAddrs s vif h' = outAddrs s vif h := by
  rw [outAddrs, outAddrs, ha.addr1, ha.addr2, ha.addr3]

theorem driverVif_of_not_monitor {i : SdataId} (h : (s.sdata i).type ≠ .monitor) :
    driverVif s i = some (if (s.sdata i).type = .apVlan then (s.sdata i).bss else some i) := by
  simp only [driverVif]
  split <;> simp_all

/-! ### The fast path -/

/-- The addresses of a frame, written into a cached header. -/
def EthFrame.place (eth : EthFrame) (h : Hdr) (daIsAddr3 : Bool) (saField : ℕ) : Hdr :=
  let h := if daIsAddr3 then { h with addr3 := eth.dest } else { h with addr1 := eth.dest }
  match saField with
  | 2 => { h with addr2 := eth.source }
  | 3 => { h with addr3 := eth.source }
  | _ => h.setAddr4 eth.source

section Place

variable (eth : EthFrame) (h : Hdr) (da : Bool) (sa : ℕ)

theorem EthFrame.place_addr1 : (eth.place h da sa).addr1 = if da then h.addr1 else eth.dest := by
  simp only [EthFrame.place]
  split <;> split <;> simp

theorem EthFrame.place_addr2 :
    (eth.place h da sa).addr2 = if sa = 2 then eth.source else h.addr2 := by
  simp only [EthFrame.place]
  split <;> split <;> simp_all

theorem EthFrame.place_addr3 : (eth.place h da sa).addr3 =
    if sa = 3 then eth.source else if da then eth.dest else h.addr3 := by
  simp only [EthFrame.place]
  split <;> split <;> simp_all

end Place

variable {sta : Option StaId}

section Fast

variable {env : TxEnv} {s s' : Local} {i : SdataId} {j : StaId} {f : FastTx} {eth : EthFrame} {h : Hdr}
  {da : Bool} {sa : ℕ}

theorem FastTx.build_eq_place (f : FastTx) (eth : EthFrame) : f.build eth =
    let p := eth.place f.hdr f.daIsAddr3 f.saField
    if fastQos p.frameControl then
      { p with
        rest := Bytes.memcpyAt (p.rest ++ eth.payload) (if hasA4 p.frameControl then 6 else 0)
          [UInt8.ofNat (eth.priority % 8)] }
    else { p with rest := p.rest ++ eth.payload } := rfl

theorem FastTx.build_addrs (f : FastTx) (eth : EthFrame) :
    let p := eth.place f.hdr f.daIsAddr3 f.saField
    (f.build eth).addr1 = p.addr1 ∧ (f.build eth).addr2 = p.addr2 ∧ (f.build eth).addr3 = p.addr3 := by
  rw [FastTx.build_eq_place]
  dsimp only
  split
  · exact ⟨rfl, rfl, rfl⟩
  · exact ⟨rfl, rfl, rfl⟩

theorem fastTxAddrs_of_checkFastXmit {ok : Bool} (h : checkFastXmit s ok j = some f) :
    ∃ hdr, fastTxAddrs (s.sdataOf j) (s.sta j) = some (hdr, f.daIsAddr3, f.saField) ∧
      f.hdr.addr1 = hdr.addr1 ∧ f.hdr.addr2 = hdr.addr2 ∧ f.hdr.addr3 = hdr.addr3 := by
  simp only [checkFastXmit] at h
  split at h
  · cases h
  · split at h
    · rename_i hdr da sa _ _ _ haddrs _
      cases h
      exact ⟨hdr, haddrs, rfl, rfl, rfl⟩
    · cases h

theorem buildAddrs_of_buildHdr {skb : TxSkb} (h : buildHdr env s i sta eth = some skb) :
    ∃ hdr, buildAddrs env s i sta eth = some hdr ∧ skb.info.retransmission = false ∧
      skb.hdr.addr1 = hdr.addr1 ∧ skb.hdr.addr2 = hdr.addr2 ∧ skb.hdr.addr3 = hdr.addr3 := by
  rw [buildHdr] at h
  split at h
  · cases h
  · obtain ⟨hdr, hhdr, hskb⟩ := bind_eq_some_iff.mp h
    simp only at hskb
    split at hskb
    · cases hskb
    · cases hskb
      exact ⟨hdr, hhdr, rfl, rfl, rfl, rfl⟩

/-- **Both paths agree on who is who**: what `ieee80211_build_hdr` builds is the cached header, with
the addresses of the frame at the cached offsets. -/
theorem buildAddrs_eq_place (hport : env.portProtocol = false)
    (hfast : fastTxAddrs (s.sdataOf j) (s.sta j) = some (h, da, sa)) :
    buildAddrs env s (s.sta j).sdata (some j) eth = some (eth.place h da sa) := by
  simp only [fastTxAddrs, Local.sdataOf] at hfast
  simp only [buildAddrs, any_some, hport, Bool.not_false, Bool.and_true]
  cases htype : (s.sdata (s.sta j).sdata).type with
  | adhoc =>
    simp only [htype] at hfast
    cases hfast
    rfl
  | station =>
    simp only [htype] at hfast ⊢
    by_cases htdls : (s.sta j).tdlsPeer = true
    · rw [if_pos htdls] at hfast ⊢
      cases hfast
      rfl
    · rw [if_neg htdls] at hfast ⊢
      by_cases hfour : (s.sdata (s.sta j).sdata).use4addr = true
      · rw [if_pos hfour] at hfast ⊢
        cases hfast
        simp [EthFrame.place, Hdr.setAddr4]
      · rw [if_neg hfour] at hfast ⊢
        cases hfast
        rfl
  | apVlan =>
    simp only [htype] at hfast ⊢
    by_cases hfour : (s.sdata (s.sta j).sdata).use4addr = true
    · rw [if_pos hfour] at hfast ⊢
      cases hfast
      simp [EthFrame.place, Hdr.setAddr4]
    · rw [if_neg hfour] at hfast ⊢
      cases hfast
      rfl
  | ap =>
    simp only [htype] at hfast
    cases hfast
    rfl
  | _ => simp [htype] at hfast

/-- On the station's own interface, both paths put in the same addresses. -/
theorem build_addrs_eq {skb : TxSkb} {ok : Bool} (hvalid : checkFastXmit s ok j = some f)
    (haccept : xmitFastAccepts env f eth = true)
    (hbuild : buildHdr env s (s.sta j).sdata (some j) eth = some skb) :
    skb.hdr.addr1 = (f.build eth).addr1 ∧ skb.hdr.addr2 = (f.build eth).addr2 ∧
      skb.hdr.addr3 = (f.build eth).addr3 := by
  obtain ⟨hf, hfast, hf₁, hf₂, hf₃⟩ := fastTxAddrs_of_checkFastXmit hvalid
  obtain ⟨hb, hslow, -, hb₁, hb₂, hb₃⟩ := buildAddrs_of_buildHdr hbuild
  have hport : env.portProtocol = false := by
    simp only [xmitFastAccepts, Bool.and_eq_true, Bool.not_eq_true'] at haccept
    exact haccept.1.1.1
  cases hslow.symm.trans (buildAddrs_eq_place hport hfast)
  obtain ⟨h₁, h₂, h₃⟩ := f.build_addrs eth
  rw [h₁, h₂, h₃, hb₁, hb₂, hb₃]
  simp only [EthFrame.place_addr1, EthFrame.place_addr2, EthFrame.place_addr3, hf₁, hf₂, hf₃, and_self]

theorem sentAddrs_xmitFastFinish {pnOffs : Bool} {key : Option KeyId} {hwQueue : ℕ} (s : Local)
    (skb : TxSkb) : sentAddrs (xmitFastFinish s i j pnOffs key hwQueue skb).1 = sentAddrs s := by
  have hseq : ∀ skb', (fastNextSeq s i j skb').1.log = s.log := by
    intro skb'
    rw [fastNextSeq]
    split <;> rfl
  simp only [xmitFastFinish]
  split
  · split
    · simp only [sentAddrs, Local.incTxPn, Local.logged, List.filterMap_cons]
      rw [← hseq]
      rfl
    · rw [sentAddrs, hseq]
      rfl
  · rw [sentAddrs, hseq]
    rfl

theorem sentAddrs_xmitFast (hqueue : s.wakeTxQueue = false) (hlog : s.log = [])
    (htype : (s.sdata i).type ≠ .monitor) (h : xmitFast env i j f eth s = some s')
    (ha : a ∈ sentAddrs s') :
    ∃ v, driverVif s i = some (some v) ∧ a = outAddrs s v (f.build eth) := by
  have hnone : sentAddrs s = [] := by rw [sentAddrs, hlog]; rfl
  have hnoq : ∀ skb, queueSkb s i (some j) skb = none := by
    intro skb
    simp [queueSkb, hqueue]
  rw [xmitFast] at h
  simp only [hnoq] at h
  split at h
  · cases h
    rw [hnone] at ha
    cases ha
  · set fin := xmitFastFinish s i j f.pnOffs f.key env.hwQueue _ with hfin
    have ht : SameTables s fin.1 := sameTables_xmitFastFinish s _
    rcases mem_sentAddrs_of_txFrags h ha with hold | ⟨v, hv, skb, hskb, rfl⟩
    · rw [hfin, sentAddrs_xmitFastFinish, hnone] at hold
      cases hold
    · have htype' : (fin.1.sdata i).type ≠ .monitor := by rw [ht.type]; exact htype
      have hvif := driverVif_of_not_monitor htype'
      rw [hv, ht.vif] at hvif
      obtain rfl := List.mem_singleton.mp hskb
      refine ⟨v, hvif, ?_⟩
      rw [ht.outAddrs_eq, hfin, (sameAddrs_xmitFastFinish s _).outAddrs_eq]

end Fast

/-! ### The slow path -/

section Slow

variable {sha1 : List UInt8 → Vector UInt8 20} {C : Crypto} {env : TxEnv} {s s' : Local}
  {i : SdataId} {j : StaId} {skb : TxSkb} {a : Mac × Mac × Mac}

theorem sentAddrs_of_writes (hw : Writes sha1 s s') (hlog : s.log = []) : a ∉ sentAddrs s' := by
  intro ha
  obtain ⟨path, vif, sta, skb, hmem, -⟩ := mem_sentAddrs.mp ha
  exact not_mem_handed_of_writes hw hlog hmem

theorem mem_sentAddrs_of_ieee80211Tx' {txpending : Bool} {skbs : List TxSkb}
    (h : ieee80211Tx' sta txpending skbs s = some s') (ha : a ∈ sentAddrs s') :
    a ∈ sentAddrs s ∨ ∃ v, ∃ first ∈ skbs, driverVif s first.info.vif = some (some v) ∧
      ∃ skb ∈ skbs, a = outAddrs s v skb.hdr := by
  rw [ieee80211Tx'.eq_def] at h
  split at h
  · cases h
    exact .inl ha
  · rename_i first skbs'
    simp only at h
    split at h
    · cases h
      exact .inl ha
    · rename_i vif hvif
      rcases mem_sentAddrs_of_txFrags h ha with hold | ⟨v, rfl, hskb⟩
      · exact .inl hold
      · exact .inr ⟨v, first, List.mem_cons_self, hvif, hskb⟩

/-- The slow path sends the addresses of the frame, replaced from the table that
`handle_random_mac` leaves. -/
theorem sentAddrs_ieee80211Xmit (hqueue : s.wakeTxQueue = false) (hlog : s.log = [])
    (hre : skb.info.retransmission = false)
    (h : ieee80211Xmit sha1 C env i (some j) skb false s = some s') (ha : a ∈ sentAddrs s') :
    ∃ s₁ v, handleRandomMac sha1 env.gen env.insert (some j) s = some s₁ ∧
      driverVif s₁ i = some (some v) ∧ a = outAddrs s₁ v skb.hdr := by
  set skb₀ := setQosHdr { skb with info := { skb.info with vif := i } } with hskb₀
  have hqos : skb₀.info.vif = i ∧ skb₀.info.retransmission = false ∧
      ∀ s₁ v, outAddrs s₁ v skb₀.hdr = outAddrs s₁ v skb.hdr := by
    rw [hskb₀, setQosHdr]
    split
    · exact ⟨rfl, hre, fun _ _ => rfl⟩
    · exact ⟨rfl, hre, fun _ _ => rfl⟩
  rw [ieee80211Xmit, ieee80211Tx] at h
  split at h
  · cases h
    exact absurd ha (sentAddrs_of_writes (@Relation.ReflTransGen.refl _ (Write sha1) s) hlog)
  · rename_i tx₁ skb₁ hprep
    obtain ⟨-, hsta, hframe₁⟩ := txPrepare_frame hprep
    simp only at h
    split at h
    · rename_i s₂ hearly
      cases h
      exact absurd ha (sentAddrs_of_writes
        (@writes_invokeTxHandlersEarly sha1 _ _ _ _ _ _ hearly).1 hlog)
    · rename_i s₂ tx₂ skb₂ hearly
      have hkey := (@writes_invokeTxHandlersEarly sha1 _ _ _ _ _ _ hearly).2 tx₂ skb₂ rfl
      obtain ⟨rfl, htx, hframe₂⟩ := invokeTxHandlersEarly_frame hearly
      have hnoq : queueSkb s₂ i tx₂.sta skb₂ = none := by simp [queueSkb, hqueue]
      rw [hnoq] at h
      simp only at h
      split at h
      · cases h
      · rename_i s₃ hlate
        cases h
        exact absurd ha (sentAddrs_of_writes (writes_invokeTxHandlersLate hkey hlate) hlog)
      · rename_i s₃ skbs hlate
        rcases mem_sentAddrs_of_ieee80211Tx' h ha with hold | ⟨v, first, hfirst, hvif, skb₃, hskb₃, rfl⟩
        · exact absurd hold
            (sentAddrs_of_writes (writes_invokeTxHandlersLate hkey hlate) hlog)
        · obtain ⟨s₁, hrot, ht, hsame⟩ := invokeTxHandlersLate_cases hlate
          have htxsta : tx₂.sta = some j := by
            rw [show tx₂.sta = tx₁.sta from htx.sta]
            exact hsta rfl
          have hretx : skb₂.info.retransmission = false := by
            rw [hframe₂.retransmission]
            exact hframe₁.retransmission.trans hqos.2.1
          rw [hretx, htxsta] at hrot
          refine ⟨s₁, v, hrot, ?_, ?_⟩
          · rw [ht.vif, (hsame first hfirst).vif, hframe₂.vif] at hvif
            rwa [show skb₁.info.vif = i from hframe₁.vif.trans hqos.1] at hvif
          · rw [ht.outAddrs_eq, (hsame skb₃ hskb₃).hdr.outAddrs_eq, hframe₂.hdr]
            exact (congrArg (outAddrs s₁ v) hframe₁.hdr).trans (hqos.2.2 s₁ v)

end Slow

/-! ### Comparing the paths -/

/-- If a rotation is due that derives an address for the second, the table has it for the first
already; otherwise it has one address for both. -/
def MacAgrees (sha1 : List UInt8 → Vector UInt8 20) (env : GenEnv) (s : Local) (j : StaId) (v : SdataId)
    (fast slow : Mac) : Prop :=
  match dueMac sha1 env s j v slow with
  | some mac => outMac s v fast = mac
  | none => outMac s v fast = outMac s v slow

/-- The three addresses of the two headers agree, in the table of the interface that is sent on. -/
def FastAgrees (sha1 : List UInt8 → Vector UInt8 20) (env : TxEnv) (s : Local) (i : SdataId)
    (j : StaId) (fast slow : Hdr) : Prop :=
  ∀ v, driverVif s i = some (some v) → MacAgrees sha1 env.gen s j v fast.addr1 slow.addr1 ∧
    MacAgrees sha1 env.gen s j v fast.addr2 slow.addr2 ∧ MacAgrees sha1 env.gen s j v fast.addr3 slow.addr3

/-- A rotation that is due derives what the table has for the addresses of a header already. -/
def DerivesSame (sha1 : List UInt8 → Vector UInt8 20) (env : TxEnv) (s : Local) (i : SdataId)
    (j : StaId) (h : Hdr) : Prop :=
  ∀ v, driverVif s i = some (some v) → ∀ a ∈ [h.addr1, h.addr2, h.addr3], ∀ mac,
    dueMac sha1 env.gen s j v a = some mac → outMac s v a = mac

section Compare

variable {sha1 : List UInt8 → Vector UInt8 20} {C : Crypto} {env : TxEnv} {s s₁ fast slow : Local}
  {i v : SdataId} {j : StaId} {f : FastTx} {eth : EthFrame} {skb : TxSkb} {a b : Mac × Mac × Mac}

theorem macAgrees_iff {ok : Bool} {gen : GenEnv} {x y : Mac}
    (hrot : handleRandomMac sha1 gen ok (some j) s = some s₁) :
    MacAgrees sha1 gen s j v x y ↔ outMac s v x = outMac s₁ v y := by
  rw [outMac_handleRandomMac hrot, MacAgrees]
  cases dueMac sha1 gen s j v y <;> rfl

/-- Where both paths put in the same addresses, only what a rotation derives can differ. -/
theorem fastAgrees_iff_of_addrs_eq {h h' : Hdr} (h₁ : h'.addr1 = h.addr1) (h₂ : h'.addr2 = h.addr2)
    (h₃ : h'.addr3 = h.addr3) :
    FastAgrees sha1 env s i j h h' ↔ DerivesSame sha1 env s i j h := by
  have hself (v : SdataId) (x : Mac) : MacAgrees sha1 env.gen s j v x x ↔
      ∀ mac, dueMac sha1 env.gen s j v x = some mac → outMac s v x = mac := by
    rw [MacAgrees]
    cases dueMac sha1 env.gen s j v x with
    | none => simp
    | some mac => simp
  rw [FastAgrees, DerivesSame, h₁, h₂, h₃]
  simp only [hself, List.forall_mem_cons, List.not_mem_nil, false_imp_iff, implies_true, and_true]

theorem type_ne_monitor_of_buildHdr (h : buildHdr env s i sta eth = some skb) :
    (s.sdata i).type ≠ .monitor := by
  obtain ⟨hdr, hhdr, -⟩ := buildAddrs_of_buildHdr h
  intro htype
  simp only [buildAddrs, htype] at hhdr
  cases hhdr

/-- **When fast and slow path agree** on `addr1` to `addr3` of an accepted frame: exactly if each
has the same replacement on both, where a rotation that is due replaces it on the slow path only. On
the station's own interface: exactly if no rotation is due, or it derives what the table has. -/
theorem fast_eq_slow_iff {ok : Bool} (hqueue : s.wakeTxQueue = false) (hlog : s.log = [])
    (hvalid : checkFastXmit s ok j = some f) (haccept : xmitFastAccepts env f eth = true)
    (hfast : xmitFast env i j f eth s = some fast) (ha : a ∈ sentAddrs fast)
    (hbuild : buildHdr env s i (some j) eth = some skb)
    (hslow : ieee80211Xmit sha1 C env i (some j) skb false s = some slow)
    (hb : b ∈ sentAddrs slow) : (a = b ↔ FastAgrees sha1 env s i j (f.build eth) skb.hdr) ∧
      (i = (s.sta j).sdata →
        (a = b ↔ rotationDue s j = false ∨ DerivesSame sha1 env s i j (f.build eth))) := by
  have htype := type_ne_monitor_of_buildHdr hbuild
  obtain ⟨-, -, hre, -⟩ := buildAddrs_of_buildHdr hbuild
  obtain ⟨v, hv, rfl⟩ := sentAddrs_xmitFast hqueue hlog htype hfast ha
  obtain ⟨s₁, v₁, hrot, hv₁, rfl⟩ := sentAddrs_ieee80211Xmit hqueue hlog hre hslow hb
  obtain rfl : v₁ = v := by
    rw [(writes_handleRandomMac hrot).writes.driverVif_eq, hv] at hv₁
    exact (some.inj (some.inj hv₁)).symm
  have hiff : outAddrs s v₁ (f.build eth) = outAddrs s₁ v₁ skb.hdr ↔
      FastAgrees sha1 env s i j (f.build eth) skb.hdr := by
    have hone : (∀ v, driverVif s i = some (some v) → v = v₁) := fun v hv₂ =>
      some.inj (some.inj (hv₂.symm.trans hv))
    rw [outAddrs, outAddrs, Prod.mk.injEq, Prod.mk.injEq, ← macAgrees_iff hrot, ← macAgrees_iff hrot,
      ← macAgrees_iff hrot, FastAgrees]
    exact ⟨fun h v hv₂ => hone v hv₂ ▸ h, fun h => h v₁ hv⟩
  refine ⟨hiff, ?_⟩
  rintro rfl
  obtain ⟨h₁, h₂, h₃⟩ := build_addrs_eq hvalid haccept hbuild
  rw [hiff, fastAgrees_iff_of_addrs_eq h₁ h₂ h₃]
  refine ⟨.inr, fun h => h.elim (fun hdue v _ a _ mac hmac => ?_) id⟩
  rw [dueMac, hdue] at hmac
  cases hmac

end Compare

/-! ### A new period -/

/-- A station with a key in the hardware and a cached header, which is sent frames in two periods. -/
def fastStaEvents : List Event :=
  setupAp 0 (toyMac 1) ++
    [.addSta 0 { addr := toyMac 3, sdata := 0 },
      .key (.alloc { cipher := .ccmp, key := List.replicate 16 0, uploadedToHardware := true }),
      .key (.setPtk 0 0 (some 0)), .key (.setPtkIdx 0 0), .moveState 0 .authorized,
      .checkFastXmit true 0] ++
    let send : Event := .xmit {} 0 (some 0) (dataTo (toyMac 3) (toyMac 1) (toyMac 1)) false
    [send, .tick 15, send]

/-- An IPv4 packet to the station. -/
def ethToSta : EthFrame := { dest := toyMac 3, source := toyMac 9, payload := [8, 0, 1, 2, 3] }

/-- The cached header is up to date, the frame is accepted, and there is no queue. -/
def fastReady (s : Local) (f : FastTx) : Bool :=
  s.log = [] && s.wakeTxQueue = false && (s.sta 0).fastTx = some f && xmitFastAccepts {} f ethToSta

/-- What the two paths send from a state. -/
def bothPaths (s : Local) : Option (Bool × List (Mac × Mac × Mac) × List (Mac × Mac × Mac)) :=
  (checkFastXmit s true 0).bind fun f =>
    (xmitFast {} 0 0 f ethToSta s).bind fun fast =>
      (buildHdr {} s 0 (some 0) ethToSta).bind fun skb =>
        (ieee80211Xmit toyHash toyCrypto {} 0 (some 0) skb false s).map fun slow =>
          (fastReady s f, sentAddrs fast, sentAddrs slow)

theorem bothPaths_eq_some {as bs : List (Mac × Mac × Mac)} (h : bothPaths s = some (true, as, bs)) :
    ∃ f fast skb slow, s.log = [] ∧ s.wakeTxQueue = false ∧ (s.sta 0).fastTx = some f ∧
      checkFastXmit s true 0 = some f ∧ xmitFastAccepts {} f ethToSta = true ∧
      xmitFast {} 0 0 f ethToSta s = some fast ∧ sentAddrs fast = as ∧
      buildHdr {} s 0 (some 0) ethToSta = some skb ∧
      ieee80211Xmit toyHash toyCrypto {} 0 (some 0) skb false s = some slow ∧
      sentAddrs slow = bs := by
  obtain ⟨f, hf, h⟩ := bind_eq_some_iff.mp h
  obtain ⟨fast, hfast, h⟩ := bind_eq_some_iff.mp h
  obtain ⟨skb, hskb, h⟩ := bind_eq_some_iff.mp h
  obtain ⟨slow, hslow, heq⟩ := map_eq_some_iff.mp h
  obtain ⟨hready, heq⟩ := Prod.mk.inj heq
  obtain ⟨has, hbs⟩ := Prod.mk.inj heq
  simp only [fastReady, Bool.and_eq_true, decide_eq_true_eq] at hready
  obtain ⟨⟨⟨hlog, hqueue⟩, hcached⟩, haccept⟩ := hready
  exact ⟨f, fast, skb, slow, hlog, hqueue, hcached, hf, haccept, hfast, has, hskb, hslow, hbs⟩

/-- In a new period the fast path still uses the random address of the period before, where the slow
path uses a new one. -/
theorem fast_path_keeps_old_address : ∃ s os f fast skb slow a b,
      Reach (deviceStep toyHash toyCrypto) (fun _ _ _ => True) (bootLocal {}) s os ∧
      s.wakeTxQueue = false ∧ (s.sta 0).fastTx = some f ∧ checkFastXmit s true 0 = some f ∧
      xmitFastAccepts {} f ethToSta = true ∧ xmitFast {} 0 0 f ethToSta s = some fast ∧
      sentAddrs fast = [a] ∧ buildHdr {} s 0 (some 0) ethToSta = some skb ∧
      ieee80211Xmit toyHash toyCrypto {} 0 (some 0) skb false s = some slow ∧
      sentAddrs slow = [b] ∧ a ≠ b := by
  have hrun : (run (deviceStep toyHash toyCrypto) (bootLocal {}) (fastStaEvents ++ [.tick 15])).bind
      (fun r => bothPaths r.1) =
      some (true, [(#v[2, 1, 0, 0, 0, 3], toyMac 1, toyMac 9)],
        [(#v[2, 2, 0, 0, 0, 3], toyMac 1, toyMac 9)]) := by
    decide +kernel
  obtain ⟨⟨s, os⟩, hr, hboth⟩ := bind_eq_some_iff.mp hrun
  obtain ⟨f, fast, skb, slow, -, hqueue, hcached, hvalid, haccept, hfast, has, hskb, hslow, hbs⟩ :=
    bothPaths_eq_some hboth
  exact ⟨s, os, f, fast, skb, slow, _, _, Reach.of_run_init hr, hqueue, hcached, hvalid, haccept,
    hfast, has, hskb, hslow, hbs, by decide⟩

theorem fast_eq_slow_same_period : ∃ s os f fast skb slow a b,
      Reach (deviceStep toyHash toyCrypto) (fun _ _ _ => True) (bootLocal {}) s os ∧
      checkFastXmit s true 0 = some f ∧ xmitFast {} 0 0 f ethToSta s = some fast ∧
      a ∈ sentAddrs fast ∧ ieee80211Xmit toyHash toyCrypto {} 0 (some 0) skb false s = some slow ∧
      b ∈ sentAddrs slow ∧ a = b ∧
      FastAgrees toyHash {} s 0 0 (f.build ethToSta) skb.hdr := by
  have hrun : (run (deviceStep toyHash toyCrypto) (bootLocal {}) (fastStaEvents ++ [.tick 0])).bind
      (fun r => bothPaths r.1) =
      some (true, [(#v[2, 1, 0, 0, 0, 3], toyMac 1, toyMac 9)],
        [(#v[2, 1, 0, 0, 0, 3], toyMac 1, toyMac 9)]) := by
    decide +kernel
  obtain ⟨⟨s, os⟩, hr, hboth⟩ := bind_eq_some_iff.mp hrun
  obtain ⟨f, fast, skb, slow, hlog, hqueue, -, hvalid, haccept, hfast, has, hskb, hslow, hbs⟩ :=
    bothPaths_eq_some hboth
  have ha := has ▸ List.mem_cons_self
  have hb := hbs ▸ List.mem_cons_self
  have hiff := (fast_eq_slow_iff hqueue hlog hvalid haccept hfast ha hskb hslow hb).1
  exact ⟨s, os, f, fast, skb, slow, _, _, Reach.of_run_init hr, hvalid, hfast, ha, hslow, hb, rfl,
    hiff.mp rfl⟩

end Mac80211
