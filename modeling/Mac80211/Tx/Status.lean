import Mac80211.Tx.Leak

/-!
# Whose status is it

`ieee80211_tx_status` looks for the station with the address in `addr1`, on the interface with the
address in `addr2`, after `ieee80211_tx_frags` has replaced them.

## Main results

* `statusSta_eq_iff` — when the status is counted for the right station
-/

namespace Mac80211

open Machine

/-- `ieee80211_tx_status`: the station the frame was for. -/
def statusSta (s : Local) (h : Hdr) : Option StaId :=
  (staInfoHashLookup s h.addr1).find? fun j => h.addr2 = (s.sdataOf j).addr

/-- The same address, on an interface with the same address. -/
def SamePair (s : Local) (j j' : StaId) : Prop :=
  (s.sta j').addr = (s.sta j).addr ∧ (s.sdataOf j').addr = (s.sdataOf j).addr

/-- A station entry that no newer one hides. -/
def Newest (s : Local) (j : StaId) : Prop :=
  ∃ older newer, s.staList = older ++ j :: newer ∧ ∀ j' ∈ newer, ¬ SamePair s j j'

theorem statusSta_eq_some_iff {s : Local} {h : Hdr} {j : StaId} : statusSta s h = some j ↔
      h.addr1 = (s.sta j).addr ∧ h.addr2 = (s.sdataOf j).addr ∧ Newest s j := by
  rw [statusSta, staInfoHashLookup, List.find?_filter, List.find?_eq_some_iff_append]
  simp only [decide_eq_true_eq, Bool.not_eq_true', decide_eq_false_iff_not]
  constructor
  · rintro ⟨⟨h₁, h₂⟩, newer, older, hlist, hnot⟩
    refine ⟨h₁.symm, h₂, older.reverse, newer.reverse, ?_, ?_⟩
    · have hrev := congrArg List.reverse hlist
      simpa using hrev
    · rintro j' hj' ⟨hp₁, hp₂⟩
      exact hnot j' (List.mem_reverse.mp hj') ⟨hp₁.trans h₁, h₂.trans hp₂.symm⟩
  · rintro ⟨h₁, h₂, older, newer, hlist, hnot⟩
    refine ⟨⟨h₁.symm, h₂⟩, newer.reverse, older.reverse, ?_, ?_⟩
    · rw [hlist]
      simp
    · rintro j' hj' ⟨hp₁, hp₂⟩
      exact hnot j' (List.mem_reverse.mp hj') ⟨hp₁.trans h₁, hp₂.symm.trans h₂⟩

/-- Replacing the addresses of a frame leaves it one from the interface of station `j` to `j`. -/
structure Attributable (s : Local) (vif : SdataId) (j : StaId) (h : Hdr) : Prop where
  addr1 : outMac s vif h.addr1 = (s.sta j).addr
  addr2 : outMac s vif h.addr2 = (s.sdataOf j).addr
  newest : Newest s j

/-! ### Between transmission and status -/

section Later

variable {sha1 : List UInt8 → Vector UInt8 20} {C : Crypto} {s s' s'' : Local} {os o : List Logged}
  {e : Event} {vif : SdataId} {sta : Option StaId} {skb : TxSkb} {path : Egress}

theorem SameConfig.statusSta_eq (hc : SameConfig s s') (h : Hdr) :
    statusSta s' h = statusSta s h := by
  have haddr : ∀ j, (s'.sta j).addr = (s.sta j).addr :=
    fun j => (congrArg StaInfo.addr (hc.sta j) :)
  have hsdata : ∀ j, (s'.sdataOf j).addr = (s.sdataOf j).addr := by
    intro j
    have hj : (s'.sta j).sdata = (s.sta j).sdata := (congrArg StaInfo.sdata (hc.sta j) :)
    rw [Local.sdataOf, Local.sdataOf, hj]
    exact (congrArg SubIfData.addr (hc.sdata _) :)
  simp only [statusSta, staInfoHashLookup, hc.staList, haddr, hsdata]

/-- Frames come and go, and addresses are rotated, as long as nobody configures the device. -/
theorem sameConfig_of_reach
    (h : Reach (deviceStep sha1 C) (fun _ _ e => e.changesConfig = false) s s' os) :
    SameConfig s s' := by
  refine h.invariant (fun s' _ => SameConfig s s') (.refl s) ?_
  intro s₁ os₁ e s₂ o₂ hc he hstep
  obtain ⟨s₃, hs₃, heq⟩ := Option.map_eq_some_iff.mp hstep
  cases heq
  obtain ⟨s₄, hw, hh⟩ := does_handle he hs₃
  have hlog : SameConfig s₁ { s₁ with log := [] } :=
    ⟨fun _ => rfl, fun _ => rfl, rfl, rfl, rfl, fun _ => rfl⟩
  exact hc.trans (hlog.trans (hw.sameConfig.trans (Hands.sameConfig hh)))

theorem exists_hdr_of_handed (hstep : deviceStep sha1 C s e = some (s', o))
    (hmem : .handed .txFrags vif sta skb ∈ o) : ∃ hdr, skb.hdr = macAddrChangeHdrTx s' vif hdr := by
  obtain ⟨s₁, hs₁, heq⟩ := Option.map_eq_some_iff.mp hstep
  obtain ⟨rfl, rfl⟩ := Prod.mk.inj heq
  rw [List.mem_reverse] at hmem
  rcases handle_cases hs₁ with ⟨s₂, hw, hh⟩ | hc
  · rcases Hands.mem_handed hh hmem with hmem | ⟨hpath, hhdr⟩
    · exact (not_mem_handed_of_writes hw rfl hmem).elim
    · exact hhdr hpath.symm
  · have hnil : s₁.log = [] := hc.log
    rw [hnil] at hmem
    cases hmem

/-- **The status goes to the right station exactly if the new addresses say the same as the old**:
it is counted for `j` if and only if the frame, before its addresses were replaced, is attributable
to `j`. -/
theorem statusSta_eq_iff (hstep : deviceStep sha1 C s e = some (s', o)) {j : StaId}
    (hmem : .handed .txFrags vif (some j) skb ∈ o) :
    ∃ hdr, skb.hdr = macAddrChangeHdrTx s' vif hdr ∧ ∀ s'' os,
      Reach (deviceStep sha1 C) (fun _ _ e => e.changesConfig = false) s' s'' os →
      (statusSta s'' skb.hdr = some j ↔ Attributable s' vif j hdr) := by
  obtain ⟨hdr, hhdr⟩ := exists_hdr_of_handed hstep hmem
  refine ⟨hdr, hhdr, fun s'' os hlater => ?_⟩
  have hsame := sameConfig_of_reach hlater
  rw [hsame.statusSta_eq, statusSta_eq_some_iff, hhdr, macAddrChangeHdrTx_eq, Hdr.mapAddrs_addr1,
    Hdr.mapAddrs_addr2]
  constructor
  · rintro ⟨h₁, h₂, hn⟩
    exact ⟨h₁, h₂, hn⟩
  · rintro ⟨h₁, h₂, hn⟩
    exact ⟨h₁, h₂, hn⟩

end Later

/-- A frame to this station was handed to the driver, and its status is counted for `who`. -/
def countedFor (s : Local) (j : StaId) (who : Option StaId) : Logged → Bool
  | .handed .txFrags _ sta skb =>
    sta = some j && !isMulticastEtherAddr skb.hdr.addr1 && statusSta s skb.hdr = who
  | _ => false

/-- A frame to the station after a history, for which this station is found. -/
theorem exists_of_countedFor {es : List Event} {found : Option StaId}
    (hrun : (run (deviceStep toyHash toyCrypto) (bootLocal {}) es).bind
      (fun r => (deviceStep toyHash toyCrypto r.1 sendToSta).map
        fun r' => r'.2.any (countedFor r'.1 0 found)) = some true) :
    ∃ s os s' o vif skb,
      Reach (deviceStep toyHash toyCrypto) (fun _ _ _ => True) (bootLocal {}) s os ∧
      deviceStep toyHash toyCrypto s sendToSta = some (s', o) ∧ .handed .txFrags vif (some 0) skb ∈ o ∧
      isMulticastEtherAddr skb.hdr.addr1 = false ∧ statusSta s' skb.hdr = found := by
  obtain ⟨⟨s, os⟩, hr, hlast⟩ := Option.bind_eq_some_iff.mp hrun
  obtain ⟨⟨s', o⟩, hstep, hany⟩ := Option.map_eq_some_iff.mp hlast
  obtain ⟨l, hmem, hl⟩ := List.any_eq_true.mp hany
  cases l with
  | handed path vif sta skb =>
    cases path with
    | txFrags =>
      simp only [countedFor, Bool.and_eq_true, decide_eq_true_eq, Bool.not_eq_true'] at hl
      obtain ⟨⟨rfl, huni⟩, hfound⟩ := hl
      exact ⟨s, os, s', o, vif, skb, Reach.of_run_init hr, hstep, hmem, huni, hfound⟩
    | _ => cases hl
  | _ => cases hl

/-- The status of the first frame to a rotated station finds no station. -/
theorem rotated_station_gets_no_status : ∃ s os e s' o vif skb,
      Reach (deviceStep toyHash toyCrypto) (fun _ _ _ => True) (bootLocal {}) s os ∧
      deviceStep toyHash toyCrypto s e = some (s', o) ∧ .handed .txFrags vif (some 0) skb ∈ o ∧
      isMulticastEtherAddr skb.hdr.addr1 = false ∧ statusSta s' skb.hdr ≠ some 0 := by
  obtain ⟨s, os, s', o, vif, skb, hr, hstep, hmem, huni, hnone⟩ :=
    @exists_of_countedFor (newPeriodEvents [sendToSta]) none (by decide +kernel)
  refine ⟨s, os, _, s', o, vif, skb, hr, hstep, hmem, huni, ?_⟩
  rw [hnone]
  exact nofun

/-- As long as the station has no other address, it gets its status. -/
theorem statusSta_eq_iff_first_contact : ∃ s os s' o vif skb hdr,
      Reach (deviceStep toyHash toyCrypto) (fun _ _ _ => True) (bootLocal {}) s os ∧
      deviceStep toyHash toyCrypto s sendToSta = some (s', o) ∧
      .handed .txFrags vif (some 0) skb ∈ o ∧ statusSta s' skb.hdr = some 0 ∧
      Attributable s' vif 0 hdr := by
  obtain ⟨s, os, s', o, vif, skb, hr, hstep, hmem, -, hsome⟩ :=
    @exists_of_countedFor (newPeriodEvents []) (some 0) (by decide +kernel)
  obtain ⟨hdr, -, hiff⟩ := statusSta_eq_iff hstep hmem
  exact ⟨s, os, s', o, vif, skb, hdr, hr, hstep, hmem, hsome, (hiff s' [] .init).mp hsome⟩

end Mac80211
