import Mac80211.Keys.FastTxLink

/-!
# The cached header keeps up with the keys

Whenever a station has a `fast_tx`, its key is the one the slow path would choose, linked and in the
hardware, except after three operations: the pairwise key in use is deleted, a pairwise key for
Extended Key ID goes into the slot in use, or the driver takes the default key of an interface away
and refuses the next.

## Main results

* `fastTx_coherent`
-/

namespace Mac80211

variable {j : StaId}

namespace FastState

variable {s s' : FastState}

/-! ### Other operations -/

theorem FastInv.of_fast (h : FastInv s) (hframe : Frame s s') (hheld : s'.held = s.held)
    (hfast : ∀ j ∈ s.loc.staList, FastOk s' j) : FastInv s' where
  keys := h.keys.frame hframe fun _ _ hk => .inl (hheld ▸ hk)
  fast := fun j hj => hfast j (hframe.staList ▸ hj)

/-- Something about one station changes that only matters while it has a `fast_tx`, and then it is looked
at again. -/
theorem FastInv.check (h : FastInv s) (env : FastEnv) (j : StaId) (hframe : Frame s s')
    (hheld : s'.held = s.held) (hview : ∀ j', j' ≠ j → SameView s s' j') :
    FastInv (s'.checkFastXmit env j) := by
  refine h.of_fast (hframe.trans ⟨rfl, fun _ => rfl, rfl, rfl, rfl⟩)
    ((held_checkFastXmit env s' j).trans hheld) fun j' hj' => ?_
  by_cases hjj : j' = j
  · exact hjj ▸ checkFastXmit_fastOk env s' j'
  · exact ((h.fast j' hj').of_sameView (hview j' hjj)).checkFastXmit env j

theorem FastInv.clear (h : FastInv s) (j : StaId) (hframe : Frame s s') (hheld : s'.held = s.held)
    (hview : ∀ j', j' ≠ j → SameView s s' j') : FastInv (s'.clearFastXmit j) := by
  refine h.of_fast (hframe.trans ⟨rfl, fun _ => rfl, rfl, rfl, rfl⟩)
    ((held_clearFastXmit s' j).trans hheld) fun j' hj' => ?_
  by_cases hjj : j' = j
  · exact hjj ▸ .of_none (fastTx_clearFastXmit s' j')
  · exact ((h.fast j' hj').of_sameView (hview j' hjj)).clearFastXmit j

theorem FastInv.without (h : FastInv s) (hnone : (s'.loc.sta j).fastTx = none)
    (hframe : Frame s s') (hheld : s'.held = s.held) (hview : ∀ j', j' ≠ j → SameView s s' j') :
    FastInv s' := by
  refine h.of_fast hframe hheld fun j' hj' => ?_
  by_cases hjj : j' = j
  · exact hjj ▸ .of_none (hjj ▸ hnone)
  · exact (h.fast j' hj').of_sameView (hview j' hjj)

theorem FastInv.setTxKey (h : FastInv s) (env : FastEnv) (j : StaId) (idx : ℕ) :
    FastInv (s.setTxKey env j idx) :=
  h.check env j ⟨rfl, fun _ => rfl, rfl, rfl, rfl⟩ (held_updSta rfl rfl)
    fun _ hj' => sameView_updSta fun he => absurd he hj'

theorem FastInv.setDefaultKey (h : FastInv s) (env : FastEnv) (i : SdataId) (idx : Option ℕ)
    (uni multi : Bool) : FastInv (s.setDefaultKey env i idx uni multi) where
  keys := by
    refine h.keys.frame (frame_setDefaultKey env s i idx uni multi) fun p k hk => ?_
    rw [held_setDefaultKey] at hk
    split at hk
    · rw [Function.update_apply] at hk
      split at hk
      · rename_i hp
        -- the new default is in a slot of the interface
        obtain ⟨n, -, hn⟩ := Option.bind_eq_some_iff.1 hk
        split at hn
        · have hl := h.keys.held _ _ hn
          refine .inr ⟨hl.bound, ?_, hl.listed⟩
          rw [hp]
          exact hl.fits.1
        · cases hn
      · exact .inl hk
    · exact .inl hk
  fast := fun j hj => by
    rw [(frame_setDefaultKey env s i idx uni multi).staList] at hj
    exact fastOk_setDefaultKey env i idx uni multi hj (.inl (h.fast j hj))

theorem FastInv.fastTx_of_staState (h : FastInv s) (hj : j ∈ s.loc.staList)
    (hstate : (s.loc.sta j).staState ≠ .authorized) : (s.loc.sta j).fastTx = none := by
  cases hf : (s.loc.sta j).fastTx with
  | none => rfl
  | some f => exact absurd ((h.fast j hj).authorized f hf) hstate

theorem FastInv.fastTx_of_asleep (h : FastInv s) (hj : j ∈ s.loc.staList)
    (hps : (s.ps j).asleep = true) : (s.loc.sta j).fastTx = none := by
  cases hf : (s.loc.sta j).fastTx with
  | none => rfl
  | some f =>
    have hawake := (h.fast j hj).awake f hf
    rw [hps] at hawake
    cases hawake

theorem FastInv.moveState (h : FastInv s) (env : FastEnv) (ok : Bool)
    (hj : j ∈ s.loc.staList) (state : StaState) : FastInv (s.moveState env ok j state) := by
  have hframe : Frame s (s.updSta j fun t => { t with staState := state }) :=
    ⟨rfl, fun _ => rfl, rfl, rfl, rfl⟩
  have hheld : (s.updSta j fun t => { t with staState := state }).held = s.held := held_updSta rfl rfl
  have hview (j' : StaId) (hj' : j' ≠ j) :
      SameView s (s.updSta j fun t => { t with staState := state }) j' :=
    sameView_updSta fun he => absurd he hj'
  have hnone (hstate : (s.loc.sta j).staState ≠ .authorized) :
      FastInv (s.updSta j fun t => { t with staState := state }) := by
    refine h.without (j := j) ?_ hframe hheld hview
    rw [updSta, Local.updSta_sta_self]
    exact h.fastTx_of_staState hj hstate
  rw [FastState.moveState]
  dsimp only
  split
  · exact h
  · rename_i hmay
    have hmay : mayMove (s.loc.sta j).staState state = true := by
      simp only [Bool.or_eq_true, Bool.not_eq_true', not_or, Bool.not_eq_false] at hmay
      exact hmay.1
    cases state with
    | assoc =>
      dsimp only
      split
      · exact h.clear j hframe hheld hview
      · rename_i hold
        exact hnone hold
    | authorized => exact h.check env j hframe hheld hview
    | none =>
      refine hnone fun hold => ?_
      rw [hold] at hmay
      cases hmay
    | auth =>
      refine hnone fun hold => ?_
      rw [hold] at hmay
      cases hmay
    | notexist =>
      refine hnone fun hold => ?_
      rw [hold] at hmay
      cases hmay

/-! ### Power save -/

section

variable (h : FastInv s) (env : FastEnv) {j : StaId} (hj : j ∈ s.loc.staList)

include h in
theorem FastInv.updPs_check (f : StaPs → StaPs) : FastInv ((s.updPs j f).checkFastXmit env j) :=
  h.check env j ⟨rfl, fun _ => rfl, rfl, rfl, rfl⟩ rfl fun _ hj' => sameView_updPs hj'

include h in
theorem FastInv.updPs_clear (f : StaPs → StaPs) : FastInv ((s.updPs j f).clearFastXmit j) :=
  h.clear j ⟨rfl, fun _ => rfl, rfl, rfl, rfl⟩ rfl fun _ hj' => sameView_updPs hj'

include h hj in
theorem FastInv.updPs (f : StaPs → StaPs) (hps : (s.ps j).asleep = true) : FastInv (s.updPs j f) :=
  h.without (j := j) (h.fastTx_of_asleep hj hps) ⟨rfl, fun _ => rfl, rfl, rfl, rfl⟩ rfl
    fun _ hj' => sameView_updPs hj'

include h in
theorem FastInv.staPsDeliverWakeup : FastInv (s.staPsDeliverWakeup env j) := by
  rw [FastState.staPsDeliverWakeup]
  split
  · exact h.updPs_check env _
  · exact h

include h hj in
theorem FastInv.staPsTransition (start : Bool) : FastInv (s.staPsTransition env j start) := by
  rw [FastState.staPsTransition]
  split
  · exact h
  · rename_i hne
    split
    · rw [staPsStart]
      split
      · exact h.updPs_clear _
      · exact h
    · rename_i hstart
      have hps : (s.ps j).asleep = true := by
        have hsta : (s.ps j).psSta = true := by
          cases hsta : (s.ps j).psSta with
          | true => rfl
          | false => exact absurd (by rw [hsta]; simpa using hstart) hne
        rw [StaPs.asleep, hsta]
        rfl
      rw [staPsEnd]
      split
      · exact h.updPs hj _ hps
      · exact (h.updPs hj _ hps).staPsDeliverWakeup env

include h hj in
theorem FastInv.staBlockAwake (block polled : Bool) : FastInv (s.staBlockAwake env j block polled) := by
  rw [FastState.staBlockAwake]
  split
  · exact h.updPs_clear _
  · split
    · exact h
    · rename_i hdriver
      have hps : (s.ps j).asleep = true := by
        have hdriver : (s.ps j).psDriver = true := by simpa using hdriver
        rw [StaPs.asleep, hdriver]
        simp
      split
      · exact h.updPs hj _ hps
      · split
        · exact h.updPs hj _ hps
        · exact h.updPs_check env _

include h in
theorem FastInv.staDeliverPsFrames : FastInv (s.staDeliverPsFrames env j) := by
  rw [FastState.staDeliverPsFrames]
  split
  · exact h.staPsDeliverWakeup env
  · exact h

include h in
theorem FastInv.txPrepare : FastInv (s.txPrepare env j) := by
  rw [FastState.txPrepare]
  split
  · exact h.updPs_check env _
  · exact h

end

end FastState

/-! ### Whole runs -/

open FastState

/-- The event does not change the key of a cached header without a look at the header. -/
def FastEvent.Keeps (s : FastState) : FastEvent → Prop
  | .link env home idx key _ => LinkKeeps env s home idx key
  | .free _ home idx => s.slot home idx = none ∨ KeepsPtk s home idx
  | _ => True

instance (s : FastState) (e : FastEvent) : Decidable (e.Keeps s) := by
  cases e
  all_goals
    unfold FastEvent.Keeps
    infer_instance

theorem FastState.FastInv.step {s s' : FastState} {e : FastEvent} {o : List Unit} (h : FastInv s)
    (hk : e.Keeps s) (hs : fastStep s e = some (s', o)) : FastInv s' := by
  rw [fastStep] at hs
  split at hs
  · rename_i hsta
    cases hs
    rw [Option.all_eq_true] at hsta
    cases e with
    | link env home idx key seq => exact fastInv_keyLink env home idx key seq h hk
    | free env home idx => exact fastInv_keyFree env home idx h hk
    | setTxKey env j idx => exact h.setTxKey env j idx
    | setDefaultKey env i idx uni multi => exact h.setDefaultKey env i idx uni multi
    | moveState env ok j state => exact h.moveState env ok (by simpa using hsta j rfl) state
    | psTransition env j start => exact h.staPsTransition env (by simpa using hsta j rfl) start
    | blockAwake env j block polled =>
      exact h.staBlockAwake env (by simpa using hsta j rfl) block polled
    | deliver env j => exact h.staDeliverPsFrames env
    | filtered j => exact h.updPs_clear _
    | prepare env j => exact h.txPrepare env
  · cases hs

/-- No keys, and nothing cached. -/
structure FastState.Blank (s : FastState) : Prop where
  held : ∀ p, s.held p = none
  keyList : ∀ i, s.keyList i = []
  fastTx : ∀ j, (s.loc.sta j).fastTx = none

variable {s : FastState}

theorem FastState.Blank.fastInv (h : s.Blank) : FastInv s where
  keys := by
    refine ⟨fun p k hk => ?_, fun i k hk => ?_⟩
    · rw [h.held p] at hk
      cases hk
    · rw [h.keyList i] at hk
      cases hk
  fast := fun j _ => .of_none (h.fastTx j)

theorem fastInv_of_reach {s₀ s : FastState} {os : List Unit} (h₀ : s₀.Blank)
    (hr : Machine.Reach fastStep (fun s _ e => e.Keeps s) s₀ s os) : FastInv s := by
  refine hr.invariant (fun s _ => FastInv s) h₀.fastInv ?_
  intro s os e s' o h hk hs
  exact h.step hk hs

/-- A unicast data frame to a station, from its interface. -/
structure UnicastData (s : FastState) (j : StaId) (tx : TxData) (skb : TxSkb) : Prop where
  sta : tx.sta = some j
  sdata : tx.sdata = (s.loc.sta j).sdata
  unicast : isMulticastEtherAddr skb.hdr.addr1 = false
  data : isDataPresent skb.hdr.frameControl = true
  encrypt : skb.info.dontEncrypt = false

/-- The key of the cached header is what the slow path chooses for every frame, in the hardware, not
tainted and listed; the station is authorized and awake. -/
structure FastState.Coherent (s : FastState) (j : StaId) (f : FastTx) : Prop where
  chosen : ∀ tx skb, UnicastData s j tx skb → selectKey s.loc tx skb.hdr = f.key
  taken : ∀ tx skb, UnicastData s j tx skb → ∀ r ∈ txHSelectKey s.loc tx skb, r.1.key = f.key
  sent : ∀ tx skb, UnicastData s j tx skb → f.key.isSome → (txHSelectKey s.loc tx skb).isSome
  hardware : ∀ k ∈ f.key, (s.loc.keys k).uploadedToHardware = true ∧ (s.loc.keys k).tainted = false
  listed : ∀ k ∈ f.key, k ∈ s.keyList (s.home k).sdata
  authorized : (s.loc.sta j).staState = .authorized
  awake : (s.ps j).asleep = false

section

variable {s : FastState} {j : StaId} {tx : TxData} {skb : TxSkb}

theorem UnicastData.not_mgmt (h : UnicastData s j tx skb) : isMgmt skb.hdr.frameControl = false := by
  have hdata : skb.hdr.frameControl &&& (FCTL_FTYPE ||| 0x40) = FTYPE_DATA := by
    simpa [isDataPresent] using h.data
  have htype : skb.hdr.frameControl &&& FCTL_FTYPE = FTYPE_DATA := by
    calc skb.hdr.frameControl &&& FCTL_FTYPE
        = skb.hdr.frameControl &&& ((FCTL_FTYPE ||| 0x40) &&& FCTL_FTYPE) := rfl
      _ = FTYPE_DATA := by
        rw [← UInt16.and_assoc, hdata]
        rfl
  rw [isMgmt, htype]
  decide

theorem UnicastData.selectKey_eq (h : UnicastData s j tx skb) :
    selectKey s.loc tx skb.hdr = s.chosen j := by
  have hgroup : skb.hdr.isGroupPrivacyAction = false := by
    rw [Hdr.isGroupPrivacyAction, h.unicast]
    simp
  rw [selectKey, h.sta, h.sdata, hgroup, h.unicast, h.not_mgmt]
  rfl

/-- A cipher that is not one for management frames covers every data frame. -/
theorem UnicastData.covers (h : UnicastData s j tx skb) {c : Cipher} (hc : c.isBip = false) :
    c.covers s.loc tx.sta skb.hdr = true := by
  cases c with
  | wep40 | wep104 | tkip => exact h.data
  | ccmp | ccmp256 | gcmp | gcmp256 => simp [Cipher.covers, h.data]
  | aesCmac | bipCmac256 | bipGmac128 | bipGmac256 => cases hc
  | other => rfl

end

theorem txHSelectKey_of_chosen {tx : TxData} {skb : TxSkb}
    (h : UnicastData s j tx skb) {k : KeyId} (hk : s.chosen j = some k)
    (htaint : (s.loc.keys k).tainted = false) (hbip : (s.loc.keys k).cipher.isBip = false) :
    ∃ skb', txHSelectKey s.loc tx skb = some ({ tx with key := some k }, skb') := by
  rw [txHSelectKey]
  dsimp only
  rw [h.encrypt, h.selectKey_eq, hk]
  simp [h.covers hbip, htaint]

theorem FastState.FastInv.coherent (hs : FastInv s) (hj : j ∈ s.loc.staList)
    {f : FastTx} (hf : (s.loc.sta j).fastTx = some f) : Coherent s j f := by
  have hok := hs.fast j hj
  have hkey := hok.key f hf
  have hhw := hok.hardware f hf
  refine ⟨fun tx skb h => ?_, fun tx skb h r hr => ?_, fun tx skb h hsome => ?_, fun k hk => ?_,
    fun k hk => ?_, hok.authorized f hf, hok.awake f hf⟩
  · rw [h.selectKey_eq, hkey]
  · cases hfk : f.key with
    | some k =>
      obtain ⟨-, htaint, hbip⟩ := hhw k hfk
      obtain ⟨skb', heq⟩ := txHSelectKey_of_chosen h (hkey ▸ hfk) htaint hbip
      rw [heq] at hr
      cases hr
      rfl
    | none =>
      have hnone : selectKey s.loc tx skb.hdr = none := by rw [h.selectKey_eq, ← hkey, hfk]
      rw [txHSelectKey] at hr
      dsimp only at hr
      rw [h.encrypt, hnone] at hr
      dsimp only at hr
      split at hr
      · cases hr
        rfl
      · split at hr
        · cases hr
        · cases hr
          rfl
  · obtain ⟨k, hfk⟩ := Option.isSome_iff_exists.1 hsome
    obtain ⟨-, htaint, hbip⟩ := hhw k hfk
    obtain ⟨skb', heq⟩ := txHSelectKey_of_chosen h (hkey ▸ hfk) htaint hbip
    rw [heq]
    rfl
  · exact ⟨(hhw k hk).1, (hhw k hk).2.1⟩
  · rcases hok.uses_held ⟨f, hf, hk⟩ with hheld | hheld
    · exact (hs.keys.held _ _ hheld).listed
    · exact (hs.keys.held _ _ hheld).listed

/-- **The cache is coherent** over every run in which no step changes the key of a cached header
without a look at the header. -/
theorem fastTx_coherent {s₀ s : FastState} {os : List Unit} (h₀ : s₀.Blank)
    (hr : Machine.Reach fastStep (fun s _ e => e.Keeps s) s₀ s os) {j : StaId}
    (hj : j ∈ s.loc.staList) {f : FastTx} (hf : (s.loc.sta j).fastTx = some f) : Coherent s j f :=
  (fastInv_of_reach h₀ hr).coherent hj hf

/-! ### A deleted key -/

/-- A device with an access point and a station, which is associated. -/
def apStation : FastState where
  loc := {
    sdata := fun _ => { type := .ap, addr := Vector.replicate 6 2, bss := some 0 }
    sta := fun _ => { addr := Vector.replicate 6 4, sdata := 0, staState := .assoc }
    staList := [0] }

theorem apStation_blank : apStation.Blank := by
  refine ⟨fun p => ?_, fun _ => rfl, fun _ => rfl⟩
  cases p with
  | ptk j idx => rfl
  | gtk j idx => rfl
  | keys i idx => rfl
  | unicast i => rfl

/-- A CCMP key that the hardware makes packet numbers for. -/
def ccmpKey : Key := { cipher := .ccmp, key := List.replicate 16 7 }

/-- The pairwise key of the station is linked, the station is authorized, and goes to sleep and wakes up;
the key is replaced. -/
def rekeyAwake : List FastEvent :=
  [.link {} ⟨0, .pairwise 0⟩ 0 ccmpKey none, .moveState {} true 0 .authorized,
    .psTransition {} 0 true, .psTransition {} 0 false,
    .link {} ⟨0, .pairwise 0⟩ 0 { ccmpKey with key := List.replicate 16 8 } none]

/-- After them the station's header has the second key. -/
theorem fastTx_coherent_rekey : ∃ s : FastState, ∃ f, (s.loc.sta 0).fastTx = some f ∧
    f.key = some 1 ∧ Coherent s 0 f := by
  have hmeets : Machine.Meets fastStep (fun s _ e => e.Keeps s) apStation [] rekeyAwake := by
    decide +kernel
  have hrun : (Machine.run fastStep apStation rekeyAwake).map (fun p =>
      (((p.1.loc.sta 0).fastTx.map FastTx.key, p.1.loc.staList))) = some (some (some 1), [0]) := by
    decide +kernel
  obtain ⟨⟨s, os⟩, hrun, hs⟩ := Option.map_eq_some_iff.1 hrun
  obtain ⟨hfast, hlist⟩ := Prod.mk.inj hs
  obtain ⟨f, hf, hkey⟩ := Option.map_eq_some_iff.1 hfast
  exact ⟨s, f, hf, hkey, fastTx_coherent apStation_blank (.of_run .init hmeets hrun)
    (by rw [hlist]; decide) hf⟩

/-- The pairwise key of an authorized station is freed: the header stays, its key neither listed nor
in the hardware, nor chosen by the slow path. -/
theorem freed_key_stays_cached : ∃ s : FastState, ∃ os f,
    Machine.Reach fastStep (fun _ _ _ => True) apStation s os ∧ 0 ∈ s.loc.staList ∧
      (s.loc.sta 0).fastTx = some f ∧ f.key = some 0 ∧ s.chosen 0 = none ∧
      (s.loc.keys 0).uploadedToHardware = false ∧ s.keyList 0 = [] ∧ ¬ Coherent s 0 f := by
  have hrun : (Machine.run fastStep apStation
      [.link {} ⟨0, .pairwise 0⟩ 0 ccmpKey none, .moveState {} true 0 .authorized,
        .free {} ⟨0, .pairwise 0⟩ 0]).map (fun p =>
      ((p.1.loc.sta 0).fastTx.map FastTx.key, p.1.loc.staList, p.1.chosen 0,
        (p.1.loc.keys 0).uploadedToHardware, p.1.keyList 0)) =
      some (some (some 0), [0], none, false, []) := by
    decide +kernel
  obtain ⟨⟨s, os⟩, hrun, hs⟩ := Option.map_eq_some_iff.1 hrun
  simp only [Prod.mk.injEq] at hs
  obtain ⟨hfast, hlist, hchosen, hup, hkeys⟩ := hs
  obtain ⟨f, hf, hkey⟩ := Option.map_eq_some_iff.1 hfast
  refine ⟨s, os, f, .of_run_init hrun, by rw [hlist]; decide, hf, hkey, hchosen, hup, hkeys, fun h => ?_⟩
  have hin := (h.hardware 0 hkey).1
  rw [hup] at hin
  cases hin

end Mac80211
