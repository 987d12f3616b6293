import Mac80211.Scan.NotlistedBytes
import Mac80211.Scan.TreeAssoc

/-!
# The table is what it looks like, in every state

The tree is in order in every run whose steps keep mesh BSSes and others apart.

## Main definitions

* `TableCond`

## Main results

* `tableOk_of_reach`
-/

namespace Mac80211

open Machine ListHead List Option

variable {s s' : Rdev} {out : List ℕ} {b c n : ℕ}

/-! ### What a frame does not tell of -/

/-- **The SSID stays the same**, unless it is so long that its length and two do not fit in a byte. -/
theorem findIe_notlistedIes {ie ssid data : List UInt8} (hssid : ssid.length < 254)
    (h : notlistedIes ie ssid = some data) : findIe WLAN_EID_SSID data = some ssid := by
  rw [notlistedIes] at h
  split at h
  swap
  · cases h
  rename_i p p' hp hp'
  split at h
  · cases h
  rename_i hle
  rw [not_lt] at hle
  have hids : WLAN_EID_SSID ≠ WLAN_EID_MULTIPLE_BSSID := by decide
  have hpos : findIePosAux WLAN_EID_SSID ie.length 0 ie = some (0 + p) := by rw [zero_add]; exact hp
  have hpos' : findIePosAux WLAN_EID_MULTIPLE_BSSID ie.length 0 ie = some (0 + p') := by
    rw [zero_add]
    exact hp'
  have hdisj := findIePosAux_disjoint hids hpos hpos' hle
  obtain ⟨q, hq, hin⟩ := findIePosAux_inside hpos'
  obtain rfl : q = p' := by omega
  -- the first element is there in full
  have hlen : (ssid.length.toUInt8).toNat = ssid.length := by
    rw [Nat.toUInt8, UInt8.toNat_ofNat']
    exact Nat.mod_eq_of_lt (by omega)
  have hcopy : (WLAN_EID_SSID :: ssid.length.toUInt8 :: ssid).take ((ssid.length + 2) % 256) =
      WLAN_EID_SSID :: ssid.length.toUInt8 :: ssid := by
    rw [Nat.mod_eq_of_lt (by omega)]
    exact take_of_length_le (by simp)
  have hdata := (Option.some.inj h).symm
  dsimp only at hdata
  rw [hcopy] at hdata
  obtain ⟨m, hm⟩ : ∃ m, ie.length - (ie.getD (p + 1) 0).toNat - (ie.getD (q + 1) 0).toNat + ssid.length =
      ssid.length + m + 2 :=
    ⟨ie.length - (ie.getD (p + 1) 0).toNat - (ie.getD (q + 1) 0).toNat - 2, by omega⟩
  obtain ⟨rest, hrest⟩ : ∃ rest, data = WLAN_EID_SSID :: ssid.length.toUInt8 :: (ssid ++ rest) := by
    rw [hdata, hm, append_assoc, append_assoc, cons_append, cons_append,
      take_succ_cons, take_succ_cons, take_append, take_of_length_le (by omega)]
    exact ⟨_, rfl⟩
  rw [hrest, findIe, length_cons, findIeAux, hlen, if_neg (by simp), if_pos rfl]
  simp

/-- What is made of the elements of another BSS must not make the entry a mesh BSS, or another one, and
the SSID must fit in what is copied of it. -/
structure NotlistedOk (s : Rdev) (b : ℕ) (frame : MbssFrame) : Prop where
  ssid : ∀ ssid, (s.bss b).getIe WLAN_EID_SSID = some ssid → ssid.length < 254
  mesh : ∀ ssid data, (s.bss b).getIe WLAN_EID_SSID = some ssid → notlistedIes frame.ie ssid = some data →
    ((s.bss b).retold (s.bss b).capability (some ⟨s.freshIes, data, frame.tsf⟩)).mesh = (s.bss b).mesh

theorem samePlace_notlisted {e : Bss} {ies : BssIes} {ssid : List UInt8}
    (hssid : e.getIe WLAN_EID_SSID = some ssid) (hies : findIe WLAN_EID_SSID ies.data = some ssid)
    (hmesh : (e.retold e.capability (some ies)).mesh = e.mesh) :
    e.SamePlace (e.retold e.capability (some ies)) := by
  refine ⟨rfl, congrArg _ hmesh, ?_, fun _ => some_ne_none ies⟩
  have hname : (e.retold e.capability (some ies)).name = e.name := by
    cases hm : e.mesh with
    | some m => exact Bss.name_of_mesh hm (hmesh.trans hm)
    | none =>
      rw [Bss.name, Bss.name, hmesh, hm, hssid]
      show toLex (_, ssidRank (findIe WLAN_EID_SSID ies.data)) = _
      rw [hies]
      rfl
  rw [Bss.rank, Bss.rank, hname]
  rfl

/-- **An entry gets elements that its BSS has not told.** -/
theorem TreeInv.notlisted {frame : MbssFrame} (h : TreeInv s [])
    (hok : b ∈ s.bssList → NotlistedOk s b frame) : TreeInv (updateNotlisted s b frame) [] := by
  refine h.keeps (keeps_updateNotlisted s b frame) fun x hx => ?_
  by_cases hxb : x = b
  · subst hxb
    rcases updateNotlisted_self s x frame with heq | ⟨ssid, data, hssid, hdata, bi, pi, heq⟩
    · rw [heq]
      exact .of_fields rfl rfl rfl rfl
    · have hok := hok hx
      have hplace := samePlace_notlisted hssid (findIe_notlistedIes (hok.ssid ssid hssid) hdata)
        (hok.mesh ssid data hssid hdata)
      rw [heq]
      exact ⟨hplace.channel, hplace.mesh, hplace.rank, hplace.shown⟩
  · rw [updateNotlisted_of_ne s frame hxb]
    exact .of_fields rfl rfl rfl rfl

/-! ### Runs -/

/-- **What a step must find.** On the channel of a new entry all are mesh BSSes, as it is, or none
is; a known entry stays what it is; elements made of others leave it where it is; a BSS that changes
its channel finds a place of its own. -/
def TableCond (s : Rdev) (_ : List Empty) : TableOp → Prop
  | .table (.update tmp alloc) => TellOk s tmp alloc
  | .table _ => True
  | .notlisted b frame => b ∈ s.bssList → NotlistedOk s b frame
  | .assoc cur channel bssType => AssocOk s cur channel bssType

/-- **One step.** -/
theorem TreeInv.step {lib : RbLib} {limit : ℤ} {op : TableOp} {os o : List Empty} (h : TreeInv s [])
    (hcond : TableCond s os op) (hstep : tableStep lib limit s op = some (s', o)) : TreeInv s' [] := by
  cases op with
  | table op =>
    rcases bssStep_cases hstep with ⟨tmp, alloc, rfl, -, rfl⟩ | ⟨b, rfl, hb, rfl⟩ | ⟨e, rfl, rfl⟩ | htouch
    · exact (h.update hcond).touches (touches_handOut (bssUpdate lib limit s tmp alloc))
    · exact h.unlink lib hb
    · exact h.expire lib e
    · exact h.touches htouch
  | notlisted b frame =>
    simp only [tableStep, ite_none_right_eq_some] at hstep
    obtain ⟨-, rfl, -⟩ := hstep
    exact h.notlisted hcond
  | assoc cur channel bssType =>
    simp only [tableStep, ite_none_right_eq_some, map_eq_some_iff, Prod.mk.injEq] at hstep
    obtain ⟨-, s₁, hs₁, rfl, -⟩ := hstep
    exact h.assoc hcond hs₁

theorem treeInv_empty : TreeInv {} [] :=
  ⟨nodup_nil, nofun, nofun, rfl, .nil, ⟨nofun, nofun, .nil⟩⟩

/-- **The table is what it looks like, in every state.** -/
theorem tableOk_of_reach {lib : RbLib} {limit : ℤ} {os : List Empty}
    (h : Reach (tableStep lib limit) TableCond {} s os) : TableOk s := by
  refine TreeInv.tableOk (h.invariant (fun s _ => TreeInv s []) treeInv_empty ?_)
  intro s os op s' o hinv hcond hstep
  exact hinv.step hcond hstep

instance (e e' : Bss) : Decidable (e.Agrees e') := inferInstanceAs (Decidable (_ → _))

instance (e e' : Bss) : Decidable (e.Apart e') := inferInstanceAs (Decidable (_ ∧ ¬ofLex e'.rank = ofLex e.rank))

instance (s : Rdev) (tmp : InformBss) (alloc : Bool) : Decidable (TellOk s tmp alloc) :=
  decidable_of_iff
    ((rbFindBss s tmp.toBss .regular = none → alloc = true → ∀ b ∈ s.bssList, tmp.toBss.Agrees (s.bss b)) ∧
      ∀ known ∈ rbFindBss s tmp.toBss .regular, ¬ Dropped s known tmp →
        (tmp.channel.centerFreq = (s.bss known).channel.centerFreq → tmp.channel = (s.bss known).channel) ∧
          ((s.bss known).retold tmp.capability (iesAfter s known tmp)).mesh.isSome =
            (s.bss known).mesh.isSome)
    ⟨fun ⟨hnew, hknown⟩ => ⟨hnew, hknown⟩, fun h => ⟨h.new, h.known⟩⟩

instance (s : Rdev) (b : ℕ) (frame : MbssFrame) : Decidable (NotlistedOk s b frame) :=
  decidable_of_iff
    ((∀ ssid ∈ (s.bss b).getIe WLAN_EID_SSID, ssid.length < 254) ∧
      ∀ ssid ∈ (s.bss b).getIe WLAN_EID_SSID, ∀ data ∈ notlistedIes frame.ie ssid,
        ((s.bss b).retold (s.bss b).capability (some ⟨s.freshIes, data, frame.tsf⟩)).mesh = (s.bss b).mesh)
    ⟨fun ⟨hssid, hmesh⟩ => ⟨hssid, fun ssid data hs hd => hmesh ssid hs data hd⟩,
      fun h => ⟨h.ssid, fun ssid hs data hd => h.mesh ssid data hs hd⟩⟩

instance (s : Rdev) (b : ℕ) : (new : Option ℕ) → Decidable (GoesWith s new b)
  | none => .isFalse nofun
  | some n => decidable_of_iff (b ∈ n :: s.listOf n ∧ ¬ s.Refuses b)
    ⟨fun h => ⟨n, rfl, h⟩, fun ⟨_, hn, h⟩ => Option.some.inj hn ▸ h⟩

instance (s : Rdev) (channel : Channel) (c : ℕ) (new : Option ℕ) : Decidable (ChangeOk s channel c new) :=
  decidable_of_iff
    ((s.nontrans.Ring c (s.listOf c) ∧ ∀ m ∈ c :: s.listOf c, m ∈ s.bssList) ∧
      ((∀ n ∈ new, s.nontrans.Ring n (s.listOf n)) ∧
        ∀ n ∈ new, ∀ x ∈ n :: s.listOf n, x ∈ s.bssList ∧ x ∉ c :: s.listOf c) ∧
      ((c :: s.listOf c).Pairwise fun m m' => (movedBss s channel c new m).Apart (s.bss m') ∧
        (movedBss s channel c new m').Apart (movedBss s channel c new m)) ∧
      ∀ m ∈ c :: s.listOf c, ∀ b ∈ s.bssList, b ∉ c :: s.listOf c → ¬ GoesWith s new b →
        (movedBss s channel c new m).Apart (s.bss b))
    ⟨fun ⟨⟨hring, hlisted⟩, ⟨hnew, hnewl⟩, horder, hplace⟩ => ⟨hring, hlisted, hnew, hnewl, horder, hplace⟩,
      fun h => ⟨⟨h.ring, h.listed⟩, ⟨h.newRing, h.newListed⟩, h.order, h.place⟩⟩

instance (s : Rdev) (os : List Empty) (op : TableOp) : Decidable (TableCond s os op) := by
  unfold TableCond
  split
  · infer_instance
  · infer_instance
  · infer_instance
  · exact inferInstanceAs (Decidable (_ → ChangeOk ..))

/-- A network is heard on two channels, and who is connected to it goes from one to the other. -/
def switchesChannel : List TableOp :=
  [.table (.update (informBss 9 false [65] none) true),
    .table (.update { informBss 9 false [65] none with channel := ⟨2417, false⟩ } true),
    .assoc 0 ⟨2417, false⟩ .any]

theorem tableOk_switchesChannel : ∃ s os, Reach (tableStep plainRb 1000) TableCond {} s os ∧
    s.bssList = [0] ∧ TableOk s := by
  have hmeets : Meets (tableStep plainRb 1000) TableCond {} [] switchesChannel := by
    decide +kernel
  have hrun : (run (tableStep plainRb 1000) {} switchesChannel).map (fun r => r.1.bssList) = some [0] := by
    decide +kernel
  obtain ⟨⟨s, os⟩, hs, hlist⟩ := map_eq_some_iff.mp hrun
  have hreach := Reach.of_run .init hmeets hs
  exact ⟨s, os, hreach, hlist, tableOk_of_reach hreach⟩

/-- What is told of a mesh BSS on channel 1. -/
def informMesh (last : UInt8) (meshId : List UInt8) : InformBss :=
  { informBss last false [] none with
    capability := 0
    ies := { data := [0, 0, 114, meshId.length.toUInt8] ++ meshId ++ [113, 1, 0] } }

/-- A mesh BSS stops being one. -/
def formerMesh : List TableOp :=
  [.table (.update (informMesh 9 [65, 65]) true), .table (.update (informMesh 5 [65]) true),
    .table (.update { informMesh 9 [65, 65] with capability := 1 } true)]

/-- **Another mesh BSS is not found any more**, when an entry above it has stopped being one. -/
theorem former_mesh_hides_others : ∃ s os, Reach (tableStep plainRb 1000) (fun _ _ _ => True) {} s os ∧
    1 ∈ s.bssList ∧ rbFindBss s (s.bss 1) .regular = none ∧ ¬ TableOk s := by
  have hrun : (run (tableStep plainRb 1000) {} formerMesh).map
      (fun r => (r.1.bssList, rbFindBss r.1 (r.1.bss 1) .regular)) = some ([0, 1], none) := by
    decide +kernel
  obtain ⟨⟨s, os⟩, hs, hfields⟩ := map_eq_some_iff.mp hrun
  obtain ⟨hlist, hfind⟩ := Prod.mk.inj hfields
  have hlisted : 1 ∈ s.bssList := by
    show 1 ∈ (s, os).1.bssList
    rw [hlist]
    decide
  refine ⟨s, os, Reach.of_run_init hs, hlisted, hfind, fun hok => ?_⟩
  have hfound := hok.find 1 hlisted
  rw [show rbFindBss s (s.bss 1) .regular = none from hfind] at hfound
  cases hfound

end Mac80211
