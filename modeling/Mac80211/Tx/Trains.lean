import Mac80211.Tx.Outgoing

/-!
# Fragments on the air

The fragments of a frame go to the driver one by one, and addresses are replaced as each one goes.
Several loops of `ieee80211_tx_frags` are under way, and a step is one iteration of one of them, or
an event up to its loop. Every frame carries the number of the MSDU it is part of, which the code
does not have.

## Main definitions

* `AirState`, `StayTogether`

## Main results

* `fragments_stay_together` — the fragments of a frame go out under one address
-/

namespace Mac80211

open Machine Option Function

/-! ### The machine -/

/-- A frame, and the number of the MSDU it is part of. -/
structure Piece where
  msdu : ℕ
  skb : TxSkb

/-- `drv_tx`, with the addresses replaced. -/
def Piece.handed (p : Piece) (s : Local) (v : SdataId) : Piece where
  msdu := p.msdu
  skb := { p.skb with
    hdr := macAddrChangeHdrTx s v p.skb.hdr
    info := { p.skb.info with vif := v } }

/-- A loop that is under way. -/
structure Flight where
  msdu : ℕ
  txpending : Bool
  /-- The arguments; `skbs` are those that are left. -/
  out : Outgoing

/-- A device, with loops under way. -/
structure AirState where
  /-- Everything but the pending queues. -/
  dev : Local
  pending : ℕ → List Piece
  flights : List Flight
  next : ℕ

/-- What can happen. -/
inductive AirEvent
  /-- An event, up to its loop. -/
  | start (e : Event)
  /-- One iteration of a loop. -/
  | next (k : ℕ)

namespace AirState

/-- The device without the numbers. -/
def device (a : AirState) : Local := { a.dev with pending := fun q => (a.pending q).map Piece.skb }

/-- The pending queues after an event: it takes a frame out, or puts one in. -/
def pendingAfter (a : AirState) : Event → ℕ → List Piece
  | .txPending _ q =>
    if a.dev.queueStopReasons q ≠ 0 then a.pending else Function.update a.pending q (a.pending q).tail
  | .addPending skb =>
    Function.update a.pending skb.info.hwQueue (a.pending skb.info.hwQueue ++ [⟨a.next, skb⟩])
  | _ => a.pending

/-- The MSDU that an event sends: the one its frame from the pending queue is part of, or a new one. -/
def msduOf (a : AirState) : Event → ℕ
  | .txPending _ q => ((a.pending q).head?.map Piece.msdu).getD a.next
  | _ => a.next

/-- The loop of an event. -/
def launch (a : AirState) (e : Event) (out : Option Outgoing) : List Flight :=
  out.toList.map fun out => ⟨a.msduOf e, e.txpending, out⟩

/-- Put frames of an MSDU in front of a pending queue, or behind it. -/
def park (a : AirState) (f : Flight) (q : ℕ) : ℕ → List Piece :=
  let pieces := f.out.skbs.map (Piece.mk f.msdu)
  Function.update a.pending q (if f.txpending then pieces ++ a.pending q else a.pending q ++ pieces)

/-- One iteration. -/
def iterate (a : AirState) (k : ℕ) (f : Flight) : Option (AirState × List Piece) :=
  match f.out.skbs with
  | [] => some ({ a with flights := a.flights.eraseIdx k }, [])
  | skb :: skbs =>
    match iteration a.device f.out.vif f.txpending skb with
    | .park q => some ({ a with pending := a.park f q, flights := a.flights.eraseIdx k }, [])
    | .drop => some ({ a with flights := a.flights.eraseIdx k }, [])
    | .send v =>
      some ({ a with
        dev := drvTx a.dev v f.out.sta skb
        flights := a.flights.set k { f with out := { f.out with skbs := skbs } } },
        [Piece.handed ⟨f.msdu, skb⟩ a.device v])
    | .fault => none

end AirState

/-- After an event, with its loop under way. -/
def AirState.started (a : AirState) (e : Event) (s : Local) (out : Option Outgoing) : AirState where
  dev := s
  pending := a.pendingAfter e
  flights := a.flights ++ a.launch e out
  next := a.next + 1

/-- One step. The outputs are the frames that `drv_tx` gets. -/
def airStep (sha1 : List UInt8 → Vector UInt8 20) (C : Crypto) (a : AirState) :
    AirEvent → Option (AirState × List Piece)
  | .start e =>
    (a.device.prepare sha1 C e).map fun (s, out) => (a.started e s out, [])
  | .next k => a.flights[k]?.bind (a.iterate k)

/-- A device, and nothing under way. -/
def airBoot (hw : Local) : AirState where
  dev := bootLocal hw
  pending _ := []
  flights := []
  next := 0

/-! ### What is asked -/

/-- `addr1` to `addr3`. -/
def Piece.addrs (p : Piece) : Mac × Mac × Mac := (p.skb.hdr.addr1, p.skb.hdr.addr2, p.skb.hdr.addr3)

/-- **All fragments of an MSDU have the same addresses on the air.** -/
def StayTogether (os : List Piece) : Prop := ∀ p ∈ os, ∀ p' ∈ os, p.msdu = p'.msdu → p.addrs = p'.addrs
deriving Decidable

/-- A fragment that waits, parked or in a loop. -/
def AirState.Waits (a : AirState) (p : Piece) : Prop :=
  (∃ q, p ∈ a.pending q) ∨ ∃ f ∈ a.flights, f.msdu = p.msdu ∧ p.skb ∈ f.out.skbs

/-- While a fragment waits whose MSDU is on the air already, no event rotates the addresses. A new
interface is not one that a waiting frame has. -/
def Undisturbed (a : AirState) (os : List Piece) : AirEvent → Prop
  | .start (.addInterface v _) => ∀ p, a.Waits p →
      p.skb.info.vif ≠ v ∧ driverVif a.dev p.skb.info.vif ≠ some (some v)
  | .start e => ∀ p, a.Waits p → p.msdu ∈ os.map Piece.msdu → a.device.rotates e = false
  | .next _ => True

/-! ### The invariant -/

/-- The invariant: every MSDU was one frame, `origin`. What waits has its addresses, and what is on the air
has what they would be replaced by now. -/
structure AirInv (origin : ℕ → TxSkb) (a : AirState) (os : List Piece) : Prop where
  waits : ∀ p, a.Waits p → p.msdu < a.next ∧ (origin p.msdu).SameAddrs p.skb
  flights : ∀ f ∈ a.flights, ∀ skb ∈ f.out.skbs, driverVif a.dev skb.info.vif = some f.out.vif
  sent : ∀ p ∈ os, p.msdu < a.next
  together : StayTogether os
  current : ∀ p ∈ os, ∀ p', a.Waits p' → p'.msdu = p.msdu → ∀ v,
    driverVif a.dev p'.skb.info.vif = some (some v) → p.addrs = outAddrs a.dev v p'.skb.hdr

section Steps

variable {sha1 : List UInt8 → Vector UInt8 20} {C : Crypto} {origin : ℕ → TxSkb} {a : AirState}
  {os : List Piece} {e : Event} {s : Local} {out : Option Outgoing}

theorem sameTables_device (a : AirState) : SameTables a.dev a.device := sameTables_pending a.dev _

/-- What an undisturbed event leaves as it is, for a frame that waits. -/
theorem prepare_of_undisturbed (hC : Undisturbed a os (.start e))
    (h : a.device.prepare sha1 C e = some (s, out)) {p : Piece} (hp : a.Waits p) :
    driverVif s p.skb.info.vif = driverVif a.dev p.skb.info.vif ∧
      (p.msdu ∈ os.map Piece.msdu → ∀ v, driverVif a.dev p.skb.info.vif = some (some v) →
        outMac s v = outMac a.dev v) := by
  have hdevice := sameTables_device a
  by_cases hadd : ∃ v d, e = .addInterface v d
  · obtain ⟨v, d, rfl⟩ := hadd
    obtain ⟨hvif, hdriver⟩ := hC p hp
    obtain ⟨hothers, -⟩ := prepare_addInterface h
    refine ⟨(hothers _ hvif).1.trans (hdevice.vif _), ?_⟩
    intro _ v' hv'
    have hne : v' ≠ v := by
      rintro rfl
      exact hdriver hv'
    exact (hothers v' hne).2.trans (hdevice.outMac_eq v')
  · have hadd' : ∀ v d, e ≠ .addInterface v d := fun v d he => hadd ⟨v, d, he⟩
    have hsteady := steady_prepare hadd' h
    refine ⟨(hsteady.vif _).trans (hdevice.vif _), ?_⟩
    intro hsent v _
    have hrotates : a.device.rotates e = false := by
      cases e with
      | addInterface v d => exact absurd rfl (hadd' v d)
      | _ => exact hC p hp hsent
    exact (hsteady.out hrotates v).trans (hdevice.outMac_eq v)

theorem mem_pendingAfter {q : ℕ} {p : Piece} (h : p ∈ a.pendingAfter e q) :
    p ∈ a.pending q ∨ ∃ skb, e = .addPending skb ∧ p = ⟨a.next, skb⟩ := by
  rw [AirState.pendingAfter.eq_def] at h
  split at h
  · split at h
    · exact .inl h
    · rename_i q' _
      by_cases hq : q = q'
      · rw [hq, update_self] at h
        exact .inl (hq ▸ List.mem_of_mem_tail h)
      · rw [update_of_ne hq] at h
        exact .inl h
  · rename_i skb
    by_cases hq : q = skb.info.hwQueue
    · rw [hq, update_self, List.mem_append, List.mem_singleton] at h
      exact h.imp (fun h => hq ▸ h) fun h => ⟨skb, rfl, h⟩
    · rw [update_of_ne hq] at h
      exact .inl h
  · exact .inl h

theorem exists_of_launch {f : Flight} (h : a.device.prepare sha1 C e = some (s, out))
    (hf : f ∈ a.launch e out) :
    ∃ skb, Train s skb f.out ∧ ((∃ p, a.Waits p ∧ p.msdu = f.msdu ∧ p.skb = skb) ∨ f.msdu = a.next) := by
  rw [AirState.launch, List.mem_map] at hf
  obtain ⟨out', hout, rfl⟩ := hf
  rw [mem_toList] at hout
  obtain rfl := mem_def.mp hout
  obtain ⟨skb, htrain, hpending⟩ := prepare_train h
  refine ⟨skb, htrain, ?_⟩
  rw [AirState.msduOf.eq_def]
  split
  · rename_i env q
    obtain ⟨-, skbs, hqueue⟩ := hpending env q rfl
    obtain ⟨p, ps, hps, rfl, -⟩ := List.map_eq_cons_iff.mp hqueue
    left
    refine ⟨p, .inl ⟨q, ?_⟩, ?_, rfl⟩
    · rw [hps]
      exact List.mem_cons_self
    · rw [hps]
      rfl
  · exact .inr rfl

theorem waits_started (origin : ℕ → TxSkb) (h : a.device.prepare sha1 C e = some (s, out)) :
    ∃ x : TxSkb, ∀ p, (a.started e s out).Waits p →
      (∃ p₀, a.Waits p₀ ∧ p₀.msdu = p.msdu ∧ p₀.skb.SameAddrs p.skb) ∨ p.msdu = a.next ∧ x.SameAddrs p.skb := by
  have hflight : ∀ f ∈ a.flights, ∀ p : Piece, f.msdu = p.msdu → p.skb ∈ f.out.skbs →
      ∃ p₀, a.Waits p₀ ∧ p₀.msdu = p.msdu ∧ p₀.skb.SameAddrs p.skb :=
    fun f hf p hmsdu hskb => ⟨p, .inr ⟨f, hf, hmsdu, hskb⟩, rfl, .refl _⟩
  have hlaunch : ∃ x, (∀ skb, e = .addPending skb → x = skb) ∧ ∀ f ∈ a.launch e out,
      Train s x f.out ∧ ((∃ p, a.Waits p ∧ p.msdu = f.msdu ∧ p.skb = x) ∨ f.msdu = a.next) := by
    rcases out with _ | out
    · by_cases hadd : ∃ skb, e = .addPending skb
      · obtain ⟨skb, rfl⟩ := hadd
        exact ⟨skb, fun _ he => Event.addPending.inj he, fun _ hf => absurd hf List.not_mem_nil⟩
      · exact ⟨origin 0, fun skb he => absurd ⟨skb, he⟩ hadd, fun _ hf => absurd hf List.not_mem_nil⟩
    · obtain ⟨x, hx⟩ := exists_of_launch h List.mem_cons_self
      refine ⟨x, ?_, ?_⟩
      · rintro skb rfl
        obtain ⟨-, hout⟩ := prepare_of_not_sends rfl h
        cases hout
      · intro f hf
        obtain rfl := List.mem_singleton.mp hf
        exact hx
  obtain ⟨x, hadd, hnew⟩ := hlaunch
  refine ⟨x, ?_⟩
  rintro p (⟨q, hq⟩ | ⟨f, hf, hmsdu, hskb⟩)
  · rcases mem_pendingAfter hq with hq | ⟨skb, he, rfl⟩
    · exact .inl ⟨p, .inl ⟨q, hq⟩, rfl, .refl _⟩
    · exact .inr ⟨rfl, hadd skb he ▸ .refl _⟩
  · rcases List.mem_append.mp hf with hf | hf
    · exact .inl (hflight f hf p hmsdu hskb)
    · obtain ⟨htrain, hwaits⟩ := hnew f hf
      rcases hwaits with ⟨p₀, hp₀, hp₀msdu, rfl⟩ | hnext
      · exact .inl ⟨p₀, hp₀, hp₀msdu.trans hmsdu, htrain.skbs _ hskb⟩
      · exact .inr ⟨hmsdu.symm.trans hnext, htrain.skbs _ hskb⟩

theorem airInv_started (hinv : AirInv origin a os) (hC : Undisturbed a os (.start e))
    (h : a.device.prepare sha1 C e = some (s, out)) :
    ∃ origin', AirInv origin' (a.started e s out) os := by
  obtain ⟨x, hx⟩ := waits_started origin h
  refine ⟨Function.update origin a.next x, ?_⟩
  constructor
  · intro p hp
    rcases hx p hp with ⟨p₀, hp₀, hmsdu, haddrs⟩ | ⟨hnext, haddrs⟩
    · obtain ⟨hlt, horigin⟩ := hinv.waits p₀ hp₀
      rw [← hmsdu, update_of_ne hlt.ne]
      exact ⟨Nat.lt_succ_of_lt hlt, horigin.trans haddrs⟩
    · rw [hnext, update_self]
      exact ⟨Nat.lt_succ_self _, haddrs⟩
  · intro f hf skb hskb
    rcases List.mem_append.mp hf with hf | hf
    · have hwaits : a.Waits ⟨f.msdu, skb⟩ := .inr ⟨f, hf, rfl, hskb⟩
      exact (prepare_of_undisturbed hC h hwaits).1.trans (hinv.flights f hf skb hskb)
    · obtain ⟨x, htrain, -⟩ := exists_of_launch h hf
      change driverVif s skb.info.vif = some f.out.vif
      rw [(htrain.skbs skb hskb).vif]
      exact htrain.vif
  · exact fun p hp => Nat.lt_succ_of_lt (hinv.sent p hp)
  · exact hinv.together
  · intro p hp p' hp' hmsdu v hv
    rcases hx p' hp' with ⟨p₀, hp₀, hmsdu₀, haddrs⟩ | ⟨hnext, -⟩
    · obtain ⟨hvif, hout⟩ := prepare_of_undisturbed hC h hp₀
      have hsent : p₀.msdu ∈ os.map Piece.msdu :=
        List.mem_map.mpr ⟨p, hp, (hmsdu₀.trans hmsdu).symm⟩
      have hv₀ : driverVif a.dev p₀.skb.info.vif = some (some v) := by
        rw [← hvif, ← haddrs.vif]
        exact hv
      have hcurrent := hinv.current p hp p₀ hp₀ (hmsdu₀.trans hmsdu) v hv₀
      change p.addrs = outAddrs s v p'.skb.hdr
      rw [haddrs.hdr.outAddrs_eq, hcurrent, outAddrs, outAddrs, hout hsent v hv₀]
    · exact absurd (hinv.sent p hp) (by rw [← hmsdu, hnext]; exact lt_irrefl _)

theorem AirInv.shrink {a' : AirState} (hinv : AirInv origin a os) (hdev : SameTables a.dev a'.dev)
    (hnext : a'.next = a.next) (hwaits : ∀ p, a'.Waits p → a.Waits p)
    (hflights : ∀ f ∈ a'.flights, ∀ skb ∈ f.out.skbs, ∃ f₀ ∈ a.flights, f₀.out.vif = f.out.vif ∧ skb ∈ f₀.out.skbs) :
    AirInv origin a' os := by
  constructor
  · intro p hp
    rw [hnext]
    exact hinv.waits p (hwaits p hp)
  · intro f hf skb hskb
    obtain ⟨f₀, hf₀, hvif, hskb₀⟩ := hflights f hf skb hskb
    rw [hdev.vif, ← hvif]
    exact hinv.flights f₀ hf₀ skb hskb₀
  · rw [hnext]
    exact hinv.sent
  · exact hinv.together
  · intro p hp p' hp' hmsdu v hv
    rw [hdev.vif] at hv
    rw [hdev.outAddrs_eq]
    exact hinv.current p hp p' (hwaits p' hp') hmsdu v hv

theorem AirInv.eraseIdx (hinv : AirInv origin a os) (k : ℕ) :
    AirInv origin { a with flights := a.flights.eraseIdx k } os := by
  refine hinv.shrink (.refl _) rfl ?_ ?_
  · rintro p (hp | ⟨f, hf, hrest⟩)
    · exact .inl hp
    · exact .inr ⟨f, List.mem_of_mem_eraseIdx hf, hrest⟩
  · exact fun f hf skb hskb => ⟨f, List.mem_of_mem_eraseIdx hf, rfl, hskb⟩

variable {k : ℕ} {f : Flight}

theorem AirInv.park (hinv : AirInv origin a os) (hf : f ∈ a.flights) (q k : ℕ) :
    AirInv origin { a with pending := a.park f q, flights := a.flights.eraseIdx k } os := by
  refine hinv.shrink (.refl _) rfl ?_ ?_
  · rintro p (⟨q', hp⟩ | ⟨f', hf', hrest⟩)
    · by_cases hq : q' = q
      · have hpieces : p ∈ a.pending q ∨ p ∈ f.out.skbs.map (Piece.mk f.msdu) := by
          rw [hq] at hp
          simp only [AirState.park, update_self] at hp
          split at hp
          · exact (List.mem_append.mp hp).symm
          · exact List.mem_append.mp hp
        rcases hpieces with hp | hp
        · exact .inl ⟨q, hp⟩
        · obtain ⟨skb, hskb, rfl⟩ := List.mem_map.mp hp
          exact .inr ⟨f, hf, rfl, hskb⟩
      · simp only [AirState.park, update_of_ne hq] at hp
        exact .inl ⟨q', hp⟩
    · exact .inr ⟨f', List.mem_of_mem_eraseIdx hf', hrest⟩
  · exact fun f hf skb hskb => ⟨f, List.mem_of_mem_eraseIdx hf, rfl, hskb⟩

theorem iteration_send {s : Local} {vif : Option SdataId} {txpending : Bool} {skb : TxSkb} {v : SdataId}
    (h : iteration s vif txpending skb = .send v) : vif = some v := by
  simp only [iteration] at h
  split_ifs at h
  split at h
  · cases h
  · obtain rfl := Iteration.send.inj h
    rfl

theorem Piece.addrs_handed (p : Piece) (s : Local) (v : SdataId) :
    (p.handed s v).addrs = outAddrs s v p.skb.hdr := by
  rw [Piece.addrs, Piece.handed]
  simp only [macAddrChangeHdrTx_eq, Hdr.mapAddrs_addr1, Hdr.mapAddrs_addr2, Hdr.mapAddrs_addr3]
  rfl

theorem AirInv.send (hinv : AirInv origin a os) (hf : f ∈ a.flights) {skb : TxSkb} {skbs : List TxSkb}
    (hskbs : f.out.skbs = skb :: skbs) {v : SdataId} (hv : f.out.vif = some v) (k : ℕ) :
    AirInv origin { a with
      dev := drvTx a.dev v f.out.sta skb
      flights := a.flights.set k { f with out := { f.out with skbs := skbs } } }
      (os ++ [Piece.handed ⟨f.msdu, skb⟩ a.device v]) := by
  have hp₀ : a.Waits ⟨f.msdu, skb⟩ := .inr ⟨f, hf, rfl, by rw [hskbs]; exact List.mem_cons_self⟩
  obtain ⟨hlt, horigin⟩ := hinv.waits _ hp₀
  have hdrv : driverVif a.dev skb.info.vif = some (some v) := by
    rw [hinv.flights f hf skb (by rw [hskbs]; exact List.mem_cons_self), hv]
  have haddrs : (Piece.handed ⟨f.msdu, skb⟩ a.device v).addrs = outAddrs a.dev v skb.hdr := by
    rw [Piece.addrs_handed, (sameTables_device a).outAddrs_eq]
  have hsame : ∀ p ∈ os, p.msdu = f.msdu → p.addrs = (Piece.handed ⟨f.msdu, skb⟩ a.device v).addrs := by
    intro p hp hmsdu
    rw [haddrs]
    exact hinv.current p hp _ hp₀ hmsdu.symm v hdrv
  have hdrvTx : SameTables a.dev (drvTx a.dev v f.out.sta skb) := ⟨rfl, rfl, fun _ => rfl, fun _ => rfl⟩
  have hshrink : AirInv origin { a with
      dev := drvTx a.dev v f.out.sta skb
      flights := a.flights.set k { f with out := { f.out with skbs := skbs } } } os := by
    refine hinv.shrink hdrvTx rfl ?_ ?_
    · rintro p (hp | ⟨f', hf', hmsdu, hskb⟩)
      · exact .inl hp
      · rcases List.mem_or_eq_of_mem_set hf' with hf' | rfl
        · exact .inr ⟨f', hf', hmsdu, hskb⟩
        · exact .inr ⟨f, hf, hmsdu, by rw [hskbs]; exact List.mem_cons_of_mem _ hskb⟩
    · intro f' hf' skb' hskb'
      rcases List.mem_or_eq_of_mem_set hf' with hf' | rfl
      · exact ⟨f', hf', rfl, hskb'⟩
      · exact ⟨f, hf, rfl, by rw [hskbs]; exact List.mem_cons_of_mem _ hskb'⟩
  constructor
  · exact hshrink.waits
  · exact hshrink.flights
  · intro p hp
    rcases List.mem_append.mp hp with hp | hp
    · exact hinv.sent p hp
    · obtain rfl := List.mem_singleton.mp hp
      exact hlt
  · intro p hp p' hp' hmsdu
    rcases List.mem_append.mp hp with hp | hp <;> rcases List.mem_append.mp hp' with hp' | hp'
    · exact hinv.together p hp p' hp' hmsdu
    · obtain rfl := List.mem_singleton.mp hp'
      exact hsame p hp hmsdu
    · obtain rfl := List.mem_singleton.mp hp
      exact (hsame p' hp' hmsdu.symm).symm
    · obtain rfl := List.mem_singleton.mp hp
      obtain rfl := List.mem_singleton.mp hp'
      rfl
  · intro p hp p' hp' hmsdu v' hv'
    rcases List.mem_append.mp hp with hp | hp
    · exact hshrink.current p hp p' hp' hmsdu v' hv'
    · obtain rfl := List.mem_singleton.mp hp
      obtain ⟨-, horigin'⟩ := hshrink.waits p' hp'
      have hmsdu' : p'.msdu = f.msdu := hmsdu
      rw [hmsdu'] at horigin'
      have hvif : p'.skb.info.vif = skb.info.vif := horigin'.vif.trans horigin.vif.symm
      have hveq : v' = v := by
        have hv'' : driverVif a.dev p'.skb.info.vif = some (some v') := (hdrvTx.vif _).symm.trans hv'
        rw [hvif, hdrv] at hv''
        exact (some.inj (some.inj hv'')).symm
      rw [haddrs, hveq, hdrvTx.outAddrs_eq]
      exact (horigin.hdr.outAddrs_eq a.dev v).trans (horigin'.hdr.outAddrs_eq a.dev v).symm

theorem airInv_iterate {a' : AirState} {o : List Piece} (hinv : AirInv origin a os) (hf : f ∈ a.flights)
    (h : a.iterate k f = some (a', o)) : AirInv origin a' (os ++ o) := by
  rw [AirState.iterate.eq_def] at h
  split at h
  · cases h
    rw [List.append_nil]
    exact hinv.eraseIdx k
  · rename_i skb skbs hskbs
    simp only at h
    split at h
    · cases h
      rw [List.append_nil]
      exact hinv.park hf _ k
    · cases h
      rw [List.append_nil]
      exact hinv.eraseIdx k
    · rename_i v hsend
      cases h
      exact hinv.send hf hskbs (iteration_send hsend) k
    · cases h

end Steps

/-- **The fragments of an MSDU stay together on the air**, in every run in which no rotation comes between
two of them. -/
theorem fragments_stay_together {sha1 : List UInt8 → Vector UInt8 20} {C : Crypto} {hw : Local}
    {a : AirState} {os : List Piece} (h : Reach (airStep sha1 C) Undisturbed (airBoot hw) a os) :
    StayTogether os := by
  have hinv : ∃ origin, AirInv origin a os := by
    refine h.invariant (fun a os => ∃ origin, AirInv origin a os) ?_ ?_
    · refine ⟨fun _ => ⟨⟨0, 0, Vector.replicate 6 0, Vector.replicate 6 0, Vector.replicate 6 0, 0, []⟩, {}, 0⟩, ?_⟩
      have hnone : ∀ p, ¬(airBoot hw).Waits p := by
        rintro p (⟨q, hq⟩ | ⟨f, hf, -⟩)
        · exact absurd hq List.not_mem_nil
        · exact absurd hf List.not_mem_nil
      exact ⟨fun p hp => absurd hp (hnone p), fun f hf => absurd hf List.not_mem_nil,
        fun p hp => absurd hp List.not_mem_nil, fun p hp => absurd hp List.not_mem_nil,
        fun p hp => absurd hp List.not_mem_nil⟩
    · rintro a os e a' o ⟨origin, hinv⟩ hC hstep
      cases e with
      | start e =>
        obtain ⟨⟨s, out⟩, hprepare, heq⟩ := map_eq_some_iff.mp hstep
        cases heq
        rw [List.append_nil]
        exact airInv_started hinv hC hprepare
      | next k =>
        obtain ⟨f, hf, hiterate⟩ := bind_eq_some_iff.mp hstep
        exact ⟨origin, airInv_iterate hinv (List.mem_of_getElem? hf) hiterate⟩
  obtain ⟨origin, hinv⟩ := hinv
  exact hinv.together

/-! ### A frame of two fragments -/

/-- A frame of 300 bytes behind its header, from a station to its AP. -/
def longFrameToAp : TxSkb where
  hdr := ⟨FTYPE_DATA ||| FCTL_TODS, 0, toyMac 1, toyMac 2, toyMac 3, 0, List.replicate 300 7⟩

/-- A station that is associated, and splits frames at 256 bytes. -/
def splittingStation : AirState := airBoot { fragThreshold := 256 }

/-- The first event: its interface. -/
def splittingInterface : AirEvent := .start (.addInterface 0 { type := .station, addr := toyMac 2, bssid := toyMac 1 })

/-- The queue is stopped between the two fragments, and woken again after some events, with `n` loops under
way. -/
def parkedBetween (meanwhile : List Event) (n : ℕ) : List AirEvent :=
  (setupSta 0 0 (toyMac 1) 0).map .start ++
    [.start (.xmit {} 0 (some 0) longFrameToAp false), .next 0, .start (.stopReasons 0 1), .next 0] ++
    meanwhile.map .start ++ [.start (.stopReasons 0 0), .start (.txPending {} 0), .next n]

/-- No event of a run rotates, and none adds an interface. -/
def NeverRotates (a : AirState) (_ : List Piece) : AirEvent → Prop
  | .start (.addInterface _ _) => False
  | .start e => a.device.rotates e = false
  | .next _ => True

instance (a : AirState) (os : List Piece) (e : AirEvent) : Decidable (NeverRotates a os e) :=
  match e with
  | .next _ => isTrue trivial
  | .start (.addInterface _ _) => isFalse id
  | .start (.xmit ..) | .start (.startXmit ..) | .start (.txPending ..) | .start (.addPending ..) |
    .start (.txDequeue ..) | .start (.getBufferedBc ..) | .start (.rx ..) | .start (.purge ..) |
    .start (.purgeBc ..) | .start (.key ..) | .start (.checkFastXmit ..) | .start (.startAp ..) |
    .start (.setBssid ..) | .start (.addSta ..) | .start (.removeSta ..) | .start (.moveState ..) |
    .start (.stopReasons ..) | .start (.numStaPs ..) | .start (.tick ..) =>
    inferInstanceAs (Decidable (_ = false))

theorem NeverRotates.undisturbed {a : AirState} {os : List Piece} {e : AirEvent} (h : NeverRotates a os e) :
    Undisturbed a os e := by
  cases e with
  | next k => trivial
  | start e =>
    cases e with
    | addInterface v d => exact h.elim
    | _ => exact fun _ _ _ => h

theorem reach_of_neverRotates {sha1 : List UInt8 → Vector UInt8 20} {C : Crypto} {a₀ : AirState} {e : AirEvent}
    {es : List AirEvent} {msdus : List ℕ} (hC : Undisturbed a₀ [] e)
    (hall : (airStep sha1 C a₀ e).any (fun r => r.2 = [] &&
      decide (Meets (airStep sha1 C) NeverRotates r.1 [] es) &&
      (run (airStep sha1 C) r.1 es).any fun r => r.2.map Piece.msdu = msdus) = true) :
    ∃ a os, Reach (airStep sha1 C) Undisturbed a₀ a os ∧ os.map Piece.msdu = msdus := by
  cases hs₁ : airStep sha1 C a₀ e with
  | none =>
    rw [hs₁] at hall
    cases hall
  | some r₁ =>
    rw [hs₁, any_some, Bool.and_eq_true, Bool.and_eq_true, decide_eq_true_eq, decide_eq_true_eq] at hall
    obtain ⟨⟨ho₁, hmeets⟩, hrun⟩ := hall
    cases hr : run (airStep sha1 C) r₁.1 es with
    | none =>
      rw [hr] at hrun
      cases hrun
    | some r =>
      rw [hr, any_some, decide_eq_true_eq] at hrun
      have hfirst : Reach (airStep sha1 C) Undisturbed a₀ r₁.1 [] := by
        have hstep := Reach.step .init hC (show airStep sha1 C a₀ e = some (r₁.1, []) by rw [hs₁, ← ho₁])
        exact hstep
      have hreach := hfirst.of_run (hmeets.mono fun _ _ _ => NeverRotates.undisturbed) hr
      exact ⟨r.1, r.2, hreach, hrun⟩

theorem fragments_stay_together_parked : ∃ a os,
    Reach (airStep toyHash toyCrypto) Undisturbed splittingStation a os ∧ os.map Piece.msdu = [6, 6] ∧
      StayTogether os := by
  have hfirst : Undisturbed splittingStation [] splittingInterface := by
    rintro p (⟨q, hq⟩ | ⟨f, hf, -⟩)
    · exact absurd hq List.not_mem_nil
    · exact absurd hf List.not_mem_nil
  obtain ⟨a, os, hreach, hmsdu⟩ : ∃ a os, Reach (airStep toyHash toyCrypto) Undisturbed splittingStation a os ∧
      os.map Piece.msdu = [6, 6] := by
    refine @reach_of_neverRotates _ _ _ _ (parkedBetween [] 0) _ hfirst ?_
    decide +kernel
  exact ⟨a, os, hreach, hmsdu, fragments_stay_together hreach⟩

/-- The same with a rotation in between: the second fragment comes from another address than the first. -/
theorem rotation_splits_fragments : ∃ a os,
    Reach (airStep toyHash toyCrypto) (fun _ _ _ => True) splittingStation a os ∧
      os.map Piece.msdu = [6, 6] ∧ ¬StayTogether os := by
  have hrun : (run (airStep toyHash toyCrypto) splittingStation (splittingInterface ::
      parkedBetween [.tick RND_TP, .xmit {} 0 (some 0) (dataTo (toyMac 1) (toyMac 2) (toyMac 3)) false] 1)).map
      (fun r => (r.2.map Piece.msdu, decide (StayTogether r.2))) = some ([6, 6], false) := by
    decide +kernel
  obtain ⟨⟨a, os⟩, hr, hos⟩ := map_eq_some_iff.mp hrun
  obtain ⟨hmsdu, htogether⟩ := Prod.mk.inj hos
  exact ⟨a, os, Reach.of_run_init hr, hmsdu, of_decide_eq_false htogether⟩

end Mac80211
