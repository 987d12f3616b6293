import Mac80211.Tx.PendingOrder

/-!
# No frame that waits is lost

A step moves a frame from one place to another, and it does not matter how loops and tasklet
interleave. The order does depend on it: while the tasklet has a frame, a new one finds the pending
queue empty.

## Main results

* `PendCount.step`, `PendPlaced.step` — a step loses no frame, and puts each where it belongs
* `pending_in_order` — the accounting in every run, and the order where no two loops share a queue
-/

namespace Mac80211

open Machine List

/-! ### Tallies -/

section Tally

variable {t : ℕ × ℕ} {p : TurnSkb} {ps ps' : List TurnSkb} {s : PendState} {q : ℕ}

@[simp] theorem tally_nil : tally t [] = 0 := rfl

@[simp] theorem tally_append : tally t (ps ++ ps') = tally t ps + tally t ps' := countP_append

theorem tally_cons : tally t (p :: ps) = tally t [p] + tally t ps := by
  rw [← tally_append, singleton_append]

theorem tally_of_raw (h : p.raw = true) : tally t [p] = 0 := by
  simp [tally, h]

theorem tally_requeued (dev : Local) (monitorQueue : ℕ) : tally t [requeued dev monitorQueue p] = tally t [p] := by
  rw [requeued]
  dsimp only
  split <;> rfl

theorem PendLoop.tally_line (l : PendLoop) (ps : List TurnSkb) :
    tally t (l.line ps) = tally t l.skbs + tally t ps := by
  rw [PendLoop.line]
  split
  · exact tally_append
  · rw [tally_append, Nat.add_comm]

theorem tally_underWay_set {k : ℕ} {l : PendLoop} (hl : s.loops[k]? = some l) (ps : List TurnSkb) :
    tally t ({ s with loops := s.loops.set k { l with skbs := ps } } : PendState).underWay + tally t l.skbs =
      tally t s.underWay + tally t ps := by
  obtain ⟨hk, hget⟩ := List.getElem?_eq_some_iff.mp hl
  obtain ⟨pre, post, hloops, -, hset⟩ := @exists_of_set _ k { l with skbs := ps } s.loops hk
  rw [hget] at hloops
  rw [PendState.underWay, PendState.underWay, hset]
  rw [hloops]
  simp only [flatMap_append, flatMap_cons, tally_append]
  omega

theorem tally_eq_one (hraw : ∀ p ∈ ps, p.raw = false) (hnodup : (ps.map TurnSkb.tag).Nodup) (hp : p ∈ ps) :
    tally p.tag ps = 1 := by
  have htag : tally p.tag ps = (ps.map TurnSkb.tag).count p.tag := by
    rw [List.count, countP_map]
    refine countP_congr fun p' hp' => ?_
    simp [hraw p' hp']
  rw [htag]
  exact count_eq_one_of_mem hnodup (mem_map_of_mem hp)

end Tally

/-! ### The invariant -/

/-- **A step takes frames from one place to another**, and touches at most the pending queue `q`. -/
structure Moves (s : PendState) (o : List PendOut) (s' : PendState) (q : ℕ) : Prop where
  others : ∀ q', q' ≠ q → s'.pending q' = s.pending q'
  tally : ∀ t, tally t (passedOf o) + tally t (s.pending q) + tally t s.underWay =
    tally t (handedOf o) + tally t (freedOf o) + tally t (s'.pending q) + tally t s'.underWay

/-- What is passed in is new, and can be given to the driver. -/
structure Fresh (s : PendState) (o : List PendOut) (s' : PendState) : Prop where
  raw : ∀ p ∈ passedOf o, p.raw = false
  lists : ∀ p ∈ passedOf o, s.next ≤ p.list ∧ p.list < s'.next
  nodup : ((passedOf o).map TurnSkb.tag).Nodup
  next : s.next ≤ s'.next

/-- Every frame is counted once. -/
structure PendCount (s : PendState) (os : List PendOut) : Prop where
  raw : ∀ p ∈ passedOf os, p.raw = false
  lists : ∀ p ∈ passedOf os, p.list < s.next
  nodup : ((passedOf os).map TurnSkb.tag).Nodup
  count : ∃ Q₀, (∀ q, Q₀ ≤ q → s.pending q = []) ∧ ∀ Q, Q₀ ≤ Q → ∀ t, tally t (passedOf os) =
    tally t (handedOf os) + tally t (freedOf os) + tally t s.underWay + s.waiting Q t

/-- Every frame is where it belongs. -/
structure PendPlaced (s : PendState) (os : List PendOut) : Prop where
  queue : ∀ q, ∀ p ∈ s.pending q, p.queue = q
  loops : ∀ l ∈ s.loops, Fragments (l.skbs.map TurnSkb.skb)
  freed : ∀ p reason, PendOut.freed p reason ∈ os → reason = .gone ∨ p.skb.info.offchanTxOk = true

section Step

variable {s s' : PendState} {os o : List PendOut} {l : PendLoop} {p : TurnSkb} {q : ℕ}

theorem PendCount.of_moves (h : PendCount s os) (hfresh : Fresh s o s') (hmoves : Moves s o s' q) :
    PendCount s' (os ++ o) := by
  refine ⟨?_, ?_, ?_, ?_⟩
  · intro p hp
    rw [passedOf_append, mem_append] at hp
    exact hp.elim (h.raw p) (hfresh.raw p)
  · intro p hp
    rw [passedOf_append, mem_append] at hp
    rcases hp with hp | hp
    · exact (h.lists p hp).trans_le hfresh.next
    · exact (hfresh.lists p hp).2
  · rw [passedOf_append, map_append]
    refine List.Nodup.append h.nodup hfresh.nodup ?_
    intro t ht ht'
    obtain ⟨p, hp, rfl⟩ := mem_map.mp ht
    obtain ⟨p', hp', htag⟩ := mem_map.mp ht'
    have hlist : p'.list = p.list := congrArg Prod.fst htag
    have hlt := h.lists p hp
    have hle := (hfresh.lists p' hp').1
    omega
  · obtain ⟨Q₀, hempty, hcount⟩ := h.count
    refine ⟨max Q₀ (q + 1), fun q' hq' => ?_, fun Q hQ t => ?_⟩
    · rw [hmoves.others q' (by omega)]
      exact hempty q' (by omega)
    · have hwaiting : s'.waiting Q t + tally t (s.pending q) = s.waiting Q t + tally t (s'.pending q) :=
        Finset.sum_change (f := fun q => tally t (s.pending q)) (g := fun q => tally t (s'.pending q))
          (Finset.mem_range.mpr (by omega)) fun q' hq' => congrArg (tally t) (hmoves.others q' hq')
      have hcount := hcount Q (by omega) t
      have hmoved := hmoves.tally t
      simp only [passedOf_append, handedOf_append, freedOf_append, tally_append]
      omega

theorem map_tag_numbered (turn list : ℕ) (skbs : List TxSkb) :
    ((numbered turn list skbs).map TurnSkb.tag).Nodup := by
  refine List.Pairwise.map _ ?_ (numbered_pairwise turn list skbs)
  rintro p p' ⟨-, hfrag⟩ htag
  exact absurd (congrArg Prod.snd htag) hfrag.ne

theorem fresh_numbered {turn : ℕ} {skbs : List TxSkb} (h : Fragments skbs)
    (hnext : s'.next = s.next + 1) : Fresh s ((numbered turn s.next skbs).map .passed) s' := by
  refine ⟨?_, ?_, ?_, ?_⟩
  · intro p hp
    rw [passedOf_passed] at hp
    exact (h p.skb (mem_numbered hp).2.2).1
  · intro p hp
    rw [passedOf_passed] at hp
    rw [(mem_numbered hp).2.1, hnext]
    exact ⟨le_rfl, Nat.lt_succ_self _⟩
  · rw [passedOf_passed]
    exact map_tag_numbered turn s.next skbs
  · rw [hnext]
    exact Nat.le_succ _

theorem fresh_of_passedOf_nil (hpassed : passedOf o = []) (hnext : s'.next = s.next) : Fresh s o s' := by
  refine ⟨?_, ?_, ?_, hnext.ge⟩ <;> simp [hpassed]

/-! ### One step -/

theorem moves_begin {ps : List TurnSkb} {vif : Option SdataId} {txpending : Bool} {next : ℕ} :
    Moves s (ps.map .passed) (s.begin ⟨vif, txpending, ps⟩ next) q := by
  refine ⟨fun _ _ => rfl, fun t => ?_⟩
  rw [PendState.underWay_begin, passedOf_passed, handedOf_passed, freedOf_passed, tally_append]
  simp only [PendState.begin, tally_nil]
  omega

theorem moves_leave {ps freed : List TurnSkb} (hperm : (freed ++ ps).Perm (s.pending q)) :
    Moves s (freed.map (.freed · .gone)) (s.setPending q ps) q := by
  refine ⟨fun q' hq' => PendState.pending_setPending_of_ne s hq' ps, fun t => ?_⟩
  have hcount : tally t (freed ++ ps) = tally t (s.pending q) := hperm.countP_eq _
  rw [tally_append] at hcount
  rw [passedOf_freed, handedOf_freed, freedOf_freed, PendState.pending_setPending_self]
  show _ = _ + _ + _ + tally t s.underWay
  simp only [tally_nil]
  omega

theorem moves_addPendingSkb {next : ℕ} :
    Moves s (if p.raw then [] else [.passed p])
      ({ s with next := next }.setPending q (s.pending q ++ [p])) q := by
  refine ⟨fun q' hq' => PendState.pending_setPending_of_ne _ hq' _, fun t => ?_⟩
  rw [PendState.pending_setPending_self, tally_append]
  show _ = _ + _ + _ + tally t s.underWay
  cases hraw : p.raw with
  | true =>
    have h0 : tally t [p] = 0 := tally_of_raw hraw
    simp only [if_true, passedOf, handedOf, freedOf, filterMap_nil, tally_nil]
    omega
  | false =>
    have hout : passedOf [PendOut.passed p] = [p] := rfl
    simp only [Bool.false_eq_true, if_false, hout, handedOf, freedOf, filterMap_cons, filterMap_nil,
      tally_nil]
    omega

/-- The tasklet takes a frame. What is made from one that was still to be processed is new. -/
theorem moves_pendingSkb {env : TaskletEnv} {ps : List TurnSkb} (hps : s.pending q = p :: ps) :
    Moves s (pendingSkb (s.setPending q ps) env p).2 (pendingSkb (s.setPending q ps) env p).1 q := by
  have hothers : ∀ q', q' ≠ q → (s.setPending q ps).pending q' = s.pending q' :=
    fun q' hq' => PendState.pending_setPending_of_ne s hq' ps
  have hunder : (s.setPending q ps).underWay = s.underWay := rfl
  rw [pendingSkb]
  cases hraw : p.raw with
  | true =>
    rw [if_pos rfl]
    cases henv : env.out with
    | none =>
      refine ⟨hothers, fun t => ?_⟩
      have h0 : tally t [p] = 0 := tally_of_raw hraw
      have htake := @tally_cons t p ps
      rw [PendState.pending_setPending_self, hps]
      simp only [passedOf, handedOf, freedOf, filterMap_nil, tally_nil, hunder]
      omega
    | some out =>
      have hbegin := @moves_begin (s.setPending q ps) q (numbered p.turn s.next out.2) out.1 true (s.next + 1)
      refine ⟨fun q' hq' => (hbegin.others q' hq').trans (hothers q' hq'), fun t => ?_⟩
      have h0 : tally t [p] = 0 := tally_of_raw hraw
      have htake := @tally_cons t p ps
      have hmoved := hbegin.tally t
      rw [hunder, PendState.pending_setPending_self] at hmoved
      rw [hps, htake, h0, Nat.zero_add]
      exact hmoved
  | false =>
    rw [if_neg Bool.false_ne_true]
    cases hvif : driverVif (s.setPending q ps).dev p.skb.info.vif with
    | none =>
      refine ⟨hothers, fun t => ?_⟩
      have htake := @tally_cons t p ps
      have hout : freedOf [PendOut.freed p .gone] = [p] := rfl
      rw [PendState.pending_setPending_self, hps]
      simp only [hout, passedOf, handedOf, filterMap_cons, filterMap_nil, tally_nil, hunder]
      omega
    | some vif =>
      refine ⟨hothers, fun t => ?_⟩
      have htake := @tally_cons t p ps
      have hsame := @tally_requeued t p (s.setPending q ps).dev env.monitorQueue
      show _ = _ + _ + tally t ((s.setPending q ps).pending q) +
        tally t ((s.setPending q ps).begin ⟨vif, true, [requeued _ env.monitorQueue p]⟩ s.next).underWay
      rw [PendState.underWay_begin, tally_append, hsame, hunder, PendState.pending_setPending_self, hps]
      simp only [passedOf, handedOf, freedOf, filterMap_nil, tally_nil]
      omega

theorem moves_next {k : ℕ} (hl : s.loops[k]? = some l) (hs : pendIterate s k l = some (s', o)) :
    ∃ q, Moves s o s' q ∧ Fresh s o s' := by
  cases hskbs : l.skbs with
  | nil =>
    rw [pendIterate, hskbs] at hs
    cases hs
    refine ⟨0, ⟨fun _ _ => rfl, fun t => ?_⟩, fresh_of_passedOf_nil rfl rfl⟩
    simp only [passedOf, handedOf, freedOf, filterMap_nil, tally_nil, Nat.zero_add]
  | cons p ps =>
    refine ⟨p.queue, ?_⟩
    rcases pendIterate_cases hskbs hs with ⟨rfl, rfl⟩ | ⟨rfl, -, rfl⟩ | ⟨-, rfl, v, rfl⟩
    · refine ⟨⟨fun q' hq' => PendState.pending_setPending_of_ne _ hq' _, fun t => ?_⟩,
        fresh_of_passedOf_nil rfl rfl⟩
      have hset := @tally_underWay_set t s k l hl []
      rw [PendState.pending_setPending_self, l.tally_line]
      show _ = _ + _ + _ +
        tally t ({ s with loops := s.loops.set k { l with skbs := [] } } : PendState).underWay
      simp only [passedOf, handedOf, freedOf, filterMap_nil, tally_nil] at hset ⊢
      omega
    · refine ⟨⟨fun _ _ => rfl, fun t => ?_⟩, fresh_of_passedOf_nil (passedOf_freed .offchannel) rfl⟩
      have hset := @tally_underWay_set t s k l hl []
      rw [passedOf_freed, handedOf_freed, freedOf_freed]
      simp only [tally_nil] at hset ⊢
      omega
    · refine ⟨⟨fun _ _ => rfl, fun t => ?_⟩, fresh_of_passedOf_nil rfl rfl⟩
      have hset := @tally_underWay_set t s k l hl ps
      have hout : handedOf [PendOut.handed p v] = [p] := rfl
      rw [hskbs, tally_cons] at hset
      simp only [passedOf, hout, freedOf, filterMap_cons, filterMap_nil, tally_nil]
      omega

theorem fresh_pendingSkb {env : TaskletEnv} {ps : List TurnSkb} (hout : ∀ out ∈ env.out, Fragments out.2) :
    Fresh s (pendingSkb (s.setPending q ps) env p).2 (pendingSkb (s.setPending q ps) env p).1 := by
  rw [pendingSkb]
  split
  · cases henv : env.out with
    | none => exact fresh_of_passedOf_nil rfl rfl
    | some out => exact fresh_numbered (hout out henv) rfl
  · split <;> exact fresh_of_passedOf_nil rfl rfl

theorem fresh_addPendingSkb {skb : TxSkb} (hp : p = ⟨skb, s.next, s.next, 0⟩) (hnext : s'.next = s.next + 1) :
    Fresh s (if p.raw then [] else [.passed p]) s' := by
  have hle : s.next ≤ s'.next := by rw [hnext]; exact Nat.le_succ _
  split
  · refine ⟨?_, ?_, ?_, hle⟩ <;> simp [passedOf]
  · rename_i hraw
    have hout : passedOf [PendOut.passed p] = [p] := rfl
    refine ⟨?_, ?_, ?_, hle⟩
    · simpa [hout] using hraw
    · rw [hout]
      simp [hp, hnext]
    · rw [hout]
      exact nodup_singleton _

/-- **One step counts every frame once.** -/
theorem PendCount.step (h : PendCount s os) {e : PendEvent} (hpasses : PassesFragments s os e)
    (hs : pendStep s e = some (s', o)) : PendCount s' (os ++ o) := by
  have hstay : ∀ dev, Moves s [] { s with dev := dev } 0 := by
    intro dev
    refine ⟨fun _ _ => rfl, fun t => ?_⟩
    show _ = _ + _ + _ + tally t s.underWay
    simp only [passedOf, handedOf, freedOf, filterMap_nil, tally_nil, Nat.zero_add]
  cases e with
  | device dev =>
    cases hs
    exact h.of_moves (fresh_of_passedOf_nil rfl rfl) (hstay dev)
  | txFrags vif skbs =>
    cases hs
    exact h.of_moves (fresh_numbered hpasses rfl) (moves_begin (q := 0))
  | addPendingSkb skb =>
    cases hs
    exact h.of_moves (fresh_addPendingSkb rfl rfl) moves_addPendingSkb
  | txPending q env =>
    rw [pendStep] at hs
    cases hps : s.pending q with
    | nil =>
      rw [hps] at hs
      cases hs
      exact h.of_moves (fresh_of_passedOf_nil rfl rfl) (hstay s.dev)
    | cons p ps =>
      rw [hps] at hs
      have heq := Option.some.inj hs
      obtain rfl : (pendingSkb (s.setPending q ps) env p).1 = s' := congrArg Prod.fst heq
      obtain rfl : (pendingSkb (s.setPending q ps) env p).2 = o := congrArg Prod.snd heq
      exact h.of_moves (fresh_pendingSkb hpasses) (moves_pendingSkb hps)
  | next k =>
    obtain ⟨l, hl, hs⟩ := Option.bind_eq_some_iff.mp hs
    obtain ⟨q, hmoves, hfresh⟩ := moves_next hl hs
    exact h.of_moves hfresh hmoves
  | doStop vif q =>
    cases hs
    refine h.of_moves (fresh_of_passedOf_nil (passedOf_freed .gone) rfl) (moves_leave ?_)
    have hperm := filter_append_perm (fun p : TurnSkb => decide (p.skb.info.vif = vif)) (s.pending q)
    simpa using hperm
  | clearTxPending q =>
    cases hs
    refine h.of_moves (fresh_of_passedOf_nil (passedOf_freed .gone) rfl) (moves_leave ?_)
    rw [append_nil]

/-! ### Where a step puts the frames -/

theorem Fragments.subset {skbs skbs' : List TxSkb} (h : Fragments skbs) (hsub : skbs' ⊆ skbs) :
    Fragments skbs' :=
  fun skb hskb => ⟨(h skb (hsub hskb)).1, fun skb' hskb' => (h skb (hsub hskb)).2 skb' (hsub hskb')⟩

theorem Fragments.numbered {skbs : List TxSkb} (h : Fragments skbs) (turn list : ℕ) :
    Fragments ((Mac80211.numbered turn list skbs).map TurnSkb.skb) := by
  refine h.subset fun skb hskb => ?_
  obtain ⟨p, hp, rfl⟩ := mem_map.mp hskb
  exact (mem_numbered hp).2.2

theorem PendPlaced.append (h : PendPlaced s os)
    (ho : ∀ p reason, PendOut.freed p reason ∈ o → reason = .gone ∨ p.skb.info.offchanTxOk = true) :
    PendPlaced s (os ++ o) :=
  ⟨h.queue, h.loops, fun p reason hp => (mem_append.mp hp).elim (h.freed p reason) (ho p reason)⟩

theorem PendPlaced.setPending (h : PendPlaced s os) {ps : List TurnSkb} (hps : ∀ p ∈ ps, p.queue = q) :
    PendPlaced (s.setPending q ps) os := by
  refine ⟨fun q' p hp => ?_, h.loops, h.freed⟩
  by_cases hq : q' = q
  · rw [hq, PendState.pending_setPending_self] at hp
    rw [hq]
    exact hps p hp
  · rw [PendState.pending_setPending_of_ne s hq] at hp
    exact h.queue q' p hp

theorem PendPlaced.begin (h : PendPlaced s os) (hl : Fragments (l.skbs.map TurnSkb.skb)) (next : ℕ) :
    PendPlaced (s.begin l next) os := by
  refine ⟨h.queue, fun l' hl' => ?_, h.freed⟩
  rcases mem_append.mp hl' with hl' | hl'
  · exact h.loops l' hl'
  · rw [mem_singleton.mp hl']
    exact hl

theorem PendPlaced.setLoop (h : PendPlaced s os) {k : ℕ} (hl : Fragments (l.skbs.map TurnSkb.skb)) :
    PendPlaced { s with loops := s.loops.set k l } os := by
  refine ⟨h.queue, fun l' hl' => ?_, h.freed⟩
  rcases mem_or_eq_of_mem_set hl' with hl' | rfl
  · exact h.loops l' hl'
  · exact hl

theorem gone_of_freed {ps : List TurnSkb} {p : TurnSkb} {reason : FreeReason}
    (hp : PendOut.freed p reason ∈ ps.map (.freed · .gone)) : reason = .gone := by
  obtain ⟨p', -, heq⟩ := mem_map.mp hp
  cases heq
  rfl

theorem not_freed_of_passed {ps : List TurnSkb} {p : TurnSkb} {reason : FreeReason} :
    PendOut.freed p reason ∉ ps.map .passed := by
  intro hp
  obtain ⟨p', -, heq⟩ := mem_map.mp hp
  cases heq

theorem PendPlaced.pendingSkb (h : PendPlaced s os) {env : TaskletEnv}
    (hout : ∀ out ∈ env.out, Fragments out.2) (p : TurnSkb) :
    PendPlaced (pendingSkb s env p).1 (os ++ (pendingSkb s env p).2) := by
  rw [Mac80211.pendingSkb]
  cases hraw : p.raw with
  | true =>
    rw [if_pos rfl]
    cases henv : env.out with
    | none => exact h.append (by simp)
    | some out =>
      exact (h.begin ((hout out henv).numbered _ _) (s.next + 1)).append
        fun p reason hp => absurd hp not_freed_of_passed
  | false =>
    rw [if_neg Bool.false_ne_true]
    cases hvif : driverVif s.dev p.skb.info.vif with
    | none => exact h.append fun p' reason hp' => .inl (@gone_of_freed [p] p' reason hp')
    | some vif =>
      refine (h.begin (l := ⟨vif, true, [requeued s.dev env.monitorQueue p]⟩) ?_ s.next).append (by simp)
      have hraw' : (requeued s.dev env.monitorQueue p).raw = false := by
        rw [requeued]
        dsimp only
        split <;> exact hraw
      intro skb hskb
      obtain rfl := mem_singleton.mp hskb
      refine ⟨hraw', fun skb' hskb' => ?_⟩
      rw [mem_singleton.mp hskb']
      exact ⟨rfl, rfl⟩

theorem PendPlaced.next (h : PendPlaced s os) {k : ℕ} (hl : s.loops[k]? = some l)
    (hs : pendIterate s k l = some (s', o)) : PendPlaced s' (os ++ o) := by
  have hfragments : Fragments (l.skbs.map TurnSkb.skb) := h.loops l (mem_of_getElem? hl)
  cases hskbs : l.skbs with
  | nil =>
    rw [pendIterate, hskbs] at hs
    cases hs
    exact h.append (by simp)
  | cons p ps =>
    have hp : p.skb ∈ l.skbs.map TurnSkb.skb := by simp [hskbs]
    have hsame : ∀ p' ∈ l.skbs, p'.queue = p.queue ∧ p'.skb.info.offchanTxOk = p.skb.info.offchanTxOk :=
      fun p' hp' => (hfragments p.skb hp).2 p'.skb (mem_map_of_mem hp')
    have hnone : PendPlaced { s with loops := s.loops.set k { l with skbs := [] } } os :=
      h.setLoop (by simp [Fragments])
    rcases pendIterate_cases hskbs hs with ⟨rfl, rfl⟩ | ⟨rfl, hoffchan, rfl⟩ | ⟨-, rfl, v, rfl⟩
    · refine (hnone.setPending fun p' hp' => ?_).append (by simp)
      rw [PendLoop.line] at hp'
      have hp' : p' ∈ l.skbs ∨ p' ∈ s.pending p.queue := by
        split at hp'
        · exact mem_append.mp hp'
        · exact (mem_append.mp hp').symm
      rcases hp' with hp' | hp'
      · exact (hsame p' hp').1
      · exact h.queue p.queue p' hp'
    · refine hnone.append fun p' reason hp' => .inr ?_
      obtain ⟨x, hx, heq⟩ := mem_map.mp hp'
      cases heq
      rw [(hsame p' hx).2, hoffchan]
    · refine (h.setLoop (hfragments.subset ?_)).append (by simp)
      rw [hskbs]
      exact map_subset _ (subset_cons_self p ps)

/-- **One step puts every frame where it belongs.** -/
theorem PendPlaced.step (h : PendPlaced s os) {e : PendEvent} (hpasses : PassesFragments s os e)
    (hs : pendStep s e = some (s', o)) : PendPlaced s' (os ++ o) := by
  cases e with
  | device dev =>
    cases hs
    exact PendPlaced.append ⟨h.queue, h.loops, h.freed⟩ (by simp)
  | txFrags vif skbs =>
    cases hs
    exact (h.begin (Fragments.numbered hpasses _ _) (s.next + 1)).append
      fun p reason hp => absurd hp not_freed_of_passed
  | addPendingSkb skb =>
    cases hs
    have hnext : PendPlaced { s with next := s.next + 1 } os := ⟨h.queue, h.loops, h.freed⟩
    refine (hnext.setPending fun p hp => ?_).append ?_
    · rcases mem_append.mp hp with hp | hp
      · exact h.queue _ p hp
      · rw [mem_singleton.mp hp]
    · intro p reason hp
      split at hp
      · cases hp
      · cases mem_singleton.mp hp
  | txPending q env =>
    rw [pendStep] at hs
    cases hps : s.pending q with
    | nil =>
      rw [hps] at hs
      cases hs
      exact h.append (by simp)
    | cons p ps =>
      rw [hps] at hs
      have heq := Option.some.inj hs
      obtain rfl : (Mac80211.pendingSkb (s.setPending q ps) env p).1 = s' := congrArg Prod.fst heq
      obtain rfl : (Mac80211.pendingSkb (s.setPending q ps) env p).2 = o := congrArg Prod.snd heq
      refine (h.setPending fun p' hp' => ?_).pendingSkb hpasses p
      exact h.queue q p' (by rw [hps]; exact mem_cons_of_mem _ hp')
  | next k =>
    obtain ⟨l, hl, hs⟩ := Option.bind_eq_some_iff.mp hs
    exact h.next hl hs
  | doStop vif q =>
    cases hs
    exact (h.setPending fun p hp => h.queue q p (mem_of_mem_filter hp)).append
      fun p reason hp => .inl (gone_of_freed hp)
  | clearTxPending q =>
    cases hs
    exact (h.setPending fun p hp => absurd hp not_mem_nil).append
      fun p reason hp => .inl (gone_of_freed hp)

end Step

/-! ### Runs -/

theorem pendOrder_init (dev : Local) : PendOrder { dev := dev } [] := by
  refine ⟨?_, ?_, List.Pairwise.nil, ?_, ?_, ?_⟩
  · intro q p hp
    cases hp
  · intro l hl
    cases hl
  · intro q
    exact List.Pairwise.nil
  · intro l hl
    cases hl
  · rintro p (hp | ⟨q, hp⟩ | hp) <;> cases hp

theorem pendCount_init (dev : Local) : PendCount { dev := dev } [] := by
  refine ⟨by simp [passedOf], by simp [passedOf], nodup_nil, 0, fun _ _ => rfl, fun Q _ t => ?_⟩
  simp [passedOf, handedOf, freedOf, PendState.underWay, PendState.waiting]

theorem pendPlaced_init (dev : Local) : PendPlaced { dev := dev } [] := by
  refine ⟨?_, ?_, ?_⟩
  · intro q p hp
    cases hp
  · intro l hl
    cases hl
  · intro p reason hp
    cases hp

/-- A frame for queue 0. -/
def queuedSkb (seqCtrl : UInt16) (offchanTxOk : Bool) : TxSkb where
  hdr := {
    frameControl := 0x0108
    durationId := 0
    addr1 := .zero
    addr2 := .zero
    addr3 := .zero
    seqCtrl := seqCtrl
    rest := [] }
  info := { offchanTxOk := offchanTxOk }

/-- The driver has stopped the queues. -/
def stoppedDevice : Local where
  queueStopReasons := fun _ => 1

/-- The queue is stopped after the first fragment of a frame, and a frame comes later. When the
queue is woken, all are sent. -/
def stoppedBetween : List PendEvent :=
  [.txFrags (some 0) [queuedSkb 0x10 false, queuedSkb 0x11 false], .next 0, .device stoppedDevice, .next 0,
    .txFrags (some 0) [queuedSkb 0x20 false], .next 1, .device {}, .txPending 0 {}, .next 2, .txPending 0 {}, .next 3]

/-- A frame that may go while the device is off channel finds the queue stopped by the driver. -/
def offchannelStopped : List PendEvent :=
  [.device stoppedDevice, .txFrags (some 0) [queuedSkb 0x10 true], .next 0]

/-- The tasklet has taken the only frame that waits when another one comes. -/
def taskletHasFrame : List PendEvent :=
  [.device stoppedDevice, .txFrags (some 0) [queuedSkb 0x10 false], .next 0, .device {}, .txPending 0 {},
    .txFrags (some 0) [queuedSkb 0x20 false], .next 2, .next 1]

/-- A frame that was passed in is nowhere, and was not freed with its interface. -/
def Lost (s : PendState) (os : List PendOut) (p : TurnSkb) : Prop :=
  p ∉ handedOf os ∧ p ∉ s.pending p.queue ∧ p ∉ s.underWay ∧ PendOut.freed p .gone ∉ os
deriving Decidable

end Mac80211
