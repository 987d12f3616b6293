import Mathlib.Data.List.Pairwise
import Mac80211.Convert.Ethernet
import Mac80211.Mesh.PathTable

/-!
# Falling back to mesh gates

`mesh_path_send_to_gates`: the frames that wait for a path that was not found are moved to the queue
of the first active gate, copied from there to the next one, and so on. The loop over a list of
their own ends early when a queue is full or a copy fails; what is on it then is forgotten when
moving. And a queue is copied with the frames that waited for that gate itself.

## Main results

* `gatesRight_iff` — when each frame goes to every gate, and no other does
-/

namespace Mac80211

open List

def EHOSTUNREACH : ℤ := 113

/-! ### The source -/

/-- Where the mesh header is in the bytes from offset 24 on. -/
def MeshSkb.meshOffset (skb : MeshSkb) : ℕ := hdrlen skb.hdr.frameControl - 24

/-- `mshdr->flags`. -/
def MeshSkb.meshFlags (skb : MeshSkb) : UInt8 := skb.hdr.byte skb.meshOffset

/-- `mshdr->flags & MESH_FLAGS_AE`. -/
def MeshSkb.hasAe (skb : MeshSkb) : Bool := skb.meshFlags &&& MESH_FLAGS_AE != 0

/-- Make room for two addresses behind the six bytes of the mesh header, and put `addr3` and `addr4`
there. -/
def MeshSkb.extend (skb : MeshSkb) : MeshSkb :=
  let off := skb.meshOffset
  { skb with hdr := { skb.hdr with
      rest := skb.hdr.rest.take off ++ MESH_FLAGS_AE_A5_A6 :: (skb.hdr.rest.drop (off + 1)).take 5 ++
        skb.hdr.addr3.toList ++ skb.hdr.rest.take 6 ++ skb.hdr.rest.drop (off + 6) } }

/-- `prepare_for_gate`, with the addresses of the next hop and of the interface. -/
def prepareForGate (nextHop addr dst : Mac) (skb : MeshSkb) : MeshSkb :=
  let skb := if !skb.hasAe then skb.extend else skb
  { skb with hdr := { skb.hdr with
      addr1 := nextHop
      addr2 := addr
      addr3 := dst } }

/-- The loop of `mesh_path_move_to_queue`: the queue of the gate, and what is left on `failq`.
`copyOk`: `skb_copy` succeeds for the frame at a place. -/
def moveLoop (prepare : MeshSkb → MeshSkb) (copyOk : ℕ → Bool) :
    ℕ → List MeshSkb → List MeshSkb → List MeshSkb × List MeshSkb
  | _, queue, [] => (queue, [])
  | i, queue, fskb :: rest =>
    if meshFrameQueueLen ≤ queue.length then (queue, fskb :: rest)
    else if !copyOk i then (queue, fskb :: rest)
    else moveLoop prepare copyOk (i + 1) (queue ++ [prepare fskb]) rest

theorem moveLoop_cons (prepare : MeshSkb → MeshSkb) (copyOk : ℕ → Bool) (i : ℕ) (queue rest : List MeshSkb)
    (fskb : MeshSkb) : moveLoop prepare copyOk i queue (fskb :: rest) =
      if meshFrameQueueLen ≤ queue.length then (queue, fskb :: rest)
      else if !copyOk i then (queue, fskb :: rest)
      else moveLoop prepare copyOk (i + 1) (queue ++ [prepare fskb]) rest := rfl

/-- The interface, and what has become of frames. -/
structure GateState where
  mif : MeshIf
  /-- Frames freed. -/
  freed : List MeshSkb := []
  /-- Frames on a list that goes out of scope. -/
  lost : List MeshSkb := []
  /-- Frames handed to `ieee80211_add_pending_skbs`, for a gate each. -/
  sent : List (ℕ × MeshSkb) := []

/-- What the pattern of addresses and failures is given by. -/
structure GateEnv where
  /-- `sta.addr`. -/
  staAddr : ℕ → Mac
  /-- Whether the copy of the frame at a place of the list succeeds, when it goes to a gate. -/
  copyOk : ℕ → ℕ → Bool

/-- `mesh_path_move_to_queue`. -/
def meshPathMoveToQueue (E : GateEnv) (G : GateState) (gate from_ : ℕ) (copy : Bool) : GateState :=
  if gate = from_ then G
  else
    match (G.mif.path gate).nextHop with
    | none => G
    | some sta =>
      let failq := (G.mif.path from_).frameQueue
      let s := G.mif.updPath from_ fun m => { m with frameQueue := [] }
      let moved := moveLoop (prepareForGate (E.staAddr sta) s.addr (s.path gate).dst) (E.copyOk gate) 0
        (s.path gate).frameQueue failq
      let s := s.updPath gate fun m => { m with frameQueue := moved.1 }
      if !copy then
        { G with
          mif := s
          freed := G.freed ++ failq.take (failq.length - moved.2.length)
          lost := G.lost ++ moved.2 }
      else
        { G with mif := s.updPath from_ fun m => { m with frameQueue := failq ++ m.frameQueue } }

/-- `mesh_path_tx_pending`; a frame without an interface is freed. -/
def meshPathTxPending (G : GateState) (p : ℕ) : GateState :=
  if (G.mif.path p).flags.active then
    let queue := (G.mif.path p).frameQueue
    let ready := queue.filter MeshSkb.vif
    { G with
      mif := { G.mif.updPath p (fun m => { m with frameQueue := [] }) with
        pending := fun q => G.mif.pending q ++ ready.filter fun skb => skb.hwQueue == q }
      freed := G.freed ++ queue.filter fun skb => !skb.vif
      sent := G.sent ++ queue.map (Prod.mk p) }
  else G

/-- One gate of the first loop of `mesh_path_send_to_gates`: the state, `from_mpath`, and `copy`. -/
def gateStep (E : GateEnv) (st : GateState × ℕ × Bool) (gate : ℕ) : GateState × ℕ × Bool :=
  if (st.1.mif.path gate).flags.active then (meshPathMoveToQueue E st.1 gate st.2.1 st.2.2, gate, true)
  else st

/-- `mesh_path_send_to_gates`. -/
def meshPathSendToGates (E : GateEnv) (s : MeshIf) (mpath : ℕ) : ℤ × GateState :=
  let gates := (s.tbl .meshPaths).knownGates
  let st := gates.foldl (gateStep E) ({ mif := s }, mpath, false)
  (if st.2.1 = mpath then -EHOSTUNREACH else 0, gates.foldl meshPathTxPending st.1)

/-! ### Moving frames -/

section Move

variable {prepare : MeshSkb → MeshSkb} {copyOk : ℕ → Bool} {i : ℕ} {queue failq : List MeshSkb}

/-- **The loop moves a first part of the list**, and leaves the rest. -/
theorem moveLoop_spec (prepare : MeshSkb → MeshSkb) (copyOk : ℕ → Bool) (i : ℕ)
    (queue failq : List MeshSkb) : ∃ done, failq = done ++ (moveLoop prepare copyOk i queue failq).2 ∧
      (moveLoop prepare copyOk i queue failq).1 = queue ++ done.map prepare := by
  induction failq generalizing i queue with
  | nil => exact ⟨[], rfl, (append_nil queue).symm⟩
  | cons fskb rest ih =>
    rw [moveLoop_cons]
    split
    · exact ⟨[], rfl, (append_nil queue).symm⟩
    · split
      · exact ⟨[], rfl, (append_nil queue).symm⟩
      · obtain ⟨done, hrest, hqueue⟩ := ih (i + 1) (queue ++ [prepare fskb])
        refine ⟨fskb :: done, by rw [cons_append, ← hrest], ?_⟩
        rw [hqueue, append_assoc, map_cons, singleton_append]

/-- Nothing is left exactly if there is room for all, and all copies succeed. -/
theorem moveLoop_left_iff : (moveLoop prepare copyOk i queue failq).2 = [] ↔
    failq = [] ∨ queue.length + failq.length ≤ meshFrameQueueLen ∧
      ∀ j < failq.length, copyOk (i + j) = true := by
  induction failq generalizing i queue with
  | nil => exact iff_of_true rfl (.inl rfl)
  | cons fskb rest ih =>
    rw [moveLoop_cons, or_iff_right (cons_ne_nil fskb rest)]
    split
    · rename_i hfull
      refine iff_of_false (cons_ne_nil fskb rest) fun hroom => ?_
      have := hroom.1
      rw [length_cons] at this
      omega
    · rename_i hroom
      split
      · rename_i hfail
        refine iff_of_false (cons_ne_nil fskb rest) fun hok => ?_
        have := hok.2 0 (Nat.succ_pos _)
        rw [Nat.add_zero] at this
        simp [this] at hfail
      · rename_i hok
        rw [Bool.not_eq_true', Bool.not_eq_false] at hok
        rw [ih]
        simp only [length_append, length_cons, length_nil]
        constructor
        · intro h
          refine ⟨?_, fun j hj => ?_⟩
          · rcases h with rfl | ⟨hlen, -⟩
            · simp only [length_nil]
              omega
            · omega
          · cases j with
            | zero => exact hok
            | succ j =>
              rcases h with rfl | ⟨-, hall⟩
              · simp at hj
              · have := hall j (by omega)
                rwa [Nat.add_assoc, Nat.add_comm 1 j] at this
        · rintro ⟨hlen, hall⟩
          refine .inr ⟨by omega, fun j hj => ?_⟩
          have := hall (j + 1) (by omega)
          rwa [Nat.add_assoc, Nat.add_comm 1 j]

/-- If there is room for the first frame, and its copy succeeds, it is moved. -/
theorem moveLoop_first {fskb : MeshSkb} {rest : List MeshSkb} (hroom : queue.length < meshFrameQueueLen)
    (hok : copyOk i = true) :
    prepare fskb ∈ (moveLoop prepare copyOk i queue (fskb :: rest)).1 := by
  rw [moveLoop_cons, if_neg (Nat.not_le.mpr hroom), if_neg (by simp [hok])]
  obtain ⟨done, -, hqueue⟩ := moveLoop_spec prepare copyOk (i + 1) (queue ++ [prepare fskb]) rest
  rw [hqueue]
  exact mem_append_left _ (mem_append_right _ mem_cons_self)

theorem moveLoop_none (h : meshFrameQueueLen ≤ queue.length ∨ copyOk i = false) :
    (moveLoop prepare copyOk i queue failq).1 = queue := by
  cases failq with
  | nil => rfl
  | cons fskb rest =>
    rw [moveLoop_cons]
    split
    · rfl
    · rename_i hroom
      rw [if_pos (by simpa using h.resolve_left hroom)]

end Move

/-! ### The queues of the gates -/

/-- The queue of a gate after frames of another queue have been moved or copied to it. -/
def queueAfter (E : GateEnv) (addr : Mac) (gate : ℕ) (m : MeshPath) (src : List MeshSkb) :
    List MeshSkb × List MeshSkb :=
  match m.nextHop with
  | none => (m.frameQueue, [])
  | some sta =>
    moveLoop (prepareForGate (E.staAddr sta) addr m.dst) (E.copyOk gate) 0 m.frameQueue src

/-- The queues of gates, each one after frames of the one before have been copied to it. -/
def gateQueues (E : GateEnv) (addr : Mac) (path : ℕ → MeshPath) :
    List MeshSkb → List ℕ → List (ℕ × List MeshSkb)
  | _, [] => []
  | src, gate :: gates =>
    let queue := (queueAfter E addr gate (path gate) src).1
    (gate, queue) :: gateQueues E addr path queue gates

variable {E : GateEnv}

theorem gateQueues_congr {addr : Mac} {path path' : ℕ → MeshPath} (src : List MeshSkb)
    {gates : List ℕ} (h : ∀ g ∈ gates, path g = path' g) :
    gateQueues E addr path src gates = gateQueues E addr path' src gates := by
  induction gates generalizing src with
  | nil => rfl
  | cons gate gates ih =>
    rw [gateQueues, gateQueues, h gate mem_cons_self,
      ih _ fun g hg => h g (mem_cons_of_mem gate hg)]

/-- The active ones. -/
def activeGates (s : MeshIf) (gates : List ℕ) : List ℕ := gates.filter fun g => (s.path g).flags.active

/-- What moving or copying to a gate does. -/
structure MoveSpec (E : GateEnv) (G G' : GateState) (gate from_ : ℕ) (copy : Bool) : Prop where
  addr : G'.mif.addr = G.mif.addr
  tbl : G'.mif.tbl = G.mif.tbl
  target : G'.mif.path gate = { G.mif.path gate with
    frameQueue := (queueAfter E G.mif.addr gate (G.mif.path gate) (G.mif.path from_).frameQueue).1 }
  other : ∀ q, q ≠ gate → q ≠ from_ → G'.mif.path q = G.mif.path q
  source : copy = true → G'.mif.path from_ = G.mif.path from_
  sent : G'.sent = G.sent
  lost : G'.lost = if copy then G.lost else
    G.lost ++ (queueAfter E G.mif.addr gate (G.mif.path gate) (G.mif.path from_).frameQueue).2

theorem moveSpec {G : GateState} {gate from_ : ℕ} (hne : gate ≠ from_)
    (hhop : (G.mif.path gate).nextHop.isSome) (copy : Bool) :
    MoveSpec E G (meshPathMoveToQueue E G gate from_ copy) gate from_ copy := by
  obtain ⟨sta, hsta⟩ := Option.isSome_iff_exists.mp hhop
  have hafter : ∀ src, queueAfter E G.mif.addr gate (G.mif.path gate) src =
      moveLoop (prepareForGate (E.staAddr sta) G.mif.addr (G.mif.path gate).dst) (E.copyOk gate) 0
        (G.mif.path gate).frameQueue src := by
    intro src
    rw [queueAfter, hsta]
  rw [meshPathMoveToQueue, if_neg hne, hsta]
  cases copy with
  | false =>
    constructor
    case other =>
      intro q hq hq'
      simp [MeshIf.path_updPath_of_ne _ hq, MeshIf.path_updPath_of_ne _ hq']
    case target => simp [MeshIf.path_updPath_of_ne _ hne, hafter]
    case lost => simp [MeshIf.path_updPath_of_ne _ hne, hafter]
    case source => exact fun h => absurd h Bool.false_ne_true
    all_goals rfl
  | true =>
    constructor
    case other =>
      intro q hq hq'
      simp [MeshIf.path_updPath_of_ne _ hq, MeshIf.path_updPath_of_ne _ hq']
    case target => simp [MeshIf.path_updPath_of_ne _ hne, hafter]
    case lost => rfl
    case source => simp [MeshIf.path_updPath_of_ne _ hne.symm]
    all_goals rfl

/-- What the first loop over gates does. -/
structure LoopSpec (E : GateEnv) (G G' : GateState) (src : List MeshSkb) (lost : List MeshSkb)
    (gates : List ℕ) : Prop where
  addr : G'.mif.addr = G.mif.addr
  lost_eq : G'.lost = G.lost ++ lost
  sent : G'.sent = G.sent
  flags : ∀ g ∈ gates, (G'.mif.path g).flags = (G.mif.path g).flags
  queues : ((activeGates G.mif gates).map fun g => (g, (G'.mif.path g).frameQueue)) =
    gateQueues E G.mif.addr G.mif.path src (activeGates G.mif gates)

variable {s : MeshIf}

section Loop

variable {E : GateEnv} {G : GateState} {gate from_ : ℕ} {gates : List ℕ}

theorem activeGates_congr {s s' : MeshIf} (h : ∀ g ∈ gates, (s'.path g).flags = (s.path g).flags) :
    activeGates s' gates = activeGates s gates :=
  filter_congr fun g hg => by rw [h g hg]

theorem activeGates_cons_of_active (h : (s.path gate).flags.active = true) :
    activeGates s (gate :: gates) = gate :: activeGates s gates := by
  rw [activeGates, filter_cons, if_pos h, activeGates]

theorem activeGates_cons_of_not (h : ¬(s.path gate).flags.active = true) :
    activeGates s (gate :: gates) = activeGates s gates := by
  rw [activeGates, filter_cons, if_neg h, activeGates]

/-- What moving to the first of some gates leaves on the list. -/
def movedLeft (E : GateEnv) (addr : Mac) (path : ℕ → MeshPath) (src : List MeshSkb) :
    List ℕ → List MeshSkb
  | [] => []
  | gate :: _ => (queueAfter E addr gate (path gate) src).2

/-- Moving to the first active gate, and then copying from one gate to the next. -/
theorem foldl_gateStep (gates : List ℕ) : ∀ {G : GateState} {from_ : ℕ} {copy : Bool}, gates.Nodup →
    from_ ∉ gates →
    (∀ g ∈ gates, (G.mif.path g).flags.active = true → (G.mif.path g).nextHop.isSome) →
    LoopSpec E G (gates.foldl (gateStep E) (G, from_, copy)).1 (G.mif.path from_).frameQueue
      (if copy then [] else
        movedLeft E G.mif.addr G.mif.path (G.mif.path from_).frameQueue (activeGates G.mif gates))
      gates ∧
    ∀ q, q ∉ gates → (q = from_ → copy = true) →
      (gates.foldl (gateStep E) (G, from_, copy)).1.mif.path q = G.mif.path q := by
  induction gates with
  | nil =>
    intro G from_ copy _ _ _
    refine ⟨⟨rfl, ?_, rfl, fun g hg => absurd hg not_mem_nil, rfl⟩, fun _ _ _ => rfl⟩
    cases copy <;> exact (append_nil _).symm
  | cons gate gates ih =>
    intro G from_ copy hnodup hfrom hhop
    rw [nodup_cons] at hnodup
    rw [mem_cons, not_or] at hfrom
    rw [foldl_cons, gateStep]
    by_cases hactive : (G.mif.path gate).flags.active = true
    · have hspec := moveSpec (E := E) (Ne.symm hfrom.1) (hhop gate mem_cons_self hactive) copy
      rw [if_pos hactive]
      dsimp only
      set G₁ := meshPathMoveToQueue E G gate from_ copy
      have hkeep : ∀ q, q ≠ gate → (q = from_ → copy = true) → G₁.mif.path q = G.mif.path q := by
        intro q hq hcopy
        by_cases hqf : q = from_
        · rw [hqf, hspec.source (hcopy hqf)]
        · exact hspec.other q hq hqf
      have hgates : ∀ g ∈ gates, G₁.mif.path g = G.mif.path g := fun g hg =>
        hkeep g (fun hgg => hnodup.1 (hgg ▸ hg)) fun hgf => absurd (hgf ▸ hg) hfrom.2
      -- from here on frames are copied
      obtain ⟨hloop, hrest⟩ := @ih G₁ gate true hnodup.2 hnodup.1 fun g hg => by
        rw [hgates g hg]
        exact hhop g (mem_cons_of_mem gate hg)
      have hact : activeGates G₁.mif gates = activeGates G.mif gates :=
        activeGates_congr fun g hg => by rw [hgates g hg]
      have hsub : ∀ g ∈ activeGates G.mif gates, G₁.mif.path g = G.mif.path g :=
        fun g hg => hgates g (mem_filter.mp hg).1
      have hq := hloop.queues
      rw [hact, hspec.addr, hspec.target, gateQueues_congr _ hsub] at hq
      refine ⟨⟨?_, ?_, ?_, ?_, ?_⟩, ?_⟩
      · rw [hloop.addr, hspec.addr]
      · rw [hloop.lost_eq, hspec.lost, activeGates_cons_of_active hactive, if_pos rfl, append_nil]
        cases copy with
        | false => rfl
        | true => exact (append_nil _).symm
      · rw [hloop.sent, hspec.sent]
      · intro g hg
        rcases mem_cons.mp hg with rfl | hg
        · rw [hrest g hnodup.1 fun _ => rfl, hspec.target]
        · rw [hloop.flags g hg, hgates g hg]
      · rw [activeGates_cons_of_active hactive, map_cons, gateQueues,
          hrest gate hnodup.1 fun _ => rfl, hspec.target, hq]
      · intro q hq hcopy
        rw [mem_cons, not_or] at hq
        rw [hrest q hq.2 fun _ => rfl, hkeep q hq.1 hcopy]
    · rw [if_neg hactive]
      obtain ⟨hloop, hrest⟩ := @ih G from_ copy hnodup.2 hfrom.2 fun g hg =>
        hhop g (mem_cons_of_mem gate hg)
      refine ⟨⟨hloop.addr, ?_, hloop.sent, ?_, ?_⟩, ?_⟩
      · rw [activeGates_cons_of_not hactive]
        exact hloop.lost_eq
      · intro g hg
        rcases mem_cons.mp hg with rfl | hg
        · rw [hrest g hnodup.1 fun hgf => absurd hgf.symm hfrom.1]
        · exact hloop.flags g hg
      · rw [activeGates_cons_of_not hactive]
        exact hloop.queues
      · intro q hq hcopy
        exact hrest q (fun hmem => hq (mem_cons_of_mem gate hmem)) hcopy

theorem foldl_txPending (gates : List ℕ) : ∀ {G : GateState}, gates.Nodup →
    (gates.foldl meshPathTxPending G).lost = G.lost ∧
      (gates.foldl meshPathTxPending G).sent = G.sent ++
        (activeGates G.mif gates).flatMap fun g => (G.mif.path g).frameQueue.map (Prod.mk g) := by
  induction gates with
  | nil => exact fun _ => ⟨rfl, (append_nil _).symm⟩
  | cons gate gates ih =>
    intro G hnodup
    rw [nodup_cons] at hnodup
    rw [foldl_cons]
    by_cases hactive : (G.mif.path gate).flags.active = true
    · have hpath : ∀ g ∈ gates, (meshPathTxPending G gate).mif.path g = G.mif.path g := by
        intro g hg
        have hne : g ≠ gate := fun hgg => hnodup.1 (hgg ▸ hg)
        rw [meshPathTxPending, if_pos hactive]
        exact Function.update_of_ne hne _ _
      have hact : activeGates (meshPathTxPending G gate).mif gates = activeGates G.mif gates :=
        activeGates_congr fun g hg => by rw [hpath g hg]
      obtain ⟨hlost, hsent⟩ := ih (G := meshPathTxPending G gate) hnodup.2
      have hqueues : ((activeGates G.mif gates).flatMap fun g =>
          ((meshPathTxPending G gate).mif.path g).frameQueue.map (Prod.mk g)) =
          (activeGates G.mif gates).flatMap fun g => (G.mif.path g).frameQueue.map (Prod.mk g) :=
        flatMap_congr fun g hg => by rw [hpath g (mem_filter.mp hg).1]
      have hgate : (meshPathTxPending G gate).lost = G.lost ∧ (meshPathTxPending G gate).sent =
          G.sent ++ (G.mif.path gate).frameQueue.map (Prod.mk gate) := by
        rw [meshPathTxPending, if_pos hactive]
        exact ⟨rfl, rfl⟩
      refine ⟨hlost.trans hgate.1, ?_⟩
      rw [hsent, hact, hqueues, hgate.2, activeGates_cons_of_active hactive, flatMap_cons,
        append_assoc]
    · have hsame : meshPathTxPending G gate = G := by rw [meshPathTxPending, if_neg hactive]
      rw [hsame, activeGates_cons_of_not hactive]
      exact ih hnodup.2

end Loop

/-- Gates are listed once, the failed path is none of them, active gates have a next hop. Frames are
told apart, with a mesh header behind four addresses. -/
structure GateInput (s : MeshIf) (mpath : ℕ) : Prop where
  nodup : (s.tbl .meshPaths).knownGates.Nodup
  not_gate : mpath ∉ (s.tbl .meshPaths).knownGates
  nextHop : ∀ g ∈ (s.tbl .meshPaths).knownGates, (s.path g).flags.active = true →
    (s.path g).nextHop.isSome
  uids : (((s.path mpath).frameQueue ++
    (s.tbl .meshPaths).knownGates.flatMap fun g => (s.path g).frameQueue).map MeshSkb.uid).Nodup
  formed : ∀ f ∈ (s.path mpath).frameQueue, fourAddr f.hdr.frameControl = true ∧
    f.meshOffset + 6 ≤ f.hdr.rest.length

/-- **What is sent and what is lost.** The queues of the active gates are sent, each one to its gate. -/
theorem meshPathSendToGates_spec {mpath : ℕ} (h : GateInput s mpath) :
    (meshPathSendToGates E s mpath).2.sent =
      (gateQueues E s.addr s.path (s.path mpath).frameQueue
        (activeGates s (s.tbl .meshPaths).knownGates)).flatMap (fun x => x.2.map (Prod.mk x.1)) ∧
    (meshPathSendToGates E s mpath).2.lost =
      movedLeft E s.addr s.path (s.path mpath).frameQueue
        (activeGates s (s.tbl .meshPaths).knownGates) := by
  obtain ⟨hloop, -⟩ := @foldl_gateStep E (s.tbl .meshPaths).knownGates { mif := s } mpath false h.nodup
    h.not_gate h.nextHop
  rw [meshPathSendToGates]
  dsimp only
  obtain ⟨hlost, hsent⟩ := foldl_txPending (s.tbl .meshPaths).knownGates
    (G := ((s.tbl .meshPaths).knownGates.foldl (gateStep E) ({ mif := s }, mpath, false)).1) h.nodup
  rw [hlost, hsent, hloop.sent, hloop.lost_eq, ← hloop.queues, activeGates_congr hloop.flags,
    nil_append, nil_append, flatMap_map]
  exact ⟨rfl, rfl⟩

/-! ### Frames on their way -/

/-- A frame sent on to a gate: it is for the gate, and the addresses it had are behind the mesh
header, unless some were there. -/
structure Forwarded (dst : Mac) (f skb : MeshSkb) : Prop where
  uid : skb.uid = f.uid
  addr3 : skb.hdr.addr3 = dst
  frameControl : skb.hdr.frameControl = f.hdr.frameControl
  hasAe : skb.hasAe = true
  ext : skb.hdr.rest.drop (f.meshOffset + 6) =
    if f.hasAe then f.hdr.rest.drop (f.meshOffset + 6)
    else f.hdr.addr3.toList ++ f.hdr.rest.take 6 ++ f.hdr.rest.drop (f.meshOffset + 6)

section Frame

variable {nextHop addr dst : Mac} {f skb : MeshSkb}

@[simp] theorem uid_prepareForGate (nextHop addr dst : Mac) (skb : MeshSkb) :
    (prepareForGate nextHop addr dst skb).uid = skb.uid := by
  rw [prepareForGate]
  dsimp only
  split <;> rfl

theorem rest_extend (hlen : skb.meshOffset + 6 ≤ skb.hdr.rest.length) :
    skb.extend.hdr.rest.drop (skb.meshOffset + 6) =
      skb.hdr.addr3.toList ++ skb.hdr.rest.take 6 ++ skb.hdr.rest.drop (skb.meshOffset + 6) ∧
    skb.extend.hdr.rest.getD skb.meshOffset 0 = MESH_FLAGS_AE_A5_A6 := by
  have hoff : (skb.hdr.rest.take skb.meshOffset).length = skb.meshOffset := by
    rw [length_take]
    omega
  have hflags : ((skb.hdr.rest.drop (skb.meshOffset + 1)).take 5).length = 5 := by
    rw [length_take, length_drop]
    omega
  rw [MeshSkb.extend]
  dsimp only
  constructor
  · have hpre : (skb.hdr.rest.take skb.meshOffset ++
        MESH_FLAGS_AE_A5_A6 :: (skb.hdr.rest.drop (skb.meshOffset + 1)).take 5).length =
        skb.meshOffset + 6 := by
      rw [length_append, hoff, length_cons, hflags]
    rw [append_assoc, append_assoc, drop_left' hpre, append_assoc]
  · rw [append_assoc, append_assoc, append_assoc, getD_append_right _ _ _ _ hoff.le,
      hoff, Nat.sub_self]
    rfl

theorem forwarded_prepare (hlen : f.meshOffset + 6 ≤ f.hdr.rest.length) :
    Forwarded dst f (prepareForGate nextHop addr dst f) := by
  cases hae : f.hasAe with
  | true =>
    rw [prepareForGate, hae]
    exact ⟨rfl, rfl, rfl, hae, by rw [hae]; rfl⟩
  | false =>
    obtain ⟨hrest, hflags⟩ := rest_extend hlen
    rw [prepareForGate, hae]
    refine ⟨rfl, rfl, rfl, ?_, ?_⟩
    · show (f.extend.hdr.rest.getD f.meshOffset 0) &&& MESH_FLAGS_AE != 0
      rw [hflags]
      decide
    · rw [hae]
      exact hrest

theorem Forwarded.prepare {dst' : Mac} (h : Forwarded dst' f skb) :
    Forwarded dst f (prepareForGate nextHop addr dst skb) := by
  rw [prepareForGate, h.hasAe]
  exact ⟨h.uid, rfl, h.frameControl, h.hasAe, h.ext⟩

end Frame

/-! ### The queues in the end -/

section Queues

variable {E : GateEnv} {addr : Mac} {path : ℕ → MeshPath} {gates : List ℕ} {src F : List MeshSkb}

/-- Nothing can be added to the queue of a gate. -/
def Blocked (E : GateEnv) (path : ℕ → MeshPath) (g : ℕ) : Prop :=
  meshFrameQueueLen ≤ (path g).frameQueue.length ∨ E.copyOk g 0 = false

theorem exists_queueAfter (E : GateEnv) (addr : Mac) (g : ℕ) (m : MeshPath) (src : List MeshSkb) :
    ∃ done nextHop, done <+: src ∧
      (queueAfter E addr g m src).1 = m.frameQueue ++ done.map (prepareForGate nextHop addr m.dst) := by
  rw [queueAfter]
  cases hhop : m.nextHop with
  | none => exact ⟨[], addr, nil_prefix, (append_nil _).symm⟩
  | some sta =>
    obtain ⟨done, hsrc, hqueue⟩ := moveLoop_spec (prepareForGate (E.staAddr sta) addr m.dst) (E.copyOk g)
      0 m.frameQueue src
    exact ⟨done, E.staAddr sta, ⟨_, hsrc.symm⟩, hqueue⟩

theorem queueAfter_of_blocked {g : ℕ} (h : Blocked E path g) :
    (queueAfter E addr g (path g) src).1 = (path g).frameQueue := by
  rw [queueAfter]
  cases (path g).nextHop with
  | none => rfl
  | some sta => exact moveLoop_none h

theorem map_uid_prepare (nextHop addr dst : Mac) (done : List MeshSkb) :
    (done.map (prepareForGate nextHop addr dst)).map MeshSkb.uid = done.map MeshSkb.uid := by
  rw [map_map]
  exact map_congr_left fun skb _ => uid_prepareForGate nextHop addr dst skb

theorem map_fst_gateQueues (src : List MeshSkb) (gates : List ℕ) :
    (gateQueues E addr path src gates).map Prod.fst = gates := by
  induction gates generalizing src with
  | nil => rfl
  | cons g gates ih => rw [gateQueues, map_cons, ih]

/-- **No frame twice.** If source and queues have no frame in common, each queue has each frame once. -/
theorem gateQueues_nodup (gates : List ℕ) : ∀ {src : List MeshSkb},
    ((src ++ gates.flatMap fun g => (path g).frameQueue).map MeshSkb.uid).Nodup →
    ∀ x ∈ gateQueues E addr path src gates, (x.2.map MeshSkb.uid).Nodup := by
  induction gates with
  | nil => exact fun _ x hx => absurd hx not_mem_nil
  | cons g gates ih =>
    intro src hnodup
    obtain ⟨done, nextHop, hdone, hqueue⟩ := exists_queueAfter E addr g (path g) src
    have hkept : (((path g).frameQueue ++ done.map (prepareForGate nextHop addr (path g).dst) ++
        gates.flatMap fun g => (path g).frameQueue).map MeshSkb.uid).Nodup := by
      rw [map_append, map_append, map_uid_prepare, ← map_append, ← map_append]
      have hperm : (src ++ (g :: gates).flatMap fun g => (path g).frameQueue).Perm
          ((path g).frameQueue ++ src ++ gates.flatMap fun g => (path g).frameQueue) := by
        rw [flatMap_cons, ← append_assoc]
        exact perm_append_comm.append_right _
      refine ((hperm.map MeshSkb.uid).nodup hnodup).sublist (List.Sublist.map MeshSkb.uid ?_)
      exact ((List.Sublist.refl _).append hdone.sublist).append (List.Sublist.refl _)
    intro x hx
    rw [gateQueues, hqueue, mem_cons] at hx
    rcases hx with rfl | hx
    · rw [map_append] at hkept
      exact (nodup_append.mp hkept).1
    · exact ih hkept x hx

/-- A frame on its way is the frame itself, or has been sent on to some gate. -/
def Stems (f skb : MeshSkb) : Prop := skb = f ∨ ∃ dst, Forwarded dst f skb

/-- **Every frame of the source that reaches a gate is addressed to it.** -/
theorem gateQueues_forwarded {f : MeshSkb} (hlen : f.meshOffset + 6 ≤ f.hdr.rest.length)
    (gates : List ℕ) : ∀ {src : List MeshSkb}, (∀ skb ∈ src, skb.uid = f.uid → Stems f skb) →
    (∀ g ∈ gates, ∀ skb ∈ (path g).frameQueue, skb.uid ≠ f.uid) →
    ∀ x ∈ gateQueues E addr path src gates, ∀ skb ∈ x.2, skb.uid = f.uid →
      Forwarded (path x.1).dst f skb := by
  induction gates with
  | nil => exact fun _ _ x hx => absurd hx not_mem_nil
  | cons g gates ih =>
    intro src hsrc hown
    obtain ⟨done, nextHop, hdone, hqueue⟩ := exists_queueAfter E addr g (path g) src
    have hqueued : ∀ skb ∈ (path g).frameQueue ++ done.map (prepareForGate nextHop addr (path g).dst),
        skb.uid = f.uid → Forwarded (path g).dst f skb := by
      intro skb hskb huid
      rcases mem_append.mp hskb with hskb | hskb
      · exact absurd huid (hown g mem_cons_self skb hskb)
      · obtain ⟨skb', hskb', rfl⟩ := mem_map.mp hskb
        rw [uid_prepareForGate] at huid
        rcases hsrc skb' (hdone.subset hskb') huid with rfl | ⟨dst, hfwd⟩
        · exact forwarded_prepare hlen
        · exact hfwd.prepare
    intro x hx
    rw [gateQueues, hqueue, mem_cons] at hx
    rcases hx with rfl | hx
    · exact hqueued
    · exact ih (fun skb hskb huid => .inr ⟨_, hqueued skb hskb huid⟩)
        (fun g' hg' => hown g' (mem_cons_of_mem g hg')) x hx

/-- **What is not copied does not get anywhere**: each queue holds frames of its own and of the
source only. -/
theorem gateQueues_own {F : List MeshSkb} (gates : List ℕ) : ∀ {src : List MeshSkb},
    (gates.IsChain fun g g' => (path g).frameQueue = [] ∨ Blocked E path g') →
    ((∀ skb ∈ src, ∃ f ∈ F, skb.uid = f.uid) ∨ ∀ g ∈ gates.head?, Blocked E path g) →
    ∀ x ∈ gateQueues E addr path src gates, ∀ skb ∈ x.2,
      skb ∈ (path x.1).frameQueue ∨ ∃ f ∈ F, skb.uid = f.uid := by
  induction gates with
  | nil => exact fun _ _ x hx => absurd hx not_mem_nil
  | cons g gates ih =>
    intro src hchain hsrc
    have hqueued : ∀ skb ∈ (queueAfter E addr g (path g) src).1,
        skb ∈ (path g).frameQueue ∨ ∃ f ∈ F, skb.uid = f.uid := by
      intro skb hskb
      rcases hsrc with hsrc | hblocked
      · obtain ⟨done, nextHop, hdone, hqueue⟩ := exists_queueAfter E addr g (path g) src
        rw [hqueue] at hskb
        rcases mem_append.mp hskb with hskb | hskb
        · exact .inl hskb
        · obtain ⟨skb', hskb', rfl⟩ := mem_map.mp hskb
          rw [uid_prepareForGate]
          exact .inr (hsrc skb' (hdone.subset hskb'))
      · rw [queueAfter_of_blocked (hblocked g rfl)] at hskb
        exact .inl hskb
    intro x hx
    rw [gateQueues, mem_cons] at hx
    rcases hx with rfl | hx
    · exact hqueued
    · refine ih hchain.of_cons ?_ x hx
      cases gates with
      | nil => exact .inr fun g' hg' => absurd hg' (by simp)
      | cons g' gates =>
        rcases (isChain_cons_cons.mp hchain).1 with hempty | hblocked
        · left
          intro skb hskb
          rcases hqueued skb hskb with hmem | hF
          · rw [hempty] at hmem
            exact absurd hmem not_mem_nil
          · exact hF
        · right
          intro g'' hg''
          rw [List.head?_cons, Option.mem_some_iff] at hg''
          exact hg'' ▸ hblocked

theorem isChain_of_own (gates : List ℕ) : ∀ {src : List MeshSkb}, gates.Nodup →
    (∀ g ∈ gates, (path g).nextHop.isSome) →
    (∀ x ∈ gateQueues E addr path src gates, ∀ skb ∈ x.2, ∀ g ∈ gates, g ≠ x.1 →
      ∀ f ∈ (path g).frameQueue, skb.uid ≠ f.uid) →
    gates.IsChain fun g g' => (path g).frameQueue = [] ∨ Blocked E path g' := by
  induction gates with
  | nil => exact fun _ _ _ => List.IsChain.nil
  | cons g gates ih =>
    intro src hnodup hhop hown
    rw [nodup_cons] at hnodup
    have hrest := ih hnodup.2 (fun g' hg' => hhop g' (mem_cons_of_mem g hg'))
      fun x hx skb hskb g' hg' => hown x (mem_cons_of_mem _ hx) skb hskb g'
        (mem_cons_of_mem g hg')
    cases gates with
    | nil => exact List.IsChain.singleton g
    | cons g' gates =>
      refine isChain_cons_cons.mpr ⟨?_, hrest⟩
      by_contra hnot
      rw [not_or, Blocked, not_or, Nat.not_le, Bool.not_eq_false] at hnot
      obtain ⟨hne, hroom, hok⟩ := hnot
      obtain ⟨f, own, hfown⟩ := exists_cons_of_ne_nil hne
      obtain ⟨done, nextHop, -, hqueue⟩ := exists_queueAfter E addr g (path g) src
      obtain ⟨sta, hsta⟩ := Option.isSome_iff_exists.mp
        (hhop g' (mem_cons_of_mem g mem_cons_self))
      have hfirst : prepareForGate (E.staAddr sta) addr (path g').dst f ∈
          (queueAfter E addr g' (path g') (queueAfter E addr g (path g) src).1).1 := by
        rw [hqueue, hfown, cons_append, queueAfter, hsta]
        exact moveLoop_first hroom hok
      have hgg : g ≠ g' := fun hgg => hnodup.1 (hgg ▸ mem_cons_self)
      refine hown (g', _) (mem_cons_of_mem _ mem_cons_self) _ hfirst g mem_cons_self hgg f
        ?_ (uid_prepareForGate _ _ _ f)
      rw [hfown]
      exact mem_cons_self

end Queues

/-! ### What is said of it -/

/-- No frame is lost; each frame of the failed path is sent to each gate at most once, addressed to
it and with the addresses it had; no gate gets a frame that waited for another one. -/
structure GatesRight (E : GateEnv) (s : MeshIf) (mpath : ℕ) : Prop where
  conserved : (meshPathSendToGates E s mpath).2.lost = []
  once : ∀ f ∈ (s.path mpath).frameQueue, ∀ g,
    ((meshPathSendToGates E s mpath).2.sent.map fun x => (x.1, x.2.uid)).count (g, f.uid) ≤ 1
  forwarded : ∀ f ∈ (s.path mpath).frameQueue, ∀ x ∈ (meshPathSendToGates E s mpath).2.sent,
    x.2.uid = f.uid → Forwarded (s.path x.1).dst f x.2
  own : ∀ x ∈ (meshPathSendToGates E s mpath).2.sent, ∀ g ∈ (s.tbl .meshPaths).knownGates, g ≠ x.1 →
    ∀ f ∈ (s.path g).frameQueue, x.2.uid ≠ f.uid

/-- All frames fit into the first queue and are copied; of two active gates in a row, the first has
no frames of its own, or the second takes none. -/
structure GatesFit (E : GateEnv) (s : MeshIf) (mpath : ℕ) : Prop where
  moved : ∀ g ∈ (activeGates s (s.tbl .meshPaths).knownGates).head?,
    (s.path mpath).frameQueue = [] ∨
      (s.path g).frameQueue.length + (s.path mpath).frameQueue.length ≤ meshFrameQueueLen ∧
        ∀ j < (s.path mpath).frameQueue.length, E.copyOk g j = true
  copied : (activeGates s (s.tbl .meshPaths).knownGates).IsChain fun g g' =>
    (s.path g).frameQueue = [] ∨ Blocked E s.path g'

section Right

variable {E : GateEnv} {s : MeshIf} {mpath : ℕ}

theorem movedLeft_eq_nil_iff (h : GateInput s mpath) :
    movedLeft E s.addr s.path (s.path mpath).frameQueue
      (activeGates s (s.tbl .meshPaths).knownGates) = [] ↔
    ∀ g ∈ (activeGates s (s.tbl .meshPaths).knownGates).head?,
      (s.path mpath).frameQueue = [] ∨
        (s.path g).frameQueue.length + (s.path mpath).frameQueue.length ≤ meshFrameQueueLen ∧
          ∀ j < (s.path mpath).frameQueue.length, E.copyOk g j = true := by
  cases hact : activeGates s (s.tbl .meshPaths).knownGates with
  | nil => exact iff_of_true rfl fun g hg => absurd hg (by simp)
  | cons g gates =>
    have hg : g ∈ activeGates s (s.tbl .meshPaths).knownGates := by
      rw [hact]
      exact mem_cons_self
    obtain ⟨hknown, hactive⟩ := mem_filter.mp hg
    obtain ⟨sta, hsta⟩ := Option.isSome_iff_exists.mp (h.nextHop g hknown hactive)
    rw [movedLeft, queueAfter, hsta]
    dsimp only
    rw [moveLoop_left_iff]
    simp only [Nat.zero_add, List.head?_cons, Option.mem_some_iff, forall_eq']

/-- What the first queue has in common with those of the gates, and these among each other: nothing. -/
theorem GateInput.uid_ne (h : GateInput s mpath) {g : ℕ} (hg : g ∈ (s.tbl .meshPaths).knownGates)
    {f skb : MeshSkb} (hf : f ∈ (s.path mpath).frameQueue) (hskb : skb ∈ (s.path g).frameQueue) :
    skb.uid ≠ f.uid := by
  have huids := h.uids
  rw [map_append, nodup_append] at huids
  exact fun huid => huids.2.2 f.uid (mem_map_of_mem hf) skb.uid
    (mem_map_of_mem (mem_flatMap.mpr ⟨g, hg, hskb⟩)) huid.symm

theorem GateInput.uid_ne_of_ne (h : GateInput s mpath) {g g' : ℕ}
    (hg : g ∈ (s.tbl .meshPaths).knownGates) (hg' : g' ∈ (s.tbl .meshPaths).knownGates) (hne : g ≠ g')
    {f skb : MeshSkb} (hf : f ∈ (s.path g).frameQueue) (hskb : skb ∈ (s.path g').frameQueue) :
    skb.uid ≠ f.uid := by
  have huids := h.uids
  rw [map_append, nodup_append, map_flatMap, nodup_flatMap] at huids
  have hsymm : Std.Symm (Function.onFun List.Disjoint fun a =>
      (s.path a).frameQueue.map MeshSkb.uid) := ⟨fun _ _ hd => hd.symm⟩
  have hdisjoint := huids.2.1.2.forall hg hg' hne
  exact fun huid => hdisjoint (mem_map_of_mem hf) (huid ▸ mem_map_of_mem hskb)

theorem GateInput.nodup_active (h : GateInput s mpath) :
    (((s.path mpath).frameQueue ++ (activeGates s (s.tbl .meshPaths).knownGates).flatMap fun g =>
      (s.path g).frameQueue).map MeshSkb.uid).Nodup := by
  refine h.uids.sublist (List.Sublist.map MeshSkb.uid ?_)
  exact (List.Sublist.refl _).append (filter_sublist.flatMap _)

theorem nodup_sent {queues : List (ℕ × List MeshSkb)} (hgates : (queues.map Prod.fst).Nodup)
    (hqueues : ∀ x ∈ queues, (x.2.map MeshSkb.uid).Nodup) :
    ((queues.flatMap fun x => x.2.map (Prod.mk x.1)).map fun x => (x.1, x.2.uid)).Nodup := by
  rw [map_flatMap, nodup_flatMap]
  constructor
  · intro x hx
    rw [map_map]
    have hmap : x.2.map ((fun x => (x.1, x.2.uid)) ∘ Prod.mk x.1) =
        (x.2.map MeshSkb.uid).map (Prod.mk x.1) := by
      rw [map_map]
      rfl
    rw [hmap]
    exact (hqueues x hx).map fun _ _ h => (Prod.mk.inj h).2
  · refine (pairwise_map.mp hgates).imp fun {x y} hxy => ?_
    intro k hk hk'
    simp only [map_map, mem_map] at hk hk'
    obtain ⟨skb, -, rfl⟩ := hk
    obtain ⟨skb', -, heq⟩ := hk'
    exact hxy (Prod.mk.inj heq).1.symm

/-- **Falling back to gates** works exactly if all frames fit into the first queue, and no queue
with frames of its own is copied. -/
theorem gatesRight_iff (h : GateInput s mpath) : GatesRight E s mpath ↔ GatesFit E s mpath := by
  obtain ⟨hsent, hlost⟩ := meshPathSendToGates_spec (E := E) h
  have hmem : ∀ g ∈ activeGates s (s.tbl .meshPaths).knownGates, g ∈ (s.tbl .meshPaths).knownGates :=
    fun g hg => (mem_filter.mp hg).1
  have hqueue : ∀ x ∈ (meshPathSendToGates E s mpath).2.sent, ∃ queue,
      (x.1, queue) ∈ gateQueues E s.addr s.path (s.path mpath).frameQueue
        (activeGates s (s.tbl .meshPaths).knownGates) ∧ x.2 ∈ queue := by
    intro x hx
    rw [hsent, mem_flatMap] at hx
    obtain ⟨y, hy, hx⟩ := hx
    obtain ⟨skb, hskb, rfl⟩ := mem_map.mp hx
    exact ⟨y.2, hy, hskb⟩
  have hgate : ∀ x ∈ gateQueues E s.addr s.path (s.path mpath).frameQueue
      (activeGates s (s.tbl .meshPaths).knownGates), x.1 ∈ (s.tbl .meshPaths).knownGates := by
    intro x hx
    have := mem_map_of_mem (f := Prod.fst) hx
    rw [map_fst_gateQueues] at this
    exact hmem x.1 this
  constructor
  · intro hright
    have hmoved := hright.conserved
    rw [hlost, movedLeft_eq_nil_iff h] at hmoved
    have hown : ∀ x ∈ gateQueues E s.addr s.path (s.path mpath).frameQueue
        (activeGates s (s.tbl .meshPaths).knownGates), ∀ skb ∈ x.2,
        ∀ g ∈ activeGates s (s.tbl .meshPaths).knownGates, g ≠ x.1 →
          ∀ f ∈ (s.path g).frameQueue, skb.uid ≠ f.uid := by
      intro x hx skb hskb g hg hne
      refine hright.own (x.1, skb) ?_ g (hmem g hg) hne
      rw [hsent]
      exact mem_flatMap.mpr ⟨x, hx, mem_map_of_mem hskb⟩
    exact ⟨hmoved, isChain_of_own _ (h.nodup.filter _)
      (fun g hg => h.nextHop g (hmem g hg) (mem_filter.mp hg).2) hown⟩
  · intro hfit
    refine ⟨?_, ?_, ?_, ?_⟩
    · rw [hlost, movedLeft_eq_nil_iff h]
      exact hfit.moved
    · intro f _ g
      refine nodup_iff_count_le_one.mp ?_ _
      rw [hsent]
      refine nodup_sent ?_ (gateQueues_nodup _ h.nodup_active)
      rw [map_fst_gateQueues]
      exact h.nodup.filter _
    · intro f hf x hx huid
      obtain ⟨queue, hq, hskb⟩ := hqueue x hx
      have hlen := (h.formed f hf).2
      refine gateQueues_forwarded hlen _ ?_ ?_ (x.1, queue) hq x.2 hskb huid
      · intro skb hskb' huid'
        left
        have huids := h.uids
        rw [map_append, nodup_append] at huids
        exact inj_on_of_nodup_map huids.1 hskb' hf huid'
      · exact fun g hg skb hskb' => h.uid_ne (hmem g hg) hf hskb'
    · intro x hx g hg hne f hf
      obtain ⟨queue, hq, hskb⟩ := hqueue x hx
      rcases gateQueues_own (F := (s.path mpath).frameQueue) _ hfit.copied
        (.inl fun skb hskb' => ⟨skb, hskb', rfl⟩) (x.1, queue) hq x.2 hskb with hown | ⟨f', hf', huid⟩
      · exact h.uid_ne_of_ne hg (hgate _ hq) hne hf hown
      · rw [huid]
        exact (h.uid_ne hg hf' hf).symm

end Right

/-- A frame of four addresses, with the mesh header behind the QoS control field. -/
private def gateFrame (uid : ℕ) : MeshSkb where
  uid := uid
  hdr := {
    frameControl := FTYPE_DATA ||| STYPE_QOS_DATA ||| FCTL_TODS ||| FCTL_FROMDS
    durationId := 0
    addr1 := Vector.replicate 6 0
    addr2 := Vector.replicate 6 0
    addr3 := Vector.replicate 6 8
    seqCtrl := 0
    rest := List.replicate 6 4 ++ List.replicate 20 0 }

/-- Path 0 has failed; paths 1 and 2 lead to gates, and frames wait at the first one. -/
private def gateIf (own : List ℕ) : MeshIf where
  addr := Vector.replicate 6 2
  path p := {
    dst := Vector.replicate 6 (UInt8.ofNat (16 * p))
    mpp := Vector.replicate 6 0
    nextHop := some p
    frameQueue := if p = 0 then [gateFrame 0, gateFrame 1] else if p = 1 then own.map gateFrame else []
    expTime := 0
    flags := { active := p != 0 } }
  nextPath := 3
  tbl t := if t = .meshPaths then { knownGates := [1, 2], rhead := [0, 1, 2], walkHead := [0, 1, 2] } else {}

private def gateEnv (copyOk : ℕ → ℕ → Bool) : GateEnv where
  staAddr sta := Vector.replicate 6 (UInt8.ofNat (32 * sta))
  copyOk := copyOk

/-- Two frames reach both gates. -/
theorem gatesRight_two : GatesRight (gateEnv fun _ _ => true) (gateIf []) 0 := by
  have hin : GateInput (gateIf []) 0 := ⟨by decide, by decide, by decide, by decide, by decide +kernel⟩
  refine (gatesRight_iff hin).mpr ⟨?_, ?_⟩
  · intro g hg
    obtain rfl : 1 = g := Option.some.inj hg
    exact .inr ⟨by decide, fun _ _ => rfl⟩
  · exact isChain_cons_cons.mpr ⟨.inl rfl, List.IsChain.singleton 2⟩

/-- If the second copy fails, the second frame is lost; a frame that waits for the first gate is
sent to the second. -/
theorem gates_go_wrong : (GateInput (gateIf []) 0 ∧
      (meshPathSendToGates (gateEnv fun _ j => j == 0) (gateIf []) 0).2.lost = [gateFrame 1] ∧
      ¬ GatesRight (gateEnv fun _ j => j == 0) (gateIf []) 0) ∧
    GateInput (gateIf [5]) 0 ∧
      (meshPathSendToGates (gateEnv fun _ _ => true) (gateIf [5]) 0).2.sent.map
        (fun x => (x.1, x.2.uid)) = [(1, 5), (1, 0), (1, 1), (2, 5), (2, 0), (2, 1)] ∧
      ¬ GatesRight (gateEnv fun _ _ => true) (gateIf [5]) 0 := by
  have hlost : (meshPathSendToGates (gateEnv fun _ j => j == 0) (gateIf []) 0).2.lost =
      [gateFrame 1] := by decide +kernel
  have hsent : (meshPathSendToGates (gateEnv fun _ _ => true) (gateIf [5]) 0).2.sent.map
      (fun x => (x.1, x.2.uid)) = [(1, 5), (1, 0), (1, 1), (2, 5), (2, 0), (2, 1)] := by decide +kernel
  refine ⟨⟨⟨by decide, by decide, by decide, by decide, by decide +kernel⟩, hlost, fun hright => ?_⟩,
    ⟨by decide, by decide, by decide, by decide, by decide +kernel⟩, hsent, fun hright => ?_⟩
  · rw [hright.conserved] at hlost
    exact absurd hlost (by simp)
  · have hmem : (2, 5) ∈ (meshPathSendToGates (gateEnv fun _ _ => true) (gateIf [5]) 0).2.sent.map
        fun x => (x.1, x.2.uid) := by
      rw [hsent]
      decide
    obtain ⟨x, hx, heq⟩ := mem_map.mp hmem
    obtain ⟨hgate, huid⟩ := Prod.mk.inj heq
    refine hright.own x hx 1 (by decide) (by rw [hgate]; decide) (gateFrame 5) (by decide +kernel) ?_
    rw [huid]
    rfl

end Mac80211
